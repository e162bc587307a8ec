import ThinEdge.Lib.Cursor

/-!
# Reading a buffer into storage

A parser in a language with pointers fills a record that its caller owns, and a caller that owns one
record for all buffers finds in it what earlier buffers left. `Fill σ α` is an operation of
`Cursor.Op` that also writes to storage of type `σ`: when it fails, what it has written until then
stays.

`Fills P Q f op` says that from every storage with `P`, whatever else is in it, `f` fails when `op`
does, and else leaves a storage in which `Q` relates the two results. Its rules follow the way the
operation is built, so that a parser into storage is compared with one that returns its result, one
operation at a time.
-/

namespace Cursor

variable {σ α β γ δ τ : Type}

/-- An operation that reads the buffer through a cursor and writes to storage. -/
def Fill (σ α : Type) := Cursor → σ → Checked (Option α × Cursor × σ)

theorem Op.bind_assoc (op : Op α) (g : α → Op γ) (k : γ → Op δ) :
    (op >>= g) >>= k = op >>= fun a ↦ g a >>= k := by
  funext d
  show Op.bind (Op.bind op g) k d = Op.bind op (fun a ↦ Op.bind (g a) k) d
  rw [Op.bind, Op.bind, Op.bind]
  rcases op d with e | ⟨- | a, d'⟩
  · rfl
  · rfl
  · rfl

namespace Fill

/-- Succeed without reading or writing. -/
protected def pure (a : α) : Fill σ α := fun d m ↦ .ok (some a, d, m)

/-- Fail without reading or writing. -/
def fail : Fill σ α := fun d m ↦ .ok (none, d, m)

/-- Go on with the result, from where the first operation left the cursor and the storage. -/
protected def bind (f : Fill σ α) (g : α → Fill σ γ) : Fill σ γ := fun d m ↦
  match f d m with
  | .error e => .error e
  | .ok (none, d', m') => .ok (none, d', m')
  | .ok (some a, d', m') => g a d' m'

instance : Monad (Fill σ) where
  pure := Fill.pure
  bind := Fill.bind

theorem bind_pure (f : Fill σ α) : (f >>= fun a ↦ pure a) = f := by
  funext d m
  show Fill.bind f (fun a ↦ Fill.pure a) d m = f d m
  rw [Fill.bind]
  rcases f d m with e | ⟨- | a, d', m'⟩
  · rfl
  · rfl
  · rfl

/-- An operation that leaves the storage. -/
def read (op : Op α) : Fill σ α := fun d m ↦
  match op d with
  | .error e => .error e
  | .ok (r, d') => .ok (r, d', m)

/-- The storage. -/
def get : Fill σ σ := fun d m ↦ .ok (some m, d, m)

/-- Write to the storage. -/
def write (f : σ → σ) : Fill σ Unit := fun d m ↦ .ok (some (), d, f m)

/-- Run an operation on a cursor of its own. -/
def within (inner : Cursor) (f : Fill σ α) : Fill σ α := fun d m ↦
  match f inner m with
  | .error e => .error e
  | .ok (r, _, m') => .ok (r, d, m')

/-- The loop of `untilDone`. -/
def loop (least : ℕ) (body : τ → Fill σ (Bool × τ)) (s : τ) (d : Cursor) (m : σ) :
    Checked (Option τ × Cursor × σ) :=
  if d.done then .ok (some s, d, m)
  else
    match body s d m with
    | .error e => .error e
    | .ok (none, d', m') => .ok (none, d', m')
    | .ok (some (false, s'), d', m') => .ok (some s', d', m')
    | .ok (some (true, s'), d', m') =>
      if d.p < d.stop ∧ d.p < d'.p ∧ d.p + least ≤ d'.p ∧ d'.stop = d.stop then
        loop least body s' d' m'
      else .error .stuck
termination_by d.stop - d.p

/-- `Op.untilDone`, with storage. -/
def untilDone (least : ℕ) (body : τ → Fill σ (Bool × τ)) (s : τ) : Fill σ τ := loop least body s

end Fill

/-- From storage with `P`, the operation fails when `op` does, and else leaves storage in which the
results are related by `Q`. -/
def Fills (P : σ → Prop) (Q : α → β → σ → Prop) (f : Fill σ α) (op : Op β) : Prop :=
  ∀ d m, P m →
    match op d with
    | .error e => f d m = .error e
    | .ok (none, d') => ∃ m', f d m = .ok (none, d', m')
    | .ok (some b, d') => ∃ a m', f d m = .ok (some a, d', m') ∧ Q a b m'

variable {P P' : σ → Prop} {Q Q' : α → β → σ → Prop} {S : γ → δ → σ → Prop} {f : Fill σ α}
  {op : Op β} {g : α → Fill σ γ} {k : β → Op δ}

theorem fills_pure {a : α} {b : β} (h : ∀ m, P m → Q a b m) :
    Fills P Q (pure a : Fill σ α) (pure b : Op β) :=
  fun _ m hm ↦ ⟨a, m, rfl, h m hm⟩

theorem fills_fail : Fills P Q (Fill.fail : Fill σ α) (Op.fail : Op β) := fun _ m _ ↦ ⟨m, rfl⟩

theorem Fills.mono (h : Fills P Q f op) (hP : ∀ m, P' m → P m)
    (hQ : ∀ a b m, Q a b m → Q' a b m) : Fills P' Q' f op := by
  intro d m hm
  have hfop := h d m (hP m hm)
  rcases hop : op d with e | ⟨- | b, d'⟩
  · simpa only [hop] using hfop
  · simpa only [hop] using hfop
  · simp only [hop] at hfop
    obtain ⟨a, m', heq, hq⟩ := hfop
    exact ⟨a, m', heq, hQ a b m' hq⟩

/-- **Sequences.** -/
theorem Fills.bind (h : Fills P Q f op) (hg : ∀ a b, Fills (Q a b) S (g a) (k b)) :
    Fills P S (f >>= g) (op >>= k) := by
  intro d m hm
  have hfop := h d m hm
  have hbind : (op >>= k) d = Op.bind op k d := rfl
  have hfbind : (f >>= g) d m = Fill.bind f g d m := rfl
  rw [hbind, hfbind, Op.bind, Fill.bind]
  rcases hop : op d with e | ⟨- | b, d'⟩
  · simp only [hop] at hfop
    rw [hfop]
  · simp only [hop] at hfop
    obtain ⟨m', heq⟩ := hfop
    rw [heq]
    exact ⟨m', rfl⟩
  · simp only [hop] at hfop
    obtain ⟨a, m', heq, hq⟩ := hfop
    rw [heq]
    exact hg a b d' m' hq

/-- Reading, which leaves what is known of the storage. -/
theorem Fills.read {op : Op β} {g : β → Fill σ γ} (hg : ∀ b, Fills P S (g b) (k b)) :
    Fills P S (Fill.read op >>= g) (op >>= k) := by
  refine Fills.bind (Q := fun a b m ↦ a = b ∧ P m) (fun d m hm ↦ ?_) fun a b d m hm ↦ ?_
  · rcases hop : op d with e | ⟨- | b, d'⟩
    · exact (show Fill.read op d m = _ by rw [Fill.read, hop])
    · exact ⟨m, by rw [Fill.read, hop]⟩
    · exact ⟨b, m, by rw [Fill.read, hop], rfl, hm⟩
  · obtain ⟨rfl, hm⟩ := hm
    exact hg a d m hm

/-- A write where the other operation does nothing. -/
theorem Fills.write {w : σ → σ} {h : Unit → Fill σ α} {R : σ → Prop} (hw : Fills R Q (h ()) op)
    (hR : ∀ m, P m → R (w m)) : Fills P Q (Fill.write w >>= h) op :=
  fun d m hm ↦ hw d (w m) (hR m hm)

/-- A result that is made of the other operation's. -/
theorem Fills.map (h : Fills P Q f op) {v : β → δ} {R : α → δ → σ → Prop}
    (hR : ∀ a b m, Q a b m → R a (v b) m) : Fills P R f (op >>= fun b ↦ pure (v b)) := by
  rw [← Fill.bind_pure f]
  exact h.bind fun a b ↦ fills_pure (hR a b)

/-- Looking at the storage. -/
theorem Fills.get {h : σ → Fill σ α} (hh : ∀ m, P m → Fills (· = m) Q (h m) op) :
    Fills P Q (Fill.get >>= h) op :=
  fun d m hm ↦ hh m hm d m rfl

theorem fills_ite {c c' : Prop} [Decidable c] [Decidable c'] {f₁ f₂ : Fill σ α} {op₁ op₂ : Op β}
    (hc : c ↔ c') (h₁ : c → Fills P Q f₁ op₁) (h₂ : ¬ c → Fills P Q f₂ op₂) :
    Fills P Q (if c then f₁ else f₂) (if c' then op₁ else op₂) := by
  rcases Decidable.em c with h | h
  · rw [if_pos h, if_pos (hc.1 h)]
    exact h₁ h
  · rw [if_neg h, if_neg (mt hc.2 h)]
    exact h₂ h

/-- **Nested ranges.** -/
theorem Fills.within (h : Fills P Q f op) (inner : Cursor) :
    Fills P Q (Fill.within inner f) (Op.within inner op) := by
  intro d m hm
  have hfop := h inner m hm
  rw [Op.within, Fill.within]
  rcases hop : op inner with e | ⟨- | b, d'⟩
  · simp only [hop] at hfop
    rw [hfop]
  · simp only [hop] at hfop
    obtain ⟨m', heq⟩ := hfop
    rw [heq]
    exact ⟨m', rfl⟩
  · simp only [hop] at hfop
    obtain ⟨a, m', heq, hq⟩ := hfop
    rw [heq]
    exact ⟨a, m', rfl, hq⟩

/-- **Loops.** The invariant relates the two states of the loop in the storage. -/
theorem Fills.untilDone {ι κ : Type} {least : ℕ} {body : ι → Fill σ (Bool × ι)}
    {body' : κ → Op (Bool × κ)} {I : ι → κ → σ → Prop}
    (hbody : ∀ s t, Fills (I s t) (fun a b m ↦ a.1 = b.1 ∧ I a.2 b.2 m) (body s) (body' t))
    (s : ι) (t : κ) :
    Fills (I s t) I (Fill.untilDone least body s) (Op.untilDone least body' t) := by
  intro d m hm
  -- on what is left of the range: a round that goes on has consumed some of it
  induction hn : d.stop - d.p using Nat.strong_induction_on generalizing d m s t with
  | h n ih =>
    have hfop := hbody s t d m hm
    rw [Op.untilDone, Op.loop, Fill.untilDone, Fill.loop]
    rcases hdone : d.done with - | -
    · rw [if_neg Bool.false_ne_true, if_neg Bool.false_ne_true]
      rcases hop : body' t d with e | ⟨- | ⟨more, t'⟩, d'⟩
      · simp only [hop] at hfop
        rw [hfop]
      · simp only [hop] at hfop
        obtain ⟨m', heq⟩ := hfop
        rw [heq]
        exact ⟨m', rfl⟩
      · simp only [hop] at hfop
        obtain ⟨⟨more', s'⟩, m', heq, hmore, hI⟩ := hfop
        obtain rfl : more' = more := hmore
        rw [heq]
        rcases more' with - | -
        · exact ⟨s', m', rfl, hI⟩
        · dsimp only
          rcases Decidable.em (d.p < d.stop ∧ d.p < d'.p ∧ d.p + least ≤ d'.p ∧
            d'.stop = d.stop) with hguard | hguard
          · rw [if_pos hguard, if_pos hguard]
            exact ih (d'.stop - d'.p) (by omega) s' t' d' m' hI rfl
          · rw [if_neg hguard, if_neg hguard]
    · rw [if_pos rfl, if_pos rfl]
      exact ⟨s, m, rfl, hm⟩

end Cursor
