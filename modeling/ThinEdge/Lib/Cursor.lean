import Mathlib.Data.List.Basic
import Mathlib.Data.Nat.Basic
import Mathlib.Order.Basic

/-!
# Reading a buffer through cursors

A parser in a language with pointers reads a buffer through cursors: a position, an end, and the
promise never to look past it. `Op` is such an operation. It can *fail*, leaving its cursor wherever
it had come to, and it could commit a *fault* (`Fault`): read outside the buffer, hand out a slice
that sticks out of the range it was taken from, store past the end of a table, or loop without
moving on. Faults are what a proof of memory safety rules out.

The abstract counterpart of an operation is a `Parser`, which takes items off the front of a list.
`Implements` relates the two: from any cursor in range the operation commits no fault, leaves its
cursor in range, and succeeds or fails as the parser does on the bytes that are left. It composes
along `bind` (`Implements.bind`) and through loops (`Implements.untilDone`), so the safety of a
whole parser and what it accepts are proved together, one operation at a time.
-/

/-- The part of a buffer from `p` to `stop`, of which the bytes before `p` have been read. -/
structure Cursor where
  p : ℕ
  stop : ℕ
  deriving DecidableEq, Repr

namespace Cursor

universe u

/-- What an operation on a buffer must never do. -/
inductive Fault
  /-- Read a byte outside the buffer. -/
  | read (i : ℕ)
  /-- Hand out a slice that is not inside the range it was taken from. -/
  | slice
  /-- Store an entry past the end of a table. -/
  | store (i : ℕ)
  /-- Repeat a loop without having moved on. -/
  | stuck
  deriving DecidableEq, Repr

/-- A computation that could commit a fault. -/
abbrev Checked := Except Fault

/-- The byte at an index of the buffer. -/
def byteAt (buf : List UInt8) (i : ℕ) : Checked UInt8 :=
  match buf[i]? with
  | none => .error (.read i)
  | some b => .ok b

/-- An array of `n` entries, of which the first `toList.length` are in use. -/
structure Table (α : Type*) (n : ℕ) where
  toList : List α
  length_le : toList.length ≤ n

/-- The table with one more entry. -/
def Table.push {α : Type*} {n : ℕ} (t : Table α n) (a : α) : Checked (Table α n) :=
  if h : t.toList.length < n then
    .ok ⟨t.toList ++ [a], by rw [List.length_append]; exact h⟩
  else .error (.store t.toList.length)

/-- The empty table. -/
def Table.empty (α : Type*) (n : ℕ) : Table α n := ⟨[], Nat.zero_le n⟩

theorem Table.push_of_lt {α : Type*} {n : ℕ} {t : Table α n} (h : t.toList.length < n) (a : α) :
    ∃ t', t.push a = .ok t' ∧ t'.toList = t.toList ++ [a] := by
  rw [push, dif_pos h]
  exact ⟨_, rfl, rfl⟩

/-! ### Ranges -/

/-- All input is consumed. -/
def done (d : Cursor) : Bool := d.stop ≤ d.p

/-- The cursor moved on by some bytes. -/
def advance (d : Cursor) (n : ℕ) : Cursor := { d with p := d.p + n }

/-- The cursor's part lies inside the buffer. -/
def InRange (buf : List UInt8) (d : Cursor) : Prop := d.p ≤ d.stop ∧ d.stop ≤ buf.length

/-- The bytes a cursor still has to read. -/
def rest (buf : List UInt8) (d : Cursor) : List UInt8 := (buf.take d.stop).drop d.p

/-- `d'` is `d` moved on inside its range. -/
structure Follows (buf : List UInt8) (d d' : Cursor) : Prop where
  inRange : d'.InRange buf
  stop_eq : d'.stop = d.stop
  le : d.p ≤ d'.p

variable {buf : List UInt8} {d d' d'' : Cursor}

theorem Follows.refl (h : d.InRange buf) : d.Follows buf d := ⟨h, rfl, Nat.le_refl _⟩

theorem Follows.trans (h : d.Follows buf d') (h' : d'.Follows buf d'') : d.Follows buf d'' :=
  ⟨h'.inRange, h'.stop_eq.trans h.stop_eq, Nat.le_trans h.le h'.le⟩

theorem length_rest (h : d.InRange buf) : (d.rest buf).length = d.stop - d.p := by
  rw [rest, List.length_drop, List.length_take, Nat.min_eq_left h.2]

theorem rest_advance (d : Cursor) (n : ℕ) : (d.advance n).rest buf = (d.rest buf).drop n := by
  rw [rest, rest, List.drop_drop]
  rfl

theorem follows_advance {n : ℕ} (h : d.InRange buf) (hn : d.p + n ≤ d.stop) :
    d.Follows buf (d.advance n) :=
  ⟨⟨hn, h.2⟩, rfl, Nat.le_add_right _ _⟩

theorem done_iff : d.done = true ↔ d.stop ≤ d.p := decide_eq_true_iff

theorem rest_eq_nil_iff (h : d.InRange buf) : d.rest buf = [] ↔ d.stop ≤ d.p := by
  rw [← List.length_eq_zero_iff, length_rest h]
  omega

/-- The next byte of a cursor that is not at its end. -/
theorem byteAt_of_lt (h : d.InRange buf) (hlt : d.p < d.stop) :
    ∃ b, byteAt buf d.p = .ok b ∧ d.rest buf = b :: (d.advance 1).rest buf := by
  have hbuf : d.p < buf.length := Nat.lt_of_lt_of_le hlt h.2
  have htake : d.p < (buf.take d.stop).length := by
    rw [List.length_take, Nat.min_eq_left h.2]
    exact hlt
  refine ⟨buf[d.p], by rw [byteAt, List.getElem?_eq_getElem hbuf], ?_⟩
  rw [rest, List.drop_eq_getElem_cons htake, List.getElem_take]
  rfl

/-! ### Operations -/

/-- An operation that reads the buffer through a cursor. -/
def Op (α : Type u) := Cursor → Checked (Option α × Cursor)

/-- A parser that takes an item off the front of a list. -/
def Parser (β : Type u) := List UInt8 → Option (β × List UInt8)

variable {α β γ δ σ τ : Type u}

namespace Op

/-- Succeed without reading. -/
protected def pure (a : α) : Op α := fun d ↦ .ok (some a, d)

/-- Fail without reading. -/
def fail : Op α := fun d ↦ .ok (none, d)

/-- Go on with the result, from where the first operation left the cursor. -/
protected def bind (op : Op α) (g : α → Op γ) : Op γ := fun d ↦
  match op d with
  | .error f => .error f
  | .ok (none, d') => .ok (none, d')
  | .ok (some a, d') => g a d'

instance : Monad Op where
  pure := Op.pure
  bind := Op.bind

/-- A computation that touches no cursor. -/
def lift (c : Checked α) : Op α := fun d ↦
  match c with
  | .error f => .error f
  | .ok a => .ok (some a, d)

/-- Run an operation on a cursor of its own. -/
def within (inner : Cursor) (op : Op α) : Op α := fun d ↦
  match op inner with
  | .error f => .error f
  | .ok (r, _) => .ok (r, d)

/-- Read a byte and move on, without looking where the range ends. -/
def next (buf : List UInt8) : Op UInt8 := fun d ↦
  match byteAt buf d.p with
  | .error f => .error f
  | .ok b => .ok (some b, d.advance 1)

/-- Read a byte and move on, or fail at the end of the range. -/
def byte (buf : List UInt8) : Op UInt8 := fun d ↦ if d.done then .ok (none, d) else next buf d

/-- The loop of `untilDone`. -/
def loop (least : ℕ) (body : σ → Op (Bool × σ)) (s : σ) (d : Cursor) :
    Checked (Option σ × Cursor) :=
  if d.done then .ok (some s, d)
  else
    match body s d with
    | .error f => .error f
    | .ok (none, d') => .ok (none, d')
    | .ok (some (false, s'), d') => .ok (some s', d')
    | .ok (some (true, s'), d') =>
      if d.p < d.stop ∧ d.p < d'.p ∧ d.p + least ≤ d'.p ∧ d'.stop = d.stop then
        loop least body s' d'
      else .error .stuck
termination_by d.stop - d.p

/-- Repeat `body` until the cursor is at its end or `body` says to leave (with `false`). A round
that goes on must have read `least` bytes, and one at least. -/
def untilDone (least : ℕ) (body : σ → Op (Bool × σ)) (s : σ) : Op σ := loop least body s

theorem bind_eq_ok {op : Op α} {g : α → Op γ} {d d'' : Cursor} {c : γ} :
    (op >>= g) d = .ok (some c, d'') ↔
      ∃ a d', op d = .ok (some a, d') ∧ g a d' = .ok (some c, d'') := by
  show Op.bind op g d = _ ↔ _
  rw [Op.bind]
  rcases op d with f | ⟨- | a, d'⟩
  · simp
  · simp
  · simp only [Except.ok.injEq, Prod.mk.injEq, Option.some.injEq]
    exact ⟨fun h ↦ ⟨a, d', ⟨rfl, rfl⟩, h⟩, by rintro ⟨_, _, ⟨rfl, rfl⟩, h⟩; exact h⟩

theorem byte_eq_ok {buf : List UInt8} {d d' : Cursor} {b : UInt8}
    (h : byte buf d = .ok (some b, d')) : d' = d.advance 1 := by
  rw [byte] at h
  split at h
  · exact absurd h (by simp)
  · rw [next] at h
    split at h
    · exact absurd h (by simp)
    · exact (Prod.mk.inj (Except.ok.inj h)).2.symm

end Op

namespace Parser

/-- Succeed without taking anything. -/
protected def pure (b : β) : Parser β := fun bs ↦ some (b, bs)

/-- Fail. -/
def fail : Parser β := fun _ ↦ none

/-- Go on with the result, on the rest of the list. -/
protected def bind (f : Parser β) (k : β → Parser δ) : Parser δ := fun bs ↦
  match f bs with
  | none => none
  | some (b, bs') => k b bs'

instance : Monad Parser where
  pure := Parser.pure
  bind := Parser.bind

/-- Parse a list of one's own. -/
def within (inner : List UInt8) (f : Parser β) : Parser β := fun bs ↦
  match f inner with
  | none => none
  | some (b, _) => some (b, bs)

/-- Take a byte. -/
def byte : Parser UInt8
  | [] => none
  | b :: bs => some (b, bs)

/-- The loop of `untilEmpty`. -/
def loop (body : σ → Parser (Bool × σ)) (s : σ) (bs : List UInt8) :
    Option (σ × List UInt8) :=
  if bs = [] then some (s, [])
  else
    match body s bs with
    | none => none
    | some ((false, s'), bs') => some (s', bs')
    | some ((true, s'), bs') =>
      if bs'.length < bs.length then loop body s' bs' else none
termination_by bs.length

/-- Repeat `body` until the list is empty or `body` says to leave. -/
def untilEmpty (body : σ → Parser (Bool × σ)) (s : σ) : Parser σ := loop body s

theorem bind_eq_some {f : Parser β} {k : β → Parser δ} {bs bs' : List UInt8} {c : δ} :
    (f >>= k) bs = some (c, bs') ↔ ∃ b bs₁, f bs = some (b, bs₁) ∧ k b bs₁ = some (c, bs') := by
  show Parser.bind f k bs = _ ↔ _
  rw [Parser.bind]
  rcases f bs with - | ⟨b, bs₁⟩
  · simp
  · simp only [Option.some.injEq, Prod.mk.injEq]
    exact ⟨fun h ↦ ⟨b, bs₁, ⟨rfl, rfl⟩, h⟩, by rintro ⟨_, _, ⟨rfl, rfl⟩, h⟩; exact h⟩

theorem bind_of_some {f : Parser β} {k : β → Parser δ} {bs bs₁ : List UInt8} {b : β}
    (h : f bs = some (b, bs₁)) : (f >>= k) bs = k b bs₁ := by
  show Parser.bind f k bs = _
  rw [Parser.bind, h]

/-- The result of a sequence. -/
theorem map_fst_bind (f : Parser β) (k : β → Parser δ) (bs : List UInt8) :
    ((f >>= k) bs).map Prod.fst = (f bs).bind fun r ↦ (k r.1 r.2).map Prod.fst := by
  show (Parser.bind f k bs).map Prod.fst = _
  rw [Parser.bind]
  cases f bs <;> rfl

/-- What every round preserves holds of the result. -/
theorem invariant_untilEmpty {body : σ → Parser (Bool × σ)} {I : σ → Prop}
    (hstep : ∀ s bs more s' bs', I s → body s bs = some ((more, s'), bs') → I s') {s s' : σ}
    {bs bs' : List UInt8} (hs : I s) (h : untilEmpty body s bs = some (s', bs')) : I s' := by
  rw [untilEmpty] at h
  fun_induction loop body s bs with
  | case1 s =>
    obtain ⟨rfl, -⟩ := Prod.mk.inj (Option.some.inj h)
    exact hs
  | case2 => exact absurd h (by simp)
  | case3 s bs _ s₁ bs₁ hbody =>
    obtain ⟨rfl, -⟩ := Prod.mk.inj (Option.some.inj h)
    exact hstep _ _ _ _ _ hs hbody
  | case4 s bs _ s₁ bs₁ hbody _ ih => exact ih (hstep _ _ _ _ _ hs hbody) h
  | case5 => exact absurd h (by simp)

theorem within_eq_some {f : Parser β} {inner bs bs' : List UInt8} {b : β} :
    within inner f bs = some (b, bs') ↔ bs = bs' ∧ ∃ rest, f inner = some (b, rest) := by
  rw [within]
  rcases f inner with - | ⟨b₁, rest⟩
  · simp
  · simp only [Option.some.injEq, Prod.mk.injEq]
    exact ⟨fun h ↦ ⟨h.2, rest, h.1, rfl⟩, by rintro ⟨rfl, _, rfl, -⟩; exact ⟨rfl, rfl⟩⟩

end Parser

/-! ### Operations that implement parsers -/

/-- From `d` the operation commits no fault and does what the parser does on the bytes left; `R`
relates their results. -/
def ImplementsAt (buf : List UInt8) (R : α → β → Prop) (op : Op α) (f : Parser β) (d : Cursor) :
    Prop :=
  ∃ d', d.Follows buf d' ∧
    (op d = .ok (none, d') ∧ f (d.rest buf) = none ∨
      ∃ a b, op d = .ok (some a, d') ∧ f (d.rest buf) = some (b, d'.rest buf) ∧ R a b)

/-- From every cursor in range the operation does what the parser does. -/
def Implements (buf : List UInt8) (R : α → β → Prop) (op : Op α) (f : Parser β) : Prop :=
  ∀ d : Cursor, d.InRange buf → ImplementsAt buf R op f d

/-- A slice of the buffer stands for its bytes. -/
def Shows (buf : List UInt8) (inner : Cursor) (bs : List UInt8) : Prop :=
  inner.InRange buf ∧ inner.rest buf = bs

variable {R : α → β → Prop} {S : γ → δ → Prop} {op : Op α} {f : Parser β} {g : α → Op γ}
  {k : β → Parser δ}

theorem implements_pure {a : α} {b : β} (h : R a b) :
    Implements buf R (pure a : Op α) (pure b : Parser β) :=
  fun _ hd ↦ ⟨_, .refl hd, Or.inr ⟨a, b, rfl, rfl, h⟩⟩

theorem implements_fail : Implements buf R (Op.fail : Op α) (Parser.fail : Parser β) :=
  fun _ hd ↦ ⟨_, .refl hd, Or.inl ⟨rfl, rfl⟩⟩

theorem implements_ite {c c' : Prop} [Decidable c] [Decidable c'] {op₁ op₂ : Op α}
    {f₁ f₂ : Parser β} (hc : c ↔ c') (h₁ : c → Implements buf R op₁ f₁)
    (h₂ : ¬ c → Implements buf R op₂ f₂) :
    Implements buf R (if c then op₁ else op₂) (if c' then f₁ else f₂) := by
  by_cases h : c
  · rw [if_pos h, if_pos (hc.1 h)]
    exact h₁ h
  · rw [if_neg h, if_neg (mt hc.2 h)]
    exact h₂ h

theorem ImplementsAt.bind (h : ImplementsAt buf R op f d)
    (hg : ∀ a b d', d.Follows buf d' → R a b → ImplementsAt buf S (g a) (k b) d') :
    ImplementsAt buf S (op >>= g) (f >>= k) d := by
  obtain ⟨d', hfollows, ⟨hop, hf⟩ | ⟨a, b, hop, hf, hR⟩⟩ := h
  · refine ⟨d', hfollows, Or.inl ⟨?_, ?_⟩⟩
    · show Op.bind op g d = _
      rw [Op.bind, hop]
    · show Parser.bind f k _ = _
      rw [Parser.bind, hf]
  · have hopEq : (op >>= g) d = g a d' := by
      show Op.bind op g d = _
      rw [Op.bind, hop]
    have hfEq : (f >>= k) (d.rest buf) = k b (d'.rest buf) := Parser.bind_of_some hf
    obtain ⟨d'', hfollows', hres⟩ := hg a b d' hfollows hR
    refine ⟨d'', hfollows.trans hfollows', ?_⟩
    rw [hopEq, hfEq]
    exact hres

/-- **Sequences.** -/
theorem Implements.bind (h : Implements buf R op f)
    (hg : ∀ a b, R a b → Implements buf S (g a) (k b)) :
    Implements buf S (op >>= g) (f >>= k) :=
  fun d hd ↦ (h d hd).bind fun a b _ hfollows hR ↦ hg a b hR _ hfollows.inRange

theorem Implements.mono {R' : α → β → Prop} (h : Implements buf R op f)
    (hR : ∀ a b, R a b → R' a b) : Implements buf R' op f := by
  intro d hd
  obtain ⟨d', hfollows, hfail | ⟨a, b, hop, hf, hab⟩⟩ := h d hd
  · exact ⟨d', hfollows, Or.inl hfail⟩
  · exact ⟨d', hfollows, Or.inr ⟨a, b, hop, hf, hR a b hab⟩⟩

theorem ImplementsAt.within {inner : Cursor} {bs : List UInt8} (hbs : inner.rest buf = bs)
    (h : ImplementsAt buf R op f inner) :
    Implements buf R (Op.within inner op) (Parser.within bs f) := by
  intro d hd
  obtain ⟨d', -, ⟨hop, hf⟩ | ⟨a, b, hop, hf, hR⟩⟩ := h
  · refine ⟨d, .refl hd, Or.inl ⟨?_, ?_⟩⟩
    · rw [Op.within, hop]
    · rw [Parser.within, ← hbs, hf]
  · refine ⟨d, .refl hd, Or.inr ⟨a, b, ?_, ?_, hR⟩⟩
    · rw [Op.within, hop]
    · rw [Parser.within, ← hbs, hf]

/-- **Nested ranges.** -/
theorem Implements.within {inner : Cursor} {bs : List UInt8} (hinner : Shows buf inner bs)
    (h : Implements buf R op f) : Implements buf R (Op.within inner op) (Parser.within bs f) :=
  (h inner hinner.1).within hinner.2

theorem implementsAt_next (hd : d.InRange buf) (hlt : d.p < d.stop) :
    ImplementsAt buf Eq (Op.next buf) Parser.byte d := by
  obtain ⟨b, hbyte, hrest⟩ := byteAt_of_lt hd hlt
  refine ⟨d.advance 1, follows_advance hd hlt, Or.inr ⟨b, b, ?_, ?_, rfl⟩⟩
  · rw [Op.next, hbyte]
  · rw [hrest]
    rfl

theorem implements_byte : Implements buf Eq (Op.byte buf) Parser.byte := by
  intro d hd
  by_cases hdone : d.stop ≤ d.p
  · refine ⟨d, .refl hd, Or.inl ⟨?_, ?_⟩⟩
    · rw [Op.byte, if_pos (done_iff.2 hdone)]
    · rw [(rest_eq_nil_iff hd).2 hdone]
      rfl
  · have hbyte : Op.byte buf d = Op.next buf d := by
      rw [Op.byte, if_neg (mt done_iff.1 hdone)]
    rw [ImplementsAt, hbyte]
    exact implementsAt_next hd (Nat.lt_of_not_le hdone)

/-- **Loops.** The body implements the parser's body, and a round that goes on takes at least
`least` bytes. -/
theorem Implements.untilDone {least : ℕ} {body : σ → Op (Bool × σ)}
    {body' : τ → Parser (Bool × τ)} {T : σ → τ → Prop} (hpos : 0 < least)
    (hbody : ∀ s t, T s t →
      Implements buf (fun a b ↦ a.1 = b.1 ∧ T a.2 b.2) (body s) (body' t))
    (hleast : ∀ t bs t' bs', body' t bs = some ((true, t'), bs') → bs'.length + least ≤ bs.length)
    {s : σ} {t : τ} (h : T s t) :
    Implements buf T (Op.untilDone least body s) (Parser.untilEmpty body' t) := by
  intro d hd
  -- on what is left of the range: a round that goes on has consumed some of it
  induction hn : d.stop - d.p using Nat.strong_induction_on generalizing d s t with
  | h n ih =>
    by_cases hdone : d.stop ≤ d.p
    · refine ⟨d, .refl hd, Or.inr ⟨s, t, ?_, ?_, h⟩⟩
      · rw [Op.untilDone, Op.loop, if_pos (done_iff.2 hdone)]
      · rw [(rest_eq_nil_iff hd).2 hdone, Parser.untilEmpty, Parser.loop, if_pos rfl]
    · have hnil : d.rest buf ≠ [] := mt (rest_eq_nil_iff hd).1 hdone
      obtain ⟨d', hfollows, ⟨hop, hf⟩ | ⟨⟨more, s'⟩, ⟨more', t'⟩, hop, hf, hmore, hT⟩⟩ :=
        hbody s t h d hd
      · refine ⟨d', hfollows, Or.inl ⟨?_, ?_⟩⟩
        · rw [Op.untilDone, Op.loop, if_neg (mt done_iff.1 hdone), hop]
        · rw [Parser.untilEmpty, Parser.loop, if_neg hnil, hf]
      · obtain rfl : more = more' := hmore
        rcases more with - | -
        · refine ⟨d', hfollows, Or.inr ⟨s', t', ?_, ?_, hT⟩⟩
          · rw [Op.untilDone, Op.loop, if_neg (mt done_iff.1 hdone), hop]
          · rw [Parser.untilEmpty, Parser.loop, if_neg hnil, hf]
        · have hlen := hleast _ _ _ _ hf
          rw [length_rest hd, length_rest hfollows.inRange, hfollows.stop_eq] at hlen
          have hguard : d.p < d.stop ∧ d.p < d'.p ∧ d.p + least ≤ d'.p ∧ d'.stop = d.stop := by
            have := hfollows.inRange.1
            have := hfollows.stop_eq
            omega
          have hop' : Op.untilDone least body s d = Op.untilDone least body s' d' := by
            rw [Op.untilDone, Op.loop, if_neg (mt done_iff.1 hdone), hop]
            exact if_pos hguard
          have hf' : Parser.untilEmpty body' t (d.rest buf) =
              Parser.untilEmpty body' t' (d'.rest buf) := by
            rw [Parser.untilEmpty, Parser.loop, if_neg hnil, hf]
            refine if_pos ?_
            rw [length_rest hd, length_rest hfollows.inRange]
            omega
          obtain ⟨d'', hfollows', hres⟩ :=
            ih (d'.stop - d'.p) (by omega) hT d' hfollows.inRange rfl
          refine ⟨d'', hfollows.trans hfollows', ?_⟩
          rw [hop', hf']
          exact hres

/-- The cursor over a whole buffer. -/
theorem inRange_whole (buf : List UInt8) : InRange buf ⟨0, buf.length⟩ :=
  ⟨Nat.zero_le _, Nat.le_refl _⟩

theorem rest_whole (buf : List UInt8) : rest buf ⟨0, buf.length⟩ = buf := by
  show (buf.take buf.length).drop 0 = buf
  rw [List.drop_zero, List.take_length]

/-- What reading a whole buffer gives. -/
theorem Implements.whole (h : Implements buf R op f) :
    ∃ d', (op ⟨0, buf.length⟩ = .ok (none, d') ∧ f buf = none) ∨
      ∃ a b rest, op ⟨0, buf.length⟩ = .ok (some a, d') ∧ f buf = some (b, rest) ∧ R a b ∧
        (rest = [] ↔ d'.done = true) := by
  obtain ⟨d', hfollows, ⟨hop, hf⟩ | ⟨a, b, hop, hf, hR⟩⟩ := h _ (inRange_whole buf)
  · rw [rest_whole] at hf
    exact ⟨d', Or.inl ⟨hop, hf⟩⟩
  · rw [rest_whole] at hf
    refine ⟨d', Or.inr ⟨a, b, d'.rest buf, hop, hf, hR, ?_⟩⟩
    rw [rest_eq_nil_iff hfollows.inRange, done_iff]

/-- What an operation that succeeded says of its parser. -/
theorem Implements.some_of_ok (h : Implements buf R op f) (hd : d.InRange buf) {a : α}
    (hop : op d = .ok (some a, d')) : ∃ b, f (d.rest buf) = some (b, d'.rest buf) ∧ R a b := by
  obtain ⟨d'', -, ⟨hop', -⟩ | ⟨a', b, hop', hf, hR⟩⟩ := h d hd
  · rw [hop] at hop'
    exact absurd (Prod.mk.inj (Except.ok.inj hop')).1 (by simp)
  · rw [hop] at hop'
    obtain ⟨ha, rfl⟩ := Prod.mk.inj (Except.ok.inj hop')
    obtain rfl := Option.some.inj ha
    exact ⟨b, hf, hR⟩

/-- An operation succeeds where its parser does. -/
theorem Implements.ok_of_some (h : Implements buf R op f) (hd : d.InRange buf) {b : β}
    {bs : List UInt8} (hf : f (d.rest buf) = some (b, bs)) :
    ∃ a d', op d = .ok (some a, d') ∧ R a b := by
  obtain ⟨d', -, ⟨-, hf'⟩ | ⟨a, b', hop, hf', hR⟩⟩ := h d hd
  · rw [hf] at hf'
    exact absurd hf' (by simp)
  · rw [hf] at hf'
    obtain ⟨rfl, -⟩ := Prod.mk.inj (Option.some.inj hf')
    exact ⟨a, d', hop, hR⟩

/-- An operation that never succeeds fails. -/
theorem Implements.none_of_forall (h : Implements buf R op f) (hd : d.InRange buf)
    (hno : ∀ a d', op d ≠ .ok (some a, d')) : ∃ d', op d = .ok (none, d') := by
  obtain ⟨d', -, ⟨hop, -⟩ | ⟨a, b, hop, -, -⟩⟩ := h d hd
  · exact ⟨d', hop⟩
  · exact absurd hop (hno a d')

/-- What an implemented operation leaves behind, whether it fails or not. -/
theorem Implements.follows (h : Implements buf R op f) (hd : d.InRange buf) :
    ∃ r d', op d = .ok (r, d') ∧ d.Follows buf d' := by
  obtain ⟨d', hfollows, ⟨hop, -⟩ | ⟨a, b, hop, -, -⟩⟩ := h d hd
  · exact ⟨none, d', hop, hfollows⟩
  · exact ⟨some a, d', hop, hfollows⟩

theorem Implements.follows_of_eq (h : Implements buf R op f) (hd : d.InRange buf) {r : Option α}
    (hop : op d = .ok (r, d')) : d.Follows buf d' := by
  obtain ⟨r', d'', hop', hfollows⟩ := h.follows hd
  rw [hop] at hop'
  obtain ⟨-, rfl⟩ := Prod.mk.inj (Except.ok.inj hop')
  exact hfollows

end Cursor
