import Mathlib.Data.Option.Basic
import ThinEdge.Lib.Cursor
import ThinEdge.Lib.Reader

/-!
# Scanning a buffer

The C idioms that text is cut up with: `memchr`, slices between two pointers, comparing a slice with
a literal, and loops that hand out one item after the other from a cursor.

A loop is the counterpart of a `Reader`. `Implements.find` is the rule for a loop that skips items
until it has one to return, and `Implements.fold` the rule for a loop over all items; both loops
commit the fault `stuck` when a round does not move on, so the rules say that they end.
-/

namespace Cursor

universe u

variable {buf : List UInt8} {d d' s : Cursor} {c : UInt8}

/-! ### Bytes and slices -/

/-- `memchr` on `n` bytes. -/
def memchrFrom (buf : List UInt8) (c : UInt8) (i : ℕ) : ℕ → Checked (Option ℕ)
  | 0 => .ok none
  | n + 1 => do
    let b ← byteAt buf i
    if b = c then return some i else memchrFrom buf c (i + 1) n

/-- `memchr` on a slice. -/
def memchr (buf : List UInt8) (c : UInt8) (s : Cursor) : Checked (Option ℕ) :=
  memchrFrom buf c s.p (s.stop - s.p)

/-- The slice between two pointers. -/
def slice (buf : List UInt8) (lo hi : ℕ) : Checked Cursor :=
  if lo ≤ hi ∧ hi ≤ buf.length then .ok ⟨lo, hi⟩ else .error .slice

/-- `memcmp` with a literal, when it is zero. -/
def sameFrom (buf : List UInt8) (i : ℕ) : List UInt8 → Checked Bool
  | [] => .ok true
  | c :: cs => do
    let b ← byteAt buf i
    if b = c then sameFrom buf (i + 1) cs else return false

/-- The slice has the bytes of a literal. -/
def sliceEq (buf : List UInt8) (s : Cursor) (lit : List UInt8) : Checked Bool :=
  if s.stop - s.p = lit.length then sameFrom buf s.p lit else .ok false

theorem rest_eq_cons (h : d.InRange buf) (hlt : d.p < d.stop) :
    ∃ b, byteAt buf d.p = .ok b ∧ (d.advance 1).InRange buf ∧
      d.rest buf = b :: (d.advance 1).rest buf := by
  obtain ⟨b, hbyte, hrest⟩ := byteAt_of_lt h hlt
  exact ⟨b, hbyte, ⟨hlt, h.2⟩, hrest⟩

/-- **`memchr` finds the first occurrence**, and reads nothing outside the slice. -/
theorem memchr_eq (h : d.InRange buf) : memchr buf c d = .ok
    (if c ∈ d.rest buf then some (d.p + ((d.rest buf).takeWhile (· ≠ c)).length) else none) := by
  rw [memchr]
  induction hn : d.stop - d.p generalizing d with
  | zero =>
    have hnil : d.rest buf = [] := (rest_eq_nil_iff h).2 (by omega)
    rw [hnil, if_neg List.not_mem_nil]
    rfl
  | succ n ih =>
    obtain ⟨b, hbyte, hin, hrest⟩ := rest_eq_cons h (by omega)
    have hrec := ih hin (by show d.stop - (d.p + 1) = n; omega)
    rw [memchrFrom, hbyte, hrest]
    show (if b = c then Except.ok (some d.p) else memchrFrom buf c (d.p + 1) n) = _
    rcases Decidable.em (b = c) with rfl | hb
    · rw [if_pos rfl, if_pos List.mem_cons_self, List.takeWhile_cons_of_neg (by simp)]
      rfl
    · rw [if_neg hb, List.takeWhile_cons, if_pos (decide_eq_true hb), List.length_cons]
      refine hrec.trans (congrArg Except.ok ?_)
      have hmem : c ∈ (d.advance 1).rest buf ↔ c ∈ b :: (d.advance 1).rest buf := by
        rw [List.mem_cons, or_iff_right (Ne.symm hb)]
      refine if_congr hmem (congrArg some ?_) rfl
      show d.p + 1 + _ = _
      omega

/-- A slice cut in two. -/
theorem shows_of_append (h : d.InRange buf) {xs ys : List UInt8} (hsplit : d.rest buf = xs ++ ys) :
    Shows buf ⟨d.p, d.p + xs.length⟩ xs ∧ Shows buf ⟨d.p + xs.length, d.stop⟩ ys := by
  have hlen := length_rest h
  rw [hsplit, List.length_append] at hlen
  have hle : d.p + xs.length ≤ d.stop := by
    have := h.1
    omega
  refine ⟨⟨⟨Nat.le_add_right _ _, Nat.le_trans hle h.2⟩, ?_⟩, ⟨⟨hle, h.2⟩, ?_⟩⟩
  · have hrest : (buf.drop d.p).take (d.stop - d.p) = xs ++ ys := by
      rw [← List.drop_take]
      exact hsplit
    show (buf.take (d.p + xs.length)).drop d.p = xs
    rw [List.drop_take, Nat.add_sub_cancel_left,
      ← Nat.min_eq_left (Nat.le_sub_of_add_le' hle), ← List.take_take, hrest, List.take_left]
  · have hdrop : rest buf ⟨d.p + xs.length, d.stop⟩ = (d.rest buf).drop xs.length :=
      rest_advance d _
    rw [hdrop, hsplit, List.drop_left]

/-- An index that `memchr` returns cuts the slice in two: what is in front of the byte, and the
byte with what follows. -/
structure FoundAt (buf : List UInt8) (c : UInt8) (d : Cursor) (i : ℕ) : Prop where
  le : d.p ≤ i
  lt : i < d.stop
  before : Shows buf ⟨d.p, i⟩ ((d.rest buf).takeWhile (· ≠ c))
  after : Shows buf ⟨i, d.stop⟩ ((d.rest buf).dropWhile (· ≠ c))

theorem FoundAt.next {i : ℕ} (h : FoundAt buf c d i) :
    Shows buf ⟨i + 1, d.stop⟩ (((d.rest buf).dropWhile (· ≠ c)).drop 1) :=
  ⟨⟨h.lt, h.after.1.2⟩, by rw [← h.after.2, ← rest_advance]; rfl⟩

/-- **What `memchr` returns.** -/
theorem memchr_cases (h : d.InRange buf) (c : UInt8) :
    (c ∉ d.rest buf ∧ memchr buf c d = .ok none) ∨
      ∃ i, memchr buf c d = .ok (some i) ∧ c ∈ d.rest buf ∧ FoundAt buf c d i := by
  rw [memchr_eq h]
  rcases Decidable.em (c ∈ d.rest buf) with hmem | hmem
  · rw [if_pos hmem]
    have hne : (d.rest buf).dropWhile (· ≠ c) ≠ [] := fun hnil ↦
      of_decide_eq_true (List.dropWhile_eq_nil_iff.1 hnil c hmem) rfl
    obtain ⟨hbefore, hafter⟩ := shows_of_append h List.takeWhile_append_dropWhile.symm
    have hlt := mt (rest_eq_nil_iff hafter.1).2 (hafter.2.symm ▸ hne)
    exact Or.inr ⟨_, rfl, hmem, hbefore.1.1, Nat.lt_of_not_le hlt, hbefore, hafter⟩
  · rw [if_neg hmem]
    exact Or.inl ⟨hmem, rfl⟩

theorem slice_of_le {lo hi : ℕ} (hle : lo ≤ hi) (hlen : hi ≤ buf.length) :
    slice buf lo hi = .ok ⟨lo, hi⟩ := if_pos ⟨hle, hlen⟩

theorem sameFrom_eq {lit : List UInt8} (h : d.InRange buf)
    (hlen : (d.rest buf).length = lit.length) :
    sameFrom buf d.p lit = .ok (decide (d.rest buf = lit)) := by
  induction lit generalizing d with
  | nil =>
    rw [List.length_eq_zero_iff.1 hlen]
    rfl
  | cons c cs ih =>
    rw [length_rest h, List.length_cons] at hlen
    obtain ⟨b, hbyte, hin, hrest⟩ := rest_eq_cons h (by omega)
    have hrec := ih hin (by
      rw [length_rest hin]
      show d.stop - (d.p + 1) = _
      omega)
    rw [sameFrom, hbyte, hrest]
    show (if b = c then sameFrom buf (d.p + 1) cs else Except.ok false) = _
    rcases Decidable.em (b = c) with rfl | hb
    · rw [if_pos rfl]
      refine hrec.trans (congrArg Except.ok (decide_eq_decide.2 ?_))
      exact (List.cons_inj_right b).symm
    · rw [if_neg hb, decide_eq_false fun heq ↦ hb (List.cons.inj heq).1]

/-- **Comparing a slice** reads it and nothing else. -/
theorem sliceEq_eq {bs : List UInt8} (h : Shows buf s bs) (lit : List UInt8) :
    sliceEq buf s lit = .ok (decide (bs = lit)) := by
  obtain ⟨hin, rfl⟩ := h
  have hlen := length_rest hin
  rw [sliceEq, ← hlen]
  split
  · next heq => exact sameFrom_eq hin heq
  · next hne => rw [decide_eq_false fun heq ↦ hne (congrArg List.length heq)]

/-! ### Loops over items -/

variable {α β γ δ σ τ : Type u}

namespace Op

/-- Take items until `f` makes something of one. -/
def find (op : Op α) (f : α → Checked (Option γ)) : Op γ := fun d ↦
  match op d with
  | .error e => .error e
  | .ok (none, d') => .ok (none, d')
  | .ok (some a, d') =>
    match f a with
    | .error e => .error e
    | .ok (some c) => .ok (some c, d')
    | .ok none =>
      if d.p < d.stop ∧ d.p < d'.p ∧ d'.stop = d.stop then find op f d' else .error .stuck
termination_by d => d.stop - d.p

/-- Take all items. -/
def fold (op : Op α) (body : σ → α → Checked σ) (s : σ) (d : Cursor) : Checked σ :=
  match op d with
  | .error e => .error e
  | .ok (none, _) => .ok s
  | .ok (some a, d') =>
    match body s a with
    | .error e => .error e
    | .ok s' =>
      if d.p < d.stop ∧ d.p < d'.p ∧ d'.stop = d.stop then fold op body s' d' else .error .stuck
termination_by d.stop - d.p

end Op

/-- The operation hands out the items of a reader that measures what is left of its text. -/
structure Hands (buf : List UInt8) (R : α → β → Prop) (op : Op α) (r : Reader (List UInt8) β) :
    Prop where
  size_eq : ∀ bs, r.size bs = bs.length
  implements : Implements buf R op r.next

variable {R : α → β → Prop} {S : γ → δ → Prop} {op : Op α} {r : Reader (List UInt8) β}

/-- **An item moves the cursor on.** -/
theorem Hands.lt (h : Hands buf R op r) (hd : d.InRange buf) {a : α}
    (hop : op d = .ok (some a, d')) : d.p < d.stop ∧ d.p < d'.p ∧ d'.stop = d.stop := by
  have hfollows := h.implements.follows_of_eq hd hop
  obtain ⟨b, hnext, -⟩ := h.implements.some_of_ok hd hop
  have hlt := r.size_lt hnext
  rw [h.size_eq, h.size_eq, length_rest hd, length_rest hfollows.inRange] at hlt
  have hstop := hfollows.stop_eq
  omega

/-- From every cursor in range the operation commits no fault and stays in the range; an item moves
the cursor on, and its slices lie inside the buffer. -/
def ReadsInside (buf : List UInt8) (op : Op α) (slices : α → List Cursor) : Prop :=
  ∀ d : Cursor, d.InRange buf → ∃ o d', op d = .ok (o, d') ∧ d.Follows buf d' ∧
    ∀ a ∈ o, d.p < d'.p ∧ ∀ s ∈ slices a, s.InRange buf

theorem Hands.readsInside (h : Hands buf R op r) {slices : α → List Cursor}
    (hslices : ∀ a b, R a b → ∀ s ∈ slices a, s.InRange buf) : ReadsInside buf op slices := by
  intro d hd
  obtain ⟨d', hfollows, ⟨hop, -⟩ | ⟨a, b, hop, -, hR⟩⟩ := h.implements d hd
  · exact ⟨none, d', hop, hfollows, nofun⟩
  · refine ⟨some a, d', hop, hfollows, fun a' ha' ↦ ?_⟩
    obtain rfl := Option.some.inj ha'
    exact ⟨(h.lt hd hop).2.1, hslices a b hR⟩

/-- **A loop that skips items** hands out those that are left. -/
theorem Hands.find (h : Hands buf R op r) {f : α → Checked (Option γ)} {g : β → Option δ}
    (hf : ∀ a b, R a b → ∃ o, f a = .ok o ∧ Option.Rel S o (g b)) :
    Hands buf S (op.find f) (r.filterMap g) where
  size_eq := h.size_eq
  implements := by
    intro d hd
    -- on what is left of the range: a skipped item has consumed some of it
    induction hn : d.stop - d.p using Nat.strong_induction_on generalizing d with
    | h n ih =>
      obtain ⟨d', hfollows, ⟨hop, hnext⟩ | ⟨a, b, hop, hnext, hR⟩⟩ := h.implements d hd
      · refine ⟨d', hfollows, Or.inl ⟨?_, ?_⟩⟩
        · rw [Op.find, hop]
        · exact Reader.find_of_none hnext
      · obtain ⟨o, ho, hrel⟩ := hf a b hR
        have hmoved := h.lt hd hop
        have hfind : (r.filterMap g).next (d.rest buf) = _ := Reader.find_of_some hnext
        generalize g b = result at hrel hfind
        cases hrel with
        | @some c e hS =>
          refine ⟨d', hfollows, Or.inr ⟨c, e, ?_, hfind, hS⟩⟩
          rw [Op.find, hop]
          dsimp only
          rw [ho]
        | none =>
          obtain ⟨d'', hfollows', hres⟩ := ih (d'.stop - d'.p) (by omega) d' hfollows.inRange rfl
          have hskip : op.find f d = op.find f d' := by
            rw [Op.find, hop]
            dsimp only
            rw [ho]
            exact if_pos hmoved
          refine ⟨d'', hfollows.trans hfollows', ?_⟩
          rw [hskip, hfind]
          exact hres

/-- **A loop over all items** ends, and does what folding over the list of them does. -/
theorem Hands.fold (h : Hands buf R op r) {body : σ → α → Checked σ} {g : τ → β → τ}
    {T : σ → τ → Prop} (hbody : ∀ s t a b, T s t → R a b → ∃ s', body s a = .ok s' ∧ T s' (g t b))
    {s : σ} {t : τ} (hT : T s t) (hd : d.InRange buf) :
    ∃ s', op.fold body s d = .ok s' ∧ T s' ((r.toList (d.rest buf)).foldl g t) := by
  induction hn : d.stop - d.p using Nat.strong_induction_on generalizing d s t with
  | h n ih =>
    obtain ⟨d', hfollows, ⟨hop, hnext⟩ | ⟨a, b, hop, hnext, hR⟩⟩ := h.implements d hd
    · refine ⟨s, ?_, ?_⟩
      · rw [Op.fold, hop]
      · rw [Reader.toList_of_next_eq_none hnext]
        exact hT
    · obtain ⟨s₁, hs₁, hT₁⟩ := hbody s t a b hT hR
      have hmoved := h.lt hd hop
      obtain ⟨s', hrun, hT'⟩ := ih (d'.stop - d'.p) (by omega) hT₁ hfollows.inRange rfl
      refine ⟨s', ?_, ?_⟩
      · rw [Op.fold, hop]
        dsimp only
        rw [hs₁]
        dsimp only
        rw [if_pos hmoved, hrun]
      · rw [Reader.toList_of_next_eq_some hnext]
        exact hT'

end Cursor
