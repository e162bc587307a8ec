import Mathlib.Data.Nat.Notation

/-!
# Shift and exclusive or

The check word that is shifted by one bit for each word it takes in, over words of any width. It is
linear: a difference in what it starts from, or in one of the words, comes out shifted by the
number of words behind it (`shiftXor_xor`, `shiftXor_xor_mid`). So a single bit that differs is seen
exactly when it is not shifted out (`shiftXor_flip_eq_iff`, `shiftXor_flip_mid_eq_iff`).
-/

variable {w : ℕ}

/-- Take words into a check word. -/
def shiftXor (h : BitVec w) (cs : List (BitVec w)) : BitVec w :=
  cs.foldl (fun h c ↦ (h <<< 1) ^^^ c) h

section ShiftXor

variable {h d c x y : BitVec w} {cs ds : List (BitVec w)}

theorem shiftXor_cons : shiftXor h (c :: cs) = shiftXor ((h <<< 1) ^^^ c) cs := rfl

theorem shiftXor_append : shiftXor h (cs ++ ds) = shiftXor (shiftXor h cs) ds := List.foldl_append

/-- A difference at the start. -/
theorem shiftXor_xor : shiftXor (h ^^^ d) cs = shiftXor h cs ^^^ (d <<< cs.length) := by
  induction cs generalizing h d with
  | nil => simp [shiftXor]
  | cons c cs ih =>
    have hd : ((h ^^^ d) <<< 1) ^^^ c = ((h <<< 1) ^^^ c) ^^^ (d <<< 1) := by
      rw [BitVec.shiftLeft_xor_distrib]
      ac_rfl
    rw [shiftXor_cons, shiftXor_cons, hd, ih, ← BitVec.shiftLeft_add, List.length_cons,
      Nat.add_comm 1]

/-- A difference in one of the words. -/
theorem shiftXor_xor_mid : shiftXor h (cs ++ (c ^^^ d) :: ds) =
    shiftXor h (cs ++ c :: ds) ^^^ (d <<< ds.length) := by
  rw [shiftXor_append, shiftXor_append, shiftXor_cons, shiftXor_cons, ← BitVec.xor_assoc,
    shiftXor_xor]

theorem xor_eq_left_iff : x ^^^ y = x ↔ y = 0#w := by
  calc x ^^^ y = x ↔ x ^^^ y = x ^^^ 0#w := by rw [BitVec.xor_zero]
    _ ↔ y = 0#w := BitVec.xor_right_inj x

theorem shiftLeft_twoPow {i n : ℕ} : BitVec.twoPow w i <<< n = BitVec.twoPow w (i + n) := by
  rw [BitVec.twoPow_eq, BitVec.twoPow_eq, ← BitVec.shiftLeft_add]

/-- A single bit in a wider word. -/
theorem setWidth_twoPow {v k : ℕ} (hk : k < v) (hv : v ≤ w) :
    (BitVec.twoPow v k).setWidth w = BitVec.twoPow w k := by
  refine BitVec.eq_of_getLsbD_eq fun j hj ↦ ?_
  have hkw : k < w := Nat.lt_of_lt_of_le hk hv
  rw [BitVec.getLsbD_setWidth, BitVec.getLsbD_twoPow, BitVec.getLsbD_twoPow]
  simp [hk, hkw, hj]

/-- A single bit is shifted out when it comes to the width. -/
theorem twoPow_eq_zero_iff {k : ℕ} : BitVec.twoPow w k = 0#w ↔ w ≤ k := by
  refine ⟨fun h ↦ ?_, fun h ↦ BitVec.eq_of_toNat_eq (BitVec.toNat_twoPow_of_le h)⟩
  rcases Nat.lt_or_ge k w with hlt | hle
  · have hbit := congrArg (BitVec.getLsbD · k) h
    simp [hlt] at hbit
  · exact hle

/-- **A bit that differs at the start is not seen** exactly when the words behind it shift it
out. -/
theorem shiftXor_flip_eq_iff {k : ℕ} :
    shiftXor (h ^^^ BitVec.twoPow w k) cs = shiftXor h cs ↔ w ≤ k + cs.length := by
  rw [shiftXor_xor, xor_eq_left_iff, shiftLeft_twoPow, twoPow_eq_zero_iff]

/-- **A bit that differs in one of the words is not seen** exactly when the words behind it shift
it out. -/
theorem shiftXor_flip_mid_eq_iff {k : ℕ} :
    shiftXor h (cs ++ (c ^^^ BitVec.twoPow w k) :: ds) = shiftXor h (cs ++ c :: ds) ↔
      w ≤ k + ds.length := by
  rw [shiftXor_xor_mid, xor_eq_left_iff, shiftLeft_twoPow, twoPow_eq_zero_iff]

end ShiftXor
