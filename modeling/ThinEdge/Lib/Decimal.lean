import Mathlib.Data.List.Induction
import Mathlib.Data.Nat.Basic
import Mathlib.Tactic.Ring

/-!
# Decimal numbers as bytes

Decimal numerals in ASCII: the shortest one of a number (`digits`), one of at least a given width
(`padded`, as `%04u` prints it), and one of exactly a given width (`fixed`). The last is what fields
in fixed columns hold: on the numbers below `10 ^ w` it is a bijection with the lists of `w` digits
(`value_fixed`, `fixed_value`), and it turns the order of numbers into the lexicographic order of
texts (`fixed_lt_fixed`).
-/

namespace Decimal

/-- The last digit of a number. -/
def digit (n : ℕ) : UInt8 := UInt8.ofNat (48 + n % 10)

/-- A byte between 0 and 9 in ASCII. -/
def IsDigit (b : UInt8) : Prop := 48 ≤ b.toNat ∧ b.toNat ≤ 57

instance (b : UInt8) : Decidable (IsDigit b) := inferInstanceAs (Decidable (_ ∧ _))

/-- Digits only. -/
def AllDigits (bs : List UInt8) : Prop := ∀ b ∈ bs, IsDigit b

instance (bs : List UInt8) : Decidable (AllDigits bs) := List.decidableBAll IsDigit bs

/-- The number that digits stand for. -/
def value (bs : List UInt8) : ℕ := bs.foldl (fun v b ↦ v * 10 + (b.toNat - 48)) 0

/-- At least one digit, and nothing else. -/
def IsNumeral (bs : List UInt8) : Prop := bs ≠ [] ∧ AllDigits bs

instance (bs : List UInt8) : Decidable (IsNumeral bs) := inferInstanceAs (Decidable (_ ∧ _))

/-- The integer that a numeral, perhaps behind a minus sign, stands for. -/
def integer (bs : List UInt8) : Option ℤ :=
  if bs.head? = some 45 then
    if IsNumeral bs.tail then some (-(value bs.tail : ℤ)) else none
  else if IsNumeral bs then some (value bs : ℤ) else none

/-- The shortest numeral. -/
def digits (n : ℕ) : List UInt8 := if n < 10 then [digit n] else digits (n / 10) ++ [digit n]

/-- The shortest numeral with zeros in front, up to the width. -/
def padded (w n : ℕ) : List UInt8 :=
  List.replicate (w - (digits n).length) 48 ++ digits n

/-- As `padded`, for an integer: the sign comes first and counts as a digit. -/
def paddedInt (w : ℕ) (v : ℤ) : List UInt8 :=
  if v < 0 then 45 :: padded (w - 1) v.natAbs else padded w v.toNat

/-- The shortest numeral of an integer, as `%d` prints it. -/
def signed (v : ℤ) : List UInt8 := if v < 0 then 45 :: digits v.natAbs else digits v.natAbs

/-- The last `w` digits. -/
def fixed : ℕ → ℕ → List UInt8
  | 0, _ => []
  | w + 1, n => fixed w (n / 10) ++ [digit n]

theorem IsNumeral.take {bs : List UInt8} (h : IsNumeral bs) (k : ℕ) :
    IsNumeral (bs.take (k + 1)) :=
  ⟨fun hnil ↦ h.1 ((List.take_eq_nil_iff.1 hnil).resolve_left (Nat.succ_ne_zero k)),
    fun b hb ↦ h.2 b (List.mem_of_mem_take hb)⟩

theorem toNat_digit (n : ℕ) : (digit n).toNat = 48 + n % 10 := by
  rw [digit, UInt8.toNat_ofNat']
  omega

/-- A digit is a digit. -/
theorem isDigit_digit (n : ℕ) : IsDigit (digit n) := by
  have := toNat_digit n
  rw [IsDigit]
  omega

/-- A field of a fixed width has that width. -/
@[simp] theorem length_fixed (w n : ℕ) : (fixed w n).length = w := by
  induction w generalizing n with
  | zero => rfl
  | succ w ih => rw [fixed, List.length_append, ih, List.length_singleton]

/-- It holds digits only. -/
theorem isDigit_of_mem_fixed {w n : ℕ} {b : UInt8} (h : b ∈ fixed w n) : IsDigit b := by
  induction w generalizing n with
  | zero => exact absurd h List.not_mem_nil
  | succ w ih =>
    rcases List.mem_append.1 h with h | h
    · exact ih h
    · rw [List.mem_singleton.1 h]
      exact isDigit_digit n

/-- The value, digit after digit. -/
theorem value_append_singleton (bs : List UInt8) (b : UInt8) :
    value (bs ++ [b]) = value bs * 10 + (b.toNat - 48) := by
  rw [value, List.foldl_append, value]
  rfl

/-- A numeral of fixed width is read back. -/
theorem value_fixed {w n : ℕ} (h : n < 10 ^ w) : value (fixed w n) = n := by
  induction w generalizing n with
  | zero =>
    obtain rfl : n = 0 := by simpa using h
    rfl
  | succ w ih =>
    rw [Nat.pow_succ] at h
    rw [fixed, value_append_singleton, ih (by omega), toNat_digit]
    omega

/-- So many digits stay below that power of ten. -/
theorem value_lt {bs : List UInt8} (h : ∀ b ∈ bs, IsDigit b) : value bs < 10 ^ bs.length := by
  induction bs using List.reverseRecOn with
  | nil => exact Nat.one_pos
  | append_singleton bs b ih =>
    have hb : IsDigit b := h b (by simp)
    have hlt := ih fun c hc ↦ h c (List.mem_append_left _ hc)
    rw [IsDigit] at hb
    rw [value_append_singleton, List.length_append, List.length_singleton, Nat.pow_succ]
    omega

/-- Digits are the numeral of the number they stand for. -/
theorem fixed_value {bs : List UInt8} (h : ∀ b ∈ bs, IsDigit b) :
    fixed bs.length (value bs) = bs := by
  induction bs using List.reverseRecOn with
  | nil => rfl
  | append_singleton bs b ih =>
    have hb : IsDigit b := h b (by simp)
    rw [IsDigit] at hb
    have hlast : digit (value bs * 10 + (b.toNat - 48)) = b := by
      refine UInt8.toNat_inj.1 ?_
      rw [toNat_digit]
      omega
    have hinit : (value bs * 10 + (b.toNat - 48)) / 10 = value bs := by omega
    rw [List.length_append, List.length_singleton, fixed, value_append_singleton, hlast, hinit,
      ih fun c hc ↦ h c (List.mem_append_left _ hc)]

/-- In a wide enough field, different numbers look different. -/
theorem fixed_injective {w m n : ℕ} (hm : m < 10 ^ w) (hn : n < 10 ^ w)
    (h : fixed w m = fixed w n) : m = n := by
  rw [← value_fixed hm, h, value_fixed hn]

theorem fixed_zero (w : ℕ) : fixed w 0 = List.replicate w 48 := by
  induction w with
  | zero => rfl
  | succ w ih =>
    rw [fixed, Nat.zero_div, ih, List.replicate_succ']
    rfl

theorem digits_of_lt {n : ℕ} (h : n < 10) : digits n = [digit n] := by rw [digits, if_pos h]

/-- The last digit stands apart from the others. -/
theorem digits_of_le {n : ℕ} (h : 10 ≤ n) : digits n = digits (n / 10) ++ [digit n] := by
  rw [digits, if_neg (Nat.not_lt.2 h)]

/-- A number is read back from its shortest numeral. -/
theorem value_digits (n : ℕ) : value (digits n) = n := by
  fun_induction digits n with
  | case1 n h =>
    rw [value, List.foldl_cons, List.foldl_nil, toNat_digit]
    omega
  | case2 n h ih =>
    rw [value_append_singleton, ih, toNat_digit]
    omega

/-- A number is written without leading zeros. -/
theorem isNumeral_digits (n : ℕ) : IsNumeral (digits n) := by
  fun_induction digits n with
  | case1 n h => exact ⟨List.cons_ne_nil _ _, fun b hb ↦ List.mem_singleton.1 hb ▸ isDigit_digit n⟩
  | case2 n h ih =>
    refine ⟨fun hnil ↦ ih.1 (List.append_eq_nil_iff.1 hnil).1, fun b hb ↦ ?_⟩
    rcases List.mem_append.1 hb with hinit | hlast
    · exact ih.2 b hinit
    · exact List.mem_singleton.1 hlast ▸ isDigit_digit n

/-- A number that fits the width is printed in exactly that width. -/
theorem padded_eq_fixed {w n : ℕ} (hw : 0 < w) (h : n < 10 ^ w) : padded w n = fixed w n := by
  induction w generalizing n with
  | zero => exact absurd hw (Nat.lt_irrefl 0)
  | succ w ih =>
    rcases Nat.lt_or_ge n 10 with hn | hn
    · rw [padded, digits_of_lt hn, List.length_singleton, Nat.add_sub_cancel, fixed,
        Nat.div_eq_of_lt hn, fixed_zero]
    · have hw' : 0 < w := by
        rcases Nat.eq_zero_or_pos w with rfl | hpos
        · exact absurd h (Nat.not_lt.2 hn)
        · exact hpos
      rw [Nat.pow_succ] at h
      have hinit := ih hw' (show n / 10 < 10 ^ w by omega)
      rw [padded] at hinit
      rw [padded, digits_of_le hn, List.length_append, List.length_singleton,
        Nat.add_sub_add_right, ← List.append_assoc, hinit, fixed]

/-- Padding a number that fits is the field of that width. -/
theorem paddedInt_natCast {w n : ℕ} (hw : 0 < w) (h : n < 10 ^ w) : paddedInt w n = fixed w n := by
  rw [paddedInt, if_neg (by omega), Int.toNat_natCast, padded_eq_fixed hw h]

/-! ### Order -/

/-- Fields of one width are ordered by the first that differs. -/
theorem append_lt_append {a a' : List UInt8} (hlen : a.length = a'.length) (h : a < a')
    (b b' : List UInt8) : a ++ b < a' ++ b' := by
  induction a generalizing a' with
  | nil =>
    obtain rfl := List.length_eq_zero_iff.1 hlen.symm
    exact absurd h (List.lt_irrefl [])
  | cons x a ih =>
    rcases a' with - | ⟨y, a'⟩
    · exact absurd hlen (Nat.succ_ne_zero _)
    · rw [List.cons_append, List.cons_append, List.cons_lt_cons_iff]
      rcases List.cons_lt_cons_iff.1 h with hxy | ⟨rfl, htail⟩
      · exact Or.inl hxy
      · exact Or.inr ⟨rfl, ih (Nat.succ.inj hlen) htail⟩

/-- The larger number has the larger numeral. -/
theorem fixed_lt_fixed {w m n : ℕ} (hn : n < 10 ^ w) (h : m < n) : fixed w m < fixed w n := by
  induction w generalizing m n with
  | zero =>
    rw [Nat.pow_zero] at hn
    omega
  | succ w ih =>
    rw [Nat.pow_succ] at hn
    rw [fixed, fixed]
    rcases Nat.lt_or_ge (m / 10) (n / 10) with hlt | hge
    · exact append_lt_append (by simp) (ih (by omega) hlt) _ _
    · have heq : m / 10 = n / 10 := by omega
      rw [heq]
      refine List.append_left_lt (List.cons_lt_cons_iff.2 (Or.inl ?_))
      rw [UInt8.lt_iff_toNat_lt, toNat_digit, toNat_digit]
      omega

end Decimal
