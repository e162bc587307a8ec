import Mathlib.Data.Int.Notation
import Mathlib.Data.Nat.Notation
import Mathlib.Tactic.SplitIfs
import ThinEdge.Lib.Decimal

/-!
# Scanning texts as C does

A NUL-terminated text, and the functions of the standard library that read numbers and words from
one: `strtol` with a `long` of 32 bits, `atoi`, and the conversion `%s` of `sscanf`.
`strtol_pair` is a number of two hexadecimal digits, `atoi_numeral` a decimal numeral behind a
space, and `scanWord_append` a word that is found.
-/

namespace CText

/-- The text at the start of an array, up to its NUL. -/
def cstr (bytes : List UInt8) : List UInt8 := bytes.takeWhile (· ≠ 0)

/-- `isspace`. -/
def isSpace (b : UInt8) : Bool := b = 32 ∨ 9 ≤ b ∧ b ≤ 13

/-- The value of a digit or a letter as a digit. -/
def digitValue (b : UInt8) : Option ℕ :=
  if 48 ≤ b ∧ b ≤ 57 then some (b.toNat - 48)
  else if 97 ≤ b ∧ b ≤ 122 then some (b.toNat - 87)
  else if 65 ≤ b ∧ b ≤ 90 then some (b.toNat - 55)
  else none

/-- The value of a digit of a base. -/
def digitIn (base : ℕ) (b : UInt8) : Option ℕ := (digitValue b).filter (· < base)

/-- The number that the digits at the start of a text continue. -/
def readDigits (base acc : ℕ) : List UInt8 → ℕ
  | [] => acc
  | b :: s =>
    match digitIn base b with
    | some d => readDigits base (acc * base + d) s
    | none => acc

/-- A sign, or none. -/
def sign : List UInt8 → ℤ × List UInt8
  | [] => (1, [])
  | b :: s => if b = 45 then (-1, s) else if b = 43 then (1, s) else (1, b :: s)

/-- The digits behind `0x`, which base 16 allows in front of them. -/
def dropHexPrefix : List UInt8 → List UInt8
  | b :: x :: d :: s =>
    if b = 48 ∧ (x = 120 ∨ x = 88) ∧ (digitIn 16 d).isSome then d :: s else b :: x :: d :: s
  | s => s

/-- `strtol`, whose result is clamped to 32 bits. -/
def strtol (base : ℕ) (s : List UInt8) : ℤ :=
  let (sgn, digits) := sign (s.dropWhile isSpace)
  let digits := if base = 16 then dropHexPrefix digits else digits
  max (-2147483648) (min 2147483647 (sgn * readDigits base 0 digits))

/-- `atoi`. -/
def atoi (s : List UInt8) : ℤ := strtol 10 s

/-- `%s` with a width: a word, and what follows it. -/
def scanWord (width : ℕ) (s : List UInt8) : List UInt8 × List UInt8 :=
  let s := s.dropWhile isSpace
  let word := (s.take width).takeWhile (!isSpace ·)
  (word, s.drop word.length)

/-! ### Texts -/

theorem cstr_append {s : List UInt8} (h : (0 : UInt8) ∉ s) (t : List UInt8) :
    cstr (s ++ t) = s ++ cstr t := List.takeWhile_append_of_pos fun _ hb ↦
  decide_eq_true fun hzero ↦ h (hzero ▸ hb)

theorem cstr_eq_self {s : List UInt8} (h : (0 : UInt8) ∉ s) : cstr s = s := by
  have happ := cstr_append h []
  rwa [List.append_nil, cstr, cstr, List.takeWhile_nil, List.append_nil] at happ

/-! ### Numbers -/

theorem lt_of_digitIn {base d : ℕ} {b : UInt8} (h : digitIn base b = some d) : d < base :=
  of_decide_eq_true (Option.filter_eq_some_iff.1 h).2

/-- Every digit is behind the spaces and the signs. -/
theorem le_of_digitIn {base d : ℕ} {b : UInt8} (h : digitIn base b = some d) : 48 ≤ b := by
  have hvalue := (Option.filter_eq_some_iff.1 h).1
  rw [digitValue] at hvalue
  split_ifs at hvalue with hdec hlow hup
  · exact hdec.1
  · exact UInt8.le_trans (by decide) hlow.1
  · exact UInt8.le_trans (by decide) hup.1

/-- The number of two hexadecimal digits. -/
theorem strtol_pair {hi lo : UInt8} {a b : ℕ} (hhi : digitIn 16 hi = some a)
    (hlo : digitIn 16 lo = some b) : strtol 16 [hi, lo] = (a * 16 + b : ℕ) := by
  have hge := UInt8.le_iff_toNat_le.1 (le_of_digitIn hhi)
  have hspace : isSpace hi = false := by
    rw [isSpace]
    refine decide_eq_false ?_
    rintro (rfl | ⟨-, hle⟩)
    · exact absurd hge (by decide)
    · have hle' := UInt8.le_iff_toNat_le.1 hle
      simp at hge hle'
      omega
  have hsign : sign [hi, lo] = (1, [hi, lo]) := by
    rw [sign, if_neg, if_neg]
    · rintro rfl
      exact absurd hge (by decide)
    · rintro rfl
      exact absurd hge (by decide)
  have hdigits : readDigits 16 0 [hi, lo] = a * 16 + b := by
    simp [readDigits, hhi, hlo]
  have ha := lt_of_digitIn hhi
  have hb := lt_of_digitIn hlo
  rw [strtol, List.dropWhile_cons_of_neg (by rw [hspace]; decide), hsign]
  show max _ (min _ (1 * (readDigits 16 0 [hi, lo] : ℤ))) = _
  rw [hdigits]
  omega

theorem digitIn_ten {b : UInt8} (h : Decimal.IsDigit b) :
    digitIn 10 b = some (b.toNat - 48) := by
  obtain ⟨hlo, hhi⟩ := h
  rw [digitIn, digitValue, if_pos ⟨UInt8.le_iff_toNat_le.2 hlo, UInt8.le_iff_toNat_le.2 hhi⟩]
  exact Option.filter_some_pos (decide_eq_true (show b.toNat - 48 < 10 by omega))

/-- The digits of a decimal number, up to a byte that is none. -/
theorem readDigits_append {ds rest : List UInt8} (h : Decimal.AllDigits ds)
    (hrest : ∀ b ∈ rest.head?, digitIn 10 b = none) (acc : ℕ) :
    readDigits 10 acc (ds ++ rest) = ds.foldl (fun v b ↦ v * 10 + (b.toNat - 48)) acc := by
  induction ds generalizing acc with
  | nil =>
    cases rest with
    | nil => rfl
    | cons b rest =>
      rw [List.nil_append, readDigits, hrest b rfl]
      rfl
  | cons d ds ih =>
    rw [List.cons_append, readDigits, digitIn_ten (h d List.mem_cons_self), List.foldl_cons]
    exact ih (fun b hb ↦ h b (List.mem_cons_of_mem d hb)) _

/-- A decimal numeral behind a space. -/
theorem atoi_numeral {ds rest : List UInt8} (h : Decimal.IsNumeral ds)
    (hrest : ∀ b ∈ rest.head?, digitIn 10 b = none) (hlt : Decimal.value ds < 2147483648) :
    atoi (32 :: (ds ++ rest)) = Decimal.value ds := by
  obtain ⟨hne, hdigits⟩ := h
  obtain ⟨d, ds, rfl⟩ := List.exists_cons_of_ne_nil hne
  have hd := hdigits d List.mem_cons_self
  have hspace : isSpace d = false := by
    refine decide_eq_false ?_
    rintro (rfl | ⟨-, hle⟩)
    · exact absurd hd.1 (by decide)
    · have hle' := UInt8.le_iff_toNat_le.1 hle
      have hlo := hd.1
      simp only [UInt8.reduceToNat] at hle'
      omega
  have hsign : sign (d :: ds ++ rest) = (1, d :: ds ++ rest) := by
    rw [List.cons_append, sign, if_neg, if_neg]
    · rintro rfl
      exact absurd hd.1 (by decide)
    · rintro rfl
      exact absurd hd.1 (by decide)
  have hread : readDigits 10 0 (d :: ds ++ rest) = Decimal.value (d :: ds) :=
    readDigits_append hdigits hrest 0
  have hdrop : (32 :: (d :: ds ++ rest)).dropWhile isSpace = d :: ds ++ rest := by
    rw [List.dropWhile_cons_of_pos (by decide), List.cons_append,
      List.dropWhile_cons_of_neg (by rw [hspace]; exact Bool.false_ne_true)]
  rw [atoi, strtol, hdrop, hsign]
  show max _ (min _ (1 * (readDigits 10 0 (d :: ds ++ rest) : ℤ))) = _
  rw [hread]
  omega

/-! ### Words -/

/-- A word is found when it fits and a space follows. -/
theorem scanWord_append {width : ℕ} {word rest : List UInt8} {sep : UInt8} (hne : word ≠ [])
    (hword : ∀ b ∈ word, isSpace b = false) (hsep : isSpace sep = true)
    (hwidth : word.length < width) :
    scanWord width (word ++ sep :: rest) = (word, sep :: rest) := by
  obtain ⟨k, rfl⟩ : ∃ k, width = word.length + (k + 1) :=
    ⟨width - word.length - 1, by omega⟩
  have hdrop : (word ++ sep :: rest).dropWhile isSpace = word ++ sep :: rest := by
    obtain ⟨b, word, rfl⟩ := List.exists_cons_of_ne_nil hne
    rw [List.cons_append, List.dropWhile_cons_of_neg]
    rw [hword b List.mem_cons_self]
    decide
  have htake : ((word ++ sep :: rest).take (word.length + (k + 1))).takeWhile (!isSpace ·) =
      word := by
    rw [List.take_length_add_append, List.take_succ_cons,
      List.takeWhile_append_of_pos fun b hb ↦ by rw [hword b hb]; rfl,
      List.takeWhile_cons_of_neg (by rw [hsep]; decide), List.append_nil]
  rw [scanWord, hdrop, htake, List.drop_left]

end CText
