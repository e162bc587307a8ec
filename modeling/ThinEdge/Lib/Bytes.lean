import Mathlib.Data.Int.Notation
import Mathlib.Data.Nat.Notation

/-!
# Bytes

Big-endian 16-bit fields, texts as bytes, and writing into a memory area. `getBe16_putBe16` is the
round trip of a field, and `take_overwrite` says that what was written is read back.
-/

namespace Bytes

/-- A 16-bit field, high byte first. -/
def putBe16 (v : UInt16) : List UInt8 := [UInt8.ofNat (v.toNat / 256), UInt8.ofNat (v.toNat % 256)]

/-- The 16-bit field of two bytes. -/
def getBe16 (hi lo : UInt8) : ℕ := hi.toNat * 256 + lo.toNat

/-- Writing bytes to the start of a memory area. -/
def overwrite (mem bytes : List UInt8) : List UInt8 := bytes ++ mem.drop bytes.length

theorem getBe16_putBe16 {n : ℕ} (h : n < 65536) :
    getBe16 (UInt8.ofNat (n / 256)) (UInt8.ofNat (n % 256)) = n := by
  simp only [getBe16, UInt8.toNat_ofNat']
  omega

@[simp] theorem take_overwrite (mem bytes : List UInt8) :
    (overwrite mem bytes).take bytes.length = bytes := by
  simp [overwrite]

/-- The bytes of a literal. -/
def ascii (s : String) : List UInt8 := s.toUTF8.data.toList

/-- A NUL ends a text. -/
theorem takeWhile_append_nul (bytes rest : List UInt8) :
    (bytes ++ 0 :: rest).takeWhile (· ≠ 0) = bytes.takeWhile (· ≠ 0) := by
  induction bytes with
  | nil => rfl
  | cons b bytes ih => rw [List.cons_append, List.takeWhile_cons, List.takeWhile_cons, ih]

/-! ### Printing into a buffer -/

/-- The largest `int`. -/
def intMax : ℕ := 2147483647

/-- `snprintf` of a text: its length, and the buffer with as much of the text as leaves room for a
NUL. A length that an `int` cannot hold is an error. -/
def snprintf (buf text : List UInt8) : ℤ × List UInt8 :=
  (if text.length ≤ intMax then (text.length : ℤ) else -1,
    if buf = [] then buf else overwrite buf (text.take (buf.length - 1) ++ [0]))

/-- A text that fits stands at the start of the buffer, with a NUL behind it. -/
theorem snprintf_of_lt {buf text : List UInt8} (h : text.length < buf.length) :
    (snprintf buf text).2 = text ++ 0 :: buf.drop (text.length + 1) := by
  have hne : buf ≠ [] := fun hnil ↦ by simp [hnil] at h
  have htake : text.take (buf.length - 1) = text := List.take_of_length_le (by omega)
  rw [snprintf]
  dsimp only
  rw [if_neg hne, htake, overwrite, List.length_append, List.append_assoc]
  rfl

theorem length_snprintf (buf text : List UInt8) : (snprintf buf text).2.length = buf.length := by
  rw [snprintf]
  dsimp only
  split
  · rfl
  · next hne =>
    have hpos := List.length_pos_iff.2 hne
    rw [overwrite, List.length_append, List.length_drop, List.length_append, List.length_take,
      List.length_singleton]
    omega

/-! ### Areas of a fixed size -/

/-- An array of `n` bytes. -/
structure Area (n : ℕ) where
  bytes : List UInt8
  length_bytes : bytes.length = n
  deriving DecidableEq, Repr

namespace Area

variable {n : ℕ}

/-- The area of zeros. -/
def zero (n : ℕ) : Area n := ⟨List.replicate n 0, List.length_replicate⟩

/-- The area after bytes that fit are written to its start. -/
def write (a : Area n) (bytes : List UInt8) (h : bytes.length ≤ n) : Area n where
  bytes := overwrite a.bytes bytes
  length_bytes := by
    rw [overwrite, List.length_append, List.length_drop, a.length_bytes]
    omega

/-- The area with one byte stored in it. -/
def set (a : Area n) (i : ℕ) (b : UInt8) : Area n where
  bytes := a.bytes.set i b
  length_bytes := List.length_set.trans a.length_bytes

/-- The text of a NUL-terminated array. -/
def cstr (a : Area n) : List UInt8 := a.bytes.takeWhile (· ≠ 0)

@[simp] theorem take_write (a : Area n) (bytes : List UInt8) (h : bytes.length ≤ n) :
    (a.write bytes h).bytes.take bytes.length = bytes :=
  take_overwrite a.bytes bytes

/-- What is written with a NUL behind it is read up to its first NUL. -/
theorem cstr_write_nul (a : Area n) (bytes : List UInt8) (h : (bytes ++ [0]).length ≤ n) :
    (a.write (bytes ++ [0]) h).cstr = bytes.takeWhile (· ≠ 0) := by
  show (overwrite a.bytes (bytes ++ [0])).takeWhile (· ≠ 0) = _
  rw [overwrite, List.append_assoc]
  exact takeWhile_append_nul bytes _

end Area

end Bytes
