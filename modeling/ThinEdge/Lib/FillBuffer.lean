import ThinEdge.Lib.Bytes

/-!
# Filling a buffer

An array of a fixed size that is filled from its start: `used` says how many of its bytes are in
use, and what is behind them is left over from before. Reading and writing give `none` where they
would leave the array.

`put_eq` is the rule of a write that fits: the bytes in use are those from before with the new ones
behind them, whatever the rest of the array holds.
-/

namespace Bytes

/-- An array of `n` bytes, of which the first `used` are in use. -/
structure FillBuffer (n : ℕ) where
  area : Area n
  used : ℕ
  deriving DecidableEq, Repr

namespace FillBuffer

variable {n : ℕ}

/-- The bytes in use. -/
def contents (b : FillBuffer n) : List UInt8 := b.area.bytes.take b.used

/-- What is in use lies inside the array. -/
def Sound (b : FillBuffer n) : Prop := b.used ≤ n

instance (b : FillBuffer n) : Decidable b.Sound := inferInstanceAs (Decidable (_ ≤ _))

/-- Nothing is in use any more. -/
def clear (b : FillBuffer n) : FillBuffer n := { b with used := 0 }

/-- Copy bytes behind those in use. -/
def put (b : FillBuffer n) (bytes : List UInt8) : Option (FillBuffer n) :=
  if h : b.used + bytes.length ≤ n then
    some {
      area.bytes :=
        b.area.bytes.take b.used ++ bytes ++ b.area.bytes.drop (b.used + bytes.length)
      area.length_bytes := by
        rw [List.length_append, List.length_append, List.length_take, List.length_drop,
          b.area.length_bytes]
        omega
      used := b.used + bytes.length }
  else none

/-- Read `k` bytes of the array from an index on. -/
def read (b : FillBuffer n) (i k : ℕ) : Option (List UInt8) :=
  if i + k ≤ n then some ((b.area.bytes.drop i).take k) else none

variable {b : FillBuffer n} {bytes : List UInt8} {i k : ℕ}

theorem sound_clear (b : FillBuffer n) : b.clear.Sound := Nat.zero_le n

theorem contents_eq_nil (h : b.used = 0) : b.contents = [] := by
  rw [contents, h, List.take_zero]

@[simp] theorem contents_clear (b : FillBuffer n) : b.clear.contents = [] := List.take_zero

theorem length_contents (h : b.Sound) : b.contents.length = b.used := by
  rw [contents, List.length_take, b.area.length_bytes, Nat.min_eq_left h]

/-- **A write that fits.** -/
theorem put_eq (h : b.used + bytes.length ≤ n) :
    ∃ c, b.put bytes = some c ∧ c.used = b.used + bytes.length ∧
      c.contents = b.contents ++ bytes := by
  refine ⟨_, dif_pos h, rfl, ?_⟩
  have hlen : (b.area.bytes.take b.used ++ bytes).length = b.used + bytes.length := by
    rw [List.length_append, List.length_take, b.area.length_bytes,
      Nat.min_eq_left (Nat.le_of_add_right_le h)]
  exact List.take_left' hlen

/-- Reading bytes that are in use. -/
theorem read_eq (h : b.Sound) (hik : i + k ≤ b.used) :
    b.read i k = some ((b.contents.drop i).take k) := by
  rw [read, if_pos (Nat.le_trans hik h), contents, List.drop_take, List.take_take,
    Nat.min_eq_left (Nat.le_sub_of_add_le (Nat.add_comm i k ▸ hik))]

end FillBuffer

end Bytes
