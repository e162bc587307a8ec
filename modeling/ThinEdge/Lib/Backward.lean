import Mathlib.Data.List.Basic
import Mathlib.Data.Nat.Basic
import Mathlib.Logic.Function.Basic
import Mathlib.Order.Basic

/-!
# Writing a message backward

A writer fills a buffer from its end toward its front, one byte at a time. The buffer is a part of
memory, `cap` bytes from `base` on, and the bytes written so far are the ones from `pos` on. A byte
that finds no room sets `overflow`, and from then on nothing is written any more.

Prepending a list of bytes (`Writer.puts`) is an action of lists under concatenation
(`puts_append`), overflow included: whatever a program writes is one `puts`. The bytes it left
(`written_puts`), when it overflows (`overflow_puts_iff`) and that it changes no other memory
(`mem_puts`) then follow once and for all.
-/

namespace Backward

/-- A writer over `cap` bytes of memory from `base` on. -/
structure Writer where
  mem : ℕ → UInt8
  base : ℕ
  cap : ℕ
  /-- The bytes written are those from `pos` to `cap`. -/
  pos : ℕ
  overflow : Bool

namespace Writer

/-- Prepend one byte. -/
def put (w : Writer) (b : UInt8) : Writer :=
  if w.overflow ∨ w.pos = 0 then { w with overflow := true }
  else { w with mem := Function.update w.mem (w.base + (w.pos - 1)) b, pos := w.pos - 1 }

/-- Prepend bytes, keeping their order: the last one is written first. -/
def puts (w : Writer) (bs : List UInt8) : Writer := bs.foldr (fun b w ↦ w.put b) w

/-- The bytes written so far. -/
def written (w : Writer) : List UInt8 :=
  (List.range (w.cap - w.pos)).map fun i ↦ w.mem (w.base + (w.pos + i))

variable {w : Writer} {b : UInt8} {bs : List UInt8}

@[simp] theorem puts_cons (w : Writer) (b : UInt8) (bs : List UInt8) :
    w.puts (b :: bs) = (w.puts bs).put b := rfl

theorem puts_singleton (w : Writer) (b : UInt8) : w.puts [b] = w.put b := rfl

/-- **Prepending is an action**: what is written last comes first. -/
theorem puts_append (w : Writer) (as bs : List UInt8) :
    w.puts (as ++ bs) = (w.puts bs).puts as :=
  List.foldr_append

/-- Prepending bytes one at a time puts them in reverse order. -/
theorem foldl_put (w : Writer) (bs : List UInt8) : bs.foldl put w = w.puts bs.reverse := by
  rw [puts, List.foldr_reverse]

/-! ### Overflow -/

theorem put_of_overflow (h : w.overflow = true) : w.put b = w := by
  obtain ⟨mem, base, cap, pos, overflow⟩ := w
  obtain rfl : overflow = true := h
  simp [put]

/-- Once a byte did not fit, nothing is written any more. -/
theorem puts_of_overflow (h : w.overflow = true) : w.puts bs = w := by
  induction bs with
  | nil => rfl
  | cons b bs ih => rw [puts_cons, ih, put_of_overflow h]

theorem put_of_room (hw : w.overflow = false) (hpos : w.pos ≠ 0) :
    w.put b =
      { w with mem := Function.update w.mem (w.base + (w.pos - 1)) b, pos := w.pos - 1 } := by
  rw [put, if_neg (by simp [hw, hpos])]

theorem put_of_full (hpos : w.pos = 0) : w.put b = { w with overflow := true } := by
  rw [put, if_pos (Or.inr hpos)]

theorem put_frame (w : Writer) (b : UInt8) :
    (w.put b).base = w.base ∧ (w.put b).cap = w.cap ∧ (w.put b).pos ≤ w.pos := by
  rw [put]
  split
  · exact ⟨rfl, rfl, Nat.le_refl _⟩
  · exact ⟨rfl, rfl, Nat.sub_le _ _⟩

theorem base_puts (w : Writer) (bs : List UInt8) : (w.puts bs).base = w.base := by
  induction bs with
  | nil => rfl
  | cons b bs ih => rw [puts_cons, (put_frame _ b).1, ih]

theorem cap_puts (w : Writer) (bs : List UInt8) : (w.puts bs).cap = w.cap := by
  induction bs with
  | nil => rfl
  | cons b bs ih => rw [puts_cons, (put_frame _ b).2.1, ih]

theorem pos_puts_le (w : Writer) (bs : List UInt8) : (w.puts bs).pos ≤ w.pos := by
  induction bs with
  | nil => exact Nat.le_refl _
  | cons b bs ih => exact (put_frame _ b).2.2.trans ih

/-- Bytes that fit leave no overflow and take as much room as they are. -/
theorem puts_of_fits (hw : w.overflow = false) (h : bs.length ≤ w.pos) :
    (w.puts bs).overflow = false ∧ (w.puts bs).pos + bs.length = w.pos := by
  induction bs with
  | nil => exact ⟨hw, rfl⟩
  | cons b bs ih =>
    rw [List.length_cons] at h
    obtain ⟨hov, hpos⟩ := ih (by omega)
    rw [puts_cons, put_of_room hov (by omega)]
    refine ⟨hov, ?_⟩
    show (w.puts bs).pos - 1 + (b :: bs).length = w.pos
    rw [List.length_cons]
    omega

/-- **When writing overflows**: when the bytes do not fit. -/
theorem overflow_puts_iff :
    (w.puts bs).overflow = true ↔ w.overflow = true ∨ w.pos < bs.length := by
  constructor
  · intro h
    by_contra hno
    rw [not_or, Bool.not_eq_true, Nat.not_lt] at hno
    rw [(puts_of_fits hno.1 hno.2).1] at h
    exact Bool.false_ne_true h
  · intro h
    by_cases hw : w.overflow = true
    · rwa [puts_of_overflow hw]
    · have hlt : w.pos < bs.length := h.resolve_left hw
      rw [Bool.not_eq_true] at hw
      -- the bytes split into those that fit and at least one more
      have hsplit : bs = bs.take (bs.length - w.pos) ++ bs.drop (bs.length - w.pos) :=
        (List.take_append_drop _ _).symm
      have hdrop : (bs.drop (bs.length - w.pos)).length = w.pos := by
        rw [List.length_drop]
        omega
      obtain ⟨hov, hpos⟩ := puts_of_fits hw hdrop.le
      rw [hdrop] at hpos
      rw [hsplit, puts_append]
      rcases hrest : (bs.take (bs.length - w.pos)).reverse with - | ⟨c, cs⟩
      · have hlen := congrArg List.length hrest
        rw [List.length_reverse, List.length_take, List.length_nil] at hlen
        omega
      · rw [← List.reverse_reverse (bs.take (bs.length - w.pos)), hrest, List.reverse_cons,
          puts_append, puts_singleton, put_of_full (by omega), puts_of_overflow rfl]

/-! ### Memory -/

/-- Only memory of the buffer below the write position is changed. -/
theorem mem_puts {a : ℕ} (h : a < w.base ∨ w.base + w.pos ≤ a) : (w.puts bs).mem a = w.mem a := by
  induction bs with
  | nil => rfl
  | cons b bs ih =>
    have hbase := base_puts w bs
    have hpos := pos_puts_le w bs
    rw [puts_cons, put]
    split
    · exact ih
    · next hroom =>
      rw [not_or] at hroom
      have hne : a ≠ (w.puts bs).base + ((w.puts bs).pos - 1) := by omega
      show Function.update (w.puts bs).mem _ b a = w.mem a
      rw [Function.update_of_ne hne, ih]

theorem length_written (w : Writer) : w.written.length = w.cap - w.pos := by
  rw [written, List.length_map, List.length_range]

theorem written_put (hw : w.overflow = false) (hpos : w.pos ≠ 0) (hcap : w.pos ≤ w.cap) :
    (w.put b).written = b :: w.written := by
  have hlen : w.cap - (w.pos - 1) = (w.cap - w.pos) + 1 := by omega
  rw [put_of_room hw hpos, written, written]
  show (List.range (w.cap - (w.pos - 1))).map (fun i ↦
    Function.update w.mem (w.base + (w.pos - 1)) b (w.base + (w.pos - 1 + i))) = _
  rw [hlen, List.range_succ_eq_map, List.map_cons, List.map_map, Nat.add_zero,
    Function.update_self]
  congr 1
  refine List.map_congr_left fun i _ ↦ ?_
  have hne : w.base + (w.pos - 1 + (i + 1)) ≠ w.base + (w.pos - 1) := by omega
  rw [Function.comp_apply, Nat.succ_eq_add_one, Function.update_of_ne hne]
  congr 1
  omega

/-- **What writing leaves**: the new bytes in front of the old ones. -/
theorem written_puts (hw : w.overflow = false) (h : bs.length ≤ w.pos) (hcap : w.pos ≤ w.cap) :
    (w.puts bs).written = bs ++ w.written := by
  induction bs with
  | nil => rfl
  | cons b bs ih =>
    rw [List.length_cons] at h
    obtain ⟨hov, hpos⟩ := @puts_of_fits w bs hw (by omega)
    have hle := pos_puts_le w bs
    rw [puts_cons, written_put hov (by omega) (by rw [cap_puts]; omega), ih (by omega),
      List.cons_append]

end Writer

end Backward
