import Mathlib.Data.Nat.Notation

/-!
# What the Bluetooth front ends use of Zephyr

A write to a characteristic as its handler sees it, what a handler answers, and a message queue that
is written without waiting.
-/

namespace ThinEdge.Provisioner

/-- A write to a characteristic, with its ATT offset and flags. -/
structure GattWrite where
  bytes : List UInt8
  offset : ℕ
  /-- `BT_GATT_WRITE_FLAG_PREPARE`. -/
  prepare : Bool
  /-- `BT_GATT_WRITE_FLAG_EXECUTE`. -/
  execute : Bool
  deriving DecidableEq, Repr

/-- What a write handler returns: a byte count or an ATT error. -/
inductive WriteResult
  | count (n : ℕ)
  | invalidOffset
  | invalidAttributeLen
  deriving DecidableEq, Repr

/-- `k_msgq_put` without waiting: nothing is queued when the queue is full. -/
def msgqPut {μ : Type} (size : ℕ) (q : List μ) (m : μ) : Option (List μ) :=
  if q.length < size then some (q ++ [m]) else none

variable {μ : Type} {size : ℕ} {q : List μ} {m : μ}

theorem msgqPut_of_lt (h : q.length < size) : msgqPut size q m = some (q ++ [m]) := if_pos h

theorem msgqPut_of_le (h : size ≤ q.length) : msgqPut size q m = none :=
  if_neg (Nat.not_lt.2 h)

end ThinEdge.Provisioner
