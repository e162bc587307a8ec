import Mathlib.Data.List.Basic

/-!
# Counting semaphores

A counting semaphore with a limit and a queue of the threads that wait for it. A token that is given
goes to a waiting thread if there is one, whichever the kernel chooses, and is counted otherwise, up
to the limit. A token says nothing about when it was given: `take` hands out what was counted
before.
-/

/-- A counting semaphore. -/
structure Semaphore (ι : Type*) (limit : ℕ) where
  count : ℕ
  count_le : count ≤ limit
  /-- The threads that wait for a token. -/
  waitQ : List ι

namespace Semaphore

variable {ι : Type*} {limit : ℕ}

/-- A semaphore without tokens. -/
def empty : Semaphore ι limit := ⟨0, Nat.zero_le limit, []⟩

/-- Take a token, if there is one. -/
def take (s : Semaphore ι limit) : Option (Semaphore ι limit) :=
  if s.count = 0 then none
  else some { s with count := s.count - 1, count_le := Nat.le_trans (Nat.sub_le _ _) s.count_le }

/-- Wait for a token. -/
def pend (i : ι) (s : Semaphore ι limit) : Semaphore ι limit := { s with waitQ := s.waitQ ++ [i] }

section Queue

variable [DecidableEq ι]

/-- Stop waiting. -/
def leave (i : ι) (s : Semaphore ι limit) : Semaphore ι limit :=
  { s with waitQ := s.waitQ.filter (· ≠ i) }

/-- Give a token to a waiting thread, or to none if none waits. -/
def give (woken : Option ι) (s : Semaphore ι limit) : Option (Semaphore ι limit) :=
  match woken with
  | some i => if i ∈ s.waitQ then some (s.leave i) else none
  | none =>
    if s.waitQ = [] then
      some { s with count := min (s.count + 1) limit, count_le := Nat.min_le_right _ _ }
    else none

end Queue

section Lemmas

variable {s t : Semaphore ι limit} {i j : ι}

theorem take_eq_some (h : s.take = some t) : s.count ≠ 0 ∧ t.waitQ = s.waitQ := by
  rw [take] at h
  split at h
  · exact absurd h (by simp)
  · next h0 =>
    obtain rfl := Option.some.inj h
    exact ⟨h0, rfl⟩

theorem take_eq_none : s.take = none ↔ s.count = 0 := by simp [take]

theorem mem_waitQ_pend : j ∈ (s.pend i).waitQ ↔ j ∈ s.waitQ ∨ j = i := by simp [pend]

variable [DecidableEq ι]

theorem mem_waitQ_leave : j ∈ (s.leave i).waitQ ↔ j ∈ s.waitQ ∧ j ≠ i := by simp [leave]

/-- A token goes to a thread of the queue, which leaves it, or to none. -/
theorem give_eq_some {woken : Option ι} (h : s.give woken = some t) :
    (∀ i ∈ woken, i ∈ s.waitQ) ∧ ∀ j, j ∈ t.waitQ ↔ j ∈ s.waitQ ∧ j ∉ woken := by
  cases woken with
  | some i =>
    rw [give] at h
    split at h
    · next hi =>
      obtain rfl := Option.some.inj h
      refine ⟨fun k hk ↦ Option.some.inj hk ▸ hi, fun j ↦ mem_waitQ_leave.trans ?_⟩
      rw [Option.mem_some, eq_comm]
    · exact absurd h (by simp)
  | none =>
    rw [give] at h
    split at h
    · obtain rfl := Option.some.inj h
      simp
    · exact absurd h (by simp)

end Lemmas

end Semaphore
