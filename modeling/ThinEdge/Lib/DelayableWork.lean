import Mathlib.Data.Nat.Notation
import Mathlib.Logic.Basic

/-!
# Delayable work items

A work item that a queue runs one run at a time and that a timer can put on the queue later. It is
on the queue, its timer is set and a run of it is under way independently of each other; a run may
reschedule the item it belongs to, and so may anyone else meanwhile.

`reschedule` replaces the timer and never takes the item off the queue, so an item that has been
rescheduled will run (`due_reschedule`).
-/

variable {ρ : Type*}

/-- A work item. `ρ` says how far a run has come. -/
structure DelayableWork (ρ : Type*) where
  queued : Bool
  /-- The deadline of the timer, when it is set. -/
  timer : Option ℕ
  /-- The run under way. -/
  running : Option ρ
  deriving DecidableEq, Repr

namespace DelayableWork

/-- An item nobody has asked for. -/
def idle : DelayableWork ρ := ⟨false, none, none⟩

/-- Ask for a run after a delay, instead of the one the timer is set for. Without a delay the item
goes to the queue at once, or stays there. -/
def reschedule (now delay : ℕ) (w : DelayableWork ρ) : DelayableWork ρ :=
  if delay = 0 then { w with queued := true, timer := none }
  else { w with timer := some (now + delay) }

/-- The timer puts the item on the queue, once it is due. -/
def expire (now : ℕ) (w : DelayableWork ρ) : Option (DelayableWork ρ) :=
  match w.timer with
  | some deadline => if deadline ≤ now then some { w with queued := true, timer := none } else none
  | none => none

/-- The queue starts a run, when none is under way. -/
def start (r : ρ) (w : DelayableWork ρ) : Option (DelayableWork ρ) :=
  if w.queued = true ∧ w.running = none then some { w with queued := false, running := some r }
  else none

/-- A run goes on. -/
def advance (r : ρ) (w : DelayableWork ρ) : DelayableWork ρ := { w with running := some r }

/-- A run ends. -/
def finish (w : DelayableWork ρ) : DelayableWork ρ := { w with running := none }

/-- A run is due or will be. -/
def Due (w : DelayableWork ρ) : Prop := w.queued = true ∨ w.timer ≠ none

/-- A run is due, or will be, or is under way. -/
def Pending (w : DelayableWork ρ) : Prop := w.Due ∨ w.running ≠ none

section Lemmas

variable {now delay : ℕ} {r : ρ} {w v : DelayableWork ρ}

/-- Asking for a run leaves the one under way alone. -/
@[simp] theorem running_reschedule : (w.reschedule now delay).running = w.running := by
  rw [reschedule]
  split <;> rfl

/-- Without a delay the item is on the queue at once. -/
@[simp] theorem queued_reschedule_zero : (w.reschedule now 0).queued = true := by
  rw [reschedule, if_pos rfl]

/-- An item that was asked for is due, whatever the delay. -/
theorem due_reschedule : (w.reschedule now delay).Due := by
  rw [reschedule]
  split
  · exact Or.inl rfl
  · exact Or.inr (Option.some_ne_none _)

@[simp] theorem running_advance : (w.advance r).running = some r := rfl

@[simp] theorem queued_finish : w.finish.queued = w.queued := rfl

@[simp] theorem running_finish : w.finish.running = none := rfl

/-- A timer that is due puts the item on the queue, and does no more. -/
theorem expire_eq_some (h : w.expire now = some v) :
    v.queued = true ∧ v.running = w.running := by
  rw [expire] at h
  split at h
  · split at h
    · obtain rfl := Option.some.inj h
      exact ⟨rfl, rfl⟩
    · exact absurd h (by simp)
  · exact absurd h (by simp)

/-- A run starts when none is under way, and takes the item off the queue. -/
theorem start_eq_some (h : w.start r = some v) :
    w.running = none ∧ v.queued = false ∧ v.running = some r := by
  rw [start] at h
  split at h
  · next hw =>
    obtain rfl := Option.some.inj h
    exact ⟨hw.2, rfl, rfl⟩
  · exact absurd h (by simp)

end Lemmas

end DelayableWork
