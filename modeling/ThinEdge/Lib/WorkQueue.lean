import Mathlib.Data.List.Nodup
import Mathlib.Data.List.TakeWhile
import Mathlib.Logic.Function.Basic

/-!
# A queue of delayable work items

One thread runs the items of a queue, in the order in which they were put there. An item is on the
queue once at most; a timer puts it there later, and while it runs it can be put there again. For
one item on its own, where the order plays no role, there is `DelayableWork`.

`reschedule` replaces the timer of an item and takes nothing off the queue, so what was asked for
stays due until it is run (`Due.reschedule`, `Due.expire`, `Due.start`). `Ahead` is what the order
is good for: an item that was put on the queue while another was not there runs first.
-/

variable {ι : Type*}

/-- The items on the queue, their timers, and the item that is being run. -/
structure WorkQueue (ι : Type*) where
  queue : List ι
  /-- The deadline of an item's timer, when it is set. -/
  timer : ι → Option ℕ
  running : Option ι

namespace WorkQueue

/-- Nobody has asked for anything. -/
def idle : WorkQueue ι := ⟨[], fun _ ↦ none, none⟩

/-- The thread takes the first item, when it has finished the one before. -/
def start (q : WorkQueue ι) : Option (ι × WorkQueue ι) :=
  match q.running, q.queue with
  | none, i :: rest => some (i, { q with queue := rest, running := some i })
  | _, _ => none

/-- The thread is done with its item. -/
def finish (q : WorkQueue ι) : WorkQueue ι := { q with running := none }

/-- The item is on the queue, or its timer is set. -/
def Due (i : ι) (q : WorkQueue ι) : Prop := i ∈ q.queue ∨ q.timer i ≠ none

section

variable {i j : ι} {q r : WorkQueue ι}

/-- The thread takes an item. -/
theorem start_eq_some (h : q.start = some (i, r)) :
    q.running = none ∧ ∃ rest, q.queue = i :: rest ∧
      r = { q with queue := rest, running := some i } := by
  rw [start] at h
  split at h
  · next k rest hrun hq =>
    obtain ⟨rfl, rfl⟩ := Prod.mk.inj (Option.some.inj h)
    exact ⟨hrun, rest, hq, rfl⟩
  · exact nomatch h

/-- Starting an item leaves every other one due. -/
theorem Due.start (h : q.Due j) (hr : q.start = some (i, r)) (hne : j ≠ i) : r.Due j := by
  obtain ⟨-, rest, hq, rfl⟩ := start_eq_some hr
  refine h.imp (fun hmem ↦ ?_) id
  exact (List.mem_cons.1 (hq ▸ hmem)).resolve_left hne

end

variable [DecidableEq ι]

/-- Put an item on the queue. -/
def submit (i : ι) (q : WorkQueue ι) : WorkQueue ι :=
  if i ∈ q.queue then q else { q with queue := q.queue ++ [i] }

/-- Set or stop a timer. -/
def setTimer (i : ι) (deadline : Option ℕ) (q : WorkQueue ι) : WorkQueue ι :=
  { q with timer := Function.update q.timer i deadline }

/-- Ask for an item after a delay, instead of when its timer is set for. -/
def reschedule (now delay : ℕ) (i : ι) (q : WorkQueue ι) : WorkQueue ι :=
  if delay = 0 then (q.setTimer i none).submit i else q.setTimer i (some (now + delay))

/-- A timer that is due puts its item on the queue. -/
def expire (now : ℕ) (i : ι) (q : WorkQueue ι) : Option (WorkQueue ι) :=
  match q.timer i with
  | some deadline => if deadline ≤ now then some ((q.setTimer i none).submit i) else none
  | none => none

/-- The item is on the queue, and `j` is not in front of it. -/
def Ahead (i j : ι) (l : List ι) : Prop := i ∈ l ∧ j ∉ l.takeWhile (· ≠ i)

section Lemmas

variable {now delay : ℕ} {i j k : ι} {q r : WorkQueue ι} {l m : List ι} {deadline : Option ℕ}

@[simp] theorem timer_submit : (q.submit i).timer = q.timer := by
  rw [submit]
  split <;> rfl

@[simp] theorem running_submit : (q.submit i).running = q.running := by
  rw [submit]
  split <;> rfl

@[simp] theorem queue_setTimer : (q.setTimer i deadline).queue = q.queue := rfl

@[simp] theorem running_setTimer : (q.setTimer i deadline).running = q.running := rfl

theorem timer_setTimer_self : (q.setTimer i deadline).timer i = deadline :=
  Function.update_self _ _ _

/-- The timers of the other items stay. -/
theorem timer_setTimer_of_ne (h : j ≠ i) : (q.setTimer i deadline).timer j = q.timer j :=
  Function.update_of_ne h _ _

/-- Asking for an item does not touch the one that is being run. -/
@[simp] theorem running_reschedule : (q.reschedule now delay i).running = q.running := by
  rw [reschedule]
  split
  · rw [running_submit, running_setTimer]
  · rfl

/-- What is on the queue stays in its place. -/
theorem prefix_submit : q.queue <+: (q.submit i).queue := by
  rw [submit]
  split
  · exact List.prefix_refl _
  · exact List.prefix_append _ _

/-- What is on the queue after an item was put there. -/
theorem mem_submit : j ∈ (q.submit i).queue ↔ j ∈ q.queue ∨ j = i := by
  rw [submit]
  split
  · next hi => exact ⟨Or.inl, fun h ↦ h.elim id fun hj ↦ hj ▸ hi⟩
  · rw [List.mem_append, List.mem_singleton]

/-- An item is on the queue once at most. -/
theorem nodup_submit (h : q.queue.Nodup) : (q.submit i).queue.Nodup := by
  rw [submit]
  split
  · exact h
  · next hi =>
    refine List.nodup_append.2 ⟨h, List.nodup_singleton i, fun a ha b hb hab ↦ ?_⟩
    exact hi (List.mem_singleton.1 hb ▸ hab ▸ ha)

/-- Rescheduling only ever adds at the end. -/
theorem prefix_reschedule : q.queue <+: (q.reschedule now delay i).queue := by
  rw [reschedule]
  split
  · exact prefix_submit (q := q.setTimer i none)
  · exact List.prefix_refl _

/-- Rescheduling puts no item there twice. -/
theorem nodup_reschedule (h : q.queue.Nodup) : (q.reschedule now delay i).queue.Nodup := by
  rw [reschedule]
  split
  · exact nodup_submit (q := q.setTimer i none) h
  · exact h

/-- The other items are on the queue as before. -/
theorem mem_reschedule (h : j ≠ i) : j ∈ (q.reschedule now delay i).queue ↔ j ∈ q.queue := by
  rw [reschedule]
  split
  · rw [mem_submit, queue_setTimer, or_iff_left h]
  · rfl

/-- Their timers are as before, too. -/
theorem timer_reschedule_of_ne (h : j ≠ i) :
    (q.reschedule now delay i).timer j = q.timer j := by
  rw [reschedule]
  split
  · rw [timer_submit, timer_setTimer_of_ne h]
  · exact timer_setTimer_of_ne h

/-! ### Nothing that was asked for is lost -/

/-- An item that was asked for is due. -/
theorem due_reschedule : (q.reschedule now delay i).Due i := by
  rw [reschedule]
  split
  · exact Or.inl (mem_submit.2 (Or.inr rfl))
  · exact Or.inr (by rw [timer_setTimer_self]; exact Option.some_ne_none _)

/-- Asking for an item takes away no other one. -/
theorem Due.reschedule (h : q.Due i) : (q.reschedule now delay j).Due i := by
  rcases eq_or_ne i j with rfl | hne
  · exact due_reschedule
  · exact h.imp (fun hmem ↦ prefix_reschedule.subset hmem) fun htimer ↦ by
      rwa [timer_reschedule_of_ne hne]

/-- What the expiry of a timer does. -/
theorem expire_eq_some (h : q.expire now i = some r) : r = (q.setTimer i none).submit i := by
  rw [expire] at h
  split at h
  · split at h
    · exact (Option.some.inj h).symm
    · exact nomatch h
  · exact nomatch h

/-- Nor does a timer that is due. -/
theorem Due.expire (h : q.Due i) (hr : q.expire now j = some r) : r.Due i := by
  obtain rfl := expire_eq_some hr
  rcases eq_or_ne i j with rfl | hne
  · exact Or.inl (mem_submit.2 (Or.inr rfl))
  · refine h.imp (fun hmem ↦ mem_submit.2 (Or.inl hmem)) fun htimer ↦ ?_
    rwa [timer_submit, timer_setTimer_of_ne hne]

/-! ### Who runs first -/

/-- What is added at the end overtakes nothing. -/
theorem Ahead.prefix (h : Ahead i j l) (hlm : l <+: m) : Ahead i j m := by
  obtain ⟨rest, rfl⟩ := hlm
  refine ⟨List.mem_append_left _ h.1, ?_⟩
  have hlen : (l.takeWhile (· ≠ i)).length ≠ l.length := fun hlen ↦ by
    have hself := (List.takeWhile_prefix (p := fun k ↦ decide (k ≠ i)) (l := l)).eq_of_length hlen
    have hi : i ∈ l.takeWhile (· ≠ i) := by
      rw [hself]
      exact h.1
    simpa using List.mem_takeWhile_imp hi
  rw [List.takeWhile_append, if_neg hlen]
  exact h.2

/-- An item that is put on the queue while another is not there is ahead of it. -/
theorem ahead_submit (h : j ∉ q.queue) : Ahead i j (q.submit i).queue := by
  refine ⟨mem_submit.2 (Or.inr rfl), fun hmem ↦ ?_⟩
  have hne : j ≠ i := by simpa using List.mem_takeWhile_imp hmem
  exact h ((mem_submit.1 ((List.takeWhile_prefix _).subset hmem)).resolve_right hne)

/-- The first item of the queue is the one that is ahead, or neither of the two. -/
theorem Ahead.tail (h : Ahead i j (k :: l)) : k = i ∨ k ≠ j ∧ Ahead i j l := by
  rcases eq_or_ne k i with hk | hk
  · exact Or.inl hk
  · obtain ⟨hmem, hnot⟩ := h
    rw [List.takeWhile_cons, if_pos (by simpa using hk), List.mem_cons, not_or] at hnot
    exact Or.inr ⟨Ne.symm hnot.1, (List.mem_cons.1 hmem).resolve_left (Ne.symm hk), hnot.2⟩

end Lemmas

end WorkQueue
