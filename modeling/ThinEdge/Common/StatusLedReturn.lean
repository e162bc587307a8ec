import ThinEdge.Common.StatusLed
import ThinEdge.Lib.Transition

/-!
# The status LED returns to the base pattern

Runs of the LED and its work item from boot, with calls at any time. An observer remembers when the
latest temporary pattern ends, and what the first run at or after that time wrote to the LED.

`statusLed_returns` is the result. It rests on two facts. A run that is needed is always due, or
will be: a run that does not reschedule its item found nothing to wait for, and a call that changes
that puts the item on the queue, where the end of the run leaves it (`Kept`). And the code's
`flash_until` is the observer's end, so the run that clears it is the observer's first.
-/

namespace ThinEdge.Common

open Transition DelayableWork

/-! ### What an observer sees -/

/-- A run that found a temporary pattern over. -/
structure LedReturn where
  /-- The base mode when the run had the lock. -/
  base : StatusLedMode
  /-- The segment it went to. -/
  segIdx : ℕ
  deriving DecidableEq, Repr

/-- What has been seen of the LED. -/
structure LedSeen where
  /-- When the latest temporary pattern ends, as long as no run has had the lock since. -/
  flashEnd : Option ℕ
  /-- The run under way, when it is the first at or after that time. -/
  current : Option LedReturn
  /-- The last run of that kind and what it wrote. -/
  shown : Option (LedReturn × LedOutput)
  deriving DecidableEq, Repr

/-- Nothing has been seen. -/
def LedSeen.boot : LedSeen := ⟨none, none, none⟩

/-- The latest temporary pattern is over, and no run has had the lock since. -/
def LedSeen.Over (now : ℕ) (seen : LedSeen) : Prop := ∃ e ∈ seen.flashEnd, e ≤ now

instance (now : ℕ) (seen : LedSeen) : Decidable (seen.Over now) :=
  inferInstanceAs (Decidable (∃ e ∈ seen.flashEnd, e ≤ now))

/-- The notes of what a run writes. -/
def LedSeen.written (rgb : Bool) (run : LedRun) (seen : LedSeen) : LedSeen :=
  match seen.current with
  | some ret => { seen with shown := some (ret, ledWrite rgb run.mode run.on) }
  | none => seen

/-- The notes of a step. A temporary pattern asked for before the LED is there is not shown. -/
def seeLed (rgb : Bool) (s : LedSystem) (a : LedAction) (t : LedSystem) (seen : LedSeen) :
    LedSeen :=
  match a with
  | .flash _ ms =>
    if s.led.ready = true then { seen with flashEnd := some (s.now + ms.toNat) } else seen
  | .locked =>
    if seen.Over s.now then
      { seen with flashEnd := none, current := some ⟨t.led.baseMode, t.led.segIdx⟩ }
    else { seen with current := none }
  | .write =>
    match s.work.running with
    | some (.unlocked run) => seen.written rgb run
    | _ => seen
  | .setMode _ | .init _ | .elapse _ | .expire | .start | .finish => seen

/-- The LED with its observer. -/
def ledObserved (rgb : Bool) : LedSystem × LedSeen → LedAction → Option (LedSystem × LedSeen) :=
  observed ledStep (seeLed rgb)

/-- A temporary pattern is shown for some time. -/
def Lasting : LedAction → Prop
  | .flash _ ms => 0 < ms
  | _ => True

instance : DecidablePred Lasting
  | .flash _ ms => inferInstanceAs (Decidable (0 < ms))
  | .setMode _ | .init _ | .elapse _ | .expire | .start | .locked | .write | .finish =>
    inferInstanceAs (Decidable True)

/-! ### The rules -/

/-- There is a temporary pattern to end or a next segment to show. -/
def StatusLed.Waiting (s : StatusLed) : Prop := s.flashUntil ≠ 0 ∨ 1 < (patterns s.shownMode).n

/-- The base pattern is shown unless there is a temporary one; a run is due, or will be, or is under
way, as long as one is needed; and the first run at or after the end of a temporary pattern wrote
the first segment of the base pattern. -/
structure LedRules (rgb : Bool) (p : LedSystem × LedSeen) : Prop where
  base : p.1.led.ready = true → p.1.led.flashUntil = 0 → p.1.led.shownMode = p.1.led.baseMode
  pending : p.1.led.ready = true → p.1.led.Waiting → p.1.work.Pending
  returned : ∀ r ∈ p.2.shown,
    r.1.segIdx = 0 ∧ r.2 = ledWrite rgb r.1.base ((patterns r.1.base).on 0)

/-! ### The invariant -/

/-- The phase of a run promises another run. -/
def LedPhase.Promises : LedPhase → Prop
  | .entered => True
  | .unlocked run => 0 ≤ run.nextMs
  | .written nextMs => 0 ≤ nextMs

/-- A run is due now, or it will be when the run under way has ended, if there is one. -/
def Kept (w : DelayableWork LedPhase) : Prop :=
  w.queued = true ∨
    match w.running with
    | none => w.timer ≠ none
    | some phase => phase.Promises

/-- What holds between the steps. -/
structure LedInv (rgb : Bool) (p : LedSystem × LedSeen) : Prop where
  base : p.1.led.ready = true → p.1.led.flashUntil = 0 → p.1.led.shownMode = p.1.led.baseMode
  kept : p.1.led.ready = true → p.1.led.Waiting → Kept p.1.work
  flashEnd : p.2.flashEnd = if p.1.led.flashUntil = 0 then none else some p.1.led.flashUntil
  current : ∀ run, p.1.work.running = some (.unlocked run) → ∀ r ∈ p.2.current,
    r.segIdx = 0 ∧ run.mode = r.base ∧ run.on = (patterns r.base).on 0
  returned : ∀ r ∈ p.2.shown,
    r.1.segIdx = 0 ∧ r.2 = ledWrite rgb r.1.base ((patterns r.1.base).on 0)

section Invariant

variable {rgb : Bool} {p : LedSystem × LedSeen} {s t : LedSystem} {seen : LedSeen}

theorem written_of_none {run : LedRun} (h : seen.current = none) :
    seen.written rgb run = seen := by
  simp [LedSeen.written, h]

theorem written_of_some {run : LedRun} {ret : LedReturn} (h : seen.current = some ret) :
    seen.written rgb run = { seen with shown := some (ret, ledWrite rgb run.mode run.on) } := by
  simp [LedSeen.written, h]

theorem pending_of_kept {w : DelayableWork LedPhase} (h : Kept w) : w.Pending := by
  rcases h with h | h
  · exact Or.inl (Or.inl h)
  · split at h
    · exact Or.inl (Or.inr h)
    · next phase hrun =>
      rw [Pending, hrun]
      exact Or.inr (Option.some_ne_none _)

theorem LedInv.rules (hi : LedInv rgb p) : LedRules rgb p :=
  ⟨hi.base, fun hready hwait ↦ pending_of_kept (hi.kept hready hwait), hi.returned⟩

theorem ledInv_boot : LedInv rgb (.boot, .boot) where
  base h := absurd h (by decide)
  kept h := absurd h (by decide)
  flashEnd := rfl
  current _ h := absurd h (by simp [LedSystem.boot, idle])
  returned _ h := absurd h (by simp [LedSeen.boot])

/-- The run the code takes for the first after the end is the observer's. -/
theorem LedInv.over_iff (hi : LedInv rgb (s, seen)) :
    seen.Over s.now ↔ s.led.flashUntil ≠ 0 ∧ s.led.flashUntil ≤ s.now := by
  have h := hi.flashEnd
  dsimp only at h
  rw [LedSeen.Over, h]
  split
  · next h0 => simp [h0]
  · next h0 => simp [h0]

/-- A run promises another if one is needed. -/
theorem nextMs_nonneg {l : StatusLed} (h : l.Waiting) : 0 ≤ l.run.nextMs := by
  rw [StatusLed.run]
  dsimp only
  split
  · exact Int.natCast_nonneg _
  · next hn =>
    rw [if_pos (h.resolve_right hn)]
    decide

/-- Showing a mode puts the item on the queue, so all that matters is that it is the base mode
unless it is temporary. -/
theorem ledInv_showLocked {mode : StatusLedMode}
    (hbase : s.led.flashUntil = 0 → mode = s.led.baseMode)
    (hend : seen.flashEnd = if s.led.flashUntil = 0 then none else some s.led.flashUntil)
    (hcur : ∀ run, s.work.running = some (.unlocked run) → ∀ r ∈ seen.current,
      r.segIdx = 0 ∧ run.mode = r.base ∧ run.on = (patterns r.base).on 0)
    (hret : ∀ r ∈ seen.shown,
      r.1.segIdx = 0 ∧ r.2 = ledWrite rgb r.1.base ((patterns r.1.base).on 0)) :
    LedInv rgb (s.showLocked mode, seen) where
  base _ := hbase
  kept _ _ := Or.inl (queued_reschedule_zero : (s.work.reschedule s.now 0).queued = true)
  flashEnd := hend
  current run hrun := by
    rw [LedSystem.showLocked, running_reschedule] at hrun
    exact hcur run hrun
  returned := hret

theorem LedInv.setMode (hi : LedInv rgb (s, seen)) (mode : StatusLedMode) :
    LedInv rgb (s.setMode mode, seen) := by
  rw [LedSystem.setMode]
  dsimp only
  split
  · exact ledInv_showLocked (fun _ ↦ rfl) hi.flashEnd hi.current hi.returned
  · next h =>
    have hbase : s.led.ready = true → s.led.flashUntil = 0 → s.led.shownMode = mode := by
      intro hready h0
      by_contra hne
      exact h ⟨hready, h0, Ne.symm hne⟩
    exact ⟨hbase, hi.kept, hi.flashEnd, hi.current, hi.returned⟩

theorem LedInv.flash (hi : LedInv rgb (s, seen)) {mode : StatusLedMode} {ms : UInt32}
    (hms : 0 < ms) : LedInv rgb (s.flash mode ms, seeLed rgb s (.flash mode ms) t seen) := by
  have hpos : s.now + ms.toNat ≠ 0 := by
    have := UInt32.lt_iff_toNat_lt.1 hms
    have h0 : (0 : UInt32).toNat = 0 := rfl
    omega
  rw [LedSystem.flash, seeLed]
  split
  · exact ledInv_showLocked (fun h0 ↦ absurd h0 hpos) (if_neg hpos).symm hi.current hi.returned
  · exact hi

theorem LedInv.init (hi : LedInv rgb (s, seen)) (deviceReady : Bool) :
    LedInv rgb (s.init deviceReady, seen) := by
  rw [LedSystem.init]
  split
  · exact ledInv_showLocked (fun _ ↦ rfl) hi.flashEnd hi.current hi.returned
  · exact hi

/-- The part under the lock. The run that ends a temporary pattern is the one the observer waits
for. -/
theorem LedInv.locked (hi : LedInv rgb (s, seen)) (h : ledStep s .locked = some t) :
    LedInv rgb (t, seeLed rgb s .locked t seen) := by
  have ht : t = { s with
      led := (s.led.work s.now).1
      work := s.work.advance (.unlocked (s.led.work s.now).2) } := by
    rw [ledStep] at h
    split at h
    · exact (Option.some.inj h).symm
    · exact absurd h (by simp)
  have hkept : t.led.ready = true → t.led.Waiting → Kept t.work := by
    intro _ hwait
    rw [ht] at hwait ⊢
    exact Or.inr (nextMs_nonneg hwait)
  rw [seeLed]
  rcases Decidable.em (s.led.flashUntil ≠ 0 ∧ s.led.flashUntil ≤ s.now) with hdue | hnot
  · obtain ⟨hled, hmode, hon⟩ := work_of_due hdue.1 hdue.2
    rw [if_pos (hi.over_iff.2 hdue)]
    refine ⟨fun _ _ ↦ ?_, hkept, ?_, fun run hrun r hr ↦ ?_, hi.returned⟩
    · rw [ht, hled]
    · rw [ht, hled]
      rfl
    · obtain rfl := Option.some.inj hr
      rw [ht, running_advance, Option.some.injEq, LedPhase.unlocked.injEq] at hrun
      rw [← hrun, ht, hled]
      exact ⟨rfl, hmode, hon⟩
  · have hled := work_of_not_due hnot
    rw [if_neg fun hover ↦ hnot (hi.over_iff.1 hover)]
    refine ⟨?_, hkept, ?_, fun run hrun r hr ↦ absurd hr (by simp), hi.returned⟩
    · rw [ht, hled, ready_nextSeg, flashUntil_nextSeg, shownMode_nextSeg, baseMode_nextSeg]
      exact hi.base
    · rw [ht, hled, flashUntil_nextSeg]
      exact hi.flashEnd

theorem LedInv.write (hi : LedInv rgb (s, seen)) (h : ledStep s .write = some t) :
    LedInv rgb (t, seeLed rgb s .write t seen) := by
  rw [ledStep] at h
  split at h
  · next run hrun =>
    obtain rfl := Option.some.inj h
    have hkept : s.led.ready = true → s.led.Waiting →
        Kept (s.work.advance (.written run.nextMs)) := by
      intro hready hwait
      have hk := hi.kept hready hwait
      rw [Kept, hrun] at hk
      exact hk
    have hnot : ∀ r, (s.work.advance (.written run.nextMs)).running ≠ some (.unlocked r) := by
      simp
    rw [seeLed, hrun]
    dsimp only
    cases hret : seen.current with
    | none =>
      rw [written_of_none hret]
      exact ⟨hi.base, hkept, hi.flashEnd, fun r hr ↦ absurd hr (hnot r), hi.returned⟩
    | some ret =>
      obtain ⟨hseg, hmode, hon⟩ := hi.current run hrun ret hret
      rw [written_of_some hret]
      refine ⟨hi.base, hkept, hi.flashEnd, fun r hr ↦ absurd hr (hnot r), fun r hr ↦ ?_⟩
      obtain rfl := Option.some.inj hr
      exact ⟨hseg, by rw [hmode, hon]⟩
  · exact absurd h (by simp)

/-- A run that ends leaves its item on the queue or its timer set, if it has promised to. -/
theorem LedInv.finish (hi : LedInv rgb (s, seen)) (h : ledStep s .finish = some t) :
    LedInv rgb (t, seen) := by
  rw [ledStep] at h
  split at h
  · next nextMs hrun =>
    obtain rfl := Option.some.inj h
    refine ⟨hi.base, fun hready hwait ↦ ?_, hi.flashEnd, fun run hr ↦ ?_, hi.returned⟩
    · have hk := hi.kept hready hwait
      rw [Kept, hrun] at hk
      rw [LedSystem.finish, Kept]
      dsimp only
      rw [running_finish, queued_finish]
      split
      · exact due_reschedule
      · next hneg => exact hk.imp_right fun hle ↦ absurd hle hneg
    · rw [LedSystem.finish, running_finish] at hr
      exact absurd hr (by simp)
  · exact absurd h (by simp)

/-- The timer and the queue move a run along. -/
theorem LedInv.move (hi : LedInv rgb (s, seen)) {w : DelayableWork LedPhase} {now : ℕ}
    (hkept : Kept s.work → Kept w)
    (hrun : ∀ run, w.running = some (.unlocked run) → s.work.running = some (.unlocked run)) :
    LedInv rgb ({ s with work := w, now := now }, seen) where
  base := hi.base
  kept hready hwait := hkept (hi.kept hready hwait)
  flashEnd := hi.flashEnd
  current run h := hi.current run (hrun run h)
  returned := hi.returned

theorem LedInv.expire (hi : LedInv rgb (s, seen)) (h : ledStep s .expire = some t) :
    LedInv rgb (t, seen) := by
  rw [ledStep, Option.map_eq_some_iff] at h
  obtain ⟨w, hw, rfl⟩ := h
  obtain ⟨hq, hrun⟩ := expire_eq_some hw
  exact hi.move (fun _ ↦ Or.inl hq) fun run hr ↦ hrun ▸ hr

theorem LedInv.start (hi : LedInv rgb (s, seen)) (h : ledStep s .start = some t) :
    LedInv rgb (t, seen) := by
  rw [ledStep, Option.map_eq_some_iff] at h
  obtain ⟨w, hw, rfl⟩ := h
  have hrun := (start_eq_some hw).2.2
  refine hi.move (fun _ ↦ Or.inr ?_) fun run hr ↦ ?_
  · rw [hrun]
    trivial
  · rw [hrun] at hr
    exact absurd hr (by simp)

/-- Every step keeps the invariant. -/
theorem LedInv.step (hi : LedInv rgb p) {a : LedAction} (ha : Lasting a)
    {q : LedSystem × LedSeen} (h : ledObserved rgb p a = some q) : LedInv rgb q := by
  obtain ⟨s, seen⟩ := p
  obtain ⟨t, seen'⟩ := q
  obtain ⟨hst, hseen⟩ := observed_eq_some.1 h
  dsimp only at hst hseen
  subst hseen
  cases a with
  | setMode mode =>
    obtain rfl := Option.some.inj hst
    exact hi.setMode mode
  | flash mode ms =>
    obtain rfl := Option.some.inj hst
    exact hi.flash ha
  | init deviceReady =>
    obtain rfl := Option.some.inj hst
    exact hi.init deviceReady
  | elapse ms =>
    obtain rfl := Option.some.inj hst
    exact hi.move id fun _ ↦ id
  | expire => exact hi.expire hst
  | start => exact hi.start hst
  | locked => exact hi.locked hst
  | write => exact hi.write hst
  | finish => exact hi.finish hst

end Invariant

/-- **The status LED returns to its base pattern.** In every run whose temporary patterns last for
some time, and in every state of it: once the LED is there, it shows the base mode unless a
temporary one is active; a run is due, or will be, or is under way, while there is a temporary
pattern to end or a next segment to show; and the first run at or after the latest temporary
pattern's end wrote the first segment of the pattern that was then the base. -/
theorem statusLed_returns (rgb : Bool) (as : List LedAction)
    (h : AllSteps (ledObserved rgb) (fun _ ↦ Lasting) (.boot, .boot) as) :
    Throughout (ledObserved rgb) (LedRules rgb) (.boot, .boot) as :=
  (throughout_of_invariant (fun _ _ _ hi ha hst ↦ hi.step ha hst) ledInv_boot h).imp
    fun _ ↦ LedInv.rules

/-- A temporary pattern on a connected device whose connection is lost when it ends, between the
unlock of the run that ends it and its reschedule. -/
theorem statusLed_returns_disconnected :
    let as : List LedAction :=
      [.init true, .setMode .connected, .start, .locked, .write, .finish, .flash .identify 2000,
        .start, .locked, .write, .finish, .elapse 2000, .expire, .start, .locked,
        .setMode .disconnected, .write, .finish, .start, .locked, .write, .finish]
    AllSteps (ledObserved true) (fun _ ↦ Lasting) (.boot, .boot) as ∧
      Throughout (ledObserved true) (LedRules true) (.boot, .boot) as ∧
      (exec (ledObserved true) (.boot, .boot) as).map (fun p ↦ p.2.shown) =
        some (some (⟨.connected, 0⟩, .pixel 0 32 0)) :=
  have h : AllSteps (ledObserved true) (fun _ ↦ Lasting) (.boot, .boot) _ := by decide
  ⟨h, statusLed_returns true _ h, by decide⟩

end ThinEdge.Common
