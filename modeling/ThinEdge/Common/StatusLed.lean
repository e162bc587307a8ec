import Mathlib.Data.Int.Notation
import ThinEdge.Lib.DelayableWork

/-!
# The status LED

`lib/common/status_led.c` on a board that has the LED: the base pattern and the temporary one, and
the work item that shows a segment of the pattern and reschedules itself for the next one. What a
call or a run does under the lock is one step. A run writes to the LED and reschedules its item
after it has given the lock back, so calls may come in between; the phases of a run say how far it
is.

The kernel is `DelayableWork`, and uptime is a number of milliseconds that never goes back.
-/

namespace ThinEdge.Common

/-! ### Patterns -/

/-- `enum status_led_mode`. -/
inductive StatusLedMode
  | connected
  | disconnected
  | provisioning
  | identify
  | eraseArmed
  | off
  deriving DecidableEq, Repr

/-- `struct pattern`: a cycle of alternating on and off segments in milliseconds, starting with on.
A single segment means a constant level. -/
structure Pattern where
  seg : List UInt16
  n : ℕ
  /-- Level for a constant pattern. -/
  level : Bool
  /-- Colour when on, for an RGB LED. -/
  r : UInt8
  g : UInt8
  b : UInt8
  n_eq : n = seg.length
  n_pos : 0 < n

/-- `patterns`. -/
def patterns : StatusLedMode → Pattern
  | .connected => ⟨[1000], 1, true, 0, 32, 0, rfl, Nat.zero_lt_succ _⟩
  | .disconnected => ⟨[250, 250], 2, false, 32, 16, 0, rfl, Nat.zero_lt_succ _⟩
  | .provisioning => ⟨[100, 150, 100, 1500], 4, false, 0, 0, 40, rfl, Nat.zero_lt_succ _⟩
  | .identify => ⟨[100, 100], 2, false, 32, 32, 32, rfl, Nat.zero_lt_succ _⟩
  | .eraseArmed => ⟨[50, 50], 2, false, 40, 0, 0, rfl, Nat.zero_lt_succ _⟩
  | .off => ⟨[1000], 1, false, 0, 0, 0, rfl, Nat.zero_lt_succ _⟩

/-- Whether a pattern has the LED on in a segment. -/
def Pattern.on (p : Pattern) (segIdx : ℕ) : Bool :=
  if p.n = 1 then p.level else segIdx % 2 == 0

/-- What the LED is set to: a level, or a colour. -/
inductive LedOutput
  | pin (on : Bool)
  | pixel (r g b : UInt8)
  deriving DecidableEq, Repr

/-- `led_write`, for a plain LED or an RGB LED. -/
def ledWrite (rgb : Bool) (mode : StatusLedMode) (on : Bool) : LedOutput :=
  if rgb then
    if on then .pixel (patterns mode).r (patterns mode).g (patterns mode).b else .pixel 0 0 0
  else .pin on

/-! ### Under the lock -/

/-- The statics of `status_led.c`. -/
structure StatusLed where
  baseMode : StatusLedMode
  shownMode : StatusLedMode
  /-- Zero when there is no temporary pattern. -/
  flashUntil : ℕ
  segIdx : ℕ
  /-- Show the current pattern from its first segment. -/
  restart : Bool
  ready : Bool
  deriving DecidableEq, Repr

/-- The statics at boot. -/
def StatusLed.boot : StatusLed := ⟨.disconnected, .disconnected, 0, 0, false, false⟩

/-- The locals that a run of `led_work_fn` has when it gives the lock back. -/
structure LedRun where
  mode : StatusLedMode
  on : Bool
  nextMs : ℤ
  deriving DecidableEq, Repr

/-- A temporary pattern ends when its time is up. -/
def StatusLed.endFlash (now : ℕ) (s : StatusLed) : StatusLed :=
  if s.flashUntil ≠ 0 ∧ s.flashUntil ≤ now then
    { s with flashUntil := 0, shownMode := s.baseMode, restart := true }
  else s

/-- The segment that is shown next. -/
def StatusLed.nextSeg (s : StatusLed) : StatusLed :=
  if s.restart then { s with restart := false, segIdx := 0 }
  else if 1 < (patterns s.shownMode).n then
    { s with segIdx := (s.segIdx + 1) % (patterns s.shownMode).n }
  else s

/-- What a run shows, and after how long the next one is due; `-1` if it is not. A constant pattern
is looked at again only when it is temporary. -/
def StatusLed.run (s : StatusLed) : LedRun :=
  let p := patterns s.shownMode
  { mode := s.shownMode
    on := p.on s.segIdx
    nextMs :=
      if 1 < p.n then (p.seg.getD s.segIdx 0).toNat
      else if s.flashUntil ≠ 0 then 50
      else -1 }

/-- `led_work_fn` up to where it gives the lock back. -/
def StatusLed.work (now : ℕ) (s : StatusLed) : StatusLed × LedRun :=
  let s := (s.endFlash now).nextSeg
  (s, s.run)

/-! ### The system -/

/-- How far a run of `led_work_fn` has come. -/
inductive LedPhase
  /-- It does not have the lock yet. -/
  | entered
  /-- It has given the lock back. -/
  | unlocked (run : LedRun)
  /-- It has written to the LED. -/
  | written (nextMs : ℤ)
  deriving DecidableEq, Repr

/-- The LED with its work item. -/
structure LedSystem where
  led : StatusLed
  work : DelayableWork LedPhase
  /-- `k_uptime_get`. -/
  now : ℕ
  deriving DecidableEq, Repr

/-- The LED at boot. -/
def LedSystem.boot : LedSystem := ⟨.boot, .idle, 0⟩

/-- `show_locked`. -/
def LedSystem.showLocked (mode : StatusLedMode) (s : LedSystem) : LedSystem :=
  { s with
    led := { s.led with shownMode := mode, restart := true }
    work := s.work.reschedule s.now 0 }

/-- `status_led_set_mode`. -/
def LedSystem.setMode (mode : StatusLedMode) (s : LedSystem) : LedSystem :=
  let s := { s with led := { s.led with baseMode := mode } }
  if s.led.ready = true ∧ s.led.flashUntil = 0 ∧ mode ≠ s.led.shownMode then s.showLocked mode
  else s

/-- `status_led_flash`. -/
def LedSystem.flash (mode : StatusLedMode) (ms : UInt32) (s : LedSystem) : LedSystem :=
  if s.led.ready = true then
    LedSystem.showLocked mode { s with led := { s.led with flashUntil := s.now + ms.toNat } }
  else s

/-- `status_led_init`, given whether the device of the LED is ready. -/
def LedSystem.init (deviceReady : Bool) (s : LedSystem) : LedSystem :=
  if deviceReady then
    LedSystem.showLocked s.led.baseMode { s with led := { s.led with ready := true } }
  else s

/-- The end of `led_work_fn`. -/
def LedSystem.finish (nextMs : ℤ) (s : LedSystem) : LedSystem :=
  { s with
    work := (if 0 ≤ nextMs then s.work.reschedule s.now nextMs.toNat else s.work).finish }

/-- What happens to the LED. -/
inductive LedAction
  | setMode (mode : StatusLedMode)
  | flash (mode : StatusLedMode) (ms : UInt32)
  | init (deviceReady : Bool)
  /-- Time goes by. -/
  | elapse (ms : ℕ)
  /-- The timer of the work item. -/
  | expire
  /-- The work queue starts a run. -/
  | start
  /-- The run takes the lock and gives it back. -/
  | locked
  /-- It writes to the LED. -/
  | write
  /-- It reschedules the item and ends. -/
  | finish
  deriving DecidableEq, Repr

/-- One step. -/
def ledStep (s : LedSystem) : LedAction → Option LedSystem
  | .setMode mode => some (s.setMode mode)
  | .flash mode ms => some (s.flash mode ms)
  | .init deviceReady => some (s.init deviceReady)
  | .elapse ms => some { s with now := s.now + ms }
  | .expire => (s.work.expire s.now).map fun w ↦ { s with work := w }
  | .start => (s.work.start .entered).map fun w ↦ { s with work := w }
  | .locked =>
    match s.work.running with
    | some .entered =>
      some { s with
        led := (s.led.work s.now).1
        work := s.work.advance (.unlocked (s.led.work s.now).2) }
    | _ => none
  | .write =>
    match s.work.running with
    | some (.unlocked run) => some { s with work := s.work.advance (.written run.nextMs) }
    | _ => none
  | .finish =>
    match s.work.running with
    | some (.written nextMs) => some (s.finish nextMs)
    | _ => none

/-! ### What a run finds -/

section Work

variable {now : ℕ} {s : StatusLed}

/-- Going on to a segment changes nothing but the segment. -/
theorem nextSeg_eq : s.nextSeg = { s with restart := false, segIdx := s.nextSeg.segIdx } := by
  rw [StatusLed.nextSeg]
  split
  · rfl
  · next h =>
    rw [Bool.not_eq_true] at h
    split <;> rw [← h]

@[simp] theorem baseMode_nextSeg : s.nextSeg.baseMode = s.baseMode := by rw [nextSeg_eq]

@[simp] theorem shownMode_nextSeg : s.nextSeg.shownMode = s.shownMode := by rw [nextSeg_eq]

@[simp] theorem flashUntil_nextSeg : s.nextSeg.flashUntil = s.flashUntil := by rw [nextSeg_eq]

@[simp] theorem ready_nextSeg : s.nextSeg.ready = s.ready := by rw [nextSeg_eq]

theorem endFlash_of_due (h0 : s.flashUntil ≠ 0) (hdue : s.flashUntil ≤ now) :
    s.endFlash now = { s with flashUntil := 0, shownMode := s.baseMode, restart := true } :=
  if_pos ⟨h0, hdue⟩

theorem endFlash_of_not_due (h : ¬ (s.flashUntil ≠ 0 ∧ s.flashUntil ≤ now)) :
    s.endFlash now = s :=
  if_neg h

/-- A run at or after the end of a temporary pattern shows the base pattern from its first
segment. -/
theorem work_of_due (h0 : s.flashUntil ≠ 0) (hdue : s.flashUntil ≤ now) :
    (s.work now).1 = { s with
        flashUntil := 0, shownMode := s.baseMode, restart := false, segIdx := 0 } ∧
      (s.work now).2.mode = s.baseMode ∧ (s.work now).2.on = (patterns s.baseMode).on 0 := by
  rw [StatusLed.work, endFlash_of_due h0 hdue]
  exact ⟨rfl, rfl, rfl⟩

/-- Any other run leaves the modes and the temporary pattern as they are. -/
theorem work_of_not_due (h : ¬ (s.flashUntil ≠ 0 ∧ s.flashUntil ≤ now)) :
    (s.work now).1 = s.nextSeg := by
  rw [StatusLed.work, endFlash_of_not_due h]

end Work

end ThinEdge.Common
