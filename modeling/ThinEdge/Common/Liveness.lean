import Mathlib.Algebra.Order.Ring.Nat
import Mathlib.Logic.Function.Basic
import Mathlib.Order.Basic

/-!
# The liveness watchdog on an idle device

`app_liveness_feed` of `lib/common/liveness.c`, called by the two protocol threads of the SNMP agent
while nothing happens: the listener (`snmp_listener`, and `wait_readable` of the Modbus server,
which waits as long) only times out, and the trap watcher only sleeps. Time goes by in milliseconds
and a thread's work takes none.

Each loop reports progress once a turn, so a channel is fed no more often than its thread waits.
`fedInTime_iff` finds the configurations for which that is often enough, and
`not_fedInTime_slowSampling` one that is not: Kconfig admits sampling intervals of up to an hour
with timeouts of five seconds.
-/

namespace ThinEdge.Common

/-! ### Feeding a channel -/

/-- `enum app_ctx`. -/
inductive AppCtx
  | sysWq
  | netWq
  | proto
  | trap
  deriving DecidableEq, Repr

/-- The options that Kconfig admits. -/
structure LivenessConfig where
  /-- `CONFIG_APP_SAMPLE_INTERVAL_MS`. -/
  sampleIntervalMs : ℕ
  /-- `CONFIG_APP_LIVENESS_TIMEOUT_S`. -/
  timeoutS : ℕ
  /-- `CONFIG_APP_LIVENESS_NETWQ_TIMEOUT_S`. -/
  netwqTimeoutS : ℕ
  sampleInterval_range : 50 ≤ sampleIntervalMs ∧ sampleIntervalMs ≤ 3600000
  timeout_range : 5 ≤ timeoutS ∧ timeoutS ≤ 3600
  netwqTimeout_range : 5 ≤ netwqTimeoutS ∧ netwqTimeoutS ≤ 3600

/-- `FEED_MIN_MS`. -/
def feedMinMs : ℤ := 1000

/-- `ctx_timeout_ms`. -/
def ctxTimeoutMs (cfg : LivenessConfig) : AppCtx → ℕ
  | .netWq => cfg.netwqTimeoutS * 1000
  | .sysWq | .proto | .trap => cfg.timeoutS * 1000

/-- The channels that `task_wdt_add` gives out. The task watchdog has one for each context. -/
structure TaskWdt where
  add : AppCtx → ℤ
  add_nonneg : ∀ ctx, 0 ≤ add ctx

/-- The statics of `liveness.c`. -/
structure Liveness where
  ready : Bool
  chan : AppCtx → ℤ
  lastFeed : AppCtx → ℤ

/-- The statics once `liveness_init` has armed the watchdog. -/
def Liveness.armed : Liveness := ⟨true, fun _ ↦ -1, fun _ ↦ 0⟩

/-- A call of the task watchdog. -/
inductive WdtCall
  | add (timeout : ℕ)
  | feed (channel : ℤ)
  deriving DecidableEq, Repr

/-- `app_liveness_feed` at an uptime: the statics it leaves and its call, if it makes one. -/
def appLivenessFeed (cfg : LivenessConfig) (wdt : TaskWdt) (now : ℤ) (ctx : AppCtx)
    (l : Liveness) : Liveness × Option WdtCall :=
  if l.ready = false then (l, none)
  else if l.chan ctx < 0 then
    let chan := Function.update l.chan ctx (wdt.add ctx)
    if wdt.add ctx < 0 then
      ({ l with chan := chan, ready := false }, some (.add (ctxTimeoutMs cfg ctx)))
    else
      ({ l with chan := chan, lastFeed := Function.update l.lastFeed ctx now },
        some (.add (ctxTimeoutMs cfg ctx)))
  else if now - l.lastFeed ctx < feedMinMs then (l, none)
  else ({ l with lastFeed := Function.update l.lastFeed ctx now }, some (.feed (l.chan ctx)))

section Feed

variable {cfg : LivenessConfig} {wdt : TaskWdt} {now : ℤ} {ctx : AppCtx} {l : Liveness}

/-- The first report of a context has it watched. -/
theorem appLivenessFeed_first (hready : l.ready = true) (hchan : l.chan ctx < 0) :
    appLivenessFeed cfg wdt now ctx l =
      ({ l with
          chan := Function.update l.chan ctx (wdt.add ctx)
          lastFeed := Function.update l.lastFeed ctx now },
        some (.add (ctxTimeoutMs cfg ctx))) := by
  rw [appLivenessFeed, if_neg (by simp [hready]), if_pos hchan]
  exact if_neg (not_lt.2 (wdt.add_nonneg ctx))

/-- A report soon after the last feed is swallowed. -/
theorem appLivenessFeed_swallow (hready : l.ready = true) (hchan : 0 ≤ l.chan ctx)
    (hsoon : now - l.lastFeed ctx < feedMinMs) :
    appLivenessFeed cfg wdt now ctx l = (l, none) := by
  rw [appLivenessFeed, if_neg (by simp [hready]), if_neg (not_lt.2 hchan), if_pos hsoon]

/-- Any other feeds the channel. -/
theorem appLivenessFeed_feed (hready : l.ready = true) (hchan : 0 ≤ l.chan ctx)
    (hlate : feedMinMs ≤ now - l.lastFeed ctx) :
    appLivenessFeed cfg wdt now ctx l =
      ({ l with lastFeed := Function.update l.lastFeed ctx now }, some (.feed (l.chan ctx))) := by
  rw [appLivenessFeed, if_neg (by simp [hready]), if_neg (not_lt.2 hchan), if_neg (not_lt.2 hlate)]

/-- A report leaves the other contexts alone. -/
theorem appLivenessFeed_of_ne {c : AppCtx} (hc : c ≠ ctx) :
    (appLivenessFeed cfg wdt now ctx l).1.chan c = l.chan c ∧
      (appLivenessFeed cfg wdt now ctx l).1.lastFeed c = l.lastFeed c := by
  rw [appLivenessFeed]
  split
  · exact ⟨rfl, rfl⟩
  · split
    · dsimp only
      split
      · exact ⟨Function.update_of_ne hc _ _, rfl⟩
      · exact ⟨Function.update_of_ne hc _ _, Function.update_of_ne hc _ _⟩
    · split
      · exact ⟨rfl, rfl⟩
      · exact ⟨rfl, Function.update_of_ne hc _ _⟩

/-- The watchdog stays armed. -/
theorem ready_appLivenessFeed (hready : l.ready = true) :
    (appLivenessFeed cfg wdt now ctx l).1.ready = true := by
  rcases lt_or_ge (l.chan ctx) 0 with hchan | hchan
  · rw [appLivenessFeed_first hready hchan]
    exact hready
  · rcases lt_or_ge (now - l.lastFeed ctx) feedMinMs with hsoon | hlate
    · rw [appLivenessFeed_swallow hready hchan hsoon]
      exact hready
    · rw [appLivenessFeed_feed hready hchan hlate]
      exact hready

end Feed

/-! ### The idle device -/

/-- The threads that report progress while the device is idle. -/
inductive IdleThread
  | listener
  | trapWatcher
  deriving DecidableEq, Repr

/-- The context a thread reports for. -/
def IdleThread.ctx : IdleThread → AppCtx
  | .listener => .proto
  | .trapWatcher => .trap

/-- How long a thread waits in each turn of its loop: `PROTO_WAIT_MS` in the poll, or the sampling
interval. -/
def IdleThread.waitMs (cfg : LivenessConfig) : IdleThread → ℕ
  | .listener => 5000
  | .trapWatcher => cfg.sampleIntervalMs

/-- The idle device at a moment, before the threads due at it have run. -/
structure IdleRun where
  now : ℕ
  /-- When a thread next comes to the head of its loop. -/
  wake : IdleThread → ℕ
  liveness : Liveness
  /-- When a context's channel was last added or fed. -/
  fed : AppCtx → Option ℕ

section Idle

variable (cfg : LivenessConfig) (wdt : TaskWdt)

/-- A turn of a thread's loop, if it is due: it reports progress and waits. -/
def IdleRun.turn (d : IdleRun) (th : IdleThread) : IdleRun :=
  if d.wake th ≠ d.now then d
  else
    let (l, call) := appLivenessFeed cfg wdt d.now th.ctx d.liveness
    { d with
      wake := Function.update d.wake th (d.now + th.waitMs cfg)
      liveness := l
      fed := if call.isSome then Function.update d.fed th.ctx (some d.now) else d.fed }

/-- A millisecond. -/
def IdleRun.tick (d : IdleRun) : IdleRun :=
  let d := (d.turn cfg wdt .listener).turn cfg wdt .trapWatcher
  { d with now := d.now + 1 }

/-- The idle device after some milliseconds, when its threads start at given times. -/
def idleAt (start : IdleThread → ℕ) : ℕ → IdleRun
  | 0 => ⟨0, start, .armed, fun _ ↦ none⟩
  | t + 1 => (idleAt start t).tick cfg wdt

/-- **Every watched channel is fed in time**: less than its timeout has gone by since it was last
fed. A thread due at this moment has not run yet, so that the time up to its feed counts. -/
def FedInTime (d : IdleRun) : Prop :=
  ∀ th : IdleThread, ∀ fed ∈ d.fed th.ctx, d.now - fed < ctxTimeoutMs cfg th.ctx

end Idle

theorem IdleThread.ctx_injective {th th' : IdleThread} (h : th.ctx = th'.ctx) : th = th' := by
  revert h
  cases th <;> cases th' <;> decide

/-! ### Turns -/

/-- Two moments are the same for a thread: when it is due, and what its channel has seen. -/
structure SameFor (th : IdleThread) (d d' : IdleRun) : Prop where
  wake : d'.wake th = d.wake th
  chan : d'.liveness.chan th.ctx = d.liveness.chan th.ctx
  lastFeed : d'.liveness.lastFeed th.ctx = d.liveness.lastFeed th.ctx
  fed : d'.fed th.ctx = d.fed th.ctx

theorem SameFor.refl (th : IdleThread) (d : IdleRun) : SameFor th d d := ⟨rfl, rfl, rfl, rfl⟩

theorem SameFor.trans {th : IdleThread} {d d' d'' : IdleRun} (h : SameFor th d d')
    (h' : SameFor th d' d'') : SameFor th d d'' :=
  ⟨h'.wake.trans h.wake, h'.chan.trans h.chan, h'.lastFeed.trans h.lastFeed, h'.fed.trans h.fed⟩

section Turn

variable {cfg : LivenessConfig} {wdt : TaskWdt} {d : IdleRun} {th th' : IdleThread}

theorem turn_of_not_due (h : d.wake th ≠ d.now) : d.turn cfg wdt th = d := if_pos h

theorem turn_of_due (h : d.wake th = d.now) : d.turn cfg wdt th =
    { d with
      wake := Function.update d.wake th (d.now + th.waitMs cfg)
      liveness := (appLivenessFeed cfg wdt d.now th.ctx d.liveness).1
      fed :=
        if (appLivenessFeed cfg wdt d.now th.ctx d.liveness).2.isSome then
          Function.update d.fed th.ctx (some d.now)
        else d.fed } :=
  if_neg (not_not.2 h)

theorem now_turn : (d.turn cfg wdt th).now = d.now := by
  rw [IdleRun.turn]
  split <;> rfl

theorem ready_turn (h : d.liveness.ready = true) : (d.turn cfg wdt th).liveness.ready = true := by
  by_cases hdue : d.wake th = d.now
  · rw [turn_of_due hdue]
    exact ready_appLivenessFeed h
  · rwa [turn_of_not_due hdue]

/-- A thread whose report has its channel added or fed. -/
theorem turn_fed (hready : d.liveness.ready = true) (hdue : d.wake th = d.now)
    (h : d.liveness.chan th.ctx < 0 ∨ feedMinMs ≤ d.now - d.liveness.lastFeed th.ctx) :
    0 ≤ (d.turn cfg wdt th).liveness.chan th.ctx ∧
      (d.turn cfg wdt th).liveness.lastFeed th.ctx = d.now ∧
        (d.turn cfg wdt th).fed th.ctx = some d.now ∧
          (d.turn cfg wdt th).wake th = d.now + th.waitMs cfg := by
  rw [turn_of_due hdue]
  rcases lt_or_ge (d.liveness.chan th.ctx) 0 with hchan | hchan
  · rw [appLivenessFeed_first hready hchan]
    refine ⟨?_, Function.update_self _ _ _, Function.update_self _ _ _, Function.update_self _ _ _⟩
    show 0 ≤ Function.update d.liveness.chan th.ctx (wdt.add th.ctx) th.ctx
    rw [Function.update_self]
    exact wdt.add_nonneg _
  · rw [appLivenessFeed_feed hready hchan (h.resolve_left (not_lt.2 hchan))]
    exact ⟨hchan, Function.update_self _ _ _, Function.update_self _ _ _,
      Function.update_self _ _ _⟩

/-- A thread whose report is swallowed only waits on. -/
theorem turn_swallowed (hready : d.liveness.ready = true) (hdue : d.wake th = d.now)
    (hchan : 0 ≤ d.liveness.chan th.ctx)
    (hsoon : d.now - d.liveness.lastFeed th.ctx < feedMinMs) :
    (d.turn cfg wdt th).wake th = d.now + th.waitMs cfg ∧
      (d.turn cfg wdt th).liveness = d.liveness ∧ (d.turn cfg wdt th).fed = d.fed := by
  rw [turn_of_due hdue, appLivenessFeed_swallow hready hchan hsoon]
  exact ⟨Function.update_self _ _ _, rfl, rfl⟩

/-- A turn of one thread is nothing to the other. -/
theorem sameFor_turn (hne : th ≠ th') : SameFor th d (d.turn cfg wdt th') := by
  by_cases hdue : d.wake th' = d.now
  · have hctx : th.ctx ≠ th'.ctx := fun h ↦ hne (IdleThread.ctx_injective h)
    obtain ⟨hchan, hlast⟩ := @appLivenessFeed_of_ne cfg wdt d.now th'.ctx d.liveness th.ctx hctx
    rw [turn_of_due hdue]
    refine ⟨Function.update_of_ne hne _ _, hchan, hlast, ?_⟩
    dsimp only
    split
    · exact Function.update_of_ne hctx _ _
    · rfl
  · rw [turn_of_not_due hdue]
    exact SameFor.refl th d

/-- A millisecond in which a thread is not due is nothing to it. -/
theorem sameFor_tick (h : d.wake th ≠ d.now) : SameFor th d (d.tick cfg wdt) := by
  have hturns : SameFor th d ((d.turn cfg wdt .listener).turn cfg wdt .trapWatcher) := by
    cases th with
    | listener =>
      rw [turn_of_not_due h]
      exact sameFor_turn IdleThread.noConfusion
    | trapWatcher =>
      have hl : SameFor .trapWatcher d (d.turn cfg wdt .listener) :=
        sameFor_turn IdleThread.noConfusion
      rwa [turn_of_not_due (by rwa [hl.wake, now_turn])]
  exact ⟨hturns.wake, hturns.chan, hturns.lastFeed, hturns.fed⟩

end Turn

/-! ### What a channel has seen -/

/-- What has become of a thread by a moment. Either it has not started, or its channel was last
added or fed at `fed`, and it has gone through `n` turns since that were swallowed. -/
structure Phase (cfg : LivenessConfig) (start : IdleThread → ℕ) (th : IdleThread) (t : ℕ)
    (d : IdleRun) : Prop where
  ready : d.liveness.ready = true
  le_wake : t ≤ d.wake th
  seen : (d.liveness.chan th.ctx < 0 ∧ d.fed th.ctx = none ∧ d.wake th = start th) ∨
    ∃ fed n : ℕ, 0 ≤ d.liveness.chan th.ctx ∧ d.liveness.lastFeed th.ctx = fed ∧
      d.fed th.ctx = some fed ∧ d.wake th = fed + (n + 1) * th.waitMs cfg ∧
        n * th.waitMs cfg < 1000 ∧ start th ≤ fed ∧ fed < t

section Phase

variable {cfg : LivenessConfig} {wdt : TaskWdt} {start : IdleThread → ℕ} {th th' : IdleThread}
  {t : ℕ} {d d' : IdleRun}

theorem waitMs_pos : 0 < th.waitMs cfg := by
  cases th with
  | listener => exact Nat.succ_pos 4999
  | trapWatcher => exact lt_of_lt_of_le (Nat.succ_pos 49) cfg.sampleInterval_range.1

theorem Phase.congr (h : Phase cfg start th t d) (hready : d'.liveness.ready = true)
    (hsame : SameFor th d d') : Phase cfg start th t d' where
  ready := hready
  le_wake := hsame.wake ▸ h.le_wake
  seen := by
    rw [hsame.wake, hsame.chan, hsame.lastFeed, hsame.fed]
    exact h.seen

/-- A turn of the thread itself. -/
theorem Phase.turn (h : Phase cfg start th t d) (hnow : d.now = t) :
    Phase cfg start th (t + 1) (d.turn cfg wdt th) := by
  have hpos := @waitMs_pos cfg th
  have hready : (d.turn cfg wdt th).liveness.ready = true := ready_turn h.ready
  have hwake := h.le_wake
  subst hnow
  by_cases hdue : d.wake th = d.now
  · -- after a feed the count of swallowed turns starts anew
    have hfed : start th ≤ d.now →
        d.liveness.chan th.ctx < 0 ∨ feedMinMs ≤ d.now - d.liveness.lastFeed th.ctx →
          Phase cfg start th (d.now + 1) (d.turn cfg wdt th) := by
      intro hs hcase
      obtain ⟨hchan', hlast', hfed', hwake'⟩ := @turn_fed cfg wdt d th h.ready hdue hcase
      refine ⟨hready, by omega, Or.inr ⟨d.now, 0, hchan', hlast', hfed', ?_, ?_, hs, ?_⟩⟩
      · rw [hwake', Nat.zero_add, Nat.one_mul]
      · rw [Nat.zero_mul]
        decide
      · exact Nat.lt_succ_self d.now
    rcases h.seen with ⟨hchan, -, hfirst⟩ | ⟨fed, n, hchan, hlast, hlastFed, hnext, hn, hs, hlt⟩
    · exact hfed (hfirst.symm.trans hdue).le (Or.inl hchan)
    · rcases lt_or_ge ((d.now : ℤ) - d.liveness.lastFeed th.ctx) feedMinMs with hsoon | hlate
      · have hnow : d.now = fed + (n + 1) * th.waitMs cfg := hdue.symm.trans hnext
        obtain ⟨hwake', hliveness, hfed'⟩ := @turn_swallowed cfg wdt d th h.ready hdue hchan hsoon
        refine ⟨hready, by omega, ?_⟩
        rw [hwake', hliveness, hfed']
        refine Or.inr ⟨fed, n + 1, hchan, hlast, hlastFed, ?_, ?_, hs, by omega⟩
        · rw [hnow, Nat.succ_mul (n + 1), Nat.add_assoc]
        · rw [hlast, feedMinMs] at hsoon
          omega
      · exact hfed (by omega) (Or.inr hlate)
  · rw [turn_of_not_due hdue]
    refine ⟨h.ready, by omega, h.seen.imp id ?_⟩
    rintro ⟨fed, n, hchan, hlast, hlastFed, hnext, hn, hs, hlt⟩
    exact ⟨fed, n, hchan, hlast, hlastFed, hnext, hn, hs, by omega⟩

/-- A millisecond. -/
theorem Phase.tick (h : Phase cfg start th t d) (hnow : d.now = t) :
    Phase cfg start th (t + 1) (d.tick cfg wdt) := by
  have hturns : Phase cfg start th (t + 1)
      ((d.turn cfg wdt .listener).turn cfg wdt .trapWatcher) := by
    cases th with
    | listener =>
      have hl : Phase cfg start .listener (t + 1) (d.turn cfg wdt .listener) := h.turn hnow
      exact hl.congr (ready_turn hl.ready) (sameFor_turn IdleThread.noConfusion)
    | trapWatcher =>
      have hl : Phase cfg start .trapWatcher t (d.turn cfg wdt .listener) :=
        h.congr (ready_turn h.ready) (sameFor_turn IdleThread.noConfusion)
      exact hl.turn (now_turn.trans hnow)
  exact hturns.congr hturns.ready ⟨rfl, rfl, rfl, rfl⟩

theorem now_idleAt : (idleAt cfg wdt start t).now = t := by
  induction t with
  | zero => rfl
  | succ t ih =>
    show ((IdleRun.turn _ _ (IdleRun.turn _ _ (idleAt cfg wdt start t) _) _).now) + 1 = t + 1
    rw [now_turn, now_turn, ih]

/-- **Every moment of the run**, for each thread. -/
theorem phase_idleAt (th : IdleThread) (t : ℕ) :
    Phase cfg start th t (idleAt cfg wdt start t) := by
  induction t with
  | zero =>
    exact ⟨rfl, Nat.zero_le _, Or.inl ⟨Int.negSucc_lt_zero 0, rfl, rfl⟩⟩
  | succ t ih => exact ih.tick now_idleAt

/-- A thread that waits sees nothing until it is due. -/
theorem sameFor_idleAt {u : ℕ} (htu : t ≤ u) (hu : u ≤ (idleAt cfg wdt start t).wake th) :
    SameFor th (idleAt cfg wdt start t) (idleAt cfg wdt start u) := by
  -- on the milliseconds of the wait
  induction u, htu using Nat.le_induction with
  | base => exact SameFor.refl _ _
  | succ u htu ih =>
    have hsame := ih (Nat.le_of_succ_le hu)
    refine hsame.trans (sameFor_tick ?_)
    rw [hsame.wake, now_idleAt]
    omega

/-! ### When the channels are fed in time -/

/-- A thread that waits less than its timeout in each turn has its channel fed in time: the turns
that are swallowed last a second at most, and another wait follows. -/
theorem age_lt (hwait : th.waitMs cfg < ctxTimeoutMs cfg th.ctx) {fed : ℕ}
    (hfed : (idleAt cfg wdt start t).fed th.ctx = some fed) :
    t - fed < ctxTimeoutMs cfg th.ctx := by
  have hT : 5000 ≤ ctxTimeoutMs cfg th.ctx := by
    have := cfg.timeout_range.1
    cases th <;> show 5000 ≤ cfg.timeoutS * 1000 <;> omega
  have hphase := @phase_idleAt cfg wdt start th t
  have hwake := hphase.le_wake
  rcases hphase.seen with ⟨-, hnone, -⟩ | ⟨fed', n, -, -, hfed', hnext, hn, -, -⟩
  · rw [hnone] at hfed
    cases hfed
  · rw [hfed, Option.some.injEq] at hfed'
    rw [← hfed', Nat.succ_mul] at hnext
    rcases Nat.eq_zero_or_pos n with rfl | hpos
    · rw [Nat.zero_mul, Nat.zero_add] at hnext
      omega
    · have hle : th.waitMs cfg ≤ n * th.waitMs cfg := Nat.le_mul_of_pos_left _ hpos
      omega

/-- A thread that waits for a second or longer is fed once in its first wait, at its start. -/
theorem fed_at_first_wait (hwait : 1000 ≤ th.waitMs cfg) :
    (idleAt cfg wdt start (start th + th.waitMs cfg)).fed th.ctx = some (start th) := by
  have hpos := @waitMs_pos cfg th
  have hphase := @phase_idleAt cfg wdt start th (start th + 1)
  have hlate := hphase.le_wake
  rcases hphase.seen with ⟨-, -, hfirst⟩ | ⟨fed, n, -, -, hfed, hnext, hn, hs, hlt⟩
  · omega
  · have hstart : fed = start th := by omega
    -- no report is swallowed: the first wait alone outlasts the limit
    have hzero : n = 0 := by
      by_contra hne
      have hle : th.waitMs cfg ≤ n * th.waitMs cfg :=
        Nat.le_mul_of_pos_left _ (Nat.pos_of_ne_zero hne)
      omega
    rw [hzero, Nat.zero_add, Nat.one_mul, hstart] at hnext
    have hsame := @sameFor_idleAt cfg wdt start th (start th + 1) (start th + th.waitMs cfg)
      (by omega) hnext.ge
    rw [hsame.fed, hfed, hstart]

/-- A thread that waits as long as its timeout is not fed in time. -/
theorem exists_not_fedInTime (hwait : ctxTimeoutMs cfg th.ctx ≤ th.waitMs cfg) :
    ∃ t, ¬ FedInTime cfg (idleAt cfg wdt start t) := by
  have hT : 1000 ≤ ctxTimeoutMs cfg th.ctx := by
    have := cfg.timeout_range.1
    cases th <;> show 1000 ≤ cfg.timeoutS * 1000 <;> omega
  refine ⟨start th + th.waitMs cfg, fun hall ↦ ?_⟩
  have hage := hall th _ (fed_at_first_wait (hT.trans hwait))
  rw [now_idleAt, Nat.add_sub_cancel_left] at hage
  exact absurd hwait (not_le.2 hage)

/-- The channels are fed in time exactly when each thread waits less than its timeout. -/
theorem fedInTime_iff_wait : (∀ t, FedInTime cfg (idleAt cfg wdt start t)) ↔
    ∀ th : IdleThread, th.waitMs cfg < ctxTimeoutMs cfg th.ctx := by
  refine ⟨fun h th ↦ ?_, fun h t th fed hfed ↦ ?_⟩
  · by_contra hwait
    obtain ⟨t, hbad⟩ := @exists_not_fedInTime cfg wdt start th (not_lt.1 hwait)
    exact hbad (h t)
  · rw [now_idleAt]
    exact age_lt (h th) hfed

/-- **Which configurations keep an idle device alive**: a timeout above the five seconds of the
listener's poll, and above the sampling interval. -/
theorem fedInTime_iff : (∀ t, FedInTime cfg (idleAt cfg wdt start t)) ↔
    5 < cfg.timeoutS ∧ cfg.sampleIntervalMs < cfg.timeoutS * 1000 := by
  rw [fedInTime_iff_wait]
  constructor
  · intro h
    have hlistener : 5000 < cfg.timeoutS * 1000 := h .listener
    exact ⟨by omega, h .trapWatcher⟩
  · rintro ⟨htimeout, hinterval⟩ th
    cases th with
    | listener =>
      show 5000 < cfg.timeoutS * 1000
      omega
    | trapWatcher => exact hinterval

end Phase

/-- Sampling once a minute, with the default timeout. -/
def slowSampling : LivenessConfig where
  sampleIntervalMs := 60000
  timeoutS := 30
  netwqTimeoutS := 120
  sampleInterval_range := by decide
  timeout_range := by decide
  netwqTimeout_range := by decide

/-- A task watchdog that numbers its channels. -/
def fourChannels : TaskWdt where
  add
    | .sysWq => 0
    | .netWq => 1
    | .proto => 2
    | .trap => 3
  add_nonneg ctx := by cases ctx <;> decide

/-- **A device that is reset for sleeping**: with an admitted sampling interval of a minute, the
trap watcher's channel expires in its first sleep. -/
theorem not_fedInTime_slowSampling :
    ¬ ∀ t, FedInTime slowSampling (idleAt slowSampling fourChannels (fun _ ↦ 0) t) := by
  intro h
  have hwait : ctxTimeoutMs slowSampling IdleThread.trapWatcher.ctx ≤
      IdleThread.trapWatcher.waitMs slowSampling := by decide
  obtain ⟨t, hbad⟩ := exists_not_fedInTime hwait
  exact hbad (h t)

end ThinEdge.Common
