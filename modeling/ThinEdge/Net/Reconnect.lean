import ThinEdge.Lib.WorkQueue
import ThinEdge.Net.Outage

/-!
# Reconnecting

The connectivity work queue of `lib/common/net.c`: `status_work_handler` with the watchdog every
three seconds, `reconnect_handler`, and the event handlers that ask for it. Events come at any
time, also while a handler is in the Wi-Fi driver, and whoever asks for a reconnect replaces the
time at which another has asked for it. A reconnect after an event is put off by the next event, for
as long as events keep coming.

`keepsTrying_throughout`: no request for a reconnect is lost, the watchdog is always due, and it
never finds the device offline three times in a row without an attempt to connect in between or an
event that says it is connected. The last rests on the order of the queue: the watchdog asks without
a delay every second time, and what it asks for runs before it runs again.
-/

namespace ThinEdge.Net

open Transition TryCredentials

/-- The items of `net_wq`. -/
inductive NetWork
  | status
  | reconnect
  deriving DecidableEq, Repr

theorem NetWork.status_ne : NetWork.status ≠ .reconnect := nofun

/-- Where the thread of the work queue stands. -/
inductive NetPc
  | idle
  /-- `status_work_handler` is about to run the watchdog. -/
  | watchdog
  /-- `status_work_handler` is about to end. -/
  | statusEnd
  /-- `reconnect_handler` is about to look at the state. -/
  | reconnect
  /-- `reconnect_handler` is in `wifi_connect`. -/
  | connecting
  deriving DecidableEq, Repr

/-- The connectivity state with its work queue, and the uptime in ms. -/
structure NetState where
  watchdog : Watchdog
  ipv4 : UInt32
  wq : WorkQueue NetWork
  pc : NetPc
  now : ℕ
  /-- How often the watchdog has found the device offline since it has last tried to connect, or was
  said to be connected. -/
  missed : ℕ
  /-- Somebody has asked for a reconnect since `reconnect_handler` last began. -/
  asked : Bool

/-- What happens to the device. -/
inductive NetAction
  /-- Time passes. -/
  | tick (ms : ℕ)
  /-- The timer of an item is due. -/
  | expire (i : NetWork)
  /-- The thread takes the next item. -/
  | start
  | watchdog (iface : Bool)
  | statusEnd
  | reconnect
  /-- `wifi_connect` returns. -/
  | connectReturns (rc : ℤ)
  /-- `l4_event_handler` or `wifi_event_handler`. -/
  | event (e : MgmtEvent)
  | address (ipv4 : UInt32)
  | pingReply
  deriving DecidableEq, Repr

/-- Ask for `reconnect_work`. -/
def NetState.askReconnect (s : NetState) (delay : ℕ) : NetState :=
  { s with wq := s.wq.reschedule s.now delay .reconnect, asked := true }

/-- `app_net_init`, which ends with a first attempt to connect. -/
def NetState.boot (now : ℕ) : NetState where
  watchdog := .boot
  ipv4 := 0
  wq := WorkQueue.idle.reschedule now 3000 .status
  pc := .idle
  now := now
  missed := 0
  asked := false

/-- An event asks for a reconnect. -/
def asksReconnect : MgmtEvent → Bool
  | .l4Connected => false
  | .l4Disconnected | .disconnectResult => true
  | .connectResult status => status ≠ 0

/-- `status_work_handler` after `connectivity_watchdog`, which leaves `w`, has found the device
healthy or not, and has made `calls`. -/
def NetState.afterWatchdog (s : NetState) :
    Watchdog × Bool × List WatchdogCall → NetState := fun (w, healthy, calls) ↦
  if .sysReboot ∈ calls then .boot s.now
  else
    let s := { s with
      watchdog := w, pc := .statusEnd, missed := if healthy then 0 else s.missed + 1 }
    if .reconnect ∈ calls then s.askReconnect 0 else s

/-- The device is said to be connected, which ends the count. -/
def NetState.missedAfter (s : NetState) : MgmtEvent → ℕ
  | .l4Connected => 0
  | .l4Disconnected | .disconnectResult | .connectResult _ => s.missed

/-- One step; `none` when it cannot be taken. -/
def netStep (cfg : WatchdogConfig) (s : NetState) : NetAction → Option NetState
  | .tick ms => some { s with now := s.now + ms }
  | .expire i => (s.wq.expire s.now i).map fun wq ↦ { s with wq }
  | .start =>
    match s.wq.start with
    | some (.status, wq) => some { s with wq, pc := .watchdog }
    | some (.reconnect, wq) => some { s with wq, pc := .reconnect, asked := false }
    | none => none
  | .watchdog iface =>
    if s.pc = .watchdog then
      some (s.afterWatchdog (connectivityWatchdog cfg iface s.ipv4 s.watchdog))
    else none
  | .statusEnd =>
    if s.pc = .statusEnd then
      some { s with wq := (s.wq.reschedule s.now 3000 .status).finish, pc := .idle }
    else none
  | .reconnect =>
    if s.pc = .reconnect then
      some (if s.watchdog.connected || cfg.provMode then
        { s with wq := s.wq.finish, pc := .idle }
        else { s with pc := .connecting, missed := 0 })
    else none
  | .connectReturns rc =>
    if s.pc = .connecting then
      let s := if rc ≠ 0 then s.askReconnect 2000 else s
      some { s with wq := s.wq.finish, pc := .idle }
    else none
  | .event e =>
    let s := { s with watchdog := s.watchdog.onEvent e, missed := s.missedAfter e }
    some (if asksReconnect e && !cfg.provMode then s.askReconnect 2000 else s)
  | .address ipv4 => some { s with ipv4 := ipv4 }
  | .pingReply => some { s with watchdog := { s.watchdog with pingOk := s.watchdog.pingOk + 1 } }

/-- The device does not give up. -/
structure KeepsTrying (s : NetState) : Prop where
  missed_le : s.missed ≤ 2
  /-- No request for a reconnect is lost. -/
  asked : s.asked = true → s.wq.Due .reconnect
  /-- The watchdog runs or is going to. -/
  watches : s.wq.running = some .status ∨ s.wq.Due .status

/-! ### The invariant -/

/-- The item that the thread is running. -/
def NetPc.item : NetPc → Option NetWork
  | .idle => none
  | .watchdog | .statusEnd => some .status
  | .reconnect | .connecting => some .reconnect

/-- `reconnect_handler` is going to look at the state before the watchdog runs again. -/
def NetState.Nudged (s : NetState) : Prop :=
  s.pc = .reconnect ∨ WorkQueue.Ahead .reconnect .status s.wq.queue ∧ s.pc ≠ .watchdog

/-- The watchdog counts an odd number of bad ticks. -/
def Watchdog.Odd (w : Watchdog) : Prop := w.badTicks % wdTriggerTicks = 1

structure NetInv (s : NetState) : Prop where
  nodup : s.wq.queue.Nodup
  running : s.wq.running = s.pc.item
  /-- The status item is on the queue, or its timer is set, or it runs: only one of these. -/
  runs : s.pc.item = some .status → .status ∉ s.wq.queue ∧ s.wq.timer .status = none
  waits : .status ∈ s.wq.queue → s.wq.timer .status = none
  asked : s.asked = true → s.wq.Due .reconnect
  watches : s.wq.running = some .status ∨ s.wq.Due .status
  connected : s.watchdog.connected = true → s.missed = 0
  connecting : s.pc = .connecting → s.missed = 0
  count : s.missed = 0 ∨ s.missed = 1 ∧ s.watchdog.Odd ∨ s.missed ≤ 2 ∧ s.Nudged

variable {cfg : WatchdogConfig} {s t : NetState} {a : NetAction}

theorem NetInv.keepsTrying (h : NetInv s) : KeepsTrying s := by
  refine ⟨?_, h.asked, h.watches⟩
  rcases h.count with hzero | ⟨hone, -⟩ | ⟨hle, -⟩
  · omega
  · omega
  · exact hle

theorem NetInv.boot (now : ℕ) : NetInv (.boot now) where
  nodup := WorkQueue.nodup_reschedule List.nodup_nil
  running := WorkQueue.running_reschedule
  runs := nofun
  waits := fun hmem ↦ absurd hmem List.not_mem_nil
  asked := nofun
  watches := Or.inr WorkQueue.due_reschedule
  connected := nofun
  connecting := nofun
  count := Or.inl rfl

/-- Asking for a reconnect, when nothing else changes. -/
theorem NetInv.askReconnect (h : NetInv s) (delay : ℕ) : NetInv (s.askReconnect delay) where
  nodup := WorkQueue.nodup_reschedule h.nodup
  running := WorkQueue.running_reschedule.trans h.running
  runs := fun hpc ↦ by
    obtain ⟨hmem, htimer⟩ := h.runs hpc
    exact ⟨mt (WorkQueue.mem_reschedule NetWork.status_ne).1 hmem,
      (WorkQueue.timer_reschedule_of_ne NetWork.status_ne).trans htimer⟩
  waits := fun hmem ↦ (WorkQueue.timer_reschedule_of_ne NetWork.status_ne).trans
    (h.waits ((WorkQueue.mem_reschedule NetWork.status_ne).1 hmem))
  asked := fun _ ↦ WorkQueue.due_reschedule
  watches := h.watches.imp WorkQueue.running_reschedule.trans WorkQueue.Due.reschedule
  connected := h.connected
  connecting := h.connecting
  count := h.count.imp id <| Or.imp id <| And.imp id <| Or.imp id <| And.imp
    (fun hahead ↦ hahead.prefix WorkQueue.prefix_reschedule) id

/-- A handler of `reconnect_work` ends. -/
theorem NetInv.finish (h : NetInv s) (hpc : s.pc.item = some .reconnect)
    (hcount : s.missed = 0 ∨ s.missed = 1 ∧ s.watchdog.Odd) :
    NetInv { s with wq := s.wq.finish, pc := .idle } where
  nodup := h.nodup
  running := rfl
  runs := nofun
  waits := h.waits
  asked := h.asked
  watches := Or.inr (h.watches.resolve_left fun hrun ↦ by
    rw [h.running, hpc] at hrun
    exact nomatch hrun)
  connected := h.connected
  connecting := nofun
  count := hcount.imp id Or.inl

/-! ### The steps -/

theorem NetInv.expire (h : NetInv s) {i : NetWork} (hst : netStep cfg s (.expire i) = some t) :
    NetInv t := by
  obtain ⟨wq, hwq, rfl⟩ := Option.map_eq_some_iff.1 hst
  have hset : s.wq.timer i ≠ none := fun hnone ↦ by
    rw [WorkQueue.expire, hnone] at hwq
    cases hwq
  have hwatches := h.watches
  obtain rfl := WorkQueue.expire_eq_some hwq
  refine
    { nodup := WorkQueue.nodup_submit h.nodup
      running := WorkQueue.running_submit.trans h.running
      runs := fun hpc ↦ ?_
      waits := fun hmem ↦ ?_
      asked := fun hasked ↦ (h.asked hasked).expire hwq
      watches := hwatches.imp WorkQueue.running_submit.trans fun hdue ↦ hdue.expire hwq
      connected := h.connected
      connecting := h.connecting
      count := h.count.imp id <| Or.imp id <| And.imp id <| Or.imp id <| And.imp
        (fun hahead ↦ hahead.prefix (WorkQueue.prefix_submit (q := s.wq.setTimer i none))) id }
  · obtain ⟨hmem, htimer⟩ := h.runs hpc
    rcases i with - | -
    · exact absurd htimer hset
    · refine ⟨fun hsub ↦ hmem ((WorkQueue.mem_submit.1 hsub).resolve_right NetWork.status_ne), ?_⟩
      rw [WorkQueue.timer_submit, WorkQueue.timer_setTimer_of_ne NetWork.status_ne]
      exact htimer
  · rw [WorkQueue.timer_submit]
    rcases i with - | -
    · exact WorkQueue.timer_setTimer_self
    · rw [WorkQueue.timer_setTimer_of_ne NetWork.status_ne]
      exact h.waits ((WorkQueue.mem_submit.1 hmem).resolve_right NetWork.status_ne)

theorem NetInv.start (h : NetInv s) (hst : netStep cfg s .start = some t) : NetInv t := by
  simp only [netStep] at hst
  split at hst
  · -- the status item: nothing was ahead of it that still has to run
    next wq hwq =>
    obtain rfl := Option.some.inj hst
    obtain ⟨hrun, rest, hq, rfl⟩ := WorkQueue.start_eq_some hwq
    have hnodup := h.nodup
    rw [hq, List.nodup_cons] at hnodup
    have htimer := h.waits (hq ▸ List.mem_cons_self)
    refine
      { nodup := hnodup.2
        running := rfl
        runs := fun _ ↦ ⟨hnodup.1, htimer⟩
        waits := fun _ ↦ htimer
        asked := fun hasked ↦ (h.asked hasked).start hwq nofun
        watches := Or.inl rfl
        connected := h.connected
        connecting := nofun
        count := ?_ }
    rcases h.count with hzero | hodd | ⟨-, hpc | ⟨hahead, -⟩⟩
    · exact Or.inl hzero
    · exact Or.inr (Or.inl hodd)
    · rw [h.running, hpc] at hrun
      exact nomatch hrun
    · rw [hq] at hahead
      rcases hahead.tail with heq | ⟨hne, -⟩
      · exact nomatch heq
      · exact absurd rfl hne
  · next wq hwq =>
    obtain rfl := Option.some.inj hst
    obtain ⟨hrun, rest, hq, rfl⟩ := WorkQueue.start_eq_some hwq
    have hnodup := h.nodup
    rw [hq, List.nodup_cons] at hnodup
    exact
      { nodup := hnodup.2
        running := rfl
        runs := nofun
        waits := fun hmem ↦ h.waits (hq ▸ List.mem_cons_of_mem _ hmem)
        asked := nofun
        watches := Or.inr ((h.watches.resolve_left fun hstat ↦ nomatch hrun.symm.trans hstat).start
          hwq nofun)
        connected := h.connected
        connecting := nofun
        count := h.count.imp id <| Or.imp id fun hle ↦ ⟨hle.1, Or.inl rfl⟩ }
  · exact nomatch hst

/-- When the watchdog asks for a reconnect. -/
theorem reconnect_mem_escalate {iface : Bool} {w : Watchdog} :
    .reconnect ∈ (escalate cfg iface w).2 ↔ (w.badTicks + 1) % wdTriggerTicks = 0 := by
  rw [escalate_eq, List.mem_append, List.mem_append]
  constructor
  · rintro ((hmem | hmem) | hmem)
    · split at hmem
      · cases List.mem_singleton.1 hmem
      · cases hmem
    · split at hmem
      · next heven => exact heven
      · cases hmem
    · split at hmem
      · cases hmem
      · split at hmem
        · cases List.mem_singleton.1 hmem
        · cases hmem
  · intro heven
    rw [if_pos heven]
    exact Or.inl (Or.inr (List.mem_append_right _ (List.mem_singleton.2 rfl)))

theorem badTicks_succ (w : Watchdog) :
    (w.badTicks + 1) % wdTriggerTicks = 0 ↔ w.Odd := by
  rw [Watchdog.Odd, ← UInt32.toNat_inj, ← UInt32.toNat_inj, UInt32.toNat_mod, UInt32.toNat_mod,
    UInt32.toNat_add]
  have hlt := w.badTicks.toNat_lt
  simp only [wdTriggerTicks, UInt32.reduceToNat]
  omega

theorem odd_succ {w w' : Watchdog} (h : w'.badTicks = w.badTicks + 1) (hodd : ¬ w.Odd) :
    w'.Odd := by
  rw [Watchdog.Odd, ← UInt32.toNat_inj, UInt32.toNat_mod] at hodd ⊢
  rw [h, UInt32.toNat_add]
  have hlt := w.badTicks.toNat_lt
  simp only [wdTriggerTicks, UInt32.reduceToNat] at hodd ⊢
  omega

/-- The watchdog has run: the state it leaves, before a reconnect is asked for. -/
theorem NetInv.ofWatchdog (h : NetInv s) (hpc : s.pc = .watchdog) {w : Watchdog} {missed : ℕ}
    (hconn : w.connected = true → missed = 0) (hcount : missed = 0 ∨ missed = 1 ∧ w.Odd) :
    NetInv { s with watchdog := w, pc := .statusEnd, missed } where
  nodup := h.nodup
  running := h.running.trans (by rw [hpc]; rfl)
  runs := fun _ ↦ h.runs (by rw [hpc]; rfl)
  waits := h.waits
  asked := h.asked
  watches := h.watches
  connected := hconn
  connecting := nofun
  count := hcount.imp id Or.inl

theorem NetInv.watchdog (hprov : cfg.provMode = false) (h : NetInv s) {iface : Bool}
    (hst : netStep cfg s (.watchdog iface) = some t) : NetInv t := by
  obtain ⟨hpc, hst⟩ := Option.ite_none_right_eq_some.1 hst
  obtain rfl := Option.some.inj hst
  -- no reconnect is outstanding from the tick before
  have hcount : s.missed = 0 ∨ s.missed = 1 ∧ s.watchdog.Odd := by
    rcases h.count with hzero | hodd | ⟨-, hpc' | ⟨-, hne⟩⟩
    · exact Or.inl hzero
    · exact Or.inr hodd
    · cases hpc.symm.trans hpc'
    · exact absurd hpc hne
  rcases hhealthy : (connectivityWatchdog cfg iface s.ipv4 s.watchdog).2.1 with - | -
  · obtain ⟨w, hticks, heq⟩ := connectivityWatchdog_of_unhealthy hhealthy
    rw [heq, NetState.afterWatchdog]
    split
    · exact NetInv.boot s.now
    dsimp only
    rw [if_neg Bool.false_ne_true]
    have hconn : (escalate cfg iface w).1.connected = false := rfl
    have hnext : (escalate cfg iface w).1.badTicks = s.watchdog.badTicks + 1 := by
      rw [← hticks]
      rfl
    split
    · next hask =>
      -- an even tick: the reconnect is on the queue in front of the next tick
      have hbase : NetInv { s with
          watchdog := (escalate cfg iface w).1, pc := .statusEnd, missed := 0 } :=
        h.ofWatchdog hpc (fun _ ↦ rfl) (Or.inl rfl)
      have hasked := hbase.askReconnect 0
      refine
        { nodup := hasked.nodup
          running := hasked.running
          runs := hasked.runs
          waits := hasked.waits
          asked := hasked.asked
          watches := hasked.watches
          connected := fun hup ↦ absurd (hconn.symm.trans hup) Bool.false_ne_true
          connecting := nofun
          count := Or.inr (Or.inr ⟨?_, Or.inr ⟨?_, by rintro ⟨⟩⟩⟩) }
      · show s.missed + 1 ≤ 2
        omega
      · show WorkQueue.Ahead .reconnect .status (s.wq.reschedule s.now 0 .reconnect).queue
        rw [WorkQueue.reschedule, if_pos rfl]
        exact WorkQueue.ahead_submit (h.runs (by rw [hpc]; rfl)).1
    · next hask =>
      have hodd : ¬ s.watchdog.Odd := by
        rw [reconnect_mem_escalate, hticks, badTicks_succ] at hask
        exact hask
      have hzero : s.missed = 0 := hcount.resolve_right fun hone ↦ hodd hone.2
      refine h.ofWatchdog hpc (fun hup ↦ absurd (hconn.symm.trans hup) Bool.false_ne_true)
        (Or.inr ⟨by rw [hzero], odd_succ hnext hodd⟩)
  · obtain ⟨-, -, hcalls⟩ := connectivityWatchdog_of_healthy hprov hhealthy
    rcases hr : connectivityWatchdog cfg iface s.ipv4 s.watchdog with ⟨w, healthy, calls⟩
    rw [hr] at hhealthy hcalls
    have hnot : ∀ c, c ≠ .markConnected true → c ∉ calls := fun c hne hmem ↦ hne (hcalls c hmem)
    rw [NetState.afterWatchdog, if_neg (hnot .sysReboot (by rintro ⟨⟩))]
    dsimp only
    rw [if_neg (hnot .reconnect (by rintro ⟨⟩)), if_pos hhealthy]
    exact h.ofWatchdog hpc (fun _ ↦ rfl) (Or.inl rfl)

/-- **The step lemma.** -/
theorem NetInv.step (hprov : cfg.provMode = false) (h : NetInv s) (hst : netStep cfg s a = some t) :
    NetInv t := by
  cases a with
  | expire i => exact h.expire hst
  | start => exact h.start hst
  | watchdog iface => exact h.watchdog hprov hst
  | tick ms | address ipv4 | pingReply =>
    obtain rfl := Option.some.inj hst
    exact ⟨h.nodup, h.running, h.runs, h.waits, h.asked, h.watches, h.connected,
      h.connecting, h.count⟩
  -- the watchdog ends with putting itself on the queue again
  | statusEnd =>
    obtain ⟨hpc, hst⟩ := Option.ite_none_right_eq_some.1 hst
    obtain rfl := Option.some.inj hst
    obtain ⟨hmem, -⟩ := h.runs (by rw [hpc]; rfl)
    exact
      { nodup := WorkQueue.nodup_reschedule h.nodup
        running := rfl
        runs := nofun
        waits := fun hmem' ↦ absurd hmem' hmem
        asked := fun hasked ↦ (h.asked hasked).reschedule
        watches := Or.inr WorkQueue.due_reschedule
        connected := h.connected
        connecting := nofun
        count := h.count.imp id <| Or.imp id <| And.imp id fun hnudged ↦ Or.inr
          ⟨(hnudged.resolve_left fun hpc' ↦ nomatch hpc.symm.trans hpc').1, nofun⟩ }
  | reconnect =>
    obtain ⟨hpc, hst⟩ := Option.ite_none_right_eq_some.1 hst
    obtain rfl := Option.some.inj hst
    rw [hprov, Bool.or_false]
    split
    · next hup => exact h.finish (by rw [hpc]; rfl) (Or.inl (h.connected hup))
    · exact
        { nodup := h.nodup
          running := h.running.trans (by rw [hpc]; rfl)
          runs := nofun
          waits := h.waits
          asked := h.asked
          watches := h.watches
          connected := fun _ ↦ rfl
          connecting := fun _ ↦ rfl
          count := Or.inl rfl }
  | connectReturns rc =>
    obtain ⟨hpc, hst⟩ := Option.ite_none_right_eq_some.1 hst
    obtain rfl := Option.some.inj hst
    -- the count was cleared when the attempt began
    have hzero := h.connecting hpc
    split
    · exact (h.askReconnect 2000).finish (by rw [NetState.askReconnect, hpc]; rfl) (Or.inl hzero)
    · exact h.finish (by rw [hpc]; rfl) (Or.inl hzero)
  | event e =>
    obtain rfl := Option.some.inj hst
    have hevent : NetInv { s with
        watchdog := s.watchdog.onEvent e, missed := s.missedAfter e } := by
      refine ⟨h.nodup, h.running, h.runs, h.waits, h.asked, h.watches, fun hup ↦ ?_,
        fun hpc ↦ ?_, ?_⟩
      · cases e with
        | l4Connected => rfl
        | l4Disconnected | disconnectResult => exact absurd hup Bool.false_ne_true
        | connectResult status => exact h.connected hup
      · cases e with
        | l4Connected => rfl
        | l4Disconnected | disconnectResult | connectResult => exact h.connecting hpc
      · cases e with
        | l4Connected => exact Or.inl rfl
        | l4Disconnected | disconnectResult | connectResult => exact h.count
    split
    · exact hevent.askReconnect 2000
    · exact hevent

/-- **The device keeps trying**, in every state of every run. -/
theorem keepsTrying_throughout (hprov : cfg.provMode = false) (now : ℕ) (as : List NetAction) :
    Throughout (netStep cfg) KeepsTrying (.boot now) as :=
  (throughout_of_forall (fun _ _ _ (hs : NetInv _) hst ↦ hs.step hprov hst) (NetInv.boot now)
    as).imp fun _ hs ↦ hs.keepsTrying

/-- Two ticks offline with an event between them, and an attempt that fails. -/
theorem keepsTrying_twoTicks :
    Throughout (netStep applicationWatchdog) KeepsTrying (.boot 0)
      [.tick 3000, .expire .status, .start, .watchdog true, .event .disconnectResult, .statusEnd,
        .tick 3000, .expire .status, .start, .watchdog true, .statusEnd, .start, .reconnect,
        .connectReturns (-120), .tick 3000, .expire .status, .expire .reconnect] :=
  keepsTrying_throughout rfl 0 _

end ThinEdge.Net
