import ThinEdge.Lib.Transition
import ThinEdge.Net.TryCredentials

/-!
# The connectivity watchdog

`connectivity_watchdog` of `lib/common/net.c` with the Wi-Fi and L4 event handlers and
`ping_reply`, over runs in which the station connects and disconnects, its address changes and its
probe is answered or not.

The watchdog counts replies and lets their absence count against the device once one was seen. The
flag that says so is a static that no event resets, so it speaks about the boot and not about the
connection: `not_probeGatesProven_silentNetwork` moves a device from a network that answers to one
that does not. `probeGatesProven_iff` says exactly which runs this spoils.
-/

namespace ThinEdge.Net

open Transition TryCredentials

/-! ### The watchdog -/

/-- The build options of the watchdog. -/
structure WatchdogConfig where
  /-- `prov_mode`: the image is the provisioner. -/
  provMode : Bool
  /-- The gateway is probed, for which the image needs its own IPv4 stack. -/
  probe : Bool
  /-- `CONFIG_APP_NET_REBOOT_TIMEOUT_S`, when `CONFIG_APP_NET_RECONNECT_REBOOT` is set. -/
  rebootTimeout : Option ℕ
  rebootTimeout_range : ∀ t ∈ rebootTimeout, 30 ≤ t ∧ t ≤ 86400

/-- `WD_TRIGGER_TICKS`. -/
def wdTriggerTicks : UInt32 := 2

/-- `WD_PING_STALL_MAX`. -/
def wdPingStallMax : UInt32 := 5

/-- The statics of `net.c` that the watchdog works on. -/
structure Watchdog where
  connected : Bool
  pingOk : UInt32
  badTicks : UInt32
  lastPingOk : UInt32
  pingStall : UInt32
  pingProven : Bool
  deriving DecidableEq, Repr

/-- The statics after a reboot. -/
def Watchdog.boot : Watchdog := ⟨false, 0, 0, 0, 0, false⟩

/-- A call of the watchdog. -/
inductive WatchdogCall
  | markConnected (up : Bool)
  /-- `NET_REQUEST_WIFI_DISCONNECT`. -/
  | wifiDisconnect
  /-- `net_wq_reschedule` of `reconnect_work`. -/
  | reconnect
  | sysReboot
  deriving DecidableEq, Repr

/-- The reachability gate: replies are counted, or ticks without one. -/
def Watchdog.countReplies (w : Watchdog) : Watchdog :=
  if w.pingOk ≠ w.lastPingOk then
    { w with pingProven := true, pingStall := 0, lastPingOk := w.pingOk }
  else { w with pingStall := w.pingStall + 1 }

/-- A reply was counted in this boot, or one is about to be. -/
def Watchdog.heard (w : Watchdog) : Bool := w.pingProven || w.pingOk != w.lastPingOk

/-- The data path counts as down. -/
def Watchdog.stalled (w : Watchdog) : Bool :=
  w.pingProven && decide (wdPingStallMax ≤ w.pingStall)

/-- What the watchdog does for a healthy device. -/
def restore (w : Watchdog) : Watchdog × List WatchdogCall :=
  ({ w with connected := true, badTicks := 0 }, if w.connected then [] else [.markConnected true])

/-- What the watchdog does for a device that is not healthy, given whether there is a Wi-Fi
interface. -/
def escalate (cfg : WatchdogConfig) (iface : Bool) (w : Watchdog) : Watchdog × List WatchdogCall :=
  let lost := if w.connected then [WatchdogCall.markConnected false] else []
  let w := { w with connected := false, badTicks := w.badTicks + 1 }
  let nudge :=
    if w.badTicks % wdTriggerTicks = 0 then
      (if w.badTicks = 10 ∧ iface then [WatchdogCall.wifiDisconnect] else []) ++ [.reconnect]
    else []
  let reboot :=
    match cfg.rebootTimeout with
    | none => []
    | some t => if UInt32.ofNat t ≤ w.badTicks * 3 then [WatchdogCall.sysReboot] else []
  (w, lost ++ nudge ++ reboot)

/-- `connectivity_watchdog` on an address: the statics it leaves, whether it finds the device
healthy, and its calls. -/
def connectivityWatchdog (cfg : WatchdogConfig) (iface : Bool) (ipv4 : UInt32) (w : Watchdog) :
    Watchdog × Bool × List WatchdogCall :=
  if cfg.provMode then (w, true, [])
  else
    let w := if cfg.probe then w.countReplies else w
    let healthy := decide (ipv4 ≠ 0) && !(cfg.probe && w.stalled)
    let (w, calls) := if healthy then restore w else escalate cfg iface w
    (w, healthy, calls)

/-- `l4_event_handler` and `wifi_event_handler`. -/
def Watchdog.onEvent (w : Watchdog) : MgmtEvent → Watchdog
  | .l4Connected => { w with connected := true }
  | .l4Disconnected | .disconnectResult => { w with connected := false }
  | .connectResult _ => w

/-! ### Runs -/

/-- What a tick found and did. -/
structure WatchdogTick where
  ipv4 : UInt32
  healthy : Bool
  rebooted : Bool
  /-- A reply had arrived since the last connection. -/
  answered : Bool
  deriving DecidableEq, Repr

/-- A device with its watchdog. -/
structure WatchdogRun where
  watchdog : Watchdog
  /-- The address of the interface, zero when it has none. -/
  ipv4 : UInt32
  /-- A reply has arrived since the last connection. -/
  answered : Bool
  /-- When the station last connected, a reply of this boot was counted or was about to be. -/
  heardBefore : Bool
  /-- The last tick. -/
  last : Option WatchdogTick
  deriving DecidableEq, Repr

/-- A device after power-on. -/
def WatchdogRun.powerOn : WatchdogRun := ⟨.boot, 0, false, false, none⟩

/-- What happens to the device. -/
inductive WatchdogAction
  /-- `status_work` runs the watchdog. -/
  | tick (iface : Bool)
  /-- `ping_reply`. -/
  | pingReply
  | address (ipv4 : UInt32)
  | event (e : MgmtEvent)
  deriving DecidableEq, Repr

/-- The station connects: it has associated, or the interface has come up at L4. -/
def connects : MgmtEvent → Bool
  | .l4Connected => true
  | .connectResult status => status == 0
  | .l4Disconnected | .disconnectResult => false

/-- A tick. After a reboot the device starts from power-on. -/
def WatchdogRun.tick (cfg : WatchdogConfig) (r : WatchdogRun) (iface : Bool) : WatchdogRun :=
  let (w, healthy, calls) := connectivityWatchdog cfg iface r.ipv4 r.watchdog
  let last := some ⟨r.ipv4, healthy, decide (.sysReboot ∈ calls), r.answered⟩
  if .sysReboot ∈ calls then { WatchdogRun.powerOn with last := last }
  else { r with watchdog := w, last := last }

/-- One step of the device. -/
def watchdogStep (cfg : WatchdogConfig) (r : WatchdogRun) : WatchdogAction → Option WatchdogRun
  | .tick iface => some (r.tick cfg iface)
  | .pingReply =>
    some { r with
      watchdog := { r.watchdog with pingOk := r.watchdog.pingOk + 1 }
      answered := true }
  | .address ipv4 => some { r with ipv4 := ipv4 }
  | .event e =>
    let w := r.watchdog.onEvent e
    if connects e then
      some { r with
        watchdog := w
        answered := false
        heardBefore := w.heard }
    else some { r with watchdog := w }

/-! ### What a tick finds -/

section Tick

variable {cfg : WatchdogConfig} {iface : Bool} {ipv4 : UInt32} {w : Watchdog}

theorem Watchdog.heard_countReplies : w.countReplies.heard = w.heard := by
  unfold Watchdog.countReplies Watchdog.heard
  split
  · next h => simp [h]
  · rfl

/-- The data path counts as down when some reply was counted before, none is new, and enough ticks
have passed since. -/
theorem Watchdog.stalled_countReplies : w.countReplies.stalled = true ↔
    w.heard = true ∧ w.pingOk = w.lastPingOk ∧ wdPingStallMax ≤ w.pingStall + 1 := by
  unfold Watchdog.countReplies Watchdog.stalled Watchdog.heard
  by_cases h : w.pingOk = w.lastPingOk
  · -- without a new reply the counter goes up; with one it is zero
    rw [if_neg (not_not.2 h)]
    simp [h]
  · rw [if_pos h]
    simp [h, wdPingStallMax]

theorem heard_connectivityWatchdog :
    (connectivityWatchdog cfg iface ipv4 w).1.heard = w.heard := by
  have hact : ∀ (healthy : Bool) (w : Watchdog),
      (if healthy then restore w else escalate cfg iface w).1.heard = w.heard := by
    intro healthy w
    cases healthy <;> rfl
  rw [connectivityWatchdog]
  split
  · rfl
  · refine (hact _ _).trans ?_
    split
    · exact Watchdog.heard_countReplies
    · rfl

/-- **When a device with an address is unhealthy.** -/
theorem unhealthy_iff (hip : ipv4 ≠ 0) : (connectivityWatchdog cfg iface ipv4 w).2.1 = false ↔
    cfg.provMode = false ∧ cfg.probe = true ∧
      w.heard = true ∧ w.pingOk = w.lastPingOk ∧ wdPingStallMax ≤ w.pingStall + 1 := by
  rw [connectivityWatchdog, ← Watchdog.stalled_countReplies]
  cases hprov : cfg.provMode with
  | true => simp
  | false =>
    cases hprobe : cfg.probe with
    | false => simp [hip]
    | true => cases hst : w.countReplies.stalled <;> simp [hip, hst]

/-- Only a device that is not healthy is rebooted. -/
theorem unhealthy_of_sysReboot (h : .sysReboot ∈ (connectivityWatchdog cfg iface ipv4 w).2.2) :
    (connectivityWatchdog cfg iface ipv4 w).2.1 = false := by
  rw [connectivityWatchdog] at h ⊢
  split at h
  · exact absurd h List.not_mem_nil
  · next hprov =>
    rw [if_neg hprov]
    by_contra hne
    rw [Bool.not_eq_false] at hne
    dsimp only at h hne
    rw [if_pos hne, restore] at h
    dsimp only at h
    split at h <;> simp at h

end Tick

/-! ### The probe gates what it has proven -/

/-- **The probe gates only a connection it has proven**: a tick that finds an address judges the
device unhealthy, and reboots it, only if a reply has arrived since the last connection. -/
def ProbeGatesProven (r : WatchdogRun) : Prop :=
  ∀ t ∈ r.last, t.ipv4 ≠ 0 → t.healthy = false ∨ t.rebooted = true → t.answered = true

instance (r : WatchdogRun) : Decidable (ProbeGatesProven r) :=
  inferInstanceAs (Decidable (∀ t ∈ r.last, _))

/-- A device with an address whose connection the probe has not reached yet, while replies on an
earlier one have set the flag and the ticks since the last of them fill the stall counter. -/
def StaleProof (cfg : WatchdogConfig) (r : WatchdogRun) : Prop :=
  cfg.provMode = false ∧ cfg.probe = true ∧ r.ipv4 ≠ 0 ∧ r.answered = false ∧
    r.heardBefore = true ∧ r.watchdog.pingOk = r.watchdog.lastPingOk ∧
      wdPingStallMax ≤ r.watchdog.pingStall + 1

/-- No tick meets a stale proof. -/
def ProofFresh (cfg : WatchdogConfig) (r : WatchdogRun) : WatchdogAction → Prop
  | .tick _ => ¬ StaleProof cfg r
  | .pingReply | .address _ | .event _ => True

/-- Until a reply arrives on the connection, what the watchdog has heard is what it had heard
before. -/
structure WatchdogInv (r : WatchdogRun) : Prop where
  gates : ProbeGatesProven r
  heard : r.answered = false → (r.watchdog.heard = true ↔ r.heardBefore = true)

section Runs

variable {cfg : WatchdogConfig} {r r' : WatchdogRun} {a : WatchdogAction}

theorem WatchdogInv.powerOn : WatchdogInv .powerOn where
  gates := fun _ h ↦ by cases h
  heard := fun _ ↦ Iff.rfl

/-- A tick that finds an address and no reply on the connection judges the device unhealthy exactly
when it meets a stale proof. -/
theorem unhealthy_iff_staleProof (h : WatchdogInv r) (hip : r.ipv4 ≠ 0)
    (hans : r.answered = false) {iface : Bool} :
    (connectivityWatchdog cfg iface r.ipv4 r.watchdog).2.1 = false ↔ StaleProof cfg r := by
  rw [unhealthy_iff hip, h.heard hans, StaleProof]
  constructor
  · rintro ⟨hprov, hprobe, hrest⟩
    exact ⟨hprov, hprobe, hip, hans, hrest⟩
  · rintro ⟨hprov, hprobe, -, -, hrest⟩
    exact ⟨hprov, hprobe, hrest⟩

theorem last_tick {iface : Bool} : (r.tick cfg iface).last =
    some ⟨r.ipv4, (connectivityWatchdog cfg iface r.ipv4 r.watchdog).2.1,
      decide (.sysReboot ∈ (connectivityWatchdog cfg iface r.ipv4 r.watchdog).2.2),
      r.answered⟩ := by
  rw [WatchdogRun.tick]
  dsimp only
  split <;> rfl

theorem watchdogInv_tick (h : WatchdogInv r) (hok : ¬ StaleProof cfg r) {iface : Bool} :
    WatchdogInv (r.tick cfg iface) := by
  refine ⟨fun t ht hip hbad ↦ ?_, ?_⟩
  · -- a tick without a reply on the connection judges by what was heard before
    rw [last_tick, Option.mem_some_iff] at ht
    subst ht
    by_contra hans
    have hbad' : (connectivityWatchdog cfg iface r.ipv4 r.watchdog).2.1 = false :=
      hbad.elim id fun hreboot ↦ unhealthy_of_sysReboot (of_decide_eq_true hreboot)
    rw [unhealthy_iff_staleProof h hip (Bool.eq_false_iff.2 hans)] at hbad'
    exact hok hbad'
  · rw [WatchdogRun.tick]
    dsimp only
    split
    · -- after a reboot nothing has been heard
      exact fun _ ↦ Iff.rfl
    · intro hans
      show (connectivityWatchdog cfg iface r.ipv4 r.watchdog).1.heard = true ↔ _
      rw [heard_connectivityWatchdog]
      exact h.heard hans

theorem not_probeGatesProven_tick (h : WatchdogInv r) (hbad : StaleProof cfg r) {iface : Bool} :
    ¬ ProbeGatesProven (r.tick cfg iface) := by
  have hip : r.ipv4 ≠ 0 := hbad.2.2.1
  have hans : r.answered = false := hbad.2.2.2.1
  intro hgates
  have htrue := hgates _ last_tick hip (Or.inl ((unhealthy_iff_staleProof h hip hans).2 hbad))
  exact Bool.false_ne_true (hans.symm.trans htrue)

/-- One step. -/
theorem watchdogInv_step (h : WatchdogInv r) (hok : ProofFresh cfg r a)
    (hstep : watchdogStep cfg r a = some r') : WatchdogInv r' := by
  cases a with
  | tick iface =>
    cases hstep
    exact watchdogInv_tick h hok
  | pingReply =>
    cases hstep
    exact ⟨h.gates, fun hans ↦ absurd hans.symm Bool.false_ne_true⟩
  | address ipv4 =>
    cases hstep
    exact ⟨h.gates, h.heard⟩
  | event e =>
    have hheard : (r.watchdog.onEvent e).heard = r.watchdog.heard := by cases e <;> rfl
    rw [watchdogStep] at hstep
    split at hstep
    · cases hstep
      exact ⟨h.gates, fun _ ↦ Iff.rfl⟩
    · cases hstep
      exact ⟨h.gates, fun hans ↦ hheard ▸ h.heard hans⟩

/-- **Exactly which runs gate only proven connections**: those in which no tick meets a stale
proof. -/
theorem probeGatesProven_iff {as : List WatchdogAction} :
    Throughout (watchdogStep cfg) ProbeGatesProven .powerOn as ↔
      AllSteps (watchdogStep cfg) (ProofFresh cfg) .powerOn as := by
  refine throughout_iff_allSteps (fun _ h ↦ h.gates)
    (fun _ _ _ h hok hst ↦ watchdogInv_step h hok hst) (fun r a h hno ↦ ?_) WatchdogInv.powerOn
  cases a with
  | tick iface => exact ⟨_, rfl, not_probeGatesProven_tick h (not_not.1 hno)⟩
  | pingReply => exact absurd trivial hno
  | address ipv4 => exact absurd trivial hno
  | event e => exact absurd trivial hno

end Runs

/-- The watchdog as an application image builds it. -/
def applicationWatchdog : WatchdogConfig where
  provMode := false
  probe := true
  rebootTimeout := some 300
  rebootTimeout_range := by decide

/-- **A proof outlives its connection**: the first network answers the probe, the second never does,
and five ticks after the device has moved there it counts as offline. -/
theorem not_probeGatesProven_silentNetwork :
    ¬ Throughout (watchdogStep applicationWatchdog) ProbeGatesProven .powerOn
      [.event (.connectResult 0), .address 0x0201a8c0, .event .l4Connected, .pingReply, .tick true,
        .event .disconnectResult, .event .l4Disconnected, .address 0,
        .event (.connectResult 0), .address 0x0202a8c0, .event .l4Connected,
        .tick true, .tick true, .tick true, .tick true, .tick true] := by
  decide

end ThinEdge.Net
