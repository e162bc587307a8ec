import ThinEdge.Net.Watchdog

/-!
# The connectivity watchdog: escalation of an outage

What the ticks of `connectivity_watchdog` in `lib/common/net.c` do as an outage goes on. An observer
counts the unhealthy ticks in a row, up to the present one and since the last reboot; the calls of a
tick depend on that number alone (`TickRules`), whatever events, addresses and replies come in
between.

`outage_escalates` is the result. It rests on `OutageInv`: the static `bad_ticks` is the observer's
number, and the number has not come to the timeout of the reboot, or the device would have been
rebooted. What makes a tick unhealthy is the address and the gateway's replies (`JudgesDevice`).
-/

namespace ThinEdge.Net

open Transition

/-! ### What an observer sees -/

/-- What a tick did. -/
structure TickNote where
  /-- The place of the tick in its streak of unhealthy ticks; zero for a healthy tick. -/
  nth : ℕ
  healthy : Bool
  calls : List WatchdogCall
  /-- The flag after the tick. -/
  connected : Bool
  deriving DecidableEq, Repr

/-- What has been seen of the ticks. -/
structure OutageSeen where
  /-- The unhealthy ticks in a row up to now, since the device was started. -/
  streak : ℕ
  /-- How often the association was cleared in this streak. -/
  cleared : ℕ
  last : Option TickNote
  deriving DecidableEq, Repr

/-- Nothing has been seen. -/
def OutageSeen.start : OutageSeen := ⟨0, 0, none⟩

/-- The notes of a tick. A reboot ends the streak. -/
def OutageSeen.afterTick (s : OutageSeen) (healthy : Bool) (calls : List WatchdogCall)
    (connected : Bool) : OutageSeen :=
  let nth := if healthy then 0 else s.streak + 1
  let cleared := (if healthy then 0 else s.cleared) + calls.count .wifiDisconnect
  let last := some ⟨nth, healthy, calls, connected⟩
  if .sysReboot ∈ calls then ⟨0, 0, last⟩ else ⟨nth, cleared, last⟩

/-- The notes of a step. -/
def seeOutage (cfg : WatchdogConfig) (r : WatchdogRun) (a : WatchdogAction) (r' : WatchdogRun)
    (s : OutageSeen) : OutageSeen :=
  match a with
  | .tick iface =>
    let (_, healthy, calls) := connectivityWatchdog cfg iface r.ipv4 r.watchdog
    s.afterTick healthy calls r'.watchdog.connected
  | .pingReply | .address _ | .event _ => s

/-- The device with its observer. -/
def outageStep (cfg : WatchdogConfig) :
    WatchdogRun × OutageSeen → WatchdogAction → Option (WatchdogRun × OutageSeen) :=
  observed (watchdogStep cfg) (seeOutage cfg)

/-! ### The rules -/

/-- The last resort is due for the first time in a streak. -/
def FirstDue (timeout n : ℕ) : Prop := timeout ≤ 3 * n ∧ 3 * (n - 1) < timeout

instance (timeout n : ℕ) : Decidable (FirstDue timeout n) := inferInstanceAs (Decidable (_ ∧ _))

/-- What a tick does at its place in the streak: the tenth clears the association, every second one
requests a reconnect, and the first at which the last resort is due reboots the device. -/
structure TickRules (cfg : WatchdogConfig) (t : TickNote) : Prop where
  cleared : t.calls.count .wifiDisconnect = if t.nth = 10 then 1 else 0
  reconnect : t.calls.count .reconnect = if t.healthy = false ∧ t.nth % 2 = 0 then 1 else 0
  reboot : .sysReboot ∈ t.calls ↔ ∃ timeout ∈ cfg.rebootTimeout, FirstDue timeout t.nth
  connected : t.connected = t.healthy

/-- The counter is the length of the streak, the association has been cleared once in it if it has
reached ten ticks and not otherwise, and the last tick kept the rules. -/
structure Escalates (cfg : WatchdogConfig) (p : WatchdogRun × OutageSeen) : Prop where
  badTicks : p.1.watchdog.badTicks.toNat = p.2.streak
  cleared : p.2.cleared = if 10 ≤ p.2.streak then 1 else 0
  last : ∀ t ∈ p.2.last, TickRules cfg t

/-- The next tick judges the device by its address and, once the gateway has answered a ping, by the
answers: without an address it is unhealthy, and from the fifth tick in a row without an answer.
-/
def JudgesDevice (cfg : WatchdogConfig) (r : WatchdogRun) : Prop :=
  ∀ iface, (connectivityWatchdog cfg iface r.ipv4 r.watchdog).2.1 = false ↔
    r.ipv4 = 0 ∨ cfg.probe = true ∧ r.watchdog.heard = true ∧
      r.watchdog.pingOk = r.watchdog.lastPingOk ∧ wdPingStallMax ≤ r.watchdog.pingStall + 1

/-- There is a Wi-Fi interface, and the streak is shorter than 2^30 ticks. -/
def Observable (p : WatchdogRun × OutageSeen) (a : WatchdogAction) : Prop :=
  a ≠ .tick false ∧ p.2.streak < 1073741824

instance (p : WatchdogRun × OutageSeen) (a : WatchdogAction) : Decidable (Observable p a) :=
  inferInstanceAs (Decidable (_ ∧ _))

/-! ### A tick -/

section Tick

variable {cfg : WatchdogConfig} {iface : Bool} {ipv4 : UInt32} {w : Watchdog}

theorem Watchdog.badTicks_countReplies : w.countReplies.badTicks = w.badTicks := by
  rw [Watchdog.countReplies]
  split <;> rfl

theorem eq_of_mem_restore {c : WatchdogCall} (h : c ∈ (restore w).2) : c = .markConnected true := by
  rw [restore] at h
  dsimp only at h
  split at h
  · exact absurd h List.not_mem_nil
  · exact List.mem_singleton.1 h

theorem judgesDevice (hprov : cfg.provMode = false) (r : WatchdogRun) : JudgesDevice cfg r := by
  intro iface
  rcases Decidable.em (r.ipv4 = 0) with hip | hip
  · refine iff_of_true ?_ (Or.inl hip)
    rw [connectivityWatchdog, if_neg (ne_true_of_eq_false hprov), hip]
    rfl
  · rw [unhealthy_iff hip, or_iff_right hip, and_iff_right hprov]

/-- What a tick does for a healthy device. -/
theorem connectivityWatchdog_of_healthy (hprov : cfg.provMode = false)
    (h : (connectivityWatchdog cfg iface ipv4 w).2.1 = true) :
    (connectivityWatchdog cfg iface ipv4 w).1.badTicks = 0 ∧
      (connectivityWatchdog cfg iface ipv4 w).1.connected = true ∧
      ∀ c ∈ (connectivityWatchdog cfg iface ipv4 w).2.2, c = .markConnected true := by
  have hnot : ¬ cfg.provMode = true := by simp [hprov]
  rw [connectivityWatchdog, if_neg hnot] at h ⊢
  dsimp only at h ⊢
  rw [if_pos h]
  exact ⟨rfl, rfl, fun c ↦ eq_of_mem_restore⟩

/-- What it does for a device that is not. -/
theorem connectivityWatchdog_of_unhealthy
    (h : (connectivityWatchdog cfg iface ipv4 w).2.1 = false) :
    ∃ w₁ : Watchdog, w₁.badTicks = w.badTicks ∧ connectivityWatchdog cfg iface ipv4 w =
      ((escalate cfg iface w₁).1, false, (escalate cfg iface w₁).2) := by
  rw [connectivityWatchdog] at h ⊢
  split at h
  · exact absurd h (by simp)
  · next hprov =>
    dsimp only at h
    rw [if_neg hprov]
    refine ⟨if cfg.probe then w.countReplies else w, ?_, ?_⟩
    · split
      · exact Watchdog.badTicks_countReplies
      · rfl
    · dsimp only
      rw [h]
      rfl

/-- The calls of an unhealthy tick, by what the counter comes to. -/
theorem escalate_eq (w : Watchdog) : (escalate cfg iface w).2 =
    (if w.connected then [.markConnected false] else []) ++
    (if (w.badTicks + 1) % wdTriggerTicks = 0 then
      (if w.badTicks + 1 = 10 ∧ iface then [.wifiDisconnect] else []) ++ [.reconnect] else []) ++
    match cfg.rebootTimeout with
    | none => []
    | some t => if UInt32.ofNat t ≤ (w.badTicks + 1) * 3 then [.sysReboot] else [] := rfl

theorem count_eq_zero_of_ne {c d : WatchdogCall} {l : List WatchdogCall} (h : ∀ e ∈ l, e = d)
    (hne : d ≠ c) : l.count c = 0 :=
  List.count_eq_zero.2 fun hmem ↦ hne (h c hmem).symm

/-- The calls that a nudge and the reboot leave out. -/
theorem count_escalate {n : ℕ} (hn : (w.badTicks + 1).toNat = n) :
    (escalate cfg true w).2.count .wifiDisconnect = (if n = 10 then 1 else 0) ∧
      (escalate cfg true w).2.count .reconnect = if n % 2 = 0 then 1 else 0 := by
  have htrigger : (w.badTicks + 1) % wdTriggerTicks = 0 ↔ n % 2 = 0 := by
    rw [← UInt32.toNat_inj, UInt32.toNat_mod, hn]
    rfl
  have hten : w.badTicks + 1 = 10 ↔ n = 10 := by
    rw [← UInt32.toNat_inj, hn]
    rfl
  have hlost : ∀ e ∈ (if w.connected then [WatchdogCall.markConnected false] else []),
      e = .markConnected false := by
    split
    · exact fun e he ↦ List.mem_singleton.1 he
    · exact fun e he ↦ absurd he List.not_mem_nil
  have hreboot : ∀ e ∈ (match cfg.rebootTimeout with
      | none => []
      | some t => if UInt32.ofNat t ≤ (w.badTicks + 1) * 3 then [WatchdogCall.sysReboot] else []),
      e = .sysReboot := by
    split
    · exact fun e he ↦ absurd he List.not_mem_nil
    · split
      · exact fun e he ↦ List.mem_singleton.1 he
      · exact fun e he ↦ absurd he List.not_mem_nil
  rw [escalate_eq, List.count_append, List.count_append, List.count_append, List.count_append,
    count_eq_zero_of_ne hlost (by decide), count_eq_zero_of_ne hlost (by decide),
    count_eq_zero_of_ne hreboot (by decide), count_eq_zero_of_ne hreboot (by decide)]
  simp only [htrigger, hten, and_true, Nat.zero_add, Nat.add_zero]
  rcases Decidable.em (n % 2 = 0) with heven | hodd
  · rw [if_pos heven, if_pos heven]
    split <;> decide
  · have hne : n ≠ 10 := by
      rintro rfl
      exact hodd rfl
    rw [if_neg hodd, if_neg hodd, if_neg hne]
    decide

theorem sysReboot_mem_escalate {n : ℕ} (hn : (w.badTicks + 1).toNat = n) (hlt : n ≤ 1073741824) :
    .sysReboot ∈ (escalate cfg iface w).2 ↔ ∃ timeout ∈ cfg.rebootTimeout, timeout ≤ 3 * n := by
  have hdue : ∀ timeout ∈ cfg.rebootTimeout,
      (UInt32.ofNat timeout ≤ (w.badTicks + 1) * 3 ↔ timeout ≤ 3 * n) := by
    intro timeout ht
    have hrange := (cfg.rebootTimeout_range timeout ht).2
    rw [UInt32.le_iff_toNat_le, UInt32.toNat_ofNat', UInt32.toNat_mul, hn]
    show timeout % 4294967296 ≤ n * 3 % 4294967296 ↔ _
    omega
  rw [escalate_eq, List.mem_append]
  refine (or_iff_right fun hmem ↦ ?_).trans ?_
  · -- the other calls
    rcases List.mem_append.1 hmem with hlost | hnudge
    · split at hlost <;> simp at hlost
    · split at hnudge
      · rcases List.mem_append.1 hnudge with hclear | hreconnect
        · split at hclear <;> simp at hclear
        · simp at hreconnect
      · simp at hnudge
  · cases hcfg : cfg.rebootTimeout with
    | none => simp
    | some timeout =>
      have h := hdue timeout hcfg
      simp only [Option.mem_some_iff, exists_eq_left', ← h]
      split <;> simp_all

end Tick

/-! ### Runs -/

/-- The counter is the length of the streak, and the last resort has not been due in it. -/
structure OutageInv (cfg : WatchdogConfig) (p : WatchdogRun × OutageSeen) : Prop extends
    Escalates cfg p where
  not_due : ∀ timeout ∈ cfg.rebootTimeout, 3 * p.2.streak < timeout

section Runs

variable {cfg : WatchdogConfig} {p q : WatchdogRun × OutageSeen} {a : WatchdogAction}

theorem OutageInv.start (cfg : WatchdogConfig) : OutageInv cfg (.powerOn, .start) where
  badTicks := rfl
  cleared := rfl
  last t ht := absurd ht (by simp [OutageSeen.start])
  not_due timeout ht := by
    have := (cfg.rebootTimeout_range timeout ht).1
    show 3 * 0 < timeout
    omega

/-- What is not a tick leaves the counter as it is. -/
theorem OutageInv.keep (h : OutageInv cfg p) {r : WatchdogRun}
    (hr : r.watchdog.badTicks = p.1.watchdog.badTicks) : OutageInv cfg (r, p.2) :=
  { h with badTicks := hr ▸ h.badTicks }

/-- A healthy tick ends the streak. -/
theorem OutageInv.of_healthy (hprov : cfg.provMode = false)
    (hh : (connectivityWatchdog cfg true p.1.ipv4 p.1.watchdog).2.1 = true) :
    OutageInv cfg (p.1.tick cfg true,
      seeOutage cfg p.1 (.tick true) (p.1.tick cfg true) p.2) := by
  obtain ⟨hbad, hconnected, hcalls⟩ := connectivityWatchdog_of_healthy hprov hh
  have hreboot : .sysReboot ∉ (connectivityWatchdog cfg true p.1.ipv4 p.1.watchdog).2.2 :=
    fun hmem ↦ absurd (hcalls _ hmem) (by decide)
  have htick : (p.1.tick cfg true).watchdog =
      (connectivityWatchdog cfg true p.1.ipv4 p.1.watchdog).1 := by
    rw [WatchdogRun.tick]
    dsimp only
    rw [if_neg hreboot]
  have hsee : seeOutage cfg p.1 (.tick true) (p.1.tick cfg true) p.2 = ⟨0, 0, some ⟨0, true,
      (connectivityWatchdog cfg true p.1.ipv4 p.1.watchdog).2.2, true⟩⟩ := by
    rw [seeOutage]
    dsimp only
    rw [OutageSeen.afterTick, hh, htick, hconnected, if_neg hreboot,
      count_eq_zero_of_ne hcalls (by decide)]
    rfl
  rw [hsee]
  refine ⟨⟨?_, rfl, fun t ht ↦ ?_⟩, fun timeout ht ↦ ?_⟩
  · rw [htick, hbad]
    rfl
  · obtain rfl := Option.some.inj ht
    refine ⟨count_eq_zero_of_ne hcalls (by decide), count_eq_zero_of_ne hcalls (by decide),
      ⟨fun hmem ↦ absurd hmem hreboot, ?_⟩, rfl⟩
    rintro ⟨timeout, ht, hdue, -⟩
    have := (cfg.rebootTimeout_range timeout ht).1
    dsimp only at hdue
    omega
  · have := (cfg.rebootTimeout_range timeout ht).1
    show 3 * 0 < timeout
    omega

/-- The calls of an unhealthy tick keep the rules. -/
theorem OutageInv.tickRules (h : OutageInv cfg p) (hlt : p.2.streak < 1073741824) {w : Watchdog}
    (hw : w.badTicks = p.1.watchdog.badTicks) :
    (w.badTicks + 1).toNat = p.2.streak + 1 ∧
      TickRules cfg ⟨p.2.streak + 1, false, (escalate cfg true w).2, false⟩ := by
  have hn : (w.badTicks + 1).toNat = p.2.streak + 1 := by
    rw [UInt32.toNat_add, hw, h.badTicks]
    show (p.2.streak + 1) % 4294967296 = _
    omega
  obtain ⟨hclear, hreconnect⟩ := @count_escalate cfg w _ hn
  refine ⟨hn, hclear, hreconnect.trans (by simp), ?_, rfl⟩
  refine (sysReboot_mem_escalate hn (by omega)).trans ?_
  refine exists_congr fun timeout ↦ and_congr_right fun ht ↦ ?_
  exact (and_iff_left (h.not_due timeout ht)).symm

/-- An unhealthy tick makes the streak longer, or reboots the device. -/
theorem OutageInv.unhealthy (h : OutageInv cfg p) (hlt : p.2.streak < 1073741824)
    (hh : (connectivityWatchdog cfg true p.1.ipv4 p.1.watchdog).2.1 = false) :
    OutageInv cfg (p.1.tick cfg true,
      seeOutage cfg p.1 (.tick true) (p.1.tick cfg true) p.2) := by
  obtain ⟨w, hw, heq⟩ := connectivityWatchdog_of_unhealthy hh
  obtain ⟨hn, hrules⟩ := h.tickRules hlt hw
  rw [WatchdogRun.tick, seeOutage, heq]
  dsimp only
  rw [OutageSeen.afterTick]
  rcases Decidable.em (.sysReboot ∈ (escalate cfg true w).2) with hreboot | hreboot
  · rw [if_pos hreboot, if_pos hreboot]
    refine ⟨⟨rfl, rfl, fun t ht ↦ ?_⟩, fun timeout ht ↦ ?_⟩
    · obtain rfl := Option.some.inj ht
      exact hrules
    · have := (cfg.rebootTimeout_range timeout ht).1
      show 3 * 0 < timeout
      omega
  · rw [if_neg hreboot, if_neg hreboot]
    refine ⟨⟨hn, ?_, fun t ht ↦ ?_⟩, fun timeout ht ↦ ?_⟩
    · show p.2.cleared + (escalate cfg true w).2.count .wifiDisconnect =
        if 10 ≤ p.2.streak + 1 then 1 else 0
      rw [h.cleared, (show _ = _ from hrules.cleared)]
      dsimp only
      split <;> split <;> split <;> omega
    · obtain rfl := Option.some.inj ht
      exact hrules
    · show 3 * (p.2.streak + 1) < timeout
      by_contra hdue
      exact hreboot (hrules.reboot.2 ⟨timeout, ht, Nat.not_lt.1 hdue, h.not_due timeout ht⟩)

theorem OutageInv.step (hprov : cfg.provMode = false) (h : OutageInv cfg p) (hok : Observable p a)
    (hst : outageStep cfg p a = some q) : OutageInv cfg q := by
  obtain ⟨hstep, hsee⟩ := observed_eq_some.1 hst
  obtain ⟨r, s⟩ := q
  have hsee : s = seeOutage cfg p.1 a r p.2 := hsee
  subst hsee
  cases a with
  | tick iface =>
    obtain rfl : p.1.tick cfg iface = r := Option.some.inj hstep
    cases iface with
    | false => exact absurd rfl hok.1
    | true =>
      cases hh : (connectivityWatchdog cfg true p.1.ipv4 p.1.watchdog).2.1 with
      | true => exact .of_healthy hprov hh
      | false => exact h.unhealthy hok.2 hh
  | pingReply =>
    obtain rfl := Option.some.inj hstep
    exact h.keep rfl
  | address ipv4 =>
    obtain rfl := Option.some.inj hstep
    exact h.keep rfl
  | event e =>
    have hevent : (p.1.watchdog.onEvent e).badTicks = p.1.watchdog.badTicks := by cases e <;> rfl
    have hstep : (if connects e then _ else _) = some r := hstep
    split at hstep
    · obtain rfl := Option.some.inj hstep
      exact h.keep hevent
    · obtain rfl := Option.some.inj hstep
      exact h.keep hevent

/-- **The escalation of an outage**, in every run of an application image. -/
theorem outage_escalates (hprov : cfg.provMode = false) {as : List WatchdogAction}
    (h : AllSteps (outageStep cfg) Observable (.powerOn, .start) as) :
    Throughout (outageStep cfg) (fun p ↦ Escalates cfg p ∧ JudgesDevice cfg p.1)
      (.powerOn, .start) as :=
  (throughout_of_invariant (fun _ _ _ hp hok ↦ OutageInv.step hprov hp hok) (OutageInv.start cfg)
    h).imp fun p hp ↦ ⟨hp.toEscalates, judgesDevice hprov p.1⟩

theorem outage_escalates_application : Throughout (outageStep applicationWatchdog)
    (fun p ↦ Escalates applicationWatchdog p ∧ JudgesDevice applicationWatchdog p.1)
    (.powerOn, .start)
    [.tick true, .event (.connectResult 0), .address 0x0201a8c0, .event .l4Connected, .tick true,
      .event .disconnectResult, .address 0, .tick true, .tick true] :=
  outage_escalates rfl (by decide)

end Runs

end ThinEdge.Net
