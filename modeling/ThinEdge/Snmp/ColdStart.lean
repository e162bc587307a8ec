import ThinEdge.Lib.Transition
import ThinEdge.Snmp.Trap

/-!
# The coldStart is announced once

Runs of the trap originator, under any answers of the name lookup, the socket and the switch.

A notification has one attempt: the start and the watcher take note of it as handled before they
call `send_trap`, which reports nothing back. For coldStart the note is `coldstart_pending`, cleared
before the attempt, and not even set by a start that finds the manager. When the attempt fails, the
watcher will look the manager up again, but not announce the device. So the device is announced
exactly once in exactly the runs in which that attempt succeeds (`announced_iff`).
-/

namespace ThinEdge.Snmp

open Transition

variable {cfg : TrapConfig} {s : TrapState} {t : TrapTick} {r : TrapRun}

/-! ### One round -/

variable (cfg) in
/-- The manager is resolved once a round has looked for it. -/
def Resolved (s : TrapState) (lookup : Option UInt32) : Prop :=
  s.mgrResolved = true ∨ (managerAddr cfg lookup).isSome = true

instance (lookup : Option UInt32) : Decidable (Resolved cfg s lookup) :=
  inferInstanceAs (Decidable (_ ∨ _))

/-- The trap that reports a status. -/
def linkOid : SimIfStatus → List ℕ
  | .down => oidLinkdown
  | .up => oidLinkup

theorem linkOid_ne_oidColdstart (now : SimIfStatus) : linkOid now ≠ oidColdstart := by
  cases now <;> decide

theorem watchIf_of_eq {i : ℕ} (h : s.lastOper i = some (t.status i)) : watchIf cfg t s i = s := by
  rw [watchIf, if_pos h]

theorem watchIf_of_ne {i : ℕ} (h : s.lastOper i ≠ some (t.status i)) :
    watchIf cfg t s i =
      sendTrap cfg (s.setLastOper i (t.status i)) (linkOid (t.status i)) (i + 1) (t.link i) := by
  simp only [watchIf]
  rw [if_neg h]
  cases t.status i with
  | up => rfl
  | down => rfl

/-- Looking the manager up changes the manager only. -/
theorem retryManager_cases (cfg : TrapConfig) (s : TrapState) (lookup : Option UInt32) :
    ∃ addr res, retryManager cfg s lookup = { s with mgrAddr := addr, mgrResolved := res } ∧
      (res = true ↔ Resolved cfg s lookup) := by
  rw [retryManager]
  split_ifs with hres
  · exact ⟨s.mgrAddr, true, by rw [← hres], iff_of_true rfl (Or.inl hres)⟩
  · rw [resolveManager]
    rcases haddr : managerAddr cfg lookup with - | addr
    · refine ⟨s.mgrAddr, false, rfl, iff_of_false Bool.false_ne_true ?_⟩
      rintro (h | h)
      · exact hres h
      · rw [haddr] at h
        exact Bool.false_ne_true h
    · exact ⟨addr, true, rfl, iff_of_true rfl (Or.inr (by rw [haddr]; rfl))⟩

/-! ### The coldStart -/

/-- How many coldStart traps have been sent. -/
def TrapState.coldStarts (s : TrapState) : ℕ := s.sent.countP fun d ↦ d.trapOid = oidColdstart

variable (cfg) in
/-- The socket would take a coldStart trap, were the manager resolved. -/
def ColdStartGoes (s : TrapState) (env : SendEnv) : Prop :=
  (trapTree cfg oidColdstart 0 env.uptime (s.trapRequestId + 1)).enc.length ≤ trapBufSize ∧
    env.sendto = true

instance (env : SendEnv) : Decidable (ColdStartGoes cfg s env) :=
  inferInstanceAs (Decidable (_ ∧ _))

/-- **A coldStart is counted exactly when it is accepted.** -/
theorem coldStarts_sendTrap_coldStart (cfg : TrapConfig) (hsock : 0 ≤ s.trapSock)
    (hres : s.mgrResolved = true) (env : SendEnv) :
    (ColdStartGoes cfg s env →
        (sendTrap cfg s oidColdstart 0 env).coldStarts = s.coldStarts + 1 ∧
          (sendTrap cfg s oidColdstart 0 env).mgrResolved = true) ∧
      (¬ ColdStartGoes cfg s env →
        (sendTrap cfg s oidColdstart 0 env).coldStarts = s.coldStarts) := by
  constructor
  · intro hgoes
    have hacc : Accepted cfg s oidColdstart 0 env := ⟨hsock, hres, hgoes⟩
    obtain ⟨hsent, hkept, -⟩ := sendTrap_of_accepted hacc
    rw [TrapState.coldStarts, hsent, List.countP_append, ← TrapState.coldStarts]
    exact ⟨by rw [List.countP_singleton]; simp [sentTrap], hkept⟩
  · intro hgoes
    rw [TrapState.coldStarts, sendTrap_of_not_accepted fun h ↦ hgoes h.2.2, TrapState.coldStarts]

/-- What a report about an interface leaves alone. -/
structure LinkFrame (s t : TrapState) : Prop where
  trapSock : t.trapSock = s.trapSock
  coldstartPending : t.coldstartPending = s.coldstartPending
  coldStarts : t.coldStarts = s.coldStarts

theorem watchIf_frame (cfg : TrapConfig) (t : TrapTick) (s : TrapState) (i : ℕ) :
    LinkFrame s (watchIf cfg t s i) := by
  rcases Decidable.em (s.lastOper i = some (t.status i)) with heq | hne
  · rw [watchIf_of_eq heq]
    exact ⟨rfl, rfl, rfl⟩
  · rw [watchIf_of_ne hne]
    have hframe := sendTrap_frame cfg (s.setLastOper i (t.status i)) (linkOid (t.status i)) (i + 1)
      (t.link i)
    refine ⟨hframe.trapSock, hframe.coldstartPending, ?_⟩
    rcases Decidable.em (Accepted cfg (s.setLastOper i (t.status i)) (linkOid (t.status i)) (i + 1)
      (t.link i)) with hacc | hacc
    · rw [TrapState.coldStarts, (sendTrap_of_accepted hacc).1, List.countP_append,
        List.countP_singleton, if_neg (by simp [sentTrap, linkOid_ne_oidColdstart]),
        Nat.add_zero]
      rfl
    · rw [TrapState.coldStarts, sendTrap_of_not_accepted hacc]
      rfl

theorem foldl_watchIf_frame (cfg : TrapConfig) (t : TrapTick) (s : TrapState) (is : List ℕ) :
    LinkFrame s (is.foldl (watchIf cfg t) s) := by
  induction is generalizing s with
  | nil => exact ⟨rfl, rfl, rfl⟩
  | cons i is ih =>
    have hone := watchIf_frame cfg t s i
    have hrest := ih (watchIf cfg t s i)
    exact ⟨hrest.trapSock.trans hone.trapSock,
      hrest.coldstartPending.trans hone.coldstartPending, hrest.coldStarts.trans hone.coldStarts⟩

/-- **What a round does about a pending coldStart.** It is attempted in the first round that ends
with a resolved manager, and only there. -/
theorem trapWatcher_coldStart (cfg : TrapConfig) (hsock : 0 ≤ s.trapSock) (t : TrapTick) :
    (trapWatcher cfg s t).trapSock = s.trapSock ∧
      ((s.coldstartPending = true ∧ Resolved cfg s t.lookup ∧
          (trapWatcher cfg s t).coldstartPending = false ∧
          (ColdStartGoes cfg s t.coldStart →
            (trapWatcher cfg s t).coldStarts = s.coldStarts + 1) ∧
          (¬ ColdStartGoes cfg s t.coldStart → (trapWatcher cfg s t).coldStarts = s.coldStarts)) ∨
        (¬ (s.coldstartPending = true ∧ Resolved cfg s t.lookup) ∧
          (trapWatcher cfg s t).coldstartPending = s.coldstartPending ∧
          (trapWatcher cfg s t).coldStarts = s.coldStarts)) := by
  obtain ⟨addr, res, hretry, hresolved⟩ := retryManager_cases cfg s t.lookup
  have hlinks := foldl_watchIf_frame cfg t (watchManager cfg s t)
    (List.range cfg.nif)
  rw [← trapWatcher] at hlinks
  rw [hlinks.trapSock, hlinks.coldstartPending, hlinks.coldStarts, watchManager, hretry]
  dsimp only
  split_ifs with hdue
  · obtain ⟨rfl, hpending⟩ := hdue
    have hframe := sendTrap_frame cfg
      { s with mgrAddr := addr, mgrResolved := true, coldstartPending := false } oidColdstart 0
      t.coldStart
    obtain ⟨hgoes, hlost⟩ := coldStarts_sendTrap_coldStart cfg
      (s := { s with mgrAddr := addr, mgrResolved := true, coldstartPending := false }) hsock rfl
      t.coldStart
    exact ⟨hframe.trapSock, Or.inl ⟨hpending, hresolved.1 rfl, hframe.coldstartPending,
      fun h ↦ (hgoes h).1, hlost⟩⟩
  · refine ⟨rfl, Or.inr ⟨?_, rfl, rfl⟩⟩
    exact fun h ↦ hdue ⟨hresolved.2 h.2, h.1⟩

variable (cfg) in
/-- coldStart is announced exactly once. At most one has been sent. Once the watcher runs, it has
been sent, or it is pending and the first round that can reach the manager sends it. -/
def Announced (r : TrapRun) : Prop :=
  r.coldStarts ≤ 1 ∧
    (r.watching = true → r.coldStarts = 1 ∨
      r.coldstartPending = true ∧
        ∀ t : TrapTick, Resolved cfg r.toTrapState t.lookup →
          ColdStartGoes cfg r.toTrapState t.coldStart →
          (trapWatcher cfg r.toTrapState t).coldStarts = 1)

variable (cfg) in
/-- A step that attempts coldStart succeeds. The attempt is made by the start, when the name lookup
finds the manager, and else by the first round that has the manager resolved. -/
def ColdStartTaken (r : TrapRun) : TrapAction → Prop
  | .start b =>
    r.started = false → 0 ≤ b.socket → (managerAddr cfg b.lookup).isSome = true →
      ColdStartGoes cfg r.toTrapState b.coldStart
  | .tick t =>
    r.coldstartPending = true → Resolved cfg r.toTrapState t.lookup →
      ColdStartGoes cfg r.toTrapState t.coldStart

instance : ∀ a : TrapAction, Decidable (ColdStartTaken cfg r a)
  | .start _ => inferInstanceAs (Decidable (_ → _ → _ → _))
  | .tick _ => inferInstanceAs (Decidable (_ → _ → _))

/-- The invariant of the coldStart. -/
structure ColdStartInv (r : TrapRun) : Prop where
  fresh : r.started = false → r.watching = false
  trapSock : r.watching = true → 0 ≤ r.trapSock
  /-- Without a watcher nothing is pending, and nothing has been sent. -/
  idle : r.watching = false → r.coldstartPending = false ∧ r.coldStarts = 0
  once : r.watching = true → r.coldStarts + (if r.coldstartPending then 1 else 0) = 1

theorem ColdStartInv.announced (h : ColdStartInv r) : Announced cfg r := by
  cases hwatch : r.watching with
  | false =>
    exact ⟨by rw [(h.idle hwatch).2]; exact Nat.zero_le 1, fun hw ↦ absurd hw (by simp [hwatch])⟩
  | true =>
    have honce := h.once hwatch
    refine ⟨by omega, fun _ ↦ ?_⟩
    cases hpending : r.coldstartPending with
    | false =>
      rw [hpending] at honce
      exact Or.inl honce
    | true =>
      rw [hpending, if_pos rfl] at honce
      refine Or.inr ⟨rfl, fun t hres hgoes ↦ ?_⟩
      rcases (trapWatcher_coldStart cfg (h.trapSock hwatch) t).2 with
        ⟨-, -, -, hsent, -⟩ | ⟨hno, -, -⟩
      · rw [hsent hgoes]
        omega
      · exact absurd ⟨hpending, hres⟩ hno

theorem coldStartInv_boot : ColdStartInv TrapRun.boot :=
  ⟨fun _ ↦ rfl, fun h ↦ absurd h Bool.false_ne_true, fun _ ↦ ⟨rfl, rfl⟩,
    fun h ↦ absurd h Bool.false_ne_true⟩

/-- What `snmp_trap_start` does about the coldStart once it has a socket. -/
theorem snmpTrapStart_coldStart (cfg : TrapConfig) {b : TrapStart} (hsock : 0 ≤ b.socket)
    (s : TrapState) :
    (snmpTrapStart cfg s b).trapSock = b.socket ∧
      (((managerAddr cfg b.lookup).isSome = true ∧
          (snmpTrapStart cfg s b).coldstartPending = s.coldstartPending ∧
          (ColdStartGoes cfg s b.coldStart →
            (snmpTrapStart cfg s b).coldStarts = s.coldStarts + 1) ∧
          (¬ ColdStartGoes cfg s b.coldStart →
            (snmpTrapStart cfg s b).coldStarts = s.coldStarts)) ∨
        (¬ (managerAddr cfg b.lookup).isSome = true ∧
          (snmpTrapStart cfg s b).coldstartPending = true ∧
          (snmpTrapStart cfg s b).coldStarts = s.coldStarts)) := by
  simp only [snmpTrapStart]
  rw [if_neg (Int.not_lt.2 hsock), resolveManager]
  rcases managerAddr cfg b.lookup with - | addr
  · exact ⟨rfl, Or.inr ⟨Bool.false_ne_true, rfl, rfl⟩⟩
  · dsimp only
    rw [if_pos rfl]
    have hframe := sendTrap_frame cfg
      { s with
        trapSock := b.socket, mgrAddr := addr, mgrPort := cfg.port, mgrResolved := true
        lastOper := fun i ↦ if i < cfg.nif then some (b.status i) else s.lastOper i }
      oidColdstart 0 b.coldStart
    obtain ⟨hgoes, hlost⟩ := coldStarts_sendTrap_coldStart cfg
      (s := { s with
        trapSock := b.socket, mgrAddr := addr, mgrPort := cfg.port, mgrResolved := true
        lastOper := fun i ↦ if i < cfg.nif then some (b.status i) else s.lastOper i })
      hsock rfl b.coldStart
    exact ⟨hframe.trapSock, Or.inl ⟨rfl, hframe.coldstartPending, fun h ↦ (hgoes h).1, hlost⟩⟩

/-- The step that starts the originator. -/
theorem trapStep_start_eq_some {r' : TrapRun} {b : TrapStart}
    (h : trapStep cfg r (.start b) = some r') :
    r.started = false ∧
      r' = { toTrapState := snmpTrapStart cfg r.toTrapState b
             started := true
             watching := 0 ≤ b.socket
             snapshot := fun i ↦ some (b.status i)
             sampled := fun i ↦ some (b.status i) } := by
  rw [trapStep] at h
  split_ifs at h with hstarted
  · exact ⟨Bool.of_not_eq_true hstarted, (Option.some.inj h).symm⟩

/-- A round of the watcher. -/
theorem trapStep_tick_eq_some {r' : TrapRun} (h : trapStep cfg r (.tick t) = some r') :
    r.watching = true ∧
      r' = { r with
        toTrapState := trapWatcher cfg r.toTrapState t, sampled := fun i ↦ some (t.status i) } := by
  rw [trapStep] at h
  split_ifs at h with hwatch
  · exact ⟨hwatch, (Option.some.inj h).symm⟩

theorem ColdStartInv.step {r' : TrapRun} {a : TrapAction} (h : ColdStartInv r)
    (hok : ColdStartTaken cfg r a) (hstep : trapStep cfg r a = some r') : ColdStartInv r' := by
  cases a with
  | start b =>
    obtain ⟨hstarted, rfl⟩ := trapStep_start_eq_some hstep
    obtain ⟨hpending, hnone⟩ := h.idle (h.fresh hstarted)
    refine ⟨fun h' ↦ absurd h' (by simp), fun hw ↦ ?_, fun hw ↦ ?_, fun hw ↦ ?_⟩
    · have hsock := of_decide_eq_true hw
      exact (snmpTrapStart_coldStart cfg hsock _).1.symm ▸ hsock
    · have hneg : b.socket < 0 := Int.not_le.1 (of_decide_eq_false hw)
      simp only [snmpTrapStart]
      rw [if_pos hneg]
      exact ⟨hpending, hnone⟩
    · have hsock := of_decide_eq_true hw
      -- the first attempt was taken, or the trap is pending
      rcases (snmpTrapStart_coldStart cfg hsock r.toTrapState).2 with
        ⟨hres, hpend, hsent, -⟩ | ⟨-, hpend, hsent⟩
      · dsimp only
        rw [hpend, hpending, hsent (hok hstarted hsock hres), hnone]
        rfl
      · dsimp only
        rw [hpend, hsent, hnone]
        rfl
  | tick t =>
    obtain ⟨hwatch, rfl⟩ := trapStep_tick_eq_some hstep
    obtain ⟨hsock, hcase⟩ := trapWatcher_coldStart cfg (h.trapSock hwatch) t
    have honce := h.once hwatch
    refine ⟨h.fresh, fun _ ↦ ?_, fun hw ↦ ?_, fun _ ↦ ?_⟩
    · exact hsock.symm ▸ h.trapSock hwatch
    · exact absurd (hwatch.symm.trans hw) (by decide)
    · -- a pending trap is sent once, when the manager is resolved
      rcases hcase with ⟨hpending, hres, hcleared, hsent, -⟩ | ⟨-, hsame, hcount⟩
      · dsimp only
        rw [hpending, if_pos rfl] at honce
        rw [hcleared, hsent (hok hpending hres)]
        exact honce
      · dsimp only
        rw [hsame, hcount]
        exact honce

/-- **A coldStart that fails is lost**: nothing is pending any more, and nothing was sent. -/
theorem ColdStartInv.lost {a : TrapAction} (h : ColdStartInv r) (hno : ¬ ColdStartTaken cfg r a) :
    ∃ r', trapStep cfg r a = some r' ∧ r'.watching = true ∧ r'.coldstartPending = false ∧
      r'.coldStarts = 0 := by
  cases a with
  | start b =>
    simp only [ColdStartTaken, Classical.not_imp] at hno
    obtain ⟨hstarted, hsock, hres, hgoes⟩ := hno
    obtain ⟨hpending, hnone⟩ := h.idle (h.fresh hstarted)
    refine ⟨_, by rw [trapStep, if_neg (by simp [hstarted])], decide_eq_true hsock, ?_⟩
    rcases (snmpTrapStart_coldStart cfg hsock r.toTrapState).2 with
      ⟨-, hpend, -, hlost⟩ | ⟨hunres, -, -⟩
    · exact ⟨hpend.trans hpending, (hlost hgoes).trans hnone⟩
    · exact absurd hres hunres
  | tick t =>
    simp only [ColdStartTaken, Classical.not_imp] at hno
    obtain ⟨hpending, hres, hgoes⟩ := hno
    have hwatch : r.watching = true := by
      refine Bool.of_not_eq_false fun hw ↦ ?_
      exact absurd (hpending.symm.trans (h.idle hw).1) (by decide)
    have honce := h.once hwatch
    rw [hpending, if_pos rfl] at honce
    refine ⟨{ r with
      toTrapState := trapWatcher cfg r.toTrapState t, sampled := fun i ↦ some (t.status i) },
      by rw [trapStep, if_pos hwatch], hwatch, ?_⟩
    rcases (trapWatcher_coldStart cfg (h.trapSock hwatch) t).2 with
      ⟨-, -, hcleared, -, hlost⟩ | ⟨hno, -, -⟩
    · exact ⟨hcleared, (hlost hgoes).trans (by omega)⟩
    · exact absurd ⟨hpending, hres⟩ hno

theorem ColdStartInv.not_announced {a : TrapAction} (h : ColdStartInv r)
    (hno : ¬ ColdStartTaken cfg r a) : ∃ r', trapStep cfg r a = some r' ∧ ¬ Announced cfg r' := by
  obtain ⟨r', hstep, hwatch, hpending, hnone⟩ := h.lost hno
  refine ⟨r', hstep, fun hP ↦ ?_⟩
  rcases hP.2 hwatch with hsent | ⟨hpending', -⟩
  · rw [hnone] at hsent
    exact absurd hsent (by decide)
  · exact absurd (hpending'.symm.trans hpending) (by decide)

/-- **coldStart is announced exactly once in exactly the runs in which its one attempt succeeds.**
-/
theorem announced_iff (cfg : TrapConfig) (as : List TrapAction) :
    Throughout (trapStep cfg) (Announced cfg) TrapRun.boot as ↔
      AllSteps (trapStep cfg) (ColdStartTaken cfg) TrapRun.boot as :=
  throughout_iff_allSteps (fun _ h ↦ h.announced) (fun _ _ _ h hok hstep ↦ h.step hok hstep)
    (fun _ _ h hno ↦ h.not_announced hno) coldStartInv_boot

/-- The default configuration of the trap originator, on a switch with two interfaces. -/
def trapDefaults : TrapConfig where
  literal := some 0xC0A8440A
  port := 162
  community := "public".toUTF8.toList
  switch := ⟨2, by decide, by decide⟩

/-- The network is not up yet when the agent starts: `sendto` fails. -/
def coldStartLostRun : List TrapAction :=
  [.start ⟨3, none, fun _ ↦ .up, ⟨0, false⟩⟩,
    .tick ⟨none, ⟨100, true⟩, fun _ ↦ .up, fun _ ↦ ⟨100, true⟩⟩]

/-- The coldStart of that run is lost, although the next round reaches the manager. -/
theorem not_announced_coldStartLostRun :
    ¬ Throughout (trapStep trapDefaults) (Announced trapDefaults) TrapRun.boot
      coldStartLostRun := by
  have hno : ¬ ColdStartTaken trapDefaults .boot (.start ⟨3, none, fun _ ↦ .up, ⟨0, false⟩⟩) := by
    decide +kernel
  obtain ⟨r', hstep, hlost⟩ := coldStartInv_boot.not_announced hno
  exact fun h ↦ hlost ((throughout_cons hstep).1 h).2.head

end ThinEdge.Snmp
