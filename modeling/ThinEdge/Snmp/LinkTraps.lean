import Mathlib.Data.List.Chain
import ThinEdge.Snmp.ColdStart

/-!
# Link traps track the interfaces

The link traps that were sent about an interface, as a list of the states they report (`linkTraps`).
`trap_watcher` compares with `last_oper`, which it updates before it attempts the trap. So
`last_oper` is what the manager was told as long as every transition a round sees is sent in that
round (`TransitionsSent`), and then the traps alternate and agree with the interfaces
(`links_tracked`). A transition whose trap fails is not reported later.
-/

namespace ThinEdge.Snmp

open Transition

variable {cfg : TrapConfig} {s : TrapState} {t : TrapTick} {r : TrapRun}

/-! ### What was reported -/

/-- The state a trap reports of the interface with index `n`. -/
def linkOf (n : ℕ) (d : SentTrap) : Option SimIfStatus :=
  if d.ifindex = n then
    if d.trapOid = oidLinkdown then some .down
    else if d.trapOid = oidLinkup then some .up
    else none
  else none

/-- The states that were reported of the interface with index `n`, oldest first. -/
def linkTraps (sent : List SentTrap) (n : ℕ) : List SimIfStatus := sent.filterMap (linkOf n)

/-- The state the manager knows an interface in: the last one reported, or the one at the start. -/
def reported (snapshot : ℕ → Option SimIfStatus) (sent : List SentTrap) (i : ℕ) :
    Option SimIfStatus :=
  (linkTraps sent (i + 1)).getLast?.or (snapshot i)

variable (cfg) in
/-- While the manager is resolved, it knows every interface in the state it was last read in. -/
def ManagerAgrees (r : TrapRun) : Prop :=
  r.watching = true → r.mgrResolved = true →
    ∀ i < cfg.nif, reported r.snapshot r.sent i = r.sampled i

instance : DecidablePred (ManagerAgrees cfg) :=
  fun _ ↦ inferInstanceAs (Decidable (_ → _ → ∀ i < cfg.nif, _))

variable (cfg) in
/-- Link traps track the interfaces: those about an interface alternate, and the manager agrees with
what was read. -/
def LinksTracked (r : TrapRun) : Prop :=
  (∀ n, (linkTraps r.sent n).IsChain (· ≠ ·)) ∧ ManagerAgrees cfg r

variable (cfg) in
/-- What keeps `last_oper` in step with what was reported. -/
structure Tracked (snapshot : ℕ → Option SimIfStatus) (s : TrapState) : Prop where
  alternate : ∀ n, (linkTraps s.sent n).IsChain (· ≠ ·)
  reported : ∀ i < cfg.nif, reported snapshot s.sent i = s.lastOper i

/-! ### One trap -/

theorem linkTraps_append (sent : List SentTrap) (d : SentTrap) (n : ℕ) :
    linkTraps (sent ++ [d]) n = linkTraps sent n ++ (linkOf n d).toList := by
  rw [linkTraps, List.filterMap_append, ← linkTraps]
  cases h : linkOf n d with
  | none => rw [List.filterMap_cons_none h]; rfl
  | some now => rw [List.filterMap_cons_some h]; rfl

theorem linkOf_sentTrap_coldStart (n : ℕ) (env : SendEnv) :
    linkOf n (sentTrap cfg s oidColdstart 0 env) = none := by
  have hdown : oidColdstart ≠ oidLinkdown := by decide
  have hup : oidColdstart ≠ oidLinkup := by decide
  rw [linkOf, sentTrap, if_neg hdown, if_neg hup, ite_self]

theorem linkOf_sentTrap_link (n i : ℕ) (now : SimIfStatus) (env : SendEnv) :
    linkOf n (sentTrap cfg s (linkOid now) (i + 1) env) = if i + 1 = n then some now else none := by
  have hup : oidLinkup ≠ oidLinkdown := by decide
  rw [linkOf, sentTrap]
  cases now with
  | up => rw [linkOid, if_neg hup, if_pos rfl]
  | down => rw [linkOid, if_pos rfl]

/-- A coldStart is no link trap. -/
theorem linkTraps_sendTrap_coldStart (env : SendEnv) (n : ℕ) :
    linkTraps (sendTrap cfg s oidColdstart 0 env).sent n = linkTraps s.sent n := by
  rcases Decidable.em (Accepted cfg s oidColdstart 0 env) with hacc | hacc
  · rw [(sendTrap_of_accepted hacc).1, linkTraps_append, linkOf_sentTrap_coldStart,
      Option.toList_none, List.append_nil]
  · rw [sendTrap_of_not_accepted hacc]

/-- What is tracked depends on the link traps and on `last_oper` only. -/
theorem Tracked.congr {snapshot : ℕ → Option SimIfStatus} {s' : TrapState}
    (h : Tracked cfg snapshot s) (hlinks : ∀ n, linkTraps s'.sent n = linkTraps s.sent n)
    (hlast : s'.lastOper = s.lastOper) : Tracked cfg snapshot s' := by
  refine ⟨fun n ↦ ?_, fun i hi ↦ ?_⟩
  · rw [hlinks]
    exact h.alternate n
  · rw [ThinEdge.Snmp.reported, hlinks, hlast]
    exact h.reported i hi

/-- **A transition that is sent keeps the interfaces tracked.** -/
theorem Tracked.sendTrap_link {snapshot : ℕ → Option SimIfStatus} (h : Tracked cfg snapshot s)
    {i : ℕ} (hi : i < cfg.nif) {now : SimIfStatus} (hne : s.lastOper i ≠ some now) {env : SendEnv}
    (hacc : Accepted cfg s (linkOid now) (i + 1) env) :
    Tracked cfg snapshot (sendTrap cfg (s.setLastOper i now) (linkOid now) (i + 1) env) := by
  have hacc' : Accepted cfg (s.setLastOper i now) (linkOid now) (i + 1) env := hacc
  have hsent : (sendTrap cfg (s.setLastOper i now) (linkOid now) (i + 1) env).sent = s.sent ++ _ :=
    (sendTrap_of_accepted hacc').1
  have hlast : (sendTrap cfg (s.setLastOper i now) (linkOid now) (i + 1) env).lastOper =
      Function.update s.lastOper i (some now) :=
    (sendTrap_frame cfg (s.setLastOper i now) (linkOid now) (i + 1) env).lastOper
  have hold := h.reported i hi
  refine ⟨fun n ↦ ?_, fun j hj ↦ ?_⟩
  · rw [hsent, linkTraps_append, linkOf_sentTrap_link]
    split_ifs with hn
    · subst hn
      refine (h.alternate (i + 1)).append (List.isChain_singleton _) fun a ha b hb ↦ ?_
      rw [Option.toList_some, List.head?_cons, Option.mem_some_iff] at hb
      -- the last trap about the interface reported its old state
      rw [ThinEdge.Snmp.reported, Option.mem_def.1 ha, Option.some_or] at hold
      rintro rfl
      exact hne (hold.symm.trans (congrArg some hb.symm))
    · rw [Option.toList_none, List.append_nil]
      exact h.alternate n
  · rw [hlast, ThinEdge.Snmp.reported, hsent, linkTraps_append, linkOf_sentTrap_link]
    rcases eq_or_ne j i with rfl | hji
    · rw [if_pos rfl, Option.toList_some, List.getLast?_concat, Option.some_or,
        Function.update_self]
    · rw [if_neg (by omega), Option.toList_none, List.append_nil, Function.update_of_ne hji]
      exact h.reported j hj

/-! ### One round -/

/-- The round sees a transition of interface `i`. -/
def Changed (s : TrapState) (t : TrapTick) (i : ℕ) : Prop := s.lastOper i ≠ some (t.status i)

instance : DecidablePred (Changed s t) := fun _ ↦ inferInstanceAs (Decidable (_ ≠ _))

/-- How many traps a round that has the manager resolved attempts before it comes to interface `i`.
-/
def attemptsBefore (s : TrapState) (t : TrapTick) (i : ℕ) : ℕ :=
  (if s.coldstartPending then 1 else 0) + (List.range i).countP (Changed s t ·)

variable (cfg) in
/-- Nothing keeps the round from sending the trap about interface `i`: the manager is resolved, a
pending coldStart does not make the round forget it, the trap fits and `sendto` takes it. -/
structure LinkGoes (s : TrapState) (t : TrapTick) (i : ℕ) : Prop where
  resolved : Resolved cfg s t.lookup
  coldStart : s.coldstartPending = true →
    (trapTree cfg oidColdstart 0 t.coldStart.uptime (s.trapRequestId + 1)).enc.length ≤
      trapBufSize → t.coldStart.sendto = true
  fits : (trapTree cfg (linkOid (t.status i)) (i + 1) (t.link i).uptime
    (s.trapRequestId + Int32.ofNat (attemptsBefore s t i) + 1)).enc.length ≤ trapBufSize
  sendto : (t.link i).sendto = true

instance (i : ℕ) : Decidable (LinkGoes cfg s t i) :=
  decidable_of_iff (Resolved cfg s t.lookup ∧ (_ → _ → _) ∧ _ ∧ _)
    ⟨fun h ↦ ⟨h.1, h.2.1, h.2.2.1, h.2.2.2⟩, fun h ↦ ⟨h.1, h.2, h.3, h.4⟩⟩

variable (cfg) in
/-- Every transition a round sees is sent in that round. -/
def TransitionsSent (r : TrapRun) : TrapAction → Prop
  | .start _ => True
  | .tick t => ∀ i < cfg.nif, Changed r.toTrapState t i → LinkGoes cfg r.toTrapState t i

instance : ∀ a : TrapAction, Decidable (TransitionsSent cfg r a)
  | .start _ => inferInstanceAs (Decidable True)
  | .tick _ => inferInstanceAs (Decidable (∀ i < cfg.nif, _ → _))

/-- The first part of a round does not touch what is tracked. -/
theorem watchManager_frame (cfg : TrapConfig) (s : TrapState) (t : TrapTick) :
    (watchManager cfg s t).trapSock = s.trapSock ∧ (watchManager cfg s t).lastOper = s.lastOper ∧
      ∀ n, linkTraps (watchManager cfg s t).sent n = linkTraps s.sent n := by
  obtain ⟨addr, res, hretry, -⟩ := retryManager_cases cfg s t.lookup
  rw [watchManager, hretry]
  dsimp only
  split_ifs with hdue
  · have hframe := sendTrap_frame cfg
      { s with mgrAddr := addr, mgrResolved := res, coldstartPending := false } oidColdstart 0
      t.coldStart
    exact ⟨hframe.trapSock, hframe.lastOper, linkTraps_sendTrap_coldStart t.coldStart⟩
  · exact ⟨rfl, rfl, fun _ ↦ rfl⟩

/-- The first part of a round that can send leaves the manager resolved. -/
theorem LinkGoes.watchManager_resolved {i : ℕ} (h : LinkGoes cfg s t i) (hsock : 0 ≤ s.trapSock) :
    (watchManager cfg s t).mgrResolved = true ∧
      (watchManager cfg s t).trapRequestId =
        s.trapRequestId + Int32.ofNat (attemptsBefore s t 0) := by
  obtain ⟨addr, res, hretry, hresolved⟩ := retryManager_cases cfg s t.lookup
  obtain rfl := hresolved.2 h.resolved
  rw [watchManager, hretry, attemptsBefore]
  dsimp only
  split_ifs with hdue hpending hpending
  · exact sendTrap_of_resolved hsock rfl (h.coldStart hpending)
  · exact absurd hdue.2 hpending
  · exact absurd ⟨rfl, hpending⟩ hdue
  · exact ⟨rfl, (Int32.add_zero _).symm⟩

variable (cfg) in
/-- The loop over the interfaces has come to interface `k`, in state `u`. -/
structure Watched (snapshot : ℕ → Option SimIfStatus) (s : TrapState) (t : TrapTick) (k : ℕ)
    (u : TrapState) : Prop where
  tracked : Tracked cfg snapshot u
  trapSock : u.trapSock = s.trapSock
  lastOper : ∀ j, u.lastOper j = if j < k then some (t.status j) else s.lastOper j
  /-- The manager is still resolved when the round has something to send. -/
  resolved : ∀ i < cfg.nif, Changed s t i →
    u.mgrResolved = true ∧
      u.trapRequestId = s.trapRequestId + Int32.ofNat (attemptsBefore s t k)

/-- **One interface**: an unchanged one is passed over, a transition is sent. -/
theorem Watched.step {snapshot : ℕ → Option SimIfStatus} {k : ℕ} {u : TrapState}
    (hsock : 0 ≤ s.trapSock) (hgoes : ∀ i < cfg.nif, Changed s t i → LinkGoes cfg s t i)
    (hk : k < cfg.nif) (h : Watched cfg snapshot s t k u) :
    Watched cfg snapshot s t (k + 1) (watchIf cfg t u k) := by
  have hold : u.lastOper k = s.lastOper k := by rw [h.lastOper, if_neg (Nat.lt_irrefl k)]
  have hcount : attemptsBefore s t (k + 1) =
      attemptsBefore s t k + if Changed s t k then 1 else 0 := by
    rw [attemptsBefore, List.range_succ, List.countP_append, List.countP_singleton, attemptsBefore]
    simp only [decide_eq_true_eq]
    omega
  rcases Decidable.em (Changed s t k) with hch | hch
  · -- the interface changed, and its trap goes out
    have hne : u.lastOper k ≠ some (t.status k) := hold ▸ hch
    obtain ⟨hres, hid⟩ := h.resolved k hk hch
    have hlink := hgoes k hk hch
    have hacc : Accepted cfg u (linkOid (t.status k)) (k + 1) (t.link k) :=
      ⟨h.trapSock ▸ hsock, hres, hid ▸ hlink.fits, hlink.sendto⟩
    have hacc' : Accepted cfg (u.setLastOper k (t.status k)) (linkOid (t.status k)) (k + 1)
      (t.link k) := hacc
    have hframe := sendTrap_frame cfg (u.setLastOper k (t.status k)) (linkOid (t.status k)) (k + 1)
      (t.link k)
    obtain ⟨-, hres', hid'⟩ := sendTrap_of_accepted hacc'
    rw [watchIf_of_ne hne]
    refine ⟨h.tracked.sendTrap_link hk hne hacc, hframe.trapSock.trans h.trapSock, fun j ↦ ?_,
      fun _ _ _ ↦ ⟨hres', ?_⟩⟩
    · rw [hframe.lastOper, TrapState.lastOper_setLastOper]
      rcases eq_or_ne j k with rfl | hjk
      · rw [Function.update_self, if_pos (Nat.lt_succ_self j)]
      · rw [Function.update_of_ne hjk, h.lastOper]
        exact if_congr (by omega) rfl rfl
    · rw [hid', hcount, if_pos hch, Int32.ofNat_add, ← Int32.add_assoc, ← hid]
      rfl
  · -- it did not change, and nothing is sent
    have heq : u.lastOper k = some (t.status k) := hold.trans (not_not.1 hch)
    rw [watchIf_of_eq heq]
    refine ⟨h.tracked, h.trapSock, fun j ↦ ?_, fun i hi hi' ↦ ?_⟩
    · rcases eq_or_ne j k with rfl | hjk
      · rw [heq, if_pos (Nat.lt_succ_self j)]
      · rw [h.lastOper]
        exact if_congr (by omega) rfl rfl
    · rw [hcount, if_neg hch]
      exact h.resolved i hi hi'

/-- **A round that sends every transition it sees keeps the interfaces tracked**, and has
`last_oper` where it has read the interfaces. -/
theorem Tracked.trapWatcher {snapshot : ℕ → Option SimIfStatus} (h : Tracked cfg snapshot s)
    (hsock : 0 ≤ s.trapSock) (hgoes : ∀ i < cfg.nif, Changed s t i → LinkGoes cfg s t i) :
    Tracked cfg snapshot (trapWatcher cfg s t) ∧
      (trapWatcher cfg s t).trapSock = s.trapSock ∧
      ∀ i < cfg.nif, (trapWatcher cfg s t).lastOper i = some (t.status i) := by
  obtain ⟨hsock', hlast, hlinks⟩ := watchManager_frame cfg s t
  have h0 : Watched cfg snapshot s t 0 (watchManager cfg s t) := by
    refine ⟨h.congr hlinks hlast, hsock', fun j ↦ ?_, fun i hi hch ↦ ?_⟩
    · rw [hlast, if_neg (Nat.not_lt_zero j)]
    · exact (hgoes i hi hch).watchManager_resolved hsock
  have hall : ∀ k ≤ cfg.nif,
      Watched cfg snapshot s t k ((List.range k).foldl (watchIf cfg t) (watchManager cfg s t)) := by
    intro k hk
    induction k with
    | zero => exact h0
    | succ k ih =>
      rw [List.range_succ, List.foldl_append]
      exact (ih (Nat.le_of_succ_le hk)).step hsock hgoes hk
  have hend := hall cfg.nif (Nat.le_refl _)
  refine ⟨hend.tracked, hend.trapSock, fun i hi ↦ ?_⟩
  rw [ThinEdge.Snmp.trapWatcher, hend.lastOper, if_pos hi]

/-! ### Runs -/

variable (cfg) in
/-- The invariant of the link traps. -/
structure LinkInv (r : TrapRun) : Prop where
  /-- Without a watcher no link trap has been sent. -/
  fresh : r.started = false → r.watching = false
  idle : r.watching = false → ∀ n, linkTraps r.sent n = []
  trapSock : r.watching = true → 0 ≤ r.trapSock
  tracked : r.watching = true → Tracked cfg r.snapshot r.toTrapState
  sampled : r.watching = true → ∀ i < cfg.nif, r.lastOper i = r.sampled i

theorem LinkInv.linksTracked (h : LinkInv cfg r) : LinksTracked cfg r := by
  constructor
  · intro n
    cases hwatch : r.watching with
    | false =>
      rw [h.idle hwatch]
      exact List.isChain_nil
    | true => exact (h.tracked hwatch).alternate n
  · intro hwatch _ i hi
    rw [(h.tracked hwatch).reported i hi, h.sampled hwatch i hi]

theorem linkInv_boot : LinkInv cfg TrapRun.boot :=
  ⟨fun _ ↦ rfl, fun _ _ ↦ rfl, fun h ↦ absurd h Bool.false_ne_true,
    fun h ↦ absurd h Bool.false_ne_true, fun h ↦ absurd h Bool.false_ne_true⟩

/-- The start sends no link trap, and takes the snapshot it compares with. -/
theorem snmpTrapStart_links (cfg : TrapConfig) (s : TrapState) (b : TrapStart) :
    (snmpTrapStart cfg s b).trapSock = b.socket ∧
      (∀ n, linkTraps (snmpTrapStart cfg s b).sent n = linkTraps s.sent n) ∧
      (0 ≤ b.socket → ∀ i < cfg.nif, (snmpTrapStart cfg s b).lastOper i = some (b.status i)) := by
  simp only [snmpTrapStart]
  split_ifs with hneg hres
  · exact ⟨rfl, fun _ ↦ rfl, fun h ↦ absurd hneg (Int.not_lt.2 h)⟩
  all_goals
    revert hres
    rw [resolveManager]
    rcases managerAddr cfg b.lookup with - | addr
  · exact fun hres ↦ absurd hres Bool.false_ne_true
  · intro _
    have hframe := sendTrap_frame cfg
      { s with
        trapSock := b.socket, mgrAddr := addr, mgrPort := cfg.port, mgrResolved := true
        lastOper := fun i ↦ if i < cfg.nif then some (b.status i) else s.lastOper i }
      oidColdstart 0 b.coldStart
    refine ⟨hframe.trapSock, linkTraps_sendTrap_coldStart b.coldStart, fun _ i hi ↦ ?_⟩
    exact (congrFun hframe.lastOper i).trans (if_pos hi)
  · exact fun _ ↦ ⟨rfl, fun _ ↦ rfl, fun _ i hi ↦ if_pos hi⟩
  · exact fun hres ↦ absurd rfl hres

theorem LinkInv.step {r' : TrapRun} {a : TrapAction} (h : LinkInv cfg r)
    (hok : TransitionsSent cfg r a) (hstep : trapStep cfg r a = some r') : LinkInv cfg r' := by
  cases a with
  | start b =>
    obtain ⟨hstarted, rfl⟩ := trapStep_start_eq_some hstep
    obtain ⟨hsock, hlinks, hlast⟩ := snmpTrapStart_links cfg r.toTrapState b
    have hnone : ∀ n, linkTraps (snmpTrapStart cfg r.toTrapState b).sent n = [] := fun n ↦
      (hlinks n).trans (h.idle (h.fresh hstarted) n)
    refine ⟨fun h' ↦ absurd h' (by simp), fun _ ↦ hnone, fun hw ↦ ?_, fun hw ↦ ?_, fun hw ↦ ?_⟩
    · exact hsock.symm ▸ of_decide_eq_true hw
    · refine ⟨fun n ↦ ?_, fun i hi ↦ ?_⟩
      · rw [hnone]
        exact List.isChain_nil
      · rw [reported, hnone, List.getLast?_nil, Option.none_or]
        exact (hlast (of_decide_eq_true hw) i hi).symm
    · exact hlast (of_decide_eq_true hw)
  | tick t =>
    obtain ⟨hwatch, rfl⟩ := trapStep_tick_eq_some hstep
    obtain ⟨htracked, hsock, hlast⟩ := (h.tracked hwatch).trapWatcher (h.trapSock hwatch) hok
    exact ⟨h.fresh, fun hw ↦ absurd (hwatch.symm.trans hw) (by decide),
      fun _ ↦ hsock.symm ▸ h.trapSock hwatch, fun _ ↦ htracked, fun _ ↦ hlast⟩

/-- **Link traps track the interfaces** in every run in which every transition a round sees is sent
in that round. -/
theorem links_tracked (cfg : TrapConfig) (as : List TrapAction)
    (h : AllSteps (trapStep cfg) (TransitionsSent cfg) TrapRun.boot as) :
    Throughout (trapStep cfg) (LinksTracked cfg) TrapRun.boot as :=
  (throughout_of_invariant (fun _ _ _ hr hok hstep ↦ hr.step hok hstep) linkInv_boot h).imp
    fun _ hr ↦ hr.linksTracked

/-- Only interface 0 is down. -/
def firstDown (i : ℕ) : SimIfStatus := if i = 0 then .down else .up

/-- Interface 0 goes down and comes back, and both traps are sent. -/
def linkFlapRun : List TrapAction :=
  [.start ⟨3, none, fun _ ↦ .up, ⟨0, true⟩⟩,
    .tick ⟨none, ⟨100, true⟩, firstDown, fun _ ↦ ⟨100, true⟩⟩,
    .tick ⟨none, ⟨200, true⟩, fun _ ↦ .up, fun _ ↦ ⟨200, true⟩⟩]

theorem links_tracked_linkFlapRun :
    Throughout (trapStep trapDefaults) (LinksTracked trapDefaults) TrapRun.boot linkFlapRun :=
  links_tracked trapDefaults linkFlapRun (by decide +kernel)

/-- Interface 0 goes down while the manager cannot be reached. The next round has the manager
resolved again. -/
def linkDownLostRun : List TrapAction :=
  [.start ⟨3, none, fun _ ↦ .up, ⟨0, true⟩⟩,
    .tick ⟨none, ⟨100, true⟩, firstDown, fun _ ↦ ⟨100, false⟩⟩,
    .tick ⟨none, ⟨200, true⟩, firstDown, fun _ ↦ ⟨200, true⟩⟩]

/-- The manager still takes interface 0 to be up. -/
theorem not_linksTracked_linkDownLostRun :
    ¬ Throughout (trapStep trapDefaults) (LinksTracked trapDefaults) TrapRun.boot
      linkDownLostRun := by
  intro h
  have hagree : Throughout (trapStep trapDefaults) (ManagerAgrees trapDefaults) TrapRun.boot
      linkDownLostRun := h.imp fun _ hr ↦ hr.2
  revert hagree
  decide +kernel

end ThinEdge.Snmp
