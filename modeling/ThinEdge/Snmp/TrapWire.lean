import ThinEdge.Snmp.LinkTraps

/-!
# Traps on the wire

Whatever a run of the trap originator encodes is one of its three notifications. `WiredInv` keeps
this for the list of attempts, in which the place of an attempt is its request-id: the first one has
request-id 1, and none is left out. `traps_readBack` says that every datagram handed to `sendto`
fits its buffer and is read back for what it was built from.
-/

namespace ThinEdge.Snmp

open Cursor (Checked)
open Transition

variable {cfg : TrapConfig} {s : TrapState} {r : TrapRun}

/-- The notifications of the originator. -/
def Notification (cfg : TrapConfig) (trapOid : List ℕ) (ifindex : ℕ) : Prop :=
  (trapOid = oidColdstart ∧ ifindex = 0) ∨
    ((trapOid = oidLinkdown ∨ trapOid = oidLinkup) ∧ 0 < ifindex ∧ ifindex ≤ cfg.nif)

/-- The message of an attempt, with its request-id. -/
def TrapAttempt.tree (cfg : TrapConfig) (x : TrapAttempt) (requestId : Int32) : BerTree :=
  trapTree cfg x.trapOid x.ifindex x.uptime requestId

/-- An attempt at a notification hands the encoded message to `sendto`, when it fits. -/
structure Wired (cfg : TrapConfig) (x : TrapAttempt) (requestId : Int32) : Prop where
  notification : Notification cfg x.trapOid x.ifindex
  datagram_eq : x.datagram =
    if (x.tree cfg requestId).enc.length ≤ trapBufSize then some (x.tree cfg requestId).enc
    else none

/-- The notifications that were handed to `sendto`, with their datagrams. -/
def handed (xs : List TrapAttempt) : List (List ℕ × ℕ × List UInt8) :=
  xs.filterMap fun x ↦ x.datagram.map fun d ↦ (x.trapOid, x.ifindex, d)

/-- The notifications that the socket took, with their datagrams. -/
def taken (ds : List SentTrap) : List (List ℕ × ℕ × List UInt8) :=
  ds.map fun d ↦ (d.trapOid, d.ifindex, d.datagram)

/-- The invariant of the attempts and of what was sent. -/
structure WiredInv (cfg : TrapConfig) (s : TrapState) : Prop where
  requestId : s.trapRequestId = Int32.ofNat s.attempts.length
  wired : ∀ i x, s.attempts[i]? = some x → Wired cfg x (Int32.ofNat (i + 1))
  sent : (taken s.sent).Sublist (handed s.attempts)

theorem WiredInv.congr {s' : TrapState} (h : WiredInv cfg s)
    (hid : s'.trapRequestId = s.trapRequestId) (hattempts : s'.attempts = s.attempts)
    (hsent : s'.sent = s.sent) : WiredInv cfg s' := by
  obtain ⟨hreq, hwired, hsub⟩ := h
  refine ⟨?_, ?_, ?_⟩
  · rw [hid, hattempts, hreq]
  · rw [hattempts]
    exact hwired
  · rw [hsent, hattempts]
    exact hsub

/-! ### One attempt -/

theorem handed_append (xs ys : List TrapAttempt) : handed (xs ++ ys) = handed xs ++ handed ys :=
  List.filterMap_append

theorem sendTrap_of_stuck {trapOid : List ℕ} {ifindex : ℕ} {env : SendEnv}
    (h : s.trapSock < 0 ∨ s.mgrResolved = false) : sendTrap cfg s trapOid ifindex env = s :=
  if_pos h

theorem WiredInv.sendTrap (h : WiredInv cfg s) {trapOid : List ℕ} {ifindex : ℕ}
    (hnote : Notification cfg trapOid ifindex) (env : SendEnv) :
    WiredInv cfg (sendTrap cfg s trapOid ifindex env) := by
  by_cases hstuck : s.trapSock < 0 ∨ s.mgrResolved = false
  · rw [sendTrap_of_stuck hstuck]
    exact h
  · rw [not_or] at hstuck
    have hres : s.mgrResolved = true := Bool.of_not_eq_false hstuck.2
    obtain ⟨hid, hattempts⟩ := @sendTrap_attempts cfg s trapOid ifindex env
      (Int.not_lt.1 hstuck.1) hres
    have hnext : s.trapRequestId + 1 = Int32.ofNat (s.attempts.length + 1) := by
      rw [h.requestId, Int32.ofNat_add]
      rfl
    rw [hnext] at hid hattempts
    refine ⟨?_, fun i x hx ↦ ?_, ?_⟩
    · rw [hid, hattempts, List.length_append, List.length_singleton]
    · -- the attempts before keep their places
      rw [hattempts] at hx
      rcases Nat.lt_or_ge i s.attempts.length with hlt | hge
      · rw [List.getElem?_append_left hlt] at hx
        exact h.wired i x hx
      · rw [List.getElem?_append_right hge, List.getElem?_singleton] at hx
        split at hx
        · next hi =>
          obtain rfl := Option.some.inj hx
          obtain rfl : i = s.attempts.length := by omega
          exact ⟨hnote, rfl⟩
        · cases hx
    · by_cases hacc : Accepted cfg s trapOid ifindex env
      · -- what the socket takes was handed to it in this attempt
        have hfits := hacc.2.2.1
        rw [hnext] at hfits
        rw [(sendTrap_of_accepted hacc).1, hattempts, handed_append, taken, List.map_append,
          if_pos hfits, ← hnext]
        exact h.sent.append (List.Sublist.refl _)
      · rw [sendTrap_of_not_accepted hacc, hattempts, handed_append]
        exact h.sent.trans (List.sublist_append_left _ _)

/-! ### Runs -/

theorem notification_coldStart (cfg : TrapConfig) : Notification cfg oidColdstart 0 :=
  Or.inl ⟨rfl, rfl⟩

theorem notification_linkOid (now : SimIfStatus) {i : ℕ} (h : i < cfg.nif) :
    Notification cfg (linkOid now) (i + 1) := by
  refine Or.inr ⟨?_, Nat.succ_pos i, h⟩
  cases now with
  | up => exact Or.inr rfl
  | down => exact Or.inl rfl

theorem WiredInv.watchIf (h : WiredInv cfg s) (t : TrapTick) {i : ℕ} (hi : i < cfg.nif) :
    WiredInv cfg (watchIf cfg t s i) := by
  by_cases heq : s.lastOper i = some (t.status i)
  · rw [watchIf_of_eq heq]
    exact h
  · rw [watchIf_of_ne heq]
    have hset : WiredInv cfg (s.setLastOper i (t.status i)) := h.congr rfl rfl rfl
    exact hset.sendTrap (notification_linkOid (t.status i) hi) (t.link i)

theorem WiredInv.foldl_watchIf (t : TrapTick) {is : List ℕ} (his : ∀ i ∈ is, i < cfg.nif)
    (h : WiredInv cfg s) : WiredInv cfg (is.foldl (Snmp.watchIf cfg t) s) := by
  induction is generalizing s with
  | nil => exact h
  | cons i is ih =>
    exact ih (fun j hj ↦ his j (List.mem_cons_of_mem i hj)) (h.watchIf t (his i List.mem_cons_self))

theorem WiredInv.resolveManager (h : WiredInv cfg s) (lookup : Option UInt32) :
    WiredInv cfg (resolveManager cfg s lookup) := by
  rw [Snmp.resolveManager]
  rcases managerAddr cfg lookup with - | addr
  · exact h.congr rfl rfl rfl
  · exact h.congr rfl rfl rfl

theorem WiredInv.watchManager (h : WiredInv cfg s) (t : TrapTick) :
    WiredInv cfg (watchManager cfg s t) := by
  have hretry : WiredInv cfg (retryManager cfg s t.lookup) := by
    rw [retryManager]
    split
    · exact h
    · exact h.resolveManager t.lookup
  rw [Snmp.watchManager]
  split
  · refine WiredInv.sendTrap ?_ (notification_coldStart cfg) t.coldStart
    exact hretry.congr rfl rfl rfl
  · exact hretry

theorem WiredInv.trapWatcher (h : WiredInv cfg s) (t : TrapTick) :
    WiredInv cfg (trapWatcher cfg s t) :=
  WiredInv.foldl_watchIf t (fun _ hi ↦ List.mem_range.1 hi) (h.watchManager t)

theorem WiredInv.snmpTrapStart (h : WiredInv cfg s) (b : TrapStart) :
    WiredInv cfg (snmpTrapStart cfg s b) := by
  rw [Snmp.snmpTrapStart]
  split
  · exact h.congr rfl rfl rfl
  · have hres : WiredInv cfg (Snmp.resolveManager cfg
        { s with trapSock := b.socket, mgrAddr := 0, mgrPort := cfg.port } b.lookup) := by
      refine WiredInv.resolveManager ?_ b.lookup
      exact h.congr rfl rfl rfl
    dsimp only
    split
    · refine WiredInv.sendTrap ?_ (notification_coldStart cfg) b.coldStart
      exact hres.congr rfl rfl rfl
    · exact hres.congr rfl rfl rfl

theorem wiredInv_boot : WiredInv cfg TrapRun.boot.toTrapState where
  requestId := rfl
  wired := fun _ _ h ↦ absurd h (by simp [TrapRun.boot, TrapState.boot])
  sent := .slnil

theorem WiredInv.step {r' : TrapRun} {a : TrapAction} (h : WiredInv cfg r.toTrapState)
    (hstep : trapStep cfg r a = some r') : WiredInv cfg r'.toTrapState := by
  cases a with
  | start b =>
    obtain ⟨-, rfl⟩ := trapStep_start_eq_some hstep
    exact h.snmpTrapStart b
  | tick t =>
    obtain ⟨-, rfl⟩ := trapStep_tick_eq_some hstep
    exact h.trapWatcher t

/-- What holds of the datagrams in every run. -/
theorem wiredInv_throughout (cfg : TrapConfig) (as : List TrapAction) :
    Throughout (trapStep cfg) (fun r ↦ WiredInv cfg r.toTrapState) TrapRun.boot as :=
  @throughout_of_forall _ _ (trapStep cfg) (fun r ↦ WiredInv cfg r.toTrapState)
    (fun _ _ _ hr hstep ↦ hr.step hstep) _ wiredInv_boot as

/-- What the socket took carries the notification it was built for. -/
theorem WiredInv.of_mem_sent (h : WiredInv cfg s) {d : SentTrap} (hd : d ∈ s.sent) :
    Notification cfg d.trapOid d.ifindex ∧ d.datagram.length ≤ trapBufSize ∧
      ∃ uptime requestId, d.datagram = (trapTree cfg d.trapOid d.ifindex uptime requestId).enc := by
  have hmem : (d.trapOid, d.ifindex, d.datagram) ∈ handed s.attempts :=
    h.sent.subset (List.mem_map_of_mem hd)
  obtain ⟨x, hx, hsome⟩ := List.mem_filterMap.1 hmem
  obtain ⟨data, hdata, heq⟩ := Option.map_eq_some_iff.1 hsome
  obtain ⟨i, hi⟩ := List.getElem?_of_mem hx
  obtain ⟨hnote, hwired⟩ := h.wired i x hi
  obtain ⟨hoid, hindex, hbytes⟩ : x.trapOid = d.trapOid ∧ x.ifindex = d.ifindex ∧
      data = d.datagram := by simpa using heq
  rw [hdata] at hwired
  split at hwired
  · next hfits =>
    obtain rfl := Option.some.inj hwired
    rw [← hoid, ← hindex, ← hbytes]
    exact ⟨hnote, hfits, x.uptime, _, rfl⟩
  · cases hwired

/-! ### Reading the traps -/

/-- A tree is read from its bytes by the decoder, which is then at their end. -/
theorem readTree_enc {t : BerTree} (ht : t.Valid) (hlen : t.enc.length < 2 ^ 32) :
    ∃ d, readTree t.enc t.shape (berDecInit 0 t.enc.length) = .ok (some t, d) ∧
      d.done = true := by
  have htake : takeTree t.shape t.enc = some (t, []) := by
    have := takeTree_enc t ht hlen []
    rwa [List.append_nil] at this
  rw [berDecInit_whole rfl]
  obtain ⟨d, ⟨-, hnone⟩ | ⟨t', b, rest, hread, htake', rfl, hrest⟩⟩ :=
    (@readTree_implements t.enc t.shape).whole
  · rw [htake] at hnone
    exact absurd hnone (by simp)
  · rw [htake] at htake'
    obtain ⟨rfl, rfl⟩ := Prod.mk.inj (Option.some.inj htake')
    exact ⟨d, hread, hrest.1 rfl⟩

/-- The elements of a trap, of which only those about an interface have the third varbind. -/
def trapShape (link : Bool) : BerShape :=
  .node berTagSequence
    [.int, .octets,
      .node snmpPduTrapV2
        [.int, .int, .int,
          .node berTagSequence
            ([.node berTagSequence [.oid, .uint berTagTimeticks],
                .node berTagSequence [.oid, .oid]] ++
              if link then [.node berTagSequence [.oid, .int]] else [])]]

theorem shape_trapTree (cfg : TrapConfig) (trapOid : List ℕ) (ifindex : ℕ) (uptime : UInt32)
    (requestId : Int32) :
    (trapTree cfg trapOid ifindex uptime requestId).shape = trapShape (0 < ifindex) := by
  rw [trapTree, trapShape]
  by_cases h : 0 < ifindex
  · simp [h, BerTree.shape, BerTree.shapes]
  · simp [h, BerTree.shape, BerTree.shapes]

theorem nif_le (cfg : TrapConfig) : cfg.nif ≤ 8 := by
  rw [TrapConfig.nif, SwitchConfig.simSwitchIfCount, simSwitchMaxIf]
  split_ifs <;> omega

/-- Every OID of a notification is one that the decoder reads back. -/
theorem Notification.valid {trapOid : List ℕ} {ifindex : ℕ} (h : Notification cfg trapOid ifindex)
    (uptime : UInt32) (requestId : Int32) :
    (trapTree cfg trapOid ifindex uptime requestId).Valid := by
  have hnif := nif_le cfg
  have huptime : PlainOid oidSysuptime := by simp [PlainOid, oidSysuptime, berMaxOidLen]
  have htrap : PlainOid oidTrapoid := by simp [PlainOid, oidTrapoid, berMaxOidLen]
  have hoid : PlainOid trapOid := by
    rcases h with ⟨rfl, -⟩ | ⟨rfl | rfl, -⟩
    · simp [PlainOid, oidColdstart, berMaxOidLen]
    · simp [PlainOid, oidLinkdown, berMaxOidLen]
    · simp [PlainOid, oidLinkup, berMaxOidLen]
  have hindex : ifindex ≤ 8 := by
    rcases h with ⟨-, rfl⟩ | ⟨-, -, hle⟩
    · exact Nat.zero_le 8
    · exact hle.trans hnif
  have hcell : PlainOid (oidIfindexCol ++ [ifindex]) := by
    simp [PlainOid, oidIfindexCol, berMaxOidLen]
    omega
  rw [trapTree]
  by_cases hlink : 0 < ifindex
  · simp [hlink, BerTree.Valid, BerTree.AllValid, huptime, htrap, hoid, hcell]
  · simp [hlink, BerTree.Valid, BerTree.AllValid, huptime, htrap, hoid]

/-- What an attempt handed to `sendto` fits the buffer and is a whole Trap message: the version, the
community, this request-id, no error, the uptime the agent had, the notification that it was built
for, and for a link its `ifIndex`. It is handed over exactly when it fits. -/
structure ReadBack (cfg : TrapConfig) (x : TrapAttempt) (requestId : Int32) : Prop where
  notification : Notification cfg x.trapOid x.ifindex
  fits : ∀ d, x.datagram = some d → d.length ≤ trapBufSize
  reads : ∀ d, x.datagram = some d → ∃ dec,
    readTree d (trapShape (0 < x.ifindex)) (berDecInit 0 d.length) =
        .ok (some (x.tree cfg requestId), dec) ∧
      dec.done = true
  handed_iff : x.datagram ≠ none ↔ (x.tree cfg requestId).enc.length ≤ trapBufSize

theorem Wired.readBack {x : TrapAttempt} {requestId : Int32} (h : Wired cfg x requestId) :
    ReadBack cfg x requestId := by
  obtain ⟨hnote, hdata⟩ := h
  have hlt : trapBufSize < 2 ^ 32 := by decide
  by_cases hfits : (x.tree cfg requestId).enc.length ≤ trapBufSize
  · rw [if_pos hfits] at hdata
    obtain ⟨dec, hread, hdone⟩ := readTree_enc (hnote.valid x.uptime requestId)
      (Nat.lt_of_le_of_lt hfits hlt)
    rw [shape_trapTree] at hread
    refine ⟨hnote, fun d hd ↦ ?_, fun d hd ↦ ?_, ?_⟩
    · obtain rfl := Option.some.inj (hdata.symm.trans hd)
      exact hfits
    · obtain rfl := Option.some.inj (hdata.symm.trans hd)
      exact ⟨dec, hread, hdone⟩
    · rw [hdata]
      exact iff_of_true (by simp) hfits
  · rw [if_neg hfits] at hdata
    refine ⟨hnote, fun d hd ↦ ?_, fun d hd ↦ ?_, ?_⟩
    · rw [hdata] at hd
      cases hd
    · rw [hdata] at hd
      cases hd
    · rw [hdata]
      exact iff_of_false (by simp) hfits

/-- **What is sent is read back**, in every run, whatever the manager's name resolves to, whatever
`sendto` refuses, and however the interfaces change. The request-ids are consecutive from 1 on,
modulo `2 ^ 32`: the attempt in place `i` has `i + 1`. What the socket took are some of these
datagrams, in their order. -/
theorem traps_readBack (cfg : TrapConfig) (as : List TrapAction) :
    Throughout (trapStep cfg)
      (fun r ↦ r.trapRequestId = Int32.ofNat r.attempts.length ∧
        (∀ i x, r.attempts[i]? = some x → ReadBack cfg x (Int32.ofNat (i + 1))) ∧
        (taken r.sent).Sublist (handed r.attempts)) TrapRun.boot as :=
  (wiredInv_throughout cfg as).imp fun _ h ↦
    ⟨h.requestId, fun i x hx ↦ (h.wired i x hx).readBack, h.sent⟩

end ThinEdge.Snmp
