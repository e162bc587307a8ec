import Mathlib.Logic.Function.Basic
import ThinEdge.Snmp.BerTree
import ThinEdge.Snmp.Response

/-!
# Originating traps

`lib/snmp/snmp_trap.c`: a trap is encoded backward into `trap_buf` and handed to the socket as one
datagram, at the start of the agent (coldStart) and by a watcher thread that polls the interfaces of
the simulated switch (linkDown, linkUp). `TrapState` is the static data of the file together with
the traps that were encoded and those the socket accepted, so that what was sent can be spoken
about.

The environment answers three kinds of questions, and its answers are parameters: the name lookup of
the manager (`lookup`), the status of an interface, and for every trap the uptime it carries and
whether `sendto` takes it (`SendEnv`).

A trap goes out exactly when the socket is open, the manager is resolved, the message fits and
`sendto` takes it (`Accepted`); `sendTrap_of_accepted` and `sendTrap_of_not_accepted` say what
`send_trap` does in the two cases. Neither tells the caller.
-/

namespace ThinEdge.Snmp

/-- `enum sim_if_status`. -/
inductive SimIfStatus
  | up
  | down
deriving DecidableEq

/-- `SNMP_PDU_TRAP_V2`. -/
def snmpPduTrapV2 : UInt8 := 0xA7

/-- The size of `trap_buf`. -/
def trapBufSize : ℕ := 512

/-! ### Well-known OIDs -/

def oidSysuptime : List ℕ := [1, 3, 6, 1, 2, 1, 1, 3, 0]
def oidTrapoid : List ℕ := [1, 3, 6, 1, 6, 3, 1, 1, 4, 1, 0]
def oidColdstart : List ℕ := [1, 3, 6, 1, 6, 3, 1, 1, 5, 1]
def oidLinkdown : List ℕ := [1, 3, 6, 1, 6, 3, 1, 1, 5, 3]
def oidLinkup : List ℕ := [1, 3, 6, 1, 6, 3, 1, 1, 5, 4]

/-- The `ifIndex` column, without the row. -/
def oidIfindexCol : List ℕ := [1, 3, 6, 1, 2, 1, 2, 2, 1, 1]

/-! ### The state -/

/-- The configuration of the trap originator and of the switch it watches. -/
structure TrapConfig where
  /-- The address that `CONFIG_APP_SNMP_TRAP_MANAGER` spells, when it is a literal one. -/
  literal : Option UInt32
  /-- `CONFIG_APP_SNMP_TRAP_PORT`. -/
  port : UInt16
  /-- `CONFIG_APP_SNMP_TRAP_COMMUNITY`. -/
  community : List UInt8
  switch : SwitchConfig

/-- `sim_switch_if_count()`. -/
def TrapConfig.nif (cfg : TrapConfig) : ℕ := cfg.switch.simSwitchIfCount

/-- A datagram the socket accepted, with the notification it was built for. -/
structure SentTrap where
  trapOid : List ℕ
  /-- 0 when the notification is not about an interface. -/
  ifindex : ℕ
  dest : UInt32 × UInt16
  datagram : List UInt8
deriving DecidableEq

/-- A trap that was encoded, with the notification it was built for. -/
structure TrapAttempt where
  trapOid : List ℕ
  /-- 0 when the notification is not about an interface. -/
  ifindex : ℕ
  /-- What `mib_sys_uptime()` returned for it. -/
  uptime : UInt32
  /-- What was handed to `sendto`, if the trap fitted `trap_buf`. -/
  datagram : Option (List UInt8)
deriving DecidableEq

/-- The static data of `snmp_trap.c`. -/
structure TrapState where
  trapBuf : ℕ → UInt8
  trapSock : ℤ
  /-- `mgr_addr.sin_addr`. -/
  mgrAddr : UInt32
  mgrPort : UInt16
  mgrResolved : Bool
  coldstartPending : Bool
  trapRequestId : Int32
  /-- `none` stands for the zero the array starts with, which is no status. -/
  lastOper : ℕ → Option SimIfStatus
  /-- The traps that were encoded, oldest first. -/
  attempts : List TrapAttempt
  /-- The datagrams the socket accepted, oldest first. -/
  sent : List SentTrap

/-- The static data before `snmp_trap_start`. -/
def TrapState.boot : TrapState where
  trapBuf := fun _ ↦ 0
  trapSock := -1
  mgrAddr := 0
  mgrPort := 0
  mgrResolved := false
  coldstartPending := false
  trapRequestId := 0
  lastOper := fun _ ↦ none
  attempts := []
  sent := []

/-- What the environment answers while one trap is sent. -/
structure SendEnv where
  /-- `mib_sys_uptime()`. -/
  uptime : UInt32
  /-- `zsock_sendto` takes the datagram. -/
  sendto : Bool

variable (cfg : TrapConfig)

/-- The address `resolve_manager` finds: a literal one needs no lookup. -/
def managerAddr (lookup : Option UInt32) : Option UInt32 := cfg.literal.orElse fun _ ↦ lookup

/-- `mgr_resolved = resolve_manager()`. -/
def resolveManager (s : TrapState) (lookup : Option UInt32) : TrapState :=
  match managerAddr cfg lookup with
  | some addr => { s with mgrAddr := addr, mgrResolved := true }
  | none => { s with mgrResolved := false }

/-! ### Sending a trap -/

/-- `vb_oid`. -/
def vbOid (e : BerEnc) (name val : List ℕ) : BerEnc :=
  berWrap (berPutOid (berPutOid e val) name) (berMark e) berTagSequence

/-- `vb_timeticks`. -/
def vbTimeticks (e : BerEnc) (name : List ℕ) (ticks : UInt32) : BerEnc :=
  berWrap (berPutOid (berPutUintTagged e ticks berTagTimeticks) name) (berMark e) berTagSequence

/-- `vb_int`. -/
def vbInt (e : BerEnc) (name : List ℕ) (v : Int32) : BerEnc :=
  berWrap (berPutOid (berPutInt e v) name) (berMark e) berTagSequence

/-- The encoding half of `send_trap`. -/
def encodeTrap (buf : ℕ → UInt8) (trapOid : List ℕ) (ifindex : ℕ) (uptime : UInt32)
    (requestId : Int32) : BerEnc :=
  let e := berEncInit buf 0 trapBufSize
  let top := berMark e
  let vbl := berMark e
  let e := if 0 < ifindex then vbInt e (oidIfindexCol ++ [ifindex]) (Int32.ofNat ifindex) else e
  let e := vbOid e oidTrapoid trapOid
  let e := vbTimeticks e oidSysuptime uptime
  let e := berWrap e vbl berTagSequence
  let e := berPutInt (berPutInt e 0) 0
  let e := berPutInt e requestId
  let e := berWrap e top snmpPduTrapV2
  let e := berPutOctetStr e cfg.community
  let e := berPutInt e 1
  berWrap e top berTagSequence

/-- `send_trap`. -/
def sendTrap (s : TrapState) (trapOid : List ℕ) (ifindex : ℕ) (env : SendEnv) : TrapState :=
  if s.trapSock < 0 ∨ s.mgrResolved = false then s
  else
    let requestId := s.trapRequestId + 1
    let e := encodeTrap cfg s.trapBuf trapOid ifindex env.uptime requestId
    let attempt := fun datagram ↦ s.attempts ++ [⟨trapOid, ifindex, env.uptime, datagram⟩]
    let s := { s with trapBuf := e.mem, trapRequestId := requestId }
    if berEncLength e = 0 then { s with attempts := attempt none }
    else
      let s := { s with attempts := attempt (some (berEncData e)) }
      if env.sendto then
        let trap := ⟨trapOid, ifindex, (s.mgrAddr, s.mgrPort), berEncData e⟩
        { s with sent := s.sent ++ [trap] }
      else { s with mgrResolved := false }

/-! ### The watcher -/

/-- What the environment answers during one round of the watcher. -/
structure TrapTick where
  lookup : Option UInt32
  coldStart : SendEnv
  /-- `sim_switch_if_oper_status(i)`. -/
  status : ℕ → SimIfStatus
  /-- The answers for the trap about interface `i`. -/
  link : ℕ → SendEnv

/-- A round looks up a manager that is not resolved. -/
def retryManager (s : TrapState) (lookup : Option UInt32) : TrapState :=
  if s.mgrResolved then s else resolveManager cfg s lookup

/-- The first part of a round: the manager and the deferred coldStart. -/
def watchManager (s : TrapState) (t : TrapTick) : TrapState :=
  let s := retryManager cfg s t.lookup
  if s.mgrResolved ∧ s.coldstartPending then
    sendTrap cfg { s with coldstartPending := false } oidColdstart 0 t.coldStart
  else s

/-- `last_oper[i] = now`. -/
def TrapState.setLastOper (s : TrapState) (i : ℕ) (now : SimIfStatus) : TrapState :=
  { s with lastOper := Function.update s.lastOper i (some now) }

@[simp] theorem TrapState.lastOper_setLastOper (s : TrapState) (i : ℕ) (now : SimIfStatus) :
    (s.setLastOper i now).lastOper = Function.update s.lastOper i (some now) := rfl

/-- What a round does about interface `i`. -/
def watchIf (t : TrapTick) (s : TrapState) (i : ℕ) : TrapState :=
  let now := t.status i
  if s.lastOper i = some now then s
  else
    let s := s.setLastOper i now
    let ifindex := i + 1
    if now = .down then sendTrap cfg s oidLinkdown ifindex (t.link i)
    else sendTrap cfg s oidLinkup ifindex (t.link i)

/-- One round of the loop of `trap_watcher`. -/
def trapWatcher (s : TrapState) (t : TrapTick) : TrapState :=
  (List.range cfg.nif).foldl (watchIf cfg t) (watchManager cfg s t)

/-- What the environment answers during `snmp_trap_start`. -/
structure TrapStart where
  /-- What `zsock_socket` returns. -/
  socket : ℤ
  lookup : Option UInt32
  status : ℕ → SimIfStatus
  coldStart : SendEnv

/-- `snmp_trap_start`. -/
def snmpTrapStart (s : TrapState) (b : TrapStart) : TrapState :=
  let s := { s with trapSock := b.socket }
  if s.trapSock < 0 then s
  else
    let s := resolveManager cfg { s with mgrAddr := 0, mgrPort := cfg.port } b.lookup
    let snapshot := fun i ↦ if i < cfg.nif then some (b.status i) else s.lastOper i
    let s := { s with lastOper := snapshot }
    if s.mgrResolved then sendTrap cfg s oidColdstart 0 b.coldStart
    else { s with coldstartPending := true }

/-! ### Runs -/

/-- The trap originator as it runs, with what it has read of the switch. -/
structure TrapRun extends TrapState where
  /-- `snmp_trap_start` has run. -/
  started : Bool
  /-- The watcher thread has been created. -/
  watching : Bool
  /-- The status of every interface when the originator started. -/
  snapshot : ℕ → Option SimIfStatus
  /-- The status of every interface when it was last read. -/
  sampled : ℕ → Option SimIfStatus

/-- Before the start. -/
def TrapRun.boot : TrapRun :=
  { TrapState.boot with
    started := false, watching := false, snapshot := fun _ ↦ none, sampled := fun _ ↦ none }

/-- A step of the originator. -/
inductive TrapAction
  | start (b : TrapStart)
  | tick (t : TrapTick)

/-- One step. It is started once, and without a socket there is no watcher. -/
def trapStep (r : TrapRun) : TrapAction → Option TrapRun
  | .start b =>
    if r.started then none
    else
      some { started := true
             toTrapState := snmpTrapStart cfg r.toTrapState b
             watching := 0 ≤ b.socket
             snapshot := fun i ↦ some (b.status i)
             sampled := fun i ↦ some (b.status i) }
  | .tick t =>
    if r.watching then
      some { r with
        toTrapState := trapWatcher cfg r.toTrapState t, sampled := fun i ↦ some (t.status i) }
    else none

/-! ### The message -/

/-- The message `send_trap` encodes. -/
def trapTree (trapOid : List ℕ) (ifindex : ℕ) (uptime : UInt32) (requestId : Int32) : BerTree :=
  .node berTagSequence
    [.int 1, .octets cfg.community,
      .node snmpPduTrapV2
        [.int requestId, .int 0, .int 0,
          .node berTagSequence
            ([.node berTagSequence [.oid oidSysuptime, .uint berTagTimeticks uptime],
                .node berTagSequence [.oid oidTrapoid, .oid trapOid]] ++
              if 0 < ifindex then
                [.node berTagSequence
                  [.oid (oidIfindexCol ++ [ifindex]), .int (Int32.ofNat ifindex)]]
              else [])]]

variable {cfg}

theorem encodeTrap_eq (buf : ℕ → UInt8) (trapOid : List ℕ) (ifindex : ℕ) (uptime : UInt32)
    (requestId : Int32) :
    encodeTrap cfg buf trapOid ifindex uptime requestId =
      (trapTree cfg trapOid ifindex uptime requestId).emit (berEncInit buf 0 trapBufSize) := by
  rw [encodeTrap, trapTree]
  split
  · rfl
  · rfl

/-! ### What sending a trap does -/

variable (cfg) in
/-- The socket takes the trap: it is open, the manager is resolved, the message fits `trap_buf` and
`sendto` succeeds. -/
def Accepted (s : TrapState) (trapOid : List ℕ) (ifindex : ℕ) (env : SendEnv) : Prop :=
  0 ≤ s.trapSock ∧ s.mgrResolved = true ∧
    (trapTree cfg trapOid ifindex env.uptime (s.trapRequestId + 1)).enc.length ≤ trapBufSize ∧
    env.sendto = true

instance (s : TrapState) (trapOid : List ℕ) (ifindex : ℕ) (env : SendEnv) :
    Decidable (Accepted cfg s trapOid ifindex env) :=
  inferInstanceAs (Decidable (_ ∧ _))

/-- The datagram of a trap that is accepted. -/
def sentTrap (cfg : TrapConfig) (s : TrapState) (trapOid : List ℕ) (ifindex : ℕ) (env : SendEnv) :
    SentTrap where
  trapOid := trapOid
  ifindex := ifindex
  dest := (s.mgrAddr, s.mgrPort)
  datagram := (trapTree cfg trapOid ifindex env.uptime (s.trapRequestId + 1)).enc

/-- What no trap changes. -/
structure TrapFrame (s t : TrapState) : Prop where
  trapSock : t.trapSock = s.trapSock
  mgrAddr : t.mgrAddr = s.mgrAddr
  mgrPort : t.mgrPort = s.mgrPort
  coldstartPending : t.coldstartPending = s.coldstartPending
  lastOper : t.lastOper = s.lastOper

variable {s : TrapState} {trapOid : List ℕ} {ifindex : ℕ} {env : SendEnv}

variable (cfg) in
theorem length_enc_trapTree_pos (trapOid : List ℕ) (ifindex : ℕ) (uptime : UInt32)
    (requestId : Int32) : 0 < (trapTree cfg trapOid ifindex uptime requestId).enc.length := by
  rw [trapTree, BerTree.enc, Ber.tlv]
  exact Nat.succ_pos _

theorem sendTrap_frame (cfg : TrapConfig) (s : TrapState) (trapOid : List ℕ) (ifindex : ℕ)
    (env : SendEnv) : TrapFrame s (sendTrap cfg s trapOid ifindex env) := by
  simp only [sendTrap]
  split_ifs
  · exact ⟨rfl, rfl, rfl, rfl, rfl⟩
  · exact ⟨rfl, rfl, rfl, rfl, rfl⟩
  · exact ⟨rfl, rfl, rfl, rfl, rfl⟩
  · exact ⟨rfl, rfl, rfl, rfl, rfl⟩

/-- **An accepted trap is sent**, with the next request-id, and the manager stays resolved. -/
theorem sendTrap_of_accepted (h : Accepted cfg s trapOid ifindex env) :
    (sendTrap cfg s trapOid ifindex env).sent = s.sent ++ [sentTrap cfg s trapOid ifindex env] ∧
      (sendTrap cfg s trapOid ifindex env).mgrResolved = true ∧
      (sendTrap cfg s trapOid ifindex env).trapRequestId = s.trapRequestId + 1 := by
  obtain ⟨hsock, hres, hfits, hsend⟩ := h
  obtain ⟨hlen, hdata⟩ := emit_of_fits _ s.trapBuf 0 hfits
  have hpos := length_enc_trapTree_pos cfg trapOid ifindex env.uptime
    (s.trapRequestId + 1)
  have hgo : ¬ (s.trapSock < 0 ∨ s.mgrResolved = false) := by
    rw [hres, not_or]
    exact ⟨Int.not_lt.2 hsock, Bool.noConfusion⟩
  rw [sendTrap, if_neg hgo]
  dsimp only
  rw [encodeTrap_eq, if_neg (by rw [hlen]; exact Nat.ne_of_gt hpos), if_pos hsend, hdata]
  exact ⟨rfl, hres, rfl⟩

/-- **Every trap that is encoded takes the next request-id**, and goes to `sendto` if it fits. -/
theorem sendTrap_attempts (hsock : 0 ≤ s.trapSock) (hres : s.mgrResolved = true) :
    (sendTrap cfg s trapOid ifindex env).trapRequestId = s.trapRequestId + 1 ∧
      (sendTrap cfg s trapOid ifindex env).attempts = s.attempts ++
        [⟨trapOid, ifindex, env.uptime,
          if (trapTree cfg trapOid ifindex env.uptime (s.trapRequestId + 1)).enc.length ≤
              trapBufSize then
            some (trapTree cfg trapOid ifindex env.uptime (s.trapRequestId + 1)).enc
          else none⟩] := by
  have hgo : ¬ (s.trapSock < 0 ∨ s.mgrResolved = false) := by
    rw [hres, not_or]
    exact ⟨Int.not_lt.2 hsock, Bool.noConfusion⟩
  rw [sendTrap, if_neg hgo]
  dsimp only
  rw [encodeTrap_eq]
  by_cases hfits : (trapTree cfg trapOid ifindex env.uptime (s.trapRequestId + 1)).enc.length ≤
      trapBufSize
  · obtain ⟨hlen, hdata⟩ := emit_of_fits _ s.trapBuf 0 hfits
    have hpos := length_enc_trapTree_pos cfg trapOid ifindex env.uptime (s.trapRequestId + 1)
    rw [if_neg (by rw [hlen]; exact Nat.ne_of_gt hpos), if_pos hfits, hdata]
    split
    · exact ⟨rfl, rfl⟩
    · exact ⟨rfl, rfl⟩
  · rw [if_pos (berEncLength_emit_of_lt _ s.trapBuf 0 (Nat.not_le.1 hfits)), if_neg hfits]
    exact ⟨rfl, rfl⟩

/-- The manager stays resolved unless `sendto` refuses the trap. -/
theorem sendTrap_of_resolved (hsock : 0 ≤ s.trapSock) (hres : s.mgrResolved = true)
    (hsend : (trapTree cfg trapOid ifindex env.uptime (s.trapRequestId + 1)).enc.length ≤
      trapBufSize → env.sendto = true) :
    (sendTrap cfg s trapOid ifindex env).mgrResolved = true ∧
      (sendTrap cfg s trapOid ifindex env).trapRequestId = s.trapRequestId + 1 := by
  rcases Nat.lt_or_ge trapBufSize
    (trapTree cfg trapOid ifindex env.uptime (s.trapRequestId + 1)).enc.length with hlong | hfits
  · have hgo : ¬ (s.trapSock < 0 ∨ s.mgrResolved = false) := by
      rw [hres, not_or]
      exact ⟨Int.not_lt.2 hsock, Bool.noConfusion⟩
    rw [sendTrap, if_neg hgo]
    dsimp only
    rw [encodeTrap_eq, if_pos (berEncLength_emit_of_lt _ s.trapBuf 0 hlong)]
    exact ⟨hres, rfl⟩
  · have hacc : Accepted cfg s trapOid ifindex env := ⟨hsock, hres, hfits, hsend hfits⟩
    exact (sendTrap_of_accepted hacc).2

/-- **A trap that is not accepted is not among those sent.** -/
theorem sendTrap_of_not_accepted (h : ¬ Accepted cfg s trapOid ifindex env) :
    (sendTrap cfg s trapOid ifindex env).sent = s.sent := by
  simp only [sendTrap]
  split_ifs with hgo hlen hsend
  · rfl
  · rfl
  · -- nothing else keeps `sendto` from taking it
    refine absurd ⟨?_, ?_, ?_, hsend⟩ h
    · exact Int.not_lt.1 fun hneg ↦ hgo (Or.inl hneg)
    · exact Bool.of_not_eq_false fun hres ↦ hgo (Or.inr hres)
    · refine Nat.not_lt.1 fun hlt ↦ hlen ?_
      rw [encodeTrap_eq]
      exact berEncLength_emit_of_lt _ s.trapBuf 0 hlt
  · rfl

end ThinEdge.Snmp
