import ThinEdge.Snmp.BerOid
import ThinEdge.Snmp.Bulk
import ThinEdge.Snmp.Request

/-!
# The SNMP agent: encoding a response

`mib_put_value` of `lib/snmp/snmp_mib.c`, and `emit_varbind`, `encode_response`, `encode_error` and
`handle_request` of `lib/snmp/snmp_agent.c`. The values an object reads, from the identity, the
network and the simulated switch, are a parameter (`MibValues`), a new one for every varbind, since
the switch's timer and the uptime go on while a response is encoded.

What is written is the tree of a Response message (`responseTree`): `encodeResponse_eq`.
-/

namespace ThinEdge.Snmp

open Ber
open Cursor (Checked Op Parser Implements)

/-! ### Values of objects -/

/-- `BER_TAG_COUNTER32`. -/
def berTagCounter32 : UInt8 := 0x41

/-- `BER_TAG_GAUGE32`. -/
def berTagGauge32 : UInt8 := 0x42

/-- `BER_TAG_TIMETICKS`. -/
def berTagTimeticks : UInt8 := 0x43

/-- What the accessors of the simulated switch return for one index. -/
structure SimSwitchIf where
  descr : List UInt8
  type : Int32
  mtu : UInt32
  speed : UInt32
  adminStatus : Int32
  operStatus : Int32
  inOctets : UInt32
  inUcastPkts : UInt32
  outOctets : UInt32
  outUcastPkts : UInt32

/-- What the objects read, at one instant. -/
structure MibValues where
  firmwareName : List UInt8
  firmwareVersion : List UInt8
  buildTimestamp : List UInt8
  sysContact : List UInt8
  hostname : List UInt8
  sysLocation : List UInt8
  sysUptime : UInt32
  ifCount : Int32
  simSwitchIf : ℕ → SimSwitchIf

/-- The text of sysDescr, as `snprintf` leaves it in a buffer of 96 bytes. -/
def MibValues.sysDescr (v : MibValues) : List UInt8 :=
  (v.firmwareName ++ " ".toUTF8.toList ++ v.firmwareVersion ++ " (build ".toUTF8.toList ++
    v.buildTimestamp ++ ")".toUTF8.toList).take 95

/-- `mib_put_value`. -/
def mibPutValue (v : MibValues) (e : BerEnc) (leaf : MibLeaf) : BerEnc :=
  let idx := if 0 < leaf.row then leaf.row - 1 else 0
  match leaf.kind with
  | .sysDescr => berPutOctetStr e v.sysDescr
  | .sysObjectId => berPutOid e sysObjectIdValue
  | .sysUptime => berPutUintTagged e v.sysUptime berTagTimeticks
  | .sysContact => berPutOctetStr e v.sysContact
  | .sysName => berPutOctetStr e v.hostname
  | .sysLocation => berPutOctetStr e v.sysLocation
  | .sysServices => berPutInt e 6
  | .ifNumber => berPutInt e v.ifCount
  | .ifIndex => berPutInt e (Int32.ofNat leaf.row)
  | .ifDescr => berPutOctetStr e (v.simSwitchIf idx).descr
  | .ifType => berPutInt e (v.simSwitchIf idx).type
  | .ifMtu => berPutInt e (v.simSwitchIf idx).mtu.toInt32
  | .ifSpeed => berPutUintTagged e (v.simSwitchIf idx).speed berTagGauge32
  | .ifAdmin => berPutInt e (v.simSwitchIf idx).adminStatus
  | .ifOper => berPutInt e (v.simSwitchIf idx).operStatus
  | .ifInOctets => berPutUintTagged e (v.simSwitchIf idx).inOctets berTagCounter32
  | .ifInUpkts => berPutUintTagged e (v.simSwitchIf idx).inUcastPkts berTagCounter32
  | .ifOutOctets => berPutUintTagged e (v.simSwitchIf idx).outOctets berTagCounter32
  | .ifOutUpkts => berPutUintTagged e (v.simSwitchIf idx).outUcastPkts berTagCounter32
  | .fwName => berPutOctetStr e v.firmwareName
  | .fwVersion => berPutOctetStr e v.firmwareVersion
  | .fwBuild => berPutOctetStr e v.buildTimestamp

/-- The value of an object as a tree: every object is one element. -/
def leafTree (v : MibValues) (leaf : MibLeaf) : BerTree :=
  let idx := if 0 < leaf.row then leaf.row - 1 else 0
  match leaf.kind with
  | .sysDescr => .octets v.sysDescr
  | .sysObjectId => .oid sysObjectIdValue
  | .sysUptime => .uint berTagTimeticks v.sysUptime
  | .sysContact => .octets v.sysContact
  | .sysName => .octets v.hostname
  | .sysLocation => .octets v.sysLocation
  | .sysServices => .int 6
  | .ifNumber => .int v.ifCount
  | .ifIndex => .int (Int32.ofNat leaf.row)
  | .ifDescr => .octets (v.simSwitchIf idx).descr
  | .ifType => .int (v.simSwitchIf idx).type
  | .ifMtu => .int (v.simSwitchIf idx).mtu.toInt32
  | .ifSpeed => .uint berTagGauge32 (v.simSwitchIf idx).speed
  | .ifAdmin => .int (v.simSwitchIf idx).adminStatus
  | .ifOper => .int (v.simSwitchIf idx).operStatus
  | .ifInOctets => .uint berTagCounter32 (v.simSwitchIf idx).inOctets
  | .ifInUpkts => .uint berTagCounter32 (v.simSwitchIf idx).inUcastPkts
  | .ifOutOctets => .uint berTagCounter32 (v.simSwitchIf idx).outOctets
  | .ifOutUpkts => .uint berTagCounter32 (v.simSwitchIf idx).outUcastPkts
  | .fwName => .octets v.firmwareName
  | .fwVersion => .octets v.firmwareVersion
  | .fwBuild => .octets v.buildTimestamp

theorem mibPutValue_eq (v : MibValues) (e : BerEnc) (leaf : MibLeaf) :
    mibPutValue v e leaf = (leafTree v leaf).emit e := by
  obtain ⟨kind, col, row⟩ := leaf
  cases kind <;> rfl

/-! ### Responses -/

/-- `SNMP_ERR_TOO_BIG`. -/
def snmpErrTooBig : Int32 := 1

/-- `SNMP_ERR_GEN_ERR`. -/
def snmpErrGenErr : Int32 := 5

/-- `SNMP_ERR_NOT_WRITABLE`. -/
def snmpErrNotWritable : Int32 := 17

/-- `SNMP_TX_BUF`. -/
def snmpTxBuf : ℕ := 1500

/-- `emit_varbind`. The leaf pointer of a planned varbind points into the table. -/
def emitVarbind (mib : Mib) (v : MibValues) (e : BerEnc) (vb : RespVb) : BerEnc :=
  let mark := berMark e
  let e :=
    if vb.exception ≠ 0 then berPutException e vb.exception
    else
      match vb.leaf.bind fun i ↦ mib[i]? with
      | some leaf => mibPutValue v e leaf
      | none => berPutNull e
  let e := berPutOid e (vb.oid mib)
  berWrap e mark berTagSequence

/-- The loop of `encode_response` over the varbinds from index `i` on, the last one first. -/
def emitVarbinds (mib : Mib) (vals : ℕ → MibValues) (e : BerEnc) : ℕ → List RespVb → BerEnc
  | _, [] => e
  | i, vb :: vbs => emitVarbind mib (vals i) (emitVarbinds mib vals e (i + 1) vbs) vb

/-- `encode_response`. -/
def encodeResponse (mib : Mib) (vals : ℕ → MibValues) (e : BerEnc)
    (requestId errStatus errIndex : Int32) (community : List UInt8) (vbs : List RespVb) : BerEnc :=
  let top := berMark e
  let vblMark := berMark e
  let e := emitVarbinds mib vals e 0 vbs
  let e := berWrap e vblMark berTagSequence
  let e := berPutInt e errIndex
  let e := berPutInt e errStatus
  let e := berPutInt e requestId
  let e := berWrap e top snmpPduResponse
  let e := berPutOctetStr e community
  let e := berPutInt e snmpVersion2c
  berWrap e top berTagSequence

/-- `encode_error`: a response with an empty list. -/
def encodeError (mib : Mib) (vals : ℕ → MibValues) (e : BerEnc)
    (requestId errStatus errIndex : Int32) (community : List UInt8) : BerEnc :=
  encodeResponse mib vals e requestId errStatus errIndex community []

variable {cfg : SnmpConfig}

/-- The planner that `handle_request` calls for the type of the PDU. -/
def planFor (mib : Mib) (r : ParsedReq cfg) : Option (List RespVb) :=
  if r.pduType = snmpPduGet then some (planGet mib r)
  else if r.pduType = snmpPduGetnext then some (planGetnext mib r)
  else if r.pduType = snmpPduGetbulk then some (planGetbulk mib r)
  else none

/-- What `handle_request` encodes into `tx_buf` for a request that was parsed. -/
def respond (mib : Mib) (vals : ℕ → MibValues) (tx : ℕ → UInt8) (r : ParsedReq cfg) : BerEnc :=
  let fresh := fun tx ↦ berEncInit tx 0 snmpTxBuf
  if r.tooMany then
    encodeError mib vals (fresh tx) r.requestId snmpErrTooBig 0 r.community
  else if r.pduType = snmpPduSet then
    encodeError mib vals (fresh tx) r.requestId snmpErrNotWritable 1 r.community
  else
    match planFor mib r with
    | none => encodeError mib vals (fresh tx) r.requestId snmpErrGenErr 0 r.community
    | some vbs =>
      let e := encodeResponse mib vals (fresh tx) r.requestId 0 0 r.community vbs
      if berEncLength e = 0 then
        encodeError mib vals (fresh e.mem) r.requestId snmpErrTooBig 0 r.community
      else e

/-- `handle_request`: the length of the response, 0 to send nothing, and `tx_buf`. -/
def handleRequest (cfg : SnmpConfig) (mib : Mib) (community : List UInt8) (vals : ℕ → MibValues)
    (tx : ℕ → UInt8) (buf : List UInt8) : Checked (ℕ × (ℕ → UInt8)) :=
  match parseRequest cfg community buf with
  | .error f => .error f
  | .ok none => .ok (0, tx)
  | .ok (some r) => .ok (berEncLength (respond mib vals tx r), (respond mib vals tx r).mem)

/-- What the listener sends: the last `outLen` bytes of `tx_buf`. -/
def sentBytes (tx : ℕ → UInt8) (outLen : ℕ) : List UInt8 :=
  (List.range outLen).map fun i ↦ tx (snmpTxBuf - outLen + i)

/-! ### The tree of a response -/

/-- The value of a planned varbind. -/
def valueTree (mib : Mib) (v : MibValues) (vb : RespVb) : BerTree :=
  if vb.exception ≠ 0 then .exception vb.exception
  else
    match vb.leaf.bind fun i ↦ mib[i]? with
    | some leaf => leafTree v leaf
    | none => .null

/-- The names and values of planned varbinds, from index `i` on. -/
def namedValues (mib : Mib) (vals : ℕ → MibValues) : ℕ → List RespVb → List (List ℕ × BerTree)
  | _, [] => []
  | i, vb :: vbs => (vb.oid mib, valueTree mib (vals i) vb) :: namedValues mib vals (i + 1) vbs

/-- A varbind. -/
def varbindTree (x : List ℕ × BerTree) : BerTree := .node berTagSequence [.oid x.1, x.2]

/-- The fields of a PDU. -/
def pduFields (requestId errStatus errIndex : Int32) (list : List (List ℕ × BerTree)) :
    List BerTree :=
  [.int requestId, .int errStatus, .int errIndex, .node berTagSequence (list.map varbindTree)]

/-- The fields of a message. -/
def messageFields (requestId errStatus errIndex : Int32) (community : List UInt8)
    (list : List (List ℕ × BerTree)) : List BerTree :=
  [.int snmpVersion2c, .octets community,
    .node snmpPduResponse (pduFields requestId errStatus errIndex list)]

/-- A Response message. -/
def responseTree (requestId errStatus errIndex : Int32) (community : List UInt8)
    (list : List (List ℕ × BerTree)) : BerTree :=
  .node berTagSequence (messageFields requestId errStatus errIndex community list)

theorem emitVarbind_eq (mib : Mib) (v : MibValues) (e : BerEnc) (vb : RespVb) :
    emitVarbind mib v e vb = (varbindTree (vb.oid mib, valueTree mib v vb)).emit e := by
  have hvalue : (if vb.exception ≠ 0 then berPutException e vb.exception
      else
        match vb.leaf.bind fun i ↦ mib[i]? with
        | some leaf => mibPutValue v e leaf
        | none => berPutNull e) = (valueTree mib v vb).emit e := by
    rw [valueTree]
    split
    · rfl
    · split
      · exact mibPutValue_eq v e _
      · rfl
  show berWrap (berPutOid (if vb.exception ≠ 0 then _ else _) (vb.oid mib)) (berMark e)
    berTagSequence = _
  rw [hvalue]
  rfl

theorem emitVarbinds_eq (mib : Mib) (vals : ℕ → MibValues) (e : BerEnc) (i : ℕ)
    (vbs : List RespVb) :
    emitVarbinds mib vals e i vbs =
      BerTree.emitAll ((namedValues mib vals i vbs).map varbindTree) e := by
  induction vbs generalizing i with
  | nil => rfl
  | cons vb vbs ih =>
    rw [emitVarbinds, ih (i + 1), emitVarbind_eq]
    rfl

/-- **`encode_response` writes a Response message.** The mark at the end of the buffer serves for
the list, the PDU and the message. -/
theorem encodeResponse_eq (mib : Mib) (vals : ℕ → MibValues) (e : BerEnc)
    (requestId errStatus errIndex : Int32) (community : List UInt8) (vbs : List RespVb) :
    encodeResponse mib vals e requestId errStatus errIndex community vbs =
      (responseTree requestId errStatus errIndex community
        (namedValues mib vals 0 vbs)).emit e := by
  rw [encodeResponse, emitVarbinds_eq]
  rfl

end ThinEdge.Snmp
