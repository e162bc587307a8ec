import ThinEdge.Lib.Bytes
import ThinEdge.Lib.Transition

/-!
# The Modbus TCP server's raw-ADU plumbing

`lib/modbus/modbus_server.c` from `server_raw_tx` to `modbus_listener`. Two threads share one static
ADU and one binary semaphore: the listener, which runs `serve_once` for the connected client, and
the Modbus worker, which calls `server_raw_tx` with the core's response to a submitted request.

`Server` is the state of both threads and `step` one atomic step of either; `Pc` says where in
`serve_once` the listener stands. The worker's callback takes two steps, since the listener can run
between its writes to `tmp_adu` and `k_sem_give`. The connection is a byte stream that ends: a
`MSG_WAITALL` receive returns fewer bytes than asked only at its end.

Zephyr's raw-ADU functions are not part of the repository and are the fields of `ModbusRaw`. The
register callbacks answer inside the core and are not modelled here.
-/

namespace ThinEdge.Modbus

open Bytes

/-! ### Frames and ADUs -/

/-- An MBAP frame as a client sends it. -/
structure MbapFrame where
  transId : UInt16
  protoId : UInt16
  unitId : UInt8
  fc : UInt8
  data : List UInt8
  deriving DecidableEq, Repr

/-- The header fields of `struct modbus_adu`; `length` counts the bytes of `data` alone. -/
structure MbapHeader where
  transId : UInt16
  protoId : UInt16
  length : ℕ
  unitId : UInt8
  fc : UInt8
  deriving DecidableEq, Repr, Inhabited

/-- `struct modbus_adu`: the header fields and the whole data array, of which the first `length`
bytes are the message's. -/
structure ModbusAdu extends MbapHeader where
  data : List UInt8
  deriving DecidableEq, Repr

/-- The header fields an ADU holding this frame has. -/
def MbapFrame.mbap (f : MbapFrame) : MbapHeader :=
  ⟨f.transId, f.protoId, f.data.length, f.unitId, f.fc⟩

/-- The `MODBUS_MBAP_AND_FC_LENGTH` bytes before a frame's data. The length field also counts the
unit id and the function code. -/
def MbapFrame.header (f : MbapFrame) : List UInt8 :=
  putBe16 f.transId ++ putBe16 f.protoId ++ putBe16 (UInt16.ofNat (f.data.length + 2)) ++
    [f.unitId, f.fc]

/-- `MODBUS_MBAP_AND_FC_LENGTH`. -/
def mbapAndFcLength : ℕ := 8

/-- A frame on the wire. -/
def MbapFrame.bytes (f : MbapFrame) : List UInt8 := f.header ++ f.data

/-- The data bytes an ADU's length covers. -/
def ModbusAdu.payload (adu : ModbusAdu) : List UInt8 := adu.data.take adu.length

/-- The frame an ADU holds. -/
def ModbusAdu.frame (adu : ModbusAdu) : MbapFrame :=
  ⟨adu.transId, adu.protoId, adu.unitId, adu.fc, adu.payload⟩

@[simp] theorem length_header (f : MbapFrame) : f.header.length = mbapAndFcLength := by
  simp [MbapFrame.header, putBe16, mbapAndFcLength]

@[simp] theorem length_bytes (f : MbapFrame) :
    f.bytes.length = mbapAndFcLength + f.data.length := by
  simp [MbapFrame.bytes]

/-- An ADU with a frame's fields and its data bytes holds that frame. -/
theorem ModbusAdu.frame_eq {adu : ModbusAdu} {f : MbapFrame} (hmbap : adu.toMbapHeader = f.mbap)
    (hdata : adu.payload = f.data) : adu.frame = f := by
  rw [ModbusAdu.frame, hdata, hmbap]
  rfl

/-! ### Zephyr's raw-ADU functions -/

/-- What Zephyr provides: the size of an ADU's data array, the header's coding, and the failure
reply made from a request. -/
structure ModbusRaw where
  /-- `CONFIG_MODBUS_BUFFER_SIZE`. -/
  bufferSize : ℕ
  /-- The bytes of `modbus_adu.data`. -/
  dataSize : ℕ
  dataSize_le : dataSize ≤ bufferSize
  /-- `modbus_raw_get_header`. -/
  getHeader : List UInt8 → MbapHeader
  /-- `modbus_raw_put_header`. -/
  putHeader : MbapHeader → List UInt8
  /-- `modbus_raw_set_server_failure`. -/
  setServerFailure : ModbusAdu → ModbusAdu
  /-- The header of a frame that fits the ADU is decoded to the frame's fields. -/
  getHeader_header : ∀ f : MbapFrame, f.data.length ≤ dataSize → getHeader f.header = f.mbap
  /-- A failure reply keeps the request's ids. -/
  setServerFailure_ids : ∀ adu, (setServerFailure adu).transId = adu.transId ∧
    (setServerFailure adu).protoId = adu.protoId ∧ (setServerFailure adu).unitId = adu.unitId

variable {raw : ModbusRaw}

/-- The received length field, less the unit id and the function code. -/
def zephyrLength (field : ℕ) : ℕ := min field 256 - 2

/-- Zephyr's decoding of a header. -/
def zephyrGetHeader : List UInt8 → MbapHeader
  | [a, b, c, d, e, f, unitId, fc] =>
    ⟨UInt16.ofNat (getBe16 a b), UInt16.ofNat (getBe16 c d), zephyrLength (getBe16 e f), unitId, fc⟩
  | _ => default

/-- Zephyr's functions at the default buffer size. -/
def zephyrRaw : ModbusRaw where
  bufferSize := 256
  dataSize := 252
  dataSize_le := by decide
  getHeader := zephyrGetHeader
  putHeader h := putBe16 h.transId ++ putBe16 h.protoId ++ putBe16 (UInt16.ofNat (h.length + 2)) ++
    [h.unitId, h.fc]
  setServerFailure adu :=
    { adu with fc := adu.fc ||| 0x80, length := 1, data := overwrite adu.data [0x04] }
  getHeader_header f hf := by
    have hlen : (UInt16.ofNat (f.data.length + 2)).toNat = f.data.length + 2 := by
      rw [UInt16.toNat_ofNat']
      omega
    have hmin : zephyrLength (f.data.length + 2) = f.data.length := by
      rw [zephyrLength]
      omega
    simp only [MbapFrame.header, putBe16, List.cons_append, List.nil_append, zephyrGetHeader, hlen,
      getBe16_putBe16 f.transId.toNat_lt, getBe16_putBe16 f.protoId.toNat_lt,
      getBe16_putBe16 (show f.data.length + 2 < 65536 by omega), hmin, UInt16.ofNat_toNat,
      MbapFrame.mbap]
  setServerFailure_ids _ := ⟨rfl, rfl, rfl⟩

/-! ### The two threads -/

/-- Where the listener thread stands. -/
inductive Pc
  /-- Waiting for a client; `byPeer` says that the last one closed its connection. -/
  | noClient (byPeer : Bool)
  /-- A client is connected and `serve_once` is about to receive a header. -/
  | top
  /-- The header is decoded and the data is about to be received. -/
  | body
  /-- The ADU is about to be submitted. -/
  | submit
  /-- Waiting on `response_ready` for request `k`. -/
  | waiting (k : ℕ)
  /-- The wait for request `k` has timed out. -/
  | timedOut (k : ℕ)
  /-- `modbus_reply` is about to send the header for request `k`. -/
  | reply (k : ℕ)
  /-- `modbus_reply` has sent a header for request `k` and is about to send the data. -/
  | replyData (k : ℕ) (header : List UInt8)
  deriving DecidableEq, Repr

/-- A reply on the socket: the request it answers, the header's bytes, and the data's unless the
send of the data failed. -/
structure Reply where
  request : ℕ
  header : List UInt8
  data : Option (List UInt8)
  deriving DecidableEq, Repr

/-- The state of the listener and of the Modbus worker. `submitted`, `responses` and `sent` record
what has been handed to the core, what the core has answered, and what has been written to the
socket; a request's number is its index in `submitted`. -/
structure Server where
  pc : Pc
  /-- What the client will still send before it closes. -/
  stream : List UInt8
  /-- `tmp_adu`. -/
  tmpAdu : ModbusAdu
  /-- `response_ready`. -/
  responseReady : Bool
  /-- The request whose callback has written `tmp_adu` and not yet given the semaphore. -/
  worker : Option ℕ
  /-- The requests whose callback has not been called yet. -/
  pending : List ℕ
  submitted : List ModbusAdu
  responses : List (ℕ × MbapFrame)
  sent : List Reply
  deriving DecidableEq, Repr

/-- The steps of the two threads, with what the environment answers. -/
inductive Action
  /-- A client connects; it will send these bytes and close. -/
  | accept (stream : List UInt8)
  /-- The listener drops a client that has been idle for too long, or whose socket poll fails. -/
  | drop
  /-- `zsock_recv` of the header, into stack memory that holds `mem`. -/
  | recvHeader (mem : List UInt8)
  /-- `zsock_recv` of the data. -/
  | recvData
  /-- `zsock_recv` fails with an error. -/
  | recvError
  /-- `modbus_raw_submit_rx`, and whether the core takes the ADU. -/
  | submitRx (ok : Bool)
  /-- `k_sem_take` succeeds. -/
  | semTake
  /-- `k_sem_take` times out. -/
  | semTimeout
  /-- `modbus_raw_set_server_failure`. -/
  | setFailure
  /-- `zsock_send` of the header, and whether it succeeds. -/
  | sendHeader (ok : Bool)
  /-- `zsock_send` of the data, and whether it succeeds. -/
  | sendData (ok : Bool)
  /-- The worker calls `server_raw_tx` with the response to request `k`, up to `k_sem_give`. -/
  | rawTxFill (k : ℕ) (response : MbapFrame)
  /-- The worker's `k_sem_give`. -/
  | rawTxGive
  deriving DecidableEq, Repr

/-- `server_raw_tx` up to `k_sem_give`: what it leaves in `tmp_adu`. -/
def serverRawTx (raw : ModbusRaw) (tmpAdu : ModbusAdu) (response : MbapFrame) : ModbusAdu where
  toMbapHeader := response.mbap
  data := overwrite tmpAdu.data (response.data.take (min response.data.length raw.bufferSize))

/-- One step of the listener or of the worker; `none` when it cannot be taken. -/
def step (raw : ModbusRaw) (s : Server) : Action → Option Server
  | .accept stream =>
    match s.pc with
    | .noClient _ => some { s with pc := .top, stream }
    | _ => none
  | .drop => if s.pc = .top then some { s with pc := .noClient false } else none
  | .recvHeader mem =>
    if s.pc = .top ∧ mem.length = mbapAndFcLength then
      let got := s.stream.take mbapAndFcLength
      if got = [] then some { s with pc := .noClient true }
      else
        let header := raw.getHeader (overwrite mem got)
        some { s with
          pc := if 0 < header.length then .body else .submit
          tmpAdu := { s.tmpAdu with toMbapHeader := header }
          stream := s.stream.drop mbapAndFcLength }
    else none
  | .recvData =>
    if s.pc = .body then
      let got := s.stream.take s.tmpAdu.length
      if got = [] then some { s with pc := .noClient true }
      else some { s with
        pc := .submit
        tmpAdu := { s.tmpAdu with data := overwrite s.tmpAdu.data got }
        stream := s.stream.drop s.tmpAdu.length }
    else none
  | .recvError =>
    if s.pc = .top ∨ s.pc = .body then some { s with pc := .noClient false } else none
  | .submitRx ok =>
    if s.pc = .submit then
      let k := s.submitted.length
      some { s with
        submitted := s.submitted ++ [s.tmpAdu]
        -- a refused ADU gets no callback, and the frame is skipped
        pending := if ok then s.pending ++ [k] else s.pending
        pc := if ok then .waiting k else .top }
    else none
  | .semTake =>
    match s.pc with
    | .waiting k => if s.responseReady then some { s with pc := .reply k, responseReady := false }
      else none
    | _ => none
  | .semTimeout =>
    match s.pc with
    | .waiting k => if s.responseReady then none else some { s with pc := .timedOut k }
    | _ => none
  | .setFailure =>
    match s.pc with
    | .timedOut k => some { s with pc := .reply k, tmpAdu := raw.setServerFailure s.tmpAdu }
    | _ => none
  | .sendHeader ok =>
    match s.pc with
    | .reply k =>
      some { s with
        pc := if ok then .replyData k (raw.putHeader s.tmpAdu.toMbapHeader) else .noClient false }
    | _ => none
  | .sendData ok =>
    match s.pc with
    | .replyData k header =>
      -- no data: nothing is sent, and nothing can fail
      let ok' := ok || s.tmpAdu.length == 0
      some { s with
        sent := s.sent ++ [⟨k, header, if ok' then some s.tmpAdu.payload else none⟩]
        pc := if ok' then .top else .noClient false }
    | _ => none
  | .rawTxFill k response =>
    -- one worker, one call for a submitted request, a response that fits the core's own ADU
    if s.worker = none ∧ k ∈ s.pending ∧ response.data.length ≤ raw.dataSize then
      some { s with
        worker := some k
        pending := s.pending.erase k
        tmpAdu := serverRawTx raw s.tmpAdu response
        responses := s.responses ++ [(k, response)] }
    else none
  | .rawTxGive =>
    match s.worker with
    | some _ => some { s with worker := none, responseReady := true }
    | none => none

/-- The state `modbus_server_start` leaves: no client, and `tmp_adu` all zero. -/
def Server.boot (raw : ModbusRaw) : Server where
  pc := .noClient false
  stream := []
  tmpAdu := { toMbapHeader := default, data := List.replicate raw.dataSize 0 }
  responseReady := false
  worker := none
  pending := []
  submitted := []
  responses := []
  sent := []

/-- A response that fits the ADU is what the worker leaves in `tmp_adu`. -/
theorem payload_serverRawTx {response : MbapFrame} (h : response.data.length ≤ raw.dataSize)
    (tmpAdu : ModbusAdu) : (serverRawTx raw tmpAdu response).payload = response.data := by
  have hle := raw.dataSize_le
  have htake : response.data.take (min response.data.length raw.bufferSize) = response.data := by
    rw [Nat.min_eq_left (by omega), List.take_length]
  simp only [ModbusAdu.payload, serverRawTx, htake]
  exact take_overwrite tmpAdu.data response.data

end ThinEdge.Modbus
