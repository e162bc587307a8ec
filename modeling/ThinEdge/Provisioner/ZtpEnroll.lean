import ThinEdge.Provisioner.ZtpRelay
import ThinEdge.Provisioner.ZtpSend

/-!
# Zero-touch provisioning: the relay's script

`cmd_enroll` of `scripts/ztp_provision.py` beside the device. The relay kicks the device, waits for
the envelope, forwards it, writes the server's answer back, and then reads the device's verdict off
the status characteristic. The device's notifications, of both characteristics, arrive in their
order, but any time later. The connection may be lost at any time: a write then raises, but the
script still takes what has arrived, and waits for more until its timeout.

The device says `done` twice: when it has sent its envelope, and when it has applied a bundle.
`verdicts` is what the relay takes for the second: a status that comes after a `relaying`.
-/

namespace ThinEdge.Provisioner

open Bytes Net Transition

/-! ### The server's answer -/

/-- A character at which `str.splitlines` splits. -/
def isLineBreak (c : Char) : Bool :=
  c.toNat ∈ [0x0A, 0x0B, 0x0C, 0x0D, 0x1C, 0x1D, 0x1E, 0x85, 0x2028, 0x2029]

/-- `str.splitlines`, behind the part `line` of a line. -/
def splitlinesFrom (line : List Char) : List Char → List (List Char)
  | [] => if line = [] then [] else [line]
  | '\r' :: '\n' :: cs => line :: splitlinesFrom [] cs
  | c :: cs =>
    if isLineBreak c then line :: splitlinesFrom [] cs else splitlinesFrom (line ++ [c]) cs

/-- `text_records`, in the order of the lines. -/
def textRecords (body : List Char) : List (List Char × List Char) :=
  (splitlinesFrom [] body).filterMap fun l ↦
    if '=' ∈ l then some (l.takeWhile (· ≠ '='), (l.dropWhile (· ≠ '=')).drop 1) else none

/-- What `submit` returns. -/
structure ServerAnswer where
  code : ℕ
  body : List Char
  deriving DecidableEq, Repr

/-- The relay's `st`: the last record named `status`, or the HTTP status. -/
def ServerAnswer.st (r : ServerAnswer) : List Char :=
  ((textRecords r.body).reverse.lookup "status".toList).getD
    ("HTTP ".toList ++ (toString r.code).toList)

/-- `body.encode()`. -/
def ServerAnswer.bytes (r : ServerAnswer) : List UInt8 := r.body.flatMap String.utf8EncodeChar

/-- `FRAG`. -/
def relayFrag : ℕ := 180

/-- The payloads of `framed`. -/
def relayPayloads (payload : List UInt8) : List (List UInt8) :=
  if payload = [] then []
  else payload.take relayFrag :: relayPayloads (payload.drop relayFrag)
termination_by payload.length
decreasing_by exact length_drop_chunk_lt (Nat.succ_pos 179) ‹_›

/-! ### The device's notifications -/

/-- A notification of the response characteristic, or of the status. -/
inductive Note
  | frag (data : List UInt8)
  | status (s : ZtpStatus)
  deriving DecidableEq, Repr

/-- How sending goes: the envelope, or the error of building it; the link that a message is sent on;
and whether a notification of the status goes out, which `set_status` does not check. -/
structure Radio where
  envelope : Except ℤ (List UInt8)
  link : TxLink
  heard : Bool

/-- `set_status`, as far as the relay can tell. -/
def Radio.say (R : Radio) (s : ZtpStatus) : List Note := if R.heard then [.status s] else []

/-- The fragments of the envelope that go out. -/
def Radio.envelopeFrags (R : Radio) : List (List UInt8) :=
  match R.envelope with
  | .ok data => (sendMessage R.link data).1
  | .error _ => []

/-- The result of building and sending the envelope. -/
def Radio.kickResult (R : Radio) : ℤ :=
  match R.envelope with
  | .ok data => (sendMessage R.link data).2
  | .error n => n

/-- What the device notifies in a step from `s` to `t`. -/
def deviceNotes (R : Radio) (s t : ZtpState) : ZtpAction → List Note
  | .get => if s.ztpQ.head? = some .response then R.say t.curStatus else []
  | .clear => if s.pc = .releasing .kick ∧ s.idle = false then R.say t.curStatus else []
  | .finish _ =>
    match s.pc with
    | .answering .kick =>
      -- an idle device only releases the buffer
      if s.idle then [] else R.envelopeFrags.map .frag ++ R.say t.curStatus
    | .answering .overflow => R.say t.curStatus
    | .answering (.response rc) =>
      if rc = 0 then (sendMessage R.link []).1.map .frag ++ R.say t.curStatus
      else R.say t.curStatus
    | _ => []
  | _ => []

/-- A kick is finished with the result of building and sending the envelope. -/
def Radio.Agrees (R : Radio) (s : ZtpState) : ZtpAction → Prop
  | .finish rc => s.pc = .answering .kick → rc = R.kickResult
  | _ => True

instance (R : Radio) (s : ZtpState) : (a : ZtpAction) → Decidable (R.Agrees s a)
  | .finish _ => inferInstanceAs (Decidable (_ → _))
  | .write _ | .disconnect | .button | .tick _ | .get | .timeout | .checkWindow | .applied _
  | .reset | .clear => isTrue trivial

/-! ### The script -/

/-- Where `cmd_enroll` stands. -/
inductive EnrollPc
  /-- At the head of the loop. -/
  | looping
  /-- In `get_envelope`, waiting for `reader.done`. -/
  | awaiting
  /-- In `submit`. -/
  | submitting
  /-- The status queue has been emptied; the body is about to be written. -/
  | drained
  | writing
  /-- The server wants the relay to come back. -/
  | sleeping
  /-- Waiting for the device's verdict. -/
  | watching (started : Bool)
  /-- `cmd_enroll` has returned. -/
  | exited (code : ℕ)
  /-- An exception other than `TimeoutError` has left `main`. -/
  | failed
  deriving DecidableEq, Repr

/-- The status of the process: what `sys.exit` is given, or Python's for an exception that nothing
catches. -/
def EnrollPc.exitStatus : EnrollPc → Option ℕ
  | .exited code => some code
  | .failed => some 1
  | _ => none

/-- The relay and the device. -/
structure Enrollment where
  device : ZtpState
  /-- The relay's writes. -/
  relay : Relay
  connected : Bool
  /-- The notifications on their way. -/
  down : List Note
  reader : RelayReader
  /-- The `status` queue. -/
  status : List ZtpStatus
  pc : EnrollPc
  answer : ServerAnswer
  /-- The responses that the device has handled, with the results. -/
  handled : List (List UInt8 × ℤ)

/-- The steps of both, and of what lies between them. -/
inductive EnrollAction
  /-- `get_envelope` up to the write of the kick. -/
  | kick
  | enveloped
  /-- `submit` returns, and the status queue is emptied. -/
  | answered (r : ServerAnswer)
  /-- The relay writes the body, its fragments at once or in pieces. -/
  | begin (msg : RelayMessage)
  /-- The body has been written; `late` says whether the deadline has passed. -/
  | written (late : Bool)
  | retry
  /-- The relay takes a status from its queue. -/
  | take
  /-- A `TimeoutError`: a wait is over, or another call takes too long. -/
  | timeout
  /-- Another exception: a write on a lost connection, a server that cannot be reached, an answer
  that does not parse. -/
  | fail
  /-- The connection is lost, or the script's end closes it. -/
  | disconnect
  /-- The device receives the relay's next write. -/
  | write
  /-- The relay receives the next notification. -/
  | deliver
  /-- A step of the device. -/
  | device (a : ZtpAction) (R : Radio)

/-- A received notification. -/
def Enrollment.receive (x : Enrollment) : Note → Enrollment
  | .frag data => { x with reader := x.reader.onNotify data }
  | .status s => { x with status := x.status ++ [s] }

/-- What the relay does with a status from its queue. -/
def watch (started : Bool) (s : ZtpStatus) : EnrollPc :=
  let started := started || s = .relaying
  if started = false then .watching started
  else if s = .done then .exited 0
  else if s = .error then .exited 1
  else .watching started

/-- What follows the body. -/
def EnrollPc.afterBody (st : List Char) (late : Bool) : EnrollPc :=
  if st = "pending".toList ∧ late = false then .sleeping
  else if st ≠ "accepted".toList then .exited 1
  else .watching false

/-- The script goes on with a message. -/
def Enrollment.start (x : Enrollment) (pc : EnrollPc) (msg : RelayMessage) : Enrollment :=
  { x with pc := pc, relay := x.relay.start msg }

/-- The relay's next write reaches the device. -/
def Enrollment.wrote (cfg : ZtpConfig) (x : Enrollment) (w : GattWrite) (rest : List GattWrite) :
    Enrollment :=
  { x with
    device := (writeRequest cfg x.device w).1
    relay := x.relay.wrote x.device.rxBusy w rest }

/-- The responses handled with a step of the device: one, with its result, when it was applied. -/
def Enrollment.handles (x : Enrollment) : ZtpAction → List (List UInt8 × ℤ)
  | .applied rc => [(x.device.rx, rc)]
  | _ => []

/-- The device has taken a step. -/
def Enrollment.moved (x : Enrollment) (R : Radio) (a : ZtpAction) (t : ZtpState) : Enrollment :=
  { x with
    device := t
    down := x.down ++ deviceNotes R x.device t a
    handled := x.handled ++ x.handles a }

/-- Without a connection nothing is on its way to the relay. -/
def Enrollment.reachable (x : Enrollment) : Enrollment :=
  if x.connected then x else { x with down := [] }

/-- The connection is lost, and in the middle of the body the next write raises. -/
def Enrollment.cut (x : Enrollment) : Enrollment :=
  { x with
    device := relayDisconnected x.device
    relay := x.relay.abandon
    connected := false
    down := []
    pc := if x.pc = .writing ∧ x.relay.rest ≠ [] then .failed else x.pc }

/-- One step; `none` when it cannot be taken. -/
def enrollStep (cfg : ZtpConfig) (x : Enrollment) : EnrollAction → Option Enrollment
  | .kick =>
    if x.pc = .looping ∧ x.connected = true ∧ x.relay.rest = [] then
      some ({ x with reader := .reset }.start .awaiting emptyMessage)
    else none
  | .enveloped =>
    if x.pc = .awaiting ∧ x.reader.done = true then some { x with pc := .submitting } else none
  | .answered r =>
    if x.pc = .submitting then some { x with pc := .drained, answer := r, status := [] } else none
  | .begin msg =>
    if x.pc = .drained ∧ x.connected = true ∧ x.relay.rest = [] ∧
        msg.fragments.map (·.payload) = relayPayloads x.answer.bytes then
      some (x.start .writing msg)
    else none
  | .written late =>
    if x.pc = .writing ∧ x.relay.rest = [] then
      some { x with pc := .afterBody x.answer.st late }
    else none
  | .retry => if x.pc = .sleeping then some { x with pc := .looping } else none
  | .take =>
    match x.pc, x.status with
    | .watching started, s :: rest => some { x with status := rest, pc := watch started s }
    | _, _ => none
  | .timeout =>
    match x.pc with
    | .exited _ | .failed => none
    | .awaiting | .watching _ => some { x with pc := .exited 2 }
    -- the exception leaves the body half written
    | _ => some { x with pc := .exited 2, relay := x.relay.abandon }
  | .fail =>
    match x.pc with
    | .exited _ | .failed => none
    | _ => some { x with pc := .failed, relay := x.relay.abandon }
  | .disconnect => if x.connected = true then some x.cut else none
  | .write =>
    match x.relay.rest with
    | [] => none
    | w :: rest => some (x.wrote cfg w rest)
  | .deliver =>
    match x.down with
    | [] => none
    | n :: rest => some ({ x with down := rest }.receive n)
  | .device a R =>
    if a.isDevice ∧ R.Agrees x.device a then
      (ztpStep cfg x.device a).map fun t ↦ (x.moved R a t).reachable
    else none

/-- The relay has connected. -/
def Enrollment.boot (s : ZtpState) : Enrollment :=
  ⟨s, .boot, true, [], .reset, [], .looping, ⟨0, []⟩, []⟩

end ThinEdge.Provisioner
