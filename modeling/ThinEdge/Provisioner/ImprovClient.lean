import ThinEdge.Lib.Decimal
import ThinEdge.Provisioner.Advertising
import ThinEdge.Provisioner.ImprovReassembly
import ThinEdge.Provisioner.ZtpReassembly
import ThinEdge.Settings.ProvIdentity

/-!
# Improv: the client script beside the device

`session` of `scripts/improv_provision.py` beside `improv_run`. The script writes one frame, at once
or as a long write in pieces, and takes notifications from a queue until it knows how the attempt
ended. The device sends a notification for every state and every error it sets, also when they do
not change, and the service URL of the application at the end. The Bluetooth stack loses
notifications when it has no buffer for them or no connection; it does not reorder them.

`improvNotes` is what a step of the device sends. `told_improvNotes` checks it against the step: the
last state and the last error that were sent are the ones the device has.
-/

namespace ThinEdge.Provisioner

open Bytes Net Settings Transition

/-! ### The device's notifications -/

/-- A notification as the script queues it. -/
inductive ImprovNote
  | state (v : UInt8)
  | error (v : UInt8)
  | result (data : List UInt8)
  deriving DecidableEq, Repr

/-- The value of an error. -/
def ImprovError.toUInt8 : ImprovError → UInt8
  | .none => 0x00
  | .invalidRpc => 0x01
  | .unknownRpc => 0x02
  | .unableToConnect => 0x03
  | .notAuthorized => 0x04
  | .unknown => 0xFF

/-- What `set_state` sends. -/
def setState (s : ImprovState) : ImprovNote := .state s.toUInt8

/-- What `set_error` sends. -/
def setError (e : ImprovError) : ImprovNote := .error e.toUInt8

/-- `url_scheme`. -/
def urlScheme (t : List UInt8) : List UInt8 :=
  if t = ascii "_opcua-tcp" then ascii "opc.tcp" else if t.head? = some 95 then t.tail else t

/-- The text that `set_result_url` prints: `%s://%s.local:%u`. -/
def urlText (ident : ProvIdentity) : List UInt8 :=
  urlScheme ident.service.cstr ++ ascii "://" ++ ident.hostname.cstr ++ ascii ".local:" ++
    Decimal.digits ident.port.toNat

/-- The URL of `set_result_url`: none without an identity, or when it does not fit its array. -/
def resultUrl (ident : Option ProvIdentity) : List UInt8 :=
  match ident with
  | some id => if (urlText id).length < 80 then urlText id else []
  | none => []

/-- `result_buf` after `set_result_url`. -/
def resultFrame (ident : Option ProvIdentity) : List UInt8 :=
  let url := resultUrl ident
  let body :=
    if url = [] then [cmdWifiSettings, 0]
    else [cmdWifiSettings, UInt8.ofNat (url.length + 1), UInt8.ofNat url.length] ++ url
  body ++ [checksum body body.length]

/-- What `handle_frame` sends for the settings of a well-formed frame. -/
def settingsNotes (s : ImprovShared) (creds : AppWifiCreds) : List ImprovNote :=
  match s.curState with
  | .authRequired => [setError .notAuthorized]
  | .authorized =>
    [setError .none, setState .provisioning] ++
      if (msgqPut provQSize s.provQ (.settings creds)).isSome then []
      else [setState .authorized, setError .unknown]
  | .provisioning | .provisioned => []

/-- What `handle_frame` sends. -/
def frameNotes (s : ImprovShared) (f : List UInt8) (n : ℕ) : List ImprovNote :=
  let cmd := f.getD 0 0
  let len := (f.getD 1 0).toNat
  if n ≠ len + 3 ∨ checksum f (n - 1) ≠ f.getD (n - 1) 0 then [setError .invalidRpc]
  else if cmd = cmdIdentify then [setError .none]
  else if cmd = cmdWifiSettings then
    match parseSettings f len with
    | some creds => settingsNotes s creds
    | none => [setError .invalidRpc]
  else [setError .unknownRpc]

/-- What `write_rpc` sends for bytes that are appended. -/
def appendNotes (s : ImprovShared) (bytes : List UInt8) : List ImprovNote :=
  if frameMax < s.rxLen + bytes.length then [setError .invalidRpc]
  else
    let r := s.received bytes
    if 2 ≤ r.rxLen ∧ r.frameLength ≤ r.rxLen then frameNotes r r.rxBuf r.rxLen else []

/-- What `write_rpc` sends. -/
def writeNotes (s : ImprovShared) (now : ℕ) (w : GattWrite) : List ImprovNote :=
  (appendsTo s now w).elim [] fun t ↦ appendNotes t w.bytes

/-- What a step of the device sends. -/
def improvNotes (cfg : ImprovConfig) (ident : Option ProvIdentity) (s : Improv) :
    ImprovAction → List ImprovNote
  | .write w => writeNotes s.toImprovShared s.now w
  | .joined rc =>
    if rc = 0 then []
    else [setError .unableToConnect,
      setState (stateAfterFailedJoin cfg.requireAuth s.authorizedNow)]
  | .store answer =>
    if answer.setRc = 0 then [setState .provisioned, .result (resultFrame ident)]
    else [setError .unknown, setState (idleState cfg.requireAuth)]
  | .authorize => [setState .authorized]
  | .deauthorize => [setState .authRequired]
  | .disconnect | .button | .tick _ | .get | .timeout | .checkAuth | .checkWindow => []

/-! ### What was sent is what the device shows -/

/-- A client's view of the state and the error after a notification. -/
def ImprovNote.tell (p : UInt8 × UInt8) : ImprovNote → UInt8 × UInt8
  | .state v => (v, p.2)
  | .error v => (p.1, v)
  | .result _ => p

/-- The values of the two characteristics. -/
def ImprovShared.shown (s : ImprovShared) : UInt8 × UInt8 :=
  (s.curState.toUInt8, s.curError.toUInt8)

variable {cfg : ImprovConfig} {ident : Option ProvIdentity} {s : ImprovShared} {d t : Improv}
  {a : ImprovAction}

theorem told_settingsNotes (s : ImprovShared) (creds : AppWifiCreds) :
    (settingsNotes s creds).foldl ImprovNote.tell s.shown = (handleSettings s creds).shown := by
  obtain ⟨curState, curError, rxBuf, rxLen, rxLast, provQ⟩ := s
  cases curState with
  | authorized =>
    simp only [settingsNotes, handleSettings, acceptSettings]
    rcases msgqPut provQSize provQ (.settings creds) with - | q
    · rfl
    · rfl
  | authRequired | provisioning | provisioned => rfl

theorem told_frameNotes (s : ImprovShared) (f : List UInt8) (n : ℕ) :
    (frameNotes s f n).foldl ImprovNote.tell s.shown = (handleFrame s f n).shown := by
  simp only [frameNotes, handleFrame]
  split
  · rfl
  split
  · rfl
  split
  · rcases parseSettings f (f.getD 1 0).toNat with - | creds
    · rfl
    · exact told_settingsNotes s creds
  · rfl

theorem told_appendNotes (s : ImprovShared) (bytes : List UInt8) :
    (appendNotes s bytes).foldl ImprovNote.tell s.shown = (appendRpc s bytes).shown := by
  rw [appendNotes, appendRpc]
  split
  · rfl
  dsimp only
  split
  · exact told_frameNotes (s.received bytes) _ _
  · rfl

theorem told_writeNotes (s : ImprovShared) (now : ℕ) (w : GattWrite) :
    (writeNotes s now w).foldl ImprovNote.tell s.shown = (writeRpc s now w).1.shown := by
  rw [writeNotes, writeRpc_eq, appendsTo]
  split
  · rfl
  split
  · exact told_appendNotes { s with rxLen := _, rxLast := now } w.bytes
  split
  · rfl
  · exact told_appendNotes { s with rxLast := now } w.bytes

/-- **The notifications of a step tell what it changes.** -/
theorem told_improvNotes (h : improvStep cfg d a = some t) :
    (improvNotes cfg ident d a).foldl ImprovNote.tell d.shown = t.shown := by
  cases a with
  | write w =>
    obtain rfl := Option.some.inj h
    exact told_writeNotes _ _ _
  | joined rc =>
    simp only [improvStep] at h
    split at h <;> simp only [Option.some.injEq, reduceCtorEq] at h
    subst h
    rw [improvNotes]
    rcases Decidable.em (rc = 0) with hrc | hrc
    · rw [if_pos hrc, if_neg (not_not.2 hrc)]
      rfl
    · rw [if_neg hrc, if_pos hrc]
      rfl
  | store answer =>
    simp only [improvStep] at h
    split at h <;> simp only [Option.some.injEq, reduceCtorEq] at h
    subst h
    rw [improvNotes]
    rcases Decidable.em (answer.setRc = 0) with hrc | hrc
    · rw [if_pos hrc, if_neg (not_not.2 hrc)]
      rfl
    · rw [if_neg hrc, if_pos hrc]
      rfl
  | get =>
    obtain ⟨-, m, rest, -, rfl⟩ := improvStep_get h
    rw [improvNotes, List.foldl_nil, dispatch_shared]
    rfl
  | authorize =>
    obtain ⟨-, rfl⟩ := improvStep_authorize h
    rfl
  | deauthorize =>
    obtain ⟨now, -, rfl⟩ := improvStep_deauthorize h
    rfl
  | disconnect | button | tick =>
    obtain rfl := Option.some.inj h
    rfl
  | timeout =>
    obtain ⟨-, rfl⟩ := improvStep_timeout h
    rfl
  | checkAuth =>
    obtain ⟨now, -, ⟨-, rfl⟩ | ⟨-, rfl⟩ | rfl⟩ := improvStep_checkAuth h <;> rfl
  | checkWindow =>
    obtain ⟨now, -, rfl | rfl | rfl⟩ := improvStep_checkWindow h <;> rfl

/-! ### The script -/

/-- The loop of `parse_result`, from index `i` on. -/
def parseResultFrom (data : List UInt8) (i : ℕ) : List (List UInt8) :=
  if i + 1 < data.length then
    let n := (data.getD i 0).toNat
    (data.drop (i + 1)).take n :: parseResultFrom data (i + 1 + n)
  else []
  termination_by data.length - i

/-- `parse_result`. -/
def parseResult (data : List UInt8) : List (List UInt8) := parseResultFrom data 2

/-- Where `session` stands. -/
inductive ScriptPc
  /-- In `write_gatt_char`, with these writes still to make. -/
  | writing (rest : List GattWrite)
  /-- In the loop, with its variable `rc`. -/
  | loop (rc : ℕ)
  | returned (rc : ℕ)
  /-- `write_gatt_char` has raised an error. -/
  | raised
  deriving DecidableEq, Repr

/-- The script and the device: `events` holds the notifications that the script is going to take, on
their way or in its queue, and `urls` what it has printed. -/
structure ImprovSession where
  device : Improv
  linked : Bool
  events : List ImprovNote
  pc : ScriptPc
  urls : List (List UInt8)
  deriving DecidableEq, Repr

/-- The steps of the script and of everything around it. The notifications of a step are heard, or
some of them are lost. -/
inductive ScriptAction
  /-- The device handles the next write. -/
  | write (heard : List ImprovNote)
  /-- `write_gatt_char` returns. -/
  | answered
  /-- It raises an error, since the connection is lost. -/
  | unlinked
  /-- `events.get` returns. -/
  | event
  /-- The deadline passes. -/
  | deadline
  /-- The device takes a step, or loses the connection. -/
  | device (a : ImprovAction) (heard : List ImprovNote)
  deriving DecidableEq, Repr

/-- The client writes. -/
def ImprovAction.isWrite : ImprovAction → Bool
  | .write _ => true
  | _ => false

/-- `write_gatt_char` after the answer to a write. -/
def ScriptPc.afterWrite (rest : List GattWrite) : WriteResult → ScriptPc
  | .count _ => .writing rest
  | .invalidOffset | .invalidAttributeLen => .raised

/-- The loop of `session` on a notification. -/
def ImprovSession.take (x : ImprovSession) (rc : ℕ) : ImprovNote → ImprovSession
  | .state v => { x with pc := .loop (if v = 4 then 0 else rc) }
  | .error v => { x with pc := if v ≠ 0 then .returned 1 else .loop rc }
  | .result data =>
    { x with urls := x.urls ++ parseResult data, pc := if rc = 0 then .returned 0 else .loop rc }

/-- One step; `none` when it cannot be taken. -/
def scriptStep (cfg : ImprovConfig) (ident : Option ProvIdentity) (x : ImprovSession) :
    ScriptAction → Option ImprovSession
  | .write heard =>
    match x.pc with
    | .writing (w :: rest) =>
      if x.linked ∧ heard.Sublist (writeNotes x.device.toImprovShared x.device.now w) then
        let r := writeRpc x.device.toImprovShared x.device.now w
        some { x with
          device := { x.device with toImprovShared := r.1 }
          events := x.events ++ heard
          pc := .afterWrite rest r.2 }
      else none
    | _ => none
  | .answered =>
    if x.pc = .writing [] ∧ x.linked then some { x with pc := .loop 2 } else none
  | .unlinked =>
    match x.pc with
    | .writing _ => if x.linked then none else some { x with pc := .raised }
    | _ => none
  | .event =>
    match x.pc, x.events with
    | .loop rc, n :: rest => some ({ x with events := rest }.take rc n)
    | _, _ => none
  | .deadline =>
    match x.pc with
    | .loop rc => some { x with pc := .returned (if rc = 0 then 0 else 2) }
    | _ => none
  | .device a heard =>
    -- a client that has lost its connection hears nothing, and nobody else writes
    if a.isWrite = false ∧
        heard.Sublist (if x.linked then improvNotes cfg ident x.device a else []) then
      (improvStep cfg x.device a).map fun t ↦
        { x with
          device := t
          linked := x.linked && decide (a ≠ .disconnect)
          events := x.events ++ heard }
    else none

/-- `session` from the write on: the script is connected and subscribed. -/
def ImprovSession.start (device : Improv) (ws : List GattWrite) : ImprovSession :=
  ⟨device, true, [], .writing ws, []⟩

/-! ### The URL -/

theorem parseResultFrom_of_lt {data : List UInt8} {i : ℕ} (h : i + 1 < data.length) :
    parseResultFrom data i = (data.drop (i + 1)).take (data.getD i 0).toNat ::
      parseResultFrom data (i + 1 + (data.getD i 0).toNat) := by
  rw [parseResultFrom, if_pos h]

theorem parseResultFrom_of_le {data : List UInt8} {i : ℕ} (h : data.length ≤ i + 1) :
    parseResultFrom data i = [] := by
  rw [parseResultFrom, if_neg (Nat.not_lt.2 h)]

theorem length_resultUrl_lt (ident : Option ProvIdentity) : (resultUrl ident).length < 80 := by
  rcases ident with - | id
  · decide
  · rw [resultUrl]
    split
    · next h => exact h
    · decide

/-- **The script reads the URL that the device sends**, or none. -/
theorem parseResult_resultFrame (ident : Option ProvIdentity) :
    parseResult (resultFrame ident) = if resultUrl ident = [] then [] else [resultUrl ident] := by
  have hlt := length_resultUrl_lt ident
  rw [parseResult, resultFrame]
  generalize resultUrl ident = url at *
  split
  · exact parseResultFrom_of_le (Nat.le_refl 3)
  · next hne =>
    generalize checksum _ _ = sum
    have hlen : ([cmdWifiSettings, UInt8.ofNat (url.length + 1), UInt8.ofNat url.length] ++ url ++
        [sum]).length = url.length + 4 := by
      simp only [List.length_append, List.length_cons, List.length_nil]
      omega
    have hget : (([cmdWifiSettings, UInt8.ofNat (url.length + 1), UInt8.ofNat url.length] ++ url ++
        [sum]).getD 2 0).toNat = url.length :=
      UInt8.toNat_ofNat_of_lt' (Nat.lt_trans hlt (by decide))
    rw [parseResultFrom_of_lt (by omega), hget, parseResultFrom_of_le (by omega)]
    show [(url ++ [sum]).take url.length] = [url]
    rw [List.take_left' rfl]

end ThinEdge.Provisioner
