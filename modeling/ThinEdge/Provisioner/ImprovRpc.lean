import ThinEdge.Provisioner.FrontEnds
import ThinEdge.Provisioner.Gatt

/-!
# Improv: the RPC characteristic

What the Bluetooth receive context does in `apps/wifi-provisioner/src/improv.c`: `write_rpc`
reassembles a frame from the writes of a client, and `handle_frame` checks it and queues the
settings it carries. `ImprovShared` is the state it shares with the main loop; `prov_q` holds two
messages and is written without waiting.
-/

namespace ThinEdge.Provisioner

open Net

/-- `struct prov_msg`. -/
inductive ProvMsg
  | settings (creds : AppWifiCreds)
  | button
  deriving DecidableEq, Repr

/-- The message carries settings. -/
def ProvMsg.isSettings : ProvMsg → Bool
  | .settings _ => true
  | .button => false

/-- The messages `prov_q` holds. -/
def provQSize : ℕ := 2

/-- `FRAME_MAX`: command, length and checksum, and the longest settings. -/
def frameMax : ℕ := 3 + 1 + 32 + 1 + 64

/-- What the Bluetooth context and the main loop share. Times are `k_uptime_get` in ms. -/
structure ImprovShared where
  curState : ImprovState
  curError : ImprovError
  rxBuf : List UInt8
  rxLen : ℕ
  rxLast : ℕ
  provQ : List ProvMsg
  deriving DecidableEq, Repr

/-- `checksum` of the first `n` bytes. -/
def checksum (f : List UInt8) (n : ℕ) : UInt8 := (f.take n).foldl (· + ·) 0

/-- `CMD_WIFI_SETTINGS`. -/
def cmdWifiSettings : UInt8 := 1

/-- `CMD_IDENTIFY`. -/
def cmdIdentify : UInt8 := 2

/-- `handle_frame` for settings in a device that accepts them: the state moves on at once, so that a
repeated write is ignored, and moves back when the queue is full. -/
def acceptSettings (s : ImprovShared) (creds : AppWifiCreds) : ImprovShared :=
  match msgqPut provQSize s.provQ (.settings creds) with
  | some q => { s with curState := .provisioning, curError := .none, provQ := q }
  | none => { s with curState := .authorized, curError := .unknown }

/-- `handle_frame` for the settings of a well-formed frame. -/
def handleSettings (s : ImprovShared) (creds : AppWifiCreds) : ImprovShared :=
  match s.curState with
  | .authRequired => { s with curError := .notAuthorized }
  | .authorized => acceptSettings s creds
  -- already testing or provisioned
  | .provisioning | .provisioned => s

/-- The settings in the data of a frame, `len` bytes from the third on, when they are well formed:
an SSID of 1 to 32 bytes and a password of at most 64, each behind its length, and nothing else. -/
def parseSettings (f : List UInt8) (len : ℕ) : Option AppWifiCreds :=
  let d := f.drop 2
  let ssidLen := if 1 ≤ len then (d.getD 0 0).toNat else 0
  if hssid : len < 2 ∨ ssidLen = 0 ∨ 32 < ssidLen ∨ len < ssidLen + 2 then none
  else
    let pskLen := (d.getD (1 + ssidLen) 0).toNat
    if hpsk : 64 < pskLen ∨ ssidLen + pskLen + 2 ≠ len then none
    else
      some
        { ssid := (d.drop 1).take ssidLen
          psk := (d.drop (2 + ssidLen)).take pskLen
          ssid_length_lt := by
            rw [List.length_take]
            omega
          psk_length_lt := by
            rw [List.length_take]
            omega }

/-- `handle_frame`: checks one frame of `n` bytes and acts on it. -/
def handleFrame (s : ImprovShared) (f : List UInt8) (n : ℕ) : ImprovShared :=
  let cmd := f.getD 0 0
  let len := (f.getD 1 0).toNat
  if n ≠ len + 3 ∨ checksum f (n - 1) ≠ f.getD (n - 1) 0 then { s with curError := .invalidRpc }
  else if cmd = cmdIdentify then { s with curError := .none }
  else if cmd = cmdWifiSettings then
    match parseSettings f len with
    | some creds => handleSettings s creds
    | none => { s with curError := .invalidRpc }
  else { s with curError := .unknownRpc }

/-- The bytes a frame that is being received is going to have. -/
def ImprovShared.frameLength (s : ImprovShared) : ℕ := (s.rxBuf.getD 1 0).toNat + 3

/-- The write continues a frame that an earlier one left incomplete. -/
def ImprovShared.continuing (s : ImprovShared) (now : ℕ) (w : GattWrite) : Bool :=
  2 ≤ s.rxLen && s.rxLen < s.frameLength && now - s.rxLast < 2000 && !w.execute

/-- Bytes received at `rx_len`. -/
def ImprovShared.received (s : ImprovShared) (bytes : List UInt8) : ImprovShared :=
  { s with
    rxBuf := s.rxBuf.take s.rxLen ++ bytes ++ s.rxBuf.drop (s.rxLen + bytes.length)
    rxLen := s.rxLen + bytes.length }

/-- `write_rpc` for bytes that are to be appended at `rx_len`: a complete frame is handled. -/
def appendRpc (s : ImprovShared) (bytes : List UInt8) : ImprovShared :=
  if frameMax < s.rxLen + bytes.length then { s with rxLen := 0, curError := .invalidRpc }
  else
    let r := s.received bytes
    if 2 ≤ r.rxLen ∧ r.frameLength ≤ r.rxLen then
      { handleFrame r r.rxBuf r.rxLen with rxBuf := List.replicate frameMax 0, rxLen := 0 }
    else r

/-- `write_rpc`. -/
def writeRpc (s : ImprovShared) (now : ℕ) (w : GattWrite) : ImprovShared × WriteResult :=
  if w.prepare then (s, .count 0)
  else if w.offset = 0 then
    let rxLen := if s.continuing now w then s.rxLen else 0
    (appendRpc { s with rxLen, rxLast := now } w.bytes, .count w.bytes.length)
  else if w.offset ≠ s.rxLen then (s, .invalidOffset)
  else (appendRpc { s with rxLast := now } w.bytes, .count w.bytes.length)

/-- `on_disconnected` for a frame that is being received. -/
def dropPartial (s : ImprovShared) : ImprovShared := { s with rxLen := 0 }

/-- `btn_work_fn` for a press. -/
def pressButton (s : ImprovShared) : ImprovShared :=
  { s with provQ := (msgqPut provQSize s.provQ .button).getD s.provQ }

/-- After boot. -/
def ImprovShared.boot (requireAuth : Bool) : ImprovShared where
  curState := idleState requireAuth
  curError := .none
  rxBuf := List.replicate frameMax 0
  rxLen := 0
  rxLast := 0
  provQ := []

/-! ### What a write can do to the state and the queue -/

/-- Settings were queued: the only way in which the Bluetooth context leads to `provisioning`. -/
def Queued (s t : ImprovShared) : Prop :=
  s.curState = .authorized ∧ t.curState = .provisioning ∧
    ∃ creds, t.provQ = s.provQ ++ [.settings creds]

/-- The Bluetooth context left the state and the queue. -/
def Unmoved (s t : ImprovShared) : Prop := t.curState = s.curState ∧ t.provQ = s.provQ

theorem Unmoved.refl (s : ImprovShared) : Unmoved s s := ⟨rfl, rfl⟩

theorem acceptSettings_cases {s : ImprovShared} (h : s.curState = .authorized)
    (creds : AppWifiCreds) :
    Queued s (acceptSettings s creds) ∨ Unmoved s (acceptSettings s creds) := by
  rw [acceptSettings]
  rcases Nat.lt_or_ge s.provQ.length provQSize with hroom | hfull
  · rw [msgqPut_of_lt hroom]
    exact Or.inl ⟨h, rfl, creds, rfl⟩
  · rw [msgqPut_of_le hfull]
    exact Or.inr ⟨h.symm, rfl⟩

theorem handleSettings_cases (s : ImprovShared) (creds : AppWifiCreds) :
    Queued s (handleSettings s creds) ∨ Unmoved s (handleSettings s creds) := by
  rw [handleSettings]
  split
  · exact Or.inr ⟨rfl, rfl⟩
  · next h => exact acceptSettings_cases h creds
  · exact Or.inr (Unmoved.refl s)
  · exact Or.inr (Unmoved.refl s)

theorem handleFrame_cases (s : ImprovShared) (f : List UInt8) (n : ℕ) :
    Queued s (handleFrame s f n) ∨ Unmoved s (handleFrame s f n) := by
  unfold handleFrame
  dsimp only
  split
  · exact Or.inr ⟨rfl, rfl⟩
  split
  · exact Or.inr ⟨rfl, rfl⟩
  split
  · split
    · exact handleSettings_cases s _
    · exact Or.inr ⟨rfl, rfl⟩
  · exact Or.inr ⟨rfl, rfl⟩

theorem appendRpc_cases (s : ImprovShared) (bytes : List UInt8) :
    Queued s (appendRpc s bytes) ∨ Unmoved s (appendRpc s bytes) := by
  rw [appendRpc]
  split
  · exact Or.inr ⟨rfl, rfl⟩
  dsimp only
  split
  · exact handleFrame_cases (s.received bytes) _ _
  · exact Or.inr ⟨rfl, rfl⟩

/-- **A write queues settings and moves to `provisioning`, or does neither.** -/
theorem writeRpc_cases (s : ImprovShared) (now : ℕ) (w : GattWrite) :
    Queued s (writeRpc s now w).1 ∨ Unmoved s (writeRpc s now w).1 := by
  rw [writeRpc]
  split
  · exact Or.inr (Unmoved.refl s)
  split
  · exact appendRpc_cases { s with rxLen := _, rxLast := now } w.bytes
  split
  · exact Or.inr (Unmoved.refl s)
  · exact appendRpc_cases { s with rxLast := now } w.bytes

end ThinEdge.Provisioner
