import ThinEdge.Lib.Bytes
import ThinEdge.Lib.Transition
import ThinEdge.Net.Credentials
import ThinEdge.Provisioner.Gatt

/-!
# Zero-touch provisioning: receiving the relay's messages

The receive path of `apps/wifi-provisioner/src/ztp.c`: `write_request` and `rx_fragment` in the
Bluetooth context, and `ztp_run` on the main thread, which handles what they post. A complete
message sets `rx_busy` and hands the buffer to the main thread; until `release_rx` clears it, every
write is ignored.

`post` does not wait and its result is ignored, and the button posts to the same queue. A message
that ends while the queue is full sets `rx_busy` and is lost, and then nobody is left to clear it.
`rxBusy_released_iff` shows that the buffer is always in somebody's hands in exactly the runs
without such a message, and that in those the main thread gives it back within a fixed number of its
steps.
-/

namespace ThinEdge.Provisioner

open Bytes Net Transition

/-- `enum ztp_msg`. -/
inductive ZtpMsg
  | kick
  | response
  | overflow
  | button
  deriving DecidableEq, Repr

/-- The message hands over the receive buffer. -/
def ZtpMsg.isRx : ZtpMsg → Bool
  | .button => false
  | _ => true

/-- `enum ztp_status_byte`. -/
inductive ZtpStatus
  | idle
  | relaying
  | done
  | error
  deriving DecidableEq, Repr

/-- The messages `ztp_q` holds. -/
def ztpQSize : ℕ := 4

/-- The bytes of `frag`: a length and at most `FRAG_MAX` bytes. -/
def fragSize : ℕ := 2 + 512

/-- What the provisioner is built with. -/
structure ZtpConfig where
  /-- `CONFIG_APP_PROV_ZTP_RX_BYTES`. -/
  rxBytes : ℕ
  /-- `CONFIG_APP_WIFI_PROV_WINDOW_S`. -/
  windowS : ℕ
  wifi : WifiConfig
  deriving DecidableEq, Repr

/-- A message the main thread is handling, with the result of applying a response. -/
inductive Handled
  | kick
  | overflow
  | response (rc : ℤ)
  deriving DecidableEq, Repr

/-- Where the main loop stands. -/
inductive ZtpPc
  /-- In `k_msgq_get`. -/
  | wait
  /-- The worker applies a response. -/
  | applying
  /-- `release_rx` is about to reset the receive state. -/
  | handling (h : Handled)
  /-- `release_rx` is about to clear `rx_busy`. -/
  | releasing (h : Handled)
  /-- The buffer is released; the rest of the handling. -/
  | answering (h : Handled)
  /-- The wait has timed out: the window is about to be checked. -/
  | expired
  /-- About to reboot into the application. -/
  | leaving
  deriving DecidableEq, Repr

/-- The main thread holds the receive buffer. -/
def ZtpPc.holdsRx : ZtpPc → Bool
  | .applying | .handling _ | .releasing _ => true
  | _ => false

/-- The state of the receive path. `rx` is `rx_buf` up to `rx_len`, and `frag` the received part of
a fragment, up to `frag_have`. Times are in ms. -/
structure ZtpState where
  rx : List UInt8
  rxOverflow : Bool
  rxBusy : Bool
  frag : List UInt8
  ztpQ : List ZtpMsg
  curStatus : ZtpStatus
  pc : ZtpPc
  idle : Bool
  deadline : ℕ
  returnOnExpiry : Bool
  store : CredStore
  now : ℕ
  deriving DecidableEq, Repr

/-! ### The Bluetooth context -/

/-- `post`: a message for which there is no room is lost. -/
def ZtpState.post (s : ZtpState) (m : ZtpMsg) : ZtpState :=
  { s with ztpQ := (msgqPut ztpQSize s.ztpQ m).getD s.ztpQ }

/-- `rx_reset`. -/
def ZtpState.rxReset (s : ZtpState) : ZtpState :=
  { s with rx := [], rxOverflow := false, frag := [] }

/-- The declared length of the fragment in `frag`, once its first two bytes are there. -/
def ZtpState.fragLength (s : ZtpState) : ℕ := getBe16 (s.frag.getD 0 0) (s.frag.getD 1 0)

/-- The fragment in `frag` is complete. -/
def ZtpState.fragComplete (s : ZtpState) : Prop :=
  2 ≤ s.frag.length ∧ 2 + s.fragLength ≤ s.frag.length

instance (s : ZtpState) : Decidable s.fragComplete := inferInstanceAs (Decidable (_ ∧ _))

/-- The message that the end of a reassembled message posts. -/
def ZtpState.endMsg (s : ZtpState) : ZtpMsg :=
  if s.rx.length = 0 then .kick else if s.rxOverflow then .overflow else .response

/-- `rx_fragment`, for a complete fragment in `frag`. -/
def rxFragment (cfg : ZtpConfig) (s : ZtpState) : ZtpState :=
  let n := s.fragLength
  if n = 0 then { s with rxBusy := true }.post s.endMsg
  else if cfg.rxBytes < s.rx.length + n then { s with rxOverflow := true }
  else { s with rx := s.rx ++ (s.frag.drop 2).take n }

/-- The received part of the fragment that a write is appended to: none when it starts one. -/
def ZtpState.fragStart (s : ZtpState) (w : GattWrite) : List UInt8 :=
  if w.offset = 0 then [] else s.frag

/-- The state with the bytes of a write appended to the fragment. -/
def ZtpState.appended (s : ZtpState) (w : GattWrite) : ZtpState :=
  { s with frag := s.fragStart w ++ w.bytes }

/-- `write_request`. -/
def writeRequest (cfg : ZtpConfig) (s : ZtpState) (w : GattWrite) : ZtpState × WriteResult :=
  if w.prepare then (s, .count 0)
  else if s.rxBusy then (s, .count w.bytes.length)
  else if w.offset ≠ 0 ∧ w.offset ≠ s.frag.length then (s, .invalidOffset)
  else if fragSize < (s.fragStart w).length + w.bytes.length then
    ({ s with frag := s.fragStart w }, .invalidAttributeLen)
  else
    let r := s.appended w
    (if r.fragComplete then { rxFragment cfg r with frag := [] } else r, .count w.bytes.length)

/-- `on_disconnected` for the receive state: a complete message stays the main thread's. -/
def relayDisconnected (s : ZtpState) : ZtpState := if s.rxBusy then s else s.rxReset

/-! ### The main loop -/

/-- The steps of the main loop and of everything around it. -/
inductive ZtpAction
  /-- The relay writes to the request characteristic. -/
  | write (w : GattWrite)
  | disconnect
  | button
  /-- Time passes. -/
  | tick (ms : ℕ)
  /-- `k_msgq_get` takes a message. -/
  | get
  /-- `k_msgq_get` times out. -/
  | timeout
  | checkWindow
  /-- `handle_response` returns. -/
  | applied (rc : ℤ)
  /-- `release_rx` resets the receive state. -/
  | reset
  /-- `release_rx` clears `rx_busy`. -/
  | clear
  /-- The handling ends; for a kick, with the result of building and sending the envelope. -/
  | finish (rc : ℤ)
  deriving DecidableEq, Repr

/-- A step of the main thread. -/
def ZtpAction.isMain : ZtpAction → Bool
  | .get | .timeout | .checkWindow | .applied _ | .reset | .clear | .finish _ => true
  | _ => false

/-- The main loop on a message from the queue. -/
def ZtpState.dispatch (cfg : ZtpConfig) (s : ZtpState) : ZtpMsg → ZtpState
  | .kick => { s with pc := .handling .kick }
  | .overflow => { s with pc := .handling .overflow }
  | .response => { s with pc := .applying, curStatus := .relaying }
  | .button =>
    if s.idle then { s with idle := false, deadline := s.now + cfg.windowS * 1000 } else s

/-- The main loop once it has released the buffer. -/
def ZtpState.finish (s : ZtpState) (rc : ℤ) : Handled → ZtpState
  | .kick =>
    -- an idle device only releases the buffer
    if s.idle then { s with pc := .wait }
    else { s with pc := .wait, curStatus := if rc = 0 then .done else .error }
  | .overflow => { s with pc := .wait, curStatus := .error }
  | .response applied =>
    if applied ≠ 0 then { s with pc := .wait, curStatus := .error }
    else { s with pc := .leaving, curStatus := .done }

/-- One step; `none` when it cannot be taken. -/
def ztpStep (cfg : ZtpConfig) (s : ZtpState) : ZtpAction → Option ZtpState
  | .write w => some (writeRequest cfg s w).1
  | .disconnect => some (relayDisconnected s)
  | .button => some (s.post .button)
  | .tick ms => some { s with now := s.now + ms }
  | .get =>
    if s.pc = .wait then
      match s.ztpQ with
      | m :: rest => some ({ s with ztpQ := rest }.dispatch cfg m)
      | [] => none
    else none
  | .timeout =>
    if s.pc = .wait ∧ s.ztpQ = [] ∧ s.idle = false ∧ s.deadline ≤ s.now then
      some { s with pc := .expired }
    else none
  | .checkWindow =>
    if s.pc = .expired then
      some (if s.returnOnExpiry ∨ (appWifiCredsResolve cfg.wifi s.store).isSome then
        { s with pc := .leaving } else { s with pc := .wait, idle := true })
    else none
  | .applied rc =>
    if s.pc = .applying then some { s with pc := .handling (.response rc) } else none
  | .reset =>
    match s.pc with
    | .handling h => some { s.rxReset with pc := .releasing h }
    | _ => none
  | .clear =>
    match s.pc with
    | .releasing h =>
      some { s with
        pc := .answering h
        rxBusy := false
        curStatus := if h = .kick ∧ s.idle = false then .relaying else s.curStatus }
    | _ => none
  | .finish rc =>
    match s.pc with
    | .answering h => some (s.finish rc h)
    | _ => none

/-- The loop's first wait. -/
def ZtpState.boot (cfg : ZtpConfig) (returnOnExpiry : Bool) (store : CredStore) : ZtpState where
  rx := []
  rxOverflow := false
  rxBusy := false
  frag := []
  ztpQ := []
  curStatus := .idle
  pc := .wait
  idle := false
  deadline := cfg.windowS * 1000
  returnOnExpiry := returnOnExpiry
  store := store
  now := 0

/-! ### The property and its condition -/

/-- A buffer that is handed over is in a queued message or in the main thread's hands. -/
def RxHeld (s : ZtpState) : Prop := s.rxBusy → s.ztpQ.any ZtpMsg.isRx ∨ s.pc.holdsRx

/-- The write ends a message: it completes a fragment of length zero. -/
def EndsMessage (s : ZtpState) (w : GattWrite) : Prop :=
  w.prepare = false ∧ s.rxBusy = false ∧ (w.offset = 0 ∨ w.offset = s.frag.length) ∧
    (s.fragStart w).length + w.bytes.length ≤ fragSize ∧
    (s.appended w).fragComplete ∧ (s.appended w).fragLength = 0

/-- A message ends only when the queue has room for it. -/
def RoomForMessage (s : ZtpState) : ZtpAction → Prop
  | .write w => EndsMessage s w → s.ztpQ.length < ztpQSize
  | _ => True

instance (s : ZtpState) : Decidable (RxHeld s) := inferInstanceAs (Decidable (_ → _))

instance (s : ZtpState) (w : GattWrite) : Decidable (EndsMessage s w) :=
  inferInstanceAs (Decidable (_ ∧ _))

instance (s : ZtpState) : (a : ZtpAction) → Decidable (RoomForMessage s a)
  | .write w => inferInstanceAs (Decidable (EndsMessage s w → _))
  | .disconnect | .button | .tick _ | .get | .timeout | .checkWindow | .applied _ | .reset | .clear
  | .finish _ => isTrue trivial

/-! ### What a write does to the queue -/

variable {cfg : ZtpConfig} {s t : ZtpState} {a : ZtpAction}

/-- The main thread and its queue are as they were, and nothing was handed over. -/
structure SameHands (s t : ZtpState) : Prop where
  rxBusy : t.rxBusy = s.rxBusy
  ztpQ : t.ztpQ = s.ztpQ
  pc : t.pc = s.pc

/-- The buffer was handed over with a message, for which the queue may have had no room. -/
structure HandedOver (s t : ZtpState) : Prop where
  free : s.rxBusy = false
  rxBusy : t.rxBusy = true
  ztpQ : ∃ m : ZtpMsg, m.isRx ∧ t.ztpQ = (msgqPut ztpQSize s.ztpQ m).getD s.ztpQ
  pc : t.pc = s.pc

theorem isRx_endMsg (s : ZtpState) : s.endMsg.isRx := by
  rw [ZtpState.endMsg]
  split
  · rfl
  split <;> rfl

/-- **A write hands the buffer over when it ends a message, and else leaves the main thread alone.**
-/
theorem writeRequest_cases (cfg : ZtpConfig) (s : ZtpState) (w : GattWrite) :
    EndsMessage s w ∧ HandedOver s (writeRequest cfg s w).1 ∨
      ¬ EndsMessage s w ∧ SameHands s (writeRequest cfg s w).1 := by
  rw [writeRequest]
  by_cases hprep : w.prepare = true
  · rw [if_pos hprep]
    exact Or.inr ⟨fun h ↦ absurd hprep (by simp [h.1]), rfl, rfl, rfl⟩
  rw [if_neg hprep]
  by_cases hbusy : s.rxBusy = true
  · rw [if_pos hbusy]
    exact Or.inr ⟨fun h ↦ absurd hbusy (by simp [h.2.1]), rfl, rfl, rfl⟩
  rw [if_neg hbusy]
  by_cases hoff : w.offset ≠ 0 ∧ w.offset ≠ s.frag.length
  · rw [if_pos hoff]
    exact Or.inr ⟨fun h ↦ h.2.2.1.elim hoff.1 hoff.2, rfl, rfl, rfl⟩
  rw [if_neg hoff]
  by_cases hlen : fragSize < (s.fragStart w).length + w.bytes.length
  · rw [if_pos hlen]
    exact Or.inr ⟨fun h ↦ absurd hlen (Nat.not_lt.2 h.2.2.2.1), rfl, rfl, rfl⟩
  rw [if_neg hlen]
  by_cases hcomp : (s.appended w).fragComplete
  · simp only [if_pos hcomp, rxFragment]
    by_cases hzero : (s.appended w).fragLength = 0
    · rw [if_pos hzero]
      have hfree : s.rxBusy = false := by simpa using hbusy
      refine Or.inl ⟨⟨by simpa using hprep, hfree, by omega, by omega, hcomp, hzero⟩, hfree, rfl,
        ⟨_, isRx_endMsg (s.appended w), rfl⟩, rfl⟩
    · rw [if_neg hzero]
      refine Or.inr ⟨fun h ↦ hzero h.2.2.2.2.2, ?_⟩
      split <;> exact ⟨rfl, rfl, rfl⟩
  · simp only [if_neg hcomp]
    exact Or.inr ⟨fun h ↦ hcomp h.2.2.2.2.1, rfl, rfl, rfl⟩

/-! ### The invariant -/

/-- The messages that hold the buffer: those in the queue and the one being handled. -/
def rxHolders (s : ZtpState) : ℕ :=
  s.ztpQ.countP ZtpMsg.isRx + if s.pc.holdsRx then 1 else 0

/-- One message holds the buffer while it is handed over, and none while it is free. -/
structure ZtpInv (s : ZtpState) : Prop where
  holders : rxHolders s = if s.rxBusy then 1 else 0
  room : s.ztpQ.length ≤ ztpQSize

theorem ZtpInv.rxHeld (h : ZtpInv s) : RxHeld s := by
  intro hbusy
  have hone := h.holders
  rw [rxHolders, hbusy, if_pos rfl] at hone
  by_cases hpc : s.pc.holdsRx = true
  · exact Or.inr hpc
  · rw [if_neg hpc, Nat.add_zero] at hone
    refine Or.inl ?_
    obtain ⟨m, hm, hrx⟩ := List.countP_pos_iff.1 (by omega : 0 < s.ztpQ.countP ZtpMsg.isRx)
    exact List.any_eq_true.2 ⟨m, hm, hrx⟩

theorem ztpInv_boot (cfg : ZtpConfig) (returnOnExpiry : Bool) (store : CredStore) :
    ZtpInv (.boot cfg returnOnExpiry store) := ⟨rfl, by simp [ZtpState.boot]⟩

/-- A message that finds room in the queue. -/
theorem ZtpInv.handedOver (h : ZtpInv s) (hover : HandedOver s t)
    (hroom : s.ztpQ.length < ztpQSize) : ZtpInv t := by
  obtain ⟨hfree, hbusy, ⟨m, hm, hq⟩, hpc⟩ := hover
  rw [msgqPut_of_lt hroom, Option.getD_some] at hq
  have hnone : rxHolders s = 0 := by
    rw [h.holders, hfree]
    rfl
  refine ⟨?_, ?_⟩
  · rw [rxHolders] at hnone
    rw [rxHolders, hbusy, hq, hpc, List.countP_append, List.countP_singleton, hm]
    simp only [if_true]
    omega
  · rw [hq, List.length_append, List.length_singleton]
    exact hroom

theorem rxHolders_congr (hq : t.ztpQ = s.ztpQ) (hpc : t.pc.holdsRx = s.pc.holdsRx) :
    rxHolders t = rxHolders s := by
  rw [rxHolders, rxHolders, hq, hpc]

theorem length_msgqPut_le {μ : Type} {size : ℕ} {q : List μ} (m : μ) (h : q.length ≤ size) :
    ((msgqPut size q m).getD q).length ≤ size := by
  rcases Nat.lt_or_ge q.length size with hroom | hfull
  · rw [msgqPut_of_lt hroom, Option.getD_some, List.length_append, List.length_singleton]
    exact hroom
  · rwa [msgqPut_of_le hfull, Option.getD_none]

/-- The button's message holds nothing, whether or not there is room for it. -/
theorem rxHolders_button (s : ZtpState) : rxHolders (s.post .button) = rxHolders s := by
  rcases Nat.lt_or_ge s.ztpQ.length ztpQSize with hroom | hfull
  · have hq : (s.post .button).ztpQ = s.ztpQ ++ [.button] := by
      simp [ZtpState.post, msgqPut_of_lt hroom]
    rw [rxHolders, hq, List.countP_append, List.countP_singleton]
    rfl
  · exact rxHolders_congr (by simp [ZtpState.post, msgqPut_of_le hfull]) rfl

theorem ztpStep_get (ht : ztpStep cfg s .get = some t) :
    s.pc = .wait ∧ ∃ m rest, s.ztpQ = m :: rest ∧ t = { s with ztpQ := rest }.dispatch cfg m := by
  simp only [ztpStep, Option.ite_none_right_eq_some] at ht
  obtain ⟨hpc, ht⟩ := ht
  split at ht <;> simp only [Option.some.injEq, reduceCtorEq] at ht
  next m rest hq => exact ⟨hpc, m, rest, hq, ht.symm⟩

theorem ztpStep_timeout (ht : ztpStep cfg s .timeout = some t) :
    (s.pc = .wait ∧ s.ztpQ = [] ∧ s.idle = false ∧ s.deadline ≤ s.now) ∧
      t = { s with pc := .expired } := by
  simp only [ztpStep, Option.ite_none_right_eq_some, Option.some.injEq] at ht
  exact ⟨ht.1, ht.2.symm⟩

/-- The loop is left if there are credentials to go on with; otherwise it becomes idle. -/
theorem ztpStep_checkWindow (ht : ztpStep cfg s .checkWindow = some t) :
    s.pc = .expired ∧
      ((s.returnOnExpiry ∨ (appWifiCredsResolve cfg.wifi s.store).isSome) ∧
          t = { s with pc := .leaving } ∨
        ¬ (s.returnOnExpiry ∨ (appWifiCredsResolve cfg.wifi s.store).isSome) ∧
          t = { s with pc := .wait, idle := true }) := by
  simp only [ztpStep, Option.ite_none_right_eq_some, Option.some.injEq] at ht
  obtain ⟨hpc, rfl⟩ := ht
  refine ⟨hpc, ?_⟩
  split
  · next hhave => exact Or.inl ⟨hhave, rfl⟩
  · next hnone => exact Or.inr ⟨hnone, rfl⟩

theorem ztpStep_applied {rc : ℤ} (ht : ztpStep cfg s (.applied rc) = some t) :
    s.pc = .applying ∧ t = { s with pc := .handling (.response rc) } := by
  simp only [ztpStep, Option.ite_none_right_eq_some, Option.some.injEq] at ht
  exact ⟨ht.1, ht.2.symm⟩

theorem ztpStep_reset (ht : ztpStep cfg s .reset = some t) :
    ∃ hd, s.pc = .handling hd ∧ t = { s.rxReset with pc := .releasing hd } := by
  simp only [ztpStep] at ht
  split at ht <;> simp only [Option.some.injEq, reduceCtorEq] at ht
  next hd hpc => exact ⟨hd, hpc, ht.symm⟩

theorem ztpStep_clear (ht : ztpStep cfg s .clear = some t) :
    ∃ hd, s.pc = .releasing hd ∧ t = { s with
      pc := .answering hd
      rxBusy := false
      curStatus := if hd = .kick ∧ s.idle = false then .relaying else s.curStatus } := by
  simp only [ztpStep] at ht
  split at ht <;> simp only [Option.some.injEq, reduceCtorEq] at ht
  next hd hpc => exact ⟨hd, hpc, ht.symm⟩

theorem ztpStep_finish {rc : ℤ} (ht : ztpStep cfg s (.finish rc) = some t) :
    ∃ hd, s.pc = .answering hd ∧ t = s.finish rc hd := by
  simp only [ztpStep] at ht
  split at ht <;> simp only [Option.some.injEq, reduceCtorEq] at ht
  next hd hpc => exact ⟨hd, hpc, ht.symm⟩

/-- Taking a message from the queue passes the buffer on with it. -/
theorem rxHolders_get (ht : ztpStep cfg s .get = some t) :
    t.rxBusy = s.rxBusy ∧ rxHolders t = rxHolders s ∧ t.ztpQ.length ≤ s.ztpQ.length := by
  obtain ⟨hpc, m, rest, hq, rfl⟩ := ztpStep_get ht
  have hlen : rest.length ≤ s.ztpQ.length := by
    rw [hq]
    exact Nat.le_succ _
  have hold : rxHolders s = rest.countP ZtpMsg.isRx + if m.isRx = true then 1 else 0 := by
    rw [rxHolders, hq, hpc, List.countP_cons]
    rfl
  rw [hold]
  cases m <;> rw [ZtpState.dispatch] <;> dsimp only
  case button =>
    split <;> exact ⟨rfl, by rw [rxHolders, hpc]; rfl, hlen⟩
  all_goals exact ⟨rfl, rfl, hlen⟩

/-- What a step may do to the hold on the buffer: nothing, or it ends a message, or it releases the
buffer. -/
def HoldStep (s : ZtpState) (a : ZtpAction) (t : ZtpState) : Prop :=
  (s.ztpQ.length ≤ ztpQSize → t.ztpQ.length ≤ ztpQSize) ∧
    (t.rxBusy = s.rxBusy ∧ rxHolders t = rxHolders s ∨
      (∃ w, a = .write w ∧ EndsMessage s w ∧ HandedOver s t) ∨
        t.rxBusy = false ∧ rxHolders t + 1 = rxHolders s)

theorem HoldStep.of_same (hbusy : t.rxBusy = s.rxBusy) (hq : t.ztpQ = s.ztpQ)
    (hpc : t.pc.holdsRx = s.pc.holdsRx) : HoldStep s a t :=
  ⟨by rw [hq]; exact id, Or.inl ⟨hbusy, rxHolders_congr hq hpc⟩⟩

theorem ztpStep_hold (h : ztpStep cfg s a = some t) : HoldStep s a t := by
  cases a with
  | write w =>
    obtain rfl := Option.some.inj h
    rcases writeRequest_cases cfg s w with ⟨hend, hover⟩ | ⟨-, hbusy, hq, hpc⟩
    · obtain ⟨m, -, hq⟩ := hover.ztpQ
      exact ⟨fun hlen ↦ by rw [hq]; exact length_msgqPut_le m hlen,
        Or.inr (Or.inl ⟨w, rfl, hend, hover⟩)⟩
    · exact .of_same hbusy hq (by rw [hpc])
  | disconnect =>
    obtain rfl := Option.some.inj h
    rw [relayDisconnected]
    split <;> exact ⟨id, Or.inl ⟨rfl, rfl⟩⟩
  | button =>
    obtain rfl := Option.some.inj h
    exact ⟨length_msgqPut_le _, Or.inl ⟨rfl, rxHolders_button s⟩⟩
  | tick ms =>
    obtain rfl := Option.some.inj h
    exact .of_same rfl rfl rfl
  | get =>
    obtain ⟨hbusy, hheld, hlen⟩ := rxHolders_get h
    exact ⟨Nat.le_trans hlen, Or.inl ⟨hbusy, hheld⟩⟩
  -- the only step that frees the buffer
  | clear =>
    obtain ⟨hd, hpc, rfl⟩ := ztpStep_clear h
    refine ⟨id, Or.inr (Or.inr ⟨rfl, ?_⟩)⟩
    rw [rxHolders, rxHolders, hpc]
    rfl
  | timeout =>
    obtain ⟨⟨hpc, -⟩, rfl⟩ := ztpStep_timeout h
    exact .of_same rfl rfl (by rw [hpc]; rfl)
  | checkWindow =>
    obtain ⟨hpc, ⟨-, rfl⟩ | ⟨-, rfl⟩⟩ := ztpStep_checkWindow h <;>
      exact .of_same rfl rfl (by rw [hpc]; rfl)
  | applied rc =>
    obtain ⟨hpc, rfl⟩ := ztpStep_applied h
    exact .of_same rfl rfl (by rw [hpc]; rfl)
  | reset =>
    obtain ⟨hd, hpc, rfl⟩ := ztpStep_reset h
    exact .of_same rfl rfl (by rw [hpc]; rfl)
  | finish rc =>
    obtain ⟨hd, hpc, rfl⟩ := ztpStep_finish h
    unfold ZtpState.finish
    cases hd <;> dsimp only
    case overflow => exact .of_same rfl rfl (by rw [hpc]; rfl)
    all_goals split <;> exact .of_same rfl rfl (by rw [hpc]; rfl)

/-- **The step lemma.** -/
theorem ZtpInv.step (hinv : ZtpInv s) (hok : RoomForMessage s a) (h : ztpStep cfg s a = some t) :
    ZtpInv t := by
  obtain ⟨hroom, ⟨hbusy, hheld⟩ | ⟨w, rfl, hend, hover⟩ | ⟨hfree, hheld⟩⟩ := ztpStep_hold h
  · exact ⟨by rw [hheld, hbusy]; exact hinv.holders, hroom hinv.room⟩
  · exact hinv.handedOver hover (hok hend)
  · refine ⟨?_, hroom hinv.room⟩
    have hold := hinv.holders
    rw [hfree, if_neg Bool.false_ne_true]
    split at hold <;> omega

/-- A message that ends while the queue is full leaves the buffer in nobody's hands. -/
theorem not_rxHeld_of_full (hinv : ZtpInv s) (h : ¬ RoomForMessage s a) :
    ∃ t, ztpStep cfg s a = some t ∧ ¬ RxHeld t := by
  cases a with
  | write w =>
    simp only [RoomForMessage, Classical.not_imp] at h
    obtain ⟨hend, hfull⟩ := h
    refine ⟨_, rfl, fun hheld ↦ ?_⟩
    rcases writeRequest_cases cfg s w with ⟨-, hfree, hbusy, ⟨m, -, hq⟩, hpc⟩ | ⟨hno, -⟩
    · rw [msgqPut_of_le (by omega), Option.getD_none] at hq
      have hnone : rxHolders s = 0 := by
        rw [hinv.holders, hfree]
        rfl
      rw [rxHolders] at hnone
      rcases hheld hbusy with hany | hpc'
      · rw [hq, List.any_eq_true] at hany
        have := List.countP_pos_iff.2 hany
        omega
      · rw [hpc] at hpc'
        rw [hpc', if_pos rfl] at hnone
        omega
    · exact hno hend
  | _ => exact absurd trivial h

/-! ### Progress -/

/-- The buffer is free, or the device is about to leave the provisioner. -/
def RxReleased (s : ZtpState) : Prop := s.rxBusy = false ∨ s.pc = .leaving

/-- The messages in front of the one that holds the buffer. -/
def rxAhead (s : ZtpState) : ℕ := s.ztpQ.findIdx ZtpMsg.isRx

/-- The steps of the main thread that are left until it releases the buffer, at most. -/
def rxRank (s : ZtpState) : ℕ :=
  match s.pc with
  | .leaving => 0
  | .releasing _ => 1
  | .handling _ => 2
  | .applying => 3
  | .wait => 4 * rxAhead s + 4
  | .answering _ | .expired => 4 * rxAhead s + 5

/-- While the buffer is handed over and the main thread does not hold it, a message in the queue
does. -/
theorem ZtpInv.rxAhead_lt (h : ZtpInv s) (hbusy : s.rxBusy = true) (hpc : s.pc.holdsRx = false) :
    rxAhead s < s.ztpQ.length := by
  rcases h.rxHeld hbusy with hany | hno
  · exact List.findIdx_lt_length.2 (List.any_eq_true.1 hany)
  · rw [hpc] at hno
    exact nomatch hno

theorem rxRank_congr (hq : t.ztpQ = s.ztpQ) (hpc : t.pc = s.pc) : rxRank t = rxRank s := by
  rw [rxRank, rxRank, rxAhead, rxAhead, hq, hpc]

theorem ZtpInv.rxRank_le (h : ZtpInv s) (hno : ¬ RxReleased s) : rxRank s ≤ 17 := by
  rw [RxReleased, not_or, Bool.not_eq_false] at hno
  obtain ⟨hbusy, -⟩ := hno
  have hroom : s.ztpQ.length ≤ 4 := h.room
  have hlt := h.rxAhead_lt hbusy
  rw [rxRank]
  cases hpc : s.pc <;> rw [hpc] at hlt <;> dsimp only <;> first
    | omega
    | (have hahead := hlt rfl; omega)

/-- What comes behind the message that holds the buffer does not delay it. -/
theorem ZtpInv.rxRank_button (h : ZtpInv s) (hbusy : s.rxBusy = true) :
    rxRank (s.post .button) = rxRank s := by
  rcases Nat.lt_or_ge s.ztpQ.length ztpQSize with hroom | hfull
  · have hq : (s.post .button).ztpQ = s.ztpQ ++ [.button] := by
      simp [ZtpState.post, msgqPut_of_lt hroom]
    have hahead : s.pc.holdsRx = false → rxAhead (s.post .button) = rxAhead s := by
      intro hpc
      have hlt := h.rxAhead_lt hbusy hpc
      rw [rxAhead] at hlt
      rw [rxAhead, hq, List.findIdx_append, if_pos hlt, rxAhead]
    have hpc : (s.post .button).pc = s.pc := rfl
    unfold rxRank
    rw [hpc]
    cases hs : s.pc <;> rw [hs] at hahead <;> dsimp only <;> rw [hahead rfl]
  · exact rxRank_congr (by simp [ZtpState.post, msgqPut_of_le hfull]) rfl

/-- Taking a message brings the main thread closer to the one that holds the buffer. -/
theorem rxRank_get (ht : ztpStep cfg s .get = some t) : rxRank t + 1 ≤ rxRank s := by
  obtain ⟨hpc, m, rest, hq, rfl⟩ := ztpStep_get ht
  have hs : rxRank s = 4 * rxAhead s + 4 := by
    rw [rxRank]
    rw [hpc]
  cases m with
  | button =>
    have hahead : rxAhead s = rest.findIdx ZtpMsg.isRx + 1 := by
      rw [rxAhead, hq, List.findIdx_cons]
      rfl
    have hrest : ∀ u : ZtpState, u.pc = .wait → u.ztpQ = rest → rxRank u + 1 ≤ rxRank s := by
      intro u hu huq
      have hrank : rxRank u = 4 * rxAhead u + 4 := by
        rw [rxRank]
        rw [hu]
      rw [hrank, rxAhead, huq, hs, hahead]
      omega
    rw [ZtpState.dispatch]
    dsimp only
    split <;> exact hrest _ hpc rfl
  | kick => rw [hs]; simp only [ZtpState.dispatch, rxRank]; omega
  | overflow => rw [hs]; simp only [ZtpState.dispatch, rxRank]; omega
  | response => rw [hs]; simp only [ZtpState.dispatch, rxRank]; omega

/-- **The progress lemma**: until the buffer is released, every step of the main thread brings the
release closer, and nothing else puts it off. -/
theorem ZtpInv.rxRank_step (hinv : ZtpInv s) (hs : ¬ RxReleased s)
    (h : ztpStep cfg s a = some t) (ht : ¬ RxReleased t) :
    rxRank t + (if a.isMain then 1 else 0) ≤ rxRank s := by
  -- while the buffer is held, only the main loop's own steps lower the rank
  rw [RxReleased, not_or, Bool.not_eq_false] at hs ht
  obtain ⟨hbusy, -⟩ := hs
  obtain ⟨hbusyt, hpct⟩ := ht
  cases a with
  | write w =>
    obtain rfl := Option.some.inj h
    rcases writeRequest_cases cfg s w with ⟨-, hfree, -⟩ | ⟨-, -, hq, hpc⟩
    · rw [hbusy] at hfree
      exact nomatch hfree
    · exact Nat.le_of_eq (rxRank_congr hq hpc)
  | disconnect =>
    simp only [ztpStep, Option.some.injEq, relayDisconnected, hbusy, if_true] at h
    exact h ▸ Nat.le_refl _
  | button =>
    obtain rfl := Option.some.inj h
    exact Nat.le_of_eq (hinv.rxRank_button hbusy)
  | tick ms =>
    obtain rfl := Option.some.inj h
    exact Nat.le_of_eq (rxRank_congr rfl rfl)
  | get => exact rxRank_get h
  | timeout =>
    -- the queue is not empty: it holds the message with the buffer
    obtain ⟨⟨hpc, hq, -⟩, -⟩ := ztpStep_timeout h
    have hlt := hinv.rxAhead_lt hbusy (by rw [hpc]; rfl)
    rw [hq] at hlt
    exact absurd hlt (Nat.not_lt_zero _)
  | checkWindow =>
    obtain ⟨hpc, ⟨-, rfl⟩ | ⟨-, rfl⟩⟩ := ztpStep_checkWindow h
    · exact absurd rfl hpct
    · simp only [rxRank, hpc]
      exact Nat.le_of_eq rfl
  | applied rc =>
    obtain ⟨hpc, rfl⟩ := ztpStep_applied h
    simp only [rxRank, hpc]
    exact Nat.le_of_eq rfl
  | reset =>
    obtain ⟨hd, hpc, rfl⟩ := ztpStep_reset h
    simp only [rxRank, hpc]
    exact Nat.le_of_eq rfl
  | clear =>
    obtain ⟨hd, -, rfl⟩ := ztpStep_clear h
    exact nomatch hbusyt
  | finish rc =>
    obtain ⟨hd, hpc, rfl⟩ := ztpStep_finish h
    have hfin : (s.finish rc hd).pc = .wait ∧ (s.finish rc hd).ztpQ = s.ztpQ := by
      unfold ZtpState.finish at hpct ⊢
      cases hd <;> dsimp only at hpct ⊢
      · split <;> exact ⟨rfl, rfl⟩
      · exact ⟨rfl, rfl⟩
      · split at hpct
        · next happ => rw [if_pos happ]; exact ⟨rfl, rfl⟩
        · exact absurd rfl hpct
    simp only [rxRank, hpc, hfin.1, rxAhead, hfin.2]
    exact Nat.le_of_eq rfl

/-! ### The main result -/

/-- **When the receive path is never locked out.** A buffer that is handed over is in a queued
message or in the main thread's hands in exactly the runs in which no message ends while the queue
is full; and from every state reached in such a run, eighteen steps of the main thread release the
buffer, unless the device leaves the provisioner first. -/
theorem rxBusy_released_iff (cfg : ZtpConfig) (returnOnExpiry : Bool) (store : CredStore) :
    (∀ as, Throughout (ztpStep cfg) RxHeld (.boot cfg returnOnExpiry store) as ↔
      AllSteps (ztpStep cfg) RoomForMessage (.boot cfg returnOnExpiry store) as) ∧
    ∀ as s, exec (ztpStep cfg) (.boot cfg returnOnExpiry store) as = some s →
      AllSteps (ztpStep cfg) RoomForMessage (.boot cfg returnOnExpiry store) as →
      ∀ bs t, exec (ztpStep cfg) s bs = some t → AllSteps (ztpStep cfg) RoomForMessage s bs →
        18 ≤ bs.countP ZtpAction.isMain →
        ¬ Throughout (ztpStep cfg) (fun u ↦ ¬ RxReleased u) s bs := by
  have hboot := ztpInv_boot cfg returnOnExpiry store
  refine ⟨fun as ↦ throughout_iff_allSteps (fun s (h : ZtpInv s) ↦ h.rxHeld)
    (fun _ _ _ h hok hst ↦ h.step hok hst) (fun _ _ h hno ↦ not_rxHeld_of_full h hno) hboot, ?_⟩
  intro as s has hall bs t hbs hallbs hmany hno
  have hinv : ZtpInv s :=
    (throughout_of_invariant (fun _ _ _ h hok hst ↦ ZtpInv.step h hok hst) hboot hall).last has
  have hrank := hinv.rxRank_le hno.head
  exact not_throughout_of_rank (fun _ _ _ h hok hst ↦ ZtpInv.step h hok hst)
    (fun _ a _ h _ hs hst ht ↦ h.rxRank_step (a := a) hs hst ht) hinv hallbs hbs
    (Nat.lt_of_le_of_lt hrank hmany) hno

/-- A provisioner with the default buffer and a window of five minutes. -/
def ztpDefaults : ZtpConfig := ⟨4096, 300, ⟨true, none⟩⟩

/-- The relay ends a message. -/
def terminator : ZtpAction := .write ⟨[0, 0], 0, false, false⟩

/-- While the main thread answers a kick, the button is pressed four times and the relay ends
another message. -/
def fullQueueRun : List ZtpAction :=
  [terminator, .get, .reset, .clear, .button, .button, .button, .button, terminator]

/-- The message is lost, and nobody is left to clear `rx_busy`. -/
theorem not_rxHeld_fullQueueRun :
    ¬ ∀ (cfg : ZtpConfig) (returnOnExpiry : Bool) (store : CredStore) (as : List ZtpAction),
      Throughout (ztpStep cfg) RxHeld (.boot cfg returnOnExpiry store) as := by
  intro h
  exact absurd (h ztpDefaults false [] fullQueueRun) (by decide)

end ThinEdge.Provisioner
