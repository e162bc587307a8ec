import ThinEdge.Provisioner.ZtpApply
import ThinEdge.Provisioner.ZtpHold

/-!
# Zero-touch provisioning: an expired window

The receive path together with what a response does: `handle_response` of
`apps/wifi-provisioner/src/ztp.c` reads it, and `ztp_apply_manifest` applies its bundle.

When the window expires and no network is configured, `ztp_run` is idle until the button is pressed,
but the link may stay up. In the idle loop a kick is dropped, and a response is not: it is handled
as if the window were open (`not_nothingApplied_openLinkRun`). `nothingApplied_throughout` shows
that an idle device applies nothing in the runs in which the relay completes a response after the
window has expired only where a press of the button is queued before it, or where `handle_response`
refuses it.
-/

namespace ThinEdge.Provisioner

open Bytes Net Transition

/-! ### Handling a response -/

/-- `-EAGAIN`. -/
def eagain : ℤ := -11

/-- What tells this device from others, and this image. -/
structure ZtpIdentity where
  deviceId : List UInt8
  /-- `CONFIG_APP_PROV_ZTP_SERVER_PUBKEY`. -/
  serverPubkey : List UInt8
  deriving DecidableEq, Repr

/-- `MANIFEST_MAX`. -/
def manifestMax (cfg : ZtpConfig) : ℕ := cfg.rxBytes * 3 / 4 + 4

/-- `handle_response`: its result, the time for `clock_set`, and the state it leaves. -/
def handleResponse (cfg : ZtpConfig) (ident : ZtpIdentity) (P : ZtpPlatform) (rx : List UInt8)
    (s : ZtpApplyState) : ℤ × Option ℤ × ZtpApplyState :=
  match ztpResponseParse rx with
  | .error rc => (rc, none, s)
  | .ok r =>
    let time := if r.serverTime ≠ 0 then some r.serverTime else none
    if r.status ≠ .accepted then (eagain, time, s)
    else if r.manifest = [] then (eproto, time, s)
    else if ident.serverPubkey ≠ [] then (enotsup, time, s)
    else
      let out := P.base64Decode (manifestMax cfg - 1) r.manifest
      if out.rc ≠ 0 then (eproto, time, s)
      else
        let (rc, s) := ztpApplyManifest P out.bytes ident.deviceId s
        (rc, time, s)

/-- `handle_response` refuses the response before it looks at its bundle: it cannot be read, the
server did not accept the device, there is no bundle, or the image wants it to be verified. -/
def Refused (ident : ZtpIdentity) (rx : List UInt8) : Prop :=
  match ztpResponseParse rx with
  | .error _ => True
  | .ok r => r.status ≠ .accepted ∨ r.manifest = [] ∨ ident.serverPubkey ≠ []

instance (ident : ZtpIdentity) (rx : List UInt8) : Decidable (Refused ident rx) :=
  match h : ztpResponseParse rx with
  | .error _ => isTrue (by rw [Refused, h]; trivial)
  | .ok r => decidable_of_iff (r.status ≠ .accepted ∨ r.manifest = [] ∨ ident.serverPubkey ≠ [])
      (by rw [Refused, h])

/-- What is refused changes nothing. -/
theorem handleResponse_of_refused {ident : ZtpIdentity} {rx : List UInt8} (h : Refused ident rx)
    (cfg : ZtpConfig) (P : ZtpPlatform) (s : ZtpApplyState) :
    (handleResponse cfg ident P rx s).2.2 = s := by
  rw [Refused] at h
  rw [handleResponse]
  rcases hparse : ztpResponseParse rx with rc | r
  · rfl
  · simp only [hparse] at h
    dsimp only
    rcases Decidable.em (r.status = .accepted) with hst | hst
    · rw [if_neg (not_not_intro hst)]
      split
      · rfl
      · next hman =>
        rw [if_pos ((h.resolve_left (not_not_intro hst)).resolve_left hman)]
    · rw [if_pos hst]

/-! ### The system -/

/-- The receive path, and what bundles are applied to. -/
structure ZtpSystem where
  device : ZtpState
  applier : ZtpApplyState
  deriving DecidableEq, Repr

/-- The steps of the system. -/
inductive SystemAction
  /-- A step of the receive path or the main loop. -/
  | device (a : ZtpAction)
  /-- The worker runs `handle_response`. -/
  | respond (P : ZtpPlatform)

/-- The end of `handle_response`, whose result the system computes. -/
def ZtpAction.isApplied : ZtpAction → Bool
  | .applied _ => true
  | _ => false

/-- One step. The main loop's credential store is the one that bundles write. -/
def systemStep (cfg : ZtpConfig) (ident : ZtpIdentity) (x : ZtpSystem) :
    SystemAction → Option ZtpSystem
  | .device a => if a.isApplied then none else (ztpStep cfg x.device a).map fun t ↦ ⟨t, x.applier⟩
  | .respond P =>
    let (rc, _, applier) := handleResponse cfg ident P x.device.rx x.applier
    (ztpStep cfg x.device (.applied rc)).map fun t ↦ ⟨{ t with store := applier.store }, applier⟩

/-- The loop's first wait. -/
def ZtpSystem.boot (cfg : ZtpConfig) (returnOnExpiry : Bool) (applier : ZtpApplyState) :
    ZtpSystem := ⟨.boot cfg returnOnExpiry applier.store, applier⟩

/-- Notes of the calls that are made while the device is idle. -/
def idleNotes (x : ZtpSystem) (_ : SystemAction) (y : ZtpSystem) (calls : List ZtpCall) :
    List ZtpCall :=
  if x.device.idle then calls ++ y.applier.calls.drop x.applier.calls.length else calls

/-- The system, observed. -/
abbrev idleStep (cfg : ZtpConfig) (ident : ZtpIdentity) :
    ZtpSystem × List ZtpCall → SystemAction → Option (ZtpSystem × List ZtpCall) :=
  observed (systemStep cfg ident) idleNotes

/-! ### The property and its condition -/

/-- The call joins a network, or writes credentials or settings. -/
def ZtpCall.applies : ZtpCall → Bool
  | .settings (.subsysInit _) => false
  | _ => true

/-- Nothing was applied while the device was idle. -/
def NothingApplied (p : ZtpSystem × List ZtpCall) : Prop := ∀ c ∈ p.2, c.applies = false

/-- The window has expired and the device stays: the loop is idle, or its wait has timed out and
there is nothing to reboot into. -/
def ZtpState.Expired (cfg : ZtpConfig) (s : ZtpState) : Prop :=
  s.idle = true ∨
    s.pc = .expired ∧ ¬ (s.returnOnExpiry ∨ (appWifiCredsResolve cfg.wifi s.store).isSome)

/-- A response that the relay completes after the window has expired is behind a press of the button
in the queue, or is refused. -/
def LateResponses (cfg : ZtpConfig) (ident : ZtpIdentity) (s : ZtpState) : ZtpAction → Prop
  | .write w => EndsMessage s w → s.endMsg = .response → s.Expired cfg →
      .button ∈ s.ztpQ ∨ Refused ident s.rx
  | _ => True

/-- The same of a step of the system. -/
def LateResponsesStep (cfg : ZtpConfig) (ident : ZtpIdentity) (x : ZtpSystem) :
    SystemAction → Prop
  | .device a => LateResponses cfg ident x.device a
  | .respond _ => True

instance : DecidablePred NothingApplied := fun _ ↦ inferInstanceAs (Decidable (∀ c ∈ _, _ = _))

instance (cfg : ZtpConfig) (s : ZtpState) : Decidable (s.Expired cfg) :=
  inferInstanceAs (Decidable (_ ∨ _ ∧ _))

instance (cfg : ZtpConfig) (ident : ZtpIdentity) (s : ZtpState) :
    ∀ a, Decidable (LateResponses cfg ident s a)
  | .write _ => inferInstanceAs (Decidable (_ → _ → _ → _))
  | .disconnect | .button | .tick _ | .get | .timeout | .checkWindow | .applied _ | .reset | .clear
  | .finish _ => isTrue trivial

instance (cfg : ZtpConfig) (ident : ZtpIdentity) (x : ZtpSystem) :
    ∀ a, Decidable (LateResponsesStep cfg ident x a)
  | .device a => inferInstanceAs (Decidable (LateResponses cfg ident x.device a))
  | .respond _ => isTrue trivial

/-! ### Presses before responses -/

/-- A button press comes before every response in the queue. -/
def ButtonFirst : List ZtpMsg → Prop
  | [] | .button :: _ => True
  | .response :: _ => False
  | .kick :: q | .overflow :: q => ButtonFirst q

theorem buttonFirst_of_not_mem {q : List ZtpMsg} (h : .response ∉ q) : ButtonFirst q := by
  induction q with
  | nil => trivial
  | cons m q ih =>
    have hq : .response ∉ q := fun hmem ↦ h (List.mem_cons_of_mem m hmem)
    cases m with
    | button => trivial
    | response => exact absurd List.mem_cons_self h
    | kick => exact ih hq
    | overflow => exact ih hq

theorem ButtonFirst.append {q : List ZtpMsg} {m : ZtpMsg} (h : ButtonFirst q)
    (hm : m ≠ .response ∨ .button ∈ q) : ButtonFirst (q ++ [m]) := by
  induction q with
  | nil =>
    refine buttonFirst_of_not_mem fun hmem ↦ ?_
    rcases hm with hne | hmem'
    · exact hne (List.mem_singleton.1 hmem).symm
    · exact absurd hmem' List.not_mem_nil
  | cons n q ih =>
    have hq : n ≠ .button → m ≠ .response ∨ .button ∈ q := fun hn ↦
      hm.imp_right fun hmem ↦ (List.mem_cons.1 hmem).resolve_left (Ne.symm hn)
    cases n with
    | button => trivial
    | response => exact h.elim
    | kick => exact ih h (hq nofun)
    | overflow => exact ih h (hq nofun)

/-- Posting a message. -/
theorem ButtonFirst.post {s : ZtpState} {m : ZtpMsg} (h : ButtonFirst s.ztpQ)
    (hm : m ≠ .response ∨ .button ∈ s.ztpQ) : ButtonFirst (s.post m).ztpQ := by
  rw [ZtpState.post, msgqPut]
  dsimp only
  split
  · exact h.append hm
  · exact h

/-! ### The invariant -/

variable {cfg : ZtpConfig} {ident : ZtpIdentity} {s t : ZtpState} {a : ZtpAction}

/-- What carries the property through a run: the response that an idle device would handle next is
refused. -/
structure ExpiryInv (cfg : ZtpConfig) (ident : ZtpIdentity) (s : ZtpState) : Prop where
  holds : HoldsOnce s
  queued : s.Expired cfg → ButtonFirst s.ztpQ ∨ Refused ident s.rx
  applying : s.pc = .applying → s.idle = true → Refused ident s.rx

theorem ZtpState.Expired.idle (h : s.Expired cfg) (hpc : s.pc ≠ .expired) : s.idle = true :=
  h.resolve_right fun hexp ↦ hpc hexp.1

theorem expiryInv_boot (cfg : ZtpConfig) (ident : ZtpIdentity) (returnOnExpiry : Bool)
    (store : CredStore) : ExpiryInv cfg ident (.boot cfg returnOnExpiry store) where
  holds := Nat.zero_le _
  queued := fun _ ↦ Or.inl trivial
  applying := nofun

/-- No response waits in a queue while the receiver is free. -/
theorem ExpiryInv.free (h : ExpiryInv cfg ident s) (hfree : s.rxBusy = false) :
    .response ∉ s.ztpQ ∧ s.pc ≠ .applying := by
  have hno := h.holds.not_respondsNext hfree
  exact ⟨fun hq ↦ hno (Or.inl hq), fun hpc ↦ hno (Or.inr hpc)⟩

/-- A step of a free receiver: no response is waiting, or it is the one just completed. -/
theorem ExpiryInv.write (h : ExpiryInv cfg ident s) {w : GattWrite}
    (hok : LateResponses cfg ident s (.write w)) :
    ExpiryInv cfg ident (writeRequest cfg s w).1 := by
  rcases Bool.eq_false_or_eq_true s.rxBusy with hbusy | hfree
  · rw [writeRequest_of_busy cfg hbusy]
    exact h
  have hholds : HoldsOnce (writeRequest cfg s w).1 := h.holds.step (a := .write w) rfl
  obtain ⟨hpc, hidle, hreturn, hstore⟩ := writeRequest_main cfg s w
  obtain ⟨hnone, hnot⟩ := h.free hfree
  refine ⟨hholds, fun hexp ↦ ?_, fun hap ↦ absurd (hpc.symm.trans hap) hnot⟩
  rw [ZtpState.Expired, hidle, hpc, hreturn, hstore, ← ZtpState.Expired] at hexp
  rcases writeRequest_cases cfg s w with ⟨hend, -⟩ | ⟨-, -, hq, -⟩
  · rw [writeRequest_of_endsMessage cfg hend]
    have hfirst := buttonFirst_of_not_mem hnone
    rcases Decidable.em (s.endMsg = .response) with hresp | hother
    · refine (hok hend hresp hexp).imp (fun hbutton ↦ ?_) id
      exact ButtonFirst.post (s := { s with rxBusy := true }) hfirst (Or.inr hbutton)
    · exact Or.inl (ButtonFirst.post (s := { s with rxBusy := true }) hfirst (Or.inl hother))
  · exact Or.inl (buttonFirst_of_not_mem (hq ▸ hnone))

theorem ExpiryInv.disconnect (h : ExpiryInv cfg ident s) :
    ExpiryInv cfg ident (relayDisconnected s) := by
  rcases Bool.eq_false_or_eq_true s.rxBusy with hbusy | hfree
  · rw [relayDisconnected, if_pos hbusy]
    exact h
  · obtain ⟨hnone, hnot⟩ := h.free hfree
    rw [relayDisconnected, if_neg (ne_true_of_eq_false hfree)]
    exact ⟨h.holds, fun _ ↦ Or.inl (buttonFirst_of_not_mem hnone), fun hap ↦ absurd hap hnot⟩

/-- Taking a message from the queue: a response that comes before every press is refused. -/
theorem ExpiryInv.get (h : ExpiryInv cfg ident s) (hst : ztpStep cfg s .get = some t) :
    ExpiryInv cfg ident t := by
  have hholds := h.holds.step hst
  obtain ⟨hpc, m, rest, hq, rfl⟩ := ztpStep_get hst
  have hqueued : s.idle = true → ButtonFirst (m :: rest) ∨ Refused ident s.rx := fun hidle ↦
    hq ▸ h.queued (Or.inl hidle)
  have hwait : s.pc ≠ .expired := by
    simp [hpc]
  refine ⟨hholds, ?_, ?_⟩
  · cases m <;> rw [ZtpState.dispatch] <;> dsimp only
    case kick => exact fun hexp ↦ hqueued (hexp.idle (by simp))
    case overflow => exact fun hexp ↦ hqueued (hexp.idle (by simp))
    case response => exact fun hexp ↦ Or.inr ((hqueued (hexp.idle (by simp))).resolve_left id)
    case button =>
      split
      · exact fun hexp ↦ absurd (hexp.idle hwait) Bool.false_ne_true
      · next hidle => exact fun hexp ↦ absurd (hexp.idle hwait) hidle
  · cases m <;> rw [ZtpState.dispatch] <;> dsimp only
    case kick => simp
    case overflow => simp
    case response => exact fun _ hidle ↦ (hqueued hidle).resolve_left id
    case button =>
      split <;> exact fun hp ↦ absurd (hpc.symm.trans hp) (by decide)

/-- A step after which the queue and the buffer are as before, and the window has not just expired.
-/
theorem ExpiryInv.of_same (h : ExpiryInv cfg ident s) (hholds : HoldsOnce t) (hq : t.ztpQ = s.ztpQ)
    (hrx : t.rx = s.rx) (hexp : t.Expired cfg → s.Expired cfg) (hpc : t.pc ≠ .applying) :
    ExpiryInv cfg ident t :=
  ⟨hholds, fun ht ↦ by rw [hq, hrx]; exact h.queued (hexp ht), fun hap ↦ absurd hap hpc⟩

/-- **The step lemma.** -/
theorem ExpiryInv.step (h : ExpiryInv cfg ident s) (hok : LateResponses cfg ident s a)
    (hst : ztpStep cfg s a = some t) : ExpiryInv cfg ident t := by
  have hholds := h.holds.step hst
  cases a with
  | write w =>
    obtain rfl := Option.some.inj hst
    exact h.write hok
  | disconnect =>
    obtain rfl := Option.some.inj hst
    exact h.disconnect
  | button =>
    obtain rfl := Option.some.inj hst
    exact ⟨hholds, fun hexp ↦ (h.queued hexp).imp_left fun hfirst ↦ hfirst.post (Or.inl nofun),
      h.applying⟩
  | tick ms =>
    obtain rfl := Option.some.inj hst
    exact ⟨hholds, h.queued, h.applying⟩
  | get => exact h.get hst
  | timeout =>
    -- a wait only times out with an empty queue
    obtain ⟨⟨-, hq, -⟩, rfl⟩ := ztpStep_timeout hst
    exact ⟨hholds, fun _ ↦ Or.inl (by dsimp only; rw [hq]; trivial), nofun⟩
  | checkWindow =>
    obtain ⟨hpc, ⟨-, rfl⟩ | ⟨hnone, rfl⟩⟩ := ztpStep_checkWindow hst
    · exact h.of_same hholds rfl rfl (fun hexp ↦ Or.inl (hexp.idle nofun)) nofun
    · exact h.of_same hholds rfl rfl (fun _ ↦ Or.inr ⟨hpc, hnone⟩) nofun
  | applied rc =>
    obtain ⟨-, rfl⟩ := ztpStep_applied hst
    exact h.of_same hholds rfl rfl (fun hexp ↦ Or.inl (hexp.idle nofun)) nofun
  | reset =>
    obtain ⟨hd, hpc, rfl⟩ := ztpStep_reset hst
    obtain ⟨-, hnone⟩ := h.holds.of_holdsRx (by rw [hpc]; rfl)
    exact ⟨hholds, fun _ ↦ Or.inl (buttonFirst_of_not_mem hnone), nofun⟩
  | clear =>
    obtain ⟨hd, -, rfl⟩ := ztpStep_clear hst
    exact h.of_same hholds rfl rfl (fun hexp ↦ Or.inl (hexp.idle nofun)) nofun
  | finish rc =>
    obtain ⟨hd, -, rfl⟩ := ztpStep_finish hst
    -- finishing touches neither queue nor buffer, and only waits or leaves afterwards
    have hfin : (s.finish rc hd).ztpQ = s.ztpQ ∧ (s.finish rc hd).rx = s.rx ∧
        (s.finish rc hd).idle = s.idle ∧
          ((s.finish rc hd).pc = .wait ∨ (s.finish rc hd).pc = .leaving) := by
      unfold ZtpState.finish
      cases hd <;> dsimp only
      case overflow => exact ⟨rfl, rfl, rfl, Or.inl rfl⟩
      case kick => split <;> exact ⟨rfl, rfl, rfl, Or.inl rfl⟩
      case response =>
        split
        · exact ⟨rfl, rfl, rfl, Or.inl rfl⟩
        · exact ⟨rfl, rfl, rfl, Or.inr rfl⟩
    obtain ⟨hq, hrx, hidle, hpc⟩ := hfin
    have hnot : ∀ pc : ZtpPc, pc ≠ .wait → pc ≠ .leaving → (s.finish rc hd).pc ≠ pc :=
      fun _ hw hl hp ↦ hpc.elim (fun h ↦ hw (hp.symm.trans h)) fun h ↦ hl (hp.symm.trans h)
    exact h.of_same hholds hq hrx
      (fun hexp ↦ Or.inl (hidle.symm.trans (hexp.idle (hnot _ nofun nofun)))) (hnot _ nofun nofun)

/-! ### The main result -/

/-- The system's step lemma. -/
theorem systemStep_idle {x y : ZtpSystem} {b : SystemAction} (h : ExpiryInv cfg ident x.device)
    (hok : LateResponsesStep cfg ident x b) (hst : systemStep cfg ident x b = some y) :
    ExpiryInv cfg ident y.device ∧
      (x.device.idle = true → y.applier.calls = x.applier.calls) := by
  cases b with
  | device a =>
    simp only [systemStep, Option.ite_none_left_eq_some, Option.map_eq_some_iff] at hst
    obtain ⟨-, t, ht, rfl⟩ := hst
    exact ⟨h.step hok ht, fun _ ↦ rfl⟩
  | respond P =>
    simp only [systemStep, Option.map_eq_some_iff] at hst
    obtain ⟨t, ht, rfl⟩ := hst
    have hinv : ExpiryInv cfg ident t := h.step (a := .applied _) trivial ht
    obtain ⟨hpc, rfl⟩ := ztpStep_applied ht
    refine ⟨⟨hinv.holds, fun hexp ↦ hinv.queued (Or.inl (hexp.idle nofun)), hinv.applying⟩,
      fun hidle ↦ ?_⟩
    rw [handleResponse_of_refused (h.applying hpc hidle)]

/-- **An idle device applies nothing**, in every run in which the relay completes a response after
the window has expired only behind a press of the button, or one that is refused. -/
theorem nothingApplied_throughout (cfg : ZtpConfig) (ident : ZtpIdentity) (returnOnExpiry : Bool)
    (applier : ZtpApplyState) (as : List SystemAction)
    (hall : AllSteps (systemStep cfg ident) (LateResponsesStep cfg ident)
      (.boot cfg returnOnExpiry applier) as) :
    Throughout (idleStep cfg ident) NothingApplied (.boot cfg returnOnExpiry applier, []) as := by
  have hinv : Throughout (idleStep cfg ident) (fun p ↦ ExpiryInv cfg ident p.1.device ∧ p.2 = [])
      (.boot cfg returnOnExpiry applier, []) as := by
    refine throughout_of_invariant (fun p b q hp hok hst ↦ ?_)
      ⟨expiryInv_boot cfg ident returnOnExpiry applier.store, rfl⟩ (allSteps_observed.2 hall)
    obtain ⟨hsystem, hnotes⟩ := observed_eq_some.1 hst
    obtain ⟨hdevice, hcalls⟩ := systemStep_idle hp.1 hok hsystem
    refine ⟨hdevice, ?_⟩
    rw [hnotes, idleNotes, hp.2]
    split
    · next hidle => rw [hcalls hidle, List.drop_length, List.append_nil]
    · rfl
  refine hinv.imp fun p hp c hc ↦ ?_
  rw [hp.2] at hc
  exact absurd hc List.not_mem_nil

/-- The device `d`, which does not pin the server's key. -/
def plainIdentity : ZtpIdentity := ⟨ascii "d", []⟩

/-- The relay writes a response in one fragment. -/
def relayResponse (text : List UInt8) : List SystemAction :=
  [.device (.write ⟨putBe16 (UInt16.ofNat text.length) ++ text, 0, false, false⟩),
    .device terminator]

/-- The server accepts the device `d` and sends it a network. -/
def acceptedResponse : List UInt8 :=
  ascii "protocol_version=1\nstatus=accepted\nmanifest.payload=cHJvdG9jb2xfdmVyc2lvbj0xCmRldmlj" ++
    ascii "ZV9pZD1kCm1vZHVsZT13aWZpLnYyIFcyNWxkSGR2Y210ZENuTnphV1E5WVdJSwoK\n"

/-- The window expires. -/
def expiring : List SystemAction := [.device (.tick 300000), .device .timeout, .device .checkWindow]

/-- After the window has expired the server rejects the device, and accepts it once the button has
been pressed. -/
def pressedAgainRun : List SystemAction :=
  expiring ++ relayResponse (ascii "protocol_version=1\nstatus=rejected\n") ++
    [.device .get, .respond workingPlatform, .device .reset, .device .clear, .device (.finish 0),
      .device .button] ++
    relayResponse acceptedResponse ++ [.device .get, .device .get, .respond workingPlatform]

theorem nothingApplied_pressedAgainRun :
    Throughout (idleStep ztpDefaults plainIdentity) NothingApplied
      (.boot ztpDefaults false clearState, []) pressedAgainRun :=
  nothingApplied_throughout ztpDefaults plainIdentity false clearState pressedAgainRun
    (by decide +kernel)

/-- The relay's link outlives the window. -/
def openLinkRun : List SystemAction :=
  expiring ++ relayResponse acceptedResponse ++ [.device .get, .respond workingPlatform]

/-- The idle device joins the network of the response. -/
theorem not_nothingApplied_openLinkRun :
    ¬ ∀ (cfg : ZtpConfig) (ident : ZtpIdentity) (returnOnExpiry : Bool) (applier : ZtpApplyState)
      (as : List SystemAction),
      Throughout (idleStep cfg ident) NothingApplied (.boot cfg returnOnExpiry applier, []) as := by
  intro h
  exact absurd (h ztpDefaults plainIdentity false clearState openLinkRun) (by decide +kernel)

end ThinEdge.Provisioner
