import ThinEdge.Provisioner.ZtpExpiry

/-!
# Zero-touch provisioning: the session key

`session_key` of `ztp_crypto.c` beside the system of `ThinEdge.Provisioner.ZtpExpiry`: a kick makes
a new key while its envelope is built, which may fail at any step, and the end of a response and the
end of the window destroy it.

`appliedInSession_throughout`: a bundle with a sealed module is applied only where the last thing
that happened to the session was the `ztp_session_new` that made the module's key. It rests on
`SessionInv.held`, that a key is held only there, and on the first phase of `ztp_apply_manifest`,
which commits nothing of a bundle with a module that does not open.
-/

namespace ThinEdge.Provisioner

open Bytes Net Transition

variable {κ : Type}

/-! ### The session key -/

/-- `-ENOSPC`. -/
def enospc : ℤ := -28

/-- `ENVELOPE_MAX`. -/
def envelopeMax : ℤ := 1280

/-- `session_key`, where zero is `PSA_KEY_ID_NULL`, and the keys of sessions that PSA holds, by
their identifiers. -/
structure SessionKeys (κ : Type) where
  sessionKey : ℕ
  psaKeys : List (ℕ × κ)
  deriving DecidableEq, Repr

/-- The key held in `session_key`. -/
def SessionKeys.held (S : SessionKeys κ) : Option κ :=
  if S.sessionKey = 0 then none else S.psaKeys.lookup S.sessionKey

/-- What is answered while an envelope is built and sent. -/
structure EnvelopeAnswer (κ : Type) where
  /-- `ztp_identity_public`. -/
  identityPublic : ℤ
  /-- `psa_generate_key`, with the identifier and the key when it succeeds. -/
  generateKey : ℤ
  keyId : ℕ
  key : κ
  /-- `psa_export_public_key` of that key, with the length. -/
  exportPublicKey : ℤ
  exportLen : ℕ
  /-- `psa_generate_random`. -/
  generateRandom : ℤ
  /-- `ztp_request_canonical`. -/
  requestCanonical : ℤ
  /-- `ztp_identity_sign`. -/
  identitySign : ℤ
  /-- `base64_encode` of the canonical request. -/
  base64Encode : ℤ
  /-- `snprintf` of the envelope. -/
  printed : ℤ
  /-- `send_message`. -/
  sent : ℤ
  deriving DecidableEq, Repr

/-- `ztp_session_end`. -/
def ztpSessionEnd (S : SessionKeys κ) : SessionKeys κ :=
  if S.sessionKey ≠ 0 then ⟨0, S.psaKeys.filter fun key ↦ key.1 ≠ S.sessionKey⟩ else S

/-- `ztp_session_new`. -/
def ztpSessionNew (E : EnvelopeAnswer κ) (S : SessionKeys κ) : ℤ × SessionKeys κ :=
  let S := ztpSessionEnd S
  if E.generateKey ≠ 0 then (eio, { S with sessionKey := 0 })
  else
    let S : SessionKeys κ := ⟨E.keyId, (E.keyId, E.key) :: S.psaKeys⟩
    if E.exportPublicKey ≠ 0 ∨ E.exportLen ≠ ztpP256PointLen then (eio, ztpSessionEnd S) else (0, S)

/-- `ztp_envelope_build` into a buffer of `outSize` bytes. -/
def ztpEnvelopeBuild (E : EnvelopeAnswer κ) (outSize : ℤ) (S : SessionKeys κ) :
    ℤ × SessionKeys κ :=
  if E.identityPublic ≠ 0 then (E.identityPublic, S)
  else
    let (rc, S) := ztpSessionNew E S
    if rc ≠ 0 then (rc, S)
    else if E.generateRandom ≠ 0 then (eio, S)
    else if E.requestCanonical < 0 then (E.requestCanonical, S)
    else if E.identitySign ≠ 0 then (E.identitySign, S)
    else if E.base64Encode ≠ 0 then (enospc, S)
    else if E.printed < 0 ∨ outSize ≤ E.printed then (enospc, S)
    else (E.printed, S)

/-- `handle_kick`, once the buffer is released: the result that its last status tells. -/
def handleKick (E : EnvelopeAnswer κ) (S : SessionKeys κ) : ℤ × SessionKeys κ :=
  let (n, S) := ztpEnvelopeBuild E envelopeMax S
  (if n < 0 then n else E.sent, S)

/-! ### The system -/

/-- A platform whose `derive_aead_key` is told by the key itself. -/
structure ZtpWorld (κ : Type) where
  platform : ZtpPlatform
  deriveAeadKey : κ → List UInt8 → ℤ × ℕ

/-- The platform with the session's key. PSA refuses an identifier that it holds no key for. -/
def ZtpWorld.during (W : ZtpWorld κ) (S : SessionKeys κ) : ZtpPlatform :=
  { W.platform with
    sessionKey := S.sessionKey
    deriveAeadKey := fun id peer ↦
      match S.psaKeys.lookup id with
      | some k => W.deriveAeadKey k peer
      | none => (eio, 0) }

/-- The system with its session. -/
structure SessionSystem (κ : Type) where
  base : ZtpSystem
  session : SessionKeys κ
  deriving DecidableEq, Repr

/-- The steps of the system with its session. -/
inductive SessionAction (κ : Type)
  /-- A step of the receive path or the main loop that builds no envelope. -/
  | device (a : ZtpAction)
  /-- The worker runs `handle_response`. -/
  | respond (W : ZtpWorld κ)
  /-- A kick is answered. -/
  | envelope (E : EnvelopeAnswer κ)

/-- The main loop is about to build an envelope. -/
def ZtpState.AnswersKick (s : ZtpState) : Prop := s.pc = .answering .kick ∧ s.idle = false

/-- The end of the handling of a message. -/
def ZtpAction.isFinish : ZtpAction → Bool
  | .finish _ => true
  | _ => false

instance (s : ZtpState) : Decidable s.AnswersKick := inferInstanceAs (Decidable (_ ∧ _))

/-- What a step of the device from `s` to `t` does to the session: the end of a response ends it,
and so does the end of the window, unless the device is about to reboot. -/
def deviceSession (s t : ZtpState) (a : ZtpAction) (S : SessionKeys κ) : SessionKeys κ :=
  match a, s.pc with
  | .finish _, .answering (.response _) => ztpSessionEnd S
  | .checkWindow, _ => if t.pc = .leaving then S else ztpSessionEnd S
  | _, _ => S

/-- One step. -/
def sessionStep (cfg : ZtpConfig) (ident : ZtpIdentity) (x : SessionSystem κ) :
    SessionAction κ → Option (SessionSystem κ)
  | .device a =>
    if a.isFinish ∧ x.base.device.AnswersKick then none
    else (systemStep cfg ident x.base (.device a)).map fun y ↦
      ⟨y, deviceSession x.base.device y.device a x.session⟩
  | .respond W =>
    (systemStep cfg ident x.base (.respond (W.during x.session))).map fun y ↦ ⟨y, x.session⟩
  | .envelope E =>
    let (rc, S) := handleKick E x.session
    if x.base.device.AnswersKick then
      (systemStep cfg ident x.base (.device (.finish rc))).map fun y ↦ ⟨y, S⟩
    else none

/-- The loop's first wait. -/
def SessionSystem.boot (cfg : ZtpConfig) (returnOnExpiry : Bool) (applier : ZtpApplyState) :
    SessionSystem κ := ⟨.boot cfg returnOnExpiry applier, ⟨0, []⟩⟩

/-! ### What happens to the session -/

/-- The manifest that `handle_response` passes to `ztp_apply_manifest`. -/
def responseManifest (cfg : ZtpConfig) (ident : ZtpIdentity) (P : ZtpPlatform) (rx : List UInt8) :
    Option (List UInt8) :=
  match ztpResponseParse rx with
  | .error _ => none
  | .ok r =>
    if r.status ≠ .accepted ∨ r.manifest = [] ∨ ident.serverPubkey ≠ [] then none
    else
      let out := P.base64Decode (manifestMax cfg - 1) r.manifest
      if out.rc ≠ 0 then none else some out.bytes

/-- What the session goes through. -/
inductive SessionEvent (κ : Type)
  /-- `ztp_session_new` was called: the key it generated, and its result. -/
  | sessionNew (key : Option κ) (rc : ℤ)
  /-- A response was handled: the manifest that was passed on, and the calls that were made. -/
  | handled (P : ZtpPlatform) (manifest : Option (List UInt8)) (calls : List ZtpCall)
  /-- The window expired. -/
  | expired

/-- The key that is generated while an envelope is built. -/
def EnvelopeAnswer.generated (E : EnvelopeAnswer κ) : Option κ :=
  if E.identityPublic = 0 ∧ E.generateKey = 0 then some E.key else none

/-- The key that a step generates. -/
def SessionAction.generated : SessionAction κ → Option κ
  | .envelope E => E.generated
  | _ => none

/-- The key that an event tells of. -/
def SessionEvent.generated : SessionEvent κ → Option κ
  | .sessionNew key _ => key
  | _ => none

/-- Notes of the events. -/
def sessionNotes (cfg : ZtpConfig) (ident : ZtpIdentity) (x : SessionSystem κ)
    (a : SessionAction κ) (y : SessionSystem κ) (log : List (SessionEvent κ)) :
    List (SessionEvent κ) :=
  match a with
  | .device .checkWindow => log ++ [.expired]
  | .device _ => log
  | .respond W =>
    let P := W.during x.session
    log ++ [.handled P (responseManifest cfg ident P x.base.device.rx)
      (y.base.applier.calls.drop x.base.applier.calls.length)]
  | .envelope E =>
    if E.identityPublic = 0 then log ++ [.sessionNew E.generated (ztpSessionNew E x.session).1]
    else log

/-- The system, observed. -/
abbrev sessionLog (cfg : ZtpConfig) (ident : ZtpIdentity) :
    SessionSystem κ × List (SessionEvent κ) → SessionAction κ →
      Option (SessionSystem κ × List (SessionEvent κ)) :=
  observed (sessionStep cfg ident) (sessionNotes cfg ident)

/-! ### The property -/

/-- The key that a sealed module was sealed to, where `sealedTo` tells it from the server's point,
the nonce and the ciphertext. -/
def ZtpModule.sealedTo (sealedTo : List UInt8 → List UInt8 → List UInt8 → Option κ)
    (P : ZtpPlatform) (m : ZtpModule) : Option κ := do
  let eph ← b64Exact P m.eph ztpP256PointLen
  let nonce ← b64Exact P m.nonce ztpSealNonceLen
  sealedTo eph nonce (P.base64Decode ctMax m.ciphertext).bytes

variable (sealedTo : List UInt8 → List UInt8 → List UInt8 → Option κ)

/-- A response whose manifest made any call came right after the `ztp_session_new` that generated
the key of all sealed modules of registered types in the manifest, and no session before had that
key. -/
def HandledInSession (earlier : List (SessionEvent κ)) : SessionEvent κ → Prop
  | .handled P (some manifest) calls =>
    calls ≠ [] → ∀ a m, BundleHas manifest a m → m.isSealed → ∃ before k,
      earlier = before ++ [.sessionNew (some k) 0] ∧ m.sealedTo sealedTo P = some k ∧
        k ∉ before.filterMap SessionEvent.generated
  | _ => True

/-- Sealed bundles are applied only in the session they were sealed for. -/
def AppliedInSession (log : List (SessionEvent κ)) : Prop :=
  Justified (HandledInSession sealedTo) log

/-- A ciphertext opens only with the key that it was sealed to. -/
def OpensOnlySealed (W : ZtpWorld κ) : Prop :=
  ∀ k peer nonce ct n, (W.deriveAeadKey k peer).1 = 0 →
    (W.platform.psaAeadDecrypt (W.deriveAeadKey k peer).2 nonce ct n).rc = 0 →
      sealedTo peer nonce ct = some k

variable {cfg : ZtpConfig} {ident : ZtpIdentity} {P : ZtpPlatform} {S : SessionKeys κ}
  {E : EnvelopeAnswer κ} {k : κ}

/-! ### Keys -/

theorem held_ztpSessionEnd (S : SessionKeys κ) : (ztpSessionEnd S).held = none := by
  rw [ztpSessionEnd]
  rcases Decidable.em (S.sessionKey = 0) with hnull | hkey
  · rw [if_neg (not_not_intro hnull), SessionKeys.held, if_pos hnull]
  · rw [if_pos hkey]
    rfl

/-- After `ztp_session_new` the key held is the one it made, and it succeeded. -/
theorem held_ztpSessionNew (h : (ztpSessionNew E S).2.held = some k) :
    E.generateKey = 0 ∧ E.key = k ∧ (ztpSessionNew E S).1 = 0 := by
  rw [ztpSessionNew] at h ⊢
  dsimp only at h ⊢
  rcases Decidable.em (E.generateKey = 0) with hgen | hgen
  · rw [if_neg (not_not_intro hgen)] at h ⊢
    split at h
    · exact absurd h (by rw [held_ztpSessionEnd]; simp)
    · next hexport =>
      rw [if_neg hexport]
      refine ⟨hgen, ?_, rfl⟩
      rw [SessionKeys.held, Option.ite_none_left_eq_some, List.lookup_cons_self] at h
      exact Option.some.inj h.2
  · rw [if_pos hgen] at h
    exact absurd h (by simp [SessionKeys.held])

/-- What fails after `ztp_session_new` leaves the key that it made. -/
theorem handleKick_session (E : EnvelopeAnswer κ) (S : SessionKeys κ) :
    (handleKick E S).2 = if E.identityPublic = 0 then (ztpSessionNew E S).2 else S := by
  rw [handleKick, ztpEnvelopeBuild]
  dsimp only
  rcases Decidable.em (E.identityPublic = 0) with hid | hid
  · rw [if_neg (not_not_intro hid), if_pos hid]
    repeat' split
    all_goals rfl
  · rw [if_pos hid, if_neg hid]

/-! ### Opening -/

/-- A sealed module whose payload was opened. -/
theorem openModule_of_sealed {m : ZtpModule} (hsealed : m.isSealed = true)
    (hopen : (openModule P m).1 = 0) :
    ∃ eph nonce, b64Exact P m.eph ztpP256PointLen = some eph ∧
      b64Exact P m.nonce ztpSealNonceLen = some nonce ∧
        (ztpOpen P eph nonce (P.base64Decode ctMax m.ciphertext).bytes payloadMax).rc = 0 := by
  rw [openModule, if_neg (not_not_intro hsealed)] at hopen
  split at hopen
  · exact absurd hopen (by decide)
  split at hopen
  · next eph nonce heph hnonce =>
    dsimp only at hopen
    split at hopen
    · exact absurd hopen (by decide)
    · exact ⟨eph, nonce, heph, hnonce, hopen⟩
  · exact absurd hopen (by decide)

/-- What `ztp_open` opens, PSA has opened with the session's key. -/
theorem ztpOpen_eq_zero {peer nonce ct : List UInt8} {n : ℕ}
    (h : (ztpOpen P peer nonce ct n).rc = 0) :
    P.sessionKey ≠ 0 ∧ (P.deriveAeadKey P.sessionKey peer).1 = 0 ∧
      (P.psaAeadDecrypt (P.deriveAeadKey P.sessionKey peer).2 nonce ct n).rc = 0 := by
  rw [ztpOpen] at h
  rcases Decidable.em (P.sessionKey = 0) with hnull | hkey
  · rw [if_pos hnull] at h
    exact absurd h (by simp [Output.fail, enoent])
  rw [if_neg hkey, ztpOpenWithKey] at h
  split at h
  · exact absurd h (by simp [Output.fail, ebadmsg])
  dsimp only at h
  split at h
  · next hderive => exact absurd h hderive
  · next hderive =>
    refine ⟨hkey, not_not.1 hderive, ?_⟩
    dsimp only at h
    split at h
    · exact absurd h (by decide)
    split at h
    · next hrc => exact hrc
    · exact absurd h (by decide)

variable {sealedTo} {W : ZtpWorld κ}

/-- **What is opened is sealed to the key that is held.** -/
theorem held_of_openModule (hW : OpensOnlySealed sealedTo W) {m : ZtpModule}
    (hsealed : m.isSealed = true) (hopen : (openModule (W.during S) m).1 = 0) :
    ∃ k, S.held = some k ∧ m.sealedTo sealedTo (W.during S) = some k := by
  obtain ⟨eph, nonce, heph, hnonce, hct⟩ := openModule_of_sealed hsealed hopen
  obtain ⟨hkey, hderive, hdecrypt⟩ := ztpOpen_eq_zero hct
  change S.sessionKey ≠ 0 at hkey
  rcases hlookup : S.psaKeys.lookup S.sessionKey with _ | k
  · simp only [ZtpWorld.during, hlookup] at hderive
    exact absurd hderive (by decide)
  · simp only [ZtpWorld.during, hlookup] at hderive hdecrypt
    refine ⟨k, by rw [SessionKeys.held, if_neg hkey, hlookup], ?_⟩
    rw [ZtpModule.sealedTo, heph, hnonce]
    exact hW k eph nonce _ _ hderive hdecrypt

/-! ### Applying -/

/-- What `handle_response` does is what `ztp_apply_manifest` does with the manifest. -/
theorem handleResponse_of_manifest (cfg : ZtpConfig) (ident : ZtpIdentity) (P : ZtpPlatform)
    (rx : List UInt8) (s : ZtpApplyState) : (handleResponse cfg ident P rx s).2.2 =
      match responseManifest cfg ident P rx with
      | some manifest => (ztpApplyManifest P manifest ident.deviceId s).2
      | none => s := by
  rw [handleResponse, responseManifest]
  rcases ztpResponseParse rx with rc | r
  · rfl
  dsimp only
  rcases Decidable.em (r.status ≠ .accepted) with hst | hst
  · rw [if_pos hst, if_pos (Or.inl hst)]
  rw [if_neg hst]
  rcases Decidable.em (r.manifest = []) with hman | hman
  · rw [if_pos hman, if_pos (Or.inr (Or.inl hman))]
  rw [if_neg hman]
  rcases Decidable.em (ident.serverPubkey ≠ []) with hpub | hpub
  · rw [if_pos hpub, if_pos (Or.inr (Or.inr hpub))]
  rw [if_neg hpub, if_neg (not_or.2 ⟨hst, not_or.2 ⟨hman, hpub⟩⟩)]
  split <;> rfl

/-- The calls of handling a response whose bundle has a module that fails: none. -/
theorem openModule_of_calls {rx manifest : List UInt8} {s : ZtpApplyState} {a : Applier}
    {m : ZtpModule} (hmanifest : responseManifest cfg ident P rx = some manifest)
    (hcalls : (handleResponse cfg ident P rx s).2.2.calls.drop s.calls.length ≠ [])
    (hm : BundleHas manifest a m) : (openModule P m).1 = 0 := by
  by_contra hopen
  have hfails : LineFails P (.ok m) := by
    rw [LineFails, ModuleFails, hm.2]
    exact Or.inl hopen
  have hdefect : Defective P manifest ident.deviceId := Or.inr (Or.inr ⟨.ok m, hm.1, hfails⟩)
  rw [handleResponse_of_manifest, hmanifest] at hcalls
  dsimp only at hcalls
  rw [(ztpApplyManifest_of_defective s hdefect).2.1, List.drop_length] at hcalls
  exact hcalls rfl

/-! ### The invariant -/

/-- The session is over or about to be ended: a response has been handled, or the device is about to
reboot. -/
def ZtpPc.sessionOver : ZtpPc → Bool
  | .handling (.response _) | .releasing (.response _) | .answering (.response _) | .leaving => true
  | _ => false

/-- What carries the property through a run: as long as a key is held that may still be used, the
last event is the `ztp_session_new` that made it. -/
structure SessionInv (sealedTo : List UInt8 → List UInt8 → List UInt8 → Option κ)
    (x : SessionSystem κ) (log : List (SessionEvent κ)) : Prop where
  held : ∀ k, x.session.held = some k → x.base.device.pc.sessionOver = false →
    ∃ before, log = before ++ [.sessionNew (some k) 0]
  distinct : (log.filterMap SessionEvent.generated).Nodup
  applied : AppliedInSession sealedTo log

theorem sessionInv_boot (cfg : ZtpConfig) (returnOnExpiry : Bool) (applier : ZtpApplyState) :
    SessionInv sealedTo (.boot cfg returnOnExpiry applier) [] where
  held := fun _ h ↦ absurd h (by simp [SessionSystem.boot, SessionKeys.held])
  distinct := List.nodup_nil
  applied := justified_nil

/-- Until the handling of a message ends, what is over stays over. -/
theorem sessionOver_step {s t : ZtpState} {a : ZtpAction} (hst : ztpStep cfg s a = some t)
    (ha : a.isFinish = false) (h : s.pc.sessionOver = true) : t.pc.sessionOver = true := by
  cases a with
  | write w =>
    obtain rfl := Option.some.inj hst
    rw [(writeRequest_main cfg s w).pc]
    exact h
  | disconnect =>
    obtain rfl := Option.some.inj hst
    rw [relayDisconnected]
    split <;> exact h
  | button =>
    obtain rfl := Option.some.inj hst
    exact h
  | tick ms =>
    obtain rfl := Option.some.inj hst
    exact h
  | get =>
    -- a session that is over is not waiting, and nothing is being applied
    obtain ⟨hpc, -⟩ := ztpStep_get hst
    exact absurd h (by rw [hpc]; decide)
  | timeout =>
    obtain ⟨⟨hpc, -⟩, -⟩ := ztpStep_timeout hst
    exact absurd h (by rw [hpc]; decide)
  | checkWindow =>
    obtain ⟨hpc, -⟩ := ztpStep_checkWindow hst
    exact absurd h (by rw [hpc]; decide)
  | applied rc =>
    obtain ⟨hpc, -⟩ := ztpStep_applied hst
    exact absurd h (by rw [hpc]; decide)
  | reset =>
    obtain ⟨hd, hpc, rfl⟩ := ztpStep_reset hst
    rw [hpc] at h
    cases hd <;> exact h
  | clear =>
    obtain ⟨hd, hpc, rfl⟩ := ztpStep_clear hst
    rw [hpc] at h
    cases hd <;> exact h
  | finish rc => exact absurd ha.symm Bool.false_ne_true

variable {x y : SessionSystem κ} {log : List (SessionEvent κ)}

/-- Nothing happens to the session, or it ends. -/
theorem SessionInv.of_same (h : SessionInv sealedTo x log)
    (hheld : ∀ k, y.session.held = some k → y.base.device.pc.sessionOver = false →
      x.session.held = some k ∧ x.base.device.pc.sessionOver = false) :
    SessionInv sealedTo y log where
  held k hk hpc := (hheld k hk hpc).elim (h.held k)
  distinct := h.distinct
  applied := h.applied

/-- The log tells of the keys that were generated. -/
theorem generated_sessionNotes (a : SessionAction κ) :
    (sessionNotes cfg ident x a y log).filterMap SessionEvent.generated =
      log.filterMap SessionEvent.generated ++ a.generated.toList := by
  cases a with
  | device a =>
    change _ = _ ++ []
    rw [List.append_nil]
    cases a with
    | checkWindow =>
      rw [sessionNotes, List.filterMap_append]
      exact List.append_nil _
    | _ => rfl
  | respond W =>
    rw [sessionNotes, List.filterMap_append]
    rfl
  | envelope E =>
    rw [sessionNotes, SessionAction.generated]
    rcases Decidable.em (E.identityPublic = 0) with hid | hid
    · rw [if_pos hid, List.filterMap_append]
      cases hgen : E.generated <;> rfl
    · rw [if_neg hid, EnvelopeAnswer.generated, if_neg fun h ↦ hid h.1]
      exact (List.append_nil _).symm

/-- As long as every generated key is new, the keys of the log are distinct. -/
theorem SessionInv.nodup_sessionNotes (h : SessionInv sealedTo x log) {a : SessionAction κ}
    (hnew : ∀ k, a.generated = some k → k ∉ log.filterMap SessionEvent.generated) :
    ((sessionNotes cfg ident x a y log).filterMap SessionEvent.generated).Nodup := by
  rw [generated_sessionNotes]
  cases hgen : a.generated with
  | none =>
    rw [Option.toList_none, List.append_nil]
    exact h.distinct
  | some k =>
    refine List.nodup_append.2 ⟨h.distinct, List.pairwise_singleton _ k, fun k' hk' _ hk ↦ ?_⟩
    obtain rfl := List.mem_singleton.1 hk
    exact fun heq ↦ hnew _ hgen (heq ▸ hk')

/-- The session after a step of the device that ends nothing. -/
theorem deviceSession_of_ne {s t : ZtpState} {a : ZtpAction} (hfin : a.isFinish = false)
    (hwindow : a ≠ .checkWindow) (S : SessionKeys κ) : deviceSession s t a S = S := by
  cases a with
  | checkWindow => exact absurd rfl hwindow
  | finish rc => exact absurd hfin.symm Bool.false_ne_true
  | _ => rfl

/-- A step of the device. -/
theorem SessionInv.device (h : SessionInv sealedTo x log) {a : ZtpAction}
    (hst : sessionStep cfg ident x (.device a) = some y) :
    SessionInv sealedTo y (sessionNotes cfg ident x (.device a) y log) := by
  simp only [sessionStep, systemStep, Option.ite_none_left_eq_some, Option.map_eq_some_iff] at hst
  obtain ⟨hkick, -, ⟨-, t, ht, rfl⟩, rfl⟩ := hst
  rcases Decidable.em (a = .checkWindow) with rfl | hwindow
  · refine ⟨fun k hk hpc ↦ ?_,
      h.nodup_sessionNotes fun k hk ↦ absurd hk (by simp [SessionAction.generated]),
      justified_concat.2 ⟨h.applied, trivial⟩⟩
    dsimp only [deviceSession] at hk hpc
    split at hk
    · next hleaving => exact absurd hpc (by rw [hleaving]; decide)
    · exact absurd hk (by rw [held_ztpSessionEnd]; simp)
  -- only leaving the window is noted
  have hlog : sessionNotes cfg ident x (.device a)
      ⟨⟨t, x.base.applier⟩, deviceSession x.base.device t a x.session⟩ log = log := by
    cases a with
    | checkWindow => exact absurd rfl hwindow
    | _ => rfl
  rw [hlog]
  cases hfin : a.isFinish with
  | false =>
    refine h.of_same fun k hk hpc ↦ ⟨?_, ?_⟩
    · rwa [deviceSession_of_ne hfin hwindow] at hk
    · rw [← Bool.not_eq_true]
      exact fun hover ↦ absurd (sessionOver_step ht hfin hover) (by rw [hpc]; decide)
  | true =>
    cases a with
    | finish rc =>
      obtain ⟨hd, hpc, -⟩ := ztpStep_finish ht
      refine h.of_same fun k hk _ ↦ ?_
      dsimp only [deviceSession] at hk
      rw [hpc] at hk ⊢
      cases hd with
      | response rc' => exact absurd hk (by rw [held_ztpSessionEnd]; simp)
      | kick => exact ⟨hk, rfl⟩
      | overflow => exact ⟨hk, rfl⟩
    | _ => exact absurd hfin Bool.false_ne_true

/-- A kick is answered with a key that was not used before. -/
theorem SessionInv.envelope (h : SessionInv sealedTo x log)
    (hnew : ∀ k, E.generated = some k → k ∉ log.filterMap SessionEvent.generated)
    (hst : sessionStep cfg ident x (.envelope E) = some y) :
    SessionInv sealedTo y (sessionNotes cfg ident x (.envelope E) y log) := by
  simp only [sessionStep, systemStep, Option.ite_none_right_eq_some, Option.ite_none_left_eq_some,
    Option.map_eq_some_iff] at hst
  obtain ⟨hkick, z, -, rfl⟩ := hst
  have hnodup : ((sessionNotes cfg ident x (.envelope E) x log).filterMap
      SessionEvent.generated).Nodup := h.nodup_sessionNotes hnew
  rw [sessionNotes] at hnodup ⊢
  rcases Decidable.em (E.identityPublic = 0) with hid | hid
  · rw [if_pos hid] at hnodup ⊢
    refine ⟨fun k hk _ ↦ ⟨log, ?_⟩, hnodup, justified_concat.2 ⟨h.applied, trivial⟩⟩
    rw [handleKick_session, if_pos hid] at hk
    obtain ⟨hgen, rfl, hrc⟩ := held_ztpSessionNew hk
    rw [EnvelopeAnswer.generated, if_pos ⟨hid, hgen⟩, hrc]
  · rw [if_neg hid]
    refine h.of_same fun k hk _ ↦ ⟨?_, ?_⟩
    · rwa [handleKick_session, if_neg hid] at hk
    · rw [hkick.1]
      rfl

/-- A response is handled. -/
theorem SessionInv.respond (h : SessionInv sealedTo x log) (hW : OpensOnlySealed sealedTo W)
    (hst : sessionStep cfg ident x (.respond W) = some y) :
    SessionInv sealedTo y (sessionNotes cfg ident x (.respond W) y log) := by
  simp only [sessionStep, systemStep, Option.map_eq_some_iff] at hst
  obtain ⟨-, ⟨t, ht, rfl⟩, rfl⟩ := hst
  obtain ⟨hpc, rfl⟩ := ztpStep_applied ht
  refine ⟨fun k _ hover ↦ absurd hover.symm Bool.false_ne_true,
    h.nodup_sessionNotes fun k hk ↦ absurd hk (by simp [SessionAction.generated]),
    justified_concat.2 ⟨h.applied, ?_⟩⟩
  cases hmanifest : responseManifest cfg ident (W.during x.session) x.base.device.rx with
  | none => trivial
  | some manifest =>
    intro hcalls a m hm hsealed
    obtain ⟨k, hheld, hkey⟩ :=
      held_of_openModule hW hsealed (openModule_of_calls hmanifest hcalls hm)
    obtain ⟨before, rfl⟩ := h.held k hheld (by rw [hpc]; rfl)
    refine ⟨before, k, rfl, hkey, fun hmem ↦ ?_⟩
    have hdistinct := h.distinct
    rw [List.filterMap_append] at hdistinct
    exact (List.nodup_append.1 hdistinct).2.2 k hmem k List.mem_cons_self rfl

/-! ### The main result -/

/-- What is assumed of a step: ciphertexts open only with their key, and a key that is generated is
new. -/
def SessionAssumed (sealedTo : List UInt8 → List UInt8 → List UInt8 → Option κ)
    (p : SessionSystem κ × List (SessionEvent κ)) : SessionAction κ → Prop
  | .device _ => True
  | .respond W => OpensOnlySealed sealedTo W
  | .envelope E => ∀ k, E.generated = some k → k ∉ p.2.filterMap SessionEvent.generated

/-- What is assumed of the run, for each of its steps. -/
theorem allSteps_sessionAssumed {as : List (SessionAction κ)}
    {p : SessionSystem κ × List (SessionEvent κ)}
    (hcrypto : ∀ W, .respond W ∈ as → OpensOnlySealed sealedTo W)
    (hdistinct : (p.2.filterMap SessionEvent.generated ++
      as.filterMap SessionAction.generated).Nodup) :
    AllSteps (sessionLog cfg ident) (SessionAssumed sealedTo) p as := by
  induction as generalizing p with
  | nil => trivial
  | cons a as ih =>
    have hkeys : (a :: as).filterMap SessionAction.generated =
        a.generated.toList ++ as.filterMap SessionAction.generated := by
      rw [List.filterMap_cons]
      cases a.generated <;> rfl
    rw [hkeys, ← List.append_assoc] at hdistinct
    refine ⟨?_, ?_⟩
    · cases a with
      | device a => trivial
      | respond W => exact hcrypto W List.mem_cons_self
      | envelope E =>
        intro k hk hmem
        have hone := (List.nodup_append.1 hdistinct).1
        rw [SessionAction.generated, hk] at hone
        exact (List.nodup_append.1 hone).2.2 k hmem k List.mem_cons_self rfl
    · cases hst : sessionLog cfg ident p a with
      | none => trivial
      | some q =>
        refine ih (fun W hW ↦ hcrypto W (List.mem_cons_of_mem a hW)) ?_
        rw [(observed_eq_some.1 hst).2, generated_sessionNotes]
        exact hdistinct

/-- **A sealed bundle is applied only in the session it was sealed for**, in every run. -/
theorem appliedInSession_throughout (cfg : ZtpConfig) (ident : ZtpIdentity) (returnOnExpiry : Bool)
    (applier : ZtpApplyState) (sealedTo : List UInt8 → List UInt8 → List UInt8 → Option κ)
    (as : List (SessionAction κ)) (hcrypto : ∀ W, .respond W ∈ as → OpensOnlySealed sealedTo W)
    (hdistinct : (as.filterMap SessionAction.generated).Nodup) :
    Throughout (sessionLog cfg ident) (fun p ↦ AppliedInSession sealedTo p.2)
      (.boot cfg returnOnExpiry applier, []) as := by
  have hinv : Throughout (sessionLog cfg ident) (fun p ↦ SessionInv sealedTo p.1 p.2)
      (.boot cfg returnOnExpiry applier, []) as := by
    refine throughout_of_invariant (fun p a q hp hok hst ↦ ?_)
      (sessionInv_boot cfg returnOnExpiry applier) (allSteps_sessionAssumed hcrypto hdistinct)
    obtain ⟨hstep, hlog⟩ := observed_eq_some.1 hst
    rw [hlog]
    cases a with
    | device a => exact hp.device hstep
    | respond W => exact hp.respond hok hstep
    | envelope E => exact hp.envelope hok hstep
  exact hinv.imp fun p hp ↦ hp.applied

/-- The decoding of base64 with padding. -/
def base64Text (src : List UInt8) : Option (List UInt8) :=
  (base64Quads (src.map fun b ↦ if b = 61 then 65 else b)).map fun out ↦
    out.take (out.length - src.count 61)

/-- A platform with one byte for a key, and the key for every byte of a tag. -/
def sealingWorld (join : ℤ) : ZtpWorld UInt8 where
  platform :=
    { workingPlatform with
      base64Decode := fun n src ↦
        match base64Text src with
        | none => .fail n einval
        | some bytes => if h : bytes.length ≤ n then ⟨0, bytes, h⟩ else .fail n (-12)
      psaAeadDecrypt := fun aead _ ct n ↦
        if ct.getLast? = some (UInt8.ofNat aead) then
          ⟨0, (ct.take (ct.length - ztpSealTagLen)).take n, List.length_take_le ..⟩
        else .fail n psaErrorInvalidSignature
      attempt := { workingPlatform.attempt with join } }
  deriveAeadKey k _ := (0, k.toNat)

/-- The key in the tag. -/
def tagKey (_peer _nonce ct : List UInt8) : Option UInt8 := ct.getLast?

theorem opensOnlySealed_sealingWorld (join : ℤ) : OpensOnlySealed tagKey (sealingWorld join) := by
  intro k peer nonce ct n _ hdecrypt
  dsimp only [sealingWorld] at hdecrypt
  split at hdecrypt
  · next htag => rwa [UInt8.ofNat_toNat] at htag
  · exact absurd hdecrypt (by simp [Output.fail, psaErrorInvalidSignature])

/-- The server accepts the device `d`, and sends it a network and a tenant sealed to the key 7. -/
def sealedResponse : List UInt8 :=
  ascii "protocol_version=1\nstatus=accepted\nmanifest.payload=cHJvdG9jb2xfdmVyc2lvbj0xCmRldm" ++
    ascii "ljZV9pZD1kCm1vZHVsZT13aWZpLnYyIFcyNWxkSGR2Y210ZENuTnphV1E5WVdJSwptb2R1bGUtc2VhbGVkPW" ++
    ascii "M4eS52MiByYXcgQkZCUVVGQlFVRkJRVUZCUVVGQlFVRkJRVUZCUVVGQlFVRkJRVUZCUVVGQlFVRkJRVUZCUV" ++
    ascii "VGQlFVRkJRVUZCUVVGQlFVRkJRVUZCUVVGQlFVRkJRVUZBPSBibTV1Ym01dWJtNXVibTV1IFcyTTRlVjBLZF" ++
    ascii "hKc1BXZ3VhUW9IQndjSEJ3Y0hCd2NIQndjSEJ3Y0gK\n"

/-- The relay writes the response, and the device handles it. -/
def sealedResponding (join : ℤ) : List (SessionAction UInt8) :=
  let fragment := putBe16 (UInt16.ofNat sealedResponse.length) ++ sealedResponse
  [.device (.write ⟨fragment, 0, false, false⟩), .device terminator, .device .get,
    .respond (sealingWorld join), .device .reset, .device .clear, .device (.finish 0)]

/-- The relay starts a session, in which the device makes the key `k`. -/
def kicking (k : UInt8) : List (SessionAction UInt8) :=
  [.device terminator, .device .get, .device .reset, .device .clear,
    .envelope ⟨0, 0, 1, k, 0, ztpP256PointLen, 0, 400, 0, 0, 900, 0⟩]

/-- The device cannot join the network of the response. The relay starts another session and plays
the response again. -/
def replayRun : List (SessionAction UInt8) :=
  kicking 7 ++ sealedResponding (-116) ++ kicking 8 ++ sealedResponding 0

theorem appliedInSession_replayRun :
    Throughout (sessionLog ztpDefaults plainIdentity) (fun p ↦ AppliedInSession tagKey p.2)
      (.boot ztpDefaults false clearState, []) replayRun := by
  refine appliedInSession_throughout ztpDefaults plainIdentity false clearState tagKey replayRun
    (fun W hW ↦ ?_) (by decide)
  obtain rfl | rfl : W = sealingWorld (-116) ∨ W = sealingWorld 0 := by
    simpa [replayRun, kicking, sealedResponding] using hW
  · exact opensOnlySealed_sealingWorld _
  · exact opensOnlySealed_sealingWorld _

/-- The first time it tries to join; the second time nothing of the bundle is applied. -/
example : ((exec (sessionStep ztpDefaults plainIdentity) (.boot ztpDefaults false clearState)
    replayRun).map fun x ↦ (x.base.applier.calls.length, x.base.device.curStatus)) =
      some (1, .error) := by
  decide +kernel

end ThinEdge.Provisioner
