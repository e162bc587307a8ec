import ThinEdge.Provisioner.FrontEnds
import ThinEdge.Provisioner.ZtpStage

/-!
# Zero-touch provisioning: applying a bundle

`ztp_apply_manifest` of `apps/wifi-provisioner/src/ztp_apply.c`, with the static buffers that its
modules share and the calls it makes to the platform. The first phase decodes, opens and stages
every module; the second commits what is staged, in the order of the table `appliers`.

* `ztpApplyManifest_of_defective`: a bundle with a defect anywhere in it fails before the first
  call, and nothing of it stays in the buffers.
* `networkBeforeTenant_iff`: the table's order keeps Cumulocity settings behind the Wi-Fi they need
  when the bundle has both. A bundle with a tenant alone is committed without a network, and that is
  the only kind that is.
-/

namespace ThinEdge.Provisioner

open Bytes Net Settings

/-- `-ENOENT`. -/
def enoent : ℤ := -2

/-- `-EIO`. -/
def eio : ℤ := -5

/-- `-EBADMSG`. -/
def ebadmsg : ℤ := -77

/-- `-ENOTSUP`. -/
def enotsup : ℤ := -134

/-- `PSA_ERROR_INVALID_SIGNATURE`. -/
def psaErrorInvalidSignature : ℤ := -149

/-! ### The platform -/

/-- What a call leaves behind that writes to a buffer of `n` bytes: its result and what it wrote to
the start of the buffer, which it may have done before it failed. -/
structure Output (n : ℕ) where
  rc : ℤ
  bytes : List UInt8
  length_le : bytes.length ≤ n
  deriving DecidableEq, Repr

/-- The output of a call that wrote nothing. -/
def Output.fail (n : ℕ) (rc : ℤ) : Output n := ⟨rc, [], Nat.zero_le n⟩

/-- What the decoders, PSA and the stores answer. -/
structure ZtpPlatform where
  /-- `base64_decode` into a buffer of the given size. -/
  base64Decode : (n : ℕ) → List UInt8 → Output n
  /-- `session_key`, where zero is `PSA_KEY_ID_NULL`. -/
  sessionKey : ℕ
  /-- `derive_aead_key`, which only calls PSA: its result and the key. -/
  deriveAeadKey : ℕ → List UInt8 → ℤ × ℕ
  /-- `psa_aead_decrypt` with a key, a nonce and a ciphertext. -/
  psaAeadDecrypt : ℕ → List UInt8 → List UInt8 → (n : ℕ) → Output n
  /-- The join and the credential store. -/
  attempt : AttemptAnswer
  /-- The settings subsystem. -/
  settings : SettingsAnswer

/-- A call that reaches the network, the credential store or the settings store. -/
inductive ZtpCall
  /-- `app_net_try_credentials`. -/
  | join (c : AppWifiCreds) (rc : ℤ)
  /-- `wifi_credentials_delete_all`. -/
  | deleteAll
  /-- `wifi_credentials_set_personal`. -/
  | setPersonal (c : AppWifiCreds) (rc : ℤ)
  | settings (call : SettingsCall)
  deriving DecidableEq, Repr

/-! ### The state -/

/-- `PAYLOAD_MAX`. -/
def payloadMax : ℕ := 1024

/-- `ZTP_SEAL_TAG_LEN`. -/
def ztpSealTagLen : ℕ := 16

/-- `CT_MAX`. -/
def ctMax : ℕ := payloadMax + ztpSealTagLen

/-- The static buffers, the credential store, and the calls made so far. -/
structure ZtpApplyState where
  wifi : WifiStaging
  c8y : ProvC8y
  payload : Area payloadMax
  ct : Area ctMax
  store : CredStore
  calls : List ZtpCall
  deriving DecidableEq, Repr

/-- Nothing of a bundle is left in the staging structs and the payload buffer. -/
structure ZtpApplyState.Clean (s : ZtpApplyState) : Prop where
  wifi : s.wifi = .zero
  c8y : s.c8y = .zero
  payload : s.payload = .zero payloadMax

/-! ### Opening a module -/

/-- `ztp_open_with_key`. -/
def ztpOpenWithKey (P : ZtpPlatform) (key : ℕ) (peer nonce ct : List UInt8) (n : ℕ) : Output n :=
  if ct.length < ztpSealTagLen then .fail n ebadmsg
  else
    let (rc, aead) := P.deriveAeadKey key peer
    if rc ≠ 0 then .fail n rc
    else
      let out := P.psaAeadDecrypt aead nonce ct n
      { out with
        rc := if out.rc = psaErrorInvalidSignature then ebadmsg else if out.rc = 0 then 0 else eio }

/-- `ztp_open`. -/
def ztpOpen (P : ZtpPlatform) (peer nonce ct : List UInt8) (n : ℕ) : Output n :=
  if P.sessionKey = 0 then .fail n enoent else ztpOpenWithKey P P.sessionKey peer nonce ct n

/-- `b64_exact`: the bytes, when there are as many as wanted. `none` is `-EPROTO`. -/
def b64Exact (P : ZtpPlatform) (src : List UInt8) (want : ℕ) : Option (List UInt8) :=
  let out := P.base64Decode want src
  if out.rc ≠ 0 ∨ out.bytes.length ≠ want then none else some out.bytes

/-- `ZTP_P256_POINT_LEN`. -/
def ztpP256PointLen : ℕ := 65

/-- `ZTP_SEAL_NONCE_LEN`. -/
def ztpSealNonceLen : ℕ := 12

/-- `module_payload`: its result, the length, and the state with the payload in its buffer. -/
def modulePayload (P : ZtpPlatform) (m : ZtpModule) (s : ZtpApplyState) : ℤ × ℕ × ZtpApplyState :=
  if ¬ m.isSealed then
    let out := P.base64Decode payloadMax m.payload
    let s := { s with payload := s.payload.write out.bytes out.length_le }
    (if out.rc ≠ 0 then eproto else 0, out.bytes.length, s)
  else if m.format ≠ ascii "raw" then (enotsup, 0, s)
  else
    match b64Exact P m.eph ztpP256PointLen, b64Exact P m.nonce ztpSealNonceLen with
    | some eph, some nonce =>
      let ctOut := P.base64Decode ctMax m.ciphertext
      let s := { s with ct := s.ct.write ctOut.bytes ctOut.length_le }
      if ctOut.rc ≠ 0 then (eproto, 0, s)
      else
        let out := ztpOpen P eph nonce (s.ct.bytes.take ctOut.bytes.length) payloadMax
        let s := { s with payload := s.payload.write out.bytes out.length_le, ct := .zero ctMax }
        (out.rc, out.bytes.length, s)
    | _, _ => (eproto, 0, s)

/-! ### Appliers -/

/-- An entry of the table `appliers`. -/
inductive Applier
  | wifi
  | c8y
  deriving DecidableEq, Repr

/-- The table `appliers`. -/
def appliers : List Applier := [.wifi, .c8y]

/-- The module type an applier is for. -/
def Applier.type : Applier → List UInt8
  | .wifi => ascii "wifi.v2"
  | .c8y => ascii "c8y.v2"

/-- `stage`, with the payload. -/
def Applier.stage (a : Applier) (p : List UInt8) (s : ZtpApplyState) : ℤ × ZtpApplyState :=
  match a with
  | .wifi => ((wifiStage p).1, { s with wifi := (wifiStage p).2 })
  | .c8y => ((c8yStage p).1, { s with c8y := (c8yStage p).2 })

/-- The calls of `wifi_commit`. -/
def wifiCommitCalls (answer : AttemptAnswer) (c : AppWifiCreds) : List ZtpCall :=
  .join c answer.join :: if answer.join ≠ 0 then [] else [.deleteAll, .setPersonal c answer.setRc]

/-- `commit`. What `c8y_commit` has stored it clears. -/
def Applier.commit (a : Applier) (P : ZtpPlatform) (s : ZtpApplyState) : ℤ × ZtpApplyState :=
  match a with
  | .wifi =>
    let c := s.wifi.best.creds
    let attempt := wifiCommit P.attempt s.store c
    (attempt.result,
      { s with store := attempt.store, calls := s.calls ++ wifiCommitCalls P.attempt c })
  | .c8y =>
    let (rc, calls) := provC8yStore P.settings s.c8y
    (rc, { s with c8y := .zero, calls := s.calls ++ calls.map .settings })

/-- `reset`. -/
def Applier.reset (a : Applier) (s : ZtpApplyState) : ZtpApplyState :=
  match a with
  | .wifi => { s with wifi := .zero }
  | .c8y => { s with c8y := .zero }

/-- `find_applier`. -/
def findApplier (type : List UInt8) : Option Applier := appliers.find? fun a ↦ type = a.type

/-- `reset_all`. -/
def ZtpApplyState.resetAll (s : ZtpApplyState) : ZtpApplyState :=
  { appliers.foldl (fun s a ↦ a.reset s) s with payload := .zero payloadMax }

/-! ### Applying a manifest -/

/-- The body of the loop of the first phase. `staged` lists the appliers whose flag is set, and
`any` is that there is one. An error is the return from `ztp_apply_manifest`. -/
def stageModule (P : ZtpPlatform) :
    List Applier × ZtpApplyState → Except ℤ ZtpModule →
      Except (ℤ × ZtpApplyState) (List Applier × ZtpApplyState)
  | (_, s), .error rc => .error (rc, s.resetAll)
  | (staged, s), .ok m =>
    match findApplier m.type with
    | none => .ok (staged, s)
    | some a =>
      let (rc, len, s) := modulePayload P m s
      let (rc, s) := if rc = 0 then a.stage (s.payload.bytes.take len) s else (rc, s)
      let s := { s with payload := .zero payloadMax }
      if rc ≠ 0 then .error (rc, s.resetAll) else .ok (a :: staged, s)

/-- The loop of the second phase. -/
def commitStaged (P : ZtpPlatform) (staged : List Applier) :
    List Applier → ZtpApplyState → ℤ × ZtpApplyState
  | [], s => (0, s.resetAll)
  | a :: as, s =>
    if a ∉ staged then commitStaged P staged as s
    else
      let (rc, s) := a.commit P s
      if rc ≠ 0 then (rc, s.resetAll) else commitStaged P staged as s

/-- `ztp_apply_manifest`. -/
def ztpApplyManifest (P : ZtpPlatform) (manifest deviceId : List UInt8) (s : ZtpApplyState) :
    ℤ × ZtpApplyState :=
  let hdr := ztpManifestHeader manifest
  if ¬ hdr.versionOk then (eproto, s)
  else if hdr.deviceId ≠ deviceId then (eproto, s)
  else
    match moduleReader.run (stageModule P) ([], s.resetAll) manifest with
    | .error r => r
    | .ok (staged, s) =>
      if staged = [] then (enodata, s) else commitStaged P staged appliers s

variable {P : ZtpPlatform} {manifest deviceId : List UInt8} {m : ZtpModule} {a : Applier}
  {s : ZtpApplyState} {staged : List Applier}

/-! ### What a module yields -/

/-- The result and the payload of a module. -/
def openModule (P : ZtpPlatform) (m : ZtpModule) : ℤ × List UInt8 :=
  if ¬ m.isSealed then
    let out := P.base64Decode payloadMax m.payload
    (if out.rc ≠ 0 then eproto else 0, out.bytes)
  else if m.format ≠ ascii "raw" then (enotsup, [])
  else
    match b64Exact P m.eph ztpP256PointLen, b64Exact P m.nonce ztpSealNonceLen with
    | some eph, some nonce =>
      let ctOut := P.base64Decode ctMax m.ciphertext
      if ctOut.rc ≠ 0 then (eproto, [])
      else
        let out := ztpOpen P eph nonce ctOut.bytes payloadMax
        (out.rc, out.bytes)
    | _, _ => (eproto, [])

/-- What was in the buffers before does not matter, and only the buffers change. -/
theorem modulePayload_eq (P : ZtpPlatform) (m : ZtpModule) (s : ZtpApplyState) :
    ∃ len payload ct, modulePayload P m s = ((openModule P m).1, len, { s with payload, ct }) ∧
      payload.bytes.take len = (openModule P m).2 := by
  rw [modulePayload, openModule]
  by_cases hclear : m.isSealed = true
  · rw [if_neg (not_not_intro hclear), if_neg (not_not_intro hclear)]
    by_cases hraw : m.format = ascii "raw"
    · rw [if_neg (not_not_intro hraw), if_neg (not_not_intro hraw)]
      rcases b64Exact P m.eph ztpP256PointLen with _ | eph
      · exact ⟨0, s.payload, s.ct, rfl, List.take_zero⟩
      rcases b64Exact P m.nonce ztpSealNonceLen with _ | nonce
      · exact ⟨0, s.payload, s.ct, rfl, List.take_zero⟩
      dsimp only
      by_cases hct : (P.base64Decode ctMax m.ciphertext).rc = 0
      · rw [if_neg (not_not_intro hct), if_neg (not_not_intro hct), Area.take_write]
        exact ⟨_, _, _, rfl, Area.take_write ..⟩
      · rw [if_pos hct, if_pos hct]
        exact ⟨0, s.payload, _, rfl, List.take_zero⟩
    · rw [if_pos hraw, if_pos hraw]
      exact ⟨0, s.payload, s.ct, rfl, List.take_zero⟩
  · rw [if_pos hclear, if_pos hclear]
    exact ⟨_, _, s.ct, rfl, Area.take_write ..⟩

/-- The result of staging a payload. -/
def Applier.check : Applier → List UInt8 → ℤ
  | .wifi, p => (wifiStage p).1
  | .c8y, p => (c8yStage p).1

/-- The state with a payload staged. -/
def Applier.put : Applier → List UInt8 → ZtpApplyState → ZtpApplyState
  | .wifi, p, s => { s with wifi := (wifiStage p).2 }
  | .c8y, p, s => { s with c8y := (c8yStage p).2 }

theorem Applier.stage_eq (a : Applier) (p : List UInt8) (s : ZtpApplyState) :
    a.stage p s = (a.check p, a.put p s) := by
  cases a <;> rfl

/-- A module of a registered type does not decode, open or validate. -/
def ModuleFails (P : ZtpPlatform) (m : ZtpModule) : Prop :=
  match findApplier m.type with
  | none => False
  | some a => (openModule P m).1 ≠ 0 ∨ a.check (openModule P m).2 ≠ 0

instance (P : ZtpPlatform) (m : ZtpModule) : Decidable (ModuleFails P m) :=
  match h : findApplier m.type with
  | none => isFalse (by rw [ModuleFails, h]; exact not_false)
  | some a => decidable_of_iff ((openModule P m).1 ≠ 0 ∨ a.check (openModule P m).2 ≠ 0)
      (by rw [ModuleFails, h])

/-- A module line is malformed, or its module fails. -/
def LineFails (P : ZtpPlatform) : Except ℤ ZtpModule → Prop
  | .error _ => True
  | .ok m => ModuleFails P m

instance (P : ZtpPlatform) : (line : Except ℤ ZtpModule) → Decidable (LineFails P line)
  | .error _ => inferInstanceAs (Decidable True)
  | .ok m => inferInstanceAs (Decidable (ModuleFails P m))

/-- The bundle is for another protocol version or another device, or a module line of it fails. -/
def Defective (P : ZtpPlatform) (manifest deviceId : List UInt8) : Prop :=
  (ztpManifestHeader manifest).versionOk = false ∨
    (ztpManifestHeader manifest).deviceId ≠ deviceId ∨
      ∃ line ∈ bundleLines manifest, LineFails P line

instance (P : ZtpPlatform) (manifest deviceId : List UInt8) :
    Decidable (Defective P manifest deviceId) :=
  inferInstanceAs (Decidable (_ ∨ _ ∨ _))

/-! ### Clearing -/

theorem clean_resetAll (s : ZtpApplyState) : s.resetAll.Clean := ⟨rfl, rfl, rfl⟩

/-! ### The first phase -/

/-- Staging writes nothing but the staging structs. -/
structure Untouched (s t : ZtpApplyState) : Prop where
  calls : t.calls = s.calls
  store : t.store = s.store

/-- What a module of a registered type does. -/
theorem stageModule_of_some (P : ZtpPlatform) (staged : List Applier) (s : ZtpApplyState)
    (ha : findApplier m.type = some a) : ∃ ct, stageModule P (staged, s) (.ok m) =
      if (openModule P m).1 ≠ 0 then .error ((openModule P m).1, { s with ct }.resetAll)
      else if a.check (openModule P m).2 ≠ 0 then
        .error (a.check (openModule P m).2, { a.put (openModule P m).2 s with ct }.resetAll)
      else .ok (a :: staged,
        { a.put (openModule P m).2 s with payload := .zero payloadMax, ct }) := by
  obtain ⟨len, payload, ct, hopen, htake⟩ := modulePayload_eq P m s
  refine ⟨ct, ?_⟩
  simp only [stageModule, ha, hopen, htake, Applier.stage_eq]
  by_cases hrc : (openModule P m).1 = 0
  · rw [if_pos hrc, if_neg (not_not_intro hrc)]
    cases a <;> rfl
  · rw [if_neg hrc, if_pos hrc, if_pos hrc]
    rfl

/-- What one module line does: it fails and clears everything, it is of no registered type, or it is
staged. -/
theorem stageModule_cases (P : ZtpPlatform) (staged : List Applier) (s : ZtpApplyState)
    (line : Except ℤ ZtpModule) :
    (LineFails P line ∧ ∃ rc t, stageModule P (staged, s) line = .error (rc, t) ∧
        (rc ≠ 0 ∨ line = .error rc) ∧ Untouched s t ∧ t.Clean) ∨
      (¬ LineFails P line ∧ ∃ m, line = .ok m ∧ findApplier m.type = none ∧
        stageModule P (staged, s) line = .ok (staged, s)) ∨
      ¬ LineFails P line ∧ ∃ m a ct, line = .ok m ∧ findApplier m.type = some a ∧
        stageModule P (staged, s) line = .ok (a :: staged,
          { a.put (openModule P m).2 s with payload := .zero payloadMax, ct }) ∧
        a.check (openModule P m).2 = 0 := by
  rcases line with rc | m
  · exact Or.inl ⟨trivial, rc, s.resetAll, rfl, Or.inr rfl, ⟨rfl, rfl⟩, clean_resetAll s⟩
  cases ha : findApplier m.type with
  | none =>
    refine Or.inr (Or.inl ⟨?_, m, rfl, ha, ?_⟩)
    · rw [LineFails, ModuleFails, ha]
      exact not_false
    · rw [stageModule, ha]
  | some a =>
    have hfails : LineFails P (.ok m) ↔
        (openModule P m).1 ≠ 0 ∨ a.check (openModule P m).2 ≠ 0 := by
      rw [LineFails, ModuleFails, ha]
    obtain ⟨ct, hstep⟩ := stageModule_of_some P staged s ha
    by_cases hrc : (openModule P m).1 = 0
    · rw [if_neg (not_not_intro hrc)] at hstep
      by_cases hcheck : a.check (openModule P m).2 = 0
      · rw [if_neg (not_not_intro hcheck)] at hstep
        refine Or.inr (Or.inr ⟨?_, m, a, ct, rfl, ha, hstep, hcheck⟩)
        rw [hfails, not_or]
        exact ⟨not_not_intro hrc, not_not_intro hcheck⟩
      · rw [if_pos hcheck] at hstep
        refine Or.inl ⟨hfails.2 (Or.inr hcheck), _, _, hstep, Or.inl hcheck, ?_, clean_resetAll _⟩
        cases a <;> exact ⟨rfl, rfl⟩
    · rw [if_pos hrc] at hstep
      exact Or.inl ⟨hfails.2 (Or.inl hrc), _, _, hstep, Or.inl hrc, ⟨rfl, rfl⟩, clean_resetAll _⟩

/-- A module of the type `a` is among the lines of a manifest. -/
def BundleHas (manifest : List UInt8) (a : Applier) (m : ZtpModule) : Prop :=
  .ok m ∈ bundleLines manifest ∧ findApplier m.type = some a

/-- **The invariant of the first phase.** The stores and the payload buffer hold nothing of the
bundle, and what is staged is what some module of the bundle says. -/
structure StagingInv (P : ZtpPlatform) (manifest : List UInt8) (s : ZtpApplyState)
    (st : List Applier × ZtpApplyState) : Prop where
  untouched : Untouched s st.2
  payload : st.2.payload = .zero payloadMax
  clean : st.1 = [] → st.2.Clean
  wifi : .wifi ∈ st.1 → ∃ m, BundleHas manifest .wifi m ∧
    st.2.wifi = (wifiStage (openModule P m).2).2
  c8y : .c8y ∈ st.1 → ∃ m, BundleHas manifest .c8y m ∧ st.2.c8y = (c8yStage (openModule P m).2).2 ∧
    (c8yStage (openModule P m).2).1 = 0

theorem stagingInv_start (P : ZtpPlatform) (manifest : List UInt8) (s : ZtpApplyState) :
    StagingInv P manifest s ([], s.resetAll) where
  untouched := ⟨rfl, rfl⟩
  payload := rfl
  clean _ := clean_resetAll s
  wifi h := absurd h List.not_mem_nil
  c8y h := absurd h List.not_mem_nil

theorem StagingInv.step {line : Except ℤ ZtpModule} {st st' : List Applier × ZtpApplyState}
    (hmem : line ∈ bundleLines manifest) (h : StagingInv P manifest s st)
    (hstep : stageModule P st line = .ok st') : StagingInv P manifest s st' := by
  obtain ⟨staged, t⟩ := st
  rcases stageModule_cases P staged t line with
    ⟨-, rc, t', hrun, -⟩ | ⟨-, m, -, -, hrun⟩ | ⟨-, m, a, ct, rfl, ha, hrun, hcheck⟩
  · exact absurd (hstep.symm.trans hrun) (by simp)
  · exact Except.ok.inj (hrun.symm.trans hstep) ▸ h
  obtain rfl := Except.ok.inj (hrun.symm.trans hstep)
  cases a with
  | wifi =>
    exact {
      untouched := ⟨h.untouched.calls, h.untouched.store⟩
      payload := rfl
      clean := fun hnil ↦ absurd hnil (List.cons_ne_nil _ _)
      wifi := fun _ ↦ ⟨m, ⟨hmem, ha⟩, rfl⟩
      c8y := fun hc8y ↦ h.c8y ((List.mem_cons.mp hc8y).resolve_left (by decide)) }
  | c8y =>
    exact {
      untouched := ⟨h.untouched.calls, h.untouched.store⟩
      payload := rfl
      clean := fun hnil ↦ absurd hnil (List.cons_ne_nil _ _)
      wifi := fun hwifi ↦ h.wifi ((List.mem_cons.mp hwifi).resolve_left (by decide))
      c8y := fun _ ↦ ⟨m, ⟨hmem, ha⟩, rfl, hcheck⟩ }

/-- The loop of the first phase, as a fold over the module lines. -/
theorem run_stageModule (P : ZtpPlatform) (manifest : List UInt8)
    (st : List Applier × ZtpApplyState) : moduleReader.run (stageModule P) st manifest =
      (bundleLines manifest).foldlM (stageModule P) st := by
  rw [Reader.run_eq_foldlM, toList_moduleReader]

/-- The first phase fails exactly when some module line does. -/
theorem stage_fails_iff (P : ZtpPlatform) (manifest : List UInt8)
    (st : List Applier × ZtpApplyState) :
    (∃ r, (bundleLines manifest).foldlM (stageModule P) st = .error r) ↔
      ∃ line ∈ bundleLines manifest, LineFails P line := by
  refine Reader.foldlM_error_iff fun st line ↦ ?_
  obtain ⟨staged, t⟩ := st
  rcases stageModule_cases P staged t line with
    ⟨hfails, rc, t', hrun, -⟩ | ⟨hfails, m, -, -, hrun⟩ | ⟨hfails, m, a, ct, -, -, hrun, -⟩
  · exact iff_of_true ⟨_, hrun⟩ hfails
  · exact iff_of_false (by rw [hrun]; rintro ⟨r, ⟨⟩⟩) hfails
  · exact iff_of_false (by rw [hrun]; rintro ⟨r, ⟨⟩⟩) hfails

/-- How the first phase fails. -/
theorem stage_error {rc : ℤ} {t : ZtpApplyState}
    (h : (bundleLines manifest).foldlM (stageModule P) ([], s.resetAll) = .error (rc, t)) :
    rc ≠ 0 ∧ Untouched s t ∧ t.Clean := by
  obtain ⟨line, hmem, ⟨staged, t₁⟩, hinv, hrun⟩ :=
    Reader.of_foldlM_error (fun line hmem _ _ hst hstep ↦ StagingInv.step hmem hst hstep)
      (stagingInv_start P manifest s) h
  rcases stageModule_cases P staged t₁ line with
    ⟨-, rc', t', hrun', hrc, hsame, hclean⟩ | ⟨-, m, -, -, hrun'⟩ | ⟨-, m, a, ct, -, -, hrun', -⟩
  · obtain ⟨rfl, rfl⟩ := Prod.mk.inj (Except.error.inj (hrun'.symm.trans hrun))
    refine ⟨?_, ⟨hsame.calls.trans hinv.untouched.calls, hsame.store.trans hinv.untouched.store⟩,
      hclean⟩
    rcases hrc with hrc | rfl
    · exact hrc
    · rw [error_of_mem_bundleLines hmem]
      decide
  · exact absurd (hrun'.symm.trans hrun) (by simp)
  · exact absurd (hrun'.symm.trans hrun) (by simp)

/-- How the first phase ends otherwise: with the appliers of all the bundle's modules staged. -/
theorem stage_ok {t : ZtpApplyState}
    (h : (bundleLines manifest).foldlM (stageModule P) ([], s.resetAll) = .ok (staged, t)) :
    StagingInv P manifest s (staged, t) ∧ ∀ a, a ∈ staged ↔ ∃ m, BundleHas manifest a m := by
  have hinv := Reader.invariant_of_foldlM
    (fun line hmem _ _ hst hstep ↦ StagingInv.step hmem hst hstep) (stagingInv_start P manifest s) h
  refine ⟨hinv, fun a ↦ ⟨fun ha ↦ ?_, fun ⟨m, hmem, ha⟩ ↦ ?_⟩⟩
  · cases a with
    | wifi => exact (hinv.wifi ha).imp fun m hm ↦ hm.1
    | c8y => exact (hinv.c8y ha).imp fun m hm ↦ hm.1
  · refine Reader.of_mem_foldlM (Q := fun st ↦ a ∈ st.1) hmem ?_ ?_ h
    · rintro ⟨staged, t⟩ st' hrun
      obtain ⟨ct, hstep⟩ := stageModule_of_some P staged t ha
      rw [hrun] at hstep
      split at hstep
      · exact nomatch hstep
      · split at hstep
        · exact nomatch hstep
        · exact Except.ok.inj hstep ▸ List.mem_cons_self
    · rintro line - ⟨staged, t⟩ st' hst hrun
      rcases stageModule_cases P staged t line with
        ⟨-, rc, t', hstep, -⟩ | ⟨-, m, -, -, hstep⟩ | ⟨-, m, a', ct, -, -, hstep, -⟩
      · exact absurd (hrun.symm.trans hstep) (by simp)
      · exact Except.ok.inj (hstep.symm.trans hrun) ▸ hst
      · exact Except.ok.inj (hstep.symm.trans hrun) ▸ List.mem_cons_of_mem a' hst

/-! ### The whole call -/

/-- How `ztp_apply_manifest` ends for a bundle with a defect, and for one without. -/
theorem ztpApplyManifest_cases (P : ZtpPlatform) (manifest deviceId : List UInt8)
    (s : ZtpApplyState) :
    (Defective P manifest deviceId ∧ ∃ rc t, ztpApplyManifest P manifest deviceId s = (rc, t) ∧
        rc ≠ 0 ∧ Untouched s t ∧ (t = s ∨ t.Clean)) ∨
      ¬ Defective P manifest deviceId ∧ ∃ staged t, StagingInv P manifest s (staged, t) ∧
        (∀ a, a ∈ staged ↔ ∃ m, BundleHas manifest a m) ∧
        ztpApplyManifest P manifest deviceId s =
          if staged = [] then (enodata, t) else commitStaged P staged appliers t := by
  rw [ztpApplyManifest, Defective]
  by_cases hversion : (ztpManifestHeader manifest).versionOk = true
  · rw [if_neg (not_not_intro hversion)]
    by_cases hdevice : (ztpManifestHeader manifest).deviceId = deviceId
    · rw [if_neg (not_not_intro hdevice), run_stageModule,
        ← stage_fails_iff P manifest ([], s.resetAll)]
      cases hrun : (bundleLines manifest).foldlM (stageModule P) ([], s.resetAll) with
      | error r =>
        obtain ⟨hrc, hsame, hclean⟩ := stage_error hrun
        exact Or.inl ⟨Or.inr (Or.inr ⟨r, rfl⟩), r.1, r.2, rfl, hrc, hsame, Or.inr hclean⟩
      | ok st =>
        obtain ⟨hinv, hstaged⟩ := stage_ok hrun
        refine Or.inr ⟨?_, st.1, st.2, hinv, hstaged, rfl⟩
        rintro (hno | hno | ⟨r, ⟨⟩⟩)
        · exact absurd (hno.symm.trans hversion) (by decide)
        · exact hno hdevice
    · rw [if_pos hdevice]
      exact Or.inl ⟨Or.inr (Or.inl hdevice), eproto, s, rfl, by decide, ⟨rfl, rfl⟩, Or.inl rfl⟩
  · rw [if_pos hversion]
    exact Or.inl ⟨Or.inl (Bool.eq_false_iff.mpr hversion), eproto, s, rfl, by decide, ⟨rfl, rfl⟩,
      Or.inl rfl⟩

/-- **A bundle with a defect leaves no trace**: the call fails, nothing is joined and nothing is
written, and the buffers that were clear are clear again. -/
theorem ztpApplyManifest_of_defective (s : ZtpApplyState) (h : Defective P manifest deviceId) :
    (ztpApplyManifest P manifest deviceId s).1 ≠ 0 ∧
      (ztpApplyManifest P manifest deviceId s).2.calls = s.calls ∧
      (ztpApplyManifest P manifest deviceId s).2.store = s.store ∧
      (s.Clean → (ztpApplyManifest P manifest deviceId s).2.Clean) := by
  rcases ztpApplyManifest_cases P manifest deviceId s with
    ⟨-, rc, t, heq, hrc, hsame, hclean⟩ | ⟨hno, -⟩
  · rw [heq]
    refine ⟨hrc, hsame.calls, hsame.store, fun hs ↦ ?_⟩
    rcases hclean with rfl | hclean
    · exact hs
    · exact hclean
  · exact absurd h hno

/-- The value of a base64 digit. -/
def base64Digit (b : UInt8) : Option ℕ :=
  ((ascii "ABCDEFGHIJKLMNOPQRSTUVWXYZabcdefghijklmnopqrstuvwxyz0123456789+/").idxOf? b)

/-- The decoding of base64 without padding. -/
def base64Quads : List UInt8 → Option (List UInt8)
  | [] => some []
  | a :: b :: c :: d :: rest => do
    let n := (((← base64Digit a) * 64 + (← base64Digit b)) * 64 + (← base64Digit c)) * 64 +
      (← base64Digit d)
    return UInt8.ofNat (n / 65536) :: UInt8.ofNat (n / 256 % 256) :: UInt8.ofNat (n % 256) ::
      (← base64Quads rest)
  | _ => none

/-- A platform without a session on which everything else works. -/
def workingPlatform : ZtpPlatform where
  base64Decode n src :=
    match base64Quads src with
    | none => .fail n einval
    | some bytes => if h : bytes.length ≤ n then ⟨0, bytes, h⟩ else .fail n (-12)
  sessionKey := 0
  deriveAeadKey _ _ := (eio, 0)
  psaAeadDecrypt _ _ _ n := .fail n psaErrorInvalidSignature
  attempt := ⟨⟨[], 0⟩, 0⟩
  settings := ⟨0, fun _ ↦ 0⟩

/-- The static buffers at boot. -/
def clearState : ZtpApplyState := ⟨.zero, .zero, .zero payloadMax, .zero ctMax, [], []⟩

/-- A tenant for the device `d`, and a sealed network that lacks its last two fields. -/
def cutManifest : List UInt8 :=
  ascii "protocol_version=1\ndevice_id=d\nmodule=c8y.v2 W2M4eV0KdXJsPWgK\n" ++
    ascii "module-sealed=wifi.v2 raw A B\n"

theorem ztpApplyManifest_cutManifest :
    (ztpApplyManifest workingPlatform cutManifest (ascii "d") clearState).1 ≠ 0 ∧
      (ztpApplyManifest workingPlatform cutManifest (ascii "d") clearState).2.calls = [] ∧
      (ztpApplyManifest workingPlatform cutManifest (ascii "d") clearState).2.store = [] ∧
      (clearState.Clean →
        (ztpApplyManifest workingPlatform cutManifest (ascii "d") clearState).2.Clean) :=
  ztpApplyManifest_of_defective clearState (by decide +kernel)

/-! ### The second phase -/

/-- The calls of one `ztp_apply_manifest`. -/
def ztpCalls (P : ZtpPlatform) (manifest deviceId : List UInt8) (s : ZtpApplyState) :
    List ZtpCall :=
  (ztpApplyManifest P manifest deviceId { s with calls := [] }).2.calls

/-- The bundle's credentials: what some `wifi.v2` module of it stages. -/
def BundleCreds (P : ZtpPlatform) (manifest : List UInt8) (c : AppWifiCreds) : Prop :=
  ∃ m, BundleHas manifest .wifi m ∧ (wifiStage (openModule P m).2).2.best.creds = c

/-- Every field that is written comes after a join with credentials of the bundle and after these
are stored. -/
def NetworkBeforeTenant (P : ZtpPlatform) (manifest : List UInt8) (calls : List ZtpCall) : Prop :=
  ∀ before key value after, calls = before ++ .settings (.saveOne key value 0) :: after →
    ∃ c, BundleCreds P manifest c ∧ [.join c 0, .setPersonal c 0].Sublist before

variable {calls : List ZtpCall}

theorem networkBeforeTenant_of_no_write
    (h : ∀ key value, ZtpCall.settings (.saveOne key value 0) ∉ calls) :
    NetworkBeforeTenant P manifest calls := by
  rintro before key value after rfl
  exact absurd (List.mem_append_right before List.mem_cons_self) (h key value)

theorem networkBeforeTenant_of_stored {c : AppWifiCreds} (hc : BundleCreds P manifest c)
    (rest : List ZtpCall) :
    NetworkBeforeTenant P manifest (.join c 0 :: .deleteAll :: .setPersonal c 0 :: rest) := by
  intro before key value after h
  rcases before with _ | ⟨c₁, _ | ⟨c₂, _ | ⟨c₃, before⟩⟩⟩
  · exact absurd (List.cons.inj h).1 (by simp)
  · exact absurd (List.cons.inj (List.cons.inj h).2).1 (by simp)
  · exact absurd (List.cons.inj (List.cons.inj (List.cons.inj h).2).2).1 (by simp)
  · simp only [List.cons_append, List.cons.injEq] at h
    obtain ⟨rfl, -, rfl, -⟩ := h
    exact ⟨c, hc, (((List.nil_sublist before).cons_cons _).cons _).cons_cons _⟩

/-- Settings calls alone never put a network before a tenant. -/
theorem not_networkBeforeTenant_settings {l : List SettingsCall} {key : String} {value : List UInt8}
    (h : .saveOne key value 0 ∈ l) : ¬ NetworkBeforeTenant P manifest (l.map .settings) := by
  intro hnet
  obtain ⟨before, after, rfl⟩ := List.append_of_mem h
  rw [List.map_append] at hnet
  obtain ⟨c, -, hsub⟩ := hnet _ key value _ rfl
  obtain ⟨call, -, hcall⟩ := List.mem_map.mp (hsub.subset List.mem_cons_self)
  exact nomatch hcall

theorem wifiCommit_result_eq_zero_iff (answer : AttemptAnswer) (store : CredStore)
    (c : AppWifiCreds) : (wifiCommit answer store c).result = 0 ↔
      answer.join = 0 ∧ answer.setRc = 0 := by
  rw [wifiCommit]
  by_cases hjoin : answer.join = 0
  · rw [if_neg (not_not_intro hjoin)]
    exact ⟨fun h ↦ ⟨hjoin, h⟩, fun h ↦ h.2⟩
  · rw [if_pos hjoin]
    exact iff_of_false (show ¬ enetunreach = 0 by decide) fun h ↦ hjoin h.1

/-- The calls of the second phase. -/
theorem calls_commitStaged (P : ZtpPlatform) (staged : List Applier) (s : ZtpApplyState) :
    (commitStaged P staged appliers s).2.calls = s.calls ++
      (if .wifi ∈ staged then wifiCommitCalls P.attempt s.wifi.best.creds else []) ++
      if (.wifi ∈ staged → P.attempt.join = 0 ∧ P.attempt.setRc = 0) ∧ .c8y ∈ staged then
        (provC8yStore P.settings s.c8y).2.map .settings
      else [] := by
  have hc8y (t : ZtpApplyState) (ht : t.c8y = s.c8y) : (commitStaged P staged [.c8y] t).2.calls =
      t.calls ++ if .c8y ∈ staged then (provC8yStore P.settings s.c8y).2.map .settings else [] := by
    rw [commitStaged]
    by_cases hmem : .c8y ∈ staged
    · rw [if_neg (not_not_intro hmem), if_pos hmem, Applier.commit, ht]
      dsimp only
      by_cases hrc : (provC8yStore P.settings s.c8y).1 = 0
      · rw [if_neg (not_not_intro hrc)]
        rfl
      · rw [if_pos hrc]
        rfl
    · rw [if_pos hmem, if_neg hmem, List.append_nil]
      rfl
  rw [appliers, commitStaged]
  by_cases hwifi : .wifi ∈ staged
  · rw [if_neg (not_not_intro hwifi), if_pos hwifi, Applier.commit]
    dsimp only
    by_cases hrc : (wifiCommit P.attempt s.store s.wifi.best.creds).result = 0
    · have hok := (wifiCommit_result_eq_zero_iff ..).mp hrc
      rw [if_neg (not_not_intro hrc)]
      refine Eq.trans (hc8y _ ?_) ?_
      · rfl
      · simp only [hok, hwifi, and_self, forall_const, true_and]
    · have hok : ¬ (.wifi ∈ staged → P.attempt.join = 0 ∧ P.attempt.setRc = 0) :=
        fun h ↦ hrc ((wifiCommit_result_eq_zero_iff ..).mpr (h hwifi))
      rw [if_pos hrc, if_neg fun h ↦ hok h.1, List.append_nil]
      rfl
  · rw [if_pos hwifi, if_neg hwifi, hc8y s rfl, List.append_nil]
    simp only [hwifi, false_implies, true_and]

/-- **When a tenant has its network**: unless the bundle is rejected, or names no tenant, or its
settings cannot be written, exactly when the bundle has a `wifi.v2` module. -/
theorem networkBeforeTenant_iff (P : ZtpPlatform) (manifest deviceId : List UInt8)
    (s : ZtpApplyState) :
    NetworkBeforeTenant P manifest (ztpCalls P manifest deviceId s) ↔
      Defective P manifest deviceId ∨ (∃ m, BundleHas manifest .wifi m) ∨
        (¬ ∃ m, BundleHas manifest .c8y m) ∨ P.settings.init ≠ 0 ∨
          P.settings.save C8yField.url.key ≠ 0 := by
  rw [ztpCalls]
  rcases ztpApplyManifest_cases P manifest deviceId { s with calls := [] } with
    ⟨hdefect, rc, t, heq, -, hsame, -⟩ | ⟨hgood, staged, t, hinv, hstaged, heq⟩
  · -- the first phase makes no call
    have hcalls : t.calls = [] := hsame.calls
    rw [heq, hcalls]
    exact iff_of_true (networkBeforeTenant_of_no_write fun _ _ ↦ List.not_mem_nil) (Or.inl hdefect)
  have hcalls : (ztpApplyManifest P manifest deviceId { s with calls := [] }).2.calls =
      (if .wifi ∈ staged then wifiCommitCalls P.attempt t.wifi.best.creds else []) ++
      if (.wifi ∈ staged → P.attempt.join = 0 ∧ P.attempt.setRc = 0) ∧ .c8y ∈ staged then
        (provC8yStore P.settings t.c8y).2.map .settings
      else [] := by
    have hstart : t.calls = [] := hinv.untouched.calls
    rw [heq]
    by_cases hnil : staged = []
    · rw [if_pos hnil, hstart, hnil]
      rfl
    · rw [if_neg hnil, calls_commitStaged, hstart, List.nil_append]
  rw [hcalls, ← hstaged .wifi, ← hstaged .c8y]
  -- Wi-Fi is committed first, and a failure of it ends the commit
  by_cases hwifi : .wifi ∈ staged
  · refine iff_of_true ?_ (Or.inr (Or.inl hwifi))
    obtain ⟨m, hm, hw⟩ := hinv.wifi hwifi
    have hc : BundleCreds P manifest t.wifi.best.creds := ⟨m, hm, by rw [← hw]⟩
    rw [if_pos hwifi, wifiCommitCalls]
    by_cases hok : P.attempt.join = 0 ∧ P.attempt.setRc = 0
    · rw [if_neg (not_not_intro hok.1), hok.1, hok.2]
      exact networkBeforeTenant_of_stored hc _
    · have hrest : ¬ ((.wifi ∈ staged → P.attempt.join = 0 ∧ P.attempt.setRc = 0) ∧
          .c8y ∈ staged) := fun h ↦ hok (h.1 hwifi)
      rw [if_neg hrest]
      refine networkBeforeTenant_of_no_write fun key value ↦ ?_
      by_cases hjoin : P.attempt.join = 0 <;> simp [hjoin]
  · rw [if_neg hwifi, List.nil_append]
    by_cases hc8y : .c8y ∈ staged
    · obtain ⟨m, -, heq, hcheck⟩ := hinv.c8y hc8y
      have hurl : t.c8y.url.cstr ≠ [] := heq ▸ url_of_c8yStage hcheck
      rw [if_pos ⟨fun h ↦ absurd h hwifi, hc8y⟩]
      by_cases hsaved : P.settings.init = 0 ∧ P.settings.save C8yField.url.key = 0
      · obtain ⟨key, value, hmem⟩ := (exists_saved_iff hurl).mpr hsaved
        refine iff_of_false (not_networkBeforeTenant_settings hmem) ?_
        rintro (hdefect | hwifi' | hc8y' | hinit | hsave)
        · exact hgood hdefect
        · exact hwifi hwifi'
        · exact hc8y' hc8y
        · exact hinit hsaved.1
        · exact hsave hsaved.2
      · refine iff_of_true (networkBeforeTenant_of_no_write fun key value hmem ↦ ?_)
          (Or.inr (Or.inr (Or.inr (Decidable.not_and_iff_or_not.mp hsaved))))
        obtain ⟨call, hcall, hkey⟩ := List.mem_map.mp hmem
        obtain rfl := ZtpCall.settings.inj hkey
        exact hsaved ((exists_saved_iff hurl).mp ⟨key, value, hcall⟩)
    · rw [if_neg fun h ↦ hc8y h.2]
      exact iff_of_true (networkBeforeTenant_of_no_write fun _ _ ↦ List.not_mem_nil)
        (Or.inr (Or.inr (Or.inl hc8y)))

/-- A tenant for the device `d` and no network. -/
def tenantManifest : List UInt8 :=
  ascii "protocol_version=1\ndevice_id=d\nmodule=c8y.v2 W2M4eV0KdXJsPWgK\n"

/-- The tenant's URL is the first and only thing that is kept. -/
theorem not_networkBeforeTenant_tenantManifest :
    ¬ ∀ (P : ZtpPlatform) (manifest deviceId : List UInt8) (s : ZtpApplyState),
      NetworkBeforeTenant P manifest (ztpCalls P manifest deviceId s) := by
  intro h
  have hcalls : ztpCalls workingPlatform tenantManifest (ascii "d") clearState =
      [.subsysInit 0, .saveOne "prov/c8y/url" (ascii "h") 0].map .settings := by decide +kernel
  exact not_networkBeforeTenant_settings (List.mem_cons_of_mem _ List.mem_cons_self)
    (hcalls ▸ h workingPlatform tenantManifest (ascii "d") clearState)

end ThinEdge.Provisioner
