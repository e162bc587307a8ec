import ThinEdge.Lib.Json
import ThinEdge.Provisioner.ZtpSession
import ThinEdge.Provisioner.ZtpTime

/-!
# Zero-touch provisioning: the canonical request

`ztp_request_canonical` of `apps/wifi-provisioner/src/ztp_envelope.c` prints the request that the
device signs, from one format string. `EnrollRequest` is what a request says and
`EnrollRequest.json` the JSON object for it; `request_canonical` says that the text which is printed
is that object's, with its members in order, and that it stands for this request alone. It rests on
`requestText_eq`, the comparison of the format string with the object, and on the round trips of
JSON and of times.
-/

namespace ThinEdge.Provisioner

open Bytes
open Json (IsPlain)

/-! ### The code -/

/-- `struct ztp_request_info`. A string is the list of its bytes in front of the NUL, and `none` the
null pointer. -/
@[ext] structure ZtpRequestInfo where
  deviceId : Option (List UInt8)
  hostname : Option (List UInt8)
  model : Option (List UInt8)
  mac : Option (List UInt8)
  agentVersion : Option (List UInt8)
  unixS : ℤ
  maxResponseBytes : Int32

/-- `json_plain`. -/
def jsonPlain : List UInt8 → Bool
  | [] => true
  | b :: s => if b < 0x20 ∨ 0x7e < b ∨ b = 0x22 ∨ b = 0x5c then false else jsonPlain s

/-- `mac_field`: an array of 48 bytes, into which the member goes unless the address is empty. -/
def macField (mac : List UInt8) : List UInt8 :=
  let field := List.replicate 48 0
  let field := if mac ≠ [] then
      (snprintf field (ascii ",\"mac_addresses\":[\"" ++ (mac ++ ascii "\"]"))).2
    else field
  field.takeWhile (· ≠ 0)

/-- The text of the format string. -/
def requestText (deviceId ephemeralB64 agentVersion hostname macField model : List UInt8)
    (maxResponseBytes : ℤ) (nonceB64 pubkeyB64 ts : List UInt8) : List UInt8 :=
  ascii "\x7b\"capabilities\":[\"wifi.v2\",\"c8y.v2\"]," ++
    (ascii "\"device_id\":\"" ++ (deviceId ++ (ascii "\"," ++
    (ascii "\"ephemeral_p256\":\"" ++ (ephemeralB64 ++ (ascii "\"," ++
    (ascii "\"facts\":\x7b" ++
    (ascii "\"agent_version\":\"" ++ (agentVersion ++ (ascii "\"," ++
    (ascii "\"hostname\":\"" ++ (hostname ++ (ascii "\"" ++
    (macField ++ (ascii "," ++
    (ascii "\"model\":\"" ++ (model ++ (ascii "\"," ++
    (ascii "\"os\":\"zephyr\"\x7d," ++
    (ascii "\"max_response_bytes\":" ++ (Decimal.signed maxResponseBytes ++ (ascii "," ++
    (ascii "\"nonce\":\"" ++ (nonceB64 ++ (ascii "\"," ++
    (ascii "\"protocol_version\":\"1\"," ++
    (ascii "\"public_key\":\"" ++ (pubkeyB64 ++ (ascii "\"," ++
    (ascii "\"response_format\":\"text\"," ++
    (ascii "\"timestamp\":\"" ++ (ts ++ ascii "\"\x7d"))))))))))))))))))))))))))))))))

/-- `ztp_request_canonical`: what it returns, and `out`. -/
def ztpRequestCanonical (info : ZtpRequestInfo) (nonceB64 pubkeyB64 ephemeralB64 out : List UInt8) :
    ℤ × List UInt8 :=
  match info.deviceId, info.hostname, info.model, info.mac, info.agentVersion with
  | some deviceId, some hostname, some model, some mac, some agentVersion =>
    if [deviceId, hostname, model, mac, agentVersion].all jsonPlain then
      let (n, out) := snprintf out (requestText deviceId ephemeralB64 agentVersion hostname
        (macField mac) model info.maxResponseBytes.toInt nonceB64 pubkeyB64 (rfc3339Str info.unixS))
      if n < 0 ∨ (out.length : ℤ) ≤ n then (enospc, out) else (n, out)
    else (einval, out)
  | _, _, _, _, _ => (einval, out)

/-! ### What a request says -/

/-- A literal as a JSON string. -/
def literal (s : String) (h : ∀ b ∈ ascii s, IsPlain b) : Json.Text := ⟨ascii s, h⟩

/-- The content of a request. -/
structure EnrollRequest where
  deviceId : Json.Text
  ephemeral : Json.Text
  agentVersion : Json.Text
  hostname : Json.Text
  mac : Option Json.Text
  model : Json.Text
  maxResponseBytes : ℤ
  nonce : Json.Text
  publicKey : Json.Text
  timestamp : Json.Text

namespace EnrollRequest

/-- The facts about the device. -/
def facts (r : EnrollRequest) : Json.Value := .obj <|
  [(literal "agent_version" (by decide +kernel), .str r.agentVersion),
    (literal "hostname" (by decide +kernel), .str r.hostname)] ++
  (r.mac.elim [] fun mac ↦ [(literal "mac_addresses" (by decide +kernel), .arr [.str mac])]) ++
  [(literal "model" (by decide +kernel), .str r.model),
    (literal "os" (by decide +kernel), .str (literal "zephyr" (by decide +kernel)))]

/-- The request as a JSON object. -/
def json (r : EnrollRequest) : Json.Value := .obj
  [(literal "capabilities" (by decide +kernel), .arr
      [.str (literal "wifi.v2" (by decide +kernel)), .str (literal "c8y.v2" (by decide +kernel))]),
    (literal "device_id" (by decide +kernel), .str r.deviceId),
    (literal "ephemeral_p256" (by decide +kernel), .str r.ephemeral),
    (literal "facts" (by decide +kernel), r.facts),
    (literal "max_response_bytes" (by decide +kernel), .int r.maxResponseBytes),
    (literal "nonce" (by decide +kernel), .str r.nonce),
    (literal "protocol_version" (by decide +kernel), .str (literal "1" (by decide +kernel))),
    (literal "public_key" (by decide +kernel), .str r.publicKey),
    (literal "response_format" (by decide +kernel), .str (literal "text" (by decide +kernel))),
    (literal "timestamp" (by decide +kernel), .str r.timestamp)]

/-- The member that the format string splices in. -/
def macText (r : EnrollRequest) : List UInt8 :=
  r.mac.elim [] fun mac ↦ ascii ",\"mac_addresses\":[\"" ++ (mac.bytes ++ ascii "\"]")

/-- **The format string prints the object.** -/
theorem requestText_eq (r : EnrollRequest) :
    requestText r.deviceId.bytes r.ephemeral.bytes r.agentVersion.bytes r.hostname.bytes r.macText
      r.model.bytes r.maxResponseBytes r.nonce.bytes r.publicKey.bytes r.timestamp.bytes =
      r.json.render := by
  -- the pieces of the format string, each as the renderer writes it
  have hcapabilities : ascii "\x7b\"capabilities\":[\"wifi.v2\",\"c8y.v2\"]," =
      0x7b :: 0x22 :: (ascii "capabilities" ++ 0x22 :: 0x3a :: 0x5b :: 0x22 :: (ascii "wifi.v2" ++
        0x22 :: 0x2c :: 0x22 :: (ascii "c8y.v2" ++ [0x22, 0x5d, 0x2c]))) := by decide +kernel
  have hdevice : ascii "\"device_id\":\"" =
      0x22 :: (ascii "device_id" ++ [0x22, 0x3a, 0x22]) := by decide +kernel
  have hephemeral : ascii "\"ephemeral_p256\":\"" =
      0x22 :: (ascii "ephemeral_p256" ++ [0x22, 0x3a, 0x22]) := by decide +kernel
  have hfacts : ascii "\"facts\":\x7b" =
      0x22 :: (ascii "facts" ++ [0x22, 0x3a, 0x7b]) := by decide +kernel
  have hagent : ascii "\"agent_version\":\"" =
      0x22 :: (ascii "agent_version" ++ [0x22, 0x3a, 0x22]) := by decide +kernel
  have hhostname : ascii "\"hostname\":\"" =
      0x22 :: (ascii "hostname" ++ [0x22, 0x3a, 0x22]) := by decide +kernel
  have hmac : ascii ",\"mac_addresses\":[\"" =
      0x2c :: 0x22 :: (ascii "mac_addresses" ++ [0x22, 0x3a, 0x5b, 0x22]) := by decide +kernel
  have hmodel : ascii "\"model\":\"" =
      0x22 :: (ascii "model" ++ [0x22, 0x3a, 0x22]) := by decide +kernel
  have hos : ascii "\"os\":\"zephyr\"\x7d," = 0x22 :: (ascii "os" ++
      0x22 :: 0x3a :: 0x22 :: (ascii "zephyr" ++ [0x22, 0x7d, 0x2c])) := by decide +kernel
  have hmax : ascii "\"max_response_bytes\":" =
      0x22 :: (ascii "max_response_bytes" ++ [0x22, 0x3a]) := by decide +kernel
  have hnonce : ascii "\"nonce\":\"" =
      0x22 :: (ascii "nonce" ++ [0x22, 0x3a, 0x22]) := by decide +kernel
  have hversion : ascii "\"protocol_version\":\"1\"," = 0x22 :: (ascii "protocol_version" ++
      0x22 :: 0x3a :: 0x22 :: (ascii "1" ++ [0x22, 0x2c])) := by decide +kernel
  have hkey : ascii "\"public_key\":\"" =
      0x22 :: (ascii "public_key" ++ [0x22, 0x3a, 0x22]) := by decide +kernel
  have hformat : ascii "\"response_format\":\"text\"," = 0x22 :: (ascii "response_format" ++
      0x22 :: 0x3a :: 0x22 :: (ascii "text" ++ [0x22, 0x2c])) := by decide +kernel
  have htimestamp : ascii "\"timestamp\":\"" =
      0x22 :: (ascii "timestamp" ++ [0x22, 0x3a, 0x22]) := by decide +kernel
  have hnext : ascii "\"," = [0x22, 0x2c] ∧ ascii "\"" = [0x22] ∧ ascii "," = [0x2c] ∧
      ascii "\"]" = [0x22, 0x5d] ∧ ascii "\"\x7d" = [0x22, 0x7d] := by decide +kernel
  obtain ⟨hnext, hquote, hcomma, hbracket, hend⟩ := hnext
  rw [requestText, macText, json, facts]
  cases r.mac <;>
    simp only [hcapabilities, hdevice, hephemeral, hfacts, hagent, hhostname, hmac, hmodel, hos,
      hmax, hnonce, hversion, hkey, hformat, htimestamp, hnext, hquote, hcomma, hbracket, hend,
      Json.Value.render, Json.renderMembers, Json.renderElems, Json.keyed, Json.quoted, literal,
      Option.elim_none, Option.elim_some, List.append_assoc, List.cons_append, List.nil_append]

/-- Its members are in order. -/
theorem sorted_json (r : EnrollRequest) : r.json.Sorted := by
  have hstr : ∀ t, (Json.Value.str t).Sorted := .str
  have hmac : ∀ m ∈ r.mac.elim [] fun mac ↦ [(literal "mac_addresses" (by decide +kernel),
      Json.Value.arr [.str mac])], m.2.Sorted := by
    cases r.mac with
    | none => exact fun m hm ↦ absurd hm List.not_mem_nil
    | some mac => exact List.forall_mem_singleton.2 (.arr (List.forall_mem_singleton.2 (.str mac)))
  have hfacts : r.facts.Sorted := by
    refine .obj ?_ ?_
    · cases r.mac with
      | none =>
        show [ascii "agent_version", ascii "hostname", ascii "model", ascii "os"].Pairwise (· < ·)
        decide +kernel
      | some mac =>
        show [ascii "agent_version", ascii "hostname", ascii "mac_addresses", ascii "model",
          ascii "os"].Pairwise (· < ·)
        decide +kernel
    · simp only [List.forall_mem_append, List.forall_mem_cons]
      exact ⟨⟨⟨hstr _, hstr _, fun m hm ↦ absurd hm List.not_mem_nil⟩, hmac⟩, hstr _, hstr _,
        fun m hm ↦ absurd hm List.not_mem_nil⟩
  refine .obj ?_ ?_
  · show [ascii "capabilities", ascii "device_id", ascii "ephemeral_p256", ascii "facts",
      ascii "max_response_bytes", ascii "nonce", ascii "protocol_version", ascii "public_key",
      ascii "response_format", ascii "timestamp"].Pairwise (· < ·)
    decide +kernel
  · simp only [List.forall_mem_cons]
    refine ⟨.arr ?_, hstr _, hstr _, hfacts, .int _, hstr _, hstr _, hstr _, hstr _, hstr _,
      fun m hm ↦ absurd hm List.not_mem_nil⟩
    exact List.forall_mem_cons.2 ⟨hstr _, List.forall_mem_singleton.2 (hstr _)⟩

end EnrollRequest

/-! ### The inputs -/

/-- A character of base64. -/
def IsBase64 (b : UInt8) : Prop :=
  65 ≤ b.toNat ∧ b.toNat ≤ 90 ∨ 97 ≤ b.toNat ∧ b.toNat ≤ 122 ∨ 48 ≤ b.toNat ∧ b.toNat ≤ 57 ∨
    b = '+'.toUInt8 ∨ b = '/'.toUInt8 ∨ b = '='.toUInt8

instance (b : UInt8) : Decidable (IsBase64 b) := inferInstanceAs (Decidable (_ ∨ _))

/-- The arguments of `ztp_request_canonical`: a MAC address of at most 17 characters, a time of the
years 0 to 9999, and a nonce and keys in base64. -/
@[ext] structure RequestInput where
  info : ZtpRequestInfo
  nonceB64 : List UInt8
  pubkeyB64 : List UInt8
  ephemeralB64 : List UInt8
  length_mac_le : ∀ mac ∈ info.mac, mac.length ≤ 17
  unixS_mem : firstCivil.unixS ≤ info.unixS ∧ info.unixS ≤ lastCivil.unixS
  base64_nonce : ∀ b ∈ nonceB64, IsBase64 b
  base64_pubkey : ∀ b ∈ pubkeyB64, IsBase64 b
  base64_ephemeral : ∀ b ∈ ephemeralB64, IsBase64 b

namespace RequestInput

/-- The strings that are checked. -/
def strs (x : RequestInput) : List (Option (List UInt8)) :=
  [x.info.deviceId, x.info.hostname, x.info.model, x.info.mac, x.info.agentVersion]

/-- Every string is there, printable, and without quotes and backslashes. -/
def Plain (x : RequestInput) : Prop := ∀ s ∈ x.strs, ∃ bs, s = some bs ∧ ∀ b ∈ bs, IsPlain b

/-- The call. -/
def canonical (x : RequestInput) (out : List UInt8) : ℤ × List UInt8 :=
  ztpRequestCanonical x.info x.nonceB64 x.pubkeyB64 x.ephemeralB64 out

/-- The bytes that the call signs, when it returns a length. -/
def signedBytes (x : RequestInput) (out : List UInt8) : List UInt8 :=
  (x.canonical out).2.take (x.canonical out).1.toNat

end RequestInput

/-- The request says what the arguments are. -/
structure EnrollRequest.Describes (r : EnrollRequest) (x : RequestInput) : Prop where
  deviceId : x.info.deviceId = some r.deviceId.bytes
  hostname : x.info.hostname = some r.hostname.bytes
  model : x.info.model = some r.model.bytes
  agentVersion : x.info.agentVersion = some r.agentVersion.bytes
  /-- The addresses are left out when there is none. -/
  mac : x.info.mac = some (r.mac.elim [] Json.Text.bytes)
  mac_ne_nil : ∀ mac ∈ r.mac, mac.bytes ≠ []
  maxResponseBytes : r.maxResponseBytes = x.info.maxResponseBytes.toInt
  timestamp : r.timestamp.bytes = rfc3339Str x.info.unixS
  instant : ztpParseRfc3339 r.timestamp.bytes = some x.info.unixS
  nonce : r.nonce.bytes = x.nonceB64
  publicKey : r.publicKey.bytes = x.pubkeyB64
  ephemeral : r.ephemeral.bytes = x.ephemeralB64

variable {x y : RequestInput} {r : EnrollRequest} {b : UInt8} {s : List UInt8}

/-! ### Strings that need no escape -/

theorem jsonPlain_iff : jsonPlain s = true ↔ ∀ b ∈ s, IsPlain b := by
  induction s with
  | nil => simp [jsonPlain]
  | cons b s ih =>
    have hb : (b < 0x20 ∨ 0x7e < b ∨ b = 0x22 ∨ b = 0x5c) ↔ ¬ IsPlain b := by
      have hlo : b < 0x20 ↔ b.toNat < 32 := UInt8.lt_iff_toNat_lt
      have hhi : 0x7e < b ↔ 126 < b.toNat := UInt8.lt_iff_toNat_lt
      simp only [hlo, hhi, IsPlain, not_and_or, Nat.not_le, not_ne_iff]
    rw [jsonPlain, List.forall_mem_cons, ← ih, if_congr hb rfl rfl]
    split
    · next h => exact ⟨fun hf ↦ absurd hf (by decide), fun h' ↦ absurd h'.1 h⟩
    · next h => exact ⟨fun h' ↦ ⟨not_not.1 h, h'⟩, fun h' ↦ h'.2⟩

theorem IsBase64.plain (h : IsBase64 b) : IsPlain b := by
  have hne : b ≠ 0x22 ∧ b ≠ 0x5c := by
    constructor <;> (rintro rfl; revert h; unfold IsBase64; decide)
  refine ⟨?_, ?_, hne⟩ <;> rcases h with h | h | h | rfl | rfl | rfl <;> first | omega | decide

theorem ne_zero_of_plain (h : IsPlain b) : b ≠ 0 := by
  rintro rfl
  exact absurd h (by decide)

theorem plain_rfc3339Str {t : ℤ} (h : firstCivil.unixS ≤ t ∧ t ≤ lastCivil.unixS) :
    ∀ b ∈ rfc3339Str t, IsPlain b := by
  obtain ⟨c, rfl⟩ := UnixTime.exists_civil ⟨t, h⟩
  rw [rfc3339Str_unixS]
  refine c.forall_mem_text (fun b hb ↦ ?_) (by decide) (by decide) (by decide) (by decide)
  have hne : b ≠ 0x22 ∧ b ≠ 0x5c := by
    constructor <;> (rintro rfl; revert hb; decide)
  obtain ⟨hlo, hhi⟩ := hb
  exact ⟨by omega, by omega, hne⟩

theorem ztpParseRfc3339_rfc3339Str {t : ℤ} (h : firstCivil.unixS ≤ t ∧ t ≤ lastCivil.unixS) :
    ztpParseRfc3339 (rfc3339Str t) = some t := by
  obtain ⟨c, rfl⟩ := UnixTime.exists_civil ⟨t, h⟩
  rw [rfc3339Str_unixS]
  exact ztpParseRfc3339_text c.rfc3339

/-- The member of a MAC address fits its array. -/
theorem macField_eq (hlen : s.length ≤ 17) (hplain : ∀ b ∈ s, IsPlain b) (hne : s ≠ []) :
    macField s = ascii ",\"mac_addresses\":[\"" ++ (s ++ ascii "\"]") := by
  have hpieces : (ascii ",\"mac_addresses\":[\"").length = 19 ∧ (ascii "\"]").length = 2 ∧
      (∀ b ∈ ascii ",\"mac_addresses\":[\"", b ≠ 0) ∧ ∀ b ∈ ascii "\"]", b ≠ 0 := by decide +kernel
  obtain ⟨hopen, hclose, hopen', hclose'⟩ := hpieces
  have hlt : (ascii ",\"mac_addresses\":[\"" ++ (s ++ ascii "\"]")).length <
      (List.replicate 48 (0 : UInt8)).length := by
    rw [List.length_append, List.length_append, List.length_replicate, hopen, hclose]
    omega
  have htext : ∀ b ∈ ascii ",\"mac_addresses\":[\"" ++ (s ++ ascii "\"]"), decide (b ≠ 0) = true :=
    fun b hb ↦ decide_eq_true <| List.forall_mem_append.2 ⟨hopen', List.forall_mem_append.2
      ⟨fun b hb ↦ ne_zero_of_plain (hplain b hb), hclose'⟩⟩ b hb
  rw [macField, if_pos hne, snprintf_of_lt hlt, takeWhile_append_nul,
    List.takeWhile_eq_self_iff.2 htext]

/-! ### What is signed -/

theorem EnrollRequest.Describes.macField_eq (h : r.Describes x) :
    macField (r.mac.elim [] Json.Text.bytes) = r.macText := by
  rw [EnrollRequest.macText]
  have hlen := x.length_mac_le _ (Option.mem_def.2 h.mac)
  have hne := h.mac_ne_nil
  cases hmac : r.mac with
  | none => rfl
  | some mac =>
    rw [hmac] at hlen hne
    exact Provisioner.macField_eq hlen mac.plain (hne mac rfl)

/-- Strings that need no escape describe a request. -/
theorem RequestInput.Plain.exists_describes (h : x.Plain) : ∃ r : EnrollRequest, r.Describes x := by
  simp only [RequestInput.Plain, RequestInput.strs, List.forall_mem_cons] at h
  obtain ⟨⟨device, hdevice, hdevice'⟩, ⟨host, hhost, hhost'⟩, ⟨model, hmodel, hmodel'⟩,
    ⟨mac, hmac, hmac'⟩, ⟨agent, hagent, hagent'⟩, -⟩ := h
  refine ⟨⟨⟨device, hdevice'⟩, ⟨x.ephemeralB64, fun b hb ↦ (x.base64_ephemeral b hb).plain⟩,
    ⟨agent, hagent'⟩, ⟨host, hhost'⟩, if mac = [] then none else some ⟨mac, hmac'⟩,
    ⟨model, hmodel'⟩, x.info.maxResponseBytes.toInt,
    ⟨x.nonceB64, fun b hb ↦ (x.base64_nonce b hb).plain⟩,
    ⟨x.pubkeyB64, fun b hb ↦ (x.base64_pubkey b hb).plain⟩,
    ⟨rfc3339Str x.info.unixS, plain_rfc3339Str x.unixS_mem⟩⟩, hdevice, hhost, hmodel, hagent, ?_,
    ?_, rfl, rfl, ztpParseRfc3339_rfc3339Str x.unixS_mem, rfl, rfl, rfl⟩
  · rw [hmac]
    dsimp only
    split
    · next hnil => rw [hnil, Option.elim_none]
    · rfl
  · intro t ht
    dsimp only at ht
    split at ht
    · exact absurd ht (by simp)
    · next hne => exact Option.some.inj ht ▸ hne

theorem EnrollRequest.Describes.plain (h : r.Describes x) : x.Plain := by
  have hmac : ∀ b ∈ r.mac.elim [] Json.Text.bytes, IsPlain b := by
    cases r.mac with
    | none => exact fun b hb ↦ absurd hb List.not_mem_nil
    | some mac => exact mac.plain
  simp only [RequestInput.Plain, RequestInput.strs, List.forall_mem_cons]
  exact ⟨⟨_, h.deviceId, r.deviceId.plain⟩, ⟨_, h.hostname, r.hostname.plain⟩,
    ⟨_, h.model, r.model.plain⟩, ⟨_, h.mac, hmac⟩, ⟨_, h.agentVersion, r.agentVersion.plain⟩,
    fun s hs ↦ absurd hs List.not_mem_nil⟩

/-- The request that the arguments describe is printed. -/
theorem EnrollRequest.Describes.canonical_eq (h : r.Describes x) (out : List UInt8) :
    x.canonical out =
      if (snprintf out r.json.render).1 < 0 ∨ (out.length : ℤ) ≤ (snprintf out r.json.render).1 then
        (enospc, (snprintf out r.json.render).2)
      else snprintf out r.json.render := by
  have hplain := h.plain
  simp only [RequestInput.Plain, RequestInput.strs, List.forall_mem_cons, h.deviceId, h.hostname,
    h.model, h.mac, h.agentVersion, Option.some_inj, exists_eq_left'] at hplain
  have hall : [r.deviceId.bytes, r.hostname.bytes, r.model.bytes, r.mac.elim [] Json.Text.bytes,
      r.agentVersion.bytes].all jsonPlain = true := by
    simp only [List.all_cons, List.all_nil, Bool.and_eq_true, Bool.and_true, jsonPlain_iff]
    exact ⟨hplain.1, hplain.2.1, hplain.2.2.1, hplain.2.2.2.1, hplain.2.2.2.2.1⟩
  rw [RequestInput.canonical, ztpRequestCanonical, h.deviceId, h.hostname, h.model, h.mac,
    h.agentVersion]
  dsimp only
  rw [if_pos hall, h.macField_eq, ← h.maxResponseBytes, ← h.nonce, ← h.publicKey, ← h.ephemeral,
    ← h.timestamp, r.requestText_eq, length_snprintf]

/-- Another string is refused. -/
theorem canonical_of_not_plain (h : ¬ x.Plain) (out : List UInt8) :
    x.canonical out = (einval, out) := by
  rw [RequestInput.canonical, ztpRequestCanonical]
  split
  · next device host model mac agent hdevice hhost hmodel hmac hagent =>
    refine if_neg fun hall ↦ h ?_
    simp only [List.all_cons, List.all_nil, Bool.and_eq_true, Bool.and_true, jsonPlain_iff] at hall
    simp only [RequestInput.Plain, RequestInput.strs, List.forall_mem_cons]
    exact ⟨⟨_, hdevice, hall.1⟩, ⟨_, hhost, hall.2.1⟩, ⟨_, hmodel, hall.2.2.1⟩,
      ⟨_, hmac, hall.2.2.2.1⟩, ⟨_, hagent, hall.2.2.2.2⟩, fun s hs ↦ absurd hs List.not_mem_nil⟩
  · rfl

/-- The text of a request fits a buffer, with a NUL, and its length an `int`. -/
def EnrollRequest.Fits (r : EnrollRequest) (out : List UInt8) : Prop :=
  r.json.render.length < out.length ∧ r.json.render.length ≤ intMax

theorem EnrollRequest.Describes.canonical_of_fits (h : r.Describes x) {out : List UInt8}
    (hfits : r.Fits out) : (x.canonical out).1 = r.json.render.length ∧
      x.signedBytes out = r.json.render := by
  have hcount : (snprintf out r.json.render).1 = r.json.render.length := if_pos hfits.2
  have hlt : (r.json.render.length : ℤ) < out.length := Int.ofNat_lt.2 hfits.1
  have hcanonical : x.canonical out = snprintf out r.json.render := by
    rw [h.canonical_eq, if_neg (by omega)]
  rw [RequestInput.signedBytes, hcanonical, hcount]
  refine ⟨rfl, ?_⟩
  rw [snprintf_of_lt hfits.1, Int.toNat_natCast, List.take_left]

theorem EnrollRequest.Describes.canonical_of_not_fits (h : r.Describes x) {out : List UInt8}
    (hfits : ¬ r.Fits out) : (x.canonical out).1 < 0 := by
  have hfail : (snprintf out r.json.render).1 < 0 ∨
      (out.length : ℤ) ≤ (snprintf out r.json.render).1 := by
    rcases Nat.lt_or_ge intMax r.json.render.length with hlong | hint
    · have hcount : (snprintf out r.json.render).1 = -1 := if_neg (Nat.not_le.2 hlong)
      omega
    · have hcount : (snprintf out r.json.render).1 = r.json.render.length := if_pos hint
      have hle : out.length ≤ r.json.render.length := Nat.not_lt.1 fun hlt ↦ hfits ⟨hlt, hint⟩
      omega
  rw [h.canonical_eq, if_pos hfail]
  show enospc < 0
  decide

/-- **What the call returns**: a length exactly for strings without escapes and a text that fits. -/
theorem canonical_nonneg_iff (x : RequestInput) (out : List UInt8) :
    0 ≤ (x.canonical out).1 ↔ ∃ r : EnrollRequest, r.Describes x ∧ r.Fits out := by
  constructor
  · intro hnonneg
    rcases Classical.em x.Plain with hplain | hplain
    · obtain ⟨r, hr⟩ := hplain.exists_describes
      refine ⟨r, hr, by_contra fun hfits ↦ ?_⟩
      have hneg := hr.canonical_of_not_fits hfits
      omega
    · rw [canonical_of_not_plain hplain] at hnonneg
      exact absurd (show 0 ≤ einval from hnonneg) (by decide)
  · rintro ⟨r, hr, hfits⟩
    rw [(hr.canonical_of_fits hfits).1]
    exact Int.natCast_nonneg _

/-! ### What the signed bytes stand for -/

theorem EnrollRequest.json_injective : Function.Injective EnrollRequest.json := by
  rintro ⟨device, eph, agent, host, mac, model, max, nonce, key, time⟩
    ⟨device', eph', agent', host', mac', model', max', nonce', key', time'⟩ h
  cases mac <;> cases mac' <;>
    simp_all [EnrollRequest.json, EnrollRequest.facts]

/-- The request decides the arguments. -/
theorem EnrollRequest.Describes.unique (hx : r.Describes x) (hy : r.Describes y) : x = y := by
  refine RequestInput.ext (ZtpRequestInfo.ext ?_ ?_ ?_ ?_ ?_ ?_ ?_) ?_ ?_ ?_
  · rw [hx.deviceId, hy.deviceId]
  · rw [hx.hostname, hy.hostname]
  · rw [hx.model, hy.model]
  · rw [hx.mac, hy.mac]
  · rw [hx.agentVersion, hy.agentVersion]
  · exact Option.some.inj (hx.instant.symm.trans hy.instant)
  · exact Int32.toInt_inj.1 (hx.maxResponseBytes.symm.trans hy.maxResponseBytes)
  · exact hx.nonce.symm.trans hy.nonce
  · exact hx.publicKey.symm.trans hy.publicKey
  · exact hx.ephemeral.symm.trans hy.ephemeral

/-- The bytes are the canonical text of the request: a JSON object, with the members in order and no
whitespace between them, that is read back as the request. -/
structure CanonicalText (r : EnrollRequest) (text : List UInt8) : Prop where
  render_eq : text = r.json.render
  parse_eq : Json.parse text = some r.json
  sorted : r.json.Sorted
  compact : Json.Compact text

/-- **The request is canonical and unambiguous.** The call returns a length exactly if every string
needs no escape and the text fits. Then the bytes are the canonical text of the request that the
arguments describe, and no other arguments give them. -/
theorem request_canonical (x : RequestInput) (out : List UInt8) :
    (0 ≤ (x.canonical out).1 ↔ x.Plain ∧ ∃ r : EnrollRequest, r.Describes x ∧ r.Fits out) ∧
    (0 ≤ (x.canonical out).1 → ∃ r : EnrollRequest, r.Describes x ∧
      (x.canonical out).1 = (x.signedBytes out).length ∧
      (x.signedBytes out).length < out.length ∧ CanonicalText r (x.signedBytes out)) ∧
    ∀ (y : RequestInput) (out' : List UInt8), 0 ≤ (x.canonical out).1 → 0 ≤ (y.canonical out').1 →
      x.signedBytes out = y.signedBytes out' → x = y := by
  refine ⟨?_, ?_, ?_⟩
  · rw [canonical_nonneg_iff]
    exact ⟨fun ⟨r, hr, hfits⟩ ↦ ⟨hr.plain, r, hr, hfits⟩, fun h ↦ h.2⟩
  · intro hnonneg
    obtain ⟨r, hr, hfits⟩ := (canonical_nonneg_iff x out).1 hnonneg
    obtain ⟨hcount, hbytes⟩ := hr.canonical_of_fits hfits
    rw [hcount, hbytes]
    exact ⟨r, hr, rfl, hfits.1, rfl, Json.parse_render _, r.sorted_json, Json.Value.compact _⟩
  · intro y out' hx hy hsame
    obtain ⟨r, hr, hfits⟩ := (canonical_nonneg_iff x out).1 hx
    obtain ⟨r', hr', hfits'⟩ := (canonical_nonneg_iff y out').1 hy
    rw [(hr.canonical_of_fits hfits).2, (hr'.canonical_of_fits hfits').2] at hsame
    obtain rfl := EnrollRequest.json_injective (Json.render_injective hsame)
    exact hr.unique hr'

/-- The request of a device in November 2023. -/
def sampleRequest : RequestInput where
  info := ⟨some (ascii "tedge-4f12"), some (ascii "te-4f12"), some (ascii "ESP32-C6"),
    some (ascii "40:4c:ca:00:4f:12"), some (ascii "1.2.0"), 1700000000, 4096⟩
  nonceB64 := ascii "bm9uY2U="
  pubkeyB64 := ascii "cHVi+/A="
  ephemeralB64 := ascii "ZXBo"
  length_mac_le := by decide +kernel
  unixS_mem := by decide +kernel
  base64_nonce := by decide +kernel
  base64_pubkey := by decide +kernel
  base64_ephemeral := by decide +kernel

theorem request_canonical_sample :
    0 ≤ (sampleRequest.canonical (List.replicate 768 0)).1 ∧
      ∃ r : EnrollRequest, r.Describes sampleRequest ∧
        CanonicalText r (sampleRequest.signedBytes (List.replicate 768 0)) := by
  have haccepted : 0 ≤ (sampleRequest.canonical (List.replicate 768 0)).1 := by decide +kernel
  obtain ⟨r, hr, -, -, htext⟩ :=
    (request_canonical sampleRequest (List.replicate 768 0)).2.1 haccepted
  exact ⟨haccepted, r, hr, htext⟩

example : (ztpRequestCanonical ⟨some (ascii "d"), some (ascii "h"), some (ascii "m"), some [],
    some (ascii "evil\"id"), 0, 4096⟩ [] [] [] (List.replicate 768 0)).1 = einval := by
  decide +kernel

end ThinEdge.Provisioner
