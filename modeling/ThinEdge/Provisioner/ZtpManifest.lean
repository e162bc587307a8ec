import Mathlib.Data.Int.Notation
import ThinEdge.Lib.Bytes
import ThinEdge.Lib.Reader

/-!
# Zero-touch provisioning: the text manifest

The parsers of `apps/wifi-provisioner/src/ztp_manifest.c`: the manifest of a bundle, and the
server's response that carries it. A slice is the list of its bytes, and the cursor `*cur` the text
that is still to be read. `ztp_kv_next` and `ztp_manifest_next_module` are readers over the lines of
the text, one on top of the other.

`bundleLines` says what a manifest contains without a cursor: the module lines among its lines, each
either a module or malformed. `toList_moduleReader` connects the two.
-/

namespace ThinEdge.Provisioner

open Bytes

/-- `-EPROTO`. -/
def eproto : ℤ := -71

/-! ### Lines -/

/-- `struct ztp_kv`. -/
structure ZtpKv where
  key : List UInt8
  val : List UInt8
  deriving DecidableEq, Repr

/-- A line without the carriage return at its end. -/
def stripCr (line : List UInt8) : List UInt8 :=
  if line.getLast? = some '\r'.toUInt8 then line.dropLast else line

/-- A line cut at its first `=`, when there is one. -/
def kvOfLine (line : List UInt8) : Option ZtpKv :=
  if '='.toUInt8 ∈ line then
    some ⟨line.takeWhile (· ≠ '='.toUInt8), (line.dropWhile (· ≠ '='.toUInt8)).drop 1⟩
  else none

/-- The lines of a text. -/
def lineReader : Reader (List UInt8) (List UInt8) := Reader.lines '\n'.toUInt8

/-- The `key=value` lines of a text. -/
def kvReader : Reader (List UInt8) ZtpKv := lineReader.filterMap fun line ↦ kvOfLine (stripCr line)

/-- `ztp_kv_next`. -/
def ztpKvNext (cur : List UInt8) : Option (ZtpKv × List UInt8) := kvReader.next cur

/-- `next_field`: the field, and what is left of the slice. -/
def nextField (s : List UInt8) : Option (List UInt8 × List UInt8) :=
  let s := s.dropWhile (· = ' '.toUInt8)
  if s = [] then none
  else some (s.takeWhile (· ≠ ' '.toUInt8), s.dropWhile (· ≠ ' '.toUInt8))

/-! ### The header -/

/-- `struct ztp_manifest_hdr`. -/
structure ZtpManifestHdr where
  deviceId : List UInt8 := []
  versionOk : Bool := false
  deriving DecidableEq, Repr

/-- The header after one more record. -/
def ZtpManifestHdr.record (hdr : ZtpManifestHdr) (kv : ZtpKv) : ZtpManifestHdr :=
  if kv.key = ascii "device_id" then { hdr with deviceId := kv.val }
  else if kv.key = ascii "protocol_version" then { hdr with versionOk := kv.val = ascii "1" }
  else hdr

/-- `ztp_manifest_header`. -/
def ztpManifestHeader (buf : List UInt8) : ZtpManifestHdr :=
  (kvReader.toList buf).foldl ZtpManifestHdr.record {}

/-! ### Modules -/

/-- `struct ztp_module`. -/
structure ZtpModule where
  type : List UInt8
  isSealed : Bool
  /-- Clear: the payload, in base64. -/
  payload : List UInt8 := []
  /-- Sealed: `raw` or `json`. -/
  format : List UInt8 := []
  eph : List UInt8 := []
  nonce : List UInt8 := []
  ciphertext : List UInt8 := []
  deriving DecidableEq, Repr

/-- `module=<type> <base64 payload>`. -/
def clearModule (val : List UInt8) : Option ZtpModule := do
  let (type, rest) ← nextField val
  let (payload, _) ← nextField rest
  return { type, isSealed := false, payload }

/-- `module-sealed=<type> <format> <eph> <nonce> <ciphertext>`. -/
def sealedModule (val : List UInt8) : Option ZtpModule := do
  let (type, rest) ← nextField val
  let (format, rest) ← nextField rest
  let (eph, rest) ← nextField rest
  let (nonce, rest) ← nextField rest
  let (ciphertext, _) ← nextField rest
  return { type, isSealed := true, format, eph, nonce, ciphertext }

/-- The body of the loop of `ztp_manifest_next_module`: a record of another kind is skipped, and a
module line that lacks a field is malformed. -/
def moduleOfKv (kv : ZtpKv) : Option (Except ℤ ZtpModule) :=
  if kv.key = ascii "module" then some ((clearModule kv.val).elim (.error eproto) .ok)
  else if kv.key = ascii "module-sealed" then some ((sealedModule kv.val).elim (.error eproto) .ok)
  else none

/-- The module lines of a text. -/
def moduleReader : Reader (List UInt8) (Except ℤ ZtpModule) := kvReader.filterMap moduleOfKv

/-- `ztp_manifest_next_module`. -/
def ztpManifestNextModule (cur : List UInt8) : Option (Except ℤ ZtpModule × List UInt8) :=
  moduleReader.next cur

/-- What the module lines of a manifest say, in their order. -/
def bundleLines (manifest : List UInt8) : List (Except ℤ ZtpModule) :=
  (lineReader.toList manifest).filterMap fun line ↦ (kvOfLine (stripCr line)).bind moduleOfKv

theorem toList_moduleReader (manifest : List UInt8) :
    moduleReader.toList manifest = bundleLines manifest := by
  rw [moduleReader, Reader.toList_filterMap, kvReader, Reader.toList_filterMap,
    List.filterMap_filterMap, bundleLines]

/-- The only error of a module line is that it is malformed. -/
theorem error_of_mem_bundleLines {manifest : List UInt8} {e : ℤ}
    (h : .error e ∈ bundleLines manifest) : e = eproto := by
  obtain ⟨line, -, hline⟩ := List.mem_filterMap.mp h
  obtain ⟨kv, -, hkv⟩ := Option.bind_eq_some_iff.mp hline
  rw [moduleOfKv] at hkv
  split at hkv
  · cases hm : clearModule kv.val <;> simp_all
  · split at hkv
    · cases hm : sealedModule kv.val <;> simp_all
    · exact absurd hkv (by simp)

/-! ### Numbers and times -/

/-- `parse_uint`. -/
def parseUint (s : List UInt8) : Option ℕ :=
  if s.length = 0 ∨ 9 < s.length then none
  else if s.all fun b ↦ '0'.toUInt8 ≤ b ∧ b ≤ '9'.toUInt8 then
    some (s.foldl (fun v b ↦ v * 10 + (b.toNat - 48)) 0)
  else none

/-- `days_from_civil`. -/
def daysFromCivil (y : ℤ) (m d : ℕ) : ℤ :=
  let y := if m ≤ 2 then y - 1 else y
  let era := (if 0 ≤ y then y else y - 399).tdiv 400
  let yoe := (y - era * 400).toNat
  let doy := (153 * (if 2 < m then m - 3 else m + 9) + 2) / 5 + d - 1
  let doe := yoe * 365 + yoe / 4 - yoe / 100 + doy
  era * 146097 + doe - 719468

/-- `ztp_parse_rfc3339`. -/
def ztpParseRfc3339 (s : List UInt8) : Option ℤ :=
  let c := fun i ↦ s.getD i 0
  if s.length < 20 ∨ c 4 ≠ '-'.toUInt8 ∨ c 7 ≠ '-'.toUInt8 ∨
      (c 10 ≠ 'T'.toUInt8 ∧ c 10 ≠ 't'.toUInt8) ∨ c 13 ≠ ':'.toUInt8 ∨ c 16 ≠ ':'.toUInt8 ∨
      (s.getLast? ≠ some 'Z'.toUInt8 ∧ s.getLast? ≠ some 'z'.toUInt8) then none
  else if 20 < s.length ∧ c 19 ≠ '.'.toUInt8 then none
  else do
    let y ← parseUint (s.take 4)
    let mo ← parseUint ((s.drop 5).take 2)
    let d ← parseUint ((s.drop 8).take 2)
    let h ← parseUint ((s.drop 11).take 2)
    let mi ← parseUint ((s.drop 14).take 2)
    let se ← parseUint ((s.drop 17).take 2)
    if mo < 1 ∨ 12 < mo ∨ d < 1 ∨ 31 < d ∨ 23 < h ∨ 59 < mi ∨ 60 < se then none
    else some (daysFromCivil y mo d * 86400 + h * 3600 + mi * 60 + se)

/-! ### The server's response -/

/-- `enum ztp_status`. -/
inductive ZtpResponseStatus
  | unknown
  | accepted
  | pending
  | rejected
  deriving DecidableEq, Repr

/-- `struct ztp_response`. -/
structure ZtpResponse where
  status : ZtpResponseStatus := .unknown
  reason : List UInt8 := []
  retryAfter : ℕ := 0
  serverTime : ℤ := 0
  /-- In base64. -/
  manifest : List UInt8 := []
  encrypted : Bool := false
  deriving DecidableEq, Repr

/-- The status a record names. -/
def responseStatus (val : List UInt8) : ZtpResponseStatus :=
  if val = ascii "accepted" then .accepted
  else if val = ascii "pending" then .pending
  else if val = ascii "rejected" then .rejected
  else .unknown

/-- The body of the loop of `ztp_response_parse`, with its `version_ok`. -/
def ZtpResponse.record : ZtpResponse × Bool → ZtpKv → ZtpResponse × Bool
  | (r, versionOk), kv =>
    if kv.key = ascii "protocol_version" then (r, kv.val = ascii "1")
    else if kv.key = ascii "status" then ({ r with status := responseStatus kv.val }, versionOk)
    else if kv.key = ascii "reason" then ({ r with reason := kv.val }, versionOk)
    else if kv.key = ascii "retry_after" then
      ({ r with retryAfter := (parseUint kv.val).getD r.retryAfter }, versionOk)
    else if kv.key = ascii "server_time" then
      ({ r with serverTime := (ztpParseRfc3339 kv.val).getD r.serverTime }, versionOk)
    else if kv.key = ascii "manifest.payload" then ({ r with manifest := kv.val }, versionOk)
    else if 10 < kv.key.length ∧ kv.key.take 10 = ascii "encrypted." then
      ({ r with encrypted := true }, versionOk)
    else (r, versionOk)

/-- `ztp_response_parse`. -/
def ztpResponseParse (buf : List UInt8) : Except ℤ ZtpResponse :=
  let (r, versionOk) := (kvReader.toList buf).foldl ZtpResponse.record ({}, false)
  if ¬ versionOk ∨ r.status = .unknown then .error eproto else .ok r

end ThinEdge.Provisioner
