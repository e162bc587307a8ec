import ThinEdge.Net.Credentials
import ThinEdge.Provisioner.ZtpManifest
import ThinEdge.Settings.ProvC8y

/-!
# Zero-touch provisioning: staging a module

The INI bodies of `wifi.v2` and `c8y.v2` modules, as `apps/wifi-provisioner/src/ztp_apply.c` reads
them into its static `wifi` and `c8y` structs. Each staging function first clears its struct, so
what it stages is a function of the payload alone.
-/

namespace ThinEdge.Provisioner

open Bytes Net Settings

/-- `-E2BIG`. -/
def e2big : ℤ := -7

/-- `-EINVAL`. -/
def einval : ℤ := -22

/-- `-ENODATA`. -/
def enodata : ℤ := -61

/-! ### INI -/

/-- A section header is a line in brackets. -/
def isSectionLine (line : List UInt8) : Prop :=
  line.head? = some '['.toUInt8 ∧ line.getLast? = some ']'.toUInt8

instance (line : List UInt8) : Decidable (isSectionLine line) :=
  inferInstanceAs (Decidable (_ ∧ _))

/-- The body of the loop of `ini_walk`. The callback gets the section and, but for a line that opens
one, the record; a result other than zero ends the walk. -/
def iniLine {σ : Type} (fn : List UInt8 → Option ZtpKv → σ → ℤ × σ) :
    List UInt8 × σ → List UInt8 → Except (ℤ × σ) (List UInt8 × σ)
  | (sect, s), line =>
    let line := stripCr line
    if isSectionLine line then
      let sect := line.tail.dropLast
      let (rc, s) := fn sect none s
      if rc ≠ 0 then .error (rc, s) else .ok (sect, s)
    else
      match kvOfLine line with
      | none => .ok (sect, s)
      | some kv =>
        let (rc, s) := fn sect (some kv) s
        if rc ≠ 0 then .error (rc, s) else .ok (sect, s)

/-- `ini_walk`: its result, and what the callback has made of its argument. -/
def iniWalk {σ : Type} (fn : List UInt8 → Option ZtpKv → σ → ℤ × σ) (buf : List UInt8) (s : σ) :
    ℤ × σ :=
  match lineReader.run (iniLine fn) ([], s) buf with
  | .error r => r
  | .ok (_, s) => (0, s)

/-- `copy_val`: the array with the value, and the value's length. `none` is `-E2BIG`. -/
def copyVal {n : ℕ} (dst : Area n) (v : List UInt8) : Option (Area n × Fin n) :=
  if h : v.length < n then
    some (dst.write (v ++ [0]) (by rw [List.length_append]; exact h), ⟨v.length, h⟩)
  else none

/-! ### wifi.v2 -/

/-- `struct app_wifi_creds`, byte by byte. -/
structure WifiCredsArea where
  ssid : Area 33
  ssidLen : Fin 33
  psk : Area 65
  pskLen : Fin 65
  deriving DecidableEq, Repr

/-- The struct after `memset` to zero. -/
def WifiCredsArea.zero : WifiCredsArea := ⟨.zero 33, 0, .zero 65, 0⟩

/-- The credentials a struct holds. -/
def WifiCredsArea.creds (c : WifiCredsArea) : AppWifiCreds where
  ssid := c.ssid.bytes.take c.ssidLen
  psk := c.psk.bytes.take c.pskLen
  ssid_length_lt := (List.length_take_le _ _).trans_lt c.ssidLen.isLt
  psk_length_lt := (List.length_take_le _ _).trans_lt c.pskLen.isLt

/-- `struct wifi_candidate`. `isOpen` is its `open`. -/
structure WifiCandidate where
  creds : WifiCredsArea
  priority : ℤ
  isOpen : Bool
  seenSsid : Bool
  deriving DecidableEq, Repr

/-- The struct after `memset` to zero. -/
def WifiCandidate.zero : WifiCandidate := ⟨.zero, 0, false, false⟩

/-- The static `wifi`. `found` is its `have`. -/
structure WifiStaging where
  best : WifiCredsArea
  bestPriority : ℤ
  found : Bool
  cur : WifiCandidate
  inNetwork : Bool
  deriving DecidableEq, Repr

/-- `wifi_reset`. -/
def WifiStaging.zero : WifiStaging := ⟨.zero, 0, false, .zero, false⟩

/-- `wifi_close_section`. -/
def WifiStaging.closeSection (w : WifiStaging) : WifiStaging :=
  let c := w.cur
  let creds :=
    if c.isOpen then { c.creds with psk := c.creds.psk.write [0] (by decide), pskLen := 0 }
    else c.creds
  let w :=
    if w.inNetwork ∧ c.seenSsid ∧ (¬ w.found ∨ c.priority > w.bestPriority) then
      { w with best := creds, bestPriority := c.priority, found := true }
    else w
  { w with cur := .zero, inNetwork := false }

/-- The value of `priority`: at most six characters of it, the sign among them. `none` when one of
them is not a digit. -/
def parsePriority (val : List UInt8) : Option ℤ :=
  let neg := val.head? = some '-'.toUInt8
  let digits := (val.take 6).drop (if neg then 1 else 0)
  if digits.all fun b ↦ '0'.toUInt8 ≤ b ∧ b ≤ '9'.toUInt8 then
    let p := digits.foldl (fun p b ↦ p * 10 + ((b.toNat : ℤ) - 48)) 0
    some (if neg then -p else p)
  else none

/-- `wifi_ini`. -/
def wifiIni (sect : List UInt8) (kv : Option ZtpKv) (w : WifiStaging) : ℤ × WifiStaging :=
  match kv with
  | none => (0, { w.closeSection with inNetwork := sect = ascii "network" })
  | some kv =>
    let c := w.cur
    if ¬ w.inNetwork then (0, w)
    else if kv.key = ascii "ssid" then
      if kv.val = [] then (einval, w)
      else
        match copyVal c.creds.ssid kv.val with
        | none => (einval, w)
        | some (ssid, ssidLen) =>
          let creds := { c.creds with ssid, ssidLen }
          (0, { w with cur := { c with creds, seenSsid := true } })
    else if kv.key = ascii "password" then
      match copyVal c.creds.psk kv.val with
      | none => (einval, w)
      | some (psk, pskLen) =>
        let creds := { c.creds with psk, pskLen }
        (0, { w with cur := { c with creds } })
    else if kv.key = ascii "key_mgmt" then
      (0, { w with cur := { c with isOpen := kv.val = ascii "NONE" } })
    else if kv.key = ascii "priority" then
      match parsePriority kv.val with
      | none => (einval, w)
      | some priority => (0, { w with cur := { c with priority } })
    else (0, w)

/-- `wifi_stage`: its result and what it leaves in `wifi`. -/
def wifiStage (p : List UInt8) : ℤ × WifiStaging :=
  let (rc, w) := iniWalk wifiIni p .zero
  let w := w.closeSection
  if rc ≠ 0 then (rc, w) else if ¬ w.found then (enodata, w) else (0, w)

/-! ### c8y.v2 -/

/-- `c8y_ini`. -/
def c8yIni (sect : List UInt8) (kv : Option ZtpKv) (c : ProvC8y) : ℤ × ProvC8y :=
  match kv with
  | none => (0, c)
  | some kv =>
    if sect ≠ ascii "c8y" then (0, c)
    else if kv.key = ascii "url" then
      (copyVal c.url kv.val).elim (e2big, c) fun (url, _) ↦ (0, { c with url })
    else if kv.key = ascii "tenant" then
      (copyVal c.tenant kv.val).elim (e2big, c) fun (tenant, _) ↦ (0, { c with tenant })
    else if kv.key = ascii "external_id" then
      (copyVal c.externalId kv.val).elim (e2big, c) fun (externalId, _) ↦ (0, { c with externalId })
    else if kv.key = ascii "one_time_password" then
      (copyVal c.otp kv.val).elim (e2big, c) fun (otp, _) ↦ (0, { c with otp })
    else (0, c)

/-- `c8y_stage`: its result and what it leaves in `c8y`. -/
def c8yStage (p : List UInt8) : ℤ × ProvC8y :=
  let (rc, c) := iniWalk c8yIni p .zero
  if rc ≠ 0 then (rc, .zero) else if c.url.cstr = [] then (enodata, c) else (0, c)

/-- What is staged for Cumulocity has a URL. -/
theorem url_of_c8yStage {p : List UInt8} (h : (c8yStage p).1 = 0) :
    (c8yStage p).2.url.cstr ≠ [] := by
  rw [c8yStage] at h ⊢
  by_cases hrc : (iniWalk c8yIni p .zero).1 = 0
  · by_cases hurl : (iniWalk c8yIni p .zero).2.url.cstr = []
    · simp only [hrc, hurl, ne_eq, not_true_eq_false, if_false, if_true] at h
      exact absurd h (by decide)
    · simp only [hrc, hurl, ne_eq, not_true_eq_false, if_false, not_false_eq_true]
  · simp only [hrc, ne_eq, not_false_eq_true, if_true] at h

end ThinEdge.Provisioner
