import Mathlib.Data.Int.Notation
import Mathlib.Data.Nat.Notation

/-!
# Wi-Fi credentials

`struct app_wifi_creds` and `app_wifi_creds_resolve` of `lib/common/net.c`, and the content of
Zephyr's credential store as these functions read it.
-/

namespace ThinEdge.Net

/-- `struct app_wifi_creds`: a network name and a passphrase, each within its array. -/
structure AppWifiCreds where
  ssid : List UInt8
  psk : List UInt8
  ssid_length_lt : ssid.length < 33
  psk_length_lt : psk.length < 65
  deriving DecidableEq, Repr

/-- An entry of Zephyr's credential store. `personal` is the password, when the entry is one that
`wifi_credentials_get_by_ssid_personal_struct` can read. -/
structure StoredEntry where
  ssid : List UInt8
  personal : Option (List UInt8)
  deriving DecidableEq, Repr

/-- The credential store, in the order of `wifi_credentials_for_each_ssid`. -/
abbrev CredStore := List StoredEntry

/-- What an image is built with: `CONFIG_APP_WIFI_CRED_STORE`, and with `CONFIG_APP_WIFI` the
compile-time SSID and passphrase. -/
structure WifiConfig where
  credStore : Bool
  compileTime : Option (List UInt8 × List UInt8)
  deriving DecidableEq, Repr

/-- `stored_ssid_cb` over all entries: the first SSID that fits. An empty one leaves `ssid_len` at
zero, so the search goes on. -/
def firstStoredSsid (store : CredStore) : Option (List UInt8) :=
  (store.map StoredEntry.ssid).find? fun ssid ↦ ssid.length ≠ 0 ∧ ssid.length < 33

/-- Credentials from their parts, when both fit. -/
def AppWifiCreds.ofBytes (ssid psk : List UInt8) : Option AppWifiCreds :=
  if h : ssid.length ≠ 0 ∧ ssid.length < 33 ∧ psk.length < 65 then some ⟨ssid, psk, h.2.1, h.2.2⟩
  else none

/-- `stored_creds`. -/
def storedCreds (store : CredStore) : Option AppWifiCreds := do
  let ssid ← firstStoredSsid store
  let entry ← store.find? fun e ↦ e.ssid = ssid
  let password ← entry.personal
  AppWifiCreds.ofBytes ssid password

/-- `app_wifi_creds_resolve`: the stored credentials, else the compile-time ones. -/
def appWifiCredsResolve (cfg : WifiConfig) (store : CredStore) : Option AppWifiCreds :=
  (if cfg.credStore then storedCreds store else none) <|>
    cfg.compileTime.bind fun (ssid, psk) ↦ AppWifiCreds.ofBytes ssid psk

/-! ### Replacing the stored credentials -/

/-- The entry that `wifi_credentials_set_personal` writes for credentials. -/
def AppWifiCreds.entry (c : AppWifiCreds) : StoredEntry := ⟨c.ssid, some c.psk⟩

/-- `wifi_credentials_set_personal` with its result: on success the credentials are the entry of
their SSID, on failure the store is as it was. -/
def setPersonal (store : CredStore) (c : AppWifiCreds) (rc : ℤ) : CredStore :=
  if rc = 0 then store.filter (fun e ↦ e.ssid ≠ c.ssid) ++ [c.entry] else store

/-- What the credential store answers when a front end replaces its content: what
`wifi_credentials_delete_all` leaves, and the result of `wifi_credentials_set_personal`. -/
structure StoreAnswer where
  afterDelete : CredStore
  setRc : ℤ
  deriving DecidableEq, Repr

/-- The store after `wifi_credentials_delete_all` and `wifi_credentials_set_personal`. The result of
the deletion is ignored, so the store's content before it plays no role. -/
def StoreAnswer.replaced (answer : StoreAnswer) (c : AppWifiCreds) : CredStore :=
  setPersonal answer.afterDelete c answer.setRc

theorem StoreAnswer.replaced_of_ne {answer : StoreAnswer} (h : answer.setRc ≠ 0)
    (c : AppWifiCreds) : answer.replaced c = answer.afterDelete := by
  rw [replaced, setPersonal, if_neg h]

/-- What is stored behind a complete deletion is what the application joins with. -/
theorem resolve_replaced {answer : StoreAnswer} {wifi : WifiConfig} {c : AppWifiCreds}
    (hssid : c.ssid ≠ []) (hrc : answer.setRc = 0) (hempty : answer.afterDelete = [])
    (hcfg : wifi.credStore = true) :
    appWifiCredsResolve wifi (answer.replaced c) = some c := by
  have hstore : answer.replaced c = [c.entry] := by
    rw [StoreAnswer.replaced, setPersonal, if_pos hrc, hempty]
    rfl
  have hstored : storedCreds [c.entry] = some c := by
    simp [storedCreds, firstStoredSsid, AppWifiCreds.entry, AppWifiCreds.ofBytes, hssid,
      c.ssid_length_lt, c.psk_length_lt]
  rw [hstore, appWifiCredsResolve, if_pos hcfg, hstored]
  rfl

end ThinEdge.Net
