import Mathlib.Data.Int.Notation
import ThinEdge.Lib.Bytes

/-!
# Onboarding data

`lib/common/prov_c8y.c`, as far as the provisioner image uses it: the Cumulocity settings of a
bundle and how `prov_c8y_store` writes them below `prov/c8y` in the settings store.
-/

namespace ThinEdge.Settings

open Bytes

/-- `struct prov_c8y`. -/
structure ProvC8y where
  url : Area 128
  tenant : Area 32
  externalId : Area 64
  otp : Area 65
  deriving DecidableEq, Repr

/-- The struct after `memset` to zero. -/
def ProvC8y.zero : ProvC8y := ⟨.zero 128, .zero 32, .zero 64, .zero 65⟩

/-- An entry of the table `fields`. -/
inductive C8yField
  | url
  | tenant
  | externalId
  | otp
  deriving DecidableEq, Repr

/-- The table `fields`. -/
def c8yFields : List C8yField := [.url, .tenant, .externalId, .otp]

/-- The key of a field, below `KEY_ROOT`. -/
def C8yField.key : C8yField → String
  | .url => "prov/c8y/url"
  | .tenant => "prov/c8y/tenant"
  | .externalId => "prov/c8y/external_id"
  | .otp => "prov/c8y/otp"

/-- The text of a field. -/
def ProvC8y.get (c : ProvC8y) : C8yField → List UInt8
  | .url => c.url.cstr
  | .tenant => c.tenant.cstr
  | .externalId => c.externalId.cstr
  | .otp => c.otp.cstr

/-- A call of Zephyr's settings subsystem, with its result. -/
inductive SettingsCall
  | subsysInit (rc : ℤ)
  | saveOne (key : String) (value : List UInt8) (rc : ℤ)
  deriving DecidableEq, Repr

/-- What the settings subsystem answers: the results of `settings_subsys_init` and, for a key, of
`settings_save_one`. -/
structure SettingsAnswer where
  init : ℤ
  save : String → ℤ

/-- The loop of `prov_c8y_store`: an empty field is not written, and a failed write ends it. -/
def saveFields (answer : SettingsAnswer) (c : ProvC8y) : List C8yField → ℤ × List SettingsCall
  | [] => (0, [])
  | f :: fs =>
    if c.get f = [] then saveFields answer c fs
    else
      let rc := answer.save f.key
      let call := SettingsCall.saveOne f.key (c.get f) rc
      if rc ≠ 0 then (rc, [call])
      else
        let (rc, calls) := saveFields answer c fs
        (rc, call :: calls)

/-- `prov_c8y_store`: its result and the calls it makes. -/
def provC8yStore (answer : SettingsAnswer) (c : ProvC8y) : ℤ × List SettingsCall :=
  if answer.init ≠ 0 then (answer.init, [.subsysInit answer.init])
  else
    let (rc, calls) := saveFields answer c c8yFields
    (rc, .subsysInit answer.init :: calls)

variable {answer : SettingsAnswer} {c : ProvC8y}

/-- The calls of `prov_c8y_store` for data with a URL, which is the first field. -/
theorem provC8yStore_calls (hurl : c.url.cstr ≠ []) : (provC8yStore answer c).2 =
    if answer.init ≠ 0 then [.subsysInit answer.init]
    else .subsysInit answer.init ::
      .saveOne C8yField.url.key c.url.cstr (answer.save C8yField.url.key) ::
        if answer.save C8yField.url.key ≠ 0 then []
        else (saveFields answer c [.tenant, .externalId, .otp]).2 := by
  have hget : ¬ c.get .url = [] := hurl
  rw [provC8yStore, c8yFields, saveFields, if_neg hget]
  by_cases hinit : answer.init = 0
  · by_cases hsave : answer.save C8yField.url.key = 0
    · simp only [hinit, hsave, ne_eq, not_true_eq_false, if_false]
      rfl
    · simp only [hinit, hsave, ne_eq, not_true_eq_false, not_false_eq_true, if_false, if_true]
      rfl
  · rw [if_pos hinit, if_pos hinit]

/-- **When data with a URL reaches the store**: some field of it is written exactly when the
settings subsystem starts and takes the URL. -/
theorem exists_saved_iff (hurl : c.url.cstr ≠ []) :
    (∃ key value, .saveOne key value 0 ∈ (provC8yStore answer c).2) ↔
      answer.init = 0 ∧ answer.save C8yField.url.key = 0 := by
  rw [provC8yStore_calls hurl]
  by_cases hinit : answer.init = 0
  · by_cases hsave : answer.save C8yField.url.key = 0
    · simp only [hinit, hsave, ne_eq, not_true_eq_false, if_false, and_self, iff_true]
      exact ⟨_, _, List.mem_cons_of_mem _ List.mem_cons_self⟩
    · simp [hinit, hsave, Ne.symm hsave]
  · simp [hinit]

end ThinEdge.Settings
