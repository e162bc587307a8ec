import Mathlib.Tactic.SplitIfs
import ThinEdge.Settings.ProvC8y

/-!
# Handing over the onboarding data

The application's side of `lib/common/prov_c8y.c`, and the device ID of `lib/common/identity.c`:
`prov_c8y_load`, `prov_c8y_clear`, `prov_c8y_external_id`, `prov_c8y_handoff` and
`app_identity_device_id`, with the settings store they read and the calls they make.

`stored_of_used`: a handoff passes on nothing that is not in the settings store.
-/

namespace ThinEdge.Settings

open Bytes

/-- `-ENOENT`. -/
def enoent : ℤ := -2

/-- The settings store: the value below a key. -/
abbrev Store := String → Option (List UInt8)

theorem C8yField.key_injective {f g : C8yField} (h : f.key = g.key) : f = g := by
  revert h
  cases f <;> cases g <;> decide

theorem mem_c8yFields (f : C8yField) : f ∈ c8yFields := by cases f <;> decide

/-! ### Loading -/

/-- What the settings subsystem answers while data is loaded: the result of `settings_subsys_init`
and, for a stored key, that of `read_cb`. -/
structure LoadAnswer where
  init : ℤ
  read : String → ℤ

/-- `load_cb` for a field of `n` bytes: a value too long for it is ignored, and of any other as much
is kept as could be read. -/
def loadCb (n : ℕ) (value : List UInt8) (got : ℤ) : Area n :=
  if h : value.length < n then
    (Area.zero n).write (value.take got.toNat ++ [0]) (by
      rw [List.length_append, List.length_take, List.length_singleton]
      omega)
  else .zero n

/-- A field after the walk over the store. -/
def loadField (answer : LoadAnswer) (store : Store) (f : C8yField) (n : ℕ) : Area n :=
  match store f.key with
  | none => .zero n
  | some value => loadCb n value (answer.read f.key)

/-- `prov_c8y_load`: its result and the struct. -/
def provC8yLoad (answer : LoadAnswer) (store : Store) : ℤ × ProvC8y :=
  if answer.init ≠ 0 then (enoent, .zero)
  else
    let out : ProvC8y :=
      { url := loadField answer store .url 128
        tenant := loadField answer store .tenant 32
        externalId := loadField answer store .externalId 64
        otp := loadField answer store .otp 65 }
    (if out.url.cstr ≠ [] ∨ out.otp.cstr ≠ [] then 0 else enoent, out)

theorem cstr_zero (n : ℕ) : (Area.zero n).cstr = [] := by
  cases n <;> rfl

theorem cstr_loadField_of_none {answer : LoadAnswer} {store : Store} {f : C8yField} {n : ℕ}
    (h : store f.key = none) : (loadField answer store f n).cstr = [] := by
  rw [loadField, h]
  exact cstr_zero n

/-- **Only what is stored is loaded.** -/
theorem stored_of_loaded {answer : LoadAnswer} {store : Store} {f : C8yField}
    (h : (provC8yLoad answer store).2.get f ≠ []) : store f.key ≠ none := by
  intro hnone
  refine h ?_
  rw [provC8yLoad]
  split
  · cases f <;> exact cstr_zero _
  · cases f <;> exact cstr_loadField_of_none hnone

/-- A value that fits its field and is read whole is loaded up to its first NUL. -/
theorem cstr_loadField_of_some {answer : LoadAnswer} {store : Store} {f : C8yField} {n : ℕ}
    {value : List UInt8} (h : store f.key = some value) (hlen : value.length < n)
    (hread : answer.read f.key = value.length) :
    (loadField answer store f n).cstr = value.takeWhile (· ≠ 0) := by
  rw [loadField, h]
  dsimp only
  rw [loadCb, dif_pos hlen, Area.cstr_write_nul, hread, Int.toNat_natCast, List.take_length]

/-! ### The device ID -/

/-- `prov_c8y_external_id` for a buffer of `size` bytes; `none` is `-ENOENT`. -/
def provC8yExternalId (answer : LoadAnswer) (store : Store) (size : ℕ) : Option (List UInt8) :=
  let (_, c) := provC8yLoad answer store
  if c.externalId.cstr = [] ∨ size ≤ c.externalId.cstr.length then none
  else some c.externalId.cstr

/-- The statics of `app_identity_device_id`, which a reboot clears. -/
structure Identity where
  looked : Bool
  ztpId : List UInt8
  deriving DecidableEq, Repr

/-- The statics after a reboot. -/
def Identity.boot : Identity := ⟨false, []⟩

/-- `app_identity_device_id`: the statics it leaves and the ID. -/
def appIdentityDeviceId (answer : LoadAnswer) (store : Store) (hostname : List UInt8)
    (s : Identity) : Identity × List UInt8 :=
  let s : Identity :=
    if s.looked then s else ⟨true, (provC8yExternalId answer store 64).getD []⟩
  (s, if s.ztpId ≠ [] then s.ztpId else hostname)

theorem stored_of_externalId {answer : LoadAnswer} {store : Store} {size : ℕ}
    (h : (provC8yExternalId answer store size).getD [] ≠ []) :
    store C8yField.externalId.key ≠ none := by
  have hid : (provC8yLoad answer store).2.get .externalId ≠ [] := by
    intro hnil
    have hnone : provC8yExternalId answer store size = none := if_pos (Or.inl hnil)
    rw [hnone] at h
    exact h rfl
  exact stored_of_loaded hid

/-! ### The handoff -/

/-- What follows the first occurrence of a text in another, found as `strstr` does. -/
def afterText (text : List UInt8) : List UInt8 → Option (List UInt8)
  | [] => if text = [] then some [] else none
  | b :: bs => if text <+: b :: bs then some ((b :: bs).drop text.length) else afterText text bs

/-- `url_to_host`. -/
def urlToHost (url : List UInt8) : List UInt8 :=
  ((afterText (ascii "://") url).getD url).takeWhile (· ≠ '/'.toUInt8)

/-- What the handoff is answered: by the settings subsystem and by the client. -/
structure HandoffAnswer where
  load : LoadAnswer
  setC8yUrl : List UInt8 → ℤ
  setEnrollOtp : List UInt8 → ℤ
  delete : String → ℤ

/-- A call of `prov_c8y_handoff`, with its result. The log names the ID the device enrols under. -/
inductive HandoffCall
  | setC8yUrl (host : List UInt8) (rc : ℤ)
  | setEnrollOtp (otp : List UInt8) (rc : ℤ)
  | logEnrolling (externalId : List UInt8)
  | settingsDelete (key : String) (rc : ℤ)
  deriving DecidableEq, Repr

/-- The field of the data that a call passes on. -/
def HandoffCall.used : HandoffCall → Option C8yField
  | .setC8yUrl .. => some .url
  | .setEnrollOtp .. => some .otp
  | .logEnrolling externalId => if externalId = [] then none else some .externalId
  | .settingsDelete .. => none

/-- `prov_c8y_clear`. -/
def provC8yClear (delete : String → ℤ) : List HandoffCall :=
  (c8yFields.filter (· ≠ .externalId)).map fun f ↦ .settingsDelete f.key (delete f.key)

/-- The URL's part of `prov_c8y_handoff`. -/
def handUrl (answer : HandoffAnswer) (c : ProvC8y) : ℤ × List HandoffCall :=
  if c.url.cstr = [] then (0, [])
  else
    let host := urlToHost c.url.cstr
    (answer.setC8yUrl host, [.setC8yUrl host (answer.setC8yUrl host)])

/-- The one-time password's part of `prov_c8y_handoff`. -/
def handOtp (answer : HandoffAnswer) (c : ProvC8y) : ℤ × List HandoffCall :=
  if c.otp.cstr = [] then (0, [])
  else
    let rc := answer.setEnrollOtp c.otp.cstr
    (rc, .setEnrollOtp c.otp.cstr rc :: if rc = 0 then [.logEnrolling c.externalId.cstr] else [])

/-- `prov_c8y_handoff`: its result and the calls it makes. -/
def provC8yHandoff (answer : HandoffAnswer) (store : Store) : ℤ × List HandoffCall :=
  let (found, c) := provC8yLoad answer.load store
  if found ≠ 0 then (0, [])
  else
    let (rc, calls) := handUrl answer c
    if rc ≠ 0 then (rc, calls)
    else
      let (rc, calls') := handOtp answer c
      (rc, calls ++ calls' ++ if rc = 0 then provC8yClear answer.delete else [])

variable {answer : HandoffAnswer} {store : Store} {c : ProvC8y} {call : HandoffCall}

theorem mem_handUrl {f : C8yField} (h : call ∈ (handUrl answer c).2)
    (hf : call.used = some f) : c.get f ≠ [] := by
  rw [handUrl] at h
  split at h
  · exact absurd h List.not_mem_nil
  · next hurl =>
    rw [List.mem_singleton] at h
    subst h
    cases hf
    exact hurl

theorem mem_handOtp {f : C8yField} (h : call ∈ (handOtp answer c).2)
    (hf : call.used = some f) : c.get f ≠ [] := by
  rw [handOtp] at h
  split at h
  · exact absurd h List.not_mem_nil
  · next hotp =>
    rcases List.mem_cons.1 h with rfl | h
    · cases hf
      exact hotp
    · split at h
      · rw [List.mem_singleton] at h
        subst h
        rw [HandoffCall.used] at hf
        split at hf
        · cases hf
        · next hid =>
          cases hf
          exact hid
      · exact absurd h List.not_mem_nil

theorem mem_provC8yClear {delete : String → ℤ} (h : call ∈ provC8yClear delete) :
    ∃ f : C8yField, f ≠ .externalId ∧ call = .settingsDelete f.key (delete f.key) := by
  obtain ⟨f, hf, rfl⟩ := List.mem_map.1 h
  exact ⟨f, of_decide_eq_true (List.mem_filter.1 hf).2, rfl⟩

/-- What a handoff calls: it hands over what it has loaded, and clears the store when the client has
taken all of it. -/
theorem mem_provC8yHandoff (h : call ∈ (provC8yHandoff answer store).2) :
    call ∈ (handUrl answer (provC8yLoad answer.load store).2).2 ∨
      call ∈ (handOtp answer (provC8yLoad answer.load store).2).2 ∨
        (provC8yHandoff answer store).1 = 0 ∧ call ∈ provC8yClear answer.delete := by
  rw [provC8yHandoff] at h ⊢
  dsimp only at h ⊢
  split_ifs at h ⊢ with hfound hurl hotp
  · exact absurd h List.not_mem_nil
  · exact Or.inl h
  · rcases List.mem_append.1 h with h | h
    · exact (List.mem_append.1 h).imp id Or.inl
    · exact Or.inr (Or.inr ⟨hotp, h⟩)
  · rcases List.mem_append.1 h with h | h
    · exact (List.mem_append.1 h).imp id Or.inl
    · exact absurd h List.not_mem_nil

/-- **A handoff passes on nothing that is not stored.** -/
theorem stored_of_used {f : C8yField} (h : call ∈ (provC8yHandoff answer store).2)
    (hf : call.used = some f) : store f.key ≠ none := by
  rcases mem_provC8yHandoff h with h | h | ⟨-, h⟩
  · exact stored_of_loaded (mem_handUrl h hf)
  · exact stored_of_loaded (mem_handOtp h hf)
  · obtain ⟨g, -, rfl⟩ := mem_provC8yClear h
    cases hf

end ThinEdge.Settings
