import ThinEdge.Lib.Transition
import ThinEdge.Settings.C8yHandoff

/-!
# Onboarding data from one bundle

The settings store across boots: bundles are stored, handed to the client, and name the device. The
state keeps, next to the store and the statics of a boot, which `prov_c8y_store` wrote each value,
so that what a boot uses together can be traced to where it came from.

* `not_oneBundle_leftoverPassword`: a bundle that sends no one-time password leaves the password of
  an earlier one in the store, and the next handoff passes it on with the new tenant's URL.
* `oneBundle_of_usesWhole`: values of two bundles are used together only when the store holds a
  bundle in part, or when a boot goes on with its ID, or with what it has handed over, after a newer
  bundle was stored.
-/

namespace ThinEdge.Settings

open Bytes Transition

/-! ### Writing to the store -/

/-- The value that a call leaves below a key. -/
def SettingsCall.saved (key : String) : SettingsCall → Option (List UInt8)
  | .subsysInit _ => none
  | .saveOne k value rc => if k = key ∧ rc = 0 then some value else none

/-- The value that calls leave below a key. -/
def written (calls : List SettingsCall) (key : String) : Option (List UInt8) :=
  calls.findSome? (SettingsCall.saved key)

/-- Calls write below the key of some field. -/
def writesAny (calls : List SettingsCall) : Bool :=
  c8yFields.any fun f ↦ (written calls f.key).isSome

/-- The settings subsystem takes every field that the bundle has. -/
def SettingsAnswer.Takes (answer : SettingsAnswer) (c : ProvC8y) : Prop :=
  answer.init = 0 ∧ ∀ f ∈ c8yFields, c.get f ≠ [] → answer.save f.key = 0

instance (answer : SettingsAnswer) (c : ProvC8y) : Decidable (answer.Takes c) :=
  inferInstanceAs (Decidable (_ ∧ _))

section Writing

variable {answer : SettingsAnswer} {c : ProvC8y} {f : C8yField} {fs : List C8yField}

theorem writesAny_iff {calls : List SettingsCall} :
    writesAny calls = true ↔ ∃ f : C8yField, written calls f.key ≠ none := by
  simp only [writesAny, List.any_eq_true, Option.isSome_iff_ne_none]
  exact exists_congr fun f ↦ and_iff_right (mem_c8yFields f)

theorem written_cons (call : SettingsCall) (calls : List SettingsCall) (key : String) :
    written (call :: calls) key = (call.saved key).or (written calls key) := by
  rw [written, List.findSome?_cons]
  cases call.saved key <;> rfl

theorem saveFields_of_takes (h : ∀ f ∈ fs, c.get f ≠ [] → answer.save f.key = 0) :
    (saveFields answer c fs).1 = 0 ∧
      ∀ f ∈ fs, c.get f ≠ [] → written (saveFields answer c fs).2 f.key ≠ none := by
  induction fs with
  | nil => exact ⟨rfl, fun f hf ↦ absurd hf List.not_mem_nil⟩
  | cons g fs ih =>
    obtain ⟨hrc, hall⟩ := ih fun f hf ↦ h f (List.mem_cons_of_mem g hf)
    rw [saveFields]
    by_cases hg : c.get g = []
    · rw [if_pos hg]
      refine ⟨hrc, fun f hf hne ↦ ?_⟩
      rcases List.mem_cons.1 hf with rfl | hf
      · exact absurd hg hne
      · exact hall f hf hne
    · have hsave := h g List.mem_cons_self hg
      rw [if_neg hg]
      simp only [hsave, ne_eq, not_true_eq_false, if_false]
      refine ⟨hrc, fun f hf hne ↦ ?_⟩
      rw [written_cons, SettingsCall.saved]
      by_cases hkey : g.key = f.key
      · rw [if_pos ⟨hkey, rfl⟩]
        exact Option.some_ne_none _
      · rw [if_neg fun hp ↦ hkey hp.1]
        rcases List.mem_cons.1 hf with rfl | hf
        · exact absurd rfl hkey
        · exact hall f hf hne

theorem takes_of_saveFields (h : (saveFields answer c fs).1 = 0) :
    ∀ f ∈ fs, c.get f ≠ [] → answer.save f.key = 0 := by
  induction fs with
  | nil => exact fun f hf ↦ absurd hf List.not_mem_nil
  | cons g fs ih =>
    rw [saveFields] at h
    intro f hf hne
    rcases Decidable.em (c.get g = []) with hg | hg
    · rw [if_pos hg] at h
      rcases List.mem_cons.1 hf with rfl | hmem
      · exact absurd hg hne
      · exact ih h f hmem hne
    · rw [if_neg hg] at h
      rcases Decidable.em (answer.save g.key = 0) with hsave | hsave
      · rw [if_neg (not_not.2 hsave)] at h
        rcases List.mem_cons.1 hf with rfl | hmem
        · exact hsave
        · exact ih h f hmem hne
      · rw [if_pos hsave] at h
        exact absurd h hsave

/-- What was stored without an error was taken. -/
theorem takes_of_provC8yStore (h : (provC8yStore answer c).1 = 0) : answer.Takes c := by
  rw [provC8yStore] at h
  rcases Decidable.em (answer.init = 0) with hinit | hinit
  · rw [if_neg (not_not.2 hinit)] at h
    exact ⟨hinit, takes_of_saveFields h⟩
  · rw [if_pos hinit] at h
    exact absurd h hinit

/-- A bundle that the settings subsystem takes is stored whole, and the caller is told so. -/
theorem provC8yStore_of_takes (h : answer.Takes c) :
    (provC8yStore answer c).1 = 0 ∧
      ∀ f, c.get f ≠ [] → written (provC8yStore answer c).2 f.key ≠ none := by
  obtain ⟨hrc, hall⟩ := saveFields_of_takes h.2
  rw [provC8yStore, if_neg (not_not.2 h.1)]
  refine ⟨hrc, fun f hne ↦ ?_⟩
  rw [written_cons]
  exact hall f (mem_c8yFields f) hne

/-- What is written below a field's key is the bundle's text. -/
theorem written_provC8yStore {value : List UInt8}
    (h : written (provC8yStore answer c).2 f.key = some value) : value = c.get f := by
  have hfields : ∀ {fs}, written (saveFields answer c fs).2 f.key = some value →
      value = c.get f := by
    -- on the fields still to come
    intro fs
    induction fs with
    | nil => exact fun h ↦ absurd h (Option.some_ne_none value).symm
    | cons g fs ih =>
      rw [saveFields]
      split
      · exact ih
      · dsimp only
        split
        · next hsave =>
          rw [written_cons, SettingsCall.saved, if_neg fun hp ↦ hsave hp.2]
          exact fun h ↦ absurd h (Option.some_ne_none value).symm
        · rw [written_cons, SettingsCall.saved]
          split
          · next hp =>
            intro h
            cases h
            rw [C8yField.key_injective hp.1]
          · exact ih
  rw [provC8yStore] at h
  split at h
  · exact absurd h (Option.some_ne_none value).symm
  · have hrest : written (saveFields answer c c8yFields).2 f.key = some value := h
    exact hfields hrest

end Writing

/-! ### The device -/

/-- A device across its boots. -/
structure Device where
  store : Store
  /-- The statics of this boot. -/
  identity : Identity
  /-- How many times `prov_c8y_store` was called. -/
  stores : ℕ
  /-- The calls that returned zero. -/
  succeeded : List ℕ
  /-- The call that wrote what the store holds below a key. -/
  writer : String → ℕ
  /-- Which calls had stored what the last handoff of this boot passed on. -/
  handed : List ℕ
  /-- Which call had stored the ID that the boot goes by. -/
  idWriter : ℕ
  /-- The last call that wrote anything was for a bundle that replaced all that is ever used of what
  the store held, and the settings subsystem took all of it. -/
  whole : Bool
  /-- A bundle was written after this boot had taken its ID. -/
  idOld : Bool
  /-- A bundle was written after the last handoff of this boot, which passed something on. -/
  handedOld : Bool

/-- A device that was never onboarded. -/
def Device.blank : Device where
  store := fun _ ↦ none
  identity := .boot
  stores := 0
  succeeded := []
  writer := fun _ ↦ 0
  handed := []
  idWriter := 0
  whole := true
  idOld := false
  handedOld := false

/-- The fields that are used: the tenant's name is only stored. -/
def usedFields : List C8yField := c8yFields.filter (· ≠ .tenant)

theorem mem_usedFields {f : C8yField} : f ∈ usedFields ↔ f ≠ .tenant := by
  rw [usedFields, List.mem_filter, and_iff_right (mem_c8yFields f), decide_eq_true_iff]

namespace Device

/-- Where the ID comes from that the boot goes by. -/
def idFrom (d : Device) : List ℕ := if d.identity.ztpId = [] then [] else [d.idWriter]

/-- Where the values come from that this boot uses together: what the last handoff passed on, and
the ID. -/
def together (d : Device) : List ℕ := d.handed ++ d.idFrom

/-- Where the values in the store come from. -/
def stored (d : Device) : List ℕ :=
  (usedFields.filter fun f ↦ (d.store f.key).isSome).map fun f ↦ d.writer f.key

/-- What this boot has used, as far as no bundle was written since. -/
def current (d : Device) : List ℕ :=
  (if d.handedOld then [] else d.handed) ++ if d.idOld then [] else d.idFrom

/-- The bundle has every field that the store holds. -/
def Replaced (d : Device) (c : ProvC8y) : Prop :=
  ∀ f ∈ usedFields, (d.store f.key).isSome → c.get f ≠ []

instance (d : Device) (c : ProvC8y) : Decidable (d.Replaced c) :=
  inferInstanceAs (Decidable (∀ f ∈ usedFields, _))

/-- `prov_c8y_store`. -/
def storeBundle (d : Device) (answer : SettingsAnswer) (c : ProvC8y) : Device :=
  let (rc, calls) := provC8yStore answer c
  { d with
    store := fun key ↦ (written calls key).or (d.store key)
    writer := fun key ↦ if (written calls key).isSome then d.stores else d.writer key
    stores := d.stores + 1
    succeeded := if rc = 0 then d.stores :: d.succeeded else d.succeeded
    whole := if writesAny calls then decide (answer.Takes c ∧ d.Replaced c) else d.whole
    idOld := d.idOld || (writesAny calls && decide (d.idFrom ≠ []))
    handedOld := d.handedOld || (writesAny calls && decide (d.handed ≠ [])) }

/-- `prov_c8y_handoff`. -/
def handOver (d : Device) (answer : HandoffAnswer) : Device :=
  let (_, calls) := provC8yHandoff answer d.store
  { d with
    store := fun key ↦ if .settingsDelete key 0 ∈ calls then none else d.store key
    handed := (calls.filterMap HandoffCall.used).map fun f ↦ d.writer f.key
    handedOld := false }

/-- `app_identity_device_id`. -/
def nameDevice (d : Device) (answer : LoadAnswer) (hostname : List UInt8) : Device :=
  { d with
    identity := (appIdentityDeviceId answer d.store hostname d.identity).1
    idWriter := if d.identity.looked then d.idWriter else d.writer C8yField.externalId.key }

/-- A reboot. -/
def reboot (d : Device) : Device :=
  { d with identity := .boot, handed := [], idOld := false, handedOld := false }

end Device

/-- What can happen to a device. -/
inductive DeviceAction
  | store (answer : SettingsAnswer) (c : ProvC8y)
  | handoff (answer : HandoffAnswer)
  | deviceId (answer : LoadAnswer) (hostname : List UInt8)
  | reboot

/-- One step of a device. -/
def deviceStep (d : Device) : DeviceAction → Option Device
  | .store answer c => some (d.storeBundle answer c)
  | .handoff answer => some (d.handOver answer)
  | .deviceId answer hostname => some (d.nameDevice answer hostname)
  | .reboot => some d.reboot

/-- The values all come from one successful `prov_c8y_store`. -/
def FromOne (succeeded writers : List ℕ) : Prop :=
  ∀ m ∈ writers, m ∈ succeeded ∧ ∀ n ∈ writers, n = m

/-- **What is used together comes from one bundle.** -/
def OneBundle (d : Device) : Prop := FromOne d.succeeded d.together

instance (d : Device) : Decidable (OneBundle d) :=
  inferInstanceAs (Decidable (∀ m ∈ d.together, _ ∧ ∀ n ∈ d.together, _))

/-- Data is used only when the store holds a bundle whole, and together with nothing from before
that bundle: a handoff follows no older ID of this boot, and the ID no older handoff. -/
def UsesWhole (d : Device) : DeviceAction → Prop
  | .store .. | .reboot => True
  | .handoff _ => d.whole = true ∧ d.idOld = false
  | .deviceId .. => d.identity.looked = true ∨ d.whole = true ∧ d.handedOld = false

instance (d : Device) (a : DeviceAction) : Decidable (UsesWhole d a) := by
  cases a <;> unfold UsesWhole <;> infer_instance

/-! ### Where values come from -/

theorem FromOne.mono {succeeded succeeded' writers writers' : List ℕ}
    (h : FromOne succeeded writers) (hsub : writers' ⊆ writers) (hsucc : succeeded ⊆ succeeded') :
    FromOne succeeded' writers' := fun m hm ↦
  ⟨hsucc (h m (hsub hm)).1, fun n hn ↦ (h m (hsub hm)).2 n (hsub hn)⟩

theorem fromOne_nil (succeeded : List ℕ) : FromOne succeeded [] :=
  fun _ hm ↦ absurd hm List.not_mem_nil

theorem fromOne_of_forall_eq {succeeded writers : List ℕ} {n : ℕ} (hn : n ∈ succeeded)
    (h : ∀ m ∈ writers, m = n) : FromOne succeeded writers := fun m hm ↦
  ⟨h m hm ▸ hn, fun k hk ↦ (h k hk).trans (h m hm).symm⟩

namespace Device

variable {d : Device}

theorem mem_stored {m : ℕ} :
    m ∈ d.stored ↔ ∃ f : C8yField, (f ≠ .tenant ∧ d.store f.key ≠ none) ∧ d.writer f.key = m := by
  simp only [stored, List.mem_map, List.mem_filter, Option.isSome_iff_ne_none, mem_usedFields]

theorem writer_mem_stored {f : C8yField} (hf : f ≠ .tenant) (h : d.store f.key ≠ none) :
    d.writer f.key ∈ d.stored := mem_stored.2 ⟨f, ⟨hf, h⟩, rfl⟩

end Device

/-- What holds at every moment: what is used together comes from one bundle, and so does, when the
store holds a bundle whole, what is stored, with what this boot uses unless that is older. -/
structure DeviceInv (d : Device) : Prop where
  oneBundle : OneBundle d
  whole : d.whole = true → FromOne d.succeeded (d.stored ++ d.current)

theorem DeviceInv.blank : DeviceInv .blank where
  oneBundle := fromOne_nil _
  whole := fun _ ↦ fromOne_nil _

section Steps

variable {d : Device}

/-- The tenant's name is not passed on. -/
theorem used_ne_tenant {call : HandoffCall} {f : C8yField} (h : call.used = some f) :
    f ≠ .tenant := by
  cases call with
  | setC8yUrl | setEnrollOtp =>
    cases h
    decide
  | logEnrolling externalId =>
    rw [HandoffCall.used] at h
    split at h
    · cases h
    · cases h
      decide
  | settingsDelete => cases h

/-- What a handoff passes on was stored. -/
theorem handed_handOver_subset (answer : HandoffAnswer) :
    (d.handOver answer).handed ⊆ d.stored := by
  intro m hm
  obtain ⟨f, hf, rfl⟩ := List.mem_map.1 hm
  obtain ⟨call, hcall, hused⟩ := List.mem_filterMap.1 hf
  exact Device.writer_mem_stored (used_ne_tenant hused) (stored_of_used hcall hused)

/-- Deleting leaves less. -/
theorem stored_handOver_subset (answer : HandoffAnswer) :
    (d.handOver answer).stored ⊆ d.stored := by
  intro m hm
  obtain ⟨f, ⟨hne, hf⟩, rfl⟩ := Device.mem_stored.1 hm
  refine Device.writer_mem_stored hne fun hnone ↦ hf ?_
  show (if _ then none else d.store f.key) = none
  rw [hnone, ite_self]

theorem deviceInv_handOver (h : DeviceInv d) (hw : d.whole = true) (hid : d.idOld = false)
    (answer : HandoffAnswer) : DeviceInv (d.handOver answer) := by
  have hone : FromOne d.succeeded (d.stored ++ d.idFrom) := (h.whole hw).mono (by
    refine List.append_subset.2 ⟨List.subset_append_left _ _, ?_⟩
    rw [Device.current, hid, if_neg Bool.false_ne_true]
    exact List.subset_append_of_subset_right _ (List.subset_append_right _ _))
    (List.Subset.refl _)
  have hhanded : (d.handOver answer).handed ⊆ d.stored ++ d.idFrom :=
    List.subset_append_of_subset_left _ (handed_handOver_subset answer)
  have hidFrom : (d.handOver answer).idFrom ⊆ d.stored ++ d.idFrom := List.subset_append_right _ _
  refine ⟨hone.mono (List.append_subset.2 ⟨hhanded, hidFrom⟩) (List.Subset.refl _), fun _ ↦
    hone.mono (List.append_subset.2 ⟨?_, List.append_subset.2 ⟨?_, ?_⟩⟩) (List.Subset.refl _)⟩
  · exact List.subset_append_of_subset_left _ (stored_handOver_subset answer)
  · exact hhanded
  · rw [show (d.handOver answer).idOld = d.idOld from rfl, hid]
    exact hidFrom

/-- The ID was stored. -/
theorem idFrom_nameDevice_subset (hlooked : d.identity.looked ≠ true) (answer : LoadAnswer)
    (hostname : List UInt8) : (d.nameDevice answer hostname).idFrom ⊆ d.stored := by
  intro m hm
  simp only [Device.idFrom, Device.nameDevice, appIdentityDeviceId, if_neg hlooked] at hm
  split at hm
  · exact absurd hm List.not_mem_nil
  · next hid =>
    rw [List.mem_singleton] at hm
    rw [hm]
    exact Device.writer_mem_stored (by decide) (stored_of_externalId hid)

theorem deviceInv_nameDevice (h : DeviceInv d)
    (hok : d.identity.looked = true ∨ d.whole = true ∧ d.handedOld = false) (answer : LoadAnswer)
    (hostname : List UInt8) : DeviceInv (d.nameDevice answer hostname) := by
  by_cases hlooked : d.identity.looked = true
  · have hsame : d.nameDevice answer hostname = d := by
      rw [Device.nameDevice, appIdentityDeviceId]
      simp only [hlooked, if_true]
    rwa [hsame]
  obtain ⟨hw, hhanded⟩ := hok.resolve_left hlooked
  have hone : FromOne d.succeeded (d.stored ++ d.handed) := (h.whole hw).mono (by
    refine List.append_subset.2 ⟨List.subset_append_left _ _, ?_⟩
    rw [Device.current, hhanded, if_neg Bool.false_ne_true]
    exact List.subset_append_of_subset_right _ (List.subset_append_left _ _))
    (List.Subset.refl _)
  have hid : (d.nameDevice answer hostname).idFrom ⊆ d.stored ++ d.handed :=
    List.subset_append_of_subset_left _ (idFrom_nameDevice_subset hlooked answer hostname)
  refine ⟨hone.mono (List.append_subset.2 ⟨List.subset_append_right _ _, hid⟩)
    (List.Subset.refl _), fun _ ↦ hone.mono (List.append_subset.2
      ⟨List.subset_append_left _ _, List.append_subset.2 ⟨?_, ?_⟩⟩) (List.Subset.refl _)⟩
  · rw [show (d.nameDevice answer hostname).handedOld = d.handedOld from rfl, hhanded]
    exact List.subset_append_right _ _
  · split
    · exact List.nil_subset _
    · exact hid

theorem deviceInv_reboot (h : DeviceInv d) : DeviceInv d.reboot := by
  refine ⟨fromOne_nil _, fun hw ↦ (h.whole hw).mono ?_ (List.Subset.refl _)⟩
  exact List.append_subset.2 ⟨List.subset_append_left _ _, List.nil_subset _⟩

section Store

variable {answer : SettingsAnswer} {c : ProvC8y}

theorem Device.store_storeBundle (key : String) : (d.storeBundle answer c).store key =
    (written (provC8yStore answer c).2 key).or (d.store key) := rfl

theorem Device.writer_storeBundle (key : String) : (d.storeBundle answer c).writer key =
    if (written (provC8yStore answer c).2 key).isSome then d.stores else d.writer key := rfl

theorem Device.succeeded_storeBundle : (d.storeBundle answer c).succeeded =
    if (provC8yStore answer c).1 = 0 then d.stores :: d.succeeded else d.succeeded := rfl

theorem Device.whole_storeBundle : (d.storeBundle answer c).whole =
    if writesAny (provC8yStore answer c).2 then decide (answer.Takes c ∧ d.Replaced c)
    else d.whole := rfl

/-- After a write, what has been used is older. -/
theorem older_of_write (old wrote : Bool) (used : List ℕ) :
    (if old || (wrote && decide (used ≠ [])) then [] else used) =
      if wrote then [] else if old then [] else used := by
  cases wrote with
  | false => rw [Bool.false_and, Bool.or_false, if_neg Bool.false_ne_true]
  | true => cases used <;> simp

theorem Device.current_storeBundle : (d.storeBundle answer c).current =
    if writesAny (provC8yStore answer c).2 then [] else d.current := by
  have hhanded := older_of_write d.handedOld (writesAny (provC8yStore answer c).2) d.handed
  have hid := older_of_write d.idOld (writesAny (provC8yStore answer c).2) d.idFrom
  refine (congrArg₂ (· ++ ·) hhanded hid).trans ?_
  split
  · rfl
  · rfl

/-- A bundle of which nothing is written leaves what is stored as it was. -/
theorem stored_storeBundle_of_none
    (hnone : ∀ f : C8yField, written (provC8yStore answer c).2 f.key = none) :
    (d.storeBundle answer c).stored = d.stored := by
  simp only [Device.stored, Device.store_storeBundle, Device.writer_storeBundle, hnone,
    Option.none_or, Option.isSome_none, if_neg Bool.false_ne_true]

/-- After a bundle that replaces all of the store, all of the store is from it. -/
theorem stored_storeBundle_of_takes (htakes : answer.Takes c) (hrepl : d.Replaced c) :
    ∀ m ∈ (d.storeBundle answer c).stored, m = d.stores := by
  intro m hm
  obtain ⟨f, ⟨hne, hf⟩, rfl⟩ := Device.mem_stored.1 hm
  have hwritten : written (provC8yStore answer c).2 f.key ≠ none := by
    intro hnone
    rw [Device.store_storeBundle, hnone, Option.none_or] at hf
    have hget := hrepl f (mem_usedFields.2 hne) (Option.isSome_iff_ne_none.2 hf)
    exact (provC8yStore_of_takes htakes).2 f hget hnone
  rw [Device.writer_storeBundle, if_pos (Option.isSome_iff_ne_none.2 hwritten)]

theorem succeeded_subset_storeBundle : d.succeeded ⊆ (d.storeBundle answer c).succeeded := by
  rw [Device.succeeded_storeBundle]
  split
  · exact List.subset_cons_self _ _
  · exact List.Subset.refl _

theorem deviceInv_storeBundle (h : DeviceInv d) : DeviceInv (d.storeBundle answer c) := by
  refine ⟨h.oneBundle.mono (List.Subset.refl _) succeeded_subset_storeBundle, ?_⟩
  rw [Device.whole_storeBundle, Device.current_storeBundle]
  by_cases hwrote : writesAny (provC8yStore answer c).2 = true
  · rw [if_pos hwrote, if_pos hwrote, decide_eq_true_iff, List.append_nil]
    rintro ⟨htakes, hrepl⟩
    have hnew : d.stores ∈ (d.storeBundle answer c).succeeded := by
      rw [Device.succeeded_storeBundle, if_pos (provC8yStore_of_takes htakes).1]
      exact List.mem_cons_self
    exact fromOne_of_forall_eq hnew (stored_storeBundle_of_takes htakes hrepl)
  · -- nothing is written: only the calls are counted on
    have hnone : ∀ f : C8yField, written (provC8yStore answer c).2 f.key = none := fun f ↦
      not_not.1 fun hf ↦ hwrote (writesAny_iff.2 ⟨f, hf⟩)
    rw [if_neg hwrote, if_neg hwrote, stored_storeBundle_of_none hnone]
    exact fun hw ↦ (h.whole hw).mono (List.Subset.refl _) succeeded_subset_storeBundle

end Store

/-- One step. -/
theorem deviceInv_step {d' : Device} {a : DeviceAction} (h : DeviceInv d) (hok : UsesWhole d a)
    (hstep : deviceStep d a = some d') : DeviceInv d' := by
  cases a with
  | store answer c =>
    cases hstep
    exact deviceInv_storeBundle h
  | handoff answer =>
    cases hstep
    exact deviceInv_handOver h hok.1 hok.2 answer
  | deviceId answer hostname =>
    cases hstep
    exact deviceInv_nameDevice h hok answer hostname
  | reboot =>
    cases hstep
    exact deviceInv_reboot h

end Steps

/-! ### Runs -/

/-- **Bundles are not mixed** in a run that uses data only when the store holds a bundle whole, and
together with nothing from before that bundle. -/
theorem oneBundle_of_usesWhole {as : List DeviceAction}
    (h : AllSteps deviceStep UsesWhole .blank as) : Throughout deviceStep OneBundle .blank as :=
  (throughout_of_invariant (fun _ _ _ hinv hok hst ↦ deviceInv_step hinv hok hst)
    DeviceInv.blank h).imp fun _ hinv ↦ hinv.oneBundle

/-! ### Two bundles -/

/-- A text in an array of `n` bytes. -/
def areaOf (n : ℕ) (text : String) (h : (ascii text).length ≤ n) : Area n :=
  (Area.zero n).write (ascii text) h

/-- A bundle with all four fields. -/
def fullBundle : ProvC8y where
  url := areaOf 128 "https://a.c8y.io" (by decide)
  tenant := areaOf 32 "t100" (by decide)
  externalId := areaOf 64 "dev-1" (by decide)
  otp := areaOf 65 "secret" (by decide)

/-- A bundle that names another tenant and sends nothing else. -/
def urlBundle : ProvC8y where
  url := areaOf 128 "https://b.c8y.io" (by decide)
  tenant := .zero 32
  externalId := .zero 64
  otp := .zero 65

/-- The settings subsystem stores everything. -/
def storesAll : SettingsAnswer := ⟨0, fun _ ↦ 0⟩

/-- The settings subsystem delivers everything. -/
def loadsAll : LoadAnswer := ⟨0, fun _ ↦ 200⟩

/-- The client takes everything. -/
def clientAccepts : HandoffAnswer := ⟨loadsAll, fun _ ↦ 0, fun _ ↦ 0, fun _ ↦ 0⟩

/-- The client refuses the tenant. -/
def clientRefuses : HandoffAnswer := ⟨loadsAll, fun _ ↦ -22, fun _ ↦ 0, fun _ ↦ 0⟩

/-- The first bundle is taken over and the next one, which has all that is left, as well. -/
theorem oneBundle_of_usesWhole_twice :
    Throughout deviceStep OneBundle .blank
      [.store storesAll fullBundle, .reboot, .deviceId loadsAll [], .handoff clientAccepts,
        .reboot, .store storesAll fullBundle, .reboot, .deviceId loadsAll [],
        .handoff clientRefuses, .reboot, .deviceId loadsAll [], .handoff clientAccepts] :=
  oneBundle_of_usesWhole (by decide)

/-- **A password outlives its bundle**: the client refuses the first tenant, the device is given
another one without a password, and the handoff sends the new tenant's URL with the password of the
old. -/
theorem not_oneBundle_leftoverPassword :
    ¬ Throughout deviceStep OneBundle .blank
      [.store storesAll fullBundle, .reboot, .handoff clientRefuses, .reboot,
        .store storesAll urlBundle, .reboot, .handoff clientAccepts] := by
  decide

end ThinEdge.Settings
