import Mathlib.Data.List.TakeWhile
import ThinEdge.Lib.Transition
import ThinEdge.Settings.Onboarding

/-!
# The identity record

`lib/common/prov_identity.c`, and `app_prov_identity_update` of `lib/common/prov_handoff.c`: an
application keeps its hostname, its DNS-SD service type and its port in the settings store, for the
Wi-Fi provisioner to announce them. Which application is flashed, and its hostname, change over the
life of a device, and a write to flash may fail.

`announces_throughout`: after any run of updates the provisioner loads exactly the identity of the
last update that returned 0, and an update writes to flash if and only if its identity is another
one, or the record could not be read. A hostname must not be empty: an empty one is written at every
update, and loads as no record.
-/

namespace ThinEdge.Settings

open Bytes Transition

/-! ### The record -/

/-- `struct prov_identity`, with the byte that aligns the port. -/
structure ProvIdentity where
  hostname : Area 33
  service : Area 24
  padding : UInt8
  port : UInt16
  deriving DecidableEq, Repr

namespace ProvIdentity

/-- The struct after `memset` to zero. -/
def zero : ProvIdentity := ⟨.zero 33, .zero 24, 0, 0⟩

/-- The bytes of the struct, as they are saved and compared. -/
def bytes (id : ProvIdentity) : List UInt8 :=
  id.hostname.bytes ++ id.service.bytes ++
    [id.padding, UInt8.ofNat (id.port.toNat % 256), UInt8.ofNat (id.port.toNat / 256)]

/-- `sizeof(struct prov_identity)`. -/
def size : ℕ := 60

/-- The struct with the given bytes. -/
def ofArea (a : Area size) : ProvIdentity where
  hostname := ⟨a.bytes.take 33, by rw [List.length_take, a.length_bytes]; rfl⟩
  service := ⟨(a.bytes.drop 33).take 24, by
    rw [List.length_take, List.length_drop, a.length_bytes]; rfl⟩
  padding := a.bytes.getD 57 0
  port := UInt16.ofNat ((a.bytes.getD 58 0).toNat + 256 * (a.bytes.getD 59 0).toNat)

/-- The last bytes of the texts are NUL. -/
def terminated (id : ProvIdentity) : ProvIdentity :=
  { id with hostname := id.hostname.set 32 0, service := id.service.set 23 0 }

theorem length_bytes (id : ProvIdentity) : id.bytes.length = size := by
  rw [bytes, List.length_append, List.length_append, id.hostname.length_bytes,
    id.service.length_bytes]
  rfl

theorem take_bytes (id : ProvIdentity) : id.bytes.take 33 = id.hostname.bytes := by
  rw [bytes, List.append_assoc, List.take_left' id.hostname.length_bytes]

theorem drop_bytes (id : ProvIdentity) : (id.bytes.drop 33).take 24 = id.service.bytes := by
  rw [bytes, List.append_assoc, List.drop_left' id.hostname.length_bytes,
    List.take_left' id.service.length_bytes]

/-- The bytes behind the texts. -/
theorem getD_bytes (id : ProvIdentity) (i : ℕ) : id.bytes.getD (57 + i) 0 =
    [id.padding, UInt8.ofNat (id.port.toNat % 256), UInt8.ofNat (id.port.toNat / 256)].getD i
      0 := by
  have hlen : (id.hostname.bytes ++ id.service.bytes).length = 57 := by
    rw [List.length_append, id.hostname.length_bytes, id.service.length_bytes]
  rw [bytes, List.getD_eq_getElem?_getD, List.getD_eq_getElem?_getD,
    List.getElem?_append_right (by omega), hlen, Nat.add_sub_cancel_left]

/-- A record is read back. -/
theorem ofArea_bytes (id : ProvIdentity) : ofArea ⟨id.bytes, id.length_bytes⟩ = id := by
  have hport : UInt16.ofNat ((id.bytes.getD 58 0).toNat + 256 * (id.bytes.getD 59 0).toNat) =
      id.port := by
    have hlt := id.port.toNat_lt
    rw [id.getD_bytes 1, id.getD_bytes 2, ← UInt16.toNat_inj, UInt16.toNat_ofNat']
    simp only [List.getD_cons_succ, List.getD_cons_zero, UInt8.toNat_ofNat']
    omega
  simp only [ofArea, take_bytes, drop_bytes, hport, id.getD_bytes 0, List.getD_cons_zero]

end ProvIdentity

/-! ### Loading and storing -/

/-- `IDENTITY_KEY`. -/
def identityKey : String := "prov/ident"

/-- `load_cb` over what is stored below the key: a value of another size is ignored, and of any
other as much is read as `read_cb` gives. -/
def identityLoadCb (value : List UInt8) (got : ℤ) : ProvIdentity :=
  if h : value.length = ProvIdentity.size then
    .ofArea ((Area.zero ProvIdentity.size).write (value.take got.toNat)
      (by rw [List.length_take, h]; exact Nat.min_le_right _ _))
  else .zero

/-- The struct after `settings_load_subtree_direct`. -/
def loadedIdentity (answer : LoadAnswer) (store : Store) : ProvIdentity :=
  match store identityKey with
  | some value => identityLoadCb value (answer.read identityKey)
  | none => .zero

/-- A record has no hostname. -/
def ProvIdentity.Nameless (id : ProvIdentity) : Prop := id.hostname.bytes.headD 0 = 0

instance (id : ProvIdentity) : Decidable id.Nameless := inferInstanceAs (Decidable (_ = _))

/-- `prov_identity_load`: its result and the struct. -/
def provIdentityLoad (answer : LoadAnswer) (store : Store) : ℤ × ProvIdentity :=
  if answer.init ≠ 0 then (enoent, .zero)
  else if (loadedIdentity answer store).Nameless then (enoent, loadedIdentity answer store)
  else (0, (loadedIdentity answer store).terminated)

/-- `prov_identity_store`: its result and the write it makes, which `settings_save_one` answers with
`save`. -/
def provIdentityStore (answer : LoadAnswer) (save : ℤ) (store : Store) (id : ProvIdentity) :
    ℤ × List SettingsCall :=
  let (rc, cur) := provIdentityLoad answer store
  if rc = 0 ∧ cur = id then (0, []) else (save, [.saveOne identityKey id.bytes save])

/-- What an application is: its hostname, its service type and its port. -/
structure AppIdentity where
  hostname : List UInt8
  service : List UInt8
  port : UInt16
  deriving DecidableEq, Repr

/-- `strncpy` of a text of at most `n` bytes into an array of `n + 1` that is zero. -/
def strncpyZero (n : ℕ) (text : List UInt8) : Area (n + 1) :=
  (Area.zero (n + 1)).write ((text.takeWhile (· ≠ 0)).take n) (by
    rw [List.length_take]
    omega)

/-- The record that `app_prov_identity_update` stores. -/
def AppIdentity.record (app : AppIdentity) : ProvIdentity :=
  ⟨strncpyZero 32 app.hostname, strncpyZero 23 app.service, 0, app.port⟩

/-! ### What is loaded -/

/-- `read_cb` reads the whole value, or nothing. -/
def LoadAnswer.ReadsWhole (answer : LoadAnswer) (store : Store) : Prop :=
  ∀ value ∈ store identityKey,
    answer.read identityKey ≤ 0 ∨ answer.read identityKey = value.length

/-- The settings subsystem starts, and the whole value is read. -/
def LoadAnswer.Works (answer : LoadAnswer) (store : Store) : Prop :=
  answer.init = 0 ∧ ∀ value ∈ store identityKey, answer.read identityKey = value.length

instance (answer : LoadAnswer) (store : Store) : Decidable (answer.ReadsWhole store) :=
  inferInstanceAs (Decidable (∀ value ∈ store identityKey, _))

instance (answer : LoadAnswer) (store : Store) : Decidable (answer.Works store) :=
  inferInstanceAs (Decidable (_ ∧ ∀ value ∈ store identityKey, _))

/-- The stored value is a record that is read as `id`. -/
def Holds (store : Store) (id : ProvIdentity) : Prop :=
  ∃ r : ProvIdentity, store identityKey = some r.bytes ∧ r.terminated = id

variable {answer : LoadAnswer} {store : Store} {id r : ProvIdentity} {value : List UInt8} {n : ℕ}

/-- Another byte at the end leaves the first one. -/
theorem nameless_terminated : id.terminated.Nameless ↔ id.Nameless := by
  obtain ⟨⟨h, hh⟩, s, padding, port⟩ := id
  rcases h with - | ⟨b, h⟩
  · exact absurd hh (by decide)
  · exact Iff.rfl

/-- Every value of the struct's size is a record. -/
theorem exists_bytes (h : value.length = ProvIdentity.size) :
    ∃ r : ProvIdentity, r.bytes = value ∧ .ofArea ⟨value, h⟩ = r := by
  refine ⟨_, ?_, rfl⟩
  have hlen : value.length = 60 := h
  have hport : ((value.getD 58 0).toNat + 256 * (value.getD 59 0).toNat) < 65536 := by
    have h58 := (value.getD 58 0).toNat_lt
    have h59 := (value.getD 59 0).toNat_lt
    omega
  have htail : value.drop 57 = [value.getD 57 0, value.getD 58 0, value.getD 59 0] := by
    have hget : ∀ i, value.getD (57 + i) 0 = (value.drop 57).getD i 0 := fun i ↦ by
      rw [List.getD_eq_getElem?_getD, List.getD_eq_getElem?_getD, List.getElem?_drop]
    rw [show value.getD 57 0 = _ from hget 0, show value.getD 58 0 = _ from hget 1,
      show value.getD 59 0 = _ from hget 2]
    obtain ⟨a, b, c, hdrop⟩ : ∃ a b c, value.drop 57 = [a, b, c] :=
      List.length_eq_three.1 (by rw [List.length_drop, hlen])
    rw [hdrop]
    rfl
  have hlow : UInt8.ofNat (((value.getD 58 0).toNat + 256 * (value.getD 59 0).toNat) % 256) =
      value.getD 58 0 := by
    rw [Nat.add_mul_mod_self_left, Nat.mod_eq_of_lt (UInt8.toNat_lt _), UInt8.ofNat_toNat]
  have hhigh : UInt8.ofNat (((value.getD 58 0).toNat + 256 * (value.getD 59 0).toNat) / 256) =
      value.getD 59 0 := by
    rw [Nat.add_mul_div_left _ _ (by decide), Nat.div_eq_of_lt (UInt8.toNat_lt _), Nat.zero_add,
      UInt8.ofNat_toNat]
  rw [ProvIdentity.bytes, ProvIdentity.ofArea]
  dsimp only
  rw [UInt16.toNat_ofNat_of_lt' hport, hlow, hhigh, ← htail,
    show value.drop 57 = (value.drop 33).drop 24 by rw [List.drop_drop], List.append_assoc,
    List.take_append_drop, List.take_append_drop]

theorem identityLoadCb_whole (r : ProvIdentity) : identityLoadCb r.bytes r.bytes.length = r := by
  rw [identityLoadCb, dif_pos r.length_bytes]
  have hread : (Area.zero ProvIdentity.size).write (r.bytes.take (r.bytes.length : ℤ).toNat)
      (Nat.le_of_eq (by rw [Int.toNat_natCast, List.take_length, r.length_bytes])) =
        ⟨r.bytes, r.length_bytes⟩ := by
    rw [Area.write, Area.mk.injEq, Int.toNat_natCast, List.take_length, overwrite, Area.zero,
      List.drop_replicate, r.length_bytes, Nat.sub_self, List.replicate_zero, List.append_nil]
  rw [hread, ProvIdentity.ofArea_bytes]

/-- Without a value that is read whole there is no record. -/
theorem nameless_identityLoadCb {got : ℤ}
    (h : got ≤ 0 ∨ value.length ≠ ProvIdentity.size) : (identityLoadCb value got).Nameless := by
  rw [identityLoadCb]
  split
  · next hlen =>
    rcases h with h | h
    · have hnil : value.take got.toNat = [] := by rw [Int.toNat_of_nonpos h, List.take_zero]
      have harea : ∀ h', (Area.zero ProvIdentity.size).write (value.take got.toNat) h' =
          Area.zero ProvIdentity.size := fun h' ↦ by
        rw [Area.write, Area.mk.injEq, hnil]
        rfl
      rw [harea]
      decide
    · exact absurd hlen h
  · decide

/-- **What is loaded**: no record, or the one that the store holds. -/
theorem provIdentityLoad_cases (h : answer.ReadsWhole store) :
    (provIdentityLoad answer store).1 = enoent ∨
      ∃ id, provIdentityLoad answer store = (0, id) ∧ answer.Works store ∧ Holds store id ∧
        ¬ id.Nameless := by
  rw [provIdentityLoad]
  split
  · exact Or.inl rfl
  next hinit =>
  split
  · exact Or.inl rfl
  next hname =>
  rw [loadedIdentity] at hname
  rcases hval : store identityKey with - | value
  · rw [hval] at hname
    exact absurd (show ProvIdentity.zero.Nameless by decide) hname
  · simp only [hval] at hname
    have hread : answer.read identityKey = value.length :=
      (h value hval).resolve_left fun hle ↦ hname (nameless_identityLoadCb (Or.inl hle))
    have hlen : value.length = ProvIdentity.size := by
      by_contra hne
      exact hname (nameless_identityLoadCb (Or.inr hne))
    obtain ⟨r, rfl, -⟩ := exists_bytes hlen
    rw [hread, identityLoadCb_whole] at hname
    have hloaded : loadedIdentity answer store = r := by
      rw [loadedIdentity, hval]
      dsimp only
      rw [hread, identityLoadCb_whole]
    refine Or.inr ⟨r.terminated, by rw [hloaded], ⟨not_not.1 hinit, fun v hv ↦ ?_⟩,
      ⟨r, hval, rfl⟩, mt nameless_terminated.1 hname⟩
    obtain rfl : r.bytes = v := Option.some.inj (hval.symm.trans hv)
    exact hread

/-- A record that the store holds is loaded, if it has a hostname. -/
theorem provIdentityLoad_of_holds (hworks : answer.Works store) (h : Holds store id) :
    if id.Nameless then (provIdentityLoad answer store).1 = enoent
    else provIdentityLoad answer store = (0, id) := by
  obtain ⟨r, hval, rfl⟩ := h
  have hloaded : loadedIdentity answer store = r := by
    rw [loadedIdentity, hval]
    dsimp only
    rw [hworks.2 r.bytes hval, identityLoadCb_whole]
  rw [provIdentityLoad, if_neg (not_not.2 hworks.1), hloaded]
  split
  · next hno => exact congrArg Prod.fst (if_pos (nameless_terminated.1 hno))
  · next hname => exact if_neg (mt nameless_terminated.2 hname)

/-! ### What an application stores -/

theorem cstr_strncpyZero (text : List UInt8) :
    (strncpyZero n text).cstr = (text.takeWhile (· ≠ 0)).take n := by
  have hlen : ((text.takeWhile (· ≠ 0)).take n).length ≤ n := List.length_take_le _ _
  have hno : ∀ b ∈ (text.takeWhile (· ≠ 0)).take n, (decide (b ≠ 0)) = true := fun b hb ↦ by
    have := List.mem_takeWhile_imp (List.mem_of_mem_take hb)
    exact this
  have hrest : (Area.zero (n + 1)).bytes.drop ((text.takeWhile (· ≠ 0)).take n).length =
      0 :: List.replicate (n - ((text.takeWhile (· ≠ 0)).take n).length) 0 := by
    rw [Area.zero, List.drop_replicate, ← List.replicate_succ]
    congr 1
    omega
  rw [strncpyZero, Area.cstr, Area.write]
  dsimp only
  rw [overwrite, hrest, takeWhile_append_nul]
  exact List.takeWhile_eq_self_iff.2 hno

/-- The copy ends with a NUL already. -/
theorem strncpyZero_set (text : List UInt8) :
    (strncpyZero n text).set n 0 = strncpyZero n text := by
  have hlen : ((text.takeWhile (· ≠ 0)).take n).length ≤ n := List.length_take_le _ _
  rw [Area.set, strncpyZero, Area.write, Area.mk.injEq]
  dsimp only
  rw [overwrite, Area.zero, List.drop_replicate, List.set_append_right _ _ hlen,
    List.set_replicate_self]

theorem AppIdentity.terminated_record (app : AppIdentity) : app.record.terminated = app.record := by
  rw [ProvIdentity.terminated, record, ProvIdentity.mk.injEq]
  exact ⟨strncpyZero_set (n := 32) _, strncpyZero_set (n := 23) _, rfl, rfl⟩

/-- A record has no hostname when the application has none. -/
theorem AppIdentity.nameless_record (app : AppIdentity) :
    app.record.Nameless ↔ app.hostname.takeWhile (· ≠ 0) = [] := by
  rw [ProvIdentity.Nameless, record, strncpyZero, Area.write]
  dsimp only
  rcases hh : app.hostname.takeWhile (· ≠ 0) with - | ⟨b, rest⟩
  · rw [hh]
    exact iff_of_true rfl rfl
  · rw [hh]
    have hb : b ≠ 0 := by
      have := List.mem_takeWhile_imp (hh ▸ List.mem_cons_self : b ∈ app.hostname.takeWhile (· ≠ 0))
      simpa using this
    exact iff_of_false (fun h ↦ hb h) (List.cons_ne_nil _ _)

/-! ### Runs -/

/-- What happens to the settings store. -/
inductive IdentityAction
  /-- `app_prov_identity_update`: loading is answered with `answer`, and a write with `save`. -/
  | update (app : AppIdentity) (answer : LoadAnswer) (save : ℤ)
  /-- Something else is written or deleted. -/
  | other (key : String) (value : Option (List UInt8))

/-- The settings store, and which application's update has returned 0 last. -/
structure IdentityRun where
  store : Store
  announced : Option AppIdentity

/-- One step; nobody else writes below the key of the record. -/
def identityStep (s : IdentityRun) : IdentityAction → Option IdentityRun
  | .update app answer save =>
    let (rc, calls) := provIdentityStore answer save s.store app.record
    some
      { store := fun key ↦ (written calls key).or (s.store key)
        announced := if rc = 0 then some app else s.announced }
  | .other key value =>
    if key = identityKey then none
    else some { s with store := fun k ↦ if k = key then value else s.store k }

/-- An update reads the record whole, or not at all. -/
def ReadsRecord (s : IdentityRun) : IdentityAction → Prop
  | .update _ answer _ => answer.ReadsWhole s.store
  | .other _ _ => True

instance (s : IdentityRun) : (a : IdentityAction) → Decidable (ReadsRecord s a)
  | .update _ answer _ => inferInstanceAs (Decidable (answer.ReadsWhole s.store))
  | .other _ _ => isTrue trivial

/-- The provisioner announces the application whose update has returned 0 last, and another update
writes to flash unless it has nothing new. -/
structure Announces (s : IdentityRun) : Prop where
  loads : ∀ app ∈ s.announced, app.hostname.takeWhile (· ≠ 0) ≠ [] → ∀ answer : LoadAnswer,
    answer.Works s.store → ∃ id, provIdentityLoad answer s.store = (0, id) ∧
      id.hostname.cstr = (app.hostname.takeWhile (· ≠ 0)).take 32 ∧
      id.service.cstr = (app.service.takeWhile (· ≠ 0)).take 23 ∧ id.port = app.port
  writes : ∀ app ∈ s.announced, ∀ (next : AppIdentity) (answer : LoadAnswer) (save : ℤ),
    answer.ReadsWhole s.store →
      ((provIdentityStore answer save s.store next.record).2 = [] ↔
        next.record = app.record ∧ next.hostname.takeWhile (· ≠ 0) ≠ [] ∧ answer.Works s.store)

/-- The store holds the record of the application that was stored last. -/
def IdentityInv (s : IdentityRun) : Prop := ∀ app ∈ s.announced, Holds s.store app.record

theorem IdentityInv.announces {s : IdentityRun} (h : IdentityInv s) : Announces s := by
  refine ⟨fun app happ hname answer hworks ↦ ?_, fun app happ next answer save hreads ↦ ?_⟩
  · have hload := provIdentityLoad_of_holds hworks (h app happ)
    rw [if_neg (mt app.nameless_record.1 hname)] at hload
    exact ⟨app.record, hload, cstr_strncpyZero _, cstr_strncpyZero _, rfl⟩
  · rw [provIdentityStore]
    rcases provIdentityLoad_cases hreads with hno | ⟨id, hload, hworks, hholds, hnamed⟩
    · dsimp only
      rw [hno, if_neg fun hp ↦ absurd hp.1 (show enoent ≠ 0 by decide)]
      refine iff_of_false (List.cons_ne_nil _ _) fun ⟨heq, hname, hworks⟩ ↦ ?_
      have hload := provIdentityLoad_of_holds hworks (h app happ)
      rw [← heq, if_neg (mt next.nameless_record.1 hname)] at hload
      exact absurd ((congrArg Prod.fst hload).symm.trans hno) (show (0 : ℤ) ≠ enoent by decide)
    · -- what is loaded is the record of `app`
      have happ := provIdentityLoad_of_holds hworks (h app happ)
      have hid : id = app.record := by
        split at happ
        · exact absurd ((congrArg Prod.fst hload).symm.trans happ) (show (0 : ℤ) ≠ enoent by decide)
        · exact congrArg Prod.snd (hload.symm.trans happ)
      rw [hload]
      dsimp only
      rcases Decidable.em (id = next.record) with heq | hne
      · rw [if_pos ⟨rfl, heq⟩]
        refine iff_of_true rfl ⟨heq.symm.trans hid, ?_, hworks⟩
        exact mt next.nameless_record.2 (heq ▸ hnamed)
      · rw [if_neg fun hp ↦ hne hp.2]
        exact iff_of_false (List.cons_ne_nil _ _) fun hp ↦ hne (hid.trans hp.1.symm)

/-- An update writes nothing when the store holds its record, and else it writes it. -/
theorem provIdentityStore_cases (h : answer.ReadsWhole store) (save : ℤ) (id : ProvIdentity) :
    provIdentityStore answer save store id = (0, []) ∧ Holds store id ∨
      provIdentityStore answer save store id = (save, [.saveOne identityKey id.bytes save]) := by
  rw [provIdentityStore]
  rcases provIdentityLoad_cases h with hno | ⟨cur, hload, -, hholds, -⟩
  · dsimp only
    rw [hno, if_neg fun hp ↦ absurd hp.1 (show enoent ≠ 0 by decide)]
    exact Or.inr rfl
  · rw [hload]
    dsimp only
    rcases Decidable.em (cur = id) with rfl | hne
    · exact Or.inl ⟨if_pos ⟨rfl, rfl⟩, hholds⟩
    · exact Or.inr (if_neg fun hp ↦ hne hp.2)

/-- **The step lemma.** -/
theorem IdentityInv.step {s t : IdentityRun} {a : IdentityAction} (h : IdentityInv s)
    (hok : ReadsRecord s a) (hst : identityStep s a = some t) : IdentityInv t := by
  cases a with
  | update app answer save =>
    rw [identityStep] at hst
    rcases provIdentityStore_cases hok save app.record with ⟨hcalls, hholds⟩ | hcalls
    · rw [hcalls] at hst
      obtain rfl := Option.some.inj hst
      intro app' happ'
      obtain rfl : app = app' := Option.some.inj happ'
      exact hholds
    · rw [hcalls] at hst
      obtain rfl := Option.some.inj hst
      intro app' happ'
      dsimp only at happ'
      rcases Decidable.em (save = 0) with hsave | hsave
      · rw [if_pos hsave] at happ'
        obtain rfl : app = app' := Option.some.inj happ'
        refine ⟨app.record, ?_, app.terminated_record⟩
        dsimp only
        rw [written_cons, SettingsCall.saved, if_pos ⟨rfl, hsave⟩]
        rfl
      · rw [if_neg hsave] at happ'
        obtain ⟨r, hval, hr⟩ := h app' happ'
        refine ⟨r, ?_, hr⟩
        dsimp only
        rw [written_cons, SettingsCall.saved, if_neg fun hp ↦ hsave hp.2]
        exact hval
  | other key value =>
    simp only [identityStep, Option.ite_none_left_eq_some, Option.some.injEq] at hst
    obtain ⟨hkey, rfl⟩ := hst
    intro app happ
    obtain ⟨r, hval, hr⟩ := h app happ
    exact ⟨r, by dsimp only; rw [if_neg (Ne.symm hkey), hval], hr⟩

/-- **What the provisioner announces**, over any run of updates and other writes. -/
theorem announces_throughout (store : Store) (as : List IdentityAction)
    (h : AllSteps identityStep ReadsRecord ⟨store, none⟩ as) :
    Throughout identityStep Announces ⟨store, none⟩ as := by
  have h0 : IdentityInv ⟨store, none⟩ := fun _ happ ↦ absurd happ (Option.not_mem_none _)
  exact (throughout_of_invariant (fun _ _ _ hs hok hst ↦ IdentityInv.step hs hok hst) h0 h).imp
    fun _ hs ↦ hs.announces

/-- The settings subsystem starts and reads `size` bytes. -/
def readsRecord : LoadAnswer := ⟨0, fun _ ↦ 60⟩

/-- A device that is flashed with two applications, one after the other; the second write of the
first one fails. -/
def twoApplications : List IdentityAction :=
  let modbus : AppIdentity := ⟨ascii "pump-1", ascii "_modbus", 502⟩
  let snmp : AppIdentity := ⟨ascii "switch-1", ascii "_snmp", 161⟩
  [.update modbus readsRecord 0, .update modbus readsRecord (-5), .other "wifi/ssid" none,
    .update snmp readsRecord (-5), .update snmp readsRecord 0]

theorem announces_twoApplications :
    Throughout identityStep Announces ⟨fun _ ↦ none, none⟩ twoApplications :=
  announces_throughout _ _ (by decide)

end ThinEdge.Settings
