import ThinEdge.Provisioner.ZtpIni
import ThinEdge.Settings.Onboarding

/-!
# Zero-touch provisioning: the Cumulocity settings

What becomes of the values of a `c8y.v2` body on their way to the application: `c8y_stage` copies
them by their length, `prov_c8y_store` saves them up to their first NUL, and `prov_c8y_load` reads
them back.

`loaded_of_accepted` follows a value through all of it. By `keepsValues_iff` the values arrive as
they were given exactly if none of them contains a NUL.
-/

namespace ThinEdge.Provisioner

open Bytes Settings

/-! ### What a body gives -/

/-- The key of a field in a body. -/
def iniKey : C8yField → List UInt8
  | .url => ascii "url"
  | .tenant => ascii "tenant"
  | .externalId => ascii "external_id"
  | .otp => ascii "one_time_password"

/-- The size of a field. -/
def fieldSize : C8yField → ℕ
  | .url => 128
  | .tenant => 32
  | .externalId => 64
  | .otp => 65

/-- The records in the `[c8y]` sections. -/
def c8yRecords (p : List UInt8) : List ZtpKv :=
  ((iniSections p).filter (·.name = ascii "c8y")).flatMap IniSection.records

/-- The value given for a field: the last one, or none at all. -/
def given (p : List UInt8) (f : C8yField) : List UInt8 := (lastOf (iniKey f) (c8yRecords p)).getD []

/-- The values that an empty store has after the commit, as `prov_c8y_load` returns them, are those
that were given. -/
def KeepsValues (p : List UInt8) (save : SettingsAnswer) (load : LoadAnswer) : Prop :=
  let store := written (provC8yStore save (c8yStage p).2).2
  (provC8yLoad load store).1 = 0 ∧ ∀ f, (provC8yLoad load store).2.get f = given p f

/-! ### Staging -/

variable {c c' : ProvC8y} {kv : ZtpKv} {f : C8yField} {p v : List UInt8} {rs : List ZtpKv}

theorem iniKey_injective {g : C8yField} (h : iniKey f = iniKey g) : f = g := by
  revert h
  cases f <;> cases g <;> decide

theorem copyVal_eq_some {n : ℕ} {dst a : Area n} {k : Fin n} (h : copyVal dst v = some (a, k)) :
    v.length < n ∧ a.cstr = v.takeWhile (· ≠ 0) := by
  rw [copyVal] at h
  split at h
  · next hlen =>
    obtain ⟨rfl, -⟩ := Prod.mk.inj (Option.some.inj h)
    exact ⟨hlen, Area.cstr_write_nul _ _ _⟩
  · exact absurd h (by simp)

/-- The struct with the value of a field, when it fits. -/
def putField (c : ProvC8y) (v : List UInt8) : C8yField → Option ProvC8y
  | .url => (copyVal c.url v).map fun r ↦ { c with url := r.1 }
  | .tenant => (copyVal c.tenant v).map fun r ↦ { c with tenant := r.1 }
  | .externalId => (copyVal c.externalId v).map fun r ↦ { c with externalId := r.1 }
  | .otp => (copyVal c.otp v).map fun r ↦ { c with otp := r.1 }

theorem putField_eq_some (h : putField c v f = some c') : v.length < fieldSize f ∧
    ∀ g, c'.get g = if g = f then v.takeWhile (· ≠ 0) else c.get g := by
  cases f <;> rw [putField] at h
  all_goals
    obtain ⟨⟨a, k⟩, hcopy, rfl⟩ := Option.map_eq_some_iff.1 h
    obtain ⟨hlen, hcstr⟩ := copyVal_eq_some hcopy
    refine ⟨hlen, fun g ↦ ?_⟩
    cases g <;> first | exact hcstr | rfl

/-- A record of a field. -/
theorem c8yIni_of_key (h : kv.key = iniKey f) : c8yIni (ascii "c8y") (some kv) c =
    (putField c kv.val f).elim (e2big, c) fun c' ↦ (0, c') := by
  have hne : ∀ g, g ≠ f → ¬ kv.key = iniKey g := fun g hg hkey ↦
    hg (iniKey_injective (hkey.symm.trans h))
  rw [c8yIni]
  dsimp only
  rw [if_neg (not_not.2 rfl)]
  show (if kv.key = iniKey .url then _ else if kv.key = iniKey .tenant then _
    else if kv.key = iniKey .externalId then _ else if kv.key = iniKey .otp then _ else _) = _
  cases f with
  | url =>
    rw [if_pos h, putField]
    cases copyVal c.url kv.val <;> rfl
  | tenant =>
    rw [if_neg (hne .url (by decide)), if_pos h, putField]
    cases copyVal c.tenant kv.val <;> rfl
  | externalId =>
    rw [if_neg (hne .url (by decide)), if_neg (hne .tenant (by decide)), if_pos h, putField]
    cases copyVal c.externalId kv.val <;> rfl
  | otp =>
    rw [if_neg (hne .url (by decide)), if_neg (hne .tenant (by decide)),
      if_neg (hne .externalId (by decide)), if_pos h, putField]
    cases copyVal c.otp kv.val <;> rfl

/-- A record of no field. -/
theorem c8yIni_of_not_key (h : ∀ f, kv.key ≠ iniKey f) :
    c8yIni (ascii "c8y") (some kv) c = (0, c) := by
  rw [c8yIni]
  dsimp only
  rw [if_neg (not_not.2 rfl)]
  show (if kv.key = iniKey .url then _ else if kv.key = iniKey .tenant then _
    else if kv.key = iniKey .externalId then _ else if kv.key = iniKey .otp then _ else _) = _
  rw [if_neg (h .url), if_neg (h .tenant), if_neg (h .externalId), if_neg (h .otp)]

/-- The struct holds of each field what the records give, up to the first NUL. -/
def HoldsValues (c : ProvC8y) (rs : List ZtpKv) : Prop :=
  ∀ f, c.get f = ((lastOf (iniKey f) rs).getD []).takeWhile (· ≠ 0) ∧
    (c.get f).length < fieldSize f

theorem holdsValues_zero : HoldsValues .zero [] := by
  intro f
  cases f <;> exact ⟨cstr_zero _, Nat.lt_of_le_of_lt (Nat.le_of_eq (congrArg _ (cstr_zero _)))
    (by decide)⟩

/-- One more record. -/
theorem HoldsValues.record (h : HoldsValues c rs)
    (hcall : c8yIni (ascii "c8y") (some kv) c = (0, c')) : HoldsValues c' (rs ++ [kv]) := by
  intro g
  rw [lastOf_append]
  rcases Classical.em (∃ f, kv.key = iniKey f) with ⟨f, hf⟩ | hnone
  · rw [c8yIni_of_key hf] at hcall
    cases hput : putField c kv.val f with
    | none =>
      rw [hput] at hcall
      exact absurd (Prod.mk.inj hcall).1 (by decide)
    | some c'' =>
      rw [hput] at hcall
      obtain rfl : c'' = c' := (Prod.mk.inj hcall).2
      obtain ⟨hlen, hget⟩ := putField_eq_some hput
      rw [hget g]
      rcases Decidable.em (g = f) with rfl | hg
      · rw [if_pos rfl, if_pos hf]
        exact ⟨rfl, Nat.lt_of_le_of_lt (List.takeWhile_prefix _).length_le hlen⟩
      · rw [if_neg hg, if_neg fun hkey ↦ hg (iniKey_injective (hkey.symm.trans hf))]
        exact h g
  · have hkey : ∀ f, kv.key ≠ iniKey f := fun f hf ↦ hnone ⟨f, hf⟩
    rw [c8yIni_of_not_key hkey] at hcall
    obtain rfl := (Prod.mk.inj hcall).2
    rw [if_neg (hkey g)]
    exact h g

/-- The record of a call, when it is in a `[c8y]` section. -/
def callRecord (call : List UInt8 × Option ZtpKv) : List ZtpKv :=
  if call.1 = ascii "c8y" then call.2.toList else []

theorem HoldsValues.calls {calls : List (List UInt8 × Option ZtpKv)} (h : HoldsValues c rs)
    (hrun : calls.foldlM (iniCall c8yIni) c = .ok c') :
    HoldsValues c' (rs ++ calls.flatMap callRecord) := by
  induction calls generalizing c rs with
  | nil =>
    obtain rfl : c = c' := Except.ok.inj hrun
    rwa [List.flatMap_nil, List.append_nil]
  | cons call calls ih =>
    rcases Reader.foldlM_cons_cases (iniCall c8yIni) c call calls with
      ⟨e, -, hfold⟩ | ⟨c₁, hcall, hfold⟩
    · exact absurd (hfold.symm.trans hrun) (by simp)
    rw [List.flatMap_cons, ← List.append_assoc]
    refine ih ?_ (hfold.symm.trans hrun)
    obtain ⟨name, kv⟩ := call
    have hpair : c8yIni name kv c = (0, c₁) := eq_of_iniCall hcall
    rw [callRecord]
    dsimp only
    cases kv with
    | none =>
      obtain rfl : c = c₁ := (Prod.mk.inj hpair).2
      rwa [Option.toList_none, ite_self, List.append_nil]
    | some kv =>
      rcases Decidable.em (name = ascii "c8y") with rfl | hname
      · rw [if_pos rfl]
        exact h.record hpair
      · rw [c8yIni] at hpair
        dsimp only at hpair
        rw [if_pos hname] at hpair
        obtain rfl : c = c₁ := (Prod.mk.inj hpair).2
        rwa [if_neg hname, List.append_nil]

theorem flatMap_callRecord (name : List UInt8) (rs : List ZtpKv) :
    (rs.map fun kv ↦ (name, some kv)).flatMap callRecord =
      if name = ascii "c8y" then rs else [] := by
  rw [List.flatMap_map]
  split
  · next hname =>
    have hrec : ∀ kv, callRecord (name, some kv) = [kv] := fun kv ↦ if_pos hname
    simp only [hrec, List.flatMap_singleton']
  · next hname => exact List.flatMap_eq_nil_iff.2 fun kv _ ↦ if_neg hname

/-- The records that the calls bring are those in the `[c8y]` sections. -/
theorem flatMap_callRecord_iniCalls (p : List UInt8) :
    (iniCalls p).flatMap callRecord = c8yRecords p := by
  have hloose : ¬ ([] : List UInt8) = ascii "c8y" := by decide
  rw [iniCalls, IniFile.calls, List.flatMap_append, flatMap_callRecord, if_neg hloose,
    List.nil_append, c8yRecords, iniSections]
  induction (iniFile (lineReader.toList p)).sections with
  | nil => rfl
  | cons sect sections ih =>
    have hnone : callRecord (sect.name, none) = [] := ite_self _
    rw [List.flatMap_cons, List.flatMap_append, ih, IniSection.calls, List.flatMap_cons, hnone,
      List.nil_append, flatMap_callRecord, List.filter_cons]
    split
    · next hname => rw [if_pos (decide_eq_true hname), List.flatMap_cons]
    · next hname => rw [if_neg (by simpa using hname), List.nil_append]

/-- **What is staged** of an accepted body: each value up to its first NUL. -/
theorem holdsValues_of_accepted (h : (c8yStage p).1 = 0) :
    HoldsValues (c8yStage p).2 (c8yRecords p) := by
  rw [c8yStage] at h ⊢
  dsimp only at h ⊢
  rcases Decidable.em ((iniWalk c8yIni p .zero).1 = 0) with hrc | hrc
  · have hheld := holdsValues_zero.calls (foldlM_of_iniWalk hrc)
    rw [List.nil_append, flatMap_callRecord_iniCalls] at hheld
    rw [if_neg (not_not.2 hrc)]
    split <;> exact hheld
  · rw [if_pos hrc] at h
    exact absurd h hrc

/-! ### Saving and loading -/

/-- **What is loaded** after an accepted body was committed to an empty store. -/
theorem loaded_of_accepted {save : SettingsAnswer} {load : LoadAnswer} (h : (c8yStage p).1 = 0)
    (hsave : (provC8yStore save (c8yStage p).2).1 = 0) (hinit : load.init = 0)
    (hread : ∀ key value, written (provC8yStore save (c8yStage p).2).2 key = some value →
      load.read key = value.length) :
    (provC8yLoad load (written (provC8yStore save (c8yStage p).2).2)).1 = 0 ∧
      ∀ f, (provC8yLoad load (written (provC8yStore save (c8yStage p).2).2)).2.get f =
        (given p f).takeWhile (· ≠ 0) := by
  have hheld := holdsValues_of_accepted h
  have hurl : (c8yStage p).2.get .url ≠ [] := url_of_c8yStage h
  generalize (c8yStage p).2 = c at hheld hurl hsave hread ⊢
  obtain ⟨-, hall⟩ := provC8yStore_of_takes (takes_of_provC8yStore hsave)
  have hfield : ∀ f, (loadField load (written (provC8yStore save c).2) f (fieldSize f)).cstr =
      c.get f := by
    intro f
    obtain ⟨hget, hlen⟩ := hheld f
    cases hstored : written (provC8yStore save c).2 f.key with
    | none =>
      rw [cstr_loadField_of_none hstored]
      exact Eq.symm (not_not.1 fun hne ↦ hall f hne hstored)
    | some value =>
      obtain rfl := written_provC8yStore hstored
      rw [cstr_loadField_of_some hstored hlen (hread _ _ hstored), hget]
      exact List.takeWhile_idem
  have hload : ∀ f, (provC8yLoad load (written (provC8yStore save c).2)).2.get f = c.get f := by
    intro f
    rw [provC8yLoad, if_neg (not_not.2 hinit)]
    cases f <;> exact hfield _
  refine ⟨?_, fun f ↦ (hload f).trans (hheld f).1⟩
  rw [provC8yLoad, if_neg (not_not.2 hinit)]
  exact if_pos (Or.inl ((hfield .url).trans_ne hurl))

theorem takeWhile_ne_zero_eq_self_iff : v.takeWhile (· ≠ 0) = v ↔ 0 ∉ v := by
  rw [List.takeWhile_eq_self_iff]
  constructor
  · exact fun h hmem ↦ of_decide_eq_true (h 0 hmem) rfl
  · exact fun h b hb ↦ decide_eq_true fun h0 ↦ h (h0 ▸ hb)

/-- **When the values arrive as they were given**: exactly when none of them contains a NUL. -/
theorem keepsValues_iff (p : List UInt8) (save : SettingsAnswer) (load : LoadAnswer)
    (hstage : (c8yStage p).1 = 0) (hsave : (provC8yStore save (c8yStage p).2).1 = 0)
    (hinit : load.init = 0)
    (hread : ∀ key value, written (provC8yStore save (c8yStage p).2).2 key = some value →
      load.read key = value.length) : KeepsValues p save load ↔ ∀ f, 0 ∉ given p f := by
  obtain ⟨hrc, hget⟩ := loaded_of_accepted hstage hsave hinit hread
  rw [KeepsValues, and_iff_right hrc]
  exact forall_congr' fun f ↦ by rw [hget f, takeWhile_ne_zero_eq_self_iff]

/-- The settings subsystem saves everything. -/
def savesAll : SettingsAnswer := ⟨0, fun _ ↦ 0⟩

/-- It reads back what was saved of a body. -/
def readsBack (p : List UInt8) : LoadAnswer where
  init := 0
  read key := ((written (provC8yStore savesAll (c8yStage p).2).2 key).getD []).length

theorem readsBack_read (p : List UInt8) (key : String) (value : List UInt8)
    (h : written (provC8yStore savesAll (c8yStage p).2).2 key = some value) :
    (readsBack p).read key = value.length := by
  show ((((written _ key).getD []).length : ℕ) : ℤ) = value.length
  rw [h]
  rfl

/-- A URL and a password. -/
def twoValues : List UInt8 := ascii "[c8y]\nurl=https://t.example\none_time_password=secret\n"

theorem keepsValues_twoValues : KeepsValues twoValues savesAll (readsBack twoValues) :=
  (keepsValues_iff twoValues savesAll (readsBack twoValues) (by decide +kernel) (by decide +kernel)
    rfl (readsBack_read twoValues)).2 (by rintro (- | - | - | -) <;> decide +kernel)

/-- A password with a NUL in it. -/
def nulPassword : List UInt8 := ascii "[c8y]\nurl=h\none_time_password=ab" ++ 0 :: ascii "cd\n"

/-- It is accepted, and only the start of the password arrives. -/
theorem not_keepsValues_nulPassword :
    ¬ ∀ (p : List UInt8) (save : SettingsAnswer) (load : LoadAnswer), (c8yStage p).1 = 0 →
      (provC8yStore save (c8yStage p).2).1 = 0 → load.init = 0 →
      (∀ key value, written (provC8yStore save (c8yStage p).2).2 key = some value →
        load.read key = value.length) → KeepsValues p save load := by
  intro h
  have hstage : (c8yStage nulPassword).1 = 0 := by decide +kernel
  have hsave : (provC8yStore savesAll (c8yStage nulPassword).2).1 = 0 := by decide +kernel
  have hkeeps := (h nulPassword savesAll (readsBack nulPassword) hstage hsave rfl
    (readsBack_read nulPassword)).2 .otp
  rw [(loaded_of_accepted hstage hsave rfl (readsBack_read nulPassword)).2 .otp] at hkeeps
  exact absurd hkeeps (by decide +kernel)

end ThinEdge.Provisioner
