import ThinEdge.Release.Matrix

/-!
# The names of a release

A build is named by its app, variant and device, and a group by its app and device, joined with
dashes, which may also occur in each of them. `load` sees to it that no build is listed twice; it
does not look at the names. `not_namesUnique_tedgeOta` is a manifest that it accepts with two builds
of one name.

`namesUnique_iff` says which accepted manifests are spared. It rests on the words between the
dashes: joining appends them (`words_joined`), and they determine the text (`words_inj`), so two
names are equal when their words are, wherever the borders between the parts stand.
-/

namespace ThinEdge.Release

/-! ### Words -/

/-- The words of a text, between its dashes. -/
def words (s : String) : List (List Char) := s.toList.splitOn '-'

section Words

variable {s t : String}

theorem words_joined : words (s ++ "-" ++ t) = words s ++ words t := by
  have hlist : (s ++ "-" ++ t).toList = s.toList ++ '-' :: t.toList := by
    rw [String.toList_append, String.toList_append, List.append_assoc]
    rfl
  rw [words, hlist, List.splitOn, List.splitOnP_append_cons _ _ (by decide)]
  rfl

theorem words_inj : words s = words t ↔ s = t := by
  refine ⟨fun h ↦ String.toList_inj.1 ?_, congrArg words⟩
  calc s.toList = ['-'].intercalate (words s) := (List.intercalate_splitOn '-').symm
    _ = ['-'].intercalate (words t) := by rw [h]
    _ = t.toList := List.intercalate_splitOn '-'

end Words

/-! ### What is required -/

/-- The names of a release identify its builds and groups. -/
structure NamesUnique (builds : List Build) : Prop where
  firmware : (builds.map Build.firmwareName).Nodup
  group : ((groups builds).map Group.group).Nodup
  once : ∀ b ∈ builds, ∃! e, e ∈ groupTable builds ∧ b.firmwareName ∈ e.2.builds
  order : ∀ e ∈ groupTable builds,
    e.2.builds = (builds.filter (Build.groupKey · = e.1)).map Build.firmwareName

/-- The words of a firmware name. -/
def BuildKey.nameWords (k : BuildKey) : List (List Char) :=
  words k.app ++ words k.variant ++ words k.device

/-- The words of a group's name. -/
def BuildKey.groupWords (k : BuildKey) : List (List Char) := words k.app ++ words k.device

/-- Where two names have the same words, the borders between their parts stand at the same
places. -/
structure SameBorders (listed : List BuildKey) : Prop where
  firmware : ∀ k ∈ listed, ∀ k' ∈ listed, k.nameWords = k'.nameWords →
    (words k.app).length = (words k'.app).length ∧
      (words k.variant).length = (words k'.variant).length
  group : ∀ k ∈ listed, ∀ k' ∈ listed, k.groupWords = k'.groupWords →
    (words k.app).length = (words k'.app).length

section Names

variable {b c : Build}

theorem firmwareName_eq_iff : b.firmwareName = c.firmwareName ↔
    b.key.nameWords = c.key.nameWords := by
  rw [← words_inj, Build.firmwareName, Build.firmwareName, words_joined, words_joined,
    words_joined, words_joined]
  rfl

theorem newGroup_group_eq_iff :
    b.newGroup.group = c.newGroup.group ↔ b.key.groupWords = c.key.groupWords := by
  rw [← words_inj, Build.newGroup, Build.newGroup, words_joined, words_joined]
  rfl

/-- Names whose borders stand at the same places have the same parts. -/
theorem key_eq_of_nameWords {k k' : BuildKey} (h : k.nameWords = k'.nameWords)
    (happ : (words k.app).length = (words k'.app).length)
    (hvar : (words k.variant).length = (words k'.variant).length) : k = k' := by
  obtain ⟨hfront, hid⟩ := List.append_inj h (by simp [happ, hvar])
  obtain ⟨ha, hv⟩ := List.append_inj hfront happ
  cases k
  cases k'
  rw [BuildKey.mk.injEq]
  exact ⟨words_inj.1 hid, words_inj.1 ha, words_inj.1 hv⟩

theorem groupKey_eq_of_groupWords (h : b.key.groupWords = c.key.groupWords)
    (happ : (words b.app).length = (words c.app).length) : b.groupKey = c.groupKey := by
  obtain ⟨ha, hid⟩ := List.append_inj h happ
  exact Prod.ext (words_inj.1 hid) (words_inj.1 ha)

end Names

/-! ### Loading -/

/-- Unless a problem has been found, there is a build for each entry so far, and they are
different. -/
def LoadInv (st : LoadState) : Prop :=
  st.problems = [] → st.seenBuilds.Nodup ∧ st.builds.map Build.key = st.seenBuilds

section Load

variable {py : PyText} {repo : Checkout} {variants : List (String × VariantDef)} {dev : Device}
  {devIdx : ℕ} {st st' : LoadState} {b : BuildEntry}

/-- What `load` does with an entry. -/
theorem loadBuild_spec (h : loadBuild py repo variants dev devIdx st b = .ok st') :
    st'.seenBuilds = st.seenBuilds ++ [b.key dev] ∧
      (st'.problems = [] → st.problems = [] ∧ b.key dev ∉ st.seenBuilds ∧
        ∃ c, c.key = b.key dev ∧ st'.builds = st.builds ++ [c]) := by
  rw [loadBuild.eq_def] at h
  dsimp only at h
  split at h
  · obtain rfl := Except.ok.inj h
    exact ⟨rfl, fun hnil ↦ absurd hnil (by simp)⟩
  · split at h
    · exact absurd h (by simp)
    · next id hid =>
      obtain rfl := Except.ok.inj h
      refine ⟨rfl, fun hnil ↦ ?_⟩
      have hbefore := (List.append_eq_nil_iff.1 hnil).1
      have hconf := (List.append_eq_nil_iff.1 (List.append_eq_nil_iff.1 hbefore).1).1
      have happ := (List.append_eq_nil_iff.1 (List.append_eq_nil_iff.1 hconf).1).1
      obtain ⟨hprob, htwice⟩ := List.append_eq_nil_iff.1 happ
      refine ⟨hprob, fun hmem ↦ absurd htwice (by simp [hmem]), _, ?_, rfl⟩
      have hdid : dev.id.getD "?" = id := by rw [hid, Option.getD_some]
      show BuildKey.mk id _ _ = BuildKey.mk (dev.id.getD "?") _ _
      rw [hdid]

theorem LoadInv.loadBuild (hi : LoadInv st)
    (h : loadBuild py repo variants dev devIdx st b = .ok st') : LoadInv st' := by
  obtain ⟨hseen, hprob⟩ := loadBuild_spec h
  intro hnil
  obtain ⟨hnil, hnew, c, hkey, hbuilds⟩ := hprob hnil
  obtain ⟨hnodup, hmap⟩ := hi hnil
  refine ⟨?_, by rw [hbuilds, hseen, List.map_append, hmap, ← hkey]; rfl⟩
  rw [hseen]
  refine List.nodup_append.2 ⟨hnodup, List.nodup_singleton _, ?_⟩
  rintro k hk k' hk' rfl
  exact hnew (List.mem_singleton.1 hk' ▸ hk)

theorem LoadInv.loadBuilds {bs : List BuildEntry} (hi : LoadInv st)
    (h : loadBuilds py repo variants dev devIdx st bs = .ok st') :
    LoadInv st' ∧ st'.seenBuilds = st.seenBuilds ++ bs.map (BuildEntry.key dev) := by
  induction bs generalizing st with
  | nil => exact Except.ok.inj h ▸ ⟨hi, (List.append_nil _).symm⟩
  | cons b bs ih =>
    rw [Release.loadBuilds] at h
    split at h
    · exact absurd h (by simp)
    · next st₁ hb =>
      obtain ⟨hi', hseen⟩ := ih (hi.loadBuild hb) h
      refine ⟨hi', ?_⟩
      rw [hseen, (loadBuild_spec hb).1, List.append_assoc]
      rfl

theorem LoadInv.loadDevices {devs : List Device} (hi : LoadInv st)
    (h : loadDevices py repo variants devIdx st devs = .ok st') :
    LoadInv st' ∧ st'.seenBuilds =
      st.seenBuilds ++ devs.flatMap fun dev ↦ dev.builds.map (BuildEntry.key dev) := by
  induction devs generalizing devIdx st with
  | nil => exact Except.ok.inj h ▸ ⟨hi, (List.append_nil _).symm⟩
  | cons dev devs ih =>
    rw [Release.loadDevices] at h
    split at h
    · exact absurd h (by simp)
    · next st₁ hb =>
      have hdev : LoadInv { st with
          problems := st.problems ++ deviceProblems py repo st.seenIds dev
          seenIds := st.seenIds ++ [dev.id.getD "?"] } :=
        fun hnil ↦ hi (List.append_eq_nil_iff.1 hnil).1
      obtain ⟨hi₁, hseen₁⟩ := hdev.loadBuilds hb
      obtain ⟨hi', hseen'⟩ := ih hi₁ h
      refine ⟨hi', ?_⟩
      rw [hseen', hseen₁, List.append_assoc]
      rfl

/-- **An accepted manifest** lists no build twice, and there is a build for each entry. -/
theorem load_spec {path : String} {parsed : Except String Manifest} {manifest : Manifest}
    {builds : List Build} (h : load py repo path parsed = .ok (manifest, builds)) :
    manifest.listed.Nodup ∧ builds.map Build.key = manifest.listed := by
  rw [load.eq_def] at h
  split at h
  · exact absurd h (by simp)
  · dsimp only at h
    split at h
    · exact absurd h (by simp)
    · next m _ st hst =>
      split at h
      · next hnil =>
        obtain ⟨rfl, rfl⟩ := Prod.mk.inj (Except.ok.inj h)
        have hstart : ∀ problems, LoadInv ⟨problems, [], [], []⟩ :=
          fun _ _ ↦ ⟨List.nodup_nil, rfl⟩
        obtain ⟨hi, hseen⟩ := (hstart _).loadDevices hst
        obtain ⟨hnodup, hmap⟩ := hi (List.append_eq_nil_iff.1 hnil).1
        have hlisted : st.seenBuilds = m.listed := hseen
        rw [hlisted] at hnodup hmap
        exact ⟨hnodup, hmap⟩
      · exact absurd h (by simp)

end Load

/-! ### Groups -/

section Groups

variable {b : Build} {builds : List Build} {e e' : (String × String) × Group (List String)}

theorem foldl_addTo (l : List Build) (g : Group (List String)) :
    l.foldl (fun g b ↦ b.addTo g) g =
      { g with builds := g.builds ++ l.map Build.firmwareName } := by
  induction l generalizing g with
  | nil => simp
  | cons b l ih =>
    rw [List.foldl_cons, ih]
    simp [Build.addTo]

/-- An entry is named after its builds, and has their names. -/
theorem groupTable_entry (he : e ∈ groupTable builds) :
    (∃ b ∈ builds, b.groupKey = e.1 ∧ e.2.group = b.newGroup.group) ∧
      e.2.builds = (builds.filter (Build.groupKey · = e.1)).map Build.firmwareName := by
  obtain ⟨b, rest, hfilter, hfold⟩ := (GroupBy.table_spec builds).entry e he
  have hb : b ∈ builds.filter (Build.groupKey · = e.1) := hfilter ▸ List.mem_cons_self
  obtain ⟨hmem, hkey⟩ := List.mem_filter.1 hb
  rw [foldl_addTo] at hfold
  refine ⟨⟨b, hmem, of_decide_eq_true hkey, by rw [hfold]⟩, ?_⟩
  rw [hfold, hfilter]
  rfl

/-- Every build has an entry. -/
theorem exists_groupTable_entry (hb : b ∈ builds) : ∃ e ∈ groupTable builds, e.1 = b.groupKey :=
  List.mem_map.1 ((GroupBy.table_spec builds).key_mem b hb)

/-- There is one entry for a key. -/
theorem groupTable_inj (he : e ∈ groupTable builds) (he' : e' ∈ groupTable builds)
    (hkey : e.1 = e'.1) : e = e' :=
  List.inj_on_of_nodup_map (GroupBy.table_spec builds).nodup he he' hkey

theorem group_of_groupKey (he : e ∈ groupTable builds) (hkey : b.groupKey = e.1) :
    e.2.group = b.newGroup.group := by
  obtain ⟨⟨c, -, hc, hgroup⟩, -⟩ := groupTable_entry he
  have heq : c.groupKey = b.groupKey := hc.trans hkey.symm
  rw [hgroup, Build.newGroup, Build.newGroup, show c.app = b.app from congrArg Prod.snd heq,
    show c.id = b.id from congrArg Prod.fst heq]

theorem mem_builds_iff (he : e ∈ groupTable builds) {name : String} :
    name ∈ e.2.builds ↔ ∃ b ∈ builds, b.groupKey = e.1 ∧ b.firmwareName = name := by
  rw [(groupTable_entry he).2]
  simp [and_assoc]

theorem map_group_groups :
    (groups builds).map Group.group = (groupTable builds).map fun e ↦ e.2.group := by
  rw [groups, List.map_map]
  rfl

end Groups

/-! ### The result -/

section Result

variable {builds : List Build}

theorem NamesUnique.sameBorders (h : NamesUnique builds) :
    SameBorders (builds.map Build.key) := by
  constructor
  · intro k hk k' hk' hwords
    obtain ⟨b, hb, rfl⟩ := List.mem_map.1 hk
    obtain ⟨c, hc, rfl⟩ := List.mem_map.1 hk'
    obtain rfl := List.inj_on_of_nodup_map h.firmware hb hc (firmwareName_eq_iff.2 hwords)
    exact ⟨rfl, rfl⟩
  · intro k hk k' hk' hwords
    obtain ⟨b, hb, rfl⟩ := List.mem_map.1 hk
    obtain ⟨c, hc, rfl⟩ := List.mem_map.1 hk'
    obtain ⟨e, he, hkey⟩ := exists_groupTable_entry hb
    obtain ⟨e', he', hkey'⟩ := exists_groupTable_entry hc
    have hgroup : e.2.group = e'.2.group := by
      rw [group_of_groupKey he hkey.symm, group_of_groupKey he' hkey'.symm]
      exact newGroup_group_eq_iff.2 hwords
    have hnodup := map_group_groups ▸ h.group
    obtain rfl := List.inj_on_of_nodup_map hnodup he he' hgroup
    have happ : b.key.app = c.key.app := congrArg Prod.snd (hkey.symm.trans hkey')
    rw [happ]

theorem SameBorders.namesUnique (h : SameBorders (builds.map Build.key))
    (hnodup : (builds.map Build.key).Nodup) : NamesUnique builds := by
  have hinj : ∀ b ∈ builds, ∀ c ∈ builds, b.firmwareName = c.firmwareName → b = c := by
    intro b hb c hc hname
    have hwords := firmwareName_eq_iff.1 hname
    obtain ⟨happ, hvar⟩ :=
      h.firmware _ (List.mem_map_of_mem hb) _ (List.mem_map_of_mem hc) hwords
    exact List.inj_on_of_nodup_map hnodup hb hc (key_eq_of_nameWords hwords happ hvar)
  refine ⟨(hnodup.of_map _).map_on hinj, ?_, fun b hb ↦ ?_, fun e he ↦ (groupTable_entry he).2⟩
  · rw [map_group_groups]
    refine ((GroupBy.table_spec builds).nodup.of_map _).map_on fun e he e' he' hgroup ↦ ?_
    obtain ⟨⟨b, hb, hkey, hname⟩, -⟩ := groupTable_entry he
    obtain ⟨⟨c, hc, hkey', hname'⟩, -⟩ := groupTable_entry he'
    have hwords := newGroup_group_eq_iff.1 (hname.symm.trans (hgroup.trans hname'))
    have happ := h.group _ (List.mem_map_of_mem hb) _ (List.mem_map_of_mem hc) hwords
    refine groupTable_inj he he' ?_
    rw [← hkey, ← hkey']
    exact groupKey_eq_of_groupWords hwords happ
  · obtain ⟨e, he, hkey⟩ := exists_groupTable_entry hb
    refine ⟨e, ⟨he, (mem_builds_iff he).2 ⟨b, hb, hkey.symm, rfl⟩⟩, fun e' ⟨he', hmem⟩ ↦ ?_⟩
    obtain ⟨c, hc, hkey', hname⟩ := (mem_builds_iff he').1 hmem
    obtain rfl := hinj c hc b hb hname
    exact groupTable_inj he' he (hkey'.symm.trans hkey.symm)

end Result

/-! ### Accepted manifests -/

/-- A repository with one app for one board. -/
def oneApp : Checkout where
  isFile path := path ∈ [["profiles/ota.conf"], ["prov/ztp.conf"], ["boards/c6.conf"],
    ["apps", "modbus-server", "CMakeLists.txt"],
    ["apps", "modbus-server", "boards", "esp32c6_devkitc_esp32c6_hpcore.conf"], ["DEVICES.md"]]
  west _ := none
  readText _ := "# Fleet\n\n## Measured on the C6\n"
  provisioningCmake := "if(_board STREQUAL \x22esp32c6_devkitc/esp32c6/hpcore\x22)\n"

/-- A device of that board with one tedge build. -/
def c6Device (id variant : String) : Device where
  id := some id
  name := some "C6"
  board := some "esp32c6_devkitc/esp32c6/hpcore"
  chip := some "esp32c6"
  flashSize := some "4MB"
  esptoolBefore := none
  dtcOverlays := []
  tedgeBoardConf := some "boards/c6.conf"
  builds :=
    [⟨some "modbus-server", some variant, [], "DEVICES.md#measured-on-the-c6", .bool true⟩]

/-- A manifest of two devices with a tedge build each, of two variants. -/
def twoDevices (id₁ variant₁ id₂ variant₂ : String) : Manifest where
  variants :=
    [(variant₁, ⟨some "ztp", some "profiles/ota.conf"⟩),
      (variant₂, ⟨some "ztp", some "profiles/ota.conf"⟩)]
  provisioners := [("ztp", some "prov/ztp.conf")]
  devices := [c6Device id₁ variant₁, c6Device id₂ variant₂]

/-- The firmware names of an accepted manifest. -/
def firmwareNames (r : Except LoadFailure (Manifest × List Build)) : Option (List String) :=
  match r with
  | .ok (_, builds) => some (builds.map Build.firmwareName)
  | .error _ => none

theorem exists_load_of_firmwareNames {r : Except LoadFailure (Manifest × List Build)}
    {names : List String} (h : firmwareNames r = some names) :
    ∃ manifest builds, r = .ok (manifest, builds) ∧ builds.map Build.firmwareName = names := by
  match r, h with
  | .ok (manifest, builds), h => exact ⟨manifest, builds, rfl, Option.some.inj h⟩

/-- The variant `tedge-ota` of the device `c6` and the variant `tedge` of the device `ota-c6`. -/
theorem not_namesUnique_tedgeOta :
    ¬ ∀ py repo path parsed manifest builds, load py repo path parsed = .ok (manifest, builds) →
      NamesUnique builds := by
  intro h
  have hload : firmwareNames (load .ascii oneApp "devices.yml"
      (.ok (twoDevices "c6" "tedge-ota" "ota-c6" "tedge"))) =
      some ["modbus-server-tedge-ota-c6", "modbus-server-tedge-ota-c6"] := by decide +kernel
  obtain ⟨manifest, builds, hload, hnames⟩ := exists_load_of_firmwareNames hload
  have hnodup := (h _ _ _ _ _ _ hload).firmware
  rw [hnames] at hnodup
  exact absurd hnodup (by decide)

/-- **When the names of a release are unique.** The names of the builds that `load` returns, and of
their groups, identify them exactly when no two builds, and no two groups, that the manifest lists
have names of the same words with the borders between app, variant and device at different
places. -/
theorem namesUnique_iff (py : PyText) (repo : Checkout) (path : String)
    (parsed : Except String Manifest) (manifest : Manifest) (builds : List Build)
    (h : load py repo path parsed = .ok (manifest, builds)) :
    NamesUnique builds ↔ SameBorders manifest.listed := by
  obtain ⟨hnodup, hkeys⟩ := load_spec h
  rw [← hkeys] at hnodup ⊢
  exact ⟨NamesUnique.sameBorders, fun hsame ↦ hsame.namesUnique hnodup⟩

/-- The variants of the repository, on two devices. -/
theorem namesUnique_iff_c6 : ∃ manifest builds,
    load .ascii oneApp "devices.yml" (.ok (twoDevices "c6" "tedge-ota" "c3" "tedge-full")) =
      .ok (manifest, builds) ∧
    builds.map Build.firmwareName = ["modbus-server-tedge-ota-c6", "modbus-server-tedge-full-c3"] ∧
    (NamesUnique builds ↔ SameBorders manifest.listed) := by
  have hload : firmwareNames (load .ascii oneApp "devices.yml"
      (.ok (twoDevices "c6" "tedge-ota" "c3" "tedge-full"))) =
      some ["modbus-server-tedge-ota-c6", "modbus-server-tedge-full-c3"] := by decide +kernel
  obtain ⟨manifest, builds, hload, hnames⟩ := exists_load_of_firmwareNames hload
  exact ⟨manifest, builds, hload, hnames, namesUnique_iff _ _ _ _ _ _ hload⟩

end ThinEdge.Release
