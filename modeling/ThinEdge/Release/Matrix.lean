import ThinEdge.Lib.GroupBy
import ThinEdge.Release.Patterns

/-!
# The release matrix

`load` and `groups` of `scripts/release/matrix.py`: a manifest of devices is checked against the
repository, every problem that is found is reported with the place it is in, and what comes through
is a list of builds, grouped by device and app for the jobs that build them.

A manifest is what the YAML parser makes of the file, with the fields that `load` reads and with
texts where it expects texts. What the scripts ask the file system and `west` is a `Checkout`.
-/

namespace ThinEdge.Release

/-! ### Manifests -/

/-- An entry of `variants`. -/
structure VariantDef where
  provisioner : Option String
  profile : Option String
  deriving DecidableEq, Repr

/-- The value of `pr`; `False` when it is left out. -/
inductive PrValue
  | bool (b : Bool)
  | other
  deriving DecidableEq, Repr

/-- An entry of a device's `builds`. -/
structure BuildEntry where
  app : Option String
  variant : Option String
  extraConf : List String
  measured : String
  pr : PrValue
  deriving DecidableEq, Repr

/-- An entry of `devices`. -/
structure Device where
  id : Option String
  name : Option String
  board : Option String
  chip : Option String
  flashSize : Option String
  esptoolBefore : Option String
  dtcOverlays : List String
  tedgeBoardConf : Option String
  builds : List BuildEntry
  deriving DecidableEq, Repr

/-- What `load` tells builds apart by. -/
structure BuildKey where
  device : String
  app : String
  variant : String
  deriving DecidableEq, Repr

/-- The key of an entry of a device. -/
def BuildEntry.key (dev : Device) (b : BuildEntry) : BuildKey :=
  ⟨dev.id.getD "?", b.app.getD "?", b.variant.getD "?"⟩

/-- A manifest. Its dictionaries are lists of their entries. -/
structure Manifest where
  variants : List (String × VariantDef)
  provisioners : List (String × Option String)
  devices : List Device
  deriving DecidableEq, Repr

/-- The builds that a manifest lists. -/
def Manifest.listed (m : Manifest) : List BuildKey :=
  m.devices.flatMap fun dev ↦ dev.builds.map (BuildEntry.key dev)

/-- The repository, with the west projects beside it. -/
structure Checkout where
  /-- Whether the path with these parts, from the root, is a file. -/
  isFile : List String → Bool
  /-- The files of a project; nothing where west cannot say. -/
  west : String → Option (String → Bool)
  readText : String → String
  /-- `sysbuild/provisioning.cmake`. -/
  provisioningCmake : String

/-- Why `load` does not return. -/
inductive LoadFailure
  /-- `ManifestError`. -/
  | manifest (problems : List String)
  | keyError (key : String)
  deriving DecidableEq, Repr

/-- A build that `load` has made. -/
structure Build where
  device : Device
  /-- The place of the device in the manifest, which tells it from a device that looks the same. -/
  devIdx : ℕ
  id : String
  id_eq : device.id = some id
  app : String
  variant : String
  variantDef : VariantDef
  extraConf : List String
  measured : String
  pr : Bool
  deriving DecidableEq, Repr

/-- What a build is told apart by. -/
def Build.key (b : Build) : BuildKey := ⟨b.id, b.app, b.variant⟩

/-- `Build.tedge`. -/
def isTedge (variant : String) : Bool := variant != "standalone"

/-- `Build.firmware_name`. -/
def Build.firmwareName (b : Build) : String := b.app ++ "-" ++ b.variant ++ "-" ++ b.id

/-- `FIRMWARE_NAME_MAX`. -/
def firmwareNameMax : ℕ := 47

/-- A value that counts as true. -/
def truthy (v : Option String) : Bool := v.any (· != "")

/-! ### Problems -/

section Problems

variable (py : PyText) (repo : Checkout)

/-- `resolve` and whether there is a file; nothing when west cannot say. -/
def resolvedIsFile (rel : String) : Option Bool :=
  match projectRef py rel with
  | some (project, path) => (repo.west project).map fun files ↦ files path
  | none => some (repo.isFile [rel])

/-- `need_file`. -/
def needFile (place rel : String) : List String :=
  if resolvedIsFile py repo rel = some false then [s!"{place}: {rel} does not exist"] else []

/-- `need_file` for a value that may be missing. -/
def needFile? (place : String) (rel : Option String) : List String :=
  if truthy rel then needFile py repo place (rel.getD "") else []

/-- The problems of a variant. -/
def variantProblems (provisioners : List (String × Option String)) (v : String × VariantDef) :
    List String :=
  let (name, v) := v
  let known := v.provisioner.any fun p ↦ (provisioners.lookup p).isSome
  let shown := (v.provisioner.map py.repr).getD "None"
  (if known then [] else [s!"variant {name}: unknown provisioner {shown}"]) ++
  needFile? py repo s!"variant {name}" v.profile ++
  if isTedge name && !truthy v.profile then [s!"variant {name}: a tedge variant needs a profile"]
  else []

/-- The problems of a provisioner. -/
def provisionerProblems (p : String × Option String) : List String :=
  let (name, conf) := p
  needFile? py repo s!"provisioner {name}" conf

/-- The keys that a device needs. -/
def missingKeys (place : String) (dev : Device) : List String :=
  [("name", dev.name), ("board", dev.board), ("chip", dev.chip),
    ("flash_size", dev.flashSize)].filterMap fun (key, v) ↦
      if truthy v then none else some s!"{place}: missing {key}"

/-- `ESPTOOL_BEFORE`. -/
def esptoolBefore : List String := ["default-reset", "usb-reset", "no-reset"]

/-- The problems of a device apart from its builds, given the ids before it. -/
def deviceProblems (seenIds : List String) (dev : Device) : List String :=
  let did := dev.id.getD "?"
  let place := s!"device {did}"
  let board := dev.board.getD ""
  (if idRe did then [] else [s!"{place}: id must be lowercase letters, digits and dashes"]) ++
  (if did ∈ seenIds then [s!"{place}: duplicate device id"] else []) ++
  missingKeys place dev ++
  (if board ≠ "" ∧ board ∉ layoutBoards 0 repo.provisioningCmake.toList then
    [s!"{place}: board {board} has no provisioner layout " ++ "in sysbuild/provisioning.cmake"]
    else []) ++
  (if truthy dev.flashSize && !flashRe (dev.flashSize.getD "") then
    [s!"{place}: flash_size must look like 4MB"] else []) ++
  (if dev.esptoolBefore.getD "default-reset" ∈ esptoolBefore then [] else
    [s!"{place}: esptool_before must be one of default-reset, no-reset, usb-reset"]) ++
  dev.dtcOverlays.flatMap (needFile py repo place) ++
  needFile? py repo place dev.tedgeBoardConf

/-- The problems of a build's app. -/
def appProblems (place app board : String) : List String :=
  let conf := boardDirName board ++ ".conf"
  if repo.isFile ["apps", app, "CMakeLists.txt"] = false then [s!"{place}: there is no apps/{app}"]
  else if board ≠ "" ∧ repo.isFile ["apps", app, "boards", conf] = false then
    [s!"{place}: apps/{app}/boards/{conf} does not exist"]
  else []

/-- The problems of a tedge build. -/
def tedgeProblems (place : String) (dev : Device) (measured : String) : List String :=
  let (doc, anchor) := partitionAnchor measured
  (if truthy dev.tedgeBoardConf then [] else [s!"{place}: the device has no tedge_board_conf"]) ++
  if measured = "" then
    [s!"{place}: a tedge build needs " ++
      "\x60measured\x60, the DEVICES.md entry recording its run on the board"]
  else if repo.isFile [doc] = false then [s!"{place}: measured: {doc} does not exist"]
  else if anchor ≠ "" ∧ anchor ∉ anchors py (repo.readText doc) then
    [s!"{place}: measured: {doc} has no heading #{anchor}"]
  else []

/-- A firmware name that is too long. -/
def nameProblems (place name : String) : List String :=
  let length := name.length
  if firmwareNameMax < length then
    [s!"{place}: firmware name {name} is {length} characters (at most {firmwareNameMax})"]
  else []

/-! ### Loading -/

/-- How far `load` has come. -/
structure LoadState where
  problems : List String
  builds : List Build
  seenIds : List String
  seenBuilds : List BuildKey

/-- A build of a device. -/
def loadBuild (variants : List (String × VariantDef)) (dev : Device) (devIdx : ℕ) (st : LoadState)
    (b : BuildEntry) : Except LoadFailure LoadState :=
  let did := dev.id.getD "?"
  let app := b.app.getD "?"
  let variant := b.variant.getD "?"
  let place := s!"device {did}, {app} {variant}"
  let twice := if b.key dev ∈ st.seenBuilds then [s!"{place}: listed twice"] else []
  let st := { st with
    problems := st.problems ++ twice ++ appProblems repo place app (dev.board.getD "")
    seenBuilds := st.seenBuilds ++ [b.key dev] }
  match variants.lookup variant with
  | none => .ok { st with problems := st.problems ++ [s!"{place}: unknown variant"] }
  | some variantDef =>
    match hid : dev.id with
    | none => .error (.keyError "id") -- raised by `firmware_name`
    | some id =>
      let build : Build :=
        { device := dev, devIdx := devIdx, id := id, id_eq := hid, app := app, variant := variant
          variantDef := variantDef, extraConf := b.extraConf, measured := b.measured
          pr := b.pr = .bool true }
      .ok { st with
        problems := st.problems ++
          b.extraConf.flatMap (needFile py repo place) ++
          (if b.pr = .other then [s!"{place}: pr must be true or false"] else []) ++
          (if isTedge variant then tedgeProblems py repo place dev b.measured else []) ++
          nameProblems place build.firmwareName
        builds := st.builds ++ [build] }

/-- The builds of a device. -/
def loadBuilds (variants : List (String × VariantDef)) (dev : Device) (devIdx : ℕ) :
    LoadState → List BuildEntry → Except LoadFailure LoadState
  | st, [] => .ok st
  | st, b :: bs =>
    match loadBuild py repo variants dev devIdx st b with
    | .error e => .error e
    | .ok st' => loadBuilds variants dev devIdx st' bs

/-- The devices from an index on. -/
def loadDevices (variants : List (String × VariantDef)) :
    ℕ → LoadState → List Device → Except LoadFailure LoadState
  | _, st, [] => .ok st
  | devIdx, st, dev :: devs =>
    let st := { st with
      problems := st.problems ++ deviceProblems py repo st.seenIds dev
      seenIds := st.seenIds ++ [dev.id.getD "?"] }
    match loadBuilds py repo variants dev devIdx st dev.builds with
    | .error e => .error e
    | .ok st' => loadDevices variants (devIdx + 1) st' devs

/-- The devices that pull requests would not build. -/
def prProblems (builds : List Build) (devices : List Device) : List String :=
  devices.zipIdx.filterMap fun (dev, devIdx) ↦
    let did := dev.id.getD "?"
    if builds ≠ [] ∧ ¬ ∃ b ∈ builds, b.devIdx = devIdx ∧ b.pr = true then
      some (s!"device {did}: no build is marked " ++
        "\x60pr: true\x60, so pull requests would not build it")
    else none

/-- The problems that show when all builds are known. -/
def lateProblems (path : String) (st : LoadState) (devices : List Device) : List String :=
  (if st.builds = [] ∧ st.problems = [] then [s!"{path}: no builds"] else []) ++
  prProblems st.builds devices

/-- `load`, given what the YAML parser makes of the file. -/
def load (path : String) (parsed : Except String Manifest) :
    Except LoadFailure (Manifest × List Build) :=
  match parsed with
  | .error e => .error (.manifest [s!"{path}: {e}"])
  | .ok manifest =>
    let problems := manifest.variants.flatMap (variantProblems py repo manifest.provisioners) ++
      manifest.provisioners.flatMap (provisionerProblems py repo)
    match loadDevices py repo manifest.variants 0 ⟨problems, [], [], []⟩ manifest.devices with
    | .error e => .error e
    | .ok st =>
      let problems := st.problems ++ lateProblems path st manifest.devices
      if problems = [] then .ok (manifest, st.builds) else .error (.manifest problems)

end Problems

/-! ### Groups -/

/-- A job of the matrix. -/
structure Group (names : Type) where
  group : String
  device : String
  deviceName : String
  chip : String
  app : String
  builds : names
  deriving DecidableEq, Repr

/-- The key of a build's group. -/
def Build.groupKey (b : Build) : String × String := (b.id, b.app)

/-- The group that a build sets up. The device has a name and a chip, or `load` would not have
returned. -/
def Build.newGroup (b : Build) : Group (List String) :=
  { group := b.app ++ "-" ++ b.id
    device := b.id
    deviceName := b.device.name.getD ""
    chip := b.device.chip.getD ""
    app := b.app
    builds := [] }

/-- A build's name is appended to its group. -/
def Build.addTo (b : Build) (g : Group (List String)) : Group (List String) :=
  { g with builds := g.builds ++ [b.firmwareName] }

/-- The dictionary that `groups` fills. -/
def groupTable (builds : List Build) : List ((String × String) × Group (List String)) :=
  GroupBy.table Build.groupKey Build.newGroup Build.addTo builds

/-- `groups`. -/
def groups (builds : List Build) : List (Group String) :=
  (groupTable builds).map fun e ↦ { e.2 with builds := " ".intercalate e.2.builds }

end ThinEdge.Release
