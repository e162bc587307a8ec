import Mathlib.Data.Int.Notation
import Mathlib.Data.List.Basic

/-!
# The switch/router MIB view

`lib/snmp/snmp_mib.c`: the table of readable object instances, built once by `mib_init` in walk
order, and the three lookups the agent uses. A leaf stores no OID; `mibLeafOid` derives it from the
leaf's kind, column and row.

A `const struct mib_leaf *` into the table is modelled as an index into it, so that `mib_next_leaf`,
which is pointer arithmetic in the source, is arithmetic on the index.
-/

namespace ThinEdge.Snmp

/-! ### OIDs -/

/-- `oid_cmp`: lexicographic comparison, negative, zero or positive. -/
def oidCmp : List ℕ → List ℕ → ℤ
  | [], [] => 0
  | [], _ :: _ => -1
  | _ :: _, [] => 1
  | a :: as, b :: bs => if a ≠ b then (if a < b then -1 else 1) else oidCmp as bs

/-! ### Leaves -/

/-- The value selectors `K_SYS_DESCR` … `K_FW_BUILD`, in the order of the source's enumeration. -/
inductive MibKind
  | sysDescr | sysObjectId | sysUptime | sysContact | sysName | sysLocation | sysServices
  | ifNumber
  | ifIndex | ifDescr | ifType | ifMtu | ifSpeed | ifAdmin | ifOper | ifInOctets | ifInUpkts
  | ifOutOctets | ifOutUpkts
  | fwName | fwVersion | fwBuild
  deriving DecidableEq, Repr

/-- `struct mib_leaf`: one readable object instance. -/
structure MibLeaf where
  kind : MibKind
  /-- The arc after the prefix: scalar number or ifTable column. -/
  col : ℕ
  /-- The 1-based ifIndex of a table cell; 0 for scalars. -/
  row : ℕ
  deriving DecidableEq, Repr

def sysPrefix : List ℕ := [1, 3, 6, 1, 2, 1, 1]
def ifnumOid : List ℕ := [1, 3, 6, 1, 2, 1, 2, 1, 0]
def ifentryPrefix : List ℕ := [1, 3, 6, 1, 2, 1, 2, 2, 1]
def sysObjectIdValue : List ℕ := [1, 3, 6, 1, 4, 1, 99999, 1]

/-- `mib_leaf_oid`. The source tests the kind against the first kind of each group. -/
def mibLeafOid (leaf : MibLeaf) : List ℕ :=
  match leaf.kind with
  | .ifNumber => ifnumOid
  | .fwName | .fwVersion | .fwBuild => sysObjectIdValue ++ [leaf.col, 0]
  | .ifIndex | .ifDescr | .ifType | .ifMtu | .ifSpeed | .ifAdmin | .ifOper | .ifInOctets
  | .ifInUpkts | .ifOutOctets | .ifOutUpkts => ifentryPrefix ++ [leaf.col, leaf.row]
  | .sysDescr | .sysObjectId | .sysUptime | .sysContact | .sysName | .sysLocation
  | .sysServices => sysPrefix ++ [leaf.col, 0]

/-! ### The table -/

/-- The leaves in use, in walk order: `leaves[0 .. leaf_count)`. -/
abbrev Mib := List MibLeaf

/-- The system scalars with their numbers, `1 … NUM_SCALARS - 1`. -/
def sysScalars : List (MibKind × ℕ) :=
  [(.sysDescr, 1), (.sysObjectId, 2), (.sysUptime, 3), (.sysContact, 4), (.sysName, 5),
    (.sysLocation, 6), (.sysServices, 7)]

/-- `if_columns`. -/
def ifColumns : List (MibKind × ℕ) :=
  [(.ifIndex, 1), (.ifDescr, 2), (.ifType, 3), (.ifMtu, 4), (.ifSpeed, 5), (.ifAdmin, 7),
    (.ifOper, 8), (.ifInOctets, 10), (.ifInUpkts, 11), (.ifOutOctets, 16), (.ifOutUpkts, 17)]

/-- The firmware-info scalars with their numbers, `1 … NUM_FW_SCALARS`. -/
def fwScalars : List (MibKind × ℕ) := [(.fwName, 1), (.fwVersion, 2), (.fwBuild, 3)]

/-- `MIB_MAX_LEAVES` for a table of `rows` interfaces. -/
def mibMaxLeaves (rows : ℕ) : ℕ := 8 + ifColumns.length * rows + fwScalars.length

/-- `add_leaf`: a full table drops the leaf. -/
def addLeaf (maxLeaves : ℕ) (leaves : Mib) (leaf : MibLeaf) : Mib :=
  if maxLeaves ≤ leaves.length then leaves else leaves ++ [leaf]

/-- The leaves `mib_init` adds, in the order it adds them, for `nif` interfaces. -/
def mibInitLeaves (nif : ℕ) : List MibLeaf :=
  sysScalars.map (fun c ↦ ⟨c.1, c.2, 0⟩) ++
    [⟨.ifNumber, 0, 0⟩] ++
    ifColumns.flatMap (fun c ↦ (List.range' 1 nif).map fun r ↦ ⟨c.1, c.2, r⟩) ++
    fwScalars.map (fun c ↦ ⟨c.1, c.2, 0⟩)

/-- `mib_init`: the table sized for `rows` interfaces (`MIB_IF_ROWS`), filled for the `nif` that
`sim_switch_if_count()` reports. -/
def mibInit (rows nif : ℕ) : Mib := (mibInitLeaves nif).foldl (addLeaf (mibMaxLeaves rows)) []

/-! ### Lookups -/

/-- `leaf_cmp`. -/
def leafCmp (leaf : MibLeaf) (oid : List ℕ) : ℤ := oidCmp (mibLeafOid leaf) oid

/-- `mib_get_exact`: the first leaf with that OID. -/
def mibGetExact (mib : Mib) (oid : List ℕ) : Option ℕ :=
  mib.findIdx? fun leaf ↦ leafCmp leaf oid = 0

/-- `mib_get_next`: the first leaf strictly greater. -/
def mibGetNext (mib : Mib) (oid : List ℕ) : Option ℕ :=
  mib.findIdx? fun leaf ↦ 0 < leafCmp leaf oid

/-- `mib_next_leaf`. -/
def mibNextLeaf (mib : Mib) (leaf : ℕ) : Option ℕ :=
  if mib.length ≤ leaf + 1 then none else some (leaf + 1)

theorem mibNextLeaf_eq_none_iff {mib : Mib} {i : ℕ} :
    mibNextLeaf mib i = none ↔ mib.length ≤ i + 1 := by
  simp [mibNextLeaf]

theorem mibNextLeaf_eq_some {mib : Mib} {i j : ℕ} (h : mibNextLeaf mib i = some j) :
    j = i + 1 ∧ j < mib.length := by
  rw [mibNextLeaf] at h
  split at h
  · exact absurd h (by simp)
  · rw [Option.some.injEq] at h
    omega

theorem lt_length_of_mibGetNext {mib : Mib} {oid : List ℕ} {i : ℕ}
    (h : mibGetNext mib oid = some i) : i < mib.length :=
  (List.findIdx?_eq_some_iff_getElem.1 h).1

/-- The leaves a walk from `oid` still visits. -/
def leavesAfter (mib : Mib) (oid : List ℕ) : ℕ :=
  match mibGetNext mib oid with
  | none => 0
  | some i => mib.length - i

end ThinEdge.Snmp
