import Mathlib.Data.List.Lex
import Mathlib.Order.Basic
import ThinEdge.Lib.SortedTable
import ThinEdge.Snmp.Mib

/-!
# The MIB is in walk order

`mib_init` adds the leaves in lexicographic order of their OIDs, over four prefixes and, within the
interface table, column by column; nothing sorts them afterwards. With the order of `oid_cmp`, which
is Mathlib's order on lists, the view is a sorted table in the sense of `ThinEdge.Lib.SortedTable`
(`sorted_mib`), and the lookups of `snmp_mib.c` are that table's searches.

`exactSearch_mib` is the summary: lookups are exact, `mib_next_leaf` is a GETNEXT on the leaf's own
OID, and repeated GETNEXT goes through all leaves after the start, in order, before it reports the
end of the view.
-/

namespace ThinEdge.Snmp

/-! ### The order of OIDs -/

/-- `oid_cmp` is the lexicographic order. -/
theorem oidCmp_neg_iff {a b : List ℕ} : oidCmp a b < 0 ↔ a < b := by
  induction a generalizing b with
  | nil => cases b <;> simp [oidCmp]
  | cons x a ih =>
    cases b with
    | nil => simp [oidCmp]
    | cons y b =>
      rw [oidCmp, List.cons_lt_cons_iff]
      rcases lt_trichotomy x y with hlt | rfl | hgt
      · simp [hlt, hlt.ne]
      · simpa using ih
      · simp [hgt.ne', not_lt.2 hgt.le]

theorem oidCmp_eq_zero_iff {a b : List ℕ} : oidCmp a b = 0 ↔ a = b := by
  induction a generalizing b with
  | nil => cases b <;> simp [oidCmp]
  | cons x a ih =>
    cases b with
    | nil => simp [oidCmp]
    | cons y b =>
      rw [oidCmp, List.cons.injEq]
      by_cases h : x = y
      · simpa [h] using ih
      · rw [if_pos h]
        simp only [h, false_and, iff_false]
        split <;> simp

theorem oidCmp_pos_iff {a b : List ℕ} : 0 < oidCmp a b ↔ b < a := by
  have hneg := oidCmp_neg_iff (a := a) (b := b)
  have hzero := oidCmp_eq_zero_iff (a := a) (b := b)
  constructor
  · intro h
    rcases lt_trichotomy a b with hlt | heq | hgt
    · exact absurd (hneg.2 hlt) (by omega)
    · exact absurd (hzero.2 heq) (by omega)
    · exact hgt
  · intro h
    have h1 : ¬ oidCmp a b < 0 := fun hlt ↦ lt_asymm h (hneg.1 hlt)
    have h2 : oidCmp a b ≠ 0 := fun heq ↦ absurd (hzero.1 heq) h.ne'
    omega

/-- `oid_cmp` is a total order on OIDs, the lexicographic one. -/
structure LexOrder (cmp : List ℕ → List ℕ → ℤ) : Prop where
  neg_iff : ∀ a b, cmp a b < 0 ↔ List.Lex (· < ·) a b
  eq_zero_iff : ∀ a b, cmp a b = 0 ↔ a = b
  pos_iff : ∀ a b, 0 < cmp a b ↔ cmp b a < 0
  trans : ∀ a b c, cmp a b < 0 → cmp b c < 0 → cmp a c < 0

/-- So the general results on ordered tables apply to it. -/
theorem lexOrder_oidCmp : LexOrder oidCmp where
  neg_iff _ _ := oidCmp_neg_iff
  eq_zero_iff _ _ := oidCmp_eq_zero_iff
  pos_iff _ _ := by rw [oidCmp_pos_iff, oidCmp_neg_iff]
  trans _ _ _ hab hbc :=
    oidCmp_neg_iff.2 (lt_trans (oidCmp_neg_iff.1 hab) (oidCmp_neg_iff.1 hbc))

/-! ### The lookups as searches -/

/-- The OID of the leaf at an index. -/
def leafOidAt (mib : Mib) (i : ℕ) : List ℕ := ((mib[i]?).map mibLeafOid).getD []

/-- The name in the answer to a GETNEXT: the next leaf's OID, or the request name again together
with endOfMibView. -/
def getnextName (mib : Mib) (oid : List ℕ) : List ℕ :=
  match mibGetNext mib oid with
  | none => oid
  | some i => leafOidAt mib i

/-- The `n`-th answer of repeated GETNEXT, each for the name that the last one returned: a leaf, or
`none` for endOfMibView. -/
def getnextWalk (mib : Mib) (oid : List ℕ) (n : ℕ) : Option ℕ :=
  mibGetNext mib ((getnextName mib)^[n] oid)

variable {mib : Mib} {oid : List ℕ} {i : ℕ}

/-- `leaf_oid_at` is the name of the leaf at an index. -/
theorem leafOidAt_eq (h : i < mib.length) : leafOidAt mib i = mibLeafOid mib[i] := by
  simp [leafOidAt, List.getElem?_eq_getElem h]

/-- `mib_get_next` finds the first leaf above a name. -/
theorem mibGetNext_eq_above (mib : Mib) (oid : List ℕ) :
    mibGetNext mib oid = SortedTable.above mibLeafOid mib oid := by
  rw [mibGetNext, SortedTable.above]
  congr 1
  funext leaf
  exact decide_eq_decide.2 oidCmp_pos_iff

/-- GETNEXT is the successor of the sorted table. -/
theorem getnextName_eq_next (mib : Mib) :
    getnextName mib = SortedTable.next mibLeafOid mib := by
  funext oid
  rw [getnextName, SortedTable.next, ← mibGetNext_eq_above]
  rcases h : mibGetNext mib oid with - | i
  · rfl
  · have hi := lt_length_of_mibGetNext h
    rw [Option.bind_some, List.getElem?_eq_getElem hi, Option.map_some, Option.getD_some]
    exact leafOidAt_eq hi

/-- A walk of GETNEXTs is the walk through the table. -/
theorem getnextWalk_eq_walk (mib : Mib) (oid : List ℕ) (n : ℕ) :
    getnextWalk mib oid n = SortedTable.walk mibLeafOid mib oid n := by
  rw [getnextWalk, getnextName_eq_next, mibGetNext_eq_above, SortedTable.walk]

/-- `mib_get_exact` only finds a leaf of that very name. -/
theorem mibGetExact_eq_some (h : mibGetExact mib oid = some i) :
    ∃ hi : i < mib.length, mibLeafOid mib[i] = oid := by
  obtain ⟨hi, heq, -⟩ := List.findIdx?_eq_some_iff_getElem.1 h
  exact ⟨hi, oidCmp_eq_zero_iff.1 (of_decide_eq_true heq)⟩

/-- It finds one exactly when there is one. -/
theorem isSome_mibGetExact_iff :
    (mibGetExact mib oid).isSome ↔ ∃ leaf ∈ mib, mibLeafOid leaf = oid := by
  simp [mibGetExact, List.findIdx?_isSome, leafCmp, oidCmp_eq_zero_iff]

/-! ### The table is sorted -/

/-- `CONFIG_APP_SIM_SWITCH_IF_COUNT`, within the range Kconfig gives it. -/
structure SwitchConfig where
  ifCount : ℕ
  one_le_ifCount : 1 ≤ ifCount
  ifCount_le : ifCount ≤ 8

/-- `SIM_SWITCH_MAX_IF`. -/
def simSwitchMaxIf : ℕ := 8

/-- `sim_switch_if_count`: what `clamp_count` makes of the configured count. -/
def SwitchConfig.simSwitchIfCount (cfg : SwitchConfig) : ℕ :=
  let n := if cfg.ifCount < 1 then 1 else cfg.ifCount
  if simSwitchMaxIf < n then simSwitchMaxIf else n

/-- `MIB_IF_ROWS`. -/
def SwitchConfig.mibIfRows (cfg : SwitchConfig) : ℕ := min cfg.ifCount simSwitchMaxIf

/-- The MIB view after `mib_init`. -/
def SwitchConfig.mibView (cfg : SwitchConfig) : Mib := mibInit cfg.mibIfRows cfg.simSwitchIfCount

/-- Leaves that fit are all added, in order. -/
theorem foldl_addLeaf {maxLeaves : ℕ} {leaves : Mib} {ls : List MibLeaf}
    (h : leaves.length + ls.length ≤ maxLeaves) :
    ls.foldl (addLeaf maxLeaves) leaves = leaves ++ ls := by
  induction ls generalizing leaves with
  | nil => simp
  | cons l ls ih =>
    rw [List.length_cons] at h
    rw [List.foldl_cons, addLeaf, if_neg (by omega), ih (by simp; omega), List.append_assoc,
      List.singleton_append]

/-- The table has as many leaves as `mib_max_leaves` says. -/
theorem length_mibInitLeaves (nif : ℕ) : (mibInitLeaves nif).length = mibMaxLeaves nif := by
  simp [mibInitLeaves, mibMaxLeaves, sysScalars, ifColumns, fwScalars]
  omega

/-- **Nothing is dropped**: the table has a place for every leaf. -/
theorem mibInit_eq {rows nif : ℕ} (h : nif ≤ rows) : mibInit rows nif = mibInitLeaves nif := by
  rw [mibInit, foldl_addLeaf, List.nil_append]
  have hmul : ifColumns.length * nif ≤ ifColumns.length * rows := Nat.mul_le_mul_left _ h
  rw [length_mibInitLeaves, mibMaxLeaves, mibMaxLeaves, List.length_nil]
  omega

/-- Every admitted interface count is the one that is used. -/
theorem SwitchConfig.simSwitchIfCount_eq (cfg : SwitchConfig) :
    cfg.simSwitchIfCount = cfg.ifCount := by
  have h1 := cfg.one_le_ifCount
  have h8 := cfg.ifCount_le
  have hmax : ¬ simSwitchMaxIf < cfg.ifCount := Nat.not_lt.2 h8
  rw [simSwitchIfCount, if_neg (Nat.not_lt.2 h1)]
  exact if_neg hmax

theorem SwitchConfig.mibView_eq (cfg : SwitchConfig) :
    cfg.mibView = mibInitLeaves cfg.simSwitchIfCount := by
  have h8 := cfg.ifCount_le
  refine mibInit_eq ?_
  rw [cfg.simSwitchIfCount_eq, mibIfRows, simSwitchMaxIf]
  omega

/-- The OIDs of the system scalars share the system group's prefix. -/
theorem mibLeafOid_of_mem_sysScalars {leaf : MibLeaf}
    (h : leaf ∈ sysScalars.map fun c ↦ (⟨c.1, c.2, 0⟩ : MibLeaf)) :
    mibLeafOid leaf = sysPrefix ++ [leaf.col, 0] := by
  simp only [sysScalars, List.map_cons, List.map_nil, List.mem_cons, List.not_mem_nil,
    or_false] at h
  rcases h with rfl | rfl | rfl | rfl | rfl | rfl | rfl <;> rfl

/-- The name of a leaf of the interface table. -/
theorem mibLeafOid_of_mem_ifColumns {c : MibKind × ℕ} (h : c ∈ ifColumns) (r : ℕ) :
    mibLeafOid ⟨c.1, c.2, r⟩ = ifentryPrefix ++ [c.2, r] := by
  simp only [ifColumns, List.mem_cons, List.not_mem_nil, or_false] at h
  rcases h with rfl | rfl | rfl | rfl | rfl | rfl | rfl | rfl | rfl | rfl | rfl <;> rfl

/-- The name of a scalar of the firmware. -/
theorem mibLeafOid_of_mem_fwScalars {leaf : MibLeaf}
    (h : leaf ∈ fwScalars.map fun c ↦ (⟨c.1, c.2, 0⟩ : MibLeaf)) :
    mibLeafOid leaf = sysObjectIdValue ++ [leaf.col, 0] := by
  simp only [fwScalars, List.map_cons, List.map_nil, List.mem_cons, List.not_mem_nil,
    or_false] at h
  rcases h with rfl | rfl | rfl <;> rfl

/-- The interface table: column by column and, within a column, row by row. -/
theorem sorted_ifTable (nif : ℕ) :
    SortedTable.Sorted mibLeafOid
      (ifColumns.flatMap fun c ↦ (List.range' 1 nif).map fun r ↦ (⟨c.1, c.2, r⟩ : MibLeaf)) := by
  have hcols : ifColumns.Pairwise fun c d ↦ c.2 < d.2 := by decide
  rw [SortedTable.Sorted, List.pairwise_flatMap]
  constructor
  · intro c hc
    rw [List.pairwise_map]
    refine (List.pairwise_lt_range' (s := 1) (n := nif)).imp fun {r r'} hrow ↦ ?_
    rw [mibLeafOid_of_mem_ifColumns hc, mibLeafOid_of_mem_ifColumns hc]
    simpa [ifentryPrefix, List.cons_lt_cons_iff] using hrow
  · refine hcols.imp_of_mem fun {c d} hc hd hlt ↦ ?_
    intro a ha b hb
    obtain ⟨r, -, rfl⟩ := List.mem_map.1 ha
    obtain ⟨r', -, rfl⟩ := List.mem_map.1 hb
    rw [mibLeafOid_of_mem_ifColumns hc, mibLeafOid_of_mem_ifColumns hd]
    simp [ifentryPrefix, List.cons_lt_cons_iff, hlt]

/-- **`mib_init` fills the table in walk order**, for any number of interfaces. -/
theorem sorted_mibInitLeaves (nif : ℕ) : SortedTable.Sorted mibLeafOid (mibInitLeaves nif) := by
  have hsys : SortedTable.Sorted mibLeafOid
      (sysScalars.map fun c ↦ (⟨c.1, c.2, 0⟩ : MibLeaf)) := by
    rw [SortedTable.Sorted]
    decide
  have hfw : SortedTable.Sorted mibLeafOid
      (fwScalars.map fun c ↦ (⟨c.1, c.2, 0⟩ : MibLeaf)) := by
    rw [SortedTable.Sorted]
    decide
  have hif : ∀ leaf ∈ ifColumns.flatMap fun c ↦
      (List.range' 1 nif).map fun r ↦ (⟨c.1, c.2, r⟩ : MibLeaf),
      mibLeafOid leaf = ifentryPrefix ++ [leaf.col, leaf.row] := by
    intro leaf h
    obtain ⟨c, hc, h⟩ := List.mem_flatMap.1 h
    obtain ⟨r, -, rfl⟩ := List.mem_map.1 h
    exact mibLeafOid_of_mem_ifColumns hc r
  -- four blocks, each sorted, and the prefixes of their names keep them apart
  rw [mibInitLeaves, SortedTable.Sorted, List.pairwise_append, List.pairwise_append,
    List.pairwise_append]
  refine ⟨⟨⟨hsys, List.pairwise_singleton _ _, ?_⟩, sorted_ifTable nif, ?_⟩, hfw, ?_⟩
  · intro a ha b hb
    rw [List.mem_singleton.1 hb, mibLeafOid_of_mem_sysScalars ha]
    simp [mibLeafOid, sysPrefix, ifnumOid, List.cons_lt_cons_iff]
  · intro a ha b hb
    rw [hif b hb]
    rcases List.mem_append.1 ha with ha | ha
    · rw [mibLeafOid_of_mem_sysScalars ha]
      simp [sysPrefix, ifentryPrefix, List.cons_lt_cons_iff]
    · rw [List.mem_singleton.1 ha]
      simp [mibLeafOid, ifnumOid, ifentryPrefix, List.cons_lt_cons_iff]
  · intro a ha b hb
    rw [mibLeafOid_of_mem_fwScalars hb]
    rcases List.mem_append.1 ha with ha | ha
    · rcases List.mem_append.1 ha with ha | ha
      · rw [mibLeafOid_of_mem_sysScalars ha]
        simp [sysPrefix, sysObjectIdValue, List.cons_lt_cons_iff]
      · rw [List.mem_singleton.1 ha]
        simp [mibLeafOid, ifnumOid, sysObjectIdValue, List.cons_lt_cons_iff]
    · rw [hif a ha]
      simp [ifentryPrefix, sysObjectIdValue, List.cons_lt_cons_iff]

/-- The table the agent serves is sorted. -/
theorem SwitchConfig.sorted_mibView (cfg : SwitchConfig) :
    SortedTable.Sorted mibLeafOid cfg.mibView :=
  cfg.mibView_eq ▸ sorted_mibInitLeaves _

/-! ### Lookups and walks of a sorted view -/

/-- The lookups of `snmp_mib.c` search the view by its lexicographic order. -/
structure ExactSearch (mib : Mib) : Prop where
  /-- GET finds a leaf exactly when one has the OID. -/
  exact_isSome : ∀ oid, (mibGetExact mib oid).isSome ↔ ∃ leaf ∈ mib, mibLeafOid leaf = oid
  exact_oid : ∀ oid i, mibGetExact mib oid = some i →
    ∃ h : i < mib.length, mibLeafOid mib[i] = oid
  /-- GETNEXT finds the least leaf strictly greater. -/
  next_eq_some : ∀ oid i, mibGetNext mib oid = some i ↔
    ∃ h : i < mib.length, oidCmp oid (mibLeafOid mib[i]) < 0 ∧
      ∀ leaf ∈ mib, oidCmp oid (mibLeafOid leaf) < 0 →
        oidCmp (mibLeafOid mib[i]) (mibLeafOid leaf) ≤ 0
  next_eq_none : ∀ oid, mibGetNext mib oid = none ↔
    ∀ leaf ∈ mib, oidCmp (mibLeafOid leaf) oid ≤ 0
  /-- The leaf after a leaf is what a GETNEXT on its OID finds. -/
  nextLeaf : ∀ i (h : i < mib.length), mibNextLeaf mib i = mibGetNext mib (mibLeafOid mib[i])
  /-- Repeated GETNEXT returns the leaves greater than its start one by one, in order, and from
  then on endOfMibView. -/
  walk : ∀ oid n, (getnextWalk mib oid n).bind (mib[·]?) =
    (mib.filter fun leaf ↦ oidCmp oid (mibLeafOid leaf) < 0)[n]?

/-- On a sorted table the next index is the next name. -/
theorem mibNextLeaf_eq_mibGetNext (hs : SortedTable.Sorted mibLeafOid mib) (hi : i < mib.length) :
    mibNextLeaf mib i = mibGetNext mib (mibLeafOid mib[i]) := by
  rw [mibGetNext_eq_above, hs.above_key hi, mibNextLeaf]
  by_cases h : i + 1 < mib.length
  · rw [if_neg (Nat.not_le.2 h), if_pos h]
  · rw [if_pos (Nat.le_of_not_lt h), if_neg h]

theorem oidCmp_nonpos_iff {a b : List ℕ} : oidCmp a b ≤ 0 ↔ a ≤ b := by
  rw [← Int.not_lt, oidCmp_pos_iff, not_lt]

/-- All that a search should be, of any sorted table. -/
theorem exactSearch_of_sorted (hs : SortedTable.Sorted mibLeafOid mib) : ExactSearch mib where
  exact_isSome _ := isSome_mibGetExact_iff
  exact_oid _ _ h := mibGetExact_eq_some h
  next_eq_some oid i := by
    simp only [mibGetNext_eq_above, hs.above_eq_some_iff, oidCmp_neg_iff, oidCmp_nonpos_iff]
  next_eq_none oid := by
    simp only [mibGetNext_eq_above, SortedTable.above_eq_none_iff, oidCmp_nonpos_iff]
  nextLeaf _ hi := mibNextLeaf_eq_mibGetNext hs hi
  walk oid n := by
    rw [getnextWalk_eq_walk, hs.getElem?_walk]
    congr 2
    funext leaf
    exact decide_eq_decide.2 oidCmp_neg_iff.symm

/-- **The MIB view is searched exactly, and a walk visits everything once.** -/
theorem mibView_search (cfg : SwitchConfig) :
    LexOrder oidCmp ∧
      (cfg.mibView = mibInitLeaves cfg.simSwitchIfCount ∧
        cfg.mibView.Pairwise fun a b ↦ oidCmp (mibLeafOid a) (mibLeafOid b) < 0) ∧
      ExactSearch cfg.mibView := by
  refine ⟨lexOrder_oidCmp, ⟨cfg.mibView_eq, ?_⟩, exactSearch_of_sorted cfg.sorted_mibView⟩
  exact cfg.sorted_mibView.imp fun h ↦ oidCmp_neg_iff.2 h

end ThinEdge.Snmp
