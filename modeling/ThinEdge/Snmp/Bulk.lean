import ThinEdge.Snmp.Agent
import ThinEdge.Snmp.Walk

/-!
# GETBULK and iterated GETNEXT

`plan_getbulk` steps pointers into the leaf table and writes the endOfMibView varbind itself, where
a manager walking by GETNEXT would have the agent search for every name. `planGetbulk_getnext` says
that the two agree: what a repeater is given is a prefix, as encoded, of the chain of GETNEXT
answers from its name, up to the first endOfMibView.

A manager splits the response by position, one column for each repeater. A repeater whose chain has
ended is skipped in the later repetitions, so that the varbinds after its place move up.
`bulkAligned_iff` says for which requests the columns are right all the same.
-/

namespace ThinEdge.Snmp

/-! ### Encoded varbinds -/

/-- What `emit_varbind` encodes as the value of a varbind. -/
inductive VbValue
  | exception (tag : UInt8)
  | leaf (i : ℕ)
  | null
  deriving DecidableEq, Repr

/-- The value of a planned varbind: its exception, else its leaf's value. -/
def RespVb.value (vb : RespVb) : VbValue :=
  if vb.exception ≠ 0 then .exception vb.exception
  else
    match vb.leaf with
    | some i => .leaf i
    | none => .null

/-- The name of a planned varbind: its leaf's OID, else the request name. -/
def RespVb.oid (mib : Mib) (vb : RespVb) : List ℕ :=
  match vb.leaf with
  | some i => leafOidAt mib i
  | none => vb.name.oid

/-- A planned varbind as it is encoded: name and value. -/
def RespVb.encoded (mib : Mib) (vb : RespVb) : List ℕ × VbValue := (vb.oid mib, vb.value)

theorem length_mibLeafOid_le (leaf : MibLeaf) : (mibLeafOid leaf).length ≤ 11 := by
  obtain ⟨kind, col, row⟩ := leaf
  cases kind <;> simp [mibLeafOid, ifnumOid, sysObjectIdValue, ifentryPrefix, sysPrefix]

theorem length_leafOidAt_le (mib : Mib) (i : ℕ) : (leafOidAt mib i).length ≤ berMaxOidLen := by
  rw [leafOidAt]
  rcases mib[i]? with - | leaf
  · exact Nat.zero_le _
  · exact (length_mibLeafOid_le leaf).trans (show 11 ≤ berMaxOidLen by decide)

/-- The name of a planned varbind, as the request name of the next GETNEXT. -/
def RespVb.nextName (mib : Mib) (vb : RespVb) : VbName where
  oid := vb.oid mib
  oid_length_le := by
    rw [RespVb.oid]
    split
    · exact length_leafOidAt_le mib _
    · exact vb.name.oid_length_le

/-! ### The chain of GETNEXT answers -/

/-- The chain of GETNEXT answers from a request name, each for the name returned before. -/
def getnextChain (mib : Mib) (name : VbName) : ℕ → RespVb
  | 0 => setVbNext mib name
  | n + 1 => setVbNext mib ((getnextChain mib name n).nextName mib)

/-- The name under which a chain ends: the last leaf's, or the request name when no leaf follows
it. -/
def chainEnd (mib : Mib) (name : VbName) : List ℕ :=
  if leavesAfter mib name.oid = 0 then name.oid else leafOidAt mib (mib.length - 1)

variable {mib : Mib} {name : VbName} {n : ℕ}

theorem encoded_setVbNext (mib : Mib) (name : VbName) :
    (setVbNext mib name).encoded mib = (getnextName mib name.oid,
      match mibGetNext mib name.oid with
      | none => .exception excEndOfMibView
      | some i => .leaf i) := by
  rw [getnextName]
  rcases h : mibGetNext mib name.oid with - | i
  · rw [setVbNext_of_none h]
    rfl
  · rw [setVbNext_of_some h]
    rfl

theorem oid_getnextChain (mib : Mib) (name : VbName) (n : ℕ) :
    (getnextChain mib name n).oid mib = (getnextName mib)^[n + 1] name.oid := by
  induction n with
  | zero => exact congrArg Prod.fst (encoded_setVbNext mib name)
  | succ n ih =>
    rw [Function.iterate_succ_apply', ← ih]
    exact congrArg Prod.fst (encoded_setVbNext mib ((getnextChain mib name n).nextName mib))

/-- The `n`-th answer of the chain, by the walk of names. -/
theorem encoded_getnextChain (mib : Mib) (name : VbName) (n : ℕ) :
    (getnextChain mib name n).encoded mib = ((getnextName mib)^[n + 1] name.oid,
      match getnextWalk mib name.oid n with
      | none => .exception excEndOfMibView
      | some i => .leaf i) := by
  cases n with
  | zero => exact encoded_setVbNext mib name
  | succ n =>
    rw [Function.iterate_succ_apply', ← oid_getnextChain, getnextWalk, ← oid_getnextChain]
    exact encoded_setVbNext mib ((getnextChain mib name n).nextName mib)

section Sorted

variable (hs : SortedTable.Sorted mibLeafOid mib)

theorem leavesAfter_eq (mib : Mib) (oid : List ℕ) :
    leavesAfter mib oid = mib.length - SortedTable.rank mibLeafOid mib oid := by
  rw [leavesAfter, mibGetNext_eq_above, SortedTable.above_eq]
  by_cases h : SortedTable.rank mibLeafOid mib oid < mib.length
  · rw [if_pos h]
  · rw [if_neg h]
    exact (Nat.sub_eq_zero_of_le (Nat.not_lt.1 h)).symm

include hs

theorem getnextWalk_eq_ite (oid : List ℕ) (n : ℕ) :
    getnextWalk mib oid n =
      if n < leavesAfter mib oid then some (SortedTable.rank mibLeafOid mib oid + n) else none := by
  rw [getnextWalk_eq_walk, hs.walk_eq, leavesAfter_eq]
  by_cases h : SortedTable.rank mibLeafOid mib oid + n < mib.length
  · rw [if_pos h, if_pos (by omega)]
  · rw [if_neg h, if_neg (by omega)]

/-- As long as leaves follow, the chain gives them one by one. -/
theorem encoded_getnextChain_of_lt (h : n < leavesAfter mib name.oid) :
    (getnextChain mib name n).encoded mib =
      (leafOidAt mib (SortedTable.rank mibLeafOid mib name.oid + n),
        .leaf (SortedTable.rank mibLeafOid mib name.oid + n)) := by
  have hwalk := getnextWalk_eq_ite hs name.oid n
  rw [if_pos h] at hwalk
  rw [encoded_getnextChain, hwalk, Function.iterate_succ_apply', getnextName]
  rw [getnextWalk] at hwalk
  rw [hwalk]

theorem iterate_getnextName_of_le (h : leavesAfter mib name.oid ≤ n) :
    (getnextName mib)^[n] name.oid = chainEnd mib name := by
  induction n, h using Nat.le_induction with
  | base =>
    rw [chainEnd]
    rcases hn : leavesAfter mib name.oid with - | m
    · rfl
    · have hlast : (getnextChain mib name m).oid mib =
          leafOidAt mib (SortedTable.rank mibLeafOid mib name.oid + m) :=
        congrArg Prod.fst (encoded_getnextChain_of_lt hs (by omega))
      rw [leavesAfter_eq] at hn
      rw [if_neg (Nat.succ_ne_zero m), ← oid_getnextChain,
        show mib.length - 1 = SortedTable.rank mibLeafOid mib name.oid + m by omega]
      exact hlast
  | succ n hle ih =>
    have hwalk := getnextWalk_eq_ite hs name.oid n
    rw [if_neg (Nat.not_lt.2 hle), getnextWalk] at hwalk
    rw [Function.iterate_succ_apply', getnextName, hwalk]
    exact ih

/-- From then on it answers endOfMibView, always under the same name. -/
theorem encoded_getnextChain_of_le (h : leavesAfter mib name.oid ≤ n) :
    (getnextChain mib name n).encoded mib = (chainEnd mib name, .exception excEndOfMibView) := by
  rw [encoded_getnextChain, getnextWalk_eq_ite hs, if_neg (Nat.not_lt.2 h),
    iterate_getnextName_of_le hs (h.trans (Nat.le_succ n))]

theorem value_getnextChain_eq_end_iff :
    (getnextChain mib name n).value = .exception excEndOfMibView ↔
      chainLength mib name ≤ n + 1 := by
  rw [chainLength]
  by_cases h : n < leavesAfter mib name.oid
  · have hv := congrArg Prod.snd (encoded_getnextChain_of_lt hs h)
    rw [show (getnextChain mib name n).value = _ from hv]
    simp only [reduceCtorEq, false_iff]
    omega
  · have hv := congrArg Prod.snd (encoded_getnextChain_of_le hs (Nat.not_lt.1 h))
    rw [show (getnextChain mib name n).value = _ from hv]
    simp only [true_iff]
    omega

end Sorted

/-! ### The answers of one repeater -/

/-- A repeater before its first answer. -/
def walkerStart (name : VbName) : Walker := ⟨name, none, false⟩

theorem nextVb_of_some {c l : ℕ} {done : Bool} (h : mibNextLeaf mib c = some l) :
    Walker.nextVb mib ⟨name, some c, done⟩ = { leaf := some l, name, exception := 0 } := by
  simp [Walker.nextVb, h]

theorem nextVb_of_none {c : ℕ} {done : Bool} (h : mibNextLeaf mib c = none) :
    Walker.nextVb mib ⟨name, some c, done⟩ =
      { leaf := some c, name, exception := excEndOfMibView } := by
  simp [Walker.nextVb, h]

theorem after_of_leaf {w : Walker} (h : w.doneWalk = false)
    (hleaf : (w.nextVb mib).exception = 0) :
    RoundRobin.after (Walker.answer mib) w = { w with cursor := (w.nextVb mib).leaf } := by
  rw [RoundRobin.after, answer_of_leaf h hleaf]

theorem mibNextLeaf_pred {i : ℕ} (hi : i + 1 < mib.length) : mibNextLeaf mib i = some (i + 1) := by
  rw [mibNextLeaf, if_neg (Nat.not_le.2 hi)]

section Sorted

variable (hs : SortedTable.Sorted mibLeafOid mib)

include hs

/-- While leaves follow, the cursor is the leaf returned last. -/
theorem iterate_after_walker (h : n ≤ leavesAfter mib name.oid) :
    (RoundRobin.after (Walker.answer mib))^[n] (walkerStart name) =
      ⟨name, if n = 0 then none else some (SortedTable.rank mibLeafOid mib name.oid + n - 1),
        false⟩ := by
  have hlen := leavesAfter_eq mib name.oid
  induction n with
  | zero => rfl
  | succ n ih =>
    rw [Function.iterate_succ_apply', ih (by omega)]
    have hwalk := getnextWalk_eq_ite hs name.oid 0
    rw [if_pos (by omega), Nat.add_zero] at hwalk
    cases n with
    | zero =>
      have hvb : Walker.nextVb mib ⟨name, none, false⟩ =
          { leaf := some (SortedTable.rank mibLeafOid mib name.oid), name, exception := 0 } :=
        setVbNext_of_some hwalk
      rw [if_pos rfl, after_of_leaf rfl (by rw [hvb]), hvb]
      rfl
    | succ n =>
      have hvb : Walker.nextVb mib
          ⟨name, some (SortedTable.rank mibLeafOid mib name.oid + n), false⟩ =
            { leaf := some (SortedTable.rank mibLeafOid mib name.oid + n + 1), name,
              exception := 0 } :=
        nextVb_of_some (mibNextLeaf_pred (by omega))
      rw [if_neg (Nat.succ_ne_zero n), if_neg (Nat.succ_ne_zero _), ← Nat.add_assoc,
        Nat.add_sub_cancel, after_of_leaf rfl (by rw [hvb]), hvb]
      rfl

/-- The varbind a walker plans after `n` leaves is the `n`-th answer of the chain, as encoded. -/
theorem encoded_nextVb (h : n ≤ leavesAfter mib name.oid) :
    (Walker.nextVb mib
      ((RoundRobin.after (Walker.answer mib))^[n] (walkerStart name))).encoded mib =
      (getnextChain mib name n).encoded mib := by
  have hlen := leavesAfter_eq mib name.oid
  rw [iterate_after_walker hs h]
  cases n with
  | zero => rfl
  | succ n =>
    rw [if_neg (Nat.succ_ne_zero n), ← Nat.add_assoc, Nat.add_sub_cancel]
    rcases Nat.lt_or_eq_of_le h with hlt | heq
    · rw [encoded_getnextChain_of_lt hs hlt, nextVb_of_some (mibNextLeaf_pred (by omega))]
      rfl
    · have hlast : SortedTable.rank mibLeafOid mib name.oid + n = mib.length - 1 := by omega
      have hnone : mibNextLeaf mib (mib.length - 1) = none :=
        mibNextLeaf_eq_none_iff.2 (by omega)
      rw [encoded_getnextChain_of_le hs heq.ge, chainEnd, if_neg (by omega), hlast,
        nextVb_of_none hnone]
      rfl

theorem exception_nextVb_of_lt (h : n < leavesAfter mib name.oid) :
    (Walker.nextVb mib ((RoundRobin.after (Walker.answer mib))^[n] (walkerStart name))).exception =
      0 := by
  have henc := congrArg Prod.snd (encoded_nextVb hs h.le)
  rw [encoded_getnextChain_of_lt hs h] at henc
  have hval : (Walker.nextVb mib _).value = VbValue.leaf _ := henc
  rw [RespVb.value] at hval
  by_contra hne
  rw [if_pos hne] at hval
  exact absurd hval (by simp)

theorem exception_nextVb_of_eq (h : n = leavesAfter mib name.oid) :
    (Walker.nextVb mib ((RoundRobin.after (Walker.answer mib))^[n] (walkerStart name))).exception =
      excEndOfMibView := by
  have henc := congrArg Prod.snd (encoded_nextVb hs h.le)
  rw [encoded_getnextChain_of_le hs h.ge] at henc
  have hval : (Walker.nextVb mib _).value = VbValue.exception excEndOfMibView := henc
  rw [RespVb.value] at hval
  split at hval
  · exact VbValue.exception.inj hval
  · split at hval <;> exact absurd hval (by simp)

/-- **What a repeater answers is its chain**, as encoded, up to the first endOfMibView. -/
theorem map_encoded_answer (name : VbName) (n : ℕ) :
    (RoundRobin.answer (Walker.answer mib) n (walkerStart name)).map (RespVb.encoded mib) =
      if n < chainLength mib name then some ((getnextChain mib name n).encoded mib) else none := by
  have hlive : ∀ k ≤ leavesAfter mib name.oid,
      ((RoundRobin.after (Walker.answer mib))^[k] (walkerStart name)).doneWalk = false := by
    intro k hk
    rw [iterate_after_walker hs hk]
  rw [chainLength]
  rcases Nat.lt_or_ge n (leavesAfter mib name.oid + 1) with hlt | hge
  · rw [if_pos hlt, ← encoded_nextVb hs (Nat.le_of_lt_succ hlt), RoundRobin.answer]
    rcases Nat.lt_or_eq_of_le (Nat.le_of_lt_succ hlt) with hn | hn
    · rw [answer_of_leaf (hlive n hn.le) (exception_nextVb_of_lt hs hn)]
      rfl
    · rw [answer_of_end (hlive n hn.le) (exception_nextVb_of_eq hs hn)]
      rfl
  · -- after its endOfMibView the walker is done for good
    obtain ⟨d, rfl⟩ := Nat.exists_eq_add_of_le hge
    have hdone : ∀ d, ((RoundRobin.after (Walker.answer mib))^[leavesAfter mib name.oid + 1 + d]
        (walkerStart name)).doneWalk = true := by
      intro d
      induction d with
      | zero =>
        rw [Nat.add_zero, Function.iterate_succ_apply', RoundRobin.after,
          answer_of_end (hlive _ le_rfl) (exception_nextVb_of_eq hs rfl)]
      | succ d ih =>
        rw [← Nat.add_assoc, Function.iterate_succ_apply', RoundRobin.after, answer_of_done ih]
        exact ih
    rw [if_neg (by omega), RoundRobin.answer, answer_of_done (hdone d)]
    rfl

end Sorted

/-! ### The plan -/

variable {cfg : SnmpConfig} {r : ParsedReq cfg}

theorem out_bulkStart (mib : Mib) (r : ParsedReq cfg) :
    (bulkStart mib r).out = (planGetnext mib r).take r.nonRep := by
  rw [bulkStart, planGetnext, List.take_take, Nat.min_eq_right (nonRep_le_maxRespVb r),
    List.map_take]

theorem walkers_bulkStart (mib : Mib) (r : ParsedReq cfg) :
    (bulkStart mib r).walkers = r.repeaters.map walkerStart := rfl

/-- **What `plan_getbulk` plans**: the GETNEXT answers of the non-repeaters, then the repeaters'
answers row by row, cut off at the cap. -/
theorem planGetbulk_eq (mib : Mib) (r : ParsedReq cfg) :
    planGetbulk mib r =
      (planGetnext mib r).take r.nonRep ++
        (RoundRobin.rows (Walker.answer mib) (r.repeaters.map walkerStart) r.maxRep).take
          (cfg.maxRespVb - r.nonRep) := by
  have hlen := length_out_bulkStart mib r
  have hcap := nonRep_le_maxRespVb r
  rw [← out_bulkStart, planGetbulk]
  split
  · next h =>
    have hnil :
        RoundRobin.rows (Walker.answer mib) (r.repeaters.map walkerStart) r.maxRep = [] := by
      rcases h with h | h
      · simp [h, RoundRobin.rows, RoundRobin.row]
      · rw [h, RoundRobin.rows, List.range_zero, List.flatMap_nil]
    rw [hnil, List.take_nil, List.append_nil]
  · rw [bulkLoop, RoundRobin.Loop.out_run (by omega) (Nat.le_add_left _ _), List.take_append,
      walkers_bulkStart, hlen, List.take_of_length_le (by omega)]
    rfl

/-- `plan_getbulk`'s loop before its first repetition, with every varbind marked by the index of the
request name it answers. -/
def bulkStartFor (mib : Mib) (r : ParsedReq cfg) : RoundRobin.Loop (Walker × ℕ) (RespVb × ℕ) where
  round := 0
  walkers := (bulkStart mib r).walkers.zipIdx r.nonRep
  out := (bulkStart mib r).out.zipIdx

/-- `plan_getbulk` with every varbind marked by the index of the request name it answers. -/
def planGetbulkFor (mib : Mib) (r : ParsedReq cfg) : List (RespVb × ℕ) :=
  if r.repeaters = [] ∨ r.maxRep = 0 then (bulkStartFor mib r).out
  else
    ((bulkStartFor mib r).run (RoundRobin.tagged (Walker.answer mib)) cfg.maxRespVb r.maxRep
      r.maxRep).out

/-- The varbinds planned for the `j`-th repeater. -/
def bulkAnswersFor (mib : Mib) (r : ParsedReq cfg) (j : ℕ) : List RespVb :=
  ((planGetbulkFor mib r).filter fun vb ↦ vb.2 = r.nonRep + j).map Prod.fst

theorem planGetbulkFor_eq (mib : Mib) (r : ParsedReq cfg) :
    planGetbulkFor mib r =
      ((planGetnext mib r).take r.nonRep).zipIdx ++
        (RoundRobin.rows (RoundRobin.tagged (Walker.answer mib))
          ((r.repeaters.map walkerStart).zipIdx r.nonRep) r.maxRep).take
            (cfg.maxRespVb - r.nonRep) := by
  have hlen : (bulkStartFor mib r).out.length = r.nonRep := by
    rw [bulkStartFor, List.length_zipIdx, length_out_bulkStart]
  have hcap := nonRep_le_maxRespVb r
  rw [← out_bulkStart, planGetbulkFor]
  split
  · next h =>
    have hnil : RoundRobin.rows (RoundRobin.tagged (Walker.answer mib))
        ((r.repeaters.map walkerStart).zipIdx r.nonRep) r.maxRep = [] := by
      rcases h with h | h
      · simp [h, RoundRobin.rows, RoundRobin.row]
      · rw [h, RoundRobin.rows, List.range_zero, List.flatMap_nil]
    rw [hnil, List.take_nil, List.append_nil]
    rfl
  · rw [RoundRobin.Loop.out_run (by omega) (Nat.le_add_left _ _), List.take_append, hlen,
      List.take_of_length_le (by omega)]
    rfl

/-- The marks change nothing about the plan. -/
theorem map_fst_planGetbulkFor (mib : Mib) (r : ParsedReq cfg) :
    (planGetbulkFor mib r).map Prod.fst = planGetbulk mib r := by
  rw [planGetbulkFor_eq, planGetbulk_eq, List.map_append, List.map_take,
    RoundRobin.map_fst_rows_tagged, List.zipIdx_map_fst, List.zipIdx_map_fst]

/-- The varbinds of a repeater, out of the rows that were collected. -/
theorem bulkAnswersFor_eq (mib : Mib) (r : ParsedReq cfg) (j : ℕ) :
    bulkAnswersFor mib r j =
      (((RoundRobin.rows (RoundRobin.tagged (Walker.answer mib))
        ((r.repeaters.map walkerStart).zipIdx r.nonRep) r.maxRep).take
          (cfg.maxRespVb - r.nonRep)).filter fun vb ↦ vb.2 = r.nonRep + j).map Prod.fst := by
  have hnil : (((planGetnext mib r).take r.nonRep).zipIdx.filter
      fun vb ↦ vb.2 = r.nonRep + j) = [] := by
    rw [List.filter_eq_nil_iff]
    intro vb hvb
    have hlt := List.snd_lt_add_of_mem_zipIdx hvb
    rw [List.length_take] at hlt
    rw [decide_eq_true_eq]
    omega
  rw [bulkAnswersFor, planGetbulkFor_eq, List.filter_append, hnil, List.nil_append]

/-- The answers of a repeater in its first `n` turns. -/
theorem map_encoded_answers (hs : SortedTable.Sorted mibLeafOid mib) (name : VbName) (n : ℕ) :
    (RoundRobin.answers (Walker.answer mib) (walkerStart name) n).map (RespVb.encoded mib) =
      (List.range (min n (chainLength mib name))).map
        fun i ↦ (getnextChain mib name i).encoded mib := by
  induction n with
  | zero => simp [RoundRobin.answers]
  | succ n ih =>
    have hans := map_encoded_answer hs name n
    rw [RoundRobin.answers_succ, List.map_append, ih]
    by_cases h : n < chainLength mib name
    · rw [if_pos h, Option.map_eq_some_iff] at hans
      obtain ⟨vb, hvb, henc⟩ := hans
      rw [hvb, Option.toList_some, List.map_singleton, henc, Nat.min_eq_left h.le,
        Nat.min_eq_left h, List.range_succ, List.map_append, List.map_singleton]
    · rw [if_neg h, Option.map_eq_none_iff] at hans
      rw [hans, Option.toList_none, List.map_nil, List.append_nil,
        Nat.min_eq_right (Nat.le_of_not_lt h),
        Nat.min_eq_right ((Nat.le_of_not_lt h).trans (Nat.le_succ n))]

theorem eq_nil_or_eq_of_prefix_toList {α : Type*} {l : List α} {o : Option α}
    (h : l <+: o.toList) : l = [] ∨ l = o.toList := by
  cases o with
  | none => exact Or.inl (List.prefix_nil.1 h)
  | some a =>
    rcases List.prefix_cons_iff.1 h with rfl | ⟨t, rfl, ht⟩
    · exact Or.inl rfl
    · exact Or.inr (by rw [List.prefix_nil.1 ht]; rfl)

/-- The repetitions that were served in full, to every repeater, and the turns after them. -/
theorem exists_reps (mib : Mib) (r : ParsedReq cfg) :
    ∃ reps ≤ r.maxRep, ((planGetbulk mib r).length < cfg.maxRespVb → reps = r.maxRep) ∧
      ∀ j (hj : j < r.repeaters.length),
        bulkAnswersFor mib r j =
            RoundRobin.answers (Walker.answer mib) (walkerStart r.repeaters[j]) reps ∨
          (planGetbulk mib r).length = cfg.maxRespVb ∧
            bulkAnswersFor mib r j =
              RoundRobin.answers (Walker.answer mib) (walkerStart r.repeaters[j]) (reps + 1) := by
  have hcap := nonRep_le_maxRespVb r
  have hstart := length_out_bulkStart mib r
  rw [out_bulkStart] at hstart
  have hlen : (planGetbulk mib r).length = r.nonRep + min (cfg.maxRespVb - r.nonRep)
      (RoundRobin.rows (RoundRobin.tagged (Walker.answer mib))
        ((r.repeaters.map walkerStart).zipIdx r.nonRep) r.maxRep).length := by
    rw [← map_fst_planGetbulkFor, List.length_map, planGetbulkFor_eq, List.length_append,
      List.length_zipIdx, hstart, List.length_take]
  set rows := RoundRobin.rows (RoundRobin.tagged (Walker.answer mib))
    ((r.repeaters.map walkerStart).zipIdx r.nonRep) r.maxRep with hrows
  -- of whole rows, each repeater gets its own answers
  have hmine : ∀ n j (hj : j < r.repeaters.length),
      ((RoundRobin.rows (RoundRobin.tagged (Walker.answer mib))
        ((r.repeaters.map walkerStart).zipIdx r.nonRep) n).filter
          fun vb ↦ vb.2 = r.nonRep + j).map Prod.fst =
        RoundRobin.answers (Walker.answer mib) (walkerStart r.repeaters[j]) n := by
    intro n j hj
    rw [RoundRobin.filter_rows_tagged _ _ _ (by rwa [List.length_map])]
    simp only [List.getElem_map]
  by_cases hfit : rows.length ≤ cfg.maxRespVb - r.nonRep
  · refine ⟨r.maxRep, le_rfl, fun _ ↦ rfl, fun j hj ↦ Or.inl ?_⟩
    rw [bulkAnswersFor_eq, ← hrows, List.take_of_length_le hfit]
    exact hmine r.maxRep j hj
  · -- the cap cuts the rows after `n` whole ones and `m` answers of the next
    rw [Nat.not_le] at hfit
    obtain ⟨n, hn, m, htake⟩ := RoundRobin.take_rows _ hfit
    have hfull : (planGetbulk mib r).length = cfg.maxRespVb := by
      rw [hlen, Nat.min_eq_left hfit.le]
      omega
    refine ⟨n, hn.le, fun h ↦ absurd hfull h.ne, fun j hj ↦ ?_⟩
    -- of the repetition that was cut, the repeater has its answer or nothing
    have hpart : ((((RoundRobin.row (RoundRobin.tagged (Walker.answer mib))
        ((r.repeaters.map walkerStart).zipIdx r.nonRep) n).take m).filter
          fun vb ↦ vb.2 = r.nonRep + j).map Prod.fst) <+:
        (RoundRobin.answer (Walker.answer mib) n (walkerStart r.repeaters[j])).toList := by
      have hrow := RoundRobin.filter_row_tagged (Walker.answer mib)
        (r.repeaters.map walkerStart) r.nonRep n (i := j) (by rwa [List.length_map])
      rw [List.getElem_map] at hrow
      rw [← hrow]
      exact ((List.take_prefix m _).filter _).map _
    rw [bulkAnswersFor_eq, ← hrows, hrows, htake, List.filter_append, List.map_append,
      hmine n j hj, RoundRobin.answers_succ]
    rcases eq_nil_or_eq_of_prefix_toList hpart with h | h
    · exact Or.inl (by rw [h, List.append_nil])
    · exact Or.inr ⟨hfull, by rw [h]⟩

/-- **GETBULK is iterated GETNEXT.** The plan never exceeds its cap and begins with one GETNEXT
answer for each non-repeater; each repeater's varbinds are, as encoded, the first answers of its
chain of GETNEXT answers, as many as repetitions were served, unless its chain ends sooner (at its
first endOfMibView) or the cap cut the last repetition short. -/
theorem planGetbulk_getnext (sw : SwitchConfig) (r : ParsedReq cfg) :
    (planGetbulk sw.mibView r).length ≤ cfg.maxRespVb ∧
      (planGetbulk sw.mibView r).take r.nonRep = (planGetnext sw.mibView r).take r.nonRep ∧
      (planGetbulkFor sw.mibView r).map Prod.fst = planGetbulk sw.mibView r ∧
      ∃ reps ≤ r.maxRep, ((planGetbulk sw.mibView r).length < cfg.maxRespVb → reps = r.maxRep) ∧
        ∀ j (hj : j < r.repeaters.length), ∃ n,
          (bulkAnswersFor sw.mibView r j).map (RespVb.encoded sw.mibView) =
            (List.range n).map (fun i ↦
              (getnextChain sw.mibView r.repeaters[j] i).encoded sw.mibView) ∧
          (∀ i, (getnextChain sw.mibView r.repeaters[j] i).value = .exception excEndOfMibView ↔
            chainLength sw.mibView r.repeaters[j] ≤ i + 1) ∧
          (n = min reps (chainLength sw.mibView r.repeaters[j]) ∨
            (planGetbulk sw.mibView r).length = cfg.maxRespVb ∧
              n = min (reps + 1) (chainLength sw.mibView r.repeaters[j])) := by
  have hs := sw.sorted_mibView
  have hstart := length_out_bulkStart sw.mibView r
  rw [out_bulkStart] at hstart
  refine ⟨length_planGetbulk_le _ r, ?_, map_fst_planGetbulkFor _ r, ?_⟩
  · rw [planGetbulk_eq, List.take_append_of_le_length hstart.ge, List.take_take, Nat.min_self]
  · obtain ⟨reps, hle, hall, hserved⟩ := exists_reps sw.mibView r
    refine ⟨reps, hle, hall, fun j hj ↦ ?_⟩
    rcases hserved j hj with h | ⟨hfull, h⟩
    · exact ⟨_, by rw [h, map_encoded_answers hs], fun _ ↦ value_getnextChain_eq_end_iff hs,
        Or.inl rfl⟩
    · exact ⟨_, by rw [h, map_encoded_answers hs], fun _ ↦ value_getnextChain_eq_end_iff hs,
        Or.inr ⟨hfull, rfl⟩⟩

/-! ### Rows by position -/

/-- **Aligned rows**: the planned varbind at place `nonRep + rep * M + j`, for `M` repeaters, is the
answer `rep` of the chain of repeater `j`; a chain past its end keeps answering endOfMibView. -/
def BulkAligned (mib : Mib) (r : ParsedReq cfg) : Prop :=
  ∀ rep j (hj : j < r.repeaters.length) vb,
    (planGetbulk mib r)[r.nonRep + (rep * r.repeaters.length + j)]? = some vb →
      vb.encoded mib = (getnextChain mib r.repeaters[j] rep).encoded mib

/-- The length of the chain of the `j`-th repeater. -/
def repeaterChainLength (mib : Mib) (r : ParsedReq cfg) (j : ℕ) : ℕ :=
  ((r.repeaters[j]?).map (chainLength mib)).getD 0

/-- Turn `p` of the repetition loop is the one of repeater `p % M` in repetition `p / M`, and it is
skipped when that repeater's chain has ended. -/
def turnKept (mib : Mib) (r : ParsedReq cfg) (p : ℕ) : Bool :=
  p / r.repeaters.length < repeaterChainLength mib r (p % r.repeaters.length)

/-- The turns of the repetition loop that are not skipped, in order. -/
def bulkTurns (mib : Mib) (r : ParsedReq cfg) : List ℕ :=
  (List.range (r.maxRep * r.repeaters.length)).filter (turnKept mib r)

/-- Every turn within the cap that has moved up, because turns before it are skipped, is a
repeater's last, and the repeater whose place it takes ends under the name of the last leaf. -/
def BulkTurnsKept (mib : Mib) (r : ParsedReq cfg) : Prop :=
  ∀ k < cfg.maxRespVb - r.nonRep, ∀ p, (bulkTurns mib r)[k]? = some p → p ≠ k →
    p / r.repeaters.length + 1 = repeaterChainLength mib r (p % r.repeaters.length) ∧
      (r.repeaters[k % r.repeaters.length]?).map (chainEnd mib) =
        some (leafOidAt mib (mib.length - 1))

/-- The encoded answer that is due in a turn. -/
def turnAnswer (mib : Mib) (r : ParsedReq cfg) (p : ℕ) : Option (List ℕ × VbValue) :=
  (r.repeaters[p % r.repeaters.length]?).map fun name ↦
    (getnextChain mib name (p / r.repeaters.length)).encoded mib

/-- A kept element's place among the kept ones. -/
theorem getElem?_filter_countP {α : Type*} {P : α → Bool} {l : List α} {p : ℕ} {a : α}
    (h : l[p]? = some a) (hP : P a = true) :
    (l.filter P)[(l.take p).countP P]? = some a := by
  have hp : p < l.length := (List.getElem?_eq_some_iff.1 h).1
  have hsplit : l.filter P = (l.take p).filter P ++ (l.drop p).filter P := by
    rw [← List.filter_append, List.take_append_drop]
  rw [hsplit, List.countP_eq_length_filter, List.getElem?_append_right le_rfl, Nat.sub_self,
    List.drop_eq_getElem_cons hp, (List.getElem?_eq_some_iff.1 h).2, List.filter_cons_of_pos hP]
  rfl

/-- Every kept element stood at the same place or further back. -/
theorem exists_getElem?_of_filter {α : Type*} {P : α → Bool} {l : List α} {k : ℕ} {a : α}
    (h : (l.filter P)[k]? = some a) :
    ∃ p, l[p]? = some a ∧ P a = true ∧ (l.take p).countP P = k := by
  induction l generalizing k with
  | nil => simp at h
  | cons b l ih =>
    by_cases hb : P b = true
    · rw [List.filter_cons_of_pos hb] at h
      cases k with
      | zero =>
        obtain rfl : b = a := by simpa using h
        exact ⟨0, rfl, hb, rfl⟩
      | succ k =>
        obtain ⟨p, hp, hPa, hk⟩ := ih (by simpa using h)
        exact ⟨p + 1, by simpa using hp, hPa, by
          rw [List.take_succ_cons, List.countP_cons_of_pos hb, hk]⟩
    · rw [List.filter_cons_of_neg hb] at h
      obtain ⟨p, hp, hPa, hk⟩ := ih h
      exact ⟨p + 1, by simpa using hp, hPa, by
        rw [List.take_succ_cons, List.countP_cons_of_neg hb, hk]⟩

theorem getElem?_bulkTurns_iff {k p : ℕ} :
    (bulkTurns mib r)[k]? = some p ↔
      p < r.maxRep * r.repeaters.length ∧ turnKept mib r p ∧
        (List.range p).countP (turnKept mib r) = k := by
  have htake : ∀ p, p < r.maxRep * r.repeaters.length →
      (List.range (r.maxRep * r.repeaters.length)).take p = List.range p := by
    intro p hp
    rw [List.take_range, Nat.min_eq_left hp.le]
  constructor
  · intro h
    obtain ⟨q, hq, hP, hk⟩ := exists_getElem?_of_filter h
    obtain ⟨hlt, heq⟩ := List.getElem?_eq_some_iff.1 hq
    rw [List.length_range] at hlt
    rw [List.getElem_range] at heq
    subst heq
    rw [htake q hlt] at hk
    exact ⟨hlt, hP, hk⟩
  · rintro ⟨hlt, hP, rfl⟩
    have h := getElem?_filter_countP (List.getElem?_range hlt) hP
    rwa [htake p hlt] at h

theorem filterMap_eq_range {α β : Type*} (l : List α) (f : α → Option β) :
    l.filterMap f = (List.range l.length).filterMap fun j ↦ (l[j]?).bind f := by
  have hmap : l.map some = (List.range l.length).map (l[·]?) := by
    refine List.ext_getElem (by simp) fun i h1 _ ↦ ?_
    rw [List.length_map] at h1
    simp [h1]
  have hl : l.filterMap f = (l.map some).filterMap (Option.bind · f) := by
    rw [List.filterMap_map]
    rfl
  rw [hl, hmap, List.filterMap_map]
  rfl

section Turn

variable {j : ℕ} (hj : j < r.repeaters.length)

include hj

theorem turn_div (k : ℕ) : (k * r.repeaters.length + j) / r.repeaters.length = k := by
  rw [Nat.mul_comm, Nat.mul_add_div (by omega), Nat.div_eq_of_lt hj, Nat.add_zero]

theorem turn_mod (k : ℕ) : (k * r.repeaters.length + j) % r.repeaters.length = j :=
  Nat.mul_add_mod_of_lt hj

theorem repeaterChainLength_eq :
    repeaterChainLength mib r j = chainLength mib r.repeaters[j] := by
  rw [repeaterChainLength, List.getElem?_eq_getElem hj, Option.map_some, Option.getD_some]

theorem turnKept_turn (k : ℕ) :
    turnKept mib r (k * r.repeaters.length + j) =
      decide (k < chainLength mib r.repeaters[j]) := by
  rw [turnKept, turn_div hj, turn_mod hj, repeaterChainLength_eq hj]

theorem turnAnswer_turn (k : ℕ) :
    turnAnswer mib r (k * r.repeaters.length + j) =
      some ((getnextChain mib r.repeaters[j] k).encoded mib) := by
  rw [turnAnswer, turn_div hj, turn_mod hj, List.getElem?_eq_getElem hj, Option.map_some]

end Turn

/-- The turns of one repetition give the answers of the repeaters whose chains go on. -/
theorem map_encoded_row (hs : SortedTable.Sorted mibLeafOid mib) (r : ParsedReq cfg) (k : ℕ) :
    (RoundRobin.row (Walker.answer mib) (r.repeaters.map walkerStart) k).map
        (fun vb ↦ some (vb.encoded mib)) =
      (((List.range r.repeaters.length).map (k * r.repeaters.length + ·)).filter
        (turnKept mib r)).map (turnAnswer mib r) := by
  rw [RoundRobin.row, List.filterMap_map, List.map_filterMap, filterMap_eq_range,
    ← List.filterMap_eq_filter, List.map_filterMap, List.filterMap_map]
  refine List.filterMap_congr fun j hj ↦ ?_
  rw [List.mem_range] at hj
  have hans := map_encoded_answer hs r.repeaters[j] k
  simp only [Function.comp_apply, List.getElem?_eq_getElem hj, Option.bind_some]
  by_cases h : k < chainLength mib r.repeaters[j]
  · rw [if_pos h, Option.map_eq_some_iff] at hans
    obtain ⟨vb, hvb, henc⟩ := hans
    simp [hvb, henc, Option.guard, turnKept_turn hj, turnAnswer_turn hj, h]
  · rw [if_neg h, Option.map_eq_none_iff] at hans
    simp [hans, Option.guard, turnKept_turn hj, Nat.not_lt.1 h]

/-- The rows that the repetition loop collects are the answers of its turns. -/
theorem map_encoded_rows (hs : SortedTable.Sorted mibLeafOid mib) (r : ParsedReq cfg) (k : ℕ) :
    (RoundRobin.rows (Walker.answer mib) (r.repeaters.map walkerStart) k).map
        (fun vb ↦ some (vb.encoded mib)) =
      ((List.range (k * r.repeaters.length)).filter (turnKept mib r)).map (turnAnswer mib r) := by
  induction k with
  | zero => simp [RoundRobin.rows]
  | succ k ih =>
    rw [RoundRobin.rows_succ', List.map_append, ih, Nat.succ_mul, List.range_add,
      List.filter_append, List.map_append, map_encoded_row hs]

/-- The varbind at a place after the non-repeaters is the answer of the turn at that place. -/
theorem getElem?_planGetbulk (hs : SortedTable.Sorted mibLeafOid mib) (r : ParsedReq cfg) (k : ℕ) :
    ((planGetbulk mib r)[r.nonRep + k]?).map (fun vb ↦ some (vb.encoded mib)) =
      if k < cfg.maxRespVb - r.nonRep then ((bulkTurns mib r)[k]?).map (turnAnswer mib r)
      else none := by
  have hstart := length_out_bulkStart mib r
  rw [out_bulkStart] at hstart
  rw [planGetbulk_eq, List.getElem?_append_right (by omega), hstart, Nat.add_sub_cancel_left,
    List.getElem?_take]
  split
  · rw [← List.getElem?_map, map_encoded_rows hs, List.getElem?_map]
    rfl
  · rfl

theorem exists_turn (hpos : 0 < r.repeaters.length) (k : ℕ) :
    ∃ rep j, j < r.repeaters.length ∧ rep * r.repeaters.length + j = k :=
  ⟨k / r.repeaters.length, k % r.repeaters.length, Nat.mod_lt k hpos, by
    rw [Nat.mul_comm, Nat.div_add_mod]⟩

theorem repeaters_pos_of_bulkTurns {k p : ℕ} (h : (bulkTurns mib r)[k]? = some p) :
    0 < r.repeaters.length := by
  have hlt := (getElem?_bulkTurns_iff.1 h).1
  refine Nat.pos_of_ne_zero fun hzero ↦ ?_
  rw [hzero, Nat.mul_zero] at hlt
  exact absurd hlt (Nat.not_lt_zero p)

/-- Alignment, turn by turn: the answer at a place is the one due in the turn of that number. -/
theorem bulkAligned_iff_turns (hs : SortedTable.Sorted mibLeafOid mib) (r : ParsedReq cfg) :
    BulkAligned mib r ↔ ∀ k < cfg.maxRespVb - r.nonRep, ∀ p, (bulkTurns mib r)[k]? = some p →
      turnAnswer mib r p = turnAnswer mib r k := by
  constructor
  · intro h k hk p hp
    have hplan := getElem?_planGetbulk hs r k
    rw [if_pos hk, hp, Option.map_some, Option.map_eq_some_iff] at hplan
    obtain ⟨vb, hvb, henc⟩ := hplan
    obtain ⟨rep, j, hj, rfl⟩ := exists_turn (repeaters_pos_of_bulkTurns hp) k
    rw [← henc, h rep j hj vb hvb, turnAnswer_turn hj]
  · intro h rep j hj vb hvb
    have hplan := getElem?_planGetbulk hs r (rep * r.repeaters.length + j)
    rw [hvb, Option.map_some] at hplan
    split at hplan
    · next hk =>
      obtain ⟨p, hp, hans⟩ := Option.map_eq_some_iff.1 hplan.symm
      have hdue := h _ hk p hp
      rw [hans, turnAnswer_turn hj, Option.some.injEq] at hdue
      exact hdue
    · exact absurd hplan (by simp)

section Moved

variable {k p rep j : ℕ}

/-- A turn that has moved up stood further back, and not in the first repetition, in which nobody is
skipped. -/
theorem lt_of_moved (hp : (bulkTurns mib r)[k]? = some p) (hne : p ≠ k) :
    k < p ∧ r.repeaters.length ≤ p := by
  obtain ⟨-, -, hcount⟩ := getElem?_bulkTurns_iff.1 hp
  have hle : k ≤ p := by
    rw [← hcount]
    exact List.countP_le_length.trans_eq List.length_range
  refine ⟨by omega, Nat.le_of_not_lt fun hlt ↦ hne ?_⟩
  have hall : (List.range p).countP (turnKept mib r) = (List.range p).length := by
    rw [List.countP_eq_length]
    intro q hq
    have hj : q < r.repeaters.length := (List.mem_range.1 hq).trans hlt
    have hkept : turnKept mib r (0 * r.repeaters.length + q) = _ := turnKept_turn hj 0
    rw [Nat.zero_mul, Nat.zero_add] at hkept
    rw [hkept, decide_eq_true_eq, chainLength]
    omega
  rw [← hcount, hall, List.length_range]

/-- The turn whose place was taken is itself not a leaf's, unless such a turn has moved up
before. -/
theorem place_or_moved (hp : (bulkTurns mib r)[k]? = some p) (hne : p ≠ k)
    (hj : j < r.repeaters.length) (hk : rep * r.repeaters.length + j = k) :
    chainLength mib r.repeaters[j] ≤ rep + 1 ∨
      ∃ q < k, (bulkTurns mib r)[q]? = some k ∧ k ≠ q ∧
        k / r.repeaters.length + 1 ≠ repeaterChainLength mib r (k % r.repeaters.length) := by
  by_cases hend : chainLength mib r.repeaters[j] ≤ rep + 1
  · exact Or.inl hend
  · refine Or.inr ⟨(List.range k).countP (turnKept mib r), ?_⟩
    have hkept : turnKept mib r k = true := by
      rw [← hk, turnKept_turn hj, decide_eq_true_eq]
      omega
    have hq : (bulkTurns mib r)[(List.range k).countP (turnKept mib r)]? = some k :=
      getElem?_bulkTurns_iff.2
        ⟨(lt_of_moved hp hne).1.trans (getElem?_bulkTurns_iff.1 hp).1, hkept, rfl⟩
    have hqk : (List.range k).countP (turnKept mib r) ≠ k := by
      intro heq
      rw [heq, hp, Option.some.injEq] at hq
      exact hne hq
    have hle : (List.range k).countP (turnKept mib r) ≤ k :=
      List.countP_le_length.trans_eq List.length_range
    refine ⟨by omega, hq, hqk.symm, ?_⟩
    rw [← hk, turn_div hj, turn_mod hj, repeaterChainLength_eq hj]
    omega

theorem turnAnswer_of_end (hs : SortedTable.Sorted mibLeafOid mib) (hj : j < r.repeaters.length)
    (hend : chainLength mib r.repeaters[j] ≤ rep + 1) :
    turnAnswer mib r (rep * r.repeaters.length + j) =
      some (chainEnd mib r.repeaters[j], .exception excEndOfMibView) := by
  rw [turnAnswer_turn hj, encoded_getnextChain_of_le hs]
  rw [chainLength] at hend
  omega

/-- A repeater whose turn has moved up ends under the last leaf's name. -/
theorem chainEnd_of_moved (hj : j < r.repeaters.length)
    (hp : (bulkTurns mib r)[k]? = some (rep * r.repeaters.length + j))
    (hne : rep * r.repeaters.length + j ≠ k) :
    chainEnd mib r.repeaters[j] = leafOidAt mib (mib.length - 1) := by
  have hkept := (getElem?_bulkTurns_iff.1 hp).2.1
  rw [turnKept_turn hj, decide_eq_true_eq, chainLength] at hkept
  have hM := (lt_of_moved hp hne).2
  have hrep : rep ≠ 0 := by
    rintro rfl
    omega
  rw [chainEnd, if_neg (by omega)]

end Moved

/-- **When the rows of a GETBULK response are aligned**: exactly when every turn that moves up is a
repeater's endOfMibView, in the place of a repeater that ends under the same name. -/
theorem bulkAligned_iff (sw : SwitchConfig) (r : ParsedReq cfg) :
    BulkAligned sw.mibView r ↔ BulkTurnsKept sw.mibView r := by
  have hs := sw.sorted_mibView
  rw [bulkAligned_iff_turns hs]
  constructor
  · intro h k
    -- by induction on the turn: those before it are in the places they are due at
    induction k using Nat.strong_induction_on with
    | h k ih =>
      intro hk p hp hne
      have hpos := repeaters_pos_of_bulkTurns hp
      obtain ⟨rep, j, hj, rfl⟩ := exists_turn hpos p
      obtain ⟨rep', j', hj', hk'⟩ := exists_turn hpos k
      have hplace : chainLength sw.mibView r.repeaters[j'] ≤ rep' + 1 := by
        rcases place_or_moved hp hne hj' hk' with hend | ⟨q, hqk, hq, hkq, hno⟩
        · exact hend
        · exact absurd (ih q hqk (hqk.trans hk) k hq hkq).1 hno
      have hdue := h k hk _ hp
      rw [← hk', turnAnswer_of_end hs hj' hplace] at hdue
      have hend : chainLength sw.mibView r.repeaters[j] ≤ rep + 1 := by
        rw [turnAnswer_turn hj, Option.some.injEq] at hdue
        exact (value_getnextChain_eq_end_iff hs).1 (congrArg Prod.snd hdue)
      rw [turnAnswer_of_end hs hj hend, Option.some.injEq, Prod.mk.injEq,
        chainEnd_of_moved hj hp hne] at hdue
      have hkept := (getElem?_bulkTurns_iff.1 hp).2.1
      rw [turnKept_turn hj, decide_eq_true_eq] at hkept
      rw [turn_div hj, turn_mod hj, repeaterChainLength_eq hj, ← hk', turn_mod hj',
        List.getElem?_eq_getElem hj', Option.map_some, ← hdue.1]
      exact ⟨by omega, rfl⟩
  · intro h k hk p hp
    by_cases hne : p = k
    · rw [hne]
    · have hpos := repeaters_pos_of_bulkTurns hp
      obtain ⟨rep, j, hj, rfl⟩ := exists_turn hpos p
      obtain ⟨rep', j', hj', hk'⟩ := exists_turn hpos k
      obtain ⟨hlast, hname⟩ := h k hk _ hp hne
      rw [turn_div hj, turn_mod hj, repeaterChainLength_eq hj] at hlast
      rw [← hk', turn_mod hj', List.getElem?_eq_getElem hj', Option.map_some,
        Option.some.injEq] at hname
      have hplace : chainLength sw.mibView r.repeaters[j'] ≤ rep' + 1 := by
        rcases place_or_moved hp hne hj' hk' with hend | ⟨q, hqk, hq, hkq, hno⟩
        · exact hend
        · exact absurd (h q (hqk.trans hk) k hq hkq).1 hno
      rw [turnAnswer_of_end hs hj hlast.ge, ← hk', turnAnswer_of_end hs hj' hplace, hname,
        chainEnd_of_moved hj hp hne]

/-- The switch with the default number of interfaces. -/
def defaultSwitch : SwitchConfig := ⟨5, by decide, by decide⟩

/-- Two repeaters for three repetitions: the objects after the last but one, and the interface
indexes. -/
def endingColumnBulk : ParsedReq defaultConfig where
  pduType := 0xA5
  requestId := 1
  field2 := 0
  field3 := 3
  names := [⟨[1, 3, 6, 1, 4, 1, 99999, 1, 2, 0], by decide⟩,
    ⟨[1, 3, 6, 1, 2, 1, 2, 2, 1, 1], by decide⟩]
  names_length_le := by decide
  tooMany := false
  community := "public".toUTF8.toList

/-- The first repeater answers endOfMibView in the second repetition. In the third it is skipped,
and `ifIndex.3`, the answer of the second repeater, stands in its column. -/
theorem not_bulkAligned_endingColumnBulk :
    ¬ BulkAligned defaultSwitch.mibView endingColumnBulk := by
  intro h
  have hplan : (planGetbulk defaultSwitch.mibView endingColumnBulk)[endingColumnBulk.nonRep +
      (2 * endingColumnBulk.repeaters.length + 0)]? =
        some { leaf := some 10, name := ⟨[1, 3, 6, 1, 2, 1, 2, 2, 1, 1], by decide⟩,
               exception := 0 } := by
    decide +kernel
  exact absurd (h 2 0 (by decide +kernel) _ hplan) (by decide +kernel)

end ThinEdge.Snmp
