import Mathlib.Data.Int.Notation
import ThinEdge.Lib.RoundRobin
import ThinEdge.Snmp.Mib

/-!
# The SNMP agent: planning a response

`lib/snmp/snmp_agent.c`: the parsed request, the planned response varbinds, and the three planners.
`plan_getbulk` is the round-robin collection of `ThinEdge.Lib.RoundRobin`: its walkers are the
repeaters' cursors and its output is the list of planned varbinds.

`planGetbulk_progress_iff` settles the work the repetition loop does. The response bounds the
varbinds, but the loop itself runs to the requester's max-repetitions: once every walker has
answered endOfMibView, the remaining repetitions skip them all and append nothing. The theorem says
for which requests that happens.
-/

namespace ThinEdge.Snmp

/-- `BER_MAX_OID_LEN`. -/
def berMaxOidLen : ℕ := 32

/-- `SNMP_EXC_NO_SUCH_INSTANCE`. -/
def excNoSuchInstance : UInt8 := 0x81

/-- `SNMP_EXC_END_OF_MIB_VIEW`. -/
def excEndOfMibView : UInt8 := 0x82

/-- `CONFIG_APP_SNMP_MAX_VARBINDS`, within the range Kconfig gives it. -/
structure SnmpConfig where
  maxVarbinds : ℕ
  le_maxVarbinds : 8 ≤ maxVarbinds
  maxVarbinds_le : maxVarbinds ≤ 64

/-- `SNMP_MAX_REQ_VB`: the requested varbinds a request may carry. -/
def SnmpConfig.maxReqVb (cfg : SnmpConfig) : ℕ := cfg.maxVarbinds

/-- `SNMP_MAX_RESP_VB`: the varbinds a response may carry. -/
def SnmpConfig.maxRespVb (cfg : SnmpConfig) : ℕ := cfg.maxReqVb + 16

/-- `struct vbname`: a request name. -/
structure VbName where
  oid : List ℕ
  oid_length_le : oid.length ≤ berMaxOidLen
  deriving DecidableEq, Repr

/-- `struct parsed_req`: what `parse_request` leaves for a well-formed request. -/
structure ParsedReq (cfg : SnmpConfig) where
  pduType : UInt8
  requestId : Int32
  /-- error-status (GET, GETNEXT) or non-repeaters (GETBULK). -/
  field2 : Int32
  /-- error-index (GET, GETNEXT) or max-repetitions (GETBULK). -/
  field3 : Int32
  /-- `names[0 .. nvb)`. -/
  names : List VbName
  names_length_le : names.length ≤ cfg.maxReqVb
  tooMany : Bool
  community : List UInt8

/-- `struct resp_vb`: one planned varbind. The name is the leaf's OID when there is a leaf, else the
request name; the value is the leaf's unless an exception stands in for it. -/
structure RespVb where
  leaf : Option ℕ
  name : VbName
  exception : UInt8
  deriving DecidableEq, Repr

variable {cfg : SnmpConfig}

/-! ### GET and GETNEXT -/

/-- `plan_get`. -/
def planGet (mib : Mib) (r : ParsedReq cfg) : List RespVb :=
  r.names.map fun name ↦
    let leaf := mibGetExact mib name.oid
    { leaf, name, exception := if leaf.isSome then 0 else excNoSuchInstance }

/-- `set_vb_next`: the leaf after a request name, or endOfMibView echoing the name. -/
def setVbNext (mib : Mib) (name : VbName) : RespVb :=
  let leaf := mibGetNext mib name.oid
  { leaf, name, exception := if leaf.isSome then 0 else excEndOfMibView }

/-- `plan_getnext`. -/
def planGetnext (mib : Mib) (r : ParsedReq cfg) : List RespVb :=
  r.names.map (setVbNext mib)

/-! ### GETBULK -/

/-- The non-repeaters `plan_getbulk` serves: negative is none, and no more than were sent. -/
def ParsedReq.nonRep (r : ParsedReq cfg) : ℕ :=
  let n := if r.field2 < 0 then 0 else r.field2.toInt.toNat
  if r.names.length < n then r.names.length else n

/-- The repetitions `plan_getbulk` is asked for: negative is none. -/
def ParsedReq.maxRep (r : ParsedReq cfg) : ℕ := if r.field3 < 0 then 0 else r.field3.toInt.toNat

/-- The repeaters' request names. -/
def ParsedReq.repeaters (r : ParsedReq cfg) : List VbName := r.names.drop r.nonRep

/-- One repeater of `plan_getbulk`: its request name, `cursor[j]` (the last leaf it returned) and
`done_walk[j]`. -/
structure Walker where
  name : VbName
  cursor : Option ℕ
  doneWalk : Bool
  deriving DecidableEq, Repr

/-- The varbind a live walker plans next. At the end of the MIB it names the last leaf returned, as
a GETNEXT on that leaf's OID would answer. -/
def Walker.nextVb (mib : Mib) (w : Walker) : RespVb :=
  match w.cursor with
  | none => setVbNext mib w.name
  | some c =>
    match mibNextLeaf mib c with
    | none => { leaf := some c, name := w.name, exception := excEndOfMibView }
    | some l => { leaf := some l, name := w.name, exception := 0 }

/-- The body of the inner loop of `plan_getbulk` for one walker: `none` when it is skipped. -/
def Walker.answer (mib : Mib) (w : Walker) : Option (RespVb × Walker) :=
  if w.doneWalk then none
  else
    let vb := w.nextVb mib
    some (vb, if vb.exception = excEndOfMibView then { w with doneWalk := true }
      else { w with cursor := vb.leaf })

/-- The repetition loop's state before its first repetition: the non-repeaters are answered and no
walker has moved. -/
def bulkStart (mib : Mib) (r : ParsedReq cfg) : RoundRobin.Loop Walker RespVb where
  round := 0
  walkers := r.repeaters.map fun name ↦ ⟨name, none, false⟩
  out := ((r.names.take r.nonRep).take cfg.maxRespVb).map (setVbNext mib)

/-- `plan_getbulk`'s repetition loop. -/
def bulkLoop (mib : Mib) (r : ParsedReq cfg) : RoundRobin.Loop Walker RespVb :=
  (bulkStart mib r).run (Walker.answer mib) cfg.maxRespVb r.maxRep r.maxRep

/-- `plan_getbulk`. -/
def planGetbulk (mib : Mib) (r : ParsedReq cfg) : List RespVb :=
  if r.repeaters = [] ∨ r.maxRep = 0 then (bulkStart mib r).out else (bulkLoop mib r).out

/-- `l` is a state reached at the head of the repetition loop. -/
def BulkHead (mib : Mib) (r : ParsedReq cfg) (l : RoundRobin.Loop Walker RespVb) : Prop :=
  ¬ (r.repeaters = [] ∨ r.maxRep = 0) ∧
    (bulkStart mib r).Head (Walker.answer mib) cfg.maxRespVb r.maxRep l

/-- The varbinds a GETNEXT walk from a name gives: every leaf after it, and endOfMibView. -/
def chainLength (mib : Mib) (name : VbName) : ℕ := leavesAfter mib name.oid + 1

/-- The varbinds a walker can still plan. -/
def Walker.life (mib : Mib) (w : Walker) : ℕ :=
  if w.doneWalk then 0
  else
    match w.cursor with
    | none => chainLength mib w.name
    | some c => mib.length - (c + 1) + 1

variable {mib : Mib} {r : ParsedReq cfg}

theorem setVbNext_of_none {name : VbName} (h : mibGetNext mib name.oid = none) :
    setVbNext mib name = { leaf := none, name, exception := excEndOfMibView } := by
  simp [setVbNext, h]

theorem setVbNext_of_some {name : VbName} {i : ℕ} (h : mibGetNext mib name.oid = some i) :
    setVbNext mib name = { leaf := some i, name, exception := 0 } := by
  simp [setVbNext, h]

theorem answer_of_done {w : Walker} (h : w.doneWalk = true) : w.answer mib = none := by
  simp [Walker.answer, h]

/-- A walker at the end of its chain answers endOfMibView once and is marked done. -/
theorem answer_of_end {w : Walker} (h : w.doneWalk = false)
    (hend : (w.nextVb mib).exception = excEndOfMibView) :
    w.answer mib = some (w.nextVb mib, { w with doneWalk := true }) := by
  simp [Walker.answer, h, hend]

theorem answer_of_leaf {w : Walker} (h : w.doneWalk = false)
    (hleaf : (w.nextVb mib).exception = 0) :
    w.answer mib = some (w.nextVb mib, { w with cursor := (w.nextVb mib).leaf }) := by
  simp [Walker.answer, h, hleaf, excEndOfMibView]

/-- **Every answer uses up one element of the walker's chain.** -/
theorem lifespan_answer (mib : Mib) :
    RoundRobin.Lifespan (Walker.answer mib) (Walker.life mib) := by
  rintro ⟨name, cursor, doneWalk⟩
  cases doneWalk with
  | true => rw [answer_of_done rfl]; rfl
  | false =>
    cases cursor with
    | none =>
      have hvb : Walker.nextVb mib ⟨name, none, false⟩ = setVbNext mib name := rfl
      rcases hnext : mibGetNext mib name.oid with - | i
      · rw [answer_of_end rfl (by rw [hvb, setVbNext_of_none hnext])]
        simp [Walker.life, chainLength, leavesAfter, hnext]
      · rw [answer_of_leaf rfl (by rw [hvb, setVbNext_of_some hnext]), hvb,
          setVbNext_of_some hnext]
        have := lt_length_of_mibGetNext hnext
        simp only [Walker.life, chainLength, leavesAfter, hnext, Bool.false_eq_true, if_false]
        omega
    | some c =>
      rcases hnext : mibNextLeaf mib c with - | l
      · rw [answer_of_end rfl (by simp [Walker.nextVb, hnext])]
        have := mibNextLeaf_eq_none_iff.1 hnext
        simp only [Walker.life, Bool.false_eq_true, if_false, if_true]
        omega
      · have hvb : Walker.nextVb mib ⟨name, some c, false⟩ =
            { leaf := some l, name, exception := 0 } := by simp [Walker.nextVb, hnext]
        rw [answer_of_leaf rfl (by rw [hvb]), hvb]
        have := mibNextLeaf_eq_some hnext
        simp only [Walker.life, Bool.false_eq_true, if_false]
        omega

/-! ### The work of the repetition loop -/

theorem nonRep_le (r : ParsedReq cfg) : r.nonRep ≤ r.names.length := by
  unfold ParsedReq.nonRep
  dsimp only
  repeat' split
  all_goals omega

/-- All non-repeaters fit the response. -/
theorem nonRep_le_maxRespVb (r : ParsedReq cfg) : r.nonRep ≤ cfg.maxRespVb := by
  have h1 := nonRep_le r
  have h2 := r.names_length_le
  have h3 : cfg.maxRespVb = cfg.maxReqVb + 16 := rfl
  omega

theorem length_out_bulkStart (mib : Mib) (r : ParsedReq cfg) :
    (bulkStart mib r).out.length = r.nonRep := by
  have hnames := nonRep_le r
  have hcap := nonRep_le_maxRespVb r
  simp only [bulkStart, List.length_map, List.length_take]
  omega

theorem length_out_bulkStart_le (mib : Mib) (r : ParsedReq cfg) :
    (bulkStart mib r).out.length ≤ cfg.maxRespVb :=
  (length_out_bulkStart mib r).trans_le (nonRep_le_maxRespVb r)

theorem map_life_bulkStart (mib : Mib) (r : ParsedReq cfg) :
    (bulkStart mib r).walkers.map (Walker.life mib) = r.repeaters.map (chainLength mib) := by
  rw [bulkStart, List.map_map]
  rfl

/-- GETBULK work is bounded by the response: every repetition that starts plans a varbind, and no
more repetitions run than a response has varbinds. -/
def BulkWorkBounded (mib : Mib) (r : ParsedReq cfg) : Prop :=
  (∀ l, BulkHead mib r l → l.Guard cfg.maxRespVb r.maxRep →
    l.out.length < (l.step (Walker.answer mib) cfg.maxRespVb).out.length) ∧
    ∀ l, BulkHead mib r l → l.round ≤ cfg.maxRespVb

/-- There are no repeaters, or some repeater's chain is at least as long as the repetitions asked
for, or the non-repeaters and all the chains together fill the response. -/
def BulkFillsResponse (mib : Mib) (r : ParsedReq cfg) : Prop :=
  r.repeaters = [] ∨ (∃ q ∈ r.repeaters, r.maxRep ≤ chainLength mib q) ∨
    cfg.maxRespVb ≤ r.nonRep + (r.repeaters.map (chainLength mib)).sum

/-- The head reached last is the loop's result, whose counter is the repetitions executed. -/
theorem bulkHead_bulkLoop (mib : Mib) (h : ¬ (r.repeaters = [] ∨ r.maxRep = 0)) :
    BulkHead mib r (bulkLoop mib r) :=
  ⟨h, RoundRobin.Loop.head_run _ RoundRobin.Loop.head_start⟩

/-- The loop ends at its own condition: its fuel is never what stops it. -/
theorem not_guard_bulkLoop (mib : Mib) (r : ParsedReq cfg) :
    ¬ (bulkLoop mib r).Guard cfg.maxRespVb r.maxRep :=
  RoundRobin.Loop.not_guard_run (by simp [bulkStart])

theorem length_planGetbulk_le (mib : Mib) (r : ParsedReq cfg) :
    (planGetbulk mib r).length ≤ cfg.maxRespVb := by
  have h0 := length_out_bulkStart_le mib r
  rw [planGetbulk]
  split
  · exact h0
  · next h =>
    exact RoundRobin.Loop.length_out_le_of_head h0 (bulkHead_bulkLoop mib h).2

/-- **When GETBULK work is bounded by the response.** The loop ends at its own condition for every
request. -/
theorem planGetbulk_progress_iff (mib : Mib) (r : ParsedReq cfg) :
    ¬ (bulkLoop mib r).Guard cfg.maxRespVb r.maxRep ∧
      (BulkWorkBounded mib r ↔ BulkFillsResponse mib r) := by
  refine ⟨not_guard_bulkLoop mib r, ?_⟩
  have hround : (bulkStart mib r).round = 0 := rfl
  have hstart := length_out_bulkStart_le mib r
  have hiff : RoundRobin.Loop.Progress (Walker.answer mib) cfg.maxRespVb r.maxRep
      (bulkStart mib r) ↔ _ := RoundRobin.Loop.progress_iff (lifespan_answer mib) hround
  rw [map_life_bulkStart, length_out_bulkStart] at hiff
  have hex : (∃ w ∈ (bulkStart mib r).walkers, r.maxRep ≤ w.life mib) ↔
      ∃ q ∈ r.repeaters, r.maxRep ≤ chainLength mib q := by
    simp [bulkStart, Walker.life]
  rw [hex] at hiff
  by_cases hearly : r.repeaters = [] ∨ r.maxRep = 0
  · -- the early return: no head is ever reached
    refine ⟨fun _ ↦ ?_, fun _ ↦ ⟨fun l hl ↦ absurd hearly hl.1, fun l hl ↦ absurd hearly hl.1⟩⟩
    rcases hearly with hnil | hzero
    · exact Or.inl hnil
    · rcases hr : r.repeaters with - | ⟨q, qs⟩
      · exact Or.inl hr
      · exact Or.inr (Or.inl ⟨q, by simp [hr], by omega⟩)
  · rw [not_or] at hearly
    have hprog : BulkWorkBounded mib r ↔
        RoundRobin.Loop.Progress (Walker.answer mib) cfg.maxRespVb r.maxRep (bulkStart mib r) := by
      constructor
      · intro h l hl
        exact h.1 l ⟨not_or.2 hearly, hl⟩
      · intro h
        refine ⟨fun l hl ↦ h l hl.2, fun l hl ↦ ?_⟩
        have := RoundRobin.Loop.round_le_of_progress h hround hstart hl.2
        omega
    rw [hprog, hiff, BulkFillsResponse]
    simp [hearly]

/-- The agent as configured by default. -/
def defaultConfig : SnmpConfig := ⟨32, by decide, by decide⟩

/-- A GETBULK for the objects after the last one, with the largest max-repetitions there is. -/
def lastObjectBulk : ParsedReq defaultConfig where
  pduType := 0xA5
  requestId := 1
  field2 := 0
  field3 := 2147483647
  names := [⟨[1, 3, 6, 1, 4, 1, 99999, 1, 3, 0], by decide⟩]
  names_length_le := by decide
  tooMany := false
  community := "public".toUTF8.toList

/-- After the first repetition the only walker has answered endOfMibView; the second repetition,
and each of the two thousand million after it, appends nothing. -/
theorem not_bulkWorkBounded_lastObjectBulk :
    ¬ BulkWorkBounded (mibInit 5 5) lastObjectBulk := by
  intro h
  have hhead : BulkHead (mibInit 5 5) lastObjectBulk
      ((bulkStart (mibInit 5 5) lastObjectBulk).step (Walker.answer (mibInit 5 5))
        defaultConfig.maxRespVb) := by
    refine ⟨by decide, RoundRobin.Loop.head_start.step (by decide)⟩
  exact absurd (h.1 _ hhead (by decide +kernel)) (by decide +kernel)

end ThinEdge.Snmp
