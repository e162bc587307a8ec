import ThinEdge.Snmp.Listener
import ThinEdge.Snmp.StaticRequest

/-!
# The SNMP agent: static storage

The parsed request, the planned varbinds and `tx_buf` are static and keep what earlier requests left
in them. `handleRequestInto` is `handle_request` as it works on this storage, write by write.

`handleRequestInto_eq` shows that from any contents at all it returns what `handleRequest` does,
which keeps nothing but `tx_buf`. `handleRequest_independent` draws the conclusion for two histories
of datagrams: neither leaves a trace in an answer.
-/

namespace ThinEdge.Snmp

open Ber
open Cursor (Checked)

/-! ### The storage -/

/-- `struct resp_vb`. The name is a pointer to an entry of `names`. -/
structure RespVbStatic where
  leaf : Option ℕ
  name : ℕ
  exception : UInt8

/-- The static storage of `handle_request`, and `tx_buf`. -/
structure AgentStatics where
  r : ParsedReqStatic
  vbs : ℕ → RespVbStatic
  tx : ℕ → UInt8

/-- The static storage at boot. -/
def AgentStatics.boot : AgentStatics where
  r := ⟨0, 0, 0, 0, fun _ ↦ ⟨fun _ ↦ 0, 0⟩, 0, false, 0, 0⟩
  vbs := fun _ ↦ ⟨none, 0, 0⟩
  tx := fun _ ↦ 0

/-! ### Planning -/

/-- The planned varbinds, and how many of them are planned for this request. -/
structure PlanStatic where
  vbs : ℕ → RespVbStatic
  n : ℕ

/-- `out[n++]`, with what is written to it. -/
def PlanStatic.push (p : PlanStatic) (set : RespVbStatic → RespVbStatic) : PlanStatic where
  vbs := Function.update p.vbs p.n (set (p.vbs p.n))
  n := p.n + 1

section Planning

variable (mib : Mib) (r : ParsedReqStatic)

/-- The body of the loop of `plan_get`. -/
def getVbInto (i : ℕ) (vb : RespVbStatic) : RespVbStatic :=
  let vb := { vb with name := i }
  let vb := { vb with leaf := mibGetExact mib (r.names i).arcs }
  { vb with exception := if vb.leaf.isSome then 0 else excNoSuchInstance }

/-- `set_vb_next`. -/
def setVbNextInto (i : ℕ) (vb : RespVbStatic) : RespVbStatic :=
  let vb := { vb with name := i }
  let vb := { vb with leaf := mibGetNext mib (r.names i).arcs }
  { vb with exception := if vb.leaf.isSome then 0 else excEndOfMibView }

/-- The leaf after a walker's cursor; at the end, endOfMibView named after the cursor's leaf. -/
def nextLeafInto (i c : ℕ) (vb : RespVbStatic) : RespVbStatic :=
  let vb := { vb with name := i }
  let vb := { vb with leaf := mibNextLeaf mib c }
  if vb.leaf = none then { vb with leaf := some c, exception := excEndOfMibView }
  else { vb with exception := 0 }

/-- The varbind of a live walker with this cursor. -/
def nextVbInto (i : ℕ) : Option ℕ → RespVbStatic → RespVbStatic
  | none => setVbNextInto mib r i
  | some c => nextLeafInto mib i c

/-- The loop of `plan_get` and `plan_getnext` over the names before index `k`. -/
def planEach (set : ℕ → RespVbStatic → RespVbStatic) : ℕ → PlanStatic → PlanStatic
  | 0, p => p
  | k + 1, p => (planEach set k p).push (set k)

/-- `plan_get`. -/
def planGetInto (vbs : ℕ → RespVbStatic) : PlanStatic := planEach (getVbInto mib r) r.nvb ⟨vbs, 0⟩

/-- `plan_getnext`. -/
def planGetnextInto (vbs : ℕ → RespVbStatic) : PlanStatic :=
  planEach (setVbNextInto mib r) r.nvb ⟨vbs, 0⟩

/-- The non-repeaters that `plan_getbulk` serves. -/
def ParsedReqStatic.nonRep : ℕ :=
  let n := if r.field2 < 0 then 0 else r.field2.toInt.toNat
  if r.nvb < n then r.nvb else n

/-- The repetitions `plan_getbulk` is asked for. -/
def ParsedReqStatic.maxRep : ℕ := if r.field3 < 0 then 0 else r.field3.toInt.toNat

/-- The loop of `plan_getbulk` over the non-repeaters before index `k`. -/
def planNonRep (cap : ℕ) : ℕ → PlanStatic → PlanStatic
  | 0, p => p
  | k + 1, p =>
    let p := planNonRep cap k p
    if p.n < cap then p.push (setVbNextInto mib r k) else p

/-- The repetitions of `plan_getbulk`: `cursor` and `done_walk` are local and initialised. -/
structure BulkStatic where
  plan : PlanStatic
  cursor : ℕ → Option ℕ
  doneWalk : ℕ → Bool

/-- The body of the inner loop for repeater `j`, which looks at the varbind it has planned. -/
def BulkStatic.turn (s : BulkStatic) (j : ℕ) : BulkStatic :=
  if s.doneWalk j then s
  else
    let plan := s.plan.push (nextVbInto mib r (r.nonRep + j) (s.cursor j))
    let vb := plan.vbs s.plan.n
    if vb.exception = excEndOfMibView then
      { s with plan, doneWalk := Function.update s.doneWalk j true }
    else { s with plan, cursor := Function.update s.cursor j vb.leaf }

/-- The inner loop, for `k` repeaters from `j` on. -/
def bulkPassInto (cap : ℕ) : ℕ → ℕ → BulkStatic → BulkStatic
  | 0, _, s => s
  | k + 1, j, s => if s.plan.n < cap then bulkPassInto cap k (j + 1) (s.turn mib r j) else s

/-- The outer loop, for `k` repetitions. -/
def bulkRoundsInto (cap : ℕ) : ℕ → BulkStatic → BulkStatic
  | 0, s => s
  | k + 1, s =>
    if s.plan.n < cap then bulkRoundsInto cap k (bulkPassInto mib r cap (r.nvb - r.nonRep) 0 s)
    else s

/-- `plan_getbulk`. -/
def planGetbulkInto (cap : ℕ) (vbs : ℕ → RespVbStatic) : PlanStatic :=
  let p := planNonRep mib r cap r.nonRep ⟨vbs, 0⟩
  if r.nvb - r.nonRep = 0 ∨ r.maxRep = 0 then p
  else (bulkRoundsInto mib r cap r.maxRep ⟨p, fun _ ↦ none, fun _ ↦ false⟩).plan

/-- The planner for the type of the PDU. -/
def planForInto (cap : ℕ) (vbs : ℕ → RespVbStatic) : Option PlanStatic :=
  if r.pduType = snmpPduGet then some (planGetInto mib r vbs)
  else if r.pduType = snmpPduGetnext then some (planGetnextInto mib r vbs)
  else if r.pduType = snmpPduGetbulk then some (planGetbulkInto mib r cap vbs)
  else none

end Planning

/-! ### Encoding -/

/-- The name that is emitted: the leaf's, else the one that `name` points to. -/
def RespVbStatic.oid (mib : Mib) (r : ParsedReqStatic) (vb : RespVbStatic) : List ℕ :=
  match vb.leaf with
  | some i => leafOidAt mib i
  | none => (r.names vb.name).arcs

/-- `emit_varbind`. -/
def emitVarbindFrom (mib : Mib) (r : ParsedReqStatic) (v : MibValues) (e : BerEnc)
    (vb : RespVbStatic) : BerEnc :=
  let mark := berMark e
  let e :=
    if vb.exception ≠ 0 then berPutException e vb.exception
    else
      match vb.leaf.bind fun i ↦ mib[i]? with
      | some leaf => mibPutValue v e leaf
      | none => berPutNull e
  let e := berPutOid e (vb.oid mib r)
  berWrap e mark berTagSequence

/-- The loop of `encode_response` over the first `k` varbinds, the last one first. -/
def emitVarbindsFrom (mib : Mib) (r : ParsedReqStatic) (vals : ℕ → MibValues)
    (vbs : ℕ → RespVbStatic) : ℕ → BerEnc → BerEnc
  | 0, e => e
  | k + 1, e => emitVarbindsFrom mib r vals vbs k (emitVarbindFrom mib r (vals k) e (vbs k))

/-- `encode_response` for planned varbinds. -/
def encodeResponseFrom (mib : Mib) (r : ParsedReqStatic) (vals : ℕ → MibValues) (e : BerEnc)
    (errStatus errIndex : Int32) (community : List UInt8) (p : PlanStatic) : BerEnc :=
  let top := berMark e
  let vblMark := berMark e
  let e := emitVarbindsFrom mib r vals p.vbs p.n e
  let e := berWrap e vblMark berTagSequence
  let e := berPutInt e errIndex
  let e := berPutInt e errStatus
  let e := berPutInt e r.requestId
  let e := berWrap e top snmpPduResponse
  let e := berPutOctetStr e community
  let e := berPutInt e snmpVersion2c
  berWrap e top berTagSequence

/-- What `handle_request` plans and encodes for a request that was parsed. -/
def respondInto (cfg : SnmpConfig) (mib : Mib) (vals : ℕ → MibValues) (s : AgentStatics)
    (community : List UInt8) : (ℕ → RespVbStatic) × BerEnc :=
  let fresh := fun tx ↦ berEncInit tx 0 snmpTxBuf
  if s.r.tooMany then
    (s.vbs, encodeError mib vals (fresh s.tx) s.r.requestId snmpErrTooBig 0 community)
  else if s.r.pduType = snmpPduSet then
    (s.vbs, encodeError mib vals (fresh s.tx) s.r.requestId snmpErrNotWritable 1 community)
  else
    match planForInto mib s.r cfg.maxRespVb s.vbs with
    | none => (s.vbs, encodeError mib vals (fresh s.tx) s.r.requestId snmpErrGenErr 0 community)
    | some p =>
      let e := encodeResponseFrom mib s.r vals (fresh s.tx) 0 0 community p
      if berEncLength e = 0 then
        (p.vbs, encodeError mib vals (fresh e.mem) s.r.requestId snmpErrTooBig 0 community)
      else (p.vbs, e)

/-- `handle_request`: the length of the response, and the storage. The community is read from the
datagram, where the parsed request points to it. -/
def handleRequestInto (cfg : SnmpConfig) (mib : Mib) (community : List UInt8) (vals : ℕ → MibValues)
    (s : AgentStatics) (buf : List UInt8) : Checked (ℕ × AgentStatics) :=
  match parseRequestInto cfg community s.r buf with
  | .error f => .error f
  | .ok (false, r) => .ok (0, { s with r })
  | .ok (true, r) =>
    match bytesAt buf r.community r.commLen with
    | .error f => .error f
    | .ok comm =>
      let out := respondInto cfg mib vals { s with r } comm
      .ok (berEncLength out.2, ⟨r, out.1, out.2.mem⟩)

/-! ### What is planned in the storage -/

variable {cfg : SnmpConfig} {mib : Mib} {m : ParsedReqStatic} {buf community : List UInt8}

/-- The static varbind is the planned one: its name is found through the pointer. -/
structure VbStored (m : ParsedReqStatic) (vb : RespVb) (slot : RespVbStatic) : Prop where
  leaf_eq : slot.leaf = vb.leaf
  exception_eq : slot.exception = vb.exception
  arcs_eq : (m.names slot.name).arcs = vb.name.oid

/-- The varbinds planned for this request. -/
structure PlanStored (m : ParsedReqStatic) (vbs : List RespVb) (p : PlanStatic) : Prop where
  n_eq : p.n = vbs.length
  vb_eq : ∀ i (hi : i < vbs.length), VbStored m vbs[i] (p.vbs i)

theorem planStored_nil (m : ParsedReqStatic) (vbs : ℕ → RespVbStatic) :
    PlanStored m [] ⟨vbs, 0⟩ := ⟨rfl, fun i hi ↦ absurd hi (Nat.not_lt_zero i)⟩

/-- **One more varbind.** What was in its place does not matter when all of it is written. -/
theorem PlanStored.push {vbs : List RespVb} {p : PlanStatic} (h : PlanStored m vbs p) {vb : RespVb}
    {set : RespVbStatic → RespVbStatic} (hset : ∀ slot, VbStored m vb (set slot)) :
    PlanStored m (vbs ++ [vb]) (p.push set) := by
  refine ⟨?_, fun i hi ↦ ?_⟩
  · show p.n + 1 = _
    rw [h.n_eq, List.length_append, List.length_singleton]
  · rw [List.length_append, List.length_singleton] at hi
    show VbStored m _ (Function.update p.vbs p.n _ i)
    rcases Nat.lt_or_ge i vbs.length with hold | hnew
    · rw [List.getElem_append_left hold, Function.update_of_ne (by rw [h.n_eq]; omega)]
      exact h.vb_eq i hold
    · obtain rfl : i = p.n := by rw [h.n_eq]; omega
      rw [Function.update_self, List.getElem_append_right (by rw [h.n_eq])]
      simp only [h.n_eq, Nat.sub_self, List.getElem_cons_zero]
      exact hset _

/-- The varbind that was planned last. -/
theorem PlanStatic.vbs_push (p : PlanStatic) (set : RespVbStatic → RespVbStatic) :
    (p.push set).vbs p.n = set (p.vbs p.n) := Function.update_self ..

section Planning

variable {r : ParsedReq cfg}

theorem vbStored_getVbInto (h : Stored buf r m) {i : ℕ} (hi : i < r.names.length)
    (slot : RespVbStatic) :
    VbStored m ⟨mibGetExact mib r.names[i].oid, r.names[i],
      if (mibGetExact mib r.names[i].oid).isSome then 0 else excNoSuchInstance⟩
      (getVbInto mib m i slot) := by
  refine ⟨?_, ?_, h.arcs_eq i hi⟩
  · show mibGetExact mib (m.names i).arcs = _
    rw [h.arcs_eq i hi]
  · show (if (mibGetExact mib (m.names i).arcs).isSome then 0 else excNoSuchInstance) = _
    rw [h.arcs_eq i hi]

theorem vbStored_setVbNextInto {i : ℕ} {name : VbName} (hi : (m.names i).arcs = name.oid)
    (slot : RespVbStatic) :
    VbStored m (setVbNext mib name) (setVbNextInto mib m i slot) := by
  refine ⟨?_, ?_, hi⟩
  · show mibGetNext mib (m.names i).arcs = _
    rw [hi]
    rfl
  · show (if (mibGetNext mib (m.names i).arcs).isSome then 0 else excEndOfMibView) = _
    rw [hi]
    rfl

/-- The loop over the names. -/
theorem planStored_planEach {set : ℕ → RespVbStatic → RespVbStatic} {f : VbName → RespVb}
    (hset : ∀ i (hi : i < r.names.length) slot, VbStored m (f r.names[i]) (set i slot))
    (vbs : ℕ → RespVbStatic) {k : ℕ} (hk : k ≤ r.names.length) :
    PlanStored m ((r.names.take k).map f) (planEach set k ⟨vbs, 0⟩) := by
  induction k with
  | zero => exact planStored_nil m vbs
  | succ k ih =>
    rw [List.take_succ_eq_append_getElem hk, List.map_append, List.map_singleton]
    exact (ih (Nat.le_of_lt hk)).push (hset k hk)

theorem planStored_planGetInto (h : Stored buf r m) (vbs : ℕ → RespVbStatic) :
    PlanStored m (planGet mib r) (planGetInto mib m vbs) := by
  have hplan := planStored_planEach (f := fun name ↦ ⟨mibGetExact mib name.oid, name,
    if (mibGetExact mib name.oid).isSome then 0 else excNoSuchInstance⟩)
    (fun i hi slot ↦ vbStored_getVbInto h hi slot) vbs (Nat.le_refl _)
  rw [List.take_length, ← h.nvb_eq] at hplan
  exact hplan

theorem planStored_planGetnextInto (h : Stored buf r m) (vbs : ℕ → RespVbStatic) :
    PlanStored m (planGetnext mib r) (planGetnextInto mib m vbs) := by
  have hplan := planStored_planEach (f := setVbNext mib)
    (fun i hi slot ↦ vbStored_setVbNextInto (h.arcs_eq i hi) slot) vbs
    (Nat.le_refl _)
  rw [List.take_length, ← h.nvb_eq] at hplan
  exact hplan

theorem nonRep_eq (h : Stored buf r m) : m.nonRep = r.nonRep := by
  rw [ParsedReqStatic.nonRep, ParsedReq.nonRep, h.field2_eq, h.nvb_eq]

theorem maxRep_eq (h : Stored buf r m) : m.maxRep = r.maxRep := by
  rw [ParsedReqStatic.maxRep, ParsedReq.maxRep, h.field3_eq]

/-- The non-repeaters: all of them fit. -/
theorem planStored_planNonRep (h : Stored buf r m) (vbs : ℕ → RespVbStatic) {k : ℕ}
    (hk : k ≤ r.names.length) :
    PlanStored m ((r.names.take k).map (setVbNext mib))
      (planNonRep mib m cfg.maxRespVb k ⟨vbs, 0⟩) := by
  induction k with
  | zero => exact planStored_nil m vbs
  | succ k ih =>
    have hplan := ih (Nat.le_of_lt hk)
    have hroom : (planNonRep mib m cfg.maxRespVb k ⟨vbs, 0⟩).n < cfg.maxRespVb := by
      have hcap := r.names_length_le
      have hresp : cfg.maxRespVb = cfg.maxReqVb + 16 := rfl
      rw [hplan.n_eq, List.length_map, List.length_take]
      omega
    rw [List.take_succ_eq_append_getElem hk, List.map_append, List.map_singleton, planNonRep,
      if_pos hroom]
    exact hplan.push (vbStored_setVbNextInto (h.arcs_eq k hk))

/-- The state of the repetitions, with the walkers of the pure loop. -/
structure BulkStored (m : ParsedReqStatic) (ws : List Walker) (out : List RespVb)
    (s : BulkStatic) : Prop where
  plan : PlanStored m out s.plan
  cursor_eq : ∀ j (hj : j < ws.length), s.cursor j = ws[j].cursor
  doneWalk_eq : ∀ j (hj : j < ws.length), s.doneWalk j = ws[j].doneWalk
  arcs_eq : ∀ j (hj : j < ws.length), (m.names (m.nonRep + j)).arcs = ws[j].name.oid

/-- A walker that went on. -/
theorem BulkStored.set {ws : List Walker} {out out' : List RespVb} {s s' : BulkStatic}
    (h : BulkStored m ws out s) {j : ℕ} (hj : j < ws.length) {w : Walker}
    (hplan : PlanStored m out' s'.plan) (hname : w.name = ws[j].name)
    (hcursor : s'.cursor = Function.update s.cursor j w.cursor)
    (hdone : s'.doneWalk = Function.update s.doneWalk j w.doneWalk) :
    BulkStored m (ws.set j w) out' s' := by
  refine ⟨hplan, fun i hi ↦ ?_, fun i hi ↦ ?_, fun i hi ↦ ?_⟩ <;>
    rw [List.length_set] at hi <;> rw [List.getElem_set]
  · rw [hcursor]
    split
    · next heq => rw [heq, Function.update_self]
    · next hne => rw [Function.update_of_ne (Ne.symm hne), h.cursor_eq i hi]
  · rw [hdone]
    split
    · next heq => rw [heq, Function.update_self]
    · next hne => rw [Function.update_of_ne (Ne.symm hne), h.doneWalk_eq i hi]
  · split
    · next heq => rw [← heq, hname, h.arcs_eq j hj]
    · exact h.arcs_eq i hi

/-- The varbind that a live walker plans, in the storage. -/
theorem vbStored_nextVbInto {w : Walker} {i : ℕ} (hi : (m.names i).arcs = w.name.oid)
    (slot : RespVbStatic) : VbStored m (w.nextVb mib) (nextVbInto mib m i w.cursor slot) := by
  rw [Walker.nextVb]
  rcases w.cursor with - | c
  · exact vbStored_setVbNextInto hi slot
  · show VbStored m _ (nextLeafInto mib i c slot)
    dsimp only [nextLeafInto]
    rcases mibNextLeaf mib c with - | l
    · exact ⟨rfl, rfl, hi⟩
    · exact ⟨rfl, rfl, hi⟩

theorem BulkStored.turn_of_none {ws : List Walker} {out : List RespVb} {s : BulkStatic}
    (h : BulkStored m ws out s) {j : ℕ} (hj : j < ws.length) (hw : ws[j].answer mib = none) :
    s.turn mib m j = s := by
  have hdone : ws[j].doneWalk = true := by
    rw [Walker.answer] at hw
    split at hw
    · assumption
    · cases hw
  rw [BulkStatic.turn, if_pos (by rw [h.doneWalk_eq j hj, hdone])]

/-- **One turn** plans in the storage what the walker answers. -/
theorem BulkStored.turn_of_some {ws : List Walker} {out : List RespVb} {s : BulkStatic}
    (h : BulkStored m ws out s) {j : ℕ} (hj : j < ws.length) {vb : RespVb} {w : Walker}
    (hw : ws[j].answer mib = some (vb, w)) :
    BulkStored m (ws.set j w) (out ++ [vb]) (s.turn mib m j) := by
  rw [Walker.answer] at hw
  split at hw
  · cases hw
  · next hlive =>
    obtain ⟨rfl, rfl⟩ := Prod.mk.inj (Option.some.inj hw)
    have hcursor := h.cursor_eq j hj
    have hslot := @vbStored_nextVbInto mib m ws[j] (m.nonRep + j) (h.arcs_eq j hj)
    have hplan := h.plan.push hslot
    have hturn : ¬ s.doneWalk j = true := by
      rw [h.doneWalk_eq j hj]
      exact hlive
    rw [BulkStatic.turn, if_neg hturn, hcursor]
    dsimp only
    rw [PlanStatic.vbs_push, (hslot _).exception_eq, (hslot _).leaf_eq]
    rcases Decidable.em ((ws[j].nextVb mib).exception = excEndOfMibView) with hend | hend
    · rw [if_pos hend, if_pos hend]
      refine h.set hj hplan rfl ?_ rfl
      rw [← hcursor, Function.update_eq_self]
    · rw [if_neg hend, if_neg hend]
      refine h.set hj hplan rfl rfl ?_
      rw [← h.doneWalk_eq j hj, Function.update_eq_self]

/-- **The inner loop**, from the walkers behind `pre` on. -/
theorem BulkStored.pass {cap : ℕ} {pre ws : List Walker} {out : List RespVb} {s : BulkStatic}
    (h : BulkStored m (pre ++ ws) out s) :
    BulkStored m (pre ++ (RoundRobin.pass (Walker.answer mib) cap ws out).1)
      (RoundRobin.pass (Walker.answer mib) cap ws out).2
      (bulkPassInto mib m cap ws.length pre.length s) := by
  induction ws generalizing pre out s with
  | nil => exact h
  | cons w ws ih =>
    have hj : pre.length < (pre ++ w :: ws).length := by
      rw [List.length_append, List.length_cons]
      omega
    have hget : (pre ++ w :: ws)[pre.length] = w := by
      rw [List.getElem_append_right (Nat.le_refl _)]
      simp only [Nat.sub_self, List.getElem_cons_zero]
    rw [List.length_cons, bulkPassInto]
    rcases Nat.lt_or_ge out.length cap with hroom | hfull
    · rw [if_pos (by rw [h.plan.n_eq]; exact hroom)]
      rcases hw : w.answer mib with - | ⟨vb, w'⟩
      · rw [RoundRobin.pass_cons_none hroom hw, h.turn_of_none hj (by rw [hget]; exact hw)]
        have hnext := @ih (pre ++ [w]) out s (by rw [List.append_assoc]; exact h)
        rw [List.append_assoc, List.length_append] at hnext
        exact hnext
      · rw [RoundRobin.pass_cons_some hroom hw]
        have hturn := h.turn_of_some hj (by rw [hget]; exact hw)
        rw [List.set_append_right _ _ (Nat.le_refl _), Nat.sub_self, List.set_cons_zero] at hturn
        have hnext := @ih (pre ++ [w']) (out ++ [vb]) _ (by rw [List.append_assoc]; exact hturn)
        rw [List.append_assoc, List.length_append] at hnext
        exact hnext
    · rw [if_neg (by rw [h.plan.n_eq]; exact Nat.not_lt.2 hfull), RoundRobin.pass_full hfull]
      exact h

/-- **The outer loop**, with `k` repetitions left. -/
theorem BulkStored.rounds {cap maxRounds k : ℕ} {l : RoundRobin.Loop Walker RespVb}
    {s : BulkStatic} (h : BulkStored m l.walkers l.out s) (hk : l.round + k = maxRounds)
    (hnrep : l.walkers.length = m.nvb - m.nonRep) :
    PlanStored m (l.run (Walker.answer mib) cap maxRounds k).out
      (bulkRoundsInto mib m cap k s).plan := by
  induction k generalizing l s with
  | zero => exact h.plan
  | succ k ih =>
    rw [RoundRobin.Loop.run, bulkRoundsInto]
    rcases Nat.lt_or_ge l.out.length cap with hroom | hfull
    · rw [if_pos ⟨by omega, hroom⟩, if_pos (by rw [h.plan.n_eq]; exact hroom), ← hnrep]
      have hpass := @BulkStored.pass mib m cap [] l.walkers l.out s h
      refine ih hpass ?_ ?_
      · show l.round + 1 + k = maxRounds
        omega
      · exact (RoundRobin.length_fst_pass l.walkers l.out).trans hnrep
    · rw [if_neg fun hg ↦ Nat.not_lt.2 hfull hg.2,
        if_neg (by rw [h.plan.n_eq]; exact Nat.not_lt.2 hfull)]
      exact h.plan

theorem planStored_planGetbulkInto {r : ParsedReq cfg} (h : Stored buf r m)
    (vbs : ℕ → RespVbStatic) :
    PlanStored m (planGetbulk mib r) (planGetbulkInto mib m cfg.maxRespVb vbs) := by
  have hnon := nonRep_eq h
  have hrep := maxRep_eq h
  have hlen : r.repeaters.length = m.nvb - m.nonRep := by
    rw [ParsedReq.repeaters, List.length_drop, h.nvb_eq, hnon]
  have hplan : PlanStored m (bulkStart mib r).out
      (planNonRep mib m cfg.maxRespVb m.nonRep ⟨vbs, 0⟩) := by
    have hall := @planStored_planNonRep cfg mib m buf r h vbs _ (nonRep_le r)
    have hfits : (r.names.take r.nonRep).take cfg.maxRespVb = r.names.take r.nonRep :=
      List.take_of_length_le (by
        rw [List.length_take]
        exact (Nat.min_le_left ..).trans (nonRep_le_maxRespVb r))
    rw [hnon, bulkStart]
    dsimp only
    rw [hfits]
    exact hall
  have hiff : m.nvb - m.nonRep = 0 ∨ m.maxRep = 0 ↔ r.repeaters = [] ∨ r.maxRep = 0 := by
    rw [hrep, ← hlen, List.length_eq_zero_iff]
  rw [planGetbulk, planGetbulkInto]
  rcases Decidable.em (m.nvb - m.nonRep = 0 ∨ m.maxRep = 0) with hnone | hsome
  · rw [if_pos hnone, if_pos (hiff.1 hnone)]
    exact hplan
  · rw [if_neg hsome, if_neg (mt hiff.2 hsome), hrep, bulkLoop]
    have hwalkers : (bulkStart mib r).walkers.length = r.repeaters.length := List.length_map ..
    refine BulkStored.rounds ⟨hplan, fun j hj ↦ ?_, fun j hj ↦ ?_, fun j hj ↦ ?_⟩ (Nat.zero_add _)
      (hwalkers.trans hlen)
    · simp only [bulkStart, List.getElem_map]
    · simp only [bulkStart, List.getElem_map]
    · rw [hwalkers, ParsedReq.repeaters, List.length_drop] at hj
      simp only [bulkStart, List.getElem_map, ParsedReq.repeaters, List.getElem_drop, hnon]
      exact h.arcs_eq _ (by omega)

end Planning

/-- The planner finds the plan, and finds it for the same requests. -/
theorem planForInto_cases {r : ParsedReq cfg} (h : Stored buf r m) (mib : Mib)
    (vbs : ℕ → RespVbStatic) :
    (planFor mib r = none ∧ planForInto mib m cfg.maxRespVb vbs = none) ∨
      ∃ list p, planFor mib r = some list ∧ planForInto mib m cfg.maxRespVb vbs = some p ∧
        PlanStored m list p := by
  rw [planFor, planForInto, h.pduType_eq]
  split
  · exact Or.inr ⟨_, _, rfl, rfl, planStored_planGetInto h vbs⟩
  split
  · exact Or.inr ⟨_, _, rfl, rfl, planStored_planGetnextInto h vbs⟩
  split
  · exact Or.inr ⟨_, _, rfl, rfl, planStored_planGetbulkInto h vbs⟩
  · exact Or.inl ⟨rfl, rfl⟩

/-! ### What is encoded from the storage -/

theorem VbStored.oid_eq {vb : RespVb} {slot : RespVbStatic} (h : VbStored m vb slot) (mib : Mib) :
    slot.oid mib m = vb.oid mib := by
  rcases hleaf : vb.leaf with - | i
  · simp only [RespVbStatic.oid, RespVb.oid, h.leaf_eq, h.arcs_eq, hleaf]
  · simp only [RespVbStatic.oid, RespVb.oid, h.leaf_eq, hleaf]

theorem emitVarbindFrom_eq {vb : RespVb} {slot : RespVbStatic} (h : VbStored m vb slot) (mib : Mib)
    (v : MibValues) (e : BerEnc) : emitVarbindFrom mib m v e slot = emitVarbind mib v e vb := by
  rcases hleaf : vb.leaf.bind fun i ↦ mib[i]? with - | leaf
  · simp only [emitVarbindFrom, emitVarbind, h.oid_eq, h.leaf_eq, h.exception_eq, hleaf]
  · simp only [emitVarbindFrom, emitVarbind, h.oid_eq, h.leaf_eq, h.exception_eq, hleaf]

theorem emitVarbinds_append (mib : Mib) (vals : ℕ → MibValues) (e : BerEnc) (i : ℕ)
    (vbs : List RespVb) (vb : RespVb) :
    emitVarbinds mib vals e i (vbs ++ [vb]) =
      emitVarbinds mib vals (emitVarbind mib (vals (i + vbs.length)) e vb) i vbs := by
  induction vbs generalizing i with
  | nil => rfl
  | cons x xs ih =>
    rw [List.cons_append, emitVarbinds, emitVarbinds, ih (i + 1), List.length_cons,
      Nat.add_right_comm, Nat.add_assoc]

theorem emitVarbindsFrom_eq {vbs : List RespVb} {p : PlanStatic} (h : PlanStored m vbs p)
    (mib : Mib) (vals : ℕ → MibValues) (e : BerEnc) :
    emitVarbindsFrom mib m vals p.vbs p.n e = emitVarbinds mib vals e 0 vbs := by
  -- on the length: both loops emit the last varbind first
  have hall : ∀ k ≤ vbs.length, ∀ e, emitVarbindsFrom mib m vals p.vbs k e =
      emitVarbinds mib vals e 0 (vbs.take k) := by
    intro k hk
    induction k with
    | zero => exact fun e ↦ rfl
    | succ k ih =>
      intro e
      rw [emitVarbindsFrom, ih (Nat.le_of_lt hk), List.take_succ_eq_append_getElem hk,
        emitVarbinds_append, emitVarbindFrom_eq (h.vb_eq k hk), List.length_take,
        Nat.min_eq_left (Nat.le_of_lt hk), Nat.zero_add]
  rw [h.n_eq, hall _ (Nat.le_refl _), List.take_length]

theorem encodeResponseFrom_eq {r : ParsedReq cfg} (h : Stored buf r m) {vbs : List RespVb}
    {p : PlanStatic} (hplan : PlanStored m vbs p) (mib : Mib) (vals : ℕ → MibValues) (e : BerEnc)
    (errStatus errIndex : Int32) (comm : List UInt8) :
    encodeResponseFrom mib m vals e errStatus errIndex comm p =
      encodeResponse mib vals e r.requestId errStatus errIndex comm vbs := by
  rw [encodeResponseFrom, encodeResponse, emitVarbindsFrom_eq hplan, h.requestId_eq]

/-- **What is encoded for a request in the storage.** -/
theorem respondInto_eq {r : ParsedReq cfg} {s : AgentStatics} (h : Stored buf r s.r) (mib : Mib)
    (vals : ℕ → MibValues) : (respondInto cfg mib vals s r.community).2 =
      respond mib vals s.tx r := by
  rw [respondInto, respond, h.tooMany_eq, h.pduType_eq, h.requestId_eq]
  dsimp only
  split
  · rfl
  split
  · rfl
  rcases planForInto_cases h mib s.vbs with ⟨hnone, hnone'⟩ | ⟨list, p, hsome, hsome', hplan⟩
  · rw [hnone, hnone']
  · rw [hsome, hsome']
    dsimp only
    rw [encodeResponseFrom_eq h hplan]
    split <;> rfl

/-- **`handle_request` from any storage**: the length it returns and what it leaves in `tx_buf` are
those of `handleRequest`. -/
theorem handleRequestInto_eq (cfg : SnmpConfig) (mib : Mib) (community : List UInt8)
    (vals : ℕ → MibValues) (s : AgentStatics) (buf : List UInt8) :
    ∃ outLen s', handleRequestInto cfg mib community vals s buf = .ok (outLen, s') ∧
      handleRequest cfg mib community vals s.tx buf = .ok (outLen, s'.tx) := by
  rw [handleRequestInto, handleRequest]
  rcases parseRequestInto_eq cfg community buf s.r with
    ⟨hnone, m, hinto⟩ | ⟨r, hsome, m, hinto, hstored⟩
  · rw [hnone, hinto]
    exact ⟨0, { s with r := m }, rfl, rfl⟩
  · rw [hsome, hinto]
    dsimp only
    rw [hstored.community_eq]
    have hout := @respondInto_eq cfg buf r { s with r := m } hstored mib vals
    refine ⟨_, _, rfl, ?_⟩
    dsimp only
    rw [hout]

/-! ### Histories -/

/-- An earlier datagram, and what the objects read while it was answered. -/
structure PastRequest where
  vals : ℕ → MibValues
  buf : List UInt8

/-- The storage after a history of datagrams. -/
def afterRequests (cfg : SnmpConfig) (mib : Mib) (community : List UInt8) :
    AgentStatics → List PastRequest → Checked AgentStatics
  | s, [] => .ok s
  | s, past :: pasts =>
    match handleRequestInto cfg mib community past.vals s past.buf with
    | .error f => .error f
    | .ok (_, s') => afterRequests cfg mib community s' pasts

/-- The length that `handle_request` returns for a datagram after a history, and the bytes that are
sent. -/
def answerAfter (cfg : SnmpConfig) (mib : Mib) (community : List UInt8) (vals : ℕ → MibValues)
    (history : List PastRequest) (buf : List UInt8) : Checked (ℕ × List UInt8) := do
  let s ← afterRequests cfg mib community .boot history
  let out ← handleRequestInto cfg mib community vals s buf
  pure (out.1, sentBytes out.2.tx out.1)

/-- The same for a datagram, on its own: what is encoded for the request it is parsed to. -/
def answerOf (cfg : SnmpConfig) (mib : Mib) (community : List UInt8) (vals : ℕ → MibValues)
    (buf : List UInt8) : Checked (ℕ × List UInt8) := do
  let r ← parseRequest cfg community buf
  let out := (replyFor mib vals r).getD []
  pure (out.length, out)

theorem afterRequests_ok (cfg : SnmpConfig) (mib : Mib) (community : List UInt8) (s : AgentStatics)
    (history : List PastRequest) : ∃ s', afterRequests cfg mib community s history = .ok s' := by
  induction history generalizing s with
  | nil => exact ⟨s, rfl⟩
  | cons past pasts ih =>
    obtain ⟨outLen, s', hinto, -⟩ :=
      handleRequestInto_eq cfg mib community past.vals s past.buf
    rw [afterRequests, hinto]
    exact ih s'

theorem length_sentBytes (tx : ℕ → UInt8) (outLen : ℕ) : (sentBytes tx outLen).length = outLen := by
  rw [sentBytes, List.length_map, List.length_range]

/-- What is sent does not depend on the storage. -/
theorem sentBytes_handleRequestInto (cfg : SnmpConfig) (mib : Mib) (community : List UInt8)
    (vals : ℕ → MibValues) (s : AgentStatics) (buf : List UInt8) :
    ∃ outLen s', handleRequestInto cfg mib community vals s buf = .ok (outLen, s') ∧
      answerOf cfg mib community vals buf = .ok (outLen, sentBytes s'.tx outLen) := by
  obtain ⟨outLen, s', hinto, hpure⟩ := handleRequestInto_eq cfg mib community vals s buf
  refine ⟨outLen, s', hinto, ?_⟩
  have hreply := reply_eq ⟨cfg, mib, vals, s.tx⟩ community buf
  rw [AgentCall.reply] at hreply
  dsimp only at hreply
  rw [hpure] at hreply
  rw [answerOf]
  rcases hparse : parseRequest cfg community buf with f | r
  · rw [hparse] at hreply
    rcases outLen with - | n <;> cases hreply
  · rw [hparse] at hreply
    rcases outLen with - | n
    · have hnone : replyFor mib vals r = none := (Except.ok.inj hreply).symm
      show Except.ok (((replyFor mib vals r).getD []).length, (replyFor mib vals r).getD []) = _
      rw [hnone]
      rfl
    · have hsome : replyFor mib vals r = some (sentBytes s'.tx (n + 1)) :=
        (Except.ok.inj hreply).symm
      show Except.ok (((replyFor mib vals r).getD []).length, (replyFor mib vals r).getD []) = _
      rw [hsome, Option.getD_some, length_sentBytes]

/-! ### The main result -/

/-- **No request influences the answer to another.** After every history of datagrams, from boot on,
`handle_request` returns the same length for a datagram and leaves the same bytes to be sent: those
that are encoded for this datagram on its own. -/
theorem handleRequest_independent (cfg : SnmpConfig) (mib : Mib) (community : List UInt8)
    (vals : ℕ → MibValues) (d : List UInt8) :
    ∃ outLen out, answerOf cfg mib community vals d = .ok (outLen, out) ∧
      ∀ history, answerAfter cfg mib community vals history d = .ok (outLen, out) := by
  obtain ⟨outLen, s, -, hof⟩ := sentBytes_handleRequestInto cfg mib community vals .boot d
  refine ⟨outLen, _, hof, fun history ↦ ?_⟩
  obtain ⟨s₁, hs₁⟩ := afterRequests_ok cfg mib community .boot history
  obtain ⟨n, s₂, hinto, hof'⟩ := sentBytes_handleRequestInto cfg mib community vals s₁ d
  rw [answerAfter, hs₁]
  show (handleRequestInto cfg mib community vals s₁ d >>= fun out ↦
    pure (out.1, sentBytes out.2.tx out.1)) = _
  rw [hinto, ← hof, hof']
  rfl

end ThinEdge.Snmp
