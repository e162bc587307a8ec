import ThinEdge.Snmp.Listener

/-!
# The SNMP agent: what a manager asks for

A manager's request is a message of the same shape as the agent's answer: a version, a community,
and a PDU with three integers and a list of names, each with a NULL value. `parseRequest_enc` says
that `parse_request` takes such a message for what it is, and `reply_getnext` what the agent sends
for a GETNEXT: one varbind, whose name is the next object's.

`managerWalk_eq` puts the two together over a whole walk. The manager asks for the object after the
last name it got until it is told that there is none; the datagrams it receives list every object of
the view after its start once, in order, each with the value it had when it was asked for.
-/

namespace ThinEdge.Snmp

open Ber
open Cursor (Checked Op Parser Implements)

/-! ### Requests on the wire -/

/-- A name with a NULL value. -/
def askedTree (name : List ℕ) : BerTree := .node berTagSequence [.oid name, .null]

/-- The fields of a request's PDU. -/
def askedFields (requestId field2 field3 : Int32) (names : List (List ℕ)) : List BerTree :=
  [.int requestId, .int field2, .int field3, .node berTagSequence (names.map askedTree)]

/-- A request message. -/
def requestTree (pduType : UInt8) (requestId field2 field3 : Int32) (community : List UInt8)
    (names : List (List ℕ)) : BerTree :=
  .node berTagSequence
    [.int snmpVersion2c, .octets community,
      .node pduType (askedFields requestId field2 field3 names)]

/-- A name that the decoder reads back as it is written. -/
def Readable (name : List ℕ) : Prop := arcsOfContent berMaxOidLen (oidContent name) = some name

variable {cfg : SnmpConfig} {community : List UInt8}

theorem Readable.length_le {name : List ℕ} (h : Readable name) : name.length ≤ berMaxOidLen := by
  obtain ⟨c, cs, hcontent⟩ : ∃ c cs, oidContent name = c :: cs := by
    rcases hname : oidContent name with - | ⟨c, cs⟩
    · rw [Readable, hname] at h
      exact absurd h (by simp [arcsOfContent])
    · exact ⟨c, cs, rfl⟩
  rw [Readable, hcontent, arcsOfContent] at h
  split at h
  · exact absurd h (by simp)
  · split at h
    · next hlen =>
      rw [← Option.some.inj h, List.length_cons, List.length_cons, List.length_map]
      exact hlen
    · exact absurd h (by simp)

/-- The name as the agent keeps it. -/
def Readable.vbName {name : List ℕ} (h : Readable name) : VbName := ⟨name, h.length_le⟩

theorem takeVarbind_enc {name : List ℕ} (hname : Readable name) {l : NameList}
    (hroom : l.1.length < cfg.maxReqVb) (hlen : (askedTree name).enc.length < 2 ^ 32)
    (rest : List UInt8) :
    takeVarbind cfg l ((askedTree name).enc ++ rest) =
      some ((true, (l.1 ++ [hname.vbName], l.2)), rest) := by
  have hcontent : (BerTree.encAll [.oid name, .null]).length < 2 ^ 32 :=
    (length_content_le_tlv berTagSequence _).trans_lt hlen
  have hsplit : BerTree.encAll [.oid name, .null] =
      tlv berTagOid (oidContent name) ++ (tlv berTagNull [] ++ []) := rfl
  have hoid : (oidContent name).length < 2 ^ 32 := by
    have := length_content_le_tlv berTagOid (oidContent name)
    rw [hsplit, List.length_append] at hcontent
    omega
  have hread := @takeOid_tlv berMaxOidLen _ hoid (tlv berTagNull [] ++ [])
  rw [show arcsOfContent berMaxOidLen (oidContent name) = some name from hname] at hread
  have hwithin : Parser.within (BerTree.encAll [.oid name, .null]) (takeOid berMaxOidLen) rest =
      some (name, rest) := by rw [Parser.within, hsplit, hread]
  have henc : (askedTree name).enc = tlv berTagSequence (BerTree.encAll [.oid name, .null]) := rfl
  rw [takeVarbind, henc, Parser.bind_of_some (takeContent_tlv hcontent rest),
    if_neg (Nat.not_le.2 hroom), Parser.bind_of_some hwithin, dif_pos hname.length_le]
  rfl

/-- **Reading the names of a request**, as many as the table holds. -/
theorem untilEmpty_takeVarbind {names : List (List ℕ)} (hread : ∀ name ∈ names, Readable name)
    {l : NameList} (hroom : l.1.length + names.length ≤ cfg.maxReqVb)
    (hlen : (BerTree.encAll (names.map askedTree)).length < 2 ^ 32) :
    ∃ l' : List VbName, l'.map (·.oid) = names ∧
      Parser.untilEmpty (takeVarbind cfg) l (BerTree.encAll (names.map askedTree)) =
        some ((l.1 ++ l', l.2), []) := by
  -- each round takes one name and leaves the others
  induction names generalizing l with
  | nil =>
    refine ⟨[], rfl, ?_⟩
    show Parser.loop (takeVarbind cfg) l [] = _
    rw [Parser.loop, if_pos rfl, List.append_nil]
  | cons name names ih =>
    have hsplit : BerTree.encAll ((name :: names).map askedTree) =
        (askedTree name).enc ++ BerTree.encAll (names.map askedTree) := rfl
    rw [hsplit, List.length_append] at hlen
    rw [List.length_cons] at hroom
    have hname := hread name List.mem_cons_self
    have hpos : 2 ≤ (askedTree name).enc.length :=
      le_of_add_le_right (two_le_length_tlv berTagSequence (BerTree.encAll [.oid name, .null]))
    have hne : (askedTree name).enc ++ BerTree.encAll (names.map askedTree) ≠ [] := by
      intro hnil
      rw [(List.append_eq_nil_iff.1 hnil).1] at hpos
      exact absurd hpos (by decide)
    obtain ⟨l', hmap, hloop⟩ := ih (fun n hn ↦ hread n (List.mem_cons_of_mem name hn))
      (l := (l.1 ++ [hname.vbName], l.2)) (by rw [List.length_append, List.length_singleton]; omega)
      (by omega)
    refine ⟨hname.vbName :: l', by rw [List.map_cons, hmap]; rfl, ?_⟩
    rw [hsplit]
    show Parser.loop (takeVarbind cfg) l _ = _
    rw [Parser.loop, if_neg hne, takeVarbind_enc hname (by omega) (by omega)]
    show (if (BerTree.encAll (names.map askedTree)).length <
      ((askedTree name).enc ++ BerTree.encAll (names.map askedTree)).length then
      Parser.untilEmpty (takeVarbind cfg) (l.1 ++ [hname.vbName], l.2)
        (BerTree.encAll (names.map askedTree)) else none) = _
    rw [if_pos (by rw [List.length_append]; omega), hloop, List.append_assoc,
      List.singleton_append]

variable {pduType : UInt8} {requestId field2 field3 : Int32} {names : List (List ℕ)}

theorem takePdu_enc (hread : ∀ name ∈ names, Readable name) (hne : names ≠ [])
    (hroom : names.length ≤ cfg.maxReqVb)
    (hlen : (BerTree.encAll (askedFields requestId field2 field3 names)).length < 2 ^ 32) :
    ∃ l : List VbName, l.map (·.oid) = names ∧
      takePdu cfg (BerTree.encAll (askedFields requestId field2 field3 names)) =
        some ((requestId, field2, field3, l, false), []) := by
  have hsplit : BerTree.encAll (askedFields requestId field2 field3 names) =
      tlv berTagInteger (twosBytes requestId.toInt) ++
        (tlv berTagInteger (twosBytes field2.toInt) ++
          (tlv berTagInteger (twosBytes field3.toInt) ++
            (tlv berTagSequence (BerTree.encAll (names.map askedTree)) ++ []))) := rfl
  have hlist : (BerTree.encAll (names.map askedTree)).length < 2 ^ 32 := by
    have := length_content_le_tlv berTagSequence (BerTree.encAll (names.map askedTree))
    rw [hsplit, List.length_append, List.length_append, List.length_append,
      List.length_append] at hlen
    omega
  obtain ⟨l, hmap, hloop⟩ := @untilEmpty_takeVarbind cfg names hread ([], false)
    (by rw [List.length_nil]; omega) hlist
  refine ⟨l, hmap, ?_⟩
  have hwithin : Parser.within (BerTree.encAll (names.map askedTree))
      (Parser.untilEmpty (takeVarbind cfg) (([] : List VbName), false)) [] =
        some ((l, false), []) := by rw [Parser.within, hloop, List.nil_append]
  have hl : l ≠ [] := by
    rintro rfl
    exact hne hmap.symm
  rw [hsplit, takePdu, Parser.bind_of_some (takeInt_tlv requestId _),
    Parser.bind_of_some (takeInt_tlv field2 _), Parser.bind_of_some (takeInt_tlv field3 _),
    Parser.bind_of_some (takeContent_tlv hlist []), Parser.bind_of_some hwithin, if_neg hl]
  rfl

theorem takeDatagram_enc (hread : ∀ name ∈ names, Readable name) (hne : names ≠ [])
    (hroom : names.length ≤ cfg.maxReqVb)
    (hlen : (requestTree pduType requestId field2 field3 community names).enc.length < 2 ^ 32) :
    ∃ l : List VbName, l.map (·.oid) = names ∧
      takeDatagram cfg community
          (requestTree pduType requestId field2 field3 community names).enc =
        some ((pduType, community, requestId, field2, field3, l, false), []) := by
  have hsplit : (requestTree pduType requestId field2 field3 community names).enc =
      tlv berTagSequence (tlv berTagInteger (twosBytes snmpVersion2c.toInt) ++
        (tlv berTagOctetStr community ++
          (tlv pduType (BerTree.encAll (askedFields requestId field2 field3 names)) ++ []))) ++
        [] := (List.append_nil _).symm
  have hcontent := (length_content_le_tlv berTagSequence _).trans_lt
    ((congrArg List.length (hsplit.trans (List.append_nil _))).symm.trans_lt hlen)
  have hparts := hcontent
  rw [List.length_append, List.length_append, List.length_append] at hparts
  have hcomm := length_content_le_tlv berTagOctetStr community
  have hpdu := length_content_le_tlv pduType
    (BerTree.encAll (askedFields requestId field2 field3 names))
  obtain ⟨l, hmap, htake⟩ := @takePdu_enc cfg requestId field2 field3 names hread hne hroom
    (by omega)
  refine ⟨l, hmap, ?_⟩
  rw [hsplit, takeDatagram, Parser.bind_of_some (takeContent_tlv hcontent [])]
  rw [Parser.within, takeMessage, Parser.bind_of_some (takeCommunity_tlv (by omega) _),
    Parser.bind_of_some (takeTlv_tlv pduType (by omega) [])]
  have hwithin : Parser.within
      (BerTree.encAll (askedFields requestId field2 field3 names)) (takePdu cfg) [] =
        some ((requestId, field2, field3, l, false), []) := by rw [Parser.within, htake]
  rw [Parser.bind_of_some hwithin]
  rfl

/-- **The agent takes a request message for what it is.** -/
theorem parseRequest_enc (cfg : SnmpConfig) (hread : ∀ name ∈ names, Readable name)
    (hne : names ≠ []) (hroom : names.length ≤ cfg.maxReqVb)
    (hlen : (requestTree pduType requestId field2 field3 community names).enc.length < 2 ^ 32) :
    ∃ r : ParsedReq cfg,
      parseRequest cfg community
          (requestTree pduType requestId field2 field3 community names).enc = .ok (some r) ∧
        r.pduType = pduType ∧ r.community = community ∧ r.requestId = requestId ∧
        r.names.map (·.oid) = names ∧ r.tooMany = false := by
  obtain ⟨l, hmap, htake⟩ :=
    @takeDatagram_enc cfg community pduType requestId field2 field3 names hread hne hroom hlen
  rcases parseRequest_cases cfg community
    (requestTree pduType requestId field2 field3 community names).enc with
    ⟨-, hnone⟩ | ⟨r, x, rest, hsome, hx, hr⟩
  · rw [htake] at hnone
    exact nomatch hnone
  · rw [htake] at hx
    obtain ⟨rfl, -⟩ := Prod.mk.inj (Option.some.inj hx)
    obtain ⟨htype, hcomm, hid, -, -, hnames, htoo⟩ := hr
    exact ⟨r, hsome, htype, hcomm, hid, by rw [hnames]; exact hmap, htoo⟩

/-! ### What the agent answers -/

/-- An agent's answer to a request that it plans, when it fits. -/
theorem reply_enc (c : AgentCall) {vbs : List RespVb} (hread : ∀ name ∈ names, Readable name)
    (hne : names ≠ []) (hroom : names.length ≤ c.cfg.maxReqVb)
    (hlen : (requestTree pduType requestId field2 field3 community names).enc.length < 2 ^ 32)
    (hset : pduType ≠ snmpPduSet)
    (hplan : ∀ r : ParsedReq c.cfg, r.pduType = pduType → r.names.map (·.oid) = names →
      planFor c.mib r = some vbs)
    (hfits : (responseTree requestId 0 0 community (namedValues c.mib c.vals 0 vbs)).enc.length ≤
      snmpTxBuf) :
    c.reply community (requestTree pduType requestId field2 field3 community names).enc =
      .ok (some (responseTree requestId 0 0 community (namedValues c.mib c.vals 0 vbs)).enc) := by
  obtain ⟨r, hparse, htype, hcomm, hid, hnames, htoo⟩ :=
    parseRequest_enc c.cfg hread hne hroom hlen
  have htree : answerTree c.mib c.vals r =
      responseTree requestId 0 0 community (namedValues c.mib c.vals 0 vbs) := by
    rw [answerTree, htoo, if_neg Bool.false_ne_true, htype, if_neg hset,
      hplan r htype hnames, hid, hcomm]
    exact if_pos hfits
  rw [reply_eq, hparse]
  show Except.ok (sentFor (answerTree c.mib c.vals r)) = _
  rw [htree, sentFor, if_pos hfits]

/-- The one varbind of the answer to a GETNEXT for a name. -/
def nextValue (mib : Mib) (v : MibValues) (name : List ℕ) : List ℕ × BerTree :=
  match mibGetNext mib name with
  | none => (name, .exception excEndOfMibView)
  | some i => (leafOidAt mib i, ((mib[i]?).map (leafTree v)).getD .null)

/-- The one varbind of the answer to a GET for a name. -/
def exactValue (mib : Mib) (v : MibValues) (name : List ℕ) : List ℕ × BerTree :=
  match mibGetExact mib name with
  | none => (name, .exception excNoSuchInstance)
  | some i => (name, ((mib[i]?).map (leafTree v)).getD .null)

/-- The value of a varbind for an object of the table. -/
theorem valueTree_of_leaf (mib : Mib) (v : MibValues) (name : VbName) (i : ℕ) :
    valueTree mib v { leaf := some i, name, exception := 0 } =
      ((mib[i]?).map (leafTree v)).getD .null := by
  rw [valueTree, if_neg (by simp), Option.bind_some]
  rcases mib[i]? with - | leaf
  · rfl
  · rfl

theorem namedValues_setVbNext (mib : Mib) (vals : ℕ → MibValues) (name : VbName) :
    namedValues mib vals 0 [setVbNext mib name] = [nextValue mib (vals 0) name.oid] := by
  rw [namedValues, namedValues, nextValue]
  rcases hnext : mibGetNext mib name.oid with - | i
  · rw [setVbNext_of_none hnext]
    rfl
  · rw [setVbNext_of_some hnext, valueTree_of_leaf]
    rfl

/-- **The answer to a GETNEXT.** -/
theorem reply_getnext (c : AgentCall) {name : List ℕ} (hname : Readable name)
    (hlen : (requestTree snmpPduGetnext requestId field2 field3 community [name]).enc.length <
      2 ^ 32)
    (hfits : (responseTree requestId 0 0 community [nextValue c.mib (c.vals 0) name]).enc.length ≤
      snmpTxBuf) :
    c.reply community (requestTree snmpPduGetnext requestId field2 field3 community [name]).enc =
      .ok (some (responseTree requestId 0 0 community
        [nextValue c.mib (c.vals 0) name]).enc) := by
  have hone : (1 : ℕ) ≤ c.cfg.maxReqVb := (show 1 ≤ 8 by decide).trans c.cfg.le_maxVarbinds
  have hvalues := namedValues_setVbNext c.mib c.vals hname.vbName
  rw [show hname.vbName.oid = name from rfl] at hvalues
  rw [← hvalues] at hfits ⊢
  refine reply_enc c (by simpa using hname) (List.cons_ne_nil _ _) hone hlen (by decide) ?_ hfits
  intro r htype hnames
  obtain ⟨n, hr, hn⟩ := List.map_eq_singleton_iff.1 hnames
  have heq : n = hname.vbName := by
    rcases n with ⟨oid, h⟩
    simpa [Readable.vbName] using hn
  rw [planFor, htype, if_neg (by decide), if_pos rfl, planGetnext, hr, heq]
  rfl

theorem namedValues_planGet (mib : Mib) (vals : ℕ → MibValues) {r : ParsedReq cfg} {name : VbName}
    (hr : r.names = [name]) :
    namedValues mib vals 0 (planGet mib r) = [exactValue mib (vals 0) name.oid] := by
  rw [planGet, hr, List.map_singleton, namedValues, namedValues, exactValue]
  rcases hget : mibGetExact mib name.oid with - | i
  · rfl
  · obtain ⟨hi, heq⟩ := mibGetExact_eq_some hget
    rw [← heq, ← leafOidAt_eq hi]
    exact congrArg (fun t ↦ [(leafOidAt mib i, t)]) (valueTree_of_leaf mib (vals 0) name i)

/-- **The answer to a GET.** -/
theorem reply_get (c : AgentCall) {name : List ℕ} (hname : Readable name)
    (hlen : (requestTree snmpPduGet requestId field2 field3 community [name]).enc.length < 2 ^ 32)
    (hfits : (responseTree requestId 0 0 community [exactValue c.mib (c.vals 0) name]).enc.length ≤
      snmpTxBuf) :
    c.reply community (requestTree snmpPduGet requestId field2 field3 community [name]).enc =
      .ok (some (responseTree requestId 0 0 community
        [exactValue c.mib (c.vals 0) name]).enc) := by
  have hone : (1 : ℕ) ≤ c.cfg.maxReqVb := (show 1 ≤ 8 by decide).trans c.cfg.le_maxVarbinds
  have hvalues := namedValues_planGet c.mib c.vals
    (r := (⟨snmpPduGet, 0, 0, 0, [hname.vbName], hone, false, []⟩ : ParsedReq c.cfg)) rfl
  rw [show hname.vbName.oid = name from rfl] at hvalues
  rw [← hvalues] at hfits ⊢
  refine reply_enc c (by simpa using hname) (List.cons_ne_nil _ _) hone hlen (by decide) ?_ hfits
  intro r htype hnames
  obtain ⟨n, hr, hn⟩ := List.map_eq_singleton_iff.1 hnames
  have heq : n = hname.vbName := by
    rcases n with ⟨oid, h⟩
    simpa [Readable.vbName] using hn
  rw [planFor, htype, if_pos rfl, planGet, planGet, hr, heq]

/-! ### Lengths -/

theorem Readable.length_oidContent_le {name : List ℕ} (h : Readable name) :
    (oidContent name).length ≤ 155 := by
  have hlen := h.length_le
  have hread := readArcs_of_arcsOfContent h
  rcases name with - | ⟨a, - | ⟨b, arcs⟩⟩
  · exact hread.elim
  · exact hread.elim
  · obtain ⟨-, -, harcs⟩ := hread
    have hfirst : (a * 40 + b) % 2 ^ 32 < 128 ^ (4 + 1) :=
      Nat.lt_of_lt_of_le (Nat.mod_lt _ (by decide)) (by decide)
    have h1 := length_group_le hfirst
    have h2 : (arcs.flatMap group).length ≤ 5 * arcs.length := length_flatMap_group_le harcs
    have h3 : arcs.length + 2 ≤ 32 := hlen
    rw [oidContent, List.length_append]
    omega

theorem length_enc_node_le (tag : UInt8) (children : List BerTree)
    (h : (BerTree.encAll children).length < 2 ^ 32) :
    (BerTree.node tag children).enc.length ≤ (BerTree.encAll children).length + 6 :=
  length_tlv_le tag h

theorem length_encAll_cons (t : BerTree) (ts : List BerTree) :
    (BerTree.encAll (t :: ts)).length = t.enc.length + (BerTree.encAll ts).length := by
  rw [BerTree.encAll, List.length_append]

theorem length_enc_int_le (v : Int32) : (BerTree.int v).enc.length ≤ 10 := by
  have hlo := v.le_toInt
  have hhi := v.toInt_lt
  have hlen : (twosBytes v.toInt).length ≤ 3 + 1 := length_twosBytes_le (by omega) (by omega)
  have := @length_tlv_le berTagInteger (twosBytes v.toInt) (by omega)
  rw [BerTree.enc]
  omega

/-- A message of one varbind is not much longer than its community and its value. -/
theorem length_message_le {name : List ℕ} (hname : Readable name) (tag : UInt8) (id f₂ f₃ : Int32)
    (community : List UInt8) (value : BerTree)
    (h : community.length + value.enc.length < 2 ^ 31) :
    (BerTree.node berTagSequence [.int snmpVersion2c, .octets community,
      .node tag [.int id, .int f₂, .int f₃,
        .node berTagSequence [.node berTagSequence [.oid name, value]]]]).enc.length ≤
      community.length + value.enc.length + 240 := by
  have hnil : (BerTree.encAll []).length = 0 := rfl
  have hcontent := hname.length_oidContent_le
  have hoid : (BerTree.oid name).enc.length ≤ (oidContent name).length + 6 :=
    length_tlv_le berTagOid (by omega)
  have hcomm : (BerTree.octets community).enc.length ≤ community.length + 6 :=
    length_tlv_le berTagOctetStr (by omega)
  have hversion := length_enc_int_le snmpVersion2c
  have hid := length_enc_int_le id
  have h₂ := length_enc_int_le f₂
  have h₃ := length_enc_int_le f₃
  -- from the varbind outwards, six bytes for every header
  have hvb := length_enc_node_le berTagSequence [.oid name, value]
  simp only [length_encAll_cons] at hvb
  have hlist := length_enc_node_le berTagSequence [.node berTagSequence [.oid name, value]]
  simp only [length_encAll_cons] at hlist
  have hpdu := length_enc_node_le tag [.int id, .int f₂, .int f₃,
    .node berTagSequence [.node berTagSequence [.oid name, value]]]
  simp only [length_encAll_cons] at hpdu
  have hmsg := length_enc_node_le berTagSequence [.int snmpVersion2c, .octets community,
    .node tag [.int id, .int f₂, .int f₃,
      .node berTagSequence [.node berTagSequence [.oid name, value]]]]
  simp only [length_encAll_cons] at hmsg
  have hvb' := hvb (by omega)
  have hlist' := hlist (by omega)
  have hpdu' := hpdu (by omega)
  have hmsg' := hmsg (by omega)
  omega

/-! ### A walk -/

/-- What a manager makes of a datagram that answers a request for one name: the varbind, if this is
the response to its own request and reports no error. -/
def readAnswer (requestId : Int32) (buf : List UInt8) : Option (List ℕ × UInt8 × List UInt8) :=
  match readResponse buf (berDecInit 0 buf.length) with
  | .ok (some resp, _) =>
    if resp.requestId = requestId ∧ resp.status = 0 then
      match resp.list with
      | [x] => some x
      | _ => none
    else none
  | _ => none

/-- Ask an agent for the object after a name. -/
def askNext (community : List UInt8) (c : AgentCall) (requestId : Int32) (name : List ℕ) :
    Option (List ℕ × UInt8 × List UInt8) :=
  match c.reply community (requestTree snmpPduGetnext requestId 0 0 community [name]).enc with
  | .ok (some buf) => readAnswer requestId buf
  | _ => none

/-- `snmpwalk`, as the agent's own check runs it: ask for the object after the last name, until
there is none. The `k`-th request has the request-id `k`, and `calls k` is the agent as that request
finds it. Returned is what was read, and whether the end of the view was reached. -/
def managerWalk (community : List UInt8) (calls : ℕ → AgentCall) :
    ℕ → ℕ → List ℕ → List (List ℕ × UInt8 × List UInt8) × Bool
  | 0, _, _ => ([], false)
  | fuel + 1, k, name =>
    match askNext community (calls k) (Int32.ofNat k) name with
    | none => ([], false)
    | some x =>
      if x.2.1 = excEndOfMibView then ([], true)
      else
        let rest := managerWalk community calls fuel (k + 1) x.1
        (x :: rest.1, rest.2)

theorem readAnswer_enc {requestId : Int32} {x : List ℕ × BerTree} (hx : Readable x.1)
    (hfits : (responseTree requestId 0 0 community [x]).enc.length ≤ snmpTxBuf) :
    readAnswer requestId (responseTree requestId 0 0 community [x]).enc =
      some (x.1, x.2.element) := by
  have hlist : decodedList [x] = some [(x.1, x.2.element)] :=
    decodedList_of_readable fun y hy ↦ by
      rw [List.mem_singleton.1 hy]
      exact hx
  obtain ⟨resp, d, hread, rfl⟩ := (@readResponse_enc requestId 0 0 community [x]
    (fun resp ↦ resp = ⟨snmpVersion2c, community, requestId, 0, 0, [(x.1, x.2.element)]⟩)
    hfits).2 ⟨_, hlist, rfl⟩
  rw [readAnswer, hread]
  exact if_pos ⟨rfl, rfl⟩

theorem askNext_of_reply {c : AgentCall} {requestId : Int32} {name : List ℕ} {buf : List UInt8}
    (h : c.reply community (requestTree snmpPduGetnext requestId 0 0 community [name]).enc =
      .ok (some buf)) : askNext community c requestId name = readAnswer requestId buf := by
  delta askNext
  rw [h]

theorem managerWalk_succ {calls : ℕ → AgentCall} {k : ℕ} {name : List ℕ}
    {x : List ℕ × UInt8 × List UInt8}
    (h : askNext community (calls k) (Int32.ofNat k) name = some x) (fuel : ℕ) :
    managerWalk community calls (fuel + 1) k name =
      if x.2.1 = excEndOfMibView then ([], true)
      else
        (x :: (managerWalk community calls fuel (k + 1) x.1).1,
          (managerWalk community calls fuel (k + 1) x.1).2) := by
  show (match askNext community (calls k) (Int32.ofNat k) name with
    | none => _
    | some x => _) = _
  rw [h]

/-- **One exchange**: what is asked and answered with a GETNEXT. -/
theorem askNext_eq {c : AgentCall} {name : List ℕ} (requestId : Int32) (hname : Readable name)
    (hnext : Readable (nextValue c.mib (c.vals 0) name).1)
    (hroom : community.length + (nextValue c.mib (c.vals 0) name).2.enc.length ≤ 1200) :
    askNext community c requestId name =
      some ((nextValue c.mib (c.vals 0) name).1, (nextValue c.mib (c.vals 0) name).2.element) := by
  have hfits : (responseTree requestId 0 0 community
      [nextValue c.mib (c.vals 0) name]).enc.length ≤ snmpTxBuf := by
    have := length_message_le hnext snmpPduResponse requestId 0 0 community
      (nextValue c.mib (c.vals 0) name).2 (by omega)
    exact this.trans (show _ ≤ 1500 by omega)
  have hlen : (requestTree snmpPduGetnext requestId 0 0 community [name]).enc.length < 2 ^ 32 := by
    have hnull : (BerTree.null).enc.length = 2 := rfl
    have := length_message_le hname snmpPduGetnext requestId 0 0 community .null (by omega)
    exact this.trans_lt (by omega)
  rw [askNext_of_reply (reply_getnext c hname hlen hfits)]
  exact readAnswer_enc hnext hfits

/-- No object is encoded as an exception. -/
theorem element_leafTree_ne (v : MibValues) (leaf : MibLeaf) :
    (leafTree v leaf).element.1 ≠ excEndOfMibView := by
  have htag : (leafTree v leaf).element.1 ∈ [berTagInteger, berTagOctetStr, berTagOid,
      berTagCounter32, berTagGauge32, berTagTimeticks] := by
    obtain ⟨kind, col, row⟩ := leaf
    cases kind <;> simp [leafTree, BerTree.element]
  intro h
  rw [h] at htag
  exact absurd htag (by decide)

section Walk

variable {sw : SwitchConfig} {calls : ℕ → AgentCall} (hmib : ∀ k, (calls k).mib = sw.mibView)
  (hroom : ∀ k, ∀ leaf ∈ sw.mibView,
    community.length + (leafTree ((calls k).vals 0) leaf).enc.length ≤ 1200)

include hroom in
theorem length_community_le : community.length ≤ 1198 := by
  obtain ⟨leaf, hleaf⟩ : ∃ leaf, leaf ∈ sw.mibView := by
    rw [sw.mibView_eq, mibInitLeaves]
    exact ⟨⟨.ifNumber, 0, 0⟩, by simp⟩
  have h := hroom 0 leaf hleaf
  have hpos := two_le_length_tlv (leafTree ((calls 0).vals 0) leaf).element.1
    (leafTree ((calls 0).vals 0) leaf).element.2
  rw [← enc_eq_tlv] at hpos
  omega

include hmib hroom in
/-- The objects that are left are the rest of the walk. -/
theorem managerWalk_of_rest (l : List MibLeaf) :
    ∀ {fuel k : ℕ} {name : List ℕ}, Readable name →
      sw.mibView.drop (SortedTable.rank mibLeafOid sw.mibView name) = l → l.length < fuel →
      managerWalk community calls fuel k name =
        (l.mapIdx fun i leaf ↦
          (mibLeafOid leaf, (leafTree ((calls (k + i)).vals 0) leaf).element), true) := by
  -- each answer takes one object off what is left
  induction l with
  | nil =>
    intro fuel k name hname hl hlt
    obtain ⟨fuel, rfl⟩ := Nat.exists_eq_add_of_lt hlt
    have hcomm := length_community_le hroom
    have hnone : mibGetNext (calls k).mib name = none := by
      rw [hmib, mibGetNext_eq_above, SortedTable.above_of_drop_nil hl]
    have hvalue : nextValue (calls k).mib ((calls k).vals 0) name =
        (name, .exception excEndOfMibView) := by rw [nextValue, hnone]
    have hask := askNext_eq (Int32.ofNat k) hname (by rwa [hvalue])
      (by rw [hvalue]; show community.length + 2 ≤ 1200; omega)
    rw [hvalue] at hask
    rw [managerWalk_succ hask]
    exact if_pos rfl
  | cons leaf l ih =>
    intro fuel k name hname hl hlt
    obtain ⟨fuel, rfl⟩ := Nat.exists_eq_add_of_lt hlt
    obtain ⟨i, habove, hi, hrest⟩ := sw.sorted_mibView.above_of_drop_cons hl
    have hleaf : leaf ∈ sw.mibView := List.mem_of_getElem? hi
    have hnext : mibGetNext (calls k).mib name = some i := by
      rw [hmib, mibGetNext_eq_above, habove]
    have hvalue : nextValue (calls k).mib ((calls k).vals 0) name =
        (mibLeafOid leaf, leafTree ((calls k).vals 0) leaf) := by
      rw [nextValue, hnext]
      dsimp only
      rw [hmib, leafOidAt, hi]
      rfl
    have hread : Readable (mibLeafOid leaf) := readable_leafOid hleaf
    have hask := askNext_eq (Int32.ofNat k) hname (by rwa [hvalue])
      (by rw [hvalue]; exact hroom k leaf hleaf)
    rw [hvalue] at hask
    rw [managerWalk_succ hask, List.mapIdx_cons]
    dsimp only
    rw [if_neg (element_leafTree_ne _ leaf),
      ih hread hrest (by rw [List.length_cons]; omega)]
    simp only [Nat.add_zero, Nat.add_assoc, Nat.add_comm 1]

end Walk

/-- **A walk over the wire lists every object once.** Whatever each request finds the agent's
configuration, values and buffer to be, a manager that asks for the object after the last name it
got reads every object of the view after its start, in the order of the names, each with the value
that its own request found, and is then told that there are no more. The values must leave room for
the answers. -/
theorem managerWalk_eq (sw : SwitchConfig) (community : List UInt8) {calls : ℕ → AgentCall}
    {start : List ℕ} {fuel : ℕ} (hmib : ∀ k, (calls k).mib = sw.mibView) (hstart : Readable start)
    (hroom : ∀ k, ∀ leaf ∈ sw.mibView,
      community.length + (leafTree ((calls k).vals 0) leaf).enc.length ≤ 1200)
    (hfuel : sw.mibView.length < fuel) :
    managerWalk community calls fuel 0 start =
      ((sw.mibView.filter fun leaf ↦ oidCmp start (mibLeafOid leaf) < 0).mapIdx fun k leaf ↦
        (mibLeafOid leaf, (leafTree ((calls k).vals 0) leaf).element), true) := by
  have hrest : (sw.mibView.filter fun leaf ↦ oidCmp start (mibLeafOid leaf) < 0) =
      sw.mibView.drop (SortedTable.rank mibLeafOid sw.mibView start) := by
    rw [← sw.sorted_mibView.filter_eq_drop]
    exact List.filter_congr fun leaf _ ↦ decide_eq_decide.2 oidCmp_neg_iff
  have hlen : (sw.mibView.drop (SortedTable.rank mibLeafOid sw.mibView start)).length < fuel := by
    rw [List.length_drop]
    omega
  rw [hrest, managerWalk_of_rest hmib hroom _ hstart rfl hlen]
  simp only [Nat.zero_add]

/-- An agent at rest. -/
def restingAgent : AgentCall where
  cfg := defaultConfig
  mib := defaultSwitch.mibView
  vals := fun _ ↦ restingValues
  tx := fun _ ↦ 0

/-- `snmpwalk 1.3.6.1`. -/
theorem managerWalk_eq_internet :
    managerWalk sampleCommunity (fun _ ↦ restingAgent) 100 0 [1, 3, 6, 1] =
      ((defaultSwitch.mibView.filter fun leaf ↦ oidCmp [1, 3, 6, 1] (mibLeafOid leaf) < 0).mapIdx
        fun _ leaf ↦ (mibLeafOid leaf, (leafTree restingValues leaf).element), true) := by
  have hstart : Readable [1, 3, 6, 1] := by
    rw [Readable]
    decide +kernel
  have hroom : ∀ leaf ∈ defaultSwitch.mibView,
      sampleCommunity.length + (leafTree restingValues leaf).enc.length ≤ 1200 := by
    decide +kernel
  have hmib : restingAgent.mib = defaultSwitch.mibView := by rw [restingAgent]
  exact @managerWalk_eq defaultSwitch sampleCommunity (fun _ ↦ restingAgent) _ 100 (fun _ ↦ hmib)
    hstart (fun _ ↦ hroom) (by decide +kernel)

end ThinEdge.Snmp
