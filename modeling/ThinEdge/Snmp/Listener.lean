import ThinEdge.Snmp.Answer

/-!
# The SNMP agent: agents that answer one another

Any manager may send a datagram with another agent's address as its source, and then the answer goes
to an agent, which takes it for a request. `handle_request` does answer a Response PDU, as it
answers every type of PDU it does not know, so that one forged datagram could keep two agents busy.

It cannot: the answer to a Response is an error, an error has an empty list, and `parse_request`
wants a name. `volley_eq_none` follows a datagram through any three agents with one community.
-/

namespace ThinEdge.Snmp

open Ber
open Cursor (Checked Op Parser Implements)

/-- What one call of `handle_request` depends on besides its datagram and the community: the agent's
configuration and objects, what these read meanwhile, and what is left in `tx_buf`. -/
structure AgentCall where
  cfg : SnmpConfig
  mib : Mib
  vals : ℕ → MibValues
  tx : ℕ → UInt8

/-- What `snmp_listener` sends for a datagram: the end of `tx_buf`, or nothing for length 0. -/
def AgentCall.reply (c : AgentCall) (community buf : List UInt8) : Checked (Option (List UInt8)) :=
  match handleRequest c.cfg c.mib community c.vals c.tx buf with
  | .error f => .error f
  | .ok (0, _) => .ok none
  | .ok (outLen + 1, tx) => .ok (some (sentBytes tx (outLen + 1)))

/-- A datagram for the first agent, its answer for the next one, and so on: what the last one sends.
-/
def volley (community : List UInt8) : List AgentCall → List UInt8 → Checked (Option (List UInt8))
  | [], buf => .ok (some buf)
  | c :: cs, buf =>
    match c.reply community buf with
    | .error f => .error f
    | .ok none => .ok none
    | .ok (some out) => volley community cs out

variable {cfg : SnmpConfig} {mib : Mib} {community buf : List UInt8}

/-! ### What is sent -/

theorem takeCommunity_eq_community {comm bs bs' : List UInt8}
    (h : takeCommunity community bs = some (comm, bs')) : comm = community := by
  obtain ⟨version, bs₁, -, hrest⟩ := Parser.bind_eq_some.1 h
  split at hrest
  · exact absurd hrest (by simp [Parser.fail])
  · obtain ⟨s, bs₂, -, hlast⟩ := Parser.bind_eq_some.1 hrest
    split at hlast
    · exact absurd hlast (by simp [Parser.fail])
    · split at hlast
      · exact absurd hlast (by simp [Parser.fail])
      · next heq =>
        obtain ⟨rfl, -⟩ := Prod.mk.inj (Option.some.inj hlast)
        exact not_not.1 heq

theorem community_of_takeDatagram
    {x : UInt8 × List UInt8 × Int32 × Int32 × Int32 × NameList} {rest : List UInt8}
    (h : takeDatagram cfg community buf = some (x, rest)) : x.2.1 = community := by
  obtain ⟨top, bs₁, -, hmsg⟩ := Parser.bind_eq_some.1 h
  obtain ⟨-, rest', hmessage⟩ := Parser.within_eq_some.1 hmsg
  obtain ⟨comm, bs₂, hcommunity, hpdu⟩ := Parser.bind_eq_some.1 hmessage
  obtain ⟨t, bs₃, -, hfields⟩ := Parser.bind_eq_some.1 hpdu
  obtain ⟨p, bs₄, -, hlast⟩ := Parser.bind_eq_some.1 hfields
  obtain ⟨rfl, -⟩ := Prod.mk.inj (Option.some.inj hlast)
  exact takeCommunity_eq_community hcommunity

theorem enc_responseTree_pos (requestId status index : Int32) (community : List UInt8)
    (list : List (List ℕ × BerTree)) :
    0 < (responseTree requestId status index community list).enc.length :=
  Nat.lt_of_lt_of_le (show 0 < 2 by decide) (le_of_add_le_right (two_le_length_tlv berTagSequence
    (BerTree.encAll (messageFields requestId status index community list))))

/-- The message that is encoded for a request. -/
def answerTree (mib : Mib) (vals : ℕ → MibValues) (r : ParsedReq cfg) : BerTree :=
  if r.tooMany then errorTree r snmpErrTooBig 0
  else if r.pduType = snmpPduSet then errorTree r snmpErrNotWritable 1
  else
    match planFor mib r with
    | none => errorTree r snmpErrGenErr 0
    | some vbs =>
      let t := responseTree r.requestId 0 0 r.community (namedValues mib vals 0 vbs)
      if t.enc.length ≤ snmpTxBuf then t else errorTree r snmpErrTooBig 0

/-- **What `handle_request` encodes does not depend on what is left in `tx_buf`.** -/
theorem respond_eq (mib : Mib) (vals : ℕ → MibValues) (tx : ℕ → UInt8) (r : ParsedReq cfg) :
    ∃ tx₀, respond mib vals tx r = (answerTree mib vals r).emit (berEncInit tx₀ 0 snmpTxBuf) := by
  rw [respond, answerTree]
  split
  · exact ⟨tx, encodeError_eq ..⟩
  split
  · exact ⟨tx, encodeError_eq ..⟩
  rcases planFor mib r with - | vbs
  · exact ⟨tx, encodeError_eq ..⟩
  · dsimp only
    rw [encodeResponse_eq]
    -- length 0 is the encoder's overflow, for which `tooBig` is sent instead
    rcases Nat.lt_or_ge snmpTxBuf
      (responseTree r.requestId 0 0 r.community (namedValues mib vals 0 vbs)).enc.length
      with hlong | hfit
    · rw [if_pos (berEncLength_emit_of_lt _ tx 0 hlong), if_neg (Nat.not_le.2 hlong)]
      exact ⟨_, encodeError_eq ..⟩
    · have hpos := enc_responseTree_pos r.requestId 0 0 r.community (namedValues mib vals 0 vbs)
      rw [if_neg (by rw [(sentBytes_emit _ tx hfit).1]; exact Nat.ne_of_gt hpos),
        if_pos (show _ ≤ snmpTxBuf from hfit)]
      exact ⟨tx, rfl⟩

/-- The message is a Response with the request-id and the community, and a request that has no
planner gets an empty list. -/
theorem answerTree_shape (mib : Mib) (vals : ℕ → MibValues) (r : ParsedReq cfg) :
    ∃ status index list,
      answerTree mib vals r = responseTree r.requestId status index r.community list ∧
        (planFor mib r = none → list = []) := by
  rw [answerTree]
  split
  · exact ⟨snmpErrTooBig, 0, [], rfl, fun _ ↦ rfl⟩
  split
  · exact ⟨snmpErrNotWritable, 1, [], rfl, fun _ ↦ rfl⟩
  split
  · exact ⟨snmpErrGenErr, 0, [], rfl, fun _ ↦ rfl⟩
  · next vbs hplan =>
    dsimp only
    split
    · exact ⟨0, 0, _, rfl, fun hnone ↦ absurd (hplan.symm.trans hnone) (by simp)⟩
    · exact ⟨snmpErrTooBig, 0, [], rfl, fun _ ↦ rfl⟩

/-- What is sent of a message: nothing when it does not fit `tx_buf`. -/
def sentFor (t : BerTree) : Option (List UInt8) :=
  if t.enc.length ≤ snmpTxBuf then some t.enc else none

/-- What is sent for a datagram that was parsed, or dropped. -/
def replyFor (mib : Mib) (vals : ℕ → MibValues) (r : Option (ParsedReq cfg)) :
    Option (List UInt8) := r.bind fun r ↦ sentFor (answerTree mib vals r)

/-- **What an agent sends**, as a function of the datagram alone. -/
theorem reply_eq (c : AgentCall) (community buf : List UInt8) :
    c.reply community buf = (parseRequest c.cfg community buf).map (replyFor c.mib c.vals) := by
  rw [AgentCall.reply, handleRequest]
  rcases parseRequest c.cfg community buf with f | (- | r)
  · rfl
  · rfl
  · obtain ⟨tx₀, hemit⟩ := respond_eq c.mib c.vals c.tx r
    obtain ⟨status, index, list, hshape, -⟩ := answerTree_shape c.mib c.vals r
    show _ = Except.ok (sentFor (answerTree c.mib c.vals r))
    dsimp only
    rw [hemit, sentFor]
    rcases Nat.lt_or_ge snmpTxBuf (answerTree c.mib c.vals r).enc.length with hlong | hfit
    · rw [berEncLength_emit_of_lt _ tx₀ 0 hlong, if_neg (Nat.not_le.2 hlong)]
    · obtain ⟨hlen, hsent⟩ := sentBytes_emit _ tx₀ hfit
      have hpos := enc_responseTree_pos r.requestId status index r.community list
      rw [← hshape] at hpos
      obtain ⟨n, hn⟩ := Nat.exists_eq_succ_of_ne_zero (Nat.ne_of_gt hpos)
      rw [hn] at hlen hsent
      rw [hlen, if_pos (show _ ≤ snmpTxBuf from hfit)]
      exact congrArg (fun bs ↦ Except.ok (some bs)) hsent

/-- What is sent is a Response with the community, to a request that was parsed. -/
theorem reply_cases (c : AgentCall) (community buf : List UInt8) :
    c.reply community buf = .ok none ∨
      ∃ (r : ParsedReq c.cfg) (status index : Int32) (list : List (List ℕ × BerTree)),
        parseRequest c.cfg community buf = .ok (some r) ∧
        c.reply community buf =
          .ok (some (responseTree r.requestId status index community list).enc) ∧
        (responseTree r.requestId status index community list).enc.length ≤ snmpTxBuf ∧
        (planFor c.mib r = none → list = []) := by
  rw [reply_eq]
  rcases parseRequest_cases c.cfg community buf with ⟨hnone, -⟩ | ⟨r, x, rest, hsome, htake, hr⟩
  · rw [hnone]
    exact Or.inl rfl
  · have hcomm : r.community = community := hr.2.1.trans (community_of_takeDatagram htake)
    obtain ⟨status, index, list, hshape, hlist⟩ := answerTree_shape c.mib c.vals r
    rw [hcomm] at hshape
    have hreply : (Except.ok (some r) : Checked _).map (replyFor c.mib c.vals) =
        .ok (sentFor (responseTree r.requestId status index community list)) := by
      rw [← hshape]
      rfl
    rw [hsome, hreply, sentFor]
    split
    · next hfit => exact Or.inr ⟨r, status, index, list, rfl, rfl, hfit, hlist⟩
    · exact Or.inl rfl

/-! ### A Response as a request -/

theorem takeCommunity_tlv (hlen : community.length < 2 ^ 32) (rest : List UInt8) :
    takeCommunity community (tlv berTagInteger (twosBytes snmpVersion2c.toInt) ++
      (tlv berTagOctetStr community ++ rest)) = some (community, rest) := by
  rw [takeCommunity, Parser.bind_of_some (takeInt_tlv snmpVersion2c _), if_neg (by simp),
    Parser.bind_of_some (takeContent_tlv hlen rest), if_neg (by simp), if_neg (by simp)]
  rfl

/-- The fields of an error have no names in them. -/
theorem takePdu_error (cfg : SnmpConfig) (requestId status index : Int32) :
    takePdu cfg (BerTree.encAll (pduFields requestId status index [])) = none := by
  have hsplit : BerTree.encAll (pduFields requestId status index []) =
      tlv berTagInteger (twosBytes requestId.toInt) ++
        (tlv berTagInteger (twosBytes status.toInt) ++
          (tlv berTagInteger (twosBytes index.toInt) ++ (tlv berTagSequence [] ++ []))) := rfl
  rw [hsplit, takePdu, Parser.bind_of_some (takeInt_tlv requestId _),
    Parser.bind_of_some (takeInt_tlv status _), Parser.bind_of_some (takeInt_tlv index _),
    Parser.bind_of_some (takeContent_tlv (show ([] : List UInt8).length < 2 ^ 32 by decide) [])]
  have hempty : Parser.untilEmpty (takeVarbind cfg) (([] : List VbName), false) [] =
      some (([], false), []) := by
    rw [Parser.untilEmpty, Parser.loop, if_pos rfl]
  have hwithin : Parser.within [] (Parser.untilEmpty (takeVarbind cfg) ([], false)) [] =
      some (([], false), []) := by rw [Parser.within, hempty]
  rw [Parser.bind_of_some hwithin]
  rfl

/-- **A Response that an agent takes for a request**: it is still a Response, and it is no error. -/
theorem takeDatagram_response {requestId status index : Int32} {list : List (List ℕ × BerTree)}
    {x : UInt8 × List UInt8 × Int32 × Int32 × Int32 × NameList} {rest : List UInt8}
    (hlen : (responseTree requestId status index community list).enc.length < 2 ^ 32)
    (h : takeDatagram cfg community (responseTree requestId status index community list).enc =
      some (x, rest)) : x.1 = snmpPduResponse ∧ list ≠ [] := by
  have hcontent := (length_content_le_tlv berTagSequence
    (BerTree.encAll (messageFields requestId status index community list))).trans_lt hlen
  have htop : takeContent berTagSequence (responseTree requestId status index community list).enc =
      some (BerTree.encAll (messageFields requestId status index community list), []) := by
    rw [← List.append_nil (responseTree requestId status index community list).enc]
    exact takeContent_tlv hcontent []
  have hsplit : BerTree.encAll (messageFields requestId status index community list) =
      tlv berTagInteger (twosBytes snmpVersion2c.toInt) ++ (tlv berTagOctetStr community ++
        (tlv snmpPduResponse (BerTree.encAll (pduFields requestId status index list)) ++ [])) := rfl
  have hcontent' := hcontent
  rw [hsplit, List.length_append, List.length_append, List.length_append] at hcontent'
  have hcomm := length_content_le_tlv berTagOctetStr community
  have hpdu := length_content_le_tlv snmpPduResponse
    (BerTree.encAll (pduFields requestId status index list))
  rw [takeDatagram, Parser.bind_of_some htop] at h
  obtain ⟨-, rest', hmessage⟩ := Parser.within_eq_some.1 h
  rw [hsplit, takeMessage, Parser.bind_of_some (takeCommunity_tlv (by omega) _),
    Parser.bind_of_some (takeTlv_tlv snmpPduResponse (by omega) [])] at hmessage
  obtain ⟨p, bs₁, hp, hlast⟩ := Parser.bind_eq_some.1 hmessage
  obtain ⟨rfl, -⟩ := Prod.mk.inj (Option.some.inj hlast)
  refine ⟨rfl, ?_⟩
  rintro rfl
  obtain ⟨-, rest'', hfields⟩ := Parser.within_eq_some.1 hp
  rw [takePdu_error] at hfields
  exact nomatch hfields

/-- There is no planner for a Response. -/
theorem planFor_response {r : ParsedReq cfg} (h : r.pduType = snmpPduResponse) :
    planFor mib r = none := by
  rw [planFor, h, if_neg (by decide), if_neg (by decide), if_neg (by decide)]

/-- **The answer to an answer**: nothing, or an error. -/
theorem reply_response (c : AgentCall) {requestId status index : Int32}
    {list : List (List ℕ × BerTree)}
    (hlen : (responseTree requestId status index community list).enc.length ≤ snmpTxBuf) :
    c.reply community (responseTree requestId status index community list).enc = .ok none ∨
      list ≠ [] ∧ ∃ requestId' status' index' : Int32,
        c.reply community (responseTree requestId status index community list).enc =
          .ok (some (responseTree requestId' status' index' community []).enc) ∧
        (responseTree requestId' status' index' community []).enc.length ≤ snmpTxBuf := by
  rcases reply_cases c community (responseTree requestId status index community list).enc with
    hnone | ⟨r, status', index', list', hparse, hreply, hfit, hlist⟩
  · exact Or.inl hnone
  · rcases parseRequest_cases c.cfg community
      (responseTree requestId status index community list).enc with
      ⟨hno, -⟩ | ⟨r', x, rest, hsome, htake, hr⟩
    · rw [hparse] at hno
      exact nomatch hno
    · rw [hparse] at hsome
      obtain rfl := Option.some.inj (Except.ok.inj hsome)
      obtain ⟨htag, hne⟩ := takeDatagram_response (hlen.trans_lt (by decide)) htake
      obtain rfl := hlist (planFor_response (hr.1.trans htag))
      exact Or.inr ⟨hne, r.requestId, status', index', hreply, hfit⟩

/-! ### The main result -/

/-- **Agents do not answer one another for long.** For every datagram, the third of three agents
with one community sends nothing, whatever their configurations, objects and buffers. -/
theorem volley_eq_none (community : List UInt8) (a b c : AgentCall) (d : List UInt8) :
    volley community [a, b, c] d = .ok none := by
  rcases reply_cases a community d with hnone | ⟨r, status, index, list, -, ha, hfit, -⟩
  · rw [volley, hnone]
  · rcases reply_response b hfit with hnone | ⟨-, requestId, status', index', hb, hfit'⟩
    · rw [volley, ha]
      dsimp only
      rw [volley, hnone]
    · -- the second answer is an error, and nobody answers that
      rcases reply_response c hfit' with hnone | ⟨hne, -⟩
      · rw [volley, ha]
        dsimp only
        rw [volley, hb]
        dsimp only
        rw [volley, hnone]
      · exact absurd rfl hne

end ThinEdge.Snmp
