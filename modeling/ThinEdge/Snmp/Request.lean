import Mathlib.Algebra.Order.Ring.Int
import ThinEdge.Snmp.Agent
import ThinEdge.Snmp.BerDecoder

/-!
# The SNMP agent: parsing a request

`parse_request` of `lib/snmp/snmp_agent.c`, over the operations of the BER decoder: the table of
names and the arrays of sub-identifiers are tables of their sizes in the source, so that an index
past either is a fault, like a read outside the datagram.

`parseRequest_safe` says that no datagram makes the parser, or any decoder call, commit one.
`parseRequest_eq_some` says what an accepted datagram looks like, and `carriedBy_of_parseRequest`
that the request has the names of all its varbinds, or says that they were too many.
-/

namespace ThinEdge.Snmp

open Ber
open Cursor (Checked Op Parser Table Implements Shows Follows Fault)

/-- `SNMP_VERSION_2C`. -/
def snmpVersion2c : Int32 := 1

/-- `SNMP_PDU_GET`. -/
def snmpPduGet : UInt8 := 0xA0

/-- `SNMP_PDU_GETNEXT`. -/
def snmpPduGetnext : UInt8 := 0xA1

/-- `SNMP_PDU_RESPONSE`. -/
def snmpPduResponse : UInt8 := 0xA2

/-- `SNMP_PDU_SET`. -/
def snmpPduSet : UInt8 := 0xA3

/-- `SNMP_PDU_GETBULK`. -/
def snmpPduGetbulk : UInt8 := 0xA5

variable {cfg : SnmpConfig}

/-- The names read so far, and whether there were more than the table holds. -/
structure NamesRead (cfg : SnmpConfig) where
  names : Table VbName cfg.maxReqVb
  tooMany : Bool

/-- The body of the loop over the varbinds of a request: `false` leaves it. The value of a varbind
is ignored. -/
def parseVarbind (cfg : SnmpConfig) (buf : List UInt8) (r : NamesRead cfg) :
    Op (Bool × NamesRead cfg) := do
  let vb ← berEnter buf berTagSequence
  if cfg.maxReqVb ≤ r.names.toList.length then pure (false, { r with tooMany := true })
  else
    let oid ← Op.within vb (berGetOid buf berMaxOidLen)
    let names ← Op.lift (r.names.push ⟨oid.toList, oid.length_le⟩)
    pure (true, { r with names })

/-- The header of the request up to the PDU: the version, and the community, which must be the
configured one. -/
def parseCommunity (community : List UInt8) (buf : List UInt8) : Op (List UInt8) := do
  let version ← berGetInt buf
  if version ≠ snmpVersion2c then Op.fail
  else
    let s ← berGetOctet buf
    if s.2 ≠ community.length then Op.fail
    else
      let bs ← Op.lift (bytesAt buf s.1 community.length)
      if bs ≠ community then Op.fail else pure bs

/-- The three integers of a PDU and its names. At least one name is needed. -/
def parsePdu (cfg : SnmpConfig) (buf : List UInt8) :
    Op (Int32 × Int32 × Int32 × NamesRead cfg) := do
  let requestId ← berGetInt buf
  let field2 ← berGetInt buf
  let field3 ← berGetInt buf
  let vbl ← berEnter buf berTagSequence
  let r ← Op.within vbl
    (Op.untilDone 2 (parseVarbind cfg buf) ⟨Table.empty VbName cfg.maxReqVb, false⟩)
  if r.names.toList = [] then Op.fail else pure (requestId, field2, field3, r)

/-- What `parse_request` does inside the message. -/
def parseMessage (cfg : SnmpConfig) (community : List UInt8) (buf : List UInt8) :
    Op (ParsedReq cfg) := do
  let comm ← parseCommunity community buf
  let t ← berGetTlv buf
  let pdu ← Op.within t.inner (parsePdu cfg buf)
  pure {
    pduType := t.tag
    requestId := pdu.1
    field2 := pdu.2.1
    field3 := pdu.2.2.1
    names := pdu.2.2.2.names.toList
    names_length_le := pdu.2.2.2.names.length_le
    tooMany := pdu.2.2.2.tooMany
    community := comm }

/-- The request of a datagram, as an operation on the decoder over it. -/
def parseDatagram (cfg : SnmpConfig) (community : List UInt8) (buf : List UInt8) :
    Op (ParsedReq cfg) := do
  let top ← berEnter buf berTagSequence
  Op.within top (parseMessage cfg community buf)

/-- `parse_request`, for a read community: `none` drops the datagram. -/
def parseRequest (cfg : SnmpConfig) (community : List UInt8) (buf : List UInt8) :
    Checked (Option (ParsedReq cfg)) :=
  match parseDatagram cfg community buf (berDecInit 0 buf.length) with
  | .error f => .error f
  | .ok (r, _) => .ok r

/-! ### What it accepts -/

/-- The names of the requests that are parsed. -/
abbrev NameList := List VbName × Bool

/-- The loop body on lists. -/
def takeVarbind (cfg : SnmpConfig) (r : NameList) : Parser (Bool × NameList) := do
  let vb ← takeContent berTagSequence
  if cfg.maxReqVb ≤ r.1.length then pure (false, (r.1, true))
  else
    let oid ← Parser.within vb (takeOid berMaxOidLen)
    if h : oid.length ≤ berMaxOidLen then pure (true, (r.1 ++ [⟨oid, h⟩], r.2)) else Parser.fail

/-- The header on lists. -/
def takeCommunity (community : List UInt8) : Parser (List UInt8) := do
  let version ← takeInt
  if version ≠ snmpVersion2c then Parser.fail
  else
    let s ← takeContent berTagOctetStr
    if s.length ≠ community.length then Parser.fail
    else if s ≠ community then Parser.fail else pure s

/-- The PDU on lists. -/
def takePdu (cfg : SnmpConfig) : Parser (Int32 × Int32 × Int32 × NameList) := do
  let requestId ← takeInt
  let field2 ← takeInt
  let field3 ← takeInt
  let vbl ← takeContent berTagSequence
  let r ← Parser.within vbl (Parser.untilEmpty (takeVarbind cfg) ([], false))
  if r.1 = [] then Parser.fail else pure (requestId, field2, field3, r)

/-- The message on lists: the tag of the PDU, the community, and the PDU. -/
def takeMessage (cfg : SnmpConfig) (community : List UInt8) :
    Parser (UInt8 × List UInt8 × Int32 × Int32 × Int32 × NameList) := do
  let comm ← takeCommunity community
  let t ← takeTlv
  let pdu ← Parser.within t.2 (takePdu cfg)
  pure (t.1, comm, pdu)

/-- The datagram on lists. -/
def takeDatagram (cfg : SnmpConfig) (community : List UInt8) :
    Parser (UInt8 × List UInt8 × Int32 × Int32 × Int32 × NameList) := do
  let top ← takeContent berTagSequence
  Parser.within top (takeMessage cfg community)

variable {buf community : List UInt8}

/-- The names of the table are the names of the list. -/
def NamesRead.Shows (r : NamesRead cfg) (l : NameList) : Prop :=
  r.names.toList = l.1 ∧ r.tooMany = l.2

theorem parseVarbind_implements {r : NamesRead cfg} {l : NameList} (h : r.Shows l) :
    Implements buf (fun a b ↦ a.1 = b.1 ∧ a.2.Shows b.2) (parseVarbind cfg buf r)
      (takeVarbind cfg l) := by
  refine (berEnter_implements berTagSequence).bind fun vb vbs hvb ↦ ?_
  refine Cursor.implements_ite (by rw [h.1]) (fun _ ↦ ?_) fun hroom ↦ ?_
  · exact Cursor.implements_pure ⟨rfl, h.1, rfl⟩
  · refine ((berGetOid_implements berMaxOidLen).within hvb).bind fun oid ns hoid ↦ ?_
    obtain rfl := hoid
    obtain ⟨names', hpush, hnames'⟩ :=
      Table.push_of_lt (Nat.not_le.1 hroom) (⟨oid.toList, oid.length_le⟩ : VbName)
    rw [hpush, dif_pos oid.length_le]
    refine Cursor.implements_pure ⟨rfl, ?_, h.2⟩
    show names'.toList = _
    rw [hnames', h.1]

/-- A request that was read is what the list says. -/
def ParsedReq.Shows (r : ParsedReq cfg)
    (x : UInt8 × List UInt8 × Int32 × Int32 × Int32 × NameList) : Prop :=
  r.pduType = x.1 ∧ r.community = x.2.1 ∧ r.requestId = x.2.2.1 ∧ r.field2 = x.2.2.2.1 ∧
    r.field3 = x.2.2.2.2.1 ∧ r.names = x.2.2.2.2.2.1 ∧ r.tooMany = x.2.2.2.2.2.2

theorem length_of_takeTlv {bs bs' : List UInt8} {x : UInt8 × List UInt8}
    (h : takeTlv bs = some (x, bs')) : (tlv x.1 x.2).length + bs'.length ≤ bs.length := by
  rw [takeTlv] at h
  rcases hs : splitTlv 4 bs with - | ⟨tag, content, rest⟩
  · simp [hs] at h
  · simp only [hs, Option.some.injEq, Prod.mk.injEq] at h
    obtain ⟨rfl, rfl⟩ := h
    exact length_tlv_le_of_splitTlv hs

theorem takeContent_eq_some {tag : UInt8} {bs bs' content : List UInt8}
    (h : takeContent tag bs = some (content, bs')) :
    (tlv tag content).length + bs'.length ≤ bs.length := by
  obtain ⟨x, bs₁, htlv, hrest⟩ := Parser.bind_eq_some.1 h
  have hlen := length_of_takeTlv htlv
  split at hrest
  · exact absurd hrest (by simp [Parser.fail])
  · next htag =>
    obtain ⟨rfl, rfl⟩ := Prod.mk.inj (Option.some.inj hrest)
    rwa [not_not.1 htag] at hlen

/-- Every element takes two bytes and more. -/
theorem two_le_length_tlv (tag : UInt8) (content : List UInt8) :
    content.length + 2 ≤ (tlv tag content).length := by
  have := length_lenField_pos content.length
  rw [length_tlv]
  omega

/-- A round of the loop that goes on takes at least two bytes. -/
theorem takeVarbind_eq_some {l l' : NameList} {more : Bool} {bs bs' : List UInt8}
    (h : takeVarbind cfg l bs = some ((more, l'), bs')) :
    ∃ vb, takeContent berTagSequence bs = some (vb, bs') ∧
      (cfg.maxReqVb ≤ l.1.length ∧ more = false ∧ l' = (l.1, true) ∨
        l.1.length < cfg.maxReqVb ∧ more = true ∧ ∃ name rest,
          takeOid berMaxOidLen vb = some (name.oid, rest) ∧ l' = (l.1 ++ [name], l.2)) := by
  obtain ⟨vb, bs₁, hvb, hrest⟩ := Parser.bind_eq_some.1 h
  by_cases hfull : cfg.maxReqVb ≤ l.1.length
  · rw [if_pos hfull] at hrest
    obtain ⟨hpair, rfl⟩ := Prod.mk.inj (Option.some.inj hrest)
    obtain ⟨rfl, rfl⟩ := Prod.mk.inj hpair
    exact ⟨vb, hvb, Or.inl ⟨hfull, rfl, rfl⟩⟩
  · rw [if_neg hfull] at hrest
    obtain ⟨oid, bs₂, hoid, hlast⟩ := Parser.bind_eq_some.1 hrest
    obtain ⟨rfl, rest, htake⟩ := Parser.within_eq_some.1 hoid
    split at hlast
    · next hlen =>
      obtain ⟨hpair, rfl⟩ := Prod.mk.inj (Option.some.inj hlast)
      obtain ⟨rfl, rfl⟩ := Prod.mk.inj hpair
      exact ⟨vb, hvb, Or.inr ⟨Nat.not_le.1 hfull, rfl, ⟨oid, hlen⟩, rest, htake, rfl⟩⟩
    · exact absurd hlast (by simp [Parser.fail])

theorem parseCommunity_implements :
    Implements buf Eq (parseCommunity community buf) (takeCommunity community) := by
  refine berGetInt_implements.bind fun version _ hversion ↦ ?_
  obtain rfl := hversion
  refine Cursor.implements_ite Iff.rfl (fun _ ↦ Cursor.implements_fail) fun _ ↦ ?_
  refine berGetOctet_implements.bind fun s bs hs ↦ ?_
  have hlen : s.2 = bs.length := by
    rw [← hs.2, Cursor.length_rest hs.1]
    show s.2 = s.1 + s.2 - s.1
    omega
  refine Cursor.implements_ite (by rw [hlen]) (fun _ ↦ Cursor.implements_fail) fun heq ↦ ?_
  rw [← not_not.1 heq, bytesAt_eq hs]
  exact Cursor.implements_ite Iff.rfl (fun _ ↦ Cursor.implements_fail)
    fun _ ↦ Cursor.implements_pure rfl

theorem parsePdu_implements :
    Implements buf
      (fun a b ↦ a.1 = b.1 ∧ a.2.1 = b.2.1 ∧ a.2.2.1 = b.2.2.1 ∧ a.2.2.2.Shows b.2.2.2)
      (parsePdu cfg buf) (takePdu cfg) := by
  refine berGetInt_implements.bind fun requestId _ h₁ ↦ ?_
  refine berGetInt_implements.bind fun field2 _ h₂ ↦ ?_
  refine berGetInt_implements.bind fun field3 _ h₃ ↦ ?_
  refine (berEnter_implements berTagSequence).bind fun vbl vbs hvbl ↦ ?_
  have hloop : Implements buf NamesRead.Shows
      (Op.untilDone 2 (parseVarbind cfg buf) ⟨Table.empty VbName cfg.maxReqVb, false⟩)
      (Parser.untilEmpty (takeVarbind cfg) ([], false)) := by
    refine Implements.untilDone (by decide) (fun _ _ h ↦ parseVarbind_implements h) ?_ ⟨rfl, rfl⟩
    intro l bs l' bs' h
    obtain ⟨vb, hvb, -⟩ := takeVarbind_eq_some h
    have hlen := takeContent_eq_some hvb
    have htwo := two_le_length_tlv berTagSequence vb
    omega
  refine (hloop.within hvbl).bind fun r l hr ↦ ?_
  refine Cursor.implements_ite (by rw [hr.1]) (fun _ ↦ Cursor.implements_fail) fun _ ↦ ?_
  exact Cursor.implements_pure ⟨h₁, h₂, h₃, hr⟩

theorem parseDatagram_implements :
    Implements buf ParsedReq.Shows (parseDatagram cfg community buf)
      (takeDatagram cfg community) := by
  refine (berEnter_implements berTagSequence).bind fun top bs htop ↦ ?_
  refine Implements.within htop ?_
  refine parseCommunity_implements.bind fun comm _ hcomm ↦ ?_
  refine berGetTlv_implements.bind fun t x ht ↦ ?_
  refine (parsePdu_implements.within ht.2).bind fun pdu l hpdu ↦ ?_
  obtain ⟨h₁, h₂, h₃, hnames, htoo⟩ := hpdu
  exact Cursor.implements_pure ⟨ht.1, hcomm, h₁, h₂, h₃, hnames, htoo⟩

/-- **What `parse_request` accepts.** -/
theorem parseRequest_cases (cfg : SnmpConfig) (community buf : List UInt8) :
    parseRequest cfg community buf = .ok none ∧ takeDatagram cfg community buf = none ∨
      ∃ r x rest, parseRequest cfg community buf = .ok (some r) ∧
        takeDatagram cfg community buf = some (x, rest) ∧ r.Shows x := by
  rw [parseRequest, berDecInit_whole rfl]
  obtain ⟨d, ⟨hop, hnone⟩ | ⟨r, x, rest, hop, hsome, hr, -⟩⟩ :=
    (@parseDatagram_implements cfg buf community).whole
  · rw [hop]
    exact Or.inl ⟨rfl, hnone⟩
  · rw [hop]
    exact Or.inr ⟨r, x, rest, rfl, hsome, hr⟩

/-! ### Requests that are accepted -/

/-- The arcs of an OID as the decoder makes them. -/
def ReadArcs : List ℕ → Prop
  | a :: b :: arcs => b < 40 ∧ a * 40 + b < 256 ∧ ∀ n ∈ arcs, n < 2 ^ 32
  | _ => False

theorem readArcs_of_arcsOfContent {max : ℕ} {arcs : List ℕ} {content : List UInt8}
    (h : arcsOfContent max content = some arcs) : ReadArcs arcs := by
  rcases content with - | ⟨c, cs⟩
  · exact absurd h (by simp [arcsOfContent])
  · have hc := c.toNat_lt
    rw [arcsOfContent] at h
    split at h
    · exact absurd h (by simp)
    · split at h
      · obtain rfl := Option.some.inj h
        refine ⟨Nat.mod_lt _ (by decide), by omega, fun n hn ↦ ?_⟩
        obtain ⟨m, -, rfl⟩ := List.mem_map.1 hn
        exact Nat.mod_lt m (by decide)
      · exact absurd h (by simp)

theorem readArcs_of_takeOid {max : ℕ} {arcs : List ℕ} {bs bs' : List UInt8}
    (h : takeOid max bs = some (arcs, bs')) : ReadArcs arcs := by
  obtain ⟨x, bs₁, -, hrest⟩ := Parser.bind_eq_some.1 h
  split at hrest
  · exact absurd hrest (by simp [Parser.fail])
  · rcases harcs : arcsOfContent max x.2 with - | ns
    · rw [harcs] at hrest
      exact absurd hrest (by simp [Parser.fail])
    · rw [harcs] at hrest
      obtain ⟨rfl, -⟩ := Prod.mk.inj (Option.some.inj hrest)
      exact readArcs_of_arcsOfContent harcs

/-- An integer is not written in more bytes than it was read from. -/
theorem length_of_takeInt {v : Int32} {bs bs' : List UInt8} (h : takeInt bs = some (v, bs')) :
    (tlv berTagInteger (twosBytes v.toInt)).length + bs'.length ≤ bs.length ∧
      bs'.length + 3 ≤ bs.length := by
  obtain ⟨x, bs₁, htlv, hrest⟩ := Parser.bind_eq_some.1 h
  have hlen := length_of_takeTlv htlv
  have htwo := two_le_length_tlv x.1 x.2
  split at hrest
  · exact absurd hrest (by simp [Parser.fail])
  · next hok =>
    obtain ⟨rfl, rfl⟩ := Prod.mk.inj (Option.some.inj hrest)
    simp only [not_or] at hok
    have hlo := (Int32.ofInt (twosValue x.2)).le_toInt
    have hhi := (Int32.ofInt (twosValue x.2)).toInt_lt
    have hshort : (twosBytes (Int32.ofInt (twosValue x.2)).toInt).length ≤ x.2.length := by
      by_cases hfive : x.2.length ≤ 4
      · -- the value is the integer read, which has no shorter encoding
        obtain ⟨k, hk⟩ := Nat.exists_eq_succ_of_ne_zero hok.2.1
        have hbounds := twosValue_bounds hk
        have hpow : (256 : ℤ) ^ k ≤ 256 ^ 3 :=
          pow_le_pow_right₀ (by decide) (by omega)
        rw [Int32.toInt_ofInt_of_le (by omega) (by omega)]
        exact length_twosBytes_twosValue_le (List.ne_nil_of_length_eq_add_one hk)
      · have := @length_twosBytes_le (Int32.ofInt (twosValue x.2)).toInt 3 (by omega) (by omega)
        omega
    have hmono := @length_tlv_mono berTagInteger x.1 _ _ hshort
    omega

theorem readArcs_of_untilEmpty {l : NameList} {bs bs' : List UInt8}
    (h : Parser.untilEmpty (takeVarbind cfg) ([], false) bs = some (l, bs')) :
    ∀ name ∈ l.1, ReadArcs name.oid := by
  refine Parser.invariant_untilEmpty (I := fun l : NameList ↦ ∀ name ∈ l.1, ReadArcs name.oid)
    (fun l bs more l' bs' hl hbody ↦ ?_) (fun name hname ↦ absurd hname (by simp)) h
  obtain ⟨vb, -, ⟨-, -, rfl⟩ | ⟨-, -, name, rest, hoid, rfl⟩⟩ := takeVarbind_eq_some hbody
  · exact hl
  · intro name' hname'
    rcases List.mem_append.1 hname' with hmem | hmem
    · exact hl name' hmem
    · rw [List.mem_singleton.1 hmem]
      exact readArcs_of_takeOid hoid

theorem takeCommunity_eq_some {comm bs bs' : List UInt8}
    (h : takeCommunity community bs = some (comm, bs')) :
    bs'.length + 3 + (tlv berTagOctetStr comm).length ≤ bs.length := by
  obtain ⟨version, bs₁, hversion, hrest⟩ := Parser.bind_eq_some.1 h
  have hint := length_of_takeInt hversion
  split at hrest
  · exact absurd hrest (by simp [Parser.fail])
  · obtain ⟨s, bs₂, hs, hlast⟩ := Parser.bind_eq_some.1 hrest
    have hlen := takeContent_eq_some hs
    split at hlast
    · exact absurd hlast (by simp [Parser.fail])
    · split at hlast
      · exact absurd hlast (by simp [Parser.fail])
      · obtain ⟨rfl, rfl⟩ := Prod.mk.inj (Option.some.inj hlast)
        omega

theorem takePdu_eq_some {x : Int32 × Int32 × Int32 × NameList} {bs bs' : List UInt8}
    (h : takePdu cfg bs = some (x, bs')) :
    (tlv berTagInteger (twosBytes x.1.toInt)).length + 8 ≤ bs.length ∧
      ∀ name ∈ x.2.2.2.1, ReadArcs name.oid := by
  obtain ⟨requestId, bs₁, h₁, hrest₁⟩ := Parser.bind_eq_some.1 h
  obtain ⟨field2, bs₂, h₂, hrest₂⟩ := Parser.bind_eq_some.1 hrest₁
  obtain ⟨field3, bs₃, h₃, hrest₃⟩ := Parser.bind_eq_some.1 hrest₂
  obtain ⟨vbl, bs₄, h₄, hrest₄⟩ := Parser.bind_eq_some.1 hrest₃
  obtain ⟨l, bs₅, h₅, hlast⟩ := Parser.bind_eq_some.1 hrest₄
  obtain ⟨-, rest, hnames⟩ := Parser.within_eq_some.1 h₅
  split at hlast
  · exact absurd hlast (by simp [Parser.fail])
  · obtain ⟨rfl, -⟩ := Prod.mk.inj (Option.some.inj hlast)
    have hlen₁ := length_of_takeInt h₁
    have hlen₂ := length_of_takeInt h₂
    have hlen₃ := length_of_takeInt h₃
    have hlen₄ := takeContent_eq_some h₄
    have htwo := two_le_length_tlv berTagSequence vbl
    refine ⟨?_, readArcs_of_untilEmpty hnames⟩
    show (tlv berTagInteger (twosBytes requestId.toInt)).length + 8 ≤ bs.length
    omega

/-- **What an accepted datagram looks like**: a message with the community, and in it a PDU with the
request-id, two more integers and a list. The names are as the decoder makes them. -/
theorem parseRequest_eq_some {r : ParsedReq cfg}
    (h : parseRequest cfg community buf = .ok (some r)) :
    (∀ name ∈ r.names, ReadArcs name.oid) ∧ ∃ (tag : UInt8) (top pdu : List UInt8),
      (tlv berTagSequence top).length ≤ buf.length ∧
      3 + (tlv berTagOctetStr r.community).length + (tlv tag pdu).length ≤ top.length ∧
      (tlv berTagInteger (twosBytes r.requestId.toInt)).length + 8 ≤ pdu.length := by
  rcases parseRequest_cases cfg community buf with ⟨hnone, -⟩ | ⟨r', x, rest, hsome, htake, hr⟩
  · rw [h] at hnone
    exact absurd hnone (by simp)
  · rw [h] at hsome
    obtain rfl := Option.some.inj (Except.ok.inj hsome)
    obtain ⟨-, hcomm, hid, -, -, hnames, -⟩ := hr
    obtain ⟨top, bs₁, htop, hmsg⟩ := Parser.bind_eq_some.1 htake
    obtain ⟨-, rest', hmessage⟩ := Parser.within_eq_some.1 hmsg
    obtain ⟨comm, bs₂, hcommunity, hpdu⟩ := Parser.bind_eq_some.1 hmessage
    obtain ⟨t, bs₃, ht, hfields⟩ := Parser.bind_eq_some.1 hpdu
    obtain ⟨p, bs₄, hp, hlast⟩ := Parser.bind_eq_some.1 hfields
    obtain ⟨-, rest'', htakePdu⟩ := Parser.within_eq_some.1 hp
    obtain ⟨rfl, -⟩ := Prod.mk.inj (Option.some.inj hlast)
    have hlenTop := takeContent_eq_some htop
    have hlenComm := takeCommunity_eq_some hcommunity
    have hlenPdu := length_of_takeTlv ht
    obtain ⟨hfieldsLen, hread⟩ := takePdu_eq_some htakePdu
    rw [hcomm, hid, hnames]
    exact ⟨hread, t.1, top, t.2, by omega, by show 3 + (tlv _ comm).length + _ ≤ _; omega,
      hfieldsLen⟩

/-! ### What an accepted datagram carries -/

theorem length_of_takeContent_lt {tag : UInt8} {bs bs' content : List UInt8}
    (h : takeContent tag bs = some (content, bs')) : bs'.length < bs.length := by
  have hlen := takeContent_eq_some h
  have htwo := two_le_length_tlv tag content
  omega

/-- The contents of the varbinds that a list of bytes starts with, and the bytes behind them. No
number of varbinds is too large here. -/
def varbindsOf (bs : List UInt8) : List (List UInt8) × List UInt8 :=
  match _ : takeContent berTagSequence bs with
  | none => ([], bs)
  | some (vb, bs') => (vb :: (varbindsOf bs').1, (varbindsOf bs').2)
termination_by bs.length
decreasing_by all_goals exact length_of_takeContent_lt ‹_›

theorem varbindsOf_nil : varbindsOf [] = ([], []) := by
  rw [varbindsOf]
  split
  · rfl
  · next h => exact absurd (length_of_takeContent_lt h) (Nat.not_lt_zero _)

theorem varbindsOf_of_some {bs bs' vb : List UInt8}
    (h : takeContent berTagSequence bs = some (vb, bs')) :
    varbindsOf bs = (vb :: (varbindsOf bs').1, (varbindsOf bs').2) := by
  rw [varbindsOf]
  split
  · next hnone =>
    rw [h] at hnone
    cases hnone
  · next hsome =>
    rw [h] at hsome
    obtain ⟨rfl, rfl⟩ := Prod.mk.inj (Option.some.inj hsome)
    rfl

/-- The name that the content of a varbind starts with. -/
def varbindName (vb : List UInt8) : Option (List ℕ) := (takeOid berMaxOidLen vb).map Prod.fst

/-- The names that were kept of the varbinds, when there is room for `cap`: those of the first
`cap`, with a mark when there were more. Without the mark, nothing but varbinds was there. -/
structure NameList.KeptOf (l : NameList) (cap : ℕ) (vbs : List (List UInt8) × List UInt8) :
    Prop where
  names_eq : l.1.map (fun name ↦ some name.oid) = (vbs.1.take cap).map varbindName
  tooMany_iff : l.2 = true ↔ cap < vbs.1.length
  whole : l.2 = false → vbs.2 = []

/-- **The loop over the varbinds keeps the first names, and says when there were more.** -/
theorem keptOf_untilEmpty {l₀ l : NameList} {bs bs' : List UInt8}
    (hroom : l₀.1.length ≤ cfg.maxReqVb) (hfew : l₀.2 = false)
    (h : Parser.untilEmpty (takeVarbind cfg) l₀ bs = some (l, bs')) :
    ∃ l', l.1 = l₀.1 ++ l' ∧
      NameList.KeptOf (l', l.2) (cfg.maxReqVb - l₀.1.length) (varbindsOf bs) := by
  rw [Parser.untilEmpty] at h
  fun_induction Parser.loop (takeVarbind cfg) l₀ bs with
  | case1 l₀ =>
    obtain ⟨rfl, -⟩ := Prod.mk.inj (Option.some.inj h)
    refine ⟨[], (List.append_nil _).symm, ?_⟩
    rw [varbindsOf_nil]
    exact ⟨by simp, by simp [hfew], fun _ ↦ rfl⟩
  | case2 => cases h
  | case3 l₀ bs _ l₁ bs₁ hbody =>
    -- the loop is left: the table is full, and the varbind is one too many
    obtain ⟨rfl, -⟩ := Prod.mk.inj (Option.some.inj h)
    obtain ⟨vb, hvb, ⟨hfull, -, rfl⟩ | ⟨-, hmore, -⟩⟩ := takeVarbind_eq_some hbody
    · refine ⟨[], (List.append_nil _).symm, ?_⟩
      rw [varbindsOf_of_some hvb, Nat.sub_eq_zero_of_le hfull]
      exact ⟨by simp, by simp, by simp⟩
    · cases hmore
  | case4 l₀ bs _ l₁ bs₁ hbody _ ih =>
    obtain ⟨vb, hvb, ⟨-, hmore, -⟩ | ⟨hlt, -, name, rest, hoid, rfl⟩⟩ := takeVarbind_eq_some hbody
    · cases hmore
    · obtain ⟨l', heq, hkept⟩ := ih (by rw [List.length_append, List.length_singleton]; exact hlt)
        hfew h
      have hcap : cfg.maxReqVb - l₀.1.length =
          cfg.maxReqVb - (l₀.1 ++ [name]).length + 1 := by
        rw [List.length_append, List.length_singleton]
        omega
      have hname : varbindName vb = some name.oid := by rw [varbindName, hoid]; rfl
      refine ⟨name :: l', by rw [heq, List.append_assoc, List.singleton_append], ?_⟩
      rw [varbindsOf_of_some hvb, hcap]
      refine ⟨?_, ?_, hkept.whole⟩
      · rw [List.take_succ_cons, List.map_cons, List.map_cons, hname]
        exact congrArg _ hkept.names_eq
      · rw [List.length_cons, Nat.succ_lt_succ_iff]
        exact hkept.tooMany_iff
  | case5 => cases h

/-- The request is what the datagram carries: a message with the version and the community, and in
it a PDU with three integers and a list of varbinds, of which the request has the names. -/
def ParsedReq.CarriedBy (r : ParsedReq cfg) (community buf : List UInt8) : Prop :=
  r.community = community ∧
    ∃ top top₁ top₂ pdu pdu₁ pdu₂ pdu₃ vbl, ∃ rest rest' rest'' : List UInt8,
      takeContent berTagSequence buf = some (top, rest) ∧
      takeInt top = some (snmpVersion2c, top₁) ∧
      takeContent berTagOctetStr top₁ = some (community, top₂) ∧
      takeTlv top₂ = some ((r.pduType, pdu), rest') ∧
      takeInt pdu = some (r.requestId, pdu₁) ∧ takeInt pdu₁ = some (r.field2, pdu₂) ∧
      takeInt pdu₂ = some (r.field3, pdu₃) ∧
      takeContent berTagSequence pdu₃ = some (vbl, rest'') ∧
      NameList.KeptOf (r.names, r.tooMany) cfg.maxReqVb (varbindsOf vbl)

theorem takeCommunity_carries {comm bs bs' : List UInt8}
    (h : takeCommunity community bs = some (comm, bs')) : comm = community ∧
      ∃ msg, takeInt bs = some (snmpVersion2c, msg) ∧
        takeContent berTagOctetStr msg = some (community, bs') := by
  obtain ⟨version, bs₁, hversion, hrest⟩ := Parser.bind_eq_some.1 h
  split at hrest
  · cases hrest
  · next hv =>
    obtain ⟨s, bs₂, hs, hlast⟩ := Parser.bind_eq_some.1 hrest
    split at hlast
    · cases hlast
    · split at hlast
      · cases hlast
      · next heq =>
        obtain ⟨rfl, rfl⟩ := Prod.mk.inj (Option.some.inj hlast)
        obtain rfl := not_not.1 hv
        obtain rfl := not_not.1 heq
        exact ⟨rfl, bs₁, hversion, hs⟩

theorem takePdu_carries {x : Int32 × Int32 × Int32 × NameList} {bs bs' : List UInt8}
    (h : takePdu cfg bs = some (x, bs')) : ∃ bs₁ bs₂ bs₃ vbl,
      takeInt bs = some (x.1, bs₁) ∧ takeInt bs₁ = some (x.2.1, bs₂) ∧
      takeInt bs₂ = some (x.2.2.1, bs₃) ∧ takeContent berTagSequence bs₃ = some (vbl, bs') ∧
      x.2.2.2.KeptOf cfg.maxReqVb (varbindsOf vbl) := by
  obtain ⟨requestId, bs₁, h₁, hrest₁⟩ := Parser.bind_eq_some.1 h
  obtain ⟨field2, bs₂, h₂, hrest₂⟩ := Parser.bind_eq_some.1 hrest₁
  obtain ⟨field3, bs₃, h₃, hrest₃⟩ := Parser.bind_eq_some.1 hrest₂
  obtain ⟨vbl, bs₄, h₄, hrest₄⟩ := Parser.bind_eq_some.1 hrest₃
  obtain ⟨l, bs₅, h₅, hlast⟩ := Parser.bind_eq_some.1 hrest₄
  obtain ⟨rfl, rest, hnames⟩ := Parser.within_eq_some.1 h₅
  split at hlast
  · cases hlast
  · obtain ⟨rfl, rfl⟩ := Prod.mk.inj (Option.some.inj hlast)
    obtain ⟨l', heq, hkept⟩ := keptOf_untilEmpty (Nat.zero_le _) rfl hnames
    obtain rfl : l.1 = l' := heq
    exact ⟨bs₁, bs₂, bs₃, vbl, h₁, h₂, h₃, h₄, hkept⟩

/-- **An accepted request is what its datagram carries**: no varbind is left out of it silently. -/
theorem carriedBy_of_parseRequest {r : ParsedReq cfg}
    (h : parseRequest cfg community buf = .ok (some r)) : r.CarriedBy community buf := by
  rcases parseRequest_cases cfg community buf with ⟨hnone, -⟩ | ⟨r', x, rest, hsome, htake, hr⟩
  · rw [h] at hnone
    exact absurd hnone (by simp)
  · rw [h] at hsome
    obtain rfl := Option.some.inj (Except.ok.inj hsome)
    obtain ⟨htag, hcomm, hid, h2, h3, hnames, htoo⟩ := hr
    obtain ⟨top, bs₁, htop, hmsg⟩ := Parser.bind_eq_some.1 htake
    obtain ⟨-, rest', hmessage⟩ := Parser.within_eq_some.1 hmsg
    obtain ⟨comm, bs₂, hcommunity, hpdu⟩ := Parser.bind_eq_some.1 hmessage
    obtain ⟨t, bs₃, ht, hfields⟩ := Parser.bind_eq_some.1 hpdu
    obtain ⟨p, bs₄, hp, hlast⟩ := Parser.bind_eq_some.1 hfields
    obtain ⟨-, rest'', htakePdu⟩ := Parser.within_eq_some.1 hp
    obtain ⟨rfl, -⟩ := Prod.mk.inj (Option.some.inj hlast)
    obtain ⟨rfl, msg, hversion, hoctets⟩ := takeCommunity_carries hcommunity
    obtain ⟨pdu₁, pdu₂, pdu₃, vbl, h₁, h₂, h₃, hvbl, hkept⟩ := takePdu_carries htakePdu
    rw [ParsedReq.CarriedBy, htag, hid, h2, h3, hnames, htoo]
    exact ⟨hcomm, top, msg, bs₂, t.2, pdu₁, pdu₂, pdu₃, vbl, _, _, _, htop, hversion, hoctets, ht,
      h₁, h₂, h₃, hvbl, hkept⟩

/-! ### Memory safety -/

/-- From every decoder in range the operation commits no fault, and whether it fails or not it
leaves its decoder in range, with the same end. -/
def OpSafe {α : Type} (buf : List UInt8) (op : Op α) : Prop :=
  ∀ d : BerDec, d.InRange buf → ∃ r d', op d = .ok (r, d') ∧ d.Follows buf d'

/-- The slice lies inside what the decoder has left, after a header of two bytes at least. -/
def SliceOf (d inner : BerDec) : Prop :=
  d.p + 2 ≤ inner.p ∧ inner.p ≤ inner.stop ∧ inner.stop ≤ d.stop

theorem opSafe_of_implements {α β : Type} {R : α → β → Prop} {op : Op α} {f : Parser β}
    (h : Implements buf R op f) : OpSafe buf op :=
  fun _ hd ↦ h.follows hd

/-- The content of a TLV is a slice of the decoder's range, and the decoder is left behind it. -/
theorem berGetTlv_sliceOf {d d' : BerDec} {t : Tlv} (hd : d.InRange buf)
    (h : berGetTlv buf d = .ok (some t, d')) : SliceOf d t.inner ∧ d'.p = t.inner.stop := by
  obtain ⟨tag, d₁, htag, h₁⟩ := Op.bind_eq_ok.1 h
  obtain ⟨l0, d₂, hl0, h₂⟩ := Op.bind_eq_ok.1 h₁
  obtain ⟨len, d₃, hlen, h₃⟩ := Op.bind_eq_ok.1 h₂
  have hf₁ := Cursor.implements_byte.follows_of_eq hd htag
  have hf₂ := Cursor.implements_byte.follows_of_eq hf₁.inRange hl0
  have hf₃ := (tlvLen_implements l0).follows_of_eq hf₂.inRange hlen
  obtain rfl := Op.byte_eq_ok htag
  obtain rfl := Op.byte_eq_ok hl0
  have hp : d.p + 2 ≤ d₃.p := hf₃.le
  rw [tlvValue] at h₃
  split at h₃
  · exact absurd h₃ (by simp [Op.fail])
  · split at h₃
    · next hin =>
      obtain ⟨htlv, rfl⟩ := Prod.mk.inj (Except.ok.inj h₃)
      obtain rfl := Option.some.inj htlv
      exact ⟨⟨hp, Nat.le_add_right _ _, hin.2⟩, rfl⟩
    · exact absurd h₃ (by simp)

theorem berEnter_sliceOf {d d' inner : BerDec} {tag : UInt8} (hd : d.InRange buf)
    (h : berEnter buf tag d = .ok (some inner, d')) : SliceOf d inner ∧ d'.p = inner.stop := by
  obtain ⟨t, d₁, ht, h₁⟩ := Op.bind_eq_ok.1 h
  have hslice := berGetTlv_sliceOf hd ht
  split at h₁
  · exact absurd h₁ (by simp [Op.fail])
  · obtain ⟨hinner, rfl⟩ := Prod.mk.inj (Except.ok.inj h₁)
    obtain rfl := Option.some.inj hinner
    exact hslice

theorem berGetOctet_sliceOf {d d' : BerDec} {s : ℕ × ℕ} (hd : d.InRange buf)
    (h : berGetOctet buf d = .ok (some s, d')) :
    SliceOf d (berDecInit s.1 s.2) ∧ d'.p = (berDecInit s.1 s.2).stop := by
  obtain ⟨t, d₁, ht, h₁⟩ := Op.bind_eq_ok.1 h
  have hslice := berGetTlv_sliceOf hd ht
  split at h₁
  · exact absurd h₁ (by simp [Op.fail])
  · obtain ⟨hs, rfl⟩ := Prod.mk.inj (Except.ok.inj h₁)
    obtain rfl := Option.some.inj hs
    exact hslice

/-- **Parsing is in bounds and ends.** For every datagram and every configured community, neither
`parse_request` nor any operation of the decoder commits a fault, every operation keeps its decoder
in range even when it fails, and every slice handed out lies in the range that its call found. -/
theorem parseRequest_safe (cfg : SnmpConfig) (community buf : List UInt8) :
    (∃ r, parseRequest cfg community buf = .ok r) ∧
      OpSafe buf (berGetTlv buf) ∧ (∀ tag, OpSafe buf (berEnter buf tag)) ∧
      OpSafe buf (berGetInt buf) ∧ OpSafe buf (berGetOctet buf) ∧
      (∀ max, OpSafe buf (berGetOid buf max)) ∧ OpSafe buf (berSkip buf) ∧
      ∀ d : BerDec, d.InRange buf →
        (∀ t d', berGetTlv buf d = .ok (some t, d') → SliceOf d t.inner ∧ d'.p = t.inner.stop) ∧
        (∀ tag inner d', berEnter buf tag d = .ok (some inner, d') →
          SliceOf d inner ∧ d'.p = inner.stop) ∧
        ∀ s d', berGetOctet buf d = .ok (some s, d') →
          SliceOf d (berDecInit s.1 s.2) ∧ d'.p = (berDecInit s.1 s.2).stop := by
  have hparse : ∃ r, parseRequest cfg community buf = .ok r := by
    rcases parseRequest_cases cfg community buf with ⟨h, -⟩ | ⟨r, x, rest, h, -, -⟩
    · exact ⟨none, h⟩
    · exact ⟨some r, h⟩
  exact ⟨hparse, opSafe_of_implements berGetTlv_implements,
    fun tag ↦ opSafe_of_implements (berEnter_implements tag),
    opSafe_of_implements berGetInt_implements, opSafe_of_implements berGetOctet_implements,
    fun max ↦ opSafe_of_implements (berGetOid_implements max),
    opSafe_of_implements berSkip_implements,
    fun d hd ↦ ⟨fun _ _ ↦ berGetTlv_sliceOf hd, fun _ _ _ ↦ berEnter_sliceOf hd,
      fun _ _ ↦ berGetOctet_sliceOf hd⟩⟩

end ThinEdge.Snmp
