import ThinEdge.Snmp.Response

/-!
# The SNMP agent: every request is answered

What a manager reads from the bytes that `handle_request` leaves, with the decoder of the repository
(`readResponse`), and when that is the answer it asked for. An error response always fits, because
it is no longer than the request (`length_errorTree_le`), so an accepted datagram is never met with
silence. `handleRequest_wellAnswered_iff` says when the answer is well formed too: a response echoes
request names, and one whose first byte has the continuation bit comes back as another name, or as
one that no decoder of the repository takes.
-/

namespace ThinEdge.Snmp

open Ber
open Cursor (Checked Op Parser Implements)

/-! ### Reading a response -/

/-- A Response message as it is read: the list has a name and the element of a value for every
varbind. -/
structure Response where
  version : Int32
  community : List UInt8
  requestId : Int32
  status : Int32
  index : Int32
  list : List (List ℕ × UInt8 × List UInt8)
  deriving DecidableEq, Repr

/-- Read the name and the value of a varbind, which are all it has. -/
def readNamedValue (buf : List UInt8) : Op (List ℕ × UInt8 × List UInt8) := do
  let name ← berGetOid buf berMaxOidLen
  let t ← berGetTlv buf
  let c ← Op.lift (bytesAt buf t.content t.clen)
  let _ ← atEnd
  pure (name.toList, t.tag, c)

/-- Read a varbind. -/
def readVarbind (buf : List UInt8) (l : List (List ℕ × UInt8 × List UInt8)) :
    Op (Bool × List (List ℕ × UInt8 × List UInt8)) := do
  let vb ← berEnter buf berTagSequence
  let x ← Op.within vb (readNamedValue buf)
  pure (true, l ++ [x])

/-- Read the fields of a PDU. -/
def readPdu (buf : List UInt8) :
    Op (Int32 × Int32 × Int32 × List (List ℕ × UInt8 × List UInt8)) := do
  let requestId ← berGetInt buf
  let status ← berGetInt buf
  let index ← berGetInt buf
  let vbl ← berEnter buf berTagSequence
  let list ← Op.within vbl (Op.untilDone 2 (readVarbind buf) [])
  let _ ← atEnd
  pure (requestId, status, index, list)

/-- Read the content of a Response message. -/
def readMessage (buf : List UInt8) : Op Response := do
  let version ← berGetInt buf
  let s ← berGetOctet buf
  let community ← Op.lift (bytesAt buf s.1 s.2)
  let pdu ← berEnter buf snmpPduResponse
  let x ← Op.within pdu (readPdu buf)
  let _ ← atEnd
  pure ⟨version, community, x.1, x.2.1, x.2.2.1, x.2.2.2⟩

/-- Read a Response message, which is all there is. -/
def readResponse (buf : List UInt8) : Op Response := do
  let top ← berEnter buf berTagSequence
  let r ← Op.within top (readMessage buf)
  let _ ← atEnd
  pure r

/-- The name and the value of a varbind that are all of a list. -/
def takeNamedValue : Parser (List ℕ × UInt8 × List UInt8) := do
  let name ← takeOid berMaxOidLen
  let t ← takeTlv
  let _ ← takeEnd
  pure (name, t.1, t.2)

/-- A varbind from the front of a list. -/
def takeNamed (l : List (List ℕ × UInt8 × List UInt8)) :
    Parser (Bool × List (List ℕ × UInt8 × List UInt8)) := do
  let vb ← takeContent berTagSequence
  let x ← Parser.within vb takeNamedValue
  pure (true, l ++ [x])

/-- The fields of a PDU from the front of a list. -/
def takeFields : Parser (Int32 × Int32 × Int32 × List (List ℕ × UInt8 × List UInt8)) := do
  let requestId ← takeInt
  let status ← takeInt
  let index ← takeInt
  let vbl ← takeContent berTagSequence
  let list ← Parser.within vbl (Parser.untilEmpty takeNamed [])
  let _ ← takeEnd
  pure (requestId, status, index, list)

/-- The content of a Response message. -/
def takeMessageFields : Parser Response := do
  let version ← takeInt
  let community ← takeContent berTagOctetStr
  let pdu ← takeContent snmpPduResponse
  let x ← Parser.within pdu takeFields
  let _ ← takeEnd
  pure ⟨version, community, x.1, x.2.1, x.2.2.1, x.2.2.2⟩

/-- A Response message that is all of a list. -/
def takeResponse : Parser Response := do
  let top ← takeContent berTagSequence
  let r ← Parser.within top takeMessageFields
  let _ ← takeEnd
  pure r

variable {buf : List UInt8}

theorem readNamedValue_implements : Implements buf Eq (readNamedValue buf) takeNamedValue := by
  refine (berGetOid_implements berMaxOidLen).bind fun name ns hname ↦ ?_
  refine berGetTlv_implements.bind fun t x ht ↦ ?_
  rw [bytesAt_eq ht.2]
  refine atEnd_implements.bind fun _ _ _ ↦ Cursor.implements_pure ?_
  rw [hname, ht.1]

theorem readVarbind_implements (l : List (List ℕ × UInt8 × List UInt8)) :
    Implements buf Eq (readVarbind buf l) (takeNamed l) :=
  (berEnter_implements berTagSequence).bind fun _ _ hvb ↦
    (readNamedValue_implements.within hvb).bind fun _ _ hx ↦ Cursor.implements_pure (by rw [hx])

theorem takeNamed_eq_some {l l' : List (List ℕ × UInt8 × List UInt8)} {more : Bool}
    {bs bs' : List UInt8} (h : takeNamed l bs = some ((more, l'), bs')) :
    bs'.length + 2 ≤ bs.length := by
  obtain ⟨vb, bs₁, hvb, hrest⟩ := Parser.bind_eq_some.1 h
  obtain ⟨x, bs₂, hx, hlast⟩ := Parser.bind_eq_some.1 hrest
  obtain ⟨rfl, -⟩ := Parser.within_eq_some.1 hx
  obtain ⟨-, rfl⟩ := Prod.mk.inj (Option.some.inj hlast)
  have hlen := takeContent_eq_some hvb
  have htwo := two_le_length_tlv berTagSequence vb
  omega

theorem readPdu_implements : Implements buf Eq (readPdu buf) takeFields := by
  refine berGetInt_implements.bind fun requestId _ h₁ ↦ ?_
  refine berGetInt_implements.bind fun status _ h₂ ↦ ?_
  refine berGetInt_implements.bind fun index _ h₃ ↦ ?_
  refine (berEnter_implements berTagSequence).bind fun vbl bs hvbl ↦ ?_
  have hloop : Implements buf Eq (Op.untilDone 2 (readVarbind buf) [])
      (Parser.untilEmpty takeNamed []) := by
    refine Implements.untilDone (by decide) (fun l l' hl ↦ ?_) ?_ rfl
    · rw [← hl]
      exact (readVarbind_implements l).mono fun a b hab ↦ ⟨congrArg Prod.fst hab,
        congrArg Prod.snd hab⟩
    · intro l bs l' bs' h
      exact takeNamed_eq_some h
  refine (hloop.within hvbl).bind fun list _ hlist ↦ ?_
  exact atEnd_implements.bind fun _ _ _ ↦ Cursor.implements_pure (by rw [h₁, h₂, h₃, hlist])

theorem readMessage_implements : Implements buf Eq (readMessage buf) takeMessageFields := by
  refine berGetInt_implements.bind fun version _ h₁ ↦ ?_
  refine berGetOctet_implements.bind fun s community hs ↦ ?_
  rw [bytesAt_eq hs]
  refine (berEnter_implements snmpPduResponse).bind fun pdu bs hpdu ↦ ?_
  refine (readPdu_implements.within hpdu).bind fun x _ hx ↦ ?_
  exact atEnd_implements.bind fun _ _ _ ↦ Cursor.implements_pure (by rw [h₁, hx])

/-- **Reading a response commits no fault**, and accepts what `takeResponse` does. -/
theorem readResponse_implements : Implements buf Eq (readResponse buf) takeResponse :=
  (berEnter_implements berTagSequence).bind fun _ _ htop ↦
    (readMessage_implements.within htop).bind fun _ _ hr ↦
      atEnd_implements.bind fun _ _ _ ↦ Cursor.implements_pure hr

/-! ### Reading what was written -/

/-- The element of a tree: its tag and its content. -/
def BerTree.element : BerTree → UInt8 × List UInt8
  | .int v => (berTagInteger, twosBytes v.toInt)
  | .uint tag v => (tag, twosBytes v.toNat)
  | .octets s => (berTagOctetStr, s)
  | .null => (berTagNull, [])
  | .exception tag => (tag, [])
  | .oid arcs => (berTagOid, oidContent arcs)
  | .node tag children => (tag, BerTree.encAll children)

theorem enc_eq_tlv (t : BerTree) : t.enc = tlv t.element.1 t.element.2 := by
  cases t <;> rfl

/-- What is read of names and values, when all the names are. -/
def decodedList : List (List ℕ × BerTree) → Option (List (List ℕ × UInt8 × List UInt8))
  | [] => some []
  | x :: xs =>
    match arcsOfContent berMaxOidLen (oidContent x.1) with
    | none => none
    | some arcs => (decodedList xs).map ((arcs, x.2.element) :: ·)

theorem takeNamedValue_enc (x : List ℕ × BerTree) (h : (varbindTree x).enc.length < 2 ^ 32) :
    takeNamedValue (BerTree.encAll [.oid x.1, x.2]) =
      match arcsOfContent berMaxOidLen (oidContent x.1) with
      | none => none
      | some arcs => some ((arcs, x.2.element), []) := by
  have hcontent : (BerTree.encAll [.oid x.1, x.2]).length < 2 ^ 32 :=
    (length_content_le_tlv berTagSequence _).trans_lt h
  have hsplit : BerTree.encAll [.oid x.1, x.2] =
      tlv berTagOid (oidContent x.1) ++ tlv x.2.element.1 x.2.element.2 := by
    rw [← enc_eq_tlv]
    show (BerTree.oid x.1).enc ++ (x.2.enc ++ []) = _
    rw [List.append_nil]
    rfl
  rw [hsplit] at hcontent ⊢
  rw [List.length_append] at hcontent
  have hoid := length_content_le_tlv berTagOid (oidContent x.1)
  have hval := length_content_le_tlv x.2.element.1 x.2.element.2
  have hname := @takeOid_tlv berMaxOidLen (oidContent x.1) (by omega)
    (tlv x.2.element.1 x.2.element.2)
  have htlv := takeTlv_tlv x.2.element.1 (show x.2.element.2.length < 2 ^ 32 by omega) []
  rw [List.append_nil] at htlv
  show Parser.bind (takeOid berMaxOidLen) _ _ = _
  rw [Parser.bind, hname]
  rcases arcsOfContent berMaxOidLen (oidContent x.1) with - | arcs
  · rfl
  · exact Parser.bind_of_some htlv

theorem takeNamed_enc (l : List (List ℕ × UInt8 × List UInt8)) (x : List ℕ × BerTree)
    (h : (varbindTree x).enc.length < 2 ^ 32) (rest : List UInt8) :
    takeNamed l ((varbindTree x).enc ++ rest) =
      match arcsOfContent berMaxOidLen (oidContent x.1) with
      | none => none
      | some arcs => some ((true, l ++ [(arcs, x.2.element)]), rest) := by
  have hcontent : (BerTree.encAll [.oid x.1, x.2]).length < 2 ^ 32 :=
    (length_content_le_tlv berTagSequence _).trans_lt h
  have henc : (varbindTree x).enc = tlv berTagSequence (BerTree.encAll [.oid x.1, x.2]) := rfl
  rw [takeNamed, henc, Parser.bind_of_some (takeContent_tlv hcontent rest)]
  show Parser.bind (Parser.within _ takeNamedValue) _ rest = _
  rw [Parser.bind, Parser.within, takeNamedValue_enc x h]
  rcases arcsOfContent berMaxOidLen (oidContent x.1) with - | arcs
  · rfl
  · rfl

/-- **Reading a list of varbinds.** -/
theorem untilEmpty_takeNamed (l : List (List ℕ × UInt8 × List UInt8))
    (list : List (List ℕ × BerTree))
    (h : (BerTree.encAll (list.map varbindTree)).length < 2 ^ 32) :
    Parser.untilEmpty takeNamed l (BerTree.encAll (list.map varbindTree)) =
      match decodedList list with
      | none => none
      | some l' => some (l ++ l', []) := by
  -- each round takes the element of one variable binding and leaves those of the others
  induction list generalizing l with
  | nil =>
    show Parser.loop takeNamed l [] = some (l ++ [], [])
    rw [Parser.loop, if_pos rfl, List.append_nil]
  | cons x xs ih =>
    have hsplit : BerTree.encAll ((x :: xs).map varbindTree) =
        (varbindTree x).enc ++ BerTree.encAll (xs.map varbindTree) := rfl
    rw [hsplit] at h ⊢
    rw [List.length_append] at h
    have hpos : 2 ≤ (varbindTree x).enc.length :=
      le_of_add_le_right (two_le_length_tlv berTagSequence (BerTree.encAll [.oid x.1, x.2]))
    have hne : (varbindTree x).enc ++ BerTree.encAll (xs.map varbindTree) ≠ [] := by
      intro hnil
      rw [(List.append_eq_nil_iff.1 hnil).1] at hpos
      exact absurd hpos (by decide)
    show Parser.loop takeNamed l _ = _
    rw [Parser.loop, if_neg hne, takeNamed_enc l x (by omega), decodedList]
    rcases arcsOfContent berMaxOidLen (oidContent x.1) with - | arcs
    · rfl
    · show (if (BerTree.encAll (xs.map varbindTree)).length <
        ((varbindTree x).enc ++ BerTree.encAll (xs.map varbindTree)).length then
        Parser.untilEmpty takeNamed (l ++ [(arcs, x.2.element)])
          (BerTree.encAll (xs.map varbindTree)) else none) = _
      rw [if_pos (by rw [List.length_append]; omega), ih _ (by omega)]
      rcases decodedList xs with - | l'
      · rfl
      · show some (l ++ [(arcs, x.2.element)] ++ l', []) = some (l ++ (arcs, x.2.element) :: l', [])
        rw [List.append_assoc, List.singleton_append]

section Message

variable (requestId status index : Int32) (community : List UInt8)
  (list : List (List ℕ × BerTree))

theorem takeFields_enc
    (h : (BerTree.encAll (pduFields requestId status index list)).length < 2 ^ 32) :
    takeFields (BerTree.encAll (pduFields requestId status index list)) =
      match decodedList list with
      | none => none
      | some l => some ((requestId, status, index, l), []) := by
  have hsplit : BerTree.encAll (pduFields requestId status index list) =
      tlv berTagInteger (twosBytes requestId.toInt) ++
        (tlv berTagInteger (twosBytes status.toInt) ++
          (tlv berTagInteger (twosBytes index.toInt) ++
            (tlv berTagSequence (BerTree.encAll (list.map varbindTree)) ++ []))) := rfl
  have hlist : (BerTree.encAll (list.map varbindTree)).length < 2 ^ 32 := by
    have := length_content_le_tlv berTagSequence (BerTree.encAll (list.map varbindTree))
    rw [hsplit, List.length_append, List.length_append, List.length_append,
      List.length_append] at h
    omega
  rw [hsplit, takeFields, Parser.bind_of_some (takeInt_tlv requestId _),
    Parser.bind_of_some (takeInt_tlv status _), Parser.bind_of_some (takeInt_tlv index _),
    Parser.bind_of_some (takeContent_tlv hlist [])]
  show Parser.bind (Parser.within _ (Parser.untilEmpty takeNamed [])) _ [] = _
  rw [Parser.bind, Parser.within, untilEmpty_takeNamed [] list hlist]
  rcases decodedList list with - | l
  · rfl
  · rfl

theorem takeMessageFields_enc
    (h : (BerTree.encAll (messageFields requestId status index community list)).length < 2 ^ 32) :
    takeMessageFields (BerTree.encAll (messageFields requestId status index community list)) =
      match decodedList list with
      | none => none
      | some l => some (⟨snmpVersion2c, community, requestId, status, index, l⟩, []) := by
  have hsplit : BerTree.encAll (messageFields requestId status index community list) =
      tlv berTagInteger (twosBytes snmpVersion2c.toInt) ++ (tlv berTagOctetStr community ++
        (tlv snmpPduResponse (BerTree.encAll (pduFields requestId status index list)) ++ [])) := rfl
  rw [hsplit, List.length_append, List.length_append, List.length_append] at h
  have hcomm := length_content_le_tlv berTagOctetStr community
  have hpdu := length_content_le_tlv snmpPduResponse
    (BerTree.encAll (pduFields requestId status index list))
  have hfields : (BerTree.encAll (pduFields requestId status index list)).length < 2 ^ 32 := by
    omega
  rw [hsplit, takeMessageFields, Parser.bind_of_some (takeInt_tlv snmpVersion2c _),
    Parser.bind_of_some (takeContent_tlv (by omega) _),
    Parser.bind_of_some (takeContent_tlv hfields [])]
  show Parser.bind (Parser.within _ takeFields) _ [] = _
  rw [Parser.bind, Parser.within, takeFields_enc requestId status index list hfields]
  rcases decodedList list with - | l
  · rfl
  · rfl

/-- **Reading a Response message.** -/
theorem takeResponse_enc
    (h : (responseTree requestId status index community list).enc.length < 2 ^ 32) :
    takeResponse (responseTree requestId status index community list).enc =
      match decodedList list with
      | none => none
      | some l => some (⟨snmpVersion2c, community, requestId, status, index, l⟩, []) := by
  have hcontent := (length_content_le_tlv berTagSequence
    (BerTree.encAll (messageFields requestId status index community list))).trans_lt h
  have htop : takeContent berTagSequence (responseTree requestId status index community list).enc =
      some (BerTree.encAll (messageFields requestId status index community list), []) := by
    rw [← List.append_nil (responseTree requestId status index community list).enc]
    exact takeContent_tlv hcontent []
  rw [takeResponse, Parser.bind_of_some htop]
  show Parser.bind (Parser.within _ takeMessageFields) _ [] = _
  rw [Parser.bind, Parser.within,
    takeMessageFields_enc requestId status index community list hcontent]
  rcases decodedList list with - | l
  · rfl
  · rfl

end Message

/-! ### Names that are read back -/

/-- The number that the first two arcs are combined to. -/
def firstSubId : List ℕ → ℕ
  | a :: b :: _ => a * 40 + b
  | _ => 0

/-- **A name that the decoder made is read back when its first byte was below 0x80.** Above, the
encoder writes two bytes where the decoder takes one, and the second is one arc more. -/
theorem arcsOfContent_oidContent_iff {arcs : List ℕ} (h : ReadArcs arcs)
    (hlen : arcs.length ≤ berMaxOidLen) :
    arcsOfContent berMaxOidLen (oidContent arcs) = some arcs ↔ firstSubId arcs < 128 := by
  rcases arcs with - | ⟨a, - | ⟨b, arcs⟩⟩
  · exact h.elim
  · exact h.elim
  · obtain ⟨hb, hab, harcs⟩ := h
    show _ ↔ a * 40 + b < 128
    constructor
    · intro heq
      by_contra hge
      have hlast : (UInt8.ofNat ((a * 40 + b) % 128)).toNat < 128 := by
        rw [toNat_ofNat_of_lt (by omega)]
        exact Nat.mod_lt _ (by decide)
      have hsub : subIds (UInt8.ofNat ((a * 40 + b) % 128) :: arcs.flatMap group) =
          (subIds (arcs.flatMap group)).map (_ :: ·) := scan_cons_of_lt hlast
      rw [oidContent, Nat.mod_eq_of_lt (by omega), group_of_byte (Nat.not_lt.1 hge) hab,
        List.cons_append, List.singleton_append, arcsOfContent, hsub, subIds_flatMap_group] at heq
      simp only [Option.map_some] at heq
      split at heq
      · have hcount := congrArg List.length (Option.some.inj heq)
        simp at hcount
      · exact absurd heq (by simp)
    · intro hlt
      exact arcsOfContent_oidContent hb hlt hlen harcs

theorem decodedList_of_readable {list : List (List ℕ × BerTree)}
    (h : ∀ x ∈ list, arcsOfContent berMaxOidLen (oidContent x.1) = some x.1) :
    decodedList list = some (list.map fun x ↦ (x.1, x.2.element)) := by
  induction list with
  | nil => rfl
  | cons x xs ih =>
    rw [decodedList, h x List.mem_cons_self, ih fun y hy ↦ h y (List.mem_cons_of_mem x hy)]
    rfl

theorem readable_of_decodedList {list : List (List ℕ × BerTree)}
    {l : List (List ℕ × UInt8 × List UInt8)} (h : decodedList list = some l)
    (hnames : l.map (·.1) = list.map (·.1)) :
    ∀ x ∈ list, arcsOfContent berMaxOidLen (oidContent x.1) = some x.1 := by
  induction list generalizing l with
  | nil => simp
  | cons x xs ih =>
    rw [decodedList] at h
    split at h
    · exact absurd h (by simp)
    · next arcs harcs =>
      obtain ⟨l', hl', rfl⟩ := Option.map_eq_some_iff.1 h
      obtain ⟨hhead, htail⟩ := List.cons.inj hnames
      refine List.forall_mem_cons.2 ⟨?_, ih hl' htail⟩
      rw [harcs]
      exact congrArg some hhead

theorem map_fst_namedValues (mib : Mib) (vals : ℕ → MibValues) (i : ℕ) (vbs : List RespVb) :
    (namedValues mib vals i vbs).map (·.1) = vbs.map (RespVb.oid mib) := by
  induction vbs generalizing i with
  | nil => rfl
  | cons vb vbs ih =>
    rw [namedValues, List.map_cons, ih, List.map_cons]

/-- The arcs of every object of the view fit 32 bits. -/
theorem readable_leafOid {sw : SwitchConfig} {leaf : MibLeaf} (h : leaf ∈ sw.mibView) :
    arcsOfContent berMaxOidLen (oidContent (mibLeafOid leaf)) = some (mibLeafOid leaf) := by
  have hbounds : leaf.col < 2 ^ 32 ∧ leaf.row < 2 ^ 32 := by
    have hif := sw.ifCount_le
    rw [sw.mibView_eq, sw.simSwitchIfCount_eq, mibInitLeaves] at h
    simp only [List.mem_append, List.mem_map, List.mem_singleton, List.mem_flatMap,
      List.mem_range'] at h
    have hcols : ∀ c ∈ sysScalars ++ ifColumns ++ fwScalars, c.2 < 2 ^ 32 := by decide
    rcases h with ((⟨c, hc, rfl⟩ | rfl) | ⟨c, hc, r, ⟨i, hi, rfl⟩, rfl⟩) | ⟨c, hc, rfl⟩
    · exact ⟨hcols c (by simp [hc]), Nat.two_pow_pos 32⟩
    · exact ⟨by decide, by decide⟩
    · refine ⟨hcols c (by simp [hc]), ?_⟩
      show 1 + 1 * i < 2 ^ 32
      omega
    · exact ⟨hcols c (by simp [hc]), Nat.two_pow_pos 32⟩
  have harcs : ∃ arcs, mibLeafOid leaf = 1 :: 3 :: arcs ∧ ∀ n ∈ arcs, n < 2 ^ 32 := by
    obtain ⟨kind, col, row⟩ := leaf
    cases kind <;> simp [mibLeafOid, sysPrefix, ifnumOid, ifentryPrefix, sysObjectIdValue] <;>
      simp at hbounds <;> omega
  obtain ⟨arcs, heq, hlt⟩ := harcs
  have hlen := length_mibLeafOid_le leaf
  rw [heq] at hlen ⊢
  have hmax : arcs.length + 2 ≤ berMaxOidLen := by
    rw [List.length_cons, List.length_cons] at hlen
    exact hlen.trans (show 11 ≤ berMaxOidLen by decide)
  exact arcsOfContent_oidContent (by decide) (by decide) hmax hlt

/-! ### What is planned -/

variable {cfg : SnmpConfig} {mib : Mib} {r : ParsedReq cfg}

/-- A planned varbind takes its name from the request, and points into the table. -/
def Planned (mib : Mib) (r : ParsedReq cfg) (vb : RespVb) : Prop :=
  vb.name ∈ r.names ∧ ∀ i, vb.leaf = some i → i < mib.length

theorem planned_setVbNext {name : VbName} (h : name ∈ r.names) :
    Planned mib r (setVbNext mib name) := by
  refine ⟨h, fun i hi ↦ ?_⟩
  have hnext : mibGetNext mib name.oid = some i := hi
  exact lt_length_of_mibGetNext hnext

theorem planned_planGetbulk {vb : RespVb} (h : vb ∈ planGetbulk mib r) : Planned mib r vb := by
  have hout : ∀ vb ∈ (bulkStart mib r).out, Planned mib r vb := by
    intro vb hvb
    obtain ⟨name, hname, rfl⟩ := List.mem_map.1 hvb
    exact planned_setVbNext (List.mem_of_mem_take (List.mem_of_mem_take hname))
  rw [planGetbulk] at h
  split at h
  · exact hout vb h
  · -- the loop's invariant: a cursor points into the table
    refine RoundRobin.Loop.forall_out_run
      (I := fun w : Walker ↦ w.name ∈ r.names ∧ ∀ c, w.cursor = some c → c < mib.length)
      (fun w vb w' hw hanswer ↦ ?_) r.maxRep (fun w hw ↦ ?_) hout vb h
    · rw [Walker.answer] at hanswer
      split at hanswer
      · exact absurd hanswer (by simp)
      · obtain ⟨rfl, rfl⟩ := Prod.mk.inj (Option.some.inj hanswer)
        have hplanned : Planned mib r (w.nextVb mib) := by
          rw [Walker.nextVb]
          split
          · exact planned_setVbNext hw.1
          · next c hc =>
            split
            · exact ⟨hw.1, fun i hi ↦ hw.2 i (hc.trans hi)⟩
            · next l hl =>
              refine ⟨hw.1, fun i hi ↦ ?_⟩
              obtain rfl := Option.some.inj hi
              exact (mibNextLeaf_eq_some hl).2
        refine ⟨hplanned, ?_⟩
        split
        · exact hw
        · exact ⟨hw.1, hplanned.2⟩
    · obtain ⟨name, hname, rfl⟩ := List.mem_map.1 hw
      exact ⟨List.mem_of_mem_drop hname, fun c hc ↦ absurd hc (by simp)⟩

theorem planned_of_planFor {vbs : List RespVb} (h : planFor mib r = some vbs) :
    ∀ vb ∈ vbs, Planned mib r vb := by
  intro vb hvb
  rw [planFor] at h
  split at h
  · obtain rfl := Option.some.inj h
    obtain ⟨name, hname, rfl⟩ := List.mem_map.1 hvb
    exact ⟨hname, fun i hi ↦ (mibGetExact_eq_some hi).1⟩
  · split at h
    · obtain rfl := Option.some.inj h
      obtain ⟨name, hname, rfl⟩ := List.mem_map.1 hvb
      exact planned_setVbNext hname
    · split at h
      · obtain rfl := Option.some.inj h
        exact planned_planGetbulk hvb
      · exact absurd h (by simp)

/-- GET answers every name under itself. -/
theorem oid_planGet (mib : Mib) (r : ParsedReq cfg) :
    (planGet mib r).map (RespVb.oid mib) = r.names.map (·.oid) := by
  rw [planGet, List.map_map]
  refine List.map_congr_left fun name _ ↦ ?_
  rw [Function.comp_apply, RespVb.oid]
  dsimp only
  rcases hget : mibGetExact mib name.oid with - | i
  · rfl
  · obtain ⟨hi, heq⟩ := mibGetExact_eq_some hget
    exact (leafOidAt_eq hi).trans heq

/-- GETNEXT answers every name under the next object's, or under itself at the end. -/
theorem oid_planGetnext (mib : Mib) (r : ParsedReq cfg) :
    (planGetnext mib r).map (RespVb.oid mib) = r.names.map fun name ↦ getnextName mib name.oid := by
  rw [planGetnext, List.map_map]
  refine List.map_congr_left fun name _ ↦ ?_
  show (setVbNext mib name).oid mib = getnextName mib name.oid
  rw [getnextName]
  rcases hnext : mibGetNext mib name.oid with - | i
  · rw [setVbNext_of_none hnext]
    rfl
  · rw [setVbNext_of_some hnext]
    rfl

/-! ### Every accepted request is answered -/

/-- The response planned for the request fits `tx_buf`. -/
def AnswerFits (mib : Mib) (vals : ℕ → MibValues) (r : ParsedReq cfg) (vbs : List RespVb) : Prop :=
  (responseTree r.requestId 0 0 r.community (namedValues mib vals 0 vbs)).enc.length ≤ snmpTxBuf

/-- The response answers the request: its own community and request-id, and either status 0 with all
that is planned, or an error with an empty list, which is tooBig for too many names and for an
answer that does not fit. For GET and GETNEXT, all that is planned is one varbind for each name in
the order of the request. -/
structure Response.Answers (resp : Response) (mib : Mib) (vals : ℕ → MibValues)
    (r : ParsedReq cfg) : Prop where
  version_eq : resp.version = snmpVersion2c
  community_eq : resp.community = r.community
  requestId_eq : resp.requestId = r.requestId
  list_eq_nil : resp.status ≠ 0 → resp.list = []
  tooMany : r.tooMany = true → resp.status = snmpErrTooBig
  unfit : r.tooMany = false → ∀ vbs, planFor mib r = some vbs → ¬ AnswerFits mib vals r vbs →
    resp.status = snmpErrTooBig
  refused : planFor mib r = none → resp.status ≠ 0
  complete : r.tooMany = false → ∀ vbs, planFor mib r = some vbs → AnswerFits mib vals r vbs →
    resp.status = 0 ∧
      resp.list = (namedValues mib vals 0 vbs).map fun x ↦ (x.1, x.2.element)
  get_names : resp.status = 0 → r.pduType = snmpPduGet →
    resp.list.map (·.1) = r.names.map (·.oid)
  getnext_names : resp.status = 0 → r.pduType = snmpPduGetnext →
    resp.list.map (·.1) = r.names.map fun name ↦ getnextName mib name.oid

/-- `handle_request` returns a length, and the bytes that the listener then sends are read, all of
them, as a response that answers the request. -/
def WellAnswered (cfg : SnmpConfig) (mib : Mib) (community : List UInt8) (vals : ℕ → MibValues)
    (tx : ℕ → UInt8) (buf : List UInt8) (r : ParsedReq cfg) : Prop :=
  ∃ outLen tx', handleRequest cfg mib community vals tx buf = .ok (outLen, tx') ∧
    1 ≤ outLen ∧ outLen ≤ snmpTxBuf ∧ ∃ resp d,
      readResponse (sentBytes tx' outLen) (berDecInit 0 outLen) = .ok (some resp, d) ∧
        resp.Answers mib vals r

/-- No name that the answer echoes begins with a byte from 0x80 on. -/
def EchoesInReach (mib : Mib) (vals : ℕ → MibValues) (r : ParsedReq cfg) : Prop :=
  r.tooMany = false → ∀ vbs, planFor mib r = some vbs → AnswerFits mib vals r vbs →
    ∀ vb ∈ vbs, vb.leaf = none → firstSubId vb.name.oid < 128

/-- What is encoded for a request: an error, or all that is planned. -/
def Outcome (mib : Mib) (vals : ℕ → MibValues) (r : ParsedReq cfg) (status index : Int32)
    (list : List (List ℕ × BerTree)) : Prop :=
  (list = [] ∧
    ((r.tooMany = true ∧ status = snmpErrTooBig ∧ index = 0) ∨
      (r.tooMany = false ∧ planFor mib r = none ∧
        (status = snmpErrNotWritable ∧ index = 1 ∨ status = snmpErrGenErr ∧ index = 0)) ∨
      r.tooMany = false ∧ status = snmpErrTooBig ∧ index = 0 ∧
        ∃ vbs, planFor mib r = some vbs ∧ ¬ AnswerFits mib vals r vbs)) ∨
    r.tooMany = false ∧ status = 0 ∧ index = 0 ∧ ∃ vbs, planFor mib r = some vbs ∧
      AnswerFits mib vals r vbs ∧ list = namedValues mib vals 0 vbs

/-- A tree that fits is what the listener sends. -/
theorem sentBytes_emit (t : BerTree) (tx : ℕ → UInt8) (h : t.enc.length ≤ snmpTxBuf) :
    berEncLength (t.emit (berEncInit tx 0 snmpTxBuf)) = t.enc.length ∧
      sentBytes (t.emit (berEncInit tx 0 snmpTxBuf)).mem t.enc.length = t.enc := by
  obtain ⟨hencLen, hdata⟩ := emit_of_fits t tx 0 h
  have hcap : (t.emit (berEncInit tx 0 snmpTxBuf)).cap = snmpTxBuf := by
    rw [emit_eq, Backward.Writer.cap_puts]
    rfl
  have hbase : (t.emit (berEncInit tx 0 snmpTxBuf)).base = 0 := by
    rw [emit_eq, Backward.Writer.base_puts]
    rfl
  have hpos : (t.emit (berEncInit tx 0 snmpTxBuf)).pos + t.enc.length = snmpTxBuf := by
    rw [emit_eq]
    exact (Backward.Writer.puts_of_fits rfl h).2
  refine ⟨hencLen, ?_⟩
  rw [sentBytes, ← hdata, berEncData, Backward.Writer.written, hcap, hbase]
  have hlen : (List.map (fun i ↦ (t.emit (berEncInit tx 0 snmpTxBuf)).mem
      (0 + ((t.emit (berEncInit tx 0 snmpTxBuf)).pos + i)))
      (List.range (snmpTxBuf - (t.emit (berEncInit tx 0 snmpTxBuf)).pos))).length =
      t.enc.length := by
    rw [List.length_map, List.length_range]
    omega
  rw [hlen, show snmpTxBuf - (t.emit (berEncInit tx 0 snmpTxBuf)).pos = t.enc.length by omega,
    show snmpTxBuf - t.enc.length = (t.emit (berEncInit tx 0 snmpTxBuf)).pos by omega]
  simp only [Nat.zero_add]

/-- An error response. -/
def errorTree (r : ParsedReq cfg) (status index : Int32) : BerTree :=
  responseTree r.requestId status index r.community []

/-- **An error response is no longer than its request**, so that it always fits. -/
theorem length_errorTree_le {community buf : List UInt8}
    (h : parseRequest cfg community buf = .ok (some r)) {status index : Int32}
    (hstatus : (twosBytes status.toInt).length = 1) (hindex : (twosBytes index.toInt).length = 1) :
    (errorTree r status index).enc.length ≤ buf.length := by
  obtain ⟨-, tag, top, pdu, htop, hmsg, hpdu⟩ := parseRequest_eq_some h
  have hstatusLen : (tlv berTagInteger (twosBytes status.toInt)).length = 3 := by
    rw [length_tlv, hstatus]
    rfl
  have hindexLen : (tlv berTagInteger (twosBytes index.toInt)).length = 3 := by
    rw [length_tlv, hindex]
    rfl
  have hfields : (BerTree.encAll (pduFields r.requestId status index [])).length ≤ pdu.length := by
    show (tlv berTagInteger (twosBytes r.requestId.toInt) ++
      (tlv berTagInteger (twosBytes status.toInt) ++ (tlv berTagInteger (twosBytes index.toInt) ++
        (tlv berTagSequence [] ++ [])))).length ≤ pdu.length
    rw [List.length_append, List.length_append, List.length_append, List.length_append,
      hstatusLen, hindexLen]
    show _ + (3 + (3 + (2 + 0))) ≤ _
    omega
  have hmessage : (BerTree.encAll (messageFields r.requestId status index r.community [])).length ≤
      top.length := by
    have hmono := @length_tlv_mono snmpPduResponse tag _ _ hfields
    show (tlv berTagInteger (twosBytes snmpVersion2c.toInt) ++ (tlv berTagOctetStr r.community ++
      (tlv snmpPduResponse (BerTree.encAll (pduFields r.requestId status index [])) ++
        []))).length ≤ top.length
    have hversion : (tlv berTagInteger (twosBytes snmpVersion2c.toInt)).length = 3 := by
      decide +kernel
    rw [List.length_append, List.length_append, List.length_append, hversion, List.length_nil]
    omega
  exact (@length_tlv_mono berTagSequence berTagSequence _ _ hmessage).trans htop

theorem encodeError_eq (mib : Mib) (vals : ℕ → MibValues) (e : BerEnc) (r : ParsedReq cfg)
    (status index : Int32) :
    encodeError mib vals e r.requestId status index r.community =
      (errorTree r status index).emit e :=
  encodeResponse_eq mib vals e r.requestId status index r.community []

/-- **What is encoded for an accepted request**: some tree is written into the fresh buffer, which
it fits. -/
theorem respond_outcome {community buf : List UInt8} (hbuf : buf.length ≤ snmpTxBuf)
    (h : parseRequest cfg community buf = .ok (some r)) (mib : Mib) (vals : ℕ → MibValues)
    (tx : ℕ → UInt8) :
    ∃ status index list tx₀,
      respond mib vals tx r = (responseTree r.requestId status index r.community list).emit
        (berEncInit tx₀ 0 snmpTxBuf) ∧
      (responseTree r.requestId status index r.community list).enc.length ≤ snmpTxBuf ∧
      Outcome mib vals r status index list := by
  -- an error response echoes no more than the request had, so it fits where the request did
  have herror : ∀ status index : Int32, (twosBytes status.toInt).length = 1 →
      (twosBytes index.toInt).length = 1 →
      (errorTree r status index).enc.length ≤ snmpTxBuf :=
    fun status index hs hi ↦ (length_errorTree_le h hs hi).trans hbuf
  rw [respond]
  by_cases hmany : r.tooMany = true
  · rw [if_pos hmany]
    exact ⟨snmpErrTooBig, 0, [], tx, encodeError_eq ..,
      herror _ _ (by decide +kernel) (by decide +kernel), Or.inl ⟨rfl, Or.inl ⟨hmany, rfl, rfl⟩⟩⟩
  · have hfew : r.tooMany = false := by simpa using hmany
    rw [if_neg hmany]
    by_cases hset : r.pduType = snmpPduSet
    · have hplan : planFor mib r = none := by
        rw [planFor, hset, if_neg (by decide), if_neg (by decide), if_neg (by decide)]
      rw [if_pos hset]
      exact ⟨snmpErrNotWritable, 1, [], tx, encodeError_eq ..,
        herror _ _ (by decide +kernel) (by decide +kernel),
        Or.inl ⟨rfl, Or.inr (Or.inl ⟨hfew, hplan, Or.inl ⟨rfl, rfl⟩⟩)⟩⟩
    · rw [if_neg hset]
      rcases hplan : planFor mib r with - | vbs
      · exact ⟨snmpErrGenErr, 0, [], tx, encodeError_eq ..,
          herror _ _ (by decide +kernel) (by decide +kernel),
          Or.inl ⟨rfl, Or.inr (Or.inl ⟨hfew, hplan, Or.inr ⟨rfl, rfl⟩⟩)⟩⟩
      · show ∃ status index list tx₀, (if berEncLength (encodeResponse mib vals
          (berEncInit tx 0 snmpTxBuf) r.requestId 0 0 r.community vbs) = 0 then _ else _) = _ ∧ _
        rw [encodeResponse_eq]
        -- length 0 is the encoder's overflow, for which `tooBig` is sent instead
        by_cases hfit : AnswerFits mib vals r vbs
        · have hlen := (sentBytes_emit _ tx hfit).1
          have hpos : (responseTree r.requestId 0 0 r.community
              (namedValues mib vals 0 vbs)).enc.length ≠ 0 := by
            have := two_le_length_tlv berTagSequence
              (BerTree.encAll (messageFields r.requestId 0 0 r.community
                (namedValues mib vals 0 vbs)))
            show (tlv _ _).length ≠ 0
            omega
          rw [if_neg (by rw [hlen]; exact hpos)]
          exact ⟨0, 0, _, tx, rfl, hfit, Or.inr ⟨hfew, rfl, rfl, vbs, hplan, hfit, rfl⟩⟩
        · have hov : ((responseTree r.requestId 0 0 r.community (namedValues mib vals 0 vbs)).emit
              (berEncInit tx 0 snmpTxBuf)).overflow = true := by
            rw [emit_eq, Backward.Writer.overflow_puts_iff]
            exact Or.inr (Nat.lt_of_not_le hfit)
          rw [if_pos (by rw [berEncLength, if_pos hov])]
          exact ⟨snmpErrTooBig, 0, [], _, encodeError_eq ..,
            herror _ _ (by decide +kernel) (by decide +kernel),
            Or.inl ⟨rfl, Or.inr (Or.inr ⟨hfew, rfl, rfl, vbs, hplan, hfit⟩)⟩⟩

/-- Reading the bytes of a response. -/
theorem readResponse_enc {requestId status index : Int32} {community : List UInt8}
    {list : List (List ℕ × BerTree)} {P : Response → Prop}
    (h : (responseTree requestId status index community list).enc.length ≤ snmpTxBuf) :
    (∃ resp d, readResponse (responseTree requestId status index community list).enc
        (berDecInit 0 (responseTree requestId status index community list).enc.length) =
          .ok (some resp, d) ∧ P resp) ↔
      ∃ l, decodedList list = some l ∧
        P ⟨snmpVersion2c, community, requestId, status, index, l⟩ := by
  have htake := takeResponse_enc requestId status index community list
    (h.trans_lt (show 1500 < 2 ^ 32 by decide))
  rw [berDecInit_whole rfl]
  obtain ⟨d, ⟨hread, hnone⟩ | ⟨resp, b, rest, hread, hsome, rfl, -⟩⟩ :=
    (@readResponse_implements (responseTree requestId status index community list).enc).whole
  · rw [htake] at hnone
    rw [hread]
    rcases hl : decodedList list with - | l
    · simp
    · simp [hl] at hnone
  · rw [htake] at hsome
    rw [hread]
    rcases hl : decodedList list with - | l
    · simp [hl] at hsome
    · simp only [hl, Option.some.injEq, Prod.mk.injEq] at hsome
      obtain ⟨rfl, -⟩ := hsome
      simp

/-- **An error is an answer**: its list is empty, and what makes it one is what the request asks. -/
theorem answers_of_error {status index : Int32}
    (h : (r.tooMany = true ∧ status = snmpErrTooBig ∧ index = 0) ∨
      (r.tooMany = false ∧ planFor mib r = none ∧
        (status = snmpErrNotWritable ∧ index = 1 ∨ status = snmpErrGenErr ∧ index = 0)) ∨
      r.tooMany = false ∧ status = snmpErrTooBig ∧ index = 0 ∧
        ∃ vbs, planFor mib r = some vbs ∧ ¬ AnswerFits mib vals r vbs) :
    (⟨snmpVersion2c, r.community, r.requestId, status, index, []⟩ : Response).Answers mib vals r ∧
      EchoesInReach mib vals r := by
  have hstatus : status ≠ 0 := by
    rcases h with ⟨-, rfl, -⟩ | ⟨-, -, ⟨rfl, -⟩ | ⟨rfl, -⟩⟩ | ⟨-, rfl, -, -⟩ <;> decide
  -- the four errors: too many varbinds, SET, an unknown PDU, and a plan that does not fit
  have hbig : r.tooMany = true → status = snmpErrTooBig := by
    intro hmany
    rcases h with ⟨-, hs, -⟩ | ⟨hfew, -⟩ | ⟨hfew, -⟩
    · exact hs
    · exact absurd (hmany.symm.trans hfew) (by decide)
    · exact absurd (hmany.symm.trans hfew) (by decide)
  have hplanned : r.tooMany = false → ∀ vbs, planFor mib r = some vbs →
      status = snmpErrTooBig ∧ ¬ AnswerFits mib vals r vbs := by
    intro hfew vbs hplan
    rcases h with ⟨hmany, -⟩ | ⟨-, hnone, -⟩ | ⟨-, hs, -, vbs', hplan', hunfit⟩
    · exact absurd (hmany.symm.trans hfew) (by decide)
    · rw [hplan] at hnone
      exact absurd hnone (by simp)
    · obtain rfl : vbs' = vbs := Option.some.inj (hplan'.symm.trans hplan)
      exact ⟨hs, hunfit⟩
  exact ⟨{
    version_eq := rfl
    community_eq := rfl
    requestId_eq := rfl
    list_eq_nil := fun _ ↦ rfl
    tooMany := hbig
    unfit := fun hfew vbs hplan _ ↦ (hplanned hfew vbs hplan).1
    refused := fun _ ↦ hstatus
    complete := fun hfew vbs hplan hfit ↦ absurd hfit (hplanned hfew vbs hplan).2
    get_names := fun hzero ↦ absurd hzero hstatus
    getnext_names := fun hzero ↦ absurd hzero hstatus },
    fun hfew vbs hplan hfit ↦ absurd hfit (hplanned hfew vbs hplan).2⟩

/-- **All that is planned is an answer**, when it is read as it was encoded. -/
theorem answers_of_planned {vbs : List RespVb} (hfew : r.tooMany = false)
    (hplan : planFor mib r = some vbs) (hfit : AnswerFits mib vals r vbs) :
    (⟨snmpVersion2c, r.community, r.requestId, 0, 0,
      (namedValues mib vals 0 vbs).map fun x ↦ (x.1, x.2.element)⟩ : Response).Answers
        mib vals r := by
  have hnames : ((namedValues mib vals 0 vbs).map fun x ↦ (x.1, x.2.element)).map (·.1) =
      vbs.map (RespVb.oid mib) := by
    rw [List.map_map, ← map_fst_namedValues mib vals 0 vbs]
    rfl
  have hsame : ∀ vbs', planFor mib r = some vbs' → vbs' = vbs :=
    fun vbs' h ↦ Option.some.inj (h.symm.trans hplan)
  exact {
    version_eq := rfl
    community_eq := rfl
    requestId_eq := rfl
    list_eq_nil := fun hzero ↦ absurd rfl hzero
    tooMany := fun hmany ↦ absurd (hmany.symm.trans hfew) (by decide)
    unfit := fun _ vbs' hplan' hunfit ↦ absurd (hsame vbs' hplan' ▸ hfit) hunfit
    refused := fun hnone ↦ absurd (hplan.symm.trans hnone) (by simp)
    complete := fun _ vbs' hplan' _ ↦ ⟨rfl, by rw [hsame vbs' hplan']⟩
    get_names := fun _ hget ↦ by
      have hvbs : planGet mib r = vbs :=
        hsame _ (by rw [planFor, if_pos hget])
      rw [hnames, ← hvbs, oid_planGet]
    getnext_names := fun _ hnext ↦ by
      have hvbs : planGetnext mib r = vbs :=
        hsame _ (by rw [planFor, if_neg (by rw [hnext]; decide), if_pos hnext])
      rw [hnames, ← hvbs, oid_planGetnext] }

/-- A name of the answer is read back as it is, unless it is an echo out of reach. -/
theorem readable_iff {sw : SwitchConfig} (hread : ∀ name ∈ r.names, ReadArcs name.oid)
    {vb : RespVb} (h : Planned sw.mibView r vb) :
    arcsOfContent berMaxOidLen (oidContent (vb.oid sw.mibView)) = some (vb.oid sw.mibView) ↔
      (vb.leaf = none → firstSubId vb.name.oid < 128) := by
  rw [RespVb.oid]
  rcases hleaf : vb.leaf with - | i
  · rw [arcsOfContent_oidContent_iff (hread _ h.1) vb.name.oid_length_le]
    simp
  · have hi := h.2 i hleaf
    dsimp only
    rw [leafOidAt_eq hi]
    exact iff_of_true (readable_leafOid (List.getElem_mem hi)) (by simp)

theorem mem_namedValues {x : List ℕ × BerTree} {i : ℕ} {vbs : List RespVb}
    (h : x ∈ namedValues mib vals i vbs) : ∃ vb ∈ vbs, x.1 = vb.oid mib := by
  have hmem := List.mem_map_of_mem (f := Prod.fst) h
  rw [map_fst_namedValues] at hmem
  obtain ⟨vb, hvb, heq⟩ := List.mem_map.1 hmem
  exact ⟨vb, hvb, heq.symm⟩

/-- **When every accepted request gets one complete, well-formed answer.** The request that it
answers is the one the datagram carries: its names are those of the datagram's varbinds, and
`tooMany` says that there are more than the table holds. -/
theorem handleRequest_wellAnswered_iff (sw : SwitchConfig) {community buf : List UInt8}
    (vals : ℕ → MibValues) (tx : ℕ → UInt8) (hbuf : buf.length ≤ 1500)
    (h : parseRequest cfg community buf = .ok (some r)) :
    r.CarriedBy community buf ∧
      (WellAnswered cfg sw.mibView community vals tx buf r ↔
        EchoesInReach sw.mibView vals r) := by
  refine ⟨carriedBy_of_parseRequest h, ?_⟩
  obtain ⟨status, index, list, tx₀, hrespond, hlen, houtcome⟩ :=
    respond_outcome hbuf h sw.mibView vals tx
  obtain ⟨hencLen, hsent⟩ := sentBytes_emit _ tx₀ hlen
  have hpos : 1 ≤ (responseTree r.requestId status index r.community list).enc.length :=
    Nat.le_of_lt (le_of_add_le_right (two_le_length_tlv berTagSequence (BerTree.encAll
      (messageFields r.requestId status index r.community list))))
  have hhandle : handleRequest cfg sw.mibView community vals tx buf =
      .ok ((responseTree r.requestId status index r.community list).enc.length,
        ((responseTree r.requestId status index r.community list).emit
          (berEncInit tx₀ 0 snmpTxBuf)).mem) := by
    rw [handleRequest, h]
    dsimp only
    rw [hrespond, hencLen]
  -- what is sent, and so what is read, is determined
  have hread : WellAnswered cfg sw.mibView community vals tx buf r ↔
      ∃ l, decodedList list = some l ∧
        (⟨snmpVersion2c, r.community, r.requestId, status, index, l⟩ : Response).Answers
          sw.mibView vals r := by
    refine Iff.trans ?_ (readResponse_enc (P := fun resp ↦ resp.Answers sw.mibView vals r) hlen)
    rw [WellAnswered, hhandle]
    constructor
    · rintro ⟨outLen, tx', heq, -, -, hresp⟩
      obtain ⟨rfl, rfl⟩ := Prod.mk.inj (Except.ok.inj heq)
      rwa [hsent] at hresp
    · intro hresp
      exact ⟨_, _, rfl, hpos, hlen, by rwa [hsent]⟩
  rw [hread]
  rcases houtcome with ⟨rfl, herror⟩ | ⟨hfew, rfl, rfl, vbs, hplan, hfit, rfl⟩
  · -- an error response has no names to read
    obtain ⟨hanswers, hechoes⟩ := answers_of_error herror
    exact iff_of_true ⟨[], rfl, hanswers⟩ hechoes
  · have hnames := (parseRequest_eq_some h).1
    have hplanned := planned_of_planFor hplan
    -- the list is read back exactly when each of its names is
    constructor
    · rintro ⟨l, hl, hanswers⟩ - vbs' hplan' - vb hvb
      obtain rfl : vbs = vbs' := Option.some.inj (hplan.symm.trans hplan')
      have hlist := (hanswers.complete hfew vbs hplan hfit).2
      have hfst : l.map (·.1) = (namedValues sw.mibView vals 0 vbs).map (·.1) := by
        rw [show l = _ from hlist, List.map_map]
        rfl
      rw [← readable_iff hnames (hplanned vb hvb)]
      have hmem : vb.oid sw.mibView ∈ (namedValues sw.mibView vals 0 vbs).map (·.1) := by
        rw [map_fst_namedValues]
        exact List.mem_map_of_mem hvb
      obtain ⟨x, hx, heq⟩ := List.mem_map.1 hmem
      rw [← heq]
      exact readable_of_decodedList hl hfst x hx
    · intro hechoes
      refine ⟨_, decodedList_of_readable fun x hx ↦ ?_, answers_of_planned hfew hplan hfit⟩
      obtain ⟨vb, hvb, heq⟩ := mem_namedValues hx
      rw [heq, readable_iff hnames (hplanned vb hvb)]
      exact hechoes hfew vbs hplan hfit vb hvb

/-! ### Two requests -/

/-- A read community. -/
def sampleCommunity : List UInt8 := "public".toUTF8.toList

/-- A GET for the one name with this content. -/
def getDatagram (content : List UInt8) : List UInt8 :=
  tlv berTagSequence (tlv berTagInteger [1] ++ tlv berTagOctetStr sampleCommunity ++
    tlv snmpPduGet (tlv berTagInteger [7] ++ tlv berTagInteger [0] ++ tlv berTagInteger [0] ++
      tlv berTagSequence (tlv berTagSequence (tlv berTagOid content ++ tlv berTagNull []))))

/-- What the objects of a switch at rest read. -/
def restingValues : MibValues where
  firmwareName := "app".toUTF8.toList
  firmwareVersion := "1.0".toUTF8.toList
  buildTimestamp := "today".toUTF8.toList
  sysContact := []
  hostname := "switch".toUTF8.toList
  sysLocation := []
  sysUptime := 0
  ifCount := 5
  simSwitchIf := fun _ ↦ ⟨"port".toUTF8.toList, 6, 1500, 1000000000, 1, 1, 0, 0, 0, 0⟩

/-- A GET for sysServices.0. -/
def servicesGet : List UInt8 := getDatagram [0x2B, 6, 1, 2, 1, 1, 7, 0]

/-- A GET for a name of 32 arcs, of which the first byte has the continuation bit. -/
def longNameGet : List UInt8 := getDatagram (0x81 :: List.replicate 30 1)

/-- The agent parses the message. -/
def parses (buf : List UInt8) : Bool :=
  match parseRequest defaultConfig sampleCommunity buf with
  | .ok (some _) => true
  | _ => false

theorem exists_of_parses {buf : List UInt8} (h : parses buf = true) :
    ∃ r, parseRequest defaultConfig sampleCommunity buf = .ok (some r) := by
  rw [parses] at h
  split at h
  · next r hr => exact ⟨r, hr⟩
  · exact absurd h Bool.false_ne_true

/-- The agent's response to the message is not read as one. -/
def responseUnread (buf : List UInt8) : Bool :=
  match handleRequest defaultConfig defaultSwitch.mibView sampleCommunity (fun _ ↦ restingValues)
    (fun _ ↦ 0) buf with
  | .error _ => false
  | .ok (n, tx) =>
    match readResponse (sentBytes tx n) (berDecInit 0 n) with
    | .ok (some _, _) => false
    | _ => true

theorem not_wellAnswered_of_responseUnread {buf : List UInt8} {r : ParsedReq defaultConfig}
    (h : responseUnread buf = true) :
    ¬ WellAnswered defaultConfig defaultSwitch.mibView sampleCommunity (fun _ ↦ restingValues)
      (fun _ ↦ 0) buf r := by
  rintro ⟨outLen, tx, hhandle, -, -, resp, d, hresp, -⟩
  rw [responseUnread, hhandle] at h
  dsimp only at h
  rw [hresp] at h
  exact Bool.false_ne_true h

theorem handleRequest_wellAnswered_servicesGet :
    ∃ r, parseRequest defaultConfig sampleCommunity servicesGet = .ok (some r) ∧
      servicesGet.length ≤ 1500 ∧ r.CarriedBy sampleCommunity servicesGet ∧
      (WellAnswered defaultConfig defaultSwitch.mibView sampleCommunity (fun _ ↦ restingValues)
        (fun _ ↦ 0) servicesGet r ↔
          EchoesInReach defaultSwitch.mibView (fun _ ↦ restingValues) r) := by
  have hlen : servicesGet.length ≤ 1500 := by decide +kernel
  have hparses : parses servicesGet = true := by decide +kernel
  obtain ⟨r, hr⟩ := exists_of_parses hparses
  exact ⟨r, hr, hlen, handleRequest_wellAnswered_iff defaultSwitch _ _ hlen hr⟩

/-- The name of 32 arcs is echoed with 33 sub-identifiers, and the decoder takes no more than 32:
the response is not read as anything. -/
theorem not_wellAnswered_longNameGet :
    (∃ r, parseRequest defaultConfig sampleCommunity longNameGet = .ok (some r)) ∧
      ∀ r, ¬ WellAnswered defaultConfig defaultSwitch.mibView sampleCommunity
        (fun _ ↦ restingValues) (fun _ ↦ 0) longNameGet r := by
  have hparses : parses longNameGet = true := by decide +kernel
  have hunread : responseUnread longNameGet = true := by decide +kernel
  exact ⟨exists_of_parses hparses, fun r ↦ not_wellAnswered_of_responseUnread hunread⟩

end ThinEdge.Snmp
