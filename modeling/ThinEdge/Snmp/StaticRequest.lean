import Mathlib.Logic.Function.Basic
import ThinEdge.Lib.Storage
import ThinEdge.Snmp.Request

/-!
# The SNMP agent: parsing into static storage

`handle_request` parses every datagram into the same static `struct parsed_req`. `parse_request`
writes it field by field and stops where the datagram is malformed, so that what is dropped leaves
the request half new and half old, and a short request leaves the names of a longer one behind its
own.

`parseRequestInto` is `parse_request` as it writes that storage. `parseRequestInto_eq` says that
from any contents at all it accepts what `parseRequest` accepts, and that then everything the
request is read from afterwards was written for it (`Stored`).
-/

namespace ThinEdge.Snmp

open Ber
open Cursor (Checked Op Table Fill Fills)

/-! ### The storage -/

/-- `struct vbname`: an array of sub-identifiers, of which `len` are in use. -/
structure VbNameStatic where
  oid : ℕ → ℕ
  len : ℕ

/-- The sub-identifiers in use. -/
def VbNameStatic.arcs (s : VbNameStatic) : List ℕ := (List.range s.len).map s.oid

/-- `struct parsed_req`. The community is a pointer into the datagram. -/
structure ParsedReqStatic where
  pduType : UInt8
  requestId : Int32
  field2 : Int32
  field3 : Int32
  names : ℕ → VbNameStatic
  nvb : ℕ
  tooMany : Bool
  community : ℕ
  commLen : ℕ

/-- Write to the array of a name. -/
def ParsedReqStatic.setArc (m : ParsedReqStatic) (k i v : ℕ) : ParsedReqStatic :=
  let name := { m.names k with oid := Function.update (m.names k).oid i v }
  { m with names := Function.update m.names k name }

/-- Write the length of a name. -/
def ParsedReqStatic.setLen (m : ParsedReqStatic) (k len : ℕ) : ParsedReqStatic :=
  { m with names := Function.update m.names k { m.names k with len } }

/-! ### Parsing -/

variable {cfg : SnmpConfig}

/-- The loop of `ber_get_oid` over the sub-identifiers after the first byte, with `cnt` of them
written. -/
def arcLoopInto (buf : List UInt8) (max k cnt : ℕ) : Fill ParsedReqStatic (Bool × ℕ) := do
  let v ← Fill.read (subId buf)
  if max ≤ cnt then Fill.fail
  else
    Fill.write (ParsedReqStatic.setArc · k cnt v)
    pure (true, cnt + 1)

/-- The content of an OID. -/
def oidArcsInto (buf : List UInt8) (max k : ℕ) : Fill ParsedReqStatic ℕ := do
  let first ← Fill.read (Op.next buf)
  if max < 2 then Fill.fail
  else
    Fill.write (ParsedReqStatic.setArc · k 0 (first.toNat / 40))
    Fill.write (ParsedReqStatic.setArc · k 1 (first.toNat % 40))
    Fill.untilDone 1 (arcLoopInto buf max k) 2

/-- `ber_get_oid` into the array of name `k`, which returns the length. -/
def berGetOidInto (buf : List UInt8) (max k : ℕ) : Fill ParsedReqStatic ℕ := do
  let t ← Fill.read (berGetTlv buf)
  if t.tag ≠ berTagOid ∨ t.clen = 0 then Fill.fail
  else Fill.within t.inner (oidArcsInto buf max k)

/-- The body of the loop over the varbinds. -/
def parseVarbindInto (cfg : SnmpConfig) (buf : List UInt8) (_ : Unit) :
    Fill ParsedReqStatic (Bool × Unit) := do
  let vb ← Fill.read (berEnter buf berTagSequence)
  let m ← Fill.get
  if cfg.maxReqVb ≤ m.nvb then
    Fill.write fun m ↦ { m with tooMany := true }
    pure (false, ())
  else
    let len ← Fill.within vb (berGetOidInto buf berMaxOidLen m.nvb)
    Fill.write (ParsedReqStatic.setLen · m.nvb len)
    Fill.write fun m ↦ { m with nvb := m.nvb + 1 }
    pure (true, ())

/-- The header of the request. `ber_get_octet` sets the slice before it looks at the tag. -/
def parseCommunityInto (community : List UInt8) (buf : List UInt8) :
    Fill ParsedReqStatic Unit := do
  let version ← Fill.read (berGetInt buf)
  if version ≠ snmpVersion2c then Fill.fail
  else
    let t ← Fill.read (berGetTlv buf)
    Fill.write fun m ↦ { m with community := t.content, commLen := t.clen }
    if t.tag ≠ berTagOctetStr then Fill.fail
    else
      let m ← Fill.get
      if m.commLen ≠ community.length then Fill.fail
      else
        let bs ← Fill.read (Op.lift (bytesAt buf m.community community.length))
        if bs ≠ community then Fill.fail else pure ()

/-- The PDU: its three integers and its names. -/
def parsePduInto (cfg : SnmpConfig) (buf : List UInt8) : Fill ParsedReqStatic Unit := do
  let requestId ← Fill.read (berGetInt buf)
  Fill.write fun m ↦ { m with requestId }
  let field2 ← Fill.read (berGetInt buf)
  Fill.write fun m ↦ { m with field2 }
  let field3 ← Fill.read (berGetInt buf)
  Fill.write fun m ↦ { m with field3 }
  let vbl ← Fill.read (berEnter buf berTagSequence)
  Fill.write fun m ↦ { m with nvb := 0 }
  Fill.write fun m ↦ { m with tooMany := false }
  Fill.within vbl (Fill.untilDone 2 (parseVarbindInto cfg buf) ())
  let m ← Fill.get
  if m.nvb = 0 then Fill.fail else pure ()

/-- What `parse_request` does inside the message. -/
def parseMessageInto (cfg : SnmpConfig) (community : List UInt8) (buf : List UInt8) :
    Fill ParsedReqStatic Unit := do
  parseCommunityInto community buf
  let t ← Fill.read (berGetTlv buf)
  Fill.write fun m ↦ { m with pduType := t.tag }
  Fill.within t.inner (parsePduInto cfg buf)

/-- The request of a datagram. -/
def parseDatagramInto (cfg : SnmpConfig) (community : List UInt8) (buf : List UInt8) :
    Fill ParsedReqStatic Unit := do
  let top ← Fill.read (berEnter buf berTagSequence)
  Fill.within top (parseMessageInto cfg community buf)

/-- `parse_request`: whether the request was parsed, and what is in the storage then. -/
def parseRequestInto (cfg : SnmpConfig) (community : List UInt8) (m : ParsedReqStatic)
    (buf : List UInt8) : Checked (Bool × ParsedReqStatic) :=
  match parseDatagramInto cfg community buf (berDecInit 0 buf.length) m with
  | .error f => .error f
  | .ok (r, _, m') => .ok (r.isSome, m')

/-! ### What is parsed into the storage -/

variable {buf community : List UInt8} {m m₀ : ParsedReqStatic}

/-- The array of name `k` starts with `arcs`, and nothing else has changed since `m₀`. -/
def ArcsRead (m₀ : ParsedReqStatic) (k cnt : ℕ) (arcs : List ℕ) (m : ParsedReqStatic) : Prop :=
  cnt = arcs.length ∧ ∃ oid : ℕ → ℕ, (List.range cnt).map oid = arcs ∧
    m = { m₀ with names := Function.update m₀.names k { m₀.names k with oid } }

theorem arcsRead_nil (m₀ : ParsedReqStatic) (k : ℕ) : ArcsRead m₀ k 0 [] m₀ :=
  ⟨rfl, (m₀.names k).oid, rfl, by rw [Function.update_eq_self]⟩

theorem ArcsRead.setArc {k cnt : ℕ} {arcs : List ℕ} (h : ArcsRead m₀ k cnt arcs m) (v : ℕ) :
    ArcsRead m₀ k (cnt + 1) (arcs ++ [v]) (m.setArc k cnt v) := by
  obtain ⟨rfl, oid, harcs, rfl⟩ := h
  refine ⟨by rw [List.length_append, List.length_singleton], Function.update oid arcs.length v,
    ?_, ?_⟩
  · have hsame : (List.range arcs.length).map (Function.update oid arcs.length v) = arcs := by
      conv_rhs => rw [← harcs]
      refine List.map_congr_left fun i hi ↦ ?_
      rw [Function.update_of_ne (Nat.ne_of_lt (List.mem_range.1 hi))]
    rw [List.range_succ, List.map_append, hsame, List.map_singleton, Function.update_self]
  · rw [ParsedReqStatic.setArc]
    simp only [Function.update_self, Function.update_idem]

theorem arcLoopInto_fills {max k cnt : ℕ} {out : Table ℕ max} :
    Fills (ArcsRead m₀ k cnt out.toList)
      (fun a b m ↦ a.1 = b.1 ∧ ArcsRead m₀ k a.2 b.2.toList m)
      (arcLoopInto buf max k cnt) (arcLoop buf out) := by
  refine Cursor.Fills.read fun v ↦ ?_
  rcases Nat.lt_or_ge out.toList.length max with hroom | hfull
  · obtain ⟨out', hpush, hout'⟩ := Table.push_of_lt hroom v
    rw [if_neg (Nat.not_le.2 hroom), hpush]
    intro d m hm
    rw [if_neg (by rw [hm.1]; exact Nat.not_le.2 hroom)]
    refine ⟨(true, cnt + 1), m.setArc k cnt v, rfl, rfl, ?_⟩
    show ArcsRead m₀ k (cnt + 1) out'.toList _
    rw [hout']
    exact hm.setArc v
  · rw [if_pos hfull]
    intro d m hm
    rw [if_pos (by rw [hm.1]; exact hfull)]
    exact ⟨m, rfl⟩

theorem oidArcsInto_fills (max k : ℕ) :
    Fills (· = m₀) (fun cnt out m ↦ ArcsRead m₀ k cnt out.toList m) (oidArcsInto buf max k)
      (oidArcs buf max) := by
  refine Cursor.Fills.read fun first ↦ ?_
  refine Cursor.fills_ite Iff.rfl (fun _ ↦ Cursor.fills_fail) fun hmax ↦ ?_
  have hzero : (Table.empty ℕ max).toList.length < max := Nat.lt_of_lt_of_le Nat.two_pos
    (Nat.not_lt.1 hmax)
  obtain ⟨out₁, hpush₁, hout₁⟩ := Table.push_of_lt hzero (first.toNat / 40)
  have hone : out₁.toList = [first.toNat / 40] := hout₁
  obtain ⟨out₂, hpush₂, hout₂⟩ := Table.push_of_lt
    (show out₁.toList.length < max by rw [hone]; exact Nat.not_lt.1 hmax) (first.toNat % 40)
  rw [hpush₁]
  show Fills _ _ _ (Op.lift (out₁.push (first.toNat % 40)) >>= _)
  rw [hpush₂]
  show Fills _ _ _ (Op.untilDone 1 (arcLoop buf) out₂)
  refine Cursor.Fills.write (R := ArcsRead m₀ k 1 [first.toNat / 40])
    (Cursor.Fills.write (R := ArcsRead m₀ k 2 out₂.toList) ?_ fun m hm ↦ ?_) fun m hm ↦ ?_
  · exact Cursor.Fills.untilDone (I := fun cnt out ↦ ArcsRead m₀ k cnt out.toList)
      (fun cnt out ↦ arcLoopInto_fills) 2 out₂
  · rw [hout₂, hone]
    exact hm.setArc _
  · obtain rfl := hm
    exact (arcsRead_nil m k).setArc _

theorem berGetOidInto_fills (max k : ℕ) :
    Fills (· = m₀) (fun cnt out m ↦ ArcsRead m₀ k cnt out.toList m) (berGetOidInto buf max k)
      (berGetOid buf max) := by
  refine Cursor.Fills.read fun t ↦ ?_
  refine Cursor.fills_ite Iff.rfl (fun _ ↦ Cursor.fills_fail) fun _ ↦ ?_
  exact (oidArcsInto_fills max k).within t.inner

/-- What the loop over the varbinds leaves alone. -/
def ParsedReqStatic.header (m : ParsedReqStatic) : UInt8 × Int32 × Int32 × Int32 × ℕ × ℕ :=
  (m.pduType, m.requestId, m.field2, m.field3, m.community, m.commLen)

/-- The names that were read, behind the header. -/
structure NamesStored (h : UInt8 × Int32 × Int32 × Int32 × ℕ × ℕ) (r : NamesRead cfg)
    (m : ParsedReqStatic) : Prop where
  header_eq : m.header = h
  nvb_eq : m.nvb = r.names.toList.length
  arcs_eq : ∀ i (hi : i < r.names.toList.length), (m.names i).arcs = r.names.toList[i].oid
  tooMany_eq : m.tooMany = r.tooMany

/-- A name that was read completely. -/
theorem NamesStored.push {h : UInt8 × Int32 × Int32 × Int32 × ℕ × ℕ} {r r' : NamesRead cfg}
    {name : VbName} {len : ℕ} (hm₀ : NamesStored h r m₀) (hm : ArcsRead m₀ m₀.nvb len name.oid m)
    (hnames : r'.names.toList = r.names.toList ++ [name]) (hmany : r'.tooMany = r.tooMany) :
    NamesStored h r' { m.setLen m₀.nvb len with nvb := (m.setLen m₀.nvb len).nvb + 1 } := by
  obtain ⟨hlen, oid, harcs, rfl⟩ := hm
  refine ⟨hm₀.header_eq, ?_, fun i hi ↦ ?_, hm₀.tooMany_eq.trans hmany.symm⟩
  · show m₀.nvb + 1 = _
    rw [hnames, List.length_append, hm₀.nvb_eq]
    rfl
  · simp only [ParsedReqStatic.setLen, Function.update_self, Function.update_idem]
    simp only [hnames] at hi ⊢
    rw [List.length_append, List.length_singleton] at hi
    rcases Nat.lt_or_ge i r.names.toList.length with hold | hnew
    · rw [List.getElem_append_left hold, Function.update_of_ne (by rw [hm₀.nvb_eq]; omega)]
      exact hm₀.arcs_eq i hold
    · obtain rfl : i = r.names.toList.length := by omega
      rw [List.getElem_append_right (Nat.le_refl _), hm₀.nvb_eq, Function.update_self]
      simp only [Nat.sub_self, List.getElem_cons_zero]
      exact harcs

theorem parseVarbindInto_fills {h : UInt8 × Int32 × Int32 × Int32 × ℕ × ℕ} {r : NamesRead cfg}
    (u : Unit) :
    Fills (NamesStored h r) (fun a b m ↦ a.1 = b.1 ∧ NamesStored h b.2 m)
      (parseVarbindInto cfg buf u) (parseVarbind cfg buf r) := by
  refine Cursor.Fills.read fun vb ↦ Cursor.Fills.get fun m₀ hm₀ ↦ ?_
  rcases Nat.lt_or_ge r.names.toList.length cfg.maxReqVb with hroom | hfull
  · rw [if_neg (Nat.not_le.2 hroom), if_neg (by rw [hm₀.nvb_eq]; exact Nat.not_le.2 hroom)]
    refine ((berGetOidInto_fills berMaxOidLen m₀.nvb).within vb).bind fun len oid ↦ ?_
    obtain ⟨names', hpush, hnames'⟩ :=
      Table.push_of_lt hroom (⟨oid.toList, oid.length_le⟩ : VbName)
    rw [hpush]
    intro d m hm
    exact ⟨(true, ()), _, rfl, rfl, hm₀.push hm hnames' rfl⟩
  · rw [if_pos hfull, if_pos (by rw [hm₀.nvb_eq]; exact hfull)]
    intro d m hm
    obtain rfl := hm
    exact ⟨(false, ()), { m with tooMany := true }, rfl, rfl,
      ⟨hm₀.header_eq, hm₀.nvb_eq, hm₀.arcs_eq, rfl⟩⟩

/-- **What is in the storage for a request that was parsed.** The community is read through its
pointer. -/
structure Stored (buf : List UInt8) (r : ParsedReq cfg) (m : ParsedReqStatic) : Prop where
  pduType_eq : m.pduType = r.pduType
  requestId_eq : m.requestId = r.requestId
  field2_eq : m.field2 = r.field2
  field3_eq : m.field3 = r.field3
  nvb_eq : m.nvb = r.names.length
  arcs_eq : ∀ i (hi : i < r.names.length), (m.names i).arcs = r.names[i].oid
  tooMany_eq : m.tooMany = r.tooMany
  community_eq : bytesAt buf m.community m.commLen = .ok r.community

theorem parsePduInto_fills {tag : UInt8} {comm len : ℕ} :
    Fills (fun m ↦ m.pduType = tag ∧ m.community = comm ∧ m.commLen = len)
      (fun _ x m ↦ NamesStored (tag, x.1, x.2.1, x.2.2.1, comm, len) x.2.2.2 m)
      (parsePduInto cfg buf) (parsePdu cfg buf) := by
  refine Cursor.Fills.read fun requestId ↦ Cursor.Fills.write
    (R := fun m ↦ m.pduType = tag ∧ m.community = comm ∧ m.commLen = len ∧
      m.requestId = requestId) ?_ fun m hm ↦ ⟨hm.1, hm.2.1, hm.2.2, rfl⟩
  refine Cursor.Fills.read fun field2 ↦ Cursor.Fills.write
    (R := fun m ↦ m.pduType = tag ∧ m.community = comm ∧ m.commLen = len ∧
      m.requestId = requestId ∧ m.field2 = field2) ?_
    fun m hm ↦ ⟨hm.1, hm.2.1, hm.2.2.1, hm.2.2.2, rfl⟩
  refine Cursor.Fills.read fun field3 ↦ Cursor.Fills.write
    (R := fun m ↦ m.header = (tag, requestId, field2, field3, comm, len)) ?_ fun m hm ↦ ?_
  · refine Cursor.Fills.read fun vbl ↦ Cursor.Fills.write
      (R := fun m ↦ m.header = (tag, requestId, field2, field3, comm, len) ∧ m.nvb = 0)
      (Cursor.Fills.write (R := NamesStored (tag, requestId, field2, field3, comm, len)
        ⟨Table.empty VbName cfg.maxReqVb, false⟩) ?_ fun m hm ↦ ?_) fun m hm ↦ ⟨hm, rfl⟩
    · have hloop : Fills _ _ (Fill.untilDone 2 (parseVarbindInto cfg buf) ())
          (Op.untilDone 2 (parseVarbind cfg buf) ⟨Table.empty VbName cfg.maxReqVb, false⟩) :=
        Cursor.Fills.untilDone
          (I := fun _ r ↦ NamesStored (tag, requestId, field2, field3, comm, len) r)
          (fun u _ ↦ parseVarbindInto_fills u) () _
      refine (hloop.within vbl).bind fun u r ↦ Cursor.Fills.get fun m hm ↦ ?_
      refine Cursor.fills_ite ?_ (fun _ ↦ Cursor.fills_fail) fun _ ↦ ?_
      · rw [hm.nvb_eq, List.length_eq_zero_iff]
      · exact Cursor.fills_pure fun m' hm' ↦ hm' ▸ hm
    · exact ⟨hm.1, hm.2, fun i hi ↦ absurd hi (Nat.not_lt_zero i), rfl⟩
  · obtain ⟨rfl, rfl, rfl, rfl, rfl⟩ := hm
    rfl

/-- The community that was found, and the slice that points to it. -/
theorem parseCommunityInto_fills :
    Fills (fun _ ↦ True) (fun _ comm m ↦ bytesAt buf m.community m.commLen = .ok comm)
      (parseCommunityInto community buf) (parseCommunity community buf) := by
  refine Cursor.Fills.read fun version ↦ ?_
  refine Cursor.fills_ite Iff.rfl (fun _ ↦ Cursor.fills_fail) fun _ ↦ ?_
  rw [berGetOctet, Cursor.Op.bind_assoc]
  refine Cursor.Fills.read fun t ↦ Cursor.Fills.write
    (R := fun m ↦ m.community = t.content ∧ m.commLen = t.clen) ?_ fun m _ ↦ ⟨rfl, rfl⟩
  rcases Decidable.em (t.tag ≠ berTagOctetStr) with htag | htag
  · rw [if_pos htag, if_pos htag]
    exact Cursor.fills_fail
  · rw [if_neg htag, if_neg htag]
    show Fills _ _ _ (if t.clen ≠ community.length then Op.fail else _)
    refine Cursor.Fills.get fun m hm ↦ ?_
    refine Cursor.fills_ite (by rw [hm.2]) (fun _ ↦ Cursor.fills_fail) fun hlen ↦ ?_
    have hcontent : m.community = t.content := hm.1
    rw [hcontent]
    show Fills _ _ _ (Op.lift (bytesAt buf t.content community.length) >>= _)
    rcases hbytes : bytesAt buf t.content community.length with f | bs
    · exact fun d m' _ ↦ rfl
    · show Fills _ _ (if bs ≠ community then Fill.fail else pure ())
        (if bs ≠ community then Op.fail else pure bs)
      refine Cursor.fills_ite Iff.rfl (fun _ ↦ Cursor.fills_fail) fun _ ↦ ?_
      refine Cursor.fills_pure fun m' hm' ↦ ?_
      rw [hm', hcontent, not_not.1 hlen]
      exact hbytes

theorem parseDatagramInto_fills :
    Fills (fun _ ↦ True) (fun _ r m ↦ Stored buf r m) (parseDatagramInto cfg community buf)
      (parseDatagram cfg community buf) := by
  refine Cursor.Fills.read fun top ↦ Cursor.Fills.within ?_ top
  refine parseCommunityInto_fills.bind fun _ comm ↦ Cursor.Fills.read fun t ↦ Cursor.Fills.write
    (R := fun m ↦ m.pduType = t.tag ∧ bytesAt buf m.community m.commLen = .ok comm) ?_
    fun m hm ↦ ⟨rfl, hm⟩
  intro d m hm
  -- the slice stays where it is while the PDU is parsed
  have hpdu : Fills (· = m)
      (fun _ x m' ↦ NamesStored (t.tag, x.1, x.2.1, x.2.2.1, m.community, m.commLen) x.2.2.2 m')
      (parsePduInto cfg buf) (parsePdu cfg buf) :=
    parsePduInto_fills.mono (fun m' hm' ↦ by rw [hm']; exact ⟨hm.1, rfl, rfl⟩) fun _ _ _ h ↦ h
  refine (hpdu.within t.inner).map (fun _ x m' hx ↦ ?_) d m rfl
  obtain ⟨hheader, hnvb, harcs, hmany⟩ := hx
  simp only [ParsedReqStatic.header, Prod.mk.injEq] at hheader
  obtain ⟨h₁, h₂, h₃, h₄, h₅, h₆⟩ := hheader
  exact ⟨h₁, h₂, h₃, h₄, hnvb, harcs, hmany, by rw [h₅, h₆]; exact hm.2⟩

/-- **`parse_request` into the storage**, whatever is in it. -/
theorem parseRequestInto_eq (cfg : SnmpConfig) (community buf : List UInt8)
    (m : ParsedReqStatic) :
    (parseRequest cfg community buf = .ok none ∧
        ∃ m', parseRequestInto cfg community m buf = .ok (false, m')) ∨
      ∃ r, parseRequest cfg community buf = .ok (some r) ∧
        ∃ m', parseRequestInto cfg community m buf = .ok (true, m') ∧ Stored buf r m' := by
  have hfills := @parseDatagramInto_fills cfg buf community (berDecInit 0 buf.length) m trivial
  obtain ⟨r, hr⟩ := (parseRequest_safe cfg community buf).1
  rw [parseRequest] at hr ⊢
  rw [parseRequestInto]
  rcases hop : parseDatagram cfg community buf (berDecInit 0 buf.length) with f | ⟨- | r, d'⟩
  · rw [hop] at hr
    cases hr
  · simp only [hop] at hfills
    obtain ⟨m', heq⟩ := hfills
    rw [heq]
    exact Or.inl ⟨rfl, m', rfl⟩
  · simp only [hop] at hfills
    obtain ⟨u, m', heq, hstored⟩ := hfills
    rw [heq]
    exact Or.inr ⟨r, rfl, m', rfl, hstored⟩

end ThinEdge.Snmp
