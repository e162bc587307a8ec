import ThinEdge.Snmp.BerDecoder
import ThinEdge.Snmp.Agent

/-!
# The BER round trip

What the two halves of `lib/snmp/snmp_ber.c` say to each other. A message is a tree of the values
the encoder can write (`BerTree`). `emit` writes it the way the agent does, children before the
header that wraps them and the last child first, and `readTree` reads a tree of a given shape with
the `ber_get_*` functions, front to back.

`berTree_roundTrip` is the agreement: for a buffer of any capacity, either the encoder reports the
overflow, or the decoder reads the same tree back from its bytes and the bytes are minimal. Nothing
outside the buffer is written in either case.
-/

namespace ThinEdge.Snmp

open Ber
open Cursor (Checked Op Parser Implements)

/-- A tree of values, as the encoder writes them. -/
inductive BerTree
  | int (v : Int32)
  | uint (tag : UInt8) (v : UInt32)
  | octets (s : List UInt8)
  | null
  | exception (tag : UInt8)
  | oid (arcs : List ℕ)
  | node (tag : UInt8) (children : List BerTree)

/-- The kinds and tags of a tree, without its values. -/
inductive BerShape
  | int
  | uint (tag : UInt8)
  | octets
  | null
  | exception (tag : UInt8)
  | oid
  | node (tag : UInt8) (children : List BerShape)

/-! ### Writing a tree -/

mutual

/-- Write a tree: a constructed element is its children, wrapped from the mark before them. -/
def BerTree.emit : BerTree → BerEnc → BerEnc
  | .int v, e => berPutInt e v
  | .uint tag v, e => berPutUintTagged e v tag
  | .octets s, e => berPutOctetStr e s
  | .null, e => berPutNull e
  | .exception tag, e => berPutException e tag
  | .oid arcs, e => berPutOid e arcs
  | .node tag children, e => berWrap (BerTree.emitAll children e) (berMark e) tag

/-- Write trees so that they land in order: the last one first. -/
def BerTree.emitAll : List BerTree → BerEnc → BerEnc
  | [], e => e
  | t :: ts, e => t.emit (BerTree.emitAll ts e)

end

/-! ### Reading a tree -/

/-- The value of an unsigned integer of 32 bits. -/
def uintValue (c : List UInt8) : Option UInt32 :=
  if c = [] ∨ twosValue c < 0 ∨ 2 ^ 32 ≤ twosValue c then none
  else some (UInt32.ofNat (twosValue c).toNat)

/-- Succeed at the end of the range only. -/
def atEnd : Op Unit := fun d ↦ if d.done then .ok (some (), d) else .ok (none, d)

/-- Read an element that has no content. -/
def readEmpty (buf : List UInt8) (tag : UInt8) : Op Unit := do
  let t ← berGetTlv buf
  if t.tag ≠ tag ∨ t.clen ≠ 0 then Op.fail else pure ()

/-- Read a tagged unsigned integer. -/
def readUint (buf : List UInt8) (tag : UInt8) : Op UInt32 := do
  let t ← berGetTlv buf
  if t.tag ≠ tag then Op.fail
  else
    let c ← Op.lift (bytesAt buf t.content t.clen)
    match uintValue c with
    | none => Op.fail
    | some v => pure v

mutual

/-- Read a tree of a given shape. A constructed element has its children and nothing else. -/
def readTree (buf : List UInt8) : BerShape → Op BerTree
  | .int => do
    let v ← berGetInt buf
    pure (.int v)
  | .uint tag => do
    let v ← readUint buf tag
    pure (.uint tag v)
  | .octets => do
    let s ← berGetOctet buf
    let bs ← Op.lift (bytesAt buf s.1 s.2)
    pure (.octets bs)
  | .null => do
    let _ ← readEmpty buf berTagNull
    pure .null
  | .exception tag => do
    let _ ← readEmpty buf tag
    pure (.exception tag)
  | .oid => do
    let arcs ← berGetOid buf berMaxOidLen
    pure (.oid arcs.toList)
  | .node tag shapes => do
    let inner ← berEnter buf tag
    let ts ← Op.within inner (readTrees buf shapes)
    pure (.node tag ts)

/-- Read trees of given shapes, up to the end of the range. -/
def readTrees (buf : List UInt8) : List BerShape → Op (List BerTree)
  | [] => do
    let _ ← atEnd
    pure []
  | s :: shapes => do
    let t ← readTree buf s
    let ts ← readTrees buf shapes
    pure (t :: ts)

end

/-! ### Trees and their bytes -/

mutual

/-- The shape of a tree. -/
def BerTree.shape : BerTree → BerShape
  | .int _ => .int
  | .uint tag _ => .uint tag
  | .octets _ => .octets
  | .null => .null
  | .exception tag => .exception tag
  | .oid _ => .oid
  | .node tag children => .node tag (BerTree.shapes children)

/-- The shapes of trees. -/
def BerTree.shapes : List BerTree → List BerShape
  | [] => []
  | t :: ts => t.shape :: BerTree.shapes ts

end

mutual

/-- The canonical bytes of a tree. -/
def BerTree.enc : BerTree → List UInt8
  | .int v => tlv berTagInteger (twosBytes v.toInt)
  | .uint tag v => tlv tag (twosBytes v.toNat)
  | .octets s => tlv berTagOctetStr s
  | .null => tlv berTagNull []
  | .exception tag => tlv tag []
  | .oid arcs => tlv berTagOid (oidContent arcs)
  | .node tag children => tlv tag (BerTree.encAll children)

/-- The bytes of trees in order. -/
def BerTree.encAll : List BerTree → List UInt8
  | [] => []
  | t :: ts => t.enc ++ BerTree.encAll ts

end

/-- An OID whose first two arcs share a byte: 2 to 32 arcs, the first at most 2, the second below
40, the others of 32 bits. -/
def PlainOid : List ℕ → Prop
  | a :: b :: arcs =>
    a ≤ 2 ∧ b < 40 ∧ arcs.length + 2 ≤ berMaxOidLen ∧ ∀ n ∈ arcs, n < 2 ^ 32
  | _ => False

mutual

/-- All OIDs of the tree are plain. -/
def BerTree.Valid : BerTree → Prop
  | .oid arcs => PlainOid arcs
  | .node _ children => BerTree.AllValid children
  | _ => True

/-- All trees are valid. -/
def BerTree.AllValid : List BerTree → Prop
  | [] => True
  | t :: ts => t.Valid ∧ BerTree.AllValid ts

end

/-- An element with a minimal length field, and a content that `P` holds of. -/
def MinimalElement (tag : UInt8) (P : List UInt8 → Prop) (bs : List UInt8) : Prop :=
  ∃ lb content, bs = tag :: (lb ++ content) ∧ MinimalLen content.length lb ∧ P content

mutual

/-- The bytes encode the tree, with minimal length fields and integers throughout. -/
def BerTree.Minimal : BerTree → List UInt8 → Prop
  | .int v, bs => MinimalElement berTagInteger (MinimalInt v.toInt) bs
  | .uint tag v, bs => MinimalElement tag (MinimalInt v.toNat) bs
  | .octets s, bs => MinimalElement berTagOctetStr (· = s) bs
  | .null, bs => MinimalElement berTagNull (· = []) bs
  | .exception tag, bs => MinimalElement tag (· = []) bs
  | .oid arcs, bs => MinimalElement berTagOid (· = oidContent arcs) bs
  | .node tag children, bs => MinimalElement tag (BerTree.AllMinimal children) bs

/-- The bytes are those of the trees, one after the other. -/
def BerTree.AllMinimal : List BerTree → List UInt8 → Prop
  | [], bs => bs = []
  | t :: ts, bs => ∃ as cs, bs = as ++ cs ∧ t.Minimal as ∧ BerTree.AllMinimal ts cs

end

theorem minimalElement_tlv {tag : UInt8} {P : List UInt8 → Prop} {content : List UInt8}
    (h : P content) : MinimalElement tag P (tlv tag content) :=
  ⟨lenField content.length, content, rfl, minimalLen_lenField _, h⟩

mutual

/-- **Whatever the shape of the tree, writing it prepends its bytes.** -/
theorem emit_eq : ∀ (t : BerTree) (e : BerEnc), t.emit e = e.puts t.enc
  | .int v, e => berPutInt_eq e v
  | .uint tag v, e => berPutUintTagged_eq e v tag
  | .octets s, e => berPutOctetStr_eq e s
  | .null, e => berPutNull_eq e
  | .exception tag, e => berPutException_eq e tag
  | .oid arcs, e => berPutOid_eq e arcs
  | .node tag children, e => by
    rw [BerTree.emit, BerTree.enc, emitAll_eq children e]
    exact berWrap_puts e _ tag

theorem emitAll_eq : ∀ (ts : List BerTree) (e : BerEnc),
    BerTree.emitAll ts e = e.puts (BerTree.encAll ts)
  | [], _ => rfl
  | t :: ts, e => by
    rw [BerTree.emitAll, BerTree.encAll, emitAll_eq ts e, emit_eq t, Backward.Writer.puts_append]

end

mutual

theorem minimal_enc : ∀ t : BerTree, t.Minimal t.enc
  | .int v => minimalElement_tlv (minimalInt_twosBytes v.toInt)
  | .uint _ v => minimalElement_tlv (minimalInt_twosBytes v.toNat)
  | .octets _ => minimalElement_tlv rfl
  | .null => minimalElement_tlv rfl
  | .exception _ => minimalElement_tlv rfl
  | .oid _ => minimalElement_tlv rfl
  | .node _ children => minimalElement_tlv (allMinimal_encAll children)

theorem allMinimal_encAll : ∀ ts : List BerTree, BerTree.AllMinimal ts (BerTree.encAll ts)
  | [] => rfl
  | t :: ts => ⟨t.enc, BerTree.encAll ts, rfl, minimal_enc t, allMinimal_encAll ts⟩

end

/-! ### What reading a tree accepts -/

/-- The end of a list. -/
def takeEnd : Parser Unit := fun bs ↦ if bs = [] then some ((), bs) else none

/-- An element that has no content. -/
def takeEmpty (tag : UInt8) : Parser Unit := do
  let t ← takeTlv
  if t.1 ≠ tag ∨ t.2.length ≠ 0 then Parser.fail else pure ()

/-- A tagged unsigned integer. -/
def takeUint (tag : UInt8) : Parser UInt32 := do
  let t ← takeTlv
  if t.1 ≠ tag then Parser.fail
  else
    match uintValue t.2 with
    | none => Parser.fail
    | some v => pure v

mutual

/-- A tree of a given shape from the front of a list. -/
def takeTree : BerShape → Parser BerTree
  | .int => do
    let v ← takeInt
    pure (.int v)
  | .uint tag => do
    let v ← takeUint tag
    pure (.uint tag v)
  | .octets => do
    let bs ← takeContent berTagOctetStr
    pure (.octets bs)
  | .null => do
    let _ ← takeEmpty berTagNull
    pure .null
  | .exception tag => do
    let _ ← takeEmpty tag
    pure (.exception tag)
  | .oid => do
    let arcs ← takeOid berMaxOidLen
    pure (.oid arcs)
  | .node tag shapes => do
    let content ← takeContent tag
    let ts ← Parser.within content (takeTrees shapes)
    pure (.node tag ts)

/-- Trees of given shapes, which are all there is. -/
def takeTrees : List BerShape → Parser (List BerTree)
  | [] => do
    let _ ← takeEnd
    pure []
  | s :: shapes => do
    let t ← takeTree s
    let ts ← takeTrees shapes
    pure (t :: ts)

end

variable {buf : List UInt8}

theorem atEnd_implements : Implements buf Eq atEnd takeEnd := by
  intro d hd
  by_cases h : d.stop ≤ d.p
  · refine ⟨d, .refl hd, Or.inr ⟨(), (), ?_, ?_, rfl⟩⟩
    · rw [atEnd, if_pos (Cursor.done_iff.2 h)]
    · rw [takeEnd, if_pos ((Cursor.rest_eq_nil_iff hd).2 h)]
  · refine ⟨d, .refl hd, Or.inl ⟨?_, ?_⟩⟩
    · rw [atEnd, if_neg (mt Cursor.done_iff.1 h)]
    · rw [takeEnd, if_neg (mt (Cursor.rest_eq_nil_iff hd).1 h)]

theorem readEmpty_implements (tag : UInt8) :
    Implements buf Eq (readEmpty buf tag) (takeEmpty tag) :=
  berGetTlv_implements.bind fun _ _ ht ↦
    Cursor.implements_ite (by rw [ht.1, ht.clen_eq]) (fun _ ↦ Cursor.implements_fail)
      fun _ ↦ Cursor.implements_pure rfl

theorem readUint_implements (tag : UInt8) :
    Implements buf Eq (readUint buf tag) (takeUint tag) :=
  berGetTlv_implements.bind fun _ x ht ↦
    Cursor.implements_ite (by rw [ht.1]) (fun _ ↦ Cursor.implements_fail) fun _ ↦ by
      rw [bytesAt_eq ht.2]
      show Implements buf Eq (match uintValue x.2 with
        | none => Op.fail
        | some v => pure v) _
      rcases uintValue x.2 with - | v
      · exact Cursor.implements_fail
      · exact Cursor.implements_pure rfl

mutual

/-- **Reading a tree commits no fault**, and accepts what `takeTree` does. -/
theorem readTree_implements : ∀ s : BerShape, Implements buf Eq (readTree buf s) (takeTree s)
  | .int => berGetInt_implements.bind fun _ _ h ↦ Cursor.implements_pure (h ▸ rfl)
  | .uint tag => (readUint_implements tag).bind fun _ _ h ↦ Cursor.implements_pure (h ▸ rfl)
  | .octets => berGetOctet_implements.bind fun _ _ h ↦ by
    rw [bytesAt_eq h]
    exact Cursor.implements_pure rfl
  | .null => (readEmpty_implements berTagNull).bind fun _ _ _ ↦ Cursor.implements_pure rfl
  | .exception tag => (readEmpty_implements tag).bind fun _ _ _ ↦ Cursor.implements_pure rfl
  | .oid => (berGetOid_implements berMaxOidLen).bind fun _ _ h ↦ Cursor.implements_pure (h ▸ rfl)
  | .node tag shapes => (berEnter_implements tag).bind fun _ _ hinner ↦
    ((readTrees_implements shapes).within hinner).bind fun _ _ h ↦
      Cursor.implements_pure (h ▸ rfl)

theorem readTrees_implements :
    ∀ shapes : List BerShape, Implements buf Eq (readTrees buf shapes) (takeTrees shapes)
  | [] => atEnd_implements.bind fun _ _ _ ↦ Cursor.implements_pure rfl
  | s :: shapes => (readTree_implements s).bind fun _ _ h ↦
    (readTrees_implements shapes).bind fun _ _ h' ↦ Cursor.implements_pure (by rw [h, h'])

end

/-! ### The round trip -/

theorem takeTlv_tlv (tag : UInt8) {content : List UInt8} (h : content.length < 2 ^ 32)
    (rest : List UInt8) : takeTlv (tlv tag content ++ rest) = some ((tag, content), rest) := by
  rw [takeTlv, splitTlv_tlv (by decide) tag h]

/-- Reading back the content of an OID whose first two arcs take one byte. -/
theorem arcsOfContent_oidContent {a b : ℕ} {arcs : List ℕ} (hb : b < 40) (hab : a * 40 + b < 128)
    (hlen : arcs.length + 2 ≤ berMaxOidLen) (harcs : ∀ n ∈ arcs, n < 2 ^ 32) :
    arcsOfContent berMaxOidLen (oidContent (a :: b :: arcs)) = some (a :: b :: arcs) := by
  have hfirst : (UInt8.ofNat (a * 40 + b)).toNat = a * 40 + b := toNat_ofNat_of_lt (by omega)
  have hmod : arcs.map (· % 2 ^ 32) = arcs := by
    rw [List.map_congr_left fun n hn ↦ Nat.mod_eq_of_lt (harcs n hn), List.map_id']
  rw [oidContent, Nat.mod_eq_of_lt (by omega), group_of_lt hab, List.singleton_append,
    arcsOfContent, subIds_flatMap_group]
  show (if arcs.length + 2 ≤ berMaxOidLen then some _ else none) = _
  rw [if_pos hlen, hfirst, hmod, show (a * 40 + b) / 40 = a by omega,
    show (a * 40 + b) % 40 = b by omega]

theorem PlainOid.arcsOfContent_eq {arcs : List ℕ} (h : PlainOid arcs) :
    arcsOfContent berMaxOidLen (oidContent arcs) = some arcs := by
  rcases arcs with - | ⟨a, - | ⟨b, arcs⟩⟩
  · exact h.elim
  · exact h.elim
  · obtain ⟨ha, hb, hlen, harcs⟩ := h
    exact arcsOfContent_oidContent hb (by omega) hlen harcs

theorem takeInt_tlv (v : Int32) (rest : List UInt8) :
    takeInt (tlv berTagInteger (twosBytes v.toInt) ++ rest) = some (v, rest) := by
  have hlo := v.le_toInt
  have hhi := v.toInt_lt
  have hlen : (twosBytes v.toInt).length ≤ 3 + 1 :=
    length_twosBytes_le (by omega) (by omega)
  have hpos : (twosBytes v.toInt).length ≠ 0 := by
    obtain ⟨b, bs, hbs, -⟩ := head_twosBytes v.toInt
    rw [hbs]
    exact Nat.succ_ne_zero _
  have hok : ¬ (berTagInteger ≠ berTagInteger ∨ (twosBytes v.toInt).length = 0 ∨
      5 < (twosBytes v.toInt).length) :=
    not_or.2 ⟨not_not.2 rfl, by omega⟩
  rw [takeInt, Parser.bind_of_some (takeTlv_tlv berTagInteger (by omega) rest), if_neg hok,
    twosValue_twosBytes, Int32.ofInt_toInt]
  rfl

theorem uintValue_twosBytes (v : UInt32) : uintValue (twosBytes v.toNat) = some v := by
  have hlt := v.toNat_lt
  obtain ⟨b, bs, hbs, -⟩ := head_twosBytes v.toNat
  have hne : twosBytes v.toNat ≠ [] := by
    rw [hbs]
    exact List.cons_ne_nil _ _
  rw [uintValue, twosValue_twosBytes, if_neg (by simp only [hne, false_or]; omega),
    Int.toNat_natCast, UInt32.ofNat_toNat]

theorem length_content_le_tlv (tag : UInt8) (content : List UInt8) :
    content.length ≤ (tlv tag content).length := by
  rw [length_tlv]
  omega

theorem takeContent_tlv {tag : UInt8} {content : List UInt8} (h : content.length < 2 ^ 32)
    (rest : List UInt8) : takeContent tag (tlv tag content ++ rest) = some (content, rest) := by
  rw [takeContent, Parser.bind_of_some (takeTlv_tlv tag h rest), if_neg (by simp)]
  rfl

theorem takeEmpty_tlv (tag : UInt8) (rest : List UInt8) :
    takeEmpty tag (tlv tag [] ++ rest) = some ((), rest) := by
  rw [takeEmpty, Parser.bind_of_some (takeTlv_tlv tag (by decide) rest), if_neg (by simp)]
  rfl

theorem takeOid_tlv {max : ℕ} {content : List UInt8} (h : content.length < 2 ^ 32)
    (rest : List UInt8) :
    takeOid max (tlv berTagOid content ++ rest) =
      match arcsOfContent max content with
      | none => none
      | some arcs => some (arcs, rest) := by
  rw [takeOid, Parser.bind_of_some (takeTlv_tlv berTagOid h rest), if_neg (by simp)]
  show (match arcsOfContent max content with
    | none => Parser.fail
    | some arcs => pure arcs : Parser (List ℕ)) rest = _
  rcases arcsOfContent max content with - | arcs
  · rfl
  · rfl

/-- What a tree that fits leaves in the buffer. -/
theorem written_emit (t : BerTree) (mem : ℕ → UInt8) (base : ℕ) {cap : ℕ}
    (h : ¬ (t.emit (berEncInit mem base cap)).overflow = true) :
    (t.emit (berEncInit mem base cap)).overflow = false ∧
      berEncData (t.emit (berEncInit mem base cap)) = t.enc ∧ t.enc.length ≤ cap := by
  rw [emit_eq, Backward.Writer.overflow_puts_iff, not_or, Nat.not_lt] at h
  have hnil : (berEncInit mem base cap).written = [] := by
    rw [← List.length_eq_zero_iff, Backward.Writer.length_written]
    exact Nat.sub_self cap
  rw [emit_eq, berEncData, Backward.Writer.written_puts rfl h.2 (Nat.le_refl cap), hnil,
    List.append_nil]
  exact ⟨(Backward.Writer.puts_of_fits rfl h.2).1, rfl, h.2⟩

/-- A tree that fits is what the encoder holds. -/
theorem emit_of_fits (t : BerTree) (mem : ℕ → UInt8) (base : ℕ) {cap : ℕ}
    (h : t.enc.length ≤ cap) :
    berEncLength (t.emit (berEncInit mem base cap)) = t.enc.length ∧
      berEncData (t.emit (berEncInit mem base cap)) = t.enc := by
  have hov : ¬ (t.emit (berEncInit mem base cap)).overflow = true := by
    rw [emit_eq, Backward.Writer.overflow_puts_iff, not_or]
    exact ⟨Bool.false_ne_true, Nat.not_lt.2 h⟩
  obtain ⟨-, hdata, -⟩ := written_emit t mem base hov
  have hlen := Backward.Writer.length_written (t.emit (berEncInit mem base cap))
  rw [← berEncData, hdata] at hlen
  rw [berEncLength, if_neg hov]
  exact ⟨hlen.symm, hdata⟩

/-- A tree that does not fit has length 0 for the encoder. -/
theorem berEncLength_emit_of_lt (t : BerTree) (mem : ℕ → UInt8) (base : ℕ) {cap : ℕ}
    (h : cap < t.enc.length) : berEncLength (t.emit (berEncInit mem base cap)) = 0 := by
  have hov : (t.emit (berEncInit mem base cap)).overflow = true := by
    rw [emit_eq, Backward.Writer.overflow_puts_iff]
    exact Or.inr h
  rw [berEncLength, if_pos hov]

mutual

/-- **A tree is read back from its bytes**, whatever follows them. -/
theorem takeTree_enc : ∀ t : BerTree, t.Valid → t.enc.length < 2 ^ 32 → ∀ rest : List UInt8,
    takeTree t.shape (t.enc ++ rest) = some (t, rest)
  | .int v, _, _, rest => Parser.bind_of_some (takeInt_tlv v rest)
  | .uint tag v, _, hlen, rest => by
    rw [BerTree.enc] at hlen ⊢
    have hcontent : (twosBytes (v.toNat : ℤ)).length < 2 ^ 32 :=
      (length_content_le_tlv tag _).trans_lt hlen
    have huint : takeUint tag (tlv tag (twosBytes v.toNat) ++ rest) = some (v, rest) := by
      rw [takeUint, Parser.bind_of_some (takeTlv_tlv tag hcontent rest), if_neg (by simp)]
      show (match uintValue (twosBytes v.toNat) with
        | none => Parser.fail
        | some v => pure v : Parser UInt32) rest = _
      rw [uintValue_twosBytes]
      rfl
    exact Parser.bind_of_some huint
  | .octets s, _, hlen, rest => by
    rw [BerTree.enc] at hlen ⊢
    exact Parser.bind_of_some (takeContent_tlv ((length_content_le_tlv _ s).trans_lt hlen) rest)
  | .null, _, _, rest => Parser.bind_of_some (takeEmpty_tlv berTagNull rest)
  | .exception tag, _, _, rest => Parser.bind_of_some (takeEmpty_tlv tag rest)
  | .oid arcs, hvalid, hlen, rest => by
    rw [BerTree.enc] at hlen ⊢
    have hcontent := (length_content_le_tlv berTagOid (oidContent arcs)).trans_lt hlen
    have hoid : takeOid berMaxOidLen (tlv berTagOid (oidContent arcs) ++ rest) =
        some (arcs, rest) := by
      rw [takeOid_tlv hcontent, PlainOid.arcsOfContent_eq hvalid]
    exact Parser.bind_of_some hoid
  | .node tag children, hvalid, hlen, rest => by
    rw [BerTree.enc] at hlen ⊢
    have hcontent := (length_content_le_tlv tag (BerTree.encAll children)).trans_lt hlen
    have hchildren := takeTrees_encAll children hvalid hcontent
    rw [BerTree.shape, takeTree, Parser.bind_of_some (takeContent_tlv hcontent rest)]
    refine Parser.bind_of_some (Parser.within_eq_some.2 ⟨rfl, [], hchildren⟩)

theorem takeTrees_encAll : ∀ ts : List BerTree, BerTree.AllValid ts →
    (BerTree.encAll ts).length < 2 ^ 32 →
    takeTrees (BerTree.shapes ts) (BerTree.encAll ts) = some (ts, [])
  | [], _, _ => rfl
  | t :: ts, hvalid, hlen => by
    rw [BerTree.encAll, List.length_append] at hlen
    rw [BerTree.shapes, takeTrees, BerTree.encAll,
      Parser.bind_of_some (takeTree_enc t hvalid.1 (by omega) _),
      Parser.bind_of_some (takeTrees_encAll ts hvalid.2 (by omega))]
    rfl

end

/-- **The BER round trip**: whatever tree is written into whatever buffer, no memory outside the
buffer changes, and either the overflow is reported, or reading the bytes gives the tree back and
consumes them all, and they are minimal. -/
theorem berTree_roundTrip {t : BerTree} (ht : t.Valid) (mem : ℕ → UInt8) (base : ℕ) {cap : ℕ}
    (hcap : cap < 2 ^ 32) :
    let e := t.emit (berEncInit mem base cap)
    (∀ a, a < base ∨ base + cap ≤ a → e.mem a = mem a) ∧
      ((e.overflow = true ∧ berEncLength e = 0) ∨
        (e.overflow = false ∧ berEncLength e = (berEncData e).length ∧ t.Minimal (berEncData e) ∧
          ∃ d, readTree (berEncData e) t.shape (berDecInit 0 (berEncLength e)) = .ok (some t, d) ∧
            d.done = true)) := by
  intro e
  have he : e = (berEncInit mem base cap).puts t.enc := emit_eq t _
  refine ⟨fun a ha ↦ by rw [he, Backward.Writer.mem_puts ha]; rfl, ?_⟩
  by_cases hov : e.overflow = true
  · exact Or.inl ⟨hov, by rw [berEncLength, if_pos hov]⟩
  · obtain ⟨hov', hdata, hle⟩ := written_emit t mem base hov
    have hlen : berEncLength e = (berEncData e).length := by
      rw [berEncLength, if_neg hov, berEncData, Backward.Writer.length_written]
    refine Or.inr ⟨hov', hlen, hdata ▸ minimal_enc t, ?_⟩
    have htake : takeTree t.shape t.enc = some (t, []) := by
      rw [← List.append_nil t.enc]
      exact takeTree_enc t ht (hle.trans_lt hcap) []
    rw [berDecInit_whole hlen]
    obtain ⟨d, ⟨-, hnone⟩ | ⟨t', b, rest, hread, htake', rfl, hrest⟩⟩ :=
      (@readTree_implements (berEncData e) t.shape).whole
    · rw [hdata, htake] at hnone
      exact absurd hnone (by simp)
    · rw [hdata, htake] at htake'
      obtain ⟨rfl, rfl⟩ := Prod.mk.inj (Option.some.inj htake')
      exact ⟨d, hread, hrest.1 rfl⟩

/-- A varbind with its name and its value, and an empty list beside it. -/
def sampleTree : BerTree :=
  .node berTagSequence
    [.node berTagSequence [.oid [1, 3, 6, 1, 4, 1, 99999, 1], .uint 0x43 0x80000000],
      .node berTagSequence [], .int (-129), .octets (List.replicate 130 0x61), .null]

theorem berTree_roundTrip_sampleTree :
    let e := sampleTree.emit (berEncInit (fun _ ↦ 0) 16 400)
    (∀ a, a < 16 ∨ 16 + 400 ≤ a → e.mem a = 0) ∧
      ((e.overflow = true ∧ berEncLength e = 0) ∨
        (e.overflow = false ∧ berEncLength e = (berEncData e).length ∧
          sampleTree.Minimal (berEncData e) ∧
          ∃ d, readTree (berEncData e) sampleTree.shape (berDecInit 0 (berEncLength e)) =
            .ok (some sampleTree, d) ∧ d.done = true)) :=
  berTree_roundTrip (t := sampleTree)
    ⟨⟨⟨by decide, by decide, by decide, by decide⟩, trivial, trivial⟩, trivial, trivial, trivial,
      trivial, trivial⟩ (fun _ ↦ 0) 16 (by decide)

end ThinEdge.Snmp
