import ThinEdge.Lib.Cursor
import ThinEdge.Snmp.BerEncoder

/-!
# The forward BER decoder

The decoder half of `lib/snmp/snmp_ber.c`. `struct ber_dec` is the cursor of `ThinEdge.Lib.Cursor`
and every `ber_get_*` function is an operation on it, so that a read outside the datagram, a content
slice outside the decoder's range, a sub-identifier stored past the caller's array and a loop that
does not move on are faults.

Each operation implements a parser on lists of bytes (`berGetTlv_implements`, …). That says at once
that it never commits a fault, that it leaves its decoder in range even when it fails, and which
bytes it accepts: `takeTlv` is `Ber.splitTlv`, and `takeOid` reads base-128 numbers after the first
byte with `Ber.subIds`.
-/

namespace ThinEdge.Snmp

open Ber
open Cursor (Checked Op Parser Table Implements ImplementsAt Shows Follows byteAt)

/-- `struct ber_dec`: `p` and `end` as indices into the datagram. -/
abbrev BerDec := Cursor

/-- `ber_dec_init`. -/
def berDecInit (buf len : ℕ) : BerDec := ⟨buf, buf + len⟩

/-- What `ber_get_tlv` sets: the tag, and the content as a slice of the input. -/
structure Tlv where
  tag : UInt8
  content : ℕ
  clen : ℕ
  deriving DecidableEq, Repr

/-- A decoder over the content. -/
def Tlv.inner (t : Tlv) : BerDec := berDecInit t.content t.clen

/-! ### TLVs -/

/-- The loop over the bytes of a long-form length. -/
def lenBytes (buf : List UInt8) : ℕ → ℕ → Op ℕ
  | 0, len => pure len
  | n + 1, len => do
    let b ← Op.next buf
    lenBytes buf n (len * 256 + b.toNat)

/-- A long-form length of `nbytes` bytes: indefinite and absurd lengths are refused. -/
def longLen (buf : List UInt8) (nbytes : ℕ) : Op ℕ := fun d ↦
  if nbytes = 0 ∨ 4 < nbytes ∨ d.stop < d.p + nbytes then Op.fail d else lenBytes buf nbytes 0 d

/-- The length that a TLV's second byte announces, short or long. -/
def tlvLen (buf : List UInt8) (l0 : UInt8) : Op ℕ :=
  if l0.toNat < 0x80 then pure l0.toNat else longLen buf (l0.toNat % 128)

/-- The end of `ber_get_tlv`: the value must not be truncated. The slice handed out has to lie in
the range that the call found (`start`). -/
def tlvValue (start : BerDec) (tag : UInt8) (len : ℕ) : Op Tlv := fun d ↦
  if d.stop - d.p < len then Op.fail d
  else if start.p ≤ d.p ∧ d.p + len ≤ start.stop then .ok (some ⟨tag, d.p, len⟩, d.advance len)
  else .error .slice

/-- `ber_get_tlv`. -/
def berGetTlv (buf : List UInt8) : Op Tlv := fun start ↦
  (do
    let t ← Op.byte buf
    let l0 ← Op.byte buf
    let len ← tlvLen buf l0
    tlvValue start t len : Op Tlv) start

/-- `ber_enter`: a decoder over the content of an element with this tag. -/
def berEnter (buf : List UInt8) (tag : UInt8) : Op BerDec := do
  let t ← berGetTlv buf
  if t.tag ≠ tag then Op.fail else pure t.inner

/-- `ber_skip`. -/
def berSkip (buf : List UInt8) : Op Unit := do
  let _ ← berGetTlv buf
  pure ()

/-! ### Values -/

/-- The bytes of a slice, read one after the other. -/
def bytesAt (buf : List UInt8) (i : ℕ) : ℕ → Checked (List UInt8)
  | 0 => .ok []
  | n + 1 =>
    match byteAt buf i with
    | .error f => .error f
    | .ok b =>
      match bytesAt buf (i + 1) n with
      | .error f => .error f
      | .ok bs => .ok (b :: bs)

/-- `ber_get_int`. Up to five bytes are shifted into a 64-bit number that starts from the sign of
the first (`Ber.twosValue`), of which the low 32 bits are the result. -/
def berGetInt (buf : List UInt8) : Op Int32 := do
  let t ← berGetTlv buf
  if t.tag ≠ berTagInteger ∨ t.clen = 0 ∨ 5 < t.clen then Op.fail
  else
    let c ← Op.lift (bytesAt buf t.content t.clen)
    pure (Int32.ofInt (twosValue c))

/-- `ber_get_octet`: the string as a slice of the input. -/
def berGetOctet (buf : List UInt8) : Op (ℕ × ℕ) := do
  let t ← berGetTlv buf
  if t.tag ≠ berTagOctetStr then Op.fail else pure (t.content, t.clen)

/-! ### OIDs -/

/-- The loop over the base-128 groups of one sub-identifier, in 32 bits. A continuation that the
content breaks off is refused. -/
def subIdLoop (buf : List UInt8) (v : ℕ) (d : BerDec) : Checked (Option ℕ × BerDec) :=
  if d.p < d.stop then
    match byteAt buf d.p with
    | .error f => .error f
    | .ok b =>
      if 0x80 ≤ b.toNat then
        subIdLoop buf (v * 128 % 2 ^ 32 + b.toNat % 128) (d.advance 1)
      else .ok (some (v * 128 % 2 ^ 32 + b.toNat % 128), d.advance 1)
  else .ok (none, d)
termination_by d.stop - d.p
decreasing_by
  show d.stop - (d.p + 1) < d.stop - d.p
  omega

/-- One sub-identifier. -/
def subId (buf : List UInt8) : Op ℕ := subIdLoop buf 0

/-- The loop over the sub-identifiers after the first byte. -/
def arcLoop (buf : List UInt8) {max : ℕ} (out : Table ℕ max) : Op (Bool × Table ℕ max) := do
  let v ← subId buf
  if max ≤ out.toList.length then Op.fail
  else
    let out ← Op.lift (out.push v)
    pure (true, out)

/-- The content of an OID, of which the first byte encodes the first two arcs. -/
def oidArcs (buf : List UInt8) (max : ℕ) : Op (Table ℕ max) := do
  let first ← Op.next buf
  if max < 2 then Op.fail
  else
    let out ← Op.lift ((Table.empty ℕ max).push (first.toNat / 40))
    let out ← Op.lift (out.push (first.toNat % 40))
    Op.untilDone 1 (arcLoop buf) out

/-- `ber_get_oid`, into an array of `max` sub-identifiers. -/
def berGetOid (buf : List UInt8) (max : ℕ) : Op (Table ℕ max) := do
  let t ← berGetTlv buf
  if t.tag ≠ berTagOid ∨ t.clen = 0 then Op.fail
  else Op.within t.inner (oidArcs buf max)

/-! ### What the operations accept -/

/-- An element from the front of a list. -/
def takeTlv : Parser (UInt8 × List UInt8) := fun bs ↦
  match splitTlv 4 bs with
  | none => none
  | some (tag, content, rest) => some ((tag, content), rest)

/-- An element with a given tag. -/
def takeContent (tag : UInt8) : Parser (List UInt8) := do
  let t ← takeTlv
  if t.1 ≠ tag then Parser.fail else pure t.2

/-- An INTEGER. -/
def takeInt : Parser Int32 := do
  let t ← takeTlv
  if t.1 ≠ berTagInteger ∨ t.2.length = 0 ∨ 5 < t.2.length then Parser.fail
  else pure (Int32.ofInt (twosValue t.2))

/-- The arcs that the decoder reads from the content of an OID. -/
def arcsOfContent (max : ℕ) : List UInt8 → Option (List ℕ)
  | [] => none
  | b :: bs =>
    match subIds bs with
    | none => none
    | some ns =>
      if ns.length + 2 ≤ max then
        some (b.toNat / 40 :: b.toNat % 40 :: ns.map (· % 2 ^ 32))
      else none

/-- An OID of at most `max` arcs. -/
def takeOid (max : ℕ) : Parser (List ℕ) := do
  let t ← takeTlv
  if t.1 ≠ berTagOid then Parser.fail
  else
    match arcsOfContent max t.2 with
    | none => Parser.fail
    | some arcs => pure arcs

variable {buf : List UInt8} {d : BerDec}

/-- The value of a TLV, as a parser. -/
def takeBytes (len : ℕ) : Parser (List UInt8) := fun bs ↦
  if bs.length < len then none else some (bs.take len, bs.drop len)

/-- A long-form length, as a parser. -/
def takeLongLen (nbytes : ℕ) : Parser ℕ := fun bs ↦
  if nbytes = 0 ∨ 4 < nbytes ∨ bs.length < nbytes then none
  else some (beValue (bs.take nbytes), bs.drop nbytes)

/-- A length after its first byte, as a parser. -/
def takeLen (l0 : UInt8) : Parser ℕ :=
  if l0.toNat < 128 then pure l0.toNat else takeLongLen (l0.toNat % 128)

/-- The end of a TLV, as a parser. -/
def takeValue (tag : UInt8) (len : ℕ) : Parser (UInt8 × List UInt8) := do
  let c ← takeBytes len
  pure (tag, c)

theorem takeValue_of_lt {tag : UInt8} {len : ℕ} {bs : List UInt8} (h : bs.length < len) :
    takeValue tag len bs = none := by
  show Parser.bind (takeBytes len) _ bs = none
  rw [Parser.bind, takeBytes, if_pos h]

theorem takeValue_of_le {tag : UInt8} {len : ℕ} {bs : List UInt8} (h : len ≤ bs.length) :
    takeValue tag len bs = some ((tag, bs.take len), bs.drop len) :=
  Parser.bind_of_some (show takeBytes len bs = some (bs.take len, bs.drop len) by
    rw [takeBytes, if_neg (Nat.not_lt.2 h)])

/-- The end of `takeTlv` for a length that was read. -/
theorem takeValue_eq (tag : UInt8) (len : ℕ) (bs : List UInt8) :
    (match (if bs.length < len then none else some (tag, bs.take len, bs.drop len)) with
      | none => none
      | some (tag, content, rest) => some ((tag, content), rest)) = takeValue tag len bs := by
  by_cases h : bs.length < len
  · rw [takeValue_of_lt h, if_pos h]
  · rw [takeValue_of_le (Nat.not_lt.1 h), if_neg h]

theorem takeTlv_eq :
    takeTlv = (do
      let t ← Parser.byte
      let l0 ← Parser.byte
      let len ← takeLen l0
      takeValue t len : Parser (UInt8 × List UInt8)) := by
  funext bs
  rcases bs with - | ⟨t, - | ⟨l0, bs⟩⟩
  · rfl
  · rfl
  · rw [Parser.bind_of_some (show Parser.byte (t :: l0 :: bs) = some (t, l0 :: bs) from rfl),
      Parser.bind_of_some (show Parser.byte (l0 :: bs) = some (l0, bs) from rfl),
      takeTlv, splitTlv, splitLen]
    by_cases hshort : l0.toNat < 128
    · rw [if_pos hshort, takeLen, if_pos hshort]
      exact takeValue_eq t l0.toNat bs
    · rw [if_neg hshort, takeLen, if_neg hshort]
      by_cases hbad : l0.toNat % 128 = 0 ∨ 4 < l0.toNat % 128 ∨ bs.length < l0.toNat % 128
      · have hlong : takeLongLen (l0.toNat % 128) bs = none := by rw [takeLongLen, if_pos hbad]
        rw [if_pos hbad]
        show none = Parser.bind (takeLongLen (l0.toNat % 128)) _ bs
        rw [Parser.bind, hlong]
      · have hlong : takeLongLen (l0.toNat % 128) bs = some (beValue (bs.take (l0.toNat % 128)),
            bs.drop (l0.toNat % 128)) := by rw [takeLongLen, if_neg hbad]
        rw [if_neg hbad, Parser.bind_of_some hlong]
        exact takeValue_eq t _ _

theorem lenBytes_implementsAt {n : ℕ} {a : ℕ} (hd : d.InRange buf) (hn : d.p + n ≤ d.stop) :
    lenBytes buf n a d =
      .ok (some (((d.rest buf).take n).foldl (fun a b ↦ a * 256 + b.toNat) a), d.advance n) := by
  induction n generalizing a d with
  | zero => rfl
  | succ n ih =>
    obtain ⟨b, hbyte, hrest⟩ := Cursor.byteAt_of_lt hd (by omega)
    have hnext : Op.next buf d = .ok (some b, d.advance 1) := by rw [Op.next, hbyte]
    have hstep : lenBytes buf (n + 1) a d = lenBytes buf n (a * 256 + b.toNat) (d.advance 1) := by
      show Op.bind (Op.next buf) (fun b ↦ lenBytes buf n (a * 256 + b.toNat)) d = _
      rw [Op.bind, hnext]
    have hp : (d.advance 1).p + n ≤ (d.advance 1).stop := by
      show d.p + 1 + n ≤ d.stop
      omega
    have hadvance : (d.advance 1).advance n = d.advance (n + 1) := by
      show (⟨d.p + 1 + n, d.stop⟩ : Cursor) = ⟨d.p + (n + 1), d.stop⟩
      rw [Nat.add_assoc, Nat.add_comm 1 n]
    rw [hstep, ih (Cursor.follows_advance hd (by omega)).inRange hp, hrest, List.take_succ_cons,
      List.foldl_cons, hadvance]

theorem longLen_implements (nbytes : ℕ) :
    Implements buf Eq (longLen buf nbytes) (takeLongLen nbytes) := by
  intro d hd
  have hiff : (nbytes = 0 ∨ 4 < nbytes ∨ d.stop < d.p + nbytes) ↔
      nbytes = 0 ∨ 4 < nbytes ∨ (d.rest buf).length < nbytes := by
    have := hd.1
    rw [Cursor.length_rest hd]
    omega
  by_cases hbad : nbytes = 0 ∨ 4 < nbytes ∨ d.stop < d.p + nbytes
  · refine ⟨d, .refl hd, Or.inl ⟨?_, ?_⟩⟩
    · rw [longLen, if_pos hbad]
      rfl
    · rw [takeLongLen, if_pos (hiff.1 hbad)]
  · have hn : d.p + nbytes ≤ d.stop := by omega
    refine ⟨d.advance nbytes, Cursor.follows_advance hd hn,
      Or.inr ⟨beValue ((d.rest buf).take nbytes), _, ?_, ?_, rfl⟩⟩
    · rw [longLen, if_neg hbad, lenBytes_implementsAt hd hn, beValue]
    · rw [takeLongLen, if_neg (mt hiff.2 hbad), Cursor.rest_advance]

theorem tlvLen_implements (l0 : UInt8) : Implements buf Eq (tlvLen buf l0) (takeLen l0) :=
  Cursor.implements_ite Iff.rfl (fun _ ↦ Cursor.implements_pure rfl) fun _ ↦ longLen_implements _

/-- A TLV that was read shows its tag and its content. -/
def Tlv.Reads (buf : List UInt8) (t : Tlv) (x : UInt8 × List UInt8) : Prop :=
  t.tag = x.1 ∧ Shows buf t.inner x.2

theorem Tlv.Reads.clen_eq {t : Tlv} {x : UInt8 × List UInt8} (h : t.Reads buf x) :
    t.clen = x.2.length := by
  rw [← h.2.2, Cursor.length_rest h.2.1]
  show t.clen = t.content + t.clen - t.content
  omega

theorem tlvValue_implementsAt {start : BerDec} (tag : UInt8) (len : ℕ)
    (h : start.Follows buf d) :
    ImplementsAt buf (Tlv.Reads buf) (tlvValue start tag len)
      (takeValue tag len) d := by
  have hd := h.inRange
  have hpos := h.le
  have hstop := h.stop_eq
  have hle := hd.1
  have hlen := Cursor.length_rest hd
  by_cases htrunc : d.stop - d.p < len
  · refine ⟨d, .refl hd, Or.inl ⟨?_, ?_⟩⟩
    · rw [tlvValue, if_pos htrunc]
      rfl
    · exact takeValue_of_lt (by omega)
  · refine ⟨d.advance len, Cursor.follows_advance hd (by omega),
      Or.inr ⟨⟨tag, d.p, len⟩, (tag, (d.rest buf).take len), ?_, ?_, rfl, ?_, ?_⟩⟩
    · rw [tlvValue, if_neg htrunc, if_pos (by omega)]
    · rw [takeValue_of_le (by omega), Cursor.rest_advance]
    · have := hd.2
      refine ⟨?_, ?_⟩
      · show d.p ≤ d.p + len
        omega
      · show d.p + len ≤ buf.length
        omega
    · show (buf.take (d.p + len)).drop d.p = ((buf.take d.stop).drop d.p).take len
      rw [List.drop_take, List.drop_take, List.take_take]
      congr 1
      omega

/-- **`ber_get_tlv`.** -/
theorem berGetTlv_implements : Implements buf (Tlv.Reads buf) (berGetTlv buf) takeTlv := by
  intro start hstart
  rw [takeTlv_eq]
  refine (Cursor.implements_byte start hstart).bind fun t _ d₁ h₁ ht ↦ ?_
  obtain rfl := ht
  refine (Cursor.implements_byte d₁ h₁.inRange).bind fun l0 _ d₂ h₂ hl0 ↦ ?_
  obtain rfl := hl0
  refine (tlvLen_implements l0 d₂ h₂.inRange).bind fun len _ d₃ h₃ hlen ↦ ?_
  obtain rfl := hlen
  exact tlvValue_implementsAt t len ((h₁.trans h₂).trans h₃)

/-- The decoder over a whole datagram. -/
theorem berDecInit_whole {len : ℕ} (h : len = buf.length) :
    berDecInit 0 len = ⟨0, buf.length⟩ := by
  rw [berDecInit, Nat.zero_add, h]

/-- **`ber_enter`.** -/
theorem berEnter_implements (tag : UInt8) :
    Implements buf (Shows buf) (berEnter buf tag) (takeContent tag) :=
  berGetTlv_implements.bind fun _ _ ht ↦
    Cursor.implements_ite (by rw [ht.1]) (fun _ ↦ Cursor.implements_fail)
      fun _ ↦ Cursor.implements_pure ht.2

/-- **`ber_skip`.** -/
theorem berSkip_implements :
    Implements buf Eq (berSkip buf) (do let _ ← takeTlv; pure () : Parser Unit) :=
  berGetTlv_implements.bind fun _ _ _ ↦ Cursor.implements_pure rfl

/-- **`ber_get_octet`.** -/
theorem berGetOctet_implements :
    Implements buf (fun s bs ↦ Shows buf (berDecInit s.1 s.2) bs) (berGetOctet buf)
      (takeContent berTagOctetStr) :=
  berGetTlv_implements.bind fun _ _ ht ↦
    Cursor.implements_ite (by rw [ht.1]) (fun _ ↦ Cursor.implements_fail)
      fun _ ↦ Cursor.implements_pure ht.2

theorem bytesAt_eq {i n : ℕ} {bs : List UInt8} (h : Shows buf (berDecInit i n) bs) :
    bytesAt buf i n = .ok bs := by
  induction n generalizing i bs with
  | zero =>
    obtain ⟨hrange, rfl⟩ := h
    rw [(Cursor.rest_eq_nil_iff hrange).2 (Nat.le_refl _)]
    rfl
  | succ n ih =>
    obtain ⟨hrange, rfl⟩ := h
    have hlt : (berDecInit i (n + 1)).p < (berDecInit i (n + 1)).stop := by
      show i < i + (n + 1)
      omega
    obtain ⟨b, hbyte, hrest⟩ := Cursor.byteAt_of_lt hrange hlt
    have hadvance : (berDecInit i (n + 1)).advance 1 = berDecInit (i + 1) n := by
      show (⟨i + 1, i + (n + 1)⟩ : Cursor) = ⟨i + 1, i + 1 + n⟩
      rw [Nat.add_assoc i 1 n, Nat.add_comm 1 n]
    rw [hadvance] at hrest
    have htail := @ih (i + 1) _ ⟨hadvance ▸ (Cursor.follows_advance hrange hlt).inRange, rfl⟩
    show (match byteAt buf i with
      | .error f => .error f
      | .ok b =>
        match bytesAt buf (i + 1) n with
        | .error f => .error f
        | .ok bs => .ok (b :: bs)) = Except.ok _
    rw [show byteAt buf i = .ok b from hbyte, htail, hrest]

/-- **`ber_get_int`.** -/
theorem berGetInt_implements : Implements buf Eq (berGetInt buf) takeInt :=
  berGetTlv_implements.bind fun t x ht ↦
    Cursor.implements_ite (by rw [ht.1, ht.clen_eq]) (fun _ ↦ Cursor.implements_fail) fun _ ↦ by
      rw [bytesAt_eq ht.2]
      exact Cursor.implements_pure rfl

/-! ### OIDs -/

/-- The rest of a sub-identifier, in 32 bits, after the part `v`. -/
def takeSubIdFrom (v : ℕ) : List UInt8 → Option (ℕ × List UInt8)
  | [] => none
  | b :: bs =>
    if 128 ≤ b.toNat then takeSubIdFrom (v * 128 % 2 ^ 32 + b.toNat % 128) bs
    else some (v * 128 % 2 ^ 32 + b.toNat % 128, bs)

/-- One sub-identifier from the front of a list. -/
def takeSubId : Parser ℕ := takeSubIdFrom 0

/-- One round of the loop over sub-identifiers. -/
def takeArc (max : ℕ) (out : List ℕ) : Parser (Bool × List ℕ) := do
  let v ← takeSubId
  if max ≤ out.length then Parser.fail else pure (true, out ++ [v])

theorem subIdLoop_implements (v : ℕ) : Implements buf Eq (subIdLoop buf v) (takeSubIdFrom v) := by
  intro d hd
  induction hn : d.stop - d.p using Nat.strong_induction_on generalizing d v with
  | h n ih =>
    by_cases hlt : d.p < d.stop
    · obtain ⟨b, hbyte, hrest⟩ := Cursor.byteAt_of_lt hd hlt
      have hfollows := Cursor.follows_advance hd (show d.p + 1 ≤ d.stop from hlt)
      by_cases hb : 128 ≤ b.toNat
      · have hstep : subIdLoop buf v d =
            subIdLoop buf (v * 128 % 2 ^ 32 + b.toNat % 128) (d.advance 1) := by
          rw [subIdLoop, if_pos hlt, hbyte]
          exact if_pos hb
        have hstep' : takeSubIdFrom v (d.rest buf) =
            takeSubIdFrom (v * 128 % 2 ^ 32 + b.toNat % 128) ((d.advance 1).rest buf) := by
          rw [hrest, takeSubIdFrom, if_pos hb]
        have hless : (d.advance 1).stop - (d.advance 1).p < n := by
          show d.stop - (d.p + 1) < n
          omega
        obtain ⟨d', hfollows', hres⟩ := ih _ hless _ _ hfollows.inRange rfl
        refine ⟨d', hfollows.trans hfollows', ?_⟩
        rw [hstep, hstep']
        exact hres
      · refine ⟨d.advance 1, hfollows, Or.inr ⟨v * 128 % 2 ^ 32 + b.toNat % 128, _, ?_, ?_, rfl⟩⟩
        · rw [subIdLoop, if_pos hlt, hbyte]
          exact if_neg hb
        · rw [hrest, takeSubIdFrom, if_neg hb]
    · refine ⟨d, .refl hd, Or.inl ⟨?_, ?_⟩⟩
      · rw [subIdLoop, if_neg hlt]
      · rw [(Cursor.rest_eq_nil_iff hd).2 (Nat.not_lt.1 hlt)]
        rfl

theorem arcLoop_implements {max : ℕ} {out : Table ℕ max} {ns : List ℕ} (h : out.toList = ns) :
    Implements buf (fun a b ↦ a.1 = b.1 ∧ a.2.toList = b.2) (arcLoop buf out) (takeArc max ns) := by
  have hsubId : Implements buf Eq (subId buf) takeSubId := subIdLoop_implements 0
  refine hsubId.bind fun v _ hv ↦ ?_
  obtain rfl := hv
  refine Cursor.implements_ite (by rw [h]) (fun _ ↦ Cursor.implements_fail) fun hlt ↦ ?_
  obtain ⟨out', hpush, hout'⟩ := Table.push_of_lt (Nat.not_le.1 hlt) v
  rw [hpush]
  exact Cursor.implements_pure ⟨rfl, by rw [hout', h]⟩

theorem length_of_takeSubIdFrom {v w : ℕ} {bs bs' : List UInt8}
    (h : takeSubIdFrom v bs = some (w, bs')) : bs'.length + 1 ≤ bs.length := by
  induction bs generalizing v with
  | nil => exact absurd h (by simp [takeSubIdFrom])
  | cons b bs ih =>
    rw [takeSubIdFrom] at h
    split at h
    · exact Nat.le_succ_of_le (ih h)
    · obtain ⟨-, rfl⟩ := Prod.mk.inj (Option.some.inj h)
      exact Nat.le_refl _

theorem takeArc_eq_some {max : ℕ} {out out' : List ℕ} {more : Bool} {bs bs' : List UInt8}
    (h : takeArc max out bs = some ((more, out'), bs')) :
    ∃ v, takeSubId bs = some (v, bs') ∧ out.length < max ∧ more = true ∧ out' = out ++ [v] := by
  obtain ⟨v, bs₁, hv, hrest⟩ := Parser.bind_eq_some.1 h
  split at hrest
  · exact absurd hrest (by simp [Parser.fail])
  · next hlt =>
    obtain ⟨hpair, rfl⟩ := Prod.mk.inj (Option.some.inj hrest)
    obtain ⟨hmore, hout⟩ := Prod.mk.inj hpair
    exact ⟨v, hv, Nat.not_le.1 hlt, hmore.symm, hout.symm⟩

/-- A sub-identifier of the decoder is a base-128 number modulo its word. -/
theorem takeSubIdFrom_scan {v : ℕ} {bs : List UInt8} {acc : Option ℕ} (hv : v = acc.getD 0 % 2 ^ 32)
    (hne : bs ≠ [] ∨ acc.isSome = true) :
    (takeSubIdFrom v bs = none ∧ scan acc bs = none) ∨
      ∃ n bs', takeSubIdFrom v bs = some (n % 2 ^ 32, bs') ∧
        scan acc bs = (scan none bs').map (n :: ·) := by
  induction bs generalizing v acc with
  | nil =>
    rcases acc with - | a
    · simp at hne
    · exact Or.inl ⟨rfl, rfl⟩
  | cons b bs ih =>
    have hstep : v * 128 % 2 ^ 32 + b.toNat % 128 =
        (acc.getD 0 * 128 + b.toNat % 128) % 2 ^ 32 := by omega
    by_cases hb : 128 ≤ b.toNat
    · rw [takeSubIdFrom, if_pos hb, scan_cons_of_le hb]
      exact ih hstep (Or.inr rfl)
    · rw [takeSubIdFrom, if_neg hb, scan_cons_of_lt (Nat.not_le.1 hb)]
      exact Or.inr ⟨_, bs, by rw [hstep], rfl⟩

/-- **The loop over sub-identifiers reads base-128 numbers.** -/
theorem untilEmpty_takeArc {max : ℕ} {out : List ℕ} (hout : out.length ≤ max) (bs : List UInt8) :
    Parser.untilEmpty (takeArc max) out bs =
      match subIds bs with
      | none => none
      | some ns =>
        if out.length + ns.length ≤ max then some (out ++ ns.map (· % 2 ^ 32), []) else none := by
  -- on the bytes left: a sub-identifier takes at least one
  induction hn : bs.length using Nat.strong_induction_on generalizing bs out with
  | h n ih =>
    by_cases hnil : bs = []
    · rw [hnil, Parser.untilEmpty, Parser.loop, if_pos rfl]
      show _ = if out.length + 0 ≤ max then some (out ++ [], []) else none
      rw [if_pos (show out.length + 0 ≤ max from hout), List.append_nil]
    · rw [Parser.untilEmpty, Parser.loop, if_neg hnil, subIds]
      rcases takeSubIdFrom_scan (show 0 = (none : Option ℕ).getD 0 % 2 ^ 32 from rfl)
        (Or.inl hnil) with ⟨htake, hscan⟩ | ⟨v, bs', htake, hscan⟩
      · have hround : takeArc max out bs = none := by
          show Parser.bind takeSubId _ bs = none
          rw [Parser.bind, takeSubId, htake]
        rw [hround, hscan]
      · have hlen := length_of_takeSubIdFrom htake
        have hround : takeArc max out bs =
            (if max ≤ out.length then Parser.fail else pure (true, out ++ [v % 2 ^ 32]) :
              Parser (Bool × List ℕ)) bs' := Parser.bind_of_some htake
        rw [hround, hscan]
        -- the table is full: one sub-identifier more is refused, whatever follows it
        by_cases hfull : max ≤ out.length
        · rw [if_pos hfull]
          rcases scan none bs' with - | ns
          · rfl
          · show none = if out.length + (ns.length + 1) ≤ max then _ else none
            rw [if_neg (by omega)]
        · rw [if_neg hfull]
          show (if bs'.length < bs.length then
            Parser.untilEmpty (takeArc max) (out ++ [v % 2 ^ 32]) bs' else none) = _
          rw [if_pos (by omega), ih bs'.length (by omega) (by simp; omega) bs' rfl, subIds]
          rcases scan none bs' with - | ns
          · rfl
          · show (if (out ++ [v % 2 ^ 32]).length + ns.length ≤ max then
              some (out ++ [v % 2 ^ 32] ++ ns.map (· % 2 ^ 32), []) else none) =
              if out.length + (ns.length + 1) ≤ max then
                some (out ++ (v % 2 ^ 32) :: ns.map (· % 2 ^ 32), []) else none
            rw [List.length_append, List.length_singleton, List.append_assoc,
              List.singleton_append, Nat.add_assoc, Nat.add_comm 1]

/-- The parser of an OID's content. -/
def takeArcs (max : ℕ) : Parser (List ℕ) := do
  let first ← Parser.byte
  if max < 2 then Parser.fail
  else Parser.untilEmpty (takeArc max) [first.toNat / 40, first.toNat % 40]

theorem takeArcs_eq (max : ℕ) (bs : List UInt8) :
    takeArcs max bs =
      match arcsOfContent max bs with
      | none => none
      | some arcs => some (arcs, []) := by
  rcases bs with - | ⟨b, bs⟩
  · rfl
  · rw [takeArcs, Parser.bind_of_some (show Parser.byte (b :: bs) = some (b, bs) from rfl),
      arcsOfContent]
    by_cases hmax : max < 2
    · rw [if_pos hmax]
      rcases subIds bs with - | ns
      · rfl
      · dsimp only
        rw [if_neg (by omega)]
        rfl
    · rw [if_neg hmax, untilEmpty_takeArc (by simp; omega)]
      rcases subIds bs with - | ns
      · rfl
      · dsimp only
        rw [List.length_cons, List.length_cons, List.length_nil]
        by_cases hfit : ns.length + 2 ≤ max
        · rw [if_pos (by omega), if_pos hfit]
          rfl
        · rw [if_neg (by omega), if_neg hfit]

theorem oidArcs_implementsAt {inner : BerDec} (max : ℕ) (hinner : inner.InRange buf)
    (hlt : inner.p < inner.stop) :
    ImplementsAt buf (fun out ns ↦ out.toList = ns) (oidArcs buf max) (takeArcs max) inner := by
  refine (Cursor.implementsAt_next hinner hlt).bind fun first _ d' hfollows hfirst ↦ ?_
  obtain rfl := hfirst
  refine Cursor.implements_ite Iff.rfl (fun _ ↦ Cursor.implements_fail) (fun hmax ↦ ?_) d'
    hfollows.inRange
  obtain ⟨out₁, hpush₁, hout₁⟩ := Table.push_of_lt (t := Table.empty ℕ max)
    (show 0 < max by omega) (first.toNat / 40)
  obtain ⟨out₂, hpush₂, hout₂⟩ := Table.push_of_lt (t := out₁)
    (show out₁.toList.length < max by rw [hout₁]; show 1 < max; omega) (first.toNat % 40)
  have hout : out₂.toList = [first.toNat / 40, first.toNat % 40] := by
    rw [hout₂, hout₁]
    rfl
  rw [hpush₁]
  show Implements buf _ (Op.lift (out₁.push (first.toNat % 40)) >>= _) _
  rw [hpush₂]
  refine Implements.untilDone (by decide) (fun _ _ h ↦ arcLoop_implements h) ?_ hout
  intro ns bs ns' bs' h
  obtain ⟨v, hv, -⟩ := takeArc_eq_some h
  exact length_of_takeSubIdFrom hv

/-- **`ber_get_oid`.** -/
theorem berGetOid_implements (max : ℕ) :
    Implements buf (fun out ns ↦ out.toList = ns) (berGetOid buf max) (takeOid max) := by
  refine berGetTlv_implements.bind fun t x ht ↦ ?_
  by_cases htag : x.1 ≠ berTagOid
  · rw [if_pos (Or.inl (ht.1 ▸ htag)), if_pos htag]
    exact Cursor.implements_fail
  · rw [if_neg htag]
    by_cases hclen : t.clen = 0
    · have hnil : x.2 = [] := List.length_eq_zero_iff.1 (ht.clen_eq ▸ hclen)
      rw [if_pos (Or.inr hclen), hnil]
      exact Cursor.implements_fail
    · rw [if_neg (not_or.2 ⟨ht.1 ▸ htag, hclen⟩)]
      have hlt : t.inner.p < t.inner.stop := by
        show t.content < t.content + t.clen
        omega
      have hwithin := (oidArcs_implementsAt max ht.2.1 hlt).within ht.2.2
      have hparser : (Parser.within x.2 (takeArcs max) : Parser (List ℕ)) =
          match arcsOfContent max x.2 with
          | none => Parser.fail
          | some arcs => pure arcs := by
        funext bs
        rw [Parser.within, takeArcs_eq]
        rcases arcsOfContent max x.2 with - | arcs
        · rfl
        · rfl
      rw [← hparser]
      exact hwithin

end ThinEdge.Snmp
