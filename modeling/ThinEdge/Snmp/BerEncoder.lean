import ThinEdge.Lib.Backward
import ThinEdge.Lib.Ber

/-!
# The backward BER encoder

The encoder half of `lib/snmp/snmp_ber.c`. `struct ber_enc` is the writer of
`ThinEdge.Lib.Backward`, and every `ber_put_*` function prepends one element in its canonical
encoding, `Writer.puts` of a `Ber.tlv`: also when the buffer overflows in the middle of it. For
`ber_wrap` that is `berWrap_puts`.

The bytes the source builds with masks and shifts are written here as arithmetic on numbers.
-/

namespace ThinEdge.Snmp

open Backward Ber

/-- `BER_TAG_INTEGER`. -/
def berTagInteger : UInt8 := 0x02

/-- `BER_TAG_OCTET_STR`. -/
def berTagOctetStr : UInt8 := 0x04

/-- `BER_TAG_NULL`. -/
def berTagNull : UInt8 := 0x05

/-- `BER_TAG_OID`. -/
def berTagOid : UInt8 := 0x06

/-- `BER_TAG_SEQUENCE`. -/
def berTagSequence : UInt8 := 0x30

/-! ### The encoder -/

/-- `struct ber_enc`. -/
abbrev BerEnc := Backward.Writer

/-- `ber_enc_init`: over `cap` bytes of memory from `base` on. -/
def berEncInit (mem : ℕ → UInt8) (base cap : ℕ) : BerEnc := ⟨mem, base, cap, cap, false⟩

/-- `ber_enc_length`. -/
def berEncLength (e : BerEnc) : ℕ := if e.overflow then 0 else e.cap - e.pos

/-- The encoded message: the `cap - pos` bytes from `ber_enc_data` on. -/
def berEncData (e : BerEnc) : List UInt8 := e.written

/-- `ber_mark`. -/
def berMark (e : BerEnc) : ℕ := e.pos

/-- `put_len`. The loop collects the bytes of the length in `tmp`, low byte first. -/
def putLen (e : BerEnc) (len : ℕ) : BerEnc :=
  if len < 0x80 then e.put (UInt8.ofNat len)
  else
    let tmp := leBytes len
    (tmp.foldl Writer.put e).put (UInt8.ofNat (0x80 + tmp.length))

/-- `ber_wrap`. -/
def berWrap (e : BerEnc) (mark : ℕ) (tag : UInt8) : BerEnc := (putLen e (mark - e.pos)).put tag

/-- The loop of `ber_put_int`. The arithmetic shift of the source is a division that rounds down,
and the pattern `0xFFFFFFFF` is -1. -/
def intTmp (u : ℤ) : List UInt8 :=
  if (u / 256 = 0 ∧ (twosByte u).toNat < 0x80) ∨ (u / 256 = -1 ∧ 0x80 ≤ (twosByte u).toNat) then
    [twosByte u]
  else twosByte u :: intTmp (u / 256)
termination_by u.natAbs
decreasing_by
  have := toNat_twosByte u
  omega

/-- `ber_put_int`. -/
def berPutInt (e : BerEnc) (v : Int32) : BerEnc :=
  let tmp := intTmp v.toInt
  (putLen (tmp.foldl Writer.put e) tmp.length).put berTagInteger

/-- The first loop of `ber_put_uint_tagged`: all bytes of the number, and one at least. -/
def uintTmp (v : ℕ) : List UInt8 :=
  if v / 256 = 0 then [UInt8.ofNat v] else UInt8.ofNat (v % 256) :: uintTmp (v / 256)
termination_by v

/-- `ber_put_uint_tagged`: a zero byte goes in front where the top bit is set. -/
def berPutUintTagged (e : BerEnc) (v : UInt32) (tag : UInt8) : BerEnc :=
  let tmp := uintTmp v.toNat
  let tmp := if (tmp.getLast?.getD 0).toNat < 0x80 then tmp else tmp ++ [0]
  (putLen (tmp.foldl Writer.put e) tmp.length).put tag

/-- `ber_put_octet_str`. -/
def berPutOctetStr (e : BerEnc) (s : List UInt8) : BerEnc :=
  (putLen (e.puts s) s.length).put berTagOctetStr

/-- The base-128 groups of one sub-identifier, low group first, as `ber_put_oid` collects them. -/
def subIdTmp (v : ℕ) : List UInt8 := UInt8.ofNat (v % 128) :: contGroups (v / 128)

/-- The content of an OID with the arcs `subids`, written from the last one back. The first byte
combines the first two arcs, in 32 bits. -/
def putOidContent (e : BerEnc) : List ℕ → BerEnc
  | a :: b :: arcs =>
    let e := arcs.foldr (fun v e ↦ (subIdTmp v).foldl Writer.put e) e
    (subIdTmp ((a * 40 + b) % 2 ^ 32)).foldl Writer.put e
  | _ => e

/-- `ber_put_oid`: fewer than two arcs are written as an empty OID. -/
def berPutOid (e : BerEnc) (subids : List ℕ) : BerEnc :=
  if subids.length < 2 then (putLen e 0).put berTagOid
  else
    let e' := putOidContent e subids
    (putLen e' (e.pos - e'.pos)).put berTagOid

/-- `ber_put_null`. -/
def berPutNull (e : BerEnc) : BerEnc := (e.put 0).put berTagNull

/-- `ber_put_exception`. -/
def berPutException (e : BerEnc) (excTag : UInt8) : BerEnc := (e.put 0).put excTag

/-! ### What it writes -/

variable {e : BerEnc}

/-- `put_len` writes the length field of the tree. -/
theorem putLen_eq (e : BerEnc) (len : ℕ) : putLen e len = e.puts (lenField len) := by
  rw [putLen, lenField]
  split
  · rfl
  · show (List.foldl Writer.put e (leBytes len)).put _ = _
    rw [Writer.puts_cons, Writer.foldl_put]

/-- **Wrapping**: the header counts the content written since the mark. When some of the content did
not fit, no header is written either. -/
theorem berWrap_puts (e : BerEnc) (content : List UInt8) (tag : UInt8) :
    berWrap (e.puts content) (berMark e) tag = e.puts (tlv tag content) := by
  rw [berWrap, putLen_eq, tlv, Writer.puts_cons, Writer.puts_append]
  by_cases hov : (e.puts content).overflow = true
  · rw [Writer.puts_of_overflow hov, Writer.puts_of_overflow hov]
  · have hfits : ¬ (e.overflow = true ∨ e.pos < content.length) := mt Writer.overflow_puts_iff.2 hov
    rw [not_or, Bool.not_eq_true, Nat.not_lt] at hfits
    obtain ⟨-, hpos⟩ := Writer.puts_of_fits hfits.1 hfits.2
    have hlen : berMark e - (e.puts content).pos = content.length := by
      rw [berMark]
      omega
    rw [hlen]

/-- An element whose content is written first and whose length is known. -/
theorem put_putLen_puts (e : BerEnc) (content : List UInt8) (tag : UInt8) :
    (putLen (e.puts content) content.length).put tag = e.puts (tlv tag content) := by
  rw [putLen_eq, tlv, Writer.puts_cons, Writer.puts_append]

/-- The octets `ber_put_int` collects, least significant first. -/
theorem intTmp_eq (v : ℤ) : intTmp v = twosLe v := by
  fun_induction intTmp v with
  | case1 v h =>
    have := toNat_twosByte v
    rw [twosLe_of_small (by omega)]
  | case2 v h ih =>
    have := toNat_twosByte v
    rw [twosLe_of_large (by omega), ih]

/-- An INTEGER in as few octets as its sign allows. -/
theorem berPutInt_eq (e : BerEnc) (v : Int32) :
    berPutInt e v = e.puts (tlv berTagInteger (twosBytes v.toInt)) := by
  rw [← put_putLen_puts, berPutInt, twosBytes, intTmp_eq, Writer.foldl_put, List.length_reverse]

/-- The zero octet keeps an unsigned value from reading as negative. -/
theorem getLast?_uintTmp_append (v : ℕ) :
    (if ((uintTmp v).getLast?.getD 0).toNat < 0x80 then uintTmp v else uintTmp v ++ [0]) =
      twosLe v := by
  fun_induction uintTmp v with
  | case1 v h =>
    have hbyte : (UInt8.ofNat v).toNat = v := toNat_ofNat_of_lt (by omega)
    rw [List.getLast?_singleton, Option.getD_some, hbyte, twosLe_natCast]
    split
    · rfl
    · rw [if_pos (by omega)]
      rfl
  | case2 v h ih =>
    have hne : uintTmp (v / 256) ≠ [] := by
      rw [uintTmp]
      split
      · exact List.cons_ne_nil _ _
      · exact List.cons_ne_nil _ _
    have hlast : (UInt8.ofNat (v % 256) :: uintTmp (v / 256)).getLast? =
        (uintTmp (v / 256)).getLast? := by
      obtain ⟨b, bs, hbs⟩ := List.exists_cons_of_ne_nil hne
      rw [hbs, List.getLast?_cons_cons]
    rw [hlast, twosLe_natCast, if_neg (show ¬ v < 128 by omega), if_neg (show ¬ v < 256 by omega),
      ← ih]
    split
    · rfl
    · rfl

/-- Counters, gauges and ticks are integers under their own tags. -/
theorem berPutUintTagged_eq (e : BerEnc) (v : UInt32) (tag : UInt8) :
    berPutUintTagged e v tag = e.puts (tlv tag (twosBytes v.toNat)) := by
  rw [← put_putLen_puts, berPutUintTagged]
  show (putLen (List.foldl Writer.put e (if _ then _ else _))
    (List.length (if _ then _ else _))).put tag = _
  rw [getLast?_uintTmp_append, Writer.foldl_put, twosBytes, List.length_reverse]

theorem berPutOctetStr_eq (e : BerEnc) (s : List UInt8) :
    berPutOctetStr e s = e.puts (tlv berTagOctetStr s) :=
  put_putLen_puts e s berTagOctetStr

theorem berPutNull_eq (e : BerEnc) : berPutNull e = e.puts (tlv berTagNull []) := rfl

theorem berPutException_eq (e : BerEnc) (excTag : UInt8) :
    berPutException e excTag = e.puts (tlv excTag []) := rfl

/-- The content bytes of an OID. -/
def oidContent : List ℕ → List UInt8
  | a :: b :: arcs => group ((a * 40 + b) % 2 ^ 32) ++ arcs.flatMap group
  | _ => []

/-- One arc is written as its base-128 group, most significant first. -/
theorem foldl_put_subIdTmp (e : BerEnc) (v : ℕ) :
    (subIdTmp v).foldl Writer.put e = e.puts (group v) := by
  rw [Writer.foldl_put, subIdTmp, List.reverse_cons, group]

/-- The octets of an OID, its first two arcs in one subidentifier. -/
theorem putOidContent_eq (e : BerEnc) (subids : List ℕ) :
    putOidContent e subids = e.puts (oidContent subids) := by
  rcases subids with - | ⟨a, - | ⟨b, arcs⟩⟩
  · rfl
  · rfl
  · have hfold : ∀ arcs : List ℕ, arcs.foldr (fun v e ↦ (subIdTmp v).foldl Writer.put e) e =
        e.puts (arcs.flatMap group) := by
      intro arcs
      induction arcs with
      | nil => rfl
      | cons v arcs ih =>
        rw [List.foldr_cons, ih, foldl_put_subIdTmp, List.flatMap_cons, Writer.puts_append]
    show (subIdTmp ((a * 40 + b) % 2 ^ 32)).foldl Writer.put (arcs.foldr _ e) = _
    rw [hfold, foldl_put_subIdTmp, oidContent, Writer.puts_append]

/-- The encoder writes an OID as the tree has it. -/
theorem berPutOid_eq (e : BerEnc) (subids : List ℕ) :
    berPutOid e subids = e.puts (tlv berTagOid (oidContent subids)) := by
  rw [berPutOid]
  split
  · next h =>
    have hnil : oidContent subids = [] := by
      rcases subids with - | ⟨a, - | ⟨b, arcs⟩⟩
      · rfl
      · rfl
      · exact absurd h (by simp)
    rw [hnil, putLen_eq, tlv]
    rfl
  · show (putLen (putOidContent e subids) (e.pos - (putOidContent e subids).pos)).put berTagOid = _
    rw [putOidContent_eq]
    exact berWrap_puts e (oidContent subids) berTagOid

end ThinEdge.Snmp
