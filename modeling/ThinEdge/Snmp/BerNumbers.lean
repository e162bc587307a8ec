import ThinEdge.Snmp.Answer
import ThinEdge.Snmp.BerOid

/-!
# The numbers the decoder reads

`ber_get_int` and `ber_get_oid` against the numbers that the content denotes: the integer in two's
complement, and the base-128 numbers after the first byte of an OID. Both results have 32 bits. The
decoder takes an INTEGER of up to five bytes and a sub-identifier of any number of groups, and keeps
the low 32 bits of either, so that it reads another number than the one that was written.
`numbersKept_iff` says that this is all: the numbers are kept, and those that have no place in 32
bits refused, exactly where every number that reaches the last step fits.
-/

namespace ThinEdge.Snmp

open Ber
open Cursor (Parser Table)

variable {buf : List UInt8} {d : BerDec}

/-- The number has a place in an `int32_t`. -/
def FitsInt32 (v : ℤ) : Prop := -2 ^ 31 ≤ v ∧ v < 2 ^ 31

instance (v : ℤ) : Decidable (FitsInt32 v) := inferInstanceAs (Decidable (_ ∧ _))

/-- `ber_get_int` never changes the integer at `d`. -/
structure IntKept (buf : List UInt8) (d : BerDec) : Prop where
  /-- A result is the integer that the content denotes. -/
  exact : ∀ v d', berGetInt buf d = .ok (some v, d') → ∃ content rest,
    splitTlv 4 (d.rest buf) = some (berTagInteger, content, rest) ∧ v.toInt = twosValue content
  /-- An integer without a place in 32 bits is refused. -/
  refused : ∀ content rest, splitTlv 4 (d.rest buf) = some (berTagInteger, content, rest) →
    ¬ FitsInt32 (twosValue content) → ∃ d', berGetInt buf d = .ok (none, d')

/-- `ber_get_oid` never changes a sub-identifier of the OID at `d`. -/
structure ArcsKept (buf : List UInt8) (max : ℕ) (d : BerDec) : Prop where
  /-- The results after those of the first byte are the numbers that the content denotes. -/
  exact : ∀ out d', berGetOid buf max d = .ok (some out, d') → ∃ content rest,
    splitTlv 4 (d.rest buf) = some (berTagOid, content, rest) ∧
      subIds content.tail = some (out.toList.drop 2)
  /-- A sub-identifier without a place in 32 bits is refused. -/
  refused : ∀ content rest ns, splitTlv 4 (d.rest buf) = some (berTagOid, content, rest) →
    subIds content.tail = some ns → ¬ (∀ n ∈ ns, n < 2 ^ 32) →
    ∃ d', berGetOid buf max d = .ok (none, d')

/-- An INTEGER of five bytes at `d` denotes a number that four would hold. -/
def IntFits (buf : List UInt8) (d : BerDec) : Prop :=
  ∀ content rest, splitTlv 4 (d.rest buf) = some (berTagInteger, content, rest) →
    content.length = 5 → FitsInt32 (twosValue content)

/-- The sub-identifiers of an OID at `d` fit 32 bits, if there are no more of them than the table
holds. -/
def ArcsFit (buf : List UInt8) (max : ℕ) (d : BerDec) : Prop :=
  ∀ content rest ns, splitTlv 4 (d.rest buf) = some (berTagOid, content, rest) →
    subIds content.tail = some ns → ns.length + 2 ≤ max → ∀ n ∈ ns, n < 2 ^ 32

theorem takeTlv_eq_some {bs rest content : List UInt8} {tag : UInt8} :
    takeTlv bs = some ((tag, content), rest) ↔ splitTlv 4 bs = some (tag, content, rest) := by
  rw [takeTlv]
  rcases splitTlv 4 bs with - | ⟨t, c, r⟩
  · simp
  · simp [and_assoc]

/-! ### Integers -/

theorem takeInt_eq_some {v : Int32} {bs rest : List UInt8} :
    takeInt bs = some (v, rest) ↔
      ∃ content, splitTlv 4 bs = some (berTagInteger, content, rest) ∧ 0 < content.length ∧
        content.length ≤ 5 ∧ v = Int32.ofInt (twosValue content) := by
  rw [takeInt, Parser.bind_eq_some]
  constructor
  · rintro ⟨⟨tag, content⟩, bs₁, htlv, hrest⟩
    split at hrest
    · exact absurd hrest (by simp [Parser.fail])
    · next hok =>
      obtain ⟨rfl, rfl⟩ := Prod.mk.inj (Option.some.inj hrest)
      simp only [not_or, not_not] at hok
      obtain ⟨rfl, hpos, hlen⟩ := hok
      exact ⟨content, takeTlv_eq_some.1 htlv, Nat.pos_of_ne_zero hpos, Nat.not_lt.1 hlen, rfl⟩
  · rintro ⟨content, hsplit, hpos, hlen, rfl⟩
    refine ⟨(berTagInteger, content), rest, takeTlv_eq_some.2 hsplit, ?_⟩
    rw [if_neg (by simp only [ne_eq, not_true_eq_false, false_or, not_or]; omega)]
    rfl

/-- Four bytes always fit. -/
theorem fitsInt32_twosValue {content : List UInt8} (hpos : 0 < content.length)
    (hlen : content.length ≤ 4) : FitsInt32 (twosValue content) := by
  obtain ⟨k, hk⟩ := Nat.exists_eq_succ_of_ne_zero hpos.ne'
  have hbounds := twosValue_bounds hk
  have hpow : (256 : ℤ) ^ k ≤ 256 ^ 3 := pow_le_pow_right₀ (by decide) (by omega)
  rw [FitsInt32]
  omega

/-- Truncation to 32 bits keeps a number when it fits. -/
theorem toInt_ofInt_eq_iff (v : ℤ) : (Int32.ofInt v).toInt = v ↔ FitsInt32 v := by
  constructor
  · intro h
    have hlo := (Int32.ofInt v).le_toInt
    have hhi := (Int32.ofInt v).toInt_lt
    rw [h] at hlo hhi
    exact ⟨hlo, hhi⟩
  · rintro ⟨hlo, hhi⟩
    exact Int32.toInt_ofInt_of_le hlo hhi

theorem intKept_iff (hd : d.InRange buf) : IntKept buf d ↔ IntFits buf d := by
  constructor
  · intro hkept content rest hsplit hlen
    have htake := takeInt_eq_some.2 ⟨content, hsplit, by omega, by omega, rfl⟩
    obtain ⟨v, d', hget, rfl⟩ := berGetInt_implements.ok_of_some hd htake
    obtain ⟨content', rest', hsplit', hvalue⟩ := hkept.exact _ _ hget
    rw [hsplit] at hsplit'
    obtain ⟨rfl, rfl⟩ : content = content' ∧ rest = rest' := by simpa using hsplit'
    exact (toInt_ofInt_eq_iff _).1 hvalue
  · intro hfits
    have hexact : ∀ v d', berGetInt buf d = .ok (some v, d') → ∃ content rest,
        splitTlv 4 (d.rest buf) = some (berTagInteger, content, rest) ∧
          v.toInt = twosValue content := by
      intro v d' hget
      obtain ⟨_, htake, rfl⟩ := berGetInt_implements.some_of_ok hd hget
      obtain ⟨content, hsplit, hpos, hlen, rfl⟩ := takeInt_eq_some.1 htake
      refine ⟨content, _, hsplit, (toInt_ofInt_eq_iff _).2 ?_⟩
      rcases Nat.lt_or_eq_of_le hlen with hfour | hfive
      · exact fitsInt32_twosValue hpos (by omega)
      · exact hfits content _ hsplit hfive
    refine ⟨hexact, fun content rest hsplit hbig ↦ ?_⟩
    refine berGetInt_implements.none_of_forall hd fun v d' hget ↦ hbig ?_
    obtain ⟨content', rest', hsplit', hvalue⟩ := hexact v d' hget
    rw [hsplit] at hsplit'
    obtain ⟨rfl, rfl⟩ : content = content' ∧ rest = rest' := by simpa using hsplit'
    rw [← hvalue]
    exact ⟨v.le_toInt, v.toInt_lt⟩

/-! ### Sub-identifiers -/

theorem takeOid_eq_some {max : ℕ} {arcs : List ℕ} {bs rest : List UInt8} :
    takeOid max bs = some (arcs, rest) ↔
      ∃ content, splitTlv 4 bs = some (berTagOid, content, rest) ∧
        arcsOfContent max content = some arcs := by
  rw [takeOid, Parser.bind_eq_some]
  constructor
  · rintro ⟨⟨tag, content⟩, bs₁, htlv, hrest⟩
    split at hrest
    · exact absurd hrest (by simp [Parser.fail])
    · next htag =>
      obtain rfl := not_not.1 htag
      rcases harcs : arcsOfContent max content with - | ns
      · rw [harcs] at hrest
        exact absurd hrest (by simp [Parser.fail])
      · rw [harcs] at hrest
        obtain ⟨rfl, rfl⟩ := Prod.mk.inj (Option.some.inj hrest)
        exact ⟨content, takeTlv_eq_some.1 htlv, harcs⟩
  · rintro ⟨content, hsplit, harcs⟩
    refine ⟨(berTagOid, content), rest, takeTlv_eq_some.2 hsplit, ?_⟩
    rw [if_neg (by simp), harcs]
    rfl

/-- Reduction to 32 bits keeps numbers when they fit. -/
theorem map_mod_eq_iff (ns : List ℕ) :
    ns.map (· % 2 ^ 32) = ns ↔ ∀ n ∈ ns, n < 2 ^ 32 := by
  constructor
  · intro h n hn
    rw [← h] at hn
    obtain ⟨m, -, rfl⟩ := List.mem_map.1 hn
    exact Nat.mod_lt m (Nat.two_pow_pos 32)
  · intro h
    rw [List.map_congr_left fun n hn ↦ Nat.mod_eq_of_lt (h n hn), List.map_id']

/-- The entries of the table are 32-bit words. -/
theorem lt_of_berGetOid {max : ℕ} {out : Table ℕ max} {d' : BerDec} (hd : d.InRange buf)
    (h : berGetOid buf max d = .ok (some out, d')) : ∀ n ∈ out.toList.drop 2, n < 2 ^ 32 := by
  obtain ⟨arcs, htake, rfl⟩ := (berGetOid_implements max).some_of_ok hd h
  obtain ⟨content, -, harcs⟩ := takeOid_eq_some.1 htake
  exact lt_of_mem_arcsOfContent harcs

theorem arcsKept_iff {max : ℕ} (hd : d.InRange buf) : ArcsKept buf max d ↔ ArcsFit buf max d := by
  constructor
  · intro hkept content rest ns hsplit hns hlen
    rcases content with - | ⟨b, bs⟩
    · obtain rfl := Option.some.inj hns
      exact fun n hn ↦ absurd hn List.not_mem_nil
    · -- what is read is reduced mod `2 ^ 32`, and equals what was sent only below it
      have harcs : arcsOfContent max (b :: bs) =
          some (b.toNat / 40 :: b.toNat % 40 :: ns.map (· % 2 ^ 32)) := by
        rw [arcsOfContent, show subIds bs = some ns from hns]
        exact if_pos hlen
      obtain ⟨out, d', hget, hout⟩ :=
        (berGetOid_implements max).ok_of_some hd (takeOid_eq_some.2 ⟨_, hsplit, harcs⟩)
      obtain ⟨content', rest', hsplit', hsub⟩ := hkept.exact _ _ hget
      rw [hsplit] at hsplit'
      obtain ⟨rfl, rfl⟩ : b :: bs = content' ∧ rest = rest' := by simpa using hsplit'
      rw [hns, hout] at hsub
      exact (map_mod_eq_iff ns).1 (Option.some.inj hsub).symm
  · intro hfits
    have hexact : ∀ out d', berGetOid buf max d = .ok (some out, d') → ∃ content rest,
        splitTlv 4 (d.rest buf) = some (berTagOid, content, rest) ∧
          subIds content.tail = some (out.toList.drop 2) := by
      intro out d' hget
      obtain ⟨arcs, htake, hout⟩ := (berGetOid_implements max).some_of_ok hd hget
      obtain ⟨content, hsplit, harcs⟩ := takeOid_eq_some.1 htake
      obtain ⟨b, bs, ns, rfl, hns, rfl⟩ := arcsOfContent_eq_some harcs
      have hlen := out.length_le
      rw [hout, List.length_cons, List.length_cons, List.length_map] at hlen
      refine ⟨b :: bs, _, hsplit, ?_⟩
      rw [hout]
      show subIds bs = some (ns.map (· % 2 ^ 32))
      rw [(map_mod_eq_iff ns).2 (hfits _ _ ns hsplit hns hlen), hns]
    refine ⟨hexact, fun content rest ns hsplit hns hbig ↦ ?_⟩
    refine (berGetOid_implements max).none_of_forall hd fun out d' hget ↦ hbig ?_
    obtain ⟨content', rest', hsplit', hsub⟩ := hexact out d' hget
    rw [hsplit] at hsplit'
    obtain ⟨rfl, rfl⟩ : content = content' ∧ rest = rest' := by simpa using hsplit'
    rw [hns] at hsub
    rw [Option.some.inj hsub]
    exact lt_of_berGetOid hd hget

/-- **When the decoder keeps numbers.** It never changes the INTEGER or the OID it is at, and
refuses those that have no place in 32 bits, exactly if an INTEGER of five bytes there would have
fitted four, and no sub-identifier of an OID that the table has room for exceeds 32 bits. -/
theorem numbersKept_iff (max : ℕ) (hd : d.InRange buf) :
    (IntKept buf d ↔ IntFits buf d) ∧ (ArcsKept buf max d ↔ ArcsFit buf max d) :=
  ⟨intKept_iff hd, arcsKept_iff hd⟩

/-- The INTEGER 2 ^ 31 - 1 in five bytes. -/
def largestInt : List UInt8 := [0x02, 5, 0, 0x7F, 0xFF, 0xFF, 0xFF]

/-- The OID 1.3.6.1.4.1.(2 ^ 32 - 1). -/
def largestOid : List UInt8 := [0x06, 10, 0x2B, 6, 1, 4, 1, 0x8F, 0xFF, 0xFF, 0xFF, 0x7F]

/-- Both are kept. -/
theorem numbersKept_largest :
    IntKept largestInt ⟨0, 7⟩ ∧ ArcsKept largestOid berMaxOidLen ⟨0, 12⟩ := by
  constructor
  · refine (numbersKept_iff berMaxOidLen ⟨by decide, by decide⟩).1.2 fun content rest hsplit _ ↦ ?_
    have hread : splitTlv 4 (Cursor.rest largestInt ⟨0, 7⟩) =
        some (berTagInteger, [0, 0x7F, 0xFF, 0xFF, 0xFF], []) := by decide
    rw [hread] at hsplit
    obtain ⟨rfl, -⟩ : [0, 0x7F, 0xFF, 0xFF, 0xFF] = content ∧ [] = rest := by simpa using hsplit
    decide
  · refine (numbersKept_iff berMaxOidLen ⟨by decide, by decide⟩).2.2
      fun content rest ns hsplit hns _ ↦ ?_
    have hread : splitTlv 4 (Cursor.rest largestOid ⟨0, 12⟩) =
        some (berTagOid, [0x2B, 6, 1, 4, 1, 0x8F, 0xFF, 0xFF, 0xFF, 0x7F], []) := by decide
    rw [hread] at hsplit
    obtain ⟨rfl, -⟩ : [0x2B, 6, 1, 4, 1, 0x8F, 0xFF, 0xFF, 0xFF, 0x7F] = content ∧ [] = rest := by
      simpa using hsplit
    have harcs : subIds [6, 1, 4, 1, 0x8F, 0xFF, 0xFF, 0xFF, 0x7F] =
        some [6, 1, 4, 1, 4294967295] := by decide
    obtain rfl : [6, 1, 4, 1, 4294967295] = ns := Option.some.inj (harcs.symm.trans hns)
    decide

/-- The INTEGER 2 ^ 32 + 1. -/
def wideInt : List UInt8 := [0x02, 5, 1, 0, 0, 0, 1]

/-- The OID 1.3.(2 ^ 32 + 1). -/
def wideOid : List UInt8 := [0x06, 6, 0x2B, 0x90, 0x80, 0x80, 0x80, 0x01]

/-- A GET for 1.3.6 in a message of version 2 ^ 32 + 1. -/
def wideVersionGet : List UInt8 :=
  let pdu := tlv snmpPduGet ([0x02, 1, 7, 0x02, 1, 0, 0x02, 1, 0] ++
    tlv berTagSequence (tlv berTagSequence (tlv berTagOid [0x2B, 6] ++ [0x05, 0])))
  tlv berTagSequence (wideInt ++ tlv berTagOctetStr sampleCommunity ++ pdu)

/-- The decoder reads 2 ^ 32 + 1 as 1, as an INTEGER and as a sub-identifier, and so the agent takes
the message of version 2 ^ 32 + 1 for one of SNMPv2c. -/
theorem not_numbersKept_wide :
    ¬ IntKept wideInt ⟨0, 7⟩ ∧ ¬ ArcsKept wideOid berMaxOidLen ⟨0, 8⟩ ∧
      ∃ r, parseRequest defaultConfig sampleCommunity wideVersionGet = .ok (some r) := by
  have hint : Cursor.InRange wideInt ⟨0, 7⟩ := ⟨by decide, by decide⟩
  have hoid : Cursor.InRange wideOid ⟨0, 8⟩ := ⟨by decide, by decide⟩
  have hparses : parses wideVersionGet = true := by decide +kernel
  refine ⟨fun h ↦ ?_, fun h ↦ ?_, exists_of_parses hparses⟩
  · have hfits := (intKept_iff hint).1 h [1, 0, 0, 0, 1] [] (by decide) rfl
    revert hfits
    decide
  · have hfits := (arcsKept_iff hoid).1 h [0x2B, 0x90, 0x80, 0x80, 0x80, 0x01] [] [2 ^ 32 + 1]
      (by decide) (by decide) (by decide) (2 ^ 32 + 1) List.mem_cons_self
    exact absurd hfits (Nat.not_lt.2 (Nat.le_add_right _ _))

end ThinEdge.Snmp
