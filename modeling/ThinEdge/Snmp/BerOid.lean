import ThinEdge.Snmp.BerTree

/-!
# The OID codec

`ber_put_oid` and `ber_get_oid` on every valid OID and on every content the decoder accepts. The
encoder writes the combined first two arcs in base 128 like any other sub-identifier; the decoder
takes one byte for them. So they agree as long as that number fits one byte and the others fit 32
bits, and `oidCodec_iff` says that they agree on nothing else.
-/

namespace ThinEdge.Snmp

open Ber
open Cursor (Table Parser)

/-- A valid OID of 32-bit arcs. -/
structure ValidOid where
  first : ℕ
  second : ℕ
  others : List ℕ
  first_le : first ≤ 2
  second_lt : first < 2 → second < 40
  combined_lt : first = 2 → 80 + second < 2 ^ 32
  length_le : others.length + 2 ≤ berMaxOidLen
  others_lt : ∀ n ∈ others, n < 2 ^ 32

/-- The arcs of an OID. -/
def ValidOid.arcs (o : ValidOid) : List ℕ := o.first :: o.second :: o.others

/-- Whatever `ber_put_oid` writes for the arcs, `ber_get_oid` reads as the same arcs. -/
def OidReadsBack (arcs : List ℕ) : Prop :=
  ∀ (mem : ℕ → UInt8) (base cap : ℕ),
    let e := berPutOid (berEncInit mem base cap) arcs
    e.overflow = false → ∃ out d,
      berGetOid (berEncData e) berMaxOidLen (berDecInit 0 (berEncLength e)) = .ok (some out, d) ∧
        out.toList = arcs

/-- `ber_get_oid` reads the content, in an element with its length in the fewest bytes, as `out`. -/
def OidAccepted (content : List UInt8) (out : Table ℕ berMaxOidLen) : Prop :=
  let buf := tlv berTagOid content
  ∃ d, berGetOid buf berMaxOidLen (berDecInit 0 buf.length) = .ok (some out, d)

/-- Content in its fewest bytes that `ber_get_oid` accepts. -/
structure AcceptedOid where
  content : List UInt8
  length_lt : content.length < 2 ^ 32
  minimal : MinimalFrom true content
  accepted : ∃ out, OidAccepted content out

/-- Whatever `ber_put_oid` writes for the arcs read from the content is the same element again. -/
def OidReencodes (content : List UInt8) : Prop :=
  ∀ out, OidAccepted content out → ∀ (mem : ℕ → UInt8) (base cap : ℕ),
    let e := berPutOid (berEncInit mem base cap) out.toList
    e.overflow = false → berEncData e = tlv berTagOid content

/-- The sub-identifiers after the first byte. -/
def laterSubIds (content : List UInt8) : List ℕ := (subIds content.tail).getD []

/-- The first byte ends its sub-identifier, and the others fit 32 bits. -/
def OidInReach (content : List UInt8) : Prop :=
  (∀ b ∈ content.head?, b.toNat < 128) ∧ ∀ n ∈ laterSubIds content, n < 2 ^ 32

/-! ### Reading back -/

theorem length_flatMap_group_le {ns : List ℕ} (h : ∀ n ∈ ns, n < 2 ^ 32) :
    (ns.flatMap group).length ≤ 5 * ns.length := by
  induction ns with
  | nil => exact Nat.le_refl _
  | cons n ns ih =>
    have hn : n < 128 ^ (4 + 1) := Nat.lt_of_lt_of_le (h n List.mem_cons_self) (by decide)
    have hlen := length_group_le hn
    have := ih fun m hm ↦ h m (List.mem_cons_of_mem n hm)
    rw [List.flatMap_cons, List.length_append, List.length_cons]
    omega

theorem length_oidContent_le {arcs : List ℕ} (hlen : arcs.length ≤ berMaxOidLen)
    (h : ∀ n ∈ arcs.drop 2, n < 2 ^ 32) : (oidContent arcs).length < 2 ^ 32 := by
  rcases arcs with - | ⟨a, - | ⟨b, arcs⟩⟩
  · exact Nat.two_pow_pos 32
  · exact Nat.two_pow_pos 32
  · have hfirst : (a * 40 + b) % 2 ^ 32 < 128 ^ (4 + 1) :=
      Nat.lt_of_lt_of_le (Nat.mod_lt _ (by decide)) (by decide)
    have h1 := length_group_le hfirst
    have h2 := length_flatMap_group_le h
    have h3 : arcs.length + 2 ≤ 32 := hlen
    rw [oidContent, List.length_append]
    show (group ((a * 40 + b) % 2 ^ 32)).length + (arcs.flatMap group).length < 2 ^ 32
    have h4 : (arcs.flatMap group).length ≤ 5 * arcs.length := h2
    omega

/-- What `ber_get_oid` makes of an element. -/
theorem berGetOid_tlv {content : List UInt8} (h : content.length < 2 ^ 32)
    (arcs : List ℕ) :
    (∃ out, OidAccepted content out ∧ out.toList = arcs) ↔
      arcsOfContent berMaxOidLen content = some arcs := by
  have htake := @takeOid_tlv berMaxOidLen content h []
  rw [List.append_nil] at htake
  simp only [OidAccepted]
  rw [berDecInit_whole rfl]
  obtain ⟨d, ⟨hread, hnone⟩ | ⟨out, arcs', rest, hread, hsome, hout, -⟩⟩ :=
    (@berGetOid_implements (tlv berTagOid content) berMaxOidLen).whole
  · rw [htake] at hnone
    rw [hread]
    rcases harcs : arcsOfContent berMaxOidLen content with - | arcs'
    · simp
    · simp [harcs] at hnone
  · rw [htake] at hsome
    rw [hread]
    rcases harcs : arcsOfContent berMaxOidLen content with - | arcs''
    · simp [harcs] at hsome
    · simp only [harcs, Option.some.injEq, Prod.mk.injEq] at hsome
      obtain ⟨rfl, -⟩ := hsome
      constructor
      · rintro ⟨out', ⟨d', heq⟩, rfl⟩
        obtain ⟨rfl, -⟩ : out = out' ∧ d = d' := by simpa using heq
        rw [hout]
      · intro heq
        exact ⟨out, ⟨d, rfl⟩, hout.trans (Option.some.inj heq)⟩

/-- The data that an OID with room leaves. -/
theorem berPutOid_data (mem : ℕ → UInt8) (base : ℕ) {cap : ℕ} (arcs : List ℕ)
    (h : (berPutOid (berEncInit mem base cap) arcs).overflow = false) :
    berEncData (berPutOid (berEncInit mem base cap) arcs) = tlv berTagOid (oidContent arcs) ∧
      berEncLength (berPutOid (berEncInit mem base cap) arcs) =
        (tlv berTagOid (oidContent arcs)).length := by
  have hemit : berPutOid (berEncInit mem base cap) arcs =
      (BerTree.oid arcs).emit (berEncInit mem base cap) := rfl
  rw [hemit] at h ⊢
  have hov : ¬ ((BerTree.oid arcs).emit (berEncInit mem base cap)).overflow = true := by
    rw [h]
    exact Bool.false_ne_true
  obtain ⟨-, hdata, -⟩ := written_emit _ mem base hov
  refine ⟨hdata, ?_⟩
  rw [berEncLength, h, ← Backward.Writer.length_written]
  exact congrArg List.length hdata

/-- There is a buffer that an OID fits. -/
theorem berPutOid_fits (arcs : List ℕ) :
    (berPutOid (berEncInit (fun _ ↦ 0) 0 (tlv berTagOid (oidContent arcs)).length)
      arcs).overflow = false := by
  rw [berPutOid_eq]
  exact (Backward.Writer.puts_of_fits rfl (Nat.le_refl _)).1

theorem oidReadsBack_iff {arcs : List ℕ} (h : (oidContent arcs).length < 2 ^ 32) :
    OidReadsBack arcs ↔ arcsOfContent berMaxOidLen (oidContent arcs) = some arcs := by
  rw [← berGetOid_tlv h]
  constructor
  · intro hread
    have hfits := berPutOid_fits arcs
    obtain ⟨out, d, hget, hout⟩ := hread _ _ _ hfits
    obtain ⟨hdata, hlen⟩ := berPutOid_data _ _ arcs hfits
    rw [hdata, hlen] at hget
    exact ⟨out, ⟨d, hget⟩, hout⟩
  · rintro ⟨out, ⟨d, hget⟩, hout⟩ mem base cap e hov
    obtain ⟨hdata, hlen⟩ := berPutOid_data mem base arcs hov
    refine ⟨out, d, ?_, hout⟩
    show berGetOid (berEncData (berPutOid (berEncInit mem base cap) arcs)) berMaxOidLen
      (berDecInit 0 (berEncLength (berPutOid (berEncInit mem base cap) arcs))) = _
    rw [hdata, hlen]
    exact hget

/-- What the decoder makes of content it accepts: two arcs of the first byte, one of each later
sub-identifier. -/
theorem arcsOfContent_eq_some {max : ℕ} {arcs : List ℕ} {content : List UInt8}
    (h : arcsOfContent max content = some arcs) :
    ∃ b bs ns, content = b :: bs ∧ subIds bs = some ns ∧
      arcs = b.toNat / 40 :: b.toNat % 40 :: ns.map (· % 2 ^ 32) := by
  rcases content with - | ⟨b, bs⟩
  · exact absurd h (by simp [arcsOfContent])
  · rw [arcsOfContent] at h
    rcases hns : subIds bs with - | ns
    · rw [hns] at h
      exact absurd h (by simp)
    · simp only [hns] at h
      split at h
      · exact ⟨b, bs, ns, rfl, hns, (Option.some.inj h).symm⟩
      · exact absurd h (by simp)

/-- The second arc that the decoder finds is below 40. -/
theorem second_lt_of_arcsOfContent {max a b : ℕ} {arcs : List ℕ} {content : List UInt8}
    (h : arcsOfContent max content = some (a :: b :: arcs)) : b < 40 := by
  obtain ⟨c, cs, ns, -, -, harcs⟩ := arcsOfContent_eq_some h
  obtain ⟨-, hrest⟩ := List.cons.inj harcs
  obtain ⟨rfl, -⟩ := List.cons.inj hrest
  exact Nat.mod_lt _ (by decide)

theorem lt_of_mem_arcsOfContent {max : ℕ} {arcs : List ℕ} {content : List UInt8}
    (h : arcsOfContent max content = some arcs) : ∀ n ∈ arcs.drop 2, n < 2 ^ 32 := by
  obtain ⟨b, bs, ns, -, -, rfl⟩ := arcsOfContent_eq_some h
  intro n hn
  obtain ⟨m, -, rfl⟩ := List.mem_map.1 hn
  exact Nat.mod_lt m (by decide)

/-- **Valid OIDs read back when the second arc is below 40.** -/
theorem ValidOid.oidReadsBack_iff (o : ValidOid) : OidReadsBack o.arcs ↔ o.second < 40 := by
  have hlen : (oidContent o.arcs).length < 2 ^ 32 :=
    length_oidContent_le o.length_le o.others_lt
  have hfirst := o.first_le
  rw [ThinEdge.Snmp.oidReadsBack_iff hlen]
  constructor
  · exact second_lt_of_arcsOfContent
  · intro hsecond
    exact arcsOfContent_oidContent hsecond (by omega) o.length_le o.others_lt

/-! ### Encoding again -/

/-- Bytes are never a 1 in front of the encoding of the numbers read from them: the 1 would be one
number more. -/
theorem ne_one_cons {bs : List UInt8} {ns : List ℕ} (h : subIds bs = some ns) :
    bs ≠ 1 :: (ns.map (· % 2 ^ 32)).flatMap group := by
  intro heq
  have hscan : subIds bs = (subIds ((ns.map (· % 2 ^ 32)).flatMap group)).map (1 :: ·) := by
    rw [heq]
    exact scan_cons_of_lt (by decide)
  rw [h, subIds_flatMap_group] at hscan
  have hlen := congrArg List.length (Option.some.inj hscan)
  rw [List.length_cons, List.length_map] at hlen
  omega

/-- A first byte with the continuation bit is written as two. -/
theorem group_of_byte {n : ℕ} (h : 128 ≤ n) (h' : n < 256) :
    group n = [129, UInt8.ofNat (n % 128)] := by
  have hdiv : n / 128 = 1 := by omega
  rw [group, hdiv, contGroups_of_ne_zero (by decide), contGroups_zero]
  rfl

/-- **When the content comes back**: the bytes of the arcs read from minimal content. -/
theorem oidContent_arcsOfContent {content : List UInt8} {arcs : List ℕ}
    (hmin : MinimalFrom true content) (h : arcsOfContent berMaxOidLen content = some arcs) :
    oidContent arcs = content ↔ OidInReach content := by
  obtain ⟨b, bs, ns, rfl, hns, harcs⟩ := arcsOfContent_eq_some h
  have hb := b.toNat_lt
  have hfirst : (b.toNat / 40 * 40 + b.toNat % 40) % 2 ^ 32 = b.toNat := by omega
  have hreach : OidInReach (b :: bs) ↔ b.toNat < 128 ∧ ∀ n ∈ ns, n < 2 ^ 32 := by
    simp [OidInReach, laterSubIds, hns]
  rw [harcs, oidContent, hfirst, hreach]
  by_cases hlow : b.toNat < 128
  · have hbs : ns.flatMap group = bs := by
      obtain ⟨-, hrest⟩ := hmin
      rw [decide_eq_true hlow] at hrest
      exact flatMap_group_of_subIds hrest hns
    rw [group_of_lt hlow, UInt8.ofNat_toNat, List.singleton_append, List.cons.injEq]
    constructor
    · rintro ⟨-, heq⟩
      -- equal bytes are read as equal numbers
      have hmod : ns.map (· % 2 ^ 32) = ns := by
        have hread := congrArg subIds heq
        rw [subIds_flatMap_group, hns] at hread
        exact Option.some.inj hread
      refine ⟨hlow, fun n hn ↦ ?_⟩
      rw [← hmod] at hn
      obtain ⟨m, -, rfl⟩ := List.mem_map.1 hn
      exact Nat.mod_lt m (by decide)
    · rintro ⟨-, hlt⟩
      have hmod : ns.map (· % 2 ^ 32) = ns := by
        rw [List.map_congr_left fun n hn ↦ Nat.mod_eq_of_lt (hlt n hn), List.map_id']
      rw [hmod]
      exact ⟨rfl, hbs⟩
  · -- a first byte from 128 on is written as two bytes, the second of them 1
    refine iff_of_false (fun heq ↦ ?_) fun hall ↦ hlow hall.1
    rw [group_of_byte (Nat.not_lt.1 hlow) hb, List.cons_append] at heq
    obtain ⟨hhead, htail⟩ := List.cons.inj heq
    rw [← hhead] at htail
    exact ne_one_cons hns htail.symm

/-- Minimal content that is accepted is reproduced when it is in reach. -/
theorem oidReencodes_iff {content : List UInt8} {out : Table ℕ berMaxOidLen}
    (hlen : content.length < 2 ^ 32) (hmin : MinimalFrom true content)
    (haccepted : OidAccepted content out) : OidReencodes content ↔ OidInReach content := by
  have harcs := (berGetOid_tlv hlen out.toList).1 ⟨out, haccepted, rfl⟩
  rw [← oidContent_arcsOfContent hmin harcs]
  constructor
  · intro hre
    have hfits := berPutOid_fits out.toList
    have hdata := hre out haccepted _ _ _ hfits
    rw [(berPutOid_data _ _ out.toList hfits).1] at hdata
    have htake := congrArg (fun bs ↦ takeTlv (bs ++ [])) hdata
    have hle : (oidContent out.toList).length < 2 ^ 32 :=
      length_oidContent_le out.length_le (lt_of_mem_arcsOfContent harcs)
    simp only [takeTlv_tlv _ hle, takeTlv_tlv _ hlen, Option.some.injEq, Prod.mk.injEq] at htake
    exact htake.1.2
  · intro heq out' haccepted' mem base cap e hov
    have harcs' := (berGetOid_tlv hlen out'.toList).1 ⟨out', haccepted', rfl⟩
    have hout : out'.toList = out.toList := Option.some.inj (harcs'.symm.trans harcs)
    show berEncData (berPutOid (berEncInit mem base cap) out'.toList) = _
    rw [(berPutOid_data mem base out'.toList hov).1, hout, heq]

/-- **When the OID codec agrees with itself.** A valid OID reads back when its second arc is below
40, and minimal content that the decoder accepts is written again as it was when its first byte
stands alone and no sub-identifier exceeds 32 bits. -/
theorem oidCodec_iff (o : ValidOid) (c : AcceptedOid) :
    (OidReadsBack o.arcs ↔ o.second < 40) ∧ (OidReencodes c.content ↔ OidInReach c.content) := by
  obtain ⟨out, haccepted⟩ := c.accepted
  exact ⟨o.oidReadsBack_iff, oidReencodes_iff c.length_lt c.minimal haccepted⟩

/-- An OID of the joint arc with a second arc above 39. -/
def jointOid : ValidOid := ⟨2, 999, [3], by decide, by decide, by decide, by decide, by decide⟩

/-- The decoder reads what was written for 2.999.3 as 3.16.55.3, and writes the name 2.999.3 that a
request carries as another one. -/
theorem not_oidReadsBack_jointOid :
    ¬ OidReadsBack jointOid.arcs ∧ MinimalFrom true [0x88, 0x37, 0x03] ∧
      (∃ out, OidAccepted [0x88, 0x37, 0x03] out) ∧ ¬ OidReencodes [0x88, 0x37, 0x03] := by
  have haccepted : ∃ out, OidAccepted [0x88, 0x37, 0x03] out ∧ out.toList = [3, 16, 55, 3] :=
    (berGetOid_tlv (by decide) _).2 (by decide)
  obtain ⟨out, hout, harcs⟩ := haccepted
  refine ⟨fun h ↦ ?_, by decide, ⟨out, hout⟩, fun h ↦ ?_⟩
  · have := (oidReadsBack_iff (by decide +kernel)).1 h
    revert this
    decide +kernel
  · have := h out hout _ _ _ (berPutOid_fits out.toList)
    rw [(berPutOid_data _ _ _ (berPutOid_fits out.toList)).1, harcs] at this
    revert this
    decide +kernel

end ThinEdge.Snmp
