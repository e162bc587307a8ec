import Mathlib.Data.List.Infix
import Mathlib.Tactic.IntervalCases
import ThinEdge.Snmp.TrapWire
import ThinEdge.Soak.Poll

/-!
# The soak recorder's log of the traps

`PyTrapListener` in `scripts/soak/poll.py` does not decode a datagram. It looks for the encoding of
one of three OIDs anywhere in it, and for an INTEGER of one byte at its end. `trapLog_eq` says that
this is enough for what the firmware sends: in every run of the trap originator the recorder's line
for each datagram names the notification that it was built for, and the interface.

What has to be shown is that no other part of the message looks like the encoding of a notification
that the recorder tries first. Most bytes of the message cannot be part of such an encoding, and
what stands between two of them is too short for one (`not_infix_append_cons`). The community is the
exception, and an assumption is made about it.
-/

namespace ThinEdge.Soak

open Ber (beValue twosBytes twosValue leBytes lenField)
open Snmp
open Transition

/-! ### The recorder -/

/-- `PyTrapListener.NAMES`, in its order. -/
def trapNames : List (List ℕ × String) :=
  [([1, 3, 6, 1, 6, 3, 1, 1, 5, 1], "coldStart"), ([1, 3, 6, 1, 6, 3, 1, 1, 5, 3], "linkDown"),
    ([1, 3, 6, 1, 6, 3, 1, 1, 5, 4], "linkUp")]

/-- `enc in data`, where `enc` is what `_oid` makes of a name. -/
def holdsOid (data : List UInt8) (name : List ℕ) : Bool :=
  match oid name with
  | .ok enc => enc <:+: data
  | .error _ => false

/-- The first name whose OID the datagram holds. -/
def trapName (data : List UInt8) : String :=
  ((trapNames.find? fun n ↦ holdsOid data n.1).map (·.2)).getD "trap"

/-- The group of `re.search(rb"\x02\x01(.)$", data, re.S)`: a `$` also stands before a line feed at
the end. -/
def lastIndex : List UInt8 → Option UInt8
  | [] => none
  | x :: xs =>
    match x :: xs with
    | [0x02, 0x01, n] => some n
    | [0x02, 0x01, n, 0x0A] => some n
    | _ => lastIndex xs

/-- What `_run` writes about a datagram behind the time and the sender. -/
def trapLine (data : List UInt8) : String :=
  let name := trapName data
  let ifx :=
    match lastIndex data with
    | some n => if name ≠ "coldStart" then " ifIndex=" ++ toString n.toNat else ""
    | none => ""
  name ++ ifx ++ " len=" ++ toString data.length

/-! ### Where an encoding can stand -/

variable {p a b : List UInt8} {x : UInt8}

theorem not_infix_of_length (h : a.length < p.length) : ¬ p <:+: a := fun hin ↦
  Nat.not_lt.2 hin.length_le h

/-- What does not stand on either side of a byte that is not part of it stands nowhere. -/
theorem not_infix_append_cons (hx : x ∉ p) (ha : ¬ p <:+: a) (hb : ¬ p <:+: b) :
    ¬ p <:+: a ++ x :: b := by
  rw [List.infix_append_iff]
  rintro (h | h | ⟨l₁, l₂, rfl, h₁, h₂⟩)
  · exact ha h
  · rcases List.infix_cons_iff.1 h with h | h
    · cases p with
      | nil => exact ha List.nil_infix
      | cons y p =>
        obtain ⟨rfl, -⟩ := List.cons_prefix_cons.1 h
        exact hx List.mem_cons_self
    · exact hb h
  · cases l₂ with
    | nil =>
      rw [List.append_nil] at ha
      exact ha h₁.isInfix
    | cons y l₂ =>
      obtain ⟨rfl, -⟩ := List.cons_prefix_cons.1 h₂
      exact hx (List.mem_append_right l₁ List.mem_cons_self)

/-- An element that neither holds an encoding nor can be part of one. -/
structure Barred (p : List UInt8) (t : BerTree) : Prop where
  tag : t.element.1 ∉ p
  content : ¬ p <:+: lenField t.element.2.length ++ t.element.2

/-- An encoding does not reach across barred elements. -/
theorem not_infix_encAll {ts : List BerTree} (ha : ¬ p <:+: a) (hts : ∀ t ∈ ts, Barred p t) :
    ¬ p <:+: a ++ BerTree.encAll ts := by
  induction ts generalizing a with
  | nil =>
    rw [BerTree.encAll, List.append_nil]
    exact ha
  | cons t ts ih =>
    obtain ⟨htag, hcontent⟩ := hts t List.mem_cons_self
    have hrest := ih hcontent fun t' ht' ↦ hts t' (List.mem_cons_of_mem t ht')
    rw [BerTree.encAll, enc_eq_tlv, Ber.tlv, List.cons_append]
    exact not_infix_append_cons htag ha hrest

theorem Barred.not_infix {t : BerTree} (h : Barred p t) (hp : p ≠ []) : ¬ p <:+: t.enc := by
  have hnil : ¬ p <:+: [] := fun hin ↦ hp (List.eq_nil_of_infix_nil hin)
  rw [enc_eq_tlv, Ber.tlv, ← List.nil_append (_ :: _)]
  exact not_infix_append_cons h.tag hnil h.content

theorem length_lenField_le {c : List UInt8} (h : c.length < 2 ^ 32) :
    (lenField c.length).length ≤ 5 := by
  have := Ber.length_tlv_le 0 h
  rw [Ber.length_tlv] at this
  omega

theorem lastIndex_append (pre : List UInt8) (n : UInt8) :
    lastIndex (pre ++ [0x02, 0x01, n]) = some n := by
  induction pre with
  | nil => rfl
  | cons y pre ih =>
    rw [List.cons_append, lastIndex]
    split
    · next h => exact absurd (congrArg List.length h) (by simp)
    · next h =>
      have hnil : pre = [] := by
        have := congrArg List.length h
        simpa using this
      rw [hnil] at h
      exact absurd (List.cons.inj (List.cons.inj h).2).1 (by decide)
    · exact ih

theorem infix_enc_of_mem {t : BerTree} {tag : UInt8} {children : List BerTree}
    (h : t ∈ children) : t.enc <:+: (BerTree.node tag children).enc := by
  have hall : t.enc <:+: BerTree.encAll children := by
    induction children with
    | nil => exact absurd h List.not_mem_nil
    | cons t' children ih =>
      rw [BerTree.encAll]
      rcases List.mem_cons.1 h with rfl | h
      · exact List.infix_append_left
      · exact (ih h).trans List.infix_append_right
  exact hall.trans ((List.suffix_append _ _).trans (List.suffix_cons tag _)).isInfix

theorem suffix_enc_of_last (t : BerTree) (tag : UInt8) (children : List BerTree) :
    t.enc <:+ (BerTree.node tag (children ++ [t])).enc := by
  have hall : t.enc <:+ BerTree.encAll (children ++ [t]) := by
    induction children with
    | nil => exact (List.append_nil t.enc).symm ▸ List.suffix_refl _
    | cons t' children ih =>
      rw [List.cons_append, BerTree.encAll]
      exact ih.trans (List.suffix_append _ _)
  exact hall.trans ((List.suffix_append _ _).trans (List.suffix_cons tag _))

/-- A name of short arcs is written arc by arc. -/
theorem enc_oid_of_lt {a b : ℕ} {arcs : List ℕ} (hab : a * 40 + b < 128)
    (harcs : ∀ v ∈ arcs, v < 128) (hlen : arcs.length < 127) :
    (BerTree.oid (a :: b :: arcs)).enc =
      0x06 :: UInt8.ofNat (arcs.length + 1) :: UInt8.ofNat (a * 40 + b) ::
        arcs.map UInt8.ofNat := by
  have hgroups : arcs.flatMap Ber.group = arcs.map UInt8.ofNat := by
    rw [List.map_eq_flatMap]
    exact List.flatMap_congr fun v hv ↦ Ber.group_of_lt (harcs v hv)
  have hcontent : oidContent (a :: b :: arcs) =
      UInt8.ofNat (a * 40 + b) :: arcs.map UInt8.ofNat := by
    rw [oidContent, Nat.mod_eq_of_lt (by omega), Ber.group_of_lt hab, hgroups,
      List.singleton_append]
  rw [BerTree.enc, Ber.tlv, hcontent, List.length_cons, List.length_map, lenField,
    if_pos (by omega)]
  rfl

/-- A small number is written in one byte. -/
theorem enc_int_of_lt {n : ℕ} (h : n < 128) :
    (BerTree.int (Int32.ofNat n)).enc = [0x02, 0x01, UInt8.ofNat n] := by
  have hvalue : (Int32.ofNat n).toInt = n := Int32.toInt_ofNat_of_lt (by omega)
  rw [BerTree.enc, Ber.tlv, hvalue, twosBytes, Ber.twosLe_natCast, if_pos h]
  rfl

/-! ### The firmware's traps -/

variable {cfg : TrapConfig} {trapOid : List ℕ} {ifindex : ℕ} {uptime : UInt32} {id : Int32}

/-- A trap holds the OID of its notification. -/
theorem infix_trapTree (cfg : TrapConfig) (trapOid : List ℕ) (ifindex : ℕ) (uptime : UInt32)
    (id : Int32) :
    (BerTree.oid trapOid).enc <:+: (trapTree cfg trapOid ifindex uptime id).enc := by
  have hvb : (BerTree.oid trapOid).enc <:+:
      (BerTree.node berTagSequence [.oid oidTrapoid, .oid trapOid]).enc :=
    infix_enc_of_mem (by simp)
  rw [trapTree]
  refine List.IsInfix.trans ?_ (infix_enc_of_mem (List.mem_cons_of_mem _
    (List.mem_cons_of_mem _ List.mem_cons_self)))
  refine List.IsInfix.trans ?_ (infix_enc_of_mem (List.mem_cons_of_mem _
    (List.mem_cons_of_mem _ (List.mem_cons_of_mem _ List.mem_cons_self))))
  exact hvb.trans (infix_enc_of_mem (List.mem_append_left _ (List.mem_cons_of_mem _
    List.mem_cons_self)))

/-- The encodings that the recorder must not find where they do not stand for the notification. -/
def Quiet (p : List UInt8) : Prop :=
  p = (BerTree.oid oidColdstart).enc ∨ p = (BerTree.oid oidLinkdown).enc

/-- The encodings of the notifications differ in their last byte. -/
theorem enc_notifications :
    (BerTree.oid oidColdstart).enc =
        [0x06, 0x09, 0x2B, 0x06, 0x01, 0x06, 0x03, 0x01, 0x01, 0x05, 0x01] ∧
      (BerTree.oid oidLinkdown).enc =
        [0x06, 0x09, 0x2B, 0x06, 0x01, 0x06, 0x03, 0x01, 0x01, 0x05, 0x03] ∧
      (BerTree.oid oidLinkup).enc =
        [0x06, 0x09, 0x2B, 0x06, 0x01, 0x06, 0x03, 0x01, 0x01, 0x05, 0x04] :=
  ⟨enc_oid_of_lt (by decide) (by decide) (by decide),
    enc_oid_of_lt (by decide) (by decide) (by decide),
    enc_oid_of_lt (by decide) (by decide) (by decide)⟩

theorem enc_notifications_ne :
    (BerTree.oid oidColdstart).enc ≠ (BerTree.oid oidLinkdown).enc ∧
      (BerTree.oid oidColdstart).enc ≠ (BerTree.oid oidLinkup).enc ∧
      (BerTree.oid oidLinkdown).enc ≠ (BerTree.oid oidLinkup).enc := by
  obtain ⟨hcold, hdown, hup⟩ := enc_notifications
  rw [hcold, hdown, hup]
  decide

theorem Quiet.length_eq (h : Quiet p) : p.length = 11 := by
  rcases h with rfl | rfl
  · rw [enc_notifications.1]
    rfl
  · rw [enc_notifications.2.1]
    rfl

/-- The bytes that an encoding of a notification does not have. -/
theorem Quiet.not_mem (h : Quiet p) (hx : x ∈ [0x00, 0x02, 0x04, 0x30, 0x43, 0xA7]) : x ∉ p := by
  rcases h with rfl | rfl
  · rw [enc_notifications.1]
    revert x
    decide +kernel
  · rw [enc_notifications.2.1]
    revert x
    decide +kernel

theorem Quiet.barred_int (h : Quiet p) (v : Int32) : Barred p (.int v) := by
  have hlen := length_enc_int_le v
  refine ⟨@Quiet.not_mem p 0x02 h (by decide), not_infix_of_length ?_⟩
  rw [enc_eq_tlv, Ber.length_tlv] at hlen
  rw [h.length_eq, List.length_append]
  omega

theorem Quiet.barred_node (h : Quiet p) {tag : UInt8} {ts : List BerTree}
    (htag : tag ∈ [0x00, 0x02, 0x04, 0x30, 0x43, 0xA7])
    (hlen : (BerTree.encAll ts).length < 2 ^ 32) (hts : ∀ t ∈ ts, Barred p t) :
    Barred p (.node tag ts) := by
  have hshort := length_lenField_le hlen
  refine ⟨h.not_mem htag, not_infix_encAll (not_infix_of_length ?_) hts⟩
  rw [h.length_eq]
  show (lenField (BerTree.encAll ts).length).length < 11
  omega

/-- The varbind of the uptime: what precedes its first byte that can be no part of a notification is
short. -/
theorem Quiet.barred_uptime (h : Quiet p) (v : UInt32) :
    Barred p (.node berTagSequence [.oid oidSysuptime, .uint berTagTimeticks v]) := by
  have hv := v.toNat_lt
  have hbytes : (twosBytes v.toNat).length ≤ 4 + 1 :=
    Ber.length_twosBytes_le (by omega) (by omega)
  have hvalue : Barred p (.uint berTagTimeticks v) := by
    refine ⟨@Quiet.not_mem p 0x43 h (by decide), not_infix_of_length ?_⟩
    have hshort := @length_lenField_le (twosBytes v.toNat) (by omega)
    rw [h.length_eq, List.length_append]
    show (lenField (twosBytes v.toNat).length).length + (twosBytes v.toNat).length < 11
    omega
  have hname : (BerTree.oid oidSysuptime).enc =
      [0x06, 0x08, 0x2B, 0x06, 0x01] ++ 0x02 :: ([0x01, 0x01, 0x03] ++ [0x00]) :=
    enc_oid_of_lt (by decide) (by decide) (by decide)
  have hlen : (BerTree.encAll [.oid oidSysuptime, .uint berTagTimeticks v]).length < 2 ^ 32 := by
    have huint := @Ber.length_tlv_le berTagTimeticks (twosBytes v.toNat) (by omega)
    rw [length_encAll_cons, hname, length_encAll_cons]
    show 10 + ((Ber.tlv berTagTimeticks (twosBytes v.toNat)).length + 0) < 2 ^ 32
    omega
  have hshort := length_lenField_le hlen
  -- two bytes that no searched name holds cut the varbind into pieces shorter than one
  have hcut : lenField (BerTree.encAll [.oid oidSysuptime, .uint berTagTimeticks v]).length ++
        BerTree.encAll [.oid oidSysuptime, .uint berTagTimeticks v] =
      (lenField (BerTree.encAll [.oid oidSysuptime, .uint berTagTimeticks v]).length ++
          [0x06, 0x08, 0x2B, 0x06, 0x01]) ++
        0x02 :: ([0x01, 0x01, 0x03] ++
          0x00 :: ([] ++ BerTree.encAll [.uint berTagTimeticks v])) := by
    rw [BerTree.encAll, hname]
    simp
  have hfirst : ¬ p <:+: lenField (BerTree.encAll
      [.oid oidSysuptime, .uint berTagTimeticks v]).length ++ [0x06, 0x08, 0x2B, 0x06, 0x01] := by
    refine not_infix_of_length ?_
    rw [h.length_eq, List.length_append]
    exact Nat.lt_succ_of_le (Nat.add_le_add_right hshort 5)
  have hthree : ¬ p <:+: [0x01, 0x01, 0x03] := not_infix_of_length (by rw [h.length_eq]; decide)
  have hnil : ¬ p <:+: [] := not_infix_of_length (by rw [h.length_eq]; decide)
  refine ⟨@Quiet.not_mem p 0x30 h (by decide), ?_⟩
  show ¬ p <:+: lenField (BerTree.encAll _).length ++ BerTree.encAll _
  rw [hcut]
  exact not_infix_append_cons (h.not_mem (by decide)) hfirst
    (not_infix_append_cons (h.not_mem (by decide)) hthree
      (not_infix_encAll hnil (by simpa using hvalue)))

/-- The varbind of the notification holds no other one. -/
theorem Quiet.barred_notification (h : Quiet p) (hne : p ≠ (BerTree.oid trapOid).enc)
    (hoid : trapOid = oidColdstart ∨ trapOid = oidLinkdown ∨ trapOid = oidLinkup) :
    Barred p (.node berTagSequence [.oid oidTrapoid, .oid trapOid]) := by
  refine ⟨@Quiet.not_mem p 0x30 h (by decide), ?_⟩
  obtain ⟨hcold, hdown, hup⟩ := enc_notifications
  have hname : (BerTree.oid oidTrapoid).enc =
      [0x06, 0x0A, 0x2B, 0x06, 0x01, 0x06, 0x03, 0x01, 0x01, 0x04, 0x01, 0x00] :=
    enc_oid_of_lt (by decide) (by decide) (by decide)
  show ¬ p <:+: lenField (BerTree.encAll _).length ++ BerTree.encAll _
  rw [BerTree.encAll, BerTree.encAll, BerTree.encAll, hname]
  rcases hoid with rfl | rfl | rfl
  · rcases h with rfl | rfl
    · exact absurd rfl hne
    · rw [hdown, hcold]
      decide
  · rcases h with rfl | rfl
    · rw [hdown, hcold]
      decide
    · exact absurd rfl hne
  · rcases h with rfl | rfl
    · rw [hup, hcold]
      decide
    · rw [hup, hdown]
      decide

/-- The varbind of the `ifIndex` holds none. -/
theorem Quiet.barred_ifindex (h : Quiet p) {n : ℕ} (hle : n ≤ 8) :
    Barred p (.node berTagSequence [.oid (oidIfindexCol ++ [n]), .int (Int32.ofNat n)]) := by
  refine ⟨@Quiet.not_mem p 0x30 h (by decide), ?_⟩
  have harcs : ∀ v ∈ [6, 1, 2, 1, 2, 2, 1, 1] ++ [n], v < 128 :=
    List.forall_mem_append.2 ⟨by decide, List.forall_mem_singleton.2 (by omega)⟩
  have hname : (BerTree.oid (oidIfindexCol ++ [n])).enc =
      [0x06, 0x0A, 0x2B, 0x06, 0x01, 0x02, 0x01, 0x02, 0x02, 0x01, 0x01, UInt8.ofNat n] :=
    enc_oid_of_lt (by decide) harcs (by simp)
  show ¬ p <:+: lenField (BerTree.encAll _).length ++ BerTree.encAll _
  rw [BerTree.encAll, BerTree.encAll, BerTree.encAll, hname, enc_int_of_lt (by omega)]
  rcases h with rfl | rfl
  · rw [enc_notifications.1]
    interval_cases n <;> decide
  · rw [enc_notifications.2.1]
    interval_cases n <;> decide

/-- The trap of a link ends with its `ifIndex`. -/
theorem lastIndex_trapTree (hpos : 0 < ifindex) (hle : ifindex ≤ 8) :
    lastIndex (trapTree cfg trapOid ifindex uptime id).enc = some (UInt8.ofNat ifindex) := by
  have hint := @enc_int_of_lt ifindex (by omega)
  have hsuffix : (BerTree.int (Int32.ofNat ifindex)).enc <:+
      (trapTree cfg trapOid ifindex uptime id).enc := by
    rw [trapTree, if_pos hpos]
    refine List.IsSuffix.trans ?_ (suffix_enc_of_last _ _ [.int 1, .octets cfg.community])
    refine List.IsSuffix.trans ?_ (suffix_enc_of_last _ _ [.int id, .int 0, .int 0])
    refine List.IsSuffix.trans ?_ (suffix_enc_of_last _ _ [_, _])
    exact suffix_enc_of_last _ _ [_]
  obtain ⟨pre, hpre⟩ := hsuffix
  rw [← hpre, hint, lastIndex_append]

/-- **A trap holds no notification but its own**, of those that the recorder looks for before it. -/
theorem not_infix_trapTree (h : Quiet p)
    (hcomm : ¬ p <:+: lenField cfg.community.length ++ cfg.community)
    (hnote : Notification cfg trapOid ifindex) (hne : p ≠ (BerTree.oid trapOid).enc)
    (hfits : (trapTree cfg trapOid ifindex uptime id).enc.length < 2 ^ 32) :
    ¬ p <:+: (trapTree cfg trapOid ifindex uptime id).enc := by
  have hcontent : ∀ {tag : UInt8} {ts : List BerTree},
      (BerTree.node tag ts).enc.length < 2 ^ 32 → (BerTree.encAll ts).length < 2 ^ 32 :=
    fun hlt ↦ (length_content_le_tlv _ _).trans_lt hlt
  have hoid : trapOid = oidColdstart ∨ trapOid = oidLinkdown ∨ trapOid = oidLinkup := by
    rcases hnote with ⟨h, -⟩ | ⟨h | h, -⟩
    · exact Or.inl h
    · exact Or.inr (Or.inl h)
    · exact Or.inr (Or.inr h)
  have hindex : ifindex ≤ 8 := by
    rcases hnote with ⟨-, rfl⟩ | ⟨-, -, hle⟩
    · exact Nat.zero_le 8
    · exact hle.trans (nif_le cfg)
  -- from the varbinds outwards, every element is barred
  rw [trapTree] at hfits ⊢
  have hpdu := length_enc_lt_of_mem hfits (List.mem_cons_of_mem _ (List.mem_cons_of_mem _
    List.mem_cons_self))
  have hlist := length_enc_lt_of_mem hpdu (List.mem_cons_of_mem _ (List.mem_cons_of_mem _
    (List.mem_cons_of_mem _ List.mem_cons_self)))
  have hvbs := h.barred_node (show berTagSequence ∈ _ by decide) (hcontent hlist) fun t ht ↦ by
    rcases List.mem_append.1 ht with ht | ht
    · rcases List.mem_cons.1 ht with rfl | ht
      · exact h.barred_uptime uptime
      · rw [List.mem_singleton.1 ht]
        exact h.barred_notification hne hoid
    · split at ht
      · rw [List.mem_singleton.1 ht]
        exact h.barred_ifindex hindex
      · exact absurd ht List.not_mem_nil
  have hfields := h.barred_node (show snmpPduTrapV2 ∈ _ by decide) (hcontent hpdu) fun t ht ↦ by
    simp only [List.mem_cons, List.not_mem_nil, or_false] at ht
    rcases ht with rfl | rfl | rfl | rfl
    · exact h.barred_int id
    · exact h.barred_int 0
    · exact h.barred_int 0
    · exact hvbs
  have hmsg := h.barred_node (show berTagSequence ∈ _ by decide) (hcontent hfits) fun t ht ↦ by
    simp only [List.mem_cons, List.not_mem_nil, or_false] at ht
    rcases ht with rfl | rfl | rfl
    · exact h.barred_int 1
    · exact ⟨@Quiet.not_mem p 0x04 h (by decide), hcomm⟩
    · exact hfields
  exact hmsg.not_infix fun hnil ↦ absurd h.length_eq (by rw [hnil]; decide)

/-! ### The log of a run -/

/-- The line that says what a datagram was built for. -/
def notificationLine (d : SentTrap) : String :=
  (if d.trapOid = oidColdstart then "coldStart"
    else if d.trapOid = oidLinkdown then "linkDown" ++ " ifIndex=" ++ toString d.ifindex
    else "linkUp" ++ " ifIndex=" ++ toString d.ifindex) ++
  " len=" ++ toString d.datagram.length

/-- The community does not look like a notification. -/
def PlainCommunity (community : List UInt8) : Prop :=
  ∀ name ∈ [oidColdstart, oidLinkdown],
    ¬ (BerTree.oid name).enc <:+: lenField community.length ++ community

instance : DecidablePred PlainCommunity := fun _ ↦ inferInstanceAs (Decidable (∀ _ ∈ _, _))

theorem holdsOid_eq (data : List UInt8) {name : List ℕ}
    (h : name ∈ [oidColdstart, oidLinkdown, oidLinkup]) :
    holdsOid data name = decide ((BerTree.oid name).enc <:+: data) := by
  have henc : oid name = .ok (BerTree.oid name).enc := by
    simp only [List.mem_cons, List.not_mem_nil, or_false] at h
    rcases h with rfl | rfl | rfl
    · exact oid_eq (by decide) (by decide +kernel)
    · exact oid_eq (by decide) (by decide +kernel)
    · exact oid_eq (by decide) (by decide +kernel)
  rw [holdsOid, henc]

theorem trapName_eq (data : List UInt8) :
    trapName data =
      if (BerTree.oid oidColdstart).enc <:+: data then "coldStart"
      else if (BerTree.oid oidLinkdown).enc <:+: data then "linkDown"
      else if (BerTree.oid oidLinkup).enc <:+: data then "linkUp"
      else "trap" := by
  have hnames : trapNames =
      [(oidColdstart, "coldStart"), (oidLinkdown, "linkDown"), (oidLinkup, "linkUp")] := rfl
  rw [trapName, hnames, List.find?_cons, holdsOid_eq data (by simp), List.find?_cons,
    holdsOid_eq data (by simp), List.find?_cons, holdsOid_eq data (by simp), List.find?_nil]
  by_cases hcold : (BerTree.oid oidColdstart).enc <:+: data
  · simp [hcold]
  · by_cases hdown : (BerTree.oid oidLinkdown).enc <:+: data
    · simp [hcold, hdown]
    · by_cases hup : (BerTree.oid oidLinkup).enc <:+: data
      · simp [hcold, hdown, hup]
      · simp [hcold, hdown, hup]

/-- **The recorder's line is right** for everything that is built for a notification. -/
theorem trapLine_eq {d : SentTrap} (hcomm : PlainCommunity cfg.community)
    (hnote : Notification cfg d.trapOid d.ifindex) (hfits : d.datagram.length ≤ trapBufSize)
    (hdata : d.datagram = (trapTree cfg d.trapOid d.ifindex uptime id).enc) :
    trapLine d.datagram = notificationLine d := by
  have hlt : trapBufSize < 2 ^ 32 := by decide
  -- the search finds the name of the trap, and no other one of the three
  have hown : (BerTree.oid d.trapOid).enc <:+: d.datagram := by
    rw [hdata]
    exact infix_trapTree cfg d.trapOid d.ifindex uptime id
  have hother : ∀ name ∈ [oidColdstart, oidLinkdown],
      (BerTree.oid name).enc ≠ (BerTree.oid d.trapOid).enc →
      ¬ (BerTree.oid name).enc <:+: d.datagram := by
    intro name hname hne
    have hquiet : Quiet (BerTree.oid name).enc := by
      simp only [List.mem_cons, List.not_mem_nil, or_false] at hname
      rcases hname with rfl | rfl
      · exact Or.inl rfl
      · exact Or.inr rfl
    rw [hdata] at hfits ⊢
    exact not_infix_trapTree hquiet (hcomm name hname) hnote hne (by omega)
  have hlink : 0 < d.ifindex → d.ifindex ≤ cfg.nif →
      lastIndex d.datagram = some (UInt8.ofNat d.ifindex) ∧
        (UInt8.ofNat d.ifindex).toNat = d.ifindex := by
    intro hpos hle
    have hle' := hle.trans (nif_le cfg)
    rw [hdata]
    exact ⟨lastIndex_trapTree hpos hle', Ber.toNat_ofNat_of_lt (by omega)⟩
  rw [trapLine, trapName_eq, notificationLine]
  rcases hnote with ⟨hoid, -⟩ | ⟨hoid | hoid, hpos, hle⟩
  · -- coldStart is searched for first
    rw [hoid] at hown ⊢
    rw [if_pos hown, if_pos rfl]
    cases lastIndex d.datagram with
    | none => rfl
    | some n => rfl
  · obtain ⟨hlast, hn⟩ := hlink hpos hle
    rw [hoid] at hown hother ⊢
    rw [if_neg (hother oidColdstart (by simp) enc_notifications_ne.1), if_pos hown, hlast,
      if_neg (by decide), if_pos rfl]
    dsimp only
    rw [if_pos (by decide), hn]
    simp only [String.append_assoc]
  · obtain ⟨hlast, hn⟩ := hlink hpos hle
    rw [hoid] at hown hother ⊢
    rw [if_neg (hother oidColdstart (by simp) enc_notifications_ne.2.1),
      if_neg (hother oidLinkdown (by simp) enc_notifications_ne.2.2), if_pos hown, hlast,
      if_neg (by decide), if_neg (by decide)]
    dsimp only
    rw [if_pos (by decide), hn]
    simp only [String.append_assoc]

/-- **The log of a run says what was sent.** Whatever happens to the interfaces, the manager's name
and the socket, the recorder's lines for the datagrams that were sent are those of the notifications
they were built for, in their order. -/
theorem trapLog_eq (cfg : TrapConfig) (hcomm : PlainCommunity cfg.community)
    (as : List TrapAction) :
    Throughout (trapStep cfg)
      (fun r ↦ r.sent.map (fun d ↦ trapLine (d.datagram.take 2048)) = r.sent.map notificationLine)
      TrapRun.boot as := by
  refine (wiredInv_throughout cfg as).imp fun r hinv ↦ List.map_congr_left fun d hd ↦ ?_
  obtain ⟨hnote, hfits, uptime, id, hdata⟩ := hinv.of_mem_sent hd
  have hlt : trapBufSize < 2048 := by decide
  rw [List.take_of_length_le (by omega)]
  exact trapLine_eq hcomm hnote hfits hdata

/-- The run in which interface 0 goes down and comes back. -/
theorem trapLog_eq_linkFlapRun :
    Throughout (trapStep trapDefaults)
      (fun r ↦ r.sent.map (fun d ↦ trapLine (d.datagram.take 2048)) = r.sent.map notificationLine)
      TrapRun.boot linkFlapRun :=
  trapLog_eq trapDefaults (by decide +kernel) linkFlapRun

end ThinEdge.Soak
