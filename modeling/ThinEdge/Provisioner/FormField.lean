import Mathlib.Data.List.TakeWhile
import ThinEdge.Lib.Bytes
import ThinEdge.Lib.CText

/-!
# The fields of a submitted form

`form_field` of `apps/wifi-provisioner/src/softap.c`, which decodes one field of a form while it has
room for the value, and the encoding `application/x-www-form-urlencoded` that it decodes.

`formField_text` rests on `decodeValue_append`: whatever the encoding, the value is read up to the
room there is, and no further.
-/

namespace ThinEdge.Provisioner

open Bytes CText

/-! ### form_field -/

/-- What follows the first separator. -/
def nextPair (p : List UInt8) : List UInt8 := (p.dropWhile (· ≠ '&'.toUInt8)).drop 1

theorem length_nextPair_lt (b : UInt8) (p : List UInt8) :
    (nextPair (b :: p)).length < (b :: p).length := by
  have hle := List.length_dropWhile_le (fun b ↦ decide (b ≠ '&'.toUInt8)) (b :: p)
  rw [nextPair, List.length_drop]
  rw [List.length_cons] at hle ⊢
  omega

/-- A text starts with the name of a field and an equals sign. -/
def IsField (key p : List UInt8) : Prop := key ++ ascii "=" <+: p

instance (key p : List UInt8) : Decidable (IsField key p) :=
  inferInstanceAs (Decidable (key ++ ascii "=" <+: p))

/-- The byte that two characters behind a percent sign stand for, and what follows them. -/
def escaped : List UInt8 → Option (UInt8 × List UInt8)
  | hi :: lo :: rest => some (UInt8.ofNat (strtol 16 [hi, lo] % 256).toNat, rest)
  | _ => none

/-- The inner loop of `form_field`, with room for so many bytes. -/
def decodeValue : ℕ → List UInt8 → List UInt8
  | 0, _ => []
  | _ + 1, [] => []
  | room + 1, b :: p =>
    if b = '&'.toUInt8 then []
    else if b = '+'.toUInt8 then ' '.toUInt8 :: decodeValue room p
    else
      match if b = '%'.toUInt8 then escaped p else none with
      | some (c, rest) => c :: decodeValue room rest
      | none => b :: decodeValue room p

/-- `form_field`, for a buffer of `cap` bytes. -/
def formField (key : List UInt8) (cap : ℕ) (p : List UInt8) : List UInt8 :=
  match p with
  | [] => []
  | b :: p =>
    if IsField key (b :: p) then decodeValue (cap - 1) ((b :: p).drop (key.length + 1))
    else formField key cap (nextPair (b :: p))
termination_by p.length
decreasing_by exact length_nextPair_lt b p

/-! ### The encoding -/

/-- A text encodes a value: bytes as they are, `+` for a space, or two hexadecimal digits. -/
inductive Encodes : List UInt8 → List UInt8 → Prop
  | nil : Encodes [] []
  | literal {b : UInt8} {value text : List UInt8} :
      b ≠ '&'.toUInt8 → b ≠ '+'.toUInt8 → b ≠ '%'.toUInt8 →
      Encodes value text → Encodes (b :: value) (b :: text)
  | plus {value text : List UInt8} :
      Encodes value text → Encodes (' '.toUInt8 :: value) ('+'.toUInt8 :: text)
  | percent {hi lo b : UInt8} {x y : ℕ} {value text : List UInt8} :
      digitIn 16 hi = some x → digitIn 16 lo = some y → b.toNat = x * 16 + y →
      Encodes value text → Encodes (b :: value) ('%'.toUInt8 :: hi :: lo :: text)

/-- A text without special bytes encodes itself. -/
theorem encodes_self {value : List UInt8} (h : ∀ b ∈ value, b ≠ '&'.toUInt8 ∧ b ≠ '+'.toUInt8 ∧
    b ≠ '%'.toUInt8) : Encodes value value := by
  induction value with
  | nil => exact .nil
  | cons b value ih =>
    obtain ⟨hamp, hplus, hpercent⟩ := h b List.mem_cons_self
    exact .literal hamp hplus hpercent (ih fun c hc ↦ h c (List.mem_cons_of_mem b hc))

/-- Fields with separators between them. -/
def joinFields : List (List UInt8) → List UInt8
  | [] => []
  | [f] => f
  | f :: g :: fs => f ++ '&'.toUInt8 :: joinFields (g :: fs)

/-- The value is that of the only field of the name, in some encoding. -/
def Submits (key value : List UInt8) (fields : List (List UInt8)) : Prop :=
  ∃ text, Encodes value text ∧ fields.filter (IsField key ·) = [key ++ ascii "=" ++ text]

theorem formField_of_isField {key p : List UInt8} {cap : ℕ} (h : IsField key p) :
    formField key cap p = decodeValue (cap - 1) (p.drop (key.length + 1)) := by
  cases p with
  | nil => exact absurd (List.append_eq_nil_iff.1 (List.prefix_nil.1 h)).2 (by decide)
  | cons b p => rw [formField, if_pos h]

theorem formField_of_not_isField {key p : List UInt8} {cap : ℕ} (h : ¬ IsField key p) :
    formField key cap p = formField key cap (nextPair p) := by
  cases p with
  | nil => rfl
  | cons b p =>
    rw [formField, if_neg h]

/-! ### What is decoded -/

/-- A value that is followed by nothing or by another field. -/
theorem decodeValue_append {value text rest : List UInt8} (h : Encodes value text)
    (hrest : rest = [] ∨ ∃ more, rest = '&'.toUInt8 :: more) (room : ℕ) :
    decodeValue room (text ++ rest) = value.take room := by
  induction h generalizing room with
  | nil =>
    rw [List.nil_append, List.take_nil]
    cases room with
    | zero => rw [decodeValue]
    | succ room =>
      obtain rfl | ⟨more, rfl⟩ := hrest
      · rw [decodeValue]
      · rw [decodeValue, if_pos rfl]
  | literal hamp hplus hpercent _ ih =>
    cases room with
    | zero => rw [decodeValue, List.take_zero]
    | succ room =>
      rw [List.cons_append, decodeValue, if_neg hamp, if_neg hplus, if_neg hpercent,
        List.take_succ_cons, ← ih room]
  | plus _ ih =>
    cases room with
    | zero => rw [decodeValue, List.take_zero]
    | succ room =>
      rw [List.cons_append, decodeValue, if_neg (by decide), if_pos rfl, List.take_succ_cons,
        ← ih room]
  | @percent hi lo b x y value text hhi hlo hb _ ih =>
    cases room with
    | zero => rw [decodeValue, List.take_zero]
    | succ room =>
      have hbyte : UInt8.ofNat (strtol 16 [hi, lo] % 256).toNat = b := by
        rw [strtol_pair hhi hlo, ← hb]
        have hlt := b.toNat_lt
        rw [Int.emod_eq_of_lt (by omega) (by omega), Int.toNat_natCast, UInt8.ofNat_toNat]
      rw [List.cons_append, List.cons_append, List.cons_append, decodeValue, if_neg (by decide),
        if_neg (by decide), if_pos rfl, escaped, hbyte, List.take_succ_cons, ← ih room]

theorem joinFields_cons (f : List UInt8) (fs : List (List UInt8)) :
    ∃ rest, joinFields (f :: fs) = f ++ rest ∧
      (fs = [] ∧ rest = [] ∨ rest = '&'.toUInt8 :: joinFields fs) := by
  cases fs with
  | nil => exact ⟨[], (List.append_nil _).symm, Or.inl ⟨rfl, rfl⟩⟩
  | cons g fs => exact ⟨_, rfl, Or.inr rfl⟩

/-- The name of a field does not reach into the next. -/
theorem isField_append {key f rest : List UInt8} (hkey : '&'.toUInt8 ∉ key)
    (hrest : rest = [] ∨ ∃ more, rest = '&'.toUInt8 :: more) :
    IsField key (f ++ rest) ↔ IsField key f := by
  refine ⟨fun h ↦ ?_, fun h ↦ h.trans (List.prefix_append _ _)⟩
  obtain rfl | ⟨more, rfl⟩ := hrest
  · rwa [List.append_nil] at h
  · have hsep : '&'.toUInt8 ∉ key ++ ascii "=" := by
      rw [List.mem_append]
      exact not_or.2 ⟨hkey, by decide⟩
    have hf : f ++ ['&'.toUInt8] <+: f ++ '&'.toUInt8 :: more := ⟨more, by simp⟩
    rcases List.prefix_or_prefix_of_prefix h hf with hpre | hpre
    · rcases List.prefix_concat_iff.1 hpre with heq | hpre
      · exact absurd (heq ▸ List.mem_concat_self) hsep
      · exact hpre
    · exact absurd (hpre.subset List.mem_concat_self) hsep

/-- **A field is decoded up to the room there is.** -/
theorem formField_joinFields {key value : List UInt8} {fields : List (List UInt8)} {cap : ℕ}
    (hkey : '&'.toUInt8 ∉ key) (hplain : ∀ f ∈ fields, '&'.toUInt8 ∉ f)
    (h : Submits key value fields) :
    formField key cap (joinFields fields) = value.take (cap - 1) := by
  obtain ⟨text, hencodes, hfilter⟩ := h
  induction fields with
  | nil => exact absurd hfilter (by simp)
  | cons f fs ih =>
    obtain ⟨rest, hjoin, hrest⟩ := joinFields_cons f fs
    have hrest' : rest = [] ∨ ∃ more, rest = '&'.toUInt8 :: more :=
      hrest.imp And.right fun h ↦ ⟨_, h⟩
    rw [hjoin]
    rcases Decidable.em (IsField key f) with hf | hf
    · rw [List.filter_cons, if_pos (decide_eq_true hf)] at hfilter
      obtain rfl : f = key ++ ascii "=" ++ text := (List.cons.inj hfilter).1
      have hdrop : (key ++ ascii "=" ++ text ++ rest).drop (key.length + 1) = text ++ rest := by
        rw [List.append_assoc, List.drop_left']
        rw [List.length_append]
        rfl
      rw [formField_of_isField ((isField_append hkey hrest').2 hf), hdrop]
      exact decodeValue_append hencodes hrest' _
    · rw [List.filter_cons, if_neg fun h ↦ hf (of_decide_eq_true h)] at hfilter
      have hnext : nextPair (f ++ rest) = joinFields fs := by
        obtain ⟨rfl, rfl⟩ | rfl := hrest
        · exact absurd hfilter (by simp)
        · have hpos : ∀ b ∈ f, decide (b ≠ '&'.toUInt8) = true := fun b hb ↦
            decide_eq_true fun heq ↦ hplain f List.mem_cons_self (heq ▸ hb)
          rw [nextPair, List.dropWhile_append_of_pos hpos, List.dropWhile_cons_of_neg (by simp)]
          rfl
      rw [formField_of_not_isField (mt (isField_append hkey hrest').1 hf), hnext]
      exact ih (fun g hg ↦ hplain g (List.mem_cons_of_mem f hg)) hfilter

end ThinEdge.Provisioner
