import Mathlib.Data.List.Forall2
import ThinEdge.Lib.Scan
import ThinEdge.Provisioner.ZtpManifest

/-!
# Zero-touch provisioning: the manifest as slices

The parsers of `apps/wifi-provisioner/src/ztp_manifest.c` once more, as the code does them: on
pointers into an unterminated buffer. A slice is a cursor over its bytes. A read outside the buffer,
a slice that does not lie inside it and a round of a loop that does not move on are faults.

Each function hands out what its reader on lists of bytes does (`hands_ztpKvNext`,
`hands_ztpManifestNextModule`), and commits no fault on any text.
-/

namespace ThinEdge.Provisioner

open Bytes
open Cursor (Checked Op Shows Hands Implements byteAt memchr slice sliceEq memchr_cases slice_of_le
  sliceEq_eq shows_of_append rest_eq_nil_iff rest_eq_cons)

/-! ### Lines -/

/-- The head of the loops over lines: the next line, and the cursor behind it. -/
def lineAt (buf : List UInt8) : Op Cursor := fun d ↦
  if d.p < d.stop then do
    let nl ← memchr buf '\n'.toUInt8 d
    return (some ⟨d.p, nl.getD d.stop⟩, { d with p := nl.elim d.stop (· + 1) })
  else .ok (none, d)

/-- The end of a line without its carriage return. -/
def stopAt (buf : List UInt8) (line : Cursor) : Checked ℕ :=
  if line.p < line.stop then do
    let b ← byteAt buf (line.stop - 1)
    return if b = '\r'.toUInt8 then line.stop - 1 else line.stop
  else .ok line.stop

/-- `struct ztp_kv`. -/
structure ZtpKvAt where
  key : Cursor
  val : Cursor
  deriving DecidableEq, Repr

/-- The rest of the loop of `ztp_kv_next`: a line without `=` is skipped. -/
def kvAt (buf : List UInt8) (line : Cursor) : Checked (Option ZtpKvAt) := do
  let stop ← stopAt buf line
  let eq ← memchr buf '='.toUInt8 (← slice buf line.p stop)
  match eq with
  | none => return none
  | some eq => return some ⟨← slice buf line.p eq, ← slice buf (eq + 1) stop⟩

/-- `ztp_kv_next`. -/
def ztpKvNextAt (buf : List UInt8) : Op ZtpKvAt := (lineAt buf).find (kvAt buf)

variable {buf : List UInt8} {d s : Cursor} {bs line : List UInt8}

theorem hands_lineAt : Hands buf (Shows buf) (lineAt buf) lineReader where
  size_eq _ := rfl
  implements := by
    intro d hd
    rcases Nat.lt_or_ge d.p d.stop with hlt | hge
    · have hne : d.rest buf ≠ [] := fun hnil ↦ Nat.not_le.2 hlt ((rest_eq_nil_iff hd).1 hnil)
      have hnext : lineReader.next (d.rest buf) =
          some ((d.rest buf).takeWhile (· ≠ '\n'.toUInt8),
            ((d.rest buf).dropWhile (· ≠ '\n'.toUInt8)).drop 1) := if_neg hne
      rcases memchr_cases hd '\n'.toUInt8 with ⟨hnone, hchr⟩ | ⟨i, hchr, -, hfound⟩
      · have hall : ∀ b ∈ d.rest buf, decide (b ≠ '\n'.toUInt8) = true := fun b hb ↦
          decide_eq_true fun heq ↦ hnone (heq ▸ hb)
        have hend : Cursor.InRange buf ⟨d.stop, d.stop⟩ := ⟨Nat.le_refl _, hd.2⟩
        refine ⟨⟨d.stop, d.stop⟩, ⟨hend, rfl, hd.1⟩, Or.inr ⟨d, d.rest buf, ?_, ?_, hd, rfl⟩⟩
        · rw [lineAt, if_pos hlt, hchr]
          rfl
        · rw [hnext, List.takeWhile_eq_self_iff.2 hall, List.dropWhile_eq_nil_iff.2 hall,
            (rest_eq_nil_iff hend).2 (Nat.le_refl _)]
          rfl
      · obtain ⟨hin, hrest⟩ := hfound.next
        refine ⟨⟨i + 1, d.stop⟩, ⟨hin, rfl, Nat.le_succ_of_le hfound.le⟩,
          Or.inr ⟨⟨d.p, i⟩, _, ?_, ?_, hfound.before⟩⟩
        · rw [lineAt, if_pos hlt, hchr]
          rfl
        · rw [hnext, hrest]
    · refine ⟨d, .refl hd, Or.inl ⟨?_, ?_⟩⟩
      · rw [lineAt, if_neg (Nat.not_lt.2 hge)]
      · exact if_pos ((rest_eq_nil_iff hd).2 hge)

/-- A line without its carriage return. -/
theorem stopAt_spec (h : Shows buf s line) :
    ∃ stop, stopAt buf s = .ok stop ∧ Shows buf ⟨s.p, stop⟩ (stripCr line) := by
  rw [stopAt, stripCr]
  rcases List.eq_nil_or_concat line with rfl | ⟨init, b, hline⟩
  · have hge := (rest_eq_nil_iff h.1).1 h.2
    rw [if_neg (Nat.not_lt.2 hge)]
    exact ⟨s.stop, rfl, h⟩
  · rw [List.concat_eq_append] at hline
    subst hline
    obtain ⟨hinit, hlast⟩ := shows_of_append h.1 h.2
    have hlen := Cursor.length_rest hlast.1
    rw [hlast.2, List.length_singleton] at hlen
    have hstop : s.stop = s.p + init.length + 1 := by
      dsimp only at hlen
      omega
    obtain ⟨b', hbyte, -, hcons⟩ := rest_eq_cons hlast.1 (by rw [hstop]; exact Nat.lt_succ_self _)
    obtain rfl : b = b' := (List.cons.inj (hlast.2.symm.trans hcons)).1
    have hbyte' : byteAt buf (s.p + init.length) = .ok b := hbyte
    rw [if_pos (by omega), hstop, Nat.add_sub_cancel, hbyte', List.getLast?_concat,
      List.dropLast_concat]
    refine ⟨_, rfl, ?_⟩
    rcases Decidable.em (b = '\r'.toUInt8) with hcr | hcr
    · rw [if_pos hcr, if_pos (congrArg some hcr)]
      exact hinit
    · rw [if_neg hcr, if_neg fun hsome ↦ hcr (Option.some.inj hsome), ← hstop]
      exact h

/-- A `key=value` line shows its parts. -/
def KvShows (buf : List UInt8) (kv : ZtpKvAt) (kv' : ZtpKv) : Prop :=
  Shows buf kv.key kv'.key ∧ Shows buf kv.val kv'.val

theorem kvAt_spec (h : Shows buf s line) :
    ∃ o, kvAt buf s = .ok o ∧ Option.Rel (KvShows buf) o (kvOfLine (stripCr line)) := by
  obtain ⟨stop, hstop, hshows⟩ := stopAt_spec h
  have hslice := slice_of_le hshows.1.1 hshows.1.2
  have hkv : kvAt buf s = (memchr buf '='.toUInt8 ⟨s.p, stop⟩ >>= fun eq ↦
      match eq with
      | none => return none
      | some eq => do return some ⟨← slice buf s.p eq, ← slice buf (eq + 1) stop⟩) := by
    rw [kvAt, hstop]
    show (slice buf s.p stop >>= fun body ↦ memchr buf _ body >>= _) = _
    rw [hslice]
    rfl
  rw [hkv, kvOfLine]
  rcases memchr_cases hshows.1 '='.toUInt8 with ⟨hnone, hchr⟩ | ⟨i, hchr, hmem, hfound⟩
  · rw [hshows.2] at hnone
    rw [hchr, if_neg hnone]
    exact ⟨none, rfl, .none⟩
  · have hval := hfound.next
    have hkey := hfound.before
    rw [hshows.2] at hmem hval hkey
    have hkeySlice := slice_of_le hfound.le (Nat.le_trans (Nat.le_of_lt hfound.lt) hshows.1.2)
    have hvalSlice := slice_of_le hval.1.1 hval.1.2
    refine ⟨some ⟨⟨s.p, i⟩, ⟨i + 1, stop⟩⟩, ?_, ?_⟩
    · rw [hchr]
      show (slice buf s.p i >>= fun key ↦ slice buf (i + 1) stop >>= fun val ↦ _) = _
      rw [hkeySlice, hvalSlice]
      rfl
    · rw [if_pos hmem]
      exact .some ⟨hkey, hval⟩

/-- **`ztp_kv_next`** hands out the `key=value` lines. -/
theorem hands_ztpKvNext : Hands buf (KvShows buf) (ztpKvNextAt buf) kvReader :=
  hands_lineAt.find fun _ _ h ↦ kvAt_spec h

/-! ### Fields -/

/-- The loop of `next_field` over spaces. -/
def skipSpaces (buf : List UInt8) (s : Cursor) : Checked Cursor :=
  if _h : s.p < s.stop then do
    let b ← byteAt buf s.p
    if b = ' '.toUInt8 then skipSpaces buf (s.advance 1) else return s
  else .ok s
termination_by s.stop - s.p
decreasing_by exact Nat.sub_succ_lt_self _ _ _h

/-- `next_field`: the cursor is the slice that fields are split off from. -/
def nextFieldAt (buf : List UInt8) : Op Cursor := fun s ↦ do
  let s ← skipSpaces buf s
  if s.p = s.stop then return (none, s)
  else
    let sp ← memchr buf ' '.toUInt8 s
    let n := sp.elim (s.stop - s.p) (· - s.p)
    return (some (← slice buf s.p (s.p + n)), s.advance n)

/-- `nextField`, as a parser. -/
def takeField : Cursor.Parser (List UInt8) := nextField

theorem skipSpaces_spec (h : Shows buf s bs) : ∃ p, skipSpaces buf s = .ok ⟨p, s.stop⟩ ∧ s.p ≤ p ∧
    Shows buf ⟨p, s.stop⟩ (bs.dropWhile (· = ' '.toUInt8)) := by
  induction bs generalizing s with
  | nil =>
    have hge := (rest_eq_nil_iff h.1).1 h.2
    rw [skipSpaces, dif_neg (Nat.not_lt.2 hge)]
    exact ⟨s.p, rfl, Nat.le_refl _, h⟩
  | cons b bs ih =>
    have hlt : s.p < s.stop := Nat.lt_of_not_le fun hge ↦
      List.cons_ne_nil b bs (h.2.symm.trans ((rest_eq_nil_iff h.1).2 hge))
    obtain ⟨b', hbyte, hin, hcons⟩ := rest_eq_cons h.1 hlt
    obtain ⟨rfl, hrest⟩ := List.cons.inj (h.2.symm.trans hcons)
    rw [skipSpaces, dif_pos hlt, hbyte]
    show ∃ p, (if b = ' '.toUInt8 then skipSpaces buf (s.advance 1) else Except.ok s) = _ ∧ _
    rw [List.dropWhile_cons]
    rcases Decidable.em (b = ' '.toUInt8) with hb | hb
    · obtain ⟨p, hskip, hle, hshows⟩ := ih ⟨hin, hrest.symm⟩
      rw [if_pos hb, if_pos (decide_eq_true hb)]
      exact ⟨p, hskip, Nat.le_of_succ_le hle, hshows⟩
    · rw [if_neg hb, if_neg (by simpa using hb)]
      exact ⟨s.p, rfl, Nat.le_refl _, h⟩

/-- **`next_field`** splits a field off. -/
theorem implements_takeField : Implements buf (Shows buf) (nextFieldAt buf) takeField := by
  intro s hs
  obtain ⟨p, hskip, hle, hin, hrest⟩ := skipSpaces_spec ⟨hs, rfl⟩
  have hfield : nextFieldAt buf s = if p = s.stop then .ok (none, ⟨p, s.stop⟩)
      else memchr buf ' '.toUInt8 ⟨p, s.stop⟩ >>= fun sp ↦
        slice buf p (p + sp.elim (s.stop - p) (· - p)) >>= fun field ↦
          .ok (some field, ⟨p + sp.elim (s.stop - p) (· - p), s.stop⟩) := by
    rw [nextFieldAt, hskip]
    rfl
  unfold Cursor.ImplementsAt
  rw [hfield, takeField, nextField, ← hrest]
  rcases Decidable.em (p = s.stop) with hend | hmore
  · rw [if_pos hend, if_pos ((rest_eq_nil_iff hin).2 (Nat.le_of_eq hend.symm))]
    exact ⟨⟨p, s.stop⟩, ⟨hin, rfl, hle⟩, Or.inl ⟨rfl, rfl⟩⟩
  have hlt : p < s.stop := Nat.lt_of_le_of_ne hin.1 hmore
  rw [if_neg hmore, if_neg fun hnil ↦ Nat.not_le.2 hlt ((rest_eq_nil_iff hin).1 hnil)]
  -- without a space the field is the rest of the line
  rcases memchr_cases hin ' '.toUInt8 with ⟨hnone, hchr⟩ | ⟨i, hchr, -, hfound⟩
  · have hall : ∀ b ∈ Cursor.rest buf ⟨p, s.stop⟩, decide (b ≠ ' '.toUInt8) = true := fun b hb ↦
      decide_eq_true fun heq ↦ hnone (heq ▸ hb)
    have hstop : p + (s.stop - p) = s.stop := Nat.add_sub_cancel' hin.1
    have hnil : Cursor.InRange buf ⟨s.stop, s.stop⟩ := ⟨Nat.le_refl _, hin.2⟩
    refine ⟨⟨s.stop, s.stop⟩, ⟨hnil, rfl, hs.1⟩, Or.inr ⟨⟨p, s.stop⟩, _, ?_, ?_, ⟨hin, rfl⟩⟩⟩
    · rw [hchr]
      show slice buf p (p + (s.stop - p)) >>= _ = _
      rw [hstop, slice_of_le hin.1 hin.2]
      show Except.ok (_, Cursor.mk (p + (s.stop - p)) s.stop) = _
      rw [hstop]
    · rw [List.takeWhile_eq_self_iff.2 hall, List.dropWhile_eq_nil_iff.2 hall,
        (rest_eq_nil_iff hnil).2 (Nat.le_refl _)]
  · have hi : p + (i - p) = i := Nat.add_sub_cancel' hfound.le
    refine ⟨⟨i, s.stop⟩, ⟨hfound.after.1, rfl, Nat.le_trans hle hfound.le⟩,
      Or.inr ⟨⟨p, i⟩, _, ?_, ?_, hfound.before⟩⟩
    · rw [hchr]
      show slice buf p (p + (i - p)) >>= _ = _
      rw [hi, slice_of_le hfound.le (Nat.le_trans (Nat.le_of_lt hfound.lt) hin.2)]
      show Except.ok (_, Cursor.mk (p + (i - p)) s.stop) = _
      rw [hi]
    · rw [hfound.after.2]

/-! ### Modules -/

/-- A slice as `memset` leaves it. -/
def nullSlice : Cursor := ⟨0, 0⟩

/-- `struct ztp_module`. -/
structure ZtpModuleAt where
  type : Cursor
  isSealed : Bool
  payload : Cursor := nullSlice
  format : Cursor := nullSlice
  eph : Cursor := nullSlice
  nonce : Cursor := nullSlice
  ciphertext : Cursor := nullSlice
  deriving DecidableEq, Repr

/-- The slices of a module. -/
def ZtpModuleAt.slices (m : ZtpModuleAt) : List Cursor :=
  [m.type, m.payload, m.format, m.eph, m.nonce, m.ciphertext]

/-- The fields of `module=`. -/
def clearModuleAt (buf : List UInt8) : Op ZtpModuleAt := do
  let type ← nextFieldAt buf
  let payload ← nextFieldAt buf
  pure { type, isSealed := false, payload }

/-- The fields of `module-sealed=`. -/
def sealedModuleAt (buf : List UInt8) : Op ZtpModuleAt := do
  let type ← nextFieldAt buf
  let format ← nextFieldAt buf
  let eph ← nextFieldAt buf
  let nonce ← nextFieldAt buf
  let ciphertext ← nextFieldAt buf
  pure { type, isSealed := true, format, eph, nonce, ciphertext }

/-- The body of the loop of `ztp_manifest_next_module`. -/
def moduleOfKvAt (buf : List UInt8) (kv : ZtpKvAt) : Checked (Option (Except ℤ ZtpModuleAt)) := do
  if ← sliceEq buf kv.key (ascii "module") then
    let (m, _) ← clearModuleAt buf kv.val
    return some (m.elim (.error eproto) .ok)
  else if ← sliceEq buf kv.key (ascii "module-sealed") then
    let (m, _) ← sealedModuleAt buf kv.val
    return some (m.elim (.error eproto) .ok)
  else return none

/-- `ztp_manifest_next_module`. -/
def ztpManifestNextModuleAt (buf : List UInt8) : Op (Except ℤ ZtpModuleAt) :=
  (ztpKvNextAt buf).find (moduleOfKvAt buf)

/-- The modules that repeated calls return, until one returns zero. -/
def modulesAt (buf : List UInt8) (d : Cursor) : Checked (List (Except ℤ ZtpModuleAt)) :=
  (ztpManifestNextModuleAt buf).fold (fun ms m ↦ .ok (ms ++ [m])) [] d

/-- A module shows its fields. -/
structure ModuleShows (buf : List UInt8) (m : ZtpModuleAt) (m' : ZtpModule) : Prop where
  type : Shows buf m.type m'.type
  isSealed : m.isSealed = m'.isSealed
  payload : Shows buf m.payload m'.payload
  format : Shows buf m.format m'.format
  eph : Shows buf m.eph m'.eph
  nonce : Shows buf m.nonce m'.nonce
  ciphertext : Shows buf m.ciphertext m'.ciphertext

/-- A result shows a module, or is the same error. -/
inductive ResultShows (buf : List UInt8) : Except ℤ ZtpModuleAt → Except ℤ ZtpModule → Prop
  | ok {m : ZtpModuleAt} {m' : ZtpModule} (h : ModuleShows buf m m') :
      ResultShows buf (.ok m) (.ok m')
  | error (e : ℤ) : ResultShows buf (.error e) (.error e)

theorem shows_nullSlice (buf : List UInt8) : Shows buf nullSlice [] :=
  ⟨⟨Nat.le_refl _, Nat.zero_le _⟩, rfl⟩

/-- `clearModule`, as a parser that leaves the rest of the value. -/
def takeClearModule : Cursor.Parser ZtpModule := do
  let type ← takeField
  let payload ← takeField
  pure { type, isSealed := false, payload }

/-- `sealedModule`, as a parser that leaves the rest of the value. -/
def takeSealedModule : Cursor.Parser ZtpModule := do
  let type ← takeField
  let format ← takeField
  let eph ← takeField
  let nonce ← takeField
  let ciphertext ← takeField
  pure { type, isSealed := true, format, eph, nonce, ciphertext }

theorem clearModule_eq (val : List UInt8) :
    clearModule val = (takeClearModule val).map Prod.fst := by
  rw [takeClearModule]
  simp only [Cursor.Parser.map_fst_bind]
  rfl

theorem sealedModule_eq (val : List UInt8) :
    sealedModule val = (takeSealedModule val).map Prod.fst := by
  rw [takeSealedModule]
  simp only [Cursor.Parser.map_fst_bind]
  rfl

theorem implements_clearModule :
    Implements buf (ModuleShows buf) (clearModuleAt buf) takeClearModule :=
  implements_takeField.bind fun _ _ htype ↦ implements_takeField.bind fun _ _ hpayload ↦
    Cursor.implements_pure
      { type := htype
        isSealed := rfl
        payload := hpayload
        format := shows_nullSlice buf
        eph := shows_nullSlice buf
        nonce := shows_nullSlice buf
        ciphertext := shows_nullSlice buf }

theorem implements_sealedModule :
    Implements buf (ModuleShows buf) (sealedModuleAt buf) takeSealedModule :=
  implements_takeField.bind fun _ _ htype ↦ implements_takeField.bind fun _ _ hformat ↦
    implements_takeField.bind fun _ _ heph ↦ implements_takeField.bind fun _ _ hnonce ↦
      implements_takeField.bind fun _ _ hciphertext ↦ Cursor.implements_pure
        { type := htype
          isSealed := rfl
          payload := shows_nullSlice buf
          format := hformat
          eph := heph
          nonce := hnonce
          ciphertext := hciphertext }

/-- The fields of a value are a module or are malformed. -/
theorem fields_spec {op : Op ZtpModuleAt} {f : Cursor.Parser ZtpModule}
    (h : Implements buf (ModuleShows buf) op f) (hval : Shows buf s bs) :
    ∃ m s', op s = .ok (m, s') ∧ ResultShows buf (m.elim (.error eproto) .ok)
        (((f bs).map Prod.fst).elim (.error eproto) .ok) := by
  obtain ⟨hs, rfl⟩ := hval
  obtain ⟨s', -, ⟨hop, hf⟩ | ⟨m, m', hop, hf, hm⟩⟩ := h s hs
  · rw [hf]
    exact ⟨none, s', hop, .error eproto⟩
  · rw [hf]
    exact ⟨some m, s', hop, .ok hm⟩

theorem moduleOfKvAt_spec {kv : ZtpKvAt} {kv' : ZtpKv} (h : KvShows buf kv kv') :
    ∃ o, moduleOfKvAt buf kv = .ok o ∧ Option.Rel (ResultShows buf) o (moduleOfKv kv') := by
  have hclear := sliceEq_eq h.1 (ascii "module")
  have hsealed := sliceEq_eq h.1 (ascii "module-sealed")
  rw [moduleOfKvAt, moduleOfKv, hclear]
  rcases Decidable.em (kv'.key = ascii "module") with hkey | hkey
  · obtain ⟨m, s', hop, hm⟩ := fields_spec implements_clearModule h.2
    rw [decide_eq_true hkey, if_pos hkey, clearModule_eq]
    refine ⟨some (m.elim (.error eproto) .ok), ?_, .some hm⟩
    show clearModuleAt buf kv.val >>= _ = _
    rw [hop]
    rfl
  · rw [decide_eq_false hkey, if_neg hkey]
    show ∃ o, (sliceEq buf kv.key (ascii "module-sealed") >>= fun same ↦ _) = _ ∧ _
    rw [hsealed]
    rcases Decidable.em (kv'.key = ascii "module-sealed") with hkey' | hkey'
    · obtain ⟨m, s', hop, hm⟩ := fields_spec implements_sealedModule h.2
      rw [decide_eq_true hkey', if_pos hkey', sealedModule_eq]
      refine ⟨some (m.elim (.error eproto) .ok), ?_, .some hm⟩
      show sealedModuleAt buf kv.val >>= _ = _
      rw [hop]
      rfl
    · rw [decide_eq_false hkey', if_neg hkey']
      exact ⟨none, rfl, .none⟩

/-- **`ztp_manifest_next_module`** hands out the modules. -/
theorem hands_ztpManifestNextModule :
    Hands buf (ResultShows buf) (ztpManifestNextModuleAt buf) moduleReader :=
  hands_ztpKvNext.find fun _ _ h ↦ moduleOfKvAt_spec h

theorem foldl_concat {α : Type} (l acc : List α) :
    l.foldl (fun as a ↦ as ++ [a]) acc = acc ++ l := by
  induction l generalizing acc with
  | nil => exact (List.append_nil acc).symm
  | cons a l ih => rw [List.foldl_cons, ih, List.append_assoc, List.singleton_append]

/-- **Repeated calls** return the modules of the text, and end. -/
theorem modulesAt_spec (hd : d.InRange buf) : ∃ ms, modulesAt buf d = .ok ms ∧
    List.Forall₂ (ResultShows buf) ms (bundleLines (d.rest buf)) := by
  have hstep : ∀ ms ms' m m', List.Forall₂ (ResultShows buf) ms ms' → ResultShows buf m m' →
      ∃ out, (Except.ok (ms ++ [m]) : Checked _) = .ok out ∧
        List.Forall₂ (ResultShows buf) out (ms' ++ [m']) := fun ms ms' m m' hms hm ↦
    ⟨_, rfl, List.rel_append hms (.cons hm .nil)⟩
  obtain ⟨ms, hrun, hms⟩ := hands_ztpManifestNextModule.fold hstep .nil hd
  rw [foldl_concat, List.nil_append, toList_moduleReader] at hms
  exact ⟨ms, hrun, hms⟩

/-! ### The header -/

/-- `struct ztp_manifest_hdr`. -/
structure ZtpManifestHdrAt where
  deviceId : Cursor := nullSlice
  versionOk : Bool := false
  deriving DecidableEq, Repr

/-- The body of the loop of `ztp_manifest_header`. -/
def ZtpManifestHdrAt.record (buf : List UInt8) (hdr : ZtpManifestHdrAt) (kv : ZtpKvAt) :
    Checked ZtpManifestHdrAt := do
  if ← sliceEq buf kv.key (ascii "device_id") then return { hdr with deviceId := kv.val }
  else if ← sliceEq buf kv.key (ascii "protocol_version") then
    return { hdr with versionOk := ← sliceEq buf kv.val (ascii "1") }
  else return hdr

/-- `ztp_manifest_header`. -/
def ztpManifestHeaderAt (buf : List UInt8) (d : Cursor) : Checked ZtpManifestHdrAt :=
  (ztpKvNextAt buf).fold (ZtpManifestHdrAt.record buf) {} d

/-- A header shows the device ID. -/
def HdrShows (buf : List UInt8) (hdr : ZtpManifestHdrAt) (hdr' : ZtpManifestHdr) : Prop :=
  Shows buf hdr.deviceId hdr'.deviceId ∧ hdr.versionOk = hdr'.versionOk

theorem record_spec (hdr : ZtpManifestHdrAt) (hdr' : ZtpManifestHdr) (kv : ZtpKvAt) (kv' : ZtpKv)
    (hhdr : HdrShows buf hdr hdr') (h : KvShows buf kv kv') :
    ∃ out, hdr.record buf kv = .ok out ∧ HdrShows buf out (hdr'.record kv') := by
  have hid := sliceEq_eq h.1 (ascii "device_id")
  have hversion := sliceEq_eq h.1 (ascii "protocol_version")
  have hone := sliceEq_eq h.2 (ascii "1")
  rw [ZtpManifestHdrAt.record, ZtpManifestHdr.record, hid]
  rcases Decidable.em (kv'.key = ascii "device_id") with hkey | hkey
  · rw [decide_eq_true hkey, if_pos hkey]
    exact ⟨_, rfl, h.2, hhdr.2⟩
  · rw [decide_eq_false hkey, if_neg hkey]
    show ∃ out, (sliceEq buf kv.key (ascii "protocol_version") >>= fun same ↦ _) = _ ∧ _
    rw [hversion]
    rcases Decidable.em (kv'.key = ascii "protocol_version") with hkey' | hkey'
    · rw [decide_eq_true hkey', if_pos hkey']
      refine ⟨{ hdr with versionOk := decide (kv'.val = ascii "1") }, ?_, hhdr.1, rfl⟩
      show sliceEq buf kv.val (ascii "1") >>= _ = _
      rw [hone]
      rfl
    · rw [decide_eq_false hkey', if_neg hkey']
      exact ⟨hdr, rfl, hhdr⟩

/-- **`ztp_manifest_header`** reads the header of the text. -/
theorem ztpManifestHeaderAt_spec (hd : d.InRange buf) :
    ∃ hdr, ztpManifestHeaderAt buf d = .ok hdr ∧
      HdrShows buf hdr (ztpManifestHeader (d.rest buf)) :=
  hands_ztpKvNext.fold record_spec ⟨shows_nullSlice buf, rfl⟩ hd

end ThinEdge.Provisioner
