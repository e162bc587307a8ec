import ThinEdge.Provisioner.ZtpSlices

/-!
# Zero-touch provisioning: the text of a manifest

The text rendering that a server makes of a manifest: a device ID, a protocol version and the
modules, each a line, in any order. `manifest_parsed` is the round trip through the parsers of
`apps/wifi-provisioner/src/ztp_manifest.c`, together with their safety on any text. It rests on
`toList_kvReader_bytes`, which says that the lines of the text are its records.
-/

namespace ThinEdge.Provisioner

open Bytes
open Cursor (ReadsInside)

/-! ### The rendering -/

/-- A text without a line end. -/
structure LineText where
  bytes : List UInt8
  plain : ∀ b ∈ bytes, b ≠ '\r'.toUInt8 ∧ b ≠ '\n'.toUInt8

/-- A field of a module: a text that is not empty and has no space in it. -/
structure ManifestField extends LineText where
  ne_nil : bytes ≠ []
  no_space : ∀ b ∈ bytes, b ≠ ' '.toUInt8

/-- A field, with at least one space in front of it. -/
def spaced (gap : ℕ) (f : ManifestField) : List UInt8 :=
  List.replicate (gap + 1) ' '.toUInt8 ++ f.bytes

/-- A module as it is rendered, with the number of additional spaces in front of a field. -/
inductive ModuleText
  | clear (type : ManifestField) (gap : ℕ) (payload : ManifestField)
  | isSealed (type : ManifestField) (gap₁ : ℕ) (format : ManifestField) (gap₂ : ℕ)
      (eph : ManifestField) (gap₃ : ℕ) (nonce : ManifestField) (gap₄ : ℕ)
      (ciphertext : ManifestField)

namespace ModuleText

/-- The module that it renders. -/
def meaning : ModuleText → ZtpModule
  | clear type _ payload => { type := type.bytes, isSealed := false, payload := payload.bytes }
  | isSealed type _ format _ eph _ nonce _ ciphertext =>
    { type := type.bytes, isSealed := true, format := format.bytes, eph := eph.bytes
      nonce := nonce.bytes, ciphertext := ciphertext.bytes }

/-- The record of a module. -/
def kv : ModuleText → ZtpKv
  | clear type gap payload => ⟨ascii "module", type.bytes ++ spaced gap payload⟩
  | isSealed type gap₁ format gap₂ eph gap₃ nonce gap₄ ciphertext =>
    ⟨ascii "module-sealed", type.bytes ++ (spaced gap₁ format ++ (spaced gap₂ eph ++
      (spaced gap₃ nonce ++ spaced gap₄ ciphertext)))⟩

end ModuleText

/-- A line of a manifest. -/
inductive ManifestRecord
  | deviceId (id : LineText)
  | protocolVersion
  | entry (m : ModuleText)

namespace ManifestRecord

/-- What the line says. -/
def kv : ManifestRecord → ZtpKv
  | deviceId id => ⟨ascii "device_id", id.bytes⟩
  | protocolVersion => ⟨ascii "protocol_version", ascii "1"⟩
  | entry m => m.kv

/-- The line. -/
def text (r : ManifestRecord) : List UInt8 := r.kv.key ++ '='.toUInt8 :: r.kv.val

/-- The device ID, when the line has it. -/
def deviceId? : ManifestRecord → Option LineText
  | deviceId id => some id
  | _ => none

/-- The module, when the line has one. -/
def module? : ManifestRecord → Option ModuleText
  | entry m => some m
  | _ => none

end ManifestRecord

/-- What ends a line. -/
inductive LineEnd
  | lf
  | crlf

/-- The bytes of a line end. -/
def LineEnd.bytes : LineEnd → List UInt8
  | lf => ['\n'.toUInt8]
  | crlf => ['\r'.toUInt8, '\n'.toUInt8]

/-- A manifest: lines, and perhaps a last one that is not ended. -/
structure ManifestText where
  lines : List (ManifestRecord × LineEnd)
  unended : Option ManifestRecord

namespace ManifestText

/-- The text. -/
def bytes (t : ManifestText) : List UInt8 :=
  t.lines.flatMap (fun l ↦ l.1.text ++ l.2.bytes) ++ t.unended.elim [] ManifestRecord.text

/-- The records, in the order of the lines. -/
def records (t : ManifestText) : List ManifestRecord := t.lines.map Prod.fst ++ t.unended.toList

/-- The modules, in the order of the lines. -/
def modules (t : ManifestText) : List ModuleText := t.records.filterMap ManifestRecord.module?

end ManifestText

/-! ### Fields -/

/-- What may follow a field: nothing, or a space. -/
def EndsField (rest : List UInt8) : Prop := rest = [] ∨ rest.head? = some ' '.toUInt8

theorem endsField_spaced (gap : ℕ) (f : ManifestField) (rest : List UInt8) :
    EndsField (spaced gap f ++ rest) := Or.inr rfl

theorem endsField_last (gap : ℕ) (f : ManifestField) : EndsField (spaced gap f) := Or.inr rfl

/-- **A field is split off**, with the spaces in front of it. -/
theorem nextField_append (gap : ℕ) (f : ManifestField) {rest : List UInt8}
    (hrest : EndsField rest) :
    nextField (List.replicate gap ' '.toUInt8 ++ (f.bytes ++ rest)) = some (f.bytes, rest) := by
  have hspaces : ∀ b ∈ List.replicate gap ' '.toUInt8, decide (b = ' '.toUInt8) = true :=
    fun b hb ↦ decide_eq_true (List.eq_of_mem_replicate hb)
  have hfield : ∀ b ∈ f.bytes, decide (b ≠ ' '.toUInt8) = true := fun b hb ↦
    decide_eq_true (f.no_space b hb)
  have hskip : (f.bytes ++ rest).dropWhile (· = ' '.toUInt8) = f.bytes ++ rest := by
    obtain ⟨b, bs, hb⟩ := List.exists_cons_of_ne_nil f.ne_nil
    have hne : b ≠ ' '.toUInt8 := f.no_space b (hb ▸ List.mem_cons_self)
    rw [hb, List.cons_append, List.dropWhile_cons, if_neg (by simpa using hne)]
  have hstop : rest.takeWhile (· ≠ ' '.toUInt8) = [] ∧ rest.dropWhile (· ≠ ' '.toUInt8) = rest := by
    rcases hrest with rfl | hhead
    · exact ⟨rfl, rfl⟩
    · obtain ⟨bs, rfl⟩ : ∃ bs, rest = ' '.toUInt8 :: bs := ⟨_, List.eq_cons_of_mem_head? hhead⟩
      exact ⟨rfl, rfl⟩
  have hne : ¬ f.bytes ++ rest = [] := fun hnil ↦ f.ne_nil (List.append_eq_nil_iff.1 hnil).1
  rw [nextField, List.dropWhile_append_of_pos hspaces, hskip]
  rw [if_neg hne, List.takeWhile_append_of_pos hfield, List.dropWhile_append_of_pos hfield, hstop.1,
    hstop.2, List.append_nil]

theorem nextField_spaced (gap : ℕ) (f : ManifestField) {rest : List UInt8}
    (hrest : EndsField rest) : nextField (spaced gap f ++ rest) = some (f.bytes, rest) := by
  rw [spaced, List.append_assoc]
  exact nextField_append (gap + 1) f hrest

/-- The last field of a line. -/
theorem nextField_last (gap : ℕ) (f : ManifestField) :
    nextField (spaced gap f) = some (f.bytes, []) := by
  rw [← List.append_nil (spaced gap f)]
  exact nextField_spaced gap f (Or.inl rfl)

/-- The first field of a line. -/
theorem nextField_first (f : ManifestField) {rest : List UInt8} (hrest : EndsField rest) :
    nextField (f.bytes ++ rest) = some (f.bytes, rest) := nextField_append 0 f hrest

/-- **A module line is parsed.** -/
theorem moduleOfKv_kv (m : ModuleText) : moduleOfKv m.kv = some (.ok m.meaning) := by
  cases m with
  | clear type gap payload =>
    rw [ModuleText.kv, moduleOfKv]
    dsimp only
    rw [if_pos rfl]
    simp only [clearModule, nextField_first type (endsField_last gap payload), nextField_last,
      Option.bind_eq_bind, Option.bind_some]
    rfl
  | isSealed type gap₁ format gap₂ eph gap₃ nonce gap₄ ciphertext =>
    have hkey : ¬ ascii "module-sealed" = ascii "module" := by decide
    rw [ModuleText.kv, moduleOfKv]
    dsimp only
    rw [if_neg hkey, if_pos rfl]
    simp only [sealedModule, nextField_first type (endsField_spaced gap₁ format _),
      nextField_spaced gap₁ format (endsField_spaced gap₂ eph _),
      nextField_spaced gap₂ eph (endsField_spaced gap₃ nonce _),
      nextField_spaced gap₃ nonce (endsField_last gap₄ ciphertext), nextField_last,
      Option.bind_eq_bind, Option.bind_some]
    rfl

/-! ### Lines -/

variable {t : ManifestText} {r : ManifestRecord}

theorem plain_spaced {gap : ℕ} {f : ManifestField} {b : UInt8} (h : b ∈ spaced gap f) :
    b ≠ '\r'.toUInt8 ∧ b ≠ '\n'.toUInt8 := by
  rcases List.mem_append.1 h with hspace | hfield
  · rw [List.eq_of_mem_replicate hspace]
    decide
  · exact f.plain b hfield

theorem plain_val {b : UInt8} (h : b ∈ r.kv.val) : b ≠ '\r'.toUInt8 ∧ b ≠ '\n'.toUInt8 := by
  rcases r with id | - |
    (⟨type, gap, payload⟩ | ⟨type, gap₁, format, gap₂, eph, gap₃, nonce, gap₄, ct⟩)
  · exact id.plain b h
  · revert b
    decide +kernel
  · rcases List.mem_append.1 h with h | h
    · exact type.plain b h
    · exact plain_spaced h
  · rcases List.mem_append.1 h with h | h
    · exact type.plain b h
    rcases List.mem_append.1 h with h | h
    · exact plain_spaced h
    rcases List.mem_append.1 h with h | h
    · exact plain_spaced h
    rcases List.mem_append.1 h with h | h <;> exact plain_spaced h

/-- The keys. -/
theorem key_mem (r : ManifestRecord) : r.kv.key ∈
    [ascii "device_id", ascii "protocol_version", ascii "module", ascii "module-sealed"] := by
  rcases r with id | - | (m | m) <;> simp [ManifestRecord.kv, ModuleText.kv]

theorem plain_key {b : UInt8} (h : b ∈ r.kv.key) :
    b ≠ '\r'.toUInt8 ∧ b ≠ '\n'.toUInt8 ∧ b ≠ '='.toUInt8 := by
  have hall : ∀ key ∈ [ascii "device_id", ascii "protocol_version", ascii "module",
      ascii "module-sealed"], ∀ b ∈ key, b ≠ '\r'.toUInt8 ∧ b ≠ '\n'.toUInt8 ∧ b ≠ '='.toUInt8 := by
    decide +kernel
  exact hall _ (key_mem r) b h

theorem plain_text {b : UInt8} (h : b ∈ r.text) : b ≠ '\r'.toUInt8 ∧ b ≠ '\n'.toUInt8 := by
  rcases List.mem_append.1 h with hkey | hrest
  · obtain ⟨hcr, hlf, -⟩ := plain_key hkey
    exact ⟨hcr, hlf⟩
  · rcases List.mem_cons.1 hrest with rfl | hval
    · decide
    · exact plain_val hval

/-- **A line is cut** at its first `=`. -/
theorem kvOfLine_text (r : ManifestRecord) : kvOfLine r.text = some r.kv := by
  have hall : ∀ b ∈ r.kv.key, decide (b ≠ '='.toUInt8) = true := fun b hb ↦
    decide_eq_true (plain_key hb).2.2
  have hmem : '='.toUInt8 ∈ r.text := List.mem_append_right _ List.mem_cons_self
  rw [kvOfLine, if_pos hmem, ManifestRecord.text, List.takeWhile_append_of_pos hall,
    List.dropWhile_append_of_pos hall]
  simp

theorem stripCr_text (r : ManifestRecord) : stripCr r.text = r.text := by
  rw [stripCr, if_neg fun hlast ↦ (plain_text (List.mem_of_getLast? hlast)).1 rfl]

theorem stripCr_text_cr (r : ManifestRecord) : stripCr (r.text ++ ['\r'.toUInt8]) = r.text := by
  rw [stripCr, List.getLast?_concat, if_pos rfl, List.dropLast_concat]

/-- The first line of a text. -/
theorem toList_lineReader (l : ManifestRecord × LineEnd) (rest : List UInt8) :
    ∃ line, lineReader.toList (l.1.text ++ l.2.bytes ++ rest) = line :: lineReader.toList rest ∧
      stripCr line = l.1.text := by
  obtain ⟨r, e⟩ := l
  cases e with
  | lf =>
    have hnl : '\n'.toUInt8 ∉ r.text := fun h ↦ (plain_text h).2 rfl
    refine ⟨r.text, ?_, stripCr_text r⟩
    rw [List.append_assoc]
    exact Reader.toList_lines_append hnl rest
  | crlf =>
    have hnl : '\n'.toUInt8 ∉ r.text ++ ['\r'.toUInt8] := fun h ↦
      (List.mem_append.1 h).elim (fun htext ↦ (plain_text htext).2 rfl) (by decide)
    have hsplit : r.text ++ LineEnd.crlf.bytes ++ rest =
        r.text ++ ['\r'.toUInt8] ++ '\n'.toUInt8 :: rest := by
      rw [List.append_assoc, List.append_assoc]
      rfl
    refine ⟨r.text ++ ['\r'.toUInt8], ?_, stripCr_text_cr r⟩
    dsimp only
    rw [hsplit]
    exact Reader.toList_lines_append hnl rest

/-- **The lines of a manifest** are its records. -/
theorem toList_kvReader_bytes (t : ManifestText) :
    kvReader.toList t.bytes = t.records.map ManifestRecord.kv := by
  rw [kvReader, Reader.toList_filterMap, ManifestText.bytes, ManifestText.records]
  obtain ⟨lines, unended⟩ := t
  induction lines with
  | nil =>
    cases unended with
    | none => exact congrArg _ (Reader.toList_lines_nil _)
    | some r =>
      have hnl : '\n'.toUInt8 ∉ r.text := fun h ↦ (plain_text h).2 rfl
      have hne : r.text ≠ [] := List.append_ne_nil_of_right_ne_nil _ (List.cons_ne_nil _ _)
      have hlines : lineReader.toList r.text = [r.text] := Reader.toList_lines_last hnl hne
      have hkv : kvOfLine (stripCr r.text) = some r.kv := by rw [stripCr_text, kvOfLine_text]
      show (lineReader.toList r.text).filterMap (fun line ↦ kvOfLine (stripCr line)) = [r.kv]
      rw [hlines, List.filterMap_cons, hkv]
      rfl
  | cons l lines ih =>
    obtain ⟨line, hlines, hstrip⟩ := toList_lineReader l
      (lines.flatMap (fun l ↦ l.1.text ++ l.2.bytes) ++ unended.elim [] ManifestRecord.text)
    have hkv : kvOfLine (stripCr line) = some l.1.kv := by rw [hstrip, kvOfLine_text]
    rw [List.flatMap_cons, List.append_assoc, hlines, List.filterMap_cons, hkv]
    exact congrArg _ ih

/-! ### The manifest -/

theorem record_deviceId (hdr : ZtpManifestHdr) (id : LineText) :
    hdr.record (ManifestRecord.deviceId id).kv = { hdr with deviceId := id.bytes } := by
  rw [ZtpManifestHdr.record]
  exact if_pos rfl

theorem record_protocolVersion (hdr : ZtpManifestHdr) :
    hdr.record ManifestRecord.protocolVersion.kv = { hdr with versionOk := true } := by
  have hkey : ¬ ManifestRecord.protocolVersion.kv.key = ascii "device_id" := by decide
  rw [ZtpManifestHdr.record, if_neg hkey]
  exact if_pos rfl

theorem record_entry (hdr : ZtpManifestHdr) (m : ModuleText) :
    hdr.record (ManifestRecord.entry m).kv = hdr := by
  have hkey : ∀ key ∈ [ascii "module", ascii "module-sealed"],
      key ≠ ascii "device_id" ∧ key ≠ ascii "protocol_version" := by decide
  obtain ⟨hid, hversion⟩ := hkey m.kv.key (by cases m <;> simp [ModuleText.kv])
  rw [ZtpManifestHdr.record]
  exact (if_neg hid).trans (if_neg hversion)

/-- The last device ID counts. -/
theorem deviceId_foldl (rs : List ManifestRecord) (hdr : ZtpManifestHdr) :
    ((rs.map ManifestRecord.kv).foldl ZtpManifestHdr.record hdr).deviceId =
      ((rs.filterMap ManifestRecord.deviceId?).getLast?.map LineText.bytes).getD hdr.deviceId := by
  induction rs generalizing hdr with
  | nil => rfl
  | cons r rs ih =>
    rw [List.map_cons, List.foldl_cons, ih]
    cases r with
    | deviceId id =>
      have hids : (ManifestRecord.deviceId id :: rs).filterMap ManifestRecord.deviceId? =
          id :: rs.filterMap ManifestRecord.deviceId? := rfl
      rw [record_deviceId, hids, List.getLast?_cons]
      cases (rs.filterMap ManifestRecord.deviceId?).getLast? <;> rfl
    | protocolVersion =>
      rw [record_protocolVersion]
      rfl
    | entry m =>
      rw [record_entry]
      rfl

/-- The version stays right. -/
theorem versionOk_foldl (rs : List ManifestRecord) (hdr : ZtpManifestHdr)
    (h : .protocolVersion ∈ rs ∨ hdr.versionOk = true) :
    ((rs.map ManifestRecord.kv).foldl ZtpManifestHdr.record hdr).versionOk = true := by
  induction rs generalizing hdr with
  | nil => exact h.resolve_left List.not_mem_nil
  | cons r rs ih =>
    rw [List.map_cons, List.foldl_cons]
    cases r with
    | deviceId id =>
      rw [record_deviceId]
      exact ih _ (h.imp_left fun hmem ↦ (List.mem_cons.1 hmem).resolve_left (by simp))
    | protocolVersion =>
      rw [record_protocolVersion]
      exact ih _ (Or.inr rfl)
    | entry m =>
      rw [record_entry]
      exact ih _ (h.imp_left fun hmem ↦ (List.mem_cons.1 hmem).resolve_left (by simp))

/-- **The header of a manifest.** -/
theorem ztpManifestHeader_bytes {id : LineText} {ms : List ModuleText}
    (h : t.records.Perm (.deviceId id :: .protocolVersion :: ms.map .entry)) :
    ztpManifestHeader t.bytes = { deviceId := id.bytes, versionOk := true } := by
  have hnone : (ms.map ManifestRecord.entry).filterMap ManifestRecord.deviceId? = [] := by
    rw [List.filterMap_map]
    exact List.filterMap_eq_nil_iff.2 fun m _ ↦ rfl
  have hids : t.records.filterMap ManifestRecord.deviceId? = [id] := by
    refine List.perm_singleton.1 ((h.filterMap _).trans ?_)
    show (id :: (ms.map ManifestRecord.entry).filterMap ManifestRecord.deviceId?).Perm [id]
    rw [hnone]
  have hversion : .protocolVersion ∈ t.records := h.mem_iff.2 (by simp)
  have hfold : ztpManifestHeader t.bytes =
      (t.records.map ManifestRecord.kv).foldl ZtpManifestHdr.record {} := by
    rw [ztpManifestHeader, toList_kvReader_bytes]
  have hid := deviceId_foldl t.records {}
  rw [hids] at hid
  rw [hfold]
  exact congrArg₂ ZtpManifestHdr.mk hid (versionOk_foldl _ _ (Or.inl hversion))

theorem moduleOfKv_record (r : ManifestRecord) :
    moduleOfKv r.kv = r.module?.map fun m ↦ .ok m.meaning := by
  have hkeys : ∀ key ∈ [ascii "device_id", ascii "protocol_version"],
      key ≠ ascii "module" ∧ key ≠ ascii "module-sealed" := by decide
  have hother : ∀ kv : ZtpKv, kv.key ∈ [ascii "device_id", ascii "protocol_version"] →
      moduleOfKv kv = none := fun kv hkv ↦ by
    obtain ⟨hclear, hsealed⟩ := hkeys kv.key hkv
    rw [moduleOfKv, if_neg hclear, if_neg hsealed]
  cases r with
  | deviceId id => exact hother _ List.mem_cons_self
  | protocolVersion => exact hother _ (List.mem_cons_of_mem _ List.mem_cons_self)
  | entry m => exact moduleOfKv_kv m

/-- **The modules of a manifest.** -/
theorem bundleLines_bytes (t : ManifestText) :
    bundleLines t.bytes = (t.modules.map ModuleText.meaning).map .ok := by
  rw [← toList_moduleReader, moduleReader, Reader.toList_filterMap, toList_kvReader_bytes,
    ManifestText.modules, List.filterMap_map, List.map_map, List.map_filterMap]
  exact List.filterMap_congr fun r _ ↦ moduleOfKv_record r

/-! ### The main result -/

/-- The slices of a record. -/
def ZtpKvAt.slices (kv : ZtpKvAt) : List Cursor := [kv.key, kv.val]

/-- The slices of what `ztp_manifest_next_module` returns. -/
def resultSlices : Except ℤ ZtpModuleAt → List Cursor
  | .ok m => m.slices
  | .error _ => []

/-- The module whose fields slices of a buffer are. -/
def ZtpModuleAt.read (buf : List UInt8) (m : ZtpModuleAt) : ZtpModule where
  type := m.type.rest buf
  isSealed := m.isSealed
  payload := m.payload.rest buf
  format := m.format.rest buf
  eph := m.eph.rest buf
  nonce := m.nonce.rest buf
  ciphertext := m.ciphertext.rest buf

theorem ModuleShows.read_eq {buf : List UInt8} {m : ZtpModuleAt} {m' : ZtpModule}
    (h : ModuleShows buf m m') : m.read buf = m' := by
  rw [ZtpModuleAt.read, h.type.2, h.isSealed, h.payload.2, h.format.2, h.eph.2, h.nonce.2,
    h.ciphertext.2]

theorem ModuleShows.inRange {buf : List UInt8} {m : ZtpModuleAt} {m' : ZtpModule}
    (h : ModuleShows buf m m') : ∀ s ∈ m.slices, s.InRange buf := by
  simp only [ZtpModuleAt.slices, List.forall_mem_cons]
  exact ⟨h.type.1, h.payload.1, h.format.1, h.eph.1, h.nonce.1, h.ciphertext.1, nofun⟩

theorem readsInside_ztpKvNext (buf : List UInt8) :
    ReadsInside buf (ztpKvNextAt buf) ZtpKvAt.slices :=
  hands_ztpKvNext.readsInside fun kv kv' h ↦ by
    simp only [ZtpKvAt.slices, List.forall_mem_cons]
    exact ⟨h.1.1, h.2.1, nofun⟩

theorem readsInside_ztpManifestNextModule (buf : List UInt8) :
    ReadsInside buf (ztpManifestNextModuleAt buf) resultSlices :=
  hands_ztpManifestNextModule.readsInside fun m m' h ↦ by
    cases h with
    | ok hm => exact hm.inRange
    | error e => nofun

/-- Results that show modules are modules. -/
theorem exists_of_forall₂ {buf : List UInt8} {out : List (Except ℤ ZtpModuleAt)}
    {ms : List ZtpModule} (h : List.Forall₂ (ResultShows buf) out (ms.map .ok)) :
    ∃ ats : List ZtpModuleAt, out = ats.map .ok ∧ ats.map (ZtpModuleAt.read buf) = ms := by
  induction ms generalizing out with
  | nil =>
    cases h
    exact ⟨[], rfl, rfl⟩
  | cons m ms ih =>
    rw [List.map_cons] at h
    cases h with
    | cons hm hms =>
      obtain ⟨ats, rfl, hread⟩ := ih hms
      cases hm with
      | @ok at' _ hm => exact ⟨at' :: ats, rfl, congrArg₂ List.cons hm.read_eq hread⟩

/-- **The manifest parser** stays inside any text and comes to its end, and it reads back every
manifest that is rendered. -/
theorem manifest_parsed :
    (∀ buf, ReadsInside buf (ztpKvNextAt buf) ZtpKvAt.slices ∧
      ReadsInside buf (ztpManifestNextModuleAt buf) resultSlices ∧
        ∀ d : Cursor, d.InRange buf →
          (∃ hdr, ztpManifestHeaderAt buf d = .ok hdr ∧ hdr.deviceId.InRange buf) ∧
            ∃ ms, modulesAt buf d = .ok ms) ∧
      ∀ (t : ManifestText) (id : LineText) (ms : List ModuleText),
        t.records.Perm (.deviceId id :: .protocolVersion :: ms.map .entry) →
          (∃ hdr, ztpManifestHeaderAt t.bytes ⟨0, t.bytes.length⟩ = .ok hdr ∧
              hdr.deviceId.rest t.bytes = id.bytes ∧ hdr.versionOk = true) ∧
            ∃ ats : List ZtpModuleAt,
              modulesAt t.bytes ⟨0, t.bytes.length⟩ = .ok (ats.map .ok) ∧
                ats.map (ZtpModuleAt.read t.bytes) = t.modules.map ModuleText.meaning := by
  refine ⟨fun buf ↦ ⟨readsInside_ztpKvNext buf, readsInside_ztpManifestNextModule buf,
    fun d hd ↦ ⟨?_, ?_⟩⟩, fun t id ms hperm ↦ ⟨?_, ?_⟩⟩
  · obtain ⟨hdr, hrun, hshows⟩ := ztpManifestHeaderAt_spec hd
    exact ⟨hdr, hrun, hshows.1.1⟩
  · obtain ⟨ms, hrun, -⟩ := modulesAt_spec hd
    exact ⟨ms, hrun⟩
  · obtain ⟨hdr, hrun, hshows⟩ := ztpManifestHeaderAt_spec (Cursor.inRange_whole t.bytes)
    rw [Cursor.rest_whole, ztpManifestHeader_bytes hperm] at hshows
    exact ⟨hdr, hrun, hshows.1.2, hshows.2⟩
  · obtain ⟨out, hrun, hout⟩ := modulesAt_spec (Cursor.inRange_whole t.bytes)
    rw [Cursor.rest_whole, bundleLines_bytes] at hout
    obtain ⟨ats, rfl, hread⟩ := exists_of_forall₂ hout
    exact ⟨ats, hrun, hread⟩

/-- A field of two bytes, the second one as in base64. -/
def fieldOf (b : UInt8) (h : b ≠ '\r'.toUInt8 ∧ b ≠ '\n'.toUInt8 ∧ b ≠ ' '.toUInt8) :
    ManifestField where
  bytes := [b, '='.toUInt8]
  plain := by
    intro c hc
    rcases List.mem_cons.1 hc with rfl | hc
    · exact ⟨h.1, h.2.1⟩
    · rw [List.mem_singleton.1 hc]
      decide
  ne_nil := List.cons_ne_nil _ _
  no_space := by
    intro c hc
    rcases List.mem_cons.1 hc with rfl | hc
    · exact h.2.2
    · rw [List.mem_singleton.1 hc]
      decide

/-- A clear module, a sealed one, and the header behind them; the last line is not ended. -/
def smallManifest : ManifestText where
  lines := [
    (.entry (.clear (fieldOf 65 (by decide)) 2 (fieldOf 66 (by decide))), .crlf),
    (.protocolVersion, .lf),
    (.entry (.isSealed (fieldOf 67 (by decide)) 0 (fieldOf 68 (by decide)) 1
      (fieldOf 69 (by decide)) 0 (fieldOf 70 (by decide)) 3 (fieldOf 71 (by decide))), .lf)]
  unended := some (.deviceId ⟨ascii "d=1", by decide +kernel⟩)

/-- Its two modules come back. -/
theorem manifest_parsed_small : ∃ ats : List ZtpModuleAt,
    modulesAt smallManifest.bytes ⟨0, smallManifest.bytes.length⟩ = .ok (ats.map .ok) ∧
      ats.map (ZtpModuleAt.read smallManifest.bytes) =
        smallManifest.modules.map ModuleText.meaning := by
  refine (manifest_parsed.2 smallManifest ⟨ascii "d=1", by decide +kernel⟩ smallManifest.modules
    ?_).2
  exact (@List.perm_append_comm _ [_, _, _] [_]).trans (.cons _ (.swap _ _ _))

end ThinEdge.Provisioner
