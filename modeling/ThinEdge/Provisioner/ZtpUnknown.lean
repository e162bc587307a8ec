import ThinEdge.Provisioner.ZtpManifest

/-!
# Zero-touch provisioning: lines that the parsers do not know

A newer server may add lines to its texts, and may end lines with CRLF. The parsers of
`apps/wifi-provisioner/src/ztp_manifest.c` read both as if nothing had changed:
`unknown_records_ignored`. All of them are folds over the records of the text, so it rests on what
an insertion does to the records, `records_of_insertedLine` and `records_of_someCrlf`. Both follow
from `records_append`: a line end cuts the records of a text in two.
-/

namespace ThinEdge.Provisioner

open Bytes

/-! ### Changes to a text -/

/-- The end of a line: a line starts behind it. -/
def AtLineStart (a : List UInt8) : Prop := a = [] ∨ a.getLast? = some '\n'.toUInt8

/-- A text in which a line has been inserted between two lines, or as the last one. -/
inductive InsertedLine (line : List UInt8) : List UInt8 → List UInt8 → Prop
  /-- In front of the rest of the text, which may be empty. -/
  | before {a : List UInt8} (b : List UInt8) (ha : AtLineStart a) :
    InsertedLine line (a ++ b) (a ++ (line ++ '\n'.toUInt8 :: b))
  /-- Behind the last line, and not ended. -/
  | last {a : List UInt8} (ha : AtLineStart a) : InsertedLine line a (a ++ line)
  /-- Behind a last line that was not ended. -/
  | afterUnended (a : List UInt8) : InsertedLine line a (a ++ '\n'.toUInt8 :: line)
  /-- Behind a last line that was not ended, and ended itself. -/
  | endedAfterUnended (a : List UInt8) :
    InsertedLine line a (a ++ '\n'.toUInt8 :: (line ++ ['\n'.toUInt8]))

/-- A text in which some line ends have become CRLF. -/
inductive SomeCrlf : List UInt8 → List UInt8 → Prop
  | nil : SomeCrlf [] []
  | same (b : UInt8) {s s' : List UInt8} : SomeCrlf s s' → SomeCrlf (b :: s) (b :: s')
  | crlf {s s' : List UInt8} : SomeCrlf s s' →
    SomeCrlf ('\n'.toUInt8 :: s) ('\r'.toUInt8 :: '\n'.toUInt8 :: s')

/-- The keys that `ztp_response_parse` looks for. -/
def ResponseKey (key : List UInt8) : Prop :=
  key ∈ [ascii "protocol_version", ascii "status", ascii "reason", ascii "retry_after",
    ascii "server_time", ascii "manifest.payload"] ∨ ∃ b bs, key = ascii "encrypted." ++ b :: bs

/-- The keys that `ztp_manifest_header` and `ztp_manifest_next_module` look for. -/
def ManifestKey (key : List UInt8) : Prop :=
  key ∈ [ascii "device_id", ascii "protocol_version", ascii "module", ascii "module-sealed"]

/-- A line without `=`, or with another key. -/
structure UnknownLine (Known : List UInt8 → Prop) (line : List UInt8) : Prop where
  isLine : '\n'.toUInt8 ∉ line
  unknown : '='.toUInt8 ∈ line → ¬ Known (line.takeWhile (· ≠ '='.toUInt8))

/-- `*r` when `ztp_response_parse` returns, with an error or without. -/
def ztpResponseContents (buf : List UInt8) : ZtpResponse :=
  ((kvReader.toList buf).foldl ZtpResponse.record ({}, false)).1

/-! ### The records of a text -/

theorem records_eq (text : List UInt8) : kvReader.toList text =
    (lineReader.toList text).filterMap fun line ↦ kvOfLine (stripCr line) :=
  Reader.toList_filterMap _ _ text

/-- The record of a single line. -/
theorem records_line {line : List UInt8} (h : '\n'.toUInt8 ∉ line) :
    kvReader.toList line = (kvOfLine (stripCr line)).toList := by
  rw [records_eq]
  rcases eq_or_ne line [] with rfl | hne
  · rw [lineReader, Reader.toList_lines_nil]
    rfl
  · rw [lineReader, Reader.toList_lines_last h hne]
    cases hkv : kvOfLine (stripCr line) with
    | none => exact List.filterMap_cons_none hkv
    | some kv => exact List.filterMap_cons_some hkv

/-- The records of a first line and of the lines after it. -/
theorem records_line_append {line : List UInt8} (h : '\n'.toUInt8 ∉ line) (rest : List UInt8) :
    kvReader.toList (line ++ '\n'.toUInt8 :: rest) =
      kvReader.toList line ++ kvReader.toList rest := by
  rw [records_line h, records_eq, lineReader, Reader.toList_lines_append h, records_eq rest]
  cases hkv : kvOfLine (stripCr line) with
  | none => exact List.filterMap_cons_none hkv
  | some kv => exact List.filterMap_cons_some hkv

/-- **A line end cuts the records in two.** -/
theorem records_append (a b : List UInt8) : kvReader.toList (a ++ '\n'.toUInt8 :: b) =
    kvReader.toList a ++ kvReader.toList b := by
  induction hn : a.length using Nat.strong_induction_on generalizing a with
  | h n ih =>
    rcases Decidable.em ('\n'.toUInt8 ∈ a) with hmem | hmem
    · obtain ⟨line, rest, rfl, hline⟩ := List.eq_append_cons_of_mem hmem
      have hlt : rest.length < n := by
        rw [List.length_append, List.length_cons] at hn
        omega
      rw [List.append_assoc, List.cons_append, records_line_append hline,
        records_line_append hline, ih _ hlt rest rfl, List.append_assoc]
    · exact records_line_append hmem b

theorem records_of_atLineStart {a : List UInt8} (ha : AtLineStart a) (b : List UInt8) :
    kvReader.toList (a ++ b) = kvReader.toList a ++ kvReader.toList b := by
  have hnil : kvReader.toList [] = [] := records_line List.not_mem_nil
  rcases ha with rfl | hlast
  · rw [hnil]
    rfl
  · obtain ⟨a, rfl⟩ := List.getLast?_eq_some_iff.1 hlast
    rw [List.append_assoc, List.singleton_append, records_append, records_append a [], hnil,
      List.append_nil]

/-- **What an inserted line does to the records.** -/
theorem records_of_insertedLine {line text text' : List UInt8} (h : '\n'.toUInt8 ∉ line)
    (hins : InsertedLine line text text') : ∃ kvs kvs', kvReader.toList text = kvs ++ kvs' ∧
      kvReader.toList text' = kvs ++ ((kvOfLine (stripCr line)).toList ++ kvs') := by
  have hnil : kvReader.toList [] = [] := records_line List.not_mem_nil
  rw [← records_line h]
  cases hins with
  | @before a b ha =>
    refine ⟨_, _, records_of_atLineStart ha b, ?_⟩
    rw [records_of_atLineStart ha, records_append]
  | last ha => exact ⟨_, [], (List.append_nil _).symm, by rw [records_of_atLineStart ha,
      List.append_nil]⟩
  | afterUnended => exact ⟨_, [], (List.append_nil _).symm, by rw [records_append, List.append_nil]⟩
  | endedAfterUnended =>
    refine ⟨_, [], (List.append_nil _).symm, ?_⟩
    rw [records_append, records_append line [], hnil]

/-- A carriage return in front of a line end is no part of the record. -/
theorem records_cr {line : List UInt8} (hlf : '\n'.toUInt8 ∉ line) (hcr : '\r'.toUInt8 ∉ line) :
    kvReader.toList (line ++ ['\r'.toUInt8]) = kvReader.toList line := by
  have hlf' : '\n'.toUInt8 ∉ line ++ ['\r'.toUInt8] := by
    rw [List.mem_append, List.mem_singleton, not_or]
    exact ⟨hlf, by decide⟩
  have hstrip : stripCr (line ++ ['\r'.toUInt8]) = line := by
    rw [stripCr, if_pos List.getLast?_concat, List.dropLast_concat]
  have hkeep : stripCr line = line := if_neg fun hlast ↦ hcr (List.mem_of_getLast? hlast)
  rw [records_line hlf, records_line hlf', hstrip, hkeep]

/-- **CRLF leaves the records as they are.** -/
theorem records_of_someCrlf {text text' : List UInt8} (hcr : '\r'.toUInt8 ∉ text)
    (h : SomeCrlf text text') : kvReader.toList text' = kvReader.toList text := by
  -- with the part of the current line that has been passed in front of both texts
  suffices ∀ line : List UInt8, '\n'.toUInt8 ∉ line → '\r'.toUInt8 ∉ line →
      kvReader.toList (line ++ text') = kvReader.toList (line ++ text) from
    this [] List.not_mem_nil List.not_mem_nil
  induction h with
  | nil => exact fun _ _ _ ↦ rfl
  | @same b s s' _ ih =>
    have ih := ih fun hmem ↦ hcr (List.mem_cons_of_mem b hmem)
    intro line hlf hline
    rcases eq_or_ne b '\n'.toUInt8 with rfl | hb
    · rw [records_append, records_append]
      exact congrArg _ (ih [] List.not_mem_nil List.not_mem_nil)
    · rw [List.append_cons line b s', List.append_cons line b s]
      refine ih (line ++ [b]) ?_ ?_ <;> rw [List.mem_append, List.mem_singleton, not_or]
      · exact ⟨hlf, hb.symm⟩
      · exact ⟨hline, fun heq ↦ hcr (heq ▸ List.mem_cons_self)⟩
  | @crlf s s' _ ih =>
    have ih := ih fun hmem ↦ hcr (List.mem_cons_of_mem _ hmem)
    intro line hlf hline
    rw [List.append_cons line '\r'.toUInt8, records_append, records_append, records_cr hlf hline]
    exact congrArg _ (ih [] List.not_mem_nil List.not_mem_nil)

/-! ### Records that a parser does not know -/

/-- The record of an unknown line has an unknown key. -/
theorem UnknownLine.key {Known : List UInt8 → Prop} {line : List UInt8}
    (h : UnknownLine Known line) {kv : ZtpKv} (hkv : kv ∈ (kvOfLine (stripCr line)).toList) :
    ¬ Known kv.key := by
  rw [Option.mem_toList, kvOfLine] at hkv
  split at hkv
  · next hmem =>
    obtain rfl := Option.some.inj hkv
    rw [stripCr] at hmem ⊢
    split at hmem
    · next hlast =>
      obtain ⟨line, rfl⟩ := List.getLast?_eq_some_iff.1 hlast
      rw [List.dropLast_concat] at hmem
      have hkey := h.unknown (List.mem_append_left _ hmem)
      rw [if_pos hlast, List.dropLast_concat]
      -- the carriage return stands behind the `=`
      obtain ⟨key, val, rfl, hnot⟩ := List.eq_append_cons_of_mem hmem
      have hall : ∀ b ∈ key, decide (b ≠ '='.toUInt8) = true := fun b hb ↦
        decide_eq_true fun heq ↦ hnot (heq ▸ hb)
      rw [List.append_assoc, List.takeWhile_append_of_pos hall, List.cons_append,
        List.takeWhile_cons_of_neg (by simp)] at hkey
      rwa [List.takeWhile_append_of_pos hall, List.takeWhile_cons_of_neg (by simp)]
    · next hlast =>
      rw [if_neg hlast]
      exact h.unknown hmem
  · exact absurd hkv (by simp)

theorem ZtpResponse.record_of_unknown {kv : ZtpKv} (h : ¬ ResponseKey kv.key)
    (s : ZtpResponse × Bool) : ZtpResponse.record s kv = s := by
  obtain ⟨hnames, hencrypted⟩ := not_or.1 h
  have hlong : ¬ (10 < kv.key.length ∧ kv.key.take 10 = ascii "encrypted.") := by
    rintro ⟨hlen, htake⟩
    refine hencrypted ⟨kv.key[10], kv.key.drop 11, ?_⟩
    rw [← htake, List.getElem_cons_drop, List.take_append_drop]
  simp only [List.mem_cons, List.not_mem_nil, or_false, not_or] at hnames
  obtain ⟨hversion, hstatus, hreason, hretry, htime, hmanifest⟩ := hnames
  rw [ZtpResponse.record, if_neg hversion, if_neg hstatus, if_neg hreason, if_neg hretry,
    if_neg htime, if_neg hmanifest, if_neg hlong]

theorem ZtpManifestHdr.record_of_unknown {kv : ZtpKv} (h : ¬ ManifestKey kv.key)
    (hdr : ZtpManifestHdr) : hdr.record kv = hdr := by
  simp only [ManifestKey, List.mem_cons, List.not_mem_nil, or_false, not_or] at h
  rw [ZtpManifestHdr.record, if_neg h.1, if_neg h.2.1]

theorem moduleOfKv_of_unknown {kv : ZtpKv} (h : ¬ ManifestKey kv.key) : moduleOfKv kv = none := by
  simp only [ManifestKey, List.mem_cons, List.not_mem_nil, or_false, not_or] at h
  rw [moduleOfKv, if_neg h.2.2.1, if_neg h.2.2.2]

/-- A fold passes over what it does not know. -/
theorem foldl_append_unknown {σ β : Type} {f : σ → β → σ} {unknown : List β}
    (h : ∀ b ∈ unknown, ∀ s, f s b = s) (xs ys : List β) (s : σ) :
    (xs ++ (unknown ++ ys)).foldl f s = (xs ++ ys).foldl f s := by
  have hsame : ∀ s, unknown.foldl f s = s := by
    intro s
    induction unknown with
    | nil => rfl
    | cons b bs ih =>
      rw [List.foldl_cons, h b List.mem_cons_self s]
      exact ih fun b hb ↦ h b (List.mem_cons_of_mem _ hb)
  rw [List.foldl_append, List.foldl_append, hsame, List.foldl_append]

/-! ### The parsers -/

/-- What the parsers of a response make of two texts is the same. -/
def SameResponse (text text' : List UInt8) : Prop :=
  ztpResponseParse text' = ztpResponseParse text ∧
    ztpResponseContents text' = ztpResponseContents text

/-- What the parsers of a manifest make of two texts is the same: the header, and what
`ztp_manifest_next_module` returns call after call. -/
def SameManifest (text text' : List UInt8) : Prop :=
  ztpManifestHeader text' = ztpManifestHeader text ∧
    moduleReader.toList text' = moduleReader.toList text

theorem sameResponse_of_insertedLine {line text text' : List UInt8}
    (hunknown : UnknownLine ResponseKey line) (h : InsertedLine line text text') :
    SameResponse text text' := by
  obtain ⟨kvs, kvs', htext, htext'⟩ := records_of_insertedLine hunknown.isLine h
  have hfold : (kvReader.toList text').foldl ZtpResponse.record ({}, false) =
      (kvReader.toList text).foldl ZtpResponse.record ({}, false) := by
    rw [htext, htext']
    exact foldl_append_unknown (fun kv hkv ↦ ZtpResponse.record_of_unknown (hunknown.key hkv)) _ _ _
  exact ⟨by rw [ztpResponseParse, hfold]; rfl, by rw [ztpResponseContents, hfold]; rfl⟩

theorem sameManifest_of_insertedLine {line text text' : List UInt8}
    (hunknown : UnknownLine ManifestKey line) (h : InsertedLine line text text') :
    SameManifest text text' := by
  obtain ⟨kvs, kvs', htext, htext'⟩ := records_of_insertedLine hunknown.isLine h
  constructor
  · rw [ztpManifestHeader, ztpManifestHeader, htext, htext']
    exact foldl_append_unknown
      (fun kv hkv ↦ ZtpManifestHdr.record_of_unknown (hunknown.key hkv)) _ _ _
  · have hnone : (kvOfLine (stripCr line)).toList.filterMap moduleOfKv = [] :=
      List.filterMap_eq_nil_iff.2 fun kv hkv ↦ moduleOfKv_of_unknown (hunknown.key hkv)
    rw [moduleReader, Reader.toList_filterMap, Reader.toList_filterMap, htext, htext',
      List.filterMap_append, List.filterMap_append, hnone, List.filterMap_append, List.nil_append]

/-- **Unknown lines change nothing**, wherever they are inserted, and neither does ending some lines
with CRLF. -/
theorem unknown_records_ignored :
    (∀ line text text', UnknownLine ResponseKey line → InsertedLine line text text' →
      SameResponse text text') ∧
    (∀ line text text', UnknownLine ManifestKey line → InsertedLine line text text' →
      SameManifest text text') ∧
    ∀ text text', '\r'.toUInt8 ∉ text → SomeCrlf text text' →
      SameResponse text text' ∧ SameManifest text text' := by
  refine ⟨fun _ _ _ ↦ sameResponse_of_insertedLine, fun _ _ _ ↦ sameManifest_of_insertedLine, ?_⟩
  intro text text' hcr h
  have hrecords := records_of_someCrlf hcr h
  refine ⟨⟨?_, ?_⟩, ?_, ?_⟩
  · rw [ztpResponseParse, hrecords]
    rfl
  · rw [ztpResponseContents, hrecords]
    rfl
  · rw [ztpManifestHeader, hrecords]
    rfl
  · rw [moduleReader, Reader.toList_filterMap, Reader.toList_filterMap, hrecords]

theorem unknown_records_ignored_small :
    (UnknownLine ResponseKey (ascii "future.thing=x") ∧
      SameResponse (ascii "status=pending\n") (ascii "future.thing=x\nstatus=pending\n")) ∧
    (UnknownLine ManifestKey (ascii "not a record") ∧
      SameManifest (ascii "module=") (ascii "module=\nnot a record")) ∧
    SameResponse (ascii "a=b\n") (ascii "a=b\r\n") := by
  have hresponse : UnknownLine ResponseKey (ascii "future.thing=x") := by
    refine ⟨by decide, fun _ ↦ ?_⟩
    rintro (hname | ⟨b, bs, hkey⟩)
    · revert hname
      decide
    · have hfirst := congrArg (List.take 1) hkey
      rw [List.take_append_of_le_length (by decide)] at hfirst
      exact absurd hfirst (by decide)
  have hmanifest : UnknownLine ManifestKey (ascii "not a record") :=
    ⟨by decide, fun hmem ↦ absurd hmem (by decide)⟩
  exact ⟨⟨hresponse, unknown_records_ignored.1 _ _ _ hresponse
      (.before (a := []) (ascii "status=pending\n") (Or.inl rfl))⟩,
    ⟨hmanifest, unknown_records_ignored.2.1 _ _ _ hmanifest (.afterUnended (ascii "module="))⟩,
    (unknown_records_ignored.2.2 _ _ (by decide)
      (.same _ (.same _ (.same _ (.crlf .nil))))).1⟩

end ThinEdge.Provisioner
