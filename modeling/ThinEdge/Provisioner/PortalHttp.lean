import ThinEdge.Lib.Decimal
import ThinEdge.Net.Credentials
import ThinEdge.Provisioner.FormField
import ThinEdge.Settings.HostName

/-!
# The HTTP server of the captive portal

`http_handle` of `apps/wifi-provisioner/src/softap.c`: it reads one request, in however many pieces
it arrives, and hands on the credentials of a submitted form.

`exactOrRefused_iff` is what a form hands on. It rests on `formField_joinFields`, and has a
condition: a value that is too long is cut, not refused.
-/

namespace ThinEdge.Provisioner

open Bytes CText Net Settings

/-! ### Reading a request -/

/-- What has been read; and when the header is complete, where the body starts and how long it is
announced to be. -/
structure HttpRead where
  req : List UInt8
  body : Option (ℕ × ℤ)
  deriving DecidableEq, Repr

/-- Nothing has been read. -/
def HttpRead.start : HttpRead := ⟨[], none⟩

/-- The number behind the first `Content-Length:`, in one of two spellings. -/
def contentLength (req : List UInt8) : ℤ :=
  match afterText (ascii "Content-Length:") req <|> afterText (ascii "content-length:") req with
  | some cl => atoi cl
  | none => 0

/-- The empty line that ends a header. -/
def findBody (req : List UInt8) : Option (ℕ × ℤ) :=
  (afterText (ascii "\r\n\r\n") req).map fun body ↦ (req.length - body.length, contentLength req)

/-- More bytes are read. -/
def HttpRead.recv (s : HttpRead) (bytes : List UInt8) : HttpRead where
  req := s.req ++ bytes
  body := s.body <|> findBody (cstr (s.req ++ bytes))

/-- As much as is announced has been read. -/
def HttpRead.complete (s : HttpRead) : Bool :=
  match s.body with
  | some (bodyAt, clen) => clen ≤ (s.req.length : ℤ) - bodyAt
  | none => false

/-- The loop of `http_handle` over what arrives, until the connection ends or times out. The buffer
has room for 1535 bytes. -/
def readHttp : HttpRead → List (List UInt8) → HttpRead
  | s, [] => s
  | s, segment :: segments =>
    let bytes := segment.take (1535 - s.req.length)
    if bytes = [] then s
    else if (s.recv bytes).complete then s.recv bytes
    else readHttp (s.recv bytes) segments

/-! ### Handling it -/

theorem length_decodeValue_le (room : ℕ) (p : List UInt8) : (decodeValue room p).length ≤ room := by
  induction room generalizing p with
  | zero =>
    rw [decodeValue]
    exact Nat.le_refl 0
  | succ room ih =>
    cases p with
    | nil => exact Nat.zero_le _
    | cons b p =>
      rw [decodeValue]
      split
      · exact Nat.zero_le _
      · split
        · exact Nat.succ_le_succ (ih p)
        · split
          · exact Nat.succ_le_succ (ih _)
          · exact Nat.succ_le_succ (ih p)

theorem length_formField_le (key : List UInt8) (cap : ℕ) (p : List UInt8) :
    (formField key cap p).length ≤ cap - 1 := by
  induction p using formField.induct key with
  | case1 =>
    rw [formField]
    exact Nat.zero_le _
  | case2 b p h =>
    rw [formField_of_isField h]
    exact length_decodeValue_le _ _
  | case3 b p h ih =>
    rw [formField_of_not_isField h]
    exact ih

/-- The credentials in a form. -/
def formCreds (body : List UInt8) : AppWifiCreds where
  ssid := formField (ascii "ssid") 33 body
  psk := formField (ascii "psk") 65 body
  ssid_length_lt := Nat.lt_succ_of_le (length_formField_le _ 33 body)
  psk_length_lt := Nat.lt_succ_of_le (length_formField_le _ 65 body)

/-- The state of the portal: `pending`, `last_result` and `testing`. -/
structure Portal where
  pending : AppWifiCreds
  lastResult : List UInt8
  testing : Bool
  deriving DecidableEq, Repr

/-- What is sent: the page with a message, which reloads itself while a test runs, or a redirect. -/
inductive HttpReply
  | page (reloads : Bool) (msg : List UInt8)
  | redirect
  deriving DecidableEq, Repr

/-- The result of `http_handle`: whether credentials are waiting, the state, and what is sent. -/
structure HttpResult where
  waiting : Bool
  portal : Portal
  reply : HttpReply
  deriving DecidableEq, Repr

/-- A submitted form. -/
def handleConnect (timeout : ℤ) (portal : Portal) (body : List UInt8) : HttpResult :=
  let portal := { portal with pending := formCreds body }
  if portal.pending.ssid.length = 0 then
    ⟨false, portal, .page portal.testing (ascii "Enter a network name.")⟩
  else
    let text := ascii "Testing \"" ++ cstr portal.pending.ssid ++
      ascii "\"... this takes up to " ++ Decimal.signed timeout ++ ascii " s."
    let portal := { portal with lastResult := text.take 95, testing := true }
    ⟨true, portal, .page true portal.lastResult⟩

/-- Any other request. -/
def handleOther (portal : Portal) (path : List UInt8) : HttpResult :=
  if path = ascii "/" ∨ ascii "/?" <+: path then
    ⟨false, portal, .page portal.testing portal.lastResult⟩
  else ⟨false, portal, .redirect⟩

/-- What is done with what has been read. -/
def handleRead (timeout : ℤ) (portal : Portal) (s : HttpRead) : HttpResult :=
  let (method, rest) := scanWord 7 (cstr s.req)
  let (path, _) := scanWord 63 rest
  match s.body with
  | some (bodyAt, _) =>
    if method = ascii "POST" ∧ path = ascii "/connect" then
      handleConnect timeout portal (cstr (s.req.drop bodyAt))
    else handleOther portal path
  | none => handleOther portal path

/-- `http_handle`. -/
def httpHandle (timeout : ℤ) (portal : Portal) (segments : List (List UInt8)) : HttpResult :=
  handleRead timeout portal (readHttp .start segments)

/-! ### Requests -/

/-- A header field: its name, and what stands behind the colon. -/
structure HeaderField where
  name : List UInt8
  value : List UInt8
  name_plain : '\r'.toUInt8 ∉ name ∧ (0 : UInt8) ∉ name
  value_plain : '\r'.toUInt8 ∉ value ∧ (0 : UInt8) ∉ value

/-- The line of a header field. -/
def HeaderField.line (f : HeaderField) : List UInt8 := f.name ++ ':'.toUInt8 :: f.value

/-- A letter in lower case. -/
def lower (b : UInt8) : UInt8 := if 65 ≤ b ∧ b ≤ 90 then b + 32 else b

/-- A field announces the length of the body, in any letter case. -/
def HeaderField.IsContentLength (f : HeaderField) : Prop :=
  f.name.map lower = ascii "content-length"

instance (f : HeaderField) : Decidable f.IsContentLength :=
  inferInstanceAs (Decidable (f.name.map lower = ascii "content-length"))

/-- The value of a field is a number, with spaces and tabs around it. -/
def HeaderField.Announces (f : HeaderField) (n : ℕ) : Prop :=
  ∃ before digits after : List UInt8, f.value = before ++ (digits ++ after) ∧
    (∀ b ∈ before ++ after, b = ' '.toUInt8 ∨ b = '\t'.toUInt8) ∧
    Decimal.IsNumeral digits ∧ Decimal.value digits = n

/-- A request `POST /connect` with a body, whose length one header field announces. -/
structure ConnectRequest where
  version : List UInt8
  fields : List HeaderField
  body : List UInt8
  version_plain : '\r'.toUInt8 ∉ version ∧ (0 : UInt8) ∉ version
  announced : ∃ f, fields.filter (·.IsContentLength) = [f] ∧ f.Announces body.length

namespace ConnectRequest

/-- The lines of the header. -/
def lines (r : ConnectRequest) : List (List UInt8) :=
  (ascii "POST /connect " ++ r.version) :: r.fields.map HeaderField.line

/-- The header, with the empty line at its end. -/
def head (r : ConnectRequest) : List UInt8 :=
  r.lines.flatMap (· ++ ascii "\r\n") ++ ascii "\r\n"

/-- The request. -/
def text (r : ConnectRequest) : List UInt8 := r.head ++ r.body

/-- A line is not empty, and has neither a carriage return nor a NUL in it. -/
theorem plain_of_mem_lines {r : ConnectRequest} {line : List UInt8} (h : line ∈ r.lines) :
    line ≠ [] ∧ '\r'.toUInt8 ∉ line ∧ (0 : UInt8) ∉ line := by
  rcases List.mem_cons.1 h with rfl | h
  · have hfirst : ascii "POST /connect " ≠ [] ∧ '\r'.toUInt8 ∉ ascii "POST /connect " ∧
        (0 : UInt8) ∉ ascii "POST /connect " := by decide
    refine ⟨fun hnil ↦ hfirst.1 (List.append_eq_nil_iff.1 hnil).1, ?_, ?_⟩
    · rw [List.mem_append]
      exact not_or.2 ⟨hfirst.2.1, r.version_plain.1⟩
    · rw [List.mem_append]
      exact not_or.2 ⟨hfirst.2.2, r.version_plain.2⟩
  · obtain ⟨f, -, rfl⟩ := List.mem_map.1 h
    refine ⟨fun hnil ↦ absurd (List.append_eq_nil_iff.1 hnil).2 (by simp), ?_, ?_⟩
    · rw [HeaderField.line, List.mem_append, List.mem_cons]
      exact not_or.2 ⟨f.name_plain.1, not_or.2 ⟨by decide, f.value_plain.1⟩⟩
    · rw [HeaderField.line, List.mem_append, List.mem_cons]
      exact not_or.2 ⟨f.name_plain.2, not_or.2 ⟨by decide, f.value_plain.2⟩⟩

theorem nul_not_mem_head (r : ConnectRequest) : (0 : UInt8) ∉ r.head := by
  have hcrlf : (0 : UInt8) ∉ ascii "\r\n" := by decide
  rw [head, List.mem_append, List.mem_flatMap]
  refine not_or.2 ⟨fun ⟨line, hline, hmem⟩ ↦ ?_, hcrlf⟩
  rcases List.mem_append.1 hmem with hmem | hmem
  · exact (plain_of_mem_lines hline).2.2 hmem
  · exact hcrlf hmem

/-- The method and the path. -/
theorem scanWord_head (r : ConnectRequest) (rest : List UInt8) :
    ∃ more, scanWord 7 (r.head ++ rest) = (ascii "POST", more) ∧
      (scanWord 63 more).1 = ascii "/connect" := by
  obtain ⟨tail, htail⟩ : ∃ tail, r.head ++ rest =
      ascii "POST" ++ ' '.toUInt8 :: (ascii "/connect" ++ ' '.toUInt8 :: tail) := by
    have hline : ascii "POST /connect " =
        ascii "POST" ++ ' '.toUInt8 :: (ascii "/connect" ++ [' '.toUInt8]) := by decide
    refine ⟨r.version ++ (ascii "\r\n" ++ ((r.fields.map HeaderField.line).flatMap
      (· ++ ascii "\r\n") ++ ascii "\r\n" ++ rest)), ?_⟩
    rw [head, lines, List.flatMap_cons, hline]
    simp only [List.append_assoc, List.cons_append, List.nil_append]
  refine ⟨' '.toUInt8 :: (ascii "/connect" ++ ' '.toUInt8 :: tail), ?_, ?_⟩
  · rw [htail]
    exact scanWord_append (by decide +kernel) (by decide +kernel) (by decide) (by decide +kernel)
  · have hskip : scanWord 63 (' '.toUInt8 :: (ascii "/connect" ++ ' '.toUInt8 :: tail)) =
        scanWord 63 (ascii "/connect" ++ ' '.toUInt8 :: tail) := rfl
    rw [hskip, scanWord_append (by decide +kernel) (by decide +kernel) (by decide)
      (by decide +kernel)]

/-- A request that has been read as far as its body is handled as a form. -/
theorem handleRead_append (r : ConnectRequest) (timeout : ℤ) (portal : Portal) (body : List UInt8)
    (clen : ℤ) : handleRead timeout portal ⟨r.head ++ body, some (r.head.length, clen)⟩ =
      handleConnect timeout portal (cstr body) := by
  obtain ⟨more, hmethod, hpath⟩ := r.scanWord_head (cstr body)
  rw [handleRead, cstr_append r.nul_not_mem_head, hmethod]
  show (if ascii "POST" = ascii "POST" ∧ (scanWord 63 more).1 = ascii "/connect" then _ else _) = _
  rw [if_pos ⟨rfl, hpath⟩]
  dsimp only
  rw [List.drop_left]

end ConnectRequest

/-! ### What a form hands on -/

/-- A form with a network name and a password, each in a field of its own, and other fields. -/
structure Submission where
  fields : List (List UInt8)
  ssid : List UInt8
  psk : List UInt8
  fields_plain : ∀ f ∈ fields, '&'.toUInt8 ∉ f ∧ (0 : UInt8) ∉ f
  submits_ssid : Submits (ascii "ssid") ssid fields
  submits_psk : Submits (ascii "psk") psk fields

/-- What is sent. -/
def Submission.text (sub : Submission) : List UInt8 := joinFields sub.fields

/-- Values that fit are handed on as they are, and none is handed on that does not fit. -/
def ExactOrRefused (sub : Submission) (h : HttpResult) : Prop :=
  (sub.ssid ≠ [] → sub.ssid.length ≤ 32 → sub.psk.length ≤ 64 → h.waiting = true ∧
    h.portal.pending.ssid = sub.ssid ∧ h.portal.pending.psk = sub.psk) ∧
  (32 < sub.ssid.length ∨ 64 < sub.psk.length → h.waiting = false)

theorem nul_not_mem_joinFields {fields : List (List UInt8)} (h : ∀ f ∈ fields, (0 : UInt8) ∉ f) :
    (0 : UInt8) ∉ joinFields fields := by
  induction fields with
  | nil => exact List.not_mem_nil
  | cons f fs ih =>
    obtain ⟨rest, hjoin, hrest⟩ := joinFields_cons f fs
    rw [hjoin, List.mem_append]
    refine not_or.2 ⟨h f List.mem_cons_self, ?_⟩
    obtain ⟨-, rfl⟩ | rfl := hrest
    · exact List.not_mem_nil
    · rw [List.mem_cons]
      exact not_or.2 ⟨by decide, ih fun g hg ↦ h g (List.mem_cons_of_mem f hg)⟩

theorem waiting_handleConnect {timeout : ℤ} {portal : Portal} {body : List UInt8} :
    (handleConnect timeout portal body).waiting = true ↔ (formCreds body).ssid ≠ [] := by
  rw [handleConnect]
  dsimp only
  split
  · next h => exact iff_of_false (by simp) (not_not.2 (List.length_eq_zero_iff.1 h))
  · next h => exact iff_of_true rfl (mt List.length_eq_zero_iff.2 h)

theorem pending_handleConnect {timeout : ℤ} {portal : Portal} {body : List UInt8} :
    (handleConnect timeout portal body).portal.pending = formCreds body := by
  rw [handleConnect]
  dsimp only
  split <;> rfl

/-- The credentials in a form. -/
theorem formCreds_submission (sub : Submission) : (formCreds (cstr sub.text)).ssid =
    sub.ssid.take 32 ∧ (formCreds (cstr sub.text)).psk = sub.psk.take 64 := by
  rw [Submission.text, cstr_eq_self (nul_not_mem_joinFields fun f hf ↦ (sub.fields_plain f hf).2)]
  have hplain (f : List UInt8) (hf : f ∈ sub.fields) := (sub.fields_plain f hf).1
  exact ⟨formField_joinFields (by decide) hplain sub.submits_ssid,
    formField_joinFields (by decide) hplain sub.submits_psk⟩

/-- **What a form hands on**, when the request with it has been read. -/
theorem exactOrRefused_iff {r : ConnectRequest} {sub : Submission} {timeout clen : ℤ}
    {portal : Portal} {segments : List (List UInt8)} (hbody : r.body = sub.text)
    (hread : readHttp .start segments = ⟨r.text, some (r.head.length, clen)⟩) :
    ExactOrRefused sub (httpHandle timeout portal segments) ↔
      sub.ssid = [] ∨ sub.ssid.length ≤ 32 ∧ sub.psk.length ≤ 64 := by
  obtain ⟨hssid, hpsk⟩ := formCreds_submission sub
  have hwaiting : (httpHandle timeout portal segments).waiting = true ↔ sub.ssid ≠ [] := by
    rw [httpHandle, hread, ConnectRequest.text, r.handleRead_append, hbody, waiting_handleConnect,
      hssid]
    exact not_congr (List.take_eq_nil_iff.trans (or_iff_right (by decide)))
  have hpending : (httpHandle timeout portal segments).portal.pending =
      formCreds (cstr sub.text) := by
    rw [httpHandle, hread, ConnectRequest.text, r.handleRead_append, hbody, pending_handleConnect]
  rw [ExactOrRefused, hwaiting, hpending, hssid, hpsk, ← Bool.not_eq_true, hwaiting, not_not]
  constructor
  · rintro ⟨-, hrefused⟩
    rcases Decidable.em (sub.ssid.length ≤ 32 ∧ sub.psk.length ≤ 64) with hfits | hlong
    · exact Or.inr hfits
    · exact Or.inl (hrefused (by omega))
  · rintro (hnil | ⟨hfits, hfits'⟩)
    · exact ⟨fun hne ↦ absurd hnil hne, fun _ ↦ hnil⟩
    · refine ⟨fun hne _ _ ↦ ⟨hne, ?_, ?_⟩, fun hlong ↦ by omega⟩
      · exact List.take_of_length_le hfits
      · exact List.take_of_length_le hfits'

/-- The header field with the length of the body. -/
def contentLengthField (n : ℕ) : HeaderField where
  name := ascii "Content-Length"
  value := ' '.toUInt8 :: Decimal.digits n
  name_plain := by decide
  value_plain := by
    have hdigit {b : UInt8} (h : b ∈ Decimal.digits n) : 48 ≤ b.toNat :=
      ((Decimal.isNumeral_digits _).2 b h).1
    refine ⟨List.not_mem_cons_of_ne_of_not_mem (by decide) fun h ↦ ?_,
      List.not_mem_cons_of_ne_of_not_mem (by decide) fun h ↦ ?_⟩
    · exact absurd (hdigit h) (by decide)
    · exact absurd (hdigit h) (by decide)

theorem announces_contentLengthField (n : ℕ) : (contentLengthField n).Announces n :=
  ⟨[' '.toUInt8], Decimal.digits n, [], by rw [List.append_nil]; rfl, by simp,
    Decimal.isNumeral_digits n, Decimal.value_digits n⟩

theorem isContentLength_contentLengthField (n : ℕ) : (contentLengthField n).IsContentLength := by
  show (ascii "Content-Length").map lower = ascii "content-length"
  decide

theorem http11_plain :
    '\r'.toUInt8 ∉ ascii "HTTP/1.1" ∧ (0 : UInt8) ∉ ascii "HTTP/1.1" := by
  decide

/-- The request that a form is submitted with. -/
def Submission.request (sub : Submission) : ConnectRequest where
  version := ascii "HTTP/1.1"
  fields := [contentLengthField sub.text.length]
  body := sub.text
  version_plain := http11_plain
  announced := ⟨_, List.filter_cons_of_pos
    (decide_eq_true (isContentLength_contentLengthField _)), announces_contentLengthField _⟩

/-- A portal on which nothing has happened. -/
def Portal.idle : Portal := ⟨⟨[], [], Nat.zero_lt_succ 32, Nat.zero_lt_succ 64⟩, [], false⟩

/-- A form with a network name of 33 bytes. -/
def longSubmission : Submission where
  fields := [ascii "ssid=" ++ List.replicate 33 97, ascii "psk="]
  ssid := List.replicate 33 97
  psk := []
  fields_plain := by decide
  submits_ssid := by
    refine ⟨List.replicate 33 97, encodes_self fun b hb ↦ ?_, by decide⟩
    rw [List.eq_of_mem_replicate hb]
    decide
  submits_psk := ⟨[], .nil, by decide⟩

/-- Its first 32 bytes are handed on. -/
theorem not_exactOrRefused_long :
    readHttp .start [longSubmission.request.text] =
      ⟨longSubmission.request.text, some (longSubmission.request.head.length, 43)⟩ ∧
    (httpHandle 30 .idle [longSubmission.request.text]).waiting = true ∧
    (httpHandle 30 .idle [longSubmission.request.text]).portal.pending.ssid =
      List.replicate 32 97 ∧
    ¬ ExactOrRefused longSubmission (httpHandle 30 .idle [longSubmission.request.text]) := by
  refine ⟨by decide +kernel, by decide +kernel, by decide +kernel, fun h ↦ ?_⟩
  exact absurd (h.2 (Or.inl (by decide))) (by decide +kernel)

/-- A network `ab` with the password `c d`. -/
def shortSubmission : Submission where
  fields := [ascii "x", ascii "psk=c+%64", ascii "ssid=ab"]
  ssid := ascii "ab"
  psk := ascii "c d"
  fields_plain := by decide
  submits_ssid := ⟨_, encodes_self (by decide +kernel), by decide +kernel⟩
  submits_psk := by
    refine ⟨ascii "c+%64", ?_, by decide⟩
    exact .literal (by decide) (by decide) (by decide)
      (.plus (.percent (x := 6) (y := 4) (by decide) (by decide) rfl .nil))

theorem exactOrRefused_iff_short :
    ExactOrRefused shortSubmission (httpHandle 30 .idle [shortSubmission.request.text]) ↔
      shortSubmission.ssid = [] ∨
        shortSubmission.ssid.length ≤ 32 ∧ shortSubmission.psk.length ≤ 64 :=
  @exactOrRefused_iff shortSubmission.request _ 30 19 _ _ rfl (by decide +kernel)

end ThinEdge.Provisioner
