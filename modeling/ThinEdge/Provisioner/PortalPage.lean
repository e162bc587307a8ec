import ThinEdge.Provisioner.PortalSegments

/-!
# The pages of the captive portal

`send_all`, `send_str` and `send_page` of `apps/wifi-provisioner/src/softap.c`. A response goes out
in parts, each as far as the socket takes it; a part that fails does not keep the next ones back, so
what a client receives can have gaps.

The announced length is that of the body, for every message (`findBody_response`), and so a client
that has received the header sees whether something is missing (`Delivery.notices`).
-/

namespace ThinEdge.Provisioner

open Bytes CText Net Settings

/-! ### What is sent -/

/-- `form_head`. -/
def formHead : List UInt8 :=
  ascii "<!doctype html><html><head><meta name=viewport " ++
  ascii "content='width=device-width,initial-scale=1'><title>Wi-Fi setup</title>" ++
  ascii "<style>body\x7bfont-family:sans-serif;max-width:24em;margin:2em auto;" ++
  ascii "padding:0 1em\x7dinput,button\x7bwidth:100%;font-size:1.1em;margin:.3em 0;" ++
  ascii "padding:.4em\x7d</style>"

/-- `form_head2`. -/
def formHead2 : List UInt8 := ascii "</head><body><h2>Wi-Fi setup</h2>"

/-- `refresh`. -/
def refresh : List UInt8 := ascii "<meta http-equiv=refresh content='3;url=/'>"

/-- `form_body`. -/
def formBody : List UInt8 :=
  ascii "<form method=post action=/connect>" ++
  ascii "<label>Network (SSID)<input name=ssid required maxlength=32></label>" ++
  ascii "<label>Password<input name=psk type=password maxlength=64></label>" ++
  ascii "<button>Connect</button></form>" ++
  ascii "<p><small>The device tests the network, then restarts into its " ++
  ascii "application. If this page comes back, the test failed.</small></p>" ++
  ascii "</body></html>"

/-- `note`, with room for 159 bytes. -/
def pageNote (msg : List UInt8) : List UInt8 :=
  if cstr msg = [] then [] else (ascii "<p><b>" ++ cstr msg ++ ascii "</b></p>").take 159

/-- `hdr`, with room for 95 bytes. -/
def pageHeader (len : ℕ) : List UInt8 :=
  (ascii "HTTP/1.1 200 OK\r\nContent-Type: text/html\r\n" ++
    ascii "Content-Length: " ++ Decimal.digits len ++
    ascii "\r\nConnection: close\r\n\r\n").take 95

/-- The parts of a page behind its header, as `send_page` sends them. -/
def pageBody (reloads : Bool) (msg : List UInt8) : List (List UInt8) :=
  [formHead, if reloads then refresh else [], formHead2, pageNote msg, formBody]

/-- The header of the redirect. -/
def redirectHeader : List UInt8 :=
  ascii "HTTP/1.1 302 Found\r\nLocation: http://192.168.4.1/\r\n" ++
    ascii "Content-Length: 0\r\nConnection: close\r\n\r\n"

namespace HttpReply

/-- What is sent behind the header. -/
def body : HttpReply → List (List UInt8)
  | .page reloads msg => pageBody reloads msg
  | .redirect => []

/-- The header. -/
def header : HttpReply → List UInt8
  | .page reloads msg => pageHeader (pageBody reloads msg).flatten.length
  | .redirect => redirectHeader

/-- The parts of a response. -/
def parts (r : HttpReply) : List (List UInt8) := r.header :: r.body

/-- The whole response. -/
def response (r : HttpReply) : List UInt8 := r.parts.flatten

end HttpReply

/-! ### How it is sent -/

/-- `send_all`, given what each `zsock_send` returns: what gets through, and the answers that are
left. -/
def sendAll : List ℤ → List UInt8 → List UInt8 × List ℤ
  | answers, [] => ([], answers)
  | [], _ => ([], [])
  | w :: answers, s@(_ :: _) =>
    if w ≤ 0 then ([], answers)
    else
      let (rest, left) := sendAll answers (s.drop w.toNat)
      (s.take w.toNat ++ rest, left)

/-- The parts one after another. -/
def sendParts : List ℤ → List (List UInt8) → List UInt8
  | _, [] => []
  | answers, part :: parts =>
    let (sent, left) := sendAll answers part
    sent ++ sendParts left parts

/-! ### What gets through -/

theorem sendAll_prefix (answers : List ℤ) (s : List UInt8) : (sendAll answers s).1 <+: s := by
  induction answers, s using sendAll.induct with
  | case1 answers => cases answers <;> exact List.nil_prefix
  | case2 s hs =>
    cases s with
    | nil => exact absurd rfl hs
    | cons b s => exact List.nil_prefix
  | case3 w answers b s hw =>
    rw [sendAll, if_pos hw]
    exact List.nil_prefix
  | case4 w answers b s hw rest left heq ih =>
    rw [sendAll, if_neg hw, heq]
    rw [heq] at ih
    conv_rhs => rw [← List.take_append_drop w.toNat (b :: s)]
    exact (List.prefix_append_right_inj _).2 ih

/-- What gets through is the whole response, or shorter. -/
theorem length_sendParts_le (answers : List ℤ) (parts : List (List UInt8)) :
    (sendParts answers parts).length ≤ parts.flatten.length ∧
      ((sendParts answers parts).length = parts.flatten.length →
        sendParts answers parts = parts.flatten) := by
  induction parts generalizing answers with
  | nil => exact ⟨Nat.le_refl 0, fun _ ↦ rfl⟩
  | cons part parts ih =>
    rw [sendParts, List.flatten_cons]
    obtain ⟨hle, heq⟩ := ih (sendAll answers part).2
    have hpre := sendAll_prefix answers part
    have hpart := hpre.length_le
    dsimp only
    rw [List.length_append, List.length_append]
    refine ⟨Nat.add_le_add hpart hle, fun hlen ↦ ?_⟩
    rw [hpre.eq_of_length (by omega), heq (by omega)]

/-! ### The announced length -/

/-- A number below a power of ten has as many digits at most. -/
theorem length_digits_le {w n : ℕ} (hw : 0 < w) (h : n < 10 ^ w) :
    (Decimal.digits n).length ≤ w := by
  have hlen := congrArg List.length (Decimal.padded_eq_fixed hw h)
  rw [Decimal.padded, List.length_append, List.length_replicate, Decimal.length_fixed] at hlen
  omega

theorem length_flatten_pageBody_le (reloads : Bool) (msg : List UInt8) :
    (pageBody reloads msg).flatten.length ≤ 2000 := by
  have hnote : (pageNote msg).length ≤ 159 := by
    rw [pageNote]
    split
    · exact Nat.zero_le _
    · exact List.length_take_le _ _
  have hreload : (if reloads then refresh else []).length ≤ 50 := by
    cases reloads
    · exact Nat.zero_le _
    · decide
  have hhead : formHead.length ≤ 400 := by
    simp only [formHead, List.length_append]
    decide
  have hhead2 : formHead2.length ≤ 100 := by decide
  have hform : formBody.length ≤ 600 := by
    simp only [formBody, List.length_append]
    decide
  simp only [pageBody, List.flatten_cons, List.flatten_nil, List.length_append, List.length_nil]
  omega

/-- The lines of a page's header behind the first. -/
def pageLines (len : ℕ) : List (List UInt8) :=
  [ascii "Content-Type: text/html", ascii "Content-Length: " ++ Decimal.digits len,
    ascii "Connection: close"]

/-- The header has room in its array. -/
theorem pageHeader_eq {len : ℕ} (h : len ≤ 2000) : pageHeader len =
    ascii "HTTP/1.1 200 OK" ++ (ascii "\r\n" ++ ((pageLines len).flatMap (· ++ ascii "\r\n") ++
      ascii "\r\n")) := by
  have hstart : ascii "HTTP/1.1 200 OK\r\nContent-Type: text/html\r\n" ++
      ascii "Content-Length: " = ascii "HTTP/1.1 200 OK" ++ (ascii "\r\n" ++
        (ascii "Content-Type: text/html" ++ (ascii "\r\n" ++ ascii "Content-Length: "))) := by
    decide
  have hend : ascii "\r\nConnection: close\r\n\r\n" =
      ascii "\r\n" ++ (ascii "Connection: close" ++ (ascii "\r\n" ++ ascii "\r\n")) := by
    decide
  have hdigits : (Decimal.digits len).length ≤ 4 :=
    length_digits_le (by decide) (Nat.lt_of_le_of_lt h (by decide))
  have hroom : (ascii "HTTP/1.1 200 OK\r\nContent-Type: text/html\r\n").length +
      (ascii "Content-Length: ").length +
      (ascii "\r\nConnection: close\r\n\r\n").length ≤ 91 := by decide
  rw [pageHeader, List.take_of_length_le, hstart, hend]
  · simp only [pageLines, List.flatMap_cons, List.flatMap_nil, List.append_assoc, List.append_nil]
  · simp only [List.length_append]
    omega

/-- Where the header of a page ends, whatever follows. -/
theorem afterText_pageHeader {len : ℕ} (h : len ≤ 2000) (rest : List UInt8) :
    afterText (ascii "\r\n\r\n") (pageHeader len ++ rest) = some rest := by
  have hdigits : ∀ b ∈ Decimal.digits len, b ≠ '\r'.toUInt8 := by
    rintro b hb rfl
    exact absurd ((Decimal.isNumeral_digits len).2 _ hb).1 (by decide)
  have hplain : ∀ line ∈ pageLines len, line ≠ [] ∧ '\r'.toUInt8 ∉ line := by
    have hlength : ascii "Content-Length: " ≠ [] ∧ '\r'.toUInt8 ∉ ascii "Content-Length: " := by
      decide
    intro line hline
    rcases List.mem_cons.1 hline with rfl | hline
    · decide
    rcases List.mem_cons.1 hline with rfl | hline
    · refine ⟨fun hnil ↦ hlength.1 (List.append_eq_nil_iff.1 hnil).1, fun hmem ↦ ?_⟩
      exact (List.mem_append.1 hmem).elim hlength.2 fun hmem ↦ hdigits _ hmem rfl
    · rw [List.mem_singleton.1 hline]
      decide
  have hfirst : '\r'.toUInt8 ∉ ascii "HTTP/1.1 200 OK" := by decide
  have htwice : ascii "\r\n\r\n" = '\r'.toUInt8 :: '\n'.toUInt8 :: ascii "\r\n" := by
    decide
  rw [pageHeader_eq h, List.append_assoc, htwice, afterText_append_of_not_mem hfirst, ← htwice,
    List.append_assoc]
  exact afterText_lines hplain rest

/-- The length behind the first `Content-Length:`. -/
theorem contentLength_eq {before rest : List UInt8} {len : ℕ}
    (hfirst : afterText (ascii "Content-Length:") before = some []) (hlen : len < 2147483648) :
    contentLength (before ++ 32 :: (Decimal.digits len ++ '\r'.toUInt8 :: rest)) = len := by
  rw [contentLength, afterText_append hfirst]
  show atoi (32 :: _) = _
  rw [atoi_numeral (Decimal.isNumeral_digits len), Decimal.value_digits]
  · rintro b hb
    obtain rfl := Option.some.inj hb
    decide
  · rw [Decimal.value_digits]
    exact hlen

theorem contentLength_pageHeader {len : ℕ} (h : len ≤ 2000) (rest : List UInt8) :
    contentLength (pageHeader len ++ rest) = len := by
  have hstart : ascii "HTTP/1.1 200 OK" ++ (ascii "\r\n" ++ (ascii "Content-Type: text/html" ++
      (ascii "\r\n" ++ ascii "Content-Length: "))) =
      ascii "HTTP/1.1 200 OK\r\nContent-Type: text/html\r\nContent-Length:" ++ [32] := by
    decide
  have hend : ascii "\r\n" = '\r'.toUInt8 :: ascii "\n" := by decide
  have hsplit : pageHeader len ++ rest =
      ascii "HTTP/1.1 200 OK\r\nContent-Type: text/html\r\nContent-Length:" ++
        32 :: (Decimal.digits len ++ '\r'.toUInt8 :: (ascii "\n" ++
          (ascii "Connection: close" ++ (ascii "\r\n" ++ (ascii "\r\n" ++ rest))))) := by
    rw [List.append_cons, ← hstart, pageHeader_eq h, ← List.cons_append, ← hend]
    simp only [pageLines, List.flatMap_cons, List.flatMap_nil, List.append_assoc, List.append_nil]
  rw [hsplit]
  exact contentLength_eq (by decide) (by omega)

theorem contentLength_redirectHeader (rest : List UInt8) :
    contentLength (redirectHeader ++ rest) = 0 := by
  have hzero : Decimal.digits 0 = [48] := Decimal.digits_of_lt (by decide)
  have hsplit : redirectHeader =
      ascii "HTTP/1.1 302 Found\r\nLocation: http://192.168.4.1/\r\nContent-Length:" ++
        32 :: (Decimal.digits 0 ++ '\r'.toUInt8 :: ascii "\nConnection: close\r\n\r\n") := by
    rw [hzero]
    decide
  rw [hsplit, List.append_assoc, List.cons_append, List.append_assoc, List.cons_append]
  exact contentLength_eq (by decide) (by decide)

namespace HttpReply

/-- **The announced length is that of the body**, in whatever begins with the header. -/
theorem findBody_header (r : HttpReply) (rest : List UInt8) :
    findBody (r.header ++ rest) = some (r.header.length, (r.body.flatten.length : ℤ)) := by
  cases r with
  | page reloads msg =>
    have hlen := length_flatten_pageBody_le reloads msg
    rw [header, findBody, afterText_pageHeader hlen, Option.map_some, contentLength_pageHeader hlen,
      List.length_append, Nat.add_sub_cancel]
    rfl
  | redirect =>
    have hends : afterText (ascii "\r\n\r\n") redirectHeader = some [] := by decide
    rw [header, findBody, afterText_append hends, Option.map_some, contentLength_redirectHeader,
      List.length_append, Nat.add_sub_cancel]
    rfl

/-- **A client that has the header sees what is missing**, whatever became of the other parts. -/
theorem complete_iff (r : HttpReply) (answers : List ℤ) {rest : List UInt8}
    (h : sendParts answers r.parts = r.header ++ rest) :
    findBody (sendParts answers r.parts) = some (r.header.length, (r.body.flatten.length : ℤ)) ∧
      (rest.length = r.body.flatten.length ↔ sendParts answers r.parts = r.response) := by
  have hresponse : r.response = r.header ++ r.body.flatten := rfl
  refine ⟨by rw [h, r.findBody_header], fun hlen ↦ ?_, fun hall ↦ ?_⟩
  · refine (length_sendParts_le answers r.parts).2 ?_
    show _ = r.response.length
    rw [h, hresponse, List.length_append, List.length_append, hlen]
  · rw [h, hresponse] at hall
    rw [List.append_cancel_left hall]

end HttpReply

end ThinEdge.Provisioner
