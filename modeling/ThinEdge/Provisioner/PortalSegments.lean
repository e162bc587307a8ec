import ThinEdge.Provisioner.PortalHttp

/-!
# The pieces a request arrives in

The HTTP server of the captive portal looks for the end of the header and for the announced length
in whatever has arrived, and handles what it has when the connection ends. `segmentation_iff` says
for which requests neither can be noticed; these are hardly any.

It rests on `exists_readHttp`, how far the loop reads whatever the pieces are, and on
`exists_splits`, that it can be made to stop there.
-/

namespace ThinEdge.Provisioner

open Bytes CText Net Settings

/-! ### The end of the header -/

/-- The empty line behind lines that are not empty. -/
theorem afterText_lines {lines : List (List UInt8)}
    (h : ∀ line ∈ lines, line ≠ [] ∧ '\r'.toUInt8 ∉ line) (rest : List UInt8) :
    afterText (ascii "\r\n\r\n")
      (ascii "\r\n" ++ (lines.flatMap (· ++ ascii "\r\n") ++ ascii "\r\n" ++ rest)) =
        some rest := by
  have hcrlf : ascii "\r\n" = ['\r'.toUInt8, '\n'.toUInt8] := by decide
  have htwice : ascii "\r\n\r\n" = '\r'.toUInt8 :: '\n'.toUInt8 :: ascii "\r\n" := by
    decide
  induction lines with
  | nil =>
    have hsplit : ascii "\r\n\r\n" = ascii "\r\n" ++ ascii "\r\n" := by decide
    rw [hsplit, List.flatMap_nil, List.nil_append, ← List.append_assoc]
    exact afterText_append_self _ _
  | cons line lines ih =>
    obtain ⟨hne, hcr⟩ := h line List.mem_cons_self
    obtain ⟨b, line, rfl⟩ := List.exists_cons_of_ne_nil hne
    -- a line that is not empty follows, so the empty line is not here
    have hpre : ¬ ascii "\r\n\r\n" <+: '\r'.toUInt8 :: '\n'.toUInt8 :: (b :: line ++
        (ascii "\r\n" ++ (lines.flatMap (· ++ ascii "\r\n") ++ ascii "\r\n" ++ rest))) := by
      rw [htwice, List.cons_prefix_cons, List.cons_prefix_cons, hcrlf, List.cons_append,
        List.cons_prefix_cons]
      exact fun h ↦ hcr (h.2.2.1 ▸ List.mem_cons_self)
    have hskip : '\r'.toUInt8 ∉ '\n'.toUInt8 :: b :: line := by
      rw [List.mem_cons]
      exact not_or.2 ⟨by decide, hcr⟩
    calc afterText (ascii "\r\n\r\n") (ascii "\r\n" ++ (((b :: line) :: lines).flatMap
          (· ++ ascii "\r\n") ++ ascii "\r\n" ++ rest))
        = afterText (ascii "\r\n\r\n") ('\r'.toUInt8 :: '\n'.toUInt8 :: (b :: line ++
            (ascii "\r\n" ++ (lines.flatMap (· ++ ascii "\r\n") ++ ascii "\r\n" ++ rest)))) := by
          rw [List.flatMap_cons]
          simp only [hcrlf, List.append_assoc, List.cons_append, List.nil_append]
      _ = afterText (ascii "\r\n\r\n") ('\n'.toUInt8 :: b :: line ++
            (ascii "\r\n" ++ (lines.flatMap (· ++ ascii "\r\n") ++ ascii "\r\n" ++ rest))) := by
          rw [afterText, if_neg hpre]
          rfl
      _ = some rest := by
          rw [htwice, afterText_append_of_not_mem hskip, ← htwice]
          exact ih fun l hl ↦ h l (List.mem_cons_of_mem _ hl)

namespace ConnectRequest

variable (r : ConnectRequest)

/-- The header ends where it should. -/
theorem afterText_head (rest : List UInt8) :
    afterText (ascii "\r\n\r\n") (r.head ++ rest) = some rest := by
  have htwice : ascii "\r\n\r\n" = '\r'.toUInt8 :: '\n'.toUInt8 :: ascii "\r\n" := by
    decide
  have hfirst := (r.plain_of_mem_lines List.mem_cons_self).2.1
  have hfields : ∀ line ∈ r.fields.map HeaderField.line, line ≠ [] ∧ '\r'.toUInt8 ∉ line :=
    fun line hline ↦
      have hplain := r.plain_of_mem_lines (List.mem_cons_of_mem _ hline)
      ⟨hplain.1, hplain.2.1⟩
  rw [head, lines, List.flatMap_cons, List.append_assoc, List.append_assoc, List.append_assoc,
    htwice, afterText_append_of_not_mem hfirst, ← htwice, ← List.append_assoc _ _ rest]
  exact afterText_lines hfields rest

/-- It does not end earlier. -/
theorem afterText_take_head {m : ℕ} (h : m < r.head.length) :
    afterText (ascii "\r\n\r\n") (r.head.take m) = none := by
  refine Option.eq_none_iff_forall_ne_some.2 fun after hafter ↦ ?_
  obtain ⟨before, heq, -⟩ := afterText_eq_some.1 hafter
  obtain ⟨before', heq', hfirst⟩ := afterText_eq_some.1 (r.afterText_head [])
  have hle : before'.length ≤ before.length := by
    refine hfirst before (after ++ r.head.drop m) ?_
    rw [← List.append_assoc (ascii _), ← List.append_assoc before, ← heq, List.take_append_drop,
      List.append_nil]
  have hlen := congrArg List.length heq
  have hlen' := congrArg List.length heq'
  simp only [List.length_append, List.length_take, List.length_nil] at hlen hlen'
  omega

/-- The length that is found when `k` bytes of the body have arrived. -/
def announcedBy (k : ℕ) : ℤ := contentLength (cstr (r.head ++ r.body.take k))

theorem findBody_take_of_lt {n : ℕ} (h : n < r.head.length) :
    findBody (cstr (r.text.take n)) = none := by
  have htake : r.text.take n = r.head.take n := List.take_append_of_le_length (Nat.le_of_lt h)
  rw [htake, cstr_eq_self fun hmem ↦ r.nul_not_mem_head (List.mem_of_mem_take hmem), findBody,
    r.afterText_take_head h, Option.map_none]

theorem take_text (k : ℕ) : r.text.take (r.head.length + k) = r.head ++ r.body.take k :=
  List.take_length_add_append k

theorem findBody_take_add (k : ℕ) : findBody (cstr (r.text.take (r.head.length + k))) =
    some (r.head.length, r.announcedBy k) := by
  rw [r.take_text, announcedBy, cstr_append r.nul_not_mem_head, findBody, r.afterText_head,
    Option.map_some, List.length_append, Nat.add_sub_cancel]

theorem head_ne_nil : r.head ≠ [] := fun hnil ↦
  absurd (List.append_eq_nil_iff.1 hnil).2 (by decide)

/-! ### How far the loop reads -/

/-- The loop stops with `j` bytes of the body when the header was complete with `k` of them: at
once, or when as much as was announced has arrived. -/
def StopsAt (k j : ℕ) : Prop := if r.announcedBy k ≤ k then j = k else r.announcedBy k ≤ j

/-- The first `n` bytes of the request have been read. -/
structure Reads (s : HttpRead) (n : ℕ) : Prop where
  le : n ≤ r.text.length
  req : s.req = r.text.take n
  body_none : n < r.head.length → s.body = none
  body_some : ∀ j, n = r.head.length + j → ∃ k ≤ j, s.body = some (r.head.length, r.announcedBy k)

variable {r}

theorem reads_start : r.Reads .start 0 where
  le := Nat.zero_le _
  req := rfl
  body_none _ := rfl
  body_some j h := by
    have hlen := List.length_pos_iff.2 (head_ne_nil r)
    omega

theorem Reads.length {s : HttpRead} {n : ℕ} (h : r.Reads s n) : s.req.length = n := by
  rw [h.req, List.length_take, Nat.min_eq_left h.le]

/-- A loop that has not stopped reads on, and when it stops it is for a reason. -/
theorem Reads.recv {s : HttpRead} {n n' : ℕ} {bytes : List UInt8} (h : r.Reads s n)
    (hs : s.complete = false) (hn : n ≤ n') (hle : n' ≤ r.text.length)
    (hbytes : r.text.take n ++ bytes = r.text.take n') :
    r.Reads (s.recv bytes) n' ∧ ((s.recv bytes).complete = true →
      ∃ k j, k ≤ j ∧ r.StopsAt k j ∧ n' = r.head.length + j) := by
  have hreq : s.req ++ bytes = r.text.take n' := by rw [h.req, hbytes]
  have hlen : (s.req ++ bytes).length = n' := by
    rw [hreq, List.length_take, Nat.min_eq_left hle]
  rcases Nat.lt_or_ge n r.head.length with hlt | hge
  · -- the header was not complete before
    have hbody : (s.recv bytes).body = findBody (cstr (r.text.take n')) := by
      rw [HttpRead.recv, hreq, h.body_none hlt]
      rfl
    rcases Nat.lt_or_ge n' r.head.length with hlt' | hge'
    · rw [r.findBody_take_of_lt hlt'] at hbody
      refine ⟨⟨hle, hreq, fun _ ↦ hbody, fun j hj ↦ by omega⟩, fun hcomplete ↦ ?_⟩
      rw [HttpRead.complete, hbody] at hcomplete
      exact absurd hcomplete (by simp)
    · obtain ⟨j, rfl⟩ := Nat.exists_eq_add_of_le hge'
      rw [r.findBody_take_add] at hbody
      refine ⟨⟨hle, hreq, fun hlt ↦ by omega, fun j' hj ↦ ⟨j, by omega, hbody⟩⟩,
        fun hcomplete ↦ ⟨j, j, Nat.le_refl j, ?_, rfl⟩⟩
      rw [HttpRead.complete, hbody] at hcomplete
      have hle' := of_decide_eq_true hcomplete
      rw [show (s.recv bytes).req.length = r.head.length + j from hlen] at hle'
      rw [StopsAt, if_pos (by omega)]
  · obtain ⟨j, rfl⟩ := Nat.exists_eq_add_of_le hge
    obtain ⟨j', rfl⟩ := Nat.exists_eq_add_of_le (hge.trans hn)
    obtain ⟨k, hk, hbody⟩ := h.body_some j rfl
    -- the length was announced with the header, and a text behind it changes nothing
    have hbody' : (s.recv bytes).body = some (r.head.length, r.announcedBy k) := by
      rw [HttpRead.recv, hbody]
      rfl
    refine ⟨⟨hle, hreq, fun hlt ↦ by omega, fun i hi ↦ ⟨k, by omega, hbody'⟩⟩,
      fun hcomplete ↦ ⟨k, j', by omega, ?_, rfl⟩⟩
    rw [HttpRead.complete, hbody] at hs
    rw [HttpRead.complete, hbody'] at hcomplete
    have hgt := of_decide_eq_false hs
    have hle' := of_decide_eq_true hcomplete
    rw [h.length] at hgt
    rw [show (s.recv bytes).req.length = r.head.length + j' from hlen] at hle'
    rw [StopsAt, if_neg (by omega)]
    omega

theorem readHttp_cons {s : HttpRead} {segment : List UInt8} (segments : List (List UInt8))
    (hne : segment ≠ []) (hfit : s.req.length + segment.length ≤ 1535) :
    readHttp s (segment :: segments) =
      if (s.recv segment).complete then s.recv segment
      else readHttp (s.recv segment) segments := by
  rw [readHttp, List.take_of_length_le (Nat.le_sub_of_add_le' hfit)]
  exact if_neg hne

/-- **How far the loop reads**: to the end of what arrives, or to where it stops. -/
theorem exists_readHttp (hlen : r.text.length ≤ 1535) {segments : List (List UInt8)} {s : HttpRead}
    {n m : ℕ} (h : r.Reads s n) (hs : s.complete = false) (hne : ∀ segment ∈ segments, segment ≠ [])
    (hm : m ≤ r.text.length) (hflat : r.text.take n ++ segments.flatten = r.text.take m) :
    ∃ n', r.Reads (readHttp s segments) n' ∧ n' ≤ m ∧
      (n' = m ∨ ∃ k j, k ≤ j ∧ r.StopsAt k j ∧ n' = r.head.length + j) := by
  have hcount := congrArg List.length hflat
  rw [List.length_append, List.length_take, List.length_take, Nat.min_eq_left h.le,
    Nat.min_eq_left hm] at hcount
  induction segments generalizing s n with
  | nil =>
    rw [List.flatten_nil, List.length_nil, Nat.add_zero] at hcount
    exact ⟨n, h, Nat.le_of_eq hcount, Or.inl hcount⟩
  | cons segment segments ih =>
    rw [List.flatten_cons, List.length_append] at hcount
    rw [List.flatten_cons, ← List.append_assoc] at hflat
    have hbytes : r.text.take n ++ segment = r.text.take (n + segment.length) := by
      have htake := congrArg (List.take (n + segment.length)) hflat
      rwa [List.take_take, Nat.min_eq_left (by omega), List.take_left'] at htake
      rw [List.length_append, List.length_take, Nat.min_eq_left h.le]
    obtain ⟨hreads, hstop⟩ := h.recv hs (Nat.le_add_right n _) (by omega) hbytes
    rw [readHttp_cons segments (hne segment List.mem_cons_self) (by rw [h.length]; omega)]
    split
    · next hcomplete => exact ⟨_, hreads, by omega, Or.inr (hstop hcomplete)⟩
    · next hcomplete =>
      refine ih hreads (Bool.eq_false_iff.2 hcomplete)
        (fun seg hseg ↦ hne seg (List.mem_cons_of_mem _ hseg)) ?_ (by omega)
      rw [← hbytes]
      exact hflat

/-! ### What is handled -/

variable (r)

/-- The pieces of the whole request. -/
def Splits (segments : List (List UInt8)) : Prop :=
  (∀ segment ∈ segments, segment ≠ []) ∧ segments.flatten = r.text

/-- The pieces of a request whose body does not arrive as far as it is announced. -/
def EndsEarly (segments : List (List UInt8)) : Prop :=
  (∀ segment ∈ segments, segment ≠ []) ∧
    ∃ m < r.text.length, segments.flatten = r.text.take m

/-- The credentials in what has arrived of the body. -/
def credsUpTo (j : ℕ) : AppWifiCreds := formCreds (cstr (r.body.take j))

/-- The request can be split as one likes. -/
def SplitIndependent (timeout : ℤ) (portal : Portal) : Prop :=
  ∀ segments segments', r.Splits segments → r.Splits segments' →
    (httpHandle timeout portal segments).portal.pending =
      (httpHandle timeout portal segments').portal.pending

/-- Nothing is handed on of a part of the request. -/
def RefusesEarlyEnd (timeout : ℤ) (portal : Portal) : Prop :=
  ∀ segments, r.EndsEarly segments → (httpHandle timeout portal segments).waiting = false

/-- Wherever the loop can stop, the body up to there has the credentials of all of it. -/
def StopsHarmless : Prop :=
  ∀ k j, k ≤ j → j < r.body.length → r.StopsAt k j → r.credsUpTo j = r.credsUpTo r.body.length

/-- No part of the body has a network name in it. -/
def PartsNameless : Prop := ∀ j < r.body.length, (r.credsUpTo j).ssid = []

variable {r} {timeout : ℤ} {portal : Portal}

theorem length_text : r.text.length = r.head.length + r.body.length := List.length_append

theorem take_length_text : r.text.take r.text.length = r.text := List.take_length

theorem Reads.waiting_of_lt {s : HttpRead} {n : ℕ} (h : r.Reads s n) (hlt : n < r.head.length) :
    (handleRead timeout portal s).waiting = false := by
  rw [handleRead, h.body_none hlt]
  dsimp only
  rw [handleOther]
  split <;> rfl

theorem Reads.handleRead_eq {s : HttpRead} {j : ℕ} (h : r.Reads s (r.head.length + j)) :
    handleRead timeout portal s = handleConnect timeout portal (cstr (r.body.take j)) := by
  obtain ⟨k, -, hbody⟩ := h.body_some j rfl
  obtain ⟨req, body⟩ := s
  obtain rfl : body = _ := hbody
  obtain rfl : req = _ := h.req
  rw [r.take_text, r.handleRead_append]

/-- What the pieces of the whole request come to. -/
theorem exists_pending_of_splits (hlen : r.text.length ≤ 1535) {segments : List (List UInt8)}
    (h : r.Splits segments) : ∃ j, (j = r.body.length ∨
      j < r.body.length ∧ ∃ k ≤ j, r.StopsAt k j) ∧
      (httpHandle timeout portal segments).portal.pending = r.credsUpTo j := by
  obtain ⟨n, hreads, hle, hend⟩ := exists_readHttp hlen (reads_start (r := r)) rfl h.1
    (Nat.le_refl r.text.length) (by rw [take_length_text, h.2]; rfl)
  rw [length_text] at hle hend
  have hge : r.head.length ≤ n := by
    rcases hend with rfl | ⟨k, j, -, -, rfl⟩ <;> exact Nat.le_add_right _ _
  obtain ⟨j, rfl⟩ := Nat.exists_eq_add_of_le hge
  refine ⟨j, ?_, by rw [httpHandle, hreads.handleRead_eq, pending_handleConnect, credsUpTo]⟩
  rcases Nat.lt_or_ge j r.body.length with hlt | hge
  · rcases hend with hend | ⟨k, j', hk, hstops, heq⟩
    · omega
    · obtain rfl : j = j' := by omega
      exact Or.inr ⟨hlt, k, hk, hstops⟩
  · exact Or.inl (by omega)

/-- The first piece has the header in it and `k` bytes of the body. -/
def first (r : ConnectRequest) (k : ℕ) : HttpRead := HttpRead.start.recv (r.head ++ r.body.take k)

theorem append_take_ne_nil (k : ℕ) : r.head ++ r.body.take k ≠ [] := fun hnil ↦
  r.head_ne_nil (List.append_eq_nil_iff.1 hnil).1

theorem drop_ne_nil {xs : List UInt8} {k : ℕ} (h : k < xs.length) : xs.drop k ≠ [] :=
  mt List.drop_eq_nil_iff.1 (Nat.not_le_of_lt h)

theorem body_first (k : ℕ) : (r.first k).body = some (r.head.length, r.announcedBy k) := by
  show findBody (cstr (r.head ++ r.body.take k)) = _
  rw [← r.take_text, r.findBody_take_add]

theorem reads_first {k : ℕ} (hk : k ≤ r.body.length) : r.Reads (r.first k) (r.head.length + k) :=
  (reads_start.recv rfl (Nat.zero_le _) (by rw [length_text]; omega) (r.take_text k).symm).1

theorem complete_first_iff {k : ℕ} (hk : k ≤ r.body.length) :
    (r.first k).complete = true ↔ r.announcedBy k ≤ k := by
  rw [HttpRead.complete, body_first, decide_eq_true_iff, (reads_first hk).length]
  omega

theorem readHttp_first (hlen : r.text.length ≤ 1535) {k : ℕ} (hk : k ≤ r.body.length)
    (segments : List (List UInt8)) : readHttp .start ((r.head ++ r.body.take k) :: segments) =
      if (r.first k).complete then r.first k else readHttp (r.first k) segments := by
  refine readHttp_cons segments (append_take_ne_nil k) ?_
  rw [length_text] at hlen
  show 0 + _ ≤ _
  rw [List.length_append, List.length_take]
  omega

/-- All that arrives does so in one piece. -/
theorem httpHandle_single (hlen : r.text.length ≤ 1535) {k : ℕ} (hk : k ≤ r.body.length) :
    httpHandle timeout portal [r.head ++ r.body.take k] =
      handleConnect timeout portal (cstr (r.body.take k)) := by
  have hread : readHttp .start [r.head ++ r.body.take k] = r.first k := by
    rw [readHttp_first hlen hk, readHttp, ite_self]
  rw [httpHandle, hread, (reads_first hk).handleRead_eq]

/-- The loop stops at once when enough is there with the header. -/
theorem exists_splits_of_le (hlen : r.text.length ≤ 1535) {k : ℕ} (hk : k < r.body.length)
    (hfirst : r.announcedBy k ≤ k) : ∃ segments, r.Splits segments ∧
      httpHandle timeout portal segments = handleConnect timeout portal (cstr (r.body.take k)) := by
  refine ⟨[r.head ++ r.body.take k, r.body.drop k], ⟨?_, ?_⟩, ?_⟩
  · exact List.forall_mem_cons.2
      ⟨append_take_ne_nil k, List.forall_mem_singleton.2 (drop_ne_nil hk)⟩
  · rw [List.flatten_cons, List.flatten_singleton, List.append_assoc, List.take_append_drop, text]
  · rw [httpHandle, readHttp_first hlen hk.le, if_pos ((complete_first_iff hk.le).2 hfirst),
      (reads_first hk.le).handleRead_eq]

/-- Otherwise it stops with the piece that brings enough. -/
theorem exists_splits_of_lt (hlen : r.text.length ≤ 1535) {k j : ℕ} (hkj : k < j)
    (hj : j < r.body.length) (hfirst : ¬ r.announcedBy k ≤ k) (hstops : r.announcedBy k ≤ j) :
    ∃ segments, r.Splits segments ∧
      httpHandle timeout portal segments = handleConnect timeout portal (cstr (r.body.take j)) := by
  have hk : k ≤ r.body.length := by omega
  have hmid : (r.body.take j).drop k ≠ [] := drop_ne_nil (by rw [List.length_take]; omega)
  have htake : (r.body.take j).take k = r.body.take k := by
    rw [List.take_take, Nat.min_eq_left hkj.le]
  have hbytes : r.text.take (r.head.length + k) ++ (r.body.take j).drop k =
      r.text.take (r.head.length + j) := by
    rw [r.take_text, r.take_text, List.append_assoc, ← htake, List.take_append_drop]
  have hincomplete : (r.first k).complete = false :=
    Bool.eq_false_iff.2 (mt (complete_first_iff hk).1 hfirst)
  obtain ⟨hreads, -⟩ := (reads_first hk).recv hincomplete (Nat.add_le_add_left hkj.le _)
    (by rw [length_text]; omega) hbytes
  have hcomplete : ((r.first k).recv ((r.body.take j).drop k)).complete = true := by
    have hbody : ((r.first k).recv ((r.body.take j).drop k)).body =
        some (r.head.length, r.announcedBy k) := by
      rw [HttpRead.recv, body_first]
      rfl
    rw [HttpRead.complete, hbody, decide_eq_true_iff, hreads.length]
    omega
  refine ⟨[r.head ++ r.body.take k, (r.body.take j).drop k, r.body.drop j], ⟨?_, ?_⟩, ?_⟩
  · exact List.forall_mem_cons.2 ⟨append_take_ne_nil k,
      List.forall_mem_cons.2 ⟨hmid, List.forall_mem_singleton.2 (drop_ne_nil hj)⟩⟩
  · rw [List.flatten_cons, List.flatten_cons, List.flatten_singleton, List.append_assoc,
      ← List.append_assoc (r.body.take k), ← htake, List.take_append_drop, List.take_append_drop,
      text]
  · rw [httpHandle, readHttp_first hlen hk, if_neg (by rw [hincomplete]; simp),
      readHttp_cons _ hmid ?_, if_pos hcomplete, hreads.handleRead_eq]
    rw [(reads_first hk).length, List.length_drop, List.length_take]
    rw [length_text] at hlen
    omega

/-- Where the loop can stop, some pieces make it stop. -/
theorem exists_splits (hlen : r.text.length ≤ 1535) {k j : ℕ} (hk : k ≤ j)
    (hj : j < r.body.length) (hstops : r.StopsAt k j) :
    ∃ segments, r.Splits segments ∧
      httpHandle timeout portal segments = handleConnect timeout portal (cstr (r.body.take j)) := by
  rw [StopsAt] at hstops
  split at hstops
  · next hfirst =>
    subst hstops
    exact exists_splits_of_le hlen hj hfirst
  · next hfirst => exact exists_splits_of_lt hlen (by omega) hj hfirst hstops

/-- Splitting does no harm exactly when stopping does none. -/
theorem splitIndependent_iff (hlen : r.text.length ≤ 1535) :
    r.SplitIndependent timeout portal ↔ r.StopsHarmless := by
  constructor
  · intro h k j hk hj hstops
    obtain ⟨segments, hsplits, heq⟩ := @exists_splits r timeout portal hlen k j hk hj hstops
    have hwhole : r.Splits [r.head ++ r.body.take r.body.length] := by
      refine ⟨List.forall_mem_singleton.2 (append_take_ne_nil _), ?_⟩
      rw [List.flatten_singleton, List.take_length, text]
    have hpending := h _ _ hsplits hwhole
    rwa [heq, httpHandle_single hlen (Nat.le_refl _), pending_handleConnect,
      pending_handleConnect] at hpending
  · intro h
    have hall {segments : List (List UInt8)} (hsplits : r.Splits segments) :
        (httpHandle timeout portal segments).portal.pending = r.credsUpTo r.body.length := by
      obtain ⟨j, hj, heq⟩ := @exists_pending_of_splits r timeout portal hlen segments hsplits
      obtain rfl | ⟨hlt, k, hk, hstops⟩ := hj
      · exact heq
      · exact heq.trans (h k j hk hlt hstops)
    exact fun _ _ hsplits hsplits' ↦ (hall hsplits).trans (hall hsplits').symm

/-- Parts are refused exactly when there is no network name in them. -/
theorem refusesEarlyEnd_iff (hlen : r.text.length ≤ 1535) :
    r.RefusesEarlyEnd timeout portal ↔ r.PartsNameless := by
  constructor
  · intro h j hj
    have hearly : r.EndsEarly [r.head ++ r.body.take j] := by
      refine ⟨List.forall_mem_singleton.2 (append_take_ne_nil j), r.head.length + j,
        by rw [length_text]; omega, ?_⟩
      rw [r.take_text, List.flatten_singleton]
    have hwaiting := h _ hearly
    rw [httpHandle_single hlen hj.le, ← Bool.not_eq_true, waiting_handleConnect, not_not]
      at hwaiting
    exact hwaiting
  · rintro h segments ⟨hne, m, hm, hflat⟩
    obtain ⟨n, hreads, hle, -⟩ := exists_readHttp hlen (reads_start (r := r)) rfl hne hm.le hflat
    rcases Nat.lt_or_ge n r.head.length with hlt | hge
    · exact hreads.waiting_of_lt hlt
    · obtain ⟨j, rfl⟩ := Nat.exists_eq_add_of_le hge
      rw [length_text] at hm
      rw [httpHandle, hreads.handleRead_eq, ← Bool.not_eq_true, waiting_handleConnect, not_not]
      exact h j (by omega)

/-- **When the pieces do not matter.** -/
theorem segmentation_iff (hlen : r.text.length ≤ 1535) :
    r.SplitIndependent timeout portal ∧ r.RefusesEarlyEnd timeout portal ↔
      r.StopsHarmless ∧ r.PartsNameless :=
  and_congr (splitIndependent_iff hlen) (refusesEarlyEnd_iff hlen)

theorem capitals_plain :
    '\r'.toUInt8 ∉ ascii "CONTENT-LENGTH" ∧ (0 : UInt8) ∉ ascii "CONTENT-LENGTH" := by
  decide

/-- The header field with the length of the body, its name in capital letters. -/
def capitalField (n : ℕ) : HeaderField :=
  { contentLengthField n with name := ascii "CONTENT-LENGTH", name_plain := capitals_plain }

theorem isContentLength_capitalField (n : ℕ) : (capitalField n).IsContentLength := by
  show (ascii "CONTENT-LENGTH").map lower = ascii "content-length"
  decide

/-- A request with that header field. -/
def upper : ConnectRequest where
  version := ascii "HTTP/1.1"
  fields := [capitalField shortSubmission.text.length]
  body := shortSubmission.text
  version_plain := http11_plain
  announced := ⟨_, List.filter_cons_of_pos (decide_eq_true (isContentLength_capitalField _)),
    announces_contentLengthField _⟩

/-- Without its body it is taken for a whole request, and a network name that has arrived in part is
handed on. -/
theorem not_segmentation_upper :
    upper.Splits [upper.head, upper.body] ∧ upper.Splits [upper.text] ∧
    (httpHandle 30 .idle [upper.head, upper.body]).portal.pending.ssid = [] ∧
    (httpHandle 30 .idle [upper.text]).portal.pending.ssid = ascii "ab" ∧
    upper.EndsEarly [upper.text.dropLast] ∧
    (httpHandle 30 .idle [upper.text.dropLast]).waiting = true ∧
    (httpHandle 30 .idle [upper.text.dropLast]).portal.pending.ssid = ascii "a" ∧
    ¬ upper.SplitIndependent 30 .idle ∧ ¬ upper.RefusesEarlyEnd 30 .idle := by
  have hsplits : upper.Splits [upper.head, upper.body] := by
    refine ⟨by decide, ?_⟩
    rw [List.flatten_cons, List.flatten_singleton, text]
  have hwhole : upper.Splits [upper.text] := ⟨by decide, List.flatten_singleton⟩
  have hearly : upper.EndsEarly [upper.text.dropLast] :=
    ⟨by decide +kernel, upper.text.length - 1, by decide +kernel, by decide +kernel⟩
  have hssid : (httpHandle 30 .idle [upper.head, upper.body]).portal.pending.ssid = [] := by
    decide +kernel
  have hssid' : (httpHandle 30 .idle [upper.text]).portal.pending.ssid = ascii "ab" := by
    decide +kernel
  have hwaiting : (httpHandle 30 .idle [upper.text.dropLast]).waiting = true := by decide +kernel
  refine ⟨hsplits, hwhole, hssid, hssid', hearly, hwaiting, by decide +kernel, fun h ↦ ?_,
    fun h ↦ absurd (h _ hearly) (by rw [hwaiting]; simp)⟩
  have heq := congrArg AppWifiCreds.ssid (h _ _ hsplits hwhole)
  rw [hssid, hssid'] at heq
  exact absurd heq (by decide)

theorem segmentation_iff_short :
    shortSubmission.request.SplitIndependent 30 .idle ∧
        shortSubmission.request.RefusesEarlyEnd 30 .idle ↔
      shortSubmission.request.StopsHarmless ∧ shortSubmission.request.PartsNameless :=
  segmentation_iff (by decide +kernel)

end ConnectRequest

end ThinEdge.Provisioner
