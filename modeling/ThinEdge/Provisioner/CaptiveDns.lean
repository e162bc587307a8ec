import ThinEdge.Lib.Bytes
import ThinEdge.Lib.Cursor

/-!
# The DNS responder of the captive portal

`dns_fn` of `apps/wifi-provisioner/src/softap.c` answers every query in the buffer the query came
in. Each access is checked here: a read outside the received bytes, or a write outside the buffer or
past the answer, is a fault.

`dnsFn_answers_iff` says that nothing faults, and which queries are answered rightly. It rests on
`exists_skipName`, that the walk finds the end of the name wherever it is. It has a condition, since
the count of questions is compared in its low byte only.
-/

namespace ThinEdge.Provisioner

open Bytes Cursor

/-! ### Access to the buffer -/

/-- What one `recvfrom` received into the 512 bytes. -/
structure Datagram where
  bytes : List UInt8
  length_le : bytes.length ≤ 512

/-- A byte of the `n` received ones. -/
def peek (buf : Area 512) (n i : ℕ) : Checked UInt8 :=
  if i < n then byteAt buf.bytes i else .error (.read i)

/-- A byte is stored, within the buffer and not beyond an answer of 16 bytes. -/
def poke (buf : Area 512) (n i : ℕ) (b : UInt8) : Checked (Area 512) :=
  if i < 512 ∧ i < n + 16 then .ok (buf.set i b) else .error (.store i)

/-- `memcpy` into the buffer. -/
def pokes (buf : Area 512) (n i : ℕ) : List UInt8 → Checked (Area 512)
  | [] => .ok buf
  | b :: bytes => do
    let buf ← poke buf n i b
    pokes buf n (i + 1) bytes

/-- `sendto` reads what it sends. -/
def sendto (buf : Area 512) (n len : ℕ) : Checked (List UInt8) :=
  if len ≤ 512 ∧ len ≤ n + 16 then .ok (buf.bytes.take len) else .error (.read (len - 1))

/-! ### The responder -/

/-- The walk over the labels of a name, to its terminator or past the end. -/
def skipName (buf : Area 512) (n q : ℕ) : Checked ℕ :=
  if _h : q < n then do
    let b ← peek buf n q
    if b ≠ 0 then skipName buf n (q + b.toNat + 1) else .ok q
  else .ok q
termination_by n - q

/-- The datagram is not a query, or not one with a single question. -/
def notSingleQuery (buf : Area 512) (n : ℕ) : Checked Bool :=
  if n < 12 then .ok true
  else do
    let flags ← peek buf n 2
    if flags &&& 0x80 ≠ 0 then .ok true
    else do
      let questions ← peek buf n 5
      .ok (questions != 1)

/-- The answer: the name of the question, type A, class IN, 60 seconds, 192.168.4.1. -/
def ans : List UInt8 := [0xc0, 0x0c, 0, 1, 0, 1, 0, 0, 0, 60, 0, 4, 192, 168, 4, 1]

/-- The query at the start of the buffer is made into a response. -/
def respondHeader (buf : Area 512) (n qtype : ℕ) : Checked (Area 512) := do
  let flags ← peek buf n 2
  let buf ← poke buf n 2 (0x84 ||| (flags &&& 0x01))
  let buf ← poke buf n 3 0x80
  let buf ← poke buf n 6 0
  let buf ← poke buf n 7 (if qtype = 1 then 1 else 0)
  let buf ← poke buf n 11 0
  let buf ← poke buf n 10 0
  let buf ← poke buf n 9 0
  poke buf n 8 0

/-- The answer behind the question, to a question for an address; and the length of the response. -/
def putAnswer (buf : Area 512) (n q qtype : ℕ) : Checked (Area 512 × ℕ) :=
  if qtype = 1 then do
    let buf ← pokes buf n q ans
    .ok (buf, q + ans.length)
  else .ok (buf, q)

/-- The response to a query whose question ends in front of `q`. -/
def respond (buf : Area 512) (n q : ℕ) : Checked (Option (List UInt8) × Area 512) := do
  let hi ← peek buf n (q - 4)
  let lo ← peek buf n (q - 3)
  let buf ← respondHeader buf n (getBe16 hi lo)
  let (buf, len) ← putAnswer buf n q (getBe16 hi lo)
  let sent ← sendto buf n len
  .ok (some sent, buf)

/-- One round of `dns_fn`: what is sent for a datagram, and the buffer. -/
def dnsFn (buf : Area 512) (d : Datagram) : Checked (Option (List UInt8) × Area 512) := do
  let n := d.bytes.length
  let buf := buf.write d.bytes d.length_le
  let skip ← notSingleQuery buf n
  if skip then .ok (none, buf)
  else do
    let q ← skipName buf n 12
    let q := q + 5
    if q > n ∨ q + 16 > 512 then .ok (none, buf) else respond buf n q

/-! ### Messages -/

/-- A 16-bit field of a message. -/
def word (m : List UInt8) (i : ℕ) : ℕ := getBe16 (m.getD i 0) (m.getD (i + 1) 0)

/-- A name from `i` up to `j`: labels, each with its length in front, and the root. -/
inductive NameAt (m : List UInt8) : ℕ → ℕ → Prop
  | root {i : ℕ} : m[i]? = some 0 → NameAt m i (i + 1)
  | label {i j : ℕ} {b : UInt8} : m[i]? = some b → b ≠ 0 → NameAt m (i + b.toNat + 1) j →
      NameAt m i j

/-- So many questions from `i` up to `j`, each a name, a type and a class. -/
inductive Questions (m : List UInt8) : ℕ → ℕ → ℕ → Prop
  | nil {i : ℕ} : i ≤ m.length → Questions m 0 i i
  | cons {k i j e : ℕ} : NameAt m i j → Questions m k (j + 4) e → Questions m (k + 1) i e

/-- An A record with the address 192.168.4.1, for the name of the question. -/
def ARecord (bytes : List UInt8) : Prop :=
  ∃ ttl : List UInt8, ttl.length = 4 ∧
    bytes = [0xc0, 0x0c] ++ [0, 1] ++ [0, 1] ++ ttl ++ [0, 4] ++ [192, 168, 4, 1]

/-- A message answers a query: a response with its ID and its questions, and with one A record
exactly when it asks for one. -/
structure Answers (d r : List UInt8) : Prop where
  length_le : r.length ≤ 512
  id : word r 0 = word d 0
  response : r.getD 2 0 &&& 0x80 ≠ 0
  answer : ∃ j, Questions d (word d 4) 12 j ∧ Questions r (word r 4) 12 j ∧
    (r.take j).drop 12 = (d.take j).drop 12 ∧
    (word d (j - 4) = 1 → word r 6 = 1 ∧ ARecord (r.drop j)) ∧
    (word d (j - 4) ≠ 1 → word r 6 = 0 ∧ r.length = j)
  authority : word r 8 = 0
  additional : word r 10 = 0

/-- What is answered: a query with one question, as far as the low byte of the count tells, that is
complete and leaves room for the answer. -/
def Accepted (d : List UInt8) : Prop :=
  12 ≤ d.length ∧ d.getD 2 0 &&& 0x80 = 0 ∧ d.getD 5 0 = 1 ∧
    ∃ j, NameAt d 12 j ∧ j + 4 ≤ d.length ∧ j + 20 ≤ 512

theorem NameAt.lt {m : List UInt8} {i j : ℕ} (h : NameAt m i j) : i < j := by
  induction h with
  | root _ => exact Nat.lt_succ_self _
  | label _ _ _ ih => omega

theorem NameAt.le_length {m : List UInt8} {i j : ℕ} (h : NameAt m i j) : j ≤ m.length := by
  induction h with
  | root h => exact (List.getElem?_eq_some_iff.1 h).1
  | label _ _ _ ih => exact ih

/-- The name in a message with the same bytes there. -/
theorem NameAt.congr {m m' : List UInt8} {i j : ℕ} (h : NameAt m i j)
    (hsame : ∀ k, i ≤ k → k < j → m'[k]? = m[k]?) : NameAt m' i j := by
  induction h with
  | root h => exact .root ((hsame _ (Nat.le_refl _) (Nat.lt_succ_self _)).trans h)
  | label h hne hrest ih =>
    have hlt := hrest.lt
    refine .label ((hsame _ (Nat.le_refl _) (by omega)).trans h) hne (ih fun k hk ↦ ?_)
    exact hsame k (by omega)

/-- A name ends at one place. -/
theorem NameAt.unique {m : List UInt8} {i j j' : ℕ} (h : NameAt m i j) (h' : NameAt m i j') :
    j = j' := by
  induction h with
  | root h =>
    cases h' with
    | root _ => rfl
    | label hb hne _ => exact absurd (Option.some.inj (hb.symm.trans h)) hne
  | label hb hne _ ih =>
    cases h' with
    | root h => exact absurd (Option.some.inj (hb.symm.trans h)) hne
    | label hb' _ hrest =>
      obtain rfl := Option.some.inj (hb.symm.trans hb')
      exact ih hrest

/-- A question takes at least five bytes. -/
theorem Questions.le_length {m : List UInt8} {k i j : ℕ} (h : Questions m k i j) :
    i + 5 * k ≤ j ∧ j ≤ m.length := by
  induction h with
  | nil h => exact ⟨by omega, h⟩
  | cons hname _ ih =>
    have hlt := hname.lt
    exact ⟨by omega, ih.2⟩

/-! ### The buffer with a datagram in it -/

section Received

variable {buf : Area 512} {d : Datagram}

/-- The buffer after `recvfrom`. -/
def received (buf : Area 512) (d : Datagram) : Area 512 := buf.write d.bytes d.length_le

theorem bytes_received : (received buf d).bytes = d.bytes ++ buf.bytes.drop d.bytes.length := rfl

theorem getElem?_eq_getD {m : List UInt8} {i : ℕ} (h : i < m.length) :
    m[i]? = some (m.getD i 0) := by
  rw [List.getD_eq_getElem?_getD, List.getElem?_eq_getElem h, Option.getD_some]

/-- What was received is read. -/
theorem peek_received {i : ℕ} (h : i < d.bytes.length) :
    peek (received buf d) d.bytes.length i = .ok (d.bytes.getD i 0) := by
  rw [peek, if_pos h, byteAt, bytes_received, List.getElem?_append_left h, getElem?_eq_getD h]

theorem peek_bind {α : Type} {i : ℕ} (h : i < d.bytes.length) (f : UInt8 → Checked α) :
    (peek (received buf d) d.bytes.length i >>= f) = f (d.bytes.getD i 0) := by
  rw [peek_received h]
  rfl

/-- The walk reads received bytes only, comes to an end, and stops at the terminator of the name if
there is one. -/
theorem exists_skipName (buf : Area 512) (d : Datagram) (i : ℕ) :
    ∃ q, skipName (received buf d) d.bytes.length i = .ok q ∧
      ∀ j, NameAt d.bytes i j ↔ q < d.bytes.length ∧ j = q + 1 := by
  induction i using skipName.induct d.bytes.length with
  | case1 i hi ih =>
    rw [skipName, dif_pos hi, peek_received hi]
    have hget := getElem?_eq_getD hi
    rcases Decidable.em (d.bytes.getD i 0 = 0) with hzero | hne
    · have hroot : NameAt d.bytes i (i + 1) := .root (hget.trans (congrArg some hzero))
      refine ⟨i, if_neg (not_not.2 hzero), fun j ↦ ⟨fun h ↦ ⟨hi, h.unique hroot⟩, ?_⟩⟩
      rintro ⟨-, rfl⟩
      exact hroot
    · obtain ⟨q, hq, hname⟩ := ih (d.bytes.getD i 0)
      refine ⟨q, (if_pos hne).trans hq, fun j ↦ ?_⟩
      rw [← hname]
      constructor
      · intro h
        cases h with
        | root h => exact absurd (Option.some.inj (hget.symm.trans h)) hne
        | label h _ hrest =>
          obtain rfl := Option.some.inj (hget.symm.trans h)
          exact hrest
      · exact .label hget hne
  | case2 i hi =>
    rw [skipName, dif_neg hi]
    refine ⟨i, rfl, fun j ↦ iff_of_false (fun h ↦ ?_) fun h ↦ hi h.1⟩
    exact hi (Nat.lt_of_lt_of_le h.lt h.le_length)

/-- What is refused before the walk. -/
theorem exists_notSingleQuery (buf : Area 512) (d : Datagram) :
    ∃ skip, notSingleQuery (received buf d) d.bytes.length = .ok skip ∧
      (skip = false ↔ 12 ≤ d.bytes.length ∧ d.bytes.getD 2 0 &&& 0x80 = 0 ∧
        d.bytes.getD 5 0 = 1) := by
  rw [notSingleQuery]
  rcases Nat.lt_or_ge d.bytes.length 12 with hlt | hge
  · exact ⟨true, if_pos hlt, by simp; omega⟩
  · rw [if_neg (Nat.not_lt_of_le hge), peek_received (by omega)]
    rcases Decidable.em (d.bytes.getD 2 0 &&& 0x80 = 0) with hzero | hne
    · refine ⟨d.bytes.getD 5 0 != 1, (if_neg (not_not.2 hzero)).trans ?_, ?_⟩
      · rw [peek_received (by omega)]
        rfl
      · rw [bne_eq_false_iff_eq]
        exact ⟨fun h ↦ ⟨hge, hzero, h⟩, fun h ↦ h.2.2⟩
    · exact ⟨true, if_pos hne, iff_of_false (by simp) fun h ↦ hne h.2.1⟩

theorem poke_of_lt {n i : ℕ} (h : i < 512) (h' : i < n + 16) (b : UInt8) :
    poke buf n i b = .ok (buf.set i b) := if_pos ⟨h, h'⟩

/-- Bytes that fit are copied to their place. -/
theorem exists_pokes (buf : Area 512) {n i : ℕ} (bytes : List UInt8) (h : i + bytes.length ≤ 512)
    (h' : i + bytes.length ≤ n + 16) : ∃ buf', pokes buf n i bytes = .ok buf' ∧
      buf'.bytes.take (i + bytes.length) = buf.bytes.take i ++ bytes := by
  induction bytes generalizing buf i with
  | nil => exact ⟨buf, rfl, (List.append_nil _).symm⟩
  | cons b bytes ih =>
    rw [List.length_cons] at h h'
    obtain ⟨buf', hbuf', htake⟩ := ih (buf.set i b) (i := i + 1) (by omega) (by omega)
    refine ⟨buf', ?_, ?_⟩
    · rw [pokes, poke_of_lt (by omega) (by omega)]
      exact hbuf'
    · have hset : (buf.set i b).bytes.take (i + 1) = buf.bytes.take i ++ [b] := by
        have hlt : i < (buf.bytes.set i b).length := by
          rw [List.length_set, buf.length_bytes]
          omega
        rw [Area.set, List.take_succ_eq_append_getElem hlt, List.getElem_set_self,
          List.take_set_of_le (Nat.le_refl i)]
      rw [List.length_cons, ← Nat.add_assoc, Nat.add_right_comm, htake, hset, List.append_assoc]
      rfl

/-- The header of a response. -/
def header (d : List UInt8) (qtype : ℕ) : List UInt8 :=
  [d.getD 0 0, d.getD 1 0, 0x84 ||| (d.getD 2 0 &&& 0x01), 0x80, d.getD 4 0, d.getD 5 0, 0,
    if qtype = 1 then 1 else 0, 0, 0, 0, 0]

/-- The first bytes of a message one by one. -/
theorem take_eq_map_getD {m : List UInt8} {k : ℕ} (h : k ≤ m.length) :
    m.take k = (List.range k).map fun i ↦ m.getD i 0 := by
  refine List.ext_getElem (by simp [Nat.min_eq_left h]) fun i hi hi' ↦ ?_
  rw [List.getElem_take, List.getElem_map, List.getElem_range, List.getD_eq_getElem?_getD,
    List.getElem?_eq_getElem, Option.getD_some]

/-- The header is rewritten in place. -/
theorem exists_respondHeader (buf : Area 512) {d : Datagram} (h : 12 ≤ d.bytes.length) (qtype : ℕ) :
    ∃ buf', respondHeader (received buf d) d.bytes.length qtype = .ok buf' ∧
      ∀ q, 12 ≤ q → q ≤ d.bytes.length →
        buf'.bytes.take q = header d.bytes qtype ++ (d.bytes.take q).drop 12 := by
  have hpoke {buf : Area 512} {i : ℕ} {b : UInt8} {f : Area 512 → Checked (Area 512)}
      (hi : i < 12) : (poke buf d.bytes.length i b >>= f) = f (buf.set i b) := by
    rw [poke_of_lt (by omega) (by omega)]
    rfl
  have hbytes : (received buf d).bytes = (List.range 12).map (fun i ↦ d.bytes.getD i 0) ++
      (d.bytes.drop 12 ++ buf.bytes.drop d.bytes.length) := by
    rw [← take_eq_map_getD h, ← List.append_assoc, List.take_append_drop]
    rfl
  obtain ⟨buf', hbuf', hheader⟩ : ∃ buf',
      respondHeader (received buf d) d.bytes.length qtype = .ok buf' ∧ buf'.bytes =
        header d.bytes qtype ++ (d.bytes.drop 12 ++ buf.bytes.drop d.bytes.length) := by
    rw [respondHeader, peek_bind (by omega), hpoke (by omega), hpoke (by omega), hpoke (by omega),
      hpoke (by omega), hpoke (by omega), hpoke (by omega), hpoke (by omega),
      poke_of_lt (by omega) (by omega)]
    refine ⟨_, rfl, ?_⟩
    simp only [Area.set, hbytes]
    rfl
  refine ⟨buf', hbuf', fun q hq hq' ↦ ?_⟩
  have hlen : (header d.bytes qtype).length ≤ q := hq
  rw [hheader, List.take_append, List.take_of_length_le hlen, List.take_append_of_le_length,
    List.drop_take]
  · rfl
  · rw [List.length_drop]
    exact Nat.sub_le_sub_right hq' 12

/-- The response to a query whose question ends in front of `q`. -/
def response (d : List UInt8) (q : ℕ) : List UInt8 :=
  header d (word d (q - 4)) ++ (d.take q).drop 12 ++ if word d (q - 4) = 1 then ans else []

theorem sendto_of_le {n len : ℕ} (h : len ≤ 512) (h' : len ≤ n + 16) :
    sendto buf n len = .ok (buf.bytes.take len) := if_pos ⟨h, h'⟩

theorem exists_putAnswer (buf : Area 512) (qtype : ℕ) {n q : ℕ} (hroom : q + 16 ≤ 512)
    (hle : q ≤ n) :
    ∃ buf' len, putAnswer buf n q qtype = .ok (buf', len) ∧ len ≤ q + 16 ∧
      buf'.bytes.take len = buf.bytes.take q ++ if qtype = 1 then ans else [] := by
  rw [putAnswer]
  split
  · obtain ⟨buf', hbuf', htake⟩ :=
      exists_pokes buf ans hroom (n := n) (Nat.add_le_add_right hle 16)
    exact ⟨buf', _, by rw [hbuf']; rfl, Nat.le_refl _, htake⟩
  · exact ⟨buf, q, rfl, Nat.le_add_right _ _, (List.append_nil _).symm⟩

/-- What is sent. -/
theorem exists_respond (buf : Area 512) {d : Datagram} {q : ℕ} (hq : 12 ≤ q)
    (hle : q ≤ d.bytes.length) (hroom : q + 16 ≤ 512) :
    ∃ buf', respond (received buf d) d.bytes.length q = .ok (some (response d.bytes q), buf') := by
  have hqtype : getBe16 (d.bytes.getD (q - 4) 0) (d.bytes.getD (q - 3) 0) =
      word d.bytes (q - 4) := by
    rw [word, show q - 4 + 1 = q - 3 by omega]
  obtain ⟨buf₁, hbuf₁, htake₁⟩ :=
    exists_respondHeader buf (hq.trans hle) (word d.bytes (q - 4))
  obtain ⟨buf₂, len, hbuf₂, hlen, htake₂⟩ :=
    exists_putAnswer buf₁ (word d.bytes (q - 4)) hroom hle
  rw [htake₁ q hq hle] at htake₂
  have hsent : sendto buf₂ d.bytes.length len = .ok (buf₂.bytes.take len) :=
    sendto_of_le (by omega) (by omega)
  rw [htake₂] at hsent
  refine ⟨buf₂, ?_⟩
  rw [respond, peek_bind (by omega), peek_bind (by omega), hqtype, hbuf₁]
  show (putAnswer buf₁ _ _ _ >>= _) = _
  rw [hbuf₂]
  show (sendto buf₂ _ _ >>= _) = _
  rw [hsent]
  rfl

theorem exists_dnsFn_of_nameAt (buf : Area 512) {d : Datagram} {j : ℕ} (hlen : 12 ≤ d.bytes.length)
    (hflags : d.bytes.getD 2 0 &&& 0x80 = 0) (hcount : d.bytes.getD 5 0 = 1)
    (hname : NameAt d.bytes 12 j) (hle : j + 4 ≤ d.bytes.length) (hroom : j + 20 ≤ 512) :
    ∃ buf', dnsFn buf d = .ok (some (response d.bytes (j + 4)), buf') := by
  obtain ⟨skip, hskip, hsingle⟩ := exists_notSingleQuery buf d
  obtain ⟨q, hq, hend⟩ := exists_skipName buf d 12
  obtain ⟨-, rfl⟩ := (hend j).1 hname
  obtain ⟨buf', hbuf'⟩ := exists_respond buf (q := q + 5) (by have := hname.lt; omega) hle hroom
  refine ⟨buf', ?_⟩
  show (notSingleQuery (received buf d) _ >>= _) = _
  rw [hskip, hsingle.2 ⟨hlen, hflags, hcount⟩]
  show (skipName (received buf d) _ 12 >>= _) = _
  rw [hq]
  exact (if_neg (by omega)).trans hbuf'

theorem exists_dnsFn_of_not_accepted (buf : Area 512) {d : Datagram} (h : ¬ Accepted d.bytes) :
    ∃ buf', dnsFn buf d = .ok (none, buf') := by
  obtain ⟨skip, hskip, hsingle⟩ := exists_notSingleQuery buf d
  refine ⟨received buf d, ?_⟩
  show (notSingleQuery (received buf d) _ >>= _) = _
  rw [hskip]
  cases skip with
  | true => rfl
  | false =>
    obtain ⟨hlen, hflags, hcount⟩ := hsingle.1 rfl
    obtain ⟨q, hq, hend⟩ := exists_skipName buf d 12
    show (skipName (received buf d) _ 12 >>= _) = _
    rw [hq]
    refine if_pos (Decidable.byContradiction fun hroom ↦ h ⟨hlen, hflags, hcount, q + 1, ?_⟩)
    exact ⟨(hend _).2 ⟨by omega, rfl⟩, by omega, by omega⟩

end Received

/-! ### What is answered -/

section Answering

variable {d : List UInt8} {q j : ℕ}

/-- A response is marked as one. -/
theorem response_flag (b : UInt8) : (0x84 ||| (b &&& 0x01)) &&& 0x80 ≠ 0 := by
  intro h
  have hbit := congrArg (fun flags : UInt8 ↦ flags.toBitVec.getLsbD 7) h
  simp at hbit

/-- The fields in the header of a response. -/
theorem word_response (d : List UInt8) (q : ℕ) : word (response d q) 0 = word d 0 ∧
    word (response d q) 4 = word d 4 ∧
    word (response d q) 6 = (if word d (q - 4) = 1 then 1 else 0) ∧
    word (response d q) 8 = 0 ∧ word (response d q) 10 = 0 := by
  refine ⟨rfl, rfl, ?_, (?_ : getBe16 0 0 = 0), (?_ : getBe16 0 0 = 0)⟩
  · show getBe16 0 (if word d (q - 4) = 1 then 1 else 0) = _
    split <;> rfl
  · rfl
  · rfl

theorem length_header_append (hq : 12 ≤ q) (hle : q ≤ d.length) (qtype : ℕ) :
    (header d qtype ++ (d.take q).drop 12).length = q := by
  rw [List.length_append, List.length_drop, List.length_take]
  show 12 + _ = q
  omega

/-- The response up to the end of its question. -/
theorem take_response (hq : 12 ≤ q) (hle : q ≤ d.length) :
    (response d q).take q = header d (word d (q - 4)) ++ (d.take q).drop 12 :=
  List.take_left' (length_header_append hq hle _)

/-- The answer behind it. -/
theorem drop_response (hq : 12 ≤ q) (hle : q ≤ d.length) :
    (response d q).drop q = if word d (q - 4) = 1 then ans else [] :=
  List.drop_left' (length_header_append hq hle _)

theorem length_response (hq : 12 ≤ q) (hle : q ≤ d.length) :
    (response d q).length = q + (if word d (q - 4) = 1 then ans else []).length := by
  rw [response, List.length_append, length_header_append hq hle]

/-- The question is the same in the response. -/
theorem getElem?_response (hle : q ≤ d.length) {k : ℕ} (hk : 12 ≤ k) (hk' : k < q) :
    (response d q)[k]? = d[k]? := by
  rw [← List.getElem?_take_of_lt hk', take_response (by omega) hle,
    List.getElem?_append_right hk]
  show ((d.take q).drop 12)[k - 12]? = _
  rw [List.getElem?_drop, Nat.add_sub_cancel' hk, List.getElem?_take_of_lt hk']

/-- A response answers a query with a single question. -/
theorem answers_response (hname : NameAt d 12 j) (hle : j + 4 ≤ d.length) (hroom : j + 20 ≤ 512)
    (hcount : word d 4 = 1) : Answers d (response d (j + 4)) := by
  have hlt := hname.lt
  have hq : 12 ≤ j + 4 := by omega
  obtain ⟨hid, hquestions, hanswers, hauthority, hadditional⟩ := word_response d (j + 4)
  have hlen := length_response hq hle
  have hans : (if word d (j + 4 - 4) = 1 then ans else []).length ≤ 16 := by
    split <;> decide
  refine ⟨by omega, hid, response_flag (d.getD 2 0), ⟨j + 4, ?_, ?_, ?_, ?_, ?_⟩, hauthority,
    hadditional⟩
  · rw [hcount]
    exact .cons hname (.nil hle)
  · rw [hquestions, hcount]
    refine .cons (hname.congr fun k hk hk' ↦ ?_) (.nil (by omega))
    exact getElem?_response hle hk (by omega)
  · rw [take_response hq hle]
    rfl
  · intro htype
    refine ⟨hanswers.trans (if_pos htype), ?_⟩
    rw [drop_response hq hle, if_pos htype]
    exact ⟨[0, 0, 0, 60], rfl, rfl⟩
  · intro htype
    refine ⟨hanswers.trans (if_neg htype), ?_⟩
    rw [hlen, if_neg htype]
    rfl

/-- Nothing answers a query with more questions than it has room for. -/
theorem not_answers {r : List UInt8} (hlen : d.length ≤ 512) (h : 256 ≤ word d 4) :
    ¬ Answers d r := by
  rintro ⟨-, -, -, ⟨j, hquestions, -⟩, -, -⟩
  have hle := hquestions.le_length
  omega

end Answering

/-- **What is answered rightly.** No datagram makes the responder fault, and what it sends answers
the query exactly when the high byte of the count of questions is zero. -/
theorem dnsFn_answers_iff (buf : Area 512) (d : Datagram) :
    ∃ reply buf', dnsFn buf d = .ok (reply, buf') ∧
      ((∀ r ∈ reply, Answers d.bytes r) ↔ (Accepted d.bytes → d.bytes.getD 4 0 = 0)) := by
  rcases Classical.em (Accepted d.bytes) with hacc | hacc
  · obtain ⟨hlen, hflags, hcount, j, hname, hle, hroom⟩ := hacc
    obtain ⟨buf', hbuf'⟩ := exists_dnsFn_of_nameAt buf hlen hflags hcount hname hle hroom
    refine ⟨_, buf', hbuf', ?_⟩
    have hword : word d.bytes 4 = (d.bytes.getD 4 0).toNat * 256 + 1 := by
      rw [word, getBe16, hcount]
      rfl
    constructor
    · intro h _
      refine Decidable.byContradiction fun hne ↦ not_answers d.length_le ?_ (h _ rfl)
      have hpos : (d.bytes.getD 4 0).toNat ≠ 0 := fun h ↦ hne (UInt8.toNat_inj.1 h)
      omega
    · rintro h r ⟨⟩
      refine answers_response hname hle hroom ?_
      rw [hword, h ⟨hlen, hflags, hcount, j, hname, hle, hroom⟩]
      rfl
  · obtain ⟨buf', hbuf'⟩ := exists_dnsFn_of_not_accepted buf hacc
    exact ⟨none, buf', hbuf', iff_of_true (by simp) fun h ↦ absurd h hacc⟩

/-- A query that announces 257 questions, of which two fit. -/
def twoQuestions : Datagram where
  bytes := [1, 2, 1, 0, 1, 1, 0, 0, 0, 0, 0, 0] ++ [1, 97, 0, 0, 1, 0, 1] ++ [1, 98, 0, 0, 1, 0, 1]
  length_le := by decide

/-- It is answered with the second question gone and the count as it was. -/
theorem not_dnsFn_answers_twoQuestions :
    (∃ buf', dnsFn (Area.zero 512) twoQuestions = .ok (some ([1, 2, 0x85, 0x80, 1, 1, 0, 1] ++
      [0, 0, 0, 0] ++ [1, 97, 0, 0, 1, 0, 1] ++ ans), buf')) ∧
      ¬ ∀ reply buf', dnsFn (Area.zero 512) twoQuestions = .ok (reply, buf') →
        ∀ r ∈ reply, Answers twoQuestions.bytes r := by
  have hname : NameAt twoQuestions.bytes 12 15 :=
    .label (b := 1) rfl (by decide) (.root rfl)
  obtain ⟨buf', hbuf'⟩ : ∃ buf', dnsFn (Area.zero 512) twoQuestions =
      .ok (some (response twoQuestions.bytes (15 + 4)), buf') :=
    exists_dnsFn_of_nameAt _ (by decide) (by decide) (by decide) hname (by decide) (by decide)
  have hresponse : response twoQuestions.bytes (15 + 4) = [1, 2, 0x85, 0x80, 1, 1, 0, 1] ++
      [0, 0, 0, 0] ++ [1, 97, 0, 0, 1, 0, 1] ++ ans := by decide
  refine ⟨⟨buf', hresponse ▸ hbuf'⟩, fun h ↦ ?_⟩
  exact not_answers twoQuestions.length_le (by decide) (h _ _ hbuf' _ rfl)

end ThinEdge.Provisioner
