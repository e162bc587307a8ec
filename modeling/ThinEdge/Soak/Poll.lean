import ThinEdge.Snmp.Manager

/-!
# The soak poller's SNMP probe

`scripts/soak/poll.py` asks the device for its uptime with a GET that it encodes itself, and reads
the reply with a few lines of its own. It is the agent's other side: `snmpGetRequest_eq` says that
what it sends is a request message as `requestTree` describes it, and `snmpParseUptime_enc` what it
takes out of a response.

A probe reads datagrams until one of them is the answer to its own request. `snmpRun_eq` is about
every probe of a run, whatever answers arrive during it: those to earlier requests are passed over,
and the uptime that a probe reports is one that the agent had when it answered that very probe.
-/

namespace ThinEdge.Soak

open Ber (beValue twosBytes twosValue leBytes lenField contGroups group fixedLe twosLe)
open Snmp

/-- What the probe's functions raise. -/
inductive PollError
  | indexError
  | overflowError
  | valueError (text : String)
  | timeout
  deriving DecidableEq, Repr

/-- A byte in two hexadecimal digits. -/
def hex2 (b : UInt8) : String :=
  String.ofList [Nat.digitChar (b.toNat / 16), Nat.digitChar (b.toNat % 16)]

/-! ### Minimal BER for one GET -/

/-- One item of `bytes([..])`. -/
def byteOf (n : ℕ) : Except PollError UInt8 :=
  if n < 256 then .ok (UInt8.ofNat n) else .error (.valueError "bytes must be in range(0, 256)")

/-- `_len`. -/
def len (n : ℕ) : Except PollError (List UInt8) :=
  if n < 0x80 then do
    let b ← byteOf n
    return [b]
  else do
    let b := (fixedLe ((n.size + 7) / 8) n).reverse
    let head ← byteOf (0x80 ||| b.length)
    return head :: b

/-- `_tlv`. -/
def tlv (tag : UInt8) (value : List UInt8) : Except PollError (List UInt8) := do
  let l ← len value.length
  return tag :: (l ++ value)

/-- `_int`: `to_bytes` refuses a number that does not fit. -/
def int (v : ℤ) : Except PollError (List UInt8) :=
  let k := max 1 ((v.natAbs.size + 8) / 8)
  if -(2 ^ (8 * k - 1)) ≤ v ∧ v < 2 ^ (8 * k - 1) then
    tlv 0x02 (fixedLe k (v % 256 ^ k).toNat).reverse
  else .error .overflowError

/-- The loop of `_oid` over what is left of one arc. -/
def arcLoop (enc : List UInt8) (p : ℕ) : List UInt8 :=
  if p = 0 then enc else arcLoop (UInt8.ofNat (0x80 ||| (p &&& 0x7F)) :: enc) (p >>> 7)
termination_by p
decreasing_by rw [Nat.shiftRight_eq_div_pow]; omega

/-- `_oid`. -/
def oid : List ℕ → Except PollError (List UInt8)
  | a :: b :: arcs => do
    let first ← byteOf (a * 40 + b)
    tlv 0x06 (first :: arcs.flatMap fun p ↦ arcLoop [UInt8.ofNat (p &&& 0x7F)] (p >>> 7))
  | _ => .error .indexError

/-- `snmp_get_request`. -/
def snmpGetRequest (community : List UInt8) (reqId : ℤ) (name : List ℕ) :
    Except PollError (List UInt8) := do
  let varbind ← tlv 0x30 ((← oid name) ++ [0x05, 0x00])
  let pdu ← tlv 0xA0 ((← int reqId) ++ (← int 0) ++ (← int 0) ++ (← tlv 0x30 varbind))
  tlv 0x30 ((← int 1) ++ (← tlv 0x04 community) ++ pdu)

/-- `buf[i]`. -/
def index (buf : List UInt8) (i : ℕ) : Except PollError UInt8 :=
  match buf[i]? with
  | some b => .ok b
  | none => .error .indexError

/-- `buf[i:j]`: a slice stops at the end of the bytes. -/
def slice (buf : List UInt8) (i j : ℕ) : List UInt8 := (buf.take j).drop i

/-- `_read_tlv`. -/
def readTlv (buf : List UInt8) (i : ℕ) : Except PollError (UInt8 × List UInt8 × ℕ) := do
  let tag ← index buf i
  let n := (← index buf (i + 1)).toNat
  let i := i + 2
  if n &&& 0x80 ≠ 0 then
    let k := n &&& 0x7F
    let n := beValue (slice buf i (i + k))
    let i := i + k
    return (tag, slice buf i (i + n), i + n)
  else
    return (tag, slice buf i (i + n), i + n)

/-- `if c: raise e`. -/
def raiseIf (c : Prop) [Decidable c] (e : PollError) : Except PollError Unit :=
  if c then .error e else .ok ()

/-- `snmp_parse_uptime`. -/
def snmpParseUptime (buf : List UInt8) (reqId : ℤ) : Except PollError ℕ := do
  let (tag, msg, _) ← readTlv buf 0
  raiseIf (tag ≠ 0x30) (.valueError "not a sequence")
  let (_, _, i) ← readTlv msg 0
  let (_, _, i) ← readTlv msg i
  let (tag, pdu, _) ← readTlv msg i
  raiseIf (tag ≠ 0xA2) (.valueError ("unexpected PDU 0x" ++ hex2 tag))
  let (_, rid, j) ← readTlv pdu 0
  raiseIf (twosValue rid ≠ reqId) (.valueError "request-id mismatch")
  let (_, err, j) ← readTlv pdu j
  raiseIf (beValue err ≠ 0) (.valueError ("error-status " ++ toString (beValue err)))
  let (_, _, j) ← readTlv pdu j
  let (_, vbl, _) ← readTlv pdu j
  let (_, vb, _) ← readTlv vbl 0
  let (_, _, k) ← readTlv vb 0
  let (tag, val, _) ← readTlv vb k
  raiseIf (tag ≠ 0x43) (.valueError ("sysUpTime has tag 0x" ++ hex2 tag))
  return beValue val

/-! ### The probe -/

/-- `SYS_UPTIME`. -/
def sysUptimeName : List ℕ := [1, 3, 6, 1, 2, 1, 1, 3, 0]

/-- The loop of `Probe.snmp` over the datagrams that arrive, each with whether the deadline has
passed once it has been read; after the last one `recvfrom` times out. A reply that is not the
awaited one raises a `ValueError`, which the loop catches before the deadline. -/
def recvLoop (reqId : ℤ) : List (List UInt8 × Bool) → Except PollError ℕ
  | [] => .error .timeout
  | (data, late) :: rest =>
    match snmpParseUptime (data.take 2048) reqId with
    | .ok cs => .ok cs
    | .error (.valueError text) =>
      if late then .error (.valueError text) else recvLoop reqId rest
    | .error e => .error e

/-- The next value of `self.req_id`. -/
def nextReqId (reqId : ℕ) : ℕ := (reqId + 1) &&& 0x7FFFFFFF

/-- `Probe.snmp`, up to the unit of its result: the new `self.req_id`, and the uptime in
centiseconds, given the datagrams that arrive during it. -/
def snmp (community : List UInt8) (reqId : ℕ) (arrivals : List (List UInt8 × Bool)) :
    ℕ × Except PollError ℕ :=
  let id := nextReqId reqId
  (id, do
    let _pkt ← snmpGetRequest community id sysUptimeName
    recvLoop id arrivals)

/-- The probes of a run, one after the other, with what arrives during each. -/
def snmpRun (community : List UInt8) :
    ℕ → List (List (List UInt8 × Bool)) → List (Except PollError ℕ)
  | _, [] => []
  | reqId, arrivals :: rest =>
    let r := snmp community reqId arrivals
    r.2 :: snmpRun community r.1 rest

/-! ### What is sent -/

theorem or_0x80 {b : ℕ} (h : b < 128) : 0x80 ||| b = 128 + b :=
  (Nat.two_pow_add_eq_or_of_lt (i := 7) h 1).symm

theorem and_0x7F (n : ℕ) : n &&& 0x7F = n % 128 := Nat.and_two_pow_sub_one_eq_mod n 7

theorem shiftRight_7 (n : ℕ) : n >>> 7 = n / 128 := Nat.shiftRight_eq_div_pow n 7

theorem len_eq {n : ℕ} (h : n < 2 ^ 32) : len n = .ok (lenField n) := by
  rw [len, lenField]
  split
  · next hn =>
    rw [byteOf, if_pos (by omega)]
    rfl
  · next hn =>
    have hle : (leBytes n).length ≤ 4 := Ber.length_leBytes_le (by omega)
    rw [← Ber.length_leBytes_eq, Ber.fixedLe_length_leBytes]
    have hor : 0x80 ||| (leBytes n).reverse.length = 128 + (leBytes n).length := by
      rw [List.length_reverse, or_0x80 (by omega)]
    dsimp only
    rw [hor, byteOf, if_pos (by omega)]
    rfl

theorem tlv_eq (tag : UInt8) {value : List UInt8} (h : value.length < 2 ^ 32) :
    tlv tag value = .ok (Ber.tlv tag value) := by
  rw [tlv, len_eq h]
  rfl

/-- `_int` is the shortest encoding of a number that is not negative. -/
theorem int_eq {n : ℕ} (h : n < 2 ^ 31) : int n = .ok (Ber.tlv 0x02 (twosBytes n)) := by
  have hk : max 1 (((n : ℤ).natAbs.size + 8) / 8) = n.size / 8 + 1 := by
    rw [Int.natAbs_natCast]
    omega
  have hlen := Ber.length_twosLe_natCast n
  have hlt : n < 2 ^ (8 * (n.size / 8 + 1) - 1) :=
    (Nat.lt_size_self n).trans_le (Nat.pow_le_pow_right (by decide) (by omega))
  have hmod : ((n : ℤ) % 256 ^ (n.size / 8 + 1)).toNat = n := by
    have hpow : n < 256 ^ (n.size / 8 + 1) := by
      rw [show (256 : ℕ) = 2 ^ 8 from rfl, ← pow_mul]
      exact hlt.trans_le (Nat.pow_le_pow_right (by decide) (by omega))
    rw [Int.emod_eq_of_lt (Int.natCast_nonneg n) (by exact_mod_cast hpow), Int.toNat_natCast]
  have hbytes : (twosBytes n).length ≤ 3 + 1 := Ber.length_twosBytes_le (by omega) (by omega)
  have hfits : -(2 ^ (8 * (n.size / 8 + 1) - 1)) ≤ (n : ℤ) ∧
      (n : ℤ) < 2 ^ (8 * (n.size / 8 + 1) - 1) := by
    refine ⟨?_, by exact_mod_cast hlt⟩
    have hpos : (0 : ℤ) < 2 ^ (8 * (n.size / 8 + 1) - 1) := Int.pow_pos (by decide)
    omega
  rw [int, hk, if_pos hfits, hmod, ← hlen, Ber.fixedLe_length_twosLe]
  exact tlv_eq 0x02 (show (twosBytes n).length < _ by omega)

theorem arcLoop_eq (enc : List UInt8) (p : ℕ) :
    arcLoop enc p = (contGroups p).reverse ++ enc := by
  fun_induction arcLoop enc p with
  | case1 enc => rw [Ber.contGroups_zero]; rfl
  | case2 enc p h ih =>
    rw [ih, Ber.contGroups_of_ne_zero h, List.reverse_cons, List.append_assoc, shiftRight_7,
      and_0x7F, or_0x80 (Nat.mod_lt p (by decide)), Nat.add_comm]
    rfl

/-- One arc as `_oid` encodes it. -/
theorem arcLoop_eq_group (p : ℕ) : arcLoop [UInt8.ofNat (p &&& 0x7F)] (p >>> 7) = group p := by
  rw [arcLoop_eq, and_0x7F, shiftRight_7, group]

theorem oid_eq {a b : ℕ} {arcs : List ℕ} (hab : a * 40 + b < 128)
    (hlen : (oidContent (a :: b :: arcs)).length < 2 ^ 32) :
    oid (a :: b :: arcs) = .ok (BerTree.oid (a :: b :: arcs)).enc := by
  have hcontent : oidContent (a :: b :: arcs) =
      UInt8.ofNat (a * 40 + b) :: arcs.flatMap group := by
    rw [oidContent, Nat.mod_eq_of_lt (by omega), Ber.group_of_lt hab, List.singleton_append]
  have harcs : (arcs.flatMap fun p ↦ arcLoop [UInt8.ofNat (p &&& 0x7F)] (p >>> 7)) =
      arcs.flatMap group := by simp only [arcLoop_eq_group]
  rw [oid, byteOf, if_pos (by omega), harcs]
  show tlv 0x06 _ = _
  rw [← hcontent, tlv_eq _ hlen]
  rfl

theorem ok_bind {ε α β : Type} (a : α) (f : α → Except ε β) : (Except.ok a >>= f) = f a := rfl

theorem tlv_node {tag : UInt8} {children : List BerTree}
    (h : (BerTree.node tag children).enc.length < 2 ^ 32) :
    tlv tag (BerTree.encAll children) = .ok (BerTree.node tag children).enc :=
  tlv_eq tag ((length_content_le_tlv tag _).trans_lt h)

theorem length_enc_le_of_mem {t : BerTree} {ts : List BerTree} (h : t ∈ ts) :
    t.enc.length ≤ (BerTree.encAll ts).length := by
  induction ts with
  | nil => exact absurd h List.not_mem_nil
  | cons t' ts ih =>
    rw [length_encAll_cons]
    rcases List.mem_cons.1 h with rfl | h
    · exact Nat.le_add_right _ _
    · exact (ih h).trans (Nat.le_add_left _ _)

/-- A part of a message is not longer than the message. -/
theorem length_enc_lt_of_mem {tag : UInt8} {children : List BerTree} {t : BerTree}
    (h : (BerTree.node tag children).enc.length < 2 ^ 32) (ht : t ∈ children) :
    t.enc.length < 2 ^ 32 :=
  ((length_enc_le_of_mem ht).trans (length_content_le_tlv tag _)).trans_lt h

variable {community : List UInt8} {id a b : ℕ} {arcs : List ℕ}

/-- **What the poller sends is a GET** as the agent reads it. -/
theorem snmpGetRequest_eq (hid : id < 2 ^ 31) (hab : a * 40 + b < 128)
    (hlen : (requestTree snmpPduGet (Int32.ofNat id) 0 0 community [a :: b :: arcs]).enc.length <
      2 ^ 32) :
    snmpGetRequest community id (a :: b :: arcs) =
      .ok (requestTree snmpPduGet (Int32.ofNat id) 0 0 community [a :: b :: arcs]).enc := by
  -- from the message inwards: every part fits, so no length is refused
  rw [requestTree] at hlen ⊢
  have hcomm : (BerTree.octets community).enc.length < 2 ^ 32 :=
    length_enc_lt_of_mem hlen (by simp)
  have hpdu : (BerTree.node snmpPduGet
      (askedFields (Int32.ofNat id) 0 0 [a :: b :: arcs])).enc.length < 2 ^ 32 :=
    length_enc_lt_of_mem hlen (by simp)
  have hlist : (BerTree.node berTagSequence [askedTree (a :: b :: arcs)]).enc.length < 2 ^ 32 :=
    length_enc_lt_of_mem hpdu (by simp [askedFields])
  have hvb : (askedTree (a :: b :: arcs)).enc.length < 2 ^ 32 :=
    length_enc_lt_of_mem hlist (by simp)
  have hoid : (BerTree.oid (a :: b :: arcs)).enc.length < 2 ^ 32 :=
    length_enc_lt_of_mem hvb (by simp)
  have hint : int id = .ok (BerTree.int (Int32.ofNat id)).enc := by
    rw [int_eq hid, BerTree.enc, Int32.toInt_ofNat_of_lt hid]
    rfl
  have hzero : int 0 = .ok (BerTree.int 0).enc := @int_eq 0 (by decide)
  have hversion : int 1 = .ok (BerTree.int snmpVersion2c).enc := @int_eq 1 (by decide)
  have hoidOk := @oid_eq a b arcs hab ((length_content_le_tlv _ _).trans_lt hoid)
  have hcommOk : tlv 0x04 community = .ok (BerTree.octets community).enc :=
    tlv_eq berTagOctetStr ((length_content_le_tlv _ community).trans_lt hcomm)
  have hvbOk : tlv 0x30 ((BerTree.oid (a :: b :: arcs)).enc ++ [0x05, 0x00]) =
      .ok (askedTree (a :: b :: arcs)).enc := tlv_node hvb
  have hlistOk : tlv 0x30 (askedTree (a :: b :: arcs)).enc =
      .ok (BerTree.node berTagSequence [askedTree (a :: b :: arcs)]).enc := by
    rw [← tlv_node hlist, BerTree.encAll, BerTree.encAll, List.append_nil]
    rfl
  have hpduOk : tlv 0xA0 ((BerTree.int (Int32.ofNat id)).enc ++ (BerTree.int 0).enc ++
      (BerTree.int 0).enc ++ (BerTree.node berTagSequence [askedTree (a :: b :: arcs)]).enc) =
      .ok (BerTree.node snmpPduGet
        (askedFields (Int32.ofNat id) 0 0 [a :: b :: arcs])).enc := by
    rw [← tlv_node hpdu]
    simp [askedFields, BerTree.encAll, snmpPduGet]
  rw [snmpGetRequest]
  simp only [hoidOk, hvbOk, hint, hzero, hlistOk, hpduOk, hversion, hcommOk, ok_bind]
  rw [← tlv_node hlen]
  simp [BerTree.encAll, berTagSequence]

/-! ### What is read -/

theorem slice_of_drop {buf c rest : List UInt8} {i : ℕ} (h : buf.drop i = c ++ rest) :
    slice buf i (i + c.length) = c ∧ buf.drop (i + c.length) = rest := by
  refine ⟨?_, ?_⟩
  · rw [slice, List.drop_take, Nat.add_sub_cancel_left, h, List.take_left]
  · rw [← List.drop_drop, h, List.drop_left]

theorem index_of_drop {buf rest : List UInt8} {i : ℕ} {x : UInt8} (h : buf.drop i = x :: rest) :
    index buf i = .ok x ∧ buf.drop (i + 1) = rest := by
  refine ⟨?_, ?_⟩
  · have hget : buf[i]? = some x := by
      rw [← List.head?_drop, h, List.head?_cons]
    rw [index, hget]
  · rw [← List.drop_drop, h]
    rfl

/-- **Reading an element** where one stands. -/
theorem readTlv_of_drop {buf c rest : List UInt8} {i : ℕ} {tag : UInt8}
    (h : buf.drop i = Ber.tlv tag c ++ rest) (hc : c.length < 2 ^ 32) :
    ∃ j, readTlv buf i = .ok (tag, c, j) ∧ buf.drop j = rest := by
  rw [Ber.tlv, List.cons_append, List.append_assoc] at h
  obtain ⟨htag, hlen⟩ := index_of_drop h
  rw [readTlv, htag, ok_bind]
  rw [lenField] at hlen
  split at hlen
  · next hshort =>
    obtain ⟨hn, hcontent⟩ := index_of_drop hlen
    obtain ⟨hval, hrest⟩ := @slice_of_drop buf c rest _ hcontent
    have hbit : ∀ n < 128, n &&& 0x80 = 0 := by decide
    have hbyte : (UInt8.ofNat c.length).toNat = c.length := Ber.toNat_ofNat_of_lt (by omega)
    rw [hn, ok_bind, hbyte]
    dsimp only
    rw [if_neg (by rw [hbit _ hshort]; decide), hval]
    exact ⟨_, rfl, hrest⟩
  · next hlong =>
    have hle : (leBytes c.length).length ≤ 4 := Ber.length_leBytes_le (by omega)
    obtain ⟨hn, hfield⟩ := index_of_drop hlen
    obtain ⟨hfieldVal, hcontent⟩ := slice_of_drop hfield
    obtain ⟨hval, hrest⟩ := slice_of_drop hcontent
    have hbits : ∀ k < 128, (128 + k) &&& 0x80 ≠ 0 ∧ (128 + k) &&& 0x7F = k := by decide
    obtain ⟨hbit, hcount⟩ := hbits (leBytes c.length).length (by omega)
    have hbyte : (UInt8.ofNat (128 + (leBytes c.length).length)).toNat =
        128 + (leBytes c.length).length := Ber.toNat_ofNat_of_lt (by omega)
    rw [List.length_reverse] at hfieldVal hval hrest
    rw [hn, ok_bind, hbyte]
    dsimp only
    rw [if_pos hbit, hcount, hfieldVal, Ber.beValue_reverse_leBytes, hval]
    exact ⟨_, rfl, hrest⟩

theorem raiseIf_neg {c : Prop} [Decidable c] {e : PollError} (h : ¬c) :
    raiseIf c e = .ok () := if_neg h

/-- Reading the next of several elements. -/
theorem readTlv_of_encAll {buf : List UInt8} {i : ℕ} (t : BerTree) {ts : List BerTree}
    (h : buf.drop i = BerTree.encAll (t :: ts)) (ht : t.enc.length < 2 ^ 32) :
    ∃ j, readTlv buf i = .ok (t.element.1, t.element.2, j) ∧ buf.drop j = BerTree.encAll ts := by
  rw [BerTree.encAll, enc_eq_tlv] at h
  rw [enc_eq_tlv] at ht
  exact readTlv_of_drop h ((length_content_le_tlv _ _).trans_lt ht)

theorem readTlv_encAll (t : BerTree) (ts : List BerTree) (ht : t.enc.length < 2 ^ 32) :
    ∃ j, readTlv (BerTree.encAll (t :: ts)) 0 = .ok (t.element.1, t.element.2, j) ∧
      (BerTree.encAll (t :: ts)).drop j = BerTree.encAll ts := readTlv_of_encAll t rfl ht

theorem readTlv_enc (t : BerTree) (ht : t.enc.length < 2 ^ 32) :
    ∃ j, readTlv t.enc 0 = .ok (t.element.1, t.element.2, j) := by
  obtain ⟨j, hread, -⟩ := readTlv_encAll t [] ht
  rw [BerTree.encAll, BerTree.encAll, List.append_nil] at hread
  exact ⟨j, hread⟩

/-- **What the poller makes of a response**: the uptime, if the response is to its own request. -/
theorem snmpParseUptime_enc {requestId : Int32} {name : List ℕ} {v : UInt32} (reqId : ℤ)
    (hlen : (responseTree requestId 0 0 community
      [(name, .uint berTagTimeticks v)]).enc.length < 2 ^ 32) :
    snmpParseUptime (responseTree requestId 0 0 community
        [(name, .uint berTagTimeticks v)]).enc reqId =
      if requestId.toInt = reqId then .ok v.toNat
      else .error (.valueError "request-id mismatch") := by
  rw [responseTree, messageFields, pduFields, List.map_singleton, varbindTree] at hlen ⊢
  have hpdu := length_enc_lt_of_mem hlen (List.mem_cons_of_mem _ (List.mem_cons_of_mem _
    List.mem_cons_self))
  have hlist := length_enc_lt_of_mem hpdu (List.mem_cons_of_mem _ (List.mem_cons_of_mem _
    (List.mem_cons_of_mem _ List.mem_cons_self)))
  have hvb := length_enc_lt_of_mem hlist List.mem_cons_self
  -- the message and its three fields, the five fields of the PDU, and the two of its varbind
  obtain ⟨_, hmsg⟩ := readTlv_enc _ hlen
  obtain ⟨i₁, hversion, h₁⟩ := readTlv_encAll (.int snmpVersion2c) _
    (length_enc_lt_of_mem hlen List.mem_cons_self)
  obtain ⟨i₂, hcomm, h₂⟩ := readTlv_of_encAll (.octets community) h₁
    (length_enc_lt_of_mem hlen (by simp))
  obtain ⟨_, hpduRead, -⟩ := @readTlv_of_encAll _ i₂ _ [] h₂ hpdu
  obtain ⟨j₁, hid, h₃⟩ := readTlv_encAll (.int requestId) _
    (length_enc_lt_of_mem hpdu List.mem_cons_self)
  obtain ⟨j₂, hstatus, h₄⟩ := readTlv_of_encAll (.int 0) h₃ (length_enc_lt_of_mem hpdu (by simp))
  obtain ⟨j₃, hindex, h₅⟩ := readTlv_of_encAll (.int 0) h₄ (length_enc_lt_of_mem hpdu (by simp))
  obtain ⟨_, hlistRead, -⟩ := @readTlv_of_encAll _ j₃ _ [] h₅ hlist
  obtain ⟨_, hvbRead, -⟩ := readTlv_encAll _ [] hvb
  obtain ⟨k, hoid, h₆⟩ := readTlv_encAll (.oid name) _
    (length_enc_lt_of_mem hvb List.mem_cons_self)
  obtain ⟨_, hvalue, -⟩ := @readTlv_of_encAll _ k (.uint berTagTimeticks v) [] h₆
    (length_enc_lt_of_mem hvb (by simp))
  have hzero : beValue (twosBytes (0 : Int32).toInt) = 0 := by decide +kernel
  have hticks : beValue (twosBytes v.toNat) = v.toNat := Ber.beValue_twosBytes v.toNat
  simp only [BerTree.element] at hmsg hversion hcomm hpduRead
  simp only [BerTree.element] at hid hstatus hindex hlistRead hvbRead hoid hvalue
  rw [snmpParseUptime, hmsg, ok_bind]
  dsimp only
  rw [raiseIf_neg (by decide), ok_bind, hversion, ok_bind]
  dsimp only
  rw [hcomm, ok_bind]
  dsimp only
  rw [hpduRead, ok_bind]
  dsimp only
  rw [raiseIf_neg (by decide), ok_bind, hid, ok_bind]
  dsimp only
  rw [Ber.twosValue_twosBytes]
  split
  · next heq =>
    rw [raiseIf_neg (not_not.2 heq), ok_bind, hstatus, ok_bind]
    dsimp only
    rw [hzero, raiseIf_neg (by decide), ok_bind, hindex, ok_bind]
    dsimp only
    rw [hlistRead, ok_bind]
    dsimp only
    rw [hvbRead, ok_bind]
    dsimp only
    rw [hoid, ok_bind]
    dsimp only
    rw [hvalue, ok_bind]
    dsimp only
    rw [raiseIf_neg (by decide), ok_bind, hticks]
    rfl
  · next hne => rw [raiseIf, if_pos hne]; rfl

/-! ### The probes of a run -/

/-- An agent's answer to one of the poller's requests, and whether the deadline of the probe that
reads it has passed by then. -/
structure Answer where
  call : AgentCall
  requestId : ℕ
  late : Bool

/-- The datagram that the agent sends, and whether it is late. -/
def Answer.datagram (community : List UInt8) (x : Answer) : List UInt8 × Bool :=
  (match snmpGetRequest community x.requestId sysUptimeName with
  | .error _ => []
  | .ok pkt =>
    match x.call.reply community pkt with
    | .ok (some buf) => buf
    | _ => [], x.late)

/-- The uptime that an answer holds. -/
def Answer.uptime (x : Answer) : ℕ := (x.call.vals 0).sysUptime.toNat

/-- What a probe with the request-id `id` makes of the answers that arrive during it. -/
def outcome (id : ℕ) (answers : List Answer) : Except PollError ℕ :=
  match answers.find? fun x ↦ x.requestId = id ∨ x.late with
  | none => .error .timeout
  | some x =>
    if x.requestId = id then .ok x.uptime else .error (.valueError "request-id mismatch")

variable {sw : SwitchConfig}

/-- The object that the poller asks for. -/
theorem exactValue_sysUptime (sw : SwitchConfig) (v : MibValues) :
    exactValue sw.mibView v sysUptimeName =
      (sysUptimeName, .uint berTagTimeticks v.sysUptime) := by
  have hget : mibGetExact sw.mibView sysUptimeName = some 2 := by
    rw [sw.mibView_eq]
    rfl
  have hleaf : sw.mibView[2]? = some ⟨.sysUptime, 3, 0⟩ := by
    rw [sw.mibView_eq]
    rfl
  rw [exactValue, hget]
  dsimp only
  rw [hleaf]
  rfl

theorem readable_sysUptimeName : Readable sysUptimeName := by
  rw [Readable]
  decide +kernel

/-- The answer to a GET of the uptime is short. -/
theorem length_uptimeResponse_le (id : Int32) (v : UInt32) (hroom : community.length ≤ 1190) :
    (responseTree id 0 0 community
      [(sysUptimeName, .uint berTagTimeticks v)]).enc.length ≤ snmpTxBuf := by
  have hv := v.toNat_lt
  have hbytes : (twosBytes v.toNat).length ≤ 4 + 1 :=
    Ber.length_twosBytes_le (by omega) (by omega)
  have henc : (BerTree.uint berTagTimeticks v).enc.length ≤ (twosBytes v.toNat).length + 6 :=
    Ber.length_tlv_le berTagTimeticks (by omega)
  have hlen := length_message_le readable_sysUptimeName snmpPduResponse id 0 0 community
    (.uint berTagTimeticks v) (by omega)
  exact hlen.trans (show _ ≤ 1500 by omega)

theorem length_uptimeRequest_lt (id : Int32) (hroom : community.length ≤ 1190) :
    (requestTree snmpPduGet id 0 0 community [sysUptimeName]).enc.length < 2 ^ 32 := by
  have hnull : (BerTree.null).enc.length = 2 := rfl
  have := length_message_le readable_sysUptimeName snmpPduGet id 0 0 community .null (by omega)
  exact this.trans_lt (by omega)

theorem snmpGetRequest_sysUptime (hid : id < 2 ^ 31) (hroom : community.length ≤ 1190) :
    snmpGetRequest community id sysUptimeName =
      .ok (requestTree snmpPduGet (Int32.ofNat id) 0 0 community [sysUptimeName]).enc :=
  snmpGetRequest_eq hid (by decide) (length_uptimeRequest_lt _ hroom)

/-- **What an agent sends back** for one of the poller's requests. -/
theorem datagram_eq {x : Answer} (hmib : x.call.mib = sw.mibView) (hid : x.requestId < 2 ^ 31)
    (hroom : community.length ≤ 1190) :
    x.datagram community = ((responseTree (Int32.ofNat x.requestId) 0 0 community
      [(sysUptimeName, .uint berTagTimeticks (x.call.vals 0).sysUptime)]).enc, x.late) := by
  have hreply := @reply_get community (Int32.ofNat x.requestId) 0 0 x.call _
    readable_sysUptimeName (length_uptimeRequest_lt _ hroom)
  rw [hmib, exactValue_sysUptime] at hreply
  rw [Answer.datagram, snmpGetRequest_sysUptime hid hroom]
  dsimp only
  rw [hreply (length_uptimeResponse_le _ _ hroom)]

theorem recvLoop_cons {x : Answer} (hmib : x.call.mib = sw.mibView) (hid : x.requestId < 2 ^ 31)
    (hroom : community.length ≤ 1190) (id : ℕ) (rest : List (List UInt8 × Bool)) :
    recvLoop id (x.datagram community :: rest) =
      if x.requestId = id then .ok x.uptime
      else if x.late then .error (.valueError "request-id mismatch") else recvLoop id rest := by
  have hfits := length_uptimeResponse_le (Int32.ofNat x.requestId) (x.call.vals 0).sysUptime hroom
  have hlt : snmpTxBuf < 2048 := by decide
  rw [datagram_eq hmib hid hroom, recvLoop, List.take_of_length_le (by omega),
    snmpParseUptime_enc id (by omega), Int32.toInt_ofNat_of_lt hid]
  by_cases heq : x.requestId = id
  · rw [if_pos heq, if_pos (by rw [heq])]
    rfl
  · rw [if_neg heq, if_neg (by rwa [Int.natCast_inj])]

/-- **One probe**, whatever answers arrive during it. -/
theorem recvLoop_answers (id : ℕ) (hroom : community.length ≤ 1190) {answers : List Answer}
    (hreal : ∀ x ∈ answers, x.call.mib = sw.mibView ∧ x.requestId < 2 ^ 31) :
    recvLoop id (answers.map (·.datagram community)) = outcome id answers := by
  -- answers to other requests are passed over until the deadline
  induction answers with
  | nil => rfl
  | cons x answers ih =>
    obtain ⟨hmib, hid⟩ := hreal x List.mem_cons_self
    rw [List.map_cons, recvLoop_cons hmib hid hroom,
      ih fun y hy ↦ hreal y (List.mem_cons_of_mem x hy), outcome, outcome, List.find?_cons]
    by_cases heq : x.requestId = id
    · simp [heq]
    · by_cases hlate : x.late
      · simp [heq, hlate]
      · simp [heq, hlate]

theorem nextReqId_eq (reqId : ℕ) : nextReqId reqId = (reqId + 1) % 2 ^ 31 :=
  Nat.and_two_pow_sub_one_eq_mod (reqId + 1) 31

/-- **Every probe of a run reports an uptime that the agent had for that very request**: answers
that arrive from earlier requests, however late, in whatever order and however often, are passed
over. A probe without an answer of its own ends with the deadline. -/
theorem snmpRun_eq (sw : SwitchConfig) (hroom : community.length ≤ 1190)
    {rounds : List (List Answer)}
    (hreal : ∀ answers ∈ rounds, ∀ x ∈ answers, x.call.mib = sw.mibView ∧ x.requestId < 2 ^ 31)
    (reqId : ℕ) :
    snmpRun community reqId (rounds.map fun answers ↦ answers.map (·.datagram community)) =
      rounds.mapIdx fun k answers ↦ outcome ((reqId + k + 1) % 2 ^ 31) answers := by
  induction rounds generalizing reqId with
  | nil => rfl
  | cons answers rounds ih =>
    have hlt : (reqId + 1) % 2 ^ 31 < 2 ^ 31 := Nat.mod_lt _ (by decide)
    have hfirst : snmp community reqId (answers.map (·.datagram community)) =
        ((reqId + 1) % 2 ^ 31, outcome ((reqId + 1) % 2 ^ 31) answers) := by
      rw [snmp, nextReqId_eq, snmpGetRequest_sysUptime hlt hroom, ok_bind,
        recvLoop_answers _ hroom (hreal answers List.mem_cons_self)]
    rw [List.map_cons, snmpRun, hfirst, List.mapIdx_cons,
      ih fun l hl ↦ hreal l (List.mem_cons_of_mem answers hl)]
    have hnext : ∀ k, ((reqId + 1) % 2 ^ 31 + k + 1) % 2 ^ 31 =
        (reqId + (k + 1) + 1) % 2 ^ 31 := fun k ↦ by omega
    simp only [hnext, Nat.add_zero]

/-- The answers of two probes: to the first, one to an earlier request and then its own; to the
second, its predecessor's once more, as the deadline passes. -/
def twoRounds : List (List Answer) :=
  [[⟨restingAgent, 1000, false⟩, ⟨restingAgent, 1001, false⟩], [⟨restingAgent, 1001, true⟩]]

theorem snmpRun_eq_twoRounds :
    snmpRun sampleCommunity 1000
        (twoRounds.map fun answers ↦ answers.map (·.datagram sampleCommunity)) =
      [.ok 0, .error (.valueError "request-id mismatch")] := by
  have hmib : restingAgent.mib = defaultSwitch.mibView := by rw [restingAgent]
  have hup : (restingAgent.vals 0).sysUptime.toNat = 0 := rfl
  rw [snmpRun_eq defaultSwitch (by decide +kernel) (by simp [twoRounds, hmib]) 1000]
  simp [twoRounds, outcome, Answer.uptime, hup]

end ThinEdge.Soak
