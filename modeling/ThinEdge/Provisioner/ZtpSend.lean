import Mathlib.Algebra.Order.Ring.Nat
import ThinEdge.Provisioner.ZtpReassembly
import ThinEdge.Provisioner.ZtpStage

/-!
# Zero-touch provisioning: sending a message

`send_message` of `apps/wifi-provisioner/src/ztp.c` cuts a message into fragments that fit one
notification each and ends it with a fragment of length zero. There are two parties that put
fragments together again: the device itself, in `write_request`, and the relay, in the `Reader` of
`scripts/ztp_provision.py`.

`sendMessage_reassembles` says that both get the message that was sent, whatever its length and the
MTU. It rests on `reassembles_sendLoop`, which is about any receiver that appends the payload of a
fragment to what it holds (`HoldsUpTo`).
-/

namespace ThinEdge.Provisioner

open Bytes

/-! ### The sender -/

/-- `TX_FRAG_MAX`. -/
def txFragMax : ℕ := 180

/-- `-ENOMEM`. -/
def enomem : ℤ := -12

/-- `-ENOTCONN`. -/
def enotconn : ℤ := -128

/-- The number of times `notify_retry` tries. -/
def notifyTries : ℕ := 250

/-- What `notify_retry` finds when it tries. -/
inductive NotifyAnswer
  /-- There is no connection any more. -/
  | gone
  /-- The result of `bt_gatt_notify`. -/
  | result (rc : ℤ)
  deriving DecidableEq, Repr

/-- The connection a message is sent on. -/
structure TxLink where
  /-- The response characteristic was found. -/
  attr : Bool
  connected : Bool
  /-- `bt_gatt_get_mtu`. -/
  mtu : UInt16
  /-- What each try to notify finds. -/
  answer : ℕ → NotifyAnswer

/-- `notify_retry`: its result, and the number of the next try. -/
def notifyRetry (link : TxLink) : ℕ → ℕ → ℤ × ℕ
  | 0, i => (enomem, i)
  | tries + 1, i =>
    match link.answer i with
    | .gone => (enotconn, i + 1)
    | .result rc => if rc ≠ enomem then (rc, i + 1) else notifyRetry link tries (i + 1)

/-- `notify_retry` from its first try on, which is the `i`-th of all. -/
def TxLink.notify (link : TxLink) (i : ℕ) : ℤ × ℕ := notifyRetry link notifyTries i

/-- A fragment takes some of the data. -/
theorem length_drop_chunk_lt {chunk : ℕ} (hchunk : 0 < chunk) {data : List UInt8}
    (hdata : data ≠ []) : (data.drop chunk).length < data.length := by
  have hpos := List.length_pos_iff.2 hdata
  rw [List.length_drop]
  omega

/-- The loop of `send_message`, for the data from `off` on: the notifications that were sent, and
the result. -/
def sendLoop (link : TxLink) (chunk : ℕ) (hchunk : 0 < chunk) (i : ℕ) (data : List UInt8) :
    List (List UInt8) × ℤ :=
  if hdata : data = [] then
    (if (link.notify i).1 = 0 then [putBe16 0] else [], (link.notify i).1)
  else if (link.notify i).1 ≠ 0 then ([], (link.notify i).1)
  else
    have := length_drop_chunk_lt hchunk hdata
    let rest := sendLoop link chunk hchunk (link.notify i).2 (data.drop chunk)
    (framed (data.take (min chunk data.length)) :: rest.1, rest.2)
termination_by data.length

/-- The bytes of a fragment's payload: a `size_t` computed from the MTU. -/
def chunkOf (mtu : UInt16) : ℕ := min txFragMax ((mtu.toNat + 2 ^ 32 - 3 - 2) % 2 ^ 32)

/-- `send_message`: the notifications that were sent, and the result. -/
def sendMessage (link : TxLink) (data : List UInt8) : List (List UInt8) × ℤ :=
  if link.attr = false ∨ link.connected = false then ([], enotconn)
  else if hchunk : chunkOf link.mtu = 0 then ([], einval)
  else sendLoop link (chunkOf link.mtu) (Nat.pos_of_ne_zero hchunk) 0 data

/-! ### The receivers -/

/-- A party that takes one fragment at a time. -/
structure FrameReceiver (σ : Type) where
  take : σ → List UInt8 → σ
  /-- The end of the message has been seen. -/
  ended : σ → Bool
  /-- What has been put together; `none` when something is missing. -/
  message : σ → Option (List UInt8)

/-- The device's own receiver, one write for each fragment. -/
def deviceReceiver (cfg : ZtpConfig) : FrameReceiver ZtpState where
  take s n := (writeRequest cfg s ⟨n, 0, false, false⟩).1
  ended := ZtpState.rxBusy
  message s := if s.rxOverflow then none else some s.rx

/-- `Reader`. -/
structure RelayReader where
  buf : List UInt8
  done : Bool
  deriving DecidableEq, Repr

/-- `reset`. -/
def RelayReader.reset : RelayReader := ⟨[], false⟩

/-- `on_notify`. -/
def RelayReader.onNotify (r : RelayReader) (data : List UInt8) : RelayReader :=
  if data.length < 2 then r
  else
    let n := getBe16 (data.getD 0 0) (data.getD 1 0)
    if n = 0 then { r with done := true } else { r with buf := r.buf ++ (data.drop 2).take n }

/-- The relay's receiver. -/
def relayReceiver : FrameReceiver RelayReader where
  take := RelayReader.onNotify
  ended := RelayReader.done
  message r := some r.buf

/-- The fragments are put together to the message, which ends with the last of them and not
before. -/
structure Reassembles {σ : Type} (r : FrameReceiver σ) (data : List UInt8) (s : σ)
    (ns : List (List UInt8)) : Prop where
  before : ∀ k < ns.length, r.ended ((ns.take k).foldl r.take s) = false
  ended : r.ended (ns.foldl r.take s) = true
  message : r.message (ns.foldl r.take s) = some data

section Receivers

variable {σ : Type} {r : FrameReceiver σ} {data p q : List UInt8} {s : σ} {n : List UInt8}
  {ns : List (List UInt8)}

theorem Reassembles.of_last (hs : r.ended s = false) (hend : r.ended (r.take s n) = true)
    (hmsg : r.message (r.take s n) = some data) : Reassembles r data s [n] := by
  refine ⟨fun k hk ↦ ?_, hend, hmsg⟩
  obtain rfl := Nat.lt_one_iff.1 hk
  exact hs

theorem Reassembles.cons (hs : r.ended s = false) (h : Reassembles r data (r.take s n) ns) :
    Reassembles r data s (n :: ns) := by
  refine ⟨fun k hk ↦ ?_, h.ended, h.message⟩
  cases k with
  | zero => exact hs
  | succ k => exact h.before k (Nat.lt_of_succ_lt_succ hk)

/-- A receiver that holds a part `p` of the message `data`, as `Holds p` says it, holds more of it
after each fragment, and knows the end. -/
structure HoldsUpTo (r : FrameReceiver σ) (data : List UInt8) (Holds : List UInt8 → σ → Prop) :
    Prop where
  waits : ∀ p s, Holds p s → r.ended s = false
  append : ∀ p q s, Holds p s → q ≠ [] → q.length ≤ txFragMax → p ++ q <+: data →
    Holds (p ++ q) (r.take s (framed q))
  ends : ∀ p s, Holds p s →
    r.ended (r.take s (putBe16 0)) = true ∧ r.message (r.take s (putBe16 0)) = some p

/-- **The loop sends the rest of the message** to any such receiver. -/
theorem reassembles_sendLoop {Holds : List UInt8 → σ → Prop} (hr : HoldsUpTo r (p ++ q) Holds)
    {link : TxLink} {chunk : ℕ} {hchunk : 0 < chunk} {i : ℕ} (hmax : chunk ≤ txFragMax)
    (hok : (sendLoop link chunk hchunk i q).2 = 0) (hs : Holds p s) :
    Reassembles r (p ++ q) s (sendLoop link chunk hchunk i q).1 := by
  induction i, q using sendLoop.induct link chunk hchunk generalizing p s with
  | case1 i =>
    rw [sendLoop, dif_pos rfl] at hok ⊢
    obtain ⟨hend, hmsg⟩ := hr.ends p s hs
    rw [List.append_nil]
    dsimp only
    rw [if_pos hok]
    exact .of_last (hr.waits p s hs) hend hmsg
  | case2 i q hq hfail =>
    rw [sendLoop, dif_neg hq, if_pos hfail] at hok
    exact absurd hok hfail
  | case3 i q hq hsent hlt ih =>
    rw [sendLoop, dif_neg hq, if_neg hsent] at hok ⊢
    have hsplit : p ++ q.take (min chunk q.length) ++ q.drop chunk = p ++ q := by
      rw [← List.take_eq_take_min, List.append_assoc, List.take_append_drop]
    have hne : q.take (min chunk q.length) ≠ [] := by
      rw [Ne, List.take_eq_nil_iff, not_or]
      exact ⟨Nat.ne_of_gt (Nat.lt_min.2 ⟨hchunk, List.length_pos_iff.2 hq⟩), hq⟩
    have hlen : (q.take (min chunk q.length)).length ≤ txFragMax :=
      Nat.le_trans (List.length_take_le _ _) (Nat.le_trans (Nat.min_le_left _ _) hmax)
    have hnext := hr.append p _ s hs hne hlen ⟨q.drop chunk, hsplit⟩
    refine .cons (hr.waits p s hs) ?_
    rw [← hsplit] at hr ⊢
    exact ih hr hok hnext

end Receivers
/-! ### The device's receiver -/

/-- The device's receiver is free and holds the fragments with the payload `p`. -/
structure DeviceHolds (p : List UInt8) (s : ZtpState) : Prop where
  rxBusy : s.rxBusy = false
  rx : s.rx = p
  rxOverflow : s.rxOverflow = false
  frag : s.frag = []

theorem RxReset.holds {s : ZtpState} (h : RxReset s) : DeviceHolds [] s :=
  ⟨h.rxBusy, h.rx, h.rxOverflow, h.frag⟩

variable {cfg : ZtpConfig} {data p q : List UInt8} {s : ZtpState}

/-- A fragment in one write is a piece of its own. -/
theorem DeviceHolds.takesPiece (h : DeviceHolds p s) (hq : q.length ≤ 512) :
    TakesPiece s ⟨framed q, 0, false, false⟩ ∧
      (s.appended ⟨framed q, 0, false, false⟩).frag <+: framed q ∧
        2 + q.length ≤ (s.appended ⟨framed q, 0, false, false⟩).frag.length := by
  have hzero : s.frag.length = 0 := congrArg List.length h.frag
  have hfrag : (s.appended ⟨framed q, 0, false, false⟩).frag = framed q := rfl
  refine ⟨⟨h.rxBusy, rfl, hzero.symm, ?_⟩, ?_, ?_⟩
  · rw [hzero, Nat.zero_add, length_framed, fragSize]
    exact Nat.add_le_add_left hq 2
  · exact hfrag ▸ List.prefix_rfl
  · rw [hfrag, length_framed]

theorem DeviceHolds.append (h : DeviceHolds p s) (hq : q ≠ []) (hq512 : q.length ≤ 512)
    (hroom : p.length + q.length ≤ cfg.rxBytes) :
    DeviceHolds (p ++ q) ((deviceReceiver cfg).take s (framed q)) := by
  obtain ⟨htakes, hpre, hlen⟩ := h.takesPiece hq512
  show DeviceHolds (p ++ q) (writeRequest cfg s _).1
  rw [htakes.writeRequest_absorb hq hq512 List.prefix_rfl hpre hlen, ZtpState.absorb, h.rx,
    if_neg (Nat.not_lt.2 hroom)]
  exact ⟨h.rxBusy, rfl, h.rxOverflow, rfl⟩

theorem DeviceHolds.endsMessage (h : DeviceHolds p s) :
    EndsMessage s ⟨putBe16 0, 0, false, false⟩ := by
  have hnil : ([] : List UInt8).length ≤ 512 := Nat.zero_le 512
  obtain ⟨htakes, hpre, hlen⟩ := h.takesPiece hnil
  have hcomp := (fragComplete_iff hnil List.prefix_rfl hpre).2 hlen
  exact htakes.endsMessage_iff.2 ⟨hcomp, fragLength_of_framed hnil List.prefix_rfl hpre hcomp.1⟩

theorem holdsUpTo_deviceReceiver (hroom : data.length ≤ cfg.rxBytes) :
    HoldsUpTo (deviceReceiver cfg) data DeviceHolds where
  waits p s h := h.rxBusy
  append p q s h hq hmax hpre := by
    have hle := Nat.le_trans hpre.length_le hroom
    rw [List.length_append] at hle
    exact h.append hq (Nat.le_trans hmax (by decide)) hle
  ends p s h := by
    have hend := writeRequest_of_endsMessage cfg h.endsMessage
    constructor
    · show (writeRequest cfg s _).1.rxBusy = true
      rw [hend]
      rfl
    · show (if (writeRequest cfg s _).1.rxOverflow then none
        else some (writeRequest cfg s _).1.rx) = some p
      rw [hend]
      show (if s.rxOverflow then none else some s.rx) = some p
      rw [h.rxOverflow, h.rx]
      rfl

/-! ### The relay's receiver -/

/-- The relay holds the fragments with the payload `p`. -/
def RelayHolds (p : List UInt8) (r : RelayReader) : Prop := r = ⟨p, false⟩

theorem onNotify_framed (p : List UInt8) (hq : q ≠ []) (hmax : q.length < 65536) :
    RelayReader.onNotify ⟨p, false⟩ (framed q) = ⟨p ++ q, false⟩ := by
  have hlen : getBe16 ((framed q).getD 0 0) ((framed q).getD 1 0) = q.length := by
    have hof : (UInt16.ofNat q.length).toNat = q.length := UInt16.toNat_ofNat_of_lt hmax
    rw [framed, putBe16, hof]
    exact getBe16_putBe16 hmax
  have htwo : ¬ (framed q).length < 2 := by
    rw [length_framed]
    omega
  rw [RelayReader.onNotify, if_neg htwo]
  dsimp only
  rw [hlen, if_neg fun h0 ↦ hq (List.length_eq_zero_iff.1 h0)]
  congr 2
  exact List.take_length

theorem holdsUpTo_relayReceiver (data : List UInt8) :
    HoldsUpTo relayReceiver data RelayHolds where
  waits p r h := h ▸ rfl
  append p q r h hq hmax _ := by
    subst h
    exact onNotify_framed p hq (Nat.lt_of_le_of_lt hmax (by decide))
  ends p r h := h ▸ ⟨rfl, rfl⟩

/-! ### The main result -/

variable {link : TxLink} {chunk : ℕ} {hchunk : 0 < chunk} {i : ℕ}

/-- A notification has at most the bytes of a chunk and a length. -/
theorem length_le_of_mem_sendLoop {n : List UInt8}
    (hn : n ∈ (sendLoop link chunk hchunk i data).1) : n.length ≤ 2 + chunk := by
  induction i, data using sendLoop.induct link chunk hchunk with
  | case1 i =>
    rw [sendLoop, dif_pos rfl] at hn
    dsimp only at hn
    split at hn
    · rw [List.mem_singleton.1 hn]
      exact Nat.le_add_right 2 chunk
    · exact absurd hn List.not_mem_nil
  | case2 i q hq hfail =>
    rw [sendLoop, dif_neg hq, if_pos hfail] at hn
    exact absurd hn List.not_mem_nil
  | case3 i q hq hsent hlt ih =>
    rw [sendLoop, dif_neg hq, if_neg hsent] at hn
    rcases List.mem_cons.1 hn with rfl | hrest
    · rw [length_framed]
      exact Nat.add_le_add_left
        (Nat.le_trans (List.length_take_le _ _) (Nat.min_le_left _ _)) 2
    · exact ih hrest

/-- From an MTU of 23 on, a chunk and its length fit a notification. -/
theorem chunkOf_add_le {mtu : UInt16} (hmtu : 23 ≤ mtu.toNat) :
    0 < chunkOf mtu ∧ chunkOf mtu ≤ txFragMax ∧ 2 + chunkOf mtu ≤ mtu.toNat - 3 := by
  have hlt := mtu.toNat_lt
  have hmod : (mtu.toNat + 2 ^ 32 - 3 - 2) % 2 ^ 32 = mtu.toNat - 5 := by omega
  rw [chunkOf, hmod, txFragMax]
  omega

/-- A message that was sent is one run of the loop. -/
theorem sendMessage_of_ok (hmtu : 23 ≤ link.mtu.toNat) (hok : (sendMessage link data).2 = 0) :
    sendMessage link data =
      sendLoop link (chunkOf link.mtu) (chunkOf_add_le hmtu).1 0 data := by
  have hchunk := Nat.ne_of_gt (chunkOf_add_le hmtu).1
  rw [sendMessage] at hok ⊢
  split at hok
  · exact absurd hok (by decide)
  · next hconn => rw [if_neg hconn, dif_neg hchunk]

/-- **What was sent is put together again**, by the device's receiver as by the relay's, and each
notification fits the MTU. -/
theorem sendMessage_reassembles (link : TxLink) (data : List UInt8) (hmtu : 23 ≤ link.mtu.toNat)
    (hok : (sendMessage link data).2 = 0) :
    (∀ n ∈ (sendMessage link data).1, n.length ≤ link.mtu.toNat - 3) ∧
      (∀ cfg s, RxReset s → data.length ≤ cfg.rxBytes →
        Reassembles (deviceReceiver cfg) data s (sendMessage link data).1) ∧
      Reassembles relayReceiver data .reset (sendMessage link data).1 := by
  obtain ⟨hpos, hmax, hfits⟩ := chunkOf_add_le hmtu
  have hloop := sendMessage_of_ok hmtu hok
  rw [hloop] at hok ⊢
  refine ⟨fun n hn ↦ Nat.le_trans (length_le_of_mem_sendLoop hn) hfits, fun cfg s hs hroom ↦ ?_, ?_⟩
  · exact reassembles_sendLoop (p := []) (holdsUpTo_deviceReceiver hroom) hmax hok hs.holds
  · exact reassembles_sendLoop (p := []) (holdsUpTo_relayReceiver data) hmax hok rfl

/-- If every try succeeds, the message is sent. -/
theorem sendMessage_ok (hattr : link.attr = true) (hconn : link.connected = true)
    (hmtu : 23 ≤ link.mtu.toNat) (hanswer : ∀ i, link.answer i = .result 0) :
    (sendMessage link data).2 = 0 := by
  have hnotify : ∀ i, (link.notify i).1 = 0 := fun i ↦ by
    rw [TxLink.notify, notifyTries, notifyRetry, hanswer]
    rfl
  have hloop : ∀ chunk hchunk i, (sendLoop link chunk hchunk i data).2 = 0 := by
    intro chunk hchunk i
    induction i, data using sendLoop.induct link chunk hchunk with
    | case1 i =>
      rw [sendLoop, dif_pos rfl]
      exact hnotify i
    | case2 i q hq hfail => exact absurd (hnotify i) hfail
    | case3 i q hq hsent hlt ih =>
      rw [sendLoop, dif_neg hq, if_neg hsent]
      exact ih
  have hready : ¬ (link.attr = false ∨ link.connected = false) := by
    rw [hattr, hconn]
    decide
  rw [sendMessage, if_neg hready, dif_neg (Nat.ne_of_gt (chunkOf_add_le hmtu).1)]
  exact hloop _ _ _

/-- A connection with the smallest MTU. -/
def smallLink : TxLink := ⟨true, true, 23, fun _ ↦ .result 0⟩

/-- A message of three fragments comes back from the relay. -/
theorem sendMessage_reassembles_small :
    Reassembles relayReceiver (List.replicate 40 7) .reset
      (sendMessage smallLink (List.replicate 40 7)).1 :=
  (sendMessage_reassembles smallLink (List.replicate 40 7) (by decide)
    (sendMessage_ok rfl rfl (by decide) fun _ ↦ rfl)).2.2

end ThinEdge.Provisioner
