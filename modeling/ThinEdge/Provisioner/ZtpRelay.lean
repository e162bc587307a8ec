import ThinEdge.Provisioner.ZtpReassembly

/-!
# Zero-touch provisioning: the relay and the device

A relay writes messages one after another, each write in its order, while the main thread handles
what has arrived. A disconnection ends the message being written; the relay's next one starts
afresh.

While `rx_busy` is set the device drops writes and reports success. A relay that goes on writing
loses the front of its message, and `release_rx` may come between two of its fragments: what is left
then looks like a message (`not_responds_spliceRun`). `responds_throughout` shows that this is the
only way: in every run in which the device takes no write of a message that has lost one, it handles
only responses that are complete messages of the relay.
-/

namespace ThinEdge.Provisioner

open Bytes Net Transition

/-! ### The relay -/

/-- The relay. -/
structure Relay where
  /-- What is left of the message to write. -/
  rest : List GattWrite
  /-- The message's payload. -/
  payload : List UInt8
  /-- The number of bytes after which it is complete; zero when it is, or when there is none. -/
  toGo : ℕ
  /-- A part of it was dropped. -/
  torn : Bool
  /-- The payloads of the messages that were written to the end. -/
  written : List (List UInt8)
  deriving DecidableEq, Repr

/-- Before the first message. -/
def Relay.boot : Relay := ⟨[], [], 0, false, []⟩

/-- A message is begun. -/
def Relay.start (r : Relay) (msg : RelayMessage) : Relay :=
  ⟨msg.writes, msg.payload, msg.size, false, r.written⟩

/-- A write was made; a busy device drops it. -/
def Relay.wrote (r : Relay) (busy : Bool) (w : GattWrite) (rest : List GattWrite) : Relay where
  rest := rest
  payload := r.payload
  toGo := r.toGo - w.bytes.length
  torn := r.torn || busy && decide (0 < r.toGo)
  written := if 0 < r.toGo ∧ r.toGo ≤ w.bytes.length then r.written ++ [r.payload] else r.written

/-- The link is lost, and what was to be written with it. -/
def Relay.abandon (r : Relay) : Relay := ⟨[], [], 0, false, r.written⟩

/-- The steps of the relay and of the device. -/
inductive RelayAction
  /-- The relay begins a message. -/
  | start (msg : RelayMessage)
  /-- The relay makes its next write. -/
  | write
  | disconnect
  /-- A step of the device. -/
  | device (a : ZtpAction)

/-- One step of both. -/
def relayStep (cfg : ZtpConfig) (p : ZtpState × Relay) : RelayAction → Option (ZtpState × Relay)
  | .start msg => if p.2.rest = [] then some (p.1, p.2.start msg) else none
  | .write =>
    match p.2.rest with
    | [] => none
    | w :: rest => (ztpStep cfg p.1 (.write w)).map fun t ↦ (t, p.2.wrote p.1.rxBusy w rest)
  | .disconnect => (ztpStep cfg p.1 .disconnect).map fun t ↦ (t, p.2.abandon)
  | .device a => if a.isDevice then (ztpStep cfg p.1 a).map fun t ↦ (t, p.2) else none

/-! ### The property and its condition -/

/-- A response that is being handled is one of the relay's messages, from its first byte to its
last.
-/
def Responds (p : ZtpState × Relay) : Prop := p.1.pc = .applying → p.1.rx ∈ p.2.written

/-- The device takes no write of a message of which it has dropped one. -/
def Untorn (p : ZtpState × Relay) : RelayAction → Prop
  | .write => p.1.rxBusy = false → 0 < p.2.toGo → p.2.torn = false
  | _ => True

instance : DecidablePred Responds := fun _ ↦ inferInstanceAs (Decidable (_ → _))

instance (p : ZtpState × Relay) : ∀ a : RelayAction, Decidable (Untorn p a)
  | .write => inferInstanceAs (Decidable (_ → _ → _))
  | .start _ | .disconnect | .device _ => isTrue trivial

/-! ### What is left of a message -/

variable {cfg : ZtpConfig} {s t : ZtpState} {a : ZtpAction} {r : Relay} {w : GattWrite}
  {ws : List GattWrite} {p : List UInt8} {k : ℕ}

/-- A delivery is a matter of the receiver alone. -/
theorem Delivers.congr (h : Delivers cfg p k s ws) (hsame : SameRx s t) :
    Delivers cfg p k t ws := by
  induction h generalizing t with
  | ends hpos hk hend hmsg hrx hrest =>
    refine .ends hpos hk (hsame.endsMessage_iff.2 hend) ?_ (fun hresp ↦ hsame.rx.trans (hrx hresp))
      hrest
    rw [← hmsg, ZtpState.endMsg, ZtpState.endMsg, hsame.rx, hsame.rxOverflow]
  | more hk hfree hno _ ih =>
    exact .more hk (hsame.rxBusy.trans hfree) (fun hend ↦ hno (hsame.endsMessage_iff.1 hend))
      (ih (hsame.writeRequest _))

/-- What is written after the `k`-th byte from here is refused by a receiver without a fragment. -/
def RefusedAfter : ℕ → List GattWrite → Prop
  | _, [] => True
  | k, w :: ws => (k = 0 → w.prepare = false ∧ w.offset ≠ 0) ∧ RefusedAfter (k - w.bytes.length) ws

theorem refusedAfter_zero (h : ∀ v ∈ ws, v.prepare = false ∧ v.offset ≠ 0) : RefusedAfter 0 ws := by
  induction ws with
  | nil => trivial
  | cons w ws ih =>
    refine ⟨fun _ ↦ h w List.mem_cons_self, ?_⟩
    rw [Nat.zero_sub]
    exact ih fun v hv ↦ h v (List.mem_cons_of_mem w hv)

theorem Delivers.refusedAfter (h : Delivers cfg p k s ws) : RefusedAfter k ws := by
  induction h with
  | ends hpos hk _ _ _ hrest =>
    refine ⟨fun h0 ↦ absurd h0 (Nat.ne_of_gt hpos), ?_⟩
    rw [Nat.sub_eq_zero_of_le hk]
    exact refusedAfter_zero hrest
  | more hk _ _ _ ih => exact ⟨fun h0 ↦ absurd h0 (Nat.ne_of_gt (Nat.zero_lt_of_lt hk)), ih⟩

/-! ### The invariant -/

/-- What carries the relay's messages through a run. -/
structure RelayInv (cfg : ZtpConfig) (s : ZtpState) (r : Relay) : Prop where
  holds : HoldsOnce s
  /-- A response that waits or is being handled is a message of the relay. -/
  response : RespondsNext s → s.rx ∈ r.written
  releasing : ∀ hd, s.pc = .releasing hd → s.rx = [] ∧ s.rxOverflow = false ∧ s.frag = []
  refused : RefusedAfter r.toGo r.rest
  /-- What is left of a message that nothing was lost of will deliver it. -/
  delivers : 0 < r.toGo → r.torn = false → s.rxBusy = false →
    Delivers cfg r.payload r.toGo s r.rest
  /-- While the device is busy, nothing of such a message has been written. -/
  fresh : 0 < r.toGo → r.torn = false → s.rxBusy = true →
    ∃ msg : RelayMessage, r.rest = msg.writes ∧ r.payload = msg.payload ∧ r.toGo = msg.size
  /-- Between messages, and during one that has lost something, a free receiver holds nothing. -/
  reset : s.rxBusy = false → r.toGo = 0 ∨ r.torn = true → RxReset s

theorem rxReset_boot (cfg : ZtpConfig) (returnOnExpiry : Bool) (store : CredStore) :
    RxReset (.boot cfg returnOnExpiry store) := ⟨rfl, rfl, rfl, rfl⟩

theorem relayInv_boot (cfg : ZtpConfig) (returnOnExpiry : Bool) (store : CredStore) :
    RelayInv cfg (.boot cfg returnOnExpiry store) .boot where
  holds := Nat.zero_le _
  response := fun hnext ↦ hnext.elim nofun nofun
  releasing := nofun
  refused := trivial
  delivers := fun hpos ↦ absurd hpos (Nat.lt_irrefl 0)
  fresh := fun hpos ↦ absurd hpos (Nat.lt_irrefl 0)
  reset := fun _ _ ↦ rxReset_boot cfg returnOnExpiry store

/-- The relay begins a message. -/
theorem RelayInv.start (hcfg : 1024 ≤ cfg.rxBytes) (h : RelayInv cfg s r) (hrest : r.rest = [])
    (msg : RelayMessage) : RelayInv cfg s (r.start msg) where
  holds := h.holds
  response := h.response
  releasing := h.releasing
  refused := (msg.delivers hcfg (rxReset_boot cfg false [])).refusedAfter
  delivers := fun _ _ hfree ↦ by
    refine msg.delivers hcfg (h.reset hfree ?_)
    -- a message that can still be delivered has writes left
    rcases Nat.eq_zero_or_pos r.toGo with h0 | hpos
    · exact Or.inl h0
    · rcases Bool.eq_false_or_eq_true r.torn with htorn | hwhole
      · exact Or.inr htorn
      · exact absurd (hrest ▸ h.delivers hpos hwhole hfree) nofun
  fresh := fun _ _ _ ↦ ⟨msg, rfl, rfl, rfl⟩
  reset := fun _ hor ↦ hor.elim (fun h0 ↦ absurd h0 (Nat.succ_ne_zero _)) nofun

theorem Relay.mem_written_wrote {x : List UInt8} (h : x ∈ r.written) (busy : Bool) (w : GattWrite)
    (ws : List GattWrite) : x ∈ (r.wrote busy w ws).written := by
  rw [wrote]
  dsimp only
  split
  · exact List.mem_append_left _ h
  · exact h

/-- A write that leaves the receiver as it was, because it is dropped or refused. -/
theorem RelayInv.wrote_of_same (h : RelayInv cfg s r) (hrest : r.rest = w :: ws)
    (hsame : s.rxBusy = true ∨ r.toGo = 0) : RelayInv cfg s (r.wrote s.rxBusy w ws) where
  holds := h.holds
  response := fun hnext ↦ Relay.mem_written_wrote (h.response hnext) _ _ _
  releasing := h.releasing
  refused := by
    have hrefused := h.refused
    rw [hrest] at hrefused
    exact hrefused.2
  delivers := fun hpos _ hfree ↦ by
    rcases hsame with hbusy | h0
    · exact absurd (hfree.symm.trans hbusy) Bool.false_ne_true
    · rw [Relay.wrote, h0, Nat.zero_sub] at hpos
      exact absurd hpos (Nat.lt_irrefl 0)
  fresh := fun hpos hwhole hbusy ↦ by
    -- a message that goes on was torn by this write
    have hlt : 0 < r.toGo := Nat.lt_of_lt_of_le hpos (Nat.sub_le _ _)
    rw [Relay.wrote, hbusy, decide_eq_true hlt, Bool.and_self, Bool.or_true] at hwhole
    exact absurd hwhole.symm Bool.false_ne_true
  reset := fun hfree hor ↦ by
    rcases hsame with hbusy | h0
    · exact absurd (hfree.symm.trans hbusy) Bool.false_ne_true
    · exact h.reset hfree (Or.inl h0)

/-- **A write of the relay.** -/
theorem RelayInv.write (h : RelayInv cfg s r) (hrest : r.rest = w :: ws)
    (hok : s.rxBusy = false → 0 < r.toGo → r.torn = false) :
    RelayInv cfg (writeRequest cfg s w).1 (r.wrote s.rxBusy w ws) := by
  rcases Bool.eq_false_or_eq_true s.rxBusy with hbusy | hfree
  · rw [writeRequest_of_busy cfg hbusy]
    exact h.wrote_of_same hrest (Or.inl hbusy)
  rcases Nat.eq_zero_or_pos r.toGo with h0 | hpos
  · have hrefused := h.refused
    rw [hrest] at hrefused
    obtain ⟨hprep, hoff⟩ := hrefused.1 h0
    have hfrag := (h.reset hfree (Or.inl h0)).frag
    rw [(writeRequest_of_refused cfg hfrag hprep hoff).1]
    exact h.wrote_of_same hrest (Or.inr h0)
  have hwhole := hok hfree hpos
  have hholds : HoldsOnce (writeRequest cfg s w).1 := h.holds.step (a := .write w) rfl
  have hnext := h.holds.not_respondsNext hfree
  have hrefused := h.refused
  have hdelivers := h.delivers hpos hwhole hfree
  have htorn : (r.wrote s.rxBusy w ws).torn = false := by
    rw [Relay.wrote, hwhole, hfree]
    rfl
  rw [hrest] at hrefused hdelivers
  cases hdelivers with
  | ends _ hk hend hmsg hrx _ =>
    -- the message is complete: what is posted about it is true
    have hdone := writeRequest_of_endsMessage cfg hend
    have hzero : (r.wrote s.rxBusy w ws).toGo = 0 := Nat.sub_eq_zero_of_le hk
    have hwritten : r.payload ∈ (r.wrote s.rxBusy w ws).written := by
      rw [Relay.wrote]
      dsimp only
      rw [if_pos ⟨hpos, hk⟩]
      exact List.mem_append_right _ (List.mem_singleton_self _)
    rw [hdone] at hholds ⊢
    refine ⟨hholds, fun hnext' ↦ ?_, fun hd hpc ↦ ?_, hrefused.2,
      fun hpos' ↦ absurd hpos' (by rw [hzero]; exact Nat.lt_irrefl 0),
      fun hpos' ↦ absurd hpos' (by rw [hzero]; exact Nat.lt_irrefl 0), nofun⟩
    · have hresp : kindOf cfg r.payload = .response := by
        rcases hnext' with hq | hpc
        · rw [hmsg] at hq
          dsimp only [ZtpState.post] at hq
          rw [msgqPut] at hq
          split at hq
          · rcases List.mem_append.1 hq with hold | hnew
            · exact absurd (Or.inl hold) hnext
            · exact (List.mem_singleton.1 hnew).symm
          · exact absurd (Or.inl hq) hnext
        · exact absurd (Or.inr hpc) hnext
      show s.rx ∈ _
      rw [hrx hresp]
      exact hwritten
    · have hbusy := (h.holds.of_holdsRx (by rw [show s.pc = .releasing hd from hpc]; rfl)).1
      exact absurd (hfree.symm.trans hbusy) Bool.false_ne_true
  | more hk _ hno hdelivers' =>
    rcases writeRequest_cases cfg s w with ⟨hend, -⟩ | ⟨-, hbusy', hq, hpc⟩
    · exact absurd hend hno
    have hpos' : 0 < (r.wrote s.rxBusy w ws).toGo := Nat.sub_pos_of_lt hk
    refine ⟨hholds, fun hnext' ↦ ?_, fun hd hpc' ↦ ?_, hrefused.2, fun _ _ _ ↦ hdelivers',
      fun _ _ hbusy ↦ absurd (hfree.symm.trans (hbusy'.symm.trans hbusy)) Bool.false_ne_true,
      fun _ hor ↦ ?_⟩
    · rw [RespondsNext, hq, hpc] at hnext'
      exact absurd hnext' hnext
    · have hbusy := (h.holds.of_holdsRx (by rw [← hpc, hpc']; rfl)).1
      exact absurd (hfree.symm.trans hbusy) Bool.false_ne_true
    · rcases hor with h0 | ht
      · exact absurd h0 (Nat.ne_of_gt hpos')
      · exact absurd (htorn.symm.trans ht) Bool.false_ne_true

/-- The link is lost. -/
theorem RelayInv.disconnect (h : RelayInv cfg s r) :
    RelayInv cfg (relayDisconnected s) r.abandon := by
  have hst : ztpStep cfg s .disconnect = some (relayDisconnected s) := rfl
  have hholds := h.holds.step hst
  rcases Bool.eq_false_or_eq_true s.rxBusy with hbusy | hfree
  · rw [relayDisconnected, if_pos hbusy] at hholds ⊢
    exact ⟨hholds, h.response, h.releasing, trivial, fun hpos ↦ absurd hpos (Nat.lt_irrefl 0),
      fun hpos ↦ absurd hpos (Nat.lt_irrefl 0),
      fun hfree ↦ absurd (hfree.symm.trans hbusy) Bool.false_ne_true⟩
  · rw [relayDisconnected, if_neg (ne_true_of_eq_false hfree)] at hholds ⊢
    exact ⟨hholds, fun hnext ↦ absurd hnext (h.holds.not_respondsNext hfree),
      fun _ _ ↦ ⟨rfl, rfl, rfl⟩, trivial, fun hpos ↦ absurd hpos (Nat.lt_irrefl 0),
      fun hpos ↦ absurd hpos (Nat.lt_irrefl 0), fun _ _ ↦ ⟨hfree, rfl, rfl, rfl⟩⟩

/-- A step of the device. -/
theorem RelayInv.device (hcfg : 1024 ≤ cfg.rxBytes) (h : RelayInv cfg s r)
    (hst : ztpStep cfg s a = some t) (ha : a.isDevice = true) : RelayInv cfg t r := by
  have hholds := h.holds.step hst
  rcases ztpStep_device hst ha with ⟨hsame, hnext, hrel⟩ | ⟨hd, hpc, rfl⟩ |
    ⟨hd, hpc, hpct, hq, hrx, hover, hfrag, hfree⟩
  · refine ⟨hholds, fun hn ↦ ?_, fun hd hpc ↦ ?_, h.refused, fun hpos hwhole hfree ↦ ?_,
      fun hpos hwhole hbusy ↦ h.fresh hpos hwhole (hsame.rxBusy ▸ hbusy), fun hfree hor ↦ ?_⟩
    · rw [hsame.rx]
      exact h.response (hnext hn)
    · rw [hsame.rx, hsame.rxOverflow, hsame.frag]
      exact h.releasing hd (hrel hd hpc)
    · exact (h.delivers hpos hwhole (hsame.rxBusy ▸ hfree)).congr hsame
    · obtain ⟨hbusy, hrx, hover, hfrag⟩ := h.reset (hsame.rxBusy ▸ hfree) hor
      exact ⟨hfree, hsame.rx.trans hrx, hsame.rxOverflow.trans hover, hsame.frag.trans hfrag⟩
  · -- `release_rx` resets the buffer while it is handed over
    obtain ⟨hbusy, hnone⟩ := h.holds.of_holdsRx (by rw [hpc]; rfl)
    exact ⟨hholds, fun hn ↦ hn.elim (fun hq ↦ absurd hq hnone) nofun, fun _ _ ↦ ⟨rfl, rfl, rfl⟩,
      h.refused, fun _ _ hfree ↦ absurd (hfree.symm.trans hbusy) Bool.false_ne_true,
      fun hpos hwhole _ ↦ h.fresh hpos hwhole hbusy,
      fun hfree ↦ absurd (hfree.symm.trans hbusy) Bool.false_ne_true⟩
  · -- `release_rx` frees a receiver that holds nothing
    obtain ⟨hbusy, hnone⟩ := h.holds.of_holdsRx (by rw [hpc]; rfl)
    obtain ⟨hrx0, hover0, hfrag0⟩ := h.releasing hd hpc
    have hreset : RxReset t := ⟨hfree, hrx.trans hrx0, hover.trans hover0, hfrag.trans hfrag0⟩
    refine ⟨hholds, fun hn ↦ ?_, fun hd' hpc' ↦ absurd (hpct.symm.trans hpc') nofun, h.refused,
      fun hpos hwhole _ ↦ ?_, fun _ _ hb ↦ absurd (hfree.symm.trans hb) Bool.false_ne_true,
      fun _ _ ↦ hreset⟩
    · rcases hn with hmem | hap
      · exact absurd (hq ▸ hmem) hnone
      · exact absurd (hpct.symm.trans hap) nofun
    · obtain ⟨msg, hrest, hpayload, hsize⟩ := h.fresh hpos hwhole hbusy
      rw [hrest, hpayload, hsize]
      exact msg.delivers hcfg hreset

/-! ### The main result -/

/-- **The step lemma.** -/
theorem RelayInv.step (hcfg : 1024 ≤ cfg.rxBytes) {x y : ZtpState × Relay} {b : RelayAction}
    (h : RelayInv cfg x.1 x.2) (hok : Untorn x b) (hst : relayStep cfg x b = some y) :
    RelayInv cfg y.1 y.2 := by
  cases b with
  | start msg =>
    simp only [relayStep, Option.ite_none_right_eq_some, Option.some.injEq] at hst
    obtain ⟨hrest, rfl⟩ := hst
    exact h.start hcfg hrest msg
  | write =>
    simp only [relayStep] at hst
    split at hst
    · exact nomatch hst
    · next w ws hrest =>
      obtain rfl := Option.some.inj hst
      exact h.write hrest hok
  | disconnect =>
    obtain rfl := Option.some.inj hst
    exact h.disconnect
  | device a =>
    simp only [relayStep, Option.ite_none_right_eq_some, Option.map_eq_some_iff] at hst
    obtain ⟨ha, t, ht, rfl⟩ := hst
    exact h.device hcfg ht ha

/-- **No response is truncated or spliced** in a run in which the device takes no write of a message
of which it has dropped one. -/
theorem responds_throughout (cfg : ZtpConfig) (hcfg : 1024 ≤ cfg.rxBytes) (returnOnExpiry : Bool)
    (store : CredStore) (as : List RelayAction)
    (hall : AllSteps (relayStep cfg) Untorn (.boot cfg returnOnExpiry store, .boot) as) :
    Throughout (relayStep cfg) Responds (.boot cfg returnOnExpiry store, .boot) as := by
  have hinv : Throughout (relayStep cfg) (fun x ↦ RelayInv cfg x.1 x.2)
      (.boot cfg returnOnExpiry store, .boot) as :=
    throughout_of_invariant (fun _ _ _ hx hok hst ↦ hx.step hcfg hok hst)
      (relayInv_boot cfg returnOnExpiry store) hall
  exact hinv.imp fun _ hx hpc ↦ hx.response (Or.inr hpc)

/-- A message without a fragment. -/
def emptyMessage : RelayMessage := { letterA with fragments := [], payload_ne := nofun }

/-- A fragment with one letter. -/
def fragmentB : ZtpFragment where
  payload := ascii "B"
  writes := [⟨[0, 1, 'B'.toUInt8], 0, false, false⟩]
  consecutive := by decide
  isPrefix := by decide
  length_le := by decide

/-- The message `AB`, a letter a fragment. -/
def lettersAB : RelayMessage where
  fragments := letterA.fragments ++ [fragmentB]
  terminator := letterA.terminator
  payload_ne := by decide
  payload_terminator := rfl

/-- The relay waits for the answer to its kick. -/
def patientRun : List RelayAction :=
  [.start emptyMessage, .write, .device .get, .device .reset, .device .clear, .start lettersAB,
    .write, .device (.finish 0), .write, .write, .device .get, .device (.applied 0)]

theorem responds_patientRun :
    Throughout (relayStep ztpDefaults) Responds (.boot ztpDefaults false [], .boot) patientRun :=
  responds_throughout ztpDefaults (by decide) false [] patientRun (by decide)

/-- The relay does not wait, and its message loses the first letter before the kick is answered. -/
def spliceRun : List RelayAction :=
  [.start emptyMessage, .write, .start lettersAB, .write, .device .get, .device .reset,
    .device .clear, .device (.finish 0), .write, .write, .device .get]

/-- The second letter is then handled as the response. -/
theorem not_responds_spliceRun :
    ¬ ∀ (cfg : ZtpConfig) (returnOnExpiry : Bool) (store : CredStore) (as : List RelayAction),
      1024 ≤ cfg.rxBytes →
      Throughout (relayStep cfg) Responds (.boot cfg returnOnExpiry store, .boot) as := by
  intro h
  exact absurd (h ztpDefaults false [] spliceRun (by decide)) (by decide)

end ThinEdge.Provisioner
