import ThinEdge.Provisioner.ZtpReceive

/-!
# Zero-touch provisioning: who holds the receive buffer

The receive buffer belongs to the Bluetooth context while `rx_busy` is clear, and to one message
otherwise. Without any assumption, at most one message holds it (`HoldsOnce`): so what waits in the
buffer stays there until it has been handled. `ztpStep_device` says what the steps of the device do
to the receiver.
-/

namespace ThinEdge.Provisioner

variable {cfg : ZtpConfig} {s t : ZtpState} {a : ZtpAction} {w : GattWrite}

/-! ### The receiver alone -/

/-- Two states with the same receiver. -/
structure SameRx (s t : ZtpState) : Prop where
  rx : t.rx = s.rx
  rxOverflow : t.rxOverflow = s.rxOverflow
  rxBusy : t.rxBusy = s.rxBusy
  frag : t.frag = s.frag

theorem SameRx.fragStart_eq (h : SameRx s t) (w : GattWrite) : t.fragStart w = s.fragStart w := by
  rw [ZtpState.fragStart, ZtpState.fragStart, h.frag]

theorem SameRx.appended (h : SameRx s t) (w : GattWrite) :
    SameRx (s.appended w) (t.appended w) :=
  ⟨h.rx, h.rxOverflow, h.rxBusy, congrArg (· ++ w.bytes) (h.fragStart_eq w)⟩

theorem SameRx.fragLength_eq (h : SameRx s t) : t.fragLength = s.fragLength := by
  rw [ZtpState.fragLength, ZtpState.fragLength, h.frag]

theorem SameRx.fragComplete_iff (h : SameRx s t) : t.fragComplete ↔ s.fragComplete := by
  rw [ZtpState.fragComplete, ZtpState.fragComplete, h.fragLength_eq, h.frag]

theorem SameRx.endsMessage_iff (h : SameRx s t) : EndsMessage t w ↔ EndsMessage s w := by
  have happ := h.appended w
  rw [EndsMessage, EndsMessage, h.rxBusy, h.frag, h.fragStart_eq, happ.fragComplete_iff,
    happ.fragLength_eq]

theorem SameRx.rxFragment (h : SameRx s t) (cfg : ZtpConfig) :
    SameRx (Provisioner.rxFragment cfg s) (Provisioner.rxFragment cfg t) := by
  rw [Provisioner.rxFragment, Provisioner.rxFragment, h.fragLength_eq, h.rx, h.frag]
  split
  · exact ⟨rfl, h.rxOverflow, rfl, rfl⟩
  split
  · exact ⟨rfl, rfl, h.rxBusy, rfl⟩
  · exact ⟨rfl, h.rxOverflow, h.rxBusy, rfl⟩

/-- What a write does to the receiver depends on nothing else. -/
theorem SameRx.writeRequest (h : SameRx s t) (w : GattWrite) :
    SameRx (Provisioner.writeRequest cfg s w).1 (Provisioner.writeRequest cfg t w).1 := by
  have happ := h.appended w
  have hfragment := happ.rxFragment cfg
  rw [Provisioner.writeRequest, Provisioner.writeRequest, h.rxBusy, h.frag, h.fragStart_eq]
  split
  · exact h
  split
  · exact h
  split
  · exact h
  split
  · exact ⟨h.rx, h.rxOverflow, rfl, rfl⟩
  dsimp only
  rcases Decidable.em (s.appended w).fragComplete with hcomp | hcomp
  · rw [if_pos hcomp, if_pos (happ.fragComplete_iff.2 hcomp)]
    exact ⟨hfragment.rx, hfragment.rxOverflow, hfragment.rxBusy, rfl⟩
  · rw [if_neg hcomp, if_neg (mt happ.fragComplete_iff.1 hcomp)]
    exact happ

/-! ### A write -/

theorem writeRequest_of_busy (cfg : ZtpConfig) (h : s.rxBusy = true) (w : GattWrite) :
    (writeRequest cfg s w).1 = s := by
  rw [writeRequest, if_pos h]
  split <;> rfl

/-- A write that is not refused. -/
theorem writeRequest_of_taken (hprep : w.prepare = false) (hbusy : s.rxBusy = false)
    (hoff : w.offset = 0 ∨ w.offset = s.frag.length)
    (hfits : (s.fragStart w).length + w.bytes.length ≤ fragSize) : (writeRequest cfg s w).1 =
    if (s.appended w).fragComplete then { rxFragment cfg (s.appended w) with frag := [] }
    else s.appended w := by
  have hnot : ¬ (w.offset ≠ 0 ∧ w.offset ≠ s.frag.length) := fun hno ↦ hoff.elim hno.1 hno.2
  rw [writeRequest, if_neg (ne_true_of_eq_false hprep), if_neg (ne_true_of_eq_false hbusy),
    if_neg hnot, if_neg (Nat.not_lt.2 hfits)]

/-- The end of a message. -/
theorem writeRequest_of_endsMessage (cfg : ZtpConfig) (h : EndsMessage s w) :
    (writeRequest cfg s w).1 =
    { ({ s with rxBusy := true }).post s.endMsg with frag := [] } := by
  obtain ⟨hprep, hbusy, hoff, hfits, hcomp, hzero⟩ := h
  rw [writeRequest_of_taken hprep hbusy hoff hfits, if_pos hcomp, rxFragment, if_pos hzero]
  rfl

/-- What a write leaves as it is. -/
structure SameMain (s t : ZtpState) : Prop where
  pc : t.pc = s.pc
  idle : t.idle = s.idle
  returnOnExpiry : t.returnOnExpiry = s.returnOnExpiry
  store : t.store = s.store

theorem writeRequest_main (cfg : ZtpConfig) (s : ZtpState) (w : GattWrite) :
    SameMain s (writeRequest cfg s w).1 := by
  have hsame : SameMain s s := ⟨rfl, rfl, rfl, rfl⟩
  rw [writeRequest]
  split
  · exact hsame
  split
  · exact hsame
  split
  · exact hsame
  split
  · exact ⟨rfl, rfl, rfl, rfl⟩
  dsimp only
  split
  · rw [rxFragment]
    split
    · exact ⟨rfl, rfl, rfl, rfl⟩
    split <;> exact ⟨rfl, rfl, rfl, rfl⟩
  · exact ⟨rfl, rfl, rfl, rfl⟩

/-! ### At most one message -/

/-- The response that waits or is being handled. -/
def RespondsNext (s : ZtpState) : Prop := .response ∈ s.ztpQ ∨ s.pc = .applying

/-- At most one message holds the buffer, and none while it is free. -/
def HoldsOnce (s : ZtpState) : Prop := rxHolders s ≤ if s.rxBusy then 1 else 0

theorem RespondsNext.holders_pos (h : RespondsNext s) : 0 < rxHolders s := by
  rw [rxHolders]
  rcases h with hq | hpc
  · exact Nat.lt_add_right _ (List.countP_pos_iff.2 ⟨.response, hq, rfl⟩)
  · rw [hpc]
    exact Nat.lt_add_left _ Nat.one_pos

/-- A free buffer is not about to be applied. -/
theorem HoldsOnce.not_respondsNext (h : HoldsOnce s) (hfree : s.rxBusy = false) :
    ¬ RespondsNext s := fun hnext ↦ by
  have hpos := hnext.holders_pos
  rw [HoldsOnce, hfree, if_neg Bool.false_ne_true] at h
  omega

/-- While the main thread resets the buffer and clears `rx_busy`, the buffer is handed over, and no
response waits. -/
theorem HoldsOnce.of_holdsRx (h : HoldsOnce s) (hpc : s.pc.holdsRx = true) :
    s.rxBusy = true ∧ .response ∉ s.ztpQ := by
  rw [HoldsOnce, rxHolders, hpc, if_pos rfl] at h
  rcases Bool.eq_false_or_eq_true s.rxBusy with hbusy | hfree
  · refine ⟨hbusy, fun hq ↦ ?_⟩
    have hpos : 0 < s.ztpQ.countP ZtpMsg.isRx := List.countP_pos_iff.2 ⟨.response, hq, rfl⟩
    rw [if_pos hbusy] at h
    omega
  · rw [hfree, if_neg Bool.false_ne_true] at h
    omega

theorem HoldsOnce.step (h : HoldsOnce s) (hst : ztpStep cfg s a = some t) : HoldsOnce t := by
  rw [HoldsOnce] at h ⊢
  obtain ⟨-, ⟨hbusy, hheld⟩ | ⟨w, -, -, hover⟩ | ⟨hfree, hheld⟩⟩ := ztpStep_hold hst
  · rwa [hheld, hbusy]
  · obtain ⟨hfree, hbusy, ⟨m, -, hq⟩, hpc⟩ := hover
    have hnone : rxHolders s = 0 := by
      rw [hfree, if_neg Bool.false_ne_true] at h
      exact Nat.le_zero.1 h
    have hone : ∀ q : List ZtpMsg, q = s.ztpQ ∨ q = s.ztpQ ++ [m] →
        q.countP ZtpMsg.isRx ≤ s.ztpQ.countP ZtpMsg.isRx + 1 := by
      rintro q (rfl | rfl)
      · exact Nat.le_succ _
      · rw [List.countP_append, List.countP_singleton]
        split <;> omega
    have hcount := hone t.ztpQ (by
      rw [hq, msgqPut]
      split
      · exact Or.inr rfl
      · exact Or.inl rfl)
    rw [rxHolders] at hnone
    rw [rxHolders, hbusy, hpc, if_pos rfl]
    omega
  · rw [hfree, if_neg Bool.false_ne_true]
    have hle : rxHolders s ≤ 1 := Nat.le_trans h (by split <;> decide)
    omega

/-! ### The device -/

/-- A step of the device that is neither a write nor a disconnection. -/
def ZtpAction.isDevice : ZtpAction → Bool
  | .write _ | .disconnect => false
  | _ => true

/-- **What a step of the device does to the receiver**: nothing, or `release_rx` resets it, or
`release_rx` frees it. -/
theorem ztpStep_device (h : ztpStep cfg s a = some t) (ha : a.isDevice = true) :
    (SameRx s t ∧ (RespondsNext t → RespondsNext s) ∧
        ∀ hd, t.pc = .releasing hd → s.pc = .releasing hd) ∨
      (∃ hd, s.pc = .handling hd ∧ t = { s.rxReset with pc := .releasing hd }) ∨
        ∃ hd, s.pc = .releasing hd ∧ t.pc = .answering hd ∧ t.ztpQ = s.ztpQ ∧ t.rx = s.rx ∧
          t.rxOverflow = s.rxOverflow ∧ t.frag = s.frag ∧ t.rxBusy = false := by
  cases a with
  | write w => exact absurd ha Bool.false_ne_true
  | disconnect => exact absurd ha Bool.false_ne_true
  | button =>
    obtain rfl := Option.some.inj h
    refine Or.inl ⟨⟨rfl, rfl, rfl, rfl⟩, Or.imp_left fun hq ↦ ?_, fun _ hpc ↦ hpc⟩
    -- the press that is queued is no response
    rw [ZtpState.post, msgqPut] at hq
    dsimp only at hq
    split at hq
    · exact (List.mem_append.1 hq).resolve_right (by decide)
    · exact hq
  | tick ms =>
    obtain rfl := Option.some.inj h
    exact Or.inl ⟨⟨rfl, rfl, rfl, rfl⟩, id, fun _ hpc ↦ hpc⟩
  | get =>
    obtain ⟨hpc, m, rest, hq, rfl⟩ := ztpStep_get h
    have hrest : .response ∈ rest → RespondsNext s := fun hmem ↦
      Or.inl (hq ▸ List.mem_cons_of_mem m hmem)
    refine Or.inl ?_
    cases m <;> rw [ZtpState.dispatch] <;> dsimp only
    case response =>
      exact ⟨⟨rfl, rfl, rfl, rfl⟩, fun _ ↦ Or.inl (hq ▸ List.mem_cons_self), by simp⟩
    case button =>
      split
      all_goals
        refine ⟨⟨rfl, rfl, rfl, rfl⟩, fun hnext ↦ hnext.elim hrest fun hp ↦ ?_, fun hd hp ↦ ?_⟩
        · exact absurd (hpc.symm.trans hp) (by decide)
        · exact absurd (hpc.symm.trans hp) (by simp)
    all_goals exact ⟨⟨rfl, rfl, rfl, rfl⟩, fun hnext ↦ hnext.elim hrest (by simp), by simp⟩
  | timeout =>
    obtain ⟨-, rfl⟩ := ztpStep_timeout h
    exact Or.inl ⟨⟨rfl, rfl, rfl, rfl⟩, fun hnext ↦ hnext.elim Or.inl (by simp), by simp⟩
  | checkWindow =>
    obtain ⟨-, ⟨-, rfl⟩ | ⟨-, rfl⟩⟩ := ztpStep_checkWindow h <;>
      exact Or.inl ⟨⟨rfl, rfl, rfl, rfl⟩, fun hnext ↦ hnext.elim Or.inl (by simp), by simp⟩
  | applied rc =>
    obtain ⟨hpc, rfl⟩ := ztpStep_applied h
    exact Or.inl ⟨⟨rfl, rfl, rfl, rfl⟩, fun _ ↦ Or.inr hpc, by simp⟩
  | reset => exact Or.inr (Or.inl (ztpStep_reset h))
  | clear =>
    obtain ⟨hd, hpc, rfl⟩ := ztpStep_clear h
    exact Or.inr (Or.inr ⟨hd, hpc, rfl, rfl, rfl, rfl, rfl, rfl⟩)
  | finish rc =>
    obtain ⟨hd, -, rfl⟩ := ztpStep_finish h
    unfold ZtpState.finish
    refine Or.inl ?_
    cases hd <;> dsimp only
    case overflow => exact ⟨⟨rfl, rfl, rfl, rfl⟩, fun hnext ↦ hnext.elim Or.inl (by simp), by simp⟩
    all_goals
      split <;> exact ⟨⟨rfl, rfl, rfl, rfl⟩, fun hnext ↦ hnext.elim Or.inl (by simp), by simp⟩

end ThinEdge.Provisioner
