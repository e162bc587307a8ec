import ThinEdge.Provisioner.ZtpNotices

/-!
# Zero-touch provisioning: the relay's verdict

`enroll_truthful`: when a relay that has found the device at rest exits with 0, the device has
applied the very answer that the relay wrote last, and is about to leave the provisioner; and when
`cmd_enroll` returns 1 over an answer in which the server accepted the device, the device has
refused that answer. An exception ends the process with 1 as well, and says nothing.

The order of the notifications carries this. After the envelope's end the only `relaying` to come is
that of the answer; and while the relay waits for the envelope's end there is no other message for
the device, so nothing else is said behind it. A kick that another relay left behind breaks this
(`not_truthful_leftoverKick`). Once the connection is lost, the relay goes by what has arrived,
which is the beginning of what the device has said.
-/

namespace ThinEdge.Provisioner

open Bytes Net Transition

variable {l : List Note} {started : Bool} {cfg : ZtpConfig} {s t : ZtpState} {a : ZtpAction}
  {R : Radio} {r : Relay} {w : GattWrite} {ws : List GattWrite}

/-! ### What holds where the script stands -/

variable {x : Enrollment}

/-- The statuses that the relay has not taken yet. -/
def Enrollment.said (x : Enrollment) : List ZtpStatus := x.status ++ statuses x.down

/-- At the head of the loop the device has no kick, and no end of a message is on its way. -/
structure Loops (cfg : ZtpConfig) (x : Enrollment) : Prop where
  quiet : QuietAfterEnd x.down
  up : x.device.pc ≠ .leaving → RelayInv cfg x.device x.relay ∧ x.down.countP Note.isEnd = 0 ∧
    KickFree x.device ∧ x.relay.rest = []

/-- The kick is all that the relay has to write, or nothing is. -/
def KickLeft (s : ZtpState) (r : Relay) : Prop :=
  r.rest = [] ∨ r.rest = emptyMessage.writes ∧ r.torn = false ∧ r.payload = [] ∧ KickFree s

/-- The end of a message is on its way at most once, and then the device has done everything. -/
def EndsOnce (x : Enrollment) : Prop :=
  x.reader.done = false ∧ x.down.countP Note.isEnd = 0 ∨
    Rested x.device ∧ x.relay.rest = [] ∧
      x.down.countP Note.isEnd + (if x.reader.done then 1 else 0) ≤ 1

/-- While the relay waits for the envelope. -/
structure Awaits (cfg : ZtpConfig) (x : Enrollment) : Prop where
  quiet : QuietAfterEnd x.down
  heard : x.reader.done = true → .relaying ∉ statuses x.down
  up : x.device.pc ≠ .leaving → RelayInv cfg x.device x.relay ∧ KickLeft x.device x.relay ∧
    (x.device.pc = .answering .kick → NoMessage x.device) ∧ EndsOnce x

/-- With the envelope, nothing is left to do for the device, and no `relaying` is on its way. -/
structure HasEnvelope (cfg : ZtpConfig) (x : Enrollment) : Prop where
  unsaid : .relaying ∉ statuses x.down
  up : x.device.pc ≠ .leaving → RelayInv cfg x.device x.relay ∧ x.down.countP Note.isEnd = 0 ∧
    Rested x.device ∧ x.relay.rest = []

/-- The main thread handles a response. -/
def ZtpPc.onResponse : ZtpPc → Bool
  | .applying => true
  | .handling (.response _) | .releasing (.response _) | .answering (.response _) => true
  | _ => false

/-- The answer has not reached the main thread. -/
structure Unheard (x : Enrollment) : Prop where
  kickFree : KickFree x.device
  pc : x.device.pc.onResponse = false
  body : 0 < x.relay.toGo → Rested x.device ∧ x.relay.payload = x.answer.bytes ∧
    (x.device.rxBusy = false → x.relay.torn = false)
  rx : .response ∈ x.device.ztpQ → x.device.rx = x.answer.bytes

/-- The main thread handles the answer. -/
def Responding (x : Enrollment) : Prop :=
  match x.device.pc with
  | .applying => x.device.rx = x.answer.bytes
  | .handling (.response rc) | .releasing (.response rc) | .answering (.response rc) =>
    (x.answer.bytes, rc) ∈ x.handled
  | _ => False

/-- What has become of the answer, and what the relay can take for the verdict on it. -/
inductive Judged (x : Enrollment) (started : Bool) : Prop
  | unheard (hno : started = false) (hsaid : .relaying ∉ x.said)
      (hup : x.device.pc ≠ .leaving → Unheard x)
  | responding (hresp : Responding x) (hnone : NoMessage x.device) (hzero : x.relay.toGo = 0)
      (hsaid : verdicts started x.said = [])
  | decided (rc : ℤ) (hhandled : (x.answer.bytes, rc) ∈ x.handled)
      (hsaid : ∀ v ∈ verdicts started x.said, v = if rc = 0 then .done else .error)
      (hleft : rc = 0 → x.device.pc = .leaving)
      (hup : x.device.pc ≠ .leaving → Rested x.device ∧ x.relay.toGo = 0)

/-- From the first write of the answer on. -/
structure Watches (cfg : ZtpConfig) (x : Enrollment) (started : Bool) : Prop where
  quiet : QuietAfterEnd x.down
  up : x.device.pc ≠ .leaving → RelayInv cfg x.device x.relay ∧ x.down.countP Note.isEnd = 0
  judged : Judged x started

theorem handles_of_ne (h : ∀ rc, a ≠ .applied rc) : x.handles a = [] := by
  cases a with
  | applied rc => exact absurd rfl (h rc)
  | _ => rfl

/-! ### The device takes a step -/

section Moved

variable (hcfg : 1024 ≤ cfg.rxBytes) (hst : ztpStep cfg x.device a = some t)
  (ha : a.isDevice = true)

include hst ha

/-- Nothing changes about a device that is about to reboot. -/
theorem moved_of_leaving (hpc : x.device.pc = .leaving) :
    (x.moved R a t).device.pc = .leaving ∧ (x.moved R a t).down = x.down ∧
      (x.moved R a t).handled = x.handled := by
  obtain ⟨hpct, hnotes, happlied⟩ := (ztpStep_moves hst ha).leaving hpc R
  refine ⟨hpct, ?_, ?_⟩
  · rw [Enrollment.moved, hnotes]
    exact List.append_nil _
  · rw [Enrollment.moved, handles_of_ne happlied]
    exact List.append_nil _

include hcfg

theorem Loops.moved (h : Loops cfg x) : Loops cfg (x.moved R a t) := by
  have hmoves := ztpStep_moves hst ha
  by_cases hleft : x.device.pc = .leaving
  · obtain ⟨hpct, hdown, -⟩ := moved_of_leaving (R := R) hst ha hleft
    exact ⟨hdown ▸ h.quiet, fun hstay ↦ absurd hpct hstay⟩
  · obtain ⟨hrelay, hends, hkick, hrest⟩ := h.up hleft
    refine ⟨quietAfterEnd_append hends hmoves.quietAfterEnd, fun hstay ↦
      ⟨hrelay.device hcfg hst ha, ?_, hkick.moves hmoves, hrest⟩⟩
    rcases hmoves.ends hstay R with hnone | ⟨hpc, -⟩
    · rw [Enrollment.moved, List.countP_append, hends, hnone]
    · exact absurd hkick.2 (by rw [hpc]; decide)

theorem Awaits.moved (h : Awaits cfg x) : Awaits cfg (x.moved R a t) := by
  have hmoves := ztpStep_moves hst ha
  by_cases hleft : x.device.pc = .leaving
  · obtain ⟨hpct, hdown, -⟩ := moved_of_leaving (R := R) hst ha hleft
    exact ⟨hdown ▸ h.quiet, hdown ▸ h.heard, fun hstay ↦ absurd hpct hstay⟩
  -- the end of the envelope is still to come, or it is on its way and the device is at rest
  obtain ⟨hrelay, hleftover, halone, ⟨hdone, hends⟩ | ⟨hrested, hrest, hends⟩⟩ := h.up hleft
  · refine ⟨quietAfterEnd_append hends hmoves.quietAfterEnd,
      fun hd ↦ absurd (hdone.symm.trans hd) Bool.false_ne_true, fun hstay ↦
      ⟨hrelay.device hcfg hst ha, hleftover.imp_right fun ⟨hw, htorn, hpay, hkick⟩ ↦
        ⟨hw, htorn, hpay, hkick.moves hmoves⟩, fun hpct ↦ ?_, ?_⟩⟩
    · -- the kick's handling begins with nothing else in the queue
      have hpct' : t.pc = .answering .kick := hpct
      refine NoMessage.of_subset ?_ hmoves.subset
      cases hmoves with
      | aside hpc hq hrx hnotes happlied =>
        refine halone ?_
        rcases hpc with hpc | ⟨-, hpc | hpc⟩
        · exact hpc.symm.trans hpct'
        · rw [hpct'] at hpc
          exact absurd hpc Bool.false_ne_true
        · exact absurd (hpct'.symm.trans hpc) nofun
      | takes hm hpc hq ht =>
        have hholds := @holdsRx_dispatch cfg { x.device with ztpQ := t.ztpQ } _ hm
        rw [← ht, hpct'] at hholds
        exact absurd hholds Bool.false_ne_true
      | applies hpc ht | resets hpc ht =>
        rw [ht] at hpct'
        exact absurd hpct' nofun
      | clears hpc ht => exact hrelay.holds.noMessage (by rw [hpc]; rfl)
      | finishes hpc ht =>
        rw [ht, finish_pc] at hpct'
        split at hpct' <;> exact absurd hpct' nofun
    · rcases hmoves.ends hstay R with hnone | ⟨hpc, hwait, hone⟩
      · refine Or.inl ⟨hdone, ?_⟩
        rw [Enrollment.moved, List.countP_append, hends, hnone]
      · have hrest : x.relay.rest = [] := hleftover.elim id fun ⟨_, _, _, hkick⟩ ↦
          absurd hkick.2 (by rw [hpc]; decide)
        refine Or.inr ⟨⟨(halone hpc).of_subset hmoves.subset, ?_⟩, hrest, ?_⟩
        · rw [Enrollment.moved, hwait]
          rfl
        · rw [Enrollment.moved, List.countP_append, hends, hdone, if_neg Bool.false_ne_true]
          omega
  · obtain ⟨hnotes, -, -, hrested'⟩ := hrested.moves (R := R) hmoves
    have hdown : (x.moved R a t).down = x.down := by
      rw [Enrollment.moved, hnotes]
      exact List.append_nil _
    refine ⟨hdown ▸ h.quiet, hdown ▸ h.heard, fun hstay ↦ ?_⟩
    have hr := hrested' hstay
    refine ⟨hrelay.device hcfg hst ha, Or.inl hrest, fun _ ↦ hr.1, Or.inr ⟨hr, hrest, ?_⟩⟩
    rw [hdown]
    exact hends

theorem HasEnvelope.moved (h : HasEnvelope cfg x) : HasEnvelope cfg (x.moved R a t) := by
  have hmoves := ztpStep_moves hst ha
  by_cases hleft : x.device.pc = .leaving
  · obtain ⟨hpct, hdown, -⟩ := moved_of_leaving (R := R) hst ha hleft
    exact ⟨hdown ▸ h.unsaid, fun hstay ↦ absurd hpct hstay⟩
  · obtain ⟨hrelay, hends, hrested, hrest⟩ := h.up hleft
    obtain ⟨hnotes, -, -, hrested'⟩ := hrested.moves (R := R) hmoves
    have hdown : (x.moved R a t).down = x.down := by
      rw [Enrollment.moved, hnotes]
      exact List.append_nil _
    exact ⟨hdown ▸ h.unsaid, fun hstay ↦
      ⟨hrelay.device hcfg hst ha, hdown ▸ hends, hrested' hstay, hrest⟩⟩

end Moved

/-! ### The relay's next write, and the next notification -/

section Wrote

variable (hrest : x.relay.rest = w :: ws)

theorem wrote_pc (x : Enrollment) (w : GattWrite) (ws : List GattWrite) :
    (x.wrote cfg w ws).device.pc = x.device.pc := (writeRequest_main cfg x.device w).pc

include hrest

theorem Loops.wrote (h : Loops cfg x) : Loops cfg (x.wrote cfg w ws) := by
  refine ⟨h.quiet, fun hstay ↦ ?_⟩
  rw [wrote_pc] at hstay
  exact absurd (hrest.symm.trans (h.up hstay).2.2.2) (List.cons_ne_nil _ _)

theorem HasEnvelope.wrote (h : HasEnvelope cfg x) : HasEnvelope cfg (x.wrote cfg w ws) := by
  refine ⟨h.unsaid, fun hstay ↦ ?_⟩
  rw [wrote_pc] at hstay
  exact absurd (hrest.symm.trans (h.up hstay).2.2.2) (List.cons_ne_nil _ _)

theorem Awaits.wrote (h : Awaits cfg x) : Awaits cfg (x.wrote cfg w ws) := by
  refine ⟨h.quiet, h.heard, fun hstay ↦ ?_⟩
  rw [wrote_pc] at hstay
  obtain ⟨hrelay, hnil | ⟨hw, htorn, hpay, hkick⟩, -, hends⟩ := h.up hstay
  · exact absurd (hrest.symm.trans hnil) (List.cons_ne_nil _ _)
  have hone : emptyMessage.writes = [⟨[0, 0], 0, false, false⟩] := rfl
  have hws : ws = [] := by
    rw [hone, hrest] at hw
    exact (List.cons.inj hw).2
  refine ⟨hrelay.write hrest fun _ _ ↦ htorn, Or.inl hws, fun hpc ↦ ?_, ?_⟩
  · rw [wrote_pc] at hpc
    exact absurd hkick.2 (by rw [hpc]; decide)
  · rcases hends with hends | ⟨-, hnil, -⟩
    · exact Or.inl hends
    · exact absurd (hrest.symm.trans hnil) (List.cons_ne_nil _ _)

end Wrote

/-! ### The answer on its way through the device -/

theorem said_moved (x : Enrollment) (R : Radio) (a : ZtpAction) (t : ZtpState) :
    (x.moved R a t).said = x.said ++ statuses (deviceNotes R x.device t a) := by
  rw [Enrollment.said, Enrollment.said, Enrollment.moved, statuses_append, List.append_assoc]

theorem said_moved_of_nil (h : deviceNotes R x.device t a = []) :
    (x.moved R a t).said = x.said := by
  rw [said_moved, h]
  exact List.append_nil _

theorem handled_moved_of_ne (h : ∀ rc, a ≠ .applied rc) : (x.moved R a t).handled = x.handled := by
  rw [Enrollment.moved, handles_of_ne h]
  exact List.append_nil _

theorem not_waits_of_onResponse {pc : ZtpPc} (h : pc.onResponse = true) : pc.waits = false := by
  cases pc <;> first | rfl | exact absurd h Bool.false_ne_true

theorem onKick_of_onResponse {pc : ZtpPc} (h : pc.onResponse = true) : pc.onKick = false := by
  cases pc with
  | handling hd | releasing hd | answering hd =>
    cases hd <;> first | rfl | exact absurd h Bool.false_ne_true
  | _ => rfl

theorem Responding.onResponse (h : Responding x) : x.device.pc.onResponse = true := by
  rw [Responding] at h
  split at h
  · next hpc => rw [hpc]; rfl
  · next hpc => rw [hpc]; rfl
  · next hpc => rw [hpc]; rfl
  · next hpc => rw [hpc]; rfl
  · exact h.elim

/-- Which responses are handled when the main thread is past applying one. -/
theorem Responding.mem_handled {h : Handled} (hresp : Responding x)
    (hpc : x.device.pc = .handling h ∨ x.device.pc = .releasing h ∨ x.device.pc = .answering h) :
    ∃ rc, h = .response rc ∧ (x.answer.bytes, rc) ∈ x.handled := by
  rw [Responding] at hresp
  rcases hpc with hpc | hpc | hpc <;> rw [hpc] at hresp <;> cases h with
  | response rc => exact ⟨rc, rfl, hresp⟩
  | _ => exact hresp.elim

theorem onResponse_of_waits {pc : ZtpPc} (h : pc.waits = true ∨ pc = .leaving) :
    pc.onResponse = false := by
  rcases h with h | rfl
  · cases pc <;> first | rfl | exact absurd h Bool.false_ne_true
  · rfl

section Unheard

variable (h : Unheard x)

include h

/-- While a message waits or is handled, the relay has written all of the body. -/
theorem Unheard.toGo_of_message {m : ZtpMsg} (hm : m.isRx = true) (hmem : m ∈ x.device.ztpQ) :
    x.relay.toGo = 0 :=
  Nat.eq_zero_of_not_pos fun hpos ↦ not_isRx_of (h.body hpos).1.1 hm hmem

theorem Unheard.toGo_of_pc (hpc : x.device.pc.waits = false) : x.relay.toGo = 0 :=
  Nat.eq_zero_of_not_pos fun hpos ↦ Bool.false_ne_true (hpc.symm.trans (h.body hpos).1.2)

/-- Only an overflow can be handled. -/
theorem Unheard.overflow {hd : Handled}
    (hpc : x.device.pc = .handling hd ∨ x.device.pc = .releasing hd ∨ x.device.pc = .answering hd) :
    hd = .overflow := by
  have hkick := h.kickFree.2
  have hresp := h.pc
  rcases hpc with hpc | hpc | hpc <;> rw [hpc] at hkick hresp <;> cases hd with
  | overflow => rfl
  | kick => exact absurd hkick Bool.true_eq_false_eq_False
  | response rc => exact absurd hresp Bool.true_eq_false_eq_False

end Unheard

section Judged

variable (hcfg : 1024 ≤ cfg.rxBytes) (hst : ztpStep cfg x.device a = some t)
  (ha : a.isDevice = true) (hrelay : RelayInv cfg x.device x.relay)

include hcfg hst ha hrelay

omit hcfg hst ha hrelay in
/-- A step that says nothing of a `relaying`, with all of the body written. -/
theorem Unheard.stays (hkick : KickFree t) (hsaid : .relaying ∉ x.said)
    (hzero : x.relay.toGo = 0) (hnotes : .relaying ∉ statuses (deviceNotes R x.device t a))
    (hpc : t.pc.onResponse = false) (hrx : .response ∈ t.ztpQ → t.rx = x.answer.bytes) :
    Judged (x.moved R a t) false := by
  refine .unheard rfl ?_ fun _ ↦ ⟨hkick, hpc, fun hpos ↦ ?_, hrx⟩
  · rw [said_moved, List.mem_append, not_or]
    exact ⟨hsaid, hnotes⟩
  · exact absurd hzero (Nat.ne_of_gt hpos)

omit hst ha in
/-- The main thread takes the answer. -/
theorem Unheard.takesResponse (h : Unheard x) (hsaid : .relaying ∉ x.said)
    (hst : ztpStep cfg x.device .get = some t)
    (hq : x.device.ztpQ = .response :: t.ztpQ)
    (ht : t = { x.device with ztpQ := t.ztpQ }.dispatch cfg .response) :
    Judged (x.moved R .get t) false := by
  have hmem : .response ∈ x.device.ztpQ := hq ▸ List.mem_cons_self
  have hrelay' : RelayInv cfg t x.relay := hrelay.device hcfg hst rfl
  refine .responding ?_ (hrelay'.holds.noMessage (by rw [ht]; exact holdsRx_dispatch _ rfl))
    (h.toGo_of_message rfl hmem) ?_
  · show Responding _
    rw [Responding, show (x.moved R .get t).device = t from rfl, ht]
    exact h.rx hmem
  · rw [said_moved, deviceNotes_takes hq ht, if_pos rfl, statuses_say]
    split
    · rw [verdicts_concat_relaying, verdicts_of_not_mem hsaid]
    · rw [List.append_nil, verdicts_of_not_mem hsaid]

/-- An answer that the main thread has not got stays so, or the main thread takes it. -/
theorem Unheard.moved (h : Unheard x) (hsaid : .relaying ∉ x.said) :
    Judged (x.moved R a t) false := by
  have hmoves := ztpStep_moves hst ha
  have hkick : KickFree t := h.kickFree.moves hmoves
  cases hmoves with
  -- nothing that the answer depends on
  | aside hpc hq hrx hnotes happlied =>
    refine .unheard rfl (by rwa [said_moved_of_nil (hnotes R)]) fun hstay ↦ ⟨hkick, ?_, ?_, ?_⟩
    · rcases hpc with hpc | ⟨-, hpc⟩
      · exact (congrArg _ hpc).trans h.pc
      · exact onResponse_of_waits hpc
    · intro hpos
      obtain ⟨hrested, hpay, htorn⟩ := h.body hpos
      refine ⟨(hrested.moves (R := R) (ztpStep_moves hst ha)).2.2.2 hstay, hpay, fun hfree ↦ ?_⟩
      exact htorn (hrx.rxBusy.symm.trans hfree)
    · exact fun hmem ↦ hrx.rx.trans (h.rx (hq _ rfl hmem))
  | @takes m hm hpc hq ht =>
    have hmem : m ∈ x.device.ztpQ := hq ▸ List.mem_cons_self
    cases m with
    | kick => exact absurd hmem h.kickFree.1
    | button => exact absurd hm Bool.false_ne_true
    | response => exact h.takesResponse hcfg hrelay hsaid hst hq ht
    | overflow =>
      refine Unheard.stays hkick hsaid (h.toGo_of_message hm hmem) ?_ (by rw [ht]; rfl)
        fun hresp ↦ ?_
      · rw [deviceNotes_takes hq ht, if_neg nofun]
        exact List.not_mem_nil
      · rw [ht]
        exact h.rx (hq ▸ List.mem_cons_of_mem _ hresp)
  -- no response is being handled, so none is applied
  | applies hpc ht => exact absurd h.pc (by rw [hpc]; decide)
  | resets hpc ht =>
    -- what is handled is an earlier overflow, here and below
    obtain rfl := h.overflow (Or.inl hpc)
    refine Unheard.stays hkick hsaid (h.toGo_of_pc (by rw [hpc]; rfl)) List.not_mem_nil
      (by rw [ht]; rfl) fun hresp ↦ ?_
    have hnone := hrelay.holds.noMessage (by rw [hpc]; rfl)
    rw [ht] at hresp
    exact absurd hresp (not_isRx_of (m := .response) hnone rfl)
  | clears hpc ht =>
    obtain rfl := h.overflow (Or.inr (Or.inl hpc))
    refine Unheard.stays hkick hsaid (h.toGo_of_pc (by rw [hpc]; rfl)) ?_ (by rw [ht]; rfl)
      fun hresp ↦ ?_
    · rw [deviceNotes_clears hpc ht, if_neg nofun]
      exact List.not_mem_nil
    · rw [ht] at hresp ⊢
      exact h.rx hresp
  | @finishes hd rc hpc ht =>
    obtain rfl := h.overflow (Or.inr (Or.inr hpc))
    refine Unheard.stays hkick hsaid (h.toGo_of_pc (by rw [hpc]; rfl)) ?_ (by rw [ht]; rfl)
      fun hresp ↦ ?_
    · obtain ⟨fs, vs, hnotes, hno, -⟩ := @deviceNotes_finishes x.device R _ rc hpc
      rw [ht, hnotes]
      exact relaying_not_mem_verdicts hno
    · rw [ht] at hresp ⊢
      exact h.rx hresp

omit hcfg hrelay in
/-- An answer that is handled stays so, or it is decided, and the verdict is notified. -/
theorem Responding.moved (h : Responding x) (hnone : NoMessage x.device)
    (hzero : x.relay.toGo = 0) (hsaid : verdicts started x.said = []) :
    Judged (x.moved R a t) started := by
  have hmoves := ztpStep_moves hst ha
  have hnone' : NoMessage (x.moved R a t).device := hnone.of_subset hmoves.subset
  cases hmoves with
  | aside hpc hq hrx hnotes happlied =>
    have hpc' : t.pc = x.device.pc := hpc.resolve_right fun ⟨hwaits, _⟩ ↦
      Bool.false_ne_true ((not_waits_of_onResponse h.onResponse).symm.trans hwaits)
    refine .responding ?_ hnone' hzero (by rwa [said_moved_of_nil (hnotes R)])
    rw [Responding] at h ⊢
    rw [handled_moved_of_ne happlied, show (x.moved R a t).device = t from rfl, hpc', hrx.rx]
    exact h
  -- there is no other message to take
  | takes hm hpc hq ht => exact absurd (hq ▸ List.mem_cons_self) (not_isRx_of hnone hm)
  | @applies rc hpc ht =>
    rw [Responding, hpc] at h
    refine .responding ?_ hnone' hzero (by rwa [said_moved_of_nil rfl])
    rw [Responding, show (x.moved R (.applied rc) t).device = t from rfl, ht]
    show (x.answer.bytes, rc) ∈ x.handled ++ [(x.device.rx, rc)]
    rw [h]
    exact List.mem_append_right _ List.mem_cons_self
  | resets hpc ht =>
    obtain ⟨rc, rfl, hmem⟩ := h.mem_handled (Or.inl hpc)
    refine .responding ?_ hnone' hzero (by rwa [said_moved_of_nil rfl])
    rw [Responding, handled_moved_of_ne (a := .reset) nofun,
      show (x.moved R .reset t).device = t from rfl, ht]
    exact hmem
  | clears hpc ht =>
    obtain ⟨rc, rfl, hmem⟩ := h.mem_handled (Or.inr (Or.inl hpc))
    have hnotes : deviceNotes R x.device t .clear = [] := by
      rw [deviceNotes_clears hpc ht, if_neg nofun]
    refine .responding ?_ hnone' hzero (by rwa [said_moved_of_nil hnotes])
    rw [Responding, handled_moved_of_ne (a := .clear) nofun,
      show (x.moved R .clear t).device = t from rfl, ht]
    exact hmem
  | @finishes hd rc' hpc ht =>
    obtain ⟨rc, rfl, hmem⟩ := h.mem_handled (Or.inr (Or.inr hpc))
    obtain ⟨fs, vs, hnotes, -, hwith⟩ := @deviceNotes_finishes x.device R _ rc' hpc
    -- the verdict that is notified, and where the device goes with it
    have hvs : vs = [if rc = 0 then .done else .error] := by
      rw [FinishedWith] at hwith
      split at hwith
      · next h0 => rw [hwith, if_pos h0]
      · next h0 => rw [hwith.2, if_neg h0]
    have hpct : t.pc = if rc = 0 then .leaving else .wait := by
      rw [ht, finish_pc]
      by_cases h0 : rc = 0
      · rw [if_pos h0, if_pos (congrArg _ h0)]
      · rw [if_neg h0, if_neg fun hc ↦ h0 (Handled.response.inj hc)]
    refine .decided rc ?_ (fun v hv ↦ ?_) (fun h0 ↦ ?_) fun hstay ↦ ⟨⟨hnone', ?_⟩, hzero⟩
    · rw [handled_moved_of_ne (a := .finish rc') (by rintro _ ⟨⟩)]
      exact hmem
    · rw [said_moved, ht, hnotes, statuses_append, statuses_frags, List.nil_append,
        statuses_flatMap_say, hvs] at hv
      split at hv
      · rcases mem_verdicts_concat hv with hv | hv
        · rw [hsaid] at hv
          exact absurd hv List.not_mem_nil
        · exact hv
      · rw [List.append_nil, hsaid] at hv
        exact absurd hv List.not_mem_nil
    · exact hpct.trans (if_pos h0)
    · have h0 : rc ≠ 0 := fun h0 ↦ hstay (hpct.trans (if_pos h0))
      show t.pc.waits = true
      rw [hpct, if_neg h0]
      rfl

end Judged

theorem Judged.moved (hcfg : 1024 ≤ cfg.rxBytes) (hst : ztpStep cfg x.device a = some t)
    (ha : a.isDevice = true)
    (hrelay : x.device.pc ≠ .leaving → RelayInv cfg x.device x.relay) (h : Judged x started) :
    Judged (x.moved R a t) started := by
  by_cases hleft : x.device.pc = .leaving
  · obtain ⟨hpct, hdown, hhandled⟩ := moved_of_leaving (R := R) hst ha hleft
    have hsame : (x.moved R a t).said = x.said := congrArg (x.status ++ statuses ·) hdown
    cases h with
    | unheard hno hsaid _ => exact .unheard hno (hsame ▸ hsaid) fun hstay ↦ absurd hpct hstay
    | responding hresp _ _ _ =>
      have hon := hresp.onResponse
      rw [hleft] at hon
      exact absurd hon Bool.false_ne_true
    | decided rc hmem hsaid _ _ =>
      exact .decided rc (hhandled ▸ hmem) (hsame ▸ hsaid) (fun _ ↦ hpct) fun hstay ↦
        absurd hpct hstay
  · cases h with
    | unheard hno hsaid hup =>
      subst hno
      exact (hup hleft).moved hcfg hst ha (hrelay hleft) hsaid
    | responding hresp hnone hzero hsaid =>
      exact hresp.moved hst ha hnone hzero hsaid
    | decided rc hmem hsaid hrc hup =>
      obtain ⟨hrested, hzero⟩ := hup hleft
      obtain ⟨hnotes, -, happlied, hrested'⟩ := hrested.moves (R := R) (ztpStep_moves hst ha)
      refine .decided rc (by rwa [handled_moved_of_ne happlied])
        (by rwa [said_moved_of_nil hnotes]) (fun h0 ↦ absurd (hrc h0) hleft) fun hstay ↦
        ⟨hrested' hstay, hzero⟩

theorem Watches.moved (hcfg : 1024 ≤ cfg.rxBytes) (hst : ztpStep cfg x.device a = some t)
    (ha : a.isDevice = true) (h : Watches cfg x started) :
    Watches cfg (x.moved R a t) started := by
  have hmoves := ztpStep_moves hst ha
  have hjudged : Judged (x.moved R a t) started :=
    h.judged.moved hcfg hst ha fun hstay ↦ (h.up hstay).1
  by_cases hleft : x.device.pc = .leaving
  · obtain ⟨hpct, hdown, -⟩ := moved_of_leaving (R := R) hst ha hleft
    exact ⟨hdown ▸ h.quiet, fun hstay ↦ absurd hpct hstay, hjudged⟩
  obtain ⟨hrelay, hends⟩ := h.up hleft
  refine ⟨quietAfterEnd_append hends hmoves.quietAfterEnd, fun hstay ↦
    ⟨hrelay.device hcfg hst ha, ?_⟩, hjudged⟩
  rcases hmoves.ends hstay R with hnone | ⟨hpc, -⟩
  · rw [Enrollment.moved, List.countP_append, hends, hnone]
  -- no kick is handled while the answer is out
  exfalso
  cases h.judged with
  | unheard _ _ hup => exact absurd (hup hleft).kickFree.2 (by rw [hpc]; decide)
  | responding hresp _ _ _ =>
    have hon := hresp.onResponse
    rw [hpc] at hon
    exact Bool.false_ne_true hon
  | decided rc _ _ _ hup =>
    have hwaits := (hup hleft).1.2
    rw [hpc] at hwaits
    exact Bool.false_ne_true hwaits

/-! ### The answer on its way to the device -/

section Wrote

variable (hrest : x.relay.rest = w :: ws) (hrelay : RelayInv cfg x.device x.relay)

theorem WriteKeeps.subset (h : WriteKeeps s t) (m : ZtpMsg) (_ : m.isRx = true)
    (hmem : m ∈ t.ztpQ) : m ∈ s.ztpQ := h.ztpQ ▸ hmem

theorem WriteKeeps.rested (h : WriteKeeps s t) (hrested : Rested s) : Rested t :=
  ⟨hrested.1.of_subset h.subset, h.pc ▸ hrested.2⟩

/-- A buffer with a response in it is not written to. -/
theorem WriteKeeps.rx (h : WriteKeeps s t) (hholds : HoldsOnce s) (hnext : RespondsNext s) :
    t.rx = s.rx := by
  rcases Bool.eq_false_or_eq_true s.rxBusy with hbusy | hfree
  · rw [h.same hbusy]
  · exact absurd hnext (hholds.not_respondsNext hfree)

include hrest hrelay

theorem Unheard.wrote (hbytes : x.answer.bytes ≠ []) (h : Unheard x) :
    Unheard (x.wrote cfg w ws) := by
  have hok : x.device.rxBusy = false → 0 < x.relay.toGo → x.relay.torn = false := fun hfree hpos ↦
    (h.body hpos).2.2 hfree
  rcases hrelay.write_cases hrest hok with hkeeps | ⟨hends, hzero⟩
  · refine ⟨⟨fun hmem ↦ h.kickFree.1 (hkeeps.ztpQ ▸ hmem), ?_⟩, ?_, fun hpos ↦ ?_, fun hmem ↦ ?_⟩
    · rw [wrote_pc]
      exact h.kickFree.2
    · rw [wrote_pc]
      exact h.pc
    · have hpos' : 0 < x.relay.toGo := Nat.lt_of_lt_of_le hpos (Nat.sub_le _ _)
      obtain ⟨hrested, hpay, htorn⟩ := h.body hpos'
      refine ⟨hkeeps.rested hrested, hpay, fun hfree ↦ ?_⟩
      have hfree' : x.device.rxBusy = false := hkeeps.rxBusy.symm.trans hfree
      show (x.relay.torn || x.device.rxBusy && decide (0 < x.relay.toGo)) = false
      rw [htorn hfree', hfree']
      rfl
    · have hmem' : .response ∈ x.device.ztpQ := hkeeps.ztpQ ▸ hmem
      exact (hkeeps.rx hrelay.holds (Or.inl hmem')).trans (h.rx hmem')
  · obtain ⟨hrested, hpay, -⟩ := h.body hends.toGo
    have hkind : kindOf cfg x.relay.payload ≠ .kick := by
      rw [hpay, kindOf, if_neg hbytes]
      split <;> rintro ⟨⟩
    refine ⟨⟨fun hmem ↦ ?_, ?_⟩, ?_, fun hpos ↦ absurd hzero (Nat.ne_of_gt hpos), fun hmem ↦ ?_⟩
    · exact (hends.ztpQ _ hmem).elim h.kickFree.1 (Ne.symm hkind)
    · rw [wrote_pc]
      exact h.kickFree.2
    · rw [wrote_pc]
      exact h.pc
    · rcases hends.ztpQ _ hmem with hold | hnew
      · exact absurd hold (not_isRx_of hrested.1 rfl)
      · exact (hends.rx hnew.symm).trans hpay

/-- With nothing left of the answer to write, a write changes nothing. -/
theorem writeKeeps_of_toGo (hzero : x.relay.toGo = 0) :
    WriteKeeps x.device (x.wrote cfg w ws).device ∧ (x.wrote cfg w ws).relay.toGo = 0 := by
  have hzero' : (x.wrote cfg w ws).relay.toGo = 0 :=
    show x.relay.toGo - _ = 0 by rw [hzero, Nat.zero_sub]
  rcases hrelay.write_cases hrest fun _ hpos ↦ absurd hzero (Nat.ne_of_gt hpos) with
    hkeeps | ⟨hends, -⟩
  · exact ⟨hkeeps, hzero'⟩
  · exact absurd hzero (Nat.ne_of_gt hends.toGo)

theorem Responding.wrote (h : Responding x) (hzero : x.relay.toGo = 0) :
    Responding (x.wrote cfg w ws) := by
  have hkeeps := (writeKeeps_of_toGo hrest hrelay hzero).1
  have hon := h.onResponse
  rw [Responding] at h ⊢
  rw [wrote_pc]
  split at h
  · next hpc => exact (hkeeps.rx hrelay.holds (Or.inr hpc)).trans h
  · exact h
  · exact h
  · exact h
  · exact h.elim

end Wrote

theorem Judged.wrote (hrest : x.relay.rest = w :: ws) (hbytes : x.answer.bytes ≠ [])
    (hrelay : x.device.pc ≠ .leaving → RelayInv cfg x.device x.relay) (h : Judged x started) :
    Judged (x.wrote cfg w ws) started := by
  cases h with
  | unheard hno hsaid hup =>
    refine .unheard hno hsaid fun hstay ↦ ?_
    rw [wrote_pc] at hstay
    exact (hup hstay).wrote hrest (hrelay hstay) hbytes
  | responding hresp hnone hzero hsaid =>
    have hstay : x.device.pc ≠ .leaving := fun hleft ↦ by
      have hon := hresp.onResponse
      rw [hleft] at hon
      exact Bool.false_ne_true hon
    obtain ⟨hkeeps, hzero'⟩ := writeKeeps_of_toGo hrest (hrelay hstay) hzero
    exact .responding (hresp.wrote hrest (hrelay hstay) hzero) (hnone.of_subset hkeeps.subset)
      hzero' hsaid
  | decided rc hmem hsaid hleft hup =>
    refine .decided rc hmem hsaid (fun h0 ↦ (wrote_pc x w ws).trans (hleft h0)) fun hstay ↦ ?_
    rw [wrote_pc] at hstay
    obtain ⟨hrested, hzero⟩ := hup hstay
    obtain ⟨hkeeps, hzero'⟩ := writeKeeps_of_toGo hrest (hrelay hstay) hzero
    exact ⟨hkeeps.rested hrested, hzero'⟩

theorem Judged.untorn (h : Judged x started) (hstay : x.device.pc ≠ .leaving)
    (hfree : x.device.rxBusy = false) (hpos : 0 < x.relay.toGo) : x.relay.torn = false := by
  cases h with
  | unheard _ _ hup => exact ((hup hstay).body hpos).2.2 hfree
  | responding _ _ hzero _ => exact absurd hzero (Nat.ne_of_gt hpos)
  | decided _ _ _ _ hup => exact absurd (hup hstay).2 (Nat.ne_of_gt hpos)

theorem Watches.wrote (hrest : x.relay.rest = w :: ws) (hbytes : x.answer.bytes ≠ [])
    (h : Watches cfg x started) : Watches cfg (x.wrote cfg w ws) started := by
  refine ⟨h.quiet, fun hstay ↦ ?_, h.judged.wrote hrest hbytes fun hstay ↦ (h.up hstay).1⟩
  rw [wrote_pc] at hstay
  obtain ⟨hrelay, hends⟩ := h.up hstay
  exact ⟨hrelay.write hrest (h.judged.untorn hstay), hends⟩

/-- What has become of the answer is a matter of the device, and of what the relay can still hear.
-/
theorem Judged.hear {y : Enrollment} {started' : Bool} (h : Judged x started)
    (hdevice : y.device = x.device) (hrelay : y.relay = x.relay) (hanswer : y.answer = x.answer)
    (hhandled : y.handled = x.handled)
    (hunsaid : started = false → .relaying ∉ x.said → started' = false ∧ .relaying ∉ y.said)
    (hsub : verdicts started' y.said ⊆ verdicts started x.said) : Judged y started' := by
  cases h with
  | unheard hno hnone hup =>
    obtain ⟨hno', hnone'⟩ := hunsaid hno hnone
    refine .unheard hno' hnone' fun hstay ↦ ?_
    rw [hdevice] at hstay
    obtain ⟨hkick, hpc, hbody, hrx⟩ := hup hstay
    exact ⟨hdevice ▸ hkick, hdevice ▸ hpc, by rwa [hrelay, hdevice, hanswer],
      by rwa [hdevice, hanswer]⟩
  | responding hresp hnone hzero hnil =>
    refine .responding ?_ (hdevice ▸ hnone) (hrelay ▸ hzero)
      (List.eq_nil_of_subset_nil (hnil ▸ hsub))
    rwa [Responding, hdevice, hanswer, hhandled]
  | decided rc hmem hall hleft hup =>
    exact .decided rc (by rwa [hanswer, hhandled]) (fun v hv ↦ hall v (hsub hv))
      (by rwa [hdevice]) (by rwa [hdevice, hrelay])

/-! ### A notification arrives -/

section Delivered

variable {n : Note}

/-- The next notification reaches the relay. -/
def Enrollment.delivered (x : Enrollment) (n : Note) (l : List Note) : Enrollment :=
  { x with down := l }.receive n

/-- What an arrival leaves as it is. -/
structure Delivered (x y : Enrollment) (n : Note) (l : List Note) : Prop where
  device : y.device = x.device
  relay : y.relay = x.relay
  down : y.down = l
  handled : y.handled = x.handled
  answer : y.answer = x.answer
  done : y.reader.done = (x.reader.done || n.isEnd)
  said : x.down = n :: l → y.said = x.said

theorem delivered_spec (x : Enrollment) (n : Note) (l : List Note) :
    Delivered x (x.delivered n l) n l := by
  cases n with
  | frag data =>
    refine ⟨rfl, rfl, rfl, rfl, rfl, done_onNotify _ _, fun hdown ↦ ?_⟩
    rw [Enrollment.said, Enrollment.said, hdown]
    rfl
  | status s =>
    refine ⟨rfl, rfl, rfl, rfl, rfl, (Bool.or_false _).symm, fun hdown ↦ ?_⟩
    rw [Enrollment.said, Enrollment.said, hdown]
    show x.status ++ [s] ++ statuses l = x.status ++ (s :: statuses l)
    rw [List.append_assoc]
    rfl

theorem ends_of_cons (h : (n :: l).countP Note.isEnd = 0) : l.countP Note.isEnd = 0 := by
  rw [List.countP_cons] at h
  omega

theorem not_mem_statuses_of_cons (h : .relaying ∉ statuses (n :: l)) : .relaying ∉ statuses l := by
  cases n with
  | frag data => exact h
  | status s => exact fun hmem ↦ h (List.mem_cons_of_mem s hmem)

variable {y : Enrollment} (hd : Delivered x y n l) (hdown : x.down = n :: l)

include hd hdown

theorem Loops.delivered (h : Loops cfg x) : Loops cfg y := by
  obtain ⟨hquiet, hup⟩ := h
  rw [hdown] at hquiet hup
  refine ⟨hd.down ▸ hquiet.2, fun hstay ↦ ?_⟩
  rw [hd.device] at hstay
  obtain ⟨hrelay, hends, hkick, hrest⟩ := hup hstay
  rw [hd.device, hd.relay, hd.down]
  exact ⟨hrelay, ends_of_cons hends, hkick, hrest⟩

theorem HasEnvelope.delivered (h : HasEnvelope cfg x) : HasEnvelope cfg y := by
  obtain ⟨hunsaid, hup⟩ := h
  rw [hdown] at hunsaid hup
  refine ⟨hd.down ▸ not_mem_statuses_of_cons hunsaid, fun hstay ↦ ?_⟩
  rw [hd.device] at hstay
  obtain ⟨hrelay, hends, hrested, hrest⟩ := hup hstay
  rw [hd.device, hd.relay, hd.down]
  exact ⟨hrelay, ends_of_cons hends, hrested, hrest⟩

/-- With the end of a message, what comes behind it counts. -/
theorem Awaits.delivered (h : Awaits cfg x) : Awaits cfg y := by
  obtain ⟨hquiet, hheard, hup⟩ := h
  rw [hdown] at hquiet hheard
  refine ⟨hd.down ▸ hquiet.2, fun hdone ↦ ?_, fun hstay ↦ ?_⟩
  · rw [hd.down]
    rw [hd.done, Bool.or_eq_true] at hdone
    exact hdone.elim (fun hdone ↦ not_mem_statuses_of_cons (hheard hdone)) hquiet.1
  · rw [hd.device] at hstay
    obtain ⟨hrelay, hleft, halone, hends⟩ := hup hstay
    rw [hd.device, hd.relay]
    refine ⟨hrelay, hleft, halone, ?_⟩
    rw [EndsOnce, hdown, List.countP_cons] at hends
    rw [EndsOnce, hd.device, hd.relay, hd.down, hd.done]
    refine hends.imp (fun ⟨hdone, hnone⟩ ↦ ?_) fun ⟨hrested, hrest, hone⟩ ↦ ⟨hrested, hrest, ?_⟩
    · cases hn : n.isEnd with
      | true =>
        rw [hn, if_pos rfl] at hnone
        omega
      | false =>
        rw [hn, if_neg Bool.false_ne_true] at hnone
        exact ⟨by rw [hdone]; rfl, hnone⟩
    · cases hn : n.isEnd <;> cases hdone : x.reader.done <;> simp [hn, hdone] at hone ⊢ <;> omega

theorem Watches.delivered (h : Watches cfg x started) : Watches cfg y started := by
  obtain ⟨hquiet, hup, hjudged⟩ := h
  rw [hdown] at hquiet hup
  have hsaid := hd.said hdown
  refine ⟨hd.down ▸ hquiet.2, fun hstay ↦ ?_, hjudged.hear hd.device hd.relay hd.answer hd.handled
    (fun hno hunsaid ↦ ⟨hno, hsaid ▸ hunsaid⟩) (hsaid ▸ List.Subset.refl _)⟩
  rw [hd.device] at hstay
  rw [hd.device, hd.relay, hd.down]
  exact ⟨(hup hstay).1, ends_of_cons (hup hstay).2⟩

end Delivered

/-! ### The script goes on -/

/-- The kick. -/
theorem Loops.kick (hcfg : 1024 ≤ cfg.rxBytes) (h : Loops cfg x) (hrest : x.relay.rest = []) :
    Awaits cfg ({ x with reader := .reset }.start .awaiting emptyMessage) := by
  refine ⟨h.quiet, nofun, fun hstay ↦ ?_⟩
  obtain ⟨hrelay, hends, hkick, -⟩ := h.up hstay
  refine ⟨hrelay.start hcfg hrest emptyMessage, Or.inr ⟨rfl, rfl, rfl, hkick⟩, fun hpc ↦ ?_,
    Or.inl ⟨rfl, hends⟩⟩
  exact absurd hkick.2 (by rw [show x.device.pc = _ from hpc]; decide)

/-- The envelope is there. -/
theorem Awaits.enveloped (h : Awaits cfg x) (hdone : x.reader.done = true) :
    HasEnvelope cfg { x with pc := .submitting } := by
  refine ⟨h.heard hdone, fun hstay ↦ ?_⟩
  obtain ⟨hrelay, -, -, ⟨hno, -⟩ | ⟨hrested, hrest, hone⟩⟩ := h.up hstay
  · exact absurd (hno.symm.trans hdone) Bool.false_ne_true
  · rw [hdone, if_pos rfl] at hone
    exact ⟨hrelay, Nat.le_zero.1 (Nat.le_of_succ_le_succ hone), hrested, hrest⟩

theorem flatten_relayPayloads (payload : List UInt8) :
    (relayPayloads payload).flatten = payload := by
  induction payload using relayPayloads.induct with
  | case1 => rw [relayPayloads, if_pos rfl]; rfl
  | case2 payload hne ih =>
    rw [relayPayloads, if_neg hne, List.flatten_cons, ih, List.take_append_drop]

/-- The body is begun. -/
theorem HasEnvelope.begin (hcfg : 1024 ≤ cfg.rxBytes) (h : HasEnvelope cfg x)
    (hstatus : .relaying ∉ x.status)
    (hrest : x.relay.rest = []) {msg : RelayMessage}
    (hmsg : msg.fragments.map (·.payload) = relayPayloads x.answer.bytes) :
    Watches cfg (x.start .writing msg) false := by
  have hpay : msg.payload = x.answer.bytes := by
    rw [← flatten_relayPayloads x.answer.bytes, ← hmsg]
    exact List.flatMap_def
  have hunsaid : .relaying ∉ (x.start .writing msg).said := fun hmem ↦
    (List.mem_append.1 hmem).elim hstatus h.unsaid
  refine ⟨quietAfterEnd_of_not_mem h.unsaid, fun hstay ↦ ?_, .unheard rfl hunsaid ?_⟩
  · obtain ⟨hrelay, hends, -⟩ := h.up hstay
    exact ⟨hrelay.start hcfg hrest msg, hends⟩
  · intro hstay
    obtain ⟨-, -, hrested, -⟩ := h.up hstay
    exact ⟨hrested.kickFree, onResponse_of_waits (Or.inl hrested.2),
      fun _ ↦ ⟨hrested, hpay, fun _ ↦ rfl⟩, fun hmem ↦ absurd hmem (not_isRx_of hrested.1 rfl)⟩

/-- The relay comes back. -/
theorem Watches.loops (h : Watches cfg x false) (hrest : x.relay.rest = []) (pc : EnrollPc) :
    Loops cfg { x with pc := pc } := by
  refine ⟨h.quiet, fun hstay ↦ ?_⟩
  obtain ⟨hrelay, hends⟩ := h.up hstay
  refine ⟨hrelay, hends, ?_, hrest⟩
  cases h.judged with
  | unheard _ _ hup => exact (hup hstay).kickFree
  | responding hresp hnone _ _ =>
    exact ⟨not_isRx_of hnone rfl, onKick_of_onResponse hresp.onResponse⟩
  | decided _ _ _ _ hup => exact (hup hstay).1.kickFree

/-! ### The main result -/

/-- What the exit status says of the device: 0 says that the answer written last has been applied. A
return of 1 over an acceptance says that it has been refused; an exception ends the process with 1
too, and says nothing. -/
def Truthful (x : Enrollment) : Prop :=
  (x.pc.exitStatus = some 0 → (x.answer.bytes, 0) ∈ x.handled ∧ x.device.pc = .leaving) ∧
    (x.pc = .exited 1 → x.answer.st = "accepted".toList →
      ∃ rc : ℤ, rc ≠ 0 ∧ (x.answer.bytes, rc) ∈ x.handled)

/-- What a status of the device says of the answer written last. -/
def Tells (x : Enrollment) : ZtpStatus → Prop
  | .done => (x.answer.bytes, 0) ∈ x.handled ∧ x.device.pc = .leaving
  | .error => ∃ rc : ℤ, rc ≠ 0 ∧ (x.answer.bytes, rc) ∈ x.handled
  | _ => True

/-- What holds with the connection, by where the script stands. -/
inductive Linked (cfg : ZtpConfig) (x : Enrollment) : Prop
  | loops (hpc : x.pc = .looping ∨ x.pc = .sleeping) (h : Loops cfg x)
  | awaits (hpc : x.pc = .awaiting) (h : Awaits cfg x)
  | submits (hpc : x.pc = .submitting ∨ x.pc = .drained ∧ .relaying ∉ x.status)
      (h : HasEnvelope cfg x)
  | writes (hpc : x.pc = .writing) (h : x.answer.bytes ≠ [] → Watches cfg x false)
  | watches (started : Bool) (hpc : x.pc = .watching started) (hbytes : x.answer.bytes ≠ [])
      (h : Watches cfg x started)
  | ended (hpc : x.pc = .failed ∨ ∃ code, x.pc = .exited code) (h : Truthful x)

/-- The relay takes, or will take, a verdict from its queue. -/
def Judging (x : Enrollment) (started : Bool) : Prop :=
  x.pc = .watching started ∨ x.pc = .writing ∧ started = false ∧ x.answer.bytes ≠ []

/-- Without the connection, what has arrived is all that the relay goes by. -/
structure CutOff (x : Enrollment) : Prop where
  connected : x.connected = false
  down : x.down = []
  rest : x.relay.rest = []
  heard : ∀ started, Judging x started → ∀ v ∈ verdicts started x.status, Tells x v
  truthful : Truthful x

/-- What holds of the whole. -/
inductive EnrollInv (cfg : ZtpConfig) (x : Enrollment) : Prop
  | linked (hconnected : x.connected = true) (h : Linked cfg x)
  | cut (h : CutOff x)

/-- An answer without a body has no status for the relay. -/
theorem bytes_ne_nil (r : ServerAnswer)
    (h : r.st = "pending".toList ∨ r.st = "accepted".toList) : r.bytes ≠ [] := by
  intro hnil
  have hbody : r.body = [] := by
    cases hb : r.body with
    | nil => rfl
    | cons c cs =>
      rw [ServerAnswer.bytes, hb, List.flatMap_cons] at hnil
      exact absurd (List.append_eq_nil_iff.1 hnil).1 String.utf8EncodeChar_ne_nil
  have hst : r.st = "HTTP ".toList ++ (toString r.code).toList := by
    rw [ServerAnswer.st, hbody]
    rfl
  rw [hst] at h
  rcases h with h | h <;> simp at h

theorem truthful_of_exitStatus (h : x.pc.exitStatus ≠ some 0 ∧ x.pc ≠ .exited 1) : Truthful x :=
  ⟨fun h0 ↦ absurd h0 h.1, fun h1 ↦ absurd h1 h.2⟩

theorem truthful_of_failed (h : x.pc = .failed) : Truthful x :=
  truthful_of_exitStatus (by rw [h]; decide)

theorem Linked.truthful (h : Linked cfg x) : Truthful x := by
  cases h with
  | ended _ h => exact h
  | loops hpc _ => rcases hpc with hpc | hpc <;> exact truthful_of_exitStatus (by rw [hpc]; decide)
  | awaits hpc _ | writes hpc _ => exact truthful_of_exitStatus (by rw [hpc]; decide)
  | watches started hpc _ _ => exact truthful_of_exitStatus (by rw [hpc]; exact ⟨nofun, nofun⟩)
  | submits hpc _ =>
    rcases hpc with hpc | ⟨hpc, -⟩ <;> exact truthful_of_exitStatus (by rw [hpc]; decide)

theorem EnrollInv.truthful (h : EnrollInv cfg x) : Truthful x := by
  cases h with
  | linked _ h => exact h.truthful
  | cut h => exact h.truthful

/-! ### What a status tells -/

section Tells

variable {y : Enrollment} {v : ZtpStatus}

/-- What has been told stays true. -/
theorem Tells.keeps (h : Tells x v) (hanswer : y.answer = x.answer)
    (hhandled : x.handled ⊆ y.handled) (hleft : x.device.pc = .leaving → y.device.pc = .leaving) :
    Tells y v := by
  cases v with
  | done => exact ⟨hanswer ▸ hhandled h.1, hleft h.2⟩
  | error =>
    obtain ⟨rc, hrc, hmem⟩ := h
    exact ⟨rc, hrc, hanswer ▸ hhandled hmem⟩
  | _ => trivial

/-- What has been said at the end stays true. -/
theorem Truthful.keeps (h : Truthful x) (hpc : y.pc = x.pc) (hanswer : y.answer = x.answer)
    (hhandled : x.handled ⊆ y.handled) (hleft : x.device.pc = .leaving → y.device.pc = .leaving) :
    Truthful y := by
  rw [Truthful, hpc, hanswer]
  refine ⟨fun h0 ↦ ?_, fun h1 hst ↦ ?_⟩
  · obtain ⟨hmem, hpc⟩ := h.1 h0
    exact ⟨hhandled hmem, hleft hpc⟩
  · obtain ⟨rc, hrc, hmem⟩ := h.2 h1 hst
    exact ⟨rc, hrc, hhandled hmem⟩

/-- What the relay can take for the verdict is true of the answer. -/
theorem Judged.tells (h : Judged x started) (hv : v ∈ verdicts started x.said) : Tells x v := by
  cases h with
  | unheard hno hunsaid _ =>
    rw [hno, verdicts_of_not_mem hunsaid] at hv
    exact absurd hv List.not_mem_nil
  | responding _ _ _ hnil =>
    rw [hnil] at hv
    exact absurd hv List.not_mem_nil
  | decided rc hhandled hall hleft _ =>
    have hverdict := hall v hv
    by_cases h0 : rc = 0
    · rw [if_pos h0] at hverdict
      subst hverdict h0
      exact ⟨hhandled, hleft rfl⟩
    · rw [if_neg h0] at hverdict
      subst hverdict
      exact ⟨rc, h0, hhandled⟩

/-- The relay exits with what the status tells. -/
theorem Tells.truthful {code : ℕ} (h : Tells x v)
    (hcode : v = .done ∧ code = 0 ∨ v = .error ∧ code = 1) (rest : List ZtpStatus) :
    Truthful { x with status := rest, pc := .exited code } := by
  rcases hcode with ⟨rfl, rfl⟩ | ⟨rfl, rfl⟩
  · exact ⟨fun _ ↦ h, nofun⟩
  · exact ⟨nofun, fun _ _ ↦ h⟩

end Tells

/-! ### The steps with the connection -/

/-- The relay takes a status from its queue. -/
theorem Watches.take {v : ZtpStatus} {rest : List ZtpStatus} (h : Watches cfg x started)
    (hbytes : x.answer.bytes ≠ []) (hstatus : x.status = v :: rest) :
    Linked cfg { x with status := rest, pc := watch started v } := by
  have hsaid : x.said = v :: (rest ++ statuses x.down) := by
    rw [Enrollment.said, hstatus]
    rfl
  rcases watch_cases started v with ⟨b, hw⟩ | ⟨code, hw⟩ <;> rw [hw]
  · obtain ⟨hsub, hfalse⟩ := @verdicts_watch started v (rest ++ statuses x.down) b hw
    refine .watches b rfl hbytes ⟨h.quiet, h.up, h.judged.hear rfl rfl rfl rfl ?_ (hsaid ▸ hsub)⟩
    intro hno hunsaid
    rw [hsaid, List.mem_cons, not_or] at hunsaid
    exact ⟨hfalse hno (Ne.symm hunsaid.1), hunsaid.2⟩
  · obtain ⟨hmem, hcode⟩ := mem_verdicts_watch (rest ++ statuses x.down) hw
    rw [← hsaid] at hmem
    exact .ended (Or.inr ⟨code, rfl⟩) ((h.judged.tells hmem).truthful hcode rest)

/-- The body has been written. -/
theorem Linked.afterBody (h : x.answer.bytes ≠ [] → Watches cfg x false)
    (hrest : x.relay.rest = []) (late : Bool) :
    Linked cfg { x with pc := .afterBody x.answer.st late } := by
  rw [EnrollPc.afterBody]
  split
  · next hpend =>
    exact .loops (Or.inr rfl) ((h (bytes_ne_nil _ (Or.inl hpend.1))).loops hrest _)
  split
  · next hno => exact .ended (Or.inr ⟨1, rfl⟩) ⟨nofun, fun _ hst ↦ absurd hst hno⟩
  · next hacc =>
    have hst := not_not.1 hacc
    have hbytes := bytes_ne_nil _ (Or.inr hst)
    obtain ⟨hquiet, hup, hjudged⟩ := h hbytes
    exact .watches false rfl hbytes ⟨hquiet, hup,
      hjudged.hear rfl rfl rfl rfl (fun hno hunsaid ↦ ⟨hno, hunsaid⟩) (List.Subset.refl _)⟩

/-- A step of the device. -/
theorem Linked.moved (hcfg : 1024 ≤ cfg.rxBytes) (h : Linked cfg x)
    (hst : ztpStep cfg x.device a = some t) (ha : a.isDevice = true) (R : Radio) :
    Linked cfg (x.moved R a t) := by
  cases h with
  | loops hpc h => exact .loops hpc (h.moved hcfg hst ha)
  | awaits hpc h => exact .awaits hpc (h.moved hcfg hst ha)
  | submits hpc h => exact .submits hpc (h.moved hcfg hst ha)
  | writes hpc h => exact .writes hpc fun hbytes ↦ (h hbytes).moved hcfg hst ha
  | watches started hpc hbytes h => exact .watches started hpc hbytes (h.moved hcfg hst ha)
  | ended hpc h =>
    refine .ended hpc (h.keeps rfl rfl (List.subset_append_left _ _) fun hleft ↦ ?_)
    exact (moved_of_leaving (R := R) hst ha hleft).1

/-- The device receives a write. -/
theorem Linked.wrote (h : Linked cfg x) (hrest : x.relay.rest = w :: ws) :
    Linked cfg (x.wrote cfg w ws) := by
  cases h with
  | loops hpc h => exact .loops hpc (h.wrote hrest)
  | awaits hpc h => exact .awaits hpc (h.wrote hrest)
  | submits hpc h => exact .submits hpc (h.wrote hrest)
  | writes hpc h => exact .writes hpc fun hbytes ↦ (h hbytes).wrote hrest hbytes
  | watches started hpc hbytes h => exact .watches started hpc hbytes (h.wrote hrest hbytes)
  | ended hpc h =>
    exact .ended hpc (h.keeps rfl rfl (List.Subset.refl _) fun hleft ↦
      (wrote_pc x w ws).trans hleft)

/-- The relay receives a notification. -/
theorem Linked.delivered {n : Note} (h : Linked cfg x) (hdown : x.down = n :: l) :
    Linked cfg (x.delivered n l) := by
  have hd := delivered_spec x n l
  have hpc' : (x.delivered n l).pc = x.pc := by cases n <;> rfl
  cases h with
  | loops hpc h => exact .loops (hpc'.symm ▸ hpc) (h.delivered hd hdown)
  | awaits hpc h => exact .awaits (hpc'.trans hpc) (h.delivered hd hdown)
  | submits hpc h =>
    refine .submits ?_ (h.delivered hd hdown)
    rw [hpc']
    refine hpc.imp_right fun ⟨hpc, hnone⟩ ↦ ⟨hpc, ?_⟩
    cases n with
    | frag data => exact hnone
    | status v =>
      intro hmem
      rcases List.mem_append.1 hmem with hmem | hmem
      · exact hnone hmem
      · refine h.unsaid ?_
        rw [hdown, List.mem_singleton.1 hmem]
        exact List.mem_cons_self
  | writes hpc h =>
    exact .writes (hpc'.trans hpc) fun hbytes ↦
      (h (hd.answer ▸ hbytes)).delivered hd hdown
  | watches started hpc hbytes h =>
    exact .watches started (hpc'.trans hpc) (hd.answer.symm ▸ hbytes) (h.delivered hd hdown)
  | ended hpc h =>
    exact .ended (hpc'.symm ▸ hpc) (h.keeps hpc' hd.answer (hd.handled ▸ List.Subset.refl _)
      fun hleft ↦ hd.device ▸ hleft)

/-! ### The connection is lost -/

theorem relayDisconnected_pc (s : ZtpState) : (relayDisconnected s).pc = s.pc := by
  rw [relayDisconnected]
  split <;> rfl

/-- Where no verdict is waited for, nothing is left to show. -/
theorem CutOff.of_not_judging (hconnected : x.connected = false) (hdown : x.down = [])
    (hrest : x.relay.rest = []) (hpc : ∀ started, ¬ Judging x started) (h : Truthful x) :
    CutOff x :=
  ⟨hconnected, hdown, hrest, fun started hj ↦ absurd hj (hpc started), h⟩

theorem not_judging (h : x.pc ≠ .writing) (hw : ∀ b, x.pc ≠ .watching b) (started : Bool) :
    ¬ Judging x started
  | .inl hpc => hw started hpc
  | .inr hpc => h hpc.1

/-- What has arrived is a part of what the device has said. -/
theorem Watches.heard (h : Watches cfg x started) {v : ZtpStatus}
    (hv : v ∈ verdicts started x.cut.status) : Tells x.cut v := by
  have htells : Tells x v := h.judged.tells (verdicts_subset_append x.status (statuses x.down) hv)
  exact htells.keeps rfl (List.Subset.refl _) fun hleft ↦ (relayDisconnected_pc _).trans hleft

theorem Linked.cut (h : Linked cfg x) : CutOff x.cut := by
  have hleft : x.device.pc = .leaving → x.cut.device.pc = .leaving := fun hleft ↦
    (relayDisconnected_pc _).trans hleft
  by_cases hw : x.pc = .writing ∧ x.relay.rest ≠ []
  · have hpc : x.cut.pc = .failed := if_pos hw
    exact .of_not_judging rfl rfl rfl (not_judging (by rw [hpc]; nofun) (by rw [hpc]; nofun))
      (truthful_of_failed hpc)
  have hpc : x.cut.pc = x.pc := if_neg hw
  refine ⟨rfl, rfl, rfl, fun started hj v hv ↦ ?_,
    h.truthful.keeps hpc rfl (List.Subset.refl _) hleft⟩
  rw [Judging, hpc] at hj
  rcases hj with hj | ⟨hj, rfl, hbytes⟩
  · cases h with
    | watches started' hpc' _ h =>
      obtain rfl := EnrollPc.watching.inj (hj.symm.trans hpc')
      exact h.heard hv
    | _ => simp_all
  · cases h with
    | writes _ h => exact (h hbytes).heard hv
    | _ => simp_all

/-- The relay takes a status that arrived before. -/
theorem CutOff.take {v : ZtpStatus} {rest : List ZtpStatus} (h : CutOff x)
    (hpc : x.pc = .watching started) (hstatus : x.status = v :: rest) :
    CutOff { x with status := rest, pc := watch started v } := by
  have hheard := h.heard started (Or.inl hpc)
  rw [hstatus] at hheard
  rcases watch_cases started v with ⟨b, hw⟩ | ⟨code, hw⟩ <;> rw [hw]
  · refine ⟨h.connected, h.down, h.rest, fun started' hj u hu ↦ ?_,
      truthful_of_exitStatus ⟨nofun, nofun⟩⟩
    obtain rfl := EnrollPc.watching.inj (hj.resolve_right fun hj ↦ absurd hj.1 nofun)
    have htells : Tells x u := hheard u ((verdicts_watch hw).1 hu)
    exact htells.keeps rfl (List.Subset.refl _) id
  · obtain ⟨hmem, hcode⟩ := mem_verdicts_watch rest hw
    exact .of_not_judging h.connected h.down h.rest (not_judging nofun nofun)
      ((hheard v hmem).truthful hcode rest)

/-- The last write of the body was through. -/
theorem CutOff.afterBody (h : CutOff x) (hpc : x.pc = .writing) (late : Bool) :
    CutOff { x with pc := .afterBody x.answer.st late } := by
  rw [EnrollPc.afterBody]
  split
  · exact .of_not_judging h.connected h.down h.rest (not_judging nofun nofun)
      (truthful_of_exitStatus ⟨nofun, nofun⟩)
  split
  · next hno =>
    exact .of_not_judging h.connected h.down h.rest (not_judging nofun nofun)
      ⟨nofun, fun _ hst ↦ absurd hst hno⟩
  · next hacc =>
    have hbytes := bytes_ne_nil _ (Or.inr (not_not.1 hacc))
    refine ⟨h.connected, h.down, h.rest, fun started hj v hv ↦ ?_,
      truthful_of_exitStatus ⟨nofun, nofun⟩⟩
    obtain rfl := EnrollPc.watching.inj (hj.resolve_right fun hj ↦ absurd hj.1 nofun)
    have htells : Tells x v := h.heard false (Or.inr ⟨hpc, rfl, hbytes⟩) v hv
    exact htells.keeps rfl (List.Subset.refl _) id

/-- A step of the device, of which the relay hears nothing. -/
theorem CutOff.moved (h : CutOff x) (hst : ztpStep cfg x.device a = some t)
    (ha : a.isDevice = true) (R : Radio) : CutOff (x.moved R a t).reachable := by
  have hdown : (x.moved R a t).reachable = { x.moved R a t with down := [] } :=
    if_neg (ne_true_of_eq_false h.connected)
  have hleft : x.device.pc = .leaving → t.pc = .leaving := fun hleft ↦
    (moved_of_leaving (R := R) hst ha hleft).1
  have hhandled : x.handled ⊆ x.handled ++ x.handles a := List.subset_append_left _ _
  rw [hdown]
  exact ⟨h.connected, rfl, h.rest,
    fun started hj v hv ↦ (h.heard started hj v hv).keeps rfl hhandled hleft,
    h.truthful.keeps rfl rfl hhandled hleft⟩

/-! ### The step lemma -/

section Step

variable {b : EnrollAction} {y : Enrollment}

/-- While the connection is up, a step leads from one of these places to another, or loses it. -/
theorem Linked.step (hcfg : 1024 ≤ cfg.rxBytes) (hconnected : x.connected = true)
    (h : Linked cfg x) (hst : enrollStep cfg x b = some y) : EnrollInv cfg y := by
  cases b with
  | kick =>
    simp only [enrollStep, Option.ite_none_right_eq_some, Option.some.injEq] at hst
    obtain ⟨⟨hpc, -, hrest⟩, rfl⟩ := hst
    cases h with
    | loops _ h => exact .linked hconnected (.awaits rfl (h.kick hcfg hrest))
    | _ => simp_all
  | enveloped =>
    simp only [enrollStep, Option.ite_none_right_eq_some, Option.some.injEq] at hst
    obtain ⟨⟨hpc, hdone⟩, rfl⟩ := hst
    cases h with
    | awaits _ h => exact .linked hconnected (.submits (Or.inl rfl) (h.enveloped hdone))
    | _ => simp_all
  | answered r =>
    simp only [enrollStep, Option.ite_none_right_eq_some, Option.some.injEq] at hst
    obtain ⟨hpc, rfl⟩ := hst
    cases h with
    | submits _ h =>
      exact .linked hconnected (.submits (Or.inr ⟨rfl, List.not_mem_nil⟩) ⟨h.unsaid, h.up⟩)
    | _ => simp_all
  | begin msg =>
    simp only [enrollStep, Option.ite_none_right_eq_some, Option.some.injEq] at hst
    obtain ⟨⟨hpc, -, hrest, hmsg⟩, rfl⟩ := hst
    cases h with
    | submits hpc' h =>
      obtain ⟨-, hnone⟩ := hpc'.resolve_left (by rw [hpc]; nofun)
      exact .linked hconnected (.writes rfl fun _ ↦ h.begin hcfg hnone hrest hmsg)
    | _ => simp_all
  | written late =>
    simp only [enrollStep, Option.ite_none_right_eq_some, Option.some.injEq] at hst
    obtain ⟨⟨hpc, hrest⟩, rfl⟩ := hst
    cases h with
    | writes _ h => exact .linked hconnected (.afterBody h hrest late)
    | _ => simp_all
  | retry =>
    simp only [enrollStep, Option.ite_none_right_eq_some, Option.some.injEq] at hst
    obtain ⟨hpc, rfl⟩ := hst
    cases h with
    | loops _ h => exact .linked hconnected (.loops (Or.inl rfl) ⟨h.quiet, h.up⟩)
    | _ => simp_all
  | take =>
    simp only [enrollStep] at hst
    split at hst <;> simp only [Option.some.injEq, reduceCtorEq] at hst
    next started v rest hpc hstatus =>
    subst hst
    cases h with
    | watches started' hpc' hbytes h =>
      obtain rfl := EnrollPc.watching.inj (hpc.symm.trans hpc')
      exact .linked hconnected (h.take hbytes hstatus)
    | _ => simp_all
  | timeout =>
    simp only [enrollStep] at hst
    split at hst <;> simp only [Option.some.injEq, reduceCtorEq] at hst
    all_goals
      subst hst
      exact .linked hconnected (.ended (Or.inr ⟨2, rfl⟩) (truthful_of_exitStatus ⟨nofun, nofun⟩))
  | fail =>
    simp only [enrollStep] at hst
    split at hst <;> simp only [Option.some.injEq, reduceCtorEq] at hst
    subst hst
    exact .linked hconnected (.ended (Or.inl rfl) (truthful_of_failed rfl))
  -- what is on its way is lost; what has arrived may still be taken
  | disconnect =>
    simp only [enrollStep, Option.ite_none_right_eq_some, Option.some.injEq] at hst
    obtain ⟨-, rfl⟩ := hst
    exact .cut h.cut
  | write =>
    simp only [enrollStep] at hst
    split at hst <;> simp only [Option.some.injEq, reduceCtorEq] at hst
    next w ws hrest =>
    subst hst
    exact .linked hconnected (h.wrote hrest)
  | deliver =>
    simp only [enrollStep] at hst
    split at hst <;> simp only [Option.some.injEq, reduceCtorEq] at hst
    next n l hdown =>
    subst hst
    refine .linked ?_ (h.delivered hdown)
    cases n <;> exact hconnected
  | device a R =>
    simp only [enrollStep, Option.ite_none_right_eq_some, Option.map_eq_some_iff] at hst
    obtain ⟨⟨ha, -⟩, t, ht, rfl⟩ := hst
    rw [show (x.moved R a t).reachable = x.moved R a t from if_pos hconnected]
    exact .linked hconnected (h.moved hcfg ht ha R)

/-- Without the connection the script writes nothing, and receives nothing. -/
theorem CutOff.step (h : CutOff x) (hst : enrollStep cfg x b = some y) : CutOff y := by
  have hlost : x.connected ≠ true := ne_true_of_eq_false h.connected
  have hgoes : ∀ y : Enrollment, y.connected = x.connected → y.down = x.down →
      y.relay.rest = [] → y.pc.exitStatus ≠ some 0 ∧ y.pc ≠ .exited 1 →
      y.pc ≠ .writing ∧ (∀ b, y.pc ≠ .watching b) → CutOff y := fun y hc hd hr hs hpc ↦
    .of_not_judging (hc.trans h.connected) (hd.trans h.down) hr (not_judging hpc.1 hpc.2)
      (truthful_of_exitStatus hs)
  cases b with
  | kick | begin msg | disconnect =>
    simp only [enrollStep, Option.ite_none_right_eq_some] at hst
    simp_all
  | enveloped | answered r | retry =>
    simp only [enrollStep, Option.ite_none_right_eq_some, Option.some.injEq] at hst
    obtain ⟨-, rfl⟩ := hst
    exact hgoes _ rfl rfl h.rest ⟨nofun, nofun⟩ ⟨nofun, nofun⟩
  | written late =>
    simp only [enrollStep, Option.ite_none_right_eq_some, Option.some.injEq] at hst
    obtain ⟨⟨hpc, -⟩, rfl⟩ := hst
    exact h.afterBody hpc late
  | take =>
    simp only [enrollStep] at hst
    split at hst <;> simp only [Option.some.injEq, reduceCtorEq] at hst
    next started v rest hpc hstatus =>
    subst hst
    exact h.take hpc hstatus
  | timeout =>
    simp only [enrollStep] at hst
    split at hst <;> simp only [Option.some.injEq, reduceCtorEq] at hst
    all_goals subst hst
    · exact hgoes _ rfl rfl h.rest ⟨nofun, nofun⟩ ⟨nofun, nofun⟩
    · exact hgoes _ rfl rfl h.rest ⟨nofun, nofun⟩ ⟨nofun, nofun⟩
    · exact hgoes _ rfl rfl rfl ⟨nofun, nofun⟩ ⟨nofun, nofun⟩
  | fail =>
    simp only [enrollStep] at hst
    split at hst <;> simp only [Option.some.injEq, reduceCtorEq] at hst
    subst hst
    exact hgoes _ rfl rfl rfl ⟨nofun, nofun⟩ ⟨nofun, nofun⟩
  | write =>
    simp only [enrollStep, h.rest, reduceCtorEq] at hst
  | deliver =>
    simp only [enrollStep, h.down, reduceCtorEq] at hst
  | device a R =>
    simp only [enrollStep, Option.ite_none_right_eq_some, Option.map_eq_some_iff] at hst
    obtain ⟨⟨ha, -⟩, t, ht, rfl⟩ := hst
    exact h.moved ht ha R

/-- **The step lemma.** -/
theorem EnrollInv.step (hcfg : 1024 ≤ cfg.rxBytes) (h : EnrollInv cfg x)
    (hst : enrollStep cfg x b = some y) : EnrollInv cfg y := by
  cases h with
  | linked hconnected h => exact h.step hcfg hconnected hst
  | cut h => exact .cut (h.step hst)

end Step

/-- The device waits, and has nothing of a message. -/
structure AtRest (s : ZtpState) : Prop where
  pc : s.pc = .wait
  reset : RxReset s
  noMessage : NoMessage s

theorem AtRest.rested (h : AtRest s) : Rested s := ⟨h.noMessage, by rw [h.pc]; rfl⟩

theorem AtRest.relayInv (cfg : ZtpConfig) (h : AtRest s) : RelayInv cfg s .boot where
  holds := by
    have hnone : s.ztpQ.countP ZtpMsg.isRx = 0 := List.countP_eq_zero.2 fun m hm ↦ by
      rw [h.noMessage m hm]
      exact Bool.false_ne_true
    rw [HoldsOnce, rxHolders, hnone, h.pc]
    exact Nat.zero_le _
  response := fun hnext ↦ hnext.elim (fun hq ↦ absurd hq (not_isRx_of h.noMessage rfl)) fun hpc ↦
    absurd (h.pc.symm.trans hpc) nofun
  releasing := fun hd hpc ↦ absurd (h.pc.symm.trans hpc) nofun
  refused := trivial
  delivers := fun hpos ↦ absurd hpos (Nat.lt_irrefl 0)
  fresh := fun hpos ↦ absurd hpos (Nat.lt_irrefl 0)
  reset := fun _ _ ↦ h.reset

/-- **The relay's verdict is the device's**, in every run that begins with a device at rest. -/
theorem enroll_truthful (cfg : ZtpConfig) (hcfg : 1024 ≤ cfg.rxBytes) {s : ZtpState}
    (hrest : AtRest s) (as : List EnrollAction) :
    Throughout (enrollStep cfg) Truthful (.boot s) as := by
  have h0 : EnrollInv cfg (.boot s) := .linked rfl (.loops (Or.inl rfl)
    ⟨trivial, fun _ ↦ ⟨hrest.relayInv cfg, rfl, hrest.rested.kickFree, rfl⟩⟩)
  exact (throughout_of_forall (fun _ _ _ h hst ↦ h.step hcfg hst) h0 as).imp
    fun _ h ↦ h.truthful

/-- The server accepts the device. -/
def acceptedAnswer : ServerAnswer := ⟨200, "status=accepted".toList⟩

/-- The relay's message with that answer. -/
def acceptedMessage : RelayMessage where
  fragments := [
    { payload := acceptedAnswer.bytes
      writes := [⟨framed acceptedAnswer.bytes, 0, false, false⟩]
      consecutive := by decide
      isPrefix := by decide
      length_le := by decide }]
  terminator := letterA.terminator
  payload_ne := by decide
  payload_terminator := letterA.payload_terminator

/-- A short envelope, and nothing is lost. -/
def clearRadio : Radio := ⟨.ok (ascii "\x7b\x7d"), smallLink, true⟩

/-- An enrollment, in which the first `done` is late, and the connection is lost before the relay
reads its verdict. -/
def enrollRun : List EnrollAction :=
  [.kick, .write, .device .get clearRadio, .device .reset clearRadio, .device .clear clearRadio,
    .device (.finish 0) clearRadio, .deliver, .deliver, .deliver, .enveloped,
    .answered acceptedAnswer, .deliver, .begin acceptedMessage, .write, .write, .written false,
    .device .get clearRadio, .device (.applied 0) clearRadio, .device .reset clearRadio,
    .device .clear clearRadio, .device (.finish 0) clearRadio, .deliver, .deliver, .deliver,
    .disconnect, .take, .take, .take]

theorem enroll_truthful_enrollRun :
    Throughout (enrollStep ztpDefaults) Truthful (.boot (.boot ztpDefaults false [])) enrollRun :=
  enroll_truthful ztpDefaults (by decide)
    ⟨rfl, ⟨rfl, rfl, rfl, rfl⟩, fun _ hm ↦ absurd hm List.not_mem_nil⟩ enrollRun

example : (exec (enrollStep ztpDefaults) (.boot (.boot ztpDefaults false [])) enrollRun).map
    (fun x ↦ (x.pc, x.handled)) = some (.exited 0, [(acceptedAnswer.bytes, 0)]) := by
  decide +kernel

/-- The device is building the envelope for a relay that is gone. -/
def leftoverKick : ZtpState :=
  { ZtpState.boot ztpDefaults false [] with pc := .answering .kick, curStatus := .relaying }

/-- The relay takes that envelope for its own. Its own kick is handled while it submits, and the
device says `relaying` and `done` about it behind the relay's back. -/
def leftoverRun : List EnrollAction :=
  [.kick, .write, .device (.finish 0) clearRadio, .deliver, .deliver, .enveloped,
    .answered acceptedAnswer, .device .get clearRadio, .device .reset clearRadio,
    .device .clear clearRadio, .begin acceptedMessage, .write, .write, .written false,
    .device (.finish 0) clearRadio, .deliver, .deliver, .deliver, .deliver, .deliver,
    .take, .take, .take]

/-- The relay then exits with 0, and the device has not even taken the answer. -/
theorem not_truthful_leftoverKick :
    ¬ Throughout (enrollStep ztpDefaults) Truthful (.boot leftoverKick) leftoverRun := by
  intro h
  have hrun : (exec (enrollStep ztpDefaults) (.boot leftoverKick) leftoverRun).map
      (fun x ↦ (x.pc, x.handled)) = some (.exited 0, []) := by decide +kernel
  obtain ⟨x, hx, hpc⟩ := Option.map_eq_some_iff.1 hrun
  obtain ⟨hpc, hhandled⟩ := Prod.mk.inj hpc
  have hmem := ((h.last hx).1 (by rw [hpc]; rfl)).1
  rw [hhandled] at hmem
  exact List.not_mem_nil hmem

end ThinEdge.Provisioner
