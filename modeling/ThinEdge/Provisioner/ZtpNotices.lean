import ThinEdge.Provisioner.ZtpEnroll

/-!
# Zero-touch provisioning: the device's notifications

What the device notifies with each of its steps, and what the relay makes of it. `Moves` says of a
step of the device what it does with the message that the device has, and `RelayInv.write_cases`
what a write of the relay does.

The envelope's end comes behind the `relaying` of its kick, and a message ends once. So behind the
end of a message there is no `relaying` in what is notified at once (`Moves.quietAfterEnd`).
-/

namespace ThinEdge.Provisioner

open Bytes Net Transition

/-! ### What is on its way -/

/-- The statuses among notifications. -/
def statuses (l : List Note) : List ZtpStatus :=
  l.filterMap fun
    | .frag _ => none
    | .status s => some s

/-- The notification ends a message. -/
def Note.isEnd : Note → Bool
  | .frag data => (RelayReader.reset.onNotify data).done
  | .status _ => false

/-- Behind the end of a message there is no `relaying`. -/
def QuietAfterEnd : List Note → Prop
  | [] => True
  | n :: l => (n.isEnd = true → .relaying ∉ statuses l) ∧ QuietAfterEnd l

/-- The statuses that a relay takes for a verdict, once it has seen a `relaying`, or `started` says
that it has. -/
def verdicts : Bool → List ZtpStatus → List ZtpStatus
  | _, [] => []
  | started, s :: l =>
    if s = .relaying then verdicts true l
    else if started then s :: verdicts true l
    else verdicts false l

variable {l m : List Note} {started : Bool} {v : ZtpStatus} {vs : List ZtpStatus}

@[simp] theorem statuses_append (l m : List Note) : statuses (l ++ m) = statuses l ++ statuses m :=
  List.filterMap_append

@[simp] theorem statuses_frags (l : List (List UInt8)) : statuses (l.map .frag) = [] := by
  rw [statuses, List.filterMap_map]
  exact List.filterMap_none l

theorem done_onNotify (r : RelayReader) (data : List UInt8) :
    (r.onNotify data).done = (r.done || (Note.frag data).isEnd) := by
  rw [Note.isEnd, RelayReader.onNotify, RelayReader.onNotify]
  split
  · exact (Bool.or_false _).symm
  dsimp only
  split
  · exact (Bool.or_true _).symm
  · exact (Bool.or_false _).symm

theorem quietAfterEnd_of_not_mem (h : .relaying ∉ statuses l) : QuietAfterEnd l := by
  induction l with
  | nil => trivial
  | cons n l ih =>
    have hl : .relaying ∉ statuses l := fun hmem ↦ h (by
      rw [show n :: l = [n] ++ l from rfl, statuses_append]
      exact List.mem_append_right _ hmem)
    exact ⟨fun _ ↦ hl, ih hl⟩

/-- What comes behind notifications that end no message. -/
theorem quietAfterEnd_append (hl : l.countP Note.isEnd = 0) (hm : QuietAfterEnd m) :
    QuietAfterEnd (l ++ m) := by
  induction l with
  | nil => exact hm
  | cons n l ih =>
    have hnone := List.countP_eq_zero.1 hl
    exact ⟨fun hend ↦ absurd hend (hnone n List.mem_cons_self),
      ih (List.countP_eq_zero.2 fun x hx ↦ hnone x (List.mem_cons_of_mem n hx))⟩

theorem verdicts_of_not_mem (h : .relaying ∉ vs) : verdicts false vs = [] := by
  induction vs with
  | nil => rfl
  | cons s vs ih =>
    rw [List.mem_cons, not_or] at h
    rw [verdicts, if_neg (Ne.symm h.1), if_neg Bool.false_ne_true, ih h.2]

/-- A `relaying` at the end decides nothing yet. -/
theorem verdicts_concat_relaying (started : Bool) (vs : List ZtpStatus) :
    verdicts started (vs ++ [.relaying]) = verdicts started vs := by
  induction vs generalizing started with
  | nil => rfl
  | cons s vs ih => rw [List.cons_append, verdicts, verdicts, ih, ih]

theorem mem_verdicts_concat {w : ZtpStatus} (h : w ∈ verdicts started (vs ++ [v])) :
    w ∈ verdicts started vs ∨ w = v := by
  induction vs generalizing started with
  | nil =>
    rw [List.nil_append, verdicts] at h
    split at h
    · exact nomatch h
    split at h
    · exact Or.inr (List.mem_singleton.1 h)
    · exact nomatch h
  | cons s vs ih =>
    rw [List.cons_append, verdicts] at h
    rw [verdicts]
    split at h
    · next hs =>
      rw [if_pos hs]
      exact ih h
    next hs =>
    rw [if_neg hs]
    cases started with
    | true =>
      rcases List.mem_cons.1 h with rfl | h
      · exact Or.inl List.mem_cons_self
      · exact (ih h).imp_left (List.mem_cons_of_mem s)
    | false => exact ih h

/-- The relay goes on watching. -/
theorem verdicts_watch {b : Bool} (h : watch started v = .watching b) :
    verdicts b vs ⊆ verdicts started (v :: vs) ∧ (started = false → v ≠ .relaying → b = false) := by
  rw [verdicts]
  rw [watch] at h
  cases started <;> cases v <;> simp at h ⊢ <;> subst h <;> simp

/-- The relay exits with the verdict. -/
theorem mem_verdicts_watch (vs : List ZtpStatus) {code : ℕ} (h : watch started v = .exited code) :
    v ∈ verdicts started (v :: vs) ∧ (v = .done ∧ code = 0 ∨ v = .error ∧ code = 1) := by
  rw [verdicts]
  rw [watch] at h
  cases started <;> cases v <;> simp at h ⊢
  all_goals exact h.symm

/-- A status makes the relay exit, or go on. -/
theorem watch_cases (started : Bool) (v : ZtpStatus) :
    (∃ b, watch started v = .watching b) ∨ ∃ code, watch started v = .exited code := by
  rw [watch]
  split_ifs
  · exact Or.inl ⟨_, rfl⟩
  · exact Or.inr ⟨_, rfl⟩
  · exact Or.inr ⟨_, rfl⟩
  · exact Or.inl ⟨_, rfl⟩

theorem verdicts_subset_append (vs ws : List ZtpStatus) :
    verdicts started vs ⊆ verdicts started (vs ++ ws) := by
  induction vs generalizing started with
  | nil => exact List.nil_subset _
  | cons s vs ih =>
    rw [List.cons_append, verdicts, verdicts]
    split
    · exact ih
    split
    · exact List.cons_subset_cons s ih
    · exact ih

/-! ### What the device notifies -/

variable {cfg : ZtpConfig} {s t : ZtpState} {a : ZtpAction} {R : Radio}

/-- The main thread waits for a message. -/
def ZtpPc.waits : ZtpPc → Bool
  | .wait | .expired => true
  | _ => false

/-- No message is waiting. -/
def NoMessage (s : ZtpState) : Prop := ∀ m ∈ s.ztpQ, m.isRx = false

/-- Nothing of a message is left to handle. -/
def Rested (s : ZtpState) : Prop := NoMessage s ∧ s.pc.waits = true

/-- What a step of the device does with the message that it has. -/
inductive Moves (cfg : ZtpConfig) (s t : ZtpState) : ZtpAction → Prop
  /-- The step has nothing to do with a message. -/
  | aside {a : ZtpAction}
      (hpc : t.pc = s.pc ∨ s.pc.waits = true ∧ (t.pc.waits = true ∨ t.pc = .leaving))
      (hq : ∀ m : ZtpMsg, m.isRx = true → m ∈ t.ztpQ → m ∈ s.ztpQ) (hrx : SameRx s t)
      (hnotes : ∀ R, deviceNotes R s t a = []) (happlied : ∀ rc, a ≠ .applied rc) : Moves cfg s t a
  | takes {m : ZtpMsg} (hm : m.isRx = true) (hpc : s.pc = .wait) (hq : s.ztpQ = m :: t.ztpQ)
      (ht : t = { s with ztpQ := t.ztpQ }.dispatch cfg m) : Moves cfg s t .get
  | applies {rc : ℤ} (hpc : s.pc = .applying) (ht : t = { s with pc := .handling (.response rc) }) :
      Moves cfg s t (.applied rc)
  | resets {h : Handled} (hpc : s.pc = .handling h)
      (ht : t = { s.rxReset with pc := .releasing h }) : Moves cfg s t .reset
  | clears {h : Handled} (hpc : s.pc = .releasing h) (ht : t = { s with
      pc := .answering h
      rxBusy := false
      curStatus := if h = .kick ∧ s.idle = false then .relaying else s.curStatus }) :
      Moves cfg s t .clear
  | finishes {h : Handled} {rc : ℤ} (hpc : s.pc = .answering h) (ht : t = s.finish rc h) :
      Moves cfg s t (.finish rc)

theorem mem_post_button {m : ZtpMsg} (hm : m.isRx = true) (h : m ∈ (s.post .button).ztpQ) :
    m ∈ s.ztpQ := by
  rw [ZtpState.post, msgqPut] at h
  dsimp only at h
  split at h
  · refine (List.mem_append.1 h).resolve_right fun hlast ↦ ?_
    rw [List.mem_singleton.1 hlast] at hm
    exact absurd hm (by decide)
  · exact h

theorem holdsRx_dispatch (s : ZtpState) {m : ZtpMsg} (hm : m.isRx = true) :
    (s.dispatch cfg m).pc.holdsRx = true := by
  cases m with
  | button => exact absurd hm Bool.false_ne_true
  | kick | response | overflow => rfl

/-- **The device's steps.** -/
theorem ztpStep_moves (h : ztpStep cfg s a = some t) (ha : a.isDevice = true) :
    Moves cfg s t a := by
  have hsame : SameRx s s := ⟨rfl, rfl, rfl, rfl⟩
  cases a with
  | write w => exact absurd ha Bool.false_ne_true
  | disconnect => exact absurd ha Bool.false_ne_true
  | button =>
    obtain rfl := Option.some.inj h
    exact .aside (Or.inl rfl) (fun _ hm ↦ mem_post_button hm) ⟨rfl, rfl, rfl, rfl⟩ (fun _ ↦ rfl)
      nofun
  | tick ms =>
    obtain rfl := Option.some.inj h
    exact .aside (Or.inl rfl) (fun _ _ ↦ id) ⟨rfl, rfl, rfl, rfl⟩ (fun _ ↦ rfl) nofun
  | get =>
    -- a press is not a message of the receiver; the other three are
    obtain ⟨hpc, m, rest, hq, rfl⟩ := ztpStep_get h
    cases m with
    | button =>
      refine .aside (Or.inl ?_) (fun m _ hmem ↦ ?_) ?_ (fun R ↦ ?_) nofun
      · rw [ZtpState.dispatch]
        split <;> rfl
      · rw [hq]
        refine List.mem_cons_of_mem _ ?_
        rw [ZtpState.dispatch] at hmem
        split at hmem <;> exact hmem
      · rw [ZtpState.dispatch]
        split <;> exact ⟨rfl, rfl, rfl, rfl⟩
      · rw [deviceNotes, hq, List.head?_cons]
        exact if_neg (by rintro ⟨⟩)
    | kick => exact .takes rfl hpc hq rfl
    | response => exact .takes rfl hpc hq rfl
    | overflow => exact .takes rfl hpc hq rfl
  | timeout =>
    obtain ⟨⟨hpc, -⟩, rfl⟩ := ztpStep_timeout h
    exact .aside (Or.inr ⟨by rw [hpc]; rfl, Or.inl rfl⟩) (fun _ _ ↦ id) ⟨rfl, rfl, rfl, rfl⟩
      (fun _ ↦ rfl) (by rintro _ ⟨⟩)
  | checkWindow =>
    obtain ⟨hpc, ⟨-, rfl⟩ | ⟨-, rfl⟩⟩ := ztpStep_checkWindow h
    · exact .aside (Or.inr ⟨by rw [hpc]; rfl, Or.inr rfl⟩) (fun _ _ ↦ id) ⟨rfl, rfl, rfl, rfl⟩
        (fun _ ↦ rfl) (by rintro _ ⟨⟩)
    · exact .aside (Or.inr ⟨by rw [hpc]; rfl, Or.inl rfl⟩) (fun _ _ ↦ id) ⟨rfl, rfl, rfl, rfl⟩
        (fun _ ↦ rfl) (by rintro _ ⟨⟩)
  | applied rc =>
    obtain ⟨hpc, ht⟩ := ztpStep_applied h
    exact .applies hpc ht
  | reset =>
    obtain ⟨hd, hpc, ht⟩ := ztpStep_reset h
    exact .resets hpc ht
  | clear =>
    obtain ⟨hd, hpc, ht⟩ := ztpStep_clear h
    exact .clears hpc ht
  | finish rc =>
    obtain ⟨hd, hpc, ht⟩ := ztpStep_finish h
    exact .finishes hpc ht

/-! ### What it notifies -/

theorem statuses_say (R : Radio) (s : ZtpStatus) :
    statuses (R.say s) = if R.heard then [s] else [] := by
  rw [Radio.say]
  split <;> rfl

theorem ends_say (R : Radio) (s : ZtpStatus) : (R.say s).countP Note.isEnd = 0 := by
  rw [Radio.say]
  split <;> rfl

theorem isEnd_framed {q : List UInt8} (hq : q ≠ []) (hmax : q.length < 65536) :
    (Note.frag (framed q)).isEnd = false := by
  rw [Note.isEnd, RelayReader.reset, onNotify_framed [] hq hmax]

/-- A message ends once. -/
theorem ends_sendLoop_le {link : TxLink} {chunk : ℕ} (hchunk : 0 < chunk) (hmax : chunk < 65536)
    (i : ℕ) (data : List UInt8) :
    ((sendLoop link chunk hchunk i data).1.map Note.frag).countP Note.isEnd ≤ 1 := by
  induction i, data using sendLoop.induct link chunk hchunk with
  | case1 i =>
    rw [sendLoop, dif_pos rfl]
    dsimp only
    split
    · exact List.countP_le_length
    · exact Nat.zero_le _
  | case2 i data hdata hfail =>
    rw [sendLoop, dif_neg hdata, if_pos hfail]
    exact Nat.zero_le _
  | case3 i data hdata hok hlt ih =>
    rw [sendLoop, dif_neg hdata, if_neg hok]
    dsimp only
    have hne : data.take (min chunk data.length) ≠ [] := by
      have hpos := List.length_pos_iff.2 hdata
      refine List.length_pos_iff.1 ?_
      rw [List.length_take]
      omega
    have hle : (data.take (min chunk data.length)).length < 65536 := by
      rw [List.length_take]
      omega
    rwa [List.map_cons, List.countP_cons, isEnd_framed hne hle, if_neg Bool.false_ne_true,
      Nat.add_zero]

theorem ends_sendMessage_le (link : TxLink) (data : List UInt8) :
    ((sendMessage link data).1.map Note.frag).countP Note.isEnd ≤ 1 := by
  rw [sendMessage]
  split
  · exact Nat.zero_le _
  split
  · exact Nat.zero_le _
  · refine ends_sendLoop_le _ ?_ _ _
    rw [chunkOf, txFragMax]
    omega

theorem ends_envelopeFrags_le (R : Radio) :
    (R.envelopeFrags.map Note.frag).countP Note.isEnd ≤ 1 := by
  rw [Radio.envelopeFrags]
  split
  · exact ends_sendMessage_le _ _
  · exact Nat.zero_le _

/-- What is notified with a message that is taken. -/
theorem deviceNotes_takes {m : ZtpMsg} (hq : s.ztpQ = m :: t.ztpQ)
    (ht : t = { s with ztpQ := t.ztpQ }.dispatch cfg m) :
    deviceNotes R s t .get = if m = .response then R.say .relaying else [] := by
  rw [deviceNotes, hq, List.head?_cons]
  by_cases hm : m = .response
  · rw [if_pos hm, if_pos (congrArg some hm), ht, hm]
    rfl
  · rw [if_neg hm, if_neg fun h ↦ hm (Option.some.inj h)]

theorem deviceNotes_clears {h : Handled} (hpc : s.pc = .releasing h) (ht : t = { s with
      pc := .answering h
      rxBusy := false
      curStatus := if h = .kick ∧ s.idle = false then .relaying else s.curStatus }) :
    deviceNotes R s t .clear = if h = .kick ∧ s.idle = false then R.say .relaying else [] := by
  rw [deviceNotes]
  by_cases hkick : h = .kick ∧ s.idle = false
  · rw [if_pos hkick, if_pos ⟨hpc.trans (congrArg _ hkick.1), hkick.2⟩, ht]
    dsimp only
    rw [if_pos hkick]
  · rw [if_neg hkick, if_neg]
    rintro ⟨hpc', hidle⟩
    exact hkick ⟨ZtpPc.releasing.inj (hpc.symm.trans hpc'), hidle⟩

theorem finish_pc (s : ZtpState) (rc : ℤ) (h : Handled) :
    (s.finish rc h).pc = if h = .response 0 then .leaving else .wait := by
  cases h with
  | kick =>
    rw [ZtpState.finish]
    split <;> rfl
  | overflow => rfl
  | response rc' =>
    rw [ZtpState.finish]
    by_cases hrc : rc' = 0
    · rw [if_neg (not_not_intro hrc), if_pos (congrArg _ hrc)]
    · rw [if_pos hrc, if_neg fun h ↦ hrc (Handled.response.inj h)]

theorem finish_ztpQ (s : ZtpState) (rc : ℤ) (h : Handled) : (s.finish rc h).ztpQ = s.ztpQ := by
  cases h <;> rw [ZtpState.finish] <;> split <;> rfl

/-- Which fragments and which statuses are notified when something has been handled. -/
def FinishedWith (fs : List (List UInt8)) (vs : List ZtpStatus) : Handled → Prop
  | .kick => (fs.map Note.frag).countP Note.isEnd ≤ 1
  | .overflow => fs = []
  | .response rc => if rc = 0 then vs = [.done] else fs = [] ∧ vs = [.error]

/-- What is notified with the end of the handling. -/
theorem deviceNotes_finishes {h : Handled} (rc : ℤ) (hpc : s.pc = .answering h) :
    ∃ (fs : List (List UInt8)) (vs : List ZtpStatus),
      deviceNotes R s (s.finish rc h) (.finish rc) = fs.map .frag ++ vs.flatMap R.say ∧
        .relaying ∉ vs ∧ FinishedWith fs vs h := by
  have hone : ∀ v, [v].flatMap R.say = R.say v := fun v ↦ List.append_nil _
  cases h with
  | kick =>
    rw [deviceNotes, hpc, ZtpState.finish]
    dsimp only
    split
    · exact ⟨[], [], rfl, List.not_mem_nil, Nat.zero_le _⟩
    · refine ⟨R.envelopeFrags, [if rc = 0 then .done else .error], ?_, ?_, ends_envelopeFrags_le R⟩
      · rw [hone]
      · split <;> decide
  | overflow =>
    rw [deviceNotes, hpc, ZtpState.finish]
    exact ⟨[], [.error], (hone _).symm, by decide, rfl⟩
  | response rc' =>
    rw [deviceNotes, hpc, ZtpState.finish]
    dsimp only
    by_cases hrc : rc' = 0
    · rw [if_pos hrc, if_neg (not_not_intro hrc)]
      exact ⟨_, [.done], by rw [hone], by decide, by rw [FinishedWith, if_pos hrc]⟩
    · rw [if_neg hrc, if_pos hrc]
      refine ⟨[], [.error], (hone _).symm, by decide, ?_⟩
      rw [FinishedWith, if_neg hrc]
      exact ⟨rfl, rfl⟩

theorem statuses_flatMap_say (R : Radio) (vs : List ZtpStatus) :
    statuses (vs.flatMap R.say) = if R.heard then vs else [] := by
  induction vs with
  | nil => split <;> rfl
  | cons v vs ih =>
    rw [List.flatMap_cons, statuses_append, ih, statuses_say]
    split <;> rfl

theorem ends_flatMap_say (R : Radio) (vs : List ZtpStatus) :
    (vs.flatMap R.say).countP Note.isEnd = 0 := by
  induction vs with
  | nil => rfl
  | cons v vs ih => rw [List.flatMap_cons, List.countP_append, ends_say, ih]

theorem relaying_not_mem_verdicts {fs : List (List UInt8)} {vs : List ZtpStatus}
    (h : .relaying ∉ vs) : .relaying ∉ statuses (fs.map .frag ++ vs.flatMap R.say) := by
  rw [statuses_append, statuses_frags, List.nil_append, statuses_flatMap_say]
  split
  · exact h
  · exact List.not_mem_nil

/-- No `relaying` behind the end of a message in what the device notifies at once. -/
theorem Moves.quietAfterEnd (h : Moves cfg s t a) :
    QuietAfterEnd (deviceNotes R s t a) := by
  have hsay : QuietAfterEnd (R.say .relaying) := by
    rw [← List.append_nil (R.say _)]
    exact quietAfterEnd_append (ends_say R _) trivial
  cases h with
  | aside hpc hq hrx hnotes happlied =>
    rw [hnotes]
    trivial
  | takes hm hpc hq ht =>
    rw [deviceNotes_takes hq ht]
    split
    · exact hsay
    · trivial
  | applies hpc ht | resets hpc ht => trivial
  | clears hpc ht =>
    rw [deviceNotes_clears hpc ht]
    split
    · exact hsay
    · trivial
  | finishes hpc ht =>
    obtain ⟨fs, vs, hnotes, hno, -⟩ := @deviceNotes_finishes s R _ _ hpc
    rw [ht, hnotes]
    exact quietAfterEnd_of_not_mem (relaying_not_mem_verdicts hno)

/-- A device that rests notifies nothing. -/
theorem Rested.moves (h : Rested s) (hmoves : Moves cfg s t a) :
    deviceNotes R s t a = [] ∧ SameRx s t ∧ (∀ rc, a ≠ .applied rc) ∧
      (t.pc ≠ .leaving → Rested t) := by
  obtain ⟨hnone, hwaits⟩ := h
  cases hmoves with
  | aside hpc hq hrx hnotes happlied =>
    refine ⟨hnotes R, hrx, happlied, fun hstay ↦ ⟨fun m hm ↦ ?_, ?_⟩⟩
    · by_contra hmrx
      rw [Bool.not_eq_false] at hmrx
      exact absurd (hnone m (hq m hmrx hm)) (by rw [hmrx]; decide)
    · rcases hpc with hpc | ⟨-, hpc | hpc⟩
      · rwa [hpc]
      · exact hpc
      · exact absurd hpc hstay
  | takes hm hpc hq ht =>
    exact absurd (hnone _ (hq ▸ List.mem_cons_self)) (by rw [hm]; decide)
  | applies hpc ht | resets hpc ht | clears hpc ht | finishes hpc ht =>
    rw [hpc] at hwaits
    exact absurd hwaits Bool.false_ne_true

/-! ### One message at a time -/

/-- The main thread handles a kick. -/
def ZtpPc.onKick : ZtpPc → Bool
  | .handling .kick | .releasing .kick | .answering .kick => true
  | _ => false

/-- The device has no kick. -/
def KickFree (s : ZtpState) : Prop := .kick ∉ s.ztpQ ∧ s.pc.onKick = false

theorem not_isRx_of (h : NoMessage s) {m : ZtpMsg} (hm : m.isRx = true) : m ∉ s.ztpQ := fun hmem ↦
  Bool.false_ne_true ((h m hmem).symm.trans hm)

theorem noMessage_of (h : ∀ m : ZtpMsg, m.isRx = true → m ∉ s.ztpQ) : NoMessage s := fun m hm ↦ by
  cases hmrx : m.isRx with
  | true => exact absurd hm (h m hmrx)
  | false => rfl

theorem NoMessage.of_subset (h : NoMessage s)
    (hq : ∀ m : ZtpMsg, m.isRx = true → m ∈ t.ztpQ → m ∈ s.ztpQ) : NoMessage t :=
  noMessage_of fun m hm hmem ↦ not_isRx_of h hm (hq m hm hmem)

theorem HoldsOnce.noMessage (h : HoldsOnce s) (hpc : s.pc.holdsRx = true) : NoMessage s :=
  noMessage_of fun m hm hmem ↦ by
    have hpos : 0 < s.ztpQ.countP ZtpMsg.isRx := List.countP_pos_iff.2 ⟨m, hmem, hm⟩
    rw [HoldsOnce, rxHolders, if_pos hpc] at h
    split at h <;> omega

theorem onKick_of_waits {pc : ZtpPc} (h : pc.waits = true) : pc.onKick = false := by
  cases pc <;> first | rfl | exact absurd h Bool.false_ne_true

theorem Rested.kickFree (h : Rested s) : KickFree s :=
  ⟨not_isRx_of h.1 rfl, onKick_of_waits h.2⟩

theorem Moves.subset (h : Moves cfg s t a) (m : ZtpMsg) (hm : m.isRx = true)
    (hmem : m ∈ t.ztpQ) : m ∈ s.ztpQ := by
  cases h with
  | aside hpc hq hrx hnotes happlied => exact hq m hm hmem
  | takes hm' hpc hq ht =>
    rw [hq]
    exact List.mem_cons_of_mem _ hmem
  | applies hpc ht | resets hpc ht | clears hpc ht =>
    rw [ht] at hmem
    exact hmem
  | finishes hpc ht =>
    rw [ht, finish_ztpQ] at hmem
    exact hmem

/-- A device without a kick gets none by itself. -/
theorem KickFree.moves (h : KickFree s) (hmoves : Moves cfg s t a) : KickFree t := by
  refine ⟨fun hmem ↦ h.1 (hmoves.subset _ rfl hmem), ?_⟩
  obtain ⟨hq, hpc0⟩ := h
  cases hmoves with
  | aside hpc _ _ _ _ =>
    rcases hpc with hpc | ⟨-, hpc | hpc⟩
    · rwa [hpc]
    · exact onKick_of_waits hpc
    · rw [hpc]
      rfl
  | @takes m hm hpc hq' ht =>
    rw [ht]
    cases m with
    | kick => exact absurd (hq' ▸ List.mem_cons_self) hq
    | button => exact absurd hm Bool.false_ne_true
    | response | overflow => rfl
  | applies hpc ht =>
    rw [ht]
    rfl
  | @resets h hpc ht | @clears h hpc ht =>
    rw [hpc] at hpc0
    rw [ht]
    cases h <;> first | rfl | exact absurd hpc0 Bool.true_eq_false_eq_False
  | finishes hpc ht =>
    rw [ht, finish_pc]
    split <;> rfl

/-- How many ends of messages are notified, by a device that goes on. -/
theorem Moves.ends (h : Moves cfg s t a) (hstay : t.pc ≠ .leaving) (R : Radio) :
    (deviceNotes R s t a).countP Note.isEnd = 0 ∨
      s.pc = .answering .kick ∧ t.pc = .wait ∧ (deviceNotes R s t a).countP Note.isEnd ≤ 1 := by
  cases h with
  | aside hpc hq hrx hnotes happlied =>
    rw [hnotes]
    exact Or.inl rfl
  | takes hm hpc hq ht =>
    rw [deviceNotes_takes hq ht]
    split
    · exact Or.inl (ends_say R _)
    · exact Or.inl rfl
  | applies hpc ht | resets hpc ht => exact Or.inl rfl
  | clears hpc ht =>
    rw [deviceNotes_clears hpc ht]
    split
    · exact Or.inl (ends_say R _)
    · exact Or.inl rfl
  | @finishes h rc hpc ht =>
    obtain ⟨fs, vs, hnotes, -, hwith⟩ := @deviceNotes_finishes s R _ rc hpc
    have hends : (fs.map Note.frag ++ vs.flatMap R.say).countP Note.isEnd =
        (fs.map Note.frag).countP Note.isEnd := by
      rw [List.countP_append, ends_flatMap_say, Nat.add_zero]
    rw [ht, finish_pc] at hstay
    rw [ht, hnotes, hends, finish_pc]
    cases h with
    | kick => exact Or.inr ⟨hpc, rfl, hwith⟩
    | overflow =>
      rw [show fs = [] from hwith]
      exact Or.inl rfl
    | response rc' =>
      have hrc : rc' ≠ 0 := fun h0 ↦ hstay (if_pos (congrArg _ h0))
      rw [FinishedWith, if_neg hrc] at hwith
      rw [hwith.1]
      exact Or.inl rfl

/-- A device that is about to reboot notifies nothing. -/
theorem Moves.leaving (h : Moves cfg s t a) (hpc : s.pc = .leaving) (R : Radio) :
    t.pc = .leaving ∧ deviceNotes R s t a = [] ∧ ∀ rc, a ≠ .applied rc := by
  cases h with
  | aside hpc' hq hrx hnotes happlied =>
    refine ⟨hpc'.elim (fun h ↦ h.trans hpc) fun h ↦ ?_, hnotes R, happlied⟩
    rw [hpc] at h
    exact absurd h.1 Bool.false_ne_true
  | takes hm hpc' hq ht => exact absurd (hpc.symm.trans hpc') nofun
  | applies hpc' ht | resets hpc' ht | clears hpc' ht | finishes hpc' ht =>
    exact absurd (hpc.symm.trans hpc') nofun

/-! ### What a write does to the device -/

variable {r : Relay} {w : GattWrite} {ws : List GattWrite}

/-- A write that completes no message. -/
structure WriteKeeps (s t : ZtpState) : Prop where
  ztpQ : t.ztpQ = s.ztpQ
  pc : t.pc = s.pc
  rxBusy : t.rxBusy = s.rxBusy
  same : s.rxBusy = true → t = s

/-- A write that completes the relay's message, for which the queue may have no room. -/
structure WriteEnds (cfg : ZtpConfig) (s t : ZtpState) (r : Relay) : Prop where
  toGo : 0 < r.toGo
  pc : t.pc = s.pc
  ztpQ : ∀ m : ZtpMsg, m ∈ t.ztpQ → m ∈ s.ztpQ ∨ m = kindOf cfg r.payload
  rx : kindOf cfg r.payload = .response → t.rx = r.payload

theorem writeKeeps_self (s : ZtpState) : WriteKeeps s s := ⟨rfl, rfl, rfl, fun _ ↦ rfl⟩

/-- **What a write of the relay does.** -/
theorem RelayInv.write_cases (h : RelayInv cfg s r) (hrest : r.rest = w :: ws)
    (hok : s.rxBusy = false → 0 < r.toGo → r.torn = false) :
    WriteKeeps s (writeRequest cfg s w).1 ∨
      WriteEnds cfg s (writeRequest cfg s w).1 r ∧ (r.wrote s.rxBusy w ws).toGo = 0 := by
  rcases Bool.eq_false_or_eq_true s.rxBusy with hbusy | hfree
  · rw [writeRequest_of_busy cfg hbusy]
    exact Or.inl (writeKeeps_self s)
  rcases Nat.eq_zero_or_pos r.toGo with h0 | hpos
  · have hrefused := h.refused
    rw [hrest] at hrefused
    obtain ⟨hprep, hoff⟩ := hrefused.1 h0
    rw [(writeRequest_of_refused cfg (h.reset hfree (Or.inl h0)).frag hprep hoff).1]
    exact Or.inl (writeKeeps_self s)
  have hdelivers := h.delivers hpos (hok hfree hpos) hfree
  rw [hrest] at hdelivers
  cases hdelivers with
  | ends _ hk hend hmsg hrx _ =>
    refine Or.inr ⟨⟨hpos, (writeRequest_main cfg s w).pc, fun m hm ↦ ?_, fun hresp ↦ ?_⟩,
      Nat.sub_eq_zero_of_le hk⟩
    · rw [writeRequest_of_endsMessage cfg hend, hmsg] at hm
      dsimp only [ZtpState.post] at hm
      rw [msgqPut] at hm
      split at hm
      · exact (List.mem_append.1 hm).imp_right List.mem_singleton.1
      · exact Or.inl hm
    · rw [writeRequest_of_endsMessage cfg hend]
      exact hrx hresp
  | more _ _ hno _ =>
    rcases writeRequest_cases cfg s w with ⟨hend, -⟩ | ⟨-, hbusy, hq, hpc⟩
    · exact absurd hend hno
    · exact Or.inl ⟨hq, hpc, hbusy, fun hb ↦ absurd (hfree.symm.trans hb) Bool.false_ne_true⟩

end ThinEdge.Provisioner
