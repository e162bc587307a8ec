import Mathlib.Data.List.Chain
import ThinEdge.Common.ButtonGesture

/-!
# The button: press patterns

Which sequences of presses `lib/common/button_gesture.c` takes for the provisioning or the identify
pattern. The configuration says that a sequence ends when no press comes for the quiet time, but the
classifier notices the end of a sequence only in a tick, and a press may come before it: then the
press is counted into the old sequence (`not_recognised_late_tick`). `recognised_of_inTime` is what
holds of the runs in which no press is that late. It rests on `PatternInv`, by which the classifier
knows of a sequence that could still be a pattern what the observer knows of it.
-/

namespace ThinEdge.Common

open Transition

/-- The second press comes before the quiet time after the first one is over. -/
def Follows (cfg : GestureCfg) (p q : Press) : Prop := q.down - p.up < cfg.quietMs.toNat

instance (cfg : GestureCfg) (p q : Press) : Decidable (Follows cfg p q) :=
  inferInstanceAs (Decidable (_ < _))

/-- The sequence is an unbroken burst of `n` short presses. -/
def Unbroken (cfg : GestureCfg) (n : UInt32) (b : Burst) : Prop :=
  b.presses.length = n.toNat ∧
  (∀ p ∈ b.presses, p.up - p.down < cfg.shortMaxMs.toNat ∧
    (0 < cfg.eraseMs → p.up - p.down < cfg.eraseMs.toNat)) ∧
  b.presses.IsChain (Follows cfg) ∧
  (∀ p ∈ b.presses.head?, ∀ q ∈ b.presses.getLast?, q.up - p.down ≤ cfg.windowMs.toNat) ∧
  ∀ q ∈ b.presses.getLast?, cfg.quietMs.toNat ≤ b.endedAt - q.up

instance (cfg : GestureCfg) (n : UInt32) (b : Burst) : Decidable (Unbroken cfg n b) :=
  inferInstanceAs (Decidable (_ ∧ _ ∧ _ ∧ _ ∧ _))

/-- The gestures so far are those of the sequences that have ended, at most one for each, and a
sequence that was taken for a pattern is an unbroken burst of as many presses. -/
def Recognised (cfg : GestureCfg) (s : Seen) : Prop :=
  s.gestures = (s.ended.map Burst.outcome).filter (Seen.Counts ·) ∧
  ∀ b ∈ s.ended, (b.outcome = .provision → Unbroken cfg cfg.pressCount b) ∧
    (b.outcome = .identify → Unbroken cfg cfg.identifyCount b)

instance (cfg : GestureCfg) (s : Seen) : Decidable (Recognised cfg s) :=
  inferInstanceAs (Decidable (_ ∧ _))

/-- A press that joins a sequence that could still be a pattern comes before the quiet time is over,
and the counter has room for it. -/
def InTime (p : GestureState × Seen) : GestureCall × ℤ → Prop
  | (.press, now) => p.1.pressed = true ∨ p.1.presses = 0 ∨ p.1.spoiled = true ∨
      now - p.1.lastRelease < p.1.cfg.quietMs.toNat
  | (.release, _) => p.1.pressed = false ∨ p.1.spoiled = true ∨ p.1.presses ≠ 0xffffffff
  | (.tick, _) => True

instance decidableInTime (p : GestureState × Seen) : ∀ a, Decidable (InTime p a)
  | (.press, _) => inferInstanceAs (Decidable (_ ∨ _ ∨ _ ∨ _))
  | (.release, _) => inferInstanceAs (Decidable (_ ∨ _ ∨ _))
  | (.tick, _) => inferInstanceAs (Decidable True)

/-! ### A press that comes late -/

/-- The defaults of the firmware. -/
def defaultGestures : GestureCfg := ⟨3, 2, 2000, 1000, 700, 10000⟩

/-- Two presses, and a third one 750 ms after them, before the next tick. -/
def lateTick : List (GestureCall × ℤ) :=
  [(.press, 100), (.release, 250), (.press, 500), (.release, 650), (.press, 1400), (.release, 1550),
    (.tick, 2250)]

/-- The device takes the three presses for the provisioning pattern. -/
theorem not_recognised_late_tick :
    (gestureInit defaultGestures).outputs lateTick =
      [.none, .none, .none, .none, .none, .none, .provision] ∧
    ¬ Throughout gestureStep (fun p ↦ Recognised defaultGestures p.2)
      (gestureStart defaultGestures 0) lateTick := by
  decide

/-! ### Sequences that could still be a pattern -/

/-- The classifier knows what the observer knows of a sequence that it has not spoiled. -/
structure Candidate (cfg : GestureCfg) (p : GestureState × Seen) : Prop where
  length_lt : p.2.burst.length < 4294967296
  short : ∀ q ∈ p.2.burst, q.up - q.down < cfg.shortMaxMs.toNat ∧
    (0 < cfg.eraseMs → q.up - q.down < cfg.eraseMs.toNat)
  gaps : p.2.burst.IsChain (Follows cfg)
  window : ∀ q ∈ p.2.burst.head?, ∀ r ∈ p.2.burst.getLast?, r.up - q.down ≤ cfg.windowMs.toNat
  first : ∀ q ∈ p.2.burst.head?, q.down = p.1.firstPress
  first_of_nil : p.1.pressed = true → p.2.burst = [] → p.1.firstPress = p.1.pressAt
  last_gap : p.1.pressed = true → ∀ q ∈ p.2.burst.getLast?,
    p.1.pressAt - q.up < cfg.quietMs.toNat

/-- The classifier agrees with the observer, and what it has recognised is right. -/
structure PatternInv (cfg : GestureCfg) (p : GestureState × Seen) : Prop extends
    GestureInv cfg p where
  presses_eq : p.1.presses.toNat = p.2.burst.length % 4294967296
  last_release : ∀ q ∈ p.2.burst.getLast?, q.up = p.1.lastRelease
  candidate : p.1.spoiled = false → Candidate cfg p
  recognised : Recognised cfg p.2

variable {cfg : GestureCfg} {p q : GestureState × Seen} {t : ℤ}

theorem Candidate.of_nil {g : GestureState} {s : Seen} (hup : g.pressed = false)
    (hnil : s.burst = []) : Candidate cfg (g, s) where
  length_lt := by rw [hnil]; decide
  short q hq := absurd (hnil ▸ hq) List.not_mem_nil
  gaps := by rw [hnil]; exact .nil
  window q hq := absurd (hnil ▸ hq) (by simp)
  first q hq := absurd (hnil ▸ hq) (by simp)
  first_of_nil hp := absurd (hup.symm.trans hp) Bool.false_ne_true
  last_gap hp := absurd (hup.symm.trans hp) Bool.false_ne_true

/-- The observer's list of presses stays as it is, and so does the classifier's first press. -/
theorem Candidate.of_same (h : Candidate cfg p) {g : GestureState} {s : Seen}
    (hburst : s.burst = p.2.burst) (hfirst : g.firstPress = p.1.firstPress)
    (hat : g.pressAt = p.1.pressAt) (hpressed : g.pressed = p.1.pressed) :
    Candidate cfg (g, s) where
  length_lt := hburst ▸ h.length_lt
  short := hburst ▸ h.short
  gaps := hburst ▸ h.gaps
  window := hburst ▸ h.window
  first := by
    rw [hburst, hfirst]
    exact h.first
  first_of_nil := by
    rw [hpressed, hburst, hfirst, hat]
    exact h.first_of_nil
  last_gap := by
    rw [hpressed, hburst, hat]
    exact h.last_gap

namespace PatternInv

/-- Nothing has been pressed yet. -/
theorem start (cfg : GestureCfg) (now : ℤ) : PatternInv cfg (gestureStart cfg now) where
  toGestureInv := GestureInv.start cfg now
  presses_eq := rfl
  last_release q hq := absurd hq (by simp [gestureStart, Seen.start])
  candidate _ := .of_nil rfl rfl
  recognised := ⟨rfl, fun b hb ↦ absurd hb List.not_mem_nil⟩

/-- Of a sequence that could still be a pattern, the counter is the number of presses. -/
theorem presses_eq_length (h : PatternInv cfg p) (hs : p.1.spoiled = false) :
    p.1.presses.toNat = p.2.burst.length := by
  rw [h.presses_eq, Nat.mod_eq_of_lt (h.candidate hs).length_lt]

theorem presses_eq_zero_iff (h : PatternInv cfg p) (hs : p.1.spoiled = false) :
    p.1.presses = 0 ↔ p.2.burst = [] := by
  rw [← List.length_eq_zero_iff, ← h.presses_eq_length hs, ← UInt32.toNat_inj]
  rfl

/-- Gestures are noted with the sequence that they end. -/
theorem recognised_append {s : Seen} (h : Recognised cfg s) {b : Burst}
    (hb : (b.outcome = .provision → Unbroken cfg cfg.pressCount b) ∧
      (b.outcome = .identify → Unbroken cfg cfg.identifyCount b)) {s' : Seen}
    (hended : s'.ended = s.ended ++ [b])
    (hgestures : s'.gestures = s.gestures ++ if Seen.Counts b.outcome then [b.outcome] else []) :
    Recognised cfg s' := by
  rw [Recognised, hended, hgestures, h.1, List.map_append, List.filter_append]
  refine ⟨?_, List.forall_mem_append.2 ⟨h.2, List.forall_mem_singleton.2 hb⟩⟩
  rcases Decidable.em (Seen.Counts b.outcome) with hc | hc
  · simp [hc]
  · simp [hc]

theorem recognised_same {s s' : Seen} (h : Recognised cfg s) (hended : s'.ended = s.ended)
    (hgestures : s'.gestures = s.gestures ++ []) : Recognised cfg s' := by
  rw [Recognised, hended, hgestures, List.append_nil]
  exact h

theorem press (h : PatternInv cfg p) (hnow : p.2.now ≤ t) (hok : InTime p (.press, t)) :
    PatternInv cfg ((gesturePress p.1 t).2, p.2.after p.1.cfg .press t (gesturePress p.1 t).1) := by
  have hinv := h.toGestureInv.press hnow
  cases hp : p.1.pressed with
  | true =>
    rw [gesturePress_of_down hp, Seen.after_press_of_down (h.down_of_pressed hp)] at hinv ⊢
    exact ⟨hinv, h.presses_eq, h.last_release, fun hs ↦ (h.candidate hs).of_same rfl rfl rfl rfl,
      recognised_same h.recognised rfl rfl⟩
  | false =>
    rw [gesturePress_of_up hp, Seen.after_press_of_up (h.down_of_up hp)] at hinv ⊢
    refine ⟨hinv, h.presses_eq, h.last_release, fun hs ↦ ?_, recognised_same h.recognised rfl rfl⟩
    have hs : p.1.spoiled = false := hs
    have hc := h.candidate hs
    have hnil := h.presses_eq_zero_iff hs
    refine { hc with first := ?_, first_of_nil := ?_, last_gap := ?_ }
    · -- a sequence that has begun keeps its first press
      intro q hq
      have hne : p.1.presses ≠ 0 := fun hzero ↦ by simp [hnil.1 hzero] at hq
      exact (hc.first q hq).trans (if_neg hne).symm
    · exact fun _ hburst ↦ if_pos (hnil.2 hburst)
    · intro _ q hq
      have hne : p.1.presses ≠ 0 := fun hzero ↦ by simp [hnil.1 hzero] at hq
      have hlast := h.last_release q hq
      rcases hok with hp' | hzero | hs' | hgap
      · exact absurd (hp.symm.trans hp') Bool.false_ne_true
      · exact absurd hzero hne
      · exact absurd (hs.symm.trans hs') Bool.false_ne_true
      · rw [hlast, ← h.cfg_eq]
        exact hgap

/-- The first press of a sequence that the present one joins, which may be this one. -/
theorem head_concat (hc : Candidate cfg p) (hp : p.1.pressed = true) (up : ℤ) :
    ∀ q ∈ (p.2.burst ++ [Press.mk p.1.pressAt up]).head?, q.down = p.1.firstPress := by
  rw [List.head?_append]
  intro q hq
  cases hb : p.2.burst with
  | nil =>
    rw [hb] at hq
    rw [← Option.some.inj hq]
    exact (hc.first_of_nil hp hb).symm
  | cons r rs =>
    rw [hb] at hq
    exact hc.first q (by rw [hb]; exact hq)

/-- A press that was not spoiled joins the sequence. -/
theorem candidate_release (h : PatternInv cfg p) (hs : p.1.spoiled = false)
    (hp : p.1.pressed = true) (he : ¬ p.1.Erases t) (hsp : ¬ p.1.Spoils t)
    (hroom : p.1.presses ≠ 0xffffffff) {g : GestureState} {s : Seen}
    (hburst : s.burst = p.2.burst ++ [⟨p.1.pressAt, t⟩]) (hup : g.pressed = false)
    (hfirst : g.firstPress = p.1.firstPress) : Candidate cfg (g, s) := by
  have hc := h.candidate hs
  obtain ⟨hshort, hrest⟩ := not_or.1 hsp
  have hwindow := Int.not_lt.1 (not_or.1 hrest).2
  have hlast : s.burst.getLast? = some ⟨p.1.pressAt, t⟩ := by rw [hburst, List.getLast?_concat]
  have hhead : ∀ q ∈ s.burst.head?, q.down = p.1.firstPress := by
    rw [hburst]
    exact head_concat hc hp t
  refine ⟨?_, ?_, ?_, ?_, ?_, ?_, ?_⟩
  · have hlt : p.1.presses.toNat ≠ 4294967295 := fun heq ↦ hroom (UInt32.toNat_inj.1 heq)
    have hlen := h.presses_eq_length hs
    have hbound := hc.length_lt
    -- the count has not wrapped
    show s.burst.length < 4294967296
    rw [hburst, List.length_append, List.length_singleton]
    omega
  · show ∀ q ∈ s.burst, _
    rw [hburst]
    refine List.forall_mem_append.2 ⟨hc.short, List.forall_mem_singleton.2 ⟨?_, fun hon ↦ ?_⟩⟩
    · rw [← h.cfg_eq]
      exact Int.not_le.1 hshort
    · rw [← h.cfg_eq] at hon ⊢
      exact Int.not_le.1 fun hlong ↦ he (Or.inr ⟨hon, hlong⟩)
  · show s.burst.IsChain _
    rw [hburst, List.isChain_append]
    refine ⟨hc.gaps, .singleton _, fun q hq r hr ↦ ?_⟩
    rw [← Option.some.inj hr]
    exact hc.last_gap hp q hq
  · intro q hq r hr
    obtain rfl := Option.some.inj (hlast.symm.trans hr)
    rw [hhead q hq, ← h.cfg_eq]
    exact hwindow
  · intro q hq
    exact (hhead q hq).trans hfirst.symm
  · exact fun hp' ↦ absurd (hup.symm.trans hp') Bool.false_ne_true
  · exact fun hp' ↦ absurd (hup.symm.trans hp') Bool.false_ne_true

theorem release (h : PatternInv cfg p) (hnow : p.2.now ≤ t) (hok : InTime p (.release, t)) :
    PatternInv cfg
      ((gestureRelease p.1 t).2, p.2.after p.1.cfg .release t (gestureRelease p.1 t).1) := by
  have hinv := h.toGestureInv.release hnow
  cases hp : p.1.pressed with
  | false =>
    rw [gestureRelease_of_up hp, Seen.after_release_of_up (h.down_of_up hp)] at hinv ⊢
    exact ⟨hinv, h.presses_eq, h.last_release, fun hs ↦ (h.candidate hs).of_same rfl rfl rfl rfl,
      recognised_same h.recognised rfl rfl⟩
  | true =>
    have hdown := h.down_of_pressed hp
    rcases Decidable.em (p.1.Erases t) with he | he
    · rw [gestureRelease_of_erases hp he, Seen.after_release_erase hdown] at hinv ⊢
      refine ⟨hinv, rfl, fun q hq ↦ absurd hq (by simp), fun _ ↦ .of_nil rfl rfl, ?_⟩
      exact recognised_append h.recognised ⟨fun hf ↦ absurd hf (by simp),
        fun hf ↦ absurd hf (by simp)⟩ rfl rfl
    · rw [gestureRelease_of_not_erases hp he, Seen.after_release_none hdown] at hinv ⊢
      refine ⟨hinv, ?_, fun q hq ↦ ?_, fun hs ↦ ?_, recognised_same h.recognised rfl rfl⟩
      · have hcount := h.presses_eq
        show (p.1.presses + 1).toNat = _
        rw [UInt32.toNat_add, List.length_append, List.length_singleton]
        show (p.1.presses.toNat + 1) % 4294967296 = _
        omega
      · rw [List.getLast?_concat] at hq
        rw [← Option.some.inj hq]
      · obtain ⟨hs, hsp⟩ := Bool.or_eq_false_iff.1 hs
        have hroom := (hok.resolve_left (by simp [hp])).resolve_left (by simp [hs])
        exact h.candidate_release hs hp he (of_decide_eq_false hsp) hroom rfl rfl rfl

/-- What the classifier makes of a sequence that ends. -/
theorem unbroken_of_outcome (h : PatternInv cfg p) (he : p.1.Ends t) :
    (p.1.outcome = .provision → Unbroken cfg cfg.pressCount ⟨p.2.burst, t, p.1.outcome⟩) ∧
      (p.1.outcome = .identify → Unbroken cfg cfg.identifyCount ⟨p.2.burst, t, p.1.outcome⟩) := by
  have hunbroken : ∀ n, p.1.spoiled = false → p.1.presses = n →
      Unbroken cfg n ⟨p.2.burst, t, p.1.outcome⟩ := by
    intro n hs hn
    have hc := h.candidate hs
    refine ⟨?_, hc.short, hc.gaps, hc.window, fun q hq ↦ ?_⟩
    · rw [← hn, h.presses_eq_length hs]
    · rw [h.last_release q hq, ← h.cfg_eq]
      exact he.2
  constructor <;> intro hout
  · obtain ⟨hs, hn⟩ := outcome_eq_provision hout
    exact hunbroken _ hs (hn.trans (by rw [h.cfg_eq]))
  · obtain ⟨hs, hn⟩ := outcome_eq_identify hout
    exact hunbroken _ hs (hn.trans (by rw [h.cfg_eq]))

/-- A sequence whose end the classifier finds is there, and the observer finds its end as well. -/
theorem quiet_of_ends (h : PatternInv cfg p) (hp : p.1.pressed = false) (he : p.1.Ends t) :
    p.2.Quiet p.1.cfg t := by
  have hne : p.2.burst ≠ [] := by
    intro hnil
    have hzero := h.presses_eq
    rw [hnil] at hzero
    exact UInt32.pos_iff_ne_zero.1 he.1 (UInt32.toNat_inj.1 hzero)
  have hlast := List.getLast?_eq_some_getLast hne
  exact ⟨h.down_of_up hp, _, hlast, h.last_release _ hlast ▸ he.2⟩

/-- When the classifier misses the end of a sequence, its counter has come around to zero, and the
sequence is spoiled. -/
theorem spoiled_of_quiet (h : PatternInv cfg p) (he : ¬ p.1.Ends t) (hq : p.2.Quiet p.1.cfg t) :
    p.1.spoiled = true ∧ p.1.presses = 0 := by
  obtain ⟨-, last, hlast, hquiet⟩ := hq
  have hzero : p.1.presses = 0 := by
    by_contra hne
    exact he ⟨UInt32.pos_iff_ne_zero.2 hne, h.last_release last hlast ▸ hquiet⟩
  refine ⟨?_, hzero⟩
  by_contra hs
  rw [(h.presses_eq_zero_iff (Bool.eq_false_of_not_eq_true hs)).1 hzero] at hlast
  exact absurd hlast (by simp)

theorem tick (h : PatternInv cfg p) (hnow : p.2.now ≤ t) :
    PatternInv cfg ((gestureTick p.1 t).2, p.2.after p.1.cfg .tick t (gestureTick p.1 t).1) := by
  have hinv := h.toGestureInv.tick hnow
  cases hp : p.1.pressed with
  | true =>
    have hq : ¬ p.2.Quiet p.1.cfg t := fun hq ↦
      absurd ((h.down_of_pressed hp).symm.trans hq.1) (by simp)
    rcases Decidable.em (p.1.Arms t) with ha | ha
    · rw [gestureTick_of_arms hp ha, Seen.after_tick_of_not_quiet hq] at hinv ⊢
      exact ⟨hinv, h.presses_eq, h.last_release, fun hs ↦ (h.candidate hs).of_same rfl rfl rfl rfl,
        recognised_same h.recognised rfl rfl⟩
    · rw [gestureTick_of_not_arms hp ha, Seen.after_tick_of_not_quiet hq] at hinv ⊢
      exact ⟨hinv, h.presses_eq, h.last_release, fun hs ↦ (h.candidate hs).of_same rfl rfl rfl rfl,
        recognised_same h.recognised rfl rfl⟩
  | false =>
    rcases Decidable.em (p.1.Ends t) with he | he
    · rw [gestureTick_of_ends hp he, Seen.after_tick_of_quiet (h.quiet_of_ends hp he)] at hinv ⊢
      exact ⟨hinv, rfl, fun q hq ↦ absurd hq (by simp), fun _ ↦ .of_nil hp rfl,
        recognised_append h.recognised (h.unbroken_of_outcome he) rfl rfl⟩
    · rw [gestureTick_of_not_ends hp he] at hinv ⊢
      rcases Decidable.em (p.2.Quiet p.1.cfg t) with hq | hq
      · obtain ⟨hs, hzero⟩ := h.spoiled_of_quiet he hq
        rw [Seen.after_tick_of_quiet hq] at hinv ⊢
        refine ⟨hinv, congrArg UInt32.toNat hzero, fun q hq ↦ absurd hq (by simp),
          fun hs' ↦ absurd (hs'.symm.trans hs) Bool.false_ne_true, ?_⟩
        exact recognised_append h.recognised ⟨fun hf ↦ absurd hf (by simp),
          fun hf ↦ absurd hf (by simp)⟩ rfl rfl
      · rw [Seen.after_tick_of_not_quiet hq] at hinv ⊢
        exact ⟨hinv, h.presses_eq, h.last_release,
          fun hs ↦ (h.candidate hs).of_same rfl rfl rfl rfl, recognised_same h.recognised rfl rfl⟩

theorem step {a : GestureCall × ℤ} (h : PatternInv cfg p) (hok : InTime p a)
    (hst : gestureStep p a = some q) : PatternInv cfg q := by
  obtain ⟨c, t⟩ := a
  obtain ⟨hnow, rfl⟩ := gestureStep_eq_some.1 hst
  cases c with
  | press => exact h.press hnow hok
  | release => exact h.release hnow hok
  | tick => exact h.tick hnow

end PatternInv

/-- **Patterns are recognised from unbroken bursts**, in every run in which no press that joins a
sequence comes after the quiet time. -/
theorem recognised_of_inTime (cfg : GestureCfg) (now : ℤ) (calls : List (GestureCall × ℤ))
    (h : AllSteps gestureStep InTime (gestureStart cfg now) calls) :
    Throughout gestureStep (fun p ↦ Recognised cfg p.2) (gestureStart cfg now) calls :=
  (throughout_of_invariant (fun _ _ _ hp hok ↦ PatternInv.step hp hok) (PatternInv.start cfg now)
    h).imp fun _ hp ↦ hp.recognised

theorem recognised_of_inTime_three : Throughout gestureStep
    (fun p ↦ Recognised defaultGestures p.2) (gestureStart defaultGestures 0)
    [(.press, 100), (.release, 250), (.press, 500), (.release, 650), (.press, 900),
      (.release, 1050), (.tick, 1750)] :=
  recognised_of_inTime _ _ _ (by decide)

end ThinEdge.Common
