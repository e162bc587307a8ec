import Mathlib.Data.Int.Notation
import Mathlib.Order.Lattice
import Mathlib.Tactic.Common
import ThinEdge.Lib.Transition

/-!
# The button: gestures

The classifier of `lib/common/button_gesture.c`, which is fed with the edges of the button and with
ticks, and says when a pattern of presses or the erase hold has been seen. `Seen` is what an
observer of the calls knows without looking into the classifier: since when the button is down, and
the presses since the previous sequence ended.

`erase_is_one_hold` is the safety of the erase hold in every run. It rests on `GestureInv`, the
agreement of the classifier with the observer about the press that is going on, and on
`Alike.outputs_eq`: the times that are left over from earlier presses are never looked at again.
-/

namespace ThinEdge.Common

open Transition

/-! ### The classifier -/

/-- `enum gesture`. -/
inductive Gesture
  | none
  /-- The N-press pattern completed. -/
  | provision
  /-- A hold has passed the erase threshold. -/
  | eraseArmed
  /-- An armed erase hold was released. -/
  | erase
  /-- The identify press pattern completed. -/
  | identify
  deriving DecidableEq, Repr

/-- `struct gesture_cfg`. -/
structure GestureCfg where
  pressCount : UInt32
  identifyCount : UInt32
  windowMs : UInt32
  shortMaxMs : UInt32
  quietMs : UInt32
  eraseMs : UInt32
  deriving DecidableEq, Repr

/-- `struct gesture_state`. -/
structure GestureState where
  cfg : GestureCfg
  pressed : Bool
  eraseArmed : Bool
  spoiled : Bool
  presses : UInt32
  firstPress : ℤ
  pressAt : ℤ
  lastRelease : ℤ
  deriving DecidableEq, Repr

/-- `reset_sequence`. -/
def GestureState.resetSequence (g : GestureState) : GestureState :=
  { g with presses := 0, spoiled := false, eraseArmed := false }

/-- `erase_on`. -/
def GestureState.EraseOn (g : GestureState) : Prop := 0 < g.cfg.eraseMs

instance (g : GestureState) : Decidable g.EraseOn := inferInstanceAs (Decidable (_ < _))

/-- `gesture_init`. -/
def gestureInit (cfg : GestureCfg) : GestureState := ⟨cfg, false, false, false, 0, 0, 0, 0⟩

/-- `gesture_press`. -/
def gesturePress (g : GestureState) (nowMs : ℤ) : Gesture × GestureState :=
  if g.pressed then (.none, g)
  else
    let g := { g with pressed := true, pressAt := nowMs }
    let g := if g.presses = 0 then { g with firstPress := nowMs } else g
    (.none, g)

/-- `gesture_release`. -/
def gestureRelease (g : GestureState) (nowMs : ℤ) : Gesture × GestureState :=
  if ¬ g.pressed then (.none, g)
  else
    let g := { g with pressed := false }
    let held := nowMs - g.pressAt
    if g.eraseArmed ∨ (g.EraseOn ∧ (g.cfg.eraseMs.toNat : ℤ) ≤ held) then (.erase, g.resetSequence)
    else
      -- a hold that is neither short nor an erase is never a pattern
      let g := if (g.cfg.shortMaxMs.toNat : ℤ) ≤ held then { g with spoiled := true } else g
      let g := { g with presses := g.presses + 1, lastRelease := nowMs }
      let g := if max g.cfg.pressCount g.cfg.identifyCount < g.presses ∨
          (g.cfg.windowMs.toNat : ℤ) < nowMs - g.firstPress then { g with spoiled := true } else g
      (.none, g)

/-- `gesture_tick`. -/
def gestureTick (g : GestureState) (nowMs : ℤ) : Gesture × GestureState :=
  if g.pressed then
    if g.EraseOn ∧ ¬ g.eraseArmed ∧ (g.cfg.eraseMs.toNat : ℤ) ≤ nowMs - g.pressAt then
      (.eraseArmed, { g with eraseArmed := true })
    else (.none, g)
  else if 0 < g.presses ∧ (g.cfg.quietMs.toNat : ℤ) ≤ nowMs - g.lastRelease then
    let n := if g.spoiled then 0 else g.presses
    let g := g.resetSequence
    if n = 0 then (.none, g)
    else if n = g.cfg.pressCount then (.provision, g)
    else if n = g.cfg.identifyCount then (.identify, g)
    else (.none, g)
  else (.none, g)

/-- The calls. -/
inductive GestureCall
  | press
  | release
  | tick
  deriving DecidableEq, Repr

/-- A call at a time. -/
def GestureState.call (g : GestureState) : GestureCall → ℤ → Gesture × GestureState
  | .press => gesturePress g
  | .release => gestureRelease g
  | .tick => gestureTick g

/-! ### What an observer sees -/

/-- A press of the button, from its down edge to its up edge. -/
structure Press where
  down : ℤ
  up : ℤ
  deriving DecidableEq, Repr

/-- A sequence of presses that has ended, and how. -/
structure Burst where
  presses : List Press
  endedAt : ℤ
  outcome : Gesture
  deriving DecidableEq, Repr

/-- What has been seen of the calls. -/
structure Seen where
  /-- The time of the last call. -/
  now : ℤ
  /-- Since when the button has been down. -/
  down : Option ℤ
  /-- How often the erase was armed during the press that is going on. -/
  armed : ℕ
  /-- The presses since the previous sequence ended. -/
  burst : List Press
  /-- The sequences that have ended. -/
  ended : List Burst
  /-- The gestures that were returned, an armed erase apart. -/
  gestures : List Gesture
  deriving DecidableEq, Repr

namespace Seen

/-- Nothing has been called yet. -/
def start (now : ℤ) : Seen := ⟨now, none, 0, [], [], []⟩

/-- No press for the quiet time, which ends a sequence. -/
def Quiet (cfg : GestureCfg) (s : Seen) (now : ℤ) : Prop :=
  s.down = none ∧ ∃ p ∈ s.burst.getLast?, (cfg.quietMs.toNat : ℤ) ≤ now - p.up

instance (cfg : GestureCfg) (s : Seen) (now : ℤ) : Decidable (s.Quiet cfg now) :=
  inferInstanceAs (Decidable (_ ∧ _))

/-- A gesture that ends a sequence. -/
def Counts (out : Gesture) : Prop := out = .provision ∨ out = .identify ∨ out = .erase

instance (out : Gesture) : Decidable (Counts out) := inferInstanceAs (Decidable (_ ∨ _ ∨ _))

/-- After a call that returned `out`. -/
def after (cfg : GestureCfg) (s : Seen) (c : GestureCall) (now : ℤ) (out : Gesture) : Seen :=
  let s := { s with now := now, gestures := s.gestures ++ if Counts out then [out] else [] }
  match c with
  | .press => if s.down = none then { s with down := some now, armed := 0 } else s
  | .release =>
    match s.down with
    | none => s
    | some down =>
      let burst := s.burst ++ [⟨down, now⟩]
      if out = .erase then
        { s with down := none, armed := 0, burst := [], ended := s.ended ++ [⟨burst, now, out⟩] }
      else { s with down := none, armed := 0, burst := burst }
  | .tick =>
    if s.Quiet cfg now then
      { s with burst := [], ended := s.ended ++ [⟨s.burst, now, out⟩] }
    else if out = .eraseArmed then { s with armed := s.armed + 1 } else s

end Seen

/-- A call, at a time that is not before that of the previous one. -/
def gestureStep (p : GestureState × Seen) (a : GestureCall × ℤ) : Option (GestureState × Seen) :=
  if a.2 < p.2.now then none
  else
    let (out, g) := p.1.call a.1 a.2
    some (g, p.2.after p.1.cfg a.1 a.2 out)

/-- A classifier that has just been set up, at some time. -/
def gestureStart (cfg : GestureCfg) (now : ℤ) : GestureState × Seen :=
  (gestureInit cfg, .start now)

/-! ### What each call does -/

namespace GestureState

/-- A release erases: the press has been armed, or it has lasted as long as an erase takes. -/
def Erases (g : GestureState) (now : ℤ) : Prop :=
  g.eraseArmed = true ∨ (g.EraseOn ∧ (g.cfg.eraseMs.toNat : ℤ) ≤ now - g.pressAt)

/-- A tick arms the erase. -/
def Arms (g : GestureState) (now : ℤ) : Prop :=
  g.EraseOn ∧ ¬ g.eraseArmed = true ∧ (g.cfg.eraseMs.toNat : ℤ) ≤ now - g.pressAt

/-- A tick finds that the sequence has ended. -/
def Ends (g : GestureState) (now : ℤ) : Prop :=
  0 < g.presses ∧ (g.cfg.quietMs.toNat : ℤ) ≤ now - g.lastRelease

/-- A release makes the sequence one that is never a pattern. -/
def Spoils (g : GestureState) (now : ℤ) : Prop :=
  (g.cfg.shortMaxMs.toNat : ℤ) ≤ now - g.pressAt ∨
    max g.cfg.pressCount g.cfg.identifyCount < g.presses + 1 ∨
    (g.cfg.windowMs.toNat : ℤ) < now - g.firstPress

instance (g : GestureState) (now : ℤ) : Decidable (g.Erases now) :=
  inferInstanceAs (Decidable (_ ∨ _))

instance (g : GestureState) (now : ℤ) : Decidable (g.Arms now) :=
  inferInstanceAs (Decidable (_ ∧ _))

instance (g : GestureState) (now : ℤ) : Decidable (g.Ends now) :=
  inferInstanceAs (Decidable (_ ∧ _))

instance (g : GestureState) (now : ℤ) : Decidable (g.Spoils now) :=
  inferInstanceAs (Decidable (_ ∨ _ ∨ _))

/-- What a sequence that has ended is. -/
def outcome (g : GestureState) : Gesture :=
  if g.spoiled then .none
  else if g.presses = g.cfg.pressCount then .provision
  else if g.presses = g.cfg.identifyCount then .identify
  else .none

end GestureState

variable {g g' : GestureState} {t : ℤ}

/-- A press while the button is down is ignored. -/
theorem gesturePress_of_down (h : g.pressed = true) : gesturePress g t = (.none, g) := if_pos h

/-- A press notes its time, and as the first of its sequence also when that began. -/
theorem gesturePress_of_up (h : g.pressed = false) : gesturePress g t = (.none, { g with
    pressed := true, pressAt := t, firstPress := if g.presses = 0 then t else g.firstPress }) := by
  rw [gesturePress, if_neg (by simp [h])]
  dsimp only
  split <;> rfl

/-- A release without a press is ignored. -/
theorem gestureRelease_of_up (h : g.pressed = false) : gestureRelease g t = (.none, g) :=
  if_pos (by simp [h])

/-- A hold that is long enough erases and resets the sequence. -/
theorem gestureRelease_of_erases (h : g.pressed = true) (he : g.Erases t) :
    gestureRelease g t = (.erase, { g.resetSequence with pressed := false }) := by
  rw [gestureRelease, if_neg (by simp [h])]
  exact if_pos he

/-- Any other release counts the press, and may spoil the sequence. -/
theorem gestureRelease_of_not_erases (h : g.pressed = true) (he : ¬ g.Erases t) :
    gestureRelease g t = (.none, { g with
      pressed := false, presses := g.presses + 1, lastRelease := t
      spoiled := g.spoiled || decide (g.Spoils t) }) := by
  have hfalse : ¬ (g.eraseArmed = true ∨
    g.EraseOn ∧ (g.cfg.eraseMs.toNat : ℤ) ≤ t - g.pressAt) := he
  rw [gestureRelease, if_neg (by simp [h])]
  refine (if_neg hfalse).trans (congrArg (Prod.mk Gesture.none) ?_)
  rcases Decidable.em ((g.cfg.shortMaxMs.toNat : ℤ) ≤ t - g.pressAt) with hlong | hshort
  · simp only [GestureState.Spoils, hlong, if_true, true_or, decide_true, Bool.or_true]
    split <;> rfl
  · simp only [GestureState.Spoils, hshort, if_false, false_or]
    split
    · next h' => rw [decide_eq_true h', Bool.or_true]
    · next h' => rw [decide_eq_false h', Bool.or_false]

/-- The tick that finds the press long enough arms the erase. -/
theorem gestureTick_of_arms (h : g.pressed = true) (ha : g.Arms t) :
    gestureTick g t = (.eraseArmed, { g with eraseArmed := true }) := by
  rw [gestureTick, if_pos h]
  exact if_pos ha

/-- While the button is down, a tick does nothing else. -/
theorem gestureTick_of_not_arms (h : g.pressed = true) (ha : ¬ g.Arms t) :
    gestureTick g t = (.none, g) := by
  rw [gestureTick, if_pos h]
  exact if_neg ha

/-- The tick after the quiet time says what the sequence was. -/
theorem gestureTick_of_ends (h : g.pressed = false) (he : g.Ends t) :
    gestureTick g t = (g.outcome, g.resetSequence) := by
  have hne : g.presses ≠ 0 := (UInt32.pos_iff_ne_zero).1 he.1
  rw [gestureTick, if_neg (by simp [h])]
  refine (if_pos he).trans ?_
  rw [GestureState.outcome]
  rcases Bool.eq_false_or_eq_true g.spoiled with hspoiled | hspoiled
  · simp [hspoiled]
  · simp only [hspoiled, if_neg hne, Bool.false_eq_true, if_false, GestureState.resetSequence]
    split
    · rfl
    · split <;> rfl

/-- Before that, a tick with the button up does nothing. -/
theorem gestureTick_of_not_ends (h : g.pressed = false) (he : ¬ g.Ends t) :
    gestureTick g t = (.none, g) := by
  rw [gestureTick, if_neg (by simp [h])]
  exact if_neg he

/-- The end of a sequence is never an erase. -/
theorem outcome_ne (g : GestureState) : g.outcome ≠ .erase ∧ g.outcome ≠ .eraseArmed := by
  rw [GestureState.outcome]
  split
  · decide
  · split
    · decide
    · split <;> decide

/-- Provisioning takes as many short presses as the configuration says. -/
theorem outcome_eq_provision (h : g.outcome = .provision) :
    g.spoiled = false ∧ g.presses = g.cfg.pressCount := by
  rw [GestureState.outcome] at h
  split at h
  · exact absurd h (by simp)
  · next hs =>
    split at h
    · next hn => exact ⟨Bool.eq_false_of_not_eq_true hs, hn⟩
    · split at h <;> exact absurd h (by simp)

/-- So does identifying. -/
theorem outcome_eq_identify (h : g.outcome = .identify) :
    g.spoiled = false ∧ g.presses = g.cfg.identifyCount := by
  rw [GestureState.outcome] at h
  split at h
  · exact absurd h (by simp)
  · next hs =>
    split at h
    · exact absurd h (by simp)
    · split at h
      · next hn => exact ⟨Bool.eq_false_of_not_eq_true hs, hn⟩
      · exact absurd h (by simp)

/-- What a release returns. -/
theorem gestureRelease_eq_erase :
    (gestureRelease g t).1 = .erase ↔ g.pressed = true ∧ g.Erases t := by
  cases hp : g.pressed with
  | true =>
    rcases Decidable.em (g.Erases t) with he | he
    · rw [gestureRelease_of_erases hp he]
      exact ⟨fun _ ↦ ⟨rfl, he⟩, fun _ ↦ rfl⟩
    · rw [gestureRelease_of_not_erases hp he]
      exact ⟨fun hf ↦ absurd hf (by simp), fun hf ↦ absurd hf.2 he⟩
  | false =>
    rw [gestureRelease_of_up hp]
    exact ⟨fun hf ↦ absurd hf (by simp), fun hf ↦ absurd hf.1 (by simp)⟩

/-- What arms the erase. -/
theorem call_eq_eraseArmed {c : GestureCall} (hc : (g.call c t).1 = .eraseArmed) :
    c = .tick ∧ g.pressed = true ∧ g.Arms t := by
  cases c with
  | press =>
    cases hp : g.pressed with
    | true => simp [GestureState.call, gesturePress_of_down hp] at hc
    | false => simp [GestureState.call, gesturePress_of_up hp] at hc
  | release =>
    cases hp : g.pressed with
    | true =>
      rcases Decidable.em (g.Erases t) with he | he
      · simp [GestureState.call, gestureRelease_of_erases hp he] at hc
      · simp [GestureState.call, gestureRelease_of_not_erases hp he] at hc
    | false => simp [GestureState.call, gestureRelease_of_up hp] at hc
  | tick =>
    cases hp : g.pressed with
    | true =>
      rcases Decidable.em (g.Arms t) with ha | ha
      · exact ⟨rfl, rfl, ha⟩
      · simp [GestureState.call, gestureTick_of_not_arms hp ha] at hc
    | false =>
      rcases Decidable.em (g.Ends t) with he | he
      · exact absurd hc (by simp [GestureState.call, gestureTick_of_ends hp he, outcome_ne])
      · simp [GestureState.call, gestureTick_of_not_ends hp he] at hc

/-- What erases. -/
theorem call_eq_erase {c : GestureCall} (hc : (g.call c t).1 = .erase) :
    c = .release ∧ g.pressed = true ∧ g.Erases t := by
  cases c with
  | press =>
    cases hp : g.pressed with
    | true => simp [GestureState.call, gesturePress_of_down hp] at hc
    | false => simp [GestureState.call, gesturePress_of_up hp] at hc
  | release => exact ⟨rfl, gestureRelease_eq_erase.1 hc⟩
  | tick =>
    cases hp : g.pressed with
    | true =>
      rcases Decidable.em (g.Arms t) with ha | ha
      · simp [GestureState.call, gestureTick_of_arms hp ha] at hc
      · simp [GestureState.call, gestureTick_of_not_arms hp ha] at hc
    | false =>
      rcases Decidable.em (g.Ends t) with he | he
      · exact absurd hc (by simp [GestureState.call, gestureTick_of_ends hp he, outcome_ne])
      · simp [GestureState.call, gestureTick_of_not_ends hp he] at hc

/-! ### What the observer notes -/

section Seen

variable {cfg : GestureCfg} {s : Seen} {out : Gesture} {d : ℤ}

theorem Seen.after_press_of_down (h : s.down = some d) : s.after cfg .press t .none =
    { s with now := t, gestures := s.gestures ++ [] } := by
  simp [Seen.after, h, Seen.Counts]

/-- The observer sees a press begin. -/
theorem Seen.after_press_of_up (h : s.down = none) : s.after cfg .press t .none =
    { s with now := t, gestures := s.gestures ++ [], down := some t, armed := 0 } := by
  simp [Seen.after, h, Seen.Counts]

theorem Seen.after_release_of_up (h : s.down = none) : s.after cfg .release t .none =
    { s with now := t, gestures := s.gestures ++ [] } := by
  simp [Seen.after, h, Seen.Counts]

/-- The observer sees a press end. -/
theorem Seen.after_release_none (h : s.down = some d) : s.after cfg .release t .none =
    { s with now := t, gestures := s.gestures ++ [], down := none, armed := 0
             burst := s.burst ++ [⟨d, t⟩] } := by
  simp [Seen.after, h, Seen.Counts]

/-- An erase ends the sequence along with the press. -/
theorem Seen.after_release_erase (h : s.down = some d) : s.after cfg .release t .erase =
    { s with now := t, gestures := s.gestures ++ [.erase], down := none, armed := 0, burst := []
             ended := s.ended ++ [⟨s.burst ++ [⟨d, t⟩], t, .erase⟩] } := by
  simp [Seen.after, h, Seen.Counts]

/-- A tick that ends the sequence. -/
theorem Seen.after_tick_of_quiet (h : s.Quiet cfg t) : s.after cfg .tick t out =
    { s with now := t, gestures := s.gestures ++ if Seen.Counts out then [out] else [], burst := []
             ended := s.ended ++ [⟨s.burst, t, out⟩] } := if_pos h

/-- A tick before the quiet time can only arm the erase. -/
theorem Seen.after_tick_of_not_quiet (h : ¬ s.Quiet cfg t) : s.after cfg .tick t out =
    { s with now := t, gestures := s.gestures ++ if Seen.Counts out then [out] else []
             armed := if out = .eraseArmed then s.armed + 1 else s.armed } := by
  refine (if_neg h).trans ?_
  split <;> rfl

theorem Seen.after_now (c : GestureCall) : (s.after cfg c t out).now = t := by
  cases c with
  | press =>
    rw [Seen.after]
    dsimp only
    split <;> rfl
  | release =>
    rw [Seen.after]
    dsimp only
    split
    · rfl
    · split <;> rfl
  | tick =>
    rcases Decidable.em (s.Quiet cfg t) with h | h
    · rw [Seen.after_tick_of_quiet h]
    · rw [Seen.after_tick_of_not_quiet h]

/-- A tick notes nothing about the press that is going on, but that the erase has been armed. -/
theorem Seen.after_tick_down : (s.after cfg .tick t out).down = s.down := by
  rcases Decidable.em (s.Quiet cfg t) with h | h
  · rw [Seen.after_tick_of_quiet h]
  · rw [Seen.after_tick_of_not_quiet h]

theorem Seen.after_tick_armed (h : out ≠ .eraseArmed) :
    (s.after cfg .tick t out).armed = s.armed := by
  rcases Decidable.em (s.Quiet cfg t) with hq | hq
  · rw [Seen.after_tick_of_quiet hq]
  · rw [Seen.after_tick_of_not_quiet hq]
    exact if_neg h

/-- Each arming during a press is counted. -/
theorem Seen.after_tick_eraseArmed (h : s.down = some d) :
    (s.after cfg .tick t .eraseArmed).armed = s.armed + 1 := by
  have hq : ¬ s.Quiet cfg t := fun hq ↦ absurd (h.symm.trans hq.1) (by simp)
  rw [Seen.after_tick_of_not_quiet hq]
  rfl

end Seen

/-- A step is a call that is not before the previous one. -/
theorem gestureStep_eq_some {p q : GestureState × Seen} {a : GestureCall × ℤ} :
    gestureStep p a = some q ↔ p.2.now ≤ a.2 ∧
      q = ((p.1.call a.1 a.2).2, p.2.after p.1.cfg a.1 a.2 (p.1.call a.1 a.2).1) := by
  rw [gestureStep]
  split
  · next h => exact ⟨fun hf ↦ absurd hf (by simp), fun hf ↦ absurd h (by omega)⟩
  · next h => exact ⟨fun hs ↦ ⟨Int.not_lt.1 h, (Option.some.inj hs).symm⟩, fun hq ↦ by rw [hq.2]⟩

/-! ### The press that is going on -/

/-- The classifier and the observer agree about the press that is going on. -/
structure GestureInv (cfg : GestureCfg) (p : GestureState × Seen) : Prop where
  cfg_eq : p.1.cfg = cfg
  down_eq : p.2.down = if p.1.pressed then some p.1.pressAt else none
  armed_eq : p.2.armed = if p.1.eraseArmed then 1 else 0
  /-- The erase is armed only while the press is held and has lasted as long as it takes. -/
  armed_held : p.1.eraseArmed = true → p.1.pressed = true ∧ 0 < cfg.eraseMs ∧
    (cfg.eraseMs.toNat : ℤ) ≤ p.2.now - p.1.pressAt

namespace GestureInv

variable {cfg : GestureCfg} {p q : GestureState × Seen} {a : GestureCall × ℤ}

theorem start (cfg : GestureCfg) (now : ℤ) : GestureInv cfg (gestureStart cfg now) :=
  ⟨rfl, rfl, rfl, fun h ↦ absurd h (by simp [gestureStart, gestureInit])⟩

/-- While the classifier has the button down, the observer saw it go down then. -/
theorem down_of_pressed (h : GestureInv cfg p) (hp : p.1.pressed = true) :
    p.2.down = some p.1.pressAt := by rw [h.down_eq, if_pos hp]

theorem down_of_up (h : GestureInv cfg p) (hp : p.1.pressed = false) : p.2.down = none := by
  rw [h.down_eq, hp]
  rfl

/-- Nothing is armed between two presses. -/
theorem not_armed_of_up (h : GestureInv cfg p) (hp : p.1.pressed = false) :
    p.1.eraseArmed = false := by
  rw [← Bool.not_eq_true]
  exact fun harmed ↦ absurd (h.armed_held harmed).1 (by simp [hp])

/-- The call leaves the press that is going on as it is. -/
theorem keep (h : GestureInv cfg p) {g : GestureState} {s : Seen} (hcfg : g.cfg = p.1.cfg)
    (hpressed : g.pressed = p.1.pressed) (hat : g.pressAt = p.1.pressAt)
    (harmed : g.eraseArmed = p.1.eraseArmed) (hdown : s.down = p.2.down)
    (hcount : s.armed = p.2.armed) (hnow : p.2.now ≤ s.now) : GestureInv cfg (g, s) where
  cfg_eq := hcfg.trans h.cfg_eq
  down_eq := by rw [hdown, h.down_eq, hpressed, hat]
  armed_eq := by rw [hcount, h.armed_eq, harmed]
  armed_held hg := by
    obtain ⟨hheld, hon, hlong⟩ := h.armed_held (harmed ▸ hg)
    refine ⟨hpressed ▸ hheld, hon, ?_⟩
    show _ ≤ s.now - g.pressAt
    rw [hat]
    omega

/-- The button is up after the call. -/
theorem of_up {g : GestureState} {s : Seen} (hcfg : g.cfg = cfg) (hpressed : g.pressed = false)
    (harmed : g.eraseArmed = false) (hdown : s.down = none) (hcount : s.armed = 0) :
    GestureInv cfg (g, s) where
  cfg_eq := hcfg
  down_eq := by rw [hdown, hpressed]; rfl
  armed_eq := by rw [hcount, harmed]; rfl
  armed_held hg := absurd hg (by simp [harmed])

/-- A press keeps the agreement. -/
theorem press (h : GestureInv cfg p) (hnow : p.2.now ≤ t) :
    GestureInv cfg ((gesturePress p.1 t).2, p.2.after p.1.cfg .press t (gesturePress p.1 t).1) := by
  cases hp : p.1.pressed with
  | true =>
    rw [gesturePress_of_down hp, Seen.after_press_of_down (h.down_of_pressed hp)]
    exact h.keep rfl rfl rfl rfl rfl rfl hnow
  | false =>
    rw [gesturePress_of_up hp, Seen.after_press_of_up (h.down_of_up hp)]
    have harmed := h.not_armed_of_up hp
    exact ⟨h.cfg_eq, rfl, by rw [harmed]; rfl, fun hg ↦ absurd hg (by simp [harmed])⟩

/-- A release keeps it, whether it erases or not. -/
theorem release (h : GestureInv cfg p) (hnow : p.2.now ≤ t) : GestureInv cfg
    ((gestureRelease p.1 t).2, p.2.after p.1.cfg .release t (gestureRelease p.1 t).1) := by
  cases hp : p.1.pressed with
  | true =>
    have hdown := h.down_of_pressed hp
    rcases Decidable.em (p.1.Erases t) with he | he
    · rw [gestureRelease_of_erases hp he, Seen.after_release_erase hdown]
      exact of_up h.cfg_eq rfl rfl rfl rfl
    · have harmed : p.1.eraseArmed = false := Bool.not_eq_true _ ▸ fun harmed ↦ he (Or.inl harmed)
      rw [gestureRelease_of_not_erases hp he, Seen.after_release_none hdown]
      exact of_up h.cfg_eq rfl harmed rfl rfl
  | false =>
    rw [gestureRelease_of_up hp, Seen.after_release_of_up (h.down_of_up hp)]
    exact h.keep rfl rfl rfl rfl rfl rfl hnow

/-- A tick keeps it: it arms, ends the sequence, or does nothing. -/
theorem tick (h : GestureInv cfg p) (hnow : p.2.now ≤ t) :
    GestureInv cfg ((gestureTick p.1 t).2, p.2.after p.1.cfg .tick t (gestureTick p.1 t).1) := by
  have hafter {out : Gesture} : (p.2.after p.1.cfg .tick t out).now = t := Seen.after_now .tick
  cases hp : p.1.pressed with
  | true =>
    rcases Decidable.em (p.1.Arms t) with ha | ha
    · rw [gestureTick_of_arms hp ha]
      have hdown := h.down_of_pressed hp
      have harmed : p.1.eraseArmed = false := Bool.not_eq_true _ ▸ ha.2.1
      refine ⟨h.cfg_eq, Seen.after_tick_down.trans h.down_eq, ?_, fun _ ↦ ⟨hp, ?_, ?_⟩⟩
      · exact (Seen.after_tick_eraseArmed hdown).trans (by rw [h.armed_eq, harmed]; rfl)
      · exact h.cfg_eq ▸ ha.1
      · rw [hafter, ← h.cfg_eq]
        exact ha.2.2
    · rw [gestureTick_of_not_arms hp ha]
      exact h.keep rfl rfl rfl rfl Seen.after_tick_down (Seen.after_tick_armed (by simp))
        (hafter.symm ▸ hnow)
  | false =>
    have harmed := h.not_armed_of_up hp
    have hcount : p.2.armed = 0 := by rw [h.armed_eq, harmed]; rfl
    have hdown := h.down_of_up hp
    rcases Decidable.em (p.1.Ends t) with he | he
    · rw [gestureTick_of_ends hp he]
      exact of_up h.cfg_eq hp rfl (Seen.after_tick_down.trans hdown)
        ((Seen.after_tick_armed (outcome_ne _).2).trans hcount)
    · rw [gestureTick_of_not_ends hp he]
      exact of_up h.cfg_eq hp harmed (Seen.after_tick_down.trans hdown)
        ((Seen.after_tick_armed (by simp)).trans hcount)

/-- **The step lemma** of the agreement. -/
theorem step (h : GestureInv cfg p) (hst : gestureStep p a = some q) : GestureInv cfg q := by
  obtain ⟨c, t⟩ := a
  obtain ⟨hnow, rfl⟩ := gestureStep_eq_some.1 hst
  cases c with
  | press => exact h.press hnow
  | release => exact h.release hnow
  | tick => exact h.tick hnow

end GestureInv

/-! ### Times that are left over -/

/-- What the classifier returns, call after call. -/
def GestureState.outputs : GestureState → List (GestureCall × ℤ) → List Gesture
  | _, [] => []
  | g, (c, t) :: calls => (g.call c t).1 :: (g.call c t).2.outputs calls

/-- Two states that differ only in times that no call will look at. -/
structure Alike (g g' : GestureState) : Prop where
  cfg : g.cfg = g'.cfg
  pressed : g.pressed = g'.pressed
  eraseArmed : g.eraseArmed = g'.eraseArmed
  spoiled : g.spoiled = g'.spoiled
  presses : g.presses = g'.presses
  pressAt : g.pressed = true → g.pressAt = g'.pressAt
  firstPress : g.pressed = true ∨ g.presses ≠ 0 → g.firstPress = g'.firstPress
  lastRelease : g.presses ≠ 0 → g.lastRelease = g'.lastRelease

namespace Alike

/-- While the button is down, both see the same erase. -/
theorem erases_iff (h : Alike g g') (hp : g.pressed = true) : g.Erases t ↔ g'.Erases t := by
  rw [GestureState.Erases, GestureState.Erases, GestureState.EraseOn, GestureState.EraseOn,
    h.eraseArmed, h.cfg, h.pressAt hp]

theorem arms_iff (h : Alike g g') (hp : g.pressed = true) : g.Arms t ↔ g'.Arms t := by
  rw [GestureState.Arms, GestureState.Arms, GestureState.EraseOn, GestureState.EraseOn,
    h.eraseArmed, h.cfg, h.pressAt hp]

theorem spoils_iff (h : Alike g g') (hp : g.pressed = true) : g.Spoils t ↔ g'.Spoils t := by
  rw [GestureState.Spoils, GestureState.Spoils, h.cfg, h.presses, h.pressAt hp,
    h.firstPress (Or.inl hp)]

/-- Both see the same end of a sequence. -/
theorem ends_iff (h : Alike g g') : g.Ends t ↔ g'.Ends t := by
  rw [GestureState.Ends, GestureState.Ends, ← h.presses, ← h.cfg]
  exact and_congr_right fun hpos ↦ by rw [h.lastRelease (UInt32.pos_iff_ne_zero.1 hpos)]

/-- The sequence has been reset. -/
theorem of_reset (hcfg : g.cfg = g'.cfg) (hp : g.pressed = false) (hp' : g'.pressed = false)
    (hg : g.resetSequence = g) (hg' : g'.resetSequence = g') : Alike g g' := by
  rw [← hg, ← hg']
  exact ⟨hcfg, hp.trans hp'.symm, rfl, rfl, rfl, fun h ↦ absurd h (by
    rw [show g.resetSequence.pressed = g.pressed from rfl, hp]
    simp), fun h ↦ absurd h (by
    rw [show g.resetSequence.pressed = g.pressed from rfl, hp]
    simp [GestureState.resetSequence]), fun h ↦ absurd rfl h⟩

/-- A press returns the same, and leaves the two alike. -/
theorem press (h : Alike g g') : (gesturePress g t).1 = (gesturePress g' t).1 ∧
    Alike (gesturePress g t).2 (gesturePress g' t).2 := by
  cases hp : g.pressed with
  | true =>
    rw [gesturePress_of_down hp, gesturePress_of_down (h.pressed.symm.trans hp)]
    exact ⟨rfl, h⟩
  | false =>
    rw [gesturePress_of_up hp, gesturePress_of_up (h.pressed.symm.trans hp)]
    refine ⟨rfl, h.cfg, rfl, h.eraseArmed, h.spoiled, h.presses, fun _ ↦ rfl, fun _ ↦ ?_,
      h.lastRelease⟩
    dsimp only
    rw [← h.presses]
    split
    · rfl
    · next hne => exact h.firstPress (Or.inr hne)

/-- So does a release. -/
theorem release (h : Alike g g') : (gestureRelease g t).1 = (gestureRelease g' t).1 ∧
    Alike (gestureRelease g t).2 (gestureRelease g' t).2 := by
  cases hp : g.pressed with
  | true =>
    have hp' := h.pressed.symm.trans hp
    rcases Decidable.em (g.Erases t) with he | he
    · rw [gestureRelease_of_erases hp he, gestureRelease_of_erases hp' ((h.erases_iff hp).1 he)]
      exact ⟨rfl, of_reset h.cfg rfl rfl rfl rfl⟩
    · rw [gestureRelease_of_not_erases hp he,
        gestureRelease_of_not_erases hp' (mt (h.erases_iff hp).2 he)]
      refine ⟨rfl, h.cfg, rfl, h.eraseArmed, ?_, congrArg (· + 1) h.presses,
        fun hf ↦ absurd hf Bool.false_ne_true, fun _ ↦ h.firstPress (Or.inl hp), fun _ ↦ rfl⟩
      dsimp only
      rw [h.spoiled, decide_eq_decide.2 (h.spoils_iff hp)]
  | false =>
    rw [gestureRelease_of_up hp, gestureRelease_of_up (h.pressed.symm.trans hp)]
    exact ⟨rfl, h⟩

/-- So does a tick. -/
theorem tick (h : Alike g g') : (gestureTick g t).1 = (gestureTick g' t).1 ∧
    Alike (gestureTick g t).2 (gestureTick g' t).2 := by
  cases hp : g.pressed with
  | true =>
    have hp' := h.pressed.symm.trans hp
    rcases Decidable.em (g.Arms t) with ha | ha
    · rw [gestureTick_of_arms hp ha, gestureTick_of_arms hp' ((h.arms_iff hp).1 ha)]
      exact ⟨rfl, { h with eraseArmed := rfl }⟩
    · rw [gestureTick_of_not_arms hp ha, gestureTick_of_not_arms hp' (mt (h.arms_iff hp).2 ha)]
      exact ⟨rfl, h⟩
  | false =>
    have hp' := h.pressed.symm.trans hp
    rcases Decidable.em (g.Ends t) with he | he
    · rw [gestureTick_of_ends hp he, gestureTick_of_ends hp' (h.ends_iff.1 he)]
      refine ⟨?_, of_reset h.cfg hp hp' rfl rfl⟩
      show g.outcome = g'.outcome
      rw [GestureState.outcome, GestureState.outcome, h.spoiled, h.presses, h.cfg]
    · rw [gestureTick_of_not_ends hp he, gestureTick_of_not_ends hp' (mt h.ends_iff.2 he)]
      exact ⟨rfl, h⟩

/-- **Left-over times are never looked at.** -/
theorem outputs_eq (h : Alike g g') (calls : List (GestureCall × ℤ)) :
    g.outputs calls = g'.outputs calls := by
  induction calls generalizing g g' with
  | nil => rfl
  | cons a calls ih =>
    obtain ⟨c, t⟩ := a
    have hcall : (g.call c t).1 = (g'.call c t).1 ∧ Alike (g.call c t).2 (g'.call c t).2 := by
      cases c with
      | press => exact h.press
      | release => exact h.release
      | tick => exact h.tick
    rw [GestureState.outputs, GestureState.outputs, hcall.1, ih hcall.2]

end Alike

/-! ### The erase hold -/

/-- The press that is going on has lasted as long as an erase takes. -/
def Seen.HeldForErase (cfg : GestureCfg) (s : Seen) (now : ℤ) : Prop :=
  0 < cfg.eraseMs ∧ ∃ down ∈ s.down, (cfg.eraseMs.toNat : ℤ) ≤ now - down

/-- What the next call may return, whenever it comes:

* a release returns an erase exactly if the press has lasted long enough, and nothing else does;
* only a tick arms the erase, when the press has lasted long enough, and once a press;
* an armed press is released with an erase;
* after an erase, what has been is forgotten;
* without an erase time neither is returned. -/
structure EraseRules (cfg : GestureCfg) (p : GestureState × Seen) : Prop where
  erase_iff : ∀ t, p.2.now ≤ t →
    ((gestureRelease p.1 t).1 = .erase ↔ p.2.HeldForErase cfg t)
  release_of_erase : ∀ c t, (p.1.call c t).1 = .erase → c = .release
  held_of_armed : ∀ c t, (p.1.call c t).1 = .eraseArmed →
    c = .tick ∧ p.2.armed = 0 ∧ p.2.HeldForErase cfg t
  erase_of_armed : ∀ t, p.2.armed ≠ 0 → (gestureRelease p.1 t).1 = .erase
  forgotten : ∀ t, (gestureRelease p.1 t).1 = .erase →
    ∀ calls, (gestureRelease p.1 t).2.outputs calls = (gestureInit cfg).outputs calls
  off : cfg.eraseMs = 0 → ∀ c t, (p.1.call c t).1 ≠ .erase ∧ (p.1.call c t).1 ≠ .eraseArmed

namespace GestureInv

variable {cfg : GestureCfg} {p : GestureState × Seen}

/-- A long hold, in the terms of the classifier. -/
theorem heldForErase_iff (h : GestureInv cfg p) : p.2.HeldForErase cfg t ↔
    p.1.pressed = true ∧ p.1.EraseOn ∧ (p.1.cfg.eraseMs.toNat : ℤ) ≤ t - p.1.pressAt := by
  rw [Seen.HeldForErase, h.down_eq, GestureState.EraseOn, h.cfg_eq]
  cases p.1.pressed <;> simp

/-- The agreement is all that the rules for an erase need. -/
theorem eraseRules (h : GestureInv cfg p) : EraseRules cfg p where
  erase_iff t hnow := by
    rw [gestureRelease_eq_erase, h.heldForErase_iff, GestureState.Erases]
    refine and_congr_right fun hp ↦ or_iff_right_of_imp fun harmed ↦ ?_
    obtain ⟨-, hon, hlong⟩ := h.armed_held harmed
    rw [GestureState.EraseOn, h.cfg_eq]
    exact ⟨hon, by omega⟩
  release_of_erase c t hc := (call_eq_erase hc).1
  held_of_armed c t hc := by
    obtain ⟨rfl, hp, hon, hnot, hlong⟩ := call_eq_eraseArmed hc
    exact ⟨rfl, by rw [h.armed_eq, if_neg hnot], h.heldForErase_iff.2 ⟨hp, hon, hlong⟩⟩
  erase_of_armed t hcount := by
    have harmed : p.1.eraseArmed = true := by
      by_contra hnot
      exact hcount (by rw [h.armed_eq, if_neg hnot])
    exact gestureRelease_eq_erase.2 ⟨(h.armed_held harmed).1, Or.inl harmed⟩
  forgotten t hc := by
    obtain ⟨hp, he⟩ := gestureRelease_eq_erase.1 hc
    rw [gestureRelease_of_erases hp he]
    exact (Alike.of_reset h.cfg_eq rfl rfl rfl rfl).outputs_eq
  off hoff c t := by
    have hnot : ¬ p.1.EraseOn := by
      rw [GestureState.EraseOn, h.cfg_eq, hoff]
      exact UInt32.lt_irrefl 0
    refine ⟨fun hc ↦ ?_, fun hc ↦ hnot (call_eq_eraseArmed hc).2.2.1⟩
    rcases (call_eq_erase hc).2.2 with harmed | ⟨hon, -⟩
    · obtain ⟨-, hon, -⟩ := h.armed_held harmed
      rw [GestureState.EraseOn, h.cfg_eq] at hnot
      exact hnot hon
    · exact hnot hon

end GestureInv

/-- **An erase is exactly one long hold**, in every run of calls. -/
theorem erase_is_one_hold (cfg : GestureCfg) (now : ℤ) (calls : List (GestureCall × ℤ)) :
    Throughout gestureStep (EraseRules cfg) (gestureStart cfg now) calls :=
  (throughout_of_forall (fun _ _ _ ↦ GestureInv.step) (GestureInv.start cfg now) calls).imp
    fun _ ↦ GestureInv.eraseRules

end ThinEdge.Common
