import Mathlib.Data.List.Basic

/-!
# Labelled transition systems with allowed steps

A system is a partial step function `step : σ → α → Option σ`: the action names everything the step
depends on besides the state (which thread moves, what the environment answers), and `none` says
that the action cannot be taken. A run is a list of actions.

Two predicates speak about a run from a state, both decidable when their ingredients are, so that a
concrete run can be checked by evaluation:

* `AllSteps step ok s as` — every step of the run meets the condition `ok` on the state before it;
* `Throughout step P s as` — `P` holds in every state the run passes through, both ends included.

A run whose next action cannot be taken stops there; both predicates then speak about the part
before it.

`throughout_of_invariant` is the safety rule: an invariant kept by every allowed step holds
throughout every run of allowed steps. `throughout_iff_allSteps` is its exact form, for a condition
whose first violation already violates the property. `observed` adds an observer, whose notes a
property can speak about when it is about the past of a run; `Justified` is such a property, of the
events that an observer has noted in their order. `not_throughout_of_rank` is the progress rule: a
measure that every progress action lowers, and no action raises, bounds the number of progress
actions a run can take before its goal is met.
-/

namespace Transition

variable {σ α : Type*} (step : σ → α → Option σ)

/-! ### Runs -/

/-- The state after the run along a list of actions, when each of them can be taken. -/
def exec : σ → List α → Option σ
  | s, [] => some s
  | s, a :: as => (step s a).bind fun t ↦ exec t as

/-- Every step of the run meets `ok`, a condition on the state before the step and its action. -/
def AllSteps (ok : σ → α → Prop) : σ → List α → Prop
  | _, [] => True
  | s, a :: as =>
    ok s a ∧
      match step s a with
      | some t => AllSteps ok t as
      | none => True

/-- `P` holds in every state the run passes through, both ends included. -/
def Throughout (P : σ → Prop) : σ → List α → Prop
  | s, [] => P s
  | s, a :: as =>
    P s ∧
      match step s a with
      | some t => Throughout P t as
      | none => True

instance decidableAllSteps (ok : σ → α → Prop) [∀ s a, Decidable (ok s a)] :
    ∀ (s : σ) (as : List α), Decidable (AllSteps step ok s as)
  | _, [] => inferInstanceAs (Decidable True)
  | s, a :: as =>
    have : Decidable (match step s a with
        | some t => AllSteps step ok t as
        | none => True) :=
      match step s a with
      | some t => decidableAllSteps ok t as
      | none => inferInstanceAs (Decidable True)
    inferInstanceAs (Decidable (ok s a ∧ _))

instance decidableThroughout (P : σ → Prop) [DecidablePred P] :
    ∀ (s : σ) (as : List α), Decidable (Throughout step P s as)
  | s, [] => inferInstanceAs (Decidable (P s))
  | s, a :: as =>
    have : Decidable (match step s a with
        | some t => Throughout step P t as
        | none => True) :=
      match step s a with
      | some t => decidableThroughout P t as
      | none => inferInstanceAs (Decidable True)
    inferInstanceAs (Decidable (P s ∧ _))

variable {step}

@[simp] theorem exec_nil (s : σ) : exec step s [] = some s := rfl

theorem exec_cons (s : σ) (a : α) (as : List α) :
    exec step s (a :: as) = (step s a).bind fun t ↦ exec step t as := rfl

theorem exec_append (s : σ) (as bs : List α) :
    exec step s (as ++ bs) = (exec step s as).bind fun t ↦ exec step t bs := by
  induction as generalizing s with
  | nil => rfl
  | cons a as ih =>
    rw [List.cons_append, exec_cons, exec_cons]
    cases step s a with
    | none => rfl
    | some t => exact ih t

/-! ### Allowed steps -/

section AllSteps

variable {ok : σ → α → Prop}

theorem allSteps_cons {s t : σ} {a : α} {as : List α} (h : step s a = some t) :
    AllSteps step ok s (a :: as) ↔ ok s a ∧ AllSteps step ok t as := by
  simp [AllSteps, h]

theorem AllSteps.append {s t : σ} {as bs : List α} (h : exec step s as = some t)
    (has : AllSteps step ok s as) (hbs : AllSteps step ok t bs) :
    AllSteps step ok s (as ++ bs) := by
  induction as generalizing s with
  | nil =>
    rw [exec_nil, Option.some.injEq] at h
    exact h ▸ hbs
  | cons a as ih =>
    cases hst : step s a with
    | none => simp [exec_cons, hst] at h
    | some u =>
      rw [exec_cons, hst, Option.bind_some] at h
      rw [allSteps_cons hst] at has
      rw [List.cons_append, allSteps_cons hst]
      exact ⟨has.1, ih h has.2⟩

end AllSteps

/-! ### Properties of every state of a run -/

section Throughout

variable {P Q : σ → Prop}

theorem throughout_cons {s t : σ} {a : α} {as : List α} (h : step s a = some t) :
    Throughout step P s (a :: as) ↔ P s ∧ Throughout step P t as := by
  simp [Throughout, h]

theorem Throughout.head {s : σ} {as : List α} (h : Throughout step P s as) : P s := by
  cases as with
  | nil => exact h
  | cons a as => exact h.1

theorem Throughout.imp (hPQ : ∀ s, P s → Q s) {s : σ} {as : List α}
    (h : Throughout step P s as) : Throughout step Q s as := by
  induction as generalizing s with
  | nil => exact hPQ s h
  | cons a as ih =>
    refine ⟨hPQ s h.1, ?_⟩
    have h2 := h.2
    cases hst : step s a with
    | none => trivial
    | some t =>
      rw [hst] at h2
      exact ih h2

/-- What holds throughout a run holds where the run ends. -/
theorem Throughout.last {s t : σ} {as : List α} (h : Throughout step P s as)
    (hex : exec step s as = some t) : P t := by
  induction as generalizing s with
  | nil =>
    rw [exec_nil, Option.some.injEq] at hex
    exact hex ▸ h
  | cons a as ih =>
    cases hst : step s a with
    | none => simp [exec_cons, hst] at hex
    | some u =>
      rw [exec_cons, hst, Option.bind_some] at hex
      exact ih ((throughout_cons hst).1 h).2 hex

/-- **The safety rule.** An invariant that every allowed step keeps holds throughout every run
of allowed steps. -/
theorem throughout_of_invariant {Inv : σ → Prop} {ok : σ → α → Prop}
    (hstep : ∀ s a t, Inv s → ok s a → step s a = some t → Inv t) {s : σ} {as : List α}
    (h0 : Inv s) (h : AllSteps step ok s as) : Throughout step Inv s as := by
  induction as generalizing s with
  | nil => exact h0
  | cons a as ih =>
    refine ⟨h0, ?_⟩
    cases hst : step s a with
    | none => trivial
    | some t =>
      rw [allSteps_cons hst] at h
      exact ih (hstep s a t h0 h.1 hst) h.2

/-- An invariant that every step keeps holds throughout every run. -/
theorem throughout_of_forall {Inv : σ → Prop}
    (hstep : ∀ s a t, Inv s → step s a = some t → Inv t) {s : σ} (h0 : Inv s) (as : List α) :
    Throughout step Inv s as := by
  have hall : AllSteps step (fun _ _ ↦ True) s as := by
    induction as generalizing s with
    | nil => trivial
    | cons a as ih =>
      refine ⟨trivial, ?_⟩
      cases hst : step s a with
      | none => trivial
      | some t => exact ih (hstep s a t h0 hst)
  exact throughout_of_invariant (fun s a t hs _ hst ↦ hstep s a t hs hst) h0 hall

/-- **The exact safety rule.** When allowed steps keep an invariant that implies `P`, and every
other step leads out of `P`, then `P` holds throughout exactly the runs of allowed steps. -/
theorem throughout_iff_allSteps {Inv : σ → Prop} {ok : σ → α → Prop} (hP : ∀ s, Inv s → P s)
    (hstep : ∀ s a t, Inv s → ok s a → step s a = some t → Inv t)
    (hbad : ∀ s a, Inv s → ¬ ok s a → ∃ t, step s a = some t ∧ ¬ P t) {s : σ} {as : List α}
    (h0 : Inv s) : Throughout step P s as ↔ AllSteps step ok s as := by
  refine ⟨fun h ↦ ?_, fun h ↦ (throughout_of_invariant hstep h0 h).imp hP⟩
  induction as generalizing s with
  | nil => trivial
  | cons a as ih =>
    have hok : ok s a := by
      by_contra hno
      obtain ⟨t, hst, hnot⟩ := hbad s a h0 hno
      exact hnot ((throughout_cons hst).1 h).2.head
    refine ⟨hok, ?_⟩
    cases hst : step s a with
    | none => trivial
    | some t => exact ih (hstep s a t h0 hok hst) ((throughout_cons hst).1 h).2

end Throughout

/-! ### Observers -/

section Observers

variable {γ : Type*} {obs : σ → α → σ → γ → γ} {ok : σ → α → Prop} {p q : σ × γ} {a : α}

/-- The system with an observer, who keeps notes of its steps and does not interfere. -/
def observed (step : σ → α → Option σ) (obs : σ → α → σ → γ → γ) (p : σ × γ) (a : α) :
    Option (σ × γ) :=
  (step p.1 a).map fun t ↦ (t, obs p.1 a t p.2)

theorem observed_eq_some :
    observed step obs p a = some q ↔ step p.1 a = some q.1 ∧ q.2 = obs p.1 a q.1 p.2 := by
  rw [observed, Option.map_eq_some_iff]
  constructor
  · rintro ⟨t, ht, rfl⟩
    exact ⟨ht, rfl⟩
  · rintro ⟨ht, hq⟩
    exact ⟨q.1, ht, by rw [← hq]⟩

/-- Being observed allows the same runs. -/
theorem allSteps_observed {as : List α} :
    AllSteps (observed step obs) (fun p a ↦ ok p.1 a) p as ↔ AllSteps step ok p.1 as := by
  induction as generalizing p with
  | nil => exact Iff.rfl
  | cons a as ih =>
    cases hst : step p.1 a with
    | none => simp [AllSteps, observed, hst]
    | some t =>
      have hobs : observed step obs p a = some (t, obs p.1 a t p.2) :=
        observed_eq_some.2 ⟨hst, rfl⟩
      rw [allSteps_cons hst, allSteps_cons hobs, ih]

end Observers

/-! ### Histories -/

section Histories

variable {ε : Type*} {P : List ε → ε → Prop} {log : List ε}

/-- Every event of a history is as `P` wants it, which is told the events before it. -/
def Justified (P : List ε → ε → Prop) (log : List ε) : Prop :=
  ∀ earlier e later, log = earlier ++ e :: later → P earlier e

theorem justified_nil : Justified P [] := fun _ _ _ h ↦
  absurd h.symm (List.append_ne_nil_of_right_ne_nil _ (List.cons_ne_nil _ _))

/-- What happens later changes nothing about what has happened. -/
theorem justified_concat {e : ε} : Justified P (log ++ [e]) ↔ Justified P log ∧ P log e := by
  refine ⟨fun h ↦ ⟨fun earlier f later hlog ↦ ?_, h log e [] rfl⟩, fun ⟨h, he⟩ ↦ ?_⟩
  · exact h earlier f (later ++ [e]) (by rw [hlog, List.append_assoc, List.cons_append])
  · intro earlier f later hlog
    rcases List.eq_nil_or_concat later with rfl | ⟨rest, g, rfl⟩
    · obtain ⟨rfl, hf⟩ := List.append_inj' hlog rfl
      obtain rfl := (List.cons.inj hf).1
      exact he
    · rw [List.concat_eq_append, ← List.cons_append, ← List.append_assoc] at hlog
      exact h earlier f rest (List.append_inj' hlog rfl).1

end Histories

/-! ### Reachability by allowed steps -/

variable (step) in
/-- Some run of allowed steps leads from `s` to `t`. -/
def Reaches (ok : σ → α → Prop) (s t : σ) : Prop :=
  ∃ as, exec step s as = some t ∧ AllSteps step ok s as

section Reaches

variable {ok : σ → α → Prop} {s t u : σ} {a : α}

theorem Reaches.refl (s : σ) : Reaches step ok s s := ⟨[], rfl, trivial⟩

theorem Reaches.head (hok : ok s a) (ha : step s a = some t) (h : Reaches step ok t u) :
    Reaches step ok s u := by
  obtain ⟨as, hex, hall⟩ := h
  refine ⟨a :: as, ?_, (allSteps_cons ha).2 ⟨hok, hall⟩⟩
  rw [exec_cons, ha, Option.bind_some, hex]

theorem Reaches.trans (hst : Reaches step ok s t) (htu : Reaches step ok t u) :
    Reaches step ok s u := by
  obtain ⟨as, has, hall⟩ := hst
  obtain ⟨bs, hbs, hall'⟩ := htu
  exact ⟨as ++ bs, by rw [exec_append, has, Option.bind_some, hbs], hall.append has hall'⟩

/-- What holds throughout every run of allowed steps holds in every state they reach. -/
theorem Reaches.holds {P : σ → Prop}
    (hP : ∀ as, AllSteps step ok s as → Throughout step P s as) (h : Reaches step ok s t) :
    P t := by
  obtain ⟨as, hex, hall⟩ := h
  exact (hP as hall).last hex

end Reaches

/-! ### Progress -/

/-- **The progress rule.** As long as `goal` has not been met, no allowed step raises `rank` and
every progress action lowers it; then a run with more progress actions than the rank it starts with
meets `goal` in one of its states. -/
theorem not_throughout_of_rank {Inv goal : σ → Prop} {ok : σ → α → Prop} {rank : σ → ℕ}
    {progress : α → Bool}
    (hinv : ∀ s a t, Inv s → ok s a → step s a = some t → Inv t)
    (hrank : ∀ s a t, Inv s → ok s a → ¬ goal s → step s a = some t → ¬ goal t →
      rank t + (if progress a then 1 else 0) ≤ rank s)
    {s t : σ} {as : List α} (h0 : Inv s) (hall : AllSteps step ok s as)
    (hex : exec step s as = some t) (hmany : rank s < as.countP progress) :
    ¬ Throughout step (fun u ↦ ¬ goal u) s as := by
  induction as generalizing s with
  | nil => simp at hmany
  | cons a as ih =>
    intro hno
    cases hst : step s a with
    | none => simp [exec_cons, hst] at hex
    | some u =>
      rw [exec_cons, hst, Option.bind_some] at hex
      rw [allSteps_cons hst] at hall
      rw [throughout_cons hst] at hno
      have hle := hrank s a u h0 hall.1 hno.1 hst hno.2.head
      have hlt : rank u < as.countP progress := by
        rw [List.countP_cons] at hmany
        omega
      exact ih (hinv s a u h0 hall.1 hst) hall.2 hex hlt hno.2

end Transition
