import ThinEdge.Lib.Semaphore
import ThinEdge.Lib.Transition
import ThinEdge.Net.TryCredentials

/-!
# Waiting for the network

`app_net_wait_connected` and `mark_connected` of `lib/common/net.c`, over every order of the two. A
flag and a semaphore record that the device has connected. A disconnect clears the flag and leaves
the token, so a call that finds the flag clear may take a token given before it was made:
`not_waitConnected_truthful`. Any number of calls may be made, each with a number of its own, and
any number of threads may be in `mark_connected`, between setting the flag and giving the token.

`waitConnected_truthful_iff` says which calls this spoils, by the state in which they are made. It
rests on `CallInv`: a call under way has seen the flag set, or no token can come to it without its
seeing that.
-/

namespace ThinEdge.Net

open Transition TryCredentials

/-! ### The calls -/

/-- `k_timeout_t`. -/
inductive KTimeout
  | noWait
  | ms (n : ℕ)
  | forever
  deriving DecidableEq, Repr

/-- How far a call of `app_net_wait_connected` has come. -/
inductive WaitPhase
  | notMade
  | entered (timeout : KTimeout)
  /-- It has found the flag clear. -/
  | trying (timeout : KTimeout)
  /-- It waits for the semaphore. -/
  | pending (timeout : KTimeout)
  | returned (ret : ℤ)
  deriving DecidableEq, Repr

/-- The call is under way. -/
def WaitPhase.InProgress : WaitPhase → Prop
  | .entered _ | .trying _ | .pending _ => True
  | .notMade | .returned _ => False

instance : DecidablePred WaitPhase.InProgress
  | .entered _ | .trying _ | .pending _ => isTrue trivial
  | .notMade | .returned _ => isFalse id

/-- The statics of `net.c` that the calls and `mark_connected` share, and the calls. -/
structure WaitState where
  /-- `connected`. -/
  connected : Bool
  /-- `net_connected_sem`. -/
  sem : Semaphore ℕ 1
  /-- The threads in `mark_connected` that have set the flag and not yet given the token. -/
  gives : ℕ
  calls : ℕ → WaitPhase

/-- The statics at boot. -/
def WaitState.boot : WaitState := ⟨false, .empty, 0, fun _ ↦ .notMade⟩

/-- What happens. -/
inductive WaitAction
  /-- `mark_connected` up to its `k_sem_give`, if it makes it. -/
  | mark (up : Bool)
  /-- Its `k_sem_give`, and the call that it wakes, if one waits. -/
  | give (woken : Option ℕ)
  | call (i : ℕ) (timeout : KTimeout)
  /-- The call looks at the flag. -/
  | check (i : ℕ)
  /-- It takes the semaphore, or begins to wait for it. -/
  | take (i : ℕ)
  | timeout (i : ℕ)
  deriving DecidableEq, Repr

/-- A call goes on. -/
def WaitState.goOn (i : ℕ) (phase : WaitPhase) (s : WaitState) : WaitState :=
  { s with calls := Function.update s.calls i phase }

/-- `mark_connected` up to its `k_sem_give`. -/
def WaitState.mark (up : Bool) (s : WaitState) : WaitState :=
  if up then { s with connected := true, gives := s.gives + 1 } else { s with connected := false }

/-- The `k_sem_give` of `mark_connected`. A call that it wakes returns. -/
def WaitState.give (woken : Option ℕ) (s : WaitState) : Option WaitState :=
  if s.gives = 0 then none
  else
    (s.sem.give woken).map fun sem ↦
      let s := { s with sem := sem, gives := s.gives - 1 }
      match woken with
      | some i => s.goOn i (.returned 0)
      | none => s

/-- `app_net_wait_connected` looks at the flag. -/
def WaitState.check (i : ℕ) (timeout : KTimeout) (s : WaitState) : WaitState :=
  if s.connected then s.goOn i (.returned 0) else s.goOn i (.trying timeout)

/-- The `k_sem_take` of `app_net_wait_connected`, up to where it waits. -/
def WaitState.take (i : ℕ) (timeout : KTimeout) (s : WaitState) : WaitState :=
  match s.sem.take with
  | some sem => WaitState.goOn i (.returned 0) { s with sem := sem }
  | none =>
    if timeout = .noWait then s.goOn i (.returned etimedout)
    else WaitState.goOn i (.pending timeout) { s with sem := s.sem.pend i }

/-- The `k_sem_take` ends without a token. -/
def WaitState.timeout (i : ℕ) (s : WaitState) : WaitState :=
  WaitState.goOn i (.returned etimedout) { s with sem := s.sem.leave i }

/-- One step. -/
def waitStep (s : WaitState) : WaitAction → Option WaitState
  | .mark up => some (s.mark up)
  | .give woken => s.give woken
  | .call i timeout => if s.calls i = .notMade then some (s.goOn i (.entered timeout)) else none
  | .check i =>
    match s.calls i with
    | .entered timeout => some (s.check i timeout)
    | _ => none
  | .take i =>
    match s.calls i with
    | .trying timeout => some (s.take i timeout)
    | _ => none
  | .timeout i =>
    match s.calls i with
    | .pending timeout =>
      if timeout = .forever then none else some (s.timeout i)
    | _ => none

/-- An observer notes the calls during which the flag has been set at some moment, from where they
are made to where they return. -/
def seeConnected (_ : WaitState) (_ : WaitAction) (t : WaitState) (seen : ℕ → Bool) : ℕ → Bool :=
  fun i ↦ seen i || (decide (t.calls i).InProgress && t.connected)

/-- The device with its observer. -/
def waitObserved : WaitState × (ℕ → Bool) → WaitAction → Option (WaitState × (ℕ → Bool)) :=
  observed waitStep seeConnected

/-- If the call has returned 0, the flag was set while it was under way. -/
def TruthfulCall (i : ℕ) (p : WaitState × (ℕ → Bool)) : Prop :=
  p.1.calls i = .returned 0 → p.2 i = true

/-- No token is left from an earlier connection, and none is about to be given. -/
def WaitState.NoToken (s : WaitState) : Prop := s.sem.count = 0 ∧ s.gives = 0

/-- A call made now cannot be answered by an earlier connection that has been lost. -/
def WaitState.Fresh (s : WaitState) : Prop := s.connected = true ∨ s.NoToken

instance (s : WaitState) : Decidable s.Fresh := inferInstanceAs (Decidable (_ ∨ _ ∧ _))

/-- The step makes no call, or one that cannot be answered by an earlier connection. -/
def CallsFresh (p : WaitState × (ℕ → Bool)) : WaitAction → Prop
  | .call _ _ => p.1.Fresh
  | .mark _ | .give _ | .check _ | .take _ | .timeout _ => True

instance (p : WaitState × (ℕ → Bool)) : DecidablePred (CallsFresh p)
  | .call _ _ => inferInstanceAs (Decidable p.1.Fresh)
  | .mark _ | .give _ | .check _ | .take _ | .timeout _ => isTrue trivial

/-- **A token outlives its connection.** The device has connected and disconnected before the call,
and the call returns at once. -/
theorem not_waitConnected_truthful :
    ¬ ∀ as, Throughout waitObserved (fun p ↦ ∀ i, TruthfulCall i p) (.boot, fun _ ↦ false) as := by
  intro h
  let as : List WaitAction :=
    [.mark true, .give none, .mark false, .call 0 (.ms 60000), .check 0, .take 0]
  have hex : ∃ p, exec waitObserved (.boot, fun _ ↦ false) as = some p ∧
      p.1.calls 0 = .returned 0 ∧ p.2 0 = false := ⟨_, rfl, rfl, rfl⟩
  obtain ⟨p, hp, hret, hseen⟩ := hex
  have htrue := (h as).last hp 0 hret
  rw [hseen] at htrue
  exact absurd htrue (by decide)

/-! ### What a step does to a call -/

/-- The calls that the semaphore knows are those that wait for it. -/
def QueueInv (s : WaitState) : Prop := ∀ i ∈ s.sem.waitQ, ∃ timeout, s.calls i = .pending timeout

/-- What a step that does not make the call does to it: tokens come from connections, and a call
returns 0 when it finds the flag set or gets a token. -/
structure CallStep (i : ℕ) (s t : WaitState) : Prop where
  made : t.calls i = .notMade → s.calls i = .notMade
  inProgress : (t.calls i).InProgress → (s.calls i).InProgress
  noToken : s.NoToken → t.connected = true ∨ t.NoToken
  returned : t.calls i = .returned 0 →
    s.calls i = .returned 0 ∨ (s.calls i).InProgress ∧ (s.connected = true ∨ ¬ s.NoToken)

section Step

variable {s t u : WaitState} {i j : ℕ} {a : WaitAction} {phase : WaitPhase}

theorem calls_goOn_self : (s.goOn i phase).calls i = phase := Function.update_self ..

theorem calls_goOn_of_ne (h : j ≠ i) : (s.goOn i phase).calls j = s.calls j :=
  Function.update_of_ne h ..

theorem queueInv_boot : QueueInv .boot := fun _ hi ↦ absurd hi List.not_mem_nil

/-- A call that goes on is in the queue if it waits, and the others stay as they are. -/
theorem queueInv_goOn (hself : i ∈ s.sem.waitQ → ∃ timeout, phase = .pending timeout)
    (hother : ∀ j ∈ s.sem.waitQ, j ≠ i → ∃ timeout, s.calls j = .pending timeout) :
    QueueInv (s.goOn i phase) := by
  intro j hj
  rcases eq_or_ne j i with rfl | hne
  · rw [calls_goOn_self]
    exact hself hj
  · rw [calls_goOn_of_ne hne]
    exact hother j hj hne

/-- A call that is not waiting is not in the queue. -/
theorem QueueInv.not_mem (hq : QueueInv s) (h : ∀ timeout, s.calls i ≠ .pending timeout) :
    i ∉ s.sem.waitQ := by
  intro hi
  obtain ⟨timeout, hp⟩ := hq i hi
  exact h timeout hp

/-- A step in which no call goes on. -/
theorem callStep_of_calls_eq (hcalls : t.calls = s.calls)
    (htok : s.NoToken → t.connected = true ∨ t.NoToken) : CallStep i s t where
  made h := hcalls ▸ h
  inProgress h := hcalls ▸ h
  noToken := htok
  returned h := Or.inl (hcalls ▸ h)

/-- A step in which one call goes on. -/
theorem callStep_goOn (hcalls : u.calls = s.calls) (hprog : (s.calls j).InProgress)
    (hmade : phase ≠ .notMade) (htok : s.NoToken → u.connected = true ∨ u.NoToken)
    (hret : phase = .returned 0 → s.connected = true ∨ ¬ s.NoToken) :
    CallStep i s (u.goOn j phase) := by
  rcases eq_or_ne i j with rfl | hne
  · have hi : (u.goOn i phase).calls i = phase := calls_goOn_self
    exact ⟨fun h ↦ absurd (hi ▸ h) hmade, fun _ ↦ hprog, htok,
      fun h ↦ Or.inr ⟨hprog, hret (hi ▸ h)⟩⟩
  · have hi : (u.goOn j phase).calls i = s.calls i := by rw [calls_goOn_of_ne hne, hcalls]
    exact ⟨fun h ↦ hi ▸ h, fun h ↦ hi ▸ h, htok, fun h ↦ Or.inl (hi ▸ h)⟩

theorem mark_spec (hq : QueueInv s) (up : Bool) :
    QueueInv (s.mark up) ∧ ∀ i, CallStep i s (s.mark up) := by
  rw [WaitState.mark]
  split
  · exact ⟨hq, fun i ↦ callStep_of_calls_eq rfl fun _ ↦ Or.inl rfl⟩
  · exact ⟨hq, fun i ↦ callStep_of_calls_eq rfl Or.inr⟩

theorem give_spec (hq : QueueInv s) {woken : Option ℕ} (h : s.give woken = some t) :
    QueueInv t ∧ ∀ i, CallStep i s t := by
  rw [WaitState.give] at h
  split at h
  · exact absurd h (by simp)
  · next hgives =>
    have hnot : ¬ s.NoToken := fun hno ↦ hgives hno.2
    obtain ⟨sem, hsem, rfl⟩ := Option.map_eq_some_iff.1 h
    obtain ⟨hwoken, hqueue⟩ := Semaphore.give_eq_some hsem
    have hleft : ∀ j ∈ sem.waitQ, ∃ timeout, s.calls j = .pending timeout :=
      fun j hj ↦ hq j ((hqueue j).1 hj).1
    cases woken with
    | none => exact ⟨hleft, fun i ↦ callStep_of_calls_eq rfl fun hno ↦ absurd hno hnot⟩
    | some k =>
      obtain ⟨timeout, hk⟩ := hq k (hwoken k rfl)
      refine ⟨queueInv_goOn (fun hmem ↦ ?_) fun j hj _ ↦ hleft j hj,
        fun i ↦ callStep_goOn rfl ?_ (by simp) (fun hno ↦ absurd hno hnot) fun _ ↦ Or.inr hnot⟩
      · exact absurd rfl ((hqueue k).1 hmem).2
      · rw [hk]
        trivial

theorem check_spec (hq : QueueInv s) {timeout : KTimeout} (hi : s.calls i = .entered timeout) :
    QueueInv (s.check i timeout) ∧ ∀ j, CallStep j s (s.check i timeout) := by
  have hprog : (s.calls i).InProgress := by rw [hi]; trivial
  have hmem : i ∉ s.sem.waitQ := hq.not_mem (by simp [hi])
  rw [WaitState.check]
  split
  · next hup =>
    exact ⟨queueInv_goOn (fun h ↦ absurd h hmem) fun j hj _ ↦ hq j hj,
      fun j ↦ callStep_goOn rfl hprog (by simp) Or.inr fun _ ↦ Or.inl hup⟩
  · exact ⟨queueInv_goOn (fun h ↦ absurd h hmem) fun j hj _ ↦ hq j hj,
      fun j ↦ callStep_goOn rfl hprog (by simp) Or.inr fun h ↦ absurd h (by simp)⟩

theorem take_spec (hq : QueueInv s) {timeout : KTimeout} (hi : s.calls i = .trying timeout) :
    QueueInv (s.take i timeout) ∧ ∀ j, CallStep j s (s.take i timeout) := by
  have hprog : (s.calls i).InProgress := by rw [hi]; trivial
  have hmem : i ∉ s.sem.waitQ := hq.not_mem (by simp [hi])
  rw [WaitState.take]
  split
  · next sem hsem =>
    obtain ⟨hcount, hqueue⟩ := Semaphore.take_eq_some hsem
    have hnot : ¬ s.NoToken := fun hno ↦ hcount hno.1
    refine ⟨queueInv_goOn (fun h ↦ absurd (hqueue ▸ h) hmem) fun j hj _ ↦ hq j (hqueue ▸ hj),
      fun j ↦ callStep_goOn rfl hprog (by simp) (fun hno ↦ absurd hno hnot) fun _ ↦ Or.inr hnot⟩
  · split
    · exact ⟨queueInv_goOn (fun h ↦ absurd h hmem) fun j hj _ ↦ hq j hj,
        fun j ↦ callStep_goOn rfl hprog (by simp) Or.inr fun h ↦ absurd h (by decide)⟩
    · refine ⟨queueInv_goOn (fun _ ↦ ⟨timeout, rfl⟩) fun j hj hne ↦ ?_,
        fun j ↦ callStep_goOn rfl hprog (by simp) Or.inr fun h ↦ absurd h (by simp)⟩
      exact hq j ((Semaphore.mem_waitQ_pend.1 hj).resolve_right hne)

theorem timeout_spec (hq : QueueInv s) {timeout : KTimeout} (hi : s.calls i = .pending timeout) :
    QueueInv (s.timeout i) ∧ ∀ j, CallStep j s (s.timeout i) := by
  refine ⟨queueInv_goOn (fun h ↦ absurd rfl (Semaphore.mem_waitQ_leave.1 h).2) fun j hj _ ↦ ?_,
    fun j ↦ callStep_goOn rfl ?_ (by simp) Or.inr fun h ↦ absurd h (by decide)⟩
  · exact hq j (Semaphore.mem_waitQ_leave.1 hj).1
  · rw [hi]
    trivial

/-- A call that is made begins, and nothing else changes. -/
theorem call_spec (hq : QueueInv s) {timeout : KTimeout}
    (h : waitStep s (.call i timeout) = some t) :
    s.calls i = .notMade ∧ t = s.goOn i (.entered timeout) ∧ QueueInv t ∧
      ∀ j ≠ i, CallStep j s t := by
  rw [waitStep] at h
  split at h
  · next hi =>
    obtain rfl := Option.some.inj h
    have hmem : i ∉ s.sem.waitQ := hq.not_mem (by simp [hi])
    refine ⟨hi, rfl, queueInv_goOn (fun h ↦ absurd h hmem) fun j hj _ ↦ hq j hj, fun j hne ↦ ?_⟩
    have hj : (s.goOn i (.entered timeout)).calls j = s.calls j := calls_goOn_of_ne hne
    exact ⟨fun h ↦ hj ▸ h, fun h ↦ hj ▸ h, Or.inr, fun h ↦ Or.inl (hj ▸ h)⟩
  · exact absurd h (by simp)

/-- **What a step does**, unless it makes the call. -/
theorem waitStep_spec (hq : QueueInv s) (h : waitStep s a = some t) :
    QueueInv t ∧ ∀ i, (∀ timeout, a ≠ .call i timeout) → CallStep i s t := by
  cases a with
  | mark up =>
    obtain rfl := Option.some.inj h
    exact ⟨(mark_spec hq up).1, fun i _ ↦ (mark_spec hq up).2 i⟩
  | give woken => exact ⟨(give_spec hq h).1, fun i _ ↦ (give_spec hq h).2 i⟩
  | call j timeout =>
    obtain ⟨-, -, hq', hstep⟩ := call_spec hq h
    refine ⟨hq', fun i hne ↦ hstep i ?_⟩
    rintro rfl
    exact hne timeout rfl
  | check j =>
    rw [waitStep] at h
    split at h
    · next timeout hj =>
      obtain rfl := Option.some.inj h
      exact ⟨(check_spec hq hj).1, fun i _ ↦ (check_spec hq hj).2 i⟩
    · exact absurd h (by simp)
  | take j =>
    rw [waitStep] at h
    split at h
    · next timeout hj =>
      obtain rfl := Option.some.inj h
      exact ⟨(take_spec hq hj).1, fun i _ ↦ (take_spec hq hj).2 i⟩
    · exact absurd h (by simp)
  | timeout j =>
    rw [waitStep] at h
    split at h
    · next timeout hj =>
      split at h
      · exact absurd h (by simp)
      · obtain rfl := Option.some.inj h
        exact ⟨(timeout_spec hq hj).1, fun i _ ↦ (timeout_spec hq hj).2 i⟩
    · exact absurd h (by simp)

end Step

/-! ### Runs -/

/-- What holds in every run: the semaphore knows who waits, and nothing has been noted about a call
that has not been made. -/
structure WaitInv (p : WaitState × (ℕ → Bool)) : Prop where
  queue : QueueInv p.1
  unseen : ∀ i, p.1.calls i = .notMade → p.2 i = false

/-- A call under way has seen the flag set, or there is no token for it, and it does not miss the
flag. -/
structure CallInv (i : ℕ) (p : WaitState × (ℕ → Bool)) : Prop where
  seen : (p.1.calls i).InProgress → p.1.connected = true → p.2 i = true
  fresh : (p.1.calls i).InProgress → p.2 i = true ∨ p.1.NoToken
  truthful : TruthfulCall i p

section Runs

variable {p q : WaitState × (ℕ → Bool)} {s t : WaitState} {seen : ℕ → Bool} {i : ℕ}
  {a : WaitAction} {timeout : KTimeout}

theorem waitInv_boot : WaitInv (.boot, fun _ ↦ false) := ⟨queueInv_boot, fun _ _ ↦ rfl⟩

theorem WaitInv.step (hi : WaitInv p) (h : waitObserved p a = some q) : WaitInv q := by
  obtain ⟨hst, hseen⟩ := observed_eq_some.1 h
  obtain ⟨hqueue, hstep⟩ := waitStep_spec hi.queue hst
  refine ⟨hqueue, fun i hmade ↦ ?_⟩
  have hbefore : p.1.calls i = .notMade := by
    rcases Classical.em (∃ timeout, a = .call i timeout) with ⟨timeout, rfl⟩ | hne
    · exact (call_spec hi.queue hst).1
    · exact (hstep i fun timeout hcall ↦ hne ⟨timeout, hcall⟩).made hmade
  rw [hseen, seeConnected, hi.unseen i hbefore, hmade]
  rfl

theorem CallInv.step (hi : CallInv i p) (hw : WaitInv p) (h : waitObserved p a = some q)
    (hne : ∀ timeout, a ≠ .call i timeout) : CallInv i q := by
  obtain ⟨hst, hseen⟩ := observed_eq_some.1 h
  have hstep := (waitStep_spec hw.queue hst).2 i hne
  have hkeep : p.2 i = true → q.2 i = true := fun h ↦ by rw [hseen, seeConnected, h]; rfl
  have hnote : (q.1.calls i).InProgress → q.1.connected = true → q.2 i = true := by
    intro hprog hup
    rw [hseen, seeConnected, hup, decide_eq_true hprog, Bool.and_self, Bool.or_true]
  refine ⟨hnote, fun hprog ↦ ?_, fun hret ↦ ?_⟩
  · rcases hi.fresh (hstep.inProgress hprog) with hs | hno
    · exact Or.inl (hkeep hs)
    · exact (hstep.noToken hno).imp_left (hnote hprog)
  · rcases hstep.returned hret with hret | ⟨hprog, hup | htoken⟩
    · exact hkeep (hi.truthful hret)
    · exact hkeep (hi.seen hprog hup)
    · exact hkeep ((hi.fresh hprog).resolve_right htoken)

/-- A call begins well if it is fresh. -/
theorem CallInv.call (hw : WaitInv p) (h : waitObserved p (.call i timeout) = some q)
    (hfresh : p.1.Fresh) : CallInv i q := by
  obtain ⟨hst, hseen⟩ := observed_eq_some.1 h
  obtain ⟨-, ht, -, -⟩ := call_spec hw.queue hst
  have hcall : q.1.calls i = .entered timeout := by rw [ht, calls_goOn_self]
  have hnote : q.1.connected = true → q.2 i = true := by
    intro hup
    have hprog : (q.1.calls i).InProgress := by rw [hcall]; trivial
    rw [hseen, seeConnected, hup, decide_eq_true hprog, Bool.and_self, Bool.or_true]
  refine ⟨fun _ ↦ hnote, fun _ ↦ ?_, fun hret ↦ ?_⟩
  · rw [ht] at hnote ⊢
    exact hfresh.imp_left hnote
  · rw [hcall] at hret
    exact absurd hret (by simp)

/-- Calls that are fresh when they are made are truthful. -/
theorem truthful_of_callsFresh {as : List WaitAction}
    (h : AllSteps waitObserved CallsFresh (.boot, fun _ ↦ false) as) :
    Throughout waitObserved (fun p ↦ ∀ i, TruthfulCall i p) (.boot, fun _ ↦ false) as := by
  have hstep : ∀ p a q, WaitInv p ∧ (∀ i, CallInv i p) → CallsFresh p a →
      waitObserved p a = some q → WaitInv q ∧ ∀ i, CallInv i q := by
    intro p a q ⟨hw, hi⟩ hok h
    refine ⟨hw.step h, fun i ↦ ?_⟩
    rcases Classical.em (∃ timeout, a = .call i timeout) with ⟨timeout, rfl⟩ | hne
    · exact CallInv.call hw h hok
    · exact (hi i).step hw h fun timeout hcall ↦ hne ⟨timeout, hcall⟩
  have hboot : ∀ i, CallInv i (.boot, fun _ ↦ false) := fun _ ↦
    ⟨fun hprog ↦ absurd hprog id, fun hprog ↦ absurd hprog id, fun hret ↦ absurd hret (by
      simp [WaitState.boot])⟩
  exact (throughout_of_invariant hstep ⟨waitInv_boot, hboot⟩ h).imp
    fun p hp i ↦ (hp.2 i).truthful

/-- A fresh call is truthful, whatever happens during it. -/
theorem truthful_of_fresh (hw : WaitInv p) (h : waitObserved p (.call i timeout) = some q)
    (hfresh : p.1.Fresh) (as : List WaitAction) :
    Throughout waitObserved (TruthfulCall i) q as := by
  have hstep : ∀ p a q, WaitInv p ∧ CallInv i p ∧ p.1.calls i ≠ .notMade →
      waitObserved p a = some q → WaitInv q ∧ CallInv i q ∧ q.1.calls i ≠ .notMade := by
    intro p a q ⟨hw, hi, hmade⟩ h
    have hst := (observed_eq_some.1 h).1
    have hne : ∀ timeout, a ≠ .call i timeout := by
      rintro timeout rfl
      exact hmade (call_spec hw.queue hst).1
    exact ⟨hw.step h, hi.step hw h hne,
      fun hq ↦ hmade (((waitStep_spec hw.queue hst).2 i hne).made hq)⟩
  have hmade : q.1.calls i ≠ .notMade := by
    obtain ⟨-, ht, -, -⟩ := call_spec hw.queue (observed_eq_some.1 h).1
    rw [ht, calls_goOn_self]
    simp
  exact (throughout_of_forall hstep ⟨hw.step h, CallInv.call hw h hfresh, hmade⟩ as).imp
    fun p hp ↦ hp.2.1.truthful

/-! ### Stale tokens -/

/-- A run that returns 0 to the call and leaves the notes as they are. -/
def ReturnsUnseen (i : ℕ) (p : WaitState × (ℕ → Bool)) : Prop :=
  ∃ t, Reaches waitObserved (fun _ _ ↦ True) p (t, p.2) ∧ t.calls i = .returned 0

/-- As long as the flag stays clear, nothing is noted. -/
theorem waitObserved_of_not_connected (h : waitStep s a = some t) (hc : t.connected = false) :
    waitObserved (s, seen) a = some (t, seen) := by
  refine observed_eq_some.2 ⟨h, funext fun i ↦ ?_⟩
  rw [seeConnected, hc, Bool.and_false, Bool.or_false]

theorem ReturnsUnseen.head (h : waitStep s a = some t) (hc : t.connected = false)
    (ht : ReturnsUnseen i (t, seen)) : ReturnsUnseen i (s, seen) := by
  obtain ⟨u, hreach, hret⟩ := ht
  exact ⟨u, hreach.head trivial (waitObserved_of_not_connected h hc), hret⟩

theorem returnsUnseen_of_returned (h : s.calls i = .returned 0) : ReturnsUnseen i (s, seen) :=
  ⟨s, .refl _, h⟩

/-- A call that has found the flag clear takes a token that is there. -/
theorem returnsUnseen_of_count (hcall : s.calls i = .trying timeout) (hc : s.connected = false)
    (hcount : s.sem.count ≠ 0) : ReturnsUnseen i (s, seen) := by
  obtain ⟨sem, hsem⟩ := Option.ne_none_iff_exists'.1 (mt Semaphore.take_eq_none.1 hcount)
  have hst : waitStep s (.take i) =
      some (WaitState.goOn i (.returned 0) { s with sem := sem }) := by
    rw [waitStep, hcall]
    dsimp only
    rw [WaitState.take, hsem]
  exact .head hst hc (returnsUnseen_of_returned calls_goOn_self)

/-- A call that waits takes the token that is given next. -/
theorem returnsUnseen_of_pending (hmem : i ∈ s.sem.waitQ) (hc : s.connected = false)
    (hgives : s.gives ≠ 0) : ReturnsUnseen i (s, seen) := by
  have hst : waitStep s (.give (some i)) = some (WaitState.goOn i (.returned 0)
      { s with sem := s.sem.leave i, gives := s.gives - 1 }) := by
    rw [waitStep, WaitState.give, if_neg hgives, Semaphore.give, if_pos hmem]
    rfl
  exact .head hst hc (returnsUnseen_of_returned calls_goOn_self)

/-- A call that has found the flag clear gets the token that is about to be given: it waits for it,
or, if it does not wait and nobody else does, it comes after it. -/
theorem returnsUnseen_of_gives (hcall : s.calls i = .trying timeout) (hc : s.connected = false)
    (hgives : s.gives ≠ 0) (hcount : s.sem.count = 0)
    (hwaits : timeout = .noWait → s.sem.waitQ = []) : ReturnsUnseen i (s, seen) := by
  rcases Decidable.em (timeout = .noWait) with hnow | hlater
  · have hst : waitStep s (.give none) = some { s with
        sem := { s.sem with
          count := min (s.sem.count + 1) 1, count_le := Nat.min_le_right _ _ }
        gives := s.gives - 1 } := by
      rw [waitStep, WaitState.give, if_neg hgives, Semaphore.give, if_pos (hwaits hnow)]
      rfl
    refine .head hst hc (returnsUnseen_of_count hcall hc ?_)
    dsimp only
    rw [hcount]
    decide
  · have hst : waitStep s (.take i) =
        some (WaitState.goOn i (.pending timeout) { s with sem := s.sem.pend i }) := by
      rw [waitStep, hcall]
      dsimp only
      rw [WaitState.take, Semaphore.take_eq_none.2 hcount]
      dsimp only
      rw [if_neg hlater]
    have hmem : i ∈ (s.sem.pend i).waitQ := Semaphore.mem_waitQ_pend.2 (Or.inr rfl)
    exact .head hst hc (returnsUnseen_of_pending hmem hc hgives)

/-- A call that is not fresh may return 0 without having seen the flag set. -/
theorem returnsUnseen_of_not_fresh (hw : WaitInv p) (h : waitObserved p (.call i timeout) = some q)
    (hwaits : timeout = .noWait → p.1.sem.waitQ = []) (hstale : ¬ p.1.Fresh) :
    ReturnsUnseen i q ∧ q.2 i = false := by
  obtain ⟨s, seen⟩ := p
  obtain ⟨hst, hseen⟩ := observed_eq_some.1 h
  obtain ⟨hmade, ht, -, -⟩ := call_spec hw.queue hst
  have hc : s.connected = false := Bool.eq_false_iff.2 fun hup ↦ hstale (Or.inl hup)
  have hq : q = (s.goOn i (.entered timeout), seen) := by
    rw [ht] at hst
    rw [waitObserved_of_not_connected hst hc] at h
    exact (Option.some.inj h).symm
  have hcheck : waitStep (s.goOn i (.entered timeout)) (.check i) =
      some ((s.goOn i (.entered timeout)).goOn i (.trying timeout)) := by
    rw [waitStep, calls_goOn_self]
    dsimp only
    rw [WaitState.check, if_neg]
    exact fun hup ↦ hstale (Or.inl hup)
  refine ⟨?_, hq ▸ hw.unseen i hmade⟩
  rw [hq]
  rcases Decidable.em (s.sem.count = 0) with hcount | hcount
  · have hgives : s.gives ≠ 0 := fun hg ↦ hstale (Or.inr ⟨hcount, hg⟩)
    exact .head hcheck hc (returnsUnseen_of_gives calls_goOn_self hc hgives hcount hwaits)
  · exact .head hcheck hc (returnsUnseen_of_count calls_goOn_self hc hcount)

end Runs

/-- **When `app_net_wait_connected` is truthful.** In every run whose calls are made with the flag
set, or with no token left from an earlier connection and none about to be given, a call returns 0
only if the flag was set while it was under way. And this is exact: in whatever state a call is
made, every continuation has it truthful if and only if the state is one of these, provided that
the call waits or has no other to take the token from it. -/
theorem waitConnected_truthful_iff (as : List WaitAction) :
    (AllSteps waitObserved CallsFresh (.boot, fun _ ↦ false) as →
      Throughout waitObserved (fun p ↦ ∀ i, TruthfulCall i p) (.boot, fun _ ↦ false) as) ∧
    ∀ p q i timeout, exec waitObserved (.boot, fun _ ↦ false) as = some p →
      waitObserved p (.call i timeout) = some q →
      (timeout = .noWait → p.1.sem.waitQ = []) →
      ((∀ bs, Throughout waitObserved (TruthfulCall i) q bs) ↔ p.1.Fresh) := by
  refine ⟨truthful_of_callsFresh, fun p q i timeout hp hcall hwaits ↦ ?_⟩
  have hw : WaitInv p :=
    (throughout_of_forall (fun _ _ _ hi h ↦ hi.step h) waitInv_boot as).last hp
  refine ⟨fun hall ↦ ?_, fun hfresh ↦ truthful_of_fresh hw hcall hfresh⟩
  by_contra hstale
  obtain ⟨⟨t, hreach, hret⟩, hunseen⟩ := returnsUnseen_of_not_fresh hw hcall hwaits hstale
  have htrue := hreach.holds (fun bs _ ↦ hall bs) hret
  rw [hunseen] at htrue
  exact absurd htrue (by decide)

/-- The calls of `waitConnected_truthful_iff_twoCalls`. -/
def twoCalls : List WaitAction :=
  [.call 0 .forever, .check 0, .take 0, .mark true, .give (some 0), .call 1 .noWait, .check 1]

/-- One call waits for the device to connect, another is made while it is connected. A third one
made now is truthful, whatever happens. -/
theorem waitConnected_truthful_iff_twoCalls :
    AllSteps waitObserved CallsFresh (.boot, fun _ ↦ false) twoCalls ∧
      Throughout waitObserved (fun p ↦ ∀ i, TruthfulCall i p) (.boot, fun _ ↦ false) twoCalls ∧
      ∃ p q, exec waitObserved (.boot, fun _ ↦ false) twoCalls = some p ∧
        waitObserved p (.call 2 (.ms 60000)) = some q ∧
        (p.1.calls 0, p.1.calls 1) = (.returned 0, .returned 0) ∧ p.1.Fresh ∧
        ∀ bs, Throughout waitObserved (TruthfulCall 2) q bs := by
  have h : AllSteps waitObserved CallsFresh (.boot, fun _ ↦ false) twoCalls := by decide
  obtain ⟨p, q, hp, hq, hret, hfresh⟩ : ∃ p q,
      exec waitObserved (.boot, fun _ ↦ false) twoCalls = some p ∧
      waitObserved p (.call 2 (.ms 60000)) = some q ∧
      (p.1.calls 0, p.1.calls 1) = (.returned 0, .returned 0) ∧ p.1.Fresh :=
    ⟨_, _, rfl, rfl, rfl, Or.inl rfl⟩
  exact ⟨h, (waitConnected_truthful_iff twoCalls).1 h, p, q, hp, hq, hret, hfresh,
    ((waitConnected_truthful_iff twoCalls).2 p q 2 (.ms 60000) hp hq (by simp)).2 hfresh⟩

end ThinEdge.Net
