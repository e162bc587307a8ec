import Mathlib.Data.List.Basic
import ThinEdge.Provisioner.ImprovGrammar

/-!
# Improv: physical presence

With `CONFIG_APP_WIFI_PROV_REQUIRE_AUTH` the device refuses settings until `sw0` is pressed.
`cur_state` is `authorized` for a minute from the moment at which the main loop takes the press out
of the queue and is not idle; settings that are accepted in that time are tested, however long they
wait in the queue.

A `PresenceLog` notes, beside a run, when each queued message was queued, which presses were
handled, and which settings were tested. `present_throughout` says that all of them were accepted
within the minute. The minute is counted from the handling: a press that waits in the queue while
settings are tested authorizes later (`not_pressedRecently_lateRun`).
-/

namespace ThinEdge.Provisioner

open Net Transition

/-! ### Time -/

/-- The main loop is handling a press or a timeout. -/
def ImprovPc.midHandler : ImprovPc → Bool
  | .authorize | .checkAuth _ | .deauthorize _ | .checkWindow _ => true
  | _ => false

/-- How time may pass at each place. A message in the queue ends the wait at once, and otherwise it
ends on time. A join, and storing the credentials, take the time they take. -/
def Improv.MayPass (s : Improv) (ms : ℕ) : ImprovPc → Prop
  | .wait =>
    s.provQ = [] ∧ (s.idle = false → s.now + ms ≤ s.deadline) ∧
      (s.authUntil ≠ 0 → s.now + ms ≤ s.authUntil)
  | .testing _ | .storing _ | .leaving => True
  | .authorize | .checkAuth _ | .deauthorize _ | .checkWindow _ => False

instance (s : Improv) (ms : ℕ) : DecidablePred (s.MayPass ms)
  | .wait => inferInstanceAs (Decidable (_ ∧ (_ → _) ∧ (_ → _)))
  | .testing _ | .storing _ | .leaving => isTrue trivial
  | .authorize | .checkAuth _ | .deauthorize _ | .checkWindow _ => isFalse id

/-- Handlers are atomic, and the main loop's wait returns on time. -/
def Timely (s : Improv) : ImprovAction → Prop
  | .tick ms => s.MayPass ms s.pc
  | .write _ | .disconnect | .button => s.pc.midHandler = false
  | _ => True

instance (s : Improv) : ∀ a : ImprovAction, Decidable (Timely s a)
  | .tick _ => inferInstanceAs (Decidable (s.MayPass _ _))
  | .write _ | .disconnect | .button => inferInstanceAs (Decidable (_ = _))
  | .get | .timeout | .joined _ | .store _ | .authorize | .checkAuth | .deauthorize
  | .checkWindow => isTrue trivial

/-! ### The notes -/

/-- Notes of a run. -/
structure PresenceLog where
  /-- When each message in `prov_q` was queued. -/
  queuedAt : List ℕ
  /-- The presses that were handled while the loop was not idle: when they were pressed, and when
  they were handled. -/
  presses : List (ℕ × ℕ)
  /-- The settings that were handed to the join test, with the time at which they were accepted. -/
  tested : List (AppWifiCreds × ℕ)
  deriving DecidableEq, Repr

/-- The notes of a message that is taken from the queue, in a loop that is idle or not. -/
def PresenceLog.take (g : PresenceLog) (idle : Bool) (now queued : ℕ) : ProvMsg → PresenceLog
  | .settings creds => if idle then g else { g with tested := g.tested ++ [(creds, queued)] }
  | .button => if idle then g else { g with presses := g.presses ++ [(queued, now)] }

/-- Take notes of a step. -/
def presenceNotes (s : Improv) (a : ImprovAction) (t : Improv) (g : PresenceLog) : PresenceLog :=
  match a, s.provQ, g.queuedAt with
  | .get, m :: _, queued :: rest => { g with queuedAt := rest }.take s.idle s.now queued m
  | .get, _, _ => g
  | _, _, _ =>
    { g with queuedAt := g.queuedAt ++ List.replicate (t.provQ.length - s.provQ.length) s.now }

/-- The provisioner, observed. -/
abbrev presenceStep (cfg : ImprovConfig) :
    Improv × PresenceLog → ImprovAction → Option (Improv × PresenceLog) :=
  observed (improvStep cfg) presenceNotes

/-- A time at which a press handled at `handled` still authorizes. -/
def AuthorizedAt (presses : List (ℕ × ℕ)) (time : ℕ) : Prop :=
  ∃ y ∈ presses, y.1 ≤ y.2 ∧ y.2 ≤ time ∧ time ≤ y.2 + authPeriodMs

/-- Physical presence: settings that are tested are noted, and all settings that were tested had
been accepted at most a minute after the loop handled a press while it was not idle. -/
structure Present (p : Improv × PresenceLog) : Prop where
  noted : ∀ creds, p.1.pc = .testing creds → ∃ accepted, (creds, accepted) ∈ p.2.tested
  authorized : ∀ x ∈ p.2.tested, AuthorizedAt p.2.presses x.2

/-- The same, counted from the press. -/
def PressedRecently (p : Improv × PresenceLog) : Prop :=
  ∀ x ∈ p.2.tested, ∃ y ∈ p.2.presses, y.1 ≤ x.2 ∧ x.2 ≤ y.1 + authPeriodMs

instance : DecidablePred PressedRecently := fun _ ↦
  inferInstanceAs (Decidable (∀ x ∈ _, ∃ y ∈ _, _))

/-- Before the first step. -/
def PresenceLog.boot : PresenceLog := ⟨[], [], []⟩

/-! ### The invariant -/

/-- The settings that are queued or being tested. -/
def Improv.settingsCount (s : Improv) : ℕ :=
  s.provQ.countP ProvMsg.isSettings + if s.pc.isTesting then 1 else 0

/-- What carries physical presence through a run. -/
structure PresenceInv (s : Improv) (g : PresenceLog) : Prop where
  length_queuedAt : g.queuedAt.length = s.provQ.length
  queuedAt_le : ∀ a ∈ g.queuedAt, a ≤ s.now
  presses_le : ∀ y ∈ g.presses, y.1 ≤ y.2 ∧ y.2 ≤ s.now
  present : Present (s, g)
  /-- A running authorization goes back to a press. -/
  auth : s.authUntil ≠ 0 → ∃ y ∈ g.presses, s.authUntil = y.2 + authPeriodMs
  /-- `authorized` has not run out, except where the loop is about to end it. -/
  authorized : s.curState = .authorized → s.pc ≠ .leaving → (∀ n, s.pc ≠ .deauthorize n) →
    s.authUntil ≠ 0 ∧ s.now ≤ s.authUntil
  deauthorizing : ∀ n, s.pc = .deauthorize n → s.curState = .authorized
  authorizing : s.pc = .authorize → s.idle = false ∧ (∃ y ∈ g.presses, y.2 = s.now) ∧
    (s.curState = .authRequired ∨ s.curState = .authorized)
  checking : ∀ n, s.pc = .checkAuth n → n = s.now
  /-- At most one of the settings is on its way, and then the state is `provisioning`. -/
  single : s.pc ≠ .leaving → s.settingsCount = 0 ∨
    s.settingsCount = 1 ∧ s.curState = .provisioning
  /-- Settings in the queue were accepted in time. -/
  queued : s.pc ≠ .leaving → ∀ x ∈ s.provQ.zip g.queuedAt, x.1.isSettings = true →
    AuthorizedAt g.presses x.2

variable {cfg : ImprovConfig} {s t : Improv} {g : PresenceLog} {a : ImprovAction}

theorem presenceInv_boot (hcfg : cfg.requireAuth = true) (returnOnExpiry : Bool)
    (store : CredStore) : PresenceInv (.boot cfg returnOnExpiry store) .boot where
  length_queuedAt := rfl
  queuedAt_le := nofun
  presses_le := nofun
  present := ⟨nofun, nofun⟩
  auth := fun h ↦ absurd rfl h
  authorized := fun h ↦ by simp [Improv.boot, ImprovShared.boot, idleState, hcfg] at h
  deauthorizing := nofun
  authorizing := nofun
  checking := nofun
  single := fun _ ↦ Or.inl rfl
  queued := fun _ ↦ nofun

/-- Where nothing is on its way, the state is none in which settings are tested. -/
theorem PresenceInv.settingsCount_eq_zero (h : PresenceInv s g) (hpc : s.pc ≠ .leaving)
    (hstate : s.curState ≠ .provisioning) : s.settingsCount = 0 := by
  rcases h.single hpc with h0 | ⟨-, hprov⟩
  · exact h0
  · exact absurd hprov hstate

/-- While settings are tested, the state is `provisioning`. -/
theorem PresenceInv.provisioning_of_testing (h : PresenceInv s g) (htest : s.pc.isTesting = true) :
    s.curState = .provisioning ∧ s.provQ.countP ProvMsg.isSettings = 0 := by
  have hpc : s.pc ≠ .leaving := fun hpc ↦ by simp [hpc, ImprovPc.isTesting] at htest
  have hsingle := h.single hpc
  rw [Improv.settingsCount, if_pos htest] at hsingle
  rcases hsingle with h0 | ⟨h1, hprov⟩
  · omega
  · exact ⟨hprov, by omega⟩

/-- A step of the main loop that takes nothing from the queue, and no time. -/
theorem PresenceInv.of_main (h : PresenceInv s g) (hq : t.provQ = s.provQ) (hnow : t.now = s.now)
    (hleave : t.pc ≠ .leaving → s.pc ≠ .leaving) (htest : ∀ creds, t.pc ≠ .testing creds)
    (hpress : t.pc ≠ .authorize) (hcheck : ∀ n, t.pc = .checkAuth n → n = s.now)
    (hauth : t.authUntil ≠ 0 → ∃ y ∈ g.presses, t.authUntil = y.2 + authPeriodMs)
    (hauthorized : t.curState = .authorized → t.pc ≠ .leaving → (∀ n, t.pc ≠ .deauthorize n) →
      t.authUntil ≠ 0 ∧ t.now ≤ t.authUntil)
    (hdeauth : ∀ n, t.pc = .deauthorize n → t.curState = .authorized)
    (hsingle : t.pc ≠ .leaving → t.settingsCount = 0 ∨
      t.settingsCount = 1 ∧ t.curState = .provisioning) : PresenceInv t g where
  length_queuedAt := by rw [hq, h.length_queuedAt]
  queuedAt_le := by rw [hnow]; exact h.queuedAt_le
  presses_le := by rw [hnow]; exact h.presses_le
  present := ⟨fun creds hpc ↦ absurd hpc (htest creds), h.present.authorized⟩
  auth := hauth
  authorized := hauthorized
  deauthorizing := hdeauth
  authorizing := fun hpc ↦ absurd hpc hpress
  checking := fun n hpc ↦ by rw [hnow]; exact hcheck n hpc
  single := hsingle
  queued := fun hpc ↦ by rw [hq]; exact h.queued (hleave hpc)

/-- The same, for a step after which the loop waits again or has been left. -/
theorem PresenceInv.of_settled (h : PresenceInv s g) (hq : t.provQ = s.provQ)
    (hnow : t.now = s.now) (hpc : t.pc = .wait ∨ t.pc = .leaving)
    (hleave : t.pc ≠ .leaving → s.pc ≠ .leaving)
    (hauth : t.authUntil ≠ 0 → ∃ y ∈ g.presses, t.authUntil = y.2 + authPeriodMs)
    (hauthorized : t.curState = .authorized → t.pc ≠ .leaving →
      t.authUntil ≠ 0 ∧ t.now ≤ t.authUntil)
    (hsingle : t.pc ≠ .leaving → t.settingsCount = 0 ∨
      t.settingsCount = 1 ∧ t.curState = .provisioning) : PresenceInv t g := by
  have hnot : ∀ pc : ImprovPc, pc ≠ .wait → pc ≠ .leaving → t.pc ≠ pc := fun pc hw hl hp ↦
    hpc.elim (fun h ↦ hw (hp.symm.trans h)) fun h ↦ hl (hp.symm.trans h)
  exact h.of_main hq hnow hleave (fun c ↦ hnot _ (by simp) (by simp)) (hnot _ (by simp) (by simp))
    (fun n hp ↦ absurd hp (hnot _ (by simp) (by simp))) hauth
    (fun hstate hl _ ↦ hauthorized hstate hl)
    (fun n hp ↦ absurd hp (hnot _ (by simp) (by simp))) hsingle

/-! ### The steps of the main loop -/

theorem PresenceInv.tick (h : PresenceInv s g) {ms : ℕ} (hok : Timely s (.tick ms)) :
    PresenceInv { s with now := s.now + ms } g where
  length_queuedAt := h.length_queuedAt
  queuedAt_le := fun a ha ↦ Nat.le_add_right_of_le (h.queuedAt_le a ha)
  presses_le := fun y hy ↦ ⟨(h.presses_le y hy).1, Nat.le_add_right_of_le (h.presses_le y hy).2⟩
  present := ⟨h.present.noted, h.present.authorized⟩
  auth := h.auth
  authorized := fun hstate hleave hdeauth ↦ by
    obtain ⟨hne, hle⟩ := h.authorized hstate hleave hdeauth
    refine ⟨hne, ?_⟩
    change s.MayPass ms s.pc at hok
    have hnot := fun htest ↦ (h.provisioning_of_testing htest).1
    dsimp only at hstate hleave hdeauth ⊢
    cases hpc : s.pc with
    | wait =>
      rw [hpc] at hok
      exact hok.2.2 hne
    | testing creds => exact absurd (hstate.symm.trans (hnot (by rw [hpc]; rfl))) (by decide)
    | storing creds => exact absurd (hstate.symm.trans (hnot (by rw [hpc]; rfl))) (by decide)
    | leaving => exact absurd hpc hleave
    | _ =>
      rw [hpc] at hok
      exact hok.elim
  deauthorizing := h.deauthorizing
  authorizing := fun hpc ↦ by
    change s.MayPass ms s.pc at hok
    rw [show s.pc = .authorize from hpc] at hok
    exact hok.elim
  checking := fun n hpc ↦ by
    change s.MayPass ms s.pc at hok
    rw [show s.pc = .checkAuth n from hpc] at hok
    exact hok.elim
  single := h.single
  queued := h.queued

theorem PresenceInv.timeout (h : PresenceInv s g) (hstep : improvStep cfg s .timeout = some t) :
    PresenceInv t g ∧ t.provQ = s.provQ := by
  obtain ⟨⟨hpc, -, -⟩, rfl⟩ := improvStep_timeout hstep
  refine ⟨h.of_main rfl rfl (fun _ ↦ by simp [hpc]) nofun nofun
    (fun n hn ↦ (ImprovPc.checkAuth.inj hn).symm) h.auth (fun hstate _ _ ↦ ?_) nofun (fun _ ↦ ?_),
    rfl⟩
  · exact h.authorized hstate (by simp [hpc]) (by simp [hpc])
  · have hsingle := h.single (by simp [hpc])
    rw [Improv.settingsCount, hpc] at hsingle
    exact hsingle

theorem PresenceInv.joined (hcfg : cfg.requireAuth = true) (h : PresenceInv s g) {rc : ℤ}
    (hstep : improvStep cfg s (.joined rc) = some t) : PresenceInv t g ∧ t.provQ = s.provQ := by
  obtain ⟨creds, hpc, ht⟩ := improvStep_joined hstep
  have htest : s.pc.isTesting = true := by rw [hpc]; rfl
  obtain ⟨hprov, hcount⟩ := h.provisioning_of_testing htest
  rcases ht with rfl | rfl
  · refine ⟨h.of_settled rfl rfl (Or.inl rfl) (fun _ ↦ by simp [hpc]) h.auth
      (fun hstate _ ↦ ?_) (fun _ ↦ Or.inl ?_), rfl⟩
    · -- the state after a failed join is `authorized` only while the authorization is running
      have hnow : s.authorizedNow = true := by
        dsimp only at hstate
        rw [stateAfterFailedJoin, hcfg, Bool.not_true, Bool.or_false] at hstate
        split_ifs at hstate with hnow
        exact hnow
      rw [Improv.authorizedNow, Bool.and_eq_true, decide_eq_true_eq, decide_eq_true_eq] at hnow
      exact ⟨hnow.1, Nat.le_of_lt hnow.2⟩
    · rw [Improv.settingsCount]
      exact hcount
  · refine ⟨h.of_main rfl rfl (fun _ ↦ by simp [hpc]) (by simp) (by simp) (by simp) h.auth
      (fun hstate _ _ ↦ absurd (hstate.symm.trans hprov) (by decide)) (by simp) (fun _ ↦ Or.inr ?_),
      rfl⟩
    rw [Improv.settingsCount]
    exact ⟨congrArg (· + 1) hcount, hprov⟩

theorem PresenceInv.store (hcfg : cfg.requireAuth = true) (h : PresenceInv s g)
    {answer : StoreAnswer} (hstep : improvStep cfg s (.store answer) = some t) :
    PresenceInv t g ∧ t.provQ = s.provQ := by
  obtain ⟨creds, hpc, ht⟩ := improvStep_store hstep
  have htest : s.pc.isTesting = true := by rw [hpc]; rfl
  obtain ⟨hprov, hcount⟩ := h.provisioning_of_testing htest
  rcases ht with rfl | rfl
  · refine ⟨h.of_settled rfl rfl (Or.inl rfl) (fun _ ↦ by simp [hpc]) h.auth
      (fun hstate _ ↦ ?_) (fun _ ↦ Or.inl hcount), rfl⟩
    dsimp only at hstate
    rw [idleState, hcfg] at hstate
    exact absurd hstate (by decide)
  · exact ⟨h.of_settled rfl rfl (Or.inr rfl) (fun hl ↦ absurd rfl hl) h.auth
      (fun _ hl ↦ absurd rfl hl) (fun hl ↦ absurd rfl hl), rfl⟩

theorem PresenceInv.authorize (h : PresenceInv s g)
    (hstep : improvStep cfg s .authorize = some t) : PresenceInv t g ∧ t.provQ = s.provQ := by
  obtain ⟨hpc, rfl⟩ := improvStep_authorize hstep
  obtain ⟨-, ⟨y, hy, hnow⟩, hstate⟩ := h.authorizing hpc
  have hleave : s.pc ≠ .leaving := by simp [hpc]
  have hcount : s.settingsCount = 0 := h.settingsCount_eq_zero hleave (by
    rcases hstate with hst | hst <;> simp [hst])
  refine ⟨h.of_settled rfl rfl (Or.inl rfl) (fun _ ↦ hleave) (fun _ ↦ ⟨y, hy, by rw [hnow]⟩)
    (fun _ _ ↦ ⟨?_, Nat.le_add_right _ _⟩) (fun _ ↦ Or.inl ?_), rfl⟩
  · exact Nat.ne_of_gt (Nat.lt_of_lt_of_le (show 0 < authPeriodMs by decide) (Nat.le_add_left _ _))
  · rw [Improv.settingsCount, hpc] at hcount
    exact hcount

theorem PresenceInv.checkAuth (h : PresenceInv s g)
    (hstep : improvStep cfg s .checkAuth = some t) : PresenceInv t g ∧ t.provQ = s.provQ := by
  obtain ⟨now, hpc, ht⟩ := improvStep_checkAuth hstep
  have hleave : s.pc ≠ .leaving := by simp [hpc]
  have hsingle := h.single hleave
  rw [Improv.settingsCount, hpc] at hsingle
  rcases ht with ⟨hstate, rfl⟩ | ⟨hstate, rfl⟩ | rfl
  · exact ⟨h.of_main rfl rfl (fun _ ↦ hleave) nofun nofun nofun (fun hne ↦ absurd rfl hne)
      (fun _ _ hne ↦ absurd rfl (hne now)) (fun _ _ ↦ hstate) (fun _ ↦ hsingle), rfl⟩
  · exact ⟨h.of_main rfl rfl (fun _ ↦ hleave) nofun nofun nofun (fun hne ↦ absurd rfl hne)
      (fun hst ↦ absurd hst hstate) nofun (fun _ ↦ hsingle), rfl⟩
  · exact ⟨h.of_main rfl rfl (fun _ ↦ hleave) nofun nofun nofun h.auth
      (fun hst _ _ ↦ h.authorized hst hleave (by simp [hpc])) nofun (fun _ ↦ hsingle), rfl⟩

theorem PresenceInv.deauthorize (h : PresenceInv s g)
    (hstep : improvStep cfg s .deauthorize = some t) : PresenceInv t g ∧ t.provQ = s.provQ := by
  obtain ⟨now, hpc, rfl⟩ := improvStep_deauthorize hstep
  have hleave : s.pc ≠ .leaving := by simp [hpc]
  have hcount := h.settingsCount_eq_zero hleave (by simp [h.deauthorizing now hpc])
  rw [Improv.settingsCount, hpc] at hcount
  exact ⟨h.of_main rfl rfl (fun _ ↦ hleave) nofun nofun nofun h.auth nofun nofun
    (fun _ ↦ Or.inl hcount), rfl⟩

theorem PresenceInv.checkWindow (h : PresenceInv s g)
    (hstep : improvStep cfg s .checkWindow = some t) : PresenceInv t g ∧ t.provQ = s.provQ := by
  obtain ⟨now, hpc, ht⟩ := improvStep_checkWindow hstep
  have hleave : s.pc ≠ .leaving := by simp [hpc]
  have hsingle := h.single hleave
  rw [Improv.settingsCount, hpc] at hsingle
  have hauthorized : s.curState = .authorized → s.authUntil ≠ 0 ∧ s.now ≤ s.authUntil :=
    fun hstate ↦ h.authorized hstate hleave (by simp [hpc])
  rcases ht with rfl | rfl | rfl
  · exact ⟨h.of_settled rfl rfl (Or.inr rfl) (fun hl ↦ absurd rfl hl) h.auth
      (fun _ hl ↦ absurd rfl hl) (fun hl ↦ absurd rfl hl), rfl⟩
  · exact ⟨h.of_settled rfl rfl (Or.inl rfl) (fun _ ↦ hleave) h.auth
      (fun hstate _ ↦ hauthorized hstate) (fun _ ↦ hsingle), rfl⟩
  · exact ⟨h.of_settled rfl rfl (Or.inl rfl) (fun _ ↦ hleave) h.auth
      (fun hstate _ ↦ hauthorized hstate) (fun _ ↦ hsingle), rfl⟩

/-! ### The queue -/

/-- A handler ran: the loop stays where it is, and at most one message is queued. -/
theorem PresenceInv.of_handler (h : PresenceInv s g) (hmid : s.pc.midHandler = false)
    {u : ImprovShared} {new : List ProvMsg} (hq : u.provQ = s.provQ ++ new)
    (hstate : (new.countP ProvMsg.isSettings = 0 ∧ u.curState = s.curState) ∨
      s.curState = .authorized ∧ u.curState = .provisioning ∧
        new.countP ProvMsg.isSettings = 1) :
    PresenceInv { s with toImprovShared := u }
      { g with queuedAt := g.queuedAt ++ List.replicate new.length s.now } := by
  -- what the handler queues, it queues now
  have hlen : s.provQ.length = g.queuedAt.length := h.length_queuedAt.symm
  have hcount : ({ s with toImprovShared := u } : Improv).settingsCount =
      s.settingsCount + new.countP ProvMsg.isSettings := by
    rw [Improv.settingsCount, Improv.settingsCount]
    dsimp only
    rw [hq, List.countP_append]
    omega
  refine ⟨?_, ?_, h.presses_le, ⟨h.present.noted, h.present.authorized⟩, h.auth, ?_, ?_, ?_,
    h.checking, ?_, ?_⟩
  · rw [List.length_append, List.length_replicate]
    dsimp only
    rw [hq, List.length_append, h.length_queuedAt]
  · intro a ha
    rcases List.mem_append.1 ha with hold | hnew
    · exact h.queuedAt_le a hold
    · exact Nat.le_of_eq (List.eq_of_mem_replicate hnew)
  · intro hst hleave hdeauth
    rcases hstate with ⟨-, hsame⟩ | ⟨-, hprov, -⟩
    · exact h.authorized (hsame.symm.trans hst) hleave hdeauth
    · exact absurd (hprov.symm.trans hst) (by decide)
  · intro n hpc
    rw [show s.pc = .deauthorize n from hpc] at hmid
    exact absurd hmid (by simp [ImprovPc.midHandler])
  · intro hpc
    rw [show s.pc = .authorize from hpc] at hmid
    exact absurd hmid (by decide)
  · intro hleave
    rw [hcount]
    rcases hstate with ⟨hnone, hsame⟩ | ⟨hauth, hprov, hone⟩
    · rw [hnone]
      exact (h.single hleave).imp id fun hs ↦ ⟨hs.1, hsame.trans hs.2⟩
    · rw [hone, h.settingsCount_eq_zero hleave (by simp [hauth])]
      exact Or.inr ⟨rfl, hprov⟩
  · intro hleave x hx hset
    dsimp only at hx
    rw [hq, List.zip_append hlen] at hx
    rcases List.mem_append.1 hx with hold | hnew
    · exact h.queued hleave x hold hset
    · -- settings are accepted while the authorization is running
      obtain ⟨hmsg, htime⟩ := List.of_mem_zip hnew
      rcases hstate with ⟨hnone, -⟩ | ⟨hauth, -, -⟩
      · exact absurd hset (List.countP_eq_zero.1 hnone x.1 hmsg)
      · have hdeauth : ∀ n, s.pc ≠ .deauthorize n := fun n hpc ↦ by
          rw [hpc] at hmid
          exact absurd hmid (by simp [ImprovPc.midHandler])
        obtain ⟨hne, hle⟩ := h.authorized hauth hleave hdeauth
        obtain ⟨y, hy, huntil⟩ := h.auth hne
        rw [List.eq_of_mem_replicate htime]
        exact ⟨y, hy, (h.presses_le y hy).1, (h.presses_le y hy).2, huntil ▸ hle⟩

/-- A message leaves the queue. -/
theorem PresenceInv.pop (h : PresenceInv s g) (hpc : s.pc = .wait) {m : ProvMsg}
    {rest : List ProvMsg} {queued : ℕ} {times : List ℕ} (hq : s.provQ = m :: rest)
    (htimes : g.queuedAt = queued :: times) :
    PresenceInv { s with provQ := rest } { g with queuedAt := times } := by
  have hlen := h.length_queuedAt
  rw [hq, htimes, List.length_cons, List.length_cons] at hlen
  have hsub : ∀ x ∈ rest.zip times, x ∈ s.provQ.zip g.queuedAt := fun x hx ↦ by
    rw [hq, htimes, List.zip_cons_cons]
    exact List.mem_cons_of_mem _ hx
  refine ⟨Nat.succ.inj hlen, fun a ha ↦ h.queuedAt_le a (htimes ▸ List.mem_cons_of_mem _ ha),
    h.presses_le, ⟨h.present.noted, h.present.authorized⟩, h.auth, h.authorized, h.deauthorizing,
    fun hp ↦ absurd (hpc.symm.trans hp) (by decide), h.checking, fun hleave ↦ ?_,
    fun hleave x hx hset ↦ h.queued hleave x (hsub x hx) hset⟩
  have hle : rest.countP ProvMsg.isSettings ≤ s.provQ.countP ProvMsg.isSettings := by
    rw [hq]
    exact (List.sublist_cons_self m rest).countP_le
  have hsingle := h.single hleave
  rw [Improv.settingsCount] at hsingle ⊢
  dsimp only
  rcases hsingle with h0 | ⟨h1, hprov⟩
  · exact Or.inl (by omega)
  · rcases Nat.eq_zero_or_pos
      (rest.countP ProvMsg.isSettings + if s.pc.isTesting = true then 1 else 0) with h0 | hpos
    · exact Or.inl h0
    · exact Or.inr ⟨by omega, hprov⟩

theorem AuthorizedAt.mono {presses : List (ℕ × ℕ)} {time : ℕ} (h : AuthorizedAt presses time)
    (new : List (ℕ × ℕ)) : AuthorizedAt (presses ++ new) time := by
  obtain ⟨y, hy, htimes⟩ := h
  exact ⟨y, List.mem_append_left new hy, htimes⟩

/-- A press that is handled may be noted. -/
theorem PresenceInv.addPress (h : PresenceInv s g) {queued : ℕ} (hle : queued ≤ s.now) :
    PresenceInv s { g with presses := g.presses ++ [(queued, s.now)] } := by
  refine ⟨h.length_queuedAt, h.queuedAt_le, fun y hy ↦ ?_,
    ⟨h.present.noted, fun x hx ↦ (h.present.authorized x hx).mono _⟩, fun hne ↦ ?_, h.authorized,
    h.deauthorizing, fun hpc ↦ ?_, h.checking, h.single,
    fun hleave x hx hset ↦ (h.queued hleave x hx hset).mono _⟩
  · rcases List.mem_append.1 hy with hold | hnew
    · exact h.presses_le y hold
    · obtain rfl := List.mem_singleton.1 hnew
      exact ⟨hle, Nat.le_refl _⟩
  · obtain ⟨y, hy, huntil⟩ := h.auth hne
    exact ⟨y, List.mem_append_left _ hy, huntil⟩
  · obtain ⟨hidle, ⟨y, hy, hnow⟩, hstate⟩ := h.authorizing hpc
    exact ⟨hidle, ⟨y, List.mem_append_left _ hy, hnow⟩, hstate⟩

/-- Taking a message from the queue. -/
theorem PresenceInv.get (h : PresenceInv s g) (hstep : improvStep cfg s .get = some t) :
    PresenceInv t (presenceNotes s .get t g) := by
  obtain ⟨hpc, m, rest, hq, rfl⟩ := improvStep_get hstep
  obtain ⟨queued, times, htimes⟩ : ∃ q ts, g.queuedAt = q :: ts :=
    List.exists_cons_of_length_pos (by rw [h.length_queuedAt, hq]; exact Nat.succ_pos _)
  have hpop := h.pop hpc hq htimes
  have hnotes : presenceNotes s .get ({ s with provQ := rest }.dispatch cfg m) g =
      { g with queuedAt := times }.take s.idle s.now queued m := by
    unfold presenceNotes
    rw [hq, htimes]
  rw [hnotes]
  cases m with
  | settings creds =>
    rw [Improv.dispatch, PresenceLog.take]
    dsimp only
    rcases Bool.eq_false_or_eq_true s.idle with hidle | hidle
    · rw [if_pos hidle, if_pos hidle]
      exact hpop
    · rw [if_neg (ne_true_of_eq_false hidle), if_neg (ne_true_of_eq_false hidle)]
      -- the settings that are tested are the head of the queue
      have hhead : AuthorizedAt g.presses queued :=
        h.queued (by simp [hpc]) (.settings creds, queued)
          (by rw [hq, htimes, List.zip_cons_cons]; exact List.mem_cons_self) rfl
      have hsingle := h.single (by simp [hpc])
      rw [Improv.settingsCount, hq, hpc, List.countP_cons_of_pos rfl] at hsingle
      have hone : rest.countP ProvMsg.isSettings = 0 ∧ s.curState = .provisioning := by
        rcases hsingle with h0 | ⟨h1, hprov⟩
        · omega
        · exact ⟨by simpa [ImprovPc.isTesting] using h1, hprov⟩
      refine ⟨hpop.length_queuedAt, hpop.queuedAt_le, hpop.presses_le, ⟨fun c hc ↦ ?_,
        fun x hx ↦ ?_⟩, hpop.auth, fun hstate ↦ ?_, by simp, by simp, by simp,
        fun _ ↦ Or.inr ⟨?_, hone.2⟩, fun _ ↦ hpop.queued (by simp [hpc])⟩
      · obtain rfl : creds = c := ImprovPc.testing.inj hc
        exact ⟨queued, List.mem_append_right _ (List.mem_singleton_self _)⟩
      · rcases List.mem_append.1 hx with hold | hnew
        · exact h.present.authorized x hold
        · obtain rfl := List.mem_singleton.1 hnew
          exact hhead
      · exact absurd (hone.2.symm.trans hstate) (by decide)
      · rw [Improv.settingsCount]
        exact congrArg (· + 1) hone.1
  | button =>
    have hle : queued ≤ s.now := h.queuedAt_le queued (by rw [htimes]; exact List.mem_cons_self)
    have hadd := hpop.addPress hle
    rw [Improv.dispatch, PresenceLog.take]
    dsimp only
    rcases Bool.eq_false_or_eq_true s.idle with hidle | hidle
    · rw [if_pos hidle, if_pos hidle]
      exact ⟨hpop.length_queuedAt, hpop.queuedAt_le, hpop.presses_le,
        ⟨hpop.present.noted, hpop.present.authorized⟩, hpop.auth, hpop.authorized,
        hpop.deauthorizing, fun hp ↦ absurd (hpc.symm.trans hp) (by decide), hpop.checking,
        hpop.single, hpop.queued⟩
    · rw [if_neg (ne_true_of_eq_false hidle), if_neg (ne_true_of_eq_false hidle)]
      split
      · next hstate =>
        have hsingle := hpop.single (by simp [hpc])
        rw [Improv.settingsCount, hpc] at hsingle
        exact ⟨hadd.length_queuedAt, hadd.queuedAt_le, hadd.presses_le,
          ⟨by simp, hadd.present.authorized⟩, hadd.auth,
          fun hst _ _ ↦ hadd.authorized hst (by simp [hpc]) (by simp [hpc]), by simp,
          fun _ ↦ ⟨hidle, ⟨_, List.mem_append_right _ (List.mem_singleton_self _), rfl⟩,
            hstate.imp id And.left⟩, by simp, fun _ ↦ hsingle, fun _ ↦ hadd.queued (by simp [hpc])⟩
      · exact hadd

theorem presenceNotes_of_ne_get (h : a ≠ .get) (s t : Improv) (g : PresenceLog) :
    presenceNotes s a t g = { g with
      queuedAt := g.queuedAt ++ List.replicate (t.provQ.length - s.provQ.length) s.now } := by
  cases a with
  | get => exact absurd rfl h
  | _ => rfl

/-- Nothing is noted about a step that leaves the queue. -/
theorem presenceNotes_of_same (h : a ≠ .get) (hq : t.provQ = s.provQ) (g : PresenceLog) :
    presenceNotes s a t g = g := by
  rw [presenceNotes_of_ne_get h, hq, Nat.sub_self, List.replicate_zero, List.append_nil]

/-- A handler's step, with what it queues. -/
theorem PresenceInv.handler (h : PresenceInv s g) (hmid : s.pc.midHandler = false)
    (a : ImprovAction) (hne : a ≠ .get) {u : ImprovShared} (new : List ProvMsg)
    (hq : u.provQ = s.provQ ++ new)
    (hstate : (new.countP ProvMsg.isSettings = 0 ∧ u.curState = s.curState) ∨
      s.curState = .authorized ∧ u.curState = .provisioning ∧
        new.countP ProvMsg.isSettings = 1) :
    PresenceInv { s with toImprovShared := u }
      (presenceNotes s a { s with toImprovShared := u } g) := by
  rw [presenceNotes_of_ne_get hne, show ({ s with toImprovShared := u } : Improv).provQ = _ from hq,
    List.length_append, Nat.add_sub_cancel_left]
  exact h.of_handler hmid hq hstate

/-- **The step lemma.** -/
theorem PresenceInv.step (hcfg : cfg.requireAuth = true) (h : PresenceInv s g) (hok : Timely s a)
    (hstep : improvStep cfg s a = some t) : PresenceInv t (presenceNotes s a t g) := by
  -- a step of the main loop leaves the queue, and nothing is noted
  have hmain : a ≠ .get → PresenceInv t g ∧ t.provQ = s.provQ →
      PresenceInv t (presenceNotes s a t g) := fun hne ht ↦ by
    rw [presenceNotes_of_same hne ht.2]
    exact ht.1
  cases a with
  | write w =>
    obtain rfl := Option.some.inj hstep
    rcases writeRpc_cases s.toImprovShared s.now w with ⟨hauth, hprov, creds, hq⟩ | ⟨hsame, hq⟩
    · exact h.handler hok (.write w) (by simp) [.settings creds] hq (Or.inr ⟨hauth, hprov, rfl⟩)
    · exact h.handler hok (.write w) (by simp) [] (hq.trans (List.append_nil _).symm)
        (Or.inl ⟨rfl, hsame⟩)
  | disconnect =>
    obtain rfl := Option.some.inj hstep
    exact h.handler hok .disconnect (by simp) [] (List.append_nil _).symm (Or.inl ⟨rfl, rfl⟩)
  | button =>
    obtain rfl := Option.some.inj hstep
    rcases Nat.lt_or_ge s.provQ.length provQSize with hroom | hfull
    · refine h.handler hok .button (by simp) [.button] ?_ (Or.inl ⟨rfl, rfl⟩)
      rw [pressButton, msgqPut_of_lt hroom]
      rfl
    · refine h.handler hok .button (by simp) [] ?_ (Or.inl ⟨rfl, rfl⟩)
      rw [pressButton, msgqPut_of_le hfull]
      exact (List.append_nil _).symm
  | tick ms =>
    obtain rfl := Option.some.inj hstep
    exact hmain (by simp) ⟨h.tick hok, rfl⟩
  | get => exact h.get hstep
  | timeout => exact hmain (by simp) (h.timeout hstep)
  | joined rc => exact hmain (by simp) (h.joined hcfg hstep)
  | store answer => exact hmain (by simp) (h.store hcfg hstep)
  | authorize => exact hmain (by simp) (h.authorize hstep)
  | checkAuth => exact hmain (by simp) (h.checkAuth hstep)
  | deauthorize => exact hmain (by simp) (h.deauthorize hstep)
  | checkWindow => exact hmain (by simp) (h.checkWindow hstep)

/-- **Physical presence is required**: in every run with atomic handlers and a wait that returns on
time, settings are handed to the join test only if they were accepted at most a minute after the
main loop, not idle, handled a press. -/
theorem present_throughout (cfg : ImprovConfig) (hcfg : cfg.requireAuth = true)
    (returnOnExpiry : Bool) (store : CredStore) (as : List ImprovAction)
    (hall : AllSteps (improvStep cfg) Timely (.boot cfg returnOnExpiry store) as) :
    Throughout (presenceStep cfg) Present (.boot cfg returnOnExpiry store, .boot) as := by
  have hinv : Throughout (presenceStep cfg) (fun p ↦ PresenceInv p.1 p.2)
      (.boot cfg returnOnExpiry store, .boot) as := by
    refine throughout_of_invariant (fun p a q hp hok hstep ↦ ?_)
      (presenceInv_boot hcfg returnOnExpiry store) (allSteps_observed.2 hall)
    obtain ⟨hmachine, hnotes⟩ := observed_eq_some.1 hstep
    rw [hnotes]
    exact hp.step hcfg hok hmachine
  exact hinv.imp fun _ hp ↦ hp.present

/-- A provisioner that requires authorization. -/
def authConfig : ImprovConfig := { openConfig with requireAuth := true }

/-- A press, and settings half a minute later. -/
def pressedRun : List ImprovAction :=
  [.button, .get, .authorize, .tick 30000, settingsWrite, .get]

theorem present_pressedRun :
    Throughout (presenceStep authConfig) Present (.boot authConfig false [], .boot) pressedRun :=
  present_throughout authConfig rfl false [] pressedRun (by decide)

/-- A press while settings are tested is handled after the join has failed. Other settings are
accepted most of a minute after that. -/
def lateRun : List ImprovAction :=
  [.button, .get, .authorize, settingsWrite, .get, .tick 1000, .button, .tick 39000, .joined (-1),
    .get, .authorize, .tick 55000, settingsWrite, .get]

/-- The press that authorizes them is then more than a minute old. -/
theorem not_pressedRecently_lateRun :
    ¬ ∀ (cfg : ImprovConfig) (returnOnExpiry : Bool) (store : CredStore)
      (as : List ImprovAction), cfg.requireAuth = true →
      AllSteps (improvStep cfg) Timely (.boot cfg returnOnExpiry store) as →
      Throughout (presenceStep cfg) PressedRecently (.boot cfg returnOnExpiry store, .boot) as := by
  intro h
  exact absurd (h authConfig false [] lateRun rfl (by decide)) (by decide)

end ThinEdge.Provisioner
