import ThinEdge.Lib.Transition
import ThinEdge.Provisioner.ImprovRpc

/-!
# Improv: the provisioning loop

`improv_run` of `apps/wifi-provisioner/src/improv.c` on the main thread, interleaved with the
Bluetooth context's writes, the button, disconnects and the passing of time. `ImprovPc` says where
the loop stands; a handler runs as a whole, and the main thread's reads and writes of `cur_state`
are steps of their own.

`cur_state` moves to `provisioning` when settings are queued, and the loop moves it on when it has
tested them. Once the window has expired the loop takes messages from the queue and drops them, and
then nothing moves the state on: settings that were accepted just before leave it at `provisioning`
for good. `notWedged_iff_keepsSettings` shows that this is the only way.
-/

namespace ThinEdge.Provisioner

open Net Transition

/-- What the provisioner is built with. -/
structure ImprovConfig where
  /-- `CONFIG_APP_WIFI_PROV_REQUIRE_AUTH`. -/
  requireAuth : Bool
  /-- `CONFIG_APP_WIFI_PROV_WINDOW_S`. -/
  windowS : ℕ
  wifi : WifiConfig
  deriving DecidableEq, Repr

/-- `AUTH_PERIOD_MS`. -/
def authPeriodMs : ℕ := 60000

/-- Where the main loop stands. -/
inductive ImprovPc
  /-- In `k_msgq_get`. -/
  | wait
  /-- In `try_settings`, joining. -/
  | testing (creds : AppWifiCreds)
  /-- In `try_settings`, joined and about to store. -/
  | storing (creds : AppWifiCreds)
  /-- A button press is about to authorize. -/
  | authorize
  /-- The wait has timed out at `now`: the authorization is about to be checked. -/
  | checkAuth (now : ℕ)
  /-- The authorization has ended and `cur_state` was seen to be `authorized`. -/
  | deauthorize (now : ℕ)
  /-- The window is about to be checked. -/
  | checkWindow (now : ℕ)
  /-- About to reboot into the application. -/
  | leaving
  deriving DecidableEq, Repr

/-- The loop tests settings. -/
def ImprovPc.isTesting : ImprovPc → Bool
  | .testing _ | .storing _ => true
  | _ => false

/-- The state of the provisioner: what the threads share, the main loop's variables, the credential
store, and the uptime in ms. `authUntil` is zero when nothing is authorized. -/
structure Improv extends ImprovShared where
  pc : ImprovPc
  deadline : ℕ
  authUntil : ℕ
  idle : Bool
  returnOnExpiry : Bool
  store : CredStore
  now : ℕ
  deriving DecidableEq, Repr

/-- The steps of the main loop and of everything around it. -/
inductive ImprovAction
  /-- A write to the RPC characteristic. -/
  | write (w : GattWrite)
  | disconnect
  | button
  /-- Time passes. -/
  | tick (ms : ℕ)
  /-- `k_msgq_get` takes a message. -/
  | get
  /-- `k_msgq_get` times out. -/
  | timeout
  /-- `app_net_try_credentials` returns. -/
  | joined (rc : ℤ)
  | store (answer : StoreAnswer)
  | authorize
  | checkAuth
  | deauthorize
  | checkWindow
  deriving DecidableEq, Repr

/-- When the wait for a message ends without one: the end of the window unless the loop is idle, and
the end of the authorization when there is one. -/
def Improv.wakes (s : Improv) : Bool :=
  (!s.idle && s.deadline ≤ s.now) || (s.authUntil ≠ 0 && s.authUntil ≤ s.now)

/-- The authorization of a button press is still running. -/
def Improv.authorizedNow (s : Improv) : Bool := s.authUntil ≠ 0 && s.now < s.authUntil

/-- The main loop on a message from the queue. -/
def Improv.dispatch (cfg : ImprovConfig) (s : Improv) : ProvMsg → Improv
  | .settings creds =>
    -- settings that arrive in an idle device are dropped
    if s.idle then s else { s with pc := .testing creds }
  | .button =>
    if s.idle then { s with idle := false, deadline := s.now + cfg.windowS * 1000 }
    else if s.curState = .authRequired ∨ s.curState = .authorized ∧ cfg.requireAuth then
      { s with pc := .authorize }
    else s

/-- One step; `none` when it cannot be taken. -/
def improvStep (cfg : ImprovConfig) (s : Improv) : ImprovAction → Option Improv
  | .write w => some { s with toImprovShared := (writeRpc s.toImprovShared s.now w).1 }
  | .disconnect => some { s with toImprovShared := dropPartial s.toImprovShared }
  | .button => some { s with toImprovShared := pressButton s.toImprovShared }
  | .tick ms => some { s with now := s.now + ms }
  | .get =>
    if s.pc = .wait then
      match s.provQ with
      | m :: rest => some ({ s with provQ := rest }.dispatch cfg m)
      | [] => none
    else none
  | .timeout =>
    if s.pc = .wait ∧ s.provQ = [] ∧ s.wakes then some { s with pc := .checkAuth s.now } else none
  | .joined rc =>
    match s.pc with
    | .testing creds =>
      some (if rc ≠ 0 then
        { s with
          curError := .unableToConnect
          curState := stateAfterFailedJoin cfg.requireAuth s.authorizedNow
          pc := .wait }
        else { s with pc := .storing creds })
    | _ => none
  | .store answer =>
    match s.pc with
    | .storing creds =>
      some (if answer.setRc ≠ 0 then
        { s with
          store := answer.replaced creds
          curError := .unknown
          curState := idleState cfg.requireAuth
          pc := .wait }
        else { s with store := answer.replaced creds, curState := .provisioned, pc := .leaving })
    | _ => none
  | .authorize =>
    if s.pc = .authorize then
      some { s with authUntil := s.now + authPeriodMs, curState := .authorized, pc := .wait }
    else none
  | .checkAuth =>
    match s.pc with
    | .checkAuth now =>
      some (if s.authUntil ≠ 0 ∧ s.authUntil ≤ now then
        { s with
          authUntil := 0
          pc := if s.curState = .authorized then .deauthorize now else .checkWindow now }
        else { s with pc := .checkWindow now })
    | _ => none
  | .deauthorize =>
    match s.pc with
    | .deauthorize now => some { s with curState := .authRequired, pc := .checkWindow now }
    | _ => none
  | .checkWindow =>
    match s.pc with
    | .checkWindow now =>
      some (if s.idle = false ∧ s.deadline ≤ now then
        if s.returnOnExpiry ∨ (appWifiCredsResolve cfg.wifi s.store).isSome then
          { s with pc := .leaving }
        else { s with idle := true, pc := .wait }
        else { s with pc := .wait })
    | _ => none

/-- The loop's first wait. -/
def Improv.boot (cfg : ImprovConfig) (returnOnExpiry : Bool) (store : CredStore) : Improv where
  toImprovShared := .boot cfg.requireAuth
  pc := .wait
  deadline := cfg.windowS * 1000
  authUntil := 0
  idle := false
  returnOnExpiry := returnOnExpiry
  store := store
  now := 0

/-! ### The property and its condition -/

/-- Settings are queued. -/
def Improv.settingsQueued (s : Improv) : Bool := s.provQ.any ProvMsg.isSettings

/-- The loop waits with an empty queue only in a state that accepts settings or a button press, and
in `provisioning` there are settings queued or being tested. -/
def NotWedged (s : Improv) : Prop :=
  (s.pc = .wait → s.provQ = [] → s.curState = .authRequired ∨ s.curState = .authorized) ∧
    (s.curState = .provisioning → s.settingsQueued ∨ s.pc.isTesting)

/-- The loop does not drop the settings that `provisioning` stands for: in an idle device in that
state it takes no settings from the queue that have none behind them. -/
def KeepsSettings (s : Improv) : ImprovAction → Prop
  | .get => s.pc = .wait → ∀ m ∈ s.provQ.head?, m.isSettings → s.idle →
      s.curState = .provisioning → s.provQ.tail.any ProvMsg.isSettings
  | _ => True

instance (s : Improv) : Decidable (NotWedged s) := inferInstanceAs (Decidable (_ ∧ _))

instance (s : Improv) : (a : ImprovAction) → Decidable (KeepsSettings s a)
  | .get => inferInstanceAs (Decidable (s.pc = .wait → ∀ m ∈ s.provQ.head?, m.isSettings → s.idle →
      s.curState = .provisioning → s.provQ.tail.any ProvMsg.isSettings))
  | .write _ | .disconnect | .button | .tick _ | .timeout | .joined _ | .store _ | .authorize
  | .checkAuth | .deauthorize | .checkWindow => isTrue trivial

variable {cfg : ImprovConfig} {s t : Improv} {a : ImprovAction}

/-! ### What a step of the main loop does -/

theorem improvStep_get (h : improvStep cfg s .get = some t) :
    s.pc = .wait ∧ ∃ m rest, s.provQ = m :: rest ∧ t = { s with provQ := rest }.dispatch cfg m := by
  simp only [improvStep, Option.ite_none_right_eq_some] at h
  obtain ⟨hpc, h⟩ := h
  split at h <;> simp only [Option.some.injEq, reduceCtorEq] at h
  next m rest hq => exact ⟨hpc, m, rest, hq, h.symm⟩

theorem improvStep_timeout (h : improvStep cfg s .timeout = some t) :
    (s.pc = .wait ∧ s.provQ = [] ∧ s.wakes = true) ∧ t = { s with pc := .checkAuth s.now } := by
  simp only [improvStep, Option.ite_none_right_eq_some, Option.some.injEq] at h
  exact ⟨h.1, h.2.symm⟩

/-- The join fails, or the settings are to be stored. -/
theorem improvStep_joined {rc : ℤ} (h : improvStep cfg s (.joined rc) = some t) :
    ∃ creds, s.pc = .testing creds ∧
      (t = { s with
          curError := .unableToConnect
          curState := stateAfterFailedJoin cfg.requireAuth s.authorizedNow
          pc := .wait } ∨
        t = { s with pc := .storing creds }) := by
  simp only [improvStep] at h
  split at h <;> simp only [Option.some.injEq, reduceCtorEq] at h
  next creds hpc =>
  subst h
  refine ⟨creds, hpc, ?_⟩
  split
  · exact Or.inl rfl
  · exact Or.inr rfl

/-- The store fails, or the loop is left. -/
theorem improvStep_store {answer : StoreAnswer} (h : improvStep cfg s (.store answer) = some t) :
    ∃ creds, s.pc = .storing creds ∧
      (t = { s with
          store := answer.replaced creds
          curError := .unknown
          curState := idleState cfg.requireAuth
          pc := .wait } ∨
        t = { s with
          store := answer.replaced creds, curState := .provisioned, pc := .leaving }) := by
  simp only [improvStep] at h
  split at h <;> simp only [Option.some.injEq, reduceCtorEq] at h
  next creds hpc =>
  subst h
  refine ⟨creds, hpc, ?_⟩
  split
  · exact Or.inl rfl
  · exact Or.inr rfl

theorem improvStep_authorize (h : improvStep cfg s .authorize = some t) :
    s.pc = .authorize ∧
      t = { s with authUntil := s.now + authPeriodMs, curState := .authorized, pc := .wait } := by
  simp only [improvStep, Option.ite_none_right_eq_some, Option.some.injEq] at h
  exact ⟨h.1, h.2.symm⟩

/-- The authorization has run out, or it is left as it is. -/
theorem improvStep_checkAuth (h : improvStep cfg s .checkAuth = some t) :
    ∃ now, s.pc = .checkAuth now ∧
      (s.curState = .authorized ∧ t = { s with authUntil := 0, pc := .deauthorize now } ∨
        s.curState ≠ .authorized ∧ t = { s with authUntil := 0, pc := .checkWindow now } ∨
          t = { s with pc := .checkWindow now }) := by
  simp only [improvStep] at h
  split at h <;> simp only [Option.some.injEq, reduceCtorEq] at h
  next now hpc =>
  subst h
  refine ⟨now, hpc, ?_⟩
  split
  · rcases Decidable.em (s.curState = .authorized) with hstate | hstate
    · exact Or.inl ⟨hstate, by rw [if_pos hstate]⟩
    · exact Or.inr (Or.inl ⟨hstate, by rw [if_neg hstate]⟩)
  · exact Or.inr (Or.inr rfl)

theorem improvStep_deauthorize (h : improvStep cfg s .deauthorize = some t) :
    ∃ now, s.pc = .deauthorize now ∧
      t = { s with curState := .authRequired, pc := .checkWindow now } := by
  simp only [improvStep] at h
  split at h <;> simp only [Option.some.injEq, reduceCtorEq] at h
  next now hpc => exact ⟨now, hpc, h.symm⟩

/-- The loop is left, or it becomes idle, or it waits again. -/
theorem improvStep_checkWindow (h : improvStep cfg s .checkWindow = some t) :
    ∃ now, s.pc = .checkWindow now ∧
      (t = { s with pc := .leaving } ∨ t = { s with idle := true, pc := .wait } ∨
        t = { s with pc := .wait }) := by
  simp only [improvStep] at h
  split at h <;> simp only [Option.some.injEq, reduceCtorEq] at h
  next now hpc =>
  subst h
  refine ⟨now, hpc, ?_⟩
  split
  · split
    · exact Or.inl rfl
    · exact Or.inr (Or.inl rfl)
  · exact Or.inr (Or.inr rfl)

/-! ### The invariant -/

/-- In `provisioning` there are settings queued or being tested, and in `provisioned` the loop has
been left. -/
structure ImprovInv (s : Improv) : Prop where
  provisioning : s.curState = .provisioning → s.settingsQueued ∨ s.pc.isTesting
  provisioned : s.curState = .provisioned → s.pc = .leaving

theorem ImprovInv.notWedged (h : ImprovInv s) : NotWedged s := by
  refine ⟨fun hpc hq ↦ ?_, h.provisioning⟩
  cases hst : s.curState with
  | authRequired => exact Or.inl rfl
  | authorized => exact Or.inr rfl
  | provisioning =>
    rcases h.provisioning hst with hqueued | htest
    · simp [Improv.settingsQueued, hq] at hqueued
    · simp [hpc, ImprovPc.isTesting] at htest
  | provisioned =>
    have := h.provisioned hst
    rw [hpc] at this
    exact nomatch this

theorem improvInv_boot (cfg : ImprovConfig) (returnOnExpiry : Bool) (store : CredStore) :
    ImprovInv (.boot cfg returnOnExpiry store) := by
  constructor <;> cases h : cfg.requireAuth <;>
    simp [Improv.boot, ImprovShared.boot, idleState, h]

/-- A step of the main loop that sets the state to one that waits for a client. -/
theorem improvInv_of_waiting (h : t.curState = .authRequired ∨ t.curState = .authorized) :
    ImprovInv t := by
  rcases h with h | h <;> exact ⟨by simp [h], by simp [h]⟩

/-- A step that leaves the state and the queue, between two places at which nothing is tested. -/
theorem ImprovInv.of_eq (h : ImprovInv s) (hstate : t.curState = s.curState)
    (hq : t.provQ = s.provQ) (htest : s.pc.isTesting → t.pc.isTesting) (hleave : s.pc ≠ .leaving) :
    ImprovInv t := by
  refine ⟨fun ht ↦ ?_, fun ht ↦ absurd (h.provisioned (hstate ▸ ht)) hleave⟩
  rcases h.provisioning (hstate ▸ ht) with hqueued | htesting
  · exact Or.inl (by rw [Improv.settingsQueued, hq]; exact hqueued)
  · exact Or.inr (htest htesting)

/-- A step of the handlers: the main loop stays where it is, and the queue only grows. -/
theorem ImprovInv.of_handler (h : ImprovInv s) (hpc : t.pc = s.pc)
    (hshared : Queued s.toImprovShared t.toImprovShared ∨
      t.curState = s.curState ∧ s.provQ <+: t.provQ) : ImprovInv t := by
  rcases hshared with ⟨-, hprov, creds, hq⟩ | ⟨hstate, new, hq⟩
  · refine ⟨fun _ ↦ Or.inl ?_, fun ht ↦ ?_⟩
    · rw [Improv.settingsQueued, hq]
      simp [ProvMsg.isSettings]
    · rw [hprov] at ht
      exact nomatch ht
  · refine ⟨fun ht ↦ ?_, fun ht ↦ hpc ▸ h.provisioned (hstate ▸ ht)⟩
    rcases h.provisioning (hstate ▸ ht) with hqueued | htest
    · refine Or.inl ?_
      rw [Improv.settingsQueued] at hqueued ⊢
      rw [← hq, List.any_append, hqueued, Bool.true_or]
    · exact Or.inr (hpc ▸ htest)

theorem prefix_pressButton (s : ImprovShared) : s.provQ <+: (pressButton s).provQ := by
  rw [pressButton]
  rcases Nat.lt_or_ge s.provQ.length provQSize with hroom | hfull
  · rw [msgqPut_of_lt hroom]
    exact List.prefix_append _ _
  · rw [msgqPut_of_le hfull]
    exact List.prefix_refl _

/-! ### The steps -/

/-- Taking a message from the queue. -/
theorem ImprovInv.get (hinv : ImprovInv s) (hok : KeepsSettings s .get)
    (h : improvStep cfg s .get = some t) : ImprovInv t := by
  obtain ⟨hpc, m, rest, hq, rfl⟩ := improvStep_get h
  have hnotProvisioned : s.curState ≠ .provisioned := fun hst ↦ by
    have := hinv.provisioned hst
    rw [hpc] at this
    exact nomatch this
  -- in `provisioning` the settings are in the queue, since nothing is being tested
  have hqueued : s.curState = .provisioning → m.isSettings ∨ rest.any ProvMsg.isSettings := by
    intro hst
    rcases hinv.provisioning hst with hqueued | htest
    · rw [Improv.settingsQueued, hq, List.any_cons, Bool.or_eq_true] at hqueued
      exact hqueued
    · simp [hpc, ImprovPc.isTesting] at htest
  cases m with
  | settings creds =>
    by_cases hidle : s.idle
    · simp only [Improv.dispatch, hidle, if_true]
      refine ⟨fun hst ↦ Or.inl ?_, fun hst ↦ absurd hst hnotProvisioned⟩
      have hkeep := hok hpc (.settings creds) (by simp [hq]) rfl hidle hst
      rw [hq, List.tail_cons] at hkeep
      exact hkeep
    · simp only [Improv.dispatch, hidle]
      exact ⟨fun _ ↦ Or.inr rfl, fun hst ↦ absurd hst hnotProvisioned⟩
  | button =>
    have hrest : s.curState = .provisioning → rest.any ProvMsg.isSettings := fun hst ↦
      (hqueued hst).resolve_left nofun
    rw [Improv.dispatch]
    dsimp only
    split
    · exact ⟨fun hst ↦ Or.inl (hrest hst), fun hst ↦ absurd hst hnotProvisioned⟩
    split
    · exact ⟨fun hst ↦ Or.inl (hrest hst), fun hst ↦ absurd hst hnotProvisioned⟩
    · exact ⟨fun hst ↦ Or.inl (hrest hst), fun hst ↦ absurd hst hnotProvisioned⟩

/-- The state after a failed attempt, either way it fails. -/
theorem stateAfterFailedJoin_cases (requireAuth authorized : Bool) :
    stateAfterFailedJoin requireAuth authorized = .authRequired ∨
      stateAfterFailedJoin requireAuth authorized = .authorized := by
  rw [stateAfterFailedJoin]
  split
  · exact Or.inr rfl
  · exact Or.inl rfl

theorem idleState_cases (requireAuth : Bool) :
    idleState requireAuth = .authRequired ∨ idleState requireAuth = .authorized := by
  cases requireAuth
  · exact Or.inr rfl
  · exact Or.inl rfl

/-- **The step lemma.** -/
theorem ImprovInv.step (hinv : ImprovInv s) (hok : KeepsSettings s a)
    (h : improvStep cfg s a = some t) : ImprovInv t := by
  cases a with
  | write w =>
    obtain rfl := Option.some.inj h
    refine hinv.of_handler rfl ?_
    rcases writeRpc_cases s.toImprovShared s.now w with hqueued | ⟨hstate, hq⟩
    · exact Or.inl hqueued
    · exact Or.inr ⟨hstate, hq ▸ List.prefix_refl _⟩
  | disconnect =>
    obtain rfl := Option.some.inj h
    exact hinv.of_handler rfl (Or.inr ⟨rfl, List.prefix_refl _⟩)
  | button =>
    obtain rfl := Option.some.inj h
    exact hinv.of_handler rfl (Or.inr ⟨rfl, prefix_pressButton s.toImprovShared⟩)
  | tick ms =>
    obtain rfl := Option.some.inj h
    exact ⟨hinv.provisioning, hinv.provisioned⟩
  | get => exact hinv.get hok h
  | timeout =>
    obtain ⟨⟨hpc, -⟩, rfl⟩ := improvStep_timeout h
    exact hinv.of_eq rfl rfl (by simp [hpc, ImprovPc.isTesting]) (by simp [hpc])
  | joined rc =>
    obtain ⟨creds, hpc, rfl | rfl⟩ := improvStep_joined h
    · -- a failed join sets the state anew
      exact improvInv_of_waiting (stateAfterFailedJoin_cases _ _)
    · exact hinv.of_eq rfl rfl (fun _ ↦ rfl) (by simp [hpc])
  | store answer =>
    obtain ⟨creds, -, rfl | rfl⟩ := improvStep_store h
    · -- so does a failed write
      exact improvInv_of_waiting (idleState_cases _)
    · exact ⟨nofun, fun _ ↦ rfl⟩
  | authorize =>
    obtain ⟨-, rfl⟩ := improvStep_authorize h
    exact improvInv_of_waiting (Or.inr rfl)
  | checkAuth =>
    obtain ⟨now, hpc, ⟨-, rfl⟩ | ⟨-, rfl⟩ | rfl⟩ := improvStep_checkAuth h <;>
      exact hinv.of_eq rfl rfl (by simp [hpc, ImprovPc.isTesting]) (by simp [hpc])
  | deauthorize =>
    obtain ⟨now, -, rfl⟩ := improvStep_deauthorize h
    exact improvInv_of_waiting (Or.inl rfl)
  | checkWindow =>
    obtain ⟨now, hpc, rfl | rfl | rfl⟩ := improvStep_checkWindow h
    · -- the loop is left with what is queued
      refine ⟨fun hst ↦ ?_, fun _ ↦ rfl⟩
      rcases hinv.provisioning hst with hqueued | htest
      · exact Or.inl hqueued
      · simp [hpc, ImprovPc.isTesting] at htest
    · exact hinv.of_eq rfl rfl (by simp [hpc, ImprovPc.isTesting]) (by simp [hpc])
    · exact hinv.of_eq rfl rfl (by simp [hpc, ImprovPc.isTesting]) (by simp [hpc])

/-- A step that drops the settings leaves the loop waiting in `provisioning` for nothing. -/
theorem not_notWedged_of_drop (h : ¬ KeepsSettings s a) :
    ∃ t, improvStep cfg s a = some t ∧ ¬ NotWedged t := by
  cases a with
  | get =>
    simp only [KeepsSettings, Classical.not_imp, not_forall] at h
    obtain ⟨hpc, m, hm, hset, hidle, hst, hrest⟩ := h
    cases hq : s.provQ with
    | nil => simp [hq] at hm
    | cons m' rest =>
      rw [hq, List.head?_cons, Option.mem_def, Option.some.injEq] at hm
      rw [hq, List.tail_cons] at hrest
      subst hm
      cases m' with
      | button => exact absurd hset (by decide)
      | settings creds =>
        refine ⟨{ s with provQ := rest }, by simp [improvStep, hpc, hq, Improv.dispatch, hidle], ?_⟩
        rintro ⟨-, hprov⟩
        rcases hprov hst with hqueued | htest
        · exact hrest hqueued
        · simp [hpc, ImprovPc.isTesting] at htest
  | _ => exact absurd trivial h

/-! ### The main result -/

/-- **When Improv is not wedged**: in exactly the runs in which the loop does not drop the settings
that `provisioning` stands for. -/
theorem notWedged_iff_keepsSettings (cfg : ImprovConfig) (returnOnExpiry : Bool)
    (store : CredStore) (as : List ImprovAction) :
    Throughout (improvStep cfg) NotWedged (.boot cfg returnOnExpiry store) as ↔
      AllSteps (improvStep cfg) KeepsSettings (.boot cfg returnOnExpiry store) as :=
  throughout_iff_allSteps (fun _ h ↦ h.notWedged) (fun _ _ _ h hok hstep ↦ h.step hok hstep)
    (fun _ _ _ hno ↦ not_notWedged_of_drop hno) (improvInv_boot cfg returnOnExpiry store)

/-- A provisioner with a window of five minutes and no authorization. -/
def openConfig : ImprovConfig := ⟨false, 300, ⟨true, none⟩⟩

/-- A client writes the settings of the open network `h`, in one frame. -/
def settingsWrite : ImprovAction := .write ⟨[1, 3, 1, 104, 0, 109], 0, false, false⟩

/-- The settings arrive when the window has just expired, before the loop has become idle. -/
def expiringRun : List ImprovAction :=
  [.tick 300000, .timeout, .checkAuth, settingsWrite, .checkWindow, .get]

/-- The loop drops them and waits in `provisioning`, in which every later settings RPC is ignored.
-/
theorem not_notWedged_expiringRun :
    ¬ ∀ (cfg : ImprovConfig) (returnOnExpiry : Bool) (store : CredStore)
      (as : List ImprovAction),
      Throughout (improvStep cfg) NotWedged (.boot cfg returnOnExpiry store) as := by
  intro h
  exact absurd (h openConfig false [] expiringRun) (by decide)

end ThinEdge.Provisioner
