import ThinEdge.Lib.Transition
import ThinEdge.Net.Credentials

/-!
# Testing credentials by joining

`app_net_try_credentials` of `lib/common/net.c` with the event handlers that wake it, over any
number of attempts of the provisioner, interleaved with the station's own steps: it associates,
loses its association, is assigned an address and loses it, and delivers its events late, twice or
in another order.

The loop decides on one thing, that some IPv4 address is present. `verified_of_stationDown` shows
that this means what it should when the station is down each time an attempt issues its connect
request. Nothing ensures that: after a test that succeeded but whose credentials could not be stored
the station stays up, and the next attempt finds the old network's address.
-/

namespace ThinEdge.Net

namespace TryCredentials

open Transition

/-! ### The station -/

/-- What the station has done since an attempt began. -/
inductive NetEvent
  /-- A connect request for these credentials was accepted. -/
  | connect (c : AppWifiCreds)
  /-- The station associated with these credentials. -/
  | associate (c : AppWifiCreds)
  /-- An IPv4 address was assigned. -/
  | assign
  deriving DecidableEq, Repr

/-- The network management events that the handlers act on. -/
inductive MgmtEvent
  | l4Connected
  | l4Disconnected
  /-- `NET_EVENT_WIFI_DISCONNECT_RESULT`. -/
  | disconnectResult
  /-- `NET_EVENT_WIFI_CONNECT_RESULT`, with its status. -/
  | connectResult (status : ℤ)
  deriving DecidableEq, Repr

/-- `-ECONNREFUSED`. -/
def econnrefused : ℤ := -111

/-- `-ETIMEDOUT`. -/
def etimedout : ℤ := -116

/-- `-ENODEV`. -/
def enodev : ℤ := -19

/-- `-EINVAL`. -/
def einval : ℤ := -22

/-- `wifi_connect`: its result, given whether there is a Wi-Fi interface and what the connect
request returns. -/
def wifiConnect (iface : Bool) (rc : ℤ) (c : AppWifiCreds) : ℤ :=
  if !iface then enodev else if c.ssid = [] then einval else rc

/-- The result that the handlers pass to `try_done` for an event, if they do. -/
def MgmtEvent.tryDone : MgmtEvent → Option ℤ
  | .l4Connected => some 0
  | .l4Disconnected => none
  | .disconnectResult => some econnrefused
  | .connectResult status => if status ≠ 0 then some econnrefused else none

/-! ### The attempt -/

/-- Where the provisioner's main thread stands. -/
inductive Pc
  | idle
  /-- `try_sem` is reset and `try_active` is about to be set. -/
  | arm (c : AppWifiCreds)
  /-- The first connect request is about to be issued. -/
  | connect (c : AppWifiCreds)
  /-- At the head of the loop. -/
  | loop (c : AppWifiCreds) (attempts : ℕ)
  /-- `try_sem` was taken, and `try_result` is about to be read. -/
  | woken (c : AppWifiCreds) (attempts : ℕ)
  /-- After a failure, about to issue another connect request. -/
  | retry (c : AppWifiCreds) (attempts : ℕ)
  /-- About to read the interface's address. -/
  | readIpv4 (c : AppWifiCreds) (attempts : ℕ)
  /-- The loop is left with this result. -/
  | finish (c : AppWifiCreds) (rc : ℤ)
  /-- `app_net_try_credentials` has returned. -/
  | returned (c : AppWifiCreds) (rc : ℤ)
  deriving DecidableEq, Repr

/-- The state of the main thread, of the variables it shares with the event handlers, and of the
station. -/
structure TryState where
  pc : Pc
  tryActive : Bool
  trySem : Bool
  tryResult : ℤ
  /-- The credentials of the last accepted connect request, unless a disconnect followed it. -/
  requested : Option AppWifiCreds
  /-- The credentials the station is associated with. -/
  assoc : Option AppWifiCreds
  /-- The interface has an IPv4 address. -/
  addr : Bool
  /-- What the station has done since the attempt began. -/
  log : List NetEvent
  store : CredStore
  /-- The credentials that a front end has passed to the store, each with its attempt's log. -/
  stored : List (AppWifiCreds × List NetEvent)
  deriving DecidableEq, Repr

/-- The credentials whose first connect request is about to be issued. -/
def Pc.connecting : Pc → Option AppWifiCreds
  | .connect c => some c
  | _ => none

/-- The credentials whose test has returned 0. -/
def Pc.succeeded : Pc → Option AppWifiCreds
  | .returned c rc => if rc = 0 then some c else none
  | _ => none

/-- The steps of the main thread, of the event handlers and of the station. -/
inductive Action
  /-- A front end calls `app_net_try_credentials`. -/
  | start (c : AppWifiCreds)
  | arm
  /-- `wifi_connect`, the first or a repeated one, with what the platform answers. -/
  | wifiConnect (iface : Bool) (rc : ℤ)
  /-- `k_sem_take` within 500 ms, and whether it succeeds. -/
  | semTake (taken : Bool)
  | readResult
  | readIpv4
  /-- The time given to the attempt is over. -/
  | expire
  | finish
  /-- The front end stores the credentials, or leaves the attempt. -/
  | store (answer : StoreAnswer)
  | giveUp
  | event (e : MgmtEvent)
  | associate
  | disassociate
  | assign
  | release
  deriving DecidableEq, Repr

/-- `try_done`. -/
def tryDone (s : TryState) (result : ℤ) : TryState :=
  if s.tryActive then { s with tryActive := false, tryResult := result, trySem := true } else s

/-- A connect request: an accepted one is the station's next goal. -/
def request (s : TryState) (c : AppWifiCreds) (rc : ℤ) : TryState :=
  if rc = 0 then { s with requested := some c, log := s.log ++ [.connect c] } else s

/-- One step; `none` when it cannot be taken. -/
def step (s : TryState) : Action → Option TryState
  | .start c =>
    if s.pc = .idle then some { s with pc := .arm c, trySem := false, log := [] } else none
  | .arm =>
    match s.pc with
    | .arm c => some { s with pc := .connect c, tryActive := true }
    | _ => none
  | .wifiConnect iface rc =>
    match s.pc with
    | .connect c =>
      let rc := wifiConnect iface rc c
      some { request s c rc with pc := if rc = 0 then .loop c 1 else .finish c rc }
    | .retry c attempts =>
      -- the result of a repeated request is ignored
      some { request s c (wifiConnect iface rc c) with pc := .loop c attempts, tryActive := true }
    | _ => none
  | .semTake taken =>
    match s.pc with
    | .loop c attempts =>
      if taken then
        if s.trySem then some { s with pc := .woken c attempts, trySem := false } else none
      else if s.trySem then none
      else some { s with pc := .readIpv4 c attempts }
    | _ => none
  | .readResult =>
    match s.pc with
    | .woken c attempts =>
      some { s with
        pc := if s.tryResult = 0 then .readIpv4 c attempts
          else if 3 ≤ attempts then .finish c s.tryResult
          else .retry c (attempts + 1) }
    | _ => none
  | .readIpv4 =>
    match s.pc with
    | .readIpv4 c attempts =>
      some (if s.addr then { s with pc := .finish c 0 }
        else { s with pc := .loop c attempts, tryActive := true })
    | _ => none
  | .expire =>
    match s.pc with
    | .loop c _ => some { s with pc := .finish c etimedout }
    | _ => none
  | .finish =>
    match s.pc with
    | .finish c rc =>
      some { s with
        pc := .returned c rc
        tryActive := false
        requested := if rc ≠ 0 then none else s.requested }
    | _ => none
  | .store answer =>
    match s.pc with
    | .returned c rc =>
      if rc = 0 then
        some { s with
          pc := .idle, store := answer.replaced c, stored := s.stored ++ [(c, s.log)] }
      else none
    | _ => none
  | .giveUp =>
    match s.pc with
    | .returned _ _ => some { s with pc := .idle }
    | _ => none
  | .event e => some ((e.tryDone.map (tryDone s)).getD s)
  | .associate =>
    match s.requested with
    | some c => some { s with assoc := some c, log := s.log ++ [.associate c] }
    | none => none
  | .disassociate => some { s with assoc := none }
  | .assign =>
    if s.assoc.isSome then some { s with addr := true, log := s.log ++ [.assign] } else none
  | .release => some { s with addr := false }

/-- After boot, with the station down. -/
def TryState.boot (store : CredStore) : TryState where
  pc := .idle
  tryActive := false
  trySem := false
  tryResult := 0
  requested := none
  assoc := none
  addr := false
  log := []
  store := store
  stored := []

/-! ### The property and its condition -/

/-- The station has associated with `c` after the connect request for `c`, and has been assigned an
address after that. -/
def Joined (c : AppWifiCreds) (log : List NetEvent) : Prop :=
  [.connect c, .associate c, .assign].Sublist log

/-- A test that has returned 0 has joined with exactly its credentials, and so had every one whose
credentials a front end has stored. -/
def Verified (s : TryState) : Prop :=
  (∀ c ∈ s.pc.succeeded, Joined c s.log) ∧ ∀ p ∈ s.stored, Joined p.1 p.2

/-- The first connect request of an attempt, when it is accepted, finds the station with neither an
association nor an address. -/
def StationDown (s : TryState) : Action → Prop
  | .wifiConnect iface rc =>
    ∀ c ∈ s.pc.connecting, wifiConnect iface rc c = 0 → s.assoc = none ∧ s.addr = false
  | _ => True

instance (c : AppWifiCreds) (log : List NetEvent) : Decidable (Joined c log) :=
  inferInstanceAs (Decidable (List.Sublist _ _))

instance (s : TryState) : Decidable (Verified s) := inferInstanceAs (Decidable (_ ∧ _))

instance (s : TryState) : (a : Action) → Decidable (StationDown s a)
  | .wifiConnect iface rc => inferInstanceAs (Decidable (∀ c ∈ s.pc.connecting,
      wifiConnect iface rc c = 0 → s.assoc = none ∧ s.addr = false))
  | .start _ | .arm | .semTake _ | .readResult | .readIpv4 | .expire | .finish | .store _ | .giveUp
  | .event _ | .associate | .disassociate | .assign | .release => isTrue trivial

/-! ### The invariant -/

/-- After the connect request for `c`: the station pursues `c`, and what it has reached it has
reached since that request. -/
structure Pursuing (c : AppWifiCreds) (s : TryState) : Prop where
  requested : s.requested = some c
  connected : [NetEvent.connect c].Sublist s.log
  assoc : ∀ d ∈ s.assoc, d = c ∧ [NetEvent.connect c, .associate c].Sublist s.log
  addr : s.addr = true → Joined c s.log

/-- What each place of the main thread entails. -/
def Phase (s : TryState) : Prop :=
  match s.pc with
  | .loop c _ | .woken c _ | .retry c _ | .readIpv4 c _ => Pursuing c s
  | .finish c rc | .returned c rc => rc = 0 → Joined c s.log
  | _ => True

/-- The invariant of a run. -/
structure TryInv (s : TryState) : Prop where
  phase : Phase s
  stored : ∀ p ∈ s.stored, Joined p.1 p.2

variable {c : AppWifiCreds} {s t : TryState} {a : Action}

theorem TryInv.verified (h : TryInv s) : Verified s := by
  refine ⟨fun c hc ↦ ?_, h.stored⟩
  have hphase := h.phase
  rw [Phase] at hphase
  cases hpc : s.pc <;> simp only [hpc, Pc.succeeded, Option.mem_def, reduceCtorEq,
    Option.ite_none_right_eq_some, Option.some.injEq] at hc
  obtain ⟨hrc, rfl⟩ := hc
  rw [hpc] at hphase
  exact hphase hrc

/-- From the accepted request on, until the loop is left, the station is pursuing `c`. -/
theorem TryInv.pursuing {n : ℕ} (h : TryInv s) (hpc : s.pc = .loop c n ∨ s.pc = .woken c n ∨
    s.pc = .retry c n ∨ s.pc = .readIpv4 c n) : Pursuing c s := by
  have hphase := h.phase
  rw [Phase] at hphase
  rcases hpc with hpc | hpc | hpc | hpc <;> rw [hpc] at hphase <;> exact hphase

theorem tryInv_boot (store : CredStore) : TryInv (.boot store) :=
  ⟨trivial, by simp [TryState.boot]⟩

theorem Joined.mono {log log' : List NetEvent} (h : Joined c log) (hlog : log.Sublist log') :
    Joined c log' := List.Sublist.trans h hlog

/-- A step of the handlers or of the station keeps the phase when it keeps the pursuit and only adds
to the log. -/
theorem TryInv.of_pursuing (h : TryInv s) (hpc : t.pc = s.pc) (hstored : t.stored = s.stored)
    (hlog : s.log.Sublist t.log) (hpursue : ∀ c, Pursuing c s → Pursuing c t) : TryInv t := by
  refine ⟨?_, hstored ▸ h.stored⟩
  have hphase := h.phase
  rw [Phase] at hphase ⊢
  rw [hpc]
  split
  all_goals simp_all only
  case h_5 hs => exact fun hrc ↦ (hphase hrc).mono hlog
  case h_6 hs => exact fun hrc ↦ (hphase hrc).mono hlog

/-! ### The station's steps -/

theorem Pursuing.associate (h : Pursuing c s) {d : AppWifiCreds} (hd : s.requested = some d) :
    Pursuing c { s with assoc := some d, log := s.log ++ [.associate d] } := by
  obtain rfl : c = d := Option.some.inj (h.requested.symm.trans hd)
  have hassoc : [NetEvent.connect c, .associate c].Sublist (s.log ++ [.associate c]) :=
    h.connected.append (List.Sublist.refl [NetEvent.associate c])
  refine ⟨h.requested, h.connected.trans (List.sublist_append_left _ _), ?_, fun haddr ↦
    (h.addr haddr).mono (List.sublist_append_left _ _)⟩
  intro d hd
  exact ⟨(Option.some.inj hd).symm, hassoc⟩

theorem Pursuing.assign (h : Pursuing c s) (hsome : s.assoc.isSome) :
    Pursuing c { s with addr := true, log := s.log ++ [.assign] } := by
  obtain ⟨d, hd⟩ := Option.isSome_iff_exists.1 hsome
  have hsub := List.sublist_append_left s.log [NetEvent.assign]
  refine ⟨h.requested, h.connected.trans hsub, fun e he ↦ ?_, fun _ ↦ ?_⟩
  · exact ⟨(h.assoc e he).1, (h.assoc e he).2.trans hsub⟩
  · exact (h.assoc d hd).2.append (List.Sublist.refl [NetEvent.assign])

/-- A repeated connect request goes on with the same pursuit. -/
theorem Pursuing.request (h : Pursuing c s) (rc : ℤ) : Pursuing c (request s c rc) := by
  rw [TryCredentials.request]
  split
  · have hsub := List.sublist_append_left s.log [NetEvent.connect c]
    exact ⟨rfl, h.connected.trans hsub, fun d hd ↦ ⟨(h.assoc d hd).1, (h.assoc d hd).2.trans hsub⟩,
      fun haddr ↦ (h.addr haddr).mono hsub⟩
  · exact h

/-- An accepted connect request of a station that is down begins a pursuit. -/
theorem pursuing_of_down (hassoc : s.assoc = none) (haddr : s.addr = false) :
    Pursuing c (request s c 0) := by
  refine ⟨rfl, List.sublist_append_right _ _, fun d hd ↦ ?_, fun h ↦ ?_⟩
  · have : s.assoc = some d := hd
    rw [hassoc] at this
    exact nomatch this
  · have : s.addr = true := h
    rw [haddr] at this
    exact nomatch this

/-- A pursuit does not look at what the main thread and the handlers share. -/
theorem Pursuing.congr (h : Pursuing c s) (hreq : t.requested = s.requested)
    (hassoc : t.assoc = s.assoc) (haddr : t.addr = s.addr) (hlog : t.log = s.log) :
    Pursuing c t :=
  ⟨hreq ▸ h.requested, hlog ▸ h.connected, hassoc ▸ hlog ▸ h.assoc, haddr ▸ hlog ▸ h.addr⟩

theorem tryDone_frame (s : TryState) (result : ℤ) :
    (tryDone s result).pc = s.pc ∧ (tryDone s result).requested = s.requested ∧
      (tryDone s result).assoc = s.assoc ∧ (tryDone s result).addr = s.addr ∧
      (tryDone s result).log = s.log ∧ (tryDone s result).stored = s.stored := by
  rw [tryDone]
  split <;> exact ⟨rfl, rfl, rfl, rfl, rfl, rfl⟩

/-- An event only wakes the main thread. -/
theorem TryInv.tryDone (h : TryInv s) (result : ℤ) : TryInv (tryDone s result) := by
  obtain ⟨hpc, hreq, hassoc, haddr, hlog, hstored⟩ := tryDone_frame s result
  exact h.of_pursuing hpc hstored (by rw [hlog]) fun c hc ↦ hc.congr hreq hassoc haddr hlog

/-! ### The steps -/

attribute [local simp] step

/-- The connect request of an attempt, or a repeated one. -/
theorem TryInv.wifiConnect {iface : Bool} {rc : ℤ} (hinv : TryInv s)
    (hok : StationDown s (.wifiConnect iface rc)) (h : step s (.wifiConnect iface rc) = some t) :
    TryInv t := by
  have hstored : ∀ c rc, (request s c rc).stored = s.stored := by
    intro c rc
    rw [request]
    split <;> rfl
  simp only [step] at h
  split at h <;> simp only [Option.some.injEq, reduceCtorEq] at h <;> subst h
  · next c hpc =>
    refine ⟨?_, by simp only [hstored]; exact hinv.stored⟩
    by_cases hrc : TryCredentials.wifiConnect iface rc c = 0
    · obtain ⟨hassoc, haddr⟩ := hok c (by simp [hpc, Pc.connecting]) hrc
      rw [hrc, if_pos rfl]
      exact (pursuing_of_down hassoc haddr).congr rfl rfl rfl rfl
    · rw [if_neg hrc]
      exact fun h ↦ absurd h hrc
  · next c attempts hpc =>
    have hpursue := hinv.pursuing (Or.inr (Or.inr (Or.inl hpc)))
    refine ⟨?_, by simp only [hstored]; exact hinv.stored⟩
    exact (hpursue.request _).congr rfl rfl rfl rfl

/-- An event wakes the main thread, or is not one that `try_done` is called for. -/
theorem TryInv.event {e : MgmtEvent} (hinv : TryInv s) (h : step s (.event e) = some t) :
    TryInv t := by
  simp only [step, Option.some.injEq] at h
  subst h
  cases e.tryDone with
  | none => exact hinv
  | some result => exact hinv.tryDone result

/-- The station associates, and with what was last requested. -/
theorem TryInv.associate (hinv : TryInv s) (h : step s .associate = some t) : TryInv t := by
  simp only [step] at h
  split at h <;> simp only [Option.some.injEq, reduceCtorEq] at h
  next d hd =>
  subst h
  exact hinv.of_pursuing rfl rfl (List.sublist_append_left _ _) fun c hc ↦ hc.associate hd

/-- The station is assigned an address, on the network it is associated with. -/
theorem TryInv.assign (hinv : TryInv s) (h : step s .assign = some t) : TryInv t := by
  simp only [step, Option.ite_none_right_eq_some, Option.some.injEq] at h
  obtain ⟨hsome, rfl⟩ := h
  exact hinv.of_pursuing rfl rfl (List.sublist_append_left _ _) fun c hc ↦ hc.assign hsome

/-- The wait ends, woken or not, and the pursuit goes on. -/
theorem TryInv.semTake {taken : Bool} (hinv : TryInv s) (h : step s (.semTake taken) = some t) :
    TryInv t := by
  simp only [step] at h
  split at h
  · next c attempts hpc =>
    have hpursue := hinv.pursuing (Or.inl hpc)
    cases taken <;> simp only [Bool.false_eq_true, if_true, if_false,
      Option.ite_none_right_eq_some, Option.ite_none_left_eq_some, Option.some.injEq] at h
    · obtain ⟨-, rfl⟩ := h
      exact ⟨hpursue.congr rfl rfl rfl rfl, hinv.stored⟩
    · obtain ⟨-, rfl⟩ := h
      exact ⟨hpursue.congr rfl rfl rfl rfl, hinv.stored⟩
  · exact nomatch h

/-- A woken main thread looks at the address, gives up with an error or requests once more. -/
theorem TryInv.readResult (hinv : TryInv s) (h : step s .readResult = some t) : TryInv t := by
  simp only [step] at h
  split at h <;> simp only [Option.some.injEq, reduceCtorEq] at h
  next c attempts hpc =>
  subst h
  have hpursue := hinv.pursuing (Or.inr (Or.inl hpc))
  refine ⟨?_, hinv.stored⟩
  rw [Phase]
  by_cases hres : s.tryResult = 0
  · simp only [if_pos hres]
    exact hpursue.congr rfl rfl rfl rfl
  · by_cases hatt : 3 ≤ attempts
    · simp only [if_neg hres, if_pos hatt]
      exact fun h ↦ absurd h hres
    · simp only [if_neg hres, if_neg hatt]
      exact hpursue.congr rfl rfl rfl rfl

/-- The result 0 comes from here only: an address during the pursuit of `c` was assigned after
joining with `c`. -/
theorem TryInv.readIpv4 (hinv : TryInv s) (h : step s .readIpv4 = some t) : TryInv t := by
  simp only [step] at h
  split at h <;> simp only [Option.some.injEq, reduceCtorEq] at h
  next c attempts hpc =>
  subst h
  have hpursue := hinv.pursuing (Or.inr (Or.inr (Or.inr hpc)))
  split
  · next haddr => exact ⟨fun _ ↦ hpursue.addr haddr, hinv.stored⟩
  · exact ⟨hpursue.congr rfl rfl rfl rfl, hinv.stored⟩

/-- A front end stores what a test with the result 0 was called for. -/
theorem TryInv.store {answer : StoreAnswer} (hinv : TryInv s)
    (h : step s (.store answer) = some t) : TryInv t := by
  have hphase := hinv.phase
  rw [Phase] at hphase
  simp only [step] at h
  split at h <;> simp only [Option.ite_none_right_eq_some, Option.some.injEq, reduceCtorEq] at h
  next c rc hpc =>
  obtain ⟨hrc, rfl⟩ := h
  rw [hpc] at hphase
  refine ⟨trivial, fun p hp ↦ ?_⟩
  rcases List.mem_append.1 hp with hp | hp
  · exact hinv.stored p hp
  · obtain rfl := List.mem_singleton.1 hp
    exact hphase hrc

/-- **The step lemma.** -/
theorem TryInv.step (hinv : TryInv s) (hok : StationDown s a)
    (h : TryCredentials.step s a = some t) : TryInv t := by
  cases a with
  | wifiConnect iface rc => exact hinv.wifiConnect hok h
  | semTake taken => exact hinv.semTake h
  | readResult => exact hinv.readResult h
  | readIpv4 => exact hinv.readIpv4 h
  | store answer => exact hinv.store h
  | event e => exact hinv.event h
  | associate => exact hinv.associate h
  | assign => exact hinv.assign h
  | disassociate =>
    simp only [TryCredentials.step, Option.some.injEq] at h
    subst h
    exact hinv.of_pursuing rfl rfl (List.Sublist.refl _) fun c hc ↦
      ⟨hc.requested, hc.connected, nofun, hc.addr⟩
  | release =>
    simp only [TryCredentials.step, Option.some.injEq] at h
    subst h
    exact hinv.of_pursuing rfl rfl (List.Sublist.refl _) fun c hc ↦
      ⟨hc.requested, hc.connected, hc.assoc, nofun⟩
  | start c =>
    simp only [TryCredentials.step, Option.ite_none_right_eq_some, Option.some.injEq] at h
    obtain ⟨-, rfl⟩ := h
    exact ⟨trivial, hinv.stored⟩
  | arm =>
    simp only [TryCredentials.step] at h
    split at h <;> simp only [Option.some.injEq, reduceCtorEq] at h
    subst h
    exact ⟨trivial, hinv.stored⟩
  | expire =>
    simp only [TryCredentials.step] at h
    split at h <;> simp only [Option.some.injEq, reduceCtorEq] at h
    subst h
    exact ⟨fun hrc ↦ absurd hrc (by decide), hinv.stored⟩
  | finish =>
    have hphase := hinv.phase
    rw [Phase] at hphase
    simp only [TryCredentials.step] at h
    split at h <;> simp only [Option.some.injEq, reduceCtorEq] at h
    next c rc hpc =>
    subst h
    rw [hpc] at hphase
    exact ⟨hphase, hinv.stored⟩
  | giveUp =>
    simp only [TryCredentials.step] at h
    split at h <;> simp only [Option.some.injEq, reduceCtorEq] at h
    subst h
    exact ⟨trivial, hinv.stored⟩

/-! ### The main result -/

/-- **A test that succeeds has joined with exactly its credentials**, in every run in which each
attempt issues its connect request while the station is down. -/
theorem verified_of_stationDown (store : CredStore) (as : List Action)
    (has : AllSteps step StationDown (.boot store) as) :
    Throughout step Verified (.boot store) as :=
  (throughout_of_invariant (fun _ _ _ h hok hstep ↦ TryInv.step h hok hstep) (tryInv_boot store)
    has).imp fun _ h ↦ h.verified

/-- A network. -/
def homeCreds : AppWifiCreds := ⟨[104], [49, 50, 51, 52, 53, 54, 55, 56], by decide, by decide⟩

/-- Another one. -/
def otherCreds : AppWifiCreds := ⟨[111], [49, 50, 51, 52, 53, 54, 55, 57], by decide, by decide⟩

/-- A test that joins: the station associates and gets an address, and its events arrive. -/
def joiningRun (c : AppWifiCreds) : List Action :=
  [.start c, .arm, .wifiConnect true 0, .associate, .event (.connectResult 0), .assign,
    .event .l4Connected, .semTake true, .readResult, .readIpv4, .finish]

/-- One attempt after boot, whose credentials are stored. -/
theorem verified_joiningRun :
    ((exec step (.boot []) (joiningRun homeCreds ++ [.store ⟨[], 0⟩])).map TryState.store) =
        some [homeCreds.entry] ∧
      Throughout step Verified (.boot []) (joiningRun homeCreds ++ [.store ⟨[], 0⟩]) :=
  ⟨by decide, verified_of_stationDown [] (joiningRun homeCreds ++ [.store ⟨[], 0⟩]) (by decide)⟩

/-- The first attempt joins but its credentials cannot be stored. The second finds the address of
the first one's network and returns 0 before the station has done anything. -/
def lingeringRun : List Action :=
  joiningRun homeCreds ++ [.store ⟨[], -105⟩] ++
    [.start otherCreds, .arm, .wifiConnect true 0, .semTake false, .readIpv4, .finish,
      .store ⟨[], 0⟩]

/-- Credentials that were never joined with are stored. -/
theorem not_verified_lingeringRun :
    ¬ ∀ (store : CredStore) (as : List Action), Throughout step Verified (.boot store) as := by
  intro h
  exact absurd (h [] lingeringRun) (by decide)

end TryCredentials

end ThinEdge.Net
