import ThinEdge.Provisioner.ImprovClient

/-!
# Improv: the script's verdict

`session_truthful`: when `session` has found the device at rest and returns 0, the device has stored
the very credentials that were typed and is about to leave the provisioner; when it returns 1, the
device has stored nothing and never will; and what it prints as a URL is the URL of the application.
A return value of 2, or an error of `write_gatt_char`, says nothing.

The device has at most one attempt to make, since nobody else writes during the session. Until it
has been made every notification is one that the script passes over (`Passed`), then either all of
them belong to a refusal or all of them to a success; whichever of them are lost, what is left does
not tell the one for the other.
-/

namespace ThinEdge.Provisioner

open Bytes Net Settings Transition

/-! ### What a notification can mean -/

/-- A notification that says nothing of how the attempt ends. -/
def ImprovNote.Passed (n : ImprovNote) : Prop := n = .error 0 ∨ ∃ v, v ≠ 4 ∧ n = .state v

/-- A notification of a device that stores nothing. -/
def ImprovNote.Refuses (n : ImprovNote) : Prop := (∃ v, n = .error v) ∨ ∃ v, v ≠ 4 ∧ n = .state v

/-- A notification of a device that stores the credentials. -/
def ImprovNote.Stores (ident : Option ProvIdentity) (n : ImprovNote) : Prop :=
  n = .error 0 ∨ (∃ v, n = .state v) ∨ n = .result (resultFrame ident)

variable {cfg : ImprovConfig} {ident : Option ProvIdentity} {s : ImprovShared} {d t : Improv}
  {a : ImprovAction} {c : AppWifiCreds} {l : List ImprovNote} {n : ImprovNote}

theorem ImprovNote.Passed.refuses (h : n.Passed) : n.Refuses := h.imp (fun h ↦ ⟨0, h⟩) id

theorem ImprovNote.Passed.stores (h : n.Passed) : n.Stores ident :=
  h.imp id fun ⟨v, _, hn⟩ ↦ Or.inl ⟨v, hn⟩

theorem passed_setState {st : ImprovState} (h : st ≠ .provisioned) : (setState st).Passed := by
  refine Or.inr ⟨st.toUInt8, ?_, rfl⟩
  cases st with
  | provisioned => exact absurd rfl h
  | authRequired | authorized | provisioning => decide

theorem passed_none : (setError .none).Passed := Or.inl rfl

theorem refuses_setError (e : ImprovError) : (setError e).Refuses := Or.inl ⟨_, rfl⟩

theorem refuses_setState {st : ImprovState} (h : st ≠ .provisioned) : (setState st).Refuses :=
  (passed_setState h).refuses

/-! ### The device without a client's writes -/

/-- The settings in the queue. -/
def Improv.queuedSettings (d : Improv) : List ProvMsg := d.provQ.filter ProvMsg.isSettings

/-- The device has no settings, queued or being tested. -/
def Improv.Free (d : Improv) : Prop := d.queuedSettings = [] ∧ d.pc.isTesting = false

/-- The device has the settings `c` and no others. -/
def Improv.Pending (c : AppWifiCreds) (d : Improv) : Prop :=
  d.queuedSettings = [.settings c] ∧ d.pc.isTesting = false ∨
    d.queuedSettings = [] ∧ (d.pc = .testing c ∨ d.pc = .storing c)

/-- The device has stored `c` and leaves. -/
def Improv.HasStored (c : AppWifiCreds) (d : Improv) : Prop :=
  d.pc = .leaving ∧ ∃ answer : StoreAnswer, answer.setRc = 0 ∧ d.store = answer.replaced c

/-- The stored credentials are still `store`, or a write has failed behind their deletion. -/
def Improv.Kept (store : CredStore) (d : Improv) : Prop :=
  d.store = store ∨ ∃ answer : StoreAnswer, answer.setRc ≠ 0 ∧ d.store = answer.afterDelete

instance (d : Improv) : Decidable d.Free := inferInstanceAs (Decidable (_ ∧ _))

theorem filter_pressButton (s : ImprovShared) :
    (pressButton s).provQ.filter ProvMsg.isSettings = s.provQ.filter ProvMsg.isSettings := by
  rw [pressButton]
  rcases Nat.lt_or_ge s.provQ.length provQSize with hroom | hfull
  · rw [msgqPut_of_lt hroom]
    dsimp only [Option.getD_some]
    rw [List.filter_append]
    exact List.append_nil _
  · rw [msgqPut_of_le hfull]
    rfl

/-- A button press is dispatched without a test. -/
theorem dispatch_button (cfg : ImprovConfig) (d : Improv) (h : d.pc = .wait) :
    (d.dispatch cfg .button).pc.isTesting = false ∧ (d.dispatch cfg .button).provQ = d.provQ ∧
      (d.dispatch cfg .button).store = d.store := by
  rw [Improv.dispatch]
  split
  · exact ⟨by rw [h]; rfl, rfl, rfl⟩
  split
  · exact ⟨rfl, rfl, rfl⟩
  · exact ⟨by rw [h]; rfl, rfl, rfl⟩

/-- **A device without settings** does not come by any, and stores nothing. -/
theorem Improv.Free.step (ident : Option ProvIdentity) (h : d.Free) (ha : a.isWrite = false)
    (hst : improvStep cfg d a = some t) :
    t.Free ∧ t.store = d.store ∧ ∀ n ∈ improvNotes cfg ident d a, n.Passed := by
  obtain ⟨hq, htest⟩ := h
  cases a with
  | write w => exact nomatch ha
  | joined rc =>
    -- only settings are joined with, and only settings are stored
    obtain ⟨creds, hpc, -⟩ := improvStep_joined hst
    rw [hpc] at htest
    exact nomatch htest
  | store answer =>
    obtain ⟨creds, hpc, -⟩ := improvStep_store hst
    rw [hpc] at htest
    exact nomatch htest
  | disconnect | tick =>
    obtain rfl := Option.some.inj hst
    exact ⟨⟨hq, htest⟩, rfl, nofun⟩
  | button =>
    obtain rfl := Option.some.inj hst
    exact ⟨⟨(filter_pressButton d.toImprovShared).trans hq, htest⟩, rfl, nofun⟩
  | get =>
    obtain ⟨hpc, m, rest, hprov, rfl⟩ := improvStep_get hst
    rw [queuedSettings, hprov] at hq
    cases m with
    | settings creds => exact absurd hq (List.cons_ne_nil _ _)
    | button =>
      obtain ⟨htesting, hrest, hstore⟩ := dispatch_button cfg { d with provQ := rest } hpc
      exact ⟨⟨by rw [queuedSettings, hrest]; exact hq, htesting⟩, hstore, nofun⟩
  | timeout =>
    obtain ⟨-, rfl⟩ := improvStep_timeout hst
    exact ⟨⟨hq, rfl⟩, rfl, nofun⟩
  | authorize =>
    obtain ⟨-, rfl⟩ := improvStep_authorize hst
    refine ⟨⟨hq, rfl⟩, rfl, fun n hn ↦ ?_⟩
    rw [List.mem_singleton.1 hn]
    exact passed_setState nofun
  | deauthorize =>
    obtain ⟨now, -, rfl⟩ := improvStep_deauthorize hst
    refine ⟨⟨hq, rfl⟩, rfl, fun n hn ↦ ?_⟩
    rw [List.mem_singleton.1 hn]
    exact passed_setState nofun
  | checkAuth =>
    obtain ⟨now, -, ⟨-, rfl⟩ | ⟨-, rfl⟩ | rfl⟩ := improvStep_checkAuth hst <;>
      exact ⟨⟨hq, rfl⟩, rfl, nofun⟩
  | checkWindow =>
    obtain ⟨now, -, rfl | rfl | rfl⟩ := improvStep_checkWindow hst <;>
      exact ⟨⟨hq, rfl⟩, rfl, nofun⟩

/-- A loop that has been left does nothing more. -/
theorem Improv.HasStored.step (ident : Option ProvIdentity) (h : d.HasStored c)
    (ha : a.isWrite = false) (hst : improvStep cfg d a = some t) :
    t.HasStored c ∧ improvNotes cfg ident d a = [] := by
  obtain ⟨hpc, hstore⟩ := h
  cases a with
  | write w => exact nomatch ha
  | disconnect | button | tick =>
    obtain rfl := Option.some.inj hst
    exact ⟨⟨hpc, hstore⟩, rfl⟩
  | joined rc =>
    obtain ⟨creds, hpc', -⟩ := improvStep_joined hst
    exact nomatch hpc.symm.trans hpc'
  | store answer =>
    obtain ⟨creds, hpc', -⟩ := improvStep_store hst
    exact nomatch hpc.symm.trans hpc'
  | get =>
    obtain ⟨hpc', -⟩ := improvStep_get hst
    exact nomatch hpc.symm.trans hpc'
  | timeout =>
    obtain ⟨⟨hpc', -⟩, -⟩ := improvStep_timeout hst
    exact nomatch hpc.symm.trans hpc'
  | authorize =>
    obtain ⟨hpc', -⟩ := improvStep_authorize hst
    exact nomatch hpc.symm.trans hpc'
  | deauthorize =>
    obtain ⟨now, hpc', -⟩ := improvStep_deauthorize hst
    exact nomatch hpc.symm.trans hpc'
  | checkAuth =>
    obtain ⟨now, hpc', -⟩ := improvStep_checkAuth hst
    exact nomatch hpc.symm.trans hpc'
  | checkWindow =>
    obtain ⟨now, hpc', -⟩ := improvStep_checkWindow hst
    exact nomatch hpc.symm.trans hpc'

/-- What a step makes of pending settings. -/
inductive Outcome (ident : Option ProvIdentity) (store : CredStore) (c : AppWifiCreds)
    (l : List ImprovNote) (t : Improv) : Prop
  | pending (hdev : t.Pending c) (hstore : t.store = store) (hsent : ∀ n ∈ l, n.Passed)
  | refused (hdev : t.Free) (hkept : t.Kept store) (hsent : ∀ n ∈ l, n.Refuses)
  | stored (hdev : t.HasStored c) (hsent : ∀ n ∈ l, n.Stores ident)

theorem stateAfterFailedJoin_ne (requireAuth authorized : Bool) :
    stateAfterFailedJoin requireAuth authorized ≠ .provisioned := by
  rcases stateAfterFailedJoin_cases requireAuth authorized with h | h <;> rw [h] <;> exact nofun

theorem idleState_ne (requireAuth : Bool) : idleState requireAuth ≠ .provisioned := by
  rcases idleState_cases requireAuth with h | h <;> rw [h] <;> exact nofun

/-- Settings taken from the queue: they are tested, or an idle device drops them. -/
theorem Improv.Pending.get (h : d.Pending c) (hst : improvStep cfg d .get = some t) :
    Outcome ident d.store c [] t := by
  obtain ⟨hpc, m, rest, hprov, rfl⟩ := improvStep_get hst
  obtain ⟨hq, -⟩ | ⟨-, hpc' | hpc'⟩ := h
  · rw [queuedSettings, hprov] at hq
    cases m with
    | settings creds =>
      obtain ⟨hcreds, hrest⟩ := List.cons.inj hq
      obtain rfl := ProvMsg.settings.inj hcreds
      rw [Improv.dispatch]
      split
      · exact .refused ⟨hrest, by dsimp only; rw [hpc]; rfl⟩ (Or.inl rfl) (List.forall_mem_nil _)
      · exact .pending (Or.inr ⟨hrest, Or.inl rfl⟩) rfl (List.forall_mem_nil _)
    | button =>
      obtain ⟨htesting, hprov', hstore⟩ := dispatch_button cfg { d with provQ := rest } hpc
      exact .pending (Or.inl ⟨by rw [queuedSettings, hprov']; exact hq, htesting⟩) hstore
        (List.forall_mem_nil _)
  · cases hpc.symm.trans hpc'
  · cases hpc.symm.trans hpc'

/-- The join ends. -/
theorem Improv.Pending.joined {rc : ℤ} (h : d.Pending c)
    (hst : improvStep cfg d (.joined rc) = some t) :
    Outcome ident d.store c (improvNotes cfg ident d (.joined rc)) t := by
  simp only [improvStep] at hst
  split at hst <;> simp only [Option.some.injEq, reduceCtorEq] at hst
  next creds hpc =>
  obtain ⟨-, htest⟩ | ⟨hq, hpc' | hpc'⟩ := h
  · rw [hpc] at htest
    cases htest
  · obtain rfl := ImprovPc.testing.inj (hpc.symm.trans hpc')
    subst hst
    rw [improvNotes]
    split
    · next hrc =>
      rw [if_neg (not_not.2 hrc)]
      exact .pending (Or.inr ⟨hq, Or.inr rfl⟩) rfl (List.forall_mem_nil _)
    · next hrc =>
      refine .refused ⟨hq, rfl⟩ (Or.inl rfl) fun n hn ↦ ?_
      rcases List.mem_cons.1 hn with rfl | hn
      · exact refuses_setError _
      · rw [List.mem_singleton.1 hn]
        exact refuses_setState (stateAfterFailedJoin_ne _ _)
  · cases hpc.symm.trans hpc'

/-- The store ends. -/
theorem Improv.Pending.store {answer : StoreAnswer} (h : d.Pending c)
    (hst : improvStep cfg d (.store answer) = some t) :
    Outcome ident d.store c (improvNotes cfg ident d (.store answer)) t := by
  simp only [improvStep] at hst
  split at hst <;> simp only [Option.some.injEq, reduceCtorEq] at hst
  next creds hpc =>
  obtain ⟨-, htest⟩ | ⟨hq, hpc' | hpc'⟩ := h
  · rw [hpc] at htest
    cases htest
  · cases hpc.symm.trans hpc'
  · obtain rfl := ImprovPc.storing.inj (hpc.symm.trans hpc')
    subst hst
    rw [improvNotes]
    split
    · next hrc =>
      rw [if_neg (not_not.2 hrc)]
      refine .stored ⟨rfl, answer, hrc, rfl⟩ fun n hn ↦ ?_
      rcases List.mem_cons.1 hn with rfl | hn
      · exact Or.inr (Or.inl ⟨_, rfl⟩)
      · exact Or.inr (Or.inr (List.mem_singleton.1 hn))
    · next hrc =>
      refine .refused ⟨hq, rfl⟩
        (Or.inr ⟨answer, hrc, StoreAnswer.replaced_of_ne hrc creds⟩) fun n hn ↦ ?_
      rcases List.mem_cons.1 hn with rfl | hn
      · exact refuses_setError _
      · rw [List.mem_singleton.1 hn]
        exact refuses_setState (idleState_ne _)

/-- **A device with settings pending** keeps them, stores nothing, or stores them. -/
theorem Improv.Pending.step (ident : Option ProvIdentity) (h : d.Pending c) (ha : a.isWrite = false)
    (hst : improvStep cfg d a = some t) :
    Outcome ident d.store c (improvNotes cfg ident d a) t := by
  -- the loop is elsewhere than at a test
  have helse : d.pc.isTesting = false → d.queuedSettings = [.settings c] := fun hno ↦ by
    obtain ⟨hq, -⟩ | ⟨-, hpc | hpc⟩ := h
    · exact hq
    · rw [hpc] at hno
      exact nomatch hno
    · rw [hpc] at hno
      exact nomatch hno
  cases a with
  | write w => exact nomatch ha
  | get => exact h.get hst
  | joined rc => exact h.joined hst
  | store answer => exact h.store hst
  | disconnect | tick =>
    obtain rfl := Option.some.inj hst
    exact .pending h rfl nofun
  | button =>
    obtain rfl := Option.some.inj hst
    refine .pending ?_ rfl nofun
    have hsame := filter_pressButton d.toImprovShared
    exact h.imp (fun h ↦ ⟨hsame.trans h.1, h.2⟩) fun h ↦ ⟨hsame.trans h.1, h.2⟩
  | timeout =>
    obtain ⟨⟨hpc, -⟩, rfl⟩ := improvStep_timeout hst
    exact .pending (Or.inl ⟨helse (by rw [hpc]; rfl), rfl⟩) rfl nofun
  | authorize =>
    obtain ⟨hpc, rfl⟩ := improvStep_authorize hst
    refine .pending (Or.inl ⟨helse (by rw [hpc]; rfl), rfl⟩) rfl fun n hn ↦ ?_
    rw [List.mem_singleton.1 hn]
    exact passed_setState nofun
  | deauthorize =>
    obtain ⟨now, hpc, rfl⟩ := improvStep_deauthorize hst
    refine .pending (Or.inl ⟨helse (by rw [hpc]; rfl), rfl⟩) rfl fun n hn ↦ ?_
    rw [List.mem_singleton.1 hn]
    exact passed_setState nofun
  | checkAuth =>
    obtain ⟨now, hpc, ⟨-, rfl⟩ | ⟨-, rfl⟩ | rfl⟩ := improvStep_checkAuth hst <;>
      exact .pending (Or.inl ⟨helse (by rw [hpc]; rfl), rfl⟩) rfl nofun
  | checkWindow =>
    obtain ⟨now, hpc, rfl | rfl | rfl⟩ := improvStep_checkWindow hst <;>
      exact .pending (Or.inl ⟨helse (by rw [hpc]; rfl), rfl⟩) rfl nofun

/-! ### The client's writes -/

/-- The bytes `p` of a frame have been received. -/
structure Collects (s : ImprovShared) (p : List UInt8) : Prop where
  rx : RxInv s
  rxLen : s.rxLen = p.length
  bytes : s.rxBytes = p

/-- The device drops what is left of a write: it has dropped the beginning. -/
def Deaf (s : ImprovShared) (rest : List GattWrite) : Prop :=
  s.rxLen = 0 ∧ ∀ w ∈ rest, w.prepare = false ∧ w.offset ≠ 0

/-- A frame with its length in the second byte. -/
def Announced (f : List UInt8) : Prop := f.length = (f.getD 1 0).toNat + 3

variable {f p q : List UInt8} {w : GattWrite} {rest : List GattWrite} {now : ℕ}

theorem Collects.appendsTo (h : Collects s p) (hprep : w.prepare = false)
    (hoff : w.offset = p.length) (now : ℕ) :
    appendsTo s now w = some { s with rxLast := now } := by
  rw [Provisioner.appendsTo, hprep, if_neg Bool.false_ne_true]
  rcases Nat.eq_zero_or_pos p.length with hzero | hpos
  · rw [if_pos (hoff.trans hzero)]
    obtain ⟨curState, curError, rxBuf, rxLen, rxLast, provQ⟩ := s
    obtain rfl : rxLen = 0 := h.rxLen.trans hzero
    dsimp only
    rw [ite_self]
  · rw [if_neg (by omega), if_neg (not_not.2 (hoff.trans h.rxLen.symm))]

theorem Collects.received (h : Collects s p) (hfit : p.length + q.length ≤ frameMax) (now : ℕ) :
    Collects (({ s with rxLast := now } : ImprovShared).received q) (p ++ q) := by
  have hlen : s.rxBytes.length = s.rxLen := length_rxBytes h.rx
  have hinv : RxInv { s with rxLast := now } := ⟨h.rx.length_rxBuf, h.rx.rxLen_le⟩
  refine ⟨hinv.received (by dsimp only; rw [h.rxLen]; exact hfit), ?_, ?_⟩
  · rw [ImprovShared.received, List.length_append]
    dsimp only
    rw [h.rxLen]
  · rw [ImprovShared.rxBytes, ImprovShared.received]
    dsimp only
    rw [show s.rxBuf.take s.rxLen = p from h.bytes, h.rxLen, ← List.length_append,
      List.take_left' rfl]

/-- Two bytes say how long the frame is going to be. -/
theorem Collects.frameLength (h : Collects s p) (hf : Announced f) (hp : p ++ q = f)
    (h2 : 2 ≤ p.length) : s.frameLength = f.length := by
  have hget : s.rxBuf.getD 1 0 = f.getD 1 0 := by
    have htake : (s.rxBuf.take s.rxLen).getD 1 0 = p.getD 1 0 := congrArg (List.getD · 1 0) h.bytes
    rw [List.getD_eq_getElem?_getD, List.getElem?_take_of_lt (by rw [h.rxLen]; omega),
      ← List.getD_eq_getElem?_getD] at htake
    rw [htake, ← hp, List.getD_eq_getElem?_getD, List.getD_eq_getElem?_getD,
      List.getElem?_append_left h2]
  rw [ImprovShared.frameLength, hget, hf]

/-- The frame is complete with its last byte. -/
theorem Collects.complete_iff (h : Collects s p) (hf : Announced f) (hp : p ++ q = f) :
    2 ≤ s.rxLen ∧ s.frameLength ≤ s.rxLen ↔ q = [] := by
  have hlen : p.length + q.length = f.length := by rw [← hp, List.length_append]
  have hthree : 3 ≤ f.length := by
    rw [Announced] at hf
    omega
  rw [h.rxLen]
  constructor
  · rintro ⟨h2, hle⟩
    rw [h.frameLength hf hp h2] at hle
    exact List.length_eq_zero_iff.1 (by omega)
  · rintro rfl
    rw [List.length_nil, Nat.add_zero] at hlen
    have h2 : 2 ≤ p.length := by omega
    exact ⟨h2, by rw [h.frameLength hf hp h2]; omega⟩

/-- What a write brings: too much, another piece, or the frame. -/
theorem Collects.write (h : Collects s p) (hf : Announced f) (hp : p ++ w.bytes ++ q = f)
    (hprep : w.prepare = false) (hoff : w.offset = p.length) (now : ℕ) :
    (writeRpc s now w).2 = .count w.bytes.length ∧
      (Unmoved s (writeRpc s now w).1 ∧ (writeRpc s now w).1.rxLen = 0 ∧
          writeNotes s now w = [setError .invalidRpc] ∨
        q ≠ [] ∧ Unmoved s (writeRpc s now w).1 ∧
          Collects (writeRpc s now w).1 (p ++ w.bytes) ∧ writeNotes s now w = [] ∨
        q = [] ∧ ∃ r, toHandle s now w = some r ∧ r.rxBytes = f ∧
          writeNotes s now w = frameNotes r r.rxBuf r.rxLen) := by
  have happ := h.appendsTo hprep hoff now
  have hwrite := writeRpc_eq s now w
  rw [happ, Option.elim_some] at hwrite
  have hres : (writeRpc s now w).2 = .count w.bytes.length := by
    rw [writeRpc, hprep, if_neg Bool.false_ne_true]
    split
    · rfl
    · rw [if_neg (not_not.2 (hoff.trans h.rxLen.symm))]
  refine ⟨hres, ?_⟩
  rw [hwrite, writeNotes, toHandle, happ, Option.elim_some, Option.bind_some]
  obtain ⟨s', hs'⟩ : ∃ s' : ImprovShared, { s with rxLast := now } = s' := ⟨_, rfl⟩
  have hmoved : Unmoved s s' := hs' ▸ ⟨rfl, rfl⟩
  have hrx : s'.rxLen = p.length := by rw [← hs', ← h.rxLen]
  have hcoll := fun hfit ↦ h.received (q := w.bytes) hfit now
  rw [hs'] at hcoll ⊢
  -- too much for the buffer, or else the frame is complete exactly when nothing is left of it
  rcases Nat.lt_or_ge frameMax (s'.rxLen + w.bytes.length) with hlong | hfit
  · rw [appendRpc, appendNotes, if_pos hlong, if_pos hlong]
    exact Or.inl ⟨hmoved, rfl, rfl⟩
  have hcollected := hcoll (by rw [← hrx]; exact hfit)
  have hready := hcollected.complete_iff hf hp
  have hnotes : appendNotes s' w.bytes =
      if 2 ≤ (s'.received w.bytes).rxLen ∧
          (s'.received w.bytes).frameLength ≤ (s'.received w.bytes).rxLen then
        frameNotes (s'.received w.bytes) (s'.received w.bytes).rxBuf (s'.received w.bytes).rxLen
      else [] := by
    rw [appendNotes, if_neg (Nat.not_lt.2 hfit)]
  refine Or.inr ?_
  rcases eq_or_ne q [] with rfl | hq
  · refine Or.inr ⟨rfl, s'.received w.bytes, if_pos ⟨hfit, hready.2 rfl⟩, ?_, ?_⟩
    · rw [hcollected.bytes, ← hp, List.append_nil]
    · rw [hnotes, if_pos (hready.2 rfl)]
  · refine Or.inl ⟨hq, ?_, ?_, ?_⟩
    · have hnot : ¬ s'.Completes w.bytes := fun hcompl ↦ hq (hready.1 hcompl.2)
      obtain ⟨hstate, hprov⟩ := appendRpc_of_not_completes hnot
      exact ⟨hstate.trans hmoved.1, hprov.trans hmoved.2⟩
    · rw [appendRpc, if_neg (Nat.not_lt.2 hfit)]
      dsimp only
      rw [if_neg (mt hready.1 hq)]
      exact hcollected
    · rw [hnotes, if_neg (mt hready.1 hq)]

/-- A write to a deaf device is refused, and changes nothing. -/
theorem Deaf.write (h : Deaf s (w :: rest)) (now : ℕ) :
    writeRpc s now w = (s, .invalidOffset) ∧ writeNotes s now w = [] := by
  obtain ⟨hrx, hrest⟩ := h
  obtain ⟨hprep, hoff⟩ := hrest w List.mem_cons_self
  have hne : w.offset ≠ s.rxLen := hrx ▸ hoff
  rw [writeRpc, writeNotes, appendsTo, hprep, if_neg Bool.false_ne_true, if_neg hoff, if_pos hne,
    if_neg Bool.false_ne_true, if_neg hoff, if_pos hne]
  exact ⟨rfl, rfl⟩

/-- What a frame leads to, and what is said about it. -/
theorem frameNotes_cases (s : ImprovShared) (f : List UInt8) (n : ℕ) :
    (handleFrame s f n).provQ = s.provQ ∧ (∀ m ∈ frameNotes s f n, m.Refuses) ∨
      (∃ c, (handleFrame s f n).provQ = s.provQ ++ [.settings c]) ∧
        ∀ m ∈ frameNotes s f n, m.Passed := by
  have hone : ∀ e m, m ∈ [setError e] → m.Refuses := fun e m hm ↦
    List.mem_singleton.1 hm ▸ refuses_setError e
  simp only [handleFrame, frameNotes]
  split
  · exact Or.inl ⟨rfl, hone _⟩
  split
  · exact Or.inl ⟨rfl, hone _⟩
  split
  · rcases parseSettings f (f.getD 1 0).toNat with - | creds
    · exact Or.inl ⟨rfl, hone _⟩
    obtain ⟨curState, curError, rxBuf, rxLen, rxLast, provQ⟩ := s
    cases curState with
    | authorized =>
      simp only [settingsNotes, handleSettings, acceptSettings]
      rcases Nat.lt_or_ge provQ.length provQSize with hroom | hfull
      · rw [msgqPut_of_lt hroom]
        refine Or.inr ⟨⟨creds, rfl⟩, fun m hm ↦ ?_⟩
        rcases List.mem_cons.1 hm with rfl | hm
        · exact passed_none
        · rw [List.mem_singleton.1 hm]
          exact passed_setState (by rintro ⟨⟩)
      · rw [msgqPut_of_le hfull]
        refine Or.inl ⟨rfl, fun m hm ↦ ?_⟩
        rcases List.mem_cons.1 hm with rfl | hm
        · exact refuses_setError _
        rcases List.mem_cons.1 hm with rfl | hm
        · exact refuses_setState (by rintro ⟨⟩)
        rcases List.mem_cons.1 hm with rfl | hm
        · exact refuses_setState (by rintro ⟨⟩)
        · exact hone _ m hm
    | authRequired => exact Or.inl ⟨rfl, hone _⟩
    | provisioning | provisioned => exact Or.inl ⟨rfl, List.forall_mem_nil _⟩
  · exact Or.inl ⟨rfl, hone _⟩

/-- The whole frame has been received: its settings are queued, or it is refused. -/
theorem Collects.frame_cases (h : Collects s p) {r : ImprovShared} (hr : toHandle s now w = some r)
    (hf : r.rxBytes = f) (hnotes : writeNotes s now w = frameNotes r r.rxBuf r.rxLen) :
    (writeRpc s now w).1.provQ = s.provQ ∧ (∀ m ∈ writeNotes s now w, m.Refuses) ∨
      ∃ c : AppWifiCreds, (writeRpc s now w).1.provQ = s.provQ ++ [.settings c] ∧
        SettingsFrame c.ssid c.psk f ∧ ∀ m ∈ writeNotes s now w, m.Passed := by
  obtain ⟨hwrite, -, hprov⟩ := writeRpc_of_toHandle hr
  have hqueue : (writeRpc s now w).1.provQ = (handleFrame r r.rxBuf r.rxLen).provQ := by rw [hwrite]
  rw [hnotes, hqueue, ← hprov]
  rcases frameNotes_cases r r.rxBuf r.rxLen with ⟨hsame, hsent⟩ | ⟨⟨c, hc⟩, hsent⟩
  · exact Or.inl ⟨hsame, hsent⟩
  · refine Or.inr ⟨c, hc, ?_, hsent⟩
    obtain ⟨-, -, f', hf', hframe⟩ :=
      (h.rx.rpcExact.queues now w c).1 (by rw [hqueue, hc, hprov])
    rw [assembled, hr, Option.map_some, Option.some.injEq, hf] at hf'
    exact hf' ▸ hframe

/-! ### The session -/

/-- No write of the script will be taken any more. -/
def Muted (x : ImprovSession) : Prop :=
  ∀ rest, x.pc = .writing rest →
    x.linked = false ∨ rest = [] ∨ Deaf x.device.toImprovShared rest

/-- The frame is on its way. -/
structure Sending (f : List UInt8) (store : CredStore) (x : ImprovSession) (p : List UInt8)
    (rest : List GattWrite) : Prop where
  pc : x.pc = .writing rest
  rest_ne : rest ≠ []
  linked : x.linked = true
  collects : Collects x.device.toImprovShared p
  frame : p ++ writtenBytes rest = f
  consecutive : Consecutive p.length rest
  bytes_ne : ∀ w ∈ rest, w.bytes ≠ []
  free : x.device.Free
  store_eq : x.device.store = store
  events : ∀ n ∈ x.events, n.Passed

/-- How far the attempt has come, and what the script can have heard of it. -/
inductive Attempted (ident : Option ProvIdentity) (f : List UInt8) (store : CredStore)
    (x : ImprovSession) : Prop
  | sending (p : List UInt8) (rest : List GattWrite) (h : Sending f store x p rest)
  | pending (c : AppWifiCreds) (hframe : SettingsFrame c.ssid c.psk f)
      (hdev : x.device.Pending c) (hstore : x.device.store = store)
      (hevents : ∀ n ∈ x.events, n.Passed) (hmuted : Muted x)
      (hpc : x.pc ≠ .loop 0 ∧ x.pc ≠ .returned 0 ∧ x.pc ≠ .returned 1)
  | refused (hdev : x.device.Free) (hkept : x.device.Kept store)
      (hevents : ∀ n ∈ x.events, n.Refuses) (hmuted : Muted x)
      (hpc : x.pc ≠ .loop 0 ∧ x.pc ≠ .returned 0)
  | stored (c : AppWifiCreds) (hframe : SettingsFrame c.ssid c.psk f)
      (hdev : x.device.HasStored c) (hevents : ∀ n ∈ x.events, n.Stores ident) (hmuted : Muted x)
      (hpc : x.pc ≠ .returned 1)

variable {store : CredStore} {x y : ImprovSession} {heard : List ImprovNote}

theorem forall_mem_append_of_sublist {P : ImprovNote → Prop} (h : ∀ n ∈ x.events, P n)
    (hsent : ∀ n ∈ l, P n) (hsub : heard.Sublist l) : ∀ n ∈ x.events ++ heard, P n := by
  intro n hn
  rcases List.mem_append.1 hn with hn | hn
  · exact h n hn
  · exact hsent n (hsub.subset hn)

theorem length_of_nonempty {rest : List GattWrite} (h : ∀ w ∈ rest, w.bytes ≠ [])
    (hnil : writtenBytes rest = []) : rest = [] := by
  cases rest with
  | nil => rfl
  | cons w rest =>
    rw [writtenBytes_cons] at hnil
    exact absurd (List.append_eq_nil_iff.1 hnil).1 (h w List.mem_cons_self)

/-- The device handles a write of the frame. -/
theorem Sending.write (hf : Announced f) (h : Sending f store x p (w :: rest))
    (hsub : heard.Sublist (writeNotes x.device.toImprovShared x.device.now w)) :
    Attempted ident f store
      { x with
        device := { x.device with
          toImprovShared := (writeRpc x.device.toImprovShared x.device.now w).1 }
        events := x.events ++ heard
        pc := .afterWrite rest (writeRpc x.device.toImprovShared x.device.now w).2 } := by
  obtain ⟨hprep, hoff, hcons⟩ := h.consecutive
  have hp : p ++ w.bytes ++ writtenBytes rest = f := by
    rw [← h.frame, writtenBytes_cons, List.append_assoc]
  obtain ⟨hres, hcases⟩ := h.collects.write hf hp hprep hoff x.device.now
  have hbytes : ∀ w ∈ rest, w.bytes ≠ [] := fun v hv ↦ h.bytes_ne v (List.mem_cons_of_mem w hv)
  have hw : 0 < w.bytes.length := List.length_pos_iff.2 (h.bytes_ne w List.mem_cons_self)
  obtain ⟨hq, htest⟩ := h.free
  rw [hres]
  rcases hcases with ⟨⟨-, hprov⟩, hrx, hnotes⟩ | ⟨hmore, ⟨-, hprov⟩, hcoll, hnotes⟩ |
    ⟨hlast, r, hr, hrf, hnotes⟩
  · -- more than the buffer holds: the device has forgotten the beginning
    refine .refused ⟨(congrArg _ hprov).trans hq, htest⟩ (Or.inl h.store_eq)
      (forall_mem_append_of_sublist (fun n hn ↦ (h.events n hn).refuses) ?_ hsub) ?_ ⟨nofun, nofun⟩
    · rw [hnotes]
      exact fun n hn ↦ List.mem_singleton.1 hn ▸ refuses_setError _
    · intro rest' hpc
      obtain rfl := ScriptPc.writing.inj hpc
      refine Or.inr (Or.inr ⟨hrx, fun v hv ↦ ?_⟩)
      obtain ⟨hv, hge⟩ := hcons.offset_ge v hv
      exact ⟨hv, by omega⟩
  · -- another piece was collected
    refine .sending (p ++ w.bytes) rest
      ⟨rfl, fun hnil ↦ hmore (hnil ▸ rfl), h.linked, hcoll, hp,
        by rw [List.length_append]; exact hcons, hbytes,
        ⟨(congrArg _ hprov).trans hq, htest⟩, h.store_eq,
        forall_mem_append_of_sublist h.events ?_ hsub⟩
    rw [hnotes]
    exact nofun
  · -- the frame is complete, so the script has nothing more to write
    obtain rfl := length_of_nonempty hbytes hlast
    have hmuted : ∀ d : Improv, Muted { x with
        device := d, events := x.events ++ heard, pc := .writing [] } := fun d rest' hpc ↦
      Or.inr (Or.inl (ScriptPc.writing.inj hpc).symm)
    rcases h.collects.frame_cases hr hrf hnotes with ⟨hprov, hsent⟩ | ⟨c, hprov, hframe, hsent⟩
    · exact .refused ⟨(congrArg _ hprov).trans hq, htest⟩ (Or.inl h.store_eq)
        (forall_mem_append_of_sublist (fun n hn ↦ (h.events n hn).refuses) hsent hsub) (hmuted _)
        ⟨nofun, nofun⟩
    · refine .pending c hframe (Or.inl ⟨?_, htest⟩) h.store_eq
        (forall_mem_append_of_sublist h.events hsent hsub) (hmuted _) ⟨nofun, nofun, nofun⟩
      rw [Improv.queuedSettings, hprov, List.filter_append]
      exact congrArg (· ++ [ProvMsg.settings c]) hq

/-- What the script is told about the attempt, and what it has printed. -/
structure ScriptInv (ident : Option ProvIdentity) (f : List UInt8) (store : CredStore)
    (x : ImprovSession) : Prop where
  attempted : Attempted ident f store x
  urls : ∀ u ∈ x.urls, u = resultUrl ident

/-- The device handles the next write. -/
theorem Attempted.write (hf : Announced f) (h : Attempted ident f store x)
    (hpc : x.pc = .writing (w :: rest)) (hlinked : x.linked = true)
    (hsub : heard.Sublist (writeNotes x.device.toImprovShared x.device.now w)) :
    Attempted ident f store
      { x with
        device := { x.device with
          toImprovShared := (writeRpc x.device.toImprovShared x.device.now w).1 }
        events := x.events ++ heard
        pc := .afterWrite rest (writeRpc x.device.toImprovShared x.device.now w).2 } := by
  -- behind the frame the device is deaf
  have hdeaf : Muted x → writeRpc x.device.toImprovShared x.device.now w =
      (x.device.toImprovShared, .invalidOffset) ∧ heard = [] := fun hmuted ↦ by
    rcases hmuted _ hpc with hno | hnil | hdeaf
    · exact absurd (hno.symm.trans hlinked) Bool.false_ne_true
    · exact absurd hnil (List.cons_ne_nil _ _)
    · obtain ⟨hwrite, hnotes⟩ := hdeaf.write x.device.now
      exact ⟨hwrite, List.sublist_nil.1 (hnotes ▸ hsub)⟩
  cases h with
  | sending p rest' h =>
    obtain rfl : w :: rest = rest' := ScriptPc.writing.inj (hpc.symm.trans h.pc)
    exact h.write hf hsub
  | pending c hframe hdev hstore hevents hmuted _ =>
    obtain ⟨hwrite, rfl⟩ := hdeaf hmuted
    rw [hwrite, List.append_nil]
    exact .pending c hframe hdev hstore hevents nofun ⟨nofun, nofun, nofun⟩
  | refused hdev hkept hevents hmuted _ =>
    obtain ⟨hwrite, rfl⟩ := hdeaf hmuted
    rw [hwrite, List.append_nil]
    exact .refused hdev hkept hevents nofun ⟨nofun, nofun⟩
  | stored c hframe hdev hevents hmuted _ =>
    obtain ⟨hwrite, rfl⟩ := hdeaf hmuted
    rw [hwrite, List.append_nil]
    exact .stored c hframe hdev hevents nofun nofun

/-- The script goes on without a write, knowing no more than before. -/
theorem Attempted.moves {pc : ScriptPc} (h : Attempted ident f store x)
    (hx : ∀ rest, x.pc = .writing rest → rest = [] ∨ x.linked = false)
    (hpc : pc = .loop 2 ∨ pc = .raised ∨ pc = .returned 2) :
    Attempted ident f store { x with pc := pc } := by
  have hmuted : Muted { x with pc := pc } := by
    rcases hpc with rfl | rfl | rfl <;> exact nofun
  cases h with
  | sending p rest h =>
    rcases hx rest h.pc with hnil | hno
    · exact absurd hnil h.rest_ne
    · exact absurd (hno.symm.trans h.linked) Bool.false_ne_true
  | pending c hframe hdev hstore hevents _ _ =>
    refine .pending c hframe hdev hstore hevents hmuted ?_
    rcases hpc with rfl | rfl | rfl <;> exact ⟨nofun, nofun, nofun⟩
  | refused hdev hkept hevents _ _ =>
    refine .refused hdev hkept hevents hmuted ?_
    rcases hpc with rfl | rfl | rfl <;> exact ⟨nofun, nofun⟩
  | stored c hframe hdev hevents _ _ =>
    refine .stored c hframe hdev hevents hmuted ?_
    rcases hpc with rfl | rfl | rfl <;> exact nofun

/-- The script takes a notification. -/
theorem Attempted.take {rc : ℕ} {later : List ImprovNote} (h : Attempted ident f store x)
    (hpc : x.pc = .loop rc) (hevents : x.events = n :: later) :
    Attempted ident f store (({ x with events := later } : ImprovSession).take rc n) := by
  have hlater : ∀ {P : ImprovNote → Prop}, (∀ m ∈ x.events, P m) → P n ∧ ∀ m ∈ later, P m :=
    fun hall ↦ List.forall_mem_cons.1 (hevents ▸ hall)
  cases h with
  | sending p rest h => exact nomatch hpc.symm.trans h.pc
  | pending c hframe hdev hstore hall _ hne =>
    -- the loop has not seen a result yet, so it goes on with what it had
    have hrc : rc ≠ 0 := fun hzero ↦ hne.1 (hzero ▸ hpc)
    obtain ⟨hn, hlate⟩ := hlater hall
    have hgo : ∀ v : ScriptPc, v = .loop rc →
        Attempted ident f store { x with events := later, pc := v } := by
      rintro v rfl
      exact .pending c hframe hdev hstore hlate nofun
        ⟨fun h ↦ hrc (ScriptPc.loop.inj h), nofun, nofun⟩
    rcases hn with rfl | ⟨v, hv, rfl⟩
    · exact hgo _ rfl
    · exact hgo _ (by rw [if_neg hv])
  | refused hdev hkept hall _ hne =>
    have hrc : rc ≠ 0 := fun hzero ↦ hne.1 (hzero ▸ hpc)
    obtain ⟨hn, hlate⟩ := hlater hall
    have hgo : ∀ v : ScriptPc, v = .loop rc ∨ v = .returned 1 →
        Attempted ident f store { x with events := later, pc := v } := by
      rintro v (rfl | rfl)
      · exact .refused hdev hkept hlate nofun ⟨fun h ↦ hrc (ScriptPc.loop.inj h), nofun⟩
      · exact .refused hdev hkept hlate nofun ⟨nofun, nofun⟩
    rcases hn with ⟨v, rfl⟩ | ⟨v, hv, rfl⟩
    · exact hgo _ (by split <;> simp)
    · exact hgo _ (by rw [if_neg hv]; exact Or.inl rfl)
  | stored c hframe hdev hall _ _ =>
    obtain ⟨hn, hlate⟩ := hlater hall
    rcases hn with rfl | ⟨v, rfl⟩ | rfl
    · exact .stored c hframe hdev hlate nofun nofun
    · exact .stored c hframe hdev hlate nofun nofun
    · refine .stored c hframe hdev hlate ?_ ?_
      · intro rest hpc'
        rw [ImprovSession.take] at hpc'
        dsimp only at hpc'
        split at hpc' <;> exact nomatch hpc'
      · rw [ImprovSession.take]
        dsimp only
        split <;> exact nofun

/-- The deadline passes. -/
theorem Attempted.deadline {rc : ℕ} (h : Attempted ident f store x) (hpc : x.pc = .loop rc) :
    Attempted ident f store { x with pc := .returned (if rc = 0 then 0 else 2) } := by
  rcases Decidable.em (rc = 0) with rfl | hrc
  · cases h with
    | sending p rest h => exact nomatch hpc.symm.trans h.pc
    | pending c _ _ _ _ _ hne => exact absurd hpc hne.1
    | refused _ _ _ _ hne => exact absurd hpc hne.1
    | stored c hframe hdev hevents _ _ => exact .stored c hframe hdev hevents nofun nofun
  · rw [if_neg hrc]
    exact h.moves (fun rest hw ↦ nomatch hpc.symm.trans hw) (Or.inr (Or.inr rfl))

/-- Only a write and a disconnection change what has been received. -/
theorem improvStep_rx_eq (ha : a.isWrite = false) (hdis : a ≠ .disconnect)
    (hst : improvStep cfg d a = some t) : t.rxBuf = d.rxBuf ∧ t.rxLen = d.rxLen := by
  cases a with
  | write w => exact nomatch ha
  | disconnect => exact absurd rfl hdis
  | button | tick =>
    obtain rfl := Option.some.inj hst
    exact ⟨rfl, rfl⟩
  | get =>
    obtain ⟨-, m, rest, -, rfl⟩ := improvStep_get hst
    rw [dispatch_shared]
    exact ⟨rfl, rfl⟩
  | timeout =>
    obtain ⟨-, rfl⟩ := improvStep_timeout hst
    exact ⟨rfl, rfl⟩
  | joined rc => obtain ⟨creds, -, rfl | rfl⟩ := improvStep_joined hst <;> exact ⟨rfl, rfl⟩
  | store answer => obtain ⟨creds, -, rfl | rfl⟩ := improvStep_store hst <;> exact ⟨rfl, rfl⟩
  | authorize =>
    obtain ⟨-, rfl⟩ := improvStep_authorize hst
    exact ⟨rfl, rfl⟩
  | deauthorize =>
    obtain ⟨now, -, rfl⟩ := improvStep_deauthorize hst
    exact ⟨rfl, rfl⟩
  | checkAuth =>
    obtain ⟨now, -, ⟨-, rfl⟩ | ⟨-, rfl⟩ | rfl⟩ := improvStep_checkAuth hst <;> exact ⟨rfl, rfl⟩
  | checkWindow =>
    obtain ⟨now, -, rfl | rfl | rfl⟩ := improvStep_checkWindow hst <;> exact ⟨rfl, rfl⟩

theorem Collects.step (h : Collects d.toImprovShared p) (ha : a.isWrite = false)
    (hdis : a ≠ .disconnect) (hst : improvStep cfg d a = some t) :
    Collects t.toImprovShared p := by
  obtain ⟨hbuf, hlen⟩ := improvStep_rx_eq ha hdis hst
  refine ⟨h.rx.improvStep hst, hlen.trans h.rxLen, ?_⟩
  rw [ImprovShared.rxBytes, hbuf, hlen]
  exact h.bytes

/-- The device stays deaf. -/
theorem Muted.device (h : Muted x) (ha : a.isWrite = false)
    (hst : improvStep cfg x.device a = some t) :
    Muted { x with
      device := t
      linked := x.linked && decide (a ≠ .disconnect)
      events := x.events ++ heard } := by
  intro rest hpc
  rcases h rest hpc with hno | hnil | ⟨hrx, hoff⟩
  · exact Or.inl (by rw [hno, Bool.false_and])
  · exact Or.inr (Or.inl hnil)
  · refine Or.inr (Or.inr ⟨?_, hoff⟩)
    rcases Decidable.em (a = .disconnect) with rfl | hdis
    · obtain rfl := Option.some.inj hst
      rfl
    · exact (improvStep_rx_eq ha hdis hst).2.trans hrx

/-- The device takes a step. -/
theorem Attempted.device (h : Attempted ident f store x) (ha : a.isWrite = false)
    (hst : improvStep cfg x.device a = some t)
    (hsub : heard.Sublist (improvNotes cfg ident x.device a)) :
    Attempted ident f store { x with
      device := t
      linked := x.linked && decide (a ≠ .disconnect)
      events := x.events ++ heard } := by
  cases h with
  | sending p rest h =>
    obtain ⟨hfree, hstore, hsent⟩ := h.free.step ident ha hst
    have hevents := forall_mem_append_of_sublist h.events hsent hsub
    -- a disconnect in the middle of the frame makes the device forget it
    rcases Decidable.em (a = .disconnect) with rfl | hdis
    · exact .refused hfree (Or.inl (hstore.trans h.store_eq)) (fun n hn ↦ (hevents n hn).refuses)
        (fun rest' _ ↦ Or.inl (Bool.and_false _)) ⟨by rw [h.pc]; nofun, by rw [h.pc]; nofun⟩
    · exact .sending p rest ⟨h.pc, h.rest_ne, by simp [h.linked, hdis],
        h.collects.step ha hdis hst, h.frame, h.consecutive, h.bytes_ne, hfree,
        hstore.trans h.store_eq, hevents⟩
  | pending c hframe hdev hstore hevents hmuted hpc =>
    cases hdev.step ident ha hst with
    | pending hdev' hstore' hsent =>
      exact .pending c hframe hdev' (hstore'.trans hstore)
        (forall_mem_append_of_sublist hevents hsent hsub) (hmuted.device ha hst) hpc
    | refused hdev' hkept hsent =>
      exact .refused hdev' (hstore ▸ hkept)
        (forall_mem_append_of_sublist (fun n hn ↦ (hevents n hn).refuses) hsent hsub)
        (hmuted.device ha hst) ⟨hpc.1, hpc.2.1⟩
    | stored hdev' hsent =>
      exact .stored c hframe hdev'
        (forall_mem_append_of_sublist (fun n hn ↦ (hevents n hn).stores) hsent hsub)
        (hmuted.device ha hst) hpc.2.2
  | refused hdev hkept hevents hmuted hpc =>
    obtain ⟨hfree, hstore, hsent⟩ := hdev.step ident ha hst
    have hkept' : t.Kept store := hkept.imp hstore.trans fun ⟨answer, hrc, hleft⟩ ↦
      ⟨answer, hrc, hstore.trans hleft⟩
    exact .refused hfree hkept'
      (forall_mem_append_of_sublist hevents (fun n hn ↦ (hsent n hn).refuses) hsub)
      (hmuted.device ha hst) hpc
  | stored c hframe hdev hevents hmuted hpc =>
    obtain ⟨hdev', hnone⟩ := hdev.step ident ha hst
    rw [hnone] at hsub
    exact .stored c hframe hdev'
      (forall_mem_append_of_sublist hevents (fun _ hn ↦ absurd hn List.not_mem_nil) hsub)
      (hmuted.device ha hst) hpc

/-- Only the result tells a URL. -/
theorem Attempted.urls_take {rc : ℕ} {later : List ImprovNote} (h : Attempted ident f store x)
    (hurls : ∀ u ∈ x.urls, u = resultUrl ident) (hpc : x.pc = .loop rc)
    (hevents : x.events = n :: later) :
    ∀ u ∈ (({ x with events := later } : ImprovSession).take rc n).urls, u = resultUrl ident := by
  have hn : n.Stores ident ∨ n.Refuses := by
    have hmem : n ∈ x.events := hevents ▸ List.mem_cons_self
    cases h with
    | sending p rest h => exact nomatch hpc.symm.trans h.pc
    | pending _ _ _ _ hall _ _ => exact Or.inr (hall n hmem).refuses
    | refused _ _ hall _ _ => exact Or.inr (hall n hmem)
    | stored _ _ _ hall _ _ => exact Or.inl (hall n hmem)
  rcases hn with (rfl | ⟨v, rfl⟩ | rfl) | ⟨v, rfl⟩ | ⟨v, -, rfl⟩
  · exact hurls
  · exact hurls
  · intro u hu
    rcases List.mem_append.1 hu with hu | hu
    · exact hurls u hu
    rw [parseResult_resultFrame] at hu
    split at hu
    · exact absurd hu List.not_mem_nil
    · exact List.mem_singleton.1 hu
  · exact hurls
  · exact hurls

/-- **The step lemma.** -/
theorem ScriptInv.step {b : ScriptAction} (hf : Announced f) (h : ScriptInv ident f store x)
    (hst : scriptStep cfg ident x b = some y) : ScriptInv ident f store y := by
  obtain ⟨hatt, hurls⟩ := h
  cases b with
  | write heard =>
    simp only [scriptStep] at hst
    split at hst
    · next w rest hpc =>
      obtain ⟨⟨hlinked, hsub⟩, hst⟩ := Option.ite_none_right_eq_some.1 hst
      obtain rfl := Option.some.inj hst
      exact ⟨hatt.write hf hpc hlinked hsub, hurls⟩
    · exact nomatch hst
  | answered =>
    obtain ⟨⟨hpc, hlinked⟩, hst⟩ := Option.ite_none_right_eq_some.1 hst
    obtain rfl := Option.some.inj hst
    refine ⟨hatt.moves (fun rest hw ↦ Or.inl ?_) (Or.inl rfl), hurls⟩
    exact (ScriptPc.writing.inj (hpc.symm.trans hw)).symm
  | unlinked =>
    simp only [scriptStep] at hst
    split at hst
    · obtain ⟨hno, hst⟩ := Option.ite_none_left_eq_some.1 hst
      obtain rfl := Option.some.inj hst
      exact ⟨hatt.moves (fun _ _ ↦ Or.inr (Bool.not_eq_true _ ▸ hno)) (Or.inr (Or.inl rfl)), hurls⟩
    · exact nomatch hst
  | event =>
    simp only [scriptStep] at hst
    split at hst
    · next rc n later hpc hevents =>
      obtain rfl := Option.some.inj hst
      exact ⟨hatt.take hpc hevents, hatt.urls_take hurls hpc hevents⟩
    · exact nomatch hst
  | deadline =>
    simp only [scriptStep] at hst
    split at hst
    · next rc hpc =>
      obtain rfl := Option.some.inj hst
      exact ⟨hatt.deadline hpc, hurls⟩
    · exact nomatch hst
  | device a heard =>
    obtain ⟨⟨ha, hsub⟩, hst⟩ := Option.ite_none_right_eq_some.1 hst
    obtain ⟨t, ht, rfl⟩ := Option.map_eq_some_iff.1 hst
    refine ⟨hatt.device ha ht ?_, hurls⟩
    split at hsub
    · exact hsub
    · exact List.sublist_nil.1 hsub ▸ List.nil_sublist _

/-! ### The main result -/

/-- The device has no settings of anybody's, and no part of a frame. -/
structure ImprovAtRest (d : Improv) : Prop where
  rx : RxInv d.toImprovShared
  rxLen : d.rxLen = 0
  free : d.Free

/-- What the script says is so: `ssid` and `psk` are what was typed, and `store` the credentials
that were stored when the session began. -/
structure SessionTruthful (cfg : ImprovConfig) (ident : Option ProvIdentity) (ssid psk : List UInt8)
    (store : CredStore) (x : ImprovSession) : Prop where
  zero : x.pc = .returned 0 → ∃ c : AppWifiCreds, c.ssid = ssid ∧ c.psk = psk ∧
    x.device.pc = .leaving ∧ ∃ answer : StoreAnswer, answer.setRc = 0 ∧
      x.device.store = answer.replaced c ∧
      (answer.afterDelete = [] → cfg.wifi.credStore = true →
        appWifiCredsResolve cfg.wifi x.device.store = some c)
  one : x.pc = .returned 1 → x.device.Free ∧ x.device.Kept store
  urls : ∀ u ∈ x.urls, u = resultUrl ident
  /-- Who hears all that a step sends knows the state and the error after it. -/
  tells : ∀ a t, improvStep cfg x.device a = some t →
    (improvNotes cfg ident x.device a).foldl ImprovNote.tell x.device.shown = t.shown

namespace ImprovProvision

theorem pyByte_eq_some {k : ℕ} {b : UInt8} (h : pyByte k = some b) : b.toNat = k := by
  rw [pyByte] at h
  split at h
  · next hlt =>
    obtain rfl := Option.some.inj h
    exact UInt8.toNat_ofNat_of_lt' hlt
  · exact nomatch h

/-- The script's frame, by its parts. -/
theorem wifiSettings_eq_some {ssid psk : String} (h : wifiSettings ssid psk = some f) :
    ∃ len ssidLen pskLen sum : UInt8,
      f = [1, len, ssidLen] ++ ssid.toUTF8.toList ++ [pskLen] ++ psk.toUTF8.toList ++ [sum] ∧
      len.toNat = ssid.toUTF8.toList.length + psk.toUTF8.toList.length + 2 ∧
      ssidLen.toNat = ssid.toUTF8.toList.length ∧ pskLen.toNat = psk.toUTF8.toList.length := by
  rw [wifiSettings] at h
  generalize ssid.toUTF8.toList = s at *
  generalize psk.toUTF8.toList = p at *
  simp only [Option.bind_eq_bind, Option.bind_eq_some_iff, frame, Option.some.injEq] at h
  obtain ⟨ssidLen, hssid, pskLen, hpsk, len, hlen, rfl⟩ := h
  refine ⟨len, ssidLen, pskLen, _, rfl, ?_, pyByte_eq_some hssid, pyByte_eq_some hpsk⟩
  rw [pyByte_eq_some hlen]
  simp only [List.length_append, List.length_singleton]
  omega

theorem announced_wifiSettings {ssid psk : String} (h : wifiSettings ssid psk = some f) :
    Announced f := by
  obtain ⟨len, ssidLen, pskLen, sum, rfl, hlen, -, -⟩ := wifiSettings_eq_some h
  have hget : ([1, len, ssidLen] ++ ssid.toUTF8.toList ++ [pskLen] ++ psk.toUTF8.toList ++
      [sum]).getD 1 0 = len := rfl
  rw [Announced, hget, hlen]
  simp only [List.length_append, List.length_cons, List.length_nil]
  omega

/-- The settings in the script's frame are those that were typed. -/
theorem eq_of_settingsFrame {ssid psk : String} (h : wifiSettings ssid psk = some f)
    (hframe : SettingsFrame c.ssid c.psk f) :
    c.ssid = ssid.toUTF8.toList ∧ c.psk = psk.toUTF8.toList := by
  obtain ⟨len, ssidLen, pskLen, sum, hf, -, hssid, hpsk⟩ := wifiSettings_eq_some h
  obtain ⟨-, -, -, len', ssidLen', pskLen', sum', hf', -, hssid', hpsk', -⟩ := hframe
  rw [hf] at hf'
  simp only [List.append_assoc, List.cons_append, List.nil_append, List.cons.injEq] at hf'
  obtain ⟨-, -, rfl, hrest⟩ := hf'
  obtain ⟨hssidEq, htail⟩ := List.append_inj hrest (hssid.symm.trans hssid')
  obtain ⟨rfl, hlast⟩ := List.cons.inj htail
  exact ⟨hssidEq.symm, (List.append_inj hlast (hpsk.symm.trans hpsk')).1.symm⟩

end ImprovProvision

theorem ScriptInv.truthful {ssid psk : String} (h : ScriptInv ident f store x)
    (hf : ImprovProvision.wifiSettings ssid psk = some f) :
    SessionTruthful cfg ident ssid.toUTF8.toList psk.toUTF8.toList store x := by
  obtain ⟨hatt, hurls⟩ := h
  refine ⟨fun hpc ↦ ?_, fun hpc ↦ ?_, hurls, fun _ _ hst ↦ told_improvNotes hst⟩
  · cases hatt with
    | sending p rest h => exact nomatch hpc.symm.trans h.pc
    | pending _ _ _ _ _ _ hne => exact absurd hpc hne.2.1
    | refused _ _ _ _ hne => exact absurd hpc hne.2
    | stored c hframe hdev _ _ _ =>
      obtain ⟨hleft, answer, hrc, hstore⟩ := hdev
      obtain ⟨hssid, hpsk⟩ := ImprovProvision.eq_of_settingsFrame hf hframe
      refine ⟨c, hssid, hpsk, hleft, answer, hrc, hstore, fun hempty hcred ↦ ?_⟩
      rw [hstore]
      exact resolve_replaced (fun hnil ↦ absurd hframe.1 (by rw [hnil]; decide)) hrc hempty hcred
  · cases hatt with
    | sending p rest h => exact nomatch hpc.symm.trans h.pc
    | pending _ _ _ _ _ _ hne => exact absurd hpc hne.2.2
    | refused hdev hkept _ _ _ => exact ⟨hdev, hkept⟩
    | stored _ _ _ _ _ hne => exact absurd hpc hne

/-- **What the script says is so**, in every state of every session with a device that was at rest,
however its frame is cut into pieces and whichever notifications are lost. -/
theorem session_truthful (cfg : ImprovConfig) (ident : Option ProvIdentity) {ssid psk : String}
    (hf : ImprovProvision.wifiSettings ssid psk = some f) {ws : List GattWrite}
    (hcons : Consecutive 0 ws) (hne : ∀ w ∈ ws, w.bytes ≠ []) (hbytes : writtenBytes ws = f)
    (hd : ImprovAtRest d) (as : List ScriptAction) :
    Throughout (scriptStep cfg ident)
      (SessionTruthful cfg ident ssid.toUTF8.toList psk.toUTF8.toList d.store) (.start d ws)
      as := by
  have hann := ImprovProvision.announced_wifiSettings hf
  have hstart : ScriptInv ident f d.store (.start d ws) := by
    refine ⟨.sending [] ws ⟨rfl, ?_, rfl, ⟨hd.rx, hd.rxLen, ?_⟩, hbytes, hcons, hne, hd.free, rfl,
      nofun⟩, nofun⟩
    · rintro rfl
      rw [Announced, ← hbytes] at hann
      exact absurd hann (by decide)
    · show d.rxBuf.take d.rxLen = []
      rw [hd.rxLen, List.take_zero]
  exact (throughout_of_forall (fun _ _ _ hx hst ↦ ScriptInv.step hann hx hst) hstart as).imp
    fun _ hx ↦ hx.truthful hf

/-- A device stores the settings of the open network `h`; the script hears of the success, and that
there is no URL. -/
def openSession : List ScriptAction :=
  [.write [.error 0], .answered, .device .get [], .device (.joined 0) [],
    .device (.store ⟨[], 0⟩) [.state 4, .result (resultFrame none)], .event, .event, .event]

theorem sessionTruthful_openSession :
    Throughout (scriptStep openConfig none)
      (SessionTruthful openConfig none "h".toUTF8.toList "".toUTF8.toList [])
      (.start (.boot openConfig false []) [⟨openFrame, 0, false, false⟩]) openSession :=
  @session_truthful (.boot openConfig false []) openFrame openConfig none "h" ""
    (by decide +kernel) [⟨openFrame, 0, false, false⟩] (by decide) (by decide) rfl
    ⟨rxInv_boot false, rfl, by decide⟩ openSession

/-- The settings that another client has left in the queue. -/
def leftoverSettings : Improv :=
  { Improv.boot openConfig false [] with
    curState := .provisioning
    provQ := [.settings ⟨[105], [106], by decide, by decide⟩] }

/-- They are stored while the script waits, and it returns 0 for credentials that were not. -/
theorem not_sessionTruthful_leftoverSettings :
    ¬ ∀ (d : Improv) (as : List ScriptAction), RxInv d.toImprovShared → d.rxLen = 0 →
      Throughout (scriptStep openConfig none)
        (SessionTruthful openConfig none "h".toUTF8.toList "".toUTF8.toList d.store)
        (.start d [⟨openFrame, 0, false, false⟩]) as := by
  intro h
  have hrun := h leftoverSettings [.write [], .answered, .device .get [], .device (.joined 0) [],
    .device (.store ⟨[], 0⟩) [.state 4], .event, .deadline] ⟨rfl, Nat.zero_le _⟩ rfl
  obtain ⟨x, hx, hpc, hstore⟩ : ∃ x, exec (scriptStep openConfig none)
      (.start leftoverSettings [⟨openFrame, 0, false, false⟩])
      [.write [], .answered, .device .get [], .device (.joined 0) [],
        .device (.store ⟨[], 0⟩) [.state 4], .event, .deadline] = some x ∧
      x.pc = .returned 0 ∧ x.device.store = [⟨[105], some [106]⟩] := ⟨_, rfl, by decide, by decide⟩
  obtain ⟨c, hssid, -, -, answer, hrc, hreplaced, -⟩ := (hrun.last hx).zero hpc
  rw [hstore, StoreAnswer.replaced, setPersonal, if_pos hrc] at hreplaced
  have hlast := congrArg (fun l ↦ l.getLast?.map StoredEntry.ssid) hreplaced
  simp only [List.getLast?_concat, Option.map_some, AppWifiCreds.entry, hssid] at hlast
  exact absurd hlast (by decide +kernel)

end ThinEdge.Provisioner
