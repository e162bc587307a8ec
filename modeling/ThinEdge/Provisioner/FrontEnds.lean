import ThinEdge.Net.Credentials

/-!
# Test, then store

The three front ends of the Wi-Fi provisioner end an attempt in the same way: they join with the
candidate credentials, delete all stored ones and store the candidates. Here is each of the three
pieces of code with its own results, `try_settings` of `improv.c`, `wifi_commit` of `ztp_apply.c`
and `try_pending` of `softap.c`, given what the join and the credential store answer.

A wrong password costs nothing, since the store is touched only after the join. A failed write does:
by then the old credentials are deleted. `attempt_keeps_store_iff` says exactly when a failed
attempt leaves the store as it was.
-/

namespace ThinEdge.Provisioner

open Net

/-- What the platform answers to one attempt: the result of `app_net_try_credentials`, and what the
credential store does after it. -/
structure AttemptAnswer extends StoreAnswer where
  join : ℤ
  deriving DecidableEq, Repr

/-! ### Improv -/

/-- `enum improv_state`. -/
inductive ImprovState
  | authRequired
  | authorized
  | provisioning
  | provisioned
  deriving DecidableEq, Repr

/-- `enum improv_error`. -/
inductive ImprovError
  | none
  | invalidRpc
  | unknownRpc
  | unableToConnect
  | notAuthorized
  | unknown
  deriving DecidableEq, Repr

/-- `idle_state`, for the value of `CONFIG_APP_WIFI_PROV_REQUIRE_AUTH`. -/
def idleState (requireAuth : Bool) : ImprovState :=
  if requireAuth then .authRequired else .authorized

/-- The state after a failed join: the authorization of a button press lasts on. -/
def stateAfterFailedJoin (requireAuth authorized : Bool) : ImprovState :=
  if authorized || !requireAuth then .authorized else .authRequired

/-- How an attempt of one of the front ends ends: the store after it, and whether it ends with the
new credentials stored. -/
structure Attempt (ρ : Type) where
  store : CredStore
  stored : Bool
  /-- What the front end tells its client, or returns to its caller. -/
  result : ρ
  deriving DecidableEq, Repr

/-- `try_settings`: the state and, but for a success, the error it sets. `authorized` says that the
authorization period is still running at the end of the join. -/
def trySettings (requireAuth authorized : Bool) (answer : AttemptAnswer) (store : CredStore)
    (c : AppWifiCreds) : Attempt (ImprovState × Option ImprovError) :=
  if answer.join ≠ 0 then
    ⟨store, false, stateAfterFailedJoin requireAuth authorized, some .unableToConnect⟩
  else if answer.setRc ≠ 0 then
    ⟨answer.replaced c, false, idleState requireAuth, some .unknown⟩
  else ⟨answer.replaced c, true, .provisioned, none⟩

/-! ### Zero-touch provisioning -/

/-- `-ENETUNREACH`. -/
def enetunreach : ℤ := -118

/-- `wifi_commit`: its result. -/
def wifiCommit (answer : AttemptAnswer) (store : CredStore) (c : AppWifiCreds) : Attempt ℤ :=
  if answer.join ≠ 0 then ⟨store, false, enetunreach⟩
  else ⟨answer.replaced c, answer.setRc = 0, answer.setRc⟩

/-! ### SoftAP -/

/-- The texts `try_pending` leaves in `last_result`. -/
inductive LastResult
  /-- `Could not join "…" (…). Check the password.` -/
  | couldNotJoin (ssid : List UInt8) (rc : ℤ)
  /-- `Storing the credentials failed (…).` -/
  | storingFailed (rc : ℤ)
  /-- `Connected. The device restarts into its application now.` -/
  | connected
  deriving DecidableEq, Repr

/-- `try_pending`: the text it leaves. -/
def tryPending (answer : AttemptAnswer) (store : CredStore) (c : AppWifiCreds) :
    Attempt LastResult :=
  if answer.join ≠ 0 then ⟨store, false, .couldNotJoin c.ssid answer.join⟩
  else if answer.setRc ≠ 0 then ⟨answer.replaced c, false, .storingFailed answer.setRc⟩
  else ⟨answer.replaced c, true, .connected⟩

/-! ### What a failed attempt leaves -/

/-- The front ends, Improv with its build option and whether the authorization period is running. -/
inductive FrontEnd
  | improv (requireAuth authorized : Bool)
  | ztp
  | softAp
  deriving DecidableEq, Repr

/-- The store after an attempt of the front end, and whether it holds the new credentials. -/
def FrontEnd.attempt (fe : FrontEnd) (answer : AttemptAnswer) (store : CredStore)
    (c : AppWifiCreds) : CredStore × Bool :=
  match fe with
  | .improv requireAuth authorized =>
    let r := trySettings requireAuth authorized answer store c
    (r.store, r.stored)
  | .ztp =>
    let r := wifiCommit answer store c
    (r.store, r.stored)
  | .softAp =>
    let r := tryPending answer store c
    (r.store, r.stored)

variable {answer : AttemptAnswer} {c : AppWifiCreds}

/-- The front ends do the same to the store: nothing when the join fails, else delete and set. -/
theorem attempt_eq (fe : FrontEnd) (answer : AttemptAnswer) (store : CredStore)
    (c : AppWifiCreds) : fe.attempt answer store c =
      if answer.join ≠ 0 then (store, false)
      else (answer.replaced c, decide (answer.setRc = 0)) := by
  by_cases hjoin : answer.join = 0 <;> by_cases hset : answer.setRc = 0 <;> cases fe <;>
    simp [FrontEnd.attempt, trySettings, wifiCommit, tryPending, hjoin, hset]

/-- **When a failed attempt keeps the old network**: exactly when the join is what failed, or the
new credentials were stored after all, or the deletion had nothing to delete. -/
theorem attempt_keeps_store_iff (fe : FrontEnd) (answer : AttemptAnswer) (store : CredStore)
    (c : AppWifiCreds) :
    ((fe.attempt answer store c).2 = false → (fe.attempt answer store c).1 = store) ↔
      answer.join ≠ 0 ∨ answer.setRc = 0 ∨ answer.afterDelete = store := by
  rw [attempt_eq]
  by_cases hjoin : answer.join = 0
  · rw [if_neg (not_not_intro hjoin)]
    by_cases hset : answer.setRc = 0
    · simp [hset]
    · have hkept : answer.replaced c = answer.afterDelete := answer.replaced_of_ne hset c
      simp [hjoin, hset, hkept]
  · simp [hjoin]

/-- The network before an attempt, and the candidates of the attempt. -/
def homeStore : CredStore := [⟨[104], some [49, 50, 51, 52, 53, 54, 55, 56]⟩]

/-- Credentials of an open network. -/
def openCreds : AppWifiCreds := ⟨[112], [], by decide, by decide⟩

/-- The join succeeds and the store has no room: every front end has deleted the old network. -/
theorem not_attempt_keeps_store :
    ¬ ∀ (fe : FrontEnd) (answer : AttemptAnswer) (store : CredStore) (c : AppWifiCreds),
      (fe.attempt answer store c).2 = false → (fe.attempt answer store c).1 = store := by
  intro h
  exact absurd (h .ztp ⟨⟨[], -105⟩, 0⟩ homeStore openCreds (by decide)) (by decide)

end ThinEdge.Provisioner
