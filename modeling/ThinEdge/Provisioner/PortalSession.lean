import ThinEdge.Lib.Transition
import ThinEdge.Provisioner.FrontEnds
import ThinEdge.Provisioner.PortalPage

/-!
# The captive portal from its start to its end

`softap_run` of `apps/wifi-provisioner/src/softap.c` with `http_handle`, `try_pending` and
`serve_final_page`: one thread serves one connection at a time, tests the credentials of a submitted
form before it serves the next, and leaves when they are stored or when the window is over and there
is something to leave for. Clients send whatever they like, and any `zsock_send` may fail. Without
its access point the portal serves nobody: it sleeps and reboots into itself.

`portal_truthful` is the result. A page that says what became of a test speaks about the last one,
and a page that announces a test is followed by it. A client that is told "Connected" has seen the
portal's last page.
-/

namespace ThinEdge.Provisioner

open Bytes CText Net Transition

/-- What the image is built with: where it looks for credentials, the length of the window
(`CONFIG_APP_WIFI_PROV_WINDOW_S`) and of a test (`CONFIG_APP_WIFI_PROV_CONNECT_TIMEOUT_S`). -/
structure PortalConfig where
  wifi : WifiConfig
  windowS : ℕ
  timeoutS : ℤ
  deriving DecidableEq, Repr

/-- Where the thread of the portal stands. -/
inductive PortalPc
  /-- `ap_start`. -/
  | starting
  | listening
  /-- `try_pending`, up to the result of the test and of the store. -/
  | testing
  /-- `serve_final_page`. -/
  | finalPage
  /-- `reboot_now`. -/
  | leaving
  /-- `boot_request_reboot` after `ap_start` has failed: the request for the portal stays set. -/
  | retrying
  deriving DecidableEq, Repr

/-- A test that has ended. -/
structure PortalTest where
  creds : AppWifiCreds
  answer : AttemptAnswer
  deriving DecidableEq, Repr

/-- A response that was sent. -/
structure Exchange where
  reply : HttpReply
  /-- What each `zsock_send` returned. -/
  answers : List ℤ
  /-- The tests that had ended before. -/
  tests : List PortalTest
  /-- The credentials that are about to be tested. -/
  waiting : Option AppWifiCreds
  deriving DecidableEq, Repr

/-- What the client received. -/
def Exchange.received (x : Exchange) : List UInt8 := sendParts x.answers x.reply.parts

/-- The portal, and what an observer has seen of it. -/
structure PortalState extends Portal where
  store : CredStore
  pc : PortalPc
  deadline : ℕ
  now : ℕ
  returnOnExpiry : Bool
  tests : List PortalTest
  exchanges : List Exchange
  deriving DecidableEq, Repr

/-- The start of `softap_run`. The operator has asked for the portal, or not. -/
def PortalState.start (cfg : PortalConfig) (now : ℕ) (operator : Bool) (store : CredStore) :
    PortalState where
  toPortal := .idle
  store := store
  pc := .starting
  deadline := now + cfg.windowS * 1000
  now := now
  returnOnExpiry := operator
  tests := []
  exchanges := []

/-- What happens. A step says how long it takes, in ms. -/
inductive PortalAction
  /-- `ap_start` returns, after so long. -/
  | apStarted (rc : ℤ) (ms : ℕ)
  /-- `zsock_poll` finds no connection, or `zsock_accept` fails. -/
  | wait (ms : ℕ)
  /-- A connection is served: what arrives on it, and what each `zsock_send` returns. -/
  | serve (segments : List (List UInt8)) (answers : List ℤ) (ms : ℕ)
  /-- The loop finds that the window is over, and looks for credentials. -/
  | expire (ms : ℕ)
  | test (answer : AttemptAnswer) (ms : ℕ)
  /-- `serve_final_page`, with the connection it serves, if there is one. -/
  | final (served : Option (List ℤ)) (ms : ℕ)
  deriving DecidableEq, Repr

/-- The text that `try_pending` prints into `last_result`. -/
def LastResult.text : LastResult → List UInt8
  | .couldNotJoin ssid rc => ascii "Could not join \"" ++ cstr ssid ++ ascii "\" (" ++
      Decimal.signed rc ++ ascii "). Check the password."
  | .storingFailed rc =>
    ascii "Storing the credentials failed (" ++ Decimal.signed rc ++ ascii ")."
  | .connected => ascii "Connected. The device restarts into its application now."

/-- The credentials are tested, and stored when the test passes. -/
def PortalState.tryPending (s : PortalState) (answer : AttemptAnswer) : PortalState :=
  let r := Provisioner.tryPending answer s.store s.pending
  { s with
    pending := Portal.idle.pending
    lastResult := r.result.text.take 95
    testing := false
    store := r.store
    pc := if r.stored then .finalPage else .listening
    tests := s.tests ++ [⟨s.pending, answer⟩] }

/-- A connection is served. -/
def PortalState.serve (timeout : ℤ) (s : PortalState) (segments : List (List UInt8))
    (answers : List ℤ) : PortalState :=
  let r := httpHandle timeout s.toPortal segments
  { s with
    toPortal := r.portal
    pc := if r.waiting then .testing else .listening
    exchanges := s.exchanges ++
      [⟨r.reply, answers, s.tests, if r.waiting then some r.portal.pending else none⟩] }

/-- One step; `none` when it cannot be taken. -/
def portalStep (cfg : PortalConfig) (s : PortalState) : PortalAction → Option PortalState
  | .apStarted rc ms =>
    if s.pc = .starting then
      some (if rc ≠ 0 then { s with pc := .retrying, now := s.now + ms + 30 * 1000 }
        else { s with pc := .listening, now := s.now + ms })
    else none
  | .wait ms =>
    -- the poll waits for 5 s at most, but the thread may run again later than that
    if s.pc = .listening ∧ s.now < s.deadline then some { s with now := s.now + ms } else none
  | .serve segments answers ms =>
    if s.pc = .listening ∧ s.now < s.deadline then
      some { s.serve cfg.timeoutS segments answers with now := s.now + ms }
    else none
  | .expire ms =>
    if s.pc = .listening ∧ s.deadline ≤ s.now then
      some (if s.returnOnExpiry || (appWifiCredsResolve cfg.wifi s.store).isSome then
        { s with pc := .leaving, now := s.now + ms }
        -- the next window begins when the search for credentials is over
        else { s with deadline := s.now + ms + cfg.windowS * 1000, now := s.now + ms })
    else none
  | .test answer ms =>
    if s.pc = .testing then some { s.tryPending answer with now := s.now + ms } else none
  | .final served ms =>
    if s.pc = .finalPage then
      some { s with
        pc := .leaving
        now := s.now + ms
        exchanges := s.exchanges ++ (served.map fun answers ↦
          ⟨.page s.testing s.lastResult, answers, s.tests, none⟩).toList }
    else none

/-! ### What the pages say -/

/-- What a page can say of a test. -/
inductive PortalVerdict
  | stored
  | notJoined
  | notStored
  deriving DecidableEq, Repr

/-- How a reader takes a message, by its first words. -/
def readVerdict (msg : List UInt8) : Option PortalVerdict :=
  if ascii "Connected" <+: msg then some .stored
  else if ascii "Could not join" <+: msg then some .notJoined
  else if ascii "Storing the credentials failed" <+: msg then some .notStored
  else none

/-- What became of a test. -/
def PortalTest.verdict (t : PortalTest) : PortalVerdict :=
  if t.answer.join ≠ 0 then .notJoined else if t.answer.setRc ≠ 0 then .notStored else .stored

/-- What `last_result` says after it: the store plays no role. -/
def PortalTest.text (t : PortalTest) : List UInt8 :=
  (tryPending t.answer [] t.creds).result.text.take 95

/-- The store after some tests. -/
def storeAfter (store : CredStore) (tests : List PortalTest) : CredStore :=
  tests.foldl (fun store t ↦ (tryPending t.answer store t.creds).store) store

/-- What `http_handle` says while the credentials are tested. -/
def testingText (timeout : ℤ) (c : AppWifiCreds) : List UInt8 :=
  (ascii "Testing \"" ++ cstr c.ssid ++ ascii "\"... this takes up to " ++
    Decimal.signed timeout ++ ascii " s.").take 95

/-- A response is what it should be. -/
structure Exchange.Honest (cfg : PortalConfig) (x : Exchange) : Prop where
  /-- Credentials that are about to be tested are announced, on a page that reloads itself. -/
  announces : ∀ c ∈ x.waiting, x.reply = .page true (testingText cfg.timeoutS c)
  /-- No other page reloads itself. -/
  reloads : ∀ msg, x.reply = .page true msg → x.waiting ≠ none
  /-- A page that speaks of a test speaks of the last one. -/
  verdict : ∀ msg v, x.reply = .page false msg → readVerdict msg = some v →
    ∃ t ∈ x.tests.getLast?, t.verdict = v ∧ msg = t.text
  /-- Who has received the header sees whether the rest is complete. -/
  complete : ∀ rest, x.received = x.reply.header ++ rest →
    findBody x.received = some (x.reply.header.length, (x.reply.body.flatten.length : ℤ)) ∧
      (rest.length = x.reply.body.flatten.length ↔ x.received = x.reply.response)

/-- A client was told that its credentials are stored. -/
def Exchange.SaysStored (x : Exchange) : Prop :=
  ∃ msg, x.reply = .page false msg ∧ readVerdict msg = some .stored

/-- The credentials of the last test are stored, and the application will find them. -/
def PortalState.StoredLast (cfg : PortalConfig) (s : PortalState) : Prop :=
  ∃ t ∈ s.tests.getLast?, t.verdict = .stored ∧ s.store = t.answer.replaced t.creds ∧
    (t.answer.afterDelete = [] → cfg.wifi.credStore = true →
      appWifiCredsResolve cfg.wifi s.store = some t.creds)

/-- What the portal promises. -/
structure PortalTruthful (cfg : PortalConfig) (store : CredStore) (s : PortalState) : Prop where
  honest : ∀ x ∈ s.exchanges, x.Honest cfg
  /-- The tests are those that were announced, in their order. -/
  announced : s.exchanges.filterMap (·.waiting) =
    s.tests.map (·.creds) ++ if s.pc = .testing then [s.pending] else []
  /-- Only the tests touch the store. -/
  store_eq : s.store = storeAfter store s.tests
  connected : ∀ x ∈ s.exchanges, x.SaysStored → s.pc = .leaving ∧ s.StoredLast cfg
  leaves : s.pc = .leaving → s.StoredLast cfg ∨ s.deadline ≤ s.now ∧
    (s.returnOnExpiry = true ∨ appWifiCredsResolve cfg.wifi s.store ≠ none)
  /-- Without the access point nobody is served, and nothing is tested. -/
  unserved : s.pc = .starting ∨ s.pc = .retrying → s.exchanges = [] ∧ s.tests = []

/-! ### Requests -/

section Requests

variable {cfg : PortalConfig} {timeout : ℤ} {portal : Portal} {segments : List (List UInt8)}

/-- What `http_handle` does with any request. -/
inductive Handles (timeout : ℤ) (portal : Portal) (r : HttpResult) : Prop
  | form (hwaiting : r.waiting = true) (hssid : r.portal.pending.ssid ≠ [])
      (htesting : r.portal.testing = true)
      (hreply : r.reply = .page true (testingText timeout r.portal.pending))
  | other (hwaiting : r.waiting = false) (htesting : r.portal.testing = portal.testing)
      (hlast : r.portal.lastResult = portal.lastResult)
      (hreply : r.reply = .redirect ∨ r.reply = .page portal.testing portal.lastResult ∨
        r.reply = .page portal.testing (ascii "Enter a network name."))

theorem handles_handleConnect (timeout : ℤ) (portal : Portal) (body : List UInt8) :
    Handles timeout portal (handleConnect timeout portal body) := by
  rw [handleConnect]
  dsimp only
  split
  · exact .other rfl rfl rfl (Or.inr (Or.inr rfl))
  · next hlen => exact .form rfl (mt List.length_eq_zero_iff.2 hlen) rfl rfl

theorem handles_handleOther (timeout : ℤ) (portal : Portal) (path : List UInt8) :
    Handles timeout portal (handleOther portal path) := by
  rw [handleOther]
  split
  · exact .other rfl rfl rfl (Or.inr (Or.inl rfl))
  · exact .other rfl rfl rfl (Or.inl rfl)

theorem handles_httpHandle (timeout : ℤ) (portal : Portal) (segments : List (List UInt8)) :
    Handles timeout portal (httpHandle timeout portal segments) := by
  rw [httpHandle, handleRead]
  dsimp only
  split
  · split
    · exact handles_handleConnect _ _ _
    · exact handles_handleOther _ _ _
  · exact handles_handleOther _ _ _

end Requests

/-! ### Messages -/

/-- The first words of a message decide, and are not cut off. -/
theorem prefix_take_append {p first rest : List UInt8} (h : p.length ≤ first.length)
    (hroom : p.length ≤ 95) : p <+: (first ++ rest).take 95 ↔ p <+: first := by
  rw [List.prefix_take_iff, and_iff_left hroom]
  exact ⟨fun hpre ↦ List.prefix_of_prefix_length_le hpre (List.prefix_append first rest) h,
    fun hpre ↦ hpre.trans (List.prefix_append first rest)⟩

theorem readVerdict_nil : readVerdict [] = none := by decide

theorem readVerdict_enter : readVerdict (ascii "Enter a network name.") = none := by decide

theorem readVerdict_couldNotJoin (ssid : List UInt8) (rc : ℤ) :
    readVerdict ((LastResult.couldNotJoin ssid rc).text.take 95) = some .notJoined := by
  rw [readVerdict, LastResult.text, List.append_assoc, List.append_assoc, List.append_assoc,
    if_neg, if_pos]
  · exact (prefix_take_append (by decide) (by decide)).2 (by decide)
  · exact (prefix_take_append (by decide) (by decide)).not.2 (by decide)

theorem readVerdict_storingFailed (rc : ℤ) :
    readVerdict ((LastResult.storingFailed rc).text.take 95) = some .notStored := by
  rw [readVerdict, LastResult.text, List.append_assoc, if_neg, if_neg, if_pos]
  · exact (prefix_take_append (by decide) (by decide)).2 (by decide)
  · exact (prefix_take_append (by decide) (by decide)).not.2 (by decide)
  · exact (prefix_take_append (by decide) (by decide)).not.2 (by decide)

theorem readVerdict_connected : readVerdict (LastResult.connected.text.take 95) = some .stored := by
  decide

/-- Every result is read as what it is. -/
theorem readVerdict_text (t : PortalTest) : readVerdict t.text = some t.verdict := by
  rw [PortalTest.text, PortalTest.verdict, tryPending]
  split
  · exact readVerdict_couldNotJoin _ _
  split
  · exact readVerdict_storingFailed _
  · exact readVerdict_connected

/-! ### The tests -/

/-- What a test does, by its verdict. -/
theorem tryPending_eq (t : PortalTest) (store : CredStore) :
    (tryPending t.answer store t.creds).result.text.take 95 = t.text ∧
      ((tryPending t.answer store t.creds).stored = true ↔ t.verdict = .stored) ∧
      (t.verdict = .stored → t.answer.setRc = 0 ∧
        (tryPending t.answer store t.creds).store = t.answer.replaced t.creds) := by
  rw [PortalTest.text, PortalTest.verdict, tryPending, tryPending]
  split
  · exact ⟨rfl, iff_of_false Bool.false_ne_true (by decide), fun h ↦ absurd h (by decide)⟩
  split
  · exact ⟨rfl, iff_of_false Bool.false_ne_true (by decide), fun h ↦ absurd h (by decide)⟩
  · next hset => exact ⟨rfl, iff_of_true rfl rfl, fun _ ↦ ⟨not_not.1 hset, rfl⟩⟩

theorem storeAfter_concat (store : CredStore) (tests : List PortalTest) (t : PortalTest) :
    storeAfter store (tests ++ [t]) =
      (tryPending t.answer (storeAfter store tests) t.creds).store := by
  rw [storeAfter, List.foldl_concat]
  rfl

/-! ### The invariant -/

variable {cfg : PortalConfig} {store : CredStore} {s t : PortalState} {a : PortalAction}

/-- What `last_result` and the pages say is the last test's result. -/
structure PortalInv (cfg : PortalConfig) (store : CredStore) (s : PortalState) : Prop
    extends PortalTruthful cfg store s where
  testing : s.pc ≠ .testing → s.testing = false
  pending : s.pc = .testing → s.pending.ssid ≠ []
  lastResult : s.pc ≠ .testing → ∀ v, readVerdict s.lastResult = some v →
    ∃ t ∈ s.tests.getLast?, t.verdict = v ∧ s.lastResult = t.text
  /-- After a test that stored its credentials nothing is served but the final page. -/
  ends : s.pc = .finalPage ∨ (∃ t ∈ s.tests.getLast?, t.verdict = .stored) →
    (s.pc = .finalPage ∨ s.pc = .leaving) ∧ s.StoredLast cfg

theorem PortalInv.start (cfg : PortalConfig) (now : ℕ) (operator : Bool) (store : CredStore) :
    PortalInv cfg store (.start cfg now operator store) where
  honest := nofun
  announced := rfl
  store_eq := rfl
  connected := nofun
  leaves := nofun
  unserved := fun _ ↦ ⟨rfl, rfl⟩
  testing := fun _ ↦ rfl
  pending := nofun
  lastResult := fun _ v hv ↦ by
    rw [show (PortalState.start cfg now operator store).lastResult = [] from rfl,
      readVerdict_nil] at hv
    cases hv
  ends := by
    rintro (hpc | ⟨t, ht, -⟩)
    · cases hpc
    · cases ht

/-- Time passes. -/
theorem PortalInv.later (h : PortalInv cfg store s) (ms : ℕ) :
    PortalInv cfg store { s with now := s.now + ms } where
  honest := h.honest
  announced := h.announced
  store_eq := h.store_eq
  connected := h.connected
  leaves := fun hpc ↦ (h.leaves hpc).imp id fun hover ↦ ⟨Nat.le_add_right_of_le hover.1, hover.2⟩
  unserved := h.unserved
  testing := h.testing
  pending := h.pending
  lastResult := h.lastResult
  ends := h.ends

/-- Nobody has been told of success while connections are served. -/
theorem PortalInv.quiet (h : PortalInv cfg store s)
    (hpc : s.pc = .listening ∨ s.pc = .testing) :
    (¬ ∃ t ∈ s.tests.getLast?, t.verdict = .stored) ∧ ∀ x ∈ s.exchanges, ¬ x.SaysStored := by
  have hnot : s.pc ≠ .finalPage ∧ s.pc ≠ .leaving := by
    rcases hpc with hpc | hpc <;> rw [hpc] <;> decide
  exact ⟨fun hstored ↦ (h.ends (Or.inr hstored)).1.elim hnot.1 hnot.2,
    fun x hx hsays ↦ hnot.2 (h.connected x hx hsays).1⟩

theorem Exchange.complete (x : Exchange) (rest : List UInt8)
    (h : x.received = x.reply.header ++ rest) :
    findBody x.received = some (x.reply.header.length, (x.reply.body.flatten.length : ℤ)) ∧
      (rest.length = x.reply.body.flatten.length ↔ x.received = x.reply.response) :=
  x.reply.complete_iff x.answers h

/-- A page without a test behind it. -/
theorem PortalInv.honest_page (h : PortalInv cfg store s) (hpc : s.pc ≠ .testing)
    {reply : HttpReply} (answers : List ℤ)
    (hreply : reply = .redirect ∨ reply = .page false s.lastResult ∨
      reply = .page false (ascii "Enter a network name.")) :
    Exchange.Honest cfg ⟨reply, answers, s.tests, none⟩ where
  announces := nofun
  reloads := fun msg hmsg ↦ by
    rcases hreply with rfl | rfl | rfl <;> cases hmsg
  verdict := fun msg v hmsg hv ↦ by
    rcases hreply with rfl | rfl | rfl
    · cases hmsg
    · obtain rfl : s.lastResult = msg := by injection hmsg
      exact h.lastResult hpc v hv
    · obtain rfl : ascii "Enter a network name." = msg := by injection hmsg
      rw [readVerdict_enter] at hv
      cases hv
  complete := Exchange.complete _

/-- **A connection is served.** -/
theorem PortalInv.serve (h : PortalInv cfg store s) (hpc : s.pc = .listening)
    (segments : List (List UInt8)) (answers : List ℤ) :
    PortalInv cfg store (s.serve cfg.timeoutS segments answers) := by
  have hne : s.pc ≠ .testing := by rw [hpc]; decide
  have hfalse := h.testing hne
  obtain ⟨hquiet, hunsaid⟩ := h.quiet (Or.inl hpc)
  have hannounced := h.announced
  rw [if_neg hne, List.append_nil] at hannounced
  rw [PortalState.serve]
  -- the request announces a test, or is answered with a page about the last one
  rcases handles_httpHandle cfg.timeoutS s.toPortal segments with
    ⟨hwaiting, hssid, htesting, hreply⟩ | ⟨hwaiting, htesting, hlast, hreply⟩
  · simp only [hwaiting, hreply, if_true]
    refine
      { honest := List.forall_mem_append.2 ⟨h.honest, List.forall_mem_singleton.2 ?_⟩
        announced := ?_
        store_eq := h.store_eq
        connected := List.forall_mem_append.2
          ⟨fun x hx hsays ↦ absurd hsays (hunsaid x hx), List.forall_mem_singleton.2 ?_⟩
        leaves := nofun
        unserved := fun hdown ↦ by rcases hdown with hdown | hdown <;> cases hdown
        testing := fun hnot ↦ absurd rfl hnot
        pending := fun _ ↦ hssid
        lastResult := fun hnot ↦ absurd rfl hnot
        ends := fun hends ↦ absurd (hends.resolve_left (by rintro ⟨⟩)) hquiet }
    · exact
        { announces := fun c hc ↦ by
            obtain rfl := Option.some.inj hc
            rfl
          reloads := fun _ _ ↦ Option.some_ne_none _
          verdict := fun msg v hmsg ↦ by cases hmsg
          complete := Exchange.complete _ }
    · rw [List.filterMap_append, hannounced, if_pos rfl]
      rfl
    · rintro ⟨msg, hmsg, -⟩
      cases hmsg
  · rw [hfalse] at htesting hreply
    simp only [hwaiting, if_neg Bool.false_ne_true]
    have hhonest := h.honest_page hne answers hreply
    refine
      { honest := List.forall_mem_append.2 ⟨h.honest, List.forall_mem_singleton.2 hhonest⟩
        announced := ?_
        store_eq := h.store_eq
        connected := List.forall_mem_append.2
          ⟨fun x hx hsays ↦ absurd hsays (hunsaid x hx), List.forall_mem_singleton.2 ?_⟩
        leaves := nofun
        unserved := fun hdown ↦ by rcases hdown with hdown | hdown <;> cases hdown
        testing := fun _ ↦ htesting
        pending := nofun
        lastResult := fun _ v hv ↦ ?_
        ends := fun hends ↦ absurd (hends.resolve_left (by rintro ⟨⟩)) hquiet }
    · rw [List.filterMap_append, hannounced, if_neg (by rintro ⟨⟩), List.append_nil]
      exact List.append_nil _
    · rintro ⟨msg, hmsg, hv⟩
      obtain ⟨t, ht, hverdict, -⟩ := hhonest.verdict msg _ hmsg hv
      exact absurd ⟨t, ht, hverdict⟩ hquiet
    · rw [hlast] at hv ⊢
      exact h.lastResult hne v hv

/-- The credentials that passed a test are stored. -/
theorem PortalInv.storedLast (h : PortalInv cfg store s) (hpc : s.pc = .testing)
    {answer : AttemptAnswer} (hv : PortalTest.verdict ⟨s.pending, answer⟩ = .stored) :
    (s.tryPending answer).StoredLast cfg := by
  obtain ⟨hrc, hreplaced⟩ := (tryPending_eq ⟨s.pending, answer⟩ s.store).2.2 hv
  refine ⟨⟨s.pending, answer⟩, List.getLast?_concat, hv, hreplaced, fun hempty hcfg ↦ ?_⟩
  rw [PortalState.tryPending, hreplaced]
  exact resolve_replaced (h.pending hpc) hrc hempty hcfg

/-- **A test ends.** -/
theorem PortalInv.tryPending (h : PortalInv cfg store s) (hpc : s.pc = .testing)
    (answer : AttemptAnswer) : PortalInv cfg store (s.tryPending answer) := by
  obtain ⟨hquiet, hunsaid⟩ := h.quiet (Or.inr hpc)
  have hannounced := h.announced
  rw [if_pos hpc] at hannounced
  obtain ⟨htext, hstored, -⟩ := tryPending_eq ⟨s.pending, answer⟩ s.store
  have hlast : (s.tryPending answer).tests.getLast? = some ⟨s.pending, answer⟩ :=
    List.getLast?_concat
  -- the last page follows exactly a test whose credentials were stored
  have hpc' : (s.tryPending answer).pc ≠ .testing ∧
      ((s.tryPending answer).pc = .finalPage ∨ (s.tryPending answer).pc = .listening) ∧
      ((s.tryPending answer).pc = .finalPage ↔
        PortalTest.verdict ⟨s.pending, answer⟩ = .stored) := by
    rw [← hstored, PortalState.tryPending]
    dsimp only
    split
    · next hyes => exact ⟨by decide, Or.inl rfl, iff_of_true rfl hyes⟩
    · next hno => exact ⟨by decide, Or.inr rfl, iff_of_false (by decide) hno⟩
  refine
    { honest := h.honest
      announced := ?_
      store_eq := ?_
      connected := fun x hx hsays ↦ absurd hsays (hunsaid x hx)
      leaves := fun hleaves ↦ absurd hleaves ?_
      unserved := fun hdown ↦ absurd hdown ?_
      testing := fun _ ↦ rfl
      pending := fun htesting ↦ absurd htesting hpc'.1
      lastResult := fun _ v hv ↦ ⟨_, hlast, ?_⟩
      ends := fun hends ↦ ?_ }
  · rw [if_neg hpc'.1, List.append_nil, PortalState.tryPending, List.map_append]
    exact hannounced
  · rw [PortalState.tryPending, storeAfter_concat, ← h.store_eq]
  · rcases hpc'.2.1 with hpc | hpc <;> rw [hpc] <;> decide
  · rcases hpc'.2.1 with hpc | hpc <;> rw [hpc] <;> decide
  · have hmsg : (s.tryPending answer).lastResult = PortalTest.text ⟨s.pending, answer⟩ := htext
    rw [hmsg, readVerdict_text] at hv
    exact ⟨Option.some.inj hv, hmsg⟩
  · have hv : PortalTest.verdict ⟨s.pending, answer⟩ = .stored := by
      rcases hends with hfinal | ⟨t, ht, hv⟩
      · exact hpc'.2.2.1 hfinal
      · obtain rfl := Option.some.inj (hlast.symm.trans ht)
        exact hv
    exact ⟨Or.inl (hpc'.2.2.2 hv), h.storedLast hpc hv⟩

/-- **The last page.** -/
theorem PortalInv.final (h : PortalInv cfg store s) (hpc : s.pc = .finalPage)
    (served : Option (List ℤ)) : PortalInv cfg store { s with
      pc := .leaving
      exchanges := s.exchanges ++ (served.map fun answers ↦
        ⟨.page s.testing s.lastResult, answers, s.tests, none⟩).toList } := by
  have hne : s.pc ≠ .testing := by rw [hpc]; decide
  have hannounced := h.announced
  rw [if_neg hne, List.append_nil] at hannounced
  have hstored : s.StoredLast cfg := (h.ends (Or.inl hpc)).2
  rw [h.testing hne]
  refine
    { honest := List.forall_mem_append.2 ⟨h.honest, fun x hx ↦ ?_⟩
      announced := ?_
      store_eq := h.store_eq
      connected := fun _ _ _ ↦ ⟨rfl, hstored⟩
      leaves := fun _ ↦ Or.inl hstored
      unserved := fun hdown ↦ by rcases hdown with hdown | hdown <;> cases hdown
      testing := fun _ ↦ h.testing hne
      pending := nofun
      lastResult := fun _ ↦ h.lastResult hne
      ends := fun _ ↦ ⟨Or.inr rfl, hstored⟩ }
  · obtain ⟨answers, -, rfl⟩ := Option.map_eq_some_iff.1 (Option.mem_toList.1 hx)
    exact h.honest_page hne answers (Or.inr (Or.inl rfl))
  · rw [if_neg (by rintro ⟨⟩), List.append_nil, List.filterMap_append, hannounced]
    cases served <;> exact List.append_nil _

/-- **The access point is up, or is not.** -/
theorem PortalInv.started (h : PortalInv cfg store s) (hpc : s.pc = .starting) {pc : PortalPc}
    (hstarted : pc = .retrying ∨ pc = .listening) :
    PortalInv cfg store { s with pc := pc } := by
  obtain ⟨hexchanges, htests⟩ := h.unserved (Or.inl hpc)
  have hne : s.pc ≠ .testing := by rw [hpc]; decide
  have hnot : pc ≠ .testing ∧ pc ≠ .leaving ∧ pc ≠ .finalPage := by
    rcases hstarted with rfl | rfl <;> decide
  have hannounced := h.announced
  rw [if_neg hne] at hannounced
  exact
    { honest := h.honest
      announced := by rw [if_neg hnot.1]; exact hannounced
      store_eq := h.store_eq
      connected := fun x hx ↦ absurd (hexchanges ▸ hx) List.not_mem_nil
      leaves := fun hleaves ↦ absurd hleaves hnot.2.1
      unserved := fun _ ↦ ⟨hexchanges, htests⟩
      testing := fun _ ↦ h.testing hne
      pending := fun htesting ↦ absurd htesting hnot.1
      lastResult := fun _ ↦ h.lastResult hne
      ends := fun hends ↦ by
        rcases hends with hfinal | ⟨t, ht, -⟩
        · exact absurd hfinal hnot.2.2
        · rw [htests] at ht
          cases ht }

/-- **The window is over.** -/
theorem PortalInv.expire (h : PortalInv cfg store s) (hpc : s.pc = .listening)
    (hover : s.deadline ≤ s.now) (windowS : ℕ) :
    PortalInv cfg store (if s.returnOnExpiry || (appWifiCredsResolve cfg.wifi s.store).isSome then
      { s with pc := .leaving } else { s with deadline := s.now + windowS * 1000 }) := by
  have hne : s.pc ≠ .testing := by rw [hpc]; decide
  obtain ⟨hquiet, hunsaid⟩ := h.quiet (Or.inl hpc)
  have hannounced := h.announced
  rw [if_neg hne] at hannounced
  split
  · next hhave =>
    have hhave' : s.returnOnExpiry = true ∨ appWifiCredsResolve cfg.wifi s.store ≠ none :=
      (Bool.or_eq_true_iff.1 hhave).imp id fun hsome ↦ Option.isSome_iff_ne_none.1 hsome
    exact
      { honest := h.honest
        announced := hannounced
        store_eq := h.store_eq
        connected := fun x hx hsays ↦ absurd hsays (hunsaid x hx)
        leaves := fun _ ↦ Or.inr ⟨hover, hhave'⟩
        unserved := fun hdown ↦ by rcases hdown with hdown | hdown <;> cases hdown
        testing := fun _ ↦ h.testing hne
        pending := nofun
        lastResult := fun _ ↦ h.lastResult hne
        ends := fun hends ↦ absurd (hends.resolve_left (by rintro ⟨⟩)) hquiet }
  · exact
      { honest := h.honest
        announced := h.announced
        store_eq := h.store_eq
        connected := h.connected
        leaves := fun hleaves ↦ absurd (hpc.symm.trans hleaves) (by decide)
        unserved := h.unserved
        testing := h.testing
        pending := h.pending
        lastResult := h.lastResult
        ends := h.ends }

/-- **The step lemma.** -/
theorem PortalInv.step (h : PortalInv cfg store s) (hst : portalStep cfg s a = some t) :
    PortalInv cfg store t := by
  cases a with
  | apStarted rc ms =>
    obtain ⟨hpc, hst⟩ := Option.ite_none_right_eq_some.1 hst
    obtain rfl := Option.some.inj hst
    split
    · exact ((h.started hpc (Or.inl rfl)).later ms).later (30 * 1000)
    · exact (h.started hpc (Or.inr rfl)).later ms
  | wait ms =>
    obtain ⟨-, hst⟩ := Option.ite_none_right_eq_some.1 hst
    obtain rfl := Option.some.inj hst
    exact h.later ms
  | serve segments answers ms =>
    obtain ⟨⟨hpc, -⟩, hst⟩ := Option.ite_none_right_eq_some.1 hst
    obtain rfl := Option.some.inj hst
    exact (h.serve hpc segments answers).later ms
  | expire ms =>
    obtain ⟨⟨hpc, hover⟩, hst⟩ := Option.ite_none_right_eq_some.1 hst
    obtain rfl := Option.some.inj hst
    exact (h.later ms).expire hpc (hover.trans (Nat.le_add_right _ ms)) cfg.windowS
  | test answer ms =>
    obtain ⟨hpc, hst⟩ := Option.ite_none_right_eq_some.1 hst
    obtain rfl := Option.some.inj hst
    exact (h.tryPending hpc answer).later ms
  | final served ms =>
    obtain ⟨hpc, hst⟩ := Option.ite_none_right_eq_some.1 hst
    obtain rfl := Option.some.inj hst
    exact (h.final hpc served).later ms

/-- **The portal tells the truth**, in every state of every run. -/
theorem portal_truthful (cfg : PortalConfig) (now : ℕ) (operator : Bool) (store : CredStore)
    (as : List PortalAction) :
    Throughout (portalStep cfg) (PortalTruthful cfg store) (.start cfg now operator store) as :=
  (throughout_of_forall (fun _ _ _ h hst ↦ PortalInv.step h hst)
    (PortalInv.start cfg now operator store) as).imp fun _ h ↦ h.toPortalTruthful

/-- A form in two pieces, a wrong password, and the same form again. -/
example : (exec (portalStep ⟨⟨true, none⟩, 300, 30⟩) (.start ⟨⟨true, none⟩, 300, 30⟩ 0 false [])
    [.apStarted 0 800, .wait 5000,
      .serve [ascii "POST /connect HTTP/1.1\r\n", ascii "Content-Length: 11\r\n\r\nssid=a&psk="]
        [] 20,
      .test ⟨⟨[], 0⟩, -110⟩ 30000,
      .serve [ascii "POST /connect HTTP/1.1\r\nContent-Length: 11\r\n\r\nssid=a&psk="] [] 20,
      .test ⟨⟨[], 0⟩, 0⟩ 4000,
      .final none 6000]).map (fun s ↦ (s.pc, s.store, s.tests.length)) =
    some (.leaving, [⟨[97], some []⟩], 2) := by
  decide +kernel

end ThinEdge.Provisioner
