import ThinEdge.Modbus.Server

/-!
# Which request a Modbus reply answers

`serve_once` replies with whatever `tmp_adu` holds when `response_ready` is given, or with a failure
made from it when the wait times out. Nothing ties the semaphore or the buffer to a request, so a
callback that runs to its end while the listener waits for its request is answered correctly
(`repliesPaired_of_timely`), and one that comes later is not: it leaves the semaphore given, and the
listener takes it for the answer to the next request.
-/

namespace ThinEdge.Modbus

open Transition

variable {raw : ModbusRaw}

/-! ### The property -/

/-- A reply answers its request: it is the response the core gave to that request, or the failure
reply made from that request, with the request's ids. -/
def Paired (raw : ModbusRaw) (responses : List (ℕ × MbapFrame)) (submitted : List ModbusAdu)
    (r : Reply) : Prop :=
  (∃ p ∈ responses, p.1 = r.request ∧ r.header = raw.putHeader p.2.mbap ∧
    ∀ d ∈ r.data, d = p.2.data) ∨
  ∃ req ∈ submitted[r.request]?,
    r.header = raw.putHeader (raw.setServerFailure req).toMbapHeader ∧
    (∀ d ∈ r.data, d = (raw.setServerFailure req).payload) ∧
    (raw.setServerFailure req).transId = req.transId ∧
    (raw.setServerFailure req).protoId = req.protoId ∧
    (raw.setServerFailure req).unitId = req.unitId

/-- The replies on the socket: those that are through, and a header whose data is still to come. -/
def Server.written (s : Server) : List Reply :=
  match s.pc with
  | .replyData k header => s.sent ++ [⟨k, header, none⟩]
  | _ => s.sent

/-- Every reply on the socket answers its request. -/
def RepliesPaired (raw : ModbusRaw) (s : Server) : Prop :=
  ∀ r ∈ s.written, Paired raw s.responses s.submitted r

instance (responses : List (ℕ × MbapFrame)) (submitted : List ModbusAdu) (r : Reply) :
    Decidable (Paired raw responses submitted r) :=
  inferInstanceAs (Decidable (_ ∨ _))

instance (s : Server) : Decidable (RepliesPaired raw s) := inferInstanceAs (Decidable (∀ _ ∈ _, _))

/-- The worker is in time: its callback for a request runs while the listener waits for that
request, and the wait does not time out in the middle of it. -/
def Timely (s : Server) : Action → Prop
  | .rawTxFill k _ => s.pc = .waiting k
  | .rawTxGive => s.worker.map Pc.waiting = some s.pc
  | .semTimeout => s.worker = none
  | _ => True

instance (s : Server) : (a : Action) → Decidable (Timely s a)
  | .rawTxFill k _ => inferInstanceAs (Decidable (s.pc = .waiting k))
  | .rawTxGive => inferInstanceAs (Decidable (s.worker.map Pc.waiting = some s.pc))
  | .semTimeout => inferInstanceAs (Decidable (s.worker = none))
  | .accept _ | .drop | .recvHeader _ | .recvData | .recvError | .submitRx _ | .semTake
  | .setFailure | .sendHeader _ | .sendData _ => isTrue trivial

/-! ### The invariant -/

/-- The ADU holds the core's response to request `k`. -/
def CoreAnswer (responses : List (ℕ × MbapFrame)) (k : ℕ) (adu : ModbusAdu) : Prop :=
  ∃ p ∈ responses, p.1 = k ∧ adu.toMbapHeader = p.2.mbap ∧ adu.payload = p.2.data

/-- The ADU holds an answer to request `k`. -/
def Answer (raw : ModbusRaw) (responses : List (ℕ × MbapFrame)) (submitted : List ModbusAdu)
    (k : ℕ) (adu : ModbusAdu) : Prop :=
  CoreAnswer responses k adu ∨ ∃ req ∈ submitted[k]?, adu = raw.setServerFailure req

/-- No callback is under way and the semaphore is not given. -/
def Quiet (s : Server) : Prop := s.worker = none ∧ s.responseReady = false

/-- What `tmp_adu`, the semaphore and the worker hold at each place of the listener. While it waits
for request `k`, either nothing has happened and `tmp_adu` is still the request, or the only
callback for `k` has filled in the response. -/
def Phase (raw : ModbusRaw) (s : Server) : Prop :=
  match s.pc with
  | .waiting k =>
    Quiet s ∧ s.submitted[k]? = some s.tmpAdu ∨
      CoreAnswer s.responses k s.tmpAdu ∧ k ∉ s.pending ∧
        (s.worker = some k ∧ s.responseReady = false ∨ s.worker = none ∧ s.responseReady = true)
  | .timedOut k => Quiet s ∧ s.submitted[k]? = some s.tmpAdu
  | .reply k => Quiet s ∧ Answer raw s.responses s.submitted k s.tmpAdu
  | .replyData k header =>
    Quiet s ∧ Answer raw s.responses s.submitted k s.tmpAdu ∧
      header = raw.putHeader s.tmpAdu.toMbapHeader
  | _ => Quiet s

/-- The invariant of the two threads. -/
structure PairingInv (raw : ModbusRaw) (s : Server) : Prop where
  pending_nodup : s.pending.Nodup
  pending_lt : ∀ k ∈ s.pending, k < s.submitted.length
  phase : Phase raw s
  sent : ∀ r ∈ s.sent, Paired raw s.responses s.submitted r

variable {responses : List (ℕ × MbapFrame)} {submitted : List ModbusAdu} {s t : Server} {a : Action}

/-- A reply made from an ADU that holds an answer answers the request. -/
theorem Answer.paired {k : ℕ} {adu : ModbusAdu} (h : Answer raw responses submitted k adu)
    {data : Option (List UInt8)} (hdata : ∀ d ∈ data, d = adu.payload) :
    Paired raw responses submitted ⟨k, raw.putHeader adu.toMbapHeader, data⟩ := by
  rcases h with ⟨p, hp, hk, hmbap, hpay⟩ | ⟨req, hreq, rfl⟩
  · exact Or.inl ⟨p, hp, hk, by rw [hmbap], fun d hd ↦ (hdata d hd).trans hpay⟩
  · obtain ⟨htrans, hproto, hunit⟩ := raw.setServerFailure_ids req
    exact Or.inr ⟨req, hreq, rfl, hdata, htrans, hproto, hunit⟩

/-- Later submissions and responses do not undo a pairing. -/
theorem Paired.mono {responses' : List (ℕ × MbapFrame)} {submitted' : List ModbusAdu} {r : Reply}
    (hresp : responses ⊆ responses') (hsub : submitted <+: submitted')
    (h : Paired raw responses submitted r) : Paired raw responses' submitted' r := by
  rcases h with ⟨p, hp, h⟩ | ⟨req, hreq, h⟩
  · exact Or.inl ⟨p, hresp hp, h⟩
  · obtain ⟨new, rfl⟩ := hsub
    refine Or.inr ⟨req, ?_, h⟩
    rw [Option.mem_def] at hreq ⊢
    rw [List.getElem?_append_left (List.getElem?_eq_some_iff.1 hreq).1, hreq]

theorem PairingInv.repliesPaired (h : PairingInv raw s) : RepliesPaired raw s := by
  intro r hr
  have hphase := h.phase
  rw [Phase] at hphase
  rw [Server.written] at hr
  split at hr
  · next k header hpc =>
    rw [hpc] at hphase
    obtain ⟨-, hans, rfl⟩ := hphase
    rcases List.mem_append.1 hr with hr | hr
    · exact h.sent r hr
    · obtain rfl := List.mem_singleton.1 hr
      exact hans.paired (by simp)
  · exact h.sent r hr

theorem pairingInv_boot : PairingInv raw (.boot raw) where
  pending_nodup := List.nodup_nil
  pending_lt := by simp [Server.boot]
  phase := ⟨rfl, rfl⟩
  sent := by simp [Server.boot]

/-! ### The steps -/

/-- The places at which the listener has a submitted request in hand. -/
def Pc.InHand : Pc → Prop
  | .waiting _ | .timedOut _ | .reply _ | .replyData _ _ => True
  | _ => False

theorem phase_of_not_inHand (hpc : ¬ s.pc.InHand) : Phase raw s ↔ Quiet s := by
  rw [Phase]
  cases hs : s.pc <;> simp_all [Pc.InHand]

/-- The phase in which the listener waits for `k` and the callback for `k` has filled it in. -/
theorem phase_of_filled {k : ℕ} (hpc : s.pc = .waiting k) (hans : CoreAnswer s.responses k s.tmpAdu)
    (hnot : k ∉ s.pending) (hsem : s.worker = some k ∧ s.responseReady = false ∨
      s.worker = none ∧ s.responseReady = true) : Phase raw s := by
  rw [Phase]
  rw [hpc]
  exact Or.inr ⟨hans, hnot, hsem⟩

/-- While the listener waits for `k`, the request is untouched or the response is filled in. -/
theorem PairingInv.waiting {k : ℕ} (hinv : PairingInv raw s) (hpc : s.pc = .waiting k) :
    Quiet s ∧ s.submitted[k]? = some s.tmpAdu ∨
      CoreAnswer s.responses k s.tmpAdu ∧ k ∉ s.pending ∧
        (s.worker = some k ∧ s.responseReady = false ∨
          s.worker = none ∧ s.responseReady = true) := by
  have hphase := hinv.phase
  rw [Phase] at hphase
  rw [hpc] at hphase
  exact hphase

/-- A step that only moves the listener keeps the invariant when it leads to the next phase. -/
theorem PairingInv.of_phase (hinv : PairingInv raw s) (hphase : Phase raw t)
    (hpending : t.pending = s.pending) (hresp : t.responses = s.responses)
    (hsub : t.submitted = s.submitted) (hsent : t.sent = s.sent) : PairingInv raw t where
  pending_nodup := hpending ▸ hinv.pending_nodup
  pending_lt := by
    rw [hpending, hsub]
    exact hinv.pending_lt
  phase := hphase
  sent := by
    rw [hsent, hresp, hsub]
    exact hinv.sent

/-- A step between two places at which no request is in hand. -/
theorem PairingInv.of_quiet (hinv : PairingInv raw s) (hs : ¬ s.pc.InHand) (ht : ¬ t.pc.InHand)
    (hworker : t.worker = s.worker) (hready : t.responseReady = s.responseReady)
    (hpending : t.pending = s.pending) (hresp : t.responses = s.responses)
    (hsub : t.submitted = s.submitted) (hsent : t.sent = s.sent) : PairingInv raw t := by
  obtain ⟨hw, hr⟩ := (phase_of_not_inHand hs).1 hinv.phase
  exact hinv.of_phase ((phase_of_not_inHand ht).2 ⟨hworker.trans hw, hready.trans hr⟩) hpending
    hresp hsub hsent

/-- A submission, taken or refused. -/
theorem PairingInv.submitRx {ok : Bool} (hinv : PairingInv raw s)
    (h : step raw s (.submitRx ok) = some t) : PairingInv raw t := by
  simp only [step, Option.ite_none_right_eq_some, Option.some.injEq] at h
  obtain ⟨hpc, rfl⟩ := h
  have hquiet : Quiet s := (phase_of_not_inHand (by simp [hpc, Pc.InHand])).1 hinv.phase
  have hsent := fun r hr ↦ (hinv.sent r hr).mono (List.Subset.refl _)
    (List.prefix_append s.submitted [s.tmpAdu])
  have hlt : ∀ k ∈ s.pending, k < (s.submitted ++ [s.tmpAdu]).length := by
    intro k hk
    have := hinv.pending_lt k hk
    simp only [List.length_append, List.length_singleton]
    omega
  cases ok
  · exact ⟨hinv.pending_nodup, hlt, hquiet, hsent⟩
  · refine ⟨?_, ?_, Or.inl ⟨hquiet, ?_⟩, hsent⟩
    · -- the new request's number is not among the pending ones
      have hnew : s.submitted.length ∉ s.pending := fun hmem ↦
        absurd (hinv.pending_lt _ hmem) (Nat.lt_irrefl _)
      simp only [if_true]
      rw [List.nodup_append]
      refine ⟨hinv.pending_nodup, by simp, fun k hk j hj hkj ↦ hnew ?_⟩
      rw [← List.mem_singleton.1 hj, ← hkj]
      exact hk
    · intro k hk
      simp only [if_true] at hk
      rcases List.mem_append.1 hk with hk | hk
      · exact hlt k hk
      · rw [List.mem_singleton.1 hk]
        simp
    · simp

/-- A callback for the request the listener waits for fills in its response. -/
theorem PairingInv.rawTxFill {k : ℕ} {response : MbapFrame} (hinv : PairingInv raw s)
    (hpc : s.pc = .waiting k) (h : step raw s (.rawTxFill k response) = some t) :
    PairingInv raw t := by
  simp only [step, Option.ite_none_right_eq_some, Option.some.injEq] at h
  obtain ⟨⟨hworker, hk, hlen⟩, rfl⟩ := h
  have hnot : k ∉ s.pending.erase k := hinv.pending_nodup.not_mem_erase
  -- the request is still pending, so no callback has been made for it
  have hquiet : Quiet s := by
    rcases hinv.waiting hpc with ⟨hquiet, -⟩ | ⟨-, hdone, -⟩
    · exact hquiet
    · exact absurd hk hdone
  refine ⟨hinv.pending_nodup.erase k, fun j hj ↦ hinv.pending_lt j (List.mem_of_mem_erase hj), ?_,
    fun r hr ↦ (hinv.sent r hr).mono (List.subset_append_left _ _) (List.prefix_refl _)⟩
  exact phase_of_filled hpc
    ⟨(k, response), by simp, rfl, rfl, payload_serverRawTx hlen s.tmpAdu⟩ hnot
    (Or.inl ⟨rfl, hquiet.2⟩)

/-- The end of a reply. -/
theorem PairingInv.sendData {ok : Bool} (hinv : PairingInv raw s)
    (h : step raw s (.sendData ok) = some t) : PairingInv raw t := by
  simp only [step] at h
  split at h <;> simp only [Option.some.injEq, reduceCtorEq] at h
  next k header hpc =>
  subst h
  have hphase := hinv.phase
  rw [Phase] at hphase
  rw [hpc] at hphase
  obtain ⟨hquiet, hans, rfl⟩ := hphase
  refine ⟨hinv.pending_nodup, hinv.pending_lt, ?_, fun r hr ↦ ?_⟩
  · rw [Phase]
    cases ok || s.tmpAdu.length == 0 <;> exact hquiet
  · rcases List.mem_append.1 hr with hr | hr
    · exact hinv.sent r hr
    · obtain rfl := List.mem_singleton.1 hr
      refine hans.paired fun d hd ↦ ?_
      cases hok : ok || s.tmpAdu.length == 0 <;> simp only [hok] at hd <;> simp_all

/-- The listener goes on with the response: the semaphore is given only by the callback for `k`. -/
theorem PairingInv.semTake (hinv : PairingInv raw s) (h : step raw s .semTake = some t) :
    PairingInv raw t := by
  simp only [step] at h
  split at h <;> simp only [Option.ite_none_right_eq_some, Option.some.injEq, reduceCtorEq] at h
  next k hpc =>
  obtain ⟨hready, rfl⟩ := h
  rcases hinv.waiting hpc with ⟨⟨-, hno⟩, -⟩ | ⟨hans, -, ⟨-, hno⟩ | ⟨hworker, -⟩⟩
  · simp [hno] at hready
  · simp [hno] at hready
  · exact hinv.of_phase ⟨⟨hworker, rfl⟩, Or.inl hans⟩ rfl rfl rfl rfl

/-- The wait times out, and not in the middle of a callback. -/
theorem PairingInv.semTimeout (hinv : PairingInv raw s) (hworker : s.worker = none)
    (h : step raw s .semTimeout = some t) : PairingInv raw t := by
  simp only [step] at h
  split at h <;> simp only [Option.ite_none_left_eq_some, Option.some.injEq, reduceCtorEq] at h
  next k hpc =>
  obtain ⟨hready, rfl⟩ := h
  rcases hinv.waiting hpc with hwait | ⟨-, -, ⟨hsome, -⟩ | ⟨-, hgiven⟩⟩
  · exact hinv.of_phase hwait rfl rfl rfl rfl
  · rw [hworker] at hsome
    exact nomatch hsome
  · exact absurd hgiven hready

/-- The end of a callback gives the semaphore to a listener that waits for it. -/
theorem PairingInv.rawTxGive (hinv : PairingInv raw s)
    (hmap : s.worker.map Pc.waiting = some s.pc) (h : step raw s .rawTxGive = some t) :
    PairingInv raw t := by
  simp only [step] at h
  split at h <;> simp only [Option.some.injEq, reduceCtorEq] at h
  next k hworker =>
  subst h
  have hpc : s.pc = .waiting k := by
    rw [hworker] at hmap
    exact (Option.some.inj hmap).symm
  rcases hinv.waiting hpc with ⟨⟨hnone, -⟩, -⟩ | ⟨hans, hnot, -⟩
  · rw [hworker] at hnone
    exact nomatch hnone
  · exact hinv.of_phase (phase_of_filled hpc hans hnot (Or.inr ⟨rfl, rfl⟩)) rfl rfl rfl rfl

/-- The failure reply is made from the request, which is still in `tmp_adu`. -/
theorem PairingInv.setFailure (hinv : PairingInv raw s) (h : step raw s .setFailure = some t) :
    PairingInv raw t := by
  have hphase := hinv.phase
  rw [Phase] at hphase
  simp only [step] at h
  split at h <;> simp only [Option.some.injEq, reduceCtorEq] at h
  next k hpc =>
  subst h
  rw [hpc] at hphase
  obtain ⟨hquiet, hreq⟩ := hphase
  exact hinv.of_phase ⟨hquiet, Or.inr ⟨s.tmpAdu, hreq, rfl⟩⟩ rfl rfl rfl rfl

/-- The header of a reply goes out, or the client is gone. -/
theorem PairingInv.sendHeader {ok : Bool} (hinv : PairingInv raw s)
    (h : step raw s (.sendHeader ok) = some t) : PairingInv raw t := by
  have hphase := hinv.phase
  rw [Phase] at hphase
  simp only [step] at h
  split at h <;> simp only [Option.some.injEq, reduceCtorEq] at h
  next k hpc =>
  subst h
  rw [hpc] at hphase
  cases ok
  · exact hinv.of_phase hphase.1 rfl rfl rfl rfl
  · exact hinv.of_phase ⟨hphase.1, hphase.2, rfl⟩ rfl rfl rfl rfl

/-- **The step lemma**: a step in time keeps the invariant. -/
theorem PairingInv.step (hinv : PairingInv raw s) (hok : Timely s a)
    (h : Modbus.step raw s a = some t) : PairingInv raw t := by
  cases a with
  | submitRx ok => exact hinv.submitRx h
  | rawTxFill k response => exact hinv.rawTxFill hok h
  | rawTxGive => exact hinv.rawTxGive hok h
  | semTake => exact hinv.semTake h
  | semTimeout => exact hinv.semTimeout hok h
  | setFailure => exact hinv.setFailure h
  | sendHeader ok => exact hinv.sendHeader h
  | sendData ok => exact hinv.sendData h
  | accept stream =>
    simp only [Modbus.step] at h
    split at h <;> simp only [Option.some.injEq, reduceCtorEq] at h
    next hpc =>
    subst h
    exact hinv.of_quiet (by simp [hpc, Pc.InHand]) id rfl rfl rfl rfl rfl rfl
  | drop =>
    simp only [Modbus.step, Option.ite_none_right_eq_some, Option.some.injEq] at h
    obtain ⟨hpc, rfl⟩ := h
    exact hinv.of_quiet (by simp [hpc, Pc.InHand]) id rfl rfl rfl rfl rfl rfl
  | recvError =>
    simp only [Modbus.step, Option.ite_none_right_eq_some, Option.some.injEq] at h
    obtain ⟨hpc, rfl⟩ := h
    exact hinv.of_quiet (by rcases hpc with hpc | hpc <;> simp [hpc, Pc.InHand]) id rfl rfl rfl rfl
      rfl rfl
  | recvHeader mem =>
    simp only [Modbus.step, Option.ite_none_right_eq_some] at h
    obtain ⟨⟨hpc, -⟩, h⟩ := h
    split at h <;> simp only [Option.some.injEq] at h <;> subst h
    · exact hinv.of_quiet (by simp [hpc, Pc.InHand]) id rfl rfl rfl rfl rfl rfl
    · refine hinv.of_quiet (by simp [hpc, Pc.InHand]) ?_ rfl rfl rfl rfl rfl rfl
      dsimp only
      split <;> exact id
  | recvData =>
    simp only [Modbus.step, Option.ite_none_right_eq_some] at h
    obtain ⟨hpc, h⟩ := h
    split at h <;> simp only [Option.some.injEq] at h <;> subst h <;>
      exact hinv.of_quiet (by simp [hpc, Pc.InHand]) id rfl rfl rfl rfl rfl rfl

/-! ### The main result -/

/-- **Replies are paired with their requests as long as the worker is in time.** In every run of the
two threads from boot whose callbacks each run while the listener waits for their request, every
reply on the socket is the core's response to its request, or the failure reply made from it. -/
theorem repliesPaired_of_timely (raw : ModbusRaw) (as : List Action)
    (has : AllSteps (step raw) Timely (.boot raw) as) :
    Throughout (step raw) (RepliesPaired raw) (.boot raw) as :=
  (throughout_of_invariant (fun _ _ _ h hok hstep ↦ PairingInv.step h hok hstep) pairingInv_boot
    has).imp fun _ h ↦ h.repliesPaired

/-- A client that reads the set point and then the mode. -/
def twoReads : List UInt8 :=
  (MbapFrame.bytes ⟨1, 0, 1, 3, [0, 0, 0, 1]⟩) ++ (MbapFrame.bytes ⟨2, 0, 1, 3, [0, 1, 0, 1]⟩)

/-- The listener receives and submits the next request. -/
def receiveRequest : List Action :=
  [.recvHeader (List.replicate mbapAndFcLength 0), .recvData, .submitRx true]

/-- The core answers the first read in time; the wait for the second runs out. -/
def timelyRun : List Action :=
  .accept twoReads :: receiveRequest ++
    [.rawTxFill 0 ⟨1, 0, 1, 3, [2, 0, 50]⟩, .rawTxGive, .semTake, .sendHeader true,
      .sendData true] ++
    receiveRequest ++ [.semTimeout, .setFailure, .sendHeader true, .sendData true]

/-- One answer and one failure, each paired with its request. -/
theorem repliesPaired_timelyRun :
    ((exec (step zephyrRaw) (.boot zephyrRaw) timelyRun).map fun s ↦ s.sent.length) = some 2 ∧
      Throughout (step zephyrRaw) (RepliesPaired zephyrRaw) (.boot zephyrRaw) timelyRun :=
  ⟨by decide, repliesPaired_of_timely zephyrRaw timelyRun (by decide)⟩

/-- The core answers the first read after the wait for it has run out. -/
def lateRun : List Action :=
  .accept twoReads :: receiveRequest ++
    [.semTimeout, .setFailure, .sendHeader true, .sendData true,
      .rawTxFill 0 ⟨1, 0, 1, 3, [2, 0, 50]⟩, .rawTxGive] ++
    receiveRequest ++ [.semTake, .sendHeader true, .sendData true]

/-- The semaphore the late callback has given ends the wait for the second read at once, and the
second read is answered with a copy of itself. -/
theorem not_repliesPaired_lateRun :
    ¬ ∀ as, Throughout (step zephyrRaw) (RepliesPaired zephyrRaw) (.boot zephyrRaw) as := by
  intro h
  exact absurd (h lateRun) (by decide)

end ThinEdge.Modbus
