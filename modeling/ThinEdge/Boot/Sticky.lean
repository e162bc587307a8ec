import ThinEdge.Boot.Request
import ThinEdge.Lib.Transition

/-!
# The boot request over boots and resets

`boot_request_set` and `boot_request_clear` (`lib/common/boot_request.c`) one flash operation after
the other, called by whichever image runs, with resets at any point, and MCUboot's `boot_go_hook`
that reads the record at every boot. The images are arbitrary: they may call, change the
provisioner's partition and reset in any order.

`bootsAsAsked_throughout` rests on two facts about the record alone: it asks for the provisioner
from the write of a set until the next flatten, and it has no magic from the flatten of a clear
until the next write (`RequestInv`).
-/

namespace ThinEdge.Boot

open Transition

/-- A call of `boot_request_set` or of `boot_request_clear`. -/
inductive RequestOp
  | set (target : BootRequestTarget) (reason : BootRequestReason)
  | clear
  deriving DecidableEq, Repr

/-- Where a call stands: the flash operation that comes next, or the return with its result. -/
inductive RequestPc
  | flatten (op : RequestOp)
  | write (target : BootRequestTarget) (reason : BootRequestReason)
  | ret (op : RequestOp) (ok : Bool)
  deriving DecidableEq, Repr

/-- How a flash operation ends. It happens entirely or not at all, and reports success only if it
happened. -/
inductive FlashResult
  | ok
  | happenedButFailed
  | failed
  deriving DecidableEq, Repr

/-- The operation took place. -/
def FlashResult.Happened (r : FlashResult) : Prop := r ≠ .failed

instance (r : FlashResult) : Decidable r.Happened := inferInstanceAs (Decidable (_ ≠ _))

/-- What a flatten leaves at the place of the record: bytes that differ from the magic. -/
def Flattened := {r : BootRequest // r.magic ≠ bootRequestMagic}

/-- The flash, the image that runs (none after a reset), and its call, when it is in one. -/
structure RequestState where
  bootreq : BootRequest
  /-- The content of `prov_partition`. -/
  prov : List UInt8
  running : Option HookResult
  call : Option RequestPc

/-- A device at its reset. -/
def RequestState.start (bootreq : BootRequest) (prov : List UInt8) : RequestState :=
  ⟨bootreq, prov, none, none⟩

/-- The steps, with what the flash answers. -/
inductive RequestAction
  | boot (flash : HookFlash)
  /-- The power is cut, or an image resets the device. -/
  | reset
  /-- `prov_partition` is written. -/
  | install (prov : List UInt8)
  /-- The image that runs calls, and `flash_area_open` answers. -/
  | call (op : RequestOp) (opened : Bool)
  | flatten (result : FlashResult) (left : Flattened)
  | write (result : FlashResult)
  | ret

/-- What follows the flatten of a call: a set that is not refused goes on to write. -/
def RequestOp.afterFlatten : RequestOp → FlashResult → RequestPc
  | .set target reason, .ok => .write target reason
  | op, result => .ret op (result = .ok)

/-- One step; `none` when it cannot be taken. -/
def requestStep (mcu : Mcuboot) (s : RequestState) : RequestAction → Option RequestState
  | .boot flash =>
    if s.running = none then
      some { s with running := some (bootGoHook mcu flash s.bootreq s.prov) }
    else none
  | .reset => some { s with running := none, call := none }
  | .install prov => some { s with prov := prov }
  | .call op opened =>
    if s.running ≠ none ∧ s.call = none then
      some { s with call := some (if opened then .flatten op else .ret op false) }
    else none
  | .flatten result left =>
    match s.call with
    | some (.flatten op) =>
      some { s with
        bootreq := if result.Happened then left.1 else s.bootreq
        call := some (op.afterFlatten result) }
    | _ => none
  | .write result =>
    match s.call with
    | some (.write target reason) =>
      some { s with
        bootreq := if result.Happened then .of target reason else s.bootreq
        call := some (.ret (.set target reason) (result = .ok)) }
    | _ => none
  | .ret =>
    match s.call with
    | some (.ret _ _) => some { s with call := none }
    | _ => none

/-- What an observer of the calls notes. -/
structure RequestNotes where
  /-- `boot_request_set` has returned 0, and no flatten has run since. -/
  armed : Bool
  /-- The flatten of a `boot_request_clear` has run, and no write since. -/
  cleared : Bool
  deriving DecidableEq, Repr

/-- The notes after a step. -/
def RequestNotes.next (n : RequestNotes) (s : RequestState) (a : RequestAction)
    (_ : RequestState) : RequestNotes :=
  match a, s.call with
  | .flatten result _, some (.flatten op) =>
    if result.Happened then ⟨false, n.cleared || op = .clear⟩ else n
  | .write result, some (.write _ _) => if result.Happened then { n with cleared := false } else n
  | .ret, some (.ret (.set .provisioner _) true) => { n with armed := true }
  | _, _ => n

/-- The steps under observation. -/
abbrev notedStep (mcu : Mcuboot) :
    RequestState × RequestNotes → RequestAction → Option (RequestState × RequestNotes) :=
  observed (requestStep mcu) fun s a t n ↦ n.next s a t

/-- Every boot from here does as it was asked. -/
structure BootsAsAsked (mcu : Mcuboot) (p : RequestState × RequestNotes) : Prop where
  launches : p.2.armed = true → ∀ flash : HookFlash, flash.Works → mcu.Accepts p.1.prov →
    bootGoHook mcu flash p.1.bootreq p.1.prov = .launch
  regular : p.2.cleared = true → ∀ flash : HookFlash,
    bootGoHook mcu flash p.1.bootreq p.1.prov = .regular
  exclusive : ¬ p.1.bootreq.Requested → ∀ flash : HookFlash,
    bootGoHook mcu flash p.1.bootreq p.1.prov = .regular

/-! ### The record -/

theorem bootGoHook_of_not_requested {mcu : Mcuboot} {flash : HookFlash} {req : BootRequest}
    {prov : List UInt8} (h : ¬ req.Requested) : bootGoHook mcu flash req prov = .regular := by
  rw [bootGoHook, provisionerRequested, decide_eq_false h, Bool.and_false, Bool.not_false,
    if_pos rfl]

/-- What the notes say of the record, and a set that is about to return 0. -/
structure RequestInv (p : RequestState × RequestNotes) : Prop where
  armed : p.2.armed = true → p.1.bootreq.Requested
  cleared : p.2.cleared = true → p.1.bootreq.magic ≠ bootRequestMagic
  returning : ∀ target reason, p.1.call = some (.ret (.set target reason) true) →
    p.1.bootreq.Requested

variable {mcu : Mcuboot} {s t : RequestState} {n : RequestNotes} {a : RequestAction}

theorem RequestInv.bootsAsAsked {p : RequestState × RequestNotes} (h : RequestInv p) :
    BootsAsAsked mcu p where
  launches harmed _ hflash hprov := bootGoHook_of_accepts hflash (h.armed harmed) hprov
  regular hcleared _ := bootGoHook_of_not_requested fun hreq ↦ h.cleared hcleared hreq.1
  exclusive hno _ := bootGoHook_of_not_requested hno

theorem requestInv_start (bootreq : BootRequest) (prov : List UInt8) :
    RequestInv (.start bootreq prov, ⟨false, false⟩) where
  armed := by simp
  cleared := by simp
  returning := by simp [RequestState.start]

/-- A set returns 0 only from its write. -/
theorem afterFlatten_ne {op : RequestOp} {result : FlashResult} {target : BootRequestTarget}
    {reason : BootRequestReason} :
    op.afterFlatten result ≠ .ret (.set target reason) true := by
  cases op <;> cases result <;> simp [RequestOp.afterFlatten]

theorem RequestInv.flatten (h : RequestInv (s, n)) {op : RequestOp} {result : FlashResult}
    {left : Flattened} (hcall : s.call = some (.flatten op))
    (hst : requestStep mcu s (.flatten result left) = some t) :
    RequestInv (t, n.next s (.flatten result left) t) := by
  simp only [requestStep, hcall, Option.some.injEq] at hst
  subst hst
  have hreturning : ∀ target reason,
      some (op.afterFlatten result) ≠ some (.ret (.set target reason) true) :=
    fun _ _ heq ↦ afterFlatten_ne (Option.some.inj heq)
  rcases Decidable.em result.Happened with hdone | hdone
  · refine ⟨?_, ?_, fun target reason heq ↦ absurd heq (hreturning target reason)⟩
    · simp [RequestNotes.next, hcall, hdone]
    · intro _
      show (if result.Happened then left.1 else s.bootreq).magic ≠ bootRequestMagic
      rw [if_pos hdone]
      exact left.2
  · refine ⟨?_, ?_, fun target reason heq ↦ absurd heq (hreturning target reason)⟩
    · simpa [RequestNotes.next, hcall, hdone] using h.armed
    · simpa [RequestNotes.next, hcall, hdone] using h.cleared

theorem RequestInv.write (h : RequestInv (s, n)) {target : BootRequestTarget}
    {reason : BootRequestReason} {result : FlashResult}
    (hcall : s.call = some (.write target reason))
    (hst : requestStep mcu s (.write result) = some t) :
    RequestInv (t, n.next s (.write result) t) := by
  simp only [requestStep, hcall, Option.some.injEq] at hst
  subst hst
  obtain rfl : target = .provisioner := by cases target; rfl
  rcases Decidable.em result.Happened with hdone | hdone
  · have hreq : ((if result.Happened then BootRequest.of .provisioner reason
        else s.bootreq) : BootRequest).Requested := by
      rw [if_pos hdone]
      exact requested_of reason
    refine ⟨fun _ ↦ hreq, ?_, fun _ _ _ ↦ hreq⟩
    simp [RequestNotes.next, hcall, hdone]
  · -- nothing was written, and the call does not return 0
    have hfailed : result ≠ .ok := by
      rintro rfl
      exact hdone (by decide)
    refine ⟨?_, ?_, ?_⟩
    · simpa [RequestNotes.next, hcall, hdone] using h.armed
    · simpa [RequestNotes.next, hcall, hdone] using h.cleared
    · simp [hfailed]

theorem RequestInv.ret (h : RequestInv (s, n)) {op : RequestOp} {ok : Bool}
    (hcall : s.call = some (.ret op ok)) (hst : requestStep mcu s .ret = some t) :
    RequestInv (t, n.next s .ret t) := by
  simp only [requestStep, hcall, Option.some.injEq] at hst
  subst hst
  refine ⟨?_, ?_, by simp⟩
  · intro harmed
    rcases op with ⟨target, reason⟩ | -
    · obtain rfl : target = .provisioner := by cases target; rfl
      cases ok
      · simp only [RequestNotes.next, hcall] at harmed
        exact h.armed harmed
      · exact h.returning _ _ hcall
    · simp only [RequestNotes.next, hcall] at harmed
      exact h.armed harmed
  · intro hcleared
    refine h.cleared ?_
    rcases op with ⟨target, reason⟩ | -
    · obtain rfl : target = .provisioner := by cases target; rfl
      cases ok
      · simpa only [RequestNotes.next, hcall] using hcleared
      · simpa only [RequestNotes.next, hcall] using hcleared
    · simpa only [RequestNotes.next, hcall] using hcleared

/-- **The step lemma.** -/
theorem RequestInv.step (h : RequestInv (s, n)) (hst : requestStep mcu s a = some t) :
    RequestInv (t, n.next s a t) := by
  cases a with
  | boot flash =>
    simp only [requestStep, Option.ite_none_right_eq_some, Option.some.injEq] at hst
    obtain ⟨-, rfl⟩ := hst
    exact ⟨h.armed, h.cleared, h.returning⟩
  | reset =>
    obtain rfl := Option.some.inj hst
    exact ⟨h.armed, h.cleared, by simp⟩
  | install prov =>
    obtain rfl := Option.some.inj hst
    exact ⟨h.armed, h.cleared, h.returning⟩
  | call op opened =>
    simp only [requestStep, Option.ite_none_right_eq_some, Option.some.injEq] at hst
    obtain ⟨-, rfl⟩ := hst
    refine ⟨h.armed, h.cleared, fun target reason hcall ↦ ?_⟩
    cases opened <;> simp at hcall
  | flatten result left =>
    -- each flash operation belongs to one place of the call
    rcases hcall : s.call with - | (op | _ | _)
    · simp [requestStep, hcall] at hst
    · exact h.flatten hcall hst
    · simp [requestStep, hcall] at hst
    · simp [requestStep, hcall] at hst
  | write result =>
    rcases hcall : s.call with - | (_ | ⟨target, reason⟩ | _)
    · simp [requestStep, hcall] at hst
    · simp [requestStep, hcall] at hst
    · exact h.write hcall hst
    · simp [requestStep, hcall] at hst
  | ret =>
    rcases hcall : s.call with - | (_ | _ | ⟨op, ok⟩)
    · simp [requestStep, hcall] at hst
    · simp [requestStep, hcall] at hst
    · simp [requestStep, hcall] at hst
    · exact h.ret hcall hst

/-- **The boot request is sticky and exclusive.** Whatever the flash holds at first, in every state
of every run of calls, writes to the provisioner's partition, resets and boots: once a set has
returned 0 a boot launches a provisioner that MCUboot accepts, until the next flatten has run; from
the flatten of a clear until the next write a boot takes MCUboot's regular path; and it does so
whenever the record does not hold both the magic and the provisioner's target. -/
theorem bootsAsAsked_throughout (mcu : Mcuboot) (bootreq : BootRequest) (prov : List UInt8)
    (as : List RequestAction) :
    Throughout (notedStep mcu) (BootsAsAsked mcu) (.start bootreq prov, ⟨false, false⟩) as := by
  refine (throughout_of_forall (fun p a q h hst ↦ ?_) (requestInv_start bootreq prov) as).imp
    fun _ h ↦ h.bootsAsAsked
  obtain ⟨s, n⟩ := p
  obtain ⟨t, m⟩ := q
  obtain ⟨hs, hm⟩ := observed_eq_some.1 hst
  dsimp only at hs hm
  subst hm
  exact h.step hs

/-- A set that returns 0 arms the device, and the flatten of a clear disarms it. -/
example (mcu : Mcuboot) (left : Flattened) :
    (exec (notedStep mcu) (⟨.erased, [], some .regular, none⟩, ⟨false, false⟩)
      [.call (.set .provisioner .operator) true, .flatten .ok left, .write .ok, .ret]).map
        Prod.snd = some ⟨true, false⟩ ∧
      (exec (notedStep mcu) (⟨.of .provisioner .operator, [], some .launch, none⟩, ⟨true, false⟩)
        [.call .clear true, .flatten .ok left]).map Prod.snd = some ⟨false, true⟩ :=
  ⟨rfl, rfl⟩

end ThinEdge.Boot
