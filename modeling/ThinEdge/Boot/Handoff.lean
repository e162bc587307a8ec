import ThinEdge.Boot.Request
import ThinEdge.Lib.Transition
import ThinEdge.Net.Credentials

/-!
# Handing over to the provisioner

The composed system of MCUboot's `boot_go_hook`, the application's start (`app_net_init` of
`lib/common/net.c` and `app_prov_handoff_no_credentials` of `lib/common/prov_handoff.c`), and the
flash they share, over any number of boots. Every flash access may fail, and the power may be cut
between any two of them.

The application tests less than MCUboot does before it reboots: it hands over to whatever starts
with the image magic. `handovers_le_one_iff` says for which contents of the flash this can make it
hand over again without the provisioner ever having run.
-/

namespace ThinEdge.Boot

open Transition Net

/-- Where the device stands. -/
inductive Pc
  /-- Reset: MCUboot is about to call `boot_go_hook`. -/
  | reset
  /-- The application runs and is about to resolve its credentials. -/
  | appInit
  /-- There are none: `request_provisioner` is about to look for a provisioner. -/
  | noCredentials
  /-- `boot_request_set` is about to open, erase and write the request's partition. -/
  | openRequest
  | flatten
  | write
  /-- The request is set: `reboot_now`. -/
  | rebootNow
  /-- The application goes on, with or without a network. -/
  | appRuns
  /-- The provisioner runs. -/
  | provRuns
  deriving DecidableEq, Repr

/-- The device: its flash, and where it stands. `handovers` counts the times the application has
rebooted to hand over since the provisioner was last launched. -/
structure Device where
  bootreq : BootRequest
  /-- The content of `prov_partition`. -/
  prov : List UInt8
  /-- Zephyr's credential store, in the storage partition. -/
  store : CredStore
  pc : Pc
  handovers : ℕ
  deriving DecidableEq, Repr

/-- The steps of the device, with what the flash answers. A failed erase or write may leave anything
in the request's partition. -/
inductive Action
  | bootGoHook (flash : HookFlash)
  | resolve
  | present (opened read : Bool)
  | openRequest (ok : Bool)
  | flatten (ok : Bool) (left : BootRequest)
  | write (ok : Bool) (left : BootRequest)
  | reboot
  /-- The power is cut, or something else resets the device. -/
  | powerCut
  /-- The provisioner resets the device; it may have changed the request and the credentials. -/
  | provisionerEnds (bootreq : BootRequest) (store : CredStore)
  deriving DecidableEq, Repr

/-- The record that `app_prov_handoff_no_credentials` sets. -/
def noCredentialsRequest : BootRequest := .of .provisioner .noCredentials

/-- One step of the device; `none` when it cannot be taken. -/
def step (mcu : Mcuboot) (cfg : WifiConfig) (d : Device) : Action → Option Device
  | .bootGoHook flash =>
    if d.pc = .reset then
      match bootGoHook mcu flash d.bootreq d.prov with
      | .regular => some { d with pc := .appInit }
      | .launch => some { d with pc := .provRuns, handovers := 0 }
    else none
  | .resolve =>
    if d.pc = .appInit then
      some { d with
        pc := if (appWifiCredsResolve cfg d.store).isSome then .appRuns else .noCredentials }
    else none
  | .present opened read =>
    if d.pc = .noCredentials then
      some { d with
        pc := if bootRequestProvisionerPresent opened read d.prov then .openRequest else .appRuns }
    else none
  | .openRequest ok =>
    if d.pc = .openRequest then some { d with pc := if ok then .flatten else .appRuns } else none
  | .flatten ok left =>
    if d.pc = .flatten then
      some (if ok then { d with pc := .write, bootreq := .erased }
        else { d with pc := .appRuns, bootreq := left })
    else none
  | .write ok left =>
    if d.pc = .write then
      some (if ok then { d with pc := .rebootNow, bootreq := noCredentialsRequest }
        else { d with pc := .appRuns, bootreq := left })
    else none
  | .reboot =>
    if d.pc = .rebootNow then some { d with pc := .reset, handovers := d.handovers + 1 } else none
  | .powerCut => some { d with pc := .reset }
  | .provisionerEnds bootreq store =>
    if d.pc = .provRuns then some { d with pc := .reset, bootreq, store } else none

/-- MCUboot's flash accesses succeed. -/
def HookFlashWorks (_ : Device) : Action → Prop
  | .bootGoHook flash => flash.Works
  | _ => True

instance (d : Device) : (a : Action) → Decidable (HookFlashWorks d a)
  | .bootGoHook flash => inferInstanceAs (Decidable flash.Works)
  | .resolve | .present .. | .openRequest _ | .flatten .. | .write .. | .reboot | .powerCut
  | .provisionerEnds .. => isTrue trivial

/-- A device about to boot. -/
def Device.start (bootreq : BootRequest) (prov : List UInt8) (store : CredStore) : Device :=
  ⟨bootreq, prov, store, .reset, 0⟩

/-- No boot loop: the application has not handed over twice without a launch of the provisioner. -/
def NoBootLoop (d : Device) : Prop := d.handovers ≤ 1

instance (d : Device) : Decidable (NoBootLoop d) := inferInstanceAs (Decidable (_ ≤ _))

/-- The flash contents that cannot loop: the credentials resolve, or the application finds no
provisioner, or MCUboot accepts the one there is. -/
def Settled (mcu : Mcuboot) (cfg : WifiConfig) (prov : List UInt8) (store : CredStore) : Prop :=
  (appWifiCredsResolve cfg store).isSome ∨ ¬ HasImageMagic prov ∨ mcu.Accepts prov

variable {mcu : Mcuboot} {cfg : WifiConfig} {d d' : Device} {a : Action}

/-! ### Settled contents -/

/-- What each place of the device entails. After a handover the device is at its reset, with the
request set and an image that MCUboot accepts. -/
structure HandoffInv (mcu : Mcuboot) (cfg : WifiConfig) (d : Device) : Prop where
  settled : Settled mcu cfg d.prov d.store
  handovers : d.handovers = 0 ∨
    d.handovers = 1 ∧ d.pc = .reset ∧ d.bootreq.Requested ∧ mcu.Accepts d.prov
  noCredentials : d.pc = .noCredentials → (appWifiCredsResolve cfg d.store).isSome = false
  accepts : d.pc = .openRequest ∨ d.pc = .flatten ∨ d.pc = .write ∨ d.pc = .rebootNow ∨
    d.pc = .provRuns → mcu.Accepts d.prov
  requested : d.pc = .rebootNow → d.bootreq.Requested

theorem HandoffInv.noBootLoop (h : HandoffInv mcu cfg d) : NoBootLoop d := by
  rw [NoBootLoop]
  rcases h.handovers with h | h <;> omega

/-- Away from its reset, the device has not handed over. -/
theorem HandoffInv.handovers_eq_zero (h : HandoffInv mcu cfg d) (hpc : d.pc ≠ .reset) :
    d.handovers = 0 := by
  rcases h.handovers with h | ⟨-, h, -⟩
  · exact h
  · exact absurd h hpc

theorem handoffInv_start {bootreq : BootRequest} {prov : List UInt8} {store : CredStore}
    (h : Settled mcu cfg prov store) : HandoffInv mcu cfg (.start bootreq prov store) where
  settled := h
  handovers := Or.inl rfl
  noCredentials := nofun
  accepts := by simp [Device.start]
  requested := nofun

/-- On its way to the handover, with the provisioner found, the application only goes on. -/
theorem HandoffInv.goOn {bootreq : BootRequest} {pc : Pc} (hinv : HandoffInv mcu cfg d)
    (hfound : d.pc = .openRequest ∨ d.pc = .flatten ∨ d.pc = .write)
    (hcreds : pc ≠ .noCredentials) (hreq : pc = .rebootNow → bootreq.Requested) :
    HandoffInv mcu cfg { d with bootreq := bootreq, pc := pc } := by
  have hzero : d.handovers = 0 :=
    hinv.handovers_eq_zero (by rcases hfound with h | h | h <;> simp [h])
  have hacc : mcu.Accepts d.prov := by
    refine hinv.accepts ?_
    rcases hfound with h | h | h
    · exact Or.inl h
    · exact Or.inr (Or.inl h)
    · exact Or.inr (Or.inr (Or.inl h))
  exact ⟨hinv.settled, Or.inl hzero, fun h ↦ absurd h hcreds, fun _ ↦ hacc, hreq⟩

/-- **The step lemma**: with MCUboot's flash accessible, a step keeps the invariant. -/
theorem HandoffInv.step (hinv : HandoffInv mcu cfg d) (hok : HookFlashWorks d a)
    (h : Boot.step mcu cfg d a = some d') : HandoffInv mcu cfg d' := by
  cases a with
  | bootGoHook flash =>
    simp only [Boot.step, Option.ite_none_right_eq_some] at h
    obtain ⟨hpc, h⟩ := h
    split at h <;> simp only [Option.some.injEq] at h <;> subst h
    · next hregular =>
      -- after a handover MCUboot would have launched the image
      have hzero : d.handovers = 0 := by
        rcases hinv.handovers with h | ⟨-, -, hreq, hacc⟩
        · exact h
        · rw [bootGoHook_of_accepts hok hreq hacc] at hregular
          exact nomatch hregular
      exact ⟨hinv.settled, Or.inl hzero, nofun, by simp, nofun⟩
    · next hlaunch =>
      exact ⟨hinv.settled, Or.inl rfl, nofun, fun _ ↦ accepts_of_bootGoHook hlaunch, nofun⟩
  | resolve =>
    simp only [Boot.step, Option.ite_none_right_eq_some, Option.some.injEq] at h
    obtain ⟨hpc, rfl⟩ := h
    have hzero := hinv.handovers_eq_zero (by simp [hpc])
    cases hres : (appWifiCredsResolve cfg d.store).isSome
    · exact ⟨hinv.settled, Or.inl hzero, fun _ ↦ hres, by simp, by simp⟩
    · exact ⟨hinv.settled, Or.inl hzero, by simp, by simp, by simp⟩
  | present opened read =>
    simp only [Boot.step, Option.ite_none_right_eq_some, Option.some.injEq] at h
    obtain ⟨hpc, rfl⟩ := h
    have hzero := hinv.handovers_eq_zero (by simp [hpc])
    cases hpresent : bootRequestProvisionerPresent opened read d.prov
    · exact ⟨hinv.settled, Or.inl hzero, by simp, by simp, by simp⟩
    · -- no credentials and a provisioner: the contents are settled only by MCUboot's acceptance
      have hacc : mcu.Accepts d.prov := by
        simp only [bootRequestProvisionerPresent, Bool.and_eq_true, decide_eq_true_eq] at hpresent
        rcases hinv.settled with hres | hno | hacc
        · simp [hinv.noCredentials hpc] at hres
        · exact absurd hpresent.2 hno
        · exact hacc
      exact ⟨hinv.settled, Or.inl hzero, by simp, fun _ ↦ hacc, by simp⟩
  | openRequest ok =>
    simp only [Boot.step, Option.ite_none_right_eq_some, Option.some.injEq] at h
    obtain ⟨hpc, rfl⟩ := h
    cases ok <;> exact hinv.goOn (Or.inl hpc) nofun nofun
  | flatten ok left =>
    simp only [Boot.step, Option.ite_none_right_eq_some, Option.some.injEq] at h
    obtain ⟨hpc, rfl⟩ := h
    cases ok <;> exact hinv.goOn (Or.inr (Or.inl hpc)) nofun nofun
  | write ok left =>
    simp only [Boot.step, Option.ite_none_right_eq_some, Option.some.injEq] at h
    obtain ⟨hpc, rfl⟩ := h
    cases ok
    · exact hinv.goOn (Or.inr (Or.inr hpc)) nofun nofun
    · exact hinv.goOn (Or.inr (Or.inr hpc)) nofun fun _ ↦ requested_of _
  | reboot =>
    simp only [Boot.step, Option.ite_none_right_eq_some, Option.some.injEq] at h
    obtain ⟨hpc, rfl⟩ := h
    have hzero := hinv.handovers_eq_zero (by simp [hpc])
    refine ⟨hinv.settled, Or.inr ⟨by rw [hzero], rfl, hinv.requested hpc, ?_⟩, nofun, by simp,
      nofun⟩
    exact hinv.accepts (by simp [hpc])
  | powerCut =>
    -- what is in flash stays as it is
    simp only [Boot.step, Option.some.injEq] at h
    subst h
    refine ⟨hinv.settled, ?_, nofun, by simp, nofun⟩
    rcases hinv.handovers with h | ⟨h, -, hrest⟩
    · exact Or.inl h
    · exact Or.inr ⟨h, rfl, hrest⟩
  | provisionerEnds bootreq store =>
    simp only [Boot.step, Option.ite_none_right_eq_some, Option.some.injEq] at h
    obtain ⟨hpc, rfl⟩ := h
    have hzero := hinv.handovers_eq_zero (by simp [hpc])
    have hacc := hinv.accepts (by simp [hpc])
    exact ⟨Or.inr (Or.inr hacc), Or.inl hzero, nofun, by simp, nofun⟩

/-! ### The boot loop -/

/-- Flash that answers every access of `boot_go_hook`. -/
def workingFlash : HookFlash := ⟨true, true, true, true, true⟩

theorem works_workingFlash : workingFlash.Works := by decide

/-- One boot that ends in a handover. -/
def handoverBoot : List Action :=
  [.bootGoHook workingFlash, .resolve, .present true true, .openRequest true,
    .flatten true .erased, .write true .erased, .reboot]

/-- Without credentials, with an image that only the application takes for a provisioner, one boot
ends in a handover and nothing else has changed. -/
theorem reaches_handover (hpc : d.pc = .reset)
    (hres : (appWifiCredsResolve cfg d.store).isSome = false) (hmagic : HasImageMagic d.prov)
    (hrefused : ¬ mcu.Accepts d.prov) :
    Reaches (step mcu cfg) HookFlashWorks d
      { d with bootreq := noCredentialsRequest, handovers := d.handovers + 1 } := by
  have hhook : bootGoHook mcu workingFlash d.bootreq d.prov = .regular :=
    bootGoHook_of_not_accepts hrefused
  have hpresent : bootRequestProvisionerPresent true true d.prov = true := by
    simp [bootRequestProvisionerPresent, hmagic]
  refine ⟨handoverBoot, ?_, ?_⟩
  · simp [handoverBoot, exec, step, hpc, hhook, hres, hpresent]
  · simp [handoverBoot, AllSteps, HookFlashWorks, step, hpc, hhook, hres, hpresent,
      works_workingFlash]

/-- **When the application and MCUboot can loop.** Whatever the request's partition holds, the
application never hands over a second time without the provisioner having been launched, in any run
in which MCUboot can access its flash, if and only if the credentials resolve, or the provisioner's
partition does not start with the image magic, or MCUboot accepts the image in it. -/
theorem handovers_le_one_iff (mcu : Mcuboot) (cfg : WifiConfig) (bootreq : BootRequest)
    (prov : List UInt8) (store : CredStore) :
    (∀ as, AllSteps (step mcu cfg) HookFlashWorks (.start bootreq prov store) as →
      Throughout (step mcu cfg) NoBootLoop (.start bootreq prov store) as) ↔
      (appWifiCredsResolve cfg store).isSome ∨ ¬ HasImageMagic prov ∨ mcu.Accepts prov := by
  constructor
  · intro hall
    by_contra hno
    simp only [not_or, not_not, Bool.not_eq_true] at hno
    obtain ⟨hres, hmagic, hrefused⟩ := hno
    have hfirst : Reaches (step mcu cfg) HookFlashWorks (.start bootreq prov store) _ :=
      reaches_handover rfl hres hmagic hrefused
    have hsecond := hfirst.trans (reaches_handover rfl hres hmagic hrefused)
    have htwo := hsecond.holds hall
    simp [NoBootLoop, Device.start] at htwo
  · intro hsettled as has
    exact (throughout_of_invariant (fun _ _ _ h hok hstep ↦ HandoffInv.step h hok hstep)
      (handoffInv_start hsettled) has).imp fun _ h ↦ h.noBootLoop

/-- MCUboot's tests on a device whose provisioner's signature does not verify. -/
def refusingMcuboot : Mcuboot where
  loadHeader prov := decide (HasImageMagic prov)
  imgValidate _ := false

/-- A fresh device, with no request and no credentials, whose provisioner partition holds the image
magic and nothing valid. The second boot repeats the first: MCUboot refuses the image and boots the
application, which finds the same image again and hands over. -/
theorem not_noBootLoop_freshDevice :
    ¬ ∀ (bootreq : BootRequest) (prov : List UInt8) (store : CredStore) (as : List Action),
      AllSteps (step refusingMcuboot ⟨true, none⟩) HookFlashWorks (.start bootreq prov store) as →
      Throughout (step refusingMcuboot ⟨true, none⟩) NoBootLoop (.start bootreq prov store) as := by
  intro h
  exact absurd (h .erased [0x3d, 0xb8, 0xf3, 0x96] [] (handoverBoot ++ handoverBoot) (by decide))
    (by decide)

end ThinEdge.Boot
