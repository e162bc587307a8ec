import Mathlib.Data.Int.Notation

/-!
# The boot request

The record in `bootreq_partition` that tells MCUboot which image to launch
(`lib/common/boot_request.h`), the tests the application makes of it and of the provisioner's
partition (`lib/common/boot_request.c`), and MCUboot's `boot_go_hook`
(`lib/mcuboot-hooks/prov_hooks.c`).

The application takes the provisioner for present when its partition starts with the image magic;
MCUboot launches it only when it can read and validate the whole image. `Mcuboot` holds the two
tests of MCUboot's own library, which look at the partition's content alone.
-/

namespace ThinEdge.Boot

/-- `enum boot_request_target`. -/
inductive BootRequestTarget
  | provisioner
  deriving DecidableEq, Repr

/-- `enum boot_request_reason`. -/
inductive BootRequestReason
  | noCredentials
  | operator
  deriving DecidableEq, Repr

/-- The target's value in the record. -/
def BootRequestTarget.toUInt32 : BootRequestTarget → UInt32
  | .provisioner => 1

/-- The reason's value in the record. -/
def BootRequestReason.toUInt32 : BootRequestReason → UInt32
  | .noCredentials => 1
  | .operator => 2

/-- `BOOT_REQUEST_MAGIC`. -/
def bootRequestMagic : UInt32 := 0x564f5250

/-- `IMAGE_MAGIC`: the first word of an MCUboot image. -/
def imageMagic : UInt32 := 0x96f3b83d

/-- `struct boot_request`: the first four words of `bootreq_partition`. -/
structure BootRequest where
  magic : UInt32
  target : UInt32
  reason : UInt32
  reserved : UInt32
  deriving DecidableEq, Repr

/-- Erased flash. -/
def BootRequest.erased : BootRequest := ⟨0xffffffff, 0xffffffff, 0xffffffff, 0xffffffff⟩

/-- The record `boot_request_set` writes. -/
def BootRequest.of (target : BootRequestTarget) (reason : BootRequestReason) : BootRequest :=
  ⟨bootRequestMagic, target.toUInt32, reason.toUInt32, 0⟩

/-- The word at the start of a partition; flash is little-endian. -/
def firstWord (content : List UInt8) : Option UInt32 :=
  match content with
  | a :: b :: c :: d :: _ =>
    some (a.toUInt32 ||| b.toUInt32 <<< 8 ||| c.toUInt32 <<< 16 ||| d.toUInt32 <<< 24)
  | _ => none

/-- The partition starts with the image magic. -/
def HasImageMagic (prov : List UInt8) : Prop := firstWord prov = some imageMagic

instance (prov : List UInt8) : Decidable (HasImageMagic prov) :=
  inferInstanceAs (Decidable (_ = _))

/-- `boot_request_provisioner_present`, given whether the partition could be opened and read. -/
def bootRequestProvisionerPresent (opened read : Bool) (prov : List UInt8) : Bool :=
  opened && read && decide (HasImageMagic prov)

/-- MCUboot's tests of an image: `boot_image_load_header` and `bootutil_img_validate`. -/
structure Mcuboot where
  loadHeader : List UInt8 → Bool
  imgValidate : List UInt8 → Bool

/-- Whether each flash access of `boot_go_hook` succeeds. -/
structure HookFlash where
  openBootreq : Bool
  readBootreq : Bool
  openProv : Bool
  readHeader : Bool
  slotLayout : Bool
  deriving DecidableEq, Repr

/-- Every access succeeds. -/
def HookFlash.Works (flash : HookFlash) : Prop :=
  flash.openBootreq ∧ flash.readBootreq ∧ flash.openProv ∧ flash.readHeader ∧ flash.slotLayout

instance (flash : HookFlash) : Decidable flash.Works := inferInstanceAs (Decidable (_ ∧ _))

/-- What `boot_go_hook` returns: boot the application as usual, or launch the provisioner. -/
inductive HookResult
  | regular
  | launch
  deriving DecidableEq, Repr

/-- The record asks for the provisioner. -/
def BootRequest.Requested (req : BootRequest) : Prop :=
  req.magic = bootRequestMagic ∧ req.target = BootRequestTarget.provisioner.toUInt32

instance (req : BootRequest) : Decidable req.Requested := inferInstanceAs (Decidable (_ ∧ _))

/-- `provisioner_requested`. -/
def provisionerRequested (flash : HookFlash) (req : BootRequest) : Bool :=
  flash.openBootreq && flash.readBootreq && decide req.Requested

/-- MCUboot takes the image for a valid provisioner. -/
def Mcuboot.Accepts (mcu : Mcuboot) (prov : List UInt8) : Prop :=
  mcu.loadHeader prov ∧ mcu.imgValidate prov

instance (mcu : Mcuboot) (prov : List UInt8) : Decidable (mcu.Accepts prov) :=
  inferInstanceAs (Decidable (_ ∧ _))

/-- `boot_go_hook`. -/
def bootGoHook (mcu : Mcuboot) (flash : HookFlash) (req : BootRequest) (prov : List UInt8) :
    HookResult :=
  if !provisionerRequested flash req then .regular
  else if !flash.openProv then .regular
  else if !(flash.readHeader && mcu.loadHeader prov) then .regular
  else if !flash.slotLayout then .regular
  else if !mcu.imgValidate prov then .regular
  else .launch

variable {mcu : Mcuboot} {flash : HookFlash} {req : BootRequest} {prov : List UInt8}

theorem requested_of (reason : BootRequestReason) :
    (BootRequest.of .provisioner reason).Requested := ⟨rfl, rfl⟩

/-- A launched image is one MCUboot accepts. -/
theorem accepts_of_bootGoHook (h : bootGoHook mcu flash req prov = .launch) :
    mcu.Accepts prov := by
  rw [bootGoHook] at h
  split at h <;> try contradiction
  split at h <;> try contradiction
  split at h <;> try contradiction
  next hheader =>
  split at h <;> try contradiction
  split at h <;> try contradiction
  next hvalid =>
  simp only [Bool.not_eq_true', Bool.and_eq_false_iff, not_or, Bool.not_eq_false] at hheader hvalid
  exact ⟨hheader.2, hvalid⟩

/-- With its flash accessible, MCUboot launches a requested image that it accepts. -/
theorem bootGoHook_of_accepts (hflash : flash.Works) (hreq : req.Requested)
    (hprov : mcu.Accepts prov) : bootGoHook mcu flash req prov = .launch := by
  obtain ⟨hopen, hread, hprovOpen, hheader, hlayout⟩ := hflash
  obtain ⟨hload, hvalid⟩ := hprov
  simp [bootGoHook, provisionerRequested, hopen, hread, hprovOpen, hheader, hlayout, hload, hvalid,
    hreq]

theorem bootGoHook_of_not_accepts (hprov : ¬ mcu.Accepts prov) :
    bootGoHook mcu flash req prov = .regular := by
  rcases h : bootGoHook mcu flash req prov with - | -
  · rfl
  · exact absurd (accepts_of_bootGoHook h) hprov

end ThinEdge.Boot
