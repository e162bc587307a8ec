import Mathlib.Data.Int.Notation
import ThinEdge.Lib.ShiftXor

/-!
# The reset record

The record of `lib/common/liveness.c` that survives a reset and tells the next boot what has
stalled: its check word, `channel_expired` and `liveness_init`, up to where that arms the watchdog.

`rec_check` takes the words of the record together and then shifts them sixteen times, by one bit
for each byte of the step. What stood in the upper half of `boots` or `uptime_s`, or above the low
byte of `ctx`, is shifted out: `not_detected_ctx` damages such a bit, and the next boot reports a
stall. `detected_iff` says which bits these are.
-/

namespace ThinEdge.Common

/-! ### The record -/

/-- `struct reset_record`. -/
structure ResetRecord where
  magic : BitVec 32
  /-- Boots since the record was last initialised. -/
  boots : BitVec 32
  /-- The stalled context, or `REC_NONE`. -/
  ctx : BitVec 32
  /-- The uptime at the stall. -/
  uptimeS : BitVec 32
  /-- What the context was doing. -/
  step : Vector (BitVec 8) 16
  check : BitVec 32
  deriving DecidableEq, Repr

/-- `REC_MAGIC`. -/
def recMagic : BitVec 32 := 0x4C495645#32

/-- `REC_NONE`. -/
def recNone : BitVec 32 := 0xFF#32

/-- The words of a record taken together, before the step is taken in. -/
def ResetRecord.start (r : ResetRecord) : BitVec 32 :=
  r.magic ^^^ r.boots ^^^ (r.ctx <<< 8) ^^^ r.uptimeS

/-- `rec_check`. -/
def recCheck (r : ResetRecord) : BitVec 32 :=
  ~~~ shiftXor r.start (r.step.toList.map (BitVec.setWidth 32))

/-- `rec_seal`. -/
def recSeal (r : ResetRecord) : ResetRecord := { r with check := recCheck r }

/-- A text as C reads it. -/
def stepText (step : Vector (BitVec 8) 16) : String :=
  String.ofList ((step.toList.takeWhile (· != 0#8)).map fun c ↦ Char.ofNat c.toNat)

/-- `app_ctx_name`. -/
def appCtxName (ctx : BitVec 32) : String :=
  ["wq", "netwq", "proto", "trap"].getD ctx.toNat "?"

/-- `strncpy` of a step into the record, which it fills up with zeros, and its last byte. -/
def copyStep (what : List (BitVec 8)) : Vector (BitVec 8) 16 :=
  Vector.ofFn fun i ↦ if i.val < 15 then (what.takeWhile (· != 0#8)).getD i.val 0#8 else 0#8

/-- `channel_expired`, up to where it wakes the reaper, given the uptime and what the context is
doing. -/
def channelExpired (ctx uptimeS : BitVec 32) (what : List (BitVec 8)) (r : ResetRecord) :
    ResetRecord :=
  recSeal { r with ctx := ctx, uptimeS := uptimeS, step := copyStep what }

/-! ### The next boot -/

/-- `RESET_PIN`, `RESET_SOFTWARE`, `RESET_BROWNOUT`, `RESET_POR`, `RESET_WATCHDOG` and
`RESET_CPU_LOCKUP`. -/
inductive ResetFlag
  | pin
  | software
  | brownout
  | por
  | watchdog
  | cpuLockup
  deriving DecidableEq, Repr

/-- The bit of a flag in the cause of a reset. -/
def ResetFlag.bit : ResetFlag → ℕ
  | .pin => 0
  | .software => 1
  | .brownout => 2
  | .por => 3
  | .watchdog => 4
  | .cpuLockup => 8

/-- A flag is set. -/
def hasFlag (cause : BitVec 32) (f : ResetFlag) : Bool := cause.getLsbD f.bit

/-- `cause_str`. -/
def causeStr (cause : BitVec 32) : String :=
  if hasFlag cause .por then "power-on"
  else if hasFlag cause .brownout then "brownout"
  else if hasFlag cause .watchdog then "watchdog"
  else if hasFlag cause .cpuLockup then "panic"
  else if hasFlag cause .software then "software"
  else if hasFlag cause .pin then "pin"
  else "other"

/-- What `liveness_init` takes for a valid record. -/
def recValid (cause : BitVec 32) (r : ResetRecord) : Bool :=
  r.magic == recMagic && r.check == recCheck r && !hasFlag cause .por

/-- What `liveness_init` leaves and says. -/
structure BootReport where
  record : ResetRecord
  /-- The messages it logs about the reset. -/
  log : List String
  /-- `boot_line`, up to `boot_line_count`. -/
  bootLines : List String
  deriving DecidableEq, Repr

/-- A line of `boot_line`, which has room for 16 characters. -/
def bootLine (s : String) : String := String.ofList (s.toList.take 16)

/-- `liveness_init` with a record that it finds valid or has initialised. -/
def reportBoot (cause : BitVec 32) (espReason : ℤ) (r : ResetRecord) : BootReport :=
  let boots := (r.boots + 1).toNat
  let name := appCtxName r.ctx
  let step := stepText r.step
  let uptime := r.uptimeS.toNat
  let hex := String.ofList (Nat.toDigits 16 cause.toNat)
  let shown := causeStr cause
  let line := if hasFlag cause .watchdog then "hw-wdt" else shown
  let short := String.ofList (step.toList.take 6)
  let stalled := r.ctx ≠ recNone
  { record := recSeal { r with
      boots := r.boots + 1, ctx := recNone, uptimeS := 0, step := Vector.replicate 16 0#8 }
    log :=
      (if stalled then
        [s!"LIVENESS RESET: context {name} stalled in step '{step}' " ++
          s!"at uptime {uptime} s (boot {boots})"]
      else if hasFlag cause .watchdog then
        ["hardware watchdog reset: no liveness record, the task " ++
          s!"watchdog never ran (boot {boots})"]
      else []) ++
      [s!"reset cause 0x{hex} ({shown}) esp_reason {espReason} boot {boots}"]
    bootLines :=
      [bootLine s!"BOOT b{boots} r{espReason}", bootLine s!"CAUSE {line}"] ++
      if stalled then [bootLine s!"STALL {name} {short}"] else [] }

/-- `liveness_init`, up to where it arms the watchdog, given the cause of the reset and the SoC's
own reason for it. -/
def livenessInit (cause : BitVec 32) (espReason : ℤ) (r : ResetRecord) : BootReport :=
  if recValid cause r then reportBoot cause espReason r
  else
    reportBoot cause espReason { r with
      magic := recMagic, boots := 0, ctx := recNone, uptimeS := 0, step := r.step.set 0 0#8 }

/-- A record that is left for the next boot is sealed, and the next boot reports the stall that it
names. -/
structure LeavesSealed (r : ResetRecord) : Prop where
  booted : ∀ cause espReason, (livenessInit cause espReason r).record.check =
    recCheck (livenessInit cause espReason r).record
  expired : ∀ ctx uptimeS what, (channelExpired ctx uptimeS what r).check =
    recCheck (channelExpired ctx uptimeS what r)
  reported : r.magic = recMagic → ∀ ctx, ctx ≠ recNone → ∀ uptimeS what cause espReason,
    hasFlag cause .por = false →
    (livenessInit cause espReason (channelExpired ctx uptimeS what r)).bootLines.length = 3

section Sealed

variable {r : ResetRecord} {cause : BitVec 32} {espReason : ℤ}

theorem check_recSeal : (recSeal r).check = recCheck (recSeal r) := rfl

theorem check_livenessInit : (livenessInit cause espReason r).record.check =
    recCheck (livenessInit cause espReason r).record := by
  rw [livenessInit]
  split <;> exact check_recSeal

/-- A stall is reported by the next boot. -/
theorem livenessInit_channelExpired {ctx uptimeS : BitVec 32} {what : List (BitVec 8)}
    (hmagic : r.magic = recMagic) (hctx : ctx ≠ recNone) (hpor : hasFlag cause .por = false) :
    (livenessInit cause espReason (channelExpired ctx uptimeS what r)).bootLines.length = 3 := by
  have hvalid : recValid cause (channelExpired ctx uptimeS what r) = true := by
    rw [recValid, channelExpired, check_recSeal, hpor]
    simp [recSeal, hmagic]
  have hstalled : (channelExpired ctx uptimeS what r).ctx ≠ recNone := hctx
  rw [livenessInit, if_pos hvalid, reportBoot]
  simp [hstalled]

theorem leavesSealed (r : ResetRecord) : LeavesSealed r where
  booted := fun _ _ ↦ check_livenessInit
  expired := fun _ _ _ ↦ check_recSeal
  reported := fun hmagic _ hctx _ _ _ _ hpor ↦ livenessInit_channelExpired hmagic hctx hpor

end Sealed

/-! ### Damage -/

/-- A bit of a record. -/
inductive RecordBit
  | boots (i : Fin 32)
  | ctx (i : Fin 32)
  | uptimeS (i : Fin 32)
  | step (k : Fin 16) (i : Fin 8)
  deriving DecidableEq, Repr

/-- The record with the bit flipped. -/
def RecordBit.flip (r : ResetRecord) : RecordBit → ResetRecord
  | .boots i => { r with boots := r.boots ^^^ BitVec.twoPow 32 i }
  | .ctx i => { r with ctx := r.ctx ^^^ BitVec.twoPow 32 i }
  | .uptimeS i => { r with uptimeS := r.uptimeS ^^^ BitVec.twoPow 32 i }
  | .step k i => { r with step := r.step.set k (r.step[k] ^^^ BitVec.twoPow 8 i) }

/-- The bit stays in the check word until all of the step has been taken in. -/
def RecordBit.Covered : RecordBit → Prop
  | .boots i | .uptimeS i => i.val < 16
  | .ctx i => i.val < 8
  | .step _ _ => True

instance : DecidablePred RecordBit.Covered
  | .boots i | .uptimeS i => inferInstanceAs (Decidable (i.val < 16))
  | .ctx i => inferInstanceAs (Decidable (i.val < 8))
  | .step _ _ => inferInstanceAs (Decidable True)

/-- No record: memory that says nothing. -/
def ResetRecord.blank : ResetRecord := ⟨0, 0, 0, 0, Vector.replicate 16 0#8, 0⟩

/-- Damage to the bit is detected: the check word changes, and if the record was sealed before, the
next boot takes it for no record at all and reports no stall. -/
structure Detected (r : ResetRecord) (d : RecordBit) : Prop where
  check : recCheck (d.flip r) ≠ recCheck r
  ignored : r.check = recCheck r → ∀ cause espReason,
    recValid cause (d.flip r) = false ∧
      livenessInit cause espReason (d.flip r) = livenessInit cause espReason .blank ∧
      (livenessInit cause espReason (d.flip r)).bootLines.length = 2

section Damage

variable {r : ResetRecord} {d : RecordBit} {cause : BitVec 32} {espReason : ℤ}

/-- Without a stalled context only the magic number and the boots matter. -/
theorem reportBoot_of_recNone {r' : ResetRecord} (h : r.ctx = recNone) (h' : r'.ctx = recNone)
    (hmagic : r.magic = r'.magic) (hboots : r.boots = r'.boots) :
    reportBoot cause espReason r = reportBoot cause espReason r' ∧
      (reportBoot cause espReason r).bootLines.length = 2 := by
  simp only [reportBoot, recSeal, recCheck, ResetRecord.start, h, h', hmagic, hboots, ne_eq,
    not_true_eq_false, if_false, List.append_nil, List.length_cons, List.length_nil, true_and]

/-- A record that is not valid is as good as none, and reports no stall. -/
theorem livenessInit_of_not_valid (h : recValid cause r = false) :
    livenessInit cause espReason r = livenessInit cause espReason .blank ∧
      (livenessInit cause espReason r).bootLines.length = 2 := by
  have hblank : recValid cause .blank = false := by
    have hmagic : (ResetRecord.blank.magic == recMagic) = false := by decide
    rw [recValid, hmagic, Bool.false_and, Bool.false_and]
  rw [livenessInit, livenessInit, h, hblank, if_neg Bool.false_ne_true, if_neg Bool.false_ne_true]
  exact reportBoot_of_recNone rfl rfl rfl rfl

/-- A difference in the words that is a single bit, when nothing else differs. -/
theorem recCheck_eq_iff_of_start {r' : ResetRecord} (hstep : r'.step = r.step) {k : ℕ}
    (h : r'.start = r.start ^^^ BitVec.twoPow 32 k) : recCheck r' = recCheck r ↔ 16 ≤ k := by
  have hlength : (r.step.toList.map (BitVec.setWidth 32)).length = 16 := by simp
  rw [recCheck, recCheck, BitVec.not_inj, h, hstep, shiftXor_flip_eq_iff, hlength]
  omega

/-- The words of a step around one of its bytes. -/
theorem stepWords_set (k : Fin 16) (c : BitVec 8) :
    (r.step.set k c).toList.map (BitVec.setWidth 32) =
      (r.step.toList.take k).map (BitVec.setWidth 32) ++
        c.setWidth 32 :: (r.step.toList.drop (k + 1)).map (BitVec.setWidth 32) := by
  have hk : k.val < r.step.toList.length := by simp
  rw [Vector.toList_set, List.set_eq_take_append_cons_drop, if_pos hk, List.map_append,
    List.map_cons]

theorem stepWords_get (k : Fin 16) :
    r.step.toList.map (BitVec.setWidth 32) =
      (r.step.toList.take k).map (BitVec.setWidth 32) ++
        r.step[k].setWidth 32 :: (r.step.toList.drop (k + 1)).map (BitVec.setWidth 32) := by
  rw [← stepWords_set, Fin.getElem_fin, Vector.set_getElem_self]

/-- A bit of the step is never shifted out: fewer than sixteen bytes stand behind it. -/
theorem recCheck_flip_step_ne (k : Fin 16) (i : Fin 8) :
    recCheck ((RecordBit.step k i).flip r) ≠ recCheck r := by
  have hstart : ((RecordBit.step k i).flip r).start = r.start := rfl
  have hbit : (r.step[k] ^^^ BitVec.twoPow 8 i).setWidth 32 =
      r.step[k].setWidth 32 ^^^ BitVec.twoPow 32 i := by
    rw [BitVec.setWidth_xor, setWidth_twoPow i.isLt (by decide)]
  have hstep : ((RecordBit.step k i).flip r).step.toList.map (BitVec.setWidth 32) =
      (r.step.toList.take k).map (BitVec.setWidth 32) ++
        (r.step[k].setWidth 32 ^^^ BitVec.twoPow 32 i) ::
          (r.step.toList.drop (k + 1)).map (BitVec.setWidth 32) := by
    rw [RecordBit.flip, stepWords_set, hbit]
  have hbehind : ((r.step.toList.drop (k + 1)).map (BitVec.setWidth 32)).length < 16 := by
    simp
    omega
  intro h
  rw [recCheck, recCheck, BitVec.not_inj, hstart, hstep, stepWords_get k,
    shiftXor_flip_mid_eq_iff] at h
  omega

/-- The check word sees the bits that it covers. -/
theorem recCheck_flip_ne_iff : recCheck (d.flip r) ≠ recCheck r ↔ d.Covered := by
  cases d with
  | boots i =>
    have hstep : ((RecordBit.boots i).flip r).step = r.step := rfl
    have hstart : ((RecordBit.boots i).flip r).start = r.start ^^^ BitVec.twoPow 32 i := by
      dsimp only [RecordBit.flip, ResetRecord.start]
      ac_rfl
    exact (not_congr (recCheck_eq_iff_of_start hstep hstart)).trans Nat.not_le
  | ctx i =>
    have hstep : ((RecordBit.ctx i).flip r).step = r.step := rfl
    have hstart : ((RecordBit.ctx i).flip r).start = r.start ^^^ BitVec.twoPow 32 (i + 8) := by
      dsimp only [RecordBit.flip, ResetRecord.start]
      rw [BitVec.shiftLeft_xor_distrib, shiftLeft_twoPow]
      ac_rfl
    refine (not_congr (recCheck_eq_iff_of_start hstep hstart)).trans ?_
    show ¬ 16 ≤ i.val + 8 ↔ i.val < 8
    omega
  | uptimeS i =>
    have hstep : ((RecordBit.uptimeS i).flip r).step = r.step := rfl
    have hstart : ((RecordBit.uptimeS i).flip r).start = r.start ^^^ BitVec.twoPow 32 i := by
      dsimp only [RecordBit.flip, ResetRecord.start]
      ac_rfl
    exact (not_congr (recCheck_eq_iff_of_start hstep hstart)).trans Nat.not_le
  | step k i => exact iff_of_true (recCheck_flip_step_ne k i) trivial

/-- The check word that a record carries is not damaged with it. -/
theorem check_flip : (d.flip r).check = r.check := by cases d <;> rfl

end Damage

/-- **What the check word detects**: a bit in the lower half of `boots` or `uptime_s`, in the low
byte of `ctx`, or anywhere in the step. The records that the code leaves are sealed. -/
theorem detected_iff (r : ResetRecord) (d : RecordBit) :
    (Detected r d ↔ d.Covered) ∧ LeavesSealed r := by
  refine ⟨⟨fun h ↦ recCheck_flip_ne_iff.1 h.check, fun h ↦ ?_⟩, leavesSealed r⟩
  have hcheck : recCheck (d.flip r) ≠ recCheck r := recCheck_flip_ne_iff.2 h
  refine ⟨hcheck, fun hseal cause espReason ↦ ?_⟩
  have hvalid : recValid cause (d.flip r) = false := by
    have hne : (d.flip r).check ≠ recCheck (d.flip r) := by
      rw [check_flip, hseal]
      exact hcheck.symm
    simp [recValid, hne]
  exact ⟨hvalid, livenessInit_of_not_valid hvalid⟩

/-- **A stall that did not happen.** The record that a first boot leaves, with bit 8 of its context
flipped, and a reset of no particular cause. -/
theorem not_detected_ctx :
    ¬ Detected (livenessInit 0#32 (-1) .blank).record (.ctx 8) ∧
      (livenessInit 0#32 (-1) (RecordBit.flip (livenessInit 0#32 (-1) .blank).record
        (.ctx 8))).bootLines = ["BOOT b2 r-1", "CAUSE other", "STALL ? "] := by
  refine ⟨fun h ↦ h.check ?_, ?_⟩ <;> decide

end ThinEdge.Common
