import Mathlib.Logic.Function.Basic
import ThinEdge.Common.Liveness

/-!
# Diagnostics: stalled contexts

`app_diag_beat` and `check_stale` of `lib/common/diag.c`. A context stamps its beats with the low 32
bits of the uptime, and `beat_age_ms` takes a stamp that is larger than the reading for one that is
newer. That is so only while both lie in the same 2^32 milliseconds: `not_detectsStall_wrapped` is a
stall that goes on over the wrap and is not reported. `detectsStall_iff` is the exact range in which
the ages are right, and rests on `toNat_beatAgeMs`, the age in terms of the two uptimes.
-/

namespace ThinEdge.Common

/-! ### The code -/

/-- The build options. -/
structure DiagConfig where
  /-- `CONFIG_APP_DIAG_PERIOD_S`. -/
  periodS : ℕ
  periodS_range : 1 ≤ periodS ∧ periodS ≤ 3600

/-- `PERIOD_MS`. -/
def DiagConfig.periodMs (cfg : DiagConfig) : UInt32 := UInt32.ofNat cfg.periodS * 1000

/-- `STALE_MS`. -/
def DiagConfig.staleMs (cfg : DiagConfig) : UInt32 := 2 * cfg.periodMs

/-- `k_uptime_get_32`, by the uptime in milliseconds. -/
def uptimeGet32 (uptime : ℕ) : UInt32 := UInt32.ofNat uptime

/-- `app_diag_beat` at an uptime: `beat_ms`, where 0 stands for never. -/
def appDiagBeat (beatMs : AppCtx → UInt32) (ctx : AppCtx) (uptime : ℕ) : AppCtx → UInt32 :=
  Function.update beatMs ctx (uptimeGet32 uptime ||| 1)

/-- `beat_age_ms`. -/
def beatAgeMs (now b : UInt32) : UInt32 := if now < b then 0 else now - b

/-- What is logged. -/
inductive DiagLine
  /-- `STALE`, with the age in seconds. -/
  | stale (ctx : AppCtx) (age : UInt32)
  /-- `app_diag_dump_threads`. -/
  | threads
  /-- `RECOVERED`. -/
  | recovered (ctx : AppCtx)
  deriving DecidableEq, Repr

/-- The contexts, in the order of the loop. -/
def appCtxs : List AppCtx := [.sysWq, .netWq, .proto, .trap]

/-- The body of the loop of `check_stale`: what it logs, and `was_stale`. -/
def checkCtx (cfg : DiagConfig) (now b : UInt32) (wasStale : Bool) (c : AppCtx) :
    List DiagLine × Bool :=
  if b ≠ 0 ∧ cfg.staleMs < beatAgeMs now b then
    (.stale c (beatAgeMs now b / 1000) :: if wasStale then [] else [.threads], true)
  else (if wasStale then [.recovered c] else [], false)

/-- `check_stale`. -/
def checkStale (cfg : DiagConfig) (now : UInt32) (beatMs : AppCtx → UInt32)
    (wasStale : AppCtx → Bool) : List DiagLine × (AppCtx → Bool) :=
  (appCtxs.flatMap fun c ↦ (checkCtx cfg now (beatMs c) (wasStale c) c).1,
    fun c ↦ (checkCtx cfg now (beatMs c) (wasStale c) c).2)

/-- The context is among the lines as stale. -/
def Reported (c : AppCtx) (lines : List DiagLine) : Prop := ∃ age, .stale c age ∈ lines

/-! ### Ages -/

variable {cfg : DiagConfig} {now t : ℕ} {c : AppCtx}

theorem toNat_staleMs (cfg : DiagConfig) : cfg.staleMs.toNat = 2000 * cfg.periodS := by
  have := cfg.periodS_range
  rw [DiagConfig.staleMs, DiagConfig.periodMs, UInt32.toNat_mul, UInt32.toNat_mul,
    UInt32.toNat_ofNat']
  show 2 * (cfg.periodS % 4294967296 * 1000 % 4294967296) % 4294967296 = _
  omega

/-- The stamp of a beat: the low bits of the uptime, rounded up to an odd number. -/
theorem toNat_stamp (t : ℕ) : (uptimeGet32 t ||| 1).toNat = t % 4294967296 / 2 * 2 + 1 := by
  have hhigh : (t % 4294967296 ||| 1) / 2 = t % 4294967296 / 2 := by
    rw [Nat.or_div_two]
    exact Nat.or_zero _
  have hlow : (t % 4294967296 ||| 1) % 2 = 1 := Nat.or_mod_two_eq_one.2 (Or.inr rfl)
  rw [uptimeGet32, UInt32.toNat_or, UInt32.toNat_ofNat']
  show t % 4294967296 ||| 1 = _
  omega

theorem stamp_ne_zero (t : ℕ) : uptimeGet32 t ||| 1 ≠ 0 := by
  intro h
  have hzero := congrArg UInt32.toNat h
  rw [toNat_stamp] at hzero
  exact absurd hzero (Nat.succ_ne_zero _)

/-- The age of a beat, by the two uptimes. -/
theorem toNat_beatAgeMs (now t : ℕ) : (beatAgeMs (uptimeGet32 now) (uptimeGet32 t ||| 1)).toNat =
    now % 4294967296 - (t % 4294967296 / 2 * 2 + 1) := by
  have hnow : (uptimeGet32 now).toNat = now % 4294967296 := UInt32.toNat_ofNat'
  rw [beatAgeMs]
  split
  · next hlt =>
    rw [UInt32.lt_iff_toNat_lt, hnow, toNat_stamp] at hlt
    show 0 = _
    omega
  · next hge =>
    have hle : uptimeGet32 t ||| 1 ≤ uptimeGet32 now := UInt32.not_lt.1 hge
    rw [UInt32.toNat_sub_of_le _ _ hle, hnow, toNat_stamp]

/-- **What `check_stale` reports.** -/
theorem reported_checkStale {now : UInt32} {beatMs : AppCtx → UInt32} {wasStale : AppCtx → Bool} :
    Reported c (checkStale cfg now beatMs wasStale).1 ↔
      beatMs c ≠ 0 ∧ cfg.staleMs < beatAgeMs now (beatMs c) := by
  have hctx : ∀ c' age, DiagLine.stale c age ∈
      (checkCtx cfg now (beatMs c') (wasStale c') c').1 → c = c' ∧ beatMs c' ≠ 0 ∧
        cfg.staleMs < beatAgeMs now (beatMs c') := by
    intro c' age hmem
    rw [checkCtx] at hmem
    split at hmem
    · next h =>
      refine ⟨?_, h⟩
      rcases List.mem_cons.1 hmem with heq | hmem
      · exact (DiagLine.stale.inj heq).1
      · split at hmem <;> simp at hmem
    · split at hmem <;> simp at hmem
  constructor
  · rintro ⟨age, hmem⟩
    obtain ⟨c', -, hline⟩ := List.mem_flatMap.1 hmem
    obtain ⟨rfl, h⟩ := hctx c' age hline
    exact h
  · intro h
    refine ⟨beatAgeMs now (beatMs c) / 1000,
      List.mem_flatMap.2 ⟨c, by cases c <;> decide, ?_⟩⟩
    rw [checkCtx, if_pos h]
    exact List.mem_cons_self

/-! ### Stalls -/

/-- At an uptime, a check takes the right age for the context's beat at another one: the age in
between to a millisecond, and none for a beat that is newer. So it reports a context that has been
silent for longer than `STALE_MS`, and none that has not. -/
structure DetectsStall (cfg : DiagConfig) (beatMs : AppCtx → UInt32) (wasStale : AppCtx → Bool)
    (c : AppCtx) (t now : ℕ) : Prop where
  age : t ≤ now → now - t ≤ (beatAgeMs (uptimeGet32 now) (beatMs c)).toNat + 1 ∧
    (beatAgeMs (uptimeGet32 now) (beatMs c)).toNat ≤ now - t + 1
  newer : now < t → (beatAgeMs (uptimeGet32 now) (beatMs c)).toNat = 0
  reported : t + cfg.staleMs.toNat < now →
    Reported c (checkStale cfg (uptimeGet32 now) beatMs wasStale).1
  quiet : now ≤ t + (cfg.staleMs.toNat - 1) →
    ¬ Reported c (checkStale cfg (uptimeGet32 now) beatMs wasStale).1

/-- The uptimes lie in the same 2^32 milliseconds, unless the beat was a millisecond ago; and the
age is not the one that a stamp at an even millisecond hides, `STALE_MS` and one millisecond. -/
def Comparable (cfg : DiagConfig) (t now : ℕ) : Prop :=
  t / 4294967296 = now / 4294967296 ∧ ¬ (t % 2 = 0 ∧ now = t + cfg.staleMs.toNat + 1) ∨
    now = t + 1 ∧ now % 4294967296 = 0

/-- **Exactly when a stall is detected**, for a beat less than 2^31 milliseconds away. -/
theorem detectsStall_iff (cfg : DiagConfig) (beatMs : AppCtx → UInt32) (wasStale : AppCtx → Bool)
    (c : AppCtx) (hpast : now < t + 2147483648) (hfuture : t < now + 2147483648) :
    DetectsStall cfg (appDiagBeat beatMs c t) wasStale c t now ↔ Comparable cfg t now := by
  have hrange := cfg.periodS_range
  have hstamp : appDiagBeat beatMs c t c = uptimeGet32 t ||| 1 := Function.update_self ..
  have hage := toNat_beatAgeMs now t
  have hstale := toNat_staleMs cfg
  have hreported : Reported c (checkStale cfg (uptimeGet32 now) (appDiagBeat beatMs c t)
      wasStale).1 ↔ cfg.staleMs.toNat < now % 4294967296 - (t % 4294967296 / 2 * 2 + 1) := by
    rw [reported_checkStale, hstamp, UInt32.lt_iff_toNat_lt, hage]
    exact and_iff_right (stamp_ne_zero t)
  constructor
  · rintro ⟨hold, hnewer, hrep, hquiet⟩
    rw [hreported] at hrep hquiet
    rw [hstamp, hage] at hold hnewer
    rw [Comparable]
    omega
  · intro h
    rw [Comparable] at h
    refine ⟨?_, ?_, ?_, ?_⟩
    · rw [hstamp, hage]
      omega
    · rw [hstamp, hage]
      omega
    · rw [hreported]
      omega
    · rw [hreported]
      omega

/-- The default period. -/
def defaultDiag : DiagConfig := ⟨10, by decide⟩

theorem detectsStall_iff_default : DetectsStall defaultDiag (appDiagBeat (fun _ ↦ 0) .netWq 1000)
    (fun _ ↦ false) .netWq 1000 30000 ↔ Comparable defaultDiag 1000 30000 :=
  detectsStall_iff _ _ _ _ (by decide) (by decide)

/-- A context beats for the last time one second before the counter wraps, and 101 seconds later no
report is made. -/
theorem not_detectsStall_wrapped : ¬ DetectsStall defaultDiag
    (appDiagBeat (fun _ ↦ 0) .netWq 4294966296) (fun _ ↦ false) .netWq 4294966296 4295067296 := by
  intro h
  obtain ⟨-, hstale⟩ := reported_checkStale.1 (h.reported (by decide))
  revert hstale
  decide

end ThinEdge.Common
