import Mathlib.Data.Nat.Basic
import Mathlib.Data.Prod.Lex
import Mathlib.Order.Basic
import Mathlib.Tactic.IntervalCases

/-!
# The Gregorian calendar

The dates that exist from the year 0 on, each with the number of days before it, counted year by
year and month by month. Dates are in chronological order, `Date.number` is strictly monotone
(`Date.strictMono_number`), and `daysBeforeYear_eq` is the closed form of its main part.
-/

namespace Calendar

/-- A leap year. -/
def IsLeap (y : ℕ) : Prop := y % 4 = 0 ∧ (y % 100 ≠ 0 ∨ y % 400 = 0)

instance (y : ℕ) : Decidable (IsLeap y) := inferInstanceAs (Decidable (_ ∧ _))

/-- The length of a year. -/
def daysInYear (y : ℕ) : ℕ := if IsLeap y then 366 else 365

/-- The length of a month. -/
def daysInMonth (y m : ℕ) : ℕ :=
  if m = 2 then if IsLeap y then 29 else 28
  else if m = 4 ∨ m = 6 ∨ m = 9 ∨ m = 11 then 30
  else 31

/-- The days of the years before. -/
def daysBeforeYear : ℕ → ℕ
  | 0 => 0
  | y + 1 => daysBeforeYear y + daysInYear y

/-- The days of the months before, in the year. -/
def daysBeforeMonth (y : ℕ) : ℕ → ℕ
  | 0 => 0
  | 1 => 0
  | m + 2 => daysBeforeMonth y (m + 1) + daysInMonth y (m + 1)

/-- The number of days between 1 January of the year 0 and a day of a month. -/
def dayNumber (y m d : ℕ) : ℕ := daysBeforeYear y + daysBeforeMonth y m + (d - 1)

/-- A date that exists. -/
@[ext] structure Date where
  year : ℕ
  month : ℕ
  day : ℕ
  month_pos : 1 ≤ month
  month_le : month ≤ 12
  day_pos : 1 ≤ day
  day_le : day ≤ daysInMonth year month

namespace Date

/-- The number of days before the date. -/
def number (a : Date) : ℕ := dayNumber a.year a.month a.day

/-- Year, month and day in the order of their weight. -/
def key (a : Date) : ℕ ×ₗ ℕ ×ₗ ℕ := toLex (a.year, toLex (a.month, a.day))

theorem key_injective : Function.Injective key := by
  intro a b h
  obtain ⟨hy, hmd⟩ := Prod.mk.inj (toLex.injective h)
  obtain ⟨hm, hd⟩ := Prod.mk.inj (toLex.injective hmd)
  exact Date.ext hy hm hd

/-- Chronological order. -/
noncomputable instance : LinearOrder Date := LinearOrder.lift' key key_injective

theorem lt_iff {a b : Date} : a < b ↔ a.year < b.year ∨
    a.year = b.year ∧ (a.month < b.month ∨ a.month = b.month ∧ a.day < b.day) := by
  show a.key < b.key ↔ _
  simp only [key, Prod.Lex.toLex_lt_toLex]

end Date

theorem daysInMonth_le (y m : ℕ) : daysInMonth y m ≤ 31 := by
  rw [daysInMonth]
  split
  · split <;> decide
  · split <;> decide

/-! ### Counting days -/

/-- The multiples of `n` below `y + 1` are those below `y`, and `y` if it is one. -/
theorem add_div_succ {n : ℕ} (hn : 0 < n) (y : ℕ) :
    (y + 1 + (n - 1)) / n = (y + (n - 1)) / n + if y % n = 0 then 1 else 0 := by
  have hsucc : y + 1 + (n - 1) = y + (n - 1) + 1 := by omega
  have hself : y + (n - 1) + 1 = y + n := by omega
  have hdvd : n ∣ y + (n - 1) + 1 ↔ y % n = 0 := by
    rw [hself, Nat.dvd_add_self_right, Nat.dvd_iff_mod_eq_zero]
  rw [hsucc, Nat.succ_div]
  exact congrArg _ (if_congr hdvd rfl rfl)

/-- The length of a year, with a day for each rule. -/
theorem daysInYear_add (y : ℕ) : daysInYear y + (if y % 100 = 0 then 1 else 0) =
    365 + (if y % 4 = 0 then 1 else 0) + if y % 400 = 0 then 1 else 0 := by
  rw [daysInYear]
  rcases Decidable.em (y % 100 = 0) with h100 | h100
  · have h4 : y % 4 = 0 := by omega
    rcases Decidable.em (y % 400 = 0) with h400 | h400
    · simp [IsLeap, h4, h100, h400]
    · simp [IsLeap, h4, h100, h400]
  · have h400 : ¬ y % 400 = 0 := by omega
    rcases Decidable.em (y % 4 = 0) with h4 | h4
    · simp [IsLeap, h4, h100, h400]
    · simp [IsLeap, h4, h100, h400]

theorem daysBeforeYear_eq (y : ℕ) :
    daysBeforeYear y + (y + 99) / 100 = 365 * y + (y + 3) / 4 + (y + 399) / 400 := by
  induction y with
  | zero => rfl
  | succ y ih =>
    have h4 : (y + 1 + 3) / 4 = _ := add_div_succ (n := 4) (by decide) y
    have h100 : (y + 1 + 99) / 100 = _ := add_div_succ (n := 100) (by decide) y
    have h400 : (y + 1 + 399) / 400 = _ := add_div_succ (n := 400) (by decide) y
    have hdays := daysInYear_add y
    rw [daysBeforeYear, h4, h100, h400]
    dsimp only [Nat.reduceSub]
    omega

theorem monotone_daysBeforeYear : Monotone daysBeforeYear :=
  monotone_nat_of_le_succ fun _ ↦ Nat.le_add_right _ _

theorem monotone_daysBeforeMonth (y : ℕ) : Monotone (daysBeforeMonth y) :=
  monotone_nat_of_le_succ fun m ↦ by
    rcases m with - | m
    · exact Nat.le_refl _
    · exact Nat.le_add_right _ _

theorem daysBeforeMonth_succ (y : ℕ) {m : ℕ} (h : 1 ≤ m) :
    daysBeforeMonth y (m + 1) = daysBeforeMonth y m + daysInMonth y m := by
  rcases m with - | m
  · exact absurd h (by decide)
  · rfl

/-- Twelve months make a year. -/
theorem daysBeforeMonth_thirteen (y : ℕ) : daysBeforeMonth y 13 = daysInYear y := by
  rcases Decidable.em (IsLeap y) with h | h
  · simp [daysBeforeMonth, daysInMonth, daysInYear, h]
  · simp [daysBeforeMonth, daysInMonth, daysInYear, h]

/-- From March on the months follow one line. -/
theorem daysBeforeMonth_eq (y : ℕ) {m : ℕ} (hm : 1 ≤ m) (hm' : m ≤ 12) :
    daysBeforeMonth y m = if m ≤ 2 then 31 * (m - 1)
      else (153 * (m - 3) + 2) / 5 + 59 + if IsLeap y then 1 else 0 := by
  rcases Decidable.em (IsLeap y) with h | h
  · interval_cases m <;> simp [daysBeforeMonth, daysInMonth, h]
  · interval_cases m <;> simp [daysBeforeMonth, daysInMonth, h]

theorem Date.dayOfYear_lt (a : Date) :
    daysBeforeMonth a.year a.month + (a.day - 1) < daysInYear a.year := by
  have hday := a.day_le
  have hpos := a.day_pos
  have hmono := monotone_daysBeforeMonth a.year (show a.month + 1 ≤ 13 by
    have := a.month_le
    omega)
  rw [daysBeforeMonth_thirteen, daysBeforeMonth_succ _ a.month_pos] at hmono
  omega

/-- **Later dates have larger numbers.** -/
theorem Date.strictMono_number : StrictMono Date.number := by
  intro a b h
  rcases Date.lt_iff.1 h with hy | ⟨hy, hm | ⟨hm, hd⟩⟩
  · have hlast := a.dayOfYear_lt
    have hmono := monotone_daysBeforeYear (show a.year + 1 ≤ b.year from hy)
    rw [daysBeforeYear] at hmono
    simp only [number, dayNumber]
    omega
  · have hday := a.day_le
    have hpos := a.day_pos
    have hmono := monotone_daysBeforeMonth a.year (show a.month + 1 ≤ b.month from hm)
    rw [daysBeforeMonth_succ _ a.month_pos] at hmono
    simp only [number, dayNumber, ← hy]
    omega
  · have hpos := a.day_pos
    simp only [number, dayNumber, ← hy, ← hm]
    omega

/-! ### Times of day -/

/-- A time of day in UTC. A minute may have a leap second. -/
@[ext] structure Time where
  hour : ℕ
  minute : ℕ
  second : ℕ
  hour_le : hour ≤ 23
  minute_le : minute ≤ 59
  second_le : second ≤ 60

/-- The seconds since midnight. -/
def Time.seconds (t : Time) : ℕ := t.hour * 3600 + t.minute * 60 + t.second

/-- 1 January 1970. -/
def epoch : Date := ⟨1970, 1, 1, by decide, by decide, by decide, by decide⟩

/-- The seconds since the epoch, without leap seconds. -/
def instant (a : Date) (t : Time) : ℤ := ((a.number : ℤ) - epoch.number) * 86400 + t.seconds

theorem number_epoch : epoch.number = 719528 := by
  have h := daysBeforeYear_eq 1970
  have hmonth : daysBeforeMonth 1970 1 = 0 := rfl
  rw [Date.number, dayNumber]
  simp only [epoch, hmonth]
  omega

end Calendar
