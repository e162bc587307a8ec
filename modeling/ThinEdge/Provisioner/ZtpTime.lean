import ThinEdge.Lib.Calendar
import ThinEdge.Lib.Decimal
import ThinEdge.Provisioner.ZtpManifest

/-!
# Times in RFC 3339

`ztp_format_rfc3339` and `ztp_parse_rfc3339` against the calendar. The arithmetic on days is
`daysFromCivil_eq`, which says that `days_from_civil` counts the days of `ThinEdge.Lib.Calendar`,
and `civilFromDays_spec`, which says that its inverse finds a date that exists;
`ztpParseRfc3339_eq_some` says which texts the parser takes.

`rfc3339_roundTrip` is the round trip between times and texts, in the order of both. As a check of
its input the parser is weaker than its own description: it takes the 31st of any month, and
anything at all between the point after the seconds and the last letter.
`parsesExactly_iff` says that these are the only two.
-/

namespace ThinEdge.Provisioner

open Bytes Calendar Decimal

/-- The date of `ztp_format_rfc3339`, the inverse of `days_from_civil`: year, month and day. -/
def civilFromDays (days : ℤ) : ℤ × ℕ × ℕ :=
  let z := days + 719468
  let era := (if 0 ≤ z then z else z - 146096).tdiv 146097
  let doe := (z - era * 146097).toNat
  let yoe := (doe - doe / 1460 + doe / 36524 - doe / 146096) / 365
  let doy := doe - (365 * yoe + yoe / 4 - yoe / 100)
  let mp := (5 * doy + 2) / 153
  let d := doy - (153 * mp + 2) / 5 + 1
  let m := if mp < 10 then mp + 3 else mp - 9
  (yoe + era * 400 + if m ≤ 2 then 1 else 0, m, d)

/-- `ztp_format_rfc3339`: `out`, of which the last byte ends the string. -/
def ztpFormatRfc3339 (unixS : ℤ) : List UInt8 :=
  let days := (if 0 ≤ unixS then unixS else unixS - 86399).tdiv 86400
  let secs := unixS - days * 86400
  let (y, m, d) := civilFromDays days
  let tmp := paddedInt 4 (Int32.ofInt y).toInt ++ '-'.toUInt8 :: (padded 2 m ++ '-'.toUInt8 ::
    (padded 2 d ++ 'T'.toUInt8 :: (paddedInt 2 (secs.tdiv 3600) ++ ':'.toUInt8 ::
      (paddedInt 2 ((secs.tdiv 60).tmod 60) ++ ':'.toUInt8 ::
        (paddedInt 2 (secs.tmod 60) ++ ['Z'.toUInt8])))))
  tmp.take 20 ++ [0]

/-- The string that `ztp_format_rfc3339` leaves. -/
def rfc3339Str (unixS : ℤ) : List UInt8 := (ztpFormatRfc3339 unixS).takeWhile (· ≠ 0)

/-! ### Days -/

/-- C's way to divide with a floor, by a division that truncates. -/
theorem tdiv_floor {n : ℤ} (hn : 0 < n) (y : ℤ) :
    (if 0 ≤ y then y else y - (n - 1)).tdiv n = y / n := by
  split
  · next h => exact Int.tdiv_eq_ediv_of_nonneg h
  · next h =>
    have hneg : y - (n - 1) = -(n - 1 - y) := by ring
    have hdiv : (n - 1 - y) / n = -(y / n) ∧ (n - 1 - y) % n = n - 1 - y % n := by
      have hmod := Int.emod_nonneg y hn.ne'
      have hlt := Int.emod_lt_of_pos y hn
      have hsplit := Int.emod_add_mul_ediv y n
      rw [Int.ediv_emod_unique hn]
      refine ⟨?_, by omega, by omega⟩
      rw [Int.mul_neg]
      omega
    rw [hneg, Int.neg_tdiv, Int.tdiv_eq_ediv_of_nonneg (by omega), hdiv.1, neg_neg]

theorem daysFromCivil_eq (y : ℕ) {m d : ℕ} (hm : 1 ≤ m) (hm' : m ≤ 12) (hd : 1 ≤ d) :
    daysFromCivil y m d = (dayNumber y m d : ℤ) - epoch.number := by
  have hyear := daysBeforeYear_eq y
  have hera := tdiv_floor (show (0 : ℤ) < 400 by decide)
  rw [number_epoch, dayNumber, daysBeforeMonth_eq y hm hm']
  simp only [daysFromCivil, show (399 : ℤ) = 400 - 1 from rfl, hera]
  rcases Nat.lt_or_ge 2 m with hlate | hearly
  · simp only [if_pos hlate, if_neg (Nat.not_le.2 hlate)]
    rcases Decidable.em (IsLeap y) with hleap | hleap
    · rw [if_pos hleap]
      rw [IsLeap] at hleap
      omega
    · rw [if_neg hleap]
      rw [IsLeap] at hleap
      omega
  · simp only [if_pos hearly, if_neg (Nat.not_lt.2 hearly)]
    omega

/-- The days of a 400-year era that begins in March before one of its years. -/
def daysBeforeYoe (yoe : ℕ) : ℕ := 365 * yoe + yoe / 4 - yoe / 100 + yoe / 400

/-- The part of the days from which the year of an era is read off. -/
def yoeNumerator (doe : ℕ) : ℕ := doe - doe / 1460 + doe / 36524 - doe / 146096

theorem yoeNumerator_mono : Monotone yoeNumerator :=
  monotone_nat_of_le_succ fun doe ↦ by
    simp only [yoeNumerator]
    omega

theorem yoe_check : ∀ yoe < 400, yoeNumerator (daysBeforeYoe yoe) / 365 = yoe ∧
    yoeNumerator (daysBeforeYoe (yoe + 1) - 1) / 365 = yoe := by
  decide +kernel

/-- The year of an era, as `ztp_format_rfc3339` finds it, is the one that the day is in. -/
theorem yoe_spec {doe : ℕ} (h : doe < 146097) :
    yoeNumerator doe / 365 < 400 ∧ daysBeforeYoe (yoeNumerator doe / 365) ≤ doe ∧
      doe < daysBeforeYoe (yoeNumerator doe / 365 + 1) := by
  have hlast : yoeNumerator doe ≤ yoeNumerator 146096 := yoeNumerator_mono (by omega)
  have hlt : yoeNumerator doe / 365 < 400 := by
    have : yoeNumerator 146096 = 145999 := rfl
    omega
  refine ⟨hlt, ?_, ?_⟩
  · by_contra hcon
    obtain ⟨k, hk⟩ : ∃ k, yoeNumerator doe / 365 = k + 1 := by
      refine Nat.exists_eq_succ_of_ne_zero fun hzero ↦ hcon ?_
      rw [hzero]
      exact Nat.zero_le _
    have hmono := yoeNumerator_mono (show doe ≤ daysBeforeYoe (k + 1) - 1 by rw [hk] at hcon; omega)
    have := (yoe_check k (by omega)).2
    omega
  · by_contra hcon
    rcases Nat.lt_or_ge (yoeNumerator doe / 365 + 1) 400 with hnext | hnext
    · have hmono := yoeNumerator_mono (Nat.not_lt.1 hcon)
      have := (yoe_check _ hnext).1
      omega
    · have : yoeNumerator doe / 365 + 1 = 400 := by omega
      rw [this] at hcon
      exact hcon h

/-- `days_from_civil` by years that begin in March: month `mp` of year `yoe` of an era. -/
theorem daysFromCivil_march {y era : ℤ} {m mp yoe : ℕ} (d : ℕ) (hyoe : yoe < 400)
    (hm : mp < 10 ∧ m = mp + 3 ∧ y = yoe + era * 400 ∨
      10 ≤ mp ∧ mp ≤ 11 ∧ m = mp - 9 ∧ y = yoe + era * 400 + 1) :
    daysFromCivil y m d =
      era * 146097 + (yoe * 365 + yoe / 4 - yoe / 100 + ((153 * mp + 2) / 5 + d - 1) : ℕ) -
        719468 := by
  have hfloor := tdiv_floor (show (0 : ℤ) < 400 by decide)
  have hera : ((yoe : ℤ) + era * 400) / 400 = era := by omega
  have hyoe' : ((yoe : ℤ) + era * 400 - era * 400).toNat = yoe := by omega
  simp only [daysFromCivil, show (399 : ℤ) = 400 - 1 from rfl, hfloor]
  rcases hm with ⟨hmp, rfl, rfl⟩ | ⟨hmp, hmp', rfl, rfl⟩
  · rw [if_neg (show ¬ mp + 3 ≤ 2 by omega), if_pos (show 2 < mp + 3 by omega), hera, hyoe',
      Nat.add_sub_cancel]
  · rw [if_pos (show mp - 9 ≤ 2 by omega), if_neg (show ¬ 2 < mp - 9 by omega),
      Int.add_sub_cancel, hera, hyoe', Nat.sub_add_cancel (by omega)]

/-- The month of a day of a year that begins in March, counted from March. -/
def marchMonth (doy : ℕ) : ℕ := (5 * doy + 2) / 153

theorem marchMonth_le {doy : ℕ} (h : doy ≤ 365) : marchMonth doy ≤ 11 := by
  rw [marchMonth]
  omega

/-- The days of the months before in such a year. -/
theorem marchMonth_start_le (doy : ℕ) : (153 * marchMonth doy + 2) / 5 ≤ doy := by
  rw [marchMonth]
  omega

/-- The day of the month exists; the last day of a leap year is 29 February. -/
theorem marchMonth_day_le {doy year : ℕ} (h : doy ≤ 365) (hleap : doy = 365 → IsLeap year) :
    doy - (153 * marchMonth doy + 2) / 5 + 1 ≤
      daysInMonth year
        (if marchMonth doy < 10 then marchMonth doy + 3 else marchMonth doy - 9) := by
  have hle := marchMonth_le h
  have hnext : doy < (153 * (marchMonth doy + 1) + 2) / 5 := by
    rw [marchMonth]
    omega
  rcases Nat.lt_or_eq_of_le hle with hlt | heq
  · generalize marchMonth doy = mp at hlt hnext
    interval_cases mp <;> simp [daysInMonth] <;> omega
  · rw [heq]
    show doy - 337 + 1 ≤ if IsLeap year then 29 else 28
    split
    · omega
    · next hcommon =>
      have : doy ≠ 365 := fun hlast ↦ hcommon (hleap hlast)
      omega

/-- The month of the calendar. -/
def calendarMonth (doy : ℕ) : ℕ :=
  if marchMonth doy < 10 then marchMonth doy + 3 else marchMonth doy - 9

/-- `civil_from_days` finds the era of 400 years, the year in it and the day of that year, and reads
the month and the day off the last. -/
theorem civilFromDays_march {days : ℤ} (h : -epoch.number ≤ days) :
    ∃ (era : ℤ) (yoe doy : ℕ), yoe < 400 ∧ daysBeforeYoe yoe + doy < daysBeforeYoe (yoe + 1) ∧
      days = era * 146097 + (daysBeforeYoe yoe + doy : ℕ) - 719468 ∧
      (0 ≤ era ∨ era = -1 ∧ yoe = 399 ∧ 306 ≤ doy) ∧
      civilFromDays days = ((yoe : ℤ) + era * 400 + (if calendarMonth doy ≤ 2 then 1 else 0),
        calendarMonth doy, doy - (153 * marchMonth doy + 2) / 5 + 1) := by
  have hcycle := tdiv_floor (show (0 : ℤ) < 146097 by decide) (days + 719468)
  rw [number_epoch] at h
  obtain ⟨era, hera⟩ : ∃ era, (days + 719468) / 146097 = era := ⟨_, rfl⟩
  obtain ⟨doe, hdoe⟩ : ∃ doe, (days + 719468 - era * 146097).toNat = doe := ⟨_, rfl⟩
  have hdays : days = era * 146097 + doe - 719468 := by omega
  have hfirst : 0 ≤ era ∨ era = -1 ∧ 146037 ≤ doe := by omega
  obtain ⟨hyoe, hle, hlt⟩ := yoe_spec (show doe < 146097 by omega)
  obtain ⟨yoe, hyoe_eq⟩ : ∃ yoe, yoeNumerator doe / 365 = yoe := ⟨_, rfl⟩
  rw [hyoe_eq] at hyoe hle hlt
  obtain ⟨doy, hdoy⟩ : ∃ doy, doe - daysBeforeYoe yoe = doy := ⟨_, rfl⟩
  have hsplit : daysBeforeYoe yoe + doy = doe := by omega
  refine ⟨era, yoe, doy, hyoe, by rw [hsplit]; exact hlt, by rw [hsplit]; exact hdays, ?_, ?_⟩
  · refine hfirst.imp_right fun ⟨hera, hlast⟩ ↦ ⟨hera, ?_⟩
    rw [daysBeforeYoe] at hlt
    have hlastYear : yoe = 399 := by
      clear hcycle hera hdoe hyoe_eq hle hdoy hsplit hdays
      omega
    subst hlastYear
    have hstart : daysBeforeYoe 399 = 145731 := rfl
    exact ⟨rfl, by omega⟩
  · rw [yoeNumerator] at hyoe_eq
    have hcolumns : doe - (365 * yoe + yoe / 4 - yoe / 100) = doy := by
      rw [daysBeforeYoe] at hdoy
      omega
    have hmarch : (5 * doy + 2) / 153 = marchMonth doy := rfl
    have hmonth : (if marchMonth doy < 10 then marchMonth doy + 3 else marchMonth doy - 9) =
        calendarMonth doy := rfl
    simp only [civilFromDays, show (146096 : ℤ) = 146097 - 1 from rfl, hcycle, hera, hdoe,
      hyoe_eq, hcolumns, hmarch, hmonth]

/-- The months from March on are in the same year, January and February in the next. -/
theorem calendarMonth_cases {doy : ℕ} (h : doy ≤ 365) :
    doy < 306 ∧ marchMonth doy < 10 ∧ calendarMonth doy = marchMonth doy + 3 ∨
      306 ≤ doy ∧ 10 ≤ marchMonth doy ∧ marchMonth doy ≤ 11 ∧
        calendarMonth doy = marchMonth doy - 9 := by
  have hlate : 306 ≤ doy ↔ 10 ≤ marchMonth doy := by
    rw [marchMonth]
    omega
  rcases Nat.lt_or_ge (marchMonth doy) 10 with hlt | hge
  · exact Or.inl ⟨by omega, hlt, if_pos hlt⟩
  · exact Or.inr ⟨hlate.2 hge, hge, marchMonth_le h, if_neg (Nat.not_lt.2 hge)⟩

theorem civilFromDays_spec {days : ℤ} (h : -epoch.number ≤ days) : ∃ a : Date,
    civilFromDays days = ((a.year : ℤ), a.month, a.day) ∧
      daysFromCivil a.year a.month a.day = days := by
  obtain ⟨era, yoe, doy, hyoe, hlt, hdays, hfirst, hcivil⟩ := civilFromDays_march h
  rw [daysBeforeYoe, daysBeforeYoe] at hlt
  have hdoy : doy ≤ 365 := by omega
  have hmonth := calendarMonth_cases hdoy
  obtain ⟨year, hyear⟩ : ∃ year : ℕ,
      (yoe : ℤ) + era * 400 + (if calendarMonth doy ≤ 2 then 1 else 0) = year := by
    refine Int.eq_ofNat_of_zero_le ?_
    split <;> omega
  have hleap : doy = 365 → IsLeap year := by
    intro hlast
    rw [if_pos (by omega)] at hyear
    rw [IsLeap]
    omega
  have hday := marchMonth_day_le hdoy hleap
  -- January and February belong to the year that began in the March before
  have hmarch : marchMonth doy < 10 ∧ calendarMonth doy = marchMonth doy + 3 ∧
        (year : ℤ) = yoe + era * 400 ∨
      10 ≤ marchMonth doy ∧ marchMonth doy ≤ 11 ∧ calendarMonth doy = marchMonth doy - 9 ∧
        (year : ℤ) = yoe + era * 400 + 1 := by
    rcases hmonth with ⟨-, hmp, hm⟩ | ⟨-, hmp, hmp', hm⟩
    · rw [if_neg (by omega)] at hyear
      exact Or.inl ⟨hmp, hm, by omega⟩
    · rw [if_pos (by omega)] at hyear
      exact Or.inr ⟨hmp, hmp', hm, by omega⟩
  refine ⟨⟨year, calendarMonth doy, _, by omega, by omega, Nat.le_add_left _ _, hday⟩,
    by rw [hcivil, hyear], ?_⟩
  have hstart := marchMonth_start_le doy
  have hback : (153 * marchMonth doy + 2) / 5 + (doy - (153 * marchMonth doy + 2) / 5 + 1) - 1 =
      doy := by omega
  have hbefore : yoe * 365 + yoe / 4 - yoe / 100 + doy = daysBeforeYoe yoe + doy := by
    rw [daysBeforeYoe]
    omega
  show daysFromCivil year (calendarMonth doy) (doy - (153 * marchMonth doy + 2) / 5 + 1) = days
  rw [daysFromCivil_march _ hyoe hmarch, hback, hbefore, hdays]

/-! ### Texts -/

/-- What the parser finds in fixed columns: the fields in the ranges it checks, and whatever stands
between the seconds and the last letter. -/
@[ext] structure Rfc3339Columns where
  year : ℕ
  month : ℕ
  day : ℕ
  hour : ℕ
  minute : ℕ
  second : ℕ
  /-- The letter between date and time. -/
  sep : UInt8
  frac : List UInt8
  /-- The last letter. -/
  zone : UInt8
  year_lt : year < 10000
  month_pos : 1 ≤ month
  month_le : month ≤ 12
  day_pos : 1 ≤ day
  day_le : day ≤ 31
  hour_le : hour ≤ 23
  minute_le : minute ≤ 59
  second_le : second ≤ 60
  sep_eq : sep = 'T'.toUInt8 ∨ sep = 't'.toUInt8
  frac_head : ∀ b ∈ frac.head?, b = '.'.toUInt8
  zone_eq : zone = 'Z'.toUInt8 ∨ zone = 'z'.toUInt8

namespace Rfc3339Columns

/-- The columns as bytes. -/
def text (c : Rfc3339Columns) : List UInt8 :=
  fixed 4 c.year ++ '-'.toUInt8 :: (fixed 2 c.month ++ '-'.toUInt8 :: (fixed 2 c.day ++
    c.sep :: (fixed 2 c.hour ++ ':'.toUInt8 :: (fixed 2 c.minute ++ ':'.toUInt8 ::
      (fixed 2 c.second ++ (c.frac ++ [c.zone]))))))

/-- The time that the parser makes of them. -/
def time (c : Rfc3339Columns) : ℤ :=
  daysFromCivil c.year c.month c.day * 86400 + c.hour * 3600 + c.minute * 60 + c.second

/-- A text is cut into columns in one way only. -/
theorem text_injective : Function.Injective text := by
  intro c c' h
  obtain ⟨hyear, h⟩ := List.append_inj h (by simp)
  obtain ⟨hmonth, h⟩ := List.append_inj (List.cons.inj h).2 (by simp)
  obtain ⟨hday, h⟩ := List.append_inj (List.cons.inj h).2 (by simp)
  obtain ⟨hsep, h⟩ := List.cons.inj h
  obtain ⟨hhour, h⟩ := List.append_inj h (by simp)
  obtain ⟨hminute, h⟩ := List.append_inj (List.cons.inj h).2 (by simp)
  obtain ⟨hsecond, h⟩ := List.append_inj (List.cons.inj h).2 (by simp)
  obtain ⟨hfrac, hzone⟩ := List.append_inj' h rfl
  have htwo : ∀ {m n : ℕ}, m < 100 → n < 100 → fixed 2 m = fixed 2 n → m = n :=
    fun hm hn heq ↦ fixed_injective (w := 2) hm hn heq
  have := c.month_le
  have := c'.month_le
  have := c.day_le
  have := c'.day_le
  have := c.hour_le
  have := c'.hour_le
  have := c.minute_le
  have := c'.minute_le
  have := c.second_le
  have := c'.second_le
  exact Rfc3339Columns.ext (fixed_injective (w := 4) c.year_lt c'.year_lt hyear)
    (htwo (by omega) (by omega) hmonth) (htwo (by omega) (by omega) hday)
    (htwo (by omega) (by omega) hhour) (htwo (by omega) (by omega) hminute)
    (htwo (by omega) (by omega) hsecond) hsep hfrac (List.cons.inj hzone).1

end Rfc3339Columns

theorem parseUint_fixed {w n : ℕ} (hw : 0 < w) (hw' : w ≤ 9) (h : n < 10 ^ w) :
    parseUint (fixed w n) = some n := by
  have hall : ((fixed w n).all fun b ↦ '0'.toUInt8 ≤ b ∧ b ≤ '9'.toUInt8) = true :=
    List.all_eq_true.2 fun b hb ↦ decide_eq_true (isDigit_of_mem_fixed hb)
  rw [parseUint, length_fixed, if_neg (by omega), if_pos hall]
  exact congrArg some (value_fixed h)

/-- A field that is read as a number is its numeral in the width of the field. -/
theorem parseUint_eq_some {s : List UInt8} {n : ℕ} (h : parseUint s = some n) :
    n < 10 ^ s.length ∧ s = fixed s.length n := by
  rw [parseUint] at h
  split at h
  · exact absurd h (by simp)
  · split at h
    · next hall =>
      have hdigits : ∀ b ∈ s, IsDigit b := fun b hb ↦
        of_decide_eq_true (List.all_eq_true.1 hall b hb)
      have hvalue : value s = n := Option.some.inj h
      rw [← hvalue]
      exact ⟨value_lt hdigits, (fixed_value hdigits).symm⟩
    · exact absurd h (by simp)

theorem drop_field (s : List UInt8) (k w : ℕ) :
    s.drop k = (s.drop k).take w ++ s.drop (k + w) := by
  rw [← List.drop_drop, List.take_append_drop]

theorem drop_byte {s : List UInt8} {k : ℕ} (h : k < s.length) :
    s.drop k = s.getD k 0 :: s.drop (k + 1) := by
  rw [List.drop_eq_getElem_cons h, List.getD_eq_getElem?_getD, List.getElem?_eq_getElem h,
    Option.getD_some]

/-- The columns of a text that is long enough. -/
theorem eq_columns {s : List UInt8} (h : 20 ≤ s.length) :
    s = s.take 4 ++ s.getD 4 0 :: ((s.drop 5).take 2 ++ s.getD 7 0 :: ((s.drop 8).take 2 ++
      s.getD 10 0 :: ((s.drop 11).take 2 ++ s.getD 13 0 :: ((s.drop 14).take 2 ++
        s.getD 16 0 :: ((s.drop 17).take 2 ++ s.drop 19))))) := by
  have h4 := drop_byte (show 4 < s.length by omega)
  have h7 := drop_byte (show 7 < s.length by omega)
  have h10 := drop_byte (show 10 < s.length by omega)
  have h13 := drop_byte (show 13 < s.length by omega)
  have h16 := drop_byte (show 16 < s.length by omega)
  rw [← drop_field s 17 2, ← h16, ← drop_field s 14 2, ← h13, ← drop_field s 11 2, ← h10,
    ← drop_field s 8 2, ← h7, ← drop_field s 5 2, ← h4, List.take_append_drop]

/-- What is behind the seconds: nothing or a point and a fraction, and the last letter. -/
theorem exists_frac_zone {s : List UInt8} (hlen : 20 ≤ s.length)
    (hpoint : s.length ≤ 20 ∨ s.getD 19 0 = '.'.toUInt8)
    (hlast : s.getLast? = some 'Z'.toUInt8 ∨ s.getLast? = some 'z'.toUInt8) :
    ∃ frac zone, s.drop 19 = frac ++ [zone] ∧ (∀ b ∈ frac.head?, b = '.'.toUInt8) ∧
      (zone = 'Z'.toUInt8 ∨ zone = 'z'.toUInt8) := by
  obtain ⟨zone, hzone, hend⟩ : ∃ zone, (zone = 'Z'.toUInt8 ∨ zone = 'z'.toUInt8) ∧
      s.getLast? = some zone := by
    rcases hlast with hlast | hlast
    · exact ⟨_, Or.inl rfl, hlast⟩
    · exact ⟨_, Or.inr rfl, hlast⟩
  obtain ⟨frac, hfrac⟩ : ∃ frac, s.drop 19 = frac ++ [zone] := by
    refine List.getLast?_eq_some_iff.1 ?_
    rw [List.getLast?_drop, if_neg (by omega), hend]
  refine ⟨frac, zone, hfrac, fun b hb ↦ ?_, hzone⟩
  rcases frac with - | ⟨b', frac⟩
  · exact absurd hb (by simp)
  · obtain rfl := Option.some.inj hb
    have hlong := congrArg List.length hfrac
    simp only [List.length_drop, List.length_append, List.length_cons, List.length_nil] at hlong
    rw [drop_byte (by omega), List.cons_append] at hfrac
    rw [← (List.cons.inj hfrac).1]
    exact hpoint.resolve_left (by omega)

/-- What the parser accepts is in columns. -/
theorem exists_columns_of_ztpParseRfc3339 {s : List UInt8} {t : ℤ}
    (h : ztpParseRfc3339 s = some t) : ∃ c : Rfc3339Columns, c.text = s ∧ c.time = t := by
  simp only [ztpParseRfc3339] at h
  split at h
  · exact absurd h (by simp)
  next hlayout =>
  split at h
  · exact absurd h (by simp)
  next hpoint =>
  simp only [not_or, not_and_or, not_not, Nat.not_lt] at hlayout hpoint
  obtain ⟨hlen, h4, h7, h10, h13, h16, hlast⟩ := hlayout
  simp only [Option.bind_eq_bind, Option.bind_eq_some_iff] at h
  obtain ⟨y, hy, mo, hmo, d, hd, hh, hhh, mi, hmi, se, hse, h⟩ := h
  split at h
  · exact absurd h (by simp)
  next hrange =>
  obtain ⟨frac, zone, hfrac, hhead, hzone⟩ := exists_frac_zone hlen hpoint hlast
  have hcols := eq_columns hlen
  have hfour : (s.take 4).length = 4 := by simp; omega
  have htwo : ∀ k, k ≤ 17 → ((s.drop k).take 2).length = 2 := fun k hk ↦ by simp; omega
  have hyear := parseUint_eq_some hy
  have hmonth := parseUint_eq_some hmo
  have hday := parseUint_eq_some hd
  have hhour := parseUint_eq_some hhh
  have hminute := parseUint_eq_some hmi
  have hsecond := parseUint_eq_some hse
  rw [hfour] at hyear
  rw [htwo _ (by decide)] at hmonth hday hhour hminute hsecond
  rw [h4, h7, h13, h16, hyear.2, hmonth.2, hday.2, hhour.2, hminute.2, hsecond.2, hfrac] at hcols
  exact ⟨⟨y, mo, d, hh, mi, se, s.getD 10 0, frac, zone, hyear.1, by omega, by omega, by omega,
    by omega, by omega, by omega, by omega, h10, hhead, hzone⟩, hcols.symm, Option.some.inj h⟩

/-- What is in columns the parser accepts. -/
theorem Rfc3339Columns.ztpParseRfc3339_eq (c : Rfc3339Columns) :
    ztpParseRfc3339 c.text = some c.time := by
  have hlen : 20 ≤ c.text.length := by
    simp [Rfc3339Columns.text]
    omega
  have hlast : c.text.getLast? = some c.zone := by
    simp [Rfc3339Columns.text, List.getLast?_append, List.getLast?_cons]
  -- where each column stands
  have hhead : c.text.getD 19 0 = (c.frac ++ [c.zone]).getD 0 0 := rfl
  have h4 : c.text.getD 4 0 = '-'.toUInt8 := rfl
  have h7 : c.text.getD 7 0 = '-'.toUInt8 := rfl
  have h10 : c.text.getD 10 0 = c.sep := rfl
  have h13 : c.text.getD 13 0 = ':'.toUInt8 := rfl
  have h16 : c.text.getD 16 0 = ':'.toUInt8 := rfl
  have hy : c.text.take 4 = fixed 4 c.year := rfl
  have hmo : (c.text.drop 5).take 2 = fixed 2 c.month := rfl
  have hd : (c.text.drop 8).take 2 = fixed 2 c.day := rfl
  have hh : (c.text.drop 11).take 2 = fixed 2 c.hour := rfl
  have hmi : (c.text.drop 14).take 2 = fixed 2 c.minute := rfl
  have hse : (c.text.drop 17).take 2 = fixed 2 c.second := rfl
  -- the three checks of the parser: the point, the separators, the ranges
  have hpoint : ¬ (20 < c.text.length ∧ c.text.getD 19 0 ≠ '.'.toUInt8) := by
    rintro ⟨hlong, hno⟩
    have hfrac := c.frac_head
    rcases hc : c.frac with - | ⟨b, frac⟩
    · simp [Rfc3339Columns.text, hc] at hlong
    · rw [hc] at hfrac
      rw [hhead, hc] at hno
      exact hno (hfrac b rfl)
  have hlayout : ¬ (c.text.length < 20 ∨ c.text.getD 4 0 ≠ '-'.toUInt8 ∨
      c.text.getD 7 0 ≠ '-'.toUInt8 ∨
      (c.text.getD 10 0 ≠ 'T'.toUInt8 ∧ c.text.getD 10 0 ≠ 't'.toUInt8) ∨
      c.text.getD 13 0 ≠ ':'.toUInt8 ∨ c.text.getD 16 0 ≠ ':'.toUInt8 ∨
      (c.text.getLast? ≠ some 'Z'.toUInt8 ∧ c.text.getLast? ≠ some 'z'.toUInt8)) := by
    rw [h4, h7, h10, h13, h16, hlast]
    rcases c.sep_eq with hsep | hsep <;> rcases c.zone_eq with hzone | hzone <;>
      simp [hsep, hzone] <;> omega
  have hrange : ¬ (c.month < 1 ∨ 12 < c.month ∨ c.day < 1 ∨ 31 < c.day ∨ 23 < c.hour ∨
      59 < c.minute ∨ 60 < c.second) := by
    have := c.month_pos
    have := c.month_le
    have := c.day_pos
    have := c.day_le
    have := c.hour_le
    have := c.minute_le
    have := c.second_le
    omega
  rw [ztpParseRfc3339]
  dsimp only
  have htwo : ∀ {n : ℕ}, n ≤ 99 → parseUint (fixed 2 n) = some n := fun hn ↦
    parseUint_fixed (by decide) (by decide) (Nat.lt_succ_of_le hn)
  rw [if_neg hlayout, if_neg hpoint, hy, hmo, hd, hh, hmi, hse,
    parseUint_fixed (by decide) (by decide) c.year_lt, htwo (by omega), htwo (by omega),
    htwo (by omega), htwo (by omega), htwo (by omega)]
  exact if_neg hrange

/-- **What `ztp_parse_rfc3339` accepts.** -/
theorem ztpParseRfc3339_eq_some {s : List UInt8} {t : ℤ} :
    ztpParseRfc3339 s = some t ↔ ∃ c : Rfc3339Columns, c.text = s ∧ c.time = t := by
  refine ⟨exists_columns_of_ztpParseRfc3339, ?_⟩
  rintro ⟨c, rfl, rfl⟩
  exact c.ztpParseRfc3339_eq

/-! ### The grammar -/

/-- A time as the parser's description has it: a date and a time of day that exist, perhaps with a
fraction, which is at least one digit after a point. -/
structure Rfc3339Time where
  date : Date
  time : Time
  /-- The digits of the fraction, if there is one. -/
  fraction : List UInt8
  sep : UInt8
  zone : UInt8
  year_lt : date.year < 10000
  fraction_digits : ∀ b ∈ fraction, IsDigit b
  sep_eq : sep = 'T'.toUInt8 ∨ sep = 't'.toUInt8
  zone_eq : zone = 'Z'.toUInt8 ∨ zone = 'z'.toUInt8

/-- Its columns. -/
def Rfc3339Time.columns (x : Rfc3339Time) : Rfc3339Columns where
  year := x.date.year
  month := x.date.month
  day := x.date.day
  hour := x.time.hour
  minute := x.time.minute
  second := x.time.second
  sep := x.sep
  frac := if x.fraction = [] then [] else '.'.toUInt8 :: x.fraction
  zone := x.zone
  year_lt := x.year_lt
  month_pos := x.date.month_pos
  month_le := x.date.month_le
  day_pos := x.date.day_pos
  day_le := x.date.day_le.trans (daysInMonth_le _ _)
  hour_le := x.time.hour_le
  minute_le := x.time.minute_le
  second_le := x.time.second_le
  sep_eq := x.sep_eq
  frac_head := by
    intro b hb
    split at hb
    · exact absurd hb (by simp)
    · exact (Option.some.inj hb).symm
  zone_eq := x.zone_eq

/-- Its bytes. -/
def Rfc3339Time.text (x : Rfc3339Time) : List UInt8 := x.columns.text

/-- `ztp_parse_rfc3339` takes the bytes as a time exactly if they are one, and as that instant. -/
def ParsesExactly (s : List UInt8) : Prop :=
  ∀ t, ztpParseRfc3339 s = some t ↔ ∃ x : Rfc3339Time, x.text = s ∧ instant x.date x.time = t

/-- The day exists, and the fraction is nothing, or a point and digits. -/
def Rfc3339Columns.Proper (c : Rfc3339Columns) : Prop :=
  c.day ≤ daysInMonth c.year c.month ∧
    (c.frac ≠ [] → c.frac.tail ≠ [] ∧ ∀ b ∈ c.frac.tail, IsDigit b)

theorem Rfc3339Time.proper_columns (x : Rfc3339Time) : x.columns.Proper := by
  refine ⟨x.date.day_le, fun hne ↦ ?_⟩
  have hfrac : x.columns.frac = if x.fraction = [] then [] else '.'.toUInt8 :: x.fraction := rfl
  rw [hfrac] at hne ⊢
  split at hne
  · exact absurd rfl hne
  · next hdigits =>
    rw [if_neg hdigits]
    exact ⟨hdigits, x.fraction_digits⟩

/-- Proper columns are those of a time. -/
theorem Rfc3339Columns.Proper.exists_time {c : Rfc3339Columns} (h : c.Proper) :
    ∃ x : Rfc3339Time, x.columns = c := by
  refine ⟨⟨⟨c.year, c.month, c.day, c.month_pos, c.month_le, c.day_pos, h.1⟩,
    ⟨c.hour, c.minute, c.second, c.hour_le, c.minute_le, c.second_le⟩, c.frac.tail, c.sep, c.zone,
    c.year_lt, ?_, c.sep_eq, c.zone_eq⟩, ?_⟩
  · rcases hfrac : c.frac with - | ⟨b, ds⟩
    · exact fun b hb ↦ absurd hb List.not_mem_nil
    · have hdigits := (h.2 (by rw [hfrac]; exact List.cons_ne_nil b ds)).2
      rwa [hfrac] at hdigits
  · refine Rfc3339Columns.ext rfl rfl rfl rfl rfl rfl rfl ?_ rfl
    show (if c.frac.tail = [] then [] else '.'.toUInt8 :: c.frac.tail) = c.frac
    rcases hfrac : c.frac with - | ⟨b, ds⟩
    · rfl
    · have hhead := c.frac_head b (by rw [hfrac]; rfl)
      have hdigits := (h.2 (by rw [hfrac]; exact List.cons_ne_nil b ds)).1
      rw [hfrac] at hdigits
      rw [if_neg hdigits, hhead]
      rfl

/-- The parser reads a time as its instant. -/
theorem Rfc3339Time.time_columns (x : Rfc3339Time) : x.columns.time = instant x.date x.time := by
  have hdays := daysFromCivil_eq x.date.year x.date.month_pos x.date.month_le x.date.day_pos
  show daysFromCivil x.date.year x.date.month x.date.day * 86400 + x.time.hour * 3600 +
    x.time.minute * 60 + x.time.second = _
  have hnumber : dayNumber x.date.year x.date.month x.date.day = x.date.number := rfl
  rw [hdays, hnumber, instant, Time.seconds]
  omega

theorem ztpParseRfc3339_text (x : Rfc3339Time) :
    ztpParseRfc3339 x.text = some (instant x.date x.time) :=
  ztpParseRfc3339_eq_some.2 ⟨x.columns, rfl, x.time_columns⟩

theorem ParsesExactly.proper {s : List UInt8} (h : ParsesExactly s) {c : Rfc3339Columns}
    (hc : c.text = s) : c.Proper := by
  obtain ⟨x, hx, -⟩ := (h c.time).1 (ztpParseRfc3339_eq_some.2 ⟨c, hc, rfl⟩)
  obtain rfl := Rfc3339Columns.text_injective (hx.trans hc.symm)
  exact x.proper_columns

/-- **When the parser keeps to its description.** It takes the bytes exactly if they are a time, and
as that instant, if and only if the columns in which they are found have a day that exists and a
proper fraction. -/
theorem parsesExactly_iff (s : List UInt8) :
    ParsesExactly s ↔ ∀ c : Rfc3339Columns, c.text = s → c.Proper := by
  constructor
  · exact fun h c hc ↦ h.proper hc
  · intro h t
    constructor
    · intro hparse
      obtain ⟨c, hc, rfl⟩ := ztpParseRfc3339_eq_some.1 hparse
      obtain ⟨x, rfl⟩ := (h c hc).exists_time
      exact ⟨x, hc, x.time_columns.symm⟩
    · rintro ⟨x, rfl, rfl⟩
      exact ztpParseRfc3339_text x

/-- 31 February has columns, and no day. -/
theorem exists_columns_february :
    ∃ c : Rfc3339Columns, c.text = ascii "2026-02-31T12:00:00Z" ∧ ¬ c.Proper :=
  ⟨{  year := 2026
      month := 2
      day := 31
      hour := 12
      minute := 0
      second := 0
      sep := 'T'.toUInt8
      frac := []
      zone := 'Z'.toUInt8
      year_lt := by decide
      month_pos := by decide
      month_le := by decide
      day_pos := by decide
      day_le := by decide
      hour_le := by decide
      minute_le := by decide
      second_le := by decide
      sep_eq := by decide
      frac_head := by simp
      zone_eq := by decide }, by decide, fun h ↦ absurd h.1 (by decide)⟩

/-- An offset from UTC in the place of the fraction is none. -/
theorem exists_columns_offset :
    ∃ c : Rfc3339Columns, c.text = ascii "2026-01-31T12:00:00.+02:00Z" ∧ ¬ c.Proper :=
  ⟨{  year := 2026
      month := 1
      day := 31
      hour := 12
      minute := 0
      second := 0
      sep := 'T'.toUInt8
      frac := ascii ".+02:00"
      zone := 'Z'.toUInt8
      year_lt := by decide
      month_pos := by decide
      month_le := by decide
      day_pos := by decide
      day_le := by decide
      hour_le := by decide
      minute_le := by decide
      second_le := by decide
      sep_eq := by decide
      frac_head := by decide +kernel
      zone_eq := by decide }, by decide, fun h ↦ by
        have hdigits := (h.2 (by decide)).2
        revert hdigits
        decide⟩

/-- The parser takes a day that does not exist, and an offset as a fraction. -/
theorem not_parsesExactly :
    ¬ ParsesExactly (ascii "2026-02-31T12:00:00Z") ∧
      ¬ ParsesExactly (ascii "2026-01-31T12:00:00.+02:00Z") := by
  constructor
  · intro h
    obtain ⟨c, hc, hno⟩ := exists_columns_february
    exact hno (h.proper hc)
  · intro h
    obtain ⟨c, hc, hno⟩ := exists_columns_offset
    exact hno (h.proper hc)

/-! ### The round trip -/

/-- A date and a time of day before the year 10000, outside leap seconds. -/
structure CivilTime where
  date : Date
  time : Time
  year_lt : date.year < 10000
  second_le : time.second ≤ 59

namespace CivilTime

/-- As `ztp_format_rfc3339` writes it. -/
def rfc3339 (x : CivilTime) : Rfc3339Time where
  date := x.date
  time := x.time
  fraction := []
  sep := 'T'.toUInt8
  zone := 'Z'.toUInt8
  year_lt := x.year_lt
  fraction_digits := by simp
  sep_eq := Or.inl rfl
  zone_eq := Or.inl rfl

/-- Its text. -/
def text (x : CivilTime) : List UInt8 := x.rfc3339.text

/-- The seconds since the epoch. -/
def unixS (x : CivilTime) : ℤ := instant x.date x.time

theorem length_text (x : CivilTime) : x.text.length = 20 := rfl

theorem seconds_lt (x : CivilTime) : x.time.seconds < 86400 := by
  have := x.time.hour_le
  have := x.time.minute_le
  have := x.second_le
  rw [Time.seconds]
  omega

end CivilTime

/-- A date is found again from its number. -/
theorem civilFromDays_number (a : Date) :
    civilFromDays ((a.number : ℤ) - epoch.number) = ((a.year : ℤ), a.month, a.day) := by
  obtain ⟨b, hb, hdays⟩ :=
    civilFromDays_spec (show -(epoch.number : ℤ) ≤ (a.number : ℤ) - epoch.number by omega)
  rw [daysFromCivil_eq b.year b.month_pos b.month_le b.day_pos] at hdays
  have hnumber : b.number = a.number := by
    have : (b.number : ℤ) - epoch.number = a.number - epoch.number := hdays
    omega
  rw [hb, Date.strictMono_number.injective hnumber]

theorem ztpFormatRfc3339_unixS (x : CivilTime) : ztpFormatRfc3339 x.unixS = x.text ++ [0] := by
  have hlt := x.seconds_lt
  have hfloor := tdiv_floor (show (0 : ℤ) < 86400 by decide) x.unixS
  have hdays : x.unixS / 86400 = (x.date.number : ℤ) - epoch.number := by
    rw [CivilTime.unixS, instant]
    omega
  have hsecs : x.unixS - ((x.date.number : ℤ) - epoch.number) * 86400 = x.time.seconds := by
    rw [CivilTime.unixS, instant]
    omega
  have hyear : (Int32.ofInt (x.date.year : ℤ)).toInt = x.date.year := by
    have := x.year_lt
    exact Int32.toInt_ofInt_of_le (by omega) (by omega)
  have hminute_le := x.time.minute_le
  have hsecond_le := x.second_le
  have hseconds : x.time.seconds = x.time.hour * 3600 + x.time.minute * 60 + x.time.second := rfl
  have hnonneg : (0 : ℤ) ≤ x.time.seconds := Int.natCast_nonneg _
  -- hours, minutes and seconds are not negative, so truncating is flooring
  have hhour : (x.time.seconds : ℤ).tdiv 3600 = (x.time.hour : ℕ) := by
    rw [Int.tdiv_eq_ediv_of_nonneg hnonneg]
    omega
  have hminute : ((x.time.seconds : ℤ).tdiv 60).tmod 60 = (x.time.minute : ℕ) := by
    rw [Int.tdiv_eq_ediv_of_nonneg hnonneg, Int.tmod_eq_emod_of_nonneg (by omega)]
    omega
  have hsecond : (x.time.seconds : ℤ).tmod 60 = (x.time.second : ℕ) := by
    rw [Int.tmod_eq_emod_of_nonneg hnonneg]
    omega
  simp only [ztpFormatRfc3339, show (86399 : ℤ) = 86400 - 1 from rfl, hfloor, hdays, hsecs,
    civilFromDays_number, hyear, hhour, hminute, hsecond]
  have hday := x.date.day_le.trans (daysInMonth_le _ _)
  have hmonth := x.date.month_le
  have hhour_le := x.time.hour_le
  rw [paddedInt_natCast (by decide) (show x.date.year < 10 ^ 4 from x.year_lt),
    padded_eq_fixed (by decide) (show x.date.month < 10 ^ 2 by omega),
    padded_eq_fixed (by decide) (show x.date.day < 10 ^ 2 by omega),
    paddedInt_natCast (by decide) (show x.time.hour < 10 ^ 2 by omega),
    paddedInt_natCast (by decide) (show x.time.minute < 10 ^ 2 by omega),
    paddedInt_natCast (by decide) (show x.time.second < 10 ^ 2 by omega)]
  rfl

/-- The first second of the year 0. -/
def firstCivil : CivilTime where
  date := { epoch with year := 0, day_le := by decide }
  time := ⟨0, 0, 0, by decide, by decide, by decide⟩
  year_lt := by decide
  second_le := by decide

/-- The last second of the year 9999. -/
def lastCivil : CivilTime where
  date := ⟨9999, 12, 31, Nat.succ_pos 11, by decide, by decide, by decide⟩
  time := ⟨23, 59, 59, by decide, by decide, by decide⟩
  year_lt := by decide
  second_le := by decide

/-- A unix time of the years with four digits. -/
def UnixTime := {t : ℤ // firstCivil.unixS ≤ t ∧ t ≤ lastCivil.unixS}

theorem unixS_firstCivil :
    firstCivil.unixS = ((daysBeforeYear 0 : ℤ) - epoch.number) * 86400 := by
  have hnumber : firstCivil.date.number = daysBeforeYear 0 := rfl
  have hseconds : firstCivil.time.seconds = 0 := rfl
  rw [CivilTime.unixS, instant, hnumber, hseconds]
  omega

theorem unixS_lastCivil :
    lastCivil.unixS = ((daysBeforeYear 10000 : ℤ) - epoch.number) * 86400 - 1 := by
  have hnumber : lastCivil.date.number =
      daysBeforeYear 9999 + daysBeforeMonth 9999 12 + (31 - 1) := by
    simp only [Date.number, dayNumber, lastCivil]
  have hmonth : daysBeforeMonth 9999 12 = 334 := by decide
  have hseconds : lastCivil.time.seconds = 86399 := rfl
  have hyear := daysBeforeYear_eq 9999
  have hnext := daysBeforeYear_eq 10000
  rw [CivilTime.unixS, instant, hnumber, hmonth, hseconds]
  omega

/-- Every unix time between them is that of a date and a time of day. -/
theorem UnixTime.exists_civil (t : UnixTime) : ∃ x : CivilTime, x.unixS = t.1 := by
  obtain ⟨t, hlo, hhi⟩ := t
  rw [unixS_firstCivil] at hlo
  rw [unixS_lastCivil] at hhi
  have hzero : daysBeforeYear 0 = 0 := rfl
  obtain ⟨a, -, hdays⟩ := civilFromDays_spec (show -(epoch.number : ℤ) ≤ t / 86400 by omega)
  rw [daysFromCivil_eq a.year a.month_pos a.month_le a.day_pos] at hdays
  have hyear : a.year < 10000 := by
    by_contra hcon
    have hmono := monotone_daysBeforeYear (Nat.not_lt.1 hcon)
    rw [dayNumber] at hdays
    omega
  refine ⟨⟨a, ⟨(t % 86400 / 3600).toNat, (t % 3600 / 60).toNat, (t % 60).toNat, by omega, by omega,
    by omega⟩, hyear, ?_⟩, ?_⟩
  · show (t % 60).toNat ≤ 59
    omega
  · have hnumber : (a.number : ℤ) - epoch.number = t / 86400 := hdays
    rw [CivilTime.unixS, instant, hnumber, Time.seconds]
    dsimp only
    omega

/-! ### Order -/

theorem field_lt {w m n : ℕ} (hn : n < 10 ^ w) (h : m < n) (b b' : List UInt8) :
    fixed w m ++ b < fixed w n ++ b' :=
  append_lt_append (by simp) (fixed_lt_fixed hn h) b b'

theorem field_eq {w m n : ℕ} (h : m = n) (c : UInt8) {b b' : List UInt8} (hb : b < b') :
    fixed w m ++ c :: b < fixed w n ++ c :: b' := by
  rw [h]
  exact List.append_left_lt (List.cons_lt_cons_iff.2 (Or.inr ⟨rfl, hb⟩))

/-- **Later times have larger texts.** -/
theorem CivilTime.text_lt_text {x x' : CivilTime} (h : x.unixS < x'.unixS) : x.text < x'.text := by
  have hlt := x.seconds_lt
  have hlt' := x'.seconds_lt
  have hmonth : x'.date.month < 10 ^ 2 := x'.date.month_le.trans_lt (by decide)
  have hday : x'.date.day < 10 ^ 2 :=
    (x'.date.day_le.trans (daysInMonth_le _ _)).trans_lt (by decide)
  rw [unixS, unixS, instant, instant] at h
  -- the first field that differs decides, for the texts as for the times
  rcases lt_trichotomy x.date x'.date with hdate | hdate | hdate
  · rcases Date.lt_iff.1 hdate with hy | ⟨hy, hm | ⟨hm, hd⟩⟩
    · exact field_lt (w := 4) x'.year_lt hy _ _
    · exact field_eq (w := 4) hy _ (field_lt hmonth hm _ _)
    · exact field_eq (w := 4) hy _ (field_eq (w := 2) hm _ (field_lt hday hd _ _))
  · -- the same day: hours, minutes and seconds decide
    have hnumber : x.date.number = x'.date.number := congrArg Date.number hdate
    have hseconds : x.time.seconds < x'.time.seconds := by omega
    have htime : ∀ b b' : List UInt8, b < b' →
        fixed 4 x.date.year ++ '-'.toUInt8 :: (fixed 2 x.date.month ++ '-'.toUInt8 ::
          (fixed 2 x.date.day ++ 'T'.toUInt8 :: b)) <
        fixed 4 x'.date.year ++ '-'.toUInt8 :: (fixed 2 x'.date.month ++ '-'.toUInt8 ::
          (fixed 2 x'.date.day ++ 'T'.toUInt8 :: b')) := fun b b' hb ↦
      field_eq (congrArg Date.year hdate) _ (field_eq (congrArg Date.month hdate) _
        (field_eq (congrArg Date.day hdate) _ hb))
    have hhour_le := x'.time.hour_le
    have hminute_le := x'.time.minute_le
    have hminute_le' := x.time.minute_le
    have hsecond_le := x'.second_le
    have hsecond_le' := x.second_le
    rw [Time.seconds, Time.seconds] at hseconds
    refine htime _ _ ?_
    rcases Nat.lt_or_ge x.time.hour x'.time.hour with hh | hh
    · exact field_lt (w := 2) (by omega) hh _ _
    · have hhour : x.time.hour = x'.time.hour := by omega
      rcases Nat.lt_or_ge x.time.minute x'.time.minute with hmi | hmi
      · exact field_eq hhour _ (field_lt (w := 2) (by omega) hmi _ _)
      · have hminute : x.time.minute = x'.time.minute := by omega
        have hsecond : x.time.second < x'.time.second := by omega
        have hwidth : x'.time.second < 10 ^ 2 := by omega
        exact field_eq hhour _ (field_eq hminute _ (field_lt hwidth hsecond _ _))
  · have hnumber : x'.date.number < x.date.number := Date.strictMono_number hdate
    omega

/-! ### Strings -/

/-- What holds of digits and of the separators holds of every character. -/
theorem CivilTime.forall_mem_text (x : CivilTime) {p : UInt8 → Prop} (hdigit : ∀ b, IsDigit b → p b)
    (hdash : p '-'.toUInt8) (hcolon : p ':'.toUInt8) (hsep : p 'T'.toUInt8)
    (hzone : p 'Z'.toUInt8) : ∀ b ∈ x.text, p b := by
  have hdigits : ∀ w n : ℕ, ∀ b ∈ fixed w n, p b := fun w n b hb ↦
    hdigit b (isDigit_of_mem_fixed hb)
  have hsep' : x.rfc3339.columns.sep = 'T'.toUInt8 := rfl
  have hzone' : x.rfc3339.columns.zone = 'Z'.toUInt8 := rfl
  have hfrac : x.rfc3339.columns.frac = [] := rfl
  simp only [text, Rfc3339Time.text, Rfc3339Columns.text, hsep', hfrac, hzone', List.nil_append,
    List.forall_mem_append, List.forall_mem_cons]
  exact ⟨hdigits _ _, hdash, hdigits _ _, hdash, hdigits _ _, hsep, hdigits _ _,
    hcolon, hdigits _ _, hcolon, hdigits _ _, hzone, fun b hb ↦ absurd hb (by simp)⟩

theorem CivilTime.ne_zero_of_mem_text (x : CivilTime) : ∀ b ∈ x.text, b ≠ 0 := by
  refine x.forall_mem_text ?_ (by decide) (by decide) (by decide) (by decide)
  rintro b hb rfl
  exact absurd hb (by decide)

theorem rfc3339Str_unixS (x : CivilTime) : rfc3339Str x.unixS = x.text := by
  rw [rfc3339Str, ztpFormatRfc3339_unixS, List.takeWhile_append_of_pos
    fun b hb ↦ decide_eq_true (x.ne_zero_of_mem_text b hb)]
  exact List.append_nil _

/-- **The round trip of times.** A unix time of the years 0 to 9999 is written in 20 characters that
are read back as that time; a date and time that exists is written again as it was read; and later
times have lexicographically larger strings. -/
theorem rfc3339_roundTrip (t t' : UnixTime) (x : CivilTime) :
    (rfc3339Str t.1).length = 20 ∧ ztpParseRfc3339 (rfc3339Str t.1) = some t.1 ∧
      (∃ u, ztpParseRfc3339 x.text = some u ∧ rfc3339Str u = x.text) ∧
      (t.1 < t'.1 → rfc3339Str t.1 < rfc3339Str t'.1) := by
  obtain ⟨c, hc⟩ := t.exists_civil
  obtain ⟨c', hc'⟩ := t'.exists_civil
  rw [← hc, ← hc', rfc3339Str_unixS, rfc3339Str_unixS]
  exact ⟨c.length_text, ztpParseRfc3339_text c.rfc3339,
    ⟨x.unixS, ztpParseRfc3339_text x.rfc3339, rfc3339Str_unixS x⟩, CivilTime.text_lt_text⟩

example : rfc3339Str 1709164800 = ascii "2024-02-29T00:00:00Z" := by decide +kernel

end ThinEdge.Provisioner
