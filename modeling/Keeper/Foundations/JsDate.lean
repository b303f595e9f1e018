import Keeper.Foundations.CivilMonths

/-!
# Dates and their setters

`Date` as ECMAScript has it: a time value in milliseconds, or none where a computation leaves the range of
time values. Its fields are read and set in UTC.

* `setUTCDate_eq`, `setUTCMonth_eq`: a field is set within the month, or moves the day to another month.
* `utcDate_zero`: `Date.UTC` of a day 0 is the last day of the month before.
-/

namespace Keeper

/-- A `Date`: its time value, and none of an invalid one. -/
abbrev JsDate := Option ℤ

/-- A `RangeError`, by its message. -/
abbrev RangeError := String

/-- The `Date` of a number of milliseconds, invalid out of range. -/
def timeClip (milliseconds : ℤ) : JsDate :=
  if -8640000000000000 ≤ milliseconds ∧ milliseconds ≤ 8640000000000000 then some milliseconds
  else none

theorem timeClip_eq_some_iff {milliseconds t : ℤ} : timeClip milliseconds = some t ↔
    milliseconds = t ∧ -8640000000000000 ≤ t ∧ t ≤ 8640000000000000 := by
  unfold timeClip
  split_ifs with h
  · rw [Option.some.injEq]
    exact ⟨fun heq => ⟨heq, heq ▸ h⟩, And.left⟩
  · simp only [false_iff, not_and]
    rintro rfl hlo hhi
    exact h ⟨hlo, hhi⟩

namespace Date

/-! ## Fields -/

def getUTCFullYear (t : ℤ) : ℤ := (civilFromDays (t / 86400000)).year

/-- `getUTCMonth`, from 0. -/
def getUTCMonth (t : ℤ) : ℤ := (civilFromDays (t / 86400000)).month - 1

def getUTCDate (t : ℤ) : ℤ := (civilFromDays (t / 86400000)).day

/-- `MakeDay`: months and days out of range carry over. -/
def makeDay (year month date : ℤ) : ℤ := firstDay (year * 12 + month) + (date - 1)

def setUTCDate (t date : ℤ) : JsDate :=
  timeClip (makeDay (getUTCFullYear t) (getUTCMonth t) date * 86400000 + t % 86400000)

def setUTCMonth (t month : ℤ) : JsDate :=
  timeClip (makeDay (getUTCFullYear t) month (getUTCDate t) * 86400000 + t % 86400000)

/-- The year that `Date.UTC` makes of a year: one from 0 to 99 is of the twentieth century. -/
def makeFullYear (year : ℤ) : ℤ := if 0 ≤ year ∧ year ≤ 99 then 1900 + year else year

/-- `new Date(Date.UTC(year, month, date))`. -/
def utcDate (year month date : ℤ) : JsDate :=
  timeClip (makeDay (makeFullYear year) month date * 86400000)

theorem year_month_eq (t : ℤ) : getUTCFullYear t * 12 + getUTCMonth t = monthIndex (t / 86400000) := rfl

theorem firstDay_getUTCDate (t : ℤ) :
    firstDay (monthIndex (t / 86400000)) + (getUTCDate t - 1) = t / 86400000 :=
  firstDay_monthIndex _

theorem getUTCDate_eq {t m : ℤ} (h : monthIndex (t / 86400000) = m) :
    getUTCDate t = t / 86400000 - firstDay m + 1 := by
  have hday := firstDay_getUTCDate t
  rw [h] at hday
  omega

/-- **Setting the day** stays in the month where it has such a day. -/
theorem setUTCDate_eq {t date s : ℤ} (h : setUTCDate t date = some s) :
    s / 86400000 = firstDay (monthIndex (t / 86400000)) + (date - 1) ∧ s % 86400000 = t % 86400000 := by
  unfold setUTCDate makeDay at h
  rw [year_month_eq] at h
  obtain ⟨h, -⟩ := timeClip_eq_some_iff.1 h
  omega

/-- **Setting the month** keeps the day. -/
theorem setUTCMonth_eq {t month s : ℤ} (h : setUTCMonth t month = some s) :
    s / 86400000 = firstDay (getUTCFullYear t * 12 + month) + (getUTCDate t - 1) ∧
      s % 86400000 = t % 86400000 := by
  unfold setUTCMonth makeDay at h
  obtain ⟨h, -⟩ := timeClip_eq_some_iff.1 h
  omega

/-- **Day 0 of the next month** is the last day of a month, of the year that `Date.UTC` makes of its
year. -/
theorem getUTCDate_utcDate_zero {year month s : ℤ} (h : utcDate year (month + 1) 0 = some s) :
    getUTCDate s = monthLength (makeFullYear year * 12 + month) := by
  unfold utcDate makeDay at h
  obtain ⟨h, -⟩ := timeClip_eq_some_iff.1 h
  have hlength := (monthLength_bounds (makeFullYear year * 12 + month)).1
  have hindex : makeFullYear year * 12 + (month + 1) = makeFullYear year * 12 + month + 1 := by ring
  rw [hindex] at h
  have hday : s / 86400000 = firstDay (makeFullYear year * 12 + month + 1) - 1 := by omega
  have hmonth : monthIndex (s / 86400000) = makeFullYear year * 12 + month := by
    rw [monthIndex_eq_iff]
    unfold monthLength at hlength
    omega
  rw [getUTCDate_eq hmonth, hday]
  unfold monthLength
  omega

/-- The year that `Date.UTC` makes has no longer a month. -/
theorem monthLength_makeFullYear_le {year month : ℤ} (hmonth : 0 ≤ month ∧ month < 12) :
    monthLength (makeFullYear year * 12 + month) ≤ monthLength (year * 12 + month) := by
  unfold makeFullYear
  split_ifs with hyear
  · rw [monthLength_eq _ hmonth, monthLength_eq _ hmonth]
    simp only [daysFromCivil]
    split_ifs <;> omega
  · exact le_refl _

end Date

end Keeper
