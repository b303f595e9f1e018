import Keeper.Core.RepresentableRange
import Keeper.Foundations.JsDate
import Mathlib.Data.List.Basic

/-!
# Sync ranges and their windows

The window of a configured range (`core/sync/sync-range.ts`): whole months or a week around the UTC day of
its date. A target month may be shorter, and a window may leave the range of dates.

* `shiftDateByRange_eq`: the day that a range is shifted to.
* `getConfigurableSyncWindow_mono`: the window of a later date begins and ends no earlier.
-/

namespace Keeper

open Date

/-! ## Ranges -/

inductive SyncRange
  | oneWeek
  | oneMonth
  | threeMonths
  | sixMonths
  | twelveMonths
  | twoYears
  deriving DecidableEq

/-- The `shift` of a definition. -/
inductive RangeShift
  | days (amount : ℤ)
  | months (amount : ℤ)
  deriving DecidableEq

namespace SyncRange

/-- The `value` of a definition. -/
def value : SyncRange → String
  | oneWeek => "1_week"
  | oneMonth => "1_month"
  | threeMonths => "3_months"
  | sixMonths => "6_months"
  | twelveMonths => "12_months"
  | twoYears => "2_years"

def shift : SyncRange → RangeShift
  | oneWeek => .days 7
  | oneMonth => .months 1
  | threeMonths => .months 3
  | sixMonths => .months 6
  | twelveMonths => .months 12
  | twoYears => .months 24

/-- `SYNC_RANGE_DEFINITIONS`, from the narrowest range. -/
def all : List SyncRange := [oneWeek, oneMonth, threeMonths, sixMonths, twelveMonths, twoYears]

/-- `getSyncRangeOrder`. -/
def order (range : SyncRange) : ℕ := all.idxOf range

def allows (text : String) : Bool := all.any (·.value = text)

theorem value_injective {range range' : SyncRange} (h : range.value = range'.value) : range = range' := by
  cases range <;> cases range' <;> first | rfl | exact absurd h (by decide)

end SyncRange

structure RequiredSourceRanges where
  futureRange : SyncRange
  historicRange : SyncRange

/-! ## Windows -/

def createSyncWindow : JsDate → JsDate → Except RangeError SyncWindow
  | some timeMin, some timeMax =>
    if timeMax ≤ timeMin then .error "Sync window start must be before its end"
    else .ok ⟨timeMin, timeMax⟩
  | _, _ => .error "Sync window boundaries must be valid dates"

def getStartOfToday (now : ℤ) : ℤ := floorToUtcDay now

def shiftDateByMonths (date months : ℤ) : JsDate := do
  let desiredDay := getUTCDate date
  let shifted ← setUTCDate date 1
  let shifted ← setUTCMonth shifted (getUTCMonth shifted + months)
  let lastDayOfTargetMonth ← utcDate (getUTCFullYear shifted) (getUTCMonth shifted + 1) 0
  setUTCDate shifted (min desiredDay (getUTCDate lastDayOfTargetMonth))

def shiftDateByRange (date : ℤ) (range : SyncRange) (direction : ℤ) : JsDate :=
  match range.shift with
  | .days amount => setUTCDate date (getUTCDate date + direction * amount)
  | .months amount => shiftDateByMonths date (direction * amount)

def getConfigurableSyncWindow (historicRange futureRange : SyncRange) (now : ℤ) :
    Except RangeError SyncWindow :=
  let anchor := getStartOfToday now
  createSyncWindow (shiftDateByRange anchor historicRange (-1)) (shiftDateByRange anchor futureRange 1)

structure SourceIngestionPlan extends RequiredSourceRanges where
  window : SyncWindow

def createSourceIngestionPlan (ranges : RequiredSourceRanges) (now : ℤ) :
    Except RangeError SourceIngestionPlan := do
  let window ← getConfigurableSyncWindow ranges.historicRange ranges.futureRange now
  return { ranges with window }

theorem createSyncWindow_ok {timeMin timeMax : JsDate} {w : SyncWindow}
    (h : createSyncWindow timeMin timeMax = .ok w) :
    timeMin = some w.timeMin ∧ timeMax = some w.timeMax ∧ w.timeMin < w.timeMax := by
  unfold createSyncWindow at h
  split at h
  · split_ifs at h with horder
    obtain rfl := Except.ok.inj h
    exact ⟨rfl, rfl, not_le.1 horder⟩
  · cases h

/-! ## Shifted days -/

def lastDayOfMonth (m : ℤ) : ℤ := monthLength (makeFullYear (m / 12) * 12 + m % 12)

def shiftedByMonths (months z : ℤ) : ℤ :=
  firstDay (monthIndex z + months) +
    (min (civilFromDays z).day (lastDayOfMonth (monthIndex z + months)) - 1)

theorem lastDayOfMonth_bounds (m : ℤ) : 28 ≤ lastDayOfMonth m ∧ lastDayOfMonth m ≤ monthLength m := by
  have hle : monthLength (makeFullYear (m / 12) * 12 + m % 12) ≤ monthLength (m / 12 * 12 + m % 12) :=
    monthLength_makeFullYear_le (by omega)
  have hindex : m / 12 * 12 + m % 12 = m := by omega
  rw [hindex] at hle
  have hlong := (monthLength_bounds (makeFullYear (m / 12) * 12 + m % 12)).1
  unfold lastDayOfMonth
  omega

/-- **A day is shifted by months** to the same day of its target month, or to that month's last. -/
theorem shiftDateByMonths_eq {date months s : ℤ} (h : shiftDateByMonths date months = some s) :
    s / 86400000 = shiftedByMonths months (date / 86400000) ∧ s % 86400000 = date % 86400000 := by
  unfold shiftDateByMonths at h
  simp only [Option.bind_eq_bind, Option.bind_eq_some_iff] at h
  obtain ⟨first, hfirst, target, htarget, last, hlast, hset⟩ := h
  obtain ⟨hfirstDay, hfirstTime⟩ := setUTCDate_eq hfirst
  obtain ⟨htargetDay, htargetTime⟩ := setUTCMonth_eq htarget
  obtain ⟨hsetDay, hsetTime⟩ := setUTCDate_eq hset
  have hfirstMonth : monthIndex (first / 86400000) = monthIndex (date / 86400000) := by
    have hlong := (monthLength_bounds (monthIndex (date / 86400000))).1
    rw [monthIndex_eq_iff]
    unfold monthLength at hlong
    omega
  have hindex : getUTCFullYear first * 12 + (getUTCMonth first + months) =
      monthIndex (date / 86400000) + months := by
    rw [← add_assoc, year_month_eq, hfirstMonth]
  have hfirstDate : getUTCDate first = 1 := by
    rw [getUTCDate_eq hfirstMonth]
    omega
  rw [hindex, hfirstDate] at htargetDay
  have htargetMonth : monthIndex (target / 86400000) = monthIndex (date / 86400000) + months := by
    have hlong := (monthLength_bounds (monthIndex (date / 86400000) + months)).1
    rw [monthIndex_eq_iff]
    unfold monthLength at hlong
    omega
  have hyear := year_month_eq target
  rw [htargetMonth] at hyear hsetDay
  have hmonth : 0 ≤ getUTCMonth target ∧ getUTCMonth target < 12 := by
    have hbounds := (civilFromDays_bounds (target / 86400000)).1
    unfold getUTCMonth
    omega
  have hlastDay : getUTCDate last = lastDayOfMonth (monthIndex (date / 86400000) + months) := by
    rw [getUTCDate_utcDate_zero hlast, lastDayOfMonth]
    have hdiv : (monthIndex (date / 86400000) + months) / 12 = getUTCFullYear target := by omega
    have hmod : (monthIndex (date / 86400000) + months) % 12 = getUTCMonth target := by omega
    rw [hdiv, hmod]
  rw [hlastDay] at hsetDay
  exact ⟨hsetDay, by omega⟩

theorem monthIndex_shiftedByMonths (months z : ℤ) :
    monthIndex (shiftedByMonths months z) = monthIndex z + months := by
  have hlast := lastDayOfMonth_bounds (monthIndex z + months)
  have hday := (civilFromDays_bounds z).2.1
  rw [monthIndex_eq_iff]
  unfold shiftedByMonths
  unfold monthLength at hlast
  omega

theorem shiftedByMonths_mono (months : ℤ) {y z : ℤ} (h : y ≤ z) :
    shiftedByMonths months y ≤ shiftedByMonths months z := by
  rcases (monthIndex_mono h).lt_or_eq with hlt | heq
  · by_contra hgt
    have hle := monthIndex_mono (not_le.1 hgt).le
    rw [monthIndex_shiftedByMonths, monthIndex_shiftedByMonths] at hle
    omega
  · have hy := firstDay_monthIndex y
    have hz := firstDay_monthIndex z
    unfold shiftedByMonths
    rw [heq] at hy ⊢
    omega

namespace SyncRange

def shiftedDay (range : SyncRange) (direction z : ℤ) : ℤ :=
  match range.shift with
  | .days amount => z + direction * amount
  | .months amount => shiftedByMonths (direction * amount) z

/-- **A range shifts the day of a date** and keeps its time. -/
theorem shiftDateByRange_eq {date direction s : ℤ} {range : SyncRange}
    (h : shiftDateByRange date range direction = some s) :
    s / 86400000 = range.shiftedDay direction (date / 86400000) ∧ s % 86400000 = date % 86400000 := by
  unfold shiftDateByRange at h
  unfold shiftedDay
  cases hshift : range.shift with
  | days amount =>
    rw [hshift] at h
    obtain ⟨hday, htime⟩ := setUTCDate_eq h
    have hdate := firstDay_getUTCDate date
    exact ⟨by dsimp only; omega, htime⟩
  | months amount =>
    rw [hshift] at h
    exact shiftDateByMonths_eq h

theorem shiftedDay_mono (range : SyncRange) (direction : ℤ) {y z : ℤ} (h : y ≤ z) :
    range.shiftedDay direction y ≤ range.shiftedDay direction z := by
  unfold shiftedDay
  cases range.shift with
  | days amount => exact add_le_add_left h _
  | months amount => exact shiftedByMonths_mono _ h

end SyncRange

/-! ## The windows of ranges -/

theorem getConfigurableSyncWindow_ok {historicRange futureRange : SyncRange} {now : ℤ} {w : SyncWindow}
    (h : getConfigurableSyncWindow historicRange futureRange now = .ok w) :
    w.timeMin = historicRange.shiftedDay (-1) (now / 86400000) * 86400000 ∧
      w.timeMax = futureRange.shiftedDay 1 (now / 86400000) * 86400000 := by
  obtain ⟨hmin, hmax, -⟩ := createSyncWindow_ok h
  have hday : getStartOfToday now / 86400000 = now / 86400000 := by
    unfold getStartOfToday floorToUtcDay msPerDay
    omega
  have htime : getStartOfToday now % 86400000 = 0 := by
    unfold getStartOfToday floorToUtcDay msPerDay
    omega
  have hstart := SyncRange.shiftDateByRange_eq hmin
  have hend := SyncRange.shiftDateByRange_eq hmax
  rw [hday, htime] at hstart hend
  omega

/-- **The window of a later date** begins and ends no earlier. -/
theorem getConfigurableSyncWindow_mono {historicRange futureRange : SyncRange} {now now' : ℤ}
    {w w' : SyncWindow} (hday : now / 86400000 ≤ now' / 86400000)
    (h : getConfigurableSyncWindow historicRange futureRange now = .ok w)
    (h' : getConfigurableSyncWindow historicRange futureRange now' = .ok w') :
    w.timeMin ≤ w'.timeMin ∧ w.timeMax ≤ w'.timeMax := by
  obtain ⟨hmin, hmax⟩ := getConfigurableSyncWindow_ok h
  obtain ⟨hmin', hmax'⟩ := getConfigurableSyncWindow_ok h'
  have hstart := historicRange.shiftedDay_mono (-1) hday
  have hend := futureRange.shiftedDay_mono 1 hday
  omega

example : getConfigurableSyncWindow .oneMonth .oneWeek 1774958400000 =
    .ok ⟨1772236800000, 1775520000000⟩ := by decide +kernel

end Keeper
