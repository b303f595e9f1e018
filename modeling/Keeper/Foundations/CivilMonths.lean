import Keeper.Foundations.DateText
import Mathlib.Algebra.Order.Group.Int
import Mathlib.Algebra.Order.SuccPred
import Mathlib.Data.Int.ConditionallyCompleteOrder
import Mathlib.Order.Monotone.Basic

/-!
# Calendar months

The months of the civil calendar, counted from the January of year 0, and the days that they are made of.

* `monthIndex_eq_iff`: a day is of the month between whose first day and the next month's it lies.
* `strictMono_firstDay`, `monthIndex_mono`: months follow one another as their days do.
-/

namespace Keeper

namespace Date

def monthIndex (z : ℤ) : ℤ := (civilFromDays z).year * 12 + ((civilFromDays z).month - 1)

def firstDay (m : ℤ) : ℤ := daysFromCivil ⟨m / 12, m % 12 + 1, 1⟩

def monthLength (m : ℤ) : ℤ := firstDay (m + 1) - firstDay m

theorem firstDay_monthIndex (z : ℤ) : firstDay (monthIndex z) + ((civilFromDays z).day - 1) = z := by
  obtain ⟨hmonth, -⟩ := civilFromDays_bounds z
  have hyear : monthIndex z / 12 = (civilFromDays z).year := by
    unfold monthIndex
    omega
  have hmod : monthIndex z % 12 + 1 = (civilFromDays z).month := by
    unfold monthIndex
    omega
  rw [firstDay, hyear, hmod, ← add_sub_assoc, daysFromCivil_day, daysFromCivil_civilFromDays]

theorem monthLength_eq (year : ℤ) {k : ℤ} (hk : 0 ≤ k ∧ k < 12) :
    monthLength (year * 12 + k) = (if k = 11 then daysFromCivil ⟨year + 1, 1, 1⟩
      else daysFromCivil ⟨year, k + 2, 1⟩) - daysFromCivil ⟨year, k + 1, 1⟩ := by
  have hyear : (year * 12 + k) / 12 = year := by omega
  have hmonth : (year * 12 + k) % 12 = k := by omega
  unfold monthLength firstDay
  rw [hyear, hmonth]
  split_ifs with hlast
  · subst hlast
    have hyear' : (year * 12 + 11 + 1) / 12 = year + 1 := by omega
    have hmonth' : (year * 12 + 11 + 1) % 12 + 1 = 1 := by omega
    rw [hyear', hmonth']
  · have hyear' : (year * 12 + k + 1) / 12 = year := by omega
    have hmonth' : (year * 12 + k + 1) % 12 + 1 = k + 2 := by omega
    rw [hyear', hmonth']

theorem monthLength_bounds (m : ℤ) : 28 ≤ monthLength m ∧ monthLength m ≤ 31 := by
  obtain ⟨year, k, hk, rfl⟩ : ∃ year k : ℤ, (0 ≤ k ∧ k < 12) ∧ m = year * 12 + k :=
    ⟨m / 12, m % 12, by omega, by omega⟩
  rw [monthLength_eq year hk]
  simp only [daysFromCivil]
  split_ifs <;> omega

theorem strictMono_firstDay : StrictMono firstDay := by
  refine strictMono_int_of_lt_succ fun m => ?_
  have hlength := (monthLength_bounds m).1
  unfold monthLength at hlength
  omega

/-- The first day of the March of a year, counted from that of year 0. -/
def marchStart (year : ℤ) : ℤ :=
  year / 400 * 146097 + (year % 400 * 365 + year % 400 / 4 - year % 400 / 100)

theorem firstDay_fromMarch (year : ℤ) {mp : ℤ} (hmp : 0 ≤ mp ∧ mp ≤ 11) :
    firstDay (year * 12 + mp + 2) = marchStart year + (153 * mp + 2) / 5 - 719468 := by
  unfold firstDay marchStart
  by_cases hlate : mp < 10
  · have hyear : (year * 12 + mp + 2) / 12 = year := by omega
    have hmonth : (year * 12 + mp + 2) % 12 + 1 = mp + 3 := by omega
    rw [hyear, hmonth]
    simp only [daysFromCivil]
    split_ifs <;> omega
  · have hyear : (year * 12 + mp + 2) / 12 = year + 1 := by omega
    have hmonth : (year * 12 + mp + 2) % 12 + 1 = mp - 9 := by omega
    rw [hyear, hmonth]
    simp only [daysFromCivil]
    split_ifs <;> omega

/-- The year of a day lies in the March-based year between whose first day and the next's it lies. -/
theorem exists_marchYear (z : ℤ) : ∃ year mp doy, monthIndex z = year * 12 + mp + 2 ∧
    mp = (5 * doy + 2) / 153 ∧ (0 ≤ doy ∧ doy ≤ 365) ∧ z = marchStart year + doy - 719468 ∧
      marchStart year + doy < marchStart (year + 1) := by
  obtain ⟨era, c, q, y, doy, h, hc, hq, hy, hd, hz, hleap⟩ := civilFromDays_eq z
  have hyear : (era * 400 + c * 100 + q * 4 + y) / 400 = era ∧
      (era * 400 + c * 100 + q * 4 + y) % 400 = c * 100 + q * 4 + y := by omega
  have hstart : marchStart (era * 400 + c * 100 + q * 4 + y) =
      era * 146097 + c * 36524 + q * 1461 + y * 365 := by
    unfold marchStart
    rw [hyear.1, hyear.2]
    omega
  refine ⟨era * 400 + c * 100 + q * 4 + y, (5 * doy + 2) / 153, doy, ?_, rfl, hd, by omega, ?_⟩
  · unfold monthIndex
    rw [h]
    simp only [civilOfParts]
    split_ifs <;> omega
  · rw [hstart]
    by_cases hera : c * 100 + q * 4 + y = 399
    · have hnext : marchStart (era * 400 + c * 100 + q * 4 + y + 1) = (era + 1) * 146097 := by
        have hyear' : era * 400 + c * 100 + q * 4 + y + 1 = (era + 1) * 400 := by omega
        unfold marchStart
        rw [hyear']
        omega
      omega
    · have hnext : marchStart (era * 400 + c * 100 + q * 4 + y + 1) = era * 146097 +
          ((c * 100 + q * 4 + y + 1) * 365 + (c * 100 + q * 4 + y + 1) / 4 -
            (c * 100 + q * 4 + y + 1) / 100) := by
        have hyear' : (era * 400 + c * 100 + q * 4 + y + 1) / 400 = era ∧
            (era * 400 + c * 100 + q * 4 + y + 1) % 400 = c * 100 + q * 4 + y + 1 := by omega
        unfold marchStart
        rw [hyear'.1, hyear'.2]
      omega

theorem lt_firstDay_succ (z : ℤ) : z < firstDay (monthIndex z + 1) := by
  obtain ⟨year, mp, doy, hmonth, hmp, hdoy, hz, hnext⟩ := exists_marchYear z
  rw [hmonth]
  by_cases hlast : mp = 11
  · have hindex : year * 12 + mp + 2 + 1 = (year + 1) * 12 + 0 + 2 := by omega
    rw [hindex, firstDay_fromMarch (year + 1) (by omega)]
    omega
  · have hindex : year * 12 + mp + 2 + 1 = year * 12 + (mp + 1) + 2 := by omega
    rw [hindex, firstDay_fromMarch year (by omega)]
    omega

/-- **A day is of the month** between whose first day and the next month's it lies. -/
theorem monthIndex_eq_iff {z m : ℤ} :
    monthIndex z = m ↔ firstDay m ≤ z ∧ z < firstDay (m + 1) := by
  have hfirst : firstDay (monthIndex z) ≤ z := by
    have hday := (civilFromDays_bounds z).2.1
    have hz := firstDay_monthIndex z
    omega
  constructor
  · rintro rfl
    exact ⟨hfirst, lt_firstDay_succ z⟩
  · rintro ⟨hle, hlt⟩
    have hlo : firstDay m < firstDay (monthIndex z + 1) := hle.trans_lt (lt_firstDay_succ z)
    have hhi : firstDay (monthIndex z) < firstDay (m + 1) := hfirst.trans_lt hlt
    rw [strictMono_firstDay.lt_iff_lt] at hlo hhi
    omega

theorem monthIndex_mono {y z : ℤ} (h : y ≤ z) : monthIndex y ≤ monthIndex z := by
  have hlo := (monthIndex_eq_iff.1 (rfl : monthIndex y = _)).1
  have hhi := (monthIndex_eq_iff.1 (rfl : monthIndex z = _)).2
  have hlt : firstDay (monthIndex y) < firstDay (monthIndex z + 1) := by omega
  rw [strictMono_firstDay.lt_iff_lt] at hlt
  omega

end Date

end Keeper
