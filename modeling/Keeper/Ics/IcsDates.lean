import Keeper.Foundations.DateText
import Keeper.Foundations.JsDate

/-!
# Dates of a calendar text

The date-times and dates that properties hold: `toFloatingIcsDateTime`, `toUtcIcsDateTime` and
`readDateTimeWallTime` of `ics/utils/ics-property.ts`, `isIcsDate` and `readDateWallTime` of
`ics/utils/series-recurrence-references.ts`.

* `readDateTimeWallTime_floating`, `readDateTimeWallTime_utc`: a date-time is read back.
* `readDateWallTime_toIcsDate`: a date is read as its midnight.
-/

namespace Keeper

open Date

/-! ## Writing -/

def padded (value : ℤ) (length : ℕ) : List Char :=
  if 0 ≤ value ∧ value < 10 ^ length then digits length value.toNat
  else (toString value).toList.leftpad length '0'

def toFloatingIcsDateTime (wallTime : ℤ) : List Char :=
  padded (getUTCFullYear wallTime) 4 ++ (padded (getUTCMonth wallTime + 1) 2 ++ (padded (getUTCDate wallTime) 2 ++
    'T' :: (padded (wallTime / 3600000 % 24) 2 ++ (padded (wallTime / 60000 % 60) 2 ++
      padded (wallTime / 1000 % 60) 2))))

def toUtcIcsDateTime (instant : ℤ) : List Char := toFloatingIcsDateTime instant ++ ['Z']

def toIcsDate (midnight : ℤ) : List Char :=
  padded (getUTCFullYear midnight) 4 ++ (padded (getUTCMonth midnight + 1) 2 ++ padded (getUTCDate midnight) 2)

/-! ## Reading -/

/-- `replace(/Z$/i, "")`. -/
def dropZulu (value : List Char) : List Char :=
  if value.getLast?.any fun c => c = 'Z' || c = 'z' then value.dropLast else value

def readDateTimeWallTime (value : List Char) : Option ℤ := do
  let (year, cs) ← readDigits 4 (dropZulu value)
  let (month, cs) ← readDigits 2 cs
  let (day, cs) ← readDigits 2 cs
  let cs ← readChar (· = 'T') cs
  let (hour, cs) ← readDigits 2 cs
  let (minute, cs) ← readDigits 2 cs
  let (second, cs) ← readDigits 2 cs
  if cs = [] then some (utc { year, month, day, hour, minute, second }) else none

def isIcsDate (entry : List Char) : Bool := entry.length = 8 && entry.all (·.isDigit)

/-- `readDateWallTime`; days out of range carry over. -/
def readDateWallTime (date : List Char) (dayOffset : ℤ) : ℤ :=
  utc
    { year := ofDigits (date.take 4)
      month := ofDigits ((date.drop 4).take 2)
      day := ofDigits ((date.drop 6).take 2) } + dayOffset * 86400000

/-! ## What is written is read -/

theorem Date.InFullYears.of_between {s t u : ℤ} (hs : InFullYears s) (ht : InFullYears t) (hsu : s ≤ u) (hut : u ≤ t) :
    InFullYears u := by
  rw [inFullYears_iff] at hs ⊢
  have hlo := monthIndex_mono (show s / 86400000 ≤ u / 86400000 by omega)
  have hhi := monthIndex_mono (show u / 86400000 ≤ t / 86400000 by omega)
  have hbounds := civilFromDays_bounds (u / 86400000)
  have hbounds' := civilFromDays_bounds (s / 86400000)
  have hbounds'' := civilFromDays_bounds (t / 86400000)
  obtain ⟨⟨hfirst, -⟩, hstart⟩ := hs
  obtain ⟨⟨-, hlast⟩, -⟩ := ht
  unfold monthIndex at hlo hhi
  exact ⟨⟨by omega, by omega⟩, by omega⟩

theorem padded_natCast {n w : ℕ} (h : n < 10 ^ w) : padded n w = digits w n := by
  have hlt : (n : ℤ) < 10 ^ w := by exact_mod_cast h
  rw [padded, if_pos ⟨Int.natCast_nonneg n, hlt⟩, Int.toNat_natCast]

variable {t : ℤ}

theorem fields_eq (h : InIsoYears t) : getUTCFullYear t = (fieldsOf t).year ∧
    getUTCMonth t + 1 = (fieldsOf t).month ∧ getUTCDate t = (fieldsOf t).day ∧
    t / 3600000 % 24 = (fieldsOf t).hour ∧ t / 60000 % 60 = (fieldsOf t).minute ∧
    t / 1000 % 60 = (fieldsOf t).second := by
  obtain ⟨hlo, -⟩ := h
  have hbounds := civilFromDays_bounds (t / 86400000)
  simp only [getUTCFullYear, getUTCMonth, getUTCDate, fieldsOf]
  omega

theorem toFloatingIcsDateTime_eq (h : InIsoYears t) :
    toFloatingIcsDateTime t = digits 4 (fieldsOf t).year ++ (digits 2 (fieldsOf t).month ++
      (digits 2 (fieldsOf t).day ++ 'T' :: (digits 2 (fieldsOf t).hour ++ (digits 2 (fieldsOf t).minute ++
        digits 2 (fieldsOf t).second)))) := by
  obtain ⟨hyear, hmonth, hday, hhour, hminute, hsecond, -⟩ := fieldsOf_lt h
  obtain ⟨hyear', hmonth', hday', hhour', hminute', hsecond'⟩ := fields_eq h
  rw [toFloatingIcsDateTime, hyear', hmonth', hday', hhour', hminute', hsecond', padded_natCast hyear,
    padded_natCast hmonth, padded_natCast hday, padded_natCast hhour, padded_natCast hminute, padded_natCast hsecond]

/-- A digit is no `Z`. -/
theorem dropZulu_digits (front : List Char) {w n : ℕ} (hw : 0 < w) :
    dropZulu (front ++ digits w n) = front ++ digits w n := by
  obtain ⟨w, rfl⟩ := Nat.exists_eq_succ_of_ne_zero hw.ne'
  have hlast : (front ++ digits (w + 1) n).getLast? = some (digitChar n) := by
    rw [digits, ← List.append_assoc, List.getLast?_concat]
  have hdigit := isDigit_digitChar n
  rw [dropZulu, hlast]
  refine if_neg ?_
  rw [Option.any_some, Bool.or_eq_true, decide_eq_true_eq, decide_eq_true_eq]
  rintro (heq | heq) <;>
  · rw [heq] at hdigit
    exact absurd hdigit (by decide)

theorem dropZulu_concat (front : List Char) : dropZulu (front ++ ['Z']) = front := by
  rw [dropZulu, List.getLast?_concat]
  exact (if_pos rfl).trans List.dropLast_concat

theorem dropZulu_floating (h : InIsoYears t) : dropZulu (toFloatingIcsDateTime t) = toFloatingIcsDateTime t := by
  have hsplit : ∀ a b c d e f : List Char,
      a ++ (b ++ (c ++ 'T' :: (d ++ (e ++ f)))) = (a ++ (b ++ (c ++ 'T' :: (d ++ e)))) ++ f := by simp
  rw [toFloatingIcsDateTime_eq h, hsplit]
  exact dropZulu_digits _ (by decide)

theorem readDateTimeWallTime_of_dropZulu {value : List Char} (h : InFullYears t) (hseconds : t % 1000 = 0)
    (hvalue : dropZulu value = toFloatingIcsDateTime t) : readDateTimeWallTime value = some t := by
  obtain ⟨hyear, hmonth, hday, hhour, hminute, hsecond, -⟩ := fieldsOf_lt h.1
  have hT : ∀ cs, readChar (· = 'T') ('T' :: cs) = some cs := fun cs => readChar_cons (by decide) cs
  have hlast : readDigits 2 (digits 2 (fieldsOf t).second) = some ((fieldsOf t).second, []) := by
    have := readDigits_digits hsecond []
    rwa [List.append_nil] at this
  have hfields : (⟨(fieldsOf t).year, (fieldsOf t).month, (fieldsOf t).day, (fieldsOf t).hour, (fieldsOf t).minute,
      (fieldsOf t).second, 0⟩ : Fields) = fieldsOf t := by
    have hzero : (fieldsOf t).millisecond = 0 := by
      simp only [fieldsOf]
      omega
    simp only [fieldsOf] at hzero ⊢
    rw [hzero]
  rw [readDateTimeWallTime, hvalue, toFloatingIcsDateTime_eq h.1]
  simp only [readDigits_digits hyear, readDigits_digits hmonth, readDigits_digits hday, hT,
    readDigits_digits hhour, readDigits_digits hminute, hlast, Option.bind_eq_bind, Option.bind_some, if_true]
  rw [hfields, utc_fieldsOf h.1 h.2]

/-- **A wall time is read back** from its floating date-time. -/
theorem readDateTimeWallTime_floating (h : InFullYears t) (hseconds : t % 1000 = 0) :
    readDateTimeWallTime (toFloatingIcsDateTime t) = some t :=
  readDateTimeWallTime_of_dropZulu h hseconds (dropZulu_floating h.1)

/-- **An instant is read back** from its date-time in UTC. -/
theorem readDateTimeWallTime_utc (h : InFullYears t) (hseconds : t % 1000 = 0) :
    readDateTimeWallTime (toUtcIcsDateTime t) = some t :=
  readDateTimeWallTime_of_dropZulu h hseconds (dropZulu_concat _)

theorem toIcsDate_eq (h : InIsoYears t) :
    toIcsDate t = digits 4 (fieldsOf t).year ++ (digits 2 (fieldsOf t).month ++ digits 2 (fieldsOf t).day) := by
  obtain ⟨hyear, hmonth, hday, -⟩ := fieldsOf_lt h
  obtain ⟨hyear', hmonth', hday', -⟩ := fields_eq h
  rw [toIcsDate, hyear', hmonth', hday', padded_natCast hyear, padded_natCast hmonth, padded_natCast hday]

theorem isIcsDate_toIcsDate (h : InIsoYears t) : isIcsDate (toIcsDate t) = true := by
  rw [toIcsDate_eq h, isIcsDate]
  simp only [List.length_append, length_digits, List.all_append, all_isDigit_digits]
  rfl

/-- **A date is read as its midnight**, a number of days later. -/
theorem readDateWallTime_toIcsDate (h : InFullYears t) (dayOffset : ℤ) :
    readDateWallTime (toIcsDate t) dayOffset = t / 86400000 * 86400000 + dayOffset * 86400000 := by
  obtain ⟨hyear, hmonth, hday, -⟩ := fieldsOf_lt h.1
  have htake : (toIcsDate t).take 4 = digits 4 (fieldsOf t).year := by
    rw [toIcsDate_eq h.1]
    exact List.take_left' (length_digits _ _)
  have hdrop : (toIcsDate t).drop 4 = digits 2 (fieldsOf t).month ++ digits 2 (fieldsOf t).day := by
    rw [toIcsDate_eq h.1]
    exact List.drop_left' (length_digits _ _)
  have hdrop' : (toIcsDate t).drop 6 = digits 2 (fieldsOf t).day := by
    rw [show 6 = 4 + 2 from rfl, ← List.drop_drop, hdrop]
    exact List.drop_left' (length_digits _ _)
  have hmidnight : (⟨(fieldsOf t).year, (fieldsOf t).month, (fieldsOf t).day, 0, 0, 0, 0⟩ : Fields) =
      (fieldsOf t).midnight := rfl
  rw [readDateWallTime, htake, hdrop, hdrop', List.take_left' (length_digits _ _),
    List.take_of_length_le (length_digits 2 _).le, ofDigits_digits, ofDigits_digits, ofDigits_digits,
    Nat.mod_eq_of_lt hyear, Nat.mod_eq_of_lt hmonth, Nat.mod_eq_of_lt hday, hmidnight, utc_midnight_fieldsOf h]

example : toUtcIcsDateTime 1767258000000 = "20260101T090000Z".toList := by decide +kernel

end Keeper
