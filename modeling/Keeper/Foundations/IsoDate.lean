import Mathlib.Data.Nat.Log
import Mathlib.Tactic.SplitIfs
import Mathlib.Tactic.Ring

/-!
# Instants and their ISO strings

An instant is an integer, the milliseconds since the Unix epoch. `toISOString` prints it as ECMAScript
does, `YYYY-MM-DDTHH:mm:ss.sssZ` in UTC, with a sign and at least six digits for a year outside
`0 .. 9999`.

* `daysFromCivil_civilFromDays`: the civil date of a day determines the day.
* `toISOString_injective`: the string determines the instant.
* `not_mem_toISOString`: the string is free of separator characters such as `|`.
-/

namespace Keeper

namespace Date

/-! ## Civil dates -/

/-- Year, month and day of month. -/
structure Civil where
  year : ℤ
  month : ℤ
  day : ℤ
  deriving DecidableEq

/-- The civil date of day `doy` (counted from 1 March) of year `y` of the `q`-th four years of
century `c` of a 400-year era. Years start in March, so that leap days come last. -/
def civilOfParts (era c q y doy : ℤ) : Civil :=
  let mp := (5 * doy + 2) / 153
  let month := if mp < 10 then mp + 3 else mp - 9
  { year := era * 400 + c * 100 + q * 4 + y + if month ≤ 2 then 1 else 0
    month
    day := doy - (153 * mp + 2) / 5 + 1 }

def civilFromDays (z : ℤ) : Civil :=
  let dayOfEra := (z + 719468) % 146097
  let c := min (dayOfEra / 36524) 3
  let dayOfCentury := dayOfEra - c * 36524
  let q := dayOfCentury / 1461
  let dayOfQuad := dayOfCentury - q * 1461
  let y := min (dayOfQuad / 365) 3
  civilOfParts ((z + 719468) / 146097) c q y (dayOfQuad - y * 365)

def daysFromCivil (c : Civil) : ℤ :=
  let year := if c.month ≤ 2 then c.year - 1 else c.year
  let mp := if c.month ≤ 2 then c.month + 9 else c.month - 3
  year / 400 * 146097 + (year % 400 * 365 + year % 400 / 4 - year % 400 / 100) +
    ((153 * mp + 2) / 5 + c.day - 1) - 719468

/-- The parts of a day of an era are in range and add up, and only leap years have a 366th day. -/
theorem civilFromDays_eq (z : ℤ) : ∃ era c q y doy, civilFromDays z = civilOfParts era c q y doy ∧
    (0 ≤ c ∧ c ≤ 3) ∧ (0 ≤ q ∧ q ≤ 24) ∧ (0 ≤ y ∧ y ≤ 3) ∧ (0 ≤ doy ∧ doy ≤ 365) ∧
      era * 146097 + c * 36524 + q * 1461 + y * 365 + doy = z + 719468 ∧
        (doy = 365 → y = 3 ∧ (q < 24 ∨ c = 3)) :=
  ⟨_, _, _, _, _, rfl, by omega, by omega, by omega, by omega, by omega, by omega⟩

theorem daysFromCivil_civilOfParts {era c q y doy : ℤ} (hc : 0 ≤ c ∧ c ≤ 3) (hq : 0 ≤ q ∧ q ≤ 24)
    (hy : 0 ≤ y ∧ y ≤ 3) (hd : 0 ≤ doy ∧ doy ≤ 365) :
    daysFromCivil (civilOfParts era c q y doy) =
      era * 146097 + c * 36524 + q * 1461 + y * 365 + doy - 719468 := by
  simp only [civilOfParts, daysFromCivil]
  have hmp : 0 ≤ (5 * doy + 2) / 153 ∧ (5 * doy + 2) / 153 ≤ 11 := by omega
  -- the March-based year of the era splits back into century, quad and year
  have hyear : (era * 400 + c * 100 + q * 4 + y) / 400 = era ∧
      (era * 400 + c * 100 + q * 4 + y) % 400 = c * 100 + q * 4 + y := by omega
  by_cases hm : (5 * doy + 2) / 153 < 10
  · simp only [hm, if_true, show ¬ (5 * doy + 2) / 153 + 3 ≤ 2 by omega, if_false, add_zero,
      add_sub_cancel_right, hyear.1, hyear.2]
    omega
  · simp only [hm, if_false, show (5 * doy + 2) / 153 - 9 ≤ 2 by omega, if_true,
      add_sub_cancel_right, sub_add_cancel, hyear.1, hyear.2]
    omega

theorem daysFromCivil_civilFromDays (z : ℤ) : daysFromCivil (civilFromDays z) = z := by
  obtain ⟨era, c, q, y, doy, h, hc, hq, hy, hd, hz, -⟩ := civilFromDays_eq z
  rw [h, daysFromCivil_civilOfParts hc hq hy hd, hz]
  ring

theorem civilFromDays_injective {y z : ℤ} (h : civilFromDays y = civilFromDays z) : y = z := by
  rw [← daysFromCivil_civilFromDays y, h, daysFromCivil_civilFromDays]

theorem civilFromDays_bounds (z : ℤ) :
    (1 ≤ (civilFromDays z).month ∧ (civilFromDays z).month ≤ 12) ∧
      1 ≤ (civilFromDays z).day ∧ (civilFromDays z).day ≤ 31 := by
  obtain ⟨era, c, q, y, doy, h, -, -, -, hd, -⟩ := civilFromDays_eq z
  simp only [h, civilOfParts]
  split_ifs <;> omega

/-! ## Decimal digits -/

def digitChar (n : ℕ) : Char := Char.ofNat (48 + n % 10)

/-- The last `w` decimal digits of `n`. -/
def digits : ℕ → ℕ → List Char
  | 0, _ => []
  | w + 1, n => digits w (n / 10) ++ [digitChar n]

def ofDigits (l : List Char) : ℕ := l.foldl (fun acc c => acc * 10 + (c.toNat - 48)) 0

theorem toNat_digitChar (n : ℕ) : (digitChar n).toNat = 48 + n % 10 := by
  have key : ∀ d < 10, (Char.ofNat (48 + d)).toNat = 48 + d := by decide
  exact key _ (Nat.mod_lt _ (by decide))

@[simp] theorem length_digits (w n : ℕ) : (digits w n).length = w := by
  induction w generalizing n with
  | zero => rfl
  | succ w ih => simp [digits, ih]

theorem ofDigits_digits (w n : ℕ) : ofDigits (digits w n) = n % 10 ^ w := by
  induction w generalizing n with
  | zero => simp [digits, ofDigits, Nat.mod_one]
  | succ w ih =>
    have h := ih (n / 10)
    simp only [ofDigits] at h
    simp only [digits, ofDigits, List.foldl_append, List.foldl_cons, List.foldl_nil, h,
      toNat_digitChar]
    rw [show 10 ^ (w + 1) = 10 * 10 ^ w by ring, Nat.mod_mul]
    omega

theorem digits_injective {w m n : ℕ} (hm : m < 10 ^ w) (hn : n < 10 ^ w)
    (h : digits w m = digits w n) : m = n := by
  have := congrArg ofDigits h
  rwa [ofDigits_digits, ofDigits_digits, Nat.mod_eq_of_lt hm, Nat.mod_eq_of_lt hn] at this

theorem mem_digits {w n : ℕ} {c : Char} (h : c ∈ digits w n) : 48 ≤ c.toNat ∧ c.toNat ≤ 57 := by
  induction w generalizing n with
  | zero => simp [digits] at h
  | succ w ih =>
    simp only [digits, List.mem_append, List.mem_singleton] at h
    rcases h with h | rfl
    · exact ih h
    · rw [toNat_digitChar]
      omega

/-! ## ISO strings -/

/-- The digits of a year outside `0 .. 9999`: at least six. -/
def extendedYear (n : ℕ) : List Char := digits (max 6 (Nat.log 10 n + 1)) n

def isoYear (y : ℤ) : List Char :=
  if 0 ≤ y ∧ y ≤ 9999 then digits 4 y.toNat
  else if 0 ≤ y then '+' :: extendedYear y.toNat
  else '-' :: extendedYear (-y).toNat

/-- The part of an ISO string after the year: month, day and time of day. -/
def isoTail (month day msOfDay : ℕ) : List Char :=
  '-' :: digits 2 month ++ '-' :: digits 2 day ++ 'T' :: digits 2 (msOfDay / 3600000) ++
    ':' :: digits 2 (msOfDay / 60000 % 60) ++ ':' :: digits 2 (msOfDay / 1000 % 60) ++
    '.' :: digits 3 (msOfDay % 1000) ++ ['Z']

def isoChars (t : ℤ) : List Char :=
  let c := civilFromDays (t / 86400000)
  isoYear c.year ++ isoTail c.month.toNat c.day.toNat (t % 86400000).toNat

def toISOString (t : ℤ) : String := String.ofList (isoChars t)

theorem ofDigits_extendedYear (n : ℕ) : ofDigits (extendedYear n) = n := by
  rw [extendedYear, ofDigits_digits, Nat.mod_eq_of_lt]
  calc n < 10 ^ (Nat.log 10 n + 1) := Nat.lt_pow_succ_log_self (by decide) n
    _ ≤ 10 ^ max 6 (Nat.log 10 n + 1) := Nat.pow_le_pow_right (by decide) (le_max_right ..)

theorem extendedYear_injective {m n : ℕ} (h : extendedYear m = extendedYear n) : m = n := by
  rw [← ofDigits_extendedYear m, h, ofDigits_extendedYear]

theorem digits_ne_sign {w n : ℕ} {c : Char} {l : List Char} (hc : c.toNat < 48) :
    digits w n ≠ c :: l := fun h => by
  have := (mem_digits (w := w) (n := n) (c := c) (by rw [h]; simp)).1
  omega

theorem isoYear_injective {y z : ℤ} (h : isoYear y = isoYear z) : y = z := by
  simp only [isoYear] at h
  split_ifs at h
  · have := digits_injective (by omega) (by omega) h
    omega
  · exact absurd h (digits_ne_sign (by decide))
  · exact absurd h (digits_ne_sign (by decide))
  · exact absurd h.symm (digits_ne_sign (by decide))
  · have := extendedYear_injective (List.cons.inj h).2
    omega
  · exact absurd (List.cons.inj h).1 (by decide)
  · exact absurd h.symm (digits_ne_sign (by decide))
  · exact absurd (List.cons.inj h).1 (by decide)
  · have := extendedYear_injective (List.cons.inj h).2
    omega

theorem length_isoTail (month day ms : ℕ) : (isoTail month day ms).length = 20 := by
  simp [isoTail]

theorem isoTail_injective {m d s m' d' s' : ℕ} (hm : m < 100) (hm' : m' < 100) (hd : d < 100)
    (hd' : d' < 100) (hs : s < 86400000) (hs' : s' < 86400000)
    (h : isoTail m d s = isoTail m' d' s') : m = m' ∧ d = d' ∧ s = s' := by
  simp only [isoTail, List.append_assoc, List.cons_append, List.cons.injEq, true_and] at h
  obtain ⟨h₁, h⟩ := List.append_inj h (by simp)
  obtain ⟨h₂, h⟩ := List.append_inj (List.cons.inj h).2 (by simp)
  obtain ⟨h₃, h⟩ := List.append_inj (List.cons.inj h).2 (by simp)
  obtain ⟨h₄, h⟩ := List.append_inj (List.cons.inj h).2 (by simp)
  obtain ⟨h₅, h⟩ := List.append_inj (List.cons.inj h).2 (by simp)
  obtain ⟨h₆, -⟩ := List.append_inj (List.cons.inj h).2 (by simp)
  have h₃' := digits_injective (by omega) (by omega) h₃
  have h₄' := digits_injective (by omega) (by omega) h₄
  have h₅' := digits_injective (by omega) (by omega) h₅
  have h₆' := digits_injective (by omega) (by omega) h₆
  exact ⟨digits_injective hm hm' h₁, digits_injective hd hd' h₂, by omega⟩

/-- **The ISO string determines the instant.** -/
theorem toISOString_injective {s t : ℤ} (h : toISOString s = toISOString t) : s = t := by
  have h' : isoChars s = isoChars t := String.ofList_inj.1 h
  simp only [isoChars] at h'
  obtain ⟨hy, ht⟩ := List.append_inj' h' (by simp [length_isoTail])
  have hs := civilFromDays_bounds (s / 86400000)
  have ht' := civilFromDays_bounds (t / 86400000)
  obtain ⟨h₁, h₂, h₃⟩ := isoTail_injective (by omega) (by omega) (by omega) (by omega) (by omega)
    (by omega) ht
  have hdays : s / 86400000 = t / 86400000 := by
    refine civilFromDays_injective ?_
    have h₀ := isoYear_injective hy
    have h₁' : (civilFromDays (s / 86400000)).month = (civilFromDays (t / 86400000)).month := by
      omega
    have h₂' : (civilFromDays (s / 86400000)).day = (civilFromDays (t / 86400000)).day := by
      omega
    cases hcs : civilFromDays (s / 86400000)
    cases hct : civilFromDays (t / 86400000)
    simp_all
  have hmod : s % 86400000 = t % 86400000 := by omega
  calc s = 86400000 * (s / 86400000) + s % 86400000 := (Int.mul_ediv_add_emod s _).symm
    _ = t := by rw [hdays, hmod, Int.mul_ediv_add_emod]

/-- The years that an ISO string spells with four digits. -/
def InIsoYears (t : ℤ) : Prop :=
  0 ≤ (civilFromDays (t / 86400000)).year ∧ (civilFromDays (t / 86400000)).year ≤ 9999

instance (t : ℤ) : Decidable (InIsoYears t) := inferInstanceAs (Decidable (_ ∧ _))

/-- The instant of an ISO string whose year has four digits. -/
def ofISOString (s : String) : Option ℤ :=
  let cs := s.toList
  let part := fun i length => (ofDigits ((cs.drop i).take length) : ℤ)
  let t := daysFromCivil ⟨part 0 4, part 5 2, part 8 2⟩ * 86400000 + part 11 2 * 3600000 +
    part 14 2 * 60000 + part 17 2 * 1000 + part 20 3
  if toISOString t = s then some t else none

theorem ofDigits_part {cs : List Char} (i w n : ℕ) (h : (cs.drop i).take w = digits w n)
    (hn : n < 10 ^ w) : ofDigits ((cs.drop i).take w) = n := by
  rw [h, ofDigits_digits, Nat.mod_eq_of_lt hn]

/-- **An ISO string is read back.** -/
theorem ofISOString_toISOString {t : ℤ} (ht : InIsoYears t) :
    ofISOString (toISOString t) = some t := by
  have hdays := daysFromCivil_civilFromDays (t / 86400000)
  have hb := civilFromDays_bounds (t / 86400000)
  obtain ⟨hy₀, hy₁⟩ := ht
  generalize hc : civilFromDays (t / 86400000) = c at hdays hb hy₀ hy₁
  have hs : (t % 86400000).toNat < 86400000 := by omega
  have hcs : (toISOString t).toList =
      digits 4 c.year.toNat ++ isoTail c.month.toNat c.day.toNat (t % 86400000).toNat := by
    rw [toISOString, String.toList_ofList, isoChars, hc, isoYear, if_pos ⟨hy₀, hy₁⟩]
  generalize hms : (t % 86400000).toNat = s at hs hcs
  have hyear := ofDigits_part 0 4 (c.year.toNat)
    (show ((toISOString t).toList.drop 0).take 4 = _ by rw [hcs]; rfl) (by omega)
  have hmonth := ofDigits_part 5 2 (c.month.toNat)
    (show ((toISOString t).toList.drop 5).take 2 = _ by rw [hcs]; rfl) (by omega)
  have hday := ofDigits_part 8 2 (c.day.toNat)
    (show ((toISOString t).toList.drop 8).take 2 = _ by rw [hcs]; rfl) (by omega)
  have hhour := ofDigits_part 11 2 (s / 3600000)
    (show ((toISOString t).toList.drop 11).take 2 = _ by rw [hcs]; rfl) (by omega)
  have hminute := ofDigits_part 14 2 (s / 60000 % 60)
    (show ((toISOString t).toList.drop 14).take 2 = _ by rw [hcs]; rfl) (by omega)
  have hsecond := ofDigits_part 17 2 (s / 1000 % 60)
    (show ((toISOString t).toList.drop 17).take 2 = _ by rw [hcs]; rfl) (by omega)
  have hmilli := ofDigits_part 20 3 (s % 1000)
    (show ((toISOString t).toList.drop 20).take 3 = _ by rw [hcs]; rfl) (by omega)
  have hcivil : (⟨(c.year.toNat : ℤ), (c.month.toNat : ℤ), (c.day.toNat : ℤ)⟩ : Civil) = c := by
    obtain ⟨y, m, d⟩ := c
    dsimp only at hy₀ hb ⊢
    simp only [Civil.mk.injEq]
    omega
  have hsum : daysFromCivil c * 86400000 + ((s / 3600000 : ℕ) : ℤ) * 3600000 +
      ((s / 60000 % 60 : ℕ) : ℤ) * 60000 + ((s / 1000 % 60 : ℕ) : ℤ) * 1000 +
      ((s % 1000 : ℕ) : ℤ) = t := by
    rw [hdays]
    omega
  simp only [ofISOString, hyear, hmonth, hday, hhour, hminute, hsecond, hmilli, hcivil, hsum,
    if_true]

/-- Every character of an ISO string is a digit or one of `+ - : . T Z`. -/
theorem not_mem_toISOString {c : Char} (hd : ¬ (48 ≤ c.toNat ∧ c.toNat ≤ 57))
    (hs : c ∉ ['+', '-', ':', '.', 'T', 'Z']) (t : ℤ) : c ∉ (toISOString t).toList := by
  simp only [List.mem_cons, List.not_mem_nil, or_false, not_or] at hs
  obtain ⟨h₁, h₂, h₃, h₄, h₅, h₆⟩ := hs
  have hdig : ∀ w n, c ∉ digits w n := fun w n h => hd (mem_digits h)
  have hyear : ∀ y, c ∉ isoYear y := by
    intro y
    simp only [isoYear, extendedYear]
    split_ifs <;> simp [hdig, h₁, h₂]
  simp [toISOString, isoChars, isoTail, hyear, hdig, h₂, h₃, h₄, h₅, h₆]

example : toISOString 1773050400000 = "2026-03-09T10:00:00.000Z" := by decide

end Date

end Keeper
