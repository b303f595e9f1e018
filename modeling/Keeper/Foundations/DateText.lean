import Keeper.Foundations.IsoDate

/-!
# Reading date texts

The fields of a date-time text of the form `YYYY-MM-DDTHH:mm:ss.sss`, and the instant that `Date.UTC`
makes of them.

* `readWall_wallChars`: the text of an instant is read as its fields.
* `utc_fieldsOf`: from the year 100 on they give the instant back; `Date.UTC` takes an earlier year as
  one of the twentieth century.
-/

namespace Keeper

namespace Date

/-! ## Readers -/

structure Fields where
  year : ℕ
  month : ℕ
  day : ℕ
  hour : ℕ := 0
  minute : ℕ := 0
  second : ℕ := 0
  millisecond : ℕ := 0
  deriving DecidableEq

def Fields.midnight (fields : Fields) : Fields where
  year := fields.year
  month := fields.month
  day := fields.day

/-- A number of `w` digits at the head of a text. -/
def readDigits (w : ℕ) (cs : List Char) : Option (ℕ × List Char) :=
  if (cs.take w).length = w ∧ (cs.take w).all (·.isDigit) = true then
    some (ofDigits (cs.take w), cs.drop w)
  else none

def readChar (accepts : Char → Bool) : List Char → Option (List Char)
  | c :: cs => if accepts c then some cs else none
  | [] => none

/-- `YYYY-MM-DD` at the head of a text. -/
def readDay (cs : List Char) : Option (Fields × List Char) := do
  let (year, cs) ← readDigits 4 cs
  let cs ← readChar (· = '-') cs
  let (month, cs) ← readDigits 2 cs
  let cs ← readChar (· = '-') cs
  let (day, cs) ← readDigits 2 cs
  return ({ year, month, day }, cs)

/-- The fraction of a second at the head of a text, in milliseconds: none where it has no digit. -/
def readFraction : List Char → ℕ × List Char
  | '.' :: cs =>
    let fraction := cs.takeWhile (·.isDigit)
    if fraction = [] then (0, '.' :: cs)
    else (ofDigits ((fraction ++ ['0', '0', '0']).take 3), cs.dropWhile (·.isDigit))
  | cs => (0, cs)

/-- `YYYY-MM-DDTHH:mm:ss` and a fraction at the head of a text. -/
def readWall (separates : Char → Bool) (cs : List Char) : Option (Fields × List Char) := do
  let (fields, cs) ← readDay cs
  let cs ← readChar separates cs
  let (hour, cs) ← readDigits 2 cs
  let cs ← readChar (· = ':') cs
  let (minute, cs) ← readDigits 2 cs
  let cs ← readChar (· = ':') cs
  let (second, cs) ← readDigits 2 cs
  let (millisecond, cs) := readFraction cs
  return ({ fields with hour, minute, second, millisecond }, cs)

/-- `Date.UTC` of fields: a year below a hundred is one of the twentieth century, and months and days
out of range carry over. Every year of four digits is in the range of dates. -/
def utc (fields : Fields) : ℤ :=
  let year : ℤ := if fields.year < 100 then 1900 + fields.year else fields.year
  let month : ℤ := fields.month - 1
  (daysFromCivil ⟨year + month / 12, month % 12 + 1, 1⟩ + fields.day - 1) * 86400000 +
    fields.hour * 3600000 + fields.minute * 60000 + fields.second * 1000 + fields.millisecond

/-! ## The text of an instant -/

def fieldsOf (t : ℤ) : Fields :=
  let c := civilFromDays (t / 86400000)
  let ms := (t % 86400000).toNat
  { year := c.year.toNat
    month := c.month.toNat
    day := c.day.toNat
    hour := ms / 3600000
    minute := ms / 60000 % 60
    second := ms / 1000 % 60
    millisecond := ms % 1000 }

/-- The characters of the ISO string of an instant up to its `Z`. -/
def wallChars (t : ℤ) : List Char := (isoChars t).dropLast

theorem isoChars_eq (t : ℤ) : isoChars t = wallChars t ++ ['Z'] := by
  have hlast : ∀ l : List Char, (l ++ ['Z']).dropLast = l := fun l => List.dropLast_concat
  rw [wallChars, isoChars, isoTail, ← List.append_assoc, hlast]

theorem exists_wallChars (t : ℤ) : ∃ front n, wallChars t = front ++ '.' :: digits 3 n := by
  have hlast : ∀ l : List Char, (l ++ ['Z']).dropLast = l := fun l => List.dropLast_concat
  rw [wallChars, isoChars, isoTail, ← List.append_assoc, hlast, ← List.append_assoc]
  exact ⟨_, _, rfl⟩

theorem isDigit_digitChar (n : ℕ) : (digitChar n).isDigit = true := by
  have key : ∀ d < 10, (Char.ofNat (48 + d)).isDigit = true := by decide
  exact key _ (Nat.mod_lt _ (by decide))

theorem all_isDigit_digits (w n : ℕ) : (digits w n).all (·.isDigit) = true := by
  induction w generalizing n with
  | zero => rfl
  | succ w ih => rw [digits, List.all_append, ih, List.all_cons, isDigit_digitChar, List.all_nil]; rfl

theorem readDigits_digits {w n : ℕ} (hn : n < 10 ^ w) (cs : List Char) :
    readDigits w (digits w n ++ cs) = some (n, cs) := by
  have htake : (digits w n ++ cs).take w = digits w n := List.take_left' (length_digits w n)
  have hdrop : (digits w n ++ cs).drop w = cs := List.drop_left' (length_digits w n)
  rw [readDigits, htake, hdrop, if_pos ⟨length_digits w n, all_isDigit_digits w n⟩,
    ofDigits_digits, Nat.mod_eq_of_lt hn]

theorem readChar_cons {accepts : Char → Bool} {c : Char} (h : accepts c = true) (cs : List Char) :
    readChar accepts (c :: cs) = some cs := if_pos h

variable {cs : List Char} {t : ℤ}

theorem takeWhile_isDigit_digits (w n : ℕ) (hcs : cs.takeWhile (·.isDigit) = []) :
    (digits w n ++ cs).takeWhile (·.isDigit) = digits w n := by
  rw [List.takeWhile_append_of_pos (List.all_eq_true.1 (all_isDigit_digits w n)), hcs,
    List.append_nil]

theorem dropWhile_isDigit_digits (w n : ℕ) (hcs : cs.takeWhile (·.isDigit) = []) :
    (digits w n ++ cs).dropWhile (·.isDigit) = cs := by
  rw [List.dropWhile_append_of_pos (List.all_eq_true.1 (all_isDigit_digits w n))]
  have hsplit := List.takeWhile_append_dropWhile (p := (·.isDigit)) (l := cs)
  rwa [hcs, List.nil_append] at hsplit

theorem readFraction_digits {n : ℕ} (hn : n < 10 ^ 3) (hcs : cs.takeWhile (·.isDigit) = []) :
    readFraction ('.' :: (digits 3 n ++ cs)) = (n, cs) := by
  have hne : digits 3 n ≠ [] := by
    intro hnil
    have hlength := length_digits 3 n
    rw [hnil] at hlength
    cases hlength
  have htake : (digits 3 n ++ ['0', '0', '0']).take 3 = digits 3 n :=
    List.take_left' (length_digits 3 n)
  rw [readFraction]
  simp only [takeWhile_isDigit_digits 3 n hcs, dropWhile_isDigit_digits 3 n hcs, if_neg hne, htake,
    ofDigits_digits, Nat.mod_eq_of_lt hn]

theorem isoYear_of_inIsoYears (h : InIsoYears t) :
    isoYear (civilFromDays (t / 86400000)).year = digits 4 (fieldsOf t).year := if_pos h

theorem fieldsOf_lt (h : InIsoYears t) :
    (fieldsOf t).year < 10 ^ 4 ∧ (fieldsOf t).month < 10 ^ 2 ∧ (fieldsOf t).day < 10 ^ 2 ∧
      (fieldsOf t).hour < 10 ^ 2 ∧ (fieldsOf t).minute < 10 ^ 2 ∧ (fieldsOf t).second < 10 ^ 2 ∧
      (fieldsOf t).millisecond < 10 ^ 3 := by
  obtain ⟨hlo, hhi⟩ := h
  have hbounds := civilFromDays_bounds (t / 86400000)
  simp only [fieldsOf]
  omega

/-- The ISO string of an instant whose year has four digits, by its fields. -/
theorem isoChars_fieldsOf (h : InIsoYears t) :
    isoChars t = digits 4 (fieldsOf t).year ++ '-' :: (digits 2 (fieldsOf t).month ++
      '-' :: (digits 2 (fieldsOf t).day ++ 'T' :: (digits 2 (fieldsOf t).hour ++
      ':' :: (digits 2 (fieldsOf t).minute ++ ':' :: (digits 2 (fieldsOf t).second ++
      '.' :: (digits 3 (fieldsOf t).millisecond ++ ['Z'])))))) := by
  rw [isoChars, isoYear_of_inIsoYears h, isoTail]
  simp [fieldsOf]

theorem wallChars_fieldsOf (h : InIsoYears t) :
    wallChars t = digits 4 (fieldsOf t).year ++ '-' :: (digits 2 (fieldsOf t).month ++
      '-' :: (digits 2 (fieldsOf t).day ++ 'T' :: (digits 2 (fieldsOf t).hour ++
      ':' :: (digits 2 (fieldsOf t).minute ++ ':' :: (digits 2 (fieldsOf t).second ++
      '.' :: digits 3 (fieldsOf t).millisecond))))) := by
  have hchars := isoChars_fieldsOf h
  rw [isoChars_eq] at hchars
  refine List.append_cancel_right (hchars.trans ?_)
  simp

theorem readDay_digits {y m d : ℕ} (hy : y < 10 ^ 4) (hm : m < 10 ^ 2) (hd : d < 10 ^ 2)
    (cs : List Char) :
    readDay (digits 4 y ++ '-' :: (digits 2 m ++ '-' :: (digits 2 d ++ cs))) =
      some (⟨y, m, d, 0, 0, 0, 0⟩, cs) := by
  simp [readDay, readDigits_digits hy, readDigits_digits hm, readDigits_digits hd, readChar]

/-- **The text of an instant is read as its fields**, with or without its `Z`. -/
theorem readWall_wallChars (h : InIsoYears t) {separates : Char → Bool} (hseparates : separates 'T' = true)
    (hcs : cs.takeWhile (·.isDigit) = []) : readWall separates (wallChars t ++ cs) = some (fieldsOf t, cs) := by
  obtain ⟨hyear, hmonth, hday, hhour, hminute, hsecond, hmillisecond⟩ := fieldsOf_lt h
  have hcolon : ∀ cs, readChar (· = ':') (':' :: cs) = some cs := fun cs => readChar_cons (by decide) cs
  rw [wallChars_fieldsOf h]
  simp only [List.append_assoc, List.cons_append, readWall, readDay_digits hyear hmonth hday,
    readChar_cons hseparates, hcolon, readDigits_digits hhour, readDigits_digits hminute,
    readDigits_digits hsecond, readFraction_digits hmillisecond hcs, Option.bind_eq_bind,
    Option.bind_some, Option.pure_def]

theorem readDay_wallChars (h : InIsoYears t) :
    ∃ rest, readDay (wallChars t) = some ((fieldsOf t).midnight, 'T' :: rest) := by
  obtain ⟨hyear, hmonth, hday, -⟩ := fieldsOf_lt h
  rw [wallChars_fieldsOf h]
  exact ⟨_, readDay_digits hyear hmonth hday _⟩

theorem readDay_take_isoChars (h : InIsoYears t) :
    readDay ((isoChars t).take 10) = some ((fieldsOf t).midnight, []) := by
  obtain ⟨hyear, hmonth, hday, -⟩ := fieldsOf_lt h
  have hsplit : ∀ cs : List Char, digits 4 (fieldsOf t).year ++ '-' ::
      (digits 2 (fieldsOf t).month ++ '-' :: (digits 2 (fieldsOf t).day ++ cs)) =
      (digits 4 (fieldsOf t).year ++ '-' :: (digits 2 (fieldsOf t).month ++
        '-' :: (digits 2 (fieldsOf t).day ++ []))) ++ cs := by simp
  rw [isoChars_fieldsOf h, hsplit, List.take_left' (by simp), readDay_digits hyear hmonth hday]
  rfl

theorem readDigits_eq_none_of_head {w : ℕ} {c : Char} (hc : c.isDigit = false) (cs : List Char) :
    readDigits (w + 1) (c :: cs) = none := by
  rw [readDigits, if_neg]
  rintro ⟨-, hall⟩
  rw [List.take_succ_cons, List.all_cons, hc] at hall
  cases hall

theorem exists_sign_isoChars (h : ¬ InIsoYears t) : ∃ c cs, isoChars t = c :: cs ∧ c.isDigit = false ∧ c ≠ 'Z' := by
  have hyear : ∃ c cs, isoYear (civilFromDays (t / 86400000)).year = c :: cs ∧ c.isDigit = false ∧
      c ≠ 'Z' := by
    unfold InIsoYears at h
    rw [isoYear, if_neg h]
    split_ifs
    · exact ⟨'+', _, rfl, by decide, by decide⟩
    · exact ⟨'-', _, rfl, by decide, by decide⟩
  obtain ⟨c, cs, hc, hsign⟩ := hyear
  exact ⟨c, _, by rw [isoChars, hc]; rfl, hsign⟩

theorem exists_sign_wallChars (h : ¬ InIsoYears t) : ∃ c cs, wallChars t = c :: cs ∧ c.isDigit = false := by
  obtain ⟨c, cs, hchars, hsign, hzulu⟩ := exists_sign_isoChars h
  rw [isoChars_eq] at hchars
  rcases hwall : wallChars t with _ | ⟨c', cs'⟩ <;> rw [hwall] at hchars
  · exact absurd (List.cons.inj hchars).1.symm hzulu
  · exact ⟨c', cs', rfl, (List.cons.inj hchars).1 ▸ hsign⟩

/-! ## Instants -/

theorem daysFromCivil_day (year month day : ℤ) :
    daysFromCivil ⟨year, month, 1⟩ + day - 1 = daysFromCivil ⟨year, month, day⟩ := by
  simp only [daysFromCivil]
  ring

theorem civil_fieldsOf (h : InIsoYears t) : (⟨(fieldsOf t).year, (fieldsOf t).month, (fieldsOf t).day⟩ : Civil) =
      civilFromDays (t / 86400000) := by
  have hbounds := civilFromDays_bounds (t / 86400000)
  obtain ⟨hlo, -⟩ := h
  simp only [fieldsOf]
  generalize civilFromDays (t / 86400000) = c at *
  obtain ⟨year, month, day⟩ := c
  simp only [Civil.mk.injEq] at *
  omega

theorem daysFromCivil_fieldsOf (h : InIsoYears t) :
    daysFromCivil ⟨(fieldsOf t).year, (fieldsOf t).month, (fieldsOf t).day⟩ = t / 86400000 := by
  rw [civil_fieldsOf h, daysFromCivil_civilFromDays]

/-- What `Date.UTC` makes of fields of a calendar month. -/
theorem utc_eq {f : Fields} (hmonth : 1 ≤ f.month ∧ f.month ≤ 12) :
    utc f = daysFromCivil ⟨if f.year < 100 then 1900 + f.year else f.year, f.month, f.day⟩ *
      86400000 + f.hour * 3600000 + f.minute * 60000 + f.second * 1000 + f.millisecond := by
  have hyear : ((f.month : ℤ) - 1) / 12 = 0 := by omega
  have hsame : ((f.month : ℤ) - 1) % 12 + 1 = f.month := by omega
  simp only [utc, hyear, hsame, add_zero, daysFromCivil_day]

theorem fieldsOf_month (t : ℤ) : 1 ≤ (fieldsOf t).month ∧ (fieldsOf t).month ≤ 12 := by
  have hbounds := civilFromDays_bounds (t / 86400000)
  simp only [fieldsOf]
  omega

/-- **From the year 100 on** fields give their instant back. -/
theorem utc_fieldsOf (h : InIsoYears t) (hyear : 100 ≤ (fieldsOf t).year) : utc (fieldsOf t) = t := by
  rw [utc_eq (fieldsOf_month t), if_neg (by omega), daysFromCivil_fieldsOf h]
  simp only [fieldsOf]
  omega

/-- A year of the twentieth century is long after one below a hundred. -/
theorem daysFromCivil_twentieth {year : ℤ} (month day : ℤ) (hyear : 0 ≤ year ∧ year < 100) :
    daysFromCivil ⟨year, month, day⟩ + 600000 < daysFromCivil ⟨1900 + year, month, day⟩ := by
  simp only [daysFromCivil]
  split_ifs <;> omega

/-! ## Calendar dates -/

/-- The year, month and day of fields exist: `Date.UTC` keeps them. -/
def isCalendarDate (fields : Fields) : Bool :=
  civilFromDays (utc fields.midnight / 86400000) = ⟨fields.year, fields.month, fields.day⟩

/-- The instant is written with a year from 100 to 9999. -/
def InFullYears (t : ℤ) : Prop := InIsoYears t ∧ 100 ≤ (fieldsOf t).year

instance (t : ℤ) : Decidable (InFullYears t) := inferInstanceAs (Decidable (_ ∧ _))

theorem utc_midnight {f : Fields} (hmonth : 1 ≤ f.month ∧ f.month ≤ 12) :
    utc f.midnight = daysFromCivil ⟨if f.year < 100 then 1900 + f.year else f.year, f.month, f.day⟩ *
      86400000 := by
  have hutc := utc_eq (f := f.midnight) hmonth
  have hzero : ∀ n : ℤ, n * 86400000 + (0 : ℕ) * 3600000 + (0 : ℕ) * 60000 + (0 : ℕ) * 1000 +
      (0 : ℕ) = n * 86400000 := fun n => by simp
  exact hutc.trans (hzero _)

def firstFullYear : ℤ := daysFromCivil ⟨100, 1, 1⟩ * 86400000

theorem inFullYears_iff : InFullYears t ↔ InIsoYears t ∧ firstFullYear ≤ t := by
  refine and_congr_right fun hiso => ?_
  have hdays := daysFromCivil_fieldsOf hiso
  have hmonth := fieldsOf_month t
  have hday : 1 ≤ (fieldsOf t).day ∧ (fieldsOf t).day ≤ 31 := by
    have hbounds := civilFromDays_bounds (t / 86400000)
    simp only [fieldsOf]
    omega
  have hle : 100 ≤ (fieldsOf t).year ↔ daysFromCivil ⟨100, 1, 1⟩ ≤ t / 86400000 := by
    rw [← hdays]
    simp only [daysFromCivil]
    split_ifs <;> omega
  rw [hle]
  unfold firstFullYear
  omega

theorem utc_midnight_fieldsOf (h : InFullYears t) : utc (fieldsOf t).midnight = t / 86400000 * 86400000 := by
  rw [utc_midnight (fieldsOf_month t), if_neg (not_lt.2 h.2), daysFromCivil_fieldsOf h.1]

/-- **The date of an instant exists** for `Date.UTC` from the year 100 on. -/
theorem isCalendarDate_fieldsOf_iff (h : InIsoYears t) :
    isCalendarDate (fieldsOf t) = true ↔ 100 ≤ (fieldsOf t).year := by
  rw [isCalendarDate, decide_eq_true_eq]
  constructor
  · intro hsame
    by_contra hyear
    have hdays := congrArg daysFromCivil hsame
    rw [daysFromCivil_civilFromDays, daysFromCivil_fieldsOf h, utc_midnight (fieldsOf_month t),
      if_pos (not_le.1 hyear), Int.mul_ediv_cancel _ (by decide)] at hdays
    have hlater := daysFromCivil_twentieth (fieldsOf t).month (fieldsOf t).day
      (by omega : 0 ≤ ((fieldsOf t).year : ℤ) ∧ ((fieldsOf t).year : ℤ) < 100)
    rw [daysFromCivil_fieldsOf h] at hlater
    omega
  · intro hyear
    rw [utc_midnight_fieldsOf ⟨h, hyear⟩, Int.mul_ediv_cancel _ (by decide), civil_fieldsOf h]

end Date

end Keeper
