import Keeper.Foundations.Effect
import Keeper.Foundations.Fallible
import Keeper.Foundations.JsArray
import Keeper.Recurrence.TimeZones
import Mathlib.Data.Int.ConditionallyCompleteOrder
import Mathlib.Data.List.Induction

/-!
# Declared time zones

`ics/utils/declared-timezone-offsets.ts` and `ics/utils/observance-onset-bound.ts`: a zone that a feed declares
by a VTIMEZONE block. Its observances are expanded to their onsets up to a year, and expanded again when a later
year is asked for; the answers are looked up among the sorted onsets. Offsets are in seconds here, which the
source writes as fractions of a minute. How `ical.js` lists the onsets of an observance is a parameter.

* `findLastChangeIndexAtOrBefore_eq`: the bisection counts the onsets at or before an instant.
* `offsetIn_listed`: a lookup does not depend on how many years are covered beyond the one asked for.
* `agrees_ask`: from a state that covers what it says, a question is answered as without a cache.
* `answersAlike_run`: so is every question of a run, where no earlier one was refused its expansion.
* `not_answersAlike`: after a refusal, the zone answers from the onsets of before.
-/

namespace Keeper

/-! ## Observances -/

/-- `ICAL.Time`. -/
structure IcalTime where
  year : ℤ
  month : ℤ
  day : ℤ
  hour : ℤ
  minute : ℤ
  second : ℤ
  deriving DecidableEq

/-- What the code reads of an `ICAL.Recur`: the length of each of its parts, and the year of `until`. -/
structure ObservanceRule where
  freq : String
  interval : ℤ
  count : Option ℕ
  untilYear : Option ℤ
  countPart : String → Option ℕ

/-- A STANDARD or DAYLIGHT component, or another one of the block. Of DTSTART and RRULE it has the property, or
none, and the property has a value of its type, or none; of an offset it has the text, where it is one. -/
structure Observance where
  name : String
  dtstart : Option (Option IcalTime)
  tzoffsetfrom : Option String
  tzoffsetto : Option String
  rrule : Option (Option ObservanceRule)
  rdate : List (Option IcalTime)

/-- What `createDeclaredZone` keeps of a block. -/
structure DeclaredZone where
  timezone : List Observance
  latestOnsetYear : ℤ

namespace DeclaredZone

def digitPair (tens units : Char) : Option ℤ :=
  if tens.isDigit ∧ units.isDigit then some ((tens.toNat - 48) * 10 + (units.toNat - 48)) else none

def offsetPartsToMinutes (sign : Char) (hours minutes seconds : ℤ) : ℤ :=
  if sign = '-' then -(hours * 3600 + minutes * 60 + seconds) else hours * 3600 + minutes * 60 + seconds

/-- `JCAL_UTC_OFFSET_PATTERN`, its last group with the colon before it. -/
def matchJcalUtcOffset : List Char → Option (Char × ℤ × ℤ × ℤ)
  | sign :: h :: h' :: ':' :: m :: m' :: rest =>
    if sign = '+' ∨ sign = '-' then do
      let hours ← digitPair h h'
      let minutes ← digitPair m m'
      match rest with
      | [] => some (sign, hours, minutes, 0)
      | [':', s, s'] => (digitPair s s').map fun seconds => (sign, hours, minutes, seconds)
      | _ => none
    else none
  | _ => none

def parseJcalUtcOffset (value : Option String) : Option ℤ := do
  let (sign, hours, minutes, seconds) ← matchJcalUtcOffset (← value).toList
  return offsetPartsToMinutes sign hours minutes seconds

def isUsableObservance (observance : Observance) : Bool :=
  (observance.name = "standard" ∨ observance.name = "daylight") && observance.dtstart.isSome &&
    (parseJcalUtcOffset observance.tzoffsetfrom).isSome && (parseJcalUtcOffset observance.tzoffsetto).isSome

def listUsableObservances (timezone : List Observance) : List Observance :=
  timezone.filter isUsableObservance

def readOnsetYear (observance : Observance) : ℤ :=
  match observance.dtstart with
  | some (some onset) => onset.year
  | _ => 0

def includeStartAsListedOnset (observance : Observance) : Observance :=
  if observance.rdate = [] ∨ observance.rrule.isSome then observance
  else { observance with rdate := observance.rdate ++ [observance.dtstart.join] }

/-! ## The bound on onsets -/

def maxObservanceOnsets : ℤ := 50000

def boundOnsetDaysPerYear (countPart : String → Option ℕ) : ℕ :=
  match countPart "BYYEARDAY" with
  | some yearDays => yearDays
  | none =>
    match countPart "BYWEEKNO" with
    | some weeks => weeks * (countPart "BYDAY").getD 7
    | none =>
      match countPart "BYMONTHDAY", countPart "BYDAY" with
      | some monthDays, _ => (countPart "BYMONTH").getD 12 * monthDays
      | none, some weekdays =>
        match countPart "BYMONTH" with
        | none => weekdays * 53
        | some months => months * weekdays * 5
      | none, none => (countPart "BYMONTH").getD 1

def boundOnsetsPerDay (countPart : String → Option ℕ) : ℕ :=
  (countPart "BYHOUR").getD 1 * (countPart "BYMINUTE").getD 1 * (countPart "BYSECOND").getD 1

def readRuleEndYear (rule : ObservanceRule) (untilYear : ℤ) : ℤ :=
  match rule.untilYear with
  | some year => min year untilYear
  | none => untilYear

def boundRuleOnsets (rule : ObservanceRule) (onsetYear untilYear : ℤ) : Except RangeError ℤ :=
  if rule.freq ≠ "YEARLY" then
    .error ("Declared VTIMEZONE observance repeats " ++ rule.freq ++ ", not YEARLY")
  else
    let years := max (readRuleEndYear rule untilYear - onsetYear + 1) 0
    let interval := max rule.interval 1
    let onsetsPerYear := boundOnsetDaysPerYear rule.countPart * boundOnsetsPerDay rule.countPart
    -- `Math.ceil(years / interval)`
    let onsets := (years + interval - 1) / interval * onsetsPerYear
    match rule.count with
    | some (count + 1) => .ok (min onsets (count + 1))
    | _ => .ok onsets

def assertObservanceExpansionBounded (observance : Observance) (untilYear : ℤ) : Except RangeError Unit :=
  match observance.rrule, observance.dtstart with
  | some (some rule), some (some onset) => do
    let onsets ← boundRuleOnsets rule onset.year untilYear
    if maxObservanceOnsets < onsets then
      .error "Declared VTIMEZONE observance expands to more than 50000 onsets"
    else .ok ()
  | _, _ => .ok ()

/-! ## Onsets -/

/-- `ObservanceChange`: an onset as `ical.js` lists it, its fields moved by the offset before it. -/
structure ObservanceChange extends IcalTime where
  prevUtcOffset : ℤ
  deriving DecidableEq

structure ZoneChange where
  instant : ℤ
  offset : ℤ
  previousOffset : ℤ
  deriving DecidableEq

/-- `Date.UTC`, of a year as it stands. -/
def timeOfFields (time : IcalTime) : ℤ :=
  Date.makeDay time.year (time.month - 1) time.day * msPerDay + time.hour * 3600000 + time.minute * 60000 +
    time.second * 1000

/-- `Date.UTC`. -/
def dateUtc (time : IcalTime) : ℤ := timeOfFields { time with year := Date.makeFullYear time.year }

def toZoneChange (change : ObservanceChange) (offset previousOffset : ℤ) : ZoneChange where
  instant := dateUtc change.toIcalTime + change.prevUtcOffset * 1000 - previousOffset * 1000
  offset := offset
  previousOffset := previousOffset

/-- `ObservanceExpander`: what `_expandComponent` lists of an observance up to a year. -/
abbrev ObservanceExpander := Observance → ℤ → Option (List ObservanceChange)

variable (expander : ObservanceExpander)

def offsetTo (observance : Observance) : ℤ := (parseJcalUtcOffset observance.tzoffsetto).getD 0

def offsetFrom (observance : Observance) : ℤ := (parseJcalUtcOffset observance.tzoffsetfrom).getD 0

def listChanges (observance : Observance) (untilYear : ℤ) : List ObservanceChange :=
  (expander (includeStartAsListedOnset observance) untilYear).getD []

def expandObservance (observance : Observance) (untilYear : ℤ) : Except RangeError (List ZoneChange) := do
  assertObservanceExpansionBounded observance untilYear
  return (listChanges expander observance untilYear).map fun change =>
    toZoneChange change (offsetTo observance) (offsetFrom observance)

/-- `left.instant - right.instant`. -/
def compareInstants (left right : ZoneChange) : ℤ := left.instant - right.instant

def unableToExpand : RangeError := "Unable to expand declared VTIMEZONE"

/-- `expandZoneChanges`, of a block that was read before. -/
def expandZoneChanges (timezone : List Observance) (untilYear : ℤ) : Except RangeError (List ZoneChange) :=
  match (listUsableObservances timezone).mapM fun observance => expandObservance expander observance untilYear with
  | .ok listed => .ok (JsArray.toSorted compareInstants listed.flatten)
  | .error _ => .error unableToExpand

/-! ## Lookups -/

/-- The loop of `findLastChangeIndexAtOrBefore`: `lower` once the bounds have met. -/
def bisect (changes : List ZoneChange) (instant : ℤ) (lower upper : ℕ) : ℕ :=
  if h : lower < upper then
    let middle := (lower + upper) / 2
    if (changes[middle]?).any (·.instant ≤ instant) then bisect changes instant (middle + 1) upper
    else bisect changes instant lower middle
  else lower
termination_by upper - lower

def findLastChangeIndexAtOrBefore (changes : List ZoneChange) (instant : ℤ) : ℤ :=
  bisect changes instant 0 changes.length - 1

/-- `changes[index]`. -/
def changeAt (changes : List ZoneChange) (index : ℤ) : Option ZoneChange :=
  if index < 0 then none else changes[index.toNat]?

def offsetBeforeChange (changes : List ZoneChange) (index : ℤ) : ℤ :=
  (((changeAt changes (index - 1)).map ZoneChange.offset).orElse fun _ =>
    (changeAt changes index).map ZoneChange.previousOffset).getD 0

/-- What `offsetAt` finds among the covered changes. -/
def offsetIn (covered : List ZoneChange) (instant : ℤ) : ℤ :=
  let index := findLastChangeIndexAtOrBefore covered instant
  if index < 0 then ((changeAt covered 0).map ZoneChange.previousOffset).getD 0
  else ((changeAt covered index).map ZoneChange.offset).getD 0

/-- What `countTransitionsBetween` counts among the covered changes: the indices from `first` to `last`. -/
def countTransitionsIn (covered : List ZoneChange) (fromInstant toInstant : ℤ) : ℕ :=
  let first := findLastChangeIndexAtOrBefore covered fromInstant + 1
  let last := findLastChangeIndexAtOrBefore covered toInstant
  ((List.range (last + 1 - first).toNat).filter fun step : ℕ =>
    (changeAt covered (first + step)).map ZoneChange.offset ≠ some (offsetBeforeChange covered (first + step))).length

/-! ## The zone -/

/-- `readDeclaredZone`, of a block that `ical.js` reads. -/
def readDeclaredZone (timezone : List Observance) : Option DeclaredZone :=
  ((listUsableObservances timezone).map readOnsetYear).max?.map fun year => ⟨timezone, year⟩

/-- `coveredUntilYear` and `changes`; no year is covered at first. -/
structure Coverage where
  coveredUntilYear : WithBot ℤ
  changes : List ZoneChange

/-- A zone that was just created. -/
def Coverage.fresh : Coverage := ⟨⊥, []⟩

variable (zone : DeclaredZone)

/-- The year up to which the changes are listed for an instant, by a zone that covers none. -/
def coveringYear (instant : ℤ) : ℤ := max (Date.getUTCFullYear instant + 1) zone.latestOnsetYear

/-- A year, which may be minus infinity, is compared with another. -/
instance decidableYearLT (year : WithBot ℤ) (other : ℤ) : Decidable (year < (other : WithBot ℤ)) :=
  match year with
  | none => isTrue (WithBot.bot_lt_coe other)
  | some year => decidable_of_iff (year < other) WithBot.coe_lt_coe.symm

def coverChanges (instant : ℤ) : Effect RangeError Coverage (List ZoneChange) := do
  if (← Effect.gets Coverage.coveredUntilYear) < ((Date.getUTCFullYear instant + 1 : ℤ) : WithBot ℤ) then
    Effect.modify fun coverage => { coverage with coveredUntilYear := (coveringYear zone instant : ℤ) }
    match expandZoneChanges expander zone.timezone (coveringYear zone instant) with
    | .ok listed => Effect.modify fun coverage => { coverage with changes := listed }
    | .error e => Effect.throw e
  Effect.gets Coverage.changes

section
variable {m : Type → Type} [Monad m]

/-- `offsetAt`, where the changes are covered by `cover`. -/
def offsetAt (cover : ℤ → m (List ZoneChange)) (instant : ℤ) : m ℤ := do
  return offsetIn (← cover instant) instant

/-- `countTransitionsBetween`, where the changes are covered by `cover`. -/
def countTransitionsBetween (cover : ℤ → m (List ZoneChange)) (fromInstant toInstant : ℤ) : m ℕ := do
  return countTransitionsIn (← cover toInstant) fromInstant toInstant

/-- The candidates of `earliestMatchingInstant` that show the wall time. -/
def matchingInstants (offsetMillisecondsAt : ℤ → m ℤ) (desiredTime : ℤ) : List ℤ → m (List ℤ)
  | [] => pure []
  | offset :: candidateOffsets => do
    let shown ← offsetMillisecondsAt (desiredTime - offset)
    let later ← matchingInstants offsetMillisecondsAt desiredTime candidateOffsets
    return if shown = offset then (desiredTime - offset) :: later else later

/-- `wallTimeToInstantWith`, of offsets that are looked up as they are asked for. -/
def wallTimeToInstantWith (throwing : RangeError → m ℤ) (wallTime : ℤ) (offsetMillisecondsAt : ℤ → m ℤ) : m ℤ := do
  let offsetBefore ← offsetMillisecondsAt (wallTime - probeWindowMs)
  let offsetAfter ← offsetMillisecondsAt (wallTime + probeWindowMs)
  if offsetBefore = offsetAfter then return wallTime - offsetBefore
  else
    match (← matchingInstants offsetMillisecondsAt wallTime [offsetBefore, offsetAfter]).min? with
    | some earliest => return earliest
    | none =>
      if offsetBefore < offsetAfter then return wallTime - offsetBefore
      else throwing ("Unable to resolve wall time " ++ Date.toISOString wallTime)

/-- `wallTimeToInstant` of a declared zone. -/
def wallTimeToInstant (throwing : RangeError → m ℤ) (cover : ℤ → m (List ZoneChange)) (wallTime : ℤ) : m ℤ := do
  if 1 < (← countTransitionsBetween cover (wallTime - msPerDay) (wallTime + msPerDay)) then
    throwing ("Declared VTIMEZONE changes offset twice around " ++ Date.toISOString wallTime)
  else
    wallTimeToInstantWith throwing wallTime fun instant => do return (← offsetAt cover instant) * 1000

end

inductive Question where
  | offsetAt (instant : ℤ)
  | wallTimeToInstant (wallTime : ℤ)

/-- A question, answered from the changes that `cover` gives. -/
def answer {m : Type → Type} [Monad m] (throwing : RangeError → m ℤ) (cover : ℤ → m (List ZoneChange)) :
    Question → m ℤ
  | .offsetAt instant => offsetAt cover instant
  | .wallTimeToInstant wallTime => wallTimeToInstant throwing cover wallTime

def ask (question : Question) : Effect RangeError Coverage ℤ :=
  answer Effect.throw (coverChanges expander zone) question

/-- The zone object after some questions, whatever became of them. -/
def after (questions : List Question) : Coverage :=
  questions.foldl (fun coverage question => (ask expander zone question coverage).2) Coverage.fresh

/-! ## Offsets -/

theorem digitPair_bounds {tens units : Char} {value : ℤ} (h : digitPair tens units = some value) :
    0 ≤ value ∧ value ≤ 99 := by
  unfold digitPair at h
  split_ifs at h with hdigits
  simp only [Char.isDigit, Bool.and_eq_true, decide_eq_true_eq, UInt32.le_iff_toNat_le] at hdigits
  have hzero : '0'.val.toNat = 48 := rfl
  have hnine : '9'.val.toNat = 57 := rfl
  have htens : tens.val.toNat = tens.toNat := rfl
  have hunits : units.val.toNat = units.toNat := rfl
  have hvalue := Option.some.inj h
  omega

theorem parseJcalUtcOffset_bounds {value : Option String} {offset : ℤ}
    (h : parseJcalUtcOffset value = some offset) : -362439 ≤ offset ∧ offset ≤ 362439 := by
  simp only [parseJcalUtcOffset, Option.bind_eq_bind, Option.bind_eq_some_iff, pure, Option.some.injEq] at h
  obtain ⟨text, -, ⟨sign, hours, minutes, seconds⟩, hmatch, hoffset⟩ := h
  have hparts : (0 ≤ hours ∧ hours ≤ 99) ∧ (0 ≤ minutes ∧ minutes ≤ 99) ∧ (0 ≤ seconds ∧ seconds ≤ 99) := by
    unfold matchJcalUtcOffset at hmatch
    split at hmatch
    · split_ifs at hmatch
      simp only [Option.bind_eq_bind, Option.bind_eq_some_iff] at hmatch
      obtain ⟨hours', hhours, minutes', hminutes, hrest⟩ := hmatch
      have hbounds := digitPair_bounds hhours
      have hbounds' := digitPair_bounds hminutes
      split at hrest
      · simp only [Option.some.injEq, Prod.mk.injEq] at hrest
        omega
      · simp only [Option.map_eq_some_iff, Prod.mk.injEq] at hrest
        obtain ⟨seconds', hseconds, hrest⟩ := hrest
        have hbounds'' := digitPair_bounds hseconds
        omega
      · cases hrest
    · cases hmatch
  unfold offsetPartsToMinutes at hoffset
  split_ifs at hoffset <;> omega

theorem offsetFrom_bounds (observance : Observance) :
    -362439 ≤ offsetFrom observance ∧ offsetFrom observance ≤ 362439 := by
  unfold offsetFrom
  cases h : parseJcalUtcOffset observance.tzoffsetfrom with
  | none => simp
  | some offset => exact parseJcalUtcOffset_bounds h

/-! ## The bisection -/

def Sorted (changes : List ZoneChange) : Prop := changes.Pairwise fun c d => c.instant ≤ d.instant

def upTo (instant : ℤ) (changes : List ZoneChange) : List ZoneChange :=
  changes.filter fun change => change.instant ≤ instant

variable {changes : List ZoneChange} {t : ℤ}

/-- **The changes at or before an instant** come first. -/
theorem upTo_eq_take (h : Sorted changes) (t : ℤ) : upTo t changes = changes.take (upTo t changes).length := by
  induction changes with
  | nil => rfl
  | cons c changes ih =>
    obtain ⟨hc, hrest⟩ := List.pairwise_cons.1 h
    by_cases ht : c.instant ≤ t
    · have hcons : upTo t (c :: changes) = c :: upTo t changes := List.filter_cons_of_pos (by simpa using ht)
      rw [hcons, List.length_cons, List.take_succ_cons, ← ih hrest]
    · have hnil : upTo t (c :: changes) = [] := by
        refine List.filter_eq_nil_iff.2 fun d hd => ?_
        simp only [decide_eq_true_eq, not_le]
        rcases List.mem_cons.1 hd with rfl | hd
        · omega
        · have := hc d hd
          omega
      rw [hnil]
      rfl

theorem getElem?_upTo (h : Sorted changes) {i : ℕ} (hi : i < (upTo t changes).length) :
    (upTo t changes)[i]? = changes[i]? := by
  rw [upTo_eq_take h t, List.getElem?_take_of_lt hi]

/-- An index is of a change at or before an instant, where it is among the first of them. -/
theorem instant_le_iff (h : Sorted changes) {i : ℕ} (hi : i < changes.length) :
    changes[i].instant ≤ t ↔ i < (upTo t changes).length := by
  constructor
  · intro hle
    by_contra hlt
    have hdrop : changes[i] ∈ changes.drop (upTo t changes).length :=
      List.mem_drop_iff_getElem.2 ⟨i - (upTo t changes).length, by omega, by congr 1; omega⟩
    have hsplit : (upTo t changes ++ changes.drop (upTo t changes).length).filter
        (fun change => change.instant ≤ t) = upTo t changes := by
      nth_rewrite 1 [upTo_eq_take h t]
      rw [List.take_append_drop]
      rfl
    rw [List.filter_append, upTo, List.filter_filter] at hsplit
    simp only [Bool.and_self] at hsplit
    have hnil := List.append_right_eq_self.1 hsplit
    exact List.filter_eq_nil_iff.1 hnil _ hdrop (by simpa using hle)
  · intro hlt
    have hmem := List.getElem_mem hlt
    have heq : (upTo t changes)[i] = changes[i] := by
      have := getElem?_upTo h hlt
      rw [List.getElem?_eq_getElem hlt, List.getElem?_eq_getElem hi] at this
      exact Option.some.inj this
    rw [heq] at hmem
    simpa using (List.mem_filter.1 hmem).2

/-- The bounds of the bisection enclose the number of changes at or before the instant. -/
theorem bisect_eq (h : Sorted changes) {lower upper : ℕ} (hlower : lower ≤ (upTo t changes).length)
    (hupper : (upTo t changes).length ≤ upper) (hlength : upper ≤ changes.length) :
    bisect changes t lower upper = (upTo t changes).length := by
  fun_induction bisect changes t lower upper with
  | case1 lower upper hlt middle hle ih =>
    have hmiddle : middle < changes.length := by omega
    rw [List.getElem?_eq_getElem hmiddle] at hle
    have hcount := (instant_le_iff h hmiddle).1 (by simpa using hle)
    exact ih (by omega) hupper hlength
  | case2 lower upper hlt middle hgt ih =>
    have hmiddle : middle < changes.length := by omega
    rw [List.getElem?_eq_getElem hmiddle] at hgt
    have hcount := mt (instant_le_iff h hmiddle).2 (by simpa using hgt)
    exact ih hlower (by omega) (by omega)
  | case3 lower upper hge => omega

/-- **The bisection counts the changes at or before an instant.** -/
theorem findLastChangeIndexAtOrBefore_eq (h : Sorted changes) (t : ℤ) :
    findLastChangeIndexAtOrBefore changes t = (upTo t changes).length - 1 := by
  rw [findLastChangeIndexAtOrBefore, bisect_eq h (Nat.zero_le _) (List.length_filter_le _ _) le_rfl]

/-! ## Lookups -/

/-- The offset at an instant is that of the last change at or before it, or the one before the first. -/
theorem offsetIn_eq (h : Sorted changes) (t : ℤ) : offsetIn changes t =
    match (upTo t changes).getLast? with
    | some last => last.offset
    | none => (changes.head?.map ZoneChange.previousOffset).getD 0 := by
  unfold offsetIn
  rw [findLastChangeIndexAtOrBefore_eq h t]
  dsimp only
  cases hlast : (upTo t changes).getLast? with
  | none =>
    rw [List.getLast?_eq_none_iff] at hlast
    rw [hlast, List.length_nil, if_pos (by decide), changeAt, if_neg (by decide), List.head?_eq_getElem?]
    rfl
  | some last =>
    have hne : upTo t changes ≠ [] := fun hnil => by simp [hnil] at hlast
    have hpos := List.length_pos_iff.2 hne
    have hindex : ((upTo t changes).length - 1 : ℤ).toNat = (upTo t changes).length - 1 := by omega
    have hnonneg : ¬((upTo t changes).length - 1 : ℤ) < 0 := by omega
    rw [if_neg hnonneg, changeAt, if_neg hnonneg, hindex, ← getElem?_upTo (t := t) h (Nat.sub_lt hpos one_pos),
      ← List.getLast?_eq_getElem?, hlast]
    rfl

theorem changeAt_upTo (h : Sorted changes) {index : ℤ} (hindex : index < (upTo t changes).length) :
    changeAt (upTo t changes) index = changeAt changes index := by
  unfold changeAt
  split_ifs with hneg
  · rfl
  · exact getElem?_upTo h (by omega)

theorem upTo_upTo {s : ℤ} (hst : s ≤ t) (changes : List ZoneChange) :
    upTo s (upTo t changes) = upTo s changes := by
  unfold upTo
  rw [List.filter_filter]
  refine List.filter_congr fun c _ => ?_
  rw [← Bool.decide_and, decide_eq_decide]
  omega

theorem Sorted.upTo (h : Sorted changes) (t : ℤ) : Sorted (upTo t changes) := List.Pairwise.filter _ h

/-- The transitions up to an instant are counted among the changes up to it. -/
theorem countTransitionsIn_upTo (h : Sorted changes) {s : ℤ} (hst : s ≤ t) :
    countTransitionsIn changes s t = countTransitionsIn (upTo t changes) s t := by
  unfold countTransitionsIn
  rw [findLastChangeIndexAtOrBefore_eq h, findLastChangeIndexAtOrBefore_eq h,
    findLastChangeIndexAtOrBefore_eq (h.upTo t), findLastChangeIndexAtOrBefore_eq (h.upTo t), upTo_upTo hst,
    upTo_upTo le_rfl]
  dsimp only
  congr 1
  refine List.filter_congr fun step hstep => ?_
  rw [List.mem_range] at hstep
  unfold offsetBeforeChange
  rw [changeAt_upTo h (by omega), changeAt_upTo h (by omega)]

/-! ## Listed onsets -/

def yearStart (year : ℤ) : ℤ := Date.firstDay (year * 12) * msPerDay

theorem lt_yearStart (t : ℤ) : t < yearStart (Date.getUTCFullYear t + 1) := by
  have hmonths := Date.year_month_eq t
  have hmonth := (Date.civilFromDays_bounds (t / 86400000)).1
  have hlt := Date.lt_firstDay_succ (t / 86400000)
  have hle : Date.firstDay (Date.monthIndex (t / 86400000) + 1) ≤
      Date.firstDay ((Date.getUTCFullYear t + 1) * 12) := by
    refine Date.strictMono_firstDay.monotone ?_
    rw [← hmonths]
    unfold Date.getUTCMonth
    omega
  unfold yearStart msPerDay
  omega

theorem yearStart_succ (year : ℤ) : yearStart year + 362439 * 1000 < yearStart (year + 1) := by
  have hlength := (Date.monthLength_bounds (year * 12)).1
  have hle : Date.firstDay (year * 12 + 1) ≤ Date.firstDay ((year + 1) * 12) :=
    Date.strictMono_firstDay.monotone (by omega)
  unfold Date.monthLength at hlength
  unfold yearStart msPerDay
  omega

variable {year year' : ℤ} {onset : ZoneChange}

theorem yearStart_mono (h : year ≤ year') : yearStart year ≤ yearStart year' := by
  have hle : Date.firstDay (year * 12) ≤ Date.firstDay (year' * 12) :=
    Date.strictMono_firstDay.monotone (by omega)
  unfold yearStart msPerDay
  omega

def wallTimeOf (change : ObservanceChange) : ℤ := timeOfFields change.toIcalTime + change.prevUtcOffset * 1000

/-- An observance whose onsets are listed by years: a later year adds onsets of later years only. -/
def ListsByYears (observance : Observance) : Prop :=
  ∀ year year', year ≤ year' → ∃ later,
    listChanges expander observance year' = listChanges expander observance year ++ later ∧
      ∀ change ∈ later, yearStart (year + 1) ≤ wallTimeOf change

/-- The onsets of an observance are of years that `Date.UTC` takes as they stand. -/
def HasFullYears (observance : Observance) : Prop :=
  ∀ year, ∀ change ∈ listChanges expander observance year, ¬(0 ≤ change.year ∧ change.year ≤ 99)

def onsetOf (observance : Observance) (change : ObservanceChange) : ZoneChange where
  instant := wallTimeOf change - offsetFrom observance * 1000
  offset := offsetTo observance
  previousOffset := offsetFrom observance

theorem toZoneChange_eq {observance : Observance} {change : ObservanceChange} (h : HasFullYears expander observance)
    (hchange : change ∈ listChanges expander observance year) :
    toZoneChange change (offsetTo observance) (offsetFrom observance) = onsetOf observance change := by
  have hyear : Date.makeFullYear change.year = change.year := if_neg (h year change hchange)
  unfold toZoneChange onsetOf dateUtc wallTimeOf
  rw [hyear]

def onsets (year : ℤ) : List ZoneChange :=
  (listUsableObservances zone.timezone).flatMap fun observance =>
    (listChanges expander observance year).map (onsetOf observance)

def Bounded (year : ℤ) : Prop :=
  ∀ observance ∈ listUsableObservances zone.timezone, assertObservanceExpansionBounded observance year = .ok ()

variable {expander} {zone}

theorem boundRuleOnsets_mono {rule : ObservanceRule} {onsetYear onsets' : ℤ} (hyear : year ≤ year')
    (h : boundRuleOnsets rule onsetYear year' = .ok onsets') :
    ∃ onsets ≤ onsets', boundRuleOnsets rule onsetYear year = .ok onsets := by
  simp only [boundRuleOnsets] at h ⊢
  split_ifs at h with hfreq
  rw [if_neg hfreq]
  have hend : readRuleEndYear rule year ≤ readRuleEndYear rule year' := by
    unfold readRuleEndYear
    split <;> omega
  have hquot : (max (readRuleEndYear rule year - onsetYear + 1) 0 + max rule.interval 1 - 1) / max rule.interval 1 ≤
      (max (readRuleEndYear rule year' - onsetYear + 1) 0 + max rule.interval 1 - 1) / max rule.interval 1 :=
    Int.ediv_le_ediv (by omega) (by omega)
  have hprod := Int.mul_le_mul_of_nonneg_right hquot
    (Int.natCast_nonneg (boundOnsetDaysPerYear rule.countPart * boundOnsetsPerDay rule.countPart))
  push_cast at hprod h ⊢
  split at h
  · obtain rfl := Except.ok.inj h
    exact ⟨_, min_le_min_right _ hprod, rfl⟩
  · obtain rfl := Except.ok.inj h
    exact ⟨_, hprod, rfl⟩

/-- **An expansion within the bound** is within it for every earlier year. -/
theorem Bounded.mono (hyear : year ≤ year') (h : Bounded zone year') : Bounded zone year := by
  intro observance hobservance
  have hassert := h observance hobservance
  unfold assertObservanceExpansionBounded at hassert ⊢
  split
  · rename_i rule onset hrule honset
    rw [hrule, honset] at hassert
    obtain ⟨onsets', honsets', hle⟩ := bind_eq_ok_iff.1 hassert
    obtain ⟨onsets, hmono, honsets⟩ := boundRuleOnsets_mono hyear honsets'
    refine bind_eq_ok_iff.2 ⟨onsets, honsets, ?_⟩
    split_ifs at hle with hmax
    exact if_neg (by omega)
  · rfl

theorem orders_compareInstants : JsArray.Orders compareInstants where
  total a b := by
    unfold compareInstants
    omega
  trans a b c := by
    unfold compareInstants
    omega

def listed (expander : ObservanceExpander) (zone : DeclaredZone) (year : ℤ) : List ZoneChange :=
  JsArray.toSorted compareInstants (onsets expander zone year)

theorem sorted_listed (year : ℤ) : Sorted (listed expander zone year) :=
  (orders_compareInstants.pairwise_toSorted _).imp fun h => by
    unfold compareInstants at h
    omega

theorem upTo_listed (t year : ℤ) :
    upTo t (listed expander zone year) = JsArray.toSorted compareInstants (upTo t (onsets expander zone year)) :=
  orders_compareInstants.filter_toSorted _ _

section
variable (hyears : ∀ observance ∈ listUsableObservances zone.timezone, HasFullYears expander observance)
include hyears

/-- **An expansion within the bound** lists the onsets in order. -/
theorem expandZoneChanges_ok {year : ℤ} (h : Bounded zone year) :
    expandZoneChanges expander zone.timezone year = .ok (listed expander zone year) := by
  have hexpand : ∀ observance ∈ listUsableObservances zone.timezone,
      expandObservance expander observance year =
        .ok ((listChanges expander observance year).map (onsetOf observance)) := by
    intro observance hobservance
    refine bind_eq_ok_iff.2 ⟨(), h observance hobservance, congrArg Except.ok (List.map_congr_left ?_)⟩
    exact fun change hchange => toZoneChange_eq expander (hyears observance hobservance) hchange
  have hmap : (listUsableObservances zone.timezone).mapM (fun observance => expandObservance expander observance year) =
      .ok ((listUsableObservances zone.timezone).map fun observance =>
        (listChanges expander observance year).map (onsetOf observance)) := by
    refine mapM_eq_ok_iff.2 ⟨fun observance hobservance => ⟨_, hexpand observance hobservance⟩, ?_⟩
    rw [← List.filterMap_eq_map]
    refine List.filterMap_congr fun observance hobservance => ?_
    rw [hexpand observance hobservance]
    rfl
  rw [expandZoneChanges, hmap]
  rfl

end

theorem expandZoneChanges_error (h : ¬Bounded zone year) :
    expandZoneChanges expander zone.timezone year = .error unableToExpand := by
  unfold expandZoneChanges
  split
  · rename_i changes hchanges
    refine absurd (fun observance hobservance => ?_) h
    obtain ⟨listed, hlisted⟩ := (mapM_eq_ok_iff.1 hchanges).1 observance hobservance
    obtain ⟨⟨⟩, hassert, -⟩ := bind_eq_ok_iff.1 hlisted
    exact hassert
  · rfl

/-! ## More years -/

section
variable (hlists : ∀ observance ∈ listUsableObservances zone.timezone, ListsByYears expander observance)
include hlists

variable {year : ℤ}

/-- The onsets at or before an instant are listed, where the onsets that are not come after it. -/
theorem upTo_onsets_eq {year' : ℤ} (hyear : year ≤ year')
    (hlater : ∀ observance ∈ listUsableObservances zone.timezone, ∀ change ∈ (listChanges expander observance year').drop (listChanges expander observance year).length, t < (onsetOf observance change).instant) :
    upTo t (onsets expander zone year') = upTo t (onsets expander zone year) := by
  unfold upTo onsets
  rw [List.filter_flatMap, List.filter_flatMap]
  refine List.flatMap_congr fun observance hobservance => ?_
  obtain ⟨later, happend, -⟩ := hlists observance hobservance year year' hyear
  have hnil := hlater observance hobservance
  rw [happend, List.drop_left] at hnil
  rw [happend, List.map_append, List.filter_append, List.append_right_eq_self, List.filter_eq_nil_iff]
  intro onset honset
  obtain ⟨change, hchange, rfl⟩ := List.mem_map.1 honset
  have := hnil change hchange
  simp only [decide_eq_true_eq]
  omega

theorem lt_instant_of_later {year' : ℤ} (hyear : year ≤ year') {observance : Observance}
    (hobservance : observance ∈ listUsableObservances zone.timezone) {change : ObservanceChange}
    (hchange : change ∈ (listChanges expander observance year').drop (listChanges expander observance year).length) :
    yearStart year < (onsetOf observance change).instant := by
  obtain ⟨later, happend, hlater⟩ := hlists observance hobservance year year' hyear
  rw [happend, List.drop_left] at hchange
  have hwall := hlater change hchange
  have hoffset := offsetFrom_bounds observance
  have hlong := yearStart_succ year
  unfold onsetOf
  dsimp only
  omega

/-- **The onsets at or before an instant** are all listed by a year that covers it. -/
theorem upTo_onsets (h : coveringYear zone t ≤ year) :
    upTo t (onsets expander zone year) = upTo t (onsets expander zone (coveringYear zone t)) := by
  refine upTo_onsets_eq hlists h fun observance hobservance change hchange => ?_
  have hlt := lt_instant_of_later hlists h hobservance hchange
  have hyear : yearStart (Date.getUTCFullYear t + 1) ≤ yearStart (coveringYear zone t) :=
    yearStart_mono (le_max_left _ _)
  have hstart := lt_yearStart t
  omega

theorem upTo_listed_eq (h : coveringYear zone t ≤ year) :
    upTo t (listed expander zone year) = upTo t (listed expander zone (coveringYear zone t)) := by
  rw [upTo_listed, upTo_listed, upTo_onsets hlists h]

end

/-- What the zone needs of `ical.js` and of the block: more years add later onsets only; no onset is of a year
that `Date.UTC` takes for one of the twentieth century; and each onset that is only listed for years after the
latest DTSTART comes after one that is listed before. -/
structure Readable (expander : ObservanceExpander) (zone : DeclaredZone) : Prop where
  listsByYears : ∀ observance ∈ listUsableObservances zone.timezone, ListsByYears expander observance
  fullYears : ∀ observance ∈ listUsableObservances zone.timezone, HasFullYears expander observance
  startsEarly : ∀ observance ∈ listUsableObservances zone.timezone, ∀ year, zone.latestOnsetYear ≤ year →
    ∀ change ∈ (listChanges expander observance year).drop
      (listChanges expander observance zone.latestOnsetYear).length,
        ∃ first ∈ onsets expander zone zone.latestOnsetYear, first.instant < (onsetOf observance change).instant

namespace Readable

variable (h : Readable expander zone)
include h

/-- **The first onset** is that of the years up to the latest DTSTART. -/
theorem head?_listed {year : ℤ} (hyear : zone.latestOnsetYear ≤ year) :
    (listed expander zone year).head? = (listed expander zone zone.latestOnsetYear).head? := by
  cases hhead : (listed expander zone zone.latestOnsetYear).head? with
  | none =>
    have hnone : onsets expander zone zone.latestOnsetYear = [] := by
      rw [List.head?_eq_none_iff, listed, JsArray.toSorted_eq_nil_iff] at hhead
      exact hhead
    have hnil : onsets expander zone year = [] := by
      refine List.flatMap_eq_nil_iff.2 fun observance hobservance => List.map_eq_nil_iff.2 ?_
      have hbefore := List.map_eq_nil_iff.1 (List.flatMap_eq_nil_iff.1 hnone observance hobservance)
      refine List.eq_nil_iff_forall_not_mem.2 fun change hchange => ?_
      obtain ⟨first, hfirst, -⟩ := h.startsEarly observance hobservance year hyear change (by
        rw [hbefore]
        exact hchange)
      rw [hnone] at hfirst
      exact List.not_mem_nil hfirst
    rw [listed, hnil]
    rfl
  | some first =>
    have hfirst : ∀ onset ∈ onsets expander zone zone.latestOnsetYear, first.instant ≤ onset.instant := by
      intro onset honset
      have hmem : onset ∈ listed expander zone zone.latestOnsetYear := JsArray.mem_toSorted.2 honset
      obtain ⟨rest, hrest⟩ := List.head?_eq_some_iff.1 hhead
      have hsorted := @sorted_listed expander zone zone.latestOnsetYear
      rw [hrest] at hmem hsorted
      rcases List.mem_cons.1 hmem with rfl | hmem
      · exact le_rfl
      · exact (List.pairwise_cons.1 hsorted).1 onset hmem
    have hupTo : upTo first.instant (listed expander zone year) =
        upTo first.instant (listed expander zone zone.latestOnsetYear) := by
      rw [upTo_listed, upTo_listed, upTo_onsets_eq h.listsByYears hyear fun observance hobservance change hchange => ?_]
      obtain ⟨onset, honset, hlt⟩ := h.startsEarly observance hobservance year hyear change hchange
      exact (hfirst onset honset).trans_lt hlt
    have hupToHead : (upTo first.instant (listed expander zone zone.latestOnsetYear)).head? = some first := by
      obtain ⟨rest, hrest⟩ := List.head?_eq_some_iff.1 hhead
      rw [hrest, upTo, List.filter_cons_of_pos (by simp)]
      rfl
    rw [← hupTo, upTo_eq_take (sorted_listed year), List.head?_take] at hupToHead
    split_ifs at hupToHead
    exact hupToHead

/-- **A lookup does not depend on the years that are covered** beyond those it asks for. -/
theorem offsetIn_listed {t year : ℤ} (hyear : coveringYear zone t ≤ year) :
    offsetIn (listed expander zone year) t = offsetIn (listed expander zone (coveringYear zone t)) t := by
  have hlatest : zone.latestOnsetYear ≤ coveringYear zone t := le_max_right _ _
  rw [offsetIn_eq (sorted_listed _), offsetIn_eq (sorted_listed _), upTo_listed_eq h.listsByYears hyear,
    h.head?_listed (hlatest.trans hyear), h.head?_listed hlatest]

theorem countTransitionsIn_listed {s t year : ℤ} (hst : s ≤ t) (hyear : coveringYear zone t ≤ year) :
    countTransitionsIn (listed expander zone year) s t =
      countTransitionsIn (listed expander zone (coveringYear zone t)) s t := by
  rw [countTransitionsIn_upTo (sorted_listed _) hst, countTransitionsIn_upTo (sorted_listed _) hst,
    upTo_listed_eq h.listsByYears hyear]

end Readable

/-! ## The cache -/

def uncached (expander : ObservanceExpander) (zone : DeclaredZone) (instant : ℤ) :
    Except RangeError (List ZoneChange) :=
  expandZoneChanges expander zone.timezone (coveringYear zone instant)

/-- The answer to a question, from changes that are expanded for each instant it reads. -/
def answerUncached (expander : ObservanceExpander) (zone : DeclaredZone) (question : Question) :
    Except RangeError ℤ :=
  answer .error (uncached expander zone) question

/-- The changes are those of the year that the zone says it covers. -/
def Current (expander : ObservanceExpander) (zone : DeclaredZone) (coverage : Coverage) : Prop :=
  coverage = Coverage.fresh ∨ ∃ year : ℤ, coverage.coveredUntilYear = year ∧ zone.latestOnsetYear ≤ year ∧
    Bounded zone year ∧ coverage.changes = listed expander zone year

/-- The computation has the outcome of one without a state, and leaves the zone current unless an expansion was
refused. -/
def Agrees {α : Type} (expander : ObservanceExpander) (zone : DeclaredZone) (x : Effect RangeError Coverage α)
    (outcome : Except RangeError α) : Prop :=
  ∀ coverage, Current expander zone coverage →
    Effect.wp x (fun a reached => outcome = .ok a ∧ Current expander zone reached)
      (fun e reached => outcome = .error e ∧ (e = unableToExpand ∨ Current expander zone reached)) coverage

section Agrees
variable {α β : Type}

theorem agrees_pure (a : α) : Agrees expander zone (pure a) (pure a) := fun _ h => ⟨rfl, h⟩

theorem agrees_throw (e : RangeError) : Agrees expander zone (Effect.throw e : Effect RangeError Coverage α) (.error e) :=
  fun _ h => ⟨rfl, Or.inr h⟩

theorem agrees_bind {x : Effect RangeError Coverage α} {f : α → Effect RangeError Coverage β}
    {outcome : Except RangeError α} {g : α → Except RangeError β} (hx : Agrees expander zone x outcome)
    (hf : ∀ a, Agrees expander zone (f a) (g a)) : Agrees expander zone (x >>= f) (outcome >>= g) := by
  intro coverage h
  rw [Effect.wp_bind]
  refine Effect.wp_mono (hx coverage h) ?_ ?_
  · rintro a reached ⟨rfl, hreached⟩
    exact hf a reached hreached
  · rintro e reached ⟨rfl, hreached⟩
    exact ⟨rfl, hreached⟩

end Agrees

/-- **What the zone covers**: the changes of a year that covers the instant, or a refusal. -/
theorem coverChanges_spec (h : Readable expander zone) (t : ℤ) {coverage : Coverage}
    (hcurrent : Current expander zone coverage) :
    Effect.wp (coverChanges expander zone t)
      (fun covered reached => (Bounded zone (coveringYear zone t) ∧
        ∃ year, coveringYear zone t ≤ year ∧ covered = listed expander zone year) ∧ Current expander zone reached)
      (fun e _ => ¬Bounded zone (coveringYear zone t) ∧ e = unableToExpand) coverage := by
  unfold coverChanges
  simp only [Effect.wp_bind, Effect.wp_gets]
  split_ifs with hlater
  · -- the changes are expanded again, up to the year that covers the instant
    simp only [Effect.wp_bind, Effect.wp_modify]
    by_cases hbounded : Bounded zone (coveringYear zone t)
    · rw [expandZoneChanges_ok h.fullYears hbounded]
      exact ⟨⟨hbounded, _, le_rfl, rfl⟩, Or.inr ⟨_, rfl, le_max_right _ _, hbounded, rfl⟩⟩
    · rw [expandZoneChanges_error hbounded]
      exact ⟨hbounded, rfl⟩
  · rcases hcurrent with rfl | ⟨year, hyear, hlatest, hbounded, hchanges⟩
    · exact absurd (WithBot.bot_lt_coe _) hlater
    · rw [hyear, WithBot.coe_lt_coe, not_lt] at hlater
      have hcovering : coveringYear zone t ≤ year := max_le hlater hlatest
      exact ⟨⟨hbounded.mono hcovering, year, hcovering, hchanges⟩, Or.inr ⟨year, hyear, hlatest, hbounded, hchanges⟩⟩

/-- A lookup among the covered changes has the outcome of one among changes that are expanded for it. -/
theorem agrees_lookup (h : Readable expander zone) {α : Type} {t : ℤ} {lookup : List ZoneChange → α}
    (hlookup : ∀ year, coveringYear zone t ≤ year →
      lookup (listed expander zone year) = lookup (listed expander zone (coveringYear zone t))) :
    Agrees expander zone (do return lookup (← coverChanges expander zone t))
      (do return lookup (← uncached expander zone t)) := by
  intro coverage hcurrent
  rw [Effect.wp_bind]
  refine Effect.wp_mono (coverChanges_spec h t hcurrent) ?_ ?_
  · rintro covered reached ⟨⟨hbounded, year, hyear, rfl⟩, hreached⟩
    refine ⟨?_, hreached⟩
    rw [uncached, expandZoneChanges_ok h.fullYears hbounded, hlookup year hyear]
    rfl
  · rintro e reached ⟨hrefused, rfl⟩
    refine ⟨?_, Or.inl rfl⟩
    rw [uncached, expandZoneChanges_error hrefused]
    rfl

theorem agrees_offsetAt (h : Readable expander zone) (t : ℤ) :
    Agrees expander zone (offsetAt (coverChanges expander zone) t) (offsetAt (uncached expander zone) t) :=
  agrees_lookup h fun _ hyear => h.offsetIn_listed hyear

theorem agrees_countTransitionsBetween (h : Readable expander zone) {s t : ℤ} (hst : s ≤ t) :
    Agrees expander zone (countTransitionsBetween (coverChanges expander zone) s t)
      (countTransitionsBetween (uncached expander zone) s t) :=
  agrees_lookup h fun _ hyear => h.countTransitionsIn_listed hst hyear

section WallTimes
variable {look : ℤ → Effect RangeError Coverage ℤ} {look' : ℤ → Except RangeError ℤ}
  (hlook : ∀ t, Agrees expander zone (look t) (look' t))
include hlook

theorem agrees_matchingInstants (desiredTime : ℤ) (candidateOffsets : List ℤ) :
    Agrees expander zone (matchingInstants look desiredTime candidateOffsets)
      (matchingInstants look' desiredTime candidateOffsets) := by
  induction candidateOffsets with
  | nil => exact agrees_pure []
  | cons offset candidateOffsets ih =>
    exact agrees_bind (hlook _) fun shown => agrees_bind ih fun later => agrees_pure _

theorem agrees_wallTimeToInstantWith (wallTime : ℤ) :
    Agrees expander zone (wallTimeToInstantWith Effect.throw wallTime look)
      (wallTimeToInstantWith .error wallTime look') := by
  refine agrees_bind (hlook _) fun offsetBefore => agrees_bind (hlook _) fun offsetAfter => ?_
  split_ifs with hsame hgap
  · exact agrees_pure _
  · refine agrees_bind (agrees_matchingInstants hlook _ _) fun matching => ?_
    cases matching.min? with
    | some earliest => exact agrees_pure _
    | none => exact agrees_pure _
  · refine agrees_bind (agrees_matchingInstants hlook _ _) fun matching => ?_
    cases matching.min? with
    | some earliest => exact agrees_pure _
    | none => exact agrees_throw _

end WallTimes

/-- **A question is answered as without a cache**, by a zone that covers what it says. -/
theorem agrees_ask (h : Readable expander zone) (question : Question) :
    Agrees expander zone (ask expander zone question) (answerUncached expander zone question) := by
  cases question with
  | offsetAt t => exact agrees_offsetAt h t
  | wallTimeToInstant wallTime =>
    have hwindow : wallTime - msPerDay ≤ wallTime + msPerDay := by
      unfold msPerDay
      omega
    refine agrees_bind (agrees_countTransitionsBetween h hwindow) fun count => ?_
    split_ifs with htwice
    · exact agrees_throw _
    · exact agrees_wallTimeToInstantWith
        (fun t => agrees_bind (agrees_offsetAt h t) fun offset => agrees_pure _) wallTime

/-! ## Runs -/

theorem unableToExpand_ne_changesTwice (wall : String) :
    "Declared VTIMEZONE changes offset twice around " ++ wall ≠ unableToExpand := by
  intro h
  have hfirst := congrArg (fun text => text.toList.take 1) h
  simp [unableToExpand] at hfirst

theorem unableToExpand_ne_unableToResolve (wall : String) :
    "Unable to resolve wall time " ++ wall ≠ unableToExpand := by
  intro h
  have hfirst := congrArg (fun text => text.toList.take 11) h
  simp [unableToExpand] at hfirst

def offsetFound (expander : ObservanceExpander) (zone : DeclaredZone) (t : ℤ) : ℤ :=
  offsetIn (listed expander zone (coveringYear zone t)) t

/-- The instants whose offsets a question looks up. -/
def instantsRead (expander : ObservanceExpander) (zone : DeclaredZone) : Question → List ℤ
  | .offsetAt t => [t]
  | .wallTimeToInstant wallTime =>
    let offsetBefore := offsetFound expander zone (wallTime - probeWindowMs) * 1000
    let offsetAfter := offsetFound expander zone (wallTime + probeWindowMs) * 1000
    (wallTime + msPerDay) ::
      if 1 < countTransitionsIn (listed expander zone (coveringYear zone (wallTime + msPerDay)))
          (wallTime - msPerDay) (wallTime + msPerDay) then []
      else (wallTime - probeWindowMs) ::
        if offsetBefore = offsetAfter then [] else [wallTime - offsetBefore, wallTime - offsetAfter]

/-- The expansions that a question asks for are within the bound. -/
def AsksBounded (expander : ObservanceExpander) (zone : DeclaredZone) (question : Question) : Prop :=
  ∀ t ∈ instantsRead expander zone question, Bounded zone (coveringYear zone t)

theorem offsetAt_uncached (h : Readable expander zone) {t : ℤ} (hbounded : Bounded zone (coveringYear zone t)) :
    offsetAt (uncached expander zone) t = .ok (offsetFound expander zone t) := by
  rw [offsetAt, uncached, expandZoneChanges_ok h.fullYears hbounded]
  rfl

section
variable {look : ℤ → Except RangeError ℤ} {g : ℤ → ℤ} {wallTime : ℤ}

theorem matchingInstants_ok {candidateOffsets : List ℤ}
    (hlook : ∀ offset ∈ candidateOffsets, look (wallTime - offset) = .ok (g (wallTime - offset))) :
    matchingInstants look wallTime candidateOffsets =
      .ok ((candidateOffsets.map (wallTime - ·)).filter fun instant => g instant = wallTime - instant) := by
  induction candidateOffsets with
  | nil => rfl
  | cons offset candidateOffsets ih =>
    rw [matchingInstants, hlook offset List.mem_cons_self, ih fun o ho => hlook o (List.mem_cons_of_mem _ ho),
      List.map_cons, List.filter_cons]
    have hshown : (g (wallTime - offset) = wallTime - (wallTime - offset)) ↔ g (wallTime - offset) = offset := by
      rw [sub_sub_cancel]
    simp only [hshown, decide_eq_true_eq]
    rfl

/-- **The instant of a wall time** is that of the offsets as the other modules know them. -/
theorem wallTimeToInstantWith_ok
    (hbefore : look (wallTime - probeWindowMs) = .ok (g (wallTime - probeWindowMs)))
    (hafter : look (wallTime + probeWindowMs) = .ok (g (wallTime + probeWindowMs)))
    (hcandidates : g (wallTime - probeWindowMs) ≠ g (wallTime + probeWindowMs) →
      ∀ offset ∈ [g (wallTime - probeWindowMs), g (wallTime + probeWindowMs)],
        look (wallTime - offset) = .ok (g (wallTime - offset))) :
    wallTimeToInstantWith .error wallTime look = Keeper.wallTimeToInstantWith wallTime g := by
  rw [wallTimeToInstantWith, Keeper.wallTimeToInstantWith, hbefore, hafter]
  change (if _ then _ else _) = _
  by_cases hsame : g (wallTime - probeWindowMs) = g (wallTime + probeWindowMs)
  · rw [if_pos hsame, if_pos hsame]
    rfl
  · rw [if_neg hsame, if_neg hsame, matchingInstants_ok (hcandidates hsame)]
    rfl

theorem wallTimeToInstantWith_ne (wallTime : ℤ) (g : ℤ → ℤ) :
    Keeper.wallTimeToInstantWith wallTime g ≠ .error unableToExpand := by
  unfold Keeper.wallTimeToInstantWith
  dsimp only
  split_ifs
  · exact fun hrefused => by cases hrefused
  · split <;> exact fun hrefused => by cases hrefused
  · split
    · exact fun hrefused => by cases hrefused
    · exact fun hrefused => unableToExpand_ne_unableToResolve _ (Except.error.inj hrefused)

end

/-- **A question within the bound is not refused.** -/
theorem answerUncached_ne (h : Readable expander zone) {question : Question}
    (hasks : AsksBounded expander zone question) :
    answerUncached expander zone question ≠ .error unableToExpand := by
  cases question with
  | offsetAt t =>
    have hanswer : answerUncached expander zone (.offsetAt t) = .ok (offsetFound expander zone t) :=
      offsetAt_uncached h (hasks t List.mem_cons_self)
    rw [hanswer]
    exact fun hrefused => by cases hrefused
  | wallTimeToInstant wallTime =>
    have hcount : countTransitionsBetween (uncached expander zone) (wallTime - msPerDay) (wallTime + msPerDay) =
        .ok (countTransitionsIn (listed expander zone (coveringYear zone (wallTime + msPerDay)))
          (wallTime - msPerDay) (wallTime + msPerDay)) := by
      rw [countTransitionsBetween, uncached,
        expandZoneChanges_ok h.fullYears (hasks (wallTime + msPerDay) List.mem_cons_self)]
      rfl
    rw [answerUncached, answer, wallTimeToInstant, hcount]
    change (if _ then _ else _) ≠ _
    split_ifs with htwice
    · exact fun hrefused => unableToExpand_ne_changesTwice _ (Except.error.inj hrefused)
    · have hread : ∀ t ∈ instantsRead expander zone (.wallTimeToInstant wallTime),
          (do return (← offsetAt (uncached expander zone) t) * 1000) =
            Except.ok (ε := RangeError) (offsetFound expander zone t * 1000) := by
        intro t ht
        rw [offsetAt_uncached h (hasks t ht)]
        rfl
      simp only [instantsRead, if_neg htwice] at hread
      rw [wallTimeToInstantWith_ok (g := fun t => offsetFound expander zone t * 1000) (hread _ (by simp))
        (hread _ (by simp [probeWindowMs])) fun hdiffer => ?_]
      · exact wallTimeToInstantWith_ne _ _
      · intro offset hoffset
        rw [if_neg hdiffer] at hread
        exact hread _ (by
          rcases List.mem_cons.1 hoffset with rfl | hoffset
          · simp
          · simp [List.mem_singleton.1 hoffset])

/-- **The zone stays current** over the questions that ask for expansions within the bound. -/
theorem current_after (h : Readable expander zone) {questions : List Question}
    (hasks : ∀ question ∈ questions, AsksBounded expander zone question) :
    Current expander zone (after expander zone questions) := by
  induction questions using List.reverseRecOn with
  | nil => exact Or.inl rfl
  | append_singleton questions question ih =>
    have hbefore := ih fun earlier hearlier => hasks earlier (List.mem_append_left _ hearlier)
    have hafter : after expander zone (questions ++ [question]) =
        (ask expander zone question (after expander zone questions)).2 := List.foldl_append ..
    rw [hafter]
    refine Effect.wp_state (Effect.wp_mono (agrees_ask h question _ hbefore) (fun _ _ hreached => hreached.2) ?_)
    rintro e reached ⟨houtcome, rfl | hreached⟩
    · exact absurd houtcome (answerUncached_ne h (hasks question (by simp)))
    · exact hreached

theorem ask_eq (h : Readable expander zone) {coverage : Coverage} (hcurrent : Current expander zone coverage)
    (question : Question) : (ask expander zone question coverage).1 = answerUncached expander zone question := by
  have hspec := agrees_ask h question coverage hcurrent
  unfold Effect.wp at hspec
  rcases hask : ask expander zone question coverage with ⟨e | offset, reached⟩ <;> rw [hask] at hspec
  · exact hspec.1.symm
  · exact hspec.1.symm

/-! ## The latest onset -/

def IsOnset (expander : ObservanceExpander) (zone : DeclaredZone) (onset : ZoneChange) : Prop :=
  ∃ year, onset ∈ onsets expander zone year

/-- The offset of a latest onset at or before the instant, or the first onset's previous one. -/
def IsOffsetAt (expander : ObservanceExpander) (zone : DeclaredZone) (t offset : ℤ) : Prop :=
  (∃ latest, IsOnset expander zone latest ∧ latest.instant ≤ t ∧ offset = latest.offset ∧
    ∀ onset, IsOnset expander zone onset → onset.instant ≤ t → onset.instant ≤ latest.instant) ∨
  (∀ onset, IsOnset expander zone onset → t < onset.instant) ∧ ((∃ onset, IsOnset expander zone onset) →
    ∃ first, IsOnset expander zone first ∧ offset = first.previousOffset ∧
      ∀ onset, IsOnset expander zone onset → first.instant ≤ onset.instant)

theorem onsets_subset (h : Readable expander zone) (hyear : year ≤ year') :
    onsets expander zone year ⊆ onsets expander zone year' := by
  intro onset honset
  obtain ⟨observance, hobservance, honset⟩ := List.mem_flatMap.1 honset
  obtain ⟨later, happend, -⟩ := h.listsByYears observance hobservance year year' hyear
  refine List.mem_flatMap.2 ⟨observance, hobservance, ?_⟩
  rw [happend, List.map_append]
  exact List.mem_append_left _ honset

/-- An onset at or before an instant is listed by the years that cover it. -/
theorem mem_upTo_listed (h : Readable expander zone) {t : ℤ} (honset : IsOnset expander zone onset)
    (ht : onset.instant ≤ t) : onset ∈ upTo t (listed expander zone (coveringYear zone t)) := by
  obtain ⟨year, hmem⟩ := honset
  have hmax := onsets_subset h (le_max_left year (coveringYear zone t)) hmem
  rw [← upTo_listed_eq h.listsByYears (le_max_right year (coveringYear zone t))]
  exact List.mem_filter.2 ⟨JsArray.mem_toSorted.2 hmax, by simpa using ht⟩

theorem isOnset_of_mem_listed (h : onset ∈ listed expander zone year) :
    IsOnset expander zone onset := ⟨year, JsArray.mem_toSorted.1 h⟩

/-- The first of the changes that are listed comes before every onset. -/
theorem head_le (h : Readable expander zone) (hyear : zone.latestOnsetYear ≤ year) {first : ZoneChange}
    (hhead : (listed expander zone year).head? = some first) (honset : IsOnset expander zone onset) :
    first.instant ≤ onset.instant := by
  obtain ⟨year', hmem⟩ := honset
  have hmax := onsets_subset h (le_max_left year' year) hmem
  have hhead' : (listed expander zone (max year' year)).head? = some first := by
    rw [h.head?_listed (hyear.trans (le_max_right _ _)), ← h.head?_listed hyear, hhead]
  obtain ⟨rest, hrest⟩ := List.head?_eq_some_iff.1 hhead'
  have hsorted := @sorted_listed expander zone (max year' year)
  have hlisted : onset ∈ listed expander zone (max year' year) := JsArray.mem_toSorted.2 hmax
  rw [hrest] at hsorted hlisted
  rcases List.mem_cons.1 hlisted with rfl | hlisted
  · exact le_rfl
  · exact (List.pairwise_cons.1 hsorted).1 onset hlisted

/-- **What a zone finds is the offset of the latest onset.** -/
theorem isOffsetAt_offsetFound (h : Readable expander zone) (t : ℤ) :
    IsOffsetAt expander zone t (offsetFound expander zone t) := by
  unfold offsetFound
  rw [offsetIn_eq (sorted_listed _)]
  cases hlast : (upTo t (listed expander zone (coveringYear zone t))).getLast? with
  | some latest =>
    have hmem := List.mem_of_getLast? hlast
    obtain ⟨hlisted, hle⟩ := List.mem_filter.1 hmem
    refine Or.inl ⟨latest, isOnset_of_mem_listed hlisted, by simpa using hle, rfl, fun onset honset ht => ?_⟩
    obtain ⟨before, hbefore⟩ := List.getLast?_eq_some_iff.1 hlast
    have hsorted := (@sorted_listed expander zone (coveringYear zone t)).upTo t
    have honset' := mem_upTo_listed h honset ht
    rw [hbefore] at hsorted honset'
    rcases List.mem_append.1 honset' with honset' | honset'
    · exact (List.pairwise_append.1 hsorted).2.2 onset honset' latest List.mem_cons_self
    · rw [List.mem_singleton.1 honset']
  | none =>
    rw [List.getLast?_eq_none_iff] at hlast
    refine Or.inr ⟨fun onset honset => ?_, ?_⟩
    · by_contra hle
      have := mem_upTo_listed h honset (not_lt.1 hle)
      rw [hlast] at this
      exact List.not_mem_nil this
    · rintro ⟨onset, honset⟩
      have hlatest : zone.latestOnsetYear ≤ coveringYear zone t := le_max_right _ _
      cases hhead : (listed expander zone (coveringYear zone t)).head? with
      | none =>
        obtain ⟨year, hmem⟩ := honset
        have hmax := onsets_subset h (le_max_left year (coveringYear zone t)) hmem
        have hnil := h.head?_listed (hlatest.trans (le_max_right year (coveringYear zone t)))
        rw [← h.head?_listed hlatest, hhead, List.head?_eq_none_iff, listed, JsArray.toSorted_eq_nil_iff] at hnil
        rw [hnil] at hmax
        exact absurd hmax List.not_mem_nil
      | some first =>
        refine ⟨first, isOnset_of_mem_listed (List.mem_of_head? hhead), rfl, fun onset honset => ?_⟩
        exact head_le h hlatest hhead honset

/-! ## Answers do not depend on the questions before -/

/-- A question after others is answered as by a fresh zone object, and the offset at an instant is that of the
latest onset. -/
def AnswersAlike (expander : ObservanceExpander) (zone : DeclaredZone) (earlier : List Question)
    (question : Question) : Prop :=
  (ask expander zone question (after expander zone earlier)).1 = (ask expander zone question Coverage.fresh).1 ∧
    ∀ t, question = .offsetAt t → ∃ offset,
      (ask expander zone question (after expander zone earlier)).1 = .ok offset ∧ IsOffsetAt expander zone t offset

/-- **Answers do not depend on the questions before**, where these ask for expansions within the bound: also of
one that is refused its own. -/
theorem answersAlike_run (h : Readable expander zone) {earlier : List Question}
    (hasks : ∀ question ∈ earlier, AsksBounded expander zone question) (question : Question) :
    (ask expander zone question (after expander zone earlier)).1 = (ask expander zone question Coverage.fresh).1 ∧
      (AsksBounded expander zone question → AnswersAlike expander zone earlier question) := by
  have hafter := ask_eq h (current_after h hasks) question
  have hsame := hafter.trans (ask_eq h (Or.inl rfl) question).symm
  refine ⟨hsame, fun hask => ⟨hsame, ?_⟩⟩
  rintro t rfl
  refine ⟨offsetFound expander zone t, ?_, isOffsetAt_offsetFound h t⟩
  rw [hafter]
  exact offsetAt_uncached h (hask t List.mem_cons_self)

def listStart : ObservanceExpander := fun observance untilYear =>
  observance.dtstart.join.map fun start =>
    if observance.rrule.isSome ∧ untilYear < start.year then [] else [⟨{ start with hour := start.hour + 6 }, -21600⟩]

def standardTime (rrule : Option (Option ObservanceRule)) : Observance where
  name := "standard"
  dtstart := some (some ⟨1990, 1, 1, 2, 0, 0⟩)
  tzoffsetfrom := some "-06:00"
  tzoffsetto := some "-07:00"
  rrule := rrule
  rdate := []

theorem answersAlike_run_example :
    AnswersAlike listStart ⟨[standardTime none], 1990⟩ [.offsetAt 0, .wallTimeToInstant 631152000000]
      (.offsetAt 1784106000000) := by
  have hchanges : ∀ observance ∈ listUsableObservances [standardTime none], ∀ year,
      listChanges listStart observance year = [⟨⟨1990, 1, 1, 8, 0, 0⟩, -21600⟩] := by
    intro observance hobservance year
    obtain rfl := List.mem_singleton.1 (List.mem_of_mem_filter hobservance)
    rfl
  have hbounded : ∀ question, AsksBounded listStart ⟨[standardTime none], 1990⟩ question := by
    intro question t _ observance hobservance
    obtain rfl := List.mem_singleton.1 (List.mem_of_mem_filter hobservance)
    rfl
  refine (answersAlike_run ⟨?_, ?_, ?_⟩ (fun question _ => hbounded question) _).2 (hbounded _)
  · intro observance hobservance year year' _
    exact ⟨[], by rw [hchanges observance hobservance, hchanges observance hobservance]; rfl, by simp⟩
  · intro observance hobservance year change hchange
    rw [hchanges observance hobservance, List.mem_singleton] at hchange
    subst hchange
    decide
  · intro observance hobservance year _ change hchange
    rw [hchanges observance hobservance, hchanges observance hobservance] at hchange
    exact absurd hchange List.not_mem_nil

/-- A rule that an expansion refuses, whatever it lists. -/
def dailyOnce : ObservanceRule := ⟨"DAILY", 1, some 1, none, fun _ => none⟩

/-- **After a refusal the zone answers from the onsets of before.** The first question is refused; so is it to a
fresh zone, but the second time it is answered by an offset of 0. -/
theorem not_answersAlike :
    readDeclaredZone [standardTime (some (some dailyOnce))] = some ⟨[standardTime (some (some dailyOnce))], 1990⟩ ∧
      (∀ observance ∈ listUsableObservances [standardTime (some (some dailyOnce))],
        ListsByYears listStart observance) ∧
      ¬∀ earlier question,
        AnswersAlike listStart ⟨[standardTime (some (some dailyOnce))], 1990⟩ earlier question := by
  refine ⟨rfl, ?_, fun hclaim => ?_⟩
  · intro observance hobservance year year' hyear
    obtain rfl := List.mem_singleton.1 (List.mem_of_mem_filter hobservance)
    have hchanges : ∀ year, listChanges listStart (standardTime (some (some dailyOnce))) year =
        if year < 1990 then [] else [⟨⟨1990, 1, 1, 8, 0, 0⟩, -21600⟩] := fun year =>
      if_congr (and_iff_right rfl) rfl rfl
    rw [hchanges, hchanges]
    by_cases hbefore : year < 1990
    · refine ⟨if year' < 1990 then [] else [⟨⟨1990, 1, 1, 8, 0, 0⟩, -21600⟩], by rw [if_pos hbefore]; rfl, ?_⟩
      intro change hchange
      split_ifs at hchange
      · exact absurd hchange List.not_mem_nil
      · obtain rfl := List.mem_singleton.1 hchange
        have hwall : yearStart 1990 ≤ wallTimeOf ⟨⟨1990, 1, 1, 8, 0, 0⟩, -21600⟩ := by decide
        have hstart : yearStart (year + 1) ≤ yearStart 1990 := yearStart_mono (by omega)
        omega
    · exact ⟨[], by rw [if_neg hbefore, if_neg (by omega)]; rfl, by simp⟩
  · have halike := (hclaim [.offsetAt 0] (.offsetAt 0)).1
    have hfresh : (ask listStart ⟨[standardTime (some (some dailyOnce))], 1990⟩ (.offsetAt 0) Coverage.fresh).1 =
        .error unableToExpand := by decide +kernel
    have hafter : (ask listStart ⟨[standardTime (some (some dailyOnce))], 1990⟩ (.offsetAt 0)
        (after listStart ⟨[standardTime (some (some dailyOnce))], 1990⟩ [.offsetAt 0])).1 = .ok 0 := by
      decide +kernel
    rw [hfresh, hafter] at halike
    cases halike

end DeclaredZone

end Keeper
