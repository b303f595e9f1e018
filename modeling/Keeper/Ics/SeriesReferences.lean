import Keeper.Foundations.Fallible
import Keeper.Foundations.JsArray
import Keeper.Foundations.JsMap
import Keeper.Ics.ContentLines
import Keeper.Ics.IcsDates
import Keeper.Recurrence.TimeZones

/-!
# References to the slots of a series

`ics/utils/series-recurrence-references.ts`: what is read of a series' rule, and the slots of it that a date
excludes. `Number` is a parameter: it gives the integer that a text spells, and none where it spells no integer. The
interval of a rule is none where its text spells no integer; the loop over its steps ends at once then.

* `mem_elapsedInstants_iff`: the steps of an excluded day.
* `mem_listSlotWallTimes_iff`: its wall times.
-/

namespace Keeper

open JsArray

/-! ## The rule of a series -/

inductive SeriesZone
  | utc
  | zoned (declared : String) (resolved : Option String)
  deriving DecidableEq

structure SeriesRule where
  byHour : Option (List ℤ) := none
  byMinute : Option (List ℤ) := none
  bySecond : Option (List ℤ) := none
  frequency : String
  hasSelectors : Bool
  interval : Option ℤ
  deriving DecidableEq

structure SeriesMasterContext where
  rule : SeriesRule
  startWallTime : ℤ
  zone : SeriesZone
  deriving DecidableEq

structure DateExclusionSlots where
  instants : List (List Char)
  wallTimes : List (List Char)
  deriving DecidableEq

/-- `split(",")`. -/
def splitCommas : List Char → List (List Char)
  | [] => [[]]
  | ',' :: text => [] :: splitCommas text
  | c :: text => consLine c (splitCommas text)

def rulePart (part : List Char) : List Char × List Char :=
  ((part.takeWhile (· ≠ '=')).map Char.toUpper, ((part.dropWhile (· ≠ '=')).drop 1).takeWhile (· ≠ '='))

/-- The parts of a rule by their names: the last of those of one name. -/
def ruleParts (ruleValue : List Char) : JsMap (List Char) (List Char) :=
  JsMap.ofList ((splitSemicolons ruleValue).map rulePart)

section Rules

variable (number : List Char → Option ℤ)

def readNumberList (value : Option (List Char)) (min max : ℤ) : Option (List ℤ) :=
  match value with
  | none => none
  | some [] => none
  | some value =>
    let numbers := ((splitCommas value).filterMap number).dedup
    some (toSorted (· - ·) (numbers.filter fun number => min ≤ number ∧ number ≤ max))

def readSeriesRule (ruleValue : List Char) : SeriesRule :=
  let parts := ruleParts ruleValue
  { byHour := readNumberList number (parts.get? "BYHOUR".toList) 0 23
    byMinute := readNumberList number (parts.get? "BYMINUTE".toList) 0 59
    bySecond := readNumberList number (parts.get? "BYSECOND".toList) 0 60
    frequency := String.ofList (((parts.get? "FREQ".toList).getD []).map Char.toUpper)
    hasSelectors := parts.keys.any fun name => "BY".toList.isPrefixOf name
    interval :=
      match parts.get? "INTERVAL".toList with
      | none => some 1
      | some interval => (number interval).map fun interval => max interval 1 }

end Rules

/-! ## Excluded dates -/

def getUTCHours (t : ℤ) : ℤ := t / 3600000 % 24

def getUTCMinutes (t : ℤ) : ℤ := t / 60000 % 60

def getUTCSeconds (t : ℤ) : ℤ := t / 1000 % 60

/-- `Date.UTC(1970, 0, 1, hour, minute, second)`. -/
def timeOfDay (hour minute second : ℤ) : ℤ := hour * 3600000 + minute * 60000 + second * 1000

def msPerHour : ℤ := 3600000

def maxSlotsPerExcludedDate : ℕ := 1440

def timeOfDayMilliseconds (wallTime : ℤ) : ℤ := wallTime % msPerDay

namespace SeriesMasterContext

variable (master : SeriesMasterContext)

def hours : List ℤ :=
  master.rule.byHour.getD (if master.rule.frequency = "HOURLY" then (List.range 24).map Nat.cast
    else [getUTCHours master.startWallTime])

def minutes : List ℤ := master.rule.byMinute.getD [getUTCMinutes master.startWallTime]

def seconds : List ℤ := master.rule.bySecond.getD [getUTCSeconds master.startWallTime]

/-- The series steps through elapsed hours: `stepsInElapsedHours` of `expandDateExclusion`. -/
def stepsInElapsedHours : Bool := master.rule.frequency = "HOURLY" && !master.rule.hasSelectors

end SeriesMasterContext

/-- The loop of `listElapsedHourInstants`. -/
def elapsedInstants (seriesStart step dayEnd index : ℤ) : List ℤ :=
  if _hstep : 0 < step ∧ seriesStart + index * step < dayEnd then
    (seriesStart + index * step) :: elapsedInstants seriesStart step dayEnd (index + 1)
  else []
termination_by (dayEnd - (seriesStart + index * step)).toNat
decreasing_by
  have hnext : (index + 1) * step = index * step + step := by ring
  omega

section Exclusions

variable (zones : Zones)

def toZoneInstant (wallTime : ℤ) (zone : SeriesZone) : Except RangeError (Option ℤ) :=
  match zone with
  | .utc => .ok (some wallTime)
  | .zoned _ none => .ok none
  | .zoned _ (some resolved) => do
    let instant ← wallTimeToInstant zones wallTime resolved
    return some instant

def listElapsedHourInstants (date : List Char) (master : SeriesMasterContext) :
    Except RangeError (Option (List ℤ)) := do
  let dayStart ← toZoneInstant zones (readDateWallTime date 0) master.zone
  let dayEnd ← toZoneInstant zones (readDateWallTime date 1) master.zone
  let seriesStart ← toZoneInstant zones master.startWallTime master.zone
  match dayStart, dayEnd, seriesStart with
  | some dayStart, some dayEnd, some seriesStart =>
    match master.rule.interval with
    | none => return some []
    | some interval =>
      let step := interval * msPerHour
      let firstIndex := max (-(-(dayStart - seriesStart) / step)) 0
      return some (elapsedInstants seriesStart step dayEnd firstIndex)
  | _, _, _ => return none

def listSlotWallTimes (date : List Char) (master : SeriesMasterContext) : Except RangeError (List ℤ) :=
  let dayStart := readDateWallTime date 0
  if master.rule.frequency = "MINUTELY" ∨ master.rule.frequency = "SECONDLY" then
    .ok [dayStart + timeOfDayMilliseconds master.startWallTime]
  else if maxSlotsPerExcludedDate < master.hours.length * master.minutes.length * master.seconds.length then
    .error ("DATE EXDATE " ++ String.ofList date ++ " covers more than " ++ toString maxSlotsPerExcludedDate ++
      " series slots")
  else
    .ok (master.hours.flatMap fun hour => master.minutes.flatMap fun minute =>
      master.seconds.map fun second => dayStart + timeOfDay hour minute second)

def expandDateExclusion (date : List Char) (master : SeriesMasterContext) :
    Except RangeError DateExclusionSlots := do
  let elapsedInstants ← if master.stepsInElapsedHours then listElapsedHourInstants zones date master else pure none
  match elapsedInstants with
  | some instants => return ⟨instants.map toUtcIcsDateTime, []⟩
  | none =>
    let wallTimes ← listSlotWallTimes date master
    match master.zone with
    | .utc => return ⟨wallTimes.map toUtcIcsDateTime, []⟩
    | .zoned _ _ => return ⟨[], wallTimes.map toFloatingIcsDateTime⟩

end Exclusions

/-! ## What is listed -/

/-- **The steps before the end of a day**, from an index on. -/
theorem mem_elapsedInstants_iff {seriesStart step dayEnd index t : ℤ} (hstep : 0 < step) :
    t ∈ elapsedInstants seriesStart step dayEnd index ↔
      ∃ k, index ≤ k ∧ t = seriesStart + k * step ∧ t < dayEnd := by
  fun_induction elapsedInstants seriesStart step dayEnd index with
  | case1 index hinside ih =>
    rw [List.mem_cons, ih]
    constructor
    · rintro (rfl | ⟨k, hk, rfl, hlt⟩)
      · exact ⟨index, le_rfl, rfl, hinside.2⟩
      · exact ⟨k, by omega, rfl, hlt⟩
    · rintro ⟨k, hk, rfl, hlt⟩
      rcases eq_or_lt_of_le hk with rfl | hk
      · exact Or.inl rfl
      · exact Or.inr ⟨k, hk, rfl, hlt⟩
  | case2 index houtside =>
    refine iff_of_false List.not_mem_nil ?_
    rintro ⟨k, hk, rfl, hlt⟩
    have hmul : index * step ≤ k * step := Int.mul_le_mul_of_nonneg_right hk hstep.le
    exact houtside ⟨hstep, by omega⟩

/-- **The wall times of an excluded date** have the hours, minutes and seconds of the series. -/
theorem mem_listSlotWallTimes_iff {date : List Char} {master : SeriesMasterContext} {wallTimes : List ℤ}
    (h : listSlotWallTimes date master = .ok wallTimes)
    (hfrequency : ¬(master.rule.frequency = "MINUTELY" ∨ master.rule.frequency = "SECONDLY")) {x : ℤ} :
    x ∈ wallTimes ↔ ∃ hour ∈ master.hours, ∃ minute ∈ master.minutes, ∃ second ∈ master.seconds,
      x = readDateWallTime date 0 + timeOfDay hour minute second := by
  unfold listSlotWallTimes at h
  dsimp only at h
  rw [if_neg hfrequency] at h
  split_ifs at h
  obtain rfl := Except.ok.inj h
  simp only [List.mem_flatMap, List.mem_map, eq_comm]

end Keeper
