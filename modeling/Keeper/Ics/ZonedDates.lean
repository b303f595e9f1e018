import Keeper.Foundations.Fallible
import Keeper.Foundations.JsMap
import Keeper.Recurrence.OffsetChanges

/-!
# Zoned dates and the zones they name

What the generators of calendars write for an instant (`ics/utils/build-zoned-date.ts`) and for a time
zone (`ics/utils/build-vtimezone.ts`).

* `buildZonedIcsDate_ok`: a written date stands for the instant it was built from.
* `findTransitionInstant_spec`: the bisection ends at a change of the offset.
-/

namespace Keeper

/-! ## Dates -/

def padTwo (value : ℕ) : String := if value < 10 then "0" ++ toString value else toString value

def writtenSign (offset : ℤ) : String := if offset < 0 then "-" else "+"

def formatTzOffset (offsetMs : ℤ) : String :=
  let totalMinutes := (offsetMs.natAbs + 30000) / 60000
  writtenSign offsetMs ++ padTwo (totalMinutes / 60) ++ ":" ++ padTwo (totalMinutes % 60)

section Dates

variable (zones : Zones)

/-- `buildZonedIcsDate`: a wall time whose instant is another one is written in UTC. -/
def buildZonedIcsDate (instant : ℤ) (timezone : Option String) (isAllDay : Bool) :
    Except RangeError IcsDateObject :=
  if isAllDay then .ok { date := instant, type := some .date }
  else
    match truthy (normalizeTimezone zones timezone) with
    | none => .ok { date := instant }
    | some resolved =>
      if isSupportedTimeZone zones (some resolved) then do
        let localDate := zones.instantToWallTime instant resolved
        let earliest ← wallTimeToInstant zones localDate resolved
        return if earliest ≠ instant then { date := instant }
          else
            { date := instant
              «local» := some ⟨localDate, resolved, formatTzOffset (localDate - instant)⟩ }
      else .ok { date := instant }

/-- The instant that a written date stands for: a DATE for the start of its UTC day, a local time for
the first instant that shows it. -/
def IcsDateObject.StandsFor (d : IcsDateObject) (instant : ℤ) : Prop :=
  match d.type, d.local with
  | some .date, _ => d.date / msPerDay = instant / msPerDay
  | _, some l => wallTimeToInstant zones l.date l.timezone = .ok instant
  | _, none => d.date = instant

structure WritesInstant (isAllDay : Bool) (instant : ℤ) (d : IcsDateObject) : Prop where
  date : d.date = instant
  type : d.type = if isAllDay then some .date else none
  readsLocal : ∀ l, d.local = some l → isAllDay = false ∧
    l.date = zones.instantToWallTime instant l.timezone ∧
    wallTimeToInstant zones l.date l.timezone = .ok instant

/-- **A written date** holds its instant, and a local time of it that is read back as it. -/
theorem buildZonedIcsDate_ok {instant : ℤ} {timezone : Option String} {isAllDay : Bool}
    {d : IcsDateObject} (h : buildZonedIcsDate zones instant timezone isAllDay = .ok d) :
    WritesInstant zones isAllDay instant d := by
  unfold buildZonedIcsDate at h
  split_ifs at h with hallDay
  · obtain rfl := Except.ok.inj h
    exact ⟨rfl, by simp [hallDay], fun l hl => by cases hl⟩
  · rw [Bool.not_eq_true] at hallDay
    subst hallDay
    have hplain : WritesInstant zones false instant { date := instant } :=
      ⟨rfl, rfl, fun l hl => by cases hl⟩
    split at h
    · obtain rfl := Except.ok.inj h
      exact hplain
    · rename_i resolved hresolved
      split_ifs at h with hsupported
      · obtain ⟨earliest, hearliest, h⟩ := bind_eq_ok_iff.1 h
        replace h := Except.ok.inj h
        split_ifs at h with hother
        · obtain rfl := h
          exact hplain
        · obtain rfl := h
          rw [not_not] at hother
          subst hother
          refine ⟨rfl, rfl, fun l hl => ?_⟩
          obtain rfl := Option.some.inj hl
          exact ⟨rfl, rfl, hearliest⟩
      · obtain rfl := Except.ok.inj h
        exact hplain

variable {zones} in
/-- What a written date stands for: the UTC day of an all-day instant, or the instant alone. -/
theorem WritesInstant.standsFor_iff {isAllDay : Bool} {instant slot : ℤ} {d : IcsDateObject}
    (h : WritesInstant zones isAllDay instant d) :
    d.StandsFor zones slot ↔
      if isAllDay then instant / msPerDay = slot / msPerDay else instant = slot := by
  obtain ⟨hdate, htype, hlocal⟩ := h
  unfold IcsDateObject.StandsFor
  rw [htype, hdate]
  cases isAllDay with
  | true => simp
  | false =>
    cases hl : d.local with
    | none => simp
    | some l =>
      obtain ⟨-, -, hback⟩ := hlocal l hl
      simp [hback]

end Dates

/-! ## Time zones in a calendar -/

inductive IcsTimezonePropType
  | standard
  | daylight
  deriving DecidableEq

/-- `IcsTimezoneProp`: an observance. -/
structure IcsTimezoneProp where
  type : IcsTimezonePropType
  start : ℤ
  offsetFrom : String
  offsetTo : String
  recurrenceRule : Option IcsRecurrenceRule := none
  deriving DecidableEq

structure IcsTimezone where
  id : String
  props : List IcsTimezoneProp
  deriving DecidableEq

def formatIcsUtcOffset (offsetMinutes : ℤ) : String :=
  writtenSign offsetMinutes ++ padTwo (offsetMinutes.natAbs / 60) ++ padTwo (offsetMinutes.natAbs % 60)

def buildBaselineObservance (firstWallTime offsetMinutes : ℤ) : IcsTimezoneProp where
  type := .standard
  start := firstWallTime - offsetMinutes * msPerMinute
  offsetFrom := formatIcsUtcOffset offsetMinutes
  offsetTo := formatIcsUtcOffset offsetMinutes

namespace TimeZoneTransition

/-- `getLocalOnset`. -/
def localOnset (transition : TimeZoneTransition) : ℤ :=
  transition.instant + transition.offsetFromMinutes * msPerMinute

end TimeZoneTransition

def buildTransitionObservance (transition : TimeZoneTransition) : IcsTimezoneProp where
  type := if transition.offsetFromMinutes < transition.offsetToMinutes then .daylight else .standard
  start := transition.localOnset - transition.offsetToMinutes * msPerMinute
  offsetFrom := formatIcsUtcOffset transition.offsetFromMinutes
  offsetTo := formatIcsUtcOffset transition.offsetToMinutes

def daysOfWeek : List IcsWeekDay := [.su, .mo, .tu, .we, .th, .fr, .sa]

/-- `getUTCDay`, with Sunday as zero. -/
def getUTCDay (t : ℤ) : ℤ := (t / msPerDay + 4) % 7

/-- `getWeekdayOccurrence`; no day is past an invalid end of its month. -/
def getWeekdayOccurrence (localOnset : ℤ) : ℤ :=
  let dayOfMonth := Date.getUTCDate localOnset
  let endOfMonth :=
    Date.utcDate (Date.getUTCFullYear localOnset) (Date.getUTCMonth localOnset + 1) 0
  if endOfMonth.any fun last => Date.getUTCDate last < dayOfMonth + 7 then -1
  else (dayOfMonth - 1) / 7 + 1

/-- `getTransitionPattern`, as the numbers of its JSON array: the last three are the hours, minutes and
seconds of the onset. -/
def getTransitionPattern (transition : TimeZoneTransition) : List ℤ :=
  let localOnset := transition.localOnset
  [transition.offsetFromMinutes, transition.offsetToMinutes, Date.getUTCMonth localOnset,
    getUTCDay localOnset, getWeekdayOccurrence localOnset, localOnset / 3600000 % 24,
    localOnset / 60000 % 60, localOnset / 1000 % 60]

def groupStableAnnualTransitions (transitions : List TimeZoneTransition) (firstYear finalYear : ℤ) :
    Option (List (List TimeZoneTransition)) :=
  let groups := (JsMap.group (transitions.map fun transition =>
    (getTransitionPattern transition, transition))).values
  let expectedYears := finalYear - firstYear + 1
  if groups.length ≠ 2 then none
  else if groups.any fun group => group.length ≠ expectedYears then none
  else if groups.any fun group => (List.range expectedYears.toNat).any fun year =>
    !(group.map fun transition => Date.getUTCFullYear transition.localOnset).contains (firstYear + year)
  then none
  else some groups

def buildAnnualRecurrenceRule (transition : TimeZoneTransition) :
    Except RangeError IcsRecurrenceRule :=
  match daysOfWeek[(getUTCDay transition.localOnset).toNat]? with
  | none =>
    .error ("Unable to resolve transition weekday for " ++ Date.toISOString transition.localOnset)
  | some weekday => .ok
    { frequency := .yearly
      byMonth := some [Date.getUTCMonth transition.localOnset]
      byDay := some [⟨weekday, some (getWeekdayOccurrence transition.localOnset)⟩] }

def buildRecurringObservance (transition : TimeZoneTransition) : Except RangeError IcsTimezoneProp := do
  let rule ← buildAnnualRecurrenceRule transition
  return { buildTransitionObservance transition with recurrenceRule := some rule }

def projectionYearsAfterReference : ℤ := 100

def projectionYearsBeforeReference : ℤ := 1

/-- `buildVtimezone`, without its cache: the zone as it is observed from the year before a reference
instant to a hundred years after it and after the present. -/
def buildVtimezone (zones : Zones) (now : ℤ) (timezone : Option String) (referenceInstant : ℤ) :
    Except RangeError (Option IcsTimezone) :=
  match truthy (normalizeTimezone zones timezone) with
  | none => .ok none
  | some resolved =>
    if isSupportedTimeZone zones (some resolved) then do
      let referenceYear := Date.getUTCFullYear referenceInstant
      let projectionBaseYear := max referenceYear (Date.getUTCFullYear now)
      let firstYear := referenceYear - projectionYearsBeforeReference
      let finalYear := projectionBaseYear + projectionYearsAfterReference
      -- `Intl.DateTimeFormat` rejects a date that is out of range
      let start ← (Date.utcDate firstYear 0 1).elim (.error "Invalid time value") .ok
      let initialOffset := getTimeZoneOffsetMinutes zones resolved start
      let transitions ← findTimeZoneTransitions zones resolved (some start)
        (Date.utcDate (finalYear + 1) 0 1)
      let transitionObservances ←
        match groupStableAnnualTransitions transitions firstYear finalYear with
        | some recurringTransitions =>
          (recurringTransitions.filterMap List.head?).mapM buildRecurringObservance
        | none => pure (transitions.map buildTransitionObservance)
      return some
        { id := resolved
          props := buildBaselineObservance start initialOffset :: transitionObservances }
    else .ok none

end Keeper
