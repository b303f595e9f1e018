import Keeper.Foundations.Text
import Keeper.Foundations.IsoDate

/-!
# The data of the program

The records of `core/types.ts`, `core/events/mappings.ts` and `core/sync-engine/types.ts`, and the
recurrence records of `ts-ics`. An instant (`Date` in the source) is an integer of milliseconds;
an optional field is an `Option`. Dates are valid: the source rejects invalid ones when it prints
them, and the database holds none.
-/

namespace Keeper

/-! ## Recurrence records -/

structure IcsDuration where
  before : Option Bool := none
  weeks : Option ℤ := none
  days : Option ℤ := none
  hours : Option ℤ := none
  minutes : Option ℤ := none
  seconds : Option ℤ := none
  deriving DecidableEq

inductive IcsDateType
  | date
  | dateTime
  deriving DecidableEq

/-- The `local` part of an `IcsDateObject`. -/
structure IcsLocalDate where
  date : ℤ
  timezone : String
  tzoffset : String
  deriving DecidableEq

structure IcsDateObject where
  date : ℤ
  type : Option IcsDateType := none
  «local» : Option IcsLocalDate := none
  deriving DecidableEq

inductive IcsFrequency
  | secondly
  | minutely
  | hourly
  | daily
  | weekly
  | monthly
  | yearly
  deriving DecidableEq

inductive IcsWeekDay
  | su
  | mo
  | tu
  | we
  | th
  | fr
  | sa
  deriving DecidableEq

structure IcsByDay where
  day : IcsWeekDay
  occurrence : Option ℤ := none
  deriving DecidableEq

structure IcsRecurrenceRule where
  frequency : IcsFrequency
  «until» : Option IcsDateObject := none
  count : Option ℤ := none
  interval : Option ℤ := none
  bySecond : Option (List ℤ) := none
  byMinute : Option (List ℤ) := none
  byHour : Option (List ℤ) := none
  byDay : Option (List IcsByDay) := none
  byMonthday : Option (List ℤ) := none
  byYearday : Option (List ℤ) := none
  byWeekNo : Option (List ℤ) := none
  byMonth : Option (List ℤ) := none
  bySetPos : Option (List ℤ) := none
  workweekStart : Option IcsWeekDay := none
  deriving DecidableEq

namespace IcsDateType

def name : IcsDateType → String
  | date => "DATE"
  | dateTime => "DATE-TIME"

end IcsDateType

namespace IcsFrequency

def name : IcsFrequency → String
  | secondly => "SECONDLY"
  | minutely => "MINUTELY"
  | hourly => "HOURLY"
  | daily => "DAILY"
  | weekly => "WEEKLY"
  | monthly => "MONTHLY"
  | yearly => "YEARLY"

end IcsFrequency

namespace IcsWeekDay

def name : IcsWeekDay → String
  | su => "SU"
  | mo => "MO"
  | tu => "TU"
  | we => "WE"
  | th => "TH"
  | fr => "FR"
  | sa => "SA"

end IcsWeekDay

/-! The JSON of a record: `undefined` fields are left out and a date is its ISO string. -/

/-- A date in JSON: `Date.prototype.toJSON`. -/
def dateJson (t : ℤ) : Json := .str (Date.toISOString t)

def IcsDuration.toJson (d : IcsDuration) : Json :=
  .ofFields [("before", d.before.map .bool), ("weeks", d.weeks.map .num),
    ("days", d.days.map .num), ("hours", d.hours.map .num), ("minutes", d.minutes.map .num),
    ("seconds", d.seconds.map .num)]

def IcsLocalDate.toJson (l : IcsLocalDate) : Json :=
  .ofFields [("date", some (dateJson l.date)), ("timezone", some (.str l.timezone)),
    ("tzoffset", some (.str l.tzoffset))]

def IcsDateObject.toJson (d : IcsDateObject) : Json :=
  .ofFields [("date", some (dateJson d.date)), ("type", d.type.map (.str ·.name)),
    ("local", d.local.map (·.toJson))]

def IcsByDay.toJson (b : IcsByDay) : Json :=
  .ofFields [("day", some (.str b.day.name)), ("occurrence", b.occurrence.map .num)]

def numbersJson (l : List ℤ) : Json := .arr (l.map .num)

def IcsRecurrenceRule.jsonFields (r : IcsRecurrenceRule) : List (String × Option Json) :=
  [("frequency", some (.str r.frequency.name)), ("until", r.until.map (·.toJson)),
    ("count", r.count.map .num), ("interval", r.interval.map .num),
    ("bySecond", r.bySecond.map numbersJson), ("byMinute", r.byMinute.map numbersJson),
    ("byHour", r.byHour.map numbersJson), ("byDay", r.byDay.map fun l => .arr (l.map (·.toJson))),
    ("byMonthday", r.byMonthday.map numbersJson), ("byYearday", r.byYearday.map numbersJson),
    ("byWeekNo", r.byWeekNo.map numbersJson), ("byMonth", r.byMonth.map numbersJson),
    ("bySetPos", r.bySetPos.map numbersJson),
    ("workweekStart", r.workweekStart.map (.str ·.name))]

def IcsRecurrenceRule.toJson (r : IcsRecurrenceRule) : Json := .ofFields r.jsonFields

/-! ## Events -/

inductive EventAvailability
  | busy
  | free
  | oof
  | workingElsewhere
  deriving DecidableEq

def EventAvailability.name : EventAvailability → String
  | busy => "busy"
  | free => "free"
  | oof => "oof"
  | workingElsewhere => "workingElsewhere"

/-- `MaterializedSyncableEvent`: a one-off event or one occurrence of a series. -/
structure MaterializedSyncableEvent where
  id : String
  eventStateId : Option String := none
  sourceEventUid : String
  startTime : ℤ
  endTime : ℤ
  availability : Option EventAvailability := none
  isAllDay : Option Bool := none
  startTimeZone : Option String := none
  summary : String
  description : Option String := none
  location : Option String := none
  isPrivate : Option Bool := none
  remindersDisabled : Option Bool := none
  calendarId : String
  calendarName : Option String := none
  calendarUrl : Option String := none
  deriving DecidableEq

/-- `SyncableEvent`: an event with its recurrence fields. -/
structure SyncableEvent extends MaterializedSyncableEvent where
  recurrenceDuration : Option IcsDuration := none
  recurrenceRule : Option IcsRecurrenceRule := none
  exceptionDates : Option (List ℤ) := none
  recurrenceId : Option ℤ := none
  deriving DecidableEq

/-- `EditableEventContentSnapshot`: the content a user can edit on the destination. -/
structure EditableEventContentSnapshot where
  summary : String
  description : String
  location : String
  isAllDay : Bool
  deriving DecidableEq

/-- `RemoteEvent`: an event a destination lists. -/
structure RemoteEvent where
  uid : String
  deleteId : String
  startTime : ℤ
  endTime : ℤ
  isKeeperEvent : Bool
  editableContent : Option EditableEventContentSnapshot := none
  editableContentHash : Option String := none
  editableAvailability : Option EventAvailability := none
  supportedAvailabilities : Option (List EventAvailability) := none
  deriving DecidableEq

/-- `EventMapping`: a stored link between a local event and its remote copy. -/
structure EventMapping where
  id : String
  eventStateId : Option String := none
  syncEventId : String
  calendarId : String
  sourceCalendarId : Option String := none
  destinationEventUid : String
  deleteIdentifier : String
  syncEventHash : Option String := none
  startTime : ℤ
  endTime : ℤ
  deriving DecidableEq

/-! ## Operations -/

structure AddOperation where
  event : MaterializedSyncableEvent
  staleMappingId : Option String := none
  deriving DecidableEq

structure RemoveOperation where
  uid : String
  deleteId : String
  startTime : ℤ
  mappingId : Option String := none
  deriving DecidableEq

structure ReplaceOperation where
  event : MaterializedSyncableEvent
  staleMappingId : String
  uid : String
  deleteId : String
  deriving DecidableEq

inductive SyncOperation
  | add (op : AddOperation)
  | remove (op : RemoveOperation)
  | replace (op : ReplaceOperation)
  deriving DecidableEq

/-- `MappingUpdate` and `PendingUpdate`: the columns of a mapping row that an update writes. -/
structure PendingUpdate where
  deleteIdentifier : String
  endTime : ℤ
  id : String
  startTime : ℤ
  syncEventHash : String
  syncEventId : String
  deriving DecidableEq

/-- `PendingInsert`: a mapping row to insert. -/
structure PendingInsert where
  eventStateId : String
  sourceCalendarId : String
  syncEventId : String
  calendarId : String
  destinationEventUid : String
  deleteIdentifier : String
  syncEventHash : Option String
  startTime : ℤ
  endTime : ℤ
  deriving DecidableEq

/-- `PendingChanges`: what one flush writes. -/
structure PendingChanges where
  inserts : List PendingInsert := []
  deletes : List String := []
  updates : Option (List PendingUpdate) := none
  deriving DecidableEq

end Keeper
