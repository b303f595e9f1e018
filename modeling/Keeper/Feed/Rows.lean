import Keeper.Core.SyncRange
import Keeper.Feed.Format
import Keeper.Recurrence.StoredRecurrence

/-!
# The rows of a feed

The stored events that a feed reads (`services/api/src/utils/ical.ts`) and the events it makes of them
(`services/api/src/utils/ical-feed.ts`): the rows of the feed's calendars within its window, which is as
wide as the widest range of the calendars.
-/

namespace Keeper.Feed

/-! ## The window -/

structure FeedCalendar where
  id : String
  syncFutureRange : String
  syncHistoricRange : String
  deriving DecidableEq

structure IcalFeedQuery where
  windowStart : ℤ
  windowEnd : ℤ
  deriving DecidableEq

def parseSyncRange (value calendarId : String) : Except String SyncRange :=
  match SyncRange.all.find? (·.value = value) with
  | some range => .ok range
  | none => .error ("Calendar " ++ calendarId ++ " stores an unknown sync range \"" ++ value ++ "\"")

def widestSyncRange (floor : SyncRange) (ranges : List SyncRange) : SyncRange :=
  (JsArray.toSorted (fun first second => (second.order : ℤ) - first.order) (floor :: ranges)).head?.getD
    floor

/-- `createIcalFeedQuery`; the floors are `DEFAULT_HISTORIC_SYNC_RANGE` and `DEFAULT_FUTURE_SYNC_RANGE`. -/
def createIcalFeedQuery (calendars : List FeedCalendar) (now : ℤ) : Except String IcalFeedQuery := do
  let historicRanges ← calendars.mapM fun calendar => parseSyncRange calendar.syncHistoricRange calendar.id
  let futureRanges ← calendars.mapM fun calendar => parseSyncRange calendar.syncFutureRange calendar.id
  let window ← getConfigurableSyncWindow (widestSyncRange .oneMonth historicRanges)
    (widestSyncRange .twoYears futureRanges) now
  return { windowStart := window.timeMin, windowEnd := window.timeMax }

/-! ## Rows -/

/-- The columns of `event_states` that a feed reads, with the name of the row's calendar. -/
structure StoredFeedEvent where
  id : String
  calendarId : String
  title : Option String := none
  description : Option String := none
  location : Option String := none
  startTime : ℤ
  endTime : ℤ
  availability : Option String := none
  startTimeZone : Option String := none
  isAllDay : Option Bool := none
  recurrenceRule : Option String := none
  exceptionDates : Option String := none
  recurrenceId : Option ℤ := none
  sourceEventUid : Option String := none
  sourceEventType : Option String := none
  calendarName : String
  deriving DecidableEq

def buildFeedWindowFilter (calendarIds : List String) (query : IcalFeedQuery) (row : StoredFeedEvent) :
    Bool :=
  calendarIds.contains row.calendarId && row.startTime ≤ query.windowEnd &&
    (query.windowStart ≤ row.endTime || row.recurrenceRule.isSome)

def buildFeedEventFilter (calendarIds : List String) (query : IcalFeedQuery) (row : StoredFeedEvent) :
    Bool :=
  buildFeedWindowFilter calendarIds query row &&
    row.sourceEventType ≠ some "workingLocation" && row.availability ≠ some "workingElsewhere"

def toCalendarEvent (ark : Arktype) (row : StoredFeedEvent) : Except String CalendarEvent := do
  let recurrence ← parseStoredIcsRecurrence ark row.recurrenceRule row.id
  let exceptionDates ← parseStoredIcsExceptionDates ark row.exceptionDates row.id
  return {
    id := row.id
    calendarId := row.calendarId
    availability := row.availability
    title := row.title
    description := row.description
    location := row.location
    startTime := row.startTime
    endTime := row.endTime
    isAllDay := row.isAllDay
    calendarName := row.calendarName
    recurrenceRule := recurrence.map (·.recurrenceRule)
    recurrenceDuration := recurrence.bind (·.recurrenceDuration)
    exceptionDates
    recurrenceId := row.recurrenceId
    sourceEventUid := row.sourceEventUid
    sourceEventType := row.sourceEventType
    startTimeZone := row.startTimeZone }

end Keeper.Feed
