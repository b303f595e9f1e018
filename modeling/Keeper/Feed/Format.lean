import Keeper.Core.RepresentableRange
import Keeper.Ics.ParseEvents
import Keeper.Ics.ZonedDates

/-!
# The events of a published feed

`services/api/src/utils/ical-format.ts`: the VEVENTs and time zones of a feed. The rows of one source
event are grouped under their recurring master; what the settings leave out of a series is excluded
from it. `generateIcsCalendar` prints the calendar that is built here.
-/

namespace Keeper

/-! ## Sync exclusions -/

structure SyncExclusionInput where
  excludeAllDayEvents : Bool
  excludeAvailabilities : List String
  excludeFocusTime : Bool
  excludeOutOfOffice : Bool
  excludeTitleKeywords : List String
  availability : Option String
  isAllDay : Option Bool
  sourceEventType : Option String
  title : Option String

/-- `parseSourceEventType`, as the text of the type. -/
def parseSourceEventType (value availability : Option String) : String :=
  match value.filter (["focusTime", "outOfOffice", "tentative", "workingLocation"].contains ·) with
  | some value => value
  | none =>
    if availability = some "workingElsewhere" then "workingLocation"
    else if availability = some "oof" then "outOfOffice"
    else "default"

def isExcludedAvailability (excludeAvailabilities : List String) (sourceEventType : String)
    (availability : Option String) : Bool :=
  let resolved :=
    (availability.filter (["busy", "free", "oof", "workingElsewhere"].contains ·)).getD "busy"
  if sourceEventType ≠ "tentative" then excludeAvailabilities.contains resolved
  else excludeAvailabilities.contains "tentative" ||
    (resolved = "free" && excludeAvailabilities.contains "free")

def titleContainsKeyword (toLowerCase : String → String) (title : Option String)
    (lowercasedKeywords : List String) : Bool :=
  match truthy title with
  | none => false
  | some title => lowercasedKeywords.any fun keyword => keyword.toList <:+: (toLowerCase title).toList

def shouldExcludeSyncEvent (toLowerCase : String → String) (event : SyncExclusionInput) : Bool :=
  let sourceEventType := parseSourceEventType event.sourceEventType event.availability
  sourceEventType = "workingLocation" ||
    (event.excludeAllDayEvents && event.isAllDay = some true) ||
    (event.excludeFocusTime && sourceEventType = "focusTime") ||
    (event.excludeOutOfOffice && sourceEventType = "outOfOffice") ||
    isExcludedAvailability event.excludeAvailabilities sourceEventType event.availability ||
    titleContainsKeyword toLowerCase event.title (event.excludeTitleKeywords.map toLowerCase)

namespace Feed

/-! ## Records -/

structure FeedSettings where
  includeEventName : Bool
  includeEventDescription : Bool
  includeEventLocation : Bool
  excludeAllDayEvents : Bool
  excludeFocusTime : Bool
  excludeOutOfOffice : Bool
  customEventName : String
  deriving DecidableEq

structure CalendarEvent where
  id : String
  calendarId : String
  availability : Option String := none
  title : Option String := none
  description : Option String := none
  location : Option String := none
  startTime : ℤ
  endTime : ℤ
  isAllDay : Option Bool := none
  calendarName : String
  recurrenceRule : Option IcsRecurrenceRule := none
  recurrenceDuration : Option IcsDuration := none
  exceptionDates : Option (List IcsDateObject) := none
  recurrenceId : Option ℤ := none
  sourceEventUid : Option String := none
  sourceEventType : Option String := none
  startTimeZone : Option String := none
  deriving DecidableEq

/-- `IcsEvent`, as the feed writes it. -/
structure Vevent where
  stamp : ℤ
  start : IcsDateObject
  «end» : Option IcsDateObject := none
  duration : Option IcsDuration := none
  summary : String
  uid : String
  timeTransparent : Option String := none
  description : Option String := none
  location : Option String := none
  recurrenceRule : Option IcsRecurrenceRule := none
  exceptionDates : Option (List IcsDateObject) := none
  recurrenceId : Option IcsDateObject := none
  deriving DecidableEq

/-- `IcsCalendar`; a calendar without time zones has no list of them. -/
structure IcsCalendar where
  prodId : String := "-//Keeper//Keeper Calendar//EN"
  version : String := "2.0"
  events : List Vevent
  timezones : List IcsTimezone
  deriving DecidableEq

structure EventGroup where
  master : CalendarEvent
  overrides : List CalendarEvent := []
  deriving DecidableEq

/-- What the formatter takes from its run time: the time zones, the text of what an object literal
inherits under a name, and `String.prototype.toLowerCase`. -/
structure FeedHost where
  zones : Zones
  inherited : String → Option String
  toLowerCase : String → String

/-! ## Names -/

/-- `\w`. -/
def isWordChar (c : Char) : Bool := c.isAlphanum || c = '_'

/-- A match of the template pattern at the front of a text: the name in it and the rest. -/
def readToken : List Char → Option (List Char × List Char)
  | '\x7b' :: '\x7b' :: cs =>
    match cs.takeWhile isWordChar, cs.dropWhile isWordChar with
    | c :: name, '\x7d' :: '\x7d' :: rest => some (c :: name, rest)
    | _, _ => none
  | _ => none

/-- `replaceAll` of the template pattern, with fuel for every character. -/
def replaceTokens (values : String → Option String) : ℕ → List Char → List Char
  | 0, cs => cs
  | _ + 1, [] => []
  | fuel + 1, c :: cs =>
    match readToken (c :: cs) with
    | some (name, rest) =>
      ((values (String.ofList name)).map String.toList).getD
        ('\x7b' :: '\x7b' :: name ++ ['\x7d', '\x7d']) ++ replaceTokens values fuel rest
    | none => c :: replaceTokens values fuel cs

def resolveTemplate (template : String) (values : String → Option String) : String :=
  String.ofList (replaceTokens values template.toList.length template.toList)

section Format

variable (host : FeedHost) (now : ℤ) (settings : FeedSettings)

def resolveEventSummary (event : CalendarEvent) : String :=
  let template :=
    if settings.includeEventName then (truthy event.title).getD settings.customEventName
    else settings.customEventName
  resolveTemplate template fun name =>
    if name = "event_name" then some ((truthy event.title).getD "Untitled")
    else if name = "calendar_name" then some event.calendarName
    else host.inherited name

/-! ## Series -/

/-- `toAllDayShape`. -/
def CalendarEvent.shape (event : CalendarEvent) : AllDayEventShape where
  startTime := event.startTime
  endTime := event.endTime
  isAllDay := event.isAllDay

/-- `resolveIsAllDayEvent`, of an event. -/
def CalendarEvent.resolvesAllDay (event : CalendarEvent) : Bool := event.shape.resolvesAllDay

def isRecurringMaster (event : CalendarEvent) : Bool :=
  event.recurrenceRule.isSome && event.recurrenceId.isNone

def CalendarEvent.sourceKey (event : CalendarEvent) : Option (String × String) :=
  (truthy event.sourceEventUid).map fun uid => (event.calendarId, uid)

def standalone (event : CalendarEvent) : EventGroup := { master := event }

/-- The series among the rows of a source event: that of its only master. -/
def seriesOf (sourceEvents : List CalendarEvent) : List EventGroup :=
  match sourceEvents.filter isRecurringMaster with
  | [master] =>
    [{ master
       overrides := sourceEvents.filter fun event => event ≠ master && event.recurrenceId.isSome }]
  | _ => []

def standaloneOf (sourceEvents : List CalendarEvent) : List EventGroup :=
  match sourceEvents.filter isRecurringMaster with
  | [master] =>
    (sourceEvents.filter fun event => event ≠ master && event.recurrenceId.isNone).map standalone
  | _ => sourceEvents.map standalone

/-- `groupEventsBySourceUid`: the series first. -/
def groupEventsBySourceUid (events : List CalendarEvent) : List EventGroup :=
  let eventsBySourceUid := (JsMap.group (JsMap.keyed CalendarEvent.sourceKey events)).values
  eventsBySourceUid.flatMap seriesOf ++
    ((events.filter fun event => event.sourceKey.isNone).map standalone ++
      eventsBySourceUid.flatMap standaloneOf)

/-! ## Exclusions -/

def shouldIncludeEvent (event : CalendarEvent) : Bool :=
  if settings.excludeAllDayEvents && event.resolvesAllDay then false
  else !shouldExcludeSyncEvent host.toLowerCase
    { excludeAllDayEvents := false
      excludeAvailabilities := []
      excludeFocusTime := settings.excludeFocusTime
      excludeOutOfOffice := settings.excludeOutOfOffice
      excludeTitleKeywords := []
      availability := event.availability
      isAllDay := event.isAllDay
      sourceEventType := event.sourceEventType
      title := none }

/-- The slots of the overrides that are left out of a series. -/
def excludedOverrideDates (overrides : List CalendarEvent) : List IcsDateObject :=
  overrides.filterMap fun override =>
    if shouldIncludeEvent host settings override then none
    else override.recurrenceId.map fun date => { date }

/-- What is published of a group: the surviving overrides of a master that is left out are events of
their own. -/
def includedGroups (group : EventGroup) : List EventGroup :=
  let includedOverrides := group.overrides.filter (shouldIncludeEvent host settings)
  if shouldIncludeEvent host settings group.master then
    match excludedOverrideDates host settings group.overrides with
    | [] => [{ master := group.master, overrides := includedOverrides }]
    | excluded =>
      [{ master :=
          { group.master with
            exceptionDates := some (group.master.exceptionDates.getD [] ++ excluded) }
         overrides := includedOverrides }]
  else includedOverrides.map standalone

/-! ## Events -/

def resolveEventTimeZone (event : CalendarEvent) : Except RangeError (Option String) := do
  let date ← buildZonedIcsDate host.zones event.startTime event.startTimeZone false
  return date.local.map (·.timezone)

def buildExceptionDate (value : IcsDateObject) (timezone : Option String) (masterIsAllDay : Bool) :
    Except RangeError IcsDateObject :=
  if value.type = some .date then .ok { date := value.date, type := some .date }
  else buildZonedIcsDate host.zones value.date timezone masterIsAllDay

def toUtcDateObject (value : IcsDateObject) : IcsDateObject :=
  if value.type = some .date then { date := value.date, type := some .date } else { date := value.date }

def normalizeRecurrenceRuleToUtc (rule : IcsRecurrenceRule) : IcsRecurrenceRule :=
  match rule.until with
  | none => rule
  | some «until» => { rule with «until» := some (toUtcDateObject «until») }

def buildTransparency (availability : Option String) : Option String :=
  if availability = some "free" then some "TRANSPARENT" else none

def isPositiveIcsDuration (duration : IcsDuration) : Bool :=
  duration.before ≠ some true && 0 < getIcsDurationNominalMilliseconds duration

def CalendarEvent.writtenDuration (event : CalendarEvent) : Option IcsDuration :=
  if event.recurrenceRule.isSome then event.recurrenceDuration.filter isPositiveIcsDuration else none

def buildBaseIcsEvent (event : CalendarEvent) (uid : String) : Except RangeError Vevent := do
  let isAllDay := event.resolvesAllDay
  let range := resolveRepresentableTimeRange event.shape
  let start ← buildZonedIcsDate host.zones range.startTime event.startTimeZone isAllDay
  let common : Vevent :=
    { stamp := now
      start
      summary := resolveEventSummary host settings event
      uid
      timeTransparent := buildTransparency event.availability
      description := if settings.includeEventDescription then truthy event.description else none
      location := if settings.includeEventLocation then truthy event.location else none }
  match event.writtenDuration with
  | some duration => return { common with duration := some duration }
  | none =>
    let «end» ← buildZonedIcsDate host.zones range.endTime event.startTimeZone isAllDay
    return { common with «end» := some «end» }

def buildMasterIcsEvent (master : CalendarEvent) (uid : String) (masterIsAllDay : Bool) :
    Except RangeError Vevent := do
  let timezone ← resolveEventTimeZone host master
  let base ← buildBaseIcsEvent host now settings master uid
  let exceptionDates ← (master.exceptionDates.getD []).mapM fun value =>
    buildExceptionDate host value timezone masterIsAllDay
  return { base with
    recurrenceRule := master.recurrenceRule.map normalizeRecurrenceRuleToUtc
    exceptionDates := if exceptionDates = [] then none else some exceptionDates }

def buildOverrideIcsEvent (override : CalendarEvent) (uid : String) (masterTimeZone : Option String)
    (masterIsAllDay : Bool) : Except RangeError Vevent := do
  let base ← buildBaseIcsEvent host now settings override uid
  match override.recurrenceId with
  | none => return base
  | some recurrenceId =>
    let value ← buildZonedIcsDate host.zones recurrenceId masterTimeZone masterIsAllDay
    return { base with recurrenceId := some value }

def publishedUid (id : String) : String := id ++ keeperEventSuffix

def buildIcsEventsForGroup (group : EventGroup) : Except RangeError (List Vevent) := do
  let uid := publishedUid group.master.id
  let masterTimeZone ← resolveEventTimeZone host group.master
  let masterIsAllDay := group.master.resolvesAllDay
  let master ← buildMasterIcsEvent host now settings group.master uid masterIsAllDay
  let overrides ← group.overrides.mapM fun override =>
    buildOverrideIcsEvent host now settings override uid masterTimeZone masterIsAllDay
  return master :: overrides

/-! ## Time zones -/

def timedZone (event : CalendarEvent) : Except RangeError (Option (String × ℤ)) := do
  if event.resolvesAllDay then return none
  let zone ← resolveEventTimeZone host event
  return (truthy zone).map fun zone => (zone, event.startTime)

/-- The first of the instants of each zone, in the order of the zones. -/
def firstReferences (references : List (String × ℤ)) : JsMap String ℤ :=
  references.foldl (fun referenceByZone e =>
    if referenceByZone.has e.1 then referenceByZone else referenceByZone.set e.1 e.2) JsMap.empty

def collectTimezones (events : List CalendarEvent) : Except RangeError (List IcsTimezone) := do
  let references ← events.mapM (timedZone host)
  let timezones ← (firstReferences references.reduceOption).entries.mapM fun e =>
    buildVtimezone host.zones now (some e.1) e.2
  return timezones.reduceOption

def formatEventsAsIcal (events : List CalendarEvent) : Except RangeError IcsCalendar := do
  let groups := (groupEventsBySourceUid events).flatMap (includedGroups host settings)
  let icsEvents ← groups.mapM (buildIcsEventsForGroup host now settings)
  let timezones ← collectTimezones host now (groups.flatMap fun group => group.master :: group.overrides)
  return { events := icsEvents.flatten, timezones }

end Format

end Feed

end Keeper
