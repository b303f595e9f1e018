import Keeper.Ics.TimeZoneIdentifiers
import Keeper.Ics.ParseEvents

/-!
# The resources of a CalDAV collection

`parseICalCalendarsToRemoteEvents` of `providers/caldav/shared/ics.ts`: each resource is parsed by itself;
the events of those that can be read are then one calendar, and the time zones that any of them declares are
one map, in which the last resource that declares a name has its say. What parses a text is a parameter.
-/

namespace Keeper

/-! ## Recurring events -/

section Recurrences

variable (host : IntlHost) (declaredOffsets : DeclaredTimeZoneOffsets)

def needsTimeZone (event : EventTimeSlot) : Bool :=
  event.recurrenceRule.isSome && (truthy event.startTimeZone).isSome

def hasUnsupportedTimeZone (event : EventTimeSlot) : Bool :=
  needsTimeZone event && (truthy (resolveDeclaredTimeZone host event.startTimeZone declaredOffsets)).isNone

/-- An event of `resolveRecurrenceTimeZones`. -/
def resolveEventTimeZone (event : EventTimeSlot) : EventTimeSlot :=
  if needsTimeZone event then
    match truthy (resolveDeclaredTimeZone host event.startTimeZone declaredOffsets) with
    | none => event
    | some timeZone => { event with startTimeZone := some timeZone }
  else event

structure RecurrenceTimeZoneResolution where
  events : List EventTimeSlot
  unsupportedUids : List String

def resolveRecurrenceTimeZones (events : List EventTimeSlot) : RecurrenceTimeZoneResolution where
  events := events.map (resolveEventTimeZone host declaredOffsets)
  unsupportedUids := (events.filter (hasUnsupportedTimeZone host declaredOffsets)).map (·.uid)

end Recurrences

/-! ## Resources -/

/-- `IcsCalendar`: its events, and `wrTimezone` of its non-standard values. -/
structure IcsCalendar where
  events : Option (List IcsEvent)
  wrTimezone : Option String := none

/-- What parses the text of a resource: `parseIcsCalendar`, over the parser of `ts-ics`, and
`applyCalendarTimeZoneToFloatingEventDates`. An error is its message. -/
structure ResourceParser where
  host : IntlHost
  parseIcsCalendar : String → Except String IcsCalendar
  applyCalendarTimeZoneToFloatingEventDates : String → Option String → Except String String

structure ParseICalCalendarsOptions where
  rejectUnsupportedRecurrenceDates : Option Bool := none
  calendarTimeZone : Option String := none

/-- `ParsedCalendarEvent` as a resource is read to it, its exception dates valid or not. -/
structure ResourceEvent where
  availability : EventAvailability
  deleteId : String
  description : Option String
  endTime : ℤ
  exceptionDates : Option (List IcsDateValue)
  recurrenceId : Option ℤ
  isKeeperEvent : Bool
  isAllDay : Bool
  location : Option String
  recurrenceDuration : Option IcsDuration
  recurrenceRule : Option IcsRecurrenceRule
  startTime : ℤ
  startTimeZone : Option String
  title : Option String
  uid : String
  deriving DecidableEq

def EventTimeSlot.toResourceEvent (event : EventTimeSlot) : ResourceEvent where
  availability := event.availability.getD .busy
  deleteId := event.uid
  description := event.description
  endTime := event.endTime
  exceptionDates := event.exceptionDates
  recurrenceId := event.recurrenceId
  isKeeperEvent := Keeper.isKeeperEvent event.uid
  isAllDay := event.isAllDay
  location := event.location
  recurrenceDuration := event.recurrenceDuration
  recurrenceRule := event.recurrenceRule
  startTime := event.startTime
  startTimeZone := event.startTimeZone
  title := event.title
  uid := event.uid

structure ParsedCalendarResources where
  events : List ResourceEvent
  unrepresentableEventCount : ℕ
  skippedResourceCount : ℕ
  skippedResourceReasons : List String
  unsupportedEvents : List UnsupportedIcsEvent
  deriving Inhabited

/-- What `parseICalCalendarsToRemoteEvents` throws: a `CalDAVUnreadableResourceError`, or a `RangeError` of
the resources that were parsed. -/
inductive ResourceError
  | unreadable (skippedResourceCount : ℕ) (skippedResourceReasons : List String)
  | range (message : RangeError)
  deriving DecidableEq

section Parse

variable (parser : ResourceParser) (options : ParseICalCalendarsOptions)

def parseCalendarResource (icsString : String) : Except String IcsCalendar := do
  if options.rejectUnsupportedRecurrenceDates ≠ some false then
    assertNoUnsupportedRecurrenceDates icsString
  let initialCalendar ← parser.parseIcsCalendar icsString
  let normalizedIcs ← parser.applyCalendarTimeZoneToFloatingEventDates icsString
    ((normalizeTimezone parser.host.zones initialCalendar.wrTimezone).or options.calendarTimeZone)
  if normalizedIcs = icsString then return initialCalendar
  else parser.parseIcsCalendar normalizedIcs

def readableCalendars (icsStrings : List String) : List (String × IcsCalendar) :=
  icsStrings.filterMap fun icsString =>
    ((parseCalendarResource parser options icsString).toOption).map (icsString, ·)

def skippedResourceReasons (icsStrings : List String) : List String :=
  icsStrings.filterMap fun icsString =>
    match parseCalendarResource parser options icsString with
    | .ok _ => none
    | .error message => some message

/-- What the entries of a calendar are returned as, with the declared offsets of its resources. -/
def toParsedResources (host : IntlHost) (declaredOffsets : DeclaredTimeZoneOffsets)
    (reasons : List String) (parsed : ParsedIcsEventDiagnostics) : ParsedCalendarResources :=
  let recurrenceTimeZones := resolveRecurrenceTimeZones host declaredOffsets parsed.events
  { events := recurrenceTimeZones.events.map (·.toResourceEvent)
    unrepresentableEventCount := parsed.unrepresentableCount
    skippedResourceCount := reasons.length
    skippedResourceReasons := reasons
    unsupportedEvents := parsed.unsupportedEvents ++
      (parsed.events.filter fun event => recurrenceTimeZones.unsupportedUids.contains event.uid).map
        fun event => ⟨"Unsupported calendar timezone: " ++ event.startTimeZone.getD "", event.uid⟩ }

def parseICalCalendarsToRemoteEvents (icsStrings : List String) :
    Except ResourceError ParsedCalendarResources :=
  let calendars := readableCalendars parser options icsStrings
  let reasons := skippedResourceReasons parser options icsStrings
  if calendars.isEmpty then
    if reasons.isEmpty then
      .ok { events := [], skippedResourceCount := 0, skippedResourceReasons := reasons
            unrepresentableEventCount := 0, unsupportedEvents := [] }
    else .error (.unreadable reasons.length reasons)
  else do
    let parsed ← (parseIcsEventsWithDiagnostics parser.host.zones { includeKeeperEvents := true }
      (calendars.flatMap fun calendar => calendar.2.events.getD [])).mapError .range
    let declared ← (calendars.mapM fun calendar => readDeclaredTimeZoneOffsets calendar.1).mapError .range
    return toParsedResources parser.host (JsMap.ofList (declared.flatMap (·.entries))) reasons parsed

end Parse

end Keeper
