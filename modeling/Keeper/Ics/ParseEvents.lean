import Keeper.Foundations.JsArray
import Keeper.Foundations.JsMap
import Keeper.Ics.Event

/-!
# Reading the events of a calendar

`ics/utils/parse-ics-events.ts`: of the VEVENTs of a calendar, one revision of each identity; the
cancellations among them; the events that remain, with what was left out and what is withheld. The
source throws a `RangeError` out of its loops, on an end that cannot be computed or a date that
cannot be printed; here these are tested for before the loops.
-/

namespace Keeper

open JsArray

/-! ## Records -/

structure EventTimeSlot where
  availability : Option EventAvailability := none
  description : Option String := none
  endTime : ℤ
  exceptionDates : Option (List IcsDateValue) := none
  recurrenceId : Option ℤ := none
  isAllDay : Bool
  location : Option String := none
  recurrenceDuration : Option IcsDuration := none
  recurrenceRule : Option IcsRecurrenceRule := none
  sourceEventType : Option String := none
  startTime : ℤ
  startTimeZone : Option String := none
  title : Option String := none
  uid : String
  deriving DecidableEq

structure ParseIcsEventsOptions where
  includeKeeperEvents : Bool := false

structure UnsupportedIcsEvent where
  reason : String
  uid : String
  deriving DecidableEq

structure ParsedIcsEventDiagnostics where
  events : List EventTimeSlot
  selfAuthoredCount : ℕ
  unrepresentableCount : ℕ
  unsupportedEvents : List UnsupportedIcsEvent

structure CanonicalEventRevision where
  collapsedSlotCount : ℕ
  event : IcsEvent

structure CanonicalEventRevisions where
  collapsedSlotCount : ℕ
  events : List IcsEvent

structure CancellationState where
  cancelledMasters : JsMap String IcsEvent
  cancelledRecurrences : JsMap String (List IcsDateValue)
  cancelledRecurrenceIdentities : List String

def keeperEventSuffix : String := "@keeper.sh"

def isKeeperEvent (uid : String) : Bool := keeperEventSuffix.toList.isSuffixOf uid.toList

/-! ## Canonical revisions -/

def collapsedSlotSignatures (events : List IcsEvent) (winner : IcsEvent) : List String :=
  ((events.map buildEventSlotSignature).filter (· ≠ buildEventSlotSignature winner)).dedup

/-- The test of `selectGroupRevision`: an event replaces the winner. -/
def replacesWinner (event winner : IcsEvent) : Bool :=
  let order := compareEventRevisions event winner
  order.any (0 < ·) || (order = some 0 &&
    Text.compareUnits (buildEventSlotSignature event) (buildEventSlotSignature winner) < 0)

/-- `selectGroupRevision`, of a group that is not empty. -/
def selectGroupRevision : List IcsEvent → Option CanonicalEventRevision
  | [] => none
  | first :: rest =>
    let winner := keepBest replacesWinner first rest
    some
      { collapsedSlotCount := (collapsedSlotSignatures (first :: rest) winner).length
        event := winner }

def newestByUid (events : List (String × IcsEvent)) : JsMap String IcsEvent :=
  events.foldl (fun newest event =>
    match newest.get? event.1 with
    | none => newest.set event.1 event.2
    | some current =>
      if isNewerEventRevision event.2 current then newest.set event.1 event.2 else newest) JsMap.empty

section Parse

variable (zones : Zones)

def groupEventsByRevisionIdentity (events : List IcsEvent) : JsMap String (List IcsEvent) :=
  JsMap.group (JsMap.keyed (buildEventRevisionIdentity zones) events)

def masterUid (event : IcsEvent) : Option String :=
  (truthy event.uid).filter fun uid =>
    buildEventRevisionIdentity zones event = some (masterIdentity uid)

def authoritativeMasterByUid (canonicalEvents : List IcsEvent) : JsMap String IcsEvent :=
  newestByUid (JsMap.keyed (masterUid zones) canonicalEvents)

def includesSlotMark (identity : String) : Bool := "|slot|".toList <:+: identity.toList

def survivesAuthoritativeMaster (authoritativeMasterByUid : JsMap String IcsEvent)
    (event : IcsEvent) : Bool :=
  match truthy event.uid with
  | none => true
  | some uid =>
    if event.recurrenceId.isSome then true
    else if !(buildEventRevisionIdentity zones event).any includesSlotMark then true
    else
      match authoritativeMasterByUid.get? uid with
      | none => true
      | some authoritativeMaster => isNewerEventRevision event authoritativeMaster

/-- `selectCanonicalEventRevisions`. A superseded event has an authoritative master. -/
def selectCanonicalEventRevisions (events : List IcsEvent) : CanonicalEventRevisions :=
  let revisions := (groupEventsByRevisionIdentity zones events).values.filterMap selectGroupRevision
  let canonicalEvents := revisions.map (·.event)
  let masters := authoritativeMasterByUid zones canonicalEvents
  let superseded := canonicalEvents.filter fun event => !survivesAuthoritativeMaster zones masters event
  let supersededSlots := superseded.flatMap fun event =>
    match masters.get? (event.uid.getD "") with
    | none => []
    | some authoritativeMaster =>
      (collapsedSlotSignatures [event] authoritativeMaster).map fun signature =>
        event.uid.getD "" ++ "|" ++ signature
  { collapsedSlotCount :=
      (revisions.map (·.collapsedSlotCount)).sum + supersededSlots.dedup.length
    events := canonicalEvents.filter (survivesAuthoritativeMaster zones masters) }

/-! ## Cancellations -/

def cancelledUid (event : IcsEvent) : Option String :=
  if event.status = some "CANCELLED" then truthy event.uid else none

def collectCancellationState (events : List IcsEvent) : CancellationState :=
  let cancelled := JsMap.keyed cancelledUid events
  let recurrences := cancelled.filterMap fun (uid, event) =>
    event.recurrenceId.map fun recurrenceId => (uid, recurrenceId.value)
  let cancelledRecurrences := JsMap.group recurrences
  { cancelledMasters := newestByUid (cancelled.filter fun e => e.2.recurrenceId.isNone)
    cancelledRecurrences
    cancelledRecurrenceIdentities := cancelledRecurrences.entries.flatMap fun (uid, dates) =>
      dates.map fun date => buildRecurrenceIdentity uid date.date }

def shouldSkipEvent (event : IcsEvent) (options : ParseIcsEventsOptions)
    (cancellations : CancellationState) : Bool :=
  match truthy event.uid with
  | none => true
  | some uid =>
    event.start.isNone || (!options.includeKeeperEvents && isKeeperEvent uid) ||
      event.status = some "CANCELLED" ||
      (cancellations.cancelledMasters.get? uid).any (fun masterCancellation =>
        !isNewerEventRevision event masterCancellation) ||
      event.recurrenceId.any fun recurrenceId =>
        cancellations.cancelledRecurrenceIdentities.contains
          (buildRecurrenceIdentity uid recurrenceId.value.date)

/-! ## Conversion -/

def mergeExceptionDates (exceptionDates : Option (List IcsDateValue))
    (cancelledDates : List IcsDateValue) : Option (List IcsDateValue) :=
  let merged := JsMap.ofList ((exceptionDates.getD [] ++ cancelledDates).map fun exceptionDate =>
    (isoText exceptionDate.date, exceptionDate))
  if merged.values.isEmpty then none else some merged.values

def getRecurrenceDuration (event : IcsEvent) : Option IcsDuration :=
  if event.recurrenceRule.isSome then event.duration else none

def getEventAvailability (event : IcsEvent) : Option EventAvailability :=
  if event.timeTransparent = some "TRANSPARENT" then some .free
  else if event.timeTransparent = some "OPAQUE" then some .busy
  else none

/-- `toUpperCase`, as far as it gives the letters of a status: the dotless `ı` gives `I`. -/
def toUpperCase (text : String) : String :=
  text.map fun c => if c = 'ı' then 'I' else c.toUpper

def isTentativeEvent (event : IcsEvent) : Bool :=
  match event.busyStatus with
  | some busyStatus => toUpperCase busyStatus = "TENTATIVE"
  | none => event.status = some "TENTATIVE"

/-- `convertCanonicalEvent`, of an event with a start. -/
def convertCanonicalEvent (event : IcsEvent) (cancellations : CancellationState) :
    Option EventTimeSlot := do
  let uid ← event.uid
  let start ← event.start
  let startTime ← start.date
  let endTime ← getEventEndTime zones event start
  pure
    { availability := getEventAvailability event
      description := event.description
      endTime
      exceptionDates :=
        if event.recurrenceRule.isSome then
          mergeExceptionDates event.exceptionDates
            ((cancellations.cancelledRecurrences.get? uid).getD [])
        else event.exceptionDates
      recurrenceId := event.recurrenceId.bind (·.value.date)
      isAllDay := start.type = some .date
      location := event.location
      recurrenceDuration := getRecurrenceDuration event
      recurrenceRule := event.recurrenceRule
      sourceEventType := if isTentativeEvent event then some "tentative" else none
      startTime
      startTimeZone := getEventStartTimeZone zones start
      title := event.summary
      uid }

/-! ## What is withheld and what is left out -/

def buildInstanceIdentity (uid : String) (recurrenceDate : Option JsDate) : String :=
  match recurrenceDate with
  | none => masterIdentity uid
  | some recurrenceDate => buildRecurrenceIdentity uid recurrenceDate

def instanceIdentity? (event : IcsEvent) : Option String :=
  (truthy event.uid).map fun uid =>
    buildInstanceIdentity uid (event.recurrenceId.map (·.value.date))

def uniqueByUid (reports : List UnsupportedIcsEvent) : List UnsupportedIcsEvent :=
  (JsMap.ofList (reports.map fun report => (report.uid, report))).values

def collectRangedOverrideEvents (events : List IcsEvent) : List UnsupportedIcsEvent :=
  uniqueByUid (events.filterMap fun event =>
    if event.recurrenceId.any (·.range = some "THISANDFUTURE") then
      (truthy event.uid).map fun uid =>
        ⟨"RECURRENCE-ID;RANGE=THISANDFUTURE is not supported for event " ++ uid, uid⟩
    else none)

structure StaleRevisions where
  identities : List String
  unsupported : List UnsupportedIcsEvent

def collectStaleRevisions (rawEvents canonicalEvents : List IcsEvent) : StaleRevisions :=
  let canonicalByIdentity := JsMap.ofList (JsMap.keyed instanceIdentity? canonicalEvents)
  let stale := (JsMap.keyed instanceIdentity? rawEvents).filter fun (identity, event) =>
    isUnbuildableEvent zones event &&
      (canonicalByIdentity.get? identity).any (isNewerEventRevision event)
  { identities := stale.map (·.1)
    unsupported := uniqueByUid (stale.map fun (_, event) =>
      ⟨"The newest revision of event " ++ event.uid.getD "" ++
        " has a span Keeper cannot represent", event.uid.getD ""⟩) }

def collectUnresolvedTimeEvents (events : List IcsEvent) : List UnsupportedIcsEvent :=
  events.filterMap fun event =>
    (truthy event.unresolvedTimeReason).bind fun reason =>
      (truthy event.uid).map fun uid => ⟨reason, uid⟩

def mergeUnsupportedEvents (groups : List (List UnsupportedIcsEvent)) : List UnsupportedIcsEvent :=
  uniqueByUid groups.flatten

/-- An event of a publisher: with a uid, and not written by Keeper. -/
def isForeignUid (options : ParseIcsEventsOptions) (uid : String) : Bool :=
  options.includeKeeperEvents || !isKeeperEvent uid

/-- `selfAuthoredCount` of `countDiscardedIcsEvents`. -/
def countSelfAuthored (rawEvents : List IcsEvent) (options : ParseIcsEventsOptions) : ℕ :=
  ((rawEvents.filterMap fun event => truthy event.uid).filter fun uid =>
    !isForeignUid options uid).dedup.length

/-- `unrepresentableCount` of `countDiscardedIcsEvents`. -/
def countUnrepresentable (rawEvents : List IcsEvent) (options : ParseIcsEventsOptions)
    (parsedIdentities : List String) : ℕ :=
  let anonymous := rawEvents.filter fun event => (truthy event.uid).isNone
  let unread := rawEvents.filter fun event =>
    (truthy event.uid).any (isForeignUid options) &&
      (event.start.isNone || isUnbuildableEvent zones event)
  anonymous.length +
    ((unread.filterMap instanceIdentity?).filter fun identity =>
      !parsedIdentities.contains identity).dedup.length

/-! ## The reader -/

/-- The recurrence id of an event with a uid cannot be printed. -/
def hasUnreadableRecurrence (event : IcsEvent) : Bool :=
  (truthy event.uid).isSome && event.recurrenceId.any (·.value.date.isNone)

/-- An exception date of a recurring event cannot be printed. -/
def hasUnreadableException (event : IcsEvent) : Bool :=
  event.recurrenceRule.isSome && (event.exceptionDates.getD []).any (·.date.isNone)

/-- The events that `parseIcsEventsWithDiagnostics` converts. -/
def keptEvents (options : ParseIcsEventsOptions) (canonicalEvents : List IcsEvent) :
    List IcsEvent :=
  canonicalEvents.filter fun event =>
    !shouldSkipEvent event options (collectCancellationState canonicalEvents)

/-- What `parseIcsEventsWithDiagnostics` returns where nothing is thrown. -/
def readIcsEvents (options : ParseIcsEventsOptions) (rawEvents : List IcsEvent)
    (canonical : CanonicalEventRevisions) : ParsedIcsEventDiagnostics :=
  let cancellations := collectCancellationState canonical.events
  let events := (keptEvents options canonical.events).filterMap fun event =>
    convertCanonicalEvent zones event cancellations
  let stale := collectStaleRevisions zones rawEvents canonical.events
  let parsedIdentities := (events.map fun event =>
    buildInstanceIdentity event.uid (event.recurrenceId.map some)).filter fun identity =>
      !stale.identities.contains identity
  { events
    selfAuthoredCount := countSelfAuthored rawEvents options
    unrepresentableCount :=
      countUnrepresentable zones rawEvents options parsedIdentities + canonical.collapsedSlotCount
    unsupportedEvents := mergeUnsupportedEvents
      [collectRangedOverrideEvents canonical.events, stale.unsupported,
        collectUnresolvedTimeEvents rawEvents] }

/-- The canonical events of a calendar: those of its buildable events. -/
def canonicalRevisions (rawEvents : List IcsEvent) : CanonicalEventRevisions :=
  selectCanonicalEventRevisions zones (rawEvents.filter fun event => !isUnbuildableEvent zones event)

def parseIcsEventsWithDiagnostics (options : ParseIcsEventsOptions) (rawEvents : List IcsEvent) :
    Except RangeError ParsedIcsEventDiagnostics :=
  match rawEvents.findSome? (endTimeError zones) with
  | some error => .error error
  | none =>
    let canonical := canonicalRevisions zones rawEvents
    if rawEvents.any hasUnreadableRecurrence ||
        (keptEvents options canonical.events).any hasUnreadableException then
      .error "Invalid time value"
    else .ok (readIcsEvents zones options rawEvents canonical)

end Parse

end Keeper
