import Keeper.Ics.ParseEvents
import Keeper.Mutations.CalDavUpdate
import Keeper.Mutations.ProviderUpdates
import Keeper.Reads.EventReference

/-!
# Updates of a row and of its provider

`updateEventMutation` of `services/api/src/mutations/index.ts`: an update is made canonical and completed, sent to
the provider that holds the event, and written to the row. How requested times are read is a parameter, and so is
how a calendar object is read again.

* `updateEventMutation_ok`: what is sent and written when an update succeeds.
* `agrees_iff`: row and provider mean the same time afterwards exactly when the update keeps them together.
-/

namespace Keeper

open CalDavUpdate

namespace UpdateAgreement

variable {ρ : Type}

/-! ## What is known of the event -/

/-- The services that hold events. -/
inductive ProviderService
  | google
  | outlook
  | caldav
  deriving DecidableEq

/-- `ProviderCredentials`: the provider, and whether there is all that a request needs. -/
structure ProviderCredentials where
  provider : String
  oauth : Bool
  caldav : Bool

def caldavProviders : List String := ["caldav", "fastmail", "icloud"]

/-- The branches of `dispatchUpdateEvent`. -/
def ProviderCredentials.service (credentials : ProviderCredentials) : Except String ProviderService :=
  if credentials.oauth then
    if credentials.provider = "google" then .ok .google
    else if credentials.provider = "outlook" then .ok .outlook
    else .error ("Unsupported OAuth provider: " ++ credentials.provider)
  else if credentials.caldav && caldavProviders.contains credentials.provider then .ok .caldav
  else .error "Calendar provider not supported for event updates."

inductive EventSource
  | user
  | synced
  deriving DecidableEq

structure ResolvedEventCredentials where
  credentials : ProviderCredentials
  isRecurring : Bool
  occurrenceStart : Option ℤ
  sourceEventUid : Option String
  eventSource : EventSource

def resolveSyncedEventWriteError (resolved : ResolvedEventCredentials) : Option String :=
  if resolved.isRecurring || resolved.occurrenceStart.isSome then
    some "Recurring events from a connected calendar cannot be modified yet."
  else
    match truthy resolved.sourceEventUid with
    | none => some "Event cannot be modified (no source UID)."
    | some sourceEventUid =>
      if isKeeperEvent sourceEventUid then
        some "This event is a copy kept in sync by Keeper.sh. Modify the original event instead."
      else none

def refuseSyncedWrite (resolved : ResolvedEventCredentials) : Except String Unit :=
  if resolved.eventSource = .synced then
    match resolveSyncedEventWriteError resolved with
    | some writeError => .error writeError
    | none => .ok ()
  else .ok ()

/-- What the services answer when they are asked for the event. -/
structure RemoteEvents (ρ : Type) where
  google : Option HeldGoogleEvent := none
  outlook : Option HeldOutlookEvent := none
  named : List (CalendarObject ρ) := []
  found : List (CalendarObject ρ) := []

/-! ## Requests -/

/-- The `EventUpdateInput` of a request, its times as they are written. -/
structure RequestedUpdates where
  title : Option String := none
  description : Option String := none
  location : Option String := none
  startTime : Option String := none
  endTime : Option String := none
  isAllDay : Option Bool := none
  availability : Option RequestedAvailability := none
  startTimeZone : Option String := none

/-- `utils/event-time-input.ts`. -/
structure EventTimeInput where
  toCanonicalEventTime : String → Option String → Bool → Except String ℤ
  assertSupportedEventTimeZone : Option String → Except String Unit

def canonicaliseOptionalEventTime (input : EventTimeInput) (value timeZone : Option String) (isAllDay : Bool) :
    Except String (Option ℤ) :=
  match value with
  | none => .ok none
  | some value => (input.toCanonicalEventTime value timeZone isAllDay).map some

def canonicaliseEventUpdates (input : EventTimeInput) (updates : RequestedUpdates) (isAllDay : Bool) :
    Except String EventUpdateInput := do
  input.assertSupportedEventTimeZone updates.startTimeZone
  let endTime ← canonicaliseOptionalEventTime input updates.endTime updates.startTimeZone isAllDay
  let startTime ← canonicaliseOptionalEventTime input updates.startTime updates.startTimeZone isAllDay
  pure
    { title := updates.title
      description := updates.description
      location := updates.location
      startTime
      endTime
      isAllDay := updates.isAllDay
      availability := updates.availability
      startTimeZone := updates.startTimeZone }

/-! ## The mutation -/

section Mutation

variable (zones : Zones) (now : ℤ) (response : Except String Unit)

/-- `dispatchUpdateEvent`. The objects that CalDAV holds are replaced by the one that is written. -/
def dispatchUpdateEvent (credentials : ProviderCredentials) (remote : RemoteEvents ρ) (updates : EventUpdateInput) :
    Except String (RemoteEvents ρ) := do
  match ← credentials.service with
  | .google =>
    let event ← updateGoogleEvent response remote.google updates
    pure { remote with google := some event }
  | .outlook =>
    let event ← updateOutlookEvent response remote.outlook updates
    pure { remote with outlook := some event }
  | .caldav =>
    let written ← updateCalDAVEvent zones now remote.named remote.found updates
    response
    pure { remote with named := [⟨written.url, some (.ok written.calendar)⟩], found := [] }

/-- `updateEventMutation`: the row and what the services hold afterwards, or the error. -/
def updateEventMutation (input : EventTimeInput) (eventId : String) (resolved : Option ResolvedEventCredentials)
    (stored : Option StoredEventTiming) (remote : RemoteEvents ρ) (requestedUpdates : RequestedUpdates) :
    Except String (StoredEventTiming × RemoteEvents ρ) :=
  match resolved with
  | none => .error "Event not found."
  | some resolved => do
    refuseSyncedWrite resolved
    match parseEventReference eventId with
    | none => .error "Event not found."
    | some reference =>
      match truthy resolved.sourceEventUid with
      | none => .error "Event cannot be updated (no source UID)."
      | some _ =>
        match stored with
        | none => .error ("Event " ++ reference.resourceId ++ " resolved credentials but has no row.")
        | some stored =>
          let isAllDay := requestedUpdates.isAllDay.getD stored.shape.resolvesAllDay
          let updates ← canonicaliseEventUpdates input requestedUpdates isAllDay
          let completedUpdates := completeUpdateRange updates stored.toEventTimeRange
          let remote ← dispatchUpdateEvent zones now response resolved.credentials remote completedUpdates
          pure (buildDbUpdates updates stored, remote)

end Mutation

/-! ## Reading a calendar object -/

/-- How the events of a calendar object are read: a date, with the VTIMEZONEs of the object, and the end of an event
without one. -/
structure EventReader (ρ : Type) where
  readDate : List IcsTimezone → IcsDateObject → ℤ
  impliedEnd : ℤ → IcsDateObject → ρ → ℤ

/-- A time without its milliseconds, which no calendar object holds. -/
def floorToSecond (time : ℤ) : ℤ := time / 1000 * 1000

/-- A DATE is read as its day and a UTC time as itself. Without a VTIMEZONE a local time is read as the instant
that `wallTimeToInstant` has for it. -/
structure EventReader.IsFaithful (zones : Zones) (reader : EventReader ρ) : Prop where
  day : ∀ timezones date, date.type = some .date → reader.readDate timezones date = floorToUtcDay date.date
  utc : ∀ timezones date, date.type ≠ some .date → date.local = none →
    reader.readDate timezones date = floorToSecond date.date
  wall : ∀ date l instant, date.type ≠ some .date → date.local = some l →
    wallTimeToInstant zones l.date l.timezone = .ok instant → reader.readDate [] date = floorToSecond instant

/-- An event of an object is all-day. -/
def startsOnDate (start : IcsDateObject) : Bool := start.type = some .date

def EventReader.shape (reader : EventReader ρ) (timezones : List IcsTimezone) (event : ObjectEvent ρ) :
    Option AllDayEventShape :=
  event.start.map fun start =>
    { startTime := reader.readDate timezones start
      endTime := (event.end.map (reader.readDate timezones)).getD
        (reader.impliedEnd (reader.readDate timezones start) start event.others)
      isAllDay := some (startsOnDate start) }

/-- The event that CalDAV holds, with the VTIMEZONEs of its object. -/
def RemoteEvents.object (remote : RemoteEvents ρ) : Option (List IcsTimezone × ObjectEvent ρ) := do
  let (_, data) ← fetchCalendarObject remote.named remote.found
  let calendar ← data.toOption
  let event ← calendar.events.head?
  pure (calendar.timezones, event)

def RemoteEvents.shape (reader : EventReader ρ) (remote : RemoteEvents ρ) : ProviderService → Option AllDayEventShape
  | .google => remote.google.map HeldGoogleEvent.shape
  | .outlook => remote.outlook.map HeldOutlookEvent.shape
  | .caldav => remote.object.bind fun (timezones, event) => reader.shape timezones event

/-! ## Agreement -/

def SameSpan (reader : EventReader ρ) (service : ProviderService) (stored : StoredEventTiming)
    (remote : RemoteEvents ρ) : Prop :=
  ∃ held, remote.shape reader service = some held ∧
    resolveRepresentableTimeRange stored.shape = resolveRepresentableTimeRange held

/-- A service holds an event with the published span and the kind of a row. -/
def Agrees (reader : EventReader ρ) (service : ProviderService) (stored : StoredEventTiming)
    (remote : RemoteEvents ρ) : Prop :=
  ∃ held, remote.shape reader service = some held ∧
    resolveRepresentableTimeRange stored.shape = resolveRepresentableTimeRange held ∧
    stored.shape.resolvesAllDay = held.resolvesAllDay

def publishedAs (stored : StoredEventTiming) (isAllDay : Bool) : EventTimeRange :=
  resolveRepresentableIsoRange stored.startTime stored.endTime isAllDay

/-- An update that names a time or the zone names the kind, or the updated row has the kind that is held. -/
def KeepsKind (updates : EventUpdateInput) (stored : StoredEventTiming) (heldAllDay : Bool) : Prop :=
  updates.isAllDay = none → (buildDbUpdates updates stored).shape.resolvesAllDay = heldAllDay

def HasWholeSeconds (stored : StoredEventTiming) : Prop :=
  stored.shape.resolvesAllDay = false →
    floorToSecond (publishedAs stored false).startTime = (publishedAs stored false).startTime ∧
      floorToSecond (publishedAs stored false).endTime = (publishedAs stored false).endTime

/-- **When an update keeps row and service together.** One that names a time or the zone keeps the kind, and on
CalDAV writes whole seconds. Where it names neither, Google and CalDAV are not told the kind, so that it is the
one they hold already, and the stored range has the span of what they hold with it; Outlook is told the kind, and
both ranges have one span with it. -/
def KeepsAgreement (reader : EventReader ρ) (updates : EventUpdateInput) (stored : StoredEventTiming)
    (remote : RemoteEvents ρ) : ProviderService → Prop
  | .google => ∀ event ∈ remote.google,
    if updates.namesTimes then KeepsKind updates stored event.start.isDate
    else updates.isAllDay.getD stored.shape.resolvesAllDay = event.isAllDay ∧
      publishedAs stored event.isAllDay = publishedAs stored stored.shape.resolvesAllDay
  | .outlook => ∀ event ∈ remote.outlook,
    if updates.namesTimes then KeepsKind updates stored event.readsAllDay
    else
      match updates.isAllDay with
      | none => stored.shape.resolvesAllDay = event.readsAllDay
      | some isAllDay => publishedAs stored isAllDay = resolveRepresentableTimeRange (event.shapeAs isAllDay)
  | .caldav => ∀ object ∈ remote.object, ∀ start ∈ object.2.start,
    if updates.namesTimes then
      KeepsKind updates stored (startsOnDate start) ∧ HasWholeSeconds (buildDbUpdates updates stored)
    else updates.isAllDay.getD stored.shape.resolvesAllDay = startsOnDate start ∧
      -- the object is written without its VTIMEZONEs
      ∀ shape ∈ reader.shape [] object.2,
        publishedAs stored (startsOnDate start) = resolveRepresentableTimeRange shape

variable {zones : Zones} {now : ℤ} {response : Except String Unit} {reader : EventReader ρ}
  {updates : EventUpdateInput} {stored : StoredEventTiming} {remote remote' : RemoteEvents ρ}

/-! ## What is sent and written -/

variable {row : StoredEventTiming} {credentials : ProviderCredentials} {isAllDay : Bool}

/-- **An update that succeeds** is sent completed, and written to the row. -/
theorem updateEventMutation_ok {input : EventTimeInput} {eventId : String} {resolved : ResolvedEventCredentials}
    {requestedUpdates : RequestedUpdates}
    (h : updateEventMutation zones now response input eventId (some resolved) (some stored) remote requestedUpdates = .ok (row, remote')) :
    ∃ updates, canonicaliseEventUpdates input requestedUpdates
        (requestedUpdates.isAllDay.getD stored.shape.resolvesAllDay) = .ok updates ∧
      dispatchUpdateEvent zones now response resolved.credentials remote
        (completeUpdateRange updates stored.toEventTimeRange) = .ok remote' ∧
      row = buildDbUpdates updates stored := by
  obtain ⟨-, -, h⟩ := bind_eq_ok_iff.1 h
  split at h
  · cases h
  · split at h
    · cases h
    · obtain ⟨updates, hupdates, h⟩ := bind_eq_ok_iff.1 h
      obtain ⟨updated, hdispatch, h⟩ := bind_eq_ok_iff.1 h
      obtain ⟨rfl, rfl⟩ := Prod.mk.inj (Except.ok.inj h)
      exact ⟨updates, hupdates, hdispatch, rfl⟩

variable (zones now response updates remote remote') in
def HoldsUpdated : ProviderService → Prop
  | .google => ∃ event, updateGoogleEvent response remote.google updates = .ok event ∧ remote'.google = some event
  | .outlook =>
    ∃ event, updateOutlookEvent response remote.outlook updates = .ok event ∧ remote'.outlook = some event
  | .caldav => ∃ written, updateCalDAVEvent zones now remote.named remote.found updates = .ok written ∧
    remote'.named = [⟨written.url, some (.ok written.calendar)⟩] ∧ remote'.found = []

theorem dispatchUpdateEvent_ok {service : ProviderService} (hservice : credentials.service = .ok service)
    (h : dispatchUpdateEvent zones now response credentials remote updates = .ok remote') :
    HoldsUpdated zones now response updates remote remote' service := by
  obtain ⟨sent, hsent, h⟩ := bind_eq_ok_iff.1 h
  obtain rfl := Except.ok.inj (hservice.symm.trans hsent)
  cases service with
  | google =>
    obtain ⟨event, hevent, h⟩ := bind_eq_ok_iff.1 h
    obtain rfl := Except.ok.inj h
    exact ⟨event, hevent, rfl⟩
  | outlook =>
    obtain ⟨event, hevent, h⟩ := bind_eq_ok_iff.1 h
    obtain rfl := Except.ok.inj h
    exact ⟨event, hevent, rfl⟩
  | caldav =>
    obtain ⟨written, hwritten, h⟩ := bind_eq_ok_iff.1 h
    obtain ⟨-, -, h⟩ := bind_eq_ok_iff.1 h
    obtain rfl := Except.ok.inj h
    exact ⟨written, hwritten, rfl, rfl⟩

/-! ## Rows -/

theorem resolvesAllDay_buildDbUpdates (h : updates.isAllDay = some isAllDay) :
    (buildDbUpdates updates stored).shape.resolvesAllDay = isAllDay := by
  rw [AllDayEventShape.resolvesAllDay, StoredEventTiming.shape, buildDbUpdates, h]
  rfl

/-- A row whose times are kept has the kind that an update names, or its own. -/
theorem resolvesAllDay_of_kept (h : (buildDbUpdates updates stored).toEventTimeRange = stored.toEventTimeRange) :
    (buildDbUpdates updates stored).shape.resolvesAllDay = updates.isAllDay.getD stored.shape.resolvesAllDay := by
  cases hkind : updates.isAllDay with
  | some isAllDay => exact resolvesAllDay_buildDbUpdates hkind
  | none =>
    rw [AllDayEventShape.resolvesAllDay, StoredEventTiming.shape, h, buildDbUpdates, hkind]
    rfl

theorem keepsKind_iff {heldAllDay : Bool} : KeepsKind updates stored heldAllDay ↔
    (buildDbUpdates updates stored).shape.resolvesAllDay = updates.isAllDay.getD heldAllDay := by
  rw [KeepsKind]
  cases hkind : updates.isAllDay with
  | some isAllDay => simp [resolvesAllDay_buildDbUpdates hkind]
  | none => simp

theorem isAllDay_completeUpdateRange (range : EventTimeRange) :
    (completeUpdateRange updates range).isAllDay = updates.isAllDay := by
  rw [completeUpdateRange]
  split <;> rfl

/-- A row agrees with an event of its shaped range and a kind where the row has that kind. -/
theorem agrees_shaped_iff :
    (resolveRepresentableTimeRange row.shape = resolveRepresentableTimeRange ⟨publishedAs row isAllDay, some isAllDay⟩ ∧
      row.shape.resolvesAllDay = isAllDay) ↔ row.shape.resolvesAllDay = isAllDay := by
  have hself : resolveRepresentableTimeRange ⟨publishedAs row isAllDay, some isAllDay⟩ = publishedAs row isAllDay :=
    resolveRepresentableIsoRange_self _ _ _
  rw [hself]
  refine ⟨fun h => h.2, fun h => ⟨?_, h⟩⟩
  rw [← h]
  rfl

/-! ## Google and Outlook -/

theorem agrees_iff_of_shape {service : ProviderService} {held : AllDayEventShape}
    (h : remote.shape reader service = some held) : Agrees reader service row remote ↔
      resolveRepresentableTimeRange row.shape = resolveRepresentableTimeRange held ∧
        row.shape.resolvesAllDay = held.resolvesAllDay := by
  constructor
  · rintro ⟨held', hheld', hagrees⟩
    obtain rfl := Option.some.inj (h.symm.trans hheld')
    exact hagrees
  · exact fun hagrees => ⟨held, h, hagrees⟩

/-- **Row and Google** after an update. -/
theorem agrees_google_iff (hservice : credentials.service = .ok .google)
    (hspan : SameSpan reader .google stored remote)
    (h : dispatchUpdateEvent zones now response credentials remote (completeUpdateRange updates stored.toEventTimeRange) = .ok remote') :
    Agrees reader .google (buildDbUpdates updates stored) remote' ↔
      KeepsAgreement reader updates stored remote .google := by
  obtain ⟨held, hheld, hsame⟩ := hspan
  obtain ⟨event, hevent, rfl⟩ := Option.map_eq_some_iff.1 hheld
  obtain ⟨updated, hupdated, hremote⟩ := dispatchUpdateEvent_ok hservice h
  rw [hevent] at hupdated
  have hshape : remote'.shape reader .google = some updated.shape := by
    rw [RemoteEvents.shape, hremote]
    rfl
  rw [agrees_iff_of_shape hshape, KeepsAgreement, hevent]
  simp only [Option.mem_some_iff, forall_eq']
  rcases completeUpdateRange_times updates stored with ⟨hnames, hstart, hend⟩ | ⟨hnames, hsent, hkept, hstart, hend⟩
  · rw [if_pos hnames, keepsKind_iff, shape_updateGoogleEvent hstart hend hupdated, isAllDay_completeUpdateRange]
    exact agrees_shaped_iff
  · rw [hsent] at hupdated
    rw [if_neg (by rw [hnames]; exact Bool.false_ne_true), shape_updateGoogleEvent_none hstart hend hupdated, ← hsame,
      AllDayEventShape.representable_eq, AllDayEventShape.representable_eq, resolvesAllDay_of_kept hkept]
    have hheldKind : event.shape.resolvesAllDay = event.isAllDay := rfl
    rw [hheldKind, and_comm]
    refine and_congr_right fun hkind => ?_
    rw [hkind]
    show resolveRepresentableIsoRange (buildDbUpdates updates stored).toEventTimeRange.startTime
      (buildDbUpdates updates stored).toEventTimeRange.endTime _ = _ ↔ _
    rw [hkept]
    rfl

/-- **Row and Outlook** after an update. -/
theorem agrees_outlook_iff (hservice : credentials.service = .ok .outlook)
    (hspan : SameSpan reader .outlook stored remote)
    (h : dispatchUpdateEvent zones now response credentials remote (completeUpdateRange updates stored.toEventTimeRange) = .ok remote') :
    Agrees reader .outlook (buildDbUpdates updates stored) remote' ↔
      KeepsAgreement reader updates stored remote .outlook := by
  obtain ⟨held, hheld, hsame⟩ := hspan
  obtain ⟨event, hevent, rfl⟩ := Option.map_eq_some_iff.1 hheld
  obtain ⟨updated, hupdated, hremote⟩ := dispatchUpdateEvent_ok hservice h
  rw [hevent] at hupdated
  have hshape : remote'.shape reader .outlook = some updated.shape := by
    rw [RemoteEvents.shape, hremote]
    rfl
  rw [agrees_iff_of_shape hshape, KeepsAgreement, hevent]
  simp only [Option.mem_some_iff, forall_eq']
  rcases completeUpdateRange_times updates stored with ⟨hnames, hstart, hend⟩ | ⟨hnames, hsent, hkept, hstart, hend⟩
  · rw [if_pos hnames, keepsKind_iff, shape_updateOutlookEvent hstart hend hupdated, isAllDay_completeUpdateRange]
    exact agrees_shaped_iff
  · rw [hsent] at hupdated
    have hrow : ∀ isAllDay, resolveRepresentableIsoRange (buildDbUpdates updates stored).shape.startTime
        (buildDbUpdates updates stored).shape.endTime isAllDay = publishedAs stored isAllDay := fun isAllDay => by
      show resolveRepresentableIsoRange (buildDbUpdates updates stored).toEventTimeRange.startTime
        (buildDbUpdates updates stored).toEventTimeRange.endTime isAllDay = _
      rw [hkept]
      rfl
    rw [if_neg (by rw [hnames]; exact Bool.false_ne_true), shape_updateOutlookEvent_none hstart hend hupdated,
      AllDayEventShape.representable_eq, resolvesAllDay_of_kept hkept, hrow]
    cases hkind : updates.isAllDay with
    | none =>
      simp only [Option.getD_none]
      exact ⟨fun hagrees => hagrees.2, fun hkinds => ⟨hsame, hkinds⟩⟩
    | some isAllDay =>
      simp only [Option.getD_some]
      exact ⟨fun hagrees => hagrees.1, fun hspans => ⟨hspans, rfl⟩⟩

/-! ## CalDAV -/

/-- A time as it is read of a calendar object that it is written to. -/
def readWritten (time : ℤ) (isAllDay : Bool) : ℤ := if isAllDay then floorToUtcDay time else floorToSecond time

/-- **A written date is read** as its day, or as its instant to the second. -/
theorem readDate_buildZonedIcsDate (hfaithful : reader.IsFaithful zones) {instant : ℤ} {timezone : Option String}
    {date : IcsDateObject} (h : buildZonedIcsDate zones instant timezone isAllDay = .ok date) :
    reader.readDate [] date = readWritten instant isAllDay := by
  obtain ⟨hdate, htype, hlocal⟩ := buildZonedIcsDate_ok zones h
  cases isAllDay with
  | true => rw [hfaithful.day [] date htype, hdate, readWritten, if_pos rfl]
  | false =>
    have htimed : date.type ≠ some .date := by
      rw [htype]
      exact fun h => nomatch h
    rw [readWritten, if_neg Bool.false_ne_true]
    cases hl : date.local with
    | none => rw [hfaithful.utc [] date htimed hl, hdate]
    | some l => exact hfaithful.wall date l instant htimed hl (hlocal l hl).2.2

theorem updateTimes_both {startTime endTime : ℤ} {start «end» start' end' : Option IcsDateObject}
    (hstart : updates.startTime = some startTime) (hend : updates.endTime = some endTime)
    (h : updateTimes zones updates start «end» = .ok (start', end')) :
    ∃ timezone startDate endDate, start' = some startDate ∧ end' = some endDate ∧
      buildZonedIcsDate zones
        (resolveRepresentableIsoRange startTime endTime (resolveEventIsAllDay updates start)).startTime timezone
        (resolveEventIsAllDay updates start) = .ok startDate ∧
      buildZonedIcsDate zones
        (resolveRepresentableIsoRange startTime endTime (resolveEventIsAllDay updates start)).endTime timezone
        (resolveEventIsAllDay updates start) = .ok endDate := by
  rw [updateTimes, hstart, hend] at h
  obtain ⟨startDate, hstartDate, h⟩ := bind_eq_ok_iff.1 h
  obtain ⟨endDate, hendDate, h⟩ := bind_eq_ok_iff.1 h
  obtain ⟨rfl, rfl⟩ := Prod.mk.inj (Except.ok.inj h)
  exact ⟨_, startDate, endDate, rfl, rfl, hstartDate, hendDate⟩

theorem resolveEventIsAllDay_eq (start : IcsDateObject) :
    resolveEventIsAllDay updates (some start) = updates.isAllDay.getD (startsOnDate start) := by
  rw [resolveEventIsAllDay]
  cases updates.isAllDay <;> rfl

/-- **What CalDAV holds** after both times are updated. -/
theorem shape_updateCalDAVEvent (hfaithful : reader.IsFaithful zones) {startTime endTime : ℤ}
    {event updated : ObjectEvent ρ} {start : IcsDateObject} (hevent : event.start = some start)
    (hstart : updates.startTime = some startTime) (hend : updates.endTime = some endTime)
    (h : applyUpdatesToEvent zones now event updates = .ok updated)
    (hkind : updates.isAllDay.getD (startsOnDate start) = isAllDay) : reader.shape [] updated =
      some ⟨⟨readWritten (resolveRepresentableIsoRange startTime endTime isAllDay).startTime isAllDay,
        readWritten (resolveRepresentableIsoRange startTime endTime isAllDay).endTime isAllDay⟩, some isAllDay⟩ := by
  obtain ⟨-, -, -, htimes⟩ := applyUpdatesToEvent_ok h
  obtain ⟨timezone, startDate, endDate, hstart', hend', hbuilt, hbuilt'⟩ := updateTimes_both hstart hend htimes
  rw [hevent, resolveEventIsAllDay_eq, hkind] at hbuilt hbuilt'
  have htype : startsOnDate startDate = isAllDay := by
    rw [startsOnDate, (buildZonedIcsDate_ok zones hbuilt).type]
    cases isAllDay <;> rfl
  rw [EventReader.shape, hstart', hend', Option.map_some, Option.map_some, Option.getD_some, htype,
    readDate_buildZonedIcsDate hfaithful hbuilt, readDate_buildZonedIcsDate hfaithful hbuilt']

/-- A shaped range is published as it is read again where a timed one is of whole seconds. -/
theorem representable_readWritten_iff (startTime endTime : ℤ) (isAllDay : Bool) :
    resolveRepresentableIsoRange startTime endTime isAllDay = resolveRepresentableIsoRange
        (readWritten (resolveRepresentableIsoRange startTime endTime isAllDay).startTime isAllDay)
        (readWritten (resolveRepresentableIsoRange startTime endTime isAllDay).endTime isAllDay) isAllDay ↔
      (isAllDay = false →
        floorToSecond (resolveRepresentableIsoRange startTime endTime isAllDay).startTime =
            (resolveRepresentableIsoRange startTime endTime isAllDay).startTime ∧
          floorToSecond (resolveRepresentableIsoRange startTime endTime isAllDay).endTime =
            (resolveRepresentableIsoRange startTime endTime isAllDay).endTime) := by
  have hself := resolveRepresentableIsoRange_self startTime endTime isAllDay
  have hbefore := (resolveRepresentableTimeRange_isShaped ⟨⟨startTime, endTime⟩, some isAllDay⟩).nonempty
  change (resolveRepresentableIsoRange startTime endTime isAllDay).startTime <
    (resolveRepresentableIsoRange startTime endTime isAllDay).endTime at hbefore
  cases isAllDay with
  | true =>
    obtain ⟨hstart, hend⟩ := floorToUtcDay_representable startTime endTime
    rw [readWritten, readWritten, if_pos rfl, if_pos rfl, hstart, hend, hself]
    exact ⟨fun _ hfalse => (nomatch hfalse), fun _ => rfl⟩
  | false =>
    rw [readWritten, readWritten, if_neg Bool.false_ne_true, if_neg Bool.false_ne_true]
    generalize resolveRepresentableIsoRange startTime endTime false = range at *
    constructor
    · intro hsame _
      have hminute : pointInTimeDurationMs = 60000 := rfl
      change range = resolvePointInTimeRange ⟨floorToSecond range.startTime, floorToSecond range.endTime⟩ at hsame
      rw [resolvePointInTimeRange] at hsame
      unfold floorToSecond at *
      split_ifs at hsame with hlt
      · exact ⟨(congrArg EventTimeRange.startTime hsame).symm, (congrArg EventTimeRange.endTime hsame).symm⟩
      · have hstart := congrArg EventTimeRange.startTime hsame
        have hend := congrArg EventTimeRange.endTime hsame
        dsimp only at hstart hend hlt
        omega
    · intro hwhole
      obtain ⟨hstart, hend⟩ := hwhole rfl
      rw [hstart, hend, hself]

theorem object_of_written {written : WrittenObject ρ} {event : ObjectEvent ρ}
    (hnamed : remote.named = [⟨written.url, some (.ok written.calendar)⟩]) (hfound : remote.found = [])
    (hcalendar : written.calendar = buildIcsCalendar [event]) : remote.object = some ([], event) := by
  rw [RemoteEvents.object, hnamed, hfound, hcalendar]
  rfl

/-- **Row and CalDAV** after an update. -/
theorem agrees_caldav_iff (hfaithful : reader.IsFaithful zones) (hservice : credentials.service = .ok .caldav)
    (hspan : SameSpan reader .caldav stored remote)
    (h : dispatchUpdateEvent zones now response credentials remote (completeUpdateRange updates stored.toEventTimeRange) = .ok remote') :
    Agrees reader .caldav (buildDbUpdates updates stored) remote' ↔
      KeepsAgreement reader updates stored remote .caldav := by
  obtain ⟨held, hheld, -⟩ := hspan
  obtain ⟨⟨timezones, event⟩, hobject, hshape⟩ := Option.bind_eq_some_iff.1 hheld
  obtain ⟨start, hstartDate, -⟩ := Option.map_eq_some_iff.1 hshape
  obtain ⟨written, hwritten, hnamed, hfound⟩ := dispatchUpdateEvent_ok hservice h
  obtain ⟨calendar, event', updated, hfetch, hhead, hupdated, hcalendar⟩ := updateCalDAVEvent_ok hwritten
  have hobject' : remote.object = some (calendar.timezones, event') := by
    rw [RemoteEvents.object, hfetch]
    show (calendar.events.head?.bind fun event => some (calendar.timezones, event)) = _
    rw [hhead]
    rfl
  obtain ⟨-, rfl⟩ := Prod.mk.inj (Option.some.inj (hobject'.symm.trans hobject))
  have hafter : remote'.shape reader .caldav = reader.shape [] updated := by
    rw [RemoteEvents.shape, object_of_written hnamed hfound hcalendar]
    rfl
  rw [KeepsAgreement, hobject]
  simp only [Option.mem_some_iff, forall_eq', hstartDate]
  rcases completeUpdateRange_times updates stored with ⟨hnames, hstart, hend⟩ | ⟨hnames, hsent, hkept, hstart, hend⟩
  · generalize hkind : updates.isAllDay.getD (startsOnDate start) = isAllDay
    have hkind' := hkind
    rw [← isAllDay_completeUpdateRange stored.toEventTimeRange] at hkind'
    rw [agrees_iff_of_shape (hafter.trans (shape_updateCalDAVEvent hfaithful hstartDate hstart hend hupdated hkind')),
      if_pos hnames, keepsKind_iff, hkind, and_comm]
    refine and_congr_right fun hrow => ?_
    rw [AllDayEventShape.representable_eq, hrow, HasWholeSeconds, hrow]
    refine (representable_readWritten_iff _ _ isAllDay).trans ?_
    cases isAllDay with
    | true => exact ⟨fun _ hfalse => (nomatch hfalse), fun _ hfalse => (nomatch hfalse)⟩
    | false => exact Iff.rfl
  · rw [hsent] at hupdated
    obtain ⟨-, -, -, htimes⟩ := applyUpdatesToEvent_ok hupdated
    have hothers := (applyUpdatesToEvent_ok hupdated).1.others
    rw [updateTimes, hstart, hend] at htimes
    obtain ⟨hstart', hend'⟩ := Prod.mk.inj (Except.ok.inj htimes)
    have hread : reader.shape [] updated = reader.shape [] event' := by
      rw [EventReader.shape, EventReader.shape, ← hstart', ← hend', hothers]
    obtain ⟨shape, hread'⟩ : ∃ shape, reader.shape [] event' = some shape := by
      rw [EventReader.shape, hstartDate]
      exact ⟨_, rfl⟩
    have hshapeKind : shape.resolvesAllDay = startsOnDate start := by
      rw [EventReader.shape, hstartDate] at hread'
      rw [← Option.some.inj hread']
      rfl
    rw [if_neg (by rw [hnames]; exact Bool.false_ne_true), agrees_iff_of_shape (hafter.trans (hread.trans hread')),
      hread', AllDayEventShape.representable_eq, resolvesAllDay_of_kept hkept, hshapeKind, and_comm]
    refine and_congr_right fun hkind => ?_
    simp only [Option.mem_some_iff, forall_eq', hkind]
    show resolveRepresentableIsoRange (buildDbUpdates updates stored).toEventTimeRange.startTime
      (buildDbUpdates updates stored).toEventTimeRange.endTime _ = _ ↔ _
    rw [hkept]
    rfl

/-! ## Any service -/

/-- **After an update that succeeds**, row and service agree exactly when the update keeps them together. -/
theorem agrees_iff (hfaithful : reader.IsFaithful zones) {input : EventTimeInput} {eventId : String}
    {resolved : ResolvedEventCredentials} {service : ProviderService}
    (hservice : resolved.credentials.service = .ok service) (hspan : SameSpan reader service stored remote)
    {requestedUpdates : RequestedUpdates} {row : StoredEventTiming}
    (h : updateEventMutation zones now response input eventId (some resolved) (some stored) remote requestedUpdates =
      .ok (row, remote')) :
    ∃ updates, canonicaliseEventUpdates input requestedUpdates
        (requestedUpdates.isAllDay.getD stored.shape.resolvesAllDay) = .ok updates ∧
      (Agrees reader service row remote' ↔ KeepsAgreement reader updates stored remote service) := by
  obtain ⟨updates, hupdates, hdispatch, rfl⟩ := updateEventMutation_ok h
  refine ⟨updates, hupdates, ?_⟩
  cases service with
  | google => exact agrees_google_iff hservice hspan hdispatch
  | outlook => exact agrees_outlook_iff hservice hspan hdispatch
  | caldav => exact agrees_caldav_iff hfaithful hservice hspan hdispatch

/-! ## A kind that Google is not told -/

/-- A reader that reads times to the second, where zones show UTC. -/
def utcReader : EventReader Unit where
  readDate _ date :=
    if date.type = some .date then floorToUtcDay date.date
    else
      match date.local with
      | none => floorToSecond date.date
      | some l => (wallTimeToInstant utcZones l.date l.timezone).toOption.elim 0 floorToSecond
  impliedEnd startTime start _ := if start.type = some .date then startTime + msPerDay else startTime

theorem isFaithful_utcReader : utcReader.IsFaithful utcZones := by
  constructor
  · intro _ date hdate
    exact if_pos hdate
  · intro _ date htimed hlocal
    rw [utcReader]
    dsimp only
    rw [if_neg htimed, hlocal]
  · intro date l instant htimed hlocal hwall
    rw [utcReader]
    dsimp only
    rw [if_neg htimed, hlocal]
    show (wallTimeToInstant utcZones l.date l.timezone).toOption.elim 0 floorToSecond = _
    rw [hwall]
    rfl

/-- Texts of `toISOString` are read. -/
def isoInput : EventTimeInput where
  toCanonicalEventTime value _ _ := (Date.ofISOString value).elim
    (.error ("Event time " ++ value ++ " is not an ISO 8601 date or date-time.")) .ok
  assertSupportedEventTimeZone _ := .ok ()

def googleEvent : ResolvedEventCredentials where
  credentials := ⟨"google", true, false⟩
  isRecurring := false
  occurrenceStart := none
  sourceEventUid := some "u"
  eventSource := .user

def storedHour : StoredEventTiming where
  startTime := 0
  endTime := 3600000
  isAllDay := some false

def googleHour : RemoteEvents Unit := { google := some { start := .dateTime 0, «end» := .dateTime 3600000 } }

theorem sameSpan_googleHour : SameSpan utcReader .google storedHour googleHour := ⟨_, rfl, rfl⟩

/-- A title is updated. -/
theorem agrees_iff_example : ∃ row remote', updateEventMutation utcZones 1 (.ok ()) isoInput
    "00000000-0000-0000-0000-000000000000" (some googleEvent) (some storedHour) googleHour { title := some "Talk" } =
      .ok (row, remote') ∧
    ∃ updates, canonicaliseEventUpdates isoInput { title := some "Talk" } false = .ok updates ∧
      (Agrees utcReader .google row remote' ↔ KeepsAgreement utcReader updates storedHour googleHour .google) := by
  obtain ⟨row, remote', h⟩ : ∃ row remote', updateEventMutation utcZones 1 (.ok ()) isoInput
      "00000000-0000-0000-0000-000000000000" (some googleEvent) (some storedHour) googleHour
      { title := some "Talk" } = .ok (row, remote') := ⟨_, _, rfl⟩
  exact ⟨row, remote', h, agrees_iff isFaithful_utcReader rfl sameSpan_googleHour h⟩

/-- **A row becomes all-day** by an update that leaves the event in Google as it was. -/
theorem not_agrees : ∃ row remote', updateEventMutation utcZones 1 (.ok ()) isoInput
    "00000000-0000-0000-0000-000000000000" (some googleEvent) (some storedHour) googleHour { isAllDay := some true } =
      .ok (row, remote') ∧
    SameSpan utcReader .google storedHour googleHour ∧ ¬ Agrees utcReader .google row remote' := by
  refine ⟨_, _, rfl, sameSpan_googleHour, ?_⟩
  rintro ⟨held, hheld, -, hkind⟩
  obtain rfl := Option.some.inj hheld
  exact absurd hkind (by decide)

end UpdateAgreement

end Keeper
