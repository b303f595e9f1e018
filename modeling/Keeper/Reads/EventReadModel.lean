import Keeper.Core.RepresentableRange
import Keeper.Recurrence.Materializer
import Keeper.Recurrence.StoredRecurrence

/-!
# The read model of events

`queries/event-read-model.ts` and `queries/viewer-read-window.ts` of the API: stored rows become
syncable events, are materialized over a window that is widened by a day, and are published as far as
their published span overlaps the window itself, all-day events in the time zone of the viewer.

* `overlapsViewerReadWindow_eq`: an event is in a window where its viewer span overlaps it.
* `materializeSyncedEvents_eq`: what the read model lists is what the materializer gives, in order,
  as far as it is in the window.
-/

namespace Keeper

/-! ## Rows and projections -/

structure SourceInfo where
  name : String
  provider : String
  url : Option String
  userId : String

/-- `SyncedEventRow`: a row of `event_states`. -/
structure SyncedEventRow where
  availability : Option String := none
  calendarId : String
  description : Option String := none
  endTime : ℤ
  exceptionDates : Option String := none
  id : String
  isAllDay : Option Bool := none
  location : Option String := none
  recurrenceId : Option ℤ := none
  recurrenceRule : Option String := none
  sourceEventUid : Option String := none
  startTime : ℤ
  startTimeZone : Option String := none
  title : Option String := none
  deriving DecidableEq

/-- `UserEventRow`: the columns of `user_events` that are published. -/
structure UserEventRow where
  calendarId : String
  description : Option String := none
  endTime : ℤ
  id : String
  isAllDay : Option Bool := none
  location : Option String := none
  startTime : ℤ
  title : Option String := none
  deriving DecidableEq

structure KeeperEventProjection where
  calendarId : String
  description : Option String
  endTime : ℤ
  eventStateId : Option String
  id : String
  isAllDay : Bool
  location : Option String
  startTime : ℤ
  title : Option String
  deriving DecidableEq

/-- `KeeperEvent`: an event as the API returns it. -/
structure KeeperEvent where
  id : String
  eventStateId : Option String
  startTime : String
  endTime : String
  isAllDay : Bool
  title : Option String
  description : Option String
  location : Option String
  calendarId : String
  calendarName : String
  calendarProvider : String
  calendarUrl : Option String
  deriving DecidableEq

structure KeeperEventFilters where
  calendarId : Option (List String) := none
  availability : Option (List String) := none
  isAllDay : Option Bool := none

/-- What a read throws: a stored recurrence that does not parse, an error of the materializer, a
wall time that does not resolve, an invalid request, or an event without a source. -/
inductive ReadError
  | stored (message : String)
  | materialization (error : MaterializationError)
  | range (error : RangeError)
  | validation (message : String)
  | source (message : String)

def SyncedEventRow.shape (row : SyncedEventRow) : AllDayEventShape where
  startTime := row.startTime
  endTime := row.endTime
  isAllDay := row.isAllDay

def UserEventRow.shape (row : UserEventRow) : AllDayEventShape where
  startTime := row.startTime
  endTime := row.endTime
  isAllDay := row.isAllDay

/-! ## Publishing -/

def parseAvailability : Option String → Option EventAvailability
  | none => some .busy
  | some value => [.busy, .free, .oof, .workingElsewhere].find? (·.name = value)

def createOccurrenceEventId (eventStateId : String) (startTime : ℤ) : String :=
  "occurrence:" ++ eventStateId ++ ":" ++ toString startTime

def toSyncableEvent (ark : Arktype) (row : SyncedEventRow) (source : SourceInfo) :
    Except String SyncableEvent := do
  let recurrence ← parseStoredRecurrenceForMaterialization ark row.id row.exceptionDates
    row.recurrenceId row.recurrenceRule
  pure
    { availability := parseAvailability row.availability
      calendarId := row.calendarId
      calendarName := some source.name
      calendarUrl := source.url
      description := row.description
      endTime := row.endTime
      eventStateId := some row.id
      exceptionDates := recurrence.exceptionDates
      recurrenceId := recurrence.recurrenceId
      recurrenceDuration := recurrence.recurrenceDuration
      recurrenceRule := recurrence.recurrenceRule
      id := row.id
      isAllDay := row.isAllDay
      location := row.location
      sourceEventUid := row.sourceEventUid.getD row.id
      startTime := row.startTime
      startTimeZone := row.startTimeZone
      summary := row.title.getD "" }

def toSyncedProjection (occurrence : MaterializedSyncableEvent) : KeeperEventProjection :=
  let eventStateId := occurrence.eventStateId.getD occurrence.id
  let timeRange := resolveRepresentableTimeRange occurrence.shape
  { calendarId := occurrence.calendarId
    description := occurrence.description
    eventStateId := some eventStateId
    -- the id of an occurrence stays keyed to its stored start
    id := if occurrence.id = eventStateId then occurrence.id
      else createOccurrenceEventId eventStateId occurrence.startTime
    isAllDay := occurrence.shape.resolvesAllDay
    location := occurrence.location
    title := truthy (some occurrence.summary)
    startTime := timeRange.startTime
    endTime := timeRange.endTime }

def toUserProjection (row : UserEventRow) : KeeperEventProjection :=
  let timeRange := resolveRepresentableTimeRange row.shape
  { calendarId := row.calendarId
    description := row.description
    eventStateId := none
    id := row.id
    isAllDay := row.shape.resolvesAllDay
    location := row.location
    title := row.title
    startTime := timeRange.startTime
    endTime := timeRange.endTime }

def toKeeperEvent (event : KeeperEventProjection) (source : SourceInfo) : KeeperEvent where
  calendarId := event.calendarId
  calendarName := source.name
  calendarProvider := source.provider
  calendarUrl := source.url
  description := event.description
  endTime := Date.toISOString event.endTime
  eventStateId := event.eventStateId
  id := event.id
  isAllDay := event.isAllDay
  location := event.location
  startTime := Date.toISOString event.startTime
  title := event.title

def isIncludedByFilters (occurrence : MaterializedSyncableEvent) (filters : KeeperEventFilters) :
    Bool :=
  (filters.availability.all fun availability => availability.isEmpty ||
      availability.contains ((occurrence.availability.map (·.name)).getD "")) &&
    filters.isAllDay.all fun isAllDay => occurrence.isAllDay = some isAllDay

theorem isIncludedByFilters_none (occurrence : MaterializedSyncableEvent) :
    isIncludedByFilters occurrence {} = true := rfl

section Rows

variable {ark : Arktype} {row : SyncedEventRow} {source : SourceInfo} {event : SyncableEvent}

theorem isSome_of_parseStoredIcsRecurrence {value : Option String} {id : String}
    {rule : Option ParsedStoredRecurrenceRule}
    (h : parseStoredIcsRecurrence ark value id = .ok rule) : rule.isSome = value.isSome := by
  cases value with
  | none =>
    obtain rfl := Except.ok.inj h
    rfl
  | some value =>
    obtain ⟨parsed, -, h⟩ := bind_eq_ok_iff.1 h
    obtain ⟨storedRule, -, h⟩ := bind_eq_ok_iff.1 h
    obtain rfl := Except.ok.inj h
    rfl

structure IsEventOf (row : SyncedEventRow) (event : SyncableEvent) : Prop where
  id : event.id = row.id
  eventStateId : event.eventStateId = some row.id
  calendarId : event.calendarId = row.calendarId
  shape : event.shape = row.shape
  recurrenceId : event.recurrenceId = row.recurrenceId
  isSome_rule : event.recurrenceRule.isSome = row.recurrenceRule.isSome

/-- **The event of a row** keeps its times and its place in a series. -/
theorem toSyncableEvent_ok (h : toSyncableEvent ark row source = .ok event) :
    IsEventOf row event := by
  obtain ⟨recurrence, hrecurrence, h⟩ := bind_eq_ok_iff.1 h
  obtain rfl := Except.ok.inj h
  obtain ⟨dates, -, hrecurrence⟩ := bind_eq_ok_iff.1 hrecurrence
  obtain ⟨rule, hrule, hrecurrence⟩ := bind_eq_ok_iff.1 hrecurrence
  obtain rfl := Except.ok.inj hrecurrence
  refine ⟨rfl, rfl, rfl, rfl, rfl, ?_⟩
  rw [← isSome_of_parseStoredIcsRecurrence hrule]
  exact Option.isSome_map

/-- An event is in the series of its row, which is that of its uid or of the row alone. -/
theorem sourceEventUid_toSyncableEvent (h : toSyncableEvent ark row source = .ok event) :
    event.sourceEventUid = row.sourceEventUid.getD row.id := by
  obtain ⟨recurrence, -, h⟩ := bind_eq_ok_iff.1 h
  obtain rfl := Except.ok.inj h
  rfl

theorem truthy_recurrenceRule (h : toSyncableEvent ark row source = .ok event) :
    truthy row.recurrenceRule = row.recurrenceRule := by
  obtain ⟨recurrence, hrecurrence, -⟩ := bind_eq_ok_iff.1 h
  obtain ⟨dates, -, hrecurrence⟩ := bind_eq_ok_iff.1 hrecurrence
  obtain ⟨rule, hrule, -⟩ := bind_eq_ok_iff.1 hrecurrence
  cases hstored : row.recurrenceRule with
  | none => rfl
  | some text =>
    refine truthy_eq_some_iff.2 ⟨rfl, fun hempty => ?_⟩
    rw [hstored, hempty] at hrule
    cases hrule

end Rows

/-! ## The window of a viewer -/

section Viewer

variable (zones : Zones)

def projectAllDayRangeToZone (shape : AllDayEventShape) (timeZone : String) :
    Except RangeError EventTimeRange := do
  let published := resolveRepresentableTimeRange shape
  let endTime ← wallTimeToInstant zones published.endTime timeZone
  let startTime ← wallTimeToInstant zones published.startTime timeZone
  pure ⟨startTime, endTime⟩

def overlapsViewerReadWindow (shape : AllDayEventShape) (windowStart windowEnd : ℤ)
    (timeZone : Option String) : Except RangeError Bool :=
  match truthy timeZone with
  | none => .ok (overlapsRepresentableTimeWindow shape windowStart windowEnd)
  | some timeZone =>
    if shape.resolvesAllDay then do
      let range ← projectAllDayRangeToZone zones shape timeZone
      pure (overlapsTimeWindow range windowStart windowEnd)
    else .ok (overlapsRepresentableTimeWindow shape windowStart windowEnd)

/-- The span of an event as its viewer sees it: an all-day event covers its days on the viewer's
clock. -/
def viewerSpan (timeZone : Option String) (shape : AllDayEventShape) :
    Except RangeError EventTimeRange :=
  match truthy timeZone with
  | none => .ok (resolveRepresentableTimeRange shape)
  | some timeZone =>
    if shape.resolvesAllDay then projectAllDayRangeToZone zones shape timeZone
    else .ok (resolveRepresentableTimeRange shape)

/-- **An event is in a window** where its viewer span overlaps it. -/
theorem overlapsViewerReadWindow_eq (shape : AllDayEventShape) (windowStart windowEnd : ℤ)
    (timeZone : Option String) :
    overlapsViewerReadWindow zones shape windowStart windowEnd timeZone =
      (viewerSpan zones timeZone shape).map fun range =>
        overlapsTimeWindow range windowStart windowEnd := by
  unfold overlapsViewerReadWindow viewerSpan
  cases truthy timeZone with
  | none => rfl
  | some name =>
    dsimp only
    split_ifs
    · cases projectAllDayRangeToZone zones shape name <;> rfl
    · rfl

def IsRegularViewer (timeZone : Option String) : Prop :=
  ∀ name, truthy timeZone = some name → RegularZone zones name

variable {zones} {timeZone : Option String}

theorem projectAllDayRangeToZone_ok {name : String} (h : RegularZone zones name)
    (shape : AllDayEventShape) :
    ∃ range, projectAllDayRangeToZone zones shape name = .ok range := by
  obtain ⟨endTime, hend⟩ := wallTimeToInstant_ok zones h
    (resolveRepresentableTimeRange shape).endTime
  obtain ⟨startTime, hstart⟩ := wallTimeToInstant_ok zones h
    (resolveRepresentableTimeRange shape).startTime
  exact ⟨_, bind_eq_ok_iff.2 ⟨endTime, hend, bind_eq_ok_iff.2 ⟨startTime, hstart, rfl⟩⟩⟩

theorem viewerSpan_ok (h : IsRegularViewer zones timeZone) (shape : AllDayEventShape) :
    ∃ range, viewerSpan zones timeZone shape = .ok range := by
  unfold viewerSpan
  cases hzone : truthy timeZone with
  | none => exact ⟨_, rfl⟩
  | some name =>
    dsimp only
    split_ifs
    · exact projectAllDayRangeToZone_ok (h name hzone) shape
    · exact ⟨_, rfl⟩

variable {shape : AllDayEventShape}

/-- A viewer sees an all-day event within a day of its published span. -/
theorem projectAllDayRangeToZone_bounds {name : String} (h : RegularZone zones name)
    {range : EventTimeRange} (hrange : projectAllDayRangeToZone zones shape name = .ok range) :
    ((resolveRepresentableTimeRange shape).startTime - msPerDay ≤ range.startTime ∧
      range.startTime ≤ (resolveRepresentableTimeRange shape).startTime + msPerDay) ∧
    (resolveRepresentableTimeRange shape).endTime - msPerDay ≤ range.endTime ∧
      range.endTime ≤ (resolveRepresentableTimeRange shape).endTime + msPerDay := by
  obtain ⟨endTime, hend, hrange⟩ := bind_eq_ok_iff.1 hrange
  obtain ⟨startTime, hstart, hrange⟩ := bind_eq_ok_iff.1 hrange
  obtain rfl := Except.ok.inj hrange
  exact ⟨wallTimeToInstant_bounds zones h hstart, wallTimeToInstant_bounds zones h hend⟩

variable (zones) in
def isInView (timeZone : Option String) (windowStart windowEnd : ℤ) (shape : AllDayEventShape) :
    Bool :=
  ((viewerSpan zones timeZone shape).toOption.map fun range =>
    overlapsTimeWindow range windowStart windowEnd).getD false

theorem overlapsViewerReadWindow_ok (h : IsRegularViewer zones timeZone) (shape : AllDayEventShape)
    (windowStart windowEnd : ℤ) :
    overlapsViewerReadWindow zones shape windowStart windowEnd timeZone =
      .ok (isInView zones timeZone windowStart windowEnd shape) := by
  obtain ⟨range, hrange⟩ := viewerSpan_ok h shape
  rw [overlapsViewerReadWindow_eq, isInView, hrange]
  rfl

theorem isInView_iff {windowStart windowEnd : ℤ} :
    isInView zones timeZone windowStart windowEnd shape = true ↔
      ∃ range, viewerSpan zones timeZone shape = .ok range ∧
        overlapsTimeWindow range windowStart windowEnd = true := by
  unfold isInView
  cases viewerSpan zones timeZone shape <;> simp [Except.toOption]

/-- The day grid keeps the stored range of an event: its viewer has no zone, it is timed, or shaping
does not move it. -/
def IsGridded (timeZone : Option String) (shape : AllDayEventShape) : Prop :=
  truthy timeZone = none ∨ shape.resolvesAllDay = false ∨
    resolveRepresentableTimeRange shape = shape.toEventTimeRange

/-- **A day of slack is enough** on the day grid: the stored range of an event in view overlaps the
window widened by a day. -/
theorem IsGridded.overlaps (hviewer : IsRegularViewer zones timeZone)
    (hgrid : IsGridded timeZone shape) {windowStart windowEnd : ℤ}
    (h : isInView zones timeZone windowStart windowEnd shape = true) :
    overlapsTimeWindow shape.toEventTimeRange (windowStart - representableRangeSlackMs)
      (windowEnd + representableRangeSlackMs) = true := by
  obtain ⟨range, hrange, hoverlaps⟩ := isInView_iff.1 h
  unfold viewerSpan at hrange
  cases hzone : truthy timeZone with
  | none =>
    rw [hzone] at hrange
    obtain rfl := Except.ok.inj hrange
    exact overlapsTimeWindow_of_representable hoverlaps
  | some name =>
    rw [hzone] at hrange
    dsimp only at hrange
    split_ifs at hrange with hallDay
    · have hsame : resolveRepresentableTimeRange shape = shape.toEventTimeRange := by
        rcases hgrid with hno | hno | hsame
        · rw [hzone] at hno
          cases hno
        · rw [hallDay] at hno
          cases hno
        · exact hsame
      have hnonempty := (resolveRepresentableTimeRange_isShaped shape).nonempty
      have hbounds := projectAllDayRangeToZone_bounds (hviewer name hzone) hrange
      rw [hsame] at hnonempty hbounds
      rw [overlapsTimeWindow_iff] at hoverlaps ⊢
      rw [representableRangeSlackMs]
      omega
    · obtain rfl := Except.ok.inj hrange
      exact overlapsTimeWindow_of_representable hoverlaps

end Viewer

/-! ## Materializing -/

section Materialize

variable (rt : Runtime) (ark : Arktype)

def toSyncableEvents (rows : List SyncedEventRow) (sourceMap : JsMap String SourceInfo) :
    Except String (List SyncableEvent) :=
  (rows.filterMap fun row => (sourceMap.get? row.calendarId).map fun source => (row, source)).mapM
    fun (row, source) => toSyncableEvent ark row source

/-- The window that `materializeSyncedEvents` materializes: wider than asked, by a day on both
sides. -/
def widenedWindow (windowStart windowEnd : ℤ) : SyncWindow where
  timeMin := windowStart - representableRangeSlackMs
  timeMax := windowEnd + 1 + representableRangeSlackMs

def materializeSyncedEvents (rows : List SyncedEventRow) (sourceMap : JsMap String SourceInfo)
    (windowStart windowEnd : ℤ) (timeZone : Option String) :
    Except ReadError (List MaterializedSyncableEvent) := do
  let events ← (toSyncableEvents ark rows sourceMap).mapError .stored
  let exclusiveWindowEnd := windowEnd + 1
  let occurrences ← (materializeRecurrenceEvents rt events (widenedWindow windowStart windowEnd)
    false []).mapError .materialization
  (filterThrowing (fun occurrence => overlapsViewerReadWindow rt.zones occurrence.shape windowStart
    exclusiveWindowEnd timeZone) occurrences.events).mapError .range

def projectSyncedEvents (rows : List SyncedEventRow) (sourceMap : JsMap String SourceInfo)
    (windowStart windowEnd : ℤ) (filters : KeeperEventFilters) (timeZone : Option String) :
    Except ReadError (List KeeperEventProjection) := do
  let occurrences ← materializeSyncedEvents rt ark rows sourceMap windowStart windowEnd timeZone
  pure ((occurrences.filter (isIncludedByFilters · filters)).map toSyncedProjection)

variable {rt ark}

variable {rows : List SyncedEventRow} {sourceMap : JsMap String SourceInfo}
  {events : List SyncableEvent}

theorem toSyncableEvents_eq_ok_iff : toSyncableEvents ark rows sourceMap = .ok events ↔
      (∀ row ∈ rows, ∀ source, sourceMap.get? row.calendarId = some source →
        ∃ event, toSyncableEvent ark row source = .ok event) ∧
      events = rows.filterMap fun row => (sourceMap.get? row.calendarId).bind fun source =>
        (toSyncableEvent ark row source).toOption := by
  rw [toSyncableEvents, mapM_eq_ok_iff, List.filterMap_filterMap]
  refine and_congr ?_ ?_
  · constructor
    · intro h row hrow source hsource
      exact h (row, source) (List.mem_filterMap.2 ⟨row, hrow, by rw [hsource]; rfl⟩)
    · rintro h ⟨row, source⟩ hmem
      obtain ⟨row', hrow', hpair⟩ := List.mem_filterMap.1 hmem
      obtain ⟨source', hsource, hpair⟩ := Option.map_eq_some_iff.1 hpair
      obtain ⟨rfl, rfl⟩ := Prod.mk.inj hpair
      exact h row' hrow' source' hsource
  · rw [iff_eq_eq]
    refine congrArg _ (List.filterMap_congr fun row _ => ?_)
    cases sourceMap.get? row.calendarId <;> rfl

theorem exists_row_of_mem_events (h : toSyncableEvents ark rows sourceMap = .ok events)
    {event : SyncableEvent} (hmem : event ∈ events) :
    ∃ row ∈ rows, ∃ source, sourceMap.get? row.calendarId = some source ∧
      toSyncableEvent ark row source = .ok event := by
  obtain ⟨-, rfl⟩ := toSyncableEvents_eq_ok_iff.1 h
  obtain ⟨row, hrow, hevent⟩ := List.mem_filterMap.1 hmem
  obtain ⟨source, hsource, hevent⟩ := Option.bind_eq_some_iff.1 hevent
  refine ⟨row, hrow, source, hsource, ?_⟩
  cases hok : toSyncableEvent ark row source with
  | error message =>
    rw [hok] at hevent
    cases hevent
  | ok event' =>
    rw [hok] at hevent
    exact congrArg Except.ok (Option.some.inj hevent)

theorem mem_events_of_row (h : toSyncableEvents ark rows sourceMap = .ok events)
    {row : SyncedEventRow} (hrow : row ∈ rows) {source : SourceInfo}
    (hsource : sourceMap.get? row.calendarId = some source) :
    ∃ event ∈ events, toSyncableEvent ark row source = .ok event := by
  obtain ⟨hall, rfl⟩ := toSyncableEvents_eq_ok_iff.1 h
  obtain ⟨event, hevent⟩ := hall row hrow source hsource
  refine ⟨event, List.mem_filterMap.2 ⟨row, hrow, ?_⟩, hevent⟩
  rw [hsource, Option.bind_some, hevent]
  rfl

theorem length_toSyncableEvents (h : toSyncableEvents ark rows sourceMap = .ok events)
    (hsources : ∀ row ∈ rows, (sourceMap.get? row.calendarId).isSome = true) :
    events.length = rows.length := by
  rw [length_mapM h]
  refine List.filterMap_length_eq_length.2 fun row hrow => ?_
  rw [Option.isSome_map]
  exact hsources row hrow

/-- **The events of selected rows** are the events that pass the same test. -/
theorem toSyncableEvents_selected {rows' : List SyncedEventRow}
    (h : toSyncableEvents ark rows sourceMap = .ok events) {p : SyncedEventRow → Bool}
    {q : SyncableEvent → Bool} (hpq : ∀ row event, IsEventOf row event → p row = q event)
    (hperm : rows'.Perm (rows.filter p)) :
    ∃ events', toSyncableEvents ark rows' sourceMap = .ok events' ∧
      events'.Perm (events.filter q) := by
  obtain ⟨hall, rfl⟩ := toSyncableEvents_eq_ok_iff.1 h
  refine ⟨_, toSyncableEvents_eq_ok_iff.2 ⟨fun row hrow => ?_, rfl⟩, ?_⟩
  · exact hall row (List.mem_filter.1 (hperm.mem_iff.1 hrow)).1
  · refine (hperm.filterMap _).trans (List.Perm.of_eq ?_)
    rw [List.filterMap_filter, List.filter_filterMap]
    refine List.filterMap_congr fun row hrow => ?_
    cases hsource : sourceMap.get? row.calendarId with
    | none => simp
    | some source =>
      obtain ⟨event, hevent⟩ := hall row hrow source hsource
      have hsame := hpq row event (toSyncableEvent_ok hevent)
      rw [Option.bind_some, hevent, hsame]
      cases hq : q event <;> simp [Except.toOption, Option.filter, hq]

/-- **What the read model lists** is what the materializer gives, as far as it is in the window. -/
theorem materializeSyncedEvents_eq {windowStart windowEnd : ℤ} {timeZone : Option String}
    (hviewer : IsRegularViewer rt.zones timeZone)
    (hevents : toSyncableEvents ark rows sourceMap = .ok events) {result : Materialization}
    (hresult : materializeRecurrenceEvents rt events (widenedWindow windowStart windowEnd) false [] = .ok result) :
    materializeSyncedEvents rt ark rows sourceMap windowStart windowEnd timeZone =
      .ok (result.events.filter fun e =>
        isInView rt.zones timeZone windowStart (windowEnd + 1) e.shape) := by
  have hfilter := filterThrowing_ok (l := result.events) fun e _ =>
    overlapsViewerReadWindow_ok hviewer e.shape windowStart (windowEnd + 1)
  refine bind_eq_ok_iff.2 ⟨events, mapError_eq_ok_iff.2 hevents, bind_eq_ok_iff.2 ⟨result,
    mapError_eq_ok_iff.2 hresult, mapError_eq_ok_iff.2 hfilter⟩⟩

end Materialize

end Keeper
