import Keeper.Foundations.Spans
import Keeper.Reads.EventReadModel
import Keeper.Recurrence.AllTime

/-!
# Listing events in a range

`queries/get-events-in-range.ts`: the rows that may contribute events to a range are selected by their
stored columns, a day wider than the range, and what they give is listed as far as its viewer span
overlaps the range.

* `getEventsInRange_ok`: the listing, by the occurrences of the selected masters and the other rows.
* `listsExactly_iff`: it holds all that the stored rows contain in the range exactly when the scan
  covers them.
-/

namespace Keeper

open JsArray

/-! ## The tables -/

/-- A row of `calendars` beside the provider of its account. -/
structure CalendarRow where
  id : String
  name : String
  provider : String
  url : Option String := none
  userId : String
  capabilities : List String

/-- A row of `user_events`. -/
structure UserEventRecord extends UserEventRow where
  availability : Option String := none
  userId : String

/-- The tables that reads of events use. -/
structure EventStore where
  calendars : List CalendarRow
  eventStates : List SyncedEventRow
  userEvents : List UserEventRecord

/-! ## The range -/

def maxEventRangeDays : ℤ := 732

def normalizeDateRange («from» «to» : ℤ) : Except ReadError (Span ℤ) :=
  if «to» ≤ «from» then .error (.validation "Event range requires from to be before to")
  else if maxEventRangeDays * msPerDay < «to» - «from» then
    .error (.validation "Event range cannot exceed 732 days")
  else .ok ⟨«from», «to»⟩

theorem normalizeDateRange_ok {a b : ℤ} {range : Span ℤ}
    (h : normalizeDateRange a b = .ok range) : range = ⟨a, b⟩ ∧ a < b := by
  unfold normalizeDateRange at h
  split_ifs at h with hempty
  exact ⟨(Except.ok.inj h).symm, not_le.1 hempty⟩

/-- `getSourcesForUser`: the calendars that a user pulls, and what is published of them. -/
def getSourcesForUser (store : EventStore) (userId : String) (filters : KeeperEventFilters) :
    List String × JsMap String SourceInfo :=
  let sources := store.calendars.filter fun calendar =>
    calendar.userId = userId && calendar.capabilities.contains "pull" &&
      filters.calendarId.all fun ids => ids.isEmpty || ids.contains calendar.id
  (sources.map (·.id), JsMap.ofList (sources.map fun source =>
    (source.id, ⟨source.name, source.provider, source.url, source.userId⟩)))

theorem isSome_sourceMap {store : EventStore} {userId : String} {filters : KeeperEventFilters}
    {id : String} (h : id ∈ (getSourcesForUser store userId filters).1) :
    ((getSourcesForUser store userId filters).2.get? id).isSome = true := by
  rw [JsMap.isSome_get?_iff]
  refine JsMap.mem_keys_ofList.2 ?_
  rwa [List.map_map]

def toScanBounds (range : Span ℤ) : Span ℤ where
  start := range.start - representableRangeSlackMs
  stop := range.stop + representableRangeSlackMs

/-- The clause of both conditions on the stored times of a row. -/
def isInScan (range : Span ℤ) (stored : EventTimeRange) : Bool :=
  ((toScanBounds range).start ≤ stored.endTime || (toScanBounds range).start ≤ stored.startTime) &&
    stored.startTime ≤ (toScanBounds range).stop

def buildSyncedRangeCondition (range : Span ℤ) (row : SyncedEventRow) : Bool :=
  (row.recurrenceRule.isNone && row.recurrenceId.isNone &&
      isInScan range row.shape.toEventTimeRange) ||
    (row.recurrenceRule.isSome && row.startTime ≤ (toScanBounds range).stop) ||
    row.recurrenceId.isSome

def buildUserRangeCondition (range : Span ℤ) (row : UserEventRow) : Bool :=
  isInScan range row.shape.toEventTimeRange

/-- `isWithinReadWindow`: read windows include their end. -/
def isWithinReadWindow (zones : Zones) (shape : AllDayEventShape) (range : Span ℤ)
    (timeZone : Option String) : Except RangeError Bool :=
  overlapsViewerReadWindow zones shape range.start (range.stop + 1) timeZone

/-! ## The listing -/

structure KeeperEventRangeInput where
  «from» : ℤ
  «to» : ℤ
  timeZone : Option String := none

/-- The rows of `event_states` that a read selects, in the order of their starts. -/
def selectSyncedRows (store : EventStore) (calendarIds : List String) (range : Span ℤ) :
    List SyncedEventRow :=
  toSorted (fun a b => a.startTime - b.startTime) (store.eventStates.filter fun row =>
    calendarIds.contains row.calendarId && buildSyncedRangeCondition range row)

/-- The rows of `user_events` that a read selects, in the order of their starts. -/
def selectUserRows (store : EventStore) (userId : String) (calendarIds : List String)
    (range : Span ℤ) (filters : KeeperEventFilters) : List UserEventRecord :=
  toSorted (fun a b => a.startTime - b.startTime) (store.userEvents.filter fun row =>
    calendarIds.contains row.calendarId && row.userId = userId &&
      buildUserRangeCondition range row.toUserEventRow &&
      (filters.availability.all fun availability =>
        availability.isEmpty || row.availability.any availability.contains) &&
      filters.isAllDay.all fun isAllDay => row.isAllDay = some isAllDay)

/-- The end of `getEventsInRange`: an event with what its source adds. -/
def publishEvent (sourceMap : JsMap String SourceInfo) (event : KeeperEventProjection) :
    Except ReadError KeeperEvent :=
  match sourceMap.get? event.calendarId with
  | none => .error (.source ("No source calendar found for event calendar ID: " ++
      event.calendarId))
  | some source => .ok (toKeeperEvent event source)

def getEventsInRange (rt : Runtime) (ark : Arktype) (store : EventStore) (userId : String)
    (input : KeeperEventRangeInput) (filters : KeeperEventFilters) :
    Except ReadError (List KeeperEvent) := do
  let range ← normalizeDateRange input.from input.«to»
  let sources := getSourcesForUser store userId filters
  if sources.1.isEmpty then pure []
  else
    let syncedEvents ← projectSyncedEvents rt ark (selectSyncedRows store sources.1 range) sources.2
      range.start range.stop filters input.timeZone
    let userEventRows ← (filterThrowing (fun row : UserEventRecord =>
      isWithinReadWindow rt.zones row.shape range input.timeZone)
      (selectUserRows store userId sources.1 range filters)).mapError .range
    let allEvents := toSorted (fun a b => a.startTime - b.startTime)
      (syncedEvents ++ userEventRows.map fun row => toUserProjection row.toUserEventRow)
    allEvents.mapM (publishEvent sources.2)

/-! ## What is stored -/

/-- The rows of `event_states` of these calendars. -/
def storedRows (store : EventStore) (calendarIds : List String) : List SyncedEventRow :=
  store.eventStates.filter fun row => calendarIds.contains row.calendarId

/-- The rows of `user_events` of these calendars. -/
def storedUserEvents (store : EventStore) (userId : String) (calendarIds : List String) :
    List UserEventRecord :=
  store.userEvents.filter fun row => calendarIds.contains row.calendarId && row.userId = userId

/-- A read can be made of these events: they are those of the stored rows, none is over budget in the
window that is materialized, and their zones and the viewer's are regular. -/
structure CanRead (rt : Runtime) (ark : Arktype) (occurs : RRuleOptions → ℤ → Prop)
    (store : EventStore) (sources : List String × JsMap String SourceInfo) (window : Span ℤ)
    (timeZone : Option String) (events : List SyncableEvent) : Prop where
  enumerates : rt.Enumerates occurs
  parsed : toSyncableEvents ark (storedRows store sources.1) sources.2 = .ok events
  withinBudget : ∀ event ∈ events,
    isSkipped rt (widenedWindow window.start window.stop) event = false
  zones : ∀ event ∈ events, event.isMaster = true → ∃ name,
    resolveTimeZone rt.zones event.startTimeZone = .ok name ∧
      ∀ zone, name = some zone → RegularZone rt.zones zone
  viewer : IsRegularViewer rt.zones timeZone

def isScanned (range : Span ℤ) (event : SyncableEvent) : Bool :=
  (event.recurrenceRule.isNone && event.recurrenceId.isNone &&
      isInScan range event.shape.toEventTimeRange) ||
    (event.recurrenceRule.isSome && event.startTime ≤ (toScanBounds range).stop) ||
    event.recurrenceId.isSome

/-- What is published of these occurrences, other events and user events. -/
def contents (rt : Runtime) (events : List SyncableEvent) (userEvents : List UserEventRecord)
    (slotsOf : SyncableEvent → List ℤ) (single : SyncableEvent → Bool)
    (own : UserEventRecord → Bool) : List KeeperEventProjection :=
  (occurrencesAt rt events slotsOf ++
      (events.filter fun event => !event.isMaster && single event).map asOneOffEvent).map
    toSyncedProjection ++
    (userEvents.filter own).map fun row => toUserProjection row.toUserEventRow

section Selection

variable {rt : Runtime} {ark : Arktype} {occurs : RRuleOptions → ℤ → Prop} {store : EventStore}
  {sources : List String × JsMap String SourceInfo} {range window : Span ℤ}
  {timeZone : Option String} {events : List SyncableEvent}

theorem isScanned_of_override {event : SyncableEvent} (h : event.recurrenceId.isSome = true) :
    isScanned range event = true := by
  rw [isScanned, h, Bool.or_true]

theorem isScanned_master {event : SyncableEvent} (h : event.isMaster = true) :
    isScanned range event = true ↔ event.startTime ≤ (toScanBounds range).stop := by
  rw [SyncableEvent.isMaster, Bool.and_eq_true, Option.isNone_iff_eq_none] at h
  simp [isScanned, h.1, h.2, Option.isNone_eq_false_iff.2 h.1]

/-- **The events of the selected rows** are the scanned ones. -/
theorem CanRead.selected (h : CanRead rt ark occurs store sources window timeZone events)
    (range : Span ℤ) :
    ∃ selected, toSyncableEvents ark (selectSyncedRows store sources.1 range) sources.2 =
        .ok selected ∧ selected.Perm (events.filter (isScanned range)) := by
  refine toSyncableEvents_selected h.parsed (p := buildSyncedRangeCondition range)
    (fun row event hevent => ?_) ((toSorted_perm _ _).trans (List.Perm.of_eq ?_))
  · have hstart : event.startTime = row.startTime := congrArg (·.startTime) hevent.shape
    have hnone : event.recurrenceRule.isNone = row.recurrenceRule.isNone := by
      rw [← Option.not_isSome, ← Option.not_isSome, hevent.isSome_rule]
    rw [buildSyncedRangeCondition, isScanned, hevent.shape, hevent.recurrenceId,
      hevent.isSome_rule, hnone, hstart]
  · rw [storedRows, List.filter_filter]
    exact List.filter_congr fun row _ => Bool.and_comm _ _

theorem CanRead.isExpandable (h : CanRead rt ark occurs store sources window timeZone events)
    (hwindow : window.start < window.stop) {p : SyncableEvent → Bool}
    {selected : List SyncableEvent} (hselected : selected.Perm (events.filter p)) :
    IsExpandable rt occurs selected (widenedWindow window.start window.stop) where
  enumerates := h.enumerates
  withinBudget event hevent :=
    h.withinBudget event (List.mem_filter.1 (hselected.mem_iff.1 hevent)).1
  zones event hevent := h.zones event (List.mem_filter.1 (hselected.mem_iff.1 hevent)).1
  window := by
    have hslack : (0 : ℤ) < representableRangeSlackMs := by decide
    show window.start - representableRangeSlackMs < window.stop + 1 + representableRangeSlackMs
    omega

/-- **What is materialized of the selected rows**: the occurrences of the scanned masters that are
searched, and the other scanned events, as far as they overlap the widened window and are in view. -/
theorem CanRead.materializeSyncedEvents_ok
    (h : CanRead rt ark occurs store sources window timeZone events)
    (hwindow : window.start < window.stop) (range : Span ℤ) :
    ∃ l, materializeSyncedEvents rt ark (selectSyncedRows store sources.1 range) sources.2
        window.start window.stop timeZone = .ok l ∧
      ∃ slotsOf : SyncableEvent → List ℤ,
        l.Perm (occurrencesAt rt events slotsOf ++ (events.filter fun event =>
          !event.isMaster && (isScanned range event &&
            (widenedWindow window.start window.stop).overlaps event.range &&
            isInView rt.zones timeZone window.start (window.stop + 1) event.shape)).map
          asOneOffEvent) ∧
        ∀ master ∈ events.filter (·.isMaster), (slotsOf master).Nodup ∧ ∀ slot,
          slot ∈ slotsOf master ↔ isScanned range master = true ∧
            IsReached rt occurs (widenedWindow window.start window.stop) master slot ∧
            ∃ e, IsOccurrenceOf rt occurs (events.filter (isScanned range)) master slot e ∧
              (widenedWindow window.start window.stop).overlaps e.range = true ∧
              isInView rt.zones timeZone window.start (window.stop + 1) e.shape = true := by
  obtain ⟨selected, hrows, hselected⟩ := h.selected range
  obtain ⟨slotsOf, hrun, hslots⟩ :=
    (h.isExpandable hwindow hselected).materializeRecurrenceEvents_ok false []
  refine ⟨_, materializeSyncedEvents_eq h.viewer hrows hrun, fun master =>
    if isScanned range master then (slotsOf master).filter fun slot =>
      (occurrenceAt rt master (seriesZones rt master) slot).any fun e =>
        isInView rt.zones timeZone window.start (window.stop + 1) e.shape else [], ?_, ?_⟩
  · refine ((toSorted_perm _ _).filter _).trans ?_
    rw [List.filter_append, filter_occurrencesAt, ← occurrencesAt_filter]
    refine (occurrencesAt_perm hselected _).append ?_
    rw [oneOffsOf, List.filter_map]
    refine List.Perm.map _ (((hselected.filter _).filter _).trans (List.Perm.of_eq ?_))
    rw [List.filter_filter, List.filter_filter]
    refine List.filter_congr fun event _ => ?_
    show (isInView rt.zones timeZone window.start (window.stop + 1) event.shape &&
      (!event.isMaster && (widenedWindow window.start window.stop).overlaps event.range) &&
      isScanned range event) = _
    ac_rfl
  · intro master hmaster
    obtain ⟨hmem, hyes⟩ := List.mem_filter.1 hmaster
    dsimp only
    by_cases hscanned : isScanned range master = true
    · have hin : master ∈ selected.filter (·.isMaster) := List.mem_filter.2
        ⟨hselected.mem_iff.2 (List.mem_filter.2 ⟨hmem, hscanned⟩), hyes⟩
      rw [if_pos hscanned]
      refine ⟨(hslots master hin).1.filter _, fun slot => ?_⟩
      rw [List.mem_filter, (hslots master hin).2, isLiveBeside_iff]
      simp only [isOccurrenceOf_congr hselected]
      constructor
      · rintro ⟨⟨hreached, e, he, hoverlaps⟩, hview⟩
        rw [he.2] at hview
        exact ⟨hscanned, hreached, e, he, hoverlaps, hview⟩
      · rintro ⟨-, hreached, e, he, hoverlaps, hview⟩
        refine ⟨⟨hreached, e, he, hoverlaps⟩, ?_⟩
        rw [he.2]
        exact hview
    · rw [if_neg hscanned]
      exact ⟨List.nodup_nil, fun slot => iff_of_false List.not_mem_nil fun hin =>
        hscanned hin.1⟩

end Selection

/-! ## The listing is exact -/

section Listing

variable (rt : Runtime) (occurs : RRuleOptions → ℤ → Prop) (events : List SyncableEvent)
  (userEvents : List UserEventRecord) (sourceMap : JsMap String SourceInfo)
  (timeZone : Option String) (range : Span ℤ)

/-- An event is in the range as its viewer sees it. -/
def isListed (shape : AllDayEventShape) : Bool :=
  isInView rt.zones timeZone range.start (range.stop + 1) shape

/-- A listing is exact: it publishes an event for each occurrence, override, one-off and user event
that is stored and in the range, and no other. -/
def ListsExactly (listed : List KeeperEvent) : Prop :=
  ∃ slotsOf : SyncableEvent → List ℤ,
    (∀ master ∈ events.filter (·.isMaster), (slotsOf master).Nodup ∧ ∀ slot,
      slot ∈ slotsOf master ↔ ∃ e, IsOccurrenceOf rt occurs events master slot e ∧
        isListed rt timeZone range e.shape = true) ∧
    ∃ l, (contents rt events userEvents slotsOf (fun event => isListed rt timeZone range event.shape)
        fun row => isListed rt timeZone range row.shape).mapM (publishEvent sourceMap) = .ok l ∧
      listed.Perm l

/-- The scan covers the range: of what is stored and in the range,

* an override or one-off overlaps the range widened by a day,
* a user event starts by a day after the range, and starts or ends from a day before it on,
* an occurrence overlaps the widened range, its wall time is searched there, and it is not hidden
  among the events of the scan, where a series can have one master that has several in store. -/
structure CoversRange : Prop where
  singles : ∀ event ∈ events, event.isMaster = false →
    isListed rt timeZone range event.shape = true →
      (widenedWindow range.start range.stop).overlaps event.range = true
  userEvents : ∀ row ∈ userEvents, isListed rt timeZone range row.shape = true →
    isInScan range row.shape.toEventTimeRange = true
  occurrences : ∀ master ∈ events, master.isMaster = true → ∀ slot e,
    IsOccurrenceOf rt occurs events master slot e → isListed rt timeZone range e.shape = true →
      IsReached rt occurs (widenedWindow range.start range.stop) master slot ∧
        (widenedWindow range.start range.stop).overlaps e.range = true ∧
        ¬ IsHidden (events.filter (isScanned range)) master slot

variable {rt occurs events userEvents sourceMap timeZone range}

theorem IsReached.isScanned {master : SyncableEvent} (hmaster : master.isMaster = true) {slot : ℤ}
    (h : IsReached rt occurs (widenedWindow range.start range.stop) master slot) :
    isScanned range master = true := by
  obtain ⟨-, -, w, -, hstart, -⟩ := h
  have hstart : master.startTime < range.stop + 1 + representableRangeSlackMs := hstart
  rw [isScanned_master hmaster]
  show master.startTime ≤ range.stop + representableRangeSlackMs
  omega

theorem isInScan_of_overlaps {stored : EventTimeRange}
    (h : (widenedWindow range.start range.stop).overlaps stored = true) :
    isInScan range stored = true := by
  have hday : (0 : ℤ) < representableRangeSlackMs := by decide
  rw [SyncWindow.overlaps, overlapsTimeWindow_iff] at h
  simp only [widenedWindow] at h
  simp only [isInScan, Bool.and_eq_true, Bool.or_eq_true, decide_eq_true_eq]
  simp only [toScanBounds]
  omega

theorem isScanned_of_overlaps {event : SyncableEvent} (hmaster : event.isMaster = false)
    (h : (widenedWindow range.start range.stop).overlaps event.range = true) :
    isScanned range event = true := by
  cases hid : event.recurrenceId.isSome with
  | true => exact isScanned_of_override hid
  | false =>
    have hrule : event.recurrenceRule = none := by
      rw [SyncableEvent.isMaster, ← Option.not_isSome, hid, Bool.not_false, Bool.and_true] at hmaster
      exact Option.not_isSome_iff_eq_none.1 (by rw [hmaster]; decide)
    have hscan : isInScan range event.shape.toEventTimeRange = true := isInScan_of_overlaps h
    rw [isScanned, hrule, ← Option.not_isSome, ← Option.not_isSome, hid, hscan]
    rfl

theorem CanRead.publishes {ark : Arktype} {store : EventStore} {userId : String}
    {filters : KeeperEventFilters} {window : Span ℤ} {viewer : Option String}
    (h : CanRead rt ark occurs store (getSourcesForUser store userId filters) window viewer
      events) (slotsOf : SyncableEvent → List ℤ) (single : SyncableEvent → Bool)
    (own : UserEventRecord → Bool) :
    ∃ l, (contents rt events
      (storedUserEvents store userId (getSourcesForUser store userId filters).1) slotsOf single
      own).mapM (publishEvent (getSourcesForUser store userId filters).2) = .ok l := by
  have hpublish : ∀ event : KeeperEventProjection,
      event.calendarId ∈ (getSourcesForUser store userId filters).1 →
        ∃ e, publishEvent (getSourcesForUser store userId filters).2 event = .ok e := by
    intro event hevent
    obtain ⟨source, hsource⟩ := Option.isSome_iff_exists.1 (isSome_sourceMap hevent)
    exact ⟨_, by rw [publishEvent, hsource]⟩
  have hevents : ∀ event ∈ events,
      event.calendarId ∈ (getSourcesForUser store userId filters).1 := by
    intro event hevent
    obtain ⟨row, hrow, source, -, hok⟩ := exists_row_of_mem_events h.parsed hevent
    rw [(toSyncableEvent_ok hok).calendarId]
    simpa using (List.mem_filter.1 hrow).2
  refine ⟨_, mapM_eq_ok_iff.2 ⟨fun event hevent => hpublish event ?_, rfl⟩⟩
  rcases List.mem_append.1 hevent with hevent | hevent
  · obtain ⟨e, he, rfl⟩ := List.mem_map.1 hevent
    rcases List.mem_append.1 he with he | he
    · obtain ⟨master, hmaster, he⟩ := List.mem_flatMap.1 he
      obtain ⟨slot, -, he⟩ := List.mem_filterMap.1 he
      show e.calendarId ∈ _
      rw [(occurrenceAt_eq_some he).2]
      exact hevents master (List.mem_filter.1 hmaster).1
    · obtain ⟨single, hsingle, rfl⟩ := List.mem_map.1 he
      exact hevents single (List.mem_filter.1 hsingle).1
  · obtain ⟨row, hrow, rfl⟩ := List.mem_map.1 hevent
    have hstored := (List.mem_filter.1 (List.mem_filter.1 hrow).1).2
    rw [Bool.and_eq_true, List.contains_eq_mem, decide_eq_true_eq] at hstored
    exact hstored.1

theorem length_contents {slotsOf : SyncableEvent → List ℤ} {single : SyncableEvent → Bool}
    {own : UserEventRecord → Bool} :
    (contents rt events userEvents slotsOf single own).length =
      (occurrencesAt rt events slotsOf).length +
        (events.filter fun event => !event.isMaster && single event).length +
        (userEvents.filter own).length := by
  simp [contents, add_assoc]

end Listing

section Exact

variable {rt : Runtime} {ark : Arktype} {occurs : RRuleOptions → ℤ → Prop} {store : EventStore}
  {userId : String} {input : KeeperEventRangeInput} {range : Span ℤ}
  {events : List SyncableEvent}

theorem contents_nil {filters : KeeperEventFilters}
    (hnone : (getSourcesForUser store userId filters).1 = [])
    (hparsed : toSyncableEvents ark (storedRows store (getSourcesForUser store userId filters).1)
      (getSourcesForUser store userId filters).2 = .ok events) :
    events = [] ∧
      storedUserEvents store userId (getSourcesForUser store userId filters).1 = [] := by
  rw [hnone] at hparsed ⊢
  have hrows : storedRows store [] = [] := List.filter_eq_nil_iff.2 fun row _ => by simp
  rw [hrows] at hparsed
  exact ⟨(Except.ok.inj hparsed).symm, List.filter_eq_nil_iff.2 fun row _ => by simp⟩

/-- **The listing**: the occurrences of the scanned masters that are searched, and the other scanned
rows, as far as they are in the range. -/
theorem getEventsInRange_ok (hrange : normalizeDateRange input.from input.to = .ok range)
    (h : CanRead rt ark occurs store (getSourcesForUser store userId {}) range input.timeZone
      events) :
    ∃ listed, getEventsInRange rt ark store userId input {} = .ok listed ∧
      ∃ slotsOf : SyncableEvent → List ℤ,
        (∀ master ∈ events.filter (·.isMaster), (slotsOf master).Nodup ∧ ∀ slot,
          slot ∈ slotsOf master ↔ isScanned range master = true ∧
            IsReached rt occurs (widenedWindow range.start range.stop) master slot ∧
            ∃ e, IsOccurrenceOf rt occurs (events.filter (isScanned range)) master slot e ∧
              (widenedWindow range.start range.stop).overlaps e.range = true ∧
              isListed rt input.timeZone range e.shape = true) ∧
        ∃ l, (contents rt events
            (storedUserEvents store userId (getSourcesForUser store userId {}).1) slotsOf
            (fun event => isScanned range event &&
              (widenedWindow range.start range.stop).overlaps event.range &&
              isListed rt input.timeZone range event.shape)
            fun row => isInScan range row.shape.toEventTimeRange &&
              isListed rt input.timeZone range row.shape).mapM
          (publishEvent (getSourcesForUser store userId {}).2) = .ok l ∧ listed.Perm l := by
  have hwindow : range.start < range.stop := by
    obtain ⟨rfl, hlt⟩ := normalizeDateRange_ok hrange
    exact hlt
  by_cases hnone : (getSourcesForUser store userId {}).1 = []
  · obtain ⟨rfl, husers⟩ := contents_nil hnone h.parsed
    refine ⟨[], ?_, fun _ => [], fun master hmaster => absurd hmaster List.not_mem_nil, [], ?_,
      List.Perm.nil⟩
    · refine bind_eq_ok_iff.2 ⟨range, hrange, ?_⟩
      dsimp only
      rw [hnone]
      rfl
    · rw [husers]
      rfl
  · obtain ⟨occurrences, hsynced, slotsOf, hperm, hslots⟩ :=
      h.materializeSyncedEvents_ok hwindow range
    have husers := filterThrowing_ok
      (l := selectUserRows store userId (getSourcesForUser store userId {}).1 range {})
      fun row _ => overlapsViewerReadWindow_ok h.viewer row.shape range.start (range.stop + 1)
    have hown : ((selectUserRows store userId (getSourcesForUser store userId {}).1 range {}).filter
        fun row => isListed rt input.timeZone range row.shape).Perm
        ((storedUserEvents store userId (getSourcesForUser store userId {}).1).filter fun row =>
          isInScan range row.shape.toEventTimeRange &&
            isListed rt input.timeZone range row.shape) := by
      refine ((toSorted_perm _ _).filter _).trans (List.Perm.of_eq ?_)
      rw [storedUserEvents, List.filter_filter, List.filter_filter]
      refine List.filter_congr fun row _ => ?_
      simp only [Option.all_none, Bool.and_true]
      show (isListed rt input.timeZone range row.shape && (_ && _ &&
        isInScan range row.shape.toEventTimeRange)) = _
      ac_rfl
    have hall : (toSorted (fun a b => a.startTime - b.startTime)
        (occurrences.map toSyncedProjection ++ ((selectUserRows store userId
          (getSourcesForUser store userId {}).1 range {}).filter fun row =>
            isListed rt input.timeZone range row.shape).map fun row =>
          toUserProjection row.toUserEventRow)).Perm (contents rt events
        (storedUserEvents store userId (getSourcesForUser store userId {}).1) slotsOf
        (fun event => isScanned range event &&
          (widenedWindow range.start range.stop).overlaps event.range &&
          isListed rt input.timeZone range event.shape)
        fun row => isInScan range row.shape.toEventTimeRange &&
          isListed rt input.timeZone range row.shape) :=
      (toSorted_perm _ _).trans ((hperm.map _).append (hown.map _))
    obtain ⟨l, hl⟩ := h.publishes slotsOf
      (fun event => isScanned range event &&
        (widenedWindow range.start range.stop).overlaps event.range &&
        isListed rt input.timeZone range event.shape)
      fun row => isInScan range row.shape.toEventTimeRange &&
        isListed rt input.timeZone range row.shape
    obtain ⟨listed, hlisted, hlistedPerm⟩ := mapM_perm hall.symm hl
    refine ⟨listed, ?_, slotsOf, hslots, l, hl, hlistedPerm.symm⟩
    have hsome : (getSourcesForUser store userId {}).1.isEmpty = false := by
      rw [List.isEmpty_eq_false_iff]
      exact hnone
    have hproject : projectSyncedEvents rt ark
        (selectSyncedRows store (getSourcesForUser store userId {}).1 range)
        (getSourcesForUser store userId {}).2 range.start range.stop {} input.timeZone =
        .ok (occurrences.map toSyncedProjection) := by
      refine bind_eq_ok_iff.2 ⟨occurrences, hsynced, ?_⟩
      rw [List.filter_eq_self.2 fun e _ => isIncludedByFilters_none e]
      rfl
    refine bind_eq_ok_iff.2 ⟨range, hrange, ?_⟩
    dsimp only
    rw [if_neg (by rw [hsome]; decide)]
    exact bind_eq_ok_iff.2 ⟨_, hproject, bind_eq_ok_iff.2 ⟨_, mapError_eq_ok_iff.2 husers, hlisted⟩⟩

/-- **The listing is exact** exactly when the scan covers the range. -/
theorem listsExactly_iff (hrange : normalizeDateRange input.from input.to = .ok range)
    (h : CanRead rt ark occurs store (getSourcesForUser store userId {}) range input.timeZone
      events) :
    ∃ listed, getEventsInRange rt ark store userId input {} = .ok listed ∧
      (ListsExactly rt occurs events
          (storedUserEvents store userId (getSourcesForUser store userId {}).1)
          (getSourcesForUser store userId {}).2 input.timeZone range listed ↔
        CoversRange rt occurs events
          (storedUserEvents store userId (getSourcesForUser store userId {}).1) input.timeZone
          range) := by
  obtain ⟨listed, hrun, slotsOf, hslots, l, hl, hperm⟩ := getEventsInRange_ok hrange h
  refine ⟨listed, hrun, ?_, fun hcovers => ⟨slotsOf, fun master hmaster => ?_, l, ?_, hperm⟩⟩
  · rintro ⟨slotsOf', hslots', l', hl', hperm'⟩
    have hsub : ∀ master ∈ events.filter (·.isMaster),
        (slotsOf master).Subperm (slotsOf' master) := by
      intro master hmaster
      refine (hslots master hmaster).1.subperm fun slot hslot => ?_
      obtain ⟨hscanned, -, e, he, -, hlisted⟩ := ((hslots master hmaster).2 slot).1 hslot
      exact ((hslots' master hmaster).2 slot).2 ⟨e, he.of_filter
        (fun event _ hid => isScanned_of_override hid) hscanned, hlisted⟩
    have hsome : ∀ master ∈ events.filter (·.isMaster), ∀ slot ∈ slotsOf' master,
        (occurrenceAt rt master (seriesZones rt master) slot).isSome := by
      intro master hmaster slot hslot
      obtain ⟨e, he, -⟩ := ((hslots' master hmaster).2 slot).1 hslot
      exact Option.isSome_iff_exists.2 ⟨e, he.2⟩
    have hsingle : ∀ event ∈ events, (!event.isMaster && (isScanned range event &&
        (widenedWindow range.start range.stop).overlaps event.range &&
        isListed rt input.timeZone range event.shape)) = true →
        (!event.isMaster && isListed rt input.timeZone range event.shape) = true := by
      simp only [Bool.and_eq_true]
      exact fun event _ hin => ⟨hin.1, hin.2.2⟩
    have hown : ∀ row ∈ storedUserEvents store userId (getSourcesForUser store userId {}).1,
        (isInScan range row.shape.toEventTimeRange &&
          isListed rt input.timeZone range row.shape) = true →
        isListed rt input.timeZone range row.shape = true := by
      simp only [Bool.and_eq_true]
      exact fun row _ hin => hin.2
    -- each of the three parts of the listing is within its part of what is stored
    have hlength := (hperm.symm.trans hperm').length_eq
    rw [length_mapM hl, length_mapM hl', length_contents, length_contents] at hlength
    have hoccurrences := length_occurrencesAt_le hsub hsome
    have hsingles := length_filter_le_of_imp hsingle
    have howns := length_filter_le_of_imp hown
    refine ⟨fun event hevent hmaster hlisted => ?_, fun row hrow hlisted => ?_,
      fun master hmem hmaster slot e he hlisted => ?_⟩
    · have hin := of_length_filter_le hsingle (by omega) hevent (by rw [hmaster, hlisted]; rfl)
      simp only [Bool.and_eq_true] at hin
      exact hin.2.1.2
    · have hin := of_length_filter_le hown (by omega) hrow hlisted
      exact (Bool.and_eq_true _ _ ▸ hin).1
    · have hin : master ∈ events.filter (·.isMaster) := List.mem_filter.2 ⟨hmem, hmaster⟩
      have hall := perm_of_length_occurrencesAt hsub hsome (by omega) hin
      have hslot := hall.mem_iff.2 (((hslots' master hin).2 slot).2 ⟨e, he, hlisted⟩)
      obtain ⟨-, hreached, e', he', hoverlaps, -⟩ := ((hslots master hin).2 slot).1 hslot
      obtain rfl := Option.some.inj (he.2.symm.trans he'.2)
      exact ⟨hreached, hoverlaps, he'.1.2.2⟩
  · refine ⟨(hslots master hmaster).1, fun slot => ?_⟩
    obtain ⟨hmem, hyes⟩ := List.mem_filter.1 hmaster
    rw [(hslots master hmaster).2]
    constructor
    · rintro ⟨hscanned, -, e, he, -, hlisted⟩
      exact ⟨e, he.of_filter (fun event _ hid => isScanned_of_override hid) hscanned, hlisted⟩
    · rintro ⟨e, he, hlisted⟩
      obtain ⟨hreached, hoverlaps, hhidden⟩ := hcovers.occurrences master hmem hyes slot e he hlisted
      exact ⟨hreached.isScanned hyes, hreached, e, ⟨⟨he.1.1, he.1.2.1, hhidden⟩, he.2⟩, hoverlaps,
        hlisted⟩
  · refine Eq.trans (congrArg (List.mapM _) ?_) hl
    refine congrArg₂ (· ++ ·) (congrArg (List.map _) (congrArg _ (congrArg (List.map _) ?_)))
      (congrArg (List.map _) ?_)
    · refine List.filter_congr fun event hevent => ?_
      cases hmaster : event.isMaster with
      | true => rfl
      | false =>
        cases hlisted : isListed rt input.timeZone range event.shape with
        | false => simp [hlisted]
        | true =>
          have hoverlaps := hcovers.singles event hevent hmaster hlisted
          simp [hoverlaps, isScanned_of_overlaps hmaster hoverlaps]
    · refine List.filter_congr fun row hrow => ?_
      cases hlisted : isListed rt input.timeZone range row.shape with
      | false => simp
      | true => simp [hcovers.userEvents row hrow hlisted]

end Exact

namespace Example

/-- The host of a zone fourteen hours ahead of UTC, and an engine for rules that never occur. -/
def kiritimati : Runtime where
  host
  zones :=
    { identify := id
      supports := fun _ => true
      instantToWallTime := fun t _ => t + 50400000 }
  between _ _ _ := .ok []

theorem kiritimati_enumerates : kiritimati.Enumerates fun _ _ => False where
  between _ _ _ := ⟨[], rfl, fun w => by simp⟩
  dtstart _ _ h := h.elim
  «until» _ _ h := h.elim

theorem kiritimati_regular (name : String) : RegularZone kiritimati.zones name where
  bounded t := by
    simp only [offsetMillisecondsAt, kiritimati, msPerDay]
    omega
  changes t := by
    refine ⟨t, fun u hu hc => by omega, fun u _ _ => ?_⟩
    simp only [offsetMillisecondsAt, kiritimati, msPerDay]
    omega

def noSchemas : Arktype := ⟨fun _ => none, fun _ _ => ""⟩

/-- An all-day event of the user that is stored from eight to nine in the evening of 2026-03-03,
UTC. -/
def evening : UserEventRecord where
  calendarId := "c1"
  id := "u1"
  startTime := 1772568000000
  endTime := 1772571600000
  isAllDay := some true
  title := some "Holiday"
  userId := "user"

def ownCalendar : CalendarRow where
  id := "c1"
  name := "Own"
  provider := "google"
  userId := "user"
  capabilities := ["pull"]

def holidayStore : EventStore where
  calendars := [ownCalendar]
  eventStates := []
  userEvents := [evening]

/-- From the start of 2026-03-01 to noon of 2026-03-02, read fourteen hours ahead: the day of the
event starts at ten in the morning of 2026-03-02. -/
def holidayRange : KeeperEventRangeInput := ⟨1772323200000, 1772452800000, some "Pacific/Kiritimati"⟩

theorem canRead_holidayStore {window : Span ℤ} {timeZone : Option String} :
    CanRead kiritimati noSchemas (fun _ _ => False) holidayStore
      (getSourcesForUser holidayStore "user" {}) window timeZone [] where
  enumerates := kiritimati_enumerates
  parsed := rfl
  withinBudget _ hevent := absurd hevent List.not_mem_nil
  zones _ hevent := absurd hevent List.not_mem_nil
  viewer name _ := kiritimati_regular name

end Example

theorem listsExactly_iff_example :
    ∃ listed, getEventsInRange Example.kiritimati Example.noSchemas Example.holidayStore "user"
        Example.holidayRange {} = .ok listed ∧
      (ListsExactly Example.kiritimati (fun _ _ => False) []
          (storedUserEvents Example.holidayStore "user"
            (getSourcesForUser Example.holidayStore "user" {}).1)
          (getSourcesForUser Example.holidayStore "user" {}).2 (some "Pacific/Kiritimati")
          ⟨1772323200000, 1772452800000⟩ listed ↔
        CoversRange Example.kiritimati (fun _ _ => False) []
          (storedUserEvents Example.holidayStore "user"
            (getSourcesForUser Example.holidayStore "user" {}).1) (some "Pacific/Kiritimati")
          ⟨1772323200000, 1772452800000⟩) :=
  listsExactly_iff (by rfl) Example.canRead_holidayStore

/-- **An event is lost.** The all-day event starts at ten in the morning of the range's last day for
its viewer; its stored start is thirty-two hours after the range, and the scan ends after
twenty-four. -/
theorem not_listsExactly :
    getEventsInRange Example.kiritimati Example.noSchemas Example.holidayStore "user"
        Example.holidayRange {} = .ok [] ∧
      ¬ ListsExactly Example.kiritimati (fun _ _ => False) []
        (storedUserEvents Example.holidayStore "user"
          (getSourcesForUser Example.holidayStore "user" {}).1)
        (getSourcesForUser Example.holidayStore "user" {}).2 (some "Pacific/Kiritimati")
        ⟨1772323200000, 1772452800000⟩ [] := by
  refine ⟨by rfl, ?_⟩
  rintro ⟨slotsOf, -, l, hl, hperm⟩
  have hlength := length_mapM hl
  rw [length_contents, hperm.nil_eq.symm] at hlength
  have hlisted : ((storedUserEvents Example.holidayStore "user"
      (getSourcesForUser Example.holidayStore "user" {}).1).filter fun row =>
        isListed Example.kiritimati (some "Pacific/Kiritimati") ⟨1772323200000, 1772452800000⟩
          row.shape).length = 1 := by rfl
  rw [hlisted, List.length_nil] at hlength
  omega

end Keeper
