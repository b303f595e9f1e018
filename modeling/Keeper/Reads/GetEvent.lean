import Keeper.Reads.EventReference
import Keeper.Reads.EventsInRange

/-!
# Getting one event

`queries/get-event.ts`: an event by the id under which it is listed. A user event, an override and a
one-off are read from their rows; an occurrence is materialized again, from the rows of its series,
over the one instant at which it starts.

* `resolveEventReadModel_persisted`, `resolveEventReadModel_own`: the event of a row.
* `resolveEventReadModel_occurrence`: an occurrence is found unless an override hides it among the rows
  of its series.
-/

namespace Keeper

open JsArray

/-! ## The repository -/

/-- `SyncedEventOwner`: a row of `event_states` beside its calendar. -/
structure SyncedEventOwner extends SyncedEventRow where
  calendarName : String
  calendarProvider : String
  calendarUrl : Option String

structure EventReadRepository where
  getSeriesRows : SyncedEventOwner → List SyncedEventRow
  getSyncedOwner : String → String → Option SyncedEventOwner
  getUserEvent : String → String → Option KeeperEvent

def joinCalendars {α : Type} (store : EventStore) (calendarId : α → String) (rows : List α) :
    List (α × CalendarRow) :=
  rows.flatMap fun row =>
    (store.calendars.filter fun calendar => calendar.id = calendarId row).map fun calendar =>
      (row, calendar)

def getUserEvent (store : EventStore) (userId resourceId : String) : Option KeeperEvent :=
  ((joinCalendars store (·.calendarId) store.userEvents).find? fun (row, _) =>
    row.id = resourceId && row.userId = userId).map fun (row, calendar) =>
      toKeeperEvent (toUserProjection row.toUserEventRow)
        ⟨calendar.name, calendar.provider, calendar.url, userId⟩

def getSyncedOwner (store : EventStore) (userId resourceId : String) : Option SyncedEventOwner :=
  ((joinCalendars store (·.calendarId) store.eventStates).find? fun (row, calendar) =>
    row.id = resourceId && calendar.userId = userId).map fun (row, calendar) =>
      { row with
        calendarName := calendar.name
        calendarProvider := calendar.provider
        calendarUrl := calendar.url }

def getSeriesRows (store : EventStore) (owner : SyncedEventRow) : List SyncedEventRow :=
  match truthy owner.sourceEventUid with
  | none => [owner]
  | some sourceEventUid => store.eventStates.filter fun row =>
      row.calendarId = owner.calendarId && row.sourceEventUid = some sourceEventUid

/-- The repository of `getEvent`. -/
def EventStore.repository (store : EventStore) : EventReadRepository where
  getSeriesRows owner := getSeriesRows store owner.toSyncedEventRow
  getSyncedOwner := getSyncedOwner store
  getUserEvent := getUserEvent store

/-! ## Reading -/

def toPersistedSyncedProjection (row : SyncedEventRow) : KeeperEventProjection :=
  let timeRange := resolveRepresentableTimeRange row.shape
  { calendarId := row.calendarId
    description := row.description
    eventStateId := some row.id
    id := row.id
    isAllDay := row.shape.resolvesAllDay
    location := row.location
    title := row.title
    startTime := timeRange.startTime
    endTime := timeRange.endTime }

/-- The source of an owner, as `resolveEventReadModel` builds it. -/
def SyncedEventOwner.source (owner : SyncedEventOwner) (userId : String) : SourceInfo where
  name := owner.calendarName
  provider := owner.calendarProvider
  url := owner.calendarUrl
  userId := userId

def resolveEventReadModel (rt : Runtime) (ark : Arktype) (repository : EventReadRepository)
    (userId eventId : String) : Except ReadError (Option KeeperEvent) :=
  match parseEventReference eventId with
  | none => .ok none
  | some ⟨none, resourceId⟩ =>
    match repository.getUserEvent userId resourceId with
    | some userEvent => .ok (some userEvent)
    | none => .ok ((repository.getSyncedOwner userId resourceId).map fun owner =>
        toKeeperEvent (toPersistedSyncedProjection owner.toSyncedEventRow) (owner.source userId))
  | some ⟨some occurrenceStart, resourceId⟩ =>
    match repository.getSyncedOwner userId resourceId with
    | none => .ok none
    | some owner =>
      if (truthy owner.recurrenceRule).isNone then .ok none
      else do
        let projectedEvents ← projectSyncedEvents rt ark (repository.getSeriesRows owner)
          (JsMap.ofList [(owner.calendarId, owner.source userId)]) occurrenceStart occurrenceStart
          {} none
        pure ((projectedEvents.find? (·.id = eventId)).map fun occurrence =>
          toKeeperEvent occurrence (owner.source userId))

/-! ## What is stored under an id -/

/-- The tables have their keys, and the keys of events are UUIDs. -/
structure EventStore.IsKeyed (store : EventStore) : Prop where
  calendars : (store.calendars.map (·.id)).Nodup
  events : (store.eventStates.map (·.id) ++ store.userEvents.map (·.id)).Nodup
  eventStateIds : ∀ row ∈ store.eventStates, isUuid row.id = true
  userEventIds : ∀ row ∈ store.userEvents, isUuid row.id = true

theorem find?_eq_some_of_unique {α : Type*} {p : α → Bool} {l : List α} {a : α} (ha : a ∈ l)
    (hp : p a = true) (hunique : ∀ b ∈ l, p b = true → b = a) : l.find? p = some a := by
  cases hfind : l.find? p with
  | none => exact absurd hp (List.find?_eq_none.1 hfind a ha)
  | some b => rw [hunique b (List.mem_of_find?_eq_some hfind) (List.find?_some hfind)]

section Store

variable {store : EventStore} {userId : String}

variable {calendar : CalendarRow} {row : SyncedEventRow}

theorem mem_joinCalendars {α : Type} {calendarId : α → String} {rows : List α} {row : α} :
    (row, calendar) ∈ joinCalendars store calendarId rows ↔
      row ∈ rows ∧ calendar ∈ store.calendars ∧ calendar.id = calendarId row := by
  simp [joinCalendars, and_assoc]

theorem EventStore.IsKeyed.exists_calendar (h : store.IsKeyed) {id : String}
    (hid : id ∈ (getSourcesForUser store userId {}).1) :
    ∃ calendar ∈ store.calendars, calendar.id = id ∧ calendar.userId = userId ∧
      (getSourcesForUser store userId {}).2.get? id =
        some ⟨calendar.name, calendar.provider, calendar.url, userId⟩ := by
  obtain ⟨calendar, hcalendar, rfl⟩ := List.mem_map.1 hid
  obtain ⟨hmem, hyes⟩ := List.mem_filter.1 hcalendar
  simp only [Bool.and_eq_true, decide_eq_true_eq] at hyes
  refine ⟨calendar, hmem, rfl, hyes.1.1, ?_⟩
  refine (JsMap.get?_ofList_eq_some_iff ?_).2 (List.mem_map.2 ⟨calendar, hcalendar, ?_⟩)
  · rw [List.map_map]
    exact h.calendars.sublist (List.filter_sublist.map _)
  · rw [hyes.1.1]

theorem EventStore.IsKeyed.row_eq (h : store.IsKeyed) {row' : SyncedEventRow} (hrow : row ∈ store.eventStates)
    (hrow' : row' ∈ store.eventStates) (hid : row.id = row'.id) :
    row = row' := List.inj_on_of_nodup_map (List.nodup_append.1 h.events).1 hrow hrow' hid

theorem EventStore.IsKeyed.calendar_eq (h : store.IsKeyed) {calendar' : CalendarRow}
    (hmem : calendar ∈ store.calendars) (hmem' : calendar' ∈ store.calendars) (hid : calendar.id = calendar'.id) :
    calendar = calendar' :=
  List.inj_on_of_nodup_map h.calendars hmem hmem' hid

/-- **The owner of an id** is the row of that id, with its calendar. -/
theorem EventStore.IsKeyed.getSyncedOwner_eq (h : store.IsKeyed) (hrow : row ∈ store.eventStates)
    (hmem : calendar ∈ store.calendars) (hid : calendar.id = row.calendarId) (huser : calendar.userId = userId) :
    getSyncedOwner store userId row.id = some { row with
      calendarName := calendar.name
      calendarProvider := calendar.provider
      calendarUrl := calendar.url } := by
  rw [getSyncedOwner, find?_eq_some_of_unique (a := (row, calendar))
    (mem_joinCalendars.2 ⟨hrow, hmem, hid⟩) (by simp [huser])]
  · rfl
  · rintro ⟨row', calendar'⟩ hjoin hyes
    obtain ⟨hrow', hmem', hid'⟩ := mem_joinCalendars.1 hjoin
    simp only [Bool.and_eq_true, decide_eq_true_eq] at hyes
    obtain rfl := h.row_eq hrow' hrow hyes.1
    rw [h.calendar_eq hmem' hmem (hid'.trans hid.symm)]

/-- **The user event of an id** is published from the row of that id. -/
theorem EventStore.IsKeyed.getUserEvent_eq (h : store.IsKeyed) {row : UserEventRecord} (hrow : row ∈ store.userEvents)
    (hmem : calendar ∈ store.calendars) (hid : calendar.id = row.calendarId) (huser : row.userId = userId) :
    getUserEvent store userId row.id = some (toKeeperEvent (toUserProjection row.toUserEventRow)
      ⟨calendar.name, calendar.provider, calendar.url, userId⟩) := by
  rw [getUserEvent, find?_eq_some_of_unique (a := (row, calendar))
    (mem_joinCalendars.2 ⟨hrow, hmem, hid⟩) (by simp [huser])]
  · rfl
  · rintro ⟨row', calendar'⟩ hjoin hyes
    obtain ⟨hrow', hmem', hid'⟩ := mem_joinCalendars.1 hjoin
    simp only [Bool.and_eq_true, decide_eq_true_eq] at hyes
    have hsame : row' = row :=
      List.inj_on_of_nodup_map (List.nodup_append.1 h.events).2.1 hrow' hrow hyes.1
    subst hsame
    rw [h.calendar_eq hmem' hmem (hid'.trans hid.symm)]

/-- No user event has the id of a row of `event_states`. -/
theorem EventStore.IsKeyed.getUserEvent_eq_none (h : store.IsKeyed) (hrow : row ∈ store.eventStates) :
    getUserEvent store userId row.id = none := by
  rw [getUserEvent, Option.map_eq_none_iff, List.find?_eq_none]
  rintro ⟨row', calendar⟩ hjoin hyes
  simp only [Bool.and_eq_true, decide_eq_true_eq] at hyes
  exact (List.nodup_append.1 h.events).2.2 _ (List.mem_map_of_mem hrow) _
    (List.mem_map_of_mem (mem_joinCalendars.1 hjoin).1) hyes.1.symm

/-- **A user event** is found under its id. -/
theorem resolveEventReadModel_own (rt : Runtime) (ark : Arktype) (h : store.IsKeyed) {row : UserEventRecord}
    (hrow : row ∈ store.userEvents) (hmem : calendar ∈ store.calendars) (hid : calendar.id = row.calendarId)
    (huser : row.userId = userId) : resolveEventReadModel rt ark store.repository userId row.id =
      .ok (some (toKeeperEvent (toUserProjection row.toUserEventRow)
        ⟨calendar.name, calendar.provider, calendar.url, userId⟩)) := by
  have hown : store.repository.getUserEvent userId row.id = _ :=
    h.getUserEvent_eq hrow hmem hid huser
  rw [resolveEventReadModel, parseEventReference_uuid (h.userEventIds row hrow)]
  dsimp only
  rw [hown]

/-- **A row of `event_states`** is found under its id. -/
theorem resolveEventReadModel_persisted (rt : Runtime) (ark : Arktype) (h : store.IsKeyed)
    (hrow : row ∈ store.eventStates) (hmem : calendar ∈ store.calendars) (hid : calendar.id = row.calendarId)
    (huser : calendar.userId = userId) : resolveEventReadModel rt ark store.repository userId row.id =
      .ok (some (toKeeperEvent (toPersistedSyncedProjection row)
        ⟨calendar.name, calendar.provider, calendar.url, userId⟩)) := by
  have hnone : store.repository.getUserEvent userId row.id = none := h.getUserEvent_eq_none hrow
  have howner : store.repository.getSyncedOwner userId row.id = _ :=
    h.getSyncedOwner_eq hrow hmem hid huser
  rw [resolveEventReadModel, parseEventReference_uuid (h.eventStateIds row hrow)]
  dsimp only
  rw [hnone, howner]
  rfl

end Store

/-! ## Occurrences over one instant -/

/-- The offsets of a zone at two times within four days differ by a day at most. -/
def SteadyZone (zones : Zones) (timeZone : String) : Prop :=
  ∀ t u, t ≤ u + 4 * msPerDay → u ≤ t + 4 * msPerDay →
    offsetMillisecondsAt zones timeZone t ≤ offsetMillisecondsAt zones timeZone u + msPerDay

section Instant

variable {rt : Runtime} {occurs : RRuleOptions → ℤ → Prop} {master : SyncableEvent} {slot : ℤ}

theorem instantToWallTime_eq (zones : Zones) (name : String) (t : ℤ) :
    zones.instantToWallTime t name = t + offsetMillisecondsAt zones name t := by
  rw [offsetMillisecondsAt]
  ring

/-- A wall time is off from its instant by the offset of the zone within two days of it. -/
theorem exists_offset_of_wallTimeToInstant {zones : Zones} {name : String}
    (h : RegularZone zones name) {w : ℤ} (hslot : wallTimeToInstant zones w name = .ok slot) :
    ∃ t, w = slot + offsetMillisecondsAt zones name t ∧ slot - 2 * msPerDay ≤ t ∧
      t ≤ slot + 2 * msPerDay := by
  unfold wallTimeToInstant at hslot
  split at hslot
  · rename_i instant hinstant
    obtain rfl := Except.ok.inj hslot
    have hbefore := h.bounded (w - msPerDay)
    have hafter := h.bounded (w + msPerDay)
    rcases wallTimeToInstantWith_eq hinstant with heq | heq <;> rw [probeWindowMs] at heq
    · exact ⟨w - msPerDay, by omega, by omega, by omega⟩
    · exact ⟨w + msPerDay, by omega, by omega, by omega⟩
  · cases hslot

/-- **A slot is searched over the instant of its start**, where the clock is steady. -/
theorem isReached_widenedWindow (henum : rt.Enumerates occurs)
    (hregular : ∀ name, (seriesZones rt master).expansionTimeZone = some name →
      RegularZone rt.zones name)
    (hsteady : ∀ name, (seriesZones rt master).expansionTimeZone = some name →
      SteadyZone rt.zones name) {rule : IcsRecurrenceRule} (hrule : master.recurrenceRule = some rule)
    {w : ℤ} (hlands : Lands rt occurs master rule (seriesZones rt master) w slot) :
    IsReached rt occurs (widenedWindow slot slot) master slot := by
  refine ⟨rule, hrule, w, hlands, ?_⟩
  obtain ⟨hoccurs, hslot⟩ := hlands
  have hstart := henum.dtstart _ _ hoccurs
  have hday : (0 : ℤ) < msPerDay := by decide
  have hback : 0 ≤ max master.lookback 0 := le_max_right _ _
  unfold IsSearched
  simp only [widenedWindow, toRRuleOptions, representableRangeSlackMs] at hstart ⊢
  generalize max master.lookback 0 = back at hback
  cases hzone : (seriesZones rt master).expansionTimeZone with
  | none =>
    rw [hzone] at hstart hslot
    obtain rfl : w = slot := Except.ok.inj hslot
    simp only [toRecurrenceWallTime] at hstart ⊢
    omega
  | some name =>
    rw [hzone] at hstart hslot
    obtain ⟨t, rfl, hlo, hhi⟩ := exists_offset_of_wallTimeToInstant (hregular name hzone) hslot
    have hsteady := hsteady name hzone
    have hbounded := (hregular name hzone).bounded
    simp only [toRecurrenceWallTime, instantToWallTime_eq] at hstart ⊢
    refine ⟨?_, ?_, ?_⟩
    · -- a master that starts later starts within two days, where the clock is steady
      by_contra hlate
      have hfirst := hbounded master.startTime
      have hother := hbounded t
      have hclose := hsteady t master.startTime (by omega) (by omega)
      omega
    · by_contra hlate
      have hfirst := hbounded (slot - msPerDay - back)
      have hother := hbounded t
      have hclose := hsteady (slot - msPerDay - back) t (by omega) (by omega)
      omega
    · have hclose := hsteady t (slot + 1 + msPerDay) (by omega) (by omega)
      omega

theorem isInView_instant (zones : Zones) (shape : AllDayEventShape) :
    isInView zones none shape.startTime (shape.startTime + 1) shape = true := by
  refine isInView_iff.2 ⟨_, rfl, ?_⟩
  have hshaped := resolveRepresentableTimeRange_isShaped shape
  have hlast := lt_end_resolveRepresentableTimeRange shape
  have hfirst := hshaped.start_le
  have hnonempty := hshaped.nonempty
  rw [overlapsTimeWindow_iff]
  omega

theorem overlaps_widenedWindow_instant (zones : Zones) (shape : AllDayEventShape) :
    (widenedWindow shape.startTime shape.startTime).overlaps shape.toEventTimeRange = true := by
  have hviewer : IsRegularViewer zones none := fun name hname => by cases hname
  have hgrid : IsGridded none shape := Or.inl rfl
  exact hgrid.overlaps hviewer (isInView_instant zones shape)

end Instant

/-! ## Ids of what is listed -/

section Ids

variable {rt : Runtime} {ark : Arktype} {row : SyncedEventRow} {source : SourceInfo}
  {event master : SyncableEvent} {slot : ℤ} {e : MaterializedSyncableEvent}

/-- An override or one-off is listed under the id of its row, with an empty title as none. -/
theorem toSyncedProjection_asOneOffEvent (h : toSyncableEvent ark row source = .ok event) :
    toSyncedProjection (asOneOffEvent event) =
      { toPersistedSyncedProjection row with title := truthy (some (row.title.getD "")) } := by
  obtain ⟨recurrence, -, h⟩ := bind_eq_ok_iff.1 h
  obtain rfl := Except.ok.inj h
  simp only [toSyncedProjection, asOneOffEvent, Option.getD_some, if_true]
  rfl

theorem synthetic_ne_uuid {start stop : ℤ} {id : String} (h : isUuid id = true) :
    createSyntheticOccurrenceId rt master start stop ≠ id := by
  rintro rfl
  have hmem : 'r' ∈ (createSyntheticOccurrenceId rt master start stop).toList := by
    simp [createSyntheticOccurrenceId]
  rcases isHexDigit_of_mem_uuid h hmem with hno | hno <;> exact absurd hno (by decide)

/-- **An occurrence is listed** under the id of its master's row and its start. -/
theorem id_toSyncedProjection (hevent : IsEventOf row master) (hid : isUuid row.id = true)
    {timeZones : SeriesTimeZones} (he : occurrenceAt rt master timeZones slot = some e) :
    (toSyncedProjection e).id = createOccurrenceEventId row.id slot := by
  have hstart := (occurrenceAt_eq_some he).1
  have hocc : IsOccurrence rt master e := by
    rw [occurrenceAt] at he
    cases hcreate : createMaterializedOccurrence rt master slot timeZones.seriesTimeZone with
    | error error =>
      rw [hcreate] at he
      cases he
    | ok occurrence =>
      rw [hcreate] at he
      obtain rfl := Option.some.inj he
      exact createMaterializedOccurrence_ok hcreate
  obtain ⟨start, stop, hsynthetic⟩ := hocc.id
  have hstate : e.eventStateId.getD e.id = row.id := by
    rw [hocc.eventStateId, SyncableEvent.ownStateId, hevent.eventStateId]
    rfl
  have hne : e.id ≠ row.id := by
    rw [hsynthetic]
    exact synthetic_ne_uuid hid
  simp only [toSyncedProjection, hstate, hstart, if_neg hne]

end Ids

/-! ## The rows of a series -/

def SyncedEventRow.isMaster (row : SyncedEventRow) : Bool :=
  row.recurrenceRule.isSome && row.recurrenceId.isNone

/-- Rows of one series hide a slot: there is one master among them, and an override of the slot. -/
def isSuppressed (rows : List SyncedEventRow) (slot : ℤ) : Bool :=
  (rows.filter (·.isMaster)).length = 1 && rows.any (·.recurrenceId = some slot)

theorem IsEventOf.isMaster {row : SyncedEventRow} {event : SyncableEvent} (h : IsEventOf row event) :
    event.isMaster = row.isMaster := by
  rw [SyncableEvent.isMaster, SyncedEventRow.isMaster, h.isSome_rule, h.recurrenceId]

section Series

variable {rt : Runtime} {ark : Arktype} {store : EventStore} {owner row : SyncedEventRow}

/-- The rows of a series are stored beside their owner, with its uid unless it is alone. -/
theorem mem_getSeriesRows (h : row ∈ getSeriesRows store owner) :
    row = owner ∨ row ∈ store.eventStates ∧ row.calendarId = owner.calendarId ∧
      row.sourceEventUid = owner.sourceEventUid ∧ (truthy owner.sourceEventUid).isSome := by
  unfold getSeriesRows at h
  split at h
  · exact Or.inl (List.mem_singleton.1 h)
  · rename_i uid huid
    obtain ⟨hmem, hyes⟩ := List.mem_filter.1 h
    simp only [Bool.and_eq_true, decide_eq_true_eq] at hyes
    exact Or.inr ⟨hmem, hyes.1, hyes.2.trans (truthy_eq_some_iff.1 huid).1.symm, by rw [huid]; rfl⟩

theorem owner_mem_getSeriesRows (h : owner ∈ store.eventStates) :
    owner ∈ getSeriesRows store owner := by
  unfold getSeriesRows
  split
  · exact List.mem_singleton_self _
  · rename_i uid huid
    refine List.mem_filter.2 ⟨h, ?_⟩
    simp [(truthy_eq_some_iff.1 huid).1]

theorem mem_eventStates_of_mem_getSeriesRows (howner : owner ∈ store.eventStates)
    (h : row ∈ getSeriesRows store owner) : row ∈ store.eventStates := by
  rcases mem_getSeriesRows h with rfl | ⟨hmem, -⟩
  · exact howner
  · exact hmem

theorem get?_ofList_singleton {key : String} {source : SourceInfo} :
    (JsMap.ofList [(key, source)]).get? key = some source :=
  (JsMap.get?_ofList_eq_some_iff (by simp)).2 (List.mem_singleton_self _)

structure IsSeries (ark : Arktype) (store : EventStore) (owner : SyncedEventRow)
    (source : SourceInfo) (events series : List SyncableEvent) : Prop where
  parsed : toSyncableEvents ark (getSeriesRows store owner)
    (JsMap.ofList [(owner.calendarId, source)]) = .ok series
  subset : ∀ event ∈ series, event ∈ events
  calendar : ∀ row ∈ getSeriesRows store owner, row.calendarId = owner.calendarId

/-- **The rows of a series are events of the listing's store.** -/
theorem exists_series {calendarIds : List String} {sourceMap : JsMap String SourceInfo}
    {events : List SyncableEvent}
    (hparsed : toSyncableEvents ark (storedRows store calendarIds) sourceMap = .ok events)
    (howner : owner ∈ storedRows store calendarIds) {source : SourceInfo}
    (hsource : sourceMap.get? owner.calendarId = some source) :
    ∃ series, IsSeries ark store owner source events series := by
  have hcalendar : ∀ row ∈ getSeriesRows store owner, row.calendarId = owner.calendarId := by
    intro row hrow
    rcases mem_getSeriesRows hrow with rfl | ⟨-, hsame, -⟩
    · rfl
    · exact hsame
  have hstored : ∀ row ∈ getSeriesRows store owner, row ∈ storedRows store calendarIds := by
    intro row hrow
    rcases mem_getSeriesRows hrow with rfl | ⟨hmem, hsame, -⟩
    · exact howner
    · refine List.mem_filter.2 ⟨hmem, ?_⟩
      rw [hsame]
      exact (List.mem_filter.1 howner).2
  have hall : ∀ row ∈ getSeriesRows store owner, ∃ event ∈ events,
      toSyncableEvent ark row source = .ok event := by
    intro row hrow
    refine mem_events_of_row hparsed (hstored row hrow) ?_
    rw [hcalendar row hrow, hsource]
  have hrows : toSyncableEvents ark (getSeriesRows store owner)
      (JsMap.ofList [(owner.calendarId, source)]) = .ok _ :=
    toSyncableEvents_eq_ok_iff.2 ⟨?_, rfl⟩
  · refine ⟨_, hrows, fun event hevent => ?_, hcalendar⟩
    obtain ⟨row, hrow, source', hsource', hok⟩ := exists_row_of_mem_events hrows hevent
    rw [hcalendar row hrow, get?_ofList_singleton] at hsource'
    obtain rfl := Option.some.inj hsource'
    obtain ⟨event', hevent', hok'⟩ := hall row hrow
    rw [hok] at hok'
    rwa [Except.ok.inj hok']
  · intro row hrow source' hsource'
    rw [hcalendar row hrow, get?_ofList_singleton] at hsource'
    obtain rfl := Option.some.inj hsource'
    obtain ⟨event, -, hok⟩ := hall row hrow
    exact ⟨event, hok⟩

section Events

variable {source : SourceInfo} {events series : List SyncableEvent}

theorem IsSeries.exists_row (h : IsSeries ark store owner source events series)
    {event : SyncableEvent} (hevent : event ∈ series) :
    ∃ row ∈ getSeriesRows store owner, toSyncableEvent ark row source = .ok event := by
  obtain ⟨row, hrow, source', hsource', hok⟩ := exists_row_of_mem_events h.parsed hevent
  rw [h.calendar row hrow, get?_ofList_singleton] at hsource'
  obtain rfl := Option.some.inj hsource'
  exact ⟨row, hrow, hok⟩

theorem IsSeries.exists_event (h : IsSeries ark store owner source events series)
    (hrow : row ∈ getSeriesRows store owner) :
    ∃ event ∈ series, toSyncableEvent ark row source = .ok event := by
  refine mem_events_of_row h.parsed hrow ?_
  rw [h.calendar row hrow, get?_ofList_singleton]

theorem IsSeries.seriesKey (h : IsSeries ark store owner source events series)
    {master event : SyncableEvent} (hmaster : toSyncableEvent ark owner source = .ok master)
    (hevent : event ∈ series) : event.override.seriesKey = master.override.seriesKey := by
  obtain ⟨row, hrow, hok⟩ := h.exists_row hevent
  have huid : row.sourceEventUid.getD row.id = owner.sourceEventUid.getD owner.id := by
    rcases mem_getSeriesRows hrow with rfl | ⟨-, -, huid, htruthy⟩
    · rfl
    · obtain ⟨uid, hsome⟩ := Option.isSome_iff_exists.1 htruthy
      rw [huid, (truthy_eq_some_iff.1 hsome).1]
      rfl
  show (event.calendarId, event.sourceEventUid) = (master.calendarId, master.sourceEventUid)
  rw [(toSyncableEvent_ok hok).calendarId, (toSyncableEvent_ok hmaster).calendarId,
    sourceEventUid_toSyncableEvent hok, sourceEventUid_toSyncableEvent hmaster, huid,
    h.calendar row hrow]

theorem IsSeries.length_masters (h : IsSeries ark store owner source events series) :
    (series.filter (·.isMaster)).length =
      ((getSeriesRows store owner).filter (·.isMaster)).length := by
  obtain ⟨masters, hmasters, hperm⟩ := toSyncableEvents_selected h.parsed
    (p := (·.isMaster)) (q := (·.isMaster)) (fun row event hevent => hevent.isMaster.symm)
    (List.Perm.refl _)
  rw [← hperm.length_eq]
  refine length_toSyncableEvents hmasters fun row hrow => ?_
  rw [h.calendar row (List.mem_filter.1 hrow).1, get?_ofList_singleton]
  rfl

/-- **A slot is hidden among the rows of its series** where they suppress it. -/
theorem IsSeries.isHidden_iff (h : IsSeries ark store owner source events series)
    (howner : owner ∈ store.eventStates) {master : SyncableEvent}
    (hmaster : toSyncableEvent ark owner source = .ok master) (hyes : master.isMaster = true)
    {slot : ℤ} :
    IsHidden series master slot ↔ isSuppressed (getSeriesRows store owner) slot = true := by
  have hin : master ∈ series := by
    obtain ⟨event, hevent, hok⟩ := h.exists_event (owner_mem_getSeriesRows howner)
    rw [hmaster] at hok
    rwa [Except.ok.inj hok]
  have hmasters : mastersOf master.override.seriesKey series = series.filter (·.isMaster) := by
    refine List.filter_congr fun event hevent => ?_
    rw [h.seriesKey hmaster hevent, decide_eq_true rfl, Bool.and_true]
  have halone : series.filter (·.isMaster) = [master] ↔
      ((getSeriesRows store owner).filter (·.isMaster)).length = 1 := by
    rw [← h.length_masters]
    refine ⟨fun heq => by rw [heq]; rfl, fun hone => ?_⟩
    obtain ⟨other, hother⟩ := List.length_eq_one_iff.1 hone
    have hmem := List.mem_filter.2 ⟨hin, hyes⟩
    rw [hother, List.mem_singleton] at hmem
    rw [hother, hmem]
  rw [IsHidden, hmasters, halone, isSuppressed, Bool.and_eq_true, decide_eq_true_eq,
    List.any_eq_true]
  refine and_congr_right fun _ => ?_
  rw [IsOverridden, List.append_nil]
  constructor
  · rintro ⟨override, hmem, -, hid⟩
    obtain ⟨event, hevent, rfl⟩ := List.mem_map.1 hmem
    obtain ⟨row, hrow, hok⟩ := h.exists_row hevent
    refine ⟨row, hrow, decide_eq_true ?_⟩
    rw [← (toSyncableEvent_ok hok).recurrenceId]
    exact hid
  · rintro ⟨row, hrow, hid⟩
    obtain ⟨event, hevent, hok⟩ := h.exists_event hrow
    refine ⟨event.override, List.mem_map_of_mem hevent, h.seriesKey hmaster hevent, ?_⟩
    exact (toSyncableEvent_ok hok).recurrenceId.trans (of_decide_eq_true hid)

end Events

end Series

/-! ## Occurrences -/

/-- Occurrences can be looked up: no series is over budget over one instant, and the zones of the
series are steady. -/
structure CanLookUp (rt : Runtime) (events : List SyncableEvent) : Prop where
  withinBudget : ∀ event ∈ events, ∀ t, isSkipped rt (widenedWindow t t) event = false
  zones : ∀ event ∈ events, event.isMaster = true → ∀ name,
    resolveTimeZone rt.zones event.startTimeZone = .ok (some name) → SteadyZone rt.zones name

section Lookup

variable {rt : Runtime} {ark : Arktype} {occurs : RRuleOptions → ℤ → Prop} {store : EventStore}
  {sources : List String × JsMap String SourceInfo} {window : Span ℤ} {timeZone : Option String}
  {events : List SyncableEvent} {owner : SyncedEventRow} {source : SourceInfo}
  {master : SyncableEvent} {slot : ℤ} {e : MaterializedSyncableEvent}

theorem resolveTimeZone_of_seriesZones {name : String}
    (h : (seriesZones rt master).expansionTimeZone = some name) {zone : Option String}
    (hzone : resolveTimeZone rt.zones master.startTimeZone = .ok zone) : zone = some name := by
  unfold seriesZones at h
  cases hrule : master.recurrenceRule with
  | none =>
    rw [hrule] at h
    cases h
  | some rule =>
    obtain ⟨timeZones, hzones, hexpansion, -⟩ := resolveSeriesTimeZones_ok rule hzone
    rw [hrule, Option.bind_some, hzones] at h
    exact hexpansion name h

/-- Of what the rows of a series give, only the occurrence itself has its id. -/
theorem IsSeries.eq_of_id {series : List SyncableEvent}
    (h : IsSeries ark store owner source events series) (hkeyed : store.IsKeyed)
    (howner : owner ∈ store.eventStates) (hmaster : toSyncableEvent ark owner source = .ok master)
    (he : occurrenceAt rt master (seriesZones rt master) slot = some e)
    {slotsOf : SyncableEvent → List ℤ} {within : SyncWindow} {x : MaterializedSyncableEvent}
    (hx : x ∈ occurrencesAt rt series slotsOf ++ oneOffsOf series within)
    (hid : (toSyncedProjection x).id = createOccurrenceEventId owner.id slot) :
    slot ∈ slotsOf master ∧ x = e := by
  rcases List.mem_append.1 hx with hoccurrence | honeOff
  · obtain ⟨other, hother, hx⟩ := List.mem_flatMap.1 hoccurrence
    obtain ⟨otherSlot, hotherSlot, hat⟩ := List.mem_filterMap.1 hx
    obtain ⟨row, hrow, hok⟩ := h.exists_row (List.mem_filter.1 hother).1
    have hmem := mem_eventStates_of_mem_getSeriesRows howner hrow
    rw [id_toSyncedProjection (toSyncableEvent_ok hok) (hkeyed.eventStateIds row hmem) hat] at hid
    obtain ⟨hsame, rfl⟩ := createOccurrenceEventId_inj (hkeyed.eventStateIds row hmem)
      (hkeyed.eventStateIds owner howner) hid
    obtain rfl := hkeyed.row_eq hmem howner hsame
    obtain rfl : other = master := Except.ok.inj (hok.symm.trans hmaster)
    exact ⟨hotherSlot, Option.some.inj (hat.symm.trans he)⟩
  · obtain ⟨event, hevent, rfl⟩ := List.mem_map.1 honeOff
    obtain ⟨row, hrow, hok⟩ := h.exists_row (List.mem_filter.1 hevent).1
    have huuid := hkeyed.eventStateIds row (mem_eventStates_of_mem_getSeriesRows howner hrow)
    rw [toSyncedProjection_asOneOffEvent hok] at hid
    have hid : row.id = createOccurrenceEventId owner.id slot := hid
    rw [hid, isUuid_createOccurrenceEventId] at huuid
    cases huuid

/-- **What is materialized over the start of an occurrence** has one event with its id, unless the
rows of its series hide it. -/
theorem find?_projectSyncedEvents
    (h : CanRead rt ark occurs store sources window timeZone events) (hlookup : CanLookUp rt events)
    (hkeyed : store.IsKeyed) (hstored : owner ∈ storedRows store sources.1)
    (hsource : sources.2.get? owner.calendarId = some source)
    (hmaster : toSyncableEvent ark owner source = .ok master) (hyes : master.isMaster = true)
    (hlands : ∃ rule, master.recurrenceRule = some rule ∧
      ∃ w, Lands rt occurs master rule (seriesZones rt master) w slot)
    (hexcluded : slot ∉ master.exceptionDates.getD [])
    (he : occurrenceAt rt master (seriesZones rt master) slot = some e) :
    ∃ projected, projectSyncedEvents rt ark (getSeriesRows store owner)
        (JsMap.ofList [(owner.calendarId, source)]) slot slot {} none = .ok projected ∧
      projected.find? (·.id = createOccurrenceEventId owner.id slot) =
        if isSuppressed (getSeriesRows store owner) slot then none
        else some (toSyncedProjection e) := by
  have howner : owner ∈ store.eventStates := (List.mem_filter.1 hstored).1
  obtain ⟨series, hseries⟩ := exists_series h.parsed hstored hsource
  have hin : master ∈ series := by
    obtain ⟨event, hevent, hok⟩ := hseries.exists_event (owner_mem_getSeriesRows howner)
    rw [hmaster] at hok
    rwa [Except.ok.inj hok]
  have hexpandable : IsExpandable rt occurs series (widenedWindow slot slot) :=
    { enumerates := h.enumerates
      withinBudget := fun event hevent => hlookup.withinBudget event (hseries.subset event hevent) _
      zones := fun event hevent => h.zones event (hseries.subset event hevent)
      window := by
        have hslack : (0 : ℤ) < representableRangeSlackMs := by decide
        show slot - representableRangeSlackMs < slot + 1 + representableRangeSlackMs
        omega }
  obtain ⟨slotsOf, hrun, hslots⟩ := hexpandable.materializeRecurrenceEvents_ok false []
  have hviewer : IsRegularViewer rt.zones none := fun name hname => by cases hname
  have hproject := materializeSyncedEvents_eq hviewer hseries.parsed hrun
  refine ⟨_, bind_eq_ok_iff.2 ⟨_, hproject, rfl⟩, ?_⟩
  rw [List.filter_eq_self.2 fun e _ => isIncludedByFilters_none e]
  obtain ⟨hstart, -⟩ := occurrenceAt_eq_some he
  have hslot : slot ∈ slotsOf master ↔ ¬ isSuppressed (getSeriesRows store owner) slot = true := by
    rw [(hslots master (List.mem_filter.2 ⟨hin, hyes⟩)).2, isLiveBeside_iff,
      ← hseries.isHidden_iff howner hmaster hyes]
    refine ⟨fun hlive hhidden => ?_, fun hfree => ⟨?_, e, ⟨⟨hlands, hexcluded, hfree⟩, he⟩, ?_⟩⟩
    · obtain ⟨-, e', hoccurrence, -⟩ := hlive
      exact hoccurrence.1.2.2 hhidden
    · obtain ⟨rule, hrule, w, hlands⟩ := hlands
      obtain ⟨zone, hzone, hregular⟩ := h.zones master (hseries.subset master hin) hyes
      refine isReached_widenedWindow h.enumerates (fun name hname => ?_) (fun name hname => ?_)
        hrule hlands
      · exact hregular name (resolveTimeZone_of_seriesZones hname hzone)
      · refine hlookup.zones master (hseries.subset master hin) hyes name ?_
        rw [hzone, resolveTimeZone_of_seriesZones hname hzone]
    · rw [← hstart]
      exact overlaps_widenedWindow_instant rt.zones e.shape
  cases hsuppressed : isSuppressed (getSeriesRows store owner) slot with
  | true =>
    rw [if_pos rfl, List.find?_eq_none]
    intro p hp hid
    obtain ⟨x, hx, rfl⟩ := List.mem_map.1 hp
    have hx := mem_toSorted.1 (List.mem_filter.1 hx).1
    exact hslot.1 (hseries.eq_of_id hkeyed howner hmaster he hx (of_decide_eq_true hid)).1 hsuppressed
  | false =>
    rw [if_neg (by decide)]
    refine find?_eq_some_of_unique (List.mem_map_of_mem (List.mem_filter.2 ⟨?_, ?_⟩)) ?_ ?_
    · refine mem_toSorted.2 (List.mem_append_left _ (List.mem_flatMap.2 ⟨master, ?_, ?_⟩))
      · exact List.mem_filter.2 ⟨hin, hyes⟩
      · exact List.mem_filterMap.2 ⟨slot, hslot.2 (by simp [hsuppressed]), he⟩
    · rw [← hstart]
      exact isInView_instant rt.zones e.shape
    · exact decide_eq_true (id_toSyncedProjection (toSyncableEvent_ok hmaster)
        (hkeyed.eventStateIds owner howner) he)
    · intro p hp hid
      obtain ⟨x, hx, rfl⟩ := List.mem_map.1 hp
      have hx := mem_toSorted.1 (List.mem_filter.1 hx).1
      rw [(hseries.eq_of_id hkeyed howner hmaster he hx (of_decide_eq_true hid)).2]

/-- **An occurrence is found** under its id, unless the rows of its series hide it. -/
theorem resolveEventReadModel_occurrence {userId : String}
    (h : CanRead rt ark occurs store sources window timeZone events) (hlookup : CanLookUp rt events)
    (hkeyed : store.IsKeyed) (hstored : owner ∈ storedRows store sources.1)
    {calendar : CalendarRow} (hmem : calendar ∈ store.calendars)
    (hid : calendar.id = owner.calendarId) (huser : calendar.userId = userId)
    (hsource : sources.2.get? owner.calendarId =
      some ⟨calendar.name, calendar.provider, calendar.url, userId⟩)
    (hmaster : toSyncableEvent ark owner
      ⟨calendar.name, calendar.provider, calendar.url, userId⟩ = .ok master)
    (hyes : master.isMaster = true) (hdate : (timeClip slot).isSome)
    (he : IsOccurrenceOf rt occurs events master slot e) :
    resolveEventReadModel rt ark store.repository userId (createOccurrenceEventId owner.id slot) =
      .ok (if isSuppressed (getSeriesRows store owner) slot then none
        else some (toKeeperEvent (toSyncedProjection e)
          ⟨calendar.name, calendar.provider, calendar.url, userId⟩)) := by
  have howner : owner ∈ store.eventStates := (List.mem_filter.1 hstored).1
  obtain ⟨projected, hproject, hfind⟩ := find?_projectSyncedEvents h hlookup hkeyed hstored hsource
    hmaster hyes he.1.1 he.1.2.1 he.2
  have hrule : (truthy owner.recurrenceRule).isNone = false := by
    rw [truthy_recurrenceRule hmaster, Option.isNone_eq_false_iff,
      ← (toSyncableEvent_ok hmaster).isSome_rule]
    rw [SyncableEvent.isMaster, Bool.and_eq_true] at hyes
    exact hyes.1
  have hrow : store.repository.getSyncedOwner userId owner.id = _ :=
    hkeyed.getSyncedOwner_eq howner hmem hid huser
  rw [resolveEventReadModel, parseEventReference_occurrence (hkeyed.eventStateIds owner howner) hdate]
  dsimp only
  rw [hrow]
  dsimp only
  rw [if_neg (by simp [hrule])]
  refine bind_eq_ok_iff.2 ⟨projected, hproject, ?_⟩
  rw [hfind]
  split_ifs <;> rfl

end Lookup

end Keeper
