import Keeper.Foundations.KeyedParts
import Keeper.Reads.EventsInRange
import Keeper.Source.DeltaIngest

/-!
# Listing what was ingested

The rows that the ingestions of a source leave are those that a read of a range selects.

* `showsListing_of_holdsListing`: rows that reflect a listing of single events show it.
* `showsListing_of_deltas`: they do after a snapshot and any run of deltas.
-/

namespace Keeper

open SqlTable

/-! ## The rows that are read -/

/-- The columns of a written row that reads select. -/
def EventStateInsertRow.synced (row : EventStateInsertRow) (id : String) : SyncedEventRow where
  availability := row.availability
  calendarId := row.calendarId
  description := row.description
  endTime := row.endTime
  exceptionDates := row.exceptionDates
  id := id
  isAllDay := row.isAllDay
  location := row.location
  recurrenceId := row.recurrenceId
  recurrenceRule := row.recurrenceRule
  sourceEventUid := row.sourceEventUid
  startTime := row.startTime
  startTimeZone := row.startTimeZone
  title := row.title

def syncedRows (table : EventStatesTable) : List SyncedEventRow :=
  table.map fun entry => entry.content.synced entry.id

/-- Every row has a uid and says whether it is all-day: none is from before these columns. -/
def IsCurrent (row : EventStateInsertRow) : Prop :=
  row.sourceEventUid.isSome = true ∧ row.isAllDay.isSome = true

/-! ## What a listing shows -/

/-- What is shown of an event: its published span, whether it is all-day, and its texts, trimmed. -/
def shownAs (shape : AllDayEventShape) (texts : List (Option String)) : String × String × Bool × List String :=
  let span := resolveRepresentableTimeRange shape
  (Date.toISOString span.startTime, Date.toISOString span.endTime, shape.resolvesAllDay,
    texts.map normalizeIdentityContent)

def KeeperEvent.shown (event : KeeperEvent) : String × String × Bool × List String :=
  (event.startTime, event.endTime, event.isAllDay,
    [event.title, event.description, event.location].map normalizeIdentityContent)

def SourceEvent.shape (event : SourceEvent) : AllDayEventShape :=
  ⟨⟨event.startTime, event.endTime⟩, event.isAllDay⟩

def ExistingSourceEventState.shape (event : ExistingSourceEventState) : AllDayEventShape :=
  ⟨⟨event.startTime, event.endTime⟩, event.isAllDay⟩

def SourceEvent.shown (event : SourceEvent) : String × String × Bool × List String :=
  shownAs event.shape [event.title, event.description, event.location]

/-- What a read lists of a synced calendar is what a listing of its source has in the range. -/
def ShowsListing (rt : Runtime) (calendarId : String) (timeZone : Option String) (range : Span ℤ)
    (events : List SourceEvent) (listed : List KeeperEvent) : Prop :=
  ((listed.filter fun event => event.calendarId = calendarId && event.eventStateId.isSome).map
    KeeperEvent.shown).Perm
    ((events.filter fun e => isListed rt timeZone range e.shape).map SourceEvent.shown)

section Rows

variable {host : Host} {ark : Arktype} {entry : Entry String EventStateInsertRow} {e : SourceEvent}
  {existing : ExistingSourceEventState}

theorem normalizeIdentityContent_truthy (title : Option String) :
    normalizeIdentityContent (truthy (some (title.getD ""))) = normalizeIdentityContent title := by
  cases title with
  | none => rfl
  | some title =>
    by_cases hempty : title = ""
    · subst hempty
      rfl
    · rw [Option.getD_some, truthy_eq_some_iff.2 ⟨rfl, hempty⟩]

/-- **A row that an ingestion parses** is read with the same fields. -/
theorem toSyncableEvent_synced (hparse : entryExisting ark entry = some existing) (source : SourceInfo) :
    ∃ event, toSyncableEvent ark (entry.content.synced entry.id) source = .ok event ∧
      event.recurrenceRule = existing.recurrenceRule ∧ event.shape = existing.shape ∧
      (toKeeperEvent (toSyncedProjection (asOneOffEvent event)) source).shown =
        shownAs existing.shape [existing.title, existing.description, existing.location] := by
  obtain ⟨recurrence, hrecurrence, h⟩ := bind_eq_ok_iff.1 (parsedRow_eq_some_iff.1 hparse)
  obtain ⟨dates, -, h⟩ := bind_eq_ok_iff.1 h
  obtain rfl := Except.ok.inj h
  refine ⟨_, bind_eq_ok_iff.2 ⟨recurrence, hrecurrence, rfl⟩, rfl, rfl, ?_⟩
  simp only [KeeperEvent.shown, toKeeperEvent, toSyncedProjection, asOneOffEvent, List.map_cons,
    normalizeIdentityContent_truthy]
  rfl

theorem isAllDay_entryExisting (hparse : entryExisting ark entry = some existing) :
    existing.isAllDay = entry.content.isAllDay := by
  obtain ⟨_, -, h⟩ := bind_eq_ok_iff.1 (parsedRow_eq_some_iff.1 hparse)
  obtain ⟨_, -, h⟩ := bind_eq_ok_iff.1 h
  obtain rfl := Except.ok.inj h
  rfl

/-- **A row that holds an event** shows it. -/
theorem HoldsEvent.shows (hhost : host.StableStringify) (h : HoldsEvent host ark entry e)
    (hcurrent : IsCurrent entry.content) (hallDay : e.isAllDay.isSome) (source : SourceInfo) :
    ∃ event, toSyncableEvent ark (entry.content.synced entry.id) source = .ok event ∧
      (event.recurrenceRule = none ↔ e.recurrenceRule = none) ∧ event.shape = e.shape ∧
      (toKeeperEvent (toSyncedProjection (asOneOffEvent event)) source).shown = e.shown := by
  obtain ⟨existing, hparse, hkey⟩ := entryIdentityKey_eq_some_iff.1 h
  have hsame := sameIdentity_of_identityKey hhost hkey
  obtain ⟨-, hparts⟩ := (existingIdentityKey_eq_iff hhost).1 hkey
  simp only [sourceEventIdentityParts, List.cons.injEq] at hparts
  obtain ⟨-, -, -, -, -, -, -, -, htitle, hdescription, hlocation, -⟩ := hparts
  have hisAllDay : existing.isAllDay = e.isAllDay := by
    have htext := hsame.isAllDay
    obtain ⟨b, hb⟩ := Option.isSome_iff_exists.1 hcurrent.2
    obtain ⟨c, hc⟩ := Option.isSome_iff_exists.1 hallDay
    have hc' : e.asStored.isAllDay = some c := hc
    rw [isAllDay_entryExisting hparse, hb, hc'] at htext
    have hsame : b = c := booleanText_injective htext
    rw [isAllDay_entryExisting hparse, hb, hc, hsame]
  have hshape : existing.shape = e.shape := by
    rw [ExistingSourceEventState.shape, hsame.startTime, hsame.endTime, hisAllDay]
    rfl
  obtain ⟨event, hevent, hrule, heventShape, hshown⟩ := toSyncableEvent_synced hparse source
  refine ⟨event, hevent, ?_, heventShape.trans hshape, hshown.trans ?_⟩
  · rw [hrule]
    exact @SameIdentity.rule_isNone _ _ e.asStored _ hhost hsame
  · have htexts : [existing.title, existing.description, existing.location].map
        normalizeIdentityContent = [e.title, e.description, e.location].map normalizeIdentityContent := by
      simp only [List.map_cons, List.map_nil, List.cons.injEq]
      exact ⟨htitle, hdescription, hlocation, trivial⟩
    rw [hshape, SourceEvent.shown, shownAs, shownAs, htexts]

end Rows

/-! ## Listing the rows of a source -/

section Listing

variable {host : Host} {reader : Runtime} {ark : Arktype} {occurs : RRuleOptions → ℤ → Prop}
  {store : EventStore} {userId calendarId : String} {input : KeeperEventRangeInput}
  {range : Span ℤ} {table : EventStatesTable} {events : List SourceEvent}
  {synced : List SyncableEvent} {sourceMap : JsMap String SourceInfo} {source : SourceInfo}

/-- What a listed projection shows, if it is of the calendar and synced. -/
def shownOf (sourceMap : JsMap String SourceInfo) (calendarId : String)
    (event : KeeperEventProjection) : Option (String × String × Bool × List String) :=
  ((publishEvent sourceMap event).toOption.filter fun event =>
    event.calendarId = calendarId && event.eventStateId.isSome).map KeeperEvent.shown

theorem shownOf_eq_none {event : KeeperEventProjection}
    (h : event.calendarId ≠ calendarId ∨ event.eventStateId = none) :
    shownOf sourceMap calendarId event = none := by
  unfold shownOf publishEvent
  cases sourceMap.get? event.calendarId with
  | none => rfl
  | some source => rcases h with h | h <;> simp [Except.toOption, Option.filter, toKeeperEvent, h]

theorem shownOf_eq_some {event : KeeperEventProjection} (hcalendar : event.calendarId = calendarId)
    (hstate : event.eventStateId.isSome = true) (hsource : sourceMap.get? calendarId = some source) :
    shownOf sourceMap calendarId event = some (toKeeperEvent event source).shown := by
  unfold shownOf publishEvent
  rw [hcalendar, hsource]
  simp [Except.toOption, Option.filter, toKeeperEvent, hcalendar, hstate]

def shownOfRow (rt : Runtime) (ark : Arktype) (sourceMap : JsMap String SourceInfo)
    (calendarId : String) (timeZone : Option String) (range : Span ℤ) (row : SyncedEventRow) :
    Option (String × String × Bool × List String) :=
  ((sourceMap.get? row.calendarId).bind fun source =>
    (toSyncableEvent ark row source).toOption).bind fun event =>
      if !event.isMaster && (isScanned range event && (widenedWindow range.start range.stop).overlaps event.range &&
          isListed rt timeZone range event.shape) then
        shownOf sourceMap calendarId (toSyncedProjection (asOneOffEvent event))
      else none

theorem shownOfRow_eq_none {row : SyncedEventRow} {timeZone : Option String} (h : row.calendarId ≠ calendarId) :
    shownOfRow reader ark sourceMap calendarId timeZone range row = none := by
  rw [shownOfRow, Option.bind_eq_none_iff]
  intro event hevent
  obtain ⟨source, -, hevent⟩ := Option.bind_eq_some_iff.1 hevent
  cases hok : toSyncableEvent ark row source with
  | error message =>
    rw [hok] at hevent
    cases hevent
  | ok event' =>
    rw [hok] at hevent
    obtain rfl := Option.some.inj hevent
    have hcalendar : event'.calendarId ≠ calendarId := by
      rwa [(toSyncableEvent_ok hok).calendarId]
    split_ifs
    · exact shownOf_eq_none (Or.inl hcalendar)
    · rfl

/-- **A row that holds a single event** shows it where it is in the range. -/
theorem shownOfRow_synced (hhost : host.StableStringify) {entry : Entry String EventStateInsertRow}
    {e : SourceEvent} (h : HoldsEvent host ark entry e) (hcurrent : IsCurrent entry.content)
    (hallDay : e.isAllDay.isSome) (hexpanded : e.recurrenceRule = none) {timeZone : Option String}
    (hviewer : IsRegularViewer reader.zones timeZone) (hgrid : IsGridded timeZone e.shape)
    (hcalendar : entry.content.calendarId = calendarId)
    (hsource : sourceMap.get? calendarId = some source) :
    shownOfRow reader ark sourceMap calendarId timeZone range (entry.content.synced entry.id) =
      if isListed reader timeZone range e.shape then some e.shown else none := by
  obtain ⟨event, hevent, hrule, hshape, hshown⟩ := h.shows hhost hcurrent hallDay source
  have hcalendar' : (entry.content.synced entry.id).calendarId = calendarId := hcalendar
  have hmaster : event.isMaster = false := by
    rw [SyncableEvent.isMaster, hrule.2 hexpanded]
    rfl
  rw [shownOfRow, hcalendar', hsource, Option.bind_some, hevent]
  show (if _ then _ else _) = _
  rw [hshape, hmaster]
  cases hlisted : isListed reader timeZone range e.shape with
  | false => simp
  | true =>
    have hoverlaps : (widenedWindow range.start range.stop).overlaps event.range = true := by
      have hwide := hgrid.overlaps hviewer hlisted
      rw [← hshape] at hwide
      exact hwide
    rw [isScanned_of_overlaps hmaster hoverlaps, hoverlaps]
    refine Eq.trans (shownOf_eq_some ?_ rfl hsource) (congrArg some hshown)
    exact (toSyncableEvent_ok hevent).calendarId.trans hcalendar

/-- What a listing shows of the calendar is what its rows show, where no master is of the calendar. -/
theorem filterMap_shownOf_contents {rows : List SyncedEventRow} {users : List UserEventRecord}
    (hparsed : toSyncableEvents ark rows sourceMap = .ok synced)
    (hmasters : ∀ master ∈ synced.filter (·.isMaster), master.calendarId ≠ calendarId)
    (timeZone : Option String) (slotsOf : SyncableEvent → List ℤ) (own : UserEventRecord → Bool) :
    (contents reader synced users slotsOf (fun event => isScanned range event &&
        (widenedWindow range.start range.stop).overlaps event.range &&
        isListed reader timeZone range event.shape) own).filterMap (shownOf sourceMap calendarId) =
      rows.filterMap (shownOfRow reader ark sourceMap calendarId timeZone range) := by
  obtain ⟨-, hsynced⟩ := toSyncableEvents_eq_ok_iff.1 hparsed
  rw [contents, List.filterMap_append, List.map_append, List.filterMap_append]
  have hoccurrences : ((occurrencesAt reader synced slotsOf).map toSyncedProjection).filterMap
      (shownOf sourceMap calendarId) = [] := by
    refine List.filterMap_eq_nil_iff.2 fun event hevent => shownOf_eq_none (Or.inl ?_)
    obtain ⟨e, he, rfl⟩ := List.mem_map.1 hevent
    obtain ⟨master, hmaster, he⟩ := List.mem_flatMap.1 he
    obtain ⟨slot, -, he⟩ := List.mem_filterMap.1 he
    show e.calendarId ≠ calendarId
    rw [(occurrenceAt_eq_some he).2]
    exact hmasters master hmaster
  have husers : ((users.filter own).map fun row => toUserProjection row.toUserEventRow).filterMap
      (shownOf sourceMap calendarId) = [] := by
    refine List.filterMap_eq_nil_iff.2 fun event hevent => shownOf_eq_none (Or.inr ?_)
    obtain ⟨row, -, rfl⟩ := List.mem_map.1 hevent
    rfl
  rw [hoccurrences, husers, List.nil_append, List.append_nil, List.map_map, List.filterMap_map,
    List.filterMap_filter, hsynced, List.filterMap_filterMap]
  rfl

theorem filterMap_shownOfRow_storedRows {ids : List String} (hpull : calendarId ∈ ids) (timeZone : Option String) :
    (storedRows store ids).filterMap (shownOfRow reader ark sourceMap calendarId timeZone range) =
      (store.eventStates.filter (·.calendarId = calendarId)).filterMap
        (shownOfRow reader ark sourceMap calendarId timeZone range) := by
  rw [storedRows, List.filterMap_filter, List.filterMap_filter]
  refine List.filterMap_congr fun row _ => ?_
  by_cases hcalendar : row.calendarId = calendarId
  · rw [if_pos (by simpa [hcalendar] using hpull), if_pos (decide_eq_true hcalendar)]
  · rw [shownOfRow_eq_none hcalendar, ite_self, ite_self]

/-- A read of a range, of a store whose rows of a pulled calendar are those of the table. -/
structure ReadsTable (reader : Runtime) (ark : Arktype) (occurs : RRuleOptions → ℤ → Prop)
    (store : EventStore) (userId calendarId : String) (input : KeeperEventRangeInput) (range : Span ℤ)
    (synced : List SyncableEvent) (table : EventStatesTable) : Prop where
  rows : (store.eventStates.filter (·.calendarId = calendarId)).Perm (syncedRows table)
  pull : calendarId ∈ (getSourcesForUser store userId {}).1
  normalized : normalizeDateRange input.from input.to = .ok range
  canRead : CanRead reader ark occurs store (getSourcesForUser store userId {}) range input.timeZone synced

/-- **Rows that reflect a listing** of single events show it, whatever other calendars are read. -/
theorem showsListing_of_holdsListing (hhost : host.StableStringify) (hlisting : Listing ark events)
    (h : HoldsListing host ark calendarId table events)
    (hcurrent : ∀ entry ∈ table, IsCurrent entry.content)
    (hexpanded : ∀ e ∈ events, e.recurrenceRule = none)
    (hgrid : ∀ e ∈ events, IsGridded input.timeZone e.shape)
    (hreads : ReadsTable reader ark occurs store userId calendarId input range synced table) :
    ∃ listed, getEventsInRange reader ark store userId input {} = .ok listed ∧
      ShowsListing reader calendarId input.timeZone range events listed := by
  obtain ⟨hstore, hpull, hrange, hread⟩ := hreads
  have hheld : ∀ entry ∈ table, ∃ e ∈ events, HoldsEvent host ark entry e := fun entry hentry =>
    (h.rows entry hentry).resolve_left fun hanonymous => by
      have hnamed := (hcurrent entry hentry).1
      rw [hanonymous.1] at hnamed
      cases hnamed
  have hmasters : ∀ master ∈ synced.filter (·.isMaster), master.calendarId ≠ calendarId := by
    intro master hmaster hcalendar
    obtain ⟨hmem, hyes⟩ := List.mem_filter.1 hmaster
    obtain ⟨row, hrow, source, -, hok⟩ := exists_row_of_mem_events hread.parsed hmem
    rw [(toSyncableEvent_ok hok).calendarId] at hcalendar
    obtain ⟨entry, hin, rfl⟩ := List.mem_map.1 (hstore.mem_iff.1 (List.mem_filter.2
      ⟨(List.mem_filter.1 hrow).1, decide_eq_true hcalendar⟩))
    obtain ⟨e, he, hholds⟩ := hheld entry hin
    obtain ⟨event, hevent, hrule, -⟩ :=
      hholds.shows hhost (hcurrent entry hin) (hlisting.allDay e he) source
    obtain rfl := Except.ok.inj (hok.symm.trans hevent)
    rw [SyncableEvent.isMaster, hrule.2 (hexpanded e he)] at hyes
    cases hyes
  obtain ⟨listed, hrun, slotsOf, -, l, hl, hperm⟩ := getEventsInRange_ok hrange hread
  refine ⟨listed, hrun, ((hperm.filter _).map _).trans ?_⟩
  obtain ⟨source, hsource⟩ := Option.isSome_iff_exists.1 (isSome_sourceMap hpull)
  obtain ⟨-, rfl⟩ := mapM_eq_ok_iff.1 hl
  have hlisted : (events.filter fun e => isListed reader input.timeZone range e.shape).map
      SourceEvent.shown = events.filterMap fun e =>
        if isListed reader input.timeZone range e.shape then some e.shown else none := by
    rw [← List.filterMap_eq_map, List.filterMap_filter]
    rfl
  rw [hlisted, List.filter_filterMap, List.map_filterMap]
  show (List.filterMap (shownOf _ calendarId) _).Perm _
  rw [filterMap_shownOf_contents hread.parsed hmasters, filterMap_shownOfRow_storedRows hpull]
  refine (hstore.filterMap _).trans ?_
  rw [syncedRows, List.filterMap_map]
  refine KeyedParts.filterMap_perm_of_keys (h.storedIdentityKeys_perm hhost hlisting)
    (fun entry hentry e he hholds => ?_) fun entry hentry hnone => ?_
  · exact shownOfRow_synced hhost hholds (hcurrent entry hentry) (hlisting.allDay e he)
      (hexpanded e he) hread.viewer (hgrid e he) (h.calendar entry hentry) hsource
  · obtain ⟨e, -, hholds⟩ := hheld entry hentry
    cases hnone.symm.trans hholds

end Listing

/-! ## Runs of ingestions -/

section Runs

variable {fresh : List String → String} {rt reader : Runtime} {ark : Arktype}
  {occurs : RRuleOptions → ℤ → Prop} {store : EventStore} {userId calendarId : String}
  {input : KeeperEventRangeInput} {range : Span ℤ} {table table' : EventStatesTable}
  {first last : List SourceEvent} {fetchResult : FetchEventsResult}
  {fetchResults : List FetchEventsResult} {synced : List SyncableEvent}

theorem isCurrent_flushEventStates {deletes : List String} {inserts : List SourceEvent}
    (hinserts : ∀ e ∈ inserts, e.isAllDay.isSome) (htable : ∀ entry ∈ table, IsCurrent entry.content)
    (h : flushEventStates fresh table calendarId deletes inserts = .ok table') :
    ∀ entry ∈ table', IsCurrent entry.content := by
  refine runStatements_forall (fun s hs row hrow => ?_)
    (fun entry hentry => htable entry (mem_deleteEventStates.1 hentry).1) h
  obtain ⟨e, he, rfl⟩ := List.mem_map.1 ((flatMap_rows_insertStatements _).mem_iff.1
    (List.mem_flatMap.2 ⟨s, hs, hrow⟩))
  exact ⟨rfl, hinserts e he⟩

theorem isCurrent_ingestCalendar (hfetch : ComparedFetch rt calendarId fetchResult)
    (hevents : ∀ e ∈ fetchResult.events, e.isAllDay.isSome)
    (htable : ∀ entry ∈ table, IsCurrent entry.content)
    (h : ingestCalendar fresh rt ark calendarId table fetchResult = .ok table') :
    ∀ entry ∈ table', IsCurrent entry.content := by
  have hinserts : ∀ changes, (persistDiff rt.host ark fetchResult fetchResult.events
      (readEventStates table calendarId)).flushed = some changes → ∀ e ∈ changes.inserts, e.isAllDay.isSome := by
    intro changes hchanges e he
    refine hevents e ?_
    unfold persistDiff at hchanges
    dsimp only at hchanges
    split_ifs at hchanges <;> obtain rfl := Option.some.inj hchanges <;>
      first
      | cases he
      | exact mem_of_mem_deduplicateIncomingEvents (List.mem_filter.1 he).1
  rw [ingestCalendar, ingestSource_eq ark hfetch] at h
  cases hflushed : (persistDiff rt.host ark fetchResult fetchResult.events
      (readEventStates table calendarId)).flushed with
  | none =>
    simp only [Except.mapError, bind, Except.bind, hflushed] at h
    obtain rfl := Except.ok.inj h
    exact htable
  | some changes =>
    simp only [Except.mapError, bind, Except.bind, hflushed] at h
    exact isCurrent_flushEventStates (hinserts changes hflushed) htable (mapError_eq_ok_iff.1 h)

theorem isCurrent_deltas (hrun : DeltaRun rt ark calendarId first fetchResults last)
    (htable : ∀ entry ∈ table, IsCurrent entry.content)
    (h : fetchResults.foldlM (ingestCalendar fresh rt ark calendarId) table = .ok table') :
    ∀ entry ∈ table', IsCurrent entry.content := by
  induction hrun generalizing table with
  | nil =>
    obtain rfl := Except.ok.inj h
    exact htable
  | cons listing delta rest ih =>
    rw [List.foldlM_cons] at h
    obtain ⟨next, hnext, hrest⟩ := bind_eq_ok_iff.1 h
    exact ih (isCurrent_ingestCalendar delta.toComparedFetch
      (fun e he => listing.allDay e (delta.listed e he)) htable hnext) hrest

/-- **What reads list after any ingestions.** After a snapshot and a run of deltas, a range shows the events
of the source's last listing that are in it, each once. -/
theorem showsListing_of_deltas (hfresh : ∀ ids, fresh ids ∉ ids) (hhost : rt.host.StableStringify)
    (hfirst : Listing ark first) (hsnapshot : SnapshotOf rt calendarId first fetchResult)
    (hrun : DeltaRun rt ark calendarId first fetchResults last)
    (hexpanded : ∀ e ∈ last, e.recurrenceRule = none)
    (hgrid : ∀ e ∈ last, IsGridded input.timeZone e.shape)
    (hvalid : Valid eventStateIndexes table)
    (hcalendar : ∀ entry ∈ table, entry.content.calendarId = calendarId)
    (hcurrent : ∀ entry ∈ table, IsCurrent entry.content)
    (hingested : (fetchResult :: fetchResults).foldlM (ingestCalendar fresh rt ark calendarId) table = .ok table')
    (hreads : ReadsTable reader ark occurs store userId calendarId input range synced table') :
    ∃ listed, getEventsInRange reader ark store userId input {} = .ok listed ∧
      ShowsListing reader calendarId input.timeZone range last listed := by
  obtain ⟨start, hstart, hheld⟩ :=
    holdsListing_snapshot hfresh hhost hvalid hcalendar hfirst hsnapshot
  obtain ⟨followed, hfollowed, hlast, hheldLast⟩ :=
    holdsListing_deltas hfresh hhost hfirst hrun hheld
  rw [List.foldlM_cons, hstart] at hingested
  obtain rfl := Except.ok.inj (hfollowed.symm.trans hingested)
  have hcurrentStart := isCurrent_ingestCalendar hsnapshot.toComparedFetch
    (fun e he => hfirst.allDay e ((hsnapshot.mem_events e).1 he)) hcurrent hstart
  exact showsListing_of_holdsListing hhost hlast hheldLast
    (isCurrent_deltas hrun hcurrentStart hfollowed) hexpanded hgrid hreads

end Runs

namespace Example

/-- The meeting that is left of the two, in the calendar of a user. -/
def meetingTable : EventStatesTable := [⟨"x", buildEventStateInsertRow "calendar" renamedProviderMeeting⟩]

def meetingStore : EventStore where
  calendars := [{ ownCalendar with id := "calendar" }]
  eventStates := syncedRows meetingTable
  userEvents := []

def readMeeting : SyncableEvent where
  id := "x"
  eventStateId := some "x"
  sourceEventUid := "meeting"
  startTime := 0
  endTime := 3600000
  availability := some .busy
  isAllDay := some false
  summary := "Moved"
  calendarId := "calendar"
  calendarName := some "Own"

theorem foldlM_meetings : [snapshotFetch [providerMeeting "a", providerMeeting "b"], deltaFetch].foldlM
    (ingestCalendar longerId ingestRuntime arktype "calendar") [] = .ok meetingTable := by
  have hrun : ([snapshotFetch [providerMeeting "a", providerMeeting "b"], deltaFetch].foldlM
      (ingestCalendar longerId ingestRuntime arktype "calendar") []).toOption = some meetingTable := by
    decide +kernel
  cases hfold : [snapshotFetch [providerMeeting "a", providerMeeting "b"], deltaFetch].foldlM
    (ingestCalendar longerId ingestRuntime arktype "calendar") [] with
  | error error =>
    rw [hfold] at hrun
    cases hrun
  | ok table =>
    rw [hfold] at hrun
    exact congrArg Except.ok (Option.some.inj hrun)

theorem canRead_meetingStore {window : Span ℤ} : CanRead kiritimati arktype (fun _ _ => False) meetingStore
      (getSourcesForUser meetingStore "user" {}) window none [readMeeting] where
  enumerates := kiritimati_enumerates
  parsed := by rfl
  withinBudget event hevent := by
    obtain rfl := List.mem_singleton.1 hevent
    rfl
  zones event hevent hmaster := by
    obtain rfl := List.mem_singleton.1 hevent
    cases hmaster
  viewer name _ := kiritimati_regular name

end Example

theorem showsListing_of_deltas_example :
    ∃ listed, getEventsInRange Example.kiritimati Example.arktype Example.meetingStore "user"
        ⟨0, 86400000, none⟩ {} = .ok listed ∧
      ShowsListing Example.kiritimati "calendar" none ⟨0, 86400000⟩ [Example.renamedProviderMeeting] listed := by
  have hvalid : Valid eventStateIndexes ([] : EventStatesTable) := ⟨List.nodup_nil, List.nodup_nil⟩
  exact showsListing_of_deltas Example.longerId_not_mem
    Example.printingHost_stableStringify (Example.listing_meetings (by decide) (by decide))
    (Example.snapshotOf_snapshotFetch rfl)
    (.cons (Example.listing_meetings (by decide) (by decide)) Example.deltaOf_deltaFetch .nil)
    (by decide) (fun _ _ => Or.inl rfl) hvalid (fun _ he => by cases he) (fun _ he => by cases he)
    Example.foldlM_meetings ⟨by rfl, by decide, by rfl, Example.canRead_meetingStore⟩

end Keeper
