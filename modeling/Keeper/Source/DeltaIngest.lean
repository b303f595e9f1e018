import Keeper.Source.Ingest
import Keeper.Source.SnapshotIngest

/-!
# Delta ingestions agree with snapshots

A calendar followed by deltas from one snapshot holds the same events as one that is read anew. The
listings of the provider are lists of events with ids of their own; a delta reports what changed
between two of them.

* `HoldsListing`: what the rows of a calendar owe to a listing.
* `holdsListing_snapshot`, `holdsListing_delta`: a snapshot establishes it from any rows, a delta keeps it.
* `ingestDeltas_agree`: the rows after a run of deltas and those after a snapshot have the same
  identity keys.
-/

namespace Keeper

open SqlTable

/-! ## Ingestions of a table -/

inductive IngestError
  | materialization (error : MaterializationError)
  | upsert (error : UpsertError EventStateKey)

section Ingestion

variable (fresh : List String → String) (rt : Runtime) (ark : Arktype) (calendarId : String)

/-- An ingestion whose generation is current: what `ingestSource` flushes is written. -/
def ingestCalendar (table : EventStatesTable) (fetchResult : FetchEventsResult) :
    Except IngestError EventStatesTable := do
  let outcome ← (ingestSource ark rt calendarId fetchResult .current .current
    (readEventStates table calendarId)).mapError .materialization
  match outcome.flushed with
  | none => return table
  | some changes =>
    (flushEventStates fresh table calendarId changes.deletes changes.inserts).mapError .upsert

end Ingestion

/-- A fetch that is compared with the store, with nothing withheld. -/
structure ComparedFetch (rt : Runtime) (calendarId : String) (fetchResult : FetchEventsResult) :
    Prop where
  ingested : ingestedSourceEvents rt calendarId fetchResult = .ok fetchResult.events
  changed : fetchResult.unchanged ≠ some true
  incremental : fetchResult.fullSyncRequired ≠ some true

section Ingest

variable {fresh : List String → String} {rt : Runtime} {ark : Arktype} {calendarId : String}
  {table : EventStatesTable} {fetchResult : FetchEventsResult}

theorem flushEventStates_nil : flushEventStates fresh table calendarId [] [] = .ok table := by
  have hkept : deleteEventStates table calendarId [] = table := by simp [deleteEventStates]
  rw [flushEventStates, hkept]
  rfl

variable (ark) in
theorem ingestSource_eq (hfetch : ComparedFetch rt calendarId fetchResult)
    (storedEvents : List StoredSourceEventState) :
    ingestSource ark rt calendarId fetchResult .current .current storedEvents =
      .ok (persistDiff rt.host ark fetchResult fetchResult.events storedEvents) := by
  rw [ingestSource, hfetch.ingested]
  simp [bind, Except.bind, persistenceWork, hfetch.changed, hfetch.incremental, pure,
    Except.pure]

/-- **What an ingestion writes**: the deletes and inserts of its diff. -/
theorem ingestCalendar_eq (hfetch : ComparedFetch rt calendarId fetchResult)
    (hparses : fetchResult.isDeltaSync.getD false = true →
      (parseStoredSourceEventStatesRecoveringInvalid ark
        (readEventStates table calendarId)).failures = []) :
    ingestCalendar fresh rt ark calendarId table fetchResult =
      (flushEventStates fresh table calendarId
        (eventStateIdsToRemove fetchResult (parseStoredSourceEventStatesRecoveringInvalid ark
          (readEventStates table calendarId)))
        (buildSourceEventsToAdd rt.host (readExistingEvents ark table calendarId)
          fetchResult.events { isDeltaSync := fetchResult.isDeltaSync.getD false })).mapError
        .upsert := by
  have houtcome := ingestSource_eq ark hfetch (readEventStates table calendarId)
  have hcontinues : (fetchResult.isDeltaSync.getD false &&
      !(parseStoredSourceEventStatesRecoveringInvalid ark
        (readEventStates table calendarId)).failures.isEmpty) = false := by
    cases hdelta : fetchResult.isDeltaSync.getD false with
    | false => rfl
    | true => rw [hparses hdelta]; rfl
  rw [ingestCalendar, houtcome]
  show (match (persistDiff rt.host ark fetchResult fetchResult.events
      (readEventStates table calendarId)).flushed with
    | none => _
    | some changes => _) = _
  rw [persistDiff, readExistingEvents]
  simp only [hcontinues, Bool.false_eq_true, if_false]
  generalize buildSourceEventsToAdd rt.host _ fetchResult.events _ = added
  generalize eventStateIdsToRemove fetchResult _ = removed
  by_cases hempty : added.isEmpty && removed.isEmpty
  · rw [if_pos hempty]
    rw [Bool.and_eq_true, List.isEmpty_iff, List.isEmpty_iff] at hempty
    obtain ⟨rfl, rfl⟩ := hempty
    rw [flushEventStates_nil]
    split_ifs
    · show (flushEventStates fresh table calendarId [] []).mapError _ = _
      rw [flushEventStates_nil]
    · rfl
  · rw [if_neg hempty]

end Ingest

/-! ## Listings -/

/-- A listing of a provider: events with provider ids of their own. -/
structure Listing (ark : Arktype) (events : List SourceEvent) : Prop where
  providerId : ∀ e ∈ events, (truthy e.sourceEventId).isSome
  distinct : (events.map (·.sourceEventId)).Nodup
  allDay : ∀ e ∈ events, e.isAllDay.isSome
  read : ∀ e ∈ events, e.ReadBy ark

/-- The entry holds the event: it has the identity key under which the event is stored, with
metadata normalised. -/
def HoldsEvent (host : Host) (ark : Arktype) (entry : Entry String EventStateInsertRow)
    (e : SourceEvent) : Prop :=
  HasIdentityOf host ark ⟨true⟩ entry e.asStored

/-- The entry has neither a uid nor a provider id: no diff ever reads it. -/
def IsAnonymous (entry : Entry String EventStateInsertRow) : Prop :=
  entry.content.sourceEventUid = none ∧ truthy entry.content.sourceEventId = none

/-- **What the rows of a calendar owe to a listing**: they hold its events, and nothing else that
could be compared. -/
structure HoldsListing (host : Host) (ark : Arktype) (calendarId : String) (table : EventStatesTable)
    (events : List SourceEvent) : Prop where
  valid : Valid eventStateIndexes table
  calendar : ∀ entry ∈ table, entry.content.calendarId = calendarId
  parses : ∀ entry ∈ table, (entryExisting ark entry).isSome
  rows : ∀ entry ∈ table, IsAnonymous entry ∨ ∃ e ∈ events, HoldsEvent host ark entry e
  events : ∀ e ∈ events, ∃ entry ∈ table, HoldsEvent host ark entry e

section Listings

variable {host : Host} {ark : Arktype} {events : List SourceEvent} {calendarId : String}
  {table : EventStatesTable} {e e' : SourceEvent} {entry : Entry String EventStateInsertRow}

theorem Listing.sourceEventId_ne_empty (h : Listing ark events) (he : e ∈ events) :
    e.sourceEventId ≠ some "" := by
  intro heq
  have hsome := h.providerId e he
  rw [heq] at hsome
  exact absurd hsome (by decide)

theorem Listing.eq_of_id (h : Listing ark events) (he : e ∈ events) (he' : e' ∈ events)
    (hid : e.sourceEventId = e'.sourceEventId) : e = e' :=
  List.inj_on_of_nodup_map h.distinct he he' hid

theorem Listing.exists_id (h : Listing ark events) (he : e ∈ events) :
    ∃ id, truthy e.sourceEventId = some id ∧ e.sourceEventId = some id := by
  obtain ⟨id, hid⟩ := Option.isSome_iff_exists.1 (h.providerId e he)
  exact ⟨id, hid, (truthy_eq_some_iff.1 hid).1⟩

theorem HoldsEvent.same (hhost : host.StableStringify) (h : HoldsEvent host ark entry e) :
    ∃ existing, entryExisting ark entry = some existing ∧
      SameIdentity host ⟨true⟩ existing e.asStored :=
  HasIdentityOf.same hhost h

theorem HoldsEvent.sourceEventId (hhost : host.StableStringify) (h : HoldsEvent host ark entry e)
    (he : (truthy e.sourceEventId).isSome) :
    entry.content.sourceEventId = e.sourceEventId := by
  obtain ⟨existing, hparse, hsame⟩ := h.same hhost
  have htruthy := truthy_eq_of_getD_eq hsame.providerId
  obtain ⟨id, hid⟩ := Option.isSome_iff_exists.1 he
  have hexisting : truthy existing.sourceEventId = some id := htruthy.trans hid
  rw [(truthy_eq_some_iff.1 hid).1, ← (truthy_eq_some_iff.1 hexisting).1]
  exact (parseStoredSourceEventState_ok (parsedRow_eq_some_iff.1 hparse)).2.1.symm

theorem HoldsEvent.key_eq (hhost : host.StableStringify) (h : HoldsEvent host ark entry e)
    (he : (truthy e.sourceEventId).isSome) (hcalendar : entry.content.calendarId = calendarId) :
    entry.key eventStateIndexes = (buildEventStateInsertRow calendarId e).indexKey := by
  have hid := h.sourceEventId hhost he
  have hne : e.sourceEventId ≠ some "" := by
    intro heq
    rw [heq] at he
    exact absurd he (by decide)
  exact HasIdentityOf.key_eq hhost hcalendar (by rwa [hid]) (e := e.asStored) hne h

theorem holdsEvent_build (hread : e.ReadBy ark) (hallDay : e.isAllDay.isSome) (id : String) :
    HoldsEvent host ark ⟨id, buildEventStateInsertRow calendarId e⟩ e :=
  entryIdentityKey_eq_some_iff.2 ⟨_, entryExisting_build hread calendarId id,
    @existingIdentityKey_existingState host e.asStored hallDay id ⟨true⟩⟩

theorem HasIdentityOf.holdsEvent (hhost : host.StableStringify) (hallDay : e.isAllDay.isSome)
    {options : SourceEventIdentityOptions} (h : HasIdentityOf host ark options entry e) :
    HoldsEvent host ark entry e := by
  obtain ⟨existing, hparse, hsame⟩ := h.same hhost
  have hduration := hsame.duration_of_rule hhost
    (duration_parseStoredSourceEventState (parsedRow_eq_some_iff.1 hparse))
  rw [HoldsEvent, SourceEvent.asStored_eq_self hduration]
  obtain ⟨existing', hparse', hkey⟩ := entryIdentityKey_eq_some_iff.1 h
  refine entryIdentityKey_eq_some_iff.2 ⟨existing', hparse', ?_⟩
  obtain ⟨normalize⟩ := options
  cases normalize with
  | true => exact hkey
  | false => exact existingIdentityKey_normalize hhost hallDay hkey

end Listings

/-! ## What a flush leaves -/

/-- What the flush of a diff against a listing leaves: rows that hold the fetched events, and those
that were not deleted and have none of their provider ids. -/
structure FlushedFetch (host : Host) (ark : Arktype) (calendarId : String)
    (table : EventStatesTable) (removed : List String) (fetched : List SourceEvent)
    (table' : EventStatesTable) : Prop where
  valid : Valid eventStateIndexes table'
  calendar : ∀ entry ∈ table', entry.content.calendarId = calendarId
  events : ∀ e ∈ fetched, ∃ entry ∈ table', HoldsEvent host ark entry e
  rows : ∀ entry ∈ table', (∃ e ∈ fetched, HoldsEvent host ark entry e) ∨
    entry ∈ table ∧ entry.id ∉ removed ∧
      ∀ e ∈ fetched, entry.content.sourceEventId ≠ e.sourceEventId
  kept : ∀ entry ∈ table, entry.id ∉ removed →
    (∀ e ∈ fetched, entry.content.sourceEventId ≠ e.sourceEventId) → entry ∈ table'

section Flushes

variable {fresh : List String → String} {host : Host} {ark : Arktype} {calendarId : String}
  {table : EventStatesTable} {listing fetched : List SourceEvent} {removed : List String}

theorem indexKey_eq_sourceEvent_iff (row : EventStateInsertRow) (id : String) :
    row.indexKey = some (.sourceEvent row.calendarId id) ↔ row.sourceEventId = some id := by
  unfold EventStateInsertRow.indexKey
  cases row.sourceEventId with
  | some sourceEventId => simp
  | none => cases row.sourceEventUid <;> cases row.recurrenceId <;> simp

/-- A row of the calendar has the index key of an event with a provider id iff it has that id. -/
theorem Listing.key_eq_iff (hlisting : Listing ark listing) {e : SourceEvent} (he : e ∈ listing)
    {entry : Entry String EventStateInsertRow} (hcalendar : entry.content.calendarId = calendarId) :
    entry.key eventStateIndexes = (buildEventStateInsertRow calendarId e).indexKey ↔
      entry.content.sourceEventId = e.sourceEventId := by
  obtain ⟨id, -, hid⟩ := hlisting.exists_id he
  have hrow := (indexKey_eq_sourceEvent_iff (buildEventStateInsertRow calendarId e) id).2 hid
  have hentry := indexKey_eq_sourceEvent_iff entry.content id
  rw [hcalendar] at hentry
  rw [hrow, hid]
  exact hentry

/-- **The flush of a diff against a listing**, where no row that holds a fetched event is
deleted. -/
theorem flushedFetch_of_keeps (hfresh : ∀ ids, fresh ids ∉ ids) (hhost : host.StableStringify)
    (hvalid : Valid eventStateIndexes table)
    (hcalendar : ∀ entry ∈ table, entry.content.calendarId = calendarId)
    (hlisting : Listing ark listing) (hfetched : ∀ e ∈ fetched, e ∈ listing) (isDeltaSync : Bool)
    (hkeeps : ∀ entry ∈ table, ∀ e ∈ fetched, HoldsEvent host ark entry e → entry.id ∉ removed) :
    ∃ table', flushEventStates fresh table calendarId removed (buildSourceEventsToAdd host
        (readExistingEvents ark table calendarId) fetched { isDeltaSync }) = .ok table' ∧
      FlushedFetch host ark calendarId table removed fetched table' := by
  set added := buildSourceEventsToAdd host (readExistingEvents ark table calendarId) fetched
    { isDeltaSync } with hadded
  have hmem : ∀ e ∈ deduplicateIncomingEvents fetched, e ∈ listing := fun e he =>
    hfetched e (mem_of_mem_deduplicateIncomingEvents he)
  have hne : ∀ e ∈ fetched, e.sourceEventId ≠ some "" := fun e he =>
    hlisting.sourceEventId_ne_empty (hfetched e he)
  have hdeduplicated : ∀ e ∈ fetched, e ∈ deduplicateIncomingEvents fetched := by
    intro e he
    obtain ⟨e', he', hidentity⟩ := exists_mem_deduplicateIncomingEvents he
    obtain ⟨id, htruthy, hid⟩ := hlisting.exists_id (hfetched e he)
    rw [SourceEvent.storageIdentity_eq_provider_iff.2 htruthy] at hidentity
    have hid' := (truthy_eq_some_iff.1
      (SourceEvent.storageIdentity_eq_provider_iff.1 hidentity)).1
    rw [hlisting.eq_of_id (hfetched e he) (hmem e' he') (hid.trans hid'.symm)]
    exact he'
  have hdiff : Diff eventStateIndexes (HoldsEvent host ark) (buildEventStateInsertRow calendarId)
      table (deleteEventStates table calendarId removed) (deduplicateIncomingEvents fetched)
      added := by
    refine ⟨hvalid, fun entry hentry => List.mem_of_mem_filter hentry, ?_,
      nodup_indexKeys_deduplicateIncomingEvents calendarId hne, ?_, ?_, ?_, ?_, ?_⟩
    · intro e he
      show ((buildEventStateInsertRow calendarId e).indexKey).isSome = true
      rw [indexKey_buildEventStateInsertRow calendarId
        (hne e (mem_of_mem_deduplicateIncomingEvents he))]
      rfl
    · exact fun entry hentry e he hholds =>
        hholds.key_eq hhost (hlisting.providerId e (hmem e he)) (hcalendar entry hentry)
    · exact fun e he id =>
        holdsEvent_build (hlisting.read e (hmem e he)) (hlisting.allDay e (hmem e he)) id
    · exact fun entry hentry e he hholds => mem_deleteEventStates.2 ⟨hentry, fun _ =>
        hkeeps entry hentry e (mem_of_mem_deduplicateIncomingEvents he) hholds⟩
    · exact fun e he => ((mem_buildSourceEventsToAdd_iff hcalendar).1 he).1
    · intro e he hno
      by_contra hnone
      push Not at hnone
      exact hno ((mem_buildSourceEventsToAdd_iff hcalendar).2 ⟨he, fun entry hentry hright =>
        hnone entry hentry (hright.holdsEvent hhost (hlisting.allDay e (hmem e he)))⟩)
  have haddedMem : ∀ e ∈ added, e ∈ fetched := fun e he =>
    mem_of_mem_deduplicateIncomingEvents (hdiff.added_wanted e he)
  obtain ⟨table', hrun, hup⟩ := flushEventStates_ok hfresh hvalid calendarId removed
    (fun e he => hne e (haddedMem e he)) (hdiff.distinct.sublist (List.filter_sublist.map _))
  have hcalendar' : ∀ entry ∈ table', entry.content.calendarId = calendarId := by
    intro entry hentry
    rcases hup.only entry hentry with hrow | ⟨hleft, -⟩
    · obtain ⟨e, -, hcontent⟩ := List.mem_map.1 hrow
      rw [← hcontent]
      rfl
    · exact hcalendar entry (hdiff.left entry hleft)
  refine ⟨table', hrun, hup.valid, hcalendar', ?_, ?_, ?_⟩
  · exact fun e he => hdiff.exists_right hup (hdeduplicated e he)
  · intro entry hentry
    rcases hdiff.right_or_left hup hentry with ⟨e, he, hholds⟩ | ⟨hleft, hno⟩
    · exact Or.inl ⟨e, mem_of_mem_deduplicateIncomingEvents he, hholds⟩
    · obtain ⟨hold, hkept⟩ := mem_deleteEventStates.1 hleft
      refine Or.inr ⟨hold, hkept (hcalendar entry hold), fun e he hid => ?_⟩
      exact hno e (hdeduplicated e he)
        ((hlisting.key_eq_iff (hfetched e he) (hcalendar entry hold)).2 hid)
  · intro entry hentry hkept hno
    refine hup.kept entry (mem_deleteEventStates.2 ⟨hentry, fun _ => hkept⟩) fun row hrow heq => ?_
    obtain ⟨e, he, rfl⟩ := List.mem_map.1 hrow
    have he' := haddedMem e he
    exact hno e he' ((hlisting.key_eq_iff (hfetched e he') (hcalendar entry hentry)).1 heq.symm)

end Flushes

/-! ## Snapshots and deltas -/

structure SnapshotOf (rt : Runtime) (calendarId : String) (events : List SourceEvent)
    (fetchResult : FetchEventsResult) : Prop
    extends ComparedFetch rt calendarId fetchResult where
  isSnapshot : fetchResult.isDeltaSync.getD false = false
  mem_events : ∀ e, e ∈ fetchResult.events ↔ e ∈ events

/-- A delta fetch from one listing to the next: it reports the events that are new or differ, and
any others that stayed; their ids are changed, and so may be those of events that are gone from the
listing; the other events that are gone are cancelled. -/
structure DeltaOf (rt : Runtime) (calendarId : String) (previous next : List SourceEvent)
    (fetchResult : FetchEventsResult) : Prop
    extends ComparedFetch rt calendarId fetchResult where
  isDelta : fetchResult.isDeltaSync.getD false = true
  listed : ∀ e ∈ fetchResult.events, e ∈ next
  reported : ∀ e ∈ next, e ∈ previous ∨ e ∈ fetchResult.events
  changedIds : ∀ id ∈ fetchResult.changedEventIds.getD [],
    (∃ e ∈ fetchResult.events, e.sourceEventId = some id) ∨
      (∃ e ∈ previous, e.sourceEventId = some id) ∧ ∀ e ∈ next, e.sourceEventId ≠ some id
  changed_events : ∀ e ∈ fetchResult.events, ∀ id, e.sourceEventId = some id →
    id ∈ fetchResult.changedEventIds.getD []
  mem_cancelled : ∀ id, id ∈ fetchResult.cancelledEventIds.getD [] ↔
    (∃ e ∈ previous, e.sourceEventId = some id) ∧ (∀ e ∈ next, e.sourceEventId ≠ some id) ∧
      id ∉ fetchResult.changedEventIds.getD []
  window : ∀ w, fetchResult.syncWindow = some w → ∀ e ∈ next, e.recurrenceRule = none →
    overlapsTimeWindow ⟨e.startTime, e.endTime⟩ w.timeMin w.timeMax = true

/-- What a delta has to report for rows that reflect a listing to reflect the next: of an event that is
gone from the listing it names the id, unless its row lies outside the window of the fetch. -/
structure ReportsDelta (rt : Runtime) (calendarId : String) (previous next : List SourceEvent)
    (fetchResult : FetchEventsResult) : Prop
    extends ComparedFetch rt calendarId fetchResult where
  isDelta : fetchResult.isDeltaSync.getD false = true
  listed : ∀ e ∈ fetchResult.events, e ∈ next
  reported : ∀ e ∈ next, e ∈ previous ∨ e ∈ fetchResult.events
  changedIds : ∀ id ∈ fetchResult.changedEventIds.getD [],
    (∃ e ∈ fetchResult.events, e.sourceEventId = some id) ∨ ∀ e ∈ next, e.sourceEventId ≠ some id
  cancelledIds : ∀ id ∈ fetchResult.cancelledEventIds.getD [], ∀ e ∈ next, e.sourceEventId ≠ some id
  gone : ∀ e ∈ previous, ∀ id, e.sourceEventId = some id → (∀ e' ∈ next, e'.sourceEventId ≠ some id) →
    id ∈ fetchResult.changedEventIds.getD [] ∨ id ∈ fetchResult.cancelledEventIds.getD [] ∨
      ∃ w, fetchResult.syncWindow = some w ∧ e.recurrenceRule = none ∧
        overlapsTimeWindow ⟨e.startTime, e.endTime⟩ w.timeMin w.timeMax = false
  window : ∀ w, fetchResult.syncWindow = some w → ∀ e ∈ next, e.recurrenceRule = none →
    overlapsTimeWindow ⟨e.startTime, e.endTime⟩ w.timeMin w.timeMax = true

theorem DeltaOf.reports {rt : Runtime} {calendarId : String} {previous next : List SourceEvent}
    {fetchResult : FetchEventsResult} (h : DeltaOf rt calendarId previous next fetchResult) :
    ReportsDelta rt calendarId previous next fetchResult where
  toComparedFetch := h.toComparedFetch
  isDelta := h.isDelta
  listed := h.listed
  reported := h.reported
  changedIds id hid := (h.changedIds id hid).imp_right And.right
  cancelledIds id hid := ((h.mem_cancelled id).1 hid).2.1
  gone e he id hid hgone := by
    by_cases hchanged : id ∈ fetchResult.changedEventIds.getD []
    · exact Or.inl hchanged
    · exact Or.inr (Or.inl ((h.mem_cancelled id).2 ⟨⟨e, he, hid⟩, hgone, hchanged⟩))
  window := h.window

section Steps

variable {fresh : List String → String} {rt : Runtime} {ark : Arktype} {calendarId : String}
  {table : EventStatesTable} {events previous next : List SourceEvent}
  {fetchResult : FetchEventsResult}

theorem readEventStates_eq (h : ∀ entry ∈ table, entry.content.calendarId = calendarId) :
    readEventStates table calendarId = table.map fun entry => entry.content.stored entry.id := by
  have hall : (table.filter fun row => row.content.calendarId = calendarId) = table :=
    List.filter_eq_self.2 fun entry he => by simpa using h entry he
  rw [readEventStates, hall]

theorem nodup_ids_readEventStates (hvalid : Valid eventStateIndexes table)
    (h : ∀ entry ∈ table, entry.content.calendarId = calendarId) :
    ((readEventStates table calendarId).map (·.id)).Nodup := by
  rw [readEventStates_eq h, List.map_map]
  exact hvalid.ids

variable {entry : Entry String EventStateInsertRow}

theorem mem_readEventStates (h : ∀ entry ∈ table, entry.content.calendarId = calendarId) (he : entry ∈ table) :
    entry.content.stored entry.id ∈ readEventStates table calendarId := by
  rw [readEventStates_eq h]
  exact List.mem_map_of_mem he

theorem failures_eq_nil (h : ∀ entry ∈ table, entry.content.calendarId = calendarId)
    (hparses : ∀ entry ∈ table, (entryExisting ark entry).isSome) :
    (parseStoredSourceEventStatesRecoveringInvalid ark
      (readEventStates table calendarId)).failures = [] := by
  refine List.eq_nil_iff_forall_not_mem.2 fun failure hfailure => ?_
  obtain ⟨hrow, hnone, -⟩ := mem_failures_parseRecovering hfailure
  rw [readEventStates_eq h] at hrow
  obtain ⟨entry, hentry, hevent⟩ := List.mem_map.1 hrow
  have hparse := hparses entry hentry
  rw [entryExisting, hevent, hnone] at hparse
  cases hparse

/-- A row that does not parse is deleted where the fetch has no event under its provider id, and all
its events have one. -/
theorem mem_buildInvalidStoredEventIdsToRemove {failures : List StoredSourceEventParseFailure}
    {failure : StoredSourceEventParseFailure} (hfailure : failure ∈ failures)
    (hlisted : ∀ e ∈ events, (truthy e.sourceEventId).isSome)
    (hunlisted : ∀ id, truthy failure.event.sourceEventId = some id →
      ∀ e ∈ events, truthy e.sourceEventId ≠ some id) :
    failure.eventId ∈ buildInvalidStoredEventIdsToRemove failures events := by
  refine List.mem_flatMap.2 ⟨failure, hfailure, ?_⟩
  have hlegacy : (events.filter fun event => (truthy event.sourceEventId).isNone) = [] := by
    refine List.filter_eq_nil_iff.2 fun e he => ?_
    rw [Option.isNone_iff_eq_none, ← Option.not_isSome_iff_eq_none, not_not]
    exact hlisted e he
  cases hid : truthy failure.event.sourceEventId with
  | some id =>
    have hno : id ∉ events.filterMap fun event => truthy event.sourceEventId := by
      intro hmem
      obtain ⟨e, he, heq⟩ := List.mem_filterMap.1 hmem
      exact hunlisted id hid e he heq
    simp [hno]
  | none => cases failure.event.sourceEventUid <;> simp [hlegacy]

/-- A parsed row that a snapshot leaves has the provider id of an event, or none and no uid. -/
theorem uid_eq_none_of_stays {existing : ExistingSourceEventState}
    (hlisted : ∀ e ∈ events, (truthy e.sourceEventId).isSome)
    (hunlisted : ∀ id, truthy existing.sourceEventId = some id →
      ∀ e ∈ events, truthy e.sourceEventId ≠ some id)
    (hstays : isRemovedBySnapshot (deduplicateIncomingEvents events) existing = false) :
    existing.sourceEventUid = none ∧ truthy existing.sourceEventId = none := by
  have hall : (deduplicateIncomingEvents events).filter
      (fun event => (truthy event.sourceEventId).isSome) = deduplicateIncomingEvents events :=
    List.filter_eq_self.2 fun e he => hlisted e (mem_of_mem_deduplicateIncomingEvents he)
  unfold isRemovedBySnapshot at hstays
  cases hid : truthy existing.sourceEventId with
  | some id =>
    rw [hid] at hstays
    simp only [Bool.not_eq_false', List.contains_eq_mem, decide_eq_true_eq] at hstays
    obtain ⟨e, he, heq⟩ := mem_incomingProviderIds.1 hstays
    exact absurd heq (hunlisted id hid e he)
  | none =>
    rw [hid] at hstays
    simp only [providerBackedStorageIdentities, hall, Bool.or_not_self, Bool.and_true,
      Option.isSome_eq_false_iff, Option.isNone_iff_eq_none] at hstays
    exact ⟨hstays, rfl⟩

/-- A row that a snapshot of a listing leaves without an event of the listing is anonymous. -/
theorem isAnonymous_of_left (hlisting : Listing ark events) (hsnapshot : SnapshotOf rt calendarId events fetchResult)
    (hvalid : Valid eventStateIndexes table) (hcalendar : ∀ entry ∈ table, entry.content.calendarId = calendarId)
    (hentry : entry ∈ table)
    (hkept : entry.id ∉ eventStateIdsToRemove fetchResult (parseStoredSourceEventStatesRecoveringInvalid ark (readEventStates table calendarId)))
    (hno : ∀ e ∈ fetchResult.events, entry.content.sourceEventId ≠ e.sourceEventId) :
    IsAnonymous entry ∧ (entryExisting ark entry).isSome := by
  have hids := nodup_ids_readEventStates hvalid hcalendar
  have hrow := mem_readEventStates hcalendar hentry
  have hlisted : ∀ e ∈ fetchResult.events, (truthy e.sourceEventId).isSome := fun e he =>
    hlisting.providerId e ((hsnapshot.mem_events e).1 he)
  have hunlisted : ∀ id, truthy entry.content.sourceEventId = some id →
      ∀ e ∈ fetchResult.events, truthy e.sourceEventId ≠ some id := by
    intro id hid e he heq
    refine hno e he ?_
    rw [(truthy_eq_some_iff.1 hid).1, (truthy_eq_some_iff.1 heq).1]
  cases hparse : entryExisting ark entry with
  | none =>
    obtain ⟨failure, hfailure, hevent, hid⟩ := exists_failure_parseRecovering hrow hparse
    refine absurd ?_ hkept
    rw [eventStateIdsToRemove, List.mem_eraseDups]
    refine List.mem_append_left _ (List.mem_append_left _ ?_)
    have hmem := mem_buildInvalidStoredEventIdsToRemove hfailure hlisted
      (by rwa [hevent])
    rwa [hid] at hmem
  | some existing =>
    have hcolumns := parseStoredSourceEventState_ok (parsedRow_eq_some_iff.1 hparse)
    have hprovider : existing.sourceEventId = entry.content.sourceEventId := hcolumns.2.1
    have hstays : isRemovedBySnapshot (deduplicateIncomingEvents fetchResult.events) existing =
        false := eq_false_of_ne_true fun hremoved => hkept
      ((mem_eventStateIdsToRemove_snapshot_iff hids hsnapshot.isSnapshot hrow hparse).2 hremoved)
    have hnone := uid_eq_none_of_stays hlisted (by rwa [hprovider]) hstays
    rw [hprovider, entryExisting_uid hparse] at hnone
    exact ⟨hnone, rfl⟩

/-- **A snapshot of a listing** makes any rows reflect it. -/
theorem holdsListing_snapshot (hfresh : ∀ ids, fresh ids ∉ ids) (hhost : rt.host.StableStringify)
    (hvalid : Valid eventStateIndexes table)
    (hcalendar : ∀ entry ∈ table, entry.content.calendarId = calendarId)
    (hlisting : Listing ark events) (hsnapshot : SnapshotOf rt calendarId events fetchResult) :
    ∃ table', ingestCalendar fresh rt ark calendarId table fetchResult = .ok table' ∧
      HoldsListing rt.host ark calendarId table' events := by
  have hkeeps : ∀ entry ∈ table, ∀ e ∈ fetchResult.events, HoldsEvent rt.host ark entry e →
      entry.id ∉ eventStateIdsToRemove fetchResult
        (parseStoredSourceEventStatesRecoveringInvalid ark
          (readEventStates table calendarId)) := by
    intro entry hentry e he hholds hremoved
    obtain ⟨existing, hparse, hsame⟩ := hholds.same hhost
    obtain ⟨id, htruthy, -⟩ := hlisting.exists_id ((hsnapshot.mem_events e).1 he)
    have hid : truthy existing.sourceEventId = some id :=
      (truthy_eq_of_getD_eq hsame.providerId).trans htruthy
    have hgone := (mem_eventStateIdsToRemove_snapshot_iff (nodup_ids_readEventStates hvalid
      hcalendar) hsnapshot.isSnapshot (mem_readEventStates hcalendar hentry) hparse).1 hremoved
    rw [isRemovedBySnapshot, hid] at hgone
    simp only [Bool.not_eq_true', List.contains_eq_mem, decide_eq_false_iff_not] at hgone
    exact hgone (mem_incomingProviderIds.2 ⟨e, he, htruthy⟩)
  obtain ⟨table', hrun, hflushed⟩ := flushedFetch_of_keeps hfresh hhost hvalid hcalendar hlisting
    (fun e => (hsnapshot.mem_events e).1) (fetchResult.isDeltaSync.getD false) hkeeps
  have hcases : ∀ entry ∈ table', (∃ e ∈ events, HoldsEvent rt.host ark entry e) ∨
      IsAnonymous entry ∧ (entryExisting ark entry).isSome := by
    intro entry hentry
    rcases hflushed.rows entry hentry with ⟨e, he, hholds⟩ | ⟨hold, hkept, hno⟩
    · exact Or.inl ⟨e, (hsnapshot.mem_events e).1 he, hholds⟩
    · exact Or.inr (isAnonymous_of_left hlisting hsnapshot hvalid hcalendar hold hkept hno)
  refine ⟨table', ?_, hflushed.valid, hflushed.calendar, ?_, ?_, ?_⟩
  · have hparses : fetchResult.isDeltaSync.getD false = true →
        (parseStoredSourceEventStatesRecoveringInvalid ark
          (readEventStates table calendarId)).failures = [] := fun hdelta => by
      rw [hsnapshot.isSnapshot] at hdelta
      cases hdelta
    rw [ingestCalendar_eq hsnapshot.toComparedFetch hparses, hrun]
    rfl
  · intro entry hentry
    rcases hcases entry hentry with ⟨e, -, hholds⟩ | ⟨-, hparse⟩
    · obtain ⟨existing, hparse, -⟩ := hholds.same hhost
      rw [hparse]
      rfl
    · exact hparse
  · intro entry hentry
    exact (hcases entry hentry).symm.imp And.left id
  · exact fun e he => hflushed.events e ((hsnapshot.mem_events e).2 he)

/-- A delta deletes no row that holds an event of the next listing, unless the event is changed and
filtered out. -/
theorem not_mem_eventStateIdsToRemove_delta (hhost : rt.host.StableStringify) (hlisting : Listing ark next)
    (hdelta : ReportsDelta rt calendarId previous next fetchResult) (hvalid : Valid eventStateIndexes table)
    (hcalendar : ∀ entry ∈ table, entry.content.calendarId = calendarId) (hentry : entry ∈ table) {e : SourceEvent}
    (he : e ∈ next) (hholds : HoldsEvent rt.host ark entry e) : entry.id ∉ eventStateIdsToRemove fetchResult
      (parseStoredSourceEventStatesRecoveringInvalid ark (readEventStates table calendarId)) := by
  intro hremoved
  obtain ⟨existing, hparse, hsame⟩ := hholds.same hhost
  obtain ⟨id, htruthy, hid⟩ := hlisting.exists_id he
  have hexisting : truthy existing.sourceEventId = some id :=
    (truthy_eq_of_getD_eq hsame.providerId).trans htruthy
  rcases (mem_eventStateIdsToRemove_delta_iff (nodup_ids_readEventStates hvalid hcalendar)
    hdelta.isDelta (mem_readEventStates hcalendar hentry) hparse).1 hremoved with
    ⟨w, hw, hrule, houtside⟩ | hgone
  · have hrule' : e.recurrenceRule = none := (hsame.rule_isNone hhost).1 hrule
    rw [hsame.startTime, hsame.endTime] at houtside
    have hinside := hdelta.window w hw e he hrule'
    exact absurd (hinside.symm.trans houtside) (by decide)
  · rw [isRemovedByDelta, hexisting] at hgone
    simp only [Bool.or_eq_true, Bool.and_eq_true, Bool.not_eq_true', List.contains_eq_mem,
      decide_eq_true_eq, decide_eq_false_iff_not] at hgone
    rcases hgone with hcancelled | ⟨hchanged, hmissing⟩
    · exact hdelta.cancelledIds id hcancelled e he hid
    · rcases hdelta.changedIds id hchanged with ⟨e', he', hid'⟩ | hgone
      · have hsameEvent := hlisting.eq_of_id he (hdelta.listed e' he') (hid.trans hid'.symm)
        rw [← hsameEvent] at he'
        exact hmissing (mem_incomingProviderIds.2 ⟨e, he', htruthy⟩)
      · exact hgone e he hid

theorem mem_next_of_kept (hhost : rt.host.StableStringify) (hprevious : Listing ark previous)
    (hdelta : ReportsDelta rt calendarId previous next fetchResult)
    (h : HoldsListing rt.host ark calendarId table previous) (hentry : entry ∈ table) {e : SourceEvent}
    (he : e ∈ previous) (hholds : HoldsEvent rt.host ark entry e)
    (hkept : entry.id ∉ eventStateIdsToRemove fetchResult (parseStoredSourceEventStatesRecoveringInvalid ark (readEventStates table calendarId)))
    (hno : ∀ e ∈ fetchResult.events, entry.content.sourceEventId ≠ e.sourceEventId) : e ∈ next := by
  obtain ⟨existing, hparse, hsame⟩ := hholds.same hhost
  obtain ⟨id, htruthy, hid⟩ := hprevious.exists_id he
  have hentryId := hholds.sourceEventId hhost (hprevious.providerId e he)
  rw [hentryId, hid] at hno
  have hexisting : truthy existing.sourceEventId = some id :=
    (truthy_eq_of_getD_eq hsame.providerId).trans htruthy
  have hkept' := fun hgone => hkept
    ((mem_eventStateIdsToRemove_delta_iff (nodup_ids_readEventStates h.valid h.calendar)
      hdelta.isDelta (mem_readEventStates h.calendar hentry) hparse).2 hgone)
  have hstays : ¬ isRemovedByDelta (deduplicateIncomingEvents fetchResult.events)
      (fetchResult.changedEventIds.getD []) (fetchResult.cancelledEventIds.getD [])
      existing = true := fun hgone => hkept' (Or.inr hgone)
  have hmissing : id ∉ incomingProviderIds (deduplicateIncomingEvents fetchResult.events) := by
    intro hmem
    obtain ⟨e', he', hid'⟩ := mem_incomingProviderIds.1 hmem
    exact hno e' he' (truthy_eq_some_iff.1 hid').1.symm
  rw [isRemovedByDelta, hexisting] at hstays
  simp only [Bool.or_eq_true, Bool.and_eq_true, Bool.not_eq_true', List.contains_eq_mem,
    decide_eq_true_eq, decide_eq_false_iff_not, hmissing, not_false_eq_true, and_true,
    not_or] at hstays
  by_contra hgone
  by_cases hlisted : ∃ e' ∈ next, e'.sourceEventId = some id
  · obtain ⟨e', he', hid'⟩ := hlisted
    rcases hdelta.reported e' he' with hold | hfetched
    · rw [hprevious.eq_of_id he hold (hid.trans hid'.symm)] at hgone
      exact hgone he'
    · exact hno e' hfetched hid'.symm
  · push Not at hlisted
    rcases hdelta.gone e he id hid hlisted with hchanged | hcancelled | ⟨w, hw, hrule, houtside⟩
    · exact hstays.2 hchanged
    · exact hstays.1 hcancelled
    · refine hkept' (Or.inl ⟨w, hw, (hsame.rule_isNone hhost).2 hrule, ?_⟩)
      rw [hsame.startTime, hsame.endTime]
      exact houtside

/-- **A delta** takes rows that reflect a listing to rows that reflect the next. -/
theorem holdsListing_delta (hfresh : ∀ ids, fresh ids ∉ ids) (hhost : rt.host.StableStringify)
    (hprevious : Listing ark previous) (hlisting : Listing ark next)
    (hdelta : ReportsDelta rt calendarId previous next fetchResult)
    (h : HoldsListing rt.host ark calendarId table previous) :
    ∃ table', ingestCalendar fresh rt ark calendarId table fetchResult = .ok table' ∧
      HoldsListing rt.host ark calendarId table' next := by
  have hparses := failures_eq_nil h.calendar h.parses
  set removed := eventStateIdsToRemove fetchResult
    (parseStoredSourceEventStatesRecoveringInvalid ark (readEventStates table calendarId))
  have hstays : ∀ entry ∈ table, ∀ e ∈ next, HoldsEvent rt.host ark entry e →
      entry.id ∉ removed := fun entry hentry e he =>
    not_mem_eventStateIdsToRemove_delta hhost hlisting hdelta h.valid h.calendar hentry he
  obtain ⟨table', hrun, hflushed⟩ := flushedFetch_of_keeps hfresh hhost h.valid h.calendar hlisting
    hdelta.listed (fetchResult.isDeltaSync.getD false)
    (fun entry hentry e he => hstays entry hentry e (hdelta.listed e he))
  have hrows : ∀ entry ∈ table', entry ∈ table ∧ IsAnonymous entry ∨
      ∃ e ∈ next, HoldsEvent rt.host ark entry e := by
    intro entry hentry
    rcases hflushed.rows entry hentry with ⟨e, he, hholds⟩ | ⟨hold, hkept, hno⟩
    · exact Or.inr ⟨e, hdelta.listed e he, hholds⟩
    · rcases h.rows entry hold with hanonymous | ⟨e, he, hholds⟩
      · exact Or.inl ⟨hold, hanonymous⟩
      · refine Or.inr ⟨e, ?_, hholds⟩
        exact mem_next_of_kept hhost hprevious hdelta h hold he hholds hkept hno
  refine ⟨table', ?_, hflushed.valid, hflushed.calendar, ?_, ?_, ?_⟩
  · rw [ingestCalendar_eq hdelta.toComparedFetch fun _ => hparses, hrun]
    rfl
  · intro entry hentry
    rcases hrows entry hentry with ⟨hold, -⟩ | ⟨e, -, hholds⟩
    · exact h.parses entry hold
    · obtain ⟨existing, hparse, -⟩ := hholds.same hhost
      rw [hparse]
      rfl
  · exact fun entry hentry => (hrows entry hentry).imp And.right id
  · intro e he
    by_cases hfetched : e ∈ fetchResult.events
    · exact hflushed.events e hfetched
    · have hprev := (hdelta.reported e he).resolve_right hfetched
      obtain ⟨entry, hentry, hholds⟩ := h.events e hprev
      refine ⟨entry, hflushed.kept entry hentry (hstays entry hentry e he hholds) ?_, hholds⟩
      intro e' he' hid
      rw [hholds.sourceEventId hhost (hlisting.providerId e he)] at hid
      rw [hlisting.eq_of_id he (hdelta.listed e' he') hid] at hfetched
      exact hfetched he'

end Steps

/-! ## Runs of deltas -/

inductive DeltaRun (rt : Runtime) (ark : Arktype) (calendarId : String) :
    List SourceEvent → List FetchEventsResult → List SourceEvent → Prop
  | nil {events : List SourceEvent} : DeltaRun rt ark calendarId events [] events
  | cons {previous next last : List SourceEvent} {fetchResult : FetchEventsResult}
      {fetchResults : List FetchEventsResult} (listing : Listing ark next)
      (delta : DeltaOf rt calendarId previous next fetchResult)
      (rest : DeltaRun rt ark calendarId next fetchResults last) :
      DeltaRun rt ark calendarId previous (fetchResult :: fetchResults) last

def storedIdentityKeys (host : Host) (ark : Arktype) (table : EventStatesTable) : List String :=
  table.filterMap (entryIdentityKey host ark ⟨true⟩)

section Runs

variable {fresh : List String → String} {rt : Runtime} {ark : Arktype} {calendarId : String}
  {table : EventStatesTable} {events first last : List SourceEvent}
  {fetchResults : List FetchEventsResult}

/-- **A run of deltas** takes rows that reflect the first listing to rows that reflect the last. -/
theorem holdsListing_deltas (hfresh : ∀ ids, fresh ids ∉ ids) (hhost : rt.host.StableStringify)
    (hfirst : Listing ark first) (hrun : DeltaRun rt ark calendarId first fetchResults last)
    (h : HoldsListing rt.host ark calendarId table first) :
    ∃ table', fetchResults.foldlM (ingestCalendar fresh rt ark calendarId) table = .ok table' ∧
      Listing ark last ∧ HoldsListing rt.host ark calendarId table' last := by
  induction hrun generalizing table with
  | nil => exact ⟨table, rfl, hfirst, h⟩
  | cons listing delta rest ih =>
    obtain ⟨table', hstep, hheld⟩ := holdsListing_delta hfresh hhost hfirst listing delta.reports h
    obtain ⟨table'', hrest, hlast⟩ := ih listing hheld
    refine ⟨table'', ?_, hlast⟩
    rw [List.foldlM_cons, hstep]
    exact hrest

/-- **The identity keys of rows that reflect a listing** are those of its events. -/
theorem HoldsListing.storedIdentityKeys_perm {host : Host} (hhost : host.StableStringify)
    (hlisting : Listing ark events) (h : HoldsListing host ark calendarId table events) :
    (storedIdentityKeys host ark table).Perm (events.map fun e =>
      buildSourceEventIdentityKey host e.asStored.identityInput ⟨true⟩) := by
  have hholds : ∀ entry ∈ table, ∀ k, entryIdentityKey host ark ⟨true⟩ entry = some k →
      ∃ e ∈ events, HoldsEvent host ark entry e := by
    intro entry hentry k hk
    rcases h.rows entry hentry with hanonymous | hholds
    · obtain ⟨existing, hparse, hkey⟩ := entryIdentityKey_eq_some_iff.1 hk
      obtain ⟨uid, huid, -⟩ := Option.map_eq_some_iff.1 hkey
      rw [entryExisting_uid hparse, hanonymous.1] at huid
      cases huid
    · exact hholds
  have hrows : (storedIdentityKeys host ark table).Nodup := by
    rw [storedIdentityKeys, List.Nodup, List.pairwise_filterMap]
    refine (List.Nodup.of_map _ h.valid.ids).imp_of_mem fun {entry entry'} hentry hentry' hne => ?_
    rintro k hk k' hk' rfl
    obtain ⟨e, he, hright⟩ := hholds entry hentry k hk
    have hright' : HoldsEvent host ark entry' e := (hk'.trans hk.symm).trans hright
    have hprovider := hlisting.providerId e he
    have hkey := hright.key_eq hhost hprovider (h.calendar entry hentry)
    have hkey' := hright'.key_eq hhost hprovider (h.calendar entry' hentry')
    rw [indexKey_buildEventStateInsertRow calendarId (hlisting.sourceEventId_ne_empty he)]
      at hkey hkey'
    exact hne (h.valid.eq_of_key hentry hentry' hkey hkey')
  have hevents : (events.map fun e =>
      buildSourceEventIdentityKey host e.asStored.identityInput ⟨true⟩).Nodup := by
    refine (List.Nodup.of_map _ hlisting.distinct).map_on fun e he e' he' heq => ?_
    obtain ⟨entry, hentry, hright⟩ := h.events e he
    have hright' : HoldsEvent host ark entry e' := hright.trans (congrArg some heq)
    refine hlisting.eq_of_id he he' ?_
    rw [← hright.sourceEventId hhost (hlisting.providerId e he),
      hright'.sourceEventId hhost (hlisting.providerId e' he')]
  refine (List.perm_ext_iff_of_nodup hrows hevents).2 fun k => ?_
  rw [storedIdentityKeys, List.mem_filterMap, List.mem_map]
  constructor
  · rintro ⟨entry, hentry, hk⟩
    obtain ⟨e, he, hright⟩ := hholds entry hentry k hk
    exact ⟨e, he, Option.some.inj (hright.symm.trans hk)⟩
  · rintro ⟨e, he, rfl⟩
    obtain ⟨entry, hentry, hright⟩ := h.events e he
    exact ⟨entry, hentry, hright⟩

/-- **Deltas agree with snapshots.** The rows after a snapshot and a run of deltas have the identity
keys that a snapshot of the last listing leaves, from any rows. -/
theorem ingestDeltas_agree (hfresh : ∀ ids, fresh ids ∉ ids) (hhost : rt.host.StableStringify)
    (hfirst : Listing ark first) {fetchResult anew : FetchEventsResult}
    (hsnapshot : SnapshotOf rt calendarId first fetchResult)
    (hrun : DeltaRun rt ark calendarId first fetchResults last)
    (hanew : SnapshotOf rt calendarId last anew) {table other : EventStatesTable}
    (hvalid : Valid eventStateIndexes table)
    (hcalendar : ∀ entry ∈ table, entry.content.calendarId = calendarId)
    (hvalid' : Valid eventStateIndexes other)
    (hcalendar' : ∀ entry ∈ other, entry.content.calendarId = calendarId) :
    ∃ followed read,
      (fetchResult :: fetchResults).foldlM (ingestCalendar fresh rt ark calendarId) table =
        .ok followed ∧
      ingestCalendar fresh rt ark calendarId other anew = .ok read ∧
      (storedIdentityKeys rt.host ark followed).Perm (storedIdentityKeys rt.host ark read) := by
  obtain ⟨start, hstart, hheld⟩ :=
    holdsListing_snapshot hfresh hhost hvalid hcalendar hfirst hsnapshot
  obtain ⟨followed, hfollowed, hlast, hheldLast⟩ :=
    holdsListing_deltas hfresh hhost hfirst hrun hheld
  obtain ⟨read, hread, hheldRead⟩ :=
    holdsListing_snapshot hfresh hhost hvalid' hcalendar' hlast hanew
  refine ⟨followed, read, ?_, hread, ?_⟩
  · rw [List.foldlM_cons, hstart]
    exact hfollowed
  · exact (hheldLast.storedIdentityKeys_perm hhost hlast).trans
      (hheldRead.storedIdentityKeys_perm hhost hlast).symm

end Runs

namespace Example

def providerMeeting (sourceEventId : String) : SourceEvent :=
  { hourMeeting with sourceEventId := some sourceEventId }

def renamedProviderMeeting : SourceEvent := { providerMeeting "a" with title := some "Moved" }

def snapshotFetch (events : List SourceEvent) : FetchEventsResult := { events }

/-- The first meeting is renamed, the second is cancelled. -/
def deltaFetch : FetchEventsResult where
  events := [renamedProviderMeeting]
  isDeltaSync := some true
  changedEventIds := some ["a"]
  cancelledEventIds := some ["b"]

theorem listing_meetings {events : List SourceEvent} (hids : (events.map (·.sourceEventId)).Nodup)
    (hevents : ∀ e ∈ events, (truthy e.sourceEventId).isSome ∧ e.isAllDay.isSome ∧
      e.storedDates = []) : Listing arktype events where
  providerId e he := (hevents e he).1
  distinct := hids
  allDay e he := (hevents e he).2.1
  read e he t ht := by
    rw [(hevents e he).2.2] at ht
    cases ht

theorem snapshotOf_snapshotFetch {events : List SourceEvent}
    (hingested : ingestedSourceEvents ingestRuntime "calendar" (snapshotFetch events) =
      .ok events) : SnapshotOf ingestRuntime "calendar" events (snapshotFetch events) where
  ingested := hingested
  changed h := by cases h
  incremental h := by cases h
  isSnapshot := rfl
  mem_events _ := Iff.rfl

theorem deltaOf_deltaFetch : DeltaOf ingestRuntime "calendar"
    [providerMeeting "a", providerMeeting "b"] [renamedProviderMeeting] deltaFetch where
  ingested := rfl
  changed := by decide
  incremental := by decide
  isDelta := rfl
  listed _ he := he
  reported _ he := Or.inr he
  changedIds id hid := Or.inl ⟨renamedProviderMeeting, List.mem_singleton_self _,
    congrArg some (List.mem_singleton.1 hid).symm⟩
  changed_events e he id hid := by
    obtain rfl := List.mem_singleton.1 he
    obtain rfl := Option.some.inj hid
    exact List.mem_singleton_self _
  mem_cancelled id := by
    constructor
    · intro hid
      obtain rfl := List.mem_singleton.1 hid
      decide
    · rintro ⟨⟨e, he, hid⟩, -, hchanged⟩
      rcases List.mem_pair.1 he with rfl | rfl
      · obtain rfl := Option.some.inj hid
        exact absurd (List.mem_singleton_self _) hchanged
      · obtain rfl := Option.some.inj hid
        exact List.mem_singleton_self _
  window w hw := by cases hw

end Example

theorem ingestDeltas_agree_example :
    ∃ followed read,
      [Example.snapshotFetch [Example.providerMeeting "a", Example.providerMeeting "b"],
          Example.deltaFetch].foldlM
        (ingestCalendar Example.longerId Example.ingestRuntime Example.arktype "calendar") [] =
          .ok followed ∧
      ingestCalendar Example.longerId Example.ingestRuntime Example.arktype "calendar"
        [Example.meetingRow none] (Example.snapshotFetch [Example.renamedProviderMeeting]) =
          .ok read ∧
      (storedIdentityKeys Example.printingHost Example.arktype followed).Perm
        (storedIdentityKeys Example.printingHost Example.arktype read) :=
  ingestDeltas_agree Example.longerId_not_mem Example.printingHost_stableStringify
    (Example.listing_meetings (by decide) (by decide))
    (Example.snapshotOf_snapshotFetch rfl)
    (.cons (Example.listing_meetings (by decide) (by decide)) Example.deltaOf_deltaFetch .nil)
    (Example.snapshotOf_snapshotFetch rfl) ⟨List.nodup_nil, List.nodup_nil⟩
    (fun _ he => by cases he) (Example.storedCalendar_meetingRow none).valid
    (Example.storedCalendar_meetingRow none).calendar

end Keeper
