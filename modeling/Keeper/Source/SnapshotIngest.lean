import Keeper.Source.Identity
import Mathlib.Algebra.Order.BigOperators.Group.List

/-!
# A snapshot ingestion makes the store equal the feed

The rows of one calendar after a snapshot's deletes and upserts, for a feed whose events all carry a
provider id or all lack one.

* `isRemovedBySnapshot_eq_false_iff`: a stored row stays iff the feed has an event under its key.
* `SnapshotFeed.diff`: what is deleted and what is added make up a diff of the table.
* `flushSnapshot_mirrors`: the rows are then those of the deduplicated feed, what was right is left
  alone, and a second diff asks for nothing.
-/

namespace Keeper

open SqlTable

/-! ## Rows as they are read -/

section Reading

variable (host : Host) (ark : Arktype)

def entryExisting (entry : Entry String EventStateInsertRow) : Option ExistingSourceEventState :=
  parsedRow ark (entry.content.stored entry.id)

def entryIdentityKey (options : SourceEventIdentityOptions)
    (entry : Entry String EventStateInsertRow) : Option String :=
  (entryExisting ark entry).bind (existingIdentityKey host options)

/-- The stored rows of a calendar that parse. -/
def readExistingEvents (table : EventStatesTable) (calendarId : String) :
    List ExistingSourceEventState :=
  (parseStoredSourceEventStatesRecoveringInvalid ark (readEventStates table calendarId)).events

variable {host ark}

variable {entry : Entry String EventStateInsertRow}

theorem entryIdentityKey_eq_some_iff {options : SourceEventIdentityOptions} {k : String} :
    entryIdentityKey host ark options entry = some k ↔
      ∃ existing, entryExisting ark entry = some existing ∧
        existingIdentityKey host options existing = some k :=
  Option.bind_eq_some_iff

theorem readExistingEvents_eq {table : EventStatesTable} {calendarId : String}
    (h : ∀ entry ∈ table, entry.content.calendarId = calendarId) :
    readExistingEvents ark table calendarId = table.filterMap (entryExisting ark) := by
  have hall : (table.filter fun row => row.content.calendarId = calendarId) = table :=
    List.filter_eq_self.2 fun entry he => by simpa using h entry he
  rw [readExistingEvents, events_parseRecovering, readEventStates, hall, List.filterMap_map]
  rfl

theorem entryExisting_id {existing : ExistingSourceEventState} (h : entryExisting ark entry = some existing) :
    existing.id = entry.id :=
  (parseStoredSourceEventState_ok (parsedRow_eq_some_iff.1 h)).1

theorem entryExisting_uid {existing : ExistingSourceEventState} (h : entryExisting ark entry = some existing) :
    existing.sourceEventUid = entry.content.sourceEventUid :=
  (parseStoredSourceEventState_ok (parsedRow_eq_some_iff.1 h)).2.2.1

def HasIdentityOf (host : Host) (ark : Arktype) (options : SourceEventIdentityOptions)
    (entry : Entry String EventStateInsertRow) (e : SourceEvent) : Prop :=
  entryIdentityKey host ark options entry =
    some (buildSourceEventIdentityKey host e.identityInput options)

theorem entryExisting_build {event : SourceEvent} (hread : event.ReadBy ark)
    (calendarId id : String) :
    entryExisting ark ⟨id, buildEventStateInsertRow calendarId event⟩ =
      some (event.asStored.existingState id) :=
  parsedRow_stored hread calendarId id

end Reading

/-! ## Feeds and stores -/

/-- A feed whose events all carry a provider id or all lack one, are stored without loss and read
back. -/
structure SnapshotFeed (ark : Arktype) (events : List SourceEvent) : Prop where
  uniform : (∀ e ∈ events, (truthy e.sourceEventId).isSome) ∨ ∀ e ∈ events, e.sourceEventId = none
  allDay : ∀ e ∈ events, e.isAllDay.isSome
  duration : ∀ e ∈ events, e.recurrenceDuration.isSome → e.recurrenceRule.isSome
  read : ∀ e ∈ events, e.ReadBy ark

/-- The rows of a calendar: they satisfy the unique indexes, parse and have a uid. -/
structure StoredCalendar (ark : Arktype) (calendarId : String) (table : EventStatesTable) :
    Prop where
  valid : Valid eventStateIndexes table
  calendar : ∀ entry ∈ table, entry.content.calendarId = calendarId
  parses : ∀ entry ∈ table, (entryExisting ark entry).isSome
  uid : ∀ entry ∈ table, entry.content.sourceEventUid.isSome

/-- Rows of a calendar none of which has the empty text as its provider id: the index counts such an
id as present, the diff as missing. -/
structure KeyedStore (ark : Arktype) (calendarId : String) (table : EventStatesTable) : Prop
    extends StoredCalendar ark calendarId table where
  providerId : ∀ entry ∈ table, entry.content.sourceEventId ≠ some ""

/-- The rows are those of the deduplicated feed, one for each event, with its identity key. -/
def MirrorsFeed (host : Host) (ark : Arktype) (table : EventStatesTable)
    (events : List SourceEvent) : Prop :=
  (table.map (entryIdentityKey host ark {})).Perm ((deduplicateIncomingEvents events).map fun e =>
    some (buildSourceEventIdentityKey host e.identityInput {}))

section Snapshot

variable {host : Host} {ark : Arktype} {events : List SourceEvent} {calendarId : String}
  {table : EventStatesTable} {e : SourceEvent}

variable {e : SourceEvent} {entry : Entry String EventStateInsertRow}

theorem SnapshotFeed.providerId_ne_empty (h : SnapshotFeed ark events) (he : e ∈ events) :
    e.sourceEventId ≠ some "" := by
  rcases h.uniform with hall | hnone
  · intro heq
    have hsome := hall e he
    rw [heq] at hsome
    exact absurd hsome (by decide)
  · rw [hnone e he]
    exact fun heq => by cases heq

/-- **A stored row stays** iff the feed has an event under its key. -/
theorem isRemovedBySnapshot_eq_false_iff
    (huniform : (∀ e ∈ events, (truthy e.sourceEventId).isSome) ∨
      ∀ e ∈ events, e.sourceEventId = none)
    {existing : ExistingSourceEventState} (huid : existing.sourceEventUid.isSome) :
    isRemovedBySnapshot (deduplicateIncomingEvents events) existing = false ↔
      ∃ e ∈ deduplicateIncomingEvents events, e.storageIdentity = existing.storageIdentity := by
  unfold isRemovedBySnapshot ExistingSourceEventState.storageIdentity
  cases truthy existing.sourceEventId with
  | some sourceEventId =>
    simp only [Bool.not_eq_false', List.contains_eq_mem, decide_eq_true_eq]
    rw [incomingProviderIds, List.mem_filterMap]
    refine exists_congr fun e => and_congr_right fun _ => ?_
    exact SourceEvent.storageIdentity_eq_provider_iff.symm
  | none =>
    have hkey : ∀ e : SourceEvent, e.instanceKey = resolveExistingSourceEventInstanceKey existing ↔
        e.slot = instanceSlot (existing.sourceEventUid.getD "") existing.startTime
          existing.endTime existing.recurrenceId := by
      intro e
      rw [SourceEvent.instanceKey, resolveExistingSourceEventInstanceKey,
        buildSourceEventInstanceKey_eq_iff]
      rfl
    simp only [huid, Bool.true_and, Bool.or_eq_false_iff, Bool.not_eq_false', List.contains_eq_mem,
      decide_eq_false_iff_not, decide_eq_true_eq, providerBackedStorageIdentities, List.mem_map,
      List.mem_filter, hkey, SourceEvent.storageIdentity_eq_slot_iff]
    constructor
    · rintro ⟨hprovider, e, he, hslot⟩
      refine ⟨e, he, ?_, hslot⟩
      by_contra hsome
      exact hprovider ⟨e, ⟨he, Option.isSome_iff_ne_none.2 hsome⟩, hslot⟩
    · rintro ⟨e, he, hnone, hslot⟩
      refine ⟨?_, e, he, hslot⟩
      rintro ⟨e', ⟨he', hsome⟩, -⟩
      rcases huniform with hall | hlegacy
      · have hall' := hall e (mem_of_mem_deduplicateIncomingEvents he)
        rw [hnone] at hall'
        cases hall'
      · rw [hlegacy e' (mem_of_mem_deduplicateIncomingEvents he')] at hsome
        cases hsome

theorem mem_buildSourceEventStateIdsToRemove_iff (hstored : KeyedStore ark calendarId table) (he : entry ∈ table)
    {existing : ExistingSourceEventState} (hparse : entryExisting ark entry = some existing) :
    entry.id ∈ buildSourceEventStateIdsToRemove (readExistingEvents ark table calendarId) events
        {} ↔
      isRemovedBySnapshot (deduplicateIncomingEvents events) existing = true := by
  rw [readExistingEvents_eq hstored.calendar]
  simp only [buildSourceEventStateIdsToRemove, Bool.false_eq_true, if_false, List.mem_map,
    List.mem_filter, List.mem_filterMap]
  constructor
  · rintro ⟨existing', ⟨⟨entry', he', hparse'⟩, hremoved⟩, hid⟩
    have hsame : entry' = entry :=
      hstored.valid.eq_of_id he' he (by rw [← entryExisting_id hparse', hid])
    rw [hsame, hparse] at hparse'
    rwa [Option.some.inj hparse']
  · exact fun hremoved => ⟨existing, ⟨⟨entry, he, hparse⟩, hremoved⟩, entryExisting_id hparse⟩

/-- **An event is added** iff no row has its identity key. -/
theorem mem_buildSourceEventsToAdd_iff (hcalendar : ∀ entry ∈ table, entry.content.calendarId = calendarId)
    {options : SourceEventDiffOptions} :
    e ∈ buildSourceEventsToAdd host (readExistingEvents ark table calendarId) events options ↔
      e ∈ deduplicateIncomingEvents events ∧
        ∀ entry ∈ table, ¬ HasIdentityOf host ark ⟨options.isDeltaSync⟩ entry e := by
  rw [readExistingEvents_eq hcalendar]
  simp only [buildSourceEventsToAdd, buildExistingEventIdentitySet, List.mem_filter,
    Bool.not_eq_true', List.contains_eq_mem, decide_eq_false_iff_not, List.mem_filterMap]
  refine and_congr_right fun _ => ⟨?_, ?_⟩
  · intro hno entry he hkey
    obtain ⟨existing, hparse, hkey⟩ := entryIdentityKey_eq_some_iff.1 hkey
    exact hno ⟨existing, ⟨entry, he, hparse⟩, hkey⟩
  · rintro hno ⟨existing, ⟨entry, he, hparse⟩, hkey⟩
    exact hno entry he (entryIdentityKey_eq_some_iff.2 ⟨existing, hparse, hkey⟩)

theorem HasIdentityOf.same (hhost : host.StableStringify) {options : SourceEventIdentityOptions}
    (h : HasIdentityOf host ark options entry e) : ∃ existing, entryExisting ark entry = some existing ∧
      SameIdentity host options existing e := by
  obtain ⟨existing, hparse, hkey⟩ := entryIdentityKey_eq_some_iff.1 h
  exact ⟨existing, hparse, sameIdentity_of_identityKey hhost hkey⟩

/-- A row with the identity key of an event has the index key of the event's row. -/
theorem HasIdentityOf.key_eq (hhost : host.StableStringify) {options : SourceEventIdentityOptions}
    (hcalendar : entry.content.calendarId = calendarId) (hentry : entry.content.sourceEventId ≠ some "")
    (he : e.sourceEventId ≠ some "") (h : HasIdentityOf host ark options entry e) :
    entry.key eventStateIndexes = (buildEventStateInsertRow calendarId e).indexKey := by
  obtain ⟨existing, hparse, hsame⟩ := h.same hhost
  have huid : entry.content.sourceEventUid.isSome := by
    rw [← entryExisting_uid hparse, hsame.uid]
    rfl
  have hkey := indexKey_parsedRow hparse hentry huid
  rw [hcalendar, hsame.storageIdentity] at hkey
  rw [indexKey_buildEventStateInsertRow calendarId he]
  exact hkey

theorem hasIdentityOf_build (hread : e.ReadBy ark) (hallDay : e.isAllDay.isSome)
    (hduration : e.recurrenceDuration.isSome → e.recurrenceRule.isSome)
    (options : SourceEventIdentityOptions) (id : String) :
    HasIdentityOf host ark options ⟨id, buildEventStateInsertRow calendarId e⟩ e := by
  have hkey := existingIdentityKey_existingState host hallDay id options
  have hparse := entryExisting_build hread calendarId id
  rw [SourceEvent.asStored_eq_self hduration] at hparse
  exact entryIdentityKey_eq_some_iff.2 ⟨_, hparse, hkey⟩

def flushSnapshot (fresh : List String → String) (host : Host) (ark : Arktype)
    (table : EventStatesTable) (calendarId : String) (events : List SourceEvent) :
    Except (UpsertError EventStateKey) EventStatesTable :=
  let existing := readExistingEvents ark table calendarId
  flushEventStates fresh table calendarId (buildSourceEventStateIdsToRemove existing events {})
    (buildSourceEventsToAdd host existing events {})

theorem nodup_indexKeys_deduplicateIncomingEvents (calendarId : String)
    (hne : ∀ e ∈ events, e.sourceEventId ≠ some "") :
    ((deduplicateIncomingEvents events).map fun e =>
      eventStateIndexes.key (buildEventStateInsertRow calendarId e)).Nodup := by
  have hkeys : ((deduplicateIncomingEvents events).map fun e =>
      eventStateIndexes.key (buildEventStateInsertRow calendarId e)) =
      ((deduplicateIncomingEvents events).map (·.storageIdentity)).map fun k =>
        some (storageIndexKey calendarId k) := by
    rw [List.map_map]
    refine List.map_congr_left fun e he => ?_
    exact indexKey_buildEventStateInsertRow calendarId
      (hne e (mem_of_mem_deduplicateIncomingEvents he))
  rw [hkeys]
  refine (nodup_deduplicateIncomingEvents events).map fun k k' heq => ?_
  exact storageIndexKey_injective calendarId (Option.some.inj heq)

/-- **The flush of a snapshot** follows a diff of the table against the deduplicated feed. -/
theorem SnapshotFeed.diff (hhost : host.StableStringify)
    (hstored : KeyedStore ark calendarId table) (hfeed : SnapshotFeed ark events) :
    Diff eventStateIndexes (HasIdentityOf host ark {}) (buildEventStateInsertRow calendarId) table
      (deleteEventStates table calendarId (buildSourceEventStateIdsToRemove
        (readExistingEvents ark table calendarId) events {}))
      (deduplicateIncomingEvents events)
      (buildSourceEventsToAdd host (readExistingEvents ark table calendarId) events {}) where
  valid := hstored.valid
  left entry hentry := List.mem_of_mem_filter hentry
  keyed e he := by
    have hne := hfeed.providerId_ne_empty (mem_of_mem_deduplicateIncomingEvents he)
    show ((buildEventStateInsertRow calendarId e).indexKey).isSome = true
    rw [indexKey_buildEventStateInsertRow calendarId hne]
    rfl
  distinct := nodup_indexKeys_deduplicateIncomingEvents calendarId fun _ =>
    hfeed.providerId_ne_empty
  key_eq entry hentry e he hright :=
    hright.key_eq hhost (hstored.calendar entry hentry) (hstored.providerId entry hentry)
      (hfeed.providerId_ne_empty (mem_of_mem_deduplicateIncomingEvents he))
  right_row e he id := by
    have hmem := mem_of_mem_deduplicateIncomingEvents he
    exact hasIdentityOf_build (hfeed.read e hmem) (hfeed.allDay e hmem) (hfeed.duration e hmem) {} id
  keeps entry hentry e he hright := by
    obtain ⟨existing, hparse, hsame⟩ := hright.same hhost
    have hstays := (isRemovedBySnapshot_eq_false_iff hfeed.uniform
      (by rw [hsame.uid]; rfl)).2 ⟨e, he, hsame.storageIdentity.symm⟩
    have hno := mt (mem_buildSourceEventStateIdsToRemove_iff hstored hentry hparse).1
      (by rw [hstays]; exact Bool.false_ne_true)
    exact mem_deleteEventStates.2 ⟨hentry, fun _ => hno⟩
  added_wanted e he := ((mem_buildSourceEventsToAdd_iff hstored.calendar).1 he).1
  exists_of_not_added e he hno := by
    by_contra hnone
    push Not at hnone
    exact hno ((mem_buildSourceEventsToAdd_iff hstored.calendar).2 ⟨he, hnone⟩)

theorem SnapshotFeed.exists_key_of_left (hstored : KeyedStore ark calendarId table) (hfeed : SnapshotFeed ark events)
    (hleft : entry ∈ deleteEventStates table calendarId (buildSourceEventStateIdsToRemove (readExistingEvents ark table calendarId) events {})) :
    ∃ e ∈ deduplicateIncomingEvents events, entry.key eventStateIndexes =
      eventStateIndexes.key (buildEventStateInsertRow calendarId e) := by
  obtain ⟨hentry, hkept⟩ := mem_deleteEventStates.1 hleft
  obtain ⟨existing, hparse⟩ := Option.isSome_iff_exists.1 (hstored.parses entry hentry)
  have huid := hstored.uid entry hentry
  have hstays : isRemovedBySnapshot (deduplicateIncomingEvents events) existing = false :=
    eq_false_of_ne_true fun hremoved => hkept (hstored.calendar entry hentry)
      ((mem_buildSourceEventStateIdsToRemove_iff hstored hentry hparse).2 hremoved)
  obtain ⟨e, he, hidentity⟩ := (isRemovedBySnapshot_eq_false_iff hfeed.uniform
    (by rwa [entryExisting_uid hparse])).1 hstays
  refine ⟨e, he, ?_⟩
  have hkey := indexKey_parsedRow hparse (hstored.providerId entry hentry) huid
  have hevent := indexKey_buildEventStateInsertRow calendarId
    (hfeed.providerId_ne_empty (mem_of_mem_deduplicateIncomingEvents he))
  rw [hstored.calendar entry hentry, ← hidentity] at hkey
  exact hkey.trans hevent.symm

theorem SnapshotFeed.keyedStore (hstored : KeyedStore ark calendarId table)
    (hfeed : SnapshotFeed ark events) {added : List SourceEvent} {kept table' : EventStatesTable}
    (hadded : ∀ e ∈ added, e ∈ events) (hkept : ∀ entry ∈ kept, entry ∈ table)
    (hup : Upserted eventStateIndexes kept (added.map (buildEventStateInsertRow calendarId))
      table') : KeyedStore ark calendarId table' := by
  have hcases : ∀ entry ∈ table', entry ∈ table ∨
      ∃ e ∈ events, entry.content = buildEventStateInsertRow calendarId e := by
    intro entry hentry
    rcases hup.only entry hentry with hrow | ⟨hleft, -⟩
    · obtain ⟨e, he, hcontent⟩ := List.mem_map.1 hrow
      exact Or.inr ⟨e, hadded e he, hcontent.symm⟩
    · exact Or.inl (hkept entry hleft)
  refine ⟨⟨hup.valid, ?_, ?_, ?_⟩, ?_⟩ <;> intro entry hentry <;>
    rcases hcases entry hentry with hold | ⟨e, he, hcontent⟩
  · exact hstored.calendar entry hold
  · rw [hcontent]
    rfl
  · exact hstored.parses entry hold
  · obtain ⟨id, content⟩ := entry
    subst hcontent
    rw [entryExisting_build (hfeed.read e he)]
    rfl
  · exact hstored.uid entry hold
  · rw [hcontent]
    rfl
  · exact hstored.providerId entry hold
  · rw [hcontent]
    exact hfeed.providerId_ne_empty he

theorem mirrorsFeed_of_right (hhost : host.StableStringify)
    (hstored : KeyedStore ark calendarId table) (hfeed : SnapshotFeed ark events)
    (hevents : ∀ e ∈ deduplicateIncomingEvents events, ∃ entry ∈ table,
      HasIdentityOf host ark {} entry e)
    (hrows : ∀ entry ∈ table, ∃ e ∈ deduplicateIncomingEvents events,
      HasIdentityOf host ark {} entry e) : MirrorsFeed host ark table events := by
  have hkey : ∀ entry ∈ table, ∀ e ∈ deduplicateIncomingEvents events,
      HasIdentityOf host ark {} entry e →
      entry.key eventStateIndexes = some (storageIndexKey calendarId e.storageIdentity) := by
    intro entry hentry e he hright
    have hne := hfeed.providerId_ne_empty (mem_of_mem_deduplicateIncomingEvents he)
    rw [hright.key_eq hhost (hstored.calendar entry hentry) (hstored.providerId entry hentry) hne]
    exact indexKey_buildEventStateInsertRow calendarId hne
  have hrowsNodup : (table.map (entryIdentityKey host ark {})).Nodup := by
    refine (List.Nodup.of_map _ hstored.valid.ids).map_on fun entry hentry entry' hentry' heq => ?_
    obtain ⟨e, he, hright⟩ := hrows entry hentry
    have hright' : HasIdentityOf host ark {} entry' e := heq.symm.trans hright
    exact hstored.valid.eq_of_key hentry hentry' (hkey entry hentry e he hright)
      (hkey entry' hentry' e he hright')
  have heventsNodup : ((deduplicateIncomingEvents events).map fun e =>
      some (buildSourceEventIdentityKey host e.identityInput {})).Nodup := by
    have hnodup := nodup_deduplicateIncomingEvents events
    refine (List.Nodup.of_map _ hnodup).map_on fun e he e' he' heq => ?_
    obtain ⟨entry, hentry, hright⟩ := hevents e he
    have hright' : HasIdentityOf host ark {} entry e' := hright.trans heq
    have hkeys := (hkey entry hentry e he hright).symm.trans (hkey entry hentry e' he' hright')
    exact List.inj_on_of_nodup_map hnodup he he'
      (storageIndexKey_injective calendarId (Option.some.inj hkeys))
  refine (List.perm_ext_iff_of_nodup hrowsNodup heventsNodup).2 fun k => ?_
  rw [List.mem_map, List.mem_map]
  constructor
  · rintro ⟨entry, hentry, rfl⟩
    obtain ⟨e, he, hright⟩ := hrows entry hentry
    exact ⟨e, he, hright.symm⟩
  · rintro ⟨e, he, rfl⟩
    obtain ⟨entry, hentry, hright⟩ := hevents e he
    exact ⟨entry, hentry, hright⟩

/-- What a snapshot's flush of a feed promises about the rows that it leaves. -/
structure ReflectsFeed (host : Host) (ark : Arktype) (calendarId : String)
    (table : EventStatesTable) (events : List SourceEvent) (table' : EventStatesTable) :
    Prop where
  mirrors : MirrorsFeed host ark table' events
  proposals : ∀ s ∈ insertStatements ((buildSourceEventsToAdd host
    (readExistingEvents ark table calendarId) events {}).map (buildEventStateInsertRow calendarId)),
      (s.rows.map (·.indexKey)).Nodup
  untouched : ∀ entry ∈ table, ∀ e ∈ deduplicateIncomingEvents events,
    HasIdentityOf host ark {} entry e → entry ∈ table' ∧
      entry.id ∉ buildSourceEventStateIdsToRemove (readExistingEvents ark table calendarId) events
        {} ∧
      e ∉ buildSourceEventsToAdd host (readExistingEvents ark table calendarId) events {}
  settled : buildSourceEventsToAdd host (readExistingEvents ark table' calendarId) events {} = [] ∧
    buildSourceEventStateIdsToRemove (readExistingEvents ark table' calendarId) events {} = []

/-- A snapshot's flush of a feed leaves a keyed store that reflects it. -/
theorem flushSnapshot_ok {fresh : List String → String} (hfresh : ∀ ids, fresh ids ∉ ids)
    (hhost : host.StableStringify) (hstored : KeyedStore ark calendarId table)
    (hfeed : SnapshotFeed ark events) :
    ∃ table', flushSnapshot fresh host ark table calendarId events = .ok table' ∧
      KeyedStore ark calendarId table' ∧ ReflectsFeed host ark calendarId table events table' := by
  have hdiff := hfeed.diff hhost hstored
  set removed := buildSourceEventStateIdsToRemove (readExistingEvents ark table calendarId) events {}
  set added := buildSourceEventsToAdd host (readExistingEvents ark table calendarId) events {}
  have hmem : ∀ e ∈ added, e ∈ events := fun e he =>
    mem_of_mem_deduplicateIncomingEvents (hdiff.added_wanted e he)
  have hkeys : (added.map fun e => (buildEventStateInsertRow calendarId e).indexKey).Nodup :=
    hdiff.distinct.sublist (List.filter_sublist.map _)
  obtain ⟨table', hrun, hup⟩ := flushEventStates_ok hfresh hstored.valid calendarId removed
    (fun e he => hfeed.providerId_ne_empty (hmem e he)) hkeys
  have hstored' := hfeed.keyedStore hstored hmem hdiff.left hup
  have hevents : ∀ e ∈ deduplicateIncomingEvents events, ∃ entry ∈ table',
      HasIdentityOf host ark {} entry e := fun e he => hdiff.exists_right hup he
  have hrows : ∀ entry ∈ table', ∃ e ∈ deduplicateIncomingEvents events,
      HasIdentityOf host ark {} entry e := by
    intro entry hentry
    rcases hdiff.right_or_left hup hentry with hright | ⟨hleft, hno⟩
    · exact hright
    · obtain ⟨e, he, hkey⟩ := hfeed.exists_key_of_left hstored hleft
      exact absurd hkey (hno e he)
  refine ⟨table', hrun, hstored', mirrorsFeed_of_right hhost hstored' hfeed hevents hrows, ?_, ?_, ?_, ?_⟩
  · exact fun s hs => nodup_keys_of_mem_insertStatements (by rwa [List.map_map]) hs
  · intro entry hentry e he hright
    have hno : e ∉ added := fun hmem =>
      ((mem_buildSourceEventsToAdd_iff hstored.calendar).1 hmem).2 entry hentry hright
    have hkept := mem_deleteEventStates.1 (hdiff.keeps entry hentry e he hright)
    exact ⟨hdiff.stays hup hentry he hno hright, hkept.2 (hstored.calendar entry hentry), hno⟩
  · refine List.eq_nil_iff_forall_not_mem.2 fun e he => ?_
    obtain ⟨hwanted, hno⟩ := (mem_buildSourceEventsToAdd_iff hstored'.calendar).1 he
    obtain ⟨entry, hentry, hright⟩ := hevents e hwanted
    exact hno entry hentry hright
  · rw [readExistingEvents_eq hstored'.calendar]
    simp only [buildSourceEventStateIdsToRemove, Bool.false_eq_true, if_false, List.map_eq_nil_iff,
      List.filter_eq_nil_iff, List.mem_filterMap]
    rintro existing ⟨entry, hentry, hparse⟩
    obtain ⟨e, he, hright⟩ := hrows entry hentry
    obtain ⟨existing', hparse', hsame⟩ := hright.same hhost
    obtain rfl := Option.some.inj (hparse.symm.trans hparse')
    have hstays := (isRemovedBySnapshot_eq_false_iff hfeed.uniform
      (by rw [hsame.uid]; rfl)).2 ⟨e, he, hsame.storageIdentity.symm⟩
    rw [hstays]
    exact Bool.false_ne_true

/-- **A snapshot ingestion makes the store equal the feed**, and asks for nothing a second time. -/
theorem flushSnapshot_mirrors {fresh : List String → String} (hfresh : ∀ ids, fresh ids ∉ ids)
    (hhost : host.StableStringify) (hstored : KeyedStore ark calendarId table)
    (hfeed : SnapshotFeed ark events) :
    ∃ table', flushSnapshot fresh host ark table calendarId events = .ok table' ∧
      ReflectsFeed host ark calendarId table events table' := by
  obtain ⟨table', hrun, -, hreflects⟩ := flushSnapshot_ok hfresh hhost hstored hfeed
  exact ⟨table', hrun, hreflects⟩

end Snapshot

namespace Example

def longerId (ids : List String) : String :=
  String.ofList (List.replicate ((ids.map String.length).sum + 1) 'x')

theorem longerId_not_mem (ids : List String) : longerId ids ∉ ids := by
  intro h
  have hlength : (longerId ids).length ∈ ids.map String.length := List.mem_map_of_mem h
  have hle := List.le_sum_of_mem hlength
  simp [longerId] at hle

theorem printingHost_stableStringify : printingHost.StableStringify where
  strings _ := rfl
  nonempty v h := by
    obtain ⟨c, cs, hcs, -⟩ := Json.head_stringify v
    have hnil : v.stringify.toList = [] := by
      rw [show v.stringify = "" from h]
      rfl
    rw [hnil] at hcs
    cases hcs

def hourMeeting : SourceEvent where
  uid := "meeting"
  startTime := 0
  endTime := 3600000
  isAllDay := some false

def renamedMeeting : SourceEvent := { hourMeeting with title := some "Moved" }

theorem snapshotFeed_renamedMeeting : SnapshotFeed arktype [renamedMeeting] where
  uniform := Or.inr (by decide)
  allDay := by decide
  duration := by decide
  read e he t ht := by
    obtain rfl := List.mem_singleton.1 he
    cases ht

/-- The stored row of the meeting, under a provider id of its own. -/
def meetingRow (sourceEventId : Option String) : Entry String EventStateInsertRow :=
  ⟨"row", buildEventStateInsertRow "calendar" { hourMeeting with sourceEventId }⟩

theorem storedCalendar_meetingRow (sourceEventId : Option String) :
    StoredCalendar arktype "calendar" [meetingRow sourceEventId] where
  valid := ⟨by cases sourceEventId <;> exact List.nodup_singleton _, List.nodup_singleton _⟩
  calendar entry he := by
    obtain rfl := List.mem_singleton.1 he
    rfl
  parses entry he := by
    obtain rfl := List.mem_singleton.1 he
    rw [meetingRow, entryExisting_build fun t ht => by cases ht]
    rfl
  uid entry he := by
    obtain rfl := List.mem_singleton.1 he
    rfl

end Example

theorem flushSnapshot_mirrors_example :
    ∃ table', flushSnapshot Example.longerId Example.printingHost Example.arktype
        [Example.meetingRow none] "calendar" [Example.renamedMeeting] = .ok table' ∧
      ReflectsFeed Example.printingHost Example.arktype "calendar" [Example.meetingRow none]
        [Example.renamedMeeting] table' :=
  flushSnapshot_mirrors Example.longerId_not_mem Example.printingHost_stableStringify
    ⟨Example.storedCalendar_meetingRow none, by decide⟩ Example.snapshotFeed_renamedMeeting


namespace Example

theorem readExistingEvents_meetingRow :
    readExistingEvents arktype [meetingRow (some "")] "calendar" =
      [{ hourMeeting with sourceEventId := some "" }.asStored.existingState "row"] := by
  rw [readExistingEvents_eq (storedCalendar_meetingRow (some "")).calendar, List.filterMap_cons,
    meetingRow, entryExisting_build fun t ht => by cases ht]
  rfl

theorem removed_meetingRow : buildSourceEventStateIdsToRemove
    (readExistingEvents arktype [meetingRow (some "")] "calendar") [renamedMeeting] {} = [] := by
  have huid : ({ hourMeeting with sourceEventId := some "" }.asStored.existingState
      "row").sourceEventUid.isSome := rfl
  have hstays := (isRemovedBySnapshot_eq_false_iff snapshotFeed_renamedMeeting.uniform huid).2
    ⟨renamedMeeting, List.mem_singleton_self _, by decide⟩
  rw [readExistingEvents_meetingRow]
  simp [buildSourceEventStateIdsToRemove, hstays]

theorem added_meetingRow : buildSourceEventsToAdd printingHost
    (readExistingEvents arktype [meetingRow (some "")] "calendar") [renamedMeeting] {} =
      [renamedMeeting] := by
  have hchanged : ∀ entry ∈ [meetingRow (some "")],
      ¬ HasIdentityOf printingHost arktype ⟨false⟩ entry renamedMeeting := by
    intro entry hentry hright
    obtain ⟨existing, hparse, hkey⟩ := entryIdentityKey_eq_some_iff.1 hright
    rw [List.mem_singleton.1 hentry, meetingRow, entryExisting_build fun t ht => by cases ht]
      at hparse
    obtain rfl := Option.some.inj hparse
    have hparts := ((existingIdentityKey_eq_iff printingHost_stableStringify).1 hkey).2
    simp only [sourceEventIdentityParts, List.cons.injEq] at hparts
    obtain ⟨-, -, -, -, -, -, -, -, htitle, -⟩ := hparts
    exact absurd htitle (by decide)
  have hadded : renamedMeeting ∈ buildSourceEventsToAdd printingHost
      (readExistingEvents arktype [meetingRow (some "")] "calendar") [renamedMeeting] {} :=
    (mem_buildSourceEventsToAdd_iff (storedCalendar_meetingRow (some "")).calendar).2
      ⟨List.mem_singleton_self _, hchanged⟩
  have hsub : (buildSourceEventsToAdd printingHost
      (readExistingEvents arktype [meetingRow (some "")] "calendar") [renamedMeeting] {}).Sublist
      [renamedMeeting] := List.filter_sublist
  rcases List.sublist_singleton.1 hsub with hnil | hone
  · rw [hnil] at hadded
    cases hadded
  · exact hone

end Example

/-- Beside a row with the empty text as its provider id, a changed event is stored a second time. -/
theorem not_flushSnapshot_mirrors :
    StoredCalendar Example.arktype "calendar" [Example.meetingRow (some "")] ∧
      SnapshotFeed Example.arktype [Example.renamedMeeting] ∧
      ∀ table', flushSnapshot Example.longerId Example.printingHost Example.arktype
          [Example.meetingRow (some "")] "calendar" [Example.renamedMeeting] = .ok table' →
        ¬ MirrorsFeed Example.printingHost Example.arktype table' [Example.renamedMeeting] := by
  refine ⟨Example.storedCalendar_meetingRow _, Example.snapshotFeed_renamedMeeting, ?_⟩
  intro table' hrun hmirrors
  rw [flushSnapshot, Example.removed_meetingRow, Example.added_meetingRow] at hrun
  have htwo : table' = [Example.meetingRow (some ""),
      ⟨Example.longerId ["row"], buildEventStateInsertRow "calendar" Example.renamedMeeting⟩] :=
    (Except.ok.inj hrun).symm
  have hlength := hmirrors.length_eq
  rw [htwo] at hlength
  exact absurd hlength (by decide)

end Keeper
