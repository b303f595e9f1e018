import Keeper.Reads.GetEvent

/-!
# Getting what is listed

Each listed event has an id, and getting it by that id gives the same event, with two exceptions. An
override or one-off whose stored title is the empty text is listed without a title and got with the
empty one. And the listing puts a row without a uid in the series of its own id, where the rows of a
series are got by the stored uid alone: with that row left out, an override can hide a slot that the
listing shows.

* `agreesWithList_iff`: getting agrees with listing exactly when neither is in the range.
-/

namespace Keeper

section Agreement

variable (rt : Runtime) (ark : Arktype) (occurs : RRuleOptions → ℤ → Prop) (store : EventStore)
  (userId : String) (events : List SyncableEvent) (timeZone : Option String) (range : Span ℤ)

/-- Getting agrees with a listing: each of its events is got under its id, and the ids are distinct. -/
structure AgreesWithList (listed : List KeeperEvent) : Prop where
  resolves : ∀ event ∈ listed,
    resolveEventReadModel rt ark store.repository userId event.id = .ok (some event)
  ids : (listed.map (·.id)).Nodup

/-- An occurrence of a master that the range lists: it is one of the scanned rows, its wall time is
searched, and it overlaps the range. -/
structure IsListedOccurrence (master : SyncableEvent) (slot : ℤ) (e : MaterializedSyncableEvent) :
    Prop where
  isMaster : master.isMaster = true
  scanned : isScanned range master = true
  reached : IsReached rt occurs (widenedWindow range.start range.stop) master slot
  occurrence : IsOccurrenceOf rt occurs (events.filter (isScanned range)) master slot e
  overlaps : (widenedWindow range.start range.stop).overlaps e.range = true
  listed : isListed rt timeZone range e.shape = true

/-- Every listed event can be got: no override or one-off of the range has the empty text as its
title, and no listed occurrence is at a slot that the rows of its own uid hide. -/
structure IsAddressable (rows : List SyncedEventRow) : Prop where
  titles : ∀ row ∈ rows, row.isMaster = false →
    (widenedWindow range.start range.stop).overlaps row.shape.toEventTimeRange = true →
    isListed rt timeZone range row.shape = true → row.title ≠ some ""
  slots : ∀ owner ∈ rows, ∀ master ∈ events, master.id = owner.id → ∀ slot e,
    IsListedOccurrence rt occurs events timeZone range master slot e →
      isSuppressed (getSeriesRows store owner) slot = false

/-- Every listed occurrence starts at a valid date. -/
def StartsAtDates : Prop :=
  ∀ master ∈ events, ∀ slot e, IsListedOccurrence rt occurs events timeZone range master slot e →
    (timeClip slot).isSome

variable {rt ark occurs store userId events timeZone range}

/-! ## Distinct ids -/

variable {sourceMap : JsMap String SourceInfo} {slotsOf : SyncableEvent → List ℤ} {p : KeeperEventProjection}

theorem nodup_events_id {rows : List SyncedEventRow} (h : toSyncableEvents ark rows sourceMap = .ok events)
    (hrows : (rows.map (·.id)).Nodup) : (events.map (·.id)).Nodup := by
  obtain ⟨-, rfl⟩ := toSyncableEvents_eq_ok_iff.1 h
  rw [List.Nodup, List.pairwise_map] at hrows ⊢
  have hid : ∀ row : SyncedEventRow, ∀ event, ((sourceMap.get? row.calendarId).bind fun source =>
      (toSyncableEvent ark row source).toOption) = some event → event.id = row.id := by
    intro row event hevent
    obtain ⟨source, -, hevent⟩ := Option.bind_eq_some_iff.1 hevent
    cases hok : toSyncableEvent ark row source with
    | error message =>
      rw [hok] at hevent
      cases hevent
    | ok event' =>
      rw [hok] at hevent
      obtain rfl := Option.some.inj hevent
      exact (toSyncableEvent_ok hok).id
  refine List.pairwise_filterMap.2 (hrows.imp fun hne event hevent event' hevent' => ?_)
  rw [hid _ _ hevent, hid _ _ hevent']
  exact hne

theorem nodup_id_occurrencesAt (hevents : (events.map (·.id)).Nodup)
    (hid : ∀ master ∈ events, ∀ slot e, occurrenceAt rt master (seriesZones rt master) slot = some e → (toSyncedProjection e).id = createOccurrenceEventId master.id slot)
    (huuid : ∀ event ∈ events, isUuid event.id = true)
    (hslots : ∀ master ∈ events.filter (·.isMaster), (slotsOf master).Nodup) :
    ((occurrencesAt rt events slotsOf).map fun e => (toSyncedProjection e).id).Nodup := by
  rw [occurrencesAt, List.map_flatMap, List.nodup_flatMap]
  refine ⟨fun master hmaster => ?_, ?_⟩
  · have hmem := (List.mem_filter.1 hmaster).1
    rw [List.map_filterMap]
    refine (hslots master hmaster).filterMap fun slot slot' id hslot hslot' => ?_
    obtain ⟨e, he, rfl⟩ := Option.map_eq_some_iff.1 hslot
    obtain ⟨e', he', hsame⟩ := Option.map_eq_some_iff.1 hslot'
    rw [hid master hmem slot e he, hid master hmem slot' e' he'] at hsame
    exact (createOccurrenceEventId_inj (huuid master hmem) (huuid master hmem) hsame).2.symm
  · rw [List.Nodup, List.pairwise_map] at hevents
    refine (hevents.filter _).imp_of_mem fun {master master'} hmaster hmaster' hne => ?_
    have hmem := (List.mem_filter.1 hmaster).1
    have hmem' := (List.mem_filter.1 hmaster').1
    refine List.disjoint_left.2 ?_
    intro id hin hin'
    obtain ⟨e, hat, rfl⟩ := List.mem_map.1 hin
    obtain ⟨slot, -, he⟩ := List.mem_filterMap.1 hat
    obtain ⟨e', hat', hsame⟩ := List.mem_map.1 hin'
    obtain ⟨slot', -, he'⟩ := List.mem_filterMap.1 hat'
    rw [hid master hmem slot e he, hid master' hmem' slot' e' he'] at hsame
    exact hne (createOccurrenceEventId_inj (huuid master' hmem') (huuid master hmem) hsame).1.symm

/-! ## One listed event -/

theorem publishEvent_eq {source : SourceInfo} (h : sourceMap.get? p.calendarId = some source) :
    publishEvent sourceMap p = .ok (toKeeperEvent p source) := by
  rw [publishEvent, h]

structure IsSourced (ark : Arktype) (store : EventStore) (userId : String) (row : SyncedEventRow)
    (calendar : CalendarRow) (event : SyncableEvent) : Prop where
  mem_rows : row ∈ storedRows store (getSourcesForUser store userId {}).1
  mem_calendars : calendar ∈ store.calendars
  id : calendar.id = row.calendarId
  user : calendar.userId = userId
  source : (getSourcesForUser store userId {}).2.get? row.calendarId =
    some ⟨calendar.name, calendar.provider, calendar.url, userId⟩
  event : toSyncableEvent ark row ⟨calendar.name, calendar.provider, calendar.url, userId⟩ =
    .ok event

theorem exists_isSourced (hkeyed : store.IsKeyed)
    (hparsed : toSyncableEvents ark (storedRows store (getSourcesForUser store userId {}).1)
      (getSourcesForUser store userId {}).2 = .ok events) {event : SyncableEvent}
    (hevent : event ∈ events) : ∃ row calendar, IsSourced ark store userId row calendar event := by
  obtain ⟨row, hrow, source, hsource, hok⟩ := exists_row_of_mem_events hparsed hevent
  have hin : row.calendarId ∈ (getSourcesForUser store userId {}).1 := by
    simpa using (List.mem_filter.1 hrow).2
  obtain ⟨calendar, hcalendar, hid, huser, hget⟩ := hkeyed.exists_calendar hin
  obtain rfl := Option.some.inj (hsource.symm.trans hget)
  exact ⟨row, calendar, hrow, hcalendar, hid, huser, hget, hok⟩

/-- **A listed occurrence** is got unless the rows of its uid hide it. -/
theorem resolves_occurrence
    (h : CanRead rt ark occurs store (getSourcesForUser store userId {}) range timeZone events)
    (hlookup : CanLookUp rt events) (hkeyed : store.IsKeyed) {master : SyncableEvent} {slot : ℤ}
    {e : MaterializedSyncableEvent}
    (hlisted : IsListedOccurrence rt occurs events timeZone range master slot e)
    (hdate : (timeClip slot).isSome) {owner : SyncedEventRow} {calendar : CalendarRow}
    (hsourced : IsSourced ark store userId owner calendar master) :
    ∃ event, publishEvent (getSourcesForUser store userId {}).2 (toSyncedProjection e) = .ok event ∧
      resolveEventReadModel rt ark store.repository userId event.id =
        .ok (if isSuppressed (getSeriesRows store owner) slot then none else some event) := by
  have huuid := hkeyed.eventStateIds owner (List.mem_filter.1 hsourced.mem_rows).1
  have hoccurrence := hlisted.occurrence.of_filter (fun event _ hid => isScanned_of_override hid)
    hlisted.scanned
  have hcalendar : (toSyncedProjection e).calendarId = owner.calendarId :=
    (occurrenceAt_eq_some hoccurrence.2).2.trans (toSyncableEvent_ok hsourced.event).calendarId
  refine ⟨_, publishEvent_eq (hcalendar ▸ hsourced.source), ?_⟩
  show resolveEventReadModel rt ark store.repository userId (toSyncedProjection e).id = _
  rw [id_toSyncedProjection (toSyncableEvent_ok hsourced.event) huuid hoccurrence.2]
  exact resolveEventReadModel_occurrence h hlookup hkeyed hsourced.mem_rows hsourced.mem_calendars
    hsourced.id hsourced.user hsourced.source hsourced.event hlisted.isMaster hdate hoccurrence

theorem truthy_getD_eq_self_iff {title : Option String} :
    truthy (some (title.getD "")) = title ↔ title ≠ some "" := by
  cases title with
  | none => simp [truthy]
  | some text => by_cases htext : text = "" <;> simp [truthy, Option.filter, htext]

/-- **A listed override or one-off** is got as it is listed unless its title is the empty text. -/
theorem resolves_single (rt : Runtime) (hkeyed : store.IsKeyed) {event : SyncableEvent}
    {row : SyncedEventRow} {calendar : CalendarRow}
    (hsourced : IsSourced ark store userId row calendar event) :
    ∃ listed, publishEvent (getSourcesForUser store userId {}).2
        (toSyncedProjection (asOneOffEvent event)) = .ok listed ∧
      (resolveEventReadModel rt ark store.repository userId listed.id = .ok (some listed) ↔
        row.title ≠ some "") := by
  rw [toSyncedProjection_asOneOffEvent hsourced.event]
  refine ⟨_, publishEvent_eq hsourced.source, ?_⟩
  have hrow := (List.mem_filter.1 hsourced.mem_rows).1
  show resolveEventReadModel rt ark store.repository userId row.id = _ ↔ _
  rw [resolveEventReadModel_persisted rt ark hkeyed hrow hsourced.mem_calendars hsourced.id hsourced.user,
    ← truthy_getD_eq_self_iff]
  simp only [Except.ok.injEq, Option.some.injEq, toKeeperEvent, toPersistedSyncedProjection,
    KeeperEvent.mk.injEq, true_and, and_true]
  exact eq_comm

/-- **A listed user event** is got as it is listed. -/
theorem resolves_own (rt : Runtime) (ark : Arktype) (hkeyed : store.IsKeyed) {row : UserEventRecord}
    (hrow : row ∈ storedUserEvents store userId (getSourcesForUser store userId {}).1) :
    ∃ listed, publishEvent (getSourcesForUser store userId {}).2
        (toUserProjection row.toUserEventRow) = .ok listed ∧
      resolveEventReadModel rt ark store.repository userId listed.id = .ok (some listed) := by
  obtain ⟨hmem, hyes⟩ := List.mem_filter.1 hrow
  simp only [Bool.and_eq_true, decide_eq_true_eq, List.contains_eq_mem] at hyes
  obtain ⟨calendar, hcalendar, hid, -, hget⟩ := hkeyed.exists_calendar hyes.1
  exact ⟨_, publishEvent_eq hget, resolveEventReadModel_own rt ark hkeyed hmem hcalendar hid hyes.2⟩

/-! ## All of them -/

/-- **Listed events have distinct ids**: occurrences by row and start, the others by row. -/
theorem nodup_id_contents
    (hparsed : toSyncableEvents ark (storedRows store (getSourcesForUser store userId {}).1) (getSourcesForUser store userId {}).2 = .ok events)
    (hkeyed : store.IsKeyed) (hslots : ∀ master ∈ events.filter (·.isMaster), (slotsOf master).Nodup)
    (single : SyncableEvent → Bool) (own : UserEventRecord → Bool) :
    ((contents rt events (storedUserEvents store userId (getSourcesForUser store userId {}).1)
      slotsOf single own).map (·.id)).Nodup := by
  have hnodup := List.nodup_append.1 hkeyed.events
  have hstored : ∀ event ∈ events, ∃ row ∈ store.eventStates, IsEventOf row event ∧
      toSyncedProjection (asOneOffEvent event) =
        { toPersistedSyncedProjection row with title := truthy (some (row.title.getD "")) } := by
    intro event hevent
    obtain ⟨row, calendar, hsourced⟩ := exists_isSourced hkeyed hparsed hevent
    exact ⟨row, (List.mem_filter.1 hsourced.mem_rows).1, toSyncableEvent_ok hsourced.event,
      toSyncedProjection_asOneOffEvent hsourced.event⟩
  have huuid : ∀ event ∈ events, isUuid event.id = true := by
    intro event hevent
    obtain ⟨row, hrow, hof, -⟩ := hstored event hevent
    rw [hof.id]
    exact hkeyed.eventStateIds row hrow
  have hid : ∀ master ∈ events, ∀ slot e,
      occurrenceAt rt master (seriesZones rt master) slot = some e →
        (toSyncedProjection e).id = createOccurrenceEventId master.id slot := by
    intro master hmaster slot e he
    obtain ⟨row, hrow, hof, -⟩ := hstored master hmaster
    rw [hof.id]
    exact id_toSyncedProjection hof (hkeyed.eventStateIds row hrow) he
  have hevents := nodup_events_id hparsed (hnodup.1.sublist (List.filter_sublist.map _))
  have hsingle : ∀ event ∈ events,
      (toSyncedProjection (asOneOffEvent event)).id = event.id := by
    intro event hevent
    obtain ⟨row, -, hof, heq⟩ := hstored event hevent
    rw [heq, hof.id]
    rfl
  have hids : (contents rt events
      (storedUserEvents store userId (getSourcesForUser store userId {}).1) slotsOf single
      own).map (·.id) =
      (occurrencesAt rt events slotsOf).map (fun e => (toSyncedProjection e).id) ++
        (events.filter fun event => !event.isMaster && single event).map (·.id) ++
        ((storedUserEvents store userId (getSourcesForUser store userId {}).1).filter own).map
          (·.id) := by
    rw [contents, List.map_append, List.map_map, List.map_append, List.map_map, List.map_map]
    refine congrArg (_ ++ · ++ _) (List.map_congr_left fun event hevent => ?_)
    exact hsingle event (List.mem_filter.1 hevent).1
  have hoccurrence : ∀ id ∈ (occurrencesAt rt events slotsOf).map
      (fun e => (toSyncedProjection e).id), isUuid id = false := by
    intro id hmem
    obtain ⟨e, he, rfl⟩ := List.mem_map.1 hmem
    obtain ⟨master, hmaster, he⟩ := List.mem_flatMap.1 he
    obtain ⟨slot, -, he⟩ := List.mem_filterMap.1 he
    rw [hid master (List.mem_filter.1 hmaster).1 slot e he, isUuid_createOccurrenceEventId]
  have howns : ∀ id ∈ ((storedUserEvents store userId
      (getSourcesForUser store userId {}).1).filter own).map (·.id),
      id ∈ store.userEvents.map (·.id) := by
    intro id hmem
    obtain ⟨row, hrow, rfl⟩ := List.mem_map.1 hmem
    exact List.mem_map_of_mem (List.mem_filter.1 (List.mem_filter.1 hrow).1).1
  rw [hids, List.nodup_append, List.nodup_append]
  refine ⟨⟨nodup_id_occurrencesAt hevents hid huuid hslots,
    hevents.sublist (List.filter_sublist.map _), ?_⟩,
    hnodup.2.1.sublist ((List.filter_sublist.trans List.filter_sublist).map _), ?_⟩
  · rintro id hin _ hin' rfl
    obtain ⟨event, hevent, rfl⟩ := List.mem_map.1 hin'
    have hno := hoccurrence _ hin
    rw [huuid event (List.mem_filter.1 hevent).1] at hno
    cases hno
  · rintro id hin _ hin' rfl
    have hown := howns _ hin'
    rcases List.mem_append.1 hin with hin | hin
    · obtain ⟨row, hrow, rfl⟩ := List.mem_map.1 hown
      have hno := hoccurrence _ hin
      rw [hkeyed.userEventIds row hrow] at hno
      cases hno
    · obtain ⟨event, hevent, rfl⟩ := List.mem_map.1 hin
      obtain ⟨row, hrow, hof, -⟩ := hstored event (List.mem_filter.1 hevent).1
      refine hnodup.2.2 _ (List.mem_map_of_mem hrow) _ hown ?_
      exact hof.id.symm

theorem mem_contents_iff {userEvents : List UserEventRecord} {single : SyncableEvent → Bool}
    {own : UserEventRecord → Bool} : p ∈ contents rt events userEvents slotsOf single own ↔
      (∃ master ∈ events, master.isMaster = true ∧ ∃ slot ∈ slotsOf master, ∃ e,
        occurrenceAt rt master (seriesZones rt master) slot = some e ∧ toSyncedProjection e = p) ∨
      (∃ event ∈ events, event.isMaster = false ∧ single event = true ∧
        toSyncedProjection (asOneOffEvent event) = p) ∨
      ∃ row ∈ userEvents, own row = true ∧ toUserProjection row.toUserEventRow = p := by
  simp only [contents, occurrencesAt, List.mem_append, List.mem_map, List.mem_flatMap,
    List.mem_filterMap, List.mem_filter, Bool.and_eq_true, Bool.not_eq_true', or_and_right,
    exists_or]
  refine (or_congr (or_congr ?_ ?_) ?_).trans or_assoc
  · constructor
    · rintro ⟨e, ⟨master, ⟨hmem, hmaster⟩, slot, hslot, he⟩, rfl⟩
      exact ⟨master, hmem, hmaster, slot, hslot, e, he, rfl⟩
    · rintro ⟨master, hmem, hmaster, slot, hslot, e, he, rfl⟩
      exact ⟨e, ⟨master, ⟨hmem, hmaster⟩, slot, hslot, he⟩, rfl⟩
  · constructor
    · rintro ⟨e, ⟨event, ⟨hmem, hmaster, hsingle⟩, rfl⟩, rfl⟩
      exact ⟨event, hmem, hmaster, hsingle, rfl⟩
    · rintro ⟨event, hmem, hmaster, hsingle, rfl⟩
      exact ⟨_, ⟨event, ⟨hmem, hmaster, hsingle⟩, rfl⟩, rfl⟩
  · exact exists_congr fun row => and_assoc

theorem id_publishEvent {event : KeeperEvent} (h : publishEvent sourceMap p = .ok event) : event.id = p.id := by
  unfold publishEvent at h
  split at h
  · cases h
  · rw [← Except.ok.inj h]
    rfl

/-- **Getting agrees with listing** exactly when every listed event is addressable. -/
theorem agreesWithList_iff {input : KeeperEventRangeInput}
    (hrange : normalizeDateRange input.from input.to = .ok range)
    (h : CanRead rt ark occurs store (getSourcesForUser store userId {}) range input.timeZone events)
    (hlookup : CanLookUp rt events) (hkeyed : store.IsKeyed)
    (hdates : StartsAtDates rt occurs events input.timeZone range) :
    ∃ listed, getEventsInRange rt ark store userId input {} = .ok listed ∧
      (AgreesWithList rt ark store userId listed ↔
        IsAddressable rt occurs store events input.timeZone range
          (storedRows store (getSourcesForUser store userId {}).1)) := by
  obtain ⟨listed, hrun, slotsOf, hslots, l, hl, hperm⟩ := getEventsInRange_ok hrange h
  have hmem : ∀ event, event ∈ listed ↔ _ := fun event => hperm.mem_iff.trans (mem_mapM_iff hl)
  have hslot : ∀ master ∈ events, master.isMaster = true → ∀ slot e,
      occurrenceAt rt master (seriesZones rt master) slot = some e →
      (slot ∈ slotsOf master ↔
        IsListedOccurrence rt occurs events input.timeZone range master slot e) := by
    intro master hmaster hyes slot e he
    rw [(hslots master (List.mem_filter.2 ⟨hmaster, hyes⟩)).2]
    constructor
    · rintro ⟨hscanned, hreached, e', he', hoverlaps, hlisted⟩
      obtain rfl := Option.some.inj (he.symm.trans he'.2)
      exact ⟨hyes, hscanned, hreached, he', hoverlaps, hlisted⟩
    · intro hin
      exact ⟨hin.scanned, hin.reached, e, hin.occurrence, hin.overlaps, hin.listed⟩
  have hrow : ∀ {event row row' calendar}, toSyncableEvent ark row' calendar = .ok event →
      row ∈ store.eventStates → row' ∈ store.eventStates → event.id = row.id → row = row' :=
    fun hok hrow hrow' hid => hkeyed.row_eq hrow hrow' (hid.symm.trans (toSyncableEvent_ok hok).id)
  refine ⟨listed, hrun, fun hagrees => ⟨?_, ?_⟩, fun haddressable => ⟨?_, ?_⟩⟩
  · intro row hstored hmaster hoverlaps hlisted
    obtain ⟨source, hsource⟩ := Option.isSome_iff_exists.1 (isSome_sourceMap
      (by simpa using (List.mem_filter.1 hstored).2 :
        row.calendarId ∈ (getSourcesForUser store userId {}).1))
    obtain ⟨event, hevent, hok⟩ := mem_events_of_row h.parsed hstored hsource
    obtain ⟨row', calendar, hsourced⟩ := exists_isSourced hkeyed h.parsed hevent
    obtain rfl := hrow hsourced.event (List.mem_filter.1 hstored).1
      (List.mem_filter.1 hsourced.mem_rows).1 (toSyncableEvent_ok hok).id
    have hof := toSyncableEvent_ok hok
    obtain ⟨keeper, hpublish, hiff⟩ := resolves_single rt hkeyed hsourced
    refine hiff.1 (hagrees.resolves keeper ((hmem keeper).2 ⟨_, mem_contents_iff.2 (Or.inr (Or.inl
      ⟨event, hevent, ?_, ?_, rfl⟩)), hpublish⟩))
    · rw [hof.isMaster, hmaster]
    · have hwindow : (widenedWindow range.start range.stop).overlaps event.range = true := by
        show (widenedWindow range.start range.stop).overlaps event.shape.toEventTimeRange = true
        rw [hof.shape, hoverlaps]
      rw [isScanned_of_overlaps (hof.isMaster.trans hmaster) hwindow, hwindow, hof.shape, hlisted]
      rfl
  · intro owner hstored master hmaster hid slot e hlisted
    obtain ⟨row, calendar, hsourced⟩ := exists_isSourced hkeyed h.parsed hmaster
    obtain rfl := hrow hsourced.event (List.mem_filter.1 hstored).1
      (List.mem_filter.1 hsourced.mem_rows).1 hid
    obtain ⟨keeper, hpublish, hresolve⟩ := resolves_occurrence h hlookup hkeyed hlisted
      (hdates master hmaster slot e hlisted) hsourced
    have hin := (hmem keeper).2 ⟨_, mem_contents_iff.2 (Or.inl ⟨master, hmaster, hlisted.isMaster,
      slot, (hslot master hmaster hlisted.isMaster slot e hlisted.occurrence.2).2 hlisted, e,
      hlisted.occurrence.2, rfl⟩), hpublish⟩
    rw [hagrees.resolves keeper hin] at hresolve
    refine Bool.eq_false_iff.2 fun hsuppressed => ?_
    rw [hsuppressed] at hresolve
    cases hresolve
  · intro keeper hin
    obtain ⟨p, hp, hpublish⟩ := (hmem keeper).1 hin
    rcases mem_contents_iff.1 hp with ⟨master, hmaster, hyes, slot, hin, e, he, rfl⟩ |
      ⟨event, hevent, hmaster, hin, rfl⟩ | ⟨row, hown, -, rfl⟩
    · have hlisted := (hslot master hmaster hyes slot e he).1 hin
      obtain ⟨row, calendar, hsourced⟩ := exists_isSourced hkeyed h.parsed hmaster
      obtain ⟨keeper', hpublish', hresolve⟩ := resolves_occurrence h hlookup hkeyed hlisted
        (hdates master hmaster slot e hlisted) hsourced
      obtain rfl : keeper = keeper' := Except.ok.inj (hpublish.symm.trans hpublish')
      rw [hresolve, haddressable.slots row hsourced.mem_rows master hmaster
        (toSyncableEvent_ok hsourced.event).id slot e hlisted]
      rfl
    · obtain ⟨row, calendar, hsourced⟩ := exists_isSourced hkeyed h.parsed hevent
      have hof := toSyncableEvent_ok hsourced.event
      obtain ⟨keeper', hpublish', hiff⟩ := resolves_single rt hkeyed hsourced
      obtain rfl : keeper = keeper' := Except.ok.inj (hpublish.symm.trans hpublish')
      simp only [Bool.and_eq_true] at hin
      refine hiff.2 (haddressable.titles row hsourced.mem_rows (hof.isMaster.symm.trans hmaster)
        ?_ (hof.shape ▸ hin.2))
      rw [← hof.shape]
      exact hin.1.2
    · obtain ⟨keeper', hpublish', hresolve⟩ := resolves_own rt ark hkeyed hown
      obtain rfl : keeper = keeper' := Except.ok.inj (hpublish.symm.trans hpublish')
      exact hresolve
  · rw [(hperm.map _).nodup_iff, map_mapM (fun p event => id_publishEvent) hl]
    exact nodup_id_contents h.parsed hkeyed (fun master hmaster => (hslots master hmaster).1) _ _

end Agreement

namespace Example

/-- An event from ten to eleven in the morning of 2026-03-02, UTC, stored with an empty title. -/
def untitled : SyncedEventRow where
  calendarId := "c1"
  id := "019c0000-0000-7000-8000-000000000001"
  startTime := 1772445600000
  endTime := 1772449200000
  isAllDay := some false
  sourceEventUid := some "uid-1"
  title := some ""

def untitledStore : EventStore where
  calendars := [ownCalendar]
  eventStates := [untitled]
  userEvents := []

/-- 2026-03-01 and 2026-03-02. -/
def untitledRange : KeeperEventRangeInput := ⟨1772323200000, 1772496000000, none⟩

def untitledEvent : SyncableEvent where
  availability := some .busy
  calendarId := "c1"
  calendarName := some "Own"
  calendarUrl := none
  id := "019c0000-0000-7000-8000-000000000001"
  eventStateId := some "019c0000-0000-7000-8000-000000000001"
  startTime := 1772445600000
  endTime := 1772449200000
  isAllDay := some false
  sourceEventUid := "uid-1"
  summary := ""

theorem isKeyed_untitledStore : untitledStore.IsKeyed where
  calendars := by decide
  events := by decide
  eventStateIds row hrow := by
    obtain rfl := List.mem_singleton.1 hrow
    decide
  userEventIds row hrow := absurd hrow List.not_mem_nil

theorem canRead_untitledStore :
    CanRead kiritimati noSchemas (fun _ _ => False) untitledStore
      (getSourcesForUser untitledStore "user" {}) ⟨1772323200000, 1772496000000⟩ none
      [untitledEvent] where
  enumerates := kiritimati_enumerates
  parsed := rfl
  withinBudget event hevent := by
    obtain rfl := List.mem_singleton.1 hevent
    rfl
  zones event hevent hmaster := by
    obtain rfl := List.mem_singleton.1 hevent
    cases hmaster
  viewer name hname := by cases hname

end Example

theorem agreesWithList_iff_example :
    ∃ listed, getEventsInRange Example.kiritimati Example.noSchemas Example.untitledStore "user"
        Example.untitledRange {} = .ok listed ∧
      (AgreesWithList Example.kiritimati Example.noSchemas Example.untitledStore "user" listed ↔
        IsAddressable Example.kiritimati (fun _ _ => False) Example.untitledStore
          [Example.untitledEvent] none ⟨1772323200000, 1772496000000⟩
          (storedRows Example.untitledStore
            (getSourcesForUser Example.untitledStore "user" {}).1)) := by
  refine agreesWithList_iff (by rfl) Example.canRead_untitledStore ⟨?_, ?_⟩
    Example.isKeyed_untitledStore ?_
  · intro event hevent t
    obtain rfl := List.mem_singleton.1 hevent
    rfl
  · intro event hevent hmaster
    obtain rfl := List.mem_singleton.1 hevent
    cases hmaster
  · intro master hmaster slot e hlisted
    obtain rfl := List.mem_singleton.1 hmaster
    cases hlisted.isMaster

/-- **A title is lost.** The event is listed without a title and got with an empty one. -/
theorem not_agreesWithList :
    ∃ listed, getEventsInRange Example.kiritimati Example.noSchemas Example.untitledStore "user"
        Example.untitledRange {} = .ok [listed] ∧ listed.title = none ∧
      resolveEventReadModel Example.kiritimati Example.noSchemas
        Example.untitledStore.repository "user" listed.id =
          .ok (some { listed with title := some "" }) ∧
      ¬ AgreesWithList Example.kiritimati Example.noSchemas Example.untitledStore "user"
        [listed] := by
  have hlist : ∃ listed : KeeperEvent, getEventsInRange Example.kiritimati Example.noSchemas
      Example.untitledStore "user" Example.untitledRange {} = .ok [listed] ∧ listed.title = none ∧
      resolveEventReadModel Example.kiritimati Example.noSchemas
        Example.untitledStore.repository "user" listed.id =
          .ok (some { listed with title := some "" }) := ⟨_, by rfl, by rfl, by rfl⟩
  obtain ⟨listed, hlist, htitle, hget⟩ := hlist
  refine ⟨listed, hlist, htitle, hget, fun hagrees => ?_⟩
  have hsame := hagrees.resolves listed (List.mem_singleton_self _)
  rw [hget] at hsame
  have htitles := congrArg KeeperEvent.title (Option.some.inj (Except.ok.inj hsame))
  rw [htitle] at htitles
  cases htitles

end Keeper
