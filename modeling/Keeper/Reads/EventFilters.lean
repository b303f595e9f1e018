import Keeper.Reads.EventsInRange

/-!
# Filtering a listing

`getEventsInRange` with the filters of `KeeperEventFilters`: synced occurrences are filtered in code by what was
stored for them, user events by the clauses of their query, where a column that is null equals nothing.

* `getEventsInRange_filtered`: a filtered listing, by what the filters keep of the listing without them.
* `filters_agree_iff`: the filters agree with what is listed exactly when the kind, and the availability of a
  user event, was stored.
-/

namespace Keeper

open JsArray

/-! ## What is filtered -/

theorem perm_map_filters_iff {α β : Type*} {l : List α} {p q : α → Bool}
    (hdisjoint : ∀ a ∈ l, p a = true → q a = false) (f : α → β) :
    ((l.filter p).map f ++ (l.filter q).map f).Perm (l.map f) ↔ ∀ a ∈ l, p a = true ∨ q a = true := by
  have hsplit : (l.filter p ++ l.filter q).Perm (l.filter fun a => p a || q a) := by
    have h := List.filter_append_perm p (l.filter fun a => p a || q a)
    rw [List.filter_filter, List.filter_filter] at h
    have hp : (l.filter fun a => p a && (p a || q a)) = l.filter p :=
      List.filter_congr fun a _ => by cases p a <;> simp
    have hq : (l.filter fun a => (!p a) && (p a || q a)) = l.filter q := by
      refine List.filter_congr fun a ha => ?_
      cases hpa : p a with
      | false => simp
      | true => simp [hdisjoint a ha hpa]
    rwa [hp, hq] at h
  rw [← List.map_append]
  constructor
  · intro h
    have hlength := h.length_eq
    rw [List.length_map, List.length_map, hsplit.length_eq, List.length_filter_eq_length_iff] at hlength
    exact fun a ha => Bool.or_eq_true_iff.1 (hlength a ha)
  · intro h
    refine (hsplit.trans (List.Perm.of_eq ?_)).map f
    exact List.filter_eq_self.2 fun a ha => Bool.or_eq_true_iff.2 (h a ha)

/-- What a listing is made of: an occurrence or other synced event, or a user event. -/
abbrev ListedItem := MaterializedSyncableEvent ⊕ UserEventRecord

namespace ListedItem

def project : ListedItem → KeeperEventProjection
  | .inl e => toSyncedProjection e
  | .inr row => toUserProjection row.toUserEventRow

/-- The kind that was stored. -/
def isAllDay : ListedItem → Option Bool
  | .inl e => e.isAllDay
  | .inr row => row.isAllDay

/-- The availability that was stored; for a synced event what was read of it. -/
def availability : ListedItem → Option EventAvailability
  | .inl e => e.availability
  | .inr row => row.availability.bind fun value => parseAvailability (some value)

/-- The availability that is meant: one that was not stored counts as busy. -/
def countedAvailability (item : ListedItem) : EventAvailability := item.availability.getD .busy

/-- An availability was stored that is one of these. -/
def isAmong (A : List EventAvailability) (item : ListedItem) : Bool := item.availability.any fun a => decide (a ∈ A)

theorem isAmong_iff {A : List EventAvailability} {item : ListedItem} :
    item.isAmong A = true ↔ ∃ a, item.availability = some a ∧ a ∈ A := by
  rw [isAmong]
  cases item.availability <;> simp

/-- Filters keep an item: a synced event by `isIncludedByFilters`, a user event by the clauses of its query. -/
def keeps (filters : KeeperEventFilters) : ListedItem → Bool
  | .inl e => isIncludedByFilters e filters
  | .inr row =>
    (filters.availability.all fun availability =>
        availability.isEmpty || row.availability.any availability.contains) &&
      filters.isAllDay.all fun isAllDay => row.isAllDay = some isAllDay

end ListedItem

section Items

variable (rt : Runtime) (ark : Arktype) (store : EventStore) (userId : String) (input : KeeperEventRangeInput)
  (filters : KeeperEventFilters)

def KeeperEventRangeInput.span (input : KeeperEventRangeInput) : Span ℤ := ⟨input.from, input.to⟩

/-- What is in the range of the calendars that are asked for, before the other filters. -/
def listedItems : List ListedItem :=
  let sources := getSourcesForUser store userId filters
  ((materializeSyncedEvents rt ark (selectSyncedRows store sources.1 input.span) sources.2 input.from input.to
      input.timeZone).toOption.getD []).map .inl ++
    ((selectUserRows store userId sources.1 input.span {}).filter fun row =>
      isInView rt.zones input.timeZone input.from (input.to + 1) row.shape).map .inr

def publishItem (item : ListedItem) : KeeperEvent :=
  toKeeperEvent item.project
    (((getSourcesForUser store userId filters).2.get? item.project.calendarId).getD ⟨"", "", none, ""⟩)

end Items

/-! ## Items and their rows -/

/-- An event keeps what was stored for it when it is materialized. -/
structure KeepsStored (event : SyncableEvent) (e : MaterializedSyncableEvent) : Prop where
  calendarId : e.calendarId = event.calendarId
  stateId : e.eventStateId.getD e.id = event.ownStateId
  availability : e.availability = event.availability
  isAllDay : e.isAllDay = event.isAllDay

theorem keepsStored_of_mem_materializeMaster {rt : Runtime} {master : SyncableEvent} {slots : List ℤ}
    {window : SyncWindow} {l : List MaterializedSyncableEvent}
    (h : materializeMaster rt master slots window = .ok l) {e : MaterializedSyncableEvent} (he : e ∈ l) :
    KeepsStored master e := by
  obtain ⟨slot, timeZone, hslot⟩ := exists_slot_of_mem_materializeMaster h he
  obtain ⟨occurrenceEnd, -, hslot⟩ := bind_eq_ok_iff.1 hslot
  obtain rfl := Except.ok.inj hslot
  exact ⟨rfl, rfl, rfl, rfl⟩

/-- **What is materialized** keeps what was stored for its event. -/
theorem exists_event_of_mem_materialization {rt : Runtime} {events : List SyncableEvent} {window : SyncWindow}
    {isolates : Bool} {suppressedOverrides : List SuppressedOverride} {result : Materialization}
    (h : materializeRecurrenceEvents rt events window isolates suppressedOverrides = .ok result)
    {e : MaterializedSyncableEvent} (he : e ∈ result.events) : ∃ event ∈ events, KeepsStored event e := by
  obtain ⟨_, -, h⟩ := bind_eq_ok_iff.1 h
  obtain ⟨pass, hpass, h⟩ := bind_eq_ok_iff.1 h
  obtain rfl := Except.ok.inj h
  have hcollected : ∀ e ∈ pass.materializedEvents, ∃ event ∈ [] ++ events, KeepsStored event e := by
    refine foldlM_ok_induction (I := fun seen pass => ∀ e ∈ pass.materializedEvents,
      ∃ event ∈ seen, KeepsStored event e) (fun seen event pass next hseen hstep => ?_)
      (fun e he => absurd he List.not_mem_nil) hpass
    have hold : ∀ e ∈ pass.materializedEvents, ∃ event' ∈ seen ++ [event], KeepsStored event' e := by
      intro e he
      obtain ⟨event', hevent', hkeeps⟩ := hseen e he
      exact ⟨event', List.mem_append_left _ hevent', hkeeps⟩
    rcases materializeSeries_cases hstep with ⟨-, rfl⟩ | ⟨-, l, hl, rfl⟩ | ⟨-, -, -, rfl⟩
    · exact hold
    · intro e he
      rcases List.mem_append.1 he with he | he
      · exact hold e he
      · exact ⟨event, by simp, keepsStored_of_mem_materializeMaster hl he⟩
    · exact hold
  rcases List.mem_append.1 (mem_toSorted.1 he) with he | he
  · exact hcollected e he
  · obtain ⟨event, hevent, hemit⟩ := List.mem_filterMap.1 he
    obtain ⟨-, -, -, rfl⟩ := emitOneOff_eq_some_iff.1 hemit
    exact ⟨event, hevent, ⟨rfl, rfl, rfl, rfl⟩⟩

section Listing

variable {rt : Runtime} {ark : Arktype} {store : EventStore} {userId : String} {input : KeeperEventRangeInput}
  {filters : KeeperEventFilters}

/-- **The row of a synced item**: what was stored for it. -/
theorem exists_row_of_listedItem {e : MaterializedSyncableEvent}
    (h : .inl e ∈ listedItems rt ark store userId input filters) :
    ∃ row ∈ store.eventStates, row.calendarId ∈ (getSourcesForUser store userId filters).1 ∧
      e.calendarId = row.calendarId ∧ e.eventStateId.getD e.id = row.id ∧ e.availability = parseAvailability row.availability ∧
      e.isAllDay = row.isAllDay := by
  rw [listedItems, List.mem_append] at h
  rcases h with h | h
  · obtain ⟨e', he', heq⟩ := List.mem_map.1 h
    obtain rfl : e' = e := Sum.inl.inj heq
    cases hrun : materializeSyncedEvents rt ark
      (selectSyncedRows store (getSourcesForUser store userId filters).1 input.span)
      (getSourcesForUser store userId filters).2 input.from input.to input.timeZone with
    | error error =>
      rw [hrun] at he'
      cases he'
    | ok l =>
      rw [hrun] at he'
      obtain ⟨events, hevents, hrun⟩ := bind_eq_ok_iff.1 hrun
      obtain ⟨result, hresult, hrun⟩ := bind_eq_ok_iff.1 hrun
      obtain ⟨-, rfl⟩ := filterThrowing_eq_ok_iff.1 (mapError_eq_ok_iff.1 hrun)
      obtain ⟨event, hevent, hkeeps⟩ :=
        exists_event_of_mem_materialization (mapError_eq_ok_iff.1 hresult) (List.mem_filter.1 he').1
      obtain ⟨row, hrow, source, -, hok⟩ := exists_row_of_mem_events (mapError_eq_ok_iff.1 hevents) hevent
      obtain ⟨hstored, hselected⟩ := List.mem_filter.1 (mem_toSorted.1 hrow)
      rw [Bool.and_eq_true, List.contains_iff_mem] at hselected
      obtain ⟨recurrence, -, hok⟩ := bind_eq_ok_iff.1 hok
      obtain rfl := Except.ok.inj hok
      exact ⟨row, hstored, hselected.1, hkeeps.calendarId, hkeeps.stateId, hkeeps.availability, hkeeps.isAllDay⟩
  · obtain ⟨row, -, hrow⟩ := List.mem_map.1 h
    cases hrow

theorem mem_userEvents_of_listedItem {row : UserEventRecord}
    (h : .inr row ∈ listedItems rt ark store userId input filters) :
    row ∈ store.userEvents ∧ row.calendarId ∈ (getSourcesForUser store userId filters).1 := by
  rw [listedItems, List.mem_append] at h
  rcases h with h | h
  · obtain ⟨e, -, he⟩ := List.mem_map.1 h
    cases he
  · obtain ⟨row', hrow', heq⟩ := List.mem_map.1 h
    obtain rfl : row' = row := Sum.inr.inj heq
    obtain ⟨hstored, hselected⟩ := List.mem_filter.1 (mem_toSorted.1 (List.mem_filter.1 hrow').1)
    simp only [Bool.and_eq_true, List.contains_iff_mem] at hselected
    exact ⟨hstored, hselected.1.1.1.1⟩

theorem listedItems_nil (h : (getSourcesForUser store userId filters).1 = []) :
    listedItems rt ark store userId input filters = [] := by
  refine List.eq_nil_iff_forall_not_mem.2 fun item hitem => ?_
  cases item with
  | inl e =>
    obtain ⟨row, -, hcalendar, -⟩ := exists_row_of_listedItem hitem
    rw [h] at hcalendar
    cases hcalendar
  | inr row =>
    have hcalendar := (mem_userEvents_of_listedItem hitem).2
    rw [h] at hcalendar
    cases hcalendar

variable {item : ListedItem} {base : KeeperEventFilters} {listed : List KeeperEvent}

/-- **An item is published** with the source of its calendar. -/
theorem publishEvent_listedItem (h : item ∈ listedItems rt ark store userId input filters) :
    publishEvent (getSourcesForUser store userId filters).2 item.project =
      .ok (publishItem store userId filters item) := by
  have hcalendar : item.project.calendarId ∈ (getSourcesForUser store userId filters).1 := by
    cases item with
    | inl e =>
      obtain ⟨row, -, hrow, he, -⟩ := exists_row_of_listedItem h
      change e.calendarId ∈ _
      rwa [he]
    | inr row => exact (mem_userEvents_of_listedItem h).2
  obtain ⟨source, hsource⟩ := Option.isSome_iff_exists.1 (isSome_sourceMap hcalendar)
  rw [publishEvent, publishItem, hsource]
  rfl

theorem isInView_of_isWithinReadWindow {shape : AllDayEventShape} {range : Span ℤ} {timeZone : Option String}
    {b : Bool} (h : isWithinReadWindow rt.zones shape range timeZone = .ok b) :
    isInView rt.zones timeZone range.start (range.stop + 1) shape = b := by
  rw [isWithinReadWindow, overlapsViewerReadWindow_eq] at h
  rw [isInView]
  cases hspan : viewerSpan rt.zones timeZone shape with
  | error error =>
    rw [hspan] at h
    cases h
  | ok range =>
    rw [hspan] at h
    exact Except.ok.inj h

/-- The user rows that a filtered query selects are those that the filters keep. -/
theorem selectUserRows_perm (calendarIds : List String) (range : Span ℤ) (view : UserEventRecord → Bool) :
    ((selectUserRows store userId calendarIds range filters).filter view).Perm
      (((selectUserRows store userId calendarIds range {}).filter view).filter fun row =>
        ListedItem.keeps filters (.inr row)) := by
  refine ((toSorted_perm _ _).filter _).trans (List.Perm.trans (List.Perm.of_eq ?_)
    (((toSorted_perm _ _).filter _).filter _).symm)
  simp only [List.filter_filter]
  refine List.filter_congr fun row _ => ?_
  simp only [ListedItem.keeps, Option.all_none, Bool.and_true]
  ac_rfl

/-- **The listing under filters** that keep no more than others under which it returns. -/
theorem getEventsInRange_filtered (h : getEventsInRange rt ark store userId input base = .ok listed)
    (hcalendars : filters.calendarId = base.calendarId)
    (hkeeps : ∀ item : ListedItem, item.keeps filters = true → item.keeps base = true) :
    ∃ l, getEventsInRange rt ark store userId input filters = .ok l ∧
      l.Perm (((listedItems rt ark store userId input base).filter (·.keeps filters)).map
        (publishItem store userId base)) := by
  have hsources : getSourcesForUser store userId filters = getSourcesForUser store userId base := by
    rw [getSourcesForUser, getSourcesForUser, hcalendars]
  obtain ⟨range, hrange, h⟩ := bind_eq_ok_iff.1 h
  obtain rfl : range = input.span := (normalizeDateRange_ok hrange).1
  dsimp only at h
  by_cases hnone : (getSourcesForUser store userId base).1.isEmpty = true
  · refine ⟨[], bind_eq_ok_iff.2 ⟨_, hrange, ?_⟩, ?_⟩
    · dsimp only
      rw [hsources, if_pos hnone]
      rfl
    · rw [listedItems_nil (List.isEmpty_iff.1 hnone)]
      exact List.Perm.nil
  · rw [if_neg hnone] at h
    obtain ⟨syncedEvents, hsynced, h⟩ := bind_eq_ok_iff.1 h
    obtain ⟨occurrences, hrun, hsynced⟩ := bind_eq_ok_iff.1 hsynced
    obtain ⟨userRows, husers, h⟩ := bind_eq_ok_iff.1 h
    obtain ⟨hviews, -⟩ := filterThrowing_eq_ok_iff.1 (mapError_eq_ok_iff.1 husers)
    have hitems : listedItems rt ark store userId input base = occurrences.map .inl ++
        ((selectUserRows store userId (getSourcesForUser store userId base).1 input.span {}).filter fun row =>
          isInView rt.zones input.timeZone input.from (input.to + 1) row.shape).map .inr := by
      rw [listedItems]
      simp only [show materializeSyncedEvents rt ark _ _ input.from input.to _ = _ from hrun]
      rfl
    have husers' : filterThrowing (fun row : UserEventRecord =>
        isWithinReadWindow rt.zones row.shape input.span input.timeZone)
        (selectUserRows store userId (getSourcesForUser store userId base).1 input.span filters) =
        .ok ((selectUserRows store userId (getSourcesForUser store userId base).1 input.span filters).filter
          fun row => isInView rt.zones input.timeZone input.from (input.to + 1) row.shape) := by
      refine filterThrowing_ok fun row hrow => ?_
      obtain ⟨hstored, hselected⟩ := List.mem_filter.1 (mem_toSorted.1 hrow)
      rw [Bool.and_assoc, Bool.and_eq_true] at hselected
      have hbase := hkeeps (.inr row) hselected.2
      obtain ⟨b, hb⟩ := hviews row (mem_toSorted.2 (List.mem_filter.2 ⟨hstored, by
        rw [Bool.and_assoc, Bool.and_eq_true]
        exact ⟨hselected.1, hbase⟩⟩))
      rw [hb]
      exact congrArg Except.ok (isInView_of_isWithinReadWindow hb).symm
    have hperm : (toSorted (fun a b => a.startTime - b.startTime)
        ((occurrences.filter (isIncludedByFilters · filters)).map toSyncedProjection ++
          ((selectUserRows store userId (getSourcesForUser store userId base).1 input.span filters).filter
            fun row => isInView rt.zones input.timeZone input.from (input.to + 1) row.shape).map
            fun row => toUserProjection row.toUserEventRow)).Perm
        (((listedItems rt ark store userId input base).filter (·.keeps filters)).map (·.project)) := by
      rw [hitems, List.filter_append, List.filter_map, List.filter_map, List.map_append, List.map_map,
        List.map_map]
      exact (toSorted_perm _ _).trans (((selectUserRows_perm _ _ _).map _).append_left _)
    have hpublish : (((listedItems rt ark store userId input base).filter (·.keeps filters)).map
        (·.project)).mapM (publishEvent (getSourcesForUser store userId base).2) =
        .ok (((listedItems rt ark store userId input base).filter (·.keeps filters)).map
          (publishItem store userId base)) :=
      mapM_map_ok fun item hitem => publishEvent_listedItem (List.mem_filter.1 hitem).1
    obtain ⟨l, hl, hlperm⟩ := mapM_perm hperm.symm hpublish
    refine ⟨l, bind_eq_ok_iff.2 ⟨_, hrange, ?_⟩, hlperm.symm⟩
    dsimp only
    rw [hsources, if_neg hnone]
    exact bind_eq_ok_iff.2 ⟨_, bind_eq_ok_iff.2 ⟨occurrences, hrun, rfl⟩,
      bind_eq_ok_iff.2 ⟨_, mapError_eq_ok_iff.2 husers', hl⟩⟩

/-! ## What a filter asks for -/

theorem keeps_isAllDay (item : ListedItem) (b : Bool) :
    item.keeps { filters with isAllDay := some b } =
      (item.keeps { filters with isAllDay := none } && decide (item.isAllDay = some b)) := by
  cases item with
  | inl e =>
    simp only [ListedItem.keeps, isIncludedByFilters, ListedItem.isAllDay, Option.all_some, Option.all_none,
      Bool.and_true]
    congr
  | inr row =>
    simp only [ListedItem.keeps, ListedItem.isAllDay, Option.all_some, Option.all_none, Bool.and_true]
    congr

def availabilityFilter (A : List EventAvailability) : List String := A.map (·.name)

theorem EventAvailability.name_injective {a b : EventAvailability} (h : a.name = b.name) : a = b := by
  cases a <;> cases b <;> first | rfl | exact absurd h (by decide)

theorem parseAvailability_name (a : EventAvailability) : parseAvailability (some a.name) = some a := by
  cases a <;> rfl

theorem contains_availabilityFilter (A : List EventAvailability) (a : EventAvailability) :
    (availabilityFilter A).contains a.name = decide (a ∈ A) := by
  rw [availabilityFilter, List.contains_eq_mem, decide_eq_decide, List.mem_map]
  constructor
  · rintro ⟨b, hb, heq⟩
    rwa [← EventAvailability.name_injective heq]
  · exact fun h => ⟨a, h, rfl⟩

/-- What a store promises: ids are keys, and an availability that was stored is one of the four. -/
structure EventStore.IsWellFormed (store : EventStore) : Prop where
  eventStates : (store.eventStates.map (·.id)).Nodup
  userEvents : (store.userEvents.map (·.id)).Nodup
  availability : ∀ row ∈ store.eventStates, ∀ value ∈ row.availability,
    ∃ a : EventAvailability, a.name = value
  userAvailability : ∀ row ∈ store.userEvents, ∀ value ∈ row.availability,
    ∃ a : EventAvailability, a.name = value

theorem isSome_availability (hstore : store.IsWellFormed) {e : MaterializedSyncableEvent}
    (h : .inl e ∈ listedItems rt ark store userId input filters) : e.availability.isSome = true := by
  obtain ⟨row, hrow, -, -, -, he, -⟩ := exists_row_of_listedItem h
  rw [he]
  cases hvalue : row.availability with
  | none => rfl
  | some value =>
    obtain ⟨a, rfl⟩ := hstore.availability row hrow value hvalue
    rw [parseAvailability_name]
    rfl

/-- **The availability filter** keeps what was stored with one of its availabilities. -/
theorem keeps_availability (hstore : store.IsWellFormed) (h : item ∈ listedItems rt ark store userId input filters)
    {A : List EventAvailability} (hA : A ≠ []) :
    item.keeps { filters with availability := some (availabilityFilter A) } =
      (item.keeps { filters with availability := none } && item.isAmong A) := by
  have hne : (availabilityFilter A).isEmpty = false := by
    rw [List.isEmpty_eq_false_iff, availabilityFilter, Ne, List.map_eq_nil_iff]
    exact hA
  cases item with
  | inl e =>
    obtain ⟨a, ha⟩ := Option.isSome_iff_exists.1 (isSome_availability hstore h)
    simp only [ListedItem.keeps, isIncludedByFilters, ListedItem.isAmong, ListedItem.availability, ha, Option.all_some,
      Option.all_none, Option.any_some, Option.map_some, Option.getD_some, hne, Bool.false_or,
      contains_availabilityFilter, Bool.true_and]
    exact Bool.and_comm _ _
  | inr row =>
    have hstored := (mem_userEvents_of_listedItem h).1
    simp only [ListedItem.keeps, ListedItem.isAmong, ListedItem.availability, Option.all_some, Option.all_none, hne,
      Bool.false_or, Bool.true_and]
    rw [Bool.and_comm]
    refine congrArg _ ?_
    cases hvalue : row.availability with
    | none => rfl
    | some value =>
      obtain ⟨a, rfl⟩ := hstore.userAvailability row hstored value hvalue
      rw [Option.any_some, contains_availabilityFilter, Option.bind_some, parseAvailability_name, Option.any_some]

/-- **A published event tells its row**: what was stored for it. -/
theorem stored_eq_of_publishItem_eq (hstore : store.IsWellFormed) {other : ListedItem}
    (hitem : item ∈ listedItems rt ark store userId input filters)
    (hother : other ∈ listedItems rt ark store userId input filters)
    (h : publishItem store userId filters item = publishItem store userId filters other) :
    item.availability = other.availability ∧ item.isAllDay = other.isAllDay := by
  have hid := congrArg KeeperEvent.id h
  have hstate := congrArg KeeperEvent.eventStateId h
  cases item with
  | inl e =>
    cases other with
    | inl e' =>
      obtain ⟨row, hrow, -, -, hrowId, hav, hday⟩ := exists_row_of_listedItem hitem
      obtain ⟨row', hrow', -, -, hrowId', hav', hday'⟩ := exists_row_of_listedItem hother
      have hsame : e.eventStateId.getD e.id = e'.eventStateId.getD e'.id := Option.some.inj hstate
      obtain rfl : row = row' := List.inj_on_of_nodup_map hstore.eventStates hrow hrow'
        (hrowId.symm.trans (hsame.trans hrowId'))
      exact ⟨hav.trans hav'.symm, hday.trans hday'.symm⟩
    | inr row => cases hstate
  | inr row =>
    cases other with
    | inl e => cases hstate
    | inr row' =>
      obtain rfl : row = row' := List.inj_on_of_nodup_map hstore.userEvents
        (mem_userEvents_of_listedItem hitem).1 (mem_userEvents_of_listedItem hother).1 hid
      exact ⟨rfl, rfl⟩

/-! ## Agreement -/

/-- Two lists hold the events of one, each of them in one of the two. -/
structure Splits (first second whole : List KeeperEvent) : Prop where
  disjoint : first.Disjoint second
  perm : (first ++ second).Perm whole

section Agreement

variable (rt ark store userId input filters)

/-- The listings of the two kinds agree with one without that filter. -/
def AgreesOnKind (listed : List KeeperEvent) : Prop :=
  ∃ allDay timed,
    getEventsInRange rt ark store userId input { filters with isAllDay := some true } = .ok allDay ∧
    getEventsInRange rt ark store userId input { filters with isAllDay := some false } = .ok timed ∧
    Splits allDay timed listed ∧
    (∀ event ∈ allDay, event.isAllDay = true) ∧ ∀ event ∈ timed, event.isAllDay = false

/-- The listings of some availabilities and of the other ones agree with one without that filter, where no
availability counts as busy. -/
def AgreesOnAvailability (listed : List KeeperEvent) : Prop :=
  ∀ A B : List EventAvailability, A ≠ [] → B ≠ [] → (∀ a, a ∈ B ↔ a ∉ A) → ∃ inside outside,
    getEventsInRange rt ark store userId input { filters with availability := some (availabilityFilter A) } =
      .ok inside ∧
    getEventsInRange rt ark store userId input { filters with availability := some (availabilityFilter B) } =
      .ok outside ∧
    Splits inside outside listed ∧
    inside.Perm (((listedItems rt ark store userId input filters).filter fun item =>
      item.keeps { filters with availability := none } && decide (item.countedAvailability ∈ A)).map
      (publishItem store userId filters))

/-- The kind of everything that is listed without the kind filter was stored. -/
def StoresKind : Prop :=
  ∀ item ∈ listedItems rt ark store userId input filters,
    item.keeps { filters with isAllDay := none } = true → item.isAllDay.isSome

/-- The availability of every user event that is listed without the availability filter was stored. -/
def StoresAvailability : Prop :=
  ∀ row : UserEventRecord, .inr row ∈ listedItems rt ark store userId input filters →
    ListedItem.keeps { filters with availability := none } (.inr row) = true → row.availability.isSome

end Agreement

/-- What is listed under filters. -/
def keptItems (rt : Runtime) (ark : Arktype) (store : EventStore) (userId : String)
    (input : KeeperEventRangeInput) (filters : KeeperEventFilters) : List ListedItem :=
  (listedItems rt ark store userId input filters).filter (·.keeps filters)

theorem getEventsInRange_perm (h : getEventsInRange rt ark store userId input base = .ok listed) :
    listed.Perm ((keptItems rt ark store userId input base).map (publishItem store userId base)) := by
  obtain ⟨l, hl, hperm⟩ := getEventsInRange_filtered h rfl fun _ hitem => hitem
  obtain rfl : l = listed := Except.ok.inj (hl.symm.trans h)
  exact hperm

theorem getEventsInRange_tested (h : getEventsInRange rt ark store userId input base = .ok listed)
    (hcalendars : filters.calendarId = base.calendarId)
    (hkeeps : ∀ item : ListedItem, item.keeps filters = true → item.keeps base = true) {p : ListedItem → Bool}
    (hp : ∀ item ∈ listedItems rt ark store userId input base, item.keeps filters = (item.keeps base && p item)) :
    ∃ l, getEventsInRange rt ark store userId input filters = .ok l ∧
      l.Perm (((keptItems rt ark store userId input base).filter p).map (publishItem store userId base)) := by
  obtain ⟨l, hl, hperm⟩ := getEventsInRange_filtered h hcalendars hkeeps
  refine ⟨l, hl, hperm.trans (List.Perm.of_eq (congrArg _ ?_))⟩
  rw [keptItems, List.filter_filter]
  exact List.filter_congr fun item hitem => (hp item hitem).trans (Bool.and_comm _ _)

theorem resolvesAllDay_of_stored {shape : AllDayEventShape} {b : Bool} (h : shape.isAllDay = some b) :
    shape.resolvesAllDay = b := by
  rw [AllDayEventShape.resolvesAllDay, h]
  rfl

theorem agreesOnKind_iff
    (hlisted : getEventsInRange rt ark store userId input { filters with isAllDay := none } = .ok listed) :
    AgreesOnKind rt ark store userId input filters listed ↔ StoresKind rt ark store userId input filters := by
  have htested : ∀ b : Bool, ∃ l,
      getEventsInRange rt ark store userId input { filters with isAllDay := some b } = .ok l ∧
        l.Perm (((keptItems rt ark store userId input { filters with isAllDay := none }).filter
          fun item => decide (item.isAllDay = some b)).map (publishItem store userId filters)) := by
    intro b
    have hcalendars : ({ filters with isAllDay := some b } : KeeperEventFilters).calendarId =
        ({ filters with isAllDay := none } : KeeperEventFilters).calendarId := rfl
    refine getEventsInRange_tested hlisted hcalendars (fun item hitem => ?_) fun item _ => keeps_isAllDay item b
    rw [keeps_isAllDay, Bool.and_eq_true] at hitem
    exact hitem.1
  have hkind : ∀ (b : Bool) (l : List KeeperEvent), l.Perm (((keptItems rt ark store userId input
      { filters with isAllDay := none }).filter fun item => decide (item.isAllDay = some b)).map
        (publishItem store userId filters)) → ∀ event ∈ l, event.isAllDay = b := by
    intro b l hperm event hevent
    obtain ⟨item, hitem, rfl⟩ := List.mem_map.1 (hperm.mem_iff.1 hevent)
    have hstored := of_decide_eq_true (List.mem_filter.1 hitem).2
    cases item with
    | inl e => exact resolvesAllDay_of_stored hstored
    | inr row => exact resolvesAllDay_of_stored hstored
  have hsplit := perm_map_filters_iff
    (l := keptItems rt ark store userId input { filters with isAllDay := none })
    (p := fun item => decide (item.isAllDay = some true))
    (q := fun item => decide (item.isAllDay = some false))
    (fun item _ htrue => by rw [of_decide_eq_true htrue]; rfl) (publishItem store userId filters)
  have hwhole := getEventsInRange_perm hlisted
  obtain ⟨allDay, hallDay, hperm⟩ := htested true
  obtain ⟨timed, htimed, hperm'⟩ := htested false
  constructor
  · rintro ⟨allDay', timed', hallDay', htimed', hsplits, -⟩ item hitem hkeeps
    obtain rfl : allDay = allDay' := Except.ok.inj (hallDay.symm.trans hallDay')
    obtain rfl : timed = timed' := Except.ok.inj (htimed.symm.trans htimed')
    have hall := hsplit.1 ((hperm.append hperm').symm.trans (hsplits.perm.trans hwhole))
    rcases hall item (List.mem_filter.2 ⟨hitem, hkeeps⟩) with h | h
    · exact Option.isSome_of_eq_some (of_decide_eq_true h)
    · exact Option.isSome_of_eq_some (of_decide_eq_true h)
  · intro hstores
    have htrue := hkind true allDay hperm
    have hfalse := hkind false timed hperm'
    refine ⟨allDay, timed, hallDay, htimed, ⟨fun event h h' => ?_, ?_⟩, htrue, hfalse⟩
    · exact absurd ((htrue event h).symm.trans (hfalse event h')) (by decide)
    · refine (hperm.append hperm').trans ((hsplit.2 fun item hitem => ?_).trans hwhole.symm)
      obtain ⟨hmem, hkeeps⟩ := List.mem_filter.1 hitem
      obtain ⟨b, hb⟩ := Option.isSome_iff_exists.1 (hstores item hmem hkeeps)
      cases b with
      | true => exact Or.inl (decide_eq_true hb)
      | false => exact Or.inr (decide_eq_true hb)

/-- An item whose availability was stored is among its availability alone. -/
theorem isAmong_eq_counted (h : item.availability.isSome = true) (A : List EventAvailability) :
    item.isAmong A = decide (item.countedAvailability ∈ A) := by
  obtain ⟨a, ha⟩ := Option.isSome_iff_exists.1 h
  rw [ListedItem.isAmong, ListedItem.countedAvailability, ha]
  rfl

/-- **The listing of some availabilities.** -/
theorem getEventsInRange_availability (hstore : store.IsWellFormed)
    (hlisted : getEventsInRange rt ark store userId input { filters with availability := none } = .ok listed)
    {A : List EventAvailability} (hA : A ≠ []) : ∃ l,
    getEventsInRange rt ark store userId input { filters with availability := some (availabilityFilter A) } =
      .ok l ∧
    l.Perm (((keptItems rt ark store userId input { filters with availability := none }).filter (·.isAmong A)).map
      (publishItem store userId filters)) := by
  have hcalendars : ({ filters with availability := some (availabilityFilter A) } :
      KeeperEventFilters).calendarId = ({ filters with availability := none } : KeeperEventFilters).calendarId :=
    rfl
  refine getEventsInRange_tested hlisted hcalendars (fun item hitem => ?_)
    fun item hitem => keeps_availability hstore hitem hA
  cases item with
  | inl e =>
    simp only [ListedItem.keeps, isIncludedByFilters, Bool.and_eq_true] at hitem ⊢
    exact ⟨rfl, hitem.2⟩
  | inr row =>
    simp only [ListedItem.keeps, Bool.and_eq_true] at hitem ⊢
    exact ⟨rfl, hitem.2⟩

/-- The availabilities that were stored are those of the user events. -/
theorem storesAvailability_iff (hstore : store.IsWellFormed) :
    StoresAvailability rt ark store userId input filters ↔
      ∀ item ∈ keptItems rt ark store userId input { filters with availability := none },
        item.availability.isSome = true := by
  constructor
  · intro hstores item hitem
    obtain ⟨hmem, hkeeps⟩ := List.mem_filter.1 hitem
    cases item with
    | inl e => exact isSome_availability hstore hmem
    | inr row =>
      obtain ⟨value, hvalue⟩ := Option.isSome_iff_exists.1 (hstores row hmem hkeeps)
      obtain ⟨a, rfl⟩ := hstore.userAvailability row (mem_userEvents_of_listedItem hmem).1 value hvalue
      rw [ListedItem.availability, hvalue, Option.bind_some, parseAvailability_name]
      rfl
  · intro hstores row hmem hkeeps
    obtain ⟨a, ha⟩ := Option.isSome_iff_exists.1 (hstores (.inr row) (List.mem_filter.2 ⟨hmem, hkeeps⟩))
    obtain ⟨value, hvalue, -⟩ := Option.bind_eq_some_iff.1 ha
    exact Option.isSome_of_eq_some hvalue

/-- The availability filters agree exactly when every availability of a user event was stored. -/
theorem agreesOnAvailability_iff (hstore : store.IsWellFormed)
    (hlisted : getEventsInRange rt ark store userId input { filters with availability := none } = .ok listed) :
    AgreesOnAvailability rt ark store userId input filters listed ↔
      StoresAvailability rt ark store userId input filters := by
  rw [storesAvailability_iff hstore]
  have hapart : ∀ A B : List EventAvailability, (∀ a, a ∈ B ↔ a ∉ A) → ∀ item : ListedItem,
      item.isAmong A = true → item.isAmong B = false := by
    intro A B hB item hA
    obtain ⟨a, ha, hmem⟩ := ListedItem.isAmong_iff.1 hA
    rw [Bool.eq_false_iff]
    intro h
    obtain ⟨b, hb, hmem'⟩ := ListedItem.isAmong_iff.1 h
    obtain rfl : a = b := Option.some.inj (ha.symm.trans hb)
    exact (hB a).1 hmem' hmem
  have hwhole := getEventsInRange_perm hlisted
  constructor
  · intro hagrees item hitem
    have hB : ∀ a : EventAvailability, a ∈ [.free, .oof, .workingElsewhere] ↔ a ∉ [.busy] := by
      intro a
      cases a <;> decide
    obtain ⟨inside, outside, hinside, houtside, hsplits, -⟩ := hagrees _ _ (by decide) (by decide) hB
    obtain ⟨l, hl, hperm⟩ := getEventsInRange_availability hstore hlisted (A := [.busy]) (by decide)
    obtain ⟨l', hl', hperm'⟩ := getEventsInRange_availability hstore hlisted
      (A := [.free, .oof, .workingElsewhere]) (by decide)
    obtain rfl : l = inside := Except.ok.inj (hl.symm.trans hinside)
    obtain rfl : l' = outside := Except.ok.inj (hl'.symm.trans houtside)
    have hall := (perm_map_filters_iff (fun item _ => hapart _ _ hB item) (publishItem store userId filters)).1
      ((hperm.append hperm').symm.trans (hsplits.perm.trans hwhole))
    rcases hall item hitem with h | h
    · obtain ⟨a, ha, -⟩ := ListedItem.isAmong_iff.1 h
      exact Option.isSome_of_eq_some ha
    · obtain ⟨a, ha, -⟩ := ListedItem.isAmong_iff.1 h
      exact Option.isSome_of_eq_some ha
  · intro hstores A B hA hB hmem
    obtain ⟨inside, hinside, hperm⟩ := getEventsInRange_availability hstore hlisted hA
    obtain ⟨outside, houtside, hperm'⟩ := getEventsInRange_availability hstore hlisted hB
    refine ⟨inside, outside, hinside, houtside, ⟨fun event h h' => ?_, ?_⟩, ?_⟩
    · obtain ⟨item, hitem, rfl⟩ := List.mem_map.1 (hperm.mem_iff.1 h)
      obtain ⟨other, hother, heq⟩ := List.mem_map.1 (hperm'.mem_iff.1 h')
      obtain ⟨hkept, hamong⟩ := List.mem_filter.1 hitem
      obtain ⟨hkept', hamong'⟩ := List.mem_filter.1 hother
      have hsame := (stored_eq_of_publishItem_eq hstore (List.mem_filter.1 hkept').1
        (List.mem_filter.1 hkept).1 heq).1
      rw [ListedItem.isAmong, hsame] at hamong'
      exact absurd hamong' (by rw [← ListedItem.isAmong, hapart A B hmem item hamong]; exact Bool.false_ne_true)
    · refine (hperm.append hperm').trans (((perm_map_filters_iff (fun item _ => hapart A B hmem item) _).2
        fun item hitem => ?_).trans hwhole.symm)
      obtain ⟨a, ha⟩ := Option.isSome_iff_exists.1 (hstores item hitem)
      by_cases hin : a ∈ A
      · exact Or.inl (ListedItem.isAmong_iff.2 ⟨a, ha, hin⟩)
      · exact Or.inr (ListedItem.isAmong_iff.2 ⟨a, ha, (hmem a).2 hin⟩)
    · refine hperm.trans (List.Perm.of_eq (congrArg _ ?_))
      rw [keptItems, List.filter_filter]
      refine List.filter_congr fun item hitem => ?_
      cases hkeeps : item.keeps { filters with availability := none } with
      | false => rw [Bool.and_false, Bool.false_and]
      | true =>
        rw [Bool.and_true, Bool.true_and]
        exact isAmong_eq_counted (hstores item (List.mem_filter.2 ⟨hitem, hkeeps⟩)) A

/-- **The filters agree with what is listed** exactly when the kind of everything that is listed was stored, and
the availability of every user event. -/
theorem filters_agree_iff (hstore : store.IsWellFormed) {listed listed' : List KeeperEvent}
    (hlisted : getEventsInRange rt ark store userId input { filters with isAllDay := none } = .ok listed)
    (hlisted' : getEventsInRange rt ark store userId input { filters with availability := none } = .ok listed') :
    AgreesOnKind rt ark store userId input filters listed ∧
        AgreesOnAvailability rt ark store userId input filters listed' ↔
      StoresKind rt ark store userId input filters ∧ StoresAvailability rt ark store userId input filters :=
  and_congr (agreesOnKind_iff hlisted) (agreesOnAvailability_iff hstore hlisted')

end Listing

namespace Example

def syncedHour : SyncedEventRow where
  calendarId := "c1"
  id := "s1"
  startTime := 1772532000000
  endTime := 1772535600000
  title := some "Call"

def hourStore : EventStore where
  calendars := [ownCalendar]
  eventStates := [syncedHour]
  userEvents := []

def marchDay : KeeperEventRangeInput := ⟨1772496000000, 1772582400000, none⟩

theorem isWellFormed_hourStore : hourStore.IsWellFormed where
  eventStates := by decide
  userEvents := by decide
  availability := by
    intro row hrow value hvalue
    obtain rfl := List.mem_singleton.1 hrow
    cases hvalue
  userAvailability := fun row hrow => nomatch hrow

end Example

theorem filters_agree_iff_example :
    ∃ listed, getEventsInRange Example.kiritimati Example.noSchemas Example.hourStore "user" Example.marchDay {} =
        .ok listed ∧ listed.length = 1 ∧
      (AgreesOnKind Example.kiritimati Example.noSchemas Example.hourStore "user" Example.marchDay {} listed ∧
          AgreesOnAvailability Example.kiritimati Example.noSchemas Example.hourStore "user" Example.marchDay {}
            listed ↔
        StoresKind Example.kiritimati Example.noSchemas Example.hourStore "user" Example.marchDay {} ∧
          StoresAvailability Example.kiritimati Example.noSchemas Example.hourStore "user" Example.marchDay {}) := by
  obtain ⟨listed, hlisted, hlength⟩ : ∃ listed, getEventsInRange Example.kiritimati Example.noSchemas
      Example.hourStore "user" Example.marchDay {} = .ok listed ∧ listed.length = 1 := ⟨_, rfl, rfl⟩
  exact ⟨listed, hlisted, hlength, filters_agree_iff Example.isWellFormed_hourStore hlisted hlisted⟩

/-- **An event is in neither list**: its kind was not stored, and it is reported as timed. -/
theorem not_agreesOnKind :
    ∃ listed, getEventsInRange Example.kiritimati Example.noSchemas Example.hourStore "user" Example.marchDay {} =
        .ok listed ∧ listed.map (·.isAllDay) = [false] ∧
      ¬ AgreesOnKind Example.kiritimati Example.noSchemas Example.hourStore "user" Example.marchDay {} listed := by
  refine ⟨_, rfl, rfl, ?_⟩
  rintro ⟨allDay, timed, hallDay, htimed, hsplits, -⟩
  have hnone : getEventsInRange Example.kiritimati Example.noSchemas Example.hourStore "user" Example.marchDay
      { isAllDay := some true } = .ok [] := by rfl
  have hnone' : getEventsInRange Example.kiritimati Example.noSchemas Example.hourStore "user" Example.marchDay
      { isAllDay := some false } = .ok [] := by rfl
  obtain rfl : [] = allDay := Except.ok.inj (hnone.symm.trans hallDay)
  obtain rfl : [] = timed := Except.ok.inj (hnone'.symm.trans htimed)
  exact absurd hsplits.perm.length_eq (by decide)

end Keeper
