import Keeper.Foundations.JsArray
import Keeper.Foundations.Text
import Keeper.Sync.Scope
import Mathlib.Data.List.Perm.Subperm

/-!
# Pairing occurrences that changed identity

`pairReidentifiedMaterializedOccurrences` (`core/sync/operations.ts`). When a series changes, its
occurrences get new ids. The new events of a series are paired with the mappings of the series
whose event is gone: first those in the same time slot, then the rest in order of time.

* `mem_pairReidentified`: what is paired is a new event and an orphaned mapping of one series.
* `nodup_pairReidentified_events`, `nodup_pairReidentified_mappings`: nothing is paired twice.
-/

namespace Keeper

open JsArray

structure OccurrenceReassignment where
  event : MaterializedSyncableEvent
  mapping : EventMapping
  deriving DecidableEq

/-! ## The pairing of one series -/

def compareMappingSlots (host : Host) (first second : EventMapping) : ℤ :=
  firstNonzero (first.startTime - second.startTime)
    (firstNonzero (first.endTime - second.endTime) (host.localeCompare first.id second.id))

def compareEventSlots (host : Host) (first second : MaterializedSyncableEvent) : ℤ :=
  firstNonzero (first.startTime - second.startTime)
    (firstNonzero (first.endTime - second.endTime) (host.localeCompare first.id second.id))

def mappingsBySlot (mappings : List EventMapping) : JsMap (ℤ × ℤ) (List EventMapping) :=
  JsMap.group (mappings.map fun m => (getSerializedSlotKey m.startTime m.endTime, m))

/-- Each event takes the first mapping left in its slot, if there is one. -/
def pairBySlot : List MaterializedSyncableEvent → JsMap (ℤ × ℤ) (List EventMapping) →
    List OccurrenceReassignment
  | [], _ => []
  | event :: events, slots =>
    let slotKey := getSerializedSlotKey event.startTime event.endTime
    match slots.get? slotKey with
    | some (mapping :: rest) => ⟨event, mapping⟩ :: pairBySlot events (slots.set slotKey rest)
    | _ => pairBySlot events slots

/-- The pairs of one owner's new events and missing mappings, both in the order of their slots. -/
def pairOrdered (orderedEvents : List MaterializedSyncableEvent)
    (orderedMappings : List EventMapping) : List OccurrenceReassignment :=
  let slotPairs := pairBySlot orderedEvents (mappingsBySlot orderedMappings)
  let remainingEvents := orderedEvents.filter fun event =>
    event.id ∉ slotPairs.map (·.event.id)
  let remainingMappings := orderedMappings.filter fun mapping =>
    mapping.id ∉ slotPairs.map (·.mapping.id)
  slotPairs ++ List.zipWith OccurrenceReassignment.mk remainingEvents remainingMappings

def pairOwner (host : Host) (events : List MaterializedSyncableEvent)
    (mappings : List EventMapping) : List OccurrenceReassignment :=
  pairOrdered (toSorted (compareEventSlots host) events)
    (toSorted (compareMappingSlots host) mappings)

theorem sublist_pairBySlot_events (events : List MaterializedSyncableEvent)
    (slots : JsMap (ℤ × ℤ) (List EventMapping)) :
    ((pairBySlot events slots).map (·.event)).Sublist events := by
  induction events generalizing slots with
  | nil => simp [pairBySlot]
  | cons event events ih =>
    rw [pairBySlot]
    split
    · exact (ih _).cons_cons event
    · exact (ih _).cons event

theorem subperm_pairBySlot_mappings (events : List MaterializedSyncableEvent)
    (slots : JsMap (ℤ × ℤ) (List EventMapping)) :
    ((pairBySlot events slots).map (·.mapping)).Subperm slots.values.flatten := by
  induction events generalizing slots with
  | nil => simp [pairBySlot]
  | cons event events ih =>
    rw [pairBySlot]
    split
    · rename_i mapping rest h
      have hp := JsMap.flatten_values_set_tail h
      exact (((List.subperm_cons mapping).2 (ih _))).trans hp.symm.subperm
    · exact ih _

theorem flatten_values_mappingsBySlot (mappings : List EventMapping) :
    (mappingsBySlot mappings).values.flatten.Perm mappings := by
  simpa [mappingsBySlot, Function.comp_def] using JsMap.flatten_values_group
    (mappings.map fun m => (getSerializedSlotKey m.startTime m.endTime, m))

theorem sublist_zipWith_events (events : List MaterializedSyncableEvent)
    (mappings : List EventMapping) :
    ((List.zipWith OccurrenceReassignment.mk events mappings).map (·.event)).Sublist events := by
  induction events generalizing mappings with
  | nil => simp
  | cons e es ih =>
    cases mappings with
    | nil => simp
    | cons m ms => exact (ih ms).cons_cons e

theorem sublist_zipWith_mappings (events : List MaterializedSyncableEvent)
    (mappings : List EventMapping) :
    ((List.zipWith OccurrenceReassignment.mk events mappings).map (·.mapping)).Sublist
      mappings := by
  induction events generalizing mappings with
  | nil => simp
  | cons e es ih =>
    cases mappings with
    | nil => simp
    | cons m ms => exact (ih ms).cons_cons m

theorem subperm_slotPairs_mappings (events : List MaterializedSyncableEvent)
    (mappings : List EventMapping) :
    ((pairBySlot events (mappingsBySlot mappings)).map (·.mapping)).Subperm mappings :=
  (subperm_pairBySlot_mappings events _).trans (flatten_values_mappingsBySlot mappings).subperm

variable {events : List MaterializedSyncableEvent} {mappings : List EventMapping}
  {p : OccurrenceReassignment}

theorem mem_pairOrdered (h : p ∈ pairOrdered events mappings) :
    p.event ∈ events ∧ p.mapping ∈ mappings := by
  rcases List.mem_append.1 h with h | h
  · exact ⟨(sublist_pairBySlot_events _ _).subset (List.mem_map_of_mem h),
      (subperm_slotPairs_mappings _ _).subset (List.mem_map_of_mem h)⟩
  · exact ⟨List.mem_of_mem_filter
        ((sublist_zipWith_events _ _).subset (List.mem_map_of_mem (f := (·.event)) h)),
      List.mem_of_mem_filter
        ((sublist_zipWith_mappings _ _).subset (List.mem_map_of_mem (f := (·.mapping)) h))⟩

theorem map_event_id (l : List OccurrenceReassignment) :
    l.map (·.event.id) = (l.map (·.event)).map (·.id) := by
  rw [List.map_map]
  rfl

theorem map_mapping_id (l : List OccurrenceReassignment) :
    l.map (·.mapping.id) = (l.map (·.mapping)).map (·.id) := by
  rw [List.map_map]
  rfl

theorem nodup_pairOrdered_events (mappings : List EventMapping) (h : (events.map (·.id)).Nodup) :
    ((pairOrdered events mappings).map (·.event.id)).Nodup := by
  rw [pairOrdered, List.map_append, List.nodup_append]
  refine ⟨?_, ?_, ?_⟩
  · rw [map_event_id]
    exact h.sublist ((sublist_pairBySlot_events _ _).map _)
  · rw [map_event_id]
    exact h.sublist (((sublist_zipWith_events _ _).trans List.filter_sublist).map _)
  · rintro id hid _ hid' rfl
    obtain ⟨p, hp, rfl⟩ := List.mem_map.1 hid'
    have := (sublist_zipWith_events _ _).subset (List.mem_map_of_mem (f := (·.event)) hp)
    exact absurd hid (by simpa using (List.mem_filter.1 this).2)

theorem nodup_pairOrdered_mappings (events : List MaterializedSyncableEvent)
    (h : (mappings.map (·.id)).Nodup) :
    ((pairOrdered events mappings).map (·.mapping.id)).Nodup := by
  rw [pairOrdered, List.map_append, List.nodup_append]
  refine ⟨?_, ?_, ?_⟩
  · obtain ⟨l, hl, hs⟩ := subperm_slotPairs_mappings events mappings
    rw [map_mapping_id]
    exact (hl.map _).nodup_iff.1 (h.sublist (hs.map _))
  · rw [map_mapping_id]
    exact h.sublist (((sublist_zipWith_mappings _ _).trans List.filter_sublist).map _)
  · rintro id hid _ hid' rfl
    obtain ⟨p, hp, rfl⟩ := List.mem_map.1 hid'
    have := (sublist_zipWith_mappings _ _).subset (List.mem_map_of_mem (f := (·.mapping)) hp)
    exact absurd hid (by simpa using (List.mem_filter.1 this).2)

theorem mem_pairOwner {host : Host} (h : p ∈ pairOwner host events mappings) :
    p.event ∈ events ∧ p.mapping ∈ mappings := by
  simpa using mem_pairOrdered h

theorem nodup_pairOwner_events {host : Host} (mappings : List EventMapping)
    (h : (events.map (·.id)).Nodup) : ((pairOwner host events mappings).map (·.event.id)).Nodup :=
  nodup_pairOrdered_events _ (((toSorted_perm _ events).map _).nodup_iff.2 h)

theorem nodup_pairOwner_mappings {host : Host} (events : List MaterializedSyncableEvent)
    (h : (mappings.map (·.id)).Nodup) :
    ((pairOwner host events mappings).map (·.mapping.id)).Nodup :=
  nodup_pairOrdered_mappings _ (((toSorted_perm _ mappings).map _).nodup_iff.2 h)

/-! ## All series -/

/-- The event state that owns a local event, if no mapping carries the event yet. -/
def newEventOwner (allMappings : List EventMapping) (event : MaterializedSyncableEvent) :
    Option String :=
  if event.id ∈ allMappings.map (·.syncEventId) then none else truthy event.eventStateId

/-- The event state that owns a mapping, if its local event is gone. -/
def missingMappingOwner (localEvents : List MaterializedSyncableEvent) (mapping : EventMapping) :
    Option String :=
  if mapping.syncEventId ∈ localEvents.map (·.id) then none else truthy mapping.eventStateId

def newEventsByOwner (localEvents : List MaterializedSyncableEvent)
    (allMappings : List EventMapping) : JsMap String (List MaterializedSyncableEvent) :=
  JsMap.group (JsMap.keyed (newEventOwner allMappings) localEvents)

def missingMappingsByOwner (localEvents : List MaterializedSyncableEvent)
    (reassignableMappings : List EventMapping) : JsMap String (List EventMapping) :=
  JsMap.group (JsMap.keyed (missingMappingOwner localEvents) reassignableMappings)

def pairReidentifiedMaterializedOccurrences (host : Host)
    (localEvents : List MaterializedSyncableEvent)
    (reassignableMappings allMappings : List EventMapping) : List OccurrenceReassignment :=
  (newEventsByOwner localEvents allMappings).entries.flatMap fun owned =>
    match (missingMappingsByOwner localEvents reassignableMappings).get? owned.1 with
    | some mappings => pairOwner host owned.2 mappings
    | none => []

theorem newEventOwner_eq_some_iff {allMappings : List EventMapping}
    {e : MaterializedSyncableEvent} {owner : String} :
    newEventOwner allMappings e = some owner ↔
      (∀ m ∈ allMappings, m.syncEventId ≠ e.id) ∧ truthy e.eventStateId = some owner := by
  simp [newEventOwner]

theorem missingMappingOwner_eq_some_iff {localEvents : List MaterializedSyncableEvent}
    {m : EventMapping} {owner : String} :
    missingMappingOwner localEvents m = some owner ↔
      (∀ e ∈ localEvents, e.id ≠ m.syncEventId) ∧ truthy m.eventStateId = some owner := by
  simp [missingMappingOwner]

variable {host : Host} {localEvents : List MaterializedSyncableEvent}
  {reassignableMappings allMappings : List EventMapping}

/-- The pairs of one owner are of its new events and missing mappings. -/
theorem mem_pairs_of_owner {owner : String}
    (he : (owner, events) ∈ (newEventsByOwner localEvents allMappings).entries)
    (hp : p ∈ match (missingMappingsByOwner localEvents reassignableMappings).get? owner with | some mappings => pairOwner host events mappings | none => []) :
    (p.event ∈ localEvents ∧ newEventOwner allMappings p.event = some owner) ∧
      p.mapping ∈ reassignableMappings ∧ missingMappingOwner localEvents p.mapping = some owner := by
  split at hp
  · rename_i mappings hm
    obtain ⟨h1, h2⟩ := mem_pairOwner hp
    obtain ⟨-, rfl⟩ := JsMap.get?_group.1 (JsMap.mem_entries_iff.1 he)
    obtain ⟨-, rfl⟩ := JsMap.get?_group.1 hm
    exact ⟨JsMap.mem_keyed.1 (JsMap.mem_valuesAt.1 h1), JsMap.mem_keyed.1 (JsMap.mem_valuesAt.1 h2)⟩
  · simp at hp

/-- **A pair is a new event and an orphaned mapping of one series.** -/
theorem mem_pairReidentified
    (h : p ∈ pairReidentifiedMaterializedOccurrences host localEvents reassignableMappings allMappings) :
    ∃ owner, (p.event ∈ localEvents ∧ newEventOwner allMappings p.event = some owner) ∧
      p.mapping ∈ reassignableMappings ∧ missingMappingOwner localEvents p.mapping = some owner := by
  obtain ⟨⟨owner, events⟩, he, hp⟩ := List.mem_flatMap.1 h
  exact ⟨owner, mem_pairs_of_owner he hp⟩

/-- **No event is paired twice.** -/
theorem nodup_pairReidentified_events (h : (localEvents.map (·.id)).Nodup) :
    ((pairReidentifiedMaterializedOccurrences host localEvents reassignableMappings
      allMappings).map (·.event.id)).Nodup := by
  refine JsMap.nodup_map_flatMap_entries ?_ ?_
  · rintro ⟨owner, events⟩ he
    split
    · obtain ⟨-, rfl⟩ := JsMap.get?_group.1 (JsMap.mem_entries_iff.1 he)
      rw [JsMap.valuesAt_keyed]
      exact nodup_pairOwner_events _ (h.sublist (List.filter_sublist.map _))
    · simp
  · rintro ⟨owner, events⟩ he ⟨owner', events'⟩ he' p hp p' hp' hid
    obtain ⟨⟨hm, ho⟩, -⟩ := mem_pairs_of_owner he hp
    obtain ⟨⟨hm', ho'⟩, -⟩ := mem_pairs_of_owner he' hp'
    rw [List.inj_on_of_nodup_map h hm hm' hid, ho'] at ho
    exact (Option.some.inj ho).symm

/-- **No mapping is paired twice.** -/
theorem nodup_pairReidentified_mappings (h : (reassignableMappings.map (·.id)).Nodup) :
    ((pairReidentifiedMaterializedOccurrences host localEvents reassignableMappings
      allMappings).map (·.mapping.id)).Nodup := by
  refine JsMap.nodup_map_flatMap_entries ?_ ?_
  · rintro ⟨owner, events⟩ he
    split
    · rename_i mappings hm
      obtain ⟨-, rfl⟩ := JsMap.get?_group.1 hm
      rw [JsMap.valuesAt_keyed]
      exact nodup_pairOwner_mappings _ (h.sublist (List.filter_sublist.map _))
    · simp
  · rintro ⟨owner, events⟩ he ⟨owner', events'⟩ he' p hp p' hp' hid
    obtain ⟨-, hm, ho⟩ := mem_pairs_of_owner he hp
    obtain ⟨-, hm', ho'⟩ := mem_pairs_of_owner he' hp'
    rw [List.inj_on_of_nodup_map h hm hm' hid, ho'] at ho
    exact (Option.some.inj ho).symm

end Keeper
