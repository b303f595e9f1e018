import Keeper.Sync.ConflictFree

/-!
# An empty plan means in sync

`syncCalendar` reports a destination as in sync when its plan is empty. An empty plan of a full
read, in which every event carries its editable state, means that each covered local event is
mapped, that its copy shows it, and that each covered mapping has its event.

* `computeSyncOperations_inSync`: what an empty plan says. An event whose mapping lies outside the
  authoritative window of the mapping's source is only known to be mapped.
* `computeSyncOperations_not_inSync`: such a mapping's copy can differ from the event.
-/

namespace Keeper

namespace ComputeSyncOperationsResult

/-- The plan asks for nothing. -/
def IsEmpty (plan : ComputeSyncOperationsResult) : Prop :=
  plan.operations = [] ∧ plan.mappingUpdates = []

instance (plan : ComputeSyncOperationsResult) : Decidable plan.IsEmpty :=
  inferInstanceAs (Decidable (_ ∧ _))

end ComputeSyncOperationsResult

/-- The mapping records the event as it is and is matched to a listed event that shows it. -/
def ShowsEvent (host : Host) (existingMappings : List EventMapping)
    (remoteEvents : List RemoteEvent) (m : EventMapping) (e : MaterializedSyncableEvent) : Prop :=
  m.syncEventHash = some (createSyncEventContentHash host e) ∧
    ∃ remote ∈ remoteEvents,
      (matchRemoteEventsToMappings existingMappings remoteEvents).get? m.id = some remote ∧
      remote.editableContentHash = some (createEditableEventContentHash host e) ∧
      remote.editableAvailability =
        some (expectedRemoteAvailability e remote.supportedAvailabilities) ∧
      serializedSecond remote.startTime = serializedSecond m.startTime ∧
      serializedSecond remote.endTime = serializedSecond m.endTime

namespace Reconciliation

variable {r : Reconciliation}

/-- The plan of the reconciliation asks for nothing. -/
structure Quiet (r : Reconciliation) : Prop where
  operations : r.unsortedOperations = []
  updates : r.mappingUpdatesById.values = []

theorem not_mem_operations (h : r.Quiet) (op : SyncOperation) : op ∉ r.unsortedOperations := by
  rw [h.operations]
  exact List.not_mem_nil

theorem occurrenceReassignments_eq_nil (hw : r.WellFormed) (h : r.Quiet) :
    r.occurrenceReassignments = [] := by
  refine List.eq_nil_iff_forall_not_mem.2 fun p hp => ?_
  cases hd : r.isDatabaseOnly p with
  | false =>
    exact not_mem_operations h _ (mem_unsortedOperations_iff.2 (Or.inr (Or.inr (Or.inr
      (mem_reassignmentOperations_iff.2 ⟨p, mem_remoteReassignments.2 ⟨hp, hd⟩, rfl⟩)))))
  | true =>
    have hp' := List.mem_map_of_mem (f := (·.mapping.id)) (mem_databaseOnlyReassignments.2 ⟨hp, hd⟩)
    rw [← map_reassignmentUpdates.1] at hp'
    obtain ⟨u, hu, -⟩ := List.mem_map.1 hp'
    have := values_mappingUpdatesById hw.mappingIds ▸ List.mem_append_right r.legacyUpdates hu
    rw [h.updates] at this
    exact List.not_mem_nil this

theorem staleRemoteMappings_eq_nil (h : r.Quiet) : r.staleRemoteMappings = [] := by
  refine List.eq_nil_iff_forall_not_mem.2 fun m hm => ?_
  obtain ⟨e, he⟩ := event_of_stale hm
  exact not_mem_operations h _ (mem_unsortedOperations_iff.2 (Or.inr (Or.inr (Or.inl
    (mem_replacementOperations_iff.2 ⟨m, hm, e, he, rfl⟩)))))

theorem standardMappings_eq (hw : r.WellFormed) (h : r.Quiet) :
    r.standardMappings = r.activeMappings := by
  simp [standardMappings, reassignedMappingIds, occurrenceReassignments_eq_nil hw h]

theorem exists_mapping_of_quiet (hw : r.WellFormed) (h : r.Quiet) {e : MaterializedSyncableEvent}
    (he : e ∈ r.authoritativeLocalEvents) : ∃ m ∈ r.existingMappings, m.syncEventId = e.id := by
  by_contra hn
  push Not at hn
  refine not_mem_operations h _ (mem_unsortedOperations_iff.2 (Or.inl
    (mem_addOperations_iff.2 ⟨e, he, rfl, hn, ?_⟩)))
  simp [reassignedEventIds, occurrenceReassignments_eq_nil hw h]

theorem retiresMapping_of_quiet (hw : r.WellFormed) (h : r.Quiet) {m : EventMapping}
    (hm : m ∈ r.existingMappings) : retiresMapping r.localEventIds r.scope m = false := by
  by_contra hr
  refine not_mem_operations h _ (mem_unsortedOperations_iff.2 (Or.inr (Or.inl
    (mem_removeOperations_iff.2 (Or.inl ⟨m, hm, ?_, Bool.of_not_eq_false hr, rfl⟩)))))
  simp [reassignedMappingIds, occurrenceReassignments_eq_nil hw h]

theorem staleReason_of_quiet (hw : r.WellFormed) (h : r.Quiet) {m : EventMapping}
    (hm : m ∈ r.activeMappings) : r.staleReason m = none := by
  rw [← standardMappings_eq hw h] at hm
  by_contra hs
  have := mem_staleRemoteMappings.2 ⟨hm, Option.isSome_iff_ne_none.2 hs⟩
  rw [staleRemoteMappings_eq_nil h] at this
  exact List.not_mem_nil this

/-- In a full read with editable states an active mapping shows its event. -/
theorem showsEvent_of_quiet (hw : r.WellFormed) (h : r.Quiet)
    (hfull : r.scope.authoritativeMappingIds = none)
    (hread : ∀ remote ∈ r.remoteEvents,
      remote.editableContentHash.isSome ∧ remote.editableAvailability.isSome)
    {e : MaterializedSyncableEvent} (he : e ∈ r.authoritativeLocalEvents) {m : EventMapping}
    (hm : m ∈ r.activeMappings) (hid : m.syncEventId = e.id) :
    ShowsEvent r.host r.existingMappings r.remoteEvents m e := by
  have hl : r.localEventsById.get? m.syncEventId = some e := hid ▸ (get?_localEventsById hw).2 he
  have hs := (staleReason_eq_none_iff (localEventsById_isSome_iff.1 ⟨e, hl⟩) hl).1
    (staleReason_of_quiet hw h hm)
  cases hr : r.remoteEventsByMappingId.get? m.id with
  | none => simp [hr, hfull] at hs
  | some remote =>
    simp only [hr] at hs
    obtain ⟨m', -, -, hmatch⟩ := matchRemoteEventsToMappings_some hr
    have hlisted := (matchRemoteEvent_spec hmatch).1
    obtain ⟨hc, ha⟩ := hread remote hlisted
    obtain ⟨hash, hhash⟩ := Option.isSome_iff_exists.1 hc
    obtain ⟨availability, hav⟩ := Option.isSome_iff_exists.1 ha
    refine ⟨hs.1, remote, hlisted, hr, ?_, ?_, hs.2.startTime, hs.2.endTime⟩
    · rw [hhash, hs.2.content hash hhash]
    · rw [hav, hs.2.availability availability hav]

end Reconciliation

/-! ## The plan -/

section Plan

variable {host : Host} {localEvents : List MaterializedSyncableEvent}
  {existingMappings : List EventMapping} {remoteEvents : List RemoteEvent}
  {scope : ReconciliationScope}

theorem quiet_iff_isEmpty :
    (Reconciliation.Quiet ⟨host, localEvents, existingMappings, remoteEvents, scope⟩) ↔
      (computeSyncOperations host localEvents existingMappings remoteEvents scope).IsEmpty :=
  ⟨fun h => ⟨JsArray.toSorted_eq_nil_iff.2 h.operations, h.updates⟩,
    fun h => ⟨JsArray.toSorted_eq_nil_iff.1 h.1, h.2⟩⟩

end Plan

/-- What an empty plan is reported as: each covered event is mapped and its copy shows it, and
each covered mapping that is not withheld has its event. The copies in question are those of the
mappings that `compared` selects. -/
def InSync (compared : EventMapping → Prop) (host : Host)
    (localEvents : List MaterializedSyncableEvent) (existingMappings : List EventMapping)
    (remoteEvents : List RemoteEvent) (scope : ReconciliationScope) : Prop :=
  (∀ e ∈ localEvents, isInsideSourceAuthoritativeWindow e.range (some e.calendarId) scope = true →
    ∃ m ∈ existingMappings, m.syncEventId = e.id ∧
      (compared m → ShowsEvent host existingMappings remoteEvents m e)) ∧
  ∀ m ∈ existingMappings,
    isInsideSourceAuthoritativeWindow m.range m.sourceCalendarId scope = true →
    scope.withholds m = false → ∃ e ∈ localEvents, e.id = m.syncEventId

/-- **An empty plan means in sync**, as far as the mappings inside their source's authoritative
window tell. -/
theorem computeSyncOperations_inSync (host : Host) (localEvents : List MaterializedSyncableEvent)
    (existingMappings : List EventMapping) (remoteEvents : List RemoteEvent)
    (scope : ReconciliationScope) (heid : (localEvents.map (·.id)).Nodup)
    (hmid : (existingMappings.map (·.id)).Nodup)
    (hsid : (existingMappings.map (·.syncEventId)).Nodup) (hscope : scope.Bounded)
    (hfull : scope.authoritativeMappingIds = none)
    (hread : ∀ remote ∈ remoteEvents,
      remote.editableContentHash.isSome ∧ remote.editableAvailability.isSome)
    (h : (computeSyncOperations host localEvents existingMappings remoteEvents scope).IsEmpty) :
    InSync (fun m => isInsideSourceAuthoritativeWindow m.range m.sourceCalendarId scope = true)
      host localEvents existingMappings remoteEvents scope := by
  let r : Reconciliation := ⟨host, localEvents, existingMappings, remoteEvents, scope⟩
  have hq : r.Quiet := quiet_iff_isEmpty.2 h
  have hw : r.WellFormed := ⟨heid, hmid, hsid, hscope⟩
  constructor
  · intro e he hc
    have hea := Reconciliation.mem_authoritativeLocalEvents (r := r).2 ⟨he, hc⟩
    obtain ⟨m, hm, hid⟩ := Reconciliation.exists_mapping_of_quiet hw hq hea
    refine ⟨m, hm, hid, fun hmc => ?_⟩
    exact Reconciliation.showsEvent_of_quiet hw hq hfull hread hea
      (Reconciliation.mem_activeMappings.2 ⟨hm, hmc⟩) hid
  · intro m hm hc hwith
    have hret := Reconciliation.retiresMapping_of_quiet hw hq hm
    simp only [retiresMapping, Bool.or_eq_false_iff, Bool.and_eq_false_iff] at hret
    have hl : m.syncEventId ∈ r.localEventIds := by
      rcases hret.2 with (h | h) | h
      · rw [hc] at h
        cases h
      · rw [hwith] at h
        cases h
      · simpa using h
    obtain ⟨e, he, hid⟩ := Reconciliation.mem_localEventIds.1 hl
    exact ⟨e, List.mem_of_mem_filter he, hid⟩

namespace Example

/-- A listed copy of an event, as a destination that supports every field reports it. -/
def copy (e : MaterializedSyncableEvent) (uid deleteId : String) : RemoteEvent where
  uid
  deleteId
  startTime := e.startTime
  endTime := e.endTime
  isKeeperEvent := true
  editableContentHash := some (createEditableEventContentHash host e)
  editableAvailability := some .busy

def recorded (e : MaterializedSyncableEvent) (uid deleteId : String) : EventMapping where
  id := "m"
  syncEventId := e.id
  calendarId := "destination"
  sourceCalendarId := some e.calendarId
  destinationEventUid := uid
  deleteIdentifier := deleteId
  syncEventHash := some (createSyncEventContentHash host e)
  startTime := e.startTime
  endTime := e.endTime

end Example

/-- The theorem at an event and its faithful copy. -/
theorem computeSyncOperations_inSync_example :
    InSync (fun m =>
        isInsideSourceAuthoritativeWindow m.range m.sourceCalendarId Example.scope = true)
      Example.host [Example.event "a" 0] [Example.recorded (Example.event "a" 0) "u" "d"]
      [Example.copy (Example.event "a" 0) "u" "d"] Example.scope :=
  computeSyncOperations_inSync _ _ _ _ _ (by decide) (by decide) (by decide) Example.scope_bounded
    rfl (by decide) (by decide)

/-- **A mapping beyond the authoritative window is not compared.** The event has moved inside the
window of its source, its mapping lies between that window and the requested edge without a hash
or a copy, and the plan is empty. -/
theorem computeSyncOperations_not_inSync :
    ([Example.event "a" 0].map (·.id)).Nodup ∧
      ([Example.mapping "m" "a" "u" "d" 700].map (·.id)).Nodup ∧
      ([Example.mapping "m" "a" "u" "d" 700].map (·.syncEventId)).Nodup ∧
      Example.scope.Bounded ∧ Example.scope.authoritativeMappingIds = none ∧
      (computeSyncOperations Example.host [Example.event "a" 0]
        [Example.mapping "m" "a" "u" "d" 700] [] Example.scope).IsEmpty ∧
      ¬ InSync (fun _ => True) Example.host [Example.event "a" 0]
        [Example.mapping "m" "a" "u" "d" 700] [] Example.scope := by
  refine ⟨by decide, by decide, by decide, Example.scope_bounded, rfl, by decide, fun h => ?_⟩
  obtain ⟨m, -, -, hm⟩ := h.1 (Example.event "a" 0) (by decide) (by decide)
  obtain ⟨-, remote, hr, -⟩ := hm trivial
  exact List.not_mem_nil hr

end Keeper
