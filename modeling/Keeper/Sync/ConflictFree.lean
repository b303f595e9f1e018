import Keeper.Sync.Operations

/-!
# The plan is conflict-free and complete

The builders of `computeSyncOperations` run over overlapping sets. When ids are distinct, event
ids of mappings are distinct and authoritative windows lie in the requested one, no mapping is the
target of two of their results, no event is the subject of two, and no new event is forgotten.

* `computeSyncOperations_conflictFree`: the four properties together.
* `nodup_targets`, `nodup_subjects`, `mem_subjects_of_unmapped`: the properties one by one.
-/

namespace Keeper

/-! ## Targets and subjects -/

namespace ComputeSyncOperationsResult

/-- The mappings that the operations target, one entry an operation. -/
def targets (plan : ComputeSyncOperationsResult) (existingMappings : List EventMapping) :
    List String :=
  plan.operations.filterMap (·.target existingMappings)

/-- The events that the operations and the mapping updates write. -/
def subjects (plan : ComputeSyncOperationsResult) : List String :=
  plan.operations.filterMap (·.subject) ++ plan.mappingUpdates.map (·.syncEventId)

/-- The event that each replacement and mapping update gives to its mapping. -/
def assignments (plan : ComputeSyncOperationsResult) : List (String × String) :=
  plan.operations.filterMap (fun
    | .replace op => some (op.staleMappingId, op.event.id)
    | _ => none) ++ plan.mappingUpdates.map fun u => (u.id, u.syncEventId)

end ComputeSyncOperationsResult

/-- Lists of images of distinct elements that satisfy exclusive conditions have no element in
common. -/
theorem disjoint_map_of_excludes {α β γ : Type*} {l : List α} {l' : List β} {f : α → γ} {g : β → γ}
    (h : ∀ a ∈ l, ∀ b ∈ l', f a ≠ g b) : ∀ x ∈ l.map f, ∀ y ∈ l'.map g, x ≠ y := by
  intro x hx y hy
  obtain ⟨a, ha, rfl⟩ := List.mem_map.1 hx
  obtain ⟨b, hb, rfl⟩ := List.mem_map.1 hy
  exact h a ha b hb

namespace Reconciliation

/-- What the database and the callers promise of a reconciliation's inputs. -/
structure WellFormed (r : Reconciliation) : Prop where
  eventIds : (r.localEvents.map (·.id)).Nodup
  mappingIds : (r.existingMappings.map (·.id)).Nodup
  syncEventIds : (r.existingMappings.map (·.syncEventId)).Nodup
  bounded : r.scope.Bounded

variable {r : Reconciliation}

theorem nodup_authoritativeLocalEvents (h : r.WellFormed) :
    (r.authoritativeLocalEvents.map (·.id)).Nodup :=
  h.eventIds.sublist (List.filter_sublist.map _)

theorem nodup_activeMappings (h : (r.existingMappings.map (·.id)).Nodup) :
    (r.activeMappings.map (·.id)).Nodup :=
  h.sublist (List.filter_sublist.map _)

theorem sublist_staleRemoteMappings : r.staleRemoteMappings.Sublist r.existingMappings := by
  rw [staleRemoteMappings_eq]
  exact List.filter_sublist.trans (List.filter_sublist.trans List.filter_sublist)

variable {m : EventMapping} {e : MaterializedSyncableEvent} {p : OccurrenceReassignment}

theorem mapping_eq_of_id (h : r.WellFormed) {m' : EventMapping} (hm : m ∈ r.existingMappings)
    (hm' : m' ∈ r.existingMappings) (hid : m.id = m'.id) : m = m' :=
  List.inj_on_of_nodup_map h.mappingIds hm hm' hid

theorem mapping_eq_of_syncEventId (h : r.WellFormed) {m' : EventMapping} (hm : m ∈ r.existingMappings)
    (hm' : m' ∈ r.existingMappings) (hid : m.syncEventId = m'.syncEventId) : m = m' :=
  List.inj_on_of_nodup_map h.syncEventIds hm hm' hid

/-! ## The lists of the builders -/

def retiredMappings (r : Reconciliation) : List EventMapping :=
  (r.existingMappings.filter fun m => !r.reassignedMappingIds.contains m.id).filter
    (retiresMapping r.localEventIds r.scope)

def legacyUpdates (r : Reconciliation) : List PendingUpdate :=
  r.standardMappings.filterMap r.legacyUpdate

def reassignmentUpdates (r : Reconciliation) : List PendingUpdate :=
  r.databaseOnlyReassignments.filterMap r.reassignmentUpdate

theorem mem_retiredMappings : m ∈ r.retiredMappings ↔ m ∈ r.existingMappings ∧ m.id ∉ r.reassignedMappingIds ∧
      retiresMapping r.localEventIds r.scope m = true := by
  simp only [retiredMappings, List.mem_filter, List.contains_eq_mem, Bool.not_eq_true',
    decide_eq_false_iff_not, and_assoc]

theorem retiresMapping_eq_false (h : r.WellFormed) (hm : m ∈ r.activeMappings) (hl : m.syncEventId ∈ r.localEventIds) :
    retiresMapping r.localEventIds r.scope m = false := by
  have hc := (mem_activeMappings.1 hm).2
  simp [retiresMapping, h.bounded.requested_overlaps hc, hl]

theorem get?_localEventsById (h : r.WellFormed) :
    r.localEventsById.get? e.id = some e ↔ e ∈ r.authoritativeLocalEvents := by
  have hn : ((r.authoritativeLocalEvents.map fun e => (e.id, e)).map Prod.fst).Nodup := by
    rw [List.map_map]
    exact nodup_authoritativeLocalEvents h
  rw [localEventsById, JsMap.get?_ofList_eq_some_iff hn]
  simp only [List.mem_map, Prod.mk.injEq]
  constructor
  · rintro ⟨e', he', -, rfl⟩
    exact he'
  · exact fun he => ⟨e, he, rfl, rfl⟩

theorem event_of_stale (hm : m ∈ r.staleRemoteMappings) : ∃ e, r.localEventsById.get? m.syncEventId = some e :=
  localEventsById_isSome_iff.2
    (mem_localEventIds_of_staleReason (mem_staleRemoteMappings.1 hm).2)

theorem exists_remote_of_databaseOnly (hp : p ∈ r.databaseOnlyReassignments) :
    ∃ remote, r.remoteEventsByMappingId.get? p.mapping.id = some remote := by
  have hd := (mem_databaseOnlyReassignments.1 hp).2
  unfold isDatabaseOnly at hd
  split at hd
  · rename_i remote hr
    exact ⟨remote, hr⟩
  · cases hd

theorem get?_mappingsByRemoteIdentity_of_sweeps (h : r.WellFormed) {remote : RemoteEvent}
    (hs : sweepsRemoteEvent r.mappedRemoteIdentities r.scope remote = true)
    (hl : remote ∈ r.remoteEvents) :
    (mappingsByRemoteIdentity r.existingMappings).get? remote.identity = none := by
  cases hm : (mappingsByRemoteIdentity r.existingMappings).get? remote.identity with
  | none => rfl
  | some m =>
    obtain ⟨hm, hi⟩ := mappingsByRemoteIdentity_some hm
    obtain ⟨x, hx⟩ := remoteEventsByIdentity_isSome hl
    rw [← hi] at hx
    have hmatch : r.remoteEventsByMappingId.get? m.id = some x := by
      rw [remoteEventsByMappingId, get?_matchRemoteEventsToMappings h.mappingIds hm]
      exact matchRemoteEvent_eq_some_iff.2 (Or.inl hx)
    have hxi : x.identity = remote.identity := by rw [(remoteEventsByIdentity_some hx).2, hi]
    have : remote.identity ∈ r.mappedRemoteIdentities :=
      List.mem_map.2 ⟨x, JsMap.mem_values_iff.2 ⟨m.id, hmatch⟩, hxi⟩
    simp [sweepsRemoteEvent, this] at hs

/-! ## Targets -/

theorem filterMap_target_addOperations (ms : List EventMapping) :
    r.addOperations.filterMap (·.target ms) = [] := by
  rw [List.filterMap_eq_nil_iff]
  intro op hop
  obtain ⟨e, -, rfl, -⟩ := mem_addOperations_iff.1 hop
  rfl

theorem filterMap_target_removeOperations (h : r.WellFormed) :
    r.removeOperations.filterMap (·.target r.existingMappings) =
      r.retiredMappings.map (·.id) := by
  rw [removeOperations, buildRemoveOperations, List.filterMap_append, List.filterMap_map,
    List.filterMap_map]
  have h1 : (r.remoteEvents.filter (sweepsRemoteEvent r.mappedRemoteIdentities r.scope)).filterMap
      ((·.target r.existingMappings) ∘ removeOrphanOperation) = [] := by
    rw [List.filterMap_eq_nil_iff]
    intro remote hr
    obtain ⟨hl, hs⟩ := List.mem_filter.1 hr
    have := get?_mappingsByRemoteIdentity_of_sweeps h hs hl
    simp only [RemoteEvent.identity] at this
    simp [Function.comp, SyncOperation.target, removeOrphanOperation, removeTarget, this]
  rw [h1, List.append_nil, retiredMappings, ← List.filterMap_eq_map]
  rfl

theorem filterMap_target_replacementOperations (ms : List EventMapping) :
    r.replacementOperations.filterMap (·.target ms) = r.staleRemoteMappings.map (·.id) := by
  rw [replacementOperations, buildReplacementOperations, List.filterMap_filterMap,
    ← List.filterMap_eq_map]
  refine List.filterMap_congr fun m hm => ?_
  obtain ⟨e, he⟩ := event_of_stale hm
  simp [he, replaceOperation, SyncOperation.target]

theorem filterMap_target_reassignmentOperations (ms : List EventMapping) :
    r.reassignmentOperations.filterMap (·.target ms) =
      r.remoteReassignments.map (·.mapping.id) := by
  rw [reassignmentOperations, List.filterMap_map, ← List.filterMap_eq_map]
  rfl

theorem filterMap_target_unsortedOperations (h : r.WellFormed) :
    r.unsortedOperations.filterMap (·.target r.existingMappings) =
      r.retiredMappings.map (·.id) ++ r.staleRemoteMappings.map (·.id) ++
        r.remoteReassignments.map (·.mapping.id) := by
  simp only [unsortedOperations, List.filterMap_append, filterMap_target_addOperations,
    filterMap_target_removeOperations h, filterMap_target_replacementOperations,
    filterMap_target_reassignmentOperations, List.nil_append]

theorem nodup_reassignedMappingIds (h : (r.existingMappings.map (·.id)).Nodup) :
    r.reassignedMappingIds.Nodup :=
  nodup_pairReidentified_mappings (nodup_activeMappings h)

theorem nodup_reassignedEventIds (h : r.WellFormed) : r.reassignedEventIds.Nodup :=
  nodup_pairReidentified_events (nodup_authoritativeLocalEvents h)

theorem stale_not_reassigned (hm : m ∈ r.staleRemoteMappings) : m.id ∉ r.reassignedMappingIds :=
  (mem_standardMappings.1 (mem_staleRemoteMappings.1 hm).1).2

theorem mem_reassignedMappingIds (hp : p ∈ r.occurrenceReassignments) : p.mapping.id ∈ r.reassignedMappingIds :=
  List.mem_map_of_mem hp

theorem mem_reassignedEventIds (hp : p ∈ r.occurrenceReassignments) : p.event.id ∈ r.reassignedEventIds :=
  List.mem_map_of_mem hp

/-- **No mapping is the target of two operations.** -/
theorem nodup_targets (h : r.WellFormed) :
    (r.unsortedOperations.filterMap (·.target r.existingMappings)).Nodup := by
  rw [filterMap_target_unsortedOperations h, List.nodup_append, List.nodup_append]
  refine ⟨⟨?_, ?_, disjoint_map_of_excludes ?_⟩, ?_, ?_⟩
  · exact h.mappingIds.sublist ((List.filter_sublist.trans List.filter_sublist).map _)
  · exact h.mappingIds.sublist (sublist_staleRemoteMappings.map _)
  · -- a stale mapping is active and has its event, so it is not retired
    intro m hm m' hm' hid
    obtain ⟨hm, -, hret⟩ := mem_retiredMappings.1 hm
    have hst := mem_staleRemoteMappings.1 hm'
    have hact := (mem_standardMappings.1 hst.1).1
    obtain rfl := mapping_eq_of_id h hm (mem_activeMappings.1 hact).1 hid
    rw [retiresMapping_eq_false h hact (mem_localEventIds_of_staleReason hst.2)] at hret
    cases hret
  · exact (nodup_reassignedMappingIds h.mappingIds).sublist (List.filter_sublist.map _)
  · rw [← List.map_append]
    refine disjoint_map_of_excludes ?_
    rintro m hm p hp hid
    have hp := mem_reassignedMappingIds (mem_remoteReassignments.1 hp).1
    rw [← hid] at hp
    rcases List.mem_append.1 hm with hm | hm
    · exact (mem_retiredMappings.1 hm).2.1 hp
    · exact stale_not_reassigned hm hp

/-! ## Mapping updates -/

/-- A legacy update is of a fresh standard mapping with its local event. -/
theorem mem_legacyUpdates {u : PendingUpdate} (hu : u ∈ r.legacyUpdates) :
    ∃ m ∈ r.standardMappings, m.id ∉ r.staleMappings.staleMappingIds ∧
      m.syncEventId ∈ r.localEventIds ∧ u.id = m.id ∧ u.syncEventId = m.syncEventId := by
  obtain ⟨m, hm, hu⟩ := List.mem_filterMap.1 hu
  obtain ⟨hs, e, remote, he, -, -, -, rfl⟩ := legacyUpdate_eq_some_iff.1 hu
  exact ⟨m, hm, hs, localEventsById_isSome_iff.1 ⟨e, he⟩, rfl, (localEventsById_some he).2⟩

theorem sublist_map_legacyUpdates :
    (r.legacyUpdates.map (·.id)).Sublist (r.standardMappings.map (·.id)) ∧
      (r.legacyUpdates.map (·.syncEventId)).Sublist (r.standardMappings.map (·.syncEventId)) := by
  have key : ∀ {f : PendingUpdate → String} {g : EventMapping → String},
      (∀ m u, r.legacyUpdate m = some u → f u = g m) → ∀ l : List EventMapping,
        ((l.filterMap r.legacyUpdate).map f).Sublist (l.map g) := by
    intro f g hfg l
    induction l with
    | nil => simp
    | cons m l ih =>
      cases hu : r.legacyUpdate m with
      | none => simpa [hu] using ih.cons (g m)
      | some u => simpa [hu, hfg m u hu] using ih.cons_cons (g m)
  refine ⟨key (fun m u hu => ?_) _, key (fun m u hu => ?_) _⟩ <;>
    obtain ⟨-, e, remote, he, -, -, -, rfl⟩ := legacyUpdate_eq_some_iff.1 hu
  · rfl
  · exact (localEventsById_some he).2

theorem map_reassignmentUpdates :
    r.reassignmentUpdates.map (·.id) = r.databaseOnlyReassignments.map (·.mapping.id) ∧
      r.reassignmentUpdates.map (·.syncEventId) =
        r.databaseOnlyReassignments.map (·.event.id) := by
  have key : ∀ {f : PendingUpdate → String} {g : OccurrenceReassignment → String},
      (∀ p remote, f (mappingUpdate r.host p.mapping p.event remote) = g p) →
        r.reassignmentUpdates.map f = r.databaseOnlyReassignments.map g := by
    intro f g hfg
    rw [reassignmentUpdates, ← List.filterMap_eq_map, ← List.filterMap_eq_map,
      List.filterMap_filterMap]
    refine List.filterMap_congr fun p hp => ?_
    obtain ⟨remote, hr⟩ := exists_remote_of_databaseOnly hp
    simp [reassignmentUpdate, hr, hfg]
  exact ⟨key fun p remote => rfl, key fun p remote => rfl⟩

theorem nodup_update_ids (h : (r.existingMappings.map (·.id)).Nodup) :
    ((r.legacyUpdates ++ r.reassignmentUpdates).map (·.id)).Nodup := by
  rw [List.map_append, map_reassignmentUpdates.1, List.nodup_append]
  refine ⟨?_, (nodup_reassignedMappingIds h).sublist (List.filter_sublist.map _), ?_⟩
  · exact (nodup_activeMappings h).sublist
      (sublist_map_legacyUpdates.1.trans (List.filter_sublist.map _))
  · refine disjoint_map_of_excludes ?_
    rintro u hu p hp hid
    obtain ⟨m, hm, -, -, hum, -⟩ := mem_legacyUpdates hu
    have := mem_reassignedMappingIds (mem_databaseOnlyReassignments.1 hp).1
    rw [← hid, hum] at this
    exact (mem_standardMappings.1 hm).2 this

theorem values_mappingUpdatesById (h : (r.existingMappings.map (·.id)).Nodup) :
    r.mappingUpdatesById.values = r.legacyUpdates ++ r.reassignmentUpdates := by
  rw [mappingUpdatesById, JsMap.values_ofList_of_nodup, List.map_map]
  · exact List.map_id _
  · rw [List.map_map]
    exact nodup_update_ids h

/-- **A mapping that is updated is the target of no operation.** -/
theorem update_not_target (h : r.WellFormed) {u : PendingUpdate}
    (hu : u ∈ r.mappingUpdatesById.values) :
    u.id ∉ r.unsortedOperations.filterMap (·.target r.existingMappings) := by
  rw [values_mappingUpdatesById h.mappingIds, List.mem_append] at hu
  simp only [filterMap_target_unsortedOperations h, List.mem_append, not_or, List.mem_map, not_exists,
    not_and]
  rcases hu with hu | hu
  · obtain ⟨m, hm, hs, hl, hum, -⟩ := mem_legacyUpdates hu
    obtain ⟨hact, hre⟩ := mem_standardMappings.1 hm
    rw [hum]
    refine ⟨⟨?_, ?_⟩, ?_⟩
    · rintro m' hm' hid
      obtain ⟨hm', -, hret⟩ := mem_retiredMappings.1 hm'
      obtain rfl := mapping_eq_of_id h hm' (mem_activeMappings.1 hact).1 hid
      rw [retiresMapping_eq_false h hact hl] at hret
      cases hret
    · rintro m' hm' hid
      rw [staleMappingIds_eq] at hs
      exact hs (hid ▸ List.mem_map_of_mem hm')
    · rintro p hp hid
      exact hre (hid ▸ mem_reassignedMappingIds (mem_remoteReassignments.1 hp).1)
  · have hu' : u.id ∈ r.databaseOnlyReassignments.map (·.mapping.id) :=
      map_reassignmentUpdates.1 ▸ List.mem_map_of_mem hu
    obtain ⟨p, hp, hup⟩ := List.mem_map.1 hu'
    obtain ⟨hocc, hdb⟩ := mem_databaseOnlyReassignments.1 hp
    have hre := mem_reassignedMappingIds hocc
    rw [← hup]
    refine ⟨⟨?_, ?_⟩, ?_⟩
    · rintro m' hm' hid
      exact (mem_retiredMappings.1 hm').2.1 (hid ▸ hre)
    · rintro m' hm' hid
      exact stale_not_reassigned hm' (hid ▸ hre)
    · rintro p' hp' hid
      obtain ⟨hocc', hdb'⟩ := mem_remoteReassignments.1 hp'
      rw [List.inj_on_of_nodup_map (nodup_reassignedMappingIds h.mappingIds) hocc' hocc hid, hdb] at hdb'
      cases hdb'

/-! ## Subjects -/

theorem filterMap_subject_addOperations :
    r.addOperations.filterMap (·.subject) =
      (r.authoritativeLocalEvents.filter r.isAdded).map (·.id) := by
  rw [addOperations_eq, List.filterMap_map, ← List.filterMap_eq_map]
  rfl

theorem filterMap_subject_removeOperations : r.removeOperations.filterMap (·.subject) = [] := by
  rw [List.filterMap_eq_nil_iff]
  intro op hop
  rcases mem_removeOperations_iff.1 hop with ⟨m, -, -, -, rfl⟩ | ⟨remote, -, -, rfl⟩ <;> rfl

theorem filterMap_subject_replacementOperations :
    r.replacementOperations.filterMap (·.subject) = r.staleRemoteMappings.map (·.syncEventId) := by
  rw [replacementOperations, buildReplacementOperations, List.filterMap_filterMap,
    ← List.filterMap_eq_map]
  refine List.filterMap_congr fun m hm => ?_
  obtain ⟨e, he⟩ := event_of_stale hm
  simp [he, replaceOperation, SyncOperation.subject, SyncOperation.event?,
    (localEventsById_some he).2]

theorem filterMap_subject_reassignmentOperations :
    r.reassignmentOperations.filterMap (·.subject) = r.remoteReassignments.map (·.event.id) := by
  rw [reassignmentOperations, List.filterMap_map, ← List.filterMap_eq_map]
  rfl

theorem subjects_eq (h : r.WellFormed) :
    r.unsortedOperations.filterMap (·.subject) ++ r.mappingUpdatesById.values.map (·.syncEventId) =
      (r.authoritativeLocalEvents.filter r.isAdded).map (·.id) ++
        r.staleRemoteMappings.map (·.syncEventId) ++ r.remoteReassignments.map (·.event.id) ++
        (r.legacyUpdates.map (·.syncEventId) ++ r.databaseOnlyReassignments.map (·.event.id)) := by
  simp only [unsortedOperations, List.filterMap_append, filterMap_subject_addOperations,
    filterMap_subject_removeOperations, filterMap_subject_replacementOperations,
    filterMap_subject_reassignmentOperations, List.append_nil, values_mappingUpdatesById h.mappingIds,
    List.map_append, map_reassignmentUpdates.2]

theorem not_syncEventId_of_reassigned (hp : p ∈ r.occurrenceReassignments) (hm : m ∈ r.existingMappings) :
    m.syncEventId ≠ p.event.id :=
  (isReassignment_of_mem hp).new m hm

/-- **No event is the subject of two results.** -/
theorem nodup_subjects (h : r.WellFormed) :
    (r.unsortedOperations.filterMap (·.subject) ++
      r.mappingUpdatesById.values.map (·.syncEventId)).Nodup := by
  have hstd : ∀ {m : EventMapping}, m ∈ r.standardMappings → m ∈ r.existingMappings :=
    fun hm => (mem_activeMappings.1 (mem_standardMappings.1 hm).1).1
  have hstale : ∀ {m : EventMapping}, m ∈ r.staleRemoteMappings → m ∈ r.existingMappings :=
    fun hm => sublist_staleRemoteMappings.subset hm
  rw [subjects_eq h, List.nodup_append, List.nodup_append, List.nodup_append, List.nodup_append]
  refine ⟨⟨⟨?_, ?_, disjoint_map_of_excludes ?_⟩, ?_, ?_⟩, ⟨?_, ?_, ?_⟩, ?_⟩
  · exact (nodup_authoritativeLocalEvents h).sublist (List.filter_sublist.map _)
  · exact h.syncEventIds.sublist (sublist_staleRemoteMappings.map _)
  · intro e he m hm hid
    exact (isAdded_iff.1 (List.mem_filter.1 he).2).1 m (hstale hm) hid.symm
  · exact (nodup_reassignedEventIds h).sublist (List.filter_sublist.map _)
  · -- added events and events of stale mappings against reassigned events
    intro x hx y hy hxy
    obtain ⟨p, hp, rfl⟩ := List.mem_map.1 hy
    have hp := (mem_remoteReassignments.1 hp).1
    rcases List.mem_append.1 hx with hx | hx
    · obtain ⟨e, he, rfl⟩ := List.mem_map.1 hx
      exact (isAdded_iff.1 (List.mem_filter.1 he).2).2 (hxy ▸ mem_reassignedEventIds hp)
    · obtain ⟨m, hm, rfl⟩ := List.mem_map.1 hx
      exact not_syncEventId_of_reassigned hp (hstale hm) hxy
  · exact h.syncEventIds.sublist (sublist_map_legacyUpdates.2.trans
      ((List.filter_sublist.trans List.filter_sublist).map _))
  · exact (nodup_reassignedEventIds h).sublist (List.filter_sublist.map _)
  · refine disjoint_map_of_excludes ?_
    intro u hu p hp hid
    obtain ⟨m, hm, -, -, -, hum⟩ := mem_legacyUpdates hu
    exact not_syncEventId_of_reassigned (mem_databaseOnlyReassignments.1 hp).1 (hstd hm)
      (hum ▸ hid)
  · -- operations against updates
    intro x hx y hy hxy
    subst hxy
    rcases List.mem_append.1 hy with hy | hy
    · obtain ⟨u, hu, rfl⟩ := List.mem_map.1 hy
      obtain ⟨m, hm, hns, -, -, hum⟩ := mem_legacyUpdates hu
      rw [hum] at hx
      rcases List.mem_append.1 hx with hx | hx
      · rcases List.mem_append.1 hx with hx | hx
        · obtain ⟨e, he, hid⟩ := List.mem_map.1 hx
          exact (isAdded_iff.1 (List.mem_filter.1 he).2).1 m (hstd hm) hid.symm
        · obtain ⟨m', hm', hid⟩ := List.mem_map.1 hx
          obtain rfl := mapping_eq_of_syncEventId h (hstale hm') (hstd hm) hid
          rw [staleMappingIds_eq] at hns
          exact hns (List.mem_map_of_mem hm')
      · obtain ⟨p, hp, hid⟩ := List.mem_map.1 hx
        exact not_syncEventId_of_reassigned (mem_remoteReassignments.1 hp).1 (hstd hm) hid.symm
    · obtain ⟨p, hp, rfl⟩ := List.mem_map.1 hy
      obtain ⟨hocc, hdb⟩ := mem_databaseOnlyReassignments.1 hp
      rcases List.mem_append.1 hx with hx | hx
      · rcases List.mem_append.1 hx with hx | hx
        · obtain ⟨e, he, hid⟩ := List.mem_map.1 hx
          exact (isAdded_iff.1 (List.mem_filter.1 he).2).2 (hid ▸ mem_reassignedEventIds hocc)
        · obtain ⟨m, hm, hid⟩ := List.mem_map.1 hx
          exact not_syncEventId_of_reassigned hocc (hstale hm) hid
      · obtain ⟨p', hp', hid⟩ := List.mem_map.1 hx
        obtain ⟨hocc', hdb'⟩ := mem_remoteReassignments.1 hp'
        rw [List.inj_on_of_nodup_map (nodup_reassignedEventIds h) hocc' hocc hid, hdb] at hdb'
        cases hdb'

/-- **No new event is forgotten**: a covered local event that no mapping carries is added or
reassigned. -/
theorem mem_subjects_of_unmapped (h : r.WellFormed) (he : e ∈ r.authoritativeLocalEvents)
    (hn : ∀ m ∈ r.existingMappings, m.syncEventId ≠ e.id) : e.id ∈ r.unsortedOperations.filterMap (·.subject) ++
      r.mappingUpdatesById.values.map (·.syncEventId) := by
  rw [subjects_eq h]
  simp only [List.mem_append]
  by_cases hr : e.id ∈ r.reassignedEventIds
  · obtain ⟨p, hp, hid⟩ := List.mem_map.1 hr
    rw [← hid]
    cases hd : r.isDatabaseOnly p with
    | true =>
      exact Or.inr (Or.inr (List.mem_map_of_mem (mem_databaseOnlyReassignments.2 ⟨hp, hd⟩)))
    | false => exact Or.inl (Or.inr (List.mem_map_of_mem (mem_remoteReassignments.2 ⟨hp, hd⟩)))
  · exact Or.inl (Or.inl (Or.inl
      (List.mem_map_of_mem (List.mem_filter.2 ⟨he, isAdded_iff.2 ⟨hn, hr⟩⟩))))

/-- A subject is a local event inside its source's authoritative window. -/
theorem subject_covered (h : r.WellFormed) {id : String}
    (hid : id ∈ r.unsortedOperations.filterMap (·.subject) ++
      r.mappingUpdatesById.values.map (·.syncEventId)) :
    ∃ e ∈ r.authoritativeLocalEvents, e.id = id := by
  rw [subjects_eq h] at hid
  simp only [List.mem_append] at hid
  have hre : ∀ {p : OccurrenceReassignment}, p ∈ r.occurrenceReassignments →
      ∃ e ∈ r.authoritativeLocalEvents, e.id = p.event.id :=
    fun hp => ⟨_, (isReassignment_of_mem hp).event, rfl⟩
  rcases hid with ((hid | hid) | hid) | hid | hid
  · obtain ⟨e, he, rfl⟩ := List.mem_map.1 hid
    exact ⟨e, List.mem_of_mem_filter he, rfl⟩
  · obtain ⟨m, hm, rfl⟩ := List.mem_map.1 hid
    exact mem_localEventIds.1 (mem_localEventIds_of_staleReason (mem_staleRemoteMappings.1 hm).2)
  · obtain ⟨p, hp, rfl⟩ := List.mem_map.1 hid
    exact hre (mem_remoteReassignments.1 hp).1
  · obtain ⟨u, hu, rfl⟩ := List.mem_map.1 hid
    obtain ⟨m, -, -, hl, -, hum⟩ := mem_legacyUpdates hu
    exact mem_localEventIds.1 (hum ▸ hl)
  · obtain ⟨p, hp, rfl⟩ := List.mem_map.1 hid
    exact hre (mem_databaseOnlyReassignments.1 hp).1

/-- The event of an operation is a local event inside its source's authoritative window. -/
theorem event?_covered {op : SyncOperation} (hop : op ∈ r.unsortedOperations) (he : op.event? = some e) :
    e ∈ r.authoritativeLocalEvents := by
  rcases mem_unsortedOperations_iff.1 hop with h | h | h | h
  · obtain ⟨e', he', rfl, -⟩ := mem_addOperations_iff.1 h
    obtain rfl := Option.some.inj he
    exact he'
  · rcases mem_removeOperations_iff.1 h with ⟨m, -, -, -, rfl⟩ | ⟨remote, -, -, rfl⟩ <;> cases he
  · obtain ⟨m, -, e', he', rfl⟩ := mem_replacementOperations_iff.1 h
    obtain rfl := Option.some.inj he
    exact (localEventsById_some he').1
  · obtain ⟨p, hp, rfl⟩ := mem_reassignmentOperations_iff.1 h
    obtain rfl := Option.some.inj he
    exact (isReassignment_of_mem (mem_remoteReassignments.1 hp).1).event

end Reconciliation

/-! ## The plan -/

/-- The plan of a reconciliation neither uses a mapping or an event twice nor forgets an event. -/
structure IsConflictFree (localEvents : List MaterializedSyncableEvent)
    (existingMappings : List EventMapping) (scope : ReconciliationScope)
    (plan : ComputeSyncOperationsResult) : Prop where
  /-- Each mapping is the target of at most one operation. -/
  targets : (plan.targets existingMappings).Nodup
  /-- A mapping that is updated is the target of none, and is updated once. -/
  updates : ∀ u ∈ plan.mappingUpdates, u.id ∉ plan.targets existingMappings
  updateIds : (plan.mappingUpdates.map (·.id)).Nodup
  /-- Each local event is the subject of at most one operation or update. -/
  subjects : plan.subjects.Nodup
  /-- A subject lies inside its source's authoritative window. -/
  covered : ∀ id ∈ plan.subjects, ∃ e ∈ localEvents, e.id = id ∧
    isInsideSourceAuthoritativeWindow e.range (some e.calendarId) scope = true
  events : ∀ op ∈ plan.operations, ∀ e, op.event? = some e → e ∈ localEvents
  /-- A covered event that no mapping carries is the subject of exactly one. -/
  complete : ∀ e ∈ localEvents,
    isInsideSourceAuthoritativeWindow e.range (some e.calendarId) scope = true →
    (∀ m ∈ existingMappings, m.syncEventId ≠ e.id) → plan.subjects.count e.id = 1
  /-- No two mappings are given the same event. -/
  assignments : ∀ a ∈ plan.assignments, ∀ b ∈ plan.assignments, a.2 = b.2 → a = b

theorem sublist_assignments (plan : ComputeSyncOperationsResult) :
    (plan.assignments.map Prod.snd).Sublist plan.subjects := by
  rw [ComputeSyncOperationsResult.assignments, ComputeSyncOperationsResult.subjects,
    List.map_append, List.map_map]
  refine List.Sublist.append ?_ (List.Sublist.refl _)
  induction plan.operations with
  | nil => simp
  | cons op l ih =>
    cases op with
    | add op => simpa [SyncOperation.subject, SyncOperation.event?] using ih.cons op.event.id
    | remove op => simpa [SyncOperation.subject, SyncOperation.event?] using ih
    | replace op => simpa [SyncOperation.subject, SyncOperation.event?] using ih

/-- **The plan is conflict-free and complete.** -/
theorem computeSyncOperations_conflictFree (host : Host)
    (localEvents : List MaterializedSyncableEvent) (existingMappings : List EventMapping)
    (remoteEvents : List RemoteEvent) (scope : ReconciliationScope)
    (heid : (localEvents.map (·.id)).Nodup) (hmid : (existingMappings.map (·.id)).Nodup)
    (hsid : (existingMappings.map (·.syncEventId)).Nodup) (hscope : scope.Bounded) :
    IsConflictFree localEvents existingMappings scope
      (computeSyncOperations host localEvents existingMappings remoteEvents scope) := by
  let r : Reconciliation := ⟨host, localEvents, existingMappings, remoteEvents, scope⟩
  have h : r.WellFormed := ⟨heid, hmid, hsid, hscope⟩
  have hperm : (computeSyncOperations host localEvents existingMappings remoteEvents
      scope).operations.Perm r.unsortedOperations := JsArray.toSorted_perm _ _
  have htargets := hperm.filterMap (·.target existingMappings)
  have hsubjects := (hperm.filterMap (·.subject)).append_right
    (r.mappingUpdatesById.values.map (·.syncEventId))
  have hnodup := hsubjects.nodup_iff.2 (Reconciliation.nodup_subjects h)
  refine ⟨htargets.nodup_iff.2 (Reconciliation.nodup_targets h), ?_, ?_, hnodup, ?_, ?_, ?_, ?_⟩
  · intro u hu hmem
    exact Reconciliation.update_not_target h hu (htargets.mem_iff.1 hmem)
  · have := Reconciliation.nodup_update_ids h.mappingIds
    rw [← Reconciliation.values_mappingUpdatesById h.mappingIds] at this
    exact this
  · intro id hid
    obtain ⟨e, he, heq⟩ := Reconciliation.subject_covered h (hsubjects.mem_iff.1 hid)
    obtain ⟨he, hc⟩ := Reconciliation.mem_authoritativeLocalEvents.1 he
    exact ⟨e, he, heq, hc⟩
  · intro op hop e he
    exact List.mem_of_mem_filter (Reconciliation.event?_covered (mem_operations_iff.1 hop) he)
  · intro e he hc hn
    have hmem := Reconciliation.mem_subjects_of_unmapped h
      (Reconciliation.mem_authoritativeLocalEvents.2 ⟨he, hc⟩) hn
    exact List.count_eq_one_of_mem hnodup (hsubjects.mem_iff.2 hmem)
  · intro a ha b hb hab
    exact List.inj_on_of_nodup_map (hnodup.sublist (sublist_assignments _)) ha hb hab

/-- The theorem at a new event, a mapping whose copy is missing and a mapping whose event is
gone. -/
theorem computeSyncOperations_conflictFree_example :
    IsConflictFree [Example.event "a" 0, Example.event "b" 0]
      [Example.mapping "m" "b" "u" "d" 0, Example.mapping "n" "c" "v" "f" 0] Example.scope
      (computeSyncOperations Example.host [Example.event "a" 0, Example.event "b" 0]
        [Example.mapping "m" "b" "u" "d" 0, Example.mapping "n" "c" "v" "f" 0]
        [Example.remote "v" "f" true] Example.scope) :=
  computeSyncOperations_conflictFree _ _ _ _ _ (by decide) (by decide) (by decide)
    Example.scope_bounded

end Keeper
