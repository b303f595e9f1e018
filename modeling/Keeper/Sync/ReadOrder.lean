import Keeper.Sync.BestPairing
import Keeper.Sync.ConflictFree

/-!
# The order of the three reads

None of the reads behind a plan has a guaranteed order. A plan does not depend on it: its tables are
keyed by distinct keys, its lists are selections, and the pairing is determined by the order of ids.

* `Rearranges.remoteEventsByMappingId`: mappings are matched to the same events.
* `computeSyncOperations_perm`: the plans of rearranged inputs hold the same.
-/

namespace Keeper

open JsArray

theorem Host.OrdersTotally.mono {host : Host} {ids ids' : List String} (h : host.OrdersTotally ids)
    (hsub : ids' ⊆ ids) : host.OrdersTotally ids' where
  orders := h.orders
  antisymm a ha b hb := h.antisymm a (hsub ha) b (hsub hb)

/-! ## Matches -/

section Matches

variable {remoteEvents remoteEvents' : List RemoteEvent} {mapping : EventMapping}

/-- The event with the identity of a mapping, where no two have the same uid and delete
identifier. -/
theorem get?_remoteEventsByIdentity_iff
    (hdistinct : (remoteEvents.map fun e => (e.uid, e.deleteId)).Nodup) (hnul : mapping.NulFree)
    {remoteEvent : RemoteEvent} :
    (remoteEventsByIdentity remoteEvents).get? mapping.identity = some remoteEvent ↔
      remoteEvent ∈ remoteEvents ∧ remoteEvent.identity = mapping.identity := by
  refine ⟨remoteEventsByIdentity_some, fun ⟨hmem, hidentity⟩ => ?_⟩
  obtain ⟨found, hfound⟩ := remoteEventsByIdentity_isSome hmem
  rw [hidentity] at hfound
  obtain ⟨hfoundMem, hfoundIdentity⟩ := remoteEventsByIdentity_some hfound
  have hkey := getRemoteIdentity_inj_of_left hnul.1 hnul.2 hidentity.symm
  have hkey' := getRemoteIdentity_inj_of_left hnul.1 hnul.2 hfoundIdentity.symm
  have hsame := List.inj_on_of_nodup_map hdistinct hfoundMem hmem
    (Prod.ext (hkey'.1.symm.trans hkey.1) (hkey'.2.symm.trans hkey.2))
  rw [hfound, hsame]

/-- **A mapping is matched to the same event** in another order of the listed ones. -/
theorem matchRemoteEvent_perm
    (hdistinct : (remoteEvents.map fun e => (e.uid, e.deleteId)).Nodup)
    (hperm : remoteEvents.Perm remoteEvents') (hnul : mapping.NulFree) :
    matchRemoteEvent remoteEvents mapping = matchRemoteEvent remoteEvents' mapping := by
  have hdistinct' := (hperm.map _).nodup_iff.1 hdistinct
  have hidentity : (remoteEventsByIdentity remoteEvents).get? mapping.identity =
      (remoteEventsByIdentity remoteEvents').get? mapping.identity := by
    refine Option.ext fun e => ?_
    rw [get?_remoteEventsByIdentity_iff hdistinct hnul,
      get?_remoteEventsByIdentity_iff hdistinct' hnul, hperm.mem_iff]
  refine Option.ext fun e => ?_
  have hfilter := hperm.filter fun r : RemoteEvent => r.uid = mapping.destinationEventUid
  have huid : remoteEvents.filter (fun r => r.uid = mapping.destinationEventUid) = [e] ↔
      remoteEvents'.filter (fun r => r.uid = mapping.destinationEventUid) = [e] := by
    rw [← List.perm_singleton, ← List.perm_singleton]
    exact ⟨hfilter.symm.trans, hfilter.trans⟩
  rw [matchRemoteEvent_eq_some_iff, matchRemoteEvent_eq_some_iff, hidentity, huid]

end Matches

/-! ## Stale mappings -/

theorem StaleReason.record_comm (counts : StaleReasonCounts) (reason reason' : StaleReason) :
    reason'.record (reason.record counts) = reason.record (reason'.record counts) := by
  cases reason <;> cases reason' <;>
    simp [StaleReason.record, recordStaleReasons, recordRemoteContentLengths, Nat.add_right_comm]

def recordReasons (reason : EventMapping → Option StaleReason) (counts : StaleReasonCounts)
    (mapping : EventMapping) : StaleReasonCounts :=
  match reason mapping with
  | some reason => reason.record counts
  | none => counts

theorem staleReasonCounts_foldl (reason : EventMapping → Option StaleReason)
    (mappings : List EventMapping) (result : StaleMappingResult) :
    (mappings.foldl (fun result mapping =>
      match reason mapping with
      | some reason => result.push mapping reason
      | none => result) result).staleReasonCounts =
        mappings.foldl (recordReasons reason) result.staleReasonCounts := by
  induction mappings generalizing result with
  | nil => rfl
  | cons mapping mappings ih =>
    rw [List.foldl_cons, ih, List.foldl_cons, recordReasons]
    cases reason mapping <;> rfl

/-- **The counts of a pass** do not depend on the order of the mappings. -/
theorem foldl_recordReasons_perm {reason : EventMapping → Option StaleReason}
    {mappings mappings' : List EventMapping} (h : mappings.Perm mappings')
    (counts : StaleReasonCounts) :
    mappings.foldl (recordReasons reason) counts =
      mappings'.foldl (recordReasons reason) counts := by
  refine h.foldl_eq' (fun mapping _ mapping' _ counts => ?_) counts
  unfold recordReasons
  cases reason mapping with
  | none => rfl
  | some first =>
    cases reason mapping' with
    | none => rfl
    | some second => exact StaleReason.record_comm counts first second

/-! ## Rearranged reads -/

namespace Reconciliation

/-- What a plan needs to be determined: distinct ids, of mappings and events, distinct identities of
remote events, and ids that the host orders totally. -/
structure IsDetermined (r : Reconciliation) : Prop where
  eventIds : (r.localEvents.map (·.id)).Nodup
  mappingIds : (r.existingMappings.map (·.id)).Nodup
  remoteEvents : (r.remoteEvents.map fun e => (e.uid, e.deleteId)).Nodup
  nulFree : ∀ m ∈ r.existingMappings, m.NulFree
  ordersEvents : r.host.OrdersTotally (r.localEvents.map (·.id))
  ordersMappings : r.host.OrdersTotally (r.existingMappings.map (·.id))

/-- The same reads, each in another order. -/
structure Rearranges (r r' : Reconciliation) : Prop where
  host : r'.host = r.host
  scope : r'.scope = r.scope
  localEvents : r.localEvents.Perm r'.localEvents
  existingMappings : r.existingMappings.Perm r'.existingMappings
  remoteEvents : r.remoteEvents.Perm r'.remoteEvents

namespace Rearranges

variable {r r' : Reconciliation}

theorem coversEvent (h : r.Rearranges r') : r'.coversEvent = r.coversEvent := by
  funext event
  rw [Reconciliation.coversEvent, Reconciliation.coversEvent, h.scope]

theorem coversMapping (h : r.Rearranges r') : r'.coversMapping = r.coversMapping := by
  funext mapping
  rw [Reconciliation.coversMapping, Reconciliation.coversMapping, h.scope]

theorem authoritativeLocalEvents (h : r.Rearranges r') :
    r.authoritativeLocalEvents.Perm r'.authoritativeLocalEvents := by
  rw [Reconciliation.authoritativeLocalEvents, Reconciliation.authoritativeLocalEvents,
    h.coversEvent]
  exact h.localEvents.filter _

theorem activeMappings (h : r.Rearranges r') : r.activeMappings.Perm r'.activeMappings := by
  rw [Reconciliation.activeMappings, Reconciliation.activeMappings, h.coversMapping]
  exact h.existingMappings.filter _

theorem mem_localEventIds (h : r.Rearranges r') (id : String) :
    id ∈ r'.localEventIds ↔ id ∈ r.localEventIds :=
  (h.authoritativeLocalEvents.map _).mem_iff.symm

theorem localEventsById (h : r.Rearranges r') (hr : r.IsDetermined) (id : String) :
    r'.localEventsById.get? id = r.localEventsById.get? id := by
  refine (JsMap.get?_ofList_perm ?_ (h.authoritativeLocalEvents.map _) id).symm
  rw [List.map_map]
  exact hr.eventIds.sublist (List.filter_sublist.map _)

/-- **Mappings are matched to the same events**. -/
theorem remoteEventsByMappingId (h : r.Rearranges r') (hr : r.IsDetermined) (id : String) :
    r'.remoteEventsByMappingId.get? id = r.remoteEventsByMappingId.get? id := by
  have hkey : ∀ (s : Reconciliation), (s.existingMappings.map (·.id)).Nodup → ∀ e,
      s.remoteEventsByMappingId.get? id = some e ↔
        ∃ m ∈ s.existingMappings, m.id = id ∧ matchRemoteEvent s.remoteEvents m = some e := by
    intro s hids e
    refine ⟨matchRemoteEventsToMappings_some, ?_⟩
    rintro ⟨m, hm, rfl, hmatch⟩
    rw [← hmatch]
    exact get?_matchRemoteEventsToMappings hids hm
  refine Option.ext fun e => ?_
  rw [hkey r' ((h.existingMappings.map _).nodup_iff.1 hr.mappingIds), hkey r hr.mappingIds]
  refine exists_congr fun m => ?_
  rw [h.existingMappings.mem_iff]
  refine and_congr_right fun hm => and_congr_right fun _ => ?_
  rw [matchRemoteEvent_perm hr.remoteEvents h.remoteEvents
    (hr.nulFree m (h.existingMappings.mem_iff.2 hm))]

theorem mem_mappedRemoteIdentities (h : r.Rearranges r') (hr : r.IsDetermined) (identity : String) :
    identity ∈ r'.mappedRemoteIdentities ↔ identity ∈ r.mappedRemoteIdentities := by
  simp only [mappedRemoteIdentities, List.mem_map, JsMap.mem_values_iff,
    h.remoteEventsByMappingId hr]

/-- **The same occurrences are reassigned**. -/
theorem occurrenceReassignments (h : r.Rearranges r') (hr : r.IsDetermined) :
    r.occurrenceReassignments.Perm r'.occurrenceReassignments := by
  rw [Reconciliation.occurrenceReassignments, Reconciliation.occurrenceReassignments, h.host]
  exact pairReidentified_perm (hr.eventIds.sublist (List.filter_sublist.map _))
    (nodup_activeMappings hr.mappingIds)
    (hr.ordersEvents.mono (List.filter_sublist.map _).subset)
    (hr.ordersMappings.mono (List.filter_sublist.map _).subset) h.authoritativeLocalEvents
    h.activeMappings h.existingMappings

theorem isDatabaseOnly (h : r.Rearranges r') (hr : r.IsDetermined) :
    r'.isDatabaseOnly = r.isDatabaseOnly := by
  funext p
  rw [Reconciliation.isDatabaseOnly, Reconciliation.isDatabaseOnly,
    h.remoteEventsByMappingId hr, h.host]

theorem databaseOnlyReassignments (h : r.Rearranges r') (hr : r.IsDetermined) :
    r.databaseOnlyReassignments.Perm r'.databaseOnlyReassignments := by
  rw [Reconciliation.databaseOnlyReassignments, Reconciliation.databaseOnlyReassignments,
    h.isDatabaseOnly hr]
  exact (h.occurrenceReassignments hr).filter _

theorem remoteReassignments (h : r.Rearranges r') (hr : r.IsDetermined) :
    r.remoteReassignments.Perm r'.remoteReassignments := by
  rw [Reconciliation.remoteReassignments, Reconciliation.remoteReassignments,
    h.isDatabaseOnly hr]
  exact (h.occurrenceReassignments hr).filter _

theorem contains_reassignedMappingIds (h : r.Rearranges r') (hr : r.IsDetermined) (id : String) :
    r'.reassignedMappingIds.contains id = r.reassignedMappingIds.contains id :=
  ((h.occurrenceReassignments hr).map _).contains_eq.symm

theorem contains_reassignedEventIds (h : r.Rearranges r') (hr : r.IsDetermined) (id : String) :
    r'.reassignedEventIds.contains id = r.reassignedEventIds.contains id :=
  ((h.occurrenceReassignments hr).map _).contains_eq.symm

theorem standardMappings (h : r.Rearranges r') (hr : r.IsDetermined) :
    r.standardMappings.Perm r'.standardMappings := by
  rw [Reconciliation.standardMappings, Reconciliation.standardMappings]
  simp only [h.contains_reassignedMappingIds hr]
  exact h.activeMappings.filter _

theorem staleReason (h : r.Rearranges r') (hr : r.IsDetermined) :
    r'.staleReason = r.staleReason := by
  funext mapping
  rw [Reconciliation.staleReason, Reconciliation.staleReason, Keeper.staleReason,
    Keeper.staleReason, h.host, h.scope]
  simp only [h.mem_localEventIds, h.remoteEventsByMappingId hr, h.localEventsById hr]

theorem staleRemoteMappings (h : r.Rearranges r') (hr : r.IsDetermined) :
    r.staleRemoteMappings.Perm r'.staleRemoteMappings := by
  rw [staleRemoteMappings_eq, staleRemoteMappings_eq, h.staleReason hr]
  exact (h.standardMappings hr).filter _

theorem staleMappingIds (h : r.Rearranges r') (hr : r.IsDetermined) :
    r.staleMappings.staleMappingIds.Perm r'.staleMappings.staleMappingIds := by
  rw [staleMappingIds_eq, staleMappingIds_eq]
  exact (h.staleRemoteMappings hr).map _

theorem staleReasonCounts (h : r.Rearranges r') (hr : r.IsDetermined) :
    r'.staleMappings.staleReasonCounts = r.staleMappings.staleReasonCounts := by
  have hcounts : ∀ s : Reconciliation, s.staleMappings.staleReasonCounts =
      s.standardMappings.foldl (recordReasons s.staleReason) {} := fun s =>
    staleReasonCounts_foldl s.staleReason s.standardMappings {}
  rw [hcounts, hcounts, h.staleReason hr]
  exact (foldl_recordReasons_perm (h.standardMappings hr) _).symm

/-! ### Updates -/

theorem legacyUpdate (h : r.Rearranges r') (hr : r.IsDetermined) :
    r'.legacyUpdate = r.legacyUpdate := by
  funext mapping
  rw [Reconciliation.legacyUpdate, Reconciliation.legacyUpdate, h.localEventsById hr,
    h.remoteEventsByMappingId hr, h.host, ← (h.staleMappingIds hr).contains_eq]

theorem reassignmentUpdate (h : r.Rearranges r') (hr : r.IsDetermined) :
    r'.reassignmentUpdate = r.reassignmentUpdate := by
  funext p
  rw [Reconciliation.reassignmentUpdate, Reconciliation.reassignmentUpdate,
    h.remoteEventsByMappingId hr, h.host]

/-- **The same mappings are updated**. -/
theorem mappingUpdates (h : r.Rearranges r') (hr : r.IsDetermined) :
    r.mappingUpdatesById.values.Perm r'.mappingUpdatesById.values := by
  rw [values_mappingUpdatesById hr.mappingIds,
    values_mappingUpdatesById ((h.existingMappings.map _).nodup_iff.1 hr.mappingIds)]
  refine List.Perm.append ?_ ?_
  · rw [legacyUpdates, legacyUpdates, h.legacyUpdate hr]
    exact (h.standardMappings hr).filterMap _
  · rw [reassignmentUpdates, reassignmentUpdates, h.reassignmentUpdate hr]
    exact (h.databaseOnlyReassignments hr).filterMap _

/-! ### Operations -/

theorem resolveMappingDeleteId (h : r.Rearranges r') (hr : r.IsDetermined)
    (mapping : EventMapping) :
    Keeper.resolveMappingDeleteId mapping r'.remoteEventsByMappingId =
      Keeper.resolveMappingDeleteId mapping r.remoteEventsByMappingId := by
  rw [Keeper.resolveMappingDeleteId, Keeper.resolveMappingDeleteId, h.remoteEventsByMappingId hr]

theorem addOperations (h : r.Rearranges r') (hr : r.IsDetermined) :
    r.addOperations.Perm r'.addOperations := by
  have hadded : r'.isAdded = r.isAdded := by
    funext event
    rw [isAdded, isAdded, ← (h.existingMappings.map _).contains_eq,
      h.contains_reassignedEventIds hr]
  rw [addOperations_eq, addOperations_eq, hadded]
  exact (h.authoritativeLocalEvents.filter _).map _

theorem removeOperations (h : r.Rearranges r') (hr : r.IsDetermined) :
    r.removeOperations.Perm r'.removeOperations := by
  have hretires : retiresMapping r'.localEventIds r'.scope =
      retiresMapping r.localEventIds r.scope := by
    funext mapping
    have hids : r'.localEventIds.contains mapping.syncEventId =
        r.localEventIds.contains mapping.syncEventId :=
      ((h.authoritativeLocalEvents.map _).contains_eq).symm
    rw [retiresMapping, retiresMapping, h.scope, hids]
  have hsweeps : sweepsRemoteEvent r'.mappedRemoteIdentities r'.scope =
      sweepsRemoteEvent r.mappedRemoteIdentities r.scope := by
    funext remoteEvent
    simp only [sweepsRemoteEvent, h.scope, List.contains_eq_mem, h.mem_mappedRemoteIdentities hr]
  have hremove : (removeMappingOperation · r'.remoteEventsByMappingId) =
      (removeMappingOperation · r.remoteEventsByMappingId) := by
    funext mapping
    rw [removeMappingOperation, removeMappingOperation, h.resolveMappingDeleteId hr]
  rw [Reconciliation.removeOperations, Reconciliation.removeOperations, buildRemoveOperations,
    buildRemoveOperations, hretires, hsweeps, hremove]
  simp only [h.contains_reassignedMappingIds hr]
  exact List.Perm.append (((h.existingMappings.filter _).filter _).map _)
    ((h.remoteEvents.filter _).map _)

theorem replacementOperations (h : r.Rearranges r') (hr : r.IsDetermined) :
    r.replacementOperations.Perm r'.replacementOperations := by
  rw [Reconciliation.replacementOperations, Reconciliation.replacementOperations,
    buildReplacementOperations, buildReplacementOperations]
  simp only [replaceOperation, h.localEventsById hr, h.resolveMappingDeleteId hr]
  exact (h.staleRemoteMappings hr).filterMap _

theorem reassignmentOperations (h : r.Rearranges r') (hr : r.IsDetermined) :
    r.reassignmentOperations.Perm r'.reassignmentOperations := by
  rw [Reconciliation.reassignmentOperations, Reconciliation.reassignmentOperations]
  simp only [replaceOperation, h.resolveMappingDeleteId hr]
  exact (h.remoteReassignments hr).map _

/-- **The same operations are planned**. -/
theorem unsortedOperations (h : r.Rearranges r') (hr : r.IsDetermined) :
    r.unsortedOperations.Perm r'.unsortedOperations :=
  (((h.addOperations hr).append (h.removeOperations hr)).append
    (h.replacementOperations hr)).append (h.reassignmentOperations hr)

end Rearranges

end Reconciliation

/-- **A plan does not depend on the order of the reads**: its operations, mapping updates and stale
mapping ids are the same in some order, and its counts are the same. -/
theorem computeSyncOperations_perm (host : Host)
    {localEvents localEvents' : List MaterializedSyncableEvent}
    {existingMappings existingMappings' : List EventMapping}
    {remoteEvents remoteEvents' : List RemoteEvent} (scope : ReconciliationScope)
    (heventIds : (localEvents.map (·.id)).Nodup)
    (hmappingIds : (existingMappings.map (·.id)).Nodup)
    (hremote : (remoteEvents.map fun e => (e.uid, e.deleteId)).Nodup)
    (hnul : ∀ m ∈ existingMappings, m.NulFree)
    (hordersEvents : host.OrdersTotally (localEvents.map (·.id)))
    (hordersMappings : host.OrdersTotally (existingMappings.map (·.id)))
    (hlocal : localEvents.Perm localEvents') (hmappings : existingMappings.Perm existingMappings')
    (hremotePerm : remoteEvents.Perm remoteEvents') :
    let plan := computeSyncOperations host localEvents existingMappings remoteEvents scope
    let plan' := computeSyncOperations host localEvents' existingMappings' remoteEvents' scope
    plan.operations.Perm plan'.operations ∧ plan.mappingUpdates.Perm plan'.mappingUpdates ∧
      plan.staleMappingIds.Perm plan'.staleMappingIds ∧
      plan.staleReasonCounts = plan'.staleReasonCounts := by
  have hr : Reconciliation.IsDetermined
      ⟨host, localEvents, existingMappings, remoteEvents, scope⟩ :=
    ⟨heventIds, hmappingIds, hremote, hnul, hordersEvents, hordersMappings⟩
  have h : Reconciliation.Rearranges ⟨host, localEvents, existingMappings, remoteEvents, scope⟩
      ⟨host, localEvents', existingMappings', remoteEvents', scope⟩ :=
    ⟨rfl, rfl, hlocal, hmappings, hremotePerm⟩
  refine ⟨?_, h.mappingUpdates hr, ?_, ?_⟩
  · exact (toSorted_perm _ _).trans ((h.unsortedOperations hr).trans (toSorted_perm _ _).symm)
  · exact (h.staleMappingIds hr).append ((h.remoteReassignments hr).map _)
  · have hcounts := h.staleReasonCounts hr
    have hlength := (h.remoteReassignments hr).length_eq
    simp only [computeSyncOperations, hcounts, hlength]

/-- Two mappings, whose events are gone, and their copies, read in two orders. -/
theorem computeSyncOperations_perm_example :
    (computeSyncOperations Example.plainHost []
        [Example.mapping "m" "e" "u" "d" 0, Example.mapping "m'" "e'" "u'" "d'" 0]
        [Example.remote "u" "d" true, Example.remote "u'" "d'" true]
        Example.scope).operations.Perm
      (computeSyncOperations Example.plainHost []
        [Example.mapping "m'" "e'" "u'" "d'" 0, Example.mapping "m" "e" "u" "d" 0]
        [Example.remote "u'" "d'" true, Example.remote "u" "d" true]
        Example.scope).operations :=
  (computeSyncOperations_perm Example.plainHost Example.scope (by decide) (by decide) (by decide)
    (by decide) (Example.plainHost_ordersTotally _) (Example.plainHost_ordersTotally _)
    (List.Perm.refl _) (List.Perm.swap _ _ _) (List.Perm.swap _ _ _)).1

/-- **The plan depends on the order of the listed events** where the identities of two collide with
that of a mapping that holds a NUL. -/
theorem not_computeSyncOperations_perm :
    ¬ ∀ remoteEvents remoteEvents' : List RemoteEvent,
      (remoteEvents.map fun e => (e.uid, e.deleteId)).Nodup → remoteEvents.Perm remoteEvents' →
        (computeSyncOperations Example.plainHost [] [Example.mapping "m" "e" "u" "a\u0000b" 0]
            remoteEvents Example.scope).operations.Perm
          (computeSyncOperations Example.plainHost [] [Example.mapping "m" "e" "u" "a\u0000b" 0]
            remoteEvents' Example.scope).operations := by
  intro h
  have hmem := (h [Example.remote "u" "a\u0000b" true, Example.remote "u\u0000a" "b" true]
    [Example.remote "u\u0000a" "b" true, Example.remote "u" "a\u0000b" true] (by decide)
    (List.Perm.swap _ _ _)).mem_iff
      (a := .remove { uid := "u", deleteId := "b", startTime := 0, mappingId := some "m" })
  revert hmem
  decide

end Keeper
