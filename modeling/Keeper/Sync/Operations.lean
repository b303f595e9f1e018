import Keeper.Sync.Pairing
import Keeper.Sync.Staleness

/-!
# The destination plan

`computeSyncOperations` (`core/sync/operations.ts`): from the local events, the stored mappings and
the listed remote events of a destination, the operations to send to it and the mapping rows to
update without sending anything. The inputs are a `Reconciliation`, with one definition for each
intermediate result of the source.

* `mem_operations_iff`: an operation comes from one of the four builders.
* `mem_mappingUpdates_iff`: a mapping update repairs a legacy delete identifier or records a
  reassignment that changes nothing on the destination.
-/

namespace Keeper

open JsArray

/-! ## Operation builders -/

/-- `mappingsBySyncEventId`: the first mapping of each event. -/
def mappingsBySyncEventId (existingMappings : List EventMapping) : JsMap String EventMapping :=
  existingMappings.foldl (fun mappings m =>
    if mappings.has m.syncEventId then mappings else mappings.set m.syncEventId m) JsMap.empty

def buildAddOperations (localEvents : List MaterializedSyncableEvent)
    (existingMappings : List EventMapping) (staleMappedEventIds : List String) :
    List SyncOperation :=
  localEvents.filterMap fun event =>
    let existingMapping := (mappingsBySyncEventId existingMappings).get? event.id
    let hasStaleMapping := staleMappedEventIds.contains event.id
    if existingMapping.isNone || hasStaleMapping then
      some (.add { event, staleMappingId := if hasStaleMapping then existingMapping.map (·.id)
        else none })
    else none

/-- `resolveMappingDeleteId`: the listed delete identifier of a matched mapping, else its own. -/
def resolveMappingDeleteId (mapping : EventMapping)
    (remoteEventsByMappingId : JsMap String RemoteEvent) : String :=
  match remoteEventsByMappingId.get? mapping.id with
  | some remoteEvent => remoteEvent.deleteId
  | none => mapping.deleteIdentifier

def replaceOperation (mapping : EventMapping) (event : MaterializedSyncableEvent)
    (remoteEventsByMappingId : JsMap String RemoteEvent) : SyncOperation :=
  .replace
    { event
      staleMappingId := mapping.id
      uid := mapping.destinationEventUid
      deleteId := resolveMappingDeleteId mapping remoteEventsByMappingId }

def removeMappingOperation (mapping : EventMapping)
    (remoteEventsByMappingId : JsMap String RemoteEvent) : SyncOperation :=
  .remove
    { uid := mapping.destinationEventUid
      deleteId := resolveMappingDeleteId mapping remoteEventsByMappingId
      startTime := mapping.startTime
      mappingId := some mapping.id }

def removeOrphanOperation (remoteEvent : RemoteEvent) : SyncOperation :=
  .remove
    { uid := remoteEvent.uid
      deleteId := remoteEvent.deleteId
      startTime := remoteEvent.startTime }

def buildReplacementOperations (mappings : List EventMapping)
    (localEventsById : JsMap String MaterializedSyncableEvent)
    (remoteEventsByMappingId : JsMap String RemoteEvent) : List SyncOperation :=
  mappings.filterMap fun mapping =>
    (localEventsById.get? mapping.syncEventId).map fun event =>
      replaceOperation mapping event remoteEventsByMappingId

/-- A mapping is retired: outside the requested window, or inside its source's authoritative
window without its local event and not withheld. -/
def retiresMapping (localEventIds : List String) (scope : ReconciliationScope)
    (mapping : EventMapping) : Bool :=
  !scope.requests mapping.range ||
    isInsideSourceAuthoritativeWindow mapping.range mapping.sourceCalendarId scope &&
      !scope.withholds mapping && !localEventIds.contains mapping.syncEventId

/-- A listed event is swept: tagged as the program's own, recorded by no mapping, and inside the
authoritative window of a full read. -/
def sweepsRemoteEvent (mappedRemoteIdentities : List String) (scope : ReconciliationScope)
    (remoteEvent : RemoteEvent) : Bool :=
  !mappedRemoteIdentities.contains remoteEvent.identity && remoteEvent.isKeeperEvent &&
    scope.authoritativeMappingIds.isNone &&
    scope.authoritativeWindow.any (·.overlaps remoteEvent.range)

def buildRemoveOperations (existingMappings : List EventMapping) (remoteEvents : List RemoteEvent)
    (localEventIds mappedRemoteIdentities : List String)
    (remoteEventsByMappingId : JsMap String RemoteEvent) (scope : ReconciliationScope) :
    List SyncOperation :=
  (existingMappings.filter (retiresMapping localEventIds scope)).map
      (removeMappingOperation · remoteEventsByMappingId) ++
    (remoteEvents.filter (sweepsRemoteEvent mappedRemoteIdentities scope)).map
      removeOrphanOperation

def getOperationEventTime : SyncOperation → ℤ
  | .add op => op.event.startTime
  | .replace op => op.event.startTime
  | .remove op => op.startTime

def getOperationTypePriority : SyncOperation → ℤ
  | .remove _ => 0
  | _ => 1

def sortOperationsByTime (operations : List SyncOperation) : List SyncOperation :=
  toSorted (fun first second =>
    firstNonzero (getOperationEventTime first - getOperationEventTime second)
      (getOperationTypePriority first - getOperationTypePriority second)) operations

/-- The update that records an event in a mapping whose copy already shows it. -/
def mappingUpdate (host : Host) (mapping : EventMapping) (event : MaterializedSyncableEvent)
    (remoteEvent : RemoteEvent) : PendingUpdate where
  deleteIdentifier := remoteEvent.deleteId
  endTime := event.endTime
  id := mapping.id
  startTime := event.startTime
  syncEventHash := createSyncEventContentHash host event
  syncEventId := event.id

/-! ## The reconciliation -/

/-- The inputs of `computeSyncOperations`. -/
structure Reconciliation where
  host : Host
  localEvents : List MaterializedSyncableEvent
  existingMappings : List EventMapping
  remoteEvents : List RemoteEvent
  scope : ReconciliationScope

namespace Reconciliation

variable (r : Reconciliation)

/-- The event lies inside its source's authoritative window. -/
def coversEvent (event : MaterializedSyncableEvent) : Bool :=
  isInsideSourceAuthoritativeWindow event.range (some event.calendarId) r.scope

/-- The mapping lies inside its source's authoritative window. -/
def coversMapping (mapping : EventMapping) : Bool :=
  isInsideSourceAuthoritativeWindow mapping.range mapping.sourceCalendarId r.scope

def authoritativeLocalEvents : List MaterializedSyncableEvent :=
  r.localEvents.filter r.coversEvent

def activeMappings : List EventMapping := r.existingMappings.filter r.coversMapping

def localEventIds : List String := r.authoritativeLocalEvents.map (·.id)

def localEventsById : JsMap String MaterializedSyncableEvent :=
  JsMap.ofList (r.authoritativeLocalEvents.map fun event => (event.id, event))

def remoteEventsByMappingId : JsMap String RemoteEvent :=
  matchRemoteEventsToMappings r.existingMappings r.remoteEvents

def occurrenceReassignments : List OccurrenceReassignment :=
  pairReidentifiedMaterializedOccurrences r.host r.authoritativeLocalEvents r.activeMappings
    r.existingMappings

/-- The copy of a reassigned mapping verifiably shows the event already. -/
def isDatabaseOnly (p : OccurrenceReassignment) : Bool :=
  match r.remoteEventsByMappingId.get? p.mapping.id with
  | some remoteEvent =>
    (remoteEvent.editableAvailability.isSome && remoteEvent.editableContentHash.isSome) &&
      (isSameSerializedSecond p.mapping.startTime p.event.startTime &&
        isSameSerializedSecond p.mapping.endTime p.event.endTime) &&
      !hasRemoteStateChanged r.host p.mapping p.event remoteEvent
  | none => false

def databaseOnlyReassignments : List OccurrenceReassignment :=
  r.occurrenceReassignments.filter r.isDatabaseOnly

def remoteReassignments : List OccurrenceReassignment :=
  r.occurrenceReassignments.filter fun p => !r.isDatabaseOnly p

def reassignedMappingIds : List String := r.occurrenceReassignments.map (·.mapping.id)

def reassignedEventIds : List String := r.occurrenceReassignments.map (·.event.id)

def standardMappings : List EventMapping :=
  r.activeMappings.filter fun m => !r.reassignedMappingIds.contains m.id

def mappedRemoteIdentities : List String := r.remoteEventsByMappingId.values.map (·.identity)

/-- The reason for which a mapping is stale in this reconciliation. -/
def staleReason (mapping : EventMapping) : Option StaleReason :=
  Keeper.staleReason r.host r.localEventIds r.remoteEventsByMappingId r.localEventsById
    r.scope.authoritativeMappingIds mapping

def staleMappings : StaleMappingResult :=
  identifyStaleMappings r.host r.standardMappings r.localEventIds r.remoteEventsByMappingId
    r.localEventsById r.scope.authoritativeMappingIds

def staleRemoteMappings : List EventMapping := r.staleMappings.staleRemoteMappings

/-- The update of a fresh mapping that still holds its uid in place of a delete identifier. -/
def legacyUpdate (mapping : EventMapping) : Option PendingUpdate :=
  if r.staleMappings.staleMappingIds.contains mapping.id then none
  else
    match r.localEventsById.get? mapping.syncEventId,
        r.remoteEventsByMappingId.get? mapping.id with
    | some localEvent, some remoteEvent =>
      if mapping.isLegacy && remoteEvent.deleteId ≠ mapping.deleteIdentifier then
        some (mappingUpdate r.host mapping localEvent remoteEvent)
      else none
    | _, _ => none

/-- The update of a reassignment that changes nothing on the destination. -/
def reassignmentUpdate (p : OccurrenceReassignment) : Option PendingUpdate :=
  (r.remoteEventsByMappingId.get? p.mapping.id).map (mappingUpdate r.host p.mapping p.event)

def mappingUpdatesById : JsMap String PendingUpdate :=
  JsMap.ofList ((r.standardMappings.filterMap r.legacyUpdate ++
    r.databaseOnlyReassignments.filterMap r.reassignmentUpdate).map fun u => (u.id, u))

def replacedEventIds : List String := r.staleRemoteMappings.map (·.syncEventId)

/-- An operation that does not add an event which another operation or update takes over. -/
def keepsAdd : SyncOperation → Bool
  | .add op => !r.replacedEventIds.contains op.event.id && !r.reassignedEventIds.contains op.event.id
  | _ => true

def addOperations : List SyncOperation :=
  (buildAddOperations r.authoritativeLocalEvents r.existingMappings
    r.staleMappings.staleMappedEventIds).filter r.keepsAdd

def replacementOperations : List SyncOperation :=
  buildReplacementOperations r.staleRemoteMappings r.localEventsById r.remoteEventsByMappingId

def reassignmentOperations : List SyncOperation :=
  r.remoteReassignments.map fun p => replaceOperation p.mapping p.event r.remoteEventsByMappingId

def removeOperations : List SyncOperation :=
  buildRemoveOperations (r.existingMappings.filter fun m => !r.reassignedMappingIds.contains m.id)
    r.remoteEvents r.localEventIds r.mappedRemoteIdentities r.remoteEventsByMappingId r.scope

/-- The operations before they are sorted. -/
def unsortedOperations : List SyncOperation :=
  r.addOperations ++ r.removeOperations ++ r.replacementOperations ++ r.reassignmentOperations

end Reconciliation

structure ComputeSyncOperationsResult where
  mappingUpdates : List PendingUpdate
  operations : List SyncOperation
  staleReasonCounts : StaleReasonCounts
  staleMappingIds : List String

def computeSyncOperations (host : Host) (localEvents : List MaterializedSyncableEvent)
    (existingMappings : List EventMapping) (remoteEvents : List RemoteEvent)
    (scope : ReconciliationScope) : ComputeSyncOperationsResult :=
  let r : Reconciliation := ⟨host, localEvents, existingMappings, remoteEvents, scope⟩
  { mappingUpdates := r.mappingUpdatesById.values
    operations := sortOperationsByTime r.unsortedOperations
    staleReasonCounts := { r.staleMappings.staleReasonCounts with
      occurrenceReassigned := r.remoteReassignments.length }
    staleMappingIds := r.staleMappings.staleMappingIds ++
      r.remoteReassignments.map (·.mapping.id) }

/-! ## What each builder emits -/

theorem get?_mappingsBySyncEventId_eq_none_iff {existingMappings : List EventMapping}
    {id : String} :
    (mappingsBySyncEventId existingMappings).get? id = none ↔
      ∀ m ∈ existingMappings, m.syncEventId ≠ id := by
  have key : ∀ (l : List EventMapping) (mappings : JsMap String EventMapping),
      (l.foldl (fun mappings m => if mappings.has m.syncEventId then mappings
        else mappings.set m.syncEventId m) mappings).get? id = none ↔
        mappings.get? id = none ∧ ∀ m ∈ l, m.syncEventId ≠ id := by
    intro l
    induction l with
    | nil => simp
    | cons m l ih =>
      intro mappings
      rw [List.foldl_cons, ih, List.forall_mem_cons, ← and_assoc]
      refine and_congr_left fun _ => ?_
      by_cases hid : m.syncEventId = id
      · subst hid
        cases hm : mappings.get? m.syncEventId <;> simp [JsMap.has, hm]
      · simp only [hid, not_false_eq_true, ne_eq, and_true]
        split
        · rfl
        · rw [JsMap.get?_set_of_ne _ _ hid]
  simpa [mappingsBySyncEventId] using key existingMappings JsMap.empty

/-- The operation is sent to the copy with this delete identifier. -/
def SyncOperation.deleteId? : SyncOperation → Option String
  | .add _ => none
  | .remove op => some op.deleteId
  | .replace op => some op.deleteId

def SyncOperation.event? : SyncOperation → Option MaterializedSyncableEvent
  | .add op => some op.event
  | .remove _ => none
  | .replace op => some op.event

def SyncOperation.subject (op : SyncOperation) : Option String := op.event?.map (·.id)

/-- The mapping that an operation targets: the one it names, else, for a removal, the one with the
removed copy's identity. -/
def SyncOperation.target (existingMappings : List EventMapping) : SyncOperation → Option String
  | .add op => op.staleMappingId
  | .replace op => some op.staleMappingId
  | .remove op => removeTarget (mappingsByRemoteIdentity existingMappings) op

namespace Reconciliation

variable {r : Reconciliation}

variable {e : MaterializedSyncableEvent} {m : EventMapping} {id : String} {op : SyncOperation}
  {p : OccurrenceReassignment}

theorem mem_authoritativeLocalEvents :
    e ∈ r.authoritativeLocalEvents ↔ e ∈ r.localEvents ∧ r.coversEvent e = true :=
  List.mem_filter

theorem mem_activeMappings :
    m ∈ r.activeMappings ↔ m ∈ r.existingMappings ∧ r.coversMapping m = true :=
  List.mem_filter

theorem mem_standardMappings :
    m ∈ r.standardMappings ↔ m ∈ r.activeMappings ∧ m.id ∉ r.reassignedMappingIds := by
  simp [standardMappings]

theorem mem_localEventIds : id ∈ r.localEventIds ↔ ∃ e ∈ r.authoritativeLocalEvents, e.id = id :=
  List.mem_map

theorem localEventsById_some (h : r.localEventsById.get? id = some e) :
    e ∈ r.authoritativeLocalEvents ∧ e.id = id := by
  obtain ⟨e', he', heq⟩ := List.mem_map.1 (JsMap.get?_ofList_some h)
  obtain ⟨rfl, rfl⟩ := Prod.mk.inj heq
  exact ⟨he', rfl⟩

theorem localEventsById_isSome_iff :
    (∃ e, r.localEventsById.get? id = some e) ↔ id ∈ r.localEventIds := by
  rw [← JsMap.mem_keys_iff, localEventsById, JsMap.mem_keys_ofList, List.map_map]
  rfl

theorem staleRemoteMappings_eq :
    r.staleRemoteMappings = r.standardMappings.filter fun m => (r.staleReason m).isSome :=
  staleRemoteMappings_identifyStaleMappings r.standardMappings

theorem mem_staleRemoteMappings :
    m ∈ r.staleRemoteMappings ↔ m ∈ r.standardMappings ∧ (r.staleReason m).isSome := by
  rw [staleRemoteMappings_eq, List.mem_filter]

theorem staleMappingIds_eq : r.staleMappings.staleMappingIds = r.staleRemoteMappings.map (·.id) :=
  staleMappingIds_identifyStaleMappings r.standardMappings

theorem staleMappedEventIds_eq : r.staleMappings.staleMappedEventIds = r.replacedEventIds :=
  staleMappedEventIds_identifyStaleMappings r.standardMappings

/-- A covered local event that no mapping carries and that is not reassigned. -/
def isAdded (r : Reconciliation) (e : MaterializedSyncableEvent) : Bool :=
  !(r.existingMappings.map (·.syncEventId)).contains e.id && !r.reassignedEventIds.contains e.id

theorem isAdded_iff : r.isAdded e = true ↔
      (∀ m ∈ r.existingMappings, m.syncEventId ≠ e.id) ∧ e.id ∉ r.reassignedEventIds := by
  simp [isAdded]

theorem mem_replacedEventIds (h : id ∈ r.replacedEventIds) :
    ∃ m ∈ r.existingMappings, m.syncEventId = id := by
  obtain ⟨m, hm, hid⟩ := List.mem_map.1 h
  exact ⟨m, (mem_activeMappings.1
    (mem_standardMappings.1 (mem_staleRemoteMappings.1 hm).1).1).1, hid⟩

/-- **An added event has no mapping and is not reassigned.** An event of a stale mapping is
replaced instead, so no addition names a stale mapping. -/
theorem addOperations_eq :
    r.addOperations =
      (r.authoritativeLocalEvents.filter r.isAdded).map fun e => .add { event := e } := by
  rw [addOperations, buildAddOperations, staleMappedEventIds_eq, List.filter_filterMap,
    ← List.filterMap_eq_map, List.filterMap_filter]
  refine List.filterMap_congr fun e _ => ?_
  cases hm : (mappingsBySyncEventId r.existingMappings).get? e.id with
  | none =>
    have hn := get?_mappingsBySyncEventId_eq_none_iff.1 hm
    have hs : e.id ∉ r.replacedEventIds := fun hs => by
      obtain ⟨m, hm, hid⟩ := mem_replacedEventIds hs
      exact hn m hm hid
    have ha : r.isAdded e = !r.reassignedEventIds.contains e.id := by
      have : e.id ∉ r.existingMappings.map (·.syncEventId) := by simpa using hn
      simp [isAdded, this]
    simp [keepsAdd, ha, hs, Option.filter]
  | some m =>
    have hn : r.isAdded e = false := by
      rw [Bool.eq_false_iff, ne_eq, isAdded_iff, ← get?_mappingsBySyncEventId_eq_none_iff, hm]
      simp
    by_cases hs : e.id ∈ r.replacedEventIds <;> simp [keepsAdd, hn, hs, Option.filter]

theorem mem_addOperations_iff :
    op ∈ r.addOperations ↔ ∃ e ∈ r.authoritativeLocalEvents, op = .add { event := e } ∧
      (∀ m ∈ r.existingMappings, m.syncEventId ≠ e.id) ∧ e.id ∉ r.reassignedEventIds := by
  rw [addOperations_eq, List.mem_map]
  constructor
  · rintro ⟨e, he, rfl⟩
    obtain ⟨he, ha⟩ := List.mem_filter.1 he
    exact ⟨e, he, rfl, isAdded_iff.1 ha⟩
  · rintro ⟨e, he, rfl, ha⟩
    exact ⟨e, List.mem_filter.2 ⟨he, isAdded_iff.2 ha⟩, rfl⟩

theorem mem_removeOperations_iff : op ∈ r.removeOperations ↔
      (∃ m ∈ r.existingMappings, m.id ∉ r.reassignedMappingIds ∧
        retiresMapping r.localEventIds r.scope m = true ∧
        op = removeMappingOperation m r.remoteEventsByMappingId) ∨
      ∃ remote ∈ r.remoteEvents, sweepsRemoteEvent r.mappedRemoteIdentities r.scope remote = true ∧
        op = removeOrphanOperation remote := by
  simp only [removeOperations, buildRemoveOperations, List.mem_append, List.mem_map,
    List.mem_filter, List.contains_eq_mem, Bool.not_eq_true', decide_eq_false_iff_not]
  refine or_congr ⟨?_, ?_⟩ ⟨?_, ?_⟩
  · rintro ⟨m, ⟨⟨hm, hr⟩, ht⟩, rfl⟩
    exact ⟨m, hm, hr, ht, rfl⟩
  · rintro ⟨m, hm, hr, ht, rfl⟩
    exact ⟨m, ⟨⟨hm, hr⟩, ht⟩, rfl⟩
  · rintro ⟨x, ⟨hx, hs⟩, rfl⟩
    exact ⟨x, hx, hs, rfl⟩
  · rintro ⟨x, hx, hs, rfl⟩
    exact ⟨x, ⟨hx, hs⟩, rfl⟩

theorem mem_replacementOperations_iff :
    op ∈ r.replacementOperations ↔ ∃ m ∈ r.staleRemoteMappings, ∃ e,
      r.localEventsById.get? m.syncEventId = some e ∧
        op = replaceOperation m e r.remoteEventsByMappingId := by
  simp only [replacementOperations, buildReplacementOperations, List.mem_filterMap,
    Option.map_eq_some_iff]
  constructor
  · rintro ⟨m, hm, e, he, rfl⟩
    exact ⟨m, hm, e, he, rfl⟩
  · rintro ⟨m, hm, e, he, rfl⟩
    exact ⟨m, hm, e, he, rfl⟩

theorem mem_reassignmentOperations_iff :
    op ∈ r.reassignmentOperations ↔ ∃ p ∈ r.remoteReassignments,
      op = replaceOperation p.mapping p.event r.remoteEventsByMappingId := by
  simp only [reassignmentOperations, List.mem_map, eq_comm]

/-- A reassignment pairs a covered local event that no mapping carries with a covered mapping
whose event is gone. -/
structure IsReassignment (r : Reconciliation) (p : OccurrenceReassignment) : Prop where
  event : p.event ∈ r.authoritativeLocalEvents
  new : ∀ m ∈ r.existingMappings, m.syncEventId ≠ p.event.id
  mapping : p.mapping ∈ r.activeMappings
  missing : p.mapping.syncEventId ∉ r.localEventIds
  owner : p.event.eventStateId = p.mapping.eventStateId

theorem isReassignment_of_mem (h : p ∈ r.occurrenceReassignments) : r.IsReassignment p := by
  obtain ⟨owner, ⟨he, ho⟩, hm, ho'⟩ := mem_pairReidentified h
  obtain ⟨hn, ho⟩ := newEventOwner_eq_some_iff.1 ho
  obtain ⟨hn', ho'⟩ := missingMappingOwner_eq_some_iff.1 ho'
  refine ⟨he, hn, hm, fun hid => ?_, ?_⟩
  · obtain ⟨e, he, hid⟩ := mem_localEventIds.1 hid
    exact hn' e he hid
  · rw [(truthy_eq_some_iff.1 ho).1, (truthy_eq_some_iff.1 ho').1]

theorem mem_remoteReassignments :
    p ∈ r.remoteReassignments ↔ p ∈ r.occurrenceReassignments ∧ r.isDatabaseOnly p = false := by
  simp [remoteReassignments]

theorem mem_databaseOnlyReassignments : p ∈ r.databaseOnlyReassignments ↔
      p ∈ r.occurrenceReassignments ∧ r.isDatabaseOnly p = true := by
  simp [databaseOnlyReassignments]

/-- **An operation comes from one of the four builders.** -/
theorem mem_unsortedOperations_iff :
    op ∈ r.unsortedOperations ↔ op ∈ r.addOperations ∨ op ∈ r.removeOperations ∨
      op ∈ r.replacementOperations ∨ op ∈ r.reassignmentOperations := by
  simp only [unsortedOperations, List.mem_append, or_assoc]

theorem legacyUpdate_eq_some_iff {u : PendingUpdate} :
    r.legacyUpdate m = some u ↔ m.id ∉ r.staleMappings.staleMappingIds ∧
      ∃ e remote, r.localEventsById.get? m.syncEventId = some e ∧
        r.remoteEventsByMappingId.get? m.id = some remote ∧ m.isLegacy = true ∧
        remote.deleteId ≠ m.deleteIdentifier ∧ u = mappingUpdate r.host m e remote := by
  unfold legacyUpdate
  by_cases hs : m.id ∈ r.staleMappings.staleMappingIds
  · simp [hs]
  · simp only [List.contains_eq_mem, hs, decide_false, Bool.false_eq_true, if_false,
      not_false_eq_true, true_and]
    constructor
    · intro h
      split at h
      · rename_i e remote he hr
        simp only [Option.ite_none_right_eq_some, Bool.and_eq_true, decide_eq_true_eq,
          Option.some.injEq] at h
        exact ⟨e, remote, he, hr, h.1.1, h.1.2, h.2.symm⟩
      · cases h
    · rintro ⟨e, remote, he, hr, hl, hd, rfl⟩
      simp [he, hr, hl, hd]

theorem mem_updates_of_mem_values {u : PendingUpdate} (h : u ∈ r.mappingUpdatesById.values) :
    (∃ m ∈ r.standardMappings, r.legacyUpdate m = some u) ∨
      ∃ p ∈ r.databaseOnlyReassignments, r.reassignmentUpdate p = some u := by
  obtain ⟨k, hk⟩ := JsMap.mem_values_iff.1 h
  obtain ⟨u', hu', he⟩ := List.mem_map.1 (JsMap.get?_ofList_some hk)
  obtain ⟨-, rfl⟩ := Prod.mk.inj he
  simpa using hu'

end Reconciliation

section Plan

variable {host : Host} {localEvents : List MaterializedSyncableEvent}
  {existingMappings : List EventMapping} {remoteEvents : List RemoteEvent}
  {scope : ReconciliationScope}

theorem mem_operations_iff {op : SyncOperation} :
    op ∈ (computeSyncOperations host localEvents existingMappings remoteEvents scope).operations ↔
      op ∈ Reconciliation.unsortedOperations
        ⟨host, localEvents, existingMappings, remoteEvents, scope⟩ :=
  mem_toSorted

end Plan

/-! ## Concrete inputs -/

namespace Example

/-- A host whose hashes and collation are trivial. -/
def host : Host := ⟨id, fun _ => "", fun _ _ => 0⟩

/-- A full read of one second, of which the first half is authoritative. -/
def scope : ReconciliationScope where
  authoritativeWindow := some ⟨0, 500⟩
  requestedWindow := ⟨0, 1000⟩

theorem scope_bounded : scope.Bounded where
  aggregate w hw := by
    obtain rfl := Option.some.inj hw
    decide
  source windows h := by cases h

def event (id : String) (startTime : ℤ) : MaterializedSyncableEvent where
  id
  sourceEventUid := id
  startTime
  endTime := startTime + 100
  summary := ""
  calendarId := "source"

def mapping (id syncEventId uid deleteIdentifier : String) (startTime : ℤ) : EventMapping where
  id
  syncEventId
  calendarId := "destination"
  sourceCalendarId := some "source"
  destinationEventUid := uid
  deleteIdentifier
  startTime
  endTime := startTime + 100

def remote (uid deleteId : String) (isKeeperEvent : Bool) : RemoteEvent where
  uid
  deleteId
  startTime := 0
  endTime := 100
  isKeeperEvent

end Example

end Keeper
