import Keeper.Sync.ConflictFree
import Keeper.Sync.InSync

/-!
# The targeted read

`planTargetedDestinationRead` of `packages/sync/src/sync-user.ts`: for a small change set only the copies
of mappings that carry a local event are asked for, by their delete identifiers, and the plan is made
from what is found.

* `matchRemoteEvent_filter`: what a mapping is matched to when some of the listed events are left out.
* `readsEnough_of_plansAlike`, `plansAlike_of_readsEnough`: what the copies that are left out decide.
* `plansAlike_iff`: when a targeted read plans as the windowed one.
-/

namespace Keeper

open JsArray

/-! ## The plan of a read -/

structure TargetedDestinationReadPlan where
  deleteIdentifiers : List String
  mappingIds : List String

def mappingsOfLocalEvents (localEvents : List MaterializedSyncableEvent)
    (existingMappings : List EventMapping) : List EventMapping :=
  let mappingsBySyncEventId := JsMap.group (existingMappings.map fun m => (m.syncEventId, m))
  localEvents.flatMap fun event => (mappingsBySyncEventId.get? event.id).getD []

def planTargetedDestinationRead (localEvents : List MaterializedSyncableEvent)
    (existingMappings : List EventMapping) : TargetedDestinationReadPlan :=
  let mappings := mappingsOfLocalEvents localEvents existingMappings
  { deleteIdentifiers := (JsMap.ofList (mappings.map fun m => (m.deleteIdentifier, ()))).keys
    mappingIds := (JsMap.ofList (mappings.map fun m => (m.id, ()))).keys }

section Plan

variable {localEvents : List MaterializedSyncableEvent} {existingMappings : List EventMapping}

variable {m : EventMapping}

theorem mem_mappingsOfLocalEvents : m ∈ mappingsOfLocalEvents localEvents existingMappings ↔
      m ∈ existingMappings ∧ m.syncEventId ∈ localEvents.map (·.id) := by
  simp only [mappingsOfLocalEvents, List.mem_flatMap, JsMap.getD_group, JsMap.mem_valuesAt,
    List.mem_map, Prod.mk.injEq]
  constructor
  · rintro ⟨event, hevent, m', hm', hid, rfl⟩
    exact ⟨hm', event, hevent, hid.symm⟩
  · rintro ⟨hm, event, hevent, hid⟩
    exact ⟨event, hevent, m, hm, hid.symm, rfl⟩

theorem mem_deleteIdentifiers (hm : m ∈ existingMappings) (hid : m.syncEventId ∈ localEvents.map (·.id)) :
    m.deleteIdentifier ∈ (planTargetedDestinationRead localEvents existingMappings).deleteIdentifiers := by
  refine JsMap.mem_keys_ofList.2 ?_
  rw [List.map_map]
  exact List.mem_map.2 ⟨m, mem_mappingsOfLocalEvents.2 ⟨hm, hid⟩, rfl⟩

theorem mem_mappingIds (hm : m ∈ existingMappings) (hid : m.syncEventId ∈ localEvents.map (·.id)) :
    m.id ∈ (planTargetedDestinationRead localEvents existingMappings).mappingIds := by
  refine JsMap.mem_keys_ofList.2 ?_
  rw [List.map_map]
  exact List.mem_map.2 ⟨m, mem_mappingsOfLocalEvents.2 ⟨hm, hid⟩, rfl⟩

end Plan

/-! ## Matches of a part of the listed events -/

/-- Where uids are distinct a match has the uid of the mapping, and its delete identifier unless the
mapping holds none. -/
theorem matchRemoteEvent_iff {remoteEvents : List RemoteEvent}
    (huids : (remoteEvents.map (·.uid)).Nodup) {m : EventMapping} (hnul : m.NulFree)
    {r : RemoteEvent} : matchRemoteEvent remoteEvents m = some r ↔
      r ∈ remoteEvents ∧ r.uid = m.destinationEventUid ∧
        (m.isLegacy = true ∨ r.deleteId = m.deleteIdentifier) := by
  constructor
  · intro h
    obtain ⟨hmem, hidentity⟩ := matchRemoteEvent_spec h
    refine ⟨hmem, matchRemoteEvent_uid hnul h, ?_⟩
    rcases hidentity with hidentity | hlegacy
    · exact Or.inr (getRemoteIdentity_inj_of_left hnul.1 hnul.2 hidentity.symm).2.symm
    · exact Or.inl hlegacy.1
  · rintro ⟨hmem, huid, hid⟩
    have halone : ∀ r' ∈ remoteEvents, r'.uid = m.destinationEventUid → r' = r := fun r' hr' huid' =>
      List.inj_on_of_nodup_map huids hr' hmem (huid'.trans huid.symm)
    rw [matchRemoteEvent_eq_some_iff]
    cases hexact : (remoteEventsByIdentity remoteEvents).get? m.identity with
    | some r' =>
      obtain ⟨hr', hidentity⟩ := remoteEventsByIdentity_some hexact
      have huid' := (getRemoteIdentity_inj_of_left hnul.1 hnul.2 hidentity.symm).1.symm
      exact Or.inl (congrArg some (halone r' hr' huid'))
    | none =>
      refine Or.inr ⟨rfl, ?_, ?_⟩
      · rcases hid with hlegacy | hdelete
        · exact hlegacy
        · have hidentity : r.identity = m.identity := by
            rw [RemoteEvent.identity, EventMapping.identity, huid, hdelete]
          obtain ⟨r', hr'⟩ := remoteEventsByIdentity_isSome hmem
          rw [hidentity, hexact] at hr'
          cases hr'
      · have hsingle := filter_eq_singleton huids hmem
        rwa [huid] at hsingle

/-- **What a mapping is matched to** when some of the listed events are left out. -/
theorem matchRemoteEvent_filter {remoteEvents : List RemoteEvent}
    (huids : (remoteEvents.map (·.uid)).Nodup) {m : EventMapping} (hnul : m.NulFree)
    (keep : RemoteEvent → Bool) :
    matchRemoteEvent (remoteEvents.filter keep) m = (matchRemoteEvent remoteEvents m).filter keep := by
  have huids' : ((remoteEvents.filter keep).map (·.uid)).Nodup :=
    huids.sublist (List.filter_sublist.map _)
  refine Option.ext fun r => ?_
  rw [matchRemoteEvent_iff huids' hnul, Option.filter_eq_some_iff, matchRemoteEvent_iff huids hnul,
    List.mem_filter]
  tauto

namespace Reconciliation

variable (r : Reconciliation)

/-! ## The two reads -/

def readPlan : TargetedDestinationReadPlan :=
  planTargetedDestinationRead r.localEvents r.existingMappings

def asksFor (remote : RemoteEvent) : Bool := r.readPlan.deleteIdentifiers.contains remote.deleteId

/-- The reconciliation of the windowed read: it speaks for every mapping. -/
def windowed : Reconciliation :=
  { r with scope := { r.scope with authoritativeMappingIds := none } }

/-- The reconciliation of the targeted read: it speaks for the mappings of its plan. -/
def targeted : Reconciliation :=
  { r with
    remoteEvents := r.remoteEvents.filter r.asksFor
    scope := { r.scope with authoritativeMappingIds := some r.readPlan.mappingIds } }

end Reconciliation

def SyncOperation.isOrphanRemoval : SyncOperation → Bool
  | .remove op => op.mappingId.isNone
  | _ => false

/-- **A read plans as another**, the removals of remote events that no mapping matches excepted. -/
structure PlansAlike (plan other : ComputeSyncOperationsResult) : Prop where
  operations : plan.operations = other.operations.filter (!·.isOrphanRemoval)
  mappingUpdates : plan.mappingUpdates = other.mappingUpdates

namespace Reconciliation

def plan (r : Reconciliation) : ComputeSyncOperationsResult :=
  computeSyncOperations r.host r.localEvents r.existingMappings r.remoteEvents r.scope

/-- An operation says where the copy of a mapping is: the mapping is reassigned, or it has its local
event, or it is retired. -/
def IsConsulted (r : Reconciliation) (m : EventMapping) : Prop :=
  m.id ∈ r.reassignedMappingIds ∨
    m ∈ r.activeMappings ∧ m.syncEventId ∈ r.localEventIds ∨
    retiresMapping r.localEventIds r.scope m = true

/-- **The targeted read is enough**: of the copies that mappings are matched to and that it does not ask
for, none is where only its uid tells while an operation says where it is, and none shows the event that
its mapping is reassigned to. -/
def ReadsEnough (r : Reconciliation) : Prop :=
  ∀ m ∈ r.existingMappings, ∀ remote, matchRemoteEvent r.remoteEvents m = some remote →
    r.asksFor remote = false →
      (r.IsConsulted m → remote.deleteId = m.deleteIdentifier) ∧
      ∀ p ∈ r.occurrenceReassignments, p.mapping = m → r.isDatabaseOnly p = false

section Reads

variable {r : Reconciliation}

/-- What the two reads promise each other. -/
structure ReadsApart (r : Reconciliation) : Prop where
  mappingIds : (r.existingMappings.map (·.id)).Nodup
  uids : (r.remoteEvents.map (·.uid)).Nodup
  nulFree : ∀ m ∈ r.existingMappings, m.NulFree

variable {m : EventMapping} {p : OccurrenceReassignment}

theorem get?_windowed (h : r.ReadsApart) (hm : m ∈ r.existingMappings) :
    r.windowed.remoteEventsByMappingId.get? m.id = matchRemoteEvent r.remoteEvents m :=
  get?_matchRemoteEventsToMappings h.mappingIds hm

/-- **The targeted read sees** of the matches of mappings those that it asks for. -/
theorem get?_targeted (h : r.ReadsApart) (hm : m ∈ r.existingMappings) :
    r.targeted.remoteEventsByMappingId.get? m.id =
      (matchRemoteEvent r.remoteEvents m).filter r.asksFor :=
  (get?_matchRemoteEventsToMappings h.mappingIds hm).trans
    (matchRemoteEvent_filter h.uids (h.nulFree m hm) _)

theorem hidden_of_ne (h : r.ReadsApart) (hm : m ∈ r.existingMappings)
    (hne : r.targeted.remoteEventsByMappingId.get? m.id ≠ r.windowed.remoteEventsByMappingId.get? m.id) :
    ∃ remote, matchRemoteEvent r.remoteEvents m = some remote ∧ r.asksFor remote = false := by
  rw [get?_targeted h hm, get?_windowed h hm] at hne
  cases hmatch : matchRemoteEvent r.remoteEvents m with
  | none =>
    rw [hmatch] at hne
    exact absurd rfl hne
  | some remote =>
    refine ⟨remote, rfl, ?_⟩
    by_contra hasks
    rw [hmatch, Option.filter_some, if_pos (Bool.eq_true_of_not_eq_false hasks)] at hne
    exact hne rfl

/-- The delete identifier that the targeted read tells of a match that it does not see. -/
theorem resolve_targeted_of_hidden (h : r.ReadsApart) (hm : m ∈ r.existingMappings) {remote : RemoteEvent}
    (hmatch : matchRemoteEvent r.remoteEvents m = some remote) (hasks : r.asksFor remote = false) :
    resolveMappingDeleteId m r.targeted.remoteEventsByMappingId = m.deleteIdentifier := by
  have hnone : r.targeted.remoteEventsByMappingId.get? m.id = none := by
    rw [get?_targeted h hm, hmatch, Option.filter_some, if_neg (by simp [hasks])]
  rw [resolveMappingDeleteId, hnone]

theorem resolve_windowed (h : r.ReadsApart) (hm : m ∈ r.existingMappings) {remote : RemoteEvent}
    (hmatch : matchRemoteEvent r.remoteEvents m = some remote) :
    resolveMappingDeleteId m r.windowed.remoteEventsByMappingId = remote.deleteId := by
  rw [resolveMappingDeleteId, get?_windowed h hm, hmatch]

/-! ## What is the same in both -/

theorem addOperations_targeted : r.targeted.addOperations = r.windowed.addOperations := by
  rw [addOperations_eq, addOperations_eq]
  rfl

/-- A mapping of a local event is asked for by its delete identifier. -/
theorem planned_of_local (hm : m ∈ r.existingMappings) (hid : m.syncEventId ∈ r.localEventIds) :
    m.deleteIdentifier ∈ r.readPlan.deleteIdentifiers ∧ m.id ∈ r.readPlan.mappingIds := by
  obtain ⟨e, he, heq⟩ := mem_localEventIds.1 hid
  have hlocal : m.syncEventId ∈ r.localEvents.map (·.id) :=
    List.mem_map.2 ⟨e, (mem_authoritativeLocalEvents.1 he).1, heq⟩
  exact ⟨mem_deleteIdentifiers hm hlocal, mem_mappingIds hm hlocal⟩

/-! ## Enough is read -/

theorem get?_targeted_of_local (h : r.ReadsApart) (henough : r.ReadsEnough) (hm : m ∈ r.activeMappings)
    (hid : m.syncEventId ∈ r.localEventIds) :
    r.targeted.remoteEventsByMappingId.get? m.id = r.windowed.remoteEventsByMappingId.get? m.id := by
  by_contra hne
  have hmem := (mem_activeMappings.1 hm).1
  obtain ⟨remote, hmatch, hasks⟩ := hidden_of_ne h hmem hne
  have hdelete := (henough m hmem remote hmatch hasks).1 (Or.inr (Or.inl ⟨hm, hid⟩))
  have hplanned := (planned_of_local hmem hid).1
  rw [← hdelete] at hplanned
  rw [asksFor, List.contains_eq_mem, decide_eq_false_iff_not] at hasks
  exact hasks hplanned

theorem resolve_targeted (h : r.ReadsApart) (henough : r.ReadsEnough) (hm : m ∈ r.existingMappings)
    (hconsulted : r.IsConsulted m) : resolveMappingDeleteId m r.targeted.remoteEventsByMappingId =
      resolveMappingDeleteId m r.windowed.remoteEventsByMappingId := by
  by_cases hsame : r.targeted.remoteEventsByMappingId.get? m.id =
      r.windowed.remoteEventsByMappingId.get? m.id
  · rw [resolveMappingDeleteId, hsame]
    rfl
  · obtain ⟨remote, hmatch, hasks⟩ := hidden_of_ne h hm hsame
    rw [resolve_targeted_of_hidden h hm hmatch hasks, resolve_windowed h hm hmatch]
    exact ((henough m hm remote hmatch hasks).1 hconsulted).symm

/-- A mapping is stale for the same reason: the targeted read speaks for those of local events. -/
theorem staleReason_targeted (h : r.ReadsApart) (henough : r.ReadsEnough) (hm : m ∈ r.activeMappings) :
    r.targeted.staleReason m = r.windowed.staleReason m := by
  by_cases hid : m.syncEventId ∈ r.localEventIds
  · have hcovers : r.targeted.scope.authoritativeMappingIds.all (·.contains m.id) =
        r.windowed.scope.authoritativeMappingIds.all (·.contains m.id) := by
      have hplanned := (planned_of_local (mem_activeMappings.1 hm).1 hid).2
      show r.readPlan.mappingIds.contains m.id = true
      rwa [List.contains_eq_mem, decide_eq_true_eq]
    unfold staleReason Keeper.staleReason
    rw [get?_targeted_of_local h henough hm hid, hcovers]
    rfl
  · have hnone : ∀ s : Reconciliation, s.localEventIds = r.localEventIds → s.staleReason m = none := by
      intro s hs
      unfold staleReason Keeper.staleReason
      rw [hs, if_neg hid]
    rw [hnone r.targeted rfl, hnone r.windowed rfl]

theorem staleRemoteMappings_targeted (h : r.ReadsApart) (henough : r.ReadsEnough) :
    r.targeted.staleRemoteMappings = r.windowed.staleRemoteMappings := by
  rw [staleRemoteMappings_eq, staleRemoteMappings_eq]
  refine List.filter_congr fun m hm => ?_
  rw [staleReason_targeted h henough (mem_standardMappings.1 hm).1]

/-- An event and a mapping of the windowed reconciliation are replaced alike. -/
theorem replaceOperation_targeted (h : r.ReadsApart) (henough : r.ReadsEnough) (hm : m ∈ r.existingMappings)
    (hconsulted : r.IsConsulted m) (e : MaterializedSyncableEvent) :
    replaceOperation m e r.targeted.remoteEventsByMappingId =
      replaceOperation m e r.windowed.remoteEventsByMappingId := by
  rw [replaceOperation, resolve_targeted h henough hm hconsulted]
  rfl

theorem isConsulted_of_stale (hm : m ∈ r.windowed.staleRemoteMappings) :
    m ∈ r.existingMappings ∧ r.IsConsulted m := by
  obtain ⟨hstandard, hstale⟩ := mem_staleRemoteMappings.1 hm
  have hactive := (mem_standardMappings.1 hstandard).1
  exact ⟨(mem_activeMappings.1 hactive).1,
    Or.inr (Or.inl ⟨hactive, mem_localEventIds_of_staleReason hstale⟩)⟩

theorem replacementOperations_targeted (h : r.ReadsApart) (henough : r.ReadsEnough) :
    r.targeted.replacementOperations = r.windowed.replacementOperations := by
  unfold replacementOperations buildReplacementOperations
  rw [staleRemoteMappings_targeted h henough]
  refine List.filterMap_congr fun m hm => ?_
  obtain ⟨hmem, hconsulted⟩ := isConsulted_of_stale hm
  show (r.windowed.localEventsById.get? m.syncEventId).map _ = _
  cases r.windowed.localEventsById.get? m.syncEventId with
  | none => rfl
  | some e => exact congrArg some (replaceOperation_targeted h henough hmem hconsulted e)

theorem isConsulted_of_reassigned (hp : p ∈ r.occurrenceReassignments) :
    p.mapping ∈ r.existingMappings ∧ r.IsConsulted p.mapping :=
  ⟨(mem_activeMappings.1 (isReassignment_of_mem hp).mapping).1, Or.inl (List.mem_map_of_mem hp)⟩

theorem isDatabaseOnly_targeted (h : r.ReadsApart) (henough : r.ReadsEnough) (hp : p ∈ r.occurrenceReassignments) :
    r.targeted.isDatabaseOnly p = r.windowed.isDatabaseOnly p := by
  have hmem := (isConsulted_of_reassigned hp).1
  by_cases hsame : r.targeted.remoteEventsByMappingId.get? p.mapping.id =
      r.windowed.remoteEventsByMappingId.get? p.mapping.id
  · unfold isDatabaseOnly
    rw [hsame]
    rfl
  · obtain ⟨remote, hmatch, hasks⟩ := hidden_of_ne h hmem hsame
    have hnone : r.targeted.remoteEventsByMappingId.get? p.mapping.id = none := by
      rw [get?_targeted h hmem, hmatch, Option.filter_some, if_neg (by simp [hasks])]
    have hno : r.windowed.isDatabaseOnly p = false :=
      (henough p.mapping hmem remote hmatch hasks).2 p hp rfl
    rw [hno, isDatabaseOnly, hnone]

theorem reassignmentOperations_targeted (h : r.ReadsApart) (henough : r.ReadsEnough) :
    r.targeted.reassignmentOperations = r.windowed.reassignmentOperations := by
  have hreassignments : r.targeted.remoteReassignments = r.windowed.remoteReassignments :=
    List.filter_congr fun p hp => by rw [isDatabaseOnly_targeted h henough hp]
  unfold reassignmentOperations
  rw [hreassignments]
  refine List.map_congr_left fun p hp => ?_
  obtain ⟨hmem, hconsulted⟩ := isConsulted_of_reassigned (mem_remoteReassignments.1 hp).1
  exact replaceOperation_targeted h henough hmem hconsulted p.event

def mappingRemovals (r : Reconciliation) : List SyncOperation :=
  r.retiredMappings.map (removeMappingOperation · r.remoteEventsByMappingId)

theorem mappingRemovals_targeted (h : r.ReadsApart) (henough : r.ReadsEnough) :
    r.targeted.mappingRemovals = r.windowed.mappingRemovals := by
  refine List.map_congr_left fun m hm => ?_
  obtain ⟨hmem, -, hretires⟩ := mem_retiredMappings.1 hm
  rw [removeMappingOperation, resolve_targeted h henough hmem (Or.inr (Or.inr hretires))]
  rfl

/-- The targeted read removes no remote event that no mapping matches. -/
theorem removeOperations_targeted : r.targeted.removeOperations = r.targeted.mappingRemovals := by
  have hnone : r.targeted.remoteEvents.filter
      (sweepsRemoteEvent r.targeted.mappedRemoteIdentities r.targeted.scope) = [] := by
    refine List.filter_eq_nil_iff.2 fun remote _ => ?_
    unfold sweepsRemoteEvent
    show ¬ (_ && (some _).isNone && _) = true
    simp
  show r.targeted.mappingRemovals ++ List.map removeOrphanOperation _ = _
  rw [hnone, List.map_nil, List.append_nil]

/-- The operations of the windowed read without the removals of remote events that no mapping
matches. -/
theorem filter_unsortedOperations : r.windowed.unsortedOperations.filter (!·.isOrphanRemoval) =
    r.windowed.addOperations ++ r.windowed.mappingRemovals ++ r.windowed.replacementOperations ++
      r.windowed.reassignmentOperations := by
  have hkept : ∀ l : List SyncOperation, (∀ op ∈ l, op.isOrphanRemoval = false) →
      l.filter (!·.isOrphanRemoval) = l := fun l hl =>
    List.filter_eq_self.2 fun op hop => by rw [hl op hop]; rfl
  have hremovals : r.windowed.removeOperations.filter (!·.isOrphanRemoval) =
      r.windowed.mappingRemovals := by
    have horphans : ∀ l : List RemoteEvent,
        (l.map removeOrphanOperation).filter (!·.isOrphanRemoval) = [] := fun l =>
      List.filter_eq_nil_iff.2 fun op hop => by
        obtain ⟨remote, -, rfl⟩ := List.mem_map.1 hop
        simp [removeOrphanOperation, SyncOperation.isOrphanRemoval]
    show (r.windowed.mappingRemovals ++ List.map removeOrphanOperation _).filter _ = _
    rw [List.filter_append, horphans, List.append_nil]
    refine hkept _ fun op hop => ?_
    obtain ⟨m, -, rfl⟩ := List.mem_map.1 hop
    rfl
  unfold unsortedOperations
  rw [List.filter_append, List.filter_append, List.filter_append, hremovals]
  congr 1
  congr 1
  congr 1
  · refine hkept _ fun op hop => ?_
    obtain ⟨e, -, rfl, -⟩ := mem_addOperations_iff.1 hop
    rfl
  · refine hkept _ fun op hop => ?_
    obtain ⟨m, -, e, -, rfl⟩ := mem_replacementOperations_iff.1 hop
    rfl
  · refine hkept _ fun op hop => ?_
    obtain ⟨p, -, rfl⟩ := mem_reassignmentOperations_iff.1 hop
    rfl

theorem mappingUpdatesById_targeted (h : r.ReadsApart) (henough : r.ReadsEnough) :
    r.targeted.mappingUpdatesById = r.windowed.mappingUpdatesById := by
  have hlegacy : r.targeted.standardMappings.filterMap r.targeted.legacyUpdate =
      r.windowed.standardMappings.filterMap r.windowed.legacyUpdate := by
    refine List.filterMap_congr fun m hm => ?_
    have hactive := (mem_standardMappings.1 hm).1
    have hstale : r.targeted.staleMappings.staleMappingIds = r.windowed.staleMappings.staleMappingIds := by
      rw [staleMappingIds_eq, staleMappingIds_eq, staleRemoteMappings_targeted h henough]
    have hlocal : r.targeted.localEventsById = r.windowed.localEventsById := rfl
    unfold legacyUpdate
    rw [hstale, hlocal]
    cases hevent : r.windowed.localEventsById.get? m.syncEventId with
    | none => rfl
    | some e =>
      have hid : m.syncEventId ∈ r.localEventIds :=
        localEventsById_isSome_iff.1 ⟨e, hevent⟩
      rw [get?_targeted_of_local h henough hactive hid]
      rfl
  have hdatabaseOnly : r.targeted.databaseOnlyReassignments = r.windowed.databaseOnlyReassignments :=
    List.filter_congr fun p hp => by rw [isDatabaseOnly_targeted h henough hp]
  have hreassignments : r.targeted.databaseOnlyReassignments.filterMap r.targeted.reassignmentUpdate =
      r.windowed.databaseOnlyReassignments.filterMap r.windowed.reassignmentUpdate := by
    rw [hdatabaseOnly]
    refine List.filterMap_congr fun p hp => ?_
    obtain ⟨hreassigned, honly⟩ := mem_databaseOnlyReassignments.1 hp
    have hmem := (isConsulted_of_reassigned hreassigned).1
    have hsame : r.targeted.remoteEventsByMappingId.get? p.mapping.id =
        r.windowed.remoteEventsByMappingId.get? p.mapping.id := by
      by_contra hne
      obtain ⟨remote, hmatch, hasks⟩ := hidden_of_ne h hmem hne
      have hno := (henough p.mapping hmem remote hmatch hasks).2 p hreassigned rfl
      exact absurd (hno.symm.trans honly) (by decide)
    unfold reassignmentUpdate
    rw [hsame]
    rfl
  unfold mappingUpdatesById
  rw [hlegacy, hreassignments]

/-- The operations of a plan are ordered by their time, and removals come first. -/
theorem operations_orders : Orders fun first second : SyncOperation =>
    firstNonzero (getOperationEventTime first - getOperationEventTime second)
      (getOperationTypePriority first - getOperationTypePriority second) where
  total first second := by
    unfold firstNonzero
    split_ifs <;> omega
  trans first second third := by
    unfold firstNonzero
    intro h h'
    split_ifs at h h' ⊢ <;> omega

/-- **Where enough is read** the targeted read plans as the windowed one. -/
theorem plansAlike_of_readsEnough (h : r.ReadsApart) (henough : r.ReadsEnough) :
    PlansAlike r.targeted.plan r.windowed.plan where
  operations := by
    show sortOperationsByTime r.targeted.unsortedOperations =
      (sortOperationsByTime r.windowed.unsortedOperations).filter _
    have hsame : r.targeted.unsortedOperations =
        r.windowed.unsortedOperations.filter (!·.isOrphanRemoval) := by
      rw [filter_unsortedOperations, unsortedOperations, removeOperations_targeted,
        addOperations_targeted, mappingRemovals_targeted h henough,
        replacementOperations_targeted h henough, reassignmentOperations_targeted h henough]
    rw [hsame]
    exact (operations_orders.filter_toSorted _ _).symm
  mappingUpdates := congrArg JsMap.values (mappingUpdatesById_targeted h henough)

/-! ## A read that plans alike -/

def mappingId? : SyncOperation → Option String
  | .add _ => none
  | .remove op => op.mappingId
  | .replace op => some op.staleMappingId

/-- An operation of a mapping tells the delete identifier that the read finds for it. -/
theorem deleteId?_of_mappingId? (h : (r.existingMappings.map (·.id)).Nodup) {op : SyncOperation}
    (hop : op ∈ r.unsortedOperations) (hm : m ∈ r.existingMappings) (hid : mappingId? op = some m.id) :
    op.deleteId? = some (resolveMappingDeleteId m r.remoteEventsByMappingId) := by
  have heq : ∀ m' ∈ r.existingMappings, m'.id = m.id → m' = m := fun m' hm' hid' =>
    List.inj_on_of_nodup_map h hm' hm hid'
  rcases mem_unsortedOperations_iff.1 hop with hop | hop | hop | hop
  · obtain ⟨e, -, rfl, -⟩ := mem_addOperations_iff.1 hop
    cases hid
  · rcases mem_removeOperations_iff.1 hop with ⟨m', hm', -, -, rfl⟩ | ⟨remote, -, -, rfl⟩
    · obtain rfl := heq m' hm' (Option.some.inj hid)
      rfl
    · cases hid
  · obtain ⟨m', hm', e, -, rfl⟩ := mem_replacementOperations_iff.1 hop
    obtain rfl := heq m' (sublist_staleRemoteMappings.subset hm') (Option.some.inj hid)
    rfl
  · obtain ⟨p, hp, rfl⟩ := mem_reassignmentOperations_iff.1 hop
    have hmem := (isConsulted_of_reassigned (mem_remoteReassignments.1 hp).1).1
    obtain rfl := heq p.mapping hmem (Option.some.inj hid)
    rfl

/-- An operation of a reassigned mapping is its replacement on the destination. -/
theorem isDatabaseOnly_of_mappingId? (h : (r.existingMappings.map (·.id)).Nodup) {op : SyncOperation}
    (hop : op ∈ r.unsortedOperations) (hp : p ∈ r.occurrenceReassignments) (hid : mappingId? op = some p.mapping.id) :
    r.isDatabaseOnly p = false := by
  have hreassigned : p.mapping.id ∈ r.reassignedMappingIds := List.mem_map_of_mem hp
  rcases mem_unsortedOperations_iff.1 hop with hop | hop | hop | hop
  · obtain ⟨e, -, rfl, -⟩ := mem_addOperations_iff.1 hop
    cases hid
  · rcases mem_removeOperations_iff.1 hop with ⟨m', -, hstays, -, rfl⟩ | ⟨remote, -, -, rfl⟩
    · exact absurd ((Option.some.inj hid) ▸ hreassigned) hstays
    · cases hid
  · obtain ⟨m', hm', e, -, rfl⟩ := mem_replacementOperations_iff.1 hop
    have hstays := (mem_standardMappings.1 (mem_staleRemoteMappings.1 hm').1).2
    have hid' : m'.id = p.mapping.id := Option.some.inj hid
    exact absurd (hid' ▸ hreassigned) hstays
  · obtain ⟨p', hp', rfl⟩ := mem_reassignmentOperations_iff.1 hop
    obtain ⟨hp', hremote⟩ := mem_remoteReassignments.1 hp'
    have hnodup : (r.occurrenceReassignments.map (·.mapping.id)).Nodup :=
      nodup_pairReidentified_mappings (h.sublist (List.filter_sublist.map _))
    obtain rfl := List.inj_on_of_nodup_map hnodup hp' hp (Option.some.inj hid)
    exact hremote

/-- A mapping that an operation says where it is has one in the targeted read, where the read does not
show its copy. -/
theorem exists_targeted_of_consulted (hm : m ∈ r.existingMappings)
    (hnone : r.targeted.remoteEventsByMappingId.get? m.id = none) (hconsulted : r.IsConsulted m)
    (h : (r.existingMappings.map (·.id)).Nodup) :
    ∃ op ∈ r.targeted.unsortedOperations, mappingId? op = some m.id ∧ op.isOrphanRemoval = false := by
  by_cases hreassigned : m.id ∈ r.reassignedMappingIds
  · obtain ⟨p, hp, hid⟩ := List.mem_map.1 hreassigned
    obtain rfl : p.mapping = m :=
      List.inj_on_of_nodup_map h (isConsulted_of_reassigned hp).1 hm hid
    have hremote : p ∈ r.targeted.remoteReassignments :=
      mem_remoteReassignments.2 ⟨hp, by rw [isDatabaseOnly, hnone]⟩
    exact ⟨_, mem_unsortedOperations_iff.2
      (Or.inr (Or.inr (Or.inr (mem_reassignmentOperations_iff.2 ⟨p, hremote, rfl⟩)))), rfl, rfl⟩
  rcases hconsulted with hr | ⟨hactive, hid⟩ | hretires
  · exact absurd hr hreassigned
  · have hstale : (r.targeted.staleReason m).isSome := by
      have hplanned := (planned_of_local hm hid).2
      have hcovers : r.targeted.scope.authoritativeMappingIds.all (·.contains m.id) = true := by
        show r.readPlan.mappingIds.contains m.id = true
        rwa [List.contains_eq_mem, decide_eq_true_eq]
      have hlocal : m.syncEventId ∈ r.targeted.localEventIds := hid
      unfold staleReason Keeper.staleReason
      simp only [hlocal, if_true, hnone, hcovers, Option.isSome_some]
    have hmem : m ∈ r.targeted.staleRemoteMappings :=
      mem_staleRemoteMappings.2 ⟨mem_standardMappings.2 ⟨hactive, hreassigned⟩, hstale⟩
    obtain ⟨e, he⟩ := event_of_stale hmem
    exact ⟨_, mem_unsortedOperations_iff.2
      (Or.inr (Or.inr (Or.inl (mem_replacementOperations_iff.2 ⟨m, hmem, e, he, rfl⟩)))), rfl, rfl⟩
  · exact ⟨_, mem_unsortedOperations_iff.2 (Or.inr (Or.inl (mem_removeOperations_iff.2
      (Or.inl ⟨m, hm, hreassigned, hretires, rfl⟩)))), rfl, rfl⟩

/-- **Where the targeted read plans as the windowed one**, enough is read. -/
theorem readsEnough_of_plansAlike (h : r.ReadsApart)
    (hplans : PlansAlike r.targeted.plan r.windowed.plan) : r.ReadsEnough := by
  intro m hm remote hmatch hasks
  have hnone : r.targeted.remoteEventsByMappingId.get? m.id = none := by
    rw [get?_targeted h hm, hmatch, Option.filter_some, if_neg (by simp [hasks])]
  have hkept : ∀ op ∈ r.targeted.unsortedOperations, op ∈ r.windowed.unsortedOperations := by
    intro op hop
    have hop' : op ∈ r.targeted.plan.operations := mem_toSorted.2 hop
    rw [hplans.operations] at hop'
    exact mem_toSorted.1 (List.mem_filter.1 hop').1
  refine ⟨fun hconsulted => ?_, fun p hp hpm => ?_⟩
  · obtain ⟨op, hop, hid, -⟩ := exists_targeted_of_consulted hm hnone hconsulted h.mappingIds
    have htargeted := deleteId?_of_mappingId? (r := r.targeted) h.mappingIds hop hm hid
    have hwindowed := deleteId?_of_mappingId? (r := r.windowed) h.mappingIds (hkept op hop) hm hid
    rw [htargeted, resolve_targeted_of_hidden h hm hmatch hasks, resolve_windowed h hm hmatch] at hwindowed
    exact (Option.some.inj hwindowed).symm
  · subst hpm
    obtain ⟨op, hop, hid, -⟩ := exists_targeted_of_consulted hm hnone
      (isConsulted_of_reassigned hp).2 h.mappingIds
    exact isDatabaseOnly_of_mappingId? (r := r.windowed) h.mappingIds (hkept op hop) hp hid

theorem plansAlike_iff_readsEnough (h : r.ReadsApart) :
    PlansAlike
        (computeSyncOperations r.host r.localEvents r.existingMappings
          (r.remoteEvents.filter fun remote => r.readPlan.deleteIdentifiers.contains remote.deleteId)
          { r.scope with authoritativeMappingIds := some r.readPlan.mappingIds })
        (computeSyncOperations r.host r.localEvents r.existingMappings r.remoteEvents
          { r.scope with authoritativeMappingIds := none }) ↔ r.ReadsEnough :=
  ⟨readsEnough_of_plansAlike h, plansAlike_of_readsEnough h⟩

end Reads

end Reconciliation

/-- **A targeted read plans as the windowed read** exactly where enough is read. -/
theorem plansAlike_iff (host : Host) (localEvents : List MaterializedSyncableEvent)
    (existingMappings : List EventMapping) (remoteEvents : List RemoteEvent)
    (scope : ReconciliationScope)
    (hmappings : (existingMappings.map (·.id)).Nodup)
    (hnul : ∀ m ∈ existingMappings, m.NulFree)
    (huids : (remoteEvents.map (·.uid)).Nodup) :
    let plan := planTargetedDestinationRead localEvents existingMappings
    PlansAlike
        (computeSyncOperations host localEvents existingMappings
          (remoteEvents.filter fun remote => plan.deleteIdentifiers.contains remote.deleteId)
          { scope with authoritativeMappingIds := some plan.mappingIds })
        (computeSyncOperations host localEvents existingMappings remoteEvents
          { scope with authoritativeMappingIds := none }) ↔
      Reconciliation.ReadsEnough ⟨host, localEvents, existingMappings, remoteEvents, scope⟩ :=
  Reconciliation.plansAlike_iff_readsEnough
    (r := ⟨host, localEvents, existingMappings, remoteEvents, scope⟩) ⟨hmappings, huids, hnul⟩

namespace Example

/-- The copy of an event whose mapping holds its uid in place of a delete identifier. -/
def uidOnly : EventMapping := recorded (event "a" 0) "u" "u"

end Example

/-- The theorem at a mapping that holds the delete identifier of its copy. -/
theorem plansAlike_iff_example :
    PlansAlike
        (computeSyncOperations Example.host [Example.event "a" 0]
          [Example.recorded (Example.event "a" 0) "u" "d"]
          ([Example.copy (Example.event "a" 0) "u" "d"].filter fun remote =>
            ["d"].contains remote.deleteId)
          { Example.scope with authoritativeMappingIds := some ["m"] })
        (computeSyncOperations Example.host [Example.event "a" 0]
          [Example.recorded (Example.event "a" 0) "u" "d"]
          [Example.copy (Example.event "a" 0) "u" "d"]
          { Example.scope with authoritativeMappingIds := none }) ↔
      Reconciliation.ReadsEnough ⟨Example.host, [Example.event "a" 0],
        [Example.recorded (Example.event "a" 0) "u" "d"],
        [Example.copy (Example.event "a" 0) "u" "d"], Example.scope⟩ :=
  plansAlike_iff _ _ _ _ _ (by decide)
    (List.forall_mem_singleton.2 ⟨by unfold NulFree; decide, by unfold NulFree; decide⟩) (by decide)

/-- **A copy that only its uid tells** is not found by the targeted read. The mapping holds the uid of
its copy in place of a delete identifier: the windowed read records the delete identifier and writes
nothing to the destination, the targeted read asks for the uid and replaces the copy. -/
theorem not_plansAlike :
    let localEvents := [Example.event "a" 0]
    let existingMappings := [Example.uidOnly]
    let remoteEvents := [Example.copy (Example.event "a" 0) "u" "d"]
    let plan := planTargetedDestinationRead localEvents existingMappings
    let targeted := computeSyncOperations Example.host localEvents existingMappings
      (remoteEvents.filter fun remote => plan.deleteIdentifiers.contains remote.deleteId)
      { Example.scope with authoritativeMappingIds := some plan.mappingIds }
    let windowed := computeSyncOperations Example.host localEvents existingMappings remoteEvents
      { Example.scope with authoritativeMappingIds := none }
    (localEvents.map (·.id)).Nodup ∧ (existingMappings.map (·.id)).Nodup ∧
      (existingMappings.map (·.syncEventId)).Nodup ∧
      (existingMappings.map fun m => (m.destinationEventUid, m.deleteIdentifier)).Nodup ∧
      (mappingsOfLocalEvents localEvents existingMappings).length ≤ 25 ∧
      (remoteEvents.map (·.uid)).Nodup ∧ (remoteEvents.map (·.deleteId)).Nodup ∧
      targeted.operations.map (·.deleteId?) = [some "u"] ∧ targeted.mappingUpdates = [] ∧
      windowed.operations = [] ∧ windowed.mappingUpdates.map (·.deleteIdentifier) = ["d"] ∧
      ¬ PlansAlike targeted windowed := by
  refine ⟨by decide, by decide, by decide, by decide, by decide, by decide, by decide, by decide,
    by decide, by decide, by decide, fun h => ?_⟩
  have hlength := congrArg List.length h.operations
  revert hlength
  decide

end Keeper
