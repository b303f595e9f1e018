import Keeper.Sync.Operations

/-!
# Ownership: what a plan deletes

A remove or replace operation of the plan is sent to a copy that a mapping records, or to a listed
event that carries the program's own tag and that no mapping records.

* `computeSyncOperations_owned`: every operation is owned, and none is sent to an event that is
  neither tagged nor recorded, when mapping ids are distinct and mappings hold no NUL.
* `computeSyncOperations_not_owned`: neither hypothesis can be dropped.
-/

namespace Keeper

/-! ## Owned operations -/

/-- The operation is sent to the copy of this mapping: its own delete identifier, or the delete
identifier of a listed event with its uid. -/
def SendsToCopy (remoteEvents : List RemoteEvent) (m : EventMapping) (uid deleteId : String) :
    Prop :=
  uid = m.destinationEventUid ∧ (deleteId = m.deleteIdentifier ∨
    ∃ remote ∈ remoteEvents, remote.uid = m.destinationEventUid ∧ deleteId = remote.deleteId)

/-- The listed event is an orphan: tagged, recorded by no mapping, and inside the authoritative
window of a full read. -/
structure IsOrphan (existingMappings : List EventMapping) (remoteEvents : List RemoteEvent)
    (scope : ReconciliationScope) (remote : RemoteEvent) : Prop where
  listed : remote ∈ remoteEvents
  tagged : remote.isKeeperEvent = true
  unmatched : ∀ m ∈ existingMappings,
    (matchRemoteEventsToMappings existingMappings remoteEvents).get? m.id ≠ some remote
  window : ∃ w, scope.authoritativeWindow = some w ∧ w.overlaps remote.range = true
  fullRead : scope.authoritativeMappingIds = none

/-- A remove or replace operation is sent to the copy of the mapping it names, or removes an
orphan. -/
def IsOwned (existingMappings : List EventMapping) (remoteEvents : List RemoteEvent)
    (scope : ReconciliationScope) : SyncOperation → Prop
  | .add _ => True
  | .replace op => ∃ m ∈ existingMappings, op.staleMappingId = m.id ∧
      SendsToCopy remoteEvents m op.uid op.deleteId
  | .remove op => (∃ m ∈ existingMappings, op.mappingId = some m.id ∧
      SendsToCopy remoteEvents m op.uid op.deleteId) ∨
      ∃ remote, IsOrphan existingMappings remoteEvents scope remote ∧
        op.uid = remote.uid ∧ op.deleteId = remote.deleteId

/-- A delete identifier of the user's: no mapping holds it, and a listed event that has it is not
tagged and is matched to no mapping. -/
structure IsForeign (existingMappings : List EventMapping) (remoteEvents : List RemoteEvent)
    (deleteId : String) : Prop where
  unrecorded : ∀ m ∈ existingMappings, m.deleteIdentifier ≠ deleteId
  untagged : ∀ remote ∈ remoteEvents, remote.deleteId = deleteId → remote.isKeeperEvent = false
  unmatched : ∀ m ∈ existingMappings, ∀ remote,
    (matchRemoteEventsToMappings existingMappings remoteEvents).get? m.id = some remote →
    remote.deleteId ≠ deleteId

namespace Reconciliation

variable {r : Reconciliation}

theorem remoteEventsByMappingId_of_mem (hid : (r.existingMappings.map (·.id)).Nodup)
    {m : EventMapping} (hm : m ∈ r.existingMappings) :
    r.remoteEventsByMappingId.get? m.id = matchRemoteEvent r.remoteEvents m :=
  get?_matchRemoteEventsToMappings hid hm

/-- The delete identifier of a mapping's operation is its own or that of its match. -/
theorem resolveMappingDeleteId_cases (m : EventMapping) :
    resolveMappingDeleteId m r.remoteEventsByMappingId = m.deleteIdentifier ∨
      ∃ remote, r.remoteEventsByMappingId.get? m.id = some remote ∧
        resolveMappingDeleteId m r.remoteEventsByMappingId = remote.deleteId := by
  unfold resolveMappingDeleteId
  split
  · rename_i remote h
    exact Or.inr ⟨remote, h, rfl⟩
  · exact Or.inl rfl

theorem sendsToCopy_resolve (hid : (r.existingMappings.map (·.id)).Nodup) {m : EventMapping}
    (hm : m ∈ r.existingMappings) (hnul : m.NulFree) :
    SendsToCopy r.remoteEvents m m.destinationEventUid
      (resolveMappingDeleteId m r.remoteEventsByMappingId) := by
  refine ⟨rfl, ?_⟩
  rcases resolveMappingDeleteId_cases (r := r) m with h | ⟨remote, hr, h⟩
  · exact Or.inl h
  · rw [remoteEventsByMappingId_of_mem hid hm] at hr
    exact Or.inr ⟨remote, (matchRemoteEvent_spec hr).1, matchRemoteEvent_uid hnul hr, h⟩

theorem sweepsRemoteEvent_iff {identities : List String} {scope : ReconciliationScope}
    {remote : RemoteEvent} :
    sweepsRemoteEvent identities scope remote = true ↔ remote.identity ∉ identities ∧
      remote.isKeeperEvent = true ∧ scope.authoritativeMappingIds = none ∧
      ∃ w, scope.authoritativeWindow = some w ∧ w.overlaps remote.range = true := by
  simp [sweepsRemoteEvent, Option.any_eq_true, and_assoc]

theorem isOrphan_of_sweeps {remote : RemoteEvent} (hr : remote ∈ r.remoteEvents)
    (h : sweepsRemoteEvent r.mappedRemoteIdentities r.scope remote = true) :
    IsOrphan r.existingMappings r.remoteEvents r.scope remote := by
  obtain ⟨hi, hk, hf, hw⟩ := sweepsRemoteEvent_iff.1 h
  refine ⟨hr, hk, fun m _ hm => hi ?_, hw, hf⟩
  exact List.mem_map.2 ⟨remote, JsMap.mem_values_iff.2 ⟨m.id, hm⟩, rfl⟩

/-- What an operation of the plan is sent to: the copy of an existing mapping, through the
resolved delete identifier, or an orphan. -/
theorem target_cases {op : SyncOperation} (h : op ∈ r.unsortedOperations) :
    (∃ e, op = .add e) ∨
      (∃ m ∈ r.existingMappings, (op = removeMappingOperation m r.remoteEventsByMappingId ∨
        ∃ e, op = replaceOperation m e r.remoteEventsByMappingId)) ∨
      ∃ remote, IsOrphan r.existingMappings r.remoteEvents r.scope remote ∧
        op = removeOrphanOperation remote := by
  rcases mem_unsortedOperations_iff.1 h with h | h | h | h
  · obtain ⟨e, -, rfl, -⟩ := mem_addOperations_iff.1 h
    exact Or.inl ⟨_, rfl⟩
  · rcases mem_removeOperations_iff.1 h with ⟨m, hm, -, -, rfl⟩ | ⟨remote, hr, hs, rfl⟩
    · exact Or.inr (Or.inl ⟨m, hm, Or.inl rfl⟩)
    · exact Or.inr (Or.inr ⟨remote, isOrphan_of_sweeps hr hs, rfl⟩)
  · obtain ⟨m, hm, e, -, rfl⟩ := mem_replacementOperations_iff.1 h
    have hm := (mem_standardMappings.1 (mem_staleRemoteMappings.1 hm).1).1
    exact Or.inr (Or.inl ⟨m, (mem_activeMappings.1 hm).1, Or.inr ⟨e, rfl⟩⟩)
  · obtain ⟨p, hp, rfl⟩ := mem_reassignmentOperations_iff.1 h
    have hm := (isReassignment_of_mem (mem_remoteReassignments.1 hp).1).mapping
    exact Or.inr (Or.inl ⟨p.mapping, (mem_activeMappings.1 hm).1, Or.inr ⟨p.event, rfl⟩⟩)

theorem isOwned_of_mem (hid : (r.existingMappings.map (·.id)).Nodup)
    (hnul : ∀ m ∈ r.existingMappings, m.NulFree) {op : SyncOperation}
    (h : op ∈ r.unsortedOperations) : IsOwned r.existingMappings r.remoteEvents r.scope op := by
  rcases target_cases h with ⟨e, rfl⟩ | ⟨m, hm, rfl | ⟨e, rfl⟩⟩ | ⟨remote, ho, rfl⟩
  · trivial
  · exact Or.inl ⟨m, hm, rfl, sendsToCopy_resolve hid hm (hnul m hm)⟩
  · exact ⟨m, hm, rfl, sendsToCopy_resolve hid hm (hnul m hm)⟩
  · exact Or.inr ⟨remote, ho, rfl, rfl⟩

/-- A foreign delete identifier is in no operation, whatever the inputs are. -/
theorem deleteId?_ne_of_isForeign {deleteId : String}
    (hf : IsForeign r.existingMappings r.remoteEvents deleteId) {op : SyncOperation}
    (h : op ∈ r.unsortedOperations) : op.deleteId? ≠ some deleteId := by
  have hmap : ∀ m ∈ r.existingMappings,
      resolveMappingDeleteId m r.remoteEventsByMappingId ≠ deleteId := by
    intro m hm
    rcases resolveMappingDeleteId_cases (r := r) m with h | ⟨remote, hr, h⟩
    · rw [h]
      exact hf.unrecorded m hm
    · rw [h]
      exact hf.unmatched m hm remote hr
  rcases target_cases h with ⟨e, rfl⟩ | ⟨m, hm, rfl | ⟨e, rfl⟩⟩ | ⟨remote, ho, rfl⟩
  · simp [SyncOperation.deleteId?]
  · simpa [removeMappingOperation, SyncOperation.deleteId?] using hmap m hm
  · simpa [replaceOperation, SyncOperation.deleteId?] using hmap m hm
  · rintro hd
    have := hf.untagged remote ho.listed (Option.some.inj hd)
    rw [ho.tagged] at this
    cases this

end Reconciliation

/-! ## The plan -/

/-- The plan touches only what the program owns. -/
def OwnershipSafe (host : Host) (localEvents : List MaterializedSyncableEvent)
    (existingMappings : List EventMapping) (remoteEvents : List RemoteEvent)
    (scope : ReconciliationScope) : Prop :=
  ∀ op ∈ (computeSyncOperations host localEvents existingMappings remoteEvents scope).operations,
    IsOwned existingMappings remoteEvents scope op ∧
      ∀ deleteId, IsForeign existingMappings remoteEvents deleteId → op.deleteId? ≠ some deleteId

/-- **The plan touches only what the program owns**, when mapping ids are distinct and the
mappings hold no NUL. -/
theorem computeSyncOperations_owned (host : Host) (localEvents : List MaterializedSyncableEvent)
    (existingMappings : List EventMapping) (remoteEvents : List RemoteEvent)
    (scope : ReconciliationScope) (hid : (existingMappings.map (·.id)).Nodup)
    (hnul : ∀ m ∈ existingMappings, m.NulFree) :
    OwnershipSafe host localEvents existingMappings remoteEvents scope := by
  intro op hop
  have h := mem_operations_iff.1 hop
  exact ⟨Reconciliation.isOwned_of_mem hid hnul h,
    fun _ hf => Reconciliation.deleteId?_ne_of_isForeign hf h⟩

/-- The theorem at a mapping whose event is gone and a user's event beside its copy. -/
theorem computeSyncOperations_owned_example :
    ([Example.mapping "m" "e" "u" "d" 0].map (·.id)).Nodup ∧
      (∀ m ∈ [Example.mapping "m" "e" "u" "d" 0], m.NulFree) ∧
      OwnershipSafe Example.host [] [Example.mapping "m" "e" "u" "d" 0]
        [Example.remote "u" "d" true, Example.remote "user" "event" false] Example.scope :=
  ⟨by decide, by decide, computeSyncOperations_owned _ _ _ _ _ (by decide) (by decide)⟩

/-- **Distinct ids and NUL-free mappings are needed.** Two mappings of one id share a match, so
the first is removed through the delete identifier of the second's copy. A NUL in a delete
identifier lets the mapping match an event of another uid. -/
theorem computeSyncOperations_not_owned :
    ¬ OwnershipSafe Example.host []
        [Example.mapping "m" "e" "u" "d" 0, Example.mapping "m" "e'" "u'" "d'" 0]
        [Example.remote "u'" "d'" true] Example.scope ∧
      ¬ OwnershipSafe Example.host [] [Example.mapping "m" "e" "u" "a\u0000b" 0]
        [Example.remote "u\u0000a" "b" false] Example.scope := by
  constructor
  · intro h
    have := (h (.remove { uid := "u", deleteId := "d'", startTime := 0, mappingId := some "m" })
      (by decide)).1
    rcases this with ⟨m, hm, -, hu, hd⟩ | ⟨remote, ho, hu, -⟩
    · simp only [List.mem_cons, List.not_mem_nil, or_false] at hm
      rcases hm with rfl | rfl <;> simp [Example.mapping, Example.remote] at hu hd
    · have hr := List.mem_singleton.1 ho.listed
      simp [hr, Example.remote] at hu
  · intro h
    have := (h (.remove { uid := "u", deleteId := "b", startTime := 0, mappingId := some "m" })
      (by decide)).1
    rcases this with ⟨m, hm, -, hu, hd⟩ | ⟨remote, ho, hu, -⟩
    · obtain rfl := List.mem_singleton.1 hm
      simp [Example.mapping, Example.remote] at hd
    · have hr := List.mem_singleton.1 ho.listed
      simp [hr, Example.remote] at hu

end Keeper
