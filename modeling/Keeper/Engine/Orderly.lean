import Keeper.Engine.Reconcile
import Keeper.Sync.InSync

/-!
# The plan of a sound replica is orderly

At a faithful destination the mapping rows of a sound replica have uids of their own, and none has
the uid of a covered event but that event's own row. The operations of a plan then write and delete
copies of different uids.

* `Sound`: the invariant of replicas.
* `exists_replaces`: a replace operation of a plan has its row.
* `orderly_plan`: the plan of a sound replica is orderly.
-/

namespace Keeper

open JsArray

section Orderly

variable {W : Type} (x : Setting W)

namespace Setting

/-- The covered local events; they are the same in every run. -/
def covered : List MaterializedSyncableEvent :=
  x.localEvents.filter fun e =>
    isInsideSourceAuthoritativeWindow e.range (some e.calendarId) x.scope

/-- What the caller and the provider promise of the setting: the uids of the covered events tell
them apart. -/
structure Regular : Prop where
  faithful : x.destination.Faithful
  uids : ∀ e ∈ x.covered, ∀ e' ∈ x.covered, x.destination.uid e.id = x.destination.uid e'.id →
    e.id = e'.id
  eventIds : (x.localEvents.map (·.id)).Nodup
  bounded : x.scope.Bounded
  fullRead : x.scope.authoritativeMappingIds = none

/-- The invariant of replicas: rows have ids, events and uids of their own, their delete
identifiers name their uids, and a row with the uid of a covered event is that event's row. -/
structure Sound (mappings : List EventMapping) : Prop where
  ids : (mappings.map (·.id)).Nodup
  ids_ne : ∀ m ∈ mappings, m.id ≠ ""
  events : (mappings.map (·.syncEventId)).Nodup
  uids : (mappings.map (·.destinationEventUid)).Nodup
  nulFree : ∀ m ∈ mappings, NulFree m.destinationEventUid
  named : ∀ m ∈ mappings, x.destination.uidOf m.deleteIdentifier = m.destinationEventUid
  own : ∀ m ∈ mappings, ∀ e ∈ x.covered, m.destinationEventUid = x.destination.uid e.id →
    m.syncEventId = e.id

end Setting

variable {x} {s : Replica W}

theorem Setting.Regular.wellFormed (hx : x.Regular) (hs : x.Sound s.mappings) :
    (x.reconciliation s).WellFormed :=
  ⟨hx.eventIds, hs.ids, hs.events, hx.bounded⟩

theorem mem_localEventIds_reconciliation {id : String} :
    id ∈ (x.reconciliation s).localEventIds ↔ ∃ e ∈ x.covered, e.id = id :=
  Reconciliation.mem_localEventIds

theorem eq_of_deleteId {d : Destination x.host W} (hd : d.Faithful) {w : W} {c c' : RemoteEvent}
    (hc : c ∈ d.list w) (hc' : c' ∈ d.list w) (h : c.deleteId = c'.deleteId) : c = c' := by
  refine List.inj_on_of_nodup_map (d.distinct w) hc hc' ?_
  rw [RemoteEvent.identity, RemoteEvent.identity, ← hd.named w c hc, ← hd.named w c' hc', h]

variable {m : EventMapping}

/-- **A match** is listed and has the row's uid. -/
theorem matched (hx : x.Regular) (hs : x.Sound s.mappings) (hm : m ∈ s.mappings) {c : RemoteEvent}
    (h : (x.reconciliation s).remoteEventsByMappingId.get? m.id = some c) :
    c ∈ x.destination.list s.world ∧ c.uid = m.destinationEventUid := by
  have h := (get?_matchRemoteEventsToMappings hs.ids hm).symm.trans h
  obtain ⟨hc, hi | ⟨-, hu⟩⟩ := matchRemoteEvent_spec h
  · exact ⟨hc, (getRemoteIdentity_inj (hx.faithful.nulFree _ c hc) (hs.nulFree m hm) hi).1⟩
  · exact ⟨hc, hu⟩

theorem match_of_exact {d : Destination x.host W} {w : W} {c : RemoteEvent} (hc : c ∈ d.list w)
    (hu : c.uid = m.destinationEventUid) (hd : c.deleteId = m.deleteIdentifier) :
    matchRemoteEvent (d.list w) m = some c := by
  refine matchRemoteEvent_eq_some_iff.2 (Or.inl ?_)
  have hi : c.identity = m.identity := by
    rw [RemoteEvent.identity, EventMapping.identity, hu, hd]
  have hn : (((d.list w).map fun c => (c.identity, c)).map Prod.fst).Nodup := by
    rw [List.map_map]
    exact d.distinct w
  exact (JsMap.get?_ofList_eq_some_iff hn).2 (List.mem_map.2 ⟨c, hc, by rw [hi]⟩)

theorem uidOf_resolve (hx : x.Regular) (hs : x.Sound s.mappings) (hm : m ∈ s.mappings) : x.destination.uidOf
      (resolveMappingDeleteId m (x.reconciliation s).remoteEventsByMappingId) =
      m.destinationEventUid := by
  unfold resolveMappingDeleteId
  split
  · rename_i c h
    obtain ⟨hc, hu⟩ := matched hx hs hm h
    rw [hx.faithful.named _ c hc, hu]
  · exact hs.named m hm

/-- A row takes a covered event: its own, or a new one in place of one that is gone. -/
structure Takes (x : Setting W) (s : Replica W) (m : EventMapping)
    (e : MaterializedSyncableEvent) : Prop where
  mapping : m ∈ s.mappings
  event : e ∈ x.covered
  link : m.syncEventId = e.id ∨
    (∀ m' ∈ s.mappings, m'.syncEventId ≠ e.id) ∧ ∀ e' ∈ x.covered, e'.id ≠ m.syncEventId

theorem Takes.eq_of_syncEventId {m' : EventMapping} {e : MaterializedSyncableEvent} (hs : x.Sound s.mappings)
    (h : Takes x s m e) (hm' : m' ∈ s.mappings) (he : m'.syncEventId = e.id) : m' = m := by
  rcases h.link with hl | ⟨hnew, -⟩
  · exact List.inj_on_of_nodup_map hs.events hm' h.mapping (he.trans hl.symm)
  · exact absurd he (hnew m' hm')

theorem takes_of_reassignment {p : OccurrenceReassignment}
    (hp : p ∈ (x.reconciliation s).occurrenceReassignments) : Takes x s p.mapping p.event := by
  have h := Reconciliation.isReassignment_of_mem hp
  refine ⟨(Reconciliation.mem_activeMappings.1 h.mapping).1, h.event, Or.inr ⟨h.new, ?_⟩⟩
  exact fun e' he' hid => h.missing (mem_localEventIds_reconciliation.2 ⟨e', he', hid⟩)

/-- The row of a replacement: it takes the event, and is stale or reassigned. -/
structure Replaces (x : Setting W) (s : Replica W) (op : ReplaceOperation) (m : EventMapping) :
    Prop where
  takes : Takes x s m op.event
  id : op.staleMappingId = m.id
  uid : op.uid = m.destinationEventUid
  deleteId : op.deleteId = resolveMappingDeleteId m (x.reconciliation s).remoteEventsByMappingId
  reason : m ∈ (x.reconciliation s).staleRemoteMappings ∧ m.syncEventId = op.event.id ∨
    ⟨op.event, m⟩ ∈ (x.reconciliation s).remoteReassignments

/-- **A replace operation has its row.** -/
theorem exists_replaces {op : ReplaceOperation}
    (h : .replace op ∈ (x.reconciliation s).unsortedOperations) : ∃ m, Replaces x s op m := by
  rcases Reconciliation.mem_unsortedOperations_iff.1 h with h | h | h | h
  · obtain ⟨e, -, heq, -⟩ := Reconciliation.mem_addOperations_iff.1 h
    cases heq
  · rcases Reconciliation.mem_removeOperations_iff.1 h with ⟨m, -, -, -, heq⟩ | ⟨c, -, -, heq⟩ <;>
      cases heq
  · obtain ⟨m, hm, e, he, heq⟩ := Reconciliation.mem_replacementOperations_iff.1 h
    obtain ⟨he, hid⟩ := Reconciliation.localEventsById_some he
    simp only [replaceOperation, SyncOperation.replace.injEq] at heq
    subst heq
    exact ⟨m, ⟨Reconciliation.sublist_staleRemoteMappings.subset hm, he, Or.inl hid.symm⟩, rfl, rfl,
      rfl, Or.inl ⟨hm, hid.symm⟩⟩
  · obtain ⟨p, hp, heq⟩ := Reconciliation.mem_reassignmentOperations_iff.1 h
    simp only [replaceOperation, SyncOperation.replace.injEq] at heq
    subst heq
    exact ⟨p.mapping, takes_of_reassignment (Reconciliation.mem_remoteReassignments.1 hp).1, rfl,
      rfl, rfl, Or.inr hp⟩

theorem add_cases {op : AddOperation}
    (h : .add op ∈ (x.reconciliation s).unsortedOperations) :
    op.event ∈ x.covered ∧ op.staleMappingId = none ∧
      (∀ m ∈ s.mappings, m.syncEventId ≠ op.event.id) ∧
      op.event.id ∉ (x.reconciliation s).reassignedEventIds := by
  rcases Reconciliation.mem_unsortedOperations_iff.1 h with h | h | h | h
  · obtain ⟨e, he, heq, hn, hr⟩ := Reconciliation.mem_addOperations_iff.1 h
    cases heq
    exact ⟨he, rfl, hn, hr⟩
  · rcases Reconciliation.mem_removeOperations_iff.1 h with ⟨m, -, -, -, heq⟩ | ⟨c, -, -, heq⟩ <;>
      cases heq
  · obtain ⟨m, hm, e, he, heq⟩ := Reconciliation.mem_replacementOperations_iff.1 h
    cases heq
  · obtain ⟨p, hp, heq⟩ := Reconciliation.mem_reassignmentOperations_iff.1 h
    cases heq

theorem remove_cases {op : RemoveOperation}
    (h : .remove op ∈ (x.reconciliation s).unsortedOperations) :
    (∃ m ∈ (x.reconciliation s).retiredMappings, SyncOperation.remove op =
        removeMappingOperation m (x.reconciliation s).remoteEventsByMappingId) ∨
      ∃ c ∈ x.destination.list s.world,
        sweepsRemoteEvent (x.reconciliation s).mappedRemoteIdentities x.scope c = true ∧
          SyncOperation.remove op = removeOrphanOperation c := by
  rcases Reconciliation.mem_unsortedOperations_iff.1 h with h | h | h | h
  · obtain ⟨e, he, heq, -⟩ := Reconciliation.mem_addOperations_iff.1 h
    cases heq
  · rcases Reconciliation.mem_removeOperations_iff.1 h with ⟨m, hm, hr, ht, heq⟩ | ⟨c, hc, hs, heq⟩
    · exact Or.inl ⟨m, Reconciliation.mem_retiredMappings.2 ⟨hm, hr, ht⟩, heq⟩
    · exact Or.inr ⟨c, hc, hs, heq⟩
  · obtain ⟨m, hm, e, he, heq⟩ := Reconciliation.mem_replacementOperations_iff.1 h
    cases heq
  · obtain ⟨p, hp, heq⟩ := Reconciliation.mem_reassignmentOperations_iff.1 h
    cases heq

theorem Replaces.event_id_eq (hx : x.Regular) (hs : x.Sound s.mappings) {op op' : ReplaceOperation}
    (h : Replaces x s op m) (h' : Replaces x s op' m) : op.event.id = op'.event.id := by
  rcases h.reason with ⟨hst, hl⟩ | hp <;> rcases h'.reason with ⟨hst', hl'⟩ | hp'
  · exact hl.symm.trans hl'
  · exact absurd (Reconciliation.mem_reassignedMappingIds
      (Reconciliation.mem_remoteReassignments.1 hp').1) (Reconciliation.stale_not_reassigned hst)
  · exact absurd (Reconciliation.mem_reassignedMappingIds
      (Reconciliation.mem_remoteReassignments.1 hp).1) (Reconciliation.stale_not_reassigned hst')
  · have := List.inj_on_of_nodup_map (Reconciliation.nodup_reassignedMappingIds (hx.wellFormed hs).mappingIds)
      (Reconciliation.mem_remoteReassignments.1 hp).1
      (Reconciliation.mem_remoteReassignments.1 hp').1 rfl
    exact congrArg (·.event.id) this

theorem mem_plan {op : SyncOperation} :
    op ∈ (x.plan s).operations ↔ op ∈ (x.reconciliation s).unsortedOperations :=
  mem_toSorted

theorem mem_mappingUpdates {u : PendingUpdate} :
    u ∈ (x.plan s).mappingUpdates ↔ u ∈ (x.reconciliation s).mappingUpdatesById.values := Iff.rfl

theorem nodup_plan_subjects (hx : x.Regular) (hs : x.Sound s.mappings) :
    ((x.plan s).operations.filterMap (·.subject) ++
      (x.plan s).mappingUpdates.map (·.syncEventId)).Nodup :=
  (((toSorted_perm _ _).filterMap _).append_right _).nodup_iff.2
    (Reconciliation.nodup_subjects (hx.wellFormed hs))

/-- The uid of a row that takes an event is not that of another covered event. -/
theorem uid_ne_of_takes (hs : x.Sound s.mappings) {e e' : MaterializedSyncableEvent} (ht : Takes x s m e)
    (hne : e.id ≠ e'.id) (he' : e' ∈ x.covered) : m.destinationEventUid ≠ x.destination.uid e'.id := by
  intro hu
  have hm := hs.own m ht.mapping e' he' hu
  rcases ht.link with hl | ⟨-, hgone⟩
  · exact hne (hl.symm.trans hm)
  · exact hgone e' he' hm.symm

/-- **The plan of a sound replica is orderly.** -/
theorem orderly_plan (hx : x.Regular) (hs : x.Sound s.mappings) :
    Orderly x.destination (x.plan s).operations where
  disjoint := by
    have hn := List.pairwise_filterMap.1 (List.nodup_append.1 (nodup_plan_subjects hx hs)).1
    refine hn.imp_of_mem fun {op op'} hop hop' hne => ?_
    rw [mem_plan] at hop hop'
    have hevents : ∀ {e e' : MaterializedSyncableEvent}, op.event? = some e →
        op'.event? = some e' → e.id ≠ e'.id := fun he he' =>
      hne _ (by simp [SyncOperation.subject, he]) _ (by simp [SyncOperation.subject, he'])
    have huids : ∀ {e e' : MaterializedSyncableEvent}, op.event? = some e →
        op'.event? = some e' → x.destination.uid e.id ≠ x.destination.uid e'.id := fun he he' h =>
      hevents he he' (hx.uids _ (Reconciliation.event?_covered hop he) _
        (Reconciliation.event?_covered hop' he') h)
    intro u hu hu'
    cases op with
    | remove op => cases hu
    | add op =>
      obtain rfl := List.mem_singleton.1 hu
      obtain ⟨he, -, hnew, -⟩ := add_cases hop
      cases op' with
      | remove op' => cases hu'
      | add op' => exact huids rfl rfl (List.mem_singleton.1 hu')
      | replace op' =>
        obtain ⟨m, hr⟩ := exists_replaces hop'
        simp only [touched, List.mem_cons, List.not_mem_nil, or_false] at hu'
        rcases hu' with hu' | hu'
        · rw [hr.uid] at hu'
          exact hnew m hr.takes.mapping (hs.own m hr.takes.mapping _ he hu'.symm)
        · exact huids rfl rfl hu'
    | replace op =>
      obtain ⟨m, hr⟩ := exists_replaces hop
      simp only [touched, List.mem_cons, List.not_mem_nil, or_false] at hu
      cases op' with
      | remove op' => cases hu'
      | add op' =>
        obtain rfl := List.mem_singleton.1 hu'
        rcases hu with hu | hu
        · rw [hr.uid] at hu
          exact uid_ne_of_takes hs hr.takes (hevents rfl rfl) (add_cases hop').1 hu.symm
        · exact huids rfl rfl hu.symm
      | replace op' =>
        obtain ⟨m', hr'⟩ := exists_replaces hop'
        simp only [touched, List.mem_cons, List.not_mem_nil, or_false] at hu'
        rcases hu with rfl | rfl <;> rcases hu' with hu' | hu'
        · have hmm : m = m' := List.inj_on_of_nodup_map hs.uids hr.takes.mapping hr'.takes.mapping
            (hr.uid.symm.trans (hu'.trans hr'.uid))
          subst hmm
          exact hevents rfl rfl (hr.event_id_eq hx hs hr')
        · rw [hr.uid] at hu'
          exact uid_ne_of_takes hs hr.takes (hevents rfl rfl) hr'.takes.event hu'
        · rw [hr'.uid] at hu'
          exact uid_ne_of_takes hs hr'.takes (hevents rfl rfl).symm hr.takes.event hu'.symm
        · exact huids rfl rfl hu'
  removes op hop := by
    rcases remove_cases (mem_plan.1 hop) with ⟨m, hm, heq⟩ | ⟨c, hc, -, heq⟩
    · simp only [removeMappingOperation, SyncOperation.remove.injEq] at heq
      rw [heq]
      exact uidOf_resolve hx hs (Reconciliation.mem_retiredMappings.1 hm).1
    · simp only [removeOrphanOperation, SyncOperation.remove.injEq] at heq
      rw [heq]
      exact hx.faithful.named _ c hc
  replaces op hop := by
    obtain ⟨m, hr⟩ := exists_replaces (mem_plan.1 hop)
    rw [hr.deleteId, hr.uid, hr.id]
    exact ⟨uidOf_resolve hx hs hr.takes.mapping, hs.ids_ne m hr.takes.mapping⟩
  adds op hop := (add_cases (mem_plan.1 hop)).2.1

end Orderly

end Keeper
