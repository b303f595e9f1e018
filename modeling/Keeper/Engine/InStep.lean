import Keeper.Engine.Outcome
import Keeper.Sync.Ownership

/-!
# What a run leaves of rows, copies and orphans

A row that a run neither deletes nor edits keeps its copy, a row that it writes is in step with its
event, and an orphan that it leaves has the uid of a copy that it wrote.

* `Unedited.copy_listed`: the copy of an unedited row stays listed.
* `Outcome.row_cases`: a covered row with a covered event is in step after a run, unless the run
  repaired its delete identifier.
* `Outcome.sweepable_before`: the orphans after a run.
-/

namespace Keeper

open JsArray

section InStep

variable {W : Type} {x : Setting W} {s s' : Replica W} {log : Log} {run : Run W}

variable {e : MaterializedSyncableEvent} {m : EventMapping} {c : RemoteEvent}

theorem Setting.Regular.covered_inj (hx : x.Regular) {e' : MaterializedSyncableEvent} (he : e ∈ x.covered)
    (he' : e' ∈ x.covered) (h : e.id = e'.id) : e = e' :=
  List.inj_on_of_nodup_map (hx.eventIds.sublist (List.filter_sublist.map _)) he he' h

/-- A row inside the authoritative window of its source. -/
def Setting.coversRow (x : Setting W) (m : EventMapping) : Bool :=
  isInsideSourceAuthoritativeWindow m.range m.sourceCalendarId x.scope

/-! ## Copies -/

/-- The copy of the row is listed under its delete identifier. -/
def HasCopy (x : Setting W) (s : Replica W) (m : EventMapping) : Prop :=
  ∃ c ∈ x.destination.list s.world, c.uid = m.destinationEventUid ∧
    c.deleteId = m.deleteIdentifier

/-- The row records the event as it is, and its copy shows it. -/
structure InStep (x : Setting W) (s : Replica W) (m : EventMapping)
    (e : MaterializedSyncableEvent) : Prop where
  hash : m.syncEventHash = some (createSyncEventContentHash x.host e)
  copy : ∃ c ∈ x.destination.list s.world, c.uid = m.destinationEventUid ∧
    c.deleteId = m.deleteIdentifier ∧ Reflects x.host m e c

theorem InStep.hasCopy (h : InStep x s m e) : HasCopy x s m := by
  obtain ⟨c, hc, hu, hd, -⟩ := h.copy
  exact ⟨c, hc, hu, hd⟩

structure Sweepable (x : Setting W) (s : Replica W) (c : RemoteEvent) : Prop where
  listed : c ∈ x.destination.list s.world
  swept : sweepsRemoteEvent (x.reconciliation s).mappedRemoteIdentities x.scope c = true

theorem mem_mappedRemoteIdentities_iff (hs : x.Sound s.mappings) (hc : c ∈ x.destination.list s.world) :
    c.identity ∈ (x.reconciliation s).mappedRemoteIdentities ↔
      ∃ m ∈ s.mappings, matchRemoteEvent (x.destination.list s.world) m = some c := by
  constructor
  · intro h
    obtain ⟨c', hc', hid⟩ := List.mem_map.1 h
    obtain ⟨k, hk⟩ := JsMap.mem_values_iff.1 hc'
    obtain ⟨m, hm, -, hmatch⟩ := matchRemoteEventsToMappings_some hk
    obtain rfl := List.inj_on_of_nodup_map (x.destination.distinct s.world)
      (matchRemoteEvent_spec hmatch).1 hc hid
    exact ⟨m, hm, hmatch⟩
  · rintro ⟨m, hm, hmatch⟩
    refine List.mem_map.2 ⟨c, JsMap.mem_values_iff.2 ⟨m.id, ?_⟩, rfl⟩
    exact (get?_matchRemoteEventsToMappings hs.ids hm).trans hmatch

theorem get?_remoteEventsByMappingId (hs : x.Sound s.mappings) (hm : m ∈ s.mappings) :
    (x.reconciliation s).remoteEventsByMappingId.get? m.id =
      matchRemoteEvent (x.destination.list s.world) m :=
  get?_matchRemoteEventsToMappings hs.ids hm

/-- A row whose copy is listed under its delete identifier is matched to it. -/
theorem HasCopy.exists_match (hs : x.Sound s.mappings) (hm : m ∈ s.mappings) (h : HasCopy x s m) :
    ∃ c, (x.reconciliation s).remoteEventsByMappingId.get? m.id = some c ∧
      c.deleteId = m.deleteIdentifier := by
  obtain ⟨c, hc, hu, hd⟩ := h
  exact ⟨c, (get?_remoteEventsByMappingId hs hm).trans (match_of_exact hc hu hd), hd⟩

/-! ## What a run does with a row and its copy -/

theorem LogOf.exists_replaces_of_stored (hs : x.Sound s.mappings) (h : LogOf x s log run) {st : Stored}
    (hst : st ∈ log.stored x.destination) (hm : m ∈ s.mappings) (hu : st.uid = m.destinationEventUid) :
    (∃ item ∈ log.edited, Replaces x s item.1 m) ∨
      ∃ item ∈ log.replaced, Replaces x s item.1 m := by
  rcases List.mem_append.1 hst with hst | hst
  · obtain ⟨item, hitem, rfl⟩ := List.mem_map.1 hst
    obtain ⟨m', hr⟩ := h.edited hitem
    obtain rfl := List.inj_on_of_nodup_map hs.uids hr.takes.mapping hm (hr.uid.symm.trans hu)
    exact Or.inl ⟨item, hitem, hr⟩
  · obtain ⟨item, hitem, rfl⟩ := List.mem_map.1 hst
    obtain ⟨he, hreplaced⟩ := h.pushed hs hitem
    exact Or.inr (hreplaced m hm (hs.own m hm _ he hu.symm))

/-- **A retired row is deleted**: its removal is not skipped, because no copy of its uid is
written. -/
theorem LogOf.deleted_of_retired (hx : x.Regular) (hs : x.Sound s.mappings) (h : LogOf x s log run)
    (hret : m ∈ (x.reconciliation s).retiredMappings) : m.id ∈ log.deleted s := by
  obtain ⟨hm, hr, ht⟩ := Reconciliation.mem_retiredMappings.1 hret
  have hop : removeMappingOperation m (x.reconciliation s).remoteEventsByMappingId ∈
      log.operations := h.mem_plan.1 (Reconciliation.mem_unsortedOperations_iff.2 (Or.inr (Or.inl
        (Reconciliation.mem_removeOperations_iff.2 (Or.inl ⟨m, hm, hr, ht, rfl⟩)))))
  rw [h.mem_deleted hx hs hm]
  rcases Log.mem_operations.1 hop with ⟨op, hop, heq⟩ | ⟨op, hop, heq⟩ | ⟨item, -, heq⟩ |
    ⟨item, -, heq⟩ | ⟨item, -, heq⟩
  · exact Or.inl ⟨hret, op, hop, heq⟩
  · obtain ⟨st, hst, hu⟩ := h.skipped op hop
    simp only [removeMappingOperation, SyncOperation.remove.injEq] at heq
    rw [heq] at hu
    rcases h.exists_replaces_of_stored hs hst hm hu with ⟨item, -, hrep⟩ | ⟨item, -, hrep⟩ <;>
      exact absurd hret (hrep.not_retired hx hs)
  all_goals cases heq

/-- A row that a run keeps and does not edit. -/
structure Unedited (x : Setting W) (s : Replica W) (log : Log) (m : EventMapping) : Prop where
  row : m ∈ s.mappings
  kept : m.id ∉ log.deleted s
  edited : ∀ item ∈ log.edited, item.1.staleMappingId ≠ m.id

theorem Unedited.not_replaced (hx : x.Regular) (hs : x.Sound s.mappings) (hlog : LogOf x s log run)
    (h : Unedited x s log m) {op : ReplaceOperation} (hop : .replace op ∈ (x.reconciliation s).unsortedOperations) :
    op.staleMappingId ≠ m.id := by
  intro hid
  rcases Log.mem_operations.1 (hlog.mem_plan.1 hop) with ⟨o, -, heq⟩ | ⟨o, -, heq⟩ |
    ⟨item, hitem, heq⟩ | ⟨item, hitem, heq⟩ | ⟨item, -, heq⟩
  · cases heq
  · cases heq
  · simp only [SyncOperation.replace.injEq] at heq
    exact h.edited item hitem (heq ▸ hid)
  · simp only [SyncOperation.replace.injEq] at heq
    obtain ⟨m', hr⟩ := hlog.replaced hitem
    obtain rfl := List.inj_on_of_nodup_map hs.ids hr.takes.mapping h.row
      (hr.id.symm.trans (heq ▸ hid))
    exact h.kept ((hlog.mem_deleted hx hs h.row).2 (Or.inr ⟨item, hitem, hr⟩))
  · cases heq

theorem Unedited.uid_ne (hx : x.Regular) (hs : x.Sound s.mappings) (hlog : LogOf x s log run) (h : Unedited x s log m)
    {st : Stored} (hst : st ∈ log.stored x.destination) : st.uid ≠ m.destinationEventUid := by
  intro hu
  rcases hlog.exists_replaces_of_stored hs hst h.row hu with ⟨item, hitem, hr⟩ | ⟨item, hitem, hr⟩
  · exact h.edited item hitem hr.id
  · exact h.kept ((hlog.mem_deleted hx hs h.row).2 (Or.inr ⟨item, hitem, hr⟩))

/-- **The copy of an unedited row stays listed.** -/
theorem Unedited.copy_listed (hx : x.Regular) (hs : x.Sound s.mappings) (ho : Outcome x s log run s')
    (h : Unedited x s log m) (hmatch : (x.reconciliation s).remoteEventsByMappingId.get? m.id = some c) :
    c ∈ x.destination.list s'.world := by
  have hlog := ho.logged
  obtain ⟨hc, hu⟩ := matched hx hs h.row hmatch
  -- a delete identifier that names a row's uid is not the one of this copy, but for the row itself
  have hown : ∀ m' ∈ s.mappings,
      resolveMappingDeleteId m' (x.reconciliation s).remoteEventsByMappingId = c.deleteId → m' = m := by
    intro m' hm' hd
    refine List.inj_on_of_nodup_map hs.uids hm' h.row ?_
    rw [← uidOf_resolve hx hs hm', hd, hx.faithful.named _ c hc, hu]
  rw [ho.world]
  refine hlog.writes.frame c hc ?_ fun st hst => hu ▸ h.uid_ne hx hs hlog hst
  intro hdrop
  simp only [Log.dropped, List.map_append, List.mem_append, List.mem_map] at hdrop
  rcases hdrop with ⟨op, hop, hd⟩ | ⟨item, hitem, hd⟩ | ⟨item, hitem, hd⟩
  · have hmem := hlog.mem_plan.2 (Log.mem_operations.2 (Or.inl ⟨op, hop, rfl⟩))
    rcases remove_cases hmem with ⟨m', hm', heq⟩ | ⟨c', hc', hsweep, heq⟩
    · have hm := (Reconciliation.mem_retiredMappings.1 hm').1
      have hdel := hd
      simp only [removeMappingOperation, SyncOperation.remove.injEq] at heq
      rw [heq] at hdel
      obtain rfl := hown m' hm hdel
      exact h.kept (hlog.deleted_of_retired hx hs hm')
    · simp only [removeOrphanOperation, SyncOperation.remove.injEq] at heq
      rw [heq] at hd
      obtain rfl := eq_of_deleteId hx.faithful hc' hc hd
      refine (Reconciliation.sweepsRemoteEvent_iff.1 hsweep).1
        ((mem_mappedRemoteIdentities_iff hs hc).2 ⟨m, h.row, ?_⟩)
      exact (get?_remoteEventsByMappingId hs h.row).symm.trans hmatch
  · obtain ⟨m', hr⟩ := hlog.edited hitem
    obtain rfl := hown m' hr.takes.mapping (hr.deleteId.symm.trans hd)
    exact h.edited item hitem hr.id
  · obtain ⟨m', hr⟩ := hlog.replaced hitem
    obtain rfl := hown m' hr.takes.mapping (hr.deleteId.symm.trans hd)
    exact h.kept ((hlog.mem_deleted hx hs h.row).2 (Or.inr ⟨item, hitem, hr⟩))

/-- A row that a run leaves as it is. -/
structure Untouched (x : Setting W) (s : Replica W) (log : Log) (m : EventMapping) : Prop
    extends Unedited x s log m where
  updated : ∀ u ∈ (x.plan s).mappingUpdates, u.id ≠ m.id

theorem Untouched.not_reassigned (hx : x.Regular) (hs : x.Sound s.mappings) (hlog : LogOf x s log run)
    (h : Untouched x s log m) : m.id ∉ (x.reconciliation s).reassignedMappingIds := by
  intro hmem
  obtain ⟨p, hp, hid⟩ := List.mem_map.1 hmem
  cases hd : (x.reconciliation s).isDatabaseOnly p with
  | false =>
    refine h.not_replaced hx hs hlog (Reconciliation.mem_unsortedOperations_iff.2 (Or.inr (Or.inr
      (Or.inr (Reconciliation.mem_reassignmentOperations_iff.2
        ⟨p, Reconciliation.mem_remoteReassignments.2 ⟨hp, hd⟩, rfl⟩))))) hid
  | true =>
    have hdb := Reconciliation.mem_databaseOnlyReassignments.2 ⟨hp, hd⟩
    obtain ⟨c, hc⟩ := Reconciliation.exists_remote_of_databaseOnly hdb
    have hu : mappingUpdate x.host p.mapping p.event c ∈ (x.plan s).mappingUpdates := by
      rw [mem_mappingUpdates, Reconciliation.values_mappingUpdatesById (hx.wellFormed hs).mappingIds]
      refine List.mem_append_right _ (List.mem_filterMap.2 ⟨p, hdb, ?_⟩)
      simp only [Reconciliation.reassignmentUpdate, hc, Option.map_some]
      rfl
    exact h.updated _ hu hid

theorem Untouched.retiresMapping (hx : x.Regular) (hs : x.Sound s.mappings) (hlog : LogOf x s log run)
    (h : Untouched x s log m) : retiresMapping (x.reconciliation s).localEventIds x.scope m = false := by
  by_contra hret
  refine h.kept (hlog.deleted_of_retired hx hs (Reconciliation.mem_retiredMappings.2
    ⟨h.row, h.not_reassigned hx hs hlog, Bool.of_not_eq_false hret⟩))

/-! ## Rows in step after a run -/

theorem Outcome.inStep_edited (ho : Outcome x s log run s') {item : ReplaceOperation × String}
    (hitem : item ∈ log.edited) (hr : Replaces x s item.1 m) :
    InStep x s' (m.write (editedUpdate x.host item)) item.1.event := by
  obtain ⟨c, hc, hu, hd, hshow⟩ := ho.exists_copy (Outcome.mem_stored_of_edited hitem)
  exact ⟨rfl, c, hc, hu.trans hr.uid, hd,
    hshow.content, hshow.availability, hshow.startTime, hshow.endTime⟩

theorem Outcome.inStep_pushed (ho : Outcome x s log run s')
    {item : MaterializedSyncableEvent × String} (hitem : item ∈ log.pushed) {id : String} :
    InStep x s' ((pushedInsert x.destination x.calendarId item.1 item.2).row x.db id) item.1 := by
  obtain ⟨c, hc, hu, hd, hshow⟩ := ho.exists_copy (Outcome.mem_stored_of_pushed hitem)
  exact ⟨rfl, c, hc, hu, hd, hshow.content, hshow.availability, hshow.startTime, hshow.endTime⟩

theorem Untouched.inStep (hx : x.Regular) (hs : x.Sound s.mappings) (ho : Outcome x s log run s')
    (h : Untouched x s log m) (hcov : x.coversRow m = true) (he : e ∈ x.covered) (hid : m.syncEventId = e.id) :
    InStep x s' m e := by
  have hw := hx.wellFormed hs
  have hlog := ho.logged
  have hstd : m ∈ (x.reconciliation s).standardMappings := Reconciliation.mem_standardMappings.2
    ⟨Reconciliation.mem_activeMappings.2 ⟨h.row, hcov⟩, h.not_reassigned hx hs hlog⟩
  have hl : (x.reconciliation s).localEventsById.get? m.syncEventId = some e :=
    hid ▸ (Reconciliation.get?_localEventsById hw).2 he
  have hlid := Reconciliation.localEventsById_isSome_iff.1 ⟨e, hl⟩
  have hfresh : m ∉ (x.reconciliation s).staleRemoteMappings := fun hst =>
    h.not_replaced hx hs hlog (Reconciliation.mem_unsortedOperations_iff.2 (Or.inr (Or.inr (Or.inl
      (Reconciliation.mem_replacementOperations_iff.2 ⟨m, hst, e, hl, rfl⟩))))) rfl
  have hnone : (x.reconciliation s).staleReason m = none := by
    by_contra hst
    exact hfresh (Reconciliation.mem_staleRemoteMappings.2 ⟨hstd, Option.isSome_iff_ne_none.2 hst⟩)
  have hcopy := (staleReason_eq_none_iff hlid hl).1 hnone
  cases hmatch : (x.reconciliation s).remoteEventsByMappingId.get? m.id with
  | none => simp [hmatch, show (x.reconciliation s).scope.authoritativeMappingIds = none from
      hx.fullRead] at hcopy
  | some c =>
    rw [hmatch] at hcopy
    refine ⟨hcopy.1, c, h.copy_listed hx hs ho hmatch, (matched hx hs h.row hmatch).2, ?_, hcopy.2⟩
    -- a legacy row with another delete identifier would have been updated
    by_contra hd
    have hlegacy : m.isLegacy = true := by
      rcases (matchRemoteEvent_spec ((get?_remoteEventsByMappingId hs h.row).symm.trans hmatch)).2
        with hi | ⟨hl, -⟩
      · obtain ⟨hc, -⟩ := matched hx hs h.row hmatch
        exact absurd (getRemoteIdentity_inj (hx.faithful.nulFree _ c hc) (hs.nulFree m h.row) hi).2 hd
      · exact hl
    have hmem : mappingUpdate x.host m e c ∈ (x.plan s).mappingUpdates := by
      rw [mem_mappingUpdates, Reconciliation.values_mappingUpdatesById hw.mappingIds]
      refine List.mem_append_left _ (List.mem_filterMap.2 ⟨m, hstd,
        Reconciliation.legacyUpdate_eq_some_iff.2 ⟨?_, e, c, hl, hmatch, hlegacy, hd, rfl⟩⟩)
      rw [Reconciliation.staleMappingIds_eq]
      intro hst
      obtain ⟨m', hm', hid'⟩ := List.mem_map.1 hst
      obtain rfl := List.inj_on_of_nodup_map hs.ids
        (Reconciliation.sublist_staleRemoteMappings.subset hm') h.row hid'
      exact hfresh hm'
    exact h.updated _ hmem rfl

theorem Outcome.unedited_of_updates (hx : x.Regular) (hs : x.Sound s.mappings) (ho : Outcome x s log run s')
    {u : PendingUpdate} (hu : u ∈ (x.plan s).mappingUpdates) (hup : Updates x s u m e c) : Unedited x s log m := by
  have hid : u.id = m.id := by rw [hup.update]; rfl
  have hapart := ho.logged.updated_apart hx hs hu hup.takes.mapping hid
  exact ⟨hup.takes.mapping, hapart.1, hapart.2⟩

/-- The copy of an updated row is listed under its new delete identifier. -/
theorem Outcome.hasCopy_updated (hx : x.Regular) (hs : x.Sound s.mappings) (ho : Outcome x s log run s')
    {u : PendingUpdate} (hu : u ∈ (x.plan s).mappingUpdates) (hup : Updates x s u m e c) :
    HasCopy x s' (m.write u) := by
  refine ⟨c, (ho.unedited_of_updates hx hs hu hup).copy_listed hx hs ho hup.copy,
    (matched hx hs hup.takes.mapping hup.copy).2, ?_⟩
  rw [hup.update]
  rfl

/-- The copy of a row that is reassigned in the table alone shows its event. -/
theorem reflects_of_databaseOnly (hp : ⟨e, m⟩ ∈ (x.reconciliation s).databaseOnlyReassignments)
    (hmatch : (x.reconciliation s).remoteEventsByMappingId.get? m.id = some c) :
    Reflects x.host (m.write (mappingUpdate x.host m e c)) e c := by
  have hd := (Reconciliation.mem_databaseOnlyReassignments.1 hp).2
  simp only [Reconciliation.isDatabaseOnly, hmatch, Bool.and_eq_true, Bool.not_eq_true',
    isSameSerializedSecond, decide_eq_true_eq] at hd
  obtain ⟨⟨-, hstart, hend⟩, hsame⟩ := hd
  have hr := hasRemoteStateChanged_eq_false_iff.1 hsame
  exact ⟨hr.content, hr.availability, hr.startTime.trans hstart, hr.endTime.trans hend⟩

def RepairsLegacy (x : Setting W) (s : Replica W) (m : EventMapping) (c : RemoteEvent) : Prop :=
  m ∈ (x.reconciliation s).standardMappings ∧
    (x.reconciliation s).remoteEventsByMappingId.get? m.id = some c ∧
    c.deleteId ≠ m.deleteIdentifier

/-- **A row with a covered event after a run** is in step, or lies outside the authoritative window
of its source, or holds a delete identifier that the run repaired. -/
theorem Outcome.row_cases (hx : x.Regular) (hs : x.Sound s.mappings) (ho : Outcome x s log run s') {m' : EventMapping}
    (hm' : m' ∈ s'.mappings) (he : e ∈ x.covered) (hid : m'.syncEventId = e.id) (hcov : x.coversRow m' = true) :
    InStep x s' m' e ∨ HasCopy x s' m' ∧ ∃ m ∈ s.mappings, m.syncEventId = e.id ∧
      ∃ c, RepairsLegacy x s m c := by
  rcases ho.rows m' hm' with ⟨m, hm, hk, hkeeps⟩ | ⟨item, hitem, id, rfl⟩
  · cases hkeeps with
    | same hedited hupdated =>
      exact Or.inl (Untouched.inStep hx hs ho ⟨⟨hm, hk, hedited⟩, hupdated⟩ hcov he hid)
    | edited item hitem hr =>
      obtain rfl := hx.covered_inj hr.takes.event he hid
      exact Or.inl (ho.inStep_edited hitem hr)
    | updated u e' c hu hup =>
      have hev : e'.id = e.id := by rw [← hid, hup.update]; rfl
      obtain rfl := hx.covered_inj hup.takes.event he hev
      have hcopy := ho.hasCopy_updated hx hs hu hup
      rcases hup.reason with ⟨hstd, -, hid', -, hd⟩ | hp
      · exact Or.inr ⟨hcopy, m, hm, hid', c, hstd, hup.copy, hd⟩
      · have hlisted := (ho.unedited_of_updates hx hs hu hup).copy_listed hx hs ho hup.copy
        have hcu := (matched hx hs hm hup.copy).2
        have hreflects := reflects_of_databaseOnly hp hup.copy
        rw [hup.update]
        exact Or.inl ⟨rfl, c, hlisted, hcu, rfl, hreflects⟩
  · obtain rfl := hx.covered_inj (ho.logged.pushed hs hitem).1 he hid
    exact Or.inl (ho.inStep_pushed hitem)

/-! ## Orphans after a run -/

theorem Outcome.exists_row_of_stored (hx : x.Regular) (hs : x.Sound s.mappings)
    (ho : Outcome x s log run s') {st : Stored} (hst : st ∈ log.stored x.destination) :
    ∃ m ∈ s'.mappings, m.destinationEventUid = st.uid ∧ m.deleteIdentifier = st.deleteId ∧
      ∃ e ∈ x.covered, m.syncEventId = e.id ∧ InStep x s' m e := by
  rcases List.mem_append.1 hst with hst | hst
  · obtain ⟨item, hitem, rfl⟩ := List.mem_map.1 hst
    obtain ⟨m, hr⟩ := ho.logged.edited hitem
    exact ⟨_, ho.edited_row hx hs hitem hr, hr.uid.symm, rfl, item.1.event, hr.takes.event, rfl,
      ho.inStep_edited hitem hr⟩
  · obtain ⟨item, hitem, rfl⟩ := List.mem_map.1 hst
    obtain ⟨id, hm⟩ := ho.pushed item hitem
    exact ⟨_, hm, rfl, rfl, item.1, (ho.logged.pushed hs hitem).1, rfl, ho.inStep_pushed hitem⟩

/-- A row with the uid and delete identifier of a listed event is matched to it. -/
theorem mapped_of_exact (hs : x.Sound s.mappings) (hm : m ∈ s.mappings) (hc : c ∈ x.destination.list s.world)
    (hu : c.uid = m.destinationEventUid) (hd : c.deleteId = m.deleteIdentifier) :
    c.identity ∈ (x.reconciliation s).mappedRemoteIdentities :=
  (mem_mappedRemoteIdentities_iff hs hc).2 ⟨m, hm, match_of_exact hc hu hd⟩

/-- The plan removes what it sweeps, unless a copy of its uid is written. -/
theorem LogOf.dropped_or_stored (h : LogOf x s log run) (hc : Sweepable x s c) :
    c.deleteId ∈ log.dropped ∨ ∃ st ∈ log.stored x.destination, st.uid = c.uid := by
  have hop : removeOrphanOperation c ∈ log.operations :=
    h.mem_plan.1 (Reconciliation.mem_unsortedOperations_iff.2 (Or.inr (Or.inl
      (Reconciliation.mem_removeOperations_iff.2 (Or.inr ⟨c, hc.listed, hc.swept, rfl⟩)))))
  rcases Log.mem_operations.1 hop with ⟨op, hop, heq⟩ | ⟨op, hop, heq⟩ | ⟨item, -, heq⟩ |
    ⟨item, -, heq⟩ | ⟨item, -, heq⟩
  · simp only [removeOrphanOperation, SyncOperation.remove.injEq] at heq
    have hd : op.deleteId = c.deleteId := by rw [heq]
    exact Or.inl (List.mem_append_left _ (List.mem_map.2 ⟨op, hop, hd⟩))
  · simp only [removeOrphanOperation, SyncOperation.remove.injEq] at heq
    obtain ⟨st, hst, hu⟩ := h.skipped op hop
    exact Or.inr ⟨st, hst, by rw [hu, heq]⟩
  all_goals cases heq

theorem Unedited.match_after (hx : x.Regular) (hs : x.Sound s.mappings) (ho : Outcome x s log run s')
    (h : Unedited x s log m) (hmatch : matchRemoteEvent (x.destination.list s.world) m = some c) :
    matchRemoteEvent (x.destination.list s'.world) m = some c := by
  have hmatch' := (get?_remoteEventsByMappingId hs h.row).trans hmatch
  have hc' := h.copy_listed hx hs ho hmatch'
  obtain ⟨hc, hu⟩ := matched hx hs h.row hmatch'
  rcases matchRemoteEvent_eq_some_iff.1 hmatch with hget | ⟨-, hl, hf⟩
  · have hi := (remoteEventsByIdentity_some hget).2
    exact match_of_exact hc' hu
      (getRemoteIdentity_inj (hx.faithful.nulFree _ c hc) (hs.nulFree m h.row) hi).2
  -- no other event of the uid is listed after the run
  have honly : ∀ c' ∈ x.destination.list s'.world, c'.uid = m.destinationEventUid → c' = c := by
    intro c' hc' hu'
    rw [ho.world] at hc'
    rcases ho.logged.writes.only c' hc' with ⟨hold, -⟩ | ⟨st, hst, hcopy⟩
    · have hmem : c' ∈ (x.destination.list s.world).filter fun r => r.uid = m.destinationEventUid :=
        List.mem_filter.2 ⟨hold, decide_eq_true hu'⟩
      rw [hf] at hmem
      exact List.mem_singleton.1 hmem
    · exact absurd (hcopy.1.symm.trans hu') (h.uid_ne hx hs ho.logged hst)
  by_cases hd : c.deleteId = m.deleteIdentifier
  · exact match_of_exact hc' hu hd
  refine matchRemoteEvent_eq_some_iff.2 (Or.inr ⟨?_, hl, ?_⟩)
  · cases hget : (remoteEventsByIdentity (x.destination.list s'.world)).get? m.identity with
    | none => rfl
    | some c' =>
      obtain ⟨hmem, hi⟩ := remoteEventsByIdentity_some hget
      obtain ⟨hu', hd'⟩ := getRemoteIdentity_inj (hx.faithful.nulFree _ c' hmem)
        (hs.nulFree m h.row) hi
      obtain rfl := honly c' hmem hu'
      exact absurd hd' hd
  · have hn := ((x.destination.distinct s'.world).of_map _).filter
      fun r => decide (r.uid = m.destinationEventUid)
    refine List.perm_singleton.1 ((List.perm_ext_iff_of_nodup hn (List.nodup_singleton c)).2 ?_)
    intro c'
    rw [List.mem_singleton, List.mem_filter, decide_eq_true_eq]
    constructor
    · rintro ⟨hmem, hu'⟩
      exact honly c' hmem hu'
    · rintro rfl
      exact ⟨hc', hu⟩

/-- **What is an orphan after a run** was one before, and has the uid of a copy that the run
wrote. -/
theorem Outcome.sweepable_before (hx : x.Regular) (hs : x.Sound s.mappings) (hs' : x.Sound s'.mappings)
    (ho : Outcome x s log run s') (hc : Sweepable x s' c) :
    Sweepable x s c ∧ ∃ st ∈ log.stored x.destination, st.uid = c.uid := by
  have hlog := ho.logged
  obtain ⟨hmapped, hkeeper, hfull, hwindow⟩ := Reconciliation.sweepsRemoteEvent_iff.1 hc.swept
  have hafter : ¬ ∃ m ∈ s'.mappings, matchRemoteEvent (x.destination.list s'.world) m = some c :=
    fun h => hmapped ((mem_mappedRemoteIdentities_iff hs' hc.listed).2 h)
  have hold : c ∈ x.destination.list s.world ∧ c.deleteId ∉ log.dropped := by
    rcases hlog.writes.only c (ho.world ▸ hc.listed) with hold | ⟨st, hst, hcopy⟩
    · exact hold
    · obtain ⟨m, hm, hu, hd, -⟩ := ho.exists_row_of_stored hx hs hst
      exact absurd (mapped_of_exact hs' hm hc.listed (hcopy.1.trans hu.symm)
        (hcopy.2.trans hd.symm)) hmapped
  have hbefore : Sweepable x s c := by
    refine ⟨hold.1, Reconciliation.sweepsRemoteEvent_iff.2 ⟨fun hmem => ?_, hkeeper, hfull, hwindow⟩⟩
    obtain ⟨m, hm, hmatch⟩ := (mem_mappedRemoteIdentities_iff hs hold.1).1 hmem
    have hmatch' := (get?_remoteEventsByMappingId hs hm).trans hmatch
    -- the copy of a row that a run deletes or edits is dropped
    have hresolve : resolveMappingDeleteId m (x.reconciliation s).remoteEventsByMappingId =
        c.deleteId := by
      rw [resolveMappingDeleteId, hmatch']
    have hedited : ∀ item ∈ log.edited, item.1.staleMappingId ≠ m.id := by
      intro item hitem hid
      obtain ⟨m', hr⟩ := hlog.edited hitem
      obtain rfl := List.inj_on_of_nodup_map hs.ids hr.takes.mapping hm (hr.id.symm.trans hid)
      exact hold.2 (List.mem_append_right _ (List.mem_map.2
        ⟨item, List.mem_append_left _ hitem, hr.deleteId.trans hresolve⟩))
    have hkept : m.id ∉ log.deleted s := by
      rw [hlog.mem_deleted hx hs hm]
      rintro (⟨-, op, hop, heq⟩ | ⟨item, hitem, hr⟩)
      · simp only [removeMappingOperation, SyncOperation.remove.injEq] at heq
        refine hold.2 (List.mem_append_left _ (List.mem_map.2 ⟨op, hop, ?_⟩))
        rw [heq]
        exact hresolve
      · exact hold.2 (List.mem_append_right _ (List.mem_map.2
          ⟨item, List.mem_append_right _ hitem, hr.deleteId.trans hresolve⟩))
    have hun : Unedited x s log m := ⟨hm, hkept, hedited⟩
    obtain ⟨m', hm', hkeeps⟩ := ho.kept m hm hkept
    cases hkeeps with
    | same _ _ => exact hafter ⟨m, hm', hun.match_after hx hs ho hmatch⟩
    | edited item hitem hr => exact hedited item hitem hr.id
    | updated u e c' hu hup =>
      obtain rfl : c' = c := Option.some.inj (hup.copy.symm.trans hmatch')
      refine hmapped (mapped_of_exact hs' hm' hc.listed (matched hx hs hm hup.copy).2 ?_)
      rw [hup.update]
      rfl
  refine ⟨hbefore, ?_⟩
  rcases hlog.dropped_or_stored hbefore with hd | hst
  · exact absurd hd hold.2
  · exact hst

end InStep

end Keeper
