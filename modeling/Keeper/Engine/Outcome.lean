import Keeper.Engine.Orderly

/-!
# What one run leaves

A run from a sound replica at a faithful destination succeeds. Its rows are the rows it kept, as
edits and mapping updates left them, and a row for each push; its listing is as its log says.

* `Outcome`: the replica after a run, in terms of the log of its execution.
* `exists_outcome`: every run from a sound replica has one.
-/

namespace Keeper

open JsArray

section Outcome

variable {W : Type} {x : Setting W} {s s' : Replica W} {log : Log} {run : Run W}

/-! ## The parts of a log -/

/-- The log of the execution of a plan. -/
abbrev LogOf (x : Setting W) (s : Replica W) (log : Log) (run : Run W) : Prop :=
  Logged x.destination (executorOf x.host s.mappings x.calendarId x.destination.provider none none)
    (x.destination.list s.world) (x.plan s).operations log [] run

theorem LogOf.mem_plan (h : LogOf x s log run) {op : SyncOperation} :
    op ∈ (x.reconciliation s).unsortedOperations ↔ op ∈ log.operations := by
  rw [← Keeper.mem_plan, h.mem_operations]
  simp

theorem LogOf.edited (h : LogOf x s log run) {item : ReplaceOperation × String}
    (hitem : item ∈ log.edited) : ∃ m, Replaces x s item.1 m :=
  exists_replaces (h.mem_plan.2 (Log.mem_operations.2 (Or.inr (Or.inr (Or.inl ⟨item, hitem, rfl⟩)))))

theorem LogOf.replaced (h : LogOf x s log run) {item : ReplaceOperation × String}
    (hitem : item ∈ log.replaced) : ∃ m, Replaces x s item.1 m :=
  exists_replaces (h.mem_plan.2
    (Log.mem_operations.2 (Or.inr (Or.inr (Or.inr (Or.inl ⟨item, hitem, rfl⟩))))))

theorem LogOf.added (h : LogOf x s log run) {item : AddOperation × String}
    (hitem : item ∈ log.added) : item.1.event ∈ x.covered ∧
      ∀ m ∈ s.mappings, m.syncEventId ≠ item.1.event.id := by
  obtain ⟨he, -, hn, -⟩ := add_cases (h.mem_plan.2
    (Log.mem_operations.2 (Or.inr (Or.inr (Or.inr (Or.inr ⟨item, hitem, rfl⟩))))))
  exact ⟨he, hn⟩

/-- A pushed event is covered, and a row that carries it is replaced. -/
theorem LogOf.pushed (hs : x.Sound s.mappings) (h : LogOf x s log run)
    {item : MaterializedSyncableEvent × String} (hitem : item ∈ log.pushed) :
    item.1 ∈ x.covered ∧ ∀ m ∈ s.mappings, m.syncEventId = item.1.id →
      ∃ item' ∈ log.replaced, Replaces x s item'.1 m := by
  rcases List.mem_append.1 hitem with hitem | hitem
  · obtain ⟨item', hitem', rfl⟩ := List.mem_map.1 hitem
    obtain ⟨m', hr⟩ := h.replaced hitem'
    refine ⟨hr.takes.event, fun m hm hid => ⟨item', hitem', ?_⟩⟩
    exact hr.takes.eq_of_syncEventId hs hm hid ▸ hr
  · obtain ⟨item', hitem', rfl⟩ := List.mem_map.1 hitem
    obtain ⟨he, hn⟩ := h.added hitem'
    exact ⟨he, fun m hm hid => absurd hid (hn m hm)⟩

/-- A mapping update: a row that takes an event, with the copy that shows it. -/
structure Updates (x : Setting W) (s : Replica W) (u : PendingUpdate) (m : EventMapping)
    (e : MaterializedSyncableEvent) (c : RemoteEvent) : Prop where
  takes : Takes x s m e
  copy : (x.reconciliation s).remoteEventsByMappingId.get? m.id = some c
  update : u = mappingUpdate x.host m e c
  reason : m ∈ (x.reconciliation s).standardMappings ∧
      (x.reconciliation s).staleReason m = none ∧ m.syncEventId = e.id ∧ m.isLegacy = true ∧
      c.deleteId ≠ m.deleteIdentifier ∨
    ⟨e, m⟩ ∈ (x.reconciliation s).databaseOnlyReassignments

theorem exists_updates {u : PendingUpdate} (hu : u ∈ (x.plan s).mappingUpdates) :
    ∃ m e c, Updates x s u m e c := by
  rcases Reconciliation.mem_updates_of_mem_values hu with ⟨m, hm, hu⟩ | ⟨p, hp, hu⟩
  · obtain ⟨hns, e, c, he, hc, hl, hd, rfl⟩ := Reconciliation.legacyUpdate_eq_some_iff.1 hu
    obtain ⟨he, hid⟩ := Reconciliation.localEventsById_some he
    have hmem := (Reconciliation.mem_activeMappings.1
      (Reconciliation.mem_standardMappings.1 hm).1).1
    have hfresh : (x.reconciliation s).staleReason m = none := by
      rw [Reconciliation.staleMappingIds_eq] at hns
      by_contra hst
      have hsome := Option.isSome_iff_ne_none.2 hst
      exact hns (List.mem_map_of_mem (Reconciliation.mem_staleRemoteMappings.2 ⟨hm, hsome⟩))
    exact ⟨m, e, c, ⟨hmem, he, Or.inl hid.symm⟩, hc, rfl, Or.inl ⟨hm, hfresh, hid.symm, hl, hd⟩⟩
  · obtain ⟨c, hc, rfl⟩ := Option.map_eq_some_iff.1 hu
    exact ⟨p.mapping, p.event, c,
      takes_of_reassignment (Reconciliation.mem_databaseOnlyReassignments.1 hp).1, hc, rfl, Or.inr hp⟩

theorem LogOf.nodup_subjects (hx : x.Regular) (hs : x.Sound s.mappings) (h : LogOf x s log run) :
    ((log.edited.map (·.1.event.id) ++ log.pushed.map (·.1.id)) ++
      (x.plan s).mappingUpdates.map (·.syncEventId)).Nodup := by
  have hp := (h.operations.filterMap SyncOperation.subject).append_right
    ((x.plan s).mappingUpdates.map (·.syncEventId))
  have hn := hp.nodup_iff.1 (nodup_plan_subjects hx hs)
  have hsub : (log.operations ++ []).filterMap SyncOperation.subject =
      log.edited.map (·.1.event.id) ++ log.pushed.map (·.1.id) := by
    have hremoves : ∀ l : List RemoveOperation,
        (l.map SyncOperation.remove).filterMap SyncOperation.subject = [] := by
      intro l
      rw [List.filterMap_map]
      exact List.filterMap_eq_nil_iff.2 fun _ _ => rfl
    have hmap : ∀ {α : Type} (l : List α) (f : α → SyncOperation) (g : α → String),
        (∀ a, (f a).subject = some (g a)) → (l.map f).filterMap SyncOperation.subject = l.map g := by
      intro α l f g hfg
      rw [List.filterMap_map, ← List.filterMap_eq_map]
      exact List.filterMap_congr fun a _ => hfg a
    simp only [Log.operations, List.append_nil, List.filterMap_append, hremoves, List.nil_append,
      Log.pushed, List.map_append, List.map_map, List.append_assoc]
    rw [hmap _ _ (fun item : ReplaceOperation × String => item.1.event.id) fun _ => rfl,
      hmap _ _ (fun item : ReplaceOperation × String => item.1.event.id) fun _ => rfl,
      hmap _ _ (fun item : AddOperation × String => item.1.event.id) fun _ => rfl]
    rfl
  rwa [hsub] at hn

/-- The rows that a run deletes. -/
def Log.deleted (log : Log) (s : Replica W) : List String :=
  log.deletes (mappingsByRemoteIdentity s.mappings)

/-- **A row is deleted** when it is retired and removed, or replaced by a push. -/
theorem LogOf.mem_deleted (hx : x.Regular) (hs : x.Sound s.mappings) (h : LogOf x s log run)
    {m : EventMapping} (hm : m ∈ s.mappings) :
    m.id ∈ log.deleted s ↔
      (m ∈ (x.reconciliation s).retiredMappings ∧ ∃ op ∈ log.removed, SyncOperation.remove op =
        removeMappingOperation m (x.reconciliation s).remoteEventsByMappingId) ∨
      ∃ item ∈ log.replaced, Replaces x s item.1 m := by
  simp only [Log.deleted, Log.deletes, List.mem_append, List.mem_filterMap, List.mem_map]
  constructor
  · rintro (⟨op, hop, ht⟩ | ⟨item, hitem, hid⟩)
    · obtain ⟨ht, -⟩ := truthy_eq_some_iff.1 ht
      have hmem := h.mem_plan.2 (Log.mem_operations.2 (Or.inl ⟨op, hop, rfl⟩))
      rcases remove_cases hmem with ⟨m', hm', heq⟩ | ⟨c, hc, hsweep, heq⟩
      · have hid : m'.id = m.id := by
          simp only [removeMappingOperation, SyncOperation.remove.injEq] at heq
          rw [heq] at ht
          exact Option.some.inj ht
        obtain rfl := List.inj_on_of_nodup_map hs.ids (Reconciliation.mem_retiredMappings.1 hm').1
          hm hid
        exact Or.inl ⟨hm', op, hop, heq⟩
      · simp only [removeOrphanOperation, SyncOperation.remove.injEq] at heq
        have hnone := Reconciliation.get?_mappingsByRemoteIdentity_of_sweeps (hx.wellFormed hs)
          hsweep hc
        have htarget : removeTarget (mappingsByRemoteIdentity s.mappings) op =
            ((mappingsByRemoteIdentity s.mappings).get? c.identity).map (·.id) := by
          rw [heq]
          rfl
        rw [htarget, show (mappingsByRemoteIdentity s.mappings).get? c.identity = none from hnone] at ht
        cases ht
    · obtain ⟨m', hr⟩ := h.replaced hitem
      obtain rfl := List.inj_on_of_nodup_map hs.ids hr.takes.mapping hm (hr.id.symm.trans hid)
      exact Or.inr ⟨item, hitem, hr⟩
  · rintro (⟨-, op, hop, heq⟩ | ⟨item, hitem, hr⟩)
    · refine Or.inl ⟨op, hop, truthy_eq_some_iff.2 ⟨?_, hs.ids_ne m hm⟩⟩
      simp only [removeMappingOperation, SyncOperation.remove.injEq] at heq
      rw [heq]
      rfl
    · exact Or.inr ⟨item, hitem, hr.id⟩

/-- A row that takes an event in a run keeps out of the retired ones. -/
theorem not_mem_retired_of_stale (hx : x.Regular) (hs : x.Sound s.mappings) {m : EventMapping}
    (hm : m ∈ (x.reconciliation s).staleRemoteMappings) :
    m ∉ (x.reconciliation s).retiredMappings := by
  intro hret
  have hst := Reconciliation.mem_staleRemoteMappings.1 hm
  have hact := (Reconciliation.mem_standardMappings.1 hst.1).1
  have hr := (Reconciliation.mem_retiredMappings.1 hret).2.2
  rw [Reconciliation.retiresMapping_eq_false (hx.wellFormed hs) hact
    (mem_localEventIds_of_staleReason hst.2)] at hr
  cases hr

theorem Replaces.not_retired (hx : x.Regular) (hs : x.Sound s.mappings) {op : ReplaceOperation}
    {m : EventMapping} (h : Replaces x s op m) : m ∉ (x.reconciliation s).retiredMappings := by
  rcases h.reason with ⟨hst, -⟩ | hp
  · exact not_mem_retired_of_stale hx hs hst
  · intro hret
    exact (Reconciliation.mem_retiredMappings.1 hret).2.1
      (Reconciliation.mem_reassignedMappingIds (Reconciliation.mem_remoteReassignments.1 hp).1)

theorem LogOf.edited_not_deleted (hx : x.Regular) (hs : x.Sound s.mappings)
    (h : LogOf x s log run) {item : ReplaceOperation × String} (hitem : item ∈ log.edited)
    {m : EventMapping} (hr : Replaces x s item.1 m) : m.id ∉ log.deleted s := by
  rw [h.mem_deleted hx hs hr.takes.mapping]
  rintro (⟨hret, -⟩ | ⟨item', hitem', hr'⟩)
  · exact hr.not_retired hx hs hret
  · have hn := (List.nodup_append.1 (List.nodup_append.1 (h.nodup_subjects hx hs)).1).2.2
    refine hn _ (List.mem_map_of_mem hitem) _ ?_ (hr.event_id_eq hx hs hr')
    simp only [Log.pushed, List.map_append, List.map_map, List.mem_append]
    exact Or.inl (List.mem_map_of_mem hitem')

/-- A row that a mapping update writes is neither deleted nor edited. -/
theorem LogOf.updated_apart (hx : x.Regular) (hs : x.Sound s.mappings) (h : LogOf x s log run)
    {u : PendingUpdate} (hu : u ∈ (x.plan s).mappingUpdates) {m : EventMapping}
    (hm : m ∈ s.mappings) (hid : u.id = m.id) :
    m.id ∉ log.deleted s ∧ ∀ item ∈ log.edited, item.1.staleMappingId ≠ m.id := by
  have hn := Reconciliation.update_not_target (hx.wellFormed hs) hu
  have htarget : ∀ op ∈ log.operations, op.target s.mappings ≠ some m.id := by
    intro op hop ht
    exact hn (List.mem_filterMap.2 ⟨op, h.mem_plan.2 hop, by rw [hid]; exact ht⟩)
  constructor
  · rw [h.mem_deleted hx hs hm]
    rintro (⟨-, op, hop, heq⟩ | ⟨item, hitem, hr⟩)
    · refine htarget (.remove op) (Log.mem_operations.2 (Or.inl ⟨op, hop, rfl⟩)) ?_
      rw [heq]
      rfl
    · refine htarget (.replace item.1) (Log.mem_operations.2
        (Or.inr (Or.inr (Or.inr (Or.inl ⟨item, hitem, rfl⟩))))) ?_
      exact congrArg some hr.id
  · intro item hitem heq
    refine htarget (.replace item.1) (Log.mem_operations.2
      (Or.inr (Or.inr (Or.inl ⟨item, hitem, rfl⟩)))) ?_
    exact congrArg some heq

/-! ## The rows after a run -/

/-- The updates of a run: those of its edits, and the mapping updates. -/
def updatesOf (x : Setting W) (s : Replica W) (run : Run W) : List PendingUpdate :=
  run.state.changes.updateList ++ (x.plan s).mappingUpdates

/-- The rows that a run keeps. -/
def keptOf (s : Replica W) (run : Run W) : List EventMapping :=
  s.mappings.filter fun m => !run.state.changes.deletes.contains m.id

theorem LogOf.mem_kept (h : LogOf x s log run) {m : EventMapping} :
    m ∈ keptOf s run ↔ m ∈ s.mappings ∧ m.id ∉ log.deleted s := by
  have hmem : m.id ∈ run.state.changes.deletes ↔ m.id ∈ log.deleted s := h.deletes.mem_iff
  simp [keptOf, hmem]

theorem LogOf.mem_updates (h : LogOf x s log run) {u : PendingUpdate} :
    u ∈ updatesOf x s run ↔
      (∃ item ∈ log.edited, editedUpdate x.host item = u) ∨ u ∈ (x.plan s).mappingUpdates := by
  rw [updatesOf, List.mem_append, h.updates.mem_iff, List.mem_map]

theorem LogOf.takes_of_update (hx : x.Regular) (hs : x.Sound s.mappings) (h : LogOf x s log run)
    {u : PendingUpdate} (hu : u ∈ updatesOf x s run) :
    ∃ m e, Takes x s m e ∧ u.id = m.id ∧ u.syncEventId = e.id ∧ m ∈ keptOf s run := by
  rcases h.mem_updates.1 hu with ⟨item, hitem, rfl⟩ | hu
  · obtain ⟨m, hr⟩ := h.edited hitem
    exact ⟨m, item.1.event, hr.takes, hr.id, rfl,
      h.mem_kept.2 ⟨hr.takes.mapping, h.edited_not_deleted hx hs hitem hr⟩⟩
  · obtain ⟨m, e, c, hup⟩ := exists_updates hu
    have hid : u.id = m.id := by rw [hup.update]; rfl
    refine ⟨m, e, hup.takes, hid, by rw [hup.update]; rfl, h.mem_kept.2 ⟨hup.takes.mapping, ?_⟩⟩
    exact (h.updated_apart hx hs hu hup.takes.mapping hid).1

theorem LogOf.nodup_updates (hx : x.Regular) (hs : x.Sound s.mappings) (h : LogOf x s log run) :
    ((updatesOf x s run).map (·.id)).Nodup := by
  have hn := (List.nodup_append.1 (List.nodup_append.1 (h.nodup_subjects hx hs)).1).1
  have hp := (h.updates.append_right (x.plan s).mappingUpdates).map (·.id)
  refine hp.nodup_iff.2 ?_
  rw [List.map_append, List.map_map, List.nodup_append]
  refine ⟨?_, ?_, ?_⟩
  · refine List.pairwise_map.2 ((List.pairwise_map.1 hn).imp_of_mem ?_)
    intro item item' hitem hitem' hne heq
    obtain ⟨m, hr⟩ := h.edited hitem
    obtain ⟨m', hr'⟩ := h.edited hitem'
    obtain rfl := List.inj_on_of_nodup_map hs.ids hr.takes.mapping hr'.takes.mapping
      (hr.id.symm.trans (heq.trans hr'.id))
    exact hne (hr.event_id_eq hx hs hr')
  · have hw := hx.wellFormed hs
    rw [show (x.plan s).mappingUpdates = _ from Reconciliation.values_mappingUpdatesById hw.mappingIds]
    exact Reconciliation.nodup_update_ids hw.mappingIds
  · refine disjoint_map_of_excludes fun item hitem u hu heq => ?_
    obtain ⟨m, e, c, hup⟩ := exists_updates hu
    have hid : u.id = m.id := by rw [hup.update]; rfl
    exact (h.updated_apart hx hs hu hup.takes.mapping hid).2 item hitem (heq.trans hid)

/-- **The changes of a run fit the rows that it keeps.** -/
theorem LogOf.fits (hx : x.Regular) (hs : x.Sound s.mappings) (h : LogOf x s log run) :
    Fits (keptOf s run) run.state.changes.inserts (updatesOf x s run) where
  inserted := by
    have hn := (List.nodup_append.1 (List.nodup_append.1 (h.nodup_subjects hx hs)).1).2.1
    have hp := (h.inserts.map (·.syncEventId)).append_left ((keptOf s run).map (·.syncEventId))
    refine hp.nodup_iff.2 ?_
    rw [List.map_map, List.nodup_append]
    refine ⟨hs.events.sublist (List.filter_sublist.map _), hn, ?_⟩
    refine disjoint_map_of_excludes fun m hm item hitem heq => ?_
    obtain ⟨hm, hkept⟩ := h.mem_kept.1 hm
    obtain ⟨item', hitem', hr⟩ := (h.pushed hs hitem).2 m hm heq
    exact hkept ((h.mem_deleted hx hs hm).2 (Or.inr ⟨item', hitem', hr⟩))
  updated := by
    have hp := (h.updates.append_right (x.plan s).mappingUpdates).map (·.syncEventId)
    refine hp.nodup_iff.2 ?_
    rw [List.map_append, List.map_map]
    exact (h.nodup_subjects hx hs).sublist
      ((List.sublist_append_left _ _).append (List.Sublist.refl _))
  free u hu m' hm' hne heq := by
    obtain ⟨m, e, ht, hid, hev, -⟩ := h.takes_of_update hx hs hu
    obtain rfl := ht.eq_of_syncEventId hs (h.mem_kept.1 hm').1 (heq.trans hev)
    exact hne hid.symm
  apart u hu i hi heq := by
    obtain ⟨item, hitem, rfl⟩ := List.mem_map.1 (h.inserts.mem_iff.1 hi)
    have hn := List.nodup_append.1 (h.nodup_subjects hx hs)
    rcases h.mem_updates.1 hu with ⟨item', hitem', rfl⟩ | hu
    · exact (List.nodup_append.1 hn.1).2.2 _ (List.mem_map_of_mem hitem') _
        (List.mem_map_of_mem hitem) heq.symm
    · exact hn.2.2 _ (List.mem_append_right _ (List.mem_map_of_mem hitem)) _
        (List.mem_map_of_mem hu) heq
  known u hu := by
    obtain ⟨m, e, -, hid, -, hm⟩ := h.takes_of_update hx hs hu
    exact ⟨m, hm, hid.symm⟩

/-- What a run leaves of a row that it keeps. -/
inductive Keeps (x : Setting W) (s : Replica W) (log : Log) (m : EventMapping) :
    EventMapping → Prop
  | same (hedited : ∀ item ∈ log.edited, item.1.staleMappingId ≠ m.id)
      (hupdated : ∀ u ∈ (x.plan s).mappingUpdates, u.id ≠ m.id) : Keeps x s log m m
  | edited (item) (hitem : item ∈ log.edited) (hr : Replaces x s item.1 m) :
      Keeps x s log m (m.write (editedUpdate x.host item))
  | updated (u e c) (hu : u ∈ (x.plan s).mappingUpdates) (hup : Updates x s u m e c) :
      Keeps x s log m (m.write u)

/-- **The replica after a run**, in terms of the log of its execution. -/
structure Outcome (x : Setting W) (s : Replica W) (log : Log) (run : Run W) (s' : Replica W) :
    Prop where
  logged : LogOf x s log run
  world : s'.world = run.io.world
  ids : (s'.mappings.map (·.id)).Nodup
  ids_ne : ∀ m ∈ s'.mappings, m.id ≠ ""
  rows : ∀ m' ∈ s'.mappings, (∃ m ∈ s.mappings, m.id ∉ log.deleted s ∧ Keeps x s log m m') ∨
    ∃ item ∈ log.pushed, ∃ id,
      m' = (pushedInsert x.destination x.calendarId item.1 item.2).row x.db id
  kept : ∀ m ∈ s.mappings, m.id ∉ log.deleted s → ∃ m' ∈ s'.mappings, Keeps x s log m m'
  pushed : ∀ item ∈ log.pushed, ∃ id,
    (pushedInsert x.destination x.calendarId item.1 item.2).row x.db id ∈ s'.mappings
  mappings : ∃ new, s'.mappings = (keptOf s run).map (·.writeAll (updatesOf x s run)) ++ new ∧
    AreRows x.db run.state.changes.inserts new

theorem LogOf.keeps_writeAll (hx : x.Regular) (hs : x.Sound s.mappings) (h : LogOf x s log run)
    {m : EventMapping} (hm : m ∈ s.mappings) :
    Keeps x s log m (m.writeAll (updatesOf x s run)) := by
  rcases m.writeAll_cases (h.nodup_updates hx hs) with ⟨hn, heq⟩ | ⟨u, hu, hid, heq⟩ <;> rw [heq]
  · have hno : ∀ u ∈ updatesOf x s run, u.id ≠ m.id := fun u hu hid =>
      hn (List.mem_map.2 ⟨u, hu, hid⟩)
    exact .same (fun item hitem => hno _ (h.mem_updates.2 (Or.inl ⟨item, hitem, rfl⟩)))
      fun u hu => hno u (h.mem_updates.2 (Or.inr hu))
  · rcases h.mem_updates.1 hu with ⟨item, hitem, rfl⟩ | hu
    · obtain ⟨m', hr⟩ := h.edited hitem
      obtain rfl := List.inj_on_of_nodup_map hs.ids hr.takes.mapping hm (hr.id.symm.trans hid)
      exact .edited item hitem hr
    · obtain ⟨m', e, c, hup⟩ := exists_updates hu
      have hid' : u.id = m'.id := by rw [hup.update]; rfl
      obtain rfl := List.inj_on_of_nodup_map hs.ids hup.takes.mapping hm (hid'.symm.trans hid)
      exact .updated u e c hu hup

/-- **Every run from a sound replica succeeds**, with an outcome. -/
theorem exists_outcome (hx : x.Regular) (hs : x.Sound s.mappings) :
    ∃ log run s', x.reconcile s = some s' ∧ Outcome x s log run s' := by
  obtain ⟨run, log, hrun, h⟩ := exists_log hx.faithful (orderly_plan hx hs) s.mappings x.calendarId
    s.world
  have hlog : LogOf x s log run := h
  let changes : PendingChanges :=
    { run.state.changes with updates := some (updatesOf x s run) }
  obtain ⟨new, hnew, hrows, hids, hnes⟩ := flushRows_eq_some x.db changes hs.ids hs.ids_ne (hlog.fits hx hs)
  change flushRows x.db changes s.mappings =
    some ((keptOf s run).map (·.writeAll (updatesOf x s run)) ++ new) at hnew
  change ((keptOf s run ++ new).map (·.id)).Nodup at hids
  let s' : Replica W :=
    ⟨(keptOf s run).map (·.writeAll (updatesOf x s run)) ++ new, run.io.world⟩
  refine ⟨log, run, s', ?_, hlog, rfl, ?_, ?_, ?_, ?_, ?_, new, rfl, hrows⟩
  · have hflush := flushRows_bind x.db run.state.changes (x.plan s).mappingUpdates s.mappings
    rw [show flushRows x.db { run.state.changes with
      updates := some (run.state.changes.updates.getD [] ++ (x.plan s).mappingUpdates) } s.mappings =
        some s'.mappings from hnew] at hflush
    obtain ⟨rows, hrows₁, hrows₂⟩ := Option.bind_eq_some_iff.1 hflush
    have hexec : x.execute s = (.ok ⟨⟩, run) := hrun
    simp only [Setting.reconcile, hexec, Except.toOption, Option.bind_eq_bind, Option.bind_some,
      hrows₁, hrows₂]
    rfl
  · simpa [s', List.map_append, List.map_map, Function.comp_def] using hids
  · intro m' hm'
    rcases List.mem_append.1 hm' with hm' | hm'
    · obtain ⟨m, hm, rfl⟩ := List.mem_map.1 hm'
      rw [EventMapping.id_writeAll]
      exact hs.ids_ne m (hlog.mem_kept.1 hm).1
    · exact hnes m' hm'
  · intro m' hm'
    rcases List.mem_append.1 hm' with hm' | hm'
    · obtain ⟨m, hm, rfl⟩ := List.mem_map.1 hm'
      obtain ⟨hm, hk⟩ := hlog.mem_kept.1 hm
      exact Or.inl ⟨m, hm, hk, hlog.keeps_writeAll hx hs hm⟩
    · obtain ⟨i, hi, id, rfl⟩ := hrows.mem hm'
      obtain ⟨item, hitem, rfl⟩ := List.mem_map.1 (hlog.inserts.mem_iff.1 hi)
      exact Or.inr ⟨item, hitem, id, rfl⟩
  · intro m hm hk
    exact ⟨_, List.mem_append_left _ (List.mem_map_of_mem (hlog.mem_kept.2 ⟨hm, hk⟩)),
      hlog.keeps_writeAll hx hs hm⟩
  · intro item hitem
    obtain ⟨m', hm', id, rfl⟩ := hrows.exists (hlog.inserts.mem_iff.2 (List.mem_map_of_mem hitem))
    exact ⟨id, List.mem_append_right _ hm'⟩

/-! ## Soundness is kept -/

/-- A row that a run keeps is as it was, or takes an event and its hash and times. -/
theorem Keeps.cases {m m' : EventMapping} (h : Keeps x s log m m') :
    m' = m ∨ ∃ e, Takes x s m e ∧ m'.syncEventId = e.id ∧ m'.startTime = e.startTime ∧
      m'.endTime = e.endTime ∧ m'.syncEventHash = some (createSyncEventContentHash x.host e) := by
  cases h with
  | same => exact Or.inl rfl
  | edited item hitem hr => exact Or.inr ⟨item.1.event, hr.takes, rfl, rfl, rfl, rfl⟩
  | updated u e c hu hup =>
    refine Or.inr ⟨e, hup.takes, ?_⟩
    rw [hup.update]
    exact ⟨rfl, rfl, rfl, rfl⟩

theorem Keeps.destinationEventUid {m m' : EventMapping} (h : Keeps x s log m m') :
    m'.destinationEventUid = m.destinationEventUid := by
  cases h <;> rfl

theorem AreRows.map {db : Database} {inserts : List PendingInsert} {new : List EventMapping}
    {f : EventMapping → String} {g : PendingInsert → String} (h : AreRows db inserts new)
    (hfg : ∀ i id, f (i.row db id) = g i) : new.map f = inserts.map g := by
  induction h with
  | nil => rfl
  | cons hrow _ ih =>
    obtain ⟨id, rfl⟩ := hrow
    rw [List.map_cons, List.map_cons, hfg, ih]

namespace Outcome

theorem exists_copy (h : Outcome x s log run s') {st : Stored} (hst : st ∈ log.stored x.destination) :
    ∃ c ∈ x.destination.list s'.world, c.uid = st.uid ∧ c.deleteId = st.deleteId ∧
      Displays x.host st.event c := by
  obtain ⟨c, hc, ⟨hu, hd⟩, hshow⟩ := h.logged.writes.present st hst
  rw [← h.world] at hc
  exact ⟨c, hc, hu, hd, hshow⟩

theorem mem_stored_of_edited {item : ReplaceOperation × String} (hitem : item ∈ log.edited) :
    editedCopy item ∈ log.stored x.destination :=
  Log.mem_stored.2 (Or.inl ⟨item, hitem, rfl⟩)

theorem mem_stored_of_pushed {item : MaterializedSyncableEvent × String}
    (hitem : item ∈ log.pushed) :
    pushedCopy x.destination item.1 item.2 ∈ log.stored x.destination :=
  List.mem_append_right _ (List.mem_map_of_mem hitem)

theorem edit_eq (hx : x.Regular) (hs : x.Sound s.mappings) (h : Outcome x s log run s')
    {item item' : ReplaceOperation × String} (hitem : item ∈ log.edited)
    (hitem' : item' ∈ log.edited) (hid : item.1.event.id = item'.1.event.id) : item = item' := by
  have hn := (List.nodup_append.1 (List.nodup_append.1 (h.logged.nodup_subjects hx hs)).1).1
  exact List.inj_on_of_nodup_map hn hitem hitem' hid

theorem edited_row (hx : x.Regular) (hs : x.Sound s.mappings) (h : Outcome x s log run s')
    {item : ReplaceOperation × String} (hitem : item ∈ log.edited) {m : EventMapping}
    (hr : Replaces x s item.1 m) : m.write (editedUpdate x.host item) ∈ s'.mappings := by
  obtain ⟨m', hm', hkeeps⟩ := h.kept m hr.takes.mapping
    (h.logged.edited_not_deleted hx hs hitem hr)
  cases hkeeps with
  | same hedited _ => exact absurd hr.id (hedited item hitem)
  | edited item' hitem' hr' =>
    obtain rfl := h.edit_eq hx hs hitem hitem' (hr.event_id_eq hx hs hr')
    exact hm'
  | updated u e c hu hup =>
    have hid : u.id = m.id := by rw [hup.update]; rfl
    exact absurd hr.id ((h.logged.updated_apart hx hs hu hr.takes.mapping hid).2 item hitem)

theorem updated_row (hx : x.Regular) (hs : x.Sound s.mappings) (h : Outcome x s log run s')
    {u : PendingUpdate} (hu : u ∈ (x.plan s).mappingUpdates) {m : EventMapping}
    (hm : m ∈ s.mappings) (hid : u.id = m.id) : m.write u ∈ s'.mappings := by
  have hapart := h.logged.updated_apart hx hs hu hm hid
  obtain ⟨m', hm', hkeeps⟩ := h.kept m hm hapart.1
  cases hkeeps with
  | same _ hupdated => exact absurd hid (hupdated u hu)
  | edited item hitem hr => exact absurd hr.id (hapart.2 item hitem)
  | updated u' e c hu' hup =>
    have hid' : u'.id = m.id := by rw [hup.update]; rfl
    have hn := (h.logged.nodup_updates hx hs).sublist ((List.sublist_append_right _ _).map _)
    obtain rfl := List.inj_on_of_nodup_map hn hu hu' (hid.trans hid'.symm)
    exact hm'

theorem keeps_events_inj (hx : x.Regular) (hs : x.Sound s.mappings) (h : Outcome x s log run s')
    {m₁ m₂ m₁' m₂' : EventMapping} (hm₁ : m₁ ∈ s.mappings) (hm₂ : m₂ ∈ s.mappings)
    (h₁ : Keeps x s log m₁ m₁') (h₂ : Keeps x s log m₂ m₂')
    (heq : m₁'.syncEventId = m₂'.syncEventId) : m₁ = m₂ := by
  have hn := List.nodup_append.1 (h.logged.nodup_subjects hx hs)
  have hedits := (List.nodup_append.1 hn.1).1
  cases h₁ with
  | same _ _ =>
    rcases h₂.cases with rfl | ⟨e, ht, hid, -⟩
    · exact List.inj_on_of_nodup_map hs.events hm₁ hm₂ heq
    · exact ht.eq_of_syncEventId hs hm₁ (heq.trans hid)
  | edited item hitem hr =>
    cases h₂ with
    | same _ _ => exact (hr.takes.eq_of_syncEventId hs hm₂ heq.symm).symm
    | edited item' hitem' hr' =>
      obtain rfl := List.inj_on_of_nodup_map hedits hitem hitem' heq
      exact List.inj_on_of_nodup_map hs.ids hm₁ hm₂ (hr.id.symm.trans hr'.id)
    | updated u e c hu hup =>
      exact absurd heq (hn.2.2 _ (List.mem_append_left _ (List.mem_map_of_mem hitem)) _
        (List.mem_map_of_mem hu))
  | updated u e c hu hup =>
    have hid : u.id = m₁.id := by rw [hup.update]; rfl
    have hev : u.syncEventId = e.id := by rw [hup.update]; rfl
    cases h₂ with
    | same _ _ => exact (hup.takes.eq_of_syncEventId hs hm₂ (heq.symm.trans hev)).symm
    | edited item hitem hr =>
      exact absurd heq.symm (hn.2.2 _ (List.mem_append_left _ (List.mem_map_of_mem hitem)) _
        (List.mem_map_of_mem hu))
    | updated u' e' c' hu' hup' =>
      have hid' : u'.id = m₂.id := by rw [hup'.update]; rfl
      obtain rfl := List.inj_on_of_nodup_map hn.2.1 hu hu' heq
      exact List.inj_on_of_nodup_map hs.ids hm₁ hm₂ (hid.symm.trans hid')

/-- A text of the rows is different for each of them if it is for the kept ones and for the pushed
ones, and these differ. -/
theorem nodup_mappings (hs : x.Sound s.mappings) (h : Outcome x s log run s')
    {f : EventMapping → String} {g : PendingInsert → String}
    (hfg : ∀ i id, f (i.row x.db id) = g i)
    (hkept : ∀ m₁ ∈ keptOf s run, ∀ m₂ ∈ keptOf s run,
      f (m₁.writeAll (updatesOf x s run)) = f (m₂.writeAll (updatesOf x s run)) → m₁ = m₂)
    (hpushed : (log.pushed.map fun item =>
      g (pushedInsert x.destination x.calendarId item.1 item.2)).Nodup)
    (hapart : ∀ m ∈ keptOf s run, ∀ item ∈ log.pushed,
      f (m.writeAll (updatesOf x s run)) ≠
        g (pushedInsert x.destination x.calendarId item.1 item.2)) :
    (s'.mappings.map f).Nodup := by
  obtain ⟨new, hmappings, hrows⟩ := h.mappings
  have hnew : (new.map f).Perm (log.pushed.map fun item =>
      g (pushedInsert x.destination x.calendarId item.1 item.2)) := by
    rw [hrows.map hfg]
    refine (h.logged.inserts.map g).trans (List.Perm.of_eq ?_)
    rw [List.map_map]
    rfl
  rw [hmappings, List.map_append, List.map_map, List.nodup_append]
  refine ⟨List.Nodup.map_on hkept ?_, hnew.nodup_iff.2 hpushed, ?_⟩
  · exact (List.Nodup.of_map _ hs.ids).sublist List.filter_sublist
  · intro y hy z hz heq
    obtain ⟨m, hm, rfl⟩ := List.mem_map.1 hy
    obtain ⟨item, hitem, rfl⟩ := List.mem_map.1 (hnew.mem_iff.1 hz)
    exact hapart m hm item hitem heq

theorem kept_apart (hx : x.Regular) (hs : x.Sound s.mappings) (h : Outcome x s log run s')
    {m : EventMapping} (hm : m ∈ s.mappings) (hk : m.id ∉ log.deleted s)
    {item : MaterializedSyncableEvent × String} (hitem : item ∈ log.pushed) :
    m.syncEventId ≠ item.1.id ∧ m.destinationEventUid ≠ x.destination.uid item.1.id := by
  have hne : m.syncEventId ≠ item.1.id := by
    intro hid
    obtain ⟨item', hitem', hr⟩ := (h.logged.pushed hs hitem).2 m hm hid
    exact hk ((h.logged.mem_deleted hx hs hm).2 (Or.inr ⟨item', hitem', hr⟩))
  exact ⟨hne, fun hu => hne (hs.own m hm item.1 (h.logged.pushed hs hitem).1 hu)⟩

theorem events (hx : x.Regular) (hs : x.Sound s.mappings) (h : Outcome x s log run s') :
    (s'.mappings.map (·.syncEventId)).Nodup := by
  have hn := List.nodup_append.1 (h.logged.nodup_subjects hx hs)
  refine h.nodup_mappings hs (g := (·.syncEventId)) (fun _ _ => rfl) ?_
    (List.nodup_append.1 hn.1).2.1 ?_
  · intro m₁ hm₁ m₂ hm₂ heq
    have hm₁ := (h.logged.mem_kept.1 hm₁).1
    have hm₂ := (h.logged.mem_kept.1 hm₂).1
    exact h.keeps_events_inj hx hs hm₁ hm₂ (h.logged.keeps_writeAll hx hs hm₁)
      (h.logged.keeps_writeAll hx hs hm₂) heq
  · intro m hm item hitem heq
    obtain ⟨hm, hk⟩ := h.logged.mem_kept.1 hm
    have hkeeps := h.logged.keeps_writeAll hx hs hm
    generalize m.writeAll (updatesOf x s run) = m' at hkeeps heq
    cases hkeeps with
    | same _ _ => exact (h.kept_apart hx hs hm hk hitem).1 heq
    | edited item' hitem' hr =>
      exact (List.nodup_append.1 hn.1).2.2 _ (List.mem_map_of_mem hitem') _
        (List.mem_map_of_mem hitem) heq
    | updated u e c hu hup =>
      exact hn.2.2 _ (List.mem_append_right _ (List.mem_map_of_mem hitem)) _
        (List.mem_map_of_mem hu) heq.symm

theorem uids (hx : x.Regular) (hs : x.Sound s.mappings) (h : Outcome x s log run s') :
    (s'.mappings.map (·.destinationEventUid)).Nodup := by
  have hn := (List.nodup_append.1
    (List.nodup_append.1 (h.logged.nodup_subjects hx hs)).1).2.1
  refine h.nodup_mappings hs (g := (·.destinationEventUid)) (fun _ _ => rfl) ?_ ?_ ?_
  · intro m₁ hm₁ m₂ hm₂ heq
    have hm₁ := (h.logged.mem_kept.1 hm₁).1
    have hm₂ := (h.logged.mem_kept.1 hm₂).1
    rw [(h.logged.keeps_writeAll hx hs hm₁).destinationEventUid,
      (h.logged.keeps_writeAll hx hs hm₂).destinationEventUid] at heq
    exact List.inj_on_of_nodup_map hs.uids hm₁ hm₂ heq
  · refine List.pairwise_map.2 ((List.pairwise_map.1 hn).imp_of_mem ?_)
    intro item item' hitem hitem' hne heq
    exact hne (hx.uids _ (h.logged.pushed hs hitem).1 _ (h.logged.pushed hs hitem').1 heq)
  · intro m hm item hitem heq
    obtain ⟨hm, hk⟩ := h.logged.mem_kept.1 hm
    rw [(h.logged.keeps_writeAll hx hs hm).destinationEventUid] at heq
    exact (h.kept_apart hx hs hm hk hitem).2 heq

/-- **Runs keep replicas sound.** -/
theorem sound (hx : x.Regular) (hs : x.Sound s.mappings) (h : Outcome x s log run s') :
    x.Sound s'.mappings where
  ids := h.ids
  ids_ne := h.ids_ne
  events := h.events hx hs
  uids := h.uids hx hs
  nulFree m' hm' := by
    rcases h.rows m' hm' with ⟨m, hm, -, hkeeps⟩ | ⟨item, hitem, id, rfl⟩
    · rw [hkeeps.destinationEventUid]
      exact hs.nulFree m hm
    · obtain ⟨c, hc, hu, -, -⟩ := h.exists_copy (mem_stored_of_pushed hitem)
      have hn := hx.faithful.nulFree _ c hc
      rw [hu] at hn
      exact hn
  named m' hm' := by
    rcases h.rows m' hm' with ⟨m, hm, -, hkeeps⟩ | ⟨item, hitem, id, rfl⟩
    · cases hkeeps with
      | same _ _ => exact hs.named _ hm
      | edited item hitem hr =>
        obtain ⟨c, hc, hu, hd, -⟩ := h.exists_copy (mem_stored_of_edited hitem)
        have hname := hx.faithful.named _ c hc
        rw [hu, hd] at hname
        exact hname.trans hr.uid
      | updated u e c hu hup =>
        obtain ⟨hc, hcu⟩ := matched hx hs hm hup.copy
        have hname := hx.faithful.named _ c hc
        rw [hup.update]
        exact hname.trans hcu
    · obtain ⟨c, hc, hu, hd, -⟩ := h.exists_copy (mem_stored_of_pushed hitem)
      have hname := hx.faithful.named _ c hc
      rw [hu, hd] at hname
      exact hname
  own m' hm' e he hu := by
    rcases h.rows m' hm' with ⟨m, hm, -, hkeeps⟩ | ⟨item, hitem, id, rfl⟩
    · rw [hkeeps.destinationEventUid] at hu
      rcases hkeeps.cases with rfl | ⟨e', ht, hid, -⟩
      · exact hs.own _ hm e he hu
      · by_contra hne
        exact uid_ne_of_takes hs ht (fun h => hne (hid.trans h)) he hu
    · exact hx.uids _ (h.logged.pushed hs hitem).1 _ he hu

end Outcome

end Outcome

end Keeper
