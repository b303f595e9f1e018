import Keeper.Engine.Destination
import Keeper.Engine.Flush
import Keeper.Sync.ConflictFree
import Mathlib.Algebra.Order.Group.Multiset

/-!
# Reconciling with a destination that does what it is told

`reconcile` is one run: plan, execute without interruption, and apply the accumulated changes and
the mapping updates to the mapping table.

* `Log`: what an execution has done, one entry an operation.
* `Logged`: what a log says of the listing and of the changes.
* `exists_log`: an execution of an orderly plan has a log of all its operations.
-/

namespace Keeper

open JsArray Executor

/-! ## One run -/

/-- The mapping table and the world of the provider. -/
structure Replica (W : Type) where
  mappings : List EventMapping
  world : W

/-- What stays the same from run to run. -/
structure Setting (W : Type) where
  host : Host
  destination : Destination host W
  db : Database
  calendarId : String
  localEvents : List MaterializedSyncableEvent
  scope : ReconciliationScope

namespace Setting

variable {W : Type} (x : Setting W)

/-- The inputs of the plan at a replica. -/
def reconciliation (s : Replica W) : Reconciliation :=
  ⟨x.host, x.localEvents, s.mappings, x.destination.list s.world, x.scope⟩

def plan (s : Replica W) : ComputeSyncOperationsResult :=
  computeSyncOperations x.host x.localEvents s.mappings (x.destination.list s.world) x.scope

def execute (s : Replica W) : Except Failure PUnit × Run W :=
  executeRemoteOperations x.host (x.plan s).operations s.mappings x.calendarId
    x.destination.provider none none ⟨s.world, []⟩

/-- One reconciliation run; it fails when a call or a flush does. -/
def reconcile (s : Replica W) : Option (Replica W) := do
  let run := x.execute s
  let _ ← run.1.toOption
  let rows ← flushRows x.db run.2.state.changes s.mappings
  let rows ← flushRows x.db { updates := some (x.plan s).mappingUpdates } rows
  some ⟨rows, run.2.io.world⟩

def reconcileTimes (s : Replica W) : ℕ → Option (Replica W)
  | 0 => some s
  | n + 1 => (reconcileTimes s n).bind x.reconcile

end Setting

/-! ## The log of an execution -/

/-- What an execution has done: the removals executed and skipped, the replacements made in place
and by deleting and adding, and the additions, the last three with the delete identifier of the
copy they stored. -/
structure Log where
  removed : List RemoveOperation := []
  skipped : List RemoveOperation := []
  edited : List (ReplaceOperation × String) := []
  replaced : List (ReplaceOperation × String) := []
  added : List (AddOperation × String) := []

section Log

variable {host : Host} {W : Type} (d : Destination host W)

/-- The uids of the copies that an operation writes, and of the copy that it replaces. -/
def touched : SyncOperation → List String
  | .add op => [d.uid op.event.id]
  | .remove _ => []
  | .replace op => [op.uid, d.uid op.event.id]

/-- A plan whose operations keep out of each other's way. -/
structure Orderly (operations : List SyncOperation) : Prop where
  disjoint : operations.Pairwise fun op op' => ∀ u ∈ touched d op, u ∉ touched d op'
  removes : ∀ op, .remove op ∈ operations → d.uidOf op.deleteId = op.uid
  replaces : ∀ op, .replace op ∈ operations →
    d.uidOf op.deleteId = op.uid ∧ op.staleMappingId ≠ ""
  adds : ∀ op, .add op ∈ operations → op.staleMappingId = none

def editedCopy (item : ReplaceOperation × String) : Stored :=
  { event := item.1.event, uid := item.1.uid, deleteId := item.2 }

def pushedCopy (e : MaterializedSyncableEvent) (deleteId : String) : Stored :=
  { event := e, uid := d.uid e.id, deleteId }

def pushedInsert (calendarId : String) (e : MaterializedSyncableEvent) (deleteId : String) :
    PendingInsert where
  eventStateId := e.eventStateId.getD e.id
  sourceCalendarId := e.calendarId
  syncEventId := e.id
  calendarId
  destinationEventUid := d.uid e.id
  deleteIdentifier := deleteId
  syncEventHash := some (createSyncEventContentHash host e)
  startTime := e.startTime
  endTime := e.endTime

def editedUpdate (host : Host) (item : ReplaceOperation × String) : PendingUpdate where
  deleteIdentifier := item.2
  endTime := item.1.event.endTime
  id := item.1.staleMappingId
  startTime := item.1.event.startTime
  syncEventHash := createSyncEventContentHash host item.1.event
  syncEventId := item.1.event.id

namespace Log

variable (log : Log)

def operations : List SyncOperation :=
  log.removed.map .remove ++ log.skipped.map .remove ++
    log.edited.map (fun item => .replace item.1) ++
    log.replaced.map (fun item => .replace item.1) ++ log.added.map fun item => .add item.1

/-- The events pushed, with the delete identifiers of their copies. -/
def pushed : List (MaterializedSyncableEvent × String) :=
  log.replaced.map (fun item => (item.1.event, item.2)) ++
    log.added.map fun item => (item.1.event, item.2)

def dropped : List String :=
  log.removed.map (·.deleteId) ++ (log.edited ++ log.replaced).map (·.1.deleteId)

def stored : List Stored :=
  log.edited.map editedCopy ++ log.pushed.map fun item => pushedCopy d item.1 item.2

def deletes (byIdentity : JsMap String EventMapping) : List String :=
  log.removed.filterMap (fun op => truthy (removeTarget byIdentity op)) ++
    log.replaced.map (·.1.staleMappingId)

def append (new : Log) : Log where
  removed := log.removed ++ new.removed
  skipped := log.skipped ++ new.skipped
  edited := log.edited ++ new.edited
  replaced := log.replaced ++ new.replaced
  added := log.added ++ new.added

theorem operations_append (new : Log) :
    (log.append new).operations.Perm (log.operations ++ new.operations) := by
  rw [← Multiset.coe_eq_coe]
  simp only [operations, append, List.map_append, ← Multiset.coe_add]
  ac_rfl

theorem pushed_append (new : Log) : (log.append new).pushed.Perm (log.pushed ++ new.pushed) := by
  rw [← Multiset.coe_eq_coe]
  simp only [pushed, append, List.map_append, ← Multiset.coe_add]
  ac_rfl

theorem dropped_append (new : Log) :
    (log.append new).dropped.Perm (log.dropped ++ new.dropped) := by
  rw [← Multiset.coe_eq_coe]
  simp only [dropped, append, List.map_append, ← Multiset.coe_add]
  ac_rfl

theorem stored_append (new : Log) :
    ((log.append new).stored d).Perm (log.stored d ++ new.stored d) := by
  have hp := Multiset.coe_eq_coe.2 ((log.pushed_append new).map fun item => pushedCopy d item.1 item.2)
  rw [← Multiset.coe_eq_coe]
  simp only [stored, append, List.map_append, ← Multiset.coe_add] at hp ⊢
  rw [hp]
  ac_rfl

theorem deletes_append (new : Log) (byIdentity : JsMap String EventMapping) :
    ((log.append new).deletes byIdentity).Perm
      (log.deletes byIdentity ++ new.deletes byIdentity) := by
  rw [← Multiset.coe_eq_coe]
  simp only [deletes, append, List.map_append, List.filterMap_append, ← Multiset.coe_add]
  ac_rfl

end Log

/-- What a log says of a run: where it stands among the operations, what the listing shows, and
what the changes and the set of protected uids hold. -/
structure Logged (x : Executor W) (before : List RemoteEvent) (operations : List SyncOperation)
    (log : Log) (rest : List SyncOperation) (run : Run W) : Prop where
  operations : operations.Perm (log.operations ++ rest)
  writes : Writes host before (d.list run.io.world) log.dropped (log.stored d)
  inserts : run.state.changes.inserts.Perm
    (log.pushed.map fun item => pushedInsert d x.calendarId item.1 item.2)
  deletes : run.state.changes.deletes.Perm (log.deletes x.mappingsByRemoteIdentity)
  updates : run.state.changes.updateList.Perm (log.edited.map (editedUpdate host))
  shields : ∀ u, u ∈ run.state.protectedRemoteUids ↔ ∃ s ∈ log.stored d, s.uid = u
  skipped : ∀ op ∈ log.skipped, ∃ s ∈ log.stored d, s.uid = op.uid
  running : run.stopped = false

/-! ### Facts about a log -/

section Facts

variable {d} {before : List RemoteEvent} {operations rest : List SyncOperation} {log : Log}
  {x : Executor W} {run : Run W}

/-- Each element with a text that its partner in another list gives. -/
def paired {α β : Type*} (f : α → β → String) (l : List α) (r : List β) : List (α × String) :=
  List.zipWith (fun a b => (a, f a b)) l r

theorem map_fst_paired {α β : Type*} {P : α → β → Prop} {f : α → β → String} {l : List α}
    {r : List β} (hp : List.Forall₂ P l r) : (paired f l r).map Prod.fst = l := by
  induction hp with
  | nil => rfl
  | cons _ _ ih => rw [paired, List.zipWith_cons_cons, List.map_cons, ← paired, ih]

theorem map_paired {α β γ : Type*} {f : α → β → String} (g : α × String → γ) (l : List α)
    (r : List β) : (paired f l r).map g = List.zipWith (fun a b => g (a, f a b)) l r := by
  rw [paired, List.map_zipWith]

variable {op : SyncOperation} {s : Stored}

theorem Log.mem_operations :
    op ∈ log.operations ↔ (∃ o ∈ log.removed, .remove o = op) ∨ (∃ o ∈ log.skipped, .remove o = op) ∨
      (∃ item ∈ log.edited, .replace item.1 = op) ∨
      (∃ item ∈ log.replaced, .replace item.1 = op) ∨ ∃ item ∈ log.added, .add item.1 = op := by
  simp only [operations, List.mem_append, List.mem_map, or_assoc]

theorem Log.mem_stored : s ∈ log.stored d ↔ (∃ item ∈ log.edited, editedCopy item = s) ∨
      (∃ item ∈ log.replaced, pushedCopy d item.1.event item.2 = s) ∨
      ∃ item ∈ log.added, pushedCopy d item.1.event item.2 = s := by
  simp only [stored, pushed, List.map_append, List.map_map, List.mem_append, List.mem_map,
    Function.comp_apply]

theorem Log.exists_touched (h : s ∈ log.stored d) : ∃ op ∈ log.operations, s.uid ∈ touched d op := by
  rcases Log.mem_stored.1 h with ⟨item, hitem, rfl⟩ | ⟨item, hitem, rfl⟩ | ⟨item, hitem, rfl⟩
  · exact ⟨_, mem_operations.2 (Or.inr (Or.inr (Or.inl ⟨item, hitem, rfl⟩))), List.mem_cons_self⟩
  · exact ⟨_, mem_operations.2 (Or.inr (Or.inr (Or.inr (Or.inl ⟨item, hitem, rfl⟩)))),
      List.mem_cons_of_mem _ List.mem_cons_self⟩
  · exact ⟨_, mem_operations.2 (Or.inr (Or.inr (Or.inr (Or.inr ⟨item, hitem, rfl⟩)))),
      List.mem_cons_self⟩

theorem Logged.mem_operations (h : Logged d x before operations log rest run) :
    op ∈ operations ↔ op ∈ log.operations ∨ op ∈ rest := by
  rw [h.operations.mem_iff, List.mem_append]

theorem Logged.apart (ho : Orderly d operations) (h : Logged d x before operations log rest run) {op' : SyncOperation}
    (hop : op ∈ log.operations) (hop' : op' ∈ rest) {u : String} (hu : u ∈ touched d op) : u ∉ touched d op' := by
  have hd := ho.disjoint.perm h.operations fun h u hu hu' => h u hu' hu
  exact (List.pairwise_append.1 hd).2.2 op hop op' hop' u hu

theorem Logged.stored_apart (ho : Orderly d operations) (h : Logged d x before operations log rest run)
    (hs : s ∈ log.stored d) (hop : op ∈ rest) : s.uid ∉ touched d op := by
  obtain ⟨op', hop', hu⟩ := Log.exists_touched hs
  exact h.apart ho hop' hop hu

theorem Logged.uidOf_stored (hd : d.Faithful) (h : Logged d x before operations log rest run) (hs : s ∈ log.stored d) :
    d.uidOf s.deleteId = s.uid := by
  obtain ⟨c, hc, hcopy, -⟩ := h.writes.present s hs
  rw [← hcopy.2, ← hcopy.1]
  exact hd.named _ c hc

end Facts

/-! ### The phases -/

section Phases

variable {d} {before : List RemoteEvent} {operations rest : List SyncOperation} {log : Log}
  {x : Executor W} {s s' : Run W}

structure Uninterrupted (d : Destination host W) (x : Executor W) : Prop where
  host : x.host = host
  provider : x.provider = d.provider
  isCurrent : x.isCurrent = none
  checkpoint : x.checkpoint = none

/-- After a phase of removals, additions or replacements the run has a log of what is left. -/
abbrev LoggedPhase (d : Destination host W) (x : Executor W) (before : List RemoteEvent)
    (operations rest : List SyncOperation) (phase : RunEffect W PUnit) (s : Run W) : Prop :=
  Effect.wp phase (fun _ s' => ∃ log, Logged d x before operations log rest s')
    (fun _ _ => False) s

theorem wp_completePhase_plain (hx : x.isCurrent = none) {count : ℕ} {Q : PUnit → Run W → Prop}
    {R : Failure → Run W → Prop} :
    Effect.wp (x.completePhase count) Q R s ↔
      Q ⟨⟩ { s with state := { s.state with processed := s.state.processed + count } } := by
  rw [completePhase, Effect.wp_bind, onState, Effect.wp_modify, checkSuperseded, hx]
  rfl

theorem wp_recordRun_plain (hx : x.checkpoint = none) {runResult : RunResult}
    {Q : Bool → Run W → Prop} {R : Failure → Run W → Prop} :
    Effect.wp (x.recordRun runResult) Q R s ↔
      Q true { s with state := mergeRunResult runResult true s.state } := by
  rw [recordRun, Effect.wp_bind, onState, Effect.wp_modify, checkpointRun, hx]
  rfl

/-- **What a phase adds to a log**: its operations are done, and their writes leave the copies
stored so far alone. -/
theorem Logged.after {done : List SyncOperation} {new : Log}
    (h : Logged d x before operations log (done ++ rest) s) (hdone : done.Perm new.operations)
    (hw : Writes host (d.list s.io.world) (d.list s'.io.world) new.dropped (new.stored d))
    (hdropped : ∀ c ∈ log.stored d, c.deleteId ∉ new.dropped)
    (hstored : ∀ c ∈ log.stored d, ∀ c' ∈ new.stored d, c'.uid ≠ c.uid)
    (hskipped : ∀ op ∈ new.skipped, ∃ c ∈ log.stored d, c.uid = op.uid)
    (hinserts : s'.state.changes.inserts = s.state.changes.inserts ++
      new.pushed.map fun item => pushedInsert d x.calendarId item.1 item.2)
    (hdeletes : s'.state.changes.deletes =
      s.state.changes.deletes ++ new.deletes x.mappingsByRemoteIdentity)
    (hupdates : s'.state.changes.updateList =
      s.state.changes.updateList ++ new.edited.map (editedUpdate host))
    (hprotected : s'.state.protectedRemoteUids =
      s.state.protectedRemoteUids ++ (new.stored d).map (·.uid))
    (hrunning : s'.stopped = s.stopped) :
    Logged d x before operations (log.append new) rest s' where
  operations := by
    refine h.operations.trans ?_
    rw [← List.append_assoc]
    exact ((hdone.append_left _).trans (log.operations_append new).symm).append_right _
  writes := (h.writes.trans hw hdropped hstored).perm (log.dropped_append new).symm
    (log.stored_append d new).symm
  inserts := by
    rw [hinserts]
    refine (h.inserts.append_right _).trans ?_
    rw [← List.map_append]
    exact (log.pushed_append new).symm.map _
  deletes := by
    rw [hdeletes]
    exact (h.deletes.append_right _).trans (log.deletes_append new _).symm
  updates := by
    rw [hupdates]
    refine (h.updates.append_right _).trans ?_
    rw [← List.map_append]
    exact List.Perm.refl _
  shields u := by
    have hmem : ∀ c, c ∈ (log.append new).stored d ↔ c ∈ log.stored d ∨ c ∈ new.stored d :=
      fun c => by rw [(log.stored_append d new).mem_iff, List.mem_append]
    simp only [hprotected, List.mem_append, h.shields, List.mem_map, hmem, or_and_right, exists_or]
  skipped op hop := by
    have hin : op ∈ log.skipped ∨ op ∈ new.skipped := List.mem_append.1 hop
    obtain ⟨c, hc, hu⟩ : ∃ c ∈ log.stored d, c.uid = op.uid := hin.elim (h.skipped op) (hskipped op)
    exact ⟨c, (log.stored_append d new).mem_iff.2 (List.mem_append_left _ hc), hu⟩
  running := by
    rw [hrunning]
    exact h.running

/-- What replacements and additions write is apart from what was stored before. -/
theorem Logged.apart_of_writes (ho : Orderly d operations) (hd : d.Faithful)
    {done : List SyncOperation} {new : Log}
    (h : Logged d x before operations log (done ++ rest) s) (hdone : done.Perm new.operations)
    (hnone : new.removed = []) {c : Stored} (hc : c ∈ log.stored d) :
    c.deleteId ∉ new.dropped ∧ ∀ c' ∈ new.stored d, c'.uid ≠ c.uid := by
  have hrest : ∀ op ∈ new.operations, op ∈ done ++ rest := fun op hop =>
    List.mem_append_left _ (hdone.mem_iff.2 hop)
  constructor
  · intro hdrop
    simp only [Log.dropped, hnone, List.map_nil, List.nil_append, List.mem_map] at hdrop
    obtain ⟨item, hitem, hid⟩ := hdrop
    have hop : SyncOperation.replace item.1 ∈ new.operations := by
      rcases List.mem_append.1 hitem with hitem | hitem
      · exact Log.mem_operations.2 (Or.inr (Or.inr (Or.inl ⟨item, hitem, rfl⟩)))
      · exact Log.mem_operations.2 (Or.inr (Or.inr (Or.inr (Or.inl ⟨item, hitem, rfl⟩))))
    have huid := (ho.replaces item.1 (h.mem_operations.2 (Or.inr (hrest _ hop)))).1
    rw [hid, h.uidOf_stored hd hc] at huid
    exact h.stored_apart ho hc (hrest _ hop) (huid ▸ List.mem_cons_self)
  · intro c' hc' hu
    obtain ⟨op, hop, hu'⟩ := Log.exists_touched hc'
    exact h.stored_apart ho hc (hrest _ hop) (hu ▸ hu')

def skippable (removes : List RemoveOperation) (run : Run W) : List RemoveOperation :=
  removes.filter fun op => run.state.protectedRemoteUids.contains op.uid

def removalLog (removes : List RemoveOperation) (run : Run W) : Log where
  removed := actionable removes run
  skipped := skippable removes run

theorem perm_removalLog (removes : List RemoveOperation) (run : Run W) :
    (removes.map SyncOperation.remove).Perm (removalLog removes run).operations := by
  have hsplit :=
    List.filter_append_perm (fun op => !run.state.protectedRemoteUids.contains op.uid) removes
  simp only [Bool.not_not] at hsplit
  simpa [Log.operations, removalLog, actionable, skippable] using
    hsplit.symm.map SyncOperation.remove

theorem Logged.afterRemoves (ho : Orderly d operations) (hd : d.Faithful)
    {removes : List RemoveOperation}
    (h : Logged d x before operations log (removes.map .remove ++ rest) s)
    (hw : Writes host (d.list s.io.world) (d.list s'.io.world)
      ((actionable removes s).map (·.deleteId)) [])
    (hinserts : s'.state.changes.inserts = s.state.changes.inserts)
    (hdeletes : s'.state.changes.deletes = s.state.changes.deletes ++
      (actionable removes s).filterMap fun op => truthy (removeTarget x.mappingsByRemoteIdentity op))
    (hupdates : s'.state.changes.updateList = s.state.changes.updateList)
    (hprotected : s'.state.protectedRemoteUids = s.state.protectedRemoteUids)
    (hrunning : s'.stopped = s.stopped) :
    Logged d x before operations (log.append (removalLog removes s)) rest s' := by
  refine h.after (perm_removalLog removes s) (by simpa [Log.dropped, Log.stored, Log.pushed, removalLog] using hw)
    (fun c hc hdrop => ?_) (by simp [Log.stored, Log.pushed, removalLog]) (fun op hop => ?_)
    (by simpa [Log.pushed, removalLog] using hinserts)
    (by simpa [Log.deletes, removalLog] using hdeletes)
    (by simpa [removalLog] using hupdates)
    (by simpa [Log.stored, Log.pushed, removalLog] using hprotected) hrunning
  · simp only [Log.dropped, removalLog, List.append_nil, List.map_nil] at hdrop
    obtain ⟨op, hop, hid⟩ := List.mem_map.1 hdrop
    obtain ⟨hop, hfree⟩ := List.mem_filter.1 hop
    have hmem : SyncOperation.remove op ∈ operations :=
      h.mem_operations.2 (Or.inr (List.mem_append_left _ (List.mem_map_of_mem hop)))
    have huid := ho.removes op hmem
    rw [hid, h.uidOf_stored hd hc] at huid
    simp [(h.shields op.uid).2 ⟨c, hc, huid⟩] at hfree
  · exact (h.shields op.uid).1 (List.contains_iff_mem.1 (List.mem_filter.1 hop).2)

theorem wp_executeRemoves_logged (hx : Uninterrupted d x) (ho : Orderly d operations)
    (hd : d.Faithful) {removes : List RemoveOperation} (hne : removes ≠ [])
    (h : Logged d x before operations log (removes.map .remove ++ rest) s) :
    LoggedPhase d x before operations rest (x.executeRemoves removes) s := by
  unfold LoggedPhase executeRemoves
  rw [if_neg (by simpa using hne), Effect.wp_bind, Effect.wp_gets]
  split
  · rename_i hnone
    have hnil := List.isEmpty_iff.1 hnone
    rw [wp_completePhase_plain hx.isCurrent]
    refine ⟨_, h.afterRemoves ho hd ?_ rfl (by simp [hnil]) rfl rfl rfl⟩
    rw [hnil]
    exact Writes.refl host _
  · simp only [Effect.wp_bind, executeRemoveRun, Executor.delete]
    obtain ⟨results, w, hcall, hall, hw⟩ :=
      d.delete ((actionable removes s).map (·.deleteId)) s.io.world
    rw [← hx.provider] at hcall
    refine wp_onIo_call (fun results' w' hcall' => ?_) fun e w' hcall' => ?_ <;>
      rw [hcall] at hcall'
    · obtain ⟨hr, rfl⟩ := Prod.mk.inj hcall'
      obtain rfl := Except.ok.inj hr
      rw [Effect.wp_pure, wp_recordRun_plain hx.checkpoint, if_pos rfl,
        wp_completePhase_plain hx.isCurrent]
      refine ⟨_, h.afterRemoves ho hd hw ?_ ?_ ?_ ?_ rfl⟩
      · simp [mergeRunResult, Run.after]
      · have hdel := deleteIds_processDeleteResults (actionable removes s) results
          x.mappingsByRemoteIdentity
        rw [filterMap_zipIndexed_left (List.forall₂_map_left_iff.1 hall)
          (f := fun op => truthy (removeTarget x.mappingsByRemoteIdentity op))
          fun op r hr => by simp [deletedMappingOf, Option.filter, hr]] at hdel
        simp [mergeRunResult, Run.after, hdel]
      · simp [mergeRunResult, Run.after]
        rfl
      · simp [mergeRunResult, Run.after]
    · cases hcall'

/-- The events of operations that keep out of each other's way have different uids. -/
theorem nodup_uids {α : Type*} {f : α → SyncOperation} {g : α → String} {l : List α}
    (ho : Orderly d operations) (h : Logged d x before operations log (l.map f ++ rest) s)
    (hg : ∀ a, g a ∈ touched d (f a)) : (l.map g).Nodup := by
  have hd := ho.disjoint.perm h.operations fun h u hu hu' => h u hu' hu
  have hl := List.pairwise_map.1 (List.pairwise_append.1 (List.pairwise_append.1 hd).2.1).1
  refine List.pairwise_map.2 (hl.imp fun hab heq => ?_)
  exact hab _ (hg _) (heq ▸ hg _)

/-- The delete identifier of the copy that a push made. -/
def pushedId (d : Destination host W) (e : MaterializedSyncableEvent) (r : PushResult) : String :=
  r.deleteId.getD (d.uid e.id)

theorem insertOf_pushed (hd : d.Faithful) {calendarId : String} {op : AddOperation}
    {r : PushResult} (hr : r.success = true ∧ r.remoteId = some (d.uid op.event.id)) :
    insertOf host calendarId (op, some r) =
      some (pushedInsert d calendarId op.event (pushedId d op.event r)) := by
  have hid : truthy r.remoteId = some (d.uid op.event.id) :=
    truthy_eq_some_iff.2 ⟨hr.2, hd.uid_ne _⟩
  simp [insertOf, Option.filter, hr.1, hid, pendingInsert, pushedInsert, pushedId]

theorem wp_executeAdds_logged (hx : Uninterrupted d x) (ho : Orderly d operations)
    (hd : d.Faithful) {adds : List AddOperation} (hne : adds ≠ [])
    (h : Logged d x before operations log (adds.map .add ++ rest) s) :
    LoggedPhase d x before operations rest (x.executeAdds adds) s := by
  unfold LoggedPhase executeAdds
  rw [if_neg (by simpa using hne)]
  simp only [Effect.wp_bind, executeAddRun, push]
  have hnodup : ((adds.map (·.event)).map fun e => d.uid e.id).Nodup := by
    rw [List.map_map]
    exact nodup_uids ho h fun op => List.mem_cons_self
  obtain ⟨results, w, hcall, hall, hw⟩ := d.push (adds.map (·.event)) s.io.world hnodup
  rw [← hx.provider] at hcall
  rw [List.forall₂_map_left_iff] at hall
  rw [List.zipWith_map_left] at hw
  refine wp_onIo_call (fun results' w' hcall' => ?_) fun e w' hcall' => ?_ <;>
    rw [hcall] at hcall'
  · obtain ⟨hr, rfl⟩ := Prod.mk.inj hcall'
    obtain rfl := Except.ok.inj hr
    rw [Effect.wp_pure, wp_recordRun_plain hx.checkpoint, if_pos rfl,
      wp_completePhase_plain hx.isCurrent]
    let new : Log := { added := paired (fun op r => pushedId d op.event r) adds results }
    have hfst : new.added.map Prod.fst = adds := map_fst_paired hall
    have hdone : (adds.map SyncOperation.add).Perm new.operations := by
      refine List.Perm.of_eq ?_
      conv_lhs => rw [← hfst, List.map_map]
      simp [Log.operations, new, Function.comp_def]
    have hins := inserts_processAddResults x.host adds results x.calendarId
    rw [hx.host, filterMap_zipIndexed hall fun op r hr => insertOf_pushed hd hr] at hins
    have hdel := deletes_processAddResults x.host adds results x.calendarId
    rw [filterMap_zipIndexed_left hall (f := fun op => truthy op.staleMappingId)
      fun op r hr => by simp [staleMappingOf, Option.filter, hr.1]] at hdel
    have hdel' : (adds.filterMap fun op => truthy op.staleMappingId) = [] := by
      refine List.filterMap_eq_nil_iff.2 fun op hop => ?_
      have hmem : SyncOperation.add op ∈ operations :=
        h.mem_operations.2 (Or.inr (List.mem_append_left _ (List.mem_map_of_mem hop)))
      rw [ho.adds op hmem]
      rfl
    refine ⟨_, h.after hdone ?_ ?_ ?_ (by simp [new]) ?_ ?_ ?_ ?_ rfl⟩
    · simpa [Log.dropped, Log.stored, Log.pushed, new, map_paired, pushedCopy, pushedId,
        Run.after] using hw
    · exact fun c hc => (h.apart_of_writes ho hd hdone rfl hc).1
    · exact fun c hc => (h.apart_of_writes ho hd hdone rfl hc).2
    · simp [mergeRunResult, Run.after, hins, hx.host, Log.pushed, new, map_paired]
    · simp [mergeRunResult, Run.after, hdel, hdel', Log.deletes, new]
    · simp [mergeRunResult, Run.after, new]
      rfl
    · simp [mergeRunResult, Run.after, hins, hx.host, Log.stored, Log.pushed, new, map_paired,
        List.map_zipWith, pushedInsert, pushedCopy]
  · cases hcall'

/-- The delete identifier of the copy that an update made. -/
def editedId (op : ReplaceOperation) (r : PushResult) : String :=
  (r.deleteId.or r.remoteId).getD op.deleteId

variable {replacements : List ReplaceOperation}

theorem wp_replaceInPlace_logged (hx : Uninterrupted d x) (ho : Orderly d operations) (hd : d.Faithful)
    {updateEvents : List EventUpdate → Effect Failure W (List PushResult)}
    (hupdate : x.provider.updateEvents = some updateEvents)
    (h : Logged d x before operations log (replacements.map .replace ++ rest) s) :
    Effect.wp (x.replaceInPlace replacements updateEvents)
      (fun goesOn s' => goesOn = true ∧ ∃ log, Logged d x before operations log rest s')
      (fun _ _ => False) s := by
  have hreplace : ∀ op ∈ replacements, d.uidOf op.deleteId = op.uid := fun op hop =>
    (ho.replaces op (h.mem_operations.2
      (Or.inr (List.mem_append_left _ (List.mem_map_of_mem hop))))).1
  have huids : replacements.map (fun op => d.uidOf op.deleteId) = replacements.map (·.uid) :=
    List.map_congr_left hreplace
  have hnodup : ((replacements.map fun op => (⟨op.deleteId, op.event⟩ : EventUpdate)).map
      fun u => d.uidOf u.deleteId).Nodup := by
    rw [List.map_map]
    change (replacements.map fun op => d.uidOf op.deleteId).Nodup
    rw [huids]
    exact nodup_uids ho h fun op => List.mem_cons_self
  rw [hx.provider] at hupdate
  obtain ⟨results, w, hcall, hall, hw⟩ := d.update _ hupdate _ s.io.world hnodup
  rw [List.forall₂_map_left_iff] at hall
  rw [List.zipWith_map_left, List.map_map] at hw
  simp only [replaceInPlace, executeUpdateRun, update, Effect.wp_bind]
  refine wp_onIo_call (fun results' w' hcall' => ?_) fun e w' hcall' => ?_ <;>
    rw [hcall] at hcall'
  · obtain ⟨hr, rfl⟩ := Prod.mk.inj hcall'
    obtain rfl := Except.ok.inj hr
    let new : Log := { edited := paired editedId replacements results }
    have hfst : new.edited.map Prod.fst = replacements := map_fst_paired hall
    have hdone : (replacements.map SyncOperation.replace).Perm new.operations := by
      refine List.Perm.of_eq ?_
      conv_lhs => rw [← hfst, List.map_map]
      simp [Log.operations, new, Function.comp_def]
    have hdropped : new.dropped = replacements.map (·.deleteId) := by
      conv_rhs => rw [← hfst, List.map_map]
      simp [Log.dropped, new, Function.comp_def]
    have hstored : new.stored d = new.edited.map fun item =>
        ({ event := item.1.event, uid := d.uidOf item.1.deleteId, deleteId := item.2 } : Stored) := by
      have hempty : new.stored d = new.edited.map editedCopy := by
        simp [Log.stored, Log.pushed, new]
      refine hempty.trans (List.map_congr_left fun item hitem => ?_)
      rw [hreplace item.1 (hfst ▸ List.mem_map_of_mem hitem), editedCopy]
    have hupd := updates_processUpdateResults x.host replacements results
    rw [hx.host, filterMap_zipIndexed (f := fun op r => editedUpdate host (op, editedId op r)) hall
      fun op r hr => by simp [updateOf, Option.filter, hr, pendingUpdate, editedUpdate, editedId],
      ← map_paired (editedUpdate host)] at hupd
    have hun := unresolved_processUpdateResults x.host replacements results
    rw [filterMap_zipIndexed_left hall (f := fun _ => none)
      fun op r hr => by simp [unresolvedOf, Option.filter, hr], List.filterMap_none] at hun
    simp only [Effect.wp_pure, onState, Effect.wp_modify, checkpointRun, hx.checkpoint, if_true,
      hun, List.isEmpty_nil]
    refine ⟨trivial, _, h.after hdone ?_ ?_ ?_ (by simp [new]) ?_ ?_ ?_ ?_ rfl⟩
    · rw [hdropped, hstored, map_paired]
      exact hw
    · exact fun c hc => (h.apart_of_writes ho hd hdone rfl hc).1
    · exact fun c hc => (h.apart_of_writes ho hd hdone rfl hc).2
    · simp [mergeRunResult, protectUpdated, Run.after, Log.pushed, new]
    · simp [mergeRunResult, protectUpdated, Run.after, Log.deletes, new]
    · simp [mergeRunResult, protectUpdated, Run.after, hupd, hx.host, new]
      rfl
    · have huids : replacements.map (·.uid) = (new.stored d).map (·.uid) := by
        conv_lhs => rw [← hfst, List.map_map]
        simp [Log.stored, Log.pushed, new, editedCopy, Function.comp_def]
      simp [mergeRunResult, protectUpdated, Run.after, huids]
  · cases hcall'

theorem wp_replaceViaDeleteThenAdd_logged (hx : Uninterrupted d x) (ho : Orderly d operations) (hd : d.Faithful)
    (hne : replacements ≠ []) (h : Logged d x before operations log (replacements.map .replace ++ rest) s) :
    Effect.wp (x.replaceViaDeleteThenAdd replacements)
      (fun goesOn s' => goesOn = true ∧ ∃ log, Logged d x before operations log rest s')
      (fun _ _ => False) s := by
  have hstale : ∀ op ∈ replacements, op.staleMappingId ≠ "" := fun op hop =>
    (ho.replaces op (h.mem_operations.2
      (Or.inr (List.mem_append_left _ (List.mem_map_of_mem hop))))).2
  simp only [replaceViaDeleteThenAdd, Effect.wp_bind, Executor.delete]
  obtain ⟨deleted, w₁, hcall₁, hall₁, hw₁⟩ :=
    d.delete ((replacements.map removalOf).map (·.deleteId)) s.io.world
  rw [← hx.provider] at hcall₁
  rw [List.forall₂_map_left_iff, List.forall₂_map_left_iff] at hall₁
  refine wp_onIo_call (fun results' w' hcall' => ?_) fun e w' hcall' => ?_ <;>
    rw [hcall₁] at hcall'
  · obtain ⟨hr, rfl⟩ := Prod.mk.inj hcall'
    obtain rfl := Except.ok.inj hr
    have hadds : additionsOf replacements deleted = replacements.map additionOf := by
      rw [additionsOf, filterMap_zipIndexed_left hall₁ (f := fun op => some (additionOf op))
        fun op r hr => by simp [hr], ← List.filterMap_eq_map]
      rfl
    rw [onState, Effect.wp_modify, hadds, if_neg (by simpa using hne)]
    simp only [Effect.wp_bind, executeAddRun, push]
    have hnodup : (((replacements.map additionOf).map (·.event)).map fun e => d.uid e.id).Nodup := by
      rw [List.map_map, List.map_map]
      exact nodup_uids ho h fun op => List.mem_cons_of_mem _ List.mem_cons_self
    obtain ⟨results, w₂, hcall₂, hall₂, hw₂⟩ := d.push _ w₁ hnodup
    rw [← hx.provider] at hcall₂
    rw [List.forall₂_map_left_iff] at hall₂
    refine wp_onIo_call (fun results' w' hcall' => ?_) fun e w' hcall' => ?_ <;>
      dsimp only [Run.after] at hcall' <;> rw [hcall₂] at hcall'
    · obtain ⟨hr, rfl⟩ := Prod.mk.inj hcall'
      obtain rfl := Except.ok.inj hr
      have hins := inserts_processAddResults x.host (replacements.map additionOf) results
        x.calendarId
      rw [hx.host, filterMap_zipIndexed hall₂ fun op r hr => insertOf_pushed hd hr] at hins
      have hdel := deletes_processAddResults x.host (replacements.map additionOf) results
        x.calendarId
      rw [filterMap_zipIndexed_left hall₂ (f := fun op => truthy op.staleMappingId)
        fun op r hr => by simp [staleMappingOf, Option.filter, hr.1]] at hdel
      have hdel' : (replacements.map additionOf).filterMap (fun op => truthy op.staleMappingId) =
          replacements.map (·.staleMappingId) := by
        rw [List.filterMap_map, ← List.filterMap_eq_map]
        refine List.filterMap_congr fun op hop => ?_
        exact truthy_eq_some_iff.2 ⟨rfl, hstale op hop⟩
      rw [List.forall₂_map_left_iff] at hall₂
      rw [List.zipWith_map_left, List.zipWith_map_left] at hw₂
      rw [List.zipWith_map_left] at hins
      let new : Log :=
        { replaced := paired (fun op r => pushedId d op.event r) replacements results }
      have hfst : new.replaced.map Prod.fst = replacements := map_fst_paired hall₂
      have hdone : (replacements.map SyncOperation.replace).Perm new.operations := by
        refine List.Perm.of_eq ?_
        conv_lhs => rw [← hfst, List.map_map]
        simp [Log.operations, new, Function.comp_def]
      have hdropped : new.dropped = replacements.map (·.deleteId) := by
        conv_rhs => rw [← hfst, List.map_map]
        simp [Log.dropped, new, Function.comp_def]
      have hdeletes : new.deletes x.mappingsByRemoteIdentity =
          replacements.map (·.staleMappingId) := by
        conv_rhs => rw [← hfst, List.map_map]
        rfl
      have hw : Writes host (d.list s.io.world) (d.list w₂) (replacements.map (·.deleteId))
          (new.stored d) := by
        simpa [removalOf, additionOf, Function.comp_def, Log.stored, Log.pushed, new, map_paired,
          pushedCopy, pushedId] using hw₁.trans hw₂ (by simp) (by simp)
      simp only [Effect.wp_pure]
      rw [wp_recordRun_plain hx.checkpoint]
      refine ⟨rfl, _, h.after hdone ?_ ?_ ?_ (by simp [new]) ?_ ?_ ?_ ?_ rfl⟩
      · rw [hdropped]
        exact hw
      · exact fun c hc => (h.apart_of_writes ho hd hdone rfl hc).1
      · exact fun c hc => (h.apart_of_writes ho hd hdone rfl hc).2
      · simp [mergeRunResult, Run.after, hins, hx.host, Log.pushed, new, map_paired, additionOf]
      · simp [mergeRunResult, Run.after, hdel, hdel', hdeletes]
      · simp [mergeRunResult, Run.after, new]
        rfl
      · simp [mergeRunResult, Run.after, hins, hx.host, Log.stored, Log.pushed, new, map_paired,
          List.map_zipWith, pushedInsert, pushedCopy, additionOf]
    · cases hcall'
  · cases hcall'

theorem wp_executeReplacements_logged (hx : Uninterrupted d x) (ho : Orderly d operations) (hd : d.Faithful)
    (hne : replacements ≠ []) (h : Logged d x before operations log (replacements.map .replace ++ rest) s) :
    LoggedPhase d x before operations rest (x.executeReplacements replacements) s := by
  unfold LoggedPhase executeReplacements
  rw [if_neg (by simpa using hne), Effect.wp_bind]
  have hcopies : Effect.wp (x.replaceCopies replacements)
      (fun goesOn s' => goesOn = true ∧ ∃ log, Logged d x before operations log rest s')
      (fun _ _ => False) s := by
    unfold replaceCopies
    cases hupdate : x.provider.updateEvents with
    | some updateEvents => exact wp_replaceInPlace_logged hx ho hd hupdate h
    | none => exact wp_replaceViaDeleteThenAdd_logged hx ho hd hne h
  refine Effect.wp_mono hcopies ?_ fun _ _ h => h
  rintro goesOn s' ⟨rfl, log', h'⟩
  rw [if_pos rfl, wp_completePhase_plain hx.isCurrent]
  exact ⟨log', h'.operations, h'.writes, h'.inserts, h'.deletes, h'.updates, h'.shields, h'.skipped,
    h'.running⟩

theorem phaseInvariant_logged (hx : Uninterrupted d x) (ho : Orderly d operations)
    (hd : d.Faithful) :
    PhaseInvariant x (fun rest s => ∃ log, Logged d x before operations log rest s)
      (fun _ _ => False) where
  perm := by
    rintro l l' s hp ⟨log, h⟩
    exact ⟨log, h.operations.trans (hp.append_left _), h.writes, h.inserts, h.deletes, h.updates,
      h.shields, h.skipped, h.running⟩
  removes := by
    rintro ops rest s hne - ⟨log, h⟩
    exact wp_executeRemoves_logged hx ho hd hne h
  replacements := by
    rintro ops rest s hne - ⟨log, h⟩
    exact wp_executeReplacements_logged hx ho hd hne h
  adds := by
    rintro ops rest s hne - ⟨log, h⟩
    exact wp_executeAdds_logged hx ho hd hne h

end Phases

end Log

/-! ## Executions -/

section Execution

variable {host : Host} {W : Type} {d : Destination host W}

/-- **An uninterrupted execution of an orderly plan** returns, with a log of all its operations. -/
theorem exists_log (hd : d.Faithful) {operations : List SyncOperation} (ho : Orderly d operations)
    (mappings : List EventMapping) (calendarId : String) (w : W) :
    ∃ run log, executeRemoteOperations host operations mappings calendarId d.provider none none
        ⟨w, []⟩ = (.ok ⟨⟩, run) ∧
      Logged d (executorOf host mappings calendarId d.provider none none) (d.list w) operations log
        [] run := by
  let x := executorOf host mappings calendarId d.provider none none
  have hx : Uninterrupted d x := ⟨rfl, rfl, rfl, rfl⟩
  have hstart : Logged d x (d.list w) operations {} operations ⟨⟨w, []⟩, {}⟩ :=
    { operations := List.Perm.refl _
      writes := Writes.refl host _
      inserts := List.Perm.refl _
      deletes := List.Perm.refl _
      updates := List.Perm.refl _
      shields := by simp [Log.stored, Log.pushed]
      skipped := by simp
      running := rfl }
  have h := post_executeRemoteOperations (phaseInvariant_logged hx ho hd) ⟨{}, hstart⟩
  revert h
  rcases hrun : executeRemoteOperations host operations mappings calendarId d.provider none none
    ⟨w, []⟩ with ⟨e | ⟨⟨⟩⟩, run⟩
  · exact False.elim
  · rintro ⟨rest, ⟨log, hlog⟩, rfl | hstopped⟩
    · exact ⟨run, log, rfl, hlog⟩
    · rw [hlog.running] at hstopped
      cases hstopped

end Execution

end Keeper
