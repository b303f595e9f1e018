import Keeper.Engine.Results
import Keeper.Foundations.Effect
import Keeper.Sync.Operations

/-!
# Executing a plan

`executeRemoteOperations` (`core/sync-engine/index.ts`): the operations of a plan are sent to the
destination in chunks of fifty, in each chunk the removals first, then the replacements, then the
additions, with a checkpoint after each batch and a question whether the run is still the current
one after each phase. Progress callbacks and the wide event of the run are not modelled.

The world is a parameter: a provider answers from a state of its own and may fail, the answers
whether the run is current are a sequence, and a checkpoint is any computation that adds to the
record of calls. Every call to the world is recorded in a trace.

* `wp_executeChunk`, `wp_executeRemoteOperations`: an invariant of the three phases is an
  invariant of the run.
-/

namespace Keeper

open JsArray

/-! ## The world -/

abbrev Failure := String

structure EventUpdate where
  deleteId : String
  event : MaterializedSyncableEvent
  deriving DecidableEq

/-- A call to the world, with what it was made for and its results if it returned. The provider
sees only the events of additions, the updates of replacements and the delete identifiers of
removals; `cleanup` deletes the copies of inserts that could not be recorded. -/
inductive Call
  | push (adds : List AddOperation) (results : Option (List PushResult))
  | update (replacements : List ReplaceOperation) (results : Option (List PushResult))
  | delete (removes : List RemoveOperation) (results : Option (List DeleteResult))
  | cleanup (inserts : List PendingInsert) (results : Option (List DeleteResult))
  | isCurrent (answer : Bool)
  | flush (changes : PendingChanges) (returned : Bool)
  deriving DecidableEq

/-- The world outside the program and the calls made to it so far. -/
structure Io (W : Type) where
  world : W
  trace : List Call

/-- A computation that calls the world. -/
abbrev IoEffect (W : Type) (α : Type) := Effect Failure (Io W) α

def call {W α : Type} (x : Effect Failure W α) (record : Option α → Call) : IoEffect W α :=
  fun io => ((x io.world).1, ⟨(x io.world).2, io.trace ++ [record (x io.world).1.toOption]⟩)

/-- `CalendarSyncProvider`: the calls that the engine makes. -/
structure CalendarSyncProvider (W : Type) where
  normalizeEvent : Option (MaterializedSyncableEvent → MaterializedSyncableEvent) := none
  pushEvents : List MaterializedSyncableEvent → Effect Failure W (List PushResult)
  updateEvents : Option (List EventUpdate → Effect Failure W (List PushResult)) := none
  deleteEvents : List String → Effect Failure W (List DeleteResult)

/-- The question whether the run is current has been asked this often. -/
def currencyChecks (trace : List Call) : ℕ :=
  trace.countP fun
    | .isCurrent _ => true
    | _ => false

/-- Ask whether the run is current: the `n`th question gets the `n`th answer. -/
def askCurrent {W : Type} (answers : ℕ → Bool) : IoEffect W Bool := fun io =>
  let answer := answers (currencyChecks io.trace)
  (.ok answer, { io with trace := io.trace ++ [.isCurrent answer] })

/-- A checkpoint callback: it may call the world, and what it calls is added to the trace. -/
structure Checkpoint (W : Type) where
  run : PendingChanges → IoEffect W Bool
  prefix_trace : ∀ changes io, io.trace <+: (run changes io).2.trace

/-! ## The state of a run -/

structure SyncResult where
  added : ℕ := 0
  addFailed : ℕ := 0
  removed : ℕ := 0
  removeFailed : ℕ := 0
  deriving DecidableEq

/-- `RunResult`: what one batch adds to the run. -/
structure RunResult where
  changes : PendingChanges
  result : SyncResult
  conflictsResolved : ℕ
  errors : List OperationError
  pushEcho : Option PushEchoCounts := none

/-- `ChunkedExecutionState`. The set of protected uids is only asked for membership. -/
structure ChunkedExecutionState where
  changes : PendingChanges := { updates := some [] }
  result : SyncResult := {}
  conflictsResolved : ℕ := 0
  errors : List OperationError := []
  processed : ℕ := 0
  pushEcho : PushEchoCounts := {}
  superseded : Bool := false
  checkpointRejected : Bool := false
  protectedRemoteUids : List String := []
  updateFallbacks : ℕ := 0

/-- A run: the world, the trace and the state of the execution. -/
structure Run (W : Type) where
  io : Io W
  state : ChunkedExecutionState

abbrev RunEffect (W : Type) (α : Type) := Effect Failure (Run W) α

def PendingChanges.updateList (changes : PendingChanges) : List PendingUpdate :=
  changes.updates.getD []

/-- `state.superseded || state.checkpointRejected`. -/
def Run.stopped {W : Type} (run : Run W) : Bool :=
  run.state.superseded || run.state.checkpointRejected

def Run.after {W : Type} (run : Run W) (world : W) (c : Call) : Run W :=
  { run with io := ⟨world, run.io.trace ++ [c]⟩ }

def PendingChanges.merge (changes batch : PendingChanges) : PendingChanges where
  inserts := changes.inserts ++ batch.inserts
  deletes := changes.deletes ++ batch.deletes
  updates :=
    match batch.updates with
    | some updates => some (changes.updateList ++ updates)
    | none => changes.updates

@[simp] theorem PendingChanges.inserts_merge (changes batch : PendingChanges) :
    (changes.merge batch).inserts = changes.inserts ++ batch.inserts := rfl

@[simp] theorem PendingChanges.deletes_merge (changes batch : PendingChanges) :
    (changes.merge batch).deletes = changes.deletes ++ batch.deletes := rfl

@[simp] theorem PendingChanges.updateList_merge (changes batch : PendingChanges) :
    (changes.merge batch).updateList = changes.updateList ++ batch.updateList := by
  cases h : batch.updates <;> simp [merge, updateList, h]

def mergeRunResult (runResult : RunResult) (includeChanges : Bool) (state : ChunkedExecutionState) :
    ChunkedExecutionState :=
  { state with
    changes := if includeChanges then state.changes.merge runResult.changes else state.changes
    result :=
      { added := state.result.added + runResult.result.added
        addFailed := state.result.addFailed + runResult.result.addFailed
        removed := state.result.removed + runResult.result.removed
        removeFailed := state.result.removeFailed + runResult.result.removeFailed }
    conflictsResolved := state.conflictsResolved + runResult.conflictsResolved
    errors := state.errors ++ runResult.errors
    pushEcho :=
      match runResult.pushEcho with
      | some counts => state.pushEcho.add counts
      | none => state.pushEcho
    protectedRemoteUids :=
      if includeChanges then
        state.protectedRemoteUids ++ runResult.changes.inserts.map (·.destinationEventUid)
      else state.protectedRemoteUids }

section Executor

variable {W : Type}

/-- Call the world from a run. -/
def onIo {α : Type} (x : IoEffect W α) : RunEffect W α :=
  Effect.zoom (·.io) (fun run io => { run with io }) x

def onState (f : ChunkedExecutionState → ChunkedExecutionState) : RunEffect W PUnit :=
  Effect.modify fun run => { run with state := f run.state }

/-- What an execution is given besides its operations. -/
structure Executor (W : Type) where
  host : Host
  calendarId : String
  provider : CalendarSyncProvider W
  mappingsByRemoteIdentity : JsMap String EventMapping
  /-- The answers of `isCurrent`, if the caller passes it. -/
  isCurrent : Option (ℕ → Bool) := none
  checkpoint : Option (Checkpoint W) := none

namespace Executor

variable (x : Executor W)

def push (adds : List AddOperation) : RunEffect W (List PushResult) :=
  onIo (call (x.provider.pushEvents (adds.map (·.event))) (.push adds))

def delete (removes : List RemoveOperation) : RunEffect W (List DeleteResult) :=
  onIo (call (x.provider.deleteEvents (removes.map (·.deleteId))) (.delete removes))

def update (replacements : List ReplaceOperation)
    (updateEvents : List EventUpdate → Effect Failure W (List PushResult)) :
    RunEffect W (List PushResult) :=
  onIo (call (updateEvents (replacements.map fun op => ⟨op.deleteId, op.event⟩))
    (.update replacements))

def executeAddRun (adds : List AddOperation) : RunEffect W RunResult := do
  let pushResults ← x.push adds
  let processed := processAddResults x.host adds pushResults x.calendarId
  return {
    changes := { inserts := processed.inserts, deletes := processed.deletes }
    result := { added := processed.added, addFailed := processed.addFailed }
    conflictsResolved := processed.conflictsResolved
    errors := processed.errors
    pushEcho := some (tallyPushEcho pushResults) }

/-- `executeUpdateRun`: the result of the run and the replacements that failed. -/
def executeUpdateRun (replacements : List ReplaceOperation)
    (updateEvents : List EventUpdate → Effect Failure W (List PushResult)) :
    RunEffect W (RunResult × List ReplaceOperation) := do
  let pushResults ← update replacements updateEvents
  let processed := processUpdateResults x.host replacements pushResults
  return ({
    changes := { updates := some processed.updates }
    result := { added := processed.updated }
    conflictsResolved := processed.conflictsResolved
    errors := processed.errors
    pushEcho := some (tallyPushEcho pushResults) }, processed.unresolved)

def executeRemoveRun (removes : List RemoveOperation) : RunEffect W RunResult := do
  let deleteResults ← x.delete removes
  let processed := processDeleteResults removes deleteResults x.mappingsByRemoteIdentity
  return {
    changes := { deletes := processed.deleteIds }
    result := { removed := processed.removed, removeFailed := processed.removeFailed }
    conflictsResolved := 0
    errors := processed.errors }

/-- `checkpointRun`: whether the run may go on. -/
def checkpointRun (changes : PendingChanges) : RunEffect W Bool :=
  match x.checkpoint with
  | none => pure true
  | some checkpoint =>
    if changes.inserts.isEmpty && changes.deletes.isEmpty && changes.updateList.isEmpty then
      pure true
    else do
      if ← onIo (checkpoint.run changes) then pure true
      else do
        onState fun state => { state with checkpointRejected := true }
        pure false

def checkSuperseded : RunEffect W PUnit :=
  match x.isCurrent with
  | none => pure ⟨⟩
  | some answers => do
    if ← onIo (askCurrent answers) then pure ⟨⟩
    else onState fun state => { state with superseded := true }

/-- The end of a phase: count the operations and ask whether the run is current. -/
def completePhase (count : ℕ) : RunEffect W PUnit := do
  onState fun state => { state with processed := state.processed + count }
  x.checkSuperseded

/-- Merge the result of a batch and checkpoint its changes. -/
def recordRun (runResult : RunResult) : RunEffect W Bool := do
  onState (mergeRunResult runResult true)
  x.checkpointRun runResult.changes

def executeAdds (adds : List AddOperation) : RunEffect W PUnit :=
  if adds.isEmpty then pure ⟨⟩
  else do
    let runResult ← x.executeAddRun adds
    if ← x.recordRun runResult then x.completePhase adds.length
    else pure ⟨⟩

/-- The removals that do not name a copy this run has written. -/
def actionable (removes : List RemoveOperation) (run : Run W) : List RemoveOperation :=
  removes.filter fun op => !run.state.protectedRemoteUids.contains op.uid

def executeRemoves (removes : List RemoveOperation) : RunEffect W PUnit :=
  if removes.isEmpty then pure ⟨⟩
  else do
    let actionable ← Effect.gets (actionable removes)
    if actionable.isEmpty then x.completePhase removes.length
    else do
      let runResult ← x.executeRemoveRun actionable
      if ← x.recordRun runResult then x.completePhase removes.length
      else pure ⟨⟩

/-- The removal with which a replacement starts; it names no mapping. -/
def removalOf (op : ReplaceOperation) : RemoveOperation where
  uid := op.uid
  deleteId := op.deleteId
  startTime := op.event.startTime

def additionOf (op : ReplaceOperation) : AddOperation where
  event := op.event
  staleMappingId := some op.staleMappingId

def additionsOf (replacements : List ReplaceOperation) (deleteResults : List DeleteResult) :
    List AddOperation :=
  (zipIndexed replacements deleteResults).filterMap fun item =>
    if item.2.any (·.success) then some (additionOf item.1) else none

/-- `replaceViaDeleteThenAdd`: whether the run may go on. -/
def replaceViaDeleteThenAdd (replacements : List ReplaceOperation) : RunEffect W Bool := do
  let removes := replacements.map removalOf
  let deleteResults ← x.delete removes
  let processed := processDeleteResults removes deleteResults x.mappingsByRemoteIdentity
  onState (mergeRunResult {
    changes := { deletes := processed.deleteIds }
    result := { removed := processed.removed, removeFailed := processed.removeFailed }
    conflictsResolved := 0
    errors := processed.errors } false)
  let adds := additionsOf replacements deleteResults
  if adds.isEmpty then pure true
  else do
    let addResult ← x.executeAddRun adds
    x.recordRun addResult

/-- Protect the uids of the replacements that were updated in place. -/
def protectUpdated (replacements unresolved : List ReplaceOperation)
    (state : ChunkedExecutionState) : ChunkedExecutionState :=
  { state with
    protectedRemoteUids := state.protectedRemoteUids ++
      (replacements.filter fun op =>
        !(unresolved.map (·.staleMappingId)).contains op.staleMappingId).map (·.uid)
    updateFallbacks := state.updateFallbacks + unresolved.length }

/-- The replacements of a phase, when the provider updates in place: what fails to update is
replaced by deleting and adding. The result is whether the run may go on. -/
def replaceInPlace (replacements : List ReplaceOperation)
    (updateEvents : List EventUpdate → Effect Failure W (List PushResult)) : RunEffect W Bool := do
  let (runResult, unresolved) ← x.executeUpdateRun replacements updateEvents
  onState (mergeRunResult runResult true)
  onState (protectUpdated replacements unresolved)
  if ← x.checkpointRun runResult.changes then
    if unresolved.isEmpty then pure true else x.replaceViaDeleteThenAdd unresolved
  else pure false

/-- The replacements of a phase, in place if the provider can update. -/
def replaceCopies (replacements : List ReplaceOperation) : RunEffect W Bool :=
  match x.provider.updateEvents with
  | some updateEvents => x.replaceInPlace replacements updateEvents
  | none => x.replaceViaDeleteThenAdd replacements

def executeReplacements (replacements : List ReplaceOperation) : RunEffect W PUnit :=
  if replacements.isEmpty then pure ⟨⟩
  else do
    if ← x.replaceCopies replacements then x.completePhase (replacements.length * 2)
    else pure ⟨⟩

end Executor

/-! ## Chunks -/

def removesOf (operations : List SyncOperation) : List RemoveOperation :=
  operations.filterMap fun
    | .remove op => some op
    | _ => none

def replacementsOf (operations : List SyncOperation) : List ReplaceOperation :=
  operations.filterMap fun
    | .replace op => some op
    | _ => none

def addsOf (operations : List SyncOperation) : List AddOperation :=
  operations.filterMap fun
    | .add op => some op
    | _ => none

namespace Executor

variable (x : Executor W)

def unlessStopped (next : RunEffect W PUnit) : RunEffect W PUnit := do
  if ← Effect.gets Run.stopped then pure ⟨⟩ else next

/-- The body of the chunk loop of `executeRemoteOperations`. -/
def executeChunk (chunk : List SyncOperation) : RunEffect W PUnit := do
  x.executeRemoves (removesOf chunk)
  unlessStopped do
    x.executeReplacements (replacementsOf chunk)
    unlessStopped (x.executeAdds (addsOf chunk))

/-- The chunk loop of `executeRemoteOperations`. -/
def executeChunks (chunks : List (List SyncOperation)) : RunEffect W PUnit :=
  Effect.forUntil Run.stopped x.executeChunk chunks

end Executor

/-- `OPERATION_CHUNK_SIZE`, less one. -/
def operationChunkSizePred : ℕ := 49

/-- The executor of `executeRemoteOperations`. -/
abbrev executorOf (host : Host) (existingMappings : List EventMapping) (calendarId : String)
    (provider : CalendarSyncProvider W) (isCurrent : Option (ℕ → Bool))
    (checkpoint : Option (Checkpoint W)) : Executor W where
  host
  calendarId
  provider
  isCurrent
  checkpoint
  mappingsByRemoteIdentity := mappingsByRemoteIdentity existingMappings

/-- `executeRemoteOperations`, from any record of earlier calls. The state of the run it ends in
holds the accumulated changes, also when it fails. -/
def executeRemoteOperations (host : Host) (operations : List SyncOperation)
    (existingMappings : List EventMapping) (calendarId : String)
    (provider : CalendarSyncProvider W) (isCurrent : Option (ℕ → Bool))
    (checkpoint : Option (Checkpoint W)) (io : Io W) : Except Failure PUnit × Run W :=
  (executorOf host existingMappings calendarId provider isCurrent checkpoint).executeChunks
    (chunks operationChunkSizePred operations) ⟨io, {}⟩

/-! ## Rules -/

namespace Executor

variable {x : Executor W} {R : Failure → Run W → Prop} {s : Run W}

theorem wp_onIo_call {α : Type} {f : Effect Failure W α} {record : Option α → Call}
    {Q : α → Run W → Prop}
    (hok : ∀ a w, f s.io.world = (.ok a, w) → Q a (s.after w (record (some a))))
    (herr : ∀ e w, f s.io.world = (.error e, w) → R e (s.after w (record none))) :
    Effect.wp (onIo (call f record)) Q R s := by
  rw [onIo, Effect.wp_zoom]
  unfold Effect.wp call
  rcases hf : f s.io.world with ⟨e | a, w⟩
  · exact herr e w hf
  · exact hok a w hf

variable {Q : Bool → Run W → Prop}

theorem wp_askCurrent {answers : ℕ → Bool} : Effect.wp (onIo (askCurrent answers)) Q R s ↔
      Q (answers (currencyChecks s.io.trace))
        (s.after s.io.world (.isCurrent (answers (currencyChecks s.io.trace)))) := Iff.rfl

/-- A checkpoint is skipped, accepts, rejects or fails. It only adds to the trace. -/
theorem wp_checkpointRun {changes : PendingChanges}
    (hok : ∀ io, s.io.trace <+: io.trace → Q true { s with io })
    (hrej : ∀ io, s.io.trace <+: io.trace → Q false { io, state := { s.state with checkpointRejected := true } })
    (herr : ∀ e io, s.io.trace <+: io.trace → R e { s with io }) :
    Effect.wp (x.checkpointRun changes) Q R s := by
  have hskip : Q true s := hok s.io (List.prefix_refl _)
  unfold checkpointRun
  split
  · exact hskip
  · rename_i checkpoint _
    split
    · exact hskip
    · rw [Effect.wp_bind, onIo, Effect.wp_zoom]
      have hp := checkpoint.prefix_trace changes s.io
      unfold Effect.wp
      rcases hr : checkpoint.run changes s.io with ⟨e | b, io⟩ <;> rw [hr] at hp
      · exact herr e io hp
      · cases b with
        | true => exact hok io hp
        | false => exact hrej io hp

/-- What recording a batch leaves: its changes are merged, and the trace has grown. -/
structure Recorded (changes : PendingChanges) (s s' : Run W) : Prop where
  trace : s.io.trace <+: s'.io.trace
  changes : s'.state.changes = s.state.changes.merge changes

theorem wp_recordRun {runResult : RunResult}
    (h : ∀ s', Recorded runResult.changes s s' → (∀ b, Q b s') ∧ ∀ e, R e s') :
    Effect.wp (x.recordRun runResult) Q R s := by
  rw [recordRun, Effect.wp_bind, onState, Effect.wp_modify]
  refine wp_checkpointRun ?_ ?_ ?_
  · exact fun io hio => (h _ ⟨hio, rfl⟩).1 _
  · exact fun io hio => (h _ ⟨hio, rfl⟩).1 _
  · exact fun e io hio => (h _ ⟨hio, rfl⟩).2 _

/-- The end of a phase asks once whether the run is current, or not at all. -/
theorem wp_completePhase {count : ℕ} {Q : PUnit → Run W → Prop}
    (hnone : Q ⟨⟩ { s with state := { s.state with processed := s.state.processed + count } })
    (hask : ∀ answer, Q ⟨⟩
      { io := ⟨s.io.world, s.io.trace ++ [.isCurrent answer]⟩
        state := { s.state with
          processed := s.state.processed + count
          superseded := s.state.superseded || !answer } }) :
    Effect.wp (x.completePhase count) Q R s := by
  rw [completePhase, Effect.wp_bind, onState, Effect.wp_modify]
  unfold checkSuperseded
  split
  · exact hnone
  · rename_i answers _
    rw [Effect.wp_bind, wp_askCurrent]
    have h := hask (answers (currencyChecks s.io.trace))
    cases ha : answers (currencyChecks s.io.trace) with
    | true =>
      rw [ha, Bool.not_true, Bool.or_false] at h
      exact h
    | false =>
      rw [ha, Bool.not_false, Bool.or_true] at h
      exact h

/-! ### The loop -/

theorem perm_split (l : List SyncOperation) :
    l.Perm ((removesOf l).map .remove ++ ((replacementsOf l).map .replace ++
      (addsOf l).map .add)) := by
  induction l with
  | nil => simp [removesOf, replacementsOf, addsOf]
  | cons op l ih =>
    cases op with
    | remove op => simpa [removesOf, replacementsOf, addsOf] using ih.cons (.remove op)
    | replace op =>
      simp only [removesOf, replacementsOf, addsOf, List.filterMap_cons, List.map_cons,
        List.cons_append] at ih ⊢
      exact (ih.cons _).trans List.perm_middle.symm
    | add op =>
      simp only [removesOf, replacementsOf, addsOf, List.filterMap_cons, List.map_cons] at ih ⊢
      refine (ih.cons _).trans ?_
      rw [← List.append_assoc, ← List.append_assoc]
      exact List.perm_middle.symm

/-- What an invariant indexed by the remaining operations must satisfy to hold of a run: it does
not depend on their order, and each phase consumes its operations. -/
structure PhaseInvariant (x : Executor W) (I : List SyncOperation → Run W → Prop)
    (R : Failure → Run W → Prop) : Prop where
  perm : ∀ l l' s, l.Perm l' → I l s → I l' s
  removes : ∀ ops rest s, ops ≠ [] → s.stopped = false → I (ops.map .remove ++ rest) s →
    Effect.wp (x.executeRemoves ops) (fun _ => I rest) R s
  replacements : ∀ ops rest s, ops ≠ [] → s.stopped = false → I (ops.map .replace ++ rest) s →
    Effect.wp (x.executeReplacements ops) (fun _ => I rest) R s
  adds : ∀ ops rest s, ops ≠ [] → s.stopped = false → I (ops.map .add ++ rest) s →
    Effect.wp (x.executeAdds ops) (fun _ => I rest) R s

/-- A run that ends early leaves operations, else none. -/
def Finished (I : List SyncOperation → Run W → Prop) (s : Run W) : Prop :=
  ∃ rest, I rest s ∧ (rest = [] ∨ s.stopped = true)

theorem wp_unlessStopped {next : RunEffect W PUnit} {Q : PUnit → Run W → Prop}
    (hstop : s.stopped = true → Q ⟨⟩ s) (hnext : s.stopped = false → Effect.wp next Q R s) :
    Effect.wp (unlessStopped next) Q R s := by
  rw [unlessStopped, Effect.wp_bind, Effect.wp_gets]
  cases hs : s.stopped with
  | true => exact hstop hs
  | false => exact hnext hs

variable {I : List SyncOperation → Run W → Prop}

/-- A chunk consumes its operations, or stops with some of them left. -/
theorem wp_executeChunk (h : PhaseInvariant x I R) {chunk rest : List SyncOperation}
    (hs : s.stopped = false) (hI : I (chunk ++ rest) s) :
    Effect.wp (x.executeChunk chunk)
      (fun _ s' => I rest s' ∨ s'.stopped = true ∧ ∃ l, I l s') R s := by
  -- a phase without operations does nothing
  have hremoves : ∀ ops rest s, s.stopped = false → I (ops.map .remove ++ rest) s →
      Effect.wp (x.executeRemoves ops) (fun _ => I rest) R s := by
    intro ops rest s hs hI
    cases ops with
    | nil => exact hI
    | cons op ops => exact h.removes _ rest s (List.cons_ne_nil _ _) hs hI
  have hreplace : ∀ ops rest s, s.stopped = false → I (ops.map .replace ++ rest) s →
      Effect.wp (x.executeReplacements ops) (fun _ => I rest) R s := by
    intro ops rest s hs hI
    cases ops with
    | nil => exact hI
    | cons op ops => exact h.replacements _ rest s (List.cons_ne_nil _ _) hs hI
  have hadds : ∀ ops rest s, s.stopped = false → I (ops.map .add ++ rest) s →
      Effect.wp (x.executeAdds ops) (fun _ => I rest) R s := by
    intro ops rest s hs hI
    cases ops with
    | nil => exact hI
    | cons op ops => exact h.adds _ rest s (List.cons_ne_nil _ _) hs hI
  have hsplit := h.perm _ _ s ((perm_split chunk).append_right rest) hI
  simp only [List.append_assoc] at hsplit
  rw [executeChunk, Effect.wp_bind]
  refine Effect.wp_mono (hremoves _ _ s hs hsplit) ?_ fun _ _ h => h
  rintro - s1 h1
  refine wp_unlessStopped (fun hst => Or.inr ⟨hst, _, h1⟩) fun hs1 => ?_
  rw [Effect.wp_bind]
  refine Effect.wp_mono (hreplace _ _ s1 hs1 h1) ?_ fun _ _ h => h
  rintro - s2 h2
  refine wp_unlessStopped (fun hst => Or.inr ⟨hst, _, h2⟩) fun hs2 => ?_
  exact Effect.wp_mono (hadds _ _ s2 hs2 h2) (fun _ _ h3 => Or.inl h3) fun _ _ h => h

/-- **An invariant of the phases is an invariant of the chunk loop.** -/
theorem wp_executeChunks (h : PhaseInvariant x I R) (chunks : List (List SyncOperation))
    (hI : I chunks.flatten s) : Effect.wp (x.executeChunks chunks) (fun _ => Finished I) R s := by
  refine Effect.wp_forUntil (I := fun l s => I l.flatten s ∨ s.stopped = true ∧ ∃ l, I l s) ?_ ?_ _
    (Or.inl hI)
  · rintro chunk l s (hI | ⟨hst, -⟩) hs
    · exact wp_executeChunk h hs hI
    · rw [hst] at hs
      cases hs
  · rintro l s (hI | ⟨hst, rest, hI⟩) hend
    · rcases hend with rfl | hst
      · exact ⟨[], hI, Or.inl rfl⟩
      · exact ⟨_, hI, Or.inr hst⟩
    · exact ⟨rest, hI, Or.inr hst⟩

end Executor

/-- **An invariant of the phases is an invariant of an execution.** -/
theorem post_executeRemoteOperations {host : Host} {operations : List SyncOperation}
    {existingMappings : List EventMapping} {calendarId : String}
    {provider : CalendarSyncProvider W} {isCurrent : Option (ℕ → Bool)}
    {checkpoint : Option (Checkpoint W)} {io : Io W} {I : List SyncOperation → Run W → Prop}
    {R : Failure → Run W → Prop}
    (h : Executor.PhaseInvariant
      (executorOf host existingMappings calendarId provider isCurrent checkpoint) I R)
    (hI : I operations ⟨io, {}⟩) :
    Effect.Post (fun _ => Executor.Finished I) R
      (executeRemoteOperations host operations existingMappings calendarId provider isCurrent
        checkpoint io) := by
  refine Executor.wp_executeChunks h (chunks operationChunkSizePred operations) ?_
  rw [flatten_chunks]
  exact hI

end Executor

end Keeper
