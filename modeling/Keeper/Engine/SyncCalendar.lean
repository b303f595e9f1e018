import Keeper.Engine.Execution
import Keeper.Sync.Operations

/-!
# Synchronising a calendar

`syncCalendar` (`core/sync-engine/index.ts`) with `flushOrDeleteUnrecordedCopies`
(`core/sync-engine/unrecorded-copies.ts`): plan, execute with a flush after each batch, and flush
the mapping updates. What is only logged (progress, wide events, tallies, timings) is left out.

* `Ongoing`, `Halted`: the traces a run can have, with the pushed copies that no flush holds yet.
* `wp_executeAdds_ongoing` and its companions: a phase extends an ongoing trace, asks once whether
  the run is current, and fails only in a halted trace.
* `syncCalendar_trace`: the traces of whole runs.
-/

namespace Keeper

open JsArray Executor

/-! ## Flushing -/

section Model

variable {W : Type}

abbrev Flush (W : Type) := PendingChanges → Effect Failure W PUnit

/-- `flush`, as a recorded call. -/
def flushCall (flush : Flush W) (changes : PendingChanges) : IoEffect W PUnit :=
  call (flush changes) fun result => .flush changes result.isSome

def deleteUnrecordedCopies (provider : CalendarSyncProvider W) (inserts : List PendingInsert) :
    IoEffect W PUnit :=
  Effect.recover
    (do
      let _ ← call (provider.deleteEvents (inserts.map (·.deleteIdentifier))) (.cleanup inserts)
      pure ⟨⟩)
    fun _ => pure ⟨⟩

def flushOrDeleteUnrecordedCopies (changes : PendingChanges) (flush : Flush W)
    (provider : CalendarSyncProvider W) : IoEffect W PUnit :=
  Effect.recover (flushCall flush changes) fun error =>
    if changes.inserts.isEmpty then Effect.throw error
    else do
      deleteUnrecordedCopies provider changes.inserts
      Effect.throw error

/-- What `flushOrDeleteUnrecordedCopies` does: it flushes, or fails to flush and deletes the
copies of the inserts, if there are any. -/
theorem flushOrDeleteUnrecordedCopies_cases (changes : PendingChanges) (flush : Flush W)
    (provider : CalendarSyncProvider W) (io : Io W) :
    (∃ w, flush changes io.world = (.ok ⟨⟩, w) ∧
      flushOrDeleteUnrecordedCopies changes flush provider io =
        (.ok ⟨⟩, ⟨w, io.trace ++ [.flush changes true]⟩)) ∨
    ∃ e w, flush changes io.world = (.error e, w) ∧
      (changes.inserts = [] ∧ flushOrDeleteUnrecordedCopies changes flush provider io =
          (.error e, ⟨w, io.trace ++ [.flush changes false]⟩) ∨
        ∃ w' results, flushOrDeleteUnrecordedCopies changes flush provider io =
          (.error e, ⟨w', io.trace ++ [.flush changes false, .cleanup changes.inserts results]⟩)) := by
  rcases hf : flush changes io.world with ⟨e | ⟨⟨⟩⟩, w⟩
  · refine Or.inr ⟨e, w, rfl, ?_⟩
    by_cases hi : changes.inserts = []
    · refine Or.inl ⟨hi, ?_⟩
      simp [flushOrDeleteUnrecordedCopies, Effect.recover, flushCall, call, hf, hi, Effect.throw,
        Except.toOption]
    · refine Or.inr ?_
      rcases hd : provider.deleteEvents (changes.inserts.map (·.deleteIdentifier)) w
        with ⟨e' | results, w'⟩
      · refine ⟨w', none, ?_⟩
        simp [flushOrDeleteUnrecordedCopies, Effect.recover, flushCall, call, hf, hi, Effect.throw,
          Except.toOption, deleteUnrecordedCopies, bind, hd, pure]
      · refine ⟨w', some results, ?_⟩
        simp [flushOrDeleteUnrecordedCopies, Effect.recover, flushCall, call, hf, hi, Effect.throw,
          Except.toOption, deleteUnrecordedCopies, bind, hd, pure]
  · refine Or.inl ⟨w, rfl, ?_⟩
    simp [flushOrDeleteUnrecordedCopies, Effect.recover, flushCall, call, hf, Except.toOption]

/-- The checkpoint of `syncCalendar`: it always accepts, or fails. -/
def flushCheckpoint (provider : CalendarSyncProvider W) (flush : Flush W) : Checkpoint W where
  run changes := do
    flushOrDeleteUnrecordedCopies changes flush provider
    pure true
  prefix_trace changes io := by
    rcases flushOrDeleteUnrecordedCopies_cases changes flush provider io with
      ⟨w, -, h⟩ | ⟨e, w, -, ⟨-, h⟩ | ⟨w', results, h⟩⟩ <;>
      simp [bind, h, pure]

/-! ## The run -/

/-- What `readState` returns. -/
structure SyncState where
  localEvents : List MaterializedSyncableEvent
  existingMappings : List EventMapping
  remoteEvents : List RemoteEvent

structure SyncCalendarResult where
  result : SyncResult := {}
  conflictsResolved : ℕ := 0
  errors : List String := []
  writeAccessDenied : Bool := false
  deriving DecidableEq

/-- `SyncCalendarOptions`; the answers are those of `isCurrent`, in the order of the questions. -/
structure SyncCalendarOptions (W : Type) where
  host : Host
  calendarId : String
  provider : CalendarSyncProvider W
  state : SyncState
  answers : ℕ → Bool
  flush : Flush W
  reconciliationScope : ReconciliationScope

namespace SyncCalendarOptions

variable (o : SyncCalendarOptions W)

def localEvents : List MaterializedSyncableEvent :=
  o.state.localEvents.map (o.provider.normalizeEvent.getD id)

def plan : ComputeSyncOperationsResult :=
  computeSyncOperations o.host o.localEvents o.state.existingMappings o.state.remoteEvents
    o.reconciliationScope

def executor : Executor W :=
  executorOf o.host o.state.existingMappings o.calendarId o.provider (some o.answers)
    (some (flushCheckpoint o.provider o.flush))

end SyncCalendarOptions

/-- The execution of the plan; the result is the state it ends in. -/
def executePlan (o : SyncCalendarOptions W) : IoEffect W ChunkedExecutionState := fun io =>
  let run := executeRemoteOperations o.host o.plan.operations o.state.existingMappings o.calendarId
    o.provider (some o.answers) (some (flushCheckpoint o.provider o.flush)) io
  (run.1.map fun _ => run.2.state, run.2.io)

def flushMappingUpdates (o : SyncCalendarOptions W) : IoEffect W PUnit :=
  if o.plan.mappingUpdates.isEmpty then pure ⟨⟩
  else flushCall o.flush { updates := some o.plan.mappingUpdates }

def resultOf (outcome : ChunkedExecutionState) : SyncCalendarResult where
  result := outcome.result
  conflictsResolved := outcome.conflictsResolved
  errors := outcome.errors.map (·.error)
  writeAccessDenied := outcome.errors.any (·.writeAccessDenied)

def syncCalendar (o : SyncCalendarOptions W) : IoEffect W SyncCalendarResult := do
  if ← askCurrent o.answers then
    if o.plan.operations.isEmpty && o.plan.staleMappingIds.isEmpty &&
        o.plan.mappingUpdates.isEmpty then
      pure {}
    else do
      let outcome ← executePlan o
      flushMappingUpdates o
      pure (resultOf outcome)
  else pure {}

end Model

/-! ## Traces -/

/-- The mapping rows of the copies that a batch of pushes reports. -/
def insertsOf (host : Host) (calendarId : String) (adds : List AddOperation)
    (results : List PushResult) : List PendingInsert :=
  (zipIndexed adds results).filterMap (insertOf host calendarId)

/-- The trace of a run that goes on, with the rows of the pushed copies that no flush holds yet. A
push is made when there are none, and the next flush holds them all. -/
inductive Ongoing (host : Host) (calendarId : String) : List PendingInsert → List Call → Prop
  | start : Ongoing host calendarId [] []
  | push {t} (adds results) (h : Ongoing host calendarId [] t) :
      Ongoing host calendarId (insertsOf host calendarId adds results)
        (t ++ [.push adds (some results)])
  | update {t} (replacements results) (h : Ongoing host calendarId [] t) :
      Ongoing host calendarId [] (t ++ [.update replacements (some results)])
  | delete {t} (removes results) (h : Ongoing host calendarId [] t) :
      Ongoing host calendarId [] (t ++ [.delete removes (some results)])
  | current {t} (h : Ongoing host calendarId [] t) :
      Ongoing host calendarId [] (t ++ [.isCurrent true])
  | flush {pending t} (changes : PendingChanges) (h : Ongoing host calendarId pending t)
      (hp : pending ⊆ changes.inserts) : Ongoing host calendarId [] (t ++ [.flush changes true])

def Call.IsFailure : Call → Prop
  | .push _ none => True
  | .update _ none => True
  | .delete _ none => True
  | _ => False

/-- The trace of a run that a failure ended: of a provider call, or of a flush, whose copies are
then deleted. -/
inductive Halted (host : Host) (calendarId : String) : List Call → Prop
  | call {t c} (h : Ongoing host calendarId [] t) (hc : c.IsFailure) :
      Halted host calendarId (t ++ [c])
  | flush {pending t} (changes : PendingChanges) (h : Ongoing host calendarId pending t)
      (hp : pending ⊆ changes.inserts) (hi : changes.inserts = []) :
      Halted host calendarId (t ++ [.flush changes false])
  | cleanup {pending t} (changes : PendingChanges) (results)
      (h : Ongoing host calendarId pending t) (hp : pending ⊆ changes.inserts) :
      Halted host calendarId
        (t ++ [.flush changes false, .cleanup changes.inserts results])

theorem currencyChecks_append (t t' : List Call) :
    currencyChecks (t ++ t') = currencyChecks t + currencyChecks t' := by
  simp [currencyChecks]

section Phases

variable {W : Type} {host : Host} {calendarId : String} {pending : List PendingInsert} {n : ℕ}
  {s : Run W} {x : Executor W} {flush : Flush W} {answers : ℕ → Bool}

/-- A run that goes on after `n` questions. -/
structure Underway (host : Host) (calendarId : String) (pending : List PendingInsert) (n : ℕ)
    (s : Run W) : Prop where
  trace : Ongoing host calendarId pending s.io.trace
  checks : currencyChecks s.io.trace = n
  superseded : s.state.superseded = false
  rejected : s.state.checkpointRejected = false

/-- A run after the `n`th question, by its answer. -/
structure Asked (host : Host) (calendarId : String) (answers : ℕ → Bool) (n : ℕ) (s : Run W) :
    Prop where
  trace : ∃ t, Ongoing host calendarId [] t ∧ s.io.trace = t ++ [.isCurrent (answers n)]
  checks : currencyChecks s.io.trace = n + 1
  superseded : s.state.superseded = !answers n
  rejected : s.state.checkpointRejected = false

structure Returns (provider : CalendarSyncProvider W) (flush : Flush W) : Prop where
  push : ∀ events w e w', provider.pushEvents events w ≠ (.error e, w')
  update : ∀ f, provider.updateEvents = some f → ∀ updates w e w', f updates w ≠ (.error e, w')
  delete : ∀ ids w e w', provider.deleteEvents ids w ≠ (.error e, w')
  flush : ∀ changes w e w', flush changes w ≠ (.error e, w')

/-- A run that failed: its trace is halted, and not every call returned. -/
def Failed (host : Host) (calendarId : String) (provider : CalendarSyncProvider W)
    (flush : Flush W) (_ : Failure) (s : Run W) : Prop :=
  Halted host calendarId s.io.trace ∧ ¬ Returns provider flush

theorem Asked.underway (h : Asked host calendarId answers n s) (ha : answers n = true) :
    Underway host calendarId [] (n + 1) s := by
  obtain ⟨t, ht, heq⟩ := h.trace
  refine ⟨?_, h.checks, by rw [h.superseded, ha]; rfl, h.rejected⟩
  rw [heq, ha]
  exact ht.current

theorem Underway.after (h : Underway host calendarId pending n s) {pending' : List PendingInsert}
    {c : Call} {w : W} (ht : Ongoing host calendarId pending' (s.io.trace ++ [c]))
    (hc : currencyChecks [c] = 0) : Underway host calendarId pending' n (s.after w c) :=
  ⟨ht, by rw [Run.after, currencyChecks_append, h.checks, hc, Nat.add_zero], h.superseded, h.rejected⟩

theorem wp_completePhase_asked (hx : x.isCurrent = some answers) {count : ℕ}
    {R : Failure → Run W → Prop} (h : Underway host calendarId [] n s) :
    Effect.wp (x.completePhase count) (fun _ => Asked host calendarId answers n) R s := by
  rw [completePhase, Effect.wp_bind, onState, Effect.wp_modify, checkSuperseded, hx]
  simp only [Effect.wp_bind, wp_askCurrent, h.checks]
  have hchecks : currencyChecks (s.io.trace ++ [.isCurrent (answers n)]) = n + 1 := by
    rw [currencyChecks_append, h.checks]
    rfl
  cases ha : answers n with
  | true => exact ⟨⟨_, h.trace, by rw [ha]; rfl⟩, by rw [← ha]; exact hchecks, by
      rw [ha]; exact h.superseded, h.rejected⟩
  | false => exact ⟨⟨_, h.trace, by rw [ha]; rfl⟩, by rw [← ha]; exact hchecks, by
      rw [ha]; rfl, h.rejected⟩

/-- Recording a batch that holds the pending rows leaves none pending. -/
theorem wp_checkpointRun_underway (hx : x.checkpoint = some (flushCheckpoint x.provider flush))
    {changes : PendingChanges} (h : Underway host calendarId pending n s)
    (hp : pending ⊆ changes.inserts) :
    Effect.wp (x.checkpointRun changes)
      (fun goesOn s' => goesOn = true ∧ Underway host calendarId [] n s')
      (Failed host calendarId x.provider flush) s := by
  rw [checkpointRun, hx]
  dsimp only
  split
  · rename_i hnil
    simp only [Bool.and_eq_true, List.isEmpty_iff] at hnil
    rw [hnil.1.1, List.subset_nil] at hp
    exact ⟨rfl, hp ▸ h⟩
  · rw [Effect.wp_bind, onIo, Effect.wp_zoom]
    rcases flushOrDeleteUnrecordedCopies_cases changes flush x.provider s.io with
      ⟨w, hf, hr⟩ | ⟨e, w, hf, ⟨hi, hr⟩ | ⟨w', results, hr⟩⟩ <;>
      refine Effect.wp_of_eq (by simp only [flushCheckpoint, bind, hr, pure]; rfl) ?_
    · exact ⟨rfl, h.after (w := w) (h.trace.flush changes hp) rfl⟩
    · exact ⟨.flush changes h.trace hp hi, fun hret => hret.flush _ _ _ _ hf⟩
    · exact ⟨.cleanup changes results h.trace hp, fun hret => hret.flush _ _ _ _ hf⟩

theorem wp_recordRun_underway (hx : x.checkpoint = some (flushCheckpoint x.provider flush))
    {runResult : RunResult} (h : Underway host calendarId pending n s)
    (hp : pending ⊆ runResult.changes.inserts) :
    Effect.wp (x.recordRun runResult)
      (fun goesOn s' => goesOn = true ∧ Underway host calendarId [] n s')
      (Failed host calendarId x.provider flush) s := by
  rw [recordRun, Effect.wp_bind, onState, Effect.wp_modify]
  exact wp_checkpointRun_underway hx ⟨h.trace, h.checks, h.superseded, h.rejected⟩ hp

/-! ### One phase -/

theorem wp_addRun_underway (hx : x.checkpoint = some (flushCheckpoint x.provider flush))
    (h : Underway x.host x.calendarId [] n s) (adds : List AddOperation) :
    Effect.wp (x.executeAddRun adds >>= x.recordRun)
      (fun goesOn s' => goesOn = true ∧ Underway x.host x.calendarId [] n s')
      (Failed x.host x.calendarId x.provider flush) s := by
  simp only [executeAddRun, push, Effect.wp_bind]
  refine wp_onIo_call (fun results w _ => ?_) fun e w he =>
    ⟨.call h.trace trivial, fun hret => hret.push _ _ _ _ he⟩
  have hpush := h.after (w := w) (h.trace.push adds results) rfl
  refine wp_recordRun_underway hx hpush ?_
  dsimp only
  rw [inserts_processAddResults, insertsOf]
  exact List.Subset.refl _

variable (hcurrent : x.isCurrent = some answers)
  (hcheckpoint : x.checkpoint = some (flushCheckpoint x.provider flush))

include hcurrent hcheckpoint

theorem wp_executeAdds_asked (h : Underway x.host x.calendarId [] n s) {adds : List AddOperation}
    (hne : adds ≠ []) :
    Effect.wp (x.executeAdds adds) (fun _ => Asked x.host x.calendarId answers n)
      (Failed x.host x.calendarId x.provider flush) s := by
  have hadd := wp_addRun_underway hcheckpoint h adds
  rw [Effect.wp_bind] at hadd
  rw [executeAdds, if_neg (by simpa using hne)]
  simp only [Effect.wp_bind]
  refine Effect.wp_mono hadd (fun runResult s' hrec => ?_) fun _ _ h => h
  refine Effect.wp_mono hrec ?_ fun _ _ h => h
  rintro goesOn s' ⟨rfl, h'⟩
  exact wp_completePhase_asked hcurrent h'

theorem wp_executeRemoves_asked (h : Underway x.host x.calendarId [] n s)
    {removes : List RemoveOperation} (hne : removes ≠ []) :
    Effect.wp (x.executeRemoves removes) (fun _ => Asked x.host x.calendarId answers n)
      (Failed x.host x.calendarId x.provider flush) s := by
  rw [executeRemoves, if_neg (by simpa using hne)]
  simp only [Effect.wp_bind, Effect.wp_gets]
  split
  · exact wp_completePhase_asked hcurrent h
  · simp only [Effect.wp_bind, executeRemoveRun, Executor.delete]
    refine wp_onIo_call (fun results w _ => ?_) fun e w he =>
      ⟨.call h.trace trivial, fun hret => hret.delete _ _ _ _ he⟩
    rw [Effect.wp_pure]
    refine Effect.wp_mono (wp_recordRun_underway hcheckpoint
      (h.after (h.trace.delete _ results) rfl) (List.nil_subset _)) ?_ fun _ _ h => h
    rintro goesOn s' ⟨rfl, h'⟩
    exact wp_completePhase_asked hcurrent h'

omit hcurrent in
theorem wp_replaceViaDeleteThenAdd_underway (h : Underway x.host x.calendarId [] n s)
    (replacements : List ReplaceOperation) :
    Effect.wp (x.replaceViaDeleteThenAdd replacements)
      (fun goesOn s' => goesOn = true ∧ Underway x.host x.calendarId [] n s')
      (Failed x.host x.calendarId x.provider flush) s := by
  simp only [replaceViaDeleteThenAdd, Effect.wp_bind, Executor.delete]
  refine wp_onIo_call (fun deleted w _ => ?_) fun e w he =>
    ⟨.call h.trace trivial, fun hret => hret.delete _ _ _ _ he⟩
  have hdel := h.after (w := w) (h.trace.delete (replacements.map removalOf) deleted) rfl
  rw [onState, Effect.wp_modify]
  split
  · exact ⟨rfl, hdel.trace, hdel.checks, hdel.superseded, hdel.rejected⟩
  · refine wp_addRun_underway hcheckpoint ?_ _
    exact ⟨hdel.trace, hdel.checks, hdel.superseded, hdel.rejected⟩

omit hcurrent in
theorem wp_replaceCopies_underway (h : Underway x.host x.calendarId [] n s)
    (replacements : List ReplaceOperation) :
    Effect.wp (x.replaceCopies replacements)
      (fun goesOn s' => goesOn = true ∧ Underway x.host x.calendarId [] n s')
      (Failed x.host x.calendarId x.provider flush) s := by
  unfold replaceCopies
  split
  · rename_i updateEvents hupdate
    simp only [replaceInPlace, executeUpdateRun, update, Effect.wp_bind]
    refine wp_onIo_call (fun results w _ => ?_) fun e w he =>
      ⟨.call h.trace trivial, fun hret => hret.update _ hupdate _ _ _ _ he⟩
    simp only [Effect.wp_pure, onState, Effect.wp_modify]
    have hupd := h.after (w := w) (h.trace.update replacements results) rfl
    refine Effect.wp_mono (wp_checkpointRun_underway hcheckpoint
      (Underway.mk hupd.trace hupd.checks hupd.superseded hupd.rejected) (List.nil_subset _))
      ?_ fun _ _ h => h
    rintro goesOn s' ⟨rfl, h'⟩
    simp only [if_true]
    split
    · exact ⟨rfl, h'⟩
    · exact wp_replaceViaDeleteThenAdd_underway hcheckpoint h' _
  · exact wp_replaceViaDeleteThenAdd_underway hcheckpoint h _

theorem wp_executeReplacements_asked (h : Underway x.host x.calendarId [] n s)
    {replacements : List ReplaceOperation} (hne : replacements ≠ []) :
    Effect.wp (x.executeReplacements replacements)
      (fun _ => Asked x.host x.calendarId answers n)
      (Failed x.host x.calendarId x.provider flush) s := by
  rw [executeReplacements, if_neg (by simpa using hne), Effect.wp_bind]
  refine Effect.wp_mono (wp_replaceCopies_underway hcheckpoint h _) ?_ fun _ _ h => h
  rintro goesOn s' ⟨rfl, h'⟩
  exact wp_completePhase_asked hcurrent h'

end Phases

/-- The phases of a chunk that have operations: each asks one question. -/
def chunkPhases (chunk : List SyncOperation) : ℕ :=
  (!(removesOf chunk).isEmpty).toNat + (!(replacementsOf chunk).isEmpty).toNat +
    (!(addsOf chunk).isEmpty).toNat

/-- The questions that an execution asks if every answer is yes and every call returns. -/
def phaseCount (operations : List SyncOperation) : ℕ :=
  ((chunks operationChunkSizePred operations).map chunkPhases).sum

section Runs

variable {W : Type} {s : Run W} {x : Executor W} {flush : Flush W} {answers : ℕ → Bool}

/-- The run between phases: it goes on after questions that were all answered yes, with phases
left to fill the total, or it was superseded by one of the questions. -/
def Progress (host : Host) (calendarId : String) (answers : ℕ → Bool) (total left : ℕ)
    (s : Run W) : Prop :=
  (∃ n, 0 < n ∧ n + left = total + 1 ∧ (∀ k, 0 < k → k < n → answers k = true) ∧
      Underway host calendarId [] n s) ∨
    ∃ n, 0 < n ∧ n ≤ total ∧ answers n = false ∧ Asked host calendarId answers n s

theorem Progress.of_not_stopped {host : Host} {calendarId : String} {total left : ℕ}
    (h : Progress host calendarId answers total left s) (hs : s.stopped = false) :
    ∃ n, 0 < n ∧ n + left = total + 1 ∧ (∀ k, 0 < k → k < n → answers k = true) ∧
      Underway host calendarId [] n s := by
  rcases h with h | ⟨n, -, -, ha, h⟩
  · exact h
  · simp [Run.stopped, h.superseded, ha] at hs

/-- A phase with operations fills one place of the total, a phase without none. -/
theorem Progress.phase {host : Host} {calendarId : String} {total left : ℕ} {empty : Bool}
    {phase : RunEffect W PUnit} {R : Failure → Run W → Prop}
    (h : Progress host calendarId answers total ((!empty).toNat + left) s)
    (hs : s.stopped = false)
    (hnone : empty = true → phase = pure ⟨⟩)
    (hphase : empty = false → ∀ n, Underway host calendarId [] n s →
      Effect.wp phase (fun _ => Asked host calendarId answers n) R s) :
    Effect.wp phase (fun _ => Progress host calendarId answers total left) R s := by
  obtain ⟨n, hpos, hn, hans, hu⟩ := h.of_not_stopped hs
  cases he : empty with
  | true =>
    rw [hnone he]
    subst he
    simp only [Bool.not_true, Bool.toNat_false, Nat.zero_add] at hn
    exact Or.inl ⟨n, hpos, hn, hans, hu⟩
  | false =>
    subst he
    simp only [Bool.not_false, Bool.toNat_true] at hn
    refine Effect.wp_mono (hphase rfl n hu) (fun _ s' hask => ?_) fun _ _ h => h
    cases ha : answers n with
    | false => exact Or.inr ⟨n, hpos, by omega, ha, hask⟩
    | true =>
      refine Or.inl ⟨n + 1, by omega, by omega, fun k hk hkn => ?_, hask.underway ha⟩
      rcases Nat.lt_succ_iff_lt_or_eq.1 hkn with hkn | rfl
      · exact hans k hk hkn
      · exact ha

variable (hcurrent : x.isCurrent = some answers)
  (hcheckpoint : x.checkpoint = some (flushCheckpoint x.provider flush))

include hcurrent hcheckpoint

theorem wp_executeChunk_progress {total left : ℕ} {chunk : List SyncOperation}
    (h : Progress x.host x.calendarId answers total (chunkPhases chunk + left) s)
    (hs : s.stopped = false) :
    Effect.wp (x.executeChunk chunk)
      (fun _ s' => Progress x.host x.calendarId answers total left s' ∨
        s'.stopped = true ∧ ∃ left', Progress x.host x.calendarId answers total left' s')
      (Failed x.host x.calendarId x.provider flush) s := by
  rw [chunkPhases, Nat.add_assoc, Nat.add_assoc] at h
  rw [executeChunk, Effect.wp_bind]
  refine Effect.wp_mono (h.phase hs ?_ ?_) (fun _ s1 h1 => ?_) fun _ _ h => h
  · intro he
    rw [executeRemoves, if_pos he]
  · intro he n hu
    exact wp_executeRemoves_asked hcurrent hcheckpoint hu (by simpa using he)
  refine wp_unlessStopped (fun hst => Or.inr ⟨hst, _, h1⟩) fun hs1 => ?_
  rw [Effect.wp_bind]
  refine Effect.wp_mono (h1.phase hs1 ?_ ?_) (fun _ s2 h2 => ?_) fun _ _ h => h
  · intro he
    rw [executeReplacements, if_pos he]
  · intro he n hu
    exact wp_executeReplacements_asked hcurrent hcheckpoint hu (by simpa using he)
  refine wp_unlessStopped (fun hst => Or.inr ⟨hst, _, h2⟩) fun hs2 => ?_
  refine Effect.wp_mono (h2.phase hs2 ?_ ?_) (fun _ s3 h3 => Or.inl h3) fun _ _ h => h
  · intro he
    rw [executeAdds, if_pos he]
  · intro he n hu
    exact wp_executeAdds_asked hcurrent hcheckpoint hu (by simpa using he)

/-- **A whole execution** asks until an answer is no or there are no phases left. -/
theorem wp_executeChunks_progress {total : ℕ} (chunks : List (List SyncOperation))
    (h : Progress x.host x.calendarId answers total (chunks.map chunkPhases).sum s) :
    Effect.wp (x.executeChunks chunks)
      (fun _ s' => ∃ left, Progress x.host x.calendarId answers total left s' ∧
        (left = 0 ∨ s'.stopped = true))
      (Failed x.host x.calendarId x.provider flush) s := by
  refine Effect.wp_forUntil (I := fun l s =>
    Progress x.host x.calendarId answers total (l.map chunkPhases).sum s ∨
      s.stopped = true ∧ ∃ left, Progress x.host x.calendarId answers total left s) ?_ ?_ _
    (Or.inl h)
  · rintro chunk l s (h | ⟨hst, -⟩) hs
    · rw [List.map_cons, List.sum_cons] at h
      exact wp_executeChunk_progress hcurrent hcheckpoint h hs
    · rw [hst] at hs
      cases hs
  · rintro l s (h | ⟨hst, left, h⟩) hend
    · rcases hend with rfl | hst
      · exact ⟨0, h, Or.inl rfl⟩
      · exact ⟨_, h, Or.inr hst⟩
    · exact ⟨left, h, Or.inr hst⟩

end Runs

/-! ## Whole runs -/

section Whole

variable {W : Type}

namespace SyncCalendarOptions

def trace (o : SyncCalendarOptions W) (world : W) : List Call :=
  (syncCalendar o ⟨world, []⟩).2.trace

/-- No question of the execution is answered no, or there is nothing to flush after it. -/
def StopsInTime (o : SyncCalendarOptions W) : Prop :=
  o.plan.mappingUpdates = [] ∨ o.answers 0 = false ∨
    ∀ k, 0 < k → k ≤ phaseCount o.plan.operations → o.answers k = true

end SyncCalendarOptions

/-- The traces of a run: it goes on to its end, a failure halts it, a no ends it, or a no is
followed by the flush of the mapping updates. -/
inductive RunTrace (o : SyncCalendarOptions W) : List Call → Prop
  | ongoing {t} (h : Ongoing o.host o.calendarId [] t) (hc : o.StopsInTime) : RunTrace o t
  | halted {t} (h : Halted o.host o.calendarId t) (hr : ¬ Returns o.provider o.flush) :
      RunTrace o t
  | superseded {t} (h : Ongoing o.host o.calendarId [] t) (hc : o.StopsInTime) :
      RunTrace o (t ++ [.isCurrent false])
  | flushedLate {t} (returned : Bool) (h : Ongoing o.host o.calendarId [] t)
      (hc : ¬ o.StopsInTime) :
      RunTrace o (t ++ [.isCurrent false,
        .flush { updates := some o.plan.mappingUpdates } returned])

theorem wp_executePlan (o : SyncCalendarOptions W) {io : Io W}
    (h : Ongoing o.host o.calendarId [] io.trace) (hn : currencyChecks io.trace = 1) :
    Effect.wp (executePlan o)
      (fun _ io' => (Ongoing o.host o.calendarId [] io'.trace ∧
          ∀ k, 0 < k → k ≤ phaseCount o.plan.operations → o.answers k = true) ∨
        (∃ k, 0 < k ∧ k ≤ phaseCount o.plan.operations ∧ o.answers k = false) ∧
          ∃ t, Ongoing o.host o.calendarId [] t ∧ io'.trace = t ++ [.isCurrent false])
      (fun _ io' => Halted o.host o.calendarId io'.trace ∧ ¬ Returns o.provider o.flush) io := by
  have hstart : Progress o.host o.calendarId o.answers (phaseCount o.plan.operations)
      (phaseCount o.plan.operations) (⟨io, {}⟩ : Run W) :=
    Or.inl ⟨1, Nat.one_pos, Nat.add_comm _ _, fun k hk hk1 => by omega, h, hn, rfl, rfl⟩
  have hcheckpoint : o.executor.checkpoint = some (flushCheckpoint o.executor.provider o.flush) := rfl
  have hrun := wp_executeChunks_progress (x := o.executor) rfl hcheckpoint
    (chunks operationChunkSizePred o.plan.operations) hstart
  unfold Effect.wp executePlan
  unfold Effect.wp at hrun
  change Effect.Post _ _ (executeRemoteOperations o.host o.plan.operations
    o.state.existingMappings o.calendarId o.provider (some o.answers)
    (some (flushCheckpoint o.provider o.flush)) io) at hrun
  rcases hr : executeRemoteOperations o.host o.plan.operations o.state.existingMappings
    o.calendarId o.provider (some o.answers) (some (flushCheckpoint o.provider o.flush)) io
    with ⟨e | a, run⟩ <;> rw [hr] at hrun
  · exact hrun
  · obtain ⟨left, hp, hend⟩ := hrun
    rcases hp with ⟨n, hpos, hn, hans, hu⟩ | ⟨n, hpos, hn, ha, hask⟩
    · rcases hend with rfl | hst
      · exact Or.inl ⟨hu.trace, fun k hk hkn => hans k hk (by omega)⟩
      · simp [Run.stopped, hu.superseded, hu.rejected] at hst
    · obtain ⟨t, ht, heq⟩ := hask.trace
      exact Or.inr ⟨⟨n, hpos, hn, ha⟩, t, ht, by rw [← ha]; exact heq⟩

theorem wp_flushMappingUpdates (o : SyncCalendarOptions W) {io : Io W}
    {Q : PUnit → Io W → Prop} {R : Failure → Io W → Prop}
    (hnone : o.plan.mappingUpdates = [] → Q ⟨⟩ io)
    (hok : o.plan.mappingUpdates ≠ [] → ∀ w, Q ⟨⟩
      ⟨w, io.trace ++ [.flush { updates := some o.plan.mappingUpdates } true]⟩)
    (herr : o.plan.mappingUpdates ≠ [] → ¬ Returns o.provider o.flush → ∀ e w, R e
      ⟨w, io.trace ++ [.flush { updates := some o.plan.mappingUpdates } false]⟩) :
    Effect.wp (flushMappingUpdates o) Q R io := by
  unfold flushMappingUpdates
  split
  · rename_i he
    exact hnone (List.isEmpty_iff.1 he)
  · rename_i he
    have hne : o.plan.mappingUpdates ≠ [] := by simpa using he
    unfold Effect.wp flushCall call
    rcases hf : o.flush { updates := some o.plan.mappingUpdates } io.world with ⟨e | ⟨⟨⟩⟩, w⟩
    · exact herr hne (fun hret => hret.flush _ _ _ _ hf) e w
    · exact hok hne w

/-- **The traces of whole runs.** -/
theorem syncCalendar_trace (o : SyncCalendarOptions W) (world : W) :
    RunTrace o (o.trace world) := by
  refine Effect.wp_state (I := fun io : Io W => RunTrace o io.trace) ?_
  rw [syncCalendar, Effect.wp_bind]
  change Effect.wp (if o.answers 0 = true then _ else _) _ _
    (⟨world, [.isCurrent (o.answers 0)]⟩ : Io W)
  cases ha : o.answers 0 with
  | false => exact .superseded .start (Or.inr (Or.inl ha))
  | true =>
    have hstart : Ongoing o.host o.calendarId [] [.isCurrent true] := Ongoing.start.current
    simp only [if_true]
    split
    · rename_i hquiet
      simp only [Bool.and_eq_true, List.isEmpty_iff] at hquiet
      exact .ongoing hstart (Or.inl hquiet.2)
    · rw [Effect.wp_bind]
      refine Effect.wp_mono (wp_executePlan o hstart rfl) (fun outcome io hio => ?_)
        fun e io hio => .halted hio.1 hio.2
      rw [Effect.wp_bind]
      rcases hio with ⟨ht, hall⟩ | ⟨hno, t, ht, heq⟩
      · have hc : o.StopsInTime := Or.inr (Or.inr hall)
        refine wp_flushMappingUpdates o (fun _ => .ongoing ht hc) (fun _ w => ?_) fun _ hr e w => ?_
        · exact .ongoing (ht.flush _ (List.nil_subset _)) hc
        · exact .halted (.flush _ ht (List.nil_subset _) rfl) hr
      · have hlate : o.plan.mappingUpdates ≠ [] → ¬ o.StopsInTime := by
          rintro hne (h | h | h)
          · exact hne h
          · rw [ha] at h
            cases h
          · obtain ⟨k, hpos, hk, hf⟩ := hno
            rw [h k hpos hk] at hf
            cases hf
        have hflush : ∀ b, o.plan.mappingUpdates ≠ [] →
            RunTrace o (io.trace ++ [.flush { updates := some o.plan.mappingUpdates } b]) := by
          intro b hne
          rw [heq, List.append_assoc]
          exact .flushedLate b ht (hlate hne)
        refine wp_flushMappingUpdates o (fun he => ?_) (fun hne w => hflush true hne)
          fun hne _ e w => hflush false hne
        change RunTrace o io.trace
        rw [heq]
        exact .superseded ht (Or.inl he)

end Whole

end Keeper
