import Keeper.Engine.Execution

/-!
# The copies that a run spares

A removal that waits in a later chunk may name a copy that the run has written in the meantime. The
execution remembers the uids of what it wrote and leaves such removals out.

* `wp_executeRemoves_grows`: the one call that the removals of a chunk make.
* `executeRemoteOperations_sparesWritten`: every chunk that a run executes removes all but what the run
  has written before.
-/

namespace Keeper

open JsArray

/-! ## Written copies -/

/-- The uids that a call has written: those of pushed events that have one, and those of replacements
that were updated in place, whose mappings no failed replacement of the call names. -/
def Call.written : Call → List String
  | .push adds (some results) =>
    (zipIndexed adds results).filterMap fun item =>
      (item.2.filter (·.success)).bind fun result => truthy result.remoteId
  | .update replacements (some results) =>
    let failed := ((zipIndexed replacements results).filterMap unresolvedOf).map (·.staleMappingId)
    (replacements.filter fun op => !failed.contains op.staleMappingId).map (·.uid)
  | _ => []

def written (calls : List Call) : List String := calls.flatMap Call.written

def Call.deletion : Call → Option (List RemoveOperation)
  | .delete removes _ => some removes
  | _ => none

def deletions (calls : List Call) : List (List RemoveOperation) := calls.filterMap Call.deletion

/-- A call that keeps the record of the copies: it flushes changes, or cleans up what could not be
recorded. -/
def Call.KeepsRecords : Call → Prop
  | .flush _ _ => True
  | .cleanup _ _ => True
  | _ => False

def Checkpoint.KeepsRecords {W : Type} (checkpoint : Checkpoint W) : Prop :=
  ∀ changes io, ∃ calls, (checkpoint.run changes io).2.trace = io.trace ++ calls ∧
    ∀ c ∈ calls, c.KeepsRecords

theorem written_append (l l' : List Call) : written (l ++ l') = written l ++ written l' :=
  List.flatMap_append

theorem deletions_append (l l' : List Call) : deletions (l ++ l') = deletions l ++ deletions l' :=
  List.filterMap_append

theorem Call.KeepsRecords.silent {c : Call} (h : c.KeepsRecords) :
    c.written = [] ∧ c.deletion = none := by
  cases c <;> first | exact ⟨rfl, rfl⟩ | cases h

theorem silent_of_keepsRecords {calls : List Call} (h : ∀ c ∈ calls, c.KeepsRecords) :
    written calls = [] ∧ deletions calls = [] :=
  ⟨List.flatMap_eq_nil_iff.2 fun c hc => (h c hc).silent.1,
    List.filterMap_eq_nil_iff.2 fun c hc => (h c hc).silent.2⟩

/-! ## What a part of a run adds -/

variable {W : Type}

/-- A part of a run has made these deletions, and the uids that it wrote are protected. -/
def Grows (deleted : List (List RemoveOperation)) (s s' : Run W) : Prop :=
  ∃ calls, s'.io.trace = s.io.trace ++ calls ∧ deletions calls = deleted ∧
    s'.state.protectedRemoteUids = s.state.protectedRemoteUids ++ written calls

theorem Grows.refl (s : Run W) : Grows [] s s :=
  ⟨[], (List.append_nil _).symm, rfl, (List.append_nil _).symm⟩

theorem Grows.trans {d d' : List (List RemoveOperation)} {s s' s'' : Run W} (h : Grows d s s')
    (h' : Grows d' s' s'') : Grows (d ++ d') s s'' := by
  obtain ⟨calls, htrace, hdeleted, hprotected⟩ := h
  obtain ⟨calls', htrace', hdeleted', hprotected'⟩ := h'
  refine ⟨calls ++ calls', ?_, ?_, ?_⟩
  · rw [htrace', htrace, List.append_assoc]
  · rw [deletions_append, hdeleted, hdeleted']
  · rw [hprotected', hprotected, written_append, List.append_assoc]

def GrowsOn (s s' : Run W) : Prop := ∃ deleted, Grows deleted s s'

theorem GrowsOn.refl (s : Run W) : GrowsOn s s := ⟨[], Grows.refl s⟩

theorem GrowsOn.trans {s s' s'' : Run W} (h : GrowsOn s s') (h' : GrowsOn s' s'') :
    GrowsOn s s'' := by
  obtain ⟨d, h⟩ := h
  obtain ⟨d', h'⟩ := h'
  exact ⟨d ++ d', h.trans h'⟩

namespace Executor

variable {x : Executor W} {s : Run W}

theorem grows_after {w : W} {c : Call} {state : ChunkedExecutionState}
    (h : state.protectedRemoteUids = s.state.protectedRemoteUids ++ c.written) :
    Grows c.deletion.toList s ⟨⟨w, s.io.trace ++ [c]⟩, state⟩ := by
  refine ⟨[c], rfl, ?_, ?_⟩
  · cases hc : c.deletion <;> simp [deletions, hc]
  · simpa [written] using h

section Quiet

variable (hquiet : ∀ c, x.checkpoint = some c → c.KeepsRecords)
include hquiet

/-- A checkpoint deletes nothing for operations and protects nothing. -/
theorem wp_checkpointRun_grows (changes : PendingChanges) :
    Effect.wp (x.checkpointRun changes) (fun _ s' => Grows [] s s') (fun _ s' => Grows [] s s') s := by
  unfold checkpointRun
  split
  · exact Grows.refl s
  · rename_i checkpoint hcheckpoint
    split
    · exact Grows.refl s
    · rw [Effect.wp_bind, onIo, Effect.wp_zoom]
      obtain ⟨calls, htrace, hcalls⟩ := hquiet checkpoint hcheckpoint changes s.io
      obtain ⟨hwritten, hdeleted⟩ := silent_of_keepsRecords hcalls
      unfold Effect.wp
      rcases hr : checkpoint.run changes s.io with ⟨e | b, io⟩ <;> rw [hr] at htrace
      · exact ⟨calls, htrace, hdeleted, by rw [hwritten, List.append_nil]⟩
      · cases b <;> exact ⟨calls, htrace, hdeleted, by rw [hwritten, List.append_nil]⟩

theorem wp_recordRun_grows {deleted : List (List RemoveOperation)} {s₀ : Run W}
    {runResult : RunResult}
    (h : Grows deleted s₀ { s with state := mergeRunResult runResult true s.state }) :
    Effect.wp (x.recordRun runResult) (fun _ s' => Grows deleted s₀ s')
      (fun _ s' => Grows deleted s₀ s') s := by
  rw [recordRun, Effect.wp_bind, onState, Effect.wp_modify]
  refine Effect.wp_mono (wp_checkpointRun_grows hquiet _) (fun _ s' h' => ?_) fun _ s' h' => ?_ <;>
  · have htrans := h.trans h'
    rwa [List.append_nil] at htrans

end Quiet

theorem wp_completePhase_grows {deleted : List (List RemoveOperation)} {s₀ : Run W} {count : ℕ}
    {R : Failure → Run W → Prop} (h : Grows deleted s₀ s) :
    Effect.wp (x.completePhase count) (fun _ s' => Grows deleted s₀ s') R s := by
  obtain ⟨calls, htrace, hdeleted, hprotected⟩ := h
  refine wp_completePhase ⟨calls, htrace, hdeleted, hprotected⟩ fun answer => ?_
  refine ⟨calls ++ [.isCurrent answer], ?_, ?_, ?_⟩
  · rw [htrace, List.append_assoc]
  · rw [deletions_append, hdeleted]
    exact List.append_nil _
  · rw [written_append]
    exact hprotected.trans (congrArg _ (List.append_nil _).symm)

/-! ## Phases -/

section Phases

variable (hquiet : ∀ c, x.checkpoint = some c → c.KeepsRecords)
include hquiet

/-- **The removals of a chunk** make one call, for those whose uids are not protected, or none. -/
theorem wp_executeRemoves_grows (removes : List RemoveOperation) :
    Effect.wp (x.executeRemoves removes)
      (fun _ s' => ∃ deleted, Grows deleted s s' ∧ deleted.flatten = actionable removes s)
      (fun _ s' => ∃ deleted, Grows deleted s s' ∧ deleted.flatten = actionable removes s) s := by
  unfold executeRemoves
  split_ifs with hempty
  · obtain rfl := List.isEmpty_iff.1 hempty
    exact ⟨[], Grows.refl s, rfl⟩
  · rw [Effect.wp_bind, Effect.wp_gets]
    split_ifs with hactionable
    · refine Effect.wp_mono (wp_completePhase_grows (Grows.refl s))
        (fun _ s' h => ⟨[], h, (List.isEmpty_iff.1 hactionable).symm⟩)
        fun _ s' (h : Grows [] s s') => ⟨[], h, (List.isEmpty_iff.1 hactionable).symm⟩
    · rw [Effect.wp_bind, executeRemoveRun, Effect.wp_bind]
      refine wp_onIo_call (fun results w _ => ?_) fun e w _ => ?_
      · rw [Effect.wp_pure, Effect.wp_bind]
        refine Effect.wp_mono (wp_recordRun_grows hquiet (grows_after ?_)) (fun b s' h => ?_)
          fun _ s' h => ⟨_, h, List.flatten_singleton⟩
        · rfl
        · cases b with
          | false => exact ⟨_, h, List.flatten_singleton⟩
          | true =>
            exact Effect.wp_mono (wp_completePhase_grows h) (fun _ _ h => ⟨_, h, List.flatten_singleton⟩)
              fun _ _ h => h
      · exact ⟨[actionable removes s], grows_after (List.append_nil _).symm, by simp⟩

theorem wp_addRun_grows (adds : List AddOperation) :
    Effect.wp (do
      let runResult ← x.executeAddRun adds
      x.recordRun runResult) (fun _ s' => GrowsOn s s') (fun _ s' => GrowsOn s s') s := by
  rw [Effect.wp_bind, executeAddRun, Effect.wp_bind]
  refine wp_onIo_call (fun results w _ => ?_) fun e w _ =>
    ⟨[], grows_after (List.append_nil _).symm⟩
  rw [Effect.wp_pure]
  refine Effect.wp_mono (wp_recordRun_grows hquiet (grows_after ?_)) (fun _ _ h => ⟨_, h⟩)
    fun _ _ h => ⟨_, h⟩
  have hinserts : (processAddResults x.host adds results x.calendarId).inserts.map
      (·.destinationEventUid) = (Call.push adds (some results)).written := by
    rw [inserts_processAddResults, List.map_filterMap]
    refine List.filterMap_congr fun item _ => ?_
    unfold insertOf
    cases item.2.filter (·.success) with
    | none => rfl
    | some result => cases hid : truthy result.remoteId <;> simp [hid, pendingInsert]
  exact congrArg (s.state.protectedRemoteUids ++ ·) hinserts

theorem wp_executeAdds_grows (adds : List AddOperation) :
    Effect.wp (x.executeAdds adds) (fun _ s' => GrowsOn s s') (fun _ s' => GrowsOn s s') s := by
  unfold executeAdds
  split_ifs
  · exact GrowsOn.refl s
  · have hrun := wp_addRun_grows hquiet (s := s) adds
    rw [Effect.wp_bind] at hrun ⊢
    refine Effect.wp_mono hrun (fun runResult s' h => ?_) fun _ _ h => h
    rw [Effect.wp_bind]
    refine Effect.wp_mono h (fun b s'' h => ?_) fun _ _ h => h
    obtain ⟨deleted, h⟩ := h
    cases b with
    | false => exact ⟨deleted, h⟩
    | true =>
      exact Effect.wp_mono (wp_completePhase_grows h) (fun _ _ h => ⟨_, h⟩) fun _ _ h => h

theorem wp_replaceViaDeleteThenAdd_grows (replacements : List ReplaceOperation) :
    Effect.wp (x.replaceViaDeleteThenAdd replacements) (fun _ s' => GrowsOn s s')
      (fun _ s' => GrowsOn s s') s := by
  unfold replaceViaDeleteThenAdd
  rw [Effect.wp_bind]
  refine wp_onIo_call (fun results w _ => ?_) fun e w _ =>
    ⟨_, grows_after (List.append_nil _).symm⟩
  rw [Effect.wp_bind, onState, Effect.wp_modify]
  have hadds : ∀ s', GrowsOn s s' → Effect.wp
      (if (additionsOf replacements results).isEmpty then pure true
      else do
        let addResult ← x.executeAddRun (additionsOf replacements results)
        x.recordRun addResult) (fun _ s' => GrowsOn s s') (fun _ s' => GrowsOn s s') s' := by
    intro s' h
    split_ifs
    · exact h
    · exact Effect.wp_mono (wp_addRun_grows hquiet _) (fun _ _ h' => h.trans h')
        fun _ _ h' => h.trans h'
  exact hadds _ ⟨_, grows_after (List.append_nil _).symm⟩

/-- Replacements in place: the uids of what was updated are protected. -/
theorem wp_replaceInPlace_grows (replacements : List ReplaceOperation)
    (updateEvents : List EventUpdate → Effect Failure W (List PushResult)) :
    Effect.wp (x.replaceInPlace replacements updateEvents) (fun _ s' => GrowsOn s s')
      (fun _ s' => GrowsOn s s') s := by
  unfold replaceInPlace
  rw [Effect.wp_bind, executeUpdateRun, Effect.wp_bind]
  refine wp_onIo_call (fun results w _ => ?_) fun e w _ =>
    ⟨[], grows_after (List.append_nil _).symm⟩
  rw [Effect.wp_pure]
  dsimp only
  rw [Effect.wp_bind, onState, Effect.wp_modify, Effect.wp_bind, onState, Effect.wp_modify,
    Effect.wp_bind]
  have hupdated : ∀ state : ChunkedExecutionState, state.protectedRemoteUids =
      s.state.protectedRemoteUids ++ [] → Grows [] s
        ⟨⟨w, s.io.trace ++ [.update replacements (some results)]⟩, protectUpdated replacements
          (processUpdateResults x.host replacements results).unresolved state⟩ := by
    intro state hstate
    refine grows_after ?_
    rw [protectUpdated, hstate, List.append_nil, unresolved_processUpdateResults]
    rfl
  refine Effect.wp_mono (wp_checkpointRun_grows hquiet _) (fun b s' h => ?_) fun _ s' h => ?_
  · have hgrows : GrowsOn s s' := ⟨_, (hupdated _ rfl).trans h⟩
    cases b with
    | false => exact hgrows
    | true =>
      rw [if_pos rfl]
      split_ifs
      · exact hgrows
      · exact Effect.wp_mono (wp_replaceViaDeleteThenAdd_grows hquiet _)
          (fun _ _ h' => hgrows.trans h') fun _ _ h' => hgrows.trans h'
  · exact ⟨_, (hupdated _ rfl).trans h⟩

theorem wp_executeReplacements_grows (replacements : List ReplaceOperation) :
    Effect.wp (x.executeReplacements replacements) (fun _ s' => GrowsOn s s')
      (fun _ s' => GrowsOn s s') s := by
  have hcopies : Effect.wp (x.replaceCopies replacements) (fun _ s' => GrowsOn s s')
      (fun _ s' => GrowsOn s s') s := by
    unfold replaceCopies
    split
    · exact wp_replaceInPlace_grows hquiet _ _
    · exact wp_replaceViaDeleteThenAdd_grows hquiet _
  unfold executeReplacements
  split_ifs
  · exact GrowsOn.refl s
  · rw [Effect.wp_bind]
    refine Effect.wp_mono hcopies (fun b s' h => ?_) fun _ _ h => h
    obtain ⟨deleted, h⟩ := h
    cases b with
    | false => exact ⟨deleted, h⟩
    | true =>
      exact Effect.wp_mono (wp_completePhase_grows h) (fun _ _ h => ⟨_, h⟩) fun _ _ h => h

theorem wp_executeChunk_grows (chunk : List SyncOperation) :
    Effect.wp (x.executeChunk chunk) (fun _ s' => GrowsOn s s') (fun _ s' => GrowsOn s s') s := by
  rw [executeChunk, Effect.wp_bind]
  refine Effect.wp_mono (wp_executeRemoves_grows hquiet _) ?_ (by rintro _ _ ⟨d, h, -⟩; exact ⟨d, h⟩)
  rintro - s₁ ⟨d, h₁, -⟩
  have h₁ : GrowsOn s s₁ := ⟨d, h₁⟩
  refine wp_unlessStopped (fun _ => h₁) fun _ => ?_
  rw [Effect.wp_bind]
  refine Effect.wp_mono (wp_executeReplacements_grows hquiet _) ?_ fun _ _ h => h₁.trans h
  rintro - s₂ h₂
  refine wp_unlessStopped (fun _ => h₁.trans h₂) fun _ => ?_
  exact Effect.wp_mono (wp_executeAdds_grows hquiet _) (fun _ _ h => (h₁.trans h₂).trans h)
    fun _ _ h => (h₁.trans h₂).trans h

end Phases

/-! ## Chunks -/

/-- The chunks that a run executes, each with the run at its start. -/
def chunkStarts (x : Executor W) :
    List (List SyncOperation) → Run W → List (List SyncOperation × Run W)
  | [], _ => []
  | chunk :: chunks, s =>
    if s.stopped then []
    else (chunk, s) ::
      match x.executeChunk chunk s with
      | (.ok _, s') => chunkStarts x chunks s'
      | (.error _, _) => []

theorem chunkStarts_prefix (chunks : List (List SyncOperation)) (s : Run W) :
    (x.chunkStarts chunks s).map (·.1) <+: chunks := by
  induction chunks generalizing s with
  | nil => exact List.prefix_rfl
  | cons chunk chunks ih =>
    rw [chunkStarts]
    split_ifs
    · exact List.nil_prefix
    · rw [List.map_cons, List.prefix_cons_inj]
      split
      · exact ih _
      · exact List.nil_prefix

theorem run_executeChunks (chunks : List (List SyncOperation)) (s : Run W) :
    (x.executeChunks chunks s).2 =
      ((x.chunkStarts chunks s).getLast?.map fun start =>
        (x.executeChunk start.1 start.2).2).getD s := by
  induction chunks generalizing s with
  | nil => rfl
  | cons chunk chunks ih =>
    have hgets : (Effect.gets Run.stopped : RunEffect W Bool) s = (.ok s.stopped, s) := rfl
    rw [executeChunks, Effect.forUntil, Effect.run_bind hgets, chunkStarts]
    cases s.stopped with
    | true => rfl
    | false =>
      rw [if_neg Bool.false_ne_true, if_neg Bool.false_ne_true, List.getLast?_cons]
      rcases hchunk : x.executeChunk chunk s with ⟨e | u, s'⟩
      · rw [Effect.run_bind_error hchunk]
        simp [hchunk]
      · rw [Effect.run_bind hchunk]
        refine (ih s').trans ?_
        cases (x.chunkStarts chunks s').getLast? with
        | none => simp [hchunk]
        | some start => rfl

/-- At the start of each chunk the state protects what the run has written. -/
theorem exists_written_of_mem_chunkStarts (hquiet : ∀ c, x.checkpoint = some c → c.KeepsRecords)
    {chunks : List (List SyncOperation)} {s s₀ : Run W} (hs : GrowsOn s₀ s)
    {start : List SyncOperation × Run W} (hstart : start ∈ x.chunkStarts chunks s) :
    GrowsOn s₀ start.2 := by
  induction chunks generalizing s with
  | nil => cases hstart
  | cons chunk chunks ih =>
    rw [chunkStarts] at hstart
    split_ifs at hstart
    · cases hstart
    · rcases List.mem_cons.1 hstart with rfl | hstart
      · exact hs
      · have hchunk := wp_executeChunk_grows hquiet (s := s) chunk
        unfold Effect.wp at hchunk
        split at hstart
        · rename_i u s' hrun
          rw [hrun] at hchunk
          exact ih (hs.trans hchunk) hstart
        · cases hstart

end Executor

/-- **No run deletes what it has written.** The run executes the first chunks one after the other. What it
deletes for the removals of a chunk are those whose uids it has not written before, each one once. -/
theorem executeRemoteOperations_sparesWritten (host : Host) (operations : List SyncOperation)
    (existingMappings : List EventMapping) (calendarId : String)
    (provider : CalendarSyncProvider W) (isCurrent : Option (ℕ → Bool))
    (checkpoint : Option (Checkpoint W)) (hquiet : ∀ c, checkpoint = some c → c.KeepsRecords)
    (io : Io W) :
    let x := executorOf host existingMappings calendarId provider isCurrent checkpoint
    let starts := x.chunkStarts (chunks operationChunkSizePred operations) ⟨io, {}⟩
    starts.map (·.1) <+: chunks operationChunkSizePred operations ∧
      (executeRemoteOperations host operations existingMappings calendarId provider isCurrent
        checkpoint io).2 = (starts.getLast?.map fun start =>
          (x.executeChunk start.1 start.2).2).getD ⟨io, {}⟩ ∧
      ∀ start ∈ starts, ∃ earlier calls, start.2.io.trace = io.trace ++ earlier ∧
        (x.executeRemoves (removesOf start.1) start.2).2.io.trace = start.2.io.trace ++ calls ∧
        (deletions calls).flatten =
          (removesOf start.1).filter fun op => !(written earlier).contains op.uid := by
  intro x starts
  refine ⟨Executor.chunkStarts_prefix _ _, Executor.run_executeChunks _ _, fun start hstart => ?_⟩
  obtain ⟨-, earlier, htrace, -, hprotected⟩ :=
    Executor.exists_written_of_mem_chunkStarts hquiet (GrowsOn.refl _) hstart
  obtain ⟨deleted, ⟨calls, hcalls, hdeletions, -⟩, hflatten⟩ := Effect.wp_state
    (Executor.wp_executeRemoves_grows (s := start.2) (x := x) hquiet (removesOf start.1))
  refine ⟨earlier, calls, htrace, hcalls, ?_⟩
  rw [hdeletions, hflatten, Executor.actionable, hprotected]
  rfl

/-! ## A run -/

/-- The uids of successful pushes and of replacements that were updated in place. -/
def Call.succeeded : Call → List String
  | .push adds (some results) =>
    (zipIndexed adds results).filterMap fun item => (item.2.filter (·.success)).bind (·.remoteId)
  | .update replacements (some results) =>
    (zipIndexed replacements results).filterMap fun item =>
      (item.2.filter (·.success)).map fun _ => item.1.uid
  | _ => []

namespace Example

/-- A provider that pushes without a uid and updates the first copy only. -/
def forgetfulProvider : CalendarSyncProvider Unit where
  pushEvents events w := (.ok (events.map fun _ => { success := true, remoteId := some "" }), w)
  updateEvents := some fun _ w => (.ok [{ success := true }], w)
  deleteEvents ids w := (.ok (ids.map fun _ => { success := true }), w)

/-- Two replacements of one mapping and additions fill the first chunk; two removals wait. -/
def waitingRemovals : List SyncOperation :=
  [.replace { event := event "e1" 0, staleMappingId := "m", uid := "a", deleteId := "a" },
      .replace { event := event "e2" 0, staleMappingId := "m", uid := "b", deleteId := "b" }] ++
    List.replicate 48 (.add { event := event "e3" 0 }) ++
    [.remove { uid := "a", deleteId := "a", startTime := 0 },
      .remove { uid := "", deleteId := "", startTime := 0 }]

abbrev forgetfulExecutor : Executor Unit := executorOf host [] "c" forgetfulProvider none none

end Example

theorem executeRemoteOperations_sparesWritten_example :
    (Example.forgetfulExecutor.chunkStarts (chunks operationChunkSizePred Example.waitingRemovals)
        ⟨⟨(), []⟩, {}⟩).map (·.1) <+: chunks operationChunkSizePred Example.waitingRemovals ∧
      ∀ start ∈ Example.forgetfulExecutor.chunkStarts
          (chunks operationChunkSizePred Example.waitingRemovals) ⟨⟨(), []⟩, {}⟩,
        ∃ earlier calls, start.2.io.trace = [] ++ earlier ∧
          (Example.forgetfulExecutor.executeRemoves (removesOf start.1) start.2).2.io.trace =
            start.2.io.trace ++ calls ∧
          (deletions calls).flatten =
            (removesOf start.1).filter fun op => !(written earlier).contains op.uid := by
  have h := executeRemoteOperations_sparesWritten Example.host Example.waitingRemovals [] "c"
    Example.forgetfulProvider none none (fun _ h => by cases h) ⟨(), []⟩
  exact ⟨h.1, h.2.2⟩

/-- **Some writes are not spared**: a push that succeeds with an empty uid, and a replacement that was
updated in place beside a failed one of the same mapping. -/
theorem not_sparesSucceeded :
    ∃ start ∈ Example.forgetfulExecutor.chunkStarts
        (chunks operationChunkSizePred Example.waitingRemovals) ⟨⟨(), []⟩, {}⟩,
      ∃ calls, (Example.forgetfulExecutor.executeRemoves (removesOf start.1) start.2).2.io.trace =
          start.2.io.trace ++ calls ∧
        (deletions calls).flatten.map (·.uid) = ["a", ""] ∧
        "a" ∈ start.2.io.trace.flatMap Call.succeeded ∧
        "" ∈ start.2.io.trace.flatMap Call.succeeded := by
  refine ⟨_, List.mem_of_getElem? (rfl : (Example.forgetfulExecutor.chunkStarts
    (chunks operationChunkSizePred Example.waitingRemovals) ⟨⟨(), []⟩, {}⟩)[1]? = some _), ?_⟩
  refine ⟨[.delete [{ uid := "a", deleteId := "a", startTime := 0 },
    { uid := "", deleteId := "", startTime := 0 }] (some [{ success := true }, { success := true }])],
    rfl, rfl, ?_, ?_⟩
  · exact List.mem_of_getElem? (rfl : _[0]? = some "a")
  · exact List.mem_of_getElem? (rfl : _[1]? = some "")

end Keeper
