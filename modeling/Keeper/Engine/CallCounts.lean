import Keeper.Engine.SyncCalendar

/-!
# What the counts of a run say of its calls

The verdict on a run is read off its counts. They show that a provider reported a success, or a refusal, of
an operation that was counted, and that an operation which is gone from the plan was one or the other.

* `added_processAddResults` and its companions: the counts of a batch, item by item.
* `phaseInvariant_tallied`: the counts of an execution are those of its trace.
* `wp_syncCalendar_reported`: what a run reports, and what holds where it fails.
-/

namespace Keeper

open JsArray Executor

/-! ## Reports -/

def namedCopy (item : AddOperation × Option PushResult) : Option String :=
  (item.2.filter (·.success)).bind fun result => truthy result.remoteId

namespace Call

def Succeeds : Call → Prop
  | .push adds (some results) => ∃ item ∈ zipIndexed adds results, item.2.any (·.success) = true
  | .update replacements (some results) =>
    ∃ item ∈ zipIndexed replacements results, item.2.any (·.success) = true
  | .delete removes (some results) => ∃ item ∈ zipIndexed removes results, item.2.any (·.success) = true
  | _ => False

/-- The provider reports a success that is counted: a push counts where its copy is named. -/
def IsCounted : Call → Prop
  | .push adds (some results) => ∃ item ∈ zipIndexed adds results, (namedCopy item).isSome = true
  | .update replacements (some results) =>
    ∃ item ∈ zipIndexed replacements results, item.2.any (·.success) = true
  | .delete removes (some results) => ∃ item ∈ zipIndexed removes results, item.2.any (·.success) = true
  | _ => False

/-- The provider refuses an operation, and that is counted: what is not updated in place is still deleted and
added. -/
def IsRefused : Call → Prop
  | .push adds (some results) => ∃ item ∈ zipIndexed adds results, item.2.any (·.success) = false
  | .delete removes (some results) => ∃ item ∈ zipIndexed removes results, item.2.any (·.success) = false
  | _ => False

theorem IsCounted.succeeds {c : Call} (h : c.IsCounted) : c.Succeeds := by
  cases c with
  | push adds results =>
    cases results with
    | none => exact h
    | some results =>
      obtain ⟨⟨add, result⟩, hmem, hcopy⟩ := h
      refine ⟨_, hmem, ?_⟩
      cases result with
      | none => cases hcopy
      | some result =>
        cases hsuccess : result.success with
        | false => simp [namedCopy, Option.filter, hsuccess] at hcopy
        | true => exact hsuccess
  | update replacements results => cases results <;> exact h
  | delete removes results => cases results <;> exact h
  | cleanup inserts results => exact h
  | isCurrent answer => exact h
  | flush changes returned => exact h

end Call

def Evident (trace : List Call) : Prop := ∃ c ∈ trace, c.Succeeds ∨ c.IsRefused

theorem Evident.mono {trace trace' : List Call} (h : Evident trace) (ht : trace <+: trace') :
    Evident trace' := by
  obtain ⟨c, hc, hreport⟩ := h
  exact ⟨c, ht.subset hc, hreport⟩

theorem exists_item {α β : Type} {l : List α} (h : l ≠ []) (results : List β) :
    ∃ item, item ∈ zipIndexed l results := by
  obtain ⟨a, ha⟩ := List.exists_mem_of_ne_nil l h
  rw [← map_fst_zipIndexed l results] at ha
  obtain ⟨item, hitem, -⟩ := List.mem_map.1 ha
  exact ⟨item, hitem⟩

theorem evident_push {adds : List AddOperation} (h : adds ≠ []) (results : List PushResult)
    (trace : List Call) : Evident (trace ++ [.push adds (some results)]) := by
  obtain ⟨item, hitem⟩ := exists_item h results
  refine ⟨_, List.mem_append_right _ (List.mem_singleton_self _), ?_⟩
  cases hsuccess : item.2.any (·.success) with
  | true => exact Or.inl ⟨item, hitem, hsuccess⟩
  | false => exact Or.inr ⟨item, hitem, hsuccess⟩

theorem evident_delete {removes : List RemoveOperation} (h : removes ≠ []) (results : List DeleteResult)
    (trace : List Call) : Evident (trace ++ [.delete removes (some results)]) := by
  obtain ⟨item, hitem⟩ := exists_item h results
  refine ⟨_, List.mem_append_right _ (List.mem_singleton_self _), ?_⟩
  cases hsuccess : item.2.any (·.success) with
  | true => exact Or.inl ⟨item, hitem, hsuccess⟩
  | false => exact Or.inr ⟨item, hitem, hsuccess⟩

/-! ## Counts of a batch -/

theorem any_eq_false_of_filter {α : Type} {p : α → Bool} {o : Option α} (h : o.filter p = none) :
    o.any p = false := by
  cases o with
  | none => rfl
  | some a => simpa [Option.filter] using h

theorem foldl_processAddResult_counts (host : Host) (calendarId : String)
    (items : List (AddOperation × Option PushResult)) (acc : AddResults) :
    let after := items.foldl (processAddResult host calendarId) acc
    after.added = acc.added + items.countP (fun item => (namedCopy item).isSome) ∧
      after.addFailed = acc.addFailed + items.countP (fun item => !item.2.any (·.success)) ∧
      after.conflictsResolved ≤
        acc.conflictsResolved + items.countP (fun item => (namedCopy item).isSome) := by
  induction items generalizing acc with
  | nil => simp
  | cons item items ih =>
    obtain ⟨hadded, hfailed, hconflicts⟩ := ih (processAddResult host calendarId acc item)
    obtain ⟨add, result⟩ := item
    dsimp only at hadded hfailed hconflicts ⊢
    rw [List.foldl_cons, List.countP_cons, List.countP_cons]
    cases hfilter : result.filter (·.success) with
    | none =>
      have hany := any_eq_false_of_filter hfilter
      simp only [processAddResult, hfilter, namedCopy, hany] at hadded hfailed hconflicts ⊢
      refine ⟨?_, ?_, ?_⟩ <;> simp <;> omega
    | some found =>
      obtain ⟨rfl, hsuccess⟩ := Option.filter_eq_some_iff.1 hfilter
      cases hid : truthy found.remoteId with
      | none =>
        simp only [processAddResult, hfilter, hid, namedCopy, Option.any_some, hsuccess]
          at hadded hfailed hconflicts ⊢
        refine ⟨?_, ?_, ?_⟩ <;> simp [hid] <;> omega
      | some remoteId =>
        simp only [processAddResult, hfilter, hid, namedCopy, Option.any_some, hsuccess]
          at hadded hfailed hconflicts ⊢
        have hbool := Bool.toNat_le (found.conflictResolved == some true)
        refine ⟨?_, ?_, ?_⟩ <;> simp [hid] <;> omega

theorem processAddResults_counts (host : Host) (adds : List AddOperation) (results : List PushResult)
    (calendarId : String) :
    let processed := processAddResults host adds results calendarId
    (0 < processed.added + processed.conflictsResolved ↔
        (Call.push adds (some results)).IsCounted) ∧
      (0 < processed.addFailed ↔ (Call.push adds (some results)).IsRefused) := by
  obtain ⟨hadded, hfailed, hconflicts⟩ :=
    foldl_processAddResult_counts host calendarId (zipIndexed adds results) {}
  rw [Nat.zero_add] at hadded hfailed hconflicts
  change (processAddResults host adds results calendarId).added = _ at hadded
  change (processAddResults host adds results calendarId).addFailed = _ at hfailed
  change (processAddResults host adds results calendarId).conflictsResolved ≤ _ at hconflicts
  constructor
  · refine Iff.trans ?_ List.countP_pos_iff
    omega
  · rw [hfailed]
    refine List.countP_pos_iff.trans ?_
    simp [Call.IsRefused]

theorem foldl_processUpdateResult_counts (host : Host)
    (items : List (ReplaceOperation × Option PushResult)) (acc : UpdateResults) :
    let after := items.foldl (processUpdateResult host) acc
    after.updated = acc.updated + items.countP (fun item => item.2.any (·.success)) ∧
      after.conflictsResolved ≤
        acc.conflictsResolved + items.countP (fun item => item.2.any (·.success)) := by
  induction items generalizing acc with
  | nil => simp
  | cons item items ih =>
    obtain ⟨hupdated, hconflicts⟩ := ih (processUpdateResult host acc item)
    obtain ⟨op, result⟩ := item
    dsimp only at hupdated hconflicts ⊢
    rw [List.foldl_cons, List.countP_cons]
    cases hfilter : result.filter (·.success) with
    | none =>
      have hany := any_eq_false_of_filter hfilter
      simp only [processUpdateResult, hfilter, hany] at hupdated hconflicts ⊢
      constructor <;> simp <;> omega
    | some found =>
      obtain ⟨rfl, hsuccess⟩ := Option.filter_eq_some_iff.1 hfilter
      simp only [processUpdateResult, hfilter, Option.any_some, hsuccess, if_true]
        at hupdated hconflicts ⊢
      have hbool := Bool.toNat_le (found.conflictResolved == some true)
      constructor <;> omega

theorem processUpdateResults_counts (host : Host) (replacements : List ReplaceOperation)
    (results : List PushResult) :
    let processed := processUpdateResults host replacements results
    0 < processed.updated + processed.conflictsResolved ↔
      (Call.update replacements (some results)).IsCounted := by
  obtain ⟨hupdated, hconflicts⟩ :=
    foldl_processUpdateResult_counts host (zipIndexed replacements results) {}
  rw [Nat.zero_add] at hupdated hconflicts
  change (processUpdateResults host replacements results).updated = _ at hupdated
  change (processUpdateResults host replacements results).conflictsResolved ≤ _ at hconflicts
  refine Iff.trans ?_ List.countP_pos_iff
  omega

theorem foldl_processDeleteResult_counts (byIdentity : JsMap String EventMapping)
    (items : List (RemoveOperation × Option DeleteResult)) (acc : DeleteResults) :
    let after := items.foldl (processDeleteResult byIdentity) acc
    after.removed = acc.removed + items.countP (fun item => item.2.any (·.success)) ∧
      after.removeFailed = acc.removeFailed + items.countP (fun item => !item.2.any (·.success)) := by
  induction items generalizing acc with
  | nil => simp
  | cons item items ih =>
    obtain ⟨hremoved, hfailed⟩ := ih (processDeleteResult byIdentity acc item)
    obtain ⟨op, result⟩ := item
    dsimp only at hremoved hfailed ⊢
    rw [List.foldl_cons, List.countP_cons, List.countP_cons]
    cases hfilter : result.filter (·.success) with
    | none =>
      have hany := any_eq_false_of_filter hfilter
      simp only [processDeleteResult, hfilter, hany] at hremoved hfailed ⊢
      constructor <;> simp <;> omega
    | some found =>
      obtain ⟨rfl, hsuccess⟩ := Option.filter_eq_some_iff.1 hfilter
      simp only [processDeleteResult, hfilter, Option.any_some, hsuccess] at hremoved hfailed ⊢
      constructor <;> simp <;> omega

theorem processDeleteResults_counts (removes : List RemoveOperation) (results : List DeleteResult)
    (byIdentity : JsMap String EventMapping) :
    let processed := processDeleteResults removes results byIdentity
    (0 < processed.removed ↔ (Call.delete removes (some results)).IsCounted) ∧
      (0 < processed.removeFailed ↔ (Call.delete removes (some results)).IsRefused) := by
  obtain ⟨hremoved, hfailed⟩ :=
    foldl_processDeleteResult_counts byIdentity (zipIndexed removes results) {}
  rw [Nat.zero_add] at hremoved hfailed
  change (processDeleteResults removes results byIdentity).removed = _ at hremoved
  change (processDeleteResults removes results byIdentity).removeFailed = _ at hfailed
  constructor
  · rw [hremoved]
    exact List.countP_pos_iff
  · rw [hfailed]
    refine List.countP_pos_iff.trans ?_
    simp [Call.IsRefused]

/-! ## The tally -/

section Tally

variable {W : Type} {answers : ℕ → Bool} {flush : Flush W} {x : Executor W} {s : Run W}
  {R : Failure → Run W → Prop}

/-- The counts and flags of a run are those of its trace. -/
structure Tallied (answers : ℕ → Bool) (s : Run W) : Prop where
  counted : 0 < s.state.result.added + s.state.result.removed + s.state.conflictsResolved ↔
    ∃ c ∈ s.io.trace, c.IsCounted
  refused : 0 < s.state.result.addFailed + s.state.result.removeFailed ↔
    ∃ c ∈ s.io.trace, c.IsRefused
  written : s.state.protectedRemoteUids ≠ [] → ∃ c ∈ s.io.trace, c.IsCounted
  answered : ∀ k, 0 < k → k < currencyChecks s.io.trace →
    answers k = true ∨ k + 1 = currencyChecks s.io.trace ∧ s.state.superseded = true
  refusedBy : s.state.superseded = true → ∃ k < currencyChecks s.io.trace, answers k = false
  superseded : s.state.superseded = true ↔ Call.isCurrent false ∈ s.io.trace
  rejected : s.state.checkpointRejected = false
  flushed : ∀ changes, Call.flush changes false ∉ s.io.trace

/-- A call with which no question is asked and no flush fails. -/
def Call.IsPlain : Call → Prop
  | .isCurrent _ => False
  | .flush _ returned => returned = true
  | _ => True

theorem Call.IsPlain.checks {c : Call} (h : c.IsPlain) : currencyChecks [c] = 0 := by
  cases c with
  | isCurrent answer => exact absurd h id
  | _ => rfl

theorem exists_mem_append_singleton {α : Type} {P : α → Prop} {l : List α} {a : α} :
    (∃ b ∈ l ++ [a], P b) ↔ (∃ b ∈ l, P b) ∨ P a := by
  simp only [List.mem_append, List.mem_singleton, or_and_right, exists_or, exists_eq_left]

/-- **A batch** is tallied with its call. -/
theorem Tallied.batch (h : Tallied answers s) {c : Call} (w : W) (runResult : RunResult)
    (includeChanges : Bool) (hplain : c.IsPlain)
    (hcounted : 0 < runResult.result.added + runResult.result.removed + runResult.conflictsResolved ↔
      c.IsCounted)
    (hrefused : 0 < runResult.result.addFailed + runResult.result.removeFailed ↔ c.IsRefused)
    (hwritten : runResult.changes.inserts ≠ [] → c.IsCounted) :
    Tallied answers { s.after w c with state := mergeRunResult runResult includeChanges s.state } where
  counted := by
    refine Iff.trans ?_ exists_mem_append_singleton.symm
    rw [← h.counted, ← hcounted]
    dsimp only [mergeRunResult]
    omega
  refused := by
    refine Iff.trans ?_ exists_mem_append_singleton.symm
    rw [← h.refused, ← hrefused]
    dsimp only [mergeRunResult]
    omega
  written hne := by
    refine exists_mem_append_singleton.2 ?_
    by_cases hold : s.state.protectedRemoteUids = []
    · refine Or.inr (hwritten fun hnone => hne ?_)
      cases includeChanges <;> simp [mergeRunResult, hold, hnone]
    · exact Or.inl (h.written hold)
  answered k hk hlt := by
    dsimp only [Run.after] at hlt ⊢
    rw [currencyChecks_append, hplain.checks, Nat.add_zero] at hlt ⊢
    exact h.answered k hk hlt
  refusedBy hno := by
    dsimp only [Run.after]
    rw [currencyChecks_append, hplain.checks, Nat.add_zero]
    exact h.refusedBy hno
  superseded := by
    refine Iff.trans h.superseded ?_
    rw [Run.after, List.mem_append, List.mem_singleton]
    refine ⟨Or.inl, fun hmem => hmem.resolve_right ?_⟩
    rintro rfl
    exact hplain
  rejected := h.rejected
  flushed changes hmem := by
    rcases List.mem_append.1 hmem with hmem | hmem
    · exact h.flushed changes hmem
    · obtain rfl := List.mem_singleton.1 hmem
      cases hplain

theorem Tallied.quiet (h : Tallied answers s) {c : Call} (w : W) (hplain : c.IsPlain)
    (hcounted : ¬ c.IsCounted) (hrefused : ¬ c.IsRefused) : Tallied answers (s.after w c) := by
  have hbatch := h.batch w ⟨{}, {}, 0, [], none⟩ false hplain
    ⟨fun hlt => absurd hlt (lt_irrefl 0), fun hc => absurd hc hcounted⟩
    ⟨fun hlt => absurd hlt (lt_irrefl 0), fun hc => absurd hc hrefused⟩ fun hne => absurd rfl hne
  exact ⟨hbatch.counted, hbatch.refused, hbatch.written, hbatch.answered, hbatch.refusedBy,
    hbatch.superseded, hbatch.rejected, hbatch.flushed⟩

structure Going (answers : ℕ → Bool) (s : Run W) : Prop extends Tallied answers s where
  current : s.state.superseded = false

/-- Every question since the first was answered yes. -/
def StillCurrent (answers : ℕ → Bool) (trace : List Call) : Prop :=
  ∀ k, 0 < k → k < currencyChecks trace → answers k = true

theorem Going.stillCurrent (h : Going answers s) : StillCurrent answers s.io.trace := by
  intro k hk hlt
  refine (h.answered k hk hlt).resolve_right fun hno => ?_
  rw [h.current] at hno
  cases hno.2

theorem StillCurrent.append {trace : List Call} (h : StillCurrent answers trace) {calls : List Call}
    (hcalls : currencyChecks calls = 0) : StillCurrent answers (trace ++ calls) := by
  intro k hk hlt
  rw [currencyChecks_append, hcalls, Nat.add_zero] at hlt
  exact h k hk hlt

/-- What a step of a phase leaves: the run goes on, and its trace has grown. -/
structure GoesOn (answers : ℕ → Bool) (s : Run W) (s' : Run W) : Prop extends Going answers s' where
  trace : s.io.trace <+: s'.io.trace

/-! ## The phases -/

theorem wp_completePhase_tallied (hx : x.isCurrent = some answers) {count : ℕ} (h : Going answers s) :
    Effect.wp (x.completePhase count)
      (fun _ s' => Tallied answers s' ∧ s.io.trace <+: s'.io.trace) R s := by
  rw [completePhase, Effect.wp_bind, onState, Effect.wp_modify, checkSuperseded, hx]
  simp only [Effect.wp_bind, wp_askCurrent]
  have hchecks : ∀ b, currencyChecks (s.io.trace ++ [.isCurrent b]) = currencyChecks s.io.trace + 1 := by
    intro b
    rw [currencyChecks_append]
    rfl
  have hcounted : ∀ b, (∃ c ∈ s.io.trace ++ [Call.isCurrent b], c.IsCounted) ↔
      ∃ c ∈ s.io.trace, c.IsCounted := fun b =>
    exists_mem_append_singleton.trans (or_iff_left id)
  have hrefused : ∀ b, (∃ c ∈ s.io.trace ++ [Call.isCurrent b], c.IsRefused) ↔
      ∃ c ∈ s.io.trace, c.IsRefused := fun b =>
    exists_mem_append_singleton.trans (or_iff_left id)
  have hflushed : ∀ b changes, Call.flush changes false ∉ s.io.trace ++ [Call.isCurrent b] := by
    intro b changes hmem
    rcases List.mem_append.1 hmem with hmem | hmem
    · exact h.flushed changes hmem
    · cases List.mem_singleton.1 hmem
  have hno : Call.isCurrent false ∉ s.io.trace := by
    rw [← h.superseded, h.current]
    exact Bool.false_ne_true
  cases ha : answers (currencyChecks s.io.trace) with
  | true =>
    refine ⟨⟨h.counted.trans (hcounted true).symm, h.refused.trans (hrefused true).symm,
      fun hne => (hcounted true).2 (h.written hne), fun k hk hlt => Or.inl ?_, fun hno => ?_, ?_,
      h.rejected, hflushed true⟩, List.prefix_append _ _⟩
    · change k < currencyChecks (s.io.trace ++ [.isCurrent true]) at hlt
      rw [hchecks true] at hlt
      rcases Nat.lt_succ_iff_lt_or_eq.1 hlt with hbefore | rfl
      · exact h.stillCurrent k hk hbefore
      · exact ha
    · change s.state.superseded = true at hno
      rw [h.current] at hno
      cases hno
    · change s.state.superseded = true ↔ Call.isCurrent false ∈ s.io.trace ++ [Call.isCurrent true]
      simp [h.current, hno]
  | false =>
    refine ⟨⟨h.counted.trans (hcounted false).symm, h.refused.trans (hrefused false).symm,
      fun hne => (hcounted false).2 (h.written hne), fun k hk hlt => ?_,
      fun _ => ⟨currencyChecks s.io.trace, ?_, ha⟩, ?_, h.rejected, hflushed false⟩, List.prefix_append _ _⟩
    · change k < currencyChecks (s.io.trace ++ [.isCurrent false]) at hlt
      change _ ∨ k + 1 = currencyChecks (s.io.trace ++ [.isCurrent false]) ∧ true = true
      rw [hchecks false] at hlt ⊢
      rcases Nat.lt_succ_iff_lt_or_eq.1 hlt with hbefore | rfl
      · exact Or.inl (h.stillCurrent k hk hbefore)
      · exact Or.inr ⟨rfl, rfl⟩
    · change _ < currencyChecks (s.io.trace ++ [.isCurrent false])
      rw [hchecks false]
      exact Nat.lt_succ_self _
    · change true = true ↔ Call.isCurrent false ∈ s.io.trace ++ [Call.isCurrent false]
      simp

variable (hcurrent : x.isCurrent = some answers)
  (hcheckpoint : x.checkpoint = some (flushCheckpoint x.provider flush))

include hcheckpoint

theorem wp_checkpointRun_going {changes : PendingChanges} (h : Going answers s) :
    Effect.wp (x.checkpointRun changes) (fun goesOn s' => goesOn = true ∧ GoesOn answers s s')
      (fun _ s' => StillCurrent answers s'.io.trace) s := by
  rw [checkpointRun, hcheckpoint]
  dsimp only
  split
  · exact ⟨rfl, h, List.prefix_refl _⟩
  · rw [Effect.wp_bind, onIo, Effect.wp_zoom]
    rcases flushOrDeleteUnrecordedCopies_cases changes flush x.provider s.io with
      ⟨w, hf, hr⟩ | ⟨e, w, hf, ⟨hi, hr⟩ | ⟨w', results, hr⟩⟩ <;>
      refine Effect.wp_of_eq (by simp only [flushCheckpoint, bind, hr, pure]; rfl) ?_
    · exact ⟨rfl, ⟨h.quiet w rfl id id, h.current⟩, List.prefix_append _ _⟩
    · exact h.stillCurrent.append rfl
    · exact h.stillCurrent.append rfl

theorem wp_recordRun_going {runResult : RunResult}
    (h : Going answers { s with state := mergeRunResult runResult true s.state }) :
    Effect.wp (x.recordRun runResult) (fun goesOn s' => goesOn = true ∧ GoesOn answers s s')
      (fun _ s' => StillCurrent answers s'.io.trace) s := by
  rw [recordRun, Effect.wp_bind, onState, Effect.wp_modify]
  exact Effect.wp_mono (wp_checkpointRun_going hcheckpoint h)
    (fun _ _ hw => ⟨hw.1, hw.2.toGoing, hw.2.trace⟩) fun _ _ hw => hw

theorem wp_addRun_going (h : Going answers s) {adds : List AddOperation} (hne : adds ≠ []) :
    Effect.wp (x.executeAddRun adds >>= x.recordRun)
      (fun goesOn s' => goesOn = true ∧ GoesOn answers s s' ∧ Evident s'.io.trace)
      (fun _ s' => StillCurrent answers s'.io.trace) s := by
  simp only [executeAddRun, push, Effect.wp_bind]
  refine wp_onIo_call (fun results w _ => ?_) fun _ _ _ => h.stillCurrent.append rfl
  obtain ⟨hcounted, hrefused⟩ := processAddResults_counts x.host adds results x.calendarId
  have hbatch := h.batch (c := .push adds (some results)) w
    {
      changes := {
        inserts := (processAddResults x.host adds results x.calendarId).inserts
        deletes := (processAddResults x.host adds results x.calendarId).deletes }
      result := {
        added := (processAddResults x.host adds results x.calendarId).added
        addFailed := (processAddResults x.host adds results x.calendarId).addFailed }
      conflictsResolved := (processAddResults x.host adds results x.calendarId).conflictsResolved
      errors := (processAddResults x.host adds results x.calendarId).errors
      pushEcho := some (tallyPushEcho results) }
    true trivial hcounted hrefused ?_
  · refine Effect.wp_pure.2 (Effect.wp_mono (wp_recordRun_going hcheckpoint ⟨hbatch, h.current⟩)
      (fun goesOn s' hw => ?_) fun _ _ hw => hw)
    exact ⟨hw.1, ⟨hw.2.toGoing, (List.prefix_append _ _).trans hw.2.trace⟩,
      (evident_push hne results s.io.trace).mono hw.2.trace⟩
  · intro hinserts
    obtain ⟨insert, hinsert⟩ := List.exists_mem_of_ne_nil _ hinserts
    rw [inserts_processAddResults] at hinsert
    obtain ⟨item, hitem, hsome⟩ := List.mem_filterMap.1 hinsert
    refine ⟨item, hitem, ?_⟩
    obtain ⟨result, hresult, hcopy⟩ := Option.bind_eq_some_iff.1 hsome
    obtain ⟨copy, hcopy, -⟩ := Option.map_eq_some_iff.1 hcopy
    rw [namedCopy, hresult, Option.bind_some, hcopy]
    rfl

include hcurrent

theorem wp_executeAdds_tallied (h : Going answers s) {adds : List AddOperation} (hne : adds ≠ []) :
    Effect.wp (x.executeAdds adds) (fun _ s' => Tallied answers s' ∧ Evident s'.io.trace)
      (fun _ s' => StillCurrent answers s'.io.trace) s := by
  rw [executeAdds, if_neg (by simpa using hne)]
  have hrun := wp_addRun_going hcheckpoint h hne
  rw [Effect.wp_bind] at hrun ⊢
  refine Effect.wp_mono hrun (fun runResult s' hw => ?_) fun _ _ hw => hw
  refine Effect.wp_bind.2 (Effect.wp_mono hw ?_ fun _ _ hw => hw)
  rintro goesOn s'' ⟨rfl, hgoes, hevident⟩
  exact Effect.wp_mono (wp_completePhase_tallied hcurrent hgoes.toGoing)
    (fun _ _ hdone => ⟨hdone.1, hevident.mono hdone.2⟩) fun _ _ hw => hw

omit hcurrent hcheckpoint

theorem going_removed (h : Going answers s) (removes : List RemoveOperation)
    (results : List DeleteResult) (includeChanges : Bool) (w : W) :
    Going answers { s.after w (.delete removes (some results)) with
      state := mergeRunResult {
        changes := {
          deletes := (processDeleteResults removes results x.mappingsByRemoteIdentity).deleteIds }
        result := {
          removed := (processDeleteResults removes results x.mappingsByRemoteIdentity).removed
          removeFailed := (processDeleteResults removes results x.mappingsByRemoteIdentity).removeFailed }
        conflictsResolved := 0
        errors := (processDeleteResults removes results x.mappingsByRemoteIdentity).errors }
        includeChanges s.state } := by
  obtain ⟨hcounted, hrefused⟩ := processDeleteResults_counts removes results x.mappingsByRemoteIdentity
  refine ⟨h.batch w _ _ trivial ?_ ?_ fun hne => absurd rfl hne, h.current⟩
  · rw [← hcounted]
    simp
  · rw [← hrefused]
    simp

variable {replacements : List ReplaceOperation}

theorem succeeds_of_not_unresolved {results : List PushResult} {op : ReplaceOperation} (hop : op ∈ replacements)
    (h : op ∉ (processUpdateResults x.host replacements results).unresolved) :
    (Call.update replacements (some results)).IsCounted := by
  rw [unresolved_processUpdateResults] at h
  rw [← map_fst_zipIndexed replacements results] at hop
  obtain ⟨item, hitem, rfl⟩ := List.mem_map.1 hop
  refine ⟨item, hitem, ?_⟩
  by_contra hfailed
  refine h (List.mem_filterMap.2 ⟨item, hitem, ?_⟩)
  have hfilter : item.2.filter (·.success) = none := by
    cases hresult : item.2 with
    | none => rfl
    | some result =>
      rw [hresult] at hfailed
      simpa [Option.filter] using hfailed
  rw [unresolvedOf, hfilter]

theorem Tallied.protectUpdated (h : Tallied answers s) {unresolved : List ReplaceOperation}
    (hwritten : ∀ op ∈ replacements, op ∉ unresolved → ∃ c ∈ s.io.trace, c.IsCounted) :
    Tallied answers { s with state := protectUpdated replacements unresolved s.state } := by
  refine ⟨h.counted, h.refused, fun hprotected => ?_, h.answered, h.refusedBy, h.superseded,
    h.rejected, h.flushed⟩
  by_cases hold : s.state.protectedRemoteUids = []
  swap
  · exact h.written hold
  obtain ⟨op, hop⟩ : ∃ op, op ∈ replacements.filter fun op =>
      !(unresolved.map (·.staleMappingId)).contains op.staleMappingId := by
    refine List.exists_mem_of_ne_nil _ fun hnone => hprotected ?_
    change s.state.protectedRemoteUids ++ _ = []
    rw [hold, List.nil_append]
    exact List.map_eq_nil_iff.2 hnone
  obtain ⟨hmem, hresolved⟩ := List.mem_filter.1 hop
  refine hwritten op hmem fun hfailed => ?_
  rw [Bool.not_eq_true', ← Bool.not_eq_true, List.contains_iff_mem] at hresolved
  exact hresolved (List.mem_map_of_mem hfailed)

include hcurrent hcheckpoint

theorem wp_executeRemoves_tallied (h : Going answers s) {removes : List RemoveOperation}
    (hne : removes ≠ []) :
    Effect.wp (x.executeRemoves removes) (fun _ s' => Tallied answers s' ∧ Evident s'.io.trace)
      (fun _ s' => StillCurrent answers s'.io.trace) s := by
  rw [executeRemoves, if_neg (by simpa using hne), Effect.wp_bind, Effect.wp_gets]
  by_cases hactionable : actionable removes s = []
  · -- Every removal names a copy that this run has written.
    rw [hactionable]
    change Effect.wp (x.completePhase removes.length) _ _ _
    obtain ⟨op, hop⟩ := List.exists_mem_of_ne_nil removes hne
    have hwritten : s.state.protectedRemoteUids ≠ [] := by
      intro hnone
      have hkept : op ∈ actionable removes s :=
        List.mem_filter.2 ⟨hop, by rw [hnone]; rfl⟩
      rw [hactionable] at hkept
      cases hkept
    obtain ⟨c, hc, hcounted⟩ := h.written hwritten
    have hevident : Evident s.io.trace := ⟨c, hc, Or.inl hcounted.succeeds⟩
    exact Effect.wp_mono (wp_completePhase_tallied hcurrent h)
      (fun _ _ hdone => ⟨hdone.1, hevident.mono hdone.2⟩) fun _ _ hw => hw
  · rw [if_neg (by simpa using hactionable)]
    simp only [Effect.wp_bind, executeRemoveRun, Executor.delete]
    refine wp_onIo_call (fun results w _ => ?_) fun _ _ _ => h.stillCurrent.append rfl
    refine Effect.wp_pure.2 (Effect.wp_mono (wp_recordRun_going hcheckpoint
      (going_removed h (actionable removes s) results true w)) ?_ fun _ _ hw => hw)
    rintro goesOn s' ⟨rfl, hgoes⟩
    have hevident : Evident s'.io.trace := (evident_delete hactionable results s.io.trace).mono hgoes.trace
    exact Effect.wp_mono (wp_completePhase_tallied hcurrent hgoes.toGoing)
      (fun _ _ hdone => ⟨hdone.1, hevident.mono hdone.2⟩) fun _ _ hw => hw

omit hcurrent

theorem wp_replaceViaDeleteThenAdd_going (h : Going answers s) (hne : replacements ≠ []) :
    Effect.wp (x.replaceViaDeleteThenAdd replacements)
      (fun goesOn s' => goesOn = true ∧ GoesOn answers s s' ∧ Evident s'.io.trace)
      (fun _ s' => StillCurrent answers s'.io.trace) s := by
  simp only [replaceViaDeleteThenAdd, Effect.wp_bind, Executor.delete]
  refine wp_onIo_call (fun results w _ => ?_) fun _ _ _ => h.stillCurrent.append rfl
  rw [onState, Effect.wp_modify]
  have hremoved := going_removed (x := x) h (replacements.map removalOf) results false w
  have hremoves : replacements.map removalOf ≠ [] := by simpa using hne
  have hevident := evident_delete hremoves results s.io.trace
  split
  · exact ⟨rfl, ⟨hremoved, List.prefix_append _ _⟩, hevident⟩
  · rename_i hadds
    refine Effect.wp_mono (wp_addRun_going hcheckpoint hremoved (by simpa using hadds)) ?_ fun _ _ hw => hw
    rintro goesOn s' ⟨hgoesOn, hgoes, hadded⟩
    exact ⟨hgoesOn, ⟨hgoes.toGoing, (List.prefix_append _ _).trans hgoes.trace⟩, hadded⟩

theorem wp_replaceInPlace_going (h : Going answers s) (hne : replacements ≠ [])
    (updateEvents : List EventUpdate → Effect Failure W (List PushResult)) :
    Effect.wp (x.replaceInPlace replacements updateEvents)
      (fun goesOn s' => goesOn = true ∧ GoesOn answers s s' ∧ Evident s'.io.trace)
      (fun _ s' => StillCurrent answers s'.io.trace) s := by
  simp only [replaceInPlace, executeUpdateRun, update, Effect.wp_bind]
  refine wp_onIo_call (fun results w _ => ?_) fun _ _ _ => h.stillCurrent.append rfl
  have hcounted := processUpdateResults_counts x.host replacements results
  have hbatch := h.batch (c := .update replacements (some results)) w
    {
      changes := { updates := some (processUpdateResults x.host replacements results).updates }
      result := { added := (processUpdateResults x.host replacements results).updated }
      conflictsResolved := (processUpdateResults x.host replacements results).conflictsResolved
      errors := (processUpdateResults x.host replacements results).errors
      pushEcho := some (tallyPushEcho results) }
    true trivial hcounted ⟨fun hlt => absurd hlt (lt_irrefl 0), False.elim⟩ fun hinserts => absurd rfl hinserts
  refine Effect.wp_pure.2 ?_
  simp only [onState, Effect.wp_modify]
  generalize hunresolved : (processUpdateResults x.host replacements results).unresolved = unresolved
  refine Effect.wp_mono (wp_checkpointRun_going hcheckpoint (s := _) (?_ : Going answers _)) ?_
    fun _ _ hw => hw
  · refine ⟨hbatch.protectUpdated fun op hop hresolved => ?_, h.current⟩
    refine ⟨_, List.mem_append_right _ (List.mem_singleton_self _), ?_⟩
    refine succeeds_of_not_unresolved (x := x) hop ?_
    rwa [hunresolved]
  · rintro goesOn s' ⟨rfl, hgoes⟩
    have hgrown : s.io.trace <+: s'.io.trace := (List.prefix_append _ _).trans hgoes.trace
    simp only [if_true]
    split
    · rename_i hnone
      obtain ⟨op, hop⟩ := List.exists_mem_of_ne_nil replacements hne
      have hupdated : (Call.update replacements (some results)).IsCounted := by
        refine succeeds_of_not_unresolved (x := x) hop ?_
        rw [hunresolved, List.isEmpty_iff.1 hnone]
        exact List.not_mem_nil
      refine ⟨rfl, ⟨hgoes.toGoing, hgrown⟩, ?_⟩
      exact ⟨_, hgoes.trace.subset (List.mem_append_right _ (List.mem_singleton_self _)),
        Or.inl hupdated.succeeds⟩
    · rename_i hsome
      refine Effect.wp_mono (wp_replaceViaDeleteThenAdd_going hcheckpoint hgoes.toGoing
        (by simpa using hsome)) ?_ fun _ _ hw => hw
      rintro goesOn s'' ⟨hgoesOn, hgoes', hevident⟩
      exact ⟨hgoesOn, ⟨hgoes'.toGoing, hgrown.trans hgoes'.trace⟩, hevident⟩

include hcurrent

theorem wp_executeReplacements_tallied (h : Going answers s) (hne : replacements ≠ []) :
    Effect.wp (x.executeReplacements replacements)
      (fun _ s' => Tallied answers s' ∧ Evident s'.io.trace)
      (fun _ s' => StillCurrent answers s'.io.trace) s := by
  have hcopies : Effect.wp (x.replaceCopies replacements)
      (fun goesOn s' => goesOn = true ∧ GoesOn answers s s' ∧ Evident s'.io.trace)
      (fun _ s' => StillCurrent answers s'.io.trace) s := by
    unfold replaceCopies
    split
    · exact wp_replaceInPlace_going hcheckpoint h hne _
    · exact wp_replaceViaDeleteThenAdd_going hcheckpoint h hne
  rw [executeReplacements, if_neg (by simpa using hne), Effect.wp_bind]
  refine Effect.wp_mono hcopies ?_ fun _ _ hw => hw
  rintro goesOn s' ⟨rfl, hgoes, hevident⟩
  exact Effect.wp_mono (wp_completePhase_tallied hcurrent hgoes.toGoing)
    (fun _ _ hdone => ⟨hdone.1, hevident.mono hdone.2⟩) fun _ _ hw => hw

/-- **The counts of an execution** are those of its trace, and where an operation is gone from the plan, one
has succeeded or was refused. -/
theorem phaseInvariant_tallied (operations : List SyncOperation) :
    PhaseInvariant x (fun rest s => Tallied answers s ∧
        (rest.length < operations.length → Evident s.io.trace))
      (fun _ s' => StillCurrent answers s'.io.trace) where
  perm l l' s hp h := ⟨h.1, fun hlt => h.2 (hp.length_eq ▸ hlt)⟩
  removes ops rest s hne hs h := by
    have hgoing : Going answers s := ⟨h.1, (Bool.or_eq_false_iff.1 hs).1⟩
    exact Effect.wp_mono (wp_executeRemoves_tallied hcurrent hcheckpoint hgoing hne)
      (fun _ _ hdone => ⟨hdone.1, fun _ => hdone.2⟩) fun _ _ hw => hw
  replacements ops rest s hne hs h := by
    have hgoing : Going answers s := ⟨h.1, (Bool.or_eq_false_iff.1 hs).1⟩
    exact Effect.wp_mono (wp_executeReplacements_tallied hcurrent hcheckpoint hgoing hne)
      (fun _ _ hdone => ⟨hdone.1, fun _ => hdone.2⟩) fun _ _ hw => hw
  adds ops rest s hne hs h := by
    have hgoing : Going answers s := ⟨h.1, (Bool.or_eq_false_iff.1 hs).1⟩
    exact Effect.wp_mono (wp_executeAdds_tallied hcurrent hcheckpoint hgoing hne)
      (fun _ _ hdone => ⟨hdone.1, fun _ => hdone.2⟩) fun _ _ hw => hw

end Tally

/-! ## Whole runs -/

section Whole

variable {W : Type} {o : SyncCalendarOptions W}

/-- What a run that returned reports. -/
structure Reported (o : SyncCalendarOptions W) (result : SyncCalendarResult) (trace : List Call) : Prop where
  counted : 0 < result.result.added + result.result.removed + result.conflictsResolved ↔
    ∃ c ∈ trace, c.IsCounted
  refused : 0 < result.result.addFailed + result.result.removeFailed ↔ ∃ c ∈ trace, c.IsRefused
  answered : ∀ k < currencyChecks trace, o.answers k = true ∨ k + 1 = currencyChecks trace
  superseded : Call.isCurrent false ∈ trace ↔ ∃ k < currencyChecks trace, o.answers k = false
  finished : Call.isCurrent false ∉ trace → o.plan.operations = [] ∨ Evident trace
  flushed : ∀ changes, Call.flush changes false ∉ trace

/-- Where a run fails, every question was answered yes, or a flush has failed. -/
def FailsCurrent (o : SyncCalendarOptions W) (trace : List Call) : Prop :=
  (∀ k < currencyChecks trace, o.answers k = true) ∨ ∃ changes, Call.flush changes false ∈ trace

theorem wp_executePlan_tallied (hyes : o.answers 0 = true) (world : W) :
    Effect.wp (executePlan o) (fun outcome io => Reported o (resultOf outcome) io.trace)
      (fun _ io => ∀ k < currencyChecks io.trace, o.answers k = true) ⟨world, [.isCurrent true]⟩ := by
  have hstart : Tallied o.answers (⟨⟨world, [.isCurrent true]⟩, {}⟩ : Run W) := by
    refine ⟨?_, ?_, nofun, fun k hk hlt => ?_, nofun, ?_, rfl, fun changes => by simp⟩
    · simp [Call.IsCounted]
    · simp [Call.IsRefused]
    · change k < 1 at hlt
      omega
    · simp
  have hinvariant := @phaseInvariant_tallied _ o.answers o.flush o.executor rfl rfl o.plan.operations
  have hrun := @post_executeRemoteOperations _ o.host _ o.state.existingMappings o.calendarId o.provider _ _
    ⟨world, [.isCurrent true]⟩ _ _ hinvariant ⟨hstart, fun hlt => absurd hlt (lt_irrefl _)⟩
  unfold Effect.wp executePlan
  rcases hr : executeRemoteOperations o.host o.plan.operations o.state.existingMappings o.calendarId
    o.provider (some o.answers) (some (flushCheckpoint o.provider o.flush)) ⟨world, [.isCurrent true]⟩
    with ⟨e | a, run⟩ <;> rw [hr] at hrun
  · intro k hlt
    rcases Nat.eq_zero_or_pos k with rfl | hk
    · exact hyes
    · exact hrun k hk hlt
  · obtain ⟨rest, ⟨htallied, hspent⟩, hend⟩ := hrun
    refine ⟨htallied.counted, htallied.refused, fun k hlt => ?_, ?_, fun hcurrent => ?_, htallied.flushed⟩
    · rcases Nat.eq_zero_or_pos k with rfl | hk
      · exact Or.inl hyes
      · exact (htallied.answered k hk hlt).imp_right And.left
    · refine htallied.superseded.symm.trans ⟨htallied.refusedBy, ?_⟩
      rintro ⟨k, hlt, hno⟩
      rcases Nat.eq_zero_or_pos k with rfl | hk
      · rw [hyes] at hno
        cases hno
      · rcases htallied.answered k hk hlt with hyes' | ⟨-, hsuperseded⟩
        · rw [hyes'] at hno
          cases hno
        · exact hsuperseded
    · have hstopped : run.stopped = false := by
        have hsuperseded : run.state.superseded = false := by
          rw [← Bool.not_eq_true, htallied.superseded]
          exact hcurrent
        rw [Run.stopped, hsuperseded, htallied.rejected]
        rfl
      rw [hstopped] at hend
      obtain rfl := hend.resolve_right Bool.false_ne_true
      rcases List.eq_nil_or_concat' o.plan.operations with hnil | ⟨operations, op, hcons⟩
      · exact Or.inl hnil
      · refine Or.inr (hspent ?_)
        rw [hcons, List.length_append]
        exact Nat.succ_pos _

theorem Reported.flush {result : SyncCalendarResult} {trace : List Call} (h : Reported o result trace)
    (changes : PendingChanges) : Reported o result (trace ++ [.flush changes true]) := by
  have hchecks : currencyChecks (trace ++ [.flush changes true]) = currencyChecks trace := by
    rw [currencyChecks_append]
    rfl
  have hcurrent : Call.isCurrent false ∈ trace ++ [.flush changes true] ↔ Call.isCurrent false ∈ trace := by
    simp
  refine ⟨h.counted.trans (exists_mem_append_singleton.trans (or_iff_left id)).symm,
    h.refused.trans (exists_mem_append_singleton.trans (or_iff_left id)).symm, ?_, ?_, fun hno => ?_,
    fun changes' => ?_⟩
  · rw [hchecks]
    exact h.answered
  · rw [hchecks]
    exact hcurrent.trans h.superseded
  · exact (h.finished (mt hcurrent.2 hno)).imp_right fun hevident =>
      hevident.mono (List.prefix_append _ _)
  · simpa using h.flushed changes'

/-- **What a run reports**, and what holds where it fails. -/
theorem wp_syncCalendar_reported (o : SyncCalendarOptions W) (world : W) :
    Effect.wp (syncCalendar o) (fun result io => Reported o result io.trace)
      (fun _ io => FailsCurrent o io.trace) ⟨world, []⟩ := by
  rw [syncCalendar, Effect.wp_bind]
  change Effect.wp (if o.answers 0 = true then _ else _) _ _
    (⟨world, [.isCurrent (o.answers 0)]⟩ : Io W)
  cases ha : o.answers 0 with
  | false =>
    refine ⟨by simp [Call.IsCounted], by simp [Call.IsRefused], fun k hlt => Or.inr ?_, ?_,
      fun hno => absurd (List.mem_singleton_self _) hno, fun changes => by simp⟩
    · change k < 1 at hlt
      change k + 1 = 1
      omega
    · exact ⟨fun _ => ⟨0, Nat.one_pos, ha⟩, fun _ => List.mem_singleton_self _⟩
  | true =>
    simp only [if_true]
    split
    · rename_i hquiet
      simp only [Bool.and_eq_true, List.isEmpty_iff] at hquiet
      refine ⟨by simp [Call.IsCounted], by simp [Call.IsRefused], fun k hlt => Or.inr ?_, ?_,
        fun _ => Or.inl hquiet.1.1, fun changes => by simp⟩
      · change k < 1 at hlt
        change k + 1 = 1
        omega
      · refine ⟨fun hno => absurd hno (by simp), ?_⟩
        rintro ⟨k, hlt, hno⟩
        change k < 1 at hlt
        obtain rfl : k = 0 := by omega
        rw [ha] at hno
        cases hno
    · refine Effect.wp_bind.2 (Effect.wp_mono (wp_executePlan_tallied ha world) (fun outcome io hio => ?_)
        fun e io hio => Or.inl hio)
      refine Effect.wp_bind.2 (wp_flushMappingUpdates o (fun _ => hio) (fun _ w => hio.flush _) ?_)
      exact fun _ _ e w => Or.inr ⟨_, List.mem_append_right _ (List.mem_singleton_self _)⟩

end Whole

end Keeper
