import Keeper.Engine.Execution
import Mathlib.Algebra.Order.Group.Multiset

/-!
# A mapping row is dropped only when its copy is accounted for

Whatever the provider answers, a mapping id is among the accumulated deletes only if the provider
reported that the copy was deleted, or that the event that takes its place was pushed.

* `executeRemoteOperations_accounted`: for every execution, also one that stops or fails.
* `Ledger`: the invariant. The ids dropped and updated so far, with the targets of what remains,
  are within the targets of the operations.
-/

namespace Keeper

open JsArray Executor

/-! ## Evidence -/

/-- The provider reported success for deleting the copy with this identity. -/
def ReportedDeleted (trace : List Call) (uid deleteId : String) : Prop :=
  ∃ removes results, Call.delete removes (some results) ∈ trace ∧
    ∃ op result, (op, some result) ∈ zipIndexed removes results ∧ result.success = true ∧
      op.uid = uid ∧ op.deleteId = deleteId

/-- The provider reported success for pushing the event of this addition. -/
def ReportedPushed (trace : List Call) (add : AddOperation) : Prop :=
  ∃ adds results, Call.push adds (some results) ∈ trace ∧
    ∃ result, (add, some result) ∈ zipIndexed adds results ∧ result.success = true

/-- The provider reported success for deleting the copy of this replacement and then, in the push
that follows, for the addition that takes its place. -/
def ReportedReplaced (trace : List Call) (op : ReplaceOperation) : Prop :=
  ∃ replacements deleted pushed,
    [Call.delete (replacements.map removalOf) (some deleted),
      Call.push (additionsOf replacements deleted) (some pushed)] <:+: trace ∧
    (∃ result, (op, some result) ∈ zipIndexed replacements deleted ∧ result.success = true) ∧
    ∃ result, (additionOf op, some result) ∈ zipIndexed (additionsOf replacements deleted) pushed ∧
      result.success = true

/-- The trace accounts for dropping the mapping that the operation targets. -/
def Accounts (existingMappings : List EventMapping) (trace : List Call) (id : String) :
    SyncOperation → Prop
  | .remove op => removeTarget (mappingsByRemoteIdentity existingMappings) op = some id ∧
      ReportedDeleted trace op.uid op.deleteId
  | .add op => op.staleMappingId = some id ∧ ReportedPushed trace op
  | .replace op => op.staleMappingId = id ∧ ReportedReplaced trace op

variable {existingMappings : List EventMapping} {op : SyncOperation}

theorem Accounts.target {trace : List Call} {id : String} (h : Accounts existingMappings trace id op) :
    op.target existingMappings = some id := by
  cases op with
  | remove op => exact h.1
  | add op => exact h.1
  | replace op => exact congrArg some h.1

theorem Accounts.mono {trace trace' : List Call} {id : String} (ht : trace <+: trace')
    (h : Accounts existingMappings trace id op) : Accounts existingMappings trace' id op := by
  cases op with
  | remove op =>
    obtain ⟨hid, removes, results, hc, he⟩ := h
    exact ⟨hid, removes, results, ht.subset hc, he⟩
  | add op =>
    obtain ⟨hid, adds, results, hc, he⟩ := h
    exact ⟨hid, adds, results, ht.subset hc, he⟩
  | replace op =>
    obtain ⟨hid, replacements, deleted, pushed, hc, he⟩ := h
    exact ⟨hid, replacements, deleted, pushed, hc.trans ht.isInfix, he⟩

/-! ## The ledger -/

def targetsOf (existingMappings : List EventMapping) (operations : List SyncOperation) :
    Multiset String :=
  ↑(operations.filterMap (·.target existingMappings))

theorem targetsOf_append (existingMappings : List EventMapping) (l l' : List SyncOperation) :
    targetsOf existingMappings (l ++ l') =
      targetsOf existingMappings l + targetsOf existingMappings l' := by
  simp [targetsOf]

theorem targetsOf_perm (existingMappings : List EventMapping) {l l' : List SyncOperation}
    (h : l.Perm l') : targetsOf existingMappings l = targetsOf existingMappings l' :=
  Multiset.coe_eq_coe.2 (h.filterMap _)

/-- The books of an execution: the mappings dropped and updated so far, the trace, and the
operations that remain. -/
structure Ledger (existingMappings : List EventMapping) (operations : List SyncOperation)
    (deletes updates : List String) (trace : List Call) (rest : List SyncOperation) : Prop where
  accounted : ∀ id ∈ deletes, ∃ op ∈ operations, Accounts existingMappings trace id op
  budget : (deletes : Multiset String) + updates + targetsOf existingMappings rest ≤
    targetsOf existingMappings operations
  rest : ∀ op ∈ rest, op ∈ operations

namespace Ledger

variable {existingMappings : List EventMapping} {operations : List SyncOperation}
  {deletes updates : List String} {trace trace' : List Call} {rest spent : List SyncOperation}

theorem start (existingMappings : List EventMapping) (operations : List SyncOperation)
    (trace : List Call) : Ledger existingMappings operations [] [] trace operations where
  accounted := by simp
  budget := by simp
  rest _ h := h

theorem mono (h : Ledger existingMappings operations deletes updates trace rest)
    (ht : trace <+: trace') : Ledger existingMappings operations deletes updates trace' rest where
  accounted id hid := by
    obtain ⟨op, hop, ha⟩ := h.accounted id hid
    exact ⟨op, hop, ha.mono ht⟩
  budget := h.budget
  rest := h.rest

theorem perm {rest' : List SyncOperation} (hp : rest.Perm rest')
    (h : Ledger existingMappings operations deletes updates trace rest) :
    Ledger existingMappings operations deletes updates trace rest' where
  accounted := h.accounted
  budget := targetsOf_perm existingMappings hp ▸ h.budget
  rest op hop := h.rest op (hp.mem_iff.2 hop)

/-- **Spending operations**: what they drop and update is within their targets and accounted for. -/
theorem spend (h : Ledger existingMappings operations deletes updates trace (spent ++ rest))
    (ht : trace <+: trace') {newDeletes newUpdates : List String}
    (hnew : (newDeletes : Multiset String) + newUpdates ≤ targetsOf existingMappings spent)
    (hacc : ∀ id ∈ newDeletes, ∃ op ∈ spent, Accounts existingMappings trace' id op) :
    Ledger existingMappings operations (deletes ++ newDeletes) (updates ++ newUpdates) trace' rest
    where
  accounted id hid := by
    rcases List.mem_append.1 hid with hid | hid
    · obtain ⟨op, hop, ha⟩ := h.accounted id hid
      exact ⟨op, hop, ha.mono ht⟩
    · obtain ⟨op, hop, ha⟩ := hacc id hid
      exact ⟨op, h.rest op (List.mem_append_left _ hop), ha⟩
  budget := by
    refine le_trans ?_ h.budget
    rw [targetsOf_append, ← Multiset.coe_add, ← Multiset.coe_add]
    calc (deletes : Multiset String) + newDeletes + (updates + newUpdates) +
          targetsOf existingMappings rest
        = ↑deletes + ↑updates + (↑newDeletes + ↑newUpdates + targetsOf existingMappings rest) := by
          ac_rfl
      _ ≤ ↑deletes + ↑updates + (targetsOf existingMappings spent +
          targetsOf existingMappings rest) := by gcongr
  rest op hop := h.rest op (List.mem_append_right _ hop)

theorem skip (h : Ledger existingMappings operations deletes updates trace (spent ++ rest)) :
    Ledger existingMappings operations deletes updates trace rest := by
  have hnone : (([] : List String) : Multiset String) + ([] : List String) ≤
      targetsOf existingMappings spent := by simpa using Multiset.zero_le _
  simpa using h.spend (List.prefix_refl _) hnone (by simp)

/-- What the ledger says of an execution when no mapping is targeted twice. -/
theorem exclusive (h : Ledger existingMappings operations deletes updates trace rest)
    (hn : (operations.filterMap (·.target existingMappings)).Nodup) :
    ∀ id ∈ updates, id ∉ deletes := by
  have hle := Multiset.nodup_of_le (le_trans (Multiset.le_add_right _ _) h.budget)
    (Multiset.coe_nodup.2 hn)
  have hd := (Multiset.nodup_add.1 hle).2.2
  intro id hu hdel
  exact Multiset.disjoint_left.1 hd (Multiset.mem_coe.2 hdel) (Multiset.mem_coe.2 hu)

end Ledger

/-! ## The phases -/

section Phases

variable {W : Type} {host : Host} {existingMappings : List EventMapping}
  {operations : List SyncOperation} {calendarId : String} {provider : CalendarSyncProvider W}
  {isCurrent : Option (ℕ → Bool)} {checkpoint : Option (Checkpoint W)}

def LedgerOf (existingMappings : List EventMapping) (operations rest : List SyncOperation)
    (run : Run W) : Prop :=
  Ledger existingMappings operations run.state.changes.deletes
    (run.state.changes.updateList.map (·.id)) run.io.trace rest

def LedgerAtFailure (existingMappings : List EventMapping) (operations : List SyncOperation)
    (_ : Failure) (run : Run W) : Prop :=
  ∃ rest, LedgerOf existingMappings operations rest run

variable {x : Executor W} {s s' : Run W} {rest : List SyncOperation}

/-- Calls and flags that leave the changes alone leave the ledger balanced. -/
theorem LedgerOf.congr (h : LedgerOf existingMappings operations rest s)
    (ht : s.io.trace <+: s'.io.trace) (hc : s'.state.changes = s.state.changes) :
    LedgerOf existingMappings operations rest s' := by
  unfold LedgerOf
  rw [hc]
  exact h.mono ht

theorem LedgerOf.recorded (spent : List SyncOperation) {changes : PendingChanges}
    (h : LedgerOf existingMappings operations (spent ++ rest) s) (hr : Recorded changes s s')
    (hnew : (changes.deletes : Multiset String) + (changes.updateList.map (·.id)) ≤
      targetsOf existingMappings spent)
    (hacc : ∀ id ∈ changes.deletes, ∃ op ∈ spent,
      Accounts existingMappings s'.io.trace id op) :
    LedgerOf existingMappings operations rest s' := by
  unfold LedgerOf
  rw [hr.changes, PendingChanges.deletes_merge, PendingChanges.updateList_merge, List.map_append]
  exact h.spend hr.trace hnew hacc

theorem LedgerOf.after (h : LedgerOf existingMappings operations rest s) (w : W) (c : Call) :
    LedgerOf existingMappings operations rest (s.after w c) :=
  h.congr (List.prefix_append _ _) rfl

theorem wp_completePhase_ledger {count : ℕ} {R : Failure → Run W → Prop}
    (h : LedgerOf existingMappings operations rest s) :
    Effect.wp (x.completePhase count)
      (fun _ => LedgerOf existingMappings operations rest) R s :=
  wp_completePhase (h.congr (List.prefix_refl _) rfl)
    fun _ => h.congr (List.prefix_append _ _) rfl

/-! ### Additions -/

theorem filter_eq_some_of_staleMappingOf {item : AddOperation × Option PushResult} {id : String}
    (h : staleMappingOf item = some id) :
    item.1.staleMappingId = some id ∧ ∃ result, item.2 = some result ∧ result.success = true := by
  obtain ⟨result, hr, hid⟩ := Option.bind_eq_some_iff.1 h
  obtain ⟨hr, hs⟩ := Option.filter_eq_some_iff.1 hr
  exact ⟨(truthy_eq_some_iff.1 hid).1, result, hr, hs⟩

theorem deletes_le_of_adds (host : Host) (adds : List AddOperation) (results : List PushResult)
    (calendarId : String) {spent : List SyncOperation}
    (hspent : adds.filterMap (·.staleMappingId) = spent.filterMap (·.target existingMappings)) :
    ((processAddResults host adds results calendarId).deletes : Multiset String) ≤
      targetsOf existingMappings spent := by
  rw [targetsOf, ← hspent, deletes_processAddResults]
  refine Multiset.coe_le.2 (List.Sublist.subperm (sublist_filterMap_zipIndexed ?_ _ _))
  exact fun item id h => (filter_eq_some_of_staleMappingOf h).1

theorem exists_add_of_mem_deletes {adds : List AddOperation} {results : List PushResult}
    {id : String} (h : id ∈ (processAddResults host adds results calendarId).deletes) :
    ∃ add ∈ adds, add.staleMappingId = some id ∧
      ∃ result, (add, some result) ∈ zipIndexed adds results ∧ result.success = true := by
  rw [deletes_processAddResults] at h
  obtain ⟨⟨add, r⟩, hmem, hs⟩ := List.mem_filterMap.1 h
  obtain ⟨hid, result, rfl, hsucc⟩ := filter_eq_some_of_staleMappingOf hs
  have hadd : add ∈ adds := by
    rw [← map_fst_zipIndexed adds results]
    exact List.mem_map_of_mem hmem
  exact ⟨add, hadd, hid, result, hmem, hsucc⟩

theorem wp_executeAdds_ledger {adds : List AddOperation}
    (h : LedgerOf existingMappings operations (adds.map .add ++ rest) s) :
    Effect.wp (x.executeAdds adds) (fun _ => LedgerOf existingMappings operations rest)
      (LedgerAtFailure existingMappings operations) s := by
  have hspent : adds.filterMap (·.staleMappingId) =
      (adds.map SyncOperation.add).filterMap (·.target existingMappings) := by
    rw [List.filterMap_map]
    rfl
  unfold executeAdds
  split
  · rename_i hnil
    rw [List.isEmpty_iff.1 hnil] at h
    exact h
  · simp only [Effect.wp_bind, executeAddRun, push]
    refine wp_onIo_call (fun results w _ => ?_) fun _ _ _ => ⟨_, h.congr (List.prefix_append _ _) rfl⟩
    refine wp_recordRun fun s' hs' => ?_
    have hl : LedgerOf existingMappings operations rest s' := by
      refine (h.after w _).recorded _ hs' ?_ ?_
      · simpa [PendingChanges.updateList] using
          deletes_le_of_adds x.host adds results x.calendarId hspent
      · intro id hid
        obtain ⟨add, hadd, hst, result, hmem, hsucc⟩ := exists_add_of_mem_deletes hid
        exact ⟨.add add, List.mem_map_of_mem hadd, hst, adds, results,
          hs'.trace.subset (List.mem_append_right _ (List.mem_singleton.2 rfl)), result, hmem, hsucc⟩
    refine ⟨fun goesOn => ?_, fun _ => ⟨rest, hl⟩⟩
    cases goesOn with
    | true => exact wp_completePhase_ledger hl
    | false => exact hl

/-! ### Removals -/

theorem exists_remove_of_mem_deleteIds {removes : List RemoveOperation}
    {results : List DeleteResult} {byIdentity : JsMap String EventMapping} {id : String}
    (h : id ∈ (processDeleteResults removes results byIdentity).deleteIds) :
    ∃ op ∈ removes, removeTarget byIdentity op = some id ∧
      ∃ result, (op, some result) ∈ zipIndexed removes results ∧ result.success = true := by
  rw [deleteIds_processDeleteResults] at h
  obtain ⟨⟨op, r⟩, hmem, hs⟩ := List.mem_filterMap.1 h
  obtain ⟨result, hr, hid⟩ := Option.bind_eq_some_iff.1 hs
  obtain ⟨rfl, hsucc⟩ := Option.filter_eq_some_iff.1 hr
  have hop : op ∈ removes := by
    rw [← map_fst_zipIndexed removes results]
    exact List.mem_map_of_mem hmem
  exact ⟨op, hop, (truthy_eq_some_iff.1 hid).1, result, hmem, hsucc⟩

theorem sublist_deleteIds (removes : List RemoveOperation) (results : List DeleteResult)
    (byIdentity : JsMap String EventMapping) :
    (processDeleteResults removes results byIdentity).deleteIds.Sublist
      (removes.filterMap (removeTarget byIdentity)) := by
  rw [deleteIds_processDeleteResults]
  refine sublist_filterMap_zipIndexed (fun item id h => ?_) _ _
  obtain ⟨result, -, hid⟩ := Option.bind_eq_some_iff.1 h
  exact (truthy_eq_some_iff.1 hid).1

theorem wp_executeRemoves_ledger
    (hx : x.mappingsByRemoteIdentity = mappingsByRemoteIdentity existingMappings)
    {removes : List RemoveOperation}
    (h : LedgerOf existingMappings operations (removes.map .remove ++ rest) s) :
    Effect.wp (x.executeRemoves removes) (fun _ => LedgerOf existingMappings operations rest)
      (LedgerAtFailure existingMappings operations) s := by
  have hnone : LedgerOf existingMappings operations rest s := Ledger.skip h
  unfold executeRemoves
  split
  · exact hnone
  · simp only [Effect.wp_bind, Effect.wp_gets]
    split
    · exact wp_completePhase_ledger hnone
    · simp only [Effect.wp_bind, executeRemoveRun, Executor.delete]
      refine wp_onIo_call (fun results w _ => ?_) fun _ _ _ =>
        ⟨_, h.congr (List.prefix_append _ _) rfl⟩
      refine wp_recordRun fun s' hs' => ?_
      have hl : LedgerOf existingMappings operations rest s' := by
        refine (h.after w _).recorded _ hs' ?_ ?_
        · have hsub := (sublist_deleteIds (actionable removes s) results
            x.mappingsByRemoteIdentity).trans (List.filter_sublist.filterMap _)
          rw [hx] at hsub
          have htargets : targetsOf existingMappings (removes.map .remove) =
              ↑(removes.filterMap (removeTarget (mappingsByRemoteIdentity existingMappings))) := by
            rw [targetsOf, List.filterMap_map]
            rfl
          rw [htargets]
          simpa [PendingChanges.updateList, hx] using hsub.subperm
        · intro id hid
          obtain ⟨op, hop, ht, result, hmem, hsucc⟩ := exists_remove_of_mem_deleteIds hid
          refine ⟨.remove op, List.mem_map_of_mem (List.mem_of_mem_filter hop), hx ▸ ht,
            _, results, hs'.trace.subset (List.mem_append_right _ (List.mem_singleton.2 rfl)),
            op, result, hmem, hsucc, rfl, rfl⟩
      refine ⟨fun goesOn => ?_, fun _ => ⟨rest, hl⟩⟩
      cases goesOn with
      | true => exact wp_completePhase_ledger hl
      | false => exact hl

/-! ### Replacements -/

variable {replacements : List ReplaceOperation}

theorem mem_additionsOf {results : List DeleteResult} {add : AddOperation}
    (h : add ∈ additionsOf replacements results) : ∃ op ∈ replacements, add = additionOf op ∧
      ∃ result, (op, some result) ∈ zipIndexed replacements results ∧ result.success = true := by
  obtain ⟨⟨op, r⟩, hmem, hs⟩ := List.mem_filterMap.1 h
  simp only [Option.ite_none_right_eq_some, Option.some.injEq, Option.any_eq_true] at hs
  obtain ⟨⟨result, rfl, hsucc⟩, rfl⟩ := hs
  have hop : op ∈ replacements := by
    rw [← map_fst_zipIndexed replacements results]
    exact List.mem_map_of_mem hmem
  exact ⟨op, hop, rfl, result, hmem, hsucc⟩

/-- The additions of replacements name mappings of their replacements, each once. -/
theorem sublist_additionsOf (replacements : List ReplaceOperation) (results : List DeleteResult) :
    ((additionsOf replacements results).filterMap (·.staleMappingId)).Sublist
      (replacements.map (·.staleMappingId)) := by
  rw [additionsOf, List.filterMap_filterMap, ← List.filterMap_eq_map]
  refine sublist_filterMap_zipIndexed (fun item id h => ?_) _ _
  split at h
  · exact h
  · cases h

theorem targetsOf_replacements (replacements : List ReplaceOperation) :
    targetsOf existingMappings (replacements.map .replace) =
      ↑(replacements.map (·.staleMappingId)) := by
  rw [targetsOf, List.filterMap_map, ← List.filterMap_eq_map]
  rfl

theorem wp_replaceViaDeleteThenAdd_ledger
    (h : LedgerOf existingMappings operations (replacements.map .replace ++ rest) s) :
    Effect.wp (x.replaceViaDeleteThenAdd replacements)
      (fun _ => LedgerOf existingMappings operations rest)
      (LedgerAtFailure existingMappings operations) s := by
  simp only [replaceViaDeleteThenAdd, Effect.wp_bind, Executor.delete]
  refine wp_onIo_call (fun deleted w _ => ?_) fun _ _ _ => ⟨_, h.congr (List.prefix_append _ _) rfl⟩
  rw [onState, Effect.wp_modify]
  split
  · exact LedgerOf.congr (Ledger.skip h : LedgerOf existingMappings operations rest s)
      (List.prefix_append _ _) rfl
  · simp only [Effect.wp_bind, executeAddRun, push]
    refine wp_onIo_call (fun pushed w' _ => ?_) fun _ _ _ =>
      ⟨_, h.congr ((List.prefix_append _ _).trans (List.prefix_append _ _)) rfl⟩
    refine wp_recordRun fun s' hs' => ?_
    have hcalls : [Call.delete (replacements.map removalOf) (some deleted),
        Call.push (additionsOf replacements deleted) (some pushed)] <:+: s'.io.trace := by
      refine List.IsInfix.trans ?_ hs'.trace.isInfix
      exact ⟨s.io.trace, [], by simp [Run.after]⟩
    have hl : LedgerOf existingMappings operations rest s' := by
      refine LedgerOf.recorded (replacements.map .replace) ?_ hs' ?_ ?_
      · exact LedgerOf.congr h ((List.prefix_append _ _).trans (List.prefix_append _ _)) rfl
      · have hspent : (additionsOf replacements deleted).filterMap (·.staleMappingId) =
            ((additionsOf replacements deleted).map SyncOperation.add).filterMap
              (·.target existingMappings) := by
          rw [List.filterMap_map]
          rfl
        have hle := deletes_le_of_adds x.host (additionsOf replacements deleted) pushed
          x.calendarId hspent
        rw [targetsOf, List.filterMap_map] at hle
        rw [targetsOf_replacements]
        have := hle.trans (Multiset.coe_le.2 (sublist_additionsOf replacements deleted).subperm)
        simpa [PendingChanges.updateList] using this
      · intro id hid
        obtain ⟨add, hadd, hst, result, hmem, hsucc⟩ := exists_add_of_mem_deletes hid
        obtain ⟨op, hop, rfl, hdel⟩ := mem_additionsOf hadd
        exact ⟨.replace op, List.mem_map_of_mem hop, Option.some.inj hst, replacements, deleted,
          pushed, hcalls, hdel, result, hmem, hsucc⟩
    exact ⟨fun _ => hl, fun _ => ⟨rest, hl⟩⟩

/-- The replacement, if its update succeeded. -/
def resolvedOf (item : ReplaceOperation × Option PushResult) : Option ReplaceOperation :=
  if (item.2.filter (·.success)).isSome then some item.1 else none

theorem perm_resolved_unresolved (replacements : List ReplaceOperation)
    (results : List PushResult) :
    replacements.Perm ((zipIndexed replacements results).filterMap resolvedOf ++
      (zipIndexed replacements results).filterMap unresolvedOf) := by
  conv => lhs; rw [← map_fst_zipIndexed replacements results]
  induction zipIndexed replacements results with
  | nil => simp
  | cons item items ih =>
    cases hr : item.2.filter (·.success) with
    | some result => simpa [resolvedOf, unresolvedOf, hr] using ih.cons item.1
    | none =>
      simp only [resolvedOf, unresolvedOf, hr, List.map_cons, List.filterMap_cons] at ih ⊢
      exact (ih.cons item.1).trans List.perm_middle.symm

theorem map_id_updates (replacements : List ReplaceOperation) (results : List PushResult) :
    (processUpdateResults host replacements results).updates.map (·.id) =
      ((zipIndexed replacements results).filterMap resolvedOf).map (·.staleMappingId) := by
  rw [updates_processUpdateResults, List.map_filterMap, List.map_filterMap]
  refine List.filterMap_congr fun item _ => ?_
  cases hr : item.2.filter (·.success) <;> simp [updateOf, resolvedOf, hr, pendingUpdate]

theorem wp_replaceInPlace_ledger {updateEvents : List EventUpdate → Effect Failure W (List PushResult)}
    (h : LedgerOf existingMappings operations (replacements.map .replace ++ rest) s) :
    Effect.wp (x.replaceInPlace replacements updateEvents)
      (fun _ => LedgerOf existingMappings operations rest)
      (LedgerAtFailure existingMappings operations) s := by
  simp only [replaceInPlace, executeUpdateRun, update, Effect.wp_bind]
  refine wp_onIo_call (fun results w _ => ?_) fun _ _ _ => ⟨_, h.congr (List.prefix_append _ _) rfl⟩
  simp only [Effect.wp_pure, onState, Effect.wp_modify]
  set resolved := (zipIndexed replacements results).filterMap resolvedOf with hres
  have hun := unresolved_processUpdateResults x.host replacements results
  set unresolved := (processUpdateResults x.host replacements results).unresolved
  -- the resolved replacements are spent, the unresolved ones remain
  have hsplit : (replacements.map SyncOperation.replace ++ rest).Perm
      (resolved.map .replace ++ (unresolved.map .replace ++ rest)) := by
    rw [← List.append_assoc, ← List.map_append, hun]
    exact ((perm_resolved_unresolved replacements results).map _).append_right rest
  have hledger : ∀ s' : Run W, s.io.trace <+: s'.io.trace →
      s'.state.changes = s.state.changes.merge
        { updates := some (processUpdateResults x.host replacements results).updates } →
      LedgerOf existingMappings operations (unresolved.map .replace ++ rest) s' := by
    intro s' ht hc
    refine LedgerOf.recorded _ (Ledger.perm hsplit h) ⟨ht, hc⟩ ?_ (by simp)
    simp [PendingChanges.updateList, targetsOf_replacements, map_id_updates, hres]
  have htrace := List.prefix_append s.io.trace [Call.update replacements (some results)]
  refine wp_checkpointRun (fun io hio => ?_) (fun io hio => ?_) (fun e io hio => ?_)
  · simp only [if_true]
    split
    · rename_i hnil
      rw [List.isEmpty_iff.1 hnil] at hledger
      exact hledger ⟨io, _⟩ (htrace.trans hio) rfl
    · exact wp_replaceViaDeleteThenAdd_ledger (hledger ⟨io, _⟩ (htrace.trans hio) rfl)
  · exact Ledger.skip (hledger ⟨io, _⟩ (htrace.trans hio) rfl)
  · exact ⟨_, hledger ⟨io, _⟩ (htrace.trans hio) rfl⟩

theorem wp_executeReplacements_ledger (h : LedgerOf existingMappings operations (replacements.map .replace ++ rest) s) :
    Effect.wp (x.executeReplacements replacements)
      (fun _ => LedgerOf existingMappings operations rest)
      (LedgerAtFailure existingMappings operations) s := by
  unfold executeReplacements
  split
  · rename_i hnil
    rw [List.isEmpty_iff.1 hnil] at h
    exact h
  · rw [Effect.wp_bind]
    have hcopies : Effect.wp (x.replaceCopies replacements)
        (fun _ => LedgerOf existingMappings operations rest)
        (LedgerAtFailure existingMappings operations) s := by
      unfold replaceCopies
      split
      · exact wp_replaceInPlace_ledger h
      · exact wp_replaceViaDeleteThenAdd_ledger h
    refine Effect.wp_mono hcopies (fun goesOn s' hl => ?_) fun _ _ h => h
    cases goesOn with
    | true => exact wp_completePhase_ledger hl
    | false => exact hl

/-- **The ledger is an invariant of the phases.** -/
theorem phaseInvariant_ledger
    (hx : x.mappingsByRemoteIdentity = mappingsByRemoteIdentity existingMappings) :
    PhaseInvariant x (LedgerOf existingMappings operations)
      (LedgerAtFailure existingMappings operations) where
  perm _ _ _ hp h := Ledger.perm hp h
  removes _ _ _ _ _ h := wp_executeRemoves_ledger hx h
  replacements _ _ _ _ _ h := wp_executeReplacements_ledger h
  adds _ _ _ _ _ h := wp_executeAdds_ledger h

theorem exists_ledger (host : Host) (operations : List SyncOperation)
    (existingMappings : List EventMapping) (calendarId : String) (provider : CalendarSyncProvider W)
    (isCurrent : Option (ℕ → Bool)) (checkpoint : Option (Checkpoint W)) (io : Io W) :
    ∃ rest, LedgerOf existingMappings operations rest (executeRemoteOperations host operations
      existingMappings calendarId provider isCurrent checkpoint io).2 := by
  let x := executorOf host existingMappings calendarId provider isCurrent checkpoint
  have hinv : PhaseInvariant x (LedgerOf existingMappings operations)
    (LedgerAtFailure existingMappings operations) := phaseInvariant_ledger rfl
  have h := post_executeRemoteOperations hinv (Ledger.start existingMappings operations io.trace)
  revert h
  rcases executeRemoteOperations host operations existingMappings calendarId provider isCurrent
    checkpoint io with ⟨e | a, run⟩
  · exact id
  · rintro ⟨rest, hl, -⟩
    exact ⟨rest, hl⟩

end Phases

/-! ## Executions -/

/-- The accumulated changes of a run drop mappings only when their copies are accounted for. -/
structure IsAccounted (existingMappings : List EventMapping) (operations : List SyncOperation)
    (trace : List Call) (changes : PendingChanges) : Prop where
  /-- A dropped mapping is the target of an operation that the trace accounts for. -/
  deletes : ∀ id ∈ changes.deletes, ∃ op ∈ operations, Accounts existingMappings trace id op
  /-- If no mapping is targeted twice, a replaced mapping is dropped only if its copy was deleted
  and its event was pushed. -/
  replaced : (operations.filterMap (·.target existingMappings)).Nodup →
    ∀ op, SyncOperation.replace op ∈ operations → op.staleMappingId ∈ changes.deletes →
      ReportedReplaced trace op
  /-- If no mapping is targeted twice, a mapping updated in place is not dropped. -/
  updated : (operations.filterMap (·.target existingMappings)).Nodup →
    ∀ update ∈ changes.updateList, update.id ∉ changes.deletes

theorem eq_of_target {operations : List SyncOperation} (hn : (operations.filterMap (·.target existingMappings)).Nodup)
    {op' : SyncOperation} (h : op ∈ operations) (h' : op' ∈ operations) {id : String}
    (ht : op.target existingMappings = some id) (ht' : op'.target existingMappings = some id) : op = op' := by
  induction operations with
  | nil => simp at h
  | cons o l ih =>
    have hnot : ∀ {o' : SyncOperation}, o' ∈ l → o'.target existingMappings = some id →
        o.target existingMappings ≠ some id := by
      intro o' ho' hid hid'
      rw [List.filterMap_cons_some hid', List.nodup_cons] at hn
      exact hn.1 (List.mem_filterMap.2 ⟨o', ho', hid⟩)
    have hl : (l.filterMap (·.target existingMappings)).Nodup :=
      hn.sublist ((List.sublist_cons_self o l).filterMap _)
    rcases List.mem_cons.1 h with h1 | h1 <;> rcases List.mem_cons.1 h' with h2 | h2
    · rw [h1, h2]
    · exact absurd (h1 ▸ ht) (hnot h2 ht')
    · exact absurd (h2 ▸ ht') (hnot h1 ht)
    · exact ih hl h1 h2

/-- **A mapping row is dropped only when its copy is accounted for**, in every execution. -/
theorem executeRemoteOperations_accounted {W : Type} (host : Host)
    (operations : List SyncOperation) (existingMappings : List EventMapping) (calendarId : String)
    (provider : CalendarSyncProvider W) (isCurrent : Option (ℕ → Bool))
    (checkpoint : Option (Checkpoint W)) (world : W) :
    let run := (executeRemoteOperations host operations existingMappings calendarId provider
      isCurrent checkpoint ⟨world, []⟩).2
    IsAccounted existingMappings operations run.io.trace run.state.changes := by
  intro run
  obtain ⟨rest, hl⟩ := exists_ledger host operations existingMappings calendarId provider isCurrent
    checkpoint ⟨world, []⟩
  refine ⟨hl.accounted, fun hn op hop hid => ?_, fun hn update hu => ?_⟩
  · obtain ⟨op', hop', ha⟩ := hl.accounted _ hid
    obtain rfl := eq_of_target hn hop' hop ha.target rfl
    exact ha.2
  · exact hl.exclusive hn _ (List.mem_map_of_mem hu)

end Keeper
