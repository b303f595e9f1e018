import Keeper.Engine.SyncCalendar
import Keeper.Sync.InSync

/-!
# What a superseded run still writes

A run that learns that it is no longer the current one stops its execution, but the flush of the
mapping updates of its plan comes after the execution in either case.

* `syncCalendar_stopsWriting_iff`: a run stops writing exactly when its plan has no mapping
  updates, or no question of its execution is answered no.
* `syncCalendar_not_stopsWriting`: a run that writes after a no.
-/

namespace Keeper

/-! ## Writing after a no -/

/-- A call that writes: everything but the question whether the run is current. -/
def Call.IsWrite : Call → Prop
  | .isCurrent _ => False
  | _ => True

/-- Once a question was answered no, nothing is written. -/
def StopsWriting (trace : List Call) : Prop :=
  ∀ before after, trace = before ++ after → Call.isCurrent false ∈ before →
    ∀ c ∈ after, ¬ c.IsWrite

section Traces

variable {host : Host} {calendarId : String} {pending : List PendingInsert} {trace : List Call}

theorem Ongoing.not_mem_isCurrent_false (h : Ongoing host calendarId pending trace) :
    Call.isCurrent false ∉ trace := by
  induction h <;> simp_all

theorem Halted.not_mem_isCurrent_false (h : Halted host calendarId trace) :
    Call.isCurrent false ∉ trace := by
  cases h with
  | @call t c h hc =>
    have := h.not_mem_isCurrent_false
    cases c <;> simp_all [Call.IsFailure]
  | flush changes h => simpa using h.not_mem_isCurrent_false
  | cleanup changes results h => simpa using h.not_mem_isCurrent_false

theorem stopsWriting_of_not_mem (h : Call.isCurrent false ∉ trace) : StopsWriting trace := by
  intro before after heq hb
  exact absurd (heq ▸ List.mem_append_left _ hb) h

theorem stopsWriting_append_no (h : Call.isCurrent false ∉ trace) :
    StopsWriting (trace ++ [.isCurrent false]) := by
  intro before after heq hb c hc
  rcases List.append_eq_append_iff.1 heq with ⟨l, hl, ha⟩ | ⟨l, hl, -⟩
  · cases l with
    | nil =>
      rw [List.append_nil] at hl
      exact absurd (hl ▸ hb) h
    | cons x l =>
      have hnil : after = [] := by
        have := (List.cons.inj ha).2
        exact (List.append_eq_nil_iff.1 this.symm).2
      rw [hnil] at hc
      exact absurd hc List.not_mem_nil
  · exact absurd (hl ▸ List.mem_append_left _ hb) h

theorem not_stopsWriting_append_flush (trace : List Call) (changes : PendingChanges)
    (returned : Bool) :
    ¬ StopsWriting (trace ++ [.isCurrent false, .flush changes returned]) := by
  intro h
  exact h (trace ++ [.isCurrent false]) [.flush changes returned] (by simp) (by simp) _
    (List.mem_singleton.2 rfl) trivial

/-- **A run stops writing exactly when it has nothing to flush after a no.** The condition is
enough in every world, and necessary in every world whose calls return; a call that fails ends the
run before it learns of the no or has anything left to write. -/
theorem syncCalendar_stopsWriting_iff {W : Type} (o : SyncCalendarOptions W) (world : W) :
    (o.StopsInTime → StopsWriting (o.trace world)) ∧
      (Returns o.provider o.flush → (StopsWriting (o.trace world) ↔ o.StopsInTime)) := by
  have ht := syncCalendar_trace o world
  generalize o.trace world = trace at ht
  cases ht with
  | ongoing h hc =>
    have hs := stopsWriting_of_not_mem h.not_mem_isCurrent_false
    exact ⟨fun _ => hs, fun _ => ⟨fun _ => hc, fun _ => hs⟩⟩
  | halted h hr =>
    have hs := stopsWriting_of_not_mem h.not_mem_isCurrent_false
    exact ⟨fun _ => hs, fun hret => absurd hret hr⟩
  | superseded h hc =>
    have hs := stopsWriting_append_no h.not_mem_isCurrent_false
    exact ⟨fun _ => hs, fun _ => ⟨fun _ => hc, fun _ => hs⟩⟩
  | @flushedLate t returned h hc =>
    have hs := not_stopsWriting_append_flush t { updates := some o.plan.mappingUpdates }
      returned
    exact ⟨fun hc' => absurd hc' hc, fun _ => ⟨fun hs' => absurd hs' hs, fun hc' => absurd hc' hc⟩⟩

end Traces

namespace Example

/-- A destination that accepts every call, in a world without a state. -/
def provider : CalendarSyncProvider Unit where
  pushEvents events := pure (events.map fun e =>
    { success := true, remoteId := some e.id, deleteId := some e.id })
  deleteEvents ids := pure (ids.map fun _ => { success := true })

def flush : Flush Unit := fun _ => pure ⟨⟩

theorem returns : Returns provider flush where
  push _ _ _ _ h := nomatch h
  update _ hf := nomatch hf
  delete _ _ _ _ h := nomatch h
  flush _ _ _ _ h := nomatch h

/-- A run with one event to add, and one whose mapping is to learn the delete identifier of its
copy. -/
def upgrade (answers : ℕ → Bool) : SyncCalendarOptions Unit where
  host
  calendarId := "destination"
  provider
  state := {
    localEvents := [event "a" 0, event "b" 0]
    existingMappings := [recorded (event "b" 0) "u" "u"]
    remoteEvents := [copy (event "b" 0) "u" "d"] }
  answers
  flush
  reconciliationScope := scope

/-- The rows of `upgrade` after its plan. -/
def upgradeUpdates : List PendingUpdate := (upgrade fun _ => true).plan.mappingUpdates

end Example

/-- The theorem at a run that is never superseded. -/
theorem syncCalendar_stopsWriting_iff_example :
    StopsWriting ((Example.upgrade fun _ => true).trace ()) :=
  ((syncCalendar_stopsWriting_iff (Example.upgrade fun _ => true) ()).2 Example.returns).2
    (Or.inr (Or.inr fun _ _ _ => rfl))

/-- **A superseded run still flushes its mapping updates.** The answers are yes before planning
and no after the batch of additions, and the update of the other mapping is flushed after that. -/
theorem syncCalendar_not_stopsWriting :
    ¬ StopsWriting ((Example.upgrade (· == 0)).trace ()) := by
  have ht : ∃ t, (Example.upgrade (· == 0)).trace () = t ++
      [.isCurrent false, .flush { updates := some Example.upgradeUpdates } true] :=
    ⟨((Example.upgrade (· == 0)).trace ()).dropLast.dropLast, by decide⟩
  obtain ⟨t, ht⟩ := ht
  rw [ht]
  exact not_stopsWriting_append_flush _ _ _

end Keeper
