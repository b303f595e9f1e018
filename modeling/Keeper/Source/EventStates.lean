import Keeper.Foundations.JsArray
import Keeper.Foundations.SqlTable
import Keeper.Source.EventDiff

/-!
# The table of event states

`event_states` of `database/schema.ts` with its three partial unique indexes, and the upserts of
`core/source/write-event-states.ts`: rows with a provider id, overrides without one and the rest go
to the table in statements of their own, each with its own conflict target.

* `insertEventStatesWithConflictResolution_ok`: rows with distinct keys are all written.
* `nodup_keys_of_mem_insertStatements`: and no statement proposes two rows with one key.
-/

namespace Keeper

open JsArray SqlTable

/-! ## The indexes -/

/-- `event_states_source_event_idx`, `event_states_recurring_instance_idx` and
`event_states_non_recurring_instance_idx`. -/
inductive EventStateIndex
  | sourceEvent
  | recurringInstance
  | nonRecurringInstance
  deriving DecidableEq

inductive EventStateKey
  | sourceEvent (calendarId sourceEventId : String)
  | recurringInstance (calendarId sourceEventUid : String) (recurrenceId : ℤ)
  | nonRecurringInstance (calendarId sourceEventUid : String) (startTime endTime : ℤ)
  deriving DecidableEq

def EventStateKey.index : EventStateKey → EventStateIndex
  | sourceEvent .. => .sourceEvent
  | recurringInstance .. => .recurringInstance
  | nonRecurringInstance .. => .nonRecurringInstance

/-- The key of a row: of the first index where it has a provider id, of the others by its recurrence
id. `NULL` uids are distinct. -/
def EventStateInsertRow.indexKey (row : EventStateInsertRow) : Option EventStateKey :=
  match row.sourceEventId, row.sourceEventUid, row.recurrenceId with
  | some sourceEventId, _, _ => some (.sourceEvent row.calendarId sourceEventId)
  | none, some uid, some recurrenceId => some (.recurringInstance row.calendarId uid recurrenceId)
  | none, some uid, none =>
    some (.nonRecurringInstance row.calendarId uid row.startTime row.endTime)
  | none, none, _ => none

/-- The unique indexes of `event_states`. -/
def eventStateIndexes : Indexes EventStateInsertRow EventStateKey EventStateIndex :=
  ⟨EventStateInsertRow.indexKey, EventStateKey.index⟩

/-- The rows of `event_states`, by id. -/
abbrev EventStatesTable := List (Entry String EventStateInsertRow)

/-! ## Writing -/

def insertChunkSize : ℕ := 1000

/-- `insertEventStateRows`: one statement for each chunk. -/
def insertEventStateRows (rows : List EventStateInsertRow) (target : EventStateIndex) :
    List (Statement EventStateInsertRow EventStateIndex) :=
  (chunks (insertChunkSize - 1) rows).map fun chunk => ⟨target, chunk⟩

/-- The statements of `insertEventStatesWithConflictResolution`. -/
def insertStatements (rows : List EventStateInsertRow) :
    List (Statement EventStateInsertRow EventStateIndex) :=
  let providerRows := rows.filter fun row => (truthy row.sourceEventId).isSome
  let legacyRows := rows.filter fun row => !(truthy row.sourceEventId).isSome
  let legacyRecurringRows := legacyRows.filter (·.recurrenceId.isSome)
  let legacyNonRecurringRows := legacyRows.filter fun row => !row.recurrenceId.isSome
  insertEventStateRows providerRows .sourceEvent ++
    insertEventStateRows legacyRecurringRows .recurringInstance ++
    insertEventStateRows legacyNonRecurringRows .nonRecurringInstance

/-- `insertEventStatesWithConflictResolution`, with the ids that the database gives to new rows. -/
def insertEventStatesWithConflictResolution (fresh : List String → String)
    (table : EventStatesTable) (rows : List EventStateInsertRow) :
    Except (UpsertError EventStateKey) EventStatesTable :=
  runStatements eventStateIndexes fresh table (insertStatements rows)

def deleteEventStates (table : EventStatesTable) (calendarId : String) (ids : List String) :
    EventStatesTable :=
  table.filter fun row => !(row.content.calendarId = calendarId && ids.contains row.id)

def readEventStates (table : EventStatesTable) (calendarId : String) :
    List StoredSourceEventState :=
  (table.filter fun row => row.content.calendarId = calendarId).map fun row =>
    row.content.stored row.id

/-- The flush of an ingestion: the deletes, then the inserts. -/
def flushEventStates (fresh : List String → String) (table : EventStatesTable)
    (calendarId : String) (deletes : List String) (inserts : List SourceEvent) :
    Except (UpsertError EventStateKey) EventStatesTable :=
  insertEventStatesWithConflictResolution fresh (deleteEventStates table calendarId deletes)
    (inserts.map (buildEventStateInsertRow calendarId))

variable {table : EventStatesTable} {rows : List EventStateInsertRow}
  {s : Statement EventStateInsertRow EventStateIndex}

theorem mem_deleteEventStates {calendarId : String} {ids : List String}
    {entry : Entry String EventStateInsertRow} : entry ∈ deleteEventStates table calendarId ids ↔
      entry ∈ table ∧ (entry.content.calendarId = calendarId → entry.id ∉ ids) := by
  simp [deleteEventStates, imp_iff_not_or]

/-! ## What is written -/

theorem flatMap_rows_insertEventStateRows (rows : List EventStateInsertRow)
    (target : EventStateIndex) :
    (insertEventStateRows rows target).flatMap (·.rows) = rows := by
  rw [insertEventStateRows, List.flatMap_map, List.flatMap_id', flatten_chunks]

theorem flatMap_rows_insertStatements (rows : List EventStateInsertRow) :
    ((insertStatements rows).flatMap (·.rows)).Perm rows := by
  simp only [insertStatements, List.flatMap_append, flatMap_rows_insertEventStateRows]
  rw [List.append_assoc]
  exact ((List.filter_append_perm _ _).append_left _).trans (List.filter_append_perm _ _)

theorem mem_insertEventStateRows {target : EventStateIndex}
    (hs : s ∈ insertEventStateRows rows target) :
    s.target = target ∧ ∀ row ∈ s.rows, row ∈ rows := by
  obtain ⟨chunk, hchunk, rfl⟩ := List.mem_map.1 hs
  refine ⟨rfl, fun row hrow => ?_⟩
  rw [← flatten_chunks (insertChunkSize - 1) rows]
  exact List.mem_flatten.2 ⟨chunk, hchunk, hrow⟩

theorem isSome_truthy_iff {s : Option String} (h : s ≠ some "") :
    (truthy s).isSome = true ↔ s.isSome = true := by
  cases s with
  | none => simp
  | some v =>
    have hv : v ≠ "" := fun heq => h (by rw [heq])
    simp [truthy, hv]

theorem covered_insertStatements (hids : ∀ row ∈ rows, row.sourceEventId ≠ some "")
    (huids : ∀ row ∈ rows, row.sourceEventUid.isSome) (hs : s ∈ insertStatements rows)
    {row : EventStateInsertRow} (hrow : row ∈ s.rows) :
    ∃ k, row.indexKey = some k ∧ k.index = s.target := by
  simp only [insertStatements, List.mem_append] at hs
  rcases hs with (hs | hs) | hs <;> obtain ⟨htarget, hsub⟩ := mem_insertEventStateRows hs <;>
    have hmem := hsub row hrow <;> simp only [List.mem_filter] at hmem <;> rw [htarget]
  · have hsome := (isSome_truthy_iff (hids row hmem.1)).1 hmem.2
    obtain ⟨sourceEventId, hid⟩ := Option.isSome_iff_exists.1 hsome
    exact ⟨.sourceEvent row.calendarId sourceEventId, by simp [EventStateInsertRow.indexKey, hid],
      rfl⟩
  all_goals
    have hnone : row.sourceEventId = none := by
      rw [← Option.not_isSome_iff_eq_none, ← isSome_truthy_iff (hids row hmem.1.1)]
      simpa using hmem.1.2
    obtain ⟨uid, huid⟩ := Option.isSome_iff_exists.1 (huids row hmem.1.1)
  · obtain ⟨recurrenceId, hrecurrence⟩ := Option.isSome_iff_exists.1 hmem.2
    exact ⟨.recurringInstance row.calendarId uid recurrenceId,
      by simp [EventStateInsertRow.indexKey, hnone, huid, hrecurrence], rfl⟩
  · have hrecurrence : row.recurrenceId = none := by simpa using hmem.2
    exact ⟨.nonRecurringInstance row.calendarId uid row.startTime row.endTime,
      by simp [EventStateInsertRow.indexKey, hnone, huid, hrecurrence], rfl⟩

/-- **No statement proposes two rows with one key.** -/
theorem nodup_keys_of_mem_insertStatements (hkeys : (rows.map (·.indexKey)).Nodup)
    (hs : s ∈ insertStatements rows) : (s.rows.map (·.indexKey)).Nodup := by
  have hall := ((flatMap_rows_insertStatements rows).map (·.indexKey)).nodup_iff.2 hkeys
  refine hall.sublist (List.Sublist.map _ ?_)
  obtain ⟨l₁, l₂, hl⟩ := List.append_of_mem hs
  rw [hl, List.flatMap_append, List.flatMap_cons]
  exact (List.sublist_append_left _ _).trans (List.sublist_append_right _ _)

/-- **Rows with distinct keys** are all written. -/
theorem insertEventStatesWithConflictResolution_ok {fresh : List String → String}
    (hfresh : ∀ ids, fresh ids ∉ ids) (hvalid : Valid eventStateIndexes table)
    (hids : ∀ row ∈ rows, row.sourceEventId ≠ some "")
    (huids : ∀ row ∈ rows, row.sourceEventUid.isSome) (hkeys : (rows.map (·.indexKey)).Nodup) :
    ∃ table', insertEventStatesWithConflictResolution fresh table rows = .ok table' ∧
      Upserted eventStateIndexes table rows table' := by
  have hperm := flatMap_rows_insertStatements rows
  obtain ⟨table', hrun, hup⟩ := runStatements_ok hfresh hvalid
    (fun s hs row hrow => covered_insertStatements hids huids hs hrow)
    ((hperm.map (·.indexKey)).nodup_iff.2 hkeys)
  exact ⟨table', hrun, hup.congr fun row => hperm.mem_iff⟩

/-- **A flush of events with distinct keys** deletes, then writes them all. -/
theorem flushEventStates_ok {fresh : List String → String} (hfresh : ∀ ids, fresh ids ∉ ids)
    (hvalid : Valid eventStateIndexes table) (calendarId : String) (deletes : List String)
    {inserts : List SourceEvent} (hids : ∀ e ∈ inserts, e.sourceEventId ≠ some "")
    (hkeys : (inserts.map fun e => (buildEventStateInsertRow calendarId e).indexKey).Nodup) :
    ∃ table', flushEventStates fresh table calendarId deletes inserts = .ok table' ∧
      Upserted eventStateIndexes (deleteEventStates table calendarId deletes)
        (inserts.map (buildEventStateInsertRow calendarId)) table' := by
  refine insertEventStatesWithConflictResolution_ok hfresh (hvalid.filter _) ?_ ?_ ?_
  · intro row hrow
    obtain ⟨e, he, rfl⟩ := List.mem_map.1 hrow
    exact hids e he
  · intro row hrow
    obtain ⟨e, he, rfl⟩ := List.mem_map.1 hrow
    rfl
  · rwa [List.map_map]

end Keeper
