import Keeper.Core.Types
import Keeper.Foundations.Text

/-!
# Flushing changes to the mapping table

`createDatabaseFlush` (`core/sync-engine/flush.ts`), as a transaction on the mapping rows of the
database: rows are deleted, then inserted unless the unique index on the calendar and the event
holds already, then updated one by one; an update that breaks the index rolls the transaction back.
The batches of the source only bound the size of its statements.

* `flushRows_eq_some`: when nothing conflicts, the rows after a flush are the kept and updated
  rows and one new row for each insert.
-/

namespace Keeper

/-! ## The transaction -/

/-- What the database decides: the random id of the next row, and which event states exist. -/
structure Database where
  newId : List EventMapping → String
  newId_fresh : ∀ rows, newId rows ∉ rows.map (·.id)
  newId_ne : ∀ rows, newId rows ≠ ""
  survives : String → Bool

/-- The unique index `event_mappings_sync_event_cal_idx` does not tell the two rows apart. -/
def EventMapping.collides (m m' : EventMapping) : Bool :=
  m.calendarId = m'.calendarId && m.syncEventId = m'.syncEventId

def resolveSurvivingEventStateId (db : Database) (insert : PendingInsert) : Option String :=
  if db.survives insert.eventStateId then some insert.eventStateId else none

def PendingInsert.row (insert : PendingInsert) (db : Database) (id : String) : EventMapping where
  id
  eventStateId := resolveSurvivingEventStateId db insert
  syncEventId := insert.syncEventId
  calendarId := insert.calendarId
  sourceCalendarId := some insert.sourceCalendarId
  destinationEventUid := insert.destinationEventUid
  deleteIdentifier := insert.deleteIdentifier
  syncEventHash := insert.syncEventHash
  startTime := insert.startTime
  endTime := insert.endTime

def insertRow (db : Database) (rows : List EventMapping) (insert : PendingInsert) :
    List EventMapping :=
  let row := insert.row db (db.newId rows)
  if rows.any row.collides then rows else rows ++ [row]

/-- The row with the columns of an update. -/
def EventMapping.write (m : EventMapping) (u : PendingUpdate) : EventMapping :=
  { m with
    deleteIdentifier := u.deleteIdentifier
    syncEventHash := some u.syncEventHash
    syncEventId := u.syncEventId
    startTime := u.startTime
    endTime := u.endTime }

def EventMapping.writeIf (u : PendingUpdate) (m : EventMapping) : EventMapping :=
  if m.id = u.id then m.write u else m

def updateRow (rows : List EventMapping) (u : PendingUpdate) : Option (List EventMapping) :=
  let others := rows.filter fun m => m.id ≠ u.id
  if (rows.filter fun m => m.id = u.id).any fun m => others.any (m.write u).collides then none
  else some (rows.map (EventMapping.writeIf u))

/-- `createDatabaseFlush`. -/
def flushRows (db : Database) (changes : PendingChanges) (rows : List EventMapping) :
    Option (List EventMapping) :=
  let kept := rows.filter fun m => !changes.deletes.contains m.id
  (changes.updates.getD []).foldlM updateRow (changes.inserts.foldl (insertRow db) kept)

/-! ## Flushes without conflicts -/

@[simp] theorem EventMapping.id_write (m : EventMapping) (u : PendingUpdate) :
    (m.write u).id = m.id := rfl

@[simp] theorem EventMapping.id_writeIf (u : PendingUpdate) (m : EventMapping) :
    (m.writeIf u).id = m.id := by
  unfold EventMapping.writeIf
  split <;> rfl

def EventMapping.writeAll (us : List PendingUpdate) (m : EventMapping) : EventMapping :=
  us.foldl (fun m u => m.writeIf u) m

theorem EventMapping.writeAll_of_not_mem {us : List PendingUpdate} {m : EventMapping}
    (h : m.id ∉ us.map (·.id)) : m.writeAll us = m := by
  induction us generalizing m with
  | nil => rfl
  | cons u us ih =>
    simp only [List.map_cons, List.mem_cons, not_or] at h
    have hu : m.writeIf u = m := if_neg h.1
    rw [writeAll, List.foldl_cons, hu]
    exact ih h.2

theorem EventMapping.writeAll_of_mem {us : List PendingUpdate} {u : PendingUpdate}
    {m : EventMapping} (hn : (us.map (·.id)).Nodup) (hu : u ∈ us) (hid : u.id = m.id) :
    m.writeAll us = m.write u := by
  induction us generalizing m with
  | nil => cases hu
  | cons v us ih =>
    obtain ⟨hv, hn⟩ := List.nodup_cons.1 hn
    rw [writeAll, List.foldl_cons]
    rcases List.mem_cons.1 hu with rfl | hu
    · have hw : m.writeIf u = m.write u := if_pos hid.symm
      rw [hw]
      exact writeAll_of_not_mem (by rwa [id_write, ← hid])
    · have hne : m.id ≠ v.id := fun h => hv (List.mem_map.2 ⟨u, hu, hid.trans h⟩)
      have hw : m.writeIf v = m := if_neg hne
      rw [hw]
      exact ih hn hu hid

/-- A row after the updates is as before, or as one of them leaves it. -/
theorem EventMapping.writeAll_cases {us : List PendingUpdate} (hn : (us.map (·.id)).Nodup)
    (m : EventMapping) :
    (m.id ∉ us.map (·.id) ∧ m.writeAll us = m) ∨
      ∃ u ∈ us, u.id = m.id ∧ m.writeAll us = m.write u := by
  by_cases h : m.id ∈ us.map (·.id)
  · obtain ⟨u, hu, hid⟩ := List.mem_map.1 h
    exact Or.inr ⟨u, hu, hid, writeAll_of_mem hn hu hid⟩
  · exact Or.inl ⟨h, writeAll_of_not_mem h⟩

@[simp] theorem EventMapping.id_writeAll (us : List PendingUpdate) (m : EventMapping) :
    (m.writeAll us).id = m.id := by
  induction us generalizing m with
  | nil => rfl
  | cons u us ih => rw [writeAll, List.foldl_cons, ← writeAll, ih, id_writeIf]

section Flush

variable {db : Database} {rows : List EventMapping}

def AreRows (db : Database) (inserts : List PendingInsert) (new : List EventMapping) : Prop :=
  List.Forall₂ (fun insert m => ∃ id, m = insert.row db id) inserts new

theorem foldl_insertRow (db : Database) (inserts : List PendingInsert)
    (hid : (rows.map (·.id)).Nodup) (hne : ∀ m ∈ rows, m.id ≠ "")
    (hs : (rows.map (·.syncEventId) ++ inserts.map (·.syncEventId)).Nodup) :
    ∃ new, inserts.foldl (insertRow db) rows = rows ++ new ∧ AreRows db inserts new ∧
      ((rows ++ new).map (·.id)).Nodup ∧ ∀ m ∈ new, m.id ≠ "" := by
  induction inserts generalizing rows with
  | nil => exact ⟨[], by simp, .nil, by simpa using hid, by simp⟩
  | cons insert inserts ih =>
    let row := insert.row db (db.newId rows)
    have hnone : rows.any row.collides = false := by
      rw [List.any_eq_false]
      intro m hm hc
      have hc := of_decide_eq_true (Bool.and_eq_true_iff.1 hc).2
      exact (List.nodup_append.1 hs).2.2 _ (List.mem_map_of_mem hm) insert.syncEventId
        (by simp) hc.symm
    have hins : insertRow db rows insert = rows ++ [row] := by
      simp only [insertRow]
      rw [if_neg (by simpa [row] using hnone)]
    have hfresh : ((rows ++ [row]).map (·.id)).Nodup := by
      rw [List.map_append, List.nodup_append]
      refine ⟨hid, List.pairwise_singleton _ _, ?_⟩
      rintro x hx y hy rfl
      obtain rfl := List.mem_singleton.1 hy
      exact db.newId_fresh rows hx
    obtain ⟨new, hnew, hrows, hids, hnes⟩ := ih hfresh (by
      intro m hm
      rcases List.mem_append.1 hm with hm | hm
      · exact hne m hm
      · obtain rfl := List.mem_singleton.1 hm
        exact db.newId_ne rows) (by simpa [row, PendingInsert.row] using hs)
    refine ⟨row :: new, ?_, .cons ⟨_, rfl⟩ hrows, ?_, ?_⟩
    · rw [List.foldl_cons, hins, hnew, List.append_assoc]
      rfl
    · simpa [List.append_assoc] using hids
    · intro m hm
      rcases List.mem_cons.1 hm with rfl | hm
      · exact db.newId_ne rows
      · exact hnes m hm

theorem foldlM_updateRow {us : List PendingUpdate} (hs : (us.map (·.syncEventId)).Nodup)
    (hfree : ∀ u ∈ us, ∀ m ∈ rows, m.id ≠ u.id → m.syncEventId ≠ u.syncEventId) :
    us.foldlM updateRow rows = some (rows.map (·.writeAll us)) := by
  induction us generalizing rows with
  | nil => simp [EventMapping.writeAll]
  | cons u us ih =>
    obtain ⟨hu, hs⟩ := List.nodup_cons.1 hs
    have hok : updateRow rows u = some (rows.map (EventMapping.writeIf u)) := by
      rw [updateRow, if_neg]
      simp only [List.any_eq_true, List.mem_filter, decide_eq_true_eq, not_exists, not_and]
      intro m hm m' hm' hc
      have hc := of_decide_eq_true (Bool.and_eq_true_iff.1 hc).2
      exact hfree u List.mem_cons_self m' hm'.1 hm'.2 hc.symm
    have hfree' : ∀ v ∈ us, ∀ m ∈ rows.map (EventMapping.writeIf u), m.id ≠ v.id →
        m.syncEventId ≠ v.syncEventId := by
      intro v hv m' hm' hne
      obtain ⟨m, hm, rfl⟩ := List.mem_map.1 hm'
      rw [EventMapping.id_writeIf] at hne
      by_cases hid : m.id = u.id
      · rw [EventMapping.writeIf, if_pos hid]
        exact fun h => hu (List.mem_map.2 ⟨v, hv, h.symm⟩)
      · rw [EventMapping.writeIf, if_neg hid]
        exact hfree v (List.mem_cons_of_mem _ hv) m hm hne
    rw [List.foldlM_cons, hok]
    refine (ih hs hfree').trans ?_
    rw [List.map_map]
    rfl

/-- What the inserts and updates of a flush must satisfy not to conflict with the kept rows. -/
structure Fits (kept : List EventMapping) (inserts : List PendingInsert)
    (updates : List PendingUpdate) : Prop where
  inserted : (kept.map (·.syncEventId) ++ inserts.map (·.syncEventId)).Nodup
  updated : (updates.map (·.syncEventId)).Nodup
  free : ∀ u ∈ updates, ∀ m ∈ kept, m.id ≠ u.id → m.syncEventId ≠ u.syncEventId
  apart : ∀ u ∈ updates, ∀ i ∈ inserts, i.syncEventId ≠ u.syncEventId
  known : ∀ u ∈ updates, ∃ m ∈ kept, m.id = u.id

theorem AreRows.mem {inserts : List PendingInsert} {new : List EventMapping}
    (h : AreRows db inserts new) {m : EventMapping} (hm : m ∈ new) :
    ∃ i ∈ inserts, ∃ id, m = i.row db id := by
  induction h with
  | nil => cases hm
  | cons hrow _ ih =>
    rcases List.mem_cons.1 hm with rfl | hm
    · exact ⟨_, List.mem_cons_self, hrow⟩
    · obtain ⟨i, hi, hid⟩ := ih hm
      exact ⟨i, List.mem_cons_of_mem _ hi, hid⟩

theorem AreRows.exists {inserts : List PendingInsert} {new : List EventMapping}
    (h : AreRows db inserts new) {i : PendingInsert} (hi : i ∈ inserts) :
    ∃ m ∈ new, ∃ id, m = i.row db id := by
  induction h with
  | nil => cases hi
  | cons hrow _ ih =>
    rcases List.mem_cons.1 hi with rfl | hi
    · exact ⟨_, List.mem_cons_self, hrow⟩
    · obtain ⟨m, hm, hid⟩ := ih hi
      exact ⟨m, List.mem_cons_of_mem _ hm, hid⟩

/-- **A flush without conflicts**: the kept rows are updated, and each insert adds a row. -/
theorem flushRows_eq_some (db : Database) (changes : PendingChanges)
    (hid : (rows.map (·.id)).Nodup) (hne : ∀ m ∈ rows, m.id ≠ "")
    (hfits : Fits (rows.filter fun m => !changes.deletes.contains m.id) changes.inserts
      (changes.updates.getD [])) :
    let kept := rows.filter fun m => !changes.deletes.contains m.id
    ∃ new, flushRows db changes rows =
        some (kept.map (·.writeAll (changes.updates.getD [])) ++ new) ∧
      AreRows db changes.inserts new ∧ ((kept ++ new).map (·.id)).Nodup ∧
      ∀ m ∈ new, m.id ≠ "" := by
  intro kept
  obtain ⟨new, hnew, hrows, hids, hnes⟩ := foldl_insertRow db changes.inserts
    (hid.sublist (List.filter_sublist.map _)) (fun m hm => hne m (List.mem_filter.1 hm).1)
    hfits.inserted
  refine ⟨new, ?_, hrows, hids, hnes⟩
  have hapart : ∀ u ∈ changes.updates.getD [], ∀ m ∈ new, m.id ≠ u.id := by
    intro u hu m hm hmid
    obtain ⟨m', hm', hid'⟩ := hfits.known u hu
    rw [List.map_append] at hids
    exact (List.nodup_append.1 hids).2.2 _ (List.mem_map_of_mem hm') _ (List.mem_map_of_mem hm)
      (hid'.trans hmid.symm)
  rw [flushRows, hnew, foldlM_updateRow hfits.updated, List.map_append]
  · congr 2
    conv_rhs => rw [← List.map_id new]
    refine List.map_congr_left fun m hm => EventMapping.writeAll_of_not_mem fun h => ?_
    obtain ⟨u, hu, hmid⟩ := List.mem_map.1 h
    exact hapart u hu m hm hmid.symm
  · intro u hu m hm hmid
    rcases List.mem_append.1 hm with hm | hm
    · exact hfits.free u hu m hm hmid
    · obtain ⟨i, hi, id, rfl⟩ := hrows.mem hm
      exact hfits.apart u hu i hi

theorem flushRows_bind (db : Database) (changes : PendingChanges) (us : List PendingUpdate)
    (rows : List EventMapping) :
    (flushRows db changes rows).bind (flushRows db { updates := some us }) =
      flushRows db { changes with updates := some (changes.updates.getD [] ++ us) } rows := by
  have hupdates : flushRows db { updates := some us } = us.foldlM updateRow := by
    funext rows
    have hkept : rows.filter (fun m => !([] : List String).contains m.id) = rows :=
      List.filter_eq_self.2 fun _ _ => rfl
    rw [flushRows, hkept]
    rfl
  rw [hupdates]
  simp only [flushRows, Option.getD_some, List.foldlM_append]
  rfl

end Flush

end Keeper
