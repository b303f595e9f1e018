import Keeper.Foundations.Windows
import Mathlib.Data.List.Nodup
import Mathlib.Data.Prod.Lex
import Mathlib.Order.OrderDual
import Mathlib.Data.Int.Order.Basic

/-!
# Legacy recurring states

`buildLegacyRecurringStateConsolidation` (`database/legacy-recurring-state-consolidation.ts`): four statements that
leave one state for each calendar, uid and recurrence id among the states without a source event. A mapping of a
state that goes is moved to the one that stays, where that has none for the same destination. The ids are of any
type with an order; `NULL` is `none`.

* `target`: the state that stays for a state.
* `mem_mappings_run_iff`: the mappings that are left, and where they point.
* `consolidates`: one state and one mapping for each destination is left of a group, and the rest as it was.
* `run_run`: to run the statements twice is to run them once.
-/

namespace Keeper

namespace LegacyStates

open Windows

variable {Id : Type} [LinearOrder Id]

/-! ## Tables -/

/-- A row of `event_states`. -/
structure StateRow (Id : Type) where
  id : Id
  calendarId : Id
  sourceEventUid : Option String := none
  recurrenceId : Option String := none
  sourceEventId : Option String := none
  createdAt : ℤ
  deriving DecidableEq

/-- A row of `event_mappings`, with the destination calendar. -/
structure MappingRow (Id : Type) where
  id : Id
  eventStateId : Option Id
  calendarId : Id
  createdAt : ℤ
  deriving DecidableEq

/-- A row of `keeper_recurring_state_consolidation`. -/
structure ConsolidationRow (Id : Type) where
  mappingId : Id
  eventStateId : Id
  canonicalId : Id
  mappingRank : ℕ

structure Tables (Id : Type) where
  states : List (StateRow Id)
  mappings : List (MappingRow Id)
  consolidation : List (ConsolidationRow Id) := []

/-! ## Statements -/

/-- `buildLegacySourceEventFilter`, with the conditions that follow it. -/
def StateRow.isLegacy (hasSourceEventColumn : Bool) (state : StateRow Id) : Bool :=
  (!hasSourceEventColumn || state.sourceEventId.isNone) && state.sourceEventUid.isSome && state.recurrenceId.isSome

/-- `PARTITION BY "calendarId", "sourceEventUid", "recurrenceId"`. -/
def StateRow.key (state : StateRow Id) : Id × Option String × Option String :=
  (state.calendarId, state.sourceEventUid, state.recurrenceId)

/-- `ORDER BY "createdAt" DESC, "id" DESC`. -/
def StateRow.rank (state : StateRow Id) : (ℤ ×ₗ Id)ᵒᵈ := OrderDual.toDual (toLex (state.createdAt, state.id))

/-- `ranked_states`: the legacy states, with the first of the partition of each. -/
def rankedStates (hasSourceEventColumn : Bool) (states : List (StateRow Id)) : List (StateRow Id × Id) :=
  let legacy := states.filter (·.isLegacy hasSourceEventColumn)
  legacy.filterMap fun state =>
    (firstValue StateRow.key StateRow.rank legacy state).map fun first => (state, first.id)

/-- A row of `ranked_states` joined with a mapping of the state. -/
structure JoinedRow (Id : Type) where
  state : StateRow Id
  canonicalId : Id
  mapping : MappingRow Id

/-- `INNER JOIN "event_mappings" ON "eventStateId" = "id"`. -/
def joinMappings (ranked : List (StateRow Id × Id)) (mappings : List (MappingRow Id)) : List (JoinedRow Id) :=
  ranked.flatMap fun (state, canonicalId) =>
    (mappings.filter (·.eventStateId = some state.id)).map fun mapping => ⟨state, canonicalId, mapping⟩

/-- `PARTITION BY canonical_id, mappings."calendarId"`. -/
def JoinedRow.key (row : JoinedRow Id) : Id × Id := (row.canonicalId, row.mapping.calendarId)

/-- `ORDER BY (states."id" = canonical_id) DESC, mappings."createdAt" DESC, mappings."id" DESC`. -/
def JoinedRow.rank (row : JoinedRow Id) : (Bool ×ₗ (ℤ ×ₗ Id))ᵒᵈ :=
  OrderDual.toDual (toLex (decide (row.state.id = row.canonicalId), toLex (row.mapping.createdAt, row.mapping.id)))

/-- `CREATE TEMP TABLE keeper_recurring_state_consolidation`. -/
def createConsolidation (hasSourceEventColumn : Bool) (tables : Tables Id) : Tables Id :=
  let joined := joinMappings (rankedStates hasSourceEventColumn tables.states) tables.mappings
  { tables with
    consolidation := joined.map fun row =>
      ⟨row.mapping.id, row.state.id, row.canonicalId, rowNumber JoinedRow.key JoinedRow.rank joined row⟩ }

/-- `DELETE FROM "event_mappings"`: those that are not first. -/
def deleteOutranked (tables : Tables Id) : Tables Id :=
  { tables with
    mappings := tables.mappings.filter fun mapping =>
      !tables.consolidation.any fun row => row.mappingId = mapping.id && 1 < row.mappingRank }

/-- `UPDATE "event_mappings"`, once it has come to some of the rows. -/
def repointSome (updated : Id → Bool) (tables : Tables Id) : Tables Id :=
  { tables with
    mappings := tables.mappings.map fun mapping =>
      match tables.consolidation.find? fun row =>
          row.mappingId = mapping.id && row.mappingRank = 1 && row.eventStateId ≠ row.canonicalId with
      | some row =>
        if updated mapping.id then { mapping with eventStateId := some row.canonicalId } else mapping
      | none => mapping }

/-- `UPDATE "event_mappings"`: what is first is moved to the state that stays. -/
def repoint (tables : Tables Id) : Tables Id := repointSome (fun _ => true) tables

/-- `DELETE FROM "event_states"`, which is taken to cascade. -/
def deleteStates (hasSourceEventColumn : Bool) (tables : Tables Id) : Tables Id :=
  let deleted (id : Id) : Bool :=
    (rankedStates hasSourceEventColumn tables.states).any fun (state, canonicalId) =>
      state.id = id && state.id ≠ canonicalId
  { tables with
    states := tables.states.filter fun state => !deleted state.id
    mappings := tables.mappings.filter fun mapping => !mapping.eventStateId.any deleted }

def buildLegacyRecurringStateConsolidation (hasSourceEventColumn : Bool) : List (Tables Id → Tables Id) :=
  [createConsolidation hasSourceEventColumn, deleteOutranked, repoint, deleteStates hasSourceEventColumn]

def run (statements : List (Tables Id → Tables Id)) (tables : Tables Id) : Tables Id :=
  statements.foldl (fun tables statement => statement tables) tables

/-! ## What stays -/

/-- No state has two mappings to one destination. -/
def HasSingleMappings (mappings : List (MappingRow Id)) : Prop :=
  ∀ mapping ∈ mappings, ∀ other ∈ mappings, mapping.eventStateId.isSome = true →
    mapping.eventStateId = other.eventStateId → mapping.calendarId = other.calendarId → mapping = other

/-- Rows have ids of their own, and no state has two mappings to one destination. -/
structure Tables.IsValid (tables : Tables Id) : Prop where
  states : (tables.states.map (·.id)).Nodup
  mappings : (tables.mappings.map (·.id)).Nodup
  single : HasSingleMappings tables.mappings

def target (hasSourceEventColumn : Bool) (states : List (StateRow Id)) (id : Id) : Id :=
  (((rankedStates hasSourceEventColumn states).find? (·.1.id = id)).map (·.2)).getD id

def retarget (hasSourceEventColumn : Bool) (states : List (StateRow Id)) (mapping : MappingRow Id) :
    MappingRow Id :=
  { mapping with eventStateId := mapping.eventStateId.map (target hasSourceEventColumn states) }

section States

variable {hasSourceEventColumn : Bool} {states : List (StateRow Id)} (hstates : (states.map (·.id)).Nodup)

variable {state : StateRow Id}

theorem mem_rankedStates_iff {canonicalId : Id} : (state, canonicalId) ∈ rankedStates hasSourceEventColumn states ↔
      (state ∈ states ∧ state.isLegacy hasSourceEventColumn = true) ∧
        ∃ first, firstValue StateRow.key StateRow.rank (states.filter (·.isLegacy hasSourceEventColumn)) state =
          some first ∧ canonicalId = first.id := by
  simp only [rankedStates, List.mem_filterMap, Option.map_eq_some_iff, Prod.mk.injEq, List.mem_filter]
  constructor
  · rintro ⟨state, hstate, first, hfirst, rfl, rfl⟩
    exact ⟨hstate, first, hfirst, rfl⟩
  · rintro ⟨hstate, first, hfirst, rfl⟩
    exact ⟨state, hstate, first, hfirst, rfl, rfl⟩

include hstates

omit [LinearOrder Id] in
theorem eq_of_id_eq {other : StateRow Id} (h : state ∈ states) (h' : other ∈ states) (hid : state.id = other.id) :
    state = other :=
  List.inj_on_of_nodup_map hstates h h' hid

omit [LinearOrder Id] in
theorem injOn_rank : Set.InjOn StateRow.rank
    {state | state ∈ states.filter (·.isLegacy hasSourceEventColumn)} := by
  intro state h other h' heq
  have hid := congrArg (fun rank => (ofLex (OrderDual.ofDual rank)).2) heq
  exact eq_of_id_eq hstates (List.mem_filter.1 h).1 (List.mem_filter.1 h').1 hid

/-- **The state that stays** for a legacy state: the latest of its key. -/
theorem target_of_isLegacy (h : state ∈ states) (hlegacy : state.isLegacy hasSourceEventColumn = true) :
    ∃ first ∈ states, first.isLegacy hasSourceEventColumn = true ∧ first.key = state.key ∧
      (state, first.id) ∈ rankedStates hasSourceEventColumn states ∧
      target hasSourceEventColumn states state.id = first.id := by
  have hmem := List.mem_filter.2 ⟨h, hlegacy⟩
  obtain ⟨first, hfirst⟩ := @exists_firstValue _ _ _ _ _ StateRow.key StateRow.rank _ _ hmem
  obtain ⟨hfirstMem, hkey, -⟩ := (firstValue_eq_some_iff (injOn_rank hstates)).1 hfirst
  have hranked : (state, first.id) ∈ rankedStates hasSourceEventColumn states :=
    mem_rankedStates_iff.2 ⟨⟨h, hlegacy⟩, first, hfirst, rfl⟩
  refine ⟨first, (List.mem_filter.1 hfirstMem).1, (List.mem_filter.1 hfirstMem).2, hkey, hranked, ?_⟩
  cases hfind : (rankedStates hasSourceEventColumn states).find? (·.1.id = state.id) with
  | none => exact absurd (decide_eq_true rfl) (List.find?_eq_none.1 hfind _ hranked)
  | some row =>
    obtain ⟨state', canonicalId⟩ := row
    obtain ⟨⟨hrow, -⟩, other, hother, hid⟩ := mem_rankedStates_iff.1 (List.mem_of_find?_eq_some hfind)
    have heq := eq_of_id_eq hstates hrow h (by simpa using List.find?_some hfind)
    rw [heq, hfirst] at hother
    rw [target, hfind, Option.map_some, Option.getD_some, hid, Option.some.inj hother]

theorem canonicalId_eq {canonicalId : Id} (h : (state, canonicalId) ∈ rankedStates hasSourceEventColumn states) :
    canonicalId = target hasSourceEventColumn states state.id := by
  obtain ⟨⟨hstate, hlegacy⟩, first, hfirst, rfl⟩ := mem_rankedStates_iff.1 h
  obtain ⟨first', -, -, -, hranked, htarget⟩ := target_of_isLegacy hstates hstate hlegacy
  obtain ⟨-, other, hother, hid⟩ := mem_rankedStates_iff.1 hranked
  rw [htarget, hid, Option.some.inj (hfirst.symm.trans hother)]

omit hstates in
theorem target_of_not_isLegacy {id : Id}
    (h : ∀ state ∈ states, state.id = id → state.isLegacy hasSourceEventColumn = false) :
    target hasSourceEventColumn states id = id := by
  have hnone : (rankedStates hasSourceEventColumn states).find? (·.1.id = id) = none := by
    refine List.find?_eq_none.2 ?_
    rintro ⟨state, canonicalId⟩ hrow hid
    obtain ⟨⟨hmem, hlegacy⟩, -⟩ := mem_rankedStates_iff.1 hrow
    rw [h _ hmem (of_decide_eq_true hid)] at hlegacy
    cases hlegacy
  rw [target, hnone]
  rfl

omit hstates in
theorem target_cases (id : Id) :
    (∃ state ∈ states, state.id = id ∧ state.isLegacy hasSourceEventColumn = true) ∨
      target hasSourceEventColumn states id = id := by
  by_cases h : ∃ state ∈ states, state.id = id ∧ state.isLegacy hasSourceEventColumn = true
  · exact Or.inl h
  · refine Or.inr (target_of_not_isLegacy fun state hmem hid => ?_)
    exact Bool.eq_false_iff.2 fun hlegacy => h ⟨state, hmem, hid, hlegacy⟩

/-- States of one key have one state that stays, and of different keys different ones. -/
theorem target_eq_iff {other : StateRow Id} (h : state ∈ states)
    (hlegacy : state.isLegacy hasSourceEventColumn = true) (h' : other ∈ states)
    (hlegacy' : other.isLegacy hasSourceEventColumn = true) :
    target hasSourceEventColumn states state.id = target hasSourceEventColumn states other.id ↔
      state.key = other.key := by
  obtain ⟨first, hfirst, -, hkey, hranked, heq⟩ := target_of_isLegacy hstates h hlegacy
  obtain ⟨first', hfirst', -, hkey', hranked', heq'⟩ := target_of_isLegacy hstates h' hlegacy'
  rw [heq, heq']
  constructor
  · intro hid
    rw [← hkey, ← hkey', eq_of_id_eq hstates hfirst hfirst' hid]
  · intro hkeys
    obtain ⟨-, row, hrow, hid⟩ := mem_rankedStates_iff.1 hranked
    obtain ⟨-, row', hrow', hid'⟩ := mem_rankedStates_iff.1 hranked'
    rw [firstValue_congr hkeys, hrow'] at hrow
    rw [hid, hid', Option.some.inj hrow]

/-- **What stays, stays.** -/
theorem target_target (id : Id) : target hasSourceEventColumn states (target hasSourceEventColumn states id) =
    target hasSourceEventColumn states id := by
  rcases target_cases id with ⟨state, hmem, rfl, hlegacy⟩ | heq
  · obtain ⟨first, hfirst, hfirstLegacy, hkey, -, heq⟩ := target_of_isLegacy hstates hmem hlegacy
    have hsame := (target_eq_iff hstates hfirst hfirstLegacy hmem hlegacy).2 hkey
    rw [heq] at hsame ⊢
    exact hsame
  · rw [heq, heq]

theorem any_deleted_iff {id : Id} : ((rankedStates hasSourceEventColumn states).any fun (state, canonicalId) =>
      state.id = id && state.id ≠ canonicalId) = true ↔ target hasSourceEventColumn states id ≠ id := by
  simp only [List.any_eq_true, Bool.and_eq_true, decide_eq_true_eq]
  constructor
  · rintro ⟨⟨state, canonicalId⟩, hranked, rfl, hne⟩
    rw [← canonicalId_eq hstates hranked]
    exact hne.symm
  · intro hne
    obtain ⟨state, hmem, rfl, hlegacy⟩ := (target_cases id).resolve_right hne
    obtain ⟨first, -, -, -, hranked, heq⟩ := target_of_isLegacy hstates hmem hlegacy
    exact ⟨_, hranked, rfl, fun h => hne (heq.trans h.symm)⟩

end States

section Mappings

variable {hasSourceEventColumn : Bool} {tables : Tables Id}

def joined (hasSourceEventColumn : Bool) (tables : Tables Id) : List (JoinedRow Id) :=
  joinMappings (rankedStates hasSourceEventColumn tables.states) tables.mappings

def IsFirst (hasSourceEventColumn : Bool) (tables : Tables Id) (mapping : MappingRow Id) : Prop :=
  ∀ row ∈ joined hasSourceEventColumn tables, row.mapping.id = mapping.id →
    rowNumber JoinedRow.key JoinedRow.rank (joined hasSourceEventColumn tables) row = 1

variable {mapping : MappingRow Id}

theorem mem_joined_iff {state : StateRow Id} {canonicalId : Id} :
    ⟨state, canonicalId, mapping⟩ ∈ joined hasSourceEventColumn tables ↔
      (state, canonicalId) ∈ rankedStates hasSourceEventColumn tables.states ∧
        mapping ∈ tables.mappings ∧ mapping.eventStateId = some state.id := by
  simp only [joined, joinMappings, List.mem_flatMap, List.mem_map, List.mem_filter, decide_eq_true_eq,
    JoinedRow.mk.injEq, Prod.exists]
  constructor
  · rintro ⟨state, canonicalId, hranked, mapping, hmapping, rfl, rfl, rfl⟩
    exact ⟨hranked, hmapping⟩
  · rintro ⟨hranked, hmapping⟩
    exact ⟨state, canonicalId, hranked, mapping, hmapping, rfl, rfl, rfl⟩

theorem mem_deleteOutranked_iff :
    mapping ∈ (deleteOutranked (createConsolidation hasSourceEventColumn tables)).mappings ↔
      mapping ∈ tables.mappings ∧ IsFirst hasSourceEventColumn tables mapping := by
  simp only [deleteOutranked, createConsolidation, List.mem_filter, Bool.not_eq_true', List.any_eq_false,
    List.mem_map, forall_exists_index, and_imp, forall_apply_eq_imp_iff₂, Bool.and_eq_true, decide_eq_true_eq]
  refine and_congr_right fun _ => forall₂_congr fun row _ => ⟨fun h hid => ?_, ?_⟩
  · exact le_antisymm (not_lt.1 fun hlt => h ⟨hid, hlt⟩) (Nat.le_add_left 1 _)
  · rintro h ⟨hid, hlt⟩
    exact hlt.ne' (h hid)

variable (h : tables.IsValid)

include h

omit [LinearOrder Id] in
theorem Tables.IsValid.eq_of_id {other : MappingRow Id} (hm : mapping ∈ tables.mappings)
    (hm' : other ∈ tables.mappings) (hid : mapping.id = other.id) : mapping = other :=
  List.inj_on_of_nodup_map h.mappings hm hm' hid

/-- **One mapping is first** of those that are to point to one state, for one destination. -/
theorem IsFirst.eq {other : MappingRow Id} (hm : mapping ∈ tables.mappings) (hm' : other ∈ tables.mappings)
    (hfirst : IsFirst hasSourceEventColumn tables mapping) (hfirst' : IsFirst hasSourceEventColumn tables other)
    {id id' : Id} (hid : mapping.eventStateId = some id) (hid' : other.eventStateId = some id')
    (htarget : target hasSourceEventColumn tables.states id = target hasSourceEventColumn tables.states id')
    (hcalendar : mapping.calendarId = other.calendarId) : mapping = other := by
  -- A legacy state that stays is legacy, so either both mappings are of legacy states or neither is.
  have hboth : ∀ {id id' : Id}, (∃ state ∈ tables.states, state.id = id ∧ state.isLegacy hasSourceEventColumn = true) →
      target hasSourceEventColumn tables.states id = target hasSourceEventColumn tables.states id' →
      ∃ state ∈ tables.states, state.id = id' ∧ state.isLegacy hasSourceEventColumn = true := by
    rintro _ id' ⟨state, hstate, rfl, hlegacy⟩ heq
    refine (target_cases id').elim (fun hleft => hleft) fun hstays => ?_
    obtain ⟨first, hfirst, hfirstLegacy, -, -, hstate⟩ := target_of_isLegacy h.states hstate hlegacy
    exact ⟨first, hfirst, hstate.symm.trans (heq.trans hstays), hfirstLegacy⟩
  by_cases hleft : ∃ state ∈ tables.states, state.id = id ∧ state.isLegacy hasSourceEventColumn = true
  · obtain ⟨state', hstate', rfl, hlegacy'⟩ := hboth hleft htarget
    obtain ⟨state, hstate, rfl, hlegacy⟩ := hleft
    obtain ⟨first, -, -, -, hranked, heq⟩ := target_of_isLegacy h.states hstate hlegacy
    obtain ⟨first', -, -, -, hranked', heq'⟩ := target_of_isLegacy h.states hstate' hlegacy'
    have hjoined : ⟨state, first.id, mapping⟩ ∈ joined hasSourceEventColumn tables :=
      mem_joined_iff.2 ⟨hranked, hm, hid⟩
    have hjoined' : ⟨state', first'.id, other⟩ ∈ joined hasSourceEventColumn tables :=
      mem_joined_iff.2 ⟨hranked', hm', hid'⟩
    have hkey : (JoinedRow.mk state first.id mapping).key = (JoinedRow.mk state' first'.id other).key :=
      Prod.ext (heq.symm.trans (htarget.trans heq')) hcalendar
    have hle := rowNumber_eq_one_iff.1 (hfirst _ hjoined rfl) _ hjoined' hkey.symm
    have hge := rowNumber_eq_one_iff.1 (hfirst' _ hjoined' rfl) _ hjoined hkey
    exact h.eq_of_id hm hm' (congrArg (fun rank => (ofLex (ofLex (OrderDual.ofDual rank)).2).2) (le_antisymm hle hge))
  · have hstays := (target_cases id).resolve_left hleft
    have hstays' := (target_cases id').resolve_left fun hleft' => hleft (hboth hleft' htarget.symm)
    refine h.single mapping hm other hm' (by rw [hid]; rfl) ?_ hcalendar
    rw [hid, hid', ← hstays, htarget, hstays']

theorem exists_isFirst {state : StateRow Id} (hstate : state ∈ tables.states)
    (hlegacy : state.isLegacy hasSourceEventColumn = true) (hm : mapping ∈ tables.mappings)
    (hid : mapping.eventStateId = some state.id) :
    ∃ other ∈ tables.states, other.isLegacy hasSourceEventColumn = true ∧ other.key = state.key ∧
      ∃ first ∈ tables.mappings, first.eventStateId = some other.id ∧ first.calendarId = mapping.calendarId ∧
        IsFirst hasSourceEventColumn tables first := by
  obtain ⟨canonical, -, -, -, hranked, htarget⟩ := target_of_isLegacy h.states hstate hlegacy
  have hjoined : ⟨state, canonical.id, mapping⟩ ∈ joined hasSourceEventColumn tables :=
    mem_joined_iff.2 ⟨hranked, hm, hid⟩
  have hsame : ∀ row ∈ joined hasSourceEventColumn tables, ∀ row' ∈ joined hasSourceEventColumn tables,
      row.mapping.id = row'.mapping.id → row = row' := by
    rintro ⟨s, c, m⟩ hrow ⟨s', c', m'⟩ hrow' heq
    obtain ⟨hranked, hm, hid⟩ := mem_joined_iff.1 hrow
    obtain ⟨hranked', hm', hid'⟩ := mem_joined_iff.1 hrow'
    obtain rfl : m = m' := h.eq_of_id hm hm' heq
    obtain rfl := eq_of_id_eq h.states (mem_rankedStates_iff.1 hranked).1.1 (mem_rankedStates_iff.1 hranked').1.1
      (Option.some.inj (hid.symm.trans hid'))
    rw [canonicalId_eq h.states hranked, canonicalId_eq h.states hranked']
  have hrank : Set.InjOn JoinedRow.rank {row | row ∈ joined hasSourceEventColumn tables} :=
    fun row hrow row' hrow' heq => hsame row hrow row' hrow'
      (congrArg (fun rank => (ofLex (ofLex (OrderDual.ofDual rank)).2).2) heq)
  obtain ⟨⟨other, c, first⟩, hfirst⟩ := @exists_firstValue _ _ _ _ _ JoinedRow.key JoinedRow.rank _ _ hjoined
  obtain ⟨hfirstMem, hkey, hle⟩ := (firstValue_eq_some_iff hrank).1 hfirst
  obtain ⟨hranked', hfirst', hid'⟩ := mem_joined_iff.1 hfirstMem
  obtain ⟨⟨hother, hlegacy'⟩, -⟩ := mem_rankedStates_iff.1 hranked'
  refine ⟨other, hother, hlegacy', ?_, first, hfirst', hid', congrArg Prod.snd hkey, fun row hrow heq => ?_⟩
  · refine (target_eq_iff h.states hother hlegacy' hstate hlegacy).1 ?_
    rw [htarget, ← canonicalId_eq h.states hranked']
    exact congrArg Prod.fst hkey
  · obtain rfl := hsame _ hrow _ hfirstMem heq
    exact rowNumber_eq_one_iff.2 fun row' hrow' hkey' => hle row' hrow' (hkey'.trans hkey)

/-- **The mappings that are left** while the update goes on. -/
theorem mappings_repointSome (updated : Id → Bool) :
    (repointSome updated (deleteOutranked (createConsolidation hasSourceEventColumn tables))).mappings =
      (deleteOutranked (createConsolidation hasSourceEventColumn tables)).mappings.map fun mapping =>
        if updated mapping.id then retarget hasSourceEventColumn tables.states mapping else mapping := by
  refine List.map_congr_left fun mapping hmapping => ?_
  obtain ⟨hm, hfirst⟩ := mem_deleteOutranked_iff.1 hmapping
  cases hfind : (deleteOutranked (createConsolidation hasSourceEventColumn tables)).consolidation.find? fun row =>
      row.mappingId = mapping.id && row.mappingRank = 1 && row.eventStateId ≠ row.canonicalId with
  | some row =>
    obtain ⟨⟨state, canonicalId, other⟩, hjoined, rfl⟩ := List.mem_map.1 (List.mem_of_find?_eq_some hfind)
    have hspec := List.find?_some hfind
    simp only [Bool.and_eq_true, decide_eq_true_eq] at hspec
    obtain ⟨hranked, hother, hid⟩ := mem_joined_iff.1 hjoined
    obtain rfl : other = mapping := h.eq_of_id hother hm hspec.1.1
    dsimp only at hid ⊢
    rw [retarget, hid, Option.map_some, ← canonicalId_eq h.states hranked]
  | none =>
    have hsame : retarget hasSourceEventColumn tables.states mapping = mapping := by
      refine congrArg (fun eventStateId => { mapping with eventStateId }) ?_
      cases hid : mapping.eventStateId with
      | none => rfl
      | some id =>
        refine congrArg some ((target_cases id).elim ?_ fun hstays => hstays)
        rintro ⟨state, hstate, rfl, hlegacy⟩
        obtain ⟨first, -, -, -, hranked, htarget⟩ := target_of_isLegacy h.states hstate hlegacy
        have hjoined : ⟨state, first.id, mapping⟩ ∈ joined hasSourceEventColumn tables :=
          mem_joined_iff.2 ⟨hranked, hm, hid⟩
        have hspec := List.find?_eq_none.1 hfind _ (List.mem_map_of_mem hjoined)
        rw [htarget]
        by_contra hne
        refine hspec (by simpa using ⟨hfirst _ hjoined rfl, fun heq => hne heq.symm⟩)
    dsimp only
    rw [hsame, ite_self]

/-- **Every statement leaves one mapping** of a state for a destination, whichever rows the update has come to. -/
theorem hasSingleMappings_repointSome (updated : Id → Bool) : HasSingleMappings
    (repointSome updated (deleteOutranked (createConsolidation hasSourceEventColumn tables))).mappings := by
  rw [mappings_repointSome h]
  have hpoints : ∀ mapping : MappingRow Id, ∃ points : MappingRow Id, points =
      (if updated mapping.id then retarget hasSourceEventColumn tables.states mapping else mapping) ∧
        points.calendarId = mapping.calendarId ∧ ∀ id, points.eventStateId = some id → ∃ old,
          mapping.eventStateId = some old ∧ target hasSourceEventColumn tables.states old =
            target hasSourceEventColumn tables.states id := by
    intro mapping
    refine ⟨_, rfl, by split_ifs <;> rfl, fun id hid => ?_⟩
    split_ifs at hid
    · obtain ⟨old, hold, rfl⟩ := Option.map_eq_some_iff.1 hid
      exact ⟨old, hold, (target_target h.states old).symm⟩
    · exact ⟨id, hid, rfl⟩
  intro mapping hmapping other hother hsome heq hcalendar
  obtain ⟨old, hold, rfl⟩ := List.mem_map.1 hmapping
  obtain ⟨old', hold', rfl⟩ := List.mem_map.1 hother
  obtain ⟨hm, hfirst⟩ := mem_deleteOutranked_iff.1 hold
  obtain ⟨hm', hfirst'⟩ := mem_deleteOutranked_iff.1 hold'
  obtain ⟨_, rfl, hsame, hof⟩ := hpoints old
  obtain ⟨_, rfl, hsame', hof'⟩ := hpoints old'
  obtain ⟨id, hid⟩ := Option.isSome_iff_exists.1 hsome
  obtain ⟨source, hsource, htarget⟩ := hof id hid
  obtain ⟨source', hsource', htarget'⟩ := hof' id (heq ▸ hid)
  have hids := hfirst.eq h hm hm' hfirst' hsource hsource' (htarget.trans htarget'.symm)
    (hsame.symm.trans (hcalendar.trans hsame'))
  rw [hids]

/-- **What the statements leave.** -/
theorem run_eq : (run (buildLegacyRecurringStateConsolidation hasSourceEventColumn) tables).states =
      tables.states.filter (fun state => target hasSourceEventColumn tables.states state.id = state.id) ∧
    (run (buildLegacyRecurringStateConsolidation hasSourceEventColumn) tables).mappings =
      (deleteOutranked (createConsolidation hasSourceEventColumn tables)).mappings.map
        (retarget hasSourceEventColumn tables.states) := by
  constructor
  · refine List.filter_congr fun state _ => Bool.eq_iff_iff.2 ?_
    rw [Bool.not_eq_true', ← Bool.not_eq_true, decide_eq_true_eq]
    exact (not_congr (any_deleted_iff h.states)).trans not_not
  · have hrepoint := @mappings_repointSome _ _ hasSourceEventColumn _ h fun _ => true
    simp only [if_true] at hrepoint
    refine Eq.trans (List.filter_eq_self.2 fun mapping hmapping => ?_) hrepoint
    obtain ⟨old, -, rfl⟩ := List.mem_map.1 (hrepoint ▸ hmapping)
    -- The cascade meets none of them, as a state that stays for another stays itself.
    rw [Bool.not_eq_true', ← Bool.not_eq_true, Option.any_eq_true]
    rintro ⟨id, hid, hdeleted⟩
    obtain ⟨source, -, rfl⟩ := Option.map_eq_some_iff.1 hid
    exact (any_deleted_iff h.states).1 hdeleted (target_target h.states source)

theorem mem_mappings_run_iff :
    mapping ∈ (run (buildLegacyRecurringStateConsolidation hasSourceEventColumn) tables).mappings ↔
      ∃ old ∈ tables.mappings, IsFirst hasSourceEventColumn tables old ∧
        retarget hasSourceEventColumn tables.states old = mapping := by
  rw [(run_eq h).2, List.mem_map]
  simp only [mem_deleteOutranked_iff, and_assoc]

end Mappings

/-! ## Consolidation -/

def IsOutside (hasSourceEventColumn : Bool) (states : List (StateRow Id)) (id : Id) : Prop :=
  ∀ state ∈ states, state.id = id → state.isLegacy hasSourceEventColumn = true →
    ∀ other ∈ states, other.isLegacy hasSourceEventColumn = true → other.key = state.key → other = state

/-- A mapping is of a legacy state with the key of another. -/
def IsOfGroup (hasSourceEventColumn : Bool) (states : List (StateRow Id)) (state : StateRow Id)
    (mapping : MappingRow Id) : Prop :=
  ∃ other ∈ states, other.isLegacy hasSourceEventColumn = true ∧ other.key = state.key ∧
    mapping.eventStateId = some other.id

/-- **No mirror is lost**: a state stays of each group, and a mapping for each destination that the group had. -/
structure Consolidates (hasSourceEventColumn : Bool) (tables after : Tables Id) : Prop where
  states : after.states.Sublist tables.states
  mappings : (after.mappings.map (·.id)).Sublist (tables.mappings.map (·.id))
  mapping : ∀ mapping ∈ after.mappings, ∃ old ∈ tables.mappings,
    { old with eventStateId := mapping.eventStateId } = mapping
  distinct : ∀ state ∈ after.states, ∀ other ∈ after.states, state.isLegacy hasSourceEventColumn = true →
    other.isLegacy hasSourceEventColumn = true → state.key = other.key → state = other
  survivor : ∀ state ∈ tables.states, state.isLegacy hasSourceEventColumn = true →
    ∃ survivor ∈ after.states, survivor.isLegacy hasSourceEventColumn = true ∧ survivor.key = state.key ∧
      ∀ mapping ∈ tables.mappings, IsOfGroup hasSourceEventColumn tables.states state mapping →
        ∃ first ∈ tables.mappings, IsOfGroup hasSourceEventColumn tables.states state first ∧
          first.calendarId = mapping.calendarId ∧
          { first with eventStateId := some survivor.id } ∈ after.mappings ∧
          ∀ old ∈ tables.mappings, IsOfGroup hasSourceEventColumn tables.states state old →
            old.calendarId = mapping.calendarId → (∃ left ∈ after.mappings, left.id = old.id) → old = first
  outsideStates : ∀ state ∈ tables.states, IsOutside hasSourceEventColumn tables.states state.id →
    state ∈ after.states
  outsideMappings : ∀ mapping ∈ tables.mappings,
    (∀ id, mapping.eventStateId = some id → IsOutside hasSourceEventColumn tables.states id) →
      mapping ∈ after.mappings

omit [LinearOrder Id] in
theorem HasSingleMappings.mono {mappings left : List (MappingRow Id)} (h : HasSingleMappings mappings)
    (hleft : ∀ mapping ∈ left, mapping ∈ mappings) : HasSingleMappings left :=
  fun mapping hm other hm' => h mapping (hleft mapping hm) other (hleft other hm')

variable {hasSourceEventColumn : Bool} {tables : Tables Id} (h : tables.IsValid)

include h

theorem target_of_isOutside {id : Id} (hid : IsOutside hasSourceEventColumn tables.states id) :
    target hasSourceEventColumn tables.states id = id := by
  rcases target_cases id with ⟨state, hstate, rfl, hlegacy⟩ | hstays
  · obtain ⟨first, hfirst, hfirstLegacy, hkey, -, heq⟩ := target_of_isLegacy h.states hstate hlegacy
    rw [heq, hid state hstate rfl hlegacy first hfirst hfirstLegacy hkey]
  · exact hstays

theorem isFirst_of_isOutside {mapping : MappingRow Id} (hm : mapping ∈ tables.mappings)
    (houtside : ∀ id, mapping.eventStateId = some id → IsOutside hasSourceEventColumn tables.states id) :
    IsFirst hasSourceEventColumn tables mapping := by
  rintro ⟨state, canonicalId, same⟩ hrow hsame
  obtain ⟨hranked, hmem, hid⟩ := mem_joined_iff.1 hrow
  obtain rfl : same = mapping := h.eq_of_id hmem hm hsame
  obtain ⟨⟨hstate, hlegacy⟩, -⟩ := mem_rankedStates_iff.1 hranked
  refine rowNumber_eq_one_iff.2 ?_
  rintro ⟨state', canonicalId', mapping'⟩ hrow' hkey
  obtain ⟨hranked', hm', hid'⟩ := mem_joined_iff.1 hrow'
  obtain ⟨⟨hstate', hlegacy'⟩, -⟩ := mem_rankedStates_iff.1 hranked'
  obtain ⟨hcanonical, hcalendar⟩ : canonicalId' = canonicalId ∧ mapping'.calendarId = same.calendarId :=
    Prod.mk.inj hkey
  obtain rfl : state' = state := by
    refine houtside _ hid state hstate rfl hlegacy state' hstate' hlegacy' ?_
    refine (target_eq_iff h.states hstate' hlegacy' hstate hlegacy).1 ?_
    rw [← canonicalId_eq h.states hranked, ← canonicalId_eq h.states hranked', hcanonical]
  obtain rfl := h.single same hmem mapping' hm' (by rw [hid]; rfl) (hid.trans hid'.symm) hcalendar.symm
  rw [hcanonical]

/-- **No mirror is lost** to the statements, and none of them, nor any part of the update, gives one state two
mappings for one destination. -/
theorem consolidates :
    Consolidates hasSourceEventColumn tables (run (buildLegacyRecurringStateConsolidation hasSourceEventColumn) tables) ∧
      (∀ n, HasSingleMappings
        (run ((buildLegacyRecurringStateConsolidation hasSourceEventColumn).take n) tables).mappings) ∧
      ∀ updated, HasSingleMappings (repointSome updated
        (run ((buildLegacyRecurringStateConsolidation hasSourceEventColumn).take 2) tables)).mappings := by
  have hstates : ∀ state, state ∈ (run (buildLegacyRecurringStateConsolidation hasSourceEventColumn) tables).states ↔
      state ∈ tables.states ∧ target hasSourceEventColumn tables.states state.id = state.id := by
    intro state
    rw [(run_eq h).1, List.mem_filter, decide_eq_true_eq]
  refine ⟨⟨?_, ?_, ?_, ?_, ?_, ?_, ?_⟩, ?_, hasSingleMappings_repointSome h⟩
  · rw [(run_eq h).1]
    exact List.filter_sublist
  · rw [(run_eq h).2, List.map_map]
    exact List.filter_sublist.map _
  · intro mapping hmapping
    obtain ⟨old, hold, -, rfl⟩ := (mem_mappings_run_iff h).1 hmapping
    exact ⟨old, hold, rfl⟩
  · intro state hstate other hother hlegacy hlegacy' hkey
    obtain ⟨hstate, hstays⟩ := (hstates state).1 hstate
    obtain ⟨hother, hstays'⟩ := (hstates other).1 hother
    have htarget := (target_eq_iff h.states hstate hlegacy hother hlegacy').2 hkey
    exact eq_of_id_eq h.states hstate hother (hstays.symm.trans (htarget.trans hstays'))
  · intro state hstate hlegacy
    obtain ⟨survivor, hsurvivor, hlegacy', hkey, -, htarget⟩ := target_of_isLegacy h.states hstate hlegacy
    have hstays := (target_eq_iff h.states hsurvivor hlegacy' hstate hlegacy).2 hkey
    refine ⟨survivor, (hstates survivor).2 ⟨hsurvivor, hstays.trans htarget⟩, hlegacy', hkey, ?_⟩
    rintro mapping hm ⟨source, hsource, hsourceLegacy, hsourceKey, hid⟩
    obtain ⟨other, hother, hotherLegacy, hotherKey, first, hfirst, hfirstId, hcalendar, hisFirst⟩ :=
      exists_isFirst h hsource hsourceLegacy hm hid
    have hpoints := (target_eq_iff h.states hother hotherLegacy hstate hlegacy).2 (hotherKey.trans hsourceKey)
    refine ⟨first, hfirst, ⟨other, hother, hotherLegacy, hotherKey.trans hsourceKey, hfirstId⟩, hcalendar, ?_, ?_⟩
    · refine (mem_mappings_run_iff h).2 ⟨first, hfirst, hisFirst, ?_⟩
      rw [retarget, hfirstId, Option.map_some, hpoints, htarget]
    · rintro old hold ⟨source', hsource', hlegacy', hkey', hid'⟩ hcalendar' ⟨left, hleft, hleftId⟩
      obtain ⟨old', hold', hisFirst', rfl⟩ := (mem_mappings_run_iff h).1 hleft
      obtain rfl : old' = old := h.eq_of_id hold' hold hleftId
      refine hisFirst'.eq h hold hfirst hisFirst hid' hfirstId ?_ (hcalendar'.trans hcalendar.symm)
      rw [hpoints]
      exact (target_eq_iff h.states hsource' hlegacy' hstate hlegacy).2 hkey'
  · exact fun state hstate houtside => (hstates state).2 ⟨hstate, target_of_isOutside h houtside⟩
  · intro mapping hm houtside
    refine (mem_mappings_run_iff h).2 ⟨mapping, hm, isFirst_of_isOutside h hm houtside, ?_⟩
    refine congrArg (fun eventStateId => { mapping with eventStateId }) ?_
    cases hid : mapping.eventStateId with
    | none => rfl
    | some id => exact congrArg some (target_of_isOutside h (houtside id hid))
  · have hrepoint := @hasSingleMappings_repointSome _ _ hasSourceEventColumn _ h fun _ => true
    have hrun : HasSingleMappings (run (buildLegacyRecurringStateConsolidation hasSourceEventColumn) tables).mappings :=
      hrepoint.mono fun _ hmem => List.mem_of_mem_filter hmem
    intro n
    rcases n with _ | _ | _ | _ | n
    · exact h.single
    · exact h.single
    · exact h.single.mono fun _ hmem => List.mem_of_mem_filter hmem
    · exact hrepoint
    · cases n <;> exact hrun

omit h in
theorem consolidates_example :
    let state (id : ℕ) : StateRow ℕ :=
      { id, calendarId := 1, sourceEventUid := some "u", recurrenceId := some "r", createdAt := 0 }
    let tables : Tables ℕ :=
      { states := [state 1, state 2], mappings := [⟨5, some 1, 7, 0⟩, ⟨6, some 1, 8, 0⟩, ⟨9, some 2, 8, 0⟩] }
    Consolidates true tables (run (buildLegacyRecurringStateConsolidation true) tables) :=
  (consolidates ⟨by decide, by decide, by unfold HasSingleMappings; decide⟩).1

/-- The states that stay have keys of their own. -/
theorem isOutside_run (id : Id) :
    IsOutside hasSourceEventColumn (run (buildLegacyRecurringStateConsolidation hasSourceEventColumn) tables).states id := by
  intro state hstate _ hlegacy other hother hlegacy' hkey
  rw [(run_eq h).1, List.mem_filter, decide_eq_true_eq] at hstate hother
  have htarget := (target_eq_iff h.states hother.1 hlegacy' hstate.1 hlegacy).2 hkey
  exact eq_of_id_eq h.states hother.1 hstate.1 (hother.2.symm.trans (htarget.trans hstate.2))

theorem isValid_run : (run (buildLegacyRecurringStateConsolidation hasSourceEventColumn) tables).IsValid where
  states := by
    rw [(run_eq h).1]
    exact h.states.sublist (List.filter_sublist.map _)
  mappings := by
    rw [(run_eq h).2, List.map_map]
    exact h.mappings.sublist (List.filter_sublist.map _)
  single := (@hasSingleMappings_repointSome _ _ hasSourceEventColumn _ h fun _ => true).mono
    fun _ hmem => List.mem_of_mem_filter hmem

/-- **A second run** of the statements leaves the tables as they are. -/
theorem run_run : (run (buildLegacyRecurringStateConsolidation hasSourceEventColumn)
      (run (buildLegacyRecurringStateConsolidation hasSourceEventColumn) tables)).states =
      (run (buildLegacyRecurringStateConsolidation hasSourceEventColumn) tables).states ∧
    (run (buildLegacyRecurringStateConsolidation hasSourceEventColumn)
      (run (buildLegacyRecurringStateConsolidation hasSourceEventColumn) tables)).mappings =
      (run (buildLegacyRecurringStateConsolidation hasSourceEventColumn) tables).mappings := by
  have hvalid := @isValid_run _ _ hasSourceEventColumn _ h
  have houtside := @isOutside_run _ _ hasSourceEventColumn _ h
  have htarget := fun id => target_of_isOutside hvalid (houtside id)
  constructor
  · rw [(run_eq hvalid).1]
    exact List.filter_eq_self.2 fun state _ => decide_eq_true (htarget state.id)
  · rw [(run_eq hvalid).2]
    have hfirst : (deleteOutranked (createConsolidation hasSourceEventColumn
        (run (buildLegacyRecurringStateConsolidation hasSourceEventColumn) tables))).mappings =
          (run (buildLegacyRecurringStateConsolidation hasSourceEventColumn) tables).mappings :=
      List.filter_eq_self.2 fun mapping hm => (List.mem_filter.1 (mem_deleteOutranked_iff.2
        ⟨hm, isFirst_of_isOutside hvalid hm fun id _ => houtside id⟩)).2
    rw [hfirst]
    refine List.map_id'' (fun mapping => ?_) _
    refine congrArg (fun eventStateId => { mapping with eventStateId }) ?_
    cases mapping.eventStateId with
    | none => rfl
    | some id => exact congrArg some (htarget id)

omit h in
theorem run_run_example :
    let state (id : ℕ) : StateRow ℕ :=
      { id, calendarId := 1, sourceEventUid := some "u", recurrenceId := some "r", createdAt := 0 }
    let once := run (buildLegacyRecurringStateConsolidation true)
      { states := [state 1, state 2], mappings := [⟨5, some 1, 7, 0⟩, ⟨6, some 1, 8, 0⟩, ⟨9, some 2, 8, 0⟩] }
    (run (buildLegacyRecurringStateConsolidation true) once).mappings = once.mappings :=
  (run_run ⟨by decide, by decide, by unfold HasSingleMappings; decide⟩).2

end LegacyStates

end Keeper
