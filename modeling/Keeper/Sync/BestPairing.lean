import Keeper.Sync.Pairing
import Mathlib.Data.List.Perm.Subperm

/-!
# Pairs in equal slots

The pairing of occurrences that changed identity is a matching of new events and missing mappings
within each series. It pairs as many of a series as can be paired, and no such matching has more
pairs whose event and mapping start and end in the same seconds.

* `countP_pairBySlot`: the events of a slot that get one of its mappings.
* `pairReidentified_isBest`: the pairing is maximal, and does not depend on the order of its inputs.
-/

namespace Keeper

open JsArray

/-! ## Slots -/

/-- The seconds in which an event starts and ends. -/
def MaterializedSyncableEvent.slotKey (event : MaterializedSyncableEvent) : ℤ × ℤ :=
  getSerializedSlotKey event.startTime event.endTime

def EventMapping.slotKey (mapping : EventMapping) : ℤ × ℤ :=
  getSerializedSlotKey mapping.startTime mapping.endTime

/-- The event and the mapping of a pair start and end in the same seconds. -/
def OccurrenceReassignment.isSameSlot (pair : OccurrenceReassignment) : Bool :=
  pair.event.slotKey = pair.mapping.slotKey

section Slots

variable {events : List MaterializedSyncableEvent} {mappings : List EventMapping}
  {slots : JsMap (ℤ × ℤ) (List EventMapping)}

theorem pairBySlot_cons (event : MaterializedSyncableEvent)
    (events : List MaterializedSyncableEvent) (slots : JsMap (ℤ × ℤ) (List EventMapping)) :
    pairBySlot (event :: events) slots =
      match slots.get? event.slotKey with
      | some (mapping :: rest) =>
        ⟨event, mapping⟩ :: pairBySlot events (slots.set event.slotKey rest)
      | _ => pairBySlot events slots := rfl

/-- **The events of a slot that get a mapping**: as many as there are mappings in it. -/
theorem countP_pairBySlot (events : List MaterializedSyncableEvent)
    (slots : JsMap (ℤ × ℤ) (List EventMapping)) (key : ℤ × ℤ) :
    (pairBySlot events slots).countP (fun pair => pair.event.slotKey = key) =
      min (events.countP fun event => event.slotKey = key)
        ((slots.get? key).getD []).length := by
  induction events generalizing slots with
  | nil => simp [pairBySlot]
  | cons event events ih =>
    rw [pairBySlot_cons, List.countP_cons]
    split
    · rename_i mapping rest hslot
      rw [List.countP_cons, ih, JsMap.get?_set]
      by_cases hkey : event.slotKey = key
      · subst hkey
        rw [if_pos rfl, hslot]
        simp only [decide_true, if_true, Option.getD_some, List.length_cons]
        omega
      · rw [if_neg hkey]
        simp [hkey]
    · rename_i hslot
      rw [ih]
      by_cases hkey : event.slotKey = key
      · subst hkey
        have hempty : (slots.get? event.slotKey).getD [] = [] := by
          cases hget : slots.get? event.slotKey with
          | none => rfl
          | some queue =>
            cases queue with
            | nil => rfl
            | cons mapping rest => exact absurd hget (hslot mapping rest)
        simp [hempty]
      · simp [hkey]

/-- Each pair of the first phase is in one slot when the mappings are filed under their slots. -/
theorem isSameSlot_pairBySlot
    (hslots : ∀ key, ∀ mapping ∈ (slots.get? key).getD [], mapping.slotKey = key)
    {pair : OccurrenceReassignment} (hpair : pair ∈ pairBySlot events slots) :
    pair.isSameSlot = true := by
  induction events generalizing slots with
  | nil => cases hpair
  | cons event events ih =>
    rw [pairBySlot_cons] at hpair
    split at hpair
    · rename_i mapping rest hslot
      rcases List.mem_cons.1 hpair with rfl | hpair
      · have hkey := hslots event.slotKey mapping (by
          rw [hslot]
          exact List.mem_cons_self)
        exact decide_eq_true hkey.symm
      · refine ih (fun key mapping' hmapping' => ?_) hpair
        rw [JsMap.get?_set] at hmapping'
        split_ifs at hmapping' with hkey
        · refine hkey ▸ hslots _ mapping' ?_
          rw [hslot]
          exact List.mem_cons_of_mem _ hmapping'
        · exact hslots key mapping' hmapping'
    · exact ih hslots hpair

theorem getD_mappingsBySlot (mappings : List EventMapping) (key : ℤ × ℤ) :
    ((mappingsBySlot mappings).get? key).getD [] =
      mappings.filter fun mapping => mapping.slotKey = key := by
  rw [mappingsBySlot, JsMap.getD_group, JsMap.valuesAt, List.filter_map, List.map_map]
  simp only [Function.comp_def, List.map_id']
  rfl

/-- The pairs of the first phase are those of equal slots, as many in a slot as it has events or
mappings. -/
theorem countP_slotPairs (events : List MaterializedSyncableEvent) (mappings : List EventMapping)
    (key : ℤ × ℤ) :
    (pairBySlot events (mappingsBySlot mappings)).countP (fun pair => pair.event.slotKey = key) =
      min (events.countP fun event => event.slotKey = key)
        (mappings.countP fun mapping => mapping.slotKey = key) := by
  rw [countP_pairBySlot, getD_mappingsBySlot, List.countP_eq_length_filter (l := mappings)]

/-- **As many pairs as can be**: one for each event or one for each mapping. -/
theorem length_pairOrdered (hevents : (events.map (·.id)).Nodup)
    (hmappings : (mappings.map (·.id)).Nodup) :
    (pairOrdered events mappings).length = min events.length mappings.length := by
  have hremainingEvents := length_filter_not_mem_map hevents
    (sublist_pairBySlot_events events (mappingsBySlot mappings)).subperm
  have hremainingMappings := length_filter_not_mem_map hmappings
    (subperm_slotPairs_mappings events mappings)
  rw [← map_event_id, List.length_map] at hremainingEvents
  rw [← map_mapping_id, List.length_map] at hremainingMappings
  rw [pairOrdered, List.length_append, List.length_zipWith]
  omega

end Slots

/-! ## Series -/

section Series

variable (host : Host) (localEvents : List MaterializedSyncableEvent)
  (reassignableMappings allMappings : List EventMapping) (owner : String)

def newEventsOf : List MaterializedSyncableEvent :=
  localEvents.filter fun event => newEventOwner allMappings event = some owner

def missingMappingsOf : List EventMapping :=
  reassignableMappings.filter fun mapping => missingMappingOwner localEvents mapping = some owner

def pairsOf : List OccurrenceReassignment :=
  pairOwner host (newEventsOf localEvents allMappings owner)
    (missingMappingsOf localEvents reassignableMappings owner)

theorem pairOwner_nil_mappings (events : List MaterializedSyncableEvent) :
    pairOwner host events [] = [] := by
  have hslots : ∀ events : List MaterializedSyncableEvent,
      pairBySlot events (mappingsBySlot []) = [] := by
    intro events
    induction events with
    | nil => rfl
    | cons event events ih => exact ih
  have hsorted : toSorted (compareMappingSlots host) [] = [] := rfl
  rw [pairOwner, pairOrdered, hsorted, hslots]
  exact List.zipWith_nil_right

theorem pairOwner_nil_events (mappings : List EventMapping) : pairOwner host [] mappings = [] := rfl

/-- **The pairs of all series** are those of each. -/
theorem pairReidentified_eq :
    pairReidentifiedMaterializedOccurrences host localEvents reassignableMappings allMappings =
      (newEventsByOwner localEvents allMappings).keys.flatMap
        (pairsOf host localEvents reassignableMappings allMappings) := by
  rw [pairReidentifiedMaterializedOccurrences, JsMap.keys, List.flatMap_map]
  refine List.flatMap_congr fun owned howned => ?_
  obtain ⟨owner, events⟩ := owned
  obtain ⟨-, hevents⟩ := JsMap.get?_group.1 (JsMap.mem_entries_iff.1 howned)
  rw [JsMap.valuesAt_keyed] at hevents
  have hmissing := JsMap.getD_group
    (JsMap.keyed (missingMappingOwner localEvents) reassignableMappings) owner
  rw [JsMap.valuesAt_keyed] at hmissing
  subst hevents
  show _ = pairOwner host _ (missingMappingsOf localEvents reassignableMappings owner)
  rw [missingMappingsOf, ← hmissing, missingMappingsByOwner]
  dsimp only
  split
  · rename_i mappings hget
    rw [hget]
    rfl
  · rename_i hget
    rw [hget]
    exact (pairOwner_nil_mappings host _).symm

variable {host localEvents reassignableMappings allMappings owner}

theorem mem_pairsOf {pair : OccurrenceReassignment}
    (h : pair ∈ pairsOf host localEvents reassignableMappings allMappings owner) :
    (pair.event ∈ localEvents ∧ newEventOwner allMappings pair.event = some owner) ∧
      pair.mapping ∈ reassignableMappings ∧
        missingMappingOwner localEvents pair.mapping = some owner := by
  obtain ⟨hevent, hmapping⟩ := mem_pairOwner h
  exact ⟨by simpa [newEventsOf] using hevent, by simpa [missingMappingsOf] using hmapping⟩

/-- **The pairs of one series** among all. -/
theorem filter_pairReidentified (owner : String) :
    (pairReidentifiedMaterializedOccurrences host localEvents reassignableMappings
        allMappings).filter (fun pair => newEventOwner allMappings pair.event = some owner) =
      pairsOf host localEvents reassignableMappings allMappings owner := by
  rw [pairReidentified_eq, filter_flatMap_of_key (JsMap.keys_nodup _) fun owner _ pair hpair =>
    (mem_pairsOf hpair).1.2]
  split_ifs with howner
  · rfl
  · -- a series without new events has no pairs
    have hnone : newEventsOf localEvents allMappings owner = [] := by
      refine List.filter_eq_nil_iff.2 fun event hevent howned => howner ?_
      refine JsMap.mem_keys_group.2 (List.mem_map.2 ⟨(owner, event), ?_, rfl⟩)
      exact JsMap.mem_keyed.2 ⟨hevent, of_decide_eq_true howned⟩
    rw [pairsOf, hnone, pairOwner_nil_events]

theorem length_pairsOf (host : Host) (hevents : (localEvents.map (·.id)).Nodup)
    (hmappings : (reassignableMappings.map (·.id)).Nodup) :
    (pairsOf host localEvents reassignableMappings allMappings owner).length =
      min (newEventsOf localEvents allMappings owner).length
        (missingMappingsOf localEvents reassignableMappings owner).length := by
  have hnew : ((newEventsOf localEvents allMappings owner).map (·.id)).Nodup :=
    hevents.sublist (List.filter_sublist.map _)
  have hmissing : ((missingMappingsOf localEvents reassignableMappings owner).map (·.id)).Nodup :=
    hmappings.sublist (List.filter_sublist.map _)
  rw [pairsOf, pairOwner, length_pairOrdered (((toSorted_perm _ _).map _).nodup_iff.2 hnew)
    (((toSorted_perm _ _).map _).nodup_iff.2 hmissing), (toSorted_perm _ _).length_eq,
    (toSorted_perm _ _).length_eq]

end Series

/-! ## Matchings -/

section Matchings

variable (localEvents : List MaterializedSyncableEvent)
  (reassignableMappings allMappings : List EventMapping)

/-- A matching of new events and missing mappings of the same series: each is paired once at
most. -/
structure IsReidentification (pairs : List OccurrenceReassignment) : Prop where
  events : (pairs.map (·.event.id)).Nodup
  mappings : (pairs.map (·.mapping.id)).Nodup
  isNew : ∀ pair ∈ pairs, pair.event ∈ localEvents ∧
    ∀ mapping ∈ allMappings, mapping.syncEventId ≠ pair.event.id
  isMissing : ∀ pair ∈ pairs, pair.mapping ∈ reassignableMappings ∧
    ∀ event ∈ localEvents, event.id ≠ pair.mapping.syncEventId
  sameOwner : ∀ pair ∈ pairs, ∃ owner, truthy pair.event.eventStateId = some owner ∧
    truthy pair.mapping.eventStateId = some owner

variable {localEvents reassignableMappings allMappings} {host : Host}
  {pairs : List OccurrenceReassignment}

/-- **The pairing is a matching.** -/
theorem pairReidentified_isReidentification (hevents : (localEvents.map (·.id)).Nodup)
    (hmappings : (reassignableMappings.map (·.id)).Nodup) :
    IsReidentification localEvents reassignableMappings allMappings
      (pairReidentifiedMaterializedOccurrences host localEvents reassignableMappings
        allMappings) where
  events := nodup_pairReidentified_events hevents
  mappings := nodup_pairReidentified_mappings hmappings
  isNew pair hpair := by
    obtain ⟨owner, ⟨hevent, howner⟩, -⟩ := mem_pairReidentified hpair
    exact ⟨hevent, (newEventOwner_eq_some_iff.1 howner).1⟩
  isMissing pair hpair := by
    obtain ⟨owner, -, hmapping, howner⟩ := mem_pairReidentified hpair
    exact ⟨hmapping, (missingMappingOwner_eq_some_iff.1 howner).1⟩
  sameOwner pair hpair := by
    obtain ⟨owner, ⟨-, hevent⟩, -, hmapping⟩ := mem_pairReidentified hpair
    exact ⟨owner, (newEventOwner_eq_some_iff.1 hevent).2,
      (missingMappingOwner_eq_some_iff.1 hmapping).2⟩

/-- The series and the slot of a pair. -/
def OccurrenceReassignment.place (pair : OccurrenceReassignment) : Option String × (ℤ × ℤ) :=
  (truthy pair.event.eventStateId, pair.event.slotKey)

def slotPlaces (pairs : List OccurrenceReassignment) : List (Option String × (ℤ × ℤ)) :=
  (pairs.filter (·.isSameSlot)).map (·.place)

theorem count_slotPlaces (place : Option String × (ℤ × ℤ)) :
    (slotPlaces pairs).count place =
      (pairs.filter fun pair => pair.isSameSlot && pair.place = place).length := by
  rw [slotPlaces, List.count_eq_countP, List.countP_map, List.countP_filter,
    List.countP_eq_length_filter]
  refine congrArg List.length (List.filter_congr fun pair _ => ?_)
  rw [Bool.and_comm, Function.comp_apply, beq_eq_decide]

/-- In a place a matching has as many pairs as there are events, and as there are mappings, at
most. -/
theorem IsReidentification.count_slotPlaces_le
    (h : IsReidentification localEvents reassignableMappings allMappings pairs) (owner : String)
    (key : ℤ × ℤ) :
    (slotPlaces pairs).count (some owner, key) ≤
      min ((newEventsOf localEvents allMappings owner).countP fun event => event.slotKey = key)
        ((missingMappingsOf localEvents reassignableMappings owner).countP fun mapping =>
          mapping.slotKey = key) := by
  rw [count_slotPlaces, List.countP_eq_length_filter, List.countP_eq_length_filter, le_min_iff]
  have hplace : ∀ pair ∈ pairs.filter fun pair => pair.isSameSlot && pair.place = (some owner, key),
      pair ∈ pairs ∧ truthy pair.event.eventStateId = some owner ∧ pair.event.slotKey = key ∧
        pair.mapping.slotKey = key := by
    intro pair hpair
    simp only [List.mem_filter, Bool.and_eq_true, OccurrenceReassignment.isSameSlot,
      OccurrenceReassignment.place, decide_eq_true_eq, Prod.mk.injEq] at hpair
    obtain ⟨hmem, hslot, howner, hkey⟩ := hpair
    exact ⟨hmem, howner, hkey, hslot ▸ hkey⟩
  have hsub : (pairs.filter fun pair => pair.isSameSlot && pair.place = (some owner, key)).Sublist
      pairs := List.filter_sublist
  generalize (pairs.filter fun pair => pair.isSameSlot && pair.place = (some owner, key)) = placed
    at hplace hsub ⊢
  have hevents : (placed.map (·.event)).Nodup := by
    have hids := h.events.sublist (hsub.map _)
    rw [map_event_id] at hids
    exact hids.of_map _
  have hmappings : (placed.map (·.mapping)).Nodup := by
    have hids := h.mappings.sublist (hsub.map _)
    rw [map_mapping_id] at hids
    exact hids.of_map _
  constructor
  · rw [← List.length_map (·.event)]
    refine (List.subperm_of_subset hevents fun event hevent => ?_).length_le
    obtain ⟨pair, hpair, rfl⟩ := List.mem_map.1 hevent
    obtain ⟨hmem, howner, hkey, -⟩ := hplace pair hpair
    obtain ⟨hlocal, hfresh⟩ := h.isNew pair hmem
    rw [List.mem_filter, newEventsOf, List.mem_filter, decide_eq_true_iff, decide_eq_true_iff,
      newEventOwner_eq_some_iff]
    exact ⟨⟨hlocal, hfresh, howner⟩, hkey⟩
  · rw [← List.length_map (·.mapping)]
    refine (List.subperm_of_subset hmappings fun mapping hmapping => ?_).length_le
    obtain ⟨pair, hpair, rfl⟩ := List.mem_map.1 hmapping
    obtain ⟨hmem, howner, -, hkey⟩ := hplace pair hpair
    obtain ⟨howned, hgone⟩ := h.isMissing pair hmem
    obtain ⟨owner', howner', hmappingOwner⟩ := h.sameOwner pair hmem
    obtain rfl := Option.some.inj (howner'.symm.trans howner)
    rw [List.mem_filter, missingMappingsOf, List.mem_filter, decide_eq_true_iff,
      decide_eq_true_iff, missingMappingOwner_eq_some_iff]
    exact ⟨⟨howned, hgone, hmappingOwner⟩, hkey⟩

theorem le_count_slotPlaces (owner : String) (key : ℤ × ℤ) :
    min ((newEventsOf localEvents allMappings owner).countP fun event => event.slotKey = key)
        ((missingMappingsOf localEvents reassignableMappings owner).countP fun mapping =>
          mapping.slotKey = key) ≤
      (slotPlaces (pairReidentifiedMaterializedOccurrences host localEvents reassignableMappings
        allMappings)).count (some owner, key) := by
  have hcount := countP_slotPairs
    (toSorted (compareEventSlots host) (newEventsOf localEvents allMappings owner))
    (toSorted (compareMappingSlots host)
      (missingMappingsOf localEvents reassignableMappings owner)) key
  rw [(toSorted_perm _ _).countP_eq, (toSorted_perm _ _).countP_eq] at hcount
  rw [← hcount, count_slotPlaces, List.countP_eq_length_filter]
  have hsub : (pairBySlot
      (toSorted (compareEventSlots host) (newEventsOf localEvents allMappings owner))
      (mappingsBySlot (toSorted (compareMappingSlots host)
        (missingMappingsOf localEvents reassignableMappings owner)))).Sublist
      (pairsOf host localEvents reassignableMappings allMappings owner) :=
    List.sublist_append_left _ _
  have hslots : ∀ pair ∈ pairBySlot
      (toSorted (compareEventSlots host) (newEventsOf localEvents allMappings owner))
      (mappingsBySlot (toSorted (compareMappingSlots host)
        (missingMappingsOf localEvents reassignableMappings owner))), pair.isSameSlot = true := by
    refine fun pair hpair => isSameSlot_pairBySlot (fun key mapping hmapping => ?_) hpair
    rw [getD_mappingsBySlot] at hmapping
    exact of_decide_eq_true (List.mem_filter.1 hmapping).2
  generalize pairBySlot _ _ = slotPairs at hsub hslots ⊢
  have hplaced : slotPairs.filter (fun pair => pair.event.slotKey = key) =
      slotPairs.filter fun pair => pair.isSameSlot && pair.place = (some owner, key) := by
    refine List.filter_congr fun pair hpair => ?_
    have howner := (newEventOwner_eq_some_iff.1 (mem_pairsOf (hsub.subset hpair)).1.2).2
    simp [hslots pair hpair, OccurrenceReassignment.place, howner]
  rw [hplaced]
  rw [← filter_pairReidentified] at hsub
  exact ((hsub.trans List.filter_sublist).filter _).length_le

/-- **No matching has more pairs in equal slots.** -/
theorem length_isSameSlot_le
    (h : IsReidentification localEvents reassignableMappings allMappings pairs) :
    (pairs.filter (·.isSameSlot)).length ≤
      ((pairReidentifiedMaterializedOccurrences host localEvents reassignableMappings
        allMappings).filter (·.isSameSlot)).length := by
  have hsub : (slotPlaces pairs).Subperm (slotPlaces (pairReidentifiedMaterializedOccurrences host
      localEvents reassignableMappings allMappings)) := by
    refine List.subperm_ext_iff.2 fun place hplace => ?_
    obtain ⟨pair, hpair, rfl⟩ := List.mem_map.1 hplace
    obtain ⟨owner, howner, -⟩ := h.sameOwner pair (List.mem_filter.1 hpair).1
    have hown : pair.place = (some owner, pair.event.slotKey) := by
      rw [OccurrenceReassignment.place, howner]
    rw [hown]
    exact (h.count_slotPlaces_le owner _).trans (le_count_slotPlaces owner _)
  have hlength := hsub.length_le
  rwa [slotPlaces, slotPlaces, List.length_map, List.length_map] at hlength

end Matchings

/-! ## Orders of the inputs -/

structure Host.OrdersTotally (host : Host) (ids : List String) : Prop where
  orders : Orders host.localeCompare
  antisymm : ∀ a ∈ ids, ∀ b ∈ ids, host.localeCompare a b ≤ 0 → host.localeCompare b a ≤ 0 → a = b

section Permutations

variable {host : Host} {localEvents localEvents' : List MaterializedSyncableEvent}
  {reassignableMappings reassignableMappings' allMappings allMappings' : List EventMapping}

theorem orders_compareEventSlots (h : Orders host.localeCompare) :
    Orders (compareEventSlots host) :=
  have hids : Orders fun first second : MaterializedSyncableEvent =>
      host.localeCompare first.id second.id :=
    ⟨fun _ _ => h.total _ _, fun _ _ _ => h.trans _ _ _⟩
  (hids.firstNonzero (·.endTime)).firstNonzero (·.startTime)

theorem orders_compareMappingSlots (h : Orders host.localeCompare) :
    Orders (compareMappingSlots host) :=
  have hids : Orders fun first second : EventMapping =>
      host.localeCompare first.id second.id :=
    ⟨fun _ _ => h.total _ _, fun _ _ _ => h.trans _ _ _⟩
  (hids.firstNonzero (·.endTime)).firstNonzero (·.startTime)

theorem newEventOwner_perm (h : allMappings.Perm allMappings') :
    newEventOwner allMappings = newEventOwner allMappings' := by
  funext event
  simp only [newEventOwner, (h.map _).mem_iff]

theorem missingMappingOwner_perm (h : localEvents.Perm localEvents') :
    missingMappingOwner localEvents = missingMappingOwner localEvents' := by
  funext mapping
  simp only [missingMappingOwner, (h.map _).mem_iff]

/-- A sort by an order that ends in the ids, totally ordered, does not depend on the order of a selection. -/
theorem toSorted_filter_perm {α : Type*} {compare : α → α → ℤ} (horders : Orders compare) {l l' : List α}
    {select : α → Bool} {id : α → String} (hids : (l.map id).Nodup) (htotal : host.OrdersTotally (l.map id))
    (hties : ∀ a b, compare a b ≤ 0 → compare b a ≤ 0 →
      host.localeCompare (id a) (id b) ≤ 0 ∧ host.localeCompare (id b) (id a) ≤ 0)
    (hperm : (l.filter select).Perm l') :
    toSorted compare (l.filter select) = toSorted compare l' := by
  refine horders.toSorted_congr (fun a ha b hb hab hba => ?_) hperm
  have ha := List.mem_of_mem_filter ha
  have hb := List.mem_of_mem_filter hb
  obtain ⟨hle, hge⟩ := hties a b hab hba
  exact List.inj_on_of_nodup_map hids ha hb
    (htotal.antisymm _ (List.mem_map_of_mem ha) _ (List.mem_map_of_mem hb) hle hge)

theorem pairsOf_perm (hids : (localEvents.map (·.id)).Nodup)
    (hmappingIds : (reassignableMappings.map (·.id)).Nodup)
    (hevents : host.OrdersTotally (localEvents.map (·.id)))
    (hmappings : host.OrdersTotally (reassignableMappings.map (·.id)))
    (hlocal : localEvents.Perm localEvents')
    (hreassignable : reassignableMappings.Perm reassignableMappings')
    (hall : allMappings.Perm allMappings') (owner : String) :
    pairsOf host localEvents reassignableMappings allMappings owner =
      pairsOf host localEvents' reassignableMappings' allMappings' owner := by
  have hnew : toSorted (compareEventSlots host) (newEventsOf localEvents allMappings owner) =
      toSorted (compareEventSlots host) (newEventsOf localEvents' allMappings' owner) := by
    refine toSorted_filter_perm (orders_compareEventSlots hevents.orders) hids hevents ?_ ?_
    · intro a b hab hba
      simp only [compareEventSlots, firstNonzero_le_iff] at hab hba
      omega
    · rw [newEventsOf, newEventOwner_perm hall]
      exact hlocal.filter _
  have hmissing : toSorted (compareMappingSlots host)
        (missingMappingsOf localEvents reassignableMappings owner) =
      toSorted (compareMappingSlots host)
        (missingMappingsOf localEvents' reassignableMappings' owner) := by
    refine toSorted_filter_perm (orders_compareMappingSlots hmappings.orders) hmappingIds hmappings ?_ ?_
    · intro a b hab hba
      simp only [compareMappingSlots, firstNonzero_le_iff] at hab hba
      omega
    · rw [missingMappingsOf, missingMappingOwner_perm hlocal]
      exact hreassignable.filter _
  rw [pairsOf, pairsOf, pairOwner, pairOwner, hnew, hmissing]

/-- **The pairing does not depend on the order of its inputs** where their ids are ordered
totally. -/
theorem pairReidentified_perm (hids : (localEvents.map (·.id)).Nodup)
    (hmappingIds : (reassignableMappings.map (·.id)).Nodup)
    (hevents : host.OrdersTotally (localEvents.map (·.id)))
    (hmappings : host.OrdersTotally (reassignableMappings.map (·.id)))
    (hlocal : localEvents.Perm localEvents')
    (hreassignable : reassignableMappings.Perm reassignableMappings')
    (hall : allMappings.Perm allMappings') :
    (pairReidentifiedMaterializedOccurrences host localEvents reassignableMappings
        allMappings).Perm
      (pairReidentifiedMaterializedOccurrences host localEvents' reassignableMappings'
        allMappings') := by
  rw [pairReidentified_eq, pairReidentified_eq]
  have hpairs := funext fun owner => pairsOf_perm hids hmappingIds hevents hmappings hlocal
    hreassignable hall owner
  rw [hpairs]
  refine List.Perm.flatMap_right _ (JsMap.keys_group_perm ?_)
  rw [newEventOwner_perm hall]
  exact hlocal.filterMap _

theorem newEventsOf_eq {owner : String} (howner : owner ≠ "") :
    newEventsOf localEvents allMappings owner =
      localEvents.filter fun event => event.eventStateId = some owner ∧
        ∀ mapping ∈ allMappings, mapping.syncEventId ≠ event.id := by
  refine List.filter_congr fun event _ => decide_eq_decide.2 ?_
  rw [newEventOwner_eq_some_iff, truthy_eq_some_iff]
  tauto

theorem missingMappingsOf_eq {owner : String} (howner : owner ≠ "") :
    missingMappingsOf localEvents reassignableMappings owner =
      reassignableMappings.filter fun mapping => mapping.eventStateId = some owner ∧
        ∀ event ∈ localEvents, event.id ≠ mapping.syncEventId := by
  refine List.filter_congr fun mapping _ => decide_eq_decide.2 ?_
  rw [missingMappingOwner_eq_some_iff, truthy_eq_some_iff]
  tauto

/-- **As many pairs of an event state as can be paired**. -/
theorem length_pairs_of_owner (hids : (localEvents.map (·.id)).Nodup)
    (hmappingIds : (reassignableMappings.map (·.id)).Nodup) (owner : String) :
    ((pairReidentifiedMaterializedOccurrences host localEvents reassignableMappings
        allMappings).filter fun pair => pair.event.eventStateId = some owner).length =
      if owner = "" then 0
      else min (localEvents.filter fun event => event.eventStateId = some owner ∧
          ∀ mapping ∈ allMappings, mapping.syncEventId ≠ event.id).length
        (reassignableMappings.filter fun mapping => mapping.eventStateId = some owner ∧
          ∀ event ∈ localEvents, event.id ≠ mapping.syncEventId).length := by
  have howned : ∀ pair ∈ pairReidentifiedMaterializedOccurrences host localEvents
      reassignableMappings allMappings, ∃ owner', owner' ≠ "" ∧
        pair.event.eventStateId = some owner' ∧
        newEventOwner allMappings pair.event = some owner' := by
    intro pair hpair
    obtain ⟨owner', ⟨-, howner'⟩, -⟩ := mem_pairReidentified hpair
    obtain ⟨hstate, hne⟩ := truthy_eq_some_iff.1 (newEventOwner_eq_some_iff.1 howner').2
    exact ⟨owner', hne, hstate, howner'⟩
  split_ifs with howner
  · rw [List.length_eq_zero_iff, List.filter_eq_nil_iff]
    intro pair hpair
    obtain ⟨owner', hne, hstate, -⟩ := howned pair hpair
    rw [hstate, howner]
    simpa using hne
  · rw [← newEventsOf_eq howner, ← missingMappingsOf_eq howner,
      ← length_pairsOf host hids hmappingIds, ← filter_pairReidentified]
    refine congrArg List.length (List.filter_congr fun pair hpair => ?_)
    obtain ⟨owner', -, hstate, howner'⟩ := howned pair hpair
    rw [hstate, howner']

/-- **Re-identification is a best matching**: it is a matching, it pairs as many of a series as can
be paired, no matching has more pairs in equal slots, and it is the same for the inputs in another
order where their ids are ordered totally. -/
theorem pairReidentified_isBest (host : Host) (hids : (localEvents.map (·.id)).Nodup)
    (hmappingIds : (reassignableMappings.map (·.id)).Nodup) :
    IsReidentification localEvents reassignableMappings allMappings
        (pairReidentifiedMaterializedOccurrences host localEvents reassignableMappings
          allMappings) ∧
      (∀ owner, ((pairReidentifiedMaterializedOccurrences host localEvents reassignableMappings
            allMappings).filter fun pair => pair.event.eventStateId = some owner).length =
          if owner = "" then 0
          else min (localEvents.filter fun event => event.eventStateId = some owner ∧
              ∀ mapping ∈ allMappings, mapping.syncEventId ≠ event.id).length
            (reassignableMappings.filter fun mapping => mapping.eventStateId = some owner ∧
              ∀ event ∈ localEvents, event.id ≠ mapping.syncEventId).length) ∧
      (∀ pairs, IsReidentification localEvents reassignableMappings allMappings pairs →
        (pairs.filter (·.isSameSlot)).length ≤
          ((pairReidentifiedMaterializedOccurrences host localEvents reassignableMappings
            allMappings).filter (·.isSameSlot)).length) ∧
      (host.OrdersTotally (localEvents.map (·.id)) →
        host.OrdersTotally (reassignableMappings.map (·.id)) →
        ∀ localEvents' reassignableMappings' allMappings', localEvents.Perm localEvents' →
          reassignableMappings.Perm reassignableMappings' → allMappings.Perm allMappings' →
          (pairReidentifiedMaterializedOccurrences host localEvents reassignableMappings
              allMappings).Perm
            (pairReidentifiedMaterializedOccurrences host localEvents' reassignableMappings'
              allMappings')) := by
  exact ⟨pairReidentified_isReidentification hids hmappingIds,
    length_pairs_of_owner hids hmappingIds, fun pairs => length_isSameSlot_le,
    fun hevents hmappings _ _ _ => pairReidentified_perm hids hmappingIds hevents hmappings⟩

end Permutations

namespace Example

def slotEvent (id : String) : MaterializedSyncableEvent where
  id := id
  eventStateId := some "s1"
  sourceEventUid := "u1"
  startTime := 0
  endTime := 3600000
  summary := ""
  calendarId := "c1"

def orphanedMapping : EventMapping where
  id := "m1"
  eventStateId := some "s1"
  syncEventId := "gone"
  calendarId := "c2"
  destinationEventUid := "d1"
  deleteIdentifier := "d1"
  startTime := 0
  endTime := 3600000

def plainHost : Host := ⟨id, fun _ => "", Text.compareUnits⟩

theorem plainHost_ordersTotally (ids : List String) : plainHost.OrdersTotally ids where
  orders := {
    total a b := by
      rw [plainHost, Text.compareUnits_nonpos_iff, Text.compareUnits_nonpos_iff]
      exact le_total _ _
    trans a b c := by
      rw [plainHost, Text.compareUnits_nonpos_iff, Text.compareUnits_nonpos_iff,
        Text.compareUnits_nonpos_iff]
      exact le_trans }
  antisymm a _ b _ hab hba := by
    rw [plainHost] at hab hba
    exact Text.utf16Units_injective ((Text.compareUnits_nonpos_iff.1 hab).antisymm
      (Text.compareUnits_nonpos_iff.1 hba))

/-- A host whose collation answers zero for canonically equivalent texts: the accented letter and
the letter with a combining accent. -/
def unicodeHost : Host where
  sha256 := id
  stableStringify _ := ""
  localeCompare a b :=
    let accented := ["\u00e9", "e\u0301"]
    if accented.contains a && accented.contains b then 0 else Text.compareUnits a b

end Example

theorem pairReidentified_isBest_example :
    (pairReidentifiedMaterializedOccurrences Example.plainHost
      [Example.slotEvent "a", Example.slotEvent "b"] [Example.orphanedMapping] []).Perm
    (pairReidentifiedMaterializedOccurrences Example.plainHost
      [Example.slotEvent "b", Example.slotEvent "a"] [Example.orphanedMapping] []) :=
  (pairReidentified_isBest Example.plainHost (by decide) (by decide)).2.2.2
    (Example.plainHost_ordersTotally _) (Example.plainHost_ordersTotally _) _ _ _
    (List.Perm.swap _ _ _) (List.Perm.refl _) (List.Perm.refl _)

/-- **The pairing depends on the order of events** in one slot whose ids are canonically
equivalent. -/
theorem not_pairReidentified_perm :
    ¬ ∀ localEvents localEvents' : List MaterializedSyncableEvent,
      (localEvents.map (·.id)).Nodup → localEvents.Perm localEvents' → ∀ pair,
        pair ∈ pairReidentifiedMaterializedOccurrences Example.unicodeHost localEvents
            [Example.orphanedMapping] [Example.orphanedMapping] ↔
          pair ∈ pairReidentifiedMaterializedOccurrences Example.unicodeHost localEvents'
            [Example.orphanedMapping] [Example.orphanedMapping] := by
  intro h
  have hpair := h [Example.slotEvent "\u00e9", Example.slotEvent "e\u0301"]
    [Example.slotEvent "e\u0301", Example.slotEvent "\u00e9"] (by decide) (List.Perm.swap _ _ _)
    ⟨Example.slotEvent "\u00e9", Example.orphanedMapping⟩
  revert hpair
  decide

end Keeper
