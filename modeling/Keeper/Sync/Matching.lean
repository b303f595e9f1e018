import Keeper.Core.Types
import Keeper.Foundations.JsMap

/-!
# Matching mappings to remote events

`matchRemoteEventsToMappings` (`core/sync/operations.ts`). A mapping matches the listed event with
its uid and delete identifier, or, when it was written before delete identifiers were recorded, the
only listed event with its uid.

* `matchRemoteEvent_spec`: a match is a listed event, and has the mapping's uid unless two
  identities collide in their string form.
* `get?_matchRemoteEventsToMappings`: with distinct mapping ids the table holds each mapping's own
  match.
-/

namespace Keeper

/-! ## Remote identities -/

def getRemoteIdentity (uid deleteId : String) : String := uid ++ "\u0000" ++ deleteId

/-- A string without the separator of identities. -/
def NulFree (s : String) : Prop := '\u0000' ∉ s.toList

instance (s : String) : Decidable (NulFree s) := inferInstanceAs (Decidable (¬ _))

theorem append_cons_inj_of_not_mem {α : Type*} {c : α} {a a' b b' : List α} (ha : c ∉ a)
    (ha' : c ∉ a') (h : a ++ c :: b = a' ++ c :: b') : a = a' ∧ b = b' := by
  induction a generalizing a' with
  | nil =>
    cases a' with
    | nil => exact ⟨rfl, (List.cons.inj h).2⟩
    | cons x a' => exact absurd (by simpa using Or.inl (List.cons.inj h).1) ha'
  | cons x a ih =>
    cases a' with
    | nil => exact absurd (by simpa using Or.inl (List.cons.inj h).1.symm) ha
    | cons y a' =>
      obtain ⟨rfl, ht⟩ := List.cons.inj h
      obtain ⟨rfl, rfl⟩ := ih (fun hx => ha (List.mem_cons_of_mem _ hx))
        (fun hx => ha' (List.mem_cons_of_mem _ hx)) ht
      exact ⟨rfl, rfl⟩

theorem toList_getRemoteIdentity (uid deleteId : String) :
    (getRemoteIdentity uid deleteId).toList = uid.toList ++ '\u0000' :: deleteId.toList := by
  simp [getRemoteIdentity, String.toList_append]

/-- Identities of uids without the separator determine uid and delete identifier. -/
theorem getRemoteIdentity_inj {u u' d d' : String} (hu : NulFree u) (hu' : NulFree u')
    (h : getRemoteIdentity u d = getRemoteIdentity u' d') : u = u' ∧ d = d' := by
  have hl := congrArg String.toList h
  rw [toList_getRemoteIdentity, toList_getRemoteIdentity] at hl
  obtain ⟨h1, h2⟩ := append_cons_inj_of_not_mem hu hu' hl
  exact ⟨String.toList_inj.1 h1, String.toList_inj.1 h2⟩

/-- An identity without further separators determines the uid and delete identifier of any other
that equals it. -/
theorem getRemoteIdentity_inj_of_left {u u' d d' : String} (hu : NulFree u) (hd : NulFree d)
    (h : getRemoteIdentity u d = getRemoteIdentity u' d') : u = u' ∧ d = d' := by
  refine getRemoteIdentity_inj hu ?_ h
  have hl := congrArg (List.count '\u0000' ∘ String.toList) h
  simp only [Function.comp, toList_getRemoteIdentity, List.count_append, List.count_cons_self] at hl
  rw [List.count_eq_zero_of_not_mem hu, List.count_eq_zero_of_not_mem hd] at hl
  exact List.count_eq_zero.1 (by omega)

def EventMapping.identity (m : EventMapping) : String :=
  getRemoteIdentity m.destinationEventUid m.deleteIdentifier

def RemoteEvent.identity (r : RemoteEvent) : String := getRemoteIdentity r.uid r.deleteId

/-- `mappingsByRemoteIdentity` of `core/sync-engine/index.ts`: the last mapping of each identity. -/
def mappingsByRemoteIdentity (mappings : List EventMapping) : JsMap String EventMapping :=
  JsMap.ofList (mappings.map fun m => (m.identity, m))

variable {mappings : List EventMapping} {m : EventMapping} {remoteEvents : List RemoteEvent}
  {r : RemoteEvent}

theorem mappingsByRemoteIdentity_some {k : String}
    (h : (mappingsByRemoteIdentity mappings).get? k = some m) : m ∈ mappings ∧ m.identity = k := by
  obtain ⟨m', hm', he⟩ := List.mem_map.1 (JsMap.get?_ofList_some h)
  obtain ⟨rfl, rfl⟩ := Prod.mk.inj he
  exact ⟨hm', rfl⟩

/-- The mapping that a removal drops once its copy is deleted: the one it names, else the one with
the identity of the copy (`processDeleteResults`). -/
def removeTarget (byIdentity : JsMap String EventMapping) (op : RemoveOperation) : Option String :=
  match op.mappingId with
  | some id => some id
  | none => (byIdentity.get? (getRemoteIdentity op.uid op.deleteId)).map (·.id)

/-- A mapping written before delete identifiers were recorded: it stores its uid twice. -/
def EventMapping.isLegacy (m : EventMapping) : Bool :=
  m.deleteIdentifier = m.destinationEventUid

/-- A mapping whose identity has no separator but the one that joins it. Database text never
holds a NUL. -/
def EventMapping.NulFree (m : EventMapping) : Prop :=
  Keeper.NulFree m.destinationEventUid ∧ Keeper.NulFree m.deleteIdentifier

instance (m : EventMapping) : Decidable m.NulFree := inferInstanceAs (Decidable (_ ∧ _))

/-! ## The match of one mapping -/

/-- `remoteEventsByIdentity`: the last listed event of each identity. -/
def remoteEventsByIdentity (remoteEvents : List RemoteEvent) : JsMap String RemoteEvent :=
  JsMap.ofList (remoteEvents.map fun r => (r.identity, r))

def remoteEventsByUid (remoteEvents : List RemoteEvent) : JsMap String (List RemoteEvent) :=
  JsMap.group (remoteEvents.map fun r => (r.uid, r))

/-- The remote event a mapping is matched to: one step of `matchRemoteEventsToMappings`. -/
def matchRemoteEvent (remoteEvents : List RemoteEvent) (mapping : EventMapping) :
    Option RemoteEvent :=
  match (remoteEventsByIdentity remoteEvents).get? mapping.identity with
  | some exactMatch => some exactMatch
  | none =>
    if mapping.isLegacy then
      match ((remoteEventsByUid remoteEvents).get? mapping.destinationEventUid).getD [] with
      | [legacyUidMatch] => some legacyUidMatch
      | _ => none
    else none

def matchRemoteEventsToMappings (mappings : List EventMapping) (remoteEvents : List RemoteEvent) :
    JsMap String RemoteEvent :=
  JsMap.ofList (mappings.filterMap fun m =>
    (matchRemoteEvent remoteEvents m).map fun r => (m.id, r))

theorem remoteEventsByIdentity_some {k : String}
    (h : (remoteEventsByIdentity remoteEvents).get? k = some r) :
    r ∈ remoteEvents ∧ r.identity = k := by
  obtain ⟨r', hr', he⟩ := List.mem_map.1 (JsMap.get?_ofList_some h)
  obtain ⟨rfl, rfl⟩ := Prod.mk.inj he
  exact ⟨hr', rfl⟩

theorem remoteEventsByIdentity_isSome (h : r ∈ remoteEvents) :
    ∃ r', (remoteEventsByIdentity remoteEvents).get? r.identity = some r' := by
  rw [← JsMap.mem_keys_iff, remoteEventsByIdentity, JsMap.mem_keys_ofList, List.map_map]
  exact List.mem_map.2 ⟨r, h, rfl⟩

theorem getD_remoteEventsByUid (remoteEvents : List RemoteEvent) (uid : String) :
    ((remoteEventsByUid remoteEvents).get? uid).getD [] =
      remoteEvents.filter (fun r => r.uid = uid) := by
  rw [remoteEventsByUid, JsMap.getD_group]
  simp only [JsMap.valuesAt, List.filter_map, List.map_map]
  exact (List.map_congr_left fun r _ => rfl).trans (List.map_id _)

theorem matchRemoteEvent_eq_some_iff : matchRemoteEvent remoteEvents m = some r ↔
      (remoteEventsByIdentity remoteEvents).get? m.identity = some r ∨
      (remoteEventsByIdentity remoteEvents).get? m.identity = none ∧ m.isLegacy = true ∧
        remoteEvents.filter (fun r => r.uid = m.destinationEventUid) = [r] := by
  unfold matchRemoteEvent
  cases (remoteEventsByIdentity remoteEvents).get? m.identity with
  | some r' => simp
  | none =>
    simp only [reduceCtorEq, false_or, true_and, getD_remoteEventsByUid]
    split
    · rename_i hl
      split
      · rename_i r' hf
        simp [hl, hf]
      · rename_i hne
        simp only [reduceCtorEq, hl, true_and, false_iff]
        exact fun hf => hne r hf
    · simp_all

/-- **A match is listed** and has the mapping's identity, or its uid if the mapping is legacy. -/
theorem matchRemoteEvent_spec (h : matchRemoteEvent remoteEvents m = some r) : r ∈ remoteEvents ∧
      (r.identity = m.identity ∨ m.isLegacy = true ∧ r.uid = m.destinationEventUid) := by
  rcases matchRemoteEvent_eq_some_iff.1 h with h | ⟨-, hl, hf⟩
  · exact ⟨(remoteEventsByIdentity_some h).1, Or.inl (remoteEventsByIdentity_some h).2⟩
  · have hr : r ∈ remoteEvents.filter (fun r => r.uid = m.destinationEventUid) := by simp [hf]
    simp only [List.mem_filter, decide_eq_true_eq] at hr
    exact ⟨hr.1, Or.inr ⟨hl, hr.2⟩⟩

theorem matchRemoteEvent_uid (hm : m.NulFree) (h : matchRemoteEvent remoteEvents m = some r) :
    r.uid = m.destinationEventUid := by
  rcases (matchRemoteEvent_spec h).2 with h | h
  · exact (getRemoteIdentity_inj_of_left hm.1 hm.2 h.symm).1.symm
  · exact h.2

/-! ## The table of matches -/

theorem matchRemoteEventsToMappings_some {id : String}
    (h : (matchRemoteEventsToMappings mappings remoteEvents).get? id = some r) :
    ∃ m ∈ mappings, m.id = id ∧ matchRemoteEvent remoteEvents m = some r := by
  obtain ⟨m, hm, he⟩ := List.mem_filterMap.1 (JsMap.get?_ofList_some h)
  obtain ⟨r', hr', he⟩ := Option.map_eq_some_iff.1 he
  obtain ⟨rfl, rfl⟩ := Prod.mk.inj he
  exact ⟨m, hm, rfl, hr'⟩

theorem nodup_keys_matches (h : (mappings.map (·.id)).Nodup) : ((mappings.filterMap fun m =>
      (matchRemoteEvent remoteEvents m).map fun r => (m.id, r)).map Prod.fst).Nodup := by
  refine h.sublist ?_
  induction mappings with
  | nil => simp
  | cons m l ih =>
    have := ih (List.nodup_cons.1 h).2
    cases hr : matchRemoteEvent remoteEvents m with
    | none => simpa [hr] using this.cons m.id
    | some r => simpa [hr] using this.cons_cons m.id

/-- **With distinct ids each mapping has its own match in the table.** -/
theorem get?_matchRemoteEventsToMappings (h : (mappings.map (·.id)).Nodup) (hm : m ∈ mappings) :
    (matchRemoteEventsToMappings mappings remoteEvents).get? m.id =
      matchRemoteEvent remoteEvents m := by
  cases hr : matchRemoteEvent remoteEvents m with
  | some r =>
    refine (JsMap.get?_ofList_eq_some_iff (nodup_keys_matches h)).2 ?_
    exact List.mem_filterMap.2 ⟨m, hm, by simp [hr]⟩
  | none =>
    cases ht : (matchRemoteEventsToMappings mappings remoteEvents).get? m.id with
    | none => rfl
    | some r =>
      obtain ⟨m', hm', hid, hr'⟩ := matchRemoteEventsToMappings_some ht
      rw [List.inj_on_of_nodup_map h hm' hm hid, hr] at hr'
      cases hr'

end Keeper
