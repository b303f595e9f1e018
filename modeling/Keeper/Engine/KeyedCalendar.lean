import Keeper.Engine.Destination
import Keeper.Engine.Flush

/-!
# A calendar that keeps one copy of each uid

A provider in memory: a push or an update puts the copy of an event in place of what has its uid, a
deletion drops what has its delete identifier. It is a destination whatever uids and delete
identifiers it gives, and a faithful one if the delete identifiers determine the uids.

* `KeyedCalendar.destination`: the calendar is a destination.
* `KeyedCalendar.faithful`: it is faithful when delete identifiers determine uids.
-/

namespace Keeper

/-- How a calendar names copies: the uid of an event id, the delete identifier of a uid and the uid
that an update reads off a delete identifier. Without `edits` it has no updates. -/
structure CopyNames where
  uid : String → String
  deleteIdOf : String → String
  uidOf : String → String
  edits : Bool
  uid_nulFree : ∀ id, NulFree (uid id)
  uidOf_nulFree : ∀ deleteId, NulFree (uidOf deleteId)
  uidOf_deleteIdOf : edits = true → ∀ u, NulFree u → uidOf (deleteIdOf u) = u

/-- A listing with one copy of each uid. -/
structure KeyedCalendar (names : CopyNames) where
  copies : List RemoteEvent
  nodup : (copies.map (·.uid)).Nodup
  deleteId : ∀ c ∈ copies, c.deleteId = names.deleteIdOf c.uid
  nulFree : ∀ c ∈ copies, NulFree c.uid

namespace KeyedCalendar

variable {names : CopyNames} (host : Host)

/-! ## Putting copies -/

def copyOf (names : CopyNames) (uid : String) (e : MaterializedSyncableEvent) : RemoteEvent where
  uid
  deleteId := names.deleteIdOf uid
  startTime := e.startTime
  endTime := e.endTime
  isKeeperEvent := true
  editableContentHash := some (createEditableEventContentHash host e)
  editableAvailability := some (expectedRemoteAvailability e none)

theorem displays_copyOf (uid : String) (e : MaterializedSyncableEvent) :
    Displays host e (copyOf host names uid e) where
  content _ h := (Option.some.inj h).symm
  availability _ h := (Option.some.inj h).symm
  startTime := rfl
  endTime := rfl

def put (uid : String) (e : MaterializedSyncableEvent) (hu : NulFree uid)
    (l : KeyedCalendar names) : KeyedCalendar names where
  copies := l.copies.filter (fun c => c.uid ≠ uid) ++ [copyOf host names uid e]
  nodup := by
    rw [List.map_append, List.nodup_append]
    refine ⟨l.nodup.sublist (List.filter_sublist.map _), List.nodup_singleton _, ?_⟩
    intro u hmem u' hmem' heq
    obtain ⟨c, hc, rfl⟩ := List.mem_map.1 hmem
    exact of_decide_eq_true (List.mem_filter.1 hc).2 (heq.trans (List.mem_singleton.1 hmem'))
  deleteId c hc := by
    rcases List.mem_append.1 hc with hc | hc
    · exact l.deleteId c (List.mem_of_mem_filter hc)
    · rw [List.mem_singleton.1 hc]
      rfl
  nulFree c hc := by
    rcases List.mem_append.1 hc with hc | hc
    · exact l.nulFree c (List.mem_of_mem_filter hc)
    · rw [List.mem_singleton.1 hc]
      exact hu

theorem mem_put {uid : String} {e : MaterializedSyncableEvent} {hu : NulFree uid}
    {l : KeyedCalendar names} {c : RemoteEvent} :
    c ∈ (put host uid e hu l).copies ↔
      c ∈ l.copies ∧ c.uid ≠ uid ∨ c = copyOf host names uid e := by
  simp [put]

/-- An event with the uid to put it under. -/
structure Item where
  uid : String
  event : MaterializedSyncableEvent
  nulFree : NulFree uid

def Item.stored (names : CopyNames) (item : Item) : Stored where
  event := item.event
  uid := item.uid
  deleteId := names.deleteIdOf item.uid

/-- Put the copies of events, one after another. -/
def putAll (items : List Item) (l : KeyedCalendar names) : KeyedCalendar names :=
  items.foldl (fun l item => put host item.uid item.event item.nulFree l) l

theorem mem_putAll {items : List Item} (hn : (items.map (·.uid)).Nodup) {l : KeyedCalendar names}
    {c : RemoteEvent} :
    c ∈ (putAll host items l).copies ↔ (c ∈ l.copies ∧ ∀ item ∈ items, c.uid ≠ item.uid) ∨
      ∃ item ∈ items, c = copyOf host names item.uid item.event := by
  induction items generalizing l with
  | nil => simp [putAll]
  | cons item items ih =>
    obtain ⟨hitem, hn⟩ := List.nodup_cons.1 hn
    have hcopy : ∀ item' ∈ items, (copyOf host names item.uid item.event).uid ≠ item'.uid :=
      fun item' h heq => hitem (List.mem_map.2 ⟨item', h, heq.symm⟩)
    rw [putAll, List.foldl_cons, ← putAll, ih hn, mem_put]
    constructor
    · rintro (⟨⟨hc, hne⟩ | rfl, hrest⟩ | ⟨item', h', rfl⟩)
      · exact Or.inl ⟨hc, List.forall_mem_cons.2 ⟨hne, hrest⟩⟩
      · exact Or.inr ⟨item, List.mem_cons_self, rfl⟩
      · exact Or.inr ⟨item', List.mem_cons_of_mem _ h', rfl⟩
    · rintro (⟨hc, hne⟩ | ⟨item', h', rfl⟩)
      · obtain ⟨hne, hrest⟩ := List.forall_mem_cons.1 hne
        exact Or.inl ⟨Or.inl ⟨hc, hne⟩, hrest⟩
      · rcases List.mem_cons.1 h' with rfl | h'
        · exact Or.inl ⟨Or.inr rfl, hcopy⟩
        · exact Or.inr ⟨item', h', rfl⟩

/-- **Putting copies writes them**, and drops what is named besides if their uids are. -/
theorem writes_putAll (items : List Item) (l : KeyedCalendar names) (dropped : List String)
    (hn : (items.map (·.uid)).Nodup)
    (hd : ∀ c ∈ l.copies, c.deleteId ∈ dropped → ∃ item ∈ items, c.uid = item.uid) :
    Writes host l.copies (putAll host items l).copies dropped (items.map (Item.stored names)) where
  present st hst := by
    obtain ⟨item, hitem, rfl⟩ := List.mem_map.1 hst
    exact ⟨_, (mem_putAll host hn).2 (Or.inr ⟨item, hitem, rfl⟩), ⟨rfl, rfl⟩,
      displays_copyOf host item.uid item.event⟩
  only c hc := by
    rcases (mem_putAll host hn).1 hc with ⟨hc, hne⟩ | ⟨item, hitem, rfl⟩
    · refine Or.inl ⟨hc, fun hdrop => ?_⟩
      obtain ⟨item, hitem, hu⟩ := hd c hc hdrop
      exact hne item hitem hu
    · exact Or.inr ⟨_, List.mem_map_of_mem hitem, rfl, rfl⟩
  frame c hc _ hst := (mem_putAll host hn).2 (Or.inl ⟨hc, fun item hitem heq =>
    hst _ (List.mem_map_of_mem hitem) heq.symm⟩)

/-! ## The provider -/

def drop (deleteIds : List String) (l : KeyedCalendar names) : KeyedCalendar names where
  copies := l.copies.filter fun c => c.deleteId ∉ deleteIds
  nodup := l.nodup.sublist (List.filter_sublist.map _)
  deleteId c hc := l.deleteId c (List.mem_of_mem_filter hc)
  nulFree c hc := l.nulFree c (List.mem_of_mem_filter hc)

def pushItem (names : CopyNames) (e : MaterializedSyncableEvent) : Item :=
  ⟨names.uid e.id, e, names.uid_nulFree e.id⟩

def updateItem (names : CopyNames) (u : EventUpdate) : Item :=
  ⟨names.uidOf u.deleteId, u.event, names.uidOf_nulFree u.deleteId⟩

def resultOf (names : CopyNames) (item : Item) : PushResult where
  success := true
  remoteId := some item.uid
  deleteId := some (names.deleteIdOf item.uid)

def write (items : List Item) : Effect Failure (KeyedCalendar names) (List PushResult) := fun l =>
  (.ok (items.map (resultOf names)), putAll host items l)

def provider (names : CopyNames) : CalendarSyncProvider (KeyedCalendar names) where
  pushEvents events := write host (events.map (pushItem names))
  updateEvents := if names.edits then some fun updates => write host (updates.map (updateItem names))
    else none
  deleteEvents deleteIds := fun l =>
    (.ok (deleteIds.map fun _ => { success := true }), l.drop deleteIds)

theorem forall₂_map_right {α β : Type} {R : α → β → Prop} {f : α → β} (l : List α)
    (h : ∀ a, R a (f a)) : List.Forall₂ R l (l.map f) := by
  induction l with
  | nil => exact .nil
  | cons a l ih => exact .cons (h a) ih

theorem zipWith_map_right {α β γ : Type} (f : α → β) (g : α → β → γ) (l : List α) :
    List.zipWith g l (l.map f) = l.map fun a => g a (f a) := by
  induction l with
  | nil => rfl
  | cons a l ih => rw [List.map_cons, List.zipWith_cons_cons, ih, List.map_cons]

/-- **The calendar is a destination.** -/
def destination (names : CopyNames) : Destination host (KeyedCalendar names) where
  provider := provider host names
  list := copies
  uid := names.uid
  uidOf := names.uidOf
  distinct l := by
    refine List.pairwise_map.2 ((List.pairwise_map.1 l.nodup).imp_of_mem ?_)
    intro c c' hc hc' hne heq
    exact hne (getRemoteIdentity_inj (l.nulFree c hc) (l.nulFree c' hc') heq).1
  push events l hn := by
    refine ⟨_, _, rfl, ?_, ?_⟩
    · rw [List.map_map]
      exact forall₂_map_right events fun e => ⟨rfl, rfl⟩
    · have hw := writes_putAll host (events.map (pushItem names)) l [] (by rwa [List.map_map])
        fun c _ h => by cases h
      rw [List.map_map] at hw ⊢
      rw [zipWith_map_right]
      exact hw
  update updateEvents hupdate updates l hn := by
    have hedits : names.edits = true := by
      by_contra h
      simp [provider, h] at hupdate
    simp only [provider, hedits, if_true, Option.some.injEq] at hupdate
    subst hupdate
    refine ⟨_, _, rfl, ?_, ?_⟩
    · rw [List.map_map]
      exact forall₂_map_right updates fun u => rfl
    · have hw := writes_putAll host (updates.map (updateItem names)) l
        (updates.map (·.deleteId)) (by rwa [List.map_map]) fun c hc hd => by
          obtain ⟨u, hu, hid⟩ := List.mem_map.1 hd
          refine ⟨_, List.mem_map_of_mem hu, ?_⟩
          change c.uid = names.uidOf u.deleteId
          rw [hid, l.deleteId c hc]
          exact (names.uidOf_deleteIdOf hedits c.uid (l.nulFree c hc)).symm
      rw [List.map_map] at hw ⊢
      rw [zipWith_map_right]
      exact hw
  delete deleteIds l := by
    refine ⟨_, _, rfl, forall₂_map_right deleteIds fun _ => rfl, ?_, ?_, ?_⟩
    · intro st hst
      cases hst
    · intro c hc
      exact Or.inl ⟨List.mem_of_mem_filter hc, of_decide_eq_true (List.mem_filter.1 hc).2⟩
    · intro c hc hd _
      exact List.mem_filter.2 ⟨hc, decide_eq_true hd⟩

/-- **The calendar is faithful** when delete identifiers determine uids. -/
theorem faithful (names : CopyNames) (hne : ∀ id, names.uid id ≠ "")
    (hnamed : ∀ u, NulFree u → names.uidOf (names.deleteIdOf u) = u) :
    (destination host names).Faithful where
  uid_ne := hne
  named l c hc := by
    change names.uidOf c.deleteId = c.uid
    rw [l.deleteId c hc]
    exact hnamed c.uid (l.nulFree c hc)
  nulFree l c hc := l.nulFree c hc

end KeyedCalendar

end Keeper
