import Keeper.Engine.Execution
import Keeper.Sync.Staleness

/-!
# A destination that does what it is told

The provider a reconciliation talks to, described by what its listing shows after each call: every
call succeeds, a push keeps a copy of the event under the event's uid, an update rewrites the copy
that it names, a deletion drops the copies that it names.

* `Writes`: what a call leaves of a listing, in terms of the copies dropped and stored.
* `Writes.trans`: one call after another.
-/

namespace Keeper

/-! ## Copies -/

/-- The listed event shows the local event, as far as the read tells. -/
structure Displays (host : Host) (e : MaterializedSyncableEvent) (c : RemoteEvent) : Prop where
  content : ∀ hash, c.editableContentHash = some hash → hash = createEditableEventContentHash host e
  availability : ∀ availability, c.editableAvailability = some availability →
    availability = expectedRemoteAvailability e c.supportedAvailabilities
  startTime : serializedSecond c.startTime = serializedSecond e.startTime
  endTime : serializedSecond c.endTime = serializedSecond e.endTime

/-- An event that a provider stores, with the uid and the delete identifier of its copy. -/
structure Stored where
  event : MaterializedSyncableEvent
  uid : String
  deleteId : String

def Stored.IsCopy (s : Stored) (c : RemoteEvent) : Prop := c.uid = s.uid ∧ c.deleteId = s.deleteId

/-- What calls leave of a listing: the stored copies are listed, what else is listed was listed
before under another delete identifier than the dropped ones, and copies that are neither dropped
nor of a stored uid stay. -/
structure Writes (host : Host) (before after : List RemoteEvent) (dropped : List String)
    (stored : List Stored) : Prop where
  present : ∀ s ∈ stored, ∃ c ∈ after, s.IsCopy c ∧ Displays host s.event c
  only : ∀ c ∈ after, (c ∈ before ∧ c.deleteId ∉ dropped) ∨ ∃ s ∈ stored, s.IsCopy c
  frame : ∀ c ∈ before, c.deleteId ∉ dropped → (∀ s ∈ stored, s.uid ≠ c.uid) → c ∈ after

namespace Writes

variable {host : Host} {l₀ l₁ l₂ : List RemoteEvent} {dropped₁ dropped₂ : List String}
  {stored₁ stored₂ : List Stored}

theorem refl (host : Host) (l : List RemoteEvent) : Writes host l l [] [] where
  present s h := by cases h
  only c h := Or.inl ⟨h, List.not_mem_nil⟩
  frame c h _ _ := h

/-- **One call after another**, when the second leaves the copies of the first alone. -/
theorem trans (h₁ : Writes host l₀ l₁ dropped₁ stored₁) (h₂ : Writes host l₁ l₂ dropped₂ stored₂)
    (hdropped : ∀ s ∈ stored₁, s.deleteId ∉ dropped₂)
    (hstored : ∀ s ∈ stored₁, ∀ s' ∈ stored₂, s'.uid ≠ s.uid) :
    Writes host l₀ l₂ (dropped₁ ++ dropped₂) (stored₁ ++ stored₂) where
  present s hs := by
    rcases List.mem_append.1 hs with hs | hs
    · obtain ⟨c, hc, hcopy, hd⟩ := h₁.present s hs
      refine ⟨c, h₂.frame c hc ?_ fun s' hs' => ?_, hcopy, hd⟩
      · rw [hcopy.2]
        exact hdropped s hs
      · rw [hcopy.1]
        exact hstored s hs s' hs'
    · exact h₂.present s hs
  only c hc := by
    rcases h₂.only c hc with ⟨hc, hd₂⟩ | ⟨s, hs, hcopy⟩
    · rcases h₁.only c hc with ⟨hc, hd₁⟩ | ⟨s, hs, hcopy⟩
      · exact Or.inl ⟨hc, by simp [hd₁, hd₂]⟩
      · exact Or.inr ⟨s, List.mem_append_left _ hs, hcopy⟩
    · exact Or.inr ⟨s, List.mem_append_right _ hs, hcopy⟩
  frame c hc hd hs := by
    simp only [List.mem_append, not_or] at hd
    have hc₁ := h₁.frame c hc hd.1 fun s h => hs s (List.mem_append_left _ h)
    exact h₂.frame c hc₁ hd.2 fun s h => hs s (List.mem_append_right _ h)

/-- The order in which the copies were dropped and stored does not matter. -/
theorem perm (h : Writes host l₀ l₁ dropped₁ stored₁) (hd : dropped₁.Perm dropped₂)
    (hs : stored₁.Perm stored₂) : Writes host l₀ l₁ dropped₂ stored₂ where
  present s h' := h.present s (hs.mem_iff.2 h')
  only c hc := by
    rcases h.only c hc with ⟨hc, hd'⟩ | ⟨s, hs', hcopy⟩
    · exact Or.inl ⟨hc, fun h' => hd' (hd.mem_iff.2 h')⟩
    · exact Or.inr ⟨s, hs.mem_iff.1 hs', hcopy⟩
  frame c hc hd' hs' :=
    h.frame c hc (fun h' => hd' (hd.mem_iff.1 h')) fun s h' => hs' s (hs.mem_iff.1 h')

end Writes

/-! ## Destinations -/

/-- A provider whose calls all succeed. `uid` is the uid under which it stores an event, and
`uidOf` the uid of the copy that a delete identifier names. -/
structure Destination (host : Host) (W : Type) where
  provider : CalendarSyncProvider W
  list : W → List RemoteEvent
  uid : String → String
  uidOf : String → String
  distinct : ∀ w, ((list w).map (·.identity)).Nodup
  push : ∀ events w, (events.map fun e => uid e.id).Nodup → ∃ results w',
    provider.pushEvents events w = (.ok results, w') ∧
    List.Forall₂ (fun e r => r.success = true ∧ r.remoteId = some (uid e.id)) events results ∧
    Writes host (list w) (list w') [] (List.zipWith (fun e r =>
      { event := e, uid := uid e.id, deleteId := r.deleteId.getD (uid e.id) }) events results)
  update : ∀ updateEvents, provider.updateEvents = some updateEvents → ∀ updates w,
    (updates.map fun u => uidOf u.deleteId).Nodup → ∃ results w',
    updateEvents updates w = (.ok results, w') ∧
    List.Forall₂ (fun _ r => r.success = true) updates results ∧
    Writes host (list w) (list w') (updates.map (·.deleteId)) (List.zipWith (fun u r =>
      { event := u.event, uid := uidOf u.deleteId
        deleteId := (r.deleteId.or r.remoteId).getD u.deleteId }) updates results)
  delete : ∀ deleteIds w, ∃ results w', provider.deleteEvents deleteIds w = (.ok results, w') ∧
    List.Forall₂ (fun _ r => r.success = true) deleteIds results ∧
    Writes host (list w) (list w') deleteIds []

/-- Uids are not empty and hold no separator, and delete identifiers name copies of one uid. -/
structure Destination.Faithful {host : Host} {W : Type} (d : Destination host W) : Prop where
  uid_ne : ∀ id, d.uid id ≠ ""
  named : ∀ w, ∀ c ∈ d.list w, d.uidOf c.deleteId = c.uid
  nulFree : ∀ w, ∀ c ∈ d.list w, NulFree c.uid

end Keeper
