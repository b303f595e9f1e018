import Keeper.Ics.KeptRevisions

/-!
# Revisions that tie

A loop keeps the first of the revisions that tie, so that their order in the feed decides which is
canonical. Revisions are alike if nothing that the reader returns tells them apart.

* `IsCanonical.exists_alike`: where tied revisions are alike, the canonical revisions of a feed in
  another order are like its own.
* `IsKept.of_alike`: a revision like a kept one is kept.
-/

namespace Keeper

open JsArray

/-! ## Keys of entries -/

/-- The uid, the recurrence id, the start and the end of an entry. -/
abbrev EntryKey := String × Option ℤ × ℤ × ℤ

def entryKey (slot : EventTimeSlot) : EntryKey :=
  (slot.uid, slot.recurrenceId, slot.startTime, slot.endTime)

section Alike

variable (zones : Zones)

/-- The key of the entry of an event, where it has a uid, a start and an end. -/
def eventKey (event : IcsEvent) : Option EntryKey := do
  let uid ← event.uid
  let start ← event.start
  let startTime ← start.date
  let endTime ← getEventEndTime zones event start
  pure (uid, event.recurrenceId.bind (·.value.date), startTime, endTime)

/-- Revisions of one identity and rank that nothing returned tells apart. -/
structure Alike (event other : IcsEvent) : Prop where
  identity : buildEventRevisionIdentity zones event = buildEventRevisionIdentity zones other
  rank : revisionRank event = revisionRank other
  uid : truthy event.uid = truthy other.uid
  instance_eq : instanceDate event = instanceDate other
  range : event.recurrenceId.any (·.range = some "THISANDFUTURE") =
    other.recurrenceId.any (·.range = some "THISANDFUTURE")
  start : event.start.isSome = other.start.isSome
  key : eventKey zones event = eventKey zones other
  cancelled : event.status = some "CANCELLED" ↔ other.status = some "CANCELLED"
  rule : event.recurrenceRule.isSome = other.recurrenceRule.isSome
  exceptions : event.recurrenceRule.isSome → ∀ date,
    date ∈ exceptionInstants event.exceptionDates ↔ date ∈ exceptionInstants other.exceptionDates

/-- A buildable event of a calendar that no event of its identity replaces. -/
structure IsTopRevision (rawEvents : List IcsEvent) (event : IcsEvent) : Prop where
  mem : event ∈ buildableEvents zones rawEvents
  identity : (buildEventRevisionIdentity zones event).isSome
  top : ∀ other ∈ buildableEvents zones rawEvents,
    buildEventRevisionIdentity zones other = buildEventRevisionIdentity zones event →
      replacesWinner other event = false

def TiesAlike (rawEvents : List IcsEvent) : Prop :=
  ∀ event other, IsTopRevision zones rawEvents event → IsTopRevision zones rawEvents other →
    buildEventRevisionIdentity zones event = buildEventRevisionIdentity zones other →
      Alike zones event other

variable {zones} {options : ParseIcsEventsOptions} {rawEvents rawEvents' : List IcsEvent}
  {event other : IcsEvent} {uid identity : String}

theorem Alike.symm (h : Alike zones event other) : Alike zones other event where
  identity := h.identity.symm
  rank := h.rank.symm
  uid := h.uid.symm
  instance_eq := h.instance_eq.symm
  range := h.range.symm
  start := h.start.symm
  key := h.key.symm
  cancelled := h.cancelled.symm
  rule := h.rule.symm
  exceptions hrule date := (h.exceptions (by rw [h.rule]; exact hrule) date).symm

theorem Alike.recurrenceId_eq_none_iff (h : Alike zones event other) :
    event.recurrenceId = none ↔ other.recurrenceId = none := by
  have heq := h.instance_eq
  rw [instanceDate, instanceDate] at heq
  rw [← Option.map_eq_none_iff, heq, Option.map_eq_none_iff]

theorem revisionOrder_eq_of_rank (h : revisionRank event = revisionRank other) :
    revisionOrder event = revisionOrder other := by
  have hof : ∀ e, revisionOrder e = toLex ((ofLex (revisionRank e)).1,
      (ofLex (ofLex (revisionRank e)).2).1) := fun _ => rfl
  rw [hof, hof, h]

theorem Alike.signature (h : Alike zones event other) :
    buildEventSlotSignature event = buildEventSlotSignature other := by
  have heq := congrArg (fun rank => OrderDual.ofDual (ofLex (ofLex rank).2).2) h.rank
  exact Text.utf16Units_injective heq

theorem isNewerEventRevision_congr {current current' : IcsEvent} (hevent : HasRevisionTime event)
    (hother : HasRevisionTime other) (hcurrent : HasRevisionTime current)
    (hcurrent' : HasRevisionTime current') (h : revisionOrder event = revisionOrder other)
    (h' : revisionOrder current = revisionOrder current') :
    isNewerEventRevision event current = isNewerEventRevision other current' := by
  rw [Bool.eq_iff_iff, isNewerEventRevision_iff_lt hevent hcurrent,
    isNewerEventRevision_iff_lt hother hcurrent', h, h']

/-! ## Permuted feeds -/

theorem perm_buildableEvents (hperm : rawEvents.Perm rawEvents') :
    (buildableEvents zones rawEvents).Perm (buildableEvents zones rawEvents') :=
  hperm.filter _

theorem IsTopRevision.of_perm (hperm : rawEvents.Perm rawEvents')
    (h : IsTopRevision zones rawEvents event) : IsTopRevision zones rawEvents' event where
  mem := (perm_buildableEvents hperm).mem_iff.1 h.mem
  identity := h.identity
  top other hmem := h.top other ((perm_buildableEvents hperm).mem_iff.2 hmem)

theorem TiesAlike.of_perm (hperm : rawEvents.Perm rawEvents') (h : TiesAlike zones rawEvents) :
    TiesAlike zones rawEvents' := fun event other hevent hother =>
  h event other (hevent.of_perm hperm.symm) (hother.of_perm hperm.symm)

theorem isTopRevision_of_selected (htimes : ∀ e ∈ rawEvents, HasRevisionTime e)
    (h : selectedRevision zones (buildableEvents zones rawEvents) identity = some event) :
    IsTopRevision zones rawEvents event := by
  obtain ⟨hmem, hidentity⟩ := mem_of_selected h
  refine ⟨hmem, by rw [hidentity]; rfl, fun other hother hsame => ?_⟩
  rw [hidentity] at hsame
  exact Bool.eq_false_iff.2 (not_replaces_selected
    (fun e he => htimes e (List.mem_filter.1 he).1) h hother hsame)

/-- **The selected revisions** of an identity are alike. -/
theorem exists_selected_alike (hperm : rawEvents.Perm rawEvents')
    (htimes : ∀ e ∈ rawEvents, HasRevisionTime e) (hties : TiesAlike zones rawEvents)
    (h : selectedRevision zones (buildableEvents zones rawEvents) identity = some event) :
    ∃ other, selectedRevision zones (buildableEvents zones rawEvents') identity = some other ∧
      Alike zones event other := by
  obtain ⟨hmem, hidentity⟩ := mem_of_selected h
  obtain ⟨other, hother⟩ := exists_selected ((perm_buildableEvents hperm).mem_iff.1 hmem) hidentity
  have htimes' : ∀ e ∈ rawEvents', HasRevisionTime e := fun e he => htimes e (hperm.mem_iff.2 he)
  have htop := (isTopRevision_of_selected htimes' hother).of_perm hperm.symm
  refine ⟨other, hother, hties event other (isTopRevision_of_selected htimes h) htop ?_⟩
  rw [hidentity, (mem_of_selected hother).2]

theorem SurvivesMaster.of_alike (hperm : rawEvents.Perm rawEvents')
    (htimes : ∀ e ∈ rawEvents, HasRevisionTime e) (hties : TiesAlike zones rawEvents)
    (hevent : HasRevisionTime event) (hother : HasRevisionTime other)
    (halike : Alike zones event other)
    (h : SurvivesMaster zones (buildableEvents zones rawEvents) event) :
    SurvivesMaster zones (buildableEvents zones rawEvents') other := by
  have htimes' : ∀ e ∈ rawEvents', HasRevisionTime e := fun e he => htimes e (hperm.mem_iff.2 he)
  intro uid huid hrec hmark master' hmaster'
  -- the masters of both orders are alike, and so compare with the revision alike
  obtain ⟨master, hmaster, hmasters⟩ := exists_selected_alike hperm.symm htimes'
    (hties.of_perm hperm) hmaster'
  have hnewer := h uid (halike.uid.trans huid) (halike.recurrenceId_eq_none_iff.2 hrec)
    (by rw [halike.identity]; exact hmark) master hmaster
  rw [← hnewer]
  exact isNewerEventRevision_congr hother hevent
    (htimes' master' (List.mem_filter.1 (mem_of_selected hmaster').1).1)
    (htimes master (List.mem_filter.1 (mem_of_selected hmaster).1).1)
    (revisionOrder_eq_of_rank halike.rank).symm (revisionOrder_eq_of_rank hmasters.rank)

/-- **A canonical revision** is like one of the feed in another order. -/
theorem IsCanonical.exists_alike (hperm : rawEvents.Perm rawEvents')
    (htimes : ∀ e ∈ rawEvents, HasRevisionTime e) (hties : TiesAlike zones rawEvents)
    (h : IsCanonical zones rawEvents event) :
    ∃ other, IsCanonical zones rawEvents' other ∧ Alike zones event other := by
  obtain ⟨identity, hidentity, hselected⟩ := h.selected
  obtain ⟨other, hother, halike⟩ := exists_selected_alike hperm htimes hties hselected
  have hmem := hperm.mem_iff.2 (List.mem_filter.1 (mem_of_selected hother).1).1
  exact ⟨other, ⟨⟨identity, (mem_of_selected hother).2, hother⟩, h.survives.of_alike hperm htimes
    hties (htimes event h.mem_raw) (htimes other hmem) halike⟩, halike⟩

theorem IsCancellation.exists_alike (hperm : rawEvents.Perm rawEvents')
    (htimes : ∀ e ∈ rawEvents, HasRevisionTime e) (hties : TiesAlike zones rawEvents)
    (h : IsCancellation zones rawEvents uid event) :
    ∃ other, IsCancellation zones rawEvents' uid other ∧ Alike zones event other := by
  obtain ⟨other, hcanonical, halike⟩ := h.canonical.exists_alike hperm htimes hties
  exact ⟨other, ⟨hcanonical, halike.uid.symm.trans h.hasUid, halike.cancelled.1 h.status⟩, halike⟩

/-- **A revision like a kept one** is kept, in a feed in another order. -/
theorem IsKept.of_alike (hperm : rawEvents.Perm rawEvents')
    (htimes : ∀ e ∈ rawEvents, HasRevisionTime e) (hties : TiesAlike zones rawEvents)
    (h : IsKept zones options rawEvents uid event) (hcanonical : IsCanonical zones rawEvents' other)
    (halike : Alike zones event other) : IsKept zones options rawEvents' uid other := by
  have htimes' : ∀ e ∈ rawEvents', HasRevisionTime e := fun e he => htimes e (hperm.mem_iff.2 he)
  have hback : ∀ e, IsCancellation zones rawEvents' uid e →
      ∃ e', IsCancellation zones rawEvents uid e' ∧ Alike zones e e' :=
    fun e he => he.exists_alike hperm.symm htimes' (hties.of_perm hperm)
  refine ⟨hcanonical, halike.uid.symm.trans h.hasUid, h.foreign, ?_, ?_, ?_, ?_⟩
  · rw [← halike.start]
    exact h.start
  · exact mt halike.cancelled.2 h.live
  · intro e he hmaster
    obtain ⟨e', he', halike'⟩ := hback e he
    rw [← h.master e' he' (halike'.recurrenceId_eq_none_iff.1 hmaster)]
    exact isNewerEventRevision_congr (htimes' _ hcanonical.mem_raw) (htimes _ h.canonical.mem_raw)
      (htimes' _ he.canonical.mem_raw) (htimes _ he'.canonical.mem_raw)
      (revisionOrder_eq_of_rank halike.rank).symm (revisionOrder_eq_of_rank halike'.rank)
  · intro e he hoverride
    obtain ⟨e', he', halike'⟩ := hback e he
    rw [halike'.instance_eq, ← halike.instance_eq]
    refine h.override e' he' ?_
    have hsome : (instanceDate event).isSome := by
      rw [halike.instance_eq, instanceDate, Option.isSome_map]
      exact hoverride
    rw [instanceDate, Option.isSome_map] at hsome
    exact hsome

/-- **What is kept** is like what is kept of the feed in another order. -/
theorem IsKept.exists_alike (hperm : rawEvents.Perm rawEvents')
    (htimes : ∀ e ∈ rawEvents, HasRevisionTime e) (hties : TiesAlike zones rawEvents)
    (h : IsKept zones options rawEvents uid event) :
    ∃ other, IsKept zones options rawEvents' uid other ∧ Alike zones event other := by
  obtain ⟨other, hcanonical, halike⟩ := h.canonical.exists_alike hperm htimes hties
  exact ⟨other, h.of_alike hperm htimes hties hcanonical halike, halike⟩

end Alike

end Keeper
