import Keeper.Ics.CanonicalRevisions

/-!
# Kept revisions

Which canonical revisions of a calendar the reader converts, and the exception dates that it gives
them. The revision times are valid here, so that nothing depends on the order in which the loops
meet the VEVENTs.

* `mem_keptEvents_iff`: the kept revisions.
* `isReadable_iff`: when the reader returns.
* `mem_mergeExceptionDates_iff`: the exception dates of a recurring entry.
-/

namespace Keeper

open JsArray

section Kept

variable {zones : Zones} {options : ParseIcsEventsOptions} {rawEvents : List IcsEvent}
  {event other : IcsEvent} {uid : String}

/-! ## Cancellations -/

def instanceDate (event : IcsEvent) : Option JsDate := event.recurrenceId.map (·.value.date)

structure IsCancellation (zones : Zones) (rawEvents : List IcsEvent) (uid : String)
    (event : IcsEvent) : Prop where
  canonical : IsCanonical zones rawEvents event
  hasUid : truthy event.uid = some uid
  status : event.status = some "CANCELLED"

/-- A canonical revision of a uid is kept: the uid is not Keeper's, it has a start, and no
cancellation applies to it. That of an instance applies whichever is newer. -/
structure IsKept (zones : Zones) (options : ParseIcsEventsOptions) (rawEvents : List IcsEvent)
    (uid : String) (event : IcsEvent) : Prop where
  canonical : IsCanonical zones rawEvents event
  hasUid : truthy event.uid = some uid
  foreign : isForeignUid options uid = true
  start : event.start.isSome
  live : event.status ≠ some "CANCELLED"
  master : ∀ other, IsCancellation zones rawEvents uid other → other.recurrenceId = none →
    isNewerEventRevision event other = true
  override : ∀ other, IsCancellation zones rawEvents uid other → event.recurrenceId.isSome →
    instanceDate other ≠ instanceDate event

theorem isCancellation_iff : IsCancellation zones rawEvents uid other ↔
    other ∈ (canonicalRevisions zones rawEvents).events ∧ truthy other.uid = some uid ∧
      other.status = some "CANCELLED" :=
  ⟨fun h => ⟨mem_canonicalRevisions_iff.2 h.canonical, h.hasUid, h.status⟩,
    fun ⟨hmem, huid, hstatus⟩ => ⟨mem_canonicalRevisions_iff.1 hmem, huid, hstatus⟩⟩

/-- **A cancelled master** takes what is not newer than one of the cancellations of its uid. -/
theorem any_cancelledMaster_iff (htimes : ∀ e ∈ rawEvents, HasRevisionTime e)
    (hevent : HasRevisionTime event) :
    ((collectCancellationState (canonicalRevisions zones rawEvents).events).cancelledMasters.get?
      uid).any (fun cancelled => !isNewerEventRevision event cancelled) = false ↔
        ∀ other, IsCancellation zones rawEvents uid other → other.recurrenceId = none →
          isNewerEventRevision event other = true := by
  have hget := get?_newestByUid ((JsMap.keyed cancelledUid
    (canonicalRevisions zones rawEvents).events).filter fun e => e.2.recurrenceId.isNone) uid
  have hmem : ∀ e, e ∈ JsMap.valuesAt uid ((JsMap.keyed cancelledUid
      (canonicalRevisions zones rawEvents).events).filter fun e => e.2.recurrenceId.isNone) ↔
        IsCancellation zones rawEvents uid e ∧ e.recurrenceId = none := by
    intro e
    rw [mem_cancelledMasters, isCancellation_iff]
    tauto
  have hvalid : ∀ e, IsCancellation zones rawEvents uid e → HasRevisionTime e :=
    fun e he => htimes e he.canonical.mem_raw
  rw [show (collectCancellationState (canonicalRevisions zones rawEvents).events).cancelledMasters.get?
    uid = _ from hget]
  cases hnewest : newestOf (JsMap.valuesAt uid ((JsMap.keyed cancelledUid
      (canonicalRevisions zones rawEvents).events).filter fun e => e.2.recurrenceId.isNone)) with
  | none =>
    refine iff_of_true rfl fun other hother hmaster => ?_
    have hno := (hmem other).2 ⟨hother, hmaster⟩
    rw [newestOf_eq_none_iff.1 hnewest] at hno
    cases hno
  | some newest =>
    obtain ⟨hcancels, hmaster⟩ := (hmem newest).1 (newestOf_mem hnewest)
    rw [Option.any_some, Bool.not_eq_false']
    constructor
    · intro hnewer other hother hmaster
      have hle := revisionOrder_le_newestOf (fun e he => hvalid e ((hmem e).1 he).1) hnewest
        ((hmem other).2 ⟨hother, hmaster⟩)
      rw [isNewerEventRevision_iff_lt hevent (hvalid _ hcancels)] at hnewer
      exact (isNewerEventRevision_iff_lt hevent (hvalid _ hother)).2 (hle.trans_lt hnewer)
    · intro hall
      exact hall newest hcancels hmaster

/-- **A cancelled instance** takes its override. -/
theorem any_cancelledRecurrence_iff : (event.recurrenceId.any fun recurrenceId =>
    (collectCancellationState
      (canonicalRevisions zones rawEvents).events).cancelledRecurrenceIdentities.contains
        (buildRecurrenceIdentity uid recurrenceId.value.date)) = false ↔
      ∀ other, IsCancellation zones rawEvents uid other → event.recurrenceId.isSome →
        instanceDate other ≠ instanceDate event := by
  cases hrec : event.recurrenceId with
  | none => exact iff_of_true rfl fun other _ hsome => by cases hsome
  | some recurrenceId =>
    have htext : instanceDate event = some recurrenceId.value.date := by
      rw [instanceDate, hrec]
      rfl
    rw [Option.any_some, Bool.eq_false_iff, List.contains_eq_mem, Ne, decide_eq_true_eq,
      mem_cancelledRecurrenceIdentities, htext]
    constructor
    · intro hno other hother _ hsame
      obtain ⟨recurrenceId', hrec', hdate⟩ := Option.map_eq_some_iff.1 hsame
      obtain ⟨hmem, huid, hstatus⟩ := isCancellation_iff.1 hother
      refine hno ⟨other, hmem, uid, recurrenceId', huid, hrec', hstatus, ?_⟩
      rw [hdate]
    · rintro hno ⟨other, hmem, uid', recurrenceId', huid, hrec', hstatus, hidentity⟩
      obtain ⟨rfl, hdate⟩ := buildRecurrenceIdentity_inj hidentity
      refine hno other (isCancellation_iff.2 ⟨hmem, huid, hstatus⟩) rfl ?_
      rw [instanceDate, hrec', hdate]
      rfl

/-- **The kept revisions.** -/
theorem mem_keptEvents_iff (htimes : ∀ e ∈ rawEvents, HasRevisionTime e) :
    event ∈ keptEvents options (canonicalRevisions zones rawEvents).events ↔
      ∃ uid, IsKept zones options rawEvents uid event := by
  rw [keptEvents, List.mem_filter, mem_canonicalRevisions_iff, Bool.not_eq_true']
  constructor
  · rintro ⟨hcanonical, hskip⟩
    obtain ⟨⟨uid, huid⟩, hstart⟩ := of_shouldSkipEvent_eq_false hskip
    unfold shouldSkipEvent at hskip
    rw [huid] at hskip
    simp only [Bool.or_eq_false_iff] at hskip
    obtain ⟨⟨⟨⟨-, hkeeper⟩, hlive⟩, hmaster⟩, hoverride⟩ := hskip
    have hevent := htimes event hcanonical.mem_raw
    refine ⟨uid, hcanonical, huid, ?_, hstart, of_decide_eq_false hlive,
      (any_cancelledMaster_iff htimes hevent).1 hmaster, any_cancelledRecurrence_iff.1 hoverride⟩
    rw [isForeignUid, ← Bool.not_eq_false', Bool.not_or, Bool.not_not, hkeeper]
  · rintro ⟨uid, h⟩
    refine ⟨h.canonical, ?_⟩
    have hkeeper : (!options.includeKeeperEvents && isKeeperEvent uid) = false := by
      rw [← Bool.not_not (isKeeperEvent uid), ← Bool.not_or, Bool.not_eq_false']
      exact h.foreign
    have hstart : event.start.isNone = false := by
      rw [← Option.not_isSome, h.start]
      rfl
    unfold shouldSkipEvent
    rw [h.hasUid]
    dsimp only
    rw [hstart, hkeeper, decide_eq_false h.live, any_cancelledRecurrence_iff.2 h.override,
      (any_cancelledMaster_iff htimes (htimes event h.canonical.mem_raw)).2 h.master]
    rfl

/-- A calendar is legible: every end can be computed, every recurrence id printed, and every exception
date of a recurring revision that is kept. -/
structure IsLegible (zones : Zones) (options : ParseIcsEventsOptions)
    (rawEvents : List IcsEvent) : Prop where
  ends : ∀ event ∈ rawEvents, endTimeError zones event = none
  recurrences : HaveReadableRecurrences rawEvents
  exceptions : ∀ uid event, IsKept zones options rawEvents uid event →
    hasUnreadableException event = false

/-- **The reader returns** iff the calendar is legible. -/
theorem isReadable_iff (htimes : ∀ e ∈ rawEvents, HasRevisionTime e) :
    IsReadable zones options rawEvents ↔ IsLegible zones options rawEvents := by
  constructor
  · intro h
    exact ⟨h.ends, h.recurrences, fun uid event hkept =>
      h.exceptions event ((mem_keptEvents_iff htimes).2 ⟨uid, hkept⟩)⟩
  · rintro ⟨hends, hrecurrences, hexceptions⟩
    refine ⟨hends, hrecurrences, fun event hmem => ?_⟩
    obtain ⟨uid, hkept⟩ := (mem_keptEvents_iff htimes).1 hmem
    exact hexceptions uid event hkept

end Kept

/-! ## Exception dates -/

def exceptionInstants (exceptionDates : Option (List IcsDateValue)) : List JsDate :=
  (exceptionDates.getD []).map (·.date)

/-- **Merged exception dates** have the instants of both. -/
theorem mem_mergeExceptionDates_iff {exceptionDates : Option (List IcsDateValue)}
    {cancelledDates : List IcsDateValue} {date : JsDate} :
    date ∈ exceptionInstants (mergeExceptionDates exceptionDates cancelledDates) ↔
      date ∈ exceptionInstants exceptionDates ∨ ∃ cancelled ∈ cancelledDates,
        cancelled.date = date := by
  have hvalues : (mergeExceptionDates exceptionDates cancelledDates).getD [] =
      (JsMap.ofList ((exceptionDates.getD [] ++ cancelledDates).map fun exceptionDate =>
        (isoText exceptionDate.date, exceptionDate))).values := by
    unfold mergeExceptionDates
    dsimp only
    split_ifs with hempty
    · exact (List.isEmpty_iff.1 hempty).symm
    · rfl
  rw [exceptionInstants, hvalues, exceptionInstants]
  have hboth : date ∈ (exceptionDates.getD [] ++ cancelledDates).map (·.date) ↔
      date ∈ (exceptionDates.getD []).map (·.date) ∨ ∃ cancelled ∈ cancelledDates,
        cancelled.date = date := by
    rw [List.map_append, List.mem_append]
    exact or_congr_right List.mem_map
  rw [← hboth]
  generalize exceptionDates.getD [] ++ cancelledDates = dates
  constructor
  · intro hmem
    obtain ⟨value, hvalue, rfl⟩ := List.mem_map.1 hmem
    obtain ⟨key, hget⟩ := JsMap.mem_values_iff.1 hvalue
    obtain ⟨value', hvalue', hpair⟩ := List.mem_map.1 (JsMap.get?_ofList_some hget)
    rw [← (Prod.mk.inj hpair).2]
    exact List.mem_map_of_mem hvalue'
  · intro hmem
    obtain ⟨value, hvalue, rfl⟩ := List.mem_map.1 hmem
    have hkey : isoText value.date ∈ (JsMap.ofList (dates.map fun exceptionDate =>
        (isoText exceptionDate.date, exceptionDate))).keys :=
      JsMap.mem_keys_ofList.2 (List.mem_map.2 ⟨_, List.mem_map_of_mem hvalue, rfl⟩)
    obtain ⟨last, hlast⟩ := JsMap.mem_keys_iff.1 hkey
    obtain ⟨value', -, hpair⟩ := List.mem_map.1 (JsMap.get?_ofList_some hlast)
    obtain ⟨htext, rfl⟩ := Prod.mk.inj hpair
    rw [← isoText_injective htext]
    exact List.mem_map_of_mem (JsMap.mem_values_iff.2 ⟨_, hlast⟩)

end Keeper
