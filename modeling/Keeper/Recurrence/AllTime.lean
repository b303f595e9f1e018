import Keeper.Recurrence.Exactness

/-!
# The occurrences of a series over all time

What the stored events of a user stand for, whatever part of them is read: an occurrence for each
slot that the rule of a master lands on, unless the slot is excluded or an override of the series
hides it. An override hides a slot only where its series has one master.

* `mem_overriddenSlots_iff`: the slots that the materializer leaves out are the hidden ones.
* `IsHidden.filter`: reading a part of the masters can hide more slots, never fewer.
* `isLiveBeside_iff`: a slot is live in a window where it is one of the series and its occurrence
  overlaps the window.
-/

namespace Keeper

/-! ## Hidden slots -/

/-- A slot of a master is hidden: the master is alone in its series, and the slot is the recurrence
id of an override of it. -/
def IsHidden (events : List SyncableEvent) (master : SyncableEvent) (slot : ℤ) : Prop :=
  mastersOf master.override.seriesKey events = [master] ∧ IsOverridden events [] master slot

section Hidden

variable {events events' : List SyncableEvent} {master : SyncableEvent} {slot : ℤ}

/-- **The overridden slots of the materializer** are the hidden ones. -/
theorem mem_overriddenSlots_iff :
    slot ∈ overriddenSlots events [] master ↔ IsHidden events master slot := by
  rw [overriddenSlots, getD_getOverriddenSlotsByMaster, List.mem_filterMap, IsHidden, IsOverridden]
  simp only [get?_getUniqueMastersBySeries]
  constructor
  · rintro ⟨override, hmem, hid⟩
    split_ifs at hid with halone
    have hkey : override.seriesKey = master.override.seriesKey := by
      have hin : master ∈ mastersOf override.seriesKey events := by
        rw [halone]
        exact List.mem_singleton_self _
      have hboth := (List.mem_filter.1 hin).2
      simp only [Bool.and_eq_true, decide_eq_true_eq] at hboth
      exact hboth.2.symm
    exact ⟨hkey ▸ halone, override, hmem, hkey, hid⟩
  · rintro ⟨halone, override, hmem, hkey, hid⟩
    exact ⟨override, hmem, by rw [if_pos (hkey ▸ halone), hid]⟩

theorem isOverridden_congr (h : events.Perm events') :
    IsOverridden events [] master slot ↔ IsOverridden events' [] master slot := by
  rw [IsOverridden, IsOverridden, List.append_nil, List.append_nil]
  exact exists_congr fun override => and_congr_left fun _ => (h.map _).mem_iff

theorem isHidden_congr (h : events.Perm events') :
    IsHidden events master slot ↔ IsHidden events' master slot := by
  rw [IsHidden, IsHidden, isOverridden_congr h]
  refine and_congr_left fun _ => ?_
  have hperm : (mastersOf master.override.seriesKey events).Perm
      (mastersOf master.override.seriesKey events') := h.filter _
  constructor <;> intro halone
  · rw [halone] at hperm
    exact (List.singleton_perm.1 hperm).symm
  · rw [halone] at hperm
    exact List.perm_singleton.1 hperm

/-- **Reading a part of the masters**, and every override, can hide more slots and never fewer. -/
theorem IsHidden.filter {p : SyncableEvent → Bool}
    (hoverrides : ∀ event ∈ events, event.recurrenceId.isSome = true → p event = true)
    (hmaster : p master = true) (h : IsHidden events master slot) :
    IsHidden (events.filter p) master slot := by
  obtain ⟨halone, override, hmem, hkey, hid⟩ := h
  refine ⟨?_, override, ?_, hkey, hid⟩
  · have hsplit : mastersOf master.override.seriesKey (events.filter p) =
        (mastersOf master.override.seriesKey events).filter p := List.filter_comm _ _ _
    rw [hsplit, halone, List.filter_cons_of_pos hmaster, List.filter_nil]
  · rw [List.append_nil] at hmem ⊢
    obtain ⟨event, hevent, rfl⟩ := List.mem_map.1 hmem
    have hsome : event.recurrenceId.isSome = true := Option.isSome_iff_exists.2 ⟨slot, hid⟩
    exact List.mem_map.2 ⟨event, List.mem_filter.2 ⟨hevent, hoverrides event hevent hsome⟩, rfl⟩

end Hidden

/-! ## Slots -/

section Slots

variable (rt : Runtime) (occurs : RRuleOptions → ℤ → Prop) (events : List SyncableEvent)

/-- A slot of a series over all time: a wall time of the rule lands on it, and it is neither
excluded nor hidden. -/
def IsSeriesSlot (master : SyncableEvent) (slot : ℤ) : Prop :=
  (∃ rule, master.recurrenceRule = some rule ∧
      ∃ w, Lands rt occurs master rule (seriesZones rt master) w slot) ∧
    slot ∉ master.exceptionDates.getD [] ∧ ¬ IsHidden events master slot

def IsOccurrenceOf (master : SyncableEvent) (slot : ℤ) (e : MaterializedSyncableEvent) : Prop :=
  IsSeriesSlot rt occurs events master slot ∧
    occurrenceAt rt master (seriesZones rt master) slot = some e

variable {rt occurs events} {master : SyncableEvent} {slot : ℤ} {window : SyncWindow}

/-- **A slot is live in a window** where it is one of the series and its occurrence overlaps the
window. -/
theorem isLiveBeside_iff :
    IsLiveBeside rt occurs window (· ∈ overriddenSlots events [] master) master slot ↔
      ∃ e, IsOccurrenceOf rt occurs events master slot e ∧ window.overlaps e.range = true := by
  rw [IsLiveBeside, IsShown, mem_overriddenSlots_iff]
  constructor
  · rintro ⟨rule, hrule, hlands, hexcluded, hhidden, e, he, hoverlaps⟩
    exact ⟨e, ⟨⟨⟨rule, hrule, hlands⟩, hexcluded, hhidden⟩, he⟩, hoverlaps⟩
  · rintro ⟨e, ⟨⟨⟨rule, hrule, hlands⟩, hexcluded, hhidden⟩, he⟩, hoverlaps⟩
    exact ⟨rule, hrule, hlands, hexcluded, hhidden, e, he, hoverlaps⟩

variable {e : MaterializedSyncableEvent}

theorem isOccurrenceOf_congr {events' : List SyncableEvent} (h : events.Perm events') :
    IsOccurrenceOf rt occurs events master slot e ↔
      IsOccurrenceOf rt occurs events' master slot e := by
  rw [IsOccurrenceOf, IsSeriesSlot, isHidden_congr h]
  exact Iff.rfl

/-- An occurrence of a part of the events that holds every override and the master is one of all of
them. -/
theorem IsOccurrenceOf.of_filter {p : SyncableEvent → Bool}
    (hoverrides : ∀ event ∈ events, event.recurrenceId.isSome = true → p event = true)
    (hmaster : p master = true) (h : IsOccurrenceOf rt occurs (events.filter p) master slot e) :
    IsOccurrenceOf rt occurs events master slot e :=
  ⟨⟨h.1.1, h.1.2.1, fun hhidden => h.1.2.2 (hhidden.filter hoverrides hmaster)⟩, h.2⟩

theorem occurrenceAt_eq_some {timeZones : SeriesTimeZones}
    (h : occurrenceAt rt master timeZones slot = some e) :
    e.startTime = slot ∧ e.calendarId = master.calendarId := by
  rw [occurrenceAt] at h
  cases hcreate : createMaterializedOccurrence rt master slot timeZones.seriesTimeZone with
  | error error =>
    rw [hcreate] at h
    cases h
  | ok occurrence =>
    rw [hcreate] at h
    obtain rfl := Option.some.inj h
    obtain ⟨occurrenceEnd, -, hcreate⟩ := bind_eq_ok_iff.1 hcreate
    obtain rfl := Except.ok.inj hcreate
    exact ⟨rfl, rfl⟩

end Slots

/-! ## Lists of occurrences -/

section Lists

variable {rt : Runtime} {events events' : List SyncableEvent}

theorem occurrencesAt_perm (h : events.Perm events') (slotsOf : SyncableEvent → List ℤ) :
    (occurrencesAt rt events slotsOf).Perm (occurrencesAt rt events' slotsOf) :=
  (h.filter _).flatMap_right _

theorem occurrencesAt_filter (p : SyncableEvent → Bool) (slotsOf : SyncableEvent → List ℤ) :
    occurrencesAt rt (events.filter p) slotsOf =
      occurrencesAt rt events fun master => if p master then slotsOf master else [] := by
  rw [occurrencesAt, occurrencesAt, List.filter_comm]
  induction events.filter (·.isMaster) with
  | nil => rfl
  | cons master masters ih =>
    rw [List.flatMap_cons, ← ih]
    cases hp : p master <;> simp [hp]

theorem filter_occurrencesAt (q : MaterializedSyncableEvent → Bool)
    (slotsOf : SyncableEvent → List ℤ) :
    (occurrencesAt rt events slotsOf).filter q = occurrencesAt rt events fun master =>
      (slotsOf master).filter fun slot =>
        (occurrenceAt rt master (seriesZones rt master) slot).any q := by
  rw [occurrencesAt, occurrencesAt, List.filter_flatMap]
  refine List.flatMap_congr fun master _ => ?_
  rw [List.filter_filterMap, List.filterMap_filter]
  refine List.filterMap_congr fun slot _ => ?_
  cases occurrenceAt rt master (seriesZones rt master) slot with
  | none => simp
  | some e => cases hq : q e <;> simp [hq, Option.filter]

end Lists

end Keeper
