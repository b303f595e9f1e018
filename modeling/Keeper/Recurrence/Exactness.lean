import Keeper.Recurrence.Isolation
import Mathlib.Algebra.Order.BigOperators.Group.List

/-!
# What a materialization leaves out

A master stands for the instants of its occurrences, and the materializer finds those whose wall
times lie between the clock readings at the two ends of the window. Where the clock is set back
before the window's end, or forward shortly before the start of the search, an occurrence of the
window can lie outside of them.

* `emitOccurrences_ok`, `materializeMaster_ok`: the occurrences of a master, one for each slot.
* `materializesExactly_iff`: all occurrences of the window are found exactly when the search covers
  them.
-/

namespace Keeper

open JsArray

/-! ## The recurrence engine -/

/-- The recurrence engine lists the occurrences of a rule in a range, both ends included; they lie
between the start of the rule and its end. -/
structure Runtime.Enumerates (rt : Runtime) (occurs : RRuleOptions → ℤ → Prop) : Prop where
  between : ∀ options a b, ∃ l, rt.between options a b = .ok l ∧
    ∀ w, w ∈ l ↔ occurs options w ∧ a ≤ w ∧ w ≤ b
  dtstart : ∀ options w, occurs options w → options.dtstart ≤ w
  «until» : ∀ options w, occurs options w → ∀ last, options.until = some last → w ≤ last

/-! ## One master -/

section Master

variable (rt : Runtime) (occurs : RRuleOptions → ℤ → Prop)

def occurrenceAt (master : SyncableEvent) (timeZones : SeriesTimeZones) (slot : ℤ) :
    Option MaterializedSyncableEvent :=
  (createMaterializedOccurrence rt master slot timeZones.seriesTimeZone).toOption

def Lands (master : SyncableEvent) (rule : IcsRecurrenceRule) (timeZones : SeriesTimeZones)
    (w slot : ℤ) : Prop :=
  occurs (toRRuleOptions rt rule (toRecurrenceWallTime rt master.startTime
      timeZones.expansionTimeZone) timeZones.expansionTimeZone) w ∧
    fromRecurrenceWallTime rt w timeZones.expansionTimeZone = .ok slot

/-- The wall time is searched: the master starts before the window ends, and the wall time lies
between the clock readings at the start of the search and at the end of the window. -/
def IsSearched (master : SyncableEvent) (window : SyncWindow) (timeZones : SeriesTimeZones)
    (w : ℤ) : Prop :=
  master.startTime < window.timeMax ∧
    toRecurrenceWallTime rt (window.timeMin - max master.lookback 0)
      timeZones.expansionTimeZone ≤ w ∧
    w ≤ toRecurrenceWallTime rt window.timeMax timeZones.expansionTimeZone

def IsShown (master : SyncableEvent) (overridden : ℤ → Prop) (window : SyncWindow)
    (timeZones : SeriesTimeZones) (slot : ℤ) : Prop :=
  slot ∉ master.exceptionDates.getD [] ∧ ¬ overridden slot ∧
    ∃ e, occurrenceAt rt master timeZones slot = some e ∧ window.overlaps e.range = true

variable {rt occurs} {master : SyncableEvent} {window : SyncWindow} {timeZones : SeriesTimeZones}

def isTaken (master : SyncableEvent) (overridden emitted : List ℤ) (slot : ℤ) : Bool :=
  (master.exceptionDates.getD []).contains slot || overridden.contains slot ||
    emitted.contains slot

theorem emitOccurrences_taken {overridden starts emitted : List ℤ} {w slot : ℤ}
    (hslot : fromRecurrenceWallTime rt w timeZones.expansionTimeZone = .ok slot)
    (htaken : isTaken master overridden emitted slot = true) :
    emitOccurrences rt master overridden window timeZones (w :: starts) emitted =
      emitOccurrences rt master overridden window timeZones starts emitted := by
  rw [emitOccurrences, hslot]
  exact if_pos htaken

theorem emitOccurrences_free {overridden starts emitted : List ℤ} {w slot : ℤ}
    (hslot : fromRecurrenceWallTime rt w timeZones.expansionTimeZone = .ok slot)
    (hfree : isTaken master overridden emitted slot = false) {e : MaterializedSyncableEvent}
    (he : createMaterializedOccurrence rt master slot timeZones.seriesTimeZone = .ok e)
    {others : List MaterializedSyncableEvent}
    (hothers : emitOccurrences rt master overridden window timeZones starts (slot :: emitted) =
      .ok others) :
    emitOccurrences rt master overridden window timeZones (w :: starts) emitted =
      .ok (if window.overlaps e.range then e :: others else others) := by
  have hno : ¬ isTaken master overridden emitted slot = true := by simp [hfree]
  rw [emitOccurrences, hslot]
  refine (if_neg hno).trans ?_
  rw [he, hothers]
  rfl

/-- **The pass over the wall times of a master** emits one occurrence for each slot that they land
on, as far as it is free and overlaps the window. -/
theorem emitOccurrences_ok
    (hwall : ∀ w, ∃ slot, fromRecurrenceWallTime rt w timeZones.expansionTimeZone = .ok slot)
    (hcreate : ∀ slot, ∃ e, createMaterializedOccurrence rt master slot
      timeZones.seriesTimeZone = .ok e) (overridden starts emitted : List ℤ) :
    ∃ slots : List ℤ, emitOccurrences rt master overridden window timeZones starts emitted =
        .ok (slots.filterMap (occurrenceAt rt master timeZones)) ∧ slots.Nodup ∧
      ∀ slot, slot ∈ slots ↔ slot ∉ emitted ∧
        (∃ w ∈ starts, fromRecurrenceWallTime rt w timeZones.expansionTimeZone = .ok slot) ∧
        IsShown rt master (· ∈ overridden) window timeZones slot := by
  induction starts generalizing emitted with
  | nil => exact ⟨[], rfl, List.nodup_nil, by simp⟩
  | cons w starts ih =>
    obtain ⟨slot, hslot⟩ := hwall w
    have hlands : ∀ s, (∃ w' ∈ w :: starts,
        fromRecurrenceWallTime rt w' timeZones.expansionTimeZone = .ok s) ↔ s = slot ∨
        ∃ w' ∈ starts, fromRecurrenceWallTime rt w' timeZones.expansionTimeZone = .ok s := by
      intro s
      simp only [List.mem_cons, exists_eq_or_imp, hslot, Except.ok.injEq]
      exact or_congr_left eq_comm
    cases htaken : isTaken master overridden emitted slot with
    | true =>
      obtain ⟨slots, hrun, hnodup, hmem⟩ := ih emitted
      refine ⟨slots, by rw [emitOccurrences_taken hslot htaken, hrun], hnodup, fun s => ?_⟩
      rw [hmem, hlands]
      simp only [isTaken, Bool.or_eq_true, List.contains_eq_mem, decide_eq_true_eq] at htaken
      refine and_congr_right fun hfresh => and_congr_left fun hshown => ?_
      refine (or_iff_right fun heq => ?_).symm
      subst heq
      rcases htaken with (hexcluded | hoverridden) | hemitted
      · exact hshown.1 hexcluded
      · exact hshown.2.1 hoverridden
      · exact hfresh hemitted
    | false =>
      obtain ⟨e, he⟩ := hcreate slot
      obtain ⟨slots, hrun, hnodup, hmem⟩ := ih (slot :: emitted)
      have hat : occurrenceAt rt master timeZones slot = some e := by
        rw [occurrenceAt, he]
        rfl
      have hstep := emitOccurrences_free hslot htaken he hrun
      simp only [isTaken, Bool.or_eq_false_iff, List.contains_eq_mem, decide_eq_false_iff_not]
        at htaken
      obtain ⟨⟨hexcluded, hoverridden⟩, hemitted⟩ := htaken
      have hfresh : slot ∉ slots := fun hin => ((hmem slot).1 hin).1 List.mem_cons_self
      by_cases hoverlaps : window.overlaps e.range = true
      · refine ⟨slot :: slots, ?_, List.nodup_cons.2 ⟨hfresh, hnodup⟩, fun s => ?_⟩
        · rw [hstep, if_pos hoverlaps, List.filterMap_cons_some hat]
        · rw [List.mem_cons, hmem, hlands, List.mem_cons, not_or]
          by_cases heq : s = slot
          · subst heq
            have hshown : IsShown rt master (· ∈ overridden) window timeZones s :=
              ⟨hexcluded, hoverridden, e, hat, hoverlaps⟩
            exact iff_of_true (Or.inl rfl) ⟨hemitted, Or.inl rfl, hshown⟩
          · simp [heq]
      · refine ⟨slots, by rw [hstep, if_neg hoverlaps], hnodup, fun s => ?_⟩
        rw [hmem, hlands, List.mem_cons, not_or]
        by_cases heq : s = slot
        · subst heq
          refine iff_of_false (fun h => h.1.1 rfl) fun h => ?_
          obtain ⟨-, -, -, -, e', he', hoverlaps'⟩ := h
          rw [hat] at he'
          obtain rfl := Option.some.inj he'
          exact hoverlaps hoverlaps'
        · simp [heq]

variable {timeZone : Option String}

theorem resolveSeriesTimeZones_ok (rule : IcsRecurrenceRule)
    (h : resolveTimeZone rt.zones master.startTimeZone = .ok timeZone) :
    ∃ timeZones, resolveSeriesTimeZones rt master rule = .ok timeZones ∧
      (∀ name, timeZones.expansionTimeZone = some name → timeZone = some name) ∧
      ∀ name, timeZones.seriesTimeZone = some name → timeZone = some name := by
  rw [resolveSeriesTimeZones, h]
  simp only [bind, Except.bind]
  split_ifs
  · exact ⟨_, rfl, (fun name h => by cases h), (fun name h => by cases h)⟩
  · exact ⟨_, rfl, (fun name h => by cases h), fun name h => h⟩
  · exact ⟨_, rfl, fun name h => h, fun name h => h⟩

theorem fromRecurrenceWallTime_ok (h : ∀ name, timeZone = some name → RegularZone rt.zones name) (w : ℤ) :
    ∃ slot, fromRecurrenceWallTime rt w timeZone = .ok slot := by
  cases timeZone with
  | none => exact ⟨w, rfl⟩
  | some name => exact wallTimeToInstant_ok rt.zones (h name rfl) w

theorem createMaterializedOccurrence_regular (h : ∀ name, timeZone = some name → RegularZone rt.zones name) (slot : ℤ) :
    ∃ e, createMaterializedOccurrence rt master slot timeZone = .ok e := by
  have hend : ∃ occurrenceEnd, resolveOccurrenceEnd rt master slot timeZone = .ok occurrenceEnd := by
    unfold resolveOccurrenceEnd
    cases master.recurrenceDuration with
    | none => exact ⟨_, rfl⟩
    | some duration => exact addIcsDuration_ok rt.zones h slot duration
  obtain ⟨occurrenceEnd, hend⟩ := hend
  exact ⟨_, bind_eq_ok_iff.2 ⟨occurrenceEnd, hend, rfl⟩⟩

/-- **The wall times of a master within budget** are those of its rule in the searched range. -/
theorem occurrenceStarts_ok (henum : rt.Enumerates occurs) {rule : IcsRecurrenceRule}
    (hbudget : occurrenceStarts rt master rule window timeZone ≠ .error (.limit master.limitError)) :
    ∃ starts, occurrenceStarts rt master rule window timeZone = .ok starts ∧
      ∀ w, w ∈ starts ↔
        occurs (toRRuleOptions rt rule (toRecurrenceWallTime rt master.startTime timeZone)
          timeZone) w ∧
        toRecurrenceWallTime rt (window.timeMin - max master.lookback 0) timeZone ≤ w ∧
        w ≤ toRecurrenceWallTime rt window.timeMax timeZone := by
  obtain ⟨l, hl, hmem⟩ := henum.between
    (toRRuleOptions rt rule (toRecurrenceWallTime rt master.startTime timeZone) timeZone)
    (toRecurrenceWallTime rt (window.timeMin - max master.lookback 0) timeZone)
    (toRecurrenceWallTime rt window.timeMax timeZone)
  unfold occurrenceStarts at hbudget ⊢
  dsimp only at hbudget ⊢
  split_ifs at hbudget ⊢ with hexhausted hover
  · refine ⟨[], rfl, fun w => ?_⟩
    rw [isSeriesExhaustedBeforeWindow, Option.any_eq_true] at hexhausted
    obtain ⟨last, hlast, hbefore⟩ := hexhausted
    refine iff_of_false List.not_mem_nil fun h => ?_
    have hle := henum.until _ w h.1 (toRecurrenceWallTime rt last.date timeZone)
      (by rw [toRRuleOptions, hlast]; rfl)
    simp only [decide_eq_true_eq] at hbefore
    omega
  · exact absurd rfl hbudget
  · rw [hl] at hbudget ⊢
    dsimp only at hbudget ⊢
    split_ifs at hbudget ⊢
    · exact absurd rfl hbudget
    · exact ⟨l, rfl, hmem⟩

/-- **What a master within budget gives**: one occurrence for each slot that a searched wall time of
its rule lands on, as far as it is free and overlaps the window. -/
theorem materializeMaster_ok (henum : rt.Enumerates occurs) {rule : IcsRecurrenceRule}
    (hrule : master.recurrenceRule = some rule)
    (hzones : resolveSeriesTimeZones rt master rule = .ok timeZones)
    (hexpansion : ∀ name, timeZones.expansionTimeZone = some name → RegularZone rt.zones name)
    (hseries : ∀ name, timeZones.seriesTimeZone = some name → RegularZone rt.zones name)
    (hbudget : isOverBudget rt master window = false) (overridden : List ℤ) :
    ∃ slots : List ℤ, materializeMaster rt master overridden window =
        .ok (slots.filterMap (occurrenceAt rt master timeZones)) ∧ slots.Nodup ∧
      ∀ slot, slot ∈ slots ↔
        (∃ w, Lands rt occurs master rule timeZones w slot ∧
          IsSearched rt master window timeZones w) ∧
        IsShown rt master (· ∈ overridden) window timeZones slot := by
  have hwithin : materializeMaster rt master overridden window ≠
      .error (.limit master.limitError) := by
    intro hlimit
    have hover := ((materializeMaster_eq_limit_iff overridden).1 hlimit).1
    rw [hover] at hbudget
    cases hbudget
  unfold materializeMaster at hwithin ⊢
  simp only [hrule, hzones] at hwithin ⊢
  by_cases hafter : window.timeMax ≤ master.startTime
  · rw [if_pos hafter]
    refine ⟨[], rfl, List.nodup_nil, fun slot => iff_of_false List.not_mem_nil ?_⟩
    rintro ⟨⟨w, -, hstart, -⟩, -⟩
    omega
  · rw [if_neg hafter] at hwithin ⊢
    have hstart : master.startTime < window.timeMax := not_le.1 hafter
    have hbudget' : occurrenceStarts rt master rule window timeZones.expansionTimeZone ≠
        .error (.limit master.limitError) := by
      intro hlimit
      exact hwithin (bind_eq_error_iff.2 (Or.inr ⟨timeZones, rfl,
        bind_eq_error_iff.2 (Or.inl hlimit)⟩))
    obtain ⟨starts, hstarts, hmem⟩ := occurrenceStarts_ok henum hbudget'
    obtain ⟨slots, hrun, hnodup, hslots⟩ := emitOccurrences_ok
      (fromRecurrenceWallTime_ok hexpansion) (createMaterializedOccurrence_regular hseries)
      overridden starts []
    refine ⟨slots, ?_, hnodup, fun slot => ?_⟩
    · exact bind_eq_ok_iff.2 ⟨timeZones, rfl, bind_eq_ok_iff.2 ⟨starts, hstarts,
        liftRange_eq_ok_iff.2 hrun⟩⟩
    · rw [hslots]
      simp only [List.not_mem_nil, not_false_eq_true, true_and, hmem]
      refine and_congr_left fun _ => exists_congr fun w => ?_
      constructor
      · rintro ⟨⟨hoccurs, hlo, hhi⟩, hlands⟩
        exact ⟨⟨hoccurs, hlands⟩, hstart, hlo, hhi⟩
      · rintro ⟨⟨hoccurs, hlands⟩, -, hlo, hhi⟩
        exact ⟨⟨hoccurs, hlo, hhi⟩, hlands⟩

end Master

/-! ## All masters -/

def seriesZones (rt : Runtime) (master : SyncableEvent) : SeriesTimeZones :=
  (master.recurrenceRule.bind fun rule =>
    (resolveSeriesTimeZones rt master rule).toOption).getD {}

/-- A slot of a series is overridden: it is the recurrence id of an override of its calendar and
uid. -/
def IsOverridden (events : List SyncableEvent) (suppressedOverrides : List SuppressedOverride)
    (master : SyncableEvent) (slot : ℤ) : Prop :=
  ∃ override ∈ events.map (·.override) ++ suppressedOverrides,
    override.seriesKey = master.override.seriesKey ∧ override.recurrenceId = some slot

section Masters

variable (rt : Runtime) (occurs : RRuleOptions → ℤ → Prop) (events : List SyncableEvent)
  (suppressedOverrides : List SuppressedOverride) (window : SyncWindow)

/-- A slot of a series in the window: a wall time of the rule lands on it, and it is shown. -/
def IsLive (master : SyncableEvent) (slot : ℤ) : Prop :=
  ∃ rule, master.recurrenceRule = some rule ∧
    (∃ w, Lands rt occurs master rule (seriesZones rt master) w slot) ∧
    IsShown rt master (IsOverridden events suppressedOverrides master) window
      (seriesZones rt master) slot

/-- A slot of a series is searched: a wall time that is searched lands on it. -/
def IsReached (master : SyncableEvent) (slot : ℤ) : Prop :=
  ∃ rule, master.recurrenceRule = some rule ∧
    ∃ w, Lands rt occurs master rule (seriesZones rt master) w slot ∧
      IsSearched rt master window (seriesZones rt master) w

/-- What can be materialized: the engine lists occurrences, there is one master of a calendar and
uid at most, none is over budget, their zones are regular, and the window is not empty. -/
structure IsMaterializable : Prop where
  enumerates : rt.Enumerates occurs
  masters : ((events.filter (·.isMaster)).map (·.override.seriesKey)).Nodup
  withinBudget : ∀ event ∈ events, isSkipped rt window event = false
  zones : ∀ event ∈ events, event.isMaster = true → ∃ timeZone,
    resolveTimeZone rt.zones event.startTimeZone = .ok timeZone ∧
      ∀ name, timeZone = some name → RegularZone rt.zones name
  window : window.timeMin < window.timeMax

/-- What can be expanded, whatever masters share a calendar and uid. -/
structure IsExpandable : Prop where
  enumerates : rt.Enumerates occurs
  withinBudget : ∀ event ∈ events, isSkipped rt window event = false
  zones : ∀ event ∈ events, event.isMaster = true → ∃ timeZone,
    resolveTimeZone rt.zones event.startTimeZone = .ok timeZone ∧
      ∀ name, timeZone = some name → RegularZone rt.zones name
  window : window.timeMin < window.timeMax

/-- The slots of a master that overrides hide: none where its series has several masters. -/
def overriddenSlots (master : SyncableEvent) : List ℤ :=
  ((getOverriddenSlotsByMaster (events.map (·.override) ++ suppressedOverrides)
    (getUniqueMastersBySeries events)).get? master).getD []

/-- A slot of a series in the window: a wall time of the rule lands on it, and it is shown beside
these overrides. -/
def IsLiveBeside (overridden : ℤ → Prop) (master : SyncableEvent) (slot : ℤ) : Prop :=
  ∃ rule, master.recurrenceRule = some rule ∧
    (∃ w, Lands rt occurs master rule (seriesZones rt master) w slot) ∧
    IsShown rt master overridden window (seriesZones rt master) slot

def oneOffsOf : List MaterializedSyncableEvent :=
  (events.filter fun event => !event.isMaster &&
    window.overlaps ⟨event.startTime, event.endTime⟩).map asOneOffEvent

def occurrencesAt (slotsOf : SyncableEvent → List ℤ) : List MaterializedSyncableEvent :=
  (events.filter (·.isMaster)).flatMap fun master =>
    (slotsOf master).filterMap (occurrenceAt rt master (seriesZones rt master))

/-- A materialization is exact: it holds, in order, the one-off events and overrides of the window
and one occurrence for each live slot of each master. -/
structure MaterializesExactly (result : Materialization) : Prop where
  sorted : result.events.Pairwise fun a b => compareEvents a b ≤ 0
  complete : ∃ slotsOf : SyncableEvent → List ℤ,
    (∀ master ∈ events.filter (·.isMaster), (slotsOf master).Nodup ∧ ∀ slot,
      slot ∈ slotsOf master ↔ IsLive rt occurs events suppressedOverrides window master slot) ∧
    result.events.Perm (occurrencesAt rt events slotsOf ++ oneOffsOf events window)

variable {rt occurs events suppressedOverrides window} {master : SyncableEvent}

theorem IsMaterializable.mastersOf_eq (h : IsMaterializable rt occurs events window)
    (hmem : master ∈ events.filter (·.isMaster)) :
    mastersOf master.override.seriesKey events = [master] := by
  have hmasters : mastersOf master.override.seriesKey events =
      (events.filter (·.isMaster)).filter fun event =>
        event.override.seriesKey = master.override.seriesKey := by
    rw [mastersOf, List.filter_filter]
    exact List.filter_congr fun event _ => Bool.and_comm _ _
  rw [hmasters]
  exact filter_eq_singleton h.masters hmem

/-- **The overridden slots of a master** that is alone in its series. -/
theorem IsMaterializable.mem_overriddenSlots_iff (h : IsMaterializable rt occurs events window)
    (hmem : master ∈ events.filter (·.isMaster)) {slot : ℤ} :
    slot ∈ overriddenSlots events suppressedOverrides master ↔
      IsOverridden events suppressedOverrides master slot := by
  rw [overriddenSlots, getD_getOverriddenSlotsByMaster, List.mem_filterMap, IsOverridden]
  refine exists_congr fun override => and_congr_right fun _ => ?_
  have hkey : (getUniqueMastersBySeries events).get? override.seriesKey = some master ↔
      override.seriesKey = master.override.seriesKey := by
    rw [get?_getUniqueMastersBySeries]
    constructor
    · intro hmasters
      have hin : master ∈ mastersOf override.seriesKey events := by
        rw [hmasters]
        exact List.mem_singleton_self _
      have hboth := (List.mem_filter.1 hin).2
      simp only [Bool.and_eq_true, decide_eq_true_eq] at hboth
      exact hboth.2.symm
    · intro heq
      rw [heq]
      exact h.mastersOf_eq hmem
  by_cases heq : override.seriesKey = master.override.seriesKey
  · rw [if_pos (hkey.2 heq)]
    exact (and_iff_right heq).symm
  · rw [if_neg (mt hkey.1 heq)]
    exact iff_of_false (by simp) fun hand => heq hand.1

theorem IsMaterializable.isExpandable (h : IsMaterializable rt occurs events window) :
    IsExpandable rt occurs events window := ⟨h.enumerates, h.withinBudget, h.zones, h.window⟩

/-- **The occurrences of a master**: one for each searched slot that is shown. -/
theorem IsExpandable.materializeMaster_ok (h : IsExpandable rt occurs events window)
    (overridden : List ℤ) (hmem : master ∈ events.filter (·.isMaster)) :
    ∃ slots : List ℤ, materializeMaster rt master overridden window =
        .ok (slots.filterMap (occurrenceAt rt master (seriesZones rt master))) ∧ slots.Nodup ∧
      ∀ slot, slot ∈ slots ↔ IsReached rt occurs window master slot ∧
        IsLiveBeside rt occurs window (· ∈ overridden) master slot := by
  obtain ⟨hevent, hyes⟩ := List.mem_filter.1 hmem
  obtain ⟨timeZone, hresolve, hregular⟩ := h.zones master hevent hyes
  have hmaster := hyes
  rw [SyncableEvent.isMaster, Bool.and_eq_true] at hmaster
  obtain ⟨rule, hrule⟩ := Option.isSome_iff_exists.1 hmaster.1
  obtain ⟨timeZones, hzones, hexpansion, hseries⟩ := resolveSeriesTimeZones_ok rule
    hresolve
  have hzonesOf : seriesZones rt master = timeZones := by
    rw [seriesZones, hrule, Option.bind_some, hzones]
    rfl
  have hbudget : isOverBudget rt master window = false := by
    have hno := h.withinBudget master hevent
    rwa [isSkipped, hyes, Bool.true_and] at hno
  obtain ⟨slots, hrun, hnodup, hslots⟩ := Keeper.materializeMaster_ok h.enumerates hrule hzones
    (fun name hname => hregular name (hexpansion name hname))
    (fun name hname => hregular name (hseries name hname)) hbudget overridden
  rw [hzonesOf]
  refine ⟨slots, hrun, hnodup, fun slot => ?_⟩
  rw [hslots, IsReached, IsLiveBeside, hzonesOf, hrule]
  constructor
  · rintro ⟨⟨w, hlands, hsearched⟩, hshown⟩
    exact ⟨⟨rule, rfl, w, hlands, hsearched⟩, rule, rfl, ⟨w, hlands⟩, hshown⟩
  · rintro ⟨⟨rule', hrule', w, hlands, hsearched⟩, -, -, -, hshown⟩
    obtain rfl := Option.some.inj hrule'
    exact ⟨⟨w, hlands, hsearched⟩, hshown⟩

/-- The pass over events whose masters all materialize collects their occurrences. -/
theorem foldlM_materializeSeries (isolates : Bool) {slots : JsMap SyncableEvent (List ℤ)}
    {occurrences : SyncableEvent → List MaterializedSyncableEvent} {l : List SyncableEvent}
    (h : ∀ event ∈ l.filter (·.isMaster), materializeMaster rt event
      ((slots.get? event).getD []) window = .ok (occurrences event)) (pass : SeriesPass) :
    l.foldlM (materializeSeries rt isolates slots window) pass = .ok { pass with
      materializedEvents := pass.materializedEvents ++
        (l.filter (·.isMaster)).flatMap occurrences } := by
  induction l generalizing pass with
  | nil => simp [pure, Except.pure]
  | cons event l ih =>
    cases hmaster : event.isMaster with
    | false =>
      have hothers : (event :: l).filter (·.isMaster) = l.filter (·.isMaster) :=
        List.filter_cons_of_neg (by simp [hmaster])
      rw [hothers] at h ⊢
      have hstep : materializeSeries rt isolates slots window pass event = .ok pass := by
        rw [materializeSeries, if_neg (by simp [hmaster])]
      rw [List.foldlM_cons, hstep]
      exact ih h pass
    | true =>
      have hall : (event :: l).filter (·.isMaster) = event :: l.filter (·.isMaster) :=
        List.filter_cons_of_pos hmaster
      rw [hall] at h ⊢
      have hstep : materializeSeries rt isolates slots window pass event = .ok { pass with
          materializedEvents := pass.materializedEvents ++ occurrences event } := by
        rw [materializeSeries, if_pos hmaster, h event List.mem_cons_self]
      rw [List.foldlM_cons, hstep, List.flatMap_cons, ← List.append_assoc]
      exact ih (fun other hother => h other (List.mem_cons_of_mem _ hother)) _

/-- Without skipped series every one-off event and override of the window is emitted. -/
theorem filterMap_emitOneOff : events.filterMap (emitOneOff [] window) = oneOffsOf events window := by
  rw [oneOffsOf, ← List.filterMap_eq_map, List.filterMap_filter]
  refine List.filterMap_congr fun event _ => ?_
  by_cases hemit : (!event.isMaster &&
      window.overlaps ⟨event.startTime, event.endTime⟩) = true
  · rw [if_pos hemit]
    simp only [Bool.and_eq_true, Bool.not_eq_true'] at hemit
    exact emitOneOff_eq_some_iff.2 ⟨hemit.1, fun _ => List.not_mem_nil, hemit.2, rfl⟩
  · rw [if_neg hemit]
    refine Option.eq_none_iff_forall_ne_some.2 fun e he => hemit ?_
    obtain ⟨hmaster, -, hoverlaps, -⟩ := emitOneOff_eq_some_iff.1 he
    rw [hmaster, hoverlaps]
    rfl

theorem IsLive.isSome_occurrenceAt {slot : ℤ}
    (h : IsLive rt occurs events suppressedOverrides window master slot) :
    (occurrenceAt rt master (seriesZones rt master) slot).isSome := by
  obtain ⟨-, -, -, -, -, e, he, -⟩ := h
  rw [he]
  rfl

variable {slotsOf : SyncableEvent → List ℤ}

theorem length_occurrencesAt
    (h : ∀ master ∈ events.filter (·.isMaster), ∀ slot ∈ slotsOf master, (occurrenceAt rt master (seriesZones rt master) slot).isSome) :
    (occurrencesAt rt events slotsOf).length =
      ((events.filter (·.isMaster)).map fun master => (slotsOf master).length).sum := by
  rw [occurrencesAt, List.length_flatMap]
  refine congrArg List.sum (List.map_congr_left fun master hmem => ?_)
  rw [List.filterMap_length_eq_length]
  exact h master hmem

theorem length_occurrencesAt_le {slotsOf' : SyncableEvent → List ℤ}
    (hsub : ∀ master ∈ events.filter (·.isMaster), (slotsOf master).Subperm (slotsOf' master))
    (hsome : ∀ master ∈ events.filter (·.isMaster), ∀ slot ∈ slotsOf' master, (occurrenceAt rt master (seriesZones rt master) slot).isSome) :
    (occurrencesAt rt events slotsOf).length ≤ (occurrencesAt rt events slotsOf').length := by
  rw [length_occurrencesAt hsome, length_occurrencesAt fun m hm slot hslot =>
    hsome m hm slot ((hsub m hm).subset hslot)]
  exact List.sum_le_sum fun m hm => (hsub m hm).length_le

/-- **As many occurrences**: where one choice of slots lies in another and gives as many
occurrences, the two are the same. -/
theorem perm_of_length_occurrencesAt {slotsOf' : SyncableEvent → List ℤ}
    (hsub : ∀ master ∈ events.filter (·.isMaster), (slotsOf master).Subperm (slotsOf' master))
    (hsome : ∀ master ∈ events.filter (·.isMaster), ∀ slot ∈ slotsOf' master, (occurrenceAt rt master (seriesZones rt master) slot).isSome)
    (hlength : (occurrencesAt rt events slotsOf').length ≤ (occurrencesAt rt events slotsOf).length)
    (hmem : master ∈ events.filter (·.isMaster)) : (slotsOf master).Perm (slotsOf' master) := by
  rw [length_occurrencesAt hsome, length_occurrencesAt fun m hm slot hslot =>
    hsome m hm slot ((hsub m hm).subset hslot)] at hlength
  refine (hsub master hmem).perm_of_length_le (not_lt.1 fun hlt => ?_)
  exact absurd hlength (not_le.2 (List.sum_lt_sum _ _ (fun m hm => (hsub m hm).length_le)
    ⟨master, hmem, hlt⟩))

/-- **A materialization** holds the occurrences of the masters at slots that are searched and shown
beside their overrides. -/
theorem IsExpandable.materializeRecurrenceEvents_ok (h : IsExpandable rt occurs events window)
    (isolates : Bool) (suppressedOverrides : List SuppressedOverride) :
    ∃ slotsOf : SyncableEvent → List ℤ,
      materializeRecurrenceEvents rt events window isolates suppressedOverrides = .ok
        { events := toSorted compareEvents
            (occurrencesAt rt events slotsOf ++ oneOffsOf events window)
          overBudget := [] } ∧
      ∀ master ∈ events.filter (·.isMaster), (slotsOf master).Nodup ∧ ∀ slot,
        slot ∈ slotsOf master ↔ IsReached rt occurs window master slot ∧
          IsLiveBeside rt occurs window (· ∈ overriddenSlots events suppressedOverrides master)
            master slot := by
  choose! slotsOf hrun hslots using fun master hmem => h.materializeMaster_ok
    (overriddenSlots events suppressedOverrides master) (hmem : master ∈ _)
  refine ⟨slotsOf, ?_, hslots⟩
  have hwindow : assertValidWindow window = .ok ⟨⟩ := if_neg (not_le.2 h.window)
  refine bind_eq_ok_iff.2 ⟨_, hwindow, bind_eq_ok_iff.2 ⟨_,
    foldlM_materializeSeries isolates hrun {}, ?_⟩⟩
  rw [filterMap_emitOneOff, List.nil_append]
  rfl

/-- Where each series has one master, these are the live slots that are searched. -/
theorem IsMaterializable.materializeRecurrenceEvents_ok
    (h : IsMaterializable rt occurs events window) (isolates : Bool)
    (suppressedOverrides : List SuppressedOverride) :
    ∃ slotsOf : SyncableEvent → List ℤ,
      materializeRecurrenceEvents rt events window isolates suppressedOverrides = .ok
        { events := toSorted compareEvents
            (occurrencesAt rt events slotsOf ++ oneOffsOf events window)
          overBudget := [] } ∧
      ∀ master ∈ events.filter (·.isMaster), (slotsOf master).Nodup ∧ ∀ slot,
        slot ∈ slotsOf master ↔ IsReached rt occurs window master slot ∧
          IsLive rt occurs events suppressedOverrides window master slot := by
  obtain ⟨slotsOf, hrun, hslots⟩ := h.isExpandable.materializeRecurrenceEvents_ok isolates
    suppressedOverrides
  refine ⟨slotsOf, hrun, fun master hmem => ⟨(hslots master hmem).1, fun slot => ?_⟩⟩
  rw [(hslots master hmem).2, IsLiveBeside, IsShown, h.mem_overriddenSlots_iff hmem]
  exact Iff.rfl

/-- **A materialization is exact** exactly when every live slot is searched: of the wall times that
land on it, one lies between the clock readings at the start of the search and at the end of the
window, and the master starts before that end. -/
theorem materializesExactly_iff (h : IsMaterializable rt occurs events window) (isolates : Bool)
    (suppressedOverrides : List SuppressedOverride) :
    ∃ result, materializeRecurrenceEvents rt events window isolates suppressedOverrides =
        .ok result ∧
      (MaterializesExactly rt occurs events suppressedOverrides window result ↔
        ∀ master ∈ events.filter (·.isMaster), ∀ slot,
          IsLive rt occurs events suppressedOverrides window master slot →
            IsReached rt occurs window master slot) := by
  obtain ⟨slotsOf, hrun, hslots⟩ := h.materializeRecurrenceEvents_ok isolates suppressedOverrides
  have hperm := toSorted_perm compareEvents
    (occurrencesAt rt events slotsOf ++ oneOffsOf events window)
  refine ⟨_, hrun, ?_, fun hreached => ⟨compareEvents_orders.pairwise_toSorted _, slotsOf,
    fun master hmem => ⟨(hslots master hmem).1, fun slot => ?_⟩, hperm⟩⟩
  · rintro ⟨-, liveOf, hlive, hcomplete⟩ master hmem slot hslot
    -- the occurrences at the searched slots are as many as those at all live slots
    have hlength := (hperm.symm.trans hcomplete).length_eq
    rw [List.length_append, List.length_append, Nat.add_right_cancel_iff] at hlength
    have hsub : ∀ m ∈ events.filter (·.isMaster), (slotsOf m).Subperm (liveOf m) := by
      intro m hm
      refine (hslots m hm).1.subperm fun s hs => ?_
      exact ((hlive m hm).2 s).2 (((hslots m hm).2 s).1 hs).2
    have hall := perm_of_length_occurrencesAt hsub
      (fun m hm s hs => (((hlive m hm).2 s).1 hs).isSome_occurrenceAt) hlength.ge hmem
    have hin := hall.mem_iff.2 (((hlive master hmem).2 slot).2 hslot)
    exact (((hslots master hmem).2 slot).1 hin).1
  · rw [(hslots master hmem).2]
    exact and_iff_right_of_imp (hreached master hmem slot)

end Masters

namespace Example

/-- The host of a zone whose clock is set back by an hour at 06:00 UTC on 2025-11-02, and an engine
for rules that occur once. -/
def newYork : Runtime where
  host
  zones :=
    { identify := id
      supports := fun _ => true
      instantToWallTime := fun t _ => if t < 1762063200000 then t - 14400000 else t - 18000000 }
  between options a b := .ok ([options.dtstart].filter fun w =>
    options.until.all (w ≤ ·) && a ≤ w && w ≤ b)

def occursOnce (options : RRuleOptions) (w : ℤ) : Prop :=
  w = options.dtstart ∧ ∀ last, options.until = some last → w ≤ last

theorem newYork_enumerates : newYork.Enumerates occursOnce where
  between options a b := by
    refine ⟨_, rfl, fun w => ?_⟩
    simp only [occursOnce, List.mem_filter, List.mem_singleton, Bool.and_eq_true,
      decide_eq_true_eq, Option.all_eq_true]
    tauto
  dtstart _ _ h := h.1.ge
  «until» _ _ h := h.2

theorem newYork_regular (name : String) : RegularZone newYork.zones name where
  bounded t := by
    simp only [offsetMillisecondsAt, newYork, msPerDay]
    split_ifs <;> omega
  changes t := by
    refine ⟨1762063200000, fun u hu hc => ?_, fun u hc hu => ?_⟩ <;>
    · simp only [offsetMillisecondsAt, newYork, msPerDay] at hu ⊢
      split_ifs <;> omega

/-- A daily series that ends after its first occurrence, fifteen minutes before the clock is set back
from half past one on. -/
def halfPastOne : SyncableEvent :=
  { event "s1" 1762061400000 with
    endTime := 1762062300000
    startTimeZone := some "America/New_York"
    recurrenceRule := some { frequency := .daily, count := some 1 } }

/-- From 05:00 to 06:10 UTC: the clock shows 01:10 at its end. -/
def nightWindow : SyncWindow := ⟨1762059600000, 1762063800000⟩

/-- From 05:00 to 07:00 UTC: the clock shows 02:00 at its end. -/
def longerNight : SyncWindow := ⟨1762059600000, 1762066800000⟩

theorem isMaterializable_halfPastOne {window : SyncWindow}
    (hbudget : isOverBudget newYork halfPastOne window = false)
    (hwindow : window.timeMin < window.timeMax) :
    IsMaterializable newYork occursOnce [halfPastOne] window where
  enumerates := newYork_enumerates
  masters := List.nodup_singleton _
  withinBudget event hevent := by
    obtain rfl := List.mem_singleton.1 hevent
    rw [isSkipped, hbudget, Bool.and_false]
  zones event hevent _ := by
    obtain rfl := List.mem_singleton.1 hevent
    exact ⟨some "America/New_York", rfl, fun name _ => newYork_regular name⟩
  window := hwindow

end Example

theorem materializesExactly_iff_example :
    ∃ result, materializeRecurrenceEvents Example.newYork [Example.halfPastOne]
        Example.longerNight true [] = .ok result ∧
      (MaterializesExactly Example.newYork Example.occursOnce [Example.halfPastOne] []
          Example.longerNight result ↔
        ∀ master ∈ [Example.halfPastOne].filter (·.isMaster), ∀ slot,
          IsLive Example.newYork Example.occursOnce [Example.halfPastOne] [] Example.longerNight
            master slot →
          IsReached Example.newYork Example.occursOnce Example.longerNight master slot) :=
  materializesExactly_iff (Example.isMaterializable_halfPastOne (by rfl) (by decide)) true []

/-- **An occurrence is left out.** The clock is set back before the window ends and shows ten past
one then; the occurrence at half past one, forty minutes before, is not searched. -/
theorem not_materializesExactly :
    IsMaterializable Example.newYork Example.occursOnce [Example.halfPastOne]
        Example.nightWindow ∧
      materializeRecurrenceEvents Example.newYork [Example.halfPastOne] Example.nightWindow true
        [] = .ok ⟨[], []⟩ ∧
      ¬ MaterializesExactly Example.newYork Example.occursOnce [Example.halfPastOne] []
        Example.nightWindow ⟨[], []⟩ := by
  refine ⟨Example.isMaterializable_halfPastOne (by rfl) (by decide), by rfl, ?_⟩
  rintro ⟨-, slotsOf, hslots, hperm⟩
  have hmem : Example.halfPastOne ∈ [Example.halfPastOne].filter (·.isMaster) :=
    List.mem_singleton_self _
  have hlive : IsLive Example.newYork Example.occursOnce [Example.halfPastOne] []
      Example.nightWindow Example.halfPastOne 1762061400000 := by
    refine ⟨_, rfl, ⟨1762047000000, ⟨rfl, fun last hlast => by cases hlast⟩, rfl⟩,
      List.not_mem_nil, ?_, _, rfl, rfl⟩
    rintro ⟨override, hmem, -, hid⟩
    obtain rfl := List.mem_singleton.1 hmem
    cases hid
  have hin := ((hslots _ hmem).2 _).2 hlive
  obtain ⟨e, he⟩ := Option.isSome_iff_exists.1 hlive.isSome_occurrenceAt
  have hoccurrence : e ∈ occurrencesAt Example.newYork [Example.halfPastOne] slotsOf :=
    List.mem_flatMap.2 ⟨_, hmem, List.mem_filterMap.2 ⟨_, hin, he⟩⟩
  exact absurd (hperm.mem_iff.2 (List.mem_append_left _ hoccurrence)) List.not_mem_nil

end Keeper
