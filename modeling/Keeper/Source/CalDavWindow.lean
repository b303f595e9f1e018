import Keeper.Ics.ParseEvents
import Keeper.Recurrence.AllTime
import Keeper.Source.StoredEvents

/-!
# The window of a CalDAV collection

`providers/caldav/source/window.ts`: of the events of a collection, Keeper's own are left out, and so
is what lies outside the window and has no rule. An override is judged by its own time, so one that was
moved out of the window leaves nothing behind that hides the slot it was moved from.

* `perm_materialized_filter_iff`: leaving events out of a materialization changes nothing but slots that
  are uncovered.
* `mirrorsWindow_iff`: when the window of a collection mirrors what the collection holds.
-/

namespace Keeper

open JsArray

/-! ## Parsed events -/

structure ParsedCalendarEvent where
  uid : String
  deleteId : String
  startTime : ℤ
  endTime : ℤ
  isKeeperEvent : Bool
  availability : Option EventAvailability := none
  isAllDay : Option Bool := none
  startTimeZone : Option String := none
  title : Option String := none
  description : Option String := none
  location : Option String := none
  recurrenceDuration : Option IcsDuration := none
  recurrenceRule : Option IcsRecurrenceRule := none
  exceptionDates : Option (List IcsDateObject) := none
  recurrenceId : Option ℤ := none

namespace ParsedCalendarEvent

def isCalDAVEventInSyncWindow (syncWindow : SyncWindow) (event : ParsedCalendarEvent) : Bool :=
  event.recurrenceRule.isSome || syncWindow.overlaps ⟨event.startTime, event.endTime⟩

def toSourceEvent (parsed : ParsedCalendarEvent) : SourceEvent where
  availability := parsed.availability
  description := parsed.description
  endTime := parsed.endTime
  exceptionDates := parsed.exceptionDates
  isAllDay := parsed.isAllDay
  location := parsed.location
  recurrenceDuration := parsed.recurrenceDuration
  recurrenceId := parsed.recurrenceId
  recurrenceRule := parsed.recurrenceRule
  startTime := parsed.startTime
  startTimeZone := parsed.startTimeZone
  title := parsed.title
  uid := parsed.uid

end ParsedCalendarEvent

structure CalDAVSourceEventPartition where
  events : List SourceEvent
  outsideSyncWindowCount : ℕ
  selfAuthoredEventCount : ℕ

def foreignEvents (parsedEvents : List ParsedCalendarEvent) : List ParsedCalendarEvent :=
  parsedEvents.filter fun parsed => !isKeeperEvent parsed.uid

def partitionCalDAVSourceEvents (parsedEvents : List ParsedCalendarEvent)
    (syncWindow : SyncWindow) : CalDAVSourceEventPartition :=
  let foreign := foreignEvents parsedEvents
  let inWindowEvents := foreign.filter (·.isCalDAVEventInSyncWindow syncWindow)
  { events := inWindowEvents.map (·.toSourceEvent)
    outsideSyncWindowCount := foreign.length - inWindowEvents.length
    selfAuthoredEventCount := parsedEvents.length - foreign.length }

/-! ## Events of a collection -/

/-- The calendar that the events of a collection are ingested into, and the ids of their rows. -/
structure IngestedCalendar where
  calendarId : String
  calendarName : String
  calendarUrl : Option String
  rowId : SourceEvent → String

/-- A source event as the destination reads it from its row, where no policy of the calendar hides
anything of it. -/
def SourceEvent.toSyncableEvent (calendar : IngestedCalendar) (event : SourceEvent) :
    SyncableEvent where
  calendarId := calendar.calendarId
  calendarName := some calendar.calendarName
  calendarUrl := calendar.calendarUrl
  availability := event.availability
  description := event.description
  endTime := event.endTime
  eventStateId := some (calendar.rowId event)
  id := calendar.rowId event
  isAllDay := event.isAllDay
  location := event.location
  exceptionDates := event.exceptionDates.map fun dates => dates.map (·.date)
  recurrenceId := event.recurrenceId
  recurrenceDuration := event.recurrenceRule.bind fun _ => event.recurrenceDuration
  recurrenceRule := event.recurrenceRule
  sourceEventUid := event.uid
  startTime := event.startTime
  startTimeZone := event.startTimeZone
  summary := event.title.getD "Busy"

def IngestedCalendar.read (calendar : IngestedCalendar) (events : List SourceEvent) :
    List SyncableEvent := events.map (·.toSyncableEvent calendar)

/-! ## Leaving events out -/

section Filter

variable {rt : Runtime} {occurs : RRuleOptions → ℤ → Prop} {events : List SyncableEvent}
  {window : SyncWindow} {keep : SyncableEvent → Bool}

theorem IsMaterializable.filter (h : IsMaterializable rt occurs events window)
    (keep : SyncableEvent → Bool) : IsMaterializable rt occurs (events.filter keep) window where
  enumerates := h.enumerates
  masters := h.masters.sublist ((List.filter_sublist.filter _).map _)
  withinBudget event hevent := h.withinBudget event (List.mem_filter.1 hevent).1
  zones event hevent := h.zones event (List.mem_filter.1 hevent).1
  window := h.window

theorem filter_isMaster_filter (hmasters : ∀ event ∈ events, event.isMaster = true → keep event = true) :
    (events.filter keep).filter (·.isMaster) = events.filter (·.isMaster) := by
  rw [List.filter_filter]
  refine List.filter_congr fun event hevent => ?_
  cases hmaster : event.isMaster with
  | false => rfl
  | true => rw [hmasters event hevent hmaster, Bool.and_true]

theorem oneOffsOf_filter (hdropped : ∀ event ∈ events, keep event = false →
      window.overlaps ⟨event.startTime, event.endTime⟩ = false) :
    oneOffsOf (events.filter keep) window = oneOffsOf events window := by
  unfold oneOffsOf
  rw [List.filter_filter]
  refine congrArg _ (List.filter_congr fun event hevent => ?_)
  cases hkeep : keep event with
  | true => rw [Bool.and_true]
  | false => rw [hdropped event hevent hkeep, Bool.and_false, Bool.and_false]

theorem IsOverridden.of_filter {master : SyncableEvent} {slot : ℤ}
    (h : IsOverridden (events.filter keep) [] master slot) :
    IsOverridden events [] master slot := by
  obtain ⟨override, hmem, hkey, hid⟩ := h
  rw [List.append_nil] at hmem
  obtain ⟨event, hevent, rfl⟩ := List.mem_map.1 hmem
  refine ⟨_, ?_, hkey, hid⟩
  rw [List.append_nil]
  exact List.mem_map_of_mem (List.mem_filter.1 hevent).1

/-- A slot of a master that shows among the events that are kept, and that an override among all of
them hides. -/
def IsUncovered (rt : Runtime) (occurs : RRuleOptions → ℤ → Prop) (events : List SyncableEvent)
    (keep : SyncableEvent → Bool) (window : SyncWindow) (master : SyncableEvent) (slot : ℤ) : Prop :=
  IsReached rt occurs window master slot ∧
    IsLive rt occurs (events.filter keep) [] window master slot ∧
    IsOverridden events [] master slot

variable (keep) in
theorem isLive_iff {master : SyncableEvent} {slot : ℤ} :
    IsLive rt occurs events [] window master slot ↔
      IsLive rt occurs (events.filter keep) [] window master slot ∧
        ¬ IsOverridden events [] master slot := by
  constructor
  · rintro ⟨rule, hrule, hlands, hexcluded, hfree, hshown⟩
    exact ⟨⟨rule, hrule, hlands, hexcluded, fun hkept => hfree hkept.of_filter, hshown⟩, hfree⟩
  · rintro ⟨⟨rule, hrule, hlands, hexcluded, -, hshown⟩, hfree⟩
    exact ⟨rule, hrule, hlands, hexcluded, hfree, hshown⟩

variable (keep) in
/-- **Leaving events out** of a materialization, masters and what overlaps the window excepted, changes
nothing iff no slot is uncovered. -/
theorem perm_materialized_filter_iff (h : IsMaterializable rt occurs events window)
    (hmasters : ∀ event ∈ events, event.isMaster = true → keep event = true)
    (hdropped : ∀ event ∈ events, keep event = false →
      window.overlaps ⟨event.startTime, event.endTime⟩ = false) :
    ∃ kept all, materializeRecurrenceEvents rt (events.filter keep) window false [] = .ok kept ∧
      materializeRecurrenceEvents rt events window false [] = .ok all ∧
      (kept.events.Perm all.events ↔ ∀ master ∈ events, master.isMaster = true →
        ∀ slot, ¬ IsUncovered rt occurs events keep window master slot) := by
  obtain ⟨keptOf, hkept, hkeptOf⟩ := (h.filter keep).materializeRecurrenceEvents_ok false []
  obtain ⟨allOf, hall, hallOf⟩ := h.materializeRecurrenceEvents_ok false []
  have hoccurrences : occurrencesAt rt (events.filter keep) keptOf = occurrencesAt rt events keptOf := by
    unfold occurrencesAt
    rw [filter_isMaster_filter hmasters]
  rw [filter_isMaster_filter hmasters] at hkeptOf
  rw [hoccurrences, oneOffsOf_filter hdropped] at hkept
  have hsub : ∀ master ∈ events.filter (·.isMaster), (allOf master).Subperm (keptOf master) := by
    intro master hmem
    refine (hallOf master hmem).1.subperm fun slot hslot => ?_
    obtain ⟨hreached, hlive⟩ := ((hallOf master hmem).2 slot).1 hslot
    exact ((hkeptOf master hmem).2 slot).2 ⟨hreached, ((isLive_iff keep).1 hlive).1⟩
  have hsome : ∀ master ∈ events.filter (·.isMaster), ∀ slot ∈ keptOf master,
      (occurrenceAt rt master (seriesZones rt master) slot).isSome :=
    fun master hmem slot hslot => (((hkeptOf master hmem).2 slot).1 hslot).2.isSome_occurrenceAt
  refine ⟨_, _, hkept, hall, ?_⟩
  have hperm : ∀ slotsOf : SyncableEvent → List ℤ, (toSorted compareEvents
      (occurrencesAt rt events slotsOf ++ oneOffsOf events window)).Perm
        (occurrencesAt rt events slotsOf ++ oneOffsOf events window) := fun _ => toSorted_perm _ _
  constructor
  · intro hsame master hmem hmaster slot huncovered
    have hlength := ((hperm keptOf).symm.trans (hsame.trans (hperm allOf))).length_eq
    rw [List.length_append, List.length_append, Nat.add_right_cancel_iff] at hlength
    have hin : master ∈ events.filter (·.isMaster) := List.mem_filter.2 ⟨hmem, hmaster⟩
    have hslot : slot ∈ allOf master :=
      (perm_of_length_occurrencesAt hsub hsome hlength.le hin).mem_iff.2
        (((hkeptOf master hin).2 slot).2 ⟨huncovered.1, huncovered.2.1⟩)
    have hlive : IsLive rt occurs events [] window master slot := (((hallOf master hin).2 slot).1 hslot).2
    exact ((isLive_iff keep).1 hlive).2 huncovered.2.2
  · intro hcovered
    refine (hperm keptOf).trans (List.Perm.trans ?_ (hperm allOf).symm)
    refine List.Perm.append_right _ (List.Perm.flatMap_left _ fun master hin => ?_)
    refine List.Perm.filterMap _ (List.Perm.symm ((hsub master hin).perm_of_length_le ?_))
    refine ((hkeptOf master hin).1.subperm fun slot hslot => ?_).length_le
    obtain ⟨hmem, hmaster⟩ := List.mem_filter.1 hin
    obtain ⟨hreached, hlive⟩ := ((hkeptOf master hin).2 slot).1 hslot
    exact ((hallOf master hin).2 slot).2 ⟨hreached, (isLive_iff keep).2 ⟨hlive,
      fun hoverridden => hcovered master hmem hmaster slot ⟨hreached, hlive, hoverridden⟩⟩⟩

end Filter

/-! ## The window of a collection -/

section Window

variable (rt : Runtime) (occurs : RRuleOptions → ℤ → Prop) (calendar : IngestedCalendar)
  (window : SyncWindow) (parsedEvents : List ParsedCalendarEvent)

def collectionEvents : List SyncableEvent :=
  calendar.read ((foreignEvents parsedEvents).map (·.toSourceEvent))

def windowEvents : List SyncableEvent :=
  calendar.read (partitionCalDAVSourceEvents parsedEvents window).events

/-- **The window mirrors the collection**: both materialize, to the same occurrences. -/
def MirrorsWindow : Prop :=
  ∃ kept all,
    materializeRecurrenceEvents rt (windowEvents calendar window parsedEvents) window false [] =
      .ok kept ∧
    materializeRecurrenceEvents rt (collectionEvents calendar parsedEvents) window false [] = .ok all ∧
    kept.events.Perm all.events

/-- A slot of a master is the recurrence id of an override that stays in the window. -/
def IsNamedInWindow (master : ParsedCalendarEvent) (slot : ℤ) : Prop :=
  ∃ other ∈ foreignEvents parsedEvents, other.isCalDAVEventInSyncWindow window = true ∧
    other.uid = master.uid ∧ other.recurrenceId = some slot

/-- An override that is dropped vacates a slot at which its master still has an occurrence. -/
def VacatesShownSlot (override master : ParsedCalendarEvent) : Prop :=
  override.isCalDAVEventInSyncWindow window = false ∧ override.uid = master.uid ∧
    master.recurrenceRule.isSome ∧ master.recurrenceId = none ∧
    ∃ slot, override.recurrenceId = some slot ∧
      IsReached rt occurs window (master.toSourceEvent.toSyncableEvent calendar) slot ∧
      IsLiveBeside rt occurs window (IsNamedInWindow window parsedEvents master)
        (master.toSourceEvent.toSyncableEvent calendar) slot

variable {rt occurs calendar window parsedEvents}

def isKeptInWindow (window : SyncWindow) (event : SyncableEvent) : Bool :=
  event.recurrenceRule.isSome || window.overlaps ⟨event.startTime, event.endTime⟩

theorem windowEvents_eq : windowEvents calendar window parsedEvents =
    (collectionEvents calendar parsedEvents).filter (isKeptInWindow window) := by
  unfold windowEvents collectionEvents IngestedCalendar.read partitionCalDAVSourceEvents
  rw [List.map_map, List.map_map, List.filter_map]
  rfl

theorem mem_collectionEvents {event : SyncableEvent} :
    event ∈ collectionEvents calendar parsedEvents ↔ ∃ parsed ∈ foreignEvents parsedEvents,
      parsed.toSourceEvent.toSyncableEvent calendar = event := by
  unfold collectionEvents IngestedCalendar.read
  rw [List.map_map, List.mem_map]
  rfl

/-- The overrides of the window name the slots of a master that they hide. -/
theorem isOverridden_windowEvents {master : ParsedCalendarEvent} {slot : ℤ} :
    IsOverridden (windowEvents calendar window parsedEvents) []
        (master.toSourceEvent.toSyncableEvent calendar) slot ↔
      IsNamedInWindow window parsedEvents master slot := by
  unfold IsOverridden
  rw [List.append_nil, windowEvents_eq]
  constructor
  · rintro ⟨override, hoverride, hkey, hslot⟩
    obtain ⟨event, hevent, rfl⟩ := List.mem_map.1 hoverride
    obtain ⟨hmem, hkept⟩ := List.mem_filter.1 hevent
    obtain ⟨parsed, hparsed, rfl⟩ := mem_collectionEvents.1 hmem
    exact ⟨parsed, hparsed, hkept, congrArg Prod.snd hkey, hslot⟩
  · rintro ⟨parsed, hparsed, hkept, huid, hslot⟩
    refine ⟨_, List.mem_map_of_mem (List.mem_filter.2
      ⟨mem_collectionEvents.2 ⟨parsed, hparsed, rfl⟩, hkept⟩), ?_, hslot⟩
    show (calendar.calendarId, parsed.uid) = (calendar.calendarId, master.uid)
    rw [huid]

theorem isLive_windowEvents {master : ParsedCalendarEvent} {slot : ℤ} :
    IsLive rt occurs (windowEvents calendar window parsedEvents) [] window
        (master.toSourceEvent.toSyncableEvent calendar) slot ↔
      IsLiveBeside rt occurs window (IsNamedInWindow window parsedEvents master)
        (master.toSourceEvent.toSyncableEvent calendar) slot := by
  unfold IsLive IsLiveBeside IsShown
  rw [isOverridden_windowEvents]

/-- **The window of a collection mirrors it** iff no override that is dropped vacates a slot at which
its master still has an occurrence. -/
theorem mirrorsWindow_iff
    (h : IsMaterializable rt occurs (collectionEvents calendar parsedEvents) window) :
    MirrorsWindow rt calendar window parsedEvents ↔
      ∀ override ∈ foreignEvents parsedEvents, ∀ master ∈ foreignEvents parsedEvents,
        ¬ VacatesShownSlot rt occurs calendar window parsedEvents override master := by
  obtain ⟨kept, all, hkept, hall, hperm⟩ := perm_materialized_filter_iff
    (isKeptInWindow window) h
    (fun event _ hmaster => by
      rw [SyncableEvent.isMaster, Bool.and_eq_true] at hmaster
      rw [isKeptInWindow, hmaster.1, Bool.true_or])
    (fun event _ hdropped => (Bool.or_eq_false_iff.1 hdropped).2)
  rw [← windowEvents_eq] at hkept
  have hmirrors : MirrorsWindow rt calendar window parsedEvents ↔ kept.events.Perm all.events := by
    constructor
    · rintro ⟨kept', all', hkept', hall', hsame⟩
      rw [hkept] at hkept'
      rw [hall] at hall'
      rwa [Except.ok.inj hkept', Except.ok.inj hall']
    · exact fun hsame => ⟨kept, all, hkept, hall, hsame⟩
  rw [hmirrors, hperm]
  constructor
  · rintro hcovered override hoverride master hmaster
      ⟨-, huid, hrule, hid, slot, hslot, hreached, hlive⟩
    refine hcovered (master.toSourceEvent.toSyncableEvent calendar) ?_ ?_ slot ⟨hreached, ?_, ?_⟩
    · exact mem_collectionEvents.2 ⟨master, hmaster, rfl⟩
    · show (master.recurrenceRule.isSome && master.recurrenceId.isNone) = true
      rw [hrule, hid]
      rfl
    · rw [← windowEvents_eq]
      exact isLive_windowEvents.2 hlive
    · refine ⟨(override.toSourceEvent.toSyncableEvent calendar).override, ?_, ?_, hslot⟩
      · rw [List.append_nil]
        exact List.mem_map_of_mem (mem_collectionEvents.2 ⟨override, hoverride, rfl⟩)
      · show (calendar.calendarId, override.uid) = (calendar.calendarId, master.uid)
        rw [huid]
  · rintro hvacates event hevent hmaster slot ⟨hreached, hlive, override, hoverride, hkey, hslot⟩
    obtain ⟨master, hmem, rfl⟩ := mem_collectionEvents.1 hevent
    rw [List.append_nil] at hoverride
    obtain ⟨row, hrow, rfl⟩ := List.mem_map.1 hoverride
    obtain ⟨parsed, hparsed, rfl⟩ := mem_collectionEvents.1 hrow
    rw [← windowEvents_eq, isLive_windowEvents] at hlive
    have hrule : master.recurrenceRule.isSome = true ∧ master.recurrenceId.isNone = true :=
      Bool.and_eq_true_iff.1 hmaster
    refine hvacates parsed hparsed master hmem ⟨?_, congrArg Prod.snd hkey, hrule.1,
      Option.isNone_iff_eq_none.1 hrule.2, slot, hslot, hreached, hlive⟩
    -- an override that is kept hides its slot in the window already
    by_contra hkeep
    obtain ⟨-, -, -, -, hfree, -⟩ := hlive
    exact hfree ⟨parsed, hparsed, Bool.eq_true_of_not_eq_false hkeep, congrArg Prod.snd hkey, hslot⟩

end Window

namespace Example

def ingested : IngestedCalendar := ⟨"s", "", none, (·.uid)⟩

/-- A daily series that ends after its first occurrence. -/
def nightSeries : ParsedCalendarEvent where
  uid := "u"
  deleteId := "u"
  startTime := 1762061400000
  endTime := 1762062300000
  isKeeperEvent := false
  startTimeZone := some "America/New_York"
  recurrenceRule := some { frequency := .daily, count := some 1 }

def movedNight : ParsedCalendarEvent where
  uid := "u"
  deleteId := "u"
  startTime := 1762147800000
  endTime := 1762148700000
  isKeeperEvent := false
  recurrenceId := some 1762061400000

theorem isMaterializable_movedNight :
    IsMaterializable newYork occursOnce (collectionEvents ingested [nightSeries, movedNight])
      longerNight where
  enumerates := newYork_enumerates
  masters := List.nodup_singleton _
  withinBudget event hevent := by
    obtain ⟨parsed, hparsed, rfl⟩ := mem_collectionEvents.1 hevent
    rcases List.mem_cons.1 (List.mem_filter.1 hparsed).1 with rfl | hparsed
    · rfl
    · obtain rfl := List.mem_singleton.1 hparsed
      rfl
  zones event hevent hmaster := by
    obtain ⟨parsed, hparsed, rfl⟩ := mem_collectionEvents.1 hevent
    rcases List.mem_cons.1 (List.mem_filter.1 hparsed).1 with rfl | hparsed
    · exact ⟨some "America/New_York", rfl, fun name _ => newYork_regular name⟩
    · obtain rfl := List.mem_singleton.1 hparsed
      cases hmaster
  window := by decide

end Example

theorem mirrorsWindow_iff_example :
    MirrorsWindow Example.newYork Example.ingested Example.longerNight
        [Example.nightSeries, Example.movedNight] ↔
      ∀ override ∈ foreignEvents [Example.nightSeries, Example.movedNight],
        ∀ master ∈ foreignEvents [Example.nightSeries, Example.movedNight],
          ¬ VacatesShownSlot Example.newYork Example.occursOnce Example.ingested
            Example.longerNight [Example.nightSeries, Example.movedNight] override master :=
  mirrorsWindow_iff Example.isMaterializable_movedNight

/-- **A slot reappears.** The collection holds a series of one occurrence and an override that moved it
to the next day. The override lies outside the window and is dropped, and the occurrence is back. -/
theorem not_mirrorsWindow :
    IsMaterializable Example.newYork Example.occursOnce
        (collectionEvents Example.ingested [Example.nightSeries, Example.movedNight])
        Example.longerNight ∧
      ¬ MirrorsWindow Example.newYork Example.ingested Example.longerNight
        [Example.nightSeries, Example.movedNight] := by
  refine ⟨Example.isMaterializable_movedNight, ?_⟩
  rintro ⟨kept, all, hkept, hall, hsame⟩
  have hone : (materializeRecurrenceEvents Example.newYork (windowEvents Example.ingested
      Example.longerNight [Example.nightSeries, Example.movedNight]) Example.longerNight false
        []).map (·.events.length) = .ok 1 := by rfl
  have hnone : (materializeRecurrenceEvents Example.newYork (collectionEvents Example.ingested
      [Example.nightSeries, Example.movedNight]) Example.longerNight false
        []).map (·.events.length) = .ok 0 := by rfl
  rw [hkept] at hone
  rw [hall] at hnone
  have hkeptLength : kept.events.length = 1 := Except.ok.inj hone
  have hallLength : all.events.length = 0 := Except.ok.inj hnone
  have hlength := hsame.length_eq
  omega

end Keeper
