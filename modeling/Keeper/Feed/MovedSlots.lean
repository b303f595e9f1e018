import Keeper.Feed.Groups
import Keeper.Feed.Rows

/-!
# Slots that were moved away

A moved occurrence of a series is a row of its own, which names its slot. The slot is hidden from the
master's VEVENT by the override's RECURRENCE-ID, or by an EXDATE where the settings leave the override
out; but a row that the feed's filter does not select hides nothing.

* `shows_iff`: which slots the VEVENT of a master shows.
* `hidesMoved_iff`: no slot that was moved away is shown exactly when each is named by a selected row.
-/

namespace Keeper.Feed

/-- The occurrences that a subscriber generates from a DTSTART and an RRULE. -/
abbrev Expansion := IcsDateObject → IcsRecurrenceRule → Set ℤ

/-- The instants that a time names in a series: those of its UTC day in an all-day one. -/
def NamesSlot (isAllDay : Bool) (named slot : ℤ) : Prop :=
  if isAllDay then named / msPerDay = slot / msPerDay else named = slot

def ExceptionNames (isAllDay : Bool) (value : IcsDateObject) (slot : ℤ) : Prop :=
  NamesSlot (isAllDay || value.type = some .date) value.date slot

/-- The VEVENT of a row in a feed generates an occurrence at a slot, its EXDATEs and the RECURRENCE-IDs
under its uid applied. -/
def Shows (expand : Expansion) (zones : Zones) (feed : IcsCalendar) (id : String) (slot : ℤ) : Prop :=
  ∃ v ∈ feed.events, v.uid = publishedUid id ∧ v.recurrenceId = none ∧
    (∃ rule, v.recurrenceRule = some rule ∧ slot ∈ expand v.start rule) ∧
    (∀ d ∈ v.exceptionDates.getD [], ¬ d.StandsFor zones slot) ∧
    ∀ w ∈ feed.events, w.uid = publishedUid id → ∀ d, w.recurrenceId = some d → ¬ d.StandsFor zones slot

/-- A slot that the rule of a stored master generates and its stored exceptions leave. -/
def IsOccurrence (expand : Expansion) (zones : Zones) (master : CalendarEvent) (slot : ℤ) : Prop :=
  (∃ start rule, buildZonedIcsDate zones (resolveRepresentableTimeRange master.shape).startTime
      master.startTimeZone master.resolvesAllDay = .ok start ∧ master.recurrenceRule = some rule ∧
      slot ∈ expand start (normalizeRecurrenceRuleToUtc rule)) ∧
    ∀ value ∈ master.exceptionDates.getD [], ¬ ExceptionNames master.resolvesAllDay value slot

section Shown

variable {host : FeedHost} {now : ℤ} {settings : FeedSettings} {events : List CalendarEvent}
  {feed : IcsCalendar} {expand : Expansion}

variable {slot : ℤ} {m : CalendarEvent}

theorem standsFor_buildExceptionDate {value d : IcsDateObject} {timezone : Option String} {allDay : Bool}
    (h : buildExceptionDate host value timezone allDay = .ok d) :
    d.StandsFor host.zones slot ↔ ExceptionNames allDay value slot := by
  unfold buildExceptionDate at h
  unfold ExceptionNames NamesSlot
  split_ifs at h with hdate
  · obtain rfl := Except.ok.inj h
    simp [IcsDateObject.StandsFor, hdate]
  · rw [(buildZonedIcsDate_ok _ h).standsFor_iff]
    simp [hdate]

/-- The rows that take a slot from a master's series: those of its source event that name it. -/
def TakesSlot (master o : CalendarEvent) (slot : ℤ) : Prop :=
  master.sourceKey.isSome ∧ o.sourceKey = master.sourceKey ∧
    ∃ named, o.recurrenceId = some named ∧ NamesSlot master.resolvesAllDay named slot

theorem takesSlot_iff {o : CalendarEvent} : o ∈ events ∧ TakesSlot m o slot ↔
    o ∈ overridesOf events m ∧
      ∃ named, o.recurrenceId = some named ∧ NamesSlot m.resolvesAllDay named slot := by
  unfold TakesSlot overridesOf
  split_ifs with hsome
  · rw [List.mem_filter]
    constructor
    · rintro ⟨ho, -, hkey, named, hnamed, hslot⟩
      exact ⟨⟨ho, by simp [hkey, hnamed]⟩, named, hnamed, hslot⟩
    · rintro ⟨⟨ho, hkey⟩, hslot⟩
      rw [Bool.and_eq_true, decide_eq_true_eq] at hkey
      exact ⟨ho, hsome, hkey.1, hslot⟩
  · exact ⟨fun h => absurd h.2.1 hsome, fun h => absurd h.1 List.not_mem_nil⟩

theorem includedGroups_master {g g' : EventGroup} (h : g' ∈ includedGroups host settings g)
    (hinclude : shouldIncludeEvent host settings g.master) :
    g' = { master := { g.master with exceptionDates := g'.master.exceptionDates }
           overrides := g.overrides.filter (shouldIncludeEvent host settings) } ∧
      g'.master.exceptionDates.getD [] = g.master.exceptionDates.getD [] ++
        excludedOverrideDates host settings g.overrides := by
  unfold includedGroups at h
  dsimp only at h
  rw [if_pos hinclude] at h
  split at h
  · rename_i hnone
    obtain rfl := List.mem_singleton.1 h
    rw [hnone, List.append_nil]
    exact ⟨rfl, rfl⟩
  · obtain rfl := List.mem_singleton.1 h
    exact ⟨rfl, rfl⟩

theorem exists_includedGroup (host : FeedHost) (settings : FeedSettings) {g : EventGroup}
    (hinclude : shouldIncludeEvent host settings g.master) :
    ∃ g', g' ∈ includedGroups host settings g := by
  unfold includedGroups
  dsimp only
  rw [if_pos hinclude]
  split <;> exact ⟨_, List.mem_singleton_self _⟩

/-- A group that is published under the id of a master comes from the master's group. -/
theorem group_of_id (h : WellGrouped events) (hm : m ∈ events) (hmaster : isRecurringMaster m) {g' : EventGroup}
    (hg' : g' ∈ (groupEventsBySourceUid events).flatMap (includedGroups host settings)) (hid : g'.master.id = m.id) :
    shouldIncludeEvent host settings m ∧ g' ∈ includedGroups host settings (groupOf events m) := by
  obtain ⟨g, hg, hg'⟩ := List.mem_flatMap.1 hg'
  obtain ⟨hgm, hgo⟩ := mem_of_mem_group hg
  by_cases hinclude : shouldIncludeEvent host settings g.master
  · have hgmaster : g.master = m := by
      refine List.inj_on_of_nodup_map h.ids hgm hm ?_
      rw [← hid, (includedGroups_master hg' hinclude).1]
    obtain rfl := (mem_groups_iff h hm hmaster).1 ⟨hg, hgmaster⟩
    exact ⟨hinclude, hg'⟩
  · -- an override on its own names a slot, which a master does not
    unfold includedGroups at hg'
    dsimp only at hg'
    rw [if_neg hinclude] at hg'
    obtain ⟨o, ho, rfl⟩ := List.mem_map.1 hg'
    obtain ⟨hmem, hslot⟩ := hgo o (List.mem_of_mem_filter ho)
    obtain rfl : o = m := List.inj_on_of_nodup_map h.ids hmem hm hid
    rw [isRecurringMaster, Bool.and_eq_true, Option.isNone_iff_eq_none] at hmaster
    rw [hmaster.2] at hslot
    cases hslot

theorem exists_exdate_iff {values ds : List IcsDateObject} {timezone : Option String} {allDay : Bool}
    (h : values.mapM (fun value => buildExceptionDate host value timezone allDay) = .ok ds) :
    (∃ d ∈ ds, d.StandsFor host.zones slot) ↔ ∃ value ∈ values, ExceptionNames allDay value slot := by
  constructor
  · rintro ⟨d, hd, hstands⟩
    obtain ⟨value, hvalue, hbuild⟩ := (mem_mapM_iff h).1 hd
    exact ⟨value, hvalue, (standsFor_buildExceptionDate hbuild).1 hstands⟩
  · rintro ⟨value, hvalue, hnames⟩
    obtain ⟨d, hbuild⟩ := (mapM_eq_ok_iff.1 h).1 value hvalue
    exact ⟨d, (mem_mapM_iff h).2 ⟨value, hvalue, hbuild⟩,
      (standsFor_buildExceptionDate hbuild).2 hnames⟩

/-- The overrides that are left out of a series name their slots as exceptions. -/
theorem exists_excludedOverrideDate_iff {overrides : List CalendarEvent} {allDay : Bool} :
    (∃ value ∈ excludedOverrideDates host settings overrides, ExceptionNames allDay value slot) ↔
      ∃ o ∈ overrides, shouldIncludeEvent host settings o = false ∧
        ∃ named, o.recurrenceId = some named ∧ NamesSlot allDay named slot := by
  unfold excludedOverrideDates
  constructor
  · rintro ⟨value, hvalue, hnames⟩
    obtain ⟨o, ho, hdate⟩ := List.mem_filterMap.1 hvalue
    split_ifs at hdate with hinclude
    obtain ⟨named, hnamed, rfl⟩ := Option.map_eq_some_iff.1 hdate
    refine ⟨o, ho, by simpa using hinclude, named, hnamed, ?_⟩
    simpa [ExceptionNames] using hnames
  · rintro ⟨o, ho, hinclude, named, hnamed, hslot⟩
    refine ⟨{ date := named }, List.mem_filterMap.2 ⟨o, ho, ?_⟩, by simpa [ExceptionNames] using hslot⟩
    simp [hinclude, hnamed]

theorem mem_events_of_uid (h : WellGrouped events) (hfeed : formatEventsAsIcal host now settings events = .ok feed)
    (hm : m ∈ events) (hmaster : isRecurringMaster m) {v : Vevent} (hv : v ∈ feed.events)
    (huid : v.uid = publishedUid m.id) : shouldIncludeEvent host settings m ∧
      ∃ g' ∈ includedGroups host settings (groupOf events m),
        (buildMasterIcsEvent host now settings g'.master (publishedUid m.id) m.resolvesAllDay = .ok v ∨
          ∃ o ∈ overridesOf events m, ∃ timezone,
            buildOverrideIcsEvent host now settings o (publishedUid m.id) timezone m.resolvesAllDay =
              .ok v) := by
  obtain ⟨g', hg', vs, hbuild, hv⟩ := (mem_events_iff hfeed).1 hv
  have hsource := (mem_eventsForGroup_iff hbuild).1 hv
  have hid : g'.master.id = m.id := by
    refine publishedUid_injective ?_
    rcases hsource with hsource | ⟨o, -, timezone, -, hsource⟩
    · exact (buildMasterIcsEvent_ok hsource).1.symm.trans huid
    · exact (buildOverrideIcsEvent_ok hsource).1.symm.trans huid
  obtain ⟨hinclude, hmem⟩ := group_of_id h hm hmaster hg' hid
  have hshape := (includedGroups_master hmem hinclude).1
  have hallDay : g'.master.resolvesAllDay = m.resolvesAllDay := by
    rw [hshape]
    rfl
  refine ⟨hinclude, g', hmem, ?_⟩
  rw [hid, hallDay] at hsource
  refine hsource.imp id ?_
  rintro ⟨o, ho, timezone, -, hsource⟩
  rw [hshape] at ho
  exact ⟨o, List.mem_of_mem_filter ho, timezone, hsource⟩

/-- **Which slots a master's VEVENT shows**: those of its rule that no stored exception and no row of the
feed names. -/
theorem shows_iff (h : WellGrouped events) (hfeed : formatEventsAsIcal host now settings events = .ok feed)
    (hm : m ∈ events) (hmaster : isRecurringMaster m) : Shows expand host.zones feed m.id slot ↔
      shouldIncludeEvent host settings m ∧ IsOccurrence expand host.zones m slot ∧
        ∀ o ∈ events, ¬ TakesSlot m o slot := by
  have hslots : ∀ o ∈ overridesOf events m, ∃ named, o.recurrenceId = some named := by
    intro o ho
    unfold overridesOf at ho
    split_ifs at ho
    · obtain ⟨-, hsome⟩ := (Bool.and_eq_true _ _).mp (List.mem_filter.1 ho).2
      exact Option.isSome_iff_exists.1 hsome
    · cases ho
  constructor
  · rintro ⟨v, hv, huid, hplain, ⟨rule, hrule, hgenerated⟩, hexdates, hoverrides⟩
    obtain ⟨hinclude, g', hg', hsource⟩ := mem_events_of_uid h hfeed hm hmaster hv huid
    obtain ⟨hshape, hexceptions⟩ := includedGroups_master hg' hinclude
    have hv' : buildMasterIcsEvent host now settings g'.master (publishedUid m.id) m.resolvesAllDay =
        .ok v := by
      refine hsource.resolve_right ?_
      rintro ⟨o, ho, timezone, hsource⟩
      obtain ⟨named, hnamed⟩ := hslots o ho
      obtain ⟨d, hd, -⟩ := (buildOverrideIcsEvent_ok hsource).2 named hnamed
      rw [hplain] at hd
      cases hd
    obtain ⟨-, -, hstart, hrules, timezone, hdates⟩ := buildMasterIcsEvent_ok hv'
    have hnone : ¬ ∃ value ∈ g'.master.exceptionDates.getD [],
        ExceptionNames m.resolvesAllDay value slot := by
      rw [← exists_exdate_iff hdates]
      rintro ⟨d, hd, hstands⟩
      exact hexdates d hd hstands
    rw [hexceptions] at hnone
    rw [hshape] at hstart hrules
    obtain ⟨stored, hstored, rfl⟩ := Option.map_eq_some_iff.1 (hrules.symm.trans hrule)
    refine ⟨hinclude, ⟨⟨v.start, stored, hstart, hstored, hgenerated⟩, fun value hvalue hnames => ?_⟩, ?_⟩
    · exact hnone ⟨value, List.mem_append_left _ hvalue, hnames⟩
    · intro o ho htakes
      obtain ⟨hmem, named, hnamed, hslot⟩ := takesSlot_iff.1 ⟨ho, htakes⟩
      by_cases hincluded : shouldIncludeEvent host settings o
      · -- an included override is written under the master's uid
        have hgroups : g' ∈ (groupEventsBySourceUid events).flatMap (includedGroups host settings) :=
          List.mem_flatMap.2 ⟨_, ((mem_groups_iff h hm hmaster).2 rfl).1, hg'⟩
        obtain ⟨vs, hbuild⟩ := exists_eventsForGroup hfeed hgroups
        have ho' : o ∈ g'.overrides := by
          rw [hshape]
          exact List.mem_filter.2 ⟨hmem, hincluded⟩
        obtain ⟨w, hw, timezone, hsource⟩ := exists_overrideEvent hbuild ho'
        have hid : g'.master.id = m.id := by rw [hshape]; rfl
        have hallDay : g'.master.resolvesAllDay = m.resolvesAllDay := by rw [hshape]; rfl
        rw [hid, hallDay] at hsource
        obtain ⟨hwuid, hslots'⟩ := buildOverrideIcsEvent_ok hsource
        obtain ⟨d, hd, hwritten⟩ := hslots' named hnamed
        exact hoverrides w ((mem_events_iff hfeed).2 ⟨g', hgroups, vs, hbuild, hw⟩) hwuid d hd
          ((buildZonedIcsDate_ok _ hwritten).standsFor_iff.2 hslot)
      · -- one that is left out is an exception of the master
        obtain ⟨value, hvalue, hnames⟩ := exists_excludedOverrideDate_iff.2
          ⟨o, hmem, by simpa using hincluded, named, hnamed, hslot⟩
        exact hnone ⟨value, List.mem_append_right _ hvalue, hnames⟩
  · rintro ⟨hinclude, ⟨⟨start, stored, hstart, hstored, hgenerated⟩, hexceptions⟩, hfree⟩
    obtain ⟨g', hg'⟩ := exists_includedGroup host settings (g := groupOf events m) hinclude
    obtain ⟨hshape, hdates⟩ := includedGroups_master hg' hinclude
    have hgroups : g' ∈ (groupEventsBySourceUid events).flatMap (includedGroups host settings) :=
      List.mem_flatMap.2 ⟨_, ((mem_groups_iff h hm hmaster).2 rfl).1, hg'⟩
    obtain ⟨vs, hbuild⟩ := exists_eventsForGroup hfeed hgroups
    obtain ⟨v, hv, hsource⟩ := exists_masterEvent hbuild
    obtain ⟨huid, hplain, hvstart, hrules, timezone, hexdates⟩ := buildMasterIcsEvent_ok hsource
    have hid : g'.master.id = m.id := by rw [hshape]; rfl
    have hallDay : g'.master.resolvesAllDay = m.resolvesAllDay := by rw [hshape]; rfl
    rw [hallDay] at hexdates
    rw [hid] at huid
    have hrule : g'.master.recurrenceRule = some stored := by rw [hshape]; exact hstored
    have hsame : v.start = start := by
      rw [hshape] at hvstart
      exact Except.ok.inj (hvstart.symm.trans hstart)
    refine ⟨v, (mem_events_iff hfeed).2 ⟨g', hgroups, vs, hbuild, hv⟩, huid, hplain,
      ⟨_, by rw [hrules, hrule]; rfl, by rw [hsame]; exact hgenerated⟩, ?_, ?_⟩
    · intro d hd hstands
      obtain ⟨value, hvalue, hnames⟩ := (exists_exdate_iff hexdates).1 ⟨d, hd, hstands⟩
      rw [hdates] at hvalue
      rcases List.mem_append.1 hvalue with hvalue | hvalue
      · exact hexceptions value hvalue hnames
      · obtain ⟨o, ho, -, hslot⟩ := exists_excludedOverrideDate_iff.1 ⟨value, hvalue, hnames⟩
        obtain ⟨hmem, htakes⟩ := takesSlot_iff.2 ⟨ho, hslot⟩
        exact hfree o hmem htakes
    · intro w hw hwuid d hd hstands
      obtain ⟨-, g'', -, hsource⟩ := mem_events_of_uid h hfeed hm hmaster hw hwuid
      rcases hsource with hsource | ⟨o, ho, timezone, hsource⟩
      · rw [(buildMasterIcsEvent_ok hsource).2.1] at hd
        cases hd
      · obtain ⟨named, hnamed⟩ := hslots o ho
        obtain ⟨d', hd', hwritten⟩ := (buildOverrideIcsEvent_ok hsource).2 named hnamed
        obtain rfl := Option.some.inj (hd.symm.trans hd')
        obtain ⟨hmem, htakes⟩ := takesSlot_iff.2
          ⟨ho, named, hnamed, (buildZonedIcsDate_ok _ hwritten).standsFor_iff.1 hstands⟩
        exact hfree o hmem htakes

theorem exists_event_of_uid (hfeed : formatEventsAsIcal host now settings events = .ok feed) {v : Vevent}
    (hv : v ∈ feed.events) {id : String} (huid : v.uid = publishedUid id) : ∃ e ∈ events, e.id = id := by
  obtain ⟨g', hg', vs, hbuild, hv⟩ := (mem_events_iff hfeed).1 hv
  have hid : g'.master.id = id := by
    refine publishedUid_injective ?_
    rcases (mem_eventsForGroup_iff hbuild).1 hv with hsource | ⟨o, -, timezone, -, hsource⟩
    · exact (buildMasterIcsEvent_ok hsource).1.symm.trans huid
    · exact (buildOverrideIcsEvent_ok hsource).1.symm.trans huid
  obtain ⟨g, hg, hg'⟩ := List.mem_flatMap.1 hg'
  obtain ⟨hmaster, hoverrides⟩ := mem_of_mem_group hg
  by_cases hinclude : shouldIncludeEvent host settings g.master
  · refine ⟨g.master, hmaster, ?_⟩
    rw [← hid, (includedGroups_master hg' hinclude).1]
  · unfold includedGroups at hg'
    dsimp only at hg'
    rw [if_neg hinclude] at hg'
    obtain ⟨o, ho, rfl⟩ := List.mem_map.1 hg'
    exact ⟨o, (hoverrides o (List.mem_of_mem_filter ho)).1, hid⟩

end Shown

/-! ## Stored rows -/

namespace StoredFeedEvent

/-- `isRecurringMaster`, of a stored row. -/
def isMaster (row : StoredFeedEvent) : Bool := row.recurrenceRule.isSome && row.recurrenceId.isNone

/-- `resolveIsAllDayEvent`, of a stored row. -/
def resolvesAllDay (row : StoredFeedEvent) : Bool :=
  resolveIsAllDayEvent row.isAllDay row.startTime row.endTime

/-- Two rows share their calendar and source uid. -/
def SameSeries (a b : StoredFeedEvent) : Prop :=
  a.sourceEventUid.isSome ∧ a.calendarId = b.calendarId ∧ a.sourceEventUid = b.sourceEventUid

instance (a b : StoredFeedEvent) : Decidable (SameSeries a b) := inferInstanceAs (Decidable (_ ∧ _))

/-- A row names a slot of a master's series. -/
def Names (o m : StoredFeedEvent) (slot : ℤ) : Prop :=
  o.SameSeries m ∧ ∃ named, o.recurrenceId = some named ∧ NamesSlot m.resolvesAllDay named slot

end StoredFeedEvent

/-- The stored rows of a feed's calendars: ids are distinct, and so are the recurring masters of a
calendar and source uid. -/
structure StoredRows (rows : List StoredFeedEvent) : Prop where
  ids : (rows.map (·.id)).Nodup
  masters : ∀ a ∈ rows, ∀ b ∈ rows, a.isMaster → b.isMaster → a.SameSeries b → a = b

section Stored

variable {host : FeedHost} {now : ℤ} {settings : FeedSettings} {ark : Arktype}
  {rows ordered : List StoredFeedEvent} {calendarIds : List String} {query : IcalFeedQuery}
  {events : List CalendarEvent} {feed : IcsCalendar} {expand : Expansion}

structure IsEventOfRow (row : StoredFeedEvent) (e : CalendarEvent) : Prop where
  id : e.id = row.id
  calendarId : e.calendarId = row.calendarId
  sourceEventUid : e.sourceEventUid = row.sourceEventUid
  recurrenceId : e.recurrenceId = row.recurrenceId
  isMaster : isRecurringMaster e = row.isMaster
  resolvesAllDay : e.resolvesAllDay = row.resolvesAllDay

theorem toCalendarEvent_ok {row : StoredFeedEvent} {e : CalendarEvent}
    (h : toCalendarEvent ark row = .ok e) : IsEventOfRow row e := by
  obtain ⟨recurrence, hrecurrence, h⟩ := bind_eq_ok_iff.1 h
  obtain ⟨exceptionDates, -, h⟩ := bind_eq_ok_iff.1 h
  obtain rfl := Except.ok.inj h
  refine ⟨rfl, rfl, rfl, rfl, ?_, rfl⟩
  have hrule : recurrence.isSome = row.recurrenceRule.isSome := by
    unfold parseStoredIcsRecurrence at hrecurrence
    split at hrecurrence
    · rename_i hnone
      obtain rfl := Except.ok.inj hrecurrence
      rw [hnone]
      rfl
    · rename_i value hsome
      obtain ⟨parsed, -, hrecurrence⟩ := bind_eq_ok_iff.1 hrecurrence
      obtain ⟨stored, -, hrecurrence⟩ := bind_eq_ok_iff.1 hrecurrence
      obtain rfl := Except.ok.inj hrecurrence
      rw [hsome]
      rfl
  simp [isRecurringMaster, StoredFeedEvent.isMaster, hrule]

/-- The source key of an event is its calendar and its uid, where that is not empty. -/
theorem IsEventOfRow.sourceKey_eq_iff {a b : StoredFeedEvent} {e f : CalendarEvent}
    (ha : IsEventOfRow a e) (hb : IsEventOfRow b f) :
    (f.sourceKey.isSome ∧ e.sourceKey = f.sourceKey) ↔ a.SameSeries b ∧ a.sourceEventUid ≠ some "" := by
  unfold CalendarEvent.sourceKey StoredFeedEvent.SameSeries
  rw [ha.calendarId, ha.sourceEventUid, hb.calendarId, hb.sourceEventUid]
  cases a.sourceEventUid with
  | none => cases b.sourceEventUid <;> simp [truthy, Option.filter]
  | some uid =>
    cases b.sourceEventUid with
    | none => simp
    | some uid' =>
      by_cases huid : uid = "" <;> by_cases huid' : uid' = "" <;>
        simp [truthy, Option.filter, huid, huid']

theorem StoredRows.wellGrouped (h : StoredRows rows)
    (hordered : ordered.Perm (rows.filter (buildFeedEventFilter calendarIds query)))
    (hevents : ordered.mapM (toCalendarEvent ark) = .ok events) : WellGrouped events where
  ids := by
    rw [map_mapM (fun _ _ hab => (toCalendarEvent_ok hab).id) hevents, (hordered.map _).nodup_iff]
    exact h.ids.sublist (List.filter_sublist.map _)
  masters a ha b hb hmaster hmaster' hsome hkey := by
    obtain ⟨r, hr, hra⟩ := (mem_mapM_iff hevents).1 ha
    obtain ⟨s, hs, hsb⟩ := (mem_mapM_iff hevents).1 hb
    have hra' := toCalendarEvent_ok hra
    have hsb' := toCalendarEvent_ok hsb
    have hseries := (hra'.sourceKey_eq_iff hsb').1 ⟨hkey ▸ hsome, hkey⟩
    obtain rfl := h.masters r (List.mem_of_mem_filter (hordered.mem_iff.1 hr)) s
      (List.mem_of_mem_filter (hordered.mem_iff.1 hs)) (hra'.isMaster ▸ hmaster)
      (hsb'.isMaster ▸ hmaster') hseries.1
    exact Except.ok.inj (hra.symm.trans hsb)

/-- **No slot that was moved away is shown** exactly when, of the slots that a published master's rule
generates and its stored exceptions leave, each that a stored row names is named by a row which the
feed's filter selects and whose uid is not empty. -/
theorem hidesMoved_iff (h : StoredRows rows)
    (hordered : ordered.Perm (rows.filter (buildFeedEventFilter calendarIds query)))
    (hevents : ordered.mapM (toCalendarEvent ark) = .ok events)
    (hfeed : formatEventsAsIcal host now settings events = .ok feed) :
    (∀ o ∈ rows, ∀ m ∈ rows, m.isMaster → ∀ slot, o.Names m slot →
      ¬ Shows expand host.zones feed m.id slot) ↔
    ∀ o ∈ rows, ∀ m ∈ rows, m.isMaster → ∀ slot, o.Names m slot →
      buildFeedEventFilter calendarIds query m → ∀ e, toCalendarEvent ark m = .ok e →
      shouldIncludeEvent host settings e → IsOccurrence expand host.zones e slot →
      ∃ o' ∈ rows, buildFeedEventFilter calendarIds query o' ∧ o'.sourceEventUid ≠ some "" ∧
        o'.Names m slot := by
  have hgrouped := h.wellGrouped hordered hevents
  have hmem : ∀ row, row ∈ ordered ↔ row ∈ rows ∧ buildFeedEventFilter calendarIds query row := by
    intro row
    rw [hordered.mem_iff, List.mem_filter]
  -- the events that take a slot are those of the selected rows that name it
  have htaken : ∀ m e slot, toCalendarEvent ark m = .ok e →
      ((∃ o ∈ events, TakesSlot e o slot) ↔ ∃ o' ∈ rows, buildFeedEventFilter calendarIds query o' ∧
        o'.sourceEventUid ≠ some "" ∧ o'.Names m slot) := by
    intro m e slot hm
    have hm' := toCalendarEvent_ok hm
    constructor
    · rintro ⟨o, ho, hsome, hkey, named, hnamed, hslot⟩
      obtain ⟨r, hr, hro⟩ := (mem_mapM_iff hevents).1 ho
      have hro' := toCalendarEvent_ok hro
      obtain ⟨hseries, huid⟩ := (hro'.sourceKey_eq_iff hm').1 ⟨hsome, hkey⟩
      exact ⟨r, ((hmem r).1 hr).1, ((hmem r).1 hr).2, huid, hseries, named, hro'.recurrenceId ▸ hnamed,
        hm'.resolvesAllDay ▸ hslot⟩
    · rintro ⟨r, hr, hfilter, huid, hseries, named, hnamed, hslot⟩
      obtain ⟨o, hro⟩ := (mapM_eq_ok_iff.1 hevents).1 r ((hmem r).2 ⟨hr, hfilter⟩)
      have hro' := toCalendarEvent_ok hro
      obtain ⟨hsome, hkey⟩ := (hro'.sourceKey_eq_iff hm').2 ⟨hseries, huid⟩
      exact ⟨o, (mem_mapM_iff hevents).2 ⟨r, (hmem r).2 ⟨hr, hfilter⟩, hro⟩, hsome, hkey, named,
        hro'.recurrenceId ▸ hnamed, hm'.resolvesAllDay ▸ hslot⟩
  have hshown : ∀ m ∈ rows, m.isMaster → buildFeedEventFilter calendarIds query m → ∀ e,
      toCalendarEvent ark m = .ok e → ∀ slot,
      (Shows expand host.zones feed m.id slot ↔ shouldIncludeEvent host settings e ∧
        IsOccurrence expand host.zones e slot ∧ ∀ o ∈ events, ¬ TakesSlot e o slot) := by
    intro m hm hmaster hfilter e he slot
    have he' := toCalendarEvent_ok he
    rw [← he'.id]
    exact shows_iff hgrouped hfeed ((mem_mapM_iff hevents).2 ⟨m, (hmem m).2 ⟨hm, hfilter⟩, he⟩)
      (he'.isMaster ▸ hmaster)
  constructor
  · intro hhides o ho m hm hmaster slot hnames hfilter e he hinclude hoccurrence
    rw [← htaken m e slot he]
    by_contra hfree
    refine hhides o ho m hm hmaster slot hnames ((hshown m hm hmaster hfilter e he slot).2
      ⟨hinclude, hoccurrence, fun o' ho' htakes => hfree ⟨o', ho', htakes⟩⟩)
  · intro hcondition o ho m hm hmaster slot hnames hshows
    -- a master whose VEVENT is in the feed is a selected row
    obtain ⟨v, hv, huid, -⟩ := id hshows
    obtain ⟨e, hmemEvents, hid⟩ := exists_event_of_uid hfeed hv huid
    obtain ⟨r, hr, hre⟩ := (mem_mapM_iff hevents).1 hmemEvents
    obtain rfl : r = m := List.inj_on_of_nodup_map h.ids ((hmem r).1 hr).1 hm
      ((toCalendarEvent_ok hre).id.symm.trans hid)
    have hfilter := ((hmem r).1 hr).2
    obtain ⟨hinclude, hoccurrence, hfree⟩ := (hshown r hm hmaster hfilter e hre slot).1 hshows
    obtain ⟨o', ho', htakes⟩ := (htaken r e slot hre).2
      (hcondition o ho r hm hmaster slot hnames hfilter e hre hinclude hoccurrence)
    exact hfree o' ho' htakes

end Stored

namespace Example

def utcHost : FeedHost where
  zones := ⟨id, (· = "UTC"), fun t _ => t⟩
  inherited _ := none
  toLowerCase := id

def ark : Arktype := ⟨fun _ => none, fun _ _ => ""⟩

def settings : FeedSettings where
  includeEventName := false
  includeEventDescription := false
  includeEventLocation := false
  excludeAllDayEvents := false
  excludeFocusTime := false
  excludeOutOfOffice := false
  customEventName := "Busy"

def dailyRule : IcsRecurrenceRule := { frequency := .daily }

def daily : Expansion := fun start _ => { t | ∃ k : ℕ, t = start.date + k * msPerDay }

def morningSeries : StoredFeedEvent where
  id := "m"
  calendarId := "c"
  startTime := 1767603600000
  endTime := 1767607200000
  recurrenceRule := serializeStoredIcsRecurrenceRule (some dailyRule) none
  sourceEventUid := some "u"
  calendarName := "Work"

def movedMorning : StoredFeedEvent where
  id := "o"
  calendarId := "c"
  startTime := 1799226000000
  endTime := 1799229600000
  recurrenceId := some 1767690000000
  sourceEventUid := some "u"
  calendarName := "Work"

/-- A window that ends before the occurrence was moved to. -/
def window : IcalFeedQuery := ⟨1767571200000, 1770163200000⟩

def morningEvent : CalendarEvent where
  id := "m"
  calendarId := "c"
  startTime := 1767603600000
  endTime := 1767607200000
  calendarName := "Work"
  recurrenceRule := some dailyRule
  sourceEventUid := some "u"

/-- The feed of the series alone. -/
def morningFeed : IcsCalendar where
  events :=
    [{ stamp := 0
       start := { date := 1767603600000 }
       «end» := some { date := 1767607200000 }
       summary := "Busy"
       uid := "m@keeper.sh"
       recurrenceRule := some dailyRule }]
  timezones := []

theorem storedRows : StoredRows [morningSeries, movedMorning] where
  ids := by decide
  masters a ha b hb hmaster hmaster' _ := by
    have hother : movedMorning.isMaster = false := rfl
    rcases List.mem_cons.1 ha with rfl | ha <;> rcases List.mem_cons.1 hb with rfl | hb
    · rfl
    · rw [List.mem_singleton.1 hb, hother] at hmaster'
      cases hmaster'
    · rw [List.mem_singleton.1 ha, hother] at hmaster
      cases hmaster
    · rw [List.mem_singleton.1 ha, hother] at hmaster
      cases hmaster

theorem selected : [morningSeries] =
    [morningSeries, movedMorning].filter (buildFeedEventFilter ["c"] window) := by rfl

theorem parsed : [morningSeries].mapM (toCalendarEvent ark) = .ok [morningEvent] := by
  have hrule := @parseStoredIcsRecurrence_serialize ark (some dailyRule)
    (fun r hr t ht => by obtain rfl := Option.some.inj hr; cases ht) none "m"
  have hevent : toCalendarEvent ark morningSeries = .ok morningEvent := by
    unfold toCalendarEvent
    rw [show parseStoredIcsRecurrence ark morningSeries.recurrenceRule morningSeries.id = _ from hrule]
    rfl
  rw [List.mapM_cons, hevent]
  rfl

theorem formatted : formatEventsAsIcal utcHost 0 settings [morningEvent] = .ok morningFeed := by rfl

end Example

theorem hidesMoved_iff_example :
    (∀ o ∈ [Example.morningSeries, Example.movedMorning],
      ∀ m ∈ [Example.morningSeries, Example.movedMorning], m.isMaster → ∀ slot, o.Names m slot →
        ¬ Shows Example.daily Example.utcHost.zones Example.morningFeed m.id slot) ↔
    ∀ o ∈ [Example.morningSeries, Example.movedMorning],
      ∀ m ∈ [Example.morningSeries, Example.movedMorning], m.isMaster → ∀ slot, o.Names m slot →
        buildFeedEventFilter ["c"] Example.window m → ∀ e, toCalendarEvent Example.ark m = .ok e →
        shouldIncludeEvent Example.utcHost Example.settings e →
        IsOccurrence Example.daily Example.utcHost.zones e slot →
        ∃ o' ∈ [Example.morningSeries, Example.movedMorning],
          buildFeedEventFilter ["c"] Example.window o' ∧ o'.sourceEventUid ≠ some "" ∧ o'.Names m slot :=
  hidesMoved_iff Example.storedRows (Example.selected ▸ List.Perm.refl _) Example.parsed
    Example.formatted

/-- **A slot reappears.** The second occurrence of a daily series was moved past the end of the feed's
window. Its row is not selected, and the series shows it where it was. -/
theorem not_hidesMoved : StoredRows [Example.morningSeries, Example.movedMorning] ∧
    [Example.morningSeries, Example.movedMorning].filter (buildFeedEventFilter ["c"] Example.window) =
      [Example.morningSeries] ∧
    [Example.morningSeries].mapM (toCalendarEvent Example.ark) = .ok [Example.morningEvent] ∧
    formatEventsAsIcal Example.utcHost 0 Example.settings [Example.morningEvent] =
      .ok Example.morningFeed ∧
    Example.movedMorning.Names Example.morningSeries 1767690000000 ∧
    Shows Example.daily Example.utcHost.zones Example.morningFeed Example.morningSeries.id
      1767690000000 := by
  refine ⟨Example.storedRows, Example.selected.symm, Example.parsed, Example.formatted,
    ⟨⟨rfl, rfl, rfl⟩, 1767690000000, rfl, rfl⟩, ?_⟩
  refine ⟨_, List.mem_singleton_self _, rfl, rfl, ⟨Example.dailyRule, rfl, 1, rfl⟩,
    fun d hd => absurd hd List.not_mem_nil, fun w hw _ d hd => ?_⟩
  obtain rfl := List.mem_singleton.1 hw
  cases hd

end Keeper.Feed
