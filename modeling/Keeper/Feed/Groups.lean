import Keeper.Feed.Format

/-!
# The groups of a feed

How the rows of a source event are grouped, and which VEVENTs are written for a group.

* `mem_groups_iff`: the group of a recurring master holds the other rows of its source event that name
  a slot.
* `mem_events_iff`: the VEVENTs of a feed are those of its groups.
* `mem_eventsForGroup_iff`: the VEVENTs of a group are its master's and its overrides'.
-/

namespace Keeper.Feed

/-! ## Grouping -/

/-- The rows of a feed: their ids are distinct, and a source event has at most one recurring master. -/
structure WellGrouped (events : List CalendarEvent) : Prop where
  ids : (events.map (·.id)).Nodup
  masters : ∀ a ∈ events, ∀ b ∈ events, isRecurringMaster a → isRecurringMaster b →
    a.sourceKey.isSome → a.sourceKey = b.sourceKey → a = b

/-- The rows that name a slot of a master's series. -/
def overridesOf (events : List CalendarEvent) (master : CalendarEvent) : List CalendarEvent :=
  if master.sourceKey.isSome then
    events.filter fun event => event.sourceKey = master.sourceKey && event.recurrenceId.isSome
  else []

def groupOf (events : List CalendarEvent) (master : CalendarEvent) : EventGroup where
  master := master
  overrides := overridesOf events master

section Groups

variable {events : List CalendarEvent}

variable {rows : List CalendarEvent} {g : EventGroup}

theorem mem_values_group : rows ∈ (JsMap.group (JsMap.keyed CalendarEvent.sourceKey events)).values ↔
      ∃ e ∈ events, e.sourceKey.isSome ∧ rows = events.filter fun f => f.sourceKey = e.sourceKey := by
  rw [JsMap.mem_values_iff]
  constructor
  · rintro ⟨k, hk⟩
    obtain ⟨hmem, rfl⟩ := JsMap.get?_group.1 hk
    obtain ⟨⟨k', e⟩, he, rfl⟩ := List.mem_map.1 hmem
    obtain ⟨hmem, hkey⟩ := JsMap.mem_keyed.1 he
    exact ⟨e, hmem, by rw [hkey]; rfl, by rw [JsMap.valuesAt_keyed, hkey]⟩
  · rintro ⟨e, hmem, hsome, rfl⟩
    obtain ⟨k, hkey⟩ := Option.isSome_iff_exists.1 hsome
    refine ⟨k, JsMap.get?_group.2 ⟨?_, by rw [JsMap.valuesAt_keyed, hkey]⟩⟩
    exact List.mem_map.2 ⟨(k, e), JsMap.mem_keyed.2 ⟨hmem, hkey⟩, rfl⟩

theorem mem_seriesOf_iff : g ∈ seriesOf rows ↔ rows.filter isRecurringMaster = [g.master] ∧
      g.overrides = rows.filter fun event => event ≠ g.master && event.recurrenceId.isSome := by
  unfold seriesOf
  split
  · rename_i master hmasters
    rw [List.mem_singleton, hmasters]
    constructor
    · rintro rfl
      exact ⟨rfl, rfl⟩
    · rintro ⟨hmaster, hoverrides⟩
      obtain ⟨gmaster, goverrides⟩ := g
      obtain rfl := List.singleton_inj.1 hmaster
      exact congrArg _ hoverrides
  · rename_i hmasters
    refine ⟨fun h => absurd h List.not_mem_nil, fun h => absurd h.1 (hmasters _)⟩

/-- The other rows are on their own, and the only master is not among them. -/
theorem mem_standaloneOf (h : g ∈ standaloneOf rows) :
    ∃ e ∈ rows, g = standalone e ∧ rows.filter isRecurringMaster ≠ [e] := by
  unfold standaloneOf at h
  split at h
  · rename_i master hmasters
    obtain ⟨e, he, rfl⟩ := List.mem_map.1 h
    obtain ⟨hmem, hother⟩ := List.mem_filter.1 he
    refine ⟨e, hmem, rfl, fun heq => ?_⟩
    rw [hmasters] at heq
    rw [List.singleton_inj.1 heq] at hother
    simp at hother
  · rename_i hmasters
    obtain ⟨e, hmem, rfl⟩ := List.mem_map.1 h
    exact ⟨e, hmem, rfl, hmasters e⟩

/-- Where a group comes from: it is the series of a source event, or an event on its own. -/
theorem mem_group_cases (h : g ∈ groupEventsBySourceUid events) : (∃ e ∈ events, e.sourceKey.isSome ∧
      g ∈ seriesOf (events.filter fun f => f.sourceKey = e.sourceKey)) ∨
    (∃ e ∈ events, e.sourceKey = none ∧ g = standalone e) ∨
    ∃ e ∈ events, e.sourceKey.isSome ∧ g = standalone e ∧
      (events.filter fun f => f.sourceKey = e.sourceKey).filter isRecurringMaster ≠ [e] := by
  rcases List.mem_append.1 h with h | h
  · obtain ⟨rows, hrows, hg⟩ := List.mem_flatMap.1 h
    obtain ⟨e, he, hsome, rfl⟩ := mem_values_group.1 hrows
    exact Or.inl ⟨e, he, hsome, hg⟩
  · rcases List.mem_append.1 h with h | h
    · obtain ⟨e, he, rfl⟩ := List.mem_map.1 h
      obtain ⟨hmem, hnone⟩ := List.mem_filter.1 he
      exact Or.inr (Or.inl ⟨e, hmem, Option.isNone_iff_eq_none.1 hnone, rfl⟩)
    · obtain ⟨rows, hrows, hg⟩ := List.mem_flatMap.1 h
      obtain ⟨e, he, hsome, rfl⟩ := mem_values_group.1 hrows
      obtain ⟨f, hf, rfl, hother⟩ := mem_standaloneOf hg
      obtain ⟨hmem, hkey⟩ := List.mem_filter.1 hf
      replace hkey : f.sourceKey = e.sourceKey := of_decide_eq_true hkey
      exact Or.inr (Or.inr ⟨f, hmem, hkey ▸ hsome, rfl, hkey ▸ hother⟩)

theorem mem_of_mem_group (h : g ∈ groupEventsBySourceUid events) :
    g.master ∈ events ∧ ∀ o ∈ g.overrides, o ∈ events ∧ o.recurrenceId.isSome := by
  rcases mem_group_cases h with ⟨e, -, -, hg⟩ | ⟨e, he, -, rfl⟩ | ⟨e, he, -, rfl, -⟩
  · obtain ⟨hmaster, hoverrides⟩ := mem_seriesOf_iff.1 hg
    have hmem : g.master ∈ (events.filter fun f => f.sourceKey = e.sourceKey).filter isRecurringMaster := by
      rw [hmaster]
      exact List.mem_singleton_self _
    refine ⟨List.mem_of_mem_filter (List.mem_of_mem_filter hmem), fun o ho => ?_⟩
    rw [hoverrides, List.mem_filter, Bool.and_eq_true] at ho
    exact ⟨List.mem_of_mem_filter ho.1, ho.2.2⟩
  · exact ⟨he, fun o ho => absurd ho List.not_mem_nil⟩
  · exact ⟨he, fun o ho => absurd ho List.not_mem_nil⟩

theorem masters_of_rows (h : WellGrouped events) {m : CalendarEvent} (hm : m ∈ events)
    (hmaster : isRecurringMaster m) (hkey : m.sourceKey.isSome) :
    (events.filter fun f => f.sourceKey = m.sourceKey).filter isRecurringMaster = [m] := by
  rw [List.filter_filter, ← JsArray.filter_eq_singleton h.ids hm]
  refine List.filter_congr fun f hf => ?_
  rw [Bool.eq_iff_iff, Bool.and_eq_true, decide_eq_true_eq, decide_eq_true_eq]
  constructor
  · rintro ⟨hf', hsame⟩
    rw [h.masters m hm f hf hmaster hf' hkey hsame.symm]
  · intro hid
    obtain rfl := List.inj_on_of_nodup_map h.ids hf hm hid
    exact ⟨hmaster, rfl⟩

/-- **The group of a recurring master** holds the other rows of its source event that name a slot. -/
theorem mem_groups_iff (h : WellGrouped events) {m : CalendarEvent} (hm : m ∈ events) (hmaster : isRecurringMaster m) :
    g ∈ groupEventsBySourceUid events ∧ g.master = m ↔ g = groupOf events m := by
  have hslotless : m.recurrenceId.isSome = false := by
    rw [isRecurringMaster, Bool.and_eq_true] at hmaster
    simpa using hmaster.2
  have hoverrides : ∀ e ∈ events, e.sourceKey = m.sourceKey → m.sourceKey.isSome →
      (events.filter fun f => f.sourceKey = e.sourceKey).filter
        (fun event => event ≠ m && event.recurrenceId.isSome) = overridesOf events m := by
    intro e _ hkey hsome
    rw [overridesOf, if_pos hsome, List.filter_filter]
    refine List.filter_congr fun f _ => ?_
    rw [hkey]
    by_cases hf : f = m
    · simp [hf, hslotless]
    · simp [hf, Bool.and_comm]
  constructor
  · rintro ⟨hg, rfl⟩
    rcases mem_group_cases hg with ⟨e, he, hsome, hg⟩ | ⟨e, he, hnone, rfl⟩ | ⟨e, he, hsome, rfl, hother⟩
    · obtain ⟨honly, hrest⟩ := mem_seriesOf_iff.1 hg
      have hmem : g.master ∈
          (events.filter fun f => f.sourceKey = e.sourceKey).filter isRecurringMaster := by
        rw [honly]
        exact List.mem_singleton_self _
      have hkey := of_decide_eq_true (List.mem_filter.1 (List.mem_of_mem_filter hmem)).2
      rw [hoverrides e he hkey.symm (hkey ▸ hsome)] at hrest
      exact congrArg (EventGroup.mk g.master) hrest
    · simp [groupOf, overridesOf, standalone, hnone]
    · exact absurd (masters_of_rows h he hmaster hsome) hother
  · rintro rfl
    refine ⟨?_, rfl⟩
    cases hkey : m.sourceKey with
    | none =>
      have hgroup : groupOf events m = standalone m := by simp [groupOf, overridesOf, standalone, hkey]
      rw [hgroup]
      refine List.mem_append_right _ (List.mem_append_left _ (List.mem_map_of_mem ?_))
      exact List.mem_filter.2 ⟨hm, by rw [hkey]; rfl⟩
    | some key =>
      have hsome : m.sourceKey.isSome := by rw [hkey]; rfl
      refine List.mem_append_left _ (List.mem_flatMap.2 ⟨_, mem_values_group.2 ⟨m, hm, hsome, rfl⟩, ?_⟩)
      exact mem_seriesOf_iff.2 ⟨masters_of_rows h hm hmaster hsome, (hoverrides m hm rfl hsome).symm⟩

end Groups

/-! ## The VEVENTs of a group -/

section Events

variable {host : FeedHost} {now : ℤ} {settings : FeedSettings}

variable {v : Vevent} {g : EventGroup} {vs : List Vevent}

/-- **The VEVENTs of a feed** are those of its groups. -/
theorem mem_events_iff {events : List CalendarEvent} {feed : IcsCalendar}
    (h : formatEventsAsIcal host now settings events = .ok feed) :
    v ∈ feed.events ↔ ∃ g ∈ (groupEventsBySourceUid events).flatMap (includedGroups host settings),
      ∃ vs, buildIcsEventsForGroup host now settings g = .ok vs ∧ v ∈ vs := by
  obtain ⟨icsEvents, hevents, h⟩ := bind_eq_ok_iff.1 h
  obtain ⟨timezones, -, h⟩ := bind_eq_ok_iff.1 h
  obtain rfl := Except.ok.inj h
  rw [List.mem_flatten]
  constructor
  · rintro ⟨vs, hvs, hv⟩
    obtain ⟨g, hg, hbuild⟩ := (mem_mapM_iff hevents).1 hvs
    exact ⟨g, hg, vs, hbuild, hv⟩
  · rintro ⟨g, hg, vs, hbuild, hv⟩
    exact ⟨vs, (mem_mapM_iff hevents).2 ⟨g, hg, hbuild⟩, hv⟩

theorem exists_eventsForGroup {events : List CalendarEvent} {feed : IcsCalendar}
    (h : formatEventsAsIcal host now settings events = .ok feed)
    (hg : g ∈ (groupEventsBySourceUid events).flatMap (includedGroups host settings)) :
    ∃ vs, buildIcsEventsForGroup host now settings g = .ok vs := by
  obtain ⟨icsEvents, hevents, -⟩ := bind_eq_ok_iff.1 h
  exact (mapM_eq_ok_iff.1 hevents).1 g hg

theorem buildBaseIcsEvent_ok {event : CalendarEvent} {uid : String}
    (h : buildBaseIcsEvent host now settings event uid = .ok v) : v.uid = uid ∧ v.recurrenceId = none ∧
      buildZonedIcsDate host.zones (resolveRepresentableTimeRange event.shape).startTime
        event.startTimeZone event.resolvesAllDay = .ok v.start := by
  obtain ⟨start, hstart, h⟩ := bind_eq_ok_iff.1 h
  cases hduration : event.writtenDuration with
  | some duration =>
    rw [hduration] at h
    obtain rfl := Except.ok.inj h
    exact ⟨rfl, rfl, hstart⟩
  | none =>
    rw [hduration] at h
    obtain ⟨«end», -, h⟩ := bind_eq_ok_iff.1 h
    obtain rfl := Except.ok.inj h
    exact ⟨rfl, rfl, hstart⟩

theorem buildMasterIcsEvent_ok {master : CalendarEvent} {uid : String} {allDay : Bool}
    (h : buildMasterIcsEvent host now settings master uid allDay = .ok v) : v.uid = uid ∧ v.recurrenceId = none ∧
      buildZonedIcsDate host.zones (resolveRepresentableTimeRange master.shape).startTime
        master.startTimeZone master.resolvesAllDay = .ok v.start ∧
      v.recurrenceRule = master.recurrenceRule.map normalizeRecurrenceRuleToUtc ∧
      ∃ timezone, (master.exceptionDates.getD []).mapM
        (fun value => buildExceptionDate host value timezone allDay) = .ok (v.exceptionDates.getD []) := by
  obtain ⟨timezone, -, h⟩ := bind_eq_ok_iff.1 h
  obtain ⟨base, hbase, h⟩ := bind_eq_ok_iff.1 h
  obtain ⟨exceptionDates, hdates, h⟩ := bind_eq_ok_iff.1 h
  obtain rfl := Except.ok.inj h
  obtain ⟨huid, hslot, hstart⟩ := buildBaseIcsEvent_ok hbase
  refine ⟨huid, hslot, hstart, rfl, timezone, hdates.trans ?_⟩
  by_cases hnil : exceptionDates = [] <;> simp [hnil]

theorem buildOverrideIcsEvent_ok {override : CalendarEvent} {uid : String} {timezone : Option String} {allDay : Bool}
    (h : buildOverrideIcsEvent host now settings override uid timezone allDay = .ok v) :
    v.uid = uid ∧ ∀ slot, override.recurrenceId = some slot →
      ∃ d, v.recurrenceId = some d ∧ buildZonedIcsDate host.zones slot timezone allDay = .ok d := by
  obtain ⟨base, hbase, h⟩ := bind_eq_ok_iff.1 h
  obtain ⟨huid, -, -⟩ := buildBaseIcsEvent_ok hbase
  split at h
  · rename_i hnone
    obtain rfl := Except.ok.inj h
    refine ⟨huid, fun slot hslot => ?_⟩
    rw [hnone] at hslot
    cases hslot
  · rename_i slot hsome
    obtain ⟨value, hvalue, h⟩ := bind_eq_ok_iff.1 h
    obtain rfl := Except.ok.inj h
    refine ⟨huid, fun slot' hslot' => ⟨value, rfl, ?_⟩⟩
    rw [hsome] at hslot'
    exact Option.some.inj hslot' ▸ hvalue

/-- **The VEVENTs of a group** are its master's and its overrides'. -/
theorem mem_eventsForGroup_iff (h : buildIcsEventsForGroup host now settings g = .ok vs) : v ∈ vs ↔
      buildMasterIcsEvent host now settings g.master (publishedUid g.master.id) g.master.resolvesAllDay =
        .ok v ∨
      ∃ o ∈ g.overrides, ∃ timezone, resolveEventTimeZone host g.master = .ok timezone ∧
        buildOverrideIcsEvent host now settings o (publishedUid g.master.id) timezone
          g.master.resolvesAllDay = .ok v := by
  obtain ⟨timezone, htimezone, h⟩ := bind_eq_ok_iff.1 h
  obtain ⟨master, hmaster, h⟩ := bind_eq_ok_iff.1 h
  obtain ⟨overrides, hoverrides, h⟩ := bind_eq_ok_iff.1 h
  obtain rfl := Except.ok.inj h
  rw [List.mem_cons, mem_mapM_iff hoverrides, hmaster, htimezone]
  constructor
  · rintro (rfl | ⟨o, ho, hv⟩)
    · exact Or.inl rfl
    · exact Or.inr ⟨o, ho, timezone, rfl, hv⟩
  · rintro (hv | ⟨o, ho, timezone', htimezone', hv⟩)
    · exact Or.inl (Except.ok.inj hv).symm
    · exact Or.inr ⟨o, ho, Except.ok.inj htimezone' ▸ hv⟩

theorem exists_masterEvent (h : buildIcsEventsForGroup host now settings g = .ok vs) :
    ∃ v ∈ vs, buildMasterIcsEvent host now settings g.master (publishedUid g.master.id)
      g.master.resolvesAllDay = .ok v := by
  obtain ⟨timezone, -, h⟩ := bind_eq_ok_iff.1 h
  obtain ⟨master, hmaster, h⟩ := bind_eq_ok_iff.1 h
  obtain ⟨overrides, -, h⟩ := bind_eq_ok_iff.1 h
  obtain rfl := Except.ok.inj h
  exact ⟨master, List.mem_cons_self, hmaster⟩

theorem exists_overrideEvent (h : buildIcsEventsForGroup host now settings g = .ok vs) {o : CalendarEvent}
    (ho : o ∈ g.overrides) : ∃ v ∈ vs, ∃ timezone,
      buildOverrideIcsEvent host now settings o (publishedUid g.master.id) timezone
        g.master.resolvesAllDay = .ok v := by
  obtain ⟨timezone, -, h⟩ := bind_eq_ok_iff.1 h
  obtain ⟨master, -, h⟩ := bind_eq_ok_iff.1 h
  obtain ⟨overrides, hoverrides, h⟩ := bind_eq_ok_iff.1 h
  obtain rfl := Except.ok.inj h
  obtain ⟨v, hv⟩ := (mapM_eq_ok_iff.1 hoverrides).1 o ho
  exact ⟨v, List.mem_cons_of_mem _ ((mem_mapM_iff hoverrides).2 ⟨o, ho, hv⟩), timezone, hv⟩

theorem publishedUid_injective {id id' : String} (h : publishedUid id = publishedUid id') : id = id' := by
  have hchars := congrArg String.toList h
  simp only [publishedUid, String.toList_append] at hchars
  exact String.toList_inj.1 (List.append_cancel_right hchars)

end Events

end Keeper.Feed
