import Keeper.Ics.CanonicalRevisions

/-!
# Withheld events

An event that cannot be represented is reported and kept among the entries, so that a snapshot does
not take it for deleted. The reports come from all VEVENTs of a calendar, the entries from the
canonical ones that have a start.

* `keepsWithheld_iff`: every reported uid has an entry iff it has a canonical VEVENT with a start.
-/

namespace Keeper

section Reports

variable {zones : Zones} {options : ParseIcsEventsOptions} {rawEvents events : List IcsEvent}
  {event : IcsEvent} {uid : String}

theorem mem_uids_uniqueByUid {reports : List UnsupportedIcsEvent} :
    uid ∈ (uniqueByUid reports).map (·.uid) ↔ uid ∈ reports.map (·.uid) := by
  have hkey : ∀ k report, (JsMap.ofList (reports.map fun report =>
      (report.uid, report))).get? k = some report → report ∈ reports ∧ report.uid = k := by
    intro k report hget
    obtain ⟨report', hmem, heq⟩ := List.mem_map.1 (JsMap.get?_ofList_some hget)
    obtain ⟨rfl, rfl⟩ := Prod.mk.inj heq
    exact ⟨hmem, rfl⟩
  rw [List.mem_map, List.mem_map]
  constructor
  · rintro ⟨report, hmem, rfl⟩
    obtain ⟨k, hget⟩ := JsMap.mem_values_iff.1 hmem
    exact ⟨report, (hkey k report hget).1, rfl⟩
  · rintro ⟨report, hmem, rfl⟩
    have hkeys : report.uid ∈ (JsMap.ofList (reports.map fun report =>
        (report.uid, report))).keys :=
      JsMap.mem_keys_ofList.2 (List.mem_map.2 ⟨_, List.mem_map.2 ⟨report, hmem, rfl⟩, rfl⟩)
    obtain ⟨last, hlast⟩ := JsMap.mem_keys_iff.1 hkeys
    exact ⟨last, JsMap.mem_values_iff.2 ⟨_, hlast⟩, (hkey _ _ hlast).2⟩

/-- The canonical revision that a VEVENT without a representable span is compared with: the last of
its instance. -/
def canonicalOfInstance (zones : Zones) (rawEvents : List IcsEvent) (identity : String) :
    Option IcsEvent :=
  (JsMap.ofList (JsMap.keyed instanceIdentity? (canonicalRevisions zones rawEvents).events)).get?
    identity

/-- A uid is withheld: one of its VEVENTs has a time that was not resolved, a canonical one is an
override of all that follows, or one without a representable span is newer than the canonical one of
its instance. -/
inductive WithholdsUid (zones : Zones) (rawEvents : List IcsEvent) (uid : String) : Prop
  | unresolved (event : IcsEvent) (hmem : event ∈ rawEvents) (huid : truthy event.uid = some uid)
    (hreason : (truthy event.unresolvedTimeReason).isSome)
  | ranged (event : IcsEvent) (hcanonical : IsCanonical zones rawEvents event)
    (huid : truthy event.uid = some uid)
    (hrange : event.recurrenceId.any (·.range = some "THISANDFUTURE") = true)
  | stale (event canonical : IcsEvent) (hmem : event ∈ rawEvents)
    (huid : truthy event.uid = some uid) (hunbuildable : isUnbuildableEvent zones event = true)
    (hinstance : (instanceIdentity? event).bind (canonicalOfInstance zones rawEvents) =
      some canonical)
    (hnewer : isNewerEventRevision event canonical = true)

theorem mem_uids_unresolved : uid ∈ (collectUnresolvedTimeEvents rawEvents).map (·.uid) ↔
    ∃ event ∈ rawEvents, truthy event.uid = some uid ∧
      (truthy event.unresolvedTimeReason).isSome := by
  simp only [collectUnresolvedTimeEvents, List.mem_map, List.mem_filterMap,
    Option.bind_eq_some_iff, Option.map_eq_some_iff]
  constructor
  · rintro ⟨_, ⟨event, hmem, reason, hreason, uid', huid, rfl⟩, rfl⟩
    exact ⟨event, hmem, huid, by rw [hreason]; rfl⟩
  · rintro ⟨event, hmem, huid, hreason⟩
    obtain ⟨reason, hreason⟩ := Option.isSome_iff_exists.1 hreason
    exact ⟨⟨reason, uid⟩, ⟨event, hmem, reason, hreason, uid, huid, rfl⟩, rfl⟩

theorem mem_uids_ranged : uid ∈ (collectRangedOverrideEvents events).map (·.uid) ↔
    ∃ event ∈ events, truthy event.uid = some uid ∧
      event.recurrenceId.any (·.range = some "THISANDFUTURE") = true := by
  rw [collectRangedOverrideEvents, mem_uids_uniqueByUid]
  simp only [List.mem_map, List.mem_filterMap]
  constructor
  · rintro ⟨report, ⟨event, hmem, hreport⟩, rfl⟩
    split_ifs at hreport with hrange
    obtain ⟨uid', huid, rfl⟩ := Option.map_eq_some_iff.1 hreport
    exact ⟨event, hmem, huid, hrange⟩
  · rintro ⟨event, hmem, huid, hrange⟩
    exact ⟨_, ⟨event, hmem, by rw [if_pos hrange, huid]; rfl⟩, rfl⟩

theorem mem_uids_stale : uid ∈ ((collectStaleRevisions zones rawEvents
    (canonicalRevisions zones rawEvents).events).unsupported).map (·.uid) ↔
      ∃ event ∈ rawEvents, truthy event.uid = some uid ∧ isUnbuildableEvent zones event = true ∧
        ∃ canonical, (instanceIdentity? event).bind (canonicalOfInstance zones rawEvents) =
          some canonical ∧ isNewerEventRevision event canonical = true := by
  rw [collectStaleRevisions, mem_uids_uniqueByUid, List.map_map, List.mem_map]
  constructor
  · rintro ⟨⟨identity, event⟩, hentry, rfl⟩
    obtain ⟨hkeyed, hstale⟩ := List.mem_filter.1 hentry
    obtain ⟨hmem, hidentity⟩ := JsMap.mem_keyed.1 hkeyed
    simp only [Bool.and_eq_true, Option.any_eq_true] at hstale
    obtain ⟨hunbuildable, canonical, hcanonical, hnewer⟩ := hstale
    obtain ⟨uid', huid, -⟩ := Option.map_eq_some_iff.1 hidentity
    refine ⟨event, hmem, ?_, hunbuildable, canonical, ?_, hnewer⟩
    · dsimp only [Function.comp_apply]
      rw [huid, (truthy_eq_some_iff.1 huid).1]
      rfl
    · rw [hidentity]
      exact hcanonical
  · rintro ⟨event, hmem, huid, hunbuildable, canonical, hcanonical, hnewer⟩
    obtain ⟨identity, hidentity, hget⟩ := Option.bind_eq_some_iff.1 hcanonical
    refine ⟨(identity, event), List.mem_filter.2 ⟨JsMap.mem_keyed.2 ⟨hmem, hidentity⟩, ?_⟩, ?_⟩
    · dsimp only
      rw [hunbuildable, Bool.true_and, Option.any_eq_true]
      exact ⟨canonical, hget, hnewer⟩
    · dsimp only [Function.comp_apply]
      rw [(truthy_eq_some_iff.1 huid).1]
      rfl

/-- **The reported uids** are the withheld ones. -/
theorem mem_uids_unsupportedEvents_iff :
    uid ∈ (readIcsEvents zones options rawEvents
      (canonicalRevisions zones rawEvents)).unsupportedEvents.map (·.uid) ↔
        WithholdsUid zones rawEvents uid := by
  rw [readIcsEvents, mergeUnsupportedEvents, mem_uids_uniqueByUid]
  simp only [List.flatten_cons, List.flatten_nil, List.append_nil, List.map_append, List.mem_append,
    mem_uids_unresolved, mem_uids_ranged, mem_uids_stale, mem_canonicalRevisions_iff]
  constructor
  · rintro (⟨event, hcanonical, huid, hrange⟩ |
      ⟨event, hmem, huid, hunbuildable, canonical, hinstance, hnewer⟩ |
      ⟨event, hmem, huid, hreason⟩)
    · exact .ranged event hcanonical huid hrange
    · exact .stale event canonical hmem huid hunbuildable hinstance hnewer
    · exact .unresolved event hmem huid hreason
  · rintro (⟨event, hmem, huid, hreason⟩ | ⟨event, hcanonical, huid, hrange⟩ |
      ⟨event, canonical, hmem, huid, hunbuildable, hinstance, hnewer⟩)
    · exact Or.inr (Or.inr ⟨event, hmem, huid, hreason⟩)
    · exact Or.inl ⟨event, hcanonical, huid, hrange⟩
    · exact Or.inr (Or.inl ⟨event, hmem, huid, hunbuildable, canonical, hinstance, hnewer⟩)

end Reports

/-! ## Entries of withheld uids -/

def HasCancelledRevision (rawEvents : List IcsEvent) (uid : String) : Prop :=
  ∃ event ∈ rawEvents, truthy event.uid = some uid ∧ event.status = some "CANCELLED"

/-- Every reported uid that is neither Keeper's nor cancelled is the uid of an entry. -/
def KeepsWithheld (rawEvents : List IcsEvent) (result : ParsedIcsEventDiagnostics) : Prop :=
  ∀ uid ∈ result.unsupportedEvents.map (·.uid), isKeeperEvent uid = false →
    ¬ HasCancelledRevision rawEvents uid → ∃ slot ∈ result.events, slot.uid = uid

/-- **Withheld events are kept** exactly when each withheld uid has a canonical VEVENT with a start:
its VEVENTs with unresolved times may have none that can be read. -/
theorem keepsWithheld_iff (zones : Zones) (options : ParseIcsEventsOptions)
    (rawEvents : List IcsEvent) {result : ParsedIcsEventDiagnostics}
    (h : parseIcsEventsWithDiagnostics zones options rawEvents = .ok result) :
    KeepsWithheld rawEvents result ↔ ∀ uid, WithholdsUid zones rawEvents uid →
      isKeeperEvent uid = false → ¬ HasCancelledRevision rawEvents uid →
        ∃ event, IsCanonical zones rawEvents event ∧ truthy event.uid = some uid ∧
          event.start.isSome := by
  obtain ⟨hreadable, rfl⟩ := parseIcsEventsWithDiagnostics_eq_ok_iff.1 h
  refine forall_congr' fun uid => ?_
  rw [mem_uids_unsupportedEvents_iff]
  refine imp_congr_right fun hwithheld => imp_congr_right fun hkeeper => imp_congr_right fun hno => ?_
  have htruthy : ∃ event : IcsEvent, truthy event.uid = some uid := by
    cases hwithheld with
    | unresolved event _ huid _ => exact ⟨event, huid⟩
    | ranged event _ huid _ => exact ⟨event, huid⟩
    | stale event _ _ huid _ _ _ => exact ⟨event, huid⟩
  constructor
  · rintro ⟨slot, hslot, rfl⟩
    obtain ⟨event, hkept, hconvert⟩ := mem_events_readIcsEvents.1 hslot
    obtain ⟨hcanonical, ⟨uid, huid⟩, hstart⟩ := of_mem_keptEvents hkept
    have heq := (convertCanonicalEvent_eq_some hconvert).1
    rw [(truthy_eq_some_iff.1 huid).1] at heq
    obtain rfl := Option.some.inj heq
    exact ⟨event, hcanonical, huid, hstart⟩
  · rintro ⟨event, hcanonical, huid, hstart⟩
    have hforeign : isForeignUid options uid = true := by
      rw [isForeignUid, hkeeper]
      exact Bool.or_true _
    obtain ⟨slot, hslot, huid', -⟩ := exists_entry hcanonical huid hforeign hstart
      (by rintro ⟨e, he, huid, -, hstatus⟩; exact hno ⟨e, he, huid, hstatus⟩)
      (by rintro _ _ ⟨e, he, huid, -, hstatus⟩; exact hno ⟨e, he, huid, hstatus⟩)
    exact ⟨slot, hslot, huid'⟩

namespace Example

def noZones : Zones := ⟨id, fun _ => true, fun t _ => t⟩

def unresolvedZone : IcsEvent where
  uid := some "standup"
  start := some { date := some 0 }
  sequence := some 1
  unresolvedTimeReason := some "Unsupported calendar timezone: Office"

/-- A VEVENT whose start cannot be read. -/
def unreadableStart : IcsEvent :=
  { unresolvedZone with
    start := some { date := none }
    unresolvedTimeReason := some "Unreadable DTSTART or DTEND in event standup" }

/-- What the reader returns for it: no entry, and the report. -/
def withheldAlone : ParsedIcsEventDiagnostics where
  events := []
  selfAuthoredCount := 0
  unrepresentableCount := 1
  unsupportedEvents := [⟨"Unreadable DTSTART or DTEND in event standup", "standup"⟩]

theorem parse_unreadableStart :
    parseIcsEventsWithDiagnostics noZones {} [unreadableStart] = .ok withheldAlone := rfl

end Example

theorem keepsWithheld_iff_example :
    ∃ result, parseIcsEventsWithDiagnostics Example.noZones {} [Example.unresolvedZone] =
        .ok result ∧
      (KeepsWithheld [Example.unresolvedZone] result ↔
        ∀ uid, WithholdsUid Example.noZones [Example.unresolvedZone] uid →
          isKeeperEvent uid = false → ¬ HasCancelledRevision [Example.unresolvedZone] uid →
            ∃ event, IsCanonical Example.noZones [Example.unresolvedZone] event ∧
              truthy event.uid = some uid ∧ event.start.isSome) :=
  ⟨_, rfl, keepsWithheld_iff Example.noZones {} [Example.unresolvedZone] rfl⟩

/-- **A withheld uid has no entry.** The start of its only VEVENT cannot be read. -/
theorem not_keepsWithheld :
    parseIcsEventsWithDiagnostics Example.noZones {} [Example.unreadableStart] =
        .ok Example.withheldAlone ∧
      ¬ KeepsWithheld [Example.unreadableStart] Example.withheldAlone := by
  refine ⟨Example.parse_unreadableStart, fun hkeeps => ?_⟩
  have hno : ¬ HasCancelledRevision [Example.unreadableStart] "standup" := by
    rintro ⟨event, hmem, -, hstatus⟩
    obtain rfl := List.mem_singleton.1 hmem
    cases hstatus
  obtain ⟨slot, hslot, -⟩ := hkeeps "standup" List.mem_cons_self (by decide) hno
  cases hslot

end Keeper
