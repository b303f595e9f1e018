import Keeper.Foundations.Fallible
import Keeper.Ics.UidClasses
import Keeper.Source.CalDavResources
import Mathlib.Data.List.Pairwise
import Mathlib.Data.List.Perm.Basic

/-!
# Resources read apart

The VEVENTs of a collection become one calendar, and the offsets that its resources declare one map. Where
no two resources have events of one uid the first changes nothing: revisions, cancellations and reports are
those of a uid. The second does, where two senders declare one name otherwise.

* `parseIcsEvents_flatMap`: the events of resources without a common uid are read apart.
* `readsApart_iff`: so are the resources iff the offsets of all of them give each recurring entry the zone
  that those of its own give it.
-/

namespace Keeper

/-! ## Resources by themselves -/

section Resources

variable (parser : ResourceParser) (options : ParseICalCalendarsOptions)

def resourceEvents (icsString : String) : List IcsEvent :=
  ((parseCalendarResource parser options icsString).toOption.bind (·.events)).getD []

def resourceReading (icsString : String) : Except RangeError ParsedIcsEventDiagnostics :=
  parseIcsEventsWithDiagnostics parser.host.zones { includeKeeperEvents := true }
    (resourceEvents parser options icsString)

def resourceEntries (icsString : String) : List EventTimeSlot :=
  ((resourceReading parser options icsString).toOption.map (·.events)).getD []

def resourceReports (icsString : String) : List UnsupportedIcsEvent :=
  ((resourceReading parser options icsString).toOption.map (·.unsupportedEvents)).getD []

def resourceOffsets (icsString : String) : DeclaredTimeZoneOffsets :=
  (readDeclaredTimeZoneOffsets icsString).toOption.getD JsMap.empty

def mergedOffsets (icsStrings : List String) : DeclaredTimeZoneOffsets :=
  JsMap.ofList (icsStrings.flatMap fun icsString => (resourceOffsets icsString).entries)

def IsReadableResource (icsString : String) : Prop :=
  ∃ resources, parseICalCalendarsToRemoteEvents parser options [icsString] = .ok resources

def ResourceHasUid (icsString uid : String) : Prop :=
  HasUid (resourceEvents parser options icsString) uid

def HasUnsupportedUid (host : IntlHost) (declaredOffsets : DeclaredTimeZoneOffsets)
    (entries : List EventTimeSlot) (uid : String) : Prop :=
  ∃ e ∈ entries, e.uid = uid ∧ hasUnsupportedTimeZone host declaredOffsets e = true

/-- **The resources are read apart**: together they return what each returns alone, in some order. -/
def ReadsApart (icsStrings : List String) : Prop :=
  ∃ together, parseICalCalendarsToRemoteEvents parser options icsStrings = .ok together ∧
    ∃ alone : String → ParsedCalendarResources,
      (∀ icsString ∈ icsStrings,
        parseICalCalendarsToRemoteEvents parser options [icsString] = .ok (alone icsString)) ∧
      together.events.Perm (icsStrings.flatMap fun icsString => (alone icsString).events) ∧
      (together.unsupportedEvents.map (·.uid)).Perm
        (icsStrings.flatMap fun icsString => (alone icsString).unsupportedEvents.map (·.uid))

/-- **The offsets agree**: those of all the resources give each recurring entry the zone that those of its
own resource give it, and leave the same uids without one. -/
structure OffsetsAgree (icsStrings : List String) : Prop where
  zones : ∀ icsString ∈ icsStrings, ∀ e ∈ resourceEntries parser options icsString,
    resolveEventTimeZone parser.host (mergedOffsets icsStrings) e =
      resolveEventTimeZone parser.host (resourceOffsets icsString) e
  unsupported : ∀ icsString ∈ icsStrings, ∀ uid,
    HasUnsupportedUid parser.host (mergedOffsets icsStrings) (resourceEntries parser options icsString) uid ↔
      HasUnsupportedUid parser.host (resourceOffsets icsString)
        (resourceEntries parser options icsString) uid

/-- The entries of a resource differ in more than their zones. -/
def AreDistinctEntries (icsString : String) : Prop :=
  ∀ e ∈ resourceEntries parser options icsString, ∀ e' ∈ resourceEntries parser options icsString,
    ({ e.toResourceEvent with startTimeZone := none } : ResourceEvent) =
      { e'.toResourceEvent with startTimeZone := none } → e = e'

/-- Two resources have no events of one uid. -/
def HasOtherUids (s s' : String) : Prop :=
  ∀ uid, ResourceHasUid parser options s uid → ¬ ResourceHasUid parser options s' uid

/-- No two resources have events of one uid. -/
def HaveDisjointUids (icsStrings : List String) : Prop := icsStrings.Pairwise (HasOtherUids parser options)

/-- No uid of a resource is a uid of another that a slot continues. -/
def HaveUncontinuedUids (icsStrings : List String) : Prop :=
  icsStrings.Pairwise fun s s' => ∀ uid, ResourceHasUid parser options s uid →
    ∀ uid', ResourceHasUid parser options s' uid' → ∀ date,
      uid ≠ uid' ++ "|slot|" ++ isoText date ∧ uid' ≠ uid ++ "|slot|" ++ isoText date

end Resources

section Together

variable {parser : ResourceParser} {options : ParseICalCalendarsOptions} {icsString : String}
  {icsStrings : List String}

structure ParsedResource (parser : ResourceParser) (options : ParseICalCalendarsOptions)
    (icsString : String) : Prop where
  calendar : ∃ calendar, parseCalendarResource parser options icsString = .ok calendar
  offsets : readDeclaredTimeZoneOffsets icsString = .ok (resourceOffsets icsString)

theorem ParsedResource.readable (h : ParsedResource parser options icsString) :
    ∃ calendar, parseCalendarResource parser options icsString = .ok calendar ∧
      calendar.events.getD [] = resourceEvents parser options icsString := by
  obtain ⟨calendar, hcalendar⟩ := h.calendar
  refine ⟨calendar, hcalendar, ?_⟩
  rw [resourceEvents, hcalendar]
  rfl

theorem readableCalendars_cons {calendar : IcsCalendar}
    (h : parseCalendarResource parser options icsString = .ok calendar) :
    readableCalendars parser options (icsString :: icsStrings) =
      (icsString, calendar) :: readableCalendars parser options icsStrings := by
  rw [readableCalendars, List.filterMap_cons, h]
  rfl

theorem flatMap_readableCalendars
    (h : ∀ icsString ∈ icsStrings, ParsedResource parser options icsString) :
    ((readableCalendars parser options icsStrings).flatMap fun calendar => calendar.2.events.getD []) =
      icsStrings.flatMap (resourceEvents parser options) := by
  induction icsStrings with
  | nil => rfl
  | cons icsString icsStrings ih =>
    obtain ⟨calendar, hcalendar, hevents⟩ := (h icsString List.mem_cons_self).readable
    have hrest := ih fun s hs => h s (List.mem_cons_of_mem _ hs)
    rw [readableCalendars_cons hcalendar, List.flatMap_cons, List.flatMap_cons, hrest, hevents]

theorem mapM_readableCalendars
    (h : ∀ icsString ∈ icsStrings, ParsedResource parser options icsString) :
    (readableCalendars parser options icsStrings).mapM
        (fun calendar => readDeclaredTimeZoneOffsets calendar.1) =
      .ok (icsStrings.map resourceOffsets) := by
  induction icsStrings with
  | nil => rfl
  | cons icsString icsStrings ih =>
    have hresource := h icsString List.mem_cons_self
    obtain ⟨calendar, hcalendar, -⟩ := hresource.readable
    have hrest := ih fun s hs => h s (List.mem_cons_of_mem _ hs)
    rw [readableCalendars_cons hcalendar, List.mapM_cons, hresource.offsets, hrest]
    rfl

theorem skippedResourceReasons_eq_nil
    (h : ∀ icsString ∈ icsStrings, ParsedResource parser options icsString) :
    skippedResourceReasons parser options icsStrings = [] := by
  refine List.filterMap_eq_nil_iff.2 fun icsString hmem => ?_
  obtain ⟨calendar, hcalendar⟩ := (h icsString hmem).calendar
  rw [hcalendar]

/-- **Resources that can be parsed** are read as one calendar, with the offsets of all of them. -/
theorem parseICalCalendarsToRemoteEvents_eq
    (h : ∀ icsString ∈ icsStrings, ParsedResource parser options icsString) :
    parseICalCalendarsToRemoteEvents parser options icsStrings =
      ((parseIcsEventsWithDiagnostics parser.host.zones { includeKeeperEvents := true }
        (icsStrings.flatMap (resourceEvents parser options))).mapError ResourceError.range).map
          (toParsedResources parser.host (mergedOffsets icsStrings) []) := by
  have hevents := flatMap_readableCalendars h
  have hoffsets := mapM_readableCalendars h
  have hreasons := skippedResourceReasons_eq_nil h
  unfold parseICalCalendarsToRemoteEvents
  dsimp only
  rw [hevents, hoffsets, hreasons]
  cases icsStrings with
  | nil =>
    rw [List.flatMap_nil, parseIcsEventsWithDiagnostics_nil]
    rfl
  | cons icsString icsStrings =>
    obtain ⟨calendar, hcalendar⟩ := (h icsString List.mem_cons_self).calendar
    have hsome : (readableCalendars parser options (icsString :: icsStrings)).isEmpty = false := by
      rw [readableCalendars_cons hcalendar]
      rfl
    have hmerged : JsMap.ofList (((icsString :: icsStrings).map resourceOffsets).flatMap (·.entries)) =
        mergedOffsets (icsString :: icsStrings) := by
      rw [mergedOffsets, List.flatMap_map]
    rw [hsome, ← hmerged]
    cases parseIcsEventsWithDiagnostics parser.host.zones { includeKeeperEvents := true }
      ((icsString :: icsStrings).flatMap (resourceEvents parser options)) <;> rfl

theorem mergedOffsets_singleton : mergedOffsets [icsString] = resourceOffsets icsString := by
  rw [mergedOffsets, List.flatMap_singleton, JsMap.ofList_entries]

/-- **A resource that can be read alone** is parsed and read, and returned with its own offsets. -/
theorem IsReadableResource.spec (h : IsReadableResource parser options icsString) :
    ParsedResource parser options icsString ∧ ∃ reading,
      resourceReading parser options icsString = .ok reading ∧
      parseICalCalendarsToRemoteEvents parser options [icsString] =
        .ok (toParsedResources parser.host (resourceOffsets icsString) [] reading) := by
  obtain ⟨resources, hresources⟩ := h
  have hparsed : ParsedResource parser options icsString := by
    cases hcalendar : parseCalendarResource parser options icsString with
    | error message =>
      have hnone : readableCalendars parser options [icsString] = [] := by
        simp [readableCalendars, hcalendar, Except.toOption]
      have hreasons : skippedResourceReasons parser options [icsString] = [message] := by
        simp [skippedResourceReasons, hcalendar]
      rw [parseICalCalendarsToRemoteEvents, hnone, hreasons] at hresources
      cases hresources
    | ok calendar =>
      refine ⟨⟨calendar, hcalendar⟩, ?_⟩
      cases hoffsets : readDeclaredTimeZoneOffsets icsString with
      | ok offsets =>
        rw [resourceOffsets, hoffsets]
        rfl
      | error message =>
        rw [parseICalCalendarsToRemoteEvents, readableCalendars_cons hcalendar] at hresources
        rw [List.isEmpty_cons, if_neg Bool.false_ne_true, List.mapM_cons, hoffsets] at hresources
        obtain ⟨parsed, -, hrest⟩ := bind_eq_ok_iff.1 hresources
        cases hrest
  refine ⟨hparsed, ?_⟩
  have hall : ∀ s ∈ [icsString], ParsedResource parser options s :=
    fun s hs => List.mem_singleton.1 hs ▸ hparsed
  have heq := parseICalCalendarsToRemoteEvents_eq hall
  rw [mergedOffsets_singleton, List.flatMap_singleton] at heq
  rw [hresources] at heq ⊢
  cases hreading : resourceReading parser options icsString with
  | error message =>
    rw [resourceReading] at hreading
    rw [hreading] at heq
    cases heq
  | ok reading =>
    refine ⟨reading, rfl, ?_⟩
    rw [resourceReading] at hreading
    rw [hreading] at heq
    exact heq

theorem resourceEntries_eq {reading : ParsedIcsEventDiagnostics}
    (h : resourceReading parser options icsString = .ok reading) :
    resourceEntries parser options icsString = reading.events ∧
      resourceReports parser options icsString = reading.unsupportedEvents := by
  rw [resourceEntries, resourceReports, h]
  exact ⟨rfl, rfl⟩

variable {e : EventTimeSlot} {host : IntlHost} {uid : String} {declaredOffsets : DeclaredTimeZoneOffsets}
  {entries : List EventTimeSlot}

theorem resourceHasUid_of_mem (he : e ∈ resourceEntries parser options icsString) :
    ResourceHasUid parser options icsString e.uid := by
  cases hreading : resourceReading parser options icsString with
  | error message =>
    rw [resourceEntries, hreading] at he
    cases he
  | ok reading =>
    rw [(resourceEntries_eq hreading).1] at he
    obtain ⟨-, rfl⟩ := parseIcsEventsWithDiagnostics_eq_ok_iff.1 hreading
    obtain ⟨event, hkept, hconvert⟩ := mem_events_readIcsEvents.1 he
    obtain ⟨uid, huid⟩ := truthy_uid_of_mem_keptEvents hkept
    have hsame := (Option.filter_eq_some_iff.1 huid).1.symm.trans (uid_of_convertCanonicalEvent hconvert)
    rw [Option.some.inj hsame] at huid
    exact ⟨event, (of_mem_keptEvents hkept).1.mem_raw, huid⟩

/-- **The events of resources that are apart** are read to what each is read to, in some order. -/
theorem parseIcsEvents_flatMap
    (hreadable : ∀ s ∈ icsStrings, ∃ reading, resourceReading parser options s = .ok reading)
    (hapart : icsStrings.Pairwise fun s s' => AreApart parser.host.zones
      (resourceEvents parser options s) (resourceEvents parser options s')) :
    ∃ together, parseIcsEventsWithDiagnostics parser.host.zones { includeKeeperEvents := true }
        (icsStrings.flatMap (resourceEvents parser options)) = .ok together ∧
      together.events.Perm (icsStrings.flatMap (resourceEntries parser options)) ∧
      together.unsupportedEvents.Perm (icsStrings.flatMap (resourceReports parser options)) := by
  induction icsStrings with
  | nil =>
    exact ⟨_, parseIcsEventsWithDiagnostics_nil _ _, List.Perm.refl _, List.Perm.refl _⟩
  | cons s icsStrings ih =>
    rw [List.pairwise_cons] at hapart
    obtain ⟨rest, hrest, hevents, hreports⟩ :=
      ih (fun s' hs' => hreadable s' (List.mem_cons_of_mem _ hs')) hapart.2
    obtain ⟨reading, hreading⟩ := hreadable s List.mem_cons_self
    obtain ⟨together, htogether, hall, hallReports⟩ :=
      parseIcsEventsWithDiagnostics_append (areApart_flatMap hapart.1) hreading hrest
    obtain ⟨hentries, hunsupported⟩ := resourceEntries_eq hreading
    rw [List.flatMap_cons, List.flatMap_cons, List.flatMap_cons, hentries, hunsupported]
    exact ⟨together, htogether, hall.trans (hevents.append_left _), hallReports.trans (hreports.append_left _)⟩

theorem HaveDisjointUids.eq (h : HaveDisjointUids parser options icsStrings) {s s' : String} (hs : s ∈ icsStrings)
    (hs' : s' ∈ icsStrings) {e' : EventTimeSlot} (he : e ∈ resourceEntries parser options s)
    (he' : e' ∈ resourceEntries parser options s') (huid : e.uid = e'.uid) : s = s' := by
  by_contra hne
  have hsymm : Std.Symm (HasOtherUids parser options) :=
    ⟨fun _ _ hother uid hsecond hfirst => hother uid hfirst hsecond⟩
  have hother := List.Pairwise.forall h hs hs' hne
  refine hother e.uid (resourceHasUid_of_mem he) ?_
  rw [huid]
  exact resourceHasUid_of_mem he'

theorem HaveDisjointUids.eq_of_unsupported (h : HaveDisjointUids parser options icsStrings) {s s' : String}
    (hs : s ∈ icsStrings) (hs' : s' ∈ icsStrings) {host' : IntlHost} {offsets offsets' : DeclaredTimeZoneOffsets}
    (huid : HasUnsupportedUid host offsets (resourceEntries parser options s) uid)
    (huid' : HasUnsupportedUid host' offsets' (resourceEntries parser options s') uid) : s = s' := by
  obtain ⟨e, he, heuid, -⟩ := huid
  obtain ⟨e', he', heuid', -⟩ := huid'
  exact h.eq hs hs' he he' (heuid.trans heuid'.symm)

theorem contains_unsupportedUids_iff :
    (resolveRecurrenceTimeZones host declaredOffsets entries).unsupportedUids.contains uid = true ↔
      HasUnsupportedUid host declaredOffsets entries uid := by
  rw [List.contains_iff_mem, resolveRecurrenceTimeZones, List.mem_map]
  refine exists_congr fun e => ?_
  rw [List.mem_filter, and_assoc]
  exact and_congr_right fun _ => and_comm

def unsupportedEntries (host : IntlHost) (declaredOffsets : DeclaredTimeZoneOffsets)
    (entries : List EventTimeSlot) : List EventTimeSlot :=
  entries.filter fun event =>
    (resolveRecurrenceTimeZones host declaredOffsets entries).unsupportedUids.contains event.uid

theorem mem_map_unsupportedEntries : uid ∈ (unsupportedEntries host declaredOffsets entries).map (·.uid) ↔
      HasUnsupportedUid host declaredOffsets entries uid := by
  rw [List.mem_map]
  constructor
  · rintro ⟨e, he, rfl⟩
    exact contains_unsupportedUids_iff.1 (List.mem_filter.1 he).2
  · intro h
    obtain ⟨e, he, rfl, -⟩ := id h
    exact ⟨e, List.mem_filter.2 ⟨he, contains_unsupportedUids_iff.2 h⟩, rfl⟩

theorem toParsedResources_eq (host : IntlHost) (declaredOffsets : DeclaredTimeZoneOffsets)
    (parsed : ParsedIcsEventDiagnostics) :
    (toParsedResources host declaredOffsets [] parsed).events =
        parsed.events.map (fun e => (resolveEventTimeZone host declaredOffsets e).toResourceEvent) ∧
      (toParsedResources host declaredOffsets [] parsed).unsupportedEvents.map (·.uid) =
        parsed.unsupportedEvents.map (·.uid) ++
          (unsupportedEntries host declaredOffsets parsed.events).map (·.uid) := by
  constructor
  · exact List.map_map
  · rw [toParsedResources, List.map_append, List.map_map]
    rfl

theorem hasUnsupportedUid_flatMap (h : entries.Perm (icsStrings.flatMap (resourceEntries parser options))) :
    HasUnsupportedUid host declaredOffsets entries uid ↔ ∃ s ∈ icsStrings,
      HasUnsupportedUid host declaredOffsets (resourceEntries parser options s) uid := by
  constructor
  · rintro ⟨e, he, huid, hunsupported⟩
    obtain ⟨s, hs, hmem⟩ := List.mem_flatMap.1 (h.mem_iff.1 he)
    exact ⟨s, hs, e, hmem, huid, hunsupported⟩
  · rintro ⟨s, hs, e, he, huid, hunsupported⟩
    exact ⟨e, h.mem_iff.2 (List.mem_flatMap.2 ⟨s, hs, he⟩), huid, hunsupported⟩

/-- **The uids without a zone** are those of each resource alone where the offsets agree. -/
theorem OffsetsAgree.unsupportedEntries_perm (hagree : OffsetsAgree parser options icsStrings)
    (huids : HaveDisjointUids parser options icsStrings)
    (h : entries.Perm (icsStrings.flatMap (resourceEntries parser options))) :
    (unsupportedEntries parser.host (mergedOffsets icsStrings) entries).Perm
      (icsStrings.flatMap fun s =>
        unsupportedEntries parser.host (resourceOffsets s) (resourceEntries parser options s)) := by
  refine (h.filter _).trans (List.Perm.of_eq ?_)
  rw [List.filter_flatMap]
  refine List.flatMap_congr fun s hs => List.filter_congr fun e he => ?_
  rw [Bool.eq_iff_iff, contains_unsupportedUids_iff, contains_unsupportedUids_iff,
    hasUnsupportedUid_flatMap h, ← hagree.unsupported s hs]
  constructor
  · rintro ⟨s', hs', hunsupported⟩
    obtain ⟨e', he', huid, -⟩ := id hunsupported
    rw [huids.eq hs hs' he he' huid.symm]
    exact hunsupported
  · exact fun hunsupported => ⟨s, hs, hunsupported⟩

theorem areApart_of_haveDisjointUids (huids : HaveDisjointUids parser options icsStrings)
    (hslots : HaveUncontinuedUids parser options icsStrings) :
    icsStrings.Pairwise fun s s' => AreApart parser.host.zones
      (resourceEvents parser options s) (resourceEvents parser options s') :=
  (huids.and hslots).imp fun h => areApart_of_uids h.1 h.2

theorem exists_together (hreadable : ∀ s ∈ icsStrings, IsReadableResource parser options s)
    (huids : HaveDisjointUids parser options icsStrings)
    (hslots : HaveUncontinuedUids parser options icsStrings) :
    ∃ together, parseICalCalendarsToRemoteEvents parser options icsStrings =
        .ok (toParsedResources parser.host (mergedOffsets icsStrings) [] together) ∧
      together.events.Perm (icsStrings.flatMap (resourceEntries parser options)) ∧
      together.unsupportedEvents.Perm (icsStrings.flatMap (resourceReports parser options)) := by
  obtain ⟨together, htogether, hevents, hreports⟩ := parseIcsEvents_flatMap
    (fun s hs => (hreadable s hs).spec.2.imp fun _ h => h.1) (areApart_of_haveDisjointUids huids hslots)
  refine ⟨together, ?_, hevents, hreports⟩
  rw [parseICalCalendarsToRemoteEvents_eq fun s hs => (hreadable s hs).spec.1, htogether]
  rfl

theorem IsReadableResource.alone (h : IsReadableResource parser options icsString)
    {resources : ParsedCalendarResources}
    (hresources : parseICalCalendarsToRemoteEvents parser options [icsString] = .ok resources) :
    resources.events = (resourceEntries parser options icsString).map (fun e =>
        (resolveEventTimeZone parser.host (resourceOffsets icsString) e).toResourceEvent) ∧
      resources.unsupportedEvents.map (·.uid) =
        (resourceReports parser options icsString).map (·.uid) ++
          (unsupportedEntries parser.host (resourceOffsets icsString)
            (resourceEntries parser options icsString)).map (·.uid) := by
  obtain ⟨-, reading, hreading, hreturned⟩ := h.spec
  obtain rfl := Except.ok.inj (hreturned.symm.trans hresources)
  rw [(resourceEntries_eq hreading).1, (resourceEntries_eq hreading).2]
  exact toParsedResources_eq _ _ _

theorem unsupportedUids_alone {alone : String → ParsedCalendarResources}
    (halone : ∀ s ∈ icsStrings, parseICalCalendarsToRemoteEvents parser options [s] = .ok (alone s)) :
    (icsStrings.flatMap fun s => (alone s).unsupportedEvents.map (·.uid)) =
      icsStrings.flatMap fun s => (resourceReports parser options s).map (·.uid) ++
        (unsupportedEntries parser.host (resourceOffsets s) (resourceEntries parser options s)).map
          (·.uid) :=
  List.flatMap_congr fun s hs => (IsReadableResource.alone ⟨_, halone s hs⟩ (halone s hs)).2

/-- **Resources are read apart** where the offsets agree. -/
theorem readsApart_of_offsetsAgree (hreadable : ∀ s ∈ icsStrings, IsReadableResource parser options s)
    (huids : HaveDisjointUids parser options icsStrings)
    (hslots : HaveUncontinuedUids parser options icsStrings)
    (hagree : OffsetsAgree parser options icsStrings) : ReadsApart parser options icsStrings := by
  obtain ⟨together, htogether, hevents, hreports⟩ := exists_together hreadable huids hslots
  obtain ⟨hreturned, hunsupported⟩ := toParsedResources_eq parser.host (mergedOffsets icsStrings) together
  choose! alone halone using hreadable
  refine ⟨_, htogether, alone, halone, ?_, ?_⟩
  · rw [hreturned]
    refine (hevents.map _).trans (List.Perm.of_eq ?_)
    rw [List.map_flatMap]
    refine List.flatMap_congr fun s hs => ?_
    rw [(IsReadableResource.alone ⟨_, halone s hs⟩ (halone s hs)).1]
    exact List.map_congr_left fun e he => by rw [hagree.zones s hs e he]
  · rw [hunsupported, unsupportedUids_alone halone]
    have hmissing := (hagree.unsupportedEntries_perm huids hevents).map (·.uid)
    have hreported := hreports.map (·.uid)
    rw [List.map_flatMap] at hmissing hreported
    exact (hreported.append hmissing).trans (List.flatMap_append_perm _ _ _)

theorem resolveEventTimeZone_eq (host : IntlHost) (declaredOffsets : DeclaredTimeZoneOffsets)
    (e : EventTimeSlot) : resolveEventTimeZone host declaredOffsets e =
      { e with startTimeZone := (resolveEventTimeZone host declaredOffsets e).startTimeZone } := by
  unfold resolveEventTimeZone
  split_ifs
  · split <;> rfl
  · rfl

theorem AreDistinctEntries.eq (h : AreDistinctEntries parser options icsString)
    {offsets offsets' : DeclaredTimeZoneOffsets} {e' : EventTimeSlot}
    (he : e ∈ resourceEntries parser options icsString) (he' : e' ∈ resourceEntries parser options icsString)
    (hsame : (resolveEventTimeZone host offsets e).toResourceEvent = (resolveEventTimeZone host offsets' e').toResourceEvent) :
    resolveEventTimeZone host offsets e = resolveEventTimeZone host offsets' e := by
  have hzone := congrArg ResourceEvent.startTimeZone hsame
  have hrest := congrArg (fun r : ResourceEvent => { r with startTimeZone := none }) hsame
  rw [resolveEventTimeZone_eq, resolveEventTimeZone_eq host offsets' e'] at hrest
  obtain rfl := h e he e' he' hrest
  rw [resolveEventTimeZone_eq, resolveEventTimeZone_eq host offsets' e]
  exact congrArg (fun timeZone => ({ e with startTimeZone := timeZone } : EventTimeSlot)) hzone

/-- **Resources that are read apart** have offsets that agree, where entries differ in more than zones. -/
theorem offsetsAgree_of_readsApart (hreadable : ∀ s ∈ icsStrings, IsReadableResource parser options s)
    (huids : HaveDisjointUids parser options icsStrings)
    (hslots : HaveUncontinuedUids parser options icsStrings)
    (hdistinct : ∀ s ∈ icsStrings, AreDistinctEntries parser options s)
    (h : ReadsApart parser options icsStrings) : OffsetsAgree parser options icsStrings := by
  obtain ⟨together, htogether, hevents, hreports⟩ := exists_together hreadable huids hslots
  obtain ⟨hreturned, hunsupported⟩ := toParsedResources_eq parser.host (mergedOffsets icsStrings) together
  obtain ⟨all, hall, alone, halone, hperm, hpermUids⟩ := h
  obtain rfl := Except.ok.inj (htogether.symm.trans hall)
  have haloneEvents := fun s hs => (IsReadableResource.alone ⟨_, halone s hs⟩ (halone s hs)).1
  refine ⟨fun s hs e he => ?_, fun s hs uid => ?_⟩
  · have hmem : (resolveEventTimeZone parser.host (mergedOffsets icsStrings) e).toResourceEvent ∈
        icsStrings.flatMap fun s => (alone s).events := by
      rw [← hperm.mem_iff, hreturned]
      exact List.mem_map_of_mem (hevents.mem_iff.2 (List.mem_flatMap.2 ⟨s, hs, he⟩))
    obtain ⟨s', hs', hmem⟩ := List.mem_flatMap.1 hmem
    rw [haloneEvents s' hs'] at hmem
    obtain ⟨e', he', hsame⟩ := List.mem_map.1 hmem
    have huid := congrArg ResourceEvent.uid hsame
    rw [resolveEventTimeZone_eq, resolveEventTimeZone_eq parser.host (mergedOffsets icsStrings)] at huid
    obtain rfl := huids.eq hs hs' he he' huid.symm
    exact (hdistinct s hs).eq he he' hsame.symm
  · have hreported := hreports.map (·.uid)
    rw [List.map_flatMap] at hreported
    have hmissing : ((unsupportedEntries parser.host (mergedOffsets icsStrings)
        together.events).map (·.uid)).Perm (icsStrings.flatMap fun s =>
          (unsupportedEntries parser.host (resourceOffsets s) (resourceEntries parser options s)).map
            (·.uid)) := by
      rw [← List.perm_append_left_iff (icsStrings.flatMap fun s =>
        (resourceReports parser options s).map (·.uid))]
      rw [hunsupported, unsupportedUids_alone halone] at hpermUids
      exact (hreported.symm.append_right _).trans
        (hpermUids.trans (List.flatMap_append_perm _ _ _).symm)
    have hiff : HasUnsupportedUid parser.host (mergedOffsets icsStrings) together.events uid ↔
        ∃ s ∈ icsStrings, HasUnsupportedUid parser.host (resourceOffsets s)
          (resourceEntries parser options s) uid := by
      rw [← mem_map_unsupportedEntries, hmissing.mem_iff, List.mem_flatMap]
      exact exists_congr fun s => and_congr_right fun _ => mem_map_unsupportedEntries
    rw [hasUnsupportedUid_flatMap hevents] at hiff
    constructor
    · intro hmerged
      obtain ⟨s', hs', hown⟩ := hiff.1 ⟨s, hs, hmerged⟩
      rw [huids.eq_of_unsupported hs hs' hmerged hown]
      exact hown
    · intro hown
      obtain ⟨s', hs', hmerged⟩ := hiff.2 ⟨s, hs, hown⟩
      rw [huids.eq_of_unsupported hs hs' hown hmerged]
      exact hmerged

end Together

/-- **Resources of disjoint uids are read apart** iff their offsets agree, the other way where the entries of
a resource differ in more than their zones. -/
theorem readsApart_iff (parser : ResourceParser) (options : ParseICalCalendarsOptions)
    (icsStrings : List String) (hreadable : ∀ s ∈ icsStrings, IsReadableResource parser options s)
    (huids : HaveDisjointUids parser options icsStrings)
    (hslots : HaveUncontinuedUids parser options icsStrings) :
    (OffsetsAgree parser options icsStrings → ReadsApart parser options icsStrings) ∧
      ((∀ s ∈ icsStrings, AreDistinctEntries parser options s) →
        ReadsApart parser options icsStrings → OffsetsAgree parser options icsStrings) :=
  ⟨readsApart_of_offsetsAgree hreadable huids hslots,
    offsetsAgree_of_readsApart hreadable huids hslots⟩

namespace Example

/-- The text of a resource with a daily event in a zone of its own. -/
def customizedText (uid offset : String) : String :=
  "BEGIN:VCALENDAR\r\n" ++ "BEGIN:VTIMEZONE\r\n" ++ "TZID:Customized Time Zone\r\n" ++
    "BEGIN:STANDARD\r\n" ++ "DTSTART:19700101T000000\r\n" ++ "TZOFFSETFROM:" ++ offset ++ "\r\n" ++
    "TZOFFSETTO:" ++ offset ++ "\r\n" ++ "END:STANDARD\r\n" ++ "END:VTIMEZONE\r\n" ++
    "BEGIN:VEVENT\r\n" ++ "UID:" ++ uid ++ "\r\n" ++
    "DTSTART;TZID=Customized Time Zone:20260105T090000\r\n" ++ "RRULE:FREQ=DAILY\r\n" ++
    "END:VEVENT\r\n" ++ "END:VCALENDAR\r\n"

def customizedEvent (uid : String) (start : ℤ) : IcsEvent where
  uid := some uid
  start := some { date := some start, timezone := some "Customized Time Zone" }
  recurrenceRule := some { frequency := .daily }

def standupText : String := customizedText "standup" "+0100"

def planningText : String := customizedText "planning" "+0100"

def reviewText : String := customizedText "review" "+0500"

def fixedHost : IntlHost where
  windowsToIana _ := none
  canFormatTimeZone timeZone := "Etc/".isPrefixOf timeZone
  listSupportedTimeZones := []
  readTimeZoneOffsetMinutes _ _ := none
  instantToWallTime instant _ := instant

def customizedParser : ResourceParser where
  host := fixedHost
  parseIcsCalendar text :=
    if text = standupText then .ok { events := some [customizedEvent "standup" 1767600000000] }
    else if text = planningText then .ok { events := some [customizedEvent "planning" 1767600000000] }
    else if text = reviewText then .ok { events := some [customizedEvent "review" 1767585600000] }
    else .error "Not an iCalendar document: no BEGIN:VCALENDAR line"
  applyCalendarTimeZoneToFloatingEventDates text _ := .ok text

/-- What a text declares and that it has no dates of a recurrence, read from its characters. -/
theorem parsedResource_customizedParser {text : String} {event : IcsEvent} {offsets : List (String × List ℤ)}
    (hparse : customizedParser.parseIcsCalendar text = .ok { events := some [event] })
    (hdates : assertNoUnsupportedRecurrenceDates text = .ok ())
    (hoffsets : (readDeclaredTimeZoneOffsets text).toOption.map (·.entries) = some offsets) :
    ParsedResource customizedParser {} text ∧ resourceEvents customizedParser {} text = [event] ∧
      resourceOffsets text = JsMap.ofList offsets := by
  have hcalendar : parseCalendarResource customizedParser {} text = .ok { events := some [event] } := by
    unfold parseCalendarResource
    rw [hparse, hdates]
    simp [customizedParser, bind, Except.bind, pure, Except.pure]
  cases hread : readDeclaredTimeZoneOffsets text with
  | error message =>
    rw [hread] at hoffsets
    cases hoffsets
  | ok declared =>
    rw [hread] at hoffsets
    obtain rfl := Option.some.inj hoffsets
    have hdeclared : resourceOffsets text = declared := by
      rw [resourceOffsets, hread]
      rfl
    refine ⟨⟨⟨_, hcalendar⟩, by rw [hdeclared, hread]⟩, ?_, ?_⟩
    · rw [resourceEvents, hcalendar]
      rfl
    · rw [hdeclared, JsMap.ofList_entries]

theorem parsedResource_standupText : ParsedResource customizedParser {} standupText ∧
    resourceEvents customizedParser {} standupText = [customizedEvent "standup" 1767600000000] ∧
      resourceOffsets standupText = JsMap.ofList [("Customized Time Zone", [3600])] := by
  refine parsedResource_customizedParser (by simp [customizedParser]) ?_ ?_
  · unfold assertNoUnsupportedRecurrenceDates visitIcsProperties standupText customizedText
    simp only [String.toList_append]
    decide +kernel
  · unfold readDeclaredTimeZoneOffsets visitIcsProperties standupText customizedText
    simp only [String.toList_append]
    decide +kernel

theorem parsedResource_planningText : ParsedResource customizedParser {} planningText ∧
    resourceEvents customizedParser {} planningText = [customizedEvent "planning" 1767600000000] ∧
      resourceOffsets planningText = JsMap.ofList [("Customized Time Zone", [3600])] := by
  refine parsedResource_customizedParser ?_ ?_ ?_
  · have hother : planningText ≠ standupText := by decide +kernel
    simp [customizedParser, hother]
  · unfold assertNoUnsupportedRecurrenceDates visitIcsProperties planningText customizedText
    simp only [String.toList_append]
    decide +kernel
  · unfold readDeclaredTimeZoneOffsets visitIcsProperties planningText customizedText
    simp only [String.toList_append]
    decide +kernel

theorem parsedResource_reviewText : ParsedResource customizedParser {} reviewText ∧
    resourceEvents customizedParser {} reviewText = [customizedEvent "review" 1767585600000] ∧
      resourceOffsets reviewText = JsMap.ofList [("Customized Time Zone", [18000])] := by
  refine parsedResource_customizedParser ?_ ?_ ?_
  · have hother : reviewText ≠ standupText := by decide +kernel
    have hother' : reviewText ≠ planningText := by decide +kernel
    simp [customizedParser, hother, hother']
  · unfold assertNoUnsupportedRecurrenceDates visitIcsProperties reviewText customizedText
    simp only [String.toList_append]
    decide +kernel
  · unfold readDeclaredTimeZoneOffsets visitIcsProperties reviewText customizedText
    simp only [String.toList_append]
    decide +kernel

def customizedEntry (uid : String) (start : ℤ) : EventTimeSlot where
  endTime := start
  isAllDay := false
  recurrenceRule := some { frequency := .daily }
  startTime := start
  startTimeZone := some "Customized Time Zone"
  uid

/-- A resource of one such event. -/
structure IsCustomized (text uid : String) (start : ℤ) (offsets : List (String × List ℤ)) : Prop where
  parsed : ParsedResource customizedParser {} text
  events : resourceEvents customizedParser {} text = [customizedEvent uid start]
  offsets : resourceOffsets text = JsMap.ofList offsets
  reading : (parseIcsEventsWithDiagnostics fixedHost.zones { includeKeeperEvents := true }
    [customizedEvent uid start]).toOption.map (·.events) = some [customizedEntry uid start]
  uid : truthy (some uid) = some uid

section Customized

variable {text uid : String} {start : ℤ} {offsets : List (String × List ℤ)}

theorem IsCustomized.entries (h : IsCustomized text uid start offsets) :
    resourceEntries customizedParser {} text = [customizedEntry uid start] := by
  rw [resourceEntries, resourceReading, h.events]
  exact congrArg (·.getD []) h.reading

theorem IsCustomized.isReadableResource (h : IsCustomized text uid start offsets) :
    IsReadableResource customizedParser {} text := by
  have hall : ∀ s ∈ [text], ParsedResource customizedParser {} s :=
    fun s hs => List.mem_singleton.1 hs ▸ h.parsed
  have hreturned := parseICalCalendarsToRemoteEvents_eq hall
  rw [List.flatMap_singleton, h.events] at hreturned
  have hreading := h.reading
  change (parseIcsEventsWithDiagnostics customizedParser.host.zones _ _).toOption.map _ = _ at hreading
  cases hparse : parseIcsEventsWithDiagnostics customizedParser.host.zones { includeKeeperEvents := true }
      [customizedEvent uid start] with
  | error message =>
    rw [hparse] at hreading
    cases hreading
  | ok reading =>
    rw [hparse] at hreturned
    exact ⟨_, hreturned⟩

theorem IsCustomized.uid_eq (h : IsCustomized text uid start offsets) {uid' : String}
    (huid : ResourceHasUid customizedParser {} text uid') : uid' = uid := by
  obtain ⟨e, he, heuid⟩ := huid
  rw [h.events, List.mem_singleton] at he
  rw [he] at heuid
  exact Option.some.inj (heuid.symm.trans h.uid)

theorem IsCustomized.areDistinctEntries (h : IsCustomized text uid start offsets) :
    AreDistinctEntries customizedParser {} text := by
  intro e he e' he' _
  rw [h.entries, List.mem_singleton] at he he'
  rw [he, he']

theorem haveDisjointUids_pair {text' uid' : String} {start' : ℤ} {offsets' : List (String × List ℤ)}
    (h : IsCustomized text uid start offsets) (h' : IsCustomized text' uid' start' offsets')
    (hne : uid ≠ uid') (hbar : '|' ∉ uid.toList) (hbar' : '|' ∉ uid'.toList) :
    (∀ s ∈ [text, text'], IsReadableResource customizedParser {} s) ∧
      HaveDisjointUids customizedParser {} [text, text'] ∧
      HaveUncontinuedUids customizedParser {} [text, text'] := by
  have hslot : ∀ (uid uid' : String) (date : JsDate), '|' ∉ uid.toList →
      uid ≠ uid' ++ "|slot|" ++ isoText date := by
    rintro uid uid' date hbar rfl
    simp [String.toList_append] at hbar
  refine ⟨?_, ?_, ?_⟩
  · intro s hs
    rcases List.mem_pair.1 hs with rfl | rfl
    · exact h.isReadableResource
    · exact h'.isReadableResource
  · refine List.pairwise_pair.2 fun u hu hu' => ?_
    exact hne ((h.uid_eq hu).symm.trans (h'.uid_eq hu'))
  · refine List.pairwise_pair.2 fun u hu u' hu' date => ?_
    rw [h.uid_eq hu, h'.uid_eq hu']
    exact ⟨hslot _ _ date hbar, hslot _ _ date hbar'⟩

end Customized

theorem isCustomized_standupText :
    IsCustomized standupText "standup" 1767600000000 [("Customized Time Zone", [3600])] :=
  ⟨parsedResource_standupText.1, parsedResource_standupText.2.1, parsedResource_standupText.2.2,
    by decide +kernel, rfl⟩

theorem isCustomized_planningText :
    IsCustomized planningText "planning" 1767600000000 [("Customized Time Zone", [3600])] :=
  ⟨parsedResource_planningText.1, parsedResource_planningText.2.1, parsedResource_planningText.2.2,
    by decide +kernel, rfl⟩

theorem isCustomized_reviewText :
    IsCustomized reviewText "review" 1767585600000 [("Customized Time Zone", [18000])] :=
  ⟨parsedResource_reviewText.1, parsedResource_reviewText.2.1, parsedResource_reviewText.2.2,
    by decide +kernel, rfl⟩

theorem mergedOffsets_pair {text text' name : String} {offsets offsets' : List ℤ}
    (h : resourceOffsets text = JsMap.ofList [(name, offsets)])
    (h' : resourceOffsets text' = JsMap.ofList [(name, offsets')]) :
    mergedOffsets [text, text'] = JsMap.ofList [(name, offsets')] := by
  have hentries : ∀ offsets : List ℤ, (JsMap.ofList [(name, offsets)]).entries = [(name, offsets)] :=
    fun offsets => JsMap.entries_ofList_of_nodup (List.nodup_singleton _)
  have hentries' : (JsMap.ofList [(name, offsets), (name, offsets')]).entries = [(name, offsets')] := by
    simp [JsMap.ofList, JsMap.set, JsMap.setEntry]
  rw [mergedOffsets, List.flatMap_cons, List.flatMap_singleton, h, h', hentries, hentries,
    List.singleton_append, ← JsMap.ofList_entries (JsMap.ofList [(name, offsets), (name, offsets')]),
    hentries']

end Example

theorem readsApart_iff_example :
    ReadsApart Example.customizedParser {} [Example.standupText, Example.planningText] := by
  obtain ⟨hreadable, huids, hslots⟩ := Example.haveDisjointUids_pair Example.isCustomized_standupText
    Example.isCustomized_planningText (by decide) (by decide) (by decide)
  refine (readsApart_iff Example.customizedParser {} [Example.standupText, Example.planningText] hreadable
    huids hslots).1 ?_
  have hmerged : mergedOffsets [Example.standupText, Example.planningText] =
      JsMap.ofList [("Customized Time Zone", [3600])] :=
    Example.mergedOffsets_pair Example.isCustomized_standupText.offsets
      Example.isCustomized_planningText.offsets
  have hown : ∀ s ∈ [Example.standupText, Example.planningText],
      resourceOffsets s = JsMap.ofList [("Customized Time Zone", [3600])] := by
    intro s hs
    rcases List.mem_pair.1 hs with rfl | rfl
    · exact Example.isCustomized_standupText.offsets
    · exact Example.isCustomized_planningText.offsets
  exact ⟨fun s hs e _ => by rw [hmerged, hown s hs], fun s hs uid => by rw [hmerged, hown s hs]⟩

/-- **A resource has the zone of another** that declares its name otherwise and is listed after it. -/
theorem not_readsApart :
    (∀ s ∈ [Example.standupText, Example.reviewText], IsReadableResource Example.customizedParser {} s) ∧
      HaveDisjointUids Example.customizedParser {} [Example.standupText, Example.reviewText] ∧
      HaveUncontinuedUids Example.customizedParser {} [Example.standupText, Example.reviewText] ∧
      ¬ ReadsApart Example.customizedParser {} [Example.standupText, Example.reviewText] := by
  obtain ⟨hreadable, huids, hslots⟩ := Example.haveDisjointUids_pair Example.isCustomized_standupText
    Example.isCustomized_reviewText (by decide) (by decide) (by decide)
  refine ⟨hreadable, huids, hslots, fun h => ?_⟩
  have hagree := offsetsAgree_of_readsApart hreadable huids hslots (by
    intro s hs
    rcases List.mem_pair.1 hs with rfl | rfl
    · exact Example.isCustomized_standupText.areDistinctEntries
    · exact Example.isCustomized_reviewText.areDistinctEntries) h
  have hsame := hagree.zones Example.standupText List.mem_cons_self
    (Example.customizedEntry "standup" 1767600000000)
    (by rw [Example.isCustomized_standupText.entries]; exact List.mem_singleton_self _)
  rw [Example.mergedOffsets_pair Example.isCustomized_standupText.offsets
    Example.isCustomized_reviewText.offsets, Example.isCustomized_standupText.offsets] at hsame
  exact absurd hsame (by decide +kernel)

end Keeper
