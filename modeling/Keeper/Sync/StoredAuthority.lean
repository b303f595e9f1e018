import Keeper.Sync.SourceAuthority

/-!
# Authority and what is stored

A source is ingested by full reads, which list what overlaps their window and record it, and by deltas,
which report the changes to what overlaps the recorded window and drop the rows outside their own. A
reconciliation takes an event that is absent from the rows of a source for deleted where its window of the
source holds it.

* `FullRead.holdsListing`, `FullRead.stored`, `DeltaRead.holdsListing`: what an ingestion leaves.
* `Reaches.isSettled`: the rows are those of what overlaps the recorded window and that of the last delta.
* `authority_isStored`: a reconciliation whose window begins no earlier than the last delta's finds a row for
  each event.
-/

namespace Keeper

open SqlTable

/-! ## Listings of providers -/

/-- The kinds of sources: those whose provider gives events ids, lists changes and expands series, and
feeds, which are read as a whole. -/
inductive SourceKind
  | oauth
  | feed
  deriving DecidableEq

/-- The event overlaps a window. A series is listed whenever its feed is. -/
def SourceEvent.overlaps (event : SourceEvent) (window : SyncWindow) : Bool :=
  event.recurrenceRule.isSome || window.overlaps ⟨event.startTime, event.endTime⟩

theorem SourceEvent.overlaps_of_within {event : SourceEvent} {w w' : SyncWindow} (h : w.Within w')
    (hoverlaps : event.overlaps w = true) : event.overlaps w' = true := by
  unfold overlaps at hoverlaps ⊢
  rw [Bool.or_eq_true] at hoverlaps ⊢
  exact hoverlaps.imp_right h.overlaps

structure ExpandedListing (ark : Arktype) (events : List SourceEvent) : Prop
    extends Listing ark events where
  expanded : ∀ e ∈ events, e.recurrenceRule = none

structure FeedListing (ark : Arktype) (events : List SourceEvent) : Prop
    extends SnapshotFeed ark events where
  anonymous : ∀ e ∈ events, e.sourceEventId = none

def ProviderListing (ark : Arktype) : SourceKind → List SourceEvent → Prop
  | .oauth => ExpandedListing ark
  | .feed => FeedListing ark

/-! ## Reads -/

section Reads

variable (rt : Runtime) (calendarId : String) (plan : SourceIngestionPlan)

/-- A full read lists the events that overlap its window, and has that window recorded. -/
structure FullRead (events : List SourceEvent) (fetchResult : FetchEventsResult) : Prop
    extends ComparedFetch rt calendarId fetchResult where
  isFull : fetchResult.isDeltaSync.getD false = false
  mem_events : ∀ e, e ∈ fetchResult.events ↔ e ∈ events ∧ e.overlaps plan.window = true
  coverage : fetchResult.coverage =
    some ⟨plan.futureRange.value, plan.historicRange.value, plan.window⟩

/-- A delta reports exactly the changes to the events that overlap the recorded window, of which those
outside its own window are filtered out. -/
structure DeltaRead (recorded : SyncWindow) (previous next : List SourceEvent)
    (fetchResult : FetchEventsResult) : Prop extends ComparedFetch rt calendarId fetchResult where
  isDelta : fetchResult.isDeltaSync.getD false = true
  syncWindow : fetchResult.syncWindow = some plan.window
  mem_events : ∀ e, e ∈ fetchResult.events ↔
    (e ∈ next ∧ e.overlaps recorded = true ∧ e ∉ previous) ∧ e.overlaps plan.window = true
  mem_changedEventIds : ∀ id, id ∈ fetchResult.changedEventIds.getD [] ↔
    ∃ e ∈ next, e.overlaps recorded = true ∧ e ∉ previous ∧ e.sourceEventId = some id
  mem_cancelledEventIds : ∀ id, id ∈ fetchResult.cancelledEventIds.getD [] ↔
    (∃ e ∈ previous, e.overlaps recorded = true ∧ e.sourceEventId = some id) ∧
      ∀ e ∈ next, e.overlaps recorded = true → e.sourceEventId ≠ some id
  coverage : fetchResult.coverage = none

end Reads

/-! ## Histories of a source -/

/-- A source, the events of its provider as its last ingestion has found them, the time of that, and the plan
of the last delta since the full read. -/
structure SourceHistory where
  source : IngestedSource
  listing : List SourceEvent
  ingestedAt : ℤ
  lastDelta : Option SourceIngestionPlan

section Histories

variable (fresh : List String → String) (rt : Runtime) (ark : Arktype) (kind : SourceKind)

/-- **The histories of a source**: it is created without rows, and ingested by full reads and by deltas,
these while its token is kept. A fetch that is told to start over drops the token. -/
inductive SourceHistory.Reaches : SourceHistory → Prop
  | created {calendar : SourceCalendar} {createdAt : ℤ} (uncovered : calendar.coverage = none) :
      Reaches ⟨⟨calendar, []⟩, [], createdAt, none⟩
  | full {s : SourceHistory} {now : ℤ} {required : RequiredSourceRanges} {plan : SourceIngestionPlan}
      {next : List SourceEvent} {fetchResult : FetchEventsResult} {source : IngestedSource}
      (reached : Reaches s) (later : s.ingestedAt ≤ now)
      (planned : createSourceIngestionPlan required now = .ok plan)
      (listing : ProviderListing ark kind next)
      (read : FullRead rt s.source.calendar.id plan next fetchResult)
      (persisted : persistIngestion fresh rt ark now s.source fetchResult = .ok source) :
      Reaches ⟨source, next, now, none⟩
  | delta {s : SourceHistory} {now : ℤ} {required : RequiredSourceRanges} {plan : SourceIngestionPlan}
      {coverage : IngestionCoverage} {next : List SourceEvent} {fetchResult : FetchEventsResult}
      {source : IngestedSource} (reached : Reaches s) (later : s.ingestedAt ≤ now)
      (planned : createSourceIngestionPlan required now = .ok plan) (oauth : kind = .oauth)
      (kept : (resolveOAuthIngestionState s.source.calendar.oauthIngestionState
        required).syncToken.isSome)
      (covered : s.source.calendar.coverage = some coverage)
      (listing : ProviderListing ark kind next)
      (read : DeltaRead rt s.source.calendar.id plan coverage.window s.listing next fetchResult)
      (persisted : persistIngestion fresh rt ark now s.source fetchResult = .ok source) :
      Reaches ⟨source, next, now, some plan⟩
  | restart {s : SourceHistory} {now : ℤ} {fetchResult : FetchEventsResult} {source : IngestedSource}
      (reached : Reaches s) (later : s.ingestedAt ≤ now)
      (changed : fetchResult.unchanged ≠ some true) (restarts : fetchResult.fullSyncRequired = some true)
      (persisted : persistIngestion fresh rt ark now s.source fetchResult = .ok source) :
      Reaches ⟨source, s.listing, now, s.lastDelta⟩

end Histories

/-- **An event of a listing is stored**: a row holds the version of it that an ingestion keeps. -/
def SourceHistory.IsStored (host : Host) (ark : Arktype) (s : SourceHistory) (e : SourceEvent) : Prop :=
  ∃ e' ∈ s.listing, e'.storageIdentity = e.storageIdentity ∧
    ∃ entry ∈ s.source.table, HoldsEvent host ark entry e'

/-! ## What full reads leave -/

section FullReads

variable {fresh : List String → String} {rt : Runtime} {ark : Arktype} {calendarId : String}
  {table : EventStatesTable} {plan : SourceIngestionPlan} {events : List SourceEvent}
  {fetchResult : FetchEventsResult}

theorem Listing.filter (h : Listing ark events) (p : SourceEvent → Bool) :
    Listing ark (events.filter p) where
  providerId e he := h.providerId e (List.mem_of_mem_filter he)
  distinct := h.distinct.sublist (List.filter_sublist.map _)
  allDay e he := h.allDay e (List.mem_of_mem_filter he)
  read e he := h.read e (List.mem_of_mem_filter he)

theorem FullRead.holdsListing (hfresh : ∀ ids, fresh ids ∉ ids) (hhost : rt.host.StableStringify)
    (hvalid : Valid eventStateIndexes table)
    (hcalendar : ∀ entry ∈ table, entry.content.calendarId = calendarId)
    (hlisting : Listing ark events) (hread : FullRead rt calendarId plan events fetchResult) :
    ∃ table', ingestCalendar fresh rt ark calendarId table fetchResult = .ok table' ∧
      HoldsListing rt.host ark calendarId table' (events.filter (·.overlaps plan.window)) := by
  refine holdsListing_snapshot hfresh hhost hvalid hcalendar (hlisting.filter _)
    ⟨hread.toComparedFetch, hread.isFull, fun e => ?_⟩
  rw [hread.mem_events, List.mem_filter]

/-- The ingestion of a full read of rows that parse is the flush of a snapshot. -/
theorem ingestCalendar_eq_flushSnapshot (hstored : KeyedStore ark calendarId table)
    (hread : FullRead rt calendarId plan events fetchResult) :
    ingestCalendar fresh rt ark calendarId table fetchResult =
      (flushSnapshot fresh rt.host ark table calendarId fetchResult.events).mapError .upsert := by
  have hfailures := failures_eq_nil hstored.calendar hstored.parses
  have hwindow : getNonRecurringStoredEventIdsOutsideWindow
      (parseStoredSourceEventStatesRecoveringInvalid ark (readEventStates table calendarId)).events
      fetchResult.syncWindow false = [] := by
    unfold getNonRecurringStoredEventIdsOutsideWindow
    split <;> rfl
  have hdeletes : deleteEventStates table calendarId (eventStateIdsToRemove fetchResult
      (parseStoredSourceEventStatesRecoveringInvalid ark (readEventStates table calendarId))) =
      deleteEventStates table calendarId (buildSourceEventStateIdsToRemove
        (readExistingEvents ark table calendarId) fetchResult.events {}) := by
    refine List.filter_congr fun entry _ => ?_
    have hsame : (eventStateIdsToRemove fetchResult (parseStoredSourceEventStatesRecoveringInvalid ark
        (readEventStates table calendarId))).contains entry.id =
        (buildSourceEventStateIdsToRemove (readExistingEvents ark table calendarId) fetchResult.events
          {}).contains entry.id := by
      unfold eventStateIdsToRemove
      dsimp only
      rw [hread.isFull, hwindow, hfailures, List.append_nil, buildInvalidStoredEventIdsToRemove,
        List.flatMap_nil, List.nil_append]
      simp only [List.contains_eq_mem, List.mem_eraseDups]
      rfl
    rw [hsame]
  rw [ingestCalendar_eq hread.toComparedFetch fun _ => hfailures, flushEventStates, hdeletes,
    hread.isFull]
  rfl

theorem FullRead.stored (hfresh : ∀ ids, fresh ids ∉ ids) (hhost : rt.host.StableStringify)
    (hstored : KeyedStore ark calendarId table) (hlisting : FeedListing ark events)
    (hread : FullRead rt calendarId plan events fetchResult) :
    ∃ table', ingestCalendar fresh rt ark calendarId table fetchResult = .ok table' ∧
      KeyedStore ark calendarId table' ∧
      ∀ e ∈ fetchResult.events, ∃ e' ∈ fetchResult.events, e'.storageIdentity = e.storageIdentity ∧
        ∃ entry ∈ table', HoldsEvent rt.host ark entry e' := by
  have hmem : ∀ e ∈ fetchResult.events, e ∈ events := fun e he => ((hread.mem_events e).1 he).1
  have hfeed : SnapshotFeed ark fetchResult.events :=
    ⟨Or.inr fun e he => hlisting.anonymous e (hmem e he), fun e he => hlisting.allDay e (hmem e he),
      fun e he => hlisting.duration e (hmem e he), fun e he => hlisting.read e (hmem e he)⟩
  obtain ⟨table', hrun, hkeyed, hreflects⟩ := flushSnapshot_ok hfresh hhost hstored hfeed
  refine ⟨table', ?_, hkeyed, fun e he => ?_⟩
  · rw [ingestCalendar_eq_flushSnapshot hstored hread, hrun]
    rfl
  · obtain ⟨e', he', hidentity⟩ := exists_mem_deduplicateIncomingEvents he
    have hkey := hreflects.mirrors.mem_iff.2 (List.mem_map_of_mem he')
    obtain ⟨entry, hentry, hholds⟩ := List.mem_map.1 hkey
    have hfetched := mem_of_mem_deduplicateIncomingEvents he'
    exact ⟨e', hfetched, hidentity, entry, hentry,
      HasIdentityOf.holdsEvent hhost (hfeed.allDay e' hfetched) hholds⟩

end FullReads

/-! ## What deltas leave -/

/-- The events of a listing that overlap the recorded window and that of the last delta. -/
def visibleEvents (recorded : SyncWindow) (lastDelta : Option SourceIngestionPlan)
    (listing : List SourceEvent) : List SourceEvent :=
  listing.filter fun e => e.overlaps recorded && lastDelta.all fun plan => e.overlaps plan.window

theorem mem_visibleEvents {recorded : SyncWindow} {lastDelta : Option SourceIngestionPlan}
    {listing : List SourceEvent} {e : SourceEvent} :
    e ∈ visibleEvents recorded lastDelta listing ↔
      e ∈ listing ∧ e.overlaps recorded = true ∧
        ∀ plan, lastDelta = some plan → e.overlaps plan.window = true := by
  rw [visibleEvents, List.mem_filter, Bool.and_eq_true]
  cases lastDelta <;> simp

section Deltas

variable {fresh : List String → String} {rt : Runtime} {ark : Arktype} {calendarId : String}
  {table : EventStatesTable} {plan : SourceIngestionPlan} {recorded : SyncWindow}
  {lastDelta : Option SourceIngestionPlan} {previous next : List SourceEvent}
  {fetchResult : FetchEventsResult}

theorem SourceEvent.overlaps_eq {e : SourceEvent} (h : e.recurrenceRule = none) (window : SyncWindow) :
    e.overlaps window = window.overlaps ⟨e.startTime, e.endTime⟩ := by
  rw [overlaps, h]
  rfl

/-- **A delta reports** what takes the visible events to the next ones, where the window of the last delta
begins no later than its own and ends no earlier than the recorded one. -/
theorem DeltaRead.reports (hprevious : ExpandedListing ark previous) (hnext : ExpandedListing ark next)
    (hread : DeltaRead rt calendarId plan recorded previous next fetchResult)
    (hlast : ∀ last, lastDelta = some last → last.window.timeMin ≤ plan.window.timeMin ∧
      recorded.timeMax ≤ last.window.timeMax) :
    ReportsDelta rt calendarId (visibleEvents recorded lastDelta previous)
      (visibleEvents recorded (some plan) next) fetchResult where
  toComparedFetch := hread.toComparedFetch
  isDelta := hread.isDelta
  listed e he := by
    obtain ⟨⟨hmem, hrecorded, -⟩, hplan⟩ := (hread.mem_events e).1 he
    exact mem_visibleEvents.2 ⟨hmem, hrecorded, fun _ hsome => Option.some.inj hsome ▸ hplan⟩
  reported e he := by
    obtain ⟨hmem, hrecorded, hplan⟩ := mem_visibleEvents.1 he
    have hplan := hplan plan rfl
    by_cases hold : e ∈ previous
    · refine Or.inl (mem_visibleEvents.2 ⟨hold, hrecorded, fun last hsome => ?_⟩)
      have hrule := hnext.expanded e hmem
      obtain ⟨hmin, hmax⟩ := hlast last hsome
      rw [SourceEvent.overlaps_eq hrule] at hrecorded hplan ⊢
      exact overlapsTimeWindow_between hrecorded hplan hmin hmax
    · exact Or.inr ((hread.mem_events e).2 ⟨⟨hmem, hrecorded, hold⟩, hplan⟩)
  changedIds id hid := by
    obtain ⟨e, hmem, hrecorded, hnew, heid⟩ := (hread.mem_changedEventIds id).1 hid
    by_cases hplan : e.overlaps plan.window = true
    · exact Or.inl ⟨e, (hread.mem_events e).2 ⟨⟨hmem, hrecorded, hnew⟩, hplan⟩, heid⟩
    · refine Or.inr fun e' he' heid' => ?_
      obtain ⟨hmem', -, hplan'⟩ := mem_visibleEvents.1 he'
      have hsame := hnext.eq_of_id hmem' hmem (heid'.trans heid.symm)
      exact hplan (hsame ▸ hplan' plan rfl)
  cancelledIds id hid e he := by
    obtain ⟨hmem, hrecorded, -⟩ := mem_visibleEvents.1 he
    exact ((hread.mem_cancelledEventIds id).1 hid).2 e hmem hrecorded
  gone e he id heid hgone := by
    obtain ⟨hmem, hrecorded, -⟩ := mem_visibleEvents.1 he
    by_cases hlisted : ∃ e' ∈ next, e'.overlaps recorded = true ∧ e'.sourceEventId = some id
    · obtain ⟨e', hmem', hrecorded', heid'⟩ := hlisted
      by_cases hold : e' ∈ previous
      · -- the event has stayed, and lies outside the window of the delta
        obtain rfl := hprevious.eq_of_id hold hmem (heid'.trans heid.symm)
        refine Or.inr (Or.inr ⟨plan.window, hread.syncWindow, hprevious.expanded e' hold, ?_⟩)
        rw [← Bool.not_eq_true]
        intro hplan
        refine hgone e' (mem_visibleEvents.2 ⟨hmem', hrecorded, fun _ hsome => ?_⟩) heid
        rw [← Option.some.inj hsome, SourceEvent.overlaps_eq (hprevious.expanded e' hold)]
        exact hplan
      · exact Or.inl ((hread.mem_changedEventIds id).2 ⟨e', hmem', hrecorded', hold, heid'⟩)
    · refine Or.inr (Or.inl ((hread.mem_cancelledEventIds id).2 ⟨⟨e, hmem, hrecorded, heid⟩, ?_⟩))
      exact fun e' hmem' hrecorded' heid' => hlisted ⟨e', hmem', hrecorded', heid'⟩
  window w hw e he hrule := by
    obtain rfl := Option.some.inj (hread.syncWindow.symm.trans hw)
    have hplan := (mem_visibleEvents.1 he).2.2 plan rfl
    rwa [SourceEvent.overlaps_eq hrule] at hplan

/-- **A delta leaves the rows** of what overlaps the recorded window and its own. -/
theorem DeltaRead.holdsListing (hfresh : ∀ ids, fresh ids ∉ ids) (hhost : rt.host.StableStringify)
    (hprevious : ExpandedListing ark previous) (hnext : ExpandedListing ark next)
    (hread : DeltaRead rt calendarId plan recorded previous next fetchResult)
    (hlast : ∀ last, lastDelta = some last → last.window.timeMin ≤ plan.window.timeMin ∧
      recorded.timeMax ≤ last.window.timeMax)
    (h : HoldsListing rt.host ark calendarId table (visibleEvents recorded lastDelta previous)) :
    ∃ table', ingestCalendar fresh rt ark calendarId table fetchResult = .ok table' ∧
      HoldsListing rt.host ark calendarId table' (visibleEvents recorded (some plan) next) :=
  holdsListing_delta hfresh hhost (hprevious.filter _) (hnext.filter _)
    (hread.reports hprevious hnext hlast) h

end Deltas

/-! ## Runs -/

/-- The windows of a history are those of the ranges that are recorded: the recorded one at the date of the
full read, that of the last delta at a later date. -/
def SourceHistory.IsPlanned (s : SourceHistory) (coverage : IngestionCoverage) : Prop :=
  ∃ (ranges : RequiredSourceRanges) (fullAt : ℤ),
    coverage.futureRange = ranges.futureRange.value ∧
      coverage.historicRange = ranges.historicRange.value ∧ fullAt ≤ s.ingestedAt ∧
      getConfigurableSyncWindow ranges.historicRange ranges.futureRange fullAt = .ok coverage.window ∧
      ∀ plan, s.lastDelta = some plan → ∃ deltaAt, fullAt ≤ deltaAt ∧ deltaAt ≤ s.ingestedAt ∧
        getConfigurableSyncWindow ranges.historicRange ranges.futureRange deltaAt = .ok plan.window

/-- **What holds of every history**: the rows of a source are those of its visible events. -/
structure SourceHistory.IsSettled (rt : Runtime) (ark : Arktype) (kind : SourceKind) (s : SourceHistory) :
    Prop where
  valid : Valid eventStateIndexes s.source.table
  calendar : ∀ entry ∈ s.source.table, entry.content.calendarId = s.source.calendar.id
  planned : ∀ coverage, s.source.calendar.coverage = some coverage → s.IsPlanned coverage
  oauth : kind = .oauth → ∀ coverage, s.source.calendar.coverage = some coverage →
    ExpandedListing ark s.listing ∧ HoldsListing rt.host ark s.source.calendar.id s.source.table
      (visibleEvents coverage.window s.lastDelta s.listing)
  feed : kind = .feed → KeyedStore ark s.source.calendar.id s.source.table ∧
    ∀ coverage, s.source.calendar.coverage = some coverage →
      ∀ e ∈ s.listing, e.overlaps coverage.window = true → s.IsStored rt.host ark e

theorem createSourceIngestionPlan_ok {ranges : RequiredSourceRanges} {now : ℤ}
    {plan : SourceIngestionPlan} (h : createSourceIngestionPlan ranges now = .ok plan) :
    plan.toRequiredSourceRanges = ranges ∧
      getConfigurableSyncWindow ranges.historicRange ranges.futureRange now = .ok plan.window := by
  unfold createSourceIngestionPlan at h
  cases hwindow : getConfigurableSyncWindow ranges.historicRange ranges.futureRange now with
  | error error =>
    rw [hwindow] at h
    cases h
  | ok window =>
    rw [hwindow] at h
    obtain rfl := Except.ok.inj h
    exact ⟨rfl, rfl⟩

section Runs

variable {fresh : List String → String} {rt : Runtime} {ark : Arktype} {kind : SourceKind}
  {s : SourceHistory} {now : ℤ} {required : RequiredSourceRanges} {plan : SourceIngestionPlan}
  {next : List SourceEvent} {fetchResult : FetchEventsResult} {source : IngestedSource}

theorem isSettled_created {calendar : SourceCalendar} (createdAt : ℤ)
    (huncovered : calendar.coverage = none) :
    SourceHistory.IsSettled rt ark kind ⟨⟨calendar, []⟩, [], createdAt, none⟩ where
  valid := ⟨List.nodup_nil, by simp⟩
  calendar _ hentry := absurd hentry List.not_mem_nil
  planned coverage hcoverage := by rw [huncovered] at hcoverage; cases hcoverage
  oauth _ coverage hcoverage := by rw [huncovered] at hcoverage; cases hcoverage
  feed _ := by
    refine ⟨⟨⟨⟨List.nodup_nil, by simp⟩, ?_, ?_, ?_⟩, ?_⟩, fun coverage hcoverage => ?_⟩
    · exact fun _ hentry => absurd hentry List.not_mem_nil
    · exact fun _ hentry => absurd hentry List.not_mem_nil
    · exact fun _ hentry => absurd hentry List.not_mem_nil
    · exact fun _ hentry => absurd hentry List.not_mem_nil
    · rw [huncovered] at hcoverage
      cases hcoverage

variable {coverage : IngestionCoverage}

theorem isPlanned_full (hplan : createSourceIngestionPlan required now = .ok plan)
    (hcoverage : coverage = ⟨plan.futureRange.value, plan.historicRange.value, plan.window⟩) :
    SourceHistory.IsPlanned ⟨source, next, now, none⟩ coverage := by
  obtain ⟨hranges, hwindow⟩ := createSourceIngestionPlan_ok hplan
  subst hcoverage
  refine ⟨plan.toRequiredSourceRanges, now, rfl, rfl, le_refl _, ?_, fun last hlast => by cases hlast⟩
  rw [hranges]
  exact hwindow

theorem isSettled_full (hfresh : ∀ ids, fresh ids ∉ ids) (hhost : rt.host.StableStringify)
    (h : s.IsSettled rt ark kind) (hplan : createSourceIngestionPlan required now = .ok plan)
    (hlisting : ProviderListing ark kind next)
    (hread : FullRead rt s.source.calendar.id plan next fetchResult)
    (hpersisted : persistIngestion fresh rt ark now s.source fetchResult = .ok source) :
    SourceHistory.IsSettled rt ark kind ⟨source, next, now, none⟩ := by
  have hparses : fetchResult.isDeltaSync.getD false = true →
      (parseStoredSourceEventStatesRecoveringInvalid ark
        (readEventStates s.source.table s.source.calendar.id)).failures = [] := by
    rw [hread.isFull]
    exact fun hfalse => by cases hfalse
  obtain ⟨hrun, hid, hcoverage⟩ := persistIngestion_ok hread.toComparedFetch hparses hpersisted
  rw [hread.coverage, Option.some_or] at hcoverage
  have hplanned : ∀ coverage, source.calendar.coverage = some coverage →
      SourceHistory.IsPlanned ⟨source, next, now, none⟩ coverage ∧ coverage.window = plan.window := by
    intro coverage hsome
    obtain rfl := Option.some.inj (hcoverage.symm.trans hsome)
    exact ⟨isPlanned_full hplan rfl, rfl⟩
  have hvisible : visibleEvents plan.window none next = next.filter (·.overlaps plan.window) := by
    simp [visibleEvents]
  cases kind with
  | oauth =>
    have hexpanded : ExpandedListing ark next := hlisting
    obtain ⟨table', hrun', hholds⟩ := hread.holdsListing hfresh hhost h.valid h.calendar
      hexpanded.toListing
    obtain rfl := Except.ok.inj (hrun.symm.trans hrun')
    refine ⟨hholds.valid, ?_, fun coverage hsome => (hplanned coverage hsome).1, fun _ coverage hsome =>
      ⟨hexpanded, ?_⟩, fun hkind => by cases hkind⟩
    · rw [hid]
      exact hholds.calendar
    · rw [(hplanned coverage hsome).2, hid, hvisible]
      exact hholds
  | feed =>
    have hfeed : FeedListing ark next := hlisting
    obtain ⟨table', hrun', hkeyed, hstored⟩ := hread.stored hfresh hhost (h.feed rfl).1 hfeed
    obtain rfl := Except.ok.inj (hrun.symm.trans hrun')
    refine ⟨hkeyed.valid, ?_, fun coverage hsome => (hplanned coverage hsome).1,
      (fun hkind => by cases hkind), fun _ => ⟨?_, fun coverage hsome e he hoverlaps => ?_⟩⟩
    · rw [hid]
      exact hkeyed.calendar
    · rw [hid]
      exact hkeyed
    · rw [(hplanned coverage hsome).2] at hoverlaps
      obtain ⟨e', he', hidentity, hentry⟩ := hstored e ((hread.mem_events e).2 ⟨he, hoverlaps⟩)
      exact ⟨e', ((hread.mem_events e').1 he').1, hidentity, hentry⟩

theorem isPlanned_delta (hlater : s.ingestedAt ≤ now) (hplan : createSourceIngestionPlan required now = .ok plan)
    (hkept : (resolveOAuthIngestionState s.source.calendar.oauthIngestionState required).syncToken.isSome)
    (hcovered : s.source.calendar.coverage = some coverage) (h : s.IsPlanned coverage) :
    SourceHistory.IsPlanned ⟨source, next, now, some plan⟩ coverage ∧
      coverage.window.timeMax ≤ plan.window.timeMax ∧
      ∀ last, s.lastDelta = some last → last.window.timeMin ≤ plan.window.timeMin ∧
        coverage.window.timeMax ≤ last.window.timeMax := by
  obtain ⟨ranges, fullAt, hfuture, hhistoric, hfullAt, hwindow, hlast⟩ := h
  obtain ⟨-, hdelta⟩ := createSourceIngestionPlan_ok hplan
  obtain ⟨hsameHistoric, hsameFuture, -⟩ := resolveOAuthIngestionState_syncToken hkept
  have hcolumns := SourceCalendar.coverage_columns hcovered
  have hhistoricRange : required.historicRange = ranges.historicRange :=
    SyncRange.value_injective (hsameHistoric.trans (hcolumns.1.trans hhistoric))
  have hfutureRange : required.futureRange = ranges.futureRange :=
    SyncRange.value_injective (hsameFuture.trans (hcolumns.2.trans hfuture))
  rw [hhistoricRange, hfutureRange] at hdelta
  have hdays : ∀ {from' until' : ℤ}, from' ≤ until' → from' / 86400000 ≤ until' / 86400000 :=
    fun hle => Int.ediv_le_ediv (by decide) hle
  have hend := getConfigurableSyncWindow_mono (hdays (hfullAt.trans hlater)) hwindow hdelta
  refine ⟨⟨ranges, fullAt, hfuture, hhistoric, hfullAt.trans hlater, hwindow, fun last hsome => ?_⟩,
    hend.2, fun last hsome => ?_⟩
  · obtain rfl := Option.some.inj hsome
    exact ⟨now, hfullAt.trans hlater, le_refl _, hdelta⟩
  · obtain ⟨deltaAt, hafter, hbefore, hlastWindow⟩ := hlast last hsome
    exact ⟨(getConfigurableSyncWindow_mono (hdays (hbefore.trans hlater)) hlastWindow hdelta).1,
      (getConfigurableSyncWindow_mono (hdays hafter) hwindow hlastWindow).2⟩

theorem isSettled_delta (hfresh : ∀ ids, fresh ids ∉ ids) (hhost : rt.host.StableStringify)
    (h : s.IsSettled rt ark .oauth) (hlater : s.ingestedAt ≤ now)
    (hplan : createSourceIngestionPlan required now = .ok plan)
    (hkept : (resolveOAuthIngestionState s.source.calendar.oauthIngestionState required).syncToken.isSome)
    (hcovered : s.source.calendar.coverage = some coverage) (hlisting : ExpandedListing ark next)
    (hread : DeltaRead rt s.source.calendar.id plan coverage.window s.listing next fetchResult)
    (hpersisted : persistIngestion fresh rt ark now s.source fetchResult = .ok source) :
    SourceHistory.IsSettled rt ark .oauth ⟨source, next, now, some plan⟩ := by
  obtain ⟨hprevious, hholds⟩ := h.oauth rfl coverage hcovered
  have hparses := failures_eq_nil hholds.calendar hholds.parses
  obtain ⟨hrun, hid, hcoverage⟩ := persistIngestion_ok hread.toComparedFetch (fun _ => hparses)
    hpersisted
  rw [hread.coverage, Option.none_or, hcovered] at hcoverage
  obtain ⟨hplanned, -, hlast⟩ := isPlanned_delta hlater hplan hkept hcovered (h.planned coverage hcovered)
  obtain ⟨table', hrun', hheld⟩ := hread.holdsListing hfresh hhost hprevious hlisting hlast hholds
  obtain rfl := Except.ok.inj (hrun.symm.trans hrun')
  refine ⟨hheld.valid, ?_, fun recorded hsome => ?_, fun _ recorded hsome => ?_, fun hkind => by cases hkind⟩
  · rw [hid]
    exact hheld.calendar
  · obtain rfl := Option.some.inj (hcoverage.symm.trans hsome)
    exact hplanned
  · obtain rfl := Option.some.inj (hcoverage.symm.trans hsome)
    refine ⟨hlisting, ?_⟩
    rw [hid]
    exact hheld

theorem isSettled_restart (h : s.IsSettled rt ark kind) (hlater : s.ingestedAt ≤ now)
    (hchanged : fetchResult.unchanged ≠ some true)
    (hrestarts : fetchResult.fullSyncRequired = some true)
    (hpersisted : persistIngestion fresh rt ark now s.source fetchResult = .ok source) :
    SourceHistory.IsSettled rt ark kind ⟨source, s.listing, now, s.lastDelta⟩ := by
  obtain ⟨htable, hid, hcoverage⟩ := persistIngestion_restart hchanged hrestarts hpersisted
  refine ⟨?_, ?_, fun coverage hsome => ?_, fun hkind coverage hsome => ?_, fun hkind => ⟨?_, ?_⟩⟩
  · rw [htable]
    exact h.valid
  · rw [htable, hid]
    exact h.calendar
  · rw [hcoverage] at hsome
    obtain ⟨ranges, fullAt, hfuture, hhistoric, hfullAt, hwindow, hlast⟩ := h.planned coverage hsome
    refine ⟨ranges, fullAt, hfuture, hhistoric, hfullAt.trans hlater, hwindow, fun last hlastSome => ?_⟩
    obtain ⟨deltaAt, hafter, hbefore, hlastWindow⟩ := hlast last hlastSome
    exact ⟨deltaAt, hafter, hbefore.trans hlater, hlastWindow⟩
  · rw [hcoverage] at hsome
    rw [htable, hid]
    exact h.oauth hkind coverage hsome
  · rw [htable, hid]
    exact (h.feed hkind).1
  · intro coverage hsome e he hoverlaps
    rw [hcoverage] at hsome
    obtain ⟨e', he', hidentity, entry, hentry, hheld⟩ := (h.feed hkind).2 coverage hsome e he hoverlaps
    exact ⟨e', he', hidentity, entry, htable ▸ hentry, hheld⟩

/-- **Every history is settled.** -/
theorem SourceHistory.Reaches.isSettled (hfresh : ∀ ids, fresh ids ∉ ids)
    (hhost : rt.host.StableStringify) (h : SourceHistory.Reaches fresh rt ark kind s) :
    s.IsSettled rt ark kind := by
  induction h with
  | created uncovered => exact isSettled_created _ uncovered
  | full reached later planned listing read persisted ih =>
    exact isSettled_full hfresh hhost ih planned listing read persisted
  | delta reached later planned oauth kept covered listing read persisted ih =>
    subst oauth
    exact isSettled_delta hfresh hhost ih later planned kept covered listing read persisted
  | restart reached later changed restarts persisted ih =>
    exact isSettled_restart ih later changed restarts persisted

end Runs

/-! ## Reconciliations -/

/-- A reconciliation: what it requests, the windows of its sources before the remote read, and the rows of
the calendars at the local read. -/
structure ReconciliationRun where
  sourceCalendarIds : List String
  historicRange : SyncRange
  futureRange : SyncRange
  requestedAt : ℤ
  initialSourceWindows : JsMap String SyncWindow
  calendars : List SourceCalendar
  readAt : ℤ

namespace ReconciliationRun

def requestedWindow (r : ReconciliationRun) : Except RangeError SyncWindow :=
  getConfigurableSyncWindow r.historicRange r.futureRange r.requestedAt

def authoritativeSourceWindows (r : ReconciliationRun) (requested : SyncWindow) : JsMap String SyncWindow :=
  narrowSourceAuthority r.initialSourceWindows
    (resolveSourceAuthority r.calendars r.sourceCalendarIds requested).sourceWindows

/-- **The reconciliation reads the source**: the local read follows its last ingestion, and takes its rows to
be complete in the window. -/
structure Reads (r : ReconciliationRun) (s : SourceHistory) (requested window : SyncWindow) : Prop where
  current : ∀ calendar ∈ r.calendars, calendar.id = s.source.calendar.id → calendar = s.source.calendar
  requestedBefore : r.requestedAt ≤ r.readAt
  ingestedBefore : s.ingestedAt ≤ r.readAt
  requests : r.requestedWindow = .ok requested
  authoritative : (r.authoritativeSourceWindows requested).get? s.source.calendar.id = some window

/-- The ranges of the destination are within those of the last delta. -/
def IsWithinRanges (r : ReconciliationRun) (s : SourceHistory) : Prop :=
  ∀ plan, s.lastDelta = some plan →
    r.historicRange.order ≤ plan.historicRange.order ∧ r.futureRange.order ≤ plan.futureRange.order

end ReconciliationRun

/-- The window of a reconciliation lies in the requested one and in the recorded one. -/
theorem ReconciliationRun.Reads.within {r : ReconciliationRun} {s : SourceHistory}
    {requested window : SyncWindow} (h : r.Reads s requested window) :
    ∃ coverage, s.source.calendar.coverage = some coverage ∧ window.Within requested ∧
      window.Within coverage.window := by
  obtain ⟨current, hcurrent, hnarrowed⟩ := narrowSourceAuthority_within h.authoritative
  obtain ⟨calendar, hcalendar, hid, coverage, hcoverage, hrequested, hrecorded⟩ :=
    sourceWindow_spec hcurrent
  obtain rfl := h.current calendar hcalendar hid
  exact ⟨coverage, hcoverage, hnarrowed.trans hrequested, hnarrowed.trans hrecorded⟩

/-- The window of the last delta ends no earlier than the recorded one. -/
theorem SourceHistory.IsPlanned.timeMax_le {s : SourceHistory} {coverage : IngestionCoverage}
    (h : s.IsPlanned coverage) {plan : SourceIngestionPlan} (hlast : s.lastDelta = some plan) :
    coverage.window.timeMax ≤ plan.window.timeMax := by
  obtain ⟨ranges, fullAt, -, -, -, hwindow, hdelta⟩ := h
  obtain ⟨deltaAt, hafter, -, hplan⟩ := hdelta plan hlast
  exact (getConfigurableSyncWindow_mono (Int.ediv_le_ediv (by decide) hafter) hwindow hplan).2

/-- **Authority does not outrun what is stored** where the window of the last delta begins no later than
the requested or the recorded one. -/
theorem authority_isStored {fresh : List String → String} {rt : Runtime} {ark : Arktype}
    {kind : SourceKind} (hfresh : ∀ ids, fresh ids ∉ ids) (hhost : rt.host.StableStringify)
    {s : SourceHistory} (hreached : SourceHistory.Reaches fresh rt ark kind s) {r : ReconciliationRun}
    {requested window : SyncWindow} (hreads : r.Reads s requested window)
    (hbegins : ∀ plan, s.lastDelta = some plan → plan.window.timeMin ≤ requested.timeMin ∨
      ∀ coverage, s.source.calendar.coverage = some coverage →
        plan.window.timeMin ≤ coverage.window.timeMin) :
    ∀ e ∈ s.listing, e.overlaps window = true → s.IsStored rt.host ark e := by
  intro e he hoverlaps
  have hsettled := hreached.isSettled hfresh hhost
  obtain ⟨coverage, hcoverage, hrequested, hrecorded⟩ := hreads.within
  cases kind with
  | feed =>
    exact (hsettled.feed rfl).2 coverage hcoverage e he (SourceEvent.overlaps_of_within hrecorded hoverlaps)
  | oauth =>
    obtain ⟨-, hholds⟩ := hsettled.oauth rfl coverage hcoverage
    have hvisible : e ∈ visibleEvents coverage.window s.lastDelta s.listing := by
      refine mem_visibleEvents.2 ⟨he, SourceEvent.overlaps_of_within hrecorded hoverlaps,
        fun plan hlast => SourceEvent.overlaps_of_within ⟨?_, ?_⟩ hoverlaps⟩
      · rcases hbegins plan hlast with hbefore | hbefore
        · exact hbefore.trans hrequested.1
        · exact (hbefore coverage hcoverage).trans hrecorded.1
      · exact hrecorded.2.trans ((hsettled.planned coverage hcoverage).timeMax_le hlast)
    exact ⟨e, he, rfl, hholds.events e hvisible⟩

namespace Example

def weekSource : SourceCalendar :=
  { id := "calendar", ingestFutureRange := "12_months", ingestHistoricRange := "1_month" }

def weekPlan (today : ℤ) : SourceIngestionPlan :=
  { historicRange := .oneWeek, futureRange := .oneWeek
    window := ⟨(today - 7) * 86400000, (today + 7) * 86400000⟩ }

def readSource : SourceCalendar where
  id := "calendar"
  ingestFutureRange := "1_week"
  ingestHistoricRange := "1_week"
  ingestWindowEnd := some 1209600000
  ingestWindowRecordedAt := some 604800000
  ingestWindowStart := some 0
  syncToken := some "token"

def readTable : EventStatesTable := [⟨"x", buildEventStateInsertRow "calendar" (providerMeeting "a")⟩]

def fullFetch : FetchEventsResult where
  events := [providerMeeting "a"]
  nextSyncToken := some "token"
  coverage := some ⟨"1_week", "1_week", (weekPlan 7).window⟩

/-- A delta without changes. -/
def quietFetch (today : ℤ) : FetchEventsResult where
  events := []
  nextSyncToken := some "token"
  isDeltaSync := some true
  syncWindow := some (weekPlan today).window

theorem expandedListing_meeting : ExpandedListing arktype [providerMeeting "a"] where
  toListing := listing_meetings (by decide) (by decide)
  expanded := by decide

theorem fullRead_fullFetch :
    FullRead ingestRuntime "calendar" (weekPlan 7) [providerMeeting "a"] fullFetch where
  ingested := rfl
  changed := by decide
  incremental := by decide
  isFull := rfl
  mem_events e := by
    refine ⟨fun he => ⟨he, ?_⟩, And.left⟩
    rw [List.mem_singleton.1 he]
    decide +kernel
  coverage := rfl

theorem deltaRead_quietFetch (today : ℤ) (recorded : SyncWindow) (events : List SourceEvent) :
    DeltaRead ingestRuntime "calendar" (weekPlan today) recorded events events (quietFetch today) where
  ingested := rfl
  changed := by
    intro h
    cases h
  incremental := by
    intro h
    cases h
  isDelta := rfl
  syncWindow := rfl
  mem_events e := ⟨fun he => (List.not_mem_nil he).elim, fun ⟨⟨he, _, hnew⟩, _⟩ => absurd he hnew⟩
  mem_changedEventIds id := ⟨fun hid => (List.not_mem_nil hid).elim, fun ⟨_, he, _, hnew, _⟩ =>
    absurd he hnew⟩
  mem_cancelledEventIds id := ⟨fun hid => (List.not_mem_nil hid).elim,
    fun ⟨⟨e, he, hrecorded, hid⟩, hgone⟩ => absurd hid (hgone e he hrecorded)⟩
  coverage := rfl

/-- A source that a delta without changes follows, on the day of its full read or on the next. -/
theorem reaches_quiet {today deltaAt : ℤ} {table : EventStatesTable} (hlater : 604800000 ≤ deltaAt)
    (hplan : createSourceIngestionPlan ⟨.oneWeek, .oneWeek⟩ deltaAt = .ok (weekPlan today))
    (hpersisted : persistIngestion longerId ingestRuntime arktype deltaAt ⟨readSource, readTable⟩
      (quietFetch today) = .ok ⟨readSource, table⟩) :
    SourceHistory.Reaches longerId ingestRuntime arktype .oauth
      ⟨⟨readSource, table⟩, [providerMeeting "a"], deltaAt, some (weekPlan today)⟩ := by
  have hcreated : SourceHistory.Reaches longerId ingestRuntime arktype .oauth
      ⟨⟨weekSource, []⟩, [], 0, none⟩ := .created rfl
  have hweek : createSourceIngestionPlan ⟨.oneWeek, .oneWeek⟩ 604800000 = .ok (weekPlan 7) := rfl
  have hfull : SourceHistory.Reaches longerId ingestRuntime arktype .oauth
      ⟨⟨readSource, readTable⟩, [providerMeeting "a"], 604800000, none⟩ :=
    .full hcreated (by decide) hweek expandedListing_meeting fullRead_fullFetch rfl
  exact .delta hfull hlater hplan rfl rfl rfl expandedListing_meeting
    (deltaRead_quietFetch today _ _) hpersisted

/-- A reconciliation that has requested its window on the day of the full read. -/
def eveningRun (readAt : ℤ) : ReconciliationRun where
  sourceCalendarIds := ["calendar"]
  historicRange := .oneWeek
  futureRange := .oneWeek
  requestedAt := 691199000
  initialSourceWindows := (resolveSourceAuthority [readSource] ["calendar"] (weekPlan 7).window).sourceWindows
  calendars := [readSource]
  readAt

theorem reads_eveningRun {readAt deltaAt : ℤ} {table : EventStatesTable} {events : List SourceEvent}
    {lastDelta : Option SourceIngestionPlan} (hrequested : 691199000 ≤ readAt)
    (hingested : deltaAt ≤ readAt) :
    (eveningRun readAt).Reads ⟨⟨readSource, table⟩, events, deltaAt, lastDelta⟩ (weekPlan 7).window
      (weekPlan 7).window where
  current _ hcalendar _ := List.mem_singleton.1 hcalendar
  requestedBefore := hrequested
  ingestedBefore := hingested
  requests := rfl
  authoritative := rfl

end Example

theorem authority_isStored_example :
    SourceHistory.IsStored Example.ingestRuntime.host Example.arktype
      ⟨⟨Example.readSource, Example.readTable⟩, [Example.providerMeeting "a"], 691199500,
        some (Example.weekPlan 7)⟩ (Example.providerMeeting "a") := by
  refine authority_isStored Example.longerId_not_mem Example.printingHost_stableStringify
    (Example.reaches_quiet (by decide) rfl rfl) (r := Example.eveningRun 691200000)
    (Example.reads_eveningRun (by decide) (by decide)) (fun plan hlast => Or.inl ?_) _
    (List.mem_singleton_self _) (by decide +kernel)
  rw [← Option.some.inj hlast]

/-- **The first delta of a day drops rows** in a window that was requested on the day before. -/
theorem not_authority_isStored :
    ∃ (s : SourceHistory) (r : ReconciliationRun) (requested window : SyncWindow) (e : SourceEvent),
      SourceHistory.Reaches Example.longerId Example.ingestRuntime Example.arktype .oauth s ∧
        r.Reads s requested window ∧ r.IsWithinRanges s ∧ e ∈ s.listing ∧ e.overlaps window = true ∧
        ¬ s.IsStored Example.ingestRuntime.host Example.arktype e := by
  refine ⟨⟨⟨Example.readSource, []⟩, [Example.providerMeeting "a"], 691200500,
    some (Example.weekPlan 8)⟩, Example.eveningRun 691201000, (Example.weekPlan 7).window,
    (Example.weekPlan 7).window, Example.providerMeeting "a", Example.reaches_quiet (by decide) rfl rfl,
    Example.reads_eveningRun (by decide) (by decide), ?_, List.mem_singleton_self _, by decide +kernel, ?_⟩
  · intro plan hlast
    obtain rfl := Option.some.inj hlast
    exact ⟨le_refl _, le_refl _⟩
  · rintro ⟨e', -, -, entry, hentry, -⟩
    exact List.not_mem_nil hentry

end Keeper
