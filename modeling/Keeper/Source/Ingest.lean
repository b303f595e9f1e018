import Keeper.Recurrence.Materializer
import Keeper.Source.EventDiff

/-!
# Ingesting a source calendar

`core/sync-engine/ingest.ts`: what one ingestion flushes. Events whose uid the fetch could not
support, and series over the recurrence budget, are withheld from the additions; removals are
computed against the whole fetch. Wide events and timers are left out.

* `mem_deletes_snapshot_iff`: what a snapshot ingestion deletes.
* `keepsWithheldSeries_iff`: withholding a series keeps its stored masters exactly when the fetch
  still reports each of them under its provider id or at its own slot.
-/

namespace Keeper

/-! ## Fetches and changes -/

structure CalendarSnapshotChange where
  contentHash : String
  ical : String
  deriving DecidableEq

/-- The `coverage` of a fetch. -/
structure IngestionCoverage where
  futureRange : String
  historicRange : String
  window : SyncWindow
  deriving DecidableEq

/-- `FetchEventsResult`, without its tallies. -/
structure FetchEventsResult where
  events : List SourceEvent
  changedEventIds : Option (List String) := none
  snapshot : Option CalendarSnapshotChange := none
  nextSyncToken : Option String := none
  cancelledEventIds : Option (List String) := none
  isDeltaSync : Option Bool := none
  fullSyncRequired : Option Bool := none
  unchanged : Option Bool := none
  unsupportedEventUids : Option (List String) := none
  syncWindow : Option SyncWindow := none
  coverage : Option IngestionCoverage := none

/-- `IngestionChanges`: what one flush writes. -/
structure IngestionChanges where
  inserts : List SourceEvent
  deletes : List String
  snapshot : Option CalendarSnapshotChange := none
  syncToken : Nullish String := .undefined
  coverage : Option IngestionCoverage := none
  deriving DecidableEq

structure IngestionResult where
  eventsAdded : ℕ := 0
  eventsRemoved : ℕ := 0
  deriving DecidableEq

structure IngestionOutcome where
  flushed : Option IngestionChanges := none
  result : IngestionResult := {}
  deriving DecidableEq

inductive CurrencyProbeResult
  | current
  | currencyUnconfirmed
  | superseded
  deriving DecidableEq

/-! ## Withholding -/

section Withholding

variable (rt : Runtime) (calendarId : String)

def SourceEvent.budgetMaster (event : SourceEvent) : SyncableEvent where
  calendarId := calendarId
  endTime := event.endTime
  id := event.sourceEventId.getD event.uid
  recurrenceRule := event.recurrenceRule
  recurrenceDuration := event.recurrenceDuration
  sourceEventUid := event.uid
  startTime := event.startTime
  summary := event.title.getD ""
  startTimeZone := truthy event.startTimeZone

/-- One iteration of `findSourceEventsExceedingRecurrenceBudget`. -/
def exceedsRecurrenceBudget (window : SyncWindow) (event : SourceEvent) :
    Except MaterializationError Bool :=
  if event.recurrenceRule.isNone || event.recurrenceId.isSome then .ok false
  else
    let validationStart := if window.timeMin < event.startTime then event.startTime
      else window.timeMin
    if window.timeMax ≤ validationStart then .ok false
    else
      match materializeMaster rt (event.budgetMaster calendarId) []
          ⟨validationStart, window.timeMax⟩ with
      | .ok _ => .ok false
      | .error (.limit _) => .ok true
      | .error error => .error error

def findSourceEventsExceedingRecurrenceBudget (events : List SourceEvent) (window : SyncWindow) :
    Except MaterializationError (List SourceEvent) := do
  assertValidWindow window
  events.filterM (exceedsRecurrenceBudget rt calendarId window)

def supportedSourceEvents (fetchResult : FetchEventsResult) : List SourceEvent :=
  fetchResult.events.filter fun event =>
    !(fetchResult.unsupportedEventUids.getD []).contains event.uid

/-- The fetched masters that are withheld because of their budget. -/
def overBudgetSourceEvents (fetchResult : FetchEventsResult) :
    Except MaterializationError (List SourceEvent) :=
  let sourceEvents := supportedSourceEvents fetchResult
  if sourceEvents.any (·.recurrenceRule.isSome) then
    match fetchResult.syncWindow with
    | none => .error (.range "Recurring source ingestion requires an explicit sync window")
    | some recurrenceWindow =>
      findSourceEventsExceedingRecurrenceBudget rt calendarId sourceEvents recurrenceWindow
  else .ok []

/-- The events that an ingestion may add: the supported ones within budget. -/
def ingestedSourceEvents (fetchResult : FetchEventsResult) :
    Except MaterializationError (List SourceEvent) := do
  let overBudget ← overBudgetSourceEvents rt calendarId fetchResult
  return (supportedSourceEvents fetchResult).filter fun event =>
    !(overBudget.map (·.uid)).contains event.uid

end Withholding

/-! ## The diff of an ingestion -/

def getNonRecurringStoredEventIdsOutsideWindow (events : List ExistingSourceEventState)
    (window : Option SyncWindow) (isDeltaSync : Bool) : List String :=
  match window with
  | none => []
  | some window =>
    if isDeltaSync then
      (events.filter fun event => event.recurrenceRule.isNone &&
        !overlapsTimeWindow ⟨event.startTime, event.endTime⟩ window.timeMin window.timeMax).map
        (·.id)
    else []

section Ingestion

variable (host : Host) (ark : Arktype)

/-- The rows that an ingestion deletes. -/
def eventStateIdsToRemove (fetchResult : FetchEventsResult)
    (parseResult : StoredSourceEventParseResult) : List String :=
  let isDeltaSync := fetchResult.isDeltaSync.getD false
  (buildInvalidStoredEventIdsToRemove parseResult.failures fetchResult.events ++
    getNonRecurringStoredEventIdsOutsideWindow parseResult.events fetchResult.syncWindow
      isDeltaSync ++
    buildSourceEventStateIdsToRemove parseResult.events fetchResult.events
      { changedEventIds := fetchResult.changedEventIds
        cancelledEventIds := fetchResult.cancelledEventIds
        isDeltaSync := isDeltaSync }).eraseDups

/-- `persistenceWork`, from where it has read the stored rows. -/
def persistDiff (fetchResult : FetchEventsResult) (sourceEvents : List SourceEvent)
    (storedEvents : List StoredSourceEventState) : IngestionOutcome :=
  let isDeltaSync := fetchResult.isDeltaSync.getD false
  let parseResult := parseStoredSourceEventStatesRecoveringInvalid ark storedEvents
  if isDeltaSync && !parseResult.failures.isEmpty then
    { flushed := some { inserts := [], deletes := [], syncToken := .null } }
  else
    let eventsToAdd := buildSourceEventsToAdd host parseResult.events sourceEvents
      { isDeltaSync := isDeltaSync }
    let eventStateIdsToRemove := eventStateIdsToRemove fetchResult parseResult
    if eventsToAdd.isEmpty && eventStateIdsToRemove.isEmpty then
      if (truthy fetchResult.nextSyncToken).isSome || fetchResult.snapshot.isSome ||
          fetchResult.coverage.isSome then
        { flushed := some
            { inserts := []
              deletes := []
              syncToken := .ofOptional (truthy fetchResult.nextSyncToken)
              snapshot := fetchResult.snapshot
              coverage := fetchResult.coverage } }
      else {}
    else
      { flushed := some
          { inserts := eventsToAdd
            deletes := eventStateIdsToRemove
            syncToken := .ofOptional fetchResult.nextSyncToken
            snapshot := fetchResult.snapshot
            coverage := fetchResult.coverage }
        result := ⟨eventsToAdd.length, eventStateIdsToRemove.length⟩ }

/-- `persistenceWork`, once its probe has answered. -/
def persistenceWork (fetchResult : FetchEventsResult) (sourceEvents : List SourceEvent)
    (storedEvents : List StoredSourceEventState) : IngestionOutcome :=
  if fetchResult.unchanged = some true then {}
  else if fetchResult.fullSyncRequired = some true then
    { flushed := some { inserts := [], deletes := [], syncToken := .null } }
  else persistDiff host ark fetchResult sourceEvents storedEvents

/-- `ingestSource`, from its fetch and the answers of its two currency probes. -/
def ingestSource (rt : Runtime) (calendarId : String) (fetchResult : FetchEventsResult)
    (preEnqueueCurrency persistCurrency : CurrencyProbeResult)
    (storedEvents : List StoredSourceEventState) :
    Except MaterializationError IngestionOutcome := do
  let sourceEvents ← ingestedSourceEvents rt calendarId fetchResult
  if preEnqueueCurrency ≠ .current then return {}
  else if persistCurrency ≠ .current then return {}
  else return persistenceWork rt.host ark fetchResult sourceEvents storedEvents

end Ingestion

/-! ## What an ingestion deletes -/

section Snapshot

variable {ark : Arktype} {fetchResult : FetchEventsResult}
  {storedEvents : List StoredSourceEventState}

variable {row : StoredSourceEventState} {existing : ExistingSourceEventState}

/-- A row that parses is not among those that are deleted because they do not. -/
theorem not_mem_buildInvalidStoredEventIdsToRemove (hids : (storedEvents.map (·.id)).Nodup)
    (hrow : row ∈ storedEvents) (hparse : (parsedRow ark row).isSome) (events : List SourceEvent) :
    row.id ∉ buildInvalidStoredEventIdsToRemove
      (parseStoredSourceEventStatesRecoveringInvalid ark storedEvents).failures events := by
  intro hmem
  obtain ⟨failure, hfailure, hmem⟩ := List.mem_flatMap.1 hmem
  obtain ⟨hstored, hnone, hfid⟩ := mem_failures_parseRecovering hfailure
  have heq : row.id = failure.eventId := by
    split at hmem
    · split_ifs at hmem
      · cases hmem
      · exact List.mem_singleton.1 hmem
    · split at hmem
      · exact List.mem_singleton.1 hmem
      · split_ifs at hmem
        · cases hmem
        · exact List.mem_singleton.1 hmem
  have hsame := List.inj_on_of_nodup_map hids hstored hrow (by rw [heq, hfid])
  rw [← hsame, hnone] at hparse
  cases hparse

/-- The parsed rows of which a list of ids is made, by one of its ids. -/
theorem mem_map_id_filter_parsed (hids : (storedEvents.map (·.id)).Nodup)
    (hrow : row ∈ storedEvents) (hparse : parsedRow ark row = some existing)
    (p : ExistingSourceEventState → Bool) :
    row.id ∈ (((parseStoredSourceEventStatesRecoveringInvalid ark storedEvents).events.filter
        p).map (·.id)) ↔ p existing = true := by
  have hid : ∀ {row : StoredSourceEventState} {existing : ExistingSourceEventState},
      parsedRow ark row = some existing → existing.id = row.id := fun h =>
    (parseStoredSourceEventState_ok (parsedRow_eq_some_iff.1 h)).1
  simp only [List.mem_map, List.mem_filter, events_parseRecovering, List.mem_filterMap]
  constructor
  · rintro ⟨existing', ⟨⟨row', hrow', hparse'⟩, hp⟩, hid'⟩
    have hsame := List.inj_on_of_nodup_map hids hrow' hrow (by rw [← hid hparse', hid'])
    rw [hsame, hparse] at hparse'
    rwa [Option.some.inj hparse']
  · exact fun hp => ⟨existing, ⟨⟨row, hrow, hparse⟩, hp⟩, hid hparse⟩

/-- A row that parses is deleted by a snapshot iff the diff removes it. -/
theorem mem_eventStateIdsToRemove_snapshot_iff (hids : (storedEvents.map (·.id)).Nodup)
    (hsnapshot : fetchResult.isDeltaSync.getD false = false) (hrow : row ∈ storedEvents)
    (hparse : parsedRow ark row = some existing) : row.id ∈ eventStateIdsToRemove fetchResult
        (parseStoredSourceEventStatesRecoveringInvalid ark storedEvents) ↔
      isRemovedBySnapshot (deduplicateIncomingEvents fetchResult.events) existing = true := by
  have hsome : (parsedRow ark row).isSome := by rw [hparse]; rfl
  have hinvalid := not_mem_buildInvalidStoredEventIdsToRemove hids hrow hsome fetchResult.events
  have hwindow : getNonRecurringStoredEventIdsOutsideWindow
      (parseStoredSourceEventStatesRecoveringInvalid ark storedEvents).events
      fetchResult.syncWindow false = [] := by
    unfold getNonRecurringStoredEventIdsOutsideWindow
    split <;> rfl
  unfold eventStateIdsToRemove
  dsimp only
  rw [hsnapshot, hwindow, List.append_nil]
  simp only [List.mem_eraseDups, List.mem_append, hinvalid, false_or,
    buildSourceEventStateIdsToRemove, Bool.false_eq_true, if_false]
  exact mem_map_id_filter_parsed hids hrow hparse _

def IsOutsideWindow (window : Option SyncWindow) (existing : ExistingSourceEventState) : Prop :=
  ∃ w, window = some w ∧ existing.recurrenceRule = none ∧
    overlapsTimeWindow ⟨existing.startTime, existing.endTime⟩ w.timeMin w.timeMax = false

/-- A row that parses is deleted by a delta iff it lies outside the window or the diff removes
it. -/
theorem mem_eventStateIdsToRemove_delta_iff (hids : (storedEvents.map (·.id)).Nodup)
    (hdelta : fetchResult.isDeltaSync.getD false = true) (hrow : row ∈ storedEvents)
    (hparse : parsedRow ark row = some existing) : row.id ∈ eventStateIdsToRemove fetchResult
        (parseStoredSourceEventStatesRecoveringInvalid ark storedEvents) ↔
      IsOutsideWindow fetchResult.syncWindow existing ∨
        isRemovedByDelta (deduplicateIncomingEvents fetchResult.events)
          (fetchResult.changedEventIds.getD []) (fetchResult.cancelledEventIds.getD [])
          existing = true := by
  have hsome : (parsedRow ark row).isSome := by rw [hparse]; rfl
  have hinvalid := not_mem_buildInvalidStoredEventIdsToRemove hids hrow hsome fetchResult.events
  have hwindow : row.id ∈ getNonRecurringStoredEventIdsOutsideWindow
      (parseStoredSourceEventStatesRecoveringInvalid ark storedEvents).events
      fetchResult.syncWindow true ↔ IsOutsideWindow fetchResult.syncWindow existing := by
    unfold getNonRecurringStoredEventIdsOutsideWindow IsOutsideWindow
    cases fetchResult.syncWindow with
    | none => simp
    | some w =>
      simp only [if_true, Option.some.injEq, exists_eq_left']
      rw [mem_map_id_filter_parsed hids hrow hparse]
      simp
  unfold eventStateIdsToRemove
  dsimp only
  rw [hdelta]
  simp only [List.mem_eraseDups, List.mem_append, hinvalid, false_or, hwindow,
    buildSourceEventStateIdsToRemove, if_true]
  exact or_congr_right (mem_map_id_filter_parsed hids hrow hparse _)

/-- The fetch still reports a stored row that is no override: under its provider id, or without
one at its own start and end, where no event with a provider id has come. -/
def StillReported (fetchResult : FetchEventsResult) (row : StoredSourceEventState) (uid : String) :
    Prop :=
  match truthy row.sourceEventId with
  | some sourceEventId => ∃ e ∈ fetchResult.events, truthy e.sourceEventId = some sourceEventId
  | none =>
    (∃ e ∈ fetchResult.events, truthy e.sourceEventId = none ∧
      e.slot = .slot uid row.startTime row.endTime) ∧
    ∀ e ∈ deduplicateIncomingEvents fetchResult.events,
      e.slot = .slot uid row.startTime row.endTime → truthy e.sourceEventId = none

/-- **A snapshot removes a stored master** iff the fetch does not report it any more. -/
theorem isRemovedBySnapshot_iff (hparse : parsedRow ark row = some existing)
    (hmaster : row.recurrenceId = none) {uid : String} (huid : row.sourceEventUid = some uid) :
    isRemovedBySnapshot (deduplicateIncomingEvents fetchResult.events) existing = true ↔
      ¬ StillReported fetchResult row uid := by
  obtain ⟨-, hprovider, huid', hstart, hend, hrecurrence⟩ :=
    parseStoredSourceEventState_ok (parsedRow_eq_some_iff.1 hparse)
  unfold isRemovedBySnapshot StillReported
  rw [hprovider]
  cases truthy row.sourceEventId with
  | some sourceEventId =>
    simp only [Bool.not_eq_true', List.contains_eq_mem, decide_eq_false_iff_not]
    rw [mem_incomingProviderIds]
  | none =>
    have hkey : ∀ e : SourceEvent, e.instanceKey = resolveExistingSourceEventInstanceKey existing ↔
        e.slot = .slot uid row.startTime row.endTime := by
      intro e
      rw [SourceEvent.instanceKey, resolveExistingSourceEventInstanceKey,
        buildSourceEventInstanceKey_eq_iff, huid', huid, hstart, hend, hrecurrence, hmaster]
      rfl
    simp only [huid', huid, Option.isSome_some, Bool.true_and, Bool.or_eq_true,
      Bool.not_eq_true', List.contains_eq_mem, decide_eq_true_eq, decide_eq_false_iff_not,
      providerBackedStorageIdentities, List.mem_map, List.mem_filter, hkey]
    constructor
    · rintro h ⟨⟨e, he, hnone, hslot⟩, hlegacy⟩
      rcases h with ⟨a, ⟨ha, hsome⟩, haslot⟩ | hno
      · rw [hlegacy a ha haslot] at hsome
        cases hsome
      · obtain ⟨e', he', heq⟩ := exists_mem_deduplicateIncomingEvents he
        rw [SourceEvent.storageIdentity_eq_slot_iff.2 ⟨hnone, hslot⟩] at heq
        exact hno ⟨e', he', (SourceEvent.storageIdentity_eq_slot_iff.1 heq).2⟩
    · intro h
      by_contra hc
      rw [not_or, not_not] at hc
      obtain ⟨hprovider, e, he, hslot⟩ := hc
      have hlegacy : ∀ e ∈ deduplicateIncomingEvents fetchResult.events,
          e.slot = .slot uid row.startTime row.endTime → truthy e.sourceEventId = none := by
        intro a ha haslot
        by_contra hsome
        exact hprovider ⟨a, ⟨ha, Option.isSome_iff_ne_none.2 hsome⟩, haslot⟩
      exact h ⟨⟨e, mem_of_mem_deduplicateIncomingEvents he, hlegacy e he hslot, hslot⟩, hlegacy⟩

end Snapshot

/-! ## Withheld series -/

section Withheld

variable {rt : Runtime} {ark : Arktype} {calendarId : String} {fetchResult : FetchEventsResult}
  {preEnqueueCurrency persistCurrency : CurrencyProbeResult}
  {storedEvents : List StoredSourceEventState}

/-- The series of a uid is fetched and withheld: it is unsupported, or over the recurrence
budget. -/
def IsWithheld (rt : Runtime) (calendarId : String) (fetchResult : FetchEventsResult)
    (uid : String) : Prop :=
  (∃ e ∈ fetchResult.events, e.uid = uid) ∧
    (uid ∈ fetchResult.unsupportedEventUids.getD [] ∨
      ∃ overBudget, overBudgetSourceEvents rt calendarId fetchResult = .ok overBudget ∧
        uid ∈ overBudget.map (·.uid))

/-- What an ingestion flushes deletes no stored master of a withheld series. -/
def KeepsWithheldSeries (rt : Runtime) (ark : Arktype) (calendarId : String)
    (fetchResult : FetchEventsResult) (preEnqueueCurrency persistCurrency : CurrencyProbeResult)
    (storedEvents : List StoredSourceEventState) : Prop :=
  ∀ outcome changes, ingestSource ark rt calendarId fetchResult preEnqueueCurrency persistCurrency
      storedEvents = .ok outcome → outcome.flushed = some changes →
    ∀ row ∈ storedEvents, (parsedRow ark row).isSome → row.recurrenceId = none →
      ∀ uid, row.sourceEventUid = some uid → IsWithheld rt calendarId fetchResult uid →
        row.id ∉ changes.deletes

/-- The ingestion gets as far as comparing the fetch with the store. -/
structure ReachesDiff (rt : Runtime) (calendarId : String) (fetchResult : FetchEventsResult)
    (preEnqueueCurrency persistCurrency : CurrencyProbeResult) : Prop where
  ingested : ∃ sourceEvents, ingestedSourceEvents rt calendarId fetchResult = .ok sourceEvents
  preEnqueue : preEnqueueCurrency = .current
  persist : persistCurrency = .current
  changed : fetchResult.unchanged ≠ some true
  incremental : fetchResult.fullSyncRequired ≠ some true

theorem ingestSource_of_reachesDiff (ark : Arktype) (storedEvents : List StoredSourceEventState)
    (h : ReachesDiff rt calendarId fetchResult preEnqueueCurrency persistCurrency) :
    ∃ sourceEvents, ingestSource ark rt calendarId fetchResult preEnqueueCurrency persistCurrency
      storedEvents = .ok (persistDiff rt.host ark fetchResult sourceEvents storedEvents) := by
  obtain ⟨⟨sourceEvents, hs⟩, rfl, rfl, hchanged, hfull⟩ := h
  refine ⟨sourceEvents, ?_⟩
  rw [ingestSource, hs]
  simp [bind, Except.bind, persistenceWork, hchanged, hfull, pure, Except.pure]

theorem deletes_eq_nil_of_not_reachesDiff {outcome : IngestionOutcome} {changes : IngestionChanges}
    (h : ¬ ReachesDiff rt calendarId fetchResult preEnqueueCurrency persistCurrency)
    (hrun : ingestSource ark rt calendarId fetchResult preEnqueueCurrency persistCurrency
      storedEvents = .ok outcome) (hflushed : outcome.flushed = some changes) :
    changes.deletes = [] := by
  obtain ⟨sourceEvents, hs, hrun⟩ := bind_eq_ok_iff.1 hrun
  split_ifs at hrun with hpre hpersist
  · obtain rfl := Except.ok.inj hrun
    cases hflushed
  · obtain rfl := Except.ok.inj hrun
    cases hflushed
  · obtain rfl := Except.ok.inj hrun
    rw [persistenceWork] at hflushed
    split_ifs at hflushed with hchanged hfull
    · obtain rfl := Option.some.inj hflushed
      rfl
    · exact absurd ⟨⟨sourceEvents, hs⟩, not_not.1 hpre, not_not.1 hpersist, hchanged, hfull⟩ h

/-- What a snapshot comparison flushes deletes exactly the rows to remove. -/
theorem mem_deletes_persistDiff_iff (rt : Runtime) (sourceEvents : List SourceEvent) {id : String}
    (hsnapshot : fetchResult.isDeltaSync.getD false = false) :
    (∃ changes, (persistDiff rt.host ark fetchResult sourceEvents storedEvents).flushed =
        some changes ∧ id ∈ changes.deletes) ↔
      id ∈ eventStateIdsToRemove fetchResult
        (parseStoredSourceEventStatesRecoveringInvalid ark storedEvents) := by
  unfold persistDiff
  simp only [hsnapshot, Bool.false_and, Bool.false_eq_true, if_false]
  split_ifs with hempty hflush
  · have hnil : eventStateIdsToRemove fetchResult
        (parseStoredSourceEventStatesRecoveringInvalid ark storedEvents) = [] := by
      simp only [Bool.and_eq_true, List.isEmpty_iff] at hempty
      exact hempty.2
    simp [hnil]
  · have hnil : eventStateIdsToRemove fetchResult
        (parseStoredSourceEventStatesRecoveringInvalid ark storedEvents) = [] := by
      simp only [Bool.and_eq_true, List.isEmpty_iff] at hempty
      exact hempty.2
    simp [hnil]
  · simp

/-- **Withholding keeps the stored masters** exactly when the fetch still reports each of them, or
the ingestion does not get to the diff. -/
theorem keepsWithheldSeries_iff (hids : (storedEvents.map (·.id)).Nodup)
    (hsnapshot : fetchResult.isDeltaSync.getD false = false) :
    KeepsWithheldSeries rt ark calendarId fetchResult preEnqueueCurrency persistCurrency
        storedEvents ↔
      (ReachesDiff rt calendarId fetchResult preEnqueueCurrency persistCurrency →
        ∀ row ∈ storedEvents, (parsedRow ark row).isSome → row.recurrenceId = none →
          ∀ uid, row.sourceEventUid = some uid → IsWithheld rt calendarId fetchResult uid →
            StillReported fetchResult row uid) := by
  constructor
  · intro hkeeps hreach row hrow hparse hmaster uid huid hwithheld
    by_contra hgone
    obtain ⟨existing, hexisting⟩ := Option.isSome_iff_exists.1 hparse
    have hremoved := (isRemovedBySnapshot_iff hexisting hmaster huid).2 hgone
    have hdeleted :=
      (mem_eventStateIdsToRemove_snapshot_iff hids hsnapshot hrow hexisting).2 hremoved
    obtain ⟨sourceEvents, hrun⟩ := ingestSource_of_reachesDiff ark storedEvents hreach
    obtain ⟨changes, hflushed, hmem⟩ :=
      (mem_deletes_persistDiff_iff rt sourceEvents hsnapshot).2 hdeleted
    exact hkeeps _ _ hrun hflushed row hrow hparse hmaster uid huid hwithheld hmem
  · intro hreported outcome changes hrun hflushed row hrow hparse hmaster uid huid hwithheld hmem
    by_cases hreach : ReachesDiff rt calendarId fetchResult preEnqueueCurrency persistCurrency
    · obtain ⟨sourceEvents, hrun'⟩ := ingestSource_of_reachesDiff ark storedEvents hreach
      obtain rfl := Except.ok.inj (hrun.symm.trans hrun')
      obtain ⟨existing, hexisting⟩ := Option.isSome_iff_exists.1 hparse
      have hdeleted := (mem_deletes_persistDiff_iff rt sourceEvents hsnapshot).1
        ⟨changes, hflushed, hmem⟩
      have hremoved :=
        (mem_eventStateIdsToRemove_snapshot_iff hids hsnapshot hrow hexisting).1 hdeleted
      exact (isRemovedBySnapshot_iff hexisting hmaster huid).1 hremoved
        (hreported hreach row hrow hparse hmaster uid huid hwithheld)
    · rw [deletes_eq_nil_of_not_reachesDiff hreach hrun hflushed] at hmem
      cases hmem

end Withheld

namespace Example

/-- A host without time zones whose recurrence engine lists nothing. -/
def ingestRuntime : Runtime :=
  ⟨printingHost, ⟨id, fun _ => true, fun t _ => t⟩, fun _ _ _ => .ok []⟩

/-- A weekly series of one-hour meetings, at the start of the epoch and at two o'clock. -/
def weeklySeries : SourceEvent where
  uid := "series"
  startTime := 0
  endTime := 3600000
  recurrenceRule := some { frequency := .weekly }

def movedSeries : SourceEvent := { weeklySeries with startTime := 7200000, endTime := 10800000 }

def storedSeries : StoredSourceEventState :=
  (buildEventStateInsertRow "calendar" weeklySeries).stored "row"

/-- A feed that moved the series and gave it an override that the parser does not support. -/
def movedUnsupported : FetchEventsResult where
  events := [movedSeries]
  unsupportedEventUids := some ["series"]

theorem parsedRow_storedSeries : ∃ existing, parsedRow arktype storedSeries = some existing := by
  have hread : weeklySeries.ReadBy arktype := fun t ht => by cases ht
  exact ⟨_, parsedRow_stored hread "calendar" "row"⟩

theorem reachesDiff_movedUnsupported :
    ReachesDiff ingestRuntime "calendar" movedUnsupported .current .current where
  ingested := ⟨[], rfl⟩
  preEnqueue := rfl
  persist := rfl
  changed := by decide
  incremental := by decide

end Example

theorem keepsWithheldSeries_iff_example :
    KeepsWithheldSeries Example.ingestRuntime Example.arktype "calendar" Example.movedUnsupported
        .current .current [Example.storedSeries] ↔
      (ReachesDiff Example.ingestRuntime "calendar" Example.movedUnsupported .current .current →
        ∀ row ∈ [Example.storedSeries], (parsedRow Example.arktype row).isSome →
          row.recurrenceId = none → ∀ uid, row.sourceEventUid = some uid →
            IsWithheld Example.ingestRuntime "calendar" Example.movedUnsupported uid →
            StillReported Example.movedUnsupported row uid) :=
  keepsWithheldSeries_iff (by simp) rfl

/-- A withheld series that moved is deleted. -/
theorem not_keepsWithheldSeries :
    ¬ KeepsWithheldSeries Example.ingestRuntime Example.arktype "calendar"
        Example.movedUnsupported .current .current [Example.storedSeries] := by
  intro hkeeps
  obtain ⟨existing, hparse⟩ := Example.parsedRow_storedSeries
  have hgone : ¬ StillReported Example.movedUnsupported Example.storedSeries "series" := by
    rintro ⟨⟨e, he, -, hslot⟩, -⟩
    rw [List.mem_singleton.1 he] at hslot
    exact absurd hslot (by decide)
  have hremoved := (isRemovedBySnapshot_iff hparse rfl rfl).2 hgone
  have hdeleted := (mem_eventStateIdsToRemove_snapshot_iff (by simp) rfl
    (List.mem_singleton_self _) hparse).2 hremoved
  obtain ⟨sourceEvents, hrun⟩ := ingestSource_of_reachesDiff Example.arktype [Example.storedSeries]
    Example.reachesDiff_movedUnsupported
  obtain ⟨changes, hflushed, hmem⟩ :=
    (mem_deletes_persistDiff_iff Example.ingestRuntime sourceEvents rfl).2 hdeleted
  exact hkeeps _ _ hrun hflushed _ (List.mem_singleton_self _) (by rw [hparse]; rfl) rfl "series"
    rfl ⟨⟨_, List.mem_singleton_self _, rfl⟩, Or.inl (by decide)⟩ hmem

end Keeper
