import Keeper.Core.SyncRange
import Keeper.Source.DeltaIngest

/-!
# What an ingestion records of its source

The columns of a source calendar that say what is stored of it: the window that the last full read has
covered, with its ranges, and the token that the next delta continues. `utils/oauth-ingestion-state.ts`
decides by them whether a delta may follow; the transaction of `ingest/ingest-sources.ts` writes them
together with the rows.

* `resolveOAuthIngestionState_syncToken`: a token is kept where the required ranges are those of the
  recorded window.
* `persistIngestion_eq`: an ingestion writes the rows of its diff, and the window if it was a full read.
-/

namespace Keeper

/-! ## The columns -/

/-- A row of the calendars, with the columns of its ingestion. -/
structure SourceCalendar where
  id : String
  ingestFutureRange : String
  ingestHistoricRange : String
  ingestWindowEnd : Option ℤ := none
  ingestWindowRecordedAt : Option ℤ := none
  ingestWindowStart : Option ℤ := none
  syncToken : Option String := none
  deriving DecidableEq

structure StoredOAuthIngestionState where
  futureRange : String
  historicRange : String
  syncToken : Option String
  windowEnd : Option ℤ
  windowRecordedAt : Option ℤ
  windowStart : Option ℤ

def SourceCalendar.oauthIngestionState (source : SourceCalendar) : StoredOAuthIngestionState where
  futureRange := source.ingestFutureRange
  historicRange := source.ingestHistoricRange
  syncToken := source.syncToken
  windowEnd := source.ingestWindowEnd
  windowRecordedAt := source.ingestWindowRecordedAt
  windowStart := source.ingestWindowStart

/-! ## Deltas and full reads -/

/-- The `coverageState` of a source. -/
inductive CoverageState
  | unverified
  | verified
  deriving DecidableEq

/-- The `fullSyncReason` of a source. -/
inductive FullSyncReason
  | coverageInvalid
  | coverageMissing
  | rangeChanged
  | syncTokenMissing
  deriving DecidableEq

structure OAuthIngestionState where
  authorityChanged : Bool
  coverageState : CoverageState
  fullSyncReason : Option FullSyncReason
  syncToken : Option String

section Resolve

variable (stored : StoredOAuthIngestionState) (required : RequiredSourceRanges)

def hasCompleteCoverageWindow : Bool :=
  stored.windowStart.isSome && stored.windowEnd.isSome && stored.windowRecordedAt.isSome

/-- `hasValidCoverageWindow`: a time of a column is finite. -/
def hasValidCoverageWindow : Bool :=
  hasCompleteCoverageWindow stored &&
    stored.windowStart.any fun windowStart => stored.windowEnd.any (windowStart < ·)

def haveRequiredRangesChanged : Bool :=
  required.historicRange.value ≠ stored.historicRange || required.futureRange.value ≠ stored.futureRange

/-- The `fullSyncReason` of a state. -/
def resolveFullSyncReason : Option FullSyncReason :=
  if hasValidCoverageWindow stored && SyncRange.allows stored.historicRange &&
      SyncRange.allows stored.futureRange then
    if haveRequiredRangesChanged stored required then some .rangeChanged
    else if (truthy stored.syncToken).isNone then some .syncTokenMissing
    else none
  else if hasCompleteCoverageWindow stored then some .coverageInvalid
  else some .coverageMissing

def resolveOAuthIngestionState : OAuthIngestionState :=
  let fullSyncReason := resolveFullSyncReason stored required
  let coverageState := if hasValidCoverageWindow stored && SyncRange.allows stored.historicRange &&
      SyncRange.allows stored.futureRange then CoverageState.verified else .unverified
  { authorityChanged := coverageState = .unverified || fullSyncReason = some .rangeChanged
    coverageState
    fullSyncReason
    syncToken := if fullSyncReason.isSome then none else stored.syncToken }

variable {stored required}

/-- **A token is kept** for ranges that are those of the recorded window. -/
theorem resolveOAuthIngestionState_syncToken
    (h : (resolveOAuthIngestionState stored required).syncToken.isSome) :
    required.historicRange.value = stored.historicRange ∧
      required.futureRange.value = stored.futureRange ∧
      hasCompleteCoverageWindow stored = true := by
  have hreason : resolveFullSyncReason stored required = none := by
    by_contra hsome
    rw [← ne_eq, Option.ne_none_iff_isSome] at hsome
    rw [resolveOAuthIngestionState, if_pos hsome] at h
    cases h
  unfold resolveFullSyncReason at hreason
  split_ifs at hreason with hverified hchanged
  simp only [Bool.and_eq_true, hasValidCoverageWindow] at hverified
  simp only [haveRequiredRangesChanged, ne_eq, Bool.or_eq_true, decide_eq_true_eq, not_or,
    not_not] at hchanged
  exact ⟨hchanged.1, hchanged.2, hverified.1.1.1⟩

end Resolve

/-! ## What is written -/

namespace SourceCalendar

variable (source : SourceCalendar) (recordedAt : ℤ)

/-- The columns after the `syncToken` of a flush is written. -/
def recordToken : Nullish String → SourceCalendar
  | .undefined => source
  | .null => { source with syncToken := none }
  | .value syncToken => { source with syncToken := some syncToken }

/-- The columns after the `coverage` of a flush is written: a window that is recorded already keeps its
time. -/
def recordCoverage (coverage : IngestionCoverage) : SourceCalendar :=
  if source.ingestWindowRecordedAt.isNone || source.ingestWindowStart.isNone ||
      source.ingestWindowEnd.isNone || source.ingestFutureRange ≠ coverage.futureRange ||
      source.ingestHistoricRange ≠ coverage.historicRange ||
      source.ingestWindowStart ≠ some coverage.window.timeMin ||
      source.ingestWindowEnd ≠ some coverage.window.timeMax then
    { source with
      ingestFutureRange := coverage.futureRange
      ingestHistoricRange := coverage.historicRange
      ingestWindowEnd := some coverage.window.timeMax
      ingestWindowRecordedAt := some recordedAt
      ingestWindowStart := some coverage.window.timeMin }
  else source

/-- The columns after a flush. -/
def record (changes : IngestionChanges) : SourceCalendar :=
  match changes.coverage with
  | none => source.recordToken changes.syncToken
  | some coverage => (source.recordToken changes.syncToken).recordCoverage recordedAt coverage

/-- The coverage that the columns record. -/
def coverage : Option IngestionCoverage := do
  let timeMin ← source.ingestWindowStart
  let timeMax ← source.ingestWindowEnd
  let _ ← source.ingestWindowRecordedAt
  return ⟨source.ingestFutureRange, source.ingestHistoricRange, ⟨timeMin, timeMax⟩⟩

variable {source recordedAt}

theorem coverage_columns {coverage : IngestionCoverage} (h : source.coverage = some coverage) :
    source.ingestHistoricRange = coverage.historicRange ∧
      source.ingestFutureRange = coverage.futureRange := by
  simp only [SourceCalendar.coverage, Option.bind_eq_bind, Option.bind_eq_some_iff, Option.pure_def,
    Option.some.injEq] at h
  obtain ⟨timeMin, -, timeMax, -, recordedAt, -, rfl⟩ := h
  exact ⟨rfl, rfl⟩

theorem coverage_recordToken (syncToken : Nullish String) :
    (source.recordToken syncToken).coverage = source.coverage := by
  cases syncToken <;> rfl

theorem id_recordToken (syncToken : Nullish String) : (source.recordToken syncToken).id = source.id := by
  cases syncToken <;> rfl

theorem coverage_recordCoverage (coverage : IngestionCoverage) :
    (source.recordCoverage recordedAt coverage).coverage = some coverage := by
  unfold recordCoverage
  split_ifs with hdiffers
  · rfl
  · simp only [ne_eq, Bool.or_eq_true, decide_eq_true_eq, not_or, not_not, Bool.not_eq_true,
      Option.isNone_eq_false_iff] at hdiffers
    obtain ⟨⟨⟨⟨⟨⟨hrecorded, -⟩, -⟩, hfuture⟩, hhistoric⟩, hstart⟩, hend⟩ := hdiffers
    obtain ⟨time, htime⟩ := Option.isSome_iff_exists.1 hrecorded
    simp [SourceCalendar.coverage, hstart, hend, htime, hfuture, hhistoric]

/-- **A flush records** the coverage that it has, or leaves the recorded one. -/
theorem coverage_record (changes : IngestionChanges) :
    (source.record recordedAt changes).coverage = changes.coverage.or source.coverage := by
  unfold record
  cases changes.coverage with
  | none => exact coverage_recordToken _
  | some coverage => exact coverage_recordCoverage coverage

theorem id_record (changes : IngestionChanges) : (source.record recordedAt changes).id = source.id := by
  unfold record
  cases changes.coverage with
  | none => exact id_recordToken _
  | some coverage =>
    dsimp only
    unfold recordCoverage
    split_ifs <;> exact id_recordToken _

end SourceCalendar

/-- A source calendar and the stored rows of its events. -/
structure IngestedSource where
  calendar : SourceCalendar
  table : EventStatesTable

section Persist

variable (fresh : List String → String) (rt : Runtime) (ark : Arktype)

/-- The transaction of an ingestion whose generation is current. -/
def persistIngestion (recordedAt : ℤ) (source : IngestedSource) (fetchResult : FetchEventsResult) :
    Except IngestError IngestedSource := do
  let outcome ← (ingestSource ark rt source.calendar.id fetchResult .current .current
    (readEventStates source.table source.calendar.id)).mapError .materialization
  match outcome.flushed with
  | none => return source
  | some changes =>
    let table ← (flushEventStates fresh source.table source.calendar.id changes.deletes
      changes.inserts).mapError .upsert
    return { calendar := source.calendar.record recordedAt changes, table }

end Persist

section Persist

variable {fresh : List String → String} {rt : Runtime} {ark : Arktype} {recordedAt : ℤ}
  {source source' : IngestedSource} {fetchResult : FetchEventsResult}

variable (rt) in
theorem coverage_persistDiff (storedEvents : List StoredSourceEventState)
    (hparses : fetchResult.isDeltaSync.getD false = true →
      (parseStoredSourceEventStatesRecoveringInvalid ark storedEvents).failures = []) :
    ((persistDiff rt.host ark fetchResult fetchResult.events storedEvents).flushed.bind
      (·.coverage)) = fetchResult.coverage := by
  have hcontinues : (fetchResult.isDeltaSync.getD false &&
      !(parseStoredSourceEventStatesRecoveringInvalid ark storedEvents).failures.isEmpty) = false := by
    cases hdelta : fetchResult.isDeltaSync.getD false with
    | false => rfl
    | true => rw [hparses hdelta]; rfl
  rw [persistDiff]
  simp only [hcontinues, Bool.false_eq_true, if_false]
  split_ifs with hempty hother
  · rfl
  · simp only [Bool.or_eq_true, not_or, Bool.not_eq_true, Option.isSome_eq_false_iff,
      Option.isNone_iff_eq_none] at hother
    rw [hother.2]
    rfl
  · rfl

/-- **An ingestion writes** the rows of its diff, and the coverage of a full read. -/
theorem persistIngestion_ok (hfetch : ComparedFetch rt source.calendar.id fetchResult)
    (hparses : fetchResult.isDeltaSync.getD false = true →
      (parseStoredSourceEventStatesRecoveringInvalid ark
        (readEventStates source.table source.calendar.id)).failures = [])
    (h : persistIngestion fresh rt ark recordedAt source fetchResult = .ok source') :
    ingestCalendar fresh rt ark source.calendar.id source.table fetchResult = .ok source'.table ∧
      source'.calendar.id = source.calendar.id ∧
      source'.calendar.coverage = fetchResult.coverage.or source.calendar.coverage := by
  have houtcome := ingestSource_eq ark hfetch (readEventStates source.table source.calendar.id)
  have hcoverage := coverage_persistDiff rt (readEventStates source.table source.calendar.id) hparses
  rw [persistIngestion, houtcome] at h
  rw [ingestCalendar, houtcome]
  simp only [Except.mapError, bind, Except.bind] at h ⊢
  revert h hcoverage
  generalize (persistDiff rt.host ark fetchResult fetchResult.events
    (readEventStates source.table source.calendar.id)).flushed = flushed
  intro h hcoverage
  cases flushed with
  | none =>
    obtain rfl := Except.ok.inj h
    have hnone : fetchResult.coverage = none := hcoverage.symm
    rw [hnone]
    exact ⟨rfl, rfl, rfl⟩
  | some changes =>
    have hchanges : changes.coverage = fetchResult.coverage := hcoverage
    dsimp only at h ⊢
    cases hflush : flushEventStates fresh source.table source.calendar.id changes.deletes
        changes.inserts with
    | error error =>
      rw [hflush] at h
      cases h
    | ok table =>
      rw [hflush] at h
      obtain rfl := Except.ok.inj h
      rw [← hchanges]
      exact ⟨rfl, SourceCalendar.id_record _, SourceCalendar.coverage_record _⟩

/-- **A fetch that is told to start over** drops the token and leaves the rows and the coverage. -/
theorem persistIngestion_restart (hchanged : fetchResult.unchanged ≠ some true)
    (hrestarts : fetchResult.fullSyncRequired = some true)
    (h : persistIngestion fresh rt ark recordedAt source fetchResult = .ok source') :
    source'.table = source.table ∧ source'.calendar.id = source.calendar.id ∧
      source'.calendar.coverage = source.calendar.coverage := by
  unfold persistIngestion ingestSource at h
  cases hingested : ingestedSourceEvents rt source.calendar.id fetchResult with
  | error error =>
    rw [hingested] at h
    cases h
  | ok sourceEvents =>
    rw [hingested] at h
    simp only [bind, Except.bind, persistenceWork, hchanged, hrestarts, if_false, if_true,
      ne_eq, not_true_eq_false, pure, Except.pure, Except.mapError, flushEventStates_nil] at h
    obtain rfl := Except.ok.inj h
    exact ⟨rfl, SourceCalendar.id_record _, SourceCalendar.coverage_record _⟩

end Persist

end Keeper
