import Keeper.Source.IngestionState
import Mathlib.Logic.Function.Basic

/-!
# Runs of an OAuth ingestion

Any number of ingestions of one calendar (`ingest/ingest-sources.ts`), in steps that end where one is awaited.
Each reads its source, fetches by the token it has read, and submits a transaction that takes the advisory lock of
the calendar, compares `ingestSeq`, and writes statement by statement; what it has written is seen by the others
once it commits. The lock of the sources in Redis may lapse, so that it orders nothing here. A run may fail
anywhere; the deadline of its submission and the abort of its signal reject the promise of its caller, and leave
a transaction that is open to itself.

* `flushWrites`: the statements of a flush.
* `step`: the steps of the system.
-/

namespace Keeper

namespace IngestRuns

/-! ## What is stored -/

structure StoredSource where
  source : IngestedSource
  ingestSeq : ℕ := 0
  storedEventCount : Option ℕ := none
  snapshot : Option CalendarSnapshotChange := none

/-- A statement of a flush. The time of a coverage is the one at which it is written. -/
inductive FlushWrite
  | deletes (ids : List String)
  | inserts (events : List SourceEvent)
  | storedEventCount (count : ℕ)
  | syncToken (token : Nullish String)
  | coverage (coverage : IngestionCoverage) (recordedAt : ℤ)
  | snapshot (snapshot : CalendarSnapshotChange)
  | ingestSeq

/-- The statements of `flush`. `existingEventCount` is of the rows that the transaction has read, if it has. -/
def flushWrites (existingEventCount : Option ℕ) (recordedAt : ℤ) (changes : IngestionChanges) :
    List FlushWrite :=
  (if changes.deletes.length > 0 then [.deletes changes.deletes] else []) ++
  (if changes.inserts.length > 0 then [.inserts changes.inserts] else []) ++
  (existingEventCount.map fun existing =>
    .storedEventCount (existing + changes.inserts.length - changes.deletes.length)).toList ++
  (if changes.syncToken = .undefined then [] else [.syncToken changes.syncToken]) ++
  (changes.coverage.map (.coverage · recordedAt)).toList ++
  (changes.snapshot.map .snapshot).toList ++
  [.ingestSeq]

section Writes

variable (fresh : List String → String)

/-- What a statement makes of what is stored; an upsert may fail. -/
def FlushWrite.apply (stored : StoredSource) (write : FlushWrite) : Option StoredSource :=
  match write with
  | .deletes ids =>
    some { stored with source.table := deleteEventStates stored.source.table stored.source.calendar.id ids }
  | .inserts events =>
    (insertEventStatesWithConflictResolution fresh stored.source.table
      (events.map (buildEventStateInsertRow stored.source.calendar.id))).toOption.map fun table =>
        { stored with source.table := table }
  | .storedEventCount count => some { stored with storedEventCount := some count }
  | .syncToken token => some { stored with source.calendar := stored.source.calendar.recordToken token }
  | .coverage recorded recordedAt =>
    some { stored with source.calendar := stored.source.calendar.recordCoverage recordedAt recorded }
  | .snapshot change => some { stored with snapshot := some change }
  | .ingestSeq => some { stored with ingestSeq := stored.ingestSeq + 1 }

/-- Statements one after the other. -/
def applyWrites (stored : StoredSource) : List FlushWrite → Option StoredSource
  | [] => some stored
  | write :: writes => (write.apply fresh stored).bind fun stored => applyWrites stored writes

end Writes

/-! ## Runs -/

/-- What a run has fetched, and from what: the state that its source was read from, and the ranges that were
required then. -/
structure Fetched where
  read : StoredSource
  ranges : RequiredSourceRanges
  fetchResult : FetchEventsResult

/-- Where a run is. With its transaction open: it holds the lock, it has found its baseline in place, it writes,
or its callback has returned. -/
inductive RunPhase
  | idle
  | sourced (read : StoredSource)
  | fetched (fetched : Fetched)
  | submitted (fetched : Fetched)
  | locked (fetched : Fetched)
  | compared (fetched : Fetched)
  | writing (fetched : Fetched) (changes : IngestionChanges) (recordedAt : ℤ) (draft : StoredSource)
      (writes : List FlushWrite)
  | returned (fetched : Fetched) (flushed : Option (IngestionChanges × ℤ)) (draft : StoredSource)
  | settled
  | finished

/-- What the caller of a run was told: nothing yet, a result, or an error. Of an abort: whether the transaction was
past its last check of the signal. -/
inductive Caller
  | waiting
  | resolved
  | failed
  | aborted (late : Bool)
  | expired
  deriving DecidableEq

def Caller.HasThrown (caller : Caller) : Prop := caller ≠ .waiting ∧ caller ≠ .resolved

structure IngestRun where
  phase : RunPhase := .idle
  aborted : Bool := false
  caller : Caller := .waiting

/-- A run that has flushed and committed, and what was stored before and after. -/
structure CommittedRun where
  run : ℕ
  fetched : Fetched
  changes : IngestionChanges
  recordedAt : ℤ
  before : StoredSource
  after : StoredSource

/-- What is committed, the holder of the advisory lock, the runs, and those that have flushed, the last one
first. -/
structure IngestSystem where
  stored : StoredSource
  lockedBy : Option ℕ := none
  runs : ℕ → IngestRun := fun _ => {}
  log : List CommittedRun := []

namespace IngestSystem

variable (s : IngestSystem)

def setPhase (run : ℕ) (phase : RunPhase) : IngestSystem :=
  { s with runs := Function.update s.runs run { s.runs run with phase } }

/-- The promise of a run is settled, unless it is already. -/
def tell (run : ℕ) (caller : Caller) : IngestSystem :=
  let told := if (s.runs run).caller = .waiting then caller else (s.runs run).caller
  { s with runs := Function.update s.runs run { s.runs run with caller := told } }

end IngestSystem

/-- The callback of the transaction has returned. -/
def RunPhase.isPastChecks : RunPhase → Bool
  | .returned _ _ _ => true
  | .settled => true
  | _ => false

/-- The deadline of the submission is not cleared. -/
def RunPhase.isSubmitted : RunPhase → Bool
  | .submitted _ => true
  | .locked _ => true
  | .compared _ => true
  | .writing _ _ _ _ _ => true
  | .returned _ _ _ => true
  | .settled => true
  | _ => false

/-! ## Steps -/

/-- What may happen next. -/
inductive Event
  | read (run : ℕ)
  | fetch (run : ℕ) (ranges : RequiredSourceRanges) (fetchResult : FetchEventsResult)
  | submit (run : ℕ)
  | supersede (run : ℕ)
  | lock (run : ℕ)
  | compare (run : ℕ)
  | work (run : ℕ) (recordedAt : ℤ)
  | write (run : ℕ)
  | commit (run : ℕ)
  | resolve (run : ℕ)
  | fail (run : ℕ)
  | abort (run : ℕ)
  | expire (run : ℕ)

section Steps

variable (rt : Runtime) (ark : Arktype) (fresh : List String → String)
  (answers : Option String → FetchEventsResult → Bool)

def Fetched.token (fetched : Fetched) : Option String :=
  (resolveOAuthIngestionState fetched.read.source.calendar.oauthIngestionState fetched.ranges).syncToken

/-- The work of a transaction on what it has found stored: `ingestSource`, from its fetch. -/
def workOf (fetched : Fetched) (stored : StoredSource) : Option IngestionOutcome :=
  (ingestSource ark rt stored.source.calendar.id fetched.fetchResult .current .current
    (readEventStates stored.source.table stored.source.calendar.id)).toOption

/-- The rows that the work of a transaction reads, counted. -/
def existingEventCountOf (fetched : Fetched) (stored : StoredSource) : Option ℕ :=
  if fetched.fetchResult.fullSyncRequired = some true then none
  else some (readEventStates stored.source.table stored.source.calendar.id).length

/-- **The steps of the system.** A transaction sees what is committed where it takes the lock, and its own
writes. -/
def step (s : IngestSystem) : Event → Option IngestSystem
  | .read run =>
    match (s.runs run).phase with
    | .idle => some (s.setPhase run (.sourced s.stored))
    | _ => none
  | .fetch run ranges fetchResult =>
    match (s.runs run).phase with
    | .sourced read =>
      if answers (Fetched.token ⟨read, ranges, fetchResult⟩) fetchResult then
        some (s.setPhase run (.fetched ⟨read, ranges, fetchResult⟩))
      else none
    | _ => none
  | .submit run =>
    match (s.runs run).phase with
    | .fetched fetched => some (s.setPhase run (.submitted fetched))
    | _ => none
  | .supersede run =>
    -- Nothing to ingest, or a probe of the generation: before the submission, or in its preparation.
    match (s.runs run).phase with
    | .sourced _ => some (s.setPhase run .finished)
    | .fetched _ => some (s.setPhase run .finished)
    | .submitted _ => some (s.setPhase run .finished)
    | _ => none
  | .lock run =>
    match (s.runs run).phase with
    | .submitted fetched =>
      if s.lockedBy = none ∧ (s.runs run).aborted = false then
        some { s.setPhase run (.locked fetched) with lockedBy := some run }
      else none
    | _ => none
  | .compare run =>
    match (s.runs run).phase with
    | .locked fetched =>
      if s.stored.ingestSeq = fetched.read.ingestSeq ∧ (s.runs run).aborted = false then
        some (s.setPhase run (.compared fetched))
      else none
    | _ => none
  | .work run recordedAt =>
    match (s.runs run).phase with
    | .compared fetched =>
      if (s.runs run).aborted = true then none
      else
        match workOf rt ark fetched s.stored with
        | none => none
        | some outcome =>
          match outcome.flushed with
          | none => some (s.setPhase run (.returned fetched none s.stored))
          | some changes =>
            some (s.setPhase run (.writing fetched changes recordedAt s.stored
              (flushWrites (existingEventCountOf fetched s.stored) recordedAt changes)))
    | _ => none
  | .write run =>
    match (s.runs run).phase with
    | .writing fetched changes recordedAt draft (write :: writes) =>
      if (s.runs run).aborted = true then none
      else (write.apply fresh draft).map fun draft =>
        s.setPhase run (.writing fetched changes recordedAt draft writes)
    | .writing fetched changes recordedAt draft [] =>
      -- The last check of the signal.
      if (s.runs run).aborted = true then none
      else some (s.setPhase run (.returned fetched (some (changes, recordedAt)) draft))
    | _ => none
  | .commit run =>
    match (s.runs run).phase with
    | .returned fetched flushed draft =>
      some { s.setPhase run .settled with
        stored := draft
        lockedBy := none
        log := (flushed.map fun flushed =>
          ⟨run, fetched, flushed.1, flushed.2, s.stored, draft⟩).toList ++ s.log }
    | _ => none
  | .resolve run =>
    match (s.runs run).phase with
    | .settled => some (s.tell run .resolved)
    | .finished => some (s.tell run .resolved)
    | _ => none
  | .fail run =>
    -- What was written is rolled back.
    match (s.runs run).phase with
    | .settled => none
    | .finished => none
    | _ => some { (s.setPhase run .finished).tell run .failed with
        lockedBy := if s.lockedBy = some run then none else s.lockedBy }
  | .abort run =>
    if (s.runs run).aborted = true then none
    else
      some ({ s with runs := Function.update s.runs run { s.runs run with aborted := true } }.tell run
        (.aborted (s.runs run).phase.isPastChecks))
  | .expire run =>
    if (s.runs run).phase.isSubmitted then some (s.tell run .expired) else none

/-- Steps one after the other. -/
def runEvents (s : IngestSystem) : List Event → Option IngestSystem
  | [] => some s
  | event :: events => (step rt ark fresh answers s event).bind fun s' => runEvents s' events

end Steps

end IngestRuns

end Keeper
