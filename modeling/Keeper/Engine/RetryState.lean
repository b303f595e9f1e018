import Keeper.Coordination.LockSafety
import Keeper.Engine.FirstSyncs
import Mathlib.Data.List.Infix

/-!
# The retry state of a destination

What attempts at destinations make of `failureCount` and `nextAttemptAt` (`sync-user.ts` and
`destination-errors.ts` in `packages/sync/src`, `calendar-backoff.ts` in `packages/calendar/src/core/utils`).
Any number of attempts, each under the sync lock of its calendar, go on in any order, in between each other,
other calls of `acquire`, keys that expire, and writes that reset the retry state. What an attempt awaits can
throw at any time.

* `Inv.step`, `Inv.followsStep`: what the row holds, and who is about to write it.
* `followsAttempts_of_isHarmless`: when the retry state follows the attempts.
* `not_followsAttempts`: a run that was stopped clears the retry state, and one escalates after a reset.
-/

namespace Keeper

/-! ## Backoff -/

def initialCalendarBackoffMs : ℤ := 5 * 60 * 1000

def maxCalendarBackoffMs : ℤ := 6 * 60 * 60 * 1000

structure CalendarBackoffState where
  failureCount : ℕ
  lastFailureAt : Option ℤ
  nextAttemptAt : Option ℤ
  deriving DecidableEq

def resetCalendarBackoffState : CalendarBackoffState := ⟨0, none, none⟩

def resolveCalendarBackoffDelayMs (currentFailureCount : ℕ) : ℤ :=
  min (initialCalendarBackoffMs * 2 ^ max 0 currentFailureCount) maxCalendarBackoffMs

def buildCalendarBackoffState (currentFailureCount : ℕ) (now : ℤ) : CalendarBackoffState where
  failureCount := currentFailureCount + 1
  lastFailureAt := some now
  nextAttemptAt := some (now + resolveCalendarBackoffDelayMs currentFailureCount)

structure RetryState where
  failureCount : ℕ
  nextAttemptAt : Option ℤ
  deriving DecidableEq

/-- The part of the columns that an attempt reads. -/
def CalendarBackoffState.retryState (row : CalendarBackoffState) : RetryState :=
  ⟨row.failureCount, row.nextAttemptAt⟩

def isDestinationAttemptEligible (observed : RetryState) (now : ℤ) : Bool :=
  match observed.nextAttemptAt with
  | none => true
  | some nextAttemptAt => nextAttemptAt ≤ now

def hasSameRetryState (observed : RetryState) (current : Option RetryState) : Bool :=
  match current with
  | none => false
  | some current =>
    current.failureCount == observed.failureCount && current.nextAttemptAt == observed.nextAttemptAt

def matchesObservedRetryState (observed : RetryState) (row : CalendarBackoffState) : Bool :=
  row.failureCount == observed.failureCount && row.nextAttemptAt == observed.nextAttemptAt

theorem matchesObservedRetryState_iff {observed : RetryState} {row : CalendarBackoffState} :
    matchesObservedRetryState observed row = true ↔ row.retryState = observed := by
  unfold matchesObservedRetryState CalendarBackoffState.retryState
  rw [Bool.and_eq_true, beq_iff_eq, beq_iff_eq, RetryState.mk.injEq]

/-- No failure is counted exactly when there is nothing to wait for. -/
def CalendarBackoffState.IsConsistent (row : CalendarBackoffState) : Prop :=
  row.failureCount = 0 ↔ row.nextAttemptAt = none

/-! ## Verdicts on what was thrown -/

/-- What an attempt can throw, as far as its verdict tells it apart. -/
structure ThrownError where
  message : String := ""
  /-- `isGoogleWriteAccessDeniedError`. -/
  isGoogleWriteAccessDenied : Bool := false
  /-- An instance of `RecurrenceMaterializationLimitError`. -/
  isMaterializationLimit : Bool := false
  /-- `isDatabaseError`. -/
  isDatabase : Bool := false
  /-- An instance of `RequestTimeoutError`. -/
  isRequestTimeout : Bool := false

def backoffErrorPatterns : List String := ["Invalid credentials", "404 Not Found", "cannot find homeUrl"]

def isBackoffEligibleError (error : ThrownError) : Bool :=
  if error.isMaterializationLimit then true
  else if error.isDatabase then false
  else if error.isRequestTimeout then true
  else backoffErrorPatterns.any fun pattern => pattern.toList <:+: error.message.toList

def resolveThrownDestinationVerdict (error : ThrownError) : DestinationAttemptVerdict :=
  if error.isGoogleWriteAccessDenied then .notWritable
  else if isBackoffEligibleError error then .failed
  else .inconclusive

theorem resolveThrownDestinationVerdict_ne_succeeded (error : ThrownError) :
    resolveThrownDestinationVerdict error ≠ .succeeded := by
  unfold resolveThrownDestinationVerdict
  split_ifs <;> nofun

/-! ## The run of an attempt -/

/-- The provider is called to change something. -/
def Call.isOperation : Call → Bool
  | .push _ _ | .update _ _ | .delete _ _ | .cleanup _ _ => true
  | .isCurrent _ | .flush _ _ => false

theorem Call.IsCounted.isOperation {c : Call} (h : c.IsCounted) : c.isOperation = true := by
  cases c with
  | isCurrent | flush => exact h.elim
  | _ => rfl

theorem Call.IsRefused.isOperation {c : Call} (h : c.IsRefused) : c.isOperation = true := by
  cases c with
  | isCurrent | flush => exact h.elim
  | _ => rfl

namespace DestinationAttempt

variable {W : Type} (a : DestinationAttempt W)

/-- The attempt whose lock handle has given some answers; what it would say next is open. -/
def answering (answers : List Bool) : DestinationAttempt W :=
  { a with isHandleCurrent := fun n => (answers[n]?).getD true }

/-- The reads of the reconciliation, and `syncCalendar`. -/
def reconcile : IoEffect W SyncCalendarResult := do
  let o ← Effect.zoom (fun io : Io W => io.world) (fun io world => { io with world })
    a.readReconciliationState
  syncCalendar o

theorem exists_reported_reconcile {world : W} {result : SyncCalendarResult}
    (h : (a.reconcile ⟨world, []⟩).1 = .ok result) :
    ∃ o : SyncCalendarOptions W, Reported o result (a.reconcile ⟨world, []⟩).2.trace := by
  unfold reconcile at h ⊢
  rcases hread : a.readReconciliationState world with ⟨e | o, w⟩
  · rw [Effect.run_bind_error (Effect.run_zoom hread)] at h
    cases h
  · rw [Effect.run_bind (Effect.run_zoom hread)] at h ⊢
    have hreported := wp_syncCalendar_reported o w
    unfold Effect.wp at hreported
    rcases hsync : syncCalendar o ⟨w, []⟩ with ⟨e | counted, io⟩ <;> rw [hsync] at h hreported
    · cases h
    · obtain rfl := Except.ok.inj h
      exact ⟨o, hreported⟩

theorem hasAttemptedOperations_reconcile {world : W} {result : SyncCalendarResult}
    (h : (a.reconcile ⟨world, []⟩).1 = .ok result)
    (hnothing : ∀ c ∈ (a.reconcile ⟨world, []⟩).2.trace, c.isOperation = false) :
    hasAttemptedOperations result = false := by
  obtain ⟨o, hreported⟩ := a.exists_reported_reconcile h
  have hcounted := mt hreported.counted.1 fun ⟨c, hc, hcounted⟩ =>
    Bool.eq_false_iff.1 (hnothing c hc) hcounted.isOperation
  have hrefused := mt hreported.refused.1 fun ⟨c, hc, hrefused⟩ =>
    Bool.eq_false_iff.1 (hnothing c hc) hrefused.isOperation
  unfold hasAttemptedOperations
  rw [decide_eq_false_iff_not]
  omega

end DestinationAttempt

/-! ## Attempts, step by step -/

/-- What an attempt has read of the retry state, and the calls that its run has made. -/
structure AttemptRecord where
  observed : RetryState
  trace : List Call

/-- The run has sent nothing, because a question whether it is current was answered no. -/
def AttemptRecord.Stopped (record : AttemptRecord) : Prop :=
  Call.isCurrent false ∈ record.trace ∧ ∀ c ∈ record.trace, c.isOperation = false

instance (record : AttemptRecord) : Decidable record.Stopped :=
  inferInstanceAs (Decidable (_ ∧ _))

/-- Where an attempt of `runDestinationAttempt` stands. `caught`: in `recordDestinationAttemptFailure`. -/
inductive AttemptPhase
  /-- Before the read of the destination. -/
  | waiting
  /-- Before `resolveSyncProvider`. -/
  | resolving (observed : RetryState)
  /-- From the reads of the reconciliation to the end of `syncCalendar`; the answers of the lock handle so
  far. -/
  | syncing (observed : RetryState) (answers : List Bool)
  /-- Before `recordCompletedFirstSyncs`. -/
  | recording (record : AttemptRecord) (result : SyncCalendarResult)
  /-- Before the question of `applyDestinationAttemptVerdict`. -/
  | judging (record : AttemptRecord) (outcome : Except ThrownError SyncCalendarResult)
  /-- Before the second read of the destination. -/
  | rereading (record : AttemptRecord) (caught : Bool)
  /-- Before the update of `applyDestinationBackoff`. -/
  | escalating (record : AttemptRecord) (caught : Bool)
  /-- Before the update of `resetDestinationBackoff`. -/
  | resetting (record : AttemptRecord) (caught : Bool)
  /-- Before the update of `setCalendarWriteAccess`. -/
  | denying (record : AttemptRecord) (caught : Bool)
  /-- Before `onCalendarComplete`. -/
  | completing (record : AttemptRecord)
  /-- Before the release of the lock, and after it. -/
  | finished

/-- What an attempt meets at a step: the fate of what it awaits, and what that throws if it fails; its clock;
whether the destination is found, and a provider for it. -/
structure AttemptCircumstance where
  fate : Fate := .answered
  error : ThrownError := {}
  now : ℤ := 0
  isFound : Bool := true
  isResolved : Bool := true

namespace AttemptPhase

def throwing (record : AttemptRecord) (caught : Bool) (error : ThrownError) : AttemptPhase :=
  if caught then .finished else .judging record (.error error)

/-- `applyDestinationAttemptVerdict` has returned. -/
def applied (record : AttemptRecord) (caught : Bool) : AttemptPhase :=
  if caught then .finished else .completing record

/-- `applyDestinationAttemptVerdict`, for a handle that is current. -/
def applying (record : AttemptRecord) (caught : Bool) : DestinationAttemptVerdict → AttemptPhase
  | .failed => .rereading record caught
  | .notWritable => .denying record caught
  | .succeeded =>
    if 0 < record.observed.failureCount then .resetting record caught else applied record caught
  | .inconclusive => applied record caught

section Next

variable {W : Type} (a : DestinationAttempt W)

/-- The verdict on a run that has ended, and on one that has thrown. -/
def verdict (record : AttemptRecord) : Except ThrownError SyncCalendarResult → DestinationAttemptVerdict
  | .ok result => resolveDestinationAttemptVerdict result (a.foundSuperseded record.trace)
  | .error error => resolveThrownDestinationVerdict error

/-- **One step of an attempt**: up to the next thing that it awaits. -/
def next (world : W) (isCurrent : Bool) (row : CalendarBackoffState) (env : AttemptCircumstance) :
    AttemptPhase → AttemptPhase
  | .waiting =>
    if env.fate = .answered && env.isFound && isDestinationAttemptEligible row.retryState env.now then
      .resolving row.retryState
    else .finished
  | .resolving observed =>
    if env.fate ≠ .answered then throwing ⟨observed, []⟩ false env.error
    else if env.isResolved then .syncing observed []
    else .finished
  | .syncing observed answers =>
    let (outcome, io) := (a.answering answers).reconcile ⟨world, []⟩
    if answers.length < currencyChecks io.trace then
      -- There is another question; a run that throws here has had no answer but yes.
      if env.fate ≠ .answered then throwing ⟨observed, []⟩ false env.error
      else .syncing observed (answers ++ [isCurrent])
    else if env.fate ≠ .answered then throwing ⟨observed, io.trace⟩ false env.error
    else
      match outcome with
      | .ok result => .recording ⟨observed, io.trace⟩ result
      | .error message => throwing ⟨observed, io.trace⟩ false { env.error with message }
  | .recording record result =>
    if env.fate ≠ .answered then throwing record false env.error else .judging record (.ok result)
  | .judging record outcome =>
    let caught := !outcome.toBool
    if env.fate ≠ .answered then throwing record caught env.error
    else if isCurrent then applying record caught (verdict a record outcome)
    else applied record caught
  | .rereading record caught =>
    if env.fate ≠ .answered then throwing record caught env.error
    else if hasSameRetryState record.observed (if env.isFound then some row.retryState else none) then
      .escalating record caught
    else applied record caught
  | .escalating record caught | .resetting record caught | .denying record caught =>
    if env.fate ≠ .answered then throwing record caught env.error else applied record caught
  | .completing record =>
    if env.fate ≠ .answered then throwing record false env.error else .finished
  | .finished => .finished

/-- What a step writes to the retry state, if the write takes effect. -/
def write (row : CalendarBackoffState) (env : AttemptCircumstance) :
    AttemptPhase → Option CalendarBackoffState
  | .escalating record _ =>
    if env.fate ≠ .unsent && matchesObservedRetryState record.observed row then
      some (buildCalendarBackoffState record.observed.failureCount env.now)
    else none
  | .resetting _ _ => if env.fate ≠ .unsent then some resetCalendarBackoffState else none
  | _ => none

def isWaiting : AttemptPhase → Bool
  | .waiting => true
  | _ => false

def isRunning : AttemptPhase → Bool
  | .waiting | .finished => false
  | _ => true

def observed : AttemptPhase → Option RetryState
  | .resolving observed | .syncing observed _ => some observed
  | .recording record _ | .judging record _ | .rereading record _ | .escalating record _
  | .resetting record _ | .denying record _ | .completing record => some record.observed
  | .waiting | .finished => none

def record : AttemptPhase → Option AttemptRecord
  | .recording record _ | .judging record _ | .rereading record _ | .escalating record _
  | .resetting record _ | .denying record _ | .completing record => some record
  | .waiting | .resolving _ | .syncing _ _ | .finished => none

end Next

end AttemptPhase

/-! ## Runs -/

/-- The locks, and for each calendar the columns of the retry state and the attempts by their UUIDs. `written`
is what the code keeps no record of: what has been written to the row of an attempt's calendar since the
attempt has read it. -/
structure SyncSystem where
  locks : LockSystem
  row : String → CalendarBackoffState
  phase : String → AttemptPhase
  written : String → List CalendarBackoffState

/-- Nothing has been called. -/
def SyncSystem.initial (now : ℤ) (row : String → CalendarBackoffState) : SyncSystem :=
  ⟨.initial now, row, fun _ => .waiting, fun _ => []⟩

/-- What happens next: a call of `acquire` goes on or time passes, a retry state is reset by somebody else, or
an attempt goes on. -/
inductive SyncAction
  | lock (action : LockAction)
  | reset (calendarId : String)
  | attempt (uuid : String) (env : AttemptCircumstance)

namespace SyncSystem

variable {W : Type} (calls : String → AcquireCall) (attempts : String → DestinationAttempt W)
  (worlds : String → W)

/-- `isCurrent` of the handle of a call. -/
def isCurrent (s : SyncSystem) (uuid : String) : Bool :=
  isCurrentScript (holderIdOf calls uuid) (s.locks.keys (calendarOf calls uuid))

/-- An attempt begins under the lock of a background call. -/
def mayGoOn (s : SyncSystem) (uuid : String) : Bool :=
  !(s.phase uuid).isWaiting ||
    match (calls uuid).acquisition with
    | .background => s.locks.phase uuid = .holding
    | .preempting => false

/-- An attempt that is under way does not release its lock. -/
def mayHappen (s : SyncSystem) : LockAction → Bool
  | .elapse _ => true
  | .advance uuid env => !(env.releases && (s.phase uuid).isRunning)

/-- The write of the retry state that takes effect in a step, and its calendar. -/
def writeOf (s : SyncSystem) : SyncAction → Option (String × CalendarBackoffState)
  | .lock _ => none
  | .reset calendarId => some (calendarId, resetCalendarBackoffState)
  | .attempt uuid env =>
    ((s.phase uuid).write (s.row (calendarOf calls uuid)) env).map fun state =>
      (calendarOf calls uuid, state)

def writeRow (s : SyncSystem) : Option (String × CalendarBackoffState) → SyncSystem
  | none => s
  | some (calendarId, state) =>
    { s with
      row := Function.update s.row calendarId state
      written := fun uuid =>
        if calendarOf calls uuid = calendarId then s.written uuid ++ [state] else s.written uuid }

def nextPhase (s : SyncSystem) (uuid : String) (env : AttemptCircumstance) : AttemptPhase :=
  if s.mayGoOn calls uuid then
    (s.phase uuid).next (attempts uuid) (worlds uuid) (s.isCurrent calls uuid)
      (s.row (calendarOf calls uuid)) env
  else s.phase uuid

def step (s : SyncSystem) (action : SyncAction) : SyncSystem :=
  let after := s.writeRow calls (s.writeOf calls action)
  match action with
  | .lock action => if s.mayHappen action then { s with locks := s.locks.step calls action } else s
  | .reset _ => after
  | .attempt uuid env =>
    { after with
      phase := Function.update s.phase uuid (s.nextPhase calls attempts worlds uuid env)
      written :=
        if (s.phase uuid).isWaiting then Function.update after.written uuid [] else after.written }

def run (s : SyncSystem) (actions : List SyncAction) : SyncSystem :=
  actions.foldl (step calls attempts worlds) s

structure FollowsStep (s : SyncSystem) (action : SyncAction) : Prop where
  /-- A run that was stopped before it has sent anything leaves the retry state as it is. -/
  stopped : ∀ uuid env record, action = .attempt uuid env → (s.phase uuid).record = some record →
    record.Stopped → ((s.step calls attempts worlds action).row (calendarOf calls uuid)).retryState =
      (s.row (calendarOf calls uuid)).retryState
  /-- An escalation is written only if nothing has been written since the attempt has read the row. -/
  escalated : ∀ uuid env record caught, action = .attempt uuid env →
    s.phase uuid = .escalating record caught → (s.writeOf calls action).isSome = true →
      s.written uuid = []

/-- **The retry state follows the attempts** over a run: all of its steps keep what is promised of a step, and
where the columns were consistent they stay so in every state reached. -/
structure FollowsAttempts (s : SyncSystem) (actions : List SyncAction) : Prop where
  steps : ∀ before action after, actions = before ++ action :: after →
    (s.run calls attempts worlds before).FollowsStep calls attempts worlds action
  consistent : (∀ calendarId, (s.row calendarId).IsConsistent) →
    ∀ before after, actions = before ++ after →
      ∀ calendarId, ((s.run calls attempts worlds before).row calendarId).IsConsistent

/-- A step cannot go wrong: where a handle that has stopped an attempt is current again at the verdict, the
attempt was superseded otherwise or has read no failures, and has not thrown what escalates; where an attempt
is about to escalate, the last of the writes since its read, if there are any, has written something else than
it read. -/
def IsHarmless (s : SyncSystem) : SyncAction → Prop
  | .lock _ | .reset _ => True
  | .attempt uuid env =>
    match s.phase uuid with
    | .judging record outcome =>
      record.Stopped → env.fate = .answered → s.isCurrent calls uuid = true →
        match outcome with
        | .ok _ => (attempts uuid).foundSuperseded record.trace = true ∨ record.observed.failureCount = 0
        | .error error => resolveThrownDestinationVerdict error ≠ .failed
    | .escalating record _ =>
      (s.written uuid).getLast?.map CalendarBackoffState.retryState ≠ some record.observed
    | _ => True

end SyncSystem

/-! ## One attempt -/

namespace AttemptPhase

/-- A run that was stopped has counted nothing, and its attempt is not about to write the retry state. -/
def Sound : AttemptPhase → Prop
  | .recording record result | .judging record (.ok result) =>
    record.Stopped → hasAttemptedOperations result = false
  | .rereading record _ | .escalating record _ | .resetting record _ => ¬ record.Stopped
  | _ => True

section Next

variable {W : Type} {a : DestinationAttempt W} {world : W} {isCurrent : Bool} {row : CalendarBackoffState}
  {env : AttemptCircumstance} {phase : AttemptPhase} {record : AttemptRecord} {caught : Bool}

theorem sound_throwing {error : ThrownError} : (throwing record caught error).Sound := by
  cases caught <;> trivial

theorem sound_applied : (applied record caught).Sound := by
  cases caught <;> trivial

/-- A verdict leads a run that was stopped to a write only if it is a failure, or clears failures. -/
theorem sound_applying {verdict : DestinationAttemptVerdict}
    (h : record.Stopped → verdict ≠ .failed ∧ (verdict = .succeeded → record.observed.failureCount = 0)) :
    (applying record caught verdict).Sound := by
  cases verdict with
  | failed => exact fun hstopped => (h hstopped).1 rfl
  | succeeded =>
    unfold applying
    split_ifs with hfailures
    · exact fun hstopped => hfailures.ne' ((h hstopped).2 rfl)
    · exact sound_applied
  | notWritable => trivial
  | inconclusive => exact sound_applied

theorem resolveDestinationAttemptVerdict_of_not_attempted {result : SyncCalendarResult}
    (h : hasAttemptedOperations result = false) (superseded : Bool) :
    resolveDestinationAttemptVerdict result superseded =
      if superseded then .inconclusive else .succeeded := by
  have hsome : hasNoSuccessfulOperations result = false := by
    unfold hasAttemptedOperations at h
    unfold hasNoSuccessfulOperations
    rw [decide_eq_false_iff_not] at h
    have hrefused : ¬ 0 < result.result.addFailed + result.result.removeFailed := by omega
    rw [decide_eq_false hrefused, Bool.and_false]
  unfold resolveDestinationAttemptVerdict
  rw [h, hsome]
  cases superseded <;> rfl

/-- **A step keeps an attempt sound**, if its verdict cannot go wrong. -/
theorem Sound.next (h : phase.Sound)
    (hharmless : ∀ record outcome, phase = .judging record outcome → record.Stopped →
      env.fate = .answered → isCurrent = true →
        match outcome with
        | .ok _ => a.foundSuperseded record.trace = true ∨ record.observed.failureCount = 0
        | .error error => resolveThrownDestinationVerdict error ≠ .failed) :
    (phase.next a world isCurrent row env).Sound := by
  cases phase with
  | waiting =>
    rw [AttemptPhase.next]
    split_ifs <;> trivial
  | resolving observed =>
    rw [AttemptPhase.next]
    split_ifs
    · exact sound_throwing
    · trivial
    · trivial
  | syncing observed answers =>
    rw [AttemptPhase.next]
    rcases hrun : (a.answering answers).reconcile ⟨world, []⟩ with ⟨outcome, io⟩
    dsimp only
    split_ifs
    · exact sound_throwing
    · trivial
    · exact sound_throwing
    · cases outcome with
      | error message => exact sound_throwing
      | ok result =>
        intro hstopped
        refine (a.answering answers).hasAttemptedOperations_reconcile (by rw [hrun]) ?_
        rw [hrun]
        exact hstopped.2
  | recording record result =>
    rw [AttemptPhase.next]
    split_ifs
    · exact sound_throwing
    · exact h
  | judging record outcome =>
    rw [AttemptPhase.next]
    split_ifs with hfate hcurrent
    · exact sound_throwing
    · refine sound_applying fun hstopped => ?_
      have hsafe := hharmless record outcome rfl hstopped (not_not.1 hfate) hcurrent
      cases outcome with
      | ok result =>
        have hverdict := resolveDestinationAttemptVerdict_of_not_attempted (h hstopped)
          (a.foundSuperseded record.trace)
        rw [verdict, hverdict]
        rcases hsafe with hsuperseded | hcount
        · rw [hsuperseded]
          exact ⟨nofun, nofun⟩
        · refine ⟨?_, fun _ => hcount⟩
          split_ifs <;> nofun
      | error error =>
        have hno := resolveThrownDestinationVerdict_ne_succeeded error
        exact ⟨hsafe, fun hsucceeded => absurd hsucceeded hno⟩
    · exact sound_applied
  | rereading record caught =>
    rw [AttemptPhase.next]
    generalize (if env.isFound = true then some row.retryState else none) = current
    split_ifs
    · exact sound_throwing
    · exact h
    · exact sound_applied
  | escalating record caught | resetting record caught | denying record caught =>
    rw [AttemptPhase.next]
    split_ifs
    · exact sound_throwing
    · exact sound_applied
  | completing record =>
    rw [AttemptPhase.next]
    split_ifs
    · exact sound_throwing
    · trivial
  | finished => trivial

/-- **A run that was stopped** writes nothing. -/
theorem Sound.write_eq_none (h : phase.Sound) (hrecord : phase.record = some record)
    (hstopped : record.Stopped) : phase.write row env = none := by
  cases phase with
  | escalating | resetting =>
    obtain rfl := Option.some.inj hrecord
    exact absurd hstopped h
  | _ => rfl

theorem observed_throwing {error : ThrownError} {observed : RetryState}
    (h : (throwing record caught error).observed = some observed) : some record.observed = some observed := by
  cases caught with
  | false => exact h
  | true => cases h

theorem observed_applied {observed : RetryState} (h : (applied record caught).observed = some observed) :
    some record.observed = some observed := by
  cases caught with
  | false => exact h
  | true => cases h

theorem observed_applying {verdict : DestinationAttemptVerdict} {observed : RetryState}
    (h : (applying record caught verdict).observed = some observed) :
    some record.observed = some observed := by
  cases verdict with
  | failed | notWritable => exact h
  | succeeded =>
    unfold applying at h
    split_ifs at h
    · exact h
    · exact observed_applied h
  | inconclusive => exact observed_applied h

theorem observed_next {observed : RetryState}
    (h : (phase.next a world isCurrent row env).observed = some observed) :
    phase.observed = some observed ∨ phase = .waiting ∧ observed = row.retryState := by
  cases phase with
  | waiting =>
    rw [AttemptPhase.next] at h
    split_ifs at h
    · exact Or.inr ⟨rfl, (Option.some.inj h).symm⟩
    · cases h
  | resolving =>
    rw [AttemptPhase.next] at h
    split_ifs at h
    · exact Or.inl h
    · exact Or.inl h
    · cases h
  | syncing observed answers =>
    rw [AttemptPhase.next] at h
    rcases hrun : (a.answering answers).reconcile ⟨world, []⟩ with ⟨outcome, io⟩
    rw [hrun] at h
    dsimp only at h
    split_ifs at h
    · exact Or.inl h
    · exact Or.inl h
    · exact Or.inl h
    · cases outcome <;> exact Or.inl h
  | recording =>
    rw [AttemptPhase.next] at h
    split_ifs at h <;> exact Or.inl h
  | judging record outcome =>
    rw [AttemptPhase.next] at h
    split_ifs at h
    · exact Or.inl (observed_throwing h)
    · exact Or.inl (observed_applying h)
    · exact Or.inl (observed_applied h)
  | rereading record caught =>
    rw [AttemptPhase.next] at h
    generalize (if env.isFound = true then some row.retryState else none) = current at h
    split_ifs at h
    · exact Or.inl (observed_throwing h)
    · exact Or.inl h
    · exact Or.inl (observed_applied h)
  | escalating record caught | resetting record caught | denying record caught =>
    rw [AttemptPhase.next] at h
    split_ifs at h
    · exact Or.inl (observed_throwing h)
    · exact Or.inl (observed_applied h)
  | completing =>
    rw [AttemptPhase.next] at h
    split_ifs at h
    · exact Or.inl h
    · cases h
  | finished => cases h

end Next

end AttemptPhase

/-! ## Any number of attempts -/

namespace SyncSystem

section Runs

variable {W : Type} {calls : String → AcquireCall} {attempts : String → DestinationAttempt W}
  {worlds : String → W} {s : SyncSystem} {uuid : String} {observed : RetryState} {action : SyncAction}

/-- The row of an attempt's calendar holds what the attempt has read, or what was written to it last. -/
def HasRow (calls : String → AcquireCall) (s : SyncSystem) (uuid : String) (observed : RetryState) : Prop :=
  (s.row (calendarOf calls uuid)).retryState =
    ((s.written uuid).getLast?.map CalendarBackoffState.retryState).getD observed

/-- **A write** leaves in the row what it has written. -/
theorem HasRow.writeRow (h : HasRow calls s uuid observed)
    (write : Option (String × CalendarBackoffState)) :
    HasRow calls (s.writeRow calls write) uuid observed := by
  rcases write with _ | ⟨calendarId, state⟩
  · exact h
  · unfold HasRow SyncSystem.writeRow
    by_cases hcalendar : calendarOf calls uuid = calendarId
    · subst hcalendar
      dsimp only
      rw [Function.update_self, if_pos rfl, List.getLast?_append]
      rfl
    · dsimp only
      rw [Function.update_of_ne hcalendar, if_neg hcalendar]
      exact h

variable {env : AttemptCircumstance}

theorem phase_step_self : (s.step calls attempts worlds (.attempt uuid env)).phase uuid =
    s.nextPhase calls attempts worlds uuid env :=
  Function.update_self _ _ _

theorem phase_step_of_ne {other : String} (hne : other ≠ uuid) :
    (s.step calls attempts worlds (.attempt uuid env)).phase other = s.phase other :=
  Function.update_of_ne hne _ _

theorem row_step_attempt : (s.step calls attempts worlds (.attempt uuid env)).row =
    (s.writeRow calls (s.writeOf calls (.attempt uuid env))).row := rfl

theorem isWaiting_of_observed (h : (s.phase uuid).observed = some observed) :
    (s.phase uuid).isWaiting = false := by
  cases hphase : s.phase uuid with
  | waiting =>
    rw [hphase] at h
    cases h
  | _ => rfl

theorem HasRow.attempt {other : String} (h : HasRow calls s other observed)
    (hread : other ≠ uuid ∨ (s.phase uuid).isWaiting = false) :
    HasRow calls (s.step calls attempts worlds (.attempt uuid env)) other observed := by
  have hwritten : (s.step calls attempts worlds (.attempt uuid env)).written other =
      (s.writeRow calls (s.writeOf calls (.attempt uuid env))).written other := by
    unfold SyncSystem.step
    dsimp only
    split_ifs with hwaiting
    · rcases hread with hne | hno
      · exact Function.update_of_ne hne _ _
      · rw [hno] at hwaiting
        cases hwaiting
    · rfl
  have hwrite := h.writeRow (s.writeOf calls (.attempt uuid env))
  unfold HasRow at hwrite ⊢
  rw [hwritten, row_step_attempt]
  exact hwrite

theorem hasRow_of_isWaiting (h : s.phase uuid = .waiting) :
    HasRow calls (s.step calls attempts worlds (.attempt uuid env)) uuid
      (s.row (calendarOf calls uuid)).retryState := by
  have hwrite : s.writeOf calls (.attempt uuid env) = none := by
    rw [writeOf, h]
    rfl
  have hwritten : (s.step calls attempts worlds (.attempt uuid env)).written uuid = [] := by
    unfold SyncSystem.step
    dsimp only
    rw [h]
    exact Function.update_self _ _ _
  unfold HasRow
  rw [hwritten, row_step_attempt, hwrite]
  rfl

/-- What holds in every state of a run that cannot go wrong. -/
structure Inv (calls : String → AcquireCall) (s : SyncSystem) : Prop where
  row : ∀ uuid observed, (s.phase uuid).observed = some observed → HasRow calls s uuid observed
  sound : ∀ uuid, (s.phase uuid).Sound

theorem Inv.initial (now : ℤ) (row : String → CalendarBackoffState) : (initial now row).Inv calls where
  row _ _ h := by cases h
  sound _ := trivial

/-- **A step keeps the invariant**, if it cannot go wrong. -/
theorem Inv.step (h : s.Inv calls) (hharmless : s.IsHarmless calls attempts action) :
    (s.step calls attempts worlds action).Inv calls := by
  cases action with
  | lock action =>
    unfold SyncSystem.step
    dsimp only
    split_ifs
    · exact ⟨h.row, h.sound⟩
    · exact h
  | reset calendarId => exact ⟨fun uuid observed hobserved => (h.row uuid observed hobserved).writeRow
      (some (calendarId, resetCalendarBackoffState)), h.sound⟩
  | attempt uuid env =>
    refine ⟨fun other observed hobserved => ?_, fun other => ?_⟩
    · by_cases hother : other = uuid
      · subst hother
        rw [phase_step_self, nextPhase] at hobserved
        split_ifs at hobserved
        · rcases AttemptPhase.observed_next hobserved with hbefore | ⟨hwaiting, rfl⟩
          · exact (h.row other observed hbefore).attempt (Or.inr (isWaiting_of_observed hbefore))
          · exact hasRow_of_isWaiting hwaiting
        · exact (h.row other observed hobserved).attempt (Or.inr (isWaiting_of_observed hobserved))
      · rw [phase_step_of_ne hother] at hobserved
        exact (h.row other observed hobserved).attempt (Or.inl hother)
    · by_cases hother : other = uuid
      · subst hother
        rw [phase_step_self, nextPhase]
        split_ifs
        · refine (h.sound other).next fun record outcome hphase => ?_
          simp only [IsHarmless, hphase] at hharmless
          exact hharmless
        · exact h.sound other
      · rw [phase_step_of_ne hother]
        exact h.sound other

variable {actions : List SyncAction}

/-- **A run keeps the invariant**, if none of its steps can go wrong. -/
theorem Inv.run (h : s.Inv calls)
    (hharmless : ∀ before action after, actions = before ++ action :: after → (s.run calls attempts worlds before).IsHarmless calls attempts action) :
    (s.run calls attempts worlds actions).Inv calls := by
  induction actions generalizing s with
  | nil => exact h
  | cons action actions ih =>
    refine ih (h.step (hharmless [] action actions rfl)) fun before other after heq => ?_
    exact hharmless (action :: before) other after (congrArg (action :: ·) heq)

/-- **A step keeps what is promised of it**, if it cannot go wrong. -/
theorem Inv.followsStep (h : s.Inv calls) (hharmless : s.IsHarmless calls attempts action) :
    s.FollowsStep calls attempts worlds action where
  stopped uuid env record haction hrecord hstopped := by
    subst haction
    have hwrite : s.writeOf calls (.attempt uuid env) = none := by
      rw [writeOf, (h.sound uuid).write_eq_none hrecord hstopped]
      rfl
    rw [row_step_attempt, hwrite]
    rfl
  escalated uuid env record caught haction hphase hwrite := by
    subst haction
    rw [writeOf, hphase, AttemptPhase.write] at hwrite
    split_ifs at hwrite with hmatches
    · -- The row has what was read, and what was written last.
      rw [Bool.and_eq_true, matchesObservedRetryState_iff] at hmatches
      have hrow := h.row uuid record.observed (by rw [hphase]; rfl)
      rw [HasRow, hmatches.2] at hrow
      simp only [IsHarmless, hphase] at hharmless
      cases hlast : (s.written uuid).getLast? with
      | none => exact List.getLast?_eq_none_iff.1 hlast
      | some state =>
        rw [hlast] at hrow hharmless
        exact absurd (congrArg some hrow.symm) hharmless
    · cases hwrite

theorem isConsistent_writeRow {write : Option (String × CalendarBackoffState)}
    (h : ∀ calendarId, (s.row calendarId).IsConsistent)
    (hwrite : ∀ entry, write = some entry → entry.2.IsConsistent) (calendarId : String) :
    ((s.writeRow calls write).row calendarId).IsConsistent := by
  rcases write with _ | ⟨written, state⟩
  · exact h calendarId
  · unfold SyncSystem.writeRow
    dsimp only
    by_cases hcalendar : calendarId = written
    · subst hcalendar
      rw [Function.update_self]
      exact hwrite _ rfl
    · rw [Function.update_of_ne hcalendar]
      exact h calendarId

theorem isConsistent_writeOf {entry : String × CalendarBackoffState}
    (h : s.writeOf calls action = some entry) : entry.2.IsConsistent := by
  cases action with
  | lock => cases h
  | reset =>
    obtain rfl := Option.some.inj h
    exact ⟨fun _ => rfl, fun _ => rfl⟩
  | attempt uuid env =>
    obtain ⟨state, hstate, rfl⟩ := Option.map_eq_some_iff.1 h
    unfold AttemptPhase.write at hstate
    split at hstate
    · split_ifs at hstate
      obtain rfl := Option.some.inj hstate
      exact ⟨nofun, nofun⟩
    · split_ifs at hstate
      obtain rfl := Option.some.inj hstate
      exact ⟨fun _ => rfl, fun _ => rfl⟩
    · cases hstate

/-- **A step keeps the columns consistent.** -/
theorem isConsistent_step (h : ∀ calendarId, (s.row calendarId).IsConsistent) (calendarId : String) :
    ((s.step calls attempts worlds action).row calendarId).IsConsistent := by
  cases action with
  | lock action =>
    unfold SyncSystem.step
    dsimp only
    split_ifs <;> exact h calendarId
  | reset written =>
    have hwrite := fun entry (h : s.writeOf calls (.reset written) = some entry) => isConsistent_writeOf h
    exact isConsistent_writeRow h hwrite calendarId
  | attempt uuid env =>
    rw [row_step_attempt]
    exact isConsistent_writeRow h (fun _ => isConsistent_writeOf) calendarId

/-- **A run keeps the columns consistent.** -/
theorem isConsistent_run (h : ∀ calendarId, (s.row calendarId).IsConsistent) (calendarId : String) :
    ((s.run calls attempts worlds actions).row calendarId).IsConsistent := by
  induction actions generalizing s with
  | nil => exact h calendarId
  | cons action actions ih => exact ih (isConsistent_step h)

/-- **When the retry state follows the attempts**: in every run of which no step can go wrong. -/
theorem followsAttempts_of_isHarmless (calls : String → AcquireCall)
    (attempts : String → DestinationAttempt W) (worlds : String → W) (now : ℤ)
    (row : String → CalendarBackoffState) (actions : List SyncAction)
    (h : ∀ before action after, actions = before ++ action :: after →
      ((initial now row).run calls attempts worlds before).IsHarmless calls attempts action) :
    (initial now row).FollowsAttempts calls attempts worlds actions where
  steps before action after heq := by
    have hinv : ((initial now row).run calls attempts worlds before).Inv calls := by
      refine (Inv.initial now row).run fun before' action' after' heq' => ?_
      refine h before' action' (after' ++ action :: after) ?_
      rw [heq, heq', List.append_assoc]
      rfl
    exact hinv.followsStep (h before action after heq)
  consistent hrow before _ _ := isConsistent_run hrow

theorem isHarmless_cons (hfirst : s.IsHarmless calls attempts action)
    (hrest : ∀ before other after, actions = before ++ other :: after → ((s.step calls attempts worlds action).run calls attempts worlds before).IsHarmless calls attempts other) :
    ∀ before other after, action :: actions = before ++ other :: after →
      (s.run calls attempts worlds before).IsHarmless calls attempts other := by
  intro before other after heq
  cases before with
  | nil =>
    obtain ⟨rfl, -⟩ := List.cons.inj heq
    exact hfirst
  | cons first before =>
    obtain ⟨rfl, hactions⟩ := List.cons.inj heq
    exact hrest before other after hactions

end Runs

/-! ## Two runs that go wrong -/

/-- A sync of a calendar, and mutations of it. -/
def contestingCalls : String → AcquireCall
  | "attempt" => ⟨.background, "calendar", none⟩
  | _ => ⟨.preempting, "calendar", none⟩

def idleAttempts : String → DestinationAttempt Unit := fun _ => attemptWithoutLock

def proceeds : SyncAction := .attempt "attempt" {}

def begun : List SyncAction := List.replicate 4 (.lock (.advance "attempt" {})) ++ [proceeds]

/-- A mutation queues before the first question, and gives up before the verdict. -/
def overtaken : List SyncAction :=
  begun ++ [proceeds, .lock (.advance "mutation" {}), .lock (.advance "mutation" {}), proceeds, proceeds,
    proceeds, .lock (.advance "mutation" { aborted := true }), .lock (.advance "mutation" {}), proceeds]

/-- The provider is not resolved. -/
def breaks : SyncAction := .attempt "attempt" { fate := .unsent, error := { isRequestTimeout := true } }

/-- The provider is not resolved, and the user reconnects before the verdict. -/
def reconnected : List SyncAction := begun ++ [breaks, .reset "calendar", proceeds, proceeds]

/-- The provider is not resolved, and nobody reconnects. -/
def broken : List SyncAction := begun ++ [breaks, proceeds, proceeds, proceeds]

/-- A failure that is escalated while nothing is reset. -/
theorem followsAttempts_of_isHarmless_broken :
    (initial 0 fun _ => resetCalendarBackoffState).FollowsAttempts contestingCalls idleAttempts (fun _ => ())
      broken := by
  refine followsAttempts_of_isHarmless _ _ _ _ _ _ ?_
  unfold broken begun
  refine isHarmless_cons trivial (isHarmless_cons trivial (isHarmless_cons trivial
    (isHarmless_cons trivial (isHarmless_cons trivial (isHarmless_cons trivial
      (isHarmless_cons ?_ (isHarmless_cons trivial (isHarmless_cons ?_ ?_))))))))
  · -- The handle has stopped nobody.
    exact fun hstopped => absurd hstopped.1 List.not_mem_nil
  · -- Nothing was written since the read.
    exact nofun
  · intro before action after heq
    cases before <;> cases heq

/-- **The retry state does not follow the attempts**: a run that sent nothing, as a mutation was waiting at
its first question, clears a failure once the mutation has given up; and a failure escalates though the user
has reconnected since the attempt has read that there was none. -/
theorem not_followsAttempts :
    ¬ (initial 0 fun _ => ⟨1, some 0, some 0⟩).FollowsAttempts contestingCalls idleAttempts (fun _ => ())
        (overtaken ++ [proceeds]) ∧
      ¬ (initial 0 fun _ => resetCalendarBackoffState).FollowsAttempts contestingCalls idleAttempts
        (fun _ => ()) (reconnected ++ [proceeds]) := by
  refine ⟨fun h => ?_, fun h => ?_⟩
  · have hkept := (h.steps overtaken proceeds [] rfl).stopped "attempt" {} ⟨⟨1, some 0⟩, [.isCurrent false]⟩
      rfl rfl (by decide)
    exact absurd (congrArg RetryState.failureCount hkept) Nat.zero_ne_one
  · have hnone := (h.steps reconnected proceeds [] rfl).escalated "attempt" {} ⟨⟨0, none⟩, []⟩ true rfl
      rfl rfl
    exact absurd hnone (List.cons_ne_nil _ _)


end SyncSystem

end Keeper
