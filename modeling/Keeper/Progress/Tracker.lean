import Keeper.Foundations.JsMap
import Mathlib.Algebra.BigOperators.Group.List.Basic
import Mathlib.Algebra.Order.BigOperators.Group.List
import Mathlib.Algebra.Order.Field.Rat
import Mathlib.Tactic.Linarith
import Mathlib.Tactic.Positivity

/-!
# Sync progress

`SyncAggregateTracker` (`core/sync/aggregate-tracker.ts`): progress is kept for each calendar of a user, and a message
is emitted where what is shown changes. Numbers are rational, and a call comes with the clock values that it reads.

* `computeSnapshot_isBounded`: the counts and the percentage are in their bounds.
* `shown_of_calls`: over any calls, the messages are numbered, differ, and do not run backwards.
-/

namespace Keeper

namespace SyncProgress

structure SyncPace where
  lane : String
  operationsPerMinute : ℚ

inductive ProgressStatus
  | syncing
  | idle
  | error
  deriving DecidableEq

structure CalendarOperationProgress where
  pace : Option SyncPace := none
  processed : ℚ
  processingStartedAt : Option ℤ := none
  status : ProgressStatus
  total : ℚ

structure OperationCounts where
  current : ℚ
  total : ℚ

structure SyncProgressUpdate where
  userId : String
  calendarId : String
  isError : Bool := false
  progress : Option OperationCounts := none
  pace : Option SyncPace := none

structure DestinationSyncResult where
  userId : String
  calendarId : String
  completedSuccessfully : Option Bool := none

/-- A number of seconds, or `Infinity`. -/
inductive Seconds
  | finite (seconds : ℤ)
  | infinity

structure SyncAggregateSnapshot where
  lastSyncedAt : Option String := none
  progressPercent : ℚ
  syncEventsProcessed : ℚ
  syncEventsRemaining : ℚ
  syncEventsTotal : ℚ
  syncSecondsRemaining : Option Seconds := none
  syncing : Bool

structure SyncAggregateMessage extends SyncAggregateSnapshot where
  seq : ℕ

/-- The entries of a user in the maps of the tracker. -/
structure UserState where
  progress : JsMap String CalendarOperationProgress := JsMap.empty
  lastProgressEmitAt : Option ℤ := none
  lastPayloadKey : Option String := none
  sequence : ℕ := 0
  highWaterPercent : Option ℚ := none
  isSyncingHeld : Bool := false

/-! ## Seconds that remain -/

def remainingOperations (entry : CalendarOperationProgress) : ℚ := max (entry.total - entry.processed) 0

def resolveObservedPace (calendarId : String) (entry : CalendarOperationProgress) (now : ℤ) : Option SyncPace :=
  match entry.processingStartedAt with
  | none => none
  | some startedAt =>
    if entry.processed = 0 then none
    else
      let elapsedMinutes : ℚ := (now - startedAt : ℤ) / 1000 / 60
      if elapsedMinutes ≤ 0 then none else some ⟨"calendar:" ++ calendarId, entry.processed / elapsedMinutes⟩

/-- `remainingByLane`: the operations of a lane, and its pace. -/
def remainingByLane (progress : JsMap String CalendarOperationProgress) (now : ℤ) :
    Option (JsMap String (ℚ × ℚ)) :=
  progress.entries.foldlM (fun lanes (calendarId, entry) =>
    let operations := remainingOperations entry
    if operations = 0 then some lanes
    else (entry.pace.or (resolveObservedPace calendarId entry now)).map fun pace =>
      lanes.set pace.lane (((lanes.get? pace.lane).elim 0 (·.1)) + operations, pace.operationsPerMinute)) JsMap.empty

def estimateSecondsRemaining (progress : JsMap String CalendarOperationProgress) (now : ℤ) : Option Seconds :=
  match (remainingByLane progress now).map (·.values) with
  | none | some [] => none
  | some ((operations, operationsPerMinute) :: lanes) =>
    if operationsPerMinute = 0 ∨ lanes.any (·.2 = 0) then some .infinity
    else some (.finite (lanes.foldl (fun seconds lane => max seconds (lane.1 / lane.2 * 60))
      (operations / operationsPerMinute * 60)).ceil)

/-! ## Entries -/

def clampProgress (processed total : ℚ) : ℚ :=
  if processed < 0 then 0 else if processed > total then total else processed

def calculatePercent (processed total : ℚ) (syncing : Bool) : ℚ :=
  if total = 0 then if syncing then 0 else 100 else processed / total * 100

def mergeProgressEntry (current : Option CalendarOperationProgress) (update : SyncProgressUpdate) (now : ℤ) :
    CalendarOperationProgress :=
  let current := current.filter fun entry => decide (entry.status ≠ .idle)
  let nextTotal := (update.progress.map (·.total)).getD ((current.map (·.total)).getD 0)
  let nextProcessedRaw := (update.progress.map (·.current)).getD ((current.map (·.processed)).getD 0)
  { processed := clampProgress nextProcessedRaw nextTotal
    status := if update.isError then .error else .syncing
    processingStartedAt := (current.bind (·.processingStartedAt)).or (update.progress.map fun _ => now)
    total := nextTotal
    pace := update.pace }

def finalizeEntry (current : Option CalendarOperationProgress) (completedSuccessfully : Bool) :
    CalendarOperationProgress :=
  let total := (current.map (·.total)).getD 0
  { pace := current.bind (·.pace)
    processed := if 0 < total ∧ completedSuccessfully = true then total else (current.map (·.processed)).getD 0
    processingStartedAt := current.bind (·.processingStartedAt)
    status := .idle
    total }

/-! ## Messages -/

def computeSnapshot (lastSyncedAt : Option String) (now : ℤ) (user : UserState) : SyncAggregateSnapshot :=
  if user.progress.entries = [] then
    { progressPercent := if user.isSyncingHeld then 0 else 100, syncEventsProcessed := 0, syncEventsRemaining := 0,
      syncEventsTotal := 0, syncing := user.isSyncingHeld }
  else
    let syncEventsProcessed := (user.progress.values.map (·.processed)).sum
    let syncEventsTotal := (user.progress.values.map (·.total)).sum
    let syncing := user.progress.values.any (fun entry => decide (entry.status = .syncing)) || user.isSyncingHeld
    let percent := calculatePercent syncEventsProcessed syncEventsTotal syncing
    { lastSyncedAt
      progressPercent := if syncing then max percent (user.highWaterPercent.getD 0) else percent
      syncEventsProcessed
      syncEventsRemaining := max (syncEventsTotal - syncEventsProcessed) 0
      syncEventsTotal
      syncSecondsRemaining := estimateSecondsRemaining user.progress now
      syncing }

/-- The throttle of a tracker, and how it prints a payload. -/
structure SyncAggregateTrackerConfig where
  toPayloadKey : SyncAggregateSnapshot → String
  progressThrottleMs : ℤ := 350

section Tracker

variable (config : SyncAggregateTrackerConfig)

def maybeEmit (now : ℤ) (throttleProgress : Bool) (payload : SyncAggregateSnapshot) (user : UserState) :
    UserState × Option SyncAggregateMessage :=
  if user.lastPayloadKey = some (config.toPayloadKey payload) then (user, none)
  else if throttleProgress = true ∧ now - user.lastProgressEmitAt.getD 0 < config.progressThrottleMs then
    (user, none)
  else
    ({ user with
        lastProgressEmitAt := if throttleProgress then some now else user.lastProgressEmitAt
        lastPayloadKey := some (config.toPayloadKey payload)
        highWaterPercent := if payload.syncing then some payload.progressPercent else none
        sequence := user.sequence + 1 },
      some { payload with seq := user.sequence + 1 })

inductive Call
  | trackProgress (update : SyncProgressUpdate) (merged computed emitted : ℤ)
  | trackDestinationSync (result : DestinationSyncResult) (lastSyncedAt : Option String) (computed emitted : ℤ)
  | holdSyncing (userId : String)
  | releaseSyncing (userId : String)
  | resetUser (userId : String)

def Call.userId : Call → String
  | .trackProgress update .. => update.userId
  | .trackDestinationSync result .. => result.userId
  | .holdSyncing userId | .releaseSyncing userId | .resetUser userId => userId

def Call.apply (user : UserState) : Call → UserState × Option SyncAggregateMessage
  | .trackProgress update merged computed emitted =>
    let entry := mergeProgressEntry (user.progress.get? update.calendarId) update merged
    let user := { user with progress := user.progress.set update.calendarId entry }
    maybeEmit config emitted (!update.isError) (computeSnapshot none computed user) user
  | .trackDestinationSync result lastSyncedAt computed emitted =>
    let entry := finalizeEntry (user.progress.get? result.calendarId) (result.completedSuccessfully.getD true)
    let user := { user with progress := user.progress.set result.calendarId entry }
    maybeEmit config emitted false
      (computeSnapshot (lastSyncedAt.filter (· ≠ "")) computed user) user
  | .holdSyncing _ => ({ user with isSyncingHeld := true }, none)
  | .releaseSyncing _ => ({ user with isSyncingHeld := false }, none)
  | .resetUser _ =>
    ({ user with
        progress := JsMap.empty
        highWaterPercent := none
        lastPayloadKey := none
        lastProgressEmitAt := none }, none)

def track : List Call → String → UserState
  | [], _ => {}
  | call :: calls, userId =>
    if call.userId = userId then (call.apply config (track calls userId)).1
    else track calls userId

def emitted (calls : List Call) (call : Call) : Option SyncAggregateMessage :=
  (call.apply config (track config calls call.userId)).2

/-! ## What is shown -/

/-- A message of a user, or a reset. -/
inductive Mark
  | message (message : SyncAggregateMessage)
  | reset

def Mark.message? : Mark → Option SyncAggregateMessage
  | .message shown => some shown
  | .reset => none

def Call.marks (message : Option SyncAggregateMessage) : Call → List Mark
  | .resetUser _ => [.reset]
  | _ => (message.map Mark.message).toList

/-- The messages and resets of a user, the latest first. -/
def marks (userId : String) : List Call → List Mark
  | [] => []
  | call :: calls =>
    if call.userId = userId then
      call.marks (emitted config calls call) ++ marks userId calls
    else marks userId calls

def messages (userId : String) (calls : List Call) : List SyncAggregateMessage :=
  (marks config userId calls).filterMap Mark.message?

def isHeld (userId : String) : List Call → Bool
  | [] => false
  | .holdSyncing id :: calls => decide (id = userId) || isHeld userId calls
  | .releaseSyncing id :: calls => !decide (id = userId) && isHeld userId calls
  | _ :: calls => isHeld userId calls

/-- The latest update of a calendar since the reset is a syncing one, and not finalized. -/
def isSyncing (userId calendarId : String) : List Call → Bool
  | [] => false
  | .trackProgress update .. :: calls =>
    if update.userId = userId ∧ update.calendarId = calendarId then !update.isError
    else isSyncing userId calendarId calls
  | .trackDestinationSync result .. :: calls =>
    !decide (result.userId = userId ∧ result.calendarId = calendarId) && isSyncing userId calendarId calls
  | .resetUser id :: calls => !decide (id = userId) && isSyncing userId calendarId calls
  | _ :: calls => isSyncing userId calendarId calls

/-- The counts of an update are not negative. -/
def Call.IsCount : Call → Prop
  | .trackProgress update .. => ∀ counts ∈ update.progress, 0 ≤ counts.current ∧ 0 ≤ counts.total
  | _ => True

structure SyncAggregateSnapshot.IsBounded (snapshot : SyncAggregateSnapshot) : Prop where
  processed : 0 ≤ snapshot.syncEventsProcessed ∧ snapshot.syncEventsProcessed ≤ snapshot.syncEventsTotal
  remaining : snapshot.syncEventsRemaining = snapshot.syncEventsTotal - snapshot.syncEventsProcessed
  percent : 0 ≤ snapshot.progressPercent ∧ snapshot.progressPercent ≤ 100

/-- A message may follow another one. -/
def Follows : Mark → Mark → Prop
  | .message next, .message previous => next.toSyncAggregateSnapshot ≠ previous.toSyncAggregateSnapshot ∧
      (previous.syncing = true → next.syncing = true → previous.progressPercent ≤ next.progressPercent)
  | _, _ => True

structure Shown (userId : String) (calls : List Call) : Prop where
  numbered : ((messages config userId calls).map (·.seq)).reverse =
    List.range' 1 (messages config userId calls).length
  bounded : ∀ message ∈ messages config userId calls, message.IsBounded
  follows : (marks config userId calls).IsChain Follows
  syncing : ∀ call message, call.userId = userId → emitted config calls call = some message →
    (message.syncing = true ↔ isHeld userId (call :: calls) = true ∨
      ∃ calendarId, isSyncing userId calendarId (call :: calls) = true)

/-! ## Snapshots -/

section Snapshots

variable {lastSyncedAt : Option String} {now : ℤ} {user : UserState}

theorem computeSnapshot_syncing : (computeSnapshot lastSyncedAt now user).syncing = true ↔
    user.isSyncingHeld = true ∨ ∃ calendarId entry, user.progress.get? calendarId = some entry ∧
      entry.status = .syncing := by
  rw [computeSnapshot]
  by_cases hempty : user.progress.entries = []
  · rw [if_pos hempty]
    refine ⟨Or.inl, fun h => h.elim (fun hheld => hheld) ?_⟩
    rintro ⟨calendarId, entry, hentry, -⟩
    exact absurd (JsMap.mem_entries_iff.2 hentry) (hempty ▸ List.not_mem_nil)
  · rw [if_neg hempty, or_comm]
    simp only [Bool.or_eq_true, List.any_eq_true, JsMap.mem_values_iff, decide_eq_true_eq]
    refine or_congr_left ⟨?_, ?_⟩
    · rintro ⟨entry, ⟨calendarId, hentry⟩, hstatus⟩
      exact ⟨calendarId, entry, hentry, hstatus⟩
    · rintro ⟨calendarId, entry, hentry, hstatus⟩
      exact ⟨entry, ⟨calendarId, hentry⟩, hstatus⟩

theorem calculatePercent_mem {processed total : ℚ} (h : 0 ≤ processed) (hle : processed ≤ total) (syncing : Bool) :
    0 ≤ calculatePercent processed total syncing ∧ calculatePercent processed total syncing ≤ 100 := by
  rw [calculatePercent]
  split_ifs with hzero
  · norm_num
  · norm_num
  · have hpos : 0 < total := lt_of_le_of_ne (h.trans hle) (Ne.symm hzero)
    have hquotient := (div_le_one hpos).2 hle
    exact ⟨by positivity, by linarith⟩

/-- **The counts and the percentage** of a snapshot are in their bounds. -/
theorem computeSnapshot_isBounded
    (hentries : ∀ entry ∈ user.progress.values, 0 ≤ entry.processed ∧ entry.processed ≤ entry.total)
    (hhighWater : ∀ percent ∈ user.highWaterPercent, 0 ≤ percent ∧ percent ≤ 100) :
    (computeSnapshot lastSyncedAt now user).IsBounded := by
  have hprocessed : 0 ≤ (user.progress.values.map (·.processed)).sum :=
    List.sum_nonneg (List.forall_mem_map.2 fun entry hentry => (hentries entry hentry).1)
  have hle : (user.progress.values.map (·.processed)).sum ≤ (user.progress.values.map (·.total)).sum :=
    List.sum_le_sum fun entry hentry => (hentries entry hentry).2
  rw [computeSnapshot]
  split_ifs with hempty hheld
  · exact ⟨⟨le_rfl, le_rfl⟩, (sub_zero 0).symm, le_rfl, by norm_num⟩
  · exact ⟨⟨le_rfl, le_rfl⟩, (sub_zero 0).symm, by norm_num, le_rfl⟩
  · refine ⟨⟨hprocessed, hle⟩, max_eq_left (sub_nonneg.2 hle), ?_⟩
    have hpercent := calculatePercent_mem hprocessed hle
      (user.progress.values.any (fun entry => decide (entry.status = .syncing)) || user.isSyncingHeld)
    dsimp only
    split_ifs with hsyncing
    · refine ⟨hpercent.1.trans (le_max_left ..), max_le hpercent.2 ?_⟩
      cases hhigh : user.highWaterPercent with
      | none => norm_num
      | some percent => exact (hhighWater percent hhigh).2
    · exact hpercent

theorem le_computeSnapshot_percent {percent : ℚ} (hentries : user.progress.entries ≠ [])
    (hsyncing : (computeSnapshot lastSyncedAt now user).syncing = true) (h : user.highWaterPercent = some percent) :
    percent ≤ (computeSnapshot lastSyncedAt now user).progressPercent := by
  rw [computeSnapshot, if_neg hentries] at hsyncing ⊢
  dsimp only at hsyncing ⊢
  rw [if_pos hsyncing, h]
  exact le_max_right ..

end Snapshots

theorem mergeProgressEntry_mem {current : Option CalendarOperationProgress} {update : SyncProgressUpdate} (now : ℤ)
    (hcurrent : ∀ entry ∈ current, 0 ≤ entry.processed ∧ entry.processed ≤ entry.total)
    (hupdate : ∀ counts ∈ update.progress, 0 ≤ counts.current ∧ 0 ≤ counts.total) :
    0 ≤ (mergeProgressEntry current update now).processed ∧
      (mergeProgressEntry current update now).processed ≤ (mergeProgressEntry current update now).total := by
  have hclamp : ∀ {processed total : ℚ}, 0 ≤ total →
      0 ≤ clampProgress processed total ∧ clampProgress processed total ≤ total := by
    intro processed total htotal
    rw [clampProgress]
    split_ifs with hneg hmore
    · exact ⟨le_rfl, htotal⟩
    · exact ⟨htotal, le_rfl⟩
    · exact ⟨not_lt.1 hneg, not_lt.1 hmore⟩
  refine hclamp ?_
  cases hprogress : update.progress with
  | some counts => exact (hupdate counts hprogress).2
  | none =>
    cases hfilter : current.filter fun entry => decide (entry.status ≠ .idle) with
    | none => exact le_rfl
    | some entry =>
      have hentry := hcurrent entry (Option.filter_eq_some_iff.1 hfilter).1
      exact hentry.1.trans hentry.2

theorem finalizeEntry_mem {current : Option CalendarOperationProgress} (completedSuccessfully : Bool)
    (hcurrent : ∀ entry ∈ current, 0 ≤ entry.processed ∧ entry.processed ≤ entry.total) :
    0 ≤ (finalizeEntry current completedSuccessfully).processed ∧
      (finalizeEntry current completedSuccessfully).processed ≤ (finalizeEntry current completedSuccessfully).total := by
  rw [finalizeEntry]
  cases current with
  | none =>
    dsimp only [Option.map_none, Option.getD_none]
    rw [if_neg fun h => absurd h.1 (lt_irrefl 0)]
    exact ⟨le_rfl, le_rfl⟩
  | some entry =>
    have hentry := hcurrent entry rfl
    dsimp only [Option.map_some, Option.getD_some]
    split_ifs with htotal
    · exact ⟨htotal.1.le, le_rfl⟩
    · exact hentry

/-! ## Calls -/

variable {config}

theorem maybeEmit_cases (now : ℤ) (throttleProgress : Bool) (payload : SyncAggregateSnapshot) (user : UserState) :
    maybeEmit config now throttleProgress payload user = (user, none) ∨
      user.lastPayloadKey ≠ some (config.toPayloadKey payload) ∧ ∃ lastProgressEmitAt,
        maybeEmit config now throttleProgress payload user =
          ({ user with
              lastProgressEmitAt
              lastPayloadKey := some (config.toPayloadKey payload)
              highWaterPercent := if payload.syncing then some payload.progressPercent else none
              sequence := user.sequence + 1 }, some { payload with seq := user.sequence + 1 }) := by
  rw [maybeEmit]
  by_cases hsame : user.lastPayloadKey = some (config.toPayloadKey payload)
  · exact Or.inl (if_pos hsame)
  rw [if_neg hsame]
  by_cases hthrottled : throttleProgress = true ∧ now - user.lastProgressEmitAt.getD 0 < config.progressThrottleMs
  · exact Or.inl (if_pos hthrottled)
  · exact Or.inr ⟨hsame, _, if_neg hthrottled⟩

/-- A call sets the entry of a calendar, and may emit what it has come to. -/
structure Sets (userId calendarId : String) (entry : CalendarOperationProgress) (calls : List Call) (call : Call) :
    Prop where
  ofUser : call.userId = userId
  applies : ∃ lastSyncedAt computed now throttleProgress,
    let user := track config calls userId
    let user := { user with progress := user.progress.set calendarId entry }
    call.apply config (track config calls userId) =
      maybeEmit config now throttleProgress (computeSnapshot lastSyncedAt computed user) user
  marks : marks config userId (call :: calls) =
    ((emitted config calls call).map Mark.message).toList ++
      marks config userId calls
  syncing : ∀ id, isSyncing userId id (call :: calls) = true ↔
    if calendarId = id then entry.status = .syncing else isSyncing userId id calls = true
  held : isHeld userId (call :: calls) = isHeld userId calls

section Calls

variable {userId calendarId : String} {entry : CalendarOperationProgress} {calls : List Call} {call : Call}

theorem sets_trackProgress (update : SyncProgressUpdate) (merged computed now : ℤ) (calls : List Call) :
    @Sets config update.userId update.calendarId
      (mergeProgressEntry ((track config calls update.userId).progress.get? update.calendarId)
        update merged) calls (.trackProgress update merged computed now) where
  ofUser := rfl
  applies := ⟨none, computed, now, !update.isError, rfl⟩
  marks := if_pos rfl
  syncing id := by
    rw [isSyncing, mergeProgressEntry]
    cases hid : decide (update.calendarId = id) <;> cases update.isError <;> simp_all
  held := rfl

theorem sets_trackDestinationSync (result : DestinationSyncResult) (lastSyncedAt : Option String)
    (computed now : ℤ) (calls : List Call) :
    @Sets config result.userId result.calendarId
      (finalizeEntry ((track config calls result.userId).progress.get? result.calendarId)
        (result.completedSuccessfully.getD true)) calls (.trackDestinationSync result lastSyncedAt computed now) where
  ofUser := rfl
  applies := ⟨lastSyncedAt.filter (· ≠ ""), computed, now, false, rfl⟩
  marks := if_pos rfl
  syncing id := by
    rw [isSyncing, finalizeEntry]
    by_cases hid : result.calendarId = id <;> simp [hid]
  held := rfl

variable (hsets : @Sets config userId calendarId entry calls call)

include hsets

theorem Sets.cases :
    let user := track config calls userId
    let user := { user with progress := user.progress.set calendarId entry }
    (emitted config calls call = none ∧
        track config (call :: calls) userId = user) ∨
      ∃ lastSyncedAt computed lastProgressEmitAt,
        let payload := computeSnapshot lastSyncedAt computed user
        user.lastPayloadKey ≠ some (config.toPayloadKey payload) ∧
        emitted config calls call = some { payload with seq := user.sequence + 1 } ∧
        track config (call :: calls) userId = { user with
          lastProgressEmitAt
          lastPayloadKey := some (config.toPayloadKey payload)
          highWaterPercent := if payload.syncing then some payload.progressPercent else none
          sequence := user.sequence + 1 } := by
  obtain ⟨lastSyncedAt, computed, now, throttleProgress, happlies⟩ := hsets.applies
  rw [emitted, track, if_pos hsets.ofUser, hsets.ofUser, happlies]
  rcases @maybeEmit_cases config now throttleProgress
    (computeSnapshot lastSyncedAt computed _) _ with heq | ⟨hne, lastProgressEmitAt, heq⟩
  · exact Or.inl ⟨congrArg Prod.snd heq, congrArg Prod.fst heq⟩
  · exact Or.inr ⟨lastSyncedAt, computed, lastProgressEmitAt, hne, congrArg Prod.snd heq, congrArg Prod.fst heq⟩

end Calls

/-! ## Runs -/

variable (config)

/-- The entries of a user say what is syncing. -/
structure Tracks (userId : String) (calls : List Call) : Prop where
  syncing : ∀ calendarId, (∃ entry,
    (track config calls userId).progress.get? calendarId = some entry ∧
      entry.status = .syncing) ↔ isSyncing userId calendarId calls = true
  held : (track config calls userId).isSyncingHeld = isHeld userId calls

/-- What the next message of a user rests on. -/
structure Inv (userId : String) (calls : List Call) : Prop where
  entries : ∀ calendarId entry,
    (track config calls userId).progress.get? calendarId = some entry →
      0 ≤ entry.processed ∧ entry.processed ≤ entry.total
  highWater : ∀ percent ∈ (track config calls userId).highWaterPercent,
    0 ≤ percent ∧ percent ≤ 100
  sequence : (track config calls userId).sequence =
    (messages config userId calls).length
  latest : ∀ message marks', marks config userId calls = .message message :: marks' →
    (track config calls userId).lastPayloadKey =
        some (config.toPayloadKey message.toSyncAggregateSnapshot) ∧
      (message.syncing = true →
        (track config calls userId).highWaterPercent = some message.progressPercent)
  numbered : ((messages config userId calls).map (·.seq)).reverse =
    List.range' 1 (messages config userId calls).length
  bounded : ∀ message ∈ messages config userId calls, message.IsBounded
  follows : (marks config userId calls).IsChain Follows

variable {config}

section Runs

variable {userId calendarId : String} {entry : CalendarOperationProgress} {calls : List Call} {call : Call}
  (hsets : @Sets config userId calendarId entry calls call)

include hsets

theorem Tracks.sets (h : Tracks config userId calls) :
    Tracks config userId (call :: calls) := by
  have hboth : (track config (call :: calls) userId).progress =
      (track config calls userId).progress.set calendarId entry ∧
      (track config (call :: calls) userId).isSyncingHeld =
        (track config calls userId).isSyncingHeld := by
    rcases hsets.cases with ⟨-, htrack⟩ | ⟨_, _, _, -, -, htrack⟩ <;> exact htrack ▸ ⟨rfl, rfl⟩
  refine ⟨fun id => ?_, by rw [hboth.2, h.held, hsets.held]⟩
  rw [hboth.1, hsets.syncing, JsMap.get?_set]
  by_cases hid : calendarId = id
  · simp only [hid, if_true, Option.some.injEq, exists_eq_left']
  · simp only [hid, if_false, h.syncing]

/-- **A call keeps the invariant**, where the entry that it sets is in its bounds. -/
theorem Inv.sets (h : Inv config userId calls)
    (hentry : 0 ≤ entry.processed ∧ entry.processed ≤ entry.total) :
    Inv config userId (call :: calls) := by
  have hentries : ∀ id other,
      ((track config calls userId).progress.set calendarId entry).get? id = some other →
        0 ≤ other.processed ∧ other.processed ≤ other.total := by
    intro id other hother
    rw [JsMap.get?_set] at hother
    split_ifs at hother
    · exact Option.some.inj hother ▸ hentry
    · exact h.entries id other hother
  rcases hsets.cases with ⟨hnone, htrack⟩ | ⟨lastSyncedAt, computed, lastProgressEmitAt, hne, hsome, htrack⟩
  · have hmarks : marks config userId (call :: calls) =
        marks config userId calls := by rw [hsets.marks, hnone]; rfl
    have hmessages : messages config userId (call :: calls) =
        messages config userId calls := by rw [messages, hmarks]; rfl
    constructor <;> simp only [htrack, hmarks, hmessages]
    exacts [hentries, h.highWater, h.sequence, h.latest, h.numbered, h.bounded, h.follows]
  · dsimp only at hne hsome htrack
    generalize hpayload : computeSnapshot lastSyncedAt computed _ = payload at hne hsome htrack
    have hbounded : payload.IsBounded := hpayload ▸ computeSnapshot_isBounded
      (fun other hother => (JsMap.mem_values_iff.1 hother).elim fun id hid => hentries id other hid) h.highWater
    have hmarks : marks config userId (call :: calls) =
        .message { payload with seq := (track config calls userId).sequence + 1 } ::
          marks config userId calls := by rw [hsets.marks, hsome]; rfl
    have hmessages : messages config userId (call :: calls) =
        { payload with seq := (track config calls userId).sequence + 1 } ::
          messages config userId calls := by rw [messages, hmarks]; rfl
    constructor <;> simp only [htrack, hmarks, hmessages]
    · exact hentries
    · intro percent hpercent
      split_ifs at hpercent
      · exact Option.some.inj hpercent ▸ hbounded.percent
      · cases hpercent
    · rw [List.length_cons, h.sequence]
    · intro message marks' heq
      obtain ⟨hmessage, -⟩ := List.cons.inj heq
      obtain rfl := Mark.message.inj hmessage
      exact ⟨rfl, fun hsyncing => if_pos hsyncing⟩
    · rw [List.map_cons, List.reverse_cons, h.numbered, List.length_cons, List.range'_concat, h.sequence, Nat.one_mul,
        Nat.add_comm]
    · exact List.forall_mem_cons.2 ⟨hbounded, h.bounded⟩
    · refine List.isChain_cons.2 ⟨fun mark hmark => ?_, h.follows⟩
      cases mark with
      | reset => trivial
      | message previous =>
        obtain ⟨marks', hmarks'⟩ := List.head?_eq_some_iff.1 hmark
        obtain ⟨hkey, hhighWater⟩ := h.latest previous marks' hmarks'
        refine ⟨fun heq => hne (hkey.trans (congrArg (fun shown => some (config.toPayloadKey shown)) heq.symm)),
          fun hprevious hnext => ?_⟩
        subst hpayload
        refine le_computeSnapshot_percent ?_ hnext (hhighWater hprevious)
        exact List.ne_nil_of_mem (JsMap.mem_entries_iff.2 (JsMap.get?_set_self ..))

end Runs

variable {userId : String} {calls : List Call} {call : Call}

theorem Tracks.of_ne (h : Tracks config userId calls) (hne : call.userId ≠ userId) :
    Tracks config userId (call :: calls) := by
  constructor <;> rw [track, if_neg hne]
  · intro calendarId
    rw [h.syncing]
    cases call <;> simp_all [isSyncing, Call.userId]
  · rw [h.held]
    cases call <;> simp_all [isHeld, Call.userId]

theorem tracks (userId : String) (calls : List Call) : Tracks config userId calls := by
  induction calls with
  | nil =>
    refine ⟨fun calendarId => ⟨?_, fun h => absurd h Bool.false_ne_true⟩, rfl⟩
    rintro ⟨entry, hentry, -⟩
    exact absurd hentry.symm (Option.some_ne_none _)
  | cons call calls ih =>
    by_cases hne : call.userId = userId
    · subst hne
      cases call with
      | trackProgress update merged computed now => exact ih.sets (sets_trackProgress ..)
      | trackDestinationSync result lastSyncedAt computed now => exact ih.sets (sets_trackDestinationSync ..)
      | holdSyncing id =>
        rw [Call.userId] at ih
        constructor <;> simp only [track, Call.userId, if_true, Call.apply, isSyncing, isHeld, decide_true, Bool.true_or]
        exact ih.syncing
      | releaseSyncing id =>
        rw [Call.userId] at ih
        constructor <;> simp only [track, Call.userId, if_true, Call.apply, isSyncing, isHeld, decide_true,
          Bool.not_true, Bool.false_and]
        exact ih.syncing
      | resetUser id =>
        rw [Call.userId] at ih
        constructor <;> simp only [track, Call.userId, if_true, Call.apply, isSyncing, isHeld, decide_true,
          Bool.not_true, Bool.false_and, JsMap.get?_empty]
        · simp
        · exact ih.held
    · exact ih.of_ne hne

theorem Inv.of_ne (h : Inv config userId calls) (hne : call.userId ≠ userId) :
    Inv config userId (call :: calls) := by
  constructor <;> simp only [track, messages, marks, if_neg hne]
  exacts [h.entries, h.highWater, h.sequence, h.latest, h.numbered, h.bounded, h.follows]

theorem inv (userId : String) (hcalls : ∀ call ∈ calls, call.IsCount) :
    Inv config userId calls := by
  induction calls with
  | nil =>
    constructor
    · exact fun calendarId entry hentry => absurd hentry.symm (Option.some_ne_none _)
    · exact fun percent hpercent => absurd hpercent (Option.not_mem_none _)
    · rfl
    · exact fun message marks' heq => absurd heq.symm (List.cons_ne_nil _ _)
    · rfl
    · exact fun message hmessage => absurd hmessage List.not_mem_nil
    · exact List.IsChain.nil
  | cons call calls ih =>
    have h := ih fun other hother => hcalls other (List.mem_cons_of_mem _ hother)
    have hcall := hcalls call List.mem_cons_self
    by_cases hne : call.userId = userId
    · subst hne
      cases call with
      | trackProgress update merged computed now =>
        exact h.sets (sets_trackProgress ..)
          (mergeProgressEntry_mem merged (fun entry hentry => h.entries update.calendarId entry hentry) hcall)
      | trackDestinationSync result lastSyncedAt computed now =>
        exact h.sets (sets_trackDestinationSync ..)
          (finalizeEntry_mem _ fun entry hentry => h.entries result.calendarId entry hentry)
      | holdSyncing id | releaseSyncing id =>
        rw [Call.userId] at h
        constructor <;> simp only [track, messages, marks, Call.userId, if_true, Call.apply, Call.marks, emitted,
          Option.map_none, Option.toList_none, List.nil_append]
        exacts [h.entries, h.highWater, h.sequence, h.latest, h.numbered, h.bounded, h.follows]
      | resetUser id =>
        rw [Call.userId] at h
        constructor <;> simp only [track, messages, marks, Call.userId, if_true, Call.apply, Call.marks,
          List.singleton_append, List.filterMap_cons, Mark.message?]
        · exact fun calendarId entry hentry => absurd hentry.symm (Option.some_ne_none _)
        · exact fun percent hpercent => absurd hpercent (Option.not_mem_none _)
        · exact h.sequence
        · exact fun message marks' heq => Mark.noConfusion (List.cons.inj heq).1
        · exact h.numbered
        · exact h.bounded
        · exact List.isChain_cons.2 ⟨fun mark _ => by cases mark <;> trivial, h.follows⟩
    · exact h.of_ne hne

theorem emitted_syncing {message : SyncAggregateMessage}
    (hmessage : emitted config calls call = some message) :
    message.syncing = true ↔ isHeld call.userId (call :: calls) = true ∨
      ∃ calendarId, isSyncing call.userId calendarId (call :: calls) = true := by
  have h := @tracks config call.userId (call :: calls)
  have hsets : ∀ {calendarId entry}, @Sets config call.userId calendarId entry calls call →
      (message.syncing = true ↔ isHeld call.userId (call :: calls) = true ∨
        ∃ calendarId, isSyncing call.userId calendarId (call :: calls) = true) := by
    intro calendarId entry hsets
    rcases hsets.cases with ⟨hnone, -⟩ | ⟨lastSyncedAt, computed, lastProgressEmitAt, -, hsome, htrack⟩
    · exact absurd (hmessage.symm.trans hnone) (Option.some_ne_none _)
    · obtain rfl := Option.some.inj (hsome.symm.trans hmessage)
      simp only [← h.syncing, ← h.held, htrack]
      exact computeSnapshot_syncing
  cases call with
  | trackProgress update merged computed now => exact hsets (sets_trackProgress ..)
  | trackDestinationSync result lastSyncedAt computed now => exact hsets (sets_trackDestinationSync ..)
  | holdSyncing id | releaseSyncing id | resetUser id => exact absurd hmessage.symm (Option.some_ne_none _)

/-- **What is shown** after any calls. -/
theorem shown_of_calls (userId : String) (hcalls : ∀ call ∈ calls, call.IsCount) :
    Shown config userId calls := by
  have h := @inv config calls userId hcalls
  refine ⟨h.numbered, h.bounded, h.follows, ?_⟩
  rintro call message rfl hmessage
  exact emitted_syncing hmessage

end Tracker

end SyncProgress

end Keeper
