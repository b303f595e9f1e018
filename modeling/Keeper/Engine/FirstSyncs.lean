import Keeper.Engine.CallCounts
import Keeper.Recurrence.WithheldSeries
import Keeper.Sync.SourceAuthority

/-!
# First syncs

An attempt at a destination (`runDestinationAttempt` in `packages/sync/src/sync-user.ts`, with the verdict of
`destination-errors.ts`), from the reads of the reconciliation to the call of `recordFirstSyncs`, which tells
the user that a source has been copied. Locks, the choice of the provider and what is only reported are left
out: an attempt that ends there records nothing.

* `hasCoverage_of_verified`: a source that is recorded had coverage at both reads.
* `recordsOnlyWhatWentThrough_iff`: when an attempt records only sources whose run went through.
* `not_recordsOnlyWhatWentThrough`: a run that lost its lock at the first question is recorded.
-/

namespace Keeper

open JsArray

/-! ## Verdicts -/

inductive DestinationAttemptVerdict
  | failed
  | inconclusive
  | notWritable
  | succeeded
  deriving DecidableEq

def hasNoSuccessfulOperations (result : SyncCalendarResult) : Bool :=
  result.result.added == 0 && result.result.removed == 0 && result.conflictsResolved == 0 &&
    0 < result.result.addFailed + result.result.removeFailed

def hasAttemptedOperations (result : SyncCalendarResult) : Bool :=
  0 < result.result.added + result.result.removed + result.conflictsResolved +
    result.result.addFailed + result.result.removeFailed

def resolveDestinationAttemptVerdict (result : SyncCalendarResult) (superseded : Bool) :
    DestinationAttemptVerdict :=
  if superseded && !hasAttemptedOperations result then .inconclusive
  else if !hasNoSuccessfulOperations result then .succeeded
  else if result.writeAccessDenied then .notWritable
  else .failed

/-- `recordCompletedFirstSyncs`: what `recordFirstSyncs` is called with, if it is called. -/
def recordCompletedFirstSyncs (superseded : Bool) (verdict : DestinationAttemptVerdict)
    (verifiedSourceCalendarIds : List String) : Option (List String) :=
  if superseded || verdict ≠ .succeeded then none else some verifiedSourceCalendarIds

theorem recordCompletedFirstSyncs_eq_some_iff {result : SyncCalendarResult} {superseded : Bool}
    {verified ids : List String} :
    recordCompletedFirstSyncs superseded (resolveDestinationAttemptVerdict result superseded) verified =
        some ids ↔
      superseded = false ∧ hasNoSuccessfulOperations result = false ∧ ids = verified := by
  unfold recordCompletedFirstSyncs resolveDestinationAttemptVerdict
  cases superseded with
  | true => simp
  | false =>
    cases hasNoSuccessfulOperations result with
    | false => simp [eq_comm]
    | true => cases result.writeAccessDenied <;> simp

/-! ## Attempts -/

/-- `DestinationLocalState`, with the read of the events. -/
structure DestinationLocalState where
  existingMappings : List EventMapping
  read : DestinationEventRead

structure DestinationRemoteRead where
  authoritativeMappingIds : Option (List String)
  remoteEvents : List RemoteEvent

/-- An attempt at a destination: what it is given, what the database holds at its reads, and what it is told
each time it asks whether it is current. -/
structure DestinationAttempt (W : Type) where
  host : Host
  calendarId : String
  provider : CalendarSyncProvider W
  flush : Flush W
  requestedWindow : SyncWindow
  /-- The mapped sources and the rows of the calendars, when the authority is resolved first. -/
  sourceCalendarIds : List String
  calendars : List SourceCalendar
  /-- The mapped sources, the rows and the mappings, at the local read. -/
  sourceCalendarIdsAtLocalRead : List String
  calendarsAtLocalRead : List SourceCalendar
  existingMappings : List EventMapping
  getEventsForCalendars : List String → SyncWindow → Except Failure DestinationEventRead
  readDestinationRemoteEvents : DestinationLocalState → Effect Failure W DestinationRemoteRead
  /-- The answers of the lock handle, the clock and the signal, at each question. -/
  isHandleCurrent : ℕ → Bool
  now : ℕ → ℤ
  aborted : ℕ → Bool
  deadlineMs : Option ℤ := none

def haveSourceCalendarsChanged (beforeRemoteRead atLocalRead : List String) : Bool :=
  beforeRemoteRead.length ≠ atLocalRead.length ||
    toSorted Text.compareUnits beforeRemoteRead ≠ toSorted Text.compareUnits atLocalRead

def getBoundingSourceAuthorityWindow (sourceWindows : JsMap String SyncWindow) :
    Except RangeError (Option SyncWindow) :=
  match sourceWindows.values with
  | [] => .ok none
  | window :: windows => do
    let bounding ← createSyncWindow
      (some (windows.foldl (fun timeMin w => min timeMin w.timeMin) window.timeMin))
      (some (windows.foldl (fun timeMax w => max timeMax w.timeMax) window.timeMax))
    return some bounding

namespace DestinationAttempt

variable {W : Type} (a : DestinationAttempt W)

/-- `sourceCalendarsChangedDuringRemoteRead`. -/
def sourceCalendarsChanged : Bool :=
  haveSourceCalendarsChanged a.sourceCalendarIds a.sourceCalendarIdsAtLocalRead

/-- `authoritativeSourceWindows`, after the local read. -/
def authoritativeSourceWindows : JsMap String SyncWindow :=
  if a.sourceCalendarsChanged then JsMap.empty
  else narrowSourceAuthority
    (resolveSourceAuthority a.calendars a.sourceCalendarIds a.requestedWindow).sourceWindows
    (resolveSourceAuthority a.calendarsAtLocalRead a.sourceCalendarIdsAtLocalRead
      a.requestedWindow).sourceWindows

/-- `authoritativeWindow`, after the local read. -/
def authoritativeWindow : Option SyncWindow :=
  if a.sourceCalendarsChanged then none
  else createAggregateAuthorityWindow a.sourceCalendarIdsAtLocalRead a.authoritativeSourceWindows
    a.requestedWindow

def verifiedSourceCalendarIds : List String := a.authoritativeSourceWindows.keys

def readLocalState : Except Failure DestinationLocalState :=
  if a.sourceCalendarsChanged then .ok ⟨[], ⟨[], [], []⟩⟩
  else do
    let localReadWindow ← getBoundingSourceAuthorityWindow a.authoritativeSourceWindows
    match localReadWindow with
    | none => return ⟨a.existingMappings, ⟨[], [], []⟩⟩
    | some window =>
      let read ← a.getEventsForCalendars a.authoritativeSourceWindows.keys window
      return ⟨a.existingMappings, read⟩

/-- `isDestinationAttemptSuperseded`, at a question. -/
def isDestinationAttemptSuperseded (n : ℕ) : Bool :=
  if a.sourceCalendarsChanged then true
  else if a.aborted n then true
  else
    match a.deadlineMs.filter (· ≠ 0) with
    | none => false
    | some deadlineMs => deadlineMs ≤ a.now n

/-- `isAttemptCurrent`, at a question. -/
def isAttemptCurrent (n : ℕ) : Bool :=
  if a.isDestinationAttemptSuperseded n then false else a.isHandleCurrent n

/-- What `syncCalendar` is called with. -/
def syncOptions (localState : DestinationLocalState) (remote : DestinationRemoteRead) :
    SyncCalendarOptions W where
  host := a.host
  calendarId := a.calendarId
  provider := a.provider
  state := ⟨localState.read.events, localState.existingMappings, remote.remoteEvents⟩
  answers := a.isAttemptCurrent
  flush := a.flush
  reconciliationScope := createDestinationReconciliationScope {
    authoritativeMappingIds := remote.authoritativeMappingIds
    authoritativeSourceWindows := a.authoritativeSourceWindows
    authoritativeWindow := a.authoritativeWindow
    read := localState.read
    requestedWindow := a.requestedWindow
    sourceCalendarIdsAtLocalRead := a.sourceCalendarIdsAtLocalRead }

/-- `readDestinationReconciliationState`: the local read, then the remote one. -/
def readReconciliationState : Effect Failure W (SyncCalendarOptions W) :=
  match a.readLocalState with
  | .error e => Effect.throw e
  | .ok localState => do
    let remote ← a.readDestinationRemoteEvents localState
    pure (a.syncOptions localState remote)

/-- `calendarAttempt.superseded`: a question has found the attempt superseded. -/
def foundSuperseded (trace : List Call) : Bool :=
  (List.range (currencyChecks trace)).any a.isDestinationAttemptSuperseded

/-- `runDestinationAttempt`: what `recordFirstSyncs` is called with, if it is called. -/
def runDestinationAttempt : IoEffect W (Option (List String)) := do
  let o ← Effect.zoom (fun io : Io W => io.world) (fun io world => { io with world })
    a.readReconciliationState
  let result ← syncCalendar o
  let superseded ← Effect.gets fun io => a.foundSuperseded io.trace
  pure (recordCompletedFirstSyncs superseded (resolveDestinationAttemptVerdict result superseded)
    a.verifiedSourceCalendarIds)

def trace (world : W) : List Call := (a.runDestinationAttempt ⟨world, []⟩).2.trace

end DestinationAttempt

/-! ## Coverage -/

def HasCoverage (calendars : List SourceCalendar) (id : String) : Prop :=
  ∃ source ∈ calendars, source.id = id ∧ (resolveStoredSourceCoverage source).isSome = true

section Attempts

variable {W : Type} {a : DestinationAttempt W} {world : W}

theorem hasCoverage_of_sourceWindow {calendars : List SourceCalendar} {sourceCalendarIds : List String}
    {requestedWindow w : SyncWindow} {id : String}
    (h : (resolveSourceAuthority calendars sourceCalendarIds requestedWindow).sourceWindows.get? id =
      some w) : HasCoverage calendars id := by
  unfold resolveSourceAuthority at h
  split_ifs at h
  · cases h
  · have hentry := JsMap.get?_ofList_some h
    rw [List.mem_filterMap] at hentry
    obtain ⟨source, hsource, hwindow⟩ := hentry
    simp only [Option.bind_eq_bind, Option.bind_eq_some_iff, Option.pure_def, Option.some.injEq,
      Prod.mk.injEq] at hwindow
    obtain ⟨recorded, hrecorded, window, -, rfl, -⟩ := hwindow
    exact ⟨source, (List.mem_filter.1 hsource).1, rfl, by rw [hrecorded]; rfl⟩

/-- **A verified source** had coverage when the authority was resolved, and at the local read. -/
theorem hasCoverage_of_verified {id : String} (h : id ∈ a.verifiedSourceCalendarIds) :
    HasCoverage a.calendars id ∧ HasCoverage a.calendarsAtLocalRead id := by
  unfold DestinationAttempt.verifiedSourceCalendarIds DestinationAttempt.authoritativeSourceWindows at h
  split_ifs at h
  · cases h
  · obtain ⟨w, hw⟩ := JsMap.mem_keys_iff.1 h
    have hentry := JsMap.get?_ofList_some hw
    rw [List.mem_filterMap] at hentry
    obtain ⟨entry, hmem, hwindow⟩ := hentry
    simp only [Option.bind_eq_bind, Option.bind_eq_some_iff, Option.pure_def, Option.some.injEq,
      Prod.mk.injEq] at hwindow
    obtain ⟨currentWindow, hcurrent, narrowed, -, rfl, -⟩ := hwindow
    exact ⟨hasCoverage_of_sourceWindow (JsMap.mem_entries_iff.1 hmem), hasCoverage_of_sourceWindow hcurrent⟩

/-! ## What is recorded -/

/-- The attempt went through for a source: it had coverage at both reads, no question whether the attempt is
current was answered no, and an operation of the plan has succeeded, if there are any. -/
structure WentThrough (a : DestinationAttempt W) (world : W) (id : String) : Prop where
  before : HasCoverage a.calendars id
  atLocalRead : HasCoverage a.calendarsAtLocalRead id
  current : Call.isCurrent false ∉ a.trace world
  worked : ∃ o w, a.readReconciliationState world = (.ok o, w) ∧
    (o.plan.operations = [] ∨ ∃ c ∈ a.trace world, c.Succeeds)

def RecordsOnlyWhatWentThrough (a : DestinationAttempt W) (world : W) : Prop :=
  ∀ ids, (a.runDestinationAttempt ⟨world, []⟩).1 = .ok (some ids) → ∀ id ∈ ids, WentThrough a world id

/-- Where the lock handle says no to a question, the attempt was found superseded otherwise; or there is
nothing to record: no source is verified, a flush fails, or the destination refuses whatever is counted. -/
def KeepsLockOrRecordsNothing (a : DestinationAttempt W) (world : W) : Prop :=
  (∀ n < currencyChecks (a.trace world),
      a.isDestinationAttemptSuperseded n = true ∨ a.isHandleCurrent n = true) ∨
    a.verifiedSourceCalendarIds = [] ∨ (∃ changes, Call.flush changes false ∈ a.trace world) ∨
      (∃ c ∈ a.trace world, c.IsRefused) ∧ ∀ c ∈ a.trace world, ¬ c.IsCounted

theorem runDestinationAttempt_cases (a : DestinationAttempt W) (world : W) :
    (∃ e, (a.runDestinationAttempt ⟨world, []⟩).1 = .error e ∧ a.trace world = []) ∨
    ∃ o w, a.readReconciliationState world = (.ok o, w) ∧ o.answers = a.isAttemptCurrent ∧
      ((∃ e, (a.runDestinationAttempt ⟨world, []⟩).1 = .error e ∧ FailsCurrent o (a.trace world)) ∨
        ∃ result, Reported o result (a.trace world) ∧
          (a.runDestinationAttempt ⟨world, []⟩).1 = .ok (recordCompletedFirstSyncs
            (a.foundSuperseded (a.trace world))
            (resolveDestinationAttemptVerdict result (a.foundSuperseded (a.trace world)))
            a.verifiedSourceCalendarIds)) := by
  unfold DestinationAttempt.trace DestinationAttempt.runDestinationAttempt
  rcases hread : a.readReconciliationState world with ⟨e | o, w⟩
  · refine Or.inl ⟨e, ?_⟩
    rw [Effect.run_bind_error (Effect.run_zoom hread)]
    exact ⟨rfl, rfl⟩
  · refine Or.inr ⟨o, w, rfl, ?_, ?_⟩
    · unfold DestinationAttempt.readReconciliationState at hread
      cases hlocal : a.readLocalState with
      | error e =>
        rw [hlocal] at hread
        cases hread
      | ok localState =>
        rw [hlocal] at hread
        rcases hremote : a.readDestinationRemoteEvents localState world with ⟨e | remote, w'⟩
        · dsimp only at hread
          rw [Effect.run_bind_error hremote] at hread
          cases hread
        · dsimp only at hread
          rw [Effect.run_bind hremote] at hread
          cases hread
          rfl
    · rw [Effect.run_bind (Effect.run_zoom hread)]
      have hreported := wp_syncCalendar_reported o w
      unfold Effect.wp at hreported
      rcases hsync : syncCalendar o ⟨w, []⟩ with ⟨e | result, io⟩ <;> rw [hsync] at hreported
      · rw [Effect.run_bind_error hsync]
        exact Or.inl ⟨e, rfl, hreported⟩
      · rw [Effect.run_bind hsync]
        exact Or.inr ⟨result, hreported, rfl⟩

/-- The counts of a run show no success exactly where refusals were counted, and nothing else. -/
theorem Reported.hasNoSuccessfulOperations_iff {o : SyncCalendarOptions W} {result : SyncCalendarResult}
    {trace : List Call} (h : Reported o result trace) :
    hasNoSuccessfulOperations result = true ↔
      (∃ c ∈ trace, c.IsRefused) ∧ ∀ c ∈ trace, ¬ c.IsCounted := by
  have hnone : (∀ c ∈ trace, ¬ c.IsCounted) ↔
      ¬ 0 < result.result.added + result.result.removed + result.conflictsResolved := by
    rw [h.counted]
    simp only [not_exists, not_and]
  rw [hnone, ← h.refused]
  unfold hasNoSuccessfulOperations
  simp only [Bool.and_eq_true, beq_iff_eq, decide_eq_true_eq]
  omega

/-- **When an attempt records only sources for which it went through.** The run that goes wrong is one that the
lock handle ends: its counts are those of a run with nothing left to do. -/
theorem recordsOnlyWhatWentThrough_iff (a : DestinationAttempt W) (world : W) :
    RecordsOnlyWhatWentThrough a world ↔ KeepsLockOrRecordsNothing a world := by
  rcases runDestinationAttempt_cases a world with ⟨e, hrun, htrace⟩ | ⟨o, w, hread, hanswers, hrun⟩
  · -- The reads fail.
    refine iff_of_true (fun ids hids => ?_) (Or.inl fun n hlt => ?_)
    · rw [hrun] at hids
      cases hids
    · rw [htrace] at hlt
      exact absurd hlt (Nat.not_lt_zero n)
  have hno : ∀ n, o.answers n = false ↔
      a.isDestinationAttemptSuperseded n = true ∨ a.isHandleCurrent n = false := by
    intro n
    rw [hanswers]
    unfold DestinationAttempt.isAttemptCurrent
    cases a.isDestinationAttemptSuperseded n <;> simp
  have hfound : a.foundSuperseded (a.trace world) = false ↔
      ∀ n < currencyChecks (a.trace world), a.isDestinationAttemptSuperseded n = false := by
    simp [DestinationAttempt.foundSuperseded]
  rcases hrun with ⟨e, hrun, hfails⟩ | ⟨result, hreported, hrun⟩
  · -- The run fails: with every answer yes so far, or in a flush.
    refine iff_of_true (fun ids hids => ?_) ?_
    · rw [hrun] at hids
      cases hids
    · refine hfails.elim (fun hyes => Or.inl fun n hlt => ?_) fun hflush => Or.inr (Or.inr (Or.inl hflush))
      have hanswer := hyes n hlt
      refine Or.inr (not_not.1 fun hhandle => ?_)
      rw [(hno n).2 (Or.inr (Bool.not_eq_true _ ▸ hhandle))] at hanswer
      cases hanswer
  constructor
  · -- Otherwise the handle has said no, and the verified sources are recorded.
    intro hsafe
    by_contra hcondition
    unfold KeepsLockOrRecordsNothing at hcondition
    push Not at hcondition
    obtain ⟨⟨n, hlt, hsuperseded, hhandle⟩, hverified, -, hcounted⟩ := hcondition
    have hn : o.answers n = false := (hno n).2 (Or.inr (Bool.not_eq_true _ ▸ hhandle))
    have hlast : ∀ k < currencyChecks (a.trace world), o.answers k = false →
        k + 1 = currencyChecks (a.trace world) := by
      intro k hk hfalse
      refine (hreported.answered k hk).resolve_left fun hyes => ?_
      rw [hfalse] at hyes
      cases hyes
    have hunflagged : a.foundSuperseded (a.trace world) = false := by
      rw [hfound]
      intro k hk
      rw [← Bool.not_eq_true]
      intro hflag
      have hkn := hlast k hk ((hno k).2 (Or.inl hflag))
      have hnn := hlast n hlt hn
      obtain rfl : k = n := by omega
      exact hsuperseded hflag
    have hsuccess : hasNoSuccessfulOperations result = false := by
      rw [← Bool.not_eq_true, hreported.hasNoSuccessfulOperations_iff]
      rintro ⟨⟨c, hc, hrefused⟩, hnone⟩
      obtain ⟨c', hc', hcounted'⟩ := hcounted ⟨c, hc, hrefused⟩
      exact hnone c' hc' hcounted'
    obtain ⟨id, hid⟩ := List.exists_mem_of_ne_nil _ hverified
    have hrecords := recordCompletedFirstSyncs_eq_some_iff.2
      ⟨hunflagged, hsuccess, (rfl : a.verifiedSourceCalendarIds = _)⟩
    rw [hrecords] at hrun
    exact (hsafe _ hrun id hid).current (hreported.superseded.2 ⟨n, hlt, hn⟩)
  · intro hcondition ids hids id hid
    rw [hrun] at hids
    obtain ⟨hunflagged, hsuccess, rfl⟩ := recordCompletedFirstSyncs_eq_some_iff.1 (Except.ok.inj hids)
    rcases hcondition with hkeeps | hverified | ⟨changes, hflush⟩ | hrefused
    · have hcurrent : Call.isCurrent false ∉ a.trace world := by
        rw [hreported.superseded]
        rintro ⟨n, hlt, hanswer⟩
        have hflag := hfound.1 hunflagged n hlt
        rcases (hno n).1 hanswer with hsuperseded | hhandle
        · rw [hflag] at hsuperseded
          cases hsuperseded
        · rcases hkeeps n hlt with hsuperseded | hyes
          · rw [hflag] at hsuperseded
            cases hsuperseded
          · rw [hhandle] at hyes
            cases hyes
      obtain ⟨hbefore, hatLocalRead⟩ := hasCoverage_of_verified hid
      refine ⟨hbefore, hatLocalRead, hcurrent, o, w, hread, ?_⟩
      refine (hreported.finished hcurrent).imp_right ?_
      rintro ⟨c, hc, hsucceeds | hrefused⟩
      · exact ⟨c, hc, hsucceeds⟩
      · -- Something was refused, so that the verdict rests on a success that was counted.
        by_contra hnone
        refine Bool.eq_false_iff.1 hsuccess (hreported.hasNoSuccessfulOperations_iff.2 ⟨⟨c, hc, hrefused⟩, ?_⟩)
        exact fun c' hc' hcounted => hnone ⟨c', hc', hcounted.succeeds⟩
    · rw [hverified] at hid
      cases hid
    · exact absurd hflush (hreported.flushed changes)
    · exact absurd (hreported.hasNoSuccessfulOperations_iff.2 hrefused) (Bool.eq_false_iff.1 hsuccess)

end Attempts

/-! ## A lock that is lost -/

/-- A source whose fetch was recorded. -/
def coveredSource : SourceCalendar where
  id := "source"
  ingestFutureRange := "1_week"
  ingestHistoricRange := "1_week"
  ingestWindowEnd := some 604800000
  ingestWindowRecordedAt := some 0
  ingestWindowStart := some 0

def attemptWithoutLock : DestinationAttempt Unit where
  host := ⟨id, fun _ => "", fun _ _ => 0⟩
  calendarId := "destination"
  provider := { pushEvents := fun _ => pure [], deleteEvents := fun _ => pure [] }
  flush _ := pure ⟨⟩
  requestedWindow := ⟨0, 604800000⟩
  sourceCalendarIds := ["source"]
  calendars := [coveredSource]
  sourceCalendarIdsAtLocalRead := ["source"]
  calendarsAtLocalRead := [coveredSource]
  existingMappings := []
  getEventsForCalendars _ _ := .ok ⟨[], [], []⟩
  readDestinationRemoteEvents _ := pure ⟨none, []⟩
  isHandleCurrent _ := false
  now _ := 0
  aborted _ := false

/-- The attempt has read nothing of the plan, and its source is recorded. -/
theorem not_recordsOnlyWhatWentThrough : ¬ RecordsOnlyWhatWentThrough attemptWithoutLock () := by
  intro h
  have hrecorded : (attemptWithoutLock.runDestinationAttempt ⟨(), []⟩).1 = .ok (some ["source"]) := by
    decide
  refine (h _ hrecorded "source" (List.mem_singleton_self _)).current ?_
  decide

end Keeper
