import Mathlib.Data.Int.Notation
import Mathlib.Data.Int.Order.Basic

/-!
# The ingest schedule

`database/ingest-schedule.ts`: the statements that claim, complete, release and wake a row of
`source_ingest_schedule`, each atomic. A statement of a batch is given here by what it does to one row.

* `sqlGreatest`, `sqlLeast`: they leave `NULL` out, unlike the other functions of SQL.
* `completeIngest_eq_some`, `claimIngest_eq_some`, …: what a statement that applies has done.
-/

namespace Keeper

/-! ## SQL -/

/-- `GREATEST` of two values, of which `NULL` is left out. -/
def sqlGreatest : Option ℤ → Option ℤ → Option ℤ
  | some a, some b => some (max a b)
  | some a, none => some a
  | none, b => b

/-- `LEAST` of two values, of which `NULL` is left out. -/
def sqlLeast : Option ℤ → Option ℤ → Option ℤ
  | some a, some b => some (min a b)
  | some a, none => some a
  | none, b => b

/-- The largest value of an `integer` column. An addition that exceeds it throws. -/
def integerMax : ℤ := 2147483647

def addInterval (time milliseconds : ℤ) : ℤ := time + milliseconds * 1000

/-! ## Records -/

inductive IngestScheduleLane
  | fleet
  | wake
  deriving DecidableEq

inductive IngestScheduleParkedReason
  | credentialRejected
  | ineligible
  | unresolvable
  deriving DecidableEq

/-- A row of `source_ingest_schedule`. -/
structure IngestScheduleRow where
  calendarId : String
  dueAt : Option ℤ := none
  failureCount : ℤ := 0
  lastAttemptAt : Option ℤ := none
  lastFailureAt : Option ℤ := none
  lastSuccessAt : Option ℤ := none
  leaseToken : Option String := none
  leasedUntil : Option ℤ := none
  parkedReason : Option IngestScheduleParkedReason := none
  releaseSeq : ℤ := 0
  updatedAt : ℤ := 0
  wakeCorrelationId : Option String := none
  wakeDueAt : Option ℤ := none
  wakeReceivedAt : Option ℤ := none
  wakeSeq : ℤ := 0

structure ClaimIngestsInput where
  lane : IngestScheduleLane
  leaseMs : ℤ
  leaseToken : String
  limit : ℤ

structure ClaimedIngest where
  calendarId : String
  claimedDueAt : Option ℤ
  failureCount : ℤ
  lagMs : ℤ
  leaseToken : String
  releaseSeq : ℤ
  userId : String
  wakeCorrelationId : Option String
  wakeDueAt : Option ℤ
  wakeReceivedAt : Option ℤ
  wakeSeq : ℤ

structure IngestCompletion where
  attempted : Bool
  calendarId : String
  claimedReleaseSeq : ℤ
  claimedWakeSeq : ℤ
  failed : Bool
  failureCount : ℤ
  leaseToken : String
  nextDueInMs : Option ℤ
  parkedReason : Option IngestScheduleParkedReason
  succeeded : Bool

structure ReleasedIngest where
  calendarId : String
  leaseToken : String

structure WakeIngestsInput where
  correlationId : Option String
  debounceMs : ℤ

/-! ## Claims -/

/-- `unleased`. -/
def isUnleased (now : ℤ) (row : IngestScheduleRow) : Bool := row.leasedUntil.all (· ≤ now)

/-- `buildEligibility`. -/
def isEligible (lane : IngestScheduleLane) (now : ℤ) (row : IngestScheduleRow) : Bool :=
  match lane with
  | .wake => row.wakeDueAt.any (· ≤ now) && row.dueAt.isSome &&
      (row.failureCount = 0 || row.dueAt.any (· ≤ now)) && isUnleased now row
  | .fleet => row.dueAt.any (· ≤ now) && isUnleased now row

/-- `buildLagReference`. -/
def lagReference (lane : IngestScheduleLane) (row : IngestScheduleRow) : Option ℤ :=
  match lane with
  | .wake => row.wakeDueAt
  | .fleet => row.dueAt

/-- `claimIngests`, of one row. `owner` is the user of its calendar, where the row is among the first
`limit` rows that are due and no other statement has locked it. -/
def claimIngest (now : ℤ) (input : ClaimIngestsInput) (owner : Option String)
    (row : IngestScheduleRow) : Option (ClaimedIngest × IngestScheduleRow) :=
  if input.limit ≤ 0 then none
  else if isEligible input.lane now row then
    owner.map fun userId =>
      ({ calendarId := row.calendarId
         claimedDueAt := row.dueAt
         failureCount := row.failureCount
         lagMs := (max 0 ((lagReference input.lane row).elim 0 (now - ·)) + 500) / 1000
         leaseToken := input.leaseToken
         releaseSeq := row.releaseSeq
         userId
         wakeCorrelationId := row.wakeCorrelationId
         wakeDueAt := row.wakeDueAt
         wakeReceivedAt := row.wakeReceivedAt
         wakeSeq := row.wakeSeq },
       { row with
         dueAt := some (addInterval now input.leaseMs)
         leasedUntil := some (addInterval now input.leaseMs)
         leaseToken := some input.leaseToken
         lastAttemptAt := some now
         updatedAt := now })
  else none

/-! ## Completions and releases -/

def consumesWake (completion : IngestCompletion) (row : IngestScheduleRow) : Bool :=
  completion.attempted && row.wakeSeq = completion.claimedWakeSeq

/-- `completeIngests`, of one row and the completion of the batch that is joined with it. -/
def completeIngest (now : ℤ) (completion : IngestCompletion) (row : IngestScheduleRow) :
    Option IngestScheduleRow :=
  let released : Bool := row.releaseSeq ≠ completion.claimedReleaseSeq
  let nextDue := completion.nextDueInMs.map (addInterval now)
  if row.calendarId = completion.calendarId ∧ row.leaseToken = some completion.leaseToken then
    some
      { row with
        dueAt := if released then row.dueAt else nextDue
        parkedReason := if released then row.parkedReason else completion.parkedReason
        failureCount := if released then row.failureCount else completion.failureCount
        lastFailureAt := if completion.failed && !released then some now else row.lastFailureAt
        lastSuccessAt := if completion.succeeded then some now else row.lastSuccessAt
        leasedUntil := none
        leaseToken := none
        wakeDueAt :=
          if consumesWake completion row then none
          else if !completion.attempted && completion.nextDueInMs.isSome then
            sqlGreatest row.wakeDueAt nextDue
          else row.wakeDueAt
        wakeReceivedAt := if consumesWake completion row then none else row.wakeReceivedAt
        wakeCorrelationId := if consumesWake completion row then none else row.wakeCorrelationId
        updatedAt := now }
  else none

/-- `releaseIngests`, of one row. -/
def releaseIngest (now : ℤ) (claim : ReleasedIngest) (row : IngestScheduleRow) :
    Option IngestScheduleRow :=
  if row.calendarId = claim.calendarId ∧ row.leaseToken = some claim.leaseToken then
    some
      { row with
        dueAt := if row.parkedReason = some .ineligible then none else some now
        leasedUntil := none
        leaseToken := none
        updatedAt := now }
  else none

/-! ## Wakes -/

/-- `servedByCurrentRead`: a comparison with `NULL` does not hold. -/
def servedByCurrentRead (now : ℤ) (row : IngestScheduleRow) : Bool :=
  row.leasedUntil.any (now < ·) &&
    row.wakeReceivedAt.all fun receivedAt => row.lastAttemptAt.any (receivedAt ≤ ·)

/-- `wakeIngests`, of one row of the calendars that it names. -/
def wakeIngest (now : ℤ) (input : WakeIngestsInput) (row : IngestScheduleRow) :
    Option IngestScheduleRow :=
  let deadline := some (addInterval now input.debounceMs)
  if row.dueAt.isSome ∧ row.wakeSeq < integerMax then
    some
      { row with
        wakeDueAt := sqlLeast (row.wakeDueAt.or deadline) deadline
        wakeReceivedAt :=
          if servedByCurrentRead now row then some now else row.wakeReceivedAt.or (some now)
        wakeCorrelationId :=
          if servedByCurrentRead now row then input.correlationId
          else row.wakeCorrelationId.or input.correlationId
        wakeSeq := row.wakeSeq + 1
        updatedAt := now }
  else none

/-! ## What a statement has done -/

section Statements

variable {now : ℤ} {row next : IngestScheduleRow}

theorem isSome_sqlGreatest {a b : Option ℤ} :
    (sqlGreatest a b).isSome = (a.isSome || b.isSome) := by
  cases a <;> cases b <;> rfl

theorem isUnleased_of_isEligible {lane : IngestScheduleLane} (h : isEligible lane now row = true) :
    isUnleased now row = true := by
  cases lane with
  | fleet =>
    simp only [isEligible, Bool.and_eq_true] at h
    exact h.2
  | wake =>
    simp only [isEligible, Bool.and_eq_true] at h
    exact h.2

/-- **A claim that is made** takes a row without an unexpired lease. -/
theorem claimIngest_eq_some {input : ClaimIngestsInput} {owner : Option String}
    {claim : ClaimedIngest} (h : claimIngest now input owner row = some (claim, next)) :
    isUnleased now row = true ∧ claim.leaseToken = input.leaseToken ∧
      claim.wakeSeq = row.wakeSeq ∧ next.leaseToken = some input.leaseToken ∧
      next.leasedUntil = some (addInterval now input.leaseMs) ∧ next.wakeSeq = row.wakeSeq ∧
      next.wakeDueAt = row.wakeDueAt ∧ next.wakeReceivedAt = row.wakeReceivedAt := by
  unfold claimIngest at h
  split_ifs at h with hlimit heligible
  obtain ⟨userId, -, heq⟩ := Option.map_eq_some_iff.1 h
  obtain ⟨rfl, rfl⟩ := Prod.mk.inj heq
  exact ⟨isUnleased_of_isEligible heligible, rfl, rfl, rfl, rfl, rfl, rfl, rfl⟩

/-- **A completion that applies** has the token of the row, and gives up the lease. -/
theorem completeIngest_eq_some {completion : IngestCompletion}
    (h : completeIngest now completion row = some next) :
    row.leaseToken = some completion.leaseToken ∧ next.leaseToken = none ∧
      next.leasedUntil = none ∧ next.wakeSeq = row.wakeSeq ∧
      next.wakeReceivedAt = (if consumesWake completion row then none else row.wakeReceivedAt) ∧
      next.wakeDueAt = (if consumesWake completion row then none
        else if !completion.attempted && completion.nextDueInMs.isSome then
          sqlGreatest row.wakeDueAt (completion.nextDueInMs.map (addInterval now))
        else row.wakeDueAt) := by
  by_cases hmatch : row.calendarId = completion.calendarId ∧
      row.leaseToken = some completion.leaseToken
  · obtain rfl := Option.some.inj ((if_pos hmatch).symm.trans h)
    exact ⟨hmatch.2, rfl, rfl, rfl, rfl, rfl⟩
  · exact absurd ((if_neg hmatch).symm.trans h) (by simp)

theorem completeIngest_eq_none {completion : IngestCompletion}
    (h : row.leaseToken ≠ some completion.leaseToken) : completeIngest now completion row = none :=
  if_neg fun hmatch => h hmatch.2

theorem releaseIngest_eq_some {claim : ReleasedIngest}
    (h : releaseIngest now claim row = some next) :
    row.leaseToken = some claim.leaseToken ∧ next.leaseToken = none ∧ next.leasedUntil = none ∧
      next.wakeSeq = row.wakeSeq ∧ next.wakeDueAt = row.wakeDueAt ∧
      next.wakeReceivedAt = row.wakeReceivedAt := by
  by_cases hmatch : row.calendarId = claim.calendarId ∧ row.leaseToken = some claim.leaseToken
  · obtain rfl := Option.some.inj ((if_pos hmatch).symm.trans h)
    exact ⟨hmatch.2, rfl, rfl, rfl, rfl, rfl⟩
  · exact absurd ((if_neg hmatch).symm.trans h) (by simp)

theorem releaseIngest_eq_none {claim : ReleasedIngest}
    (h : row.leaseToken ≠ some claim.leaseToken) : releaseIngest now claim row = none :=
  if_neg fun hmatch => h hmatch.2

/-- **A wake that applies** is pending, and counted. -/
theorem wakeIngest_eq_some {input : WakeIngestsInput} (h : wakeIngest now input row = some next) :
    next.leaseToken = row.leaseToken ∧ next.leasedUntil = row.leasedUntil ∧
      next.wakeSeq = row.wakeSeq + 1 ∧ next.wakeDueAt.isSome ∧ next.wakeReceivedAt.isSome := by
  by_cases hmatch : row.dueAt.isSome ∧ row.wakeSeq < integerMax
  swap
  · exact absurd ((if_neg hmatch).symm.trans h) (by simp)
  obtain rfl := Option.some.inj ((if_pos hmatch).symm.trans h)
  refine ⟨rfl, rfl, rfl, ?_, ?_⟩
  · cases hdue : row.wakeDueAt <;> simp [sqlLeast]
  · dsimp only
    split_ifs
    · rfl
    · cases hreceived : row.wakeReceivedAt <;> rfl

end Statements

end Keeper
