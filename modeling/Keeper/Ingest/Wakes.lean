import Keeper.Ingest.Schedule
import Mathlib.Data.List.Basic
import Mathlib.Tactic.SplitIfs

/-!
# Wakes of a schedule row

Claims, completions, releases and wakes of one row, in any interleaving and with leases that lapse in
between. A completion carries the counters that its claim has captured.

* `isSafe_of_reaches`: a wake is pending until a later claim is completed, what does not hold the row
  changes nothing, and one claim at most holds an unexpired lease.
* `wakesStem_of_reaches`: where no completion that was not attempted sets a wake of its own, a pending
  wake stems from one that was not consumed.
* `not_wakesStem`: one does, because `GREATEST` leaves `NULL` out.
-/

namespace Keeper

/-! ## Runs -/

/-- A statement that has applied to the row. -/
inductive ScheduleEvent
  | woke
  | claimed (claim : ClaimedIngest) (leasedUntil : ℤ)
  | completed (completion : IngestCompletion)
  | released (claim : ReleasedIngest)

/-- The clock, the row, and what has applied to it, the latest first. -/
structure ScheduleSystem where
  now : ℤ
  row : IngestScheduleRow
  log : List ScheduleEvent

/-- What happens next: time passes, or a statement is executed. -/
inductive ScheduleCall
  | elapse (microseconds : ℕ)
  | claim (input : ClaimIngestsInput) (owner : Option String)
  | complete (completion : IngestCompletion)
  | release (claim : ReleasedIngest)
  | wake (input : WakeIngestsInput)

namespace ScheduleSystem

def start (now : ℤ) (row : IngestScheduleRow) : ScheduleSystem where
  now
  row := { row with leaseToken := none, leasedUntil := none }
  log := []

/-- The row after a statement, and the log, if it has applied. -/
def record (s : ScheduleSystem) (event : ScheduleEvent) :
    Option IngestScheduleRow → ScheduleSystem
  | none => s
  | some row => { s with row, log := event :: s.log }

def step (s : ScheduleSystem) : ScheduleCall → ScheduleSystem
  | .elapse microseconds => { s with now := s.now + microseconds }
  | .claim input owner =>
    match claimIngest s.now input owner s.row with
    | none => s
    | some (claim, row) => s.record (.claimed claim (addInterval s.now input.leaseMs)) (some row)
  | .complete completion => s.record (.completed completion) (completeIngest s.now completion s.row)
  | .release claim => s.record (.released claim) (releaseIngest s.now claim s.row)
  | .wake input => s.record .woke (wakeIngest s.now input s.row)

/-- A call of a client: a claim has a fresh token, and a completion with the token of a claim has the
counter that the claim has returned. -/
def IsGenuine (s : ScheduleSystem) : ScheduleCall → Prop
  | .claim input _ => ∀ claim leasedUntil, .claimed claim leasedUntil ∈ s.log →
      claim.leaseToken ≠ input.leaseToken
  | .complete completion => ∀ claim leasedUntil, .claimed claim leasedUntil ∈ s.log →
      claim.leaseToken = completion.leaseToken → completion.claimedWakeSeq = claim.wakeSeq
  | _ => True

/-- The states that calls of a kind lead to, from a row without a lease. -/
inductive Reaches (allowed : ScheduleSystem → ScheduleCall → Prop) (row : IngestScheduleRow) :
    ScheduleSystem → Prop
  | start (now : ℤ) : Reaches allowed row (start now row)
  | step {s : ScheduleSystem} (h : Reaches allowed row s) (call : ScheduleCall)
    (hallowed : allowed s call) : Reaches allowed row (s.step call)

/-! ## What is said of a state -/

/-- A claim of a list of events, the latest first, has been completed as attempted in it. -/
def Consumes : List ScheduleEvent → Prop
  | [] => False
  | .completed completion :: events =>
    (completion.attempted = true ∧ ∃ claim leasedUntil, .claimed claim leasedUntil ∈ events ∧
      completion.leaseToken = claim.leaseToken) ∨ Consumes events
  | _ :: events => Consumes events

/-- A token has been given up: its claim was completed or released. -/
def IsEnded (s : ScheduleSystem) (leaseToken : String) : Prop :=
  (∃ completion, .completed completion ∈ s.log ∧ completion.leaseToken = leaseToken) ∨
    ∃ claim, .released claim ∈ s.log ∧ claim.leaseToken = leaseToken

/-- A claim holds the row: it has not ended, and its lease has not expired. -/
structure Holds (s : ScheduleSystem) (claim : ClaimedIngest) (leasedUntil : ℤ) : Prop where
  claimed : .claimed claim leasedUntil ∈ s.log
  live : ¬ s.IsEnded claim.leaseToken
  unexpired : s.now < leasedUntil

structure IsSafe (s : ScheduleSystem) : Prop where
  /-- A wake is pending until a claim made after it is completed as attempted, with its own token and
  while it still has the row. -/
  pending : ∀ later earlier, s.log = later ++ .woke :: earlier →
    Consumes later ∨ s.row.wakeDueAt.isSome
  /-- A completion without the token of the row changes nothing. -/
  completion : ∀ completion, s.row.leaseToken ≠ some completion.leaseToken →
    s.step (.complete completion) = s
  /-- A release without the token of the row changes nothing. -/
  release : ∀ claim, s.row.leaseToken ≠ some claim.leaseToken → s.step (.release claim) = s
  /-- One claim at most holds the row. -/
  exclusive : ∀ claim leasedUntil claim' leasedUntil', s.Holds claim leasedUntil →
    s.Holds claim' leasedUntil' → claim = claim'

/-! ## Steps -/

inductive Applies (s : ScheduleSystem) : ScheduleCall → ScheduleEvent → IngestScheduleRow → Prop
  | claim {input owner claim row} (h : claimIngest s.now input owner s.row = some (claim, row)) :
    Applies s (.claim input owner) (.claimed claim (addInterval s.now input.leaseMs)) row
  | complete {completion row} (h : completeIngest s.now completion s.row = some row) :
    Applies s (.complete completion) (.completed completion) row
  | release {claim row} (h : releaseIngest s.now claim s.row = some row) :
    Applies s (.release claim) (.released claim) row
  | wake {input row} (h : wakeIngest s.now input s.row = some row) :
    Applies s (.wake input) .woke row

/-- **A step** lets time pass, changes nothing, or applies a statement. -/
theorem step_cases (s : ScheduleSystem) (call : ScheduleCall) :
    (∃ microseconds : ℕ, s.step call = { s with now := s.now + microseconds }) ∨
      ∃ event row, Applies s call event row ∧
        s.step call = { s with row, log := event :: s.log } := by
  have hidle : ∃ microseconds : ℕ, s = { s with now := s.now + microseconds } := by
    refine ⟨0, ?_⟩
    rw [Int.natCast_zero, Int.add_zero]
  cases call with
  | elapse microseconds => exact Or.inl ⟨microseconds, rfl⟩
  | claim input owner =>
    rw [step]
    cases h : claimIngest s.now input owner s.row with
    | none => exact Or.inl hidle
    | some claimed => exact Or.inr ⟨_, _, .claim h, rfl⟩
  | complete completion =>
    rw [step]
    cases h : completeIngest s.now completion s.row with
    | none => exact Or.inl hidle
    | some row => exact Or.inr ⟨_, _, .complete h, rfl⟩
  | release claim =>
    rw [step]
    cases h : releaseIngest s.now claim s.row with
    | none => exact Or.inl hidle
    | some row => exact Or.inr ⟨_, _, .release h, rfl⟩
  | wake input =>
    rw [step]
    cases h : wakeIngest s.now input s.row with
    | none => exact Or.inl hidle
    | some row => exact Or.inr ⟨_, _, .wake h, rfl⟩

/-! ## Counters -/

/-- The counters that the claims of a log have captured, where the latest is given. -/
def Counts : List ScheduleEvent → ℤ → Prop
  | [], _ => True
  | .woke :: log, wakeSeq => Counts log (wakeSeq - 1)
  | .claimed claim _ :: log, wakeSeq => claim.wakeSeq = wakeSeq ∧ Counts log wakeSeq
  | .completed _ :: log, wakeSeq => Counts log wakeSeq
  | .released _ :: log, wakeSeq => Counts log wakeSeq

section Counters

variable {log later earlier : List ScheduleEvent} {wakeSeq leasedUntil : ℤ} {claim : ClaimedIngest}

theorem Counts.le (h : Counts log wakeSeq) (hclaim : .claimed claim leasedUntil ∈ log) :
    claim.wakeSeq ≤ wakeSeq := by
  induction log generalizing wakeSeq with
  | nil => cases hclaim
  | cons event log ih =>
    rcases List.mem_cons.1 hclaim with heq | hrest
    · rw [← heq] at h
      exact Int.le_of_eq h.1
    · cases event with
      | woke =>
        have hle := ih h hrest
        omega
      | claimed => exact ih h.2 hrest
      | completed => exact ih h hrest
      | released => exact ih h hrest

/-- **The claims before a wake** have captured a lower counter. -/
theorem Counts.lt (h : Counts (later ++ .woke :: earlier) wakeSeq)
    (hclaim : .claimed claim leasedUntil ∈ earlier) : claim.wakeSeq < wakeSeq := by
  induction later generalizing wakeSeq with
  | nil =>
    have hle := Counts.le (show Counts earlier (wakeSeq - 1) from h) hclaim
    omega
  | cons event later ih =>
    cases event with
    | woke =>
      have hlt := ih h
      omega
    | claimed => exact ih h.2
    | completed => exact ih h
    | released => exact ih h

/-- **The claims since the last wake** have captured the counter. -/
theorem Counts.eq (h : Counts (later ++ earlier) wakeSeq) (hno : .woke ∉ later)
    (hclaim : .claimed claim leasedUntil ∈ later) : claim.wakeSeq = wakeSeq := by
  induction later with
  | nil => cases hclaim
  | cons event later ih =>
    rw [List.mem_cons, not_or] at hno
    rcases List.mem_cons.1 hclaim with heq | hrest
    · rw [← heq] at h
      exact h.1
    · cases event with
      | woke => exact absurd rfl hno.1
      | claimed => exact ih h.2 hno.2 hrest
      | completed => exact ih h hno.2 hrest
      | released => exact ih h hno.2 hrest

theorem Consumes.cons {events : List ScheduleEvent} (h : Consumes events) (event : ScheduleEvent) :
    Consumes (event :: events) := by
  cases event with
  | woke => exact h
  | claimed => exact h
  | completed => exact Or.inr h
  | released => exact h

end Counters

/-! ## The invariant -/

/-- What the row and the log say of each other. -/
structure Inv (s : ScheduleSystem) : Prop where
  /-- The row has the lease of a claim. -/
  lease : ∀ leaseToken, s.row.leaseToken = some leaseToken → ∃ claim leasedUntil,
    .claimed claim leasedUntil ∈ s.log ∧ claim.leaseToken = leaseToken ∧
      s.row.leasedUntil = some leasedUntil
  /-- A claim that holds the row has its token in it. -/
  holds : ∀ claim leasedUntil, s.Holds claim leasedUntil →
    s.row.leaseToken = some claim.leaseToken
  /-- Tokens are those of one claim each. -/
  unique : ∀ claim leasedUntil claim' leasedUntil', .claimed claim leasedUntil ∈ s.log →
    .claimed claim' leasedUntil' ∈ s.log → claim.leaseToken = claim'.leaseToken →
      claim = claim' ∧ leasedUntil = leasedUntil'
  counts : Counts s.log s.row.wakeSeq

variable {s : ScheduleSystem} {call : ScheduleCall} {event : ScheduleEvent}
  {row : IngestScheduleRow}

theorem Inv.start (now : ℤ) (row : IngestScheduleRow) : (start now row).Inv where
  lease _ h := by cases h
  holds _ _ h := by cases h.claimed
  unique _ _ _ _ h := by cases h
  counts := trivial

/-- What holds the row after a statement, and was claimed before, held it before. -/
theorem Holds.of_cons {claim : ClaimedIngest} {leasedUntil : ℤ}
    (h : Holds { s with row, log := event :: s.log } claim leasedUntil)
    (hclaimed : .claimed claim leasedUntil ∈ s.log) : s.Holds claim leasedUntil where
  claimed := hclaimed
  live hended := by
    refine h.live ?_
    rcases hended with ⟨completion, hmem, htoken⟩ | ⟨released, hmem, htoken⟩
    · exact Or.inl ⟨completion, List.mem_cons_of_mem _ hmem, htoken⟩
    · exact Or.inr ⟨released, List.mem_cons_of_mem _ hmem, htoken⟩
  unexpired := h.unexpired

/-- **A statement that applies** keeps the invariant. -/
theorem Inv.applies (h : s.Inv) (hgenuine : s.IsGenuine call) (happlies : Applies s call event row) :
    Inv { s with row, log := event :: s.log } := by
  cases happlies with
  | @claim input owner claim row hclaim =>
    obtain ⟨hunleased, htoken, hseq, htoken', huntil, hseq', -, -⟩ := claimIngest_eq_some hclaim
    refine ⟨?_, ?_, ?_, ?_⟩
    · intro leaseToken heq
      have heq' : some leaseToken = some input.leaseToken := heq.symm.trans htoken'
      rw [Option.some.inj heq']
      exact ⟨claim, _, List.mem_cons_self, htoken, huntil⟩
    · intro claim' leasedUntil hholds
      rcases List.mem_cons.1 hholds.claimed with heq | hbefore
      · obtain ⟨rfl, rfl⟩ := ScheduleEvent.claimed.inj heq
        rw [htoken]
        exact htoken'
      · -- a claim that held the row before would have kept it from being claimed
        have hbefore' := hholds.of_cons hbefore
        obtain ⟨_, leasedUntil', hclaimed, hsame, hleased⟩ := h.lease _ (h.holds _ _ hbefore')
        obtain ⟨-, rfl⟩ := h.unique _ _ _ _ hclaimed hbefore hsame
        rw [isUnleased, hleased, Option.all_some, decide_eq_true_eq] at hunleased
        exact absurd hholds.unexpired (not_lt.2 hunleased)
    · intro a leasedUntil b leasedUntil' ha hb hsame
      rcases List.mem_cons.1 ha with hnew | hold
      · obtain ⟨rfl, rfl⟩ := ScheduleEvent.claimed.inj hnew
        rcases List.mem_cons.1 hb with hnew' | hold'
        · obtain ⟨rfl, rfl⟩ := ScheduleEvent.claimed.inj hnew'
          exact ⟨rfl, rfl⟩
        · exact absurd (hsame.symm.trans htoken) (hgenuine b leasedUntil' hold')
      · rcases List.mem_cons.1 hb with hnew' | hold'
        · obtain ⟨rfl, rfl⟩ := ScheduleEvent.claimed.inj hnew'
          exact absurd (hsame.trans htoken) (hgenuine a leasedUntil hold)
        · exact h.unique a leasedUntil b leasedUntil' hold hold' hsame
    · refine ⟨hseq.trans hseq'.symm, ?_⟩
      rw [hseq']
      exact h.counts
  | @complete completion row hcomplete =>
    obtain ⟨htoken, hnone, -, hseq, -, -⟩ := completeIngest_eq_some hcomplete
    refine ⟨?_, ?_, ?_, ?_⟩
    · intro leaseToken heq
      cases hnone.symm.trans heq
    · intro claim leasedUntil hholds
      have hclaimed := (List.mem_cons.1 hholds.claimed).resolve_left (by simp)
      have heq := htoken.symm.trans (h.holds _ _ (hholds.of_cons hclaimed))
      exact absurd (Or.inl ⟨completion, List.mem_cons_self, Option.some.inj heq⟩) hholds.live
    · intro a leasedUntil b leasedUntil' ha hb hsame
      exact h.unique a leasedUntil b leasedUntil' ((List.mem_cons.1 ha).resolve_left (by simp))
        ((List.mem_cons.1 hb).resolve_left (by simp)) hsame
    · show Counts s.log row.wakeSeq
      rw [hseq]
      exact h.counts
  | @release claim row hrelease =>
    obtain ⟨htoken, hnone, -, hseq, -, -⟩ := releaseIngest_eq_some hrelease
    refine ⟨?_, ?_, ?_, ?_⟩
    · intro leaseToken heq
      cases hnone.symm.trans heq
    · intro claim' leasedUntil hholds
      have hclaimed := (List.mem_cons.1 hholds.claimed).resolve_left (by simp)
      have heq := htoken.symm.trans (h.holds _ _ (hholds.of_cons hclaimed))
      exact absurd (Or.inr ⟨claim, List.mem_cons_self, Option.some.inj heq⟩) hholds.live
    · intro a leasedUntil b leasedUntil' ha hb hsame
      exact h.unique a leasedUntil b leasedUntil' ((List.mem_cons.1 ha).resolve_left (by simp))
        ((List.mem_cons.1 hb).resolve_left (by simp)) hsame
    · show Counts s.log row.wakeSeq
      rw [hseq]
      exact h.counts
  | @wake input row hwake =>
    obtain ⟨htoken, huntil, hseq, -, -⟩ := wakeIngest_eq_some hwake
    refine ⟨?_, ?_, ?_, ?_⟩
    · intro leaseToken heq
      obtain ⟨claim, leasedUntil, hclaimed, hsame, hleased⟩ :=
        h.lease leaseToken (htoken.symm.trans heq)
      exact ⟨claim, leasedUntil, List.mem_cons_of_mem _ hclaimed, hsame, huntil.trans hleased⟩
    · intro claim leasedUntil hholds
      have hclaimed := (List.mem_cons.1 hholds.claimed).resolve_left (by simp)
      exact htoken.trans (h.holds _ _ (hholds.of_cons hclaimed))
    · intro a leasedUntil b leasedUntil' ha hb hsame
      exact h.unique a leasedUntil b leasedUntil' ((List.mem_cons.1 ha).resolve_left (by simp))
        ((List.mem_cons.1 hb).resolve_left (by simp)) hsame
    · show Counts s.log (row.wakeSeq - 1)
      rw [hseq, Int.add_sub_cancel]
      exact h.counts

theorem Inv.elapse (h : s.Inv) (microseconds : ℕ) :
    Inv { s with now := s.now + microseconds } where
  lease := h.lease
  holds claim leasedUntil hholds := by
    have hearlier : s.now < leasedUntil := by
      have hlater : s.now + microseconds < leasedUntil := hholds.unexpired
      omega
    exact h.holds claim leasedUntil ⟨hholds.claimed, hholds.live, hearlier⟩
  unique := h.unique
  counts := h.counts

/-- **A step keeps the invariant.** -/
theorem Inv.step (h : s.Inv) (hgenuine : s.IsGenuine call) : (s.step call).Inv := by
  rcases step_cases s call with ⟨microseconds, hstep⟩ | ⟨event, row, happlies, hstep⟩
  · rw [hstep]
    exact h.elapse microseconds
  · rw [hstep]
    exact h.applies hgenuine happlies

theorem Reaches.inv {allowed : ScheduleSystem → ScheduleCall → Prop}
    (hallowed : ∀ s call, allowed s call → s.IsGenuine call) (h : Reaches allowed row s) : s.Inv := by
  induction h with
  | start now => exact Inv.start now row
  | step _ call hcall ih => exact ih.step (hallowed _ call hcall)

/-! ## No wake is lost -/

/-- The wakes of a state are pending, or consumed. -/
def Pending (s : ScheduleSystem) : Prop :=
  ∀ later earlier, s.log = later ++ .woke :: earlier → Consumes later ∨ s.row.wakeDueAt.isSome

theorem Pending.of_cons {later earlier log : List ScheduleEvent} (hne : event ≠ .woke)
    (heq : event :: log = later ++ .woke :: earlier) :
    ∃ later', later = event :: later' ∧ log = later' ++ .woke :: earlier := by
  rcases List.cons_eq_append_iff.1 heq with ⟨-, hnil⟩ | ⟨later', hlater, hlog⟩
  · exact absurd (List.cons.inj hnil).1.symm hne
  · exact ⟨later', hlater, hlog⟩

/-- **A completion that consumes a wake** completes a claim that was made after every wake. -/
theorem Inv.consumes (h : s.Inv) {completion : IngestCompletion}
    (hgenuine : s.IsGenuine (.complete completion))
    (htoken : s.row.leaseToken = some completion.leaseToken)
    (hconsumes : consumesWake completion s.row = true) {later earlier : List ScheduleEvent}
    (hlog : s.log = later ++ .woke :: earlier) : Consumes (.completed completion :: later) := by
  simp only [consumesWake, Bool.and_eq_true, decide_eq_true_eq] at hconsumes
  obtain ⟨hattempted, hseq⟩ := hconsumes
  obtain ⟨claim, leasedUntil, hclaimed, hsame, -⟩ := h.lease _ htoken
  have hcaptured := hgenuine claim leasedUntil hclaimed hsame
  have hcounts := h.counts
  rw [hlog] at hclaimed hcounts
  refine Or.inl ⟨hattempted, claim, leasedUntil, ?_, hsame.symm⟩
  rcases List.mem_append.1 hclaimed with hlater | hearlier
  · exact hlater
  · -- a claim from before the wake has captured a lower counter
    have hlt := hcounts.lt ((List.mem_cons.1 hearlier).resolve_left (by simp))
    omega

theorem Pending.applies (h : s.Pending) (hinv : s.Inv) (hgenuine : s.IsGenuine call)
    (happlies : Applies s call event row) : Pending { s with row, log := event :: s.log } := by
  intro later earlier hlog
  cases happlies with
  | claim hclaim =>
    obtain ⟨later', rfl, hlog'⟩ := Pending.of_cons (by simp) hlog
    obtain ⟨-, -, -, -, -, -, hdue, -⟩ := claimIngest_eq_some hclaim
    rw [hdue]
    exact (h later' earlier hlog').imp_left fun hconsumes => hconsumes.cons _
  | @complete completion row hcomplete =>
    obtain ⟨later', rfl, hlog'⟩ := Pending.of_cons (by simp) hlog
    obtain ⟨htoken, -, -, -, -, hdue⟩ := completeIngest_eq_some hcomplete
    by_cases hconsumes : consumesWake completion s.row = true
    · exact Or.inl (hinv.consumes hgenuine htoken hconsumes hlog')
    refine (h later' earlier hlog').imp (fun hconsumed => hconsumed.cons _) fun hpending => ?_
    rw [hdue, if_neg hconsumes]
    split_ifs
    · rw [isSome_sqlGreatest, hpending, Bool.true_or]
    · exact hpending
  | release hrelease =>
    obtain ⟨later', rfl, hlog'⟩ := Pending.of_cons (by simp) hlog
    obtain ⟨-, -, -, -, hdue, -⟩ := releaseIngest_eq_some hrelease
    rw [hdue]
    exact (h later' earlier hlog').imp_left fun hconsumes => hconsumes.cons _
  | wake hwake =>
    obtain ⟨-, -, -, hdue, -⟩ := wakeIngest_eq_some hwake
    exact Or.inr hdue

/-- **A step keeps the wakes.** -/
theorem Pending.step (h : s.Pending) (hinv : s.Inv) (hgenuine : s.IsGenuine call) :
    (s.step call).Pending := by
  rcases step_cases s call with ⟨microseconds, hstep⟩ | ⟨event, row, happlies, hstep⟩
  · rw [hstep]
    exact h
  · rw [hstep]
    exact h.applies hinv hgenuine happlies

theorem Reaches.pending (h : Reaches IsGenuine row s) : s.Pending := by
  induction h with
  | start now =>
    intro later earlier hlog
    simp [ScheduleSystem.start] at hlog
  | step hreaches call hgenuine ih =>
    exact ih.step (hreaches.inv fun _ _ hcall => hcall) hgenuine

/-- **No wake is lost, and no stale completion counts.** -/
theorem isSafe_of_reaches (h : Reaches IsGenuine row s) : s.IsSafe where
  pending := h.pending
  completion completion htoken := by
    rw [ScheduleSystem.step, completeIngest_eq_none htoken]
    rfl
  release claim htoken := by
    rw [ScheduleSystem.step, releaseIngest_eq_none htoken]
    rfl
  exclusive claim leasedUntil claim' leasedUntil' hholds hholds' := by
    have hinv := h.inv fun _ _ hcall => hcall
    have hsame := (hinv.holds _ _ hholds).symm.trans (hinv.holds _ _ hholds')
    exact (hinv.unique _ _ _ _ hholds.claimed hholds'.claimed (Option.some.inj hsame)).1

/-! ### A wake during a read -/

namespace Example

def scheduled : IngestScheduleRow where
  calendarId := "calendar"
  dueAt := some 0

def read (leaseToken : String) : ScheduleCall :=
  .claim { lane := .fleet, leaseMs := 60000, leaseToken, limit := 1 } (some "user")

def unattempted (leaseToken : String) (claimedWakeSeq : ℤ) : IngestCompletion where
  attempted := false
  calendarId := "calendar"
  claimedReleaseSeq := 0
  claimedWakeSeq
  failed := false
  failureCount := 0
  leaseToken
  nextDueInMs := some 30000
  parkedReason := none
  succeeded := false

def wakeCall : ScheduleCall := .wake { correlationId := none, debounceMs := 0 }

def wokenInRead : ScheduleSystem := ((start 0 scheduled).step (read "first")).step wakeCall

theorem wokenInRead_reaches : Reaches IsGenuine scheduled wokenInRead := by
  refine .step (.step (.start 0) _ ?_) _ trivial
  intro claim leasedUntil hclaimed
  cases hclaimed

end Example

theorem isSafe_of_reaches_example : Example.wokenInRead.IsSafe :=
  isSafe_of_reaches Example.wokenInRead_reaches

/-! ## Where a pending wake stems from -/

/-- A pending wake was received, and stems from one that was not consumed. -/
def WakesStem (s : ScheduleSystem) : Prop :=
  s.row.wakeDueAt.isSome → s.row.wakeReceivedAt.isSome ∧
    ∃ later earlier, s.log = later ++ .woke :: earlier ∧ ¬ Consumes later

/-- A completion of the claim that has the row, which was not attempted and has a delay, finds a
pending wake. -/
def FindsWake (s : ScheduleSystem) : ScheduleCall → Prop
  | .complete completion => s.row.leaseToken = some completion.leaseToken →
      completion.attempted = false → completion.nextDueInMs.isSome → s.row.wakeDueAt.isSome
  | _ => True

/-- What a pending wake of the row says of it and of the log. -/
structure Stems (s : ScheduleSystem) : Prop where
  received : s.row.wakeDueAt.isSome → s.row.wakeReceivedAt.isSome
  woken : s.row.wakeDueAt.isSome → .woke ∈ s.log
  /-- What was consumed since the last wake leaves none pending. -/
  consumed : ∀ later earlier, s.log = later ++ earlier → .woke ∉ later → Consumes later →
    s.row.wakeDueAt = none

theorem Stems.start (now : ℤ) (hdue : row.wakeDueAt = none) :
    (ScheduleSystem.start now row).Stems where
  received h := absurd h (by simp [ScheduleSystem.start, hdue])
  woken h := absurd h (by simp [ScheduleSystem.start, hdue])
  consumed _ _ _ _ _ := hdue

theorem Stems.of_same (h : s.Stems)
    (hconsumes : ∀ events, Consumes (event :: events) → Consumes events)
    (hdue : row.wakeDueAt = s.row.wakeDueAt) (hreceived : row.wakeReceivedAt = s.row.wakeReceivedAt) :
    Stems { s with row, log := event :: s.log } where
  received hpending := by
    rw [hreceived]
    exact h.received (hdue ▸ hpending)
  woken hpending := List.mem_cons_of_mem _ (h.woken (hdue ▸ hpending))
  consumed later earlier hlog hno hconsumed := by
    rcases List.cons_eq_append_iff.1 hlog with ⟨rfl, -⟩ | ⟨later', rfl, hlog'⟩
    · cases hconsumed
    · rw [hdue]
      exact h.consumed later' earlier hlog' (fun hmem => hno (List.mem_cons_of_mem _ hmem))
        (hconsumes later' hconsumed)

/-- **A completion that applies** keeps where the wakes stem from, if it sets none of its own. -/
theorem Stems.complete (h : s.Stems) (hinv : s.Inv) {completion : IngestCompletion}
    (hgenuine : s.IsGenuine (.complete completion)) (hfinds : s.FindsWake (.complete completion))
    (hcomplete : completeIngest s.now completion s.row = some row) :
    Stems { s with row, log := .completed completion :: s.log } := by
  obtain ⟨htoken, -, -, -, hreceived, hdue⟩ := completeIngest_eq_some hcomplete
  have hkept : row.wakeDueAt.isSome → consumesWake completion s.row = false ∧
      s.row.wakeDueAt.isSome := by
    intro hpending
    rw [hdue] at hpending
    split_ifs at hpending with hconsumes hretry
    · cases hpending
    · simp only [Bool.and_eq_true, Bool.not_eq_true'] at hretry
      exact ⟨by simpa using hconsumes, hfinds htoken hretry.1 hretry.2⟩
    · exact ⟨by simpa using hconsumes, hpending⟩
  refine ⟨?_, ?_, ?_⟩
  · intro hpending
    obtain ⟨hconsumes, hbefore⟩ := hkept hpending
    rw [hreceived, if_neg (by simp [hconsumes])]
    exact h.received hbefore
  · intro hpending
    exact List.mem_cons_of_mem _ (h.woken (hkept hpending).2)
  · intro later earlier hlog hno hconsumed
    rcases List.cons_eq_append_iff.1 hlog with ⟨rfl, -⟩ | ⟨later', rfl, hlog'⟩
    · cases hconsumed
    by_contra hpending
    obtain ⟨hconsumes, hbefore⟩ := hkept (Option.isSome_iff_ne_none.2 hpending)
    have hno' : .woke ∉ later' := fun hmem => hno (List.mem_cons_of_mem _ hmem)
    rcases hconsumed with ⟨hattempted, claim, leasedUntil, hclaimed, hsame⟩ | hconsumed
    · -- the claim was made since the last wake, so it has captured the counter
      have hcounts := hinv.counts
      rw [hlog'] at hcounts
      have hcaptured := hcounts.eq hno' hclaimed
      have hgiven := hgenuine claim leasedUntil (by rw [hlog']; exact List.mem_append_left _ hclaimed)
        hsame.symm
      simp only [consumesWake, hattempted, hgiven, hcaptured, Bool.true_and,
        decide_eq_false_iff_not, not_true_eq_false] at hconsumes
    · rw [h.consumed later' earlier hlog' hno' hconsumed] at hbefore
      cases hbefore

theorem Stems.applies (h : s.Stems) (hinv : s.Inv) (hgenuine : s.IsGenuine call)
    (hfinds : s.FindsWake call) (happlies : Applies s call event row) :
    Stems { s with row, log := event :: s.log } := by
  cases happlies with
  | claim hclaim =>
    obtain ⟨-, -, -, -, -, -, hdue, hreceived⟩ := claimIngest_eq_some hclaim
    exact h.of_same (fun _ hconsumed => hconsumed) hdue hreceived
  | complete hcomplete => exact h.complete hinv hgenuine hfinds hcomplete
  | release hrelease =>
    obtain ⟨-, -, -, -, hdue, hreceived⟩ := releaseIngest_eq_some hrelease
    exact h.of_same (fun _ hconsumed => hconsumed) hdue hreceived
  | wake hwake =>
    obtain ⟨-, -, -, -, hreceived⟩ := wakeIngest_eq_some hwake
    refine ⟨fun _ => hreceived, fun _ => List.mem_cons_self, ?_⟩
    intro later earlier hlog hno hconsumed
    rcases List.cons_eq_append_iff.1 hlog with ⟨rfl, -⟩ | ⟨later', rfl, -⟩
    · cases hconsumed
    · exact absurd List.mem_cons_self hno

/-- **A step keeps where the wakes stem from**, if it sets none of its own. -/
theorem Stems.step (h : s.Stems) (hinv : s.Inv) (hgenuine : s.IsGenuine call)
    (hfinds : s.FindsWake call) : (s.step call).Stems := by
  rcases step_cases s call with ⟨microseconds, hstep⟩ | ⟨event, row, happlies, hstep⟩
  · rw [hstep]
    exact ⟨h.received, h.woken, h.consumed⟩
  · rw [hstep]
    exact h.applies hinv hgenuine hfinds happlies

theorem Stems.wakesStem (h : s.Stems) : s.WakesStem := by
  intro hpending
  refine ⟨h.received hpending, ?_⟩
  obtain ⟨later, earlier, hlog, hno⟩ := List.eq_append_cons_of_mem (h.woken hpending)
  refine ⟨later, earlier, hlog, fun hconsumed => ?_⟩
  rw [h.consumed later _ hlog hno hconsumed] at hpending
  cases hpending

/-- **A pending wake stems from a wake**, where no completion sets one of its own. -/
theorem wakesStem_of_reaches (hdue : row.wakeDueAt = none)
    (h : Reaches (fun s call => s.IsGenuine call ∧ s.FindsWake call) row s) : s.WakesStem := by
  have hstems : s.Stems := by
    induction h with
    | start now => exact Stems.start now hdue
    | step hreaches call hallowed ih =>
      exact ih.step (hreaches.inv fun _ _ hcall => hcall.1) hallowed.1 hallowed.2
  exact hstems.wakesStem

/-! ### A read that finds its lock held -/

namespace Example

def reading : ScheduleSystem := (start 0 scheduled).step (read "first")

def retried : ScheduleSystem := reading.step (.complete (unattempted "first" 0))

theorem reading_reaches : Reaches IsGenuine scheduled reading := by
  refine .step (.start 0) _ ?_
  intro claim leasedUntil hclaimed
  cases hclaimed

theorem retried_reaches : Reaches IsGenuine scheduled retried := by
  refine .step reading_reaches _ ?_
  intro claim leasedUntil hclaimed htoken
  obtain ⟨rfl, -⟩ := ScheduleEvent.claimed.inj (List.mem_singleton.1 hclaimed)
  rfl

end Example

theorem wakesStem_of_reaches_example : Example.wokenInRead.WakesStem := by
  refine wakesStem_of_reaches (show Example.scheduled.wakeDueAt = none from rfl) ?_
  refine .step (.step (.start 0) _ ⟨?_, trivial⟩) _ ⟨trivial, trivial⟩
  intro claim leasedUntil hclaimed
  cases hclaimed

/-- **A row is pending without a wake.** -/
theorem not_wakesStem : ¬ ∀ (row : IngestScheduleRow) (s : ScheduleSystem),
    row.wakeDueAt = none → row.wakeReceivedAt = none → Reaches IsGenuine row s → s.WakesStem := by
  intro h
  have hstem := h Example.scheduled Example.retried rfl rfl Example.retried_reaches
  exact absurd (hstem rfl).1 (by decide)

end ScheduleSystem

end Keeper
