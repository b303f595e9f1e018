import Mathlib.Data.List.Nodup
import Mathlib.Data.List.Range
import Mathlib.Data.Int.Order.Basic

/-!
# The limiter of a process

`RateLimiter` (`core/utils/rate-limiter.ts`): tasks wait in a queue, and `processQueue` starts them while fewer than
the concurrency are active and no backoff runs. A step is what the code does without an `await`, with the clock
values that it reads. The microtask after a settlement, which gives the slot back, is a step of its own, and so is
each listener of an abort. An operation is taken to make no call to the limiter before its first `await`.

* `isSound_of_reaches`: operations are bounded, start once and in order, and the queue never stalls, where nothing
  starts a queued task of an aborted signal before the listener of the task.
* `not_isSound`: the listener of another task does, when the backoff is over and its timer has not fired.
-/

namespace Keeper

namespace TaskLimiter

variable {Signal α ε : Type} [DecidableEq Signal]

def initialBackoffMs : ℤ := 1000

def maxBackoffMs : ℤ := 60000

def backoffMultiplier : ℤ := 2

/-- A `QueuedTask`: the number of its `execute` call, and its signal. -/
structure QueuedTask (Signal : Type) where
  call : ℕ
  signal : Option Signal
  deriving DecidableEq

/-- A start of a task, with the clock value that `processQueue` has read. -/
structure Start (Signal : Type) where
  task : QueuedTask Signal
  now : ℤ
  backoffUntil : ℤ
  isAborted : Bool

/-- A limiter, with its timers, its calls and what has become of them. The `status` of a task is where it stands:
in `queue`, in `running`, or in `outcomes` or `abortErrors`. -/
structure State (Signal α ε : Type) where
  concurrency : ℕ
  activeCount : ℕ := 0
  queue : List (QueuedTask Signal) := []
  backoffUntil : ℤ := 0
  backoffMs : ℤ := initialBackoffMs
  clock : ℤ
  /-- When the pending timers are due. -/
  timers : List ℤ := []
  calls : ℕ := 0
  abortedSignals : List Signal := []
  /-- The tasks whose listeners are still to be called, of the aborts under way. -/
  listeners : List (QueuedTask Signal) := []
  started : List (Start Signal) := []
  /-- The operations that have not settled. -/
  running : List ℕ := []
  /-- The settled ones for which `executeTask` has not reached its `finally`. -/
  releasing : ℕ := 0
  outcomes : List (ℕ × Except ε α) := []
  abortErrors : List ℕ := []

inductive Action (Signal α ε : Type)
  | execute (signal : Option Signal)
  | settle (call : ℕ) (outcome : Except ε α)
  | release
  | reportRateLimit
  | fire (due : ℤ)
  | abort (signal : Signal)
  | listen

/-- An action, with the clock values that its code reads. -/
structure Event (Signal α ε : Type) where
  now : ℤ
  later : ℤ
  action : Action Signal α ε

namespace State

def isAborted (s : State Signal α ε) (task : QueuedTask Signal) : Bool :=
  task.signal.any fun signal => decide (signal ∈ s.abortedSignals)

def scheduleQueueProcessing (now : ℤ) (s : State Signal α ε) : State Signal α ε :=
  let delay := max 0 (s.backoffUntil - now)
  if delay > 0 then { s with timers := (now + delay) :: s.timers } else s

/-- `executeTask`, up to the first `await` of the operation. -/
def executeTask (now : ℤ) (task : QueuedTask Signal) (queue : List (QueuedTask Signal)) (s : State Signal α ε) :
    State Signal α ε :=
  { s with
    queue
    activeCount := s.activeCount + 1
    started := s.started ++ [⟨task, now, s.backoffUntil, s.isAborted task⟩]
    running := s.running ++ [task.call] }

/-- The loop of `processQueue`. -/
def startTasks (now : ℤ) : List (QueuedTask Signal) → State Signal α ε → State Signal α ε
  | [], s => s
  | task :: queue, s =>
    if s.activeCount < s.concurrency then startTasks now queue (s.executeTask now task queue) else s

def processQueue (now later : ℤ) (s : State Signal α ε) : State Signal α ε :=
  if s.queue = [] then s
  else if now < s.backoffUntil then s.scheduleQueueProcessing later
  else
    let s := startTasks now s.queue s
    if s.queue = [] then s else s.scheduleQueueProcessing later

/-- What an action does before it comes to `processQueue`, and whether it does. -/
def prepare (now later : ℤ) (s : State Signal α ε) : Action Signal α ε → Option (State Signal α ε × Bool)
  | .execute signal =>
    if s.isAborted ⟨s.calls, signal⟩ then
      some ({ s with calls := s.calls + 1, abortErrors := s.calls :: s.abortErrors }, false)
    else some ({ s with calls := s.calls + 1, queue := s.queue ++ [⟨s.calls, signal⟩] }, true)
  | .settle call outcome =>
    if s.listeners = [] ∧ call ∈ s.running then
      some ({ s with
        running := s.running.erase call
        releasing := s.releasing + 1
        outcomes := (call, outcome) :: s.outcomes
        backoffMs := if outcome.toBool then initialBackoffMs else s.backoffMs }, false)
    else none
  | .release =>
    if s.listeners = [] ∧ 0 < s.releasing then
      some ({ s with releasing := s.releasing - 1, activeCount := s.activeCount - 1 }, true)
    else none
  | .reportRateLimit =>
    some (scheduleQueueProcessing later { s with
      backoffUntil := now + s.backoffMs
      backoffMs := min (s.backoffMs * backoffMultiplier) maxBackoffMs }, false)
  | .fire due =>
    if s.listeners = [] ∧ due ∈ s.timers ∧ due ≤ now then some ({ s with timers := s.timers.erase due }, true)
    else none
  | .abort signal =>
    if signal ∈ s.abortedSignals then some (s, false)
    else some ({ s with
      abortedSignals := signal :: s.abortedSignals
      listeners := s.queue.filter (·.signal = some signal) ++ s.listeners }, false)
  | .listen =>
    match s.listeners with
    | [] => none
    | task :: listeners =>
      if task ∈ s.queue then
        some ({ s with queue := s.queue.erase task, abortErrors := task.call :: s.abortErrors, listeners }, true)
      else some ({ s with listeners }, false)

/-- An event, at clock values that do not decrease. -/
def step (s : State Signal α ε) (event : Event Signal α ε) : Option (State Signal α ε) :=
  if s.clock ≤ event.now ∧ event.now ≤ event.later then
    (prepare event.now event.later s event.action).map fun (t, processes) =>
      { (if processes then t.processQueue event.now event.later else t) with clock := event.later }
  else none

inductive Reaches (allowed : State Signal α ε → Event Signal α ε → Prop) (concurrency : ℕ) : State Signal α ε → Prop
  | start (clock : ℤ) (h : 0 ≤ clock) : Reaches allowed concurrency { concurrency, clock }
  | step {s t : State Signal α ε} (h : Reaches allowed concurrency s) (event : Event Signal α ε)
    (hallowed : allowed s event) (ht : s.step event = some t) : Reaches allowed concurrency t

/-- What is started, settled and aborted. -/
structure Accounts (s : State Signal α ε) : Prop where
  active : s.activeCount = s.running.length + s.releasing
  bounded : s.activeCount ≤ s.concurrency
  /-- A call is queued, started, or rejected with an abort error. -/
  calls : (s.queue.map (·.call) ++ s.started.map (·.task.call) ++ s.abortErrors).Perm (List.range s.calls)
  /-- What is started runs, or has given its outcome to its call. -/
  outcomes : (s.running ++ s.outcomes.map (·.1)).Perm (s.started.map (·.task.call))
  inOrder : (s.started.map (·.task.call) ++ s.queue.map (·.call)).Pairwise (· < ·)
  backoff : ∀ start ∈ s.started, start.backoffUntil ≤ start.now
  spared : ∀ start ∈ s.started, start.isAborted = false

structure IsSound (s : State Signal α ε) : Prop extends s.Accounts where
  /-- The queue does not stall. -/
  moves : s.queue ≠ [] → s.activeCount = s.concurrency ∨ s.timers ≠ []

/-- Where an event comes to `processQueue`, that starts no task of an aborted signal. -/
def Spares (s : State Signal α ε) (event : Event Signal α ε) : Prop :=
  ∀ t, prepare event.now event.later s event.action = some (t, true) → event.now < t.backoffUntil ∨
    ∀ task ∈ t.queue.take (t.concurrency - t.activeCount), t.isAborted task = false

/-! ## The invariant -/

/-- What holds while a clock value is current. -/
structure Inv (clock : ℤ) (s : State Signal α ε) : Prop extends s.Accounts where
  listened : ∀ task ∈ s.queue, s.isAborted task = true → task ∈ s.listeners
  timer : clock < s.backoffUntil → ∃ due ∈ s.timers, s.backoffUntil ≤ due

variable {s t : State Signal α ε} {now next : ℤ}

theorem Inv.mono (h : Inv now s) (hle : now ≤ next) : Inv next s :=
  { h with timer := fun hlt => h.timer (hle.trans_lt hlt) }

omit [DecidableEq Signal] in
theorem scheduleQueueProcessing_eq (now : ℤ) (s : State Signal α ε) : ∃ timers,
    s.scheduleQueueProcessing now = { s with timers } ∧ s.timers ⊆ timers ∧
      (now < s.backoffUntil → s.backoffUntil ∈ timers) := by
  rw [scheduleQueueProcessing]
  by_cases h : now < s.backoffUntil
  · rw [max_eq_right (by omega), if_pos (by omega), show now + (s.backoffUntil - now) = s.backoffUntil by omega]
    exact ⟨_, rfl, List.subset_cons_self .., fun _ => List.mem_cons_self⟩
  · rw [max_eq_left (by omega), if_neg (lt_irrefl 0)]
    exact ⟨s.timers, rfl, List.Subset.refl _, fun hlt => absurd hlt h⟩

theorem Inv.schedule (h : Inv now s) : Inv now (s.scheduleQueueProcessing next) := by
  obtain ⟨timers, heq, hsubset, -⟩ := scheduleQueueProcessing_eq next s
  rw [heq]
  refine { h with timer := fun hlt => ?_ }
  obtain ⟨due, hdue, hle⟩ := h.timer hlt
  exact ⟨due, hsubset hdue, hle⟩

theorem Inv.executeTask (h : Inv now s) {task : QueuedTask Signal} {queue : List (QueuedTask Signal)}
    (hqueue : s.queue = task :: queue) (hslot : s.activeCount < s.concurrency) (hbackoff : s.backoffUntil ≤ now)
    (hspared : s.isAborted task = false) : Inv now (s.executeTask now task queue) where
  active := by
    have hactive := h.active
    simp only [State.executeTask, List.length_append, List.length_singleton]
    omega
  bounded := hslot
  calls := by
    refine List.perm_iff_count.2 fun call => ?_
    have hcount := h.calls.count_eq call
    rw [hqueue] at hcount
    simp only [State.executeTask, List.map_append, List.map_cons, List.map_nil, List.count_append, List.count_cons,
      List.count_nil] at hcount ⊢
    omega
  outcomes := by
    refine List.perm_iff_count.2 fun call => ?_
    have hcount := h.outcomes.count_eq call
    simp only [State.executeTask, List.map_append, List.map_cons, List.map_nil, List.count_append] at hcount ⊢
    omega
  inOrder := by
    have horder := h.inOrder
    rw [hqueue] at horder
    rwa [State.executeTask, List.map_append, List.append_assoc]
  backoff := by
    intro start hstart
    rcases List.mem_append.1 hstart with hmem | hmem
    · exact h.backoff start hmem
    · rw [List.mem_singleton.1 hmem]
      exact hbackoff
  spared := by
    intro start hstart
    rcases List.mem_append.1 hstart with hmem | hmem
    · exact h.spared start hmem
    · rw [List.mem_singleton.1 hmem]
      exact hspared
  listened := fun task' htask => h.listened task' (hqueue ▸ List.mem_cons_of_mem _ htask)
  timer := h.timer

/-- **The loop** starts tasks up to the concurrency, or all of them. -/
theorem Inv.startTasks {queue : List (QueuedTask Signal)} : ∀ {s : State Signal α ε}, Inv now s → s.queue = queue →
    s.backoffUntil ≤ now → (∀ task ∈ queue.take (s.concurrency - s.activeCount), s.isAborted task = false) →
    Inv now (s.startTasks now queue) ∧ ((s.startTasks now queue).queue = [] ∨
      (s.startTasks now queue).activeCount = (s.startTasks now queue).concurrency) := by
  induction queue with
  | nil => exact fun h hqueue _ _ => ⟨h, Or.inl hqueue⟩
  | cons task queue ih =>
    intro s h hqueue hbackoff hspared
    rw [State.startTasks]
    by_cases hslot : s.activeCount < s.concurrency
    · rw [if_pos hslot]
      obtain ⟨slots, hslots⟩ : ∃ slots, s.concurrency - s.activeCount = slots + 1 :=
        ⟨s.concurrency - s.activeCount - 1, by omega⟩
      have hleft : s.concurrency - (s.activeCount + 1) = slots := by omega
      rw [hslots] at hspared
      refine ih (h.executeTask hqueue hslot hbackoff (hspared task List.mem_cons_self)) rfl hbackoff ?_
      exact fun task' htask => hspared task' (List.mem_cons_of_mem _ (hleft ▸ htask))
    · rw [if_neg hslot]
      exact ⟨h, Or.inr (le_antisymm h.bounded (not_lt.1 hslot))⟩

/-- **The queue does not stall** when `processQueue` has come to it. -/
theorem Inv.processQueue (h : Inv now s) (hle : now ≤ next)
    (hspared : now < s.backoffUntil ∨
      ∀ task ∈ s.queue.take (s.concurrency - s.activeCount), s.isAborted task = false) :
    Inv next (s.processQueue now next) ∧ ((s.processQueue now next).queue ≠ [] →
      (s.processQueue now next).activeCount = (s.processQueue now next).concurrency ∨
        (s.processQueue now next).timers ≠ []) := by
  have hschedule : ∀ {s : State Signal α ε}, Inv now s →
      s.activeCount = s.concurrency ∨ s.timers ≠ [] → Inv next (s.scheduleQueueProcessing next) ∧
        ((s.scheduleQueueProcessing next).queue ≠ [] →
          (s.scheduleQueueProcessing next).activeCount = (s.scheduleQueueProcessing next).concurrency ∨
            (s.scheduleQueueProcessing next).timers ≠ []) := by
    intro s h hmoves
    obtain ⟨timers, heq, hsubset, -⟩ := scheduleQueueProcessing_eq next s
    refine ⟨h.schedule.mono hle, fun _ => ?_⟩
    rw [heq]
    exact hmoves.imp_right fun hne => List.ne_nil_of_mem (hsubset (List.head_mem hne))
  rw [State.processQueue]
  split_ifs with hqueue hbackoff
  · exact ⟨h.mono hle, fun hne => absurd hqueue hne⟩
  · obtain ⟨due, hdue, -⟩ := h.timer hbackoff
    exact hschedule h (Or.inr (List.ne_nil_of_mem hdue))
  · obtain ⟨hinv, hmoves⟩ := h.startTasks rfl (not_lt.1 hbackoff) (hspared.resolve_left hbackoff)
    dsimp only
    split_ifs with hleft
    · exact ⟨hinv.mono hle, fun hne => absurd hleft hne⟩
    · exact hschedule hinv (Or.inl (hmoves.resolve_left hleft))

/-! ## Steps -/

omit [DecidableEq Signal] in
theorem Accounts.nodup (h : s.Accounts) : (s.queue.map (·.call)).Nodup :=
  ((List.pairwise_append.1 h.inOrder).2.1).imp fun hlt => hlt.ne

omit [DecidableEq Signal] in
theorem Accounts.lt_calls (h : s.Accounts) {call : ℕ}
    (hcall : call ∈ s.started.map (·.task.call) ++ s.queue.map (·.call)) : call < s.calls := by
  refine List.mem_range.1 (h.calls.subset (List.mem_append_left _ ?_))
  exact List.perm_append_comm.subset hcall

/-- **What comes before `processQueue`** keeps the invariant. -/
theorem Inv.prepare (h : Inv s.clock s) (hnow : s.clock ≤ now) (hle : now ≤ next) {action : Action Signal α ε}
    {processes : Bool} (ht : prepare now next s action = some (t, processes)) :
    Inv (if processes then now else next) t ∧ (processes = false →
      (s.queue ≠ [] → s.activeCount = s.concurrency ∨ s.timers ≠ []) →
        t.queue ≠ [] → t.activeCount = t.concurrency ∨ t.timers ≠ []) := by
  cases action with
  | execute signal =>
    rw [State.prepare] at ht
    split_ifs at ht with haborted <;> obtain ⟨rfl, rfl⟩ := Prod.mk.inj (Option.some.inj ht)
    · refine ⟨{ h.mono (hnow.trans hle) with calls := ?_ }, fun _ hmoves => hmoves⟩
      rw [List.range_succ]
      exact (List.perm_middle.trans (h.calls.cons _)).trans (List.perm_append_singleton ..).symm
    · refine ⟨{ h.mono hnow with calls := ?_, inOrder := ?_, listened := ?_ }, fun hfalse => Bool.noConfusion hfalse⟩
      · refine List.perm_iff_count.2 fun call => ?_
        have hcount := h.calls.count_eq call
        simp only [List.range_succ, List.map_append, List.map_cons, List.map_nil, List.count_append] at hcount ⊢
        omega
      · rw [List.map_append, ← List.append_assoc]
        refine List.pairwise_append.2 ⟨h.inOrder, List.pairwise_singleton .., fun call hcall call' hcall' => ?_⟩
        rw [List.mem_singleton.1 hcall']
        exact h.lt_calls hcall
      · intro task htask hsignal
        rcases List.mem_append.1 htask with hmem | hmem
        · exact h.listened task hmem hsignal
        · rw [List.mem_singleton.1 hmem] at hsignal
          exact absurd hsignal haborted
  | settle call outcome =>
    obtain ⟨hsettles, ht⟩ := Option.ite_none_right_eq_some.1 ht
    obtain ⟨rfl, rfl⟩ := Prod.mk.inj (Option.some.inj ht)
    refine ⟨{ h.mono (hnow.trans hle) with active := ?_, outcomes := ?_ }, fun _ hmoves => hmoves⟩
    · have hlength := List.length_erase_of_mem hsettles.2
      have hpos := List.length_pos_of_mem hsettles.2
      have hactive := h.active
      dsimp only
      omega
    · refine List.perm_middle.trans (List.Perm.trans ?_ h.outcomes)
      exact ((List.perm_cons_erase hsettles.2).symm).append_right _
  | release =>
    obtain ⟨hreleases, ht⟩ := Option.ite_none_right_eq_some.1 ht
    obtain ⟨rfl, rfl⟩ := Prod.mk.inj (Option.some.inj ht)
    have hactive := h.active
    refine ⟨{ h.mono hnow with active := ?_, bounded := ?_ }, fun hfalse => Bool.noConfusion hfalse⟩
    · dsimp only
      omega
    · exact (Nat.sub_le ..).trans h.bounded
  | reportRateLimit =>
    obtain ⟨rfl, rfl⟩ := Prod.mk.inj (Option.some.inj ht)
    obtain ⟨timers, heq, hsubset, htimer⟩ := scheduleQueueProcessing_eq next { s with
      backoffUntil := now + s.backoffMs
      backoffMs := min (s.backoffMs * backoffMultiplier) maxBackoffMs }
    rw [heq]
    refine ⟨{ h with timer := fun hlt => ⟨_, htimer hlt, le_rfl⟩ }, fun _ hmoves hqueue => ?_⟩
    exact (hmoves hqueue).imp_right fun hne => List.ne_nil_of_mem (hsubset (List.head_mem hne))
  | fire due =>
    obtain ⟨hfires, ht⟩ := Option.ite_none_right_eq_some.1 ht
    obtain ⟨rfl, rfl⟩ := Prod.mk.inj (Option.some.inj ht)
    refine ⟨{ h.mono hnow with timer := fun hlt => ?_ }, fun hfalse => Bool.noConfusion hfalse⟩
    -- The timer of a backoff that runs is not due.
    obtain ⟨due', hdue', hle'⟩ := h.timer (hnow.trans_lt hlt)
    refine ⟨due', (List.mem_erase_of_ne ?_).2 hdue', hle'⟩
    rintro rfl
    exact absurd (hle'.trans hfires.2.2) (not_le.2 hlt)
  | abort signal =>
    rw [State.prepare] at ht
    split_ifs at ht with haborted <;> obtain ⟨rfl, rfl⟩ := Prod.mk.inj (Option.some.inj ht)
    · exact ⟨h.mono (hnow.trans hle), fun _ hmoves => hmoves⟩
    · refine ⟨{ h.mono (hnow.trans hle) with listened := fun task htask hsignal => ?_ }, fun _ hmoves => hmoves⟩
      obtain ⟨own, hown, hmem⟩ := (Option.any_eq_true ..).1 hsignal
      rcases List.mem_cons.1 (of_decide_eq_true hmem) with rfl | hsame
      · exact List.mem_append_left _ (List.mem_filter.2 ⟨htask, decide_eq_true hown⟩)
      · refine List.mem_append_right _ (h.listened task htask ?_)
        rw [State.isAborted, hown]
        exact decide_eq_true hsame
  | listen =>
    rw [State.prepare] at ht
    cases hlisteners : s.listeners with
    | nil =>
      rw [hlisteners] at ht
      cases ht
    | cons task listeners =>
      rw [hlisteners] at ht
      dsimp only at ht
      have hlistened : ∀ task' ∈ s.queue, s.isAborted task' = true → task' = task ∨ task' ∈ listeners :=
        fun task' htask' hsignal => List.mem_cons.1 (hlisteners ▸ h.listened task' htask' hsignal)
      split_ifs at ht with hqueued <;> obtain ⟨rfl, rfl⟩ := Prod.mk.inj (Option.some.inj ht)
      · refine ⟨{ h.mono hnow with calls := ?_, inOrder := ?_, listened := ?_ }, fun hfalse => Bool.noConfusion hfalse⟩
        · refine List.perm_middle.trans (List.Perm.trans ?_ h.calls)
          exact (((List.perm_cons_erase hqueued).symm.map (·.call)).append_right _).append_right _
        · exact h.inOrder.sublist ((List.Sublist.refl _).append (List.erase_sublist.map _))
        · intro task' htask' hsignal
          refine (hlistened task' (List.mem_of_mem_erase htask') hsignal).resolve_left ?_
          rintro rfl
          exact (List.Nodup.of_map _ h.nodup).not_mem_erase htask'
      · refine ⟨{ h.mono (hnow.trans hle) with listened := ?_ }, fun _ hmoves => hmoves⟩
        intro task' htask' hsignal
        refine (hlistened task' htask' hsignal).resolve_left ?_
        rintro rfl
        exact hqueued htask'

/-- **A step keeps the invariant**, and no queue stalls. -/
theorem Inv.step (h : Inv s.clock s) (hsound : s.IsSound) {event : Event Signal α ε} (hspares : s.Spares event)
    (ht : s.step event = some t) : Inv t.clock t ∧ t.IsSound := by
  rw [State.step] at ht
  split_ifs at ht with hclock
  obtain ⟨⟨prepared, processes⟩, hprepared, rfl⟩ := Option.map_eq_some_iff.1 ht
  obtain ⟨hinv, hmoves⟩ := h.prepare hclock.1 hclock.2 hprepared
  cases processes with
  | true =>
    obtain ⟨hnext, hmoves⟩ := hinv.processQueue hclock.2 (hspares prepared hprepared)
    exact ⟨{ hnext with }, { hnext.toAccounts with moves := hmoves }⟩
  | false => exact ⟨{ hinv with }, { hinv.toAccounts with moves := hmoves rfl hsound.moves }⟩

/-- **The limiter is sound** in a run that spares the tasks of aborted signals. -/
theorem isSound_of_reaches {concurrency : ℕ} (h : Reaches Spares concurrency s) : s.IsSound := by
  suffices hboth : Inv s.clock s ∧ s.IsSound from hboth.2
  induction h with
  | start clock h =>
    have haccounts : Accounts ({ concurrency, clock } : State Signal α ε) :=
      ⟨rfl, Nat.zero_le _, List.Perm.refl _, List.Perm.refl _, List.Pairwise.nil,
        fun _ hmem => absurd hmem List.not_mem_nil, fun _ hmem => absurd hmem List.not_mem_nil⟩
    refine ⟨{ haccounts with
      listened := fun _ hmem => absurd hmem List.not_mem_nil
      timer := fun hlt => absurd hlt (not_lt.2 h) }, { haccounts with moves := fun hne => absurd rfl hne }⟩
  | step _ event hspares ht ih => exact ih.1.step ih.2 hspares ht

theorem isSound_of_reaches_example : ∃ s : State ℕ ℕ ℕ, Reaches Spares 1 s ∧ s.queue ≠ [] ∧ s.IsSound := by
  have hreaches : Reaches Spares 1 ({ concurrency := 1, clock := 0 } : State ℕ ℕ ℕ) := .start 0 le_rfl
  have hspares : ∀ s : State ℕ ℕ ℕ, s.Spares ⟨0, 0, .reportRateLimit⟩ := fun s t ht =>
    absurd (congrArg Prod.snd (Option.some.inj ht)) Bool.noConfusion
  have hreported := hreaches.step ⟨0, 0, .reportRateLimit⟩ (hspares _) rfl
  have hqueued := hreported.step ⟨0, 0, .execute none⟩ (fun t ht => by
    obtain rfl := congrArg Prod.fst (Option.some.inj ht)
    exact Or.inl (by decide)) rfl
  exact ⟨_, hqueued, by decide, isSound_of_reaches hqueued⟩

/-- An abort whose first listener finds the backoff over starts the next task of the aborted signal. -/
theorem not_isSound : ¬ ∀ (concurrency : ℕ) (s : State ℕ ℕ ℕ), Reaches (fun _ _ => True) concurrency s → s.IsSound := by
  intro h
  have hstart : Reaches (fun _ _ => True) 1 ({ concurrency := 1, clock := 0 } : State ℕ ℕ ℕ) := .start 0 le_rfl
  have hreported := hstart.step ⟨0, 0, .reportRateLimit⟩ trivial rfl
  have hfirst := hreported.step ⟨0, 0, .execute (some 7)⟩ trivial rfl
  have hsecond := hfirst.step ⟨0, 0, .execute (some 7)⟩ trivial rfl
  have haborted := hsecond.step ⟨1000, 1000, .abort 7⟩ trivial rfl
  have hlistened := haborted.step ⟨1000, 1000, .listen⟩ trivial rfl
  exact absurd ((h 1 _ hlistened).spared ⟨⟨1, some 7⟩, 1000, 1000, true⟩ List.mem_cons_self) Bool.noConfusion

end State

end TaskLimiter

end Keeper
