import Keeper.FlushWorker.Budget
import Mathlib.Logic.Function.Basic

/-!
# The flush worker

`createSerialFlushWorker` as a machine: its variables, the functions that change them, and the jobs of
the event loop, in any order. The lifecycle of a started item is in the list of what it awaits: its
preparation, a writer slot, its first step as the owner of one, or its run.

* `step`: one call, settlement, timer or continuation.
-/

namespace Keeper

namespace FlushWorker

/-! ## Variables -/

/-- `SerialFlushWorkerOptions`, with the defaults filled in. -/
structure Options where
  budget : Option ℚ≥0 := none
  capacity : ℕ := 50
  writerConcurrency : ℕ := 1

/-- A `QueuedItem`: whether it has a `prepare`, and the reservation that its `settle` frees. -/
structure Entry where
  id : ℕ
  prepares : Bool := false
  settle : Option ℕ := none
  deriving DecidableEq

/-- A `SlotWaiter`: a submission that waits for room in the queue. -/
structure SlotWaiter where
  entry : Entry
  aborted : Bool := false
  deriving DecidableEq

/-- How the promise of a submission is settled. -/
inductive Outcome
  | prepared
  | value
  | error
  | deadline
  | aborted
  | closed
  deriving DecidableEq

/-- Where the pump is: not running, between two iterations, or waiting for a free writer slot. -/
inductive Pump
  | idle
  | yielded
  | waiting
  deriving DecidableEq

/-- The variables of the worker, and what has happened: the items that entered the queue, those that
were passed to `run`, and those whose lifecycle is over. -/
structure Worker where
  weights : Weights := {}
  queue : List Entry := []
  slotWaiters : List SlotWaiter := []
  idleWaiters : ℕ := 0
  inFlight : ℕ := 0
  writerSlotsInUse : ℕ := 0
  closed : Bool := false
  pump : Pump := .idle
  preparing : List Entry := []
  writerSlotWaiters : List Entry := []
  owners : List Entry := []
  running : List Entry := []
  expired : List ℕ := []
  outcomes : ℕ → Option Outcome := fun _ => none
  nextItem : ℕ := 0
  accepted : List Entry := []
  runs : List Entry := []
  finished : List Entry := []
  closesResolved : ℕ := 0

/-! ## Functions -/

def settled (outcomes : ℕ → Option Outcome) (id : ℕ) (outcome : Outcome) : ℕ → Option Outcome :=
  Function.update outcomes id (some ((outcomes id).getD outcome))

def settlePromise (id : ℕ) (outcome : Outcome) (s : Worker) : Worker :=
  { s with outcomes := settled s.outcomes id outcome }

/-- What `startItem` settles: nothing once the deadline has expired. -/
def settleUnlessExpired (id : ℕ) (outcome : Outcome) (s : Worker) : Worker :=
  if id ∈ s.expired then s else settlePromise id outcome s

def notifyIfIdle (s : Worker) : Worker :=
  if s.pump ≠ .idle ∨ 0 < s.inFlight ∨ s.queue ≠ [] then s
  else { s with idleWaiters := 0, closesResolved := s.closesResolved + s.idleWaiters }

/-- `releaseWriterSlot`: the slot goes to the next owner, or the pump is notified. -/
def releaseWriterSlot (s : Worker) : Worker :=
  match s.writerSlotWaiters with
  | nextOwner :: rest => { s with writerSlotWaiters := rest, owners := s.owners ++ [nextOwner] }
  | [] =>
    { s with
      writerSlotsInUse := s.writerSlotsInUse - 1
      pump := if s.pump = .waiting then .yielded else s.pump }

/-- `run` is called. -/
def runItem (entry : Entry) (s : Worker) : Worker :=
  { s with running := s.running ++ [entry], runs := s.runs ++ [entry] }

/-- `enqueue`, given what `pump` does here. -/
def enqueue (pump : Worker → Worker) (entry : Entry) (s : Worker) : Worker :=
  pump { s with queue := s.queue ++ [entry], accepted := s.accepted ++ [entry] }

/-- The loop of `grantSlot` over the parked submissions. -/
def grantSlotLoop (pump : Worker → Worker) : List SlotWaiter → Worker → Worker
  | [], s => { s with slotWaiters := [] }
  | waiter :: rest, s =>
    if waiter.aborted then grantSlotLoop pump rest s
    else enqueue pump waiter.entry { s with slotWaiters := rest }

def grantSlot (pump : Worker → Worker) (s : Worker) : Worker :=
  grantSlotLoop pump s.slotWaiters s

variable (o : Options)

/-- `free`, of a reservation of the worker. -/
def freeWeight (i : ℕ) (s : Worker) : Worker :=
  match o.budget with
  | none => s
  | some budget => { s with weights := free budget i s.weights }

def finish (entry : Entry) (s : Worker) : Worker :=
  let s := { s with inFlight := s.inFlight - 1, finished := s.finished ++ [entry] }
  notifyIfIdle (match entry.settle with
    | some i => freeWeight o i s
    | none => s)

/-- An item claims a writer slot and is run, or waits for one. -/
def claim (entry : Entry) (s : Worker) : Worker :=
  if o.writerConcurrency ≤ s.writerSlotsInUse then
    { s with writerSlotWaiters := s.writerSlotWaiters ++ [entry] }
  else runItem entry { s with writerSlotsInUse := s.writerSlotsInUse + 1 }

/-- `startItem`, up to its first `await`. -/
def startItem (entry : Entry) (s : Worker) : Worker :=
  let s := { s with inFlight := s.inFlight + 1 }
  if entry.prepares then { s with preparing := s.preparing ++ [entry] } else claim o entry s

/-- One iteration of the loop of `pump`. The `pump` that `grantSlot` calls in it returns at once. -/
def iterate (s : Worker) : Worker :=
  match s.queue with
  | [] => notifyIfIdle { s with pump := .idle }
  | next :: rest =>
    if o.writerConcurrency ≤ s.writerSlotsInUse then { s with pump := .waiting }
    else startItem o next (grantSlot id { s with queue := rest, pump := .yielded })

def pump (s : Worker) : Worker := if s.pump = .idle then iterate o s else s

def submit (prepares aborted : Bool) (s : Worker) : Worker :=
  let entry : Entry := { id := s.nextItem, prepares := prepares }
  let s := { s with nextItem := s.nextItem + 1 }
  if s.closed then settlePromise entry.id .closed s
  else if aborted then settlePromise entry.id .aborted s
  else if s.queue.length < o.capacity then enqueue (pump o) entry s
  else { s with slotWaiters := s.slotWaiters ++ [{ entry := entry }] }

/-- The abort of a submission's signal: `onQueuedAbort`, or `onAbort` where it is parked. -/
def abortSubmission (id : ℕ) (s : Worker) : Worker :=
  match s.queue.find? (fun entry => entry.id = id && entry.settle = none) with
  | some entry =>
    settlePromise id .aborted (grantSlot (pump o) { s with queue := s.queue.erase entry })
  | none =>
    if s.slotWaiters.any (fun waiter => waiter.entry.id = id && !waiter.aborted) then
      settlePromise id .aborted
        { s with
          slotWaiters := s.slotWaiters.map fun waiter =>
            if waiter.entry.id = id then { waiter with aborted := true } else waiter }
    else s

def reserve (weight : ℚ≥0) (aborted : Bool) (s : Worker) : Worker :=
  match o.budget with
  | none => s
  | some budget =>
    if s.closed ∨ aborted then s else { s with weights := reserveWeight budget weight s.weights }

def abortReservation (id : ℕ) (s : Worker) : Worker :=
  match o.budget with
  | none => s
  | some budget => { s with weights := abortReserve budget id s.weights }

def modifyReservation (i : ℕ) (f : Reservation → Reservation) (s : Worker) : Worker :=
  { s with weights := { s.weights with reservations := s.weights.reservations.modify i f } }

/-- `release`, of a reservation. -/
def release (i : ℕ) (s : Worker) : Worker :=
  match s.weights.reservations[i]? with
  | none => s
  | some reservation =>
    if reservation.submitted then s
    else freeWeight o i (modifyReservation i (fun r => { r with released := true }) s)

/-- `reservationSubmit`, of a reservation that was not submitted before. -/
def reservationSubmit (i : ℕ) (prepares : Bool) (s : Worker) : Worker :=
  match s.weights.reservations[i]? with
  | none => s
  | some reservation =>
    if reservation.submitted then s
    else
      let entry : Entry := { id := s.nextItem, prepares := prepares, settle := some i }
      let s := modifyReservation i (fun r => { r with submitted := true, refused := s.closed })
        { s with nextItem := s.nextItem + 1 }
      if s.closed then settlePromise entry.id .closed (freeWeight o i s)
      else enqueue (pump o) entry s

/-- The rejection of parked submissions by `close`. -/
def rejectSlotWaiters (waiters : List SlotWaiter) (s : Worker) : Worker :=
  waiters.foldl (fun s waiter => settlePromise waiter.entry.id .closed s) s

def close (s : Worker) : Worker :=
  let rejected := rejectSlotWaiters s.slotWaiters { s with closed := true }
  let s : Worker :=
    { rejected with
      slotWaiters := []
      weights := { rejected.weights with weightWaiters := [] } }
  if s.pump = .idle ∧ s.inFlight = 0 ∧ s.queue = [] then
    { s with closesResolved := s.closesResolved + 1 }
  else { s with idleWaiters := s.idleWaiters + 1 }

/-! ## Jobs -/

/-- How a `prepare` ends: with a result, with `null`, or with an error. -/
inductive Preparation
  | result
  | null
  | error

/-- What happens next: a call of the worker, the abort of a signal, the end of a `prepare` or `run`, a
timer, or a continuation of the worker's own. -/
inductive Action
  | submit (prepares aborted : Bool)
  | abortSubmission (id : ℕ)
  | reserve (weight : ℚ≥0) (aborted : Bool)
  | abortReservation (id : ℕ)
  | release (i : ℕ)
  | reservationSubmit (i : ℕ) (prepares : Bool)
  | close
  | prepareEnds (entry : Entry) (preparation : Preparation)
  | runEnds (entry : Entry) (fails : Bool)
  | deadline (entry : Entry)
  | ownsSlot (entry : Entry)
  | pumpResumes

/-- The items that were started and are not over. -/
def Worker.started (s : Worker) : List Entry :=
  s.preparing ++ s.writerSlotWaiters ++ s.owners ++ s.running

/-- A `prepare` ends. -/
def prepareEnds (entry : Entry) (preparation : Preparation) (s : Worker) : Worker :=
  if entry ∈ s.preparing then
    let s := { s with preparing := s.preparing.erase entry }
    match preparation with
    | .result => finish o entry (settleUnlessExpired entry.id .prepared s)
    | .error => finish o entry (settleUnlessExpired entry.id .error s)
    | .null => claim o entry s
  else s

/-- A `run` ends. -/
def runEnds (entry : Entry) (fails : Bool) (s : Worker) : Worker :=
  if entry ∈ s.running then
    let s := { s with running := s.running.erase entry }
    let outcome := if fails then Outcome.error else .value
    finish o entry (releaseWriterSlot (settleUnlessExpired entry.id outcome s))
  else s

/-- The timer of a started item. -/
def deadline (entry : Entry) (s : Worker) : Worker :=
  if entry ∈ s.started then
    settlePromise entry.id .deadline { s with expired := entry.id :: s.expired }
  else s

/-- The next owner of a writer slot goes on. -/
def ownsSlot (entry : Entry) (s : Worker) : Worker :=
  if entry ∈ s.owners then runItem entry { s with owners := s.owners.erase entry } else s

def pumpResumes (s : Worker) : Worker := if s.pump = .yielded then iterate o s else s

/-- One job. -/
def step (s : Worker) : Action → Worker
  | .submit prepares aborted => submit o prepares aborted s
  | .abortSubmission id => abortSubmission o id s
  | .reserve weight aborted => reserve o weight aborted s
  | .abortReservation id => abortReservation o id s
  | .release i => release o i s
  | .reservationSubmit i prepares => reservationSubmit o i prepares s
  | .close => close s
  | .prepareEnds entry preparation => prepareEnds o entry preparation s
  | .runEnds entry fails => runEnds o entry fails s
  | .deadline entry => deadline entry s
  | .ownsSlot entry => ownsSlot entry s
  | .pumpResumes => pumpResumes o s

def run (s : Worker) (actions : List Action) : Worker := actions.foldl (step o) s

theorem run_induction {P : Worker → Prop} (hstep : ∀ s action, P s → P (step o s action))
    {s : Worker} (h : P s) (actions : List Action) : P (run o s actions) := by
  induction actions generalizing s with
  | nil => exact h
  | cons action actions ih => exact ih (hstep s action h)

end FlushWorker

end Keeper
