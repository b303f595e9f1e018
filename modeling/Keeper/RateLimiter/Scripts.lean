import Keeper.Core.Time
import Keeper.Foundations.JsonText
import Keeper.Foundations.SortedSet
import Mathlib.Data.String.Basic

/-!
# The rate limiter

`redis-rate-limiter.ts`: the scripts of a key. The window holds a member for each permit of the last
minute; the queue holds the tokens of the callers that wait, by the clock value at which they joined; a
mark is set on a head of the queue that blocks someone.

* `window_acquireScript`, `window_priorityAcquireScript`: a run is granted only if there is room, and
  then it adds its permits to the window.
* `LimiterSystem`: the runs of any number of callers.
-/

namespace Keeper

open Redis

/-! ## Scripts -/

def retryPollMs : ℤ := 100

def queueEntryTtlMs : ℤ := 180000

def queueHeadGraceMs : ℤ := 15000

/-- The keys of a limiter: the window, its queue, and the marks on heads of the queue. -/
structure LimiterKeys where
  window : Key (SortedSet String) := none
  queue : Key (SortedSet String) := none
  blocked : Key (SortedSet String) := none

/-- The keys at a later time. -/
def LimiterKeys.elapse (now : ℤ) (keys : LimiterKeys) : LimiterKeys where
  window := keys.window.elapse now
  queue := keys.queue.elapse now
  blocked := keys.blocked.elapse now

structure AcquireDecision where
  waitTimeMs : ℤ
  occupancy : ℕ
  queueDepth : Option ℕ := none

/-- The arguments of a run, and the values that `math.random` returns in it. A caller that has no
token passes none. -/
structure AcquireInput where
  now : ℤ
  count : ℕ
  limit : ℕ
  token : String := ""
  random : ℕ → ℕ

def AcquireInput.windowStart (input : AcquireInput) : ℤ := input.now - msPerMinute

def permitMember (now : ℤ) (i random : ℕ) : String :=
  toString now ++ ":" ++ toString i ++ ":" ++ toString random

/-- The members of the permits of a run. -/
def AcquireInput.permits (input : AcquireInput) : List String :=
  (List.range input.count).map fun i => permitMember input.now (i + 1) (input.random (i + 1))

def headAfterReaping (now : ℤ) (token : String) (keys : LimiterKeys) : Option String × LimiterKeys :=
  match keys.queue.sorted.first with
  | none => (none, keys)
  | some ⟨head, _⟩ =>
    if head = token then (some head, keys)
    else
      match keys.blocked.sorted.score? head with
      | none =>
        (some head, { keys with
          blocked := (keys.blocked.update (·.add now head)).pexpire now queueEntryTtlMs })
      | some blockedSince =>
        if now - blockedSince ≥ queueHeadGraceMs then
          let queue := keys.queue.update (·.remove head)
          (queue.sorted.first.map (·.member),
            { keys with queue, blocked := keys.blocked.update (·.remove head) })
        else (some head, keys)

/-- The window without the permits that are a minute old. -/
def trimWindow (input : AcquireInput) (keys : LimiterKeys) : LimiterKeys :=
  { keys with window := keys.window.update (·.removeUpTo input.windowStart) }

/-- The window with the permits of a run. -/
def addPermits (input : AcquireInput) (keys : LimiterKeys) : LimiterKeys :=
  { keys with
    window := (input.permits.foldl (fun window member => window.update (·.add input.now member))
      keys.window).pexpire input.now msPerMinute }

/-- The time until the oldest permit of the window is a minute old. -/
def retryDelay (now : ℤ) (keys : LimiterKeys) : ℤ :=
  match keys.window.sorted.first with
  | some oldest => oldest.score + 60000 - now
  | none => 1000

def hasRoom (input : AcquireInput) (keys : LimiterKeys) : Bool :=
  keys.window.sorted.card + input.count ≤ input.limit

/-- `ACQUIRE_SCRIPT` without a token, after the window has been trimmed. -/
def acquireAtOnce (input : AcquireInput) (keys : LimiterKeys) : AcquireDecision × LimiterKeys :=
  let current := keys.window.sorted.card
  if hasRoom input keys then
    let (aheadOfUs, keys) := headAfterReaping input.now "" keys
    if aheadOfUs.isSome then ({ waitTimeMs := retryPollMs, occupancy := current }, keys)
    else ({ waitTimeMs := 0, occupancy := current }, addPermits input keys)
  else ({ waitTimeMs := retryDelay input.now keys, occupancy := current }, keys)

/-- The head of the queue, whose mark is cleared if it is the caller. -/
def pollHead (input : AcquireInput) (keys : LimiterKeys) : Option String × LimiterKeys :=
  let (head, keys) := headAfterReaping input.now input.token keys
  (head,
    if head = some input.token then
      { keys with blocked := keys.blocked.update (·.remove input.token) }
    else keys)

/-- A caller in the queue, at its clock value unless it is there. -/
def joinQueue (input : AcquireInput) (keys : LimiterKeys) : LimiterKeys :=
  { keys with
    queue := (keys.queue.update (·.addNew input.now input.token)).pexpire input.now queueEntryTtlMs
    blocked := keys.blocked.pexpire input.now queueEntryTtlMs }

/-- `ACQUIRE_SCRIPT` with a token, after the window has been trimmed. -/
def acquireInTurn (input : AcquireInput) (keys : LimiterKeys) : AcquireDecision × LimiterKeys :=
  let current := keys.window.sorted.card
  let room := hasRoom input keys
  let (head, keys) := pollHead input keys
  if (head = none ∨ head = some input.token) ∧ room then
    let keys := addPermits input keys
    let keys := { keys with queue := keys.queue.update (·.remove input.token) }
    ({ waitTimeMs := 0, occupancy := current, queueDepth := some keys.queue.sorted.card }, keys)
  else
    let keys := joinQueue input keys
    ({ waitTimeMs := if room then retryPollMs else retryDelay input.now keys
       occupancy := current
       queueDepth := some keys.queue.sorted.card }, keys)

def acquireScript (input : AcquireInput) (keys : LimiterKeys) : AcquireDecision × LimiterKeys :=
  if input.token = "" then acquireAtOnce input (trimWindow input keys)
  else acquireInTurn input (trimWindow input keys)

def priorityAcquireScript (input : AcquireInput) (keys : LimiterKeys) :
    AcquireDecision × LimiterKeys :=
  let keys := trimWindow input keys
  let current := keys.window.sorted.card
  if hasRoom input keys then
    ({ waitTimeMs := 0, occupancy := current }, addPermits input keys)
  else ({ waitTimeMs := retryDelay input.now keys, occupancy := current }, keys)

def leaveQueueScript (token : String) (keys : LimiterKeys) : LimiterKeys :=
  { keys with
    queue := keys.queue.update (·.remove token)
    blocked := keys.blocked.update (·.remove token) }

/-! ## Runs -/

/-- A run of a script: of a normal caller, of one with priority, or of one that leaves. -/
inductive LimiterCall
  | acquire (input : AcquireInput)
  | priority (input : AcquireInput)
  | leave (token : String)

/-- The request of a run for permits. -/
def LimiterCall.request? : LimiterCall → Option AcquireInput
  | .acquire input => some input
  | .priority input => some input
  | .leave _ => none

/-- A run, and whether its caller goes on. -/
structure LimiterEvent where
  call : LimiterCall
  granted : Bool

/-- The clock value of the latest run, the keys, and the runs, the latest first. -/
structure LimiterSystem where
  now : ℤ
  keys : LimiterKeys := {}
  log : List LimiterEvent := []

/-- The decision of a run that asks for permits. Its caller goes on where it need not wait. -/
def isGranted (decision : AcquireDecision) : Bool := decision.waitTimeMs ≤ 0

namespace LimiterSystem

/-- One run of a script, at the clock value of its caller. -/
def step (s : LimiterSystem) : LimiterCall → LimiterSystem
  | .acquire input =>
    let (decision, keys) := acquireScript input (s.keys.elapse input.now)
    { now := input.now, keys, log := ⟨.acquire input, isGranted decision⟩ :: s.log }
  | .priority input =>
    let (decision, keys) := priorityAcquireScript input (s.keys.elapse input.now)
    { now := input.now, keys, log := ⟨.priority input, isGranted decision⟩ :: s.log }
  | .leave token =>
    { s with keys := leaveQueueScript token s.keys, log := ⟨.leave token, false⟩ :: s.log }

/-- The clock value of a run is not before that of an earlier one. -/
def IsTimely (s : LimiterSystem) (call : LimiterCall) : Prop :=
  ∀ input, call.request? = some input → s.now ≤ input.now

/-- The states that runs of a kind lead to, from a key that is absent. -/
inductive Reaches (allowed : LimiterSystem → LimiterCall → Prop) : LimiterSystem → Prop
  | start (now : ℤ) : Reaches allowed { now }
  | step {s : LimiterSystem} (h : Reaches allowed s) (call : LimiterCall) (hallowed : allowed s call) :
    Reaches allowed (s.step call)

end LimiterSystem

/-! ## The window after a run -/

section Window

variable {input : AcquireInput} {keys : LimiterKeys} {now : ℤ} {token : String}

@[simp] theorem window_headAfterReaping :
    (headAfterReaping now token keys).2.window = keys.window := by
  rw [headAfterReaping]
  split
  · rfl
  · split_ifs
    · rfl
    · split
      · rfl
      · split_ifs <;> rfl

theorem retryDelay_trimWindow : 0 < retryDelay input.now (trimWindow input keys) := by
  rw [retryDelay]
  split
  · next oldest holdest =>
    have hmem := SortedSet.mem_of_first holdest
    rw [trimWindow, Key.sorted_update, SortedSet.mem_removeUpTo, AcquireInput.windowStart,
      msPerMinute] at hmem
    omega
  · omega

theorem retryDelay_congr {keys' : LimiterKeys} (h : keys'.window = keys.window) :
    retryDelay now keys' = retryDelay now keys := by
  rw [retryDelay, retryDelay, h]

@[simp] theorem window_pollHead : (pollHead input keys).2.window = keys.window := by
  rw [pollHead]
  dsimp only
  split_ifs
  · exact window_headAfterReaping
  · exact window_headAfterReaping

theorem isGranted_of_pos {decision : AcquireDecision} (h : 0 < decision.waitTimeMs) :
    isGranted decision = false :=
  decide_eq_false (by omega)

/-- The window after a run: with its permits, if there is room and it is granted, and without the old
ones only otherwise. -/
def RunsWindow (input : AcquireInput) (keys : LimiterKeys) (granted : Bool)
    (window : Key (SortedSet String)) : Prop :=
  granted = true ∧ hasRoom input (trimWindow input keys) = true ∧
      window = (addPermits input (trimWindow input keys)).window ∨
    granted = false ∧ window = (trimWindow input keys).window

theorem addPermits_congr {keys' : LimiterKeys} (h : keys'.window = keys.window) :
    (addPermits input keys').window = (addPermits input keys).window := by
  rw [addPermits, addPermits, h]

/-- **A run without a token** is granted if there is room and no one is ahead. -/
theorem acquireAtOnce_cases :
    isGranted (acquireAtOnce input (trimWindow input keys)).1 = true ∧
        hasRoom input (trimWindow input keys) = true ∧
        (headAfterReaping input.now "" (trimWindow input keys)).1 = none ∧
        (acquireAtOnce input (trimWindow input keys)).2 =
          addPermits input (headAfterReaping input.now "" (trimWindow input keys)).2 ∨
      isGranted (acquireAtOnce input (trimWindow input keys)).1 = false ∧
        ((acquireAtOnce input (trimWindow input keys)).2 =
            (headAfterReaping input.now "" (trimWindow input keys)).2 ∨
          (acquireAtOnce input (trimWindow input keys)).2 = trimWindow input keys) := by
  rw [acquireAtOnce]
  dsimp only
  split_ifs with hroom hahead
  · exact Or.inr ⟨rfl, Or.inl rfl⟩
  · exact Or.inl ⟨rfl, hroom, Option.not_isSome_iff_eq_none.1 hahead, rfl⟩
  · exact Or.inr ⟨isGranted_of_pos retryDelay_trimWindow, Or.inr rfl⟩

/-- **A run with a token** is granted if there is room and it is at the head, and joins the queue
otherwise. -/
theorem acquireInTurn_cases :
    isGranted (acquireInTurn input (trimWindow input keys)).1 = true ∧
        hasRoom input (trimWindow input keys) = true ∧
        ((pollHead input (trimWindow input keys)).1 = none ∨
          (pollHead input (trimWindow input keys)).1 = some input.token) ∧
        (acquireInTurn input (trimWindow input keys)).2 =
          { addPermits input (pollHead input (trimWindow input keys)).2 with
            queue := (pollHead input (trimWindow input keys)).2.queue.update (·.remove input.token) } ∨
      isGranted (acquireInTurn input (trimWindow input keys)).1 = false ∧
        (acquireInTurn input (trimWindow input keys)).2 =
          joinQueue input (pollHead input (trimWindow input keys)).2 := by
  rw [acquireInTurn]
  dsimp only
  split_ifs with hturn hroom
  · exact Or.inl ⟨rfl, hturn.2, hturn.1, rfl⟩
  · exact Or.inr ⟨rfl, rfl⟩
  · refine Or.inr ⟨isGranted_of_pos ?_, rfl⟩
    have hsame : retryDelay input.now (joinQueue input (pollHead input (trimWindow input keys)).2) =
        retryDelay input.now (trimWindow input keys) := retryDelay_congr window_pollHead
    dsimp only
    rw [hsame]
    exact retryDelay_trimWindow

/-- **A run of a normal caller** is granted only if there is room. -/
theorem window_acquireScript : RunsWindow input keys (isGranted (acquireScript input keys).1)
    (acquireScript input keys).2.window := by
  rw [acquireScript]
  split_ifs with htoken
  · rcases @acquireAtOnce_cases input keys with
      ⟨hgranted, hroom, -, hkeys⟩ | ⟨hrefused, hkeys | hkeys⟩
    · rw [hkeys]
      exact Or.inl ⟨hgranted, hroom, addPermits_congr window_headAfterReaping⟩
    · rw [hkeys]
      exact Or.inr ⟨hrefused, window_headAfterReaping⟩
    · rw [hkeys]
      exact Or.inr ⟨hrefused, rfl⟩
  · rcases @acquireInTurn_cases input keys with
      ⟨hgranted, hroom, -, hkeys⟩ | ⟨hrefused, hkeys⟩
    · rw [hkeys]
      exact Or.inl ⟨hgranted, hroom, addPermits_congr window_pollHead⟩
    · rw [hkeys]
      exact Or.inr ⟨hrefused, window_pollHead⟩

/-- **A run with priority** is granted only if there is room. -/
theorem window_priorityAcquireScript :
    RunsWindow input keys (isGranted (priorityAcquireScript input keys).1)
      (priorityAcquireScript input keys).2.window := by
  rw [priorityAcquireScript]
  split_ifs with hroom
  · exact Or.inl ⟨rfl, hroom, rfl⟩
  · exact Or.inr ⟨isGranted_of_pos retryDelay_trimWindow, rfl⟩

end Window

end Keeper
