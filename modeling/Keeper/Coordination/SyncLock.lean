import Keeper.Core.Types
import Keeper.Foundations.Redis
import Mathlib.Logic.Function.Basic

/-!
# The sync lock

`sync-lock.ts`: the scripts that acquire, confirm, renew, release and give up the lock of a calendar,
and the calls of `acquire` that run them. A call goes on from one awaited command to the next;
commands of other calls and the expiry of keys come in between.

* `keys_advance`, `RunsScript`, `runsScript_advance`: a step of a call runs one script at most.
* `IsQueue.runsScript`, `RunsScript.lock_eq`, `RunsScript.holds`: what a script keeps of the queue, of
  the lock of another holder, and of the ids that the keys hold.
-/

namespace Keeper

open Redis

/-! ## Scripts -/

def lockTtlSeconds : ℤ := 120

def waiterGraceMs : ℤ := 60000

/-- `POLL_TIMEOUT_MS`: `INGEST_SOURCE_TIMEOUT_MS` and the grace. -/
def pollTimeoutMs : ℤ := 450000 + waiterGraceMs

/-- `SIGNAL_TTL_SECONDS`, a whole number of seconds. -/
def signalTtlSeconds : ℤ := (pollTimeoutMs + waiterGraceMs) / 1000

/-- The keys of a calendar: the lock, the signal and the stack of waiters. -/
structure LockKeys where
  lock : Key String := none
  signal : Key String := none
  waiters : Key (List String) := none

/-- The keys of a calendar at a later time. -/
def LockKeys.elapse (now : ℤ) (keys : LockKeys) : LockKeys where
  lock := keys.lock.elapse now
  signal := keys.signal.elapse now
  waiters := keys.waiters.elapse now

/-- What `ACQUIRE_OR_SIGNAL_SCRIPT` returns. -/
inductive AcquireReply
  | acquired
  | blocked
  | queued
  | replaced
  deriving DecidableEq

/-- `ACQUIRE_OR_SIGNAL_SCRIPT`; `isBlocked`: the blocker is to be checked, and its key exists. -/
def acquireOrSignalScript (now : ℤ) (isBlocked : Bool) (holderId : String) (keys : LockKeys) :
    AcquireReply × LockKeys :=
  if isBlocked then (.blocked, keys)
  else
    let signalled := { keys with
      signal := Key.setEx now signalTtlSeconds holderId
      waiters := ((keys.waiters.lrem holderId).lpush holderId).expire now signalTtlSeconds }
    if keys.lock.get.isNone then
      (.acquired, { signalled with lock := Key.setEx now lockTtlSeconds holderId })
    else if keys.signal.get.isSome then (.replaced, signalled)
    else (.queued, signalled)

def releaseScript (holderId : String) (keys : LockKeys) : LockKeys :=
  if keys.lock.get = some holderId then { keys with lock := none } else keys

def renewScript (now : ℤ) (holderId : String) (keys : LockKeys) : LockKeys :=
  if keys.lock.get = some holderId then
    { keys with lock := keys.lock.expire now lockTtlSeconds }
  else keys

def cancelWaiterScript (now : ℤ) (holderId : String) (keys : LockKeys) : LockKeys :=
  let lock := if keys.lock.get = some holderId then none else keys.lock
  let waiters := keys.waiters.lrem holderId
  match waiters.first with
  | some waiter =>
    { lock
      signal := Key.setEx now signalTtlSeconds waiter
      waiters := waiters.expire now signalTtlSeconds }
  | none => { lock, signal := none, waiters := none }

/-- `CONFIRM_ACQUISITION_SCRIPT`: it has confirmed, or not. -/
def confirmAcquisitionScript (holderId : String) (keys : LockKeys) : Bool × LockKeys :=
  if keys.lock.get = some holderId ∧ keys.signal.get = some holderId ∧
      keys.waiters.first = some holderId then
    (true, { keys with signal := none, waiters := none })
  else (false, keys)

inductive SyncLockAcquisition
  | background
  | preempting

/-- `HOLDER_PREFIXES`. -/
def holderPrefix : SyncLockAcquisition → String
  | .background => "background:"
  | .preempting => "preempting:"

/-- An id begins with `BACKGROUND_HOLDER_PREFIX`. -/
def isBackground (id : String) : Bool := (holderPrefix .background).toList.isPrefixOf id.toList

def isCurrentScript (holderId : String) (keys : LockKeys) : Bool :=
  keys.lock.get = some holderId &&
    keys.waiters.elements.all fun waiter => waiter = holderId || isBackground waiter

/-! ## Calls -/

/-- The arguments of a call of `acquire`, and the class of its lock. -/
structure AcquireCall where
  acquisition : SyncLockAcquisition
  calendarId : String
  blockerCalendarId : Option String := none

def AcquireCall.holderId (call : AcquireCall) (uuid : String) : String :=
  holderPrefix call.acquisition ++ uuid

/-- Where a call stands. `polled`: the lock was acquired in the polling loop, whose `finally` cancels;
`rejects`: a command has failed, and the call rejects once it has cancelled. -/
inductive Phase
  /-- Not called. -/
  | idle
  /-- Before the first `ACQUIRE_OR_SIGNAL_SCRIPT`. -/
  | starting
  /-- The script has answered `acquired`; before the test of the abort signal. -/
  | acquired (polled : Bool)
  /-- Before `CONFIRM_ACQUISITION_SCRIPT`. -/
  | confirming (polled : Bool)
  /-- Before `cancelWaiter` of `createConfirmedHandle`. -/
  | withdrawing (polled : Bool)
  /-- At the head of the polling loop, with the latest answer of the script. -/
  | polling (result : AcquireReply)
  /-- Before the signal is read. -/
  | readingSignal (result : AcquireReply)
  /-- Before the lock is read. -/
  | readingLock (result : AcquireReply)
  /-- Before `ACQUIRE_OR_SIGNAL_SCRIPT` in the loop. -/
  | retrying
  /-- Before `cancelWaiter` of the `finally`. -/
  | leaving (rejects : Bool)
  /-- The call has returned a handle. -/
  | holding
  /-- The handle has been released. -/
  | released
  /-- The call has returned `acquired: false`. -/
  | refused
  /-- The call has rejected. -/
  | rejected
  deriving DecidableEq

/-- What becomes of a command: it is answered, or it fails, after it took effect or before. -/
inductive Fate
  | answered
  | lost
  | unsent
  deriving DecidableEq

/-- What a call meets at a step: the abort signal, its clock at the deadline of the polling, the fate
of the command, and whether the holder releases. -/
structure Circumstance where
  aborted : Bool := false
  timedOut : Bool := false
  fate : Fate := .answered
  releases : Bool := false

/-- A command takes a call from one phase to another, and to a third if it fails. -/
def Fate.resolve (fate : Fate) (answered failed : Phase) (after before : LockKeys) :
    Phase × LockKeys :=
  match fate with
  | .answered => (answered, after)
  | .lost => (failed, after)
  | .unsent => (failed, before)

/-- **One step of a call** of `acquire`, or of the handle that it returned. -/
def advance (now : ℤ) (isBlocked : Bool) (holderId : String) (env : Circumstance) :
    Phase → LockKeys → Phase × LockKeys
  | .idle, keys => (if env.aborted then .refused else .starting, keys)
  | .starting, keys =>
    let (result, after) := acquireOrSignalScript now isBlocked holderId keys
    env.fate.resolve (if result = .acquired then .acquired false else .polling result) .rejected
      after keys
  | .acquired polled, keys => (if env.aborted then .withdrawing polled else .confirming polled, keys)
  | .confirming polled, keys =>
    let (confirmed, after) := confirmAcquisitionScript holderId keys
    env.fate.resolve (if confirmed then .holding else .withdrawing polled)
      (if polled then .leaving true else .rejected) after keys
  | .withdrawing polled, keys =>
    env.fate.resolve (if polled then .leaving false else .refused)
      (if polled then .leaving true else .rejected) (cancelWaiterScript now holderId keys) keys
  | .polling result, keys =>
    (if env.timedOut || env.aborted then .leaving false
      else if result ≠ .blocked then .readingSignal result
      else .readingLock result, keys)
  | .readingSignal result, keys =>
    env.fate.resolve
      (match keys.signal.get with
      | none => .leaving false
      | some currentWaiter =>
        if currentWaiter ≠ holderId then .polling result else .readingLock result)
      (.leaving true) keys keys
  | .readingLock result, keys =>
    env.fate.resolve
      (if result = .blocked ∨ truthy keys.lock.get = none then .retrying else .polling result)
      (.leaving true) keys keys
  | .retrying, keys =>
    let (result, after) := acquireOrSignalScript now isBlocked holderId keys
    env.fate.resolve (if result = .acquired then .acquired true else .polling result)
      (.leaving true) after keys
  | .leaving rejects, keys =>
    env.fate.resolve (if rejects then .rejected else .refused) .rejected
      (cancelWaiterScript now holderId keys) keys
  | .holding, keys =>
    if env.releases then env.fate.resolve .released .released (releaseScript holderId keys) keys
    else env.fate.resolve .holding .holding (renewScript now holderId keys) keys
  | .released, keys => (.released, keys)
  | .refused, keys => (.refused, keys)
  | .rejected, keys => (.rejected, keys)

/-- A script that a step of a call executes. -/
inductive LockScript
  | acquireOrSignal
  | confirmAcquisition
  | cancelWaiter
  | renew
  | release
  deriving DecidableEq

def Circumstance.script (env : Circumstance) : Phase → Option LockScript
  | .starting | .retrying => some .acquireOrSignal
  | .confirming _ => some .confirmAcquisition
  | .withdrawing _ | .leaving _ => some .cancelWaiter
  | .holding => if env.releases then some .release else some .renew
  | _ => none

/-- The script that takes effect in a step. -/
def Circumstance.executed (env : Circumstance) (phase : Phase) : Option LockScript :=
  if env.fate = .unsent then none else env.script phase

def LockScript.apply (now : ℤ) (isBlocked : Bool) (holderId : String) (keys : LockKeys) :
    LockScript → LockKeys
  | .acquireOrSignal => (acquireOrSignalScript now isBlocked holderId keys).2
  | .confirmAcquisition => (confirmAcquisitionScript holderId keys).2
  | .cancelWaiter => cancelWaiterScript now holderId keys
  | .renew => renewScript now holderId keys
  | .release => releaseScript holderId keys

/-! ## What a script does to the keys -/

def LockKeys.Holds (keys : LockKeys) (id : String) : Prop :=
  keys.lock.get = some id ∨ keys.signal.get = some id ∨ id ∈ keys.waiters.elements

/-- The signal and the stack of waiters are absent, or the signal is the head of the stack, on which
no waiter stands twice, and both expire together. -/
def IsQueue (keys : LockKeys) : Prop :=
  keys.signal = none ∧ keys.waiters = none ∨ ∃ waiter rest expiresAt, (waiter :: rest).Nodup ∧
    keys.signal = some ⟨waiter, expiresAt⟩ ∧ keys.waiters = some ⟨waiter :: rest, expiresAt⟩

/-- What one step of a call does to the keys of its calendar: one script of its holder, or none. -/
inductive RunsScript (now : ℤ) (holderId : String) (keys : LockKeys) : LockKeys → Prop
  | none : RunsScript now holderId keys keys
  | acquire : RunsScript now holderId keys (acquireOrSignalScript now false holderId keys).2
  | confirm : RunsScript now holderId keys (confirmAcquisitionScript holderId keys).2
  | cancel : RunsScript now holderId keys (cancelWaiterScript now holderId keys)
  | renew : RunsScript now holderId keys (renewScript now holderId keys)
  | release : RunsScript now holderId keys (releaseScript holderId keys)

section Scripts

variable {now : ℤ} {isBlocked : Bool} {holderId id : String} {env : Circumstance} {phase : Phase}
  {keys after : LockKeys}

theorem Fate.resolve_snd (fate : Fate) (answered failed : Phase) (after before : LockKeys) :
    (fate.resolve answered failed after before).2 = if fate = .unsent then before else after := by
  cases fate <;> rfl

/-- **The keys after a step** are what its script has made of them. -/
theorem keys_advance : (advance now isBlocked holderId env phase keys).2 =
    (env.executed phase).elim keys (LockScript.apply now isBlocked holderId keys) := by
  cases phase with
  | holding =>
    rw [advance, Circumstance.executed, Circumstance.script]
    split_ifs with hreleases hunsent hunsent
    · rw [Fate.resolve_snd, if_pos hunsent]
      rfl
    · rw [Fate.resolve_snd, if_neg hunsent]
      rfl
    · rw [Fate.resolve_snd, if_pos hunsent]
      rfl
    · rw [Fate.resolve_snd, if_neg hunsent]
      rfl
  | starting | retrying | confirming | withdrawing | leaving =>
    simp only [advance, Circumstance.executed, Circumstance.script, Fate.resolve_snd]
    split_ifs <;> rfl
  | _ =>
    simp only [advance, Circumstance.executed, Circumstance.script, Fate.resolve_snd, ite_self]
    rfl

theorem runsScript_apply (script : LockScript) :
    RunsScript now holderId keys (script.apply now isBlocked holderId keys) := by
  cases script with
  | acquireOrSignal =>
    cases isBlocked
    · exact .acquire
    · exact .none
  | confirmAcquisition => exact .confirm
  | cancelWaiter => exact .cancel
  | renew => exact .renew
  | release => exact .release

/-- **A step of a call** runs one script at most. -/
theorem runsScript_advance :
    RunsScript now holderId keys (advance now isBlocked holderId env phase keys).2 := by
  rw [keys_advance]
  cases env.executed phase with
  | none => exact .none
  | some script => exact runsScript_apply script

theorem acquireOrSignalScript_false :
    (acquireOrSignalScript now false holderId keys).2 =
      { lock := if keys.lock.get.isNone then Key.setEx now lockTtlSeconds holderId else keys.lock
        signal := Key.setEx now signalTtlSeconds holderId
        waiters :=
          ((keys.waiters.lrem holderId).lpush holderId).expire now signalTtlSeconds } := by
  rw [acquireOrSignalScript, if_neg Bool.false_ne_true]
  dsimp only
  split_ifs <;> rfl

theorem lock_cancelWaiterScript : (cancelWaiterScript now holderId keys).lock =
    if keys.lock.get = some holderId then none else keys.lock := by
  unfold cancelWaiterScript
  dsimp only
  split <;> rfl

theorem IsQueue.nodup (h : IsQueue keys) : keys.waiters.elements.Nodup := by
  rcases h with ⟨-, hwaiters⟩ | ⟨waiter, rest, expiresAt, hnodup, -, hwaiters⟩
  · rw [hwaiters]
    exact List.nodup_nil
  · rw [hwaiters]
    exact hnodup

/-- **A script keeps the queue.** -/
theorem IsQueue.runsScript (h : IsQueue keys) (hrun : RunsScript now holderId keys after) :
    IsQueue after := by
  cases hrun with
  | none => exact h
  | acquire =>
    rw [acquireOrSignalScript_false]
    refine Or.inr ⟨holderId, keys.waiters.elements.filter (· ≠ holderId), _, ?_, rfl, ?_⟩
    · refine List.nodup_cons.2 ⟨fun hmem => ?_, h.nodup.filter _⟩
      exact of_decide_eq_true (List.mem_filter.1 hmem).2 rfl
    · refine Key.expire_of_elements ?_ _ _
      rw [Key.elements_lpush, Key.elements_lrem]
  | confirm =>
    rw [confirmAcquisitionScript]
    split_ifs
    · exact Or.inl ⟨rfl, rfl⟩
    · exact h
  | cancel =>
    have hnodup := h.nodup.filter (· ≠ holderId)
    rw [← Key.elements_lrem] at hnodup
    unfold cancelWaiterScript
    dsimp only
    cases helements : (keys.waiters.lrem holderId).elements with
    | nil =>
      rw [Key.first, helements]
      exact Or.inl ⟨rfl, rfl⟩
    | cons waiter rest =>
      rw [Key.first, helements]
      rw [helements] at hnodup
      exact Or.inr ⟨waiter, rest, _, hnodup, rfl, Key.expire_of_elements helements _ _⟩
  | renew =>
    rw [renewScript]
    split_ifs
    · exact h
    · exact h
  | release =>
    rw [releaseScript]
    split_ifs
    · exact h
    · exact h

/-- **A script keeps the lock of another holder.** -/
theorem RunsScript.lock_eq (hrun : RunsScript now holderId keys after)
    (hlock : keys.lock.get = some id) (hne : id ≠ holderId) : after.lock = keys.lock := by
  have hno : keys.lock.get ≠ some holderId := by
    rw [hlock]
    exact fun heq => hne (Option.some.inj heq)
  cases hrun with
  | none => rfl
  | acquire =>
    rw [acquireOrSignalScript_false]
    exact if_neg (by simp [hlock])
  | confirm =>
    rw [confirmAcquisitionScript, if_neg (fun h => hno h.1)]
  | cancel => rw [lock_cancelWaiterScript, if_neg hno]
  | renew => rw [renewScript, if_neg hno]
  | release => rw [releaseScript, if_neg hno]

/-- **What remains after a cancellation** was there, and is not the id that cancelled. -/
theorem holds_of_cancelWaiterScript (h : (cancelWaiterScript now holderId keys).Holds id) :
    id ≠ holderId ∧ keys.Holds id := by
  have hwaiter : id ∈ (keys.waiters.lrem holderId).elements → id ≠ holderId ∧ keys.Holds id := by
    intro hmem
    rw [Key.elements_lrem, List.mem_filter, decide_eq_true_eq] at hmem
    exact ⟨hmem.2, Or.inr (Or.inr hmem.1)⟩
  rcases h with hlock | hrest
  · rw [lock_cancelWaiterScript] at hlock
    split_ifs at hlock with howner
    · cases hlock
    · refine ⟨fun heq => howner ?_, Or.inl hlock⟩
      rw [← heq]
      exact hlock
  · unfold cancelWaiterScript at hrest
    dsimp only at hrest
    cases hfirst : (keys.waiters.lrem holderId).first with
    | none =>
      rw [hfirst] at hrest
      rcases hrest with hsignal | hmem
      · cases hsignal
      · cases hmem
    | some waiter =>
      rw [hfirst] at hrest
      rcases hrest with hsignal | hmem
      · obtain rfl : waiter = id := Option.some.inj hsignal
        exact hwaiter (List.mem_of_head? hfirst)
      · rw [Key.elements_expire] at hmem
        exact hwaiter hmem

/-- **A script brings no id but that of its holder.** -/
theorem RunsScript.holds (hrun : RunsScript now holderId keys after) (hne : id ≠ holderId)
    (hholds : after.Holds id) : keys.Holds id := by
  cases hrun with
  | none => exact hholds
  | acquire =>
    rw [acquireOrSignalScript_false] at hholds
    rcases hholds with hlock | hsignal | hwaiter
    · dsimp only at hlock
      split_ifs at hlock
      · exact absurd (Option.some.inj hlock).symm hne
      · exact Or.inl hlock
    · exact absurd (Option.some.inj hsignal).symm hne
    · simp only [Key.elements_expire, Key.elements_lpush, Key.elements_lrem, List.mem_cons] at hwaiter
      rcases hwaiter with heq | hwaiter
      · exact absurd heq hne
      · exact Or.inr (Or.inr (List.mem_filter.1 hwaiter).1)
  | confirm =>
    rw [confirmAcquisitionScript] at hholds
    split_ifs at hholds
    · rcases hholds with hlock | hsignal | hwaiter
      · exact Or.inl hlock
      · cases hsignal
      · cases hwaiter
    · exact hholds
  | cancel => exact (holds_of_cancelWaiterScript hholds).2
  | renew =>
    rw [renewScript] at hholds
    split_ifs at hholds
    · rcases hholds with hlock | hrest
      · rw [Key.get_expire] at hlock
        exact Or.inl hlock
      · exact Or.inr hrest
    · exact hholds
  | release =>
    rw [releaseScript] at hholds
    split_ifs at hholds
    · rcases hholds with hlock | hrest
      · cases hlock
      · exact Or.inr hrest
    · exact hholds

/-- A newest waiter that cancels hands the signal back to its predecessor. -/
theorem IsQueue.handsBack {keys : LockKeys} (h : IsQueue keys) {now : ℤ}
    {waiter predecessor : String} {rest : List String}
    (hwaiters : keys.waiters.get = some (waiter :: predecessor :: rest)) :
    (cancelWaiterScript now waiter keys).signal.get = some predecessor := by
  have helements : keys.waiters.elements = waiter :: predecessor :: rest := by
    rw [Key.elements, hwaiters]
    rfl
  have hnodup := h.nodup
  rw [helements, List.nodup_cons, List.mem_cons, not_or] at hnodup
  have hfirst : (keys.waiters.lrem waiter).first = some predecessor := by
    rw [Key.first, Key.elements_lrem, helements, List.filter_cons_of_neg (by simp),
      List.filter_cons_of_pos (by simpa using Ne.symm hnodup.1.1)]
    rfl
  unfold cancelWaiterScript
  dsimp only
  rw [hfirst]
  rfl

theorem IsQueue.elapse (h : IsQueue keys) (now : ℤ) : IsQueue (keys.elapse now) := by
  rcases h with ⟨hsignal, hwaiters⟩ | ⟨waiter, rest, expiresAt, hnodup, hsignal, hwaiters⟩
  · refine Or.inl ⟨?_, ?_⟩
    · rw [LockKeys.elapse, hsignal]
      rfl
    · rw [LockKeys.elapse, hwaiters]
      rfl
  · rw [IsQueue, LockKeys.elapse, hsignal, hwaiters]
    simp only [Key.elapse, Option.filter_some]
    by_cases hlater : expiresAt.all (now < ·) = true
    · rw [if_pos hlater, if_pos hlater]
      exact Or.inr ⟨waiter, rest, expiresAt, hnodup, rfl, rfl⟩
    · rw [if_neg hlater, if_neg hlater]
      exact Or.inl ⟨rfl, rfl⟩

theorem LockKeys.Holds.of_elapse {now : ℤ} (h : (keys.elapse now).Holds id) : keys.Holds id :=
  h.imp Key.get_of_elapse (Or.imp Key.get_of_elapse Key.mem_of_elapse)

/-! ## What a step does to the phase -/

/-- The keys hold nothing of a call in these phases. -/
def Phase.isAbsent : Phase → Bool
  | .idle | .starting | .refused => true
  | _ => false

/-- The call has returned a handle. -/
def Phase.isHolding : Phase → Bool
  | .holding => true
  | _ => false

theorem Phase.isHolding_iff : phase.isHolding = true ↔ phase = .holding := by
  cases phase <;> simp [Phase.isHolding]

section Kinds

variable {kind : Phase → Bool} {answered failed : Phase}

/-- A command leads to a phase of a kind that failures do not lead to: it was answered. -/
theorem Fate.resolve_answered {fate : Fate} (hfailed : kind failed = false)
    (h : kind (fate.resolve answered failed after keys).1 = true) :
    kind answered = true ∧ (fate.resolve answered failed after keys).2 = after := by
  cases fate with
  | answered => exact ⟨h, rfl⟩
  | lost => exact absurd h (by rw [Fate.resolve, hfailed]; exact Bool.false_ne_true)
  | unsent => exact absurd h (by rw [Fate.resolve, hfailed]; exact Bool.false_ne_true)

theorem kind_ite {p : Prop} [Decidable p] {a b : Phase} (ha : kind a = false)
    (hb : kind b = false) : kind (if p then a else b) = false := by
  split_ifs
  · exact ha
  · exact hb

theorem Fate.resolve_other {fate : Fate} (hanswered : kind answered = false)
    (hfailed : kind failed = false) :
    kind (fate.resolve answered failed after keys).1 = false := by
  cases fate with
  | answered => exact hanswered
  | lost => exact hfailed
  | unsent => exact hfailed

end Kinds

/-- **A call that has nothing in the keys** had nothing in them before, or it has just cancelled. -/
theorem isAbsent_advance
    (h : (advance now isBlocked holderId env phase keys).1.isAbsent = true) :
    phase.isAbsent = true ∧ (advance now isBlocked holderId env phase keys).2 = keys ∨
      (advance now isBlocked holderId env phase keys).2 = cancelWaiterScript now holderId keys := by
  have hno {next : Phase} (hnext : next.isAbsent = false) : next.isAbsent ≠ true :=
    ne_true_of_eq_false hnext
  cases phase with
  | idle => exact Or.inl ⟨rfl, rfl⟩
  | refused => exact Or.inl ⟨rfl, rfl⟩
  | starting => exact absurd h (hno (Fate.resolve_other (kind_ite rfl rfl) rfl))
  | acquired => exact absurd h (hno (kind_ite rfl rfl))
  | confirming =>
    exact absurd h (hno (Fate.resolve_other (kind_ite rfl rfl) (kind_ite rfl rfl)))
  | withdrawing => exact Or.inr (Fate.resolve_answered (kind_ite rfl rfl) h).2
  | polling => exact absurd h (hno (kind_ite rfl (kind_ite rfl rfl)))
  | readingSignal =>
    refine absurd h (hno (Fate.resolve_other ?_ rfl))
    split
    · rfl
    · exact kind_ite rfl rfl
  | readingLock => exact absurd h (hno (Fate.resolve_other (kind_ite rfl rfl) rfl))
  | retrying => exact absurd h (hno (Fate.resolve_other (kind_ite rfl rfl) rfl))
  | leaving => exact Or.inr (Fate.resolve_answered rfl h).2
  | holding =>
    rw [advance] at h
    split_ifs at h
    · exact absurd h (hno (Fate.resolve_other rfl rfl))
    · exact absurd h (hno (Fate.resolve_other rfl rfl))
  | released => cases h
  | rejected => cases h

/-- **A call gets a handle** only from a confirmation, with its id in the lock key. -/
theorem isHolding_advance (hphase : phase.isHolding = false)
    (h : (advance now isBlocked holderId env phase keys).1.isHolding = true) :
    keys.lock.get = some holderId ∧
      (advance now isBlocked holderId env phase keys).2.lock = keys.lock := by
  have hno {next : Phase} (hnext : next.isHolding = false) : next.isHolding ≠ true :=
    ne_true_of_eq_false hnext
  cases phase with
  | holding => cases hphase
  | confirming =>
    by_cases hconfirmed : keys.lock.get = some holderId ∧ keys.signal.get = some holderId ∧
        keys.waiters.first = some holderId
    · have hscript : confirmAcquisitionScript holderId keys =
          (true, { keys with signal := none, waiters := none }) := if_pos hconfirmed
      rw [advance, hscript] at h ⊢
      have hkeys := (Fate.resolve_answered (kind_ite rfl rfl) h).2
      exact ⟨hconfirmed.1, (congrArg LockKeys.lock hkeys :)⟩
    · have hscript : confirmAcquisitionScript holderId keys = (false, keys) := if_neg hconfirmed
      rw [advance, hscript] at h
      exact absurd h (hno (Fate.resolve_other rfl (kind_ite rfl rfl)))
  | idle => exact absurd h (hno (kind_ite rfl rfl))
  | starting => exact absurd h (hno (Fate.resolve_other (kind_ite rfl rfl) rfl))
  | acquired => exact absurd h (hno (kind_ite rfl rfl))
  | withdrawing =>
    exact absurd h (hno (Fate.resolve_other (kind_ite rfl rfl) (kind_ite rfl rfl)))
  | polling => exact absurd h (hno (kind_ite rfl (kind_ite rfl rfl)))
  | readingSignal =>
    refine absurd h (hno (Fate.resolve_other ?_ rfl))
    split
    · rfl
    · exact kind_ite rfl rfl
  | readingLock => exact absurd h (hno (Fate.resolve_other (kind_ite rfl rfl) rfl))
  | retrying => exact absurd h (hno (Fate.resolve_other (kind_ite rfl rfl) rfl))
  | leaving => exact absurd h (hno (Fate.resolve_other (kind_ite rfl rfl) rfl))
  | released => cases h
  | refused => cases h
  | rejected => cases h

/-- A holder that does not release keeps its handle and the holder of the lock key. -/
theorem advance_holding (now : ℤ) (isBlocked : Bool) (holderId : String) (keys : LockKeys)
    (hkeeps : env.releases = false) :
    (advance now isBlocked holderId env .holding keys).1 = .holding ∧
      (advance now isBlocked holderId env .holding keys).2.lock.get = keys.lock.get := by
  have hrenew : (renewScript now holderId keys).lock.get = keys.lock.get := by
    rw [renewScript]
    split_ifs
    · exact Key.get_expire _ _ _
    · rfl
  rw [advance, if_neg (by rw [hkeeps]; exact Bool.false_ne_true)]
  cases env.fate with
  | answered => exact ⟨rfl, hrenew⟩
  | lost => exact ⟨rfl, hrenew⟩
  | unsent => exact ⟨rfl, rfl⟩

end Scripts

end Keeper
