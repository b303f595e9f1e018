import Keeper.Coordination.SyncLock

/-!
# Safety of the sync lock

Any number of calls of `acquire`, each with a UUID of its own, run against the keys of their
calendars, in any interleaving and with keys that expire in between.

* `syncLock_safe`: signal and stack agree; from its confirmation until it releases or its key expires
  a holder has the lock alone; a call that was refused has left nothing behind.
-/

namespace Keeper

open Redis

/-! ## Runs -/

/-- The clock of Redis, the keys of the calendars, and the phases of the calls by their UUIDs. -/
structure LockSystem where
  now : ℤ
  keys : String → LockKeys
  phase : String → Phase

/-- Nothing has been called. -/
def LockSystem.initial (now : ℤ) : LockSystem := ⟨now, fun _ => {}, fun _ => .idle⟩

/-- What happens next: time passes, or a call goes on. -/
inductive LockAction
  | elapse (milliseconds : ℕ)
  | advance (uuid : String) (env : Circumstance)

variable (calls : String → AcquireCall)

def holderIdOf (uuid : String) : String := (calls uuid).holderId uuid

def calendarOf (uuid : String) : String := (calls uuid).calendarId

namespace LockSystem

/-- The blocker of a call is to be checked, and its lock is held. -/
def isBlocked (s : LockSystem) (call : AcquireCall) : Bool :=
  (truthy call.blockerCalendarId).any fun blockerCalendarId =>
    (s.keys blockerCalendarId).lock.isSome

def next (s : LockSystem) (uuid : String) (env : Circumstance) : Phase × LockKeys :=
  Keeper.advance s.now (s.isBlocked (calls uuid)) (holderIdOf calls uuid) env (s.phase uuid)
    (s.keys (calendarOf calls uuid))

def step (s : LockSystem) : LockAction → LockSystem
  | .elapse milliseconds =>
    { s with
      now := s.now + milliseconds
      keys := fun calendarId => (s.keys calendarId).elapse (s.now + milliseconds) }
  | .advance uuid env =>
    { s with
      keys := Function.update s.keys (calendarOf calls uuid) (s.next calls uuid env).2
      phase := Function.update s.phase uuid (s.next calls uuid env).1 }

def run (s : LockSystem) (actions : List LockAction) : LockSystem := actions.foldl (step calls) s

/-- The holder keeps the lock over a run: it does not release, and its lock key does not expire. -/
def KeepsLock (uuid : String) : LockSystem → List LockAction → Prop
  | _, [] => True
  | s, action :: actions =>
    (∀ env, action = .advance uuid env → env.releases = false) ∧
      (∀ milliseconds, action = .elapse milliseconds →
        (s.keys (calendarOf calls uuid)).lock.isSome →
        ((s.step calls action).keys (calendarOf calls uuid)).lock.isSome) ∧
      KeepsLock uuid (s.step calls action) actions

/-- The lock is held by a call alone: the lock key holds its id, and no other call changes the key or
gets a handle for the calendar. -/
structure HeldAlone (s : LockSystem) (uuid : String) : Prop where
  lock : (s.keys (calendarOf calls uuid)).lock.get = some (holderIdOf calls uuid)
  unchanged : ∀ other env, other ≠ uuid →
    ((s.step calls (.advance other env)).keys (calendarOf calls uuid)).lock =
      (s.keys (calendarOf calls uuid)).lock
  noHandle : ∀ other env, other ≠ uuid → calendarOf calls other = calendarOf calls uuid →
    (s.step calls (.advance other env)).phase other = .holding → s.phase other = .holding

/-- What is safe about the lock in a state that a run has reached. -/
structure IsSafe (s : LockSystem) : Prop where
  /-- The signal and the stack are both absent, or the signal is the head of the stack. -/
  queue : ∀ calendarId,
    ((s.keys calendarId).signal = none ∧ (s.keys calendarId).waiters = none) ∨
      ∃ waiter rest, (s.keys calendarId).signal.get = some waiter ∧
        (s.keys calendarId).waiters.get = some (waiter :: rest)
  /-- From a confirmation on, the holder has the lock alone as long as it keeps it. -/
  exclusive : ∀ uuid action, s.phase uuid ≠ .holding →
    (s.step calls action).phase uuid = .holding → ∀ actions,
      (s.step calls action).KeepsLock calls uuid actions →
        ((s.step calls action).run calls actions).HeldAlone calls uuid
  /-- A call that was refused has left nothing in the keys. -/
  refused : ∀ uuid, s.phase uuid = .refused → ∀ calendarId,
    ¬ (s.keys calendarId).Holds (holderIdOf calls uuid)
  /-- A newest waiter that cancels hands the signal back. -/
  handsBack : ∀ calendarId waiter predecessor rest,
    (s.keys calendarId).waiters.get = some (waiter :: predecessor :: rest) →
      (cancelWaiterScript s.now waiter (s.keys calendarId)).signal.get = some predecessor

/-! ## The invariant -/

/-- The keys of a calendar hold ids of its own calls only, and none of a call that has not started or
was refused. -/
structure Inv (s : LockSystem) : Prop where
  queue : ∀ calendarId, IsQueue (s.keys calendarId)
  calendar : ∀ calendarId uuid, (s.keys calendarId).Holds (holderIdOf calls uuid) →
    calendarId = calendarOf calls uuid
  absent : ∀ uuid, (s.phase uuid).isAbsent = true → ∀ calendarId,
    ¬ (s.keys calendarId).Holds (holderIdOf calls uuid)

variable {calls}

/-- Calls with different UUIDs have different ids: the prefixes of both classes are equally long. -/
theorem holderIdOf_injective : Function.Injective (holderIdOf calls) := by
  intro uuid other h
  have hlength : ∀ acquisition, (holderPrefix acquisition).toList.length = 11 := by
    intro acquisition
    cases acquisition <;> rfl
  have hlist := congrArg String.toList h
  simp only [holderIdOf, AcquireCall.holderId, String.toList_append] at hlist
  exact String.ext (List.append_inj hlist ((hlength _).trans (hlength _).symm)).2

variable {s : LockSystem} {uuid other : String} {env : Circumstance}

theorem runsScript_step (s : LockSystem) (uuid : String) (env : Circumstance)
    (calendarId : String) :
    (s.step calls (.advance uuid env)).keys calendarId = s.keys calendarId ∧
        calendarId ≠ calendarOf calls uuid ∨
      calendarId = calendarOf calls uuid ∧ RunsScript s.now (holderIdOf calls uuid)
        (s.keys calendarId) ((s.step calls (.advance uuid env)).keys calendarId) := by
  by_cases hcalendar : calendarId = calendarOf calls uuid
  · subst hcalendar
    refine Or.inr ⟨rfl, ?_⟩
    rw [step]
    dsimp only
    rw [Function.update_self]
    exact runsScript_advance
  · exact Or.inl ⟨Function.update_of_ne hcalendar _ _, hcalendar⟩

theorem phase_step_of_ne (hne : other ≠ uuid) :
    (s.step calls (.advance uuid env)).phase other = s.phase other :=
  Function.update_of_ne hne _ _

theorem phase_step_self :
    (s.step calls (.advance uuid env)).phase uuid = (s.next calls uuid env).1 :=
  Function.update_self _ _ _

theorem keys_step_self :
    (s.step calls (.advance uuid env)).keys (calendarOf calls uuid) =
      (s.next calls uuid env).2 :=
  Function.update_self _ _ _

theorem holds_step (hne : other ≠ uuid) {calendarId : String}
    (h : ((s.step calls (.advance uuid env)).keys calendarId).Holds (holderIdOf calls other)) :
    (s.keys calendarId).Holds (holderIdOf calls other) := by
  rcases runsScript_step s uuid env calendarId with ⟨hkeys, -⟩ | ⟨-, hrun⟩
  · rwa [hkeys] at h
  · exact hrun.holds (fun heq => hne (holderIdOf_injective heq)) h

theorem Inv.elapse (h : s.Inv calls) (milliseconds : ℕ) :
    (s.step calls (.elapse milliseconds)).Inv calls where
  queue calendarId := (h.queue calendarId).elapse _
  calendar calendarId uuid hholds := h.calendar calendarId uuid hholds.of_elapse
  absent uuid habsent calendarId hholds := h.absent uuid habsent calendarId hholds.of_elapse

/-- **A step of a call keeps the invariant.** -/
theorem Inv.advance (h : s.Inv calls) : (s.step calls (.advance uuid env)).Inv calls where
  queue calendarId := by
    rcases runsScript_step s uuid env calendarId with
      ⟨hkeys, -⟩ | ⟨-, hrun⟩
    · rw [hkeys]
      exact h.queue calendarId
    · exact (h.queue calendarId).runsScript hrun
  calendar calendarId other hholds := by
    by_cases hother : other = uuid
    · subst hother
      rcases runsScript_step s other env calendarId with
        ⟨hkeys, -⟩ | ⟨hcalendar, -⟩
      · rw [hkeys] at hholds
        exact h.calendar calendarId other hholds
      · exact hcalendar
    · exact h.calendar calendarId other (holds_step hother hholds)
  absent other habsent calendarId hholds := by
    by_cases hother : other = uuid
    · subst hother
      rcases runsScript_step s other env calendarId with
        ⟨hkeys, hcalendar⟩ | ⟨hcalendar, -⟩
      · rw [hkeys] at hholds
        exact hcalendar (h.calendar calendarId other hholds)
      · subst hcalendar
        rw [phase_step_self] at habsent
        rw [keys_step_self] at hholds
        rcases isAbsent_advance habsent with ⟨hbefore, hkeys⟩ | hcancel
        · have heq : (s.next calls other env).2 = s.keys (calendarOf calls other) := hkeys
          rw [heq] at hholds
          exact h.absent other hbefore _ hholds
        · have heq : (s.next calls other env).2 = cancelWaiterScript s.now
              (holderIdOf calls other) (s.keys (calendarOf calls other)) := hcancel
          rw [heq] at hholds
          exact (holds_of_cancelWaiterScript hholds).1 rfl
    · rw [phase_step_of_ne hother] at habsent
      exact h.absent other habsent calendarId (holds_step hother hholds)

theorem Inv.initial (now : ℤ) : (initial now).Inv calls where
  queue _ := Or.inl ⟨rfl, rfl⟩
  calendar _ _ h := by
    rcases h with h | h | h <;> cases h
  absent _ _ _ h := by
    rcases h with h | h | h <;> cases h

theorem Inv.step (h : s.Inv calls) (action : LockAction) : (s.step calls action).Inv calls := by
  cases action with
  | elapse milliseconds => exact h.elapse milliseconds
  | advance uuid env => exact h.advance

/-- **Every run keeps the invariant.** -/
theorem Inv.run (h : s.Inv calls) (actions : List LockAction) : (s.run calls actions).Inv calls := by
  induction actions generalizing s with
  | nil => exact h
  | cons action actions ih => exact ih (h.step action)

/-! ## Holding the lock -/

structure Holder (calls : String → AcquireCall) (s : LockSystem) (uuid : String) : Prop where
  phase : s.phase uuid = .holding
  lock : (s.keys (calendarOf calls uuid)).lock.get = some (holderIdOf calls uuid)

/-- **A confirmation makes a holder.** -/
theorem holder_of_step {action : LockAction} (hbefore : s.phase uuid ≠ .holding)
    (hafter : (s.step calls action).phase uuid = .holding) :
    Holder calls (s.step calls action) uuid := by
  refine ⟨hafter, ?_⟩
  cases action with
  | elapse => exact absurd hafter hbefore
  | advance other env =>
    by_cases hother : uuid = other
    · subst hother
      rw [phase_step_self, ← Phase.isHolding_iff] at hafter
      have hno : (s.phase uuid).isHolding = false :=
        Bool.eq_false_iff.2 fun hyes => hbefore (Phase.isHolding_iff.1 hyes)
      obtain ⟨hlock, hkept⟩ := isHolding_advance hno hafter
      rw [keys_step_self, ← hlock]
      exact congrArg Key.get hkept
    · rw [phase_step_of_ne hother] at hafter
      exact absurd hafter hbefore

/-- **Another call** does not change the lock of a holder. -/
theorem Holder.lock_step (h : Holder calls s uuid) (hne : other ≠ uuid) :
    ((s.step calls (.advance other env)).keys (calendarOf calls uuid)).lock =
      (s.keys (calendarOf calls uuid)).lock := by
  rcases runsScript_step s other env (calendarOf calls uuid) with
    ⟨hkeys, -⟩ | ⟨-, hrun⟩
  · rw [hkeys]
  · exact hrun.lock_eq h.lock fun heq => hne (holderIdOf_injective heq).symm

/-- **A holder stays one** over a step in which it keeps the lock. -/
theorem Holder.step (h : Holder calls s uuid) {action : LockAction}
    (hrelease : ∀ env, action = .advance uuid env → env.releases = false)
    (hexpiry : ∀ milliseconds, action = .elapse milliseconds →
      (s.keys (calendarOf calls uuid)).lock.isSome →
      ((s.step calls action).keys (calendarOf calls uuid)).lock.isSome) :
    Holder calls (s.step calls action) uuid := by
  cases action with
  | elapse milliseconds =>
    refine ⟨h.phase, ?_⟩
    have hsome : (s.keys (calendarOf calls uuid)).lock.isSome := by
      rw [Option.isSome_iff_ne_none]
      intro hnone
      have hlock := h.lock
      rw [hnone] at hlock
      cases hlock
    obtain ⟨entry, hentry⟩ := Option.isSome_iff_exists.1 (hexpiry milliseconds rfl hsome)
    have hlater : ((s.step calls (.elapse milliseconds)).keys
        (calendarOf calls uuid)).lock.get = some entry.value := by
      rw [hentry]
      rfl
    have hbefore := Key.get_of_elapse hlater
    rw [hlater, ← hbefore]
    exact h.lock
  | advance other env =>
    by_cases hother : other = uuid
    · subst hother
      obtain ⟨hphase, hlock⟩ := advance_holding s.now (s.isBlocked (calls other))
        (holderIdOf calls other) (s.keys (calendarOf calls other)) (hrelease env rfl)
      rw [← h.phase] at hphase hlock
      refine ⟨?_, ?_⟩
      · rw [phase_step_self, ← h.phase]
        exact hphase
      · rw [keys_step_self, ← h.lock]
        exact hlock
    · refine ⟨?_, ?_⟩
      · rw [phase_step_of_ne (Ne.symm hother)]
        exact h.phase
      · rw [h.lock_step hother]
        exact h.lock

/-- **A holder stays one** over a run in which it keeps the lock. -/
theorem Holder.run (h : Holder calls s uuid) {actions : List LockAction}
    (hkeeps : s.KeepsLock calls uuid actions) : Holder calls (s.run calls actions) uuid := by
  induction actions generalizing s with
  | nil => exact h
  | cons action actions ih => exact ih (h.step hkeeps.1 hkeeps.2.1) hkeeps.2.2

/-- **A holder has the lock alone.** -/
theorem Holder.heldAlone (h : Holder calls s uuid) : s.HeldAlone calls uuid where
  lock := h.lock
  unchanged _ _ hne := h.lock_step hne
  noHandle other env hne hcalendar hafter := by
    by_contra hbefore
    have hother := holder_of_step hbefore hafter
    have hlock := hother.lock
    rw [hcalendar, h.lock_step hne, h.lock] at hlock
    exact hne (holderIdOf_injective (Option.some.inj hlock)).symm

/-- **The sync lock is safe** in every state that any calls reach, whatever the interleaving of their
commands and the expiry of keys: the signal is the head of the stack; from its confirmation on a
holder has the lock alone, until it releases or its key expires; a refused call has left nothing. -/
theorem syncLock_safe (calls : String → AcquireCall) (now : ℤ) (actions : List LockAction) :
    ((initial now).run calls actions).IsSafe calls := by
  have hinv := (Inv.initial now : (initial now).Inv calls).run actions
  refine ⟨fun calendarId => ?_, fun uuid action hbefore hafter rest hkeeps => ?_,
    fun uuid hrefused => ?_, fun calendarId waiter predecessor rest hwaiters => ?_⟩
  · rcases hinv.queue calendarId with hnone | ⟨waiter, rest, expiresAt, -, hsignal, hwaiters⟩
    · exact Or.inl hnone
    · refine Or.inr ⟨waiter, rest, ?_, ?_⟩
      · rw [hsignal]
        rfl
      · rw [hwaiters]
        rfl
  · exact ((holder_of_step hbefore hafter).run hkeeps).heldAlone
  · exact hinv.absent uuid (by rw [hrefused]; rfl)
  · exact (hinv.queue calendarId).handsBack hwaiters

/-- A call that meets no other: it signals itself, acquires, confirms and holds. -/
example : ((initial 0).run (fun _ => ⟨.background, "calendar", none⟩)
    (List.replicate 4 (.advance "uuid" {}))).phase "uuid" = .holding := rfl

end LockSystem

end Keeper
