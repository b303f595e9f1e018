import Keeper.Coordination.LockSafety

/-!
# Preemption

A waiter of the preempting class makes the background holders of its calendar stop. A caller loses its
place to a newer one: by a confirmation, which removes all waiters, or by a signal between its own
acquisition and confirmation.

* `preemption_kept`: a preempting waiter that has its place is seen, background waiters alone are not,
  and a call is refused only if it has lost its place.
* `not_preemption_kept`: a newer mutation takes the place of one that has queued, confirmed or not.
-/

namespace Keeper

open Redis

/-! ## Waiters -/

section Waiters

variable {calls : String → AcquireCall} {now : ℤ} {isBlocked : Bool} {holderId id uuid : String}
  {keys : LockKeys} {script : LockScript}

theorem isBackground_holderIdOf :
    isBackground (holderIdOf calls uuid) = true ↔ (calls uuid).acquisition = .background := by
  rw [isBackground, List.isPrefixOf_iff_prefix, holderIdOf, AcquireCall.holderId, String.toList_append]
  cases h : (calls uuid).acquisition with
  | background => exact iff_of_true (List.prefix_append _ _) rfl
  | preempting =>
    refine iff_of_false ?_ (by simp)
    rintro ⟨rest, hrest⟩
    have hhead := congrArg List.head? hrest
    rw [List.head?_append, List.head?_append,
      show (holderPrefix .background).toList.head? = some 'b' from rfl,
      show (holderPrefix .preempting).toList.head? = some 'p' from rfl, Option.some_or,
      Option.some_or] at hhead
    exact absurd hhead (by decide)

theorem isCurrentScript_of_mem (hmem : id ∈ keys.waiters.elements) (hne : id ≠ holderId)
    (hclass : isBackground id = false) : isCurrentScript holderId keys = false := by
  rw [isCurrentScript, Bool.and_eq_false_iff, List.all_eq_false]
  refine Or.inr ⟨id, hmem, ?_⟩
  simp [hne, hclass]

theorem isCurrentScript_of_background
    (h : ∀ waiter ∈ keys.waiters.elements, isBackground waiter = true) :
    isCurrentScript holderId keys = decide (keys.lock.get = some holderId) := by
  have hall : (keys.waiters.elements.all fun waiter => waiter = holderId || isBackground waiter) =
      true := by
    rw [List.all_eq_true]
    intro waiter hmem
    rw [h waiter hmem, Bool.or_true]
  rw [isCurrentScript, hall, Bool.and_true]

/-- **A script keeps a waiter**, unless it is its own cancellation, or a confirmation. -/
theorem mem_waiters_apply (hmem : id ∈ keys.waiters.elements)
    (hcancel : script = .cancelWaiter → id ≠ holderId)
    (hconfirm : script = .confirmAcquisition → (confirmAcquisitionScript holderId keys).1 = false) :
    id ∈ (script.apply now isBlocked holderId keys).waiters.elements := by
  cases script with
  | acquireOrSignal =>
    cases isBlocked with
    | true => exact hmem
    | false =>
      rw [LockScript.apply, acquireOrSignalScript_false]
      simp only [Key.elements_expire, Key.elements_lpush, Key.elements_lrem, List.mem_cons,
        List.mem_filter, decide_eq_true_eq]
      by_cases heq : id = holderId
      · exact Or.inl heq
      · exact Or.inr ⟨hmem, heq⟩
  | confirmAcquisition =>
    have hno := hconfirm rfl
    rw [LockScript.apply, confirmAcquisitionScript] at *
    split_ifs at hno ⊢
    exact hmem
  | cancelWaiter =>
    have hkept : id ∈ (keys.waiters.lrem holderId).elements := by
      rw [Key.elements_lrem, List.mem_filter, decide_eq_true_eq]
      exact ⟨hmem, hcancel rfl⟩
    rw [LockScript.apply, cancelWaiterScript]
    cases hfirst : (keys.waiters.lrem holderId).first with
    | none =>
      rw [Key.first, List.head?_eq_none_iff] at hfirst
      rw [hfirst] at hkept
      cases hkept
    | some waiter =>
      rw [← Key.elements_expire now signalTtlSeconds] at hkept
      exact hkept
  | renew =>
    rw [LockScript.apply, renewScript]
    split_ifs
    · exact hmem
    · exact hmem
  | release =>
    rw [LockScript.apply, releaseScript]
    split_ifs
    · exact hmem
    · exact hmem

/-- **Another script keeps an acquisition that is to be confirmed**, unless it signals. -/
theorem provisional_apply (hlock : keys.lock.get = some id) (hfirst : keys.waiters.first = some id)
    (hne : id ≠ holderId) (hsignal : script = .acquireOrSignal → isBlocked = true) :
    (script.apply now isBlocked holderId keys).lock.get = some id ∧
      (script.apply now isBlocked holderId keys).waiters.first = some id := by
  have hkept := (runsScript_apply script : RunsScript now holderId keys
    (script.apply now isBlocked holderId keys)).lock_eq hlock hne
  have hno : keys.lock.get ≠ some holderId := by
    rw [hlock]
    exact fun heq => hne (Option.some.inj heq)
  refine ⟨by rw [hkept, hlock], ?_⟩
  cases script with
  | acquireOrSignal =>
    rw [hsignal rfl]
    exact hfirst
  | confirmAcquisition =>
    rw [LockScript.apply, confirmAcquisitionScript, if_neg (fun h => hno h.1)]
    exact hfirst
  | cancelWaiter =>
    have hhead : (keys.waiters.lrem holderId).first = some id := by
      obtain ⟨rest, hrest⟩ := List.head?_eq_some_iff.1 hfirst
      rw [Key.first, Key.elements_lrem, hrest, List.filter_cons_of_pos (by simpa using hne)]
      rfl
    rw [LockScript.apply, cancelWaiterScript, hhead, Key.first, Key.elements_expire]
    exact hhead
  | renew =>
    rw [LockScript.apply, renewScript, if_neg hno]
    exact hfirst
  | release =>
    rw [LockScript.apply, releaseScript, if_neg hno]
    exact hfirst

theorem IsQueue.signal_eq (h : IsQueue keys) (hmem : id ∈ keys.waiters.elements) :
    keys.signal.get = keys.waiters.first := by
  rcases h with ⟨-, hwaiters⟩ | ⟨waiter, rest, expiresAt, -, hsignal, hwaiters⟩
  · rw [hwaiters] at hmem
    cases hmem
  · rw [hsignal, hwaiters]
    rfl

/-- What `ACQUIRE_OR_SIGNAL_SCRIPT` answers, and what it makes of the keys. -/
theorem acquireOrSignalScript_cases (now : ℤ) (isBlocked : Bool) (holderId : String)
    (keys : LockKeys) :
    (acquireOrSignalScript now isBlocked holderId keys).1 = .blocked ∨
      (acquireOrSignalScript now isBlocked holderId keys).2.waiters.first = some holderId ∧
        ((acquireOrSignalScript now isBlocked holderId keys).1 = .acquired →
          (acquireOrSignalScript now isBlocked holderId keys).2.lock.get = some holderId) := by
  cases isBlocked with
  | true => exact Or.inl rfl
  | false =>
    refine Or.inr ⟨?_, ?_⟩
    · rw [acquireOrSignalScript_false, Key.first, Key.elements_expire, Key.elements_lpush]
      rfl
    · rw [acquireOrSignalScript, if_neg Bool.false_ne_true]
      dsimp only
      split_ifs
      · exact fun _ => rfl
      · exact fun hacquired => by cases hacquired
      · exact fun hacquired => by cases hacquired

end Waiters

/-! ## Calls that lose their place -/

/-- A call waits: its script has answered that it is on the stack. -/
def Phase.isWaiting : Phase → Bool
  | .polling result | .readingSignal result | .readingLock result => result ≠ .blocked
  | _ => false

/-- A call has acquired the lock, and has not asked for its confirmation. -/
def Phase.isProvisional : Phase → Bool
  | .acquired _ | .confirming _ => true
  | _ => false

variable (calls : String → AcquireCall)

namespace LockSystem

/-- A script of a call takes effect. -/
def Executes (s : LockSystem) (uuid : String) (action : LockAction) (script : LockScript) : Prop :=
  ∃ env, action = .advance uuid env ∧ env.executed (s.phase uuid) = some script

/-- A call is put on the stack of its calendar. -/
def Queues (s : LockSystem) (uuid : String) (action : LockAction) : Prop :=
  s.Executes uuid action .acquireOrSignal ∧ s.isBlocked (calls uuid) = false

def Confirms (s : LockSystem) (uuid : String) (action : LockAction) : Prop :=
  s.Executes uuid action .confirmAcquisition ∧
    (confirmAcquisitionScript (holderIdOf calls uuid) (s.keys (calendarOf calls uuid))).1 = true

/-- Over a run a call does not cancel, its stack does not expire, and no call of its calendar is
confirmed. -/
def StaysQueued (uuid : String) : LockSystem → List LockAction → Prop
  | _, [] => True
  | s, action :: actions =>
    ¬ s.Executes uuid action .cancelWaiter ∧
      (∀ other, calendarOf calls other = calendarOf calls uuid → ¬ s.Confirms calls other action) ∧
      (∀ milliseconds, action = .elapse milliseconds →
        (s.keys (calendarOf calls uuid)).waiters.isSome →
        ((s.step calls action).keys (calendarOf calls uuid)).waiters.isSome) ∧
      StaysQueued uuid (s.step calls action) actions

/-- Over a run a call is not aborted and does not reach its deadline, and no key of its calendar
expires. -/
def IsPatient (uuid : String) : LockSystem → List LockAction → Prop
  | _, [] => True
  | s, action :: actions =>
    (∀ env, action = .advance uuid env → env.aborted = false ∧ env.timedOut = false) ∧
      (∀ milliseconds, action = .elapse milliseconds →
        (s.step calls action).keys (calendarOf calls uuid) = s.keys (calendarOf calls uuid)) ∧
      IsPatient uuid (s.step calls action) actions

/-- A step of a run is of a kind. -/
def Occurs (kind : LockSystem → LockAction → Prop) : LockSystem → List LockAction → Prop
  | _, [] => False
  | s, action :: actions => kind s action ∨ Occurs kind (s.step calls action) actions

/-- A call loses its place: while it waits another one is confirmed, or another one is put on the
stack between its acquisition and its confirmation. -/
def LosesPlace (uuid : String) (s : LockSystem) (action : LockAction) : Prop :=
  ∃ other, other ≠ uuid ∧ calendarOf calls other = calendarOf calls uuid ∧
    ((s.phase uuid).isWaiting = true ∧ s.Confirms calls other action ∨
      (s.phase uuid).isProvisional = true ∧ s.Queues calls other action)

/-- What is kept of preemption in a run. -/
structure KeepsPreemption (s : LockSystem) (actions : List LockAction) : Prop where
  /-- No background holder is current while a preempting call has its place on the stack. -/
  seen : ∀ before action after, actions = before ++ action :: after → ∀ uuid,
    (calls uuid).acquisition = .preempting → (s.run calls before).Queues calls uuid action →
      ((s.run calls before).step calls action).StaysQueued calls uuid after →
        ∀ holder, (calls holder).acquisition = .background →
          isCurrentScript (holderIdOf calls holder)
            ((s.run calls actions).keys (calendarOf calls uuid)) = false
  /-- Background waiters alone do not make a holder stop. -/
  unmoved : ∀ calendarId, (∀ waiter ∈ ((s.run calls actions).keys calendarId).waiters.elements,
    ∃ uuid, (calls uuid).acquisition = .background ∧ waiter = holderIdOf calls uuid) →
      ∀ holder, isCurrentScript (holderIdOf calls holder) ((s.run calls actions).keys calendarId) =
        decide (((s.run calls actions).keys calendarId).lock.get = some (holderIdOf calls holder))
  /-- A call that is refused has lost its place. -/
  refused : ∀ uuid, IsPatient calls uuid s actions → (s.run calls actions).phase uuid = .refused →
    Occurs calls (LosesPlace calls uuid) s actions

/-! ## A place on the stack -/

variable {calls} {s : LockSystem} {uuid other : String} {env : Circumstance} {action : LockAction}
  {actions : List LockAction}

theorem keys_step_of_calendar (hcalendar : calendarOf calls other = calendarOf calls uuid) :
    (s.step calls (.advance other env)).keys (calendarOf calls uuid) =
      (env.executed (s.phase other)).elim (s.keys (calendarOf calls uuid))
        (LockScript.apply s.now (s.isBlocked (calls other)) (holderIdOf calls other)
          (s.keys (calendarOf calls uuid))) := by
  rw [← hcalendar, keys_step_self]
  exact keys_advance

theorem keys_step_of_ne (hcalendar : calendarOf calls other ≠ calendarOf calls uuid) :
    (s.step calls (.advance other env)).keys (calendarOf calls uuid) =
      s.keys (calendarOf calls uuid) :=
  Function.update_of_ne (Ne.symm hcalendar) _ _

theorem mem_waiters_of_queues (h : s.Queues calls uuid action) :
    holderIdOf calls uuid ∈
      ((s.step calls action).keys (calendarOf calls uuid)).waiters.elements := by
  obtain ⟨⟨env, rfl, hscript⟩, hblocked⟩ := h
  rw [keys_step_of_calendar rfl, hscript, hblocked, Option.elim_some, LockScript.apply,
    acquireOrSignalScript_false, Key.elements_expire, Key.elements_lpush]
  exact List.mem_cons_self

/-- **A step keeps a waiter**, unless it cancels it, confirms a call, or the stack expires. -/
theorem mem_waiters_step
    (hmem : holderIdOf calls uuid ∈ (s.keys (calendarOf calls uuid)).waiters.elements)
    (hcancel : ¬ s.Executes uuid action .cancelWaiter)
    (hconfirm : ∀ other, calendarOf calls other = calendarOf calls uuid →
      ¬ s.Confirms calls other action)
    (hexpiry : ∀ milliseconds, action = .elapse milliseconds →
      (s.keys (calendarOf calls uuid)).waiters.isSome →
      ((s.step calls action).keys (calendarOf calls uuid)).waiters.isSome) :
    holderIdOf calls uuid ∈
      ((s.step calls action).keys (calendarOf calls uuid)).waiters.elements := by
  cases action with
  | elapse milliseconds =>
    have hsome : (s.keys (calendarOf calls uuid)).waiters.isSome := by
      rw [Option.isSome_iff_ne_none]
      intro hnone
      rw [hnone] at hmem
      cases hmem
    have hkept := Key.elapse_of_isSome (hexpiry milliseconds rfl hsome)
    rw [← hkept] at hmem
    exact hmem
  | advance other env =>
    by_cases hcalendar : calendarOf calls other = calendarOf calls uuid
    swap
    · rw [keys_step_of_ne hcalendar]
      exact hmem
    rw [keys_step_of_calendar hcalendar]
    cases hscript : env.executed (s.phase other) with
    | none => exact hmem
    | some script =>
      apply mem_waiters_apply hmem
      · rintro rfl heq
        obtain rfl := holderIdOf_injective heq
        exact hcancel ⟨env, rfl, hscript⟩
      · rintro rfl
        by_contra hconfirmed
        refine hconfirm other hcalendar ⟨⟨env, rfl, hscript⟩, ?_⟩
        rw [hcalendar]
        exact Bool.eq_true_of_not_eq_false hconfirmed

/-- **A run keeps a waiter** that stays queued. -/
theorem mem_waiters_run
    (hmem : holderIdOf calls uuid ∈ (s.keys (calendarOf calls uuid)).waiters.elements)
    (hstays : s.StaysQueued calls uuid actions) :
    holderIdOf calls uuid ∈
      ((s.run calls actions).keys (calendarOf calls uuid)).waiters.elements := by
  induction actions generalizing s with
  | nil => exact hmem
  | cons action actions ih =>
    obtain ⟨hcancel, hconfirm, hexpiry, hrest⟩ := hstays
    exact ih (mem_waiters_step hmem hcancel hconfirm hexpiry) hrest

end LockSystem

/-! ## Refusals -/

/-- What the keys hold of a call in a phase, if it has not lost its place: it heads the stack while its
acquisition is to be confirmed, and is on it while it waits; it is not refused. -/
def KeepsPlace (holderId : String) (keys : LockKeys) : Phase → Prop
  | .acquired _ | .confirming _ =>
    keys.lock.get = some holderId ∧ keys.waiters.first = some holderId
  | .readingSignal result => result ≠ .blocked ∧ holderId ∈ keys.waiters.elements
  | .polling result | .readingLock result =>
    result ≠ .blocked → holderId ∈ keys.waiters.elements
  | .withdrawing _ | .leaving false | .refused => False
  | _ => True

section Place

variable {now : ℤ} {isBlocked : Bool} {holderId id : String} {keys : LockKeys} {phase : Phase}
  {env : Circumstance} {script : LockScript}

/-- After its script a call is blocked, on the stack, or to be confirmed. -/
theorem KeepsPlace.acquire {failed : Phase} (fate : Fate) (polled : Bool)
    (hfailed : ∀ keys, KeepsPlace holderId keys failed) :
    KeepsPlace holderId
      (fate.resolve (if (acquireOrSignalScript now isBlocked holderId keys).1 = .acquired then
          .acquired polled else .polling (acquireOrSignalScript now isBlocked holderId keys).1)
        failed (acquireOrSignalScript now isBlocked holderId keys).2 keys).2
      (fate.resolve (if (acquireOrSignalScript now isBlocked holderId keys).1 = .acquired then
          .acquired polled else .polling (acquireOrSignalScript now isBlocked holderId keys).1)
        failed (acquireOrSignalScript now isBlocked holderId keys).2 keys).1 := by
  cases fate with
  | lost => exact hfailed _
  | unsent => exact hfailed _
  | answered =>
    rw [Fate.resolve]
    dsimp only
    rcases acquireOrSignalScript_cases now isBlocked holderId keys with hreply | ⟨hfirst, hlock⟩
    · rw [hreply, if_neg (by simp)]
      exact fun hno => absurd rfl hno
    · split_ifs with hacquired
      · exact ⟨hlock hacquired, hfirst⟩
      · exact fun _ => List.mem_of_head? hfirst

/-- **A step of the call itself** keeps its place, if it is patient. -/
theorem KeepsPlace.advance (h : KeepsPlace holderId keys phase) (hqueue : IsQueue keys)
    (haborted : env.aborted = false) (htimedOut : env.timedOut = false) :
    KeepsPlace holderId (Keeper.advance now isBlocked holderId env phase keys).2
      (Keeper.advance now isBlocked holderId env phase keys).1 := by
  cases phase with
  | idle =>
    rw [Keeper.advance, haborted, if_neg Bool.false_ne_true]
    trivial
  | starting => exact KeepsPlace.acquire env.fate false fun _ => trivial
  | acquired polled =>
    rw [Keeper.advance, haborted, if_neg Bool.false_ne_true]
    exact h
  | confirming polled =>
    obtain ⟨hlock, hfirst⟩ := h
    have hsignal : keys.signal.get = some holderId :=
      (hqueue.signal_eq (List.mem_of_head? hfirst)).trans hfirst
    rw [Keeper.advance, confirmAcquisitionScript, if_pos ⟨hlock, hsignal, hfirst⟩]
    cases env.fate <;> cases polled <;> trivial
  | withdrawing => exact h.elim
  | polling result =>
    rw [Keeper.advance, haborted, htimedOut, if_neg (by simp)]
    split_ifs with hresult
    · exact ⟨hresult, h hresult⟩
    · exact h
  | readingSignal result =>
    obtain ⟨-, hmem⟩ := h
    have hsignal := hqueue.signal_eq hmem
    obtain ⟨waiter, rest, helements⟩ := List.exists_cons_of_ne_nil (List.ne_nil_of_mem hmem)
    rw [Key.first, helements, List.head?_cons] at hsignal
    rw [Keeper.advance, hsignal]
    cases env.fate with
    | answered =>
      dsimp only [Fate.resolve]
      split_ifs
      · exact fun _ => hmem
      · exact fun _ => hmem
    | lost => trivial
    | unsent => trivial
  | readingLock result =>
    rw [Keeper.advance]
    cases env.fate with
    | answered =>
      dsimp only [Fate.resolve]
      split_ifs
      · trivial
      · exact h
    | lost => trivial
    | unsent => trivial
  | retrying => exact KeepsPlace.acquire env.fate true fun _ => trivial
  | leaving rejects =>
    cases rejects with
    | false => exact h.elim
    | true => rw [Keeper.advance]; cases env.fate <;> trivial
  | holding =>
    rw [Keeper.advance]
    split_ifs <;> cases env.fate <;> trivial
  | released => trivial
  | refused => exact h.elim
  | rejected => trivial

/-- **A script of another call** keeps the place, unless it makes the call lose it. -/
theorem KeepsPlace.apply (h : KeepsPlace id keys phase) (hne : id ≠ holderId)
    (hwaiting : phase.isWaiting = true → script = .confirmAcquisition →
      (confirmAcquisitionScript holderId keys).1 = false)
    (hprovisional : phase.isProvisional = true → script = .acquireOrSignal → isBlocked = true) :
    KeepsPlace id (script.apply now isBlocked holderId keys) phase := by
  cases phase with
  | acquired => exact provisional_apply h.1 h.2 hne (hprovisional rfl)
  | confirming => exact provisional_apply h.1 h.2 hne (hprovisional rfl)
  | polling result =>
    intro hresult
    exact mem_waiters_apply (h hresult) (fun _ => hne) (hwaiting (decide_eq_true hresult))
  | readingLock result =>
    intro hresult
    exact mem_waiters_apply (h hresult) (fun _ => hne) (hwaiting (decide_eq_true hresult))
  | readingSignal result =>
    obtain ⟨hresult, hmem⟩ := h
    exact ⟨hresult, mem_waiters_apply hmem (fun _ => hne) (hwaiting (decide_eq_true hresult))⟩
  | leaving rejects => cases rejects <;> exact h
  | _ => exact h

end Place

namespace LockSystem

variable {calls} {s : LockSystem} {uuid : String} {action : LockAction} {actions : List LockAction}

def HasPlace (calls : String → AcquireCall) (s : LockSystem) (uuid : String) : Prop :=
  KeepsPlace (holderIdOf calls uuid) (s.keys (calendarOf calls uuid)) (s.phase uuid)

/-- **A step keeps the place of a patient call**, unless it makes the call lose it. -/
theorem HasPlace.step (h : HasPlace calls s uuid) (hinv : s.Inv calls)
    (hpatient : ∀ env, action = .advance uuid env → env.aborted = false ∧ env.timedOut = false)
    (hexpiry : ∀ milliseconds, action = .elapse milliseconds →
      (s.step calls action).keys (calendarOf calls uuid) = s.keys (calendarOf calls uuid))
    (hkeeps : ¬ LosesPlace calls uuid s action) : HasPlace calls (s.step calls action) uuid := by
  cases action with
  | elapse milliseconds =>
    rw [HasPlace, hexpiry milliseconds rfl]
    exact h
  | advance other env =>
    by_cases hother : other = uuid
    · subst hother
      obtain ⟨haborted, htimedOut⟩ := hpatient env rfl
      rw [HasPlace, phase_step_self, keys_step_self]
      exact KeepsPlace.advance h (hinv.queue _) haborted htimedOut
    rw [HasPlace, phase_step_of_ne (Ne.symm hother)]
    by_cases hcalendar : calendarOf calls other = calendarOf calls uuid
    swap
    · rw [keys_step_of_ne hcalendar]
      exact h
    rw [keys_step_of_calendar hcalendar]
    cases hscript : env.executed (s.phase other) with
    | none => exact h
    | some script =>
      apply KeepsPlace.apply h (fun heq => hother (holderIdOf_injective heq).symm)
      · rintro hwaiting rfl
        by_contra hconfirmed
        refine hkeeps ⟨other, hother, hcalendar, Or.inl ⟨hwaiting, ⟨env, rfl, hscript⟩, ?_⟩⟩
        rw [hcalendar]
        exact Bool.eq_true_of_not_eq_false hconfirmed
      · rintro hprovisional rfl
        by_contra hblocked
        exact hkeeps ⟨other, hother, hcalendar,
          Or.inr ⟨hprovisional, ⟨env, rfl, hscript⟩, Bool.eq_false_of_not_eq_true hblocked⟩⟩

/-- **A run keeps the place of a patient call**, or makes the call lose it. -/
theorem HasPlace.run (h : HasPlace calls s uuid) (hinv : s.Inv calls)
    (hpatient : IsPatient calls uuid s actions) :
    Occurs calls (LosesPlace calls uuid) s actions ∨ HasPlace calls (s.run calls actions) uuid := by
  induction actions generalizing s with
  | nil => exact Or.inr h
  | cons action actions ih =>
    obtain ⟨hcall, hexpiry, hrest⟩ := hpatient
    by_cases hloses : LosesPlace calls uuid s action
    · exact Or.inl (Or.inl hloses)
    · exact (ih (h.step hinv hcall hexpiry hloses) (hinv.step action) hrest).imp_left Or.inr

theorem isPatient_of_calm (h : ∀ action ∈ actions, ∃ uuid, action = .advance uuid {}) :
    IsPatient calls uuid s actions := by
  induction actions generalizing s with
  | nil => trivial
  | cons action actions ih =>
    obtain ⟨other, rfl⟩ := h action List.mem_cons_self
    refine ⟨?_, ?_, ih fun action hmem => h action (List.mem_cons_of_mem _ hmem)⟩
    · intro env heq
      obtain ⟨-, rfl⟩ := LockAction.advance.inj heq
      exact ⟨rfl, rfl⟩
    · intro milliseconds heq
      cases heq

theorem not_confirms {other : String} {env : Circumstance}
    (h : env.executed (s.phase uuid) ≠ some .confirmAcquisition ∨
      (confirmAcquisitionScript (holderIdOf calls uuid) (s.keys (calendarOf calls uuid))).1 = false) :
    ¬ s.Confirms calls other (.advance uuid env) := by
  rintro ⟨⟨env', heq, hscript⟩, hconfirmed⟩
  obtain ⟨rfl, rfl⟩ := LockAction.advance.inj heq
  rcases h with hother | hno
  · exact hother hscript
  · rw [hno] at hconfirmed
    cases hconfirmed

namespace Example

def mutations : String → AcquireCall := fun _ => ⟨.preempting, "calendar", none⟩

/-- The second one signals before the first one is confirmed. -/
def overtaking : List LockAction :=
  ["first", "first", "second", "second", "first", "first", "first"].map fun uuid => .advance uuid {}

theorem overtaking_isPatient : IsPatient mutations "first" (initial 0) overtaking := by
  apply isPatient_of_calm
  intro action hmem
  obtain ⟨uuid, -, rfl⟩ := List.mem_map.1 hmem
  exact ⟨uuid, rfl⟩

theorem overtaking_not_confirms (other : String) :
    ¬ Occurs mutations (fun s action => s.Confirms mutations other action) (initial 0) overtaking := by
  simp only [overtaking, List.map_cons, List.map_nil, Occurs, or_false, not_or]
  exact ⟨not_confirms (Or.inl (by decide)), not_confirms (Or.inl (by decide)),
    not_confirms (Or.inl (by decide)), not_confirms (Or.inl (by decide)),
    not_confirms (Or.inl (by decide)), not_confirms (Or.inr (by decide)),
    not_confirms (Or.inl (by decide))⟩

/-- Two mutations and two background syncs of one calendar. -/
def mixed : String → AcquireCall
  | "first" | "second" => ⟨.preempting, "calendar", none⟩
  | _ => ⟨.background, "calendar", none⟩

def synced : List LockAction := List.replicate 4 (.advance "holder" {})

/-- Who goes on, and whether it releases. -/
def replacers : List (String × Bool) :=
  [("second", false), ("second", false), ("holder", true)] ++ List.replicate 6 ("second", false) ++
    [("second", true)] ++ List.replicate 4 ("next", false)

/-- A newer mutation takes the place of the first one, has the lock and releases it. -/
def replacing : List LockAction :=
  replacers.map fun entry => .advance entry.1 { releases := entry.2 }

theorem replacing_other : ∀ action ∈ replacing, ∃ other env, other ≠ "first" ∧
    action = .advance other env := by
  intro action hmem
  obtain ⟨entry, hentry, rfl⟩ := List.mem_map.1 hmem
  have hother : ∀ entry ∈ replacers, entry.1 ≠ "first" := by decide
  exact ⟨entry.1, _, hother entry hentry, rfl⟩

end Example

end LockSystem

end Keeper
