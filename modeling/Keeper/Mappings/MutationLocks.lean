import Keeper.Foundations.Effect
import Keeper.Foundations.JsArray
import Keeper.Foundations.Text
import Mathlib.Data.List.Nodup

/-!
# The locks of a mapping mutation

`runWithMappingMutationLocks` of `services/api/src/utils/source-destination-mappings.ts`: the lock of the user and
those of the destinations are acquired, checked, and released after the callback. Every call has an outcome of
its own; each lock is asked for once, so that an outcome for each lock is one for each call.

* `attempt_wp`: what has been acquired and called when the operation has settled, and its first failure.
* `holdsAllOrNone`: the callback runs with all its locks, every acquired lock is released once, and what is
  raised contains the first failure.
-/

namespace Keeper

theorem Text.orders_compareUnits : JsArray.Orders Text.compareUnits where
  total a b := by
    rw [compareUnits_nonpos_iff, compareUnits_nonpos_iff]
    exact le_total _ _
  trans a b c := by
    rw [compareUnits_nonpos_iff, compareUnits_nonpos_iff, compareUnits_nonpos_iff]
    exact le_trans

namespace MutationLocks

/-! ## Calls and failures -/

/-- What is thrown: the reason of a rejected call, an `Error`, or an `AggregateError`. -/
inductive Failure (ε : Type)
  | rejected (reason : ε)
  | error (message : String)
  | aggregateError (errors : List (Failure ε)) (message : String) (cause : Option (Failure ε))

/-- A failure is an error, or contained in it. -/
inductive Failure.IsIn {ε : Type} (failure : Failure ε) : Failure ε → Prop
  | refl : IsIn failure failure
  | errors {error : Failure ε} {errors : List (Failure ε)} {message : String}
    {cause : Option (Failure ε)} (herror : error ∈ errors) (h : IsIn failure error) :
    IsIn failure (.aggregateError errors message cause)

/-- The lock of `createMappingMutationLockId`, or that of a destination. -/
inductive Lock
  | mutation
  | destination (calendarId : String)
  deriving DecidableEq

/-- What each call comes to. Calls that are made together settle in the order of these times. -/
structure Outcomes (ε τ : Type) where
  acquire : Lock → Except ε Bool
  resolveDestinationCalendarIds : Except ε (List String)
  isHeld : Lock → Except ε Bool
  isHeldSettledAt : Lock → ℤ
  callback : Except ε τ
  release : Lock → Except ε Unit
  releaseSettledAt : Lock → ℤ

/-- A call is made, or something fails: a call rejects, or an error is made of what a call has answered. -/
inductive Event (ε : Type)
  | acquire (lock : Lock)
  | resolveDestinationCalendarIds
  | isHeld (lock : Lock)
  | callback
  | release (lock : Lock)
  | failed (failure : Failure ε)

/-- What has happened, and `destinationHandles`. -/
structure State (ε : Type) where
  events : List (Event ε) := []
  destinationHandles : List Lock := []

/-- A computation of `runWithMappingMutationLocks`. -/
abbrev Mutation (ε α : Type) : Type := Effect (Failure ε) (State ε) α

variable {ε τ : Type}

def happen (events : List (Event ε)) : Mutation ε PUnit :=
  Effect.modify fun s => { s with events := s.events ++ events }

def fail {α : Type} (failure : Failure ε) : Mutation ε α := do
  happen [.failed failure]
  Effect.throw failure

/-- `await` of a call. -/
def awaitCall {α : Type} (call : Event ε) (outcome : Except ε α) : Mutation ε α := do
  happen [call]
  match outcome with
  | .ok value => pure value
  | .error reason => fail (.rejected reason)

def rejection {α : Type} : Except ε α → Option (Failure ε)
  | .ok _ => none
  | .error reason => some (.rejected reason)

/-- The reasons of calls that are made together, in the order in which they reject. -/
def rejections {α : Type} (outcome : Lock → Except ε α) (settledAt : Lock → ℤ) (locks : List Lock) :
    List (Failure ε) :=
  (JsArray.toSorted (fun lock lock' => settledAt lock - settledAt lock') locks).filterMap fun lock =>
    rejection (outcome lock)

/-! ## The code -/

variable (outcomes : Outcomes ε τ)

/-- The body of the loop over the destinations. -/
def acquireDestination (destinationCalendarId : String) : Mutation ε PUnit := do
  let acquired ← awaitCall (.acquire (.destination destinationCalendarId))
    (outcomes.acquire (.destination destinationCalendarId))
  if acquired then
    Effect.modify fun s =>
      { s with destinationHandles := s.destinationHandles ++ [.destination destinationCalendarId] }
  else fail (.error ("Unable to coordinate mapping update for destination " ++ destinationCalendarId))

/-- `Promise.all` of `isHeld`: it fails with the first rejection. -/
def allHeld (locks : List Lock) : Mutation ε (List Bool) := do
  happen (locks.map .isHeld)
  match rejections outcomes.isHeld outcomes.isHeldSettledAt locks with
  | failure :: _ => fail failure
  | [] => pure (locks.map fun lock => match outcomes.isHeld lock with
    | .ok held => held
    | .error _ => false)

/-- `[...new Set(ids)].toSorted()`. -/
def sortedDistinct (ids : List String) : List String := JsArray.toSorted Text.compareUnits ids.eraseDups

/-- The operation that `runWithMappingMutationLocks` settles. -/
def attempt : Mutation ε (List String × τ) := do
  let ids ← awaitCall .resolveDestinationCalendarIds outcomes.resolveDestinationCalendarIds
  let destinationCalendarIds := sortedDistinct ids
  Effect.forUntil (fun _ => false) (acquireDestination outcomes) destinationCalendarIds
  let destinationHandles ← Effect.gets State.destinationHandles
  let heldStates ← allHeld outcomes (.mutation :: destinationHandles)
  if heldStates.any fun held => !held then
    fail (.error "Mapping update lost its reconciliation lock before mutation")
  else do
    let result ← awaitCall .callback outcomes.callback
    pure (destinationCalendarIds, result)

def settle {α : Type} (callback : Mutation ε α) : Mutation ε (Except (Failure ε) α) :=
  Effect.recover (do
    let value ← callback
    pure (.ok value)) fun failure => pure (.error failure)

/-- `releaseSyncHandles`: all releases are called, the last handle first. -/
def releaseSyncHandles (handles : List Lock) : Mutation ε PUnit := do
  happen (handles.reverse.map .release)
  happen ((rejections outcomes.release outcomes.releaseSettledAt handles.reverse).map .failed)
  let failures := handles.reverse.filterMap fun lock => rejection (outcomes.release lock)
  if failures.length > 0 then
    Effect.throw (.aggregateError failures "Failed to release mapping mutation locks" none)
  else pure ⟨⟩

def releaseMappingMutationLocks (destinationHandles : List Lock) : Mutation ε (List (Failure ε)) := do
  let destinationFailures ← Effect.recover (do
    releaseSyncHandles outcomes destinationHandles
    pure []) fun failure => pure [failure]
  let mutationFailures ← Effect.recover (do
    awaitCall (.release .mutation) (outcomes.release .mutation)
    pure []) fun failure => pure [failure]
  pure (destinationFailures ++ mutationFailures)

def runWithMappingMutationLocks : Mutation ε (List String × τ) := do
  let acquired ← awaitCall (.acquire .mutation) (outcomes.acquire .mutation)
  if acquired then do
    let operation ← settle (attempt outcomes)
    let destinationHandles ← Effect.gets State.destinationHandles
    let releaseFailures ← releaseMappingMutationLocks outcomes destinationHandles
    match operation with
    | .error reason =>
      if releaseFailures.length > 0 then
        Effect.throw (.aggregateError (reason :: releaseFailures)
          "Mapping mutation failed and its locks could not be fully released" (some reason))
      else Effect.throw reason
    | .ok value =>
      if releaseFailures.length > 0 then
        Effect.throw (.aggregateError releaseFailures "Failed to release mapping mutation locks" none)
      else pure value
  else fail (.error "Mapping update was superseded by another request")

/-! ## What has happened -/

def Acquired (events : List (Event ε)) (lock : Lock) : Prop :=
  .acquire lock ∈ events ∧ outcomes.acquire lock = .ok true

def Event.isReleaseOf (lock : Lock) : Event ε → Bool
  | .release lock' => lock' = lock
  | _ => false

def failures (events : List (Event ε)) : List (Failure ε) :=
  events.filterMap fun
    | .failed failure => some failure
    | _ => none

@[simp] theorem failures_nil : failures ([] : List (Event ε)) = [] := rfl

@[simp] theorem failures_failed (failure : Failure ε) : failures [.failed failure] = [failure] := rfl

theorem failures_append (events events' : List (Event ε)) :
    failures (events ++ events') = failures events ++ failures events' := List.filterMap_append

theorem failures_map {α : Type} {f : α → Event ε} (hf : ∀ a failure, f a ≠ .failed failure) (l : List α) :
    failures (l.map f) = [] := by
  rw [failures, List.filterMap_map, List.filterMap_eq_nil_iff]
  intro a _
  rw [Function.comp_apply]
  split
  · rename_i failure heq
    exact absurd heq (hf a failure)
  · rfl

/-- The callback is called at most once, after the lock of the user and those of the destinations, each once
and in the order of their ids, were acquired and reported held. -/
def CallsBack (events : List (Event ε)) : Prop :=
  .callback ∈ events → ∃ (ids sorted : List String) (rest : List (Event ε)),
    outcomes.resolveDestinationCalendarIds = .ok ids ∧
    (∀ id, id ∈ sorted ↔ id ∈ ids) ∧
    (sorted.Pairwise fun id id' => Text.utf16Units id < Text.utf16Units id') ∧
    (∀ lock ∈ .mutation :: sorted.map .destination,
      outcomes.acquire lock = .ok true ∧ outcomes.isHeld lock = .ok true) ∧
    events = .acquire .mutation :: .resolveDestinationCalendarIds ::
      (sorted.map (.acquire ∘ .destination) ++
        ((.mutation :: sorted.map .destination).map .isHeld ++ .callback :: rest)) ∧
    .callback ∉ rest

/-- What holds when the operation has settled. -/
structure Attempted (s : State ε) : Prop where
  released : ∀ lock, s.events.countP (Event.isReleaseOf lock) = 0
  nodup : (Lock.mutation :: s.destinationHandles).Nodup
  handles : ∀ lock, lock ∈ Lock.mutation :: s.destinationHandles ↔ Acquired outcomes s.events lock
  callsBack : CallsBack outcomes s.events

theorem sortedDistinct_spec (ids : List String) :
    (∀ id, id ∈ sortedDistinct ids ↔ id ∈ ids) ∧
      (sortedDistinct ids).Pairwise fun id id' => Text.utf16Units id < Text.utf16Units id' := by
  have hnodup : (sortedDistinct ids).Nodup :=
    (JsArray.toSorted_perm _ _).nodup_iff.2 (JsArray.nodup_eraseDups ids)
  refine ⟨fun id => by rw [sortedDistinct, JsArray.mem_toSorted, List.mem_eraseDups], ?_⟩
  have hsorted := Text.orders_compareUnits.pairwise_toSorted ids.eraseDups
  refine (hsorted.and hnodup).imp fun {id id'} h => ?_
  exact lt_of_le_of_ne (Text.compareUnits_nonpos_iff.1 h.1) fun heq =>
    h.2 (Text.utf16Units_injective heq)

/-! ## Specifications -/

section

variable {outcomes} {α : Type} {Q : α → State ε → Prop} {R : Failure ε → State ε → Prop} {s : State ε}

@[simp] theorem wp_happen {events : List (Event ε)} {Q : PUnit → State ε → Prop} :
    Effect.wp (happen events) Q R s ↔ Q ⟨⟩ { s with events := s.events ++ events } := Iff.rfl

variable {failure : Failure ε} {locks : List Lock}

@[simp] theorem wp_fail : Effect.wp (fail failure) Q R s ↔
    R failure { s with events := s.events ++ [.failed failure] } := Iff.rfl

theorem wp_awaitCall {call : Event ε} {outcome : Except ε α}
    (hok : ∀ value, outcome = .ok value → Q value { s with events := s.events ++ [call] })
    (herror : ∀ reason, outcome = .error reason →
      R (.rejected reason) { s with events := s.events ++ [call, .failed (.rejected reason)] }) :
    Effect.wp (awaitCall call outcome) Q R s := by
  unfold awaitCall
  refine Effect.wp_bind.2 (wp_happen.2 ?_)
  cases outcome with
  | ok value => exact hok value rfl
  | error reason => simpa using herror reason rfl

/-- The destinations of `done` have been asked for, after `base`, and their locks acquired. -/
def Holding (outcomes : Outcomes ε τ) (base : List (Event ε)) (done : List String) (s : State ε) : Prop :=
  s = ⟨base ++ done.map (.acquire ∘ .destination), done.map .destination⟩ ∧
    ∀ id ∈ done, outcomes.acquire (.destination id) = .ok true

theorem acquireDestinations_wp {base : List (Event ε)} {ids : List String} (hs : s = ⟨base, []⟩) :
    Effect.wp (Effect.forUntil (fun _ => false) (acquireDestination outcomes) ids)
      (fun _ => Holding outcomes base ids)
      (fun failure s' => ∃ done id rest, ids = done ++ id :: rest ∧
        outcomes.acquire (.destination id) ≠ .ok true ∧
        Holding outcomes base done { s' with events := base ++ done.map (.acquire ∘ .destination) } ∧
        s'.events = base ++ done.map (.acquire ∘ .destination) ++
          [.acquire (.destination id), .failed failure]) s := by
  refine Effect.wp_forUntil (I := fun l s => ∃ done, ids = done ++ l ∧ Holding outcomes base done s)
    ?_ ?_ ids ⟨[], rfl, by simpa using hs, by simp⟩
  · rintro id rest s' ⟨done, hids, rfl, hdone⟩ -
    refine Effect.wp_bind.2 (wp_awaitCall (fun acquired hacquired => ?_) fun reason hreason => ?_)
    · cases acquired with
      | true =>
        refine ⟨done ++ [id], by simpa using hids, by simp, ?_⟩
        intro id' hid'
        rcases List.mem_append.1 hid' with hid' | hid'
        · exact hdone id' hid'
        · rw [List.mem_singleton.1 hid', hacquired]
      | false =>
        refine ⟨done, id, rest, hids, by simp [hacquired], ⟨rfl, hdone⟩, by simp⟩
    · exact ⟨done, id, rest, hids, by simp [hreason], ⟨rfl, hdone⟩, by simp⟩
  · rintro l s' ⟨done, hids, h⟩ (rfl | hstop)
    · obtain rfl : ids = done := by simpa using hids
      exact h
    · cases hstop

theorem rejections_eq_nil_iff {outcome : Lock → Except ε α} {settledAt : Lock → ℤ} :
    rejections outcome settledAt locks = [] ↔ ∀ lock ∈ locks, ∃ value, outcome lock = .ok value := by
  rw [rejections, List.filterMap_eq_nil_iff]
  simp only [JsArray.mem_toSorted]
  refine forall₂_congr fun lock _ => ?_
  cases outcome lock <;> simp [rejection]

theorem allHeld_wp {Q : List Bool → State ε → Prop}
    (hok : ∀ heldStates : List Bool, ((heldStates.any fun held => !held) = false → ∀ lock ∈ locks, outcomes.isHeld lock = .ok true) → Q heldStates { s with events := s.events ++ locks.map .isHeld })
    (herror : ∀ failure, R failure { s with events := s.events ++ locks.map .isHeld ++ [.failed failure] }) :
    Effect.wp (allHeld outcomes locks) Q R s := by
  unfold allHeld
  refine Effect.wp_bind.2 (wp_happen.2 ?_)
  cases hrejections : rejections outcomes.isHeld outcomes.isHeldSettledAt locks with
  | cons failure rest => exact herror failure
  | nil =>
    refine hok _ fun hheld lock hlock => ?_
    obtain ⟨held, hvalue⟩ := rejections_eq_nil_iff.1 hrejections lock hlock
    rw [List.any_eq_false] at hheld
    have hlock' := hheld _ (List.mem_map_of_mem hlock)
    simp only [hvalue, Bool.not_eq_true', Bool.not_eq_false] at hlock'
    rw [hvalue, hlock']

theorem Attempted.of_events {done : List String} {tail : List (Event ε)}
    (hmutation : outcomes.acquire .mutation = .ok true)
    (hdone : ∀ id ∈ done, outcomes.acquire (.destination id) = .ok true) (hnodup : done.Nodup)
    (hevents : s.events = [.acquire .mutation, .resolveDestinationCalendarIds] ++
      done.map (.acquire ∘ .destination) ++ tail)
    (hhandles : s.destinationHandles = done.map .destination)
    (htail : ∀ lock, .acquire lock ∈ tail → outcomes.acquire lock ≠ .ok true)
    (hrelease : ∀ lock, tail.countP (Event.isReleaseOf lock) = 0)
    (hcallsBack : CallsBack outcomes s.events) : Attempted outcomes s := by
  refine ⟨fun lock => ?_, ?_, fun lock => ?_, hcallsBack⟩
  · rw [hevents, List.countP_append, List.countP_append, hrelease lock, List.countP_map]
    simp [Event.isReleaseOf, Function.comp_def]
  · rw [hhandles, List.nodup_cons]
    exact ⟨by simp, hnodup.map fun _ _ heq => Lock.destination.inj heq⟩
  · rw [hhandles, Acquired, hevents]
    cases lock with
    | mutation => simp [hmutation]
    | destination id =>
      have hmem : Lock.destination id ∈ Lock.mutation :: done.map Lock.destination ↔ id ∈ done := by
        simp
      rw [hmem]
      constructor
      · intro hid
        exact ⟨by simp [hid], hdone id hid⟩
      · rintro ⟨hacquire, hok⟩
        rcases List.mem_append.1 hacquire with hacquire | hacquire
        · simpa using hacquire
        · exact absurd hok (htail _ hacquire)

theorem Attempted.fails (done : List String) (calls : List (Event ε))
    (hmutation : outcomes.acquire .mutation = .ok true)
    (hdone : ∀ id ∈ done, outcomes.acquire (.destination id) = .ok true) (hnodup : done.Nodup)
    (hevents : s.events = [.acquire .mutation, .resolveDestinationCalendarIds] ++ done.map (.acquire ∘ .destination) ++ (calls ++ [.failed failure]))
    (hhandles : s.destinationHandles = done.map .destination)
    (hcalls : ∀ call ∈ calls, (∃ lock, call = .acquire lock ∧ outcomes.acquire lock ≠ .ok true) ∨ ∃ lock, call = .isHeld lock) :
    Attempted outcomes s ∧ (failures s.events).head? = some failure ∧
      ¬ (.callback ∈ s.events ∧ ∃ value, outcomes.callback = .ok value) := by
  have hcallback : .callback ∉ s.events := by
    rw [hevents]
    simp only [List.mem_append, List.mem_cons, List.mem_map, List.not_mem_nil, reduceCtorEq,
      Function.comp_apply, and_false, exists_false, or_false, false_or]
    intro hmem
    rcases hcalls _ hmem with ⟨_, heq, -⟩ | ⟨_, heq⟩ <;> cases heq
  have hfailures : failures calls = [] := by
    rw [failures, List.filterMap_eq_nil_iff]
    intro call hcall
    rcases hcalls call hcall with ⟨_, rfl, -⟩ | ⟨_, rfl⟩ <;> rfl
  refine ⟨.of_events hmutation hdone hnodup hevents hhandles ?_ ?_ fun h => absurd h hcallback, ?_,
    fun h => hcallback h.1⟩
  · intro lock hlock
    rcases List.mem_append.1 hlock with hlock | hlock
    · rcases hcalls _ hlock with ⟨_, heq, hne⟩ | ⟨_, heq⟩
      · cases heq
        exact hne
      · cases heq
    · simp at hlock
  · intro lock
    rw [List.countP_append, Nat.add_eq_zero_iff, List.countP_eq_zero]
    refine ⟨fun call hcall => ?_, rfl⟩
    rcases hcalls call hcall with ⟨_, rfl, -⟩ | ⟨_, rfl⟩ <;> exact Bool.false_ne_true
  · rw [hevents, failures_append, failures_append, failures_append, failures_map (by simp), hfailures]
    rfl

theorem Attempted.calls {ids : List String} (tail : List (Event ε))
    (hids : outcomes.resolveDestinationCalendarIds = .ok ids)
    (hlocks : ∀ lock ∈ .mutation :: (sortedDistinct ids).map .destination,
      outcomes.acquire lock = .ok true ∧ outcomes.isHeld lock = .ok true)
    (hevents : s.events = [.acquire .mutation, .resolveDestinationCalendarIds] ++
      (sortedDistinct ids).map (.acquire ∘ .destination) ++
        ((.mutation :: (sortedDistinct ids).map .destination).map .isHeld ++ .callback :: tail))
    (hhandles : s.destinationHandles = (sortedDistinct ids).map .destination)
    (htail : ∀ event ∈ tail, ∃ failure, event = .failed failure) :
    Attempted outcomes s ∧ .callback ∈ s.events ∧ failures s.events = failures tail := by
  obtain ⟨hmem, hsorted⟩ := sortedDistinct_spec ids
  have hacquired : ∀ id ∈ sortedDistinct ids, outcomes.acquire (.destination id) = .ok true :=
    fun id hid => (hlocks _ (List.mem_cons_of_mem _ (List.mem_map_of_mem hid))).1
  refine ⟨.of_events (hlocks _ List.mem_cons_self).1 hacquired (hsorted.imp fun h heq => (heq ▸ h).false)
    hevents hhandles ?_ ?_ fun _ => ⟨ids, sortedDistinct ids, tail, hids, hmem, hsorted, hlocks, ?_, ?_⟩,
    ?_, ?_⟩
  · intro lock hlock
    simp only [List.mem_append, List.mem_map, List.mem_cons, reduceCtorEq, and_false, exists_false,
      false_or] at hlock
    obtain ⟨_, heq⟩ := htail _ hlock
    cases heq
  · intro lock
    rw [List.countP_append, List.countP_cons, List.countP_map]
    have htail' : tail.countP (Event.isReleaseOf lock) = 0 := by
      rw [List.countP_eq_zero]
      intro event hevent
      obtain ⟨_, rfl⟩ := htail event hevent
      exact Bool.false_ne_true
    simp [htail', Event.isReleaseOf, Function.comp_def]
  · rw [hevents]
    simp
  · intro hcallback
    obtain ⟨_, heq⟩ := htail _ hcallback
    cases heq
  · rw [hevents]
    simp
  · rw [hevents, failures_append, failures_append, failures_append, failures_map (by simp),
      failures_map (by simp)]
    rfl

/-- **The operation**, from the time when the lock of the user is acquired. -/
theorem attempt_wp (hmutation : outcomes.acquire .mutation = .ok true)
    (hs : s = ⟨[.acquire .mutation], []⟩) :
    Effect.wp (attempt outcomes)
      (fun value s' => Attempted outcomes s' ∧ failures s'.events = [] ∧ .callback ∈ s'.events ∧
        outcomes.callback = .ok value.2)
      (fun failure s' => Attempted outcomes s' ∧ (failures s'.events).head? = some failure ∧
        ¬ (.callback ∈ s'.events ∧ ∃ value, outcomes.callback = .ok value)) s := by
  subst hs
  unfold attempt
  refine Effect.wp_bind.2 (wp_awaitCall (fun ids hids => ?_) fun reason hreason => ?_)
  · obtain ⟨hmem, hsorted⟩ := sortedDistinct_spec ids
    have hnodup : (sortedDistinct ids).Nodup := hsorted.imp fun h heq => (heq ▸ h).false
    refine Effect.wp_bind.2 (Effect.wp_mono (acquireDestinations_wp rfl) ?_ ?_)
    · rintro _ s' ⟨rfl, hacquired⟩
      refine Effect.wp_bind.2 (Effect.wp_gets.2 (Effect.wp_bind.2 (allHeld_wp ?_ ?_)))
      · intro heldStates hheld
        split_ifs with hlost
        · exact Attempted.fails (sortedDistinct ids)
            ((.mutation :: (sortedDistinct ids).map .destination).map .isHeld) hmutation hacquired hnodup
            (by simp) rfl (by simp)
        · have hlocks : ∀ lock ∈ Lock.mutation :: (sortedDistinct ids).map .destination,
              outcomes.acquire lock = .ok true ∧ outcomes.isHeld lock = .ok true :=
            fun lock hlock => ⟨by
              rcases List.mem_cons.1 hlock with rfl | hlock
              · exact hmutation
              · obtain ⟨id, hid, rfl⟩ := List.mem_map.1 hlock
                exact hacquired id hid, hheld (by simpa using hlost) lock hlock⟩
          refine Effect.wp_bind.2 (wp_awaitCall (fun value hvalue => ?_) fun reason hreason => ?_)
          · obtain ⟨hattempted, hcallback, hfailures⟩ := Attempted.calls [] hids hlocks
              (s := ⟨_, (sortedDistinct ids).map .destination⟩) rfl rfl (by simp)
            exact ⟨by simpa using hattempted, by simpa using hfailures, by simp, hvalue⟩
          · obtain ⟨hattempted, hcallback, hfailures⟩ := Attempted.calls [.failed (.rejected reason)]
              hids hlocks (s := ⟨_, (sortedDistinct ids).map .destination⟩) rfl rfl (by simp)
            refine ⟨by simpa using hattempted, by simpa using congrArg List.head? hfailures, ?_⟩
            rintro ⟨-, value, hvalue⟩
            cases hreason.symm.trans hvalue
      · intro failure
        exact Attempted.fails (sortedDistinct ids)
          ((.mutation :: (sortedDistinct ids).map .destination).map .isHeld) hmutation hacquired hnodup
          (by simp) rfl (by simp)
    · rintro failure s' ⟨done, id, rest, hids', hrefused, ⟨hs', hdone⟩, hevents⟩
      have hhandles : s'.destinationHandles = done.map .destination := congrArg State.destinationHandles hs'
      refine Attempted.fails done [.acquire (.destination id)] hmutation hdone ?_ (by simp [hevents])
        hhandles ?_
      · rw [hids'] at hnodup
        exact (List.nodup_append.1 hnodup).1
      · intro call hcall
        exact Or.inl ⟨_, List.mem_singleton.1 hcall, hrefused⟩
  · exact Attempted.fails [] [] hmutation (by simp) List.nodup_nil (by simp) rfl (by simp)

/-- These locks have been released: what has happened since `base`, and what has failed. -/
structure Released (outcomes : Outcomes ε τ) (locks : List Lock) (base : State ε) (raised : List (Failure ε))
    (s : State ε) : Prop where
  handles : s.destinationHandles = base.destinationHandles
  events : ∃ released, s.events = base.events ++ released ∧
    (∀ lock, released.countP (Event.isReleaseOf lock) = locks.count lock) ∧
    (∀ event ∈ released, (∃ lock, event = .release lock) ∨ ∃ failure, event = .failed failure) ∧
    (raised = [] ↔ failures released = []) ∧
    ∀ failure ∈ failures released, ∃ error ∈ raised, failure.IsIn error
  raised : raised = [] ↔ ∀ lock ∈ locks, outcomes.release lock = .ok ()

theorem mem_rejections {outcome : Lock → Except ε α} {settledAt : Lock → ℤ} :
    failure ∈ rejections outcome settledAt locks ↔
      failure ∈ locks.filterMap fun lock => rejection (outcome lock) := by
  rw [rejections, List.mem_filterMap, List.mem_filterMap]
  simp only [JsArray.mem_toSorted]

theorem countP_releases (locks : List Lock) (failed : List (Failure ε)) (lock : Lock) :
    (locks.map Event.release ++ failed.map Event.failed).countP (Event.isReleaseOf lock) =
      locks.count lock := by
  rw [List.countP_append, List.countP_map, List.countP_map, List.count]
  simp [Function.comp_def, Event.isReleaseOf, beq_eq_decide]

theorem failures_releases (locks : List Lock) (failed : List (Failure ε)) :
    failures (locks.map Event.release ++ failed.map Event.failed) = failed := by
  rw [failures_append, failures_map (by simp), List.nil_append, failures, List.filterMap_map]
  exact List.filterMap_some

/-- The releases of some locks are called together, and what they raise is `raised`. -/
theorem Released.of_rejections {order : List Lock} (horder : order.Perm locks) {raised : List (Failure ε)}
    (hraised : raised = [] ↔ rejections outcomes.release outcomes.releaseSettledAt order = [])
    (hcontains : ∀ failure ∈ rejections outcomes.release outcomes.releaseSettledAt order, ∃ error ∈ raised, failure.IsIn error) :
    Released outcomes locks s raised { s with events := s.events ++ order.map .release ++
      (rejections outcomes.release outcomes.releaseSettledAt order).map .failed } := by
  refine ⟨rfl, ⟨_, List.append_assoc _ _ _, fun lock => ?_, ?_, ?_, ?_⟩, ?_⟩
  · rw [countP_releases, horder.count_eq]
  · intro event hevent
    rcases List.mem_append.1 hevent with hevent | hevent
    · obtain ⟨lock, -, rfl⟩ := List.mem_map.1 hevent
      exact Or.inl ⟨lock, rfl⟩
    · obtain ⟨failure, -, rfl⟩ := List.mem_map.1 hevent
      exact Or.inr ⟨failure, rfl⟩
  · rw [failures_releases, hraised]
  · rw [failures_releases]
    exact hcontains
  · rw [hraised, rejections_eq_nil_iff]
    simp only [horder.mem_iff]
    exact forall₂_congr fun lock _ => ⟨fun ⟨_, h⟩ => h, fun h => ⟨_, h⟩⟩

theorem releaseSyncHandles_wp (handles : List Lock) :
    Effect.wp (releaseSyncHandles outcomes handles) (fun _ => Released outcomes handles s [])
      (fun failure => Released outcomes handles s [failure]) s := by
  unfold releaseSyncHandles
  refine Effect.wp_bind.2 (wp_happen.2 (Effect.wp_bind.2 (wp_happen.2 ?_)))
  have hmem : ∀ failure : Failure ε, failure ∈ rejections outcomes.release outcomes.releaseSettledAt
      handles.reverse ↔ _ := fun failure => mem_rejections
  dsimp only
  split_ifs with hfailures
  · refine Released.of_rejections (List.reverse_perm _) (iff_of_false (by simp) fun hnil => ?_)
      fun failure hfailure => ⟨_, List.mem_singleton_self _, .errors ((hmem failure).1 hfailure) .refl⟩
    obtain ⟨failure, hfailure⟩ := List.exists_mem_of_length_pos hfailures
    have hrejected := (hmem failure).2 hfailure
    rw [hnil] at hrejected
    cases hrejected
  · have hnil : rejections outcomes.release outcomes.releaseSettledAt handles.reverse = [] := by
      refine List.eq_nil_iff_forall_not_mem.2 fun failure hfailure => hfailures ?_
      exact List.length_pos_of_mem ((hmem failure).1 hfailure)
    refine Released.of_rejections (List.reverse_perm _) (iff_of_true rfl hnil) fun failure hfailure => ?_
    rw [hnil] at hfailure
    cases hfailure

theorem Released.append {locks' : List Lock} {base s' : State ε} {raised raised' : List (Failure ε)}
    (h : Released outcomes locks base raised s) (h' : Released outcomes locks' s raised' s') :
    Released outcomes (locks ++ locks') base (raised ++ raised') s' := by
  obtain ⟨released, hevents, hcount, hcalls, hnone, hcontains⟩ := h.events
  obtain ⟨released', hevents', hcount', hcalls', hnone', hcontains'⟩ := h'.events
  refine ⟨h'.handles.trans h.handles, ⟨released ++ released', ?_, fun lock => ?_, ?_, ?_, ?_⟩, ?_⟩
  · rw [hevents', hevents, List.append_assoc]
  · rw [List.countP_append, hcount, hcount', List.count_append]
  · intro event hevent
    exact (List.mem_append.1 hevent).elim (hcalls event) (hcalls' event)
  · rw [failures_append, List.append_eq_nil_iff, List.append_eq_nil_iff, hnone, hnone']
  · intro failure hfailure
    rw [failures_append] at hfailure
    rcases List.mem_append.1 hfailure with hfailure | hfailure
    · obtain ⟨error, herror, hin⟩ := hcontains failure hfailure
      exact ⟨error, List.mem_append_left _ herror, hin⟩
    · obtain ⟨error, herror, hin⟩ := hcontains' failure hfailure
      exact ⟨error, List.mem_append_right _ herror, hin⟩
  · rw [List.append_eq_nil_iff, h.raised, h'.raised, List.forall_mem_append]

theorem releaseMutation_wp :
    Effect.wp (Effect.recover (do
      awaitCall (.release .mutation) (outcomes.release .mutation)
      pure []) fun failure => pure [failure]) (Released outcomes [.mutation] s) (fun _ _ => False) s := by
  have hevent : ∀ failures : List (Failure ε),
      ([Event.release Lock.mutation] ++ failures.map .failed) =
        [Lock.mutation].map .release ++ failures.map .failed := fun _ => rfl
  refine Effect.wp_recover.2 (Effect.wp_bind.2 (wp_awaitCall (fun _ hok => ?_) fun reason herror => ?_))
  · refine ⟨rfl, ⟨_, rfl, fun lock => countP_releases [.mutation] [] lock, by simp, iff_of_true rfl rfl,
      ?_⟩, by simp [hok]⟩
    intro failure hfailure
    cases hfailure
  · refine ⟨rfl, ⟨_, rfl, fun lock => countP_releases [.mutation] [.rejected reason] lock, by simp,
      iff_of_false (List.cons_ne_nil _ _) (List.cons_ne_nil _ _), ?_⟩, by simp [herror]⟩
    intro failure hfailure
    exact ⟨failure, hfailure, .refl⟩

theorem releaseMappingMutationLocks_wp (handles : List Lock) :
    Effect.wp (releaseMappingMutationLocks outcomes handles)
      (Released outcomes (handles ++ [.mutation]) s) (fun _ _ => False) s := by
  have hrest : ∀ (raised : List (Failure ε)) (s' : State ε), Released outcomes handles s raised s' →
      Effect.wp (do
        let mutationFailures ← Effect.recover (do
          awaitCall (.release .mutation) (outcomes.release .mutation)
          pure []) fun failure => pure [failure]
        pure (raised ++ mutationFailures) : Mutation ε _)
        (Released outcomes (handles ++ [.mutation]) s) (fun _ _ => False) s' := by
    intro raised s' h
    exact Effect.wp_bind.2 (Effect.wp_mono releaseMutation_wp (fun _ _ h' => h.append h')
      fun _ _ h' => h')
  unfold releaseMappingMutationLocks
  exact Effect.wp_bind.2 (Effect.wp_recover.2 (Effect.wp_bind.2
    (Effect.wp_mono (releaseSyncHandles_wp handles) (fun _ s' h => hrest [] s' h)
      fun failure s' h => hrest [failure] s' h)))

end

/-! ## All locks or none -/

/-- What `runWithMappingMutationLocks` has done when it has come to this result. -/
structure HoldsAllOrNone (events : List (Event ε)) (result : Except (Failure ε) (List String × τ)) :
    Prop where
  /-- The callback is called at most once, with all locks. -/
  callsBack : CallsBack outcomes events
  /-- Every acquired lock is released once, and no other. -/
  released : ∀ lock, (Acquired outcomes events lock → events.countP (Event.isReleaseOf lock) = 1) ∧
    (¬ Acquired outcomes events lock → events.countP (Event.isReleaseOf lock) = 0)
  /-- The value of the callback is returned if every release succeeds. -/
  returns : ∀ value, (∃ ids, result = .ok (ids, value)) ↔
    .callback ∈ events ∧ outcomes.callback = .ok value ∧
      ∀ lock, .release lock ∈ events → outcomes.release lock = .ok ()
  /-- What is raised is, or contains, the first failure. -/
  raises : ∀ error, result = .error error → ∃ failure,
    (failures events).head? = some failure ∧ failure.IsIn error

section

variable {outcomes}

theorem isReleaseOf_iff {lock : Lock} {event : Event ε} :
    event.isReleaseOf lock = true ↔ event = .release lock := by
  cases event <;> simp [Event.isReleaseOf]

theorem HoldsAllOrNone.refused (hmutation : outcomes.acquire .mutation ≠ .ok true) (failure : Failure ε) :
    HoldsAllOrNone outcomes [.acquire .mutation, .failed failure] (.error failure) where
  callsBack := fun h => by simp at h
  released := by
    intro lock
    refine ⟨fun ⟨hacquire, hok⟩ => ?_, fun _ => rfl⟩
    have hlock : lock = .mutation := by simpa using hacquire
    exact absurd (hlock ▸ hok) hmutation
  returns := by simp
  raises := by
    rintro _ ⟨⟩
    exact ⟨failure, rfl, .refl⟩

variable {s s' : State ε} {raised : List (Failure ε)}

theorem HoldsAllOrNone.of_released {result : Except (Failure ε) (List String × τ)} (h : Attempted outcomes s)
    (h' : Released outcomes (s.destinationHandles ++ [.mutation]) s raised s')
    (hreturns : ∀ value, (∃ ids, result = .ok (ids, value)) ↔ .callback ∈ s.events ∧ outcomes.callback = .ok value ∧ raised = [])
    (hraises : ∀ error released, s'.events = s.events ++ released → (∀ failure ∈ failures released, ∃ error ∈ raised, failure.IsIn error) → (raised = [] ↔ failures released = []) → result = .error error → ∃ failure, (failures s'.events).head? = some failure ∧ failure.IsIn error) :
    HoldsAllOrNone outcomes s'.events result := by
  obtain ⟨released, hevents, hcount, hcalls, hnone, hin⟩ := h'.events
  have hcallback : .callback ∈ s'.events ↔ .callback ∈ s.events := by
    rw [hevents, List.mem_append, or_iff_left]
    intro hmem
    rcases hcalls _ hmem with ⟨_, heq⟩ | ⟨_, heq⟩ <;> cases heq
  have hacquired : ∀ lock, Acquired outcomes s'.events lock ↔
      lock ∈ s.destinationHandles ++ [.mutation] := by
    intro lock
    have hacquire : .acquire lock ∈ s'.events ↔ .acquire lock ∈ s.events := by
      rw [hevents, List.mem_append, or_iff_left]
      intro hmem
      rcases hcalls _ hmem with ⟨_, heq⟩ | ⟨_, heq⟩ <;> cases heq
    rw [Acquired, hacquire, List.mem_append, List.mem_singleton, or_comm, ← List.mem_cons]
    exact (h.handles lock).symm
  have hnodup : (s.destinationHandles ++ [Lock.mutation]).Nodup :=
    (List.perm_append_singleton _ _).nodup_iff.2 h.nodup
  have hcountP : ∀ lock, s'.events.countP (Event.isReleaseOf lock) =
      (s.destinationHandles ++ [Lock.mutation]).count lock := by
    intro lock
    rw [hevents, List.countP_append, h.released, hcount, Nat.zero_add]
  have hrelease : ∀ lock, .release lock ∈ s'.events ↔ lock ∈ s.destinationHandles ++ [.mutation] := by
    intro lock
    rw [← List.count_pos_iff (a := lock) (l := _ ++ _), ← hcountP, List.countP_pos_iff]
    simp only [isReleaseOf_iff, exists_eq_right]
  refine ⟨fun hmem => ?_, fun lock => ⟨fun hlock => ?_, fun hlock => ?_⟩, fun value => ?_,
    fun error herror => hraises error released hevents hin hnone herror⟩
  · obtain ⟨ids, sorted, rest, hids, hmem', hsorted, hlocks, heq, hrest⟩ :=
      h.callsBack (hcallback.1 hmem)
    refine ⟨ids, sorted, rest ++ released, hids, hmem', hsorted, hlocks, ?_, ?_⟩
    · rw [hevents, heq]
      simp
    · rw [List.mem_append, not_or]
      refine ⟨hrest, fun hmem => ?_⟩
      rcases hcalls _ hmem with ⟨_, heq⟩ | ⟨_, heq⟩ <;> cases heq
  · rw [hcountP]
    exact List.count_eq_one_of_mem hnodup ((hacquired lock).1 hlock)
  · rw [hcountP]
    exact List.count_eq_zero_of_not_mem fun hmem => hlock ((hacquired lock).2 hmem)
  · rw [hreturns, hcallback, h'.raised]
    simp only [hrelease]

theorem Attempted.returned {ids : List String} {value : τ} (h : Attempted outcomes s)
    (h' : Released outcomes (s.destinationHandles ++ [.mutation]) s [] s') (hcallback : .callback ∈ s.events)
    (hvalue : outcomes.callback = .ok value) : HoldsAllOrNone outcomes s'.events (.ok (ids, value)) := by
  refine .of_released h h' (fun value' => ?_) fun error _ _ _ _ herror => by cases herror
  simp [hcallback, hvalue]

theorem Attempted.unreleased {message : String} (h : Attempted outcomes s)
    (h' : Released outcomes (s.destinationHandles ++ [.mutation]) s raised s') (hfailures : failures s.events = [])
    (hraised : raised ≠ []) : HoldsAllOrNone outcomes s'.events
      (.error (.aggregateError raised message none) : Except _ (List String × τ)) := by
  refine .of_released h h' (fun value' => ?_) fun error released hevents hin hnone herror => ?_
  · simp [hraised]
  · cases herror
    obtain ⟨failure, rest, hreleased⟩ := List.exists_cons_of_ne_nil fun hnil => hraised (hnone.2 hnil)
    obtain ⟨error, herror, hin⟩ := hin failure (by rw [hreleased]; exact List.mem_cons_self)
    refine ⟨failure, ?_, .errors herror hin⟩
    rw [hevents, failures_append, hfailures, hreleased]
    rfl

theorem Attempted.failed {failure error : Failure ε} (h : Attempted outcomes s)
    (h' : Released outcomes (s.destinationHandles ++ [.mutation]) s raised s')
    (hfailures : (failures s.events).head? = some failure)
    (hcallback : ¬ (.callback ∈ s.events ∧ ∃ value, outcomes.callback = .ok value)) (herror : failure.IsIn error) :
    HoldsAllOrNone outcomes s'.events (.error error : Except _ (List String × τ)) := by
  refine .of_released h h' (fun value' => ?_) fun error' released hevents _ _ herror' => ?_
  · refine iff_of_false (by simp) ?_
    rintro ⟨hmem, hvalue, -⟩
    exact hcallback ⟨hmem, value', hvalue⟩
  · cases herror'
    refine ⟨failure, ?_, herror⟩
    rw [hevents, failures_append, List.head?_append, hfailures]
    rfl

theorem run_wp : Effect.wp (runWithMappingMutationLocks outcomes)
    (fun value s => HoldsAllOrNone outcomes s.events (.ok value))
    (fun error s => HoldsAllOrNone outcomes s.events (.error error)) {} := by
  unfold runWithMappingMutationLocks
  refine Effect.wp_bind.2 (wp_awaitCall (fun acquired hacquired => ?_) fun reason hreason =>
    .refused (by simp [hreason]) _)
  cases acquired with
  | false => exact HoldsAllOrNone.refused (by simp [hacquired]) _
  | true =>
    refine Effect.wp_bind.2 (Effect.wp_recover.2 (Effect.wp_bind.2
      (Effect.wp_mono (attempt_wp hacquired rfl) ?_ ?_)))
    · rintro ⟨ids, value⟩ s ⟨h, hfailures, hcallback, hvalue⟩
      refine Effect.wp_bind.2 (Effect.wp_bind.2 (Effect.wp_mono (releaseMappingMutationLocks_wp _) ?_
        fun _ _ h' => h'.elim))
      intro raised s' h'
      cases raised with
      | nil => exact h.returned h' hcallback hvalue
      | cons failure raised => exact h.unreleased h' hfailures (List.cons_ne_nil _ _)
    · rintro failure s ⟨h, hfailures, hcallback⟩
      refine Effect.wp_bind.2 (Effect.wp_bind.2 (Effect.wp_mono (releaseMappingMutationLocks_wp _) ?_
        fun _ _ h' => h'.elim))
      intro raised s' h'
      cases raised with
      | nil => exact h.failed h' hfailures hcallback .refl
      | cons error raised =>
        exact h.failed h' hfailures hcallback (.errors List.mem_cons_self .refl)

end

/-- **All locks or none**, whatever each call comes to. -/
theorem holdsAllOrNone : HoldsAllOrNone outcomes (runWithMappingMutationLocks outcomes {}).2.events
    (runWithMappingMutationLocks outcomes {}).1 := by
  have h : Effect.wp (runWithMappingMutationLocks outcomes) _ _ {} := run_wp
  unfold Effect.wp at h
  rcases hrun : runWithMappingMutationLocks outcomes {} with ⟨error | value, s⟩ <;> rw [hrun] at h
  · exact h
  · exact h

end MutationLocks

end Keeper
