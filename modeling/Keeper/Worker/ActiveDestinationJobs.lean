import Keeper.Foundations.JsMap
import Mathlib.Data.List.Count

/-!
# The active jobs of a worker

`services/worker/src/active-destination-jobs.ts`: while some destination of a user is being synced, the
user's run is held. The run is released a while after the last job has settled, and a job that never
settles is given up by its watchdog.

* `Inv.step`, `Inv.run`: the four maps and the timers describe the same jobs.
* `tracksRuns_run`: the run of a user is begun and released in turn, and it is held exactly while a
  calendar of the user has an active job or a release is pending.
-/

namespace Keeper

namespace ActiveDestinationJobs

/-! ## State -/

structure ActiveDestinationJob where
  calendarId : String
  id : String
  userId : String
  deriving DecidableEq

inductive TimerCallback
  | release (userId : String)
  | watchdog (job : ActiveDestinationJob)
  deriving DecidableEq

/-- A call of `config`. -/
inductive RunCall
  | beginUserRun (userId : String)
  | releaseUserRun (userId : String)
  deriving DecidableEq

/-- The state of `createActiveDestinationJobs`, with the timers that are pending and the calls made. -/
structure State where
  activeJobsByCalendar : JsMap String ActiveDestinationJob := JsMap.empty
  activeDestinationCountsByUser : JsMap String ℕ := JsMap.empty
  releaseTimersByUser : JsMap String ℕ := JsMap.empty
  stalledTimersByCalendar : JsMap String ℕ := JsMap.empty
  timers : JsMap ℕ TimerCallback := JsMap.empty
  nextTimer : ℕ := 0
  calls : List RunCall := []

namespace State

/-! ## Timers -/

/-- `setTimeout`; the new timer is `nextTimer`. -/
def setTimeout (s : State) (callback : TimerCallback) : State :=
  { s with timers := s.timers.set s.nextTimer callback, nextTimer := s.nextTimer + 1 }

def clearTimeout (s : State) (timer : ℕ) : State := { s with timers := s.timers.erase timer }

/-- A call of `config`. -/
def call (s : State) (c : RunCall) : State := { s with calls := s.calls ++ [c] }

def clearStalledWatchdog (s : State) (calendarId : String) : State :=
  match s.stalledTimersByCalendar.get? calendarId with
  | none => s
  | some timer =>
    { s.clearTimeout timer with
      stalledTimersByCalendar := s.stalledTimersByCalendar.erase calendarId }

/-- `cancelPendingRelease`, and whether there was one. -/
def cancelPendingRelease (s : State) (userId : String) : State × Bool :=
  match s.releaseTimersByUser.get? userId with
  | none => (s, false)
  | some timer =>
    ({ s.clearTimeout timer with releaseTimersByUser := s.releaseTimersByUser.erase userId }, true)

/-! ## Jobs -/

/-- `activeDestinationCountsByUser.get(userId) ?? 0`. -/
def activeCount (s : State) (userId : String) : ℕ :=
  (s.activeDestinationCountsByUser.get? userId).getD 0

/-- The timer that releases a run after its last job. -/
def scheduleRelease (s : State) (userId : String) : State :=
  { s.setTimeout (.release userId) with
    releaseTimersByUser := s.releaseTimersByUser.set userId s.nextTimer }

/-- The count of a user after a job of theirs has settled: the last one schedules the release. -/
def countSettled (s : State) (userId : String) : State :=
  let remainingCount := s.activeCount userId - 1
  if 0 < remainingCount then
    { s with
      activeDestinationCountsByUser := s.activeDestinationCountsByUser.set userId remainingCount }
  else
    { s with
      activeDestinationCountsByUser := s.activeDestinationCountsByUser.erase userId
    }.scheduleRelease userId

def onSettled (s : State) (job : ActiveDestinationJob) : State :=
  if (s.activeJobsByCalendar.get? job.calendarId).map (·.id) ≠ some job.id then s
  else
    { s.clearStalledWatchdog job.calendarId with
      activeJobsByCalendar := s.activeJobsByCalendar.erase job.calendarId }.countSettled job.userId

def armStalledWatchdog (s : State) (job : ActiveDestinationJob) : State :=
  let s := s.clearStalledWatchdog job.calendarId
  { s.setTimeout (.watchdog job) with
    stalledTimersByCalendar := s.stalledTimersByCalendar.set job.calendarId s.nextTimer }

def place (s : State) (job : ActiveDestinationJob) : State :=
  { s with activeJobsByCalendar := s.activeJobsByCalendar.set job.calendarId job }.armStalledWatchdog job

/-- The count of a user after a job of theirs has become active: the first one begins the run, unless
its release was pending. -/
def countActive (s : State) (userId : String) (aggregateWasHeld : Bool) : State :=
  let activeCount := s.activeCount userId
  let s := if activeCount = 0 ∧ aggregateWasHeld = false then s.call (.beginUserRun userId) else s
  { s with
    activeDestinationCountsByUser := s.activeDestinationCountsByUser.set userId (activeCount + 1) }

def onActive (s : State) (job : ActiveDestinationJob) : State :=
  let (s, aggregateWasHeld) := s.cancelPendingRelease job.userId
  match s.activeJobsByCalendar.get? job.calendarId with
  | some previous => if previous.id = job.id then s else s.place job
  | none => (s.countActive job.userId aggregateWasHeld).place job

def close (s : State) : State :=
  let timers := s.stalledTimersByCalendar.values ++ s.releaseTimersByUser.values
  { s with
    timers := timers.foldl JsMap.erase s.timers
    stalledTimersByCalendar := JsMap.empty
    releaseTimersByUser := JsMap.empty
    calls := s.calls ++ s.releaseTimersByUser.keys.map .releaseUserRun }

/-- A timer fires: it is no longer pending, and its function is called. -/
def fire (s : State) (timer : ℕ) : State :=
  match s.timers.get? timer with
  | none => s
  | some callback =>
    let s := { s with timers := s.timers.erase timer }
    match callback with
    | .release userId =>
      let s := { s with releaseTimersByUser := s.releaseTimersByUser.erase userId }
      if s.activeCount userId = 0 then s.call (.releaseUserRun userId) else s
    | .watchdog job =>
      { s with
        stalledTimersByCalendar := s.stalledTimersByCalendar.erase job.calendarId }.onSettled job

end State

/-- What happens to the jobs of a worker. -/
inductive Event
  | onActive (job : ActiveDestinationJob)
  | onSettled (job : ActiveDestinationJob)
  | fire (timer : ℕ)
  | close
  deriving DecidableEq

def State.step (s : State) : Event → State
  | .onActive job => s.onActive job
  | .onSettled job => s.onSettled job
  | .fire timer => s.fire timer
  | .close => s.close

def State.run (s : State) (events : List Event) : State := events.foldl State.step s

/-! ## The calls of a user -/

/-- A call to the run of a user, which is begun when it is not held and released when it is. -/
def RunCall.next (userId : String) (held : Bool) : RunCall → Option Bool
  | .beginUserRun u => if u ≠ userId then some held else if held then none else some true
  | .releaseUserRun u => if u ≠ userId then some held else if held then some false else none

/-- Whether the run of a user is held after calls that begin and release it in turn. -/
def heldAfter (userId : String) (calls : List RunCall) : Option Bool :=
  calls.foldlM (RunCall.next userId) false

theorem heldAfter_call (userId : String) (s : State) (c : RunCall) :
    heldAfter userId (s.call c).calls = (heldAfter userId s.calls).bind (c.next userId) := by
  simp [heldAfter, State.call, List.foldlM_append]

theorem foldlM_next_releases {userId : String} {users : List String} (hnodup : users.Nodup)
    {held : Bool} (hheld : userId ∈ users → held = true) :
    (users.map RunCall.releaseUserRun).foldlM (RunCall.next userId) held =
      some (held && decide (userId ∉ users)) := by
  induction users generalizing held with
  | nil => simp
  | cons u users ih =>
    obtain ⟨hu, hnodup⟩ := List.nodup_cons.1 hnodup
    by_cases h : u = userId
    · subst h
      have hnext : RunCall.next u held (.releaseUserRun u) = some false := by
        simp [RunCall.next, hheld List.mem_cons_self]
      rw [List.map_cons, List.foldlM_cons, hnext]
      simpa [hu] using @ih hnodup false fun hmem => absurd hmem hu
    · have hnext : RunCall.next userId held (.releaseUserRun u) = some held := by
        simp [RunCall.next, h]
      rw [List.map_cons, List.foldlM_cons, hnext]
      simpa [Ne.symm h] using ih hnodup fun hmem => hheld (List.mem_cons_of_mem _ hmem)

/-! ## Timers and the maps -/

/-- The map `m` has, at each key, the timer whose callback has that key. -/
def Registers {γ : Type} (key : γ → Option String) (m : JsMap String ℕ) (timers : JsMap ℕ γ) : Prop :=
  ∀ k t, m.get? k = some t ↔ ∃ callback, timers.get? t = some callback ∧ key callback = some k

namespace Registers

variable {γ : Type} {key : γ → Option String} {m : JsMap String ℕ} {timers : JsMap ℕ γ}

variable {timer : ℕ}

theorem erase (h : Registers key m timers) {k : String} (htimer : m.get? k = some timer) :
    Registers key (m.erase k) (timers.erase timer) := by
  obtain ⟨callback, hcallback, hkey⟩ := (h k timer).1 htimer
  intro k' t
  rw [JsMap.get?_erase, JsMap.get?_erase]
  by_cases hk : k = k'
  · subst hk
    simp only [if_true, reduceCtorEq, false_iff, not_exists, not_and]
    intro callback' ht hkey'
    split_ifs at ht with hne
    exact hne (Option.some.inj (htimer.symm.trans ((h k t).2 ⟨callback', ht, hkey'⟩)))
  · by_cases ht : timer = t
    · subst ht
      simp only [hk, if_false, if_true, reduceCtorEq, false_and, exists_false, iff_false]
      intro hk'
      obtain ⟨callback', hcallback', hkey'⟩ := (h k' timer).1 hk'
      rw [hcallback, Option.some.injEq] at hcallback'
      rw [← hcallback', hkey, Option.some.injEq] at hkey'
      exact hk hkey'
    · rw [if_neg hk, if_neg ht]
      exact h k' t

theorem erase_other (h : Registers key m timers) {callback : γ} (htimer : timers.get? timer = some callback)
    (hkey : key callback = none) : Registers key m (timers.erase timer) := by
  intro k t
  rw [h k t, JsMap.get?_erase]
  split_ifs with ht
  · subst ht
    simp [htimer, hkey]
  · rfl

theorem set (h : Registers key m timers) {k : String} (hk : m.get? k = none) (hfresh : timers.get? timer = none)
    {callback : γ} (hkey : key callback = some k) : Registers key (m.set k timer) (timers.set timer callback) := by
  intro k' t
  rw [JsMap.get?_set, JsMap.get?_set]
  by_cases ht : timer = t
  · subst ht
    by_cases hk' : k = k'
    · simp [hk', hkey]
    · simp only [hk', if_false, if_true, Option.some.injEq, exists_eq_left', hkey, iff_false]
      intro hm
      obtain ⟨callback', hcallback', -⟩ := (h k' timer).1 hm
      rw [hfresh] at hcallback'
      cases hcallback'
  · by_cases hk' : k = k'
    · subst hk'
      simp only [if_true, Option.some.injEq, ht, if_false, false_iff]
      intro hm
      rw [(h k t).2 hm] at hk
      cases hk
    · rw [if_neg hk', if_neg ht]
      exact h k' t

theorem set_other (h : Registers key m timers) (hfresh : timers.get? timer = none) {callback : γ}
    (hkey : key callback = none) : Registers key m (timers.set timer callback) := by
  intro k t
  rw [h k t, JsMap.get?_set]
  split_ifs with ht
  · subst ht
    simp [hfresh, hkey]
  · rfl

end Registers

def TimerCallback.calendar : TimerCallback → Option String
  | .watchdog job => some job.calendarId
  | .release _ => none

def TimerCallback.user : TimerCallback → Option String
  | .watchdog _ => none
  | .release userId => some userId

/-- The maps and the timers describe the same jobs. -/
structure Linked (owner : String → String) (s : State) : Prop where
  active : ∀ c job, s.activeJobsByCalendar.get? c = some job →
    job.calendarId = c ∧ job.userId = owner c
  watchdogs : Registers TimerCallback.calendar s.stalledTimersByCalendar s.timers
  watched : ∀ t job, s.timers.get? t = some (.watchdog job) →
    s.activeJobsByCalendar.get? job.calendarId = some job
  releases : Registers TimerCallback.user s.releaseTimersByUser s.timers
  fresh : ∀ t callback, s.timers.get? t = some callback → t < s.nextTimer

namespace State

def activeCalendars (s : State) (userId : String) : ℕ :=
  s.activeJobsByCalendar.values.countP (·.userId = userId)

def PendingRelease (s : State) (userId : String) : Prop :=
  ∃ t, s.timers.get? t = some (.release userId)

@[simp] theorem clearStalledWatchdog_active (s : State) (c : String) :
    (s.clearStalledWatchdog c).activeJobsByCalendar = s.activeJobsByCalendar := by
  unfold clearStalledWatchdog
  split <;> rfl

@[simp] theorem clearStalledWatchdog_counts (s : State) (c : String) :
    (s.clearStalledWatchdog c).activeDestinationCountsByUser = s.activeDestinationCountsByUser := by
  unfold clearStalledWatchdog
  split <;> rfl

@[simp] theorem clearStalledWatchdog_releases (s : State) (c : String) :
    (s.clearStalledWatchdog c).releaseTimersByUser = s.releaseTimersByUser := by
  unfold clearStalledWatchdog
  split <;> rfl

@[simp] theorem clearStalledWatchdog_calls (s : State) (c : String) :
    (s.clearStalledWatchdog c).calls = s.calls := by
  unfold clearStalledWatchdog
  split <;> rfl

@[simp] theorem cancelPendingRelease_active (s : State) (u : String) :
    (s.cancelPendingRelease u).1.activeJobsByCalendar = s.activeJobsByCalendar := by
  unfold cancelPendingRelease
  split <;> rfl

@[simp] theorem cancelPendingRelease_counts (s : State) (u : String) :
    (s.cancelPendingRelease u).1.activeDestinationCountsByUser = s.activeDestinationCountsByUser := by
  unfold cancelPendingRelease
  split <;> rfl

@[simp] theorem cancelPendingRelease_calls (s : State) (u : String) :
    (s.cancelPendingRelease u).1.calls = s.calls := by
  unfold cancelPendingRelease
  split <;> rfl

theorem cancelPendingRelease_releases (s : State) (u u' : String) :
    (s.cancelPendingRelease u).1.releaseTimersByUser.get? u' =
      if u = u' then none else s.releaseTimersByUser.get? u' := by
  unfold cancelPendingRelease
  split
  · rename_i htimer
    split_ifs with heq
    · rw [← heq, htimer]
    · rfl
  · exact JsMap.get?_erase _ _ _

theorem cancelPendingRelease_snd (s : State) (u : String) :
    (s.cancelPendingRelease u).2 = (s.releaseTimersByUser.get? u).isSome := by
  unfold cancelPendingRelease
  split
  · rename_i htimer
    rw [htimer, Option.isSome_none]
  · rename_i timer htimer
    rw [htimer, Option.isSome_some]

@[simp] theorem countActive_active (s : State) (u : String) (held : Bool) :
    (s.countActive u held).activeJobsByCalendar = s.activeJobsByCalendar := by
  simp only [countActive]
  split <;> rfl

@[simp] theorem countActive_counts (s : State) (u : String) (held : Bool) :
    (s.countActive u held).activeDestinationCountsByUser =
      s.activeDestinationCountsByUser.set u (s.activeCount u + 1) := by
  simp only [countActive]
  split <;> rfl

@[simp] theorem countActive_releases (s : State) (u : String) (held : Bool) :
    (s.countActive u held).releaseTimersByUser = s.releaseTimersByUser := by
  simp only [countActive]
  split <;> rfl

@[simp] theorem countActive_calls (s : State) (u : String) (held : Bool) :
    (s.countActive u held).calls =
      if s.activeCount u = 0 ∧ held = false then (s.call (.beginUserRun u)).calls else s.calls := by
  simp only [countActive]
  split <;> rfl

@[simp] theorem countSettled_active (s : State) (u : String) :
    (s.countSettled u).activeJobsByCalendar = s.activeJobsByCalendar := by
  simp only [countSettled]
  split <;> rfl

@[simp] theorem place_active (s : State) (job : ActiveDestinationJob) :
    (s.place job).activeJobsByCalendar = s.activeJobsByCalendar.set job.calendarId job := by
  simp [place, armStalledWatchdog, setTimeout]

theorem clearStalledWatchdog_watchdogs (s : State) (c : String) :
    (s.clearStalledWatchdog c).stalledTimersByCalendar.get? c = none := by
  unfold clearStalledWatchdog
  split
  · assumption
  · simp [JsMap.get?_erase]

end State

namespace Linked

variable {owner : String → String} {s : State}

theorem activeCalendars (h : Linked owner s) (userId : String) :
    s.activeCalendars userId = s.activeJobsByCalendar.keys.countP (owner · = userId) := by
  rw [State.activeCalendars, JsMap.values, JsMap.keys, List.countP_map, List.countP_map]
  refine List.countP_congr fun e he => ?_
  simp [(h.active e.1 e.2 (JsMap.mem_entries_iff.1 he)).2]

theorem get?_nextTimer (h : Linked owner s) : s.timers.get? s.nextTimer = none := by
  cases hget : s.timers.get? s.nextTimer with
  | none => rfl
  | some callback => exact absurd (h.fresh _ _ hget) (Nat.lt_irrefl _)

theorem clearTimeout (h : Linked owner s) (timer : ℕ) {stalled releases : JsMap String ℕ}
    (hstalled : Registers TimerCallback.calendar stalled (s.timers.erase timer))
    (hreleases : Registers TimerCallback.user releases (s.timers.erase timer)) :
    Linked owner { s.clearTimeout timer with
      stalledTimersByCalendar := stalled, releaseTimersByUser := releases } := by
  have hrest : ∀ t callback, (s.timers.erase timer).get? t = some callback →
      s.timers.get? t = some callback := by
    intro t callback ht
    rw [JsMap.get?_erase] at ht
    split_ifs at ht
    exact ht
  exact ⟨h.active, hstalled, fun t job ht => h.watched t job (hrest t _ ht), hreleases,
    fun t callback ht => h.fresh t callback (hrest t _ ht)⟩

theorem clearStalledWatchdog (h : Linked owner s) (c : String) :
    Linked owner (s.clearStalledWatchdog c) := by
  unfold State.clearStalledWatchdog
  split
  · exact h
  · rename_i timer htimer
    obtain ⟨callback, hcallback, hkey⟩ := (h.watchdogs c timer).1 htimer
    refine h.clearTimeout timer (h.watchdogs.erase htimer) (h.releases.erase_other hcallback ?_)
    cases callback with
    | watchdog job => rfl
    | release u => cases hkey

theorem cancelPendingRelease (h : Linked owner s) (u : String) :
    Linked owner (s.cancelPendingRelease u).1 := by
  unfold State.cancelPendingRelease
  split
  · exact h
  · rename_i timer htimer
    obtain ⟨callback, hcallback, hkey⟩ := (h.releases u timer).1 htimer
    refine h.clearTimeout timer (h.watchdogs.erase_other hcallback ?_) (h.releases.erase htimer)
    cases callback with
    | watchdog job => cases hkey
    | release u => rfl

theorem calendarId_ne (h : Linked owner s) {c : String}
    (hc : s.stalledTimersByCalendar.get? c = none) {t : ℕ} {job : ActiveDestinationJob}
    (ht : s.timers.get? t = some (.watchdog job)) : c ≠ job.calendarId := by
  rintro rfl
  rw [(h.watchdogs _ t).2 ⟨_, ht, rfl⟩] at hc
  cases hc

theorem erase (h : Linked owner s) {c : String} (hc : s.stalledTimersByCalendar.get? c = none) :
    Linked owner { s with activeJobsByCalendar := s.activeJobsByCalendar.erase c } := by
  refine ⟨?_, h.watchdogs, ?_, h.releases, h.fresh⟩
  · intro c' job hjob
    rw [JsMap.get?_erase] at hjob
    split_ifs at hjob
    exact h.active c' job hjob
  · intro t job ht
    show (s.activeJobsByCalendar.erase c).get? job.calendarId = some job
    rw [JsMap.get?_erase, if_neg (h.calendarId_ne hc ht)]
    exact h.watched t job ht

theorem scheduleRelease (h : Linked owner s) {u : String}
    (hu : s.releaseTimersByUser.get? u = none) : Linked owner (s.scheduleRelease u) := by
  refine ⟨h.active, h.watchdogs.set_other h.get?_nextTimer rfl, ?_,
    h.releases.set hu h.get?_nextTimer rfl, ?_⟩
  · intro t job ht
    simp only [State.scheduleRelease, State.setTimeout, JsMap.get?_set] at ht
    split_ifs at ht
    · cases ht
    · exact h.watched t job ht
  · intro t callback ht
    simp only [State.scheduleRelease, State.setTimeout, JsMap.get?_set] at ht ⊢
    split_ifs at ht with heq
    · omega
    · exact Nat.lt_succ_of_lt (h.fresh t callback ht)

theorem place (h : Linked owner s) {job : ActiveDestinationJob}
    (hjob : job.userId = owner job.calendarId) : Linked owner (s.place job) := by
  have hclear := h.clearStalledWatchdog job.calendarId
  have hnone := s.clearStalledWatchdog_watchdogs job.calendarId
  have hplace : s.place job =
      { (s.clearStalledWatchdog job.calendarId).setTimeout (.watchdog job) with
        activeJobsByCalendar := s.activeJobsByCalendar.set job.calendarId job
        stalledTimersByCalendar :=
          (s.clearStalledWatchdog job.calendarId).stalledTimersByCalendar.set job.calendarId
            (s.clearStalledWatchdog job.calendarId).nextTimer } := by
    rw [State.place, State.armStalledWatchdog, State.clearStalledWatchdog, State.clearStalledWatchdog]
    cases s.stalledTimersByCalendar.get? job.calendarId <;> rfl
  rw [hplace]
  refine ⟨?_, hclear.watchdogs.set hnone hclear.get?_nextTimer rfl, ?_,
    hclear.releases.set_other hclear.get?_nextTimer rfl, ?_⟩
  · intro c job' hget
    simp only [JsMap.get?_set] at hget
    split_ifs at hget with hc
    · cases hget
      exact ⟨hc, hc ▸ hjob⟩
    · exact h.active c job' hget
  · intro t job' ht
    simp only [State.setTimeout, JsMap.get?_set] at ht ⊢
    split_ifs at ht
    · cases ht
      simp
    · rw [if_neg (hclear.calendarId_ne hnone ht)]
      simpa using hclear.watched t job' ht
  · intro t callback ht
    simp only [State.setTimeout, JsMap.get?_set] at ht ⊢
    split_ifs at ht with heq
    · omega
    · exact Nat.lt_succ_of_lt (hclear.fresh t callback ht)

end Linked

/-! ## The number of active calendars -/

theorem State.activeCalendars_ne_zero_iff (s : State) (u : String) :
    s.activeCalendars u ≠ 0 ↔
      ∃ c job, s.activeJobsByCalendar.get? c = some job ∧ job.userId = u := by
  rw [State.activeCalendars, ← Nat.pos_iff_ne_zero, List.countP_pos_iff]
  simp only [JsMap.mem_values_iff, decide_eq_true_eq]
  constructor
  · rintro ⟨job, ⟨c, hc⟩, hu⟩
    exact ⟨c, job, hc, hu⟩
  · rintro ⟨c, job, hc, hu⟩
    exact ⟨job, ⟨c, hc⟩, hu⟩

namespace Linked

variable {owner : String → String} {s s' : State}

theorem activeCalendars_set (h : Linked owner s) (h' : Linked owner s') {c : String}
    {job : ActiveDestinationJob}
    (hset : s'.activeJobsByCalendar = s.activeJobsByCalendar.set c job) (u : String) :
    s'.activeCalendars u = s.activeCalendars u +
      if s.activeJobsByCalendar.get? c = none ∧ owner c = u then 1 else 0 := by
  rw [h'.activeCalendars, h.activeCalendars, hset, JsMap.keys_set]
  simp only [JsMap.get?_eq_none_iff]
  split_ifs with hmem hnew hnew
  · exact absurd hmem hnew.1
  · rfl
  · simp [List.countP_append, hnew.2]
  · have hne : owner c ≠ u := fun hu => hnew ⟨hmem, hu⟩
    simp [List.countP_append, hne]

theorem activeCalendars_erase (h : Linked owner s) (h' : Linked owner s') {c : String}
    (herase : s'.activeJobsByCalendar = s.activeJobsByCalendar.erase c) (u : String) :
    s'.activeCalendars u = s.activeCalendars u -
      if c ∈ s.activeJobsByCalendar.keys ∧ owner c = u then 1 else 0 := by
  rw [h'.activeCalendars, h.activeCalendars, herase, JsMap.keys_erase, List.countP_erase]
  simp

end Linked

/-! ## What every event keeps -/

/-- The jobs of a user are counted, and the run is held for them or for its release. -/
structure Counted (owner : String → String) (count : String → ℕ) (s : State) : Prop extends
    Linked owner s where
  counts : ∀ u, s.activeCount u = count u
  idle : ∀ u t, s.releaseTimersByUser.get? u = some t → count u = 0
  runs : ∀ u, heldAfter u s.calls =
    some (decide (count u ≠ 0 ∨ s.releaseTimersByUser.get? u ≠ none))

def Inv (owner : String → String) (s : State) : Prop := Counted owner s.activeCalendars s

namespace Counted

variable {owner : String → String} {count : String → ℕ} {s : State}

theorem releaseTimer_eq_none (h : Counted owner count s) {u : String} (hu : count u ≠ 0) :
    s.releaseTimersByUser.get? u = none := by
  cases hget : s.releaseTimersByUser.get? u with
  | none => rfl
  | some t => exact absurd (h.idle u t hget) hu

theorem clearStalledWatchdog (h : Counted owner count s) (c : String) :
    Counted owner count (s.clearStalledWatchdog c) :=
  { h.toLinked.clearStalledWatchdog c with
    counts := fun u => by simpa [State.activeCount] using h.counts u
    idle := fun u t => by simpa using h.idle u t
    runs := fun u => by simpa using h.runs u }

theorem place (h : Counted owner count s) {job : ActiveDestinationJob}
    (hjob : job.userId = owner job.calendarId) : Counted owner count (s.place job) := by
  have hplace : (s.place job).activeDestinationCountsByUser = s.activeDestinationCountsByUser ∧
      (s.place job).releaseTimersByUser = s.releaseTimersByUser ∧
      (s.place job).calls = s.calls := by
    simp [State.place, State.armStalledWatchdog, State.setTimeout]
  refine ⟨h.toLinked.place hjob, fun u => ?_, fun u t => ?_, fun u => ?_⟩
  · rw [State.activeCount, hplace.1]
    exact h.counts u
  · rw [hplace.2.1]
    exact h.idle u t
  · rw [hplace.2.1, hplace.2.2]
    exact h.runs u

theorem countSettled (h : Counted owner count s) {u : String} (hu : count u ≠ 0) :
    Counted owner (fun u' => count u' - if u = u' then 1 else 0) (s.countSettled u) := by
  have hnone := h.releaseTimer_eq_none hu
  unfold State.countSettled
  simp only [h.counts]
  split_ifs with hremaining
  · refine ⟨{ h with }, fun u' => ?_, fun u' t ht => ?_,
      fun u' => ?_⟩
    · simp only [State.activeCount, JsMap.get?_set]
      split_ifs with heq
      · rw [← heq, Option.getD_some]
      · exact h.counts u'
    · simp only [h.idle u' t ht, Nat.zero_sub]
    · rw [h.runs u']
      split_ifs with heq
      · subst heq
        simp only [ne_eq, hu, not_false_eq_true, true_or, Nat.pos_iff_ne_zero.1 hremaining]
      · rfl
  · have hone : count u = 1 := by omega
    have herase : Linked owner { s with
        activeDestinationCountsByUser := s.activeDestinationCountsByUser.erase u } :=
      { h with }
    refine ⟨herase.scheduleRelease hnone, fun u' => ?_, fun u' t ht => ?_, fun u' => ?_⟩
    · simp only [State.activeCount, State.scheduleRelease, State.setTimeout, JsMap.get?_erase]
      split_ifs with heq
      · subst heq
        simp [hone]
      · exact h.counts u'
    · simp only [State.scheduleRelease, State.setTimeout, JsMap.get?_set] at ht
      split_ifs at ht ⊢ with heq
      · subst heq
        omega
      · exact h.idle u' t ht
    · simp only [State.scheduleRelease, State.setTimeout, JsMap.get?_set, h.runs u']
      split_ifs with heq
      · subst heq
        simp [hone]
      · rfl

theorem countActive (h : Counted owner count s) (u : String) :
    Counted owner (fun u' => count u' + if u = u' then 1 else 0)
      ((s.cancelPendingRelease u).1.countActive u (s.cancelPendingRelease u).2) := by
  have hlinked := h.toLinked.cancelPendingRelease u
  have hcount : (s.cancelPendingRelease u).1.activeCount u = count u := by
    simpa [State.activeCount] using h.counts u
  have hreleases := s.cancelPendingRelease_releases u
  refine ⟨?_, fun u' => ?_, fun u' t ht => ?_, fun u' => ?_⟩
  · unfold State.countActive
    simp only
    split_ifs <;>
      exact { hlinked with }
  · have hrest := h.counts u'
    simp only [State.activeCount] at hrest hcount
    simp only [State.activeCount, State.countActive_counts, JsMap.get?_set]
    split_ifs with heq
    · rw [Option.getD_some, hcount, heq]
    · simpa using hrest
  · rw [State.countActive_releases, hreleases] at ht
    split_ifs at ht with heq
    rw [if_neg heq, h.idle u' t ht]
  · have hruns := h.runs u'
    rw [State.countActive_releases, hreleases, State.countActive_calls, hcount,
      s.cancelPendingRelease_snd u]
    by_cases heq : u = u'
    · subst heq
      cases htimer : s.releaseTimersByUser.get? u with
      | none =>
        by_cases hzero : count u = 0 <;>
          simp_all [heldAfter_call, RunCall.next]
      | some timer => simp_all [h.idle u timer htimer]
    · by_cases hbegin : count u = 0 ∧ (s.releaseTimersByUser.get? u).isSome = false
      · rw [if_pos hbegin, heldAfter_call, State.cancelPendingRelease_calls, hruns]
        simp [RunCall.next, heq]
      · rw [if_neg hbegin, State.cancelPendingRelease_calls, hruns]
        simp [heq]

theorem inv (h : Counted owner count s) (hcount : ∀ u, s.activeCalendars u = count u) :
    Inv owner s := by
  have heq : s.activeCalendars = count := funext hcount
  rw [Inv, heq]
  exact h

end Counted

namespace Inv

variable {owner : String → String} {s : State}

theorem init (owner : String → String) : Inv owner {} := by
  refine ⟨⟨?_, ?_, ?_, ?_, ?_⟩, ?_, ?_, ?_⟩ <;>
    simp [Registers, State.activeCount, State.activeCalendars, JsMap.values, heldAfter]

variable {job : ActiveDestinationJob}

theorem activeCalendars_ne_zero (h : Inv owner s) {previous : ActiveDestinationJob}
    (hjob : job.userId = owner job.calendarId)
    (hprevious : s.activeJobsByCalendar.get? job.calendarId = some previous) : s.activeCalendars job.userId ≠ 0 :=
  (s.activeCalendars_ne_zero_iff _).2
    ⟨job.calendarId, previous, hprevious, (h.active _ _ hprevious).2.trans hjob.symm⟩

theorem onSettled (h : Inv owner s) (hjob : job.userId = owner job.calendarId) : Inv owner (s.onSettled job) := by
  unfold State.onSettled
  split_ifs with hid
  · exact h
  · obtain ⟨previous, hprevious, -⟩ := Option.map_eq_some_iff.1 (not_not.1 hid)
    have hclear := h.clearStalledWatchdog job.calendarId
    have herase := hclear.toLinked.erase (s.clearStalledWatchdog_watchdogs job.calendarId)
    rw [State.clearStalledWatchdog_active] at herase
    have hcounted : Counted owner s.activeCalendars { s.clearStalledWatchdog job.calendarId with
        activeJobsByCalendar := s.activeJobsByCalendar.erase job.calendarId } :=
      ⟨herase, hclear.counts, hclear.idle, hclear.runs⟩
    have hsettled := hcounted.countSettled (h.activeCalendars_ne_zero hjob hprevious)
    refine hsettled.inv fun u => ?_
    rw [h.toLinked.activeCalendars_erase hsettled.toLinked (State.countSettled_active _ _) u, hjob]
    simp only [JsMap.mem_keys_iff.2 ⟨previous, hprevious⟩, true_and]

theorem onActive (h : Inv owner s) (hjob : job.userId = owner job.calendarId) : Inv owner (s.onActive job) := by
  simp only [State.onActive, State.cancelPendingRelease_active]
  cases hprevious : s.activeJobsByCalendar.get? job.calendarId with
  | some previous =>
    have hcancel : (s.cancelPendingRelease job.userId).1 = s := by
      have hnone := h.releaseTimer_eq_none (h.activeCalendars_ne_zero hjob hprevious)
      rw [State.cancelPendingRelease, hnone]
    simp only [hcancel]
    split_ifs
    · exact h
    · have hplace := h.place hjob
      refine hplace.inv fun u => ?_
      rw [h.toLinked.activeCalendars_set hplace.toLinked (s.place_active job) u, hprevious]
      simp
  | none =>
    have hplace := (h.countActive job.userId).place hjob
    refine hplace.inv fun u => ?_
    have hset := @Linked.activeCalendars_set _ _ _ h.toLinked hplace.toLinked job.calendarId job
    rw [hset (by simp) u, hprevious, hjob]
    simp

theorem fire_release (h : Inv owner s) {timer : ℕ} {u : String}
    (hcallback : s.timers.get? timer = some (.release u)) : Inv owner (s.fire timer) := by
  have htimer := (h.releases u timer).2 ⟨_, hcallback, rfl⟩
  have hidle := h.idle u timer htimer
  have hfire : s.fire timer = State.call { s with
      timers := s.timers.erase timer
      releaseTimersByUser := s.releaseTimersByUser.erase u } (.releaseUserRun u) := by
    simp only [State.fire, hcallback]
    exact if_pos ((h.counts u).trans hidle)
  have hlinked := h.cancelPendingRelease u
  rw [State.cancelPendingRelease, htimer] at hlinked
  rw [hfire]
  refine ⟨{ hlinked with },
    h.counts, fun u' t ht => ?_, fun u' => ?_⟩
  · simp only [State.call, JsMap.get?_erase] at ht
    split_ifs at ht
    exact h.idle u' t ht
  · rw [heldAfter_call]
    show (heldAfter u' s.calls).bind _ = some (decide (s.activeCalendars u' ≠ 0 ∨
      (s.releaseTimersByUser.erase u).get? u' ≠ none))
    rw [h.runs u', Option.bind_some]
    by_cases heq : u = u'
    · subst heq
      simp [RunCall.next, JsMap.get?_erase, hidle, htimer]
    · simp [RunCall.next, JsMap.get?_erase, heq]

theorem fire_watchdog (h : Inv owner s) {timer : ℕ} (hcallback : s.timers.get? timer = some (.watchdog job)) :
    Inv owner (s.fire timer) := by
  have hstalled := (h.watchdogs job.calendarId timer).2 ⟨_, hcallback, rfl⟩
  have hfire : s.fire timer = (s.clearStalledWatchdog job.calendarId).onSettled job := by
    simp only [State.fire, hcallback, State.clearStalledWatchdog, hstalled]
    rfl
  have hclear : Inv owner (s.clearStalledWatchdog job.calendarId) :=
    (h.clearStalledWatchdog job.calendarId).inv fun u => by simp [State.activeCalendars]
  rw [hfire]
  exact hclear.onSettled (h.active _ _ (h.watched timer job hcallback)).2

theorem fire (h : Inv owner s) (timer : ℕ) : Inv owner (s.fire timer) := by
  cases hcallback : s.timers.get? timer with
  | none => simpa only [State.fire, hcallback] using h
  | some callback =>
    cases callback with
    | watchdog job => exact h.fire_watchdog hcallback
    | release u => exact h.fire_release hcallback

/-- Every pending timer is in one of the maps, so that `close` leaves none. -/
theorem timers_close (h : Inv owner s) (t : ℕ) : s.close.timers.get? t = none := by
  rw [State.close, JsMap.get?_foldl_erase]
  split_ifs with hmem
  · rfl
  · rw [List.mem_append, not_or, JsMap.mem_values_iff, JsMap.mem_values_iff] at hmem
    cases hcallback : s.timers.get? t with
    | none => rfl
    | some callback =>
      cases callback with
      | watchdog job => exact absurd ⟨_, (h.watchdogs _ t).2 ⟨_, hcallback, rfl⟩⟩ hmem.1
      | release u => exact absurd ⟨_, (h.releases _ t).2 ⟨_, hcallback, rfl⟩⟩ hmem.2

theorem close (h : Inv owner s) : Inv owner s.close := by
  refine ⟨⟨h.active, fun k t => ?_, fun t job ht => ?_, fun k t => ?_, fun t callback ht => ?_⟩,
    h.counts, fun u t ht => ?_, fun u => ?_⟩
  · rw [h.timers_close]
    simp [State.close]
  · rw [h.timers_close] at ht
    cases ht
  · rw [h.timers_close]
    simp [State.close]
  · rw [h.timers_close] at ht
    cases ht
  · cases ht
  · have hruns := h.runs u
    have hmem : u ∈ s.releaseTimersByUser.keys ↔ s.releaseTimersByUser.get? u ≠ none := by
      rw [Ne, JsMap.get?_eq_none_iff, not_not]
    have hheld : u ∈ s.releaseTimersByUser.keys →
        decide (s.activeCalendars u ≠ 0 ∨ s.releaseTimersByUser.get? u ≠ none) = true :=
      fun hu => decide_eq_true (Or.inr (hmem.1 hu))
    show (s.calls ++ s.releaseTimersByUser.keys.map RunCall.releaseUserRun).foldlM _ false =
      some (decide (s.activeCalendars u ≠ 0 ∨ (JsMap.empty : JsMap String ℕ).get? u ≠ none))
    rw [heldAfter] at hruns
    rw [List.foldlM_append, hruns, Option.bind_eq_bind, Option.bind_some,
      foldlM_next_releases s.releaseTimersByUser.keys_nodup hheld]
    cases hget : s.releaseTimersByUser.get? u with
    | none => simp [hmem, hget]
    | some t => simp [hmem, hget, h.idle u t hget]

end Inv

/-- A job belongs to the user of its calendar. -/
def Event.Owned (owner : String → String) : Event → Prop
  | .onActive job => job.userId = owner job.calendarId
  | .onSettled job => job.userId = owner job.calendarId
  | .fire _ => True
  | .close => True

variable {owner : String → String}

theorem Inv.step {s : State} (h : Inv owner s) {event : Event} (hevent : event.Owned owner) :
    Inv owner (s.step event) := by
  cases event with
  | onActive job => exact h.onActive hevent
  | onSettled job => exact h.onSettled hevent
  | fire timer => exact h.fire timer
  | close => exact h.close

theorem Inv.run {s : State} (h : Inv owner s) {events : List Event} (hevents : ∀ event ∈ events, event.Owned owner) :
    Inv owner (s.run events) := by
  induction events generalizing s with
  | nil => exact h
  | cons event events ih =>
    exact ih (h.step (hevents event List.mem_cons_self))
      fun e he => hevents e (List.mem_cons_of_mem _ he)

/-! ## Runs -/

theorem Linked.pendingRelease_iff {s : State} (h : Linked owner s) (u : String) :
    s.PendingRelease u ↔ s.releaseTimersByUser.get? u ≠ none := by
  rw [Option.ne_none_iff_exists']
  refine exists_congr fun t => ?_
  rw [h.releases u t]
  constructor
  · exact fun ht => ⟨_, ht, rfl⟩
  · rintro ⟨callback, ht, hkey⟩
    cases callback with
    | watchdog job => cases hkey
    | release u' =>
      rw [TimerCallback.user, Option.some.injEq] at hkey
      rw [ht, hkey]

/-- The calls for a user begin and release their run in turn, and the run is held while a calendar of
theirs has an active job or its release is pending; the jobs of a user are counted. A job that is not the
active one of its calendar, such as one that was replaced, has no watchdog left, and its settlement
changes nothing. -/
theorem tracksRuns_run (owner : String → String) (events : List Event)
    (hevents : ∀ event ∈ events, event.Owned owner) (s : State) (hs : s = State.run {} events) :
    (∀ u, ∃ held, heldAfter u s.calls = some held ∧
      (held = true ↔ (∃ c job, s.activeJobsByCalendar.get? c = some job ∧ job.userId = u) ∨
        s.PendingRelease u)) ∧
    (∀ u, s.activeCount u = s.activeCalendars u) ∧
    ∀ job : ActiveDestinationJob,
      (s.activeJobsByCalendar.get? job.calendarId).map (·.id) ≠ some job.id →
        s.onSettled job = s ∧ ∀ t, s.timers.get? t ≠ some (.watchdog job) := by
  subst hs
  have h : Inv owner (State.run {} events) := (Inv.init owner).run hevents
  refine ⟨fun u => ⟨_, h.runs u, ?_⟩, h.counts, ?_⟩
  · rw [decide_eq_true_eq, State.activeCalendars_ne_zero_iff, h.toLinked.pendingRelease_iff]
  · intro job hid
    refine ⟨if_pos hid, fun t ht => hid ?_⟩
    rw [h.watched t job ht, Option.map_some]

/-- A job that was replaced is settled. -/
theorem tracksRuns_run_example :
    let replaced : ActiveDestinationJob := ⟨"calendar", "old", "user"⟩
    let job : ActiveDestinationJob := ⟨"calendar", "new", "user"⟩
    let s := State.run {} [.onActive replaced, .onActive job, .onSettled replaced]
    s.onSettled replaced = s ∧ ∀ t, s.timers.get? t ≠ some (.watchdog replaced) := by
  intro replaced job s
  have h := tracksRuns_run (fun _ => "user")
    [.onActive replaced, .onActive job, .onSettled replaced]
    (by simp [Event.Owned, replaced, job]) s rfl
  exact h.2.2 replaced (by decide)

end ActiveDestinationJobs

end Keeper
