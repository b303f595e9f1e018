import Keeper.Cron.DestinationJobs
import Mathlib.Logic.Function.Basic

/-!
# Acknowledged sync requests

Any number of runs of `runEnqueueDestinationSyncsForUsers` beside each other, other enqueues of the same jobs,
jobs that complete and users who ask again. A run deletes a request only if each destination of its user has
a job that was created after the request was made.

* `Later.runInvariant`: what others do leaves a run the facts on which it acknowledges.
* `acknowledged_isServed`: the requests that a run has deleted are served.
-/

namespace Keeper

/-! ## The table of requests -/

/-- `user_sync_requests`: `userId` is the primary key. -/
structure SyncRequestTable where
  rows : List PendingSyncRequest
  nodup_users : (rows.map (·.userId)).Nodup

namespace SyncRequestTable

theorem eq_of_userId_eq {table : SyncRequestTable} {row row' : PendingSyncRequest}
    (h : row ∈ table.rows) (h' : row' ∈ table.rows) (huser : row.userId = row'.userId) : row = row' :=
  List.inj_on_of_nodup_map table.nodup_users h h' huser

/-- `INSERT … ON CONFLICT (userId) DO UPDATE`. -/
def put (table : SyncRequestTable) (request : PendingSyncRequest) : SyncRequestTable where
  rows := request :: table.rows.filter fun row => row.userId ≠ request.userId
  nodup_users := by
    rw [List.map_cons, List.nodup_cons]
    refine ⟨fun hmem => ?_, table.nodup_users.sublist (List.filter_sublist.map _)⟩
    obtain ⟨row, hrow, huser⟩ := List.mem_map.1 hmem
    exact of_decide_eq_true (List.mem_filter.1 hrow).2 huser

/-- The rows that `DELETE … WHERE userId = … AND requestId = …` selects. -/
def selected (table : SyncRequestTable) (request : PendingSyncRequest) : List PendingSyncRequest :=
  table.rows.filter fun row => row.userId = request.userId ∧ row.requestId = request.requestId

def delete (table : SyncRequestTable) (request : PendingSyncRequest) : SyncRequestTable where
  rows := table.rows.filter fun row =>
    ¬ (row.userId = request.userId ∧ row.requestId = request.requestId)
  nodup_users := table.nodup_users.sublist (List.filter_sublist.map _)

end SyncRequestTable

/-! ## Runs -/

/-- Where a run stands between two calls. While it looks for jobs, each of its jobs has an answer or none
yet; the answers come in any order. -/
inductive EnqueuePhase
  | started
  | requested
  | listed
  | reading (reads : List (PushDestinationJob × Option (Option ℤ)))
  | adding (existingJobs : ExistingJobs) (left : List PushDestinationJob)
  | acknowledging (left : List PendingSyncRequest)
  | returned
  | failed

/-- A run of `runEnqueueDestinationSyncsForUsers`, with the rows that it has deleted. -/
structure EnqueueRun where
  call : EnqueueCall
  phase : EnqueuePhase := .started
  pendingRequests : List PendingSyncRequest := []
  destinations : List DestinationCalendarRef := []
  deleted : List PendingSyncRequest := []

namespace EnqueueRun

/-- After `getPendingRequests`. -/
def afterRequests (run : EnqueueRun) (pendingRequests : List PendingSyncRequest) : EnqueueRun :=
  { run with
    pendingRequests
    phase := if (run.call.userIds pendingRequests).isEmpty then .returned else .requested }

/-- After `getDestinations`. -/
def afterDestinations (run : EnqueueRun) (destinations : List DestinationCalendarRef) : EnqueueRun :=
  { run with
    destinations
    phase := if destinations.isEmpty then .acknowledging run.pendingRequests else .listed }

/-- After `resolvePlan`, of each user with a destination. -/
def afterPlans (localeCompare : String → String → ℤ) (run : EnqueueRun)
    (plansByUserId : String → Plan) : EnqueueRun :=
  let jobs := jobsOf localeCompare run.call run.pendingRequests plansByUserId run.destinations
  { run with
    phase :=
      if jobs.isEmpty then .acknowledging run.pendingRequests
      else .reading (jobs.map fun job => (job, none)) }

/-- After all calls of `getJob`. -/
def afterReads (run : EnqueueRun) (existingJobs : ExistingJobs) : EnqueueRun :=
  { run with phase := .adding existingJobs (existingJobs.map (·.1)) }

/-- After `addBulk`. -/
def afterAdded (run : EnqueueRun) (existingJobs : ExistingJobs) : EnqueueRun :=
  { run with phase := .acknowledging (acknowledgedRequests run.pendingRequests existingJobs) }

end EnqueueRun

/-! ## The system -/

/-- The clock, the table, the ids of all requests so far, the jobs in the queue by their ids, the jobs that
were created, and the runs. -/
structure EnqueueSystem where
  now : ℤ
  requests : SyncRequestTable
  issued : List Uuid
  jobs : String → Option ℤ
  created : List (DestinationCalendarRef × ℤ)
  runs : ℕ → EnqueueRun

namespace EnqueueSystem

def create (s : EnqueueSystem) (jobId : String) (destination : DestinationCalendarRef) :
    EnqueueSystem :=
  match s.jobs jobId with
  | some _ => s
  | none =>
    { s with
      jobs := Function.update s.jobs jobId (some s.now)
      created := (destination, s.now) :: s.created }

def setRun (s : EnqueueSystem) (i : ℕ) (run : EnqueueRun) : EnqueueSystem :=
  { s with runs := Function.update s.runs i run }

end EnqueueSystem

def PushDestinationJob.destination (job : PushDestinationJob) : DestinationCalendarRef where
  calendarId := job.data.calendarId
  userId := job.data.userId

/-- What happens next: time passes, a user asks, another process enqueues a job, a job leaves the queue, or a
run makes its next call. -/
inductive EnqueueSystem.Step (localeCompare : String → String → ℤ) (s : EnqueueSystem) :
    EnqueueSystem → Prop
  | elapse (now : ℤ) (h : s.now ≤ now) : Step localeCompare s { s with now }
  | ask (request : PendingSyncRequest) (hfresh : request.requestId ∉ s.issued)
      (hat : request.requestedAt ≤ s.now) :
      Step localeCompare s { s with
        requests := s.requests.put request
        issued := request.requestId :: s.issued }
  | enqueue (destination : DestinationCalendarRef) :
      Step localeCompare s (s.create (syncJobId destination) destination)
  | complete (jobId : String) :
      Step localeCompare s { s with jobs := Function.update s.jobs jobId none }
  | getPendingRequests (i : ℕ) (pendingRequests : List PendingSyncRequest)
      (hphase : (s.runs i).phase = .started) (hread : pendingRequests.Perm s.requests.rows) :
      Step localeCompare s (s.setRun i ((s.runs i).afterRequests pendingRequests))
  | getDestinations (i : ℕ) (destinations : List DestinationCalendarRef)
      (hphase : (s.runs i).phase = .requested) :
      Step localeCompare s (s.setRun i ((s.runs i).afterDestinations destinations))
  | resolvePlans (i : ℕ) (plansByUserId : String → Plan) (hphase : (s.runs i).phase = .listed) :
      Step localeCompare s (s.setRun i ((s.runs i).afterPlans localeCompare plansByUserId))
  | getJob (i : ℕ) (before after : List (PushDestinationJob × Option (Option ℤ)))
      (job : PushDestinationJob) (hphase : (s.runs i).phase = .reading (before ++ (job, none) :: after)) :
      Step localeCompare s (s.setRun i { s.runs i with
        phase := .reading (before ++ (job, some (s.jobs job.opts.jobId)) :: after) })
  | gotJobs (i : ℕ) (existingJobs : ExistingJobs)
      (hphase : (s.runs i).phase = .reading (existingJobs.map fun entry => (entry.1, some entry.2))) :
      Step localeCompare s (s.setRun i ((s.runs i).afterReads existingJobs))
  | addJob (i : ℕ) (existingJobs : ExistingJobs) (job : PushDestinationJob)
      (left : List PushDestinationJob) (hphase : (s.runs i).phase = .adding existingJobs (job :: left)) :
      Step localeCompare s ((s.create job.opts.jobId job.destination).setRun i
        { s.runs i with phase := .adding existingJobs left })
  | addedJobs (i : ℕ) (existingJobs : ExistingJobs)
      (hphase : (s.runs i).phase = .adding existingJobs []) :
      Step localeCompare s (s.setRun i ((s.runs i).afterAdded existingJobs))
  | acknowledge (i : ℕ) (request : PendingSyncRequest) (left : List PendingSyncRequest)
      (hphase : (s.runs i).phase = .acknowledging (request :: left)) :
      Step localeCompare s ({ s with requests := s.requests.delete request }.setRun i
        { s.runs i with
          phase := .acknowledging left
          deleted := s.requests.selected request ++ (s.runs i).deleted })
  | finish (i : ℕ) (left : List PendingSyncRequest) (hphase : (s.runs i).phase = .acknowledging left) :
      Step localeCompare s (s.setRun i { s.runs i with phase := .returned })
  | fail (i : ℕ) (hphase : ∀ left, (s.runs i).phase ≠ .acknowledging left)
      (hreturned : (s.runs i).phase ≠ .returned) :
      Step localeCompare s (s.setRun i { s.runs i with phase := .failed })

/-- No run has begun, requests are distinct and not from the future, and the jobs in the queue were
created. -/
structure EnqueueSystem.Starts (s : EnqueueSystem) : Prop where
  runs : ∀ i, s.runs i = { call := (s.runs i).call }
  nodup_ids : (s.requests.rows.map (·.requestId)).Nodup
  issued : ∀ row ∈ s.requests.rows, row.requestId ∈ s.issued
  past : ∀ row ∈ s.requests.rows, row.requestedAt ≤ s.now
  jobs : ∀ jobId timestamp, s.jobs jobId = some timestamp →
    ∃ destination, syncJobId destination = jobId ∧ (destination, timestamp) ∈ s.created

inductive EnqueueSystem.Reaches (localeCompare : String → String → ℤ) : EnqueueSystem → Prop
  | start {s : EnqueueSystem} (h : s.Starts) : Reaches localeCompare s
  | step {s s' : EnqueueSystem} (h : Reaches localeCompare s) (hstep : s.Step localeCompare s') :
      Reaches localeCompare s'

/-! ## What holds in between -/

namespace EnqueueSystem

/-- What holds of the table, the queue and the clock. -/
structure Sound (s : EnqueueSystem) : Prop where
  nodup_ids : (s.requests.rows.map (·.requestId)).Nodup
  issued : ∀ row ∈ s.requests.rows, row.requestId ∈ s.issued
  past : ∀ row ∈ s.requests.rows, row.requestedAt ≤ s.now
  jobs : ∀ jobId timestamp, s.jobs jobId = some timestamp →
    ∃ destination, syncJobId destination = jobId ∧ (destination, timestamp) ∈ s.created

/-- What any step does to the table, the queue and the clock. -/
structure Later (s s' : EnqueueSystem) : Prop where
  now : s.now ≤ s'.now
  issued : s.issued ⊆ s'.issued
  created : s.created ⊆ s'.created
  jobs : ∀ jobId timestamp, s'.jobs jobId = some timestamp →
    s.jobs jobId = some timestamp ∨ s.now ≤ timestamp
  rows : ∀ row ∈ s'.requests.rows, row ∈ s.requests.rows ∨ row.requestId ∉ s.issued

variable {s s' : EnqueueSystem}

theorem Later.refl (s : EnqueueSystem) : s.Later s :=
  ⟨le_refl _, List.Subset.refl _, List.Subset.refl _, fun _ _ h => Or.inl h, fun _ h => Or.inl h⟩

theorem later_create (s : EnqueueSystem) (jobId : String) (destination : DestinationCalendarRef) :
    s.Later (s.create jobId destination) := by
  unfold create
  split
  · exact Later.refl s
  · refine ⟨le_refl _, List.Subset.refl _, List.subset_cons_self _ _, fun id timestamp h => ?_,
      fun _ h => Or.inl h⟩
    dsimp only at h
    rw [Function.update_apply] at h
    split_ifs at h
    · exact Or.inr (Option.some.inj h).le
    · exact Or.inl h

theorem Sound.create (h : s.Sound) {jobId : String} {destination : DestinationCalendarRef}
    (hid : jobId = syncJobId destination) : (s.create jobId destination).Sound := by
  unfold EnqueueSystem.create
  split
  · exact h
  · refine ⟨h.nodup_ids, h.issued, h.past, fun id timestamp hjob => ?_⟩
    dsimp only at hjob
    rw [Function.update_apply] at hjob
    split_ifs at hjob with hsame
    · obtain rfl := Option.some.inj hjob
      exact ⟨destination, hid.symm.trans hsame.symm, List.mem_cons_self⟩
    · obtain ⟨destination', hid', hcreated⟩ := h.jobs id timestamp hjob
      exact ⟨destination', hid', List.mem_cons_of_mem _ hcreated⟩

/-- A job that is added is present then: it was created, or is found. -/
theorem jobs_create (s : EnqueueSystem) (jobId : String) (destination : DestinationCalendarRef) :
    ∃ timestamp, (s.create jobId destination).jobs jobId = some timestamp ∧
      (s.jobs jobId = some timestamp ∨ timestamp = s.now) := by
  unfold create
  cases hjob : s.jobs jobId with
  | some timestamp => exact ⟨timestamp, hjob, Or.inl rfl⟩
  | none => exact ⟨s.now, Function.update_self _ _ _, Or.inr rfl⟩

/-! ### What a run relies on -/

/-- A job for the destination of an id was created no earlier than some requests were made. -/
def Serves (s : EnqueueSystem) (pendingRequests : List PendingSyncRequest) (jobId : String) : Prop :=
  ∃ destination timestamp, syncJobId destination = jobId ∧ (destination, timestamp) ∈ s.created ∧
    ∀ request ∈ pendingRequests, request.requestedAt ≤ timestamp

/-- What an answer of `getJob` means from then on: the job that was found was created, and where none was
found, none that is older than the requests comes to be. -/
def Found (s : EnqueueSystem) (pendingRequests : List PendingSyncRequest) (jobId : String) :
    Option ℤ → Prop
  | some timestamp =>
    ∃ destination, syncJobId destination = jobId ∧ (destination, timestamp) ∈ s.created
  | none => ∀ timestamp, s.jobs jobId = some timestamp →
    ∀ request ∈ pendingRequests, request.requestedAt ≤ timestamp

/-- Each destination of a user who has asked has a job, under its own id. -/
structure Covers (pendingRequests : List PendingSyncRequest)
    (destinations : List DestinationCalendarRef) (jobs : List PushDestinationJob) : Prop where
  ids : ∀ job ∈ jobs, job.opts.jobId = syncJobId job.destination
  exists_job : ∀ request ∈ pendingRequests, ∀ destination ∈ destinations,
    destination.userId = request.userId → ∃ job ∈ jobs,
      job.opts.jobId = syncJobId destination ∧ job.data.userId = request.userId

/-- A request is served: each destination of its user has a job that was created after it was made. -/
def IsServed (s : EnqueueSystem) (run : EnqueueRun) (request : PendingSyncRequest) : Prop :=
  ∀ destination ∈ run.destinations, destination.userId = request.userId →
    ∃ timestamp, (destination, timestamp) ∈ s.created ∧ request.requestedAt ≤ timestamp

def Stands (s : EnqueueSystem) (run : EnqueueRun) : EnqueuePhase → Prop
  | .reading reads => run.deleted = [] ∧ Covers run.pendingRequests run.destinations (reads.map (·.1)) ∧
    ∀ job answer, (job, some answer) ∈ reads →
      s.Found run.pendingRequests job.opts.jobId answer
  | .adding existingJobs left => run.deleted = [] ∧
    Covers run.pendingRequests run.destinations (existingJobs.map (·.1)) ∧
    (∀ job ∈ left, job ∈ existingJobs.map (·.1)) ∧
    (∀ job answer, (job, answer) ∈ existingJobs →
      s.Found run.pendingRequests job.opts.jobId answer) ∧
    ∀ job, (job, none) ∈ existingJobs → job ∉ left → s.Serves run.pendingRequests job.opts.jobId
  | .acknowledging left => ∀ request ∈ left, request ∈ run.pendingRequests ∧ s.IsServed run request
  | .returned => True
  | _ => run.deleted = []

structure RunInvariant (s : EnqueueSystem) (run : EnqueueRun) : Prop where
  past : ∀ request ∈ run.pendingRequests, request.requestedAt ≤ s.now
  issued : ∀ request ∈ run.pendingRequests, request.requestId ∈ s.issued
  same : ∀ request ∈ run.pendingRequests, ∀ row ∈ s.requests.rows,
    row.requestId = request.requestId → row = request
  one : ∀ request ∈ run.pendingRequests, ∀ request' ∈ run.pendingRequests,
    request.userId = request'.userId → request = request'
  stands : s.Stands run run.phase
  served : ∀ row ∈ run.deleted, s.IsServed run row

theorem IsServed.later (h : s.Later s') {run : EnqueueRun} {request : PendingSyncRequest}
    (hserved : s.IsServed run request) : s'.IsServed run request := by
  intro destination hdestination huser
  obtain ⟨timestamp, hcreated, hat⟩ := hserved destination hdestination huser
  exact ⟨timestamp, h.created hcreated, hat⟩

theorem Serves.later (h : s.Later s') {pendingRequests : List PendingSyncRequest} {jobId : String}
    (hserves : s.Serves pendingRequests jobId) : s'.Serves pendingRequests jobId := by
  obtain ⟨destination, timestamp, hid, hcreated, hat⟩ := hserves
  exact ⟨destination, timestamp, hid, h.created hcreated, hat⟩

theorem Found.later (h : s.Later s') {pendingRequests : List PendingSyncRequest} {jobId : String}
    (hpast : ∀ request ∈ pendingRequests, request.requestedAt ≤ s.now) {answer : Option ℤ}
    (hfound : s.Found pendingRequests jobId answer) : s'.Found pendingRequests jobId answer := by
  cases answer with
  | some timestamp =>
    obtain ⟨destination, hid, hcreated⟩ := hfound
    exact ⟨destination, hid, h.created hcreated⟩
  | none =>
    intro timestamp hjob request hrequest
    rcases h.jobs jobId timestamp hjob with hbefore | hnew
    · exact hfound timestamp hbefore request hrequest
    · exact (hpast request hrequest).trans hnew

/-- **What others do** leaves a run the facts that it relies on. -/
theorem Later.runInvariant (h : s.Later s') {run : EnqueueRun} (hrun : s.RunInvariant run) :
    s'.RunInvariant run := by
  refine ⟨fun request hrequest => (hrun.past request hrequest).trans h.now,
    fun request hrequest => h.issued (hrun.issued request hrequest),
    fun request hrequest row hrow hid => ?_, hrun.one, ?_,
    fun row hrow => (hrun.served row hrow).later h⟩
  · rcases h.rows row hrow with hbefore | hfresh
    · exact hrun.same request hrequest row hbefore hid
    · exact absurd (hid ▸ hrun.issued request hrequest) hfresh
  · have hstands := hrun.stands
    revert hstands
    cases run.phase with
    | reading reads =>
      rintro ⟨hdeleted, hcovers, hfound⟩
      exact ⟨hdeleted, hcovers, fun job answer hread => (hfound job answer hread).later h hrun.past⟩
    | adding existingJobs left =>
      rintro ⟨hdeleted, hcovers, hleft, hfound, hserves⟩
      exact ⟨hdeleted, hcovers, hleft,
        fun job answer hread => (hfound job answer hread).later h hrun.past,
        fun job hread hadded => (hserves job hread hadded).later h⟩
    | acknowledging left =>
      exact fun hleft request hrequest =>
        ⟨(hleft request hrequest).1, (hleft request hrequest).2.later h⟩
    | started => exact id
    | requested => exact id
    | listed => exact id
    | returned => exact id
    | failed => exact id

structure Invariant (s : EnqueueSystem) : Prop where
  sound : s.Sound
  runs : ∀ i, s.RunInvariant (s.runs i)

/-- A run that goes on, after something has happened to the rest of the system. -/
theorem Invariant.setRun (h : s.Invariant) (hlater : s.Later s') (hsound : s'.Sound)
    (hruns : s'.runs = s.runs) (i : ℕ) {run : EnqueueRun} (hrun : s'.RunInvariant run) :
    (s'.setRun i run).Invariant := by
  have hset : s'.Later (s'.setRun i run) := ⟨le_refl _, List.Subset.refl _, List.Subset.refl _,
    fun _ _ hjob => Or.inl hjob, fun _ hrow => Or.inl hrow⟩
  refine ⟨⟨hsound.nodup_ids, hsound.issued, hsound.past, hsound.jobs⟩, fun k => hset.runInvariant ?_⟩
  change s'.RunInvariant (Function.update s'.runs i run k)
  rw [Function.update_apply]
  split_ifs with hk
  · exact hrun
  · rw [hruns]
    exact hlater.runInvariant (h.runs k)

theorem Invariant.later (h : s.Invariant) (hlater : s.Later s') (hsound : s'.Sound)
    (hruns : s'.runs = s.runs) : s'.Invariant :=
  ⟨hsound, fun i => hruns ▸ hlater.runInvariant (h.runs i)⟩

theorem RunInvariant.goesOn {run : EnqueueRun} (h : s.RunInvariant run) {phase : EnqueuePhase}
    (hstands : s.Stands run phase) : s.RunInvariant { run with phase } :=
  ⟨h.past, h.issued, h.same, h.one, hstands, h.served⟩

/-- **A job has been added**, or found to be present when it was to be. -/
theorem serves_create (hsound : s.Sound) {job : PushDestinationJob}
    (hid : job.opts.jobId = syncJobId job.destination) {pendingRequests : List PendingSyncRequest}
    (hpast : ∀ request ∈ pendingRequests, request.requestedAt ≤ s.now)
    (hfound : s.Found pendingRequests job.opts.jobId none) :
    (s.create job.opts.jobId job.destination).Serves pendingRequests job.opts.jobId := by
  obtain ⟨timestamp, hjob, hwhen⟩ := jobs_create s job.opts.jobId job.destination
  obtain ⟨destination, hdestination, hcreated⟩ := (hsound.create hid).jobs _ _ hjob
  refine ⟨destination, timestamp, hdestination, hcreated, fun request hrequest => ?_⟩
  rcases hwhen with hbefore | rfl
  · exact hfound timestamp hbefore request hrequest
  · exact hpast request hrequest

/-- **What a run may acknowledge** when all of its jobs are added. -/
theorem isServed_of_acknowledged {run : EnqueueRun} (hrun : s.RunInvariant run)
    {existingJobs : ExistingJobs} (hstands : s.Stands run (.adding existingJobs []))
    {request : PendingSyncRequest}
    (hrequest : request ∈ acknowledgedRequests run.pendingRequests existingJobs) :
    request ∈ run.pendingRequests ∧ s.IsServed run request := by
  obtain ⟨-, hcovers, -, hfound, hserves⟩ := hstands
  obtain ⟨hpending, hold⟩ := mem_acknowledged hrun.one hrequest
  refine ⟨hpending, fun destination hdestination huser => ?_⟩
  obtain ⟨job, hjob, hid, hjobUser⟩ := hcovers.exists_job request hpending destination hdestination huser
  obtain ⟨⟨job, answer⟩, hread, rfl⟩ := List.mem_map.1 hjob
  cases answer with
  | none =>
    obtain ⟨destination', timestamp, hid', hcreated, hat⟩ := hserves job hread List.not_mem_nil
    obtain rfl := syncJobId_injective (hid'.trans hid)
    exact ⟨timestamp, hcreated, hat request hpending⟩
  | some timestamp =>
    obtain ⟨destination', hid', hcreated⟩ := hfound job (some timestamp) hread
    obtain rfl := syncJobId_injective (hid'.trans hid)
    exact ⟨timestamp, hcreated, hold job timestamp hread hjobUser⟩

/-- **One step.** -/
theorem Invariant.step {localeCompare : String → String → ℤ} (h : s.Invariant)
    (hstep : s.Step localeCompare s') : s'.Invariant := by
  cases hstep with
  | elapse now hnow =>
    refine h.later ⟨hnow, List.Subset.refl _, List.Subset.refl _, fun _ _ hjob => Or.inl hjob,
      fun _ hrow => Or.inl hrow⟩ ⟨h.sound.nodup_ids, h.sound.issued, fun row hrow => ?_, h.sound.jobs⟩ rfl
    exact (h.sound.past row hrow).trans hnow
  | ask request hfresh hat =>
    have hrow : ∀ row ∈ (s.requests.put request).rows, row = request ∨ row ∈ s.requests.rows := by
      intro row hmem
      rcases List.mem_cons.1 hmem with rfl | hmem
      · exact Or.inl rfl
      · exact Or.inr (List.mem_of_mem_filter hmem)
    refine h.later ⟨le_refl _, List.subset_cons_self _ _, List.Subset.refl _,
      fun _ _ hjob => Or.inl hjob, fun row hmem => ?_⟩ ⟨?_, fun row hmem => ?_, fun row hmem => ?_,
      h.sound.jobs⟩ rfl
    · rcases hrow row hmem with rfl | hbefore
      · exact Or.inr hfresh
      · exact Or.inl hbefore
    · refine List.nodup_cons.2 ⟨fun hmem => ?_, h.sound.nodup_ids.sublist (List.filter_sublist.map _)⟩
      obtain ⟨row, hbefore, hid⟩ := List.mem_map.1 hmem
      have hid : row.requestId = request.requestId := hid
      exact hfresh (hid ▸ h.sound.issued row (List.mem_of_mem_filter hbefore))
    · rcases hrow row hmem with rfl | hbefore
      · exact List.mem_cons_self
      · exact List.mem_cons_of_mem _ (h.sound.issued row hbefore)
    · rcases hrow row hmem with rfl | hbefore
      · exact hat
      · exact h.sound.past row hbefore
  | enqueue destination =>
    refine h.later (later_create s _ _) (h.sound.create rfl) ?_
    unfold create
    split <;> rfl
  | complete jobId =>
    have hjob : ∀ id timestamp, Function.update s.jobs jobId none id = some timestamp →
        s.jobs id = some timestamp := by
      intro id timestamp hjob
      rw [Function.update_apply] at hjob
      split_ifs at hjob
      exact hjob
    exact h.later ⟨le_refl _, List.Subset.refl _, List.Subset.refl _,
      fun id timestamp hpresent => Or.inl (hjob id timestamp hpresent), fun _ hrow => Or.inl hrow⟩
      ⟨h.sound.nodup_ids, h.sound.issued, h.sound.past,
        fun id timestamp hpresent => h.sound.jobs id timestamp (hjob id timestamp hpresent)⟩ rfl
  | getPendingRequests i pendingRequests hphase hread =>
    have hrun := h.runs i
    have hmem : ∀ request ∈ pendingRequests, request ∈ s.requests.rows := fun _ => hread.mem_iff.1
    have hdeleted : (s.runs i).deleted = [] := by
      have hstands := hrun.stands
      rw [hphase] at hstands
      exact hstands
    refine h.setRun (Later.refl s) h.sound rfl i ⟨fun request hrequest => h.sound.past _ (hmem _ hrequest),
      fun request hrequest => h.sound.issued _ (hmem _ hrequest), fun request hrequest row hrow hid =>
        List.inj_on_of_nodup_map h.sound.nodup_ids hrow (hmem _ hrequest) hid,
      fun request hrequest request' hrequest' huser =>
        s.requests.eq_of_userId_eq (hmem _ hrequest) (hmem _ hrequest') huser, ?_, ?_⟩
    · unfold EnqueueRun.afterRequests
      dsimp only
      split_ifs
      · trivial
      · exact hdeleted
    · intro row hrow
      change row ∈ (s.runs i).deleted at hrow
      rw [hdeleted] at hrow
      exact absurd hrow List.not_mem_nil
  | getDestinations i destinations hphase =>
    have hrun := h.runs i
    have hdeleted : (s.runs i).deleted = [] := by
      have hstands := hrun.stands
      rw [hphase] at hstands
      exact hstands
    refine h.setRun (Later.refl s) h.sound rfl i ⟨hrun.past, hrun.issued, hrun.same, hrun.one, ?_, ?_⟩
    · unfold EnqueueRun.afterDestinations
      dsimp only
      split_ifs with hnone
      · rw [List.isEmpty_iff] at hnone
        refine fun request hrequest => ⟨hrequest, fun destination hdestination _ => ?_⟩
        rw [hnone] at hdestination
        exact absurd hdestination List.not_mem_nil
      · exact hdeleted
    · intro row hrow
      change row ∈ (s.runs i).deleted at hrow
      rw [hdeleted] at hrow
      exact absurd hrow List.not_mem_nil
  | resolvePlans i plansByUserId hphase =>
    have hrun := h.runs i
    have hdeleted : (s.runs i).deleted = [] := by
      have hstands := hrun.stands
      rw [hphase] at hstands
      exact hstands
    refine h.setRun (Later.refl s) h.sound rfl i (hrun.goesOn ?_)
    split_ifs with hnone
    · rw [List.isEmpty_iff] at hnone
      refine fun request hrequest => ⟨hrequest, fun destination hdestination huser => ?_⟩
      obtain ⟨job, hjob, -⟩ := exists_job hrequest hdestination huser
      rw [hnone] at hjob
      exact absurd hjob List.not_mem_nil
    · rw [Stands, List.map_map]
      refine ⟨hdeleted, ⟨fun job hjob => ?_, fun request hrequest destination hdestination huser => ?_⟩,
        fun job answer hread => ?_⟩
      · rw [Function.comp_def, List.map_id'] at hjob
        obtain ⟨plan, -, hbuilt⟩ := List.mem_flatMap.1 hjob
        obtain ⟨destination, -, rfl⟩ := List.mem_map.1 hbuilt
        rfl
      · rw [Function.comp_def, List.map_id']
        exact exists_job hrequest hdestination huser
      · obtain ⟨job', -, hread⟩ := List.mem_map.1 hread
        cases (Prod.mk.inj hread).2
  | getJob i before after job hphase =>
    have hrun := h.runs i
    have hstands := hrun.stands
    rw [hphase] at hstands
    obtain ⟨hdeleted, hcovers, hfound⟩ := hstands
    refine h.setRun (Later.refl s) h.sound rfl i (hrun.goesOn ⟨hdeleted, ?_, fun job' answer hread => ?_⟩)
    · simpa only [List.map_append, List.map_cons] using hcovers
    · rcases List.mem_append.1 hread with hbefore | hrest
      · exact hfound job' answer (List.mem_append_left _ hbefore)
      rcases List.mem_cons.1 hrest with hthis | hafter
      · obtain ⟨rfl, hanswer⟩ := Prod.mk.inj hthis
        obtain rfl := Option.some.inj hanswer
        cases hjob : s.jobs job'.opts.jobId with
        | some timestamp => exact h.sound.jobs _ _ hjob
        | none =>
          intro timestamp hpresent
          rw [hjob] at hpresent
          cases hpresent
      · exact hfound job' answer (List.mem_append_right _ (List.mem_cons_of_mem _ hafter))
  | gotJobs i existingJobs hphase =>
    have hrun := h.runs i
    have hstands := hrun.stands
    rw [hphase] at hstands
    obtain ⟨hdeleted, hcovers, hfound⟩ := hstands
    rw [List.map_map] at hcovers
    refine h.setRun (Later.refl s) h.sound rfl i (hrun.goesOn ⟨hdeleted, hcovers, fun job hjob => hjob,
      fun job answer hread => hfound job answer ?_, fun job hread hadded => ?_⟩)
    · exact List.mem_map_of_mem (f := fun entry => (entry.1, some entry.2)) hread
    · exact absurd (List.mem_map_of_mem (f := Prod.fst) hread) hadded
  | addJob i existingJobs job left hphase =>
    have hrun := h.runs i
    have hstands := hrun.stands
    rw [hphase] at hstands
    obtain ⟨hdeleted, hcovers, hleft, hfound, hserves⟩ := hstands
    have hid := hcovers.ids job (hleft job List.mem_cons_self)
    have hlater := later_create s job.opts.jobId job.destination
    have hruns : (s.create job.opts.jobId job.destination).runs = s.runs := by
      unfold create
      split <;> rfl
    refine h.setRun hlater (h.sound.create hid) hruns i ((hlater.runInvariant hrun).goesOn ⟨hdeleted, hcovers,
      fun job' hjob' => hleft job' (List.mem_cons_of_mem _ hjob'),
      fun job' answer hread => (hfound job' answer hread).later hlater hrun.past,
      fun job' hread hadded => ?_⟩)
    by_cases hjob : job' = job
    · subst hjob
      exact serves_create h.sound hid hrun.past (hfound job' none hread)
    · exact (hserves job' hread fun hmem =>
        (List.mem_cons.1 hmem).elim hjob hadded).later hlater
  | addedJobs i existingJobs hphase =>
    have hrun := h.runs i
    have hstands := hrun.stands
    rw [hphase] at hstands
    exact h.setRun (Later.refl s) h.sound rfl i (hrun.goesOn fun request hrequest =>
      isServed_of_acknowledged hrun hstands hrequest)
  | acknowledge i request left hphase =>
    have hrun := h.runs i
    have hstands := hrun.stands
    rw [hphase] at hstands
    have hsub : (s.requests.delete request).rows ⊆ s.requests.rows :=
      fun _ hrow => List.mem_of_mem_filter hrow
    have hlater : s.Later { s with requests := s.requests.delete request } :=
      ⟨le_refl _, List.Subset.refl _, List.Subset.refl _, fun _ _ hjob => Or.inl hjob,
        fun row hrow => Or.inl (hsub hrow)⟩
    have hsound : { s with requests := s.requests.delete request : EnqueueSystem }.Sound :=
      ⟨h.sound.nodup_ids.sublist (List.filter_sublist.map _),
        fun row hrow => h.sound.issued row (hsub hrow), fun row hrow => h.sound.past row (hsub hrow),
        h.sound.jobs⟩
    have hafter := hlater.runInvariant hrun
    obtain ⟨hpending, hserved⟩ := hstands request List.mem_cons_self
    refine h.setRun hlater hsound rfl i ⟨hafter.past, hafter.issued, hafter.same, hafter.one,
      fun request' hrequest' => hstands request' (List.mem_cons_of_mem _ hrequest'), fun row hrow => ?_⟩
    rcases List.mem_append.1 hrow with hselected | hbefore
    · -- the row with the id of the request is the one that the run has read
      obtain ⟨hmem, hmatch⟩ := List.mem_filter.1 hselected
      obtain rfl := hrun.same request hpending row hmem (of_decide_eq_true hmatch).2
      exact hserved
    · exact hrun.served row hbefore
  | finish i left hphase =>
    exact h.setRun (Later.refl s) h.sound rfl i ((h.runs i).goesOn trivial)
  | fail i hphase hreturned =>
    have hrun := h.runs i
    refine h.setRun (Later.refl s) h.sound rfl i (hrun.goesOn ?_)
    have hstands := hrun.stands
    cases hrunPhase : (s.runs i).phase with
    | acknowledging left => exact absurd hrunPhase (hphase left)
    | returned => exact absurd hrunPhase hreturned
    | reading reads =>
      rw [hrunPhase] at hstands
      exact hstands.1
    | adding existingJobs left =>
      rw [hrunPhase] at hstands
      exact hstands.1
    | started => rwa [hrunPhase] at hstands
    | requested => rwa [hrunPhase] at hstands
    | listed => rwa [hrunPhase] at hstands
    | failed => rwa [hrunPhase] at hstands

/-- **Every run.** -/
theorem Reaches.invariant {localeCompare : String → String → ℤ} (h : Reaches localeCompare s) :
    s.Invariant := by
  induction h with
  | start h =>
    refine ⟨⟨h.nodup_ids, h.issued, h.past, h.jobs⟩, fun i => ?_⟩
    rw [h.runs i]
    exact ⟨nofun, nofun, nofun, nofun, rfl, nofun⟩
  | step _ hstep ih => exact ih.step hstep

/-- **An acknowledged request is served**, and a run that has failed has acknowledged none. -/
theorem acknowledged_isServed {localeCompare : String → String → ℤ} (h : Reaches localeCompare s)
    (i : ℕ) : (∀ row ∈ (s.runs i).deleted, ∀ destination ∈ (s.runs i).destinations,
      destination.userId = row.userId →
        ∃ timestamp, (destination, timestamp) ∈ s.created ∧ row.requestedAt ≤ timestamp) ∧
      ((s.runs i).phase = .failed → (s.runs i).deleted = []) := by
  have hrun := h.invariant.runs i
  refine ⟨hrun.served, fun hphase => ?_⟩
  have hstands := hrun.stands
  rw [hphase] at hstands
  exact hstands

namespace Example

/-- The id of a calendar and of a request. -/
def uuid : Uuid := ⟨"00000000-0000-0000-0000-000000000000", by decide⟩

def asked : PendingSyncRequest := ⟨uuid, 4, "user"⟩

def destination : DestinationCalendarRef := ⟨uuid, "user"⟩

/-- A run is to begin. -/
def idle : EnqueueSystem where
  now := 5
  requests := ⟨[asked], by decide⟩
  issued := [uuid]
  jobs := fun _ => none
  created := []
  runs := fun _ => { call := { candidateUserIds := [] } }

def job : PushDestinationJob :=
  pushDestinationJob { candidateUserIds := [] } .free destination

def run (phase : EnqueuePhase) : EnqueueRun where
  call := { candidateUserIds := [] }
  phase := phase
  pendingRequests := [asked]
  destinations := [destination]

def added : EnqueueSystem :=
  (((((((idle.setRun 0 ((idle.runs 0).afterRequests [asked])).setRun 0
    (run .listed)).setRun 0 (run (.reading [(job, none)]))).setRun 0
      (run (.reading [(job, some none)]))).setRun 0 (run (.adding [(job, none)] [job]))).create
        job.opts.jobId job.destination).setRun 0 (run (.adding [(job, none)] []))).setRun 0
          (run (.acknowledging [asked]))

def acknowledged : EnqueueSystem :=
  { added with requests := added.requests.delete asked }.setRun 0
    { run (.acknowledging []) with deleted := [asked] }

theorem reaches_acknowledged : Reaches Text.compareUnits acknowledged := by
  have hidle : Reaches Text.compareUnits idle :=
    .start ⟨fun _ => rfl, by decide, by decide, by decide, fun _ _ h => by cases h⟩
  have hasked := hidle.step (.getPendingRequests 0 [asked] rfl (List.Perm.refl _))
  have hlisted := hasked.step (.getDestinations 0 [destination] rfl)
  have hplanned := hlisted.step (.resolvePlans 0 (fun _ => .free) rfl)
  have hread := hplanned.step (.getJob 0 [] [] job rfl)
  have hgot := hread.step (.gotJobs 0 [(job, none)] rfl)
  have hadded := hgot.step (.addJob 0 [(job, none)] job [] rfl)
  have hall := hadded.step (.addedJobs 0 [(job, none)] rfl)
  exact hall.step (.acknowledge 0 asked [] rfl)

end Example

theorem acknowledged_isServed_example :
    (∀ row ∈ (Example.acknowledged.runs 0).deleted,
      ∀ destination ∈ (Example.acknowledged.runs 0).destinations, destination.userId = row.userId →
        ∃ timestamp, (destination, timestamp) ∈ Example.acknowledged.created ∧
          row.requestedAt ≤ timestamp) ∧
      ((Example.acknowledged.runs 0).phase = .failed → (Example.acknowledged.runs 0).deleted = []) :=
  acknowledged_isServed Example.reaches_acknowledged 0

end EnqueueSystem

end Keeper
