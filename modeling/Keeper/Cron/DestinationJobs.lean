import Keeper.Foundations.JsArray
import Keeper.Foundations.JsMap
import Keeper.Foundations.Text

/-!
# Jobs that sync destinations

`enqueue-destination-syncs-core.ts` and `push-destination-jobs.ts`: the users, plans and jobs of a run, and
the requests that it may acknowledge after it has looked for jobs that are in the queue already. What is only
logged is left out.

* `syncJobId_injective`: the id of a job names one destination.
* `exists_job`: a destination of a user who has asked has a job.
* `mem_acknowledged`: an acknowledged request is no older than any job that was found for its user.
-/

namespace Keeper

open JsArray

/-! ## Jobs -/

/-- The text of a value of type `uuid`. -/
structure Uuid where
  text : String
  length_text : text.length = 36
  deriving DecidableEq

inductive Plan
  | free
  | pro
  deriving DecidableEq

inductive PushSyncTrigger
  | cron
  | push
  deriving DecidableEq

structure DestinationCalendarRef where
  calendarId : Uuid
  userId : String
  deriving DecidableEq

structure PushSyncJobPayload where
  calendarId : Uuid
  userId : String
  plan : Plan
  correlationId : String
  trigger : PushSyncTrigger
  webhookReceivedAt : Option ℤ := none
  deriving DecidableEq

structure PushDestinationJobOptions where
  jobId : String
  priority : ℕ
  removeOnComplete : Bool := true
  removeOnFail : Bool := true
  deriving DecidableEq

structure PushDestinationJob where
  data : PushSyncJobPayload
  name : String
  opts : PushDestinationJobOptions
  deriving DecidableEq

def jobPriorityByTrigger : PushSyncTrigger → ℕ
  | .push => 1
  | .cron => 2

def syncJobId (destination : DestinationCalendarRef) : String :=
  "sync-" ++ destination.userId ++ "-" ++ destination.calendarId.text

/-- **The id of a job names one destination**: a `uuid` has a fixed length. -/
theorem syncJobId_injective {d d' : DestinationCalendarRef} (h : syncJobId d = syncJobId d') :
    d = d' := by
  obtain ⟨⟨text, hlength⟩, userId⟩ := d
  obtain ⟨⟨text', hlength'⟩, userId'⟩ := d'
  have hlist := congrArg String.toList h
  simp only [syncJobId, String.toList_append, List.append_assoc] at hlist
  have hrest := List.append_cancel_left hlist
  rw [← List.append_assoc, ← List.append_assoc] at hrest
  have htexts : text.toList.length = text'.toList.length := by
    rw [String.length_toList, String.length_toList, hlength, hlength']
  obtain ⟨husers, htext⟩ := List.append_inj' hrest htexts
  obtain rfl := String.toList_inj.1 htext
  obtain rfl := String.toList_inj.1 (List.append_cancel_right husers)
  rfl

/-! ## The jobs of a run -/

structure PendingSyncRequest where
  requestId : Uuid
  requestedAt : ℤ
  userId : String
  deriving DecidableEq

/-- What a run of `runEnqueueDestinationSyncsForUsers` is called with, and the id that it mints. -/
structure EnqueueCall where
  candidateUserIds : List String
  trigger : PushSyncTrigger := .cron
  correlationIdByUserId : String → Option String := fun _ => none
  webhookReceivedAtByUserId : String → Option ℤ := fun _ => none
  mintedCorrelationId : String := ""

def EnqueueCall.userIds (c : EnqueueCall) (pendingRequests : List PendingSyncRequest) : List String :=
  toSorted Text.compareUnits (c.candidateUserIds ++ pendingRequests.map (·.userId)).dedup

def EnqueueCall.resolveCorrelationId (c : EnqueueCall) (userId : String) : String :=
  (c.correlationIdByUserId userId).getD c.mintedCorrelationId

section Jobs

-- `String.prototype.localeCompare`
variable (localeCompare : String → String → ℤ)

def pushDestinationJob (c : EnqueueCall) (plan : Plan) (destination : DestinationCalendarRef) :
    PushDestinationJob where
  name := syncJobId destination
  data :=
    { calendarId := destination.calendarId
      userId := destination.userId
      plan
      correlationId := c.resolveCorrelationId destination.userId
      trigger := c.trigger
      webhookReceivedAt := c.webhookReceivedAtByUserId destination.userId }
  opts := { jobId := syncJobId destination, priority := jobPriorityByTrigger c.trigger }

def buildPushDestinationJobs (c : EnqueueCall) (destinations : List DestinationCalendarRef)
    (plan : Plan) : List PushDestinationJob :=
  (toSorted (fun first second : DestinationCalendarRef =>
    firstNonzero (localeCompare first.userId second.userId)
      (localeCompare first.calendarId.text second.calendarId.text)) destinations).map
        (pushDestinationJob c plan)

/-- The destinations of users who have asked or are on the plan `pro`. -/
def eligibleDestinations (pendingRequests : List PendingSyncRequest) (plansByUserId : String → Plan)
    (destinations : List DestinationCalendarRef) : List DestinationCalendarRef :=
  destinations.filter fun destination =>
    (pendingRequests.map (·.userId)).contains destination.userId ||
      plansByUserId destination.userId = .pro

def jobsOf (c : EnqueueCall) (pendingRequests : List PendingSyncRequest)
    (plansByUserId : String → Plan) (destinations : List DestinationCalendarRef) :
    List PushDestinationJob :=
  [Plan.free, Plan.pro].flatMap fun plan =>
    buildPushDestinationJobs localeCompare c
      ((eligibleDestinations pendingRequests plansByUserId destinations).filter
        fun destination => plansByUserId destination.userId = plan) plan

variable {localeCompare} {c : EnqueueCall} {pendingRequests : List PendingSyncRequest}
  {plansByUserId : String → Plan} {destinations : List DestinationCalendarRef}

/-- **A destination of a user who has asked** has a job. -/
theorem exists_job {request : PendingSyncRequest} (hrequest : request ∈ pendingRequests)
    {destination : DestinationCalendarRef} (hdestination : destination ∈ destinations)
    (huser : destination.userId = request.userId) :
    ∃ job ∈ jobsOf localeCompare c pendingRequests plansByUserId destinations,
      job.opts.jobId = syncJobId destination ∧ job.data.userId = request.userId := by
  have heligible : destination ∈ eligibleDestinations pendingRequests plansByUserId destinations := by
    refine List.mem_filter.2 ⟨hdestination, ?_⟩
    rw [huser, List.contains_iff_mem.2 (List.mem_map_of_mem hrequest), Bool.true_or]
  refine ⟨pushDestinationJob c (plansByUserId destination.userId) destination, ?_, rfl, huser⟩
  rw [jobsOf, List.mem_flatMap]
  refine ⟨plansByUserId destination.userId, ?_, List.mem_map_of_mem (mem_toSorted.2 ?_)⟩
  · cases plansByUserId destination.userId <;> decide
  · exact List.mem_filter.2 ⟨heligible, decide_eq_true rfl⟩

end Jobs

/-! ## What may be acknowledged -/

/-- The jobs of a run, each with the timestamp of the job that was found under its id. -/
abbrev ExistingJobs := List (PushDestinationJob × Option ℤ)

def requestedAtByUserId (pendingRequests : List PendingSyncRequest) : JsMap String ℤ :=
  JsMap.ofList (pendingRequests.map fun request => (request.userId, request.requestedAt))

/-- `retainedUserIds`: the users for whom a job was found that predates the request. -/
def retainedUserIds (pendingRequests : List PendingSyncRequest) (existingJobs : ExistingJobs) :
    List String :=
  (existingJobs.filter fun entry =>
    match entry.2 with
    | none => false
    | some timestamp =>
      decide (timestamp < ((requestedAtByUserId pendingRequests).get? entry.1.data.userId).getD 0)).map
        (·.1.data.userId)

/-- The requests that a run acknowledges once its jobs are added. -/
def acknowledgedRequests (pendingRequests : List PendingSyncRequest) (existingJobs : ExistingJobs) :
    List PendingSyncRequest :=
  pendingRequests.filter fun request =>
    !(retainedUserIds pendingRequests existingJobs).contains request.userId

/-- **An acknowledged request** is no older than any job that was found for its user. -/
theorem mem_acknowledged {pendingRequests : List PendingSyncRequest} {existingJobs : ExistingJobs}
    (hone : ∀ request ∈ pendingRequests, ∀ request' ∈ pendingRequests,
      request.userId = request'.userId → request = request')
    {request : PendingSyncRequest} (h : request ∈ acknowledgedRequests pendingRequests existingJobs) :
    request ∈ pendingRequests ∧ ∀ job timestamp, (job, some timestamp) ∈ existingJobs →
      job.data.userId = request.userId → request.requestedAt ≤ timestamp := by
  obtain ⟨hrequest, hretained⟩ := List.mem_filter.1 h
  refine ⟨hrequest, fun job timestamp hjob huser => ?_⟩
  have hasked : (requestedAtByUserId pendingRequests).get? request.userId = some request.requestedAt := by
    have hkey : request.userId ∈ (requestedAtByUserId pendingRequests).keys := by
      rw [requestedAtByUserId, JsMap.mem_keys_ofList, List.map_map]
      exact List.mem_map_of_mem (f := fun request : PendingSyncRequest => request.userId) hrequest
    obtain ⟨requestedAt, hget⟩ := JsMap.mem_keys_iff.1 hkey
    obtain ⟨request', hrequest', hentry⟩ := List.mem_map.1 (JsMap.get?_ofList_some hget)
    obtain ⟨huser', rfl⟩ := Prod.mk.inj hentry
    rw [hget, hone request' hrequest' request hrequest huser']
  rw [Bool.not_eq_true', ← Bool.not_eq_true, List.contains_iff_mem] at hretained
  by_contra hold
  refine hretained (List.mem_map.2 ⟨(job, some timestamp), List.mem_filter.2 ⟨hjob, ?_⟩, huser⟩)
  rw [huser, hasked]
  exact decide_eq_true (not_le.1 hold)

end Keeper
