import Keeper.Foundations.Effect
import Keeper.Foundations.JsArray
import Keeper.Foundations.JsMap
import Keeper.Foundations.Text

/-!
# Graph batches

`providers/outlook/destination/graph-batch.ts`: requests are sent in batches of twenty, and those
that Graph throttles are sent again, in rounds, until their retries are spent.

* `placeResponses_spec`: what one round settles, and what it leaves for the next one.
* `executeGraphBatch_settles`: every request ends with the answer to its last send.
-/

namespace Keeper

open JsArray

/-! ## Requests and outcomes -/

/-- The methods of a `GraphBatchRequest`. -/
inductive GraphBatchMethod
  | delete
  | get
  | patch
  | post
  deriving DecidableEq

structure GraphBatchRequest where
  id : String
  method : GraphBatchMethod
  url : String
  headers : Option (List (String × String)) := none
  body : Option Json := none

structure GraphBatchSubResponse where
  id : String
  status : ℤ
  headers : Option (List (String × String)) := none
  body : Option Json := none

/-- An error of an outcome: one that `sendBatch` threw, or a `MicrosoftGraphBatchError`. -/
inductive GraphBatchError (ε : Type)
  | thrown (error : ε)
  | batch (message : String)

inductive GraphBatchOutcome (ε : Type)
  | error (reason : GraphBatchError ε)
  | response (found : GraphBatchSubResponse)

structure GraphBatchRetryRound where
  delayMs : ℤ
  retriedCount : ℕ

/-- One call of `sendBatch`: the requests and the reply. -/
structure GraphBatchExchange (ε : Type) where
  requests : List GraphBatchRequest
  reply : Except ε (List GraphBatchSubResponse)

structure GraphBatchRun (ε : Type) where
  exchanges : List (GraphBatchExchange ε) := []
  retryRounds : List GraphBatchRetryRound := []

def GraphBatchRun.exchange {ε : Type} (run : GraphBatchRun ε) (exchange : GraphBatchExchange ε) :
    GraphBatchRun ε :=
  { run with exchanges := run.exchanges ++ [exchange] }

/-- `GraphBatchTransport`: what `sendBatch` does may depend on all that happened before, and so may
the abort of the signal, which has a reason. The delay of a retry round comes from the headers of its
responses, the clock and chance. -/
structure GraphBatchTransport (ε : Type) where
  sendBatch : GraphBatchRun ε → List GraphBatchRequest → Except ε (List GraphBatchSubResponse)
  aborted : GraphBatchRun ε → Option ε
  resolveRetryRoundDelayMs : List GraphBatchSubResponse → ℕ → ℤ

def outlookMaxThrottleRetries : ℕ := 5

def graphBatchRequestLimit : ℕ := 20

/-- `isRetriableSubResponseStatus`: throttled, unavailable or timed out at the gateway. -/
def isRetriableSubResponseStatus (status : ℤ) : Bool :=
  status == 429 || status == 503 || status == 504

def chunkGraphBatchRequests (requests : List GraphBatchRequest) : List (List GraphBatchRequest) :=
  chunks (graphBatchRequestLimit - 1) requests

section Execution

variable {ε : Type} (transport : GraphBatchTransport ε)

/-- The error of a request that a reply leaves out. -/
def GraphBatchError.noResponse (id : String) : GraphBatchError ε :=
  .batch ("Microsoft Graph returned no response for batch request " ++ id)

def failEveryRequest (outcomes : JsMap String (GraphBatchOutcome ε))
    (requests : List GraphBatchRequest) (error : ε) : JsMap String (GraphBatchOutcome ε) :=
  requests.foldl (fun outcomes request => outcomes.set request.id (.error (.thrown error))) outcomes

/-- A call of `sendBatch`. -/
def callSendBatch (requests : List GraphBatchRequest) :
    Effect ε (GraphBatchRun ε) (List GraphBatchSubResponse) := fun run =>
  (transport.sendBatch run requests, run.exchange ⟨requests, transport.sendBatch run requests⟩)

def sendPendingRequests (pending : List GraphBatchRequest) :
    Effect ε (GraphBatchRun ε) (Except ε (List GraphBatchSubResponse)) :=
  Effect.recover
    (do
      let responses ← callSendBatch transport pending
      pure (.ok responses))
    fun error => do
      match ← Effect.gets transport.aborted with
      | some _ => Effect.throw error
      | none => pure (.error error)

def abortableSleep : Effect ε (GraphBatchRun ε) PUnit := do
  match ← Effect.gets transport.aborted with
  | some reason => Effect.throw reason
  | none => pure ⟨⟩

def responsesById (responses : List GraphBatchSubResponse) : JsMap String GraphBatchSubResponse :=
  JsMap.ofList (responses.map fun response => (response.id, response))

/-- What a round has found: the requests to send again, with their responses, and the outcomes. -/
structure GraphBatchRound (ε : Type) where
  retriable : List (GraphBatchRequest × GraphBatchSubResponse) := []
  outcomes : JsMap String (GraphBatchOutcome ε)

/-- One iteration of the pass over the pending requests. -/
def placeResponse (canRetry : Bool) (responses : JsMap String GraphBatchSubResponse)
    (round : GraphBatchRound ε) (request : GraphBatchRequest) : GraphBatchRound ε :=
  match responses.get? request.id with
  | none =>
    { round with
      outcomes := round.outcomes.set request.id (.error (GraphBatchError.noResponse request.id)) }
  | some response =>
    if canRetry && isRetriableSubResponseStatus response.status then
      { round with retriable := round.retriable ++ [(request, response)] }
    else { round with outcomes := round.outcomes.set request.id (.response response) }

/-- Between two rounds: the retry round is reported, and its delay waited for. -/
def waitForRetryRound (attempt : ℕ) (responses : List GraphBatchSubResponse) :
    Effect ε (GraphBatchRun ε) PUnit := do
  let delayMs := transport.resolveRetryRoundDelayMs responses attempt
  Effect.modify fun run =>
    { run with retryRounds := run.retryRounds ++ [⟨delayMs, responses.length⟩] }
  abortableSleep transport

/-- The rounds of `executeGraphBatchChunk` from some attempt on: `retries` are left. -/
def executeRounds : ℕ → List GraphBatchRequest → JsMap String (GraphBatchOutcome ε) →
    Effect ε (GraphBatchRun ε) (JsMap String (GraphBatchOutcome ε))
  | retries, pending, outcomes => do
    match ← sendPendingRequests transport pending with
    | .error error => pure (failEveryRequest outcomes pending error)
    | .ok responses =>
      let round := pending.foldl (placeResponse (0 < retries) (responsesById responses))
        { outcomes }
      match retries with
      | 0 => pure round.outcomes
      | remaining + 1 =>
        if round.retriable.isEmpty then pure round.outcomes
        else do
          waitForRetryRound transport (outlookMaxThrottleRetries - retries)
            (round.retriable.map (·.2))
          executeRounds remaining (round.retriable.map (·.1)) round.outcomes

def executeGraphBatchChunk (chunk : List GraphBatchRequest) :
    Effect ε (GraphBatchRun ε) (JsMap String (GraphBatchOutcome ε)) :=
  executeRounds transport outlookMaxThrottleRetries chunk JsMap.empty

/-- The loop of `executeGraphBatch` over the chunks. -/
def executeGraphBatchChunks : List (List GraphBatchRequest) → JsMap String (GraphBatchOutcome ε) →
    Effect ε (GraphBatchRun ε) (JsMap String (GraphBatchOutcome ε))
  | [], outcomes => pure outcomes
  | chunk :: chunks, outcomes => do
    let settled ← executeGraphBatchChunk transport chunk
    executeGraphBatchChunks chunks
      (settled.entries.foldl (fun outcomes entry => outcomes.set entry.1 entry.2) outcomes)

def executeGraphBatch (requests : List GraphBatchRequest) :
    Effect ε (GraphBatchRun ε) (JsMap String (GraphBatchOutcome ε)) :=
  executeGraphBatchChunks transport (chunkGraphBatchRequests requests) JsMap.empty

end Execution

/-! ## Answers -/

section Answers

variable {ε : Type}

/-- The outcome that an exchange gives to a request that was sent with it. -/
def GraphBatchExchange.answer (exchange : GraphBatchExchange ε) (id : String) :
    Option (GraphBatchOutcome ε) :=
  if id ∈ exchange.requests.map (·.id) then
    some (match exchange.reply with
      | .error error => .error (.thrown error)
      | .ok responses =>
        match (responsesById responses).get? id with
        | none => .error (GraphBatchError.noResponse id)
        | some response => .response response)
  else none

/-- The answers to all sends of a request, in their order. -/
def answersTo (exchanges : List (GraphBatchExchange ε)) (id : String) :
    List (GraphBatchOutcome ε) :=
  exchanges.filterMap (·.answer id)

/-- A response with a retriable status. -/
def GraphBatchOutcome.isRetriable : GraphBatchOutcome ε → Bool
  | .error _ => false
  | .response found => isRetriableSubResponseStatus found.status

/-- The answers to a request end with one, and those before it were responses with a retriable
status, as many as there are retries at most. -/
def EndsWith (answers : List (GraphBatchOutcome ε)) (retries : ℕ)
    (outcome : Option (GraphBatchOutcome ε)) : Prop :=
  ∃ earlier last, answers = earlier ++ [last] ∧ (∀ a ∈ earlier, a.isRetriable = true) ∧
    earlier.length ≤ retries ∧ outcome = some last

theorem answersTo_append (l l' : List (GraphBatchExchange ε)) (id : String) :
    answersTo (l ++ l') id = answersTo l id ++ answersTo l' id :=
  List.filterMap_append

theorem answersTo_eq_nil {requests : List GraphBatchRequest}
    {exchanges : List (GraphBatchExchange ε)}
    (hsent : ∀ exchange ∈ exchanges, exchange.requests.Sublist requests) {id : String}
    (hid : id ∉ requests.map (·.id)) : answersTo exchanges id = [] := by
  rw [answersTo, List.filterMap_eq_nil_iff]
  exact fun exchange hmem => if_neg fun h => hid (((hsent exchange hmem).map _).subset h)

theorem get?_failEveryRequest {outcomes : JsMap String (GraphBatchOutcome ε)}
    {requests : List GraphBatchRequest} {error : ε} {id : String} :
    (failEveryRequest outcomes requests error).get? id =
      if id ∈ requests.map (·.id) then some (.error (.thrown error)) else outcomes.get? id := by
  unfold failEveryRequest
  induction requests generalizing outcomes with
  | nil => rfl
  | cons request requests ih =>
    rw [List.foldl_cons, ih, JsMap.get?_set, List.map_cons]
    by_cases hmem : id ∈ requests.map (·.id)
    · rw [if_pos hmem, if_pos (List.mem_cons_of_mem _ hmem)]
    · simp only [List.mem_cons, hmem, or_false, if_false, @eq_comm _ id]

/-- What the pass leaves for the next round. -/
def leftOver (canRetry : Bool) (responses : JsMap String GraphBatchSubResponse)
    (request : GraphBatchRequest) : Option (GraphBatchRequest × GraphBatchSubResponse) :=
  (responses.get? request.id).bind fun found =>
    if canRetry && isRetriableSubResponseStatus found.status then some (request, found) else none

/-- The outcome that the pass gives to a pending request. -/
def settledAs (canRetry : Bool) (responses : JsMap String GraphBatchSubResponse) (id : String) :
    Option (GraphBatchOutcome ε) :=
  match responses.get? id with
  | none => some (.error (GraphBatchError.noResponse id))
  | some found =>
    if canRetry && isRetriableSubResponseStatus found.status then none else some (.response found)

section Pass

variable {canRetry : Bool} {responses : JsMap String GraphBatchSubResponse}

theorem placeResponse_spec (round : GraphBatchRound ε) (request : GraphBatchRequest) :
    (placeResponse canRetry responses round request).retriable =
        round.retriable ++ (leftOver canRetry responses request).toList ∧
      ∀ id, (placeResponse canRetry responses round request).outcomes.get? id =
        if request.id = id then (settledAs canRetry responses id).or (round.outcomes.get? id)
        else round.outcomes.get? id := by
  unfold placeResponse leftOver
  cases hfound : responses.get? request.id with
  | none =>
    refine ⟨by simp, fun id => ?_⟩
    rw [JsMap.get?_set]
    split_ifs with hid
    · subst hid
      simp [settledAs, hfound]
    · rfl
  | some found =>
    cases hretry : canRetry && isRetriableSubResponseStatus found.status with
    | true =>
      simp only [Option.bind_some, hretry, if_true]
      refine ⟨rfl, fun id => ?_⟩
      split_ifs with hid
      · subst hid
        simp only [settledAs, hfound, hretry, if_true, Option.none_or]
      · rfl
    | false =>
      simp only [Option.bind_some, hretry, Bool.false_eq_true, if_false, JsMap.get?_set]
      refine ⟨by simp, fun id => ?_⟩
      split_ifs with hid
      · subst hid
        simp only [settledAs, hfound, hretry, Bool.false_eq_true, if_false, Option.some_or]
      · rfl

/-- **What the pass over the pending requests does**: it leaves those over that can be retried, and
settles the others. -/
theorem placeResponses_spec (pending : List GraphBatchRequest) (round : GraphBatchRound ε) :
    (pending.foldl (placeResponse canRetry responses) round).retriable =
        round.retriable ++ pending.filterMap (leftOver canRetry responses) ∧
      ∀ id, (pending.foldl (placeResponse canRetry responses) round).outcomes.get? id =
        if id ∈ pending.map (·.id) then
          (settledAs canRetry responses id).or (round.outcomes.get? id)
        else round.outcomes.get? id := by
  induction pending generalizing round with
  | nil => simp
  | cons request pending ih =>
    rw [List.foldl_cons]
    obtain ⟨hretriable, houtcomes⟩ := ih (placeResponse canRetry responses round request)
    obtain ⟨hfirst, hset⟩ := @placeResponse_spec ε canRetry responses round request
    refine ⟨?_, fun id => ?_⟩
    · rw [hretriable, hfirst, List.append_assoc]
      cases hleft : leftOver canRetry responses request with
      | none => rw [List.filterMap_cons_none hleft]; rfl
      | some entry => rw [List.filterMap_cons_some hleft]; rfl
    · rw [houtcomes, hset, List.map_cons]
      by_cases hid : request.id = id
      · subst hid
        cases settledAs canRetry responses request.id <;> simp
      · simp [hid, Ne.symm hid]

/-- The requests that are left over are pending ones that the pass has not settled. -/
theorem leftOver_spec (ε : Type) {pending : List GraphBatchRequest} :
    ((pending.filterMap (leftOver canRetry responses)).map (·.1)).Sublist pending ∧
      ∀ id, id ∈ ((pending.filterMap (leftOver canRetry responses)).map (·.1)).map (·.id) ↔
        id ∈ pending.map (·.id) ∧
          (settledAs canRetry responses id : Option (GraphBatchOutcome ε)) = none := by
  have hleft : ∀ request, (leftOver canRetry responses request).map (·.1) =
      if (settledAs canRetry responses request.id : Option (GraphBatchOutcome ε)) = none then
        some request else none := by
    intro request
    unfold leftOver settledAs
    cases responses.get? request.id with
    | none => rfl
    | some found =>
      cases hretry : canRetry && isRetriableSubResponseStatus found.status with
      | true => simp only [Option.bind_some, hretry, if_true, Option.map_some]
      | false => simp only [Option.bind_some, hretry, Bool.false_eq_true, if_false, Option.map_none,
          reduceCtorEq]
  have hfilter : (pending.filterMap (leftOver canRetry responses)).map (·.1) =
      pending.filter fun request =>
        (settledAs canRetry responses request.id : Option (GraphBatchOutcome ε)).isNone := by
    rw [List.map_filterMap, ← List.filterMap_eq_filter]
    refine List.filterMap_congr fun request _ => ?_
    rw [hleft]
    simp [Option.guard]
  rw [hfilter]
  refine ⟨List.filter_sublist, fun id => ?_⟩
  simp only [List.mem_map, List.mem_filter, Option.isNone_iff_eq_none]
  constructor
  · rintro ⟨request, ⟨hmem, hnone⟩, rfl⟩
    exact ⟨⟨request, hmem, rfl⟩, hnone⟩
  · rintro ⟨⟨request, hmem, rfl⟩, hnone⟩
    exact ⟨request, ⟨hmem, hnone⟩, rfl⟩

end Pass

/-- What a reply answers to a pending request: its outcome, or a response to retry. -/
theorem answer_reply {pending : List GraphBatchRequest} {responses : List GraphBatchSubResponse}
    {id : String} (hid : id ∈ pending.map (·.id)) (canRetry : Bool) :
    ∃ outcome, (⟨pending, .ok responses⟩ : GraphBatchExchange ε).answer id = some outcome ∧
      (settledAs canRetry (responsesById responses) id = some outcome ∨
        (settledAs canRetry (responsesById responses) id : Option (GraphBatchOutcome ε)) = none ∧
          outcome.isRetriable = true) := by
  rw [GraphBatchExchange.answer, if_pos hid]
  dsimp only
  unfold settledAs
  cases (responsesById responses).get? id with
  | none => exact ⟨_, rfl, Or.inl rfl⟩
  | some found =>
    refine ⟨.response found, rfl, ?_⟩
    cases hretry : canRetry && isRetriableSubResponseStatus found.status with
    | true => exact Or.inr ⟨by simp only [hretry, if_true], (Bool.and_eq_true_iff.1 hretry).2⟩
    | false => exact Or.inl (by simp only [hretry, Bool.false_eq_true, if_false])

/-- **What rounds have done** to the pending requests: each one has the outcome that its answers end
with, and nothing else was sent or settled. -/
structure Settles (pending : List GraphBatchRequest) (retries : ℕ)
    (exchanges : List (GraphBatchExchange ε))
    (before after : JsMap String (GraphBatchOutcome ε)) : Prop where
  sent : ∀ exchange ∈ exchanges, exchange.requests.Sublist pending
  settled : ∀ id ∈ pending.map (·.id), EndsWith (answersTo exchanges id) retries (after.get? id)
  kept : ∀ id ∉ pending.map (·.id), after.get? id = before.get? id

section Rounds

variable {pending : List GraphBatchRequest} {retries : ℕ}
  {before after : JsMap String (GraphBatchOutcome ε)}

theorem settles_single {reply : Except ε (List GraphBatchSubResponse)}
    (hsettled : ∀ id ∈ pending.map (·.id),
      (⟨pending, reply⟩ : GraphBatchExchange ε).answer id = after.get? id)
    (hkept : ∀ id ∉ pending.map (·.id), after.get? id = before.get? id) :
    Settles pending retries [⟨pending, reply⟩] before after where
  sent exchange hmem := by
    obtain rfl := List.mem_singleton.1 hmem
    exact List.Sublist.refl _
  settled id hid := by
    have hanswer : (⟨pending, reply⟩ : GraphBatchExchange ε).answer id = some _ := if_pos hid
    refine ⟨[], _, List.filterMap_cons_some hanswer, by simp, Nat.zero_le _, ?_⟩
    rw [← hsettled id hid, hanswer]
  kept := hkept

theorem Settles.retry {responses : List GraphBatchSubResponse}
    {exchanges : List (GraphBatchExchange ε)}
    (h : Settles ((pending.filterMap (leftOver true (responsesById responses))).map (·.1)) retries
      exchanges (pending.foldl (placeResponse true (responsesById responses)) ⟨[], before⟩).outcomes
      after) :
    Settles pending (retries + 1) (⟨pending, .ok responses⟩ :: exchanges) before after where
  sent exchange hmem := by
    rcases List.mem_cons.1 hmem with rfl | hmem
    · exact List.Sublist.refl _
    · exact (h.sent exchange hmem).trans (leftOver_spec ε).1
  settled id hid := by
    obtain ⟨outcome, hanswer, hcase⟩ := @answer_reply ε pending responses id hid true
    have hanswers : answersTo (⟨pending, .ok responses⟩ :: exchanges) id =
        outcome :: answersTo exchanges id := List.filterMap_cons_some hanswer
    rw [hanswers]
    rcases hcase with hsettled | ⟨hnone, hretriable⟩
    · have hnot : id ∉ ((pending.filterMap (leftOver true (responsesById responses))).map
          (·.1)).map (·.id) := fun hin => by
        rw [((leftOver_spec ε).2 id).1 hin |>.2] at hsettled
        cases hsettled
      rw [answersTo_eq_nil h.sent hnot, h.kept id hnot, (placeResponses_spec pending _).2 id,
        if_pos hid, hsettled]
      exact ⟨[], outcome, rfl, by simp, Nat.zero_le _, rfl⟩
    · obtain ⟨earlier, last, hearlier, hall, hlength, hlast⟩ :=
        h.settled id (((leftOver_spec ε).2 id).2 ⟨hid, hnone⟩)
      refine ⟨outcome :: earlier, last, by rw [hearlier]; rfl, ?_, Nat.succ_le_succ hlength, hlast⟩
      intro a ha
      rcases List.mem_cons.1 ha with rfl | ha
      · exact hretriable
      · exact hall a ha
  kept id hid := by
    have hnot : id ∉ ((pending.filterMap (leftOver true (responsesById responses))).map
        (·.1)).map (·.id) := fun hin => hid (((leftOver_spec ε).2 id).1 hin).1
    rw [h.kept id hnot, (placeResponses_spec pending _).2 id, if_neg hid]

end Rounds

theorem Settles.append {chunk rest : List GraphBatchRequest} {retries : ℕ}
    {first exchanges : List (GraphBatchExchange ε)}
    {before settled after : JsMap String (GraphBatchOutcome ε)}
    (hids : ((chunk ++ rest).map (·.id)).Nodup)
    (hfirst : Settles chunk retries first JsMap.empty settled)
    (hrest : Settles rest retries exchanges
      (settled.entries.foldl (fun outcomes entry => outcomes.set entry.1 entry.2) before) after) :
    Settles (chunk ++ rest) retries (first ++ exchanges) before after where
  sent exchange hmem := by
    rcases List.mem_append.1 hmem with hmem | hmem
    · exact (hfirst.sent exchange hmem).trans (List.sublist_append_left _ _)
    · exact (hrest.sent exchange hmem).trans (List.sublist_append_right _ _)
  settled id hid := by
    rw [List.map_append] at hid hids
    have hdisjoint := List.disjoint_of_nodup_append hids
    rw [answersTo_append]
    rcases List.mem_append.1 hid with hid | hid
    · rw [answersTo_eq_nil hrest.sent (hdisjoint hid), List.append_nil,
        hrest.kept id (hdisjoint hid), JsMap.get?_foldl_set_entries]
      obtain ⟨earlier, last, hanswers, hall, hlength, hlast⟩ := hfirst.settled id hid
      exact ⟨earlier, last, hanswers, hall, hlength, by rw [hlast]; rfl⟩
    · rw [answersTo_eq_nil hfirst.sent fun h => hdisjoint h hid]
      exact hrest.settled id hid
  kept id hid := by
    rw [List.map_append, List.mem_append, not_or] at hid
    rw [hrest.kept id hid.2, JsMap.get?_foldl_set_entries, hfirst.kept id hid.1]
    rfl

/-! ## Runs -/

section Runs

variable {transport : GraphBatchTransport ε} (hnot : ∀ run, transport.aborted run = none)
include hnot

/-- Without an abort a send returns what `sendBatch` did. -/
theorem run_sendPendingRequests (pending : List GraphBatchRequest) (run : GraphBatchRun ε) :
    sendPendingRequests transport pending run = (.ok (transport.sendBatch run pending),
      run.exchange ⟨pending, transport.sendBatch run pending⟩) := by
  have hcall : callSendBatch transport pending run = (transport.sendBatch run pending,
      run.exchange ⟨pending, transport.sendBatch run pending⟩) := rfl
  unfold sendPendingRequests Effect.recover
  cases hreply : transport.sendBatch run pending with
  | error e =>
    rw [hreply] at hcall
    rw [Effect.run_bind_error hcall]
    refine (Effect.run_bind (rfl : Effect.gets transport.aborted _ = _)).trans ?_
    rw [hnot]
    rfl
  | ok responses =>
    rw [hreply] at hcall
    rw [Effect.run_bind hcall]
    rfl

theorem run_waitForRetryRound (attempt : ℕ) (responses : List GraphBatchSubResponse)
    (run : GraphBatchRun ε) :
    ∃ run', waitForRetryRound transport attempt responses run = (.ok ⟨⟩, run') ∧
      run'.exchanges = run.exchanges := by
  refine ⟨{ run with retryRounds := run.retryRounds ++
    [⟨transport.resolveRetryRoundDelayMs responses attempt, responses.length⟩] }, ?_, rfl⟩
  refine (Effect.run_bind rfl).trans ?_
  refine (Effect.run_bind (rfl : Effect.gets transport.aborted _ = _)).trans ?_
  rw [hnot]
  rfl

section Steps

variable {retries : ℕ} {pending : List GraphBatchRequest}
  {before : JsMap String (GraphBatchOutcome ε)} {run : GraphBatchRun ε}

theorem executeRounds_error {e : ε} (hreply : transport.sendBatch run pending = .error e) :
    executeRounds transport retries pending before run =
      (.ok (failEveryRequest before pending e), run.exchange ⟨pending, .error e⟩) := by
  have hsend := run_sendPendingRequests hnot pending run
  rw [hreply] at hsend
  unfold executeRounds
  exact (Effect.run_bind hsend).trans rfl

theorem executeRounds_done {responses : List GraphBatchSubResponse}
    (hreply : transport.sendBatch run pending = .ok responses)
    (hdone : pending.filterMap (leftOver (0 < retries) (responsesById responses)) = []) :
    executeRounds transport retries pending before run =
      (.ok (pending.foldl (placeResponse (0 < retries) (responsesById responses))
        ⟨[], before⟩).outcomes, run.exchange ⟨pending, .ok responses⟩) := by
  have hsend := run_sendPendingRequests hnot pending run
  rw [hreply] at hsend
  have hretriable : (pending.foldl (placeResponse (0 < retries) (responsesById responses))
      ⟨[], before⟩).retriable = [] := by
    rw [(placeResponses_spec pending _).1, hdone]
    rfl
  unfold executeRounds
  refine (Effect.run_bind hsend).trans ?_
  cases retries with
  | zero => rfl
  | succ remaining =>
    dsimp only
    rw [hretriable]
    rfl

theorem executeRounds_retry {responses : List GraphBatchSubResponse}
    (hreply : transport.sendBatch run pending = .ok responses)
    (hleft : pending.filterMap (leftOver true (responsesById responses)) ≠ []) :
    ∃ run' : GraphBatchRun ε, run'.exchanges = run.exchanges ++ [⟨pending, .ok responses⟩] ∧
      executeRounds transport (retries + 1) pending before run =
        executeRounds transport retries
          ((pending.filterMap (leftOver true (responsesById responses))).map (·.1))
          (pending.foldl (placeResponse true (responsesById responses)) ⟨[], before⟩).outcomes
          run' := by
  have hsend := run_sendPendingRequests hnot pending run
  rw [hreply] at hsend
  have hretriable : (pending.foldl (placeResponse true (responsesById responses))
      (⟨[], before⟩ : GraphBatchRound ε)).retriable =
      pending.filterMap (leftOver true (responsesById responses)) := by
    rw [(placeResponses_spec pending _).1]
    rfl
  obtain ⟨run', hwait, hexchanges⟩ := run_waitForRetryRound hnot
    (outlookMaxThrottleRetries - (retries + 1))
    ((pending.filterMap (leftOver true (responsesById responses))).map (·.2))
    (run.exchange ⟨pending, .ok responses⟩)
  refine ⟨run', hexchanges, ?_⟩
  rw [executeRounds]
  refine (Effect.run_bind hsend).trans ?_
  dsimp only
  rw [decide_eq_true (Nat.succ_pos retries), hretriable, if_neg (by simpa using hleft)]
  exact Effect.run_bind hwait

theorem executeRounds_settles_of_done
    (hdone : ∀ responses, transport.sendBatch run pending = .ok responses →
      pending.filterMap (leftOver (0 < retries) (responsesById responses)) = []) :
    ∃ after run' exchanges, executeRounds transport retries pending before run = (.ok after, run') ∧
      run'.exchanges = run.exchanges ++ exchanges ∧
      Settles pending retries exchanges before after := by
  cases hreply : transport.sendBatch run pending with
  | error e =>
    refine ⟨_, _, _, executeRounds_error hnot hreply, rfl, settles_single (fun id hid => ?_)
      fun id hid => ?_⟩
    · rw [get?_failEveryRequest, if_pos hid]
      exact if_pos hid
    · rw [get?_failEveryRequest, if_neg hid]
  | ok responses =>
    have hempty := hdone responses hreply
    refine ⟨_, _, _, executeRounds_done hnot hreply hempty, rfl, settles_single (fun id hid => ?_)
      fun id hid => ?_⟩
    · obtain ⟨outcome, hanswer, hsettled | ⟨hnone, -⟩⟩ :=
        @answer_reply ε pending responses id hid (0 < retries)
      · rw [hanswer, (placeResponses_spec pending _).2 id, if_pos hid, hsettled]
        rfl
      · have hleft := ((leftOver_spec ε).2 id).2 ⟨hid, hnone⟩
        rw [hempty] at hleft
        exact absurd hleft List.not_mem_nil
    · rw [(placeResponses_spec pending _).2 id, if_neg hid]

end Steps

/-- **The rounds** settle every pending request. -/
theorem run_executeRounds (retries : ℕ) (pending : List GraphBatchRequest)
    (before : JsMap String (GraphBatchOutcome ε)) (run : GraphBatchRun ε) :
    ∃ after run' exchanges, executeRounds transport retries pending before run = (.ok after, run') ∧
      run'.exchanges = run.exchanges ++ exchanges ∧
      Settles pending retries exchanges before after := by
  induction retries generalizing pending before run with
  | zero =>
    refine executeRounds_settles_of_done hnot fun responses _ => ?_
    refine List.filterMap_eq_nil_iff.2 fun request _ => ?_
    unfold leftOver
    cases (responsesById responses).get? request.id <;> rfl
  | succ retries ih =>
    by_cases hretry : ∃ responses, transport.sendBatch run pending = .ok responses ∧
        pending.filterMap (leftOver true (responsesById responses)) ≠ []
    · obtain ⟨responses, hreply, hleft⟩ := hretry
      obtain ⟨middle, hmiddle, hrounds⟩ :=
        @executeRounds_retry ε transport hnot retries pending before run responses hreply hleft
      obtain ⟨after, run', exchanges, hrun, hexchanges, hsettles⟩ := ih
        ((pending.filterMap (leftOver true (responsesById responses))).map (·.1))
        (pending.foldl (placeResponse true (responsesById responses)) ⟨[], before⟩).outcomes middle
      refine ⟨after, run', _, hrounds.trans hrun, ?_, hsettles.retry⟩
      rw [hexchanges, hmiddle, List.append_assoc]
      rfl
    · refine executeRounds_settles_of_done hnot fun responses hreply => ?_
      by_contra hleft
      exact hretry ⟨responses, hreply, hleft⟩

/-! ## Chunks -/

/-- **The chunks** are settled one after the other. -/
theorem run_executeGraphBatchChunks (chunks : List (List GraphBatchRequest))
    (hids : (chunks.flatten.map (·.id)).Nodup) (before : JsMap String (GraphBatchOutcome ε))
    (run : GraphBatchRun ε) :
    ∃ after run' exchanges, executeGraphBatchChunks transport chunks before run =
        (.ok after, run') ∧ run'.exchanges = run.exchanges ++ exchanges ∧
      Settles chunks.flatten outlookMaxThrottleRetries exchanges before after := by
  induction chunks generalizing before run with
  | nil =>
    exact ⟨before, run, [], rfl, (List.append_nil _).symm, by simp, by simp, by simp⟩
  | cons chunk chunks ih =>
    rw [List.flatten_cons, List.map_append] at hids
    obtain ⟨settled, middle, first, hfirst, hmiddle, hs⟩ :=
      run_executeRounds hnot outlookMaxThrottleRetries chunk JsMap.empty run
    obtain ⟨after, run', rest, hrest, hrun', hr⟩ := ih hids.of_append_right
      (settled.entries.foldl (fun outcomes entry => outcomes.set entry.1 entry.2) before) middle
    refine ⟨after, run', first ++ rest, ?_, ?_, ?_⟩
    · rw [executeGraphBatchChunks]
      exact (Effect.run_bind hfirst).trans hrest
    · rw [hrun', hmiddle, List.append_assoc]
    · exact hs.append (by rwa [List.map_append]) hr

/-- **Every request of a batch ends with the answer to its last send.** What was sent are requests of
the batch; a request was sent again only after a response with a retriable status, as often as there
are retries at most; and there is one outcome for each request. -/
theorem executeGraphBatch_settles (requests : List GraphBatchRequest)
    (hids : (requests.map (·.id)).Nodup) :
    ∃ outcomes run, executeGraphBatch transport requests {} = (.ok outcomes, run) ∧
      (∀ id, id ∈ outcomes.keys ↔ id ∈ requests.map (·.id)) ∧
      (∀ exchange ∈ run.exchanges, exchange.requests.Sublist requests) ∧
      ∀ request ∈ requests, ∃ earlier last,
        answersTo run.exchanges request.id = earlier ++ [last] ∧
        (∀ a ∈ earlier, a.isRetriable = true) ∧ earlier.length ≤ outlookMaxThrottleRetries ∧
        outcomes.get? request.id = some last := by
  have hflatten : (chunkGraphBatchRequests requests).flatten = requests := flatten_chunks _ _
  obtain ⟨outcomes, run, exchanges, hrun, hexchanges, hsettles⟩ := run_executeGraphBatchChunks hnot
    (chunkGraphBatchRequests requests) (by rwa [hflatten]) JsMap.empty {}
  rw [hflatten] at hsettles
  obtain rfl : run.exchanges = exchanges := hexchanges
  refine ⟨outcomes, run, hrun, fun id => ?_, hsettles.sent, fun request hmem =>
    hsettles.settled _ (List.mem_map_of_mem hmem)⟩
  rw [← JsMap.isSome_get?_iff]
  constructor
  · intro hsome
    by_contra hid
    rw [hsettles.kept id hid] at hsome
    cases hsome
  · intro hid
    obtain ⟨-, last, -, -, -, hlast⟩ := hsettles.settled id hid
    rw [hlast]
    rfl

end Runs

end Answers

/-! ## A batch -/

namespace Example

/-- A transport that throttles a request once, and then creates its event. -/
def throttlingTransport : GraphBatchTransport String where
  sendBatch run requests := .ok (requests.map fun request =>
    { id := request.id, status := if run.exchanges.isEmpty then 429 else 201 })
  aborted _ := none
  resolveRetryRoundDelayMs _ _ := 1000

def createRequest : GraphBatchRequest := { id := "0", method := .post, url := "/me/events" }

end Example

theorem executeGraphBatch_settles_createRequest :
    ∃ outcomes run, executeGraphBatch Example.throttlingTransport [Example.createRequest] {} =
        (.ok outcomes, run) ∧
      (∀ id, id ∈ outcomes.keys ↔ id ∈ ["0"]) ∧
      (∀ exchange ∈ run.exchanges, exchange.requests.Sublist [Example.createRequest]) ∧
      ∀ request ∈ [Example.createRequest], ∃ earlier last,
        answersTo run.exchanges request.id = earlier ++ [last] ∧
        (∀ a ∈ earlier, a.isRetriable = true) ∧ earlier.length ≤ outlookMaxThrottleRetries ∧
        outcomes.get? request.id = some last :=
  executeGraphBatch_settles (fun _ => rfl) [Example.createRequest] (by decide)

end Keeper
