import Keeper.Foundations.Effect
import Keeper.Foundations.Fallible
import Keeper.Foundations.JsArray
import Keeper.Foundations.JsonSchema
import Mathlib.Data.List.Infix

/-!
# Google batches

`providers/google/shared/batch.ts`: sub-requests are sent in batches of fifty, those that Google rate
limits are sent again on their own, and the entry of a sub-request is found at its index.

* `parseBatchResponseBody_spec`: the responses of a batch stand at the Content-IDs of their parts.
* `wp_executeChunk`: the entries of one batch, with its retries.
* `executeBatchChunked_entries`: the entries of all batches, when each batch before the last one comes
  back with its last part.
-/

namespace Keeper.GoogleBatch

open JsArray

/-! ## Responses -/

/-- `GoogleApiError`, as far as it is read here. -/
structure GoogleApiError where
  message : Option String := none
  status : Option String := none
  errors : Option (List (Option String)) := none
  details : Option (List (Option String)) := none

structure BatchSubResponse where
  statusCode : ℕ
  headers : List (String × String) := []
  body : Json := .null

/-- A part of a response: its `content-id` header and the response in it. -/
structure BatchPart where
  contentId : Option String
  response : BatchSubResponse

/-- `BatchSubRequest`, its body as the text that is sent. -/
structure BatchSubRequest where
  method : String
  path : String
  headers : Option (List (String × String)) := none
  body : Option String := none
  deriving DecidableEq

def googleBatchMaxSize : ℕ := 50

def defaultMaxRetries : ℕ := 5

def noResponse : BatchSubResponse := { statusCode := 0 }

def tooManyRequests : BatchSubResponse := { statusCode := 429 }

/-! ### Errors -/

/-- The `reason` of an entry of `errors` or `details`. -/
def readReason (value : Json) : Option (Option String) := do
  let fields ← value.fields?
  Json.optional fields "reason" Json.string?

/-- `googleApiErrorSchema`, of the `error` of a body. -/
def readGoogleApiError (value : Json) : Option GoogleApiError := do
  let fields ← value.fields?
  let _ ← Json.optional fields "code" Json.number?
  let message ← Json.optional fields "message" Json.string?
  let status ← Json.optional fields "status" Json.string?
  let errors ← Json.optional fields "errors" (Json.array? readReason)
  let details ← Json.optional fields "details" (Json.array? readReason)
  pure { message, status, errors, details }

def parseGoogleApiErrorFromBody (body : Json) : GoogleApiError :=
  ((do
    let fields ← body.fields?
    Json.optional fields "error" readGoogleApiError) : Option (Option GoogleApiError)).join.getD {}

def hasRateLimitMessage (message : Option String) : Bool :=
  message.any fun message =>
    "429".toList <:+: message.toList || "rateLimitExceeded".toList <:+: message.toList

def getErrorReasons (error : GoogleApiError) : List String :=
  (((error.errors.getD []) ++ (error.details.getD [])).reduceOption.filter (· ≠ "")).map
    fun reason => reason.map Char.toLower

def rateLimitReasons : List String :=
  ["ratelimitexceeded", "userratelimitexceeded", "rate_limit_exceeded"]

def isRateLimitApiError (status : ℕ) (error : GoogleApiError) : Bool :=
  if status ≠ 403 ∧ status ≠ 429 then false
  else if status = 429 then true
  else (getErrorReasons error).any (rateLimitReasons.contains ·) ||
    hasRateLimitMessage error.message

def BatchSubResponse.isRateLimited (response : BatchSubResponse) : Bool :=
  isRateLimitApiError response.statusCode (parseGoogleApiErrorFromBody response.body)

/-! ### Parts -/

/-- The first match of `/item-(\d+)/`. -/
def findItem : List Char → Option (List Char)
  | [] => none
  | c :: rest =>
    let digits := ((c :: rest).drop 5).takeWhile Char.isDigit
    if "item-".toList.isPrefixOf (c :: rest) && !digits.isEmpty then some digits else findItem rest

def parseContentId (contentId : Option String) : Option ℕ := do
  let contentId ← contentId
  let digits ← findItem contentId.toList
  pure (digits.foldl (fun value digit => 10 * value + (digit.toNat - '0'.toNat)) 0)

def BatchPart.contentIndex (part : BatchPart) : Option ℕ := parseContentId part.contentId

/-- What `parseBatchResponseBody` has collected: the responses by their indices, and one more than the
greatest index. -/
structure ParsedParts where
  results : JsMap ℕ BatchSubResponse := JsMap.empty
  bound : ℕ := 0

def placePart (parsed : ParsedParts) (part : BatchPart) : ParsedParts :=
  let index := part.contentIndex.getD parsed.results.entries.length
  { results := parsed.results.set index part.response, bound := max parsed.bound (index + 1) }

/-- `parseBatchResponseBody`, of the parts of the text. -/
def parseBatchResponseBody (parts : List BatchPart) : List BatchSubResponse :=
  let parsed := parts.foldl placePart {}
  (List.range parsed.bound).map fun index => (parsed.results.get? index).getD noResponse

/-! ## Execution -/

/-- What an execution fails with: a `GoogleBatchApiError`, or another error. -/
inductive BatchError (ε : Type)
  | api (status : ℕ) (apiError : GoogleApiError)
  | missingSubRequest (index : ℕ)
  | other (error : ε)

/-- One request to the batch endpoint: its sub-requests and the parts of its response. -/
structure BatchExchange (α ε : Type) where
  requests : List α
  reply : Except (BatchError ε) (List BatchPart)

/-- The batch endpoint: what it answers may depend on all that happened before, and so may the abort of
the signal, which has a reason. -/
structure BatchApi (α ε : Type) where
  post : List (BatchExchange α ε) → List α → Except (BatchError ε) (List BatchPart)
  aborted : List (BatchExchange α ε) → Option ε

section Execution

variable {α ε : Type} (api : BatchApi α ε)

/-- A computation over the requests made so far. -/
abbrev BatchM (α ε : Type) : Type → Type := Effect (BatchError ε) (List (BatchExchange α ε))

def abortableSleep : BatchM α ε PUnit := do
  match ← Effect.gets api.aborted with
  | some reason => Effect.throw (.other reason)
  | none => pure ⟨⟩

/-- `withBackoff`, with some retries left. -/
def withBackoff {β : Type} (shouldRetry : BatchError ε → Bool) (operation : BatchM α ε β) :
    ℕ → BatchM α ε β
  | 0 => operation
  | retries + 1 => Effect.recover operation fun error =>
    if shouldRetry error then do
      abortableSleep api
      withBackoff shouldRetry operation retries
    else Effect.throw error

/-- The request of `executeBatch`. -/
def postBatch (requests : List α) : BatchM α ε (List BatchPart) := fun exchanges =>
  (api.post exchanges requests, exchanges ++ [⟨requests, api.post exchanges requests⟩])

def isRateLimitedBatch : BatchError ε → Bool
  | .api status apiError => isRateLimitApiError status apiError
  | _ => false

def executeBatch (requests : List α) : BatchM α ε (List BatchSubResponse) :=
  withBackoff api isRateLimitedBatch
    (do
      let parts ← postBatch api requests
      pure (parseBatchResponseBody parts))
    defaultMaxRetries

def collectRateLimitedIndices (responses : List BatchSubResponse) : List ℕ :=
  (responses.zipIdx.filter (·.1.isRateLimited)).map (·.2)

structure RetryRound (α : Type) where
  stillPending : List (α × ℕ) := []
  results : List BatchSubResponse

/-- One iteration over the pending sub-requests, each with its response. -/
def placeRetry (round : RetryRound α) (item : (α × ℕ) × Option BatchSubResponse) : RetryRound α :=
  match item.2 with
  | none => round
  | some response =>
    if response.isRateLimited then { round with stillPending := round.stillPending ++ [item.1] }
    else { round with results := round.results.set item.1.2 response }

/-- The rounds of `retryRateLimitedSubRequests`, with some attempts left. -/
def retryRounds : ℕ → List (α × ℕ) → List BatchSubResponse → BatchM α ε (List BatchSubResponse)
  | 0, pending, results =>
    pure (pending.foldl (fun results entry => results.set entry.2 tooManyRequests) results)
  | attempts + 1, pending, results =>
    if pending.isEmpty then pure results
    else do
      abortableSleep api
      let responses ← executeBatch api (pending.map (·.1))
      let round := (zipIndexed pending responses).foldl placeRetry { results }
      retryRounds attempts round.stillPending round.results

def retryRateLimitedSubRequests (requests : List α) : BatchM α ε (List BatchSubResponse) :=
  retryRounds api defaultMaxRetries requests.zipIdx (List.replicate requests.length noResponse)

def rateLimitedRequests (chunk : List α) (indices : List ℕ) : Except (BatchError ε) (List α) :=
  indices.mapM fun index =>
    match chunk[index]? with
    | none => .error (.missingSubRequest index)
    | some request => .ok request

/-- What the retries gave is put back at the indices of the batch. -/
def mergeRetries (responses : List BatchSubResponse) (indices : List ℕ)
    (retryResponses : List BatchSubResponse) : List BatchSubResponse :=
  setEach (zipIndexed indices retryResponses) responses

/-- One batch of `executeBatchChunked`. -/
def executeChunk (chunk : List α) : BatchM α ε (List BatchSubResponse) := do
  let responses ← executeBatch api chunk
  let indices := collectRateLimitedIndices responses
  if indices.isEmpty then pure responses
  else
    match rateLimitedRequests chunk indices with
    | .error error => Effect.throw error
    | .ok requests => do
      let retryResponses ← retryRateLimitedSubRequests api requests
      pure (mergeRetries responses indices retryResponses)

/-- The loop of `executeBatchChunked`. -/
def executeChunks : List (List α) → List BatchSubResponse → BatchM α ε (List BatchSubResponse)
  | [], allResponses => pure allResponses
  | chunk :: chunks, allResponses => do
    let responses ← executeChunk api chunk
    executeChunks chunks (allResponses ++ responses)

def executeBatchChunked (requests : List α) : BatchM α ε (List BatchSubResponse) :=
  executeChunks api (chunks (googleBatchMaxSize - 1) requests) []

end Execution

/-! ## Parts of a response -/

section Parts

/-- The parts carry the Content-IDs of different sub-requests of a batch. -/
structure CarryContentIds (size : ℕ) (parts : List BatchPart) : Prop where
  indexed : ∀ part ∈ parts, ∃ index < size, part.contentIndex = some index
  nodup : (parts.map (·.contentIndex)).Nodup

/-- The response at a Content-ID. -/
def responseAt (parts : List BatchPart) (index : ℕ) : Option BatchSubResponse :=
  (parts.find? fun part => part.contentIndex = some index).map (·.response)

theorem responseAt_cons {part : BatchPart} {parts : List BatchPart} {index : ℕ}
    (hpart : part.contentIndex = some index) (i : ℕ) :
    responseAt (part :: parts) i = if index = i then some part.response else responseAt parts i := by
  unfold responseAt
  rw [List.find?_cons, hpart]
  by_cases hi : index = i
  · simp [hi]
  · simp [hi]

theorem responseAt_eq_none {parts : List BatchPart} {index : ℕ}
    (h : some index ∉ parts.map (·.contentIndex)) : responseAt parts index = none := by
  rw [responseAt, Option.map_eq_none_iff, List.find?_eq_none]
  intro part hmem hpart
  exact h (List.mem_map.2 ⟨part, hmem, of_decide_eq_true hpart⟩)

variable {size : ℕ} {parts : List BatchPart}

/-- **What the pass over the parts collects.** -/
theorem placeParts_spec (h : CarryContentIds size parts) (parsed : ParsedParts)
    (hbound : parsed.bound ≤ size) :
    (∀ i, (parts.foldl placePart parsed).results.get? i =
        (responseAt parts i).or (parsed.results.get? i)) ∧
      parsed.bound ≤ (parts.foldl placePart parsed).bound ∧
      (parts.foldl placePart parsed).bound ≤ size ∧
      (∀ i, (responseAt parts i).isSome → i < (parts.foldl placePart parsed).bound) ∧
      ((parts.foldl placePart parsed).bound = parsed.bound ∨
        ∃ i, (parts.foldl placePart parsed).bound = i + 1 ∧ (responseAt parts i).isSome) := by
  induction parts generalizing parsed with
  | nil => exact ⟨fun _ => rfl, le_rfl, hbound, fun i hi => (by cases hi), Or.inl rfl⟩
  | cons part parts ih =>
    obtain ⟨index, hindex, hpart⟩ := h.indexed part List.mem_cons_self
    have hnodup := List.nodup_cons.1 h.nodup
    have htail : CarryContentIds size parts :=
      ⟨fun p hp => h.indexed p (List.mem_cons_of_mem _ hp), hnodup.2⟩
    have hplace : placePart parsed part =
        ⟨parsed.results.set index part.response, max parsed.bound (index + 1)⟩ := by
      rw [placePart, hpart]
      rfl
    obtain ⟨hresults, hle, hsize, hsome, hlast⟩ :=
      ih htail (placePart parsed part) (by rw [hplace]; exact max_le hbound hindex)
    have hnone : responseAt parts index = none :=
      responseAt_eq_none (by rw [← hpart]; exact hnodup.1)
    rw [hplace] at hresults hle hlast
    rw [List.foldl_cons, hplace] at *
    refine ⟨fun i => ?_, (le_max_left _ _).trans hle, hsize, fun i hi => ?_, ?_⟩
    · rw [hresults, responseAt_cons hpart, JsMap.get?_set]
      by_cases hi : index = i
      · subst hi
        simp [hnone]
      · simp [hi]
    · rw [responseAt_cons hpart] at hi
      split_ifs at hi with heq
      · subst heq
        exact (le_max_right _ _).trans hle
      · exact hsome i hi
    · rcases hlast with hlast | ⟨i, hlast, hi⟩
      · rcases le_total (index + 1) parsed.bound with hcase | hcase
        · exact Or.inl (by rw [hlast, max_eq_left hcase])
        · refine Or.inr ⟨index, by rw [hlast, max_eq_right hcase], ?_⟩
          rw [responseAt_cons hpart, if_pos rfl]
          rfl
      · refine Or.inr ⟨i, hlast, ?_⟩
        rw [responseAt_cons hpart]
        split_ifs
        · rfl
        · exact hi

/-- **The responses of a batch** stand at the Content-IDs of their parts, as far as the last one that
is there. -/
theorem parseBatchResponseBody_spec (h : CarryContentIds size parts) :
    (parseBatchResponseBody parts).length ≤ size ∧
      (∀ i, (parseBatchResponseBody parts)[i]? =
        if i < (parseBatchResponseBody parts).length then
          some ((responseAt parts i).getD noResponse) else none) ∧
      (∀ i, (responseAt parts i).isSome → i < (parseBatchResponseBody parts).length) ∧
      ∀ i, (parseBatchResponseBody parts).length = i + 1 → (responseAt parts i).isSome := by
  obtain ⟨hresults, -, hsize, hsome, hlast⟩ := placeParts_spec h {} (Nat.zero_le _)
  have hlength : (parseBatchResponseBody parts).length = (parts.foldl placePart {}).bound := by
    simp [parseBatchResponseBody]
  rw [hlength]
  refine ⟨hsize, fun i => ?_, hsome, fun i hi => ?_⟩
  · split_ifs with hi
    · simp [parseBatchResponseBody, hi, hresults]
    · simp [parseBatchResponseBody, hi]
  · rcases hlast with hlast | ⟨j, hlast, hj⟩
    · rw [hlast] at hi
      cases hi
    · obtain rfl : j = i := by omega
      exact hj

end Parts

/-! ## Answers -/

section Answers

variable {α ε : Type} [DecidableEq α]

/-- What an exchange answers to a sub-request that was sent with it: nothing when the batch failed, and
otherwise its response, if there is a part for it. -/
def BatchExchange.answer (exchange : BatchExchange α ε) (request : α) :
    Option (Option BatchSubResponse) :=
  if request ∈ exchange.requests then
    match exchange.reply with
    | .error _ => none
    | .ok parts => some (responseAt parts (exchange.requests.idxOf request))
  else none

def answersTo (exchanges : List (BatchExchange α ε)) (request : α) :
    List (Option BatchSubResponse) :=
  exchanges.filterMap (·.answer request)

/-- The entry of a sub-request that may be sent some times more, by the answers to these sends. -/
inductive Settles : ℕ → List (Option BatchSubResponse) → BatchSubResponse → Prop
  | exhausted : Settles 0 [] tooManyRequests
  | rateLimited {sends : ℕ} {response entry : BatchSubResponse}
      {answers : List (Option BatchSubResponse)} (h : response.isRateLimited = true)
      (hrest : Settles sends answers entry) : Settles (sends + 1) (some response :: answers) entry
  | answered {sends : ℕ} {response : BatchSubResponse} (h : response.isRateLimited = false) :
      Settles (sends + 1) [some response] response
  | omitted {sends : ℕ} : Settles (sends + 1) [none] noResponse

/-- Google answers a batch with parts that carry Content-IDs of its sub-requests. -/
def BatchApi.CarriesContentIds (api : BatchApi α ε) : Prop :=
  ∀ exchanges requests parts, api.post exchanges requests = .ok parts →
    CarryContentIds requests.length parts

/-- The responses of a batch that was sent, perhaps after it failed as a whole. -/
def Replied (requests : List α) (responses : List BatchSubResponse)
    (exchanges : List (BatchExchange α ε)) : Prop :=
  ∃ parts, CarryContentIds requests.length parts ∧ responses = parseBatchResponseBody parts ∧
    ∀ request, answersTo exchanges request =
      if request ∈ requests then [responseAt parts (requests.idxOf request)] else []

theorem answersTo_append (l l' : List (BatchExchange α ε)) (request : α) :
    answersTo (l ++ l') request = answersTo l request ++ answersTo l' request :=
  List.filterMap_append

variable {api : BatchApi α ε} {R : BatchError ε → List (BatchExchange α ε) → Prop}

omit [DecidableEq α] in
theorem wp_abortableSleep {Q : PUnit → List (BatchExchange α ε) → Prop}
    {s : List (BatchExchange α ε)} (h : Q ⟨⟩ s) :
    Effect.wp (abortableSleep api) Q (fun _ _ => True) s := by
  unfold abortableSleep
  rw [Effect.wp_bind, Effect.wp_gets]
  cases api.aborted s with
  | none => exact h
  | some reason => trivial

variable {requests : List α} {responses : List BatchSubResponse} {exchanges : List (BatchExchange α ε)}

omit [DecidableEq α] in
theorem wp_postBatch {Q : List BatchPart → List (BatchExchange α ε) → Prop} {s : List (BatchExchange α ε)}
    (hok : ∀ parts, api.post s requests = .ok parts → Q parts (s ++ [⟨requests, .ok parts⟩]))
    (herror : ∀ e, api.post s requests = .error e → R e (s ++ [⟨requests, .error e⟩])) :
    Effect.wp (postBatch api requests) Q R s := by
  unfold Effect.wp postBatch
  cases hpost : api.post s requests with
  | ok parts => exact hok parts hpost
  | error e => exact herror e hpost

theorem replied_ok {parts : List BatchPart} (hparts : CarryContentIds requests.length parts) :
    Replied requests (parseBatchResponseBody parts) [(⟨requests, .ok parts⟩ : BatchExchange α ε)] := by
  refine ⟨parts, hparts, rfl, fun request => ?_⟩
  by_cases hmem : request ∈ requests <;> simp [answersTo, BatchExchange.answer, hmem]

theorem Replied.failed (h : Replied requests responses exchanges) (e : BatchError ε) :
    Replied requests responses (⟨requests, .error e⟩ :: exchanges) := by
  obtain ⟨parts, hparts, hresponses, hanswers⟩ := h
  refine ⟨parts, hparts, hresponses, fun request => ?_⟩
  rw [← hanswers]
  by_cases hmem : request ∈ requests <;> simp [answersTo, BatchExchange.answer, hmem]

/-- **A batch that returns** has been answered once. -/
theorem wp_executeBatch (hapi : api.CarriesContentIds) (requests : List α)
    (s : List (BatchExchange α ε)) :
    Effect.wp (executeBatch api requests)
      (fun responses s' => ∃ exchanges, s' = s ++ exchanges ∧ Replied requests responses exchanges)
      (fun _ _ => True) s := by
  unfold executeBatch
  generalize defaultMaxRetries = retries
  -- each failure of the whole batch adds an exchange that answers nothing
  induction retries generalizing s with
  | zero =>
    rw [withBackoff, Effect.wp_bind]
    exact wp_postBatch (fun _ hparts => ⟨_, rfl, replied_ok (hapi _ _ _ hparts)⟩) fun _ _ => trivial
  | succ retries ih =>
    rw [withBackoff, Effect.wp_recover, Effect.wp_bind]
    refine wp_postBatch (fun _ hparts => ⟨_, rfl, replied_ok (hapi _ _ _ hparts)⟩) fun e _ => ?_
    split_ifs with hretry
    · rw [Effect.wp_bind]
      refine wp_abortableSleep (Effect.wp_mono (ih _) ?_ fun _ _ h => h)
      rintro responses s' ⟨exchanges, rfl, hreplied⟩
      exact ⟨⟨requests, .error e⟩ :: exchanges, by simp, hreplied.failed e⟩
    · trivial

/-- The answer to one sub-request of a batch, and what stands at its index. -/
theorem Replied.at (h : Replied requests responses exchanges) (hnodup : requests.Nodup) {index : ℕ} {request : α}
    (hindex : requests[index]? = some request) : (∃ response, answersTo exchanges request = [some response] ∧
      responses[index]? = some response) ∨
      answersTo exchanges request = [none] ∧
        (responses[index]? = none ∨ responses[index]? = some noResponse) := by
  obtain ⟨parts, hparts, rfl, hanswers⟩ := h
  obtain ⟨-, hget, hsome, -⟩ := parseBatchResponseBody_spec hparts
  obtain ⟨hlt, rfl⟩ := List.getElem?_eq_some_iff.1 hindex
  rw [hanswers, if_pos (List.getElem_mem hlt), hnodup.idxOf_getElem, hget]
  cases hat : responseAt parts index with
  | none =>
    refine Or.inr ⟨rfl, ?_⟩
    split_ifs
    · exact Or.inr rfl
    · exact Or.inl rfl
  | some response =>
    exact Or.inl ⟨response, rfl, if_pos (hsome index (by rw [hat]; rfl))⟩

/-- A batch comes back with as many responses as it has sub-requests if its last one is answered. -/
theorem Replied.length_eq (h : Replied requests responses exchanges) (hnodup : requests.Nodup)
    (hlast : ∀ request, requests.getLast? = some request → (answersTo exchanges request).head? ≠ some none) :
    responses.length = requests.length := by
  obtain ⟨parts, hparts, rfl, hanswers⟩ := h
  obtain ⟨hle, hget, hsome, -⟩ := parseBatchResponseBody_spec hparts
  refine le_antisymm hle ?_
  rcases List.eq_nil_or_concat' requests with rfl | ⟨front, request, rfl⟩
  · exact Nat.zero_le _
  have hlast := hlast request List.getLast?_concat
  rw [hanswers, if_pos (by simp)] at hlast
  have hidx : (front ++ [request]).idxOf request = front.length := by
    have := hnodup.idxOf_getElem front.length (by simp)
    simpa using this
  rw [hidx] at hlast
  cases hat : responseAt parts front.length with
  | none => exact absurd (by rw [hat]; rfl) hlast
  | some response =>
    rw [List.length_append]
    exact hsome front.length (by rw [hat]; rfl)

theorem Replied.eq_nil (h : Replied requests responses exchanges) {request : α} (hnot : request ∉ requests) :
    answersTo exchanges request = [] := by
  obtain ⟨parts, -, -, hanswers⟩ := h
  rw [hanswers, if_neg hnot]

/-! ## Retries -/

omit [DecidableEq α] in
/-- **What one round of retries does**: rate limited sub-requests stay pending, the other responses
become results. -/
theorem placeRetries_eq (items : List ((α × ℕ) × Option BatchSubResponse)) (round : RetryRound α) :
    items.foldl placeRetry round =
      { stillPending := round.stillPending ++
          (items.filter fun item => item.2.any (·.isRateLimited)).map (·.1)
        results := setEach (items.map fun item =>
          (item.1.2, item.2.filter fun response => !response.isRateLimited)) round.results } := by
  induction items generalizing round with
  | nil => simp [setEach]
  | cons item items ih =>
    rw [List.foldl_cons, ih]
    obtain ⟨entry, response | response⟩ := item
    · rfl
    · cases hlimited : response.isRateLimited with
      | true =>
        have hfilter : (some response).filter (fun response => !response.isRateLimited) = none := by
          simp [Option.filter, hlimited]
        simp [placeRetry, hlimited, setEach, hfilter]
      | false =>
        have hfilter : (some response).filter (fun response => !response.isRateLimited) =
            some response := by simp [Option.filter, hlimited]
        simp [placeRetry, hlimited, setEach, hfilter]

/-- What the retries of rate limited sub-requests have done: the entry at the index of each one is the
one that its answers settle, and the others are as before. -/
structure Retried (sends : ℕ) (pending : List (α × ℕ)) (before after : List BatchSubResponse)
    (exchanges : List (BatchExchange α ε)) : Prop where
  silent : ∀ request ∉ pending.map (·.1), answersTo exchanges request = []
  kept : ∀ index ∉ pending.map (·.2), after[index]? = before[index]?
  settled : ∀ entry ∈ pending, ∃ result, after[entry.2]? = some result ∧
    Settles sends (answersTo exchanges entry.1) result

section Rounds

variable {pending : List (α × ℕ)} {results : List BatchSubResponse}

theorem retried_exhausted (hindices : (pending.map (·.2)).Nodup)
    (hresults : ∀ entry ∈ pending, results[entry.2]? = some noResponse) :
    Retried 0 pending results
      (pending.foldl (fun results entry => results.set entry.2 tooManyRequests) results)
      ([] : List (BatchExchange α ε)) := by
  have hset : pending.foldl (fun results entry => results.set entry.2 tooManyRequests) results =
      setEach (pending.map fun entry => (entry.2, some tooManyRequests)) results := by
    rw [setEach, List.foldl_map]
  have hkeys : ((pending.map fun entry => (entry.2, some tooManyRequests)).map Prod.fst).Nodup := by
    rw [List.map_map]
    exact hindices
  refine ⟨fun _ _ => rfl, fun index hindex => ?_, fun entry hentry => ?_⟩
  · rw [hset, getElem?_setEach hkeys, JsMap.findEntry_eq_none_iff.2]
    · simp
    · rw [List.map_map]
      exact hindex
  · refine ⟨tooManyRequests, ?_, .exhausted⟩
    rw [hset, getElem?_setEach hkeys, hresults entry hentry,
      (JsMap.findEntry_eq_some_iff hkeys).2 (List.mem_map.2 ⟨entry, hentry, rfl⟩)]
    rfl

omit [DecidableEq α] in
/-- **Where a round leaves a sub-request**: it stays pending when its response is rate limited, and its
result is its response otherwise. -/
theorem placeRetries_spec (results responses : List BatchSubResponse)
    (hindices : (pending.map (·.2)).Nodup) {round : RetryRound α}
    (hround : round = (zipIndexed pending responses).foldl placeRetry ⟨[], results⟩) :
    (∀ entry ∈ round.stillPending, entry ∈ pending) ∧ round.stillPending.Sublist pending ∧
      (∀ index ∉ pending.map (·.2), round.results[index]? = results[index]?) ∧
      ∀ (position : ℕ) (entry : α × ℕ), pending[position]? = some entry →
        (entry ∈ round.stillPending ↔ responses[position]?.any (·.isRateLimited) = true) ∧
        round.results[entry.2]? = results[entry.2]?.map
          ((responses[position]?.filter fun response => !response.isRateLimited).getD ·) := by
  have hnodup : pending.Nodup := hindices.of_map
  have hsnd : ((zipIndexed pending responses).map fun item =>
      (item.1.2, item.2.filter fun response => !response.isRateLimited)).map Prod.fst =
      pending.map (·.2) := by
    have hfst := congrArg (List.map (·.2)) (map_fst_zipIndexed pending responses)
    rw [List.map_map] at hfst ⊢
    exact hfst
  have hkeys := hsnd ▸ hindices
  have hsublist : round.stillPending.Sublist pending := by
    rw [hround, placeRetries_eq]
    refine (List.filter_sublist.map _).trans ?_
    rw [map_fst_zipIndexed]
  subst hround
  refine ⟨fun entry hentry => hsublist.subset hentry, hsublist, fun index hindex => ?_,
    fun position entry hposition => ?_⟩
  · rw [placeRetries_eq, getElem?_setEach hkeys, JsMap.findEntry_eq_none_iff.2 (hsnd ▸ hindex)]
    simp
  · rw [placeRetries_eq]
    constructor
    · simp only [List.nil_append, List.mem_map, List.mem_filter, Prod.exists, exists_and_right,
        exists_eq_right]
      constructor
      · rintro ⟨response, hmem, hlimited⟩
        obtain ⟨i, hi, rfl⟩ := mem_zipIndexed.1 hmem
        obtain rfl : i = position := by
          obtain ⟨hlt, hentry⟩ := List.getElem?_eq_some_iff.1 hposition
          exact ((List.getElem?_inj hlt hnodup).1 (hposition.trans hi.symm)).symm
        exact hlimited
      · exact fun hlimited => ⟨_, mem_zipIndexed.2 ⟨position, hposition, rfl⟩, hlimited⟩
    · rw [getElem?_setEach hkeys, (JsMap.findEntry_eq_some_iff hkeys).2 (List.mem_map.2
        ⟨_, mem_zipIndexed.2 ⟨position, hposition, rfl⟩, rfl⟩)]
      rfl

theorem Retried.round {sends : ℕ} {responses after : List BatchSubResponse}
    {first exchanges : List (BatchExchange α ε)} (hrequests : (pending.map (·.1)).Nodup)
    (hindices : (pending.map (·.2)).Nodup)
    (hresults : ∀ entry ∈ pending, results[entry.2]? = some noResponse)
    (hfirst : Replied (pending.map (·.1)) responses first) {round : RetryRound α}
    (hround : round = (zipIndexed pending responses).foldl placeRetry ⟨[], results⟩)
    (h : Retried sends round.stillPending round.results after exchanges) :
    Retried (sends + 1) pending results after (first ++ exchanges) := by
  obtain ⟨hstill, -, hkept, hplaced⟩ := placeRetries_spec results responses hindices hround
  refine ⟨fun request hrequest => ?_, fun index hindex => ?_, fun entry hentry => ?_⟩
  · rw [answersTo_append, hfirst.eq_nil hrequest, h.silent request fun hin => ?_]
    · rfl
    · obtain ⟨entry, hentry, rfl⟩ := List.mem_map.1 hin
      exact hrequest (List.mem_map_of_mem (hstill entry hentry))
  · rw [h.kept index fun hin => ?_, hkept index hindex]
    obtain ⟨entry, hentry, rfl⟩ := List.mem_map.1 hin
    exact hindex (List.mem_map_of_mem (hstill entry hentry))
  · obtain ⟨position, hposition⟩ := List.getElem?_of_mem hentry
    obtain ⟨hpending, hresult⟩ := hplaced position entry hposition
    rw [hresults entry hentry, Option.map_some] at hresult
    rw [answersTo_append]
    -- a sub-request that does not stay pending keeps its result and is not sent again
    have hdone : entry ∉ round.stillPending →
        after[entry.2]? = round.results[entry.2]? ∧ answersTo exchanges entry.1 = [] := by
      refine fun hnot => ⟨h.kept _ fun hin => ?_, h.silent _ fun hin => ?_⟩
      · obtain ⟨other, hother, heq⟩ := List.mem_map.1 hin
        obtain rfl := List.inj_on_of_nodup_map hindices (hstill other hother) hentry heq
        exact hnot hother
      · obtain ⟨other, hother, heq⟩ := List.mem_map.1 hin
        obtain rfl := List.inj_on_of_nodup_map hrequests (hstill other hother) hentry heq
        exact hnot hother
    rcases hfirst.at hrequests (by rw [List.getElem?_map, hposition]; rfl) with
      ⟨response, hanswer, hresponse⟩ | ⟨hanswer, hresponse⟩
    · rw [hresponse] at hpending hresult
      cases hlimited : response.isRateLimited with
      | true =>
        obtain ⟨result, hafter, hsettles⟩ := h.settled entry (hpending.2 hlimited)
        exact ⟨result, hafter, by rw [hanswer]; exact .rateLimited hlimited hsettles⟩
      | false =>
        obtain ⟨hafter, hsilent⟩ := hdone fun hin => by
          rw [Option.any_some, hlimited] at hpending
          cases hpending.1 hin
        refine ⟨response, ?_, by rw [hanswer, hsilent]; exact .answered hlimited⟩
        rw [hafter, hresult, Option.filter, hlimited]
        rfl
    · have hnone : (responses[position]?.any (·.isRateLimited)) = false ∧
          (responses[position]?.filter fun response => !response.isRateLimited).getD noResponse =
            noResponse := by
        rcases hresponse with hresponse | hresponse <;> rw [hresponse] <;> exact ⟨rfl, rfl⟩
      rw [hnone.1] at hpending
      rw [hnone.2] at hresult
      obtain ⟨hafter, hsilent⟩ := hdone fun hin => by cases hpending.1 hin
      exact ⟨noResponse, hafter.trans hresult, by rw [hanswer, hsilent]; exact .omitted⟩

end Rounds

variable {api : BatchApi α ε}

/-- **The rounds of retries** settle every pending sub-request. -/
theorem wp_retryRounds (hapi : api.CarriesContentIds) (attempts : ℕ) (pending : List (α × ℕ))
    (results : List BatchSubResponse) (s : List (BatchExchange α ε))
    (hrequests : (pending.map (·.1)).Nodup) (hindices : (pending.map (·.2)).Nodup)
    (hresults : ∀ entry ∈ pending, results[entry.2]? = some noResponse) :
    Effect.wp (retryRounds api attempts pending results)
      (fun after s' => ∃ exchanges, s' = s ++ exchanges ∧
        Retried attempts pending results after exchanges) (fun _ _ => True) s := by
  induction attempts generalizing pending results s with
  | zero => exact ⟨[], (List.append_nil s).symm, retried_exhausted hindices hresults⟩
  | succ attempts ih =>
    rw [retryRounds]
    split_ifs with hempty
    · obtain rfl := List.isEmpty_iff.1 hempty
      exact ⟨[], (List.append_nil s).symm, fun _ _ => rfl, fun _ _ => rfl,
        fun _ hentry => absurd hentry List.not_mem_nil⟩
    · rw [Effect.wp_bind]
      refine wp_abortableSleep ?_
      rw [Effect.wp_bind]
      refine Effect.wp_mono (wp_executeBatch hapi (pending.map (·.1)) s) ?_ fun _ _ h => h
      rintro responses s' ⟨first, rfl, hfirst⟩
      obtain ⟨-, hsublist, -, hplaced⟩ := placeRetries_spec results responses hindices rfl
      refine Effect.wp_mono (ih _ _ _ (hrequests.sublist (hsublist.map _))
        (hindices.sublist (hsublist.map _)) fun entry hentry => ?_) ?_ fun _ _ h => h
      · obtain ⟨position, hposition⟩ := List.getElem?_of_mem (hsublist.subset hentry)
        obtain ⟨hpending, hresult⟩ := hplaced position entry hposition
        obtain ⟨response, hresponse, hlimited⟩ := (Option.any_eq_true _ _).1 (hpending.1 hentry)
        rw [hresult, hresults entry (hsublist.subset hentry), hresponse, Option.filter, hlimited]
        rfl
      · rintro after s'' ⟨exchanges, rfl, hretried⟩
        exact ⟨first ++ exchanges, by rw [List.append_assoc],
          hretried.round hrequests hindices hresults hfirst rfl⟩

/-! ## Batches -/

/-- The entries of a batch: each one is what the answers to its sub-request settle, and only the entry
of an omitted sub-request may be missing. -/
structure Entered (chunk : List α) (entries : List BatchSubResponse)
    (exchanges : List (BatchExchange α ε)) : Prop where
  silent : ∀ request ∉ chunk, answersTo exchanges request = []
  settled : ∀ (index : ℕ) (request : α), chunk[index]? = some request →
    ∃ entry, Settles (defaultMaxRetries + 1) (answersTo exchanges request) entry ∧
      (entries[index]? = some entry ∨
        entries[index]? = none ∧ answersTo exchanges request = [none])

omit [DecidableEq α] in
theorem mem_collectRateLimitedIndices {index : ℕ} : index ∈ collectRateLimitedIndices responses ↔
      ∃ response, responses[index]? = some response ∧ response.isRateLimited = true := by
  simp [collectRateLimitedIndices, List.mem_zipIdx_iff_getElem?]

omit [DecidableEq α] in
theorem nodup_collectRateLimitedIndices (responses : List BatchSubResponse) :
    (collectRateLimitedIndices responses).Nodup := by
  refine List.Nodup.sublist (List.filter_sublist.map _) ?_
  rw [List.zipIdx_map_snd]
  exact List.nodup_range'

omit [DecidableEq α] in
theorem rateLimitedRequests_ok {chunk : List α} {indices : List ℕ}
    (h : (rateLimitedRequests chunk indices : Except (BatchError ε) (List α)) = .ok requests) :
    requests.map some = indices.map (chunk[·]?) := by
  unfold rateLimitedRequests at h
  induction indices generalizing requests with
  | nil =>
    obtain rfl := Except.ok.inj h
    rfl
  | cons index indices ih =>
    rw [List.mapM_cons] at h
    obtain ⟨request, hrequest, h⟩ := bind_eq_ok_iff.1 h
    obtain ⟨rest, hrest, h⟩ := bind_eq_ok_iff.1 h
    obtain rfl := Except.ok.inj h
    cases hindex : chunk[index]? with
    | none => simp [hindex] at hrequest
    | some found =>
      simp only [hindex, Except.ok.injEq] at hrequest
      rw [List.map_cons, List.map_cons, ih hrest, hindex, hrequest]

section Chunk

variable {chunk requests : List α} {responses retryResponses : List BatchSubResponse}
  {first exchanges : List (BatchExchange α ε)}

/-- **The entries of a batch**, from its first send and the retries of what was rate limited. -/
theorem entered_of_retried (hnodup : chunk.Nodup) (hfirst : Replied chunk responses first)
    (hrequests : requests.map some = (collectRateLimitedIndices responses).map (chunk[·]?))
    (hretried : Retried defaultMaxRetries requests.zipIdx
      (List.replicate requests.length noResponse) retryResponses exchanges) :
    Entered chunk (mergeRetries responses (collectRateLimitedIndices responses) retryResponses)
      (first ++ exchanges) := by
  have hfst : requests.zipIdx.map (·.1) = requests := List.zipIdx_map_fst ..
  have hkeys : ((zipIndexed (collectRateLimitedIndices responses) retryResponses).map
      Prod.fst).Nodup := by
    rw [map_fst_zipIndexed]
    exact nodup_collectRateLimitedIndices responses
  -- the retried sub-requests stand at the collected indices
  have hat : ∀ (position : ℕ) (request : α), requests[position]? = some request ↔
      ∃ index, (collectRateLimitedIndices responses)[position]? = some index ∧
        chunk[index]? = some request := by
    intro position request
    have hget := congrArg (·[position]?) hrequests
    simp only [List.getElem?_map] at hget
    cases hindex : (collectRateLimitedIndices responses)[position]? with
    | none =>
      rw [hindex, Option.map_none, Option.map_eq_none_iff] at hget
      simp [hget]
    | some index =>
      rw [hindex, Option.map_some, Option.map_eq_some_iff] at hget
      obtain ⟨found, hfound, heq⟩ := hget
      simp [hfound, ← heq]
  have hmem : ∀ request, request ∈ requests ↔ ∃ index,
      index ∈ collectRateLimitedIndices responses ∧ chunk[index]? = some request := by
    intro request
    rw [List.mem_iff_getElem?]
    constructor
    · rintro ⟨position, hposition⟩
      obtain ⟨index, hindex, hchunk⟩ := (hat _ _).1 hposition
      exact ⟨index, List.mem_of_getElem? hindex, hchunk⟩
    · rintro ⟨index, hindex, hchunk⟩
      obtain ⟨position, hposition⟩ := List.getElem?_of_mem hindex
      exact ⟨position, (hat _ _).2 ⟨index, hposition, hchunk⟩⟩
  refine ⟨fun request hrequest => ?_, fun index request hindex => ?_⟩
  · rw [answersTo_append, hfirst.eq_nil hrequest, hretried.silent request fun hin => ?_]
    · rfl
    · rw [hfst] at hin
      obtain ⟨index, -, hchunk⟩ := (hmem request).1 hin
      exact hrequest (List.mem_of_getElem? hchunk)
  · rw [answersTo_append, mergeRetries, getElem?_setEach hkeys]
    by_cases hlimited : index ∈ collectRateLimitedIndices responses
    · obtain ⟨response, hresponse, hrate⟩ := mem_collectRateLimitedIndices.1 hlimited
      obtain ⟨position, hposition⟩ := List.getElem?_of_mem hlimited
      obtain ⟨result, hresult, hsettles⟩ := hretried.settled (request, position)
        (List.mem_zipIdx_iff_getElem?.2 ((hat _ _).2 ⟨index, hposition, hindex⟩))
      have hanswer : answersTo first request = [some response] := by
        rcases hfirst.at hnodup hindex with ⟨found, hanswer, hfound⟩ | ⟨-, hfound | hfound⟩
        · rw [hresponse] at hfound
          rw [hanswer, Option.some.inj hfound]
        · rw [hresponse] at hfound
          cases hfound
        · rw [hresponse] at hfound
          obtain rfl := Option.some.inj hfound
          cases hrate
      refine ⟨result, by rw [hanswer]; exact .rateLimited hrate hsettles, Or.inl ?_⟩
      rw [hresponse, (JsMap.findEntry_eq_some_iff hkeys).2
        (mem_zipIndexed.2 ⟨position, hposition, rfl⟩), hresult]
      rfl
    · have hnot : request ∉ requests := fun hin => by
        obtain ⟨other, hother, hchunk⟩ := (hmem request).1 hin
        obtain ⟨hlt, hrequest⟩ := List.getElem?_eq_some_iff.1 hindex
        obtain rfl := (List.getElem?_inj hlt hnodup).1 (hindex.trans hchunk.symm)
        exact hlimited hother
      have hnone : JsMap.findEntry index
          (zipIndexed (collectRateLimitedIndices responses) retryResponses) = none :=
        JsMap.findEntry_eq_none_iff.2 (by rwa [map_fst_zipIndexed])
      rw [hretried.silent request (by rwa [hfst]), hnone, List.append_nil]
      rcases hfirst.at hnodup hindex with ⟨response, hanswer, hresponse⟩ | ⟨hanswer, hresponse⟩
      · have hrate : response.isRateLimited = false := by
          by_contra hrate
          exact hlimited (mem_collectRateLimitedIndices.2
            ⟨response, hresponse, Bool.of_not_eq_false hrate⟩)
        exact ⟨response, by rw [hanswer]; exact .answered hrate, Or.inl (by rw [hresponse]; rfl)⟩
      · refine ⟨noResponse, by rw [hanswer]; exact .omitted, ?_⟩
        rcases hresponse with hresponse | hresponse
        · exact Or.inr ⟨by rw [hresponse]; rfl, hanswer⟩
        · exact Or.inl (by rw [hresponse]; rfl)

end Chunk

/-- **One batch** and its retries. -/
theorem wp_executeChunk (hapi : api.CarriesContentIds) (chunk : List α) (hnodup : chunk.Nodup)
    (s : List (BatchExchange α ε)) :
    Effect.wp (executeChunk api chunk)
      (fun entries s' => ∃ exchanges, s' = s ++ exchanges ∧ Entered chunk entries exchanges ∧
        ((∀ request, chunk.getLast? = some request →
          (answersTo exchanges request).head? ≠ some none) → entries.length = chunk.length))
      (fun _ _ => True) s := by
  unfold executeChunk
  rw [Effect.wp_bind]
  refine Effect.wp_mono (wp_executeBatch hapi chunk s) ?_ fun _ _ h => h
  rintro responses s' ⟨first, rfl, hfirst⟩
  have hlength : ∀ exchanges : List (BatchExchange α ε), (∀ request, chunk.getLast? = some request →
      (answersTo (first ++ exchanges) request).head? ≠ some none) →
      responses.length = chunk.length := by
    refine fun exchanges hlast => hfirst.length_eq hnodup fun request hrequest => ?_
    obtain ⟨parts, -, -, hanswers⟩ := id hfirst
    have := hlast request hrequest
    rw [answersTo_append, hanswers, if_pos (List.mem_of_getLast? hrequest)] at this
    rw [hanswers, if_pos (List.mem_of_getLast? hrequest)]
    exact this
  dsimp only
  split_ifs with hempty
  · have hnil := List.isEmpty_iff.1 hempty
    have hentered := @entered_of_retried α ε _ chunk [] responses [] first []
      hnodup hfirst (by rw [hnil]; rfl) ⟨fun _ _ => rfl, fun _ _ => rfl,
        fun _ hentry => absurd hentry List.not_mem_nil⟩
    rw [hnil] at hentered
    exact ⟨first ++ [], by rw [List.append_nil], hentered, hlength []⟩
  · cases hrequests : rateLimitedRequests chunk (collectRateLimitedIndices responses) with
    | error e => trivial
    | ok requests =>
      dsimp only
      rw [Effect.wp_bind]
      have hmap := rateLimitedRequests_ok hrequests
      have hin : requests.Nodup := by
        refine List.Nodup.of_map some ?_
        rw [hmap]
        refine (nodup_collectRateLimitedIndices responses).map_on fun i hi j hj heq => ?_
        have hfound : chunk[i]? ∈ requests.map some := hmap ▸ List.mem_map_of_mem hi
        obtain ⟨request, -, hrequest⟩ := List.mem_map.1 hfound
        obtain ⟨hlt, -⟩ := List.getElem?_eq_some_iff.1 hrequest.symm
        exact (List.getElem?_inj hlt hnodup).1 heq
      refine Effect.wp_mono (wp_retryRounds hapi defaultMaxRetries requests.zipIdx
        (List.replicate requests.length noResponse) _ ?_ ?_ ?_) ?_ fun _ _ h => h
      · rw [List.zipIdx_map_fst]
        exact hin
      · rw [List.zipIdx_map_snd]
        exact List.nodup_range'
      · intro entry hentry
        have hget := List.mem_zipIdx_iff_getElem?.1 hentry
        obtain ⟨hlt, -⟩ := List.getElem?_eq_some_iff.1 hget
        rw [List.getElem?_replicate, if_pos hlt]
      · rintro retryResponses s' ⟨exchanges, rfl, hretried⟩
        refine ⟨first ++ exchanges, by rw [List.append_assoc],
          entered_of_retried hnodup hfirst hmap hretried, fun hlast => ?_⟩
        rw [mergeRetries, length_setEach, hlength exchanges hlast]

/-- The batches before the last one have come back with their last parts: the last sub-request of each
one is answered when it is first sent. -/
def CameBackWhole (batches : List (List α)) (exchanges : List (BatchExchange α ε)) : Prop :=
  ∀ batch ∈ batches.dropLast, ∀ request, batch.getLast? = some request →
    (answersTo exchanges request).head? ≠ some none

/-- **All batches**, one after the other. -/
theorem wp_executeChunks (hapi : api.CarriesContentIds) (batches : List (List α))
    (hnodup : batches.flatten.Nodup) (before : List BatchSubResponse)
    (s : List (BatchExchange α ε)) :
    Effect.wp (executeChunks api batches before)
      (fun entries s' => ∃ exchanges rest, s' = s ++ exchanges ∧ entries = before ++ rest ∧
        (∀ request ∉ batches.flatten, answersTo exchanges request = []) ∧
        (batches = [] → rest = []) ∧ (CameBackWhole batches exchanges → Entered batches.flatten rest exchanges))
      (fun _ _ => True) s := by
  induction batches generalizing before s with
  | nil =>
    exact ⟨[], [], by simp, by simp, fun _ _ => rfl, fun _ => rfl,
      fun _ => ⟨fun _ _ => rfl, fun index request h => by simp at h⟩⟩
  | cons batch batches ih =>
    rw [List.flatten_cons] at hnodup
    have hdisjoint := List.disjoint_of_nodup_append hnodup
    rw [executeChunks, Effect.wp_bind]
    refine Effect.wp_mono (wp_executeChunk hapi batch hnodup.of_append_left s) ?_ fun _ _ h => h
    rintro entries s' ⟨first, rfl, hfirst, hlength⟩
    refine Effect.wp_mono (ih hnodup.of_append_right (before ++ entries) _) ?_ fun _ _ h => h
    rintro all s'' ⟨exchanges, rest, rfl, rfl, hsilent, hnil, hentered⟩
    have hbatch : ∀ request ∈ batch,
        answersTo (first ++ exchanges) request = answersTo first request := fun request hrequest => by
      rw [answersTo_append, hsilent request (hdisjoint hrequest), List.append_nil]
    have hlater : ∀ request ∈ batches.flatten,
        answersTo (first ++ exchanges) request = answersTo exchanges request := by
      intro request hrequest
      rw [answersTo_append, hfirst.silent request fun h => hdisjoint h hrequest, List.nil_append]
    have hall : ∀ request ∉ batch ++ batches.flatten,
        answersTo (first ++ exchanges) request = [] := fun request hrequest => by
      rw [List.mem_append, not_or] at hrequest
      rw [answersTo_append, hfirst.silent request hrequest.1, hsilent request hrequest.2]
      rfl
    refine ⟨first ++ exchanges, entries ++ rest, by rw [List.append_assoc],
      by rw [List.append_assoc], hall, fun h => absurd h (List.cons_ne_nil _ _),
      fun hwhole => ⟨hall, ?_⟩⟩
    rw [List.flatten_cons]
    intro index request hindex
    by_cases hne : batches = []
    · -- the last batch may come back short
      rw [hnil hne, List.append_nil]
      rw [hne, List.flatten_nil, List.append_nil] at hindex
      rw [hbatch request (List.mem_of_getElem? hindex)]
      exact hfirst.settled index request hindex
    · rw [CameBackWhole, List.dropLast_cons_of_ne_nil hne, List.forall_mem_cons] at hwhole
      have hlast : entries.length = batch.length := hlength fun request hrequest => by
        rw [← hbatch request (List.mem_of_getLast? hrequest)]
        exact hwhole.1 request hrequest
      have hrest : CameBackWhole batches exchanges := fun other hother request hrequest => by
        rw [← hlater request (List.mem_flatten.2
          ⟨other, List.dropLast_subset _ hother, List.mem_of_getLast? hrequest⟩)]
        exact hwhole.2 other hother request hrequest
      by_cases hlt : index < batch.length
      · rw [List.getElem?_append_left hlt] at hindex
        rw [List.getElem?_append_left (hlast ▸ hlt), hbatch request (List.mem_of_getElem? hindex)]
        exact hfirst.settled index request hindex
      · rw [List.getElem?_append_right (Nat.le_of_not_lt hlt)] at hindex
        rw [List.getElem?_append_right (by omega), hlast,
          hlater request (List.mem_of_getElem? hindex)]
        exact (hentered hrest).settled _ request hindex

end Answers

/-! ## All sub-requests -/

/-- **Google batch responses line up with their requests**, when every batch before the last one comes
back with its last part. The entry of a sub-request is what the answers to its own sends settle; it is
missing only where the one send of it was not answered. -/
theorem executeBatchChunked_entries {α ε : Type} [DecidableEq α] {api : BatchApi (α × ℕ) ε}
    (hapi : api.CarriesContentIds) (requests : List α) {entries : List BatchSubResponse}
    {exchanges : List (BatchExchange (α × ℕ) ε)}
    (hrun : executeBatchChunked api requests.zipIdx [] = (.ok entries, exchanges))
    (hwhole : CameBackWhole (chunks (googleBatchMaxSize - 1) requests.zipIdx) exchanges) :
    ∀ (index : ℕ) (request : α), requests[index]? = some request →
      ∃ entry, Settles (defaultMaxRetries + 1) (answersTo exchanges (request, index)) entry ∧
        (entries[index]? = some entry ∨
          entries[index]? = none ∧ answersTo exchanges (request, index) = [none]) := by
  have hflatten : (chunks (googleBatchMaxSize - 1) requests.zipIdx).flatten = requests.zipIdx :=
    flatten_chunks _ _
  have hnodup : requests.zipIdx.Nodup := by
    refine List.Nodup.of_map (·.2) ?_
    rw [List.zipIdx_map_snd]
    exact List.nodup_range'
  obtain ⟨all, rest, rfl, rfl, -, -, hentered⟩ := Effect.wp_ok
    (wp_executeChunks hapi (chunks (googleBatchMaxSize - 1) requests.zipIdx) (by rwa [hflatten])
      [] []) hrun
  intro index request hindex
  refine (hentered hwhole).settled index (request, index) ?_
  rw [hflatten, List.getElem?_zipIdx, hindex]
  simp

namespace Example

def importRequest (uid : String) : BatchSubRequest :=
  { method := "POST", path := "/calendar/v3/calendars/primary/events/import", body := some uid }

def created (id : String) : BatchSubResponse :=
  { statusCode := 200, body := .obj [("id", .str id)] }

def limited : BatchSubResponse :=
  { statusCode := 429, body := .obj [("error", .obj [("message", .str "Rate Limit Exceeded")])] }

/-- Google rate limits the first of two imports once, and answers in the other order. -/
def limitsOnce : BatchApi (BatchSubRequest × ℕ) String where
  post _ requests :=
    match requests with
    | [_, _] => .ok [⟨some "<response-item-1>", created "second"⟩, ⟨some "<response-item-0>", limited⟩]
    | [_] => .ok [⟨some "<response-item-0>", created "first"⟩]
    | _ => .error (.other "unexpected batch")
  aborted _ := none

theorem carriesContentIds_limitsOnce : limitsOnce.CarriesContentIds := by
  rintro exchanges (_ | ⟨first, _ | ⟨second, _ | ⟨third, rest⟩⟩⟩) parts h <;> cases h
  · exact ⟨fun part hpart => ⟨0, by simp, by obtain rfl := List.mem_singleton.1 hpart; rfl⟩,
      by decide⟩
  · refine ⟨fun part hpart => ?_, by decide⟩
    rcases List.mem_pair.1 hpart with rfl | rfl
    · exact ⟨1, by simp, by rfl⟩
    · exact ⟨0, by simp, by rfl⟩

/-- Google rate limits an import whenever it is sent. -/
def limitsAlways : BatchApi (BatchSubRequest × ℕ) String where
  post _ requests :=
    match requests with
    | [_] => .ok [⟨some "<response-item-0>", limited⟩]
    | _ => .error (.other "unexpected batch")
  aborted _ := none

theorem carriesContentIds_limitsAlways : limitsAlways.CarriesContentIds := by
  rintro exchanges (_ | ⟨first, _ | ⟨second, rest⟩⟩) parts h <;> cases h
  exact ⟨fun part hpart => ⟨0, by simp, by obtain rfl := List.mem_singleton.1 hpart; rfl⟩,
    by decide⟩

end Example

/-- Two imports, of which the first is sent twice. -/
theorem executeBatchChunked_entries_limitsOnce :
    ∃ entries exchanges, executeBatchChunked Example.limitsOnce
        [Example.importRequest "a", Example.importRequest "b"].zipIdx [] = (.ok entries, exchanges) ∧
      ∀ (index : ℕ) (request : BatchSubRequest),
        [Example.importRequest "a", Example.importRequest "b"][index]? = some request →
        ∃ entry, Settles (defaultMaxRetries + 1) (answersTo exchanges (request, index)) entry ∧
          (entries[index]? = some entry ∨
            entries[index]? = none ∧ answersTo exchanges (request, index) = [none]) :=
  ⟨_, _, rfl, executeBatchChunked_entries Example.carriesContentIds_limitsOnce _ rfl
    fun _ hbatch => absurd hbatch List.not_mem_nil⟩

/-- The last response to a sub-request is its entry; without any the entry is missing or has the status
zero. -/
def LinesUp (answers : List (Option BatchSubResponse)) (entry : Option BatchSubResponse) : Prop :=
  match answers.reduceOption.getLast? with
  | some response => entry = some response
  | none => ∀ found, entry = some found → found.statusCode = 0

/-- **A sub-request that stays rate limited** has an entry that is no response to it. -/
theorem not_linesUp :
    Example.limitsAlways.CarriesContentIds ∧
      ∃ entries exchanges, executeBatchChunked Example.limitsAlways
          [Example.importRequest "a"].zipIdx [] = (.ok entries, exchanges) ∧
        ¬ LinesUp (answersTo exchanges (Example.importRequest "a", 0)) entries[0]? := by
  refine ⟨Example.carriesContentIds_limitsAlways, _, _, rfl, fun h => ?_⟩
  have hbody : some tooManyRequests = some Example.limited := h
  cases hbody

end Keeper.GoogleBatch
