import Keeper.Foundations.Effect
import Keeper.Foundations.JsMap
import Mathlib.Data.List.Basic

/-!
# Safe fetch

`createSafeFetch` (`packages/calendar/src/utils/safe-fetch.ts`): a URL is validated, its name is resolved, and
the request is sent to the addresses that were found; redirects are followed by hand, each as a hop of its own.
The URL parser, `ipaddr.js` and `tldts` are parameters, and so are the answers of the name servers and of the
network. Abort signals are left out: where one fires, a request fails.

* `resolveConnection`, `fetchPinned`, `followRedirects`, `createSafeFetch`: the functions of the source.
-/

namespace Keeper

namespace SafeFetch

/-! ## Values -/

/-- What is thrown. -/
structure JsError where
  isError : Bool := true
  name : String
  code : Option String := none
  message : String := ""
  deriving DecidableEq

def urlSafetyError (message : String) : JsError where
  name := "UrlSafetyError"
  message

structure Url where
  href : String
  protocol : String
  hostname : String
  host : String
  deriving DecidableEq

/-- The constructor of `URL`, its setter of `hostname`, and `getDomain`. -/
structure UrlLibrary where
  parse : String → Option Url
  resolve : String → String → Option String
  setHostname : Url → String → Url
  getDomain : String → Option String

/-- `ipaddr.js`. -/
structure IpLibrary where
  Address : Type
  parse : String → Option Address
  isIPv6 : Address → Bool
  isIPv4MappedAddress : Address → Bool
  toIPv4Address : Address → Address
  range : Address → String
  matchesCidr : Address → String → Bool

def IpLibrary.isValid (ip : IpLibrary) (address : String) : Bool := (ip.parse address).isSome

structure SafeFetchOptions where
  blockPrivateResolution : Bool := false
  allowedPrivateHosts : List String := []
  timeoutMs : Option ℕ := none

abbrev HeaderList := List (String × String)

/-- The bodies that are told apart. -/
inductive RequestBody
  | absent
  | text
  | urlSearchParams
  | blob
  | arrayBuffer
  | arrayBufferView
  | stream
  | formData
  deriving DecidableEq

/-- `Request`. -/
structure FetchRequest where
  url : String
  method : String := "GET"
  headers : HeaderList := []
  hasBody : Bool := false

/-- What is fetched: the text of a URL, or a `Request`. -/
inductive FetchInput
  | url (text : String)
  | request (request : FetchRequest)

/-- `BunFetchRequestInit`. -/
structure RequestInit where
  method : Option String := none
  headers : Option HeaderList := none
  body : RequestBody := .absent
  redirect : Option String := none
  serverName : Option String := none

/-- `Response`, with the URL from which on credentials were withheld. -/
structure FetchResponse where
  status : ℕ
  location : Option String := none
  withheldAt : Option String := none
  deriving DecidableEq

/-! ## The network -/

/-- A request that was passed to the network. -/
structure Sent where
  url : String
  method : String
  headers : HeaderList
  deriving DecidableEq

/-- A hop: its URL, the name that was looked up for it with the addresses that were found, and the requests
that were sent, the latest first. -/
structure Hop where
  url : String
  lookup : Option (String × List String) := none
  sent : List Sent := []
  deriving DecidableEq

/-- The answers to come of the name servers (for each lookup the records of either kind) and of the network,
whether the time is out, and the hops so far, the latest first. -/
structure FetchWorld where
  answers : ℕ → Option (List String) × Option (List String)
  outcomes : ℕ → Except JsError FetchResponse
  timedOut : Bool := false
  hops : List Hop := []

/-- A computation that may throw. -/
abbrev Fetching (α : Type) := Effect JsError FetchWorld α

/-- Throw, or go on with a value. -/
def ofExcept {α : Type} : Except JsError α → Fetching α
  | .ok a => pure a
  | .error e => Effect.throw e

def beginHop (url : String) : Fetching PUnit :=
  Effect.modify fun w => { w with hops := { url } :: w.hops }

def FetchInput.text : FetchInput → String
  | .url text => text
  | .request r => r.url

def FetchInput.headers : FetchInput → HeaderList
  | .url _ => []
  | .request r => r.headers

def requestMethod (input : FetchInput) (init : RequestInit) : String :=
  match init.method.filter (· ≠ "") with
  | some method => method.toUpper
  | none =>
    match input with
    | .request r => r.method.toUpper
    | .url _ => "GET"

/-- What a call of `fetch` passes to the network. -/
def sentOf (input : FetchInput) (init : RequestInit) : Sent where
  url := input.text
  method := requestMethod input init
  headers := init.headers.getD input.headers

def fetch (input : FetchInput) (init : RequestInit) : Fetching FetchResponse := fun w =>
  (w.outcomes 0,
    { w with
      outcomes := fun n => w.outcomes (n + 1)
      hops := w.hops.modifyHead fun hop => { hop with sent := sentOf input init :: hop.sent } })

/-! ## Addresses -/

section Model

variable (urls : UrlLibrary) (ip : IpLibrary) (options : SafeFetchOptions)

def normalizeToIPv4 (parsed : ip.Address) : ip.Address :=
  if ip.isIPv6 parsed && ip.isIPv4MappedAddress parsed then ip.toIPv4Address parsed else parsed

def isGloballyRoutableAddress (address : String) : Bool :=
  match ip.parse address with
  | none => false
  | some value =>
    let parsed := normalizeToIPv4 ip value
    if !ip.isIPv6 parsed then ip.range parsed == "unicast"
    else if ip.range parsed ≠ "unicast" ∨ ip.matchesCidr parsed "3fff::/20" = true then false
    else ip.matchesCidr parsed "2000::/3"

def assertGloballyRoutableAddress (address message : String) : Fetching PUnit :=
  if isGloballyRoutableAddress ip address then pure ⟨⟩ else Effect.throw (urlSafetyError message)

/-- `assertGloballyRoutableAddress`, of each. -/
def assertGloballyRoutableAddresses (message : String) : List String → Fetching PUnit
  | [] => pure ⟨⟩
  | address :: addresses => do
    assertGloballyRoutableAddress ip address message
    assertGloballyRoutableAddresses message addresses

def resolveAllAddresses (hostname : String) : Fetching (List String) := fun w =>
  let addresses := (w.answers 0).1.getD [] ++ (w.answers 0).2.getD []
  (if addresses.isEmpty then
      .error (urlSafetyError "The provided URL could not be resolved to any IP address.")
    else .ok addresses,
    { w with
      answers := fun n => w.answers (n + 1)
      hops := w.hops.modifyHead fun hop => { hop with lookup := some (hostname, addresses) } })

def stripBrackets (hostname : String) : String :=
  let opened := if hostname.toList.head? = some '[' then hostname.toList.tail else hostname.toList
  String.ofList (if opened.getLast? = some ']' then opened.dropLast else opened)

def validateProtocol (protocol : String) : Fetching PUnit :=
  if protocol = "http:" ∨ protocol = "https:" then pure ⟨⟩
  else Effect.throw (urlSafetyError ("URL scheme \"" ++ String.ofList (protocol.toList.erase ':') ++
    "\" is not allowed. Only HTTP and HTTPS are supported."))

/-! ## Connections -/

structure PinnedConnection where
  urls : List String
  host : String
  serverName : Option String

def invalidUrl (text : String) : JsError where
  name := "TypeError"
  message := text

def formatAddressForUrl (address : String) : Except JsError String :=
  match ip.parse address with
  | none => .error { name := "Error", message := address }
  | some parsed => .ok (if ip.isIPv6 parsed then "[" ++ address ++ "]" else address)

def pinnedUrl (parsed : Url) (address : String) : Except JsError String := do
  let literal ← formatAddressForUrl ip address
  let pinned := urls.setHostname parsed literal
  if pinned.hostname ≠ literal then
    .error (urlSafetyError "The validated address could not be pinned to the request.")
  else .ok pinned.href

def pinnedServerName (parsed : Url) : Option String :=
  if parsed.protocol = "https:" then some parsed.hostname else none

def buildPinnedConnection (parsed : Url) (addresses : List String) :
    Except JsError PinnedConnection := do
  let pinned ← addresses.mapM (pinnedUrl urls ip parsed)
  return { urls := pinned, host := parsed.host, serverName := pinnedServerName parsed }

/-- What `resolveConnection` makes of a URL that is parsed. -/
def resolveParsed (parsed : Url) : Fetching (Option PinnedConnection) := do
  validateProtocol parsed.protocol
  if !options.blockPrivateResolution then pure none
  else if options.allowedPrivateHosts.contains parsed.host then pure none
  else if ip.isValid (stripBrackets parsed.hostname) then do
    assertGloballyRoutableAddress ip (stripBrackets parsed.hostname)
      "The provided URL points to a private or reserved network address."
    pure none
  else do
    let addresses ← resolveAllAddresses (stripBrackets parsed.hostname)
    assertGloballyRoutableAddresses ip
      "The provided URL resolves to a private or reserved network address." addresses
    let connection ← ofExcept (buildPinnedConnection urls ip parsed addresses)
    pure (some connection)

/-- `resolveConnection`, with which a hop begins. -/
def resolveConnection (url : String) : Fetching (Option PinnedConnection) := do
  beginHop url
  match urls.parse url with
  | none => Effect.throw (invalidUrl url)
  | some parsed => resolveParsed urls ip options parsed

/-! ## Redirects -/

def resolveRedirectUrl (response : FetchResponse) (originalUrl : String) : Option String :=
  match response.location.filter (· ≠ "") with
  | none => none
  | some location => urls.resolve location originalUrl

def isTransportDowngrade (current next : Url) : Bool :=
  current.protocol = "https:" && next.protocol ≠ "https:"

def isDifferentSite (current next : Url) : Bool :=
  match (urls.getDomain current.hostname).filter (· ≠ ""),
    (urls.getDomain next.hostname).filter (· ≠ "") with
  | some currentDomain, some nextDomain => currentDomain ≠ nextDomain
  | _, _ => current.hostname ≠ next.hostname

def shouldWithholdAuthorization (current next : String) : Except JsError Bool :=
  match urls.parse current, urls.parse next with
  | some currentUrl, some nextUrl =>
    .ok (isTransportDowngrade currentUrl nextUrl || isDifferentSite urls currentUrl nextUrl)
  | none, _ => .error (invalidUrl current)
  | _, none => .error (invalidUrl next)

/-- `REDIRECT_STATUS_CODES`, and `isRedirect`. -/
def isRedirect (response : FetchResponse) : Bool :=
  [301, 302, 303, 307, 308].contains response.status

/-! ## Headers -/

/-- `Headers`: names are in lower case, and the values of one name are joined. -/
def toHeaders (headers : HeaderList) : JsMap String String :=
  headers.foldl (fun merged header =>
    match merged.get? header.1.toLower with
    | none => merged.set header.1.toLower header.2
    | some value => merged.set header.1.toLower (value ++ ", " ++ header.2)) JsMap.empty

def mergeHeaderRecord (input : FetchInput) (init : RequestInit) : HeaderList :=
  ((toHeaders (init.headers.getD [])).entries.foldl (fun merged header => merged.set header.1 header.2)
    (toHeaders input.headers)).entries

def withoutAuthorization (headers : HeaderList) : HeaderList :=
  headers.filter fun header => header.1.toLower ≠ "authorization"

/-- `headers.authorization` is not empty. -/
def hasAuthorizationValue (headers : HeaderList) : Bool :=
  headers.any fun header => header.1 = "authorization" && header.2 ≠ ""

def getHeadersForRedirect (headers : HeaderList) (currentUrl redirectUrl : String) :
    Except JsError HeaderList := do
  if ← shouldWithholdAuthorization urls currentUrl redirectUrl then return withoutAuthorization headers
  else return headers

/-- `{ ...headers, host }`. -/
def withHost (headers : HeaderList) (host : String) : HeaderList :=
  headers.filter (fun header => header.1 ≠ "host") ++ [("host", host)]

/-! ## Requests -/

def isStaleSocketError (error : JsError) : Bool := error.isError && error.code = some "ECONNRESET"

def isTransportFailure (error : JsError) : Bool :=
  error.isError && error.name ≠ "AbortError" && error.code.isSome

def isReplayableBody (body : RequestBody) : Bool := body ≠ .stream && body ≠ .formData

/-- `REPLAYABLE_METHODS`. -/
def isReplayableMethod (method : String) : Bool :=
  ["GET", "HEAD", "OPTIONS", "TRACE", "PROPFIND", "REPORT"].contains method

/-- A `Request` that carries a body. -/
def FetchInput.hasBody : FetchInput → Bool
  | .url _ => false
  | .request r => r.hasBody

def isReplayableRequest (input : FetchInput) (init : RequestInit) : Bool :=
  isReplayableMethod (requestMethod input init) && !input.hasBody && isReplayableBody init.body

def fetchWithStaleSocketRetry (input : FetchInput) (init : RequestInit) : Fetching FetchResponse :=
  Effect.recover (fetch input init) fun error =>
    if !isStaleSocketError error || !isReplayableRequest input init then Effect.throw error
    else fetch input init

def pinnedInput (input : FetchInput) (url : String) : FetchInput :=
  match input with
  | .request r => .request { r with url }
  | .url _ => .url url

/-- The init of `buildPinnedRequest`. -/
def pinnedInit (init : RequestInit) (headers : HeaderList) (connection : PinnedConnection) : RequestInit :=
  { init with
    headers := some (withHost headers connection.host)
    serverName :=
      match connection.serverName.filter (· ≠ "") with
      | some serverName => some serverName
      | none => init.serverName }

/-- The loop of `fetchPinned`. -/
def fetchPinnedAt (input : FetchInput) (init : RequestInit) (headers : HeaderList)
    (connection : PinnedConnection) : List String → JsError → Fetching FetchResponse
  | [], lastError => Effect.throw lastError
  | url :: rest, _ =>
    Effect.recover (fetchWithStaleSocketRetry (pinnedInput input url) (pinnedInit init headers connection))
      fun error =>
        if !isTransportFailure error || !isReplayableRequest input init then Effect.throw error
        else fetchPinnedAt input init headers connection rest error

def fetchPinned (input : FetchInput) (init : RequestInit) (headers : HeaderList)
    (connection : PinnedConnection) : Fetching FetchResponse :=
  fetchPinnedAt input init headers connection connection.urls
    (urlSafetyError "The provided URL could not be resolved to any IP address.")

def performFetch (input : FetchInput) (init : RequestInit) (headers : HeaderList)
    (connection : Option PinnedConnection) : Fetching FetchResponse :=
  match connection with
  | none => fetchWithStaleSocketRetry input init
  | some connection => fetchPinned input init headers connection

/-! ## Chains -/

def settle (withheldAt : Option String) (response : FetchResponse) : FetchResponse :=
  match withheldAt with
  | none => response
  | some url => { response with withheldAt := some url }

/-- The loop of `followRedirects`, with the number of redirects that may still be followed. -/
def followRedirectsFrom (init : RequestInit) :
    ℕ → String → FetchResponse → HeaderList → Option String → Fetching FetchResponse
  | 0, _, _, _, _ => Effect.throw (urlSafetyError "Too many redirects (exceeded 10).")
  | count + 1, currentUrl, currentResponse, currentHeaders, withheldAt =>
    match resolveRedirectUrl urls currentResponse currentUrl with
    | none => pure (settle withheldAt currentResponse)
    | some redirectUrl => do
      let connection ← resolveConnection urls ip options redirectUrl
      let nextHeaders ← ofExcept (getHeadersForRedirect urls currentHeaders currentUrl redirectUrl)
      let withheldAt :=
        if withheldAt.isNone && hasAuthorizationValue currentHeaders &&
            !hasAuthorizationValue nextHeaders then some redirectUrl
        else withheldAt
      let response ← performFetch (.url redirectUrl)
        { init with headers := some nextHeaders, redirect := some "manual" } nextHeaders connection
      if !isRedirect response then pure (settle withheldAt response)
      else followRedirectsFrom init count redirectUrl response nextHeaders withheldAt

def maxRedirects : ℕ := 10

def followRedirects (initialUrl : String) (initialResponse : FetchResponse) (init : RequestInit)
    (headers : HeaderList) : Fetching FetchResponse :=
  followRedirectsFrom urls ip options init maxRedirects initialUrl initialResponse headers none

def assertManualRedirectKeepsCredentials (currentUrl : String) (response : FetchResponse) :
    Fetching PUnit :=
  match resolveRedirectUrl urls response currentUrl with
  | none => pure ⟨⟩
  | some redirectUrl => do
    if ← ofExcept (shouldWithholdAuthorization urls currentUrl redirectUrl) then
      Effect.throw (urlSafetyError ("Redirect to " ++ redirectUrl ++ " crosses a credential boundary " ++
        "and the caller follows redirects itself, so the credentials cannot be withheld from it."))
    else pure ⟨⟩

/-- What `createSafeFetch` does once the connection is resolved. -/
def fetchResolved (input : FetchInput) (init : RequestInit) (connection : Option PinnedConnection) :
    Fetching FetchResponse := do
  let headers := mergeHeaderRecord input init
  let response ← performFetch input { init with redirect := some "manual" } headers connection
  if !isRedirect response then pure response
  else if init.redirect = some "manual" then do
    assertManualRedirectKeepsCredentials urls input.text response
    pure response
  else followRedirects urls ip options input.text response init headers

def createSafeFetch (input : FetchInput) (init : RequestInit) : Fetching FetchResponse := do
  let connection ← resolveConnection urls ip options input.text
  Effect.recover (fetchResolved urls ip options input init connection) fun error => do
    if (← Effect.gets fun w : FetchWorld => w.timedOut) && (options.timeoutMs.filter (0 < ·)).isSome then
      Effect.throw { name := "RequestTimeoutError" }
    else Effect.throw error

end Model

end SafeFetch

end Keeper
