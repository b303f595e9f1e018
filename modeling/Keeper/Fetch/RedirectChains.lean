import Keeper.Fetch.SafeFetch

/-!
# Chains of redirects

Whatever the name servers and the network answer: each request of a chain goes to an address that is globally
routable or to a host that is allowed, a name is contacted at the addresses of its own lookup, at most ten
redirects are followed, credentials do not pass a boundary, and what may not be replayed is sent once.

* `wp_resolveConnection`: what a connection is good for.
* `wp_fetchPinnedAt`, `wp_performFetch`: the requests of one hop.
* `wp_followRedirectsFrom`: the hops of a chain, with the headers as invariant.
* `createSafeFetch_isSafe`: whole chains.
-/

namespace Keeper

namespace SafeFetch

/-! ## What is safe -/

section Safety

variable (urls : UrlLibrary) (ip : IpLibrary) (options : SafeFetchOptions)

/-- What is relied on of the libraries: a URL that was changed is read back as it is, and the text of an
address has no brackets. -/
structure Laws : Prop where
  parse_setHostname : ∀ text url, urls.parse text = some url → ∀ hostname,
    urls.parse (urls.setHostname url hostname).href = some (urls.setHostname url hostname)
  stripBrackets_address : ∀ address, ip.isValid address = true → stripBrackets address = address

/-- The host of a URL is a literal that is globally routable, or is allowed. -/
def IsSafeTarget (url : String) : Prop :=
  ∃ parsed, urls.parse url = some parsed ∧
    (isGloballyRoutableAddress ip (stripBrackets parsed.hostname) = true ∨
      parsed.host ∈ options.allowedPrivateHosts)

def Contacts (addresses : List String) (url : String) : Prop :=
  ∃ parsed, urls.parse url = some parsed ∧ stripBrackets parsed.hostname ∈ addresses

def CarriesAuthorization (headers : HeaderList) : Prop :=
  ∃ header ∈ headers, header.1.toLower = "authorization"

/-- A hop crosses a site boundary, or downgrades from `https`. -/
def Crosses (current next : Hop) : Prop :=
  shouldWithholdAuthorization urls current.url next.url = .ok true

structure SafeHop (hop : Hop) : Prop where
  targets : ∀ sent ∈ hop.sent, IsSafeTarget urls ip options sent.url
  pinned : ∀ name addresses, hop.lookup = some (name, addresses) → ∀ sent ∈ hop.sent,
    Contacts urls addresses sent.url
  once : ∀ sent ∈ hop.sent, isReplayableMethod sent.method = false → hop.sent.length ≤ 1

structure SafeChain (hops : List Hop) : Prop where
  each : ∀ hop ∈ hops, SafeHop urls ip options hop
  length : hops.length ≤ maxRedirects + 1
  withheld : ∀ after next current before, hops = after ++ next :: current :: before →
    Crosses urls current next → ∀ hop ∈ after ++ [next], ∀ sent ∈ hop.sent,
      ¬ CarriesAuthorization sent.headers

def HasCrossed : List Hop → Prop
  | next :: current :: before => Crosses urls current next ∨ HasCrossed (current :: before)
  | _ => False

/-- Where some hop has crossed, credentials are withheld from then on. -/
def Withholds : List Hop → Prop
  | [] => True
  | hop :: before =>
    (HasCrossed urls (hop :: before) → ∀ sent ∈ hop.sent, ¬ CarriesAuthorization sent.headers) ∧
      Withholds before

variable {urls}

theorem hasCrossed_append {after : List Hop} {next current : Hop} {before : List Hop}
    (h : Crosses urls current next) : HasCrossed urls (after ++ next :: current :: before) := by
  induction after with
  | nil => exact Or.inl h
  | cons hop after ih =>
    cases after with
    | nil => exact Or.inr ih
    | cons hop' after => exact Or.inr ih

theorem Withholds.withheld {hops after before : List Hop} {next current : Hop} (h : Withholds urls hops)
    (hsplit : hops = after ++ next :: current :: before) (hcrosses : Crosses urls current next) :
    ∀ hop ∈ after ++ [next], ∀ sent ∈ hop.sent, ¬ CarriesAuthorization sent.headers := by
  induction after generalizing hops with
  | nil =>
    subst hsplit
    rintro hop hhop
    obtain rfl := List.mem_singleton.1 hhop
    exact h.1 (Or.inl hcrosses)
  | cons hop after ih =>
    subst hsplit
    intro hop' hhop'
    rcases List.mem_cons.1 hhop' with rfl | hafter
    · have hcrossed : HasCrossed urls ((hop' :: after) ++ next :: current :: before) := hasCrossed_append hcrosses
      exact h.1 hcrossed
    · exact ih h.2 rfl hop' hafter

theorem SafeHop.fresh (urls : UrlLibrary) (ip : IpLibrary) (options : SafeFetchOptions) {hop : Hop}
    (h : hop.sent = []) : SafeHop urls ip options hop := by
  refine ⟨?_, ?_, ?_⟩ <;> simp [h]

end Safety

/-! ## Literals -/

theorem stripBrackets_brackets (address : String) : stripBrackets ("[" ++ address ++ "]") = address := by
  unfold stripBrackets
  simp

section Specs

variable {urls : UrlLibrary} {ip : IpLibrary} {options : SafeFetchOptions} {w : FetchWorld}

theorem isValid_of_isGloballyRoutable {address : String}
    (h : isGloballyRoutableAddress ip address = true) : ip.isValid address = true := by
  unfold isGloballyRoutableAddress at h
  unfold IpLibrary.isValid
  cases hparse : ip.parse address with
  | none =>
    rw [hparse] at h
    cases h
  | some parsed => rfl

/-- **A pinned URL** names the address that it was made for. -/
theorem pinnedUrl_spec (hlaws : Laws urls ip) {text : String} {parsed : Url}
    (hparsed : urls.parse text = some parsed) {address url : String}
    (hroutable : isGloballyRoutableAddress ip address = true)
    (h : pinnedUrl urls ip parsed address = .ok url) :
    ∃ pinned, urls.parse url = some pinned ∧ stripBrackets pinned.hostname = address := by
  have hvalid := isValid_of_isGloballyRoutable hroutable
  unfold IpLibrary.isValid at hvalid
  obtain ⟨value, hvalue⟩ := Option.isSome_iff_exists.1 hvalid
  unfold pinnedUrl formatAddressForUrl at h
  rw [hvalue] at h
  dsimp only [bind, Except.bind] at h
  split_ifs at h with hv6 hpinned hpinned
  · obtain rfl := Except.ok.inj h
    refine ⟨_, hlaws.parse_setHostname text parsed hparsed _, ?_⟩
    rw [not_not.1 hpinned, stripBrackets_brackets]
  · obtain rfl := Except.ok.inj h
    refine ⟨_, hlaws.parse_setHostname text parsed hparsed _, ?_⟩
    rw [not_not.1 hpinned]
    exact hlaws.stripBrackets_address address (isValid_of_isGloballyRoutable hroutable)

theorem wp_assertGloballyRoutableAddresses {message : String} {addresses : List String}
    {Q : PUnit → FetchWorld → Prop} {R : JsError → FetchWorld → Prop}
    (hQ : (∀ address ∈ addresses, isGloballyRoutableAddress ip address = true) → Q ⟨⟩ w)
    (hR : ∀ e, R e w) : Effect.wp (assertGloballyRoutableAddresses ip message addresses) Q R w := by
  induction addresses generalizing Q with
  | nil => exact hQ nofun
  | cons address addresses ih =>
    unfold assertGloballyRoutableAddresses
    refine Effect.wp_bind.2 ?_
    unfold assertGloballyRoutableAddress
    split_ifs with hroutable
    · exact ih fun hrest => hQ (List.forall_mem_cons.2 ⟨hroutable, hrest⟩)
    · exact hR _

theorem mem_of_mapM_eq_ok {α β : Type} {f : α → Except JsError β} {l : List α} {results : List β}
    (h : l.mapM f = .ok results) {b : β} (hb : b ∈ results) : ∃ a ∈ l, f a = .ok b := by
  induction l generalizing results with
  | nil =>
    rw [List.mapM_nil] at h
    obtain rfl := Except.ok.inj h
    exact absurd hb List.not_mem_nil
  | cons a l ih =>
    rw [List.mapM_cons] at h
    cases ha : f a with
    | error e =>
      rw [ha] at h
      cases h
    | ok first =>
      cases hl : l.mapM f with
      | error e =>
        rw [ha, hl] at h
        cases h
      | ok rest =>
        rw [ha, hl] at h
        obtain rfl := Except.ok.inj h
        rcases List.mem_cons.1 hb with rfl | hrest
        · exact ⟨a, List.mem_cons_self, ha⟩
        · obtain ⟨a', ha', hf⟩ := ih hl hrest
          exact ⟨a', List.mem_cons_of_mem _ ha', hf⟩

/-! ## Connections -/

variable (urls ip options) in
/-- What a connection is good for, in its hop: the URL itself, or addresses of the lookup. -/
def Resolved (url : String) (lookup : Option (String × List String)) :
    Option PinnedConnection → Prop
  | none => lookup = none ∧ IsSafeTarget urls ip options url
  | some connection => ∃ name addresses, lookup = some (name, addresses) ∧
    ∀ pinned ∈ connection.urls, IsSafeTarget urls ip options pinned ∧ Contacts urls addresses pinned

/-- A hop has begun, and has sent nothing yet. -/
def Begun (url : String) (lookup : Option (String × List String)) (w w' : FetchWorld) : Prop :=
  w'.hops = { url, lookup } :: w.hops

theorem wp_resolveAllAddresses {hostname : String} {Q : List String → FetchWorld → Prop}
    {R : JsError → FetchWorld → Prop}
    (hQ : ∀ addresses w', w'.hops = w.hops.modifyHead (fun hop =>
      { hop with lookup := some (hostname, addresses) }) → Q addresses w')
    (hR : ∀ e addresses w', w'.hops = w.hops.modifyHead (fun hop =>
      { hop with lookup := some (hostname, addresses) }) → R e w') :
    Effect.wp (resolveAllAddresses hostname) Q R w := by
  unfold Effect.wp resolveAllAddresses
  dsimp only
  split_ifs with hnone
  · exact hR _ _ _ rfl
  · exact hQ _ _ rfl

/-- **A connection** is resolved for a URL that is safe, or for the addresses of its name. -/
theorem wp_resolveConnection (hlaws : Laws urls ip) (hblock : options.blockPrivateResolution = true)
    (url : String) : Effect.wp (resolveConnection urls ip options url)
      (fun connection w' => ∃ lookup, Begun url lookup w w' ∧
        Resolved urls ip options url lookup connection)
      (fun _ w' => ∃ lookup, Begun url lookup w w') w := by
  unfold resolveConnection
  refine Effect.wp_bind.2 (Effect.wp_modify.2 ?_)
  have hbegun : Begun url none w { w with hops := { url } :: w.hops } := rfl
  cases hparsed : urls.parse url with
  | none => exact ⟨none, hbegun⟩
  | some parsed =>
    unfold resolveParsed
    refine Effect.wp_bind.2 ?_
    unfold validateProtocol
    by_cases hprotocol : parsed.protocol = "http:" ∨ parsed.protocol = "https:"
    swap
    · rw [if_neg hprotocol]
      exact ⟨none, hbegun⟩
    rw [if_pos hprotocol]
    simp only [hblock, Bool.not_true, Bool.false_eq_true, if_false]
    split_ifs with hallowed hliteral
    · exact ⟨none, hbegun, rfl, parsed, hparsed, Or.inr (List.contains_iff_mem.1 hallowed)⟩
    · refine Effect.wp_bind.2 ?_
      unfold assertGloballyRoutableAddress
      split_ifs with hroutable
      · exact ⟨none, hbegun, rfl, parsed, hparsed, Or.inl hroutable⟩
      · exact ⟨none, hbegun⟩
    · refine Effect.wp_bind.2 (wp_resolveAllAddresses (fun addresses w' hw' => ?_)
        fun _ addresses w' hw' => ⟨some (stripBrackets parsed.hostname, addresses), hw'⟩)
      have hlooked : Begun url (some (stripBrackets parsed.hostname, addresses)) w w' := hw'
      refine Effect.wp_bind.2 (wp_assertGloballyRoutableAddresses (fun hroutable => ?_)
        fun _ => ⟨_, hlooked⟩)
      refine Effect.wp_bind.2 ?_
      unfold buildPinnedConnection
      cases hpinned : addresses.mapM (pinnedUrl urls ip parsed) with
      | error e => exact ⟨_, hlooked⟩
      | ok pinned =>
        refine ⟨_, hlooked, _, addresses, rfl, fun pinnedText hmem => ?_⟩
        obtain ⟨address, haddress, hurl⟩ := mem_of_mapM_eq_ok hpinned hmem
        obtain ⟨parsed', hparsed', hstrip⟩ := pinnedUrl_spec hlaws hparsed
          (hroutable address haddress) hurl
        refine ⟨⟨parsed', hparsed', Or.inl ?_⟩, parsed', hparsed', ?_⟩
        · rw [hstrip]
          exact hroutable address haddress
        · rw [hstrip]
          exact haddress

/-! ## Requests of a hop -/

/-- Some requests were sent in the hop at hand, and one at most where they may not be replayed. -/
def SendsWith (P : Sent → Prop) (replayable : Bool) (w w' : FetchWorld) : Prop :=
  ∃ sent : List Sent, w'.hops = w.hops.modifyHead (fun hop => { hop with sent := sent ++ hop.sent }) ∧
    (∀ request ∈ sent, P request) ∧ (replayable = false → sent.length ≤ 1)

theorem modifyHead_append (hops : List Hop) (first second : List Sent) :
    (hops.modifyHead fun hop => { hop with sent := first ++ hop.sent }).modifyHead
        (fun hop => { hop with sent := second ++ hop.sent }) =
      hops.modifyHead fun hop => { hop with sent := (second ++ first) ++ hop.sent } := by
  cases hops with
  | nil => rfl
  | cons hop hops => simp [List.modifyHead]

variable {P : Sent → Prop} {input : FetchInput} {init : RequestInit} {headers : HeaderList}
  {lookup : Option (String × List String)} {count : ℕ}

theorem SendsWith.trans {w₁ w₂ w₃ : FetchWorld} (h : SendsWith P true w₁ w₂) (h' : SendsWith P true w₂ w₃) :
    SendsWith P true w₁ w₃ := by
  obtain ⟨first, hfirst, hfirstAll, -⟩ := h
  obtain ⟨second, hsecond, hsecondAll, -⟩ := h'
  refine ⟨second ++ first, ?_, ?_, nofun⟩
  · rw [hsecond, hfirst, modifyHead_append]
  · intro request hrequest
    rcases List.mem_append.1 hrequest with hmem | hmem
    · exact hsecondAll request hmem
    · exact hfirstAll request hmem

theorem wp_fetch (replayable : Bool) (h : P (sentOf input init)) : Effect.wp (fetch input init)
      (fun _ => SendsWith P replayable w) (fun _ => SendsWith P replayable w) w := by
  have hsends : SendsWith P replayable w (fetch input init w).2 :=
    ⟨[sentOf input init], rfl, List.forall_mem_singleton.2 h, fun _ => Nat.le_refl 1⟩
  unfold Effect.wp
  rcases hrun : fetch input init w with ⟨e | response, w'⟩ <;> rw [hrun] at hsends <;> exact hsends

theorem wp_fetchWithStaleSocketRetry (h : P (sentOf input init)) : Effect.wp (fetchWithStaleSocketRetry input init)
      (fun _ => SendsWith P (isReplayableRequest input init) w)
      (fun _ => SendsWith P (isReplayableRequest input init) w) w := by
  unfold fetchWithStaleSocketRetry
  refine Effect.wp_recover.2 (Effect.wp_mono (wp_fetch _ h) (fun _ _ hw => hw) fun e w' hw' => ?_)
  cases hreplayable : isReplayableRequest input init with
  | false =>
    rw [Bool.not_false, Bool.or_true, if_pos rfl]
    rw [hreplayable] at hw'
    exact hw'
  | true =>
    rw [hreplayable] at hw'
    split_ifs with hstop
    · exact hw'
    · exact Effect.wp_mono (wp_fetch true h) (fun _ _ hw => hw'.trans hw) fun _ _ hw => hw'.trans hw

theorem requestMethod_pinned (input : FetchInput) (init : RequestInit) (headers : HeaderList)
    (connection : PinnedConnection) (url : String) :
    requestMethod (pinnedInput input url) (pinnedInit init headers connection) =
      requestMethod input init := by
  cases input <;> rfl

theorem isReplayableRequest_pinned (input : FetchInput) (init : RequestInit) (headers : HeaderList)
    (connection : PinnedConnection) (url : String) :
    isReplayableRequest (pinnedInput input url) (pinnedInit init headers connection) =
      isReplayableRequest input init := by
  cases input <;> rfl

/-- **The addresses of a connection** are tried one after the other, as long as that is a replay. -/
theorem wp_fetchPinnedAt {connection : PinnedConnection} {l : List String} {lastError : JsError}
    (h : ∀ url ∈ l, P (sentOf (pinnedInput input url) (pinnedInit init headers connection))) :
    Effect.wp (fetchPinnedAt input init headers connection l lastError)
      (fun _ => SendsWith P (isReplayableRequest input init) w)
      (fun _ => SendsWith P (isReplayableRequest input init) w) w := by
  induction l generalizing w lastError with
  | nil =>
    refine ⟨[], ?_, nofun, fun _ => Nat.zero_le _⟩
    cases w.hops <;> rfl
  | cons url rest ih =>
    have hhead := wp_fetchWithStaleSocketRetry (w := w) (h url List.mem_cons_self)
    rw [isReplayableRequest_pinned] at hhead
    refine Effect.wp_recover.2 (Effect.wp_mono hhead (fun _ _ hw => hw) fun e w' hw' => ?_)
    cases hreplayable : isReplayableRequest input init with
    | false =>
      rw [Bool.not_false, Bool.or_true, if_pos rfl]
      rw [hreplayable] at hw'
      exact hw'
    | true =>
      rw [hreplayable] at hw' ih
      split_ifs with hstop
      · exact hw'
      · exact Effect.wp_mono (ih fun url hurl => h url (List.mem_cons_of_mem _ hurl))
          (fun _ _ hw => hw'.trans hw) fun _ _ hw => hw'.trans hw

theorem not_carriesAuthorization_withHost (host : String) (h : ¬ CarriesAuthorization headers) :
    ¬ CarriesAuthorization (withHost headers host) := by
  rintro ⟨header, hmem, hname⟩
  rcases List.mem_append.1 hmem with hkept | hhost
  · exact h ⟨header, List.mem_of_mem_filter hkept, hname⟩
  · obtain rfl := List.mem_singleton.1 hhost
    have htext : ("host".map Char.toLower).toList = "authorization".toList := congrArg String.toList hname
    rw [String.toList_map] at htext
    have hother : ("host" : String).toList.map Char.toLower ≠ ("authorization" : String).toList := by decide
    exact hother htext

variable (urls ip options) in
/-- A hop has sent its requests, and they are safe; credentials are withheld from it, where they are. -/
def Performed (withheld : Prop) (url : String) (before : List Hop) (w' : FetchWorld) : Prop :=
  ∃ lookup sent, w'.hops = { url, lookup, sent } :: before ∧
    SafeHop urls ip options { url, lookup, sent } ∧
    (withheld → ∀ request ∈ sent, ¬ CarriesAuthorization request.headers)

/-- **The requests of a hop** whose connection was resolved. -/
theorem wp_performFetch {withheld : Prop} (input : FetchInput) {connection : Option PinnedConnection}
    {before : List Hop} (hhops : w.hops = { url := input.text, lookup } :: before)
    (hresolved : Resolved urls ip options input.text lookup connection)
    (hwithheld : withheld → ¬ CarriesAuthorization (init.headers.getD input.headers) ∧ ¬ CarriesAuthorization headers) :
    Effect.wp (performFetch input init headers connection)
      (fun _ => Performed urls ip options withheld input.text before)
      (fun _ => Performed urls ip options withheld input.text before) w := by
  have hperformed : ∀ w', SendsWith (fun request => IsSafeTarget urls ip options request.url ∧
      (∀ name addresses, lookup = some (name, addresses) → Contacts urls addresses request.url) ∧
      request.method = requestMethod input init ∧
      (withheld → ¬ CarriesAuthorization request.headers)) (isReplayableRequest input init) w w' →
      Performed urls ip options withheld input.text before w' := by
    rintro w' ⟨sent, hw', hall, hlength⟩
    refine ⟨lookup, sent, ?_, ⟨fun request hrequest => (hall request hrequest).1, ?_, ?_⟩,
      fun h request hrequest => (hall request hrequest).2.2.2 h⟩
    · rw [hw', hhops, List.modifyHead_cons, List.append_nil]
    · intro name addresses hlookup request hrequest
      exact (hall request hrequest).2.1 name addresses hlookup
    · intro request hrequest hmethod
      rw [(hall request hrequest).2.2.1] at hmethod
      refine hlength ?_
      unfold isReplayableRequest
      rw [hmethod, Bool.false_and, Bool.false_and]
  cases connection with
  | none =>
    obtain ⟨rfl, hsafe⟩ := hresolved
    exact Effect.wp_mono (wp_fetchWithStaleSocketRetry ⟨hsafe, nofun, rfl, fun h => (hwithheld h).1⟩)
      (fun _ => hperformed) fun _ => hperformed
  | some connection =>
    obtain ⟨name, addresses, rfl, hurls⟩ := hresolved
    refine Effect.wp_mono (wp_fetchPinnedAt fun url hurl => ?_) (fun _ => hperformed) fun _ => hperformed
    have htext : (sentOf (pinnedInput input url) (pinnedInit init headers connection)).url = url := by
      cases input <;> rfl
    obtain ⟨hsafe, hcontacts⟩ := hurls url hurl
    rw [htext]
    refine ⟨hsafe, ?_, requestMethod_pinned input init headers connection url,
      fun h => not_carriesAuthorization_withHost _ (hwithheld h).2⟩
    rintro _ _ ⟨⟩
    exact hcontacts

/-! ## Headers of a chain -/

theorem not_carriesAuthorization_withoutAuthorization (headers : HeaderList) :
    ¬ CarriesAuthorization (withoutAuthorization headers) := by
  rintro ⟨header, hmem, hname⟩
  have hkept := (List.mem_filter.1 hmem).2
  simp [hname] at hkept

/-- The headers of the next hop carry credentials only where those of this hop do and nothing is crossed. -/
theorem carriesAuthorization_of_getHeadersForRedirect {nextHeaders : HeaderList} {current next : String}
    (h : getHeadersForRedirect urls headers current next = .ok nextHeaders)
    (hcarries : CarriesAuthorization nextHeaders) :
    CarriesAuthorization headers ∧ shouldWithholdAuthorization urls current next ≠ .ok true := by
  unfold getHeadersForRedirect at h
  cases hwithhold : shouldWithholdAuthorization urls current next with
  | error e =>
    rw [hwithhold] at h
    cases h
  | ok withhold =>
    rw [hwithhold] at h
    cases withhold with
    | true =>
      obtain rfl := Except.ok.inj h
      exact absurd hcarries (not_carriesAuthorization_withoutAuthorization headers)
    | false =>
      obtain rfl := Except.ok.inj h
      exact ⟨hcarries, nofun⟩

/-! ## Chains -/

variable (urls ip options) in
structure ChainSoFar (count : ℕ) (hops : List Hop) : Prop where
  each : ∀ hop ∈ hops, SafeHop urls ip options hop
  length : hops.length + count ≤ maxRedirects + 1
  withholds : Withholds urls hops

theorem ChainSoFar.anyCount {hops : List Hop} (h : ChainSoFar urls ip options count hops) :
    ChainSoFar urls ip options 0 hops :=
  ⟨h.each, Nat.le_trans (Nat.add_le_add_left (Nat.zero_le count) _) h.length, h.withholds⟩

theorem ChainSoFar.isSafe {hops : List Hop} (h : ChainSoFar urls ip options 0 hops) :
    SafeChain urls ip options hops :=
  ⟨h.each, h.length, fun _ _ _ _ => h.withholds.withheld⟩

theorem ChainSoFar.cons {hop : Hop} {hops : List Hop} (h : ChainSoFar urls ip options (count + 1) hops)
    (hsafe : SafeHop urls ip options hop)
    (hwithheld : HasCrossed urls (hop :: hops) → ∀ sent ∈ hop.sent, ¬ CarriesAuthorization sent.headers) :
    ChainSoFar urls ip options count (hop :: hops) := by
  refine ⟨List.forall_mem_cons.2 ⟨hsafe, h.each⟩, ?_, hwithheld, h.withholds⟩
  have hlength := h.length
  rw [List.length_cons]
  omega

theorem ChainSoFar.begun {url : String} {w' : FetchWorld} (h : ChainSoFar urls ip options (count + 1) w.hops)
    (hw' : Begun url lookup w w') : ChainSoFar urls ip options 0 w'.hops := by
  rw [hw']
  exact (h.cons (SafeHop.fresh urls ip options rfl)
    fun _ _ hsent => absurd hsent List.not_mem_nil).anyCount

/-- **Redirects** are followed safely. The invariant carries, beside the hops so far, that the headers at hand
have no credentials once a hop has crossed. -/
theorem wp_followRedirectsFrom (hlaws : Laws urls ip) (hblock : options.blockPrivateResolution = true)
    {currentUrl : String} {currentResponse : FetchResponse} {currentHeaders : HeaderList} {withheldAt : Option String}
    (hchain : ChainSoFar urls ip options count w.hops)
    (hcurrent : ∃ hop before, w.hops = hop :: before ∧ hop.url = currentUrl)
    (hheaders : HasCrossed urls w.hops → ¬ CarriesAuthorization currentHeaders) :
    Effect.wp (followRedirectsFrom urls ip options init count currentUrl currentResponse currentHeaders
        withheldAt)
      (fun _ w' => ChainSoFar urls ip options 0 w'.hops)
      (fun _ w' => ChainSoFar urls ip options 0 w'.hops) w := by
  induction count generalizing w currentUrl currentResponse currentHeaders withheldAt with
  | zero => exact hchain
  | succ count ih =>
    unfold followRedirectsFrom
    cases hredirect : resolveRedirectUrl urls currentResponse currentUrl with
    | none => exact hchain.anyCount
    | some redirectUrl =>
      refine Effect.wp_bind.2 (Effect.wp_mono (wp_resolveConnection hlaws hblock redirectUrl)
        (fun connection w₁ hw₁ => ?_) fun _ w₁ hw₁ => ?_)
      swap
      · obtain ⟨lookup, hbegun⟩ := hw₁
        exact hchain.begun hbegun
      obtain ⟨lookup, hbegun, hresolved⟩ := hw₁
      refine Effect.wp_bind.2 ?_
      cases hnext : getHeadersForRedirect urls currentHeaders currentUrl redirectUrl with
      | error e => exact hchain.begun hbegun
      | ok nextHeaders =>
        -- What the next hop may not carry: credentials, once it or a hop before it has crossed.
        have hwithheld : HasCrossed urls ({ url := redirectUrl } :: w.hops) →
            ¬ CarriesAuthorization nextHeaders := by
          intro hcrossed hcarries
          obtain ⟨hcarried, hkept⟩ := carriesAuthorization_of_getHeadersForRedirect hnext hcarries
          obtain ⟨hop, before, hhops, rfl⟩ := hcurrent
          rw [hhops] at hcrossed hheaders
          exact hcrossed.elim hkept fun hbefore => hheaders hbefore hcarried
        refine Effect.wp_bind.2 (Effect.wp_mono (wp_performFetch (.url redirectUrl) hbegun hresolved
          fun hcrossed => ⟨hwithheld hcrossed, hwithheld hcrossed⟩) (fun response w₂ hw₂ => ?_)
          fun _ w₂ hw₂ => ?_)
        all_goals
          obtain ⟨lookup', sent, hhops, hsafe, hsent⟩ := hw₂
          have hcross : HasCrossed urls ({ url := redirectUrl, lookup := lookup', sent } :: w.hops) →
              HasCrossed urls ({ url := redirectUrl } :: w.hops) := by
            cases w.hops <;> exact id
          have hnextChain : ChainSoFar urls ip options count w₂.hops := by
            rw [hhops]
            exact hchain.cons hsafe fun hcrossed => hsent (hcross hcrossed)
        · cases isRedirect response with
          | false => exact hnextChain.anyCount
          | true =>
            refine ih hnextChain ⟨_, _, hhops, rfl⟩ ?_
            rw [hhops]
            exact fun hcrossed => hwithheld (hcross hcrossed)
        · exact hnextChain.anyCount

theorem wp_fetchResolved (hlaws : Laws urls ip) (hblock : options.blockPrivateResolution = true)
    {connection : Option PinnedConnection} (hhops : w.hops = [{ url := input.text, lookup }])
    (hresolved : Resolved urls ip options input.text lookup connection) :
    Effect.wp (fetchResolved urls ip options input init connection)
      (fun _ w' => ChainSoFar urls ip options 0 w'.hops)
      (fun _ w' => ChainSoFar urls ip options 0 w'.hops) w := by
  have hfirst : ∀ w', Performed urls ip options False input.text [] w' →
      ChainSoFar urls ip options maxRedirects w'.hops ∧
        (∃ hop before, w'.hops = hop :: before ∧ hop.url = input.text) ∧ ¬ HasCrossed urls w'.hops := by
    rintro w' ⟨lookup', sent, hhops', hsafe, -⟩
    rw [hhops']
    exact ⟨⟨List.forall_mem_singleton.2 hsafe, Nat.le_of_eq (Nat.add_comm _ _), nofun, trivial⟩,
      ⟨_, _, rfl, rfl⟩, id⟩
  unfold fetchResolved
  refine Effect.wp_bind.2 (Effect.wp_mono (wp_performFetch input hhops hresolved nofun)
    (fun response w' hw' => ?_) fun _ w' hw' => (hfirst w' hw').1.anyCount)
  obtain ⟨hchain, hcurrent, hcrossed⟩ := hfirst w' hw'
  cases isRedirect response with
  | false => exact hchain.anyCount
  | true =>
    simp only [Bool.not_true, Bool.false_eq_true, if_false]
    by_cases hmanual : init.redirect = some "manual"
    · rw [if_pos hmanual]
      refine Effect.wp_bind.2 ?_
      unfold assertManualRedirectKeepsCredentials
      cases hredirect : resolveRedirectUrl urls response input.text with
      | none => exact hchain.anyCount
      | some redirectUrl =>
        refine Effect.wp_bind.2 ?_
        cases hwithhold : shouldWithholdAuthorization urls input.text redirectUrl with
        | error e => exact hchain.anyCount
        | ok withhold => cases withhold <;> exact hchain.anyCount
    · rw [if_neg hmanual]
      exact wp_followRedirectsFrom hlaws hblock hchain hcurrent fun h => absurd h hcrossed

/-- **Whole chains.** Whatever is fetched, whatever the name servers and the network answer, and however it ends:
the requests of every hop of the chain are safe, the redirects are at most ten, and once a hop crosses a
boundary no request from there on carries credentials. -/
theorem createSafeFetch_isSafe (hlaws : Laws urls ip) (hblock : options.blockPrivateResolution = true)
    (input : FetchInput) (init : RequestInit) (hstart : w.hops = []) :
    SafeChain urls ip options (createSafeFetch urls ip options input init w).2.hops := by
  have hchain : Effect.wp (createSafeFetch urls ip options input init)
      (fun _ w' => ChainSoFar urls ip options 0 w'.hops)
      (fun _ w' => ChainSoFar urls ip options 0 w'.hops) w := by
    unfold createSafeFetch
    have hempty : ChainSoFar urls ip options (maxRedirects + 1) w.hops := by
      rw [hstart]
      exact ⟨nofun, Nat.le_of_eq (Nat.zero_add _), trivial⟩
    refine Effect.wp_bind.2 (Effect.wp_mono (wp_resolveConnection hlaws hblock input.text)
      (fun connection w' hw' => ?_) fun _ w' hw' => ?_)
    · obtain ⟨lookup, hbegun, hresolved⟩ := hw'
      unfold Begun at hbegun
      rw [hstart] at hbegun
      refine Effect.wp_recover.2 (Effect.wp_mono (wp_fetchResolved hlaws hblock hbegun hresolved)
        (fun _ _ h => h) fun e w'' hw'' => ?_)
      refine Effect.wp_bind.2 (Effect.wp_gets.2 ?_)
      split_ifs <;> exact hw''
    · obtain ⟨lookup, hbegun⟩ := hw'
      exact hempty.begun hbegun
  exact (Effect.wp_state hchain).isSafe

end Specs

/-! ## A chain -/

section Example

/-- A name, and the literal of the address that it resolves to. -/
def namedUrl : Url where
  href := "https://example.com/"
  protocol := "https:"
  hostname := "example.com"
  host := "example.com"

def literalUrl : Url where
  href := "https://93.184.216.34/"
  protocol := "https:"
  hostname := "93.184.216.34"
  host := "93.184.216.34"

def twoUrls : UrlLibrary where
  parse text :=
    if text = namedUrl.href then some namedUrl
    else if text = literalUrl.href then some literalUrl
    else none
  resolve location _ := if location = literalUrl.href then some literalUrl.href else none
  setHostname url hostname := if hostname = literalUrl.hostname then literalUrl else url
  getDomain hostname := if hostname = namedUrl.hostname then some namedUrl.hostname else none

def oneAddress : IpLibrary where
  Address := Unit
  parse address := if address = literalUrl.hostname then some () else none
  isIPv6 _ := false
  isIPv4MappedAddress _ := false
  toIPv4Address _ := ()
  range _ := "unicast"
  matchesCidr _ _ := false

theorem laws_twoUrls : Laws twoUrls oneAddress where
  parse_setHostname text url hparsed hostname := by
    by_cases hliteral : hostname = literalUrl.hostname
    · have hset : twoUrls.setHostname url hostname = literalUrl := if_pos hliteral
      rw [hset]
      decide
    · have hset : twoUrls.setHostname url hostname = url := if_neg hliteral
      rw [hset]
      unfold twoUrls at hparsed ⊢
      dsimp only at hparsed ⊢
      split_ifs at hparsed
      · obtain rfl := Option.some.inj hparsed
        decide
      · obtain rfl := Option.some.inj hparsed
        decide
  stripBrackets_address address hvalid := by
    by_cases hliteral : address = literalUrl.hostname
    · rw [hliteral]
      decide
    · simp [IpLibrary.isValid, oneAddress, hliteral] at hvalid

/-- The name resolves to the address, and redirects to it. -/
def redirected : FetchWorld where
  answers _ := (some ["93.184.216.34"], none)
  outcomes n := .ok (if n = 0 then { status := 302, location := literalUrl.href } else { status := 200 })

theorem createSafeFetch_isSafe_example :
    let hops := (createSafeFetch twoUrls oneAddress { blockPrivateResolution := true }
      (.url namedUrl.href) {} redirected).2.hops
    hops.length = 2 ∧ SafeChain twoUrls oneAddress { blockPrivateResolution := true } hops :=
  ⟨rfl, createSafeFetch_isSafe laws_twoUrls rfl (.url namedUrl.href) {} rfl⟩

end Example

end SafeFetch

end Keeper
