import Keeper.Push.Unauthenticated

/-!
# Deliveries that are repeated

A provider repeats a delivery until it is answered with success. The id of a delivery is claimed claim by
claim, before the calendars of the claim are woken: where a dependency fails in between, the repeated
delivery is a duplicate, and is answered with success.

* `wp_collectClaims`: what the loop over the claims leaves pending, and which deliveries it claims.
* `servesClaims_of_settles`: acknowledged claims have woken their calendars, where no delivery fails after it
  has claimed the delivery of such a claim.
-/

namespace Keeper

namespace Push

open PushWorld

/-! ## Claims that wake -/

/-- A change, a missed lifecycle event or a removed subscription. -/
def wakes (claim : PushClaim) : Bool :=
  match claim.kind with
  | .change => true
  | .sync => false
  | .lifecycle =>
    claim.lifecycleEvent = some "missed" || claim.lifecycleEvent = some "subscriptionRemoved"

/-- The claims of a delivery that is no handshake. -/
def PushRequest.claims (request : PushRequest) : List PushClaim :=
  match request.validationToken, request.parsed with
  | none, .notification claims => claims
  | _, _ => []

/-! ## What stands while claims are processed -/

/-- The claims of a delivery are processed from the store that it found: what is looked up and resolved is as
it was found, and some deliveries are claimed, as the calls so far show. -/
structure Standing (provider : String) (found : PushStore) (delivered : List String)
    (log : List PushEntry) (s : ClaimState PushWorld) : Prop where
  follows : Follows provider found s.world.store s.context.lookups
  accountCalendars : s.world.store.accountCalendars = found.accountCalendars
  calendars : ∀ channel ∈ found.table.channels, ∀ ids,
    s.context.calendarIds.get? channel.id = some ids → ids = resolveAffectedCalendarIds channel found
  delivered_eq : s.world.store.delivered = delivered
  grows : log <+: s.world.log

/-- What stands of it where a call has failed. -/
structure Halted (found : PushStore) (delivered : List String) (log : List PushEntry) (w : PushWorld) :
    Prop where
  rows : w.store.table.channels.map rowKey = found.table.channels.map rowKey
  accountCalendars : w.store.accountCalendars = found.accountCalendars
  delivered_eq : w.store.delivered = delivered
  grows : log <+: w.log

section Standing

variable {provider : String} {found : PushStore} {delivered : List String} {log : List PushEntry}
  {s : ClaimState PushWorld}

theorem Standing.halted (h : Standing provider found delivered log s) :
    Halted found delivered log s.world :=
  ⟨h.follows.rows, h.accountCalendars, h.delivered_eq, h.grows⟩

theorem Standing.entered (h : Standing provider found delivered log s) {store : PushStore}
    (entry : Option PushEntry) {delivered' : List String}
    (hfollows : Follows provider found store s.context.lookups)
    (hcalendars : store.accountCalendars = s.world.store.accountCalendars)
    (hdelivered : store.delivered = delivered') :
    Standing provider found delivered' log { s with world := s.world.entered store entry } where
  follows := hfollows
  accountCalendars := hcalendars.trans h.accountCalendars
  calendars := h.calendars
  delivered_eq := hdelivered
  grows := h.grows.trans (List.prefix_append _ _)

/-- **A call** that leaves the store standing, answered or not. -/
theorem wp_steadyCall {α : Type} {f : PushWorld → α × PushStore} {a : α → Option PushCall}
    (h : Standing provider found delivered log s)
    (hfollows : Follows provider found (f s.world).2 s.context.lookups)
    (hcalendars : (f s.world).2.accountCalendars = s.world.store.accountCalendars)
    (hdelivered : (f s.world).2.delivered = s.world.store.delivered) :
    Effect.wp (perform (call f a))
      (fun answer s' => answer = (f s.world).1 ∧ s'.context = s.context ∧
        Standing provider found delivered log s')
      (fun _ s' => Halted found delivered log s'.world) s := by
  have hstands := hdelivered.trans h.delivered_eq
  unfold perform
  rw [Effect.wp_zoom]
  refine wp_call ⟨rfl, rfl, ?_⟩ (fun e => ?_) fun e => ?_
  · exact h.entered _ hfollows hcalendars hstands
  · exact (h.entered _ hfollows hcalendars hstands).halted
  · exact (h.entered none h.follows rfl h.delivered_eq).halted

end Standing

/-! ## One claim -/

section Claim

variable {verifySecret : String → String → Bool} {webhookPublicUrl : Option String}
  {options : PushWebhookOptions} {found : PushStore} {delivered : List String} {log : List PushEntry}
  {s : ClaimState PushWorld} {claim : PushClaim} {channel : StoredPushChannel}

/-- The lookup of a key changes at most what is remembered as unknown. -/
structure Looked (provider channelKey : String) (w w' : PushWorld) : Prop where
  grows : w.log <+: w'.log
  store : w'.store = w.store ∨ w'.store = { w.store with
    unknownChannels := (provider, channelKey) :: w.store.unknownChannels }

theorem Looked.entered {provider channelKey : String} {w w' : PushWorld}
    (h : Looked provider channelKey w w') (entry : Option PushEntry) :
    Looked provider channelKey w (w'.entered w'.store entry) :=
  ⟨h.grows.trans (List.prefix_append _ _), h.store⟩

theorem wp_lookupChannel (channelKey : String) (w : PushWorld) :
    Effect.wp (lookupChannel (pushWebhookDependencies verifySecret webhookPublicUrl) options channelKey)
      (fun lookup w' => lookup.channel = w.store.lookup options.provider channelKey ∧
        (lookup.channel = none → lookup.rejectReason.isSome = true) ∧
        Looked options.provider channelKey w w')
      (fun _ w' => Looked options.provider channelKey w w') w := by
  have hstart : Looked options.provider channelKey w w := ⟨List.prefix_rfl, Or.inl rfl⟩
  unfold lookupChannel PushStore.lookup
  rw [Effect.wp_bind]
  refine wp_readCall (g := fun store => store.unknownChannels.contains (options.provider, channelKey)) ?_
    fun _ => hstart.entered _
  cases hunknown : w.store.unknownChannels.contains (options.provider, channelKey) with
  | true => exact ⟨rfl, fun _ => rfl, hstart.entered _⟩
  | false =>
    rw [if_neg Bool.false_ne_true, if_neg Bool.false_ne_true]
    rw [Effect.wp_bind]
    refine wp_readCall (g := fun store => store.table.findByProviderChannel options.provider channelKey)
      ?_ fun _ => (hstart.entered _).entered _
    have hstore : (w.entered w.store none).store = w.store := rfl
    rw [hstore]
    cases hrow : w.store.table.findByProviderChannel options.provider channelKey with
    | some channel => exact ⟨rfl, fun h => absurd h (Option.some_ne_none _), (hstart.entered _).entered _⟩
    | none =>
      have hremembered : ∀ entry, Looked options.provider channelKey w
          (((w.entered w.store none).entered w.store none).entered { w.store with
            unknownChannels := (options.provider, channelKey) :: w.store.unknownChannels } entry) :=
        fun entry => ⟨((hstart.entered none).entered none).grows.trans (List.prefix_append _ _), Or.inr rfl⟩
      dsimp only
      rw [Effect.wp_bind]
      exact wp_call (f := rememberUnknown options.provider channelKey) (a := fun _ => none)
        ⟨rfl, fun _ => rfl, hremembered _⟩ (fun _ => hremembered _)
        fun _ => ((hstart.entered _).entered _).entered _

/-- **The channel of a key** is the one that the store had when the delivery came. -/
theorem wp_sharedLookup (channelKey : String) (h : Standing options.provider found delivered log s) :
    Effect.wp (sharedLookup (pushWebhookDependencies verifySecret webhookPublicUrl) options channelKey)
      (fun lookup s' => lookup.channel = found.lookup options.provider channelKey ∧
        (s'.context.lookups.get? channelKey).isSome ∧
        Standing options.provider found delivered log s')
      (fun _ s' => Halted found delivered log s'.world) s := by
  unfold sharedLookup
  rw [Effect.wp_bind, Effect.wp_gets]
  cases hcached : s.context.lookups.get? channelKey with
  | some cached =>
    exact ⟨(h.follows.shared channelKey cached hcached).1, by rw [hcached]; rfl, h⟩
  | none =>
    dsimp only
    rw [Effect.wp_bind]
    unfold perform
    rw [Effect.wp_zoom]
    refine Effect.wp_mono (wp_lookupChannel channelKey s.world) ?_ ?_
    · rintro lookup w' ⟨hchannel, hreason, hlooked⟩
      have hfollows := h.follows.share hcached hchannel hreason
      have hshared : ((s.context.lookups.set channelKey lookup).get? channelKey).isSome := by
        rw [JsMap.get?_set_self]
        rfl
      refine ⟨hchannel.trans (h.follows.fresh channelKey hcached), hshared, ?_⟩
      have hlog := h.grows.trans hlooked.grows
      rcases hlooked.store with hstore | hstore
      · exact ⟨by rw [hstore]; exact hfollows, by rw [hstore]; exact h.accountCalendars, h.calendars,
          by rw [hstore]; exact h.delivered_eq, hlog⟩
      · exact ⟨by rw [hstore]; exact hfollows.remember hshared, by rw [hstore]; exact h.accountCalendars,
          h.calendars, by rw [hstore]; exact h.delivered_eq, hlog⟩
    · rintro e w' hlooked
      have hlog := h.grows.trans hlooked.grows
      rcases hlooked.store with hstore | hstore
      · exact ⟨by rw [hstore]; exact h.follows.rows, by rw [hstore]; exact h.accountCalendars,
          by rw [hstore]; exact h.delivered_eq, hlog⟩
      · exact ⟨by rw [hstore]; exact h.follows.rows, by rw [hstore]; exact h.accountCalendars,
          by rw [hstore]; exact h.delivered_eq, hlog⟩

/-- **The channel of a claim** is the one that the store had when the delivery came. -/
theorem wp_resolveClaimChannel (claim : PushClaim)
    (h : Standing options.provider found delivered log s) :
    Effect.wp (resolveClaimChannel (pushWebhookDependencies verifySecret webhookPublicUrl) options claim)
      (fun resolution s' =>
        resolution.channel = authenticate (pushWebhookDependencies verifySecret webhookPublicUrl) options
          found claim ∧
        (resolution.channel ≠ none → (s'.context.lookups.get? claim.channelKey).isSome) ∧
        Standing options.provider found delivered log s')
      (fun _ s' => Halted found delivered log s'.world) s := by
  unfold resolveClaimChannel authenticate
  cases husable : hasUsableChannelKey claim with
  | false => exact ⟨rfl, fun hne => absurd rfl hne, h⟩
  | true =>
    rw [if_neg (by decide), if_pos rfl, Effect.wp_bind]
    refine Effect.wp_mono (wp_sharedLookup claim.channelKey h) ?_ fun _ _ hhalted => hhalted
    rintro lookup s' ⟨hchannel, hshared, hstands⟩
    rw [← hchannel]
    cases hlookup : lookup.channel with
    | none => exact ⟨hlookup, fun _ => hshared, hstands⟩
    | some channel =>
      rw [Option.filter_some]
      dsimp only
      cases checkClaim (pushWebhookDependencies verifySecret webhookPublicUrl) options claim channel with
      | some reason => exact ⟨rfl, fun _ => hshared, hstands⟩
      | none => exact ⟨rfl, fun _ => hshared, hstands⟩

/-- **The delivery of a claim** is claimed, or was before; an answer may be lost. -/
theorem wp_claimFirst (claim : PushClaim) (h : Standing options.provider found delivered log s) :
    Effect.wp (claimFirst (pushWebhookDependencies verifySecret webhookPublicUrl) options claim)
      (fun claimed s' => s'.context = s.context ∧ ∃ delivered',
        Standing options.provider found delivered' log s' ∧
        ((claimed = true ∧ deliveryKey options claim = none ∧ delivered' = delivered) ∨
          ∃ key, deliveryKey options claim = some key ∧
            ((claimed = false ∧ key ∈ delivered ∧ delivered' = delivered) ∨
              claimed = true ∧ delivered' = key :: delivered)))
      (fun _ s' => Halted found delivered log s'.world ∨ ∃ key, deliveryKey options claim = some key ∧
        Halted found (key :: delivered) log s'.world) s := by
  unfold claimFirst
  cases hkey : deliveryKey options claim with
  | none => exact ⟨rfl, delivered, h, Or.inl ⟨rfl, rfl, rfl⟩⟩
  | some key =>
    unfold perform
    rw [Effect.wp_zoom]
    have hunmoved : ∀ entry, Standing options.provider found delivered log
        { s with world := s.world.entered s.world.store entry } := fun entry =>
      h.entered entry h.follows rfl h.delivered_eq
    change Effect.wp (call (claimDelivery key) fun claimed => some (.claimDelivery key claimed)) _ _ _
    by_cases hseen : key ∈ delivered
    · have hcontains : s.world.store.delivered.contains key = true := by
        rw [h.delivered_eq]
        exact List.contains_iff_mem.2 hseen
      have hclaim : claimDelivery key s.world = (false, s.world.store) := if_pos hcontains
      refine wp_call ?_ (fun e => ?_) fun e => ?_
      · rw [hclaim]
        exact ⟨rfl, delivered, hunmoved _, Or.inr ⟨key, rfl, Or.inl ⟨rfl, hseen, rfl⟩⟩⟩
      · rw [hclaim]
        exact Or.inl (hunmoved _).halted
      · exact Or.inl (hunmoved none).halted
    · have hcontains : ¬ s.world.store.delivered.contains key = true := by
        rw [h.delivered_eq]
        exact fun hmem => hseen (List.contains_iff_mem.1 hmem)
      have hclaim : claimDelivery key s.world =
          (true, { s.world.store with delivered := key :: s.world.store.delivered }) :=
        if_neg hcontains
      have hclaimed : ∀ entry, Standing options.provider found (key :: delivered) log
          { s with world := s.world.entered (claimDelivery key s.world).2 entry } := by
        intro entry
        rw [hclaim]
        exact h.entered entry (h.follows.of_table rfl rfl) rfl (congrArg (key :: ·) h.delivered_eq)
      refine wp_call ?_ (fun e => ?_) fun e => ?_
      · exact ⟨rfl, _, hclaimed _, Or.inr ⟨key, rfl, Or.inr ⟨by rw [hclaim], rfl⟩⟩⟩
      · exact Or.inr ⟨key, rfl, (hclaimed _).halted⟩
      · exact Or.inl (hunmoved none).halted

/-! ## What a claim is served with -/

theorem wp_sharedCalendarIds (hmem : channel ∈ found.table.channels)
    (h : Standing options.provider found delivered log s) :
    Effect.wp (sharedCalendarIds (pushWebhookDependencies verifySecret webhookPublicUrl) channel)
      (fun ids s' => ids = resolveAffectedCalendarIds channel found ∧
        Standing options.provider found delivered log s')
      (fun _ s' => Halted found delivered log s'.world) s := by
  unfold sharedCalendarIds
  rw [Effect.wp_bind, Effect.wp_gets]
  cases hcached : s.context.calendarIds.get? channel.id with
  | some cached => exact ⟨h.calendars channel hmem cached hcached, h⟩
  | none =>
    dsimp only
    rw [Effect.wp_bind]
    refine Effect.wp_mono (wp_steadyCall (f := fun w => (resolveAffectedCalendarIds channel w.store,
      w.store)) (a := fun _ => none) h h.follows rfl rfl) ?_ fun _ _ hhalted => hhalted
    rintro ids s' ⟨hids, hcontext, hstands⟩
    have hfound : ids = resolveAffectedCalendarIds channel found := by
      rw [hids]
      simp only [resolveAffectedCalendarIds, h.accountCalendars]
    refine ⟨hfound, { hstands with calendars := fun channel' hmem' ids' hget => ?_ }⟩
    by_cases hsame : channel.id = channel'.id
    · obtain rfl := ChannelTable.eq_of_id_eq hmem hmem' hsame
      rw [JsMap.get?_set_self] at hget
      rw [← Option.some.inj hget, hfound]
    · rw [JsMap.get?_set_of_ne _ _ hsame] at hget
      exact hstands.calendars channel' hmem' ids' hget

theorem wp_updateCall (hchannel : found.lookup options.provider claim.channelKey = some channel)
    (hknown : (s.context.lookups.get? claim.channelKey).isSome) {update : ℤ → ChannelTable.Update}
    (hkey : ∀ now row, rowKey ((update now).apply row) = rowKey row) (acts : PushCall)
    (h : Standing options.provider found delivered log s) :
    Effect.wp (perform (updateCall channel.id update acts))
      (fun _ s' => s'.context = s.context ∧ Standing options.provider found delivered log s')
      (fun _ s' => Halted found delivered log s'.world) s :=
  Effect.wp_mono (wp_steadyCall h (h.follows.update hchannel hknown (hkey _)) rfl rfl)
    (fun _ _ hanswered => hanswered.2) fun _ _ hhalted => hhalted

theorem mem_channels_of_lookup {provider channelKey : String}
    (h : found.lookup provider channelKey = some channel) : channel ∈ found.table.channels := by
  unfold PushStore.lookup at h
  split_ifs at h
  exact List.mem_of_find?_eq_some h

/-- **A waking claim** is served with the calendars of its channel. -/
theorem wp_resolveClaimCalendarIds
    (hchannel : found.lookup options.provider claim.channelKey = some channel)
    (hknown : (s.context.lookups.get? claim.channelKey).isSome)
    (h : Standing options.provider found delivered log s) :
    Effect.wp (resolveClaimCalendarIds (pushWebhookDependencies verifySecret webhookPublicUrl) claim
        channel)
      (fun ids s' => (claim.kind ≠ .sync → wakes claim = true →
          ids = resolveAffectedCalendarIds channel found) ∧
        Standing options.provider found delivered log s')
      (fun _ s' => Halted found delivered log s'.world) s := by
  have hmem := mem_channels_of_lookup hchannel
  have hcalendars : ∀ s, Standing options.provider found delivered log s →
      Effect.wp (sharedCalendarIds (pushWebhookDependencies verifySecret webhookPublicUrl) channel)
        (fun ids s' => (claim.kind ≠ .sync → wakes claim = true →
            ids = resolveAffectedCalendarIds channel found) ∧
          Standing options.provider found delivered log s')
        (fun _ s' => Halted found delivered log s'.world) s := fun s hs =>
    Effect.wp_mono (wp_sharedCalendarIds hmem hs) (fun _ _ hids => ⟨fun _ _ => hids.1, hids.2⟩)
      fun _ _ hhalted => hhalted
  unfold resolveClaimCalendarIds applyLifecycleClaim
  split_ifs with hkind hreauthorize hremoved hmissed
  · -- a request for a new authorization wakes nothing
    refine Effect.wp_bind.2 (Effect.wp_mono (wp_updateCall hchannel hknown (fun _ _ => rfl) _ h) ?_
      fun _ _ hhalted => hhalted)
    rintro _ s' ⟨-, hstands⟩
    refine ⟨fun _ hwakes => ?_, hstands⟩
    rw [wakes, hkind, hreauthorize] at hwakes
    exact absurd hwakes (by decide)
  · refine Effect.wp_bind.2 (Effect.wp_mono (wp_updateCall hchannel hknown (fun _ _ => rfl) _ h) ?_
      fun _ _ hhalted => hhalted)
    rintro _ s' ⟨-, hstands⟩
    exact hcalendars s' hstands
  · exact hcalendars s h
  · refine ⟨fun _ hwakes => ?_, h⟩
    rw [wakes, hkind] at hwakes
    simp [hremoved, hmissed] at hwakes
  · exact hcalendars s h

theorem wp_sharedNotification (h : Standing options.provider found delivered log s) :
    Effect.wp (sharedNotification (pushWebhookDependencies verifySecret webhookPublicUrl) channel.id)
      (fun _ s' => s'.context.lookups = s.context.lookups ∧
        Standing options.provider found delivered log s')
      (fun _ s' => Halted found delivered log s'.world) s := by
  unfold sharedNotification
  rw [Effect.wp_bind, Effect.wp_gets]
  cases hnoted : s.context.liveness.contains channel.id with
  | true => exact ⟨rfl, h⟩
  | false =>
    exact ⟨rfl, { h with grows := h.grows.trans (List.prefix_append _ _) }⟩

theorem wp_sharedVerification
    (hchannel : found.lookup options.provider claim.channelKey = some channel)
    (hknown : (s.context.lookups.get? claim.channelKey).isSome)
    (h : Standing options.provider found delivered log s) :
    Effect.wp (sharedVerification (pushWebhookDependencies verifySecret webhookPublicUrl) channel.id)
      (fun _ s' => s'.context.lookups = s.context.lookups ∧
        Standing options.provider found delivered log s')
      (fun _ s' => Halted found delivered log s'.world) s := by
  unfold sharedVerification
  rw [Effect.wp_bind, Effect.wp_gets]
  cases hverified : s.context.verifications.contains channel.id with
  | true => exact ⟨rfl, h⟩
  | false =>
    rw [if_neg Bool.false_ne_true, Effect.wp_bind]
    refine Effect.wp_mono (wp_updateCall hchannel hknown (fun _ _ => rfl) _ h) ?_
      fun _ _ hhalted => hhalted
    rintro _ s' ⟨hcontext, hstands⟩
    refine ⟨congrArg (·.lookups) hcontext, ?_⟩
    exact ⟨hstands.follows, hstands.accountCalendars, hstands.calendars, hstands.delivered_eq,
      hstands.grows⟩

/-- **A claim that is served** has the calendars of its channel, if it wakes. -/
theorem wp_serveClaim (hchannel : found.lookup options.provider claim.channelKey = some channel)
    (hknown : (s.context.lookups.get? claim.channelKey).isSome)
    (h : Standing options.provider found delivered log s) :
    Effect.wp (serveClaim (pushWebhookDependencies verifySecret webhookPublicUrl) claim channel)
      (fun outcome s' => (wakes claim = true →
          outcome.calendarIds = resolveAffectedCalendarIds channel found) ∧
        Standing options.provider found delivered log s')
      (fun _ s' => Halted found delivered log s'.world) s := by
  have hrest : ∀ s', s'.context.lookups = s.context.lookups →
      Standing options.provider found delivered log s' →
      Effect.wp (if claim.kind = .sync then pure {} else do
          let calendarIds ← resolveClaimCalendarIds
            (pushWebhookDependencies verifySecret webhookPublicUrl) claim channel
          pure { calendarIds })
        (fun outcome s' => (wakes claim = true →
            ClaimOutcome.calendarIds outcome = resolveAffectedCalendarIds channel found) ∧
          Standing options.provider found delivered log s')
        (fun _ s' => Halted found delivered log s'.world) s' := by
    intro s' hlookups hstands
    split_ifs with hsync
    · refine ⟨fun hwakes => ?_, hstands⟩
      rw [wakes, hsync] at hwakes
      cases hwakes
    · rw [Effect.wp_bind]
      refine Effect.wp_mono (wp_resolveClaimCalendarIds hchannel (hlookups ▸ hknown) hstands) ?_
        fun _ _ hhalted => hhalted
      rintro ids s'' ⟨hids, hstands'⟩
      exact ⟨hids hsync, hstands'⟩
  unfold serveClaim
  rw [Effect.wp_bind]
  refine Effect.wp_mono (wp_sharedNotification h) ?_ fun _ _ hhalted => hhalted
  rintro _ s' ⟨hlookups, hstands⟩
  by_cases hverify : claim.kind = .sync ∨ channel.verifiedAt = none
  · rw [if_pos hverify, Effect.wp_bind]
    refine Effect.wp_mono (wp_sharedVerification hchannel (hlookups ▸ hknown) hstands) ?_
      fun _ _ hhalted => hhalted
    rintro _ s'' ⟨hlookups', hstands'⟩
    exact hrest s'' (hlookups'.trans hlookups) hstands'
  · rw [if_neg hverify]
    exact hrest s' hlookups hstands

end Claim

/-! ## The claims of a delivery -/

section Loop

variable {verifySecret : String → String → Bool} {webhookPublicUrl : Option String}
  {options : PushWebhookOptions} {found : PushStore} {delivered : List String} {log : List PushEntry}
  {s : ClaimState PushWorld} {claim : PushClaim} {processed : List PushClaim} {pending : PendingClaims}

variable (verifySecret webhookPublicUrl options) in
/-- A claim that is authenticated, and wakes the calendars of a channel. -/
def WakesFor (found : PushStore) (claim : PushClaim) (channel : StoredPushChannel) : Prop :=
  authenticate (pushWebhookDependencies verifySecret webhookPublicUrl) options found claim =
    some channel ∧ wakes claim = true

variable (verifySecret webhookPublicUrl options) in
/-- A claim that is authenticated has a delivery; if it wakes, the calendars of its channel are among some. -/
def ClaimedBy (found : PushStore) (ids : List String) (key : String) (claim : PushClaim) : Prop :=
  deliveryKey options claim = some key ∧
    (authenticate (pushWebhookDependencies verifySecret webhookPublicUrl) options found claim).isSome ∧
    ∀ channel, WakesFor verifySecret webhookPublicUrl options found claim channel →
      ∀ id ∈ resolveAffectedCalendarIds channel found, id ∈ ids

theorem ClaimedBy.mono {ids ids' : List String} {key : String}
    (h : ClaimedBy verifySecret webhookPublicUrl options found ids key claim)
    (hids : ∀ id ∈ ids, id ∈ ids') :
    ClaimedBy verifySecret webhookPublicUrl options found ids' key claim :=
  ⟨h.1, h.2.1, fun channel hwakes id hid => hids id (h.2.2 channel hwakes id hid)⟩

variable (verifySecret webhookPublicUrl options) in
/-- What a claim leaves: its calendars are pending, or its delivery is claimed already. -/
inductive ClaimLeaves (found : PushStore) (claim : PushClaim) (delivered : List String)
    (ids : List String) : List String → Prop
  | rejected (h : authenticate (pushWebhookDependencies verifySecret webhookPublicUrl) options found
      claim = none) : ClaimLeaves found claim delivered ids delivered
  | duplicate (key : String) (hkey : deliveryKey options claim = some key) (hseen : key ∈ delivered) :
      ClaimLeaves found claim delivered ids delivered
  | unnamed (hkey : deliveryKey options claim = none)
      (h : ∀ channel, WakesFor verifySecret webhookPublicUrl options found claim channel →
        ids = resolveAffectedCalendarIds channel found) : ClaimLeaves found claim delivered ids delivered
  | claimed (key : String) (hkey : deliveryKey options claim = some key)
      (hsome : (authenticate (pushWebhookDependencies verifySecret webhookPublicUrl) options found
        claim).isSome)
      (h : ∀ channel, WakesFor verifySecret webhookPublicUrl options found claim channel →
        ids = resolveAffectedCalendarIds channel found) :
      ClaimLeaves found claim delivered ids (key :: delivered)

/-- **A claim** is rejected, or a duplicate, or is served. -/
theorem wp_processClaim (claim : PushClaim) (h : Standing options.provider found delivered log s) :
    Effect.wp (processClaim (pushWebhookDependencies verifySecret webhookPublicUrl) options claim)
      (fun outcome s' => ∃ delivered', Standing options.provider found delivered' log s' ∧
        ClaimLeaves verifySecret webhookPublicUrl options found claim delivered outcome.calendarIds
          delivered')
      (fun _ s' => Halted found delivered log s'.world ∨ ∃ key, deliveryKey options claim = some key ∧
        (authenticate (pushWebhookDependencies verifySecret webhookPublicUrl) options found
          claim).isSome ∧ Halted found (key :: delivered) log s'.world) s := by
  unfold processClaim
  rw [Effect.wp_bind]
  refine Effect.wp_mono (wp_resolveClaimChannel claim h) ?_ fun _ _ hhalted => Or.inl hhalted
  rintro resolution s₁ ⟨hresolved, hknown, hstands⟩
  rw [hresolved] at hknown
  rw [hresolved]
  cases hchannel : authenticate (pushWebhookDependencies verifySecret webhookPublicUrl) options found
      claim with
  | none => exact ⟨delivered, hstands, .rejected hchannel⟩
  | some channel =>
    have hlookup := (authenticate_eq_some_iff.1 hchannel).2.1
    have hknown := hknown (by rw [hchannel]; nofun)
    dsimp only
    rw [Effect.wp_bind]
    refine Effect.wp_mono (wp_claimFirst claim hstands) ?_ ?_
    · rintro claimed s₂ ⟨hcontext, delivered', hstands', hclaimed⟩
      have hserve : Effect.wp (serveClaim (pushWebhookDependencies verifySecret webhookPublicUrl) claim
          channel) (fun outcome s' => (∀ channel', WakesFor verifySecret webhookPublicUrl options found
            claim channel' → outcome.calendarIds = resolveAffectedCalendarIds channel' found) ∧
            Standing options.provider found delivered' log s')
          (fun _ s' => Halted found delivered' log s'.world) s₂ := by
        refine Effect.wp_mono (wp_serveClaim hlookup (hcontext ▸ hknown) hstands') ?_
          fun _ _ hhalted => hhalted
        rintro outcome s' ⟨hids, hstands''⟩
        refine ⟨fun channel' hwakes => ?_, hstands''⟩
        rw [← Option.some.inj (hchannel.symm.trans hwakes.1)]
        exact hids hwakes.2
      rcases hclaimed with ⟨rfl, hkey, rfl⟩ | ⟨key, hkey, ⟨rfl, hseen, rfl⟩ | ⟨rfl, rfl⟩⟩
      · refine Effect.wp_mono hserve ?_ fun _ _ hhalted => Or.inl hhalted
        exact fun outcome s' hserved => ⟨_, hserved.2, .unnamed hkey hserved.1⟩
      · exact ⟨_, hstands', .duplicate key hkey hseen⟩
      · refine Effect.wp_mono hserve ?_ ?_
        · exact fun outcome s' hserved =>
            ⟨_, hserved.2, .claimed key hkey (by rw [hchannel]; rfl) hserved.1⟩
        · exact fun _ _ hhalted => Or.inr ⟨key, hkey, rfl, hhalted⟩
    · rintro e s₂ (hhalted | ⟨key, hkey, hhalted⟩)
      · exact Or.inl hhalted
      · exact Or.inr ⟨key, hkey, rfl, hhalted⟩

variable (verifySecret webhookPublicUrl options) in
/-- What the loop over some claims leaves: a delivery is claimed by one of them, or was before; a claim that
wakes has its calendars among the pending ones, or its delivery is claimed by another. -/
structure Collected (found : PushStore) (processed : List PushClaim) (ids delivered : List String) :
    Prop where
  claimed : ∀ key ∈ delivered, key ∈ found.delivered ∨
    ∃ claim ∈ processed, ClaimedBy verifySecret webhookPublicUrl options found ids key claim
  served : ∀ claim ∈ processed, ∀ channel,
    WakesFor verifySecret webhookPublicUrl options found claim channel →
      (∀ id ∈ resolveAffectedCalendarIds channel found, id ∈ ids) ∨
        ∃ key, deliveryKey options claim = some key ∧ key ∈ delivered

theorem mem_addAll {set ids : List String} {id : String} : id ∈ addAll set ids ↔ id ∈ set ∨ id ∈ ids := by
  unfold addAll
  induction ids generalizing set with
  | nil => simp
  | cons id' ids ih =>
    rw [List.foldl_cons, ih, List.mem_cons]
    split_ifs with hmem
    · have hset : id' ∈ set := List.contains_iff_mem.1 hmem
      constructor
      · rintro (h | h)
        · exact Or.inl h
        · exact Or.inr (Or.inr h)
      · rintro (h | rfl | h)
        · exact Or.inl h
        · exact Or.inl hset
        · exact Or.inr h
    · rw [List.mem_append, List.mem_singleton, or_assoc]

/-- **One more claim** of the loop. -/
theorem Collected.add {ids new delivered' : List String}
    (h : Collected verifySecret webhookPublicUrl options found processed ids delivered)
    (hleaves : ClaimLeaves verifySecret webhookPublicUrl options found claim delivered new delivered') :
    Collected verifySecret webhookPublicUrl options found (processed ++ [claim]) (addAll ids new)
      delivered' := by
  have hids : ∀ id ∈ ids, id ∈ addAll ids new := fun id hid => mem_addAll.2 (Or.inl hid)
  have hclaimed : ∀ key ∈ delivered, key ∈ found.delivered ∨ ∃ claim' ∈ processed ++ [claim],
      ClaimedBy verifySecret webhookPublicUrl options found (addAll ids new) key claim' := by
    intro key hkey
    rcases h.claimed key hkey with hfound | ⟨claim', hclaim', hby⟩
    · exact Or.inl hfound
    · exact Or.inr ⟨claim', List.mem_append_left _ hclaim', hby.mono hids⟩
  have hserved : ∀ claim' ∈ processed, ∀ channel,
      WakesFor verifySecret webhookPublicUrl options found claim' channel →
        (∀ id ∈ resolveAffectedCalendarIds channel found, id ∈ addAll ids new) ∨
          ∃ key, deliveryKey options claim' = some key ∧ key ∈ delivered := by
    intro claim' hclaim' channel hwakes
    rcases h.served claim' hclaim' channel hwakes with hpending | hseen
    · exact Or.inl fun id hid => hids id (hpending id hid)
    · exact Or.inr hseen
  have hlast : ∀ {p : PushClaim → Prop}, (∀ claim' ∈ processed, p claim') → p claim →
      ∀ claim' ∈ processed ++ [claim], p claim' := by
    intro p hp hclaim claim' hclaim'
    rcases List.mem_append.1 hclaim' with hmem | hmem
    · exact hp claim' hmem
    · exact List.mem_singleton.1 hmem ▸ hclaim
  cases hleaves with
  | rejected hnone =>
    refine ⟨hclaimed, hlast hserved fun channel hwakes => ?_⟩
    rw [hwakes.1] at hnone
    cases hnone
  | duplicate key hkey hseen =>
    exact ⟨hclaimed, hlast hserved fun channel _ => Or.inr ⟨key, hkey, hseen⟩⟩
  | unnamed hkey hnew =>
    refine ⟨hclaimed, hlast hserved fun channel hwakes => Or.inl fun id hid => ?_⟩
    exact mem_addAll.2 (Or.inr (hnew channel hwakes ▸ hid))
  | claimed key hkey hsome hnew =>
    have hpending : ∀ channel, WakesFor verifySecret webhookPublicUrl options found claim channel →
        ∀ id ∈ resolveAffectedCalendarIds channel found, id ∈ addAll ids new :=
      fun channel hwakes id hid => mem_addAll.2 (Or.inr (hnew channel hwakes ▸ hid))
    refine ⟨fun key' hkey' => ?_, hlast (fun claim' hclaim' channel hwakes => ?_)
      fun channel hwakes => Or.inl (hpending channel hwakes)⟩
    · rcases List.mem_cons.1 hkey' with rfl | hbefore
      · exact Or.inr ⟨claim, List.mem_append_right _ List.mem_cons_self, hkey, hsome, hpending⟩
      · exact hclaimed key' hbefore
    · rcases hserved claim' hclaim' channel hwakes with hids' | ⟨key', hkey', hseen⟩
      · exact Or.inl hids'
      · exact Or.inr ⟨key', hkey', List.mem_cons_of_mem key hseen⟩

variable (verifySecret webhookPublicUrl options) in
/-- A delivery is claimed by one of some claims, which is authenticated. -/
def ClaimedAmong (found : PushStore) (claims : List PushClaim) (key : String) : Prop :=
  ∃ claim ∈ claims, deliveryKey options claim = some key ∧
    (authenticate (pushWebhookDependencies verifySecret webhookPublicUrl) options found claim).isSome

theorem Collected.claimedAmong {ids : List String}
    (h : Collected verifySecret webhookPublicUrl options found processed ids delivered)
    (rest : List PushClaim) {key : String} (hkey : key ∈ delivered) : key ∈ found.delivered ∨
      ClaimedAmong verifySecret webhookPublicUrl options found (processed ++ rest) key := by
  rcases h.claimed key hkey with hfound | ⟨claim, hclaim, hby⟩
  · exact Or.inl hfound
  · exact Or.inr ⟨claim, List.mem_append_left rest hclaim, hby.1, hby.2.1⟩

/-- **The loop over the claims.** -/
theorem wp_collectClaims (claims : List PushClaim)
    (h : Standing options.provider found delivered log s)
    (hcollected : Collected verifySecret webhookPublicUrl options found processed
      pending.pendingCalendarIds delivered) :
    Effect.wp (collectClaims (pushWebhookDependencies verifySecret webhookPublicUrl) options claims
        pending)
      (fun p s' => ∃ delivered', Standing options.provider found delivered' log s' ∧
        Collected verifySecret webhookPublicUrl options found (processed ++ claims)
          p.pendingCalendarIds delivered')
      (fun _ s' => ∃ delivered', Halted found delivered' log s'.world ∧ ∀ key ∈ delivered',
        key ∈ found.delivered ∨
          ClaimedAmong verifySecret webhookPublicUrl options found (processed ++ claims) key) s := by
  induction claims generalizing processed pending s delivered with
  | nil =>
    rw [List.append_nil]
    exact ⟨delivered, h, hcollected⟩
  | cons claim claims ih =>
    rw [collectClaims]
    refine Effect.wp_bind.2 (Effect.wp_mono (wp_processClaim claim h) ?_ ?_)
    · rintro outcome s' ⟨delivered', hstands, hleaves⟩
      have hadded : Collected verifySecret webhookPublicUrl options found (processed ++ [claim])
          (pending.add outcome).pendingCalendarIds delivered' := hcollected.add hleaves
      have hrest := ih hstands hadded
      rwa [List.append_assoc, List.singleton_append] at hrest
    · rintro e s' (hhalted | ⟨key, hkey, hsome, hhalted⟩)
      · exact ⟨delivered, hhalted, fun key hmem => hcollected.claimedAmong _ hmem⟩
      · refine ⟨key :: delivered, hhalted, fun key' hmem => ?_⟩
        rcases List.mem_cons.1 hmem with rfl | hbefore
        · exact Or.inr ⟨claim, List.mem_append_right _ List.mem_cons_self, hkey, hsome⟩
        · exact hcollected.claimedAmong _ hbefore

/-- A call that woke a calendar has been answered. -/
def Woken (log : List PushEntry) (id : String) : Prop :=
  ∃ ids, PushEntry.mk (.wakeIngest ids) true ∈ log ∧ id ∈ ids

/-- **The claims of a delivery** are served and their calendars woken, or a call fails. -/
theorem wp_processClaims (claims : List PushClaim)
    (h : Standing options.provider found found.delivered log s) :
    Effect.wp (processClaims (pushWebhookDependencies verifySecret webhookPublicUrl) options claims)
      (fun _ s' => ∃ delivered' ids, Halted found delivered' log s'.world ∧
        Collected verifySecret webhookPublicUrl options found claims ids delivered' ∧
        ∀ id ∈ ids, Woken s'.world.log id)
      (fun _ s' => ∃ delivered', Halted found delivered' log s'.world ∧ ∀ key ∈ delivered',
        key ∈ found.delivered ∨
          ClaimedAmong verifySecret webhookPublicUrl options found claims key) s := by
  have hstart : Collected verifySecret webhookPublicUrl options found []
      (PendingClaims.pendingCalendarIds {}) found.delivered :=
    ⟨fun _ hkey => Or.inl hkey, fun _ hclaim => absurd hclaim List.not_mem_nil⟩
  refine Effect.wp_bind.2 (Effect.wp_mono (wp_collectClaims claims h hstart) ?_
    fun _ _ hhalted => hhalted)
  rintro pending s' ⟨delivered', hstands, hcollected⟩
  rw [List.nil_append] at hcollected
  refine Effect.wp_bind.2 ?_
  unfold wakePending
  split_ifs with hpending
  · have hhalted : ∀ entry, Halted found delivered' log (s'.world.entered s'.world.store entry) :=
      fun entry => (hstands.entered entry hstands.follows rfl hstands.delivered_eq).halted
    unfold perform
    rw [Effect.wp_zoom]
    refine wp_call (f := fun w => (PUnit.unit, w.store))
      (a := fun _ => some (.wakeIngest pending.pendingCalendarIds)) ?_ (fun e => ?_) fun e => ?_
    · refine ⟨delivered', _, hhalted _, hcollected, fun id hid => ⟨_, ?_, hid⟩⟩
      exact List.mem_append_right _ (List.mem_singleton_self _)
    · exact ⟨delivered', hhalted _, fun key hkey =>
        List.append_nil claims ▸ hcollected.claimedAmong [] hkey⟩
    · exact ⟨delivered', hhalted none, fun key hkey =>
        List.append_nil claims ▸ hcollected.claimedAmong [] hkey⟩
  · rw [not_not] at hpending
    refine ⟨delivered', _, hstands.halted, hcollected, fun id hid => ?_⟩
    rw [hpending] at hid
    exact absurd hid List.not_mem_nil

/-- **A delivery** has served its claims and woken their calendars, or is not acknowledged. -/
theorem wp_runPushWebhook (request : PushRequest) (w : PushWorld) :
    Effect.wp (runPushWebhook (pushWebhookDependencies verifySecret webhookPublicUrl) options request)
      (fun status w' => ∃ delivered', Halted w.store delivered' w.log w' ∧
        ((∃ ids, Collected verifySecret webhookPublicUrl options w.store request.claims ids delivered' ∧
            ∀ id ∈ ids, Woken w'.log id) ∨
          delivered' = w.store.delivered ∧ 300 ≤ status))
      (fun _ w' => ∃ delivered', Halted w.store delivered' w.log w' ∧ ∀ key ∈ delivered',
        key ∈ w.store.delivered ∨
          ClaimedAmong verifySecret webhookPublicUrl options w.store request.claims key) w := by
  have hkept : ∀ entry, Halted w.store w.store.delivered w.log (w.entered w.store entry) :=
    fun entry => ⟨rfl, rfl, rfl, List.prefix_append _ _⟩
  have hnone : request.claims = [] → Collected verifySecret webhookPublicUrl options w.store
      request.claims [] w.store.delivered := by
    intro hclaims
    rw [hclaims]
    exact ⟨fun _ hkey => Or.inl hkey, fun _ hclaim => absurd hclaim List.not_mem_nil⟩
  unfold runPushWebhook
  cases htoken : request.validationToken with
  | some token =>
    have hclaims : request.claims = [] := by rw [PushRequest.claims, htoken]
    exact ⟨_, ⟨rfl, rfl, rfl, List.prefix_rfl⟩, Or.inl ⟨[], hnone hclaims, nofun⟩⟩
  | none =>
    dsimp only
    split_ifs with hurl hdeclared hlimit
    · exact ⟨_, ⟨rfl, rfl, rfl, List.prefix_rfl⟩, Or.inr ⟨rfl, by decide⟩⟩
    · exact ⟨_, ⟨rfl, rfl, rfl, List.prefix_rfl⟩, Or.inr ⟨rfl, by decide⟩⟩
    · refine Effect.wp_bind.2 (wp_readCall (g := fun store => store.admitted) ?_
        fun _ => ⟨_, hkept none, fun _ hkey => Or.inl hkey⟩)
      split_ifs
      · exact ⟨_, hkept none, Or.inr ⟨rfl, by decide⟩⟩
      · exact ⟨_, hkept none, Or.inr ⟨rfl, by decide⟩⟩
    · refine Effect.wp_bind.2 (wp_readCall (g := fun store => store.admitted) ?_
        fun _ => ⟨_, hkept none, fun _ hkey => Or.inl hkey⟩)
      split_ifs
      · cases hparsed : request.parsed with
        | malformed => exact ⟨_, hkept none, Or.inr ⟨rfl, by decide⟩⟩
        | validation _ =>
          have hclaims : request.claims = [] := by rw [PushRequest.claims, htoken, hparsed]
          exact ⟨_, hkept none, Or.inl ⟨[], hnone hclaims, nofun⟩⟩
        | notification claims =>
          have hclaims : request.claims = claims := by rw [PushRequest.claims, htoken, hparsed]
          have hstands : Standing options.provider w.store w.store.delivered w.log
              { world := w.entered w.store none } :=
            ⟨Follows.refl _ _, rfl, fun _ _ _ hget => by simp at hget, rfl, List.prefix_append _ _⟩
          rw [hclaims]
          refine Effect.wp_bind.2 ?_
          unfold runClaims
          rw [Effect.wp_zoom]
          refine Effect.wp_mono (wp_processClaims claims hstands) ?_ fun _ _ hhalted => hhalted
          rintro rejected s' ⟨delivered', ids, hhalted, hcollected, hwoken⟩
          exact ⟨delivered', hhalted, Or.inl ⟨ids, hcollected, hwoken⟩⟩
      · exact ⟨_, hkept none, Or.inr ⟨rfl, by decide⟩⟩

end Loop

/-! ## Deliveries, one after the other -/

/-- A delivery that comes in: the endpoint, the request, the clock, what the caches have forgotten by then and
whether the delivery is admitted, and the calls that fail. -/
structure Arrival where
  options : PushWebhookOptions
  request : PushRequest
  now : ℤ := 0
  expiredUnknown : String × String → Bool := fun _ => false
  expiredDelivery : String → Bool := fun _ => false
  admitted : Bool := true
  faults : ℕ → Option Fault := fun _ => none

/-- The world that a delivery finds. -/
def Arrival.world (arrival : Arrival) (store : PushStore) : PushWorld where
  store :=
    { store with
      unknownChannels := store.unknownChannels.filter fun key => !arrival.expiredUnknown key
      delivered := store.delivered.filter fun key => !arrival.expiredDelivery key
      admitted := arrival.admitted }
  now := arrival.now
  faults := arrival.faults

/-- A delivery that was answered: what it found, and the status and the world that it ended with. -/
structure Answered where
  arrival : Arrival
  found : PushWorld
  ended : Except PushError ℕ × PushWorld

section Runs

variable (verifySecret : String → String → Bool) (webhookPublicUrl : Option String)

def answer (store : PushStore) (arrival : Arrival) : Answered where
  arrival := arrival
  found := arrival.world store
  ended := handlePushWebhook (pushWebhookDependencies verifySecret webhookPublicUrl) arrival.options
    arrival.request (arrival.world store)

def answers (store : PushStore) : List Arrival → List Answered
  | [] => []
  | arrival :: arrivals =>
    answer verifySecret webhookPublicUrl store arrival ::
      answers (answer verifySecret webhookPublicUrl store arrival).ended.2.store arrivals

namespace Answered

def Acknowledged (r : Answered) : Prop := ∃ status, r.ended.1 = .ok status ∧ 200 ≤ status ∧ status < 300

def key (r : Answered) (claim : PushClaim) : Option String := deliveryKey r.arrival.options claim

/-- A claim of the delivery that authenticates and wakes the calendars of a channel. -/
def Wakes (r : Answered) (claim : PushClaim) (channel : StoredPushChannel) : Prop :=
  claim ∈ r.arrival.request.claims ∧
    WakesFor verifySecret webhookPublicUrl r.arrival.options r.found.store claim channel

def Failed (r : Answered) : Prop :=
  ∃ e, (runPushWebhook (pushWebhookDependencies verifySecret webhookPublicUrl) r.arrival.options
    r.arrival.request r.found).1 = .error e

/-- The delivery has claimed a key. -/
def Consumed (r : Answered) (key : String) : Prop :=
  key ∉ r.found.store.delivered ∧ key ∈ r.ended.2.store.delivered

/-- The delivery does not fail after it has claimed the key of a claim that wakes. -/
def Settles (r : Answered) : Prop :=
  r.Failed verifySecret webhookPublicUrl → ∀ claim channel,
    r.Wakes verifySecret webhookPublicUrl claim channel → ∀ key, r.key claim = some key →
      ¬ r.Consumed key

end Answered

/-- Where a delivery is acknowledged, the calendars of the claims that wake have been woken, by it or by an
earlier delivery with the same key. -/
def ServesClaims (records : List Answered) : Prop :=
  ∀ before r after, records = before ++ r :: after → r.Acknowledged → ∀ claim channel,
    r.Wakes verifySecret webhookPublicUrl claim channel →
      ∀ id ∈ resolveAffectedCalendarIds channel r.found.store, Woken r.ended.2.log id ∨
        ∃ key, r.key claim = some key ∧ ∃ r' ∈ before ++ [r], ∃ claim' ∈ r'.arrival.request.claims,
          r'.key claim' = some key ∧ Woken r'.ended.2.log id

/-- Claims with one key of a delivery are for one channel, and all of them wake or none. -/
def KeysAgree (arrivals : List Arrival) : Prop :=
  ∀ arrival ∈ arrivals, ∀ claim ∈ arrival.request.claims, ∀ arrival' ∈ arrivals,
    ∀ claim' ∈ arrival'.request.claims, ∀ key, deliveryKey arrival.options claim = some key →
      deliveryKey arrival'.options claim' = some key →
        arrival.options.provider = arrival'.options.provider ∧ claim.channelKey = claim'.channelKey ∧
          wakes claim = wakes claim'

end Runs

/-! ## One delivery -/

section Steps

variable {verifySecret : String → String → Bool} {webhookPublicUrl : Option String}
  {store : PushStore} {arrival : Arrival}

/-- The calendars of a channel, found by the same key in stores with the same rows. -/
theorem resolveAffectedCalendarIds_eq {found found' : PushStore} {options options' : PushWebhookOptions}
    {claim claim' : PushClaim} {channel channel' : StoredPushChannel}
    (hrows : found.table.channels.map rowKey = found'.table.channels.map rowKey)
    (hcalendars : found.accountCalendars = found'.accountCalendars)
    (hprovider : options.provider = options'.provider) (hkey : claim.channelKey = claim'.channelKey)
    (h : authenticate (pushWebhookDependencies verifySecret webhookPublicUrl) options found claim =
      some channel)
    (h' : authenticate (pushWebhookDependencies verifySecret webhookPublicUrl) options' found' claim' =
      some channel') :
    resolveAffectedCalendarIds channel found = resolveAffectedCalendarIds channel' found' := by
  have hrow : ∀ {store : PushStore} {provider key : String} {channel : StoredPushChannel},
      store.lookup provider key = some channel →
        (store.table.channels.map rowKey).find? (fun row =>
          row.provider = provider ∧ row.providerChannelId = some key) = some (rowKey channel) := by
    intro store provider key channel hlookup
    unfold PushStore.lookup at hlookup
    split_ifs at hlookup
    rw [List.find?_map]
    exact congrArg (Option.map rowKey) hlookup
  have hfirst := hrow (authenticate_eq_some_iff.1 h).2.1
  have hsecond := hrow (authenticate_eq_some_iff.1 h').2.1
  rw [hrows, hprovider, hkey, hsecond] at hfirst
  have hsame := Option.some.inj hfirst
  have hcalendar : channel'.calendarId = channel.calendarId := congrArg RowKey.calendarId hsame
  have haccount : channel'.accountId = channel.accountId := congrArg RowKey.accountId hsame
  unfold resolveAffectedCalendarIds
  rw [hcalendars, hcalendar, haccount]

variable (verifySecret webhookPublicUrl) in
/-- A delivery whose key was claimed by a claim that it has served. -/
def Answered.HasServed (r : Answered) (key : String) : Prop :=
  ∃ claim ∈ r.arrival.request.claims, r.key claim = some key ∧ ∃ channel,
    authenticate (pushWebhookDependencies verifySecret webhookPublicUrl) r.arrival.options r.found.store
      claim = some channel ∧
    (wakes claim = true → ∀ id ∈ resolveAffectedCalendarIds channel r.found.store,
      Woken r.ended.2.log id)

variable (verifySecret webhookPublicUrl store arrival) in
/-- What a delivery that settles does: it leaves the rows known by their keys, it serves the claims whose
keys it claims, and if it is acknowledged, the claims that wake are served or were claimed before. -/
structure AnswersInTurn (r : Answered) : Prop where
  rows : r.ended.2.store.table.channels.map rowKey = r.found.store.table.channels.map rowKey
  accountCalendars : r.ended.2.store.accountCalendars = r.found.store.accountCalendars
  claimed : ∀ key ∈ r.ended.2.store.delivered, key ∈ r.found.store.delivered ∨
    r.HasServed verifySecret webhookPublicUrl key
  served : r.Acknowledged → ∀ claim channel, r.Wakes verifySecret webhookPublicUrl claim channel →
    (∀ id ∈ resolveAffectedCalendarIds channel r.found.store, Woken r.ended.2.log id) ∨
      ∃ key, r.key claim = some key ∧ key ∈ r.ended.2.store.delivered

/-- **One delivery.** -/
theorem answersInTurn_of_settles
    (hsettles : (answer verifySecret webhookPublicUrl store arrival).Settles verifySecret
      webhookPublicUrl) :
    AnswersInTurn verifySecret webhookPublicUrl (answer verifySecret webhookPublicUrl store arrival) := by
  generalize hr : answer verifySecret webhookPublicUrl store arrival = r at hsettles
  have hended : r.ended = handlePushWebhook (pushWebhookDependencies verifySecret webhookPublicUrl)
      r.arrival.options r.arrival.request r.found := by
    rw [← hr]
    rfl
  obtain ⟨hstate, hstatus⟩ := Effect.run_recover_pure
    (runPushWebhook (pushWebhookDependencies verifySecret webhookPublicUrl) r.arrival.options
      r.arrival.request) (503 : ℕ) r.found
  have hspec := @wp_runPushWebhook verifySecret webhookPublicUrl r.arrival.options r.arrival.request
    r.found
  unfold Effect.wp at hspec
  change (handlePushWebhook _ _ _ _).2 = _ at hstate
  rw [← hended] at hstate
  change ∀ status, (handlePushWebhook _ _ _ _).1 = _ ↔ _ at hstatus
  rw [← hended] at hstatus
  cases hrun : runPushWebhook (pushWebhookDependencies verifySecret webhookPublicUrl) r.arrival.options
      r.arrival.request r.found with
  | mk result w' =>
    rw [hrun] at hspec hstate hstatus
    obtain rfl : r.ended.2 = w' := hstate
    cases result with
    | error e =>
      obtain ⟨delivered', hhalted, hclaimed⟩ := hspec
      obtain rfl := hhalted.delivered_eq
      refine ⟨hhalted.rows, hhalted.accountCalendars, fun key hkey => ?_, ?_⟩
      · rcases hclaimed key hkey with hfound | ⟨claim, hclaim, hclaimkey, hsome⟩
        · exact Or.inl hfound
        · obtain ⟨channel, hchannel⟩ := Option.isSome_iff_exists.1 hsome
          by_cases hfound : key ∈ r.found.store.delivered
          · exact Or.inl hfound
          · refine Or.inr ⟨claim, hclaim, hclaimkey, channel, hchannel, fun hwakes => ?_⟩
            -- the key of a claim that wakes is not claimed by a delivery that fails
            exact absurd ⟨hfound, hkey⟩ (hsettles ⟨e, by rw [hrun]⟩ claim channel
              ⟨hclaim, hchannel, hwakes⟩ key hclaimkey)
      · rintro ⟨status, hok, -, hlt⟩
        rcases (hstatus status).1 hok with h | ⟨-, rfl⟩
        · cases h
        · omega
    | ok status =>
      obtain ⟨delivered', hhalted, hanswered⟩ := hspec
      obtain rfl := hhalted.delivered_eq
      rcases hanswered with ⟨ids, hcollected, hwoken⟩ | ⟨hdelivered, hfailed⟩
      · refine ⟨hhalted.rows, hhalted.accountCalendars, fun key hkey => ?_, fun _ claim channel hwakes => ?_⟩
        · rcases hcollected.claimed key hkey with hfound | ⟨claim, hclaim, hclaimkey, hsome, hids⟩
          · exact Or.inl hfound
          · obtain ⟨channel, hchannel⟩ := Option.isSome_iff_exists.1 hsome
            exact Or.inr ⟨claim, hclaim, hclaimkey, channel, hchannel, fun hwakes id hid =>
              hwoken id (hids channel ⟨hchannel, hwakes⟩ id hid)⟩
        · rcases hcollected.served claim hwakes.1 channel hwakes.2 with hids | hseen
          · exact Or.inl fun id hid => hwoken id (hids id hid)
          · exact Or.inr hseen
      · refine ⟨hhalted.rows, hhalted.accountCalendars, fun key hkey => Or.inl (hdelivered ▸ hkey), ?_⟩
        rintro ⟨status', hok, -, hlt⟩
        rcases (hstatus status').1 hok with h | ⟨⟨e, h⟩, -⟩
        · have := Except.ok.inj h
          omega
        · cases h

/-! ## Runs -/

variable (verifySecret webhookPublicUrl) in
/-- What holds between two deliveries: the rows are known by the keys that all of them found, and each key
that is claimed was served by one of them. -/
structure Accounted (before : List Answered) (store : PushStore) : Prop where
  rows : ∀ r ∈ before, r.found.store.table.channels.map rowKey = store.table.channels.map rowKey
  accountCalendars : ∀ r ∈ before, r.found.store.accountCalendars = store.accountCalendars
  claimed : ∀ key ∈ store.delivered, ∃ r ∈ before, r.HasServed verifySecret webhookPublicUrl key

/-- **One more delivery.** -/
theorem Accounted.answered {before : List Answered}
    (h : Accounted verifySecret webhookPublicUrl before store)
    (hturn : AnswersInTurn verifySecret webhookPublicUrl
      (answer verifySecret webhookPublicUrl store arrival)) :
    Accounted verifySecret webhookPublicUrl
      (before ++ [answer verifySecret webhookPublicUrl store arrival])
      (answer verifySecret webhookPublicUrl store arrival).ended.2.store := by
  refine ⟨fun r hr => ?_, fun r hr => ?_, fun key hkey => ?_⟩
  · rcases List.mem_append.1 hr with hbefore | hlast
    · exact (h.rows r hbefore).trans hturn.rows.symm
    · exact List.mem_singleton.1 hlast ▸ hturn.rows.symm
  · rcases List.mem_append.1 hr with hbefore | hlast
    · exact (h.accountCalendars r hbefore).trans hturn.accountCalendars.symm
    · exact List.mem_singleton.1 hlast ▸ hturn.accountCalendars.symm
  · rcases hturn.claimed key hkey with hfound | hserved
    · obtain ⟨r, hr, hserved⟩ := h.claimed key (List.mem_of_mem_filter hfound)
      exact ⟨r, List.mem_append_left _ hr, hserved⟩
    · exact ⟨_, List.mem_append_right _ List.mem_cons_self, hserved⟩

/-- A claim that wakes was served by the delivery that claimed its key. -/
theorem Accounted.woken {records : List Answered} {r : Answered} {store : PushStore}
    (h : Accounted verifySecret webhookPublicUrl records store) (hr : r ∈ records)
    (hagree : KeysAgree (records.map (·.arrival))) {claim : PushClaim} {channel : StoredPushChannel}
    (hwakes : r.Wakes verifySecret webhookPublicUrl claim channel) {key : String}
    (hkey : r.key claim = some key) (hseen : key ∈ store.delivered) :
    ∀ id ∈ resolveAffectedCalendarIds channel r.found.store, ∃ key, r.key claim = some key ∧
      ∃ r' ∈ records, ∃ claim' ∈ r'.arrival.request.claims, r'.key claim' = some key ∧
        Woken r'.ended.2.log id := by
  obtain ⟨r', hr', claim', hclaim', hkey', channel', hchannel', hserved⟩ := h.claimed key hseen
  obtain ⟨hprovider, hchannelKey, hsame⟩ := hagree _ (List.mem_map_of_mem hr) claim hwakes.1 _
    (List.mem_map_of_mem hr') claim' hclaim' key hkey hkey'
  have hcalendars := resolveAffectedCalendarIds_eq ((h.rows r hr).trans (h.rows r' hr').symm)
    ((h.accountCalendars r hr).trans (h.accountCalendars r' hr').symm) hprovider hchannelKey hwakes.2.1
      hchannel'
  intro id hid
  rw [hcalendars] at hid
  exact ⟨key, hkey, r', hr', claim', hclaim', hkey', hserved (hsame ▸ hwakes.2.2) id hid⟩

theorem KeysAgree.mono {arrivals arrivals' : List Arrival} (h : KeysAgree arrivals)
    (hsubset : arrivals' ⊆ arrivals) : KeysAgree arrivals' :=
  fun arrival harrival claim hclaim arrival' harrival' =>
    h arrival (hsubset harrival) claim hclaim arrival' (hsubset harrival')

theorem servesClaims_after {before : List Answered} {arrivals : List Arrival}
    (h : Accounted verifySecret webhookPublicUrl before store)
    (hagree : KeysAgree (before.map (·.arrival) ++ arrivals))
    (hsettles : ∀ r ∈ answers verifySecret webhookPublicUrl store arrivals,
      r.Settles verifySecret webhookPublicUrl)
    {pre after : List Answered} {r : Answered}
    (hsplit : answers verifySecret webhookPublicUrl store arrivals = pre ++ r :: after)
    (hack : r.Acknowledged) {claim : PushClaim} {channel : StoredPushChannel}
    (hwakes : r.Wakes verifySecret webhookPublicUrl claim channel) {id : String}
    (hid : id ∈ resolveAffectedCalendarIds channel r.found.store) :
    Woken r.ended.2.log id ∨ ∃ key, r.key claim = some key ∧ ∃ r' ∈ before ++ (pre ++ [r]),
      ∃ claim' ∈ r'.arrival.request.claims, r'.key claim' = some key ∧ Woken r'.ended.2.log id := by
  induction arrivals generalizing store before pre with
  | nil =>
    rw [answers] at hsplit
    simp at hsplit
  | cons arrival arrivals ih =>
    have hturn := answersInTurn_of_settles (hsettles _ List.mem_cons_self)
    have haccounted := h.answered hturn
    cases pre with
    | nil =>
      obtain ⟨rfl, -⟩ := List.cons.inj hsplit
      rcases hturn.served hack claim channel hwakes with hids | ⟨key, hkey, hseen⟩
      · exact Or.inl (hids id hid)
      · refine Or.inr (haccounted.woken (List.mem_append_right _ List.mem_cons_self)
          (hagree.mono ?_) hwakes hkey hseen id hid)
        rw [List.map_append]
        exact List.append_subset.2 ⟨List.subset_append_left _ _,
          List.subset_append_of_subset_right _ (List.cons_subset_cons _ (List.nil_subset _))⟩
    | cons r₀ pre =>
      obtain ⟨rfl, hrest⟩ := List.cons.inj hsplit
      have hafter := ih haccounted (hagree.mono ?_) (fun r' hr' => hsettles r' (List.mem_cons_of_mem _ hr'))
        hrest
      · rwa [List.append_assoc, List.singleton_append] at hafter
      · rw [List.map_append, List.append_assoc]
        exact List.Subset.refl _

/-- **Acknowledged claims have woken their calendars**, in a run in which no delivery fails after it has
claimed the delivery of a claim that wakes. -/
theorem servesClaims_of_settles (verifySecret : String → String → Bool) (webhookPublicUrl : Option String)
    {store : PushStore} (hfresh : store.delivered = []) {arrivals : List Arrival}
    (hagree : KeysAgree arrivals)
    (hsettles : ∀ r ∈ answers verifySecret webhookPublicUrl store arrivals,
      r.Settles verifySecret webhookPublicUrl) :
    ServesClaims verifySecret webhookPublicUrl (answers verifySecret webhookPublicUrl store arrivals) := by
  have hstart : Accounted verifySecret webhookPublicUrl [] store := by
    refine ⟨fun _ hr => absurd hr List.not_mem_nil, fun _ hr => absurd hr List.not_mem_nil, ?_⟩
    rw [hfresh]
    exact fun _ hkey => absurd hkey List.not_mem_nil
  intro before r after hsplit hack claim channel hwakes id hid
  exact servesClaims_after hstart hagree hsettles hsplit hack hwakes hid

end Steps

namespace Example

def pushStore : PushStore where
  table := ⟨[googleChannel], nodup_googleChannel⟩
  accountCalendars := fun _ => []

def changeArrival (faults : ℕ → Option Fault) : Arrival where
  options := googleOptions
  request := delivery [googleChange "1"]
  faults := faults

end Example

theorem servesClaims_of_settles_example :
    ServesClaims (· = ·) (some "https://push") (answers (· = ·) (some "https://push") Example.pushStore
      [Example.changeArrival fun _ => none, Example.changeArrival fun _ => none]) := by
  refine servesClaims_of_settles _ _ rfl ?_ ?_
  · intro arrival harrival claim hclaim arrival' harrival' claim' hclaim' key hkey hkey'
    have harrival : arrival = Example.changeArrival fun _ => none := by simpa [or_self] using harrival
    have harrival' : arrival' = Example.changeArrival fun _ => none := by simpa [or_self] using harrival'
    subst harrival harrival'
    obtain rfl := List.mem_singleton.1 hclaim
    obtain rfl := List.mem_singleton.1 hclaim'
    exact ⟨rfl, rfl, rfl⟩
  · have hok : ∀ r ∈ answers (· = ·) (some "https://push") Example.pushStore
        [Example.changeArrival fun _ => none, Example.changeArrival fun _ => none],
        (runPushWebhook (pushWebhookDependencies (· = ·) (some "https://push")) r.arrival.options
          r.arrival.request r.found).1 = .ok 200 := by decide
    rintro r hr ⟨e, he⟩
    rw [hok r hr] at he
    cases he

/-- A change whose wake-up fails is answered with `503`; when it is repeated, it is a duplicate and is
answered with `200`, and no calendar is ever woken. -/
theorem not_servesClaims :
    ¬ ServesClaims (· = ·) (some "https://push") (answers (· = ·) (some "https://push") Example.pushStore
      [Example.changeArrival fun n => if n = 5 then some .callLost else none,
        Example.changeArrival fun _ => none]) := by
  intro h
  have hlogs : (answers (· = ·) (some "https://push") Example.pushStore
      [Example.changeArrival fun n => if n = 5 then some .callLost else none,
        Example.changeArrival fun _ => none]).map (·.ended.2.log) =
      [[⟨.claimDelivery "google:channel:1" true, true⟩, ⟨.recordNotificationReceived "row", true⟩],
        [⟨.claimDelivery "google:channel:1" false, true⟩]] := by decide
  have hnone : ∀ r ∈ answers (· = ·) (some "https://push") Example.pushStore
      [Example.changeArrival fun n => if n = 5 then some .callLost else none,
        Example.changeArrival fun _ => none], ¬ Woken r.ended.2.log "work" := by
    rintro r hr ⟨ids, hmem, -⟩
    have hlog := List.mem_map_of_mem (f := fun r : Answered => r.ended.2.log) hr
    rw [hlogs] at hlog
    rcases List.mem_cons.1 hlog with hlog | hlog
    · rw [hlog] at hmem
      simp at hmem
    · rw [List.mem_singleton.1 hlog] at hmem
      simp at hmem
  rcases h [_] _ [] rfl ⟨200, by decide, by decide, by decide⟩ (Example.googleChange "1")
    Example.googleChannel ⟨List.mem_singleton_self _, by decide, by decide⟩ "work" (by decide) with
    hwoken | ⟨key, -, r, hr, claim, -, -, hwoken⟩
  · exact hnone _ (List.mem_cons_of_mem _ (List.mem_singleton_self _)) hwoken
  · exact hnone r hr hwoken

end Push

end Keeper
