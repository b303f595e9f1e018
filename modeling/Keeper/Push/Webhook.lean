import Keeper.Foundations.Effect
import Keeper.Foundations.JsMap
import Keeper.Foundations.Text
import Keeper.Push.Channel

/-!
# Push deliveries

`utils/push-notifications/handle-webhook.ts` of the API: a delivery is let through or answered, and its claims
are processed one after another. The claims of a delivery share the lookups, the verifications and the
calendars of channels. What is only observed (fields of the wide event, recorded errors) is left out.
-/

namespace Keeper

namespace Push

/-! ## Claims -/

inductive PushClaimKind
  | change
  | lifecycle
  | sync
  deriving DecidableEq

structure PushClaim where
  channelKey : String
  deliveryId : Option String
  kind : PushClaimKind
  lifecycleEvent : Option String := none
  presentedResourceId : Option String := none
  presentedSecret : String
  deriving DecidableEq

inductive PushParseResult
  | notification (claims : List PushClaim)
  | validation (token : String)
  | malformed

/-- `PushRejectReason`, of a claim. -/
inductive PushRejectReason
  | badChannelShape
  | resourceMismatch
  | secretMismatch
  | unknownChannel
  deriving DecidableEq

/-- What a delivery asks for: its validation token, whether `content-length` declares too much, whether the
body that is read is within the limit, and what the provider's parser makes of it. -/
structure PushRequest where
  validationToken : Option String := none
  exceedsDeclaredBodyLimit : Bool := false
  withinLimit : Bool := true
  parsed : PushParseResult

def pushValidationTokenMax : ℕ := 2048

def pushChannelKeyMax : ℕ := 256

def pushUnknownChannelTtlSeconds : ℕ := 30

/-! ## Dependencies -/

/-- What a failing dependency throws. -/
abbrev PushError := String

/-- `PushWebhookDependencies`, over a world. -/
structure PushWebhookDependencies (W : Type) where
  claimDelivery : String → Effect PushError W Bool
  claimPushAdmission : String → Effect PushError W Bool
  findChannel : String → String → Effect PushError W (Option StoredPushChannel)
  isUnknownChannelCached : String → String → Effect PushError W Bool
  markChannelRemoved : Option (String → Effect PushError W PUnit)
  markReauthorizeRequested : Option (String → Effect PushError W PUnit)
  recordNotificationReceived : String → Effect PushError W PUnit
  recordVerified : String → Effect PushError W PUnit
  rememberUnknownChannel : String → String → ℕ → Effect PushError W PUnit
  resolveAffectedCalendarIds : StoredPushChannel → Effect PushError W (List String)
  verifySecret : String → String → Bool
  wakeIngest : List String → Effect PushError W PUnit
  webhookPublicUrl : Option String

/-- `PushWebhookOptions`; the accepted status is one of success. -/
structure PushWebhookOptions where
  acceptedStatus : ℕ
  accepted : 200 ≤ acceptedStatus ∧ acceptedStatus < 300
  enforceResourceId : Bool
  provider : String

/-! ## Channels of claims -/

def hasUsableChannelKey (claim : PushClaim) : Bool :=
  0 < Text.utf16Length claim.channelKey && Text.utf16Length claim.channelKey ≤ pushChannelKeyMax &&
    0 < Text.utf16Length claim.presentedSecret

structure ChannelLookup where
  channel : Option StoredPushChannel
  negativeCacheHit : Bool := false
  rejectReason : Option PushRejectReason := none

/-- `ClaimContext`: what the claims of a delivery share. -/
structure ClaimContext where
  lookups : JsMap String ChannelLookup := JsMap.empty
  calendarIds : JsMap String (List String) := JsMap.empty
  verifications : List String := []
  liveness : List String := []

structure ClaimState (W : Type) where
  world : W
  context : ClaimContext := {}

section Claims

variable {W : Type} (dependencies : PushWebhookDependencies W) (options : PushWebhookOptions)

def perform {α : Type} (call : Effect PushError W α) : Effect PushError (ClaimState W) α :=
  Effect.zoom (·.world) (fun state world => { state with world }) call

def share (change : ClaimContext → ClaimContext) : Effect PushError (ClaimState W) PUnit :=
  Effect.modify fun state => { state with context := change state.context }

def lookupChannel (channelKey : String) : Effect PushError W ChannelLookup := do
  if ← dependencies.isUnknownChannelCached options.provider channelKey then
    pure { channel := none, negativeCacheHit := true, rejectReason := some .unknownChannel }
  else
    match ← dependencies.findChannel options.provider channelKey with
    | none => do
      dependencies.rememberUnknownChannel options.provider channelKey pushUnknownChannelTtlSeconds
      pure { channel := none, rejectReason := some .unknownChannel }
    | some channel => pure { channel := some channel }

/-- `lookupChannel` of the claim context. A lookup that fails ends the delivery. -/
def sharedLookup (channelKey : String) : Effect PushError (ClaimState W) ChannelLookup := do
  match ← Effect.gets fun state => state.context.lookups.get? channelKey with
  | some cached => pure cached
  | none => do
    let lookup ← perform (lookupChannel dependencies options channelKey)
    share fun context => { context with lookups := context.lookups.set channelKey lookup }
    pure lookup

/-- `recordNotificationReceived` of the claim context. -/
def sharedNotification (channelId : String) : Effect PushError (ClaimState W) PUnit := do
  if ← Effect.gets fun state => state.context.liveness.contains channelId then pure ⟨⟩
  else do
    share fun context => { context with liveness := channelId :: context.liveness }
    perform (dependencies.recordNotificationReceived channelId)

/-- `recordVerified` of the claim context. -/
def sharedVerification (channelId : String) : Effect PushError (ClaimState W) PUnit := do
  if ← Effect.gets fun state => state.context.verifications.contains channelId then pure ⟨⟩
  else do
    perform (dependencies.recordVerified channelId)
    share fun context => { context with verifications := channelId :: context.verifications }

/-- `resolveCalendarIds` of the claim context. -/
def sharedCalendarIds (channel : StoredPushChannel) : Effect PushError (ClaimState W) (List String) := do
  match ← Effect.gets fun state => state.context.calendarIds.get? channel.id with
  | some cached => pure cached
  | none => do
    let ids ← perform (dependencies.resolveAffectedCalendarIds channel)
    share fun context => { context with calendarIds := context.calendarIds.set channel.id ids }
    pure ids

/-- What `resolveClaimChannel` makes of a channel that is found. -/
def checkClaim (claim : PushClaim) (channel : StoredPushChannel) : Option PushRejectReason :=
  if !dependencies.verifySecret claim.presentedSecret channel.secretHash then some .secretMismatch
  else if options.enforceResourceId ∧ channel.providerResourceId ≠ none ∧
      claim.presentedResourceId ≠ channel.providerResourceId then some .resourceMismatch
  else none

def resolveClaimChannel (claim : PushClaim) : Effect PushError (ClaimState W) ChannelLookup := do
  if !hasUsableChannelKey claim then
    pure { channel := none, rejectReason := some .badChannelShape }
  else
    let lookup ← sharedLookup dependencies options claim.channelKey
    match lookup.channel with
    | none => pure lookup
    | some channel =>
      match checkClaim dependencies options claim channel with
      | some reason => pure { channel := none, rejectReason := some reason }
      | none => pure { channel := some channel }

/-! ## Claims -/

def applyLifecycleClaim (claim : PushClaim) (channel : StoredPushChannel) :
    Effect PushError (ClaimState W) (List String) :=
  if claim.lifecycleEvent = some "reauthorizationRequired" then do
    match dependencies.markReauthorizeRequested with
    | none => pure ⟨⟩
    | some mark => perform (mark channel.id)
    pure []
  else if claim.lifecycleEvent = some "subscriptionRemoved" then do
    match dependencies.markChannelRemoved with
    | none => pure ⟨⟩
    | some mark => perform (mark channel.id)
    sharedCalendarIds dependencies channel
  else if claim.lifecycleEvent = some "missed" then sharedCalendarIds dependencies channel
  else pure []

def resolveClaimCalendarIds (claim : PushClaim) (channel : StoredPushChannel) :
    Effect PushError (ClaimState W) (List String) :=
  if claim.kind = .lifecycle then applyLifecycleClaim dependencies claim channel
  else sharedCalendarIds dependencies channel

def deliveryKey (claim : PushClaim) : Option String :=
  claim.deliveryId.map fun deliveryId =>
    options.provider ++ ":" ++ claim.channelKey ++ ":" ++ deliveryId

structure ClaimOutcome where
  calendarIds : List String := []
  duplicate : Bool := false
  negativeCacheHit : Bool := false
  rejectReason : Option PushRejectReason := none

/-- The claim of a delivery, which one without an id always makes. -/
def claimFirst (claim : PushClaim) : Effect PushError (ClaimState W) Bool :=
  match deliveryKey options claim with
  | none => pure true
  | some key => perform (dependencies.claimDelivery key)

/-- `processClaim` of a claim whose delivery is claimed. -/
def serveClaim (claim : PushClaim) (channel : StoredPushChannel) :
    Effect PushError (ClaimState W) ClaimOutcome := do
  sharedNotification dependencies channel.id
  if claim.kind = .sync ∨ channel.verifiedAt = none then sharedVerification dependencies channel.id
  if claim.kind = .sync then pure {}
  else
    let calendarIds ← resolveClaimCalendarIds dependencies claim channel
    pure { calendarIds }

def processClaim (claim : PushClaim) : Effect PushError (ClaimState W) ClaimOutcome := do
  let resolution ← resolveClaimChannel dependencies options claim
  match resolution.channel with
  | none =>
    pure { negativeCacheHit := resolution.negativeCacheHit, rejectReason := resolution.rejectReason }
  | some channel =>
    if ← claimFirst dependencies options claim then serveClaim dependencies claim channel
    else pure { duplicate := true }

/-! ## Deliveries -/

/-- The state of the loop of `processClaims`, as far as it goes on to something: the calendars to wake, in
the order in which they were added, and the number of rejected claims. -/
structure PendingClaims where
  pendingCalendarIds : List String := []
  rejectedCount : ℕ := 0

/-- `Set.prototype.add`, of each. -/
def addAll (set ids : List String) : List String :=
  ids.foldl (fun set id => if set.contains id then set else set ++ [id]) set

/-- What the loop of `processClaims` keeps of an outcome. -/
def PendingClaims.add (pending : PendingClaims) (outcome : ClaimOutcome) : PendingClaims where
  pendingCalendarIds := addAll pending.pendingCalendarIds outcome.calendarIds
  rejectedCount := pending.rejectedCount + if outcome.rejectReason.isSome then 1 else 0

/-- The loop of `processClaims`. -/
def collectClaims : List PushClaim → PendingClaims → Effect PushError (ClaimState W) PendingClaims
  | [], pending => pure pending
  | claim :: claims, pending => do
    let outcome ← processClaim dependencies options claim
    collectClaims claims (pending.add outcome)

/-- The end of `processClaims`: the calendars of its claims are woken. -/
def wakePending (pendingCalendarIds : List String) : Effect PushError (ClaimState W) PUnit :=
  if pendingCalendarIds ≠ [] then perform (dependencies.wakeIngest pendingCalendarIds) else pure ⟨⟩

def processClaims (claims : List PushClaim) : Effect PushError (ClaimState W) ℕ := do
  let pending ← collectClaims dependencies options claims {}
  wakePending dependencies pending.pendingCalendarIds
  pure pending.rejectedCount

/-- `processClaims`, with a claim context of its own. -/
def runClaims (claims : List PushClaim) : Effect PushError W ℕ :=
  Effect.zoom (fun world => { world }) (fun _ (state : ClaimState W) => state.world)
    (processClaims dependencies options claims)

/-- `runPushWebhook`: the status of the response. -/
def runPushWebhook (request : PushRequest) : Effect PushError W ℕ :=
  match request.validationToken with
  | some token => pure (if pushValidationTokenMax < Text.utf16Length token then 400 else 200)
  | none =>
    if (dependencies.webhookPublicUrl.getD "") = "" then pure 501
    else if request.exceedsDeclaredBodyLimit then pure 413
    else do
      if ← dependencies.claimPushAdmission options.provider then
        if !request.withinLimit then pure 413
        else
          match request.parsed with
          | .malformed => pure 400
          | .validation _ => pure 200
          | .notification claims => do
            let rejectedCount ← runClaims dependencies options claims
            pure (if 0 < claims.length ∧ rejectedCount = claims.length then 401
              else options.acceptedStatus)
      else pure 503

/-- `handlePushWebhook`: a dependency that throws makes the delivery unavailable. -/
def handlePushWebhook (request : PushRequest) : Effect PushError W ℕ :=
  Effect.recover (runPushWebhook dependencies options request) fun _ => pure 503

end Claims

end Push

end Keeper
