import Keeper.Foundations.JsMap
import Keeper.Foundations.Text
import Keeper.Push.Channel

/-!
# Planning a sweep of the push channels

`planPushChannelActions` (`core/source/push-channel.ts`): the live channels and the calendars that a sweep has
selected are joined by the calendar, and what is due is registered, renewed or deregistered. Providers are the
keys of `PUSH_PROVIDER_PROFILES`; texts that name a member of every object are left out.

* `needsAction`, `isSome_planStoredChannelAction`: the channels for which an action is planned.
* `planStoredChannelAction_spec`: the action that is planned for a channel.
-/

namespace Keeper

namespace Push

/-! ## Providers -/

inductive PushChannelRenewalMode
  | extend
  | recreate
  deriving DecidableEq

structure PushProviderProfile where
  maxLifetimeMs : ℤ
  provider : String
  renewalMode : PushChannelRenewalMode
  requiresProviderAccountId : Bool
  supportsList : Bool
  deriving DecidableEq

def googlePushProfile : PushProviderProfile where
  maxLifetimeMs := 7 * 24 * 60 * 60000
  provider := "google"
  renewalMode := .recreate
  requiresProviderAccountId := false
  supportsList := false

def outlookPushProfile : PushProviderProfile where
  maxLifetimeMs := 10080 * 60000
  provider := "outlook"
  renewalMode := .extend
  requiresProviderAccountId := true
  supportsList := true

/-- `resolvePushProviderProfile`, and `resolvePushRegistrar`, whose registrars extend the profiles. -/
def resolvePushProviderProfile (provider : String) : Option PushProviderProfile :=
  if provider = "google" then some googlePushProfile
  else if provider = "outlook" then some outlookPushProfile
  else none

def resolveRenewalLeadMs (maxLifetimeMs : ℤ) : ℤ := maxLifetimeMs / 5

def resolveStaggerPeriodMs (maxLifetimeMs : ℤ) : ℤ := maxLifetimeMs / 4

/-! ## Scopes and actions -/

structure EligibleSourceCalendar where
  accountId : String
  calendarId : String
  capabilities : List String
  disabled : Bool
  externalCalendarId : Option String
  needsReauthentication : Bool
  provider : String
  providerAccountId : Option String
  userId : String
  deriving DecidableEq

/-- `PushChannelScope`; the scope of an account is one of drift reconciliation. -/
inductive PushChannelScope
  | calendar (accountId calendarId externalCalendarId : String) (providerAccountId : Option String)
      (userId : String)
  | account (accountId providerAccountId userId : String)
  | channel (accountId : String) (calendarId : Option String) (userId : String)
  deriving DecidableEq

def PushChannelScope.accountId : PushChannelScope → String
  | .calendar accountId _ _ _ _ => accountId
  | .account accountId _ _ => accountId
  | .channel accountId _ _ => accountId

inductive PushChannelActionType
  | deregister
  | register
  | renew
  deriving DecidableEq

structure PushChannelAction where
  channel : Option StoredPushChannel
  previousProviderChannelId : Option String
  previousProviderResourceId : Option String
  provider : String
  renewalMode : Option PushChannelRenewalMode
  requestedExpiresAt : ℤ
  scope : PushChannelScope
  type : PushChannelActionType
  deriving DecidableEq

inductive PushPlanSkipReason
  | existingChannel
  | missingExternalCalendarId
  | missingProviderAccountId
  | needsReauthentication
  | notPull
  | unsupportedProvider
  deriving DecidableEq

inductive CalendarPlanDecision
  | register (profile : PushProviderProfile) (scope : PushChannelScope)
  | skip (reason : PushPlanSkipReason)

def isPullCalendar (calendar : EligibleSourceCalendar) : Bool :=
  !calendar.disabled && calendar.capabilities.contains "pull"

def buildCalendarScope (calendar : EligibleSourceCalendar) : Option PushChannelScope :=
  calendar.externalCalendarId.map fun externalCalendarId =>
    .calendar calendar.accountId calendar.calendarId externalCalendarId calendar.providerAccountId
      calendar.userId

def buildChannelScope (channel : StoredPushChannel) : PushChannelScope :=
  .channel channel.accountId channel.calendarId channel.userId

def isRegistrationEligible (calendar : EligibleSourceCalendar) : Bool :=
  match resolvePushProviderProfile calendar.provider with
  | none => false
  | some profile =>
    if profile.requiresProviderAccountId && calendar.providerAccountId.isNone then false
    else isPullCalendar calendar && !calendar.needsReauthentication && calendar.externalCalendarId.isSome

def resolveCalendarPlanDecision (calendar : EligibleSourceCalendar) (hasLiveChannel : Bool) :
    CalendarPlanDecision :=
  if hasLiveChannel then .skip .existingChannel
  else if !isPullCalendar calendar then .skip .notPull
  else if calendar.needsReauthentication then .skip .needsReauthentication
  else
    match resolvePushProviderProfile calendar.provider with
    | none => .skip .unsupportedProvider
    | some profile =>
      if calendar.externalCalendarId.isNone then .skip .missingExternalCalendarId
      else if profile.requiresProviderAccountId && calendar.providerAccountId.isNone then
        .skip .missingProviderAccountId
      else
        match buildCalendarScope calendar with
        | none => .skip .missingExternalCalendarId
        | some scope => .register profile scope

/-! ## What is due -/

def isRenewalDue (channel : StoredPushChannel) (maxLifetimeMs now : ℤ) : Bool :=
  if channel.nextAttemptAt.any (now < ·) then false
  else if channel.reauthorizeRequestedAt.isSome then true
  else
    match channel.expiresAt with
    | none => true
    | some expiresAt => expiresAt - now < resolveRenewalLeadMs maxLifetimeMs

def isStaleRegistering (channel : StoredPushChannel) (now : ℤ) : Bool := 600000 ≤ now - channel.updatedAt

def isRegistrationRetryable (channel : StoredPushChannel) : Bool :=
  channel.state = .registering || channel.expiresAt.isNone

def isRegistrationRetryDue (channel : StoredPushChannel) (now : ℤ) : Bool :=
  match channel.nextAttemptAt with
  | some nextAttemptAt => nextAttemptAt ≤ now
  | none => isStaleRegistering channel now

/-! ## The plan -/

section Plan

variable (getDeterministicRefreshOffset : String → ℕ)

/-- `resolveRequestedExpiresAt`; the offset is a hash of the key. -/
def resolveRequestedExpiresAt (scopeKey : String) (maxLifetimeMs now : ℤ) : ℤ :=
  now + maxLifetimeMs - getDeterministicRefreshOffset scopeKey % resolveStaggerPeriodMs maxLifetimeMs

def buildEligibleCalendarScope (calendar : Option EligibleSourceCalendar) : Option PushChannelScope :=
  match calendar with
  | none => none
  | some calendar => if isRegistrationEligible calendar then buildCalendarScope calendar else none

def buildChannelAction (channel : StoredPushChannel) (type : PushChannelActionType) (scope : PushChannelScope)
    (renewalMode : Option PushChannelRenewalMode) (requestedExpiresAt : ℤ) : PushChannelAction where
  channel := some channel
  previousProviderChannelId := channel.providerChannelId
  previousProviderResourceId := channel.providerResourceId
  provider := channel.provider
  renewalMode
  requestedExpiresAt
  scope
  type

def planStoredChannelAction (channel : StoredPushChannel) (calendar : Option EligibleSourceCalendar) (now : ℤ) :
    Option PushChannelAction :=
  match resolvePushProviderProfile channel.provider, buildEligibleCalendarScope calendar with
  | some profile, some scope =>
    let requestedExpiresAt := resolveRequestedExpiresAt getDeterministicRefreshOffset
      (channel.provider ++ ":" ++ channel.calendarId.getD channel.accountId) profile.maxLifetimeMs now
    if isRegistrationRetryable channel then
      if !isRegistrationRetryDue channel now then none
      else some (buildChannelAction channel .register scope (some profile.renewalMode) requestedExpiresAt)
    else if !isRenewalDue channel profile.maxLifetimeMs now then none
    else some (buildChannelAction channel .renew scope (some profile.renewalMode) requestedExpiresAt)
  | profile, scope =>
    some (buildChannelAction channel .deregister (scope.getD (buildChannelScope channel))
      (profile.map (·.renewalMode)) now)

def planCalendarAction (now : ℤ) (calendar : EligibleSourceCalendar) (hasLiveChannel : Bool) :
    Option PushChannelAction :=
  match resolveCalendarPlanDecision calendar hasLiveChannel with
  | .skip _ => none
  | .register profile scope =>
    some {
      channel := none
      previousProviderChannelId := none
      previousProviderResourceId := none
      provider := calendar.provider
      renewalMode := some profile.renewalMode
      requestedExpiresAt := resolveRequestedExpiresAt getDeterministicRefreshOffset
        (calendar.provider ++ ":" ++ calendar.calendarId) profile.maxLifetimeMs now
      scope
      type := .register }

/-- `PlanPushChannelActionsInput`. -/
structure PlanInput where
  calendars : List EligibleSourceCalendar
  channels : List StoredPushChannel
  now : ℤ
  webhookPublicUrl : Option String

namespace PlanInput

variable (input : PlanInput)

/-- `calendarsById.get(channel.calendarId ?? "")`. -/
def calendarOf (channel : StoredPushChannel) : Option EligibleSourceCalendar :=
  (JsMap.ofList (input.calendars.map fun calendar => (calendar.calendarId, calendar))).get?
    (channel.calendarId.getD "")

def liveChannels : List StoredPushChannel := input.channels.filter (·.isLive)

def planPushChannelActions : List PushChannelAction :=
  if (truthy input.webhookPublicUrl).isNone then []
  else
    (input.liveChannels.filterMap fun channel =>
      planStoredChannelAction getDeterministicRefreshOffset channel (input.calendarOf channel) input.now) ++
    input.calendars.filterMap fun calendar =>
      planCalendarAction getDeterministicRefreshOffset input.now calendar
        (input.liveChannels.any fun channel => channel.calendarId = some calendar.calendarId)

end PlanInput

/-! ## Which channels are acted on -/

/-- A channel needs an action: no calendar of the sweep can be registered for it, its registration is retried,
or its renewal is due. -/
def needsAction (channel : StoredPushChannel) (calendar : Option EligibleSourceCalendar) (now : ℤ) : Bool :=
  match resolvePushProviderProfile channel.provider, buildEligibleCalendarScope calendar with
  | some profile, some _ =>
    if isRegistrationRetryable channel then isRegistrationRetryDue channel now
    else isRenewalDue channel profile.maxLifetimeMs now
  | _, _ => true

variable {getDeterministicRefreshOffset}

theorem isSome_planStoredChannelAction {channel : StoredPushChannel}
    {calendar : Option EligibleSourceCalendar} {now : ℤ} :
    (planStoredChannelAction getDeterministicRefreshOffset channel calendar now).isSome =
      needsAction channel calendar now := by
  unfold planStoredChannelAction needsAction
  cases resolvePushProviderProfile channel.provider with
  | none => rfl
  | some profile =>
    cases buildEligibleCalendarScope calendar with
    | none => rfl
    | some scope =>
      dsimp only
      cases isRegistrationRetryable channel with
      | true => cases isRegistrationRetryDue channel now <;> rfl
      | false => cases isRenewalDue channel profile.maxLifetimeMs now <;> rfl

theorem planStoredChannelAction_spec {channel : StoredPushChannel}
    {calendar : Option EligibleSourceCalendar} {now : ℤ} {action : PushChannelAction}
    (h : planStoredChannelAction getDeterministicRefreshOffset channel calendar now = some action) :
    action.channel = some channel ∧
      (action.scope = buildChannelScope channel ∨ buildEligibleCalendarScope calendar = some action.scope) ∧
      (action.type = .deregister ↔ resolvePushProviderProfile channel.provider = none ∨
        buildEligibleCalendarScope calendar = none) ∧
      (action.type = .register → isRegistrationRetryable channel = true ∧
        isRegistrationRetryDue channel now = true) ∧
      (action.type = .renew → isRegistrationRetryable channel = false ∧
        ∃ profile, resolvePushProviderProfile channel.provider = some profile ∧
          isRenewalDue channel profile.maxLifetimeMs now = true) ∧
      action.provider = channel.provider := by
  unfold planStoredChannelAction at h
  cases hprofile : resolvePushProviderProfile channel.provider with
  | none =>
    rw [hprofile] at h
    obtain rfl := Option.some.inj h
    refine ⟨rfl, ?_, by simp [buildChannelAction], nofun, nofun, rfl⟩
    cases hscope : buildEligibleCalendarScope calendar with
    | none => exact Or.inl rfl
    | some scope => exact Or.inr rfl
  | some profile =>
    cases hscope : buildEligibleCalendarScope calendar with
    | none =>
      rw [hprofile, hscope] at h
      obtain rfl := Option.some.inj h
      exact ⟨rfl, Or.inl rfl, by simp [buildChannelAction], nofun, nofun, rfl⟩
    | some scope =>
      rw [hprofile, hscope] at h
      dsimp only at h
      split_ifs at h with hretryable hdue hrenewal
      · obtain rfl := Option.some.inj h
        exact ⟨rfl, Or.inr rfl, by simp [buildChannelAction], fun _ => ⟨hretryable, by simpa using hdue⟩, nofun,
          rfl⟩
      · obtain rfl := Option.some.inj h
        exact ⟨rfl, Or.inr rfl, by simp [buildChannelAction], nofun,
          fun _ => ⟨by simpa using hretryable, profile, rfl, by simpa using hrenewal⟩, rfl⟩

end Plan

end Push

end Keeper
