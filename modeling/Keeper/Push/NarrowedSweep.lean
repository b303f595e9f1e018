import Keeper.Push.Plan

/-!
# Sweeps narrowed to an account

`runManagePushChannels` (`core/source/manage-push-channels.ts`) with the dependencies that
`createManagePushChannelsDependencies` builds: the calendars of a sweep are read for one account where it is
narrowed to one, the channels are read for all. What an action meets when it runs (whether its lock is granted,
the rows by then, the time) is a parameter, so that actions may run at any time and in any order.

* `calendarOf_eq_some_iff`: the calendar that a channel is joined with.
* `leavesOthersAlone_iff`: when a sweep leaves other accounts and eligible calendars alone.
* `not_leavesOthersAlone`: connecting an account deregisters the channel of another.
-/

namespace Keeper

namespace Push

/-! ## The database -/

/-- A row of `calendars`, as far as it is selected. -/
structure CalendarRow where
  id : String
  accountId : String
  userId : String
  capabilities : List String
  disabled : Bool
  externalCalendarId : Option String
  providerMissingSince : Option ℤ
  unavailableSince : Option ℤ
  deriving DecidableEq

/-- A row of `calendar_accounts`, as far as it is selected. -/
structure CalendarAccountRow where
  id : String
  accountId : Option String
  needsReauthentication : Bool
  provider : String
  deriving DecidableEq

/-- The tables that a sweep reads, with their primary keys. -/
structure PushDatabase where
  calendars : List CalendarRow
  accounts : List CalendarAccountRow
  table : ChannelTable
  nodup_calendars : (calendars.map (·.id)).Nodup
  nodup_accounts : (accounts.map (·.id)).Nodup

/-- `shared`, of `eligibleCalendarScope`. -/
def isShared (calendar : CalendarRow) (account : CalendarAccountRow) : Bool :=
  calendar.capabilities.contains "pull" && !calendar.disabled && calendar.providerMissingSince.isNone &&
    calendar.unavailableSince.isNone && ["google", "outlook"].contains account.provider

/-- The columns of `selectEligibleCalendars`. -/
def eligibleRow (calendar : CalendarRow) (account : CalendarAccountRow) : EligibleSourceCalendar where
  accountId := account.id
  calendarId := calendar.id
  capabilities := calendar.capabilities
  disabled := calendar.disabled
  externalCalendarId := calendar.externalCalendarId
  needsReauthentication := account.needsReauthentication
  provider := account.provider
  providerAccountId := account.accountId
  userId := calendar.userId

def eligibleCalendarScope (onlyAccountId : Option String) (calendar : CalendarRow)
    (account : CalendarAccountRow) : Bool :=
  isShared calendar account && (truthy onlyAccountId).all (account.id = ·)

namespace PushDatabase

variable (db : PushDatabase)

def selectEligibleCalendars (onlyAccountId : Option String) : List EligibleSourceCalendar :=
  db.calendars.flatMap fun calendar =>
    (db.accounts.filter fun account =>
      calendar.accountId = account.id && eligibleCalendarScope onlyAccountId calendar account).map
      (eligibleRow calendar)

def selectChannels : List StoredPushChannel := db.table.channels.filter (·.isLive)

end PushDatabase

/-! ## Actions -/

structure ActionRun where
  lockGranted : Bool
  table : ChannelTable
  now : ℤ

/-- An action that is performed, with the registrar and the row that it was given. -/
inductive PerformedAction
  | deregister (action : PushChannelAction) (registrar : Option PushProviderProfile)
      (channel : StoredPushChannel)
  | renew (action : PushChannelAction) (registrar : PushProviderProfile) (channel : StoredPushChannel)
  | register (action : PushChannelAction) (registrar : PushProviderProfile)
      (channel : Option StoredPushChannel)

def PerformedAction.action : PerformedAction → PushChannelAction
  | .deregister action _ _ => action
  | .renew action _ _ => action
  | .register action _ _ => action

def readCurrentChannel (action : PushChannelAction) (table : ChannelTable) : Option StoredPushChannel :=
  match action.channel with
  | none => none
  | some channel => table.channels.find? (·.id = channel.id)

def shouldRetainPushChannelAction (action : PushChannelAction) (channel : Option StoredPushChannel) (now : ℤ) :
    Bool :=
  if action.channel.isNone then true
  else
    match channel with
    | none => false
    | some channel =>
      match action.type with
      | .deregister => channel.isLive
      | .register => isRegistrationRetryable channel && isRegistrationRetryDue channel now
      | .renew =>
        match resolvePushProviderProfile channel.provider with
        | none => false
        | some profile =>
          if channel.state ≠ .active ∧ channel.state ≠ .degraded then false
          else isRenewalDue channel profile.maxLifetimeMs now

/-- `runAction`: what is performed, if anything. -/
def runAction (action : PushChannelAction) (run : ActionRun) : Option PerformedAction :=
  if !run.lockGranted then none
  else
    let current := readCurrentChannel action run.table
    if !shouldRetainPushChannelAction action current run.now then none
    else
      match action.type, current, resolvePushProviderProfile action.provider with
      | .deregister, some channel, registrar => some (.deregister action registrar channel)
      | .deregister, none, _ => none
      | .renew, some channel, some registrar => some (.renew action registrar channel)
      | .register, current, some registrar => some (.register action registrar current)
      | _, _, _ => none

def pushActionsPerTick : ℕ := 100

structure Sweep where
  db : PushDatabase
  onlyAccountId : Option String := none
  now : ℤ
  webhookPublicUrl : Option String
  getDeterministicRefreshOffset : String → ℕ

namespace Sweep

variable (sweep : Sweep)

def input : PlanInput where
  calendars := sweep.db.selectEligibleCalendars sweep.onlyAccountId
  channels := sweep.db.selectChannels
  now := sweep.now
  webhookPublicUrl := sweep.webhookPublicUrl

/-- The actions that `runManagePushChannels` runs. -/
def actions : List PushChannelAction :=
  (sweep.input.planPushChannelActions sweep.getDeterministicRefreshOffset).take pushActionsPerTick

/-- What is performed of them, given what each meets. -/
def performed (runs : ℕ → ActionRun) : List PerformedAction :=
  sweep.actions.zipIdx.filterMap fun item => runAction item.1 (runs item.2)

def IsEligible (calendar : CalendarRow) (account : CalendarAccountRow) : Prop :=
  calendar ∈ sweep.db.calendars ∧ account ∈ sweep.db.accounts ∧ calendar.accountId = account.id ∧
    isShared calendar account = true ∧ account.needsReauthentication = false

/-- **A sweep leaves others alone**: what it performs, whatever its actions meet, concerns the account that it is
narrowed to, and no live channel of a calendar that is eligible is deregistered. -/
structure LeavesOthersAlone : Prop where
  narrowed : ∀ runs, ∀ performed ∈ sweep.performed runs, ∀ accountId,
    truthy sweep.onlyAccountId = some accountId → performed.action.scope.accountId = accountId ∧
      ∀ channel, performed.action.channel = some channel → channel.accountId = accountId
  kept : ∀ runs, ∀ performed ∈ sweep.performed runs, performed.action.type = .deregister →
    ∀ channel, performed.action.channel = some channel →
      ∀ calendar account, sweep.IsEligible calendar account → channel.calendarId ≠ some calendar.id

/-- The channels that are acted on: the first hundred that need an action. -/
def sweptChannels : List StoredPushChannel :=
  if (truthy sweep.webhookPublicUrl).isNone then []
  else
    (sweep.db.selectChannels.filter fun channel =>
      needsAction channel (sweep.input.calendarOf channel) sweep.now).take pushActionsPerTick

/-- What a registration takes, beside a calendar that is eligible. -/
structure CanRegister (channel : StoredPushChannel) (calendar : CalendarRow) (account : CalendarAccountRow) :
    Prop where
  supported : (resolvePushProviderProfile channel.provider).isSome = true
  external : calendar.externalCalendarId.isSome = true
  identified : account.provider = "outlook" → account.accountId.isSome = true

/-- **The sweep keeps to its own**: the channels that are acted on are those of the account that it is narrowed
to, and a calendar that is eligible can be registered. -/
def KeepsToItsOwn : Prop :=
  ∀ channel ∈ sweep.sweptChannels,
    (∀ accountId, truthy sweep.onlyAccountId = some accountId → channel.accountId = accountId) ∧
    ∀ calendar account, sweep.IsEligible calendar account → channel.calendarId = some calendar.id →
      (∀ accountId, truthy sweep.onlyAccountId = some accountId → account.id = accountId) ∧
        CanRegister channel calendar account

end Sweep

/-! ## The join -/

section Join

variable {db : PushDatabase} {sweep : Sweep}

variable {row : EligibleSourceCalendar}

theorem mem_selectEligibleCalendars {onlyAccountId : Option String} : row ∈ db.selectEligibleCalendars onlyAccountId ↔
      ∃ calendar ∈ db.calendars, ∃ account ∈ db.accounts, calendar.accountId = account.id ∧
        eligibleCalendarScope onlyAccountId calendar account = true ∧ eligibleRow calendar account = row := by
  simp only [PushDatabase.selectEligibleCalendars, List.mem_flatMap, List.mem_map, List.mem_filter,
    Bool.and_eq_true, decide_eq_true_eq, and_assoc]

theorem eq_of_calendarId_eq {onlyAccountId : Option String} {row' : EligibleSourceCalendar}
    (h : row ∈ db.selectEligibleCalendars onlyAccountId) (h' : row' ∈ db.selectEligibleCalendars onlyAccountId)
    (hid : row.calendarId = row'.calendarId) : row = row' := by
  obtain ⟨calendar, hcalendar, account, haccount, hjoin, -, rfl⟩ := mem_selectEligibleCalendars.1 h
  obtain ⟨calendar', hcalendar', account', haccount', hjoin', -, rfl⟩ := mem_selectEligibleCalendars.1 h'
  obtain rfl := List.inj_on_of_nodup_map db.nodup_calendars hcalendar hcalendar' hid
  obtain rfl := List.inj_on_of_nodup_map db.nodup_accounts haccount haccount' (hjoin.symm.trans hjoin')
  rfl

/-- **The calendar that a channel is joined with.** -/
theorem calendarOf_eq_some_iff {channel : StoredPushChannel} : sweep.input.calendarOf channel = some row ↔
      row ∈ sweep.db.selectEligibleCalendars sweep.onlyAccountId ∧
        row.calendarId = channel.calendarId.getD "" := by
  unfold PlanInput.calendarOf
  have hfound : ∀ {found}, (JsMap.ofList (sweep.input.calendars.map fun calendar =>
      (calendar.calendarId, calendar))).get? (channel.calendarId.getD "") = some found →
      found ∈ sweep.db.selectEligibleCalendars sweep.onlyAccountId ∧
        found.calendarId = channel.calendarId.getD "" := by
    intro found h
    obtain ⟨calendar, hmem, heq⟩ := List.mem_map.1 (JsMap.get?_ofList_some h)
    obtain ⟨hid, rfl⟩ := Prod.mk.inj heq
    exact ⟨hmem, hid⟩
  refine ⟨hfound, ?_⟩
  rintro ⟨hmem, hid⟩
  have hkey : channel.calendarId.getD "" ∈ (JsMap.ofList (sweep.input.calendars.map fun calendar =>
      (calendar.calendarId, calendar))).keys := by
    rw [JsMap.mem_keys_ofList, List.map_map]
    exact List.mem_map.2 ⟨row, hmem, hid⟩
  obtain ⟨found, hget⟩ := JsMap.mem_keys_iff.1 hkey
  obtain ⟨hmem', hid'⟩ := hfound hget
  rw [hget, eq_of_calendarId_eq hmem' hmem (hid'.trans hid.symm)]

theorem account_of_selected {accountId : String} (h : row ∈ sweep.db.selectEligibleCalendars sweep.onlyAccountId)
    (honly : truthy sweep.onlyAccountId = some accountId) : row.accountId = accountId := by
  obtain ⟨calendar, -, account, -, -, hscope, rfl⟩ := mem_selectEligibleCalendars.1 h
  unfold eligibleCalendarScope at hscope
  rw [honly] at hscope
  exact of_decide_eq_true (Bool.and_eq_true_iff.1 hscope).2

theorem resolvePushProviderProfile_of_isShared {calendar : CalendarRow} {account : CalendarAccountRow}
    (h : isShared calendar account = true) : ∃ profile,
      resolvePushProviderProfile account.provider = some profile ∧
        (profile.requiresProviderAccountId = true ↔ account.provider = "outlook") := by
  unfold isShared at h
  have hprovider := (Bool.and_eq_true_iff.1 h).2
  rw [List.contains_iff_mem, List.mem_cons, List.mem_singleton] at hprovider
  rcases hprovider with hgoogle | houtlook
  · rw [hgoogle]
    exact ⟨googlePushProfile, rfl, by decide⟩
  · rw [houtlook]
    exact ⟨outlookPushProfile, rfl, by decide⟩

/-- A calendar that is eligible has a scope in the sweep exactly if the sweep selects it and it can be
registered. -/
theorem buildEligibleCalendarScope_isSome_iff {channel : StoredPushChannel} {calendar : CalendarRow}
    {account : CalendarAccountRow} (heligible : sweep.IsEligible calendar account)
    (hchannel : channel.calendarId = some calendar.id) :
    (buildEligibleCalendarScope (sweep.input.calendarOf channel)).isSome = true ↔
      (∀ accountId, truthy sweep.onlyAccountId = some accountId → account.id = accountId) ∧
        calendar.externalCalendarId.isSome = true ∧
        (account.provider = "outlook" → account.accountId.isSome = true) := by
  obtain ⟨hcalendar, haccount, hjoin, hshared, hauthenticated⟩ := heligible
  obtain ⟨profile, hprofile, hrequires⟩ := resolvePushProviderProfile_of_isShared hshared
  have hkey : channel.calendarId.getD "" = calendar.id := by rw [hchannel, Option.getD_some]
  by_cases hselected : ∀ accountId, truthy sweep.onlyAccountId = some accountId → account.id = accountId
  · have hscope : eligibleCalendarScope sweep.onlyAccountId calendar account = true := by
      unfold eligibleCalendarScope
      rw [hshared, Bool.true_and]
      cases honly : truthy sweep.onlyAccountId with
      | none => rfl
      | some accountId => simpa using hselected accountId honly
    have hfound : sweep.input.calendarOf channel = some (eligibleRow calendar account) :=
      calendarOf_eq_some_iff.2 ⟨mem_selectEligibleCalendars.2
        ⟨calendar, hcalendar, account, haccount, hjoin, hscope, rfl⟩, hkey.symm⟩
    have hpull : isPullCalendar (eligibleRow calendar account) = true := by
      simp only [isShared, Bool.and_eq_true] at hshared
      simp only [isPullCalendar, eligibleRow, Bool.and_eq_true]
      exact ⟨hshared.1.1.1.2, hshared.1.1.1.1⟩
    have hregistrable : isRegistrationEligible (eligibleRow calendar account) =
        if profile.requiresProviderAccountId && account.accountId.isNone then false
        else calendar.externalCalendarId.isSome := by
      unfold isRegistrationEligible
      have hrow : resolvePushProviderProfile (eligibleRow calendar account).provider = some profile := hprofile
      have hneeds : (eligibleRow calendar account).needsReauthentication = false := hauthenticated
      rw [hrow, hpull, hneeds]
      rfl
    rw [hfound]
    unfold buildEligibleCalendarScope buildCalendarScope
    dsimp only
    rw [hregistrable]
    refine Iff.trans ?_ (and_iff_right hselected).symm
    rw [← hrequires]
    dsimp only [eligibleRow]
    cases profile.requiresProviderAccountId <;> cases account.accountId <;>
      cases calendar.externalCalendarId <;> simp
  · -- The sweep is narrowed to another account.
    refine iff_of_false ?_ fun h => hselected h.1
    cases hfound : sweep.input.calendarOf channel with
    | none => simp [buildEligibleCalendarScope]
    | some row =>
      refine absurd ?_ hselected
      intro accountId honly
      obtain ⟨hmem, hid⟩ := calendarOf_eq_some_iff.1 hfound
      have hother := account_of_selected hmem honly
      obtain ⟨calendar', hcalendar', account', haccount', hjoin', -, rfl⟩ :=
        mem_selectEligibleCalendars.1 hmem
      obtain rfl := List.inj_on_of_nodup_map sweep.db.nodup_calendars hcalendar' hcalendar (hid.trans hkey)
      exact hjoin.symm.trans (hjoin'.trans hother)

end Join

/-! ## What is performed -/

section Performed

variable {sweep : Sweep}

theorem mem_take_filterMap {α β : Type} {f : α → Option β} {l : List α} {n : ℕ} {b : β} :
    b ∈ (l.filterMap f).take n ↔ ∃ a ∈ (l.filter fun a => (f a).isSome).take n, f a = some b := by
  induction l generalizing n with
  | nil => simp
  | cons a l ih =>
    cases hf : f a with
    | none =>
      rw [List.filterMap_cons_none hf, List.filter_cons_of_neg (by simp [hf])]
      exact ih
    | some b' =>
      rw [List.filterMap_cons_some hf, List.filter_cons_of_pos (by simp [hf])]
      cases n with
      | zero => simp
      | succ n =>
        rw [List.take_succ_cons, List.take_succ_cons, List.mem_cons, ih]
        simp only [List.mem_cons, exists_eq_or_imp, hf, Option.some.injEq]
        exact or_congr_left eq_comm

variable {action : PushChannelAction} {channel : StoredPushChannel} {row : EligibleSourceCalendar}

/-- An action of a sweep is one for a channel that is acted on, or for a calendar without a channel. -/
theorem mem_actions_cases (h : action ∈ sweep.actions) :
    (∃ channel ∈ sweep.sweptChannels, planStoredChannelAction sweep.getDeterministicRefreshOffset channel
        (sweep.input.calendarOf channel) sweep.now = some action) ∨
      ∃ row ∈ sweep.db.selectEligibleCalendars sweep.onlyAccountId, ∃ hasLiveChannel,
        planCalendarAction sweep.getDeterministicRefreshOffset sweep.now row hasLiveChannel = some action := by
  unfold Sweep.actions PlanInput.planPushChannelActions at h
  unfold Sweep.sweptChannels
  have hurl : sweep.input.webhookPublicUrl = sweep.webhookPublicUrl := rfl
  rw [hurl] at h
  split_ifs at h ⊢ with hnone
  · cases h
  · rw [List.take_append] at h
    rcases List.mem_append.1 h with hstored | hcalendar
    · refine Or.inl ?_
      obtain ⟨channel, hmem, hplan⟩ := mem_take_filterMap.1 hstored
      have hlive : sweep.input.liveChannels = sweep.db.selectChannels :=
        List.filter_eq_self.2 fun channel hchannel => (List.mem_filter.1 hchannel).2
      simp only [isSome_planStoredChannelAction, hlive] at hmem
      exact ⟨channel, hmem, hplan⟩
    · obtain ⟨row, hrow, hplan⟩ := List.mem_filterMap.1 (List.mem_of_mem_take hcalendar)
      exact Or.inr ⟨row, hrow, _, hplan⟩

theorem exists_action_of_swept (h : channel ∈ sweep.sweptChannels) :
    ∃ action ∈ sweep.actions, planStoredChannelAction sweep.getDeterministicRefreshOffset channel
      (sweep.input.calendarOf channel) sweep.now = some action := by
  unfold Sweep.sweptChannels at h
  unfold Sweep.actions PlanInput.planPushChannelActions
  have hurl : sweep.input.webhookPublicUrl = sweep.webhookPublicUrl := rfl
  rw [hurl]
  split_ifs at h ⊢ with hnone
  · cases h
  · have hlive : sweep.input.liveChannels = sweep.db.selectChannels :=
      List.filter_eq_self.2 fun channel hchannel => (List.mem_filter.1 hchannel).2
    have hsome := (List.mem_filter.1 (List.mem_of_mem_take h)).2
    rw [← @isSome_planStoredChannelAction sweep.getDeterministicRefreshOffset] at hsome
    obtain ⟨action, haction⟩ := Option.isSome_iff_exists.1 hsome
    refine ⟨action, ?_, haction⟩
    rw [List.take_append]
    refine List.mem_append_left _ (mem_take_filterMap.2 ⟨channel, ?_, haction⟩)
    simp only [isSome_planStoredChannelAction, hlive]
    exact h

theorem accountId_of_buildCalendarScope {scope : PushChannelScope} (h : buildCalendarScope row = some scope) :
    scope.accountId = row.accountId := by
  obtain ⟨externalCalendarId, -, rfl⟩ := Option.map_eq_some_iff.1 h
  rfl

theorem buildCalendarScope_of_register {hasLiveChannel : Bool} {profile : PushProviderProfile}
    {scope : PushChannelScope} (h : resolveCalendarPlanDecision row hasLiveChannel = .register profile scope) :
    buildCalendarScope row = some scope := by
  unfold resolveCalendarPlanDecision at h
  split_ifs at h with hchannel hpull hneeds hexternal
  · split at h <;> cases h
  · split at h
    · cases h
    · split_ifs at h with haccount
      split at h
      · cases h
      · rename_i hscope
        cases h
        exact hscope

/-- The scope of an action for a calendar is of its account, and the action is no deregistration. -/
theorem planCalendarAction_spec {offset : String → ℕ} {now : ℤ} {hasLiveChannel : Bool}
    (h : planCalendarAction offset now row hasLiveChannel = some action) :
    action.channel = none ∧ action.scope.accountId = row.accountId ∧ action.type = .register := by
  unfold planCalendarAction at h
  cases hdecision : resolveCalendarPlanDecision row hasLiveChannel with
  | skip reason =>
    rw [hdecision] at h
    cases h
  | register profile scope =>
    rw [hdecision] at h
    obtain rfl := Option.some.inj h
    exact ⟨rfl, accountId_of_buildCalendarScope (buildCalendarScope_of_register hdecision), rfl⟩

theorem action_of_runAction {run : ActionRun} {performed : PerformedAction}
    (h : runAction action run = some performed) : performed.action = action := by
  unfold runAction at h
  split_ifs at h
  dsimp only at h
  split_ifs at h
  split at h
  all_goals first
    | (obtain rfl := Option.some.inj h; rfl)
    | cases h

theorem mem_actions_of_performed {runs : ℕ → ActionRun} {performed : PerformedAction}
    (h : performed ∈ sweep.performed runs) : performed.action ∈ sweep.actions := by
  obtain ⟨⟨action, n⟩, hmem, hrun⟩ := List.mem_filterMap.1 h
  rw [action_of_runAction hrun]
  exact (List.mem_zipIdx' hmem).2 ▸ List.getElem_mem _

/-- Where its lock is granted and nothing has changed, an action for a channel is performed. -/
theorem exists_runAction (hmem : channel ∈ sweep.db.selectChannels)
    (h : planStoredChannelAction sweep.getDeterministicRefreshOffset channel (sweep.input.calendarOf channel) sweep.now = some action) :
    ∃ performed, runAction action ⟨true, sweep.db.table, sweep.now⟩ = some performed := by
  obtain ⟨hchannel, -, hderegister, hregister, hrenew, hprovider⟩ := planStoredChannelAction_spec h
  obtain ⟨hstored, hlive⟩ := List.mem_filter.1 hmem
  have hcurrent : readCurrentChannel action sweep.db.table = some channel := by
    unfold readCurrentChannel
    rw [hchannel]
    dsimp only
    cases hfind : sweep.db.table.channels.find? (·.id = channel.id) with
    | none => simpa using List.find?_eq_none.1 hfind channel hstored
    | some found =>
      have hid : found.id = channel.id := by simpa using List.find?_some hfind
      rw [sweep.db.table.eq_of_id_eq (List.mem_of_find?_eq_some hfind) hstored hid]
  unfold runAction
  simp only [Bool.not_true, Bool.false_eq_true, if_false, hcurrent, hprovider]
  have hretained : shouldRetainPushChannelAction action (some channel) sweep.now = true := by
    unfold shouldRetainPushChannelAction
    rw [hchannel]
    cases htype : action.type with
    | deregister => exact hlive
    | register =>
      obtain ⟨hretryable, hdue⟩ := hregister htype
      change (isRegistrationRetryable channel && isRegistrationRetryDue channel sweep.now) = true
      rw [hretryable, hdue]
      rfl
    | renew =>
      obtain ⟨hretryable, profile, hprofile, hdue⟩ := hrenew htype
      change (match resolvePushProviderProfile channel.provider with
        | none => false
        | some profile => if channel.state ≠ .active ∧ channel.state ≠ .degraded then false
          else isRenewalDue channel profile.maxLifetimeMs sweep.now) = true
      rw [hprofile]
      dsimp only
      rw [if_neg ?_, hdue]
      rintro ⟨hactive, hdegraded⟩
      unfold isRegistrationRetryable at hretryable
      have hregistering := of_decide_eq_false (Bool.or_eq_false_iff.1 hretryable).1
      unfold StoredPushChannel.isLive livePushChannelStates at hlive
      simp [hactive, hdegraded, hregistering] at hlive
  rw [hretained]
  simp only [Bool.not_true, Bool.false_eq_true, if_false]
  cases htype : action.type with
  | deregister => exact ⟨_, rfl⟩
  | register =>
    cases hprofile : resolvePushProviderProfile channel.provider with
    | none => exact absurd (hderegister.2 (Or.inl hprofile)) (by rw [htype]; nofun)
    | some profile => exact ⟨_, rfl⟩
  | renew =>
    cases hprofile : resolvePushProviderProfile channel.provider with
    | none => exact absurd (hderegister.2 (Or.inl hprofile)) (by rw [htype]; nofun)
    | some profile => exact ⟨_, rfl⟩

theorem exists_performed_of_swept (h : channel ∈ sweep.sweptChannels) :
    ∃ action, planStoredChannelAction sweep.getDeterministicRefreshOffset channel
        (sweep.input.calendarOf channel) sweep.now = some action ∧
      ∃ performed ∈ sweep.performed fun _ => ⟨true, sweep.db.table, sweep.now⟩,
        performed.action = action := by
  obtain ⟨action, hmem, hplan⟩ := exists_action_of_swept h
  have hselected : channel ∈ sweep.db.selectChannels := by
    unfold Sweep.sweptChannels at h
    split_ifs at h
    · cases h
    · exact (List.mem_filter.1 (List.mem_of_mem_take h)).1
  obtain ⟨performed, hrun⟩ := exists_runAction hselected hplan
  obtain ⟨n, hlt, hget⟩ := List.mem_iff_getElem.1 hmem
  refine ⟨action, hplan, performed, List.mem_filterMap.2 ⟨(action, n), ?_, hrun⟩, action_of_runAction hrun⟩
  exact List.mem_zipIdx_iff_getElem?.2 (List.getElem?_eq_some_iff.2 ⟨hlt, hget⟩)

/-- **When a sweep leaves others alone.** The channels are read of every account, and one whose calendar the
sweep has not selected is taken to be abandoned. -/
theorem leavesOthersAlone_iff (sweep : Sweep) : sweep.LeavesOthersAlone ↔ sweep.KeepsToItsOwn := by
  constructor
  · intro h channel hswept
    obtain ⟨action, hplan, performed, hperformed, rfl⟩ := exists_performed_of_swept hswept
    obtain ⟨hchannel, -, hderegister, -⟩ := planStoredChannelAction_spec hplan
    refine ⟨fun accountId honly => (h.narrowed _ performed hperformed accountId honly).2 channel hchannel, ?_⟩
    intro calendar account heligible hcalendar
    have hkept : performed.action.type ≠ .deregister := fun htype =>
      h.kept _ performed hperformed htype channel hchannel calendar account heligible hcalendar
    obtain ⟨hsupported, hscope⟩ := not_or.1 (mt hderegister.2 hkept)
    obtain ⟨hselected, hexternal, hidentified⟩ :=
      (buildEligibleCalendarScope_isSome_iff heligible hcalendar).1 (Option.isSome_iff_ne_none.2 hscope)
    exact ⟨hselected, Option.isSome_iff_ne_none.2 hsupported, hexternal, hidentified⟩
  · intro h
    constructor
    · intro runs performed hperformed accountId honly
      rcases mem_actions_cases (mem_actions_of_performed hperformed) with
        ⟨channel, hswept, hplan⟩ | ⟨row, hrow, hasLiveChannel, hplan⟩
      · obtain ⟨hchannel, hscope, -⟩ := planStoredChannelAction_spec hplan
        have haccount := (h channel hswept).1 accountId honly
        constructor
        · rcases hscope with hscope | hscope
          · rw [hscope]
            exact haccount
          · unfold buildEligibleCalendarScope at hscope
            cases hfound : sweep.input.calendarOf channel with
            | none =>
              rw [hfound] at hscope
              cases hscope
            | some row =>
              rw [hfound] at hscope
              dsimp only at hscope
              split_ifs at hscope
              rw [accountId_of_buildCalendarScope hscope]
              exact account_of_selected (calendarOf_eq_some_iff.1 hfound).1 honly
        · intro channel' hchannel'
          obtain rfl := Option.some.inj (hchannel.symm.trans hchannel')
          exact haccount
      · obtain ⟨hnone, hscope, -⟩ := planCalendarAction_spec hplan
        refine ⟨hscope.trans (account_of_selected hrow honly), fun channel hchannel => ?_⟩
        rw [hnone] at hchannel
        cases hchannel
    · intro runs performed hperformed htype channel hchannel calendar account heligible hcalendar
      rcases mem_actions_cases (mem_actions_of_performed hperformed) with
        ⟨channel', hswept, hplan⟩ | ⟨row, hrow, hasLiveChannel, hplan⟩
      · obtain ⟨hchannel', -, hderegister, -⟩ := planStoredChannelAction_spec hplan
        obtain rfl := Option.some.inj (hchannel'.symm.trans hchannel)
        obtain ⟨hselected, hregisters⟩ := (h channel' hswept).2 calendar account heligible hcalendar
        have hscope := (buildEligibleCalendarScope_isSome_iff heligible hcalendar).2
          ⟨hselected, hregisters.external, hregisters.identified⟩
        rcases hderegister.1 htype with hnone | hnone
        · have hsupported := hregisters.supported
          rw [hnone] at hsupported
          cases hsupported
        · rw [hnone] at hscope
          cases hscope
      · obtain ⟨-, -, hregister⟩ := planCalendarAction_spec hplan
        rw [hregister] at htype
        cases htype

end Performed

/-! ## Connecting an account -/

def watchedCalendar (accountId : String) : CalendarRow where
  id := "calendar of " ++ accountId
  accountId
  userId := "user"
  capabilities := ["pull"]
  disabled := false
  externalCalendarId := some "primary"
  providerMissingSince := none
  unavailableSince := none

def connectedAccount (id : String) : CalendarAccountRow where
  id
  accountId := some "subject"
  needsReauthentication := false
  provider := "google"

def activeChannel (accountId : String) : StoredPushChannel where
  accountId
  calendarId := some (watchedCalendar accountId).id
  expiresAt := some 604800000
  id := "channel of " ++ accountId
  provider := "google"
  providerChannelId := some "watch"
  state := .active
  userId := "user"

/-- An account is connected beside another whose calendar is watched. -/
def connectingSweep : Sweep where
  db :=
    { calendars := [watchedCalendar "old", watchedCalendar "new"]
      accounts := [connectedAccount "old", connectedAccount "new"]
      table := ⟨[activeChannel "old"], by decide⟩
      nodup_calendars := by decide
      nodup_accounts := by decide }
  onlyAccountId := some "new"
  now := 0
  webhookPublicUrl := some "https://keeper.example"
  getDeterministicRefreshOffset _ := 0

def deregisterOther : PushChannelAction :=
  buildChannelAction (activeChannel "old") .deregister (buildChannelScope (activeChannel "old"))
    (some .recreate) 0

/-- The channel of the other account is deregistered. -/
theorem not_leavesOthersAlone : ¬ connectingSweep.LeavesOthersAlone := by
  intro h
  have hperformed : .deregister deregisterOther (some googlePushProfile) (activeChannel "old") ∈
      connectingSweep.performed fun _ => ⟨true, connectingSweep.db.table, 0⟩ :=
    List.mem_filterMap.2 ⟨(deregisterOther, 0), by decide, rfl⟩
  have heligible : connectingSweep.IsEligible (watchedCalendar "old") (connectedAccount "old") :=
    ⟨by decide, by decide, by decide, by decide, rfl⟩
  exact h.kept _ _ hperformed rfl (activeChannel "old") rfl _ _ heligible rfl

end Push

end Keeper
