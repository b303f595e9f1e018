import Keeper.Push.Deliveries
import Mathlib.Data.List.Basic

/-!
# Claims that are rejected

A claim of a delivery is rejected where its key is not usable, is remembered as unknown or names no channel,
or where its secret or its resource is another one. Which claims are rejected is settled by the store as the
delivery finds it: what the accepted claims change are columns of their own channels, and the lookup of a
channel is shared before.

* `resolveClaimChannel_eq`: the channel of a claim is the one that the store had when the delivery came.
* `respects_acceptClaim`: an accepted claim does not tell apart states that differ in shared lookups.
* `handlePushWebhook_withoutRejected`: rejected claims have no effect.
-/

namespace Keeper

namespace Push

open PushWorld

/-! ## Rejected claims -/

def PushStore.lookup (store : PushStore) (provider channelKey : String) : Option StoredPushChannel :=
  if store.unknownChannels.contains (provider, channelKey) then none
  else store.table.findByProviderChannel provider channelKey

section Model

variable (dependencies : PushWebhookDependencies PushWorld) (options : PushWebhookOptions)

def authenticate (store : PushStore) (claim : PushClaim) : Option StoredPushChannel :=
  if hasUsableChannelKey claim then
    (store.lookup options.provider claim.channelKey).filter fun channel =>
      (checkClaim dependencies options claim channel).isNone
  else none

def isRejected (store : PushStore) (claim : PushClaim) : Bool :=
  (authenticate dependencies options store claim).isNone

/-- `processClaim` of a claim with a channel. -/
def acceptClaim (claim : PushClaim) (channel : StoredPushChannel) :
    Effect PushError (ClaimState PushWorld) ClaimOutcome := do
  if ← claimFirst dependencies options claim then serveClaim dependencies claim channel
  else pure { duplicate := true }

end Model

theorem authenticate_eq_some_iff {dependencies : PushWebhookDependencies PushWorld}
    {options : PushWebhookOptions} {store : PushStore} {claim : PushClaim}
    {channel : StoredPushChannel} :
    authenticate dependencies options store claim = some channel ↔
      hasUsableChannelKey claim = true ∧
        store.lookup options.provider claim.channelKey = some channel ∧
          checkClaim dependencies options claim channel = none := by
  unfold authenticate
  split_ifs with husable
  · rw [Option.filter_eq_some_iff, Option.isNone_iff_eq_none]
    exact ⟨fun h => ⟨husable, h⟩, And.right⟩
  · simp only [husable, reduceCtorEq, false_and]

/-! ## The store of a delivery -/

/-- What the calls of a delivery leave of a row: its id, what a provider knows it by, and its scope. -/
structure RowKey where
  id : String
  provider : String
  providerChannelId : Option String
  calendarId : Option String
  accountId : String

def rowKey (channel : StoredPushChannel) : RowKey :=
  ⟨channel.id, channel.provider, channel.providerChannelId, channel.calendarId, channel.accountId⟩

/-- A delivery that found a store goes on from it: the rows are known by the same keys, the shared lookups
are those of that store, and so are the ones to come. -/
structure Follows (provider : String) (found store : PushStore)
    (lookups : JsMap String ChannelLookup) : Prop where
  rows : store.table.channels.map rowKey = found.table.channels.map rowKey
  shared : ∀ key lookup, lookups.get? key = some lookup →
    lookup.channel = found.lookup provider key ∧
      (lookup.channel = none → lookup.rejectReason.isSome = true)
  fresh : ∀ key, lookups.get? key = none → store.lookup provider key = found.lookup provider key

section Follows

variable {provider key : String} {found store : PushStore} {lookups : JsMap String ChannelLookup}

theorem Follows.refl (provider : String) (store : PushStore) :
    Follows provider store store JsMap.empty :=
  ⟨rfl, fun key lookup h => by simp at h, fun _ _ => rfl⟩

/-- What the store looks like beside the rows and the unknown keys is of no matter. -/
theorem Follows.of_table (h : Follows provider found store lookups) {store' : PushStore}
    (htable : store'.table = store.table) (hunknown : store'.unknownChannels = store.unknownChannels) :
    Follows provider found store' lookups := by
  refine ⟨by rw [htable]; exact h.rows, h.shared, fun key hkey => ?_⟩
  rw [← h.fresh key hkey, PushStore.lookup, PushStore.lookup, htable, hunknown]

/-- A lookup of the store is the one that the delivery would have made at once. -/
theorem Follows.share (h : Follows provider found store lookups) {lookup : ChannelLookup}
    (hkey : lookups.get? key = none) (hlookup : lookup.channel = store.lookup provider key)
    (hreason : lookup.channel = none → lookup.rejectReason.isSome = true) :
    Follows provider found store (lookups.set key lookup) := by
  refine ⟨h.rows, fun key' lookup' hget => ?_, fun key' hget => ?_⟩
  · by_cases hsame : key = key'
    · subst hsame
      rw [JsMap.get?_set_self] at hget
      obtain rfl := Option.some.inj hget
      exact ⟨hlookup.trans (h.fresh key hkey), hreason⟩
    · rw [JsMap.get?_set_of_ne _ _ hsame] at hget
      exact h.shared key' lookup' hget
  · by_cases hsame : key = key'
    · subst hsame
      rw [JsMap.get?_set_self] at hget
      cases hget
    · rw [JsMap.get?_set_of_ne _ _ hsame] at hget
      exact h.fresh key' hget

theorem Follows.remember (h : Follows provider found store lookups)
    (hknown : (lookups.get? key).isSome) : Follows provider found
      { store with unknownChannels := (provider, key) :: store.unknownChannels } lookups := by
  refine ⟨h.rows, h.shared, fun key' hget => ?_⟩
  rw [← h.fresh key' hget]
  have hne : key' ≠ key := by
    rintro rfl
    rw [hget] at hknown
    cases hknown
  unfold PushStore.lookup
  have hpair : ((provider, key') == (provider, key)) = false := by simp [hne]
  rw [List.contains_cons, hpair, Bool.false_or]

theorem findByProviderChannel_update {table : ChannelTable} {channelId channelKey : String}
    {u : ChannelTable.Update} (hkey : ∀ channel, rowKey (u.apply channel) = rowKey channel)
    (hother : ∀ channel ∈ table.channels, channel.id = channelId →
      channel.provider = provider → channel.providerChannelId ≠ some channelKey) :
    (table.update channelId u).findByProviderChannel provider channelKey =
      table.findByProviderChannel provider channelKey := by
  unfold ChannelTable.findByProviderChannel
  rw [ChannelTable.update_channels, List.find?_map]
  have htest : ((fun channel : StoredPushChannel => decide (channel.provider = provider ∧
      channel.providerChannelId = some channelKey)) ∘ ChannelTable.updateRow channelId u) =
        fun channel => decide (channel.provider = provider ∧
          channel.providerChannelId = some channelKey) := by
    funext channel
    rw [Function.comp_apply, ChannelTable.updateRow]
    split_ifs
    · have hrow := hkey channel
      simp only [rowKey, RowKey.mk.injEq] at hrow
      rw [hrow.2.1, hrow.2.2.1]
    · rfl
  rw [htest]
  cases hfind : table.channels.find? _ with
  | none => rfl
  | some channel =>
    have htest := List.find?_some hfind
    rw [decide_eq_true_eq] at htest
    have hid : channel.id ≠ channelId := fun hid =>
      hother channel (List.mem_of_find?_eq_some hfind) hid htest.1 htest.2
    rw [Option.map_some, ChannelTable.updateRow_of_ne u hid]

/-- **The update of an accepted claim's channel** leaves the lookups to come alone. -/
theorem Follows.update (h : Follows provider found store lookups) {channel : StoredPushChannel}
    (hchannel : found.lookup provider key = some channel) (hknown : (lookups.get? key).isSome)
    {u : ChannelTable.Update} (hkey : ∀ channel, rowKey (u.apply channel) = rowKey channel) :
    Follows provider found { store with table := store.table.update channel.id u } lookups := by
  have hmem : channel ∈ found.table.channels ∧ channel.providerChannelId = some key := by
    unfold PushStore.lookup at hchannel
    split_ifs at hchannel
    have htest := List.find?_some hchannel
    rw [decide_eq_true_eq] at htest
    exact ⟨List.mem_of_find?_eq_some hchannel, htest.2⟩
  refine ⟨?_, h.shared, fun key' hget => ?_⟩
  · rw [← h.rows, ChannelTable.update_channels, List.map_map]
    refine List.map_congr_left fun row _ => ?_
    rw [Function.comp_apply, ChannelTable.updateRow]
    split_ifs
    · exact hkey row
    · rfl
  · rw [← h.fresh key' hget]
    unfold PushStore.lookup
    dsimp only
    rw [findByProviderChannel_update hkey]
    intro row hrow hid _ hrowKey
    -- two rows of one id are one row, which a provider knows by one id
    have hrowMem : rowKey row ∈ found.table.channels.map rowKey :=
      h.rows ▸ List.mem_map_of_mem hrow
    obtain ⟨row', hrow', heq⟩ := List.mem_map.1 hrowMem
    simp only [rowKey, RowKey.mk.injEq] at heq
    have hsame := ChannelTable.eq_of_id_eq hrow' hmem.1 (heq.1.trans hid)
    rw [hsame, hmem.2, hrowKey] at heq
    have hkeys : key = key' := Option.some.inj heq.2.2.1
    rw [hkeys, hget] at hknown
    cases hknown

end Follows

/-! ## States that differ in lookups -/

/-- Two states of one delivery that differ in what is looked up and what is remembered as unknown. -/
structure Alike (provider : String) (found : PushStore) (known : List String)
    (s t : ClaimState PushWorld) : Prop where
  table : s.world.store.table = t.world.store.table
  delivered : s.world.store.delivered = t.world.store.delivered
  accountCalendars : s.world.store.accountCalendars = t.world.store.accountCalendars
  now : s.world.now = t.world.now
  log : s.world.log = t.world.log
  noFaults : s.world.NoFaults ∧ t.world.NoFaults
  calendarIds : s.context.calendarIds = t.context.calendarIds
  verifications : s.context.verifications = t.context.verifications
  liveness : s.context.liveness = t.context.liveness
  follows : Follows provider found s.world.store s.context.lookups ∧
    Follows provider found t.world.store t.context.lookups
  known : ∀ key ∈ known, (s.context.lookups.get? key).isSome ∧ (t.context.lookups.get? key).isSome

section Alike

variable {provider : String} {found : PushStore} {known : List String} {s t u : ClaimState PushWorld}

theorem Alike.symm (h : Alike provider found known s t) : Alike provider found known t s :=
  ⟨h.table.symm, h.delivered.symm, h.accountCalendars.symm, h.now.symm, h.log.symm, h.noFaults.symm,
    h.calendarIds.symm, h.verifications.symm, h.liveness.symm, h.follows.symm,
    fun key hkey => (h.known key hkey).symm⟩

theorem Alike.trans (h : Alike provider found known s t) (h' : Alike provider found known t u) :
    Alike provider found known s u :=
  ⟨h.table.trans h'.table, h.delivered.trans h'.delivered,
    h.accountCalendars.trans h'.accountCalendars, h.now.trans h'.now, h.log.trans h'.log,
    ⟨h.noFaults.1, h'.noFaults.2⟩, h.calendarIds.trans h'.calendarIds,
    h.verifications.trans h'.verifications, h.liveness.trans h'.liveness,
    ⟨h.follows.1, h'.follows.2⟩,
    fun key hkey => ⟨(h.known key hkey).1, (h'.known key hkey).2⟩⟩

theorem Alike.mono (h : Alike provider found known s t) {known' : List String}
    (hsub : ∀ key ∈ known', (s.context.lookups.get? key).isSome ∧ (t.context.lookups.get? key).isSome) :
    Alike provider found known' s t := { h with known := hsub }

theorem Alike.refl {w : PushWorld} (h : w.NoFaults) (provider : String) :
    Alike provider w.store [] { world := w } { world := w } where
  table := rfl
  delivered := rfl
  accountCalendars := rfl
  now := rfl
  log := rfl
  noFaults := ⟨h, h⟩
  calendarIds := rfl
  verifications := rfl
  liveness := rfl
  follows := ⟨Follows.refl provider w.store, Follows.refl provider w.store⟩
  known _ hkey := absurd hkey List.not_mem_nil

theorem respects_share {change : ClaimContext → ClaimContext}
    (hlookups : ∀ context, (change context).lookups = context.lookups)
    (hrest : ∀ a b : ClaimContext, a.calendarIds = b.calendarIds → a.verifications = b.verifications →
      a.liveness = b.liveness → (change a).calendarIds = (change b).calendarIds ∧
        (change a).verifications = (change b).verifications ∧ (change a).liveness = (change b).liveness) :
    Effect.Respects (Alike provider found known) (share (W := PushWorld) change) := by
  refine Effect.respects_modify fun s t h => ?_
  obtain ⟨hcalendars, hverifications, hliveness⟩ :=
    hrest s.context t.context h.calendarIds h.verifications h.liveness
  exact { h with
    calendarIds := hcalendars
    verifications := hverifications
    liveness := hliveness
    follows := ⟨(hlookups s.context).symm ▸ h.follows.1, (hlookups t.context).symm ▸ h.follows.2⟩
    known := fun key hkey => by
      rw [hlookups s.context, hlookups t.context]
      exact h.known key hkey }

/-- **A call** whose answer and effect do not depend on what is remembered as unknown. -/
theorem respects_call {α : Type} {f : PushWorld → α × PushStore} {acts : α → Option PushCall}
    (h : ∀ s t, Alike provider found known s t → (f s.world).1 = (f t.world).1 ∧
      (f s.world).2.table = (f t.world).2.table ∧
      (f s.world).2.delivered = (f t.world).2.delivered ∧
      (f s.world).2.accountCalendars = (f t.world).2.accountCalendars ∧
      Follows provider found (f s.world).2 s.context.lookups) :
    Effect.Respects (Alike provider found known) (perform (call f acts)) := by
  intro s t hst
  obtain ⟨hanswer, htable, hdelivered, hcalendars, hfollows⟩ := h s t hst
  obtain ⟨-, -, -, -, hfollows'⟩ := h t s hst.symm
  unfold perform Effect.zoom
  rw [run_call hst.noFaults.1, run_call hst.noFaults.2]
  refine ⟨by rw [hanswer], ?_⟩
  exact { hst with
    table := htable
    delivered := hdelivered
    accountCalendars := hcalendars
    log := by
      show s.world.log ++ _ = t.world.log ++ _
      rw [hst.log, hanswer]
    noFaults := ⟨hst.noFaults.1.entered _ _, hst.noFaults.2.entered _ _⟩
    follows := ⟨hfollows, hfollows'⟩ }

end Alike

/-! ## The channel of a claim -/

section Resolution

variable {verifySecret : String → String → Bool} {webhookPublicUrl : Option String}
  {options : PushWebhookOptions} {found : PushStore} {s : ClaimState PushWorld}

theorem lookupChannel_eq (channelKey : String) {w : PushWorld} (hfaults : w.NoFaults) :
    ∃ lookup w', lookupChannel (pushWebhookDependencies verifySecret webhookPublicUrl) options
        channelKey w = (.ok lookup, w') ∧
      lookup.channel = w.store.lookup options.provider channelKey ∧
      (lookup.channel = none → lookup.rejectReason.isSome = true) ∧
      w'.NoFaults ∧ w'.now = w.now ∧ w'.log = w.log ∧
      (w'.store = w.store ∨ w'.store = { w.store with
        unknownChannels := (options.provider, channelKey) :: w.store.unknownChannels }) := by
  unfold lookupChannel PushStore.lookup
  have hcached : (pushWebhookDependencies verifySecret webhookPublicUrl).isUnknownChannelCached
      options.provider channelKey w =
        (.ok (w.store.unknownChannels.contains (options.provider, channelKey)),
          w.entered w.store none) :=
    run_readCall (g := fun store => store.unknownChannels.contains _) hfaults
  have hfaults' := hfaults.entered w.store none
  rw [Effect.run_bind hcached]
  cases hunknown : w.store.unknownChannels.contains (options.provider, channelKey) with
  | true =>
    exact ⟨_, _, rfl, rfl, fun _ => rfl, hfaults', rfl, List.append_nil _, Or.inl rfl⟩
  | false =>
    have hfound : (pushWebhookDependencies verifySecret webhookPublicUrl).findChannel options.provider
        channelKey (w.entered w.store none) =
          (.ok (w.store.table.findByProviderChannel options.provider channelKey),
            (w.entered w.store none).entered w.store none) :=
      run_readCall (g := fun store => store.table.findByProviderChannel _ _) hfaults'
    rw [if_neg Bool.false_ne_true, if_neg Bool.false_ne_true, Effect.run_bind hfound]
    have hfaults'' := hfaults'.entered w.store none
    have hlog : ((w.entered w.store none).entered w.store none).log = w.log := by
      show (w.log ++ []) ++ [] = w.log
      rw [List.append_nil, List.append_nil]
    cases hrow : w.store.table.findByProviderChannel options.provider channelKey with
    | some channel =>
      exact ⟨_, _, rfl, rfl, nofun, hfaults'', rfl, hlog, Or.inl rfl⟩
    | none =>
      have hremember := run_call (f := rememberUnknown options.provider channelKey) (a := fun _ => none)
        hfaults''
      refine ⟨_, _, Effect.run_bind hremember, rfl, fun _ => rfl, hfaults''.entered _ _, rfl,
        ?_, Or.inr rfl⟩
      show ((w.log ++ []) ++ []) ++ [] = w.log
      rw [List.append_nil, List.append_nil, List.append_nil]

/-- **The channel of a key** is the one that the store had when the delivery came. -/
theorem sharedLookup_eq (channelKey : String) (h : Alike options.provider found [] s s) :
    ∃ lookup s', sharedLookup (pushWebhookDependencies verifySecret webhookPublicUrl) options
        channelKey s = (.ok lookup, s') ∧
      lookup.channel = found.lookup options.provider channelKey ∧
      (lookup.channel = none → lookup.rejectReason.isSome = true) ∧
      Alike options.provider found [] s s' ∧ (s'.context.lookups.get? channelKey).isSome := by
  unfold sharedLookup
  have hget : Effect.gets (fun state : ClaimState PushWorld => state.context.lookups.get? channelKey) s =
      ((.ok (s.context.lookups.get? channelKey) : Except PushError _), s) := rfl
  rw [Effect.run_bind hget]
  cases hcached : s.context.lookups.get? channelKey with
  | some cached =>
    obtain ⟨hchannel, hreason⟩ := h.follows.1.shared channelKey cached hcached
    exact ⟨cached, s, rfl, hchannel, hreason, h, by rw [hcached]; rfl⟩
  | none =>
    obtain ⟨lookup, w', hrun, hchannel, hreason, hfaults, hnow, hlog, hstore⟩ :=
      @lookupChannel_eq verifySecret webhookPublicUrl options channelKey _ h.noFaults.1
    have hperform : perform (lookupChannel (pushWebhookDependencies verifySecret webhookPublicUrl)
        options channelKey) s = (.ok lookup, { s with world := w' }) := Effect.run_zoom hrun
    dsimp only
    rw [Effect.run_bind hperform]
    have hfollows := h.follows.1.share hcached hchannel hreason
    have hshared : ((s.context.lookups.set channelKey lookup).get? channelKey).isSome := by
      rw [JsMap.get?_set_self]
      rfl
    refine ⟨lookup, _, rfl, hchannel.trans (h.follows.1.fresh channelKey hcached), hreason, ?_, hshared⟩
    have htable : w'.store.table = s.world.store.table := by
      rcases hstore with hstore | hstore <;> rw [hstore]
    refine
      { table := htable.symm
        delivered := ?_
        accountCalendars := ?_
        now := hnow.symm
        log := hlog.symm
        noFaults := ⟨h.noFaults.1, hfaults⟩
        calendarIds := rfl
        verifications := rfl
        liveness := rfl
        follows := ⟨h.follows.1, ?_⟩
        known := fun key hkey => absurd hkey List.not_mem_nil }
    · rcases hstore with hstore | hstore <;> rw [hstore]
    · rcases hstore with hstore | hstore <;> rw [hstore]
    · rcases hstore with hstore | hstore
      · show Follows _ _ w'.store _
        rw [hstore]
        exact hfollows
      · show Follows _ _ w'.store _
        rw [hstore]
        exact hfollows.remember hshared

/-- **The channel of a claim** is the one that the store had when the delivery came. -/
theorem resolveClaimChannel_eq (claim : PushClaim) (h : Alike options.provider found [] s s) :
    ∃ resolution s', resolveClaimChannel (pushWebhookDependencies verifySecret webhookPublicUrl)
        options claim s = (.ok resolution, s') ∧
      resolution.channel = authenticate (pushWebhookDependencies verifySecret webhookPublicUrl) options
        found claim ∧
      (resolution.channel = none → resolution.rejectReason.isSome = true) ∧
      Alike options.provider found [] s s' ∧
      (resolution.channel ≠ none → (s'.context.lookups.get? claim.channelKey).isSome) := by
  unfold resolveClaimChannel authenticate
  cases husable : hasUsableChannelKey claim with
  | false => exact ⟨_, s, rfl, rfl, fun _ => rfl, h, fun hne => absurd rfl hne⟩
  | true =>
    obtain ⟨lookup, s', hrun, hchannel, hreason, halike, hshared⟩ :=
      @sharedLookup_eq verifySecret webhookPublicUrl options found s claim.channelKey h
    rw [if_neg (by decide), if_pos rfl, Effect.run_bind hrun, ← hchannel]
    cases hlookup : lookup.channel with
    | none => exact ⟨lookup, s', rfl, hlookup, hreason, halike, fun _ => hshared⟩
    | some channel =>
      dsimp only
      cases hcheck : checkClaim (pushWebhookDependencies verifySecret webhookPublicUrl) options claim
          channel with
      | some reason =>
        refine ⟨_, s', rfl, ?_, fun _ => rfl, halike, fun _ => hshared⟩
        rw [Option.filter_some, hcheck]
        rfl
      | none =>
        refine ⟨_, s', rfl, ?_, nofun, halike, fun _ => hshared⟩
        rw [Option.filter_some, hcheck]
        rfl

end Resolution

/-! ## Accepted claims -/

section Accepted

variable {verifySecret : String → String → Bool} {webhookPublicUrl : Option String}
  {options : PushWebhookOptions} {found : PushStore} {claim : PushClaim} {channel : StoredPushChannel}

theorem respects_quietCall {α : Type} {known : List String} {f : PushWorld → α × PushStore}
    {acts : α → Option PushCall}
    (hread : ∀ w w' : PushWorld, w.store.table = w'.store.table →
      w.store.delivered = w'.store.delivered →
      w.store.accountCalendars = w'.store.accountCalendars → (f w).1 = (f w').1 ∧
        (f w).2.delivered = (f w').2.delivered)
    (hkeeps : ∀ w, (f w).2.table = w.store.table ∧
      (f w).2.accountCalendars = w.store.accountCalendars ∧
      (f w).2.unknownChannels = w.store.unknownChannels) :
    Effect.Respects (Alike options.provider found known) (perform (call f acts)) := by
  refine respects_call fun s t h => ?_
  obtain ⟨hanswer, hdelivered⟩ := hread s.world t.world h.table h.delivered h.accountCalendars
  obtain ⟨htable, hcalendars, hunknown⟩ := hkeeps s.world
  obtain ⟨htable', hcalendars', -⟩ := hkeeps t.world
  refine ⟨hanswer, ?_, hdelivered, ?_, h.follows.1.of_table htable hunknown⟩
  · rw [htable, htable', h.table]
  · rw [hcalendars, hcalendars', h.accountCalendars]

theorem respects_updateCall
    (hchannel : found.lookup options.provider claim.channelKey = some channel)
    {update : ℤ → ChannelTable.Update} (hkey : ∀ now row, rowKey ((update now).apply row) = rowKey row)
    (acts : PushCall) :
    Effect.Respects (Alike options.provider found [claim.channelKey])
      (perform (updateCall channel.id update acts)) := by
  refine respects_call fun s t h => ?_
  refine ⟨rfl, ?_, h.delivered, h.accountCalendars, ?_⟩
  · dsimp only
    rw [h.table, h.now]
  · exact h.follows.1.update hchannel (h.known _ List.mem_cons_self).1 (hkey _)

theorem respects_sharedCalendarIds : Effect.Respects (Alike options.provider found [claim.channelKey])
    (sharedCalendarIds (pushWebhookDependencies verifySecret webhookPublicUrl) channel) := by
  refine Effect.respects_bind (Effect.respects_gets fun s t h => by rw [h.calendarIds]) fun cached => ?_
  cases cached with
  | some ids => exact Effect.respects_pure ids
  | none =>
    refine Effect.respects_bind (respects_quietCall (fun w w' _ _ hcalendars => ⟨?_, by assumption⟩)
      fun w => ⟨rfl, rfl, rfl⟩) fun ids => ?_
    · simp only [resolveAffectedCalendarIds, hcalendars]
    · refine Effect.respects_bind (respects_share (fun _ => rfl) fun a b h h' h'' => ?_)
        fun _ => Effect.respects_pure ids
      exact ⟨congrArg (·.set channel.id ids) h, h', h''⟩

theorem respects_sharedNotification :
    Effect.Respects (Alike options.provider found [claim.channelKey])
      (sharedNotification (pushWebhookDependencies verifySecret webhookPublicUrl) channel.id) := by
  refine Effect.respects_bind (Effect.respects_gets fun s t h => by rw [h.liveness]) fun noted => ?_
  cases noted with
  | true => exact Effect.respects_pure _
  | false =>
    refine Effect.respects_bind (respects_share (fun _ => rfl) fun a b h h' h'' => ?_) fun _ => ?_
    · exact ⟨h, h', congrArg (channel.id :: ·) h''⟩
    · intro s t h
      refine ⟨rfl, { h with log := ?_ }⟩
      exact congrArg (· ++ [_]) h.log

variable (hchannel : found.lookup options.provider claim.channelKey = some channel)

include hchannel

theorem respects_resolveClaimCalendarIds :
    Effect.Respects (Alike options.provider found [claim.channelKey])
      (resolveClaimCalendarIds (pushWebhookDependencies verifySecret webhookPublicUrl) claim
        channel) := by
  have hcalendars := @respects_sharedCalendarIds verifySecret webhookPublicUrl options found claim channel
  unfold resolveClaimCalendarIds applyLifecycleClaim
  split_ifs
  · exact Effect.respects_bind (respects_updateCall hchannel (fun _ _ => rfl) _)
      fun _ => Effect.respects_pure []
  · exact Effect.respects_bind (respects_updateCall hchannel (fun _ _ => rfl) _)
      fun _ => hcalendars
  · exact hcalendars
  · exact Effect.respects_pure []
  · exact hcalendars

theorem respects_sharedVerification :
    Effect.Respects (Alike options.provider found [claim.channelKey])
      (sharedVerification (pushWebhookDependencies verifySecret webhookPublicUrl) channel.id) := by
  refine Effect.respects_bind (Effect.respects_gets fun s t h => by rw [h.verifications])
    fun verified => ?_
  cases verified with
  | true => exact Effect.respects_pure _
  | false =>
    refine Effect.respects_bind (respects_updateCall hchannel (fun _ _ => rfl) _) fun _ => ?_
    exact respects_share (fun _ => rfl) fun a b h h' h'' => ⟨h, congrArg (channel.id :: ·) h', h''⟩

/-- **An accepted claim** does not tell apart states that differ in lookups. -/
theorem respects_acceptClaim : Effect.Respects (Alike options.provider found [claim.channelKey])
    (acceptClaim (pushWebhookDependencies verifySecret webhookPublicUrl) options claim channel) := by
  refine Effect.respects_bind ?_ fun claimed => ?_
  · unfold claimFirst
    cases deliveryKey options claim with
    | none => exact Effect.respects_pure true
    | some key =>
      refine respects_quietCall (fun w w' _ hdelivered _ => ?_) fun w => ?_
      · unfold claimDelivery
        rw [hdelivered]
        split_ifs
        · exact ⟨rfl, hdelivered⟩
        · exact ⟨rfl, rfl⟩
      · unfold claimDelivery
        split_ifs <;> exact ⟨rfl, rfl, rfl⟩
  · cases claimed with
    | false => exact Effect.respects_pure _
    | true =>
      refine Effect.respects_bind respects_sharedNotification fun _ => ?_
      have hcalendars := Effect.respects_bind
        (@respects_resolveClaimCalendarIds verifySecret webhookPublicUrl _ _ _ _ hchannel)
        fun calendarIds => Effect.respects_pure ({ calendarIds } : ClaimOutcome)
      dsimp only
      split_ifs
      · exact Effect.respects_bind (respects_sharedVerification hchannel)
          fun _ => Effect.respects_pure _
      · exact Effect.respects_bind (respects_sharedVerification hchannel) fun _ => hcalendars
      · exact Effect.respects_pure _
      · exact hcalendars

end Accepted

/-! ## Deliveries -/

section Delivery

variable {verifySecret : String → String → Bool} {webhookPublicUrl : Option String}
  {options : PushWebhookOptions}

variable (options) in
theorem wp_acceptClaim (dependencies : PushWebhookDependencies PushWorld) (claim : PushClaim)
    (channel : StoredPushChannel) (s : ClaimState PushWorld) :
    Effect.wp (acceptClaim dependencies options claim channel)
      (fun outcome _ => outcome.rejectReason = none) (fun _ _ => True) s := by
  unfold acceptClaim
  rw [Effect.wp_bind]
  refine Effect.wp_mono (Effect.wp_true _ _) (fun claimed s' _ => ?_) fun _ _ h => h
  cases claimed with
  | false => exact rfl
  | true =>
    change Effect.wp (serveClaim dependencies claim channel) _ _ s'
    unfold serveClaim
    rw [Effect.wp_bind]
    refine Effect.wp_mono (Effect.wp_true _ _) (fun _ s'' _ => ?_) fun _ _ h => h
    dsimp only
    split_ifs
    · rw [Effect.wp_bind]
      exact Effect.wp_mono (Effect.wp_true _ _) (fun _ _ _ => rfl) fun _ _ h => h
    · rw [Effect.wp_bind]
      refine Effect.wp_mono (Effect.wp_true _ _) (fun _ _ _ => ?_) fun _ _ h => h
      rw [Effect.wp_bind]
      exact Effect.wp_mono (Effect.wp_true _ _) (fun _ _ _ => rfl) fun _ _ h => h
    · exact rfl
    · rw [Effect.wp_bind]
      exact Effect.wp_mono (Effect.wp_true _ _) (fun _ _ _ => rfl) fun _ _ h => h

variable (verifySecret webhookPublicUrl options) in
/-- The claims of a delivery that are not rejected. -/
def acceptedClaims (found : PushStore) (claims : List PushClaim) : List PushClaim :=
  claims.filter fun claim =>
    !isRejected (pushWebhookDependencies verifySecret webhookPublicUrl) options found claim

variable (options) in
/-- What a delivery does with all its claims and with the accepted ones alone. -/
structure SameOutcome (found : PushStore) (rejected : ℕ) (pending pending' : PendingClaims)
    (reached reached' : Except PushError PendingClaims × ClaimState PushWorld) : Prop where
  alike : Alike options.provider found [] reached.2 reached'.2
  outcome : (∃ e, reached.1 = .error e ∧ reached'.1 = .error e) ∨
    ∃ p p', reached.1 = .ok p ∧ reached'.1 = .ok p' ∧
      p.pendingCalendarIds = p'.pendingCalendarIds ∧
      p.rejectedCount = pending.rejectedCount + rejected ∧
      p'.rejectedCount = pending'.rejectedCount

theorem processClaim_rejected {found : PushStore} {claim : PushClaim} {s : ClaimState PushWorld}
    (hrejected : isRejected (pushWebhookDependencies verifySecret webhookPublicUrl) options found
      claim = true)
    (h : Alike options.provider found [] s s) :
    ∃ outcome s', processClaim (pushWebhookDependencies verifySecret webhookPublicUrl) options claim s =
        (.ok outcome, s') ∧
      outcome.calendarIds = [] ∧ outcome.rejectReason.isSome = true ∧
      Alike options.provider found [] s s' := by
  obtain ⟨resolution, s', hrun, hchannel, hreason, halike, -⟩ :=
    @resolveClaimChannel_eq verifySecret webhookPublicUrl options found s claim h
  rw [isRejected, Option.isNone_iff_eq_none] at hrejected
  rw [hrejected] at hchannel
  refine ⟨{ negativeCacheHit := resolution.negativeCacheHit, rejectReason := resolution.rejectReason },
    s', ?_, rfl, hreason hchannel, halike⟩
  unfold processClaim
  rw [Effect.run_bind hrun, hchannel]
  rfl

theorem processClaim_accepted {found : PushStore} {claim : PushClaim} {s : ClaimState PushWorld}
    {channel : StoredPushChannel}
    (haccepted : authenticate (pushWebhookDependencies verifySecret webhookPublicUrl) options found
      claim = some channel)
    (h : Alike options.provider found [] s s) :
    ∃ s', processClaim (pushWebhookDependencies verifySecret webhookPublicUrl) options claim s =
        acceptClaim (pushWebhookDependencies verifySecret webhookPublicUrl) options claim channel s' ∧
      Alike options.provider found [] s s' ∧
      (s'.context.lookups.get? claim.channelKey).isSome := by
  obtain ⟨resolution, s', hrun, hchannel, -, halike, hknown⟩ :=
    @resolveClaimChannel_eq verifySecret webhookPublicUrl options found s claim h
  rw [haccepted] at hchannel
  refine ⟨s', ?_, halike, hknown (by rw [hchannel]; nofun)⟩
  unfold processClaim acceptClaim
  rw [Effect.run_bind hrun, hchannel]

/-- **The loop over the claims** passes over those that are rejected. -/
theorem collectClaims_withoutRejected {found : PushStore} (claims : List PushClaim)
    {pending pending' : PendingClaims}
    (hpending : pending.pendingCalendarIds = pending'.pendingCalendarIds)
    {s t : ClaimState PushWorld} (h : Alike options.provider found [] s t) :
    SameOutcome options found
      (claims.countP (isRejected (pushWebhookDependencies verifySecret webhookPublicUrl) options found))
      pending pending'
      (collectClaims (pushWebhookDependencies verifySecret webhookPublicUrl) options claims pending s)
      (collectClaims (pushWebhookDependencies verifySecret webhookPublicUrl) options
        (acceptedClaims verifySecret webhookPublicUrl options found claims) pending' t) := by
  induction claims generalizing pending pending' s t with
  | nil => exact ⟨h, Or.inr ⟨pending, pending', rfl, rfl, hpending, rfl, rfl⟩⟩
  | cons claim claims ih =>
    rw [acceptedClaims, List.filter_cons, List.countP_cons]
    cases hrejected : isRejected (pushWebhookDependencies verifySecret webhookPublicUrl) options found
        claim with
    | true =>
      obtain ⟨outcome, s', hrun, hids, hreason, halike⟩ :=
        processClaim_rejected hrejected (h.trans h.symm)
      have hadd : (pending.add outcome).pendingCalendarIds = pending'.pendingCalendarIds := by
        rw [PendingClaims.add, hids]
        exact hpending
      have hrest := ih hadd (halike.symm.trans h)
      rw [collectClaims, Effect.run_bind hrun]
      refine ⟨hrest.alike, ?_⟩
      rcases hrest.outcome with herror | ⟨p, p', hp, hp', hids, hcount, hcount'⟩
      · exact Or.inl herror
      · refine Or.inr ⟨p, p', hp, hp', hids, ?_, hcount'⟩
        rw [hcount, PendingClaims.add, hreason, if_pos rfl]
        dsimp only
        omega
    | false =>
      obtain ⟨channel, hchannel⟩ := Option.ne_none_iff_exists'.1
        (Option.isNone_eq_false_iff.1 hrejected |> Option.isSome_iff_ne_none.1)
      obtain ⟨s', hs', halike, hknown⟩ := processClaim_accepted hchannel (h.trans h.symm)
      obtain ⟨t', ht', halike', hknown'⟩ := processClaim_accepted hchannel (h.symm.trans h)
      have hmiddle : Alike options.provider found [claim.channelKey] s' t' :=
        ((halike.symm.trans h).trans halike').mono fun key hkey =>
          List.mem_singleton.1 hkey ▸ ⟨hknown, hknown'⟩
      obtain ⟨houtcome, hreached⟩ := respects_acceptClaim
        (authenticate_eq_some_iff.1 hchannel).2.1 s' t' hmiddle
      have hreason := wp_acceptClaim options
        (pushWebhookDependencies verifySecret webhookPublicUrl) claim channel s'
      rw [Effect.wp] at hreason
      rw [Bool.not_false, if_pos rfl, if_neg Bool.false_ne_true, Nat.add_zero, collectClaims,
        collectClaims]
      rw [← hs'] at houtcome hreached hreason
      rw [← ht'] at houtcome hreached
      have hlater : Alike options.provider found [] _ _ :=
        hreached.mono fun key hkey => absurd hkey List.not_mem_nil
      cases hrun : processClaim (pushWebhookDependencies verifySecret webhookPublicUrl) options claim s
        with
      | mk result s₁ =>
        cases hrun' : processClaim (pushWebhookDependencies verifySecret webhookPublicUrl) options claim
            t with
        | mk result' t₁ =>
          rw [hrun] at houtcome hreason hlater
          rw [hrun'] at houtcome hlater
          obtain rfl : result = result' := houtcome
          cases result with
          | error e =>
            rw [Effect.run_bind_error hrun, Effect.run_bind_error hrun']
            exact ⟨hlater, Or.inl ⟨e, rfl, rfl⟩⟩
          | ok outcome =>
            rw [Effect.run_bind hrun, Effect.run_bind hrun']
            have hnone : outcome.rejectReason = none := hreason
            have hadd : (pending.add outcome).pendingCalendarIds =
                (pending'.add outcome).pendingCalendarIds :=
              congrArg (addAll · outcome.calendarIds) hpending
            have hrest := ih hadd hlater
            refine ⟨hrest.alike, ?_⟩
            rcases hrest.outcome with herror | ⟨p, p', hp, hp', hids, hcount, hcount'⟩
            · exact Or.inl herror
            · refine Or.inr ⟨p, p', hp, hp', hids, ?_, ?_⟩
              · rw [hcount, PendingClaims.add, hnone]
                rfl
              · rw [hcount', PendingClaims.add, hnone]
                rfl

variable (verifySecret webhookPublicUrl options) in
def PushRequest.withoutRejected (found : PushStore) (request : PushRequest) : PushRequest :=
  match request.parsed with
  | .notification claims =>
    { request with
      parsed := .notification (acceptedClaims verifySecret webhookPublicUrl options found claims) }
  | _ => request

theorem respects_wakePending {found : PushStore} (ids : List String) :
    Effect.Respects (Alike options.provider found [])
      (wakePending (pushWebhookDependencies verifySecret webhookPublicUrl) ids) := by
  unfold wakePending
  split_ifs
  · exact respects_quietCall (fun w w' _ hdelivered _ => ⟨rfl, hdelivered⟩) fun _ => ⟨rfl, rfl, rfl⟩
  · exact Effect.respects_pure _

/-- The claims of a delivery with and without those that are rejected. -/
theorem runClaims_withoutRejected {w : PushWorld} (hfaults : w.NoFaults) (claims : List PushClaim) :
    (runClaims (pushWebhookDependencies verifySecret webhookPublicUrl) options claims w).2.log =
        (runClaims (pushWebhookDependencies verifySecret webhookPublicUrl) options
          (acceptedClaims verifySecret webhookPublicUrl options w.store claims) w).2.log ∧
      (runClaims (pushWebhookDependencies verifySecret webhookPublicUrl) options claims
          w).2.store.delivered =
        (runClaims (pushWebhookDependencies verifySecret webhookPublicUrl) options
          (acceptedClaims verifySecret webhookPublicUrl options w.store claims) w).2.store.delivered ∧
      (∀ count, (runClaims (pushWebhookDependencies verifySecret webhookPublicUrl) options claims w).1 =
        .ok count → count = claims.countP
          (isRejected (pushWebhookDependencies verifySecret webhookPublicUrl) options w.store)) ∧
      ∀ e, (runClaims (pushWebhookDependencies verifySecret webhookPublicUrl) options claims w).1 =
        .error e → (runClaims (pushWebhookDependencies verifySecret webhookPublicUrl) options
          (acceptedClaims verifySecret webhookPublicUrl options w.store claims) w).1 = .error e := by
  obtain ⟨halike, houtcome⟩ := @collectClaims_withoutRejected verifySecret webhookPublicUrl options _
    claims {} {} rfl _ _ (Alike.refl hfaults options.provider)
  unfold runClaims Effect.zoom
  dsimp only
  cases hrun : collectClaims (pushWebhookDependencies verifySecret webhookPublicUrl) options claims {}
      { world := w } with
  | mk result s =>
    cases hrun' : collectClaims (pushWebhookDependencies verifySecret webhookPublicUrl) options
        (acceptedClaims verifySecret webhookPublicUrl options w.store claims) {} { world := w } with
    | mk result' t =>
      rw [hrun, hrun'] at halike houtcome
      rcases houtcome with ⟨e, he, he'⟩ | ⟨p, p', hp, hp', hids, hcount, hcount'⟩
      · obtain rfl : result = .error e := he
        obtain rfl : result' = .error e := he'
        unfold processClaims
        rw [Effect.run_bind_error hrun, Effect.run_bind_error hrun']
        exact ⟨halike.log, halike.delivered, nofun, fun _ h => h⟩
      · obtain rfl : result = .ok p := hp
        obtain rfl : result' = .ok p' := hp'
        obtain ⟨hwoken, hstate⟩ := @respects_wakePending verifySecret webhookPublicUrl options w.store
          p.pendingCalendarIds s t halike
        unfold processClaims
        rw [Effect.run_bind hrun, Effect.run_bind hrun', Effect.run_bind_map _ fun _ => p.rejectedCount,
          Effect.run_bind_map _ fun _ => p'.rejectedCount, ← hids]
        refine ⟨hstate.log, hstate.delivered, fun count h => ?_, fun e h => ?_⟩
        · cases hresult : (wakePending (pushWebhookDependencies verifySecret webhookPublicUrl)
            p.pendingCalendarIds s).1 with
          | error e =>
            rw [hresult] at h
            cases h
          | ok _ =>
            rw [hresult] at h
            rw [← Except.ok.inj h, hcount, Nat.zero_add]
        · rw [← hwoken]
          cases hresult : (wakePending (pushWebhookDependencies verifySecret webhookPublicUrl)
            p.pendingCalendarIds s).1 with
          | error e =>
            rw [hresult] at h
            exact h
          | ok _ =>
            rw [hresult] at h
            cases h

/-- A delivery gets to its claims: it is no handshake, push is configured, the delivery is admitted and its
body within the limit. -/
def ReachesClaims (webhookPublicUrl : Option String) (w : PushWorld) (request : PushRequest) : Prop :=
  request.validationToken = none ∧ webhookPublicUrl.getD "" ≠ "" ∧
    request.exceedsDeclaredBodyLimit = false ∧ w.store.admitted = true ∧ request.withinLimit = true

variable (verifySecret options) in
/-- A delivery that does not get to its claims is answered without them. -/
theorem runPushWebhook_stops {w : PushWorld} (hfaults : w.NoFaults) {request : PushRequest}
    (h : ¬ ReachesClaims webhookPublicUrl w request) :
    ∃ status w', status ≠ 401 ∧ ∀ parsed,
      runPushWebhook (pushWebhookDependencies verifySecret webhookPublicUrl) options
        { request with parsed } w = (.ok status, w') := by
  unfold runPushWebhook
  dsimp only
  cases htoken : request.validationToken with
  | some token => exact ⟨_, w, by split_ifs <;> decide, fun _ => rfl⟩
  | none =>
    dsimp only
    by_cases hurl : (pushWebhookDependencies verifySecret webhookPublicUrl).webhookPublicUrl.getD "" = ""
    · exact ⟨501, w, by decide, fun _ => by rw [if_pos hurl]; rfl⟩
    · cases hdeclared : request.exceedsDeclaredBodyLimit with
      | true => exact ⟨413, w, by decide, fun _ => by rw [if_neg hurl]; rfl⟩
      | false =>
        have hadmission : (pushWebhookDependencies verifySecret webhookPublicUrl).claimPushAdmission
            options.provider w = (.ok w.store.admitted, w.entered w.store none) :=
          run_readCall (g := fun store => store.admitted) hfaults
        cases hadmitted : w.store.admitted with
        | false =>
          refine ⟨503, w.entered w.store none, by decide, fun parsed => ?_⟩
          rw [if_neg hurl, if_neg Bool.false_ne_true, Effect.run_bind hadmission, hadmitted]
          rfl
        | true =>
          have hlimit : request.withinLimit = false := by
            rw [← Bool.not_eq_true]
            exact fun hlimit => h ⟨htoken, hurl, hdeclared, hadmitted, hlimit⟩
          refine ⟨413, w.entered w.store none, by decide, fun parsed => ?_⟩
          rw [if_neg hurl, if_neg Bool.false_ne_true, Effect.run_bind hadmission, hadmitted, hlimit]
          rfl

variable (verifySecret options) in
theorem runPushWebhook_reaches {w : PushWorld} (hfaults : w.NoFaults) {request : PushRequest}
    (h : ReachesClaims webhookPublicUrl w request) :
    runPushWebhook (pushWebhookDependencies verifySecret webhookPublicUrl) options request w =
      (match request.parsed with
        | .malformed => pure 400
        | .validation _ => pure 200
        | .notification claims => do
          let rejectedCount ← runClaims (pushWebhookDependencies verifySecret webhookPublicUrl) options
            claims
          pure (if 0 < claims.length ∧ rejectedCount = claims.length then 401
            else options.acceptedStatus) : Effect PushError PushWorld ℕ) (w.entered w.store none) := by
  obtain ⟨htoken, hurl, hdeclared, hadmitted, hlimit⟩ := h
  have hurl' : (pushWebhookDependencies verifySecret webhookPublicUrl).webhookPublicUrl.getD "" ≠ "" :=
    hurl
  have hadmission : (pushWebhookDependencies verifySecret webhookPublicUrl).claimPushAdmission
      options.provider w = (.ok true, w.entered w.store none) := by
    rw [← hadmitted]
    exact run_readCall (g := fun store => store.admitted) hfaults
  unfold runPushWebhook
  rw [htoken]
  dsimp only
  rw [hdeclared, hlimit, if_neg hurl', if_neg Bool.false_ne_true, Effect.run_bind hadmission]
  rfl

/-- What a delivery does before its answer, with and without the claims that are rejected. -/
theorem runPushWebhook_withoutRejected {w : PushWorld} (hfaults : w.NoFaults) (request : PushRequest) :
    (runPushWebhook (pushWebhookDependencies verifySecret webhookPublicUrl) options request w).2.log =
        (runPushWebhook (pushWebhookDependencies verifySecret webhookPublicUrl) options
          (request.withoutRejected verifySecret webhookPublicUrl options w.store) w).2.log ∧
      (runPushWebhook (pushWebhookDependencies verifySecret webhookPublicUrl) options request
          w).2.store.delivered =
        (runPushWebhook (pushWebhookDependencies verifySecret webhookPublicUrl) options
          (request.withoutRejected verifySecret webhookPublicUrl options w.store) w).2.store.delivered ∧
      ((runPushWebhook (pushWebhookDependencies verifySecret webhookPublicUrl) options request w).1 =
          .ok 401 ↔
        ReachesClaims webhookPublicUrl w request ∧
          ∃ claims, request.parsed = .notification claims ∧ claims ≠ [] ∧ ∀ claim ∈ claims,
            isRejected (pushWebhookDependencies verifySecret webhookPublicUrl) options w.store claim =
              true) := by
  by_cases hreach : ReachesClaims webhookPublicUrl w request
  · have hrun := runPushWebhook_reaches verifySecret options hfaults hreach
    cases hparsed : request.parsed with
    | malformed =>
      rw [hparsed] at hrun
      rw [PushRequest.withoutRejected, hparsed]
      dsimp only at hrun ⊢
      rw [hrun]
      refine ⟨rfl, rfl, fun h => absurd (Except.ok.inj h) (by decide), ?_⟩
      rintro ⟨-, claims, hclaims, -⟩
      cases hclaims
    | validation token =>
      rw [hparsed] at hrun
      rw [PushRequest.withoutRejected, hparsed]
      dsimp only at hrun ⊢
      rw [hrun]
      refine ⟨rfl, rfl, fun h => absurd (Except.ok.inj h) (by decide), ?_⟩
      rintro ⟨-, claims, hclaims, -⟩
      cases hclaims
    | notification claims =>
      have hreach' : ReachesClaims webhookPublicUrl w { request with
          parsed :=
            .notification (acceptedClaims verifySecret webhookPublicUrl options w.store claims) } :=
        hreach
      have hrun' := runPushWebhook_reaches verifySecret options hfaults hreach'
      obtain ⟨hlog, hdelivered, hcount, herror⟩ := @runClaims_withoutRejected verifySecret
        webhookPublicUrl options _ (hfaults.entered w.store none) claims
      rw [hparsed] at hrun
      rw [PushRequest.withoutRejected, hparsed]
      dsimp only at hrun hrun' ⊢
      rw [hrun, hrun', Effect.run_bind_map _ fun rejectedCount => if 0 < claims.length ∧
        rejectedCount = claims.length then 401 else options.acceptedStatus,
        Effect.run_bind_map _ fun rejectedCount => if 0 < (acceptedClaims verifySecret webhookPublicUrl
          options w.store claims).length ∧ rejectedCount = (acceptedClaims verifySecret webhookPublicUrl
            options w.store claims).length then 401 else options.acceptedStatus]
      refine ⟨hlog, hdelivered, ?_⟩
      have hclaims : (∃ claims', PushParseResult.notification claims = .notification claims' ∧
          claims' ≠ [] ∧ ∀ claim ∈ claims', isRejected
            (pushWebhookDependencies verifySecret webhookPublicUrl) options w.store claim = true) ↔
          0 < claims.length ∧ claims.countP (isRejected
            (pushWebhookDependencies verifySecret webhookPublicUrl) options w.store) =
              claims.length := by
        rw [List.countP_eq_length, List.length_pos_iff]
        constructor
        · rintro ⟨claims', hsame, h⟩
          exact PushParseResult.notification.inj hsame ▸ h
        · exact fun h => ⟨claims, rfl, h⟩
      rw [hclaims]
      cases hresult : (runClaims (pushWebhookDependencies verifySecret webhookPublicUrl) options claims
          (w.entered w.store none)).1 with
      | ok count =>
        obtain rfl := hcount count hresult
        have haccepted : options.acceptedStatus ≠ 401 := by
          have := options.accepted.2
          omega
        constructor
        · intro h
          refine ⟨hreach, by_contra fun hnot => haccepted ?_⟩
          exact (if_neg hnot).symm.trans (Except.ok.inj h)
        · rintro ⟨-, h⟩
          exact congrArg Except.ok (if_pos h)
      | error e =>
        refine ⟨nofun, fun ⟨_, _, h⟩ => ?_⟩
        have hnone : acceptedClaims verifySecret webhookPublicUrl options w.store claims = [] := by
          rw [acceptedClaims, List.filter_eq_nil_iff]
          rw [List.countP_eq_length] at h
          intro claim hclaim
          rw [h claim hclaim]
          decide
        have hfailed := herror e hresult
        change (runClaims _ options (acceptedClaims verifySecret webhookPublicUrl options w.store claims)
          _).1 = _ at hfailed
        rw [hnone] at hfailed
        cases hfailed
  · obtain ⟨status, w', hstatus, hrun⟩ := runPushWebhook_stops verifySecret options hfaults
      hreach
    have hrun₁ : runPushWebhook (pushWebhookDependencies verifySecret webhookPublicUrl) options request
        w = (.ok status, w') := hrun request.parsed
    have hrun₂ : runPushWebhook (pushWebhookDependencies verifySecret webhookPublicUrl) options
        (request.withoutRejected verifySecret webhookPublicUrl options w.store) w = (.ok status, w') := by
      unfold PushRequest.withoutRejected
      split
      · exact hrun _
      · exact hrun₁
    rw [hrun₁, hrun₂]
    exact ⟨rfl, rfl, fun h => absurd (Except.ok.inj h) hstatus, fun h => absurd h.1 hreach⟩

/-- **Rejected claims have no effect**, and a delivery is unauthorized where it has no others. -/
theorem handlePushWebhook_withoutRejected {w : PushWorld} (hfaults : w.NoFaults)
    (request : PushRequest) :
    let dependencies := pushWebhookDependencies verifySecret webhookPublicUrl
    let run := handlePushWebhook dependencies options request w
    let run' := handlePushWebhook dependencies options
      (request.withoutRejected verifySecret webhookPublicUrl options w.store) w
    run.2.log = run'.2.log ∧ run.2.store.delivered = run'.2.store.delivered ∧
      (run.1 = .ok 401 ↔ ReachesClaims webhookPublicUrl w request ∧
        ∃ claims, request.parsed = .notification claims ∧ claims ≠ [] ∧
          ∀ claim ∈ claims, isRejected dependencies options w.store claim = true) := by
  intro dependencies run run'
  obtain ⟨hstate, hstatus⟩ := Effect.run_recover_pure (runPushWebhook dependencies options request)
    (503 : ℕ) w
  obtain ⟨hstate', -⟩ := Effect.run_recover_pure (runPushWebhook dependencies options
    (request.withoutRejected verifySecret webhookPublicUrl options w.store)) (503 : ℕ) w
  have hunauthorized : run.1 = .ok 401 ↔ (runPushWebhook dependencies options request w).1 = .ok 401 :=
    (hstatus 401).trans (or_iff_left fun h => absurd h.2 (by decide))
  obtain ⟨hlog, hdelivered, hresponse⟩ := @runPushWebhook_withoutRejected verifySecret webhookPublicUrl
    options w hfaults request
  exact ⟨(congrArg (·.log) hstate).trans (hlog.trans (congrArg (·.log) hstate').symm),
    (congrArg (·.store.delivered) hstate).trans
      (hdelivered.trans (congrArg (·.store.delivered) hstate').symm),
    hunauthorized.trans hresponse⟩

end Delivery

namespace Example

def googleOptions : PushWebhookOptions := ⟨200, by decide, true, "google"⟩

def googleChannel : StoredPushChannel where
  accountId := "account"
  calendarId := some "work"
  id := "row"
  provider := "google"
  providerChannelId := some "channel"
  secretHash := "secret"
  state := .active
  userId := "user"
  verifiedAt := some 1

def googleChange (deliveryId : String) : PushClaim where
  channelKey := "channel"
  deliveryId := some deliveryId
  kind := .change
  presentedSecret := "secret"

theorem nodup_googleChannel : ([googleChannel].map (·.id)).Nodup := by decide

/-- The channel was looked for in vain before it was stored. -/
def rememberedWorld : PushWorld where
  store :=
    { table := ⟨[googleChannel], nodup_googleChannel⟩
      unknownChannels := [("google", "channel")]
      accountCalendars := fun _ => [] }

def delivery (claims : List PushClaim) : PushRequest where
  parsed := .notification claims

end Example

theorem handlePushWebhook_withoutRejected_example :
    let dependencies := pushWebhookDependencies (· = ·) (some "https://push")
    let run := handlePushWebhook dependencies Example.googleOptions
      (Example.delivery [Example.googleChange "1"]) Example.rememberedWorld
    let run' := handlePushWebhook dependencies Example.googleOptions
      ((Example.delivery [Example.googleChange "1"]).withoutRejected (· = ·) (some "https://push")
        Example.googleOptions Example.rememberedWorld.store) Example.rememberedWorld
    run.2.log = run'.2.log ∧ run.2.store.delivered = run'.2.store.delivered ∧
      (run.1 = .ok 401 ↔ ReachesClaims (some "https://push") Example.rememberedWorld
          (Example.delivery [Example.googleChange "1"]) ∧
        ∃ claims, (Example.delivery [Example.googleChange "1"]).parsed = .notification claims ∧
          claims ≠ [] ∧ ∀ claim ∈ claims, isRejected dependencies Example.googleOptions
            Example.rememberedWorld.store claim = true) :=
  handlePushWebhook_withoutRejected (fun _ => rfl) (Example.delivery [Example.googleChange "1"])

/-- A change with the secret of a stored channel is unauthorized where the key is still remembered as
unknown. -/
theorem not_handlePushWebhook_unauthorized :
    ¬ ((handlePushWebhook (pushWebhookDependencies (· = ·) (some "https://push")) Example.googleOptions
        (Example.delivery [Example.googleChange "1"]) Example.rememberedWorld).1 = .ok 401 ↔
      [Example.googleChange "1"] ≠ [] ∧ ∀ claim ∈ [Example.googleChange "1"],
        isRejected (pushWebhookDependencies (· = ·) (some "https://push")) Example.googleOptions
          { Example.rememberedWorld.store with unknownChannels := [] } claim = true) := by
  decide

end Push

end Keeper
