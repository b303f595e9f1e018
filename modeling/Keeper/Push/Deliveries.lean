import Keeper.Push.Webhook

/-!
# The store behind the deliveries

`webhook-dependencies.ts`: the channels, the keys of unknown channels and of seen deliveries, and the
calendars of accounts, with the calls that read and change them. A call may fail, before it takes effect or
after.

* `run_call`: a call that does not fail.
* `wp_call`: what a call does in every case.
-/

namespace Keeper

namespace Push

/-! ## The world -/

/-- How a call fails: it is lost, or its answer is. -/
inductive Fault
  | callLost
  | answerLost
  deriving DecidableEq

/-- The calls that act on something. -/
inductive PushCall
  | claimDelivery (deliveryKey : String) (claimed : Bool)
  | markChannelRemoved (channelId : String)
  | markReauthorizeRequested (channelId : String)
  | recordNotificationReceived (channelId : String)
  | recordVerified (channelId : String)
  | wakeIngest (calendarIds : List String)
  deriving DecidableEq

/-- A call that took effect, and whether it was answered. -/
structure PushEntry where
  call : PushCall
  answered : Bool := true
  deriving DecidableEq

/-- What the dependencies read and change. -/
structure PushStore where
  table : ChannelTable
  unknownChannels : List (String × String) := []
  delivered : List String := []
  accountCalendars : String → List AccountCalendarRow
  admitted : Bool := true

/-- A store, the clock, the faults of the calls to come, and the calls that took effect. -/
structure PushWorld where
  store : PushStore
  now : ℤ := 0
  faults : ℕ → Option Fault := fun _ => none
  log : List PushEntry := []

namespace PushWorld

/-- The world after a call that took effect. -/
def entered (w : PushWorld) (store : PushStore) (entry : Option PushEntry) : PushWorld :=
  { w with store, faults := fun n => w.faults (n + 1), log := w.log ++ entry.toList }

def call {α : Type} (f : PushWorld → α × PushStore) (acts : α → Option PushCall) :
    Effect PushError PushWorld α := fun w =>
  let (answer, store) := f w
  match w.faults 0 with
  | none => (.ok answer, w.entered store ((acts answer).map fun call => { call }))
  | some .answerLost =>
    (.error "answer lost",
      w.entered store ((acts answer).map fun call => { call, answered := false }))
  | some .callLost => (.error "call lost", w.entered w.store none)

def readCall {α : Type} (f : PushStore → α) : Effect PushError PushWorld α :=
  call (fun w => (f w.store, w.store)) fun _ => none

/-- An `UPDATE` of a channel. -/
def updateCall (channelId : String) (update : ℤ → ChannelTable.Update) (acts : PushCall) :
    Effect PushError PushWorld PUnit :=
  call (fun w => (⟨⟩, { w.store with table := w.store.table.update channelId (update w.now) }))
    fun _ => some acts

end PushWorld

open PushWorld

/-! ## The dependencies -/

/-- `resolveAffectedCalendarIds`, which both registrars use. -/
def resolveAffectedCalendarIds (channel : StoredPushChannel) (store : PushStore) : List String :=
  match channel.calendarId with
  | some calendarId => [calendarId]
  | none =>
    ((store.accountCalendars channel.accountId).filter fun calendar =>
      !calendar.disabled && calendar.capabilities.contains "pull").map (·.id)

/-- `markChannelRemoved`, of a row. -/
def removedUpdate (now : ℤ) : ChannelTable.Update where
  apply channel := { channel with state := .removed, updatedAt := now }
  id_apply _ := rfl

/-- `markReauthorizeRequested`, of a row. -/
def reauthorizeUpdate (now : ℤ) : ChannelTable.Update where
  apply channel := { channel with reauthorizeRequestedAt := some now, updatedAt := now }
  id_apply _ := rfl

/-- `recordVerified`, of a row. -/
def verifiedUpdate (now : ℤ) : ChannelTable.Update where
  apply channel := { channel with verifiedAt := some now, updatedAt := now }
  id_apply _ := rfl

/-- `claimDelivery`: `SET … NX`. Its expiry is left out. -/
def claimDelivery (deliveryKey : String) (w : PushWorld) : Bool × PushStore :=
  if w.store.delivered.contains deliveryKey then (false, w.store)
  else (true, { w.store with delivered := deliveryKey :: w.store.delivered })

/-- `rememberUnknownChannel`. -/
def rememberUnknown (provider channelKey : String) (w : PushWorld) : PUnit × PushStore :=
  (⟨⟩, { w.store with unknownChannels := (provider, channelKey) :: w.store.unknownChannels })

/-- `createPushWebhookDependencies`. What `recordNotificationReceived` starts in the background changes no
column that is read here. -/
def pushWebhookDependencies (verifySecret : String → String → Bool)
    (webhookPublicUrl : Option String) : PushWebhookDependencies PushWorld where
  claimDelivery key := call (claimDelivery key) fun claimed => some (.claimDelivery key claimed)
  claimPushAdmission _ := readCall (·.admitted)
  findChannel provider channelKey := readCall (·.table.findByProviderChannel provider channelKey)
  isUnknownChannelCached provider channelKey :=
    readCall (·.unknownChannels.contains (provider, channelKey))
  markChannelRemoved := some fun channelId =>
    updateCall channelId removedUpdate (.markChannelRemoved channelId)
  markReauthorizeRequested := some fun channelId =>
    updateCall channelId reauthorizeUpdate (.markReauthorizeRequested channelId)
  recordNotificationReceived channelId := fun w =>
    (.ok ⟨⟩, { w with log := w.log ++ [{ call := .recordNotificationReceived channelId }] })
  recordVerified channelId := updateCall channelId verifiedUpdate (.recordVerified channelId)
  rememberUnknownChannel provider channelKey _ := call (rememberUnknown provider channelKey) fun _ => none
  resolveAffectedCalendarIds channel := readCall (resolveAffectedCalendarIds channel)
  verifySecret := verifySecret
  wakeIngest calendarIds := call (fun w => (⟨⟩, w.store)) fun _ => some (.wakeIngest calendarIds)
  webhookPublicUrl := webhookPublicUrl

/-! ## Calls -/

section Calls

variable {α : Type} {f : PushWorld → α × PushStore} {a : α → Option PushCall} {w : PushWorld}

/-- A world in which no call fails. -/
def PushWorld.NoFaults (w : PushWorld) : Prop := ∀ n, w.faults n = none

theorem run_call (h : w.NoFaults) : call f a w =
    (.ok (f w).1, w.entered (f w).2 ((a (f w).1).map fun call => { call })) := by
  unfold call
  rw [h 0]

theorem run_readCall {g : PushStore → α} (h : w.NoFaults) :
    readCall g w = (.ok (g w.store), w.entered w.store none) := run_call h

theorem PushWorld.NoFaults.entered (h : w.NoFaults) (store : PushStore) (entry : Option PushEntry) :
    (w.entered store entry).NoFaults := fun n => h (n + 1)

/-- **A call** is answered, or has taken effect and is not, or has not. -/
theorem wp_call {Q : α → PushWorld → Prop} {R : PushError → PushWorld → Prop}
    (hanswered : Q (f w).1 (w.entered (f w).2 ((a (f w).1).map fun call => { call })))
    (hlost : ∀ e, R e (w.entered (f w).2 ((a (f w).1).map fun call => { call, answered := false })))
    (hfailed : ∀ e, R e (w.entered w.store none)) : Effect.wp (call f a) Q R w := by
  unfold Effect.wp call
  dsimp only
  split
  · exact hanswered
  · exact hlost _
  · exact hfailed _

theorem wp_readCall {g : PushStore → α} {Q : α → PushWorld → Prop} {R : PushError → PushWorld → Prop}
    (hanswered : Q (g w.store) (w.entered w.store none))
    (hfailed : ∀ e, R e (w.entered w.store none)) : Effect.wp (readCall g) Q R w :=
  wp_call hanswered hfailed hfailed

end Calls

end Push

end Keeper
