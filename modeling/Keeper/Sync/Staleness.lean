import Keeper.Core.ContentHash
import Keeper.Sync.Matching
import Keeper.Sync.Scope

/-!
# Stale mappings

`getRemoteStateChanges` and `identifyStaleMappings` (`core/sync/operations.ts`): a mapping is stale
when its remote copy is missing from a read that covers it, when the local event changed since the
copy was written, or when the copy was edited on the destination.

* `staleRemoteMappings_identifyStaleMappings` and its companions: the lists a pass returns are the
  stale mappings, their ids and their event ids.
* `staleReason_eq_none_iff`: what holds of a mapping that is not stale.
-/

namespace Keeper

/-! ## Counts -/

structure StaleReasonCounts where
  localHashChanged : ℕ := 0
  occurrenceReassigned : ℕ := 0
  remoteAvailabilityChanged : ℕ := 0
  remoteContentChanged : ℕ := 0
  remoteContentAllDayChanged : ℕ := 0
  remoteContentDescriptionChanged : ℕ := 0
  remoteContentDescriptionLocalLengthTotal : ℕ := 0
  remoteContentDescriptionRemoteLengthTotal : ℕ := 0
  remoteContentLocationChanged : ℕ := 0
  remoteContentLocationLocalLengthTotal : ℕ := 0
  remoteContentLocationRemoteLengthTotal : ℕ := 0
  remoteContentSummaryChanged : ℕ := 0
  remoteContentSummaryLocalLengthTotal : ℕ := 0
  remoteContentSummaryRemoteLengthTotal : ℕ := 0
  remoteMissing : ℕ := 0
  remoteTimeChanged : ℕ := 0
  deriving DecidableEq

structure RemoteContentValueLengths where
  «local» : ℕ := 0
  remote : ℕ := 0
  deriving DecidableEq

/-- `RemoteContentFieldChanges`; the lengths of a field are present when it diverged. -/
structure RemoteContentFieldChanges where
  allDay : Bool
  description : Bool
  descriptionLengths : Option RemoteContentValueLengths
  locationLengths : Option RemoteContentValueLengths
  summaryLengths : Option RemoteContentValueLengths
  location : Bool
  summary : Bool
  deriving DecidableEq

structure RemoteStateChanges where
  availability : Bool
  content : Bool
  contentFields : Option RemoteContentFieldChanges
  time : Bool
  deriving DecidableEq

def RemoteStateChanges.any (changes : RemoteStateChanges) : Bool :=
  changes.availability || changes.content || changes.time

/-! ## Changes of a remote event -/

def divergedContentLengths (localText remote : String) : Option RemoteContentValueLengths :=
  if localText = remote then none
  else some ⟨Text.utf16Length localText, Text.utf16Length remote⟩

/-- The fields in which a remote event's content differs from the local event's. -/
def contentFieldChanges (localContent remoteContent : EditableEventContentSnapshot) :
    RemoteContentFieldChanges where
  allDay := remoteContent.isAllDay ≠ localContent.isAllDay
  description := remoteContent.description ≠ localContent.description
  descriptionLengths := divergedContentLengths localContent.description remoteContent.description
  locationLengths := divergedContentLengths localContent.location remoteContent.location
  summaryLengths := divergedContentLengths localContent.summary remoteContent.summary
  location := remoteContent.location ≠ localContent.location
  summary := remoteContent.summary ≠ localContent.summary

/-- The availability a destination shows for an event: the event's own if it supports that. -/
def expectedRemoteAvailability (localEvent : MaterializedSyncableEvent)
    (supportedAvailabilities : Option (List EventAvailability)) : EventAvailability :=
  let localAvailability := localEvent.availability.getD .busy
  if localAvailability ∈ supportedAvailabilities.getD [] then localAvailability else .busy

variable (host : Host)

def getRemoteStateChanges (mapping : EventMapping) (localEvent : MaterializedSyncableEvent)
    (remoteEvent : RemoteEvent) : RemoteStateChanges :=
  let remoteContentChanged :=
    remoteEvent.editableContentHash.any (· ≠ createEditableEventContentHash host localEvent)
  { availability := remoteEvent.editableAvailability.any
      (· ≠ expectedRemoteAvailability localEvent remoteEvent.supportedAvailabilities)
    content := remoteContentChanged
    contentFields := if remoteContentChanged then
        remoteEvent.editableContent.map
          (contentFieldChanges (createEditableEventContentSnapshot localEvent))
      else none
    time := !isSameSerializedSecond remoteEvent.startTime mapping.startTime ||
      !isSameSerializedSecond remoteEvent.endTime mapping.endTime }

def hasRemoteStateChanged (mapping : EventMapping) (localEvent : MaterializedSyncableEvent)
    (remoteEvent : RemoteEvent) : Bool :=
  (getRemoteStateChanges host mapping localEvent remoteEvent).any

/-- The remote event shows the local event, as far as the read tells, at the mapping's times. -/
structure Reflects (mapping : EventMapping) (localEvent : MaterializedSyncableEvent)
    (remoteEvent : RemoteEvent) : Prop where
  content : ∀ hash, remoteEvent.editableContentHash = some hash →
    hash = createEditableEventContentHash host localEvent
  availability : ∀ availability, remoteEvent.editableAvailability = some availability →
    availability = expectedRemoteAvailability localEvent remoteEvent.supportedAvailabilities
  startTime : serializedSecond remoteEvent.startTime = serializedSecond mapping.startTime
  endTime : serializedSecond remoteEvent.endTime = serializedSecond mapping.endTime

variable {host}

theorem Option.any_ne_eq_false_iff {α : Type*} [DecidableEq α] {o : Option α} {b : α} :
    o.any (· ≠ b) = false ↔ ∀ a, o = some a → a = b := by
  cases o <;> simp

theorem hasRemoteStateChanged_eq_false_iff {mapping : EventMapping}
    {localEvent : MaterializedSyncableEvent} {remoteEvent : RemoteEvent} :
    hasRemoteStateChanged host mapping localEvent remoteEvent = false ↔
      Reflects host mapping localEvent remoteEvent := by
  simp only [hasRemoteStateChanged, RemoteStateChanges.any, getRemoteStateChanges,
    Bool.or_eq_false_iff, Option.any_ne_eq_false_iff, isSameSerializedSecond, Bool.not_eq_false',
    decide_eq_true_eq]
  exact ⟨fun ⟨⟨ha, hc⟩, hs, he⟩ => ⟨hc, ha, hs, he⟩, fun ⟨hc, ha, hs, he⟩ => ⟨⟨ha, hc⟩, hs, he⟩⟩

/-! ## The pass over the mappings -/

structure StaleMappingResult where
  staleReasonCounts : StaleReasonCounts := {}
  staleMappingIds : List String := []
  staleMappedEventIds : List String := []
  staleRemoteMappings : List EventMapping := []

def recordRemoteContentLengths (counts : StaleReasonCounts)
    (contentFields : Option RemoteContentFieldChanges) : StaleReasonCounts :=
  let description := (contentFields.bind (·.descriptionLengths)).getD {}
  let location := (contentFields.bind (·.locationLengths)).getD {}
  let summary := (contentFields.bind (·.summaryLengths)).getD {}
  { counts with
    remoteContentDescriptionLocalLengthTotal :=
      counts.remoteContentDescriptionLocalLengthTotal + description.local
    remoteContentDescriptionRemoteLengthTotal :=
      counts.remoteContentDescriptionRemoteLengthTotal + description.remote
    remoteContentLocationLocalLengthTotal :=
      counts.remoteContentLocationLocalLengthTotal + location.local
    remoteContentLocationRemoteLengthTotal :=
      counts.remoteContentLocationRemoteLengthTotal + location.remote
    remoteContentSummaryLocalLengthTotal :=
      counts.remoteContentSummaryLocalLengthTotal + summary.local
    remoteContentSummaryRemoteLengthTotal :=
      counts.remoteContentSummaryRemoteLengthTotal + summary.remote }

def recordStaleReasons (counts : StaleReasonCounts) (localHashChanged : Bool)
    (remoteChanges : RemoteStateChanges) : StaleReasonCounts :=
  let fields := remoteChanges.contentFields
  let counts := { counts with
    localHashChanged := counts.localHashChanged + localHashChanged.toNat
    remoteAvailabilityChanged :=
      counts.remoteAvailabilityChanged + remoteChanges.availability.toNat
    remoteContentChanged := counts.remoteContentChanged + remoteChanges.content.toNat
    remoteContentAllDayChanged :=
      counts.remoteContentAllDayChanged + (fields.any (·.allDay)).toNat
    remoteContentDescriptionChanged :=
      counts.remoteContentDescriptionChanged + (fields.any (·.description)).toNat
    remoteContentLocationChanged :=
      counts.remoteContentLocationChanged + (fields.any (·.location)).toNat
    remoteContentSummaryChanged :=
      counts.remoteContentSummaryChanged + (fields.any (·.summary)).toNat
    remoteTimeChanged := counts.remoteTimeChanged + remoteChanges.time.toNat }
  recordRemoteContentLengths counts fields

/-- Why a mapping is stale. -/
inductive StaleReason
  | remoteMissing
  | changed (localHashChanged : Bool) (remoteChanges : RemoteStateChanges)

def StaleReason.record (counts : StaleReasonCounts) : StaleReason → StaleReasonCounts
  | remoteMissing => { counts with remoteMissing := counts.remoteMissing + 1 }
  | changed localHashChanged remoteChanges =>
    recordStaleReasons counts localHashChanged remoteChanges

def StaleMappingResult.push (result : StaleMappingResult) (mapping : EventMapping)
    (reason : StaleReason) : StaleMappingResult where
  staleReasonCounts := reason.record result.staleReasonCounts
  staleMappingIds := result.staleMappingIds ++ [mapping.id]
  staleMappedEventIds := result.staleMappedEventIds ++ [mapping.syncEventId]
  staleRemoteMappings := result.staleRemoteMappings ++ [mapping]

variable (host) in
/-- The body of the loop of `identifyStaleMappings`: the reason for which a mapping is stale. -/
def staleReason (localEventIds : List String) (remoteEventsByMappingId : JsMap String RemoteEvent)
    (localEventsById : JsMap String MaterializedSyncableEvent)
    (authoritativeMappingIds : Option (List String)) (mapping : EventMapping) :
    Option StaleReason :=
  let remoteReadCoversMapping := authoritativeMappingIds.all (·.contains mapping.id)
  if mapping.syncEventId ∈ localEventIds then
    match remoteEventsByMappingId.get? mapping.id with
    | none => if remoteReadCoversMapping then some .remoteMissing else none
    | some remoteEvent =>
      match localEventsById.get? mapping.syncEventId with
      | none => none
      | some localEvent =>
        let localHashChanged :=
          mapping.syncEventHash ≠ some (createSyncEventContentHash host localEvent)
        let remoteChanges := getRemoteStateChanges host mapping localEvent remoteEvent
        if localHashChanged || remoteChanges.any then some (.changed localHashChanged remoteChanges)
        else none
  else none

variable (host) in
def identifyStaleMappings (mappings : List EventMapping) (localEventIds : List String)
    (remoteEventsByMappingId : JsMap String RemoteEvent)
    (localEventsById : JsMap String MaterializedSyncableEvent)
    (authoritativeMappingIds : Option (List String)) : StaleMappingResult :=
  mappings.foldl (fun result mapping =>
    match staleReason host localEventIds remoteEventsByMappingId localEventsById
        authoritativeMappingIds mapping with
    | some reason => result.push mapping reason
    | none => result) {}

section Pass

variable {localEventIds : List String} {remoteEventsByMappingId : JsMap String RemoteEvent}
  {localEventsById : JsMap String MaterializedSyncableEvent}
  {authoritativeMappingIds : Option (List String)}

/-- What the pass collects of its stale mappings, from any result so far. -/
theorem foldl_push_staleReason {reason : EventMapping → Option StaleReason}
    (mappings : List EventMapping) (result : StaleMappingResult) :
    let final := mappings.foldl (fun result mapping =>
      match reason mapping with
      | some r => result.push mapping r
      | none => result) result
    let stale := mappings.filter fun m => (reason m).isSome
    final.staleRemoteMappings = result.staleRemoteMappings ++ stale ∧
      final.staleMappingIds = result.staleMappingIds ++ stale.map (·.id) ∧
      final.staleMappedEventIds = result.staleMappedEventIds ++ stale.map (·.syncEventId) := by
  induction mappings generalizing result with
  | nil => simp
  | cons m l ih =>
    cases h : reason m with
    | none => simpa [h] using ih result
    | some r => simpa [h, StaleMappingResult.push] using ih (result.push m r)

/-- **The pass returns the mappings that have a reason.** -/
theorem staleRemoteMappings_identifyStaleMappings (mappings : List EventMapping) :
    (identifyStaleMappings host mappings localEventIds remoteEventsByMappingId localEventsById
      authoritativeMappingIds).staleRemoteMappings =
      mappings.filter fun m => (staleReason host localEventIds remoteEventsByMappingId
        localEventsById authoritativeMappingIds m).isSome := by
  simpa [identifyStaleMappings] using (foldl_push_staleReason mappings {}).1

theorem staleMappingIds_identifyStaleMappings (mappings : List EventMapping) :
    (identifyStaleMappings host mappings localEventIds remoteEventsByMappingId localEventsById
      authoritativeMappingIds).staleMappingIds =
      (identifyStaleMappings host mappings localEventIds remoteEventsByMappingId localEventsById
        authoritativeMappingIds).staleRemoteMappings.map (·.id) := by
  rw [staleRemoteMappings_identifyStaleMappings]
  simpa [identifyStaleMappings] using (foldl_push_staleReason mappings {}).2.1

theorem staleMappedEventIds_identifyStaleMappings (mappings : List EventMapping) :
    (identifyStaleMappings host mappings localEventIds remoteEventsByMappingId localEventsById
      authoritativeMappingIds).staleMappedEventIds =
      (identifyStaleMappings host mappings localEventIds remoteEventsByMappingId localEventsById
        authoritativeMappingIds).staleRemoteMappings.map (·.syncEventId) := by
  rw [staleRemoteMappings_identifyStaleMappings]
  simpa [identifyStaleMappings] using (foldl_push_staleReason mappings {}).2.2

/-- **A mapping of a local event is not stale** iff the read does not cover its missing copy, or
its copy reflects the event and its hash is the event's. -/
theorem staleReason_eq_none_iff {mapping : EventMapping} {localEvent : MaterializedSyncableEvent}
    (hid : mapping.syncEventId ∈ localEventIds)
    (hl : localEventsById.get? mapping.syncEventId = some localEvent) :
    staleReason host localEventIds remoteEventsByMappingId localEventsById authoritativeMappingIds
        mapping = none ↔
      match remoteEventsByMappingId.get? mapping.id with
      | none => authoritativeMappingIds.all (·.contains mapping.id) = false
      | some remoteEvent =>
        mapping.syncEventHash = some (createSyncEventContentHash host localEvent) ∧
          Reflects host mapping localEvent remoteEvent := by
  simp only [staleReason, hid, if_true, hl]
  cases remoteEventsByMappingId.get? mapping.id with
  | none => simp
  | some remoteEvent =>
    dsimp only
    rw [← hasRemoteStateChanged_eq_false_iff]
    simp [hasRemoteStateChanged]

theorem mem_localEventIds_of_staleReason {mapping : EventMapping}
    (h : (staleReason host localEventIds remoteEventsByMappingId localEventsById
      authoritativeMappingIds mapping).isSome) : mapping.syncEventId ∈ localEventIds := by
  by_contra hid
  simp [staleReason, hid] at h

end Pass

end Keeper
