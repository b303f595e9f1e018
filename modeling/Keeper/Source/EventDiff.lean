import Keeper.Core.ContentHash
import Keeper.Foundations.JsArray
import Keeper.Source.StoredEvents

/-!
# The diff of a fetch against the stored rows

`core/source/event-diff.ts`: the identity key of an event, the incoming events that are not stored as
they are, and the stored rows that the fetch does not hold any more.

* `buildSourceEventIdentityKey_stored`: a stored event has the identity key it was stored under.
-/

namespace Keeper

/-! ## Identity keys -/

/-- A value that may be `undefined` or `null`. -/
inductive Nullish (α : Type)
  | undefined
  | null
  | value (a : α)
  deriving DecidableEq

namespace Nullish

variable {α : Type}

/-- A missing property. -/
def ofOptional : Option α → Nullish α
  | none => undefined
  | some a => value a

def ofNullable : Option α → Nullish α
  | none => null
  | some a => value a

/-- `value ?? fallback`. -/
def getD (v : Nullish α) (fallback : α) : α :=
  match v with
  | value a => a
  | _ => fallback

end Nullish

structure SourceEventIdentityOptions where
  normalizeMissingMetadata : Bool := false

/-- `String` of a boolean. -/
def booleanText (b : Bool) : String := if b then "true" else "false"

def normalizeIdentityIsAllDay (isAllDay : Nullish Bool) (options : SourceEventIdentityOptions) :
    String :=
  if options.normalizeMissingMetadata then booleanText (isAllDay.getD false)
  else
    match isAllDay with
    | .undefined => "undefined"
    | .null => "null"
    | .value b => booleanText b

def normalizeIdentityContent (value : Option String) : String := (value.map Text.trim).getD ""

structure SourceEventIdentityInput where
  sourceEventId : Option String
  sourceEventInstanceKey : String
  sourceEventUid : String
  startTime : ℤ
  endTime : ℤ
  isAllDay : Nullish Bool
  availability : Option String
  sourceEventType : Option String
  title : Option String
  description : Option String
  location : Option String
  exceptionDates : Option (List IcsDateObject)
  recurrenceId : Option ℤ
  recurrenceDuration : Option IcsDuration
  recurrenceRule : Option IcsRecurrenceRule
  startTimeZone : Option String
  deriving DecidableEq

section Keys

variable (host : Host)

mutual

/-- `canonicalizeStructuredIdentityValue`: every array is sorted by the texts of its items. -/
def canonicalizeStructuredIdentityValue : Json → Json
  | .arr items =>
    .arr (JsArray.toSorted (fun first second =>
      host.localeCompare (host.stableStringify first) (host.stableStringify second))
      (canonicalizeItems items))
  | .obj fields => .obj (canonicalizeFields fields)
  | value => value

def canonicalizeItems : List Json → List Json
  | [] => []
  | v :: vs => canonicalizeStructuredIdentityValue v :: canonicalizeItems vs

def canonicalizeFields : List (String × Json) → List (String × Json)
  | [] => []
  | (k, v) :: fields => (k, canonicalizeStructuredIdentityValue v) :: canonicalizeFields fields

end

def serializeStructuredIdentityValue (value : Option Json) : String :=
  match value with
  | none => ""
  | some value => host.stableStringify (canonicalizeStructuredIdentityValue host value)

def sourceEventIdentityParts (input : SourceEventIdentityInput)
    (options : SourceEventIdentityOptions) : List String :=
  [input.sourceEventId.getD "",
    input.sourceEventUid,
    input.sourceEventInstanceKey,
    Date.toISOString input.startTime,
    Date.toISOString input.endTime,
    normalizeIdentityIsAllDay input.isAllDay options,
    input.availability.getD "",
    input.sourceEventType.getD "default",
    normalizeIdentityContent input.title,
    normalizeIdentityContent input.description,
    normalizeIdentityContent input.location,
    normalizeIdentityContent input.startTimeZone,
    serializeStructuredIdentityValue host (input.recurrenceDuration.map (·.toJson)),
    serializeStructuredIdentityValue host (input.recurrenceRule.map (·.toJson)),
    serializeStructuredIdentityValue host (input.exceptionDates.map icsExceptionDatesJson),
    isoOrEmpty input.recurrenceId]

def buildSourceEventIdentityKey (input : SourceEventIdentityInput)
    (options : SourceEventIdentityOptions) : String :=
  host.stableStringify (.strings (sourceEventIdentityParts host input options))

end Keys

/-- What the key of an incoming event reads. -/
def SourceEvent.identityInput (event : SourceEvent) : SourceEventIdentityInput where
  availability := event.availability.map (·.name)
  description := event.description
  endTime := event.endTime
  exceptionDates := event.exceptionDates
  isAllDay := .ofOptional event.isAllDay
  location := event.location
  recurrenceId := event.recurrenceId
  recurrenceDuration := event.recurrenceDuration
  recurrenceRule := event.recurrenceRule
  sourceEventInstanceKey := event.instanceKey
  sourceEventType := event.sourceEventType.map (·.name)
  sourceEventId := event.sourceEventId
  sourceEventUid := event.uid
  startTime := event.startTime
  startTimeZone := event.startTimeZone
  title := event.title

/-- What the key of a stored row reads. -/
def ExistingSourceEventState.identityInput (event : ExistingSourceEventState) (uid : String) :
    SourceEventIdentityInput where
  availability := event.availability
  description := event.description
  endTime := event.endTime
  exceptionDates := event.exceptionDates
  isAllDay := .ofNullable event.isAllDay
  location := event.location
  recurrenceId := event.recurrenceId
  recurrenceDuration := event.recurrenceDuration
  recurrenceRule := event.recurrenceRule
  sourceEventInstanceKey := resolveExistingSourceEventInstanceKey event
  sourceEventType := event.sourceEventType
  sourceEventId := event.sourceEventId
  sourceEventUid := uid
  startTime := event.startTime
  startTimeZone := event.startTimeZone
  title := event.title

/-! ## The diff -/

structure SourceEventDiffOptions where
  changedEventIds : Option (List String) := none
  isDeltaSync : Bool := false
  cancelledEventIds : Option (List String) := none

def SourceEvent.storageKey (event : SourceEvent) : String :=
  match truthy event.sourceEventId with
  | some sourceEventId => "provider:" ++ sourceEventId
  | none => "instance:" ++ event.instanceKey

/-- `deduplicateIncomingEvents`: the last event of each storage key. -/
def deduplicateIncomingEvents (incomingEvents : List SourceEvent) : List SourceEvent :=
  (JsMap.ofList (incomingEvents.map fun event => (event.storageKey, event))).values

section Diff

variable (host : Host)

/-- The identity key of a stored row, none without a uid. -/
def existingIdentityKey (options : SourceEventIdentityOptions)
    (existingEvent : ExistingSourceEventState) : Option String :=
  existingEvent.sourceEventUid.map fun uid =>
    buildSourceEventIdentityKey host (existingEvent.identityInput uid) options

def buildExistingEventIdentitySet (existingEvents : List ExistingSourceEventState)
    (options : SourceEventIdentityOptions) : List String :=
  existingEvents.filterMap (existingIdentityKey host options)

def buildSourceEventsToAdd (existingEvents : List ExistingSourceEventState)
    (incomingEvents : List SourceEvent) (options : SourceEventDiffOptions) : List SourceEvent :=
  let identityOptions : SourceEventIdentityOptions := ⟨options.isDeltaSync⟩
  let existingIdentities := buildExistingEventIdentitySet host existingEvents identityOptions
  (deduplicateIncomingEvents incomingEvents).filter fun incomingEvent =>
    !existingIdentities.contains
      (buildSourceEventIdentityKey host incomingEvent.identityInput identityOptions)

end Diff

def incomingProviderIds (normalizedIncomingEvents : List SourceEvent) : List String :=
  normalizedIncomingEvents.filterMap fun event => truthy event.sourceEventId

def providerBackedStorageIdentities (normalizedIncomingEvents : List SourceEvent) : List String :=
  (normalizedIncomingEvents.filter fun event => (truthy event.sourceEventId).isSome).map
    (·.instanceKey)

def isRemovedByDelta (normalizedIncomingEvents : List SourceEvent)
    (changedEventIds cancelledEventIds : List String) (existingEvent : ExistingSourceEventState) :
    Bool :=
  match truthy existingEvent.sourceEventId with
  | none =>
    existingEvent.sourceEventUid.isSome &&
      (providerBackedStorageIdentities normalizedIncomingEvents).contains
        (resolveExistingSourceEventInstanceKey existingEvent)
  | some sourceEventId =>
    cancelledEventIds.contains sourceEventId ||
      changedEventIds.contains sourceEventId &&
        !(incomingProviderIds normalizedIncomingEvents).contains sourceEventId

def isRemovedBySnapshot (normalizedIncomingEvents : List SourceEvent)
    (existingEvent : ExistingSourceEventState) : Bool :=
  match truthy existingEvent.sourceEventId with
  | some sourceEventId =>
    !(incomingProviderIds normalizedIncomingEvents).contains sourceEventId
  | none =>
    let existingStorageIdentityKey := resolveExistingSourceEventInstanceKey existingEvent
    existingEvent.sourceEventUid.isSome &&
      ((providerBackedStorageIdentities normalizedIncomingEvents).contains
          existingStorageIdentityKey ||
        !(normalizedIncomingEvents.map (·.instanceKey)).contains existingStorageIdentityKey)

def buildSourceEventStateIdsToRemove (existingEvents : List ExistingSourceEventState)
    (incomingEvents : List SourceEvent) (options : SourceEventDiffOptions) : List String :=
  let normalizedIncomingEvents := deduplicateIncomingEvents incomingEvents
  if options.isDeltaSync then
    (existingEvents.filter (isRemovedByDelta normalizedIncomingEvents
      (options.changedEventIds.getD []) (options.cancelledEventIds.getD []))).map (·.id)
  else
    (existingEvents.filter (isRemovedBySnapshot normalizedIncomingEvents)).map (·.id)

/-! ## Deduplicated events -/

/-- What a storage key stands for: a provider id, or a slot. -/
def SourceEvent.storageIdentity (event : SourceEvent) : String ⊕ InstanceSlot :=
  match truthy event.sourceEventId with
  | some sourceEventId => .inl sourceEventId
  | none => .inr event.slot

variable {e : SourceEvent} {events : List SourceEvent}

theorem SourceEvent.instanceKey_eq_iff {e' : SourceEvent} :
    e.instanceKey = e'.instanceKey ↔ e.slot = e'.slot :=
  buildSourceEventInstanceKey_eq_iff

/-- **A storage key determines what it stands for.** -/
theorem SourceEvent.storageKey_eq_iff {e' : SourceEvent} :
    e.storageKey = e'.storageKey ↔ e.storageIdentity = e'.storageIdentity := by
  have hdiff : ∀ a b : String, "provider:" ++ a ≠ "instance:" ++ b := by
    intro a b h
    have hchars := congrArg String.toList h
    simp at hchars
  unfold storageKey storageIdentity
  cases truthy e.sourceEventId with
  | some a =>
    cases truthy e'.sourceEventId with
    | some b =>
      constructor
      · intro h
        have hchars := congrArg String.toList h
        rw [String.toList_append, String.toList_append] at hchars
        rw [String.toList_inj.1 (List.append_cancel_left hchars)]
      · intro h
        rw [Sum.inl.inj h]
    | none => simp [hdiff]
  | none =>
    cases truthy e'.sourceEventId with
    | some b => simp [(hdiff _ _).symm]
    | none =>
      constructor
      · intro h
        have hchars := congrArg String.toList h
        rw [String.toList_append, String.toList_append] at hchars
        have hkey := String.toList_inj.1 (List.append_cancel_left hchars)
        rw [instanceKey_eq_iff.1 hkey]
      · intro h
        rw [instanceKey_eq_iff.2 (Sum.inr.inj h)]

theorem get?_deduplicated {k : String}
    (h : (JsMap.ofList (events.map fun event => (event.storageKey, event))).get? k = some e) :
    e ∈ events ∧ k = e.storageKey := by
  obtain ⟨f, hf, hfe⟩ := List.mem_map.1 (JsMap.get?_ofList_some h)
  obtain ⟨rfl, rfl⟩ := Prod.mk.inj hfe
  exact ⟨hf, rfl⟩

theorem mem_of_mem_deduplicateIncomingEvents (h : e ∈ deduplicateIncomingEvents events) :
    e ∈ events := by
  obtain ⟨k, hk⟩ := JsMap.mem_values_iff.1 h
  exact (get?_deduplicated hk).1

theorem exists_mem_deduplicateIncomingEvents (h : e ∈ events) :
    ∃ e' ∈ deduplicateIncomingEvents events, e'.storageIdentity = e.storageIdentity := by
  have hkey : e.storageKey ∈ (JsMap.ofList
      (events.map fun event => (event.storageKey, event))).keys := by
    rw [JsMap.mem_keys_ofList, List.map_map]
    exact List.mem_map.2 ⟨e, h, rfl⟩
  obtain ⟨e', he'⟩ := JsMap.mem_keys_iff.1 hkey
  exact ⟨e', JsMap.mem_values_iff.2 ⟨_, he'⟩,
    (SourceEvent.storageKey_eq_iff.1 (get?_deduplicated he').2).symm⟩

theorem SourceEvent.storageIdentity_eq_slot_iff {slot : InstanceSlot} :
    e.storageIdentity = .inr slot ↔ truthy e.sourceEventId = none ∧ e.slot = slot := by
  unfold storageIdentity
  cases truthy e.sourceEventId <;> simp

theorem SourceEvent.storageIdentity_eq_provider_iff {id : String} :
    e.storageIdentity = .inl id ↔ truthy e.sourceEventId = some id := by
  unfold storageIdentity
  cases truthy e.sourceEventId <;> simp

theorem nodup_deduplicateIncomingEvents (events : List SourceEvent) :
    ((deduplicateIncomingEvents events).map (·.storageIdentity)).Nodup := by
  have hkeys : (deduplicateIncomingEvents events).map (·.storageKey) =
      (JsMap.ofList (events.map fun event => (event.storageKey, event))).keys := by
    rw [deduplicateIncomingEvents, JsMap.values, JsMap.keys, List.map_map]
    refine List.map_congr_left fun entry hentry => ?_
    exact (get?_deduplicated (JsMap.mem_entries_iff.1 hentry)).2.symm
  have hnodup := (JsMap.ofList (events.map fun event => (event.storageKey, event))).keys_nodup
  rw [← hkeys, List.Nodup, List.pairwise_map] at hnodup
  rw [List.Nodup, List.pairwise_map]
  exact hnodup.imp fun hne heq => hne (SourceEvent.storageKey_eq_iff.2 heq)

theorem mem_incomingProviderIds {id : String} :
    id ∈ incomingProviderIds (deduplicateIncomingEvents events) ↔
      ∃ e ∈ events, truthy e.sourceEventId = some id := by
  rw [incomingProviderIds, List.mem_filterMap]
  constructor
  · rintro ⟨e, he, hid⟩
    exact ⟨e, mem_of_mem_deduplicateIncomingEvents he, hid⟩
  · rintro ⟨e, he, hid⟩
    obtain ⟨e', he', heq⟩ := exists_mem_deduplicateIncomingEvents he
    rw [SourceEvent.storageIdentity_eq_provider_iff.2 hid] at heq
    exact ⟨e', he', SourceEvent.storageIdentity_eq_provider_iff.1 heq⟩

/-! ## A stored event has its own identity key -/

theorem existingIdentityKey_existingState (host : Host) {event : SourceEvent}
    (hallDay : event.isAllDay.isSome) (id : String) (options : SourceEventIdentityOptions) :
    existingIdentityKey host options (event.existingState id) =
      some (buildSourceEventIdentityKey host event.identityInput options) := by
  obtain ⟨isAllDay, hisAllDay⟩ := Option.isSome_iff_exists.1 hallDay
  have htype : (some (event.sourceEventType.getD .default).name).getD "default" =
      (event.sourceEventType.map (·.name)).getD "default" := by
    cases event.sourceEventType <;> rfl
  simp only [existingIdentityKey, SourceEvent.existingState, Option.map_some,
    buildSourceEventIdentityKey, sourceEventIdentityParts,
    ExistingSourceEventState.identityInput, SourceEvent.identityInput, hisAllDay, htype]
  rfl

namespace Example

/-- A printer that keeps the order of keys, and the collation of code units. -/
def printingHost : Host := ⟨id, Json.stringify, Text.compareUnits⟩

/-- A schema package that reads what `Date.prototype.toISOString` writes. -/
def arktype : Arktype := ⟨Date.ofISOString, fun _ _ => "must be valid"⟩

theorem arktype_parsesIsoDates : arktype.ParsesIsoDates := by
  intro t ht
  have hread : arktype.isoDate = Date.ofISOString := rfl
  rw [Arktype.ReadsIso, hread]
  exact Date.ofISOString_toISOString ht

/-- A weekly series of half-hour meetings, with one of them cancelled. -/
def weeklyMeeting : SourceEvent where
  uid := "meeting"
  startTime := 1773050400000
  endTime := 1773052200000
  isAllDay := some false
  recurrenceDuration := some { minutes := some 30 }
  recurrenceRule := some { frequency := .weekly, «until» := some { date := 1780000000000 } }
  exceptionDates := some [{ date := 1773655200000, type := some .dateTime }]
  title := some " Meeting "

end Example

end Keeper
