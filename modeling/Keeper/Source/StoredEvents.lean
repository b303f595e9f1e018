import Keeper.Foundations.Fallible
import Keeper.Recurrence.StoredRecurrence

/-!
# Source events and their stored rows

`SourceEvent` (`core/types.ts`), the key of an instance (`core/source/event-instance.ts`), the row an
event is written as (`core/source/write-event-states.ts`) and the row as it is read back
(`core/source/stored-event-state.ts`).

* `parseStoredSourceEventState_stored`: the row of an event is read back with the fields that it was
  written with.
-/

namespace Keeper

/-! ## Source events -/

inductive SourceEventType
  | default
  | focusTime
  | outOfOffice
  | tentative
  | workingLocation
  deriving DecidableEq

def SourceEventType.name : SourceEventType → String
  | default => "default"
  | focusTime => "focusTime"
  | outOfOffice => "outOfOffice"
  | tentative => "tentative"
  | workingLocation => "workingLocation"

/-- `SourceEvent`: an event as its source calendar reports it. -/
structure SourceEvent where
  uid : String
  sourceEventId : Option String := none
  startTime : ℤ
  endTime : ℤ
  sourceEventType : Option SourceEventType := none
  availability : Option EventAvailability := none
  isAllDay : Option Bool := none
  startTimeZone : Option String := none
  recurrenceDuration : Option IcsDuration := none
  recurrenceRule : Option IcsRecurrenceRule := none
  exceptionDates : Option (List IcsDateObject) := none
  recurrenceId : Option ℤ := none
  title : Option String := none
  description : Option String := none
  location : Option String := none
  deriving DecidableEq

def buildSourceEventInstanceKey (uid : String) (startTime endTime : ℤ) (recurrenceId : Option ℤ) :
    String :=
  match recurrenceId with
  | some recurrenceId => "recurrence|" ++ uid ++ "|" ++ Date.toISOString recurrenceId
  | none => "|".intercalate ["slot", uid, Date.toISOString startTime, Date.toISOString endTime]

def SourceEvent.instanceKey (event : SourceEvent) : String :=
  buildSourceEventInstanceKey event.uid event.startTime event.endTime event.recurrenceId

/-- What an instance key stands for: an override of a series, or a uid at a start and an end. -/
inductive InstanceSlot
  | recurrence (uid : String) (recurrenceId : ℤ)
  | slot (uid : String) (startTime endTime : ℤ)
  deriving DecidableEq

def instanceSlot (uid : String) (startTime endTime : ℤ) : Option ℤ → InstanceSlot
  | some recurrenceId => .recurrence uid recurrenceId
  | none => .slot uid startTime endTime

def SourceEvent.slot (event : SourceEvent) : InstanceSlot :=
  instanceSlot event.uid event.startTime event.endTime event.recurrenceId

theorem bar_not_mem_toISOString (t : ℤ) : '|' ∉ (Date.toISOString t).toList :=
  Date.not_mem_toISOString (by decide) (by decide) t

theorem toList_buildSourceEventInstanceKey (uid : String) (startTime endTime : ℤ)
    (recurrenceId : Option ℤ) :
    (buildSourceEventInstanceKey uid startTime endTime recurrenceId).toList =
      match recurrenceId with
      | some recurrenceId => "recurrence|".toList ++ uid.toList ++
          '|' :: (Date.toISOString recurrenceId).toList
      | none => "slot|".toList ++ uid.toList ++ '|' :: (Date.toISOString startTime).toList ++
          '|' :: (Date.toISOString endTime).toList := by
  cases recurrenceId with
  | some recurrenceId => simp [buildSourceEventInstanceKey]
  | none => simp [buildSourceEventInstanceKey, String.intercalate_cons_cons]

/-- **An instance key determines its slot**, whatever characters the uid has. -/
theorem buildSourceEventInstanceKey_eq_iff {uid uid' : String} {s e s' e' : ℤ}
    {r r' : Option ℤ} :
    buildSourceEventInstanceKey uid s e r = buildSourceEventInstanceKey uid' s' e' r' ↔
      instanceSlot uid s e r = instanceSlot uid' s' e' r' := by
  constructor
  · intro h
    have hchars := congrArg String.toList h
    rw [toList_buildSourceEventInstanceKey, toList_buildSourceEventInstanceKey] at hchars
    cases r with
    | some r =>
      cases r' with
      | some r' =>
        obtain ⟨huid, hr⟩ := Text.append_separator_inj (bar_not_mem_toISOString _)
          (bar_not_mem_toISOString _) hchars
        have huid' := String.toList_inj.1 (List.append_cancel_left huid)
        have hr' := Date.toISOString_injective (String.toList_inj.1 hr)
        rw [instanceSlot, instanceSlot, huid', hr']
      | none => simp at hchars
    | none =>
      cases r' with
      | some r' => simp at hchars
      | none =>
        obtain ⟨hrest, he⟩ := Text.append_separator_inj (bar_not_mem_toISOString _)
          (bar_not_mem_toISOString _) hchars
        obtain ⟨huid, hs⟩ := Text.append_separator_inj (bar_not_mem_toISOString _)
          (bar_not_mem_toISOString _) hrest
        have huid' := String.toList_inj.1 (List.append_cancel_left huid)
        have hs' := Date.toISOString_injective (String.toList_inj.1 hs)
        have he' := Date.toISOString_injective (String.toList_inj.1 he)
        rw [instanceSlot, instanceSlot, huid', hs', he']
  · intro h
    cases r <;> cases r' <;> simp only [instanceSlot, InstanceSlot.recurrence.injEq,
      InstanceSlot.slot.injEq, reduceCtorEq] at h
    · obtain ⟨rfl, rfl, rfl⟩ := h
      rfl
    · obtain ⟨rfl, rfl⟩ := h
      rfl

/-! ## Rows -/

/-- The columns of a row of `event_states` that an event fills; `NULL` is `none`. -/
structure EventStateColumns where
  availability : Option String := none
  description : Option String := none
  endTime : ℤ
  exceptionDates : Option String := none
  isAllDay : Option Bool := none
  location : Option String := none
  recurrenceId : Option ℤ := none
  recurrenceRule : Option String := none
  sourceEventId : Option String := none
  sourceEventType : Option String := none
  sourceEventUid : Option String := none
  startTime : ℤ
  startTimeZone : Option String := none
  title : Option String := none
  deriving DecidableEq

structure EventStateInsertRow extends EventStateColumns where
  calendarId : String
  deriving DecidableEq

/-- `StoredSourceEventState`: a stored row as it is read. -/
structure StoredSourceEventState extends EventStateColumns where
  id : String
  deriving DecidableEq

/-- `serializeOptionalJson`, of exception dates. -/
def serializeOptionalJson (value : Option (List IcsDateObject)) : Option String :=
  value.map fun dates => (icsExceptionDatesJson dates).stringify

def buildEventStateInsertRow (calendarId : String) (event : SourceEvent) : EventStateInsertRow where
  availability := event.availability.map (·.name)
  calendarId := calendarId
  description := event.description
  endTime := event.endTime
  exceptionDates := serializeOptionalJson event.exceptionDates
  isAllDay := event.isAllDay
  location := event.location
  recurrenceId := event.recurrenceId
  recurrenceRule := serializeStoredIcsRecurrenceRule event.recurrenceRule event.recurrenceDuration
  sourceEventId := event.sourceEventId
  sourceEventType := some (event.sourceEventType.getD .default).name
  sourceEventUid := some event.uid
  startTime := event.startTime
  startTimeZone := event.startTimeZone
  title := event.title

/-- A written row as it is read, under the id the database gave it. -/
def EventStateInsertRow.stored (row : EventStateInsertRow) (id : String) : StoredSourceEventState :=
  { row with id }

/-! ## Reading rows -/

/-- `ExistingSourceEventState`: a stored row with its recurrence fields parsed. -/
structure ExistingSourceEventState where
  availability : Option String := none
  description : Option String := none
  endTime : ℤ
  exceptionDates : Option (List IcsDateObject) := none
  id : String
  isAllDay : Option Bool := none
  location : Option String := none
  recurrenceDuration : Option IcsDuration := none
  recurrenceId : Option ℤ := none
  recurrenceRule : Option IcsRecurrenceRule := none
  sourceEventId : Option String := none
  sourceEventType : Option String := none
  sourceEventUid : Option String := none
  startTime : ℤ
  startTimeZone : Option String := none
  title : Option String := none
  deriving DecidableEq

def resolveExistingSourceEventInstanceKey (event : ExistingSourceEventState) : String :=
  buildSourceEventInstanceKey (event.sourceEventUid.getD "") event.startTime event.endTime
    event.recurrenceId

variable (ark : Arktype)

def parseStoredSourceEventState (event : StoredSourceEventState) :
    Except String ExistingSourceEventState := do
  let recurrence ← parseStoredRecurrenceForMaterialization ark event.id event.exceptionDates
    event.recurrenceId event.recurrenceRule
  let exceptionDates ← parseStoredIcsExceptionDates ark event.exceptionDates event.id
  return { availability := event.availability
           description := event.description
           endTime := event.endTime
           exceptionDates := exceptionDates
           id := event.id
           isAllDay := event.isAllDay
           location := event.location
           recurrenceDuration := recurrence.recurrenceDuration
           recurrenceId := event.recurrenceId
           recurrenceRule := recurrence.recurrenceRule
           sourceEventId := event.sourceEventId
           sourceEventType := event.sourceEventType
           sourceEventUid := event.sourceEventUid
           startTime := event.startTime
           startTimeZone := event.startTimeZone
           title := event.title }

structure StoredSourceEventParseFailure where
  error : String
  event : StoredSourceEventState
  eventId : String
  deriving DecidableEq

structure StoredSourceEventParseResult where
  events : List ExistingSourceEventState := []
  failures : List StoredSourceEventParseFailure := []

/-- One iteration of `parseStoredSourceEventStatesRecoveringInvalid`. -/
def recoverInvalid (result : StoredSourceEventParseResult) (storedEvent : StoredSourceEventState) :
    StoredSourceEventParseResult :=
  match parseStoredSourceEventState ark storedEvent with
  | .ok event => { result with events := result.events ++ [event] }
  | .error error =>
    { result with failures := result.failures ++ [⟨error, storedEvent, storedEvent.id⟩] }

/-- `parseStoredSourceEventStatesRecoveringInvalid`: a row that does not parse is set aside. -/
def parseStoredSourceEventStatesRecoveringInvalid (storedEvents : List StoredSourceEventState) :
    StoredSourceEventParseResult :=
  storedEvents.foldl (recoverInvalid ark) {}

/-- `buildInvalidStoredEventIdsToRemove`: the rows that do not parse and that the fetch does not
write over. -/
def buildInvalidStoredEventIdsToRemove (failures : List StoredSourceEventParseFailure)
    (incomingEvents : List SourceEvent) : List String :=
  let incomingProviderIds := incomingEvents.filterMap fun event => truthy event.sourceEventId
  let incomingFallbackKeys := (incomingEvents.filter fun event =>
    (truthy event.sourceEventId).isNone).map (·.instanceKey)
  failures.flatMap fun failure =>
    match truthy failure.event.sourceEventId with
    | some sourceEventId =>
      if incomingProviderIds.contains sourceEventId then [] else [failure.eventId]
    | none =>
      match failure.event.sourceEventUid with
      | none => [failure.eventId]
      | some uid =>
        if incomingFallbackKeys.contains (buildSourceEventInstanceKey uid failure.event.startTime
          failure.event.endTime failure.event.recurrenceId) then []
        else [failure.eventId]

/-! ## What is read of a row -/

variable {ark}

def SourceEvent.storedDates (event : SourceEvent) : List ℤ :=
  (event.recurrenceRule.map IcsRecurrenceRule.dates).getD [] ++
    (event.exceptionDates.getD []).flatMap IcsDateObject.dates

/-- The ISO strings of the dates that are stored inside JSON parse to their instants. -/
def SourceEvent.ReadBy (event : SourceEvent) (ark : Arktype) : Prop :=
  ∀ t ∈ event.storedDates, ark.ReadsIso t

variable {existing : ExistingSourceEventState} {row : StoredSourceEventState}
  {storedEvents : List StoredSourceEventState} {event : SourceEvent}

theorem parseStoredSourceEventState_ok {event : StoredSourceEventState}
    (h : parseStoredSourceEventState ark event = .ok existing) :
    existing.id = event.id ∧ existing.sourceEventId = event.sourceEventId ∧
      existing.sourceEventUid = event.sourceEventUid ∧ existing.startTime = event.startTime ∧
      existing.endTime = event.endTime ∧ existing.recurrenceId = event.recurrenceId := by
  rw [parseStoredSourceEventState] at h
  cases hr : parseStoredRecurrenceForMaterialization ark event.id event.exceptionDates
    event.recurrenceId event.recurrenceRule with
  | error e => rw [hr] at h; cases h
  | ok recurrence =>
    rw [hr] at h
    cases hd : parseStoredIcsExceptionDates ark event.exceptionDates event.id with
    | error e => simp [bind, Except.bind, hd] at h
    | ok dates =>
      simp only [bind, Except.bind, hd, pure, Except.pure, Except.ok.injEq] at h
      subst h
      exact ⟨rfl, rfl, rfl, rfl, rfl, rfl⟩

theorem duration_parseStoredSourceEventState {event : StoredSourceEventState}
    (h : parseStoredSourceEventState ark event = .ok existing) :
    existing.recurrenceDuration.isSome → existing.recurrenceRule.isSome := by
  obtain ⟨recurrence, hrecurrence, h⟩ := bind_eq_ok_iff.1 h
  obtain ⟨exceptionDates, -, h⟩ := bind_eq_ok_iff.1 h
  obtain ⟨_, -, hrecurrence⟩ := bind_eq_ok_iff.1 hrecurrence
  obtain ⟨rule, -, hrecurrence⟩ := bind_eq_ok_iff.1 hrecurrence
  obtain rfl := Except.ok.inj h
  obtain rfl := Except.ok.inj hrecurrence
  cases rule with
  | none => exact fun hsome => hsome
  | some rule => exact fun _ => rfl

def parsedRow (ark : Arktype) (row : StoredSourceEventState) : Option ExistingSourceEventState :=
  (parseStoredSourceEventState ark row).toOption

theorem parsedRow_eq_some_iff :
    parsedRow ark row = some existing ↔ parseStoredSourceEventState ark row = .ok existing := by
  unfold parsedRow
  cases parseStoredSourceEventState ark row <;> simp [Except.toOption]

theorem foldl_recoverInvalid (storedEvents : List StoredSourceEventState)
    (result : StoredSourceEventParseResult) :
    (storedEvents.foldl (recoverInvalid ark) result).events =
        result.events ++ storedEvents.filterMap (parsedRow ark) ∧
      ∀ failure ∈ (storedEvents.foldl (recoverInvalid ark) result).failures,
        failure ∈ result.failures ∨ failure.event ∈ storedEvents ∧
          parsedRow ark failure.event = none ∧ failure.eventId = failure.event.id := by
  induction storedEvents generalizing result with
  | nil => simp
  | cons row rows ih =>
    obtain ⟨hevents, hfailures⟩ := ih (recoverInvalid ark result row)
    rw [List.foldl_cons]
    cases hrow : parseStoredSourceEventState ark row with
    | ok event =>
      have hparsed : parsedRow ark row = some event := parsedRow_eq_some_iff.2 hrow
      simp only [recoverInvalid, hrow] at hevents hfailures ⊢
      refine ⟨by rw [hevents, List.filterMap_cons_some hparsed]; simp, fun failure hf => ?_⟩
      rcases hfailures failure hf with hf | ⟨hmem, hf⟩
      · exact Or.inl hf
      · exact Or.inr ⟨List.mem_cons_of_mem _ hmem, hf⟩
    | error error =>
      have hparsed : parsedRow ark row = none := by rw [parsedRow, hrow]; rfl
      simp only [recoverInvalid, hrow] at hevents hfailures ⊢
      refine ⟨by rw [hevents, List.filterMap_cons_none hparsed], fun failure hf => ?_⟩
      rcases hfailures failure hf with hf | ⟨hmem, hf⟩
      · rcases List.mem_append.1 hf with hf | hf
        · exact Or.inl hf
        · rw [List.mem_singleton] at hf
          subst hf
          exact Or.inr ⟨List.mem_cons_self, hparsed, rfl⟩
      · exact Or.inr ⟨List.mem_cons_of_mem _ hmem, hf⟩

/-- **The rows that parse**, in their order. -/
theorem events_parseRecovering (storedEvents : List StoredSourceEventState) :
    (parseStoredSourceEventStatesRecoveringInvalid ark storedEvents).events =
      storedEvents.filterMap (parsedRow ark) := by
  rw [parseStoredSourceEventStatesRecoveringInvalid, (foldl_recoverInvalid storedEvents {}).1]
  rfl

theorem mem_failures_parseRecovering {failure : StoredSourceEventParseFailure}
    (h : failure ∈ (parseStoredSourceEventStatesRecoveringInvalid ark storedEvents).failures) :
    failure.event ∈ storedEvents ∧ parsedRow ark failure.event = none ∧
      failure.eventId = failure.event.id := by
  rcases (foldl_recoverInvalid storedEvents {}).2 failure h with hf | hf
  · cases hf
  · exact hf

theorem exists_failure_foldl_recoverInvalid (hparse : parsedRow ark row = none)
    (result : StoredSourceEventParseResult)
    (h : (∃ failure ∈ result.failures, failure.event = row ∧ failure.eventId = row.id) ∨ row ∈ storedEvents) :
    ∃ failure ∈ (storedEvents.foldl (recoverInvalid ark) result).failures,
      failure.event = row ∧ failure.eventId = row.id := by
  induction storedEvents generalizing result with
  | nil => exact h.resolve_right List.not_mem_nil
  | cons first rows ih =>
    rw [List.foldl_cons]
    refine ih _ ?_
    rcases h with ⟨failure, hfailure, hrow⟩ | hmem
    · refine Or.inl ⟨failure, ?_, hrow⟩
      unfold recoverInvalid
      split
      · exact hfailure
      · exact List.mem_append_left _ hfailure
    · rcases List.mem_cons.1 hmem with rfl | hmem
      · left
        unfold recoverInvalid
        split
        · rename_i event hevent
          rw [parsedRow_eq_some_iff.2 hevent] at hparse
          cases hparse
        · exact ⟨_, List.mem_append_right _ (List.mem_singleton_self _), rfl, rfl⟩
      · exact Or.inr hmem

/-- **A stored row that does not parse** is a failure. -/
theorem exists_failure_parseRecovering (hrow : row ∈ storedEvents)
    (hparse : parsedRow ark row = none) :
    ∃ failure ∈ (parseStoredSourceEventStatesRecoveringInvalid ark storedEvents).failures,
      failure.event = row ∧ failure.eventId = row.id :=
  exists_failure_foldl_recoverInvalid hparse {} (Or.inr hrow)

/-- An event without the duration that is not stored: that of an event without a rule. -/
def SourceEvent.asStored (event : SourceEvent) : SourceEvent :=
  { event with
    recurrenceDuration := if event.recurrenceRule.isSome then event.recurrenceDuration else none }

theorem SourceEvent.asStored_eq_self
    (h : event.recurrenceDuration.isSome → event.recurrenceRule.isSome) :
    event.asStored = event := by
  unfold asStored
  cases hd : event.recurrenceDuration with
  | none => simp [← hd]
  | some d => simp [h (by simp [hd]), ← hd]

/-- The parsed row of an event. -/
def SourceEvent.existingState (event : SourceEvent) (id : String) : ExistingSourceEventState where
  availability := event.availability.map (·.name)
  description := event.description
  endTime := event.endTime
  exceptionDates := event.exceptionDates
  id := id
  isAllDay := event.isAllDay
  location := event.location
  recurrenceDuration := event.recurrenceDuration
  recurrenceId := event.recurrenceId
  recurrenceRule := event.recurrenceRule
  sourceEventId := event.sourceEventId
  sourceEventType := some (event.sourceEventType.getD .default).name
  sourceEventUid := some event.uid
  startTime := event.startTime
  startTimeZone := event.startTimeZone
  title := event.title

/-- **The row of an event** is read back with the fields it was written with. -/
theorem parseStoredSourceEventState_stored (hevent : event.ReadBy ark) (calendarId id : String) :
    parseStoredSourceEventState ark ((buildEventStateInsertRow calendarId event).stored id) =
      .ok (event.asStored.existingState id) := by
  have hreadRule : ∀ r ∈ event.recurrenceRule, ∀ t ∈ r.dates, ark.ReadsIso t := by
    intro r hr t ht
    refine hevent t (List.mem_append_left _ ?_)
    rw [Option.mem_def.1 hr]
    exact ht
  have hreadDates : ∀ l ∈ event.exceptionDates, ∀ d ∈ l, ∀ t ∈ d.dates, ark.ReadsIso t := by
    intro l hl d hd t ht
    refine hevent t (List.mem_append_right _ (List.mem_flatMap.2 ⟨d, ?_, ht⟩))
    rw [Option.mem_def.1 hl]
    exact hd
  have hdates := parseStoredIcsExceptionDates_serialize hreadDates id
  have hrule := parseStoredIcsRecurrence_serialize hreadRule event.recurrenceDuration id
  have hrecurrence : parseStoredRecurrenceForMaterialization ark id
      (serializeOptionalJson event.exceptionDates) event.recurrenceId
      (serializeStoredIcsRecurrenceRule event.recurrenceRule event.recurrenceDuration) =
      .ok { exceptionDates := event.exceptionDates.map fun dates => dates.map (·.date)
            recurrenceDuration := event.asStored.recurrenceDuration
            recurrenceId := event.recurrenceId
            recurrenceRule := event.recurrenceRule } := by
    rw [parseStoredRecurrenceForMaterialization, serializeOptionalJson, hdates, hrule,
      SourceEvent.asStored]
    cases event.recurrenceRule <;> rfl
  rw [parseStoredSourceEventState]
  show (parseStoredRecurrenceForMaterialization ark id
      (serializeOptionalJson event.exceptionDates) event.recurrenceId
      (serializeStoredIcsRecurrenceRule event.recurrenceRule event.recurrenceDuration) >>= _) = _
  rw [hrecurrence]
  show (parseStoredIcsExceptionDates ark (event.exceptionDates.map _) id >>= _) = _
  rw [hdates]
  rfl

theorem parsedRow_stored (hevent : event.ReadBy ark) (calendarId id : String) :
    parsedRow ark ((buildEventStateInsertRow calendarId event).stored id) =
      some (event.asStored.existingState id) :=
  parsedRow_eq_some_iff.2 (parseStoredSourceEventState_stored hevent calendarId id)

end Keeper
