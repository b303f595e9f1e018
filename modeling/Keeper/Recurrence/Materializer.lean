import Keeper.Core.ContentHash
import Keeper.Foundations.Fallible
import Keeper.Foundations.JsArray
import Keeper.Foundations.JsMap
import Keeper.Recurrence.TimeZones

/-!
# Materializing recurring events

`core/events/recurrence-materializer.ts`: the occurrences of recurring masters in a window, the
overrides and one-off events beside them, and the limit of ten thousand occurrences a series. The
recurrence engine (`rrule`) is a parameter: it lists the occurrences of a rule between two wall
times.

* `materializeMaster_eq_limit_iff`: a master fails with the limit iff it is over budget.
* `materializeRecurrenceEvents_ok`: what a materialization holds, and the errors it reports.
-/

namespace Keeper

open JsArray

/-! ## Options of the recurrence engine -/

/-- The options that the materializer gives to `RRule`. -/
structure RRuleOptions where
  freq : IcsFrequency
  dtstart : ℤ
  interval : Option ℤ := none
  count : Option ℤ := none
  «until» : Option ℤ := none
  bysecond : Option (List ℤ) := none
  byminute : Option (List ℤ) := none
  byhour : Option (List ℤ) := none
  byweekday : Option (List IcsByDay) := none
  bymonthday : Option (List ℤ) := none
  byyearday : Option (List ℤ) := none
  byweekno : Option (List ℤ) := none
  bymonth : Option (List ℤ) := none
  bysetpos : Option (List ℤ) := none
  wkst : Option IcsWeekDay := none

/-- What the materializer takes from the host and from packages: hashes, time zones and the
occurrences of a rule between two wall times, both included. -/
structure Runtime where
  host : Host
  zones : Zones
  between : RRuleOptions → ℤ → ℤ → Except RangeError (List ℤ)

/-! ## Errors -/

structure RecurrenceMaterializationLimitError where
  calendarId : String
  eventId : String
  eventStateId : Option String
  limit : ℕ
  sourceEventUid : String
  deriving DecidableEq

inductive MaterializationError
  | limit (error : RecurrenceMaterializationLimitError)
  | range (error : RangeError)
  deriving DecidableEq

def maxOccurrencesPerSeries : ℕ := 10000

/-- The error of a series over budget. -/
def SyncableEvent.limitError (master : SyncableEvent) : RecurrenceMaterializationLimitError where
  calendarId := master.calendarId
  eventId := master.id
  eventStateId := master.eventStateId
  limit := maxOccurrencesPerSeries
  sourceEventUid := master.sourceEventUid

/-- A `RangeError` of a computation as an error of the materialization. -/
def liftRange {α : Type} : Except RangeError α → Except MaterializationError α
  | .ok a => .ok a
  | .error e => .error (.range e)

/-! ## Rules -/

def highFrequencyIntervalMs : IcsFrequency → Option ℤ
  | .hourly => some (60 * 60 * 1000)
  | .minutely => some (60 * 1000)
  | .secondly => some 1000
  | _ => none

def hasOccurrenceSelectors (rule : IcsRecurrenceRule) : Bool :=
  rule.byDay.isSome || rule.byHour.isSome || rule.byMinute.isSome || rule.byMonth.isSome ||
    rule.byMonthday.isSome || rule.bySecond.isSome || rule.bySetPos.isSome ||
    rule.byWeekNo.isSome || rule.byYearday.isSome

def stepsInElapsedTime (rule : IcsRecurrenceRule) : Bool :=
  (highFrequencyIntervalMs rule.frequency).isSome && !hasOccurrenceSelectors rule

section Materializer

variable (rt : Runtime)

def toRecurrenceWallTime (date : ℤ) (timeZone : Option String) : ℤ :=
  match timeZone with
  | none => date
  | some timeZone => rt.zones.instantToWallTime date timeZone

def fromRecurrenceWallTime (date : ℤ) (timeZone : Option String) : Except RangeError ℤ :=
  match timeZone with
  | none => .ok date
  | some timeZone => wallTimeToInstant rt.zones date timeZone

def isSeriesExhaustedBeforeWindow (rule : IcsRecurrenceRule) (recurrenceWindowStart : ℤ)
    (timeZone : Option String) : Bool :=
  rule.until.any fun «until» => toRecurrenceWallTime rt until.date timeZone < recurrenceWindowStart

/-- `toRRuleOptions`. A week day of the source's type is one that the engine knows. -/
def toRRuleOptions (rule : IcsRecurrenceRule) (recurrenceStart : ℤ) (timeZone : Option String) :
    RRuleOptions where
  freq := rule.frequency
  dtstart := recurrenceStart
  interval := rule.interval
  count := rule.count
  «until» := rule.until.map fun «until» => toRecurrenceWallTime rt until.date timeZone
  bysecond := rule.bySecond
  byminute := rule.byMinute
  byhour := rule.byHour
  byweekday := rule.byDay
  bymonthday := rule.byMonthday
  byyearday := rule.byYearday
  byweekno := rule.byWeekNo
  bymonth := rule.byMonth.map fun months => months.map (· + 1)
  bysetpos := rule.bySetPos
  wkst := rule.workweekStart

/-- `Math.ceil` of a quotient by a positive number. -/
def ceilDiv (a b : ℤ) : ℤ := -(-a / b)

/-- The occurrences that `assertUnfilteredHighFrequencyRuleWithinBudget` counts; none for a rule
that it does not judge. -/
def potentialOccurrences (rule : IcsRecurrenceRule)
    (recurrenceStart recurrenceWindowStart recurrenceEnd : ℤ) (timeZone : Option String) : ℤ :=
  match highFrequencyIntervalMs rule.frequency with
  | none => 0
  | some baseInterval =>
    if hasOccurrenceSelectors rule then 0
    else
      let intervalMilliseconds := baseInterval * max (rule.interval.getD 1) 1
      let untilTime := (rule.until.map fun «until» =>
        toRecurrenceWallTime rt until.date timeZone).getD recurrenceEnd
      let boundedEndTime := min recurrenceEnd untilTime
      let firstOccurrenceIndex :=
        max (ceilDiv (recurrenceWindowStart - recurrenceStart) intervalMilliseconds) 0
      let lastOccurrenceIndex := (boundedEndTime - recurrenceStart) / intervalMilliseconds
      let lastOccurrenceIndex := match rule.count with
        | none => lastOccurrenceIndex
        | some count => min lastOccurrenceIndex (count - 1)
      max (lastOccurrenceIndex - firstOccurrenceIndex + 1) 0

structure SeriesTimeZones where
  expansionTimeZone : Option String := none
  seriesTimeZone : Option String := none

def resolveSeriesTimeZones (master : SyncableEvent) (rule : IcsRecurrenceRule) :
    Except RangeError SeriesTimeZones := do
  let timeZone ← resolveTimeZone rt.zones master.startTimeZone
  if resolveIsAllDayEvent master.isAllDay master.startTime master.endTime then pure {}
  else if stepsInElapsedTime rule then pure { seriesTimeZone := timeZone }
  else pure { expansionTimeZone := timeZone, seriesTimeZone := timeZone }

/-! ## One series -/

/-- How far before the window an occurrence can start and reach into it. -/
def SyncableEvent.lookback (master : SyncableEvent) : ℤ :=
  match master.recurrenceDuration with
  | none => master.endTime - master.startTime
  | some duration => getIcsDurationNominalMilliseconds duration + msPerDay

/-- The wall times of the occurrences that `materializeMaster` goes through, or the limit. -/
def occurrenceStarts (master : SyncableEvent) (rule : IcsRecurrenceRule) (window : SyncWindow)
    (timeZone : Option String) : Except MaterializationError (List ℤ) :=
  let recurrenceStart := toRecurrenceWallTime rt master.startTime timeZone
  let recurrenceEnd := toRecurrenceWallTime rt window.timeMax timeZone
  let recurrenceWindowStart :=
    toRecurrenceWallTime rt (window.timeMin - max master.lookback 0) timeZone
  if isSeriesExhaustedBeforeWindow rt rule recurrenceWindowStart timeZone then .ok []
  else if maxOccurrencesPerSeries <
      potentialOccurrences rt rule recurrenceStart recurrenceWindowStart recurrenceEnd timeZone then
    .error (.limit master.limitError)
  else
    match rt.between (toRRuleOptions rt rule recurrenceStart timeZone) recurrenceWindowStart
        recurrenceEnd with
    | .error e => .error (.range e)
    | .ok starts =>
      -- the callback of the source stops the engine at the first occurrence past the limit
      if maxOccurrencesPerSeries < starts.length then .error (.limit master.limitError)
      else .ok starts

def asOneOffEvent (event : SyncableEvent) : MaterializedSyncableEvent :=
  event.toMaterializedSyncableEvent

def createSyntheticOccurrenceId (master : SyncableEvent) (occurrenceStart occurrenceEnd : ℤ) :
    String :=
  let seed := Json.stringify (.strings [master.calendarId, master.sourceEventUid,
    Date.toISOString master.startTime, Date.toISOString master.endTime,
    Date.toISOString occurrenceStart, Date.toISOString occurrenceEnd])
  "recurrence-" ++ rt.host.sha256 seed

def SyncableEvent.ownStateId (master : SyncableEvent) : String :=
  master.eventStateId.getD master.id

/-- `resolveOccurrenceEnd` of `createMaterializedOccurrence`. -/
def resolveOccurrenceEnd (master : SyncableEvent) (occurrenceStart : ℤ)
    (seriesTimeZone : Option String) : Except RangeError ℤ :=
  match master.recurrenceDuration with
  | some duration => addIcsDuration rt.zones occurrenceStart duration seriesTimeZone
  | none => .ok (occurrenceStart + (master.endTime - master.startTime))

def createMaterializedOccurrence (master : SyncableEvent) (occurrenceStart : ℤ)
    (seriesTimeZone : Option String) : Except RangeError MaterializedSyncableEvent := do
  let occurrenceEnd ← resolveOccurrenceEnd rt master occurrenceStart seriesTimeZone
  pure { asOneOffEvent master with
    endTime := occurrenceEnd
    eventStateId := some master.ownStateId
    id := createSyntheticOccurrenceId rt master occurrenceStart occurrenceEnd
    startTime := occurrenceStart }

/-- The occurrences of a master at these wall times: each slot once, without the excluded and
overridden ones, and only what overlaps the window. -/
def emitOccurrences (master : SyncableEvent) (overriddenSlots : List ℤ) (window : SyncWindow)
    (timeZones : SeriesTimeZones) :
    List ℤ → List ℤ → Except RangeError (List MaterializedSyncableEvent)
  | [], _ => .ok []
  | occurrenceStartWallTime :: rest, emittedSlots => do
    let slot ← fromRecurrenceWallTime rt occurrenceStartWallTime timeZones.expansionTimeZone
    if (master.exceptionDates.getD []).contains slot || overriddenSlots.contains slot ||
        emittedSlots.contains slot then
      emitOccurrences master overriddenSlots window timeZones rest emittedSlots
    else
      let occurrence ← createMaterializedOccurrence rt master slot timeZones.seriesTimeZone
      let others ← emitOccurrences master overriddenSlots window timeZones rest
        (slot :: emittedSlots)
      pure (if window.overlaps occurrence.range then occurrence :: others else others)

def materializeMaster (master : SyncableEvent) (overriddenSlots : List ℤ) (window : SyncWindow) :
    Except MaterializationError (List MaterializedSyncableEvent) :=
  match master.recurrenceRule with
  | none => .ok []
  | some rule =>
    if window.timeMax ≤ master.startTime then .ok []
    else do
      let timeZones ← liftRange (resolveSeriesTimeZones rt master rule)
      let starts ← occurrenceStarts rt master rule window timeZones.expansionTimeZone
      liftRange (emitOccurrences rt master overriddenSlots window timeZones starts [])

def isOverBudget (master : SyncableEvent) (window : SyncWindow) : Bool :=
  match materializeMaster rt master [] window with
  | .error (.limit _) => true
  | _ => false

/-! ## All series -/

/-- A recurring master: a rule and no recurrence id. -/
def SyncableEvent.isMaster (event : SyncableEvent) : Bool :=
  event.recurrenceRule.isSome && event.recurrenceId.isNone

structure SuppressedOverride where
  calendarId : String
  recurrenceId : Option ℤ
  sourceEventUid : String

def SyncableEvent.override (event : SyncableEvent) : SuppressedOverride where
  calendarId := event.calendarId
  recurrenceId := event.recurrenceId
  sourceEventUid := event.sourceEventUid

/-- `getSeriesKey`: the two texts, which the source prints as JSON. -/
def SuppressedOverride.seriesKey (event : SuppressedOverride) : String × String :=
  (event.calendarId, event.sourceEventUid)

def getUniqueMastersBySeries (events : List SyncableEvent) :
    JsMap (String × String) SyncableEvent :=
  let mastersBySeries :=
    JsMap.group ((events.filter (·.isMaster)).map fun event => (event.override.seriesKey, event))
  JsMap.ofList (mastersBySeries.entries.filterMap fun
    | (seriesKey, [master]) => some (seriesKey, master)
    | _ => none)

def getOverriddenSlotsByMaster (events : List SuppressedOverride)
    (uniqueMastersBySeries : JsMap (String × String) SyncableEvent) :
    JsMap SyncableEvent (List ℤ) :=
  JsMap.group (events.filterMap fun event =>
    match event.recurrenceId, uniqueMastersBySeries.get? event.seriesKey with
    | some recurrenceId, some master => some (master, recurrenceId)
    | _, _ => none)

def getEventSortKey (event : MaterializedSyncableEvent) : String :=
  Json.stringify (.arr [.str (Date.toISOString event.startTime),
    .str (Date.toISOString event.endTime), .str event.calendarId, .str event.sourceEventUid,
    .str event.id, .str event.summary, .str (event.description.getD ""),
    .str (event.location.getD ""), .str ((event.availability.map (·.name)).getD ""),
    .bool (event.isAllDay.getD false), .str (event.startTimeZone.getD "")])

def compareEvents (first second : MaterializedSyncableEvent) : ℤ :=
  Text.compareUnits (getEventSortKey first) (getEventSortKey second)

/-- What the pass over the masters has collected. -/
structure SeriesPass where
  materializedEvents : List MaterializedSyncableEvent := []
  skippedSeriesUids : List String := []
  overBudget : List RecurrenceMaterializationLimitError := []

/-- One iteration of the pass over the masters. With a handler (`isolates`) a series over budget is
skipped and reported; without one it fails the materialization. -/
def materializeSeries (isolates : Bool) (overriddenSlotsByMaster : JsMap SyncableEvent (List ℤ))
    (window : SyncWindow) (pass : SeriesPass) (event : SyncableEvent) :
    Except MaterializationError SeriesPass :=
  if event.isMaster then
    match materializeMaster rt event ((overriddenSlotsByMaster.get? event).getD []) window with
    | .ok occurrences =>
      .ok { pass with materializedEvents := pass.materializedEvents ++ occurrences }
    | .error (.limit error) =>
      if isolates then
        .ok { pass with
          skippedSeriesUids := pass.skippedSeriesUids ++ [event.sourceEventUid]
          overBudget := pass.overBudget ++ [error] }
      else .error (.limit error)
    | .error (.range error) => .error (.range error)
  else .ok pass

/-- What the second pass emits of an event: overrides of skipped series are left out. -/
def emitOneOff (skippedSeriesUids : List String) (window : SyncWindow) (event : SyncableEvent) :
    Option MaterializedSyncableEvent :=
  if event.isMaster then none
  else if event.recurrenceId.isSome && skippedSeriesUids.contains event.sourceEventUid then none
  else
    let oneOffEvent := asOneOffEvent event
    if window.overlaps oneOffEvent.range then some oneOffEvent else none

/-- The events of a materialization and the errors that it reported to its handler. -/
structure Materialization where
  events : List MaterializedSyncableEvent
  overBudget : List RecurrenceMaterializationLimitError

def assertValidWindow (window : SyncWindow) : Except MaterializationError PUnit :=
  if window.timeMax ≤ window.timeMin then
    .error (.range "Recurrence materialization requires a valid, non-empty window")
  else .ok ⟨⟩

def materializeRecurrenceEvents (events : List SyncableEvent) (window : SyncWindow)
    (isolates : Bool) (suppressedOverrides : List SuppressedOverride) :
    Except MaterializationError Materialization := do
  assertValidWindow window
  let uniqueMastersBySeries := getUniqueMastersBySeries events
  let overriddenSlotsByMaster := getOverriddenSlotsByMaster
    (events.map (·.override) ++ suppressedOverrides) uniqueMastersBySeries
  let pass ← events.foldlM (materializeSeries rt isolates overriddenSlotsByMaster window) {}
  let oneOffEvents := events.filterMap (emitOneOff pass.skippedSeriesUids window)
  pure
    { events := toSorted compareEvents (pass.materializedEvents ++ oneOffEvents)
      overBudget := pass.overBudget }

end Materializer

/-! ## What a materialization holds -/

section Lemmas

variable {rt : Runtime} {master event : SyncableEvent} {window : SyncWindow} {isolates : Bool}

theorem liftRange_ne_limit {α : Type} (x : Except RangeError α)
    (error : RecurrenceMaterializationLimitError) : liftRange x ≠ .error (.limit error) := by
  cases x <;> simp [liftRange]

variable {error : RecurrenceMaterializationLimitError} {e : MaterializedSyncableEvent}
  {l : List MaterializedSyncableEvent} {slots : JsMap SyncableEvent (List ℤ)} {pass : SeriesPass}

theorem occurrenceStarts_limit {rule : IcsRecurrenceRule} {timeZone : Option String}
    (h : occurrenceStarts rt master rule window timeZone = .error (.limit error)) :
    error = master.limitError := by
  unfold occurrenceStarts at h
  dsimp only at h
  split_ifs at h
  · cases h
    rfl
  · split at h
    · cases h
    · split_ifs at h
      cases h
      rfl

theorem materializeMaster_limit {slots : List ℤ} (slots' : List ℤ)
    (h : materializeMaster rt master slots window = .error (.limit error)) :
    error = master.limitError ∧
      materializeMaster rt master slots' window = .error (.limit error) := by
  unfold materializeMaster at h ⊢
  cases hrule : master.recurrenceRule with
  | none => simp [hrule] at h
  | some rule =>
    simp only [hrule] at h ⊢
    split_ifs at h ⊢
    rcases bind_eq_error_iff.1 h with hz | ⟨timeZones, hz, h⟩
    · exact absurd hz (liftRange_ne_limit _ _)
    rcases bind_eq_error_iff.1 h with hs | ⟨starts, hs, h⟩
    · exact ⟨occurrenceStarts_limit hs, bind_eq_error_iff.2 (Or.inr ⟨timeZones, hz,
        bind_eq_error_iff.2 (Or.inl hs)⟩)⟩
    · exact absurd h (liftRange_ne_limit _ _)

/-- **A master fails with the limit** iff it is over budget. -/
theorem materializeMaster_eq_limit_iff (slots : List ℤ) :
    materializeMaster rt master slots window = .error (.limit error) ↔
      isOverBudget rt master window = true ∧ error = master.limitError := by
  constructor
  · intro h
    obtain ⟨he, h'⟩ := materializeMaster_limit [] h
    refine ⟨?_, he⟩
    rw [isOverBudget, h']
  · rintro ⟨hover, rfl⟩
    unfold isOverBudget at hover
    split at hover
    · rename_i error' h
      obtain ⟨rfl, h'⟩ := materializeMaster_limit slots h
      exact h'
    · cases hover

/-- An occurrence of a master: it has a synthetic id and belongs to the master's event state. -/
structure IsOccurrence (rt : Runtime) (master : SyncableEvent) (e : MaterializedSyncableEvent) :
    Prop where
  id : ∃ occurrenceStart occurrenceEnd,
    e.id = createSyntheticOccurrenceId rt master occurrenceStart occurrenceEnd
  eventStateId : e.eventStateId = some master.ownStateId

theorem createMaterializedOccurrence_ok {start : ℤ} {timeZone : Option String}
    (h : createMaterializedOccurrence rt master start timeZone = .ok e) :
    IsOccurrence rt master e := by
  obtain ⟨occurrenceEnd, -, h⟩ := bind_eq_ok_iff.1 h
  obtain rfl := Except.ok.inj h
  exact ⟨⟨start, occurrenceEnd, rfl⟩, rfl⟩

/-- What the pass over the wall times returns are occurrences at slots. -/
theorem exists_slot_of_mem_emitOccurrences {slots starts emitted : List ℤ}
    {timeZones : SeriesTimeZones}
    (h : emitOccurrences rt master slots window timeZones starts emitted = .ok l) (he : e ∈ l) :
    ∃ slot, createMaterializedOccurrence rt master slot timeZones.seriesTimeZone = .ok e := by
  induction starts generalizing emitted l with
  | nil =>
    obtain rfl := Except.ok.inj h
    cases he
  | cons start starts ih =>
    rw [emitOccurrences] at h
    obtain ⟨slot, -, h⟩ := bind_eq_ok_iff.1 h
    split_ifs at h
    · exact ih h he
    · obtain ⟨occurrence, hocc, h⟩ := bind_eq_ok_iff.1 h
      obtain ⟨others, hrest, h⟩ := bind_eq_ok_iff.1 h
      obtain rfl := Except.ok.inj h
      split_ifs at he
      · rcases List.mem_cons.1 he with rfl | he
        · exact ⟨slot, hocc⟩
        · exact ih hrest he
      · exact ih hrest he

theorem liftRange_eq_ok_iff {α : Type} {x : Except RangeError α} {a : α} :
    liftRange x = .ok a ↔ x = .ok a := by
  cases x <;> simp [liftRange]

theorem exists_slot_of_mem_materializeMaster {slots : List ℤ}
    (h : materializeMaster rt master slots window = .ok l) (he : e ∈ l) :
    ∃ slot timeZone, createMaterializedOccurrence rt master slot timeZone = .ok e := by
  unfold materializeMaster at h
  split at h
  · obtain rfl := Except.ok.inj h
    cases he
  · split_ifs at h
    · obtain rfl := Except.ok.inj h
      cases he
    · obtain ⟨timeZones, -, h⟩ := bind_eq_ok_iff.1 h
      obtain ⟨starts, -, h⟩ := bind_eq_ok_iff.1 h
      obtain ⟨slot, hslot⟩ := exists_slot_of_mem_emitOccurrences (liftRange_eq_ok_iff.1 h) he
      exact ⟨slot, timeZones.seriesTimeZone, hslot⟩

/-- **What `materializeMaster` returns** are occurrences of the master. -/
theorem isOccurrence_of_mem_materializeMaster {slots : List ℤ}
    (h : materializeMaster rt master slots window = .ok l) (he : e ∈ l) :
    IsOccurrence rt master e := by
  obtain ⟨slot, timeZone, hslot⟩ := exists_slot_of_mem_materializeMaster h he
  exact createMaterializedOccurrence_ok hslot

theorem calendarId_of_mem_materializeMaster {slots : List ℤ}
    (h : materializeMaster rt master slots window = .ok l) (he : e ∈ l) :
    e.calendarId = master.calendarId := by
  obtain ⟨slot, timeZone, hslot⟩ := exists_slot_of_mem_materializeMaster h he
  obtain ⟨occurrenceEnd, -, hslot⟩ := bind_eq_ok_iff.1 hslot
  obtain rfl := Except.ok.inj hslot
  rfl

/-- A master that is over budget in the window. -/
def isSkipped (rt : Runtime) (window : SyncWindow) (event : SyncableEvent) : Bool :=
  event.isMaster && isOverBudget rt event window

/-- What the pass over the masters has collected of the events it has seen. -/
structure Collected (rt : Runtime) (window : SyncWindow) (seen : List SyncableEvent)
    (pass : SeriesPass) : Prop where
  occurrences : ∀ e ∈ pass.materializedEvents, ∃ master ∈ seen, master.isMaster = true ∧
    IsOccurrence rt master e
  skipped : pass.skippedSeriesUids = (seen.filter (isSkipped rt window)).map (·.sourceEventUid)
  overBudget : pass.overBudget = (seen.filter (isSkipped rt window)).map (·.limitError)

/-- **What one iteration of the pass does**: nothing, the occurrences of a master, or the report of
its limit. -/
theorem materializeSeries_cases {next : SeriesPass}
    (h : materializeSeries rt isolates slots window pass event = .ok next) :
    event.isMaster = false ∧ next = pass ∨
      (event.isMaster = true ∧ ∃ l,
        materializeMaster rt event ((slots.get? event).getD []) window = .ok l ∧
        next = { pass with materializedEvents := pass.materializedEvents ++ l }) ∨
      (event.isMaster = true ∧
        materializeMaster rt event ((slots.get? event).getD []) window =
          .error (.limit event.limitError) ∧
        isolates = true ∧
        next = { pass with
          skippedSeriesUids := pass.skippedSeriesUids ++ [event.sourceEventUid]
          overBudget := pass.overBudget ++ [event.limitError] }) := by
  unfold materializeSeries at h
  cases hmaster : event.isMaster with
  | false =>
    rw [if_neg (by simp [hmaster])] at h
    exact Or.inl ⟨rfl, (Except.ok.inj h).symm⟩
  | true =>
    rw [if_pos hmaster] at h
    cases hmat : materializeMaster rt event ((slots.get? event).getD []) window with
    | ok l =>
      rw [hmat] at h
      exact Or.inr (Or.inl ⟨rfl, l, rfl, (Except.ok.inj h).symm⟩)
    | error error =>
      cases error with
      | range error => simp [hmat] at h
      | limit error =>
        obtain ⟨-, rfl⟩ := (materializeMaster_eq_limit_iff _).1 hmat
        simp only [hmat] at h
        split_ifs at h with hisolates
        exact Or.inr (Or.inr ⟨rfl, rfl, hisolates, (Except.ok.inj h).symm⟩)

theorem Collected.emit {seen : List SyncableEvent} (h : Collected rt window seen pass)
    (hno : isSkipped rt window event = false)
    (hl : ∀ e ∈ l, event.isMaster = true ∧ IsOccurrence rt event e) :
    Collected rt window (seen ++ [event])
      { pass with materializedEvents := pass.materializedEvents ++ l } where
  occurrences e he := by
    rcases List.mem_append.1 he with he | he
    · obtain ⟨master, hmaster, hocc⟩ := h.occurrences e he
      exact ⟨master, List.mem_append_left _ hmaster, hocc⟩
    · exact ⟨event, by simp, hl e he⟩
  skipped := by simp [List.filter_append, hno, h.skipped]
  overBudget := by simp [List.filter_append, hno, h.overBudget]

/-- **One iteration of the pass** collects what the event gives. -/
theorem materializeSeries_ok {seen : List SyncableEvent} {final : SeriesPass}
    (hc : Collected rt window seen pass)
    (h : materializeSeries rt isolates slots window pass event = .ok final) :
    Collected rt window (seen ++ [event]) final := by
  rcases materializeSeries_cases h with ⟨hm, rfl⟩ | ⟨hm, l, hmat, rfl⟩ | ⟨hm, hlimit, -, rfl⟩
  · simpa using hc.emit (by simp [isSkipped, hm] : isSkipped rt window event = false)
      (by simp : ∀ e ∈ [], event.isMaster = true ∧ IsOccurrence rt event e)
  · have hover : isOverBudget rt event window = false := by
      by_contra hover
      have hlimit := (materializeMaster_eq_limit_iff ((slots.get? event).getD [])).2
        ⟨Bool.of_not_eq_false hover, rfl⟩
      rw [hmat] at hlimit
      cases hlimit
    exact hc.emit (by simp [isSkipped, hover]) fun e he =>
      ⟨hm, isOccurrence_of_mem_materializeMaster hmat he⟩
  · have hover := ((materializeMaster_eq_limit_iff _).1 hlimit).1
    have hskip : isSkipped rt window event = true := by simp [isSkipped, hm, hover]
    refine ⟨fun e he => ?_, ?_, ?_⟩
    · obtain ⟨master, hmaster, hocc⟩ := hc.occurrences e he
      exact ⟨master, List.mem_append_left _ hmaster, hocc⟩
    · simp [List.filter_append, hskip, hc.skipped]
    · simp [List.filter_append, hskip, hc.overBudget]

/-- **What the second pass emits**: one-off events and overrides of series that are not skipped, as
far as they overlap the window. -/
theorem emitOneOff_eq_some_iff {skipped : List String} :
    emitOneOff skipped window event = some e ↔ event.isMaster = false ∧
      (event.recurrenceId.isSome = true → event.sourceEventUid ∉ skipped) ∧
      window.overlaps ⟨event.startTime, event.endTime⟩ = true ∧ e = asOneOffEvent event := by
  have hrange : (asOneOffEvent event).range = ⟨event.startTime, event.endTime⟩ := rfl
  unfold emitOneOff
  dsimp only
  rw [hrange]
  cases hmaster : event.isMaster with
  | true => simp
  | false =>
    by_cases hskip : (event.recurrenceId.isSome && skipped.contains event.sourceEventUid) = true
    · rw [if_neg (by simp), if_pos hskip]
      simp only [Bool.and_eq_true, List.contains_eq_mem, decide_eq_true_eq] at hskip
      simp [hskip]
    · rw [if_neg (by simp), if_neg hskip]
      simp only [Bool.and_eq_true, List.contains_eq_mem, decide_eq_true_eq, not_and] at hskip
      constructor
      · intro h
        split_ifs at h with hoverlaps
        exact ⟨rfl, hskip, hoverlaps, (Option.some.inj h).symm⟩
      · rintro ⟨-, -, hoverlaps, rfl⟩
        exact if_pos hoverlaps

def skippedUids (rt : Runtime) (events : List SyncableEvent) (window : SyncWindow) : List String :=
  (events.filter (isSkipped rt window)).map (·.sourceEventUid)

theorem collected_foldlM {events : List SyncableEvent}
    (h : events.foldlM (materializeSeries rt isolates slots window) {} = .ok pass) :
    Collected rt window events pass :=
  foldlM_ok_induction (fun _ _ _ _ hs hstep => materializeSeries_ok hs hstep)
    (by exact ⟨fun e he => (by cases he), rfl, rfl⟩ : Collected rt window [] {}) h

/-- **What a materialization holds**: occurrences of masters, and what the second pass emits; it
reports the masters over budget. -/
theorem materializeRecurrenceEvents_ok {events : List SyncableEvent}
    {suppressedOverrides : List SuppressedOverride} {result : Materialization}
    (h : materializeRecurrenceEvents rt events window isolates suppressedOverrides = .ok result) :
    (∀ e ∈ result.events,
      (∃ master ∈ events, master.isMaster = true ∧ IsOccurrence rt master e) ∨
        ∃ event ∈ events, emitOneOff (skippedUids rt events window) window event = some e) ∧
      result.overBudget = (events.filter (isSkipped rt window)).map (·.limitError) := by
  obtain ⟨_, -, h⟩ := bind_eq_ok_iff.1 h
  obtain ⟨pass, hpass, h⟩ := bind_eq_ok_iff.1 h
  obtain rfl := Except.ok.inj h
  have hc := collected_foldlM hpass
  refine ⟨fun e he => ?_, hc.overBudget⟩
  rcases List.mem_append.1 (mem_toSorted.1 he) with he | he
  · exact Or.inl (hc.occurrences e he)
  · obtain ⟨event, hevent, hemit⟩ := List.mem_filterMap.1 he
    rw [hc.skipped] at hemit
    exact Or.inr ⟨event, hevent, hemit⟩

end Lemmas

end Keeper
