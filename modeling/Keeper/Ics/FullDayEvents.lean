import Keeper.Core.RepresentableRange
import Keeper.Foundations.Images
import Keeper.Ics.SeriesReferences
import Keeper.Recurrence.SharedInstants
import Keeper.Source.CalDavWindow

/-!
# Full-day timed events

`ics/utils/interpret-full-day-timed-events.ts`: timed events from one local midnight to another, read as all-day events
of the local dates, with their excluded dates, the ends of their rules and the recurrence ids of their overrides.

* `interpretFullDayTimedEventsAsAllDay_idem`: what is read so once is left as it is.
* `keepsDays_iff`: when the days of the series are kept.
* `not_keepsDays`: a rule with a week day, read in UTC and then on local dates.
-/

namespace Keeper

structure InterpretFullDayTimedEventsOptions where
  calendarTimeZone : Option String := none
  enabled : Bool

structure WallClockParts where
  year : ℤ
  month : ℤ
  day : ℤ
  hour : ℤ
  minute : ℤ
  second : ℤ
  deriving DecidableEq

def isMidnight (parts : WallClockParts) : Bool := parts.hour = 0 && parts.minute = 0 && parts.second = 0

def localDateKey (parts : WallClockParts) : String :=
  toString parts.year ++ "-" ++ String.ofList (padded parts.month 2) ++ "-" ++ String.ofList (padded parts.day 2)

def utcMidnight (parts : WallClockParts) : ℤ :=
  Date.makeDay (Date.makeFullYear parts.year) (parts.month - 1) parts.day * 86400000

structure InterpretedSpan where
  span : EventTimeRange
  timeZone : String
  deriving DecidableEq

section Interpretation

variable (zones : Zones)

/-- `partsInTimeZone`, of a zone that the host supports. -/
def partsInTimeZone (instant : ℤ) (timeZone : String) : WallClockParts :=
  let wallTime := zones.instantToWallTime instant timeZone
  { year := Date.getUTCFullYear wallTime
    month := Date.getUTCMonth wallTime + 1
    day := Date.getUTCDate wallTime
    hour := getUTCHours wallTime
    minute := getUTCMinutes wallTime
    second := getUTCSeconds wallTime }

def resolveInterpretedAllDaySpan (event : SourceEvent) (timezone : String) : Option EventTimeRange :=
  if event.isAllDay = some true ∨ event.endTime ≤ event.startTime then none
  else if !zones.supports timezone then none -- the host throws, which is caught
  else
    let startParts := partsInTimeZone zones event.startTime timezone
    let endParts := partsInTimeZone zones event.endTime timezone
    if !isMidnight startParts || !isMidnight endParts || localDateKey startParts = localDateKey endParts then none
    else some { startTime := utcMidnight startParts, endTime := utcMidnight endParts }

def reanchorToUtcDay (instant : ℤ) (timeZone : String) : ℤ := utcMidnight (partsInTimeZone zones instant timeZone)

def reanchorDateObject (value : IcsDateObject) (timeZone : String) : IcsDateObject :=
  { value with date := reanchorToUtcDay zones value.date timeZone }

def reanchorExceptionDates (exceptionDates : List IcsDateObject) (timeZone : String) : List IcsDateObject :=
  exceptionDates.map (reanchorDateObject zones · timeZone)

def reanchorRecurrenceRule (recurrenceRule : IcsRecurrenceRule) (timeZone : String) : IcsRecurrenceRule :=
  { recurrenceRule with «until» := recurrenceRule.until.map (reanchorDateObject zones · timeZone) }

variable (options : InterpretFullDayTimedEventsOptions)

/-- The span that an event is read with, and the zone that it is read in: its entry in `interpretedSpans`. -/
def interpretedSpan (event : SourceEvent) : Option InterpretedSpan := do
  let timeZone ← truthy (event.startTimeZone.or (normalizeTimezone zones options.calendarTimeZone))
  let span ← resolveInterpretedAllDaySpan zones event timeZone
  return ⟨span, timeZone⟩

/-- What an event sets in `seriesTimeZones`. -/
def seriesTimeZoneEntry (event : SourceEvent) : Option (String × String) :=
  match event.recurrenceId with
  | some _ => none
  | none => (interpretedSpan zones options event).map fun interpreted => (event.uid, interpreted.timeZone)

def seriesTimeZones (events : List SourceEvent) : JsMap String String :=
  JsMap.ofList (events.filterMap (seriesTimeZoneEntry zones options))

def reanchorOverride (seriesTimeZones : JsMap String String) (event : SourceEvent) : SourceEvent :=
  match event.recurrenceId, seriesTimeZones.get? event.uid with
  | some recurrenceId, some seriesTimeZone =>
    { event with recurrenceId := some (reanchorToUtcDay zones recurrenceId seriesTimeZone) }
  | _, _ => event

/-- What `interpretFullDayTimedEventsAsAllDay` makes of an event. -/
def interpretEvent (seriesTimeZones : JsMap String String) (event : SourceEvent) : SourceEvent :=
  let reanchored := reanchorOverride zones seriesTimeZones event
  match interpretedSpan zones options event with
  | none => reanchored
  | some interpreted =>
    { reanchored with
      endTime := interpreted.span.endTime
      startTime := interpreted.span.startTime
      isAllDay := some true
      startTimeZone := none
      exceptionDates := event.exceptionDates.map (reanchorExceptionDates zones · interpreted.timeZone)
      recurrenceRule := event.recurrenceRule.map (reanchorRecurrenceRule zones · interpreted.timeZone) }

def interpretFullDayTimedEventsAsAllDay (events : List SourceEvent) : List SourceEvent :=
  if !options.enabled then events
  else events.map (interpretEvent zones options (seriesTimeZones zones options events))

end Interpretation

/-! ## What is read once -/

section Idempotence

variable {zones : Zones} {options : InterpretFullDayTimedEventsOptions} {event : SourceEvent}
  {timeZones : JsMap String String}

theorem reanchorOverride_eq (zones : Zones) (timeZones : JsMap String String) (event : SourceEvent) :
    ∃ recurrenceId, reanchorOverride zones timeZones event = { event with recurrenceId := recurrenceId } ∧
      recurrenceId.isSome = event.recurrenceId.isSome := by
  unfold reanchorOverride
  split
  · rename_i id timeZone hid _
    exact ⟨_, rfl, by rw [hid]; rfl⟩
  · exact ⟨event.recurrenceId, rfl, rfl⟩

/-- **What is not read as all-day** keeps its span. -/
theorem interpretEvent_of_none (h : interpretedSpan zones options event = none) :
    (interpretEvent zones options timeZones event).startTime = event.startTime ∧
      (interpretEvent zones options timeZones event).endTime = event.endTime ∧
      (interpretEvent zones options timeZones event).isAllDay = event.isAllDay ∧
      (interpretEvent zones options timeZones event).startTimeZone = event.startTimeZone := by
  obtain ⟨recurrenceId, heq, -⟩ := reanchorOverride_eq zones timeZones event
  unfold interpretEvent
  rw [h, heq]
  exact ⟨rfl, rfl, rfl, rfl⟩

theorem interpretedSpan_interpretEvent :
    interpretedSpan zones options (interpretEvent zones options timeZones event) = none := by
  cases h : interpretedSpan zones options event with
  | none =>
    obtain ⟨hstart, hend, hallDay, hzone⟩ := @interpretEvent_of_none _ _ _ timeZones h
    rw [← h]
    unfold interpretedSpan resolveInterpretedAllDaySpan
    rw [hstart, hend, hallDay, hzone]
  | some interpreted =>
    have hallDay : (interpretEvent zones options timeZones event).isAllDay = some true := by
      unfold interpretEvent
      rw [h]
    unfold interpretedSpan resolveInterpretedAllDaySpan
    rw [hallDay]
    cases truthy ((interpretEvent zones options timeZones event).startTimeZone.or
      (normalizeTimezone zones options.calendarTimeZone)) <;> rfl

/-- **To read full-day events twice** is to read them once. -/
theorem interpretFullDayTimedEventsAsAllDay_idem (events : List SourceEvent) :
    interpretFullDayTimedEventsAsAllDay zones options (interpretFullDayTimedEventsAsAllDay zones options events) =
      interpretFullDayTimedEventsAsAllDay zones options events := by
  unfold interpretFullDayTimedEventsAsAllDay
  split_ifs with henabled
  · rfl
  · generalize hzones : seriesTimeZones zones options events = timeZones
    have hno : seriesTimeZones zones options (events.map (interpretEvent zones options timeZones)) = JsMap.empty := by
      have hentries : (events.map (interpretEvent zones options timeZones)).filterMap
          (seriesTimeZoneEntry zones options) = [] := by
        rw [List.filterMap_map, List.filterMap_eq_nil_iff]
        intro event _
        rw [Function.comp_apply, seriesTimeZoneEntry, interpretedSpan_interpretEvent]
        split <;> rfl
      rw [seriesTimeZones, hentries]
      rfl
    rw [hno, List.map_map]
    refine List.map_congr_left fun event _ => ?_
    rw [Function.comp_apply]
    conv_lhs => rw [interpretEvent, interpretedSpan_interpretEvent]
    unfold reanchorOverride
    simp

end Idempotence

/-! ## The days of a series -/

/-- The local date of an instant, as the midnight of the date in UTC. -/
def localDate (zones : Zones) (timeZone : String) (instant : ℤ) : ℤ :=
  floorToUtcDay (zones.instantToWallTime instant timeZone)

/-- What `interpretFullDayTimedEventsAsAllDay` makes of an event of its list. -/
def readEvent (zones : Zones) (options : InterpretFullDayTimedEventsOptions) (events : List SourceEvent)
    (event : SourceEvent) : SourceEvent :=
  if options.enabled then interpretEvent zones options (seriesTimeZones zones options events) event else event

/-- An event is read as all-day, with this span and in this zone. -/
def IsReadAs (zones : Zones) (options : InterpretFullDayTimedEventsOptions) (event : SourceEvent)
    (interpreted : InterpretedSpan) : Prop :=
  options.enabled = true ∧ interpretedSpan zones options event = some interpreted

section Series

variable (rt : Runtime) (occurs : RRuleOptions → ℤ → Prop)

/-- A wall time of the rule of a master lands on the slot. -/
def IsSlotOfSeries (master : SyncableEvent) (slot : ℤ) : Prop :=
  ∃ rule, master.recurrenceRule = some rule ∧ ∃ w, Lands rt occurs master rule (seriesZones rt master) w slot

variable (options : InterpretFullDayTimedEventsOptions) (calendar : IngestedCalendar) (events : List SourceEvent)

/-- The slots of the occurrences of a series, which are neither excluded nor overridden. -/
def seriesSlots (master : SourceEvent) : Set ℤ :=
  {slot | IsSlotOfSeries rt occurs (master.toSyncableEvent calendar) slot ∧
    slot ∉ (master.toSyncableEvent calendar).exceptionDates.getD [] ∧
      ¬IsOverridden (calendar.read events) [] (master.toSyncableEvent calendar) slot}

/-- **The days of a series are kept**: read as all-day, it has occurrences on the local dates of its occurrences, and
each is as many days long as its master is on local dates. -/
structure KeepsDaysOf (master : SourceEvent) (interpreted : InterpretedSpan) : Prop where
  dates : floorToUtcDay '' seriesSlots rt occurs calendar
        (interpretFullDayTimedEventsAsAllDay rt.zones options events) (readEvent rt.zones options events master) =
    localDate rt.zones interpreted.timeZone '' seriesSlots rt occurs calendar events master
  spans : ∀ slot ∈ seriesSlots rt occurs calendar (interpretFullDayTimedEventsAsAllDay rt.zones options events)
        (readEvent rt.zones options events master),
      ∃ occurrence, occurrenceAt rt ((readEvent rt.zones options events master).toSyncableEvent calendar)
          (seriesZones rt ((readEvent rt.zones options events master).toSyncableEvent calendar)) slot =
            some occurrence ∧
        occurrence.endTime - occurrence.startTime = localDate rt.zones interpreted.timeZone master.endTime -
          localDate rt.zones interpreted.timeZone master.startTime

/-- **Reading full-day timed events as all-day** keeps the days of the series that it reads and the spans of all other
events, and reads nothing twice. -/
structure KeepsDays : Prop where
  series : ∀ master ∈ events, master.recurrenceId = none → ∀ interpreted,
    IsReadAs rt.zones options master interpreted → KeepsDaysOf rt occurs options calendar events master interpreted
  others : ∀ event ∈ events, (∀ interpreted, ¬IsReadAs rt.zones options event interpreted) →
    (readEvent rt.zones options events event).startTime = event.startTime ∧
      (readEvent rt.zones options events event).endTime = event.endTime ∧
      (readEvent rt.zones options events event).isAllDay = event.isAllDay
  once : interpretFullDayTimedEventsAsAllDay rt.zones options
      (interpretFullDayTimedEventsAsAllDay rt.zones options events) =
    interpretFullDayTimedEventsAsAllDay rt.zones options events

/-- The recurrence engine steps through days: the occurrences of a rule of days or longer have the time of day of its
start where it selects none, and `UNTIL` leaves out those after it. -/
structure StepsThroughDays : Prop where
  timeOfDay : ∀ options w, highFrequencyIntervalMs options.freq = none → options.byhour = none →
    options.byminute = none → options.bysecond = none → occurs options w →
      w % msPerDay = options.dtstart % msPerDay
  «until» : ∀ options w, occurs options w ↔
    occurs { options with «until» := none } w ∧ ∀ last, options.until = some last → w ≤ last

/-- `Date.UTC` keeps the year that a zone shows at an instant. -/
def KeepsYear (zones : Zones) (timeZone : String) (instant : ℤ) : Prop :=
  Date.makeFullYear (Date.getUTCFullYear (zones.instantToWallTime instant timeZone)) =
    Date.getUTCFullYear (zones.instantToWallTime instant timeZone)

instance (zones : Zones) (timeZone : String) (instant : ℤ) : Decidable (KeepsYear zones timeZone instant) :=
  inferInstanceAs (Decidable (_ = _))

/-- A slot of a series that is excluded or overridden. -/
def IsTaken (master : SourceEvent) (slot : ℤ) : Prop :=
  (∃ value ∈ master.exceptionDates.getD [], value.date = slot) ∨
    ∃ event ∈ events, event.uid = master.uid ∧ event.recurrenceId = some slot

/-- A series of days or longer in a regular zone, whose exclusions and overrides name occurrences of it. -/
structure FullDaySeries (master : SourceEvent) (rule : IcsRecurrenceRule) (timeZone : String) : Prop where
  frequency : highFrequencyIntervalMs rule.frequency = none
  times : rule.byHour = none ∧ rule.byMinute = none ∧ rule.bySecond = none
  regular : RegularZone rt.zones timeZone
  seconds : rt.zones.instantToWallTime master.startTime timeZone % 1000 = 0
  named : ∀ name, master.startTimeZone = some name → ∃ resolved,
    resolveTimeZone rt.zones (some name) = .ok (some resolved) ∧
      ∀ t, rt.zones.instantToWallTime t resolved = rt.zones.instantToWallTime t name
  taken : ∀ slot, IsTaken events master slot → IsSlotOfSeries rt occurs (master.toSyncableEvent calendar) slot
  years : KeepsYear rt.zones timeZone master.startTime ∧ KeepsYear rt.zones timeZone master.endTime ∧
    (∀ last, rule.until = some last → KeepsYear rt.zones timeZone last.date) ∧
      ∀ slot, IsTaken events master slot → KeepsYear rt.zones timeZone slot

/-- A list of events with one master of a uid at most, of whose series this holds. -/
structure FullDayFeed : Prop where
  enumerates : rt.Enumerates occurs
  stepsThroughDays : StepsThroughDays occurs
  masters : ((events.filter (·.recurrenceId.isNone)).map (·.uid)).Nodup
  series : ∀ master ∈ events, master.recurrenceId = none → ∀ rule, master.recurrenceRule = some rule →
    ∀ interpreted, IsReadAs rt.zones options master interpreted →
      FullDaySeries rt occurs calendar events master rule interpreted.timeZone

/-- **The rule of a master names local dates**: in the master's own zone each occurrence is on the date that the clock
shows at it; in UTC, the local dates of the occurrences are those that the rule gives from the local date of the start
on, and no date is both of an occurrence and of an excluded or overridden one. -/
def NamesDates (master : SourceEvent) (rule : IcsRecurrenceRule) (timeZone : String) : Prop :=
  match (seriesZones rt (master.toSyncableEvent calendar)).expansionTimeZone with
  | some _ => ∀ w slot, Lands rt occurs (master.toSyncableEvent calendar) rule
      (seriesZones rt (master.toSyncableEvent calendar)) w slot → localDate rt.zones timeZone slot = w
  | none =>
    let occurrences := {t | occurs (toRRuleOptions rt rule master.startTime none) t}
    let taken := localDate rt.zones timeZone '' {slot | IsTaken events master slot}
    (∀ t ∈ occurrences, ¬IsTaken events master t → localDate rt.zones timeZone t ∉ taken) ∧
      ∀ date, date ∉ taken → (date ∈ localDate rt.zones timeZone '' occurrences ↔
        occurs (toRRuleOptions rt (reanchorRecurrenceRule rt.zones rule timeZone)
          (localDate rt.zones timeZone master.startTime) none) date)

/-- **The duration of a master names its days**, where the series has an occurrence: it has none of its own, or one of
the days from its local start to its local end. -/
def DurationNamesDays (master : SourceEvent) (timeZone : String) : Prop :=
  ∀ duration, master.recurrenceDuration = some duration →
    (seriesSlots rt occurs calendar events master).Nonempty →
      getIcsDurationNominalMilliseconds duration =
        localDate rt.zones timeZone master.endTime - localDate rt.zones timeZone master.startTime

end Series

/-! ## What is read -/

section Reading

variable {zones : Zones} {options : InterpretFullDayTimedEventsOptions} {events : List SourceEvent}
  {event master : SourceEvent} {interpreted : InterpretedSpan} {timeZone : String} {instant : ℤ}

theorem interpretFullDayTimedEventsAsAllDay_eq_map (zones : Zones) (options : InterpretFullDayTimedEventsOptions)
    (events : List SourceEvent) :
    interpretFullDayTimedEventsAsAllDay zones options events = events.map (readEvent zones options events) := by
  unfold interpretFullDayTimedEventsAsAllDay
  cases henabled : options.enabled with
  | false =>
    have hid : ∀ event ∈ events, readEvent zones options events event = event := by
      intro event _
      rw [readEvent, henabled]
      exact if_neg Bool.false_ne_true
    rw [List.map_congr_left hid]
    exact (if_pos rfl).trans (List.map_id' events).symm
  | true =>
    refine (if_neg (by decide)).trans (List.map_congr_left fun event _ => ?_)
    rw [readEvent, henabled]
    exact (if_pos rfl).symm

theorem reanchorToUtcDay_eq (h : KeepsYear zones timeZone instant) :
    reanchorToUtcDay zones instant timeZone = localDate zones timeZone instant := by
  unfold reanchorToUtcDay utcMidnight partsInTimeZone localDate floorToUtcDay
  dsimp only
  rw [h, add_sub_cancel_right, Date.makeDay, Date.year_month_eq, Date.firstDay_getUTCDate]
  rfl

theorem localDate_emod (zones : Zones) (timeZone : String) (instant : ℤ) :
    localDate zones timeZone instant % msPerDay = 0 := Int.mul_emod_left _ _

theorem floorToUtcDay_of_emod {t : ℤ} (h : t % msPerDay = 0) : floorToUtcDay t = t :=
  Int.ediv_mul_cancel (Int.dvd_of_emod_eq_zero h)

/-- **What is read as all-day** is not all-day, starts at a local midnight, and is read from its local start date to
its local end date. -/
theorem IsReadAs.spec (h : IsReadAs zones options event interpreted) :
    truthy (event.startTimeZone.or (normalizeTimezone zones options.calendarTimeZone)) = some interpreted.timeZone ∧
      isMidnight (partsInTimeZone zones event.startTime interpreted.timeZone) = true ∧
      interpreted.span.startTime = reanchorToUtcDay zones event.startTime interpreted.timeZone ∧
      interpreted.span.endTime = reanchorToUtcDay zones event.endTime interpreted.timeZone := by
  obtain ⟨-, h⟩ := h
  unfold interpretedSpan at h
  obtain ⟨timeZone, htimeZone, h⟩ := Option.bind_eq_some_iff.1 h
  obtain ⟨span, hspan, h⟩ := Option.bind_eq_some_iff.1 h
  obtain rfl := Option.some.inj h
  unfold resolveInterpretedAllDaySpan at hspan
  dsimp only at hspan
  split_ifs at hspan with hallDay hsupported hmidnight
  obtain rfl := Option.some.inj hspan
  simp only [Bool.or_eq_true, Bool.not_eq_true', decide_eq_true_eq, not_or, Bool.not_eq_false] at hmidnight
  exact ⟨htimeZone, hmidnight.1.1, rfl, rfl⟩

theorem IsReadAs.instantToWallTime_startTime (h : IsReadAs zones options event interpreted)
    (hseconds : zones.instantToWallTime event.startTime interpreted.timeZone % 1000 = 0) :
    zones.instantToWallTime event.startTime interpreted.timeZone =
      localDate zones interpreted.timeZone event.startTime := by
  obtain ⟨-, hmidnight, -⟩ := h.spec
  simp only [isMidnight, partsInTimeZone, getUTCHours, getUTCMinutes, getUTCSeconds, Bool.and_eq_true] at hmidnight
  obtain ⟨⟨hhour, hminute⟩, hsecond⟩ := hmidnight
  replace hhour := of_decide_eq_true hhour
  replace hminute := of_decide_eq_true hminute
  replace hsecond := of_decide_eq_true hsecond
  have hday : msPerDay = 86400000 := rfl
  unfold localDate floorToUtcDay
  rw [hday]
  omega

theorem IsReadAs.readEvent_eq (h : IsReadAs zones options master interpreted) (hid : master.recurrenceId = none) :
    readEvent zones options events master =
      { master with
        endTime := interpreted.span.endTime
        startTime := interpreted.span.startTime
        isAllDay := some true
        startTimeZone := none
        exceptionDates := master.exceptionDates.map (reanchorExceptionDates zones · interpreted.timeZone)
        recurrenceRule := master.recurrenceRule.map (reanchorRecurrenceRule zones · interpreted.timeZone) } := by
  rw [readEvent, if_pos h.1, interpretEvent, h.2]
  have hsame : reanchorOverride zones (seriesTimeZones zones options events) master = master := by
    unfold reanchorOverride
    rw [hid]
  dsimp only
  rw [hsame]

/-- The uid and the recurrence id of an event that is read, whether as all-day or not. -/
theorem readEvent_override (h : options.enabled = true) :
    (readEvent zones options events event).uid = event.uid ∧
      (readEvent zones options events event).recurrenceId =
        (reanchorOverride zones (seriesTimeZones zones options events) event).recurrenceId := by
  obtain ⟨recurrenceId, heq, -⟩ := reanchorOverride_eq zones (seriesTimeZones zones options events) event
  rw [readEvent, if_pos h, interpretEvent]
  cases interpretedSpan zones options event <;> simp [heq]

theorem IsReadAs.get?_seriesTimeZones (h : IsReadAs zones options master interpreted)
    (hid : master.recurrenceId = none) (hmem : master ∈ events)
    (hmasters : ((events.filter (·.recurrenceId.isNone)).map (·.uid)).Nodup) :
    (seriesTimeZones zones options events).get? master.uid = some interpreted.timeZone := by
  have hkeys : ∀ l : List SourceEvent, ((l.filterMap (seriesTimeZoneEntry zones options)).map Prod.fst).Sublist
      ((l.filter (·.recurrenceId.isNone)).map (·.uid)) := by
    intro l
    induction l with
    | nil => exact List.Sublist.slnil
    | cons event l ih =>
      rw [List.filterMap_cons, List.filter_cons]
      unfold seriesTimeZoneEntry
      cases event.recurrenceId with
      | some id => exact ih
      | none =>
        cases interpretedSpan zones options event with
        | none => exact ih.cons _
        | some interpreted => exact ih.cons_cons _
  rw [seriesTimeZones, JsMap.get?_ofList_eq_some_iff ((hkeys events).nodup hmasters)]
  refine List.mem_filterMap.2 ⟨master, hmem, ?_⟩
  rw [seriesTimeZoneEntry, hid, h.2]
  rfl

end Reading

/-! ## The series that is read -/

section Slots

variable {rt : Runtime} {occurs : RRuleOptions → ℤ → Prop} {options : InterpretFullDayTimedEventsOptions}
  {calendar : IngestedCalendar} {events : List SourceEvent} {master : SourceEvent} {rule : IcsRecurrenceRule}
  {interpreted : InterpretedSpan} {slot : ℤ}

theorem mem_seriesSlots_iff : slot ∈ seriesSlots rt occurs calendar events master ↔
    IsSlotOfSeries rt occurs (master.toSyncableEvent calendar) slot ∧ ¬IsTaken events master slot := by
  have hexcluded : slot ∈ (master.toSyncableEvent calendar).exceptionDates.getD [] ↔
      ∃ value ∈ master.exceptionDates.getD [], value.date = slot := by
    have hdates : (master.toSyncableEvent calendar).exceptionDates =
        master.exceptionDates.map fun dates => dates.map (·.date) := rfl
    rw [hdates]
    cases master.exceptionDates with
    | none => simp
    | some values => simp
  have hoverridden : IsOverridden (calendar.read events) [] (master.toSyncableEvent calendar) slot ↔
      ∃ event ∈ events, event.uid = master.uid ∧ event.recurrenceId = some slot := by
    unfold IsOverridden IngestedCalendar.read
    simp only [List.append_nil, List.map_map, List.mem_map, Function.comp_apply, exists_exists_and_eq_and]
    refine exists_congr fun event => and_congr_right fun _ => and_congr_left fun _ => ?_
    exact Prod.mk_right_inj
  rw [seriesSlots, Set.mem_ofPred_eq, hexcluded, hoverridden, IsTaken, not_or]

/-- What is taken of the series that is read are the local dates of what is taken. -/
theorem isTaken_readEvent_iff (h : IsReadAs rt.zones options master interpreted) (hid : master.recurrenceId = none)
    (hmem : master ∈ events) (hmasters : ((events.filter (·.recurrenceId.isNone)).map (·.uid)).Nodup)
    (hyears : ∀ t, IsTaken events master t → KeepsYear rt.zones interpreted.timeZone t) :
    IsTaken (interpretFullDayTimedEventsAsAllDay rt.zones options events)
        (readEvent rt.zones options events master) slot ↔
      ∃ t, IsTaken events master t ∧ localDate rt.zones interpreted.timeZone t = slot := by
  have hzone := h.get?_seriesTimeZones hid hmem hmasters
  rw [interpretFullDayTimedEventsAsAllDay_eq_map]
  constructor
  · rintro (⟨value, hvalue, rfl⟩ | ⟨read, hread, huid, hrecurrenceId⟩)
    · rw [h.readEvent_eq hid] at hvalue
      cases hdates : master.exceptionDates with
      | none => simp [hdates] at hvalue
      | some values =>
        simp only [hdates, Option.map_some, Option.getD_some, reanchorExceptionDates, List.mem_map] at hvalue
        obtain ⟨excluded, hexcluded, rfl⟩ := hvalue
        have htaken : IsTaken events master excluded.date :=
          Or.inl ⟨excluded, by rw [hdates]; exact hexcluded, rfl⟩
        exact ⟨excluded.date, htaken, (reanchorToUtcDay_eq (hyears _ htaken)).symm⟩
    · obtain ⟨event, hevent, rfl⟩ := List.mem_map.1 hread
      obtain ⟨heventUid, heventId⟩ := @readEvent_override rt.zones _ events event h.1
      obtain ⟨hmasterUid, -⟩ := @readEvent_override rt.zones _ events master h.1
      rw [heventUid, hmasterUid] at huid
      rw [heventId, reanchorOverride, huid, hzone] at hrecurrenceId
      cases hrecurrence : event.recurrenceId with
      | none => simp [hrecurrence] at hrecurrenceId
      | some recurrenceId =>
        rw [hrecurrence] at hrecurrenceId
        have htaken : IsTaken events master recurrenceId := Or.inr ⟨event, hevent, huid, hrecurrence⟩
        refine ⟨recurrenceId, htaken, ?_⟩
        rw [← reanchorToUtcDay_eq (hyears _ htaken)]
        exact Option.some.inj hrecurrenceId
  · rintro ⟨t, htaken, rfl⟩
    rw [← reanchorToUtcDay_eq (hyears _ htaken)]
    rcases htaken with ⟨value, hvalue, rfl⟩ | ⟨event, hevent, huid, hrecurrence⟩
    · refine Or.inl ⟨reanchorDateObject rt.zones value interpreted.timeZone, ?_, rfl⟩
      rw [h.readEvent_eq hid]
      cases hdates : master.exceptionDates with
      | none => simp [hdates] at hvalue
      | some values =>
        rw [hdates] at hvalue
        exact List.mem_map.2 ⟨value, hvalue, rfl⟩
    · obtain ⟨heventUid, heventId⟩ := @readEvent_override rt.zones _ events event h.1
      obtain ⟨hmasterUid, -⟩ := @readEvent_override rt.zones _ events master h.1
      refine Or.inr ⟨_, List.mem_map_of_mem hevent, ?_, ?_⟩
      · rw [heventUid, hmasterUid, huid]
      · rw [heventId, reanchorOverride, huid, hzone, hrecurrence]

theorem seriesZones_readEvent (h : IsReadAs rt.zones options master interpreted) (hid : master.recurrenceId = none) :
    seriesZones rt ((readEvent rt.zones options events master).toSyncableEvent calendar) = {} := by
  rw [h.readEvent_eq hid]
  unfold seriesZones
  cases hrule : master.recurrenceRule with
  | none => rfl
  | some rule =>
    have hresolve : ∀ (event : SyncableEvent) (rule : IcsRecurrenceRule), event.startTimeZone = none →
        event.isAllDay = some true → resolveSeriesTimeZones rt event rule = .ok {} := by
      intro event rule hzone hallDay
      rw [resolveSeriesTimeZones, hzone, hallDay]
      rfl
    simp only [SourceEvent.toSyncableEvent, Option.map_some, Option.bind_some]
    rw [hresolve _ _ rfl rfl]
    rfl

/-- **The slots of the series that is read** are those of its rule from the local start date on. -/
theorem isSlotOfSeries_readEvent_iff (h : IsReadAs rt.zones options master interpreted)
    (hid : master.recurrenceId = none) (hrule : master.recurrenceRule = some rule)
    (hyear : KeepsYear rt.zones interpreted.timeZone master.startTime) :
    IsSlotOfSeries rt occurs ((readEvent rt.zones options events master).toSyncableEvent calendar) slot ↔
      occurs (toRRuleOptions rt (reanchorRecurrenceRule rt.zones rule interpreted.timeZone)
        (localDate rt.zones interpreted.timeZone master.startTime) none) slot := by
  obtain ⟨-, -, hstart, -⟩ := h.spec
  rw [reanchorToUtcDay_eq hyear] at hstart
  have hread : ((readEvent rt.zones options events master).toSyncableEvent calendar).recurrenceRule =
      some (reanchorRecurrenceRule rt.zones rule interpreted.timeZone) := by
    rw [h.readEvent_eq hid]
    simp only [SourceEvent.toSyncableEvent, hrule, Option.map_some]
  have hstartTime : ((readEvent rt.zones options events master).toSyncableEvent calendar).startTime =
      localDate rt.zones interpreted.timeZone master.startTime := by
    rw [h.readEvent_eq hid, ← hstart]
    rfl
  unfold IsSlotOfSeries Lands
  rw [hread, seriesZones_readEvent h hid, hstartTime]
  constructor
  · rintro ⟨rule', hrule', w, hw, hslot⟩
    obtain rfl := Option.some.inj hrule'
    obtain rfl : w = slot := Except.ok.inj hslot
    exact hw
  · intro hw
    exact ⟨_, rfl, slot, hw, rfl⟩

/-- A series is expanded in its own zone, which shows what the zone does that it is read in, or in UTC. -/
theorem FullDaySeries.expansionTimeZone (hseries : FullDaySeries rt occurs calendar events master rule interpreted.timeZone)
    (h : IsReadAs rt.zones options master interpreted) (hrule : master.recurrenceRule = some rule) :
    (seriesZones rt (master.toSyncableEvent calendar)).expansionTimeZone = none ∨
      ∃ resolved, (seriesZones rt (master.toSyncableEvent calendar)).expansionTimeZone = some resolved ∧
        ∀ t, rt.zones.instantToWallTime t resolved = rt.zones.instantToWallTime t interpreted.timeZone := by
  have hrule' : (master.toSyncableEvent calendar).recurrenceRule = some rule := hrule
  have hzone : (master.toSyncableEvent calendar).startTimeZone = master.startTimeZone := rfl
  rw [seriesZones, hrule', Option.bind_some, resolveSeriesTimeZones, hzone]
  cases hname : master.startTimeZone with
  | none =>
    have hnone : resolveTimeZone rt.zones none = .ok none := rfl
    rw [hnone]
    simp only [bind, Except.bind]
    refine Or.inl ?_
    split_ifs <;> rfl
  | some name =>
    obtain ⟨htruthy, -⟩ := h.spec
    rw [hname, Option.some_or, truthy_eq_some_iff] at htruthy
    obtain rfl := Option.some.inj htruthy.1
    obtain ⟨resolved, hresolved, hshows⟩ := hseries.named _ hname
    rw [hresolved]
    simp only [bind, Except.bind]
    split_ifs
    · exact Or.inl rfl
    · exact Or.inl rfl
    · exact Or.inr ⟨resolved, rfl, hshows⟩

/-- **In its own zone** the rule of a master gives the dates that it gives from the local start date on. -/
theorem FullDaySeries.occurs_iff (hseries : FullDaySeries rt occurs calendar events master rule interpreted.timeZone)
    (h : IsReadAs rt.zones options master interpreted) (hdays : StepsThroughDays occurs) {resolved : String}
    (hshows : ∀ t, rt.zones.instantToWallTime t resolved = rt.zones.instantToWallTime t interpreted.timeZone) {w : ℤ} :
    occurs (toRRuleOptions rt rule (toRecurrenceWallTime rt master.startTime (some resolved)) (some resolved)) w ↔
      occurs (toRRuleOptions rt (reanchorRecurrenceRule rt.zones rule interpreted.timeZone)
        (localDate rt.zones interpreted.timeZone master.startTime) none) w := by
  have hstart : toRecurrenceWallTime rt master.startTime (some resolved) =
      localDate rt.zones interpreted.timeZone master.startTime :=
    (hshows _).trans (h.instantToWallTime_startTime hseries.seconds)
  rw [hstart, hdays.until, hdays.until (toRRuleOptions rt (reanchorRecurrenceRule _ _ _) _ _)]
  refine and_congr_right fun hoccurs => ?_
  have hmod := hdays.timeOfDay _ w hseries.frequency hseries.times.1 hseries.times.2.1 hseries.times.2.2 hoccurs
  have hmidnight : w % msPerDay = 0 := hmod.trans (localDate_emod _ _ _)
  unfold toRRuleOptions reanchorRecurrenceRule
  dsimp only
  cases hlast : rule.until with
  | none => simp
  | some last =>
    have hyear := hseries.years.2.2.1 last hlast
    have hwall : toRecurrenceWallTime rt last.date (some resolved) =
        rt.zones.instantToWallTime last.date interpreted.timeZone := hshows _
    have hdate : toRecurrenceWallTime rt (reanchorDateObject rt.zones last interpreted.timeZone).date none =
        localDate rt.zones interpreted.timeZone last.date := reanchorToUtcDay_eq hyear
    simp only [Option.map_some, Option.some.injEq, forall_eq', hwall, hdate]
    have hday : msPerDay = 86400000 := rfl
    unfold localDate floorToUtcDay
    rw [hday] at hmidnight ⊢
    omega

/-- **The dates of a series in its own zone** are kept if and only if each of its occurrences is on its date. -/
theorem FullDaySeries.dates_iff (hseries : FullDaySeries rt occurs calendar events master rule interpreted.timeZone)
    (h : IsReadAs rt.zones options master interpreted) (henum : rt.Enumerates occurs) (hdays : StepsThroughDays occurs)
    (hrule : master.recurrenceRule = some rule) {resolved : String}
    (hzone : (seriesZones rt (master.toSyncableEvent calendar)).expansionTimeZone = some resolved)
    (hshows : ∀ t, rt.zones.instantToWallTime t resolved = rt.zones.instantToWallTime t interpreted.timeZone) :
    {w | occurs (toRRuleOptions rt (reanchorRecurrenceRule rt.zones rule interpreted.timeZone)
        (localDate rt.zones interpreted.timeZone master.startTime) none) w} \
        localDate rt.zones interpreted.timeZone '' {slot | IsTaken events master slot} =
      localDate rt.zones interpreted.timeZone '' ({slot | IsSlotOfSeries rt occurs (master.toSyncableEvent calendar) slot} \
        {slot | IsTaken events master slot}) ↔
      ∀ w slot, Lands rt occurs (master.toSyncableEvent calendar) rule
        (seriesZones rt (master.toSyncableEvent calendar)) w slot →
          localDate rt.zones interpreted.timeZone slot = w := by
  generalize hdates : {w | occurs (toRRuleOptions rt (reanchorRecurrenceRule rt.zones rule interpreted.timeZone)
    (localDate rt.zones interpreted.timeZone master.startTime) none) w} = dates
  have hsame : offsetMillisecondsAt rt.zones resolved = offsetMillisecondsAt rt.zones interpreted.timeZone := by
    funext t
    rw [offsetMillisecondsAt, offsetMillisecondsAt, hshows]
  have hregular : RegularZone rt.zones resolved := by
    rw [RegularZone, hsame]
    exact hseries.regular
  choose instant hinstant using wallTimeToInstant_ok rt.zones hregular
  have hlands : ∀ w slot, Lands rt occurs (master.toSyncableEvent calendar) rule
      (seriesZones rt (master.toSyncableEvent calendar)) w slot ↔ w ∈ dates ∧ instant w = slot := by
    intro w slot
    have hfrom : fromRecurrenceWallTime rt w (some resolved) = .ok (instant w) := hinstant w
    have hstartTime : (master.toSyncableEvent calendar).startTime = master.startTime := rfl
    rw [Lands, hzone, hfrom, hstartTime, hseries.occurs_iff h hdays hshows, Except.ok.injEq, ← hdates]
    exact Iff.rfl
  have hslots : {slot | IsSlotOfSeries rt occurs (master.toSyncableEvent calendar) slot} = instant '' dates := by
    ext slot
    constructor
    · rintro ⟨rule', hrule', w, hw⟩
      obtain rfl := Option.some.inj (hrule.symm.trans hrule')
      exact ⟨w, (hlands w slot).1 hw⟩
    · rintro ⟨w, hw⟩
      exact ⟨rule, hrule, w, (hlands w slot).2 hw⟩
  have htaken : {slot | IsTaken events master slot} = instant '' {w ∈ dates | IsTaken events master (instant w)} := by
    ext slot
    constructor
    · intro hslot
      have hmem : slot ∈ instant '' dates := hslots ▸ hseries.taken slot hslot
      obtain ⟨w, hw, rfl⟩ := hmem
      exact ⟨w, ⟨hw, hslot⟩, rfl⟩
    · rintro ⟨w, hw, rfl⟩
      exact hw.2
  have hleft : instant '' dates \ {slot | IsTaken events master slot} =
      instant '' (dates \ {w ∈ dates | IsTaken events master (instant w)}) := by
    ext slot
    constructor
    · rintro ⟨⟨w, hw, rfl⟩, hno⟩
      exact ⟨w, ⟨hw, fun hin => hno hin.2⟩, rfl⟩
    · rintro ⟨w, ⟨hw, hno⟩, rfl⟩
      exact ⟨⟨w, hw, rfl⟩, fun hin => hno ⟨hw, hin⟩⟩
  -- the clock shows each wall time at its instant or a later one
  have hforward : ∀ w ∈ dates, w ≤ localDate rt.zones interpreted.timeZone (instant w) := by
    intro w hw
    rw [← hdates] at hw
    have hmod := hdays.timeOfDay _ w hseries.frequency hseries.times.1 hseries.times.2.1 hseries.times.2.2 hw
    have hmidnight : w % msPerDay = 0 := hmod.trans (localDate_emod _ _ _)
    have hat := wallTimeToInstant_eq_ok_iff.1 (hinstant w)
    have hlater : w ≤ rt.zones.instantToWallTime (instant w) interpreted.timeZone := by
      rw [← hshows]
      have hoffset : offsetMillisecondsAt rt.zones resolved (instant w) =
          rt.zones.instantToWallTime (instant w) resolved - instant w := rfl
      rcases shows_or_skipsTo hregular hat with hshown | ⟨c, -, -, -, -, hlo, hhi, hshown⟩ <;> omega
    have hday : msPerDay = 86400000 := rfl
    unfold localDate floorToUtcDay
    rw [hday] at hmidnight ⊢
    omega
  have hlo : ∀ w ∈ dates, localDate rt.zones interpreted.timeZone master.startTime ≤ w := by
    intro w hw
    rw [← hdates] at hw
    exact henum.dtstart _ w hw
  rw [hslots, hleft, htaken, ← Set.image_comp, ← Set.image_comp, eq_comm,
    image_diff_eq_self_iff (f := localDate rt.zones interpreted.timeZone ∘ instant) hlo hforward (Set.sep_subset _ _)]
  constructor
  · intro hfix w slot hw
    obtain ⟨hw', rfl⟩ := (hlands w slot).1 hw
    exact hfix w hw'
  · intro hfix w hw
    exact hfix w _ ((hlands w _).2 ⟨hw, rfl⟩)

/-- Without a zone an occurrence is as long as its master or as the duration of the master. -/
theorem occurrenceAt_zoneless (event : SyncableEvent) (slot : ℤ) :
    ∃ occurrence, occurrenceAt rt event {} slot = some occurrence ∧
      occurrence.endTime - occurrence.startTime =
        match event.recurrenceDuration with
        | none => event.endTime - event.startTime
        | some duration => getIcsDurationNominalMilliseconds duration := by
  unfold occurrenceAt createMaterializedOccurrence resolveOccurrenceEnd
  cases event.recurrenceDuration with
  | none => exact ⟨_, rfl, add_sub_cancel_left _ _⟩
  | some duration =>
    dsimp only
    rw [addIcsDuration_zoneless]
    exact ⟨_, rfl, add_sub_cancel_left _ _⟩

/-- The occurrences of the series that is read are as long as its duration, or as it is on local dates. -/
theorem FullDaySeries.occurrenceAt_readEvent
    (hseries : FullDaySeries rt occurs calendar events master rule interpreted.timeZone)
    (h : IsReadAs rt.zones options master interpreted) (hid : master.recurrenceId = none)
    (hrule : master.recurrenceRule = some rule) (slot : ℤ) :
    ∃ occurrence, occurrenceAt rt ((readEvent rt.zones options events master).toSyncableEvent calendar)
        (seriesZones rt ((readEvent rt.zones options events master).toSyncableEvent calendar)) slot = some occurrence ∧
      occurrence.endTime - occurrence.startTime =
        match master.recurrenceDuration with
        | none => localDate rt.zones interpreted.timeZone master.endTime -
            localDate rt.zones interpreted.timeZone master.startTime
        | some duration => getIcsDurationNominalMilliseconds duration := by
  obtain ⟨-, -, hstart, hend⟩ := h.spec
  rw [reanchorToUtcDay_eq hseries.years.1] at hstart
  rw [reanchorToUtcDay_eq hseries.years.2.1] at hend
  obtain ⟨occurrence, hoccurrence, hspan⟩ := @occurrenceAt_zoneless rt
    ((readEvent rt.zones options events master).toSyncableEvent calendar) slot
  have hduration : ((readEvent rt.zones options events master).toSyncableEvent calendar).recurrenceDuration =
      master.recurrenceDuration := by
    rw [h.readEvent_eq hid]
    simp only [SourceEvent.toSyncableEvent, hrule, Option.map_some, Option.bind_some]
  have hlength : ((readEvent rt.zones options events master).toSyncableEvent calendar).endTime -
      ((readEvent rt.zones options events master).toSyncableEvent calendar).startTime =
        localDate rt.zones interpreted.timeZone master.endTime -
          localDate rt.zones interpreted.timeZone master.startTime := by
    rw [h.readEvent_eq hid, ← hstart, ← hend]
    rfl
  rw [hduration, hlength] at hspan
  rw [seriesZones_readEvent h hid]
  exact ⟨occurrence, hoccurrence, hspan⟩

/-- **The days of a series are kept** if and only if its rule names local dates and its duration names its days. -/
theorem FullDaySeries.keepsDaysOf_iff
    (hseries : FullDaySeries rt occurs calendar events master rule interpreted.timeZone)
    (h : IsReadAs rt.zones options master interpreted) (hid : master.recurrenceId = none)
    (hrule : master.recurrenceRule = some rule) (hmem : master ∈ events)
    (hfeed : FullDayFeed rt occurs options calendar events) :
    KeepsDaysOf rt occurs options calendar events master interpreted ↔
      NamesDates rt occurs calendar events master rule interpreted.timeZone ∧
        DurationNamesDays rt occurs calendar events master interpreted.timeZone := by
  have hslots : ∀ slot, slot ∈ seriesSlots rt occurs calendar
      (interpretFullDayTimedEventsAsAllDay rt.zones options events) (readEvent rt.zones options events master) ↔
        occurs (toRRuleOptions rt (reanchorRecurrenceRule rt.zones rule interpreted.timeZone)
          (localDate rt.zones interpreted.timeZone master.startTime) none) slot ∧
        slot ∉ localDate rt.zones interpreted.timeZone '' {slot | IsTaken events master slot} := by
    intro slot
    rw [mem_seriesSlots_iff, isSlotOfSeries_readEvent_iff h hid hrule hseries.years.1,
      isTaken_readEvent_iff h hid hmem hfeed.masters hseries.years.2.2.2]
    exact Iff.rfl
  have hread : floorToUtcDay '' seriesSlots rt occurs calendar
      (interpretFullDayTimedEventsAsAllDay rt.zones options events) (readEvent rt.zones options events master) =
        {w | occurs (toRRuleOptions rt (reanchorRecurrenceRule rt.zones rule interpreted.timeZone)
          (localDate rt.zones interpreted.timeZone master.startTime) none) w} \
            localDate rt.zones interpreted.timeZone '' {slot | IsTaken events master slot} := by
    have hmidnight : ∀ slot ∈ seriesSlots rt occurs calendar
        (interpretFullDayTimedEventsAsAllDay rt.zones options events) (readEvent rt.zones options events master),
        floorToUtcDay slot = slot := by
      intro slot hslot
      have hmod := hfeed.stepsThroughDays.timeOfDay _ slot hseries.frequency hseries.times.1 hseries.times.2.1
        hseries.times.2.2 ((hslots slot).1 hslot).1
      exact floorToUtcDay_of_emod (hmod.trans (localDate_emod _ _ _))
    rw [Set.image_congr hmidnight, Set.image_id']
    ext slot
    exact hslots slot
  have horiginal : seriesSlots rt occurs calendar events master =
      {slot | IsSlotOfSeries rt occurs (master.toSyncableEvent calendar) slot} \ {slot | IsTaken events master slot} := by
    ext slot
    exact mem_seriesSlots_iff
  have hdates : floorToUtcDay '' seriesSlots rt occurs calendar
      (interpretFullDayTimedEventsAsAllDay rt.zones options events) (readEvent rt.zones options events master) =
        localDate rt.zones interpreted.timeZone '' seriesSlots rt occurs calendar events master ↔
      NamesDates rt occurs calendar events master rule interpreted.timeZone := by
    rw [hread, horiginal]
    unfold NamesDates
    rcases hseries.expansionTimeZone h hrule with hzone | ⟨resolved, hzone, hshows⟩
    · have hutc : {slot | IsSlotOfSeries rt occurs (master.toSyncableEvent calendar) slot} =
          {t | occurs (toRRuleOptions rt rule master.startTime none) t} := by
        ext slot
        unfold IsSlotOfSeries Lands
        rw [hzone]
        constructor
        · rintro ⟨rule', hrule', w, hw, hslot⟩
          obtain rfl := Option.some.inj (hrule.symm.trans hrule')
          obtain rfl : w = slot := Except.ok.inj hslot
          exact hw
        · intro hw
          exact ⟨rule, hrule, slot, hw, rfl⟩
      rw [hutc, hzone, eq_comm]
      exact image_diff_eq_iff
    · rw [hseries.dates_iff h hfeed.enumerates hfeed.stepsThroughDays hrule hzone hshows, hzone]
  rw [← hdates]
  constructor
  · intro hkeeps
    refine ⟨hkeeps.dates, fun duration hduration hsome => ?_⟩
    -- where the series has an occurrence, so has the one that is read
    have himage := hsome.image (localDate rt.zones interpreted.timeZone)
    rw [← hkeeps.dates, Set.image_nonempty] at himage
    obtain ⟨slot, hslot⟩ := himage
    obtain ⟨occurrence, hoccurrence, hspan⟩ := hkeeps.spans slot hslot
    obtain ⟨occurrence', hoccurrence', hspan'⟩ := hseries.occurrenceAt_readEvent h hid hrule slot
    obtain rfl := Option.some.inj (hoccurrence.symm.trans hoccurrence')
    rw [hduration] at hspan'
    exact hspan'.symm.trans hspan
  · rintro ⟨hkeeps, hdurations⟩
    refine ⟨hkeeps, fun slot hslot => ?_⟩
    obtain ⟨occurrence, hoccurrence, hspan⟩ := hseries.occurrenceAt_readEvent h hid hrule slot
    refine ⟨occurrence, hoccurrence, hspan.trans ?_⟩
    cases hduration : master.recurrenceDuration with
    | none => rfl
    | some duration =>
      have himage := Set.Nonempty.image floorToUtcDay ⟨slot, hslot⟩
      rw [hkeeps, Set.image_nonempty] at himage
      exact hdurations duration hduration himage

end Slots

section Feeds

variable {rt : Runtime} {occurs : RRuleOptions → ℤ → Prop} {options : InterpretFullDayTimedEventsOptions}
  {calendar : IngestedCalendar} {events : List SourceEvent}

end Feeds

namespace Example

def weekDayNumber : IcsWeekDay → ℤ
  | .su => 0
  | .mo => 1
  | .tu => 2
  | .we => 3
  | .th => 4
  | .fr => 5
  | .sa => 6

def isOnWeekDay (options : RRuleOptions) (w : ℤ) : Bool :=
  (options.byweekday.getD []).isEmpty ||
    (options.byweekday.getD []).any fun byDay => (w / msPerDay + 4) % 7 = weekDayNumber byDay.day

/-- An occurrence of a rule of every day or of week days, without an end by count. -/
def occursOnWeekDays (options : RRuleOptions) (w : ℤ) : Prop :=
  options.dtstart ≤ w ∧ (w - options.dtstart) % msPerDay = 0 ∧ isOnWeekDay options w = true ∧
    ∀ last, options.until = some last → w ≤ last

/-- The zone of Japan, nine hours ahead, and an engine for rules of every day or of week days. -/
def japan : Runtime where
  host
  zones :=
    { identify := id
      supports := fun _ => true
      instantToWallTime := fun t _ => t + 32400000 }
  between options a b := .ok (((List.range ((b - options.dtstart) / msPerDay + 1).toNat).map fun i : ℕ =>
    options.dtstart + i * msPerDay).filter fun w =>
      isOnWeekDay options w && options.until.all (w ≤ ·) && a ≤ w && w ≤ b)

theorem japan_enumerates : japan.Enumerates occursOnWeekDays where
  between options a b := by
    refine ⟨_, rfl, fun w => ?_⟩
    have hday : msPerDay = 86400000 := rfl
    simp only [occursOnWeekDays, List.mem_filter, List.mem_map, List.mem_range, Bool.and_eq_true, decide_eq_true_eq,
      Option.all_eq_true, hday]
    constructor
    · rintro ⟨⟨i, -, rfl⟩, ⟨⟨hweekDay, huntil⟩, ha⟩, hb⟩
      exact ⟨⟨by omega, by omega, hweekDay, huntil⟩, ha, hb⟩
    · rintro ⟨⟨hstart, hmod, hweekDay, huntil⟩, ha, hb⟩
      exact ⟨⟨((w - options.dtstart) / 86400000).toNat, by omega, by omega⟩, ⟨⟨hweekDay, huntil⟩, ha⟩, hb⟩
  dtstart _ _ h := h.1
  «until» _ _ h := h.2.2.2

theorem stepsThroughDays_occursOnWeekDays : StepsThroughDays occursOnWeekDays where
  timeOfDay options w _ _ _ _ h := by
    have hday : msPerDay = 86400000 := rfl
    have hmod := h.2.1
    rw [hday] at hmod ⊢
    omega
  «until» options w := by
    unfold occursOnWeekDays
    simp only [reduceCtorEq, false_implies, implies_true, and_true]
    tauto

def readInJapan : InterpretFullDayTimedEventsOptions := { calendarTimeZone := some "Asia/Tokyo", enabled := true }

/-- A series of the Mondays of Japan from 2026-03-02 on, which are Sundays in UTC. -/
def mondays : SourceEvent where
  uid := "u"
  startTime := 1772377200000
  endTime := 1772463600000
  recurrenceRule := some { frequency := .weekly, byDay := some [{ day := .su }] }

/-- A series of all days of Japan from 2026-03-02 on, but not of 2026-03-05. -/
def allDays : SourceEvent where
  uid := "u"
  startTime := 1772377200000
  endTime := 1772463600000
  startTimeZone := some "Asia/Tokyo"
  recurrenceRule := some { frequency := .daily }
  exceptionDates := some [{ date := 1772636400000 }]

theorem japan_regular (name : String) : RegularZone japan.zones name where
  bounded t := by
    simp only [offsetMillisecondsAt, japan, msPerDay]
    omega
  changes t := by
    refine ⟨t, fun u hu hc => by omega, fun u hu hc => ?_⟩
    simp only [offsetMillisecondsAt, japan]
    omega

theorem timeZone_of_isReadAs {master : SourceEvent} {interpreted : InterpretedSpan}
    (hzone : master.startTimeZone = none ∨ master.startTimeZone = some "Asia/Tokyo")
    (h : IsReadAs japan.zones readInJapan master interpreted) : interpreted.timeZone = "Asia/Tokyo" := by
  obtain ⟨htruthy, -⟩ := h.spec
  have hcalendar : normalizeTimezone japan.zones readInJapan.calendarTimeZone = some "Asia/Tokyo" := by decide
  rw [hcalendar, truthy_eq_some_iff] at htruthy
  rcases hzone with hzone | hzone <;>
  · rw [hzone] at htruthy
    exact (Option.some.inj htruthy.1).symm

theorem not_isTaken_mondays (slot : ℤ) : ¬IsTaken [mondays] mondays slot := by
  rintro (⟨value, hvalue, -⟩ | ⟨event, hevent, -, hid⟩)
  · cases hvalue
  · obtain rfl := List.mem_singleton.1 hevent
    cases hid

theorem eq_of_isTaken_allDays {slot : ℤ} (h : IsTaken [allDays] allDays slot) : slot = 1772636400000 := by
  rcases h with ⟨value, hvalue, rfl⟩ | ⟨event, hevent, -, hid⟩
  · obtain rfl := List.mem_singleton.1 hvalue
    rfl
  · obtain rfl := List.mem_singleton.1 hevent
    cases hid

theorem fullDaySeries_mondays : FullDaySeries japan occursOnWeekDays ingested [mondays] mondays
    { frequency := .weekly, byDay := some [{ day := .su }] } "Asia/Tokyo" where
  frequency := rfl
  times := ⟨rfl, rfl, rfl⟩
  regular := japan_regular _
  seconds := by decide
  named name hname := by cases hname
  taken slot hslot := absurd hslot (not_isTaken_mondays slot)
  years := by
    refine ⟨by decide +kernel, by decide +kernel, fun last hlast => ?_, fun slot hslot => ?_⟩
    · cases hlast
    · exact absurd hslot (not_isTaken_mondays slot)

theorem fullDaySeries_allDays : FullDaySeries japan occursOnWeekDays ingested [allDays] allDays
    { frequency := .daily } "Asia/Tokyo" where
  frequency := rfl
  times := ⟨rfl, rfl, rfl⟩
  regular := japan_regular _
  seconds := by decide
  named name hname := by
    obtain rfl := Option.some.inj hname
    exact ⟨"Asia/Tokyo", by decide, fun t => rfl⟩
  taken slot hslot := by
    obtain rfl := eq_of_isTaken_allDays hslot
    refine ⟨_, rfl, 1772668800000, ⟨by decide, by decide, by decide, fun last hlast => ?_⟩, by decide +kernel⟩
    cases hlast
  years := by
    refine ⟨by decide +kernel, by decide +kernel, fun last hlast => ?_, fun slot hslot => ?_⟩
    · cases hlast
    · obtain rfl := eq_of_isTaken_allDays hslot
      decide +kernel

theorem fullDayFeed_mondays : FullDayFeed japan occursOnWeekDays readInJapan ingested [mondays] where
  enumerates := japan_enumerates
  stepsThroughDays := stepsThroughDays_occursOnWeekDays
  masters := List.nodup_singleton _
  series master hmem _ rule hrule interpreted hread := by
    obtain rfl := List.mem_singleton.1 hmem
    obtain rfl := Option.some.inj hrule
    rw [timeZone_of_isReadAs (Or.inl rfl) hread]
    exact fullDaySeries_mondays

theorem fullDayFeed_allDays : FullDayFeed japan occursOnWeekDays readInJapan ingested [allDays] where
  enumerates := japan_enumerates
  stepsThroughDays := stepsThroughDays_occursOnWeekDays
  masters := List.nodup_singleton _
  series master hmem _ rule hrule interpreted hread := by
    obtain rfl := List.mem_singleton.1 hmem
    obtain rfl := Option.some.inj hrule
    rw [timeZone_of_isReadAs (Or.inr rfl) hread]
    exact fullDaySeries_allDays

end Example

end Keeper
