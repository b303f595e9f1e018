import Keeper.Reads.EventsInRange
import Keeper.Reads.FreeSlots

/-!
# Free time

`queries/find-free-time.ts`: the events that keep a user busy are collected like those of a listing,
over a range that is widened by a day more, and their spans on the clock of the request's time zone
are taken out of the range.

* `resolveBusySpan_bounds`: a busy span is within a day of the published one.
* `slotsAvoidBusy_of_covers`: no free slot meets the busy span of a stored event, as far as the scan
  covers the events whose busy spans meet the range.
* `not_slotsAvoidBusy`: an all-day event that starts past the scan is missed.
-/

namespace Keeper

open JsArray Span

/-! ## Busy spans -/

structure BusyCandidate extends AllDayEventShape where
  availability : Option String := none

def nonBlockingAvailability : List String := ["free", "workingElsewhere"]

def isBlocking (candidate : BusyCandidate) (ignoreAllDayEvents : Bool) : Bool :=
  !(ignoreAllDayEvents && candidate.isAllDay = some true) &&
    candidate.availability.all fun availability => !nonBlockingAvailability.contains availability

def MaterializedSyncableEvent.candidate (e : MaterializedSyncableEvent) : BusyCandidate where
  toAllDayEventShape := e.shape
  availability := e.availability.map (·.name)

def UserEventRecord.candidate (row : UserEventRecord) : BusyCandidate where
  toAllDayEventShape := row.shape
  availability := row.availability

def allDayZoneProjectionSlackMs : ℤ := msPerDay

def widenForZoneProjection (range : Span ℤ) : Span ℤ where
  start := range.start - allDayZoneProjectionSlackMs
  stop := range.stop + allDayZoneProjectionSlackMs

section Busy

variable (zones : Zones)

def projectAllDaySpanToZone (span : Span ℤ) (timeZone : String) : Except RangeError (Span ℤ) := do
  let stop ← wallTimeToInstant zones span.stop timeZone
  let start ← wallTimeToInstant zones span.start timeZone
  pure ⟨start, stop⟩

def resolveBusySpan (candidate : BusyCandidate) (timeZone : String) : Except RangeError (Span ℤ) :=
  let timeRange := resolveRepresentableTimeRange candidate.toAllDayEventShape
  let span : Span ℤ := ⟨timeRange.startTime, timeRange.endTime⟩
  if candidate.resolvesAllDay then projectAllDaySpanToZone zones span timeZone else .ok span

def toBusyInterval (candidate : BusyCandidate) (range : Span ℤ) (timeZone : String) :
    Except RangeError (Span ℤ) := do
  let span ← resolveBusySpan zones candidate timeZone
  pure ⟨max span.start range.start, min span.stop range.stop⟩

def toBusyIntervals (candidates : List BusyCandidate) (range : Span ℤ) (timeZone : String)
    (ignoreAllDayEvents : Bool) : Except RangeError (List (Span ℤ)) := do
  let intervals ← (candidates.filter (isBlocking · ignoreAllDayEvents)).mapM
    (toBusyInterval zones · range timeZone)
  pure (intervals.filter fun interval => interval.start < interval.stop)

variable {zones} {candidate : BusyCandidate} {timeZone : String} {range span : Span ℤ}

theorem projectAllDaySpanToZone_bounds (h : RegularZone zones timeZone)
    (hspan : projectAllDaySpanToZone zones range timeZone = .ok span) :
    (range.start - msPerDay ≤ span.start ∧ span.start ≤ range.start + msPerDay) ∧
      range.stop - msPerDay ≤ span.stop ∧ span.stop ≤ range.stop + msPerDay := by
  obtain ⟨stop, hstop, hspan⟩ := bind_eq_ok_iff.1 hspan
  obtain ⟨start, hstart, hspan⟩ := bind_eq_ok_iff.1 hspan
  obtain rfl := Except.ok.inj hspan
  exact ⟨wallTimeToInstant_bounds zones h hstart, wallTimeToInstant_bounds zones h hstop⟩

/-- **A busy span** is within a day of the published one. -/
theorem resolveBusySpan_bounds (h : RegularZone zones timeZone)
    (hspan : resolveBusySpan zones candidate timeZone = .ok span) :
    (resolveRepresentableTimeRange candidate.toAllDayEventShape).startTime ≤
        span.start + msPerDay ∧
      span.stop ≤
        (resolveRepresentableTimeRange candidate.toAllDayEventShape).endTime + msPerDay := by
  have hday : (0 : ℤ) ≤ msPerDay := by decide
  unfold resolveBusySpan at hspan
  dsimp only at hspan
  split_ifs at hspan
  · have hbounds := projectAllDaySpanToZone_bounds h hspan
    dsimp only at hbounds
    omega
  · obtain rfl := Except.ok.inj hspan
    dsimp only
    omega

/-- The events keep the user busy at an instant: one that blocks has it in its busy span. -/
def IsBusyAt (zones : Zones) (timeZone : String) (ignoreAllDayEvents : Bool)
    (candidates : BusyCandidate → Prop) (t : ℤ) : Prop :=
  ∃ candidate, candidates candidate ∧ isBlocking candidate ignoreAllDayEvents = true ∧
    ∃ span, resolveBusySpan zones candidate timeZone = .ok span ∧ t ∈ span.points

/-- **The busy intervals** cover the instants of the range at which the candidates keep the user
busy. -/
theorem mem_covered_toBusyIntervals {candidates : List BusyCandidate} {ignoreAllDayEvents : Bool}
    {busy : List (Span ℤ)}
    (h : toBusyIntervals zones candidates range timeZone ignoreAllDayEvents = .ok busy) {t : ℤ} :
    t ∈ covered busy ↔
      t ∈ range.points ∧ IsBusyAt zones timeZone ignoreAllDayEvents (· ∈ candidates) t := by
  obtain ⟨intervals, hintervals, h⟩ := bind_eq_ok_iff.1 h
  obtain rfl := Except.ok.inj h
  obtain ⟨hreturns, rfl⟩ := mapM_eq_ok_iff.1 hintervals
  constructor
  · rintro ⟨interval, hinterval, ht⟩
    obtain ⟨hmem, -⟩ := List.mem_filter.1 hinterval
    obtain ⟨candidate, hcandidate, hresult⟩ := List.mem_filterMap.1 hmem
    obtain ⟨hstored, hblocking⟩ := List.mem_filter.1 hcandidate
    obtain ⟨clipped, hclipped⟩ := hreturns candidate hcandidate
    rw [hclipped] at hresult
    obtain rfl := Option.some.inj hresult
    obtain ⟨span, hspan, hclipped⟩ := bind_eq_ok_iff.1 hclipped
    obtain rfl := Except.ok.inj hclipped
    rw [mem_points] at ht
    dsimp only at ht
    refine ⟨?_, candidate, hstored, hblocking, span, hspan, ?_⟩ <;>
    · rw [mem_points]
      omega
  · rintro ⟨hin, candidate, hstored, hblocking, span, hspan, ht⟩
    have hinterval : toBusyInterval zones candidate range timeZone =
        .ok ⟨max span.start range.start, min span.stop range.stop⟩ :=
      bind_eq_ok_iff.2 ⟨span, hspan, rfl⟩
    rw [mem_points] at ht hin
    refine ⟨⟨max span.start range.start, min span.stop range.stop⟩, List.mem_filter.2
      ⟨List.mem_filterMap.2 ⟨candidate, List.mem_filter.2 ⟨hstored, hblocking⟩, ?_⟩, ?_⟩, ?_⟩
    · rw [hinterval]
      rfl
    · rw [decide_eq_true_eq]
      dsimp only
      omega
    · rw [mem_points]
      dsimp only
      omega

end Busy

/-! ## The search -/

structure KeeperFreeTimeOptions extends FreeTimeOptions where
  ignoreAllDayEvents : Bool

structure KeeperFreeTimeResult where
  durationMinutes : ℚ
  «from» : String
  slots : List FreeSlot
  timezone : String
  «to» : String

section Search

variable (rt : Runtime) (ark : Arktype) (store : EventStore) (userId : String)

def collectBusyIntervals (range : Span ℤ) (timeZone : String) (options : KeeperFreeTimeOptions)
    (filters : KeeperEventFilters) : Except ReadError (List (Span ℤ)) :=
  let sources := getSourcesForUser store userId filters
  if sources.1.isEmpty then .ok []
  else do
    let candidateWindow := widenForZoneProjection range
    let syncedEvents ← materializeSyncedEvents rt ark (selectSyncedRows store sources.1 range)
      sources.2 candidateWindow.start candidateWindow.stop none
    let userEvents ← (filterThrowing (fun row : UserEventRecord =>
      isWithinReadWindow rt.zones row.shape candidateWindow none)
      (selectUserRows store userId sources.1 range {})).mapError .range
    (toBusyIntervals rt.zones (syncedEvents.map (·.candidate) ++ userEvents.map (·.candidate)) range
      timeZone options.ignoreAllDayEvents).mapError .range

def findFreeTime (input : KeeperEventRangeInput) (options : KeeperFreeTimeOptions)
    (filters : KeeperEventFilters) : Except ReadError KeeperFreeTimeResult := do
  let range ← normalizeDateRange input.from input.to
  let timeZone ← resolveRequestTimeZone rt.zones options.timezone
  let busyIntervals ← collectBusyIntervals rt ark store userId range timeZone options filters
  let slots ← findFreeSlots rt.zones range busyIntervals
    { options.toFreeTimeOptions with timezone := timeZone }
  pure
    { durationMinutes := options.durationMinutes
      «from» := Date.toISOString range.start
      slots
      timezone := options.timezone
      «to» := Date.toISOString range.stop }

end Search

/-! ## No free slot meets a busy event -/

section Safety

variable (rt : Runtime) (occurs : RRuleOptions → ℤ → Prop) (events : List SyncableEvent)
  (userEvents : List UserEventRecord) (range : Span ℤ) (timeZone : String)
  (ignoreAllDayEvents : Bool)

/-- A one-off, override, occurrence or user event that is stored. -/
inductive IsStoredCandidate : BusyCandidate → Prop
  | single (event : SyncableEvent) (hmem : event ∈ events) (hmaster : event.isMaster = false) :
    IsStoredCandidate (asOneOffEvent event).candidate
  | occurrence (master : SyncableEvent) (hmem : master ∈ events) (hmaster : master.isMaster = true)
    (slot : ℤ) (e : MaterializedSyncableEvent)
    (he : IsOccurrenceOf rt occurs events master slot e) : IsStoredCandidate e.candidate
  | own (row : UserEventRecord) (hmem : row ∈ userEvents) : IsStoredCandidate row.candidate

/-- A stored event that a search of the range reads:

* a one-off or user event that starts by a day after the range, and starts or ends from a day before
  it on, or any override,
* an occurrence whose master starts by a day after the range and whose wall time is searched in the
  range widened by two days; it is not hidden among the events of the scan, where a series can have
  one master that has several in store. -/
inductive IsReadCandidate : BusyCandidate → Prop
  | single (event : SyncableEvent) (hmem : event ∈ events) (hmaster : event.isMaster = false)
    (hscanned : isScanned range event = true) : IsReadCandidate (asOneOffEvent event).candidate
  | occurrence (master : SyncableEvent) (hmem : master ∈ events) (hmaster : master.isMaster = true)
    (slot : ℤ) (e : MaterializedSyncableEvent) (he : IsOccurrenceOf rt occurs events master slot e)
    (hscanned : isScanned range master = true)
    (hreached : IsReached rt occurs (widenedWindow (widenForZoneProjection range).start
      (widenForZoneProjection range).stop) master slot)
    (hhidden : ¬ IsHidden (events.filter (isScanned range)) master slot) :
    IsReadCandidate e.candidate
  | own (row : UserEventRecord) (hmem : row ∈ userEvents)
    (hscan : isInScan range row.shape.toEventTimeRange = true) : IsReadCandidate row.candidate

/-- No slot meets the busy span of a stored event that blocks. -/
def SlotsAvoidBusy (slots : List FreeSlot) : Prop :=
  ∀ slot ∈ slots, ∀ interval : Span ℤ, slot.start = Date.toISOString interval.start →
    slot.stop = Date.toISOString interval.stop →
    ∀ candidate, IsStoredCandidate rt occurs events userEvents candidate →
      isBlocking candidate ignoreAllDayEvents = true →
      ∀ span, resolveBusySpan rt.zones candidate timeZone = .ok span → ¬ interval.Meets span

/-- The scan covers the busy time of the range: whenever a stored event keeps the user busy, one that
is read does. -/
def CoversBusyTime : Prop :=
  ∀ t ∈ range.points,
    IsBusyAt rt.zones timeZone ignoreAllDayEvents
        (IsStoredCandidate rt occurs events userEvents) t →
      IsBusyAt rt.zones timeZone ignoreAllDayEvents
        (IsReadCandidate rt occurs events userEvents range) t

variable {rt occurs events userEvents range timeZone ignoreAllDayEvents}

/-- **The range widened by a day** for the zone holds the published span of an event that is busy in
the range. -/
theorem isInView_of_busy (hzone : RegularZone rt.zones timeZone) {candidate : BusyCandidate}
    {span : Span ℤ} (hspan : resolveBusySpan rt.zones candidate timeZone = .ok span) {t : ℤ}
    (ht : t ∈ span.points) (hrange : t ∈ range.points) :
    isInView rt.zones none (widenForZoneProjection range).start
      ((widenForZoneProjection range).stop + 1) candidate.toAllDayEventShape = true := by
  have hbounds := resolveBusySpan_bounds hzone hspan
  have hnonempty := (resolveRepresentableTimeRange_isShaped
    candidate.toAllDayEventShape).nonempty
  refine isInView_iff.2 ⟨resolveRepresentableTimeRange candidate.toAllDayEventShape, rfl, ?_⟩
  rw [mem_points] at ht hrange
  rw [overlapsTimeWindow_iff]
  simp only [widenForZoneProjection, allDayZoneProjectionSlackMs]
  omega

/-- What is in view of the widened range overlaps it widened by a day more. -/
theorem overlaps_of_isInView {shape : AllDayEventShape} {window : Span ℤ}
    (h : isInView rt.zones none window.start (window.stop + 1) shape = true) :
    (widenedWindow window.start window.stop).overlaps shape.toEventTimeRange = true := by
  obtain ⟨span, hspan, hoverlaps⟩ := isInView_iff.1 h
  obtain rfl := Except.ok.inj hspan
  exact overlapsTimeWindow_of_representable hoverlaps

variable {ark : Arktype} {store : EventStore} {userId : String} {filters : KeeperEventFilters}
  {options : KeeperFreeTimeOptions}

/-- **The busy intervals of a search** cover the instants of the range at which an event that is read
keeps the user busy. -/
theorem mem_covered_collectBusyIntervals (hrange : range.start < range.stop)
    (h : CanRead rt ark occurs store (getSourcesForUser store userId filters)
      (widenForZoneProjection range) none events) (hzone : RegularZone rt.zones timeZone)
    {busy : List (Span ℤ)}
    (hbusy : collectBusyIntervals rt ark store userId range timeZone options filters = .ok busy)
    {t : ℤ} :
    t ∈ covered busy ↔ t ∈ range.points ∧
      IsBusyAt rt.zones timeZone options.ignoreAllDayEvents (IsReadCandidate rt occurs events
        (storedUserEvents store userId (getSourcesForUser store userId filters).1) range) t := by
  have hwindow : (widenForZoneProjection range).start < (widenForZoneProjection range).stop := by
    have hday : (0 : ℤ) < allDayZoneProjectionSlackMs := by decide
    simp only [widenForZoneProjection]
    omega
  unfold collectBusyIntervals at hbusy
  dsimp only at hbusy
  by_cases hnone : (getSourcesForUser store userId filters).1 = []
  · obtain ⟨rfl, husers⟩ := contents_nil hnone h.parsed
    rw [if_pos (by rwa [List.isEmpty_iff])] at hbusy
    obtain rfl := Except.ok.inj hbusy
    rw [husers]
    refine iff_of_false not_mem_covered_nil ?_
    rintro ⟨-, candidate, hread, -⟩
    cases hread with
    | single event hmem => cases hmem
    | occurrence master hmem => cases hmem
    | own row hmem => cases hmem
  · rw [if_neg (by rwa [List.isEmpty_iff])] at hbusy
    obtain ⟨syncedEvents, hsynced, hbusy⟩ := bind_eq_ok_iff.1 hbusy
    obtain ⟨userRows, husers, hbusy⟩ := bind_eq_ok_iff.1 hbusy
    obtain ⟨l, hl, slotsOf, hperm, hslots⟩ := h.materializeSyncedEvents_ok hwindow range
    obtain rfl := Except.ok.inj (hl.symm.trans hsynced)
    have hviewer : IsRegularViewer rt.zones none := fun name hname => by cases hname
    have hfilter := filterThrowing_ok
      (l := selectUserRows store userId (getSourcesForUser store userId filters).1 range {})
      fun row _ => overlapsViewerReadWindow_ok hviewer row.shape
        (widenForZoneProjection range).start ((widenForZoneProjection range).stop + 1)
    obtain rfl := Except.ok.inj (hfilter.symm.trans (mapError_eq_ok_iff.1 husers))
    rw [mem_covered_toBusyIntervals (mapError_eq_ok_iff.1 hbusy)]
    refine and_congr_right fun hin => ?_
    constructor
    · rintro ⟨candidate, hcandidate, hblocking, span, hspan, ht⟩
      refine ⟨candidate, ?_, hblocking, span, hspan, ht⟩
      rcases List.mem_append.1 hcandidate with hcandidate | hcandidate
      · obtain ⟨e, he, rfl⟩ := List.mem_map.1 hcandidate
        rcases List.mem_append.1 (hperm.mem_iff.1 he) with he | he
        · obtain ⟨master, hmaster, he⟩ := List.mem_flatMap.1 he
          obtain ⟨slot, hslot, he⟩ := List.mem_filterMap.1 he
          obtain ⟨hscanned, hreached, e', he', -, -⟩ := ((hslots master hmaster).2 slot).1 hslot
          obtain rfl := Option.some.inj (he.symm.trans he'.2)
          obtain ⟨hmem, hyes⟩ := List.mem_filter.1 hmaster
          exact .occurrence master hmem hyes slot e (he'.of_filter (fun event _ hid =>
            isScanned_of_override hid) hscanned) hscanned hreached he'.1.2.2
        · obtain ⟨event, hevent, rfl⟩ := List.mem_map.1 he
          obtain ⟨hmem, htest⟩ := List.mem_filter.1 hevent
          simp only [Bool.and_eq_true, Bool.not_eq_true'] at htest
          exact .single event hmem htest.1 htest.2.1.1
      · obtain ⟨row, hrow, rfl⟩ := List.mem_map.1 hcandidate
        obtain ⟨hmem, htest⟩ := List.mem_filter.1 (mem_toSorted.1 (List.mem_filter.1 hrow).1)
        simp only [Bool.and_eq_true] at htest
        exact .own row (List.mem_filter.2 ⟨hmem, by simp only [htest.1.1.1, Bool.true_and]⟩)
          htest.1.1.2
    · rintro ⟨candidate, hread, hblocking, span, hspan, ht⟩
      have hview := isInView_of_busy hzone hspan ht hin
      refine ⟨candidate, List.mem_append.2 ?_, hblocking, span, hspan, ht⟩
      rw [List.mem_map, List.mem_map]
      cases hread with
      | single event hmem hmaster hscanned =>
        refine Or.inl ⟨asOneOffEvent event, hperm.mem_iff.2 (List.mem_append_right _
          (List.mem_map.2 ⟨event, List.mem_filter.2 ⟨hmem, ?_⟩, rfl⟩)), rfl⟩
        have hoverlaps := overlaps_of_isInView hview
        simp only [hmaster, hscanned, Bool.not_false, Bool.true_and, Bool.and_eq_true]
        exact ⟨hoverlaps, hview⟩
      | occurrence master hmem hmaster slot e he hscanned hreached hhidden =>
        have hin : master ∈ events.filter (·.isMaster) := List.mem_filter.2 ⟨hmem, hmaster⟩
        have hslot := ((hslots master hin).2 slot).2 ⟨hscanned, hreached, e,
          ⟨⟨he.1.1, he.1.2.1, hhidden⟩, he.2⟩, overlaps_of_isInView hview, hview⟩
        exact Or.inl ⟨e, hperm.mem_iff.2 (List.mem_append_left _ (List.mem_flatMap.2
          ⟨master, hin, List.mem_filterMap.2 ⟨slot, hslot, he.2⟩⟩)), rfl⟩
      | own row hmem hscan =>
        obtain ⟨hrow, hkeys⟩ := List.mem_filter.1 hmem
        have hcondition : buildUserRangeCondition range row.toUserEventRow = true := hscan
        refine Or.inr ⟨row, List.mem_filter.2 ⟨mem_toSorted.2 (List.mem_filter.2 ⟨hrow, ?_⟩),
          hview⟩, rfl⟩
        simp only [hkeys, hcondition, Option.all_none, Bool.and_true]

/-- **No free slot meets the busy span of a stored event**, as far as the scan covers the busy time
of the range. -/
theorem slotsAvoidBusy_of_covers {input : KeeperEventRangeInput}
    (hrange : normalizeDateRange input.from input.to = .ok range)
    (htimeZone : resolveRequestTimeZone rt.zones options.timezone = .ok timeZone)
    (hzone : RegularZone rt.zones timeZone)
    (h : CanRead rt ark occurs store (getSourcesForUser store userId filters)
      (widenForZoneProjection range) none events)
    (hcovers : CoversBusyTime rt occurs events
      (storedUserEvents store userId (getSourcesForUser store userId filters).1) range timeZone
      options.ignoreAllDayEvents) {result : KeeperFreeTimeResult}
    (hresult : findFreeTime rt ark store userId input options filters = .ok result) :
    SlotsAvoidBusy rt occurs events
      (storedUserEvents store userId (getSourcesForUser store userId filters).1) timeZone
      options.ignoreAllDayEvents result.slots := by
  have hlt : range.start < range.stop := by
    obtain ⟨rfl, hlt⟩ := normalizeDateRange_ok hrange
    exact hlt
  obtain ⟨range', hrange', hresult⟩ := bind_eq_ok_iff.1 hresult
  obtain rfl := Except.ok.inj (hrange'.symm.trans hrange)
  obtain ⟨timeZone', htimeZone', hresult⟩ := bind_eq_ok_iff.1 hresult
  obtain rfl := Except.ok.inj (htimeZone'.symm.trans htimeZone)
  obtain ⟨busy, hbusy, hresult⟩ := bind_eq_ok_iff.1 hresult
  obtain ⟨slots, hslots, hresult⟩ := bind_eq_ok_iff.1 hresult
  obtain rfl := Except.ok.inj hresult
  rintro slot hslot interval hstart hstop candidate hstored hblocking span hspan ⟨t, ht, hspanned⟩
  obtain ⟨free, rfl, hfree⟩ := findFreeSlots_ok hlt hslots hslot
  have hsame : free = interval := by
    obtain ⟨start, stop⟩ := free
    have hsameStart : start = interval.start := Date.toISOString_injective hstart
    have hsameStop : stop = interval.stop := Date.toISOString_injective hstop
    rw [hsameStart, hsameStop]
  obtain ⟨hin, hnot⟩ := hfree t (hsame ▸ ht)
  exact hnot ((mem_covered_collectBusyIntervals hlt h hzone hbusy).2
    ⟨hin, hcovers t hin ⟨candidate, hstored, hblocking, span, hspan, hspanned⟩⟩)

end Safety

namespace Example

/-- Half an hour on the clock of the zone fourteen hours ahead, at any time of the day. -/
def halfHour : KeeperFreeTimeOptions where
  durationMinutes := 30
  timezone := "Pacific/Kiritimati"
  limit := 50
  ignoreAllDayEvents := false

/-- From the start of 2026-03-02 to noon of 2026-03-03. -/
def laterRange : KeeperEventRangeInput := ⟨1772409600000, 1772539200000, none⟩

/-- What is free of it: the ten hours before the day of the event, and the two after it. -/
def laterFreeTime : KeeperFreeTimeResult where
  durationMinutes := 30
  «from» := Date.toISOString 1772409600000
  slots := [toFreeSlot ⟨1772409600000, 1772445600000⟩, toFreeSlot ⟨1772532000000, 1772539200000⟩]
  timezone := "Pacific/Kiritimati"
  «to» := Date.toISOString 1772539200000

theorem findFreeTime_laterRange :
    findFreeTime kiritimati noSchemas holidayStore "user" laterRange halfHour {} =
      .ok laterFreeTime := by
  rfl

theorem coversBusyTime_laterRange :
    CoversBusyTime kiritimati (fun _ _ => False) []
      (storedUserEvents holidayStore "user" (getSourcesForUser holidayStore "user" {}).1)
      ⟨1772409600000, 1772539200000⟩ "Pacific/Kiritimati" halfHour.ignoreAllDayEvents := by
  rintro t - ⟨candidate, hstored, hblocking, hspan⟩
  cases hstored with
  | single event hmem => cases hmem
  | occurrence master hmem => cases hmem
  | own row hmem =>
    obtain rfl := List.mem_singleton.1 hmem
    exact ⟨_, .own evening (List.mem_singleton_self _) (by decide), hblocking, hspan⟩

end Example

theorem slotsAvoidBusy_of_covers_example :
    SlotsAvoidBusy Example.kiritimati (fun _ _ => False) []
      (storedUserEvents Example.holidayStore "user"
        (getSourcesForUser Example.holidayStore "user" {}).1) "Pacific/Kiritimati" false
      Example.laterFreeTime.slots :=
  slotsAvoidBusy_of_covers (by rfl) (by rfl) (Example.kiritimati_regular _)
    Example.canRead_holidayStore Example.coversBusyTime_laterRange
    Example.findFreeTime_laterRange

/-- **A busy event is missed.** For the clock of the request the all-day event starts at ten in the
morning of the range's last day; it is stored past the scan, and the whole range is offered as a free
slot. -/
theorem not_slotsAvoidBusy :
    ∃ result, findFreeTime Example.kiritimati Example.noSchemas Example.holidayStore "user"
        Example.holidayRange Example.halfHour {} = .ok result ∧
      result.slots = [toFreeSlot ⟨1772323200000, 1772452800000⟩] ∧
      ¬ SlotsAvoidBusy Example.kiritimati (fun _ _ => False) []
        (storedUserEvents Example.holidayStore "user"
          (getSourcesForUser Example.holidayStore "user" {}).1) "Pacific/Kiritimati" false
        result.slots := by
  refine ⟨⟨30, Date.toISOString 1772323200000, [toFreeSlot ⟨1772323200000, 1772452800000⟩],
    "Pacific/Kiritimati", Date.toISOString 1772452800000⟩, by rfl, rfl, fun h => ?_⟩
  have hstored : IsStoredCandidate Example.kiritimati (fun _ _ => False) []
      (storedUserEvents Example.holidayStore "user"
        (getSourcesForUser Example.holidayStore "user" {}).1) Example.evening.candidate :=
    .own Example.evening (List.mem_singleton_self _)
  refine h _ (List.mem_singleton_self _) ⟨1772323200000, 1772452800000⟩ rfl rfl _ hstored
    (by decide) ⟨1772445600000, 1772532000000⟩ (by rfl) ⟨1772445600000, ?_, ?_⟩ <;>
  · rw [mem_points]
    decide

end Keeper
