import Keeper.Ics.SeriesReferences
import Keeper.Recurrence.Exactness
import Keeper.Recurrence.HighFrequency
import Keeper.Recurrence.SharedInstants

/-!
# Excluded dates

A series without the slots that its excluded dates are expanded to (`expandDateExclusion` of
`ics/utils/series-recurrence-references.ts`, and `core/events/recurrence-materializer.ts`), against the series without
the occurrences of these dates.

* `materializeMaster_excluding`: excluded slots are left out of a materialization, and nothing else.
* `excludesDates_iff`: when the excluded dates are removed, and nothing else.
* `not_excludesDates`: a date that a zone skips.
-/

namespace Keeper

open Date

/-! ## Excluded slots -/

def SyncableEvent.excluding (master : SyncableEvent) (slots : List ℤ) : SyncableEvent :=
  { master with exceptionDates := some (master.exceptionDates.getD [] ++ slots) }

section Excluding

variable {rt : Runtime} {master : SyncableEvent} {window : SyncWindow} {timeZones : SeriesTimeZones}

theorem createMaterializedOccurrence_excluding (slots : List ℤ) (slot : ℤ) (timeZone : Option String) :
    createMaterializedOccurrence rt (master.excluding slots) slot timeZone =
      createMaterializedOccurrence rt master slot timeZone := rfl

theorem createMaterializedOccurrence_startTime {slot : ℤ} {timeZone : Option String} {e : MaterializedSyncableEvent}
    (h : createMaterializedOccurrence rt master slot timeZone = .ok e) : e.startTime = slot := by
  obtain ⟨occurrenceEnd, -, h⟩ := bind_eq_ok_iff.1 h
  obtain rfl := Except.ok.inj h
  rfl

/-- **The pass over the wall times** leaves excluded slots out. -/
theorem emitOccurrences_excluding {excluded overridden starts emitted emitted' : List ℤ}
    {l : List MaterializedSyncableEvent} (hemitted : ∀ slot, slot ∉ excluded → (slot ∈ emitted' ↔ slot ∈ emitted))
    (h : emitOccurrences rt master overridden window timeZones starts emitted = .ok l) :
    emitOccurrences rt (master.excluding excluded) overridden window timeZones starts emitted' =
      .ok (l.filter fun e => e.startTime ∉ excluded) := by
  induction starts generalizing emitted emitted' l with
  | nil =>
    obtain rfl := Except.ok.inj h
    rfl
  | cons w starts ih =>
    rw [emitOccurrences] at h
    obtain ⟨slot, hslot, h⟩ := bind_eq_ok_iff.1 h
    rw [emitOccurrences, hslot]
    change (if isTaken (master.excluding excluded) overridden emitted' slot = true then _ else _) = _
    change (if isTaken master overridden emitted slot = true then _ else _) = _ at h
    have htakes : isTaken (master.excluding excluded) overridden emitted' slot = true ↔
        isTaken master overridden emitted slot = true ∨ slot ∈ excluded := by
      have hsame := hemitted slot
      simp only [isTaken, SyncableEvent.excluding, Bool.or_eq_true, List.contains_eq_mem, decide_eq_true_eq,
        Option.getD_some, List.mem_append]
      tauto
    split_ifs at h with htaken
    · rw [if_pos (htakes.2 (Or.inl htaken))]
      exact ih hemitted h
    · obtain ⟨e, he, h⟩ := bind_eq_ok_iff.1 h
      obtain ⟨others, hothers, h⟩ := bind_eq_ok_iff.1 h
      obtain rfl := Except.ok.inj h
      have hstart := createMaterializedOccurrence_startTime he
      by_cases hexcluded : slot ∈ excluded
      · have hnext : ∀ s, s ∉ excluded → (s ∈ emitted' ↔ s ∈ slot :: emitted) := by
          intro s hs
          have hne : s ≠ slot := fun heq => hs (heq ▸ hexcluded)
          rw [hemitted s hs, List.mem_cons, or_iff_right hne]
        rw [if_pos (htakes.2 (Or.inr hexcluded)), ih hnext hothers]
        split_ifs
        · rw [List.filter_cons_of_neg (by simpa [hstart] using hexcluded)]
        · rfl
      · have hnext : ∀ s, s ∉ excluded → (s ∈ slot :: emitted' ↔ s ∈ slot :: emitted) := by
          intro s hs
          rw [List.mem_cons, List.mem_cons, hemitted s hs]
        rw [if_neg fun htaken' => (htakes.1 htaken').elim htaken hexcluded,
          createMaterializedOccurrence_excluding, he]
        dsimp only [bind, Except.bind]
        rw [ih hnext hothers]
        split_ifs
        · rw [List.filter_cons_of_pos (by simpa [hstart] using hexcluded)]
          rfl
        · rfl

/-- **Excluded slots are left out** of a materialization, and nothing else. -/
theorem materializeMaster_excluding {excluded overridden : List ℤ}
    (hzones : ∃ timeZone, resolveTimeZone rt.zones master.startTimeZone = .ok timeZone ∧
      ∀ name, timeZone = some name → RegularZone rt.zones name) :
    materializeMaster rt (master.excluding excluded) overridden window =
      (materializeMaster rt master overridden window).map (·.filter fun e => e.startTime ∉ excluded) := by
  obtain ⟨timeZone, htimeZone, hregular⟩ := hzones
  have hrule : (master.excluding excluded).recurrenceRule = master.recurrenceRule := rfl
  unfold materializeMaster
  rw [hrule]
  cases master.recurrenceRule with
  | none => rfl
  | some rule =>
    dsimp only
    have hstart : (master.excluding excluded).startTime = master.startTime := rfl
    rw [hstart]
    split_ifs
    · rfl
    · obtain ⟨timeZones, htimeZones, hexpansion, hseries⟩ := resolveSeriesTimeZones_ok rule htimeZone
      have htimeZones' : resolveSeriesTimeZones rt (master.excluding excluded) rule = .ok timeZones := htimeZones
      have hstarts : occurrenceStarts rt (master.excluding excluded) rule window timeZones.expansionTimeZone =
          occurrenceStarts rt master rule window timeZones.expansionTimeZone := rfl
      rw [htimeZones, htimeZones']
      change occurrenceStarts rt (master.excluding excluded) rule window timeZones.expansionTimeZone >>= _ =
        (occurrenceStarts rt master rule window timeZones.expansionTimeZone >>= _).map _
      rw [hstarts]
      cases occurrenceStarts rt master rule window timeZones.expansionTimeZone with
      | error e => rfl
      | ok starts =>
        obtain ⟨slots, hrun, -⟩ := @emitOccurrences_ok _ master window _
          (fromRecurrenceWallTime_ok fun name hname => hregular name (hexpansion name hname))
          (createMaterializedOccurrence_regular fun name hname => hregular name (hseries name hname)) overridden starts []
        have hexcluding := emitOccurrences_excluding (fun slot (_ : slot ∉ excluded) => Iff.rfl) hrun
        change liftRange _ = (liftRange _).map _
        rw [hexcluding, hrun]
        rfl

end Excluding

/-! ## Series -/

def RRuleOptions.hours (options : RRuleOptions) : List ℤ :=
  options.byhour.getD (if options.freq = .hourly then (List.range 24).map Nat.cast else [getUTCHours options.dtstart])

def RRuleOptions.minutes (options : RRuleOptions) : List ℤ := options.byminute.getD [getUTCMinutes options.dtstart]

def RRuleOptions.seconds (options : RRuleOptions) : List ℤ := options.bysecond.getD [getUTCSeconds options.dtstart]

/-- The recurrence engine keeps times of day: an occurrence of a rule of hours or longer has those of its selectors,
and those of its start where it has no selector. -/
def KeepsTimes (occurs : RRuleOptions → ℤ → Prop) : Prop :=
  ∀ options w, options.freq ≠ .minutely → options.freq ≠ .secondly → options.dtstart % 1000 = 0 → occurs options w →
    ∃ day, ∃ hour ∈ options.hours, ∃ minute ∈ options.minutes, ∃ second ∈ options.seconds,
      w = day * msPerDay + timeOfDay hour minute second

/-- The numbers that a selector of a rule's text spells. -/
def ReadsNumbers (number : List Char → Option ℤ) (lo hi : ℤ) : Option (List Char) → Option (List ℤ) → Prop
  | none, numbers => numbers = none
  | some value, numbers => value ≠ [] ∧ ∃ l, numbers = some l ∧
    ∀ n, n ∈ l ↔ lo ≤ n ∧ n ≤ hi ∧ ∃ part ∈ splitCommas value, number part = some n

/-- The rule that a parser reads from its text, as far as its frequency, its interval and its times of day go. -/
structure ReadsRule (number : List Char → Option ℤ) (ruleValue : List Char) (rule : IcsRecurrenceRule) : Prop where
  frequency : String.ofList ((((ruleParts ruleValue).get? "FREQ".toList).getD []).map Char.toUpper) =
    rule.frequency.name
  byHour : ReadsNumbers number 0 23 ((ruleParts ruleValue).get? "BYHOUR".toList) rule.byHour
  byMinute : ReadsNumbers number 0 59 ((ruleParts ruleValue).get? "BYMINUTE".toList) rule.byMinute
  bySecond : ReadsNumbers number 0 60 ((ruleParts ruleValue).get? "BYSECOND".toList) rule.bySecond
  selectors : ((ruleParts ruleValue).keys.any fun name => "BY".toList.isPrefixOf name) = hasOccurrenceSelectors rule
  interval : (ruleParts ruleValue).get? "INTERVAL".toList = none ∧ rule.interval = none ∨
    ∃ value interval, (ruleParts ruleValue).get? "INTERVAL".toList = some value ∧ number value = some interval ∧
      rule.interval = some interval ∧ 0 < interval

def SeriesZone.timeZone : SeriesZone → Option String
  | .utc => none
  | .zoned _ resolved => resolved

/-- A timed series of hours or longer, and what is read of it in its text. -/
structure DatedSeries (rt : Runtime) (occurs : RRuleOptions → ℤ → Prop) (number : List Char → Option ℤ)
    (ruleValue : List Char) (context : SeriesMasterContext) (master : SyncableEvent) (rule : IcsRecurrenceRule) :
    Prop where
  enumerates : rt.Enumerates occurs
  stepsThrough : rt.StepsThrough
  keepsTimes : KeepsTimes occurs
  recurrenceRule : master.recurrenceRule = some rule
  timed : resolveIsAllDayEvent master.isAllDay master.startTime master.endTime = false
  frequency : rule.frequency ≠ .minutely ∧ rule.frequency ≠ .secondly
  reads : ReadsRule number ruleValue rule
  contextRule : context.rule = readSeriesRule number ruleValue
  zone : resolveTimeZone rt.zones master.startTimeZone = .ok context.zone.timeZone
  resolved : ∀ declared, context.zone ≠ .zoned declared none
  regular : ∀ name, context.zone.timeZone = some name →
    RegularZone rt.zones name ∧ ∀ t, offsetMillisecondsAt rt.zones name t % 1000 = 0
  startTime : fromRecurrenceWallTime rt context.startWallTime context.zone.timeZone = .ok master.startTime
  seconds : context.startWallTime % 1000 = 0

/-- The midnight of a date whose years four digits and `Date.UTC` keep, also those around it. -/
def IsPlainDate (date : ℤ) : Prop :=
  date % msPerDay = 0 ∧ InFullYears (date - msPerDay) ∧ InFullYears (date + 2 * msPerDay)

instance (date : ℤ) : Decidable (IsPlainDate date) := inferInstanceAs (Decidable (_ ∧ _ ∧ _))

/-- The slots of excluded dates: the instants that are written, and the wall times in the series' zone. -/
def exclusionDates (zones : Zones) (dates : List (List Char)) (context : SeriesMasterContext) :
    Except RangeError (List ℤ) := do
  let slots ← dates.mapM fun date => expandDateExclusion zones date context
  let wallTimes := (slots.flatMap (·.wallTimes)).filterMap readDateTimeWallTime
  let instants ← wallTimes.mapM fun wallTime => toZoneInstant zones wallTime context.zone
  return (slots.flatMap (·.instants)).filterMap readDateTimeWallTime ++ instants.filterMap id

section Dates

variable (rt : Runtime) (occurs : RRuleOptions → ℤ → Prop) (context : SeriesMasterContext) (master : SyncableEvent)
  (rule : IcsRecurrenceRule) (dates : List ℤ)

def SeriesMasterContext.wallZones : SeriesTimeZones := ⟨context.zone.timeZone, context.zone.timeZone⟩

/-- A wall time is of an excluded date. -/
def IsOnDate (w : ℤ) : Prop := ∃ date ∈ dates, date ≤ w ∧ w < date + msPerDay

/-- An occurrence falls on an excluded date: its wall time does, or what the clock shows at it where the series steps
through elapsed hours. -/
def FallsOnDate (slot : ℤ) : Prop :=
  if stepsInElapsedTime rule then IsOnDate dates (toRecurrenceWallTime rt slot context.zone.timeZone)
  else ∃ w, Lands rt occurs master rule context.wallZones w slot ∧ IsOnDate dates w

open Classical in
/-- **Excluded dates are removed from a series**, and nothing else: the series with these slots excluded is the series
without its occurrences of these dates. -/
def ExcludesDates (excluded overridden : List ℤ) (window : SyncWindow) : Prop :=
  materializeMaster rt (master.excluding excluded) overridden window =
    (materializeMaster rt master overridden window).map
      (·.filter fun e => ¬FallsOnDate rt occurs context master rule dates e.startTime)

def Emits (overridden : List ℤ) (window : SyncWindow) (slot : ℤ) : Prop :=
  ∃ l, materializeMaster rt master overridden window = .ok l ∧ ∃ e ∈ l, e.startTime = slot

end Dates

section Emits

variable {rt : Runtime} {occurs : RRuleOptions → ℤ → Prop} {context : SeriesMasterContext} {master : SyncableEvent}
  {rule : IcsRecurrenceRule} {dates excluded overridden : List ℤ} {window : SyncWindow}

/-- The dates are removed if and only if the excluded slots are those on them. -/
theorem excludesDates_iff_emits (hzones : ∃ timeZone, resolveTimeZone rt.zones master.startTimeZone = .ok timeZone ∧
    ∀ name, timeZone = some name → RegularZone rt.zones name) :
    ExcludesDates rt occurs context master rule dates excluded overridden window ↔
      ∀ slot, Emits rt master overridden window slot →
        (slot ∈ excluded ↔ FallsOnDate rt occurs context master rule dates slot) := by
  unfold ExcludesDates Emits
  rw [materializeMaster_excluding hzones]
  cases materializeMaster rt master overridden window with
  | error e =>
    refine iff_of_true rfl ?_
    rintro slot ⟨l, hl, -⟩
    cases hl
  | ok l =>
    constructor
    · rintro h slot ⟨l', hl', e, he, rfl⟩
      obtain rfl := Except.ok.inj hl'
      have heq := Except.ok.inj h
      by_contra hne
      have hmem := congrArg (fun l => e ∈ l) heq
      simp only [List.mem_filter, he, true_and, decide_eq_true_eq, eq_iff_iff] at hmem
      exact hne (not_iff_not.1 hmem)
    · intro h
      refine congrArg Except.ok (List.filter_congr fun e he => ?_)
      rw [decide_eq_decide]
      exact not_congr (h e.startTime ⟨l, rfl, e, he, rfl⟩)

/-- What the pass over the wall times emits is at the slot of one of them. -/
theorem exists_start_of_mem_emitOccurrences {starts emitted : List ℤ} {timeZones : SeriesTimeZones}
    {l : List MaterializedSyncableEvent}
    (h : emitOccurrences rt master overridden window timeZones starts emitted = .ok l)
    {e : MaterializedSyncableEvent} (he : e ∈ l) :
    ∃ w ∈ starts, fromRecurrenceWallTime rt w timeZones.expansionTimeZone = .ok e.startTime := by
  induction starts generalizing emitted l with
  | nil =>
    obtain rfl := Except.ok.inj h
    cases he
  | cons start starts ih =>
    have hrest : ∀ {emitted l}, emitOccurrences rt master overridden window timeZones starts emitted = .ok l → e ∈ l →
        ∃ w ∈ start :: starts, fromRecurrenceWallTime rt w timeZones.expansionTimeZone = .ok e.startTime := by
      intro emitted l hl hmem
      obtain ⟨w, hw, hslot⟩ := ih hl hmem
      exact ⟨w, List.mem_cons_of_mem _ hw, hslot⟩
    rw [emitOccurrences] at h
    obtain ⟨slot, hslot, h⟩ := bind_eq_ok_iff.1 h
    split_ifs at h
    · exact hrest h he
    · obtain ⟨occurrence, hocc, h⟩ := bind_eq_ok_iff.1 h
      obtain ⟨others, hothers, h⟩ := bind_eq_ok_iff.1 h
      obtain rfl := Except.ok.inj h
      split_ifs at he
      · rcases List.mem_cons.1 he with rfl | he
        · exact ⟨start, List.mem_cons_self, createMaterializedOccurrence_startTime hocc ▸ hslot⟩
        · exact hrest hothers he
      · exact hrest hothers he

/-- **What a series emits** is at the slot of a wall time of its rule. -/
theorem exists_lands_of_emits (henum : rt.Enumerates occurs) (hrule : master.recurrenceRule = some rule)
    {timeZones : SeriesTimeZones} (hzones : resolveSeriesTimeZones rt master rule = .ok timeZones) {slot : ℤ}
    (h : Emits rt master overridden window slot) : ∃ w, Lands rt occurs master rule timeZones w slot := by
  obtain ⟨l, hl, e, he, rfl⟩ := h
  unfold materializeMaster at hl
  rw [hrule] at hl
  dsimp only at hl
  split_ifs at hl
  · obtain rfl := Except.ok.inj hl
    cases he
  · obtain ⟨timeZones', hzones', hl⟩ := bind_eq_ok_iff.1 hl
    obtain rfl := Except.ok.inj (hzones.symm.trans (liftRange_eq_ok_iff.1 hzones'))
    obtain ⟨starts, hstarts, hl⟩ := bind_eq_ok_iff.1 hl
    obtain ⟨w, hw, hslot⟩ := exists_start_of_mem_emitOccurrences (liftRange_eq_ok_iff.1 hl) he
    have hbudget : occurrenceStarts rt master rule window timeZones.expansionTimeZone ≠
        .error (.limit master.limitError) := by
      rw [hstarts]
      exact fun heq => by cases heq
    obtain ⟨starts', hstarts', hmem⟩ := occurrenceStarts_ok henum hbudget
    obtain rfl := Except.ok.inj (hstarts.symm.trans hstarts')
    exact ⟨w, ((hmem w).1 hw).1, hslot⟩

end Emits

section Series

variable {rt : Runtime} {occurs : RRuleOptions → ℤ → Prop} {number : List Char → Option ℤ} {ruleValue : List Char}
  {context : SeriesMasterContext} {master : SyncableEvent} {rule : IcsRecurrenceRule} {dates excluded : List ℤ}
  (h : DatedSeries rt occurs number ruleValue context master rule)
include h

theorem DatedSeries.resolveSeriesTimeZones_wall (hwall : stepsInElapsedTime rule = false) :
    resolveSeriesTimeZones rt master rule = .ok context.wallZones := by
  rw [resolveSeriesTimeZones, h.zone]
  change (if resolveIsAllDayEvent master.isAllDay master.startTime master.endTime = true then _ else _) = _
  rw [if_neg (by rw [h.timed]; decide), if_neg (by rw [hwall]; decide)]
  rfl

theorem DatedSeries.resolveSeriesTimeZones_elapsed (helapsed : stepsInElapsedTime rule = true) :
    resolveSeriesTimeZones rt master rule = .ok ⟨none, context.zone.timeZone⟩ := by
  rw [resolveSeriesTimeZones, h.zone]
  change (if resolveIsAllDayEvent master.isAllDay master.startTime master.endTime = true then _ else _) = _
  rw [if_neg (by rw [h.timed]; decide), if_pos helapsed]
  rfl

theorem DatedSeries.stepsInElapsedTime_iff :
    stepsInElapsedTime rule = true ↔ rule.frequency = .hourly ∧ hasOccurrenceSelectors rule = false := by
  obtain ⟨hminutely, hsecondly⟩ := h.frequency
  unfold stepsInElapsedTime
  generalize rule.frequency = frequency at hminutely hsecondly ⊢
  cases frequency <;> simp_all [highFrequencyIntervalMs]

theorem DatedSeries.contextFrequency : context.rule.frequency = rule.frequency.name := by
  rw [h.contextRule]
  exact h.reads.frequency

theorem DatedSeries.contextFrequency_hourly : context.rule.frequency = "HOURLY" ↔ rule.frequency = .hourly := by
  rw [h.contextFrequency]
  cases rule.frequency <;> decide

theorem DatedSeries.stepsInElapsedHours_eq : context.stepsInElapsedHours = stepsInElapsedTime rule := by
  have hselectors : context.rule.hasSelectors = hasOccurrenceSelectors rule := by
    rw [h.contextRule]
    exact h.reads.selectors
  rw [Bool.eq_iff_iff, h.stepsInElapsedTime_iff, SeriesMasterContext.stepsInElapsedHours, Bool.and_eq_true,
    decide_eq_true_eq, h.contextFrequency_hourly, hselectors, Bool.not_eq_true']

theorem DatedSeries.contextInterval : context.rule.interval = some (rule.interval.getD 1) ∧ 0 < rule.interval.getD 1 := by
  rw [h.contextRule, readSeriesRule]
  dsimp only
  rcases h.reads.interval with ⟨hnone, hinterval⟩ | ⟨value, interval, hvalue, hnumber, hinterval, hpos⟩
  · rw [hnone, hinterval]
    exact ⟨rfl, by decide⟩
  · rw [hvalue, hinterval]
    dsimp only
    rw [hnumber, Option.getD_some, Option.map_some, max_eq_left (by omega)]
    exact ⟨rfl, hpos⟩

omit h in
/-- **A selector of the text** is read as that of the rule, and what stands for it where there is none. -/
theorem mem_readNumberList_iff {value : Option (List Char)} {numbers : Option (List ℤ)} {lo hi : ℤ}
    (hreads : ReadsNumbers number lo hi value numbers) (defaults : List ℤ) (n : ℤ) :
    n ∈ (readNumberList number value lo hi).getD defaults ↔ n ∈ numbers.getD defaults := by
  cases value with
  | none =>
    obtain rfl : numbers = none := hreads
    exact Iff.rfl
  | some value =>
    obtain ⟨hne, l, rfl, hmem⟩ := hreads
    cases value with
    | nil => exact absurd rfl hne
    | cons c value =>
      rw [readNumberList, Option.getD_some, Option.getD_some, JsArray.mem_toSorted, List.mem_filter, List.mem_dedup,
        List.mem_filterMap, hmem, decide_eq_true_eq]
      · tauto
      · exact hne

omit h in
theorem range_of_reads {value : Option (List Char)} {numbers : Option (List ℤ)} {lo hi : ℤ}
    (hreads : ReadsNumbers number lo hi value numbers) {defaults : List ℤ} (hdefaults : ∀ n ∈ defaults, lo ≤ n ∧ n ≤ hi)
    {n : ℤ} (hn : n ∈ numbers.getD defaults) : lo ≤ n ∧ n ≤ hi := by
  cases value with
  | none =>
    obtain rfl : numbers = none := hreads
    exact hdefaults n hn
  | some value =>
    obtain ⟨-, l, rfl, hmem⟩ := hreads
    have := (hmem n).1 hn
    exact ⟨this.1, this.2.1⟩

theorem DatedSeries.mem_hours_iff (hour : ℤ) : hour ∈ context.hours ↔
    hour ∈ rule.byHour.getD (if rule.frequency = .hourly then (List.range 24).map Nat.cast
      else [getUTCHours context.startWallTime]) := by
  have hbyHour : context.rule.byHour = readNumberList number ((ruleParts ruleValue).get? "BYHOUR".toList) 0 23 := by
    rw [h.contextRule]
    rfl
  rw [SeriesMasterContext.hours, hbyHour, mem_readNumberList_iff h.reads.byHour]
  simp only [h.contextFrequency_hourly]

theorem DatedSeries.mem_minutes_iff (minute : ℤ) : minute ∈ context.minutes ↔
    minute ∈ rule.byMinute.getD [getUTCMinutes context.startWallTime] := by
  have hbyMinute : context.rule.byMinute =
      readNumberList number ((ruleParts ruleValue).get? "BYMINUTE".toList) 0 59 := by
    rw [h.contextRule]
    rfl
  rw [SeriesMasterContext.minutes, hbyMinute, mem_readNumberList_iff h.reads.byMinute]

theorem DatedSeries.mem_seconds_iff (second : ℤ) : second ∈ context.seconds ↔
    second ∈ rule.bySecond.getD [getUTCSeconds context.startWallTime] := by
  have hbySecond : context.rule.bySecond =
      readNumberList number ((ruleParts ruleValue).get? "BYSECOND".toList) 0 60 := by
    rw [h.contextRule]
    rfl
  rw [SeriesMasterContext.seconds, hbySecond, mem_readNumberList_iff h.reads.bySecond]

/-- **The times of an excluded date** are in a day, or at its end. -/
theorem DatedSeries.times_range {hour minute second : ℤ} (hhour : hour ∈ context.hours)
    (hminute : minute ∈ context.minutes) (hsecond : second ∈ context.seconds) :
    (0 ≤ hour ∧ hour ≤ 23) ∧ (0 ≤ minute ∧ minute ≤ 59) ∧ 0 ≤ second ∧ second ≤ 60 := by
  refine ⟨range_of_reads h.reads.byHour ?_ ((h.mem_hours_iff hour).1 hhour),
    range_of_reads h.reads.byMinute ?_ ((h.mem_minutes_iff minute).1 hminute),
    range_of_reads h.reads.bySecond ?_ ((h.mem_seconds_iff second).1 hsecond)⟩
  · intro n hn
    split_ifs at hn
    · obtain ⟨k, hk, rfl⟩ := List.mem_map.1 hn
      have := List.mem_range.1 hk
      omega
    · obtain rfl := List.mem_singleton.1 hn
      unfold getUTCHours
      omega
  · intro n hn
    obtain rfl := List.mem_singleton.1 hn
    unfold getUTCMinutes
    omega
  · intro n hn
    obtain rfl := List.mem_singleton.1 hn
    unfold getUTCSeconds
    omega

/-! ## What dates are expanded to -/

omit h in
/-- **The slots of excluded dates** are those that are written for one of them. -/
theorem mem_exclusionDates_iff {zones : Zones} {texts : List (List Char)} {excluded : List ℤ}
    (hexcluded : exclusionDates zones texts context = .ok excluded) {slot : ℤ} :
    slot ∈ excluded ↔ ∃ text ∈ texts, ∃ slots, expandDateExclusion zones text context = .ok slots ∧
      ((∃ written ∈ slots.instants, readDateTimeWallTime written = some slot) ∨
        ∃ written ∈ slots.wallTimes, ∃ w, readDateTimeWallTime written = some w ∧
          toZoneInstant zones w context.zone = .ok (some slot)) := by
  obtain ⟨slots, hslots, hexcluded⟩ := bind_eq_ok_iff.1 hexcluded
  obtain ⟨instants, hinstants, hexcluded⟩ := bind_eq_ok_iff.1 hexcluded
  obtain rfl := Except.ok.inj hexcluded
  simp only [List.mem_append, List.mem_filterMap, List.mem_flatMap, mem_mapM_iff hslots, mem_mapM_iff hinstants,
    id_eq]
  constructor
  · rintro (⟨written, ⟨s, ⟨text, htext, hs⟩, hmem⟩, hread⟩ | ⟨_, ⟨w, ⟨written, ⟨s, ⟨text, htext, hs⟩, hmem⟩, hread⟩,
      hw⟩, rfl⟩)
    · exact ⟨text, htext, s, hs, Or.inl ⟨written, hmem, hread⟩⟩
    · exact ⟨text, htext, s, hs, Or.inr ⟨written, hmem, w, hread, hw⟩⟩
  · rintro ⟨text, htext, s, hs, ⟨written, hmem, hread⟩ | ⟨written, hmem, w, hread, hw⟩⟩
    · exact Or.inl ⟨written, ⟨s, ⟨text, htext, hs⟩, hmem⟩, hread⟩
    · exact Or.inr ⟨_, ⟨w, ⟨written, ⟨s, ⟨text, htext, hs⟩, hmem⟩, hread⟩, hw⟩, rfl⟩

omit h in
/-- In the zone of a series wall times are resolved as those of its rule. -/
theorem toZoneInstant_eq_ok_iff (hresolved : ∀ declared, context.zone ≠ .zoned declared none) {w : ℤ}
    {instant : Option ℤ} : toZoneInstant rt.zones w context.zone = .ok instant ↔
      ∃ t, instant = some t ∧ fromRecurrenceWallTime rt w context.zone.timeZone = .ok t := by
  cases hzone : context.zone with
  | utc =>
    simp only [toZoneInstant, SeriesZone.timeZone, fromRecurrenceWallTime, Except.ok.injEq]
    constructor
    · rintro rfl
      exact ⟨w, rfl, rfl⟩
    · rintro ⟨t, rfl, rfl⟩
      rfl
  | zoned declared resolved =>
    cases resolved with
    | none => exact absurd hzone (hresolved declared)
    | some name =>
      rw [toZoneInstant, bind_eq_ok_iff]
      constructor
      · rintro ⟨t, ht, hinstant⟩
        exact ⟨t, (Except.ok.inj hinstant).symm, ht⟩
      · rintro ⟨t, rfl, ht⟩
        exact ⟨t, ht, rfl⟩

/-- A wall time of an excluded date: its midnight and a time of the series. -/
def IsSlot (context : SeriesMasterContext) (date x : ℤ) : Prop :=
  ∃ hour ∈ context.hours, ∃ minute ∈ context.minutes, ∃ second ∈ context.seconds,
    x = date + timeOfDay hour minute second

omit h in
theorem IsPlainDate.readDateWallTime_eq {date : ℤ} (hdate : IsPlainDate date) (dayOffset : ℤ) :
    readDateWallTime (toIcsDate date) dayOffset = date + dayOffset * msPerDay := by
  obtain ⟨hmidnight, hbefore, hafter⟩ := hdate
  have hday : msPerDay = 86400000 := rfl
  have hyears := hbefore.of_between hafter (show date - msPerDay ≤ date by omega) (by omega)
  rw [hday] at hmidnight
  rw [readDateWallTime_toIcsDate hyears, hday]
  omega

theorem DatedSeries.readable {date x : ℤ} (hdate : IsPlainDate date) (hx : IsSlot context date x) :
    InFullYears x ∧ x % 1000 = 0 := by
  obtain ⟨hour, hhour, minute, hminute, second, hsecond, rfl⟩ := hx
  obtain ⟨hmidnight, hbefore, hafter⟩ := hdate
  have hrange := h.times_range hhour hminute hsecond
  have hday : msPerDay = 86400000 := rfl
  unfold timeOfDay at *
  rw [hday] at hmidnight
  exact ⟨hbefore.of_between hafter (by omega) (by omega), by omega⟩

theorem DatedSeries.expandDateExclusion_wall (hwall : stepsInElapsedTime rule = false) {text : List Char}
    {slots : DateExclusionSlots} (hslots : expandDateExclusion rt.zones text context = .ok slots) :
    ∃ wallTimes, listSlotWallTimes text context = .ok wallTimes ∧
      (context.zone = .utc ∧ slots = ⟨wallTimes.map toUtcIcsDateTime, []⟩ ∨
        context.zone ≠ .utc ∧ slots = ⟨[], wallTimes.map toFloatingIcsDateTime⟩) := by
  rw [expandDateExclusion, if_neg (by rw [h.stepsInElapsedHours_eq, hwall]; decide)] at hslots
  change listSlotWallTimes text context >>= _ = _ at hslots
  obtain ⟨wallTimes, hwallTimes, hslots⟩ := bind_eq_ok_iff.1 hslots
  refine ⟨wallTimes, hwallTimes, ?_⟩
  cases hzone : context.zone with
  | utc =>
    rw [hzone] at hslots
    exact Or.inl ⟨rfl, (Except.ok.inj hslots).symm⟩
  | zoned declared resolved =>
    rw [hzone] at hslots
    exact Or.inr ⟨by simp, (Except.ok.inj hslots).symm⟩

/-- **The slots of a series in wall times.** -/
theorem DatedSeries.mem_exclusionDates_wall (hwall : stepsInElapsedTime rule = false)
    (hdates : ∀ date ∈ dates, IsPlainDate date)
    (hexcluded : exclusionDates rt.zones (dates.map toIcsDate) context = .ok excluded) {slot : ℤ} :
    slot ∈ excluded ↔ ∃ date ∈ dates, ∃ x, IsSlot context date x ∧
      fromRecurrenceWallTime rt x context.zone.timeZone = .ok slot := by
  have hfrequency : ¬(context.rule.frequency = "MINUTELY" ∨ context.rule.frequency = "SECONDLY") := by
    obtain ⟨hminutely, hsecondly⟩ := h.frequency
    rw [h.contextFrequency]
    generalize rule.frequency = frequency at hminutely hsecondly ⊢
    cases frequency <;> simp_all [IcsFrequency.name]
  have hmem : ∀ date ∈ dates, ∀ wallTimes, listSlotWallTimes (toIcsDate date) context = .ok wallTimes →
      ∀ x, x ∈ wallTimes ↔ IsSlot context date x := by
    intro date hdate wallTimes hwallTimes x
    have hmidnight := (hdates date hdate).readDateWallTime_eq 0
    rw [zero_mul, add_zero] at hmidnight
    rw [mem_listSlotWallTimes_iff hwallTimes hfrequency, hmidnight]
    rfl
  rw [mem_exclusionDates_iff hexcluded]
  constructor
  · rintro ⟨text, htext, slots, hslots, hwritten⟩
    obtain ⟨date, hdate, rfl⟩ := List.mem_map.1 htext
    obtain ⟨wallTimes, hwallTimes, hcase⟩ := h.expandDateExclusion_wall hwall hslots
    refine ⟨date, hdate, ?_⟩
    rcases hcase with ⟨hutc, rfl⟩ | ⟨-, rfl⟩
    · rcases hwritten with ⟨written, hwritten, hread⟩ | ⟨written, hwritten, -⟩
      · obtain ⟨x, hx, rfl⟩ := List.mem_map.1 hwritten
        have hslot := (hmem date hdate _ hwallTimes x).1 hx
        obtain ⟨hyears, hseconds⟩ := h.readable (hdates date hdate) hslot
        obtain rfl := Option.some.inj ((readDateTimeWallTime_utc hyears hseconds).symm.trans hread)
        refine ⟨x, hslot, ?_⟩
        rw [hutc]
        rfl
      · cases hwritten
    · rcases hwritten with ⟨written, hwritten, -⟩ | ⟨written, hwritten, w, hread, hinstant⟩
      · cases hwritten
      · obtain ⟨x, hx, rfl⟩ := List.mem_map.1 hwritten
        have hslot := (hmem date hdate _ hwallTimes x).1 hx
        obtain ⟨hyears, hseconds⟩ := h.readable (hdates date hdate) hslot
        obtain rfl := Option.some.inj ((readDateTimeWallTime_floating hyears hseconds).symm.trans hread)
        obtain ⟨t, ht, hfrom⟩ := (toZoneInstant_eq_ok_iff h.resolved).1 hinstant
        obtain rfl := Option.some.inj ht
        exact ⟨x, hslot, hfrom⟩
  · rintro ⟨date, hdate, x, hslot, hfrom⟩
    obtain ⟨allSlots, hall, -⟩ := bind_eq_ok_iff.1 hexcluded
    obtain ⟨slots, hslots⟩ := (mapM_eq_ok_iff.1 hall).1 (toIcsDate date) (List.mem_map_of_mem hdate)
    obtain ⟨wallTimes, hwallTimes, hcase⟩ := h.expandDateExclusion_wall hwall hslots
    have hx := (hmem date hdate _ hwallTimes x).2 hslot
    obtain ⟨hyears, hseconds⟩ := h.readable (hdates date hdate) hslot
    refine ⟨_, List.mem_map_of_mem hdate, slots, hslots, ?_⟩
    rcases hcase with ⟨hutc, rfl⟩ | ⟨-, rfl⟩
    · rw [hutc] at hfrom
      obtain rfl := Except.ok.inj hfrom
      exact Or.inl ⟨_, List.mem_map_of_mem hx, readDateTimeWallTime_utc hyears hseconds⟩
    · exact Or.inr ⟨_, List.mem_map_of_mem hx, x, readDateTimeWallTime_floating hyears hseconds,
        (toZoneInstant_eq_ok_iff h.resolved).2 ⟨slot, rfl, hfrom⟩⟩

theorem DatedSeries.startTime_seconds : master.startTime % 1000 = 0 := by
  have hstart := h.startTime
  have hseconds := h.seconds
  cases hzone : context.zone.timeZone with
  | none =>
    rw [hzone] at hstart
    rw [← Except.ok.inj hstart]
    exact hseconds
  | some name =>
    rw [hzone] at hstart
    obtain ⟨-, hwhole⟩ := h.regular name hzone
    have hbefore := hwhole (context.startWallTime - probeWindowMs)
    have hafter := hwhole (context.startWallTime + probeWindowMs)
    rcases wallTimeToInstantWith_eq (wallTimeToInstant_eq_ok_iff.1 hstart) with heq | heq <;> omega

theorem DatedSeries.instant_bounds {w t : ℤ} (ht : fromRecurrenceWallTime rt w context.zone.timeZone = .ok t) :
    w - msPerDay ≤ t ∧ t ≤ w + msPerDay := by
  have hday : msPerDay = 86400000 := rfl
  cases hzone : context.zone.timeZone with
  | none =>
    rw [hzone] at ht
    obtain rfl := Except.ok.inj ht
    omega
  | some name =>
    rw [hzone] at ht
    exact wallTimeToInstant_bounds rt.zones (h.regular name hzone).1 ht

theorem DatedSeries.expandDateExclusion_elapsed (helapsed : stepsInElapsedTime rule = true) {text : List Char}
    {slots : DateExclusionSlots} (hslots : expandDateExclusion rt.zones text context = .ok slots) :
    ∃ dayStart dayEnd, fromRecurrenceWallTime rt (readDateWallTime text 0) context.zone.timeZone = .ok dayStart ∧
      fromRecurrenceWallTime rt (readDateWallTime text 1) context.zone.timeZone = .ok dayEnd ∧
      slots = ⟨(elapsedInstants master.startTime (rule.interval.getD 1 * msPerHour) dayEnd
        (max (-(-(dayStart - master.startTime) / (rule.interval.getD 1 * msPerHour))) 0)).map toUtcIcsDateTime, []⟩ := by
  rw [expandDateExclusion, if_pos (by rw [h.stepsInElapsedHours_eq, helapsed])] at hslots
  obtain ⟨instants, hinstants, hslots⟩ := bind_eq_ok_iff.1 hslots
  obtain ⟨dayStart, hdayStart, hinstants⟩ := bind_eq_ok_iff.1 hinstants
  obtain ⟨dayEnd, hdayEnd, hinstants⟩ := bind_eq_ok_iff.1 hinstants
  obtain ⟨seriesStart, hseriesStart, hinstants⟩ := bind_eq_ok_iff.1 hinstants
  obtain ⟨dayStart, rfl, hstart⟩ := (toZoneInstant_eq_ok_iff h.resolved).1 hdayStart
  obtain ⟨dayEnd, rfl, hend⟩ := (toZoneInstant_eq_ok_iff h.resolved).1 hdayEnd
  obtain ⟨seriesStart, rfl, hseries⟩ := (toZoneInstant_eq_ok_iff h.resolved).1 hseriesStart
  obtain rfl : seriesStart = master.startTime := Except.ok.inj (hseries.symm.trans h.startTime)
  refine ⟨dayStart, dayEnd, hstart, hend, ?_⟩
  rw [h.contextInterval.1] at hinstants
  obtain rfl := Except.ok.inj hinstants
  exact (Except.ok.inj hslots).symm

/-- A step of the series lies between the instants of the midnights of a date. -/
def IsBetweenMidnights (rt : Runtime) (context : SeriesMasterContext) (date slot : ℤ) : Prop :=
  ∃ dayStart dayEnd, fromRecurrenceWallTime rt date context.zone.timeZone = .ok dayStart ∧
    fromRecurrenceWallTime rt (date + msPerDay) context.zone.timeZone = .ok dayEnd ∧ dayStart ≤ slot ∧ slot < dayEnd

/-- **The slots of a series of elapsed hours.** -/
theorem DatedSeries.mem_exclusionDates_elapsed (helapsed : stepsInElapsedTime rule = true)
    (hdates : ∀ date ∈ dates, IsPlainDate date)
    (hexcluded : exclusionDates rt.zones (dates.map toIcsDate) context = .ok excluded) {slot : ℤ} :
    slot ∈ excluded ↔ ∃ date ∈ dates, IsBetweenMidnights rt context date slot ∧
      ∃ k, 0 ≤ k ∧ slot = master.startTime + k * (rule.interval.getD 1 * msPerHour) := by
  have hhour : msPerHour = 3600000 := rfl
  have hday : msPerDay = 86400000 := rfl
  have hstep : 0 < rule.interval.getD 1 * msPerHour := mul_pos h.contextInterval.2 (by decide)
  have hstart := h.startTime_seconds
  have hwhole : ∀ k, (master.startTime + k * (rule.interval.getD 1 * msPerHour)) % 1000 = 0 := by
    intro k
    have hmul : k * (rule.interval.getD 1 * msPerHour) = k * rule.interval.getD 1 * 3600 * 1000 := by
      rw [hhour]
      ring
    omega
  have hmidnights : ∀ date ∈ dates, readDateWallTime (toIcsDate date) 0 = date ∧
      readDateWallTime (toIcsDate date) 1 = date + msPerDay := by
    intro date hdate
    rw [(hdates date hdate).readDateWallTime_eq, (hdates date hdate).readDateWallTime_eq, zero_mul, add_zero, one_mul]
    exact ⟨rfl, rfl⟩
  have hindex : ∀ dayStart k, max (-(-(dayStart - master.startTime) / (rule.interval.getD 1 * msPerHour))) 0 ≤ k ↔
      dayStart ≤ master.startTime + k * (rule.interval.getD 1 * msPerHour) ∧ 0 ≤ k := by
    intro dayStart k
    have hceil := ceilDiv_le_iff (a := dayStart - master.startTime) (k := k) hstep
    rw [ceilDiv] at hceil
    rw [max_le_iff, hceil, sub_le_iff_le_add']
  have hreadable : ∀ date ∈ dates, ∀ dayStart dayEnd k,
      fromRecurrenceWallTime rt date context.zone.timeZone = .ok dayStart →
      fromRecurrenceWallTime rt (date + msPerDay) context.zone.timeZone = .ok dayEnd →
      dayStart ≤ master.startTime + k * (rule.interval.getD 1 * msPerHour) →
      master.startTime + k * (rule.interval.getD 1 * msPerHour) < dayEnd →
      readDateTimeWallTime (toUtcIcsDateTime (master.startTime + k * (rule.interval.getD 1 * msPerHour))) =
        some (master.startTime + k * (rule.interval.getD 1 * msPerHour)) := by
    intro date hdate dayStart dayEnd k hdayStart hdayEnd hlo hhi
    obtain ⟨-, hbefore, hafter⟩ := hdates date hdate
    have hfirst := (h.instant_bounds hdayStart).1
    have hlast := (h.instant_bounds hdayEnd).2
    exact readDateTimeWallTime_utc (hbefore.of_between hafter (by omega) (by omega)) (hwhole k)
  rw [mem_exclusionDates_iff hexcluded]
  constructor
  · rintro ⟨text, htext, slots, hslots, hwritten⟩
    obtain ⟨date, hdate, rfl⟩ := List.mem_map.1 htext
    obtain ⟨dayStart, dayEnd, hdayStart, hdayEnd, rfl⟩ := h.expandDateExclusion_elapsed helapsed hslots
    rw [(hmidnights date hdate).1] at hdayStart
    rw [(hmidnights date hdate).2] at hdayEnd
    rcases hwritten with ⟨written, hwritten, hread⟩ | ⟨written, hwritten, -⟩
    · obtain ⟨t, ht, rfl⟩ := List.mem_map.1 hwritten
      obtain ⟨k, hk, rfl, hlt⟩ := (mem_elapsedInstants_iff hstep).1 ht
      obtain ⟨hle, hk⟩ := (hindex dayStart k).1 hk
      obtain rfl := Option.some.inj ((hreadable date hdate dayStart dayEnd k hdayStart hdayEnd hle hlt).symm.trans hread)
      exact ⟨date, hdate, ⟨dayStart, dayEnd, hdayStart, hdayEnd, hle, hlt⟩, k, hk, rfl⟩
    · cases hwritten
  · rintro ⟨date, hdate, ⟨dayStart, dayEnd, hdayStart, hdayEnd, hle, hlt⟩, k, hk, rfl⟩
    obtain ⟨allSlots, hall, -⟩ := bind_eq_ok_iff.1 hexcluded
    obtain ⟨slots, hslots⟩ := (mapM_eq_ok_iff.1 hall).1 (toIcsDate date) (List.mem_map_of_mem hdate)
    obtain ⟨dayStart', dayEnd', hdayStart', hdayEnd', rfl⟩ := h.expandDateExclusion_elapsed helapsed hslots
    rw [(hmidnights date hdate).1] at hdayStart'
    rw [(hmidnights date hdate).2] at hdayEnd'
    obtain rfl := Except.ok.inj (hdayStart.symm.trans hdayStart')
    obtain rfl := Except.ok.inj (hdayEnd.symm.trans hdayEnd')
    refine ⟨_, List.mem_map_of_mem hdate, _, hslots, Or.inl ⟨_, List.mem_map_of_mem ?_,
      hreadable date hdate dayStart dayEnd k hdayStart hdayEnd hle hlt⟩⟩
    exact (mem_elapsedInstants_iff hstep).2 ⟨k, (hindex dayStart k).2 ⟨hle, hk⟩, rfl, hlt⟩

/-- **What a series of elapsed hours emits** is a step of it. -/
theorem DatedSeries.step_of_emits (helapsed : stepsInElapsedTime rule = true) {overridden : List ℤ}
    {window : SyncWindow} {slot : ℤ} (hemits : Emits rt master overridden window slot) :
    ∃ k, 0 ≤ k ∧ slot = master.startTime + k * (rule.interval.getD 1 * msPerHour) := by
  obtain ⟨w, hoccurs, hslot⟩ := exists_lands_of_emits h.enumerates h.recurrenceRule
    (h.resolveSeriesTimeZones_elapsed helapsed) hemits
  obtain rfl := Except.ok.inj hslot
  obtain ⟨hhourly, hselectors⟩ := h.stepsInElapsedTime_iff.1 helapsed
  have hinterval : ∀ interval, (toRRuleOptions rt rule master.startTime none).interval = some interval → 0 < interval := by
    intro interval hinterval
    have hpos := h.contextInterval.2
    rw [show rule.interval = some interval from hinterval] at hpos
    exact hpos
  obtain ⟨steps, hsteps, -, hmem⟩ := h.stepsThrough (toRRuleOptions rt rule master.startTime none) 3600000 w w
    (by rw [toRRuleOptions, hhourly]; rfl) (by rw [isUnfiltered_toRRuleOptions, hselectors]; rfl) hinterval
  obtain ⟨listed, hlisted, hmem'⟩ := h.enumerates.between (toRRuleOptions rt rule master.startTime none) w w
  obtain rfl := Except.ok.inj (hsteps.symm.trans hlisted)
  obtain ⟨k, hk, hw, -⟩ := (hmem w).1 ((hmem' w).2 ⟨hoccurs, le_rfl, le_rfl⟩)
  refine ⟨k, hk, hw.trans ?_⟩
  rw [mul_comm (rule.interval.getD 1)]
  rfl

/-! ## Slots and dates -/

/-- A slot meets a wall time: they are the same, or the clock is set over one of them to the other. -/
def Meets (zones : Zones) (timeZone : Option String) (x w : ℤ) : Prop :=
  x = w ∨ ∃ name, timeZone = some name ∧
    (SkipsTo (offsetMillisecondsAt zones name) x w ∨ SkipsTo (offsetMillisecondsAt zones name) w x)

/-- **Wall times that meet** have one instant. -/
theorem DatedSeries.meets_iff {x w t : ℤ} (hw : fromRecurrenceWallTime rt w context.zone.timeZone = .ok t) :
    fromRecurrenceWallTime rt x context.zone.timeZone = .ok t ↔ Meets rt.zones context.zone.timeZone x w := by
  unfold Meets
  cases hzone : context.zone.timeZone with
  | none =>
    rw [hzone] at hw
    obtain rfl := Except.ok.inj hw
    simp [fromRecurrenceWallTime]
  | some name =>
    rw [hzone] at hw
    have hshares := @sharesInstant_iff _ (h.regular name hzone).1 _ x _ (wallTimeToInstant_eq_ok_iff.1 hw)
    rw [fromRecurrenceWallTime, wallTimeToInstant_eq_ok_iff, hshares, eq_comm (a := w), Or.comm (a := SkipsTo _ w x)]
    simp

/-- The times of the text are those of the rule: the clock shows the start as it is written, and no second is the
sixtieth. -/
def KeepsStart (rt : Runtime) (context : SeriesMasterContext) (master : SyncableEvent) (rule : IcsRecurrenceRule) :
    Prop :=
  toRecurrenceWallTime rt master.startTime context.zone.timeZone = context.startWallTime ∧
    ∀ seconds, rule.bySecond = some seconds → 60 ∉ seconds

/-- **A wall time of the series on a date** is a slot of the date where the start is kept. -/
theorem DatedSeries.isSlot_of_lands (hkept : KeepsStart rt context master rule) {w slot date : ℤ}
    (hlands : Lands rt occurs master rule context.wallZones w slot) (hdate : date % msPerDay = 0)
    (hon : date ≤ w ∧ w < date + msPerDay) : IsSlot context date w := by
  obtain ⟨hstart, hsixtieth⟩ := hkept
  obtain ⟨hoccurs, -⟩ := hlands
  change occurs (toRRuleOptions rt rule (toRecurrenceWallTime rt master.startTime context.zone.timeZone)
    context.zone.timeZone) w at hoccurs
  rw [hstart] at hoccurs
  obtain ⟨day, hour, hhour, minute, hminute, second, hsecond, rfl⟩ :=
    h.keepsTimes _ w h.frequency.1 h.frequency.2 h.seconds hoccurs
  replace hhour := (h.mem_hours_iff hour).2 hhour
  replace hminute := (h.mem_minutes_iff minute).2 hminute
  have hsecond' := (h.mem_seconds_iff second).2 hsecond
  obtain ⟨hhours, hminutes, hseconds⟩ := h.times_range hhour hminute hsecond'
  have hbelow : second ≠ 60 := by
    rintro rfl
    cases hbySecond : rule.bySecond with
    | none =>
      rw [RRuleOptions.seconds, toRRuleOptions, hbySecond] at hsecond
      have heq := List.mem_singleton.1 hsecond
      simp only [getUTCSeconds] at heq
      omega
    | some seconds =>
      rw [RRuleOptions.seconds, toRRuleOptions, hbySecond] at hsecond
      exact hsixtieth seconds hbySecond hsecond
  refine ⟨hour, hhour, minute, hminute, second, hsecond', ?_⟩
  have hday : msPerDay = 86400000 := rfl
  unfold timeOfDay at hon ⊢
  rw [hday] at hdate hon ⊢
  omega

end Series

section Conditions

variable (rt : Runtime) (occurs : RRuleOptions → ℤ → Prop) (context : SeriesMasterContext) (master : SyncableEvent)
  (rule : IcsRecurrenceRule) (dates overridden : List ℤ) (window : SyncWindow)

/-- The slots of excluded dates meet the occurrences of these dates, as far as these are in the window: no slot meets
an occurrence of other dates, and the start is kept, or each occurrence of a date meets a slot all the same. -/
structure SlotsMeetDates : Prop where
  apart : ∀ slot, Emits rt master overridden window slot →
    ∀ w, Lands rt occurs master rule context.wallZones w slot → ∀ date ∈ dates, ∀ x, IsSlot context date x →
      Meets rt.zones context.zone.timeZone x w → FallsOnDate rt occurs context master rule dates slot
  kept : KeepsStart rt context master rule ∨ ∀ slot, Emits rt master overridden window slot →
    FallsOnDate rt occurs context master rule dates slot →
      ∃ w, Lands rt occurs master rule context.wallZones w slot ∧ ∃ date ∈ dates, ∃ x, IsSlot context date x ∧
        Meets rt.zones context.zone.timeZone x w

/-- The days of excluded dates hold the steps at which the clock shows these dates, as far as these are in the
window. -/
def DaysHoldDates : Prop :=
  ∀ slot, Emits rt master overridden window slot →
    ((∃ date ∈ dates, IsBetweenMidnights rt context date slot) ↔
      IsOnDate dates (toRecurrenceWallTime rt slot context.zone.timeZone))

end Conditions

section Results

variable {rt : Runtime} {occurs : RRuleOptions → ℤ → Prop} {number : List Char → Option ℤ} {ruleValue : List Char}
  {context : SeriesMasterContext} {master : SyncableEvent} {rule : IcsRecurrenceRule} {dates excluded : List ℤ}

/-- **Excluded dates are removed from a series, and nothing else**, if and only if their slots meet the occurrences of
these dates, or their days hold them where the series steps through elapsed hours. -/
theorem excludesDates_iff (h : DatedSeries rt occurs number ruleValue context master rule)
    (hdates : ∀ date ∈ dates, IsPlainDate date)
    (hexcluded : exclusionDates rt.zones (dates.map toIcsDate) context = .ok excluded) (overridden : List ℤ)
    (window : SyncWindow) :
    ExcludesDates rt occurs context master rule dates excluded overridden window ↔
      if stepsInElapsedTime rule then DaysHoldDates rt context master dates overridden window
      else SlotsMeetDates rt occurs context master rule dates overridden window := by
  rw [excludesDates_iff_emits ⟨_, h.zone, fun name hname => (h.regular name hname).1⟩]
  split_ifs with helapsed
  · refine forall₂_congr fun slot hemits => ?_
    have hstep := h.step_of_emits helapsed hemits
    rw [h.mem_exclusionDates_elapsed helapsed hdates hexcluded, FallsOnDate, if_pos helapsed]
    refine iff_congr ?_ Iff.rfl
    simp only [hstep, and_true]
  · rw [Bool.not_eq_true] at helapsed
    have hmem := @DatedSeries.mem_exclusionDates_wall _ _ _ _ _ _ _ _ _ h helapsed hdates hexcluded
    have hlands : ∀ slot, Emits rt master overridden window slot →
        ∃ w, Lands rt occurs master rule context.wallZones w slot := fun slot hemits =>
      exists_lands_of_emits h.enumerates h.recurrenceRule (h.resolveSeriesTimeZones_wall helapsed) hemits
    constructor
    · intro hall
      refine ⟨fun slot hemits w hw date hdate x hx hmeets => ?_, Or.inr fun slot hemits hfalls => ?_⟩
      · exact (hall slot hemits).1 (hmem.2 ⟨date, hdate, x, hx, (h.meets_iff hw.2).2 hmeets⟩)
      · obtain ⟨date, hdate, x, hx, hslot⟩ := hmem.1 ((hall slot hemits).2 hfalls)
        obtain ⟨w, hw⟩ := hlands slot hemits
        exact ⟨w, hw, date, hdate, x, hx, (h.meets_iff hw.2).1 hslot⟩
    · rintro ⟨hapart, hkept⟩ slot hemits
      constructor
      · intro hin
        obtain ⟨date, hdate, x, hx, hslot⟩ := hmem.1 hin
        obtain ⟨w, hw⟩ := hlands slot hemits
        exact hapart slot hemits w hw date hdate x hx ((h.meets_iff hw.2).1 hslot)
      · intro hfalls
        rcases hkept with hkept | hmeets
        · rw [FallsOnDate, if_neg (by rw [helapsed]; decide)] at hfalls
          obtain ⟨w, hw, date, hdate, hon⟩ := hfalls
          exact hmem.2 ⟨date, hdate, w, h.isSlot_of_lands hkept hw (hdates date hdate).1 hon, hw.2⟩
        · obtain ⟨w, hw, date, hdate, x, hx, hmeet⟩ := hmeets slot hemits hfalls
          exact hmem.2 ⟨date, hdate, x, hx, (h.meets_iff hw.2).2 hmeet⟩

end Results

/-! ## An engine -/

namespace Example

/-- The step of an unfiltered rule of days or less. -/
def stepOf : IcsFrequency → Option ℤ
  | .daily => some msPerDay
  | frequency => highFrequencyIntervalMs frequency

def occursInSteps (options : RRuleOptions) (w : ℤ) : Prop :=
  options.isUnfiltered = true ∧ 0 < options.interval.getD 1 ∧ ∃ step, stepOf options.freq = some step ∧
    w ∈ options.stepsBetween step w w

def listSteps (options : RRuleOptions) (step a b : ℤ) : List ℤ :=
  (List.range (options.lastIndex step b - options.firstIndex step a + 1).toNat).map fun i : ℕ =>
    options.dtstart + (options.firstIndex step a + i) * (step * options.interval.getD 1)

/-- The zone of Samoa, and an engine for unfiltered rules of days or less. -/
def samoanSteps : Runtime where
  host := runtime.host
  zones := samoa
  between options a b :=
    match stepOf options.freq with
    | some step => .ok (if options.isUnfiltered ∧ 0 < options.interval.getD 1 then listSteps options step a b else [])
    | none => .ok []

theorem stepOf_pos {frequency : IcsFrequency} {step : ℤ} (h : stepOf frequency = some step) : 0 < step := by
  cases frequency <;> cases h <;> decide

theorem mem_listSteps_iff {options : RRuleOptions} {step a b w : ℤ} (hd : 0 < step * options.interval.getD 1) :
    w ∈ listSteps options step a b ↔ w ∈ options.stepsBetween step a b := by
  rw [mem_stepsBetween_iff hd, listSteps]
  simp only [List.mem_map, List.mem_range]
  constructor
  · rintro ⟨i, hi, rfl⟩
    exact ⟨_, by omega, by omega, rfl⟩
  · rintro ⟨k, hfirst, hlast, rfl⟩
    refine ⟨(k - options.firstIndex step a).toNat, by omega, ?_⟩
    rw [Int.toNat_of_nonneg (by omega), add_sub_cancel]

theorem mem_between_samoanSteps (options : RRuleOptions) (a b : ℤ) : ∃ l, samoanSteps.between options a b = .ok l ∧
    ∀ w, w ∈ l ↔ options.isUnfiltered = true ∧ 0 < options.interval.getD 1 ∧ ∃ step, stepOf options.freq = some step ∧
      w ∈ options.stepsBetween step a b := by
  unfold samoanSteps
  dsimp only
  cases hstep : stepOf options.freq with
  | none => exact ⟨[], rfl, by simp⟩
  | some step =>
    refine ⟨_, rfl, fun w => ?_⟩
    split_ifs with hplain
    · rw [mem_listSteps_iff (mul_pos (stepOf_pos hstep) hplain.2)]
      simp [hplain]
    · refine iff_of_false List.not_mem_nil fun h => hplain ⟨h.1, h.2.1⟩

theorem samoanSteps_enumerates : samoanSteps.Enumerates occursInSteps where
  between options a b := by
    obtain ⟨l, hl, hmem⟩ := mem_between_samoanSteps options a b
    refine ⟨l, hl, fun w => ?_⟩
    rw [hmem, occursInSteps]
    constructor
    · rintro ⟨hplain, hinterval, step, hstep, k, hk, hw, hcount, huntil, ha, hb⟩
      exact ⟨⟨hplain, hinterval, step, hstep, k, hk, hw, hcount, huntil, le_rfl, le_rfl⟩, ha, hb⟩
    · rintro ⟨⟨hplain, hinterval, step, hstep, k, hk, hw, hcount, huntil, -, -⟩, ha, hb⟩
      exact ⟨hplain, hinterval, step, hstep, k, hk, hw, hcount, huntil, ha, hb⟩
  dtstart options w := by
    rintro ⟨-, hinterval, step, hstep, k, hk, rfl, -⟩
    have hmul : 0 ≤ k * (step * options.interval.getD 1) := mul_nonneg hk (mul_pos (stepOf_pos hstep) hinterval).le
    omega
  «until» options w := by
    rintro ⟨-, -, step, -, k, -, -, -, huntil, -⟩
    exact huntil

theorem samoanSteps_stepsThrough : samoanSteps.StepsThrough := by
  intro options baseInterval a b hfrequency hplain hinterval
  have hpos : 0 < options.interval.getD 1 := by
    cases h : options.interval with
    | none => decide
    | some interval => exact hinterval interval h
  have hstep : stepOf options.freq = some baseInterval := by
    revert hfrequency
    cases options.freq <;>
    · intro hfrequency
      cases hfrequency <;> rfl
  have hd : 0 < baseInterval * options.interval.getD 1 := mul_pos (stepOf_pos hstep) hpos
  refine ⟨listSteps options baseInterval a b, ?_, ?_, fun w => mem_listSteps_iff hd⟩
  · unfold samoanSteps
    dsimp only
    rw [hstep]
    exact congrArg Except.ok (if_pos ⟨hplain, hpos⟩)
  · refine List.Nodup.map (fun i j h => ?_) List.nodup_range
    have hsame := mul_right_cancel₀ hd.ne' (add_left_cancel h)
    omega

theorem samoanSteps_keepsTimes : KeepsTimes occursInSteps := by
  rintro options w hminutely hsecondly hseconds ⟨hplain, hinterval, step, hstep, k, hk, rfl, -⟩
  have hnone : options.byhour = none ∧ options.byminute = none ∧ options.bysecond = none := by
    simp only [RRuleOptions.isUnfiltered, Bool.and_eq_true, Option.isNone_iff_eq_none] at hplain
    tauto
  unfold RRuleOptions.hours RRuleOptions.minutes RRuleOptions.seconds
  rw [hnone.1, hnone.2.1, hnone.2.2]
  have hday : msPerDay = 86400000 := rfl
  have hshift : ∀ length, k * (length * options.interval.getD 1) = k * options.interval.getD 1 * length := by
    intro length
    ring
  generalize k * options.interval.getD 1 = n at hshift
  have hcases : options.freq = .daily ∧ step = 86400000 ∨ options.freq = .hourly ∧ step = 3600000 := by
    revert hstep hminutely hsecondly
    cases options.freq <;> simp [stepOf, highFrequencyIntervalMs, hday, eq_comm]
  rw [hshift]
  rcases hcases with ⟨hfreq, rfl⟩ | ⟨hfreq, rfl⟩
  · refine ⟨options.dtstart / 86400000 + n, getUTCHours options.dtstart, ?_, _, List.mem_singleton_self _, _,
      List.mem_singleton_self _, ?_⟩
    · rw [hfreq]
      exact List.mem_singleton_self _
    · unfold timeOfDay getUTCHours getUTCMinutes getUTCSeconds
      rw [hday]
      omega
  · refine ⟨(options.dtstart + n * 3600000) / 86400000, (options.dtstart + n * 3600000) / 3600000 % 24, ?_, _,
      List.mem_singleton_self _, _, List.mem_singleton_self _, ?_⟩
    · rw [hfreq]
      refine List.mem_map.2 ⟨((options.dtstart + n * 3600000) / 3600000 % 24).toNat, List.mem_range.2 ?_, ?_⟩ <;> omega
    · unfold timeOfDay getUTCMinutes getUTCSeconds
      rw [hday]
      omega

/-- `Number` of a text of digits. -/
def decimal (text : List Char) : Option ℤ :=
  if text ≠ [] ∧ text.all (·.isDigit) then some (ofDigits text) else none

def everyOtherDay : IcsRecurrenceRule := { frequency := .daily, interval := some 2 }

def everyOtherDayText : List Char := "FREQ=DAILY;INTERVAL=2".toList

/-- A series from ten o'clock on 2011-12-29 in Samoa, and again on 2011-12-31, the next day there. -/
def samoanSeries : SyncableEvent :=
  { event "s1" 1325188800000 with
    endTime := 1325192400000
    startTimeZone := some "Pacific/Apia"
    recurrenceRule := some everyOtherDay }

/-- What is read of it. -/
def samoanContext : SeriesMasterContext where
  rule := readSeriesRule decimal everyOtherDayText
  startWallTime := 1325152800000
  zone := .zoned "Pacific/Apia" (some "Pacific/Apia")

theorem readsRule_everyOtherDay : ReadsRule decimal everyOtherDayText everyOtherDay where
  frequency := by decide +kernel
  byHour := by
    have hnone : (ruleParts everyOtherDayText).get? "BYHOUR".toList = none := by decide +kernel
    rw [hnone]
    rfl
  byMinute := by
    have hnone : (ruleParts everyOtherDayText).get? "BYMINUTE".toList = none := by decide +kernel
    rw [hnone]
    rfl
  bySecond := by
    have hnone : (ruleParts everyOtherDayText).get? "BYSECOND".toList = none := by decide +kernel
    rw [hnone]
    rfl
  selectors := by decide +kernel
  interval := Or.inr ⟨['2'], 2, by decide +kernel, by decide +kernel, rfl, by decide⟩

theorem datedSeries_samoan :
    DatedSeries samoanSteps occursInSteps decimal everyOtherDayText samoanContext samoanSeries everyOtherDay where
  enumerates := samoanSteps_enumerates
  stepsThrough := samoanSteps_stepsThrough
  keepsTimes := samoanSteps_keepsTimes
  recurrenceRule := rfl
  timed := by decide +kernel
  frequency := by decide
  reads := readsRule_everyOtherDay
  contextRule := rfl
  zone := by decide +kernel
  resolved := by
    intro declared heq
    cases heq
  regular name _ := by
    refine ⟨samoa_regular name, fun t => ?_⟩
    simp only [offsetMillisecondsAt, samoanSteps, samoa]
    split_ifs <;> omega
  startTime := by decide +kernel
  seconds := by decide

/-- From the start of the series to the end of 2011. -/
def lastDays : SyncWindow := ⟨1325188800000, 1325376000000⟩

theorem lands_samoan {w slot : ℤ}
    (h : Lands samoanSteps occursInSteps samoanSeries everyOtherDay samoanContext.wallZones w slot) :
    ∃ k, w = 1325152800000 + k * 172800000 := by
  obtain ⟨⟨-, -, step, hstep, k, -, hw, -⟩, -⟩ := h
  obtain rfl := Option.some.inj hstep
  exact ⟨k, hw⟩

theorem emits_samoan {slot : ℤ} :
    Emits samoanSteps samoanSeries [] lastDays slot ↔ slot = 1325188800000 ∨ slot = 1325275200000 := by
  have hstarts : (materializeMaster samoanSteps samoanSeries [] lastDays).map (·.map (·.startTime)) =
      .ok [1325188800000, 1325275200000] := by rfl
  unfold Emits
  cases hrun : materializeMaster samoanSteps samoanSeries [] lastDays with
  | error e =>
    rw [hrun] at hstarts
    cases hstarts
  | ok l =>
    rw [hrun] at hstarts
    have hmem := congrArg (fun starts : List ℤ => slot ∈ starts) (Except.ok.inj hstarts)
    simp only [List.mem_map, List.mem_cons, List.not_mem_nil, or_false, eq_iff_iff] at hmem
    rw [← hmem]
    simp

theorem skipsTo_samoa {name : String} {x w : ℤ} (h : SkipsTo (offsetMillisecondsAt samoa name) x w) :
    1325203200000 ≤ x ∧ x < 1325289600000 := by
  obtain ⟨c, hchange, hlo, hhi, -⟩ := h
  simp only [ChangesAt, offsetMillisecondsAt, samoa] at hchange hlo hhi
  split_ifs at hchange hlo hhi <;> omega

theorem isSlot_samoan {date x : ℤ} (h : IsSlot samoanContext date x) : x = date + 36000000 := by
  have hhours : samoanContext.hours = [10] := by decide +kernel
  have hminutes : samoanContext.minutes = [0] := by decide +kernel
  have hseconds : samoanContext.seconds = [0] := by decide +kernel
  obtain ⟨hour, hhour, minute, hminute, second, hsecond, rfl⟩ := h
  rw [hhours] at hhour
  rw [hminutes] at hminute
  rw [hseconds] at hsecond
  obtain rfl := List.mem_singleton.1 hhour
  obtain rfl := List.mem_singleton.1 hminute
  obtain rfl := List.mem_singleton.1 hsecond
  rfl

end Example

/-- Without the last day of 2011 the series has its first occurrence only. -/
theorem excludesDates_iff_example :
    ExcludesDates Example.samoanSteps Example.occursInSteps Example.samoanContext Example.samoanSeries
      Example.everyOtherDay [1325289600000] [1325275200000] [] Example.lastDays := by
  refine (excludesDates_iff Example.datedSeries_samoan (by decide +kernel) (by decide +kernel) [] Example.lastDays).2 ?_
  rw [if_neg (by decide)]
  refine ⟨fun slot _ w hw date hdate x hx hmeets => ?_, Or.inl ⟨rfl, fun seconds hseconds => by cases hseconds⟩⟩
  obtain rfl := List.mem_singleton.1 hdate
  obtain rfl := Example.isSlot_samoan hx
  obtain ⟨k, hk⟩ := Example.lands_samoan hw
  have hday : msPerDay = 86400000 := rfl
  rcases hmeets with rfl | ⟨name, -, hskips | hskips⟩
  · rw [FallsOnDate, if_neg (by decide)]
    exact ⟨_, hw, _, List.mem_singleton_self _, by omega⟩
  · have := Example.skipsTo_samoa hskips
    omega
  · have := Example.skipsTo_samoa hskips
    omega

/-- **A skipped day.** Samoa had no 2011-12-30: to exclude it from a series of every other day, which has no occurrence
on it, is to remove the occurrence of the next day. -/
theorem not_excludesDates :
    DatedSeries Example.samoanSteps Example.occursInSteps Example.decimal Example.everyOtherDayText
        Example.samoanContext Example.samoanSeries Example.everyOtherDay ∧
      (∀ date ∈ [1325203200000], IsPlainDate date) ∧
      exclusionDates Example.samoanSteps.zones [toIcsDate 1325203200000] Example.samoanContext = .ok [1325275200000] ∧
      ¬ExcludesDates Example.samoanSteps Example.occursInSteps Example.samoanContext Example.samoanSeries
        Example.everyOtherDay [1325203200000] [1325275200000] [] Example.lastDays := by
  refine ⟨Example.datedSeries_samoan, by decide +kernel, by decide +kernel, ?_⟩
  rw [excludesDates_iff_emits ⟨_, Example.datedSeries_samoan.zone, fun name _ => Example.samoa_regular name⟩]
  intro hall
  have hfalls := (hall 1325275200000 (Example.emits_samoan.2 (Or.inr rfl))).1 List.mem_cons_self
  rw [FallsOnDate, if_neg (by decide)] at hfalls
  obtain ⟨w, hw, date, hdate, hon⟩ := hfalls
  obtain ⟨k, rfl⟩ := Example.lands_samoan hw
  obtain rfl := List.mem_singleton.1 hdate
  have hday : msPerDay = 86400000 := rfl
  omega

end Keeper
