import Keeper.Recurrence.WithheldSeries
import Mathlib.Data.Int.Interval
import Mathlib.Data.Set.Card
import Mathlib.Algebra.Order.Ring.Int

/-!
# Unfiltered high-frequency rules

A rule of seconds, minutes or hours without selectors is not enumerated to find that it is over
budget: `assertUnfilteredHighFrequencyRuleWithinBudget` counts its occurrences from the indices of
the first and the last one in the range.

* `mem_stepsBetween_iff`: the steps of a rule in a range are those between the two indices.
* `highFrequencyShortcut_isExact`: the count is exact, and a master gives what it would without it.
-/

namespace Keeper

/-! ## Steps -/

/-- The options select no occurrences. -/
def RRuleOptions.isUnfiltered (options : RRuleOptions) : Bool :=
  options.bysecond.isNone && options.byminute.isNone && options.byhour.isNone &&
    options.byweekday.isNone && options.bymonthday.isNone && options.byyearday.isNone &&
    options.byweekno.isNone && options.bymonth.isNone && options.bysetpos.isNone

/-- The wall times `dtstart + k * interval` of a rule in a range, both ends included: as many as its
count, up to its end. -/
def RRuleOptions.stepsBetween (options : RRuleOptions) (baseInterval a b : ℤ) : Set ℤ :=
  {w | ∃ k : ℤ, 0 ≤ k ∧ w = options.dtstart + k * (baseInterval * options.interval.getD 1) ∧
    (∀ count, options.count = some count → k < count) ∧
    (∀ last, options.until = some last → w ≤ last) ∧ a ≤ w ∧ w ≤ b}

/-- The recurrence engine lists the steps of unfiltered high-frequency rules, each once. -/
def Runtime.StepsThrough (rt : Runtime) : Prop :=
  ∀ options baseInterval a b, highFrequencyIntervalMs options.freq = some baseInterval →
    options.isUnfiltered = true → (∀ interval, options.interval = some interval → 0 < interval) →
    ∃ l, rt.between options a b = .ok l ∧ l.Nodup ∧
      ∀ w, w ∈ l ↔ w ∈ options.stepsBetween baseInterval a b

theorem ceilDiv_le_iff {a b k : ℤ} (hb : 0 < b) : ceilDiv a b ≤ k ↔ a ≤ k * b := by
  rw [ceilDiv, neg_le, Int.le_ediv_iff_mul_le hb, neg_mul, neg_le_neg_iff]

theorem highFrequencyIntervalMs_pos {frequency : IcsFrequency} {baseInterval : ℤ}
    (h : highFrequencyIntervalMs frequency = some baseInterval) : 0 < baseInterval := by
  cases frequency <;> cases h <;> decide

section Steps

variable {options : RRuleOptions} {baseInterval a b : ℤ}

def RRuleOptions.firstIndex (options : RRuleOptions) (baseInterval a : ℤ) : ℤ :=
  max (ceilDiv (a - options.dtstart) (baseInterval * options.interval.getD 1)) 0

def RRuleOptions.lastIndex (options : RRuleOptions) (baseInterval b : ℤ) : ℤ :=
  let index := (min b (options.until.getD b) - options.dtstart) /
    (baseInterval * options.interval.getD 1)
  match options.count with
  | none => index
  | some count => min index (count - 1)

theorem le_lastIndex_iff (hd : 0 < baseInterval * options.interval.getD 1) {k : ℤ} :
    k ≤ options.lastIndex baseInterval b ↔
      (∀ count, options.count = some count → k < count) ∧
        (∀ last, options.until = some last →
          options.dtstart + k * (baseInterval * options.interval.getD 1) ≤ last) ∧
        options.dtstart + k * (baseInterval * options.interval.getD 1) ≤ b := by
  have hindex : k ≤ (min b (options.until.getD b) - options.dtstart) /
      (baseInterval * options.interval.getD 1) ↔
        (∀ last, options.until = some last →
          options.dtstart + k * (baseInterval * options.interval.getD 1) ≤ last) ∧
        options.dtstart + k * (baseInterval * options.interval.getD 1) ≤ b := by
    rw [Int.le_ediv_iff_mul_le hd, le_sub_iff_add_le', le_min_iff]
    cases options.until with
    | none => simp
    | some last => simp [and_comm]
  unfold RRuleOptions.lastIndex
  cases options.count with
  | none => simpa using hindex
  | some count => simp [hindex, Int.le_sub_one_iff, and_comm]

/-- **The steps in a range** are those from the first index to the last. -/
theorem mem_stepsBetween_iff (hd : 0 < baseInterval * options.interval.getD 1) {w : ℤ} :
    w ∈ options.stepsBetween baseInterval a b ↔
      ∃ k, options.firstIndex baseInterval a ≤ k ∧ k ≤ options.lastIndex baseInterval b ∧
        options.dtstart + k * (baseInterval * options.interval.getD 1) = w := by
  have hfirst : ∀ k, options.firstIndex baseInterval a ≤ k ↔
      a ≤ options.dtstart + k * (baseInterval * options.interval.getD 1) ∧ 0 ≤ k := by
    intro k
    rw [RRuleOptions.firstIndex, max_le_iff, ceilDiv_le_iff hd, sub_le_iff_le_add']
  constructor
  · rintro ⟨k, hk, rfl, hcount, huntil, ha, hb⟩
    exact ⟨k, (hfirst k).2 ⟨ha, hk⟩, (le_lastIndex_iff hd).2 ⟨hcount, huntil, hb⟩, rfl⟩
  · rintro ⟨k, hk, hlast, rfl⟩
    obtain ⟨ha, hk⟩ := (hfirst k).1 hk
    obtain ⟨hcount, huntil, hb⟩ := (le_lastIndex_iff hd).1 hlast
    exact ⟨k, hk, rfl, hcount, huntil, ha, hb⟩

/-- **The number of steps in a range** is the distance of the two indices. -/
theorem ncard_stepsBetween (hd : 0 < baseInterval * options.interval.getD 1) :
    (options.stepsBetween baseInterval a b).ncard =
      (options.lastIndex baseInterval b - options.firstIndex baseInterval a + 1).toNat := by
  have himage : options.stepsBetween baseInterval a b =
      (fun k => options.dtstart + k * (baseInterval * options.interval.getD 1)) ''
        (Finset.Icc (options.firstIndex baseInterval a) (options.lastIndex baseInterval b) :
          Finset ℤ) := by
    ext w
    simp only [mem_stepsBetween_iff hd, Set.mem_image, Finset.coe_Icc, Set.mem_Icc, and_assoc]
  have hinj : Function.Injective
      fun k => options.dtstart + k * (baseInterval * options.interval.getD 1) := fun k k' h =>
    mul_right_cancel₀ hd.ne' (add_left_cancel h)
  rw [himage, Set.ncard_image_of_injective _ hinj, Set.ncard_coe_finset, Int.card_Icc]
  congr 1
  omega

end Steps

/-! ## The shortcut -/

section Shortcut

variable (rt : Runtime)

def assertUnfilteredHighFrequencyRuleWithinBudget (master : SyncableEvent)
    (recurrenceStart recurrenceWindowStart recurrenceEnd : ℤ) (timeZone : Option String) :
    Except MaterializationError Unit :=
  match master.recurrenceRule with
  | none => .ok ()
  | some rule =>
    if maxOccurrencesPerSeries < potentialOccurrences rt rule recurrenceStart
        recurrenceWindowStart recurrenceEnd timeZone then .error (.limit master.limitError)
    else .ok ()

/-- What `materializeMaster` enumerates, or the limit when there is too much of it. -/
def enumerateStarts (master : SyncableEvent) (rule : IcsRecurrenceRule)
    (recurrenceStart recurrenceWindowStart recurrenceEnd : ℤ) (timeZone : Option String) :
    Except MaterializationError (List ℤ) :=
  match rt.between (toRRuleOptions rt rule recurrenceStart timeZone) recurrenceWindowStart
      recurrenceEnd with
  | .error e => .error (.range e)
  | .ok starts =>
    if maxOccurrencesPerSeries < starts.length then .error (.limit master.limitError)
    else .ok starts

/-- `occurrenceStarts` without the shortcut. -/
def occurrenceStartsByEnumeration (master : SyncableEvent) (rule : IcsRecurrenceRule)
    (window : SyncWindow) (timeZone : Option String) : Except MaterializationError (List ℤ) :=
  let recurrenceWindowStart :=
    toRecurrenceWallTime rt (window.timeMin - max master.lookback 0) timeZone
  if isSeriesExhaustedBeforeWindow rt rule recurrenceWindowStart timeZone then .ok []
  else
    enumerateStarts rt master rule (toRecurrenceWallTime rt master.startTime timeZone)
      recurrenceWindowStart (toRecurrenceWallTime rt window.timeMax timeZone) timeZone

/-- `materializeMaster` without the shortcut. -/
def materializeMasterByEnumeration (master : SyncableEvent) (overriddenSlots : List ℤ)
    (window : SyncWindow) : Except MaterializationError (List MaterializedSyncableEvent) :=
  match master.recurrenceRule with
  | none => .ok []
  | some rule =>
    if window.timeMax ≤ master.startTime then .ok []
    else do
      let timeZones ← liftRange (resolveSeriesTimeZones rt master rule)
      let starts ← occurrenceStartsByEnumeration rt master rule window timeZones.expansionTimeZone
      liftRange (emitOccurrences rt master overriddenSlots window timeZones starts [])

variable {rt} {master : SyncableEvent} {rule : IcsRecurrenceRule}

variable {recurrenceStart baseInterval recurrenceWindowStart recurrenceEnd : ℤ} {timeZone : Option String}

theorem isUnfiltered_toRRuleOptions : (toRRuleOptions rt rule recurrenceStart timeZone).isUnfiltered =
      !hasOccurrenceSelectors rule := by
  simp only [RRuleOptions.isUnfiltered, toRRuleOptions, hasOccurrenceSelectors, Bool.not_or,
    Option.not_isSome, Option.isNone_map]
  ac_rfl

/-- `occurrenceStarts` asserts the budget and enumerates. -/
theorem occurrenceStarts_eq (hrule : master.recurrenceRule = some rule) {window : SyncWindow} :
    occurrenceStarts rt master rule window timeZone =
      (let recurrenceStart := toRecurrenceWallTime rt master.startTime timeZone
      let recurrenceEnd := toRecurrenceWallTime rt window.timeMax timeZone
      let recurrenceWindowStart :=
        toRecurrenceWallTime rt (window.timeMin - max master.lookback 0) timeZone
      if isSeriesExhaustedBeforeWindow rt rule recurrenceWindowStart timeZone then .ok []
      else do
        assertUnfilteredHighFrequencyRuleWithinBudget rt master recurrenceStart
          recurrenceWindowStart recurrenceEnd timeZone
        enumerateStarts rt master rule recurrenceStart recurrenceWindowStart recurrenceEnd
          timeZone) := by
  unfold occurrenceStarts assertUnfilteredHighFrequencyRuleWithinBudget enumerateStarts
  simp only [hrule]
  split_ifs <;> rfl

/-- **The shortcut counts the steps** between its bounds. -/
theorem potentialOccurrences_eq (hfrequency : highFrequencyIntervalMs rule.frequency = some baseInterval)
    (hselectors : hasOccurrenceSelectors rule = false)
    (hinterval : ∀ interval, rule.interval = some interval → 0 < interval) :
    potentialOccurrences rt rule recurrenceStart recurrenceWindowStart recurrenceEnd timeZone =
      ((toRRuleOptions rt rule recurrenceStart timeZone).stepsBetween baseInterval
        recurrenceWindowStart recurrenceEnd).ncard := by
  have hpos : 0 < rule.interval.getD 1 := by
    cases h : rule.interval with
    | none => decide
    | some interval => exact hinterval interval h
  have hd : 0 < baseInterval * rule.interval.getD 1 :=
    mul_pos (highFrequencyIntervalMs_pos hfrequency) hpos
  have hmax : max (rule.interval.getD 1) 1 = rule.interval.getD 1 := max_eq_left hpos
  rw [ncard_stepsBetween hd, Int.toNat_eq_max, potentialOccurrences, hfrequency]
  simp only [hselectors, Bool.false_eq_true, if_false, hmax]
  rfl

theorem assertWithinBudget_eq (hrule : master.recurrenceRule = some rule)
    (hfrequency : highFrequencyIntervalMs rule.frequency = some baseInterval)
    (hselectors : hasOccurrenceSelectors rule = false)
    (hinterval : ∀ interval, rule.interval = some interval → 0 < interval) :
    assertUnfilteredHighFrequencyRuleWithinBudget rt master recurrenceStart recurrenceWindowStart
        recurrenceEnd timeZone =
      if maxOccurrencesPerSeries < ((toRRuleOptions rt rule recurrenceStart timeZone).stepsBetween
        baseInterval recurrenceWindowStart recurrenceEnd).ncard then .error (.limit master.limitError)
      else .ok () := by
  unfold assertUnfilteredHighFrequencyRuleWithinBudget
  simp only [hrule, potentialOccurrences_eq hfrequency hselectors hinterval, Nat.cast_lt]

/-- **What the engine enumerates** of an unfiltered high-frequency rule is over the limit when the
rule has too many steps. -/
theorem enumerateStarts_limit (hrt : rt.StepsThrough)
    (hfrequency : highFrequencyIntervalMs rule.frequency = some baseInterval)
    (hselectors : hasOccurrenceSelectors rule = false)
    (hinterval : ∀ interval, rule.interval = some interval → 0 < interval)
    (hover : maxOccurrencesPerSeries < ((toRRuleOptions rt rule recurrenceStart timeZone).stepsBetween baseInterval recurrenceWindowStart recurrenceEnd).ncard) :
    enumerateStarts rt master rule recurrenceStart recurrenceWindowStart recurrenceEnd timeZone =
      .error (.limit master.limitError) := by
  obtain ⟨starts, hstarts, hnodup, hmem⟩ := hrt (toRRuleOptions rt rule recurrenceStart timeZone)
    baseInterval recurrenceWindowStart recurrenceEnd hfrequency
    (by rw [isUnfiltered_toRRuleOptions, hselectors]; rfl) hinterval
  have hset : (toRRuleOptions rt rule recurrenceStart timeZone).stepsBetween baseInterval
      recurrenceWindowStart recurrenceEnd = (starts.toFinset : Set ℤ) := by
    ext w
    simp [hmem]
  rw [hset, Set.ncard_coe_finset, List.toFinset_card_of_nodup hnodup] at hover
  rw [enumerateStarts, hstarts]
  exact if_pos hover

/-- **The shortcut changes nothing** about a master. -/
theorem materializeMaster_eq_byEnumeration (hrt : rt.StepsThrough) (hrule : master.recurrenceRule = some rule)
    (hfrequency : highFrequencyIntervalMs rule.frequency = some baseInterval)
    (hselectors : hasOccurrenceSelectors rule = false)
    (hinterval : ∀ interval, rule.interval = some interval → 0 < interval) (overriddenSlots : List ℤ)
    (window : SyncWindow) : materializeMaster rt master overriddenSlots window =
      materializeMasterByEnumeration rt master overriddenSlots window := by
  have hstarts : ∀ timeZone, occurrenceStarts rt master rule window timeZone =
      occurrenceStartsByEnumeration rt master rule window timeZone := by
    intro timeZone
    rw [occurrenceStarts_eq hrule, occurrenceStartsByEnumeration]
    dsimp only
    rw [assertWithinBudget_eq hrule hfrequency hselectors hinterval]
    split_ifs with hexhausted hover
    · rfl
    · exact (enumerateStarts_limit hrt hfrequency hselectors hinterval hover).symm
    · rfl
  unfold materializeMaster materializeMasterByEnumeration
  simp only [hrule, hstarts]

/-- **The shortcut counts exactly**: it throws iff the rule has more steps in the range than the
limit, and a master gives what it would give without it. -/
theorem highFrequencyShortcut_isExact (hrt : rt.StepsThrough) {baseInterval : ℤ}
    (hrule : master.recurrenceRule = some rule)
    (hfrequency : highFrequencyIntervalMs rule.frequency = some baseInterval)
    (hselectors : hasOccurrenceSelectors rule = false)
    (hinterval : ∀ interval, rule.interval = some interval → 0 < interval) :
    (∀ recurrenceStart recurrenceWindowStart recurrenceEnd timeZone,
      assertUnfilteredHighFrequencyRuleWithinBudget rt master recurrenceStart
          recurrenceWindowStart recurrenceEnd timeZone =
        if maxOccurrencesPerSeries < ((toRRuleOptions rt rule recurrenceStart
          timeZone).stepsBetween baseInterval recurrenceWindowStart recurrenceEnd).ncard then
          .error (.limit master.limitError)
        else .ok ()) ∧
      ∀ overriddenSlots window, materializeMaster rt master overriddenSlots window =
        materializeMasterByEnumeration rt master overriddenSlots window :=
  ⟨fun _ _ _ _ => assertWithinBudget_eq hrule hfrequency hselectors hinterval,
    materializeMaster_eq_byEnumeration hrt hrule hfrequency hselectors hinterval⟩

end Shortcut

/-! ## An engine -/

namespace Example

/-- The steps of unfiltered high-frequency rules. -/
def stepping : Runtime where
  host := runtime.host
  zones := runtime.zones
  between options a b :=
    let baseInterval := (highFrequencyIntervalMs options.freq).getD 1
    let first := options.firstIndex baseInterval a
    .ok ((List.range (options.lastIndex baseInterval b - first + 1).toNat).map fun i : ℕ =>
      options.dtstart + (first + i) * (baseInterval * options.interval.getD 1))

theorem stepsThrough_stepping : stepping.StepsThrough := by
  intro options baseInterval a b hfrequency _ hinterval
  have hpos : 0 < options.interval.getD 1 := by
    cases h : options.interval with
    | none => decide
    | some interval => exact hinterval interval h
  have hd : 0 < baseInterval * options.interval.getD 1 :=
    mul_pos (highFrequencyIntervalMs_pos hfrequency) hpos
  refine ⟨_, rfl, List.Nodup.map (fun i j h => ?_) List.nodup_range, fun w => ?_⟩
  · simp only [hfrequency, Option.getD_some, add_right_inj, mul_eq_mul_right_iff, hd.ne',
      or_false, Nat.cast_inj] at h
    exact h
  · rw [mem_stepsBetween_iff hd]
    simp only [hfrequency, Option.getD_some, List.mem_map, List.mem_range]
    constructor
    · rintro ⟨i, hi, rfl⟩
      exact ⟨_, by omega, by omega, rfl⟩
    · rintro ⟨k, hfirst, hlast, rfl⟩
      refine ⟨(k - options.firstIndex baseInterval a).toNat, by omega, ?_⟩
      rw [Int.toNat_of_nonneg (by omega), add_sub_cancel]

def everyMinute : SyncableEvent :=
  { event "s1" 0 with recurrenceRule := some { frequency := .minutely } }

end Example

/-- A week of minutes is over the limit, and the engine would find it so. -/
theorem highFrequencyShortcut_isExact_everyMinute :
    materializeMasterByEnumeration Example.stepping Example.everyMinute [] ⟨0, 604800000⟩ =
      .error (.limit Example.everyMinute.limitError) := by
  rw [← (highFrequencyShortcut_isExact Example.stepsThrough_stepping rfl rfl rfl
    (fun _ h => by cases h)).2]
  rfl

end Keeper
