import Keeper.Core.Time

/-!
# Published spans

What `core/events/time-range.ts` makes of a stored range before it is published: an all-day event
covers whole UTC days, and a timed one at least a minute.

* `resolveRepresentableTimeRange_isShaped`: shaping moves the start back and the end on, both by less
  than a day.
* `overlapsTimeWindow_of_representable`: where the published span overlaps a window, the stored range
  overlaps it widened by a day on both sides.
-/

namespace Keeper

structure AllDayEventShape extends EventTimeRange where
  isAllDay : Option Bool := none
  deriving DecidableEq

/-- `resolveIsAllDayEvent`, of a shape. -/
def AllDayEventShape.resolvesAllDay (shape : AllDayEventShape) : Bool :=
  resolveIsAllDayEvent shape.isAllDay shape.startTime shape.endTime

def MaterializedSyncableEvent.shape (e : MaterializedSyncableEvent) : AllDayEventShape where
  startTime := e.startTime
  endTime := e.endTime
  isAllDay := e.isAllDay

/-! ## Whole days -/

def floorToUtcDay (time : ℤ) : ℤ := time / msPerDay * msPerDay

def ceilToUtcDay (time : ℤ) : ℤ := -(-time / msPerDay) * msPerDay

theorem floorToUtcDay_bounds (time : ℤ) :
    floorToUtcDay time ≤ time ∧ time < floorToUtcDay time + msPerDay := by
  unfold floorToUtcDay msPerDay
  omega

theorem ceilToUtcDay_bounds (time : ℤ) :
    time ≤ ceilToUtcDay time ∧ ceilToUtcDay time < time + msPerDay := by
  unfold ceilToUtcDay msPerDay
  omega

theorem ceilToUtcDay_le (time : ℤ) : ceilToUtcDay time ≤ floorToUtcDay time + msPerDay := by
  unfold ceilToUtcDay floorToUtcDay msPerDay
  omega

theorem ceilToUtcDay_mono {s t : ℤ} (h : s ≤ t) : ceilToUtcDay s ≤ ceilToUtcDay t := by
  unfold ceilToUtcDay msPerDay
  omega

def resolveWholeDayTimeRange (range : EventTimeRange) : EventTimeRange :=
  let dayStart := floorToUtcDay range.startTime
  let dayEnd := ceilToUtcDay range.endTime
  if dayStart < dayEnd then ⟨dayStart, dayEnd⟩ else ⟨dayStart, dayStart + msPerDay⟩

/-! ## Points in time -/

def pointInTimeDurationMs : ℤ := msPerMinute

def resolvePointInTimeRange (range : EventTimeRange) : EventTimeRange :=
  if range.startTime < range.endTime then range
  else ⟨range.startTime, range.startTime + pointInTimeDurationMs⟩

/-! ## Representable ranges -/

def resolveRepresentableTimeRange (shape : AllDayEventShape) : EventTimeRange :=
  if shape.resolvesAllDay then resolveWholeDayTimeRange shape.toEventTimeRange
  else resolvePointInTimeRange shape.toEventTimeRange

def overlapsRepresentableTimeWindow (shape : AllDayEventShape) (windowStart windowEnd : ℤ) : Bool :=
  overlapsTimeWindow (resolveRepresentableTimeRange shape) windowStart windowEnd

def representableRangeSlackMs : ℤ := msPerDay

/-- What shaping does to a range: the start moves back and the end on, both by less than a day, and
an empty or inverted range ends within a day of its start. -/
structure IsShaped (stored published : EventTimeRange) : Prop where
  start_le : published.startTime ≤ stored.startTime
  lt_start : stored.startTime < published.startTime + msPerDay
  nonempty : published.startTime < published.endTime
  le_end : stored.endTime ≤ published.endTime
  end_le : published.endTime < stored.endTime + msPerDay ∨
    published.endTime ≤ stored.startTime + msPerDay
  end_le_of_empty : stored.endTime ≤ stored.startTime →
    published.endTime ≤ stored.startTime + msPerDay

theorem resolveWholeDayTimeRange_isShaped (range : EventTimeRange) :
    IsShaped range (resolveWholeDayTimeRange range) := by
  have hday : (0 : ℤ) < msPerDay := by decide
  have hstart := floorToUtcDay_bounds range.startTime
  have hend := ceilToUtcDay_bounds range.endTime
  have hceil := ceilToUtcDay_le range.startTime
  unfold resolveWholeDayTimeRange
  dsimp only
  split_ifs with hbefore
  · refine ⟨hstart.1, hstart.2, hbefore, hend.1, Or.inl hend.2, fun hempty => ?_⟩
    have hmono := ceilToUtcDay_mono hempty
    show ceilToUtcDay range.endTime ≤ _
    omega
  · refine ⟨hstart.1, hstart.2, ?_, ?_, Or.inr ?_, fun _ => ?_⟩ <;> dsimp only <;> omega

theorem resolvePointInTimeRange_isShaped (range : EventTimeRange) :
    IsShaped range (resolvePointInTimeRange range) := by
  have hminute : (0 : ℤ) < pointInTimeDurationMs ∧ pointInTimeDurationMs < msPerDay := by decide
  unfold resolvePointInTimeRange
  split_ifs with hbefore
  · refine ⟨le_refl _, ?_, hbefore, le_refl _, Or.inl ?_, fun hempty => ?_⟩ <;> omega
  · refine ⟨le_refl _, ?_, ?_, ?_, Or.inr ?_, fun _ => ?_⟩ <;> dsimp only <;> omega

/-- **What shaping does** to any event. -/
theorem resolveRepresentableTimeRange_isShaped (shape : AllDayEventShape) :
    IsShaped shape.toEventTimeRange (resolveRepresentableTimeRange shape) := by
  unfold resolveRepresentableTimeRange
  split_ifs
  · exact resolveWholeDayTimeRange_isShaped _
  · exact resolvePointInTimeRange_isShaped _

theorem lt_end_resolveRepresentableTimeRange (shape : AllDayEventShape) :
    shape.startTime < (resolveRepresentableTimeRange shape).endTime := by
  have hminute : (0 : ℤ) < pointInTimeDurationMs := by decide
  have hstart := floorToUtcDay_bounds shape.startTime
  unfold resolveRepresentableTimeRange
  split_ifs
  · unfold resolveWholeDayTimeRange
    dsimp only
    split_ifs with hbefore
    · show shape.startTime < ceilToUtcDay shape.endTime
      unfold floorToUtcDay ceilToUtcDay msPerDay at *
      omega
    · exact hstart.2
  · unfold resolvePointInTimeRange
    split_ifs with hbefore
    · exact hbefore
    · show shape.startTime < shape.startTime + pointInTimeDurationMs
      omega

/-- Where a published span meets a window, the stored range overlaps it widened by a day. -/
theorem IsShaped.overlaps_widened {stored published : EventTimeRange} (h : IsShaped stored published)
    {windowStart windowEnd : ℤ} (hstart : published.startTime < windowEnd)
    (hend : windowStart < published.endTime) :
    overlapsTimeWindow stored (windowStart - representableRangeSlackMs)
      (windowEnd + representableRangeSlackMs) = true := by
  have hafter := h.lt_start
  rw [overlapsTimeWindow_iff, representableRangeSlackMs]
  refine ⟨by omega, ?_⟩
  by_cases hlt : stored.startTime < stored.endTime
  · rcases h.end_le with hle | hle
    · exact Or.inr ⟨hlt, by omega⟩
    · exact Or.inl (by omega)
  · have hle := h.end_le_of_empty (not_lt.1 hlt)
    exact Or.inl (by omega)

/-- **A scan widened by a day** on both sides finds every event whose published span overlaps the
window. -/
theorem overlapsTimeWindow_of_representable {shape : AllDayEventShape} {windowStart windowEnd : ℤ}
    (h : overlapsRepresentableTimeWindow shape windowStart windowEnd = true) :
    overlapsTimeWindow shape.toEventTimeRange (windowStart - representableRangeSlackMs)
      (windowEnd + representableRangeSlackMs) = true := by
  have hshaped := resolveRepresentableTimeRange_isShaped shape
  rw [overlapsRepresentableTimeWindow, overlapsTimeWindow_iff] at h
  have hnonempty := hshaped.nonempty
  exact hshaped.overlaps_widened h.1 (by omega)

end Keeper
