import Keeper.Core.RepresentableRange

/-!
# Updates of an event

What `services/api/src/mutations/index.ts` makes of a requested update, once its times are canonical: what is sent
to the provider, and what is written to the row. Times are instants.

* `completeUpdateRange_times`: an update that names a time or the zone is completed to both times.
-/

namespace Keeper

inductive RequestedAvailability
  | busy
  | free
  deriving DecidableEq

/-- `EventUpdateInput`, with canonical times. -/
structure EventUpdateInput where
  title : Option String := none
  description : Option String := none
  location : Option String := none
  startTime : Option ℤ := none
  endTime : Option ℤ := none
  isAllDay : Option Bool := none
  availability : Option RequestedAvailability := none
  startTimeZone : Option String := none
  deriving DecidableEq

/-- `StoredEventTiming`, with the zone that is updated beside it. -/
structure StoredEventTiming extends EventTimeRange where
  isAllDay : Option Bool
  startTimeZone : Option String := none
  deriving DecidableEq

namespace StoredEventTiming

/-- The stored range with its kind. -/
def shape (stored : StoredEventTiming) : AllDayEventShape where
  toEventTimeRange := stored.toEventTimeRange
  isAllDay := stored.isAllDay

end StoredEventTiming

namespace EventUpdateInput

def namesTimes (updates : EventUpdateInput) : Bool :=
  updates.startTime.isSome || updates.endTime.isSome || updates.startTimeZone.isSome

end EventUpdateInput

def completeUpdateRange (updates : EventUpdateInput) (stored : EventTimeRange) : EventUpdateInput :=
  if updates.namesTimes then
    { updates with
      endTime := some (updates.endTime.getD stored.endTime)
      startTime := some (updates.startTime.getD stored.startTime) }
  else updates

/-- `buildDbUpdates`, written to the times of a row. -/
def buildDbUpdates (updates : EventUpdateInput) (stored : StoredEventTiming) : StoredEventTiming where
  startTime := updates.startTime.getD stored.startTime
  endTime := updates.endTime.getD stored.endTime
  isAllDay := updates.isAllDay.or stored.isAllDay
  startTimeZone := updates.startTimeZone.or stored.startTimeZone

/-- `resolveRepresentableIsoRange`, of instants. -/
def resolveRepresentableIsoRange (startTime endTime : ℤ) (isAllDay : Bool) : EventTimeRange :=
  resolveRepresentableTimeRange ⟨⟨startTime, endTime⟩, some isAllDay⟩

/-- **A completed update** has both times, those of the updated row, or none. -/
theorem completeUpdateRange_times (updates : EventUpdateInput) (stored : StoredEventTiming) :
    (updates.namesTimes = true ∧
      (completeUpdateRange updates stored.toEventTimeRange).startTime =
        some (buildDbUpdates updates stored).startTime ∧
      (completeUpdateRange updates stored.toEventTimeRange).endTime =
        some (buildDbUpdates updates stored).endTime) ∨
    (updates.namesTimes = false ∧ completeUpdateRange updates stored.toEventTimeRange = updates ∧
      (buildDbUpdates updates stored).toEventTimeRange = stored.toEventTimeRange ∧
      updates.startTime = none ∧ updates.endTime = none) := by
  cases hnames : updates.namesTimes with
  | true =>
    rw [completeUpdateRange, if_pos hnames]
    exact Or.inl ⟨rfl, rfl, rfl⟩
  | false =>
    have hnone : updates.startTime = none ∧ updates.endTime = none := by
      simp only [EventUpdateInput.namesTimes, Bool.or_eq_false_iff, Option.isSome_eq_false_iff,
        Option.isNone_iff_eq_none] at hnames
      exact hnames.1
    refine Or.inr ⟨rfl, if_neg (by rw [hnames]; exact Bool.false_ne_true), ?_, hnone⟩
    rw [buildDbUpdates, hnone.1, hnone.2]
    rfl

end Keeper
