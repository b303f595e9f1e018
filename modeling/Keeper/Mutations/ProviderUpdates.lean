import Keeper.Destinations.RemoteCopy
import Keeper.Mutations.EventUpdates

/-!
# Updates sent to Google and Outlook

`updateGoogleEvent` of `services/api/src/mutations/providers/google.ts` and `updateOutlookEvent` of
`providers/outlook.ts`: the body of a PATCH. A provider applies it field by field and keeps the fields it omits. The
text of a time is taken for its instant.

* `resolveRepresentableIsoRange_self`: a range is shaped once.
* `shape_updateGoogleEvent`, `shape_updateOutlookEvent`: the event that is held after an update.
-/

namespace Keeper

/-! ## Shaped ranges -/

theorem AllDayEventShape.representable_eq (shape : AllDayEventShape) : resolveRepresentableTimeRange shape =
    resolveRepresentableIsoRange shape.startTime shape.endTime shape.resolvesAllDay := rfl

theorem floorToUtcDay_representable (startTime endTime : ℤ) :
    floorToUtcDay (resolveRepresentableIsoRange startTime endTime true).startTime =
        (resolveRepresentableIsoRange startTime endTime true).startTime ∧
      floorToUtcDay (resolveRepresentableIsoRange startTime endTime true).endTime =
        (resolveRepresentableIsoRange startTime endTime true).endTime := by
  have hmidnight := isMidnightUtc_resolveWholeDayTimeRange ⟨startTime, endTime⟩
  have hrange : resolveRepresentableIsoRange startTime endTime true =
    resolveWholeDayTimeRange ⟨startTime, endTime⟩ := rfl
  rw [← hrange, isMidnightUtc_iff, isMidnightUtc_iff] at hmidnight
  unfold floorToUtcDay msPerDay
  exact ⟨by omega, by omega⟩

/-- **A range is shaped once.** -/
theorem resolveRepresentableIsoRange_self (startTime endTime : ℤ) (isAllDay : Bool) :
    resolveRepresentableIsoRange (resolveRepresentableIsoRange startTime endTime isAllDay).startTime
        (resolveRepresentableIsoRange startTime endTime isAllDay).endTime isAllDay =
      resolveRepresentableIsoRange startTime endTime isAllDay := by
  have hbefore := (resolveRepresentableTimeRange_isShaped ⟨⟨startTime, endTime⟩, some isAllDay⟩).nonempty
  change (resolveRepresentableIsoRange startTime endTime isAllDay).startTime <
    (resolveRepresentableIsoRange startTime endTime isAllDay).endTime at hbefore
  cases isAllDay with
  | true =>
    obtain ⟨hstart, hend⟩ := floorToUtcDay_representable startTime endTime
    generalize resolveRepresentableIsoRange startTime endTime true = range at *
    have hceil : ceilToUtcDay range.endTime = range.endTime := by
      unfold ceilToUtcDay
      unfold floorToUtcDay msPerDay at *
      omega
    change resolveWholeDayTimeRange ⟨range.startTime, range.endTime⟩ = range
    unfold resolveWholeDayTimeRange
    dsimp only
    rw [hstart, hceil, if_pos hbefore]
  | false => exact if_pos hbefore

/-! ## Google -/

inductive GoogleTime
  | date (day : ℤ)
  | dateTime (instant : ℤ)
  deriving DecidableEq

namespace GoogleTime

/-- `"date" in time`. -/
def isDate : GoogleTime → Bool
  | date _ => true
  | dateTime _ => false

def instant : GoogleTime → ℤ
  | date day => day * msPerDay
  | dateTime instant => instant

end GoogleTime

structure HeldGoogleEvent where
  summary : Option String := none
  description : Option String := none
  location : Option String := none
  start : GoogleTime
  «end» : GoogleTime
  transparency : Option String := none
  deriving DecidableEq

structure GooglePatch where
  summary : Option String := none
  description : Option String := none
  location : Option String := none
  start : Option GoogleTime := none
  «end» : Option GoogleTime := none
  transparency : Option String := none
  deriving DecidableEq

namespace HeldGoogleEvent

/-- `isAllDayGoogleEvent`. -/
def isAllDay (event : HeldGoogleEvent) : Bool := event.start.isDate || event.end.isDate

def shape (event : HeldGoogleEvent) : AllDayEventShape where
  startTime := event.start.instant
  endTime := event.end.instant
  isAllDay := some event.isAllDay

def patched (event : HeldGoogleEvent) (patch : GooglePatch) : HeldGoogleEvent where
  summary := patch.summary.or event.summary
  description := patch.description.or event.description
  location := patch.location.or event.location
  start := patch.start.getD event.start
  «end» := patch.end.getD event.end
  transparency := patch.transparency.or event.transparency

end HeldGoogleEvent

def buildGoogleDateField (dateTime : ℤ) (isAllDay : Bool) : GoogleTime :=
  if isAllDay then .date (dateTime / msPerDay) else .dateTime dateTime

def resolveGoogleTransparency : RequestedAvailability → String
  | .free => "transparent"
  | .busy => "opaque"

def patchTimes {τ : Type} (build : ℤ → Bool → τ) (updates : EventUpdateInput) (isAllDay : Bool) : Option τ × Option τ :=
  match updates.startTime, updates.endTime with
  | some startTime, some endTime =>
    let range := resolveRepresentableIsoRange startTime endTime isAllDay
    (some (build range.startTime isAllDay), some (build range.endTime isAllDay))
  | startTime, endTime => (startTime.map (build · isAllDay), endTime.map (build · isAllDay))

/-- The patch of `updateGoogleEvent`. -/
def googlePatch (existing : HeldGoogleEvent) (updates : EventUpdateInput) : GooglePatch :=
  let isAllDay := updates.isAllDay.getD existing.start.isDate
  let (start, «end») := patchTimes buildGoogleDateField updates isAllDay
  { summary := updates.title
    description := updates.description
    location := updates.location
    start
    «end»
    transparency := updates.availability.map resolveGoogleTransparency }

/-- `updateGoogleEvent`, of the event that is found and the response to its PATCH. -/
def updateGoogleEvent (response : Except String Unit) (existing : Option HeldGoogleEvent)
    (updates : EventUpdateInput) : Except String HeldGoogleEvent :=
  match existing with
  | none => .error "Event not found on Google Calendar."
  | some existing => do
    response
    pure (existing.patched (googlePatch existing updates))

/-! ## Outlook -/

structure HeldOutlookEvent where
  subject : Option String := none
  body : Option String := none
  location : Option String := none
  start : ℤ
  «end» : ℤ
  isAllDay : Option Bool := none
  showAs : Option String := none
  deriving DecidableEq

structure OutlookPatch where
  subject : Option String := none
  body : Option String := none
  location : Option String := none
  start : Option ℤ := none
  «end» : Option ℤ := none
  isAllDay : Option Bool := none
  showAs : Option String := none
  deriving DecidableEq

namespace HeldOutlookEvent

/-- `existing.isAllDay ?? false`. -/
def readsAllDay (event : HeldOutlookEvent) : Bool := event.isAllDay.getD false

/-- `parseEventTime`: of an all-day event the date is read. -/
def parseEventTime (time : ℤ) (isAllDay : Bool) : ℤ := if isAllDay then floorToUtcDay time else time

/-- The event as it would be read with a kind. -/
def shapeAs (event : HeldOutlookEvent) (isAllDay : Bool) : AllDayEventShape where
  startTime := parseEventTime event.start isAllDay
  endTime := parseEventTime event.end isAllDay
  isAllDay := some isAllDay

def shape (event : HeldOutlookEvent) : AllDayEventShape := event.shapeAs event.readsAllDay

def patched (event : HeldOutlookEvent) (patch : OutlookPatch) : HeldOutlookEvent where
  subject := patch.subject.or event.subject
  body := patch.body.or event.body
  location := patch.location.or event.location
  start := patch.start.getD event.start
  «end» := patch.end.getD event.end
  isAllDay := patch.isAllDay.or event.isAllDay
  showAs := patch.showAs.or event.showAs

end HeldOutlookEvent

/-- `formatDateTime`, of an instant that is printed. -/
def formatDateTime (instant : ℤ) (_isAllDay : Bool) : ℤ := instant

def resolveOutlookShowAs : RequestedAvailability → String
  | .free => "free"
  | .busy => "busy"

/-- The patch of `updateOutlookEvent`. -/
def outlookPatch (existing : HeldOutlookEvent) (updates : EventUpdateInput) : OutlookPatch :=
  let isAllDay := updates.isAllDay.getD existing.readsAllDay
  let (start, «end») := patchTimes formatDateTime updates isAllDay
  { subject := updates.title
    body := updates.description
    location := updates.location
    start
    «end»
    isAllDay := updates.isAllDay
    showAs := updates.availability.map resolveOutlookShowAs }

/-- `updateOutlookEvent`, of the event that is found and the response to its PATCH. -/
def updateOutlookEvent (response : Except String Unit) (existing : Option HeldOutlookEvent)
    (updates : EventUpdateInput) : Except String HeldOutlookEvent :=
  match existing with
  | none => .error "Event not found on Outlook."
  | some existing => do
    response
    pure (existing.patched (outlookPatch existing updates))

/-! ## What is held after an update -/

variable {updates : EventUpdateInput} {response : Except String Unit} {startTime endTime : ℤ}

theorem patchTimes_both {τ : Type} (build : ℤ → Bool → τ) (hstart : updates.startTime = some startTime)
    (hend : updates.endTime = some endTime) (isAllDay : Bool) : patchTimes build updates isAllDay =
      (some (build (resolveRepresentableIsoRange startTime endTime isAllDay).startTime isAllDay),
        some (build (resolveRepresentableIsoRange startTime endTime isAllDay).endTime isAllDay)) := by
  rw [patchTimes, hstart, hend]

theorem patchTimes_none {τ : Type} (build : ℤ → Bool → τ) (hstart : updates.startTime = none)
    (hend : updates.endTime = none) (isAllDay : Bool) : patchTimes build updates isAllDay = (none, none) := by
  rw [patchTimes, hstart, hend]
  rfl

/-- A field of a kind is read as its instant, or as the start of its day. -/
theorem instant_buildGoogleDateField (time : ℤ) (isAllDay : Bool) :
    (buildGoogleDateField time isAllDay).instant = if isAllDay then floorToUtcDay time else time := by
  cases isAllDay <;> rfl

theorem isDate_buildGoogleDateField (time : ℤ) (isAllDay : Bool) :
    (buildGoogleDateField time isAllDay).isDate = isAllDay := by
  cases isAllDay <;> rfl

theorem readShaped_eq (startTime endTime : ℤ) (isAllDay : Bool) :
    (⟨if isAllDay then floorToUtcDay (resolveRepresentableIsoRange startTime endTime isAllDay).startTime
        else (resolveRepresentableIsoRange startTime endTime isAllDay).startTime,
      if isAllDay then floorToUtcDay (resolveRepresentableIsoRange startTime endTime isAllDay).endTime
        else (resolveRepresentableIsoRange startTime endTime isAllDay).endTime⟩ : EventTimeRange) =
      resolveRepresentableIsoRange startTime endTime isAllDay := by
  cases isAllDay with
  | true =>
    obtain ⟨hstart, hend⟩ := floorToUtcDay_representable startTime endTime
    rw [if_pos rfl, if_pos rfl, hstart, hend]
  | false => rfl

section Google

variable {existing updated : HeldGoogleEvent}

theorem updateGoogleEvent_ok (h : updateGoogleEvent response (some existing) updates = .ok updated) :
    updated = existing.patched (googlePatch existing updates) := by
  cases response with
  | error error => cases h
  | ok _ => exact (Except.ok.inj h).symm

/-- **What Google holds** after both times are updated. -/
theorem shape_updateGoogleEvent (hstart : updates.startTime = some startTime) (hend : updates.endTime = some endTime)
    (h : updateGoogleEvent response (some existing) updates = .ok updated) :
    updated.shape = ⟨resolveRepresentableIsoRange startTime endTime (updates.isAllDay.getD existing.start.isDate),
      some (updates.isAllDay.getD existing.start.isDate)⟩ := by
  obtain rfl := updateGoogleEvent_ok h
  generalize hkind : updates.isAllDay.getD existing.start.isDate = isAllDay
  have hpatch : (googlePatch existing updates).start =
        some (buildGoogleDateField (resolveRepresentableIsoRange startTime endTime isAllDay).startTime isAllDay) ∧
      (googlePatch existing updates).end =
        some (buildGoogleDateField (resolveRepresentableIsoRange startTime endTime isAllDay).endTime isAllDay) := by
    rw [googlePatch, hkind, patchTimes_both _ hstart hend]
    exact ⟨rfl, rfl⟩
  rw [HeldGoogleEvent.shape, HeldGoogleEvent.isAllDay, HeldGoogleEvent.patched, hpatch.1, hpatch.2, Option.getD_some,
    Option.getD_some, instant_buildGoogleDateField, instant_buildGoogleDateField, isDate_buildGoogleDateField,
    isDate_buildGoogleDateField, Bool.or_self]
  exact congrArg (AllDayEventShape.mk · (some isAllDay)) (readShaped_eq startTime endTime isAllDay)

theorem shape_updateGoogleEvent_none (hstart : updates.startTime = none) (hend : updates.endTime = none)
    (h : updateGoogleEvent response (some existing) updates = .ok updated) : updated.shape = existing.shape := by
  obtain rfl := updateGoogleEvent_ok h
  have hpatch : (googlePatch existing updates).start = none ∧ (googlePatch existing updates).end = none := by
    rw [googlePatch, patchTimes_none _ hstart hend]
    exact ⟨rfl, rfl⟩
  rw [HeldGoogleEvent.shape, HeldGoogleEvent.isAllDay, HeldGoogleEvent.patched, hpatch.1, hpatch.2]
  rfl

end Google

section Outlook

variable {existing updated : HeldOutlookEvent}

theorem updateOutlookEvent_ok (h : updateOutlookEvent response (some existing) updates = .ok updated) :
    updated = existing.patched (outlookPatch existing updates) := by
  cases response with
  | error error => cases h
  | ok _ => exact (Except.ok.inj h).symm

theorem readsAllDay_patched : (existing.patched (outlookPatch existing updates)).readsAllDay =
    updates.isAllDay.getD existing.readsAllDay := by
  show (updates.isAllDay.or existing.isAllDay).getD false = updates.isAllDay.getD (existing.isAllDay.getD false)
  cases updates.isAllDay <;> rfl

/-- **What Outlook holds** after both times are updated. -/
theorem shape_updateOutlookEvent (hstart : updates.startTime = some startTime) (hend : updates.endTime = some endTime)
    (h : updateOutlookEvent response (some existing) updates = .ok updated) :
    updated.shape = ⟨resolveRepresentableIsoRange startTime endTime (updates.isAllDay.getD existing.readsAllDay),
      some (updates.isAllDay.getD existing.readsAllDay)⟩ := by
  obtain rfl := updateOutlookEvent_ok h
  rw [HeldOutlookEvent.shape, readsAllDay_patched]
  generalize hkind : updates.isAllDay.getD existing.readsAllDay = isAllDay
  have hpatch : (outlookPatch existing updates).start =
        some (resolveRepresentableIsoRange startTime endTime isAllDay).startTime ∧
      (outlookPatch existing updates).end =
        some (resolveRepresentableIsoRange startTime endTime isAllDay).endTime := by
    rw [outlookPatch, hkind, patchTimes_both _ hstart hend]
    exact ⟨rfl, rfl⟩
  rw [HeldOutlookEvent.shapeAs, HeldOutlookEvent.patched, hpatch.1, hpatch.2, Option.getD_some, Option.getD_some]
  exact congrArg (AllDayEventShape.mk · (some isAllDay)) (readShaped_eq startTime endTime isAllDay)

/-- An update without times leaves the times, and sets the kind that it names. -/
theorem shape_updateOutlookEvent_none (hstart : updates.startTime = none) (hend : updates.endTime = none)
    (h : updateOutlookEvent response (some existing) updates = .ok updated) :
    updated.shape = existing.shapeAs (updates.isAllDay.getD existing.readsAllDay) := by
  obtain rfl := updateOutlookEvent_ok h
  have hpatch : (outlookPatch existing updates).start = none ∧ (outlookPatch existing updates).end = none := by
    rw [outlookPatch, patchTimes_none _ hstart hend]
    exact ⟨rfl, rfl⟩
  rw [HeldOutlookEvent.shape, readsAllDay_patched, HeldOutlookEvent.shapeAs, HeldOutlookEvent.patched, hpatch.1,
    hpatch.2]
  rfl

end Outlook

end Keeper
