import Keeper.Core.RepresentableRange
import Keeper.Sync.Staleness

/-!
# Copies as they are read back

What the destinations of `providers/` share when they read a copy that they wrote: its editable
content, as the pass over the mappings compares it with the local event.

* `hasRemoteStateChanged_iff`: a copy with the times of its mapping has changed where its content is
  hashed differently or its availability is not the expected one.
-/

namespace Keeper

/-- `createEditableEventContentSnapshot`, of any content. -/
def SyncableEventContent.editableSnapshot (event : SyncableEventContent) :
    EditableEventContentSnapshot where
  summary := normalizeText (some event.summary)
  description := normalizeText event.description
  location := normalizeText event.location
  isAllDay := resolveHashedAllDay event

theorem createEditableEventContentSnapshot_eq (e : MaterializedSyncableEvent) :
    createEditableEventContentSnapshot e = e.content.editableSnapshot := rfl

theorem normalizeText_truthy (value : Option String) :
    normalizeText (truthy value) = normalizeText value := by
  cases value with
  | none => rfl
  | some s =>
    by_cases hs : s = ""
    · subst hs
      rfl
    · rw [truthy_eq_some_iff.2 ⟨rfl, hs⟩]

/-- Normalized times of an event. -/
def MaterializedSyncableEvent.withRange (e : MaterializedSyncableEvent) (range : EventTimeRange) :
    MaterializedSyncableEvent :=
  { e with startTime := range.startTime, endTime := range.endTime }

@[simp] theorem withRange_shape (e : MaterializedSyncableEvent) (range : EventTimeRange) :
    (e.withRange range).shape = ⟨range, e.isAllDay⟩ := rfl

@[simp] theorem withRange_range (e : MaterializedSyncableEvent) :
    e.withRange ⟨e.startTime, e.endTime⟩ = e := rfl

/-! ## Normalized times -/

theorem isMidnightUtc_iff {value : ℤ} : isMidnightUtc value = true ↔ value % 86400000 = 0 := by
  rw [isMidnightUtc, decide_eq_true_eq]
  rfl

theorem inferAllDayEvent_iff {startTime endTime : ℤ} :
    inferAllDayEvent startTime endTime = true ↔
      startTime < endTime ∧ isMidnightUtc startTime = true ∧ isMidnightUtc endTime = true := by
  simp only [inferAllDayEvent, Bool.if_false_left, Bool.and_eq_true, Bool.not_eq_true',
    decide_eq_false_iff_not]
  simp only [isMidnightUtc_iff, msPerDay]
  omega

theorem isMidnightUtc_mul (days : ℤ) : isMidnightUtc (days * msPerDay) = true := by
  rw [isMidnightUtc, decide_eq_true_eq, Int.mul_emod_left]

theorem isMidnightUtc_resolveWholeDayTimeRange (range : EventTimeRange) :
    isMidnightUtc (resolveWholeDayTimeRange range).startTime = true ∧
      isMidnightUtc (resolveWholeDayTimeRange range).endTime = true := by
  have hstart := isMidnightUtc_mul (range.startTime / msPerDay)
  unfold resolveWholeDayTimeRange floorToUtcDay ceilToUtcDay
  dsimp only
  split_ifs
  · exact ⟨hstart, isMidnightUtc_mul _⟩
  · refine ⟨hstart, ?_⟩
    have hnext := isMidnightUtc_mul (range.startTime / msPerDay + 1)
    rwa [add_mul, one_mul] at hnext

theorem resolvesAllDay_wholeDay {e : MaterializedSyncableEvent}
    (h : e.shape.resolvesAllDay = true) :
    (e.withRange (resolveWholeDayTimeRange e.range)).shape.resolvesAllDay = true := by
  rw [withRange_shape]
  unfold AllDayEventShape.resolvesAllDay resolveIsAllDayEvent at h ⊢
  dsimp only
  cases hflag : e.isAllDay with
  | some isAllDay => rwa [MaterializedSyncableEvent.shape, hflag] at h
  | none =>
    exact inferAllDayEvent_iff.2 ⟨(resolveWholeDayTimeRange_isShaped e.range).nonempty,
      isMidnightUtc_resolveWholeDayTimeRange e.range⟩

theorem resolvesAllDay_pointInTime {e : MaterializedSyncableEvent}
    (h : e.shape.resolvesAllDay = false) :
    (e.withRange (resolvePointInTimeRange e.range)).shape.resolvesAllDay = false := by
  unfold resolvePointInTimeRange
  split_ifs with hbefore
  · rwa [MaterializedSyncableEvent.range, withRange_range]
  · rw [withRange_shape]
    unfold AllDayEventShape.resolvesAllDay resolveIsAllDayEvent at h ⊢
    dsimp only
    cases hflag : e.isAllDay with
    | some isAllDay => rwa [MaterializedSyncableEvent.shape, hflag] at h
    | none =>
      rw [Option.getD_none, ← Bool.not_eq_true, inferAllDayEvent_iff]
      rintro ⟨-, hstart, hend⟩
      -- a minute is not a day
      rw [isMidnightUtc_iff] at hstart hend
      dsimp only [pointInTimeDurationMs, msPerMinute] at hend
      omega

section Changes

variable {host : Host} {mapping : EventMapping} {n : MaterializedSyncableEvent} {r : RemoteEvent}

/-- **A copy with the times of its mapping** has changed where its content is hashed differently or
its availability is not the expected one. -/
theorem hasRemoteStateChanged_iff {content : EditableEventContentSnapshot}
    {availability : EventAvailability}
    (hcontent : r.editableContentHash = some (hashEditableEventContentSnapshot host content))
    (havailability : r.editableAvailability = some availability)
    (hexpected : availability = expectedRemoteAvailability n r.supportedAvailabilities)
    (hstart : r.startTime = mapping.startTime) (hend : r.endTime = mapping.endTime) :
    hasRemoteStateChanged host mapping n r = false ↔
      hashEditableEventContentSnapshot host content = createEditableEventContentHash host n := by
  rw [hasRemoteStateChanged_eq_false_iff]
  constructor
  · intro hreflects
    exact hreflects.content _ hcontent
  · intro hsame
    refine ⟨fun hash hhash => ?_, fun a ha => ?_, by rw [hstart], by rw [hend]⟩
    · rw [← Option.some.inj (hcontent.symm.trans hhash), hsame]
    · rw [← Option.some.inj (havailability.symm.trans ha), hexpected]

end Changes

namespace Example

/-- An hour at an instant, out of office. -/
def meeting (startTime : ℤ) (description : String) : MaterializedSyncableEvent where
  id := "event"
  sourceEventUid := "event"
  startTime := startTime
  endTime := startTime + 3600000
  availability := some .oof
  summary := "Planning"
  description := some description
  calendarId := "work"

def meetingMapping (event : MaterializedSyncableEvent) : EventMapping where
  id := "mapping"
  syncEventId := event.id
  calendarId := "destination"
  destinationEventUid := "copy@keeper.sh"
  deleteIdentifier := "copy"
  startTime := event.startTime
  endTime := event.endTime

def copyHost : Host := ⟨id, Json.stringify, Text.compareUnits⟩

end Example

end Keeper
