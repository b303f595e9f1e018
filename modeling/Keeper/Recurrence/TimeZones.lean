import Keeper.Core.Time
import Keeper.Foundations.JsDate

/-!
# Wall times and durations

`ics/utils/timezone-instant.ts` and `ics/utils/recurrence-duration.ts`: an instant as the wall clock
of a time zone shows it, the instant of a wall time, and a duration added to an instant, its weeks
and days on the wall clock. What the host knows of time zones is a parameter.

* `wallTimeToInstantWith_fixed`: in a zone of constant offset the instant of a wall time is off by
  that offset.
* `addIcsDuration_zoneless`: without a zone a duration adds its nominal milliseconds.
-/

namespace Keeper

/-- The time zones of the host: the IANA name of a calendar's zone name, the zones that
`Intl.DateTimeFormat` accepts, and the wall clock of a zone at an instant (`instantToWallTime`). -/
structure Zones where
  identify : String → String
  supports : String → Bool
  instantToWallTime : ℤ → String → ℤ

variable (zones : Zones)

/-! ## Names of time zones -/

def normalizeTimezone (timezone : Option String) : Option String :=
  (truthy timezone).map zones.identify

def isSupportedTimeZone (timeZone : Option String) : Bool :=
  match truthy (normalizeTimezone zones timeZone) with
  | none => true
  | some normalizedTimeZone => zones.supports normalizedTimeZone

def resolveTimeZone (timeZone : Option String) : Except RangeError (Option String) :=
  match truthy (normalizeTimezone zones timeZone) with
  | none => .ok none
  | some normalizedTimeZone =>
    if isSupportedTimeZone zones (some normalizedTimeZone) then .ok (some normalizedTimeZone)
    else .error ("Unsupported calendar timezone: " ++ timeZone.getD "undefined")

/-! ## Wall times -/

def probeWindowMs : ℤ := msPerDay

/-- `offsetMillisecondsAt`, of a zone. -/
def offsetMillisecondsAt (timeZone : String) (instant : ℤ) : ℤ :=
  zones.instantToWallTime instant timeZone - instant

def earliestMatchingInstant (desiredTime : ℤ) (candidateOffsets : List ℤ)
    (offsetAt : ℤ → ℤ) : Option ℤ :=
  ((candidateOffsets.map (desiredTime - ·)).filter fun instant =>
    offsetAt instant = desiredTime - instant).min?

/-- `wallTimeToInstantWith`: the earliest instant that shows the wall time, or the one that the
offset before a gap gives. -/
def wallTimeToInstantWith (wallTime : ℤ) (offsetAt : ℤ → ℤ) : Except RangeError ℤ :=
  let offsetBefore := offsetAt (wallTime - probeWindowMs)
  let offsetAfter := offsetAt (wallTime + probeWindowMs)
  if offsetBefore = offsetAfter then .ok (wallTime - offsetBefore)
  else
    match earliestMatchingInstant wallTime [offsetBefore, offsetAfter] offsetAt with
    | some earliest => .ok earliest
    | none =>
      if offsetBefore < offsetAfter then .ok (wallTime - offsetBefore)
      else .error ("Unable to resolve wall time " ++ Date.toISOString wallTime)

def wallTimeToInstant (wallTime : ℤ) (timeZone : String) : Except RangeError ℤ :=
  match wallTimeToInstantWith wallTime (offsetMillisecondsAt zones timeZone) with
  | .ok instant => .ok instant
  | .error _ => .error ("Unable to resolve wall time in timezone " ++ timeZone)

/-- Offsets that stay within a day and change at most once in two days. -/
structure RegularOffsets (offsetAt : ℤ → ℤ) : Prop where
  bounded : ∀ t, -msPerDay ≤ offsetAt t ∧ offsetAt t ≤ msPerDay
  changes : ∀ t, ∃ c, (∀ u, t ≤ u → u < c → offsetAt u = offsetAt t) ∧
    ∀ u, c ≤ u → u ≤ t + 2 * msPerDay → offsetAt u = offsetAt (t + 2 * msPerDay)

/-- **Every wall time has an instant** where offsets are regular. -/
theorem wallTimeToInstantWith_ok {offsetAt : ℤ → ℤ} (h : RegularOffsets offsetAt) (wallTime : ℤ) :
    ∃ instant, wallTimeToInstantWith wallTime offsetAt = .ok instant := by
  unfold wallTimeToInstantWith earliestMatchingInstant probeWindowMs
  dsimp only
  obtain ⟨c, hbefore, hafter⟩ := h.changes (wallTime - msPerDay)
  have hend : wallTime - msPerDay + 2 * msPerDay = wallTime + msPerDay := by ring
  rw [hend] at hafter
  have hboundBefore := h.bounded (wallTime - msPerDay)
  have hboundAfter := h.bounded (wallTime + msPerDay)
  generalize offsetAt (wallTime - msPerDay) = before at *
  generalize offsetAt (wallTime + msPerDay) = after at *
  split_ifs with heq hforward
  · exact ⟨_, rfl⟩
  · split <;> exact ⟨_, rfl⟩
  · split
    · exact ⟨_, rfl⟩
    · -- a clock that is set back shows every wall time
      rename_i hnone
      rw [List.min?_eq_none_iff, List.filter_eq_nil_iff] at hnone
      have hfirst := hnone (wallTime - before) (by simp)
      have hsecond := hnone (wallTime - after) (by simp)
      simp only [decide_eq_true_eq] at hfirst hsecond
      by_cases hc : wallTime - before < c
      · exact absurd (hbefore _ (by omega) hc) (by omega)
      · exact absurd (hafter (wallTime - after) (by omega) (by omega)) (by omega)

def RegularZone (timeZone : String) : Prop := RegularOffsets (offsetMillisecondsAt zones timeZone)

theorem wallTimeToInstant_ok {timeZone : String} (h : RegularZone zones timeZone) (wallTime : ℤ) :
    ∃ instant, wallTimeToInstant zones wallTime timeZone = .ok instant := by
  obtain ⟨instant, hinstant⟩ := wallTimeToInstantWith_ok h wallTime
  exact ⟨instant, by rw [wallTimeToInstant, hinstant]⟩

/-- The instant of a wall time is off by one of the offsets a day before and after it. -/
theorem wallTimeToInstantWith_eq {wallTime instant : ℤ} {offsetAt : ℤ → ℤ}
    (h : wallTimeToInstantWith wallTime offsetAt = .ok instant) :
    instant = wallTime - offsetAt (wallTime - probeWindowMs) ∨
      instant = wallTime - offsetAt (wallTime + probeWindowMs) := by
  unfold wallTimeToInstantWith at h
  dsimp only at h
  split_ifs at h
  · exact Or.inl (Except.ok.inj h).symm
  · split at h
    · rename_i earliest hearliest
      obtain rfl := Except.ok.inj h
      have hmem := List.min?_mem hearliest
      simpa using (List.mem_filter.1 hmem).1
    · exact Or.inl (Except.ok.inj h).symm
  · split at h
    · rename_i earliest hearliest
      obtain rfl := Except.ok.inj h
      have hmem := List.min?_mem hearliest
      simpa using (List.mem_filter.1 hmem).1
    · cases h

/-- **The instant of a wall time** is within a day of it in a regular zone. -/
theorem wallTimeToInstant_bounds {timeZone : String} (h : RegularZone zones timeZone)
    {wallTime instant : ℤ} (hinstant : wallTimeToInstant zones wallTime timeZone = .ok instant) :
    wallTime - msPerDay ≤ instant ∧ instant ≤ wallTime + msPerDay := by
  have hbefore := h.bounded (wallTime - probeWindowMs)
  have hafter := h.bounded (wallTime + probeWindowMs)
  unfold wallTimeToInstant at hinstant
  split at hinstant
  · rename_i earliest hearliest
    obtain rfl := Except.ok.inj hinstant
    rcases wallTimeToInstantWith_eq hearliest with rfl | rfl <;> omega
  · cases hinstant

/-- **A zone of constant offset** shifts every wall time by it. -/
theorem wallTimeToInstantWith_fixed (wallTime offset : ℤ) :
    wallTimeToInstantWith wallTime (fun _ => offset) = .ok (wallTime - offset) := by
  simp [wallTimeToInstantWith]

/-! ## Durations -/

def IcsDuration.nominalDays (duration : IcsDuration) : ℤ :=
  duration.weeks.getD 0 * (7 * msPerDay) + duration.days.getD 0 * msPerDay

/-- The milliseconds of the hours, minutes and seconds of a duration. -/
def IcsDuration.accurate (duration : IcsDuration) : ℤ :=
  duration.hours.getD 0 * (60 * 60 * 1000) + duration.minutes.getD 0 * (60 * 1000) +
    duration.seconds.getD 0 * 1000

def getIcsDurationNominalMilliseconds (duration : IcsDuration) : ℤ :=
  duration.nominalDays + duration.accurate

def addIcsDuration (start : ℤ) (duration : IcsDuration) (timeZone : Option String) :
    Except RangeError ℤ := do
  let nominalMilliseconds := duration.nominalDays
  let result ←
    if nominalMilliseconds = 0 then pure start
    else
      match timeZone with
      | none => pure (start + nominalMilliseconds)
      | some timeZone =>
        wallTimeToInstant zones (zones.instantToWallTime start timeZone + nominalMilliseconds)
          timeZone
  pure (result + duration.accurate)

theorem addIcsDuration_ok {timeZone : Option String}
    (h : ∀ name, timeZone = some name → RegularZone zones name) (start : ℤ)
    (duration : IcsDuration) : ∃ result, addIcsDuration zones start duration timeZone = .ok result := by
  unfold addIcsDuration
  dsimp only
  split_ifs
  · exact ⟨_, rfl⟩
  · cases timeZone with
    | none => exact ⟨_, rfl⟩
    | some name =>
      obtain ⟨result, hresult⟩ := wallTimeToInstant_ok zones (h name rfl)
        (zones.instantToWallTime start name + duration.nominalDays)
      dsimp only
      rw [hresult]
      exact ⟨_, rfl⟩

/-- **Without a zone** a duration adds its nominal milliseconds. -/
theorem addIcsDuration_zoneless (start : ℤ) (duration : IcsDuration) :
    addIcsDuration zones start duration none =
      .ok (start + getIcsDurationNominalMilliseconds duration) := by
  have hsum : start + duration.nominalDays + duration.accurate =
      start + getIcsDurationNominalMilliseconds duration := by
    rw [getIcsDurationNominalMilliseconds, add_assoc]
  unfold addIcsDuration
  by_cases hn : duration.nominalDays = 0
  · rw [hn, add_zero] at hsum
    rw [← hsum]
    simp [hn, pure, Except.pure, bind, Except.bind]
  · rw [← hsum]
    simp [hn, pure, Except.pure, bind, Except.bind]

end Keeper
