import Keeper.Reads.FreeSlots
import Keeper.Recurrence.SharedInstants

/-!
# Exact free slots

What `findFreeSlots` finds before its limit, against what a user would call free: the maximal intervals of the
working hours of a day that meet no busy interval and last long enough.

* `mem_subtractBusyFromWindow_iff`: the parts that are left of a window are the maximal ones.
* `isExact_iff`: the slots found are the maximal ones, in order and disjoint, if and only if no time is free for
  long enough in the windows of two days.
* `not_isExact`: a day that a zone skips has the window of the next day, and its slots are found twice.
-/

namespace Keeper

open JsArray Span

/-! ## Maximal parts of a window -/

def freePoints (window : Span ℤ) (busyIntervals : List (Span ℤ)) : Set ℤ :=
  {t | t ∈ window.points ∧ t ∉ covered busyIntervals}

/-- The parts that the loop has left are apart from one another, and end before its cursor. -/
structure LeavesApart (window : Span ℤ) (state : List (Span ℤ) × ℤ) : Prop where
  apart : Apart state.1
  before : ∀ i ∈ state.1, i.stop < state.2
  le_stop : state.2 ≤ window.stop

variable {window interval : Span ℤ} {busyIntervals : List (Span ℤ)}

/-- A part that starts where the loop stands is apart from those before. -/
theorem LeavesApart.append {free : List (Span ℤ)} {cursor stop : ℤ} (h : LeavesApart window (free, cursor))
    (hstop : cursor < stop) : Apart (free ++ [⟨cursor, stop⟩]) := by
  refine ⟨fun i hi => ?_, List.pairwise_append.2 ⟨h.apart.separated, List.pairwise_singleton _ _, ?_⟩⟩
  · rcases List.mem_append.1 hi with hi | hi
    · exact h.apart.nonempty i hi
    · obtain rfl := List.mem_singleton.1 hi
      exact hstop
  · intro i hi j hj
    obtain rfl := List.mem_singleton.1 hj
    exact h.before i hi

theorem LeavesApart.step {state : List (Span ℤ) × ℤ} (h : LeavesApart window state)
    (hinterval : interval.start < interval.stop) : LeavesApart window (subtractInterval window state interval) := by
  obtain ⟨free, cursor⟩ := state
  have hbefore := h.before
  have hstop := h.le_stop
  dsimp only at hbefore hstop
  unfold subtractInterval
  dsimp only
  split_ifs with hskip hgap
  · exact h
  · refine ⟨h.append hgap, fun i hi => ?_, min_le_right _ _⟩
    dsimp only
    rcases List.mem_append.1 hi with hi | hi
    · have := hbefore i hi
      omega
    · obtain rfl := List.mem_singleton.1 hi
      dsimp only
      omega
  · refine ⟨h.apart, fun i hi => ?_, min_le_right _ _⟩
    have := hbefore i hi
    dsimp only
    omega

theorem LeavesApart.foldl {state : List (Span ℤ) × ℤ} (h : LeavesApart window state) {busy : List (Span ℤ)}
    (hbusy : ∀ i ∈ busy, i.start < i.stop) : LeavesApart window (busy.foldl (subtractInterval window) state) := by
  induction busy generalizing state with
  | nil => exact h
  | cons interval busy ih =>
    exact ih (h.step (hbusy interval List.mem_cons_self)) fun i hi => hbusy i (List.mem_cons_of_mem _ hi)

theorem apart_subtractBusyFromWindow (hwindow : window.start ≤ window.stop) {busy : List (Span ℤ)}
    (hbusy : ∀ i ∈ busy, i.start < i.stop) : Apart (subtractBusyFromWindow window busy) := by
  have hstart : LeavesApart window ([], window.start) :=
    ⟨⟨fun i hi => absurd hi List.not_mem_nil, List.Pairwise.nil⟩, fun i hi => absurd hi List.not_mem_nil, hwindow⟩
  have hdone := hstart.foldl hbusy
  rw [subtractBusyFromWindow]
  generalize busy.foldl (subtractInterval window) ([], window.start) = state at hdone
  obtain ⟨free, cursor⟩ := state
  dsimp only
  split_ifs with hleft
  · exact hdone.append hleft
  · exact hdone.apart

theorem covered_subtractBusyFromWindow (hwindow : window.start ≤ window.stop) (busyIntervals : List (Span ℤ)) :
    covered (subtractBusyFromWindow window (mergeIntervals busyIntervals)) = freePoints window busyIntervals := by
  obtain ⟨hcovers, hsorted, hnonempty⟩ := mergeIntervals_ok busyIntervals
  ext t
  rw [mem_covered_subtractBusyFromWindow hwindow hsorted hnonempty, hcovers]
  rfl

/-- **The parts that are left of a window** are the maximal ones of what is free of it. -/
theorem mem_subtractBusyFromWindow_iff (hwindow : window.start ≤ window.stop) (busyIntervals : List (Span ℤ)) :
    interval ∈ subtractBusyFromWindow window (mergeIntervals busyIntervals) ↔
      interval.IsMaximalIn (freePoints window busyIntervals) := by
  have hapart := apart_subtractBusyFromWindow hwindow (mergeIntervals_ok busyIntervals).2.2
  rw [hapart.mem_iff, covered_subtractBusyFromWindow hwindow]

/-- An instant lasts free in a window: it lies in an interval of the duration that is free of it. -/
def LastsFree (window : Span ℤ) (busyIntervals : List (Span ℤ)) (duration t : ℤ) : Prop :=
  ∃ interval : Span ℤ, t ∈ interval.points ∧ interval.points ⊆ freePoints window busyIntervals ∧
    duration ≤ interval.stop - interval.start

def longParts (busyIntervals : List (Span ℤ)) (duration : ℤ) (window : Span ℤ) : List (Span ℤ) :=
  (subtractBusyFromWindow window (mergeIntervals busyIntervals)).filter fun slot =>
    duration ≤ slot.stop - slot.start

theorem mem_longParts {duration : ℤ} (hwindow : window.start ≤ window.stop) :
    interval ∈ longParts busyIntervals duration window ↔
      interval.IsMaximalIn (freePoints window busyIntervals) ∧ duration ≤ interval.stop - interval.start := by
  rw [longParts, List.mem_filter, mem_subtractBusyFromWindow_iff hwindow, decide_eq_true_eq]

theorem lastsFree_iff {duration : ℤ} (hwindow : window.start ≤ window.stop) {t : ℤ} :
    LastsFree window busyIntervals duration t ↔
      ∃ interval ∈ longParts busyIntervals duration window, t ∈ interval.points := by
  have hapart := apart_subtractBusyFromWindow hwindow (mergeIntervals_ok busyIntervals).2.2
  constructor
  · rintro ⟨interval, ht, hsub, hlong⟩
    rw [← covered_subtractBusyFromWindow hwindow] at hsub
    rw [mem_points] at ht
    obtain ⟨part, hpart, hstart, hstop⟩ := hapart.exists_of_subset (by omega) hsub
    refine ⟨part, List.mem_filter.2 ⟨hpart, ?_⟩, ?_⟩
    · rw [decide_eq_true_eq]
      omega
    · rw [mem_points]
      omega
  · rintro ⟨interval, hinterval, ht⟩
    obtain ⟨hmax, hlong⟩ := (mem_longParts hwindow).1 hinterval
    exact ⟨interval, ht, hmax.subset, hlong⟩

theorem not_lastsFree {duration : ℤ} (hwindow : ¬window.start < window.stop) (t : ℤ) :
    ¬LastsFree window busyIntervals duration t := by
  rintro ⟨interval, ht, hsub, -⟩
  have hpoint := (hsub ht).1
  rw [mem_points] at hpoint
  omega

/-! ## The days of a range -/

section Days
variable (zones : Zones) (range : Span ℤ) (timeZone : String)

/-- A local day of the range: from the one that its start shows to the one that its end shows. -/
def IsLocalDay (day : ℤ) : Prop :=
  zones.instantToWallTime range.start timeZone / msPerDay ≤ day ∧
    day ≤ zones.instantToWallTime range.stop timeZone / msPerDay

def WorkingHours.allows (workingHours : WorkingHours) (day : ℤ) : Bool :=
  workingHours.days.all fun days => days.contains (utcDay (day * msPerDay))

/-- The window of an allowed local day: its working hours in the range. -/
def IsDayWindow (workingHours : WorkingHours) (day : ℤ) (window : Span ℤ) : Prop :=
  (IsLocalDay zones range timeZone day ∧ workingHours.allows day = true) ∧
    workingWindow zones range timeZone workingHours (day * msPerDay) = .ok window

/-- A candidate window: the range, or the working hours of an allowed local day. -/
def IsCandidateWindow (workingHours : Option WorkingHours) (window : Span ℤ) : Prop :=
  match workingHours with
  | none => window = range
  | some workingHours => ∃ day, IsDayWindow zones range timeZone workingHours day window

/-- The years that the ends of the range show are ones that `Date.UTC` takes as they stand. -/
def ShowsFullYears : Prop :=
  ∀ t ∈ [range.start, range.stop],
    ¬(0 ≤ (Date.civilFromDays (zones.instantToWallTime t timeZone / msPerDay)).year ∧
      (Date.civilFromDays (zones.instantToWallTime t timeZone / msPerDay)).year ≤ 99)

variable {zones range timeZone}

theorem utcDateOf_eq {time : ℤ}
    (h : ¬(0 ≤ (Date.civilFromDays (time / msPerDay)).year ∧ (Date.civilFromDays (time / msPerDay)).year ≤ 99)) :
    utcDateOf time = time / msPerDay * msPerDay := by
  rw [utcDateOf, if_neg h, Date.daysFromCivil_civilFromDays]

/-- **The days that are gone through** are the local days of the range. -/
theorem buildLocalDayStarts_eq (h : ShowsFullYears zones range timeZone) :
    ∃ days : List ℤ, buildLocalDayStarts zones range timeZone = days.map (· * msPerDay) ∧
      (∀ day, day ∈ days ↔ IsLocalDay zones range timeZone day) ∧ days.Pairwise (· ≠ ·) := by
  have hstart := utcDateOf_eq (h range.start (by simp))
  have hstop := utcDateOf_eq (h range.stop (by simp))
  unfold IsLocalDay
  generalize hfirst : zones.instantToWallTime range.start timeZone / msPerDay = first at hstart
  generalize hlast : zones.instantToWallTime range.stop timeZone / msPerDay = last at hstop
  have hcount : (last * msPerDay - first * msPerDay) / msPerDay + 1 = last - first + 1 := by
    rw [← sub_mul, Int.mul_ediv_cancel _ (by decide)]
  refine ⟨(List.range (last - first + 1).toNat).map fun day : ℕ => first + day, ?_, fun day => ?_, ?_⟩
  · unfold buildLocalDayStarts
    dsimp only
    rw [hstart, hstop, hcount, List.map_map, bind_pure_comp, List.map_eq_map, List.map_map]
    refine List.map_congr_left fun day _ => ?_
    simp only [Function.comp_apply]
    ring
  · rw [List.mem_map]
    constructor
    · rintro ⟨k, hk, rfl⟩
      rw [List.mem_range] at hk
      omega
    · rintro ⟨hlo, hhi⟩
      exact ⟨(day - first).toNat, List.mem_range.2 (by omega), by omega⟩
  · refine List.pairwise_map.2 (List.nodup_range.imp fun hne => ?_)
    omega

/-- **The candidate windows** are those of the allowed local days, without the empty ones. -/
theorem buildCandidateWindows_eq (hzone : RegularZone zones timeZone) {workingHours : WorkingHours}
    (h : ShowsFullYears zones range timeZone) :
    ∃ days : List ℤ, ∃ windowOf : ℤ → Span ℤ,
      buildCandidateWindows zones range timeZone (some workingHours) =
          .ok ((days.map windowOf).filter fun window => window.start < window.stop) ∧
        (∀ day ∈ days, IsDayWindow zones range timeZone workingHours day (windowOf day)) ∧
        (∀ day window, IsDayWindow zones range timeZone workingHours day window →
          day ∈ days ∧ window = windowOf day) ∧ days.Pairwise (· ≠ ·) := by
  obtain ⟨days, hstarts, hmem, hnodup⟩ := buildLocalDayStarts_eq h
  choose instant hinstant using fun wallTime => wallTimeToInstant_ok zones hzone wallTime
  have hwindow : ∀ dayStart, workingWindow zones range timeZone workingHours dayStart =
      .ok ⟨max (instant (dayStart + workingHours.startMinute * msPerMinute)) range.start,
        min (instant (dayStart + workingHours.endMinute * msPerMinute)) range.stop⟩ := by
    intro dayStart
    rw [workingWindow, hinstant, hinstant]
    rfl
  refine ⟨days.filter fun day => workingHours.allows day, fun day =>
    ⟨max (instant (day * msPerDay + workingHours.startMinute * msPerMinute)) range.start,
      min (instant (day * msPerDay + workingHours.endMinute * msPerMinute)) range.stop⟩, ?_, ?_, ?_, ?_⟩
  · have hall : ((days.map (· * msPerDay)).filter fun dayStart =>
        workingHours.days.all fun days => days.contains (utcDay dayStart)) =
          (days.filter fun day => workingHours.allows day).map (· * msPerDay) := by
      rw [List.filter_map]
      rfl
    have hmap : ((days.filter fun day => workingHours.allows day).map (· * msPerDay)).mapM
        (workingWindow zones range timeZone workingHours) =
          .ok ((days.filter fun day => workingHours.allows day).map fun day =>
            ⟨max (instant (day * msPerDay + workingHours.startMinute * msPerMinute)) range.start,
              min (instant (day * msPerDay + workingHours.endMinute * msPerMinute)) range.stop⟩) := by
      refine mapM_eq_ok_iff.2 ⟨fun dayStart _ => ⟨_, hwindow dayStart⟩, ?_⟩
      rw [List.filterMap_map, ← List.filterMap_eq_map]
      refine List.filterMap_congr fun day _ => ?_
      simp only [Function.comp_apply, hwindow]
      rfl
    unfold buildCandidateWindows
    dsimp only
    rw [hstarts, hall, hmap]
    rfl
  · intro day hday
    obtain ⟨hmemDay, hallows⟩ := List.mem_filter.1 hday
    exact ⟨⟨(hmem day).1 hmemDay, hallows⟩, hwindow _⟩
  · rintro day window ⟨⟨hlocal, hallows⟩, hok⟩
    refine ⟨List.mem_filter.2 ⟨(hmem day).2 hlocal, hallows⟩, ?_⟩
    rw [hwindow] at hok
    exact (Except.ok.inj hok).symm
  · exact hnodup.filter _

end Days

/-! ## Slots before the limit -/

/-- The free slots that `findFreeSlots` has found before it takes those within the limit. -/
def slotsBeforeLimit (zones : Zones) (range : Span ℤ) (busyIntervals : List (Span ℤ)) (timeZone : String)
    (options : FreeTimeOptions) : Except RangeError (List (Span ℤ)) := do
  let windows ← buildCandidateWindows zones range timeZone options.workingHours
  return toSorted (fun left right => left.start - right.start)
    (windows.flatMap (longParts busyIntervals (options.durationMinutes.num * msPerMinute)))

/-- Options that pass the checks of `findFreeSlots`. -/
structure FreeTimeOptions.Valid (options : FreeTimeOptions) : Prop where
  duration : options.durationMinutes.isInt = true ∧ 0 < options.durationMinutes
  limit : options.limit.isInt = true ∧ 0 < options.limit ∧ options.limit ≤ maxFreeSlots

section Exact
variable {zones : Zones} {range : Span ℤ} {busyIntervals : List (Span ℤ)} {timeZone : String}
  {options : FreeTimeOptions}

theorem findFreeSlots_eq (hvalid : options.Valid)
    (hresolve : resolveRequestTimeZone zones options.timezone = .ok timeZone) :
    findFreeSlots zones range busyIntervals options =
      ((slotsBeforeLimit zones range busyIntervals timeZone options).mapError .range).map fun found =>
        (found.take options.limit.num.toNat).map toFreeSlot := by
  unfold findFreeSlots slotsBeforeLimit
  rw [if_neg (not_not.2 hvalid.duration), if_neg (not_not.2 hvalid.limit), hresolve]
  simp only [bind, Except.bind]
  cases buildCandidateWindows zones range timeZone options.workingHours with
  | error e => rfl
  | ok windows =>
    dsimp only [Except.mapError]
    rw [List.filter_flatMap]
    rfl

variable (zones range busyIntervals timeZone options) in
/-- The slots before the limit are the maximal free intervals of the candidate windows that last long enough, in
order and disjoint; the earliest ones are returned. -/
def IsExact : Prop :=
  ∃ found, slotsBeforeLimit zones range busyIntervals timeZone options = .ok found ∧
    (∀ interval, interval ∈ found ↔
      ∃ window, IsCandidateWindow zones range timeZone options.workingHours window ∧
        interval.IsMaximalIn (freePoints window busyIntervals) ∧
        options.durationMinutes.num * msPerMinute ≤ interval.stop - interval.start) ∧
    found.Pairwise (fun i j => i.stop ≤ j.start) ∧
    findFreeSlots zones range busyIntervals options =
      .ok ((found.take options.limit.num.toNat).map toFreeSlot)

variable (zones range busyIntervals timeZone options) in
/-- No instant lasts free in the windows of two days. -/
def LastsFreeOnce : Prop :=
  ∀ workingHours, options.workingHours = some workingHours → ∀ day day' window window', day ≠ day' →
    IsDayWindow zones range timeZone workingHours day window →
    IsDayWindow zones range timeZone workingHours day' window' →
    ∀ t, ¬(LastsFree window busyIntervals (options.durationMinutes.num * msPerMinute) t ∧
      LastsFree window' busyIntervals (options.durationMinutes.num * msPerMinute) t)

/-- Two windows share no instant that lasts free. -/
def SharesNone (busyIntervals : List (Span ℤ)) (duration : ℤ) (window window' : Span ℤ) : Prop :=
  ∀ t, ¬(LastsFree window busyIntervals duration t ∧ LastsFree window' busyIntervals duration t)

variable {windows : List (Span ℤ)}

/-- **The long parts of windows** are in order and disjoint once sorted, if and only if the windows share no
instant that lasts free. -/
theorem pairwise_toSorted_longParts {duration : ℤ} (hwindows : ∀ window ∈ windows, window.start < window.stop) :
    (toSorted (fun left right : Span ℤ => left.start - right.start)
        (windows.flatMap (longParts busyIntervals duration))).Pairwise (fun i j => i.stop ≤ j.start) ↔
      windows.Pairwise (SharesNone busyIntervals duration) := by
  set found := toSorted (fun left right : Span ℤ => left.start - right.start)
    (windows.flatMap (longParts busyIntervals duration)) with hfound
  have hnonempty : ∀ i ∈ found, i.start < i.stop := by
    intro i hi
    obtain ⟨window, hwindow, hpart⟩ := List.mem_flatMap.1 (mem_toSorted.1 hi)
    exact ((mem_longParts (hwindows window hwindow).le).1 hpart).1.nonempty
  have hsorted : found.Pairwise fun i j => i.start ≤ j.start :=
    (startOrder_orders.pairwise_toSorted _).imp fun {i j} h => by omega
  -- in the order of their starts, intervals are disjoint where each ends before the next
  have hdisjoint : found.Pairwise (fun i j => i.stop ≤ j.start) ↔ found.Pairwise fun i j => ¬i.Meets j := by
    constructor
    · refine fun h => h.imp fun {i j} hle hmeets => ?_
      rw [meets_iff] at hmeets
      omega
    · intro h
      refine (hsorted.and h).imp_of_mem fun {i j} hi hj hij => ?_
      have hi' := hnonempty i hi
      have hj' := hnonempty j hj
      by_contra hlt
      exact hij.2 (meets_iff.2 (by omega))
  rw [hdisjoint, (toSorted_perm _ _).pairwise_iff fun h hmeets => h hmeets.symm, List.pairwise_flatMap]
  have hapart : ∀ window ∈ windows, (longParts busyIntervals duration window).Pairwise fun i j => ¬i.Meets j := by
    intro window hwindow
    have hparts := apart_subtractBusyFromWindow (hwindows window hwindow).le (mergeIntervals_ok busyIntervals).2.2
    refine (hparts.separated.filter _).imp fun {i j} hlt hmeets => ?_
    rw [meets_iff] at hmeets
    omega
  rw [and_iff_right hapart]
  have hiff : ∀ window ∈ windows, ∀ window' ∈ windows,
      (∀ i ∈ longParts busyIntervals duration window, ∀ j ∈ longParts busyIntervals duration window', ¬i.Meets j) ↔
        SharesNone busyIntervals duration window window' := by
    intro window hwindow window' hwindow'
    unfold SharesNone
    simp only [lastsFree_iff (hwindows window hwindow).le, lastsFree_iff (hwindows window' hwindow').le]
    constructor
    · rintro h t ⟨⟨i, hi, hti⟩, j, hj, htj⟩
      exact h i hi j hj ⟨t, hti, htj⟩
    · rintro h i hi j hj ⟨t, hti, htj⟩
      exact h t ⟨⟨i, hi, hti⟩, j, hj, htj⟩
  exact ⟨fun h => h.imp_of_mem fun hw hw' => (hiff _ hw _ hw').1,
    fun h => h.imp_of_mem fun hw hw' => (hiff _ hw _ hw').2⟩

/-- What is found in windows: their maximal free intervals that last long enough. -/
theorem mem_slotsOf {duration : ℤ} (hwindows : ∀ window ∈ windows, window.start < window.stop) {interval : Span ℤ} :
    interval ∈ toSorted (fun left right : Span ℤ => left.start - right.start)
        (windows.flatMap (longParts busyIntervals duration)) ↔
      ∃ window ∈ windows, interval.IsMaximalIn (freePoints window busyIntervals) ∧
        duration ≤ interval.stop - interval.start := by
  rw [mem_toSorted, List.mem_flatMap]
  exact exists_congr fun window => and_congr_right fun hwindow => mem_longParts (hwindows window hwindow).le

/-- Windows that list the candidates make the slots exact where they share no instant that lasts free. -/
theorem isExact_iff_of_windows (hvalid : options.Valid)
    (hresolve : resolveRequestTimeZone zones options.timezone = .ok timeZone)
    (hbuild : buildCandidateWindows zones range timeZone options.workingHours = .ok windows)
    (hwindows : ∀ window ∈ windows, window.start < window.stop)
    (hmem : ∀ window, window.start < window.stop → (window ∈ windows ↔ IsCandidateWindow zones range timeZone options.workingHours window)) :
    IsExact zones range busyIntervals timeZone options ↔
      windows.Pairwise (SharesNone busyIntervals (options.durationMinutes.num * msPerMinute)) := by
  have hfound : slotsBeforeLimit zones range busyIntervals timeZone options =
      .ok (toSorted (fun left right => left.start - right.start)
        (windows.flatMap (longParts busyIntervals (options.durationMinutes.num * msPerMinute)))) := by
    rw [slotsBeforeLimit, hbuild]
    rfl
  rw [← pairwise_toSorted_longParts hwindows]
  constructor
  · rintro ⟨found, hok, -, hpairwise, -⟩
    obtain rfl := Except.ok.inj (hok.symm.trans hfound)
    exact hpairwise
  · intro hpairwise
    refine ⟨_, hfound, fun interval => ?_, hpairwise, ?_⟩
    · rw [mem_slotsOf hwindows]
      constructor
      · rintro ⟨window, hwindow, hmax⟩
        exact ⟨window, (hmem window (hwindows window hwindow)).1 hwindow, hmax⟩
      · rintro ⟨window, hcandidate, hmax⟩
        have hpoint := (hmax.1.subset ⟨le_rfl, hmax.1.nonempty⟩).1
        rw [mem_points] at hpoint
        exact ⟨window, (hmem window (by omega)).2 hcandidate, hmax⟩
    · rw [findFreeSlots_eq hvalid hresolve, hfound]
      rfl

/-- **Free slots are exact** if and only if no instant lasts free in the windows of two days. -/
theorem isExact_iff (hrange : range.start < range.stop) (hzone : RegularZone zones timeZone)
    (hresolve : resolveRequestTimeZone zones options.timezone = .ok timeZone) (hvalid : options.Valid)
    (hyears : options.workingHours.isSome = true → ShowsFullYears zones range timeZone) :
    IsExact zones range busyIntervals timeZone options ↔
      LastsFreeOnce zones range busyIntervals timeZone options := by
  cases hhours : options.workingHours with
  | none =>
    have hbuild : buildCandidateWindows zones range timeZone options.workingHours = .ok [range] := by
      rw [hhours]
      rfl
    rw [isExact_iff_of_windows hvalid hresolve hbuild
      (fun window hwindow => List.mem_singleton.1 hwindow ▸ hrange) fun window _ => ?_]
    · refine iff_of_true (List.pairwise_singleton _ _) fun workingHours hsome => ?_
      rw [hhours] at hsome
      cases hsome
    · rw [List.mem_singleton, hhours]
      rfl
  | some workingHours =>
    obtain ⟨days, windowOf, hbuild, hwindow, hmem, hnodup⟩ :=
      @buildCandidateWindows_eq _ _ _ hzone workingHours (hyears (by rw [hhours]; rfl))
    rw [← hhours] at hbuild
    rw [isExact_iff_of_windows hvalid hresolve hbuild
      (fun window h => of_decide_eq_true (List.mem_filter.1 h).2) fun window hlt => ?_]
    · have hempty : ∀ window window' : Span ℤ, ¬(window.start < window.stop ∧ window'.start < window'.stop) →
          SharesNone busyIntervals (options.durationMinutes.num * msPerMinute) window window' := by
        rintro window window' hnot t ⟨ht, ht'⟩
        refine hnot ⟨?_, ?_⟩
        · by_contra hlt
          exact not_lastsFree hlt t ht
        · by_contra hlt
          exact not_lastsFree hlt t ht'
      rw [List.pairwise_filter, List.pairwise_map]
      constructor
      · intro hpairwise workingHours' hsome day day' window window' hne hday hday' t
        obtain rfl := Option.some.inj (hhours.symm.trans hsome)
        obtain ⟨hin, rfl⟩ := hmem day window hday
        obtain ⟨hin', rfl⟩ := hmem day' window' hday'
        have hall : days.Pairwise fun day day' =>
            SharesNone busyIntervals (options.durationMinutes.num * msPerMinute) (windowOf day) (windowOf day') := by
          refine hpairwise.imp fun {day day'} h => ?_
          by_cases hboth : (windowOf day).start < (windowOf day).stop ∧ (windowOf day').start < (windowOf day').stop
          · exact h (decide_eq_true hboth.1) (decide_eq_true hboth.2)
          · exact hempty _ _ hboth
        have : Std.Symm fun day day' =>
            SharesNone busyIntervals (options.durationMinutes.num * msPerMinute) (windowOf day) (windowOf day') :=
          ⟨fun _ _ h t ht => h t ht.symm⟩
        exact hall.forall hin hin' hne t
      · intro honce
        refine hnodup.imp_of_mem fun {day day'} hin hin' hne _ _ t => ?_
        exact honce workingHours hhours day day' _ _ hne (hwindow day hin) (hwindow day' hin') t
    · rw [List.mem_filter, decide_eq_true_eq, and_iff_left hlt, List.mem_map, hhours]
      constructor
      · rintro ⟨day, hin, rfl⟩
        exact ⟨day, hwindow day hin⟩
      · rintro ⟨day, hday⟩
        obtain ⟨hin, rfl⟩ := hmem day window hday
        exact ⟨day, hin, rfl⟩

end Exact

namespace Example

/-- Nine to five on every day, an hour long. -/
def officeHours : FreeTimeOptions where
  durationMinutes := 60
  timezone := "Pacific/Apia"
  workingHours := some ⟨540, 1020, none⟩
  limit := 50

theorem officeHours_valid : officeHours.Valid := ⟨by decide +kernel, by decide +kernel⟩

def fourteenAhead : Zones where
  identify := id
  supports := fun _ => true
  instantToWallTime := fun t _ => t + 50400000

theorem fourteenAhead_regular (name : String) : RegularZone fourteenAhead name where
  bounded t := by
    simp only [offsetMillisecondsAt, fourteenAhead, msPerDay]
    omega
  changes t := by
    refine ⟨t, fun u hu hc => by omega, fun u _ _ => ?_⟩
    simp only [offsetMillisecondsAt, fourteenAhead]
    omega

theorem wallTimeToInstant_fourteenAhead (wallTime : ℤ) (name : String) :
    wallTimeToInstant fourteenAhead wallTime name = .ok (wallTime - 50400000) := by
  have hoffset : offsetMillisecondsAt fourteenAhead name = fun _ => 50400000 := by
    funext t
    simp only [offsetMillisecondsAt, fourteenAhead]
    omega
  rw [wallTimeToInstant, hoffset, wallTimeToInstantWith_fixed]

end Example

theorem isExact_iff_example :
    IsExact Example.fourteenAhead ⟨1325203200000, 1325332800000⟩ [⟨1325280000000, 1325287200000⟩] "Pacific/Apia"
      Example.officeHours := by
  refine (isExact_iff (by decide) (Example.fourteenAhead_regular _) rfl Example.officeHours_valid
    fun _ t ht => ?_).2 ?_
  · rcases List.mem_cons.1 ht with rfl | ht
    · decide
    · obtain rfl := List.mem_singleton.1 ht
      decide
  · rintro workingHours hsome day day' window window' hne ⟨-, hwindow⟩ ⟨-, hwindow'⟩ t ⟨hlasts, hlasts'⟩
    obtain rfl := Option.some.inj hsome
    rw [workingWindow, Example.wallTimeToInstant_fourteenAhead, Example.wallTimeToInstant_fourteenAhead] at hwindow hwindow'
    obtain rfl := Except.ok.inj hwindow
    obtain rfl := Except.ok.inj hwindow'
    -- the windows of two days are hours of these days
    obtain ⟨interval, hin, hsub, -⟩ := hlasts
    obtain ⟨interval', hin', hsub', -⟩ := hlasts'
    have hpoint := (hsub hin).1
    have hpoint' := (hsub' hin').1
    simp only [mem_points, msPerDay, msPerMinute] at hpoint hpoint'
    omega

/-- **A skipped day.** Samoa had no 2011-12-30: the wall times of that day are read as those of the next, whose free
hours are found twice. -/
theorem not_isExact :
    RegularZone Example.samoa "Pacific/Apia" ∧
      ¬IsExact Example.samoa ⟨1325203200000, 1325332800000⟩ [] "Pacific/Apia" Example.officeHours := by
  refine ⟨Example.samoa_regular _, ?_⟩
  rintro ⟨found, hfound, -, hpairwise, -⟩
  have htwice : slotsBeforeLimit Example.samoa ⟨1325203200000, 1325332800000⟩ [] "Pacific/Apia" Example.officeHours =
      .ok [⟨1325203200000, 1325214000000⟩, ⟨1325271600000, 1325300400000⟩, ⟨1325271600000, 1325300400000⟩] := by
    rfl
  obtain rfl := Except.ok.inj (hfound.symm.trans htwice)
  revert hpairwise
  decide

end Keeper
