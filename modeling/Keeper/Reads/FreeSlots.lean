import Keeper.Foundations.Spans
import Keeper.Reads.EventReadModel
import Mathlib.Data.Int.ConditionallyCompleteOrder

/-!
# Free slots

`utils/free-time.ts` of the API: busy intervals are merged and taken out of the windows of a range,
which are the range itself or the working hours of its days on the clock of a time zone; what is left
and long enough is a free slot.

* `mergeIntervals_ok`: merging covers the same instants.
* `mem_covered_subtractBusyFromWindow`: what is left of a window is what no busy interval covers.
* `findFreeSlots_ok`: a free slot lies in the range, and no busy interval covers an instant of it.
-/

namespace Keeper

open JsArray Span

/-! ## Merging -/

/-- One iteration of `mergeIntervals`. -/
def mergeInterval (merged : List (Span ℤ)) (interval : Span ℤ) : List (Span ℤ) :=
  match merged.getLast? with
  | none => merged ++ [interval]
  | some previous =>
    if previous.stop < interval.start then merged ++ [interval]
    else if previous.stop < interval.stop then
      merged.dropLast ++ [⟨previous.start, interval.stop⟩]
    else merged

def mergeIntervals (intervals : List (Span ℤ)) : List (Span ℤ) :=
  (toSorted (fun left right => left.start - right.start)
    (intervals.filter fun interval => interval.start < interval.stop)).foldl mergeInterval []

/-- What has been merged of the intervals seen: it covers the same, and its starts are among theirs
and in order; no interval is empty. -/
structure IsMerged (seen merged : List (Span ℤ)) : Prop where
  covers : covered merged = covered seen
  starts : ∀ i ∈ merged, ∃ j ∈ seen, j.start = i.start
  sorted : merged.Pairwise fun i j => i.start ≤ j.start
  nonempty : ∀ i ∈ merged, i.start < i.stop

theorem IsMerged.step {seen merged : List (Span ℤ)} (h : IsMerged seen merged)
    {interval : Span ℤ} (hinterval : interval.start < interval.stop)
    (hle : ∀ i ∈ seen, i.start ≤ interval.start) :
    IsMerged (seen ++ [interval]) (mergeInterval merged interval) := by
  have hstarts : ∀ i ∈ merged, i.start ≤ interval.start := by
    intro i hi
    obtain ⟨j, hj, hsame⟩ := h.starts i hi
    exact hsame ▸ hle j hj
  have hmem : ∀ t, t ∈ covered (seen ++ [interval]) ↔ t ∈ covered merged ∨ t ∈ interval.points := by
    intro t
    rw [mem_covered_append, h.covers, mem_covered_cons, or_iff_left not_mem_covered_nil]
  have happend : IsMerged (seen ++ [interval]) (merged ++ [interval]) := by
    refine ⟨?_, fun i hi => ?_, ?_, fun i hi => ?_⟩
    · ext t
      rw [hmem, mem_covered_append, mem_covered_cons, or_iff_left not_mem_covered_nil]
    · rcases List.mem_append.1 hi with hi | hi
      · obtain ⟨j, hj, hsame⟩ := h.starts i hi
        exact ⟨j, List.mem_append_left _ hj, hsame⟩
      · exact ⟨i, List.mem_append_right _ hi, rfl⟩
    · refine List.pairwise_append.2 ⟨h.sorted, List.pairwise_singleton _ _, fun i hi j hj => ?_⟩
      obtain rfl := List.mem_singleton.1 hj
      exact hstarts i hi
    · rcases List.mem_append.1 hi with hi | hi
      · exact h.nonempty i hi
      · obtain rfl := List.mem_singleton.1 hi
        exact hinterval
  rcases List.eq_nil_or_concat merged with rfl | ⟨init, previous, rfl⟩
  · exact happend
  · rw [List.concat_eq_append] at h hstarts hmem happend ⊢
    have hprevious := hstarts previous (by simp)
    rw [mergeInterval, List.getLast?_append, List.getLast?_singleton, Option.some_or,
      List.dropLast_concat]
    dsimp only
    have hcovers : ∀ t, t ∈ covered (init ++ [previous]) ↔
        t ∈ covered init ∨ t ∈ previous.points := by
      intro t
      rw [mem_covered_append, mem_covered_cons, or_iff_left not_mem_covered_nil]
    split_ifs with hafter hlonger
    · exact happend
    · refine ⟨?_, fun i hi => ?_, ?_, fun i hi => ?_⟩
      · ext t
        rw [hmem, hcovers, mem_covered_append, mem_covered_cons, or_iff_left not_mem_covered_nil,
          or_assoc]
        refine or_congr_right ?_
        simp only [mem_points]
        omega
      · rcases List.mem_append.1 hi with hi | hi
        · obtain ⟨j, hj, hsame⟩ := h.starts i (List.mem_append_left _ hi)
          exact ⟨j, List.mem_append_left _ hj, hsame⟩
        · obtain rfl := List.mem_singleton.1 hi
          obtain ⟨j, hj, hsame⟩ := h.starts previous (by simp)
          exact ⟨j, List.mem_append_left _ hj, hsame⟩
      · obtain ⟨hinit, -, hbefore⟩ := List.pairwise_append.1 h.sorted
        refine List.pairwise_append.2 ⟨hinit, List.pairwise_singleton _ _, fun i hi j hj => ?_⟩
        obtain rfl := List.mem_singleton.1 hj
        exact hbefore i hi previous (List.mem_singleton_self _)
      · rcases List.mem_append.1 hi with hi | hi
        · exact h.nonempty i (List.mem_append_left _ hi)
        · obtain rfl := List.mem_singleton.1 hi
          exact lt_of_le_of_lt hprevious hinterval
    · refine ⟨?_, fun i hi => ?_, h.sorted, h.nonempty⟩
      · ext t
        rw [hmem, hcovers, or_assoc]
        refine or_congr_right ?_
        simp only [mem_points]
        omega
      · obtain ⟨j, hj, hsame⟩ := h.starts i hi
        exact ⟨j, List.mem_append_left _ hj, hsame⟩

theorem IsMerged.foldl {seen merged : List (Span ℤ)} (h : IsMerged seen merged)
    {l : List (Span ℤ)} (hnonempty : ∀ i ∈ l, i.start < i.stop)
    (hsorted : (seen ++ l).Pairwise fun i j => i.start ≤ j.start) :
    IsMerged (seen ++ l) (l.foldl mergeInterval merged) := by
  induction l generalizing seen merged with
  | nil => rwa [List.append_nil]
  | cons interval l ih =>
    have hle := (List.pairwise_append.1 hsorted).2.2
    have hnext := h.step (hnonempty interval List.mem_cons_self) fun i hi =>
      hle i hi interval List.mem_cons_self
    have hsplit : seen ++ interval :: l = seen ++ [interval] ++ l := by simp
    rw [hsplit] at hsorted ⊢
    exact ih hnext (fun i hi => hnonempty i (List.mem_cons_of_mem _ hi)) hsorted

theorem startOrder_orders : Orders fun left right : Span ℤ => left.start - right.start where
  total a b := by omega
  trans a b c := by omega

/-- **Merging** covers the same instants, by intervals in the order of their starts. -/
theorem mergeIntervals_ok (intervals : List (Span ℤ)) :
    covered (mergeIntervals intervals) = covered intervals ∧
      (mergeIntervals intervals).Pairwise (fun i j => i.start ≤ j.start) ∧
      ∀ i ∈ mergeIntervals intervals, i.start < i.stop := by
  have hmem : ∀ i, i ∈ toSorted (fun left right : Span ℤ => left.start - right.start)
      (intervals.filter fun interval => interval.start < interval.stop) ↔
      i ∈ intervals ∧ i.start < i.stop := by
    intro i
    rw [mem_toSorted, List.mem_filter, decide_eq_true_eq]
  have hsorted := (startOrder_orders.pairwise_toSorted
    (intervals.filter fun interval => interval.start < interval.stop)).imp
    fun {i j : Span ℤ} (h : i.start - j.start ≤ 0) => (by omega : i.start ≤ j.start)
  have hempty : IsMerged [] [] := ⟨rfl, fun i hi => absurd hi List.not_mem_nil,
    List.Pairwise.nil, fun i hi => absurd hi List.not_mem_nil⟩
  have hmerged : IsMerged ([] ++ toSorted (fun left right : Span ℤ => left.start - right.start)
      (intervals.filter fun interval => interval.start < interval.stop))
      (mergeIntervals intervals) := hempty.foldl (fun i hi => ((hmem i).1 hi).2) hsorted
  refine ⟨hmerged.covers.trans ?_, hmerged.sorted, hmerged.nonempty⟩
  ext t
  rw [List.nil_append, mem_covered, mem_covered]
  constructor
  · rintro ⟨i, hi, ht⟩
    exact ⟨i, ((hmem i).1 hi).1, ht⟩
  · rintro ⟨i, hi, ht⟩
    exact ⟨i, (hmem i).2 ⟨hi, lt_of_le_of_lt ht.1 ht.2⟩, ht⟩

/-! ## Taking busy intervals out of a window -/

/-- One iteration of `subtractBusyFromWindow`: the free parts so far, and the cursor. -/
def subtractInterval (window : Span ℤ) (state : List (Span ℤ) × ℤ) (interval : Span ℤ) :
    List (Span ℤ) × ℤ :=
  let (free, cursor) := state
  if interval.stop ≤ cursor ∨ window.stop ≤ interval.start then state
  else (if cursor < interval.start then free ++ [⟨cursor, interval.start⟩] else free,
    min (max interval.stop cursor) window.stop)

def subtractBusyFromWindow (window : Span ℤ) (busy : List (Span ℤ)) : List (Span ℤ) :=
  let (free, cursor) := busy.foldl (subtractInterval window) ([], window.start)
  if cursor < window.stop then free ++ [⟨cursor, window.stop⟩] else free

/-- The loop has taken the intervals seen out of the window up to its cursor; none of them covers
an instant of the window from there on, and what is free lies before the start of one of them. -/
structure IsSubtracted (window : Span ℤ) (seen : List (Span ℤ))
    (state : List (Span ℤ) × ℤ) : Prop where
  start_le : window.start ≤ state.2
  le_stop : state.2 ≤ window.stop
  free : ∀ t, t ∈ covered state.1 ↔ window.start ≤ t ∧ t < state.2 ∧ t ∉ covered seen
  rest : ∀ t, state.2 ≤ t → t < window.stop → t ∉ covered seen
  before : ∀ t ∈ covered state.1, ∃ i ∈ seen, t < i.start

theorem IsSubtracted.step {window : Span ℤ} {seen : List (Span ℤ)}
    {state : List (Span ℤ) × ℤ} (h : IsSubtracted window seen state) {interval : Span ℤ}
    (hinterval : interval.start < interval.stop) (hle : ∀ i ∈ seen, i.start ≤ interval.start) :
    IsSubtracted window (seen ++ [interval]) (subtractInterval window state interval) := by
  obtain ⟨free, cursor⟩ := state
  have hstart : window.start ≤ cursor := h.start_le
  have hstop : cursor ≤ window.stop := h.le_stop
  have hseen : ∀ t, t ∈ covered (seen ++ [interval]) ↔
      t ∈ covered seen ∨ (interval.start ≤ t ∧ t < interval.stop) := by
    intro t
    rw [mem_covered_append, mem_covered_cons, or_iff_left not_mem_covered_nil, mem_points]
  -- what is free so far ends before the interval starts
  have hbefore : ∀ t ∈ covered free, t < interval.start := by
    intro t ht
    obtain ⟨i, hi, hlt⟩ := h.before t ht
    exact lt_of_lt_of_le hlt (hle i hi)
  unfold subtractInterval
  dsimp only
  split_ifs with hskip hgap
  · refine ⟨hstart, hstop, fun t => ?_, fun t hcursor hwindow => ?_, fun t ht => ?_⟩
    · constructor
      · intro ht
        have hlt := hbefore t ht
        obtain ⟨hfrom, hto, hfree⟩ := (h.free t).1 ht
        exact ⟨hfrom, hto, fun hin => ((hseen t).1 hin).elim hfree (by omega)⟩
      · rintro ⟨hfrom, hto, hfree⟩
        exact (h.free t).2 ⟨hfrom, hto, fun hin => hfree ((hseen t).2 (Or.inl hin))⟩
    · have hrest := h.rest t hcursor hwindow
      exact fun hin => ((hseen t).1 hin).elim hrest (by dsimp only at hcursor; omega)
    · obtain ⟨i, hi, hlt⟩ := h.before t ht
      exact ⟨i, List.mem_append_left _ hi, hlt⟩
  · have hnext : min (max interval.stop cursor) window.stop = min interval.stop window.stop := by
      omega
    rw [hnext]
    have hmem : ∀ t, t ∈ covered (free ++ [⟨cursor, interval.start⟩]) ↔
        t ∈ covered free ∨ (cursor ≤ t ∧ t < interval.start) := by
      intro t
      rw [mem_covered_append, mem_covered_cons, or_iff_left not_mem_covered_nil, mem_points]
    refine ⟨by dsimp only; omega, by dsimp only; omega, fun t => ?_, fun t hcursor hwindow => ?_,
      fun t ht => ?_⟩
    · dsimp only
      rw [hmem, hseen, h.free t]
      have hrest := h.rest t
      have hlt := fun ht => hbefore t ((h.free t).2 ht)
      dsimp only at hrest hlt ⊢
      constructor
      · rintro (⟨hfrom, hto, hfree⟩ | ⟨hfrom, hto⟩)
        · have hlt' := hlt ⟨hfrom, hto, hfree⟩
          exact ⟨hfrom, by omega, fun hin => hin.elim hfree (by omega)⟩
        · exact ⟨by omega, by omega, fun hin => hin.elim (hrest hfrom (by omega)) (by omega)⟩
      · rintro ⟨hfrom, hto, hfree⟩
        by_cases hcursor : t < cursor
        · exact Or.inl ⟨hfrom, hcursor, fun hin => hfree (Or.inl hin)⟩
        · refine Or.inr ⟨by omega, ?_⟩
          by_contra hlate
          exact hfree (Or.inr ⟨by omega, by omega⟩)
    · have hrest := h.rest t
      dsimp only at hrest hcursor
      exact fun hin => ((hseen t).1 hin).elim (hrest (by omega) hwindow) (by omega)
    · rcases (hmem t).1 ht with ht | ht
      · obtain ⟨i, hi, hlt⟩ := h.before t ht
        exact ⟨i, List.mem_append_left _ hi, hlt⟩
      · exact ⟨interval, by simp, ht.2⟩
  · have hnext : min (max interval.stop cursor) window.stop = min interval.stop window.stop := by
      omega
    rw [hnext]
    refine ⟨by dsimp only; omega, by dsimp only; omega, fun t => ?_, fun t hcursor hwindow => ?_,
      fun t ht => ?_⟩
    · dsimp only
      rw [hseen, h.free t]
      have hlt := fun ht => hbefore t ((h.free t).2 ht)
      dsimp only at hlt ⊢
      constructor
      · rintro ⟨hfrom, hto, hfree⟩
        have hlt' := hlt ⟨hfrom, hto, hfree⟩
        exact ⟨hfrom, by omega, fun hin => hin.elim hfree (by omega)⟩
      · rintro ⟨hfrom, hto, hfree⟩
        refine ⟨hfrom, ?_, fun hin => hfree (Or.inl hin)⟩
        by_contra hlate
        exact hfree (Or.inr ⟨by omega, by omega⟩)
    · have hrest := h.rest t
      dsimp only at hrest hcursor
      exact fun hin => ((hseen t).1 hin).elim (hrest (by omega) hwindow) (by omega)
    · obtain ⟨i, hi, hlt⟩ := h.before t ht
      exact ⟨i, List.mem_append_left _ hi, hlt⟩

/-- A run of the loop over busy intervals in the order of their starts. -/
theorem IsSubtracted.foldl {window : Span ℤ} {seen : List (Span ℤ)}
    {state : List (Span ℤ) × ℤ} (h : IsSubtracted window seen state) {l : List (Span ℤ)}
    (hnonempty : ∀ i ∈ l, i.start < i.stop)
    (hsorted : (seen ++ l).Pairwise fun i j => i.start ≤ j.start) :
    IsSubtracted window (seen ++ l) (l.foldl (subtractInterval window) state) := by
  induction l generalizing seen state with
  | nil => rwa [List.append_nil]
  | cons interval l ih =>
    have hle := (List.pairwise_append.1 hsorted).2.2
    have hnext := h.step (hnonempty interval List.mem_cons_self) fun i hi =>
      hle i hi interval List.mem_cons_self
    have hsplit : seen ++ interval :: l = seen ++ [interval] ++ l := by simp
    rw [hsplit] at hsorted ⊢
    exact ih hnext (fun i hi => hnonempty i (List.mem_cons_of_mem _ hi)) hsorted

/-- **What is left of a window** is what no busy interval covers. -/
theorem mem_covered_subtractBusyFromWindow {window : Span ℤ}
    (hwindow : window.start ≤ window.stop) {busy : List (Span ℤ)}
    (hsorted : busy.Pairwise fun i j => i.start ≤ j.start)
    (hnonempty : ∀ i ∈ busy, i.start < i.stop) {t : ℤ} :
    t ∈ covered (subtractBusyFromWindow window busy) ↔ t ∈ window.points ∧ t ∉ covered busy := by
  have hdone : IsSubtracted window busy (busy.foldl (subtractInterval window)
      ([], window.start)) := by
    have hstart : IsSubtracted window [] ([], window.start) := by
      refine ⟨le_refl _, hwindow, fun t => ?_, fun t _ _ => not_mem_covered_nil, fun t ht =>
        absurd ht not_mem_covered_nil⟩
      exact iff_of_false not_mem_covered_nil fun hin => by dsimp only at hin; omega
    exact hstart.foldl hnonempty hsorted
  rw [subtractBusyFromWindow]
  generalize busy.foldl (subtractInterval window) ([], window.start) = state at hdone
  obtain ⟨free, cursor⟩ := state
  have hfree := hdone.free t
  have hrest := hdone.rest t
  have hstart := hdone.start_le
  have hstop := hdone.le_stop
  dsimp only at hfree hrest hstart hstop ⊢
  split_ifs with hleft
  · rw [mem_covered_append, mem_covered_cons, or_iff_left not_mem_covered_nil, hfree, mem_points,
      mem_points]
    dsimp only
    constructor
    · rintro (⟨hfrom, hto, hno⟩ | ⟨hfrom, hto⟩)
      · exact ⟨⟨hfrom, by omega⟩, hno⟩
      · exact ⟨⟨by omega, hto⟩, hrest hfrom hto⟩
    · rintro ⟨⟨hfrom, hto⟩, hno⟩
      by_cases hcursor : t < cursor
      · exact Or.inl ⟨hfrom, hcursor, hno⟩
      · exact Or.inr ⟨by omega, hto⟩
  · rw [hfree, mem_points, and_assoc]
    refine and_congr_right fun _ => and_congr_left fun _ => ?_
    omega

/-! ## Windows -/

structure WorkingHours where
  startMinute : ℤ
  endMinute : ℤ
  days : Option (List ℤ) := none

/-- `Date.UTC` of the UTC date of a time: a year of two digits is one of the twentieth century. -/
def utcDateOf (time : ℤ) : ℤ :=
  let date := Date.civilFromDays (time / msPerDay)
  let year := if 0 ≤ date.year ∧ date.year ≤ 99 then 1900 + date.year else date.year
  Date.daysFromCivil { date with year } * msPerDay

/-- `Date.prototype.getUTCDay`, with Sunday as zero: the epoch was a Thursday. -/
def utcDay (time : ℤ) : ℤ := (time / msPerDay + 4) % 7

section Slots

variable (zones : Zones)

def buildLocalDayStarts (range : Span ℤ) (timeZone : String) : List ℤ :=
  let firstDay := utcDateOf (zones.instantToWallTime range.start timeZone)
  let lastDay := utcDateOf (zones.instantToWallTime range.stop timeZone)
  (List.range ((lastDay - firstDay) / msPerDay + 1).toNat).map fun day =>
    firstDay + day * msPerDay

def workingWindow (range : Span ℤ) (timeZone : String) (workingHours : WorkingHours)
    (dayStart : ℤ) : Except RangeError (Span ℤ) := do
  let stop ← wallTimeToInstant zones (dayStart + workingHours.endMinute * msPerMinute) timeZone
  let start ← wallTimeToInstant zones (dayStart + workingHours.startMinute * msPerMinute) timeZone
  pure ⟨max start range.start, min stop range.stop⟩

def buildCandidateWindows (range : Span ℤ) (timeZone : String)
    (workingHours : Option WorkingHours) : Except RangeError (List (Span ℤ)) :=
  match workingHours with
  | none => .ok [range]
  | some workingHours => do
    let windows ← ((buildLocalDayStarts zones range timeZone).filter fun dayStart =>
      workingHours.days.all fun days => days.contains (utcDay dayStart)).mapM
        (workingWindow zones range timeZone workingHours)
    pure (windows.filter fun window => window.start < window.stop)

def invalidTimeZoneMessage : String := "timezone must be an IANA timezone identifier"

def resolveRequestTimeZone (identifier : String) : Except ReadError String :=
  match resolveTimeZone zones (some identifier) with
  | .ok (some timeZone) => .ok timeZone
  | _ => .error (.validation invalidTimeZoneMessage)

structure FreeSlot where
  durationMinutes : ℤ
  start : String
  stop : String
  deriving DecidableEq

def toFreeSlot (interval : Span ℤ) : FreeSlot where
  durationMinutes := (interval.stop - interval.start) / msPerMinute
  start := Date.toISOString interval.start
  stop := Date.toISOString interval.stop

/-- `FreeTimeOptions`: the duration and the limit are numbers that are checked to be whole. -/
structure FreeTimeOptions where
  durationMinutes : ℚ
  timezone : String
  workingHours : Option WorkingHours := none
  limit : ℚ

def maxFreeSlots : ℚ := 200

def findFreeSlots (range : Span ℤ) (busyIntervals : List (Span ℤ)) (options : FreeTimeOptions) :
    Except ReadError (List FreeSlot) :=
  if ¬ (options.durationMinutes.isInt ∧ 0 < options.durationMinutes) then
    .error (.validation "durationMinutes must be a positive whole number of minutes")
  else if ¬ (options.limit.isInt ∧ 0 < options.limit ∧ options.limit ≤ maxFreeSlots) then
    .error (.validation "limit must be a whole number from 1 to 200")
  else do
    let timeZone ← resolveRequestTimeZone zones options.timezone
    let busy := mergeIntervals busyIntervals
    let minimumDurationMs := options.durationMinutes.num * msPerMinute
    let windows ← (buildCandidateWindows zones range timeZone options.workingHours).mapError .range
    let free := (windows.flatMap fun window => subtractBusyFromWindow window busy).filter fun slot =>
      minimumDurationMs ≤ slot.stop - slot.start
    pure (((toSorted (fun left right => left.start - right.start) free).take
      options.limit.num.toNat).map toFreeSlot)

variable {zones}

theorem buildCandidateWindows_ok {range : Span ℤ} (hrange : range.start < range.stop)
    {timeZone : String} {workingHours : Option WorkingHours} {windows : List (Span ℤ)}
    (h : buildCandidateWindows zones range timeZone workingHours = .ok windows)
    {window : Span ℤ} (hwindow : window ∈ windows) :
    range.start ≤ window.start ∧ window.start < window.stop ∧ window.stop ≤ range.stop := by
  cases workingHours with
  | none =>
    obtain rfl := Except.ok.inj h
    obtain rfl := List.mem_singleton.1 hwindow
    exact ⟨le_refl _, hrange, le_refl _⟩
  | some workingHours =>
    obtain ⟨all, hall, h⟩ := bind_eq_ok_iff.1 h
    obtain rfl := Except.ok.inj h
    obtain ⟨hmem, hnonempty⟩ := List.mem_filter.1 hwindow
    obtain ⟨hreturns, rfl⟩ := mapM_eq_ok_iff.1 hall
    obtain ⟨day, hday, hresult⟩ := List.mem_filterMap.1 hmem
    obtain ⟨window', hwindow'⟩ := hreturns day hday
    rw [hwindow'] at hresult
    obtain rfl := Option.some.inj hresult
    obtain ⟨stop, -, hwindow'⟩ := bind_eq_ok_iff.1 hwindow'
    obtain ⟨start, -, hwindow'⟩ := bind_eq_ok_iff.1 hwindow'
    obtain rfl := Except.ok.inj hwindow'
    exact ⟨le_max_right _ _, of_decide_eq_true hnonempty, min_le_right _ _⟩

/-- **A free slot** lies in the range, and no busy interval covers an instant of it. -/
theorem findFreeSlots_ok {range : Span ℤ} (hrange : range.start < range.stop)
    {busyIntervals : List (Span ℤ)} {options : FreeTimeOptions} {slots : List FreeSlot}
    (h : findFreeSlots zones range busyIntervals options = .ok slots) {slot : FreeSlot}
    (hslot : slot ∈ slots) :
    ∃ interval : Span ℤ, slot = toFreeSlot interval ∧
      ∀ t ∈ interval.points, t ∈ range.points ∧ t ∉ covered busyIntervals := by
  unfold findFreeSlots at h
  split_ifs at h
  obtain ⟨timeZone, -, h⟩ := bind_eq_ok_iff.1 h
  obtain ⟨windows, hwindows, h⟩ := bind_eq_ok_iff.1 h
  obtain rfl := Except.ok.inj h
  obtain ⟨interval, hinterval, rfl⟩ := List.mem_map.1 hslot
  obtain ⟨hfree, -⟩ := List.mem_filter.1 (mem_toSorted.1 (List.mem_of_mem_take hinterval))
  obtain ⟨window, hwindow, hfree⟩ := List.mem_flatMap.1 hfree
  have hin := buildCandidateWindows_ok hrange (mapError_eq_ok_iff.1 hwindows) hwindow
  obtain ⟨hcovers, hsorted, hnonempty⟩ := mergeIntervals_ok busyIntervals
  refine ⟨interval, rfl, fun t ht => ?_⟩
  obtain ⟨hpoint, hnot⟩ := (mem_covered_subtractBusyFromWindow hin.2.1.le hsorted hnonempty).1
    ⟨interval, hfree, ht⟩
  rw [hcovers] at hnot
  refine ⟨?_, hnot⟩
  rw [mem_points] at hpoint ⊢
  omega

end Slots

end Keeper
