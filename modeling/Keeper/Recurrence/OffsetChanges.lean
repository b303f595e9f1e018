import Keeper.Foundations.Changes
import Keeper.Recurrence.TimeZones
import Mathlib.Algebra.Order.Floor.Ring
import Mathlib.Data.Rat.Floor
import Mathlib.Order.Bounds.Basic

/-!
# Where the offset of a time zone changes

`ics/utils/timezone-instant.ts` probes the offset of a zone a day before a wall time and a day after it, and
samples it daily to find its transitions.

* `wallTimeToInstantWith_isInstantOf`: the instant of a wall time, where the offset changes at most once around it.
* `findTimeZoneTransitions_isExact`: the transitions of a window, where the offset changes at most once between two
  samples.
-/

namespace Keeper

/-! ## The instant of a wall time -/

/-- `offsetMillisecondsAt`, of a function that gives the offset in minutes. -/
def millisecondsOf (offsetAt : ℤ → ℚ) (instant : ℤ) : ℤ := ⌊offsetAt instant * 60000 + 1 / 2⌋

/-- **The instant of a wall time**: the earliest one that shows it, or the one by the offset in force before the
change that skips it. -/
def IsInstantOf (offset : ℤ → ℤ) (wallTime instant : ℤ) : Prop :=
  IsLeast {t | t + offset t = wallTime} instant ∨
    (∀ t, t + offset t ≠ wallTime) ∧
      ∃ c, wallTime - msPerDay < c ∧ c ≤ wallTime + msPerDay ∧ ChangesAt offset c ∧
        instant = wallTime - offset (c - 1)

section WallTimes

variable {offset : ℤ → ℤ} {wallTime : ℤ}

theorem millisecondsOf_bounds {offsetAt : ℤ → ℚ} (h : ∀ t, |offsetAt t| < 24 * 60) (t : ℤ) :
    -msPerDay ≤ millisecondsOf offsetAt t ∧ millisecondsOf offsetAt t ≤ msPerDay := by
  obtain ⟨hlo, hhi⟩ := abs_lt.1 (h t)
  have hday : msPerDay = 86400000 := rfl
  unfold millisecondsOf
  rw [hday]
  constructor
  · rw [Int.le_floor]
    push_cast
    linarith
  · rw [← Int.lt_add_one_iff, Int.floor_lt]
    push_cast
    linarith

/-- Every instant that shows a wall time is off by one of the offsets that are probed. -/
theorem eq_of_shows (hbound : ∀ t, -msPerDay ≤ offset t ∧ offset t ≤ msPerDay)
    (honce : ChangesAtMostOnce offset (wallTime - msPerDay) (wallTime + msPerDay)) {t : ℤ}
    (ht : t + offset t = wallTime) :
    t = wallTime - offset (wallTime - msPerDay) ∨ t = wallTime - offset (wallTime + msPerDay) := by
  have ht' := hbound t
  rcases honce.eq_or_eq (x := t) (by omega) (by omega) with h | h
  · exact Or.inl (by omega)
  · exact Or.inr (by omega)

/-- A wall time of which no candidate shows is skipped by a change to a greater offset. -/
theorem lt_of_not_shows (hbound : ∀ t, -msPerDay ≤ offset t ∧ offset t ≤ msPerDay)
    (honce : ChangesAtMostOnce offset (wallTime - msPerDay) (wallTime + msPerDay))
    (hne : offset (wallTime - msPerDay) ≠ offset (wallTime + msPerDay))
    (hbefore : offset (wallTime - offset (wallTime - msPerDay)) ≠ offset (wallTime - msPerDay))
    (hafter : offset (wallTime - offset (wallTime + msPerDay)) ≠ offset (wallTime + msPerDay)) :
    offset (wallTime - msPerDay) < offset (wallTime + msPerDay) ∧
      ∃ c, wallTime - msPerDay < c ∧ c ≤ wallTime + msPerDay ∧ ChangesAt offset c ∧
        offset (c - 1) = offset (wallTime - msPerDay) := by
  have hboundBefore := hbound (wallTime - msPerDay)
  have hboundAfter := hbound (wallTime + msPerDay)
  obtain ⟨c, hc, hc', hchange⟩ := exists_changesAt (by omega) hne.symm
  obtain ⟨hfirst, hsecond⟩ := honce.split hc hc' hchange
  -- The candidate of the offset before lies past the change, the one of the offset after lies before it.
  have hpast : c ≤ wallTime - offset (wallTime - msPerDay) := by
    by_contra hlt
    exact hbefore (hfirst _ (by omega) (by omega))
  have hshort : wallTime - offset (wallTime + msPerDay) < c := by
    by_contra hle
    exact hafter (hsecond _ (by omega) (by omega))
  exact ⟨by omega, c, hc, hc', hchange, hfirst _ (by omega) (by omega)⟩

/-- **Every wall time is resolved** where the offset changes at most once around it. -/
theorem wallTimeToInstantWith_resolves (hbound : ∀ t, -msPerDay ≤ offset t ∧ offset t ≤ msPerDay)
    (honce : ChangesAtMostOnce offset (wallTime - msPerDay) (wallTime + msPerDay)) :
    ∃ instant, wallTimeToInstantWith wallTime offset = .ok instant ∧ IsInstantOf offset wallTime instant := by
  have hboundBefore := hbound (wallTime - msPerDay)
  unfold wallTimeToInstantWith earliestMatchingInstant probeWindowMs
  dsimp only
  split_ifs with heq hforward
  · refine ⟨_, rfl, Or.inl ⟨?_, fun t ht => ?_⟩⟩
    · -- The offset does not change around the wall time, and so the only candidate shows it.
      have hconst : offset (wallTime - offset (wallTime - msPerDay)) = offset (wallTime - msPerDay) ∨
          offset (wallTime - offset (wallTime - msPerDay)) = offset (wallTime + msPerDay) :=
        honce.eq_or_eq (by omega) (by omega)
      rw [← heq, or_self] at hconst
      change wallTime - _ + offset (wallTime - _) = wallTime
      rw [hconst, sub_add_cancel]
    · rcases eq_of_shows hbound honce ht with h | h
      · exact h.ge
      · rw [← heq] at h
        exact h.ge
  all_goals
    cases hmin : ((List.map (wallTime - ·) [offset (wallTime - msPerDay), offset (wallTime + msPerDay)]).filter
        fun instant => offset instant = wallTime - instant).min? with
    | some earliest =>
      refine ⟨earliest, rfl, Or.inl ⟨?_, fun t ht => ?_⟩⟩
      · have hmem := (List.mem_filter.1 (List.min?_mem hmin)).2
        rw [decide_eq_true_eq] at hmem
        change earliest + offset earliest = wallTime
        rw [hmem]
        ring
      · refine (List.min?_eq_some_iff.1 hmin).2 t (List.mem_filter.2 ⟨?_, ?_⟩)
        · rcases eq_of_shows hbound honce ht with h | h <;> simp [h]
        · have hshows : t + offset t = wallTime := ht
          rw [decide_eq_true_eq, ← hshows]
          ring
    | none =>
      have hnone : ∀ candidate, candidate ∈ [offset (wallTime - msPerDay), offset (wallTime + msPerDay)] →
          offset (wallTime - candidate) ≠ candidate := by
        intro candidate hcandidate hshows
        rw [List.min?_eq_none_iff, List.filter_eq_nil_iff] at hmin
        refine hmin (wallTime - candidate) (List.mem_map_of_mem hcandidate) ?_
        rw [decide_eq_true_eq, hshows]
        ring
      obtain ⟨hlt, c, hc, hc', hchange, hin⟩ :=
        lt_of_not_shows hbound honce heq (hnone _ (by simp)) (hnone _ (by simp))
      first
      | exact absurd hlt hforward
      | refine ⟨_, rfl, Or.inr ⟨fun t ht => ?_, c, hc, hc', hchange, by rw [hin]⟩⟩
        rcases eq_of_shows hbound honce ht with rfl | rfl
        · exact hnone (offset (wallTime - msPerDay)) (by simp) (by omega)
        · exact hnone (offset (wallTime + msPerDay)) (by simp) (by omega)

end WallTimes

/-! ## The transitions of a window -/

structure TimeZoneTransition where
  instant : ℤ
  offsetFromMinutes : ℤ
  offsetToMinutes : ℤ
  deriving DecidableEq

section Transitions

variable (zones : Zones) (timeZone : String)

/-- `getTimeZoneOffsetMinutes`: the whole minutes nearest to the offset. -/
def getTimeZoneOffsetMinutes (instant : ℤ) : ℤ := (offsetMillisecondsAt zones timeZone instant + 30000) / 60000

def findTransitionInstant (offsetFromMinutes lower upper : ℤ) : ℤ :=
  if 1 < upper - lower then
    if getTimeZoneOffsetMinutes zones timeZone ((lower + upper) / 2) = offsetFromMinutes then
      findTransitionInstant offsetFromMinutes ((lower + upper) / 2) upper
    else findTransitionInstant offsetFromMinutes lower ((lower + upper) / 2)
  else upper
termination_by (upper - lower).toNat

/-- The transition of one step of `findTimeZoneTransitions`, if there is one. -/
def findTransition (previousSample previousOffset sample : ℤ) : List TimeZoneTransition :=
  if getTimeZoneOffsetMinutes zones timeZone sample ≠ previousOffset then
    [{ instant := findTransitionInstant zones timeZone previousOffset previousSample sample
       offsetFromMinutes := previousOffset
       offsetToMinutes := getTimeZoneOffsetMinutes zones timeZone sample }]
  else []

/-- The loop of `findTimeZoneTransitions`. -/
def findTransitionsFrom (windowEnd previousSample previousOffset sample : ℤ) : List TimeZoneTransition :=
  if _hinside : sample < windowEnd then
    findTransition zones timeZone previousSample previousOffset sample ++
      findTransitionsFrom windowEnd sample (getTimeZoneOffsetMinutes zones timeZone sample)
        (min (sample + msPerDay) windowEnd)
  else if sample = windowEnd then findTransition zones timeZone previousSample previousOffset sample
  else []
termination_by (windowEnd - sample).toNat
decreasing_by
  have hday : msPerDay = 86400000 := rfl
  omega

def findTimeZoneTransitions (start windowEnd : JsDate) : Except RangeError (List TimeZoneTransition) :=
  match start, windowEnd with
  | some start, some windowEnd =>
    if windowEnd ≤ start then .error "Timezone transition discovery requires a valid, non-empty window"
    else
      .ok (findTransitionsFrom zones timeZone windowEnd start (getTimeZoneOffsetMinutes zones timeZone start)
        (min (start + msPerDay) windowEnd))
  | _, _ => .error "Timezone transition discovery requires a valid, non-empty window"

end Transitions

/-- **The transitions of an offset** after `lo` and up to `hi`, in order. -/
structure AreTransitions (offset : ℤ → ℤ) (lo hi : ℤ) (transitions : List TimeZoneTransition) : Prop where
  increasing : transitions.Pairwise (·.instant < ·.instant)
  mem_iff : ∀ transition, transition ∈ transitions ↔
    lo < transition.instant ∧ transition.instant ≤ hi ∧ ChangesAt offset transition.instant ∧
      transition.offsetFromMinutes = offset (transition.instant - 1) ∧
      transition.offsetToMinutes = offset transition.instant

section Transitions

variable {zones : Zones} {timeZone : String} {offset : ℤ → ℤ} {lo mid hi : ℤ}

theorem AreTransitions.append {transitions transitions' : List TimeZoneTransition}
    (h : AreTransitions offset lo mid transitions) (h' : AreTransitions offset mid hi transitions')
    (hlo : lo ≤ mid) (hhi : mid ≤ hi) : AreTransitions offset lo hi (transitions ++ transitions') where
  increasing := by
    refine List.pairwise_append.2 ⟨h.increasing, h'.increasing, fun first hfirst second hsecond => ?_⟩
    have hle := ((h.mem_iff first).1 hfirst).2.1
    have hlt := ((h'.mem_iff second).1 hsecond).1
    omega
  mem_iff transition := by
    rw [List.mem_append, h.mem_iff, h'.mem_iff]
    constructor
    · rintro (⟨hlo', hhi', hrest⟩ | ⟨hlo', hhi', hrest⟩)
      · exact ⟨hlo', by omega, hrest⟩
      · exact ⟨by omega, hhi', hrest⟩
    · rintro ⟨hlo', hhi', hrest⟩
      by_cases hmid : transition.instant ≤ mid
      · exact Or.inl ⟨hlo', hmid, hrest⟩
      · exact Or.inr ⟨by omega, hhi', hrest⟩

/-- **The bisection** ends at an instant that leaves the offset it starts from. -/
theorem findTransitionInstant_spec {offsetFrom lower upper : ℤ} (hlt : lower < upper)
    (hlower : getTimeZoneOffsetMinutes zones timeZone lower = offsetFrom)
    (hupper : getTimeZoneOffsetMinutes zones timeZone upper ≠ offsetFrom) :
    lower < findTransitionInstant zones timeZone offsetFrom lower upper ∧
      findTransitionInstant zones timeZone offsetFrom lower upper ≤ upper ∧
      getTimeZoneOffsetMinutes zones timeZone
        (findTransitionInstant zones timeZone offsetFrom lower upper - 1) = offsetFrom ∧
      getTimeZoneOffsetMinutes zones timeZone
        (findTransitionInstant zones timeZone offsetFrom lower upper) ≠ offsetFrom := by
  fun_induction findTransitionInstant zones timeZone offsetFrom lower upper with
  | case1 lower upper hwide hmid ih =>
    obtain ⟨hlo, hhi, hbefore, hafter⟩ := ih (by omega) hmid hupper
    exact ⟨by omega, hhi, hbefore, hafter⟩
  | case2 lower upper hwide hmid ih =>
    obtain ⟨hlo, hhi, hbefore, hafter⟩ := ih (by omega) hlower hmid
    exact ⟨hlo, by omega, hbefore, hafter⟩
  | case3 lower upper hnarrow =>
    refine ⟨hlt, le_rfl, ?_, hupper⟩
    rw [show upper - 1 = lower by omega]
    exact hlower

/-- **One step** finds the transition between two samples. -/
theorem areTransitions_findTransition {previousSample sample : ℤ} (hlt : previousSample < sample)
    (honce : ChangesAtMostOnce (getTimeZoneOffsetMinutes zones timeZone) previousSample sample) :
    AreTransitions (getTimeZoneOffsetMinutes zones timeZone) previousSample sample
      (findTransition zones timeZone previousSample (getTimeZoneOffsetMinutes zones timeZone previousSample)
        sample) := by
  unfold findTransition
  split_ifs with hne
  · obtain ⟨hlo, hhi, hbefore, hafter⟩ := findTransitionInstant_spec hlt rfl hne
    generalize findTransitionInstant zones timeZone (getTimeZoneOffsetMinutes zones timeZone previousSample)
      previousSample sample = instant at hlo hhi hbefore hafter ⊢
    have hchange : ChangesAt (getTimeZoneOffsetMinutes zones timeZone) instant :=
      fun heq => hafter (heq.symm.trans hbefore)
    have hto := (honce.split hlo hhi hchange).2 instant le_rfl hhi
    refine ⟨List.pairwise_singleton _ _, fun transition => ?_⟩
    rw [List.mem_singleton]
    constructor
    · rintro rfl
      exact ⟨hlo, hhi, hchange, hbefore.symm, hto.symm⟩
    · rintro ⟨hlo', hhi', hchange', hfrom, hto'⟩
      have heq := honce transition.instant instant hlo' hhi' hchange' hlo hhi hchange
      rw [heq] at hfrom hto'
      cases transition
      simp only at heq hfrom hto'
      simp only [TimeZoneTransition.mk.injEq]
      exact ⟨heq, hfrom.trans hbefore, hto'.trans hto⟩
  · refine ⟨List.Pairwise.nil, fun transition => ?_⟩
    simp only [List.not_mem_nil, false_iff]
    rintro ⟨hlo, hhi, hchange, -⟩
    exact honce.ne hlo hhi hchange (not_not.1 hne).symm

/-- **The scan** finds the transitions from a sample on. -/
theorem areTransitions_findTransitionsFrom {windowEnd previousSample sample : ℤ} (hlt : previousSample < windowEnd)
    (hsample : sample = min (previousSample + msPerDay) windowEnd)
    (honce : ∀ k : ℕ, ChangesAtMostOnce (getTimeZoneOffsetMinutes zones timeZone)
      (previousSample + k * msPerDay) (min (previousSample + (k + 1) * msPerDay) windowEnd)) :
    AreTransitions (getTimeZoneOffsetMinutes zones timeZone) previousSample windowEnd
      (findTransitionsFrom zones timeZone windowEnd previousSample
        (getTimeZoneOffsetMinutes zones timeZone previousSample) sample) := by
  have hday : msPerDay = 86400000 := rfl
  have hstep : AreTransitions (getTimeZoneOffsetMinutes zones timeZone) previousSample sample
      (findTransition zones timeZone previousSample (getTimeZoneOffsetMinutes zones timeZone previousSample)
        sample) := by
    refine areTransitions_findTransition (by omega) ?_
    have hfirst := honce 0
    rw [Nat.cast_zero, zero_mul, add_zero, zero_add, one_mul, ← hsample] at hfirst
    exact hfirst
  rw [findTransitionsFrom]
  split_ifs with hinside hend
  · refine hstep.append ?_ (by omega) hinside.le
    have hnext : sample = previousSample + msPerDay := by omega
    refine areTransitions_findTransitionsFrom hinside rfl fun k => ?_
    have hshift := honce (k + 1)
    have hlo : previousSample + ((k + 1 : ℕ) : ℤ) * msPerDay = sample + k * msPerDay := by
      rw [hnext]
      push_cast
      ring
    have hhi : previousSample + (((k + 1 : ℕ) : ℤ) + 1) * msPerDay = sample + (k + 1) * msPerDay := by
      rw [hnext]
      push_cast
      ring
    rwa [hlo, hhi] at hshift
  · exact hend ▸ hstep
  · omega
termination_by (windowEnd - sample).toNat
decreasing_by
  have hday : msPerDay = 86400000 := rfl
  omega

end Transitions

/-! ## Results -/

/-- **Wall times resolve to the first instant that shows them**, where the offset changes at most once around
them. -/
theorem wallTimeToInstantWith_isInstantOf {offsetAt : ℤ → ℚ} {wallTime : ℤ}
    (hbound : ∀ t, |offsetAt t| < 24 * 60)
    (honce : ChangesAtMostOnce (millisecondsOf offsetAt) (wallTime - msPerDay) (wallTime + msPerDay)) :
    ∃ instant, wallTimeToInstantWith wallTime (millisecondsOf offsetAt) = .ok instant ∧
      IsInstantOf (millisecondsOf offsetAt) wallTime instant :=
  wallTimeToInstantWith_resolves (millisecondsOf_bounds hbound) honce

/-- A clock that is advanced by an hour at the start of the epoch. -/
def advancedClock (t : ℤ) : ℚ := if t < 0 then 0 else 60

theorem millisecondsOf_advancedClock (t : ℤ) :
    millisecondsOf advancedClock t = if t < 0 then 0 else 3600000 := by
  unfold millisecondsOf advancedClock
  split_ifs <;> norm_num [Int.floor_eq_iff]

/-- A wall time that the clock skips. -/
theorem wallTimeToInstantWith_isInstantOf_advancedClock :
    ∃ instant, wallTimeToInstantWith 1800000 (millisecondsOf advancedClock) = .ok instant ∧
      IsInstantOf (millisecondsOf advancedClock) 1800000 instant := by
  refine wallTimeToInstantWith_isInstantOf (fun t => ?_) fun c d _ _ hc _ _ hd => ?_
  · unfold advancedClock
    split_ifs <;> norm_num
  · have hzero : ∀ c, ChangesAt (millisecondsOf advancedClock) c → c = 0 := by
      intro c hc
      unfold ChangesAt at hc
      rw [millisecondsOf_advancedClock, millisecondsOf_advancedClock] at hc
      split_ifs at hc <;> omega
    rw [hzero c hc, hzero d hd]

/-- **The transitions of a window are found exactly**, where the offset changes at most once between two
samples. -/
theorem findTimeZoneTransitions_isExact {zones : Zones} {timeZone : String} {start windowEnd : ℤ}
    (hwindow : start < windowEnd)
    (honce : ∀ k : ℕ, ChangesAtMostOnce (getTimeZoneOffsetMinutes zones timeZone)
      (min (start + k * msPerDay) windowEnd) (min (start + (k + 1) * msPerDay) windowEnd)) :
    ∃ transitions, findTimeZoneTransitions zones timeZone (some start) (some windowEnd) = .ok transitions ∧
      AreTransitions (getTimeZoneOffsetMinutes zones timeZone) start windowEnd transitions := by
  refine ⟨_, if_neg (not_le.2 hwindow), areTransitions_findTransitionsFrom hwindow rfl fun k => ?_⟩
  exact fun c d hc hc' hcc hd hd' hdd => honce k c d (by omega) hc' hcc (by omega) hd' hdd

/-- A zone whose clock is advanced by an hour at the start of the epoch. -/
def advancedZone : Zones where
  identify := id
  supports _ := true
  instantToWallTime instant _ := if instant < 0 then instant else instant + 3600000

theorem findTimeZoneTransitions_isExact_advancedZone :
    ∃ transitions, findTimeZoneTransitions advancedZone "zone" (some (-100)) (some 100000000) = .ok transitions ∧
      AreTransitions (getTimeZoneOffsetMinutes advancedZone "zone") (-100) 100000000 transitions := by
  refine findTimeZoneTransitions_isExact (by decide) fun k c d _ _ hc _ _ hd => ?_
  have hzero : ∀ c, ChangesAt (getTimeZoneOffsetMinutes advancedZone "zone") c → c = 0 := by
    intro c hc
    unfold ChangesAt at hc
    simp only [getTimeZoneOffsetMinutes, offsetMillisecondsAt, advancedZone] at hc
    split_ifs at hc <;> omega
  rw [hzero c hc, hzero d hd]

end Keeper
