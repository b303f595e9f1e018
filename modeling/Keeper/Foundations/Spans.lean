import Mathlib.Order.Interval.Set.Basic
import Mathlib.Data.List.Pairwise
import Mathlib.Order.MinMax

/-!
# Half-open intervals

Intervals of a linear order that hold their start and not their end, and the points that a list of
them covers. An interval whose end is not after its start holds no point.

* `covered_cons`: what a list covers.
* `Span.meets_iff`: two intervals share a point where each starts before the other ends.
* `Span.Apart.mem_iff`: intervals apart from one another are the maximal ones of what they cover.
-/

namespace Keeper

/-- An interval from its start up to, and without, its end. -/
structure Span (α : Type*) where
  start : α
  stop : α
  deriving DecidableEq

namespace Span

variable {α : Type*}

def points [Preorder α] (i : Span α) : Set α := Set.Ico i.start i.stop

@[simp] theorem mem_points [Preorder α] {i : Span α} {t : α} :
    t ∈ i.points ↔ i.start ≤ t ∧ t < i.stop := Iff.rfl

def covered [Preorder α] (l : List (Span α)) : Set α := fun t => ∃ i ∈ l, t ∈ i.points

theorem mem_covered [Preorder α] {l : List (Span α)} {t : α} :
    t ∈ covered l ↔ ∃ i ∈ l, t ∈ i.points := Iff.rfl

@[simp] theorem not_mem_covered_nil [Preorder α] {t : α} : t ∉ covered ([] : List (Span α)) := by
  rintro ⟨i, hi, -⟩
  cases hi

theorem mem_covered_cons [Preorder α] {i : Span α} {l : List (Span α)} {t : α} :
    t ∈ covered (i :: l) ↔ t ∈ i.points ∨ t ∈ covered l := by
  simp only [mem_covered, List.mem_cons, exists_eq_or_imp]

theorem mem_covered_append [Preorder α] {l l' : List (Span α)} {t : α} :
    t ∈ covered (l ++ l') ↔ t ∈ covered l ∨ t ∈ covered l' := by
  simp only [mem_covered, List.mem_append, or_and_right, exists_or]

/-- Two intervals share a point. -/
def Meets [Preorder α] (i j : Span α) : Prop := ∃ t, t ∈ i.points ∧ t ∈ j.points

theorem meets_iff [LinearOrder α] {i j : Span α} :
    i.Meets j ↔ max i.start j.start < min i.stop j.stop := by
  constructor
  · rintro ⟨t, ⟨hi, hi'⟩, hj, hj'⟩
    exact lt_of_le_of_lt (max_le hi hj) (lt_min hi' hj')
  · intro h
    obtain ⟨hmin, hmin'⟩ := lt_min_iff.1 h
    exact ⟨_, ⟨le_max_left _ _, hmin⟩, le_max_right _ _, hmin'⟩

theorem Meets.symm [Preorder α] {i j : Span α} (h : i.Meets j) : j.Meets i := by
  obtain ⟨t, hi, hj⟩ := h
  exact ⟨t, hj, hi⟩

/-! ## Maximal intervals -/

/-- Intervals with points, each of which ends before the next one starts. -/
structure Apart [Preorder α] (l : List (Span α)) : Prop where
  nonempty : ∀ i ∈ l, i.start < i.stop
  separated : l.Pairwise fun i j => i.stop < j.start

/-- An interval of points of a set that no other one extends. -/
structure IsMaximalIn [Preorder α] (i : Span α) (s : Set α) : Prop where
  nonempty : i.start < i.stop
  subset : i.points ⊆ s
  maximal : ∀ j : Span α, j.start ≤ i.start → i.stop ≤ j.stop → j.points ⊆ s → j = i

section Apart
variable [LinearOrder α] {l : List (Span α)} {i j : Span α}

theorem Apart.eq_of_mem (h : Apart l) (hi : i ∈ l) (hj : j ∈ l) {t : α} (hti : i.start ≤ t ∧ t ≤ i.stop)
    (htj : j.start ≤ t ∧ t ≤ j.stop) : i = j := by
  by_contra hne
  have hapart : l.Pairwise fun i j => i.stop < j.start ∨ j.stop < i.start := h.separated.imp Or.inl
  have : Std.Symm fun i j : Span α => i.stop < j.start ∨ j.stop < i.start := ⟨fun _ _ => Or.symm⟩
  rcases hapart.forall hi hj hne with hlt | hlt
  · exact absurd (htj.1.trans hti.2) (not_le.2 hlt)
  · exact absurd (hti.1.trans htj.2) (not_le.2 hlt)

theorem Apart.exists_of_subset (h : Apart l) (hj : j.start < j.stop) (hsub : j.points ⊆ covered l) :
    ∃ k ∈ l, k.start ≤ j.start ∧ j.stop ≤ k.stop := by
  obtain ⟨k, hk, hstart, hstop⟩ := hsub ⟨le_rfl, hj⟩
  refine ⟨k, hk, hstart, ?_⟩
  by_contra hshort
  obtain ⟨k', hk', hstart', hstop'⟩ := hsub ⟨hstop.le, not_le.1 hshort⟩
  obtain rfl := h.eq_of_mem hk hk' (t := k.stop) ⟨(h.nonempty k hk).le, le_rfl⟩ ⟨hstart', hstop'.le⟩
  exact lt_irrefl _ hstop'

/-- **Intervals apart from one another** are the maximal ones of what they cover. -/
theorem Apart.mem_iff (h : Apart l) : i ∈ l ↔ i.IsMaximalIn (covered l) := by
  constructor
  · intro hi
    have hlt := h.nonempty i hi
    refine ⟨hlt, fun t ht => ⟨i, hi, ht⟩, fun j hstart hstop hsub => ?_⟩
    obtain ⟨k, hk, hkstart, hkstop⟩ := h.exists_of_subset (hstart.trans_lt (hlt.trans_le hstop)) hsub
    obtain rfl := h.eq_of_mem hi hk (t := i.start) ⟨le_rfl, hlt.le⟩
      ⟨hkstart.trans hstart, (hlt.le.trans hstop).trans hkstop⟩
    obtain ⟨start, stop⟩ := j
    exact congrArg₂ Span.mk (le_antisymm hstart hkstart) (le_antisymm hkstop hstop)
  · rintro ⟨hlt, hsub, hmax⟩
    obtain ⟨k, hk, hstart, hstop⟩ := h.exists_of_subset hlt hsub
    obtain rfl := hmax k hstart hstop fun t ht => ⟨k, hk, ht⟩
    exact hk

end Apart

end Span

end Keeper
