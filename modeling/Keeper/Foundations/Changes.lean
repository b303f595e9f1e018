import Mathlib.Algebra.Order.Group.Int
import Mathlib.Data.Int.Order.Basic

/-!
# Changes of a function on the integers

A function changes where its value differs from the one before. Where it does not change it is constant; where it
changes at most once it has two values, the one before the change and the one from it on.

* `ChangesAtMostOnce.split`: the two values of a function that changes at most once.
-/

namespace Keeper

/-- The value of a function differs from the one before. -/
def ChangesAt {α : Type*} (f : ℤ → α) (c : ℤ) : Prop := f (c - 1) ≠ f c

/-- A function changes at most once after `lo` and up to `hi`. -/
def ChangesAtMostOnce {α : Type*} (f : ℤ → α) (lo hi : ℤ) : Prop :=
  ∀ c d, lo < c → c ≤ hi → ChangesAt f c → lo < d → d ≤ hi → ChangesAt f d → c = d

section Changes

variable {α : Type*} {f : ℤ → α} {lo hi : ℤ}

theorem eq_of_not_changesAt (hle : lo ≤ hi) (h : ∀ c, lo < c → c ≤ hi → ¬ ChangesAt f c) : f hi = f lo := by
  induction hi, hle using Int.leInduction with
  | base => rfl
  | succ n hn ih =>
    have hlast : f (n + 1 - 1) = f (n + 1) := not_not.1 (h (n + 1) (by omega) le_rfl)
    rw [add_sub_cancel_right] at hlast
    rw [← hlast]
    exact ih fun c hc hcn => h c hc (by omega)

theorem exists_changesAt (hle : lo ≤ hi) (h : f hi ≠ f lo) : ∃ c, lo < c ∧ c ≤ hi ∧ ChangesAt f c := by
  by_contra hnone
  exact h (eq_of_not_changesAt hle fun c hc hchi hchange => hnone ⟨c, hc, hchi, hchange⟩)

/-- **A function that changes at most once** keeps one value up to the change, and one from it on. -/
theorem ChangesAtMostOnce.split (h : ChangesAtMostOnce f lo hi) {c : ℤ} (hlo : lo < c) (hhi : c ≤ hi)
    (hc : ChangesAt f c) :
    (∀ x, lo ≤ x → x < c → f x = f lo) ∧ ∀ x, c ≤ x → x ≤ hi → f x = f hi := by
  refine ⟨fun x hx hxc => ?_, fun x hx hxhi => ?_⟩
  · refine eq_of_not_changesAt hx fun d hd hdx hchange => ?_
    have heq := h c d hlo hhi hc hd (by omega) hchange
    omega
  · refine (eq_of_not_changesAt hxhi fun d hd hdhi hchange => ?_).symm
    have heq := h c d hlo hhi hc (by omega) hdhi hchange
    omega

theorem ChangesAtMostOnce.ne (h : ChangesAtMostOnce f lo hi) {c : ℤ} (hlo : lo < c) (hhi : c ≤ hi)
    (hc : ChangesAt f c) : f lo ≠ f hi := by
  obtain ⟨hbefore, hafter⟩ := h.split hlo hhi hc
  rw [← hbefore (c - 1) (by omega) (by omega), ← hafter c le_rfl hhi]
  exact hc

/-- A function that changes at most once has one of the values at the ends. -/
theorem ChangesAtMostOnce.eq_or_eq (h : ChangesAtMostOnce f lo hi) {x : ℤ} (hlo : lo ≤ x) (hhi : x ≤ hi) :
    f x = f lo ∨ f x = f hi := by
  by_cases hx : f x = f lo
  · exact Or.inl hx
  · obtain ⟨c, hc, hcx, hchange⟩ := exists_changesAt hlo hx
    exact Or.inr ((h.split hc (hcx.trans hhi) hchange).2 x hcx hhi)

end Changes

end Keeper
