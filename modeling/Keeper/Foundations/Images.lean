import Mathlib.Data.Int.LeastGreatest
import Mathlib.Data.Set.Image

/-!
# Images of what is left of a set

* `image_diff_eq_iff`: an image of a difference against the difference from an image.
* `image_diff_eq_self_iff`: the same of a set of integers that a function moves forward.
-/

namespace Keeper

/-- **The image of what is left of a set** is what the image of the rest leaves of another set, if and only if the set
has the same image outside of that, and nothing that is left has an image in it. -/
theorem image_diff_eq_iff {α β : Type} {f : α → β} {s t : Set α} {r : Set β} :
    f '' (s \ t) = r \ f '' t ↔
      (∀ x ∈ s, x ∉ t → f x ∉ f '' t) ∧ ∀ y, y ∉ f '' t → (y ∈ f '' s ↔ y ∈ r) := by
  constructor
  · intro h
    refine ⟨fun x hx hxt => ?_, fun y hy => ?_⟩
    · have hmem : f x ∈ r \ f '' t := h ▸ ⟨x, ⟨hx, hxt⟩, rfl⟩
      exact hmem.2
    · constructor
      · rintro ⟨x, hx, rfl⟩
        have hmem : f x ∈ r \ f '' t := h ▸ ⟨x, ⟨hx, fun hxt => hy ⟨x, hxt, rfl⟩⟩, rfl⟩
        exact hmem.1
      · intro hr
        have hmem : y ∈ f '' (s \ t) := h ▸ ⟨hr, hy⟩
        obtain ⟨x, hx, rfl⟩ := hmem
        exact ⟨x, hx.1, rfl⟩
  · rintro ⟨hapart, hsame⟩
    ext y
    constructor
    · rintro ⟨x, ⟨hx, hxt⟩, rfl⟩
      have hy := hapart x hx hxt
      exact ⟨(hsame _ hy).1 ⟨x, hx, rfl⟩, hy⟩
    · rintro ⟨hr, hy⟩
      obtain ⟨x, hx, rfl⟩ := (hsame y hy).2 hr
      exact ⟨x, ⟨hx, fun hxt => hy ⟨x, hxt, rfl⟩⟩, rfl⟩

/-- **Where nothing is moved back** the image of what is left of a set is what the image of the rest leaves of the set,
if and only if nothing is moved. -/
theorem image_diff_eq_self_iff {f : ℤ → ℤ} {s t : Set ℤ} {lo : ℤ} (hlo : ∀ x ∈ s, lo ≤ x)
    (hforward : ∀ x ∈ s, x ≤ f x) (ht : t ⊆ s) : f '' (s \ t) = s \ f '' t ↔ ∀ x ∈ s, f x = x := by
  constructor
  · intro h
    by_contra hmoved
    push Not at hmoved
    -- the least element that is moved is no image
    obtain ⟨x, ⟨hx, hne⟩, hleast⟩ := Int.exists_least_of_bdd (P := fun x => x ∈ s ∧ f x ≠ x)
      ⟨lo, fun x hx => hlo x hx.1⟩ hmoved
    have hno : ∀ y ∈ s, f y ≠ x := by
      rintro y hy rfl
      by_cases hfix : f y = y
      · rw [hfix] at hne
        exact hne hfix
      · have hle := hleast y ⟨hy, hfix⟩
        have hge := hforward y hy
        exact hfix (le_antisymm hle hge)
    have hmem : x ∈ f '' (s \ t) := h ▸ ⟨hx, fun ⟨y, hy, hyx⟩ => hno y (ht hy) hyx⟩
    obtain ⟨y, hy, hyx⟩ := hmem
    exact hno y hy.1 hyx
  · intro hfix
    have himage : ∀ u ⊆ s, f '' u = u := fun u hu => by
      rw [Set.image_congr fun x hx => hfix x (hu hx), Set.image_id']
    rw [himage _ Set.sdiff_subset, himage t ht]

end Keeper
