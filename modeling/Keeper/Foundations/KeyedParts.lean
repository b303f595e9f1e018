import Mathlib.Data.List.Perm.Basic
import Mathlib.Data.List.Count

/-!
# Lists of keyed parts

A list put together of parts, where each element names the key of its part.

* `flatMap_perm_iff`: two such lists have the same elements exactly when they have each part that is not empty
  equally often.
* `filterMap_perm_of_keys`: lists with the same keys give the same values.
-/

namespace Keeper

namespace KeyedParts

variable {κ β : Type*} [DecidableEq κ] {key : β → κ} {part : κ → List β}

theorem length_filter_flatMap (hkey : ∀ k, ∀ b ∈ part k, key b = k) (k : κ) (l : List κ) :
    ((l.flatMap part).filter (key · = k)).length = l.count k * (part k).length := by
  induction l with
  | nil => simp
  | cons k' l ih =>
    rw [List.flatMap_cons, List.filter_append, List.length_append, ih, List.count_cons]
    by_cases heq : k' = k
    · subst heq
      have hall : (part k').filter (key · = k') = part k' :=
        List.filter_eq_self.2 fun b hb => decide_eq_true (hkey k' b hb)
      rw [hall, if_pos (beq_self_eq_true k'), Nat.add_mul, Nat.one_mul, Nat.add_comm]
    · have hnone : (part k').filter (key · = k) = [] :=
        List.filter_eq_nil_iff.2 fun b hb hb' => heq ((hkey k' b hb).symm.trans (of_decide_eq_true hb'))
      rw [hnone, if_neg (by simpa using heq), List.length_nil, Nat.zero_add, Nat.add_zero]

omit [DecidableEq κ] in
theorem flatMap_filter_ne_nil (part : κ → List β) (l : List κ) :
    (l.filter fun k => !(part k).isEmpty).flatMap part = l.flatMap part := by
  induction l with
  | nil => rfl
  | cons k l ih =>
    rw [List.filter_cons]
    cases hpart : part k with
    | nil => simp [hpart, ih]
    | cons b bs => simp [hpart, ih]

/-- **Lists of the same parts**: each part that is not empty stands in both equally often. -/
theorem flatMap_perm_iff (hkey : ∀ k, ∀ b ∈ part k, key b = k) {l l' : List κ} :
    (l.flatMap part).Perm (l'.flatMap part) ↔ ∀ k, part k ≠ [] → l.count k = l'.count k := by
  constructor
  · intro hperm k hk
    have hlength := (hperm.filter (key · = k)).length_eq
    rw [length_filter_flatMap hkey, length_filter_flatMap hkey] at hlength
    exact Nat.eq_of_mul_eq_mul_right (List.length_pos_of_ne_nil hk) hlength
  · intro hcount
    rw [← flatMap_filter_ne_nil part l, ← flatMap_filter_ne_nil part l']
    refine List.Perm.flatMap_right part (List.perm_iff_count.2 fun k => ?_)
    cases hempty : (part k).isEmpty with
    | true =>
      have hnot : ∀ l : List κ, (l.filter fun k => !(part k).isEmpty).count k = 0 := fun l =>
        List.count_eq_zero.2 fun hmem => by simp [hempty] at hmem
      rw [hnot l, hnot l']
    | false =>
      have hk : part k ≠ [] := fun h => by simp [h] at hempty
      rw [List.count_filter (by simp [hempty]), List.count_filter (by simp [hempty]), hcount k hk]

omit [DecidableEq κ] in
/-- **Lists with the same keys** give the same values, where an element's value depends on its key. -/
theorem filterMap_perm_of_keys {α γ : Type*} {k : α → Option κ} {k' : β → κ} {f : α → Option γ}
    {g : β → Option γ} {l : List α} {l' : List β} (h : (l.filterMap k).Perm (l'.map k'))
    (hagree : ∀ a ∈ l, ∀ b ∈ l', k a = some (k' b) → f a = g b)
    (hnone : ∀ a ∈ l, k a = none → f a = none) : (l.filterMap f).Perm (l'.filterMap g) := by
  induction l generalizing l' with
  | nil =>
    obtain rfl := List.map_eq_nil_iff.1 h.nil_eq.symm
    exact List.Perm.nil
  | cons a l ih =>
    cases hk : k a with
    | none =>
      rw [List.filterMap_cons_none hk] at h
      rw [List.filterMap_cons_none (hnone a List.mem_cons_self hk)]
      exact ih h (fun x hx => hagree x (List.mem_cons_of_mem _ hx))
        fun x hx => hnone x (List.mem_cons_of_mem _ hx)
    | some c =>
      rw [List.filterMap_cons_some hk] at h
      obtain ⟨b, hb, rfl⟩ := List.mem_map.1 (h.mem_iff.1 List.mem_cons_self)
      obtain ⟨s, t, rfl⟩ := List.append_of_mem hb
      have hmiddle : (s ++ b :: t).Perm (b :: (s ++ t)) := List.perm_middle
      have hrest := ih (h.trans (hmiddle.map k')).cons_inv
        (fun x hx y hy => hagree x (List.mem_cons_of_mem _ hx) y
          (hmiddle.mem_iff.2 (List.mem_cons_of_mem _ hy)))
        fun x hx => hnone x (List.mem_cons_of_mem _ hx)
      refine List.Perm.trans ?_ (hmiddle.filterMap g).symm
      rw [← List.singleton_append, List.filterMap_append, ← List.singleton_append (x := b),
        List.filterMap_append, List.filterMap_cons, List.filterMap_cons,
        hagree a List.mem_cons_self b hb hk]
      exact hrest.append_left _

end KeyedParts

end Keeper
