import Keeper.Foundations.JsMap
import Mathlib.Algebra.GroupWithZero.Nat
import Mathlib.Data.List.Dedup
import Mathlib.Data.List.Sort

/-!
# Arrays

The array operations of the modelled programs that `List` does not have under the same meaning.

* `toSorted`: `Array.prototype.toSorted`, stable, by a numeric comparison (`toSorted_perm`,
  `Orders.filter_toSorted`, `Orders.toSorted_congr`).
* `keepBest`: the element that a loop keeps which replaces it by each better one.
* `chunks`: consecutive blocks of a given size (`flatten_chunks`).
* `firstNonzero`: the `||` of numeric comparisons.
* `zipIndexed`: each element with what another array holds at its index (`mem_zipIndexed`).
* `setEach`: values set at indices (`getElem?_setEach`).
-/

namespace Keeper

namespace JsArray

variable {α : Type*}

/-! ## Sorting -/

/-- Sort by a comparison that answers a negative number, zero or a positive one. Insertion keeps
equal elements in their order. -/
def toSorted (compare : α → α → ℤ) (l : List α) : List α :=
  l.insertionSort fun a b => compare a b ≤ 0

theorem toSorted_perm (compare : α → α → ℤ) (l : List α) : (toSorted compare l).Perm l :=
  List.perm_insertionSort _ _

variable {compare : α → α → ℤ} {l : List α}

@[simp] theorem mem_toSorted {a : α} : a ∈ toSorted compare l ↔ a ∈ l :=
  (toSorted_perm compare l).mem_iff

@[simp] theorem toSorted_eq_nil_iff : toSorted compare l = [] ↔ l = [] :=
  ⟨fun h => List.perm_nil.1 (h ▸ (toSorted_perm compare l).symm), fun h => by subst h; rfl⟩

/-- A comparison that orders: its `≤ 0` is total and transitive. -/
structure Orders (compare : α → α → ℤ) : Prop where
  total : ∀ a b, compare a b ≤ 0 ∨ compare b a ≤ 0
  trans : ∀ a b c, compare a b ≤ 0 → compare b c ≤ 0 → compare a c ≤ 0

theorem Orders.pairwise_toSorted (h : Orders compare) (l : List α) :
    (toSorted compare l).Pairwise fun a b => compare a b ≤ 0 := by
  have : Std.Total fun a b : α => compare a b ≤ 0 := ⟨h.total⟩
  have : IsTrans α fun a b => compare a b ≤ 0 := ⟨h.trans⟩
  exact List.pairwise_insertionSort _ l

theorem filter_orderedInsert {r : α → α → Prop} [DecidableRel r] [IsTrans α r] (p : α → Bool)
    (a : α) (hl : l.Pairwise r) : (l.orderedInsert r a).filter p =
      if p a then (l.filter p).orderedInsert r a else l.filter p := by
  induction l with
  | nil => cases hp : p a <;> simp [hp]
  | cons b l ih =>
    rw [List.pairwise_cons] at hl
    by_cases hab : r a b
    · have hfront : ∀ x ∈ (b :: l).filter p, r a x := by
        intro x hx
        rcases List.mem_cons.1 (List.mem_of_mem_filter hx) with rfl | hx
        · exact hab
        · exact IsTrans.trans a b x hab (hl.1 x hx)
      rw [List.orderedInsert_cons_of_le _ _ hab, List.filter_cons]
      split_ifs with hp
      · cases hrest : (b :: l).filter p with
        | nil => rfl
        | cons c rest =>
          rw [hrest] at hfront
          rw [List.orderedInsert_cons_of_le _ _ (hfront c List.mem_cons_self)]
      · rfl
    · rw [List.orderedInsert_of_not_le _ _ hab, List.filter_cons, ih hl.2]
      cases hb : p b <;> cases ha : p a <;>
        simp [hb, hab]

/-- **What is selected of a sorted array** is the sorted selection: the sort is stable. -/
theorem Orders.filter_toSorted (h : Orders compare) (p : α → Bool) (l : List α) :
    (toSorted compare l).filter p = toSorted compare (l.filter p) := by
  have : IsTrans α fun a b => compare a b ≤ 0 := ⟨h.trans⟩
  induction l with
  | nil => rfl
  | cons a l ih =>
    have hstep := filter_orderedInsert p a (h.pairwise_toSorted l)
    rw [ih] at hstep
    show ((toSorted compare l).orderedInsert _ a).filter p = _
    rw [hstep, List.filter_cons]
    split_ifs <;> rfl

/-- The first of two comparisons unless it is a tie. -/
def firstNonzero (first second : ℤ) : ℤ := if first = 0 then second else first

theorem firstNonzero_le_iff {a b c : ℤ} :
    firstNonzero (a - b) c ≤ 0 ↔ a < b ∨ a = b ∧ c ≤ 0 := by
  unfold firstNonzero
  split_ifs with h <;> omega

theorem Orders.firstNonzero (h : Orders compare) (f : α → ℤ) :
    Orders fun a b => JsArray.firstNonzero (f a - f b) (compare a b) where
  total a b := by
    have htotal := h.total a b
    simp only [firstNonzero_le_iff]
    omega
  trans a b c hab hbc := by
    have htrans := h.trans a b c
    simp only [firstNonzero_le_iff] at hab hbc ⊢
    omega

/-- **A sort by a total order** does not depend on the order of the array. -/
theorem Orders.toSorted_congr (h : Orders compare) {l' : List α}
    (hanti : ∀ a ∈ l, ∀ b ∈ l, compare a b ≤ 0 → compare b a ≤ 0 → a = b) (hperm : l.Perm l') :
    toSorted compare l = toSorted compare l' := by
  refine List.Perm.eq_of_pairwise (fun a b ha hb => hanti a (mem_toSorted.1 ha) b ?_)
    (h.pairwise_toSorted l) (h.pairwise_toSorted l')
    ((toSorted_perm compare l).trans (hperm.trans (toSorted_perm compare l').symm))
  exact hperm.mem_iff.2 (mem_toSorted.1 hb)

/-! ## Distinct keys -/

theorem filter_eq_singleton {α κ : Type*} [DecidableEq κ] {f : α → κ} {l : List α}
    (h : (l.map f).Nodup) {a : α} (ha : a ∈ l) : l.filter (fun b => f b = f a) = [a] := by
  induction l with
  | nil => cases ha
  | cons b l ih =>
    rw [List.map_cons, List.nodup_cons] at h
    rcases List.mem_cons.1 ha with rfl | ha
    · rw [List.filter_cons_of_pos (by simp)]
      refine congrArg (a :: ·) (List.filter_eq_nil_iff.2 fun b hb heq => h.1 ?_)
      rw [← of_decide_eq_true heq]
      exact List.mem_map_of_mem hb
    · have hne : f b ≠ f a := fun heq => h.1 (heq ▸ List.mem_map_of_mem ha)
      rw [List.filter_cons_of_neg (by simp [hne]), ih h.2 ha]

/-- What is left of an array when some of its elements are taken by their keys. -/
theorem length_filter_not_mem_map {κ : Type*} [DecidableEq κ] {f : α → κ} {taken : List α}
    (hl : (l.map f).Nodup) (htaken : taken.Subperm l) :
    (l.filter fun a => f a ∉ taken.map f).length + taken.length = l.length := by
  obtain ⟨sub, hsub, hsubl⟩ := htaken
  obtain ⟨others, hothers⟩ := hsubl.exists_perm_append
  have hperm : l.Perm (taken ++ others) := hothers.trans (hsub.append_right others)
  have hnodup := (hperm.map f).nodup_iff.1 hl
  rw [List.map_append, List.nodup_append] at hnodup
  have hnone : taken.filter (fun a => f a ∉ taken.map f) = [] :=
    List.filter_eq_nil_iff.2 fun a ha => by simpa using ⟨a, ha, rfl⟩
  have hall : others.filter (fun a => f a ∉ taken.map f) = others := by
    refine List.filter_eq_self.2 fun a ha => ?_
    rw [decide_eq_true_iff]
    exact fun hmem => hnodup.2.2 _ hmem _ (List.mem_map_of_mem ha) rfl
  rw [(hperm.filter _).length_eq, List.filter_append, hnone, hall, hperm.length_eq,
    List.nil_append, List.length_append, Nat.add_comm]

/-- What carries a key in an array of pieces, each of which carries its own: its piece. -/
theorem filter_flatMap_of_key {β κ : Type*} [DecidableEq κ] {key : β → Option κ} {f : κ → List β}
    {keys : List κ} (hkeys : keys.Nodup) (hf : ∀ k ∈ keys, ∀ b ∈ f k, key b = some k) (k : κ) :
    (keys.flatMap f).filter (fun b => key b = some k) = if k ∈ keys then f k else [] := by
  induction keys with
  | nil => rfl
  | cons k' keys ih =>
    obtain ⟨hfresh, hnodup⟩ := List.nodup_cons.1 hkeys
    have hown := hf k' List.mem_cons_self
    rw [List.flatMap_cons, List.filter_append,
      ih hnodup fun k hk => hf k (List.mem_cons_of_mem k' hk)]
    by_cases heq : k = k'
    · subst heq
      rw [if_neg hfresh, if_pos List.mem_cons_self, List.append_nil]
      exact List.filter_eq_self.2 fun b hb => decide_eq_true (hown b hb)
    · have hnone : (f k').filter (fun b => key b = some k) = [] := by
        refine List.filter_eq_nil_iff.2 fun b hb => ?_
        rw [hown b hb, decide_eq_true_iff, Option.some.injEq]
        exact fun h => heq h.symm
      rw [hnone, List.nil_append]
      simp [heq]

theorem length_filter_le_of_imp {p q : α → Bool} (hpq : ∀ a ∈ l, p a = true → q a = true) :
    (l.filter p).length ≤ (l.filter q).length := by
  rw [← List.countP_eq_length_filter, ← List.countP_eq_length_filter]
  exact List.countP_mono_left hpq

/-- A test that keeps as many elements as a weaker one keeps the same. -/
theorem of_length_filter_le {p q : α → Bool} (hpq : ∀ a ∈ l, p a = true → q a = true)
    (hlength : (l.filter q).length ≤ (l.filter p).length) {a : α} (ha : a ∈ l) (hq : q a = true) :
    p a = true := by
  have hp : l.filter p = (l.filter q).filter p := by
    rw [List.filter_filter]
    refine List.filter_congr fun b hb => ?_
    cases hpb : p b with
    | false => simp
    | true => simp [hpq b hb hpb]
  rw [hp] at hlength
  have hall := List.length_filter_eq_length_iff.1
    (le_antisymm (List.length_filter_le p (l.filter q)) hlength)
  exact hall a (List.mem_filter.2 ⟨ha, hq⟩)

/-- What `eraseDups` keeps, as a `Set` does: the first of equal elements. -/
theorem nodup_eraseDups [DecidableEq α] (l : List α) : l.eraseDups.Nodup := by
  match l with
  | [] => exact List.nodup_nil
  | a :: l =>
    rw [List.eraseDups_cons, List.nodup_cons, List.mem_eraseDups]
    exact ⟨by simp, nodup_eraseDups _⟩
termination_by l.length
decreasing_by exact Nat.lt_succ_of_le (List.length_filter_le _ l)

/-- The number of distinct elements is that of another list of the same elements. -/
theorem length_dedup_congr {α : Type*} [DecidableEq α] {l l' : List α}
    (h : ∀ a, a ∈ l ↔ a ∈ l') : l.dedup.length = l'.dedup.length := by
  refine ((List.perm_ext_iff_of_nodup (List.nodup_dedup l) (List.nodup_dedup l')).2 ?_).length_eq
  intro a
  rw [List.mem_dedup, List.mem_dedup, h]

theorem sum_map_filterMap {α β : Type*} (f : α → Option β) (g : β → ℕ) (l : List α) :
    ((l.filterMap f).map g).sum = (l.map fun a => ((f a).map g).getD 0).sum := by
  induction l with
  | nil => rfl
  | cons a l ih =>
    cases hf : f a with
    | none =>
      rw [List.filterMap_cons_none hf, List.map_cons, List.sum_cons, hf, ih]
      exact (Nat.zero_add _).symm
    | some b =>
      rw [List.filterMap_cons_some hf, List.map_cons, List.map_cons, List.sum_cons, List.sum_cons,
        hf, ih]
      rfl

theorem map_fst_filterMap_sublist {κ β γ : Type*} {f : κ × β → Option (κ × γ)}
    (h : ∀ e c, f e = some c → c.1 = e.1) (l : List (κ × β)) :
    ((l.filterMap f).map Prod.fst).Sublist (l.map Prod.fst) := by
  induction l with
  | nil => exact List.Sublist.refl _
  | cons e l ih =>
    cases hf : f e with
    | none =>
      rw [List.filterMap_cons_none hf]
      exact ih.cons _
    | some c =>
      rw [List.filterMap_cons_some hf, List.map_cons, List.map_cons, h e c hf]
      exact ih.cons_cons _

/-! ## The best of a list -/

/-- A loop over the rest of a list that keeps the best element so far. -/
def keepBest (better : α → α → Bool) (first : α) (rest : List α) : α :=
  rest.foldl (fun winner a => if better a winner then a else winner) first

theorem keepBest_mem (better : α → α → Bool) (first : α) (rest : List α) :
    keepBest better first rest ∈ first :: rest := by
  induction rest generalizing first with
  | nil => exact List.mem_cons_self
  | cons a rest ih =>
    rw [keepBest, List.foldl_cons]
    split_ifs
    · exact List.mem_cons_of_mem _ (ih a)
    · rcases List.mem_cons.1 (ih first) with h | h
      · rw [show List.foldl _ first rest = first from h]
        exact List.mem_cons_self
      · exact List.mem_cons_of_mem _ (List.mem_cons_of_mem _ h)

/-- A test for the better of two elements that is a strict weak order on those of a kind. -/
structure Prefers (better : α → α → Bool) (p : α → Prop) : Prop where
  asymm : ∀ a b, p a → p b → better a b = true → better b a = false
  splits : ∀ a b c, p a → p b → p c → better a c = true → better a b = true ∨ better b c = true

/-- **No element is better** than the one that the loop keeps. -/
theorem Prefers.not_better_keepBest {better : α → α → Bool} {p : α → Prop} (h : Prefers better p)
    {first : α} {rest : List α} (hp : ∀ a ∈ first :: rest, p a) {a : α} (ha : a ∈ first :: rest) :
    better a (keepBest better first rest) ≠ true := by
  induction rest generalizing first a with
  | nil =>
    obtain rfl := List.mem_singleton.1 ha
    intro hbetter
    have hno := h.asymm a a (hp a ha) (hp a ha) hbetter
    exact absurd hbetter (by rw [show better a (keepBest better a []) = false from hno]; decide)
  | cons b rest ih =>
    have hfirst : p first := hp first List.mem_cons_self
    have hb : p b := hp b (List.mem_cons_of_mem _ List.mem_cons_self)
    have hrest : ∀ c ∈ rest, p c := fun c hc =>
      hp c (List.mem_cons_of_mem _ (List.mem_cons_of_mem _ hc))
    rw [keepBest, List.foldl_cons]
    by_cases hreplaces : better b first = true
    · rw [if_pos hreplaces]
      have hbs : ∀ c ∈ b :: rest, p c := List.forall_mem_cons.2 ⟨hb, hrest⟩
      have hbest := ih hbs List.mem_cons_self
      rcases List.mem_cons.1 ha with rfl | ha
      · -- the replaced element is no better than its successor
        intro hbetter
        rcases h.splits _ b _ hfirst hb (hbs _ (keepBest_mem better b rest)) hbetter with hab | hbc
        · rw [h.asymm _ _ hb hfirst hreplaces] at hab
          cases hab
        · exact hbest hbc
      · exact ih hbs ha
    · rw [if_neg hreplaces]
      have hfs : ∀ c ∈ first :: rest, p c := List.forall_mem_cons.2 ⟨hfirst, hrest⟩
      have hbest := ih hfs List.mem_cons_self
      rcases List.mem_cons.1 ha with rfl | ha
      · exact hbest
      · rcases List.mem_cons.1 ha with rfl | ha
        · intro hbetter
          rcases h.splits _ first _ hb hfirst (hfs _ (keepBest_mem better first rest)) hbetter with
            hab | hbc
          · exact hreplaces hab
          · exact hbest hbc
        · exact ih hfs (List.mem_cons_of_mem _ ha)

/-! ## Chunks -/

/-- The blocks of `size + 1` elements of a list that is no longer than the fuel. -/
def chunksWithin (size : ℕ) : ℕ → List α → List (List α)
  | _, [] => []
  | 0, l => [l]
  | fuel + 1, a :: l => (a :: l.take size) :: chunksWithin size fuel (l.drop size)

/-- The consecutive blocks of `size + 1` elements; the last one may be shorter. -/
def chunks (size : ℕ) (l : List α) : List (List α) := chunksWithin size l.length l

theorem flatten_chunksWithin (size fuel : ℕ) (l : List α) :
    (chunksWithin size fuel l).flatten = l := by
  induction fuel generalizing l with
  | zero => cases l <;> simp [chunksWithin]
  | succ fuel ih =>
    cases l with
    | nil => rfl
    | cons a l => simp [chunksWithin, ih]

/-- **The blocks of a list make up the list.** -/
theorem flatten_chunks (size : ℕ) (l : List α) : (chunks size l).flatten = l :=
  flatten_chunksWithin size _ l

/-! ## Parallel arrays -/

/-- Each element with the element of the same index of another array, if there is one. -/
def zipIndexed {β : Type*} : List α → List β → List (α × Option β)
  | [], _ => []
  | a :: l, [] => (a, none) :: zipIndexed l []
  | a :: l, b :: r => (a, some b) :: zipIndexed l r

theorem map_fst_zipIndexed {β : Type*} (l : List α) (r : List β) :
    (zipIndexed l r).map Prod.fst = l := by
  induction l generalizing r with
  | nil => rfl
  | cons a l ih => cases r <;> simp [zipIndexed, ih]

theorem zipIndexed_eq {β : Type*} (l : List α) (r : List β) :
    zipIndexed l r = l.mapIdx fun i a => (a, r[i]?) := by
  induction l generalizing r with
  | nil => rfl
  | cons a l ih => cases r <;> simp [zipIndexed, ih]

theorem zipIndexed_map {β : Type*} (l : List α) (f : α → β) :
    zipIndexed l (l.map f) = l.map fun a => (a, some (f a)) := by
  induction l with
  | nil => rfl
  | cons a l ih => rw [List.map_cons, zipIndexed, ih, List.map_cons]

theorem mem_zipIndexed {β : Type*} {r : List β} {a : α} {b : Option β} :
    (a, b) ∈ zipIndexed l r ↔ ∃ i : ℕ, l[i]? = some a ∧ r[i]? = b := by
  rw [zipIndexed_eq, List.mem_mapIdx]
  constructor
  · rintro ⟨i, hi, h⟩
    obtain ⟨rfl, rfl⟩ := Prod.mk.inj h
    exact ⟨i, List.getElem?_eq_getElem hi, rfl⟩
  · rintro ⟨i, ha, rfl⟩
    obtain ⟨hi, rfl⟩ := List.getElem?_eq_some_iff.1 ha
    exact ⟨i, hi, rfl⟩

/-- What is selected of the pairs, when it is selected by the first of each. -/
theorem sublist_filterMap_zipIndexed {β γ : Type*} {f : α → Option γ} {g : α × Option β → Option γ}
    (h : ∀ item c, g item = some c → f item.1 = some c) (l : List α) (r : List β) :
    ((zipIndexed l r).filterMap g).Sublist (l.filterMap f) := by
  conv => rhs; rw [← map_fst_zipIndexed l r, List.filterMap_map]
  induction zipIndexed l r with
  | nil => simp
  | cons item items ih =>
    cases hg : g item with
    | some c => simpa [hg, h item c hg] using ih.cons_cons c
    | none =>
      rw [List.filterMap_cons_none hg]
      cases hf : f item.1 with
      | none => simpa [hf] using ih
      | some c => simpa [hf] using ih.cons c

theorem filterMap_zipIndexed {β γ : Type*} {P : α → β → Prop} {g : α × Option β → Option γ}
    {f : α → β → γ} {r : List β} (hp : List.Forall₂ P l r)
    (hg : ∀ a b, P a b → g (a, some b) = some (f a b)) :
    (zipIndexed l r).filterMap g = List.zipWith f l r := by
  induction hp with
  | nil => rfl
  | cons h _ ih => rw [zipIndexed, List.filterMap_cons_some (hg _ _ h), ih, List.zipWith_cons_cons]

theorem filterMap_zipIndexed_left {β γ : Type*} {P : α → β → Prop} {g : α × Option β → Option γ}
    {f : α → Option γ} {r : List β} (hp : List.Forall₂ P l r)
    (hg : ∀ a b, P a b → g (a, some b) = f a) : (zipIndexed l r).filterMap g = l.filterMap f := by
  induction hp with
  | nil => rfl
  | cons h _ ih => rw [zipIndexed, List.filterMap_cons, hg _ _ h, ih, List.filterMap_cons]

/-! ## Updates -/

/-- Set what is given for some indices. -/
def setEach (updates : List (ℕ × Option α)) (l : List α) : List α :=
  updates.foldl (fun l update =>
    match update.2 with
    | none => l
    | some a => l.set update.1 a) l

/-- **With distinct indices**, each one holds what is given for it, and the others what they held. -/
theorem getElem?_setEach {updates : List (ℕ × Option α)} (h : (updates.map Prod.fst).Nodup)
    (l : List α) (k : ℕ) :
    (setEach updates l)[k]? = l[k]?.map ((JsMap.findEntry k updates).join.getD ·) := by
  induction updates generalizing l with
  | nil => simp [setEach, JsMap.findEntry]
  | cons update updates ih =>
    obtain ⟨i, given⟩ := update
    obtain ⟨hnot, hnodup⟩ := List.nodup_cons.1 h
    change (setEach updates _)[k]? = _
    rw [ih hnodup, JsMap.findEntry]
    by_cases hk : i = k
    · subst hk
      rw [JsMap.findEntry_eq_none_iff.2 hnot, if_pos rfl]
      cases given with
      | none => simp
      | some a =>
        rw [List.getElem?_set_self']
        cases l[i]? <;> rfl
    · rw [if_neg hk]
      cases given with
      | none => rfl
      | some a => simp only [List.getElem?_set_ne hk]

theorem length_setEach (updates : List (ℕ × Option α)) (l : List α) :
    (setEach updates l).length = l.length := by
  unfold setEach
  induction updates generalizing l with
  | nil => rfl
  | cons update updates ih =>
    rw [List.foldl_cons, ih]
    cases update.2 with
    | none => rfl
    | some a => exact List.length_set

end JsArray

end Keeper
