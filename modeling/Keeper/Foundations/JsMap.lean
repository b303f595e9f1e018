import Mathlib.Data.List.Nodup
import Mathlib.Data.List.Basic

/-!
# Insertion-ordered maps

The maps of the modelled programs: one value a key, iterated in the order in which the keys were
first set. `set` keeps the position of a key that is already present, so iteration order is part
of the value and two maps built by different insertions are in general different.

* `get?_set`, `get?_ofList_some` say what a lookup returns: the last value set for the key.
* `mem_entries_iff` and `mem_values_iff` relate the entries and the values to lookups.
* `group` collects the values pushed under each key, in order (`get?_group`), and loses none
  (`flatten_values_group`).
-/

namespace Keeper

universe u v

/-- A map that remembers the insertion order of its keys, which are distinct. -/
structure JsMap (κ : Type u) (β : Type v) where
  entries : List (κ × β)
  nodup_keys : (entries.map Prod.fst).Nodup

namespace JsMap

variable {κ : Type u} {β : Type v}

def keys (m : JsMap κ β) : List κ := m.entries.map Prod.fst

def values (m : JsMap κ β) : List β := m.entries.map Prod.snd

def empty : JsMap κ β := ⟨[], by simp⟩

@[simp] theorem entries_empty : (empty : JsMap κ β).entries = [] := rfl

@[simp] theorem keys_empty : (empty : JsMap κ β).keys = [] := rfl

theorem keys_nodup (m : JsMap κ β) : m.keys.Nodup := m.nodup_keys

variable [DecidableEq κ]

/-! ## Entry lists -/

/-- Replace the value of `k` in place, or append the entry. -/
def setEntry (k : κ) (v : β) : List (κ × β) → List (κ × β)
  | [] => [(k, v)]
  | e :: l => if e.1 = k then (k, v) :: l else e :: setEntry k v l

/-- The value of the first entry with key `k`. -/
def findEntry (k : κ) : List (κ × β) → Option β
  | [] => none
  | e :: l => if e.1 = k then some e.2 else findEntry k l

theorem map_fst_setEntry (k : κ) (v : β) (l : List (κ × β)) :
    (setEntry k v l).map Prod.fst =
      if k ∈ l.map Prod.fst then l.map Prod.fst else l.map Prod.fst ++ [k] := by
  induction l with
  | nil => simp [setEntry]
  | cons e l ih =>
    by_cases h : e.1 = k
    · simp [setEntry, h]
    · have h' : ¬ k = e.1 := fun hk => h hk.symm
      simp only [setEntry, h, if_false, List.map_cons, ih, List.mem_cons, h', false_or]
      split <;> simp

variable {k : κ} {v : β} {l : List (κ × β)} {m : JsMap κ β} {q : κ → Bool}

theorem nodup_setEntry (h : (l.map Prod.fst).Nodup) : ((setEntry k v l).map Prod.fst).Nodup := by
  rw [map_fst_setEntry]
  split
  · exact h
  · rename_i hk
    exact List.nodup_append.2 ⟨h, by simp, by rintro a ha b hb rfl; simp_all⟩

theorem findEntry_setEntry (k k' : κ) (v : β) (l : List (κ × β)) :
    findEntry k' (setEntry k v l) = if k = k' then some v else findEntry k' l := by
  induction l with
  | nil => simp [setEntry, findEntry]
  | cons e l ih =>
    by_cases h : e.1 = k
    · by_cases hk : k = k' <;> simp [setEntry, findEntry, h, hk]
    · by_cases hk : k = k'
      · subst hk
        simp [setEntry, findEntry, h, ih]
      · simp only [setEntry, h, if_false, findEntry, ih, hk]

theorem findEntry_eq_some_iff (h : (l.map Prod.fst).Nodup) : findEntry k l = some v ↔ (k, v) ∈ l := by
  induction l with
  | nil => simp [findEntry]
  | cons e l ih =>
    obtain ⟨a, b⟩ := e
    obtain ⟨ha, hl⟩ := List.nodup_cons.1 h
    by_cases hk : a = k
    · subst hk
      have : (a, v) ∉ l := fun hv => ha (List.mem_map.2 ⟨_, hv, rfl⟩)
      simp only [findEntry, if_true, Option.some.injEq, List.mem_cons, Prod.mk.injEq, true_and,
        this, or_false]
      exact eq_comm
    · have hk' : ¬ k = a := fun h => hk h.symm
      simp [findEntry, hk, hk', ih hl]

theorem findEntry_eq_none_iff : findEntry k l = none ↔ k ∉ l.map Prod.fst := by
  induction l with
  | nil => simp [findEntry]
  | cons e l ih =>
    by_cases hk : e.1 = k
    · simp [findEntry, hk]
    · have hk' : ¬ k = e.1 := fun h => hk h.symm
      simp only [findEntry, hk, if_false, ih, List.map_cons, List.mem_cons, hk', false_or]

/-! ## Lookups and updates -/

/-- The value of a key. -/
def get? (m : JsMap κ β) (k : κ) : Option β := findEntry k m.entries

/-- Whether a key is present. -/
def has (m : JsMap κ β) (k : κ) : Bool := (m.get? k).isSome

/-- Set the value of a key, which keeps its position if it is already present. -/
def set (m : JsMap κ β) (k : κ) (v : β) : JsMap κ β :=
  ⟨setEntry k v m.entries, nodup_setEntry m.nodup_keys⟩

/-- Set the entries of a list one after the other: the last value of a key wins. -/
def ofList (l : List (κ × β)) : JsMap κ β := l.foldl (fun m e => m.set e.1 e.2) empty

@[simp] theorem get?_empty (k : κ) : (empty : JsMap κ β).get? k = none := rfl

theorem get?_set (m : JsMap κ β) (k k' : κ) (v : β) :
    (m.set k v).get? k' = if k = k' then some v else m.get? k' :=
  findEntry_setEntry k k' v m.entries

@[simp] theorem get?_set_self (m : JsMap κ β) (k : κ) (v : β) : (m.set k v).get? k = some v := by
  rw [get?_set, if_pos rfl]

theorem get?_set_of_ne (m : JsMap κ β) {k' : κ} (v : β) (h : k ≠ k') : (m.set k v).get? k' = m.get? k' := by
  rw [get?_set, if_neg h]

theorem mem_entries_iff : (k, v) ∈ m.entries ↔ m.get? k = some v :=
  (findEntry_eq_some_iff m.nodup_keys).symm

theorem get?_eq_none_iff : m.get? k = none ↔ k ∉ m.keys :=
  findEntry_eq_none_iff

theorem mem_keys_iff : k ∈ m.keys ↔ ∃ v, m.get? k = some v := by
  rw [← not_iff_not, ← get?_eq_none_iff]
  cases m.get? k <;> simp

theorem mem_values_iff : v ∈ m.values ↔ ∃ k, m.get? k = some v := by
  simp only [values, List.mem_map, ← mem_entries_iff]
  exact ⟨fun ⟨e, he, hv⟩ => ⟨e.1, hv ▸ he⟩, fun ⟨k, hk⟩ => ⟨(k, v), hk, rfl⟩⟩

theorem keys_set (m : JsMap κ β) (k : κ) (v : β) :
    (m.set k v).keys = if k ∈ m.keys then m.keys else m.keys ++ [k] :=
  map_fst_setEntry k v m.entries

theorem mem_keys_set {k' : κ} : k' ∈ (m.set k v).keys ↔ k' ∈ m.keys ∨ k' = k := by
  rw [keys_set]
  split
  · rename_i h
    exact ⟨Or.inl, fun h' => h'.elim id (fun h' => h' ▸ h)⟩
  · simp

theorem entries_set_of_not_mem (h : k ∉ m.keys) (v : β) : (m.set k v).entries = m.entries ++ [(k, v)] := by
  have key : ∀ l : List (κ × β), k ∉ l.map Prod.fst → setEntry k v l = l ++ [(k, v)] := by
    intro l
    induction l with
    | nil => simp [setEntry]
    | cons e l ih =>
      intro hk
      simp only [List.map_cons, List.mem_cons, not_or] at hk
      simp [setEntry, Ne.symm hk.1, ih hk.2]
  exact key m.entries h

/-! ## Maps of lists -/

theorem get?_foldl_set_some (h : (l.foldl (fun m e => m.set e.1 e.2) m).get? k = some v) :
    (k, v) ∈ l ∨ m.get? k = some v := by
  induction l generalizing m with
  | nil => exact Or.inr h
  | cons e l ih =>
    rcases ih h with h | h
    · exact Or.inl (List.mem_cons_of_mem _ h)
    · rw [get?_set] at h
      split at h
      · rename_i he
        obtain rfl := Option.some.inj h
        exact Or.inl (by simp [← he])
      · exact Or.inr h

theorem get?_ofList_some (h : (ofList l).get? k = some v) : (k, v) ∈ l := by
  simpa using get?_foldl_set_some h

theorem mem_keys_foldl_set : k ∈ (l.foldl (fun m e => m.set e.1 e.2) m).keys ↔ k ∈ m.keys ∨ k ∈ l.map Prod.fst := by
  induction l generalizing m with
  | nil => simp
  | cons e l ih => rw [List.foldl_cons, ih, mem_keys_set, List.map_cons, List.mem_cons, or_assoc]

@[simp] theorem mem_keys_ofList : k ∈ (ofList l).keys ↔ k ∈ l.map Prod.fst := by
  simp [ofList, mem_keys_foldl_set]

theorem isSome_get?_iff : (m.get? k).isSome ↔ k ∈ m.keys := by
  rw [mem_keys_iff, Option.isSome_iff_exists]

theorem get?_foldl_set_of_nodup (h : (l.map Prod.fst).Nodup) (m : JsMap κ β) (k : κ) :
    (l.foldl (fun m e => m.set e.1 e.2) m).get? k = (findEntry k l).or (m.get? k) := by
  induction l generalizing m with
  | nil => rfl
  | cons e l ih =>
    obtain ⟨hnot, hnodup⟩ := List.nodup_cons.1 h
    rw [List.foldl_cons, ih hnodup, get?_set, findEntry]
    split_ifs with he
    · subst he
      rw [findEntry_eq_none_iff.2 hnot]
      rfl
    · rfl

/-- Setting the entries of one map in another: the lookups of the first one come first. -/
theorem get?_foldl_set_entries (m m' : JsMap κ β) (k : κ) :
    (m'.entries.foldl (fun m e => m.set e.1 e.2) m).get? k = (m'.get? k).or (m.get? k) :=
  get?_foldl_set_of_nodup m'.nodup_keys m k

/-- With distinct keys a lookup finds exactly the entries of the list. -/
theorem get?_ofList_eq_some_iff (h : (l.map Prod.fst).Nodup) : (ofList l).get? k = some v ↔ (k, v) ∈ l := by
  refine ⟨get?_ofList_some, fun hv => ?_⟩
  have hk : k ∈ (ofList l).keys := mem_keys_ofList.2 (List.mem_map_of_mem hv)
  obtain ⟨v', hv'⟩ := mem_keys_iff.1 hk
  have hmem := get?_ofList_some hv'
  have := List.inj_on_of_nodup_map h hv hmem rfl
  rw [hv', (Prod.mk.inj this).2]

/-- The entries of a permuted list of distinct keys read back the same. -/
theorem get?_ofList_perm {l' : List (κ × β)} (hnodup : (l.map Prod.fst).Nodup) (h : l.Perm l') (k : κ) :
    (ofList l).get? k = (ofList l').get? k := by
  refine Option.ext fun v => ?_
  rw [get?_ofList_eq_some_iff hnodup, get?_ofList_eq_some_iff ((h.map _).nodup_iff.1 hnodup),
    h.mem_iff]

theorem entries_foldl_set_of_nodup (h : (m.keys ++ l.map Prod.fst).Nodup) :
    (l.foldl (fun m e => m.set e.1 e.2) m).entries = m.entries ++ l := by
  induction l generalizing m with
  | nil => simp
  | cons e l ih =>
    have he : e.1 ∉ m.keys := by
      rw [List.map_cons] at h
      exact fun hm => (List.nodup_append.1 h).2.2 _ hm _ (by simp) rfl
    rw [List.foldl_cons, ih, entries_set_of_not_mem he, List.append_assoc]
    · rfl
    · rw [keys_set, if_neg he]
      simpa using h

theorem entries_ofList_of_nodup (h : (l.map Prod.fst).Nodup) : (ofList l).entries = l := by
  simpa [ofList] using entries_foldl_set_of_nodup (m := empty) (by simpa using h)

theorem values_ofList_of_nodup (h : (l.map Prod.fst).Nodup) : (ofList l).values = l.map Prod.snd := by
  rw [values, entries_ofList_of_nodup h]

theorem ofList_entries (m : JsMap κ β) : ofList m.entries = m := by
  have h := entries_ofList_of_nodup m.nodup_keys
  cases hlist : ofList m.entries with
  | mk entries nodup_keys =>
    rw [hlist] at h
    subst h
    rfl

/-! ## Grouping -/

def push (m : JsMap κ (List β)) (k : κ) (x : β) : JsMap κ (List β) :=
  m.set k ((m.get? k).getD [] ++ [x])

/-- The values of each key, in the order of the list. -/
def group (l : List (κ × β)) : JsMap κ (List β) := l.foldl (fun m e => m.push e.1 e.2) empty

def valuesAt (k : κ) (l : List (κ × β)) : List β := (l.filter (fun e => e.1 = k)).map Prod.snd

theorem mem_valuesAt {x : β} : x ∈ valuesAt k l ↔ (k, x) ∈ l := by
  simp only [valuesAt, List.mem_map, List.mem_filter, decide_eq_true_eq]
  exact ⟨fun ⟨e, ⟨he, hk⟩, hx⟩ => by subst hk hx; exact he, fun h => ⟨(k, x), ⟨h, rfl⟩, rfl⟩⟩

theorem getD_push (m : JsMap κ (List β)) (k k' : κ) (x : β) :
    ((m.push k x).get? k').getD [] = (m.get? k').getD [] ++ if k = k' then [x] else [] := by
  rw [push, get?_set]
  split
  · rename_i h
    simp [h]
  · simp

theorem getD_foldl_push (l : List (κ × β)) (m : JsMap κ (List β)) (k : κ) :
    ((l.foldl (fun m e => m.push e.1 e.2) m).get? k).getD [] =
      (m.get? k).getD [] ++ valuesAt k l := by
  induction l generalizing m with
  | nil => simp [valuesAt]
  | cons e l ih =>
    rw [List.foldl_cons, ih, getD_push, List.append_assoc]
    congr 1
    by_cases h : e.1 = k <;> simp [valuesAt, h]

theorem getD_group (l : List (κ × β)) (k : κ) : ((group l).get? k).getD [] = valuesAt k l := by
  simpa [group] using getD_foldl_push l empty k

theorem mem_keys_foldl_push {m : JsMap κ (List β)} :
    k ∈ (l.foldl (fun m e => m.push e.1 e.2) m).keys ↔ k ∈ m.keys ∨ k ∈ l.map Prod.fst := by
  induction l generalizing m with
  | nil => simp
  | cons e l ih =>
    rw [List.foldl_cons, ih, push, mem_keys_set, List.map_cons, List.mem_cons, or_assoc]

theorem mem_keys_group : k ∈ (group l).keys ↔ k ∈ l.map Prod.fst := by
  simp [group, mem_keys_foldl_push]

/-- **A group holds the values of its key, in order.** -/
theorem get?_group {xs : List β} : (group l).get? k = some xs ↔ k ∈ l.map Prod.fst ∧ xs = valuesAt k l := by
  have hd := getD_group l k
  constructor
  · intro h
    rw [h] at hd
    exact ⟨mem_keys_group.1 (mem_keys_iff.2 ⟨_, h⟩), hd⟩
  · rintro ⟨hk, rfl⟩
    obtain ⟨ys, hy⟩ := mem_keys_iff.1 (mem_keys_group.2 hk)
    rw [hy] at hd
    rw [hy, ← hd, Option.getD_some]

theorem values_eq_map_keys {f : κ → β} (h : ∀ k v, m.get? k = some v → v = f k) : m.values = m.keys.map f := by
  rw [values, keys, List.map_map]
  exact List.map_congr_left fun e he => h e.1 e.2 (mem_entries_iff.1 he)

theorem keys_group_perm {l' : List (κ × β)} (h : l.Perm l') : (group l).keys.Perm (group l').keys := by
  refine (List.perm_ext_iff_of_nodup (keys_nodup _) (keys_nodup _)).2 fun k => ?_
  rw [mem_keys_group, mem_keys_group]
  exact (h.map Prod.fst).mem_iff

/-- Pair each element with its key; elements without a key are left out. -/
def keyed {α : Type*} (key : α → Option κ) (l : List α) : List (κ × α) :=
  l.filterMap fun a => (key a).map (·, a)

omit [DecidableEq κ] in
theorem mem_keyed {α : Type*} {key : α → Option κ} {l : List α} {a : α} :
    (k, a) ∈ keyed key l ↔ a ∈ l ∧ key a = some k := by
  simp only [keyed, List.mem_filterMap, Option.map_eq_some_iff, Prod.mk.injEq]
  constructor
  · rintro ⟨a', ha', k', hk, rfl, rfl⟩
    exact ⟨ha', hk⟩
  · exact fun ⟨ha, hk⟩ => ⟨a, ha, k, hk, rfl, rfl⟩

theorem valuesAt_keyed {α : Type*} (key : α → Option κ) (l : List α) (k : κ) :
    valuesAt k (keyed key l) = l.filter fun a => key a = some k := by
  induction l with
  | nil => rfl
  | cons a l ih =>
    simp only [valuesAt, keyed] at ih ⊢
    cases h : key a with
    | none => simp [h, ih]
    | some k' => by_cases hk : k' = k <;> simp [h, hk, ih]

omit [DecidableEq κ] in
/-- The lists of distinct keys flatten to distinct elements when an element determines its key. -/
theorem nodup_map_flatMap_entries {γ δ : Type*} {f : κ × β → List γ} {g : γ → δ}
    (hf : ∀ e ∈ m.entries, ((f e).map g).Nodup)
    (hg : ∀ e ∈ m.entries, ∀ e' ∈ m.entries, ∀ x ∈ f e, ∀ x' ∈ f e', g x = g x' → e.1 = e'.1) :
    ((m.entries.flatMap f).map g).Nodup := by
  rw [List.map_flatMap, List.nodup_flatMap]
  refine ⟨hf, ?_⟩
  have hn : m.entries.Pairwise fun e e' => e.1 ≠ e'.1 := List.pairwise_map.1 m.nodup_keys
  refine hn.imp_of_mem fun {e e'} he he' hne => ?_
  refine List.disjoint_left.2 ?_
  intro d hd hd'
  obtain ⟨x, hx, rfl⟩ := List.mem_map.1 hd
  obtain ⟨x', hx', hxx'⟩ := List.mem_map.1 hd'
  exact hne (hg e he e' he' x hx x' hx' hxx'.symm)

/-! ## The entries of some keys -/

theorem filter_setEntry (q : κ → Bool) (k : κ) (v : β) (l : List (κ × β)) :
    (setEntry k v l).filter (fun e => q e.1) =
      if q k then setEntry k v (l.filter fun e => q e.1) else l.filter fun e => q e.1 := by
  induction l with
  | nil => by_cases hk : q k = true <;> simp [setEntry, hk]
  | cons e l ih =>
    obtain ⟨k', v'⟩ := e
    by_cases hsame : k' = k
    · subst hsame
      by_cases hk : q k' = true <;> simp [setEntry, hk]
    · by_cases hk : q k = true <;> by_cases hk' : q k' = true <;> simp_all [setEntry]

theorem findEntry_filter (hk : q k = true) (l : List (κ × β)) :
    findEntry k (l.filter fun e => q e.1) = findEntry k l := by
  induction l with
  | nil => rfl
  | cons e l ih =>
    obtain ⟨k', v'⟩ := e
    by_cases hsame : k' = k
    · subst hsame
      simp [findEntry, hk]
    · by_cases hk' : q k' = true <;> simp_all [findEntry]

omit [DecidableEq κ] in
/-- A fold whose steps treat the entries of some keys alone treats them alone. -/
theorem filter_foldl_entries {γ : Type*} {f : JsMap κ β → κ × γ → JsMap κ β}
    (hf : ∀ m m' e, m.entries.filter (fun e => q e.1) = m'.entries → (f m e).entries.filter (fun e => q e.1) = if q e.1 then (f m' e).entries else m'.entries)
    (l : List (κ × γ)) (m m' : JsMap κ β) (h : m.entries.filter (fun e => q e.1) = m'.entries) :
    (l.foldl f m).entries.filter (fun e => q e.1) = ((l.filter fun e => q e.1).foldl f m').entries := by
  induction l generalizing m m' with
  | nil => exact h
  | cons e l ih =>
    have hstep := hf m m' e h
    by_cases hk : q e.1 = true
    · rw [if_pos hk] at hstep
      rw [List.foldl_cons, List.filter_cons_of_pos (by exact hk), List.foldl_cons]
      exact ih _ _ hstep
    · rw [if_neg hk] at hstep
      rw [List.foldl_cons, List.filter_cons_of_neg (by exact hk)]
      exact ih _ _ hstep

/-- **The entries of some keys** are those of the pairs with these keys. -/
theorem filter_entries_ofList (q : κ → Bool) (l : List (κ × β)) :
    (ofList l).entries.filter (fun e => q e.1) = (ofList (l.filter fun e => q e.1)).entries := by
  refine filter_foldl_entries (fun m m' e h => ?_) l _ _ rfl
  rw [set, filter_setEntry, h]
  rfl

theorem get?_ofList_filter (hk : q k = true) (l : List (κ × β)) :
    (ofList (l.filter fun e => q e.1)).get? k = (ofList l).get? k := by
  rw [get?, get?, ← filter_entries_ofList, findEntry_filter hk]

theorem filter_entries_group (q : κ → Bool) (l : List (κ × β)) :
    (group l).entries.filter (fun e => q e.1) = (group (l.filter fun e => q e.1)).entries := by
  refine filter_foldl_entries (fun m m' e h => ?_) l _ _ rfl
  rw [push, set, filter_setEntry, h]
  split_ifs with hk
  · have hget : m.get? e.1 = m'.get? e.1 := by
      rw [get?, get?, ← h, findEntry_filter hk]
    rw [hget]
    rfl
  · rfl

theorem get?_group_filter (hk : q k = true) (l : List (κ × β)) :
    (group (l.filter fun e => q e.1)).get? k = (group l).get? k := by
  rw [get?, get?, ← filter_entries_group, findEntry_filter hk]

theorem valuesAt_filter (hk : q k = true) (l : List (κ × β)) :
    valuesAt k (l.filter fun e => q e.1) = valuesAt k l := by
  rw [valuesAt, List.filter_filter, valuesAt]
  refine congrArg (List.map Prod.snd) (List.filter_congr fun e _ => ?_)
  by_cases hsame : e.1 = k
  · simp [hsame, hk]
  · simp [hsame]

omit [DecidableEq κ] in
theorem keyed_filter {α : Type*} {key : α → Option κ} {p : α → Bool} {l : List α}
    (h : ∀ a ∈ l, ∀ k, key a = some k → p a = q k) :
    keyed key (l.filter p) = (keyed key l).filter fun e => q e.1 := by
  rw [keyed, keyed, List.filterMap_filter, List.filter_filterMap]
  refine List.filterMap_congr fun a ha => ?_
  cases hkey : key a with
  | none => simp
  | some k =>
    rw [h a ha k hkey]
    by_cases hk : q k = true <;> simp [hk, Option.filter]

/-! ## Deletion -/

/-- `Map.prototype.delete`. -/
def erase (m : JsMap κ β) (k : κ) : JsMap κ β :=
  ⟨m.entries.filter fun e => e.1 ≠ k, m.nodup_keys.sublist (List.filter_sublist.map _)⟩

theorem keys_erase (m : JsMap κ β) (k : κ) : (m.erase k).keys = m.keys.erase k := by
  rw [m.keys_nodup.erase_eq_filter, keys, keys, erase, List.filter_map]
  exact congrArg _ (List.filter_congr fun e _ => by by_cases h : e.1 = k <;> simp [h])

theorem get?_erase (m : JsMap κ β) (k k' : κ) :
    (m.erase k).get? k' = if k = k' then none else m.get? k' := by
  split_ifs with h
  · rw [get?_eq_none_iff, keys_erase, h]
    exact m.keys_nodup.not_mem_erase
  · exact findEntry_filter (q := (· ≠ k)) (by simpa using Ne.symm h) m.entries

theorem get?_foldl_erase (l : List κ) (m : JsMap κ β) (k : κ) :
    (l.foldl erase m).get? k = if k ∈ l then none else m.get? k := by
  induction l generalizing m with
  | nil => simp
  | cons k' l ih =>
    rw [List.foldl_cons, ih, get?_erase]
    by_cases h : k' = k
    · simp [h]
    · simp [h, Ne.symm h]

/-! ## Maps of lists as one multiset -/

theorem flatten_setEntry_tail {x : β} {xs : List β} {l : List (κ × List β)} (h : findEntry k l = some (x :: xs)) :
    (l.map Prod.snd).flatten.Perm (x :: ((setEntry k xs l).map Prod.snd).flatten) := by
  induction l with
  | nil => cases h
  | cons e l ih =>
    by_cases hk : e.1 = k
    · simp only [findEntry, hk, if_true, Option.some.injEq] at h
      simp [setEntry, hk, h]
    · simp only [findEntry, hk, if_false] at h
      simp only [setEntry, hk, if_false, List.map_cons, List.flatten_cons]
      exact ((ih h).append_left e.2).trans List.perm_middle

/-- Removing the head of a key's list removes that element from the map. -/
theorem flatten_values_set_tail {m : JsMap κ (List β)} {x : β} {xs : List β} (h : m.get? k = some (x :: xs)) :
    m.values.flatten.Perm (x :: (m.set k xs).values.flatten) :=
  flatten_setEntry_tail h

theorem flatten_setEntry_push (k : κ) (x : β) (l : List (κ × List β)) :
    ((setEntry k ((findEntry k l).getD [] ++ [x]) l).map Prod.snd).flatten.Perm
      (x :: (l.map Prod.snd).flatten) := by
  induction l with
  | nil => simp [setEntry, findEntry]
  | cons e l ih =>
    by_cases hk : e.1 = k
    · simp only [setEntry, findEntry, hk, if_true, Option.getD_some, List.map_cons,
        List.flatten_cons, List.append_assoc]
      exact List.perm_middle
    · simp only [setEntry, findEntry, hk, if_false, List.map_cons, List.flatten_cons]
      exact (ih.append_left e.2).trans List.perm_middle

theorem flatten_values_foldl_push (l : List (κ × β)) (m : JsMap κ (List β)) :
    (l.foldl (fun m e => m.push e.1 e.2) m).values.flatten.Perm
      (m.values.flatten ++ l.map Prod.snd) := by
  induction l generalizing m with
  | nil => simp
  | cons e l ih =>
    refine (ih _).trans ?_
    have h := (flatten_setEntry_push e.1 e.2 m.entries).append_right (l.map Prod.snd)
    exact h.trans List.perm_middle.symm

/-- **Grouping loses and adds nothing.** -/
theorem flatten_values_group (l : List (κ × β)) :
    (group l).values.flatten.Perm (l.map Prod.snd) := by
  simpa [group, values] using flatten_values_foldl_push l empty

end JsMap

end Keeper
