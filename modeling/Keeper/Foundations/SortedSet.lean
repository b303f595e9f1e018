import Keeper.Foundations.Redis
import Mathlib.Data.Int.ConditionallyCompleteOrder
import Mathlib.Data.List.Nodup
import Mathlib.Data.List.Perm.Subperm
import Mathlib.Order.Basic
import Mathlib.Tactic.SplitIfs

/-!
# Sorted sets of Redis

A sorted set holds members with a score each, ordered by the score and, where scores are equal, by the
member. A set that becomes empty has no key.

* `SortedSet.length_le_card`: different members count.
* `SortedSet.not_before_of_first`: nothing comes before the first element.
* `Key.sorted_update`, `Key.LastsUntil`: what a command makes of the elements and of the expiry.
-/

namespace Keeper

namespace Redis

/-- A member of a sorted set. -/
@[ext] structure Scored (α : Type*) where
  member : α
  score : ℤ
  deriving DecidableEq

/-- The order of a sorted set. -/
def Scored.Before {α : Type*} [LT α] (a b : Scored α) : Prop :=
  a.score < b.score ∨ a.score = b.score ∧ a.member < b.member

instance {α : Type*} [LT α] [DecidableLT α] (a b : Scored α) : Decidable (a.Before b) :=
  inferInstanceAs (Decidable (_ ∨ _))

/-- A sorted set: each member occurs once. -/
structure SortedSet (α : Type*) where
  entries : List (Scored α)
  nodup : (entries.map (·.member)).Nodup

namespace SortedSet

variable {α : Type*}

instance : EmptyCollection (SortedSet α) := ⟨⟨[], List.nodup_nil⟩⟩

@[ext] theorem ext {s t : SortedSet α} (h : s.entries = t.entries) : s = t := by
  cases s
  cases t
  cases h
  rfl

/-- The members for which a condition holds. -/
def filter (p : Scored α → Bool) (s : SortedSet α) : SortedSet α where
  entries := s.entries.filter p
  nodup := s.nodup.sublist (List.filter_sublist.map _)

/-- `ZREMRANGEBYSCORE key -inf max`. -/
def removeUpTo (max : ℤ) (s : SortedSet α) : SortedSet α := s.filter fun entry => max < entry.score

/-- `ZCARD`. -/
def card (s : SortedSet α) : ℕ := s.entries.length

section Members

variable [DecidableEq α]

/-- `ZREM`. -/
def remove (member : α) (s : SortedSet α) : SortedSet α := s.filter (·.member ≠ member)

/-- `ZADD`. -/
def add (score : ℤ) (member : α) (s : SortedSet α) : SortedSet α where
  entries := ⟨member, score⟩ :: (s.remove member).entries
  nodup := by
    refine List.nodup_cons.2 ⟨fun hmem => ?_, (s.remove member).nodup⟩
    obtain ⟨entry, hentry, heq⟩ := List.mem_map.1 hmem
    exact of_decide_eq_true (List.mem_filter.1 hentry).2 heq

/-- `ZSCORE`. -/
def score? (member : α) (s : SortedSet α) : Option ℤ :=
  (s.entries.find? (·.member = member)).map (·.score)

/-- `ZADD NX`. -/
def addNew (score : ℤ) (member : α) (s : SortedSet α) : SortedSet α :=
  if (s.score? member).isSome then s else s.add score member

end Members

/-- The first of some elements. -/
def least [LT α] [DecidableLT α] : List (Scored α) → Option (Scored α)
  | [] => none
  | a :: l =>
    match least l with
    | none => some a
    | some b => if b.Before a then some b else some a

/-- `ZRANGE key 0 0`. -/
def first [LT α] [DecidableLT α] (s : SortedSet α) : Option (Scored α) := least s.entries

/-! ## Elements -/

variable {s : SortedSet α} {entry : Scored α} {member : α} {score : ℤ}

@[simp] theorem entries_empty : (∅ : SortedSet α).entries = [] := rfl

@[simp] theorem mem_filter {p : Scored α → Bool} :
    entry ∈ (s.filter p).entries ↔ entry ∈ s.entries ∧ p entry = true :=
  List.mem_filter

@[simp] theorem mem_removeUpTo {max : ℤ} :
    entry ∈ (s.removeUpTo max).entries ↔ entry ∈ s.entries ∧ max < entry.score := by
  rw [removeUpTo, mem_filter, decide_eq_true_eq]

theorem score_unique {score' : ℤ} (h : ⟨member, score⟩ ∈ s.entries)
    (h' : ⟨member, score'⟩ ∈ s.entries) : score = score' := by
  have heq := List.inj_on_of_nodup_map s.nodup h h' rfl
  exact (Scored.mk.inj heq).2

/-- **Different members count.** -/
theorem length_le_card {members : List α} (hnodup : members.Nodup)
    (h : ∀ member ∈ members, ∃ score, ⟨member, score⟩ ∈ s.entries) : members.length ≤ s.card := by
  have hsub : members ⊆ s.entries.map (·.member) := by
    intro member hmem
    obtain ⟨score, hentry⟩ := h member hmem
    exact List.mem_map.2 ⟨_, hentry, rfl⟩
  have hle := (hnodup.subperm hsub).length_le
  rwa [List.length_map] at hle

section Members

variable [DecidableEq α] {other : α}

@[simp] theorem mem_remove :
    entry ∈ (s.remove member).entries ↔ entry ∈ s.entries ∧ entry.member ≠ member := by
  rw [remove, mem_filter, decide_eq_true_eq]

@[simp] theorem mem_add : entry ∈ (s.add score member).entries ↔
    entry = ⟨member, score⟩ ∨ entry ∈ s.entries ∧ entry.member ≠ member := by
  rw [add, List.mem_cons, mem_remove]

theorem score?_eq_some : s.score? member = some score ↔ ⟨member, score⟩ ∈ s.entries := by
  rw [score?, Option.map_eq_some_iff]
  constructor
  · rintro ⟨entry, hfind, rfl⟩
    have hmember : entry.member = member := of_decide_eq_true (List.find?_some hfind :)
    rw [← hmember]
    exact List.mem_of_find?_eq_some hfind
  · intro hmem
    have hsome : (s.entries.find? (·.member = member)).isSome := by
      rw [List.find?_isSome]
      exact ⟨_, hmem, decide_eq_true rfl⟩
    obtain ⟨entry, hfind⟩ := Option.isSome_iff_exists.1 hsome
    refine ⟨entry, hfind, ?_⟩
    have hmember : entry.member = member := of_decide_eq_true (List.find?_some hfind :)
    refine score_unique ?_ hmem
    rw [← hmember]
    exact List.mem_of_find?_eq_some hfind

theorem score?_eq_none : s.score? member = none ↔ ∀ score, ⟨member, score⟩ ∉ s.entries := by
  rw [Option.eq_none_iff_forall_ne_some]
  exact forall_congr' fun score => not_congr score?_eq_some

/-- `ZADD NX` keeps what is there, and brings its member if it is new. -/
theorem mem_addNew : entry ∈ (s.addNew score member).entries ↔
    entry ∈ s.entries ∨ s.score? member = none ∧ entry = ⟨member, score⟩ := by
  rw [addNew]
  split_ifs with hsome
  · refine ⟨Or.inl, fun h => h.resolve_right fun hnew => ?_⟩
    rw [hnew.1] at hsome
    cases hsome
  · have hnone := Option.not_isSome_iff_eq_none.1 hsome
    rw [mem_add]
    constructor
    · rintro (rfl | ⟨hmem, -⟩)
      · exact Or.inr ⟨hnone, rfl⟩
      · exact Or.inl hmem
    · rintro (hmem | ⟨-, rfl⟩)
      · refine Or.inr ⟨hmem, fun heq => ?_⟩
        rw [← heq] at hnone
        exact score?_eq_none.1 hnone _ hmem
      · exact Or.inl rfl

end Members

/-! ## The first element -/

section First

variable [LinearOrder α]

theorem Before.trans {a b c : Scored α} (hab : a.Before b) (hbc : b.Before c) : a.Before c := by
  rcases hab with hab | ⟨hab, hab'⟩
  · rcases hbc with hbc | ⟨hbc, -⟩
    · exact Or.inl (by omega)
    · exact Or.inl (by omega)
  · rcases hbc with hbc | ⟨hbc, hbc'⟩
    · exact Or.inl (by omega)
    · exact Or.inr ⟨by omega, lt_trans hab' hbc'⟩

theorem Before.irrefl (a : Scored α) : ¬ a.Before a := by
  rintro (h | ⟨-, h⟩)
  · omega
  · exact lt_irrefl _ h

theorem Before.trichotomy (a b : Scored α) : a.Before b ∨ a = b ∨ b.Before a := by
  rcases Int.lt_trichotomy a.score b.score with hlt | heq | hgt
  · exact Or.inl (Or.inl hlt)
  · rcases lt_trichotomy a.member b.member with hlt | heq' | hgt
    · exact Or.inl (Or.inr ⟨heq, hlt⟩)
    · refine Or.inr (Or.inl ?_)
      cases a
      cases b
      cases heq
      cases heq'
      rfl
    · exact Or.inr (Or.inr (Or.inr ⟨heq.symm, hgt⟩))
  · exact Or.inr (Or.inr (Or.inl hgt))

theorem least_eq_none {l : List (Scored α)} : least l = none ↔ l = [] := by
  cases l with
  | nil => exact iff_of_true rfl rfl
  | cons a l =>
    refine iff_of_false ?_ (List.cons_ne_nil a l)
    rw [least]
    split
    · simp
    · split_ifs <;> simp

/-- The first of some elements is one of them, and none comes before it. -/
theorem mem_least {l : List (Scored α)} {a : Scored α} (h : least l = some a) :
    a ∈ l ∧ ∀ b ∈ l, ¬ b.Before a := by
  induction l generalizing a with
  | nil => cases h
  | cons c l ih =>
    rw [least] at h
    split at h
    · next hnone =>
      rw [least_eq_none] at hnone
      subst hnone
      obtain rfl := Option.some.inj h
      refine ⟨List.mem_singleton_self _, fun b hb => ?_⟩
      rw [List.mem_singleton.1 hb]
      exact Before.irrefl c
    · next d hd =>
      obtain ⟨hmem, hleast⟩ := ih hd
      split_ifs at h with hbefore
      · obtain rfl := Option.some.inj h
        refine ⟨List.mem_cons_of_mem _ hmem, fun b hb => ?_⟩
        rcases List.mem_cons.1 hb with rfl | hb
        · exact fun hback => Before.irrefl _ (Before.trans hback hbefore)
        · exact hleast b hb
      · obtain rfl := Option.some.inj h
        refine ⟨List.mem_cons_self, fun b hb hback => ?_⟩
        rcases List.mem_cons.1 hb with rfl | hb
        · exact Before.irrefl _ hback
        · -- the first of the rest does not come before the element, so it comes after it
          refine hleast b hb ?_
          rcases Before.trichotomy c d with hlt | rfl | hgt
          · exact Before.trans hback hlt
          · exact hback
          · exact absurd hgt hbefore

theorem first_eq_none : s.first = none ↔ s.entries = [] := least_eq_none

theorem mem_of_first (h : s.first = some entry) : entry ∈ s.entries := (mem_least h).1

/-- **Nothing comes before the first element.** -/
theorem not_before_of_first {other : Scored α} (h : s.first = some entry) (hmem : other ∈ s.entries) :
    ¬ other.Before entry :=
  (mem_least h).2 other hmem

/-- **The first element** is the one that nothing comes before. -/
theorem first_eq_some : s.first = some entry ↔
    entry ∈ s.entries ∧ ∀ other ∈ s.entries, ¬ other.Before entry := by
  refine ⟨mem_least, ?_⟩
  rintro ⟨hmem, hleast⟩
  cases hfirst : s.first with
  | none =>
    rw [first_eq_none] at hfirst
    rw [hfirst] at hmem
    cases hmem
  | some other =>
    rcases Before.trichotomy entry other with hlt | rfl | hgt
    · exact absurd hlt (not_before_of_first hfirst hmem)
    · rfl
    · exact absurd hgt (hleast other (mem_of_first hfirst))

theorem first_filter {p : Scored α → Bool} (h : s.first = some entry) (hp : p entry = true) :
    (s.filter p).first = some entry := by
  rw [first_eq_some] at h ⊢
  refine ⟨mem_filter.2 ⟨h.1, hp⟩, fun other hother => h.2 other (mem_filter.1 hother).1⟩

/-- The first element stays the first one where a member is added that does not come before it. -/
theorem first_addNew (h : s.first = some entry)
    (hnew : s.score? member = none → ¬ Scored.Before ⟨member, score⟩ entry) :
    (s.addNew score member).first = some entry := by
  rw [first_eq_some] at h ⊢
  refine ⟨mem_addNew.2 (Or.inl h.1), fun other hother => ?_⟩
  rcases mem_addNew.1 hother with hmem | ⟨hnone, rfl⟩
  · exact h.2 other hmem
  · exact hnew hnone

end First

end SortedSet

/-! ## Keys -/

namespace Key

variable {α : Type*} {key : Key (SortedSet α)} {now bound : ℤ}

def sorted (key : Key (SortedSet α)) : SortedSet α := key.get.getD ∅

def update (f : SortedSet α → SortedSet α) (key : Key (SortedSet α)) : Key (SortedSet α) :=
  if (f key.sorted).entries.isEmpty then none
  else some { value := f key.sorted, expiresAt := key.bind (·.expiresAt) }

/-- `PEXPIRE key milliseconds`. -/
def pexpire {β : Type*} (now milliseconds : ℤ) (key : Key β) : Key β :=
  key.map fun entry => { entry with expiresAt := some (now + milliseconds) }

/-- A key does not expire before a time. -/
def LastsUntil {β : Type*} (bound : ℤ) (key : Key β) : Prop :=
  ∀ expiresAt, key.bind (·.expiresAt) = some expiresAt → bound ≤ expiresAt

@[simp] theorem sorted_none : sorted (none : Key (SortedSet α)) = ∅ := rfl

@[simp] theorem sorted_update (f : SortedSet α → SortedSet α) : (key.update f).sorted = f key.sorted := by
  rw [update]
  split_ifs with hempty
  · rw [sorted_none]
    ext1
    exact (List.isEmpty_iff.1 hempty).symm
  · rfl

@[simp] theorem sorted_pexpire (now milliseconds : ℤ) :
    (key.pexpire now milliseconds).sorted = key.sorted := by
  cases key <;> rfl

theorem LastsUntil.update (h : key.LastsUntil bound) (f : SortedSet α → SortedSet α) :
    (key.update f).LastsUntil bound := by
  intro expiresAt hexpires
  rw [Key.update] at hexpires
  split_ifs at hexpires
  · cases hexpires
  · exact h expiresAt hexpires

theorem LastsUntil.elapse {β : Type*} {key : Key β} (h : key.LastsUntil bound) (now : ℤ) :
    (key.elapse now).LastsUntil bound := by
  intro expiresAt hexpires
  cases key with
  | none => cases hexpires
  | some entry =>
    rw [Key.elapse, Option.filter_some] at hexpires
    split_ifs at hexpires
    · exact h expiresAt hexpires
    · cases hexpires

theorem LastsUntil.pexpire {β : Type*} {key : Key β} {milliseconds : ℤ}
    (h : bound ≤ now + milliseconds) : (key.pexpire now milliseconds).LastsUntil bound := by
  intro expiresAt hexpires
  cases key with
  | none => cases hexpires
  | some entry =>
    obtain rfl : now + milliseconds = expiresAt := Option.some.inj hexpires
    exact h

/-- **A key that lasts** is there. -/
theorem LastsUntil.elapse_eq {β : Type*} {key : Key β} (h : key.LastsUntil bound) (hnow : now < bound) :
    key.elapse now = key := by
  cases key with
  | none => rfl
  | some entry =>
    rw [Key.elapse, Option.filter_some, if_pos]
    rw [Option.all_eq_true]
    intro expiresAt hexpires
    have hbound := h expiresAt hexpires
    exact decide_eq_true (by omega)

theorem mem_foldl_add [DecidableEq α] {entry : Scored α} {members : List α} {score : ℤ} :
    entry ∈ (members.foldl (fun key member => key.update (·.add score member)) key).sorted.entries ↔
      entry.member ∈ members ∧ entry.score = score ∨
        entry ∈ key.sorted.entries ∧ entry.member ∉ members := by
  induction members generalizing key with
  | nil => simp
  | cons member members ih =>
    rw [List.foldl_cons, ih, sorted_update, SortedSet.mem_add, List.mem_cons]
    by_cases hmem : entry.member ∈ members
    · simp [hmem]
    · by_cases heq : entry.member = member
      · subst heq
        simp [hmem, Scored.ext_iff]
      · simp [hmem, heq, Scored.ext_iff]

theorem mem_of_elapse_sorted {entry : Scored α} (h : entry ∈ (key.elapse now).sorted.entries) :
    entry ∈ key.sorted.entries := by
  cases key with
  | none => exact h
  | some value =>
    rw [elapse, Option.filter_some] at h
    split_ifs at h
    · exact h
    · cases h

end Key

end Redis

end Keeper
