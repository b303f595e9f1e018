import Keeper.FlushWorker.Worker
import Mathlib.Data.Multiset.Filter
import Mathlib.Data.Multiset.MapFold
import Mathlib.Data.Multiset.OrderedMonoid

/-!
# The items of a flush worker

What a worker is for, by its items alone: each is refused, or waits for a place in the queue, is queued,
begun, run and finished, and its promise is settled on the way. Writer slots, weights and the pump
decide when this happens, but not how.

* `ItemInv.step`, `OrderInv.step`: what every movement of an item keeps.
-/

namespace Keeper

namespace FlushWorker

/-! ## Movements -/

/-- The items of a worker by their places, with what was run and accepted, and the promises. -/
structure Items where
  queue : List Entry
  parked : List Entry
  begun : Multiset Entry
  running : Multiset Entry
  finished : Multiset Entry
  runs : List Entry
  accepted : List Entry
  expired : List ℕ
  outcomes : ℕ → Option Outcome
  nextItem : ℕ

/-- Promises that are settled stay as they are. -/
def Keeps (outcomes outcomes' : ℕ → Option Outcome) : Prop :=
  ∀ id outcome, outcomes id = some outcome → outcomes' id = some outcome

/-- One movement, while reservations may be submitted that `R` tells. -/
inductive ItemStep (R : ℕ → Prop) (i : Items) : Items → Prop
  | refuse (outcome : Outcome) :
    ItemStep R i { i with
      outcomes := settled i.outcomes i.nextItem outcome
      nextItem := i.nextItem + 1 }
  | park (entry : Entry) (hid : entry.id = i.nextItem) (hplain : entry.settle = none) :
    ItemStep R i { i with parked := i.parked ++ [entry], nextItem := i.nextItem + 1 }
  | enter (entry : Entry) (hid : entry.id = i.nextItem)
      (hplain : entry.settle = none → i.parked = [])
      (hreserved : ∀ reservation, entry.settle = some reservation → R reservation) :
    ItemStep R i { i with
      queue := i.queue ++ [entry]
      accepted := i.accepted ++ [entry]
      nextItem := i.nextItem + 1 }
  | grant (entry : Entry) (rest : List Entry) (hparked : i.parked = entry :: rest) :
    ItemStep R i { i with
      parked := rest
      queue := i.queue ++ [entry]
      accepted := i.accepted ++ [entry] }
  | begin (entry : Entry) (rest : List Entry) (hqueue : i.queue = entry :: rest)
      (hprepares : entry.prepares = true) :
    ItemStep R i { i with queue := rest, begun := entry ::ₘ i.begun }
  | start (entry : Entry) (rest : List Entry) (hqueue : i.queue = entry :: rest)
      (hprepares : entry.prepares = false) :
    ItemStep R i { i with
      queue := rest
      running := entry ::ₘ i.running
      runs := i.runs ++ [entry] }
  | abortQueued (entry : Entry) (hentry : entry ∈ i.queue) (hplain : entry.settle = none)
      (outcome : Outcome) :
    ItemStep R i { i with
      queue := i.queue.erase entry
      outcomes := settled i.outcomes entry.id outcome }
  | abortParked (id : ℕ) (outcome : Outcome) :
    ItemStep R i { i with
      parked := i.parked.filter (·.id ≠ id)
      outcomes := settled i.outcomes id outcome }
  | reject (outcomes : ℕ → Option Outcome) (hkeeps : Keeps i.outcomes outcomes)
      (hsettled : ∀ entry ∈ i.parked, outcomes entry.id ≠ none) :
    ItemStep R i { i with parked := [], outcomes := outcomes }
  | settle (outcomes : ℕ → Option Outcome) (hkeeps : Keeps i.outcomes outcomes) :
    ItemStep R i { i with outcomes := outcomes }
  | expire (id : ℕ) (outcome : Outcome) :
    ItemStep R i { i with
      expired := id :: i.expired
      outcomes := settled i.outcomes id outcome }
  | skip (entry : Entry) (hentry : entry ∈ i.begun) (hsettled : i.outcomes entry.id ≠ none) :
    ItemStep R i { i with
      begun := i.begun.erase entry
      finished := entry ::ₘ i.finished }
  | claim (entry : Entry) (hentry : entry ∈ i.begun) :
    ItemStep R i { i with
      begun := i.begun.erase entry
      running := entry ::ₘ i.running
      runs := i.runs ++ [entry] }
  | finish (entry : Entry) (hentry : entry ∈ i.running) (hsettled : i.outcomes entry.id ≠ none) :
    ItemStep R i { i with
      running := i.running.erase entry
      finished := entry ::ₘ i.finished }

/-- Movements one after the other. -/
inductive ItemSteps (R : ℕ → Prop) : Items → Items → Prop
  | refl (i : Items) : ItemSteps R i i
  | next {i i' i'' : Items} (hstep : ItemStep R i i') (hsteps : ItemSteps R i' i'') :
    ItemSteps R i i''

variable {R : ℕ → Prop}

variable {i i' : Items} {outcomes outcomes' : ℕ → Option Outcome} {entry : Entry}

theorem ItemStep.steps (h : ItemStep R i i') : ItemSteps R i i' := .next h (.refl i')

theorem ItemSteps.trans {i'' : Items} (h : ItemSteps R i i') (h' : ItemSteps R i' i'') : ItemSteps R i i'' := by
  induction h with
  | refl => exact h'
  | next hstep _ ih => exact .next hstep (ih h')

theorem ItemSteps.induction {P : Items → Prop} (hstep : ∀ i i', ItemStep R i i' → P i → P i') (h : ItemSteps R i i')
    (hi : P i) : P i' := by
  induction h with
  | refl => exact hi
  | next hfirst _ ih => exact ih (hstep _ _ hfirst hi)

/-! ## Promises -/

theorem settled_ne_none (outcomes : ℕ → Option Outcome) (id : ℕ) (outcome : Outcome) :
    settled outcomes id outcome id ≠ none := by
  rw [settled, Function.update_self]
  exact Option.some_ne_none _

theorem settled_of_ne (outcomes : ℕ → Option Outcome) {id other : ℕ} (outcome : Outcome)
    (h : other ≠ id) : settled outcomes id outcome other = outcomes other :=
  Function.update_of_ne h _ _

theorem keeps_settled (outcomes : ℕ → Option Outcome) (id : ℕ) (outcome : Outcome) :
    Keeps outcomes (settled outcomes id outcome) := by
  intro other first hother
  by_cases h : other = id
  · rw [h] at hother ⊢
    rw [settled, Function.update_self, hother]
    rfl
  · rwa [settled_of_ne outcomes outcome h]

theorem Keeps.refl (outcomes : ℕ → Option Outcome) : Keeps outcomes outcomes := fun _ _ h => h

theorem Keeps.trans {outcomes'' : ℕ → Option Outcome} (h : Keeps outcomes outcomes') (h' : Keeps outcomes' outcomes'') :
    Keeps outcomes outcomes'' :=
  fun id outcome hid => h' id outcome (h id outcome hid)

theorem Keeps.ne_none (h : Keeps outcomes outcomes') {id : ℕ} (hid : outcomes id ≠ none) : outcomes' id ≠ none := by
  obtain ⟨outcome, houtcome⟩ := Option.ne_none_iff_exists'.1 hid
  rw [h id outcome houtcome]
  exact Option.some_ne_none _

theorem Keeps.eq_none (h : Keeps outcomes outcomes') {id : ℕ} (hid : outcomes' id = none) : outcomes id = none := by
  by_contra hne
  exact h.ne_none hne hid

/-- **A settled promise** is never settled again. -/
theorem keeps_step (h : ItemStep R i i') : Keeps i.outcomes i'.outcomes := by
  cases h with
  | refuse outcome => exact keeps_settled _ _ _
  | abortQueued entry _ _ outcome => exact keeps_settled _ _ _
  | abortParked id outcome => exact keeps_settled _ _ _
  | reject outcomes hkeeps _ => exact hkeeps
  | settle outcomes hkeeps => exact hkeeps
  | expire id outcome => exact keeps_settled _ _ _
  | _ => exact Keeps.refl _

/-! ## Places -/

def Items.unfinished (i : Items) : Multiset Entry :=
  (i.queue : Multiset Entry) + i.parked + i.begun + i.running

def Items.all (i : Items) : Multiset Entry := i.unfinished + i.finished

/-- Every item is in one place and has an id of its own; one that was run is running or finished; a
promise that is open belongs to an item that is not over and whose deadline has not expired. -/
structure ItemInv (i : Items) : Prop where
  nodup : (i.all.map (·.id)).Nodup
  known : ∀ entry ∈ i.all, entry.id < i.nextItem
  runs : (i.runs : Multiset Entry) ≤ i.running + i.finished
  pending : ∀ id < i.nextItem, i.outcomes id = none → ∃ entry ∈ i.unfinished, entry.id = id
  expired : ∀ id ∈ i.expired, i.outcomes id ≠ none

theorem coe_append_singleton (l : List Entry) (entry : Entry) :
    ((l ++ [entry] : List Entry) : Multiset Entry) = entry ::ₘ l := by
  rw [← Multiset.coe_add, Multiset.coe_singleton, Multiset.add_comm, Multiset.singleton_add]

theorem all_le (hqueue : (i'.queue : Multiset Entry) ≤ i.queue) (hparked : (i'.parked : Multiset Entry) ≤ i.parked)
    (hbegun : i'.begun = i.begun) (hrunning : i'.running = i.running) (hfinished : i'.finished = i.finished) :
    i'.all ≤ i.all := by
  rw [Items.all, Items.unfinished, hbegun, hrunning, hfinished]
  exact add_le_add_left (add_le_add_left (add_le_add_left (add_le_add hqueue hparked) _) _) _

/-- **A movement** takes an item to another place, adds a new one, or gives some up. -/
theorem all_step (h : ItemStep R i i') : i'.all ≤ i.all ∧ i.nextItem ≤ i'.nextItem ∨
      ∃ entry, entry.id = i.nextItem ∧
        (∀ reservation, entry.settle = some reservation → R reservation) ∧
        i'.all = entry ::ₘ i.all ∧ i'.nextItem = i.nextItem + 1 := by
  cases h with
  | refuse outcome => exact Or.inl ⟨le_rfl, Nat.le_succ _⟩
  | park entry hid hplain =>
    refine Or.inr ⟨entry, hid, fun reservation hsome => ?_, ?_, rfl⟩
    · rw [hplain] at hsome
      cases hsome
    simp only [Items.all, Items.unfinished, coe_append_singleton, Multiset.cons_add,
      Multiset.add_cons]
  | enter entry hid hplain hreserved =>
    refine Or.inr ⟨entry, hid, hreserved, ?_, rfl⟩
    simp only [Items.all, Items.unfinished, coe_append_singleton, Multiset.cons_add]
  | grant entry rest hparked =>
    refine Or.inl ⟨le_of_eq ?_, le_rfl⟩
    simp only [Items.all, Items.unfinished, hparked, coe_append_singleton, ← Multiset.cons_coe,
      Multiset.cons_add, Multiset.add_cons]
  | begin entry rest hqueue hprepares =>
    refine Or.inl ⟨le_of_eq ?_, le_rfl⟩
    simp only [Items.all, Items.unfinished, hqueue, ← Multiset.cons_coe, Multiset.cons_add,
      Multiset.add_cons]
  | start entry rest hqueue hprepares =>
    refine Or.inl ⟨le_of_eq ?_, le_rfl⟩
    simp only [Items.all, Items.unfinished, hqueue, ← Multiset.cons_coe, Multiset.cons_add,
      Multiset.add_cons]
  | abortQueued entry hentry hplain outcome =>
    exact Or.inl ⟨all_le (Multiset.coe_le.2 List.erase_sublist.subperm) le_rfl rfl rfl rfl, le_rfl⟩
  | abortParked id outcome =>
    exact Or.inl ⟨all_le le_rfl (Multiset.coe_le.2 List.filter_sublist.subperm) rfl rfl rfl, le_rfl⟩
  | reject outcomes hkeeps hsettled =>
    exact Or.inl ⟨all_le le_rfl (Multiset.zero_le _) rfl rfl rfl, le_rfl⟩
  | settle outcomes hkeeps => exact Or.inl ⟨le_rfl, le_rfl⟩
  | expire id outcome => exact Or.inl ⟨le_rfl, le_rfl⟩
  | skip entry hentry hsettled =>
    obtain ⟨others, hothers⟩ := Multiset.exists_cons_of_mem hentry
    refine Or.inl ⟨le_of_eq ?_, le_rfl⟩
    simp only [Items.all, Items.unfinished, hothers, Multiset.erase_cons_head, Multiset.cons_add,
      Multiset.add_cons]
  | claim entry hentry =>
    obtain ⟨others, hothers⟩ := Multiset.exists_cons_of_mem hentry
    refine Or.inl ⟨le_of_eq ?_, le_rfl⟩
    simp only [Items.all, Items.unfinished, hothers, Multiset.erase_cons_head, Multiset.cons_add,
      Multiset.add_cons]
  | finish entry hentry hsettled =>
    obtain ⟨others, hothers⟩ := Multiset.exists_cons_of_mem hentry
    refine Or.inl ⟨le_of_eq ?_, le_rfl⟩
    simp only [Items.all, Items.unfinished, hothers, Multiset.erase_cons_head, Multiset.cons_add,
      Multiset.add_cons]

theorem runs_step (h : ItemStep R i i') (hi : (i.runs : Multiset Entry) ≤ i.running + i.finished) :
    (i'.runs : Multiset Entry) ≤ i'.running + i'.finished := by
  cases h with
  | start entry rest hqueue hprepares =>
    dsimp only
    rw [coe_append_singleton, Multiset.cons_add]
    exact Multiset.cons_le_cons _ hi
  | claim entry hentry =>
    dsimp only
    rw [coe_append_singleton, Multiset.cons_add]
    exact Multiset.cons_le_cons _ hi
  | skip entry hentry hsettled =>
    refine hi.trans ?_
    rw [Multiset.add_cons]
    exact Multiset.le_cons_self _ _
  | finish entry hentry hsettled =>
    obtain ⟨others, hothers⟩ := Multiset.exists_cons_of_mem hentry
    refine hi.trans (le_of_eq ?_)
    simp only [hothers, Multiset.erase_cons_head, Multiset.cons_add, Multiset.add_cons]
  | _ => exact hi

theorem mem_unfinished : entry ∈ i.unfinished ↔
    entry ∈ i.queue ∨ entry ∈ i.parked ∨ entry ∈ i.begun ∨ entry ∈ i.running := by
  simp only [Items.unfinished, Multiset.mem_add, Multiset.mem_coe, or_assoc]

theorem leaves_settled (h : ItemStep R i i') (hentry : entry ∈ i.unfinished) (hopen : i'.outcomes entry.id = none) :
    entry ∈ i'.unfinished := by
  rw [mem_unfinished] at hentry ⊢
  cases h with
  | park new hid hplain =>
    exact hentry.imp_right (Or.imp_left fun hparked => List.mem_append_left _ hparked)
  | enter new hid hplain hreserved => exact hentry.imp_left fun hqueue => List.mem_append_left _ hqueue
  | grant first rest hparked =>
    rw [hparked, List.mem_cons] at hentry
    dsimp only
    rw [List.mem_append, List.mem_singleton]
    tauto
  | begin first rest hqueue hprepares =>
    rw [hqueue, List.mem_cons] at hentry
    dsimp only
    rw [Multiset.mem_cons]
    tauto
  | start first rest hqueue hprepares =>
    rw [hqueue, List.mem_cons] at hentry
    dsimp only
    rw [Multiset.mem_cons]
    tauto
  | abortQueued aborted haborted hplain outcome =>
    refine hentry.imp_left fun hqueue => (List.mem_erase_of_ne ?_).2 hqueue
    rintro rfl
    exact settled_ne_none _ _ _ hopen
  | abortParked id outcome =>
    refine hentry.imp_right (Or.imp_left fun hparked => List.mem_filter.2 ⟨hparked, ?_⟩)
    rw [decide_eq_true_eq]
    rintro rfl
    exact settled_ne_none _ _ _ hopen
  | reject outcomes hkeeps hsettled =>
    exact hentry.imp_right (Or.imp_left fun hparked => absurd hopen (hsettled entry hparked))
  | skip done hdone hsettled =>
    refine hentry.imp_right (Or.imp_right (Or.imp_left fun hbegun => ?_))
    refine (Multiset.mem_erase_of_ne ?_).2 hbegun
    rintro rfl
    exact hsettled hopen
  | claim first hfirst =>
    dsimp only
    rw [Multiset.mem_cons]
    by_cases hne : entry = first
    · exact Or.inr (Or.inr (Or.inr (Or.inl hne)))
    · rw [Multiset.mem_erase_of_ne hne]
      tauto
  | finish done hdone hsettled =>
    refine hentry.imp_right (Or.imp_right (Or.imp_right fun hrunning => ?_))
    refine (Multiset.mem_erase_of_ne ?_).2 hrunning
    rintro rfl
    exact hsettled hopen
  | _ => exact hentry

theorem new_settled (h : ItemStep R i i') {id : ℕ} (hnew : i.nextItem ≤ id) (hid : id < i'.nextItem)
    (hopen : i'.outcomes id = none) : ∃ entry ∈ i'.unfinished,
      entry.id = id := by
  cases h with
  | refuse outcome =>
    obtain rfl : id = i.nextItem := by
      dsimp only at hid
      omega
    exact absurd hopen (settled_ne_none _ _ _)
  | park entry hentry hplain =>
    refine ⟨entry, mem_unfinished.2 (Or.inr (Or.inl ?_)), ?_⟩
    · exact List.mem_append_right _ List.mem_cons_self
    · dsimp only at hid
      omega
  | enter entry hentry hplain =>
    refine ⟨entry, mem_unfinished.2 (Or.inl ?_), ?_⟩
    · exact List.mem_append_right _ List.mem_cons_self
    · dsimp only at hid
      omega
  | _ => exact absurd hid (not_lt.2 hnew)

/-- **Every movement keeps the items.** -/
theorem ItemInv.step (hi : ItemInv i) (h : ItemStep R i i') : ItemInv i' where
  nodup := by
    rcases all_step h with ⟨hle, -⟩ | ⟨entry, hid, -, hall, -⟩
    · exact Multiset.nodup_of_le (Multiset.map_le_map hle) hi.nodup
    · rw [hall, Multiset.map_cons, Multiset.nodup_cons]
      refine ⟨fun hmem => ?_, hi.nodup⟩
      obtain ⟨other, hother, heq⟩ := Multiset.mem_map.1 hmem
      have hknown := hi.known other hother
      omega
  known := by
    intro entry hentry
    rcases all_step h with ⟨hle, hnext⟩ | ⟨new, hid, -, hall, hnext⟩
    · exact (hi.known entry (Multiset.mem_of_le hle hentry)).trans_le hnext
    · rw [hall, Multiset.mem_cons] at hentry
      rcases hentry with rfl | hold
      · omega
      · have hknown := hi.known entry hold
        omega
  runs := runs_step h hi.runs
  pending := by
    intro id hid hopen
    by_cases hold : id < i.nextItem
    · obtain ⟨entry, hentry, rfl⟩ := hi.pending id hold ((keeps_step h).eq_none hopen)
      exact ⟨entry, leaves_settled h hentry hopen, rfl⟩
    · exact new_settled h (not_lt.1 hold) hid hopen
  expired := by
    intro id hid
    have hkeeps := keeps_step h
    cases h with
    | expire expired outcome =>
      rcases List.mem_cons.1 hid with rfl | hold
      · exact settled_ne_none _ _ _
      · exact hkeeps.ne_none (hi.expired id hold)
    | _ => exact hkeeps.ne_none (hi.expired id hid)

theorem reserved_kept (h : ItemStep R i i') (hparked : ∀ entry ∈ i.parked, entry.settle = none)
    (hentry : entry ∈ i.all) (hsettle : entry.settle ≠ none) : entry ∈ i'.all := by
  have hmem : ∀ i : Items, entry ∈ i.all ↔ entry ∈ i.queue ∨ entry ∈ i.parked ∨ entry ∈ i.begun ∨
      entry ∈ i.running ∨ entry ∈ i.finished := fun i => by
    simp only [Items.all, Multiset.mem_add, mem_unfinished, or_assoc]
  have hnot : entry ∉ i.parked := fun hpark => hsettle (hparked entry hpark)
  rw [hmem] at hentry ⊢
  cases h with
  | enter new hid hplain hreserved =>
    exact hentry.imp_left fun hqueue => List.mem_append_left _ hqueue
  | grant first rest hfirst =>
    exact hentry.imp (List.mem_append_left _) fun hrest =>
      Or.inr (hrest.resolve_left hnot)
  | begin first rest hqueue hprepares =>
    rw [hqueue, List.mem_cons] at hentry
    dsimp only
    rw [Multiset.mem_cons]
    tauto
  | start first rest hqueue hprepares =>
    rw [hqueue, List.mem_cons] at hentry
    dsimp only
    rw [Multiset.mem_cons]
    tauto
  | abortQueued aborted haborted hplain outcome =>
    refine hentry.imp_left fun hqueue => (List.mem_erase_of_ne ?_).2 hqueue
    rintro rfl
    exact hsettle hplain
  | skip done hdone hsettled =>
    dsimp only
    rw [Multiset.mem_cons]
    by_cases hne : entry = done
    · exact Or.inr (Or.inr (Or.inr (Or.inr (Or.inl hne))))
    · rw [Multiset.mem_erase_of_ne hne]
      tauto
  | claim first hfirst =>
    dsimp only
    rw [Multiset.mem_cons]
    by_cases hne : entry = first
    · exact Or.inr (Or.inr (Or.inr (Or.inl (Or.inl hne))))
    · rw [Multiset.mem_erase_of_ne hne]
      tauto
  | finish done hdone hsettled =>
    dsimp only
    rw [Multiset.mem_cons]
    by_cases hne : entry = done
    · exact Or.inr (Or.inr (Or.inr (Or.inr (Or.inl hne))))
    · rw [Multiset.mem_erase_of_ne hne]
      tauto
  | settle outcomes hkeeps => exact hentry
  | expire item outcome => exact hentry
  | refuse outcome => exact hentry
  | _ => exact hentry.imp_right fun hrest => Or.inr (hrest.resolve_left hnot)

/-- A new item is plain, or that of a reservation that may be submitted. -/
theorem reserved_step (h : ItemStep R i i')
    (hi : ∀ entry ∈ i.all, ∀ reservation, entry.settle = some reservation → R reservation) :
    ∀ entry ∈ i'.all, ∀ reservation, entry.settle = some reservation → R reservation := by
  intro entry hentry
  rcases all_step h with ⟨hle, -⟩ | ⟨new, -, hreserved, hall, -⟩
  · exact hi entry (Multiset.mem_of_le hle hentry)
  · rw [hall, Multiset.mem_cons] at hentry
    rcases hentry with rfl | hold
    · exact hreserved
    · exact hi entry hold

/-! ## Order -/

/-- The plain items that were accepted, and those that are parked. -/
def Items.entering (i : Items) : List Entry := i.accepted.filter (·.settle = none) ++ i.parked

/-- Plain items wait and are accepted in the order of their submissions; those without a `prepare` are
run in the order in which they were accepted. -/
structure OrderInv (i : Items) : Prop where
  parked : ∀ entry ∈ i.parked, entry.settle = none
  begun : ∀ entry ∈ i.begun, entry.prepares = true
  known : ∀ entry ∈ i.entering, entry.id < i.nextItem
  entered : i.entering.Pairwise (·.id < ·.id)
  order : ((i.runs ++ i.queue).filter (!·.prepares)).Sublist (i.accepted.filter (!·.prepares))

theorem pairwise_append_new {l : List Entry} {next : ℕ} (h : l.Pairwise (·.id < ·.id))
    (hknown : ∀ entry ∈ l, entry.id < next) (hid : entry.id = next) :
    (l ++ [entry]).Pairwise (·.id < ·.id) ∧ ∀ other ∈ l ++ [entry], other.id < next + 1 := by
  constructor
  · refine List.pairwise_append.2 ⟨h, List.pairwise_singleton _ _, fun a ha b hb => ?_⟩
    rw [List.mem_singleton.1 hb, hid]
    exact hknown a ha
  · intro other hother
    rcases List.mem_append.1 hother with hold | hnew
    · exact Nat.lt_succ_of_lt (hknown other hold)
    · rw [List.mem_singleton.1 hnew, hid]
      exact Nat.lt_succ_self _

theorem entering_step (hi : OrderInv i) (h : ItemStep R i i') :
    i'.entering.Sublist i.entering ∧ i.nextItem ≤ i'.nextItem ∨
      ∃ entry, entry.id = i.nextItem ∧ i'.entering = i.entering ++ [entry] ∧
        i'.nextItem = i.nextItem + 1 := by
  cases h with
  | refuse outcome => exact Or.inl ⟨List.Sublist.refl _, Nat.le_succ _⟩
  | park entry hid hplain =>
    exact Or.inr ⟨entry, hid, (List.append_assoc _ _ _).symm, rfl⟩
  | enter entry hid hplain hreserved =>
    by_cases hsettle : entry.settle = none
    · refine Or.inr ⟨entry, hid, ?_, rfl⟩
      simp only [Items.entering, hplain hsettle, List.filter_append, List.append_nil,
        List.filter_cons, hsettle, List.filter_nil, decide_true, if_true]
    · refine Or.inl ⟨?_, Nat.le_succ _⟩
      simp only [Items.entering, List.filter_append, List.filter_cons, hsettle, List.filter_nil,
        decide_false, Bool.false_eq_true, if_false, List.append_nil]
      exact List.Sublist.refl _
  | grant entry rest hparked =>
    refine Or.inl ⟨?_, le_rfl⟩
    have hsettle : entry.settle = none := hi.parked entry (hparked ▸ List.mem_cons_self)
    simp only [Items.entering, hparked, List.filter_append, List.filter_cons, hsettle,
      List.filter_nil, decide_true, if_true, List.append_assoc, List.singleton_append]
    exact List.Sublist.refl _
  | abortParked id outcome =>
    exact Or.inl ⟨(List.Sublist.refl _).append List.filter_sublist, le_rfl⟩
  | reject outcomes hkeeps hsettled =>
    exact Or.inl ⟨(List.Sublist.refl _).append (List.nil_sublist _), le_rfl⟩
  | _ => exact Or.inl ⟨List.Sublist.refl _, le_rfl⟩

/-- Items without a `prepare` are run in their order. -/
theorem order_step (hi : OrderInv i) (h : ItemStep R i i') : ((i'.runs ++ i'.queue).filter (!·.prepares)).Sublist
      (i'.accepted.filter (!·.prepares)) := by
  have horder := hi.order
  have hgrow : ∀ entry : Entry, ((i.runs ++ (i.queue ++ [entry])).filter (!·.prepares)).Sublist
      ((i.accepted ++ [entry]).filter (!·.prepares)) := fun entry => by
    rw [← List.append_assoc, List.filter_append (i.runs ++ i.queue), List.filter_append i.accepted]
    exact horder.append (List.Sublist.refl _)
  cases h with
  | enter entry hid hplain hreserved => exact hgrow entry
  | grant entry rest hparked => exact hgrow entry
  | begin entry rest hqueue hprepares =>
    rw [hqueue, List.filter_append, List.filter_cons, hprepares] at horder
    dsimp only
    rw [List.filter_append]
    exact horder
  | start entry rest hqueue hprepares =>
    rw [hqueue] at horder
    dsimp only
    rw [List.append_assoc]
    exact horder
  | abortQueued entry hentry hplain outcome =>
    exact (((List.Sublist.refl _).append List.erase_sublist).filter _).trans horder
  | claim entry hentry =>
    dsimp only
    have hprepares := hi.begun entry hentry
    rw [List.append_assoc, List.filter_append, List.singleton_append, List.filter_cons, hprepares,
      Bool.not_true, if_neg Bool.false_ne_true, ← List.filter_append]
    exact horder
  | _ => exact horder

/-- **Every movement keeps the order.** -/
theorem OrderInv.step (hi : OrderInv i) (h : ItemStep R i i') : OrderInv i' where
  parked := by
    intro entry hentry
    cases h with
    | park new hid hplain =>
      rcases List.mem_append.1 hentry with hold | hnew
      · exact hi.parked entry hold
      · rw [List.mem_singleton.1 hnew]
        exact hplain
    | grant first rest hparked => exact hi.parked entry (hparked ▸ List.mem_cons_of_mem _ hentry)
    | abortParked id outcome => exact hi.parked entry (List.mem_of_mem_filter hentry)
    | reject outcomes hkeeps hsettled => exact absurd hentry List.not_mem_nil
    | _ => exact hi.parked entry hentry
  begun := by
    intro entry hentry
    cases h with
    | begin first rest hqueue hprepares =>
      rcases Multiset.mem_cons.1 hentry with rfl | hold
      · exact hprepares
      · exact hi.begun entry hold
    | skip done hdone hsettled => exact hi.begun entry (Multiset.mem_of_mem_erase hentry)
    | claim first hfirst => exact hi.begun entry (Multiset.mem_of_mem_erase hentry)
    | _ => exact hi.begun entry hentry
  known := by
    rcases entering_step hi h with ⟨hsub, hnext⟩ | ⟨entry, hid, heq, hnext⟩
    · exact fun entry hentry => (hi.known entry (hsub.subset hentry)).trans_le hnext
    · rw [heq, hnext]
      exact (pairwise_append_new hi.entered hi.known hid).2
  entered := by
    rcases entering_step hi h with ⟨hsub, -⟩ | ⟨entry, hid, heq, -⟩
    · exact hi.entered.sublist hsub
    · rw [heq]
      exact (pairwise_append_new hi.entered hi.known hid).1
  order := order_step hi h

end FlushWorker

end Keeper
