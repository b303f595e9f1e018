import Mathlib.Data.List.Basic

/-!
# Computations that can fail

`Except` as the model of code that throws: a sequence of computations returns when each does, and
a loop keeps what its body keeps.

* `bind_eq_ok_iff`, `bind_eq_error_iff`: where a sequence returns and where it fails.
* `foldlM_ok_induction`: an invariant of the body is one of the loop.
* `filterThrowing_ok`: a filter whose test returns keeps what the test accepts.
* `mem_filterM_iff`: what a filter keeps.
-/

namespace Keeper

variable {ε : Type*} {α β σ : Type _}

variable {x : Except ε α} {f : α → Except ε β} {l : List α} {l' : List β}

theorem bind_eq_ok_iff {b : β} : (x >>= f) = .ok b ↔ ∃ a, x = .ok a ∧ f a = .ok b := by
  cases x with
  | error e => simp [bind, Except.bind]
  | ok a => simp [bind, Except.bind]

theorem bind_eq_error_iff {e : ε} :
    (x >>= f) = .error e ↔ x = .error e ∨ ∃ a, x = .ok a ∧ f a = .error e := by
  cases x with
  | error e => simp [bind, Except.bind]
  | ok a => simp [bind, Except.bind]

/-- **An invariant of the body of a loop** that returns is one of the loop. -/
theorem foldlM_ok_induction {f : σ → α → Except ε σ} {I : List α → σ → Prop}
    (hstep : ∀ seen a s s', I seen s → f s a = .ok s' → I (seen ++ [a]) s') {seen : List α}
    {s s' : σ} (hs : I seen s) (h : l.foldlM f s = .ok s') : I (seen ++ l) s' := by
  induction l generalizing seen s with
  | nil =>
    obtain rfl : s = s' := Except.ok.inj h
    rwa [List.append_nil]
  | cons a l ih =>
    rw [List.foldlM_cons] at h
    obtain ⟨next, hnext, hrest⟩ := bind_eq_ok_iff.1 h
    have := ih (hstep seen a s next hs hnext) hrest
    rwa [List.append_assoc] at this

@[simp] theorem mapError_eq_ok_iff {ε' : Type*} {g : ε → ε'} {a : α} :
    x.mapError g = .ok a ↔ x = .ok a := by
  cases x <;> simp [Except.mapError]

/-! ## Lists -/

/-- **A map over a list returns** when it does at each element, and then what it gives there. -/
theorem mapM_eq_ok_iff : l.mapM f = .ok l' ↔
      (∀ a ∈ l, ∃ b, f a = .ok b) ∧ l' = l.filterMap fun a => (f a).toOption := by
  induction l generalizing l' with
  | nil =>
    rw [List.mapM_nil, List.filterMap_nil]
    exact ⟨fun h => ⟨fun a ha => absurd ha List.not_mem_nil, (Except.ok.inj h).symm⟩,
      fun h => by rw [h.2]; rfl⟩
  | cons a l ih =>
    rw [List.mapM_cons, bind_eq_ok_iff, List.forall_mem_cons]
    constructor
    · rintro ⟨b, hb, h⟩
      obtain ⟨rest, hrest, h⟩ := bind_eq_ok_iff.1 h
      obtain ⟨hall, rfl⟩ := ih.1 hrest
      refine ⟨⟨⟨b, hb⟩, hall⟩, (Except.ok.inj h).symm.trans ?_⟩
      rw [List.filterMap_cons_some (by rw [hb]; rfl)]
    · rintro ⟨⟨⟨b, hb⟩, hall⟩, rfl⟩
      refine ⟨b, hb, bind_eq_ok_iff.2 ⟨_, ih.2 ⟨hall, rfl⟩, ?_⟩⟩
      rw [List.filterMap_cons_some (by rw [hb]; rfl)]
      rfl

theorem length_mapM (h : l.mapM f = .ok l') : l'.length = l.length := by
  obtain ⟨hall, rfl⟩ := mapM_eq_ok_iff.1 h
  refine List.filterMap_length_eq_length.2 fun a ha => ?_
  obtain ⟨b, hb⟩ := hall a ha
  rw [hb]
  rfl

theorem mem_mapM_iff (h : l.mapM f = .ok l') {b : β} : b ∈ l' ↔ ∃ a ∈ l, f a = .ok b := by
  obtain ⟨-, rfl⟩ := mapM_eq_ok_iff.1 h
  rw [List.mem_filterMap]
  refine exists_congr fun a => and_congr_right fun _ => ?_
  cases f a <;> simp [Except.toOption]

theorem map_mapM {γ : Type*} {g : β → γ} {g' : α → γ} (hf : ∀ a b, f a = .ok b → g b = g' a)
    (h : l.mapM f = .ok l') : l'.map g = l.map g' := by
  obtain ⟨hall, rfl⟩ := mapM_eq_ok_iff.1 h
  rw [List.map_filterMap, ← List.filterMap_eq_map]
  refine List.filterMap_congr fun a ha => ?_
  obtain ⟨b, hb⟩ := hall a ha
  rw [hb]
  exact congrArg some (hf a b hb)

theorem mapM_map_ok {γ : Type _} {f : β → Except ε γ} {g : α → β} {g' : α → γ}
    (h : ∀ a ∈ l, f (g a) = .ok (g' a)) : (l.map g).mapM f = .ok (l.map g') := by
  refine mapM_eq_ok_iff.2 ⟨fun b hb => ?_, ?_⟩
  · obtain ⟨a, ha, rfl⟩ := List.mem_map.1 hb
    exact ⟨g' a, h a ha⟩
  · rw [List.filterMap_map, ← List.filterMap_eq_map]
    refine List.filterMap_congr fun a ha => ?_
    change some (g' a) = (f (g a)).toOption
    rw [h a ha]
    rfl

/-- A map over the same elements in another order returns the same results in that order. -/
theorem mapM_perm {l₁ l₂ : List α} (hperm : l₁.Perm l₂) (h : l₁.mapM f = .ok l') :
    ∃ l'', l₂.mapM f = .ok l'' ∧ l'.Perm l'' := by
  obtain ⟨hall, rfl⟩ := mapM_eq_ok_iff.1 h
  exact ⟨_, mapM_eq_ok_iff.2 ⟨fun a ha => hall a (hperm.mem_iff.2 ha), rfl⟩, hperm.filterMap _⟩

/-- `Array.prototype.filter` with a test that can throw. -/
def filterThrowing (p : α → Except ε Bool) : List α → Except ε (List α)
  | [] => .ok []
  | a :: l => do
    let keep ← p a
    let rest ← filterThrowing p l
    pure (if keep then a :: rest else rest)

/-- **A filter whose test returns** keeps what the test accepts. -/
theorem filterThrowing_ok {p : α → Except ε Bool} {q : α → Bool} (h : ∀ a ∈ l, p a = .ok (q a)) :
    filterThrowing p l = .ok (l.filter q) := by
  induction l with
  | nil => rfl
  | cons a l ih =>
    have hrest := ih fun b hb => h b (List.mem_cons_of_mem a hb)
    refine bind_eq_ok_iff.2 ⟨q a, h a List.mem_cons_self, bind_eq_ok_iff.2 ⟨_, hrest, ?_⟩⟩
    rw [List.filter_cons]
    rfl

theorem filterThrowing_eq_ok_iff {p : α → Except ε Bool} {l' : List α} :
    filterThrowing p l = .ok l' ↔
      (∀ a ∈ l, ∃ b, p a = .ok b) ∧ l' = l.filter fun a => (p a).toOption.getD false := by
  constructor
  · intro h
    induction l generalizing l' with
    | nil => exact ⟨fun a ha => absurd ha List.not_mem_nil, (Except.ok.inj h).symm⟩
    | cons a l ih =>
      obtain ⟨keep, hkeep, h⟩ := bind_eq_ok_iff.1 h
      obtain ⟨rest, hrest, h⟩ := bind_eq_ok_iff.1 h
      obtain ⟨hall, rfl⟩ := ih hrest
      refine ⟨List.forall_mem_cons.2 ⟨⟨keep, hkeep⟩, hall⟩, (Except.ok.inj h).symm.trans ?_⟩
      rw [List.filter_cons, hkeep]
      rfl
  · rintro ⟨hall, rfl⟩
    refine filterThrowing_ok fun a ha => ?_
    obtain ⟨b, hb⟩ := hall a ha
    rw [hb]
    rfl

section FilterM

variable {α : Type} {p : α → Except ε Bool} {a : α}

theorem mem_filterAuxM_iff {l acc l' : List α} (h : l.filterAuxM p acc = .ok l') :
    a ∈ l' ↔ a ∈ acc ∨ a ∈ l ∧ p a = .ok true := by
  induction l generalizing acc with
  | nil =>
    obtain rfl := Except.ok.inj h
    simp
  | cons b l ih =>
    obtain ⟨keep, hkeep, h⟩ := bind_eq_ok_iff.1 h
    rw [ih h]
    cases keep with
    | true =>
      simp only [cond_true, List.mem_cons]
      constructor
      · rintro ((rfl | hacc) | ⟨hl, hp⟩)
        · exact Or.inr ⟨Or.inl rfl, hkeep⟩
        · exact Or.inl hacc
        · exact Or.inr ⟨Or.inr hl, hp⟩
      · rintro (hacc | ⟨rfl | hl, hp⟩)
        · exact Or.inl (Or.inr hacc)
        · exact Or.inl (Or.inl rfl)
        · exact Or.inr ⟨hl, hp⟩
    | false =>
      simp only [cond_false, List.mem_cons]
      refine or_congr_right (and_congr_left fun hp => (or_iff_right fun heq => ?_).symm)
      subst heq
      rw [hkeep] at hp
      cases hp

/-- **What a filter keeps** that returns. -/
theorem mem_filterM_iff {l l' : List α} (h : l.filterM p = .ok l') :
    a ∈ l' ↔ a ∈ l ∧ p a = .ok true := by
  obtain ⟨kept, hkept, h⟩ := bind_eq_ok_iff.1 h
  obtain rfl := Except.ok.inj h
  rw [List.mem_reverse, mem_filterAuxM_iff hkept]
  simp

end FilterM

end Keeper
