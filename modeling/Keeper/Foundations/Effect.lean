import Mathlib.Init

/-!
# Computations with state and failure

A computation over a state `σ` that returns a value or fails with an error, and that keeps the
state it reached in both cases: what an asynchronous program did to the world before it threw is
not undone. Its program logic is a weakest precondition with one postcondition for a return and
one for a failure.

* `wp_bind`, `wp_pure`, `wp_throw`, `wp_recover`, `wp_zoom`: the rules of the constructs.
* `wp_mono`: the rule of consequence.
* `wp_forUntil`: an invariant of a loop that can stop early.
* `respects_bind` and its companions: computations that do not tell related states apart.
-/

namespace Keeper

universe u v w

/-- A computation over a state that may fail. -/
def Effect (ε : Type u) (σ : Type v) (α : Type w) : Type (max u v w) := σ → Except ε α × σ

namespace Effect

variable {ε : Type u} {σ τ : Type v} {α β : Type w}

instance : Monad (Effect ε σ) where
  pure a := fun s => (.ok a, s)
  bind x f := fun s =>
    match x s with
    | (.ok a, s') => f a s'
    | (.error e, s') => (.error e, s')

/-- Change the state. -/
def modify (f : σ → σ) : Effect ε σ PUnit := fun s => (.ok ⟨⟩, f s)

/-- Read a function of the state. -/
def gets (f : σ → α) : Effect ε σ α := fun s => (.ok (f s), s)

/-- Fail. -/
def throw (e : ε) : Effect ε σ α := fun s => (.error e, s)

/-- Continue with a handler after a failure, from the state in which it failed. -/
def recover (x : Effect ε σ α) (handler : ε → Effect ε σ α) : Effect ε σ α := fun s =>
  match x s with
  | (.ok a, s') => (.ok a, s')
  | (.error e, s') => handler e s'

/-- Run a computation on a part of the state. -/
def zoom (view : τ → σ) (put : τ → σ → τ) (x : Effect ε σ α) : Effect ε τ α := fun t =>
  ((x (view t)).1, put t (x (view t)).2)

/-- Run a computation on each element, until the state asks to stop. -/
def forUntil (stop : σ → Bool) (f : α → Effect ε σ PUnit) : List α → Effect ε σ PUnit
  | [] => pure ⟨⟩
  | a :: l => do
    if ← gets stop then pure ⟨⟩
    else do
      f a
      forUntil stop f l

/-! ## Runs -/

variable {x : Effect ε σ α} {f : α → Effect ε σ β}

theorem run_bind {s s' : σ} {a : α} (h : x s = (.ok a, s')) : (x >>= f) s = f a s' := by
  change (match x s with
    | (.ok a, s') => f a s'
    | (.error e, s') => (.error e, s')) = _
  rw [h]

theorem run_bind_error {s s' : σ} {e : ε} (h : x s = (.error e, s')) : (x >>= f) s = (.error e, s') := by
  change (match x s with
    | (.ok a, s') => f a s'
    | (.error e, s') => (.error e, s')) = _
  rw [h]

theorem run_bind_map (x : Effect ε σ α) (f : α → β) (s : σ) :
    (x >>= fun a => pure (f a)) s = ((x s).1.map f, (x s).2) := by
  rcases hx : x s with ⟨e | a, s'⟩
  · rw [run_bind_error hx]
    rfl
  · rw [run_bind hx]
    rfl

theorem run_recover_pure (x : Effect ε σ α) (b : α) (s : σ) :
    (recover x (fun _ => pure b) s).2 = (x s).2 ∧
      ∀ a, (recover x (fun _ => pure b) s).1 = .ok a ↔
        (x s).1 = .ok a ∨ (∃ e, (x s).1 = .error e) ∧ a = b := by
  unfold recover
  rcases x s with ⟨e | a, s'⟩
  · refine ⟨rfl, fun a => ?_⟩
    simp only [pure, Except.ok.injEq, reduceCtorEq, Except.error.injEq, exists_eq', true_and, false_or]
    exact eq_comm
  · refine ⟨rfl, fun a' => ?_⟩
    simp

theorem run_zoom {view : τ → σ} {put : τ → σ → τ} {t : τ} {s' : σ} {outcome : Except ε α}
    (h : x (view t) = (outcome, s')) : zoom view put x t = (outcome, put t s') := by
  rw [zoom, h]

/-! ## Weakest preconditions -/

/-- The outcome satisfies the postcondition of a return or that of a failure. -/
def Post (Q : α → σ → Prop) (R : ε → σ → Prop) : Except ε α × σ → Prop
  | (.ok a, s) => Q a s
  | (.error e, s) => R e s

/-- The computation, from this state, returns in `Q` or fails in `R`. -/
def wp (x : Effect ε σ α) (Q : α → σ → Prop) (R : ε → σ → Prop) (s : σ) : Prop := Post Q R (x s)

variable {Q Q' : α → σ → Prop} {R R' : ε → σ → Prop} {s : σ}

theorem wp_of_eq {o : Except ε α × σ} (h : x s = o) (ho : Post Q R o) : wp x Q R s := by
  rw [wp, h]
  exact ho

@[simp] theorem wp_pure {a : α} : wp (pure a : Effect ε σ α) Q R s ↔ Q a s := Iff.rfl

@[simp] theorem wp_bind {Q : β → σ → Prop} : wp (x >>= f) Q R s ↔ wp x (fun a s' => wp (f a) Q R s') R s := by
  change Post Q R (match x s with
    | (.ok a, s') => f a s'
    | (.error e, s') => (.error e, s')) ↔ Post _ R (x s)
  rcases x s with ⟨a | a, s'⟩ <;> rfl

@[simp] theorem wp_modify {f : σ → σ} {Q : PUnit → σ → Prop} :
    wp (modify f : Effect ε σ PUnit) Q R s ↔ Q ⟨⟩ (f s) := Iff.rfl

@[simp] theorem wp_gets {f : σ → α} : wp (gets f : Effect ε σ α) Q R s ↔ Q (f s) s := Iff.rfl

@[simp] theorem wp_throw {e : ε} : wp (throw e : Effect ε σ α) Q R s ↔ R e s := Iff.rfl

@[simp] theorem wp_recover {handler : ε → Effect ε σ α} :
    wp (recover x handler) Q R s ↔ wp x Q (fun e s' => wp (handler e) Q R s') s := by
  unfold wp recover
  rcases x s with ⟨a | a, s'⟩ <;> rfl

@[simp] theorem wp_zoom {view : τ → σ} {put : τ → σ → τ} {Q : α → τ → Prop} {R : ε → τ → Prop} {t : τ} :
    wp (zoom view put x) Q R t ↔
      wp x (fun a s' => Q a (put t s')) (fun e s' => R e (put t s')) (view t) := by
  unfold wp zoom
  rcases x (view t) with ⟨a | a, s'⟩ <;> rfl

/-- **Consequence.** -/
theorem wp_mono (h : wp x Q R s) (hQ : ∀ a s', Q a s' → Q' a s') (hR : ∀ e s', R e s' → R' e s') : wp x Q' R' s := by
  unfold wp at h ⊢
  rcases hx : x s with ⟨a | a, s'⟩ <;> rw [hx] at h
  · exact hR a s' h
  · exact hQ a s' h

theorem wp_true (x : Effect ε σ α) (s : σ) : wp x (fun _ _ => True) (fun _ _ => True) s := by
  unfold wp
  rcases x s with ⟨a | a, s'⟩ <;> trivial

theorem wp_ok (h : wp x Q R s) {a : α} {s' : σ} (hx : x s = (.ok a, s')) : Q a s' := by
  rw [wp, hx] at h
  exact h

/-- What a specification with one postcondition says of the state that a run reached. -/
theorem wp_state {I : σ → Prop} (h : wp x (fun _ => I) (fun _ => I) s) : I (x s).2 := by
  unfold wp at h
  rcases hx : x s with ⟨a | a, s'⟩ <;> rw [hx] at h <;> exact h

/-- **The loop rule.** `I l` holds when the elements `l` remain. A step is only taken from a state
that does not ask to stop. -/
theorem wp_forUntil {stop : σ → Bool} {f : α → Effect ε σ PUnit} {I : List α → σ → Prop}
    (hf : ∀ a l s, I (a :: l) s → stop s = false → wp (f a) (fun _ => I l) R s)
    {Q : PUnit → σ → Prop} (hQ : ∀ l s, I l s → (l = [] ∨ stop s = true) → Q ⟨⟩ s) (l : List α)
    (h : I l s) : wp (forUntil stop f l) Q R s := by
  induction l generalizing s with
  | nil => exact hQ [] s h (Or.inl rfl)
  | cons a l ih =>
    rw [forUntil, wp_bind, wp_gets]
    cases hs : stop s with
    | true => exact hQ _ s h (Or.inr hs)
    | false =>
      simp only [Bool.false_eq_true, if_false, wp_bind]
      exact wp_mono (hf a l s h hs) (fun _ s' h' => ih h') fun _ _ h' => h'

/-! ## Related states -/

/-- From related states the computation has the same outcome, and reaches related states. -/
def Respects (r : σ → σ → Prop) (x : Effect ε σ α) : Prop :=
  ∀ s t, r s t → (x s).1 = (x t).1 ∧ r (x s).2 (x t).2

variable {r : σ → σ → Prop}

theorem respects_pure (a : α) : Respects r (pure a : Effect ε σ α) := fun _ _ h => ⟨rfl, h⟩

theorem respects_bind (hx : Respects r x) (hf : ∀ a, Respects r (f a)) : Respects r (x >>= f) := by
  intro s t h
  obtain ⟨houtcome, hstate⟩ := hx s t h
  change (match x s with
    | (.ok a, s') => f a s'
    | (.error e, s') => (.error e, s')).1 = (match x t with
    | (.ok a, s') => f a s'
    | (.error e, s') => (.error e, s')).1 ∧ r (match x s with
    | (.ok a, s') => f a s'
    | (.error e, s') => (.error e, s')).2 (match x t with
    | (.ok a, s') => f a s'
    | (.error e, s') => (.error e, s')).2
  generalize x s = reached at *
  generalize x t = reached' at *
  obtain ⟨outcome, s'⟩ := reached
  obtain ⟨outcome', t'⟩ := reached'
  obtain rfl : outcome = outcome' := houtcome
  cases outcome with
  | ok a => exact hf a s' t' hstate
  | error e => exact ⟨rfl, hstate⟩

theorem respects_gets {f : σ → α} (h : ∀ s t, r s t → f s = f t) :
    Respects r (gets f : Effect ε σ α) := fun s t hr => ⟨congrArg Except.ok (h s t hr), hr⟩

theorem respects_modify {f : σ → σ} (h : ∀ s t, r s t → r (f s) (f t)) :
    Respects r (modify f : Effect ε σ PUnit) := fun s t hr => ⟨rfl, h s t hr⟩

end Effect

end Keeper
