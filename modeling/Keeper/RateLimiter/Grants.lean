import Keeper.RateLimiter.Scripts
import Mathlib.Algebra.Order.BigOperators.Group.List

/-!
# The permits of a minute

A permit counts by its member in the window, which is built from the clock value of its run, its index
and a random number.

* `permitsIn_le_of_reaches`: no more permits than the limit are granted in a minute, where runs at one
  clock value draw different numbers.
* `not_permitsIn_le`: two runs that draw the same number count once.
-/

namespace Keeper

open Redis

/-! ## Members -/

theorem toString_append_colon {a b : ℤ} {u v : List Char}
    (h : (toString a).toList ++ ':' :: u = (toString b).toList ++ ':' :: v) : a = b ∧ u = v := by
  have hread := congrArg Json.readNumber h
  rw [Json.readNumber_toString a (by rfl), Json.readNumber_toString b (by rfl)] at hread
  obtain ⟨rfl, hrest⟩ := Prod.mk.inj (Option.some.inj hread)
  exact ⟨rfl, (List.cons.inj hrest).2⟩

/-- **A member** has one clock value, one index and one random number. -/
theorem permitMember_inj {now now' : ℤ} {i i' random random' : ℕ}
    (h : permitMember now i random = permitMember now' i' random') :
    now = now' ∧ i = i' ∧ random = random' := by
  have htext : ∀ (now : ℤ) (i random : ℕ), (permitMember now i random).toList =
      (toString now).toList ++ ':' :: ((toString (i : ℤ)).toList ++ ':' ::
        (toString (random : ℤ)).toList) := by
    intro now i random
    simp only [permitMember, String.toList_append, List.append_assoc]
    rfl
  have hlist := congrArg String.toList h
  rw [htext, htext] at hlist
  obtain ⟨hnow, hrest⟩ := toString_append_colon hlist
  obtain ⟨hi, hrandom⟩ := toString_append_colon hrest
  have hread := congrArg (fun cs => Json.readNumber (cs ++ [])) hrandom
  beta_reduce at hread
  rw [Json.readNumber_toString _ rfl, Json.readNumber_toString _ rfl] at hread
  have hrandom' := (Prod.mk.inj (Option.some.inj hread)).1
  exact ⟨hnow, Int.ofNat.inj hi, Int.ofNat.inj hrandom'⟩

theorem AcquireInput.nodup_permits (input : AcquireInput) : input.permits.Nodup := by
  refine List.Nodup.map_on ?_ List.nodup_range
  intro i _ j _ h
  have hindex := (permitMember_inj h).2.1
  omega

/-! ## Permits of a run and of a minute -/

/-- The clock value is in the minute that ends at a time. -/
def IsInMinute (t now : ℤ) : Prop := t - msPerMinute < now ∧ now ≤ t

instance (t now : ℤ) : Decidable (IsInMinute t now) := inferInstanceAs (Decidable (_ ∧ _))

/-- The permits that a run has granted in the minute that ends at a time. -/
def LimiterEvent.grantedIn (t : ℤ) (event : LimiterEvent) : ℕ :=
  match event.call.request? with
  | some input => if event.granted = true ∧ IsInMinute t input.now then input.count else 0
  | none => 0

/-- Their members. -/
def LimiterEvent.permitsIn (t : ℤ) (event : LimiterEvent) : List String :=
  match event.call.request? with
  | some input => if event.granted = true ∧ IsInMinute t input.now then input.permits else []
  | none => []

theorem LimiterEvent.length_permitsIn (t : ℤ) (event : LimiterEvent) :
    (event.permitsIn t).length = event.grantedIn t := by
  rw [permitsIn, grantedIn]
  split
  · split_ifs
    · simp [AcquireInput.permits]
    · rfl
  · rfl

namespace LimiterSystem

/-- The permits that were granted in the minute that ends at a time. -/
def permitsIn (s : LimiterSystem) (t : ℤ) : ℕ := (s.log.map (·.grantedIn t)).sum

def Granted (s : LimiterSystem) (input : AcquireInput) : Prop :=
  ∃ event ∈ s.log, event.granted = true ∧ event.call.request? = some input

/-- The random numbers of a request are not those of an earlier one that was granted at the same clock
value. -/
def DrawsFresh (s : LimiterSystem) (call : LimiterCall) : Prop :=
  ∀ input, call.request? = some input → ∀ earlier, s.Granted earlier → earlier.now = input.now →
    ∀ i < min earlier.count input.count, earlier.random (i + 1) ≠ input.random (i + 1)

/-- The limit of a request is one of those that are given. -/
def IsLimited (limit : ℕ) (call : LimiterCall) : Prop :=
  ∀ input, call.request? = some input → input.limit ≤ limit

/-! ## The invariant -/

/-- What the window holds of the runs. -/
structure GrantInv (limit : ℕ) (s : LimiterSystem) : Prop where
  times : ∀ input, s.Granted input → input.now ≤ s.now
  nodup : ∀ t, (s.log.flatMap (·.permitsIn t)).Nodup
  /-- The permits of the last minute are in the window. -/
  recorded : ∀ input, s.Granted input → s.now - msPerMinute < input.now →
    ∀ member ∈ input.permits, ⟨member, input.now⟩ ∈ s.keys.window.sorted.entries
  lasts : ∀ input, s.Granted input → s.keys.window.LastsUntil (input.now + msPerMinute)
  bounded : ∀ t, s.permitsIn t ≤ limit

variable {s : LimiterSystem} {call : LimiterCall} {input : AcquireInput} {limit : ℕ}
  {keys : LimiterKeys} {granted : Bool}

theorem mem_permitsIn {t : ℤ} {member : String} :
    member ∈ s.log.flatMap (·.permitsIn t) ↔
      ∃ input, s.Granted input ∧ IsInMinute t input.now ∧ member ∈ input.permits := by
  rw [List.mem_flatMap]
  constructor
  · rintro ⟨event, hevent, hmem⟩
    rw [LimiterEvent.permitsIn] at hmem
    split at hmem
    · next input hinput =>
      split_ifs at hmem with hgranted
      · exact ⟨input, ⟨event, hevent, hgranted.1, hinput⟩, hgranted.2, hmem⟩
      · cases hmem
    · cases hmem
  · rintro ⟨input, ⟨event, hevent, hgranted, hinput⟩, hminute, hmem⟩
    refine ⟨event, hevent, ?_⟩
    rw [LimiterEvent.permitsIn, hinput]
    dsimp only
    rw [if_pos ⟨hgranted, hminute⟩]
    exact hmem

theorem GrantInv.start (limit : ℕ) (now : ℤ) : GrantInv limit { now } where
  times _ h := by
    obtain ⟨_, hmem, -⟩ := h
    cases hmem
  nodup _ := List.nodup_nil
  recorded _ h := by
    obtain ⟨_, hmem, -⟩ := h
    cases hmem
  lasts _ h := by
    obtain ⟨_, hmem, -⟩ := h
    cases hmem
  bounded _ := Nat.zero_le _

/-- **What was granted in the last minute** is in the window that a run finds. -/
theorem GrantInv.kept (h : s.GrantInv limit) (htimely : s.now ≤ input.now) {earlier : AcquireInput}
    (hearlier : s.Granted earlier) (hrecent : input.now - msPerMinute < earlier.now) {member : String}
    (hmem : member ∈ earlier.permits) : ⟨member, earlier.now⟩ ∈
      (trimWindow input (s.keys.elapse input.now)).window.sorted.entries := by
  have hkept : s.keys.window.elapse input.now = s.keys.window :=
    (h.lasts earlier hearlier).elapse_eq (by omega)
  rw [trimWindow, LimiterKeys.elapse]
  dsimp only
  rw [hkept, Key.sorted_update, SortedSet.mem_removeUpTo]
  exact ⟨h.recorded earlier hearlier (by omega) member hmem, hrecent⟩

/-- **The window counts** the permits of the last minute. -/
theorem GrantInv.le_card (h : s.GrantInv limit) (htimely : s.now ≤ input.now) :
    s.permitsIn input.now ≤ (trimWindow input (s.keys.elapse input.now)).window.sorted.card := by
  have hlength : s.permitsIn input.now = (s.log.flatMap (·.permitsIn input.now)).length := by
    rw [permitsIn, List.length_flatMap]
    congr 1
    exact List.map_congr_left fun event _ => (event.length_permitsIn _).symm
  rw [hlength]
  apply SortedSet.length_le_card (h.nodup input.now)
  intro member hmem
  obtain ⟨earlier, hearlier, hminute, hpermit⟩ := mem_permitsIn.1 hmem
  exact ⟨_, h.kept htimely hearlier hminute.1 hpermit⟩

/-- The permits of a minute before a run are those of the minute that ends at the run. -/
theorem GrantInv.permitsIn_le (h : s.GrantInv limit) (htimely : s.now ≤ input.now) {t : ℤ}
    (ht : input.now ≤ t) : s.permitsIn t ≤ s.permitsIn input.now := by
  apply List.sum_le_sum
  intro event hevent
  rw [LimiterEvent.grantedIn, LimiterEvent.grantedIn]
  split
  · next earlier hearlier =>
    split_ifs with hin hin'
    · exact le_rfl
    · have hbefore := h.times earlier ⟨event, hevent, hin.1, hearlier⟩
      obtain ⟨hgranted, hafter, -⟩ := hin
      exact absurd ⟨hgranted, by omega, by omega⟩ hin'
    · exact Nat.zero_le _
    · exact le_rfl
  · exact le_rfl

theorem DrawsFresh.disjoint (hfresh : s.DrawsFresh call) (hinput : call.request? = some input)
    {earlier : AcquireInput} (hearlier : s.Granted earlier) {member : String}
    (hmem : member ∈ earlier.permits) : member ∉ input.permits := by
  intro hmem'
  obtain ⟨i, hi, rfl⟩ := List.mem_map.1 hmem
  obtain ⟨j, hj, heq⟩ := List.mem_map.1 hmem'
  obtain ⟨hnow, hindex, hrandom⟩ := permitMember_inj heq
  obtain rfl : j = i := by omega
  rw [List.mem_range] at hi hj
  exact hfresh input hinput earlier hearlier hnow.symm j (Nat.lt_min.2 ⟨hi, hj⟩) hrandom.symm

theorem granted_cons {earlier : AcquireInput} (hinput : call.request? = some input) :
    Granted { now := input.now, keys, log := ⟨call, granted⟩ :: s.log } earlier ↔
      granted = true ∧ earlier = input ∨ s.Granted earlier := by
  constructor
  · rintro ⟨event, hmem, hevent, hrequest⟩
    rcases List.mem_cons.1 hmem with rfl | hmem
    · exact Or.inl ⟨hevent, Option.some.inj (hrequest.symm.trans hinput)⟩
    · exact Or.inr ⟨event, hmem, hevent, hrequest⟩
  · rintro (⟨hgranted, rfl⟩ | ⟨event, hmem, h⟩)
    · exact ⟨_, List.mem_cons_self, hgranted, hinput⟩
    · exact ⟨event, List.mem_cons_of_mem _ hmem, h⟩

/-- **A run that asks for permits** keeps the invariant, if it draws fresh numbers. -/
theorem GrantInv.request (h : s.GrantInv limit) (hinput : call.request? = some input)
    (htimely : s.now ≤ input.now) (hlimited : input.limit ≤ limit) (hfresh : s.DrawsFresh call)
    (hruns : RunsWindow input (s.keys.elapse input.now) granted keys.window) :
    GrantInv limit { now := input.now, keys, log := ⟨call, granted⟩ :: s.log } where
  times earlier hearlier := by
    rcases (granted_cons hinput).1 hearlier with ⟨-, rfl⟩ | hearlier
    · exact le_rfl
    · exact (h.times earlier hearlier).trans htimely
  nodup t := by
    rw [List.flatMap_cons, List.nodup_append']
    have hnew : ∀ member ∈ LimiterEvent.permitsIn t ⟨call, granted⟩, member ∈ input.permits := by
      intro member hmem
      rw [LimiterEvent.permitsIn, hinput] at hmem
      dsimp only at hmem
      split_ifs at hmem
      · exact hmem
      · cases hmem
    refine ⟨?_, h.nodup t, fun member hmem hmem' => ?_⟩
    · rw [LimiterEvent.permitsIn, hinput]
      dsimp only
      split_ifs
      · exact input.nodup_permits
      · exact List.nodup_nil
    · obtain ⟨earlier, hearlier, -, hpermit⟩ := mem_permitsIn.1 hmem'
      exact hfresh.disjoint hinput hearlier hpermit (hnew member hmem)
  recorded earlier hearlier hrecent member hmem := by
    rcases hruns with ⟨-, -, hwindow⟩ | ⟨hrefused, hwindow⟩
    · rw [hwindow, addPermits, Key.sorted_pexpire, Key.mem_foldl_add]
      rcases (granted_cons hinput).1 hearlier with ⟨-, rfl⟩ | hearlier
      · exact Or.inl ⟨hmem, rfl⟩
      · exact Or.inr ⟨h.kept htimely hearlier hrecent hmem, hfresh.disjoint hinput hearlier hmem⟩
    · rw [hwindow]
      rcases (granted_cons hinput).1 hearlier with ⟨hgranted, -⟩ | hearlier
      · cases hrefused.symm.trans hgranted
      · exact h.kept htimely hearlier hrecent hmem
  lasts earlier hearlier := by
    rcases hruns with ⟨-, -, hwindow⟩ | ⟨hrefused, hwindow⟩
    · have hbefore : earlier.now ≤ input.now := by
        rcases (granted_cons hinput).1 hearlier with ⟨-, rfl⟩ | hearlier
        · exact le_rfl
        · exact (h.times earlier hearlier).trans htimely
      rw [hwindow, addPermits]
      exact Key.LastsUntil.pexpire (by omega)
    · rw [hwindow, trimWindow]
      rcases (granted_cons hinput).1 hearlier with ⟨hgranted, -⟩ | hearlier
      · cases hrefused.symm.trans hgranted
      · exact ((h.lasts earlier hearlier).elapse input.now).update _
  bounded t := by
    have hsum : permitsIn { now := input.now, keys, log := ⟨call, granted⟩ :: s.log } t =
        LimiterEvent.grantedIn t ⟨call, granted⟩ + s.permitsIn t := rfl
    rw [hsum, LimiterEvent.grantedIn, hinput]
    dsimp only
    split_ifs with hin
    · -- the run was granted, so there was room for it beside the last minute
      rcases hruns with ⟨-, hroom, -⟩ | ⟨hrefused, -⟩
      · have hcard := h.le_card htimely
        have hminute := h.permitsIn_le htimely hin.2.2
        have hfits := of_decide_eq_true hroom
        omega
      · cases hrefused.symm.trans hin.1
    · rw [Nat.zero_add]
      exact h.bounded t

/-- **A run** keeps the invariant, if it is timely, within the limit and draws fresh numbers. -/
theorem GrantInv.step (h : s.GrantInv limit) (htimely : s.IsTimely call)
    (hlimited : IsLimited limit call) (hfresh : s.DrawsFresh call) :
    (s.step call).GrantInv limit := by
  cases call with
  | acquire input =>
    exact h.request rfl (htimely input rfl) (hlimited input rfl) hfresh window_acquireScript
  | priority input =>
    exact h.request rfl (htimely input rfl) (hlimited input rfl) hfresh window_priorityAcquireScript
  | leave token =>
    have hgranted : ∀ input, (s.step (.leave token)).Granted input → s.Granted input := by
      rintro input ⟨event, hmem, hevent, hrequest⟩
      rcases List.mem_cons.1 hmem with rfl | hmem
      · cases hevent
      · exact ⟨event, hmem, hevent, hrequest⟩
    refine ⟨?_, h.nodup, ?_, ?_, ?_⟩
    · intro input hinput
      exact h.times input (hgranted input hinput)
    · intro input hinput
      exact h.recorded input (hgranted input hinput)
    · intro input hinput
      exact h.lasts input (hgranted input hinput)
    · intro t
      have hsum : (s.step (.leave token)).permitsIn t = 0 + s.permitsIn t := rfl
      rw [hsum, Nat.zero_add]
      exact h.bounded t

/-- **No more permits than the limit** are granted in a minute, where no run draws the number of an
earlier one at its clock value. -/
theorem permitsIn_le_of_reaches
    (h : Reaches (fun s call => s.IsTimely call ∧ IsLimited limit call ∧ s.DrawsFresh call) s)
    (t : ℤ) : s.permitsIn t ≤ limit := by
  have hinv : s.GrantInv limit := by
    induction h with
    | start now => exact GrantInv.start limit now
    | step _ call hallowed ih => exact ih.step hallowed.1 hallowed.2.1 hallowed.2.2
  exact hinv.bounded t

/-! ### Requests of one millisecond -/

namespace Example

/-- A request for one permit of two, at a clock value at which the script draws a number. -/
def request (drawn : ℕ) : AcquireInput where
  now := 0
  count := 1
  limit := 2
  random := fun _ => drawn

theorem request_allowed (s : LimiterSystem) (drawn : ℕ) (hnow : s.now = 0) :
    s.IsTimely (.acquire (request drawn)) ∧ IsLimited 2 (.acquire (request drawn)) := by
  refine ⟨fun input hinput => ?_, fun input hinput => ?_⟩
  · obtain rfl := Option.some.inj hinput
    exact hnow.le
  · obtain rfl := Option.some.inj hinput
    exact le_rfl

/-- Three requests that draw the same number. -/
def collided : LimiterSystem :=
  ((step { now := 0 } (.acquire (request 7))).step (.acquire (request 7))).step (.acquire (request 7))

theorem collided_reaches :
    Reaches (fun s call => s.IsTimely call ∧ IsLimited 2 call) collided := by
  have hallowed := fun s => request_allowed s 7
  exact .step (.step (.step (.start 0) _ (hallowed _ rfl)) _ (hallowed _ rfl)) _ (hallowed _ rfl)

def drawn : LimiterSystem := (step { now := 0 } (.acquire (request 7))).step (.acquire (request 8))

end Example

theorem permitsIn_le_of_reaches_example : Example.drawn.permitsIn 0 ≤ 2 := by
  have hfirst : DrawsFresh { now := 0 } (.acquire (Example.request 7)) := by
    rintro input - earlier ⟨event, hmem, -⟩
    cases hmem
  have hsecond : (step { now := 0 } (.acquire (Example.request 7))).DrawsFresh
      (.acquire (Example.request 8)) := by
    rintro input hinput earlier ⟨event, hmem, -, hrequest⟩ - i -
    obtain rfl := Option.some.inj hinput
    obtain rfl := List.mem_singleton.1 hmem
    obtain rfl := Option.some.inj hrequest
    exact fun heq => absurd heq (show (7 : ℕ) ≠ 8 by decide)
  obtain ⟨htimely, hlimited⟩ := Example.request_allowed { now := 0 } 7 rfl
  obtain ⟨htimely', hlimited'⟩ := Example.request_allowed
    (step { now := 0 } (.acquire (Example.request 7))) 8 rfl
  exact permitsIn_le_of_reaches (.step (.step (.start 0) _ ⟨htimely, hlimited, hfirst⟩) _
    ⟨htimely', hlimited', hsecond⟩) 0

/-- **Requests that draw the same number** at one clock value are granted beyond the limit. -/
theorem not_permitsIn_le : ¬ ∀ (limit : ℕ) (s : LimiterSystem) (t : ℤ),
    Reaches (fun s call => s.IsTimely call ∧ IsLimited limit call) s → s.permitsIn t ≤ limit := by
  intro h
  have hle := h 2 Example.collided 0 Example.collided_reaches
  have hthree : Example.collided.permitsIn 0 = 3 := by decide +kernel
  omega

end LimiterSystem

end Keeper
