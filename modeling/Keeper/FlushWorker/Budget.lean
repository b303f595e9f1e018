import Mathlib.Algebra.BigOperators.Group.List.Basic
import Mathlib.Algebra.Order.BigOperators.Group.List
import Mathlib.Data.List.Nodup
import Mathlib.Data.NNRat.Defs
import Mathlib.Tactic.Linarith

/-!
# The budget of the flush worker

The weights of `core/utils/serial-flush-worker.ts`: a reservation is granted while the budget has room,
or as a light one past the head of the queue, or as a head that was overtaken often enough; a freed one
admits the heads that fit.

* `WeightInv.free`, `WeightInv.reserve`: what every change of the weights keeps.
-/

namespace Keeper

namespace FlushWorker

/-! ## Weights -/

/-- A `WeightWaiter`. -/
structure WeightWaiter where
  id : ℕ
  weight : ℚ≥0
  aborted : Bool := false
  deriving DecidableEq

/-- What `createReservation` closes over. The last two fields keep how it was freed: `released` before
it was submitted, or `refused` when it was submitted to a closed worker. -/
structure Reservation where
  weight : ℚ≥0
  freed : Bool := false
  submitted : Bool := false
  released : Bool := false
  refused : Bool := false
  deriving DecidableEq

/-- The variables of the budget. A reservation is known by its place among the granted ones; `frees`
lists those whose weight was given back, and `overtaken` the heads that a light one has passed. -/
structure Weights where
  outstandingWeight : ℚ := 0
  expressOvertakes : ℕ := 0
  weightWaiters : List WeightWaiter := []
  nextWaiter : ℕ := 0
  reservations : List Reservation := []
  frees : List ℕ := []
  overtaken : List ℕ := []
  deriving DecidableEq

def expressWeightDivisor : ℚ := 64

def expressHeadroomDivisor : ℚ := 16

def expressMaxOvertakes : ℕ := 16

/-- `expressCeiling`. -/
def ceiling (budget : ℚ≥0) : ℚ := budget + budget / expressHeadroomDivisor

/-- `grantNow`, with `createReservation`. -/
def grantNow (weight : ℚ≥0) (w : Weights) : Weights :=
  { w with
    outstandingWeight := w.outstandingWeight + weight
    reservations := w.reservations ++ [{ weight := weight }] }

/-- The loop of `grantWeight` over the queue. -/
def grantWeightLoop (budget : ℚ≥0) : List WeightWaiter → Weights → Weights
  | [], w => { w with weightWaiters := [] }
  | head :: rest, w =>
    if head.aborted then grantWeightLoop budget rest { w with expressOvertakes := 0 }
    else if (budget : ℚ) < w.outstandingWeight + head.weight then
      { w with weightWaiters := head :: rest }
    else grantWeightLoop budget rest (grantNow head.weight { w with expressOvertakes := 0 })

def grantWeight (budget : ℚ≥0) (w : Weights) : Weights := grantWeightLoop budget w.weightWaiters w

/-- The loop of `grantOvertakenHead` over the queue. -/
def grantOvertakenHeadLoop (budget : ℚ≥0) : List WeightWaiter → Weights → Weights
  | [], w => { w with weightWaiters := [] }
  | head :: rest, w =>
    if head.aborted then grantOvertakenHeadLoop budget rest { w with expressOvertakes := 0 }
    else if ceiling budget < w.outstandingWeight + head.weight then
      { w with weightWaiters := head :: rest }
    else grantNow head.weight { w with expressOvertakes := 0, weightWaiters := rest }

def grantOvertakenHead (budget : ℚ≥0) (w : Weights) : Weights :=
  grantOvertakenHeadLoop budget w.weightWaiters w

/-- `free`, of a reservation. -/
def free (budget : ℚ≥0) (i : ℕ) (w : Weights) : Weights :=
  match w.reservations[i]? with
  | none => w
  | some reservation =>
    if reservation.freed then w
    else grantWeight budget
      { w with
        outstandingWeight := w.outstandingWeight - reservation.weight
        reservations := w.reservations.set i { reservation with freed := true }
        frees := w.frees ++ [i] }

/-- A light reservation passes the head of the queue, if there is one. -/
def overtake (w : Weights) : Weights :=
  match w.weightWaiters with
  | [] => w
  | head :: _ =>
    { w with
      expressOvertakes := w.expressOvertakes + 1
      overtaken := w.overtaken ++ [head.id] }

/-- The promise of `reserve`: granted at once, granted past the queue, or parked. -/
def reserveWeight (budget weight : ℚ≥0) (w : Weights) : Weights :=
  let clamped := min weight budget
  if w.weightWaiters = [] ∧ w.outstandingWeight + clamped ≤ budget then grantNow clamped w
  else if (clamped : ℚ) ≤ budget / expressWeightDivisor ∧ w.expressOvertakes < expressMaxOvertakes ∧
      w.outstandingWeight + clamped ≤ ceiling budget then
    let granted := grantNow clamped (overtake w)
    if expressMaxOvertakes ≤ granted.expressOvertakes then grantOvertakenHead budget granted
    else granted
  else
    { w with
      weightWaiters := w.weightWaiters ++ [{ id := w.nextWaiter, weight := clamped }]
      nextWaiter := w.nextWaiter + 1 }

/-- The `onAbort` of a parked reservation. -/
def abortReserve (budget : ℚ≥0) (id : ℕ) (w : Weights) : Weights :=
  if w.weightWaiters.any (fun waiter => waiter.id = id && !waiter.aborted) then
    grantWeight budget
      { w with
        weightWaiters := w.weightWaiters.map fun waiter =>
          if waiter.id = id then { waiter with aborted := true } else waiter }
  else w

def heldWeight (reservations : List Reservation) : ℚ :=
  (reservations.map fun reservation => if reservation.freed then 0 else (reservation.weight : ℚ)).sum

/-! ## What the weights keep -/

/-- The heads of the queue are overtaken in order: the first one as often as it is counted, those
behind it not yet. -/
structure QueueInv (w : Weights) : Prop where
  ascending : w.weightWaiters.Pairwise (·.id < ·.id)
  known : ∀ waiter ∈ w.weightWaiters, waiter.id < w.nextWaiter
  fresh : ∀ id, w.nextWaiter ≤ id → w.overtaken.count id = 0
  bounded : ∀ id, w.overtaken.count id ≤ expressMaxOvertakes
  overtakes : w.expressOvertakes ≤ expressMaxOvertakes
  head : ∀ head rest, w.weightWaiters = head :: rest →
    w.overtaken.count head.id ≤ w.expressOvertakes ∧
      ∀ waiter ∈ rest, w.overtaken.count waiter.id = 0

/-- The outstanding weight is that of the reservations that are not freed, and within its bound. -/
structure WeightInv (budget : ℚ≥0) (w : Weights) : Prop where
  outstanding : w.outstandingWeight = heldWeight w.reservations
  atMost : w.outstandingWeight ≤ ceiling budget
  waiters : ∀ waiter ∈ w.weightWaiters, waiter.weight ≤ budget
  frees : w.frees.Nodup
  freed : ∀ i, i ∈ w.frees ↔ ∃ reservation, w.reservations[i]? = some reservation ∧
    reservation.freed = true
  queue : QueueInv w

theorem heldWeight_append (l l' : List Reservation) :
    heldWeight (l ++ l') = heldWeight l + heldWeight l' := by
  rw [heldWeight, List.map_append, List.sum_append]
  rfl

theorem heldWeight_nonneg (l : List Reservation) : 0 ≤ heldWeight l := by
  refine List.sum_nonneg fun x hx => ?_
  obtain ⟨reservation, -, rfl⟩ := List.mem_map.1 hx
  split_ifs
  · exact le_refl _
  · exact reservation.weight.2

theorem heldWeight_set {l : List Reservation} {i : ℕ} {reservation : Reservation}
    (h : l[i]? = some reservation) (hfreed : reservation.freed = false) :
    heldWeight (l.set i { reservation with freed := true }) =
      heldWeight l - reservation.weight := by
  obtain ⟨hi, rfl⟩ := List.getElem?_eq_some_iff.1 h
  have hlength : i < (l.map fun reservation =>
      if reservation.freed then 0 else (reservation.weight : ℚ)).length := by
    rwa [List.length_map]
  rw [heldWeight, List.map_set, List.sum_set', dif_pos hlength, List.getElem_map, hfreed]
  simp [heldWeight, sub_eq_add_neg]

section Queue

variable {w : Weights}

theorem QueueInv.shift {head : WeightWaiter} {rest : List WeightWaiter}
    (h : QueueInv { w with weightWaiters := head :: rest }) :
    QueueInv { w with weightWaiters := rest, expressOvertakes := 0 } where
  ascending := (List.pairwise_cons.1 h.ascending).2
  known := fun waiter hwaiter => h.known waiter (List.mem_cons_of_mem _ hwaiter)
  fresh := h.fresh
  bounded := h.bounded
  overtakes := Nat.zero_le _
  head := by
    have hrest := (h.head head rest rfl).2
    rintro next rest' rfl
    exact ⟨(hrest next List.mem_cons_self).le, fun waiter hwaiter =>
      hrest waiter (List.mem_cons_of_mem _ hwaiter)⟩

theorem QueueInv.grantNow (h : QueueInv w) (weight : ℚ≥0) : QueueInv (grantNow weight w) :=
  { h with }

/-- A light reservation passes a head that was overtaken less often than the bound. -/
theorem QueueInv.overtake (h : QueueInv w) (hlt : w.expressOvertakes < expressMaxOvertakes) :
    QueueInv (overtake w) := by
  unfold FlushWorker.overtake
  split
  · exact h
  · rename_i head rest hwaiters
    obtain ⟨hhead, hrest⟩ := h.head head rest hwaiters
    have hknown : head.id < w.nextWaiter := h.known head (hwaiters ▸ List.mem_cons_self)
    have hahead : ∀ waiter ∈ rest, head.id < waiter.id := by
      have hascending := h.ascending
      rw [hwaiters] at hascending
      exact (List.pairwise_cons.1 hascending).1
    refine ⟨h.ascending, h.known, fun id (hid : w.nextWaiter ≤ id) => ?_,
      fun id => ?_, hlt, fun head' rest' heq => ?_⟩
    · rw [List.count_append, h.fresh id hid, List.count_singleton, if_neg (by simp; omega)]
    · rw [List.count_append, List.count_singleton]
      have hbound := h.bounded id
      split_ifs with hid
      · rw [← eq_of_beq hid]
        omega
      · omega
    · obtain ⟨rfl, rfl⟩ := List.cons.inj (hwaiters.symm.trans heq)
      dsimp only
      refine ⟨?_, fun waiter hwaiter => ?_⟩
      · rw [List.count_append, List.count_singleton_self]
        omega
      · have hne := hahead waiter hwaiter
        rw [List.count_append, hrest waiter hwaiter, List.count_singleton,
          if_neg (by simp; omega)]

/-- A reservation parks behind the others; it is overtaken by nobody yet. -/
theorem QueueInv.park (h : QueueInv w) (weight : ℚ≥0) :
    QueueInv { w with
      weightWaiters := w.weightWaiters ++ [{ id := w.nextWaiter, weight := weight }]
      nextWaiter := w.nextWaiter + 1 } := by
  refine ⟨?_, fun waiter hwaiter => ?_, fun id hid => h.fresh id (Nat.le_of_succ_le hid), h.bounded,
    h.overtakes, fun head rest heq => ?_⟩
  · refine List.pairwise_append.2 ⟨h.ascending, List.pairwise_singleton _ _, fun a ha b hb => ?_⟩
    rw [List.mem_singleton.1 hb]
    exact h.known a ha
  · rcases List.mem_append.1 hwaiter with hold | hnew
    · exact Nat.lt_succ_of_lt (h.known waiter hold)
    · rw [List.mem_singleton.1 hnew]
      exact Nat.lt_succ_self _
  · have hfresh := h.fresh w.nextWaiter le_rfl
    cases hwaiters : w.weightWaiters with
    | nil =>
      rw [hwaiters] at heq
      obtain ⟨rfl, rfl⟩ := List.cons.inj heq
      exact ⟨hfresh.le.trans (Nat.zero_le _), fun waiter hwaiter => absurd hwaiter List.not_mem_nil⟩
    | cons first others =>
      rw [hwaiters, List.cons_append] at heq
      obtain ⟨rfl, rfl⟩ := List.cons.inj heq
      obtain ⟨hhead, hrest⟩ := h.head first others hwaiters
      refine ⟨hhead, fun waiter hwaiter => ?_⟩
      rcases List.mem_append.1 hwaiter with hold | hnew
      · exact hrest waiter hold
      · rw [List.mem_singleton.1 hnew]
        exact hfresh

theorem QueueInv.mark (h : QueueInv w) (mark : WeightWaiter → WeightWaiter)
    (hmark : ∀ waiter, (mark waiter).id = waiter.id) :
    QueueInv { w with weightWaiters := w.weightWaiters.map mark } := by
  refine ⟨List.pairwise_map.2 ?_, fun waiter hwaiter => ?_, h.fresh, h.bounded, h.overtakes,
    fun head rest heq => ?_⟩
  · refine h.ascending.imp fun hlt => ?_
    rwa [hmark, hmark]
  · obtain ⟨original, horiginal, rfl⟩ := List.mem_map.1 hwaiter
    rw [hmark]
    exact h.known original horiginal
  · obtain ⟨first, others, hwaiters, rfl, rfl⟩ := List.map_eq_cons_iff.1 heq
    obtain ⟨hhead, hrest⟩ := h.head first others hwaiters
    refine ⟨by rwa [hmark], fun waiter hwaiter => ?_⟩
    obtain ⟨original, horiginal, rfl⟩ := List.mem_map.1 hwaiter
    rw [hmark]
    exact hrest original horiginal

end Queue

section Weights

variable {budget : ℚ≥0} {w : Weights}

theorem WeightInv.shift {head : WeightWaiter} {rest : List WeightWaiter}
    (h : WeightInv budget { w with weightWaiters := head :: rest }) :
    WeightInv budget { w with weightWaiters := rest, expressOvertakes := 0 } where
  outstanding := h.outstanding
  atMost := h.atMost
  waiters := fun waiter hwaiter => h.waiters waiter (List.mem_cons_of_mem _ hwaiter)
  frees := h.frees
  freed := h.freed
  queue := h.queue.shift

theorem WeightInv.grantNow (h : WeightInv budget w) {weight : ℚ≥0}
    (hfits : w.outstandingWeight + weight ≤ ceiling budget) :
    WeightInv budget (grantNow weight w) where
  outstanding := by
    have hnew : heldWeight [{ weight := weight }] = weight := by simp [heldWeight]
    show w.outstandingWeight + weight = heldWeight (w.reservations ++ _)
    rw [heldWeight_append, hnew, h.outstanding]
  atMost := hfits
  waiters := h.waiters
  frees := h.frees
  freed := by
    intro i
    rw [FlushWorker.grantNow]
    dsimp only
    rw [h.freed i, List.getElem?_append]
    split_ifs with hi
    · rfl
    · rw [List.getElem?_eq_none (not_lt.1 hi)]
      constructor
      · rintro ⟨reservation, hnone, -⟩
        cases hnone
      · -- the new one is not freed
        rintro ⟨reservation, hnew, hfreed⟩
        rw [List.getElem?_singleton] at hnew
        split_ifs at hnew
        rw [← Option.some.inj hnew] at hfreed
        cases hfreed
  queue := h.queue.grantNow weight

theorem ceiling_le (budget : ℚ≥0) : (budget : ℚ) ≤ ceiling budget := by
  have hbudget : (0 : ℚ) ≤ budget := budget.2
  have hheadroom : (0 : ℚ) ≤ budget / expressHeadroomDivisor :=
    div_nonneg hbudget (by norm_num [expressHeadroomDivisor])
  rw [ceiling]
  linarith

theorem WeightInv.grantWeightLoop {waiters : List WeightWaiter}
    (h : WeightInv budget { w with weightWaiters := waiters }) :
    WeightInv budget (grantWeightLoop budget waiters w) := by
  induction waiters generalizing w with
  | nil => exact h
  | cons head rest ih =>
    rw [FlushWorker.grantWeightLoop]
    split_ifs with haborted hfits
    · exact ih h.shift
    · exact h
    · refine ih (w := FlushWorker.grantNow head.weight { w with expressOvertakes := 0 }) ?_
      exact h.shift.grantNow ((not_lt.1 hfits).trans (ceiling_le budget))

theorem WeightInv.grantWeight (h : WeightInv budget w) : WeightInv budget (grantWeight budget w) :=
  WeightInv.grantWeightLoop h

theorem WeightInv.grantOvertakenHeadLoop {waiters : List WeightWaiter}
    (h : WeightInv budget { w with weightWaiters := waiters }) :
    WeightInv budget (grantOvertakenHeadLoop budget waiters w) := by
  induction waiters generalizing w with
  | nil => exact h
  | cons head rest ih =>
    rw [FlushWorker.grantOvertakenHeadLoop]
    split_ifs with haborted hfits
    · exact ih h.shift
    · exact h
    · exact h.shift.grantNow (not_lt.1 hfits)

/-- **A reservation is freed once**, and its weight is given back. -/
theorem WeightInv.free (h : WeightInv budget w) (i : ℕ) : WeightInv budget (free budget i w) := by
  unfold FlushWorker.free
  split
  · exact h
  · rename_i reservation hreservation
    split_ifs with hfreed
    · exact h
    · rw [Bool.not_eq_true] at hfreed
      have hweight : (0 : ℚ) ≤ reservation.weight := reservation.weight.2
      have hnew : i ∉ w.frees := by
        rw [h.freed i]
        rintro ⟨other, hother, htrue⟩
        rw [Option.some.inj (hother.symm.trans hreservation), hfreed] at htrue
        cases htrue
      refine WeightInv.grantWeight ⟨?_, ?_, h.waiters, ?_, fun j => ?_, h.queue.ascending,
        h.queue.known, h.queue.fresh, h.queue.bounded, h.queue.overtakes, h.queue.head⟩
      · dsimp only
        rw [heldWeight_set hreservation hfreed, h.outstanding]
      · have hceiling := h.atMost
        dsimp only
        linarith
      · exact List.nodup_append.2 ⟨h.frees, List.nodup_singleton _, fun a ha b hb hab =>
          hnew (List.mem_singleton.1 hb ▸ hab ▸ ha)⟩
      · obtain ⟨hi, -⟩ := List.getElem?_eq_some_iff.1 hreservation
        dsimp only
        rw [List.mem_append, h.freed j, List.mem_singleton, List.getElem?_set]
        by_cases hij : i = j
        · subst hij
          simp [hi]
        · rw [if_neg hij]
          simp [Ne.symm hij]

theorem outstandingWeight_overtake (w : Weights) :
    (overtake w).outstandingWeight = w.outstandingWeight := by
  unfold overtake
  split <;> rfl

theorem WeightInv.express (h : WeightInv budget w) {weight : ℚ≥0}
    (hovertakes : w.expressOvertakes < expressMaxOvertakes)
    (hfits : w.outstandingWeight + weight ≤ ceiling budget) :
    WeightInv budget (FlushWorker.grantNow weight (overtake w)) := by
  have hqueue := h.queue.overtake hovertakes
  refine WeightInv.grantNow ?_ (by rwa [outstandingWeight_overtake])
  unfold overtake at hqueue ⊢
  split at hqueue
  · exact { h with queue := hqueue }
  · exact { h with queue := hqueue }

/-- **A reservation is granted or parked** within the bounds. -/
theorem WeightInv.reserve (h : WeightInv budget w) (weight : ℚ≥0) :
    WeightInv budget (reserveWeight budget weight w) := by
  unfold reserveWeight
  dsimp only
  split_ifs with hfast hexpress hovertaken
  · exact h.grantNow (hfast.2.trans (ceiling_le budget))
  · exact WeightInv.grantOvertakenHeadLoop (h.express hexpress.2.1 hexpress.2.2)
  · exact h.express hexpress.2.1 hexpress.2.2
  · refine { h with waiters := fun waiter hwaiter => ?_, queue := h.queue.park _ }
    rcases List.mem_append.1 hwaiter with hold | hnew
    · exact h.waiters waiter hold
    · rw [List.mem_singleton.1 hnew]
      exact min_le_right _ _

/-- A parked reservation is given up, and heads that were given up leave the queue. -/
theorem WeightInv.abortReserve (h : WeightInv budget w) (id : ℕ) :
    WeightInv budget (abortReserve budget id w) := by
  unfold FlushWorker.abortReserve
  split_ifs
  · refine WeightInv.grantWeight { h with waiters := fun waiter hwaiter => ?_, queue := h.queue.mark _ fun waiter => ?_ }
    · obtain ⟨original, horiginal, rfl⟩ := List.mem_map.1 hwaiter
      have hweight := h.waiters original horiginal
      split_ifs <;> exact hweight
    · split_ifs <;> rfl
  · exact h

/-! ## Granted reservations -/

/-- A reservation that was just created. -/
def Reservation.IsNew (reservation : Reservation) : Prop :=
  reservation = { weight := reservation.weight }

/-- Reservations are only added, new ones at the end. -/
def Extends (l l' : List Reservation) : Prop :=
  ∃ added, l' = l ++ added ∧ ∀ reservation ∈ added, reservation.IsNew

theorem Extends.refl (l : List Reservation) : Extends l l :=
  ⟨[], (List.append_nil l).symm, fun _ h => absurd h List.not_mem_nil⟩

theorem Extends.grantNow {l : List Reservation} (h : Extends l w.reservations) (weight : ℚ≥0) :
    Extends l (grantNow weight w).reservations := by
  obtain ⟨added, heq, hadded⟩ := h
  refine ⟨added ++ [{ weight := weight }], ?_, fun reservation hmem => ?_⟩
  · show w.reservations ++ _ = _
    rw [heq, List.append_assoc]
  · rcases List.mem_append.1 hmem with hold | hnew
    · exact hadded reservation hold
    · rw [List.mem_singleton.1 hnew]
      rfl

theorem Extends.grantWeightLoop {l : List Reservation} (waiters : List WeightWaiter)
    (h : Extends l w.reservations) : Extends l (grantWeightLoop budget waiters w).reservations := by
  induction waiters generalizing w with
  | nil => exact h
  | cons head rest ih =>
    rw [FlushWorker.grantWeightLoop]
    split_ifs
    · exact ih (w := { w with expressOvertakes := 0 }) h
    · exact h
    · exact ih (Extends.grantNow (w := { w with expressOvertakes := 0 }) h head.weight)

theorem Extends.grantOvertakenHeadLoop {l : List Reservation} (waiters : List WeightWaiter)
    (h : Extends l w.reservations) :
    Extends l (grantOvertakenHeadLoop budget waiters w).reservations := by
  induction waiters generalizing w with
  | nil => exact h
  | cons head rest ih =>
    rw [FlushWorker.grantOvertakenHeadLoop]
    split_ifs
    · exact ih (w := { w with expressOvertakes := 0 }) h
    · exact h
    · exact Extends.grantNow (w := { w with expressOvertakes := 0, weightWaiters := rest }) h
        head.weight

theorem extends_reserveWeight (weight : ℚ≥0) :
    Extends w.reservations (reserveWeight budget weight w).reservations := by
  have hovertake : (overtake w).reservations = w.reservations := by
    unfold overtake
    split <;> rfl
  have hexpress : ∀ weight, Extends w.reservations (grantNow weight (overtake w)).reservations :=
    fun weight => Extends.grantNow (hovertake ▸ Extends.refl _) weight
  unfold reserveWeight
  dsimp only
  split_ifs
  · exact (Extends.refl _).grantNow _
  · exact (hexpress _).grantOvertakenHeadLoop _
  · exact hexpress _
  · exact Extends.refl _

theorem extends_abortReserve (id : ℕ) :
    Extends w.reservations (abortReserve budget id w).reservations := by
  unfold abortReserve
  split_ifs
  · exact Extends.grantWeightLoop (w := { w with weightWaiters := _ }) _ (Extends.refl w.reservations)
  · exact Extends.refl _

theorem extends_free (i : ℕ) :
    Extends (w.reservations.modify i fun reservation => { reservation with freed := true })
      (free budget i w).reservations := by
  unfold free
  split
  · rename_i hnone
    rw [List.modify_eq_self (List.getElem?_eq_none_iff.1 hnone)]
    exact Extends.refl _
  · rename_i reservation hreservation
    have hset : w.reservations.modify i (fun reservation => { reservation with freed := true }) =
        w.reservations.set i { reservation with freed := true } := by
      refine List.ext_getElem? fun j => ?_
      rw [List.getElem?_modify, List.getElem?_set]
      split_ifs with hij hi
      · rw [← hij, hreservation]
        rfl
      · rw [← hij, List.getElem?_eq_none (not_lt.1 hi)]
        rfl
      · simp
    rw [hset]
    split_ifs with hfreed
    · -- it is marked already
      have hsame : { reservation with freed := true } = reservation := by rw [← hfreed]
      obtain ⟨hi, rfl⟩ := List.getElem?_eq_some_iff.1 hreservation
      rw [hsame, List.set_getElem_self]
      exact Extends.refl _
    · rw [grantWeight]
      exact Extends.grantWeightLoop _ (Extends.refl _)

end Weights

end FlushWorker

end Keeper
