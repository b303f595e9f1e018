import Keeper.FlushWorker.Items
import Keeper.FlushWorker.Slots

/-!
# Execution of a flush worker

Every job of the worker moves its items as a worker should. With what is kept of the writer slots, no
item is lost, whatever the order of the jobs.

* `step_items`: what a job does to the items.
* `flushWorker_isOrderly`: the bound on runs, single runs and settlements, order, and what is left when
  every `prepare` and `run` has ended.
-/

namespace Keeper

namespace FlushWorker

variable {o : Options} {s : Worker} {R : ℕ → Prop}

/-! ## The items of a worker -/

/-- The submissions that wait for a place in the queue. -/
def liveEntries (waiters : List SlotWaiter) : List Entry :=
  (waiters.filter (!·.aborted)).map (·.entry)

/-- The items of a worker, without the order in which those that have begun wait. -/
def Worker.items (s : Worker) : Items where
  queue := s.queue
  parked := liveEntries s.slotWaiters
  begun := (s.preparing : Multiset Entry) + s.writerSlotWaiters + s.owners
  running := s.running
  finished := s.finished
  runs := s.runs
  accepted := s.accepted
  expired := s.expired
  outcomes := s.outcomes
  nextItem := s.nextItem

theorem ItemStep.of_eq {i j k : Items} (h : ItemStep R i j) (heq : j = k) :
    ItemStep R i k := heq ▸ h

theorem ItemSteps.of_eq {i j : Items} (heq : i = j) : ItemSteps R i j := heq ▸ .refl i

theorem liveEntries_eq_nil {waiters : List SlotWaiter} (h : ∀ waiter ∈ waiters, waiter.aborted = true) :
    liveEntries waiters = [] := by
  have hfilter : waiters.filter (!·.aborted) = [] :=
    List.filter_eq_nil_iff.2 fun waiter hwaiter => by rw [h waiter hwaiter]; decide
  rw [liveEntries, hfilter, List.map_nil]

theorem liveEntries_append (waiters waiters' : List SlotWaiter) :
    liveEntries (waiters ++ waiters') = liveEntries waiters ++ liveEntries waiters' := by
  rw [liveEntries, List.filter_append, List.map_append]
  rfl

theorem liveEntries_cons {waiter : SlotWaiter} (h : waiter.aborted = false)
    (rest : List SlotWaiter) : liveEntries (waiter :: rest) = waiter.entry :: liveEntries rest := by
  rw [liveEntries, List.filter_cons, h]
  rfl

theorem liveEntries_mark (id : ℕ) (waiters : List SlotWaiter) :
    liveEntries (waiters.map fun waiter : SlotWaiter =>
      if waiter.entry.id = id then { waiter with aborted := true } else waiter) =
      (liveEntries waiters).filter (·.id ≠ id) := by
  induction waiters with
  | nil => rfl
  | cons waiter rest ih =>
    rw [liveEntries] at ih ⊢
    by_cases hid : waiter.entry.id = id <;> cases haborted : waiter.aborted <;>
      simp [liveEntries, hid, haborted, ih]

theorem ParkedInv.liveEntries_eq_nil (h : ParkedInv o s) (hroom : s.queue.length < o.capacity) :
    liveEntries s.slotWaiters = [] := by
  refine FlushWorker.liveEntries_eq_nil fun waiter hwaiter => ?_
  by_contra hlive
  exact absurd (h ⟨waiter, hwaiter, Bool.eq_false_iff.2 hlive⟩) (not_le.2 hroom)

/-! ## Functions -/

theorem items_notifyIfIdle (s : Worker) : (notifyIfIdle s).items = s.items := by
  unfold notifyIfIdle
  split_ifs <;> rfl

theorem items_freeWeight (i : ℕ) (s : Worker) : (freeWeight o i s).items = s.items := by
  unfold freeWeight
  split <;> rfl

theorem items_finish (entry : Entry) (s : Worker) :
    (finish o entry s).items = { s.items with finished := entry ::ₘ s.items.finished } := by
  have hdone : (Worker.items
      { s with inFlight := s.inFlight - 1, finished := s.finished ++ [entry] }) =
      { s.items with finished := entry ::ₘ s.items.finished } := by
    simp only [Worker.items, coe_append_singleton]
  unfold finish
  dsimp only
  rw [items_notifyIfIdle]
  split
  · rw [items_freeWeight, hdone]
  · exact hdone

theorem items_releaseWriterSlot (s : Worker) : (releaseWriterSlot s).items = s.items := by
  unfold releaseWriterSlot
  split
  · rename_i nextOwner rest hwaiters
    simp only [Worker.items, hwaiters, coe_append_singleton, ← Multiset.cons_coe,
      Multiset.cons_add, Multiset.add_cons]
  · rfl

theorem items_claim (entry : Entry) (s : Worker) :
    ItemSteps R { s.items with begun := entry ::ₘ s.items.begun } (claim o entry s).items := by
  unfold claim
  split_ifs
  · refine ItemSteps.of_eq ?_
    simp only [Worker.items, coe_append_singleton, Multiset.cons_add, Multiset.add_cons]
  · have hmem : entry ∈ entry ::ₘ s.items.begun := Multiset.mem_cons_self _ _
    refine ItemStep.steps ((ItemStep.claim entry hmem).of_eq ?_)
    simp only [Multiset.erase_cons_head, runItem, Worker.items, coe_append_singleton]

theorem items_startItem (hfree : ¬ o.writerConcurrency ≤ s.writerSlotsInUse) (entry : Entry) :
    ItemStep R { s.items with queue := entry :: s.items.queue } (startItem o entry s).items := by
  unfold startItem
  dsimp only
  split_ifs with hprepares
  · refine (ItemStep.begin entry s.items.queue rfl hprepares).of_eq ?_
    simp only [Worker.items, coe_append_singleton, Multiset.cons_add]
  · rw [Bool.not_eq_true] at hprepares
    refine (ItemStep.start entry s.items.queue rfl hprepares).of_eq ?_
    rw [claim, if_neg hfree]
    simp only [runItem, Worker.items, coe_append_singleton]

theorem items_grantSlot (front : List Entry) (s : Worker) :
    ItemSteps R { s.items with queue := front ++ s.items.queue }
      { (grantSlot id s).items with queue := front ++ (grantSlot id s).items.queue } := by
  rw [grantSlot]
  rcases grantSlotLoop_cases s.slotWaiters s with ⟨hall, heq⟩ | ⟨dropped, waiter, rest, hwaiters,
    hdropped, hlive, heq⟩
  · rw [heq]
    refine ItemSteps.of_eq ?_
    simp only [Worker.items, liveEntries_eq_nil hall]
    rfl
  · have hparked : s.items.parked = waiter.entry :: liveEntries rest := by
      show liveEntries s.slotWaiters = _
      rw [hwaiters, liveEntries_append, liveEntries_eq_nil hdropped, liveEntries_cons hlive,
        List.nil_append]
    have hstep := ItemStep.grant (R := R) (i := { s.items with queue := front ++ s.items.queue }) waiter.entry
      (liveEntries rest) hparked
    rw [heq]
    refine ItemStep.steps (hstep.of_eq ?_)
    simp only [Worker.items, List.append_assoc]

theorem writerSlotsInUse_grantSlot (s : Worker) :
    (grantSlot id s).writerSlotsInUse = s.writerSlotsInUse := by
  rw [grantSlot]
  rcases grantSlotLoop_cases s.slotWaiters s with ⟨-, heq⟩ | ⟨dropped, waiter, rest, -, -, -, heq⟩
  · rw [heq]
  · rw [heq]

/-- **One iteration of the pump** starts at most the head of the queue. -/
theorem items_iterate (s : Worker) : ItemSteps R s.items (iterate o s).items := by
  unfold iterate
  split
  · rw [items_notifyIfIdle]
    exact .refl _
  · rename_i next rest hqueue
    split_ifs with hfull
    · exact .refl _
    · have hgrant := items_grantSlot (R := R) [next] { s with queue := rest, pump := .yielded }
      have hstart := items_startItem (R := R) (o := o) (s := grantSlot id
        { s with queue := rest, pump := .yielded })
        (by rwa [writerSlotsInUse_grantSlot]) next
      refine ItemSteps.trans (ItemSteps.of_eq ?_) (hgrant.trans hstart.steps)
      simp only [Worker.items, hqueue]
      rfl

theorem items_pump (s : Worker) : ItemSteps R s.items (pump o s).items := by
  unfold pump
  split_ifs
  · exact items_iterate s
  · exact .refl _

/-! ## Jobs -/

theorem items_enter {entry : Entry} (hid : entry.id = s.nextItem)
    (hplain : entry.settle = none → s.items.parked = [])
    (hreserved : ∀ reservation, entry.settle = some reservation → R reservation) :
    ItemSteps R s.items (enqueue (pump o) entry { s with nextItem := s.nextItem + 1 }).items := by
  refine ItemSteps.next (ItemStep.enter entry hid hplain hreserved) ?_
  exact items_pump { s with
    queue := s.queue ++ [entry]
    accepted := s.accepted ++ [entry]
    nextItem := s.nextItem + 1 }

theorem items_submit (h : ParkedInv o s) (prepares aborted : Bool) :
    ItemSteps R s.items (submit o prepares aborted s).items := by
  unfold submit
  dsimp only
  split_ifs with hclosed haborted hroom
  · exact (ItemStep.refuse .closed).steps
  · exact (ItemStep.refuse .aborted).steps
  · exact items_enter rfl (fun _ => h.liveEntries_eq_nil hroom) fun _ hsettle => (by cases hsettle)
  · refine ItemStep.steps ((ItemStep.park { id := s.nextItem, prepares := prepares } rfl
      rfl).of_eq ?_)
    simp only [Worker.items, liveEntries_append]
    rfl

/-- It does not matter whether a promise is settled before a place is granted. -/
theorem settlePromise_grantSlotLoop (item : ℕ) (outcome : Outcome) (waiters : List SlotWaiter)
    (s : Worker) : settlePromise item outcome (grantSlotLoop id waiters s) =
      grantSlotLoop id waiters (settlePromise item outcome s) := by
  induction waiters with
  | nil => rfl
  | cons first others ih =>
    rw [grantSlotLoop, grantSlotLoop]
    split_ifs
    · exact ih
    · rfl

theorem items_settlePromise (item : ℕ) (outcome : Outcome) (s : Worker) :
    (settlePromise item outcome s).items =
      { s.items with outcomes := settled s.items.outcomes item outcome } := rfl

theorem items_abortSubmission (h : SlotInv o 0 0 s) (item : ℕ) :
    ItemSteps R s.items (abortSubmission o item s).items := by
  unfold abortSubmission
  split
  · rename_i entry hfind
    obtain ⟨hmem, rfl, hsettle⟩ := mem_of_find? hfind
    rw [grantSlot_pump (s := { s with queue := s.queue.erase entry }) (h.pump_ne_idle hmem),
      grantSlot, settlePromise_grantSlotLoop]
    refine ItemSteps.next (ItemStep.abortQueued entry hmem hsettle .aborted) ?_
    exact items_grantSlot [] (settlePromise entry.id .aborted
      { s with queue := s.queue.erase entry })
  · split_ifs
    · refine ItemStep.steps ((ItemStep.abortParked item .aborted).of_eq ?_)
      simp only [settlePromise, Worker.items, liveEntries_mark]
    · exact .refl _

def Worker.Granted (s : Worker) (i : ℕ) : Prop := i < s.weights.reservations.length

theorem items_reservationSubmit (i : ℕ) (prepares : Bool) :
    ItemSteps s.Granted s.items (reservationSubmit o i prepares s).items := by
  unfold reservationSubmit
  split
  · exact .refl _
  · rename_i reservation hreservation
    dsimp only
    split_ifs
    · exact .refl _
    · refine ItemStep.steps ((ItemStep.refuse .closed).of_eq ?_)
      rw [items_settlePromise, items_freeWeight]
      rfl
    · exact items_enter (s := modifyReservation i (fun r => { r with
        submitted := true, refused := s.closed }) s) rfl (fun hplain => (by cases hplain))
        fun j hj => Option.some.inj hj ▸ (List.getElem?_eq_some_iff.1 hreservation).1

/-- The promises of parked submissions are settled by `close`. -/
theorem rejectSlotWaiters_outcomes (waiters : List SlotWaiter) (s : Worker) :
    Keeps s.outcomes (rejectSlotWaiters waiters s).outcomes ∧
      ∀ waiter ∈ waiters, (rejectSlotWaiters waiters s).outcomes waiter.entry.id ≠ none := by
  induction waiters generalizing s with
  | nil => exact ⟨Keeps.refl _, fun _ h => absurd h List.not_mem_nil⟩
  | cons first others ih =>
    obtain ⟨hkeeps, hsettled⟩ := ih (settlePromise first.entry.id .closed s)
    refine ⟨(keeps_settled _ _ _).trans hkeeps, fun waiter hwaiter => ?_⟩
    rcases List.mem_cons.1 hwaiter with rfl | hother
    · exact hkeeps.ne_none (settled_ne_none _ _ _)
    · exact hsettled waiter hother

theorem items_close (s : Worker) : ItemSteps R s.items (close s).items := by
  obtain ⟨hkeeps, hsettled⟩ := rejectSlotWaiters_outcomes s.slotWaiters { s with closed := true }
  obtain ⟨outcomes, heq⟩ := rejectSlotWaiters_eq s.slotWaiters { s with closed := true }
  rw [heq] at hkeeps hsettled
  have hrejected : ItemStep R s.items { s.items with parked := [], outcomes := outcomes } := by
    refine ItemStep.reject outcomes hkeeps fun entry hentry => ?_
    obtain ⟨waiter, hwaiter, rfl⟩ := List.mem_map.1 hentry
    exact hsettled waiter (List.mem_of_mem_filter hwaiter)
  unfold close
  dsimp only
  rw [heq]
  split_ifs
  · exact hrejected.steps
  · exact hrejected.steps

/-- What a started item settles keeps the others, and its own promise is settled. -/
theorem settleUnlessExpired_spec (h : ∀ item ∈ s.expired, s.outcomes item ≠ none) (item : ℕ)
    (outcome : Outcome) :
    ∃ outcomes, settleUnlessExpired item outcome s = { s with outcomes := outcomes } ∧
      Keeps s.outcomes outcomes ∧ outcomes item ≠ none := by
  unfold settleUnlessExpired
  split_ifs with hexpired
  · exact ⟨s.outcomes, rfl, Keeps.refl _, h item hexpired⟩
  · exact ⟨_, rfl, keeps_settled _ _ _, settled_ne_none _ _ _⟩

theorem items_erase_preparing {entry : Entry} (h : entry ∈ s.preparing) :
    (Worker.items { s with preparing := s.preparing.erase entry }) =
      { s.items with begun := s.items.begun.erase entry } := by
  have hbegun : ((s.preparing.erase entry : List Entry) : Multiset Entry) + s.writerSlotWaiters +
      s.owners = s.items.begun.erase entry := by
    rw [← Multiset.coe_erase, Worker.items]
    dsimp only
    rw [Multiset.add_assoc, Multiset.add_assoc, Multiset.erase_add_left_pos _ (Multiset.mem_coe.2 h)]
  rw [← hbegun]
  rfl

theorem items_erase_owners {entry : Entry} (h : entry ∈ s.owners) :
    (Worker.items { s with owners := s.owners.erase entry }) =
      { s.items with begun := s.items.begun.erase entry } := by
  have hbegun : (s.preparing : Multiset Entry) + s.writerSlotWaiters +
      (s.owners.erase entry : List Entry) = s.items.begun.erase entry := by
    rw [← Multiset.coe_erase, Worker.items]
    dsimp only
    rw [Multiset.erase_add_right_pos _ (Multiset.mem_coe.2 h)]
  rw [← hbegun]
  rfl

theorem items_erase_running (entry : Entry) :
    (Worker.items { s with running := s.running.erase entry }) =
      { s.items with running := s.items.running.erase entry } := by
  simp only [Worker.items, Multiset.coe_erase]

theorem items_prepareEnds (h : ItemInv s.items) (entry : Entry) (preparation : Preparation) :
    ItemSteps R s.items (prepareEnds o entry preparation s).items := by
  unfold prepareEnds
  split_ifs with hentry
  · have hbegun : entry ∈ s.items.begun :=
      Multiset.mem_add.2 (Or.inl (Multiset.mem_add.2 (Or.inl (Multiset.mem_coe.2 hentry))))
    have herase := items_erase_preparing hentry
    have hskip : ∀ outcome, ItemSteps R s.items (finish o entry (settleUnlessExpired entry.id outcome
        { s with preparing := s.preparing.erase entry })).items := by
      intro outcome
      obtain ⟨outcomes, heq, hkeeps, hsettled⟩ := settleUnlessExpired_spec
        (s := { s with preparing := s.preparing.erase entry }) h.expired entry.id outcome
      have hitems : (Worker.items { s with
          preparing := s.preparing.erase entry
          outcomes := outcomes }) =
          { s.items with begun := s.items.begun.erase entry, outcomes := outcomes } :=
        congrArg (fun i : Items => { i with outcomes := outcomes }) herase
      rw [heq, items_finish, hitems]
      exact ItemSteps.next (ItemStep.settle outcomes hkeeps)
        (ItemStep.skip (i := { s.items with outcomes := outcomes }) entry hbegun hsettled).steps
    dsimp only
    cases preparation with
    | result => exact hskip .prepared
    | error => exact hskip .error
    | null =>
      refine ItemSteps.trans (ItemSteps.of_eq ?_) (items_claim entry _)
      rw [herase]
      dsimp only
      rw [Multiset.cons_erase hbegun]
  · exact .refl _

theorem items_runEnds (h : ItemInv s.items) (entry : Entry) (fails : Bool) :
    ItemSteps R s.items (runEnds o entry fails s).items := by
  unfold runEnds
  dsimp only
  split
  · rename_i hentry
    obtain ⟨outcomes, heq, hkeeps, hsettled⟩ := settleUnlessExpired_spec
      (s := { s with running := s.running.erase entry }) h.expired entry.id
      (if fails then .error else .value)
    have hitems : (Worker.items { s with
        running := s.running.erase entry
        outcomes := outcomes }) =
        { s.items with running := s.items.running.erase entry, outcomes := outcomes } :=
      congrArg (fun i : Items => { i with outcomes := outcomes }) (items_erase_running entry)
    rw [heq, items_finish, items_releaseWriterSlot, hitems]
    exact ItemSteps.next (ItemStep.settle outcomes hkeeps)
      (ItemStep.finish (i := { s.items with outcomes := outcomes }) entry
        (Multiset.mem_coe.2 hentry) hsettled).steps
  · exact .refl _

theorem items_ownsSlot (entry : Entry) : ItemSteps R s.items (ownsSlot entry s).items := by
  unfold ownsSlot
  split_ifs with hentry
  · have hbegun : entry ∈ s.items.begun :=
      Multiset.mem_add.2 (Or.inr (Multiset.mem_coe.2 hentry))
    refine ItemStep.steps ((ItemStep.claim entry hbegun).of_eq ?_)
    have hitems : (runItem entry { s with owners := s.owners.erase entry }).items =
        { Worker.items { s with owners := s.owners.erase entry } with
          running := entry ::ₘ s.items.running
          runs := s.items.runs ++ [entry] } := by
      simp only [runItem, Worker.items, coe_append_singleton]
    rw [hitems, items_erase_owners hentry]
  · exact .refl _

/-- **What a job does to the items.** -/
theorem step_items (hslots : SlotInv o 0 0 s) (hparked : ParkedInv o s) (hitems : ItemInv s.items)
    (action : Action) : ItemSteps s.Granted s.items (step o s action).items := by
  cases action with
  | submit prepares aborted => exact items_submit hparked prepares aborted
  | abortSubmission item => exact items_abortSubmission hslots item
  | reserve weight aborted =>
    show ItemSteps s.Granted s.items (reserve o weight aborted s).items
    unfold reserve
    split
    · exact .refl _
    · split_ifs <;> exact .refl _
  | abortReservation item =>
    show ItemSteps s.Granted s.items (abortReservation o item s).items
    unfold abortReservation
    split <;> exact .refl _
  | release i =>
    show ItemSteps s.Granted s.items (release o i s).items
    unfold release
    split
    · exact .refl _
    · split_ifs
      · exact .refl _
      · rw [items_freeWeight]
        exact .refl _
  | reservationSubmit i prepares => exact items_reservationSubmit i prepares
  | close => exact items_close s
  | prepareEnds entry preparation => exact items_prepareEnds hitems entry preparation
  | runEnds entry fails => exact items_runEnds hitems entry fails
  | deadline entry =>
    show ItemSteps s.Granted s.items (deadline entry s).items
    unfold deadline
    split_ifs
    · exact (ItemStep.expire entry.id .deadline).steps
    · exact .refl _
  | ownsSlot entry => exact items_ownsSlot entry
  | pumpResumes =>
    show ItemSteps s.Granted s.items (pumpResumes o s).items
    unfold pumpResumes
    split_ifs
    · exact items_iterate s
    · exact .refl _

/-! ## Runs -/

structure WorkerInv (o : Options) (s : Worker) : Prop where
  slots : SlotInv o 0 0 s
  parked : ParkedInv o s
  items : ItemInv s.items
  order : OrderInv s.items

theorem WorkerInv.step (h : WorkerInv o s) (action : Action) : WorkerInv o (step o s action) where
  slots := h.slots.step action
  parked := h.parked.step h.slots action
  items := (step_items h.slots h.parked h.items action).induction
    (fun _ _ hstep hi => ItemInv.step hi hstep) h.items
  order := (step_items h.slots h.parked h.items action).induction
    (fun _ _ hstep hi => OrderInv.step hi hstep) h.order

theorem workerInv_initial (o : Options) : WorkerInv o {} where
  slots := by
    refine ⟨rfl, Nat.zero_le _, fun h => absurd rfl h, fun h => (by cases h), fun _ => rfl, rfl,
      fun _ => rfl, fun h => absurd h (lt_irrefl 0), fun h => absurd h (lt_irrefl 0)⟩
  parked := fun ⟨_, hwaiter, _⟩ => absurd hwaiter List.not_mem_nil
  items := by
    refine ⟨Multiset.nodup_zero, fun _ h => absurd h (Multiset.notMem_zero _), le_rfl,
      fun id h => absurd h (Nat.not_lt_zero id), fun _ h => absurd h List.not_mem_nil⟩
  order := by
    refine ⟨fun _ h => absurd h List.not_mem_nil, fun _ h => absurd h (Multiset.notMem_zero _),
      fun _ h => absurd h List.not_mem_nil, List.Pairwise.nil, List.Sublist.refl _⟩

theorem workerInv_run (h : WorkerInv o s) (actions : List Action) : WorkerInv o (run o s actions) :=
  run_induction o (fun _ action hs => hs.step action) h actions

/-- **A settled promise** is never settled again. -/
theorem keeps_run (h : WorkerInv o s) (actions : List Action) :
    Keeps s.outcomes (run o s actions).outcomes := by
  have hkeeps := run_induction (s := s) o
    (P := fun s' => WorkerInv o s' ∧ Keeps s.outcomes s'.outcomes)
    (fun s' action hs' => ⟨hs'.1.step action, hs'.2.trans ?_⟩) ⟨h, Keeps.refl _⟩ actions
  · exact hkeeps.2
  · have hsteps := step_items hs'.1.slots hs'.1.parked hs'.1.items action
    exact hsteps.induction (P := fun i => Keeps s'.outcomes i.outcomes)
      (fun _ _ hstep hi => hi.trans (keeps_step hstep)) (Keeps.refl _)

/-! ## Continuations -/

def Worker.Continues (s : Worker) : Action → Prop
  | .ownsSlot entry => entry ∈ s.owners
  | .pumpResumes => s.pump = .yielded
  | _ => False

def Worker.continuations (s : Worker) : ℕ :=
  2 * (s.queue.length + s.slotWaiters.length) + s.owners.length +
    if s.pump = .yielded then 1 else 0

theorem length_grantSlot (s : Worker) :
    (grantSlot id s).queue.length + (grantSlot id s).slotWaiters.length ≤
        s.queue.length + s.slotWaiters.length ∧ (grantSlot id s).owners = s.owners := by
  rw [grantSlot]
  rcases grantSlotLoop_cases s.slotWaiters s with ⟨-, heq⟩ | ⟨dropped, waiter, rest, hwaiters, -, -,
    heq⟩
  · rw [heq]
    exact ⟨by simp, rfl⟩
  · have hlength := congrArg List.length hwaiters
    rw [List.length_append, List.length_cons] at hlength
    rw [heq]
    refine ⟨?_, rfl⟩
    simp only [List.length_append, List.length_singleton]
    omega

theorem continuations_notifyIfIdle (s : Worker) :
    (notifyIfIdle s).continuations = s.continuations := by
  unfold notifyIfIdle
  split_ifs <;> rfl

theorem continuations_startItem (entry : Entry) (s : Worker) :
    (startItem o entry s).continuations = s.continuations := by
  unfold startItem
  dsimp only
  split_ifs
  · rfl
  · unfold claim
    split_ifs <;> rfl

/-- **A continuation** is one less to come. -/
theorem continuations_lt {action : Action} (h : s.Continues action) :
    (step o s action).continuations < s.continuations := by
  cases action with
  | ownsSlot entry =>
    have hentry : entry ∈ s.owners := h
    have hlength := length_erase_add_one hentry
    show (ownsSlot entry s).continuations < _
    rw [ownsSlot, if_pos hentry]
    have hafter : (runItem entry { s with owners := s.owners.erase entry }).continuations =
        2 * (s.queue.length + s.slotWaiters.length) + (s.owners.erase entry).length +
          if s.pump = .yielded then 1 else 0 := rfl
    rw [hafter, Worker.continuations]
    omega
  | pumpResumes =>
    have hpump : s.pump = .yielded := h
    have hs : s.continuations = 2 * (s.queue.length + s.slotWaiters.length) + s.owners.length + 1 := by
      rw [Worker.continuations, if_pos hpump]
    show (pumpResumes o s).continuations < _
    rw [pumpResumes, if_pos hpump, hs]
    unfold iterate
    split
    · rw [continuations_notifyIfIdle, Worker.continuations, if_neg Pump.noConfusion]
      dsimp only
      omega
    · rename_i next rest hqueue
      rw [hqueue, List.length_cons]
      split_ifs
      · rw [Worker.continuations, if_neg Pump.noConfusion]
        dsimp only
        rw [List.length_cons]
        omega
      · obtain ⟨hgrant, howners⟩ := length_grantSlot { s with queue := rest, pump := .yielded }
        rw [continuations_startItem, Worker.continuations, pump_grantSlot, if_pos rfl, howners]
        dsimp only at hgrant ⊢
        omega
  | _ => exact h.elim

/-! ## The result -/

/-- Every `prepare` and `run` that was started has ended, and the worker has nothing left to do. -/
def Worker.IsSettled (s : Worker) : Prop :=
  s.preparing = [] ∧ s.running = [] ∧ ∀ action, ¬ s.Continues action

structure IsOrderly (o : Options) (s : Worker) : Prop where
  /-- The number of runs is bounded. -/
  writers : s.running.length ≤ o.writerConcurrency
  /-- No item is run twice. -/
  runOnce : (s.runs.map (·.id)).Nodup
  /-- A promise is settled once. -/
  settledOnce : ∀ actions, Keeps s.outcomes (run o s actions).outcomes
  /-- The worker's own continuations come to an end. -/
  continues : ∀ action, s.Continues action →
    (step o s action).continuations < s.continuations
  /-- Then nothing is queued, and all promises are settled. -/
  drained : s.IsSettled → s.queue = [] ∧ ∀ id < s.nextItem, s.outcomes id ≠ none
  /-- Plain submissions enter the queue in their order. -/
  entered : (s.accepted.filter (·.settle = none)).Pairwise (·.id < ·.id)
  /-- Items without a `prepare` are run in the order of the queue. -/
  fifo : (s.runs.filter (!·.prepares)).Sublist (s.accepted.filter (!·.prepares))
  /-- `close` has resolved only with nothing queued or in flight. -/
  closed : 0 < s.closesResolved → s.queue = [] ∧ s.inFlight = 0 ∧ s.started = []

theorem WorkerInv.drained (h : WorkerInv o s) (hcapacity : 1 ≤ o.capacity)
    (hwriters : 1 ≤ o.writerConcurrency) (hsettled : s.IsSettled) :
    s.queue = [] ∧ ∀ id < s.nextItem, s.outcomes id ≠ none := by
  obtain ⟨hpreparing, hrunning, hcontinues⟩ := hsettled
  have howners : s.owners = [] :=
    List.eq_nil_iff_forall_not_mem.2 fun entry hentry => hcontinues (.ownsSlot entry) hentry
  have hslots : s.writerSlotsInUse = 0 := by
    rw [h.slots.slots, howners, hrunning]
    rfl
  have hwaiters : s.writerSlotWaiters = [] := by
    by_contra hne
    have hfull := h.slots.full hne
    omega
  have hidle : s.pump = .idle := by
    cases hpump : s.pump with
    | idle => rfl
    | yielded => exact absurd hpump (hcontinues .pumpResumes)
    | waiting =>
      have hfull := h.slots.waiting hpump
      omega
  have hqueue := h.slots.idle hidle
  have hparked := h.parked.liveEntries_eq_nil (by rw [hqueue]; exact hcapacity)
  refine ⟨hqueue, fun id hid hopen => ?_⟩
  obtain ⟨entry, hentry, -⟩ := h.items.pending id hid hopen
  rw [mem_unfinished] at hentry
  simp only [Worker.items, hqueue, hparked, hpreparing, hwaiters, howners, hrunning,
    Multiset.coe_nil, Multiset.add_zero] at hentry
  simp at hentry

theorem WorkerInv.runOnce (h : WorkerInv o s) : (s.runs.map (·.id)).Nodup := by
  have hle : (s.runs : Multiset Entry) ≤ s.items.all := by
    refine h.items.runs.trans ?_
    rw [Items.all, Items.unfinished, Multiset.add_assoc _ s.items.running]
    exact Multiset.le_add_left _ _
  have hnodup := Multiset.nodup_of_le (Multiset.map_le_map (f := (·.id)) hle) h.items.nodup
  rwa [Multiset.map_coe, Multiset.coe_nodup] at hnodup

/-- **A flush worker is orderly** after every sequence of jobs. -/
theorem flushWorker_isOrderly {o : Options} (hcapacity : 1 ≤ o.capacity)
    (hwriters : 1 ≤ o.writerConcurrency) (actions : List Action) :
    IsOrderly o (run o {} actions) := by
  have h := workerInv_run (workerInv_initial o) actions
  generalize run o {} actions = s at h
  have hslots := h.slots.slots
  have hslotsLe := h.slots.slotsLe
  refine ⟨by omega, h.runOnce, keeps_run h, fun action => continuations_lt,
    h.drained hcapacity hwriters, (List.pairwise_append.1 h.order.entered).1, ?_, fun hresolved => ?_⟩
  · have horder := h.order.order
    rw [List.filter_append] at horder
    exact (List.sublist_append_left _ _).trans horder
  · obtain ⟨-, hidle, hnone⟩ := h.slots.resolved hresolved
    refine ⟨h.slots.idle hidle, hnone, List.length_eq_zero_iff.1 ?_⟩
    have hinFlight := h.slots.inFlight
    omega

theorem flushWorker_isOrderly_example :
    IsOrderly {} (run {} {} [.submit true false, .submit false false, .pumpResumes,
      .prepareEnds { id := 0, prepares := true } .null, .runEnds { id := 1 } false, .close]) :=
  flushWorker_isOrderly (by decide) (by decide) _

end FlushWorker

end Keeper
