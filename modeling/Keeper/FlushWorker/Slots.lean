import Keeper.FlushWorker.Worker

/-!
# The writer slots of the flush worker

A slot in use belongs to a run, or to an item that was handed it and has not gone on yet. While an
item or the pump waits for one, all are in use: whoever ends next passes it on.

* `SlotInv.step`, `ParkedInv.step`: what every job keeps.
-/

namespace Keeper

namespace FlushWorker

/-! ## The invariants -/

/-- Slots, items in flight and waiting lists, while `held` slots and `begun` items are in the hands of
the job that runs. -/
structure SlotInv (o : Options) (held begun : ℕ) (s : Worker) : Prop where
  slots : s.writerSlotsInUse = s.owners.length + s.running.length + held
  slotsLe : s.writerSlotsInUse ≤ o.writerConcurrency
  full : s.writerSlotWaiters ≠ [] → s.writerSlotsInUse = o.writerConcurrency
  waiting : s.pump = .waiting → s.writerSlotsInUse = o.writerConcurrency
  idle : s.pump = .idle → s.queue = []
  inFlight : s.inFlight = s.started.length + begun
  closed : s.closed = true → s.slotWaiters = []
  idleWaiters : 0 < s.idleWaiters → s.closed = true
  resolved : 0 < s.closesResolved → s.closed = true ∧ s.pump = .idle ∧ s.inFlight = 0

/-- Submissions park only while the queue is full. -/
def ParkedInv (o : Options) (s : Worker) : Prop :=
  (∃ waiter ∈ s.slotWaiters, waiter.aborted = false) → o.capacity ≤ s.queue.length

variable {o : Options} {s : Worker} {held begun : ℕ}

@[simp] theorem length_started (s : Worker) : s.started.length =
    s.preparing.length + s.writerSlotWaiters.length + s.owners.length + s.running.length := by
  simp only [Worker.started, List.length_append]

theorem length_erase_add_one {l : List Entry} {entry : Entry} (h : entry ∈ l) :
    (l.erase entry).length + 1 = l.length := by
  have hpositive := List.length_pos_of_mem h
  rw [List.length_erase_of_mem h]
  omega

/-! ## Functions -/

theorem SlotInv.settlePromise (h : SlotInv o held begun s) (id : ℕ) (outcome : Outcome) :
    SlotInv o held begun (settlePromise id outcome s) :=
  { h with }

theorem SlotInv.settleUnlessExpired (h : SlotInv o held begun s) (id : ℕ) (outcome : Outcome) :
    SlotInv o held begun (settleUnlessExpired id outcome s) := by
  unfold FlushWorker.settleUnlessExpired
  split_ifs
  · exact h
  · exact h.settlePromise id outcome

theorem SlotInv.withWeights (h : SlotInv o held begun s) (weights : Weights) :
    SlotInv o held begun { s with weights := weights } :=
  { h with }

theorem SlotInv.freeWeight (h : SlotInv o held begun s) (i : ℕ) :
    SlotInv o held begun (freeWeight o i s) := by
  unfold FlushWorker.freeWeight
  split
  · exact h
  · exact h.withWeights _

/-- `close` is told only when nothing is queued or in flight. -/
theorem SlotInv.notifyIfIdle (h : SlotInv o held begun s) :
    SlotInv o held begun (notifyIfIdle s) := by
  unfold FlushWorker.notifyIfIdle
  split_ifs with hbusy
  · exact h
  · rw [not_or, not_or, not_not, not_lt, Nat.le_zero] at hbusy
    refine { h with idleWaiters := fun hlt => absurd hlt (lt_irrefl 0), resolved := fun hresolved => ?_ }
    by_cases hwaiters : 0 < s.idleWaiters
    · exact ⟨h.idleWaiters hwaiters, hbusy.1, hbusy.2.1⟩
    · exact h.resolved (by dsimp only at hresolved; omega)

theorem SlotInv.releaseWriterSlot (h : SlotInv o 1 begun s) :
    SlotInv o 0 begun (releaseWriterSlot s) := by
  have hslots := h.slots
  have hslotsLe := h.slotsLe
  have hinFlight := h.inFlight
  unfold FlushWorker.releaseWriterSlot
  split
  · rename_i nextOwner rest hwaiters
    have hfull := h.full (hwaiters ▸ List.cons_ne_nil _ _)
    refine { h with slots := ?_, slotsLe := hslotsLe, full := fun _ => hfull, inFlight := ?_ }
    · simp only [List.length_append, List.length_singleton]
      omega
    · simp only [length_started, hwaiters, List.length_cons, List.length_append,
        List.length_nil] at hinFlight ⊢
      omega
  · rename_i hwaiters
    refine ⟨?_, ?_, fun hne => absurd hwaiters hne, fun hwaiting => ?_, fun hidle => ?_, hinFlight,
      h.closed, h.idleWaiters, fun hresolved => ?_⟩
    · dsimp only
      omega
    · dsimp only
      omega
    · dsimp only at hwaiting
      split_ifs at hwaiting with hpump
      exact absurd hwaiting hpump
    · refine h.idle ?_
      dsimp only at hidle
      split_ifs at hidle
      exact hidle
    · obtain ⟨hclosed, hidle, hnone⟩ := h.resolved hresolved
      refine ⟨hclosed, ?_, hnone⟩
      dsimp only
      rw [if_neg (by rw [hidle]; decide), hidle]

theorem SlotInv.finish (h : SlotInv o held (begun + 1) s) (entry : Entry) :
    SlotInv o held begun (finish o entry s) := by
  have hinFlight := h.inFlight
  have hdone : SlotInv o held begun
      { s with inFlight := s.inFlight - 1, finished := s.finished ++ [entry] } := by
    refine { h with inFlight := ?_, resolved := fun hresolved => ?_ }
    · show s.inFlight - 1 = s.started.length + begun
      omega
    · have hnone := (h.resolved hresolved).2.2
      omega
  unfold FlushWorker.finish
  dsimp only
  split
  · exact (hdone.freeWeight _).notifyIfIdle
  · exact hdone.notifyIfIdle

/-- An item that has begun is run where a slot is free, and waits where all are in use. -/
theorem SlotInv.claim (h : SlotInv o 0 (begun + 1) s) (entry : Entry) :
    SlotInv o 0 begun (claim o entry s) := by
  have hslots := h.slots
  have hslotsLe := h.slotsLe
  have hinFlight := h.inFlight
  simp only [length_started] at hinFlight
  unfold FlushWorker.claim
  split_ifs with hfull
  · refine { h with
      slots := hslots
      slotsLe := hslotsLe
      full := fun _ => (by dsimp only; omega)
      inFlight := ?_ }
    simp only [length_started, List.length_append, List.length_singleton]
    omega
  · refine ⟨?_, ?_, fun hwaiters => ?_, fun hwaiting => ?_, h.idle, ?_, h.closed, h.idleWaiters,
      h.resolved⟩
    · simp only [runItem, List.length_append, List.length_singleton]
      omega
    · simp only [runItem]
      omega
    · exact absurd (h.full hwaiters) (by omega)
    · exact absurd (h.waiting hwaiting) (by omega)
    · simp only [runItem, length_started, List.length_append, List.length_singleton]
      omega

theorem SlotInv.startItem (h : SlotInv o 0 begun s) (hopen : s.closesResolved = 0)
    (entry : Entry) : SlotInv o 0 begun (startItem o entry s) := by
  have hinFlight := h.inFlight
  have hbegun : SlotInv o 0 (begun + 1) { s with inFlight := s.inFlight + 1 } := by
    refine { h with inFlight := ?_, resolved := fun hresolved => ?_ }
    · show s.inFlight + 1 = s.started.length + (begun + 1)
      omega
    · exact absurd hresolved (by simp [hopen])
  unfold FlushWorker.startItem
  dsimp only
  split_ifs
  · refine { h with inFlight := ?_, resolved := hbegun.resolved }
    simp only [length_started, List.length_append, List.length_singleton] at hinFlight ⊢
    omega
  · exact hbegun.claim entry

/-! ## The queue -/

/-- What `grantSlot` does while the pump runs: the given-up submissions leave, and the first other one
enters the queue. -/
theorem grantSlotLoop_cases (waiters : List SlotWaiter) (s : Worker) :
    (∀ waiter ∈ waiters, waiter.aborted = true) ∧
        grantSlotLoop id waiters s = { s with slotWaiters := [] } ∨
      ∃ dropped waiter rest, waiters = dropped ++ waiter :: rest ∧
        (∀ waiter ∈ dropped, waiter.aborted = true) ∧ waiter.aborted = false ∧
        grantSlotLoop id waiters s =
          { s with
            slotWaiters := rest
            queue := s.queue ++ [waiter.entry]
            accepted := s.accepted ++ [waiter.entry] } := by
  induction waiters with
  | nil => exact Or.inl ⟨fun _ h => absurd h List.not_mem_nil, rfl⟩
  | cons first others ih =>
    rw [grantSlotLoop]
    split_ifs with haborted
    · rcases ih with ⟨hall, heq⟩ | ⟨dropped, waiter, rest, rfl, hdropped, hlive, heq⟩
      · refine Or.inl ⟨fun waiter hwaiter => ?_, heq⟩
        rcases List.mem_cons.1 hwaiter with rfl | hother
        · exact haborted
        · exact hall waiter hother
      · refine Or.inr ⟨first :: dropped, waiter, rest, rfl, fun other hother => ?_, hlive, heq⟩
        rcases List.mem_cons.1 hother with rfl | hdrop
        · exact haborted
        · exact hdropped other hdrop
    · exact Or.inr ⟨[], first, others, rfl, fun _ h => absurd h List.not_mem_nil,
        Bool.eq_false_iff.2 haborted, rfl⟩

theorem grantSlotLoop_pump (hpump : s.pump ≠ .idle) (waiters : List SlotWaiter) :
    grantSlotLoop (pump o) waiters s = grantSlotLoop id waiters s := by
  induction waiters with
  | nil => rfl
  | cons first others ih =>
    rw [grantSlotLoop, grantSlotLoop]
    split_ifs
    · exact ih
    · rw [enqueue, enqueue, pump, if_neg hpump]
      rfl

theorem grantSlot_pump (hpump : s.pump ≠ .idle) : grantSlot (pump o) s = grantSlot id s :=
  grantSlotLoop_pump hpump _

theorem SlotInv.grantSlot (h : SlotInv o held begun s) (hpump : s.pump ≠ .idle) :
    SlotInv o held begun (grantSlot id s) := by
  rw [FlushWorker.grantSlot]
  rcases grantSlotLoop_cases s.slotWaiters s with ⟨-, heq⟩ | ⟨dropped, waiter, rest, hwaiters, -, -,
    heq⟩
  · rw [heq]
    exact { h with closed := fun _ => rfl }
  · rw [heq]
    refine { h with idle := fun hidle => absurd hidle hpump, closed := fun hclosed => ?_ }
    have hnone := h.closed hclosed
    rw [hwaiters] at hnone
    exact absurd hnone (List.append_ne_nil_of_right_ne_nil _ (List.cons_ne_nil _ _))

/-- An item leaves the queue, and the first parked submission takes its place. -/
theorem ParkedInv.grantSlot
    (h : (∃ waiter ∈ s.slotWaiters, waiter.aborted = false) → o.capacity ≤ s.queue.length + 1) :
    ParkedInv o (grantSlot id s) := by
  rw [FlushWorker.grantSlot]
  rcases grantSlotLoop_cases s.slotWaiters s with ⟨-, heq⟩ | ⟨dropped, waiter, rest, hwaiters, -,
    hlive, heq⟩
  · rw [heq]
    rintro ⟨waiter, hwaiter, -⟩
    exact absurd hwaiter List.not_mem_nil
  · rw [heq]
    intro
    have hroom := h ⟨waiter, hwaiters ▸ List.mem_append_right _ List.mem_cons_self, hlive⟩
    simpa using hroom

theorem closesResolved_grantSlot : (grantSlot id s).closesResolved = s.closesResolved := by
  rw [grantSlot]
  rcases grantSlotLoop_cases s.slotWaiters s with ⟨-, heq⟩ | ⟨dropped, waiter, rest, -, -, -, heq⟩
  · rw [heq]
  · rw [heq]

theorem pump_grantSlot : (grantSlot id s).pump = s.pump := by
  rw [grantSlot]
  rcases grantSlotLoop_cases s.slotWaiters s with ⟨-, heq⟩ | ⟨dropped, waiter, rest, -, -, -, heq⟩
  · rw [heq]
  · rw [heq]

/-- **One iteration of the pump.** It does not matter where the pump was before. -/
theorem SlotInv.iterate (h : SlotInv o 0 0 { s with pump := .yielded })
    (hopen : s.closesResolved = 0) : SlotInv o 0 0 (iterate o s) := by
  unfold FlushWorker.iterate
  split
  · rename_i hqueue
    refine SlotInv.notifyIfIdle { h with
      waiting := fun hwaiting => (by cases hwaiting)
      idle := fun _ => hqueue
      resolved := fun hresolved => ?_ }
    exact absurd hresolved (by simp [hopen])
  · rename_i next rest hqueue
    have hslotsLe := h.slotsLe
    split_ifs with hfull
    · refine { h with
        waiting := fun _ => ?_
        idle := fun hidle => (by cases hidle)
        resolved := fun hresolved => absurd hresolved (by simp [hopen]) }
      dsimp only at hslotsLe ⊢
      omega
    · have hdequeued : SlotInv o 0 0 { s with queue := rest, pump := .yielded } :=
        { h with
          idle := fun hidle => (by cases hidle)
          resolved := fun hresolved => absurd hresolved (by simp [hopen]) }
      exact (hdequeued.grantSlot Pump.noConfusion).startItem (closesResolved_grantSlot.trans hopen) next

theorem slotWaiters_claim (entry : Entry) : (claim o entry s).slotWaiters = s.slotWaiters := by
  unfold claim
  split_ifs <;> rfl

theorem queue_claim (entry : Entry) : (claim o entry s).queue = s.queue := by
  unfold claim
  split_ifs <;> rfl

theorem ParkedInv.startItem (h : ParkedInv o s) (entry : Entry) :
    ParkedInv o (startItem o entry s) := by
  unfold FlushWorker.startItem
  dsimp only
  split_ifs
  · exact h
  · rw [ParkedInv, slotWaiters_claim, queue_claim]
    exact h

theorem ParkedInv.notifyIfIdle (h : ParkedInv o s) : ParkedInv o (notifyIfIdle s) := by
  unfold FlushWorker.notifyIfIdle
  split_ifs <;> exact h

theorem ParkedInv.iterate (h : ParkedInv o s) : ParkedInv o (iterate o s) := by
  unfold FlushWorker.iterate
  split
  · exact ParkedInv.notifyIfIdle h
  · rename_i next rest hqueue
    split_ifs
    · exact h
    · refine (ParkedInv.grantSlot fun hlive => ?_).startItem next
      have hroom := h hlive
      rw [hqueue] at hroom
      exact hroom

theorem SlotInv.enqueue (h : SlotInv o 0 0 s) (hopen : s.closed = false) (entry : Entry) :
    SlotInv o 0 0 (enqueue (pump o) entry s) := by
  have hresolved : s.closesResolved = 0 := by
    by_contra hne
    rw [(h.resolved (Nat.pos_of_ne_zero hne)).1] at hopen
    cases hopen
  have hpositive : ¬ 0 < s.closesResolved := by omega
  unfold FlushWorker.enqueue FlushWorker.pump
  dsimp only
  split_ifs with hidle
  · refine SlotInv.iterate { h with
      waiting := fun hwaiting => (by cases hwaiting)
      idle := fun hidle => (by cases hidle)
      resolved := fun hlt => absurd hlt hpositive } hresolved
  · exact { h with idle := fun h' => absurd h' hidle, resolved := fun hlt => absurd hlt hpositive }

theorem ParkedInv.enqueue (h : ParkedInv o s) (entry : Entry) :
    ParkedInv o (enqueue (pump o) entry s) := by
  have hroom : ParkedInv o
      { s with queue := s.queue ++ [entry], accepted := s.accepted ++ [entry] } := by
    intro hlive
    have hqueue := h hlive
    rw [List.length_append]
    omega
  unfold FlushWorker.enqueue FlushWorker.pump
  split_ifs
  · exact hroom.iterate
  · exact hroom

/-! ## Jobs -/

theorem ParkedInv.settlePromise (h : ParkedInv o s) (id : ℕ) (outcome : Outcome) :
    ParkedInv o (settlePromise id outcome s) := h

theorem SlotInv.submit (h : SlotInv o 0 0 s) (prepares aborted : Bool) :
    SlotInv o 0 0 (submit o prepares aborted s) := by
  have hnext : SlotInv o 0 0 { s with nextItem := s.nextItem + 1 } :=
    { h with }
  unfold FlushWorker.submit
  dsimp only
  split_ifs with hclosed haborted hroom
  · exact hnext.settlePromise _ _
  · exact hnext.settlePromise _ _
  · exact hnext.enqueue (Bool.eq_false_iff.2 hclosed) _
  · exact { h with closed := fun hclose => absurd hclose hclosed }

theorem ParkedInv.submit (h : ParkedInv o s) (prepares aborted : Bool) :
    ParkedInv o (submit o prepares aborted s) := by
  have hnext : ParkedInv o { s with nextItem := s.nextItem + 1 } := h
  unfold FlushWorker.submit
  dsimp only
  split_ifs with hclosed haborted hroom
  · exact hnext.settlePromise _ _
  · exact hnext.settlePromise _ _
  · exact hnext.enqueue _
  · exact fun _ => not_lt.1 hroom

theorem SlotInv.pump_ne_idle (h : SlotInv o held begun s) {entry : Entry}
    (hentry : entry ∈ s.queue) : s.pump ≠ .idle := by
  intro hidle
  rw [h.idle hidle] at hentry
  exact absurd hentry List.not_mem_nil

theorem mem_of_find? {id : ℕ} {entry : Entry}
    (h : s.queue.find? (fun entry => entry.id = id && entry.settle = none) = some entry) :
    entry ∈ s.queue ∧ entry.id = id ∧ entry.settle = none := by
  have hfound := List.find?_some h
  simp only [Bool.and_eq_true, decide_eq_true_eq] at hfound
  exact ⟨List.mem_of_find?_eq_some h, hfound⟩

theorem SlotInv.abortSubmission (h : SlotInv o 0 0 s) (id : ℕ) :
    SlotInv o 0 0 (abortSubmission o id s) := by
  unfold FlushWorker.abortSubmission
  split
  · rename_i entry hfind
    have hpump := h.pump_ne_idle (mem_of_find? hfind).1
    refine SlotInv.settlePromise ?_ _ _
    rw [grantSlot_pump (s := { s with queue := s.queue.erase entry }) hpump]
    refine SlotInv.grantSlot ?_ hpump
    exact { h with idle := fun hidle => absurd hidle hpump }
  · split_ifs
    · refine SlotInv.settlePromise ?_ _ _
      refine { h with closed := fun hclosed => ?_ }
      show s.slotWaiters.map _ = []
      rw [h.closed hclosed, List.map_nil]
    · exact h

theorem exists_live_of_marked {id : ℕ} {waiters : List SlotWaiter}
    (h : ∃ waiter ∈ waiters.map (fun waiter : SlotWaiter =>
      if waiter.entry.id = id then { waiter with aborted := true } else waiter),
        waiter.aborted = false) :
    ∃ waiter ∈ waiters, waiter.aborted = false := by
  obtain ⟨marked, hmarked, hlive⟩ := h
  obtain ⟨waiter, hwaiter, rfl⟩ := List.mem_map.1 hmarked
  split_ifs at hlive
  exact ⟨waiter, hwaiter, hlive⟩

theorem ParkedInv.abortSubmission (h : ParkedInv o s) (hslots : SlotInv o 0 0 s) (id : ℕ) :
    ParkedInv o (abortSubmission o id s) := by
  unfold FlushWorker.abortSubmission
  split
  · rename_i entry hfind
    have hmem := (mem_of_find? hfind).1
    refine ParkedInv.settlePromise ?_ _ _
    rw [grantSlot_pump (s := { s with queue := s.queue.erase entry }) (hslots.pump_ne_idle hmem)]
    refine ParkedInv.grantSlot fun hlive => ?_
    dsimp only
    rw [length_erase_add_one hmem]
    exact h hlive
  · split_ifs
    · refine ParkedInv.settlePromise ?_ _ _
      exact fun hlive => h (exists_live_of_marked hlive)
    · exact h

theorem SlotInv.reservationSubmit (h : SlotInv o 0 0 s) (i : ℕ) (prepares : Bool) :
    SlotInv o 0 0 (reservationSubmit o i prepares s) := by
  have hnext : SlotInv o 0 0 (modifyReservation i (fun r => { r with
      submitted := true, refused := s.closed }) { s with nextItem := s.nextItem + 1 }) :=
    { h with }
  unfold FlushWorker.reservationSubmit
  split
  · exact h
  · dsimp only
    split_ifs with hsubmitted hclosed
    · exact h
    · exact (hnext.freeWeight i).settlePromise _ _
    · exact hnext.enqueue (Bool.eq_false_iff.2 hclosed) _

theorem ParkedInv.freeWeight (h : ParkedInv o s) (i : ℕ) : ParkedInv o (freeWeight o i s) := by
  unfold FlushWorker.freeWeight
  split <;> exact h

theorem ParkedInv.reservationSubmit (h : ParkedInv o s) (i : ℕ) (prepares : Bool) :
    ParkedInv o (reservationSubmit o i prepares s) := by
  have hnext : ParkedInv o (modifyReservation i (fun r => { r with
      submitted := true, refused := s.closed }) { s with nextItem := s.nextItem + 1 }) := h
  unfold FlushWorker.reservationSubmit
  split
  · exact h
  · dsimp only
    split_ifs
    · exact h
    · exact (hnext.freeWeight i).settlePromise _ _
    · exact hnext.enqueue _

/-- What `close` rejects are promises. -/
theorem rejectSlotWaiters_eq (waiters : List SlotWaiter) (s : Worker) :
    ∃ outcomes, rejectSlotWaiters waiters s = { s with outcomes := outcomes } := by
  induction waiters generalizing s with
  | nil => exact ⟨s.outcomes, rfl⟩
  | cons waiter waiters ih =>
    obtain ⟨outcomes, heq⟩ := ih (FlushWorker.settlePromise waiter.entry.id .closed s)
    exact ⟨outcomes, heq⟩

theorem SlotInv.close (h : SlotInv o 0 0 s) : SlotInv o 0 0 (close s) := by
  obtain ⟨outcomes, heq⟩ := rejectSlotWaiters_eq s.slotWaiters { s with closed := true }
  unfold FlushWorker.close
  dsimp only
  rw [heq]
  split_ifs with hidle
  · exact { h with
      closed := fun _ => rfl
      idleWaiters := fun _ => rfl
      resolved := fun _ => ⟨rfl, hidle.1, hidle.2.1⟩ }
  · exact { h with
      closed := fun _ => rfl
      idleWaiters := fun _ => rfl
      resolved := fun hresolved => ⟨rfl, (h.resolved hresolved).2⟩ }

theorem ParkedInv.close : ParkedInv o (close s) := by
  unfold FlushWorker.close
  dsimp only
  split_ifs <;> exact fun ⟨waiter, hwaiter, _⟩ => absurd hwaiter List.not_mem_nil

theorem SlotInv.prepareEnds (h : SlotInv o 0 0 s) (entry : Entry) (preparation : Preparation) :
    SlotInv o 0 0 (prepareEnds o entry preparation s) := by
  unfold FlushWorker.prepareEnds
  split_ifs with hentry
  · have hinFlight := h.inFlight
    have hlength := length_erase_add_one hentry
    have hended : SlotInv o 0 1 { s with preparing := s.preparing.erase entry } := by
      refine { h with inFlight := ?_ }
      simp only [length_started] at hinFlight ⊢
      omega
    dsimp only
    cases preparation with
    | result => exact (hended.settleUnlessExpired _ _).finish entry
    | error => exact (hended.settleUnlessExpired _ _).finish entry
    | null => exact hended.claim entry
  · exact h

theorem SlotInv.runEnds (h : SlotInv o 0 0 s) (entry : Entry) (fails : Bool) :
    SlotInv o 0 0 (runEnds o entry fails s) := by
  by_cases hentry : entry ∈ s.running
  · have hslots := h.slots
    have hinFlight := h.inFlight
    have hlength := length_erase_add_one hentry
    have hended : SlotInv o 1 1 { s with running := s.running.erase entry } := by
      refine { h with slots := ?_, inFlight := ?_ }
      · dsimp only
        omega
      · simp only [length_started] at hinFlight ⊢
        omega
    rw [FlushWorker.runEnds, if_pos hentry]
    exact (hended.settleUnlessExpired _ _).releaseWriterSlot.finish entry
  · rw [FlushWorker.runEnds, if_neg hentry]
    exact h

theorem SlotInv.deadline (h : SlotInv o 0 0 s) (entry : Entry) :
    SlotInv o 0 0 (deadline entry s) := by
  unfold FlushWorker.deadline
  split_ifs
  · refine SlotInv.settlePromise ?_ _ _
    exact { h with }
  · exact h

theorem SlotInv.ownsSlot (h : SlotInv o 0 0 s) (entry : Entry) :
    SlotInv o 0 0 (ownsSlot entry s) := by
  unfold FlushWorker.ownsSlot
  split_ifs with hentry
  · have hslots := h.slots
    have hinFlight := h.inFlight
    have hlength := length_erase_add_one hentry
    refine { h with slots := ?_, inFlight := ?_ }
    · simp only [runItem, List.length_append, List.length_singleton]
      omega
    · simp only [runItem, length_started, List.length_append, List.length_singleton] at hinFlight ⊢
      omega
  · exact h

theorem SlotInv.pumpResumes (h : SlotInv o 0 0 s) : SlotInv o 0 0 (pumpResumes o s) := by
  unfold FlushWorker.pumpResumes
  split_ifs with hpump
  · refine SlotInv.iterate ?_ ?_
    · rw [← hpump]
      exact h
    · by_contra hne
      have hidle := (h.resolved (Nat.pos_of_ne_zero hne)).2.1
      rw [hpump] at hidle
      cases hidle
  · exact h

/-- **Every job keeps the slots.** -/
theorem SlotInv.step (h : SlotInv o 0 0 s) (action : Action) : SlotInv o 0 0 (step o s action) := by
  cases action with
  | submit prepares aborted => exact h.submit prepares aborted
  | abortSubmission id => exact h.abortSubmission id
  | reserve weight aborted =>
    show SlotInv o 0 0 (FlushWorker.reserve o weight aborted s)
    unfold FlushWorker.reserve
    split
    · exact h
    · split_ifs
      · exact h
      · exact h.withWeights _
  | abortReservation id =>
    show SlotInv o 0 0 (FlushWorker.abortReservation o id s)
    unfold FlushWorker.abortReservation
    split
    · exact h
    · exact h.withWeights _
  | release i =>
    show SlotInv o 0 0 (FlushWorker.release o i s)
    unfold FlushWorker.release
    split
    · exact h
    · split_ifs
      · exact h
      · exact SlotInv.freeWeight (h.withWeights _) i
  | reservationSubmit i prepares => exact h.reservationSubmit i prepares
  | close => exact h.close
  | prepareEnds entry preparation => exact h.prepareEnds entry preparation
  | runEnds entry fails => exact h.runEnds entry fails
  | deadline entry => exact h.deadline entry
  | ownsSlot entry => exact h.ownsSlot entry
  | pumpResumes => exact h.pumpResumes

theorem ParkedInv.finish (h : ParkedInv o s) (entry : Entry) : ParkedInv o (finish o entry s) := by
  have hdone : ParkedInv o { s with inFlight := s.inFlight - 1, finished := s.finished ++ [entry] } :=
    h
  unfold FlushWorker.finish
  dsimp only
  split
  · exact (hdone.freeWeight _).notifyIfIdle
  · exact hdone.notifyIfIdle

theorem ParkedInv.settleUnlessExpired (h : ParkedInv o s) (id : ℕ) (outcome : Outcome) :
    ParkedInv o (settleUnlessExpired id outcome s) := by
  unfold FlushWorker.settleUnlessExpired
  split_ifs
  · exact h
  · exact h.settlePromise id outcome

theorem ParkedInv.prepareEnds (h : ParkedInv o s) (entry : Entry) (preparation : Preparation) :
    ParkedInv o (prepareEnds o entry preparation s) := by
  have hended : ParkedInv o { s with preparing := s.preparing.erase entry } := h
  unfold FlushWorker.prepareEnds
  dsimp only
  split_ifs
  · cases preparation with
    | result => exact (hended.settleUnlessExpired _ _).finish entry
    | error => exact (hended.settleUnlessExpired _ _).finish entry
    | null =>
      dsimp only
      rw [ParkedInv, slotWaiters_claim, queue_claim]
      exact h
  · exact h

theorem ParkedInv.runEnds (h : ParkedInv o s) (entry : Entry) (fails : Bool) :
    ParkedInv o (runEnds o entry fails s) := by
  have hended : ParkedInv o { s with running := s.running.erase entry } := h
  unfold FlushWorker.runEnds
  dsimp only
  split
  · refine ParkedInv.finish ?_ entry
    have hsettled := hended.settleUnlessExpired entry.id (if fails then .error else .value)
    unfold FlushWorker.releaseWriterSlot
    split
    · exact hsettled
    · exact hsettled
  · exact h

/-- **Every job keeps submissions parked only while the queue is full.** -/
theorem ParkedInv.step (h : ParkedInv o s) (hslots : SlotInv o 0 0 s) (action : Action) :
    ParkedInv o (step o s action) := by
  cases action with
  | submit prepares aborted => exact h.submit prepares aborted
  | abortSubmission id => exact h.abortSubmission hslots id
  | reserve weight aborted =>
    show ParkedInv o (FlushWorker.reserve o weight aborted s)
    unfold FlushWorker.reserve
    split
    · exact h
    · split_ifs <;> exact h
  | abortReservation id =>
    show ParkedInv o (FlushWorker.abortReservation o id s)
    unfold FlushWorker.abortReservation
    split <;> exact h
  | release i =>
    show ParkedInv o (FlushWorker.release o i s)
    unfold FlushWorker.release
    split
    · exact h
    · split_ifs
      · exact h
      · refine ParkedInv.freeWeight ?_ i
        exact h
  | reservationSubmit i prepares => exact h.reservationSubmit i prepares
  | close => exact ParkedInv.close
  | prepareEnds entry preparation => exact h.prepareEnds entry preparation
  | runEnds entry fails => exact h.runEnds entry fails
  | deadline entry =>
    show ParkedInv o (FlushWorker.deadline entry s)
    unfold FlushWorker.deadline
    split_ifs
    · refine ParkedInv.settlePromise ?_ _ _
      exact h
    · exact h
  | ownsSlot entry =>
    show ParkedInv o (FlushWorker.ownsSlot entry s)
    unfold FlushWorker.ownsSlot
    split_ifs <;> exact h
  | pumpResumes =>
    show ParkedInv o (FlushWorker.pumpResumes o s)
    unfold FlushWorker.pumpResumes
    split_ifs
    · exact h.iterate
    · exact h

end FlushWorker

end Keeper
