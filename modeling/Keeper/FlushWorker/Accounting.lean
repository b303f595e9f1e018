import Keeper.FlushWorker.Execution

/-!
# The budget of a flush worker

Weight is given back by four jobs: a release, a submission to a closed worker, and the end of a
`prepare` or a `run`. Whatever their order, a reservation holds its weight until one of them has freed
it, and is not freed again.

* `flushWorker_isAccounted`: the outstanding weight is that of the reservations that are not freed, is
  bounded, and is freed once.
-/

namespace Keeper

namespace FlushWorker

variable {o : Options} {s s' : Worker}

/-! ## Jobs that free nothing -/

def Worker.ledger (s : Worker) : Weights × List Entry := (s.weights, s.finished)

theorem ledger_notifyIfIdle (s : Worker) : (notifyIfIdle s).ledger = s.ledger := by
  unfold notifyIfIdle
  split_ifs <;> rfl

theorem ledger_settleUnlessExpired (item : ℕ) (outcome : Outcome) (s : Worker) :
    (settleUnlessExpired item outcome s).ledger = s.ledger := by
  unfold settleUnlessExpired
  split_ifs <;> rfl

theorem ledger_releaseWriterSlot (s : Worker) : (releaseWriterSlot s).ledger = s.ledger := by
  unfold releaseWriterSlot
  split <;> rfl

theorem ledger_claim (entry : Entry) (s : Worker) : (claim o entry s).ledger = s.ledger := by
  unfold claim
  split_ifs <;> rfl

theorem ledger_startItem (entry : Entry) (s : Worker) :
    (startItem o entry s).ledger = s.ledger := by
  unfold startItem
  dsimp only
  split_ifs
  · rfl
  · exact ledger_claim entry _

theorem ledger_grantSlot (s : Worker) : (grantSlot id s).ledger = s.ledger := by
  rw [grantSlot]
  rcases grantSlotLoop_cases s.slotWaiters s with ⟨-, heq⟩ | ⟨dropped, waiter, rest, -, -, -, heq⟩
  · rw [heq]
    rfl
  · rw [heq]
    rfl

theorem ledger_iterate (s : Worker) : (iterate o s).ledger = s.ledger := by
  unfold iterate
  split
  · exact ledger_notifyIfIdle _
  · split_ifs
    · rfl
    · rw [ledger_startItem, ledger_grantSlot]
      rfl

theorem ledger_pump (s : Worker) : (pump o s).ledger = s.ledger := by
  unfold pump
  split_ifs
  · exact ledger_iterate s
  · rfl

theorem ledger_enqueue (entry : Entry) (s : Worker) :
    (enqueue (pump o) entry s).ledger = s.ledger := ledger_pump _

theorem ledger_submit (prepares aborted : Bool) (s : Worker) :
    (submit o prepares aborted s).ledger = s.ledger := by
  unfold submit
  dsimp only
  split_ifs
  · rfl
  · rfl
  · exact ledger_enqueue _ _
  · rfl

theorem ledger_abortSubmission (h : SlotInv o 0 0 s) (item : ℕ) :
    (abortSubmission o item s).ledger = s.ledger := by
  unfold abortSubmission
  split
  · rename_i entry hfind
    rw [grantSlot_pump (s := { s with queue := s.queue.erase entry })
      (h.pump_ne_idle (mem_of_find? hfind).1)]
    exact ledger_grantSlot { s with queue := s.queue.erase entry }
  · split_ifs <;> rfl

theorem ledger_deadline (entry : Entry) (s : Worker) : (deadline entry s).ledger = s.ledger := by
  unfold deadline
  split_ifs <;> rfl

theorem ledger_ownsSlot (entry : Entry) (s : Worker) : (ownsSlot entry s).ledger = s.ledger := by
  unfold ownsSlot
  split_ifs <;> rfl

theorem ledger_pumpResumes (s : Worker) : (pumpResumes o s).ledger = s.ledger := by
  unfold pumpResumes
  split_ifs
  · exact ledger_iterate s
  · rfl

/-! ## Causes -/

def HasItem (entries : List Entry) (i : ℕ) : Prop := ∃ entry ∈ entries, entry.settle = some i

/-- A reservation is freed by its release, by its submission to a closed worker, or when its item is
over; one that was submitted has an item, or was refused. -/
structure CauseInv (s : Worker) : Prop where
  granted : ∀ entry ∈ s.items.all, ∀ i, entry.settle = some i → s.Granted i
  freed : ∀ (i : ℕ) (reservation : Reservation), s.weights.reservations[i]? = some reservation →
    (reservation.freed = true ↔
      reservation.released = true ∨ reservation.refused = true ∨ HasItem s.finished i)
  submitted : ∀ (i : ℕ) (reservation : Reservation), s.weights.reservations[i]? = some reservation →
    reservation.submitted = true →
      reservation.refused = true ∨ ∃ entry ∈ s.items.all, entry.settle = some i
  refused : ∀ (i : ℕ) (reservation : Reservation), s.weights.reservations[i]? = some reservation →
    reservation.refused = true → reservation.submitted = true

theorem Extends.getElem? {l l' : List Reservation} (h : Extends l l') {i : ℕ}
    {reservation : Reservation} (hi : l'[i]? = some reservation) :
    l[i]? = some reservation ∨ l.length ≤ i ∧ reservation.IsNew := by
  obtain ⟨added, rfl, hadded⟩ := h
  by_cases hlt : i < l.length
  · rw [List.getElem?_append_left hlt] at hi
    exact Or.inl hi
  · rw [List.getElem?_append_right (not_lt.1 hlt)] at hi
    exact Or.inr ⟨not_lt.1 hlt, hadded _ (List.mem_of_getElem? hi)⟩

theorem CauseInv.modify (h : CauseInv s) {i : ℕ} {f : Reservation → Reservation}
    (hextends : Extends (s.weights.reservations.modify i f) s'.weights.reservations)
    (hgranted : ∀ entry ∈ s'.items.all, ∀ j, entry.settle = some j → s.Granted j)
    (hkept : ∀ entry ∈ s.items.all, entry.settle ≠ none → entry ∈ s'.items.all)
    (hfinished : ∀ j ≠ i, HasItem s'.finished j ↔ HasItem s.finished j)
    (hself : ∀ reservation, s.weights.reservations[i]? = some reservation →
      ((f reservation).freed = true ↔ (f reservation).released = true ∨
        (f reservation).refused = true ∨ HasItem s'.finished i) ∧
      ((f reservation).submitted = true → (f reservation).refused = true ∨
        ∃ entry ∈ s'.items.all, entry.settle = some i) ∧
      ((f reservation).refused = true → (f reservation).submitted = true)) :
    CauseInv s' := by
  have hlength : ∀ j, s.Granted j → s'.Granted j := by
    intro j hj
    obtain ⟨added, heq, -⟩ := hextends
    have hlength := congrArg List.length heq
    rw [List.length_append, List.length_modify] at hlength
    unfold Worker.Granted at *
    omega
  -- what is there after the job was there before, changed at `i` alone, or is new
  have hcases : ∀ j reservation, s'.weights.reservations[j]? = some reservation →
      (∃ before, s.weights.reservations[j]? = some before ∧
        reservation = if j = i then f before else before) ∨
      ¬ s.Granted j ∧ reservation.IsNew := by
    intro j reservation hj
    rcases hextends.getElem? hj with hold | ⟨hle, hnew⟩
    · rw [List.getElem?_modify] at hold
      obtain ⟨before, hbefore, rfl⟩ := Option.map_eq_some_iff.1 hold
      refine Or.inl ⟨before, hbefore, ?_⟩
      by_cases hij : i = j
      · rw [if_pos hij, if_pos hij.symm]
      · rw [if_neg hij, if_neg (Ne.symm hij)]
    · rw [List.length_modify] at hle
      exact Or.inr ⟨not_lt.2 hle, hnew⟩
  have hnone : ∀ j, ¬ s.Granted j → ¬ ∃ entry ∈ s'.items.all, entry.settle = some j :=
    fun j hj ⟨entry, hentry, hsettle⟩ => hj (hgranted entry hentry j hsettle)
  have hover : ∀ j, ¬ s.Granted j → ¬ HasItem s'.finished j := by
    rintro j hj ⟨entry, hentry, hsettle⟩
    exact hnone j hj ⟨entry, Multiset.mem_add.2 (Or.inr hentry), hsettle⟩
  refine ⟨fun entry hentry j hj => hlength j (hgranted entry hentry j hj), ?_, ?_, ?_⟩
  · intro j reservation hj
    rcases hcases j reservation hj with ⟨before, hbefore, rfl⟩ | ⟨hnot, hnew⟩
    · split_ifs with hij
      · rw [hij] at hbefore ⊢
        exact (hself before hbefore).1
      · rw [hfinished j hij]
        exact h.freed j before hbefore
    · rw [hnew]
      simpa using hover j hnot
  · intro j reservation hj hsubmitted
    rcases hcases j reservation hj with ⟨before, hbefore, rfl⟩ | ⟨hnot, hnew⟩
    · split_ifs at hsubmitted ⊢ with hij
      · rw [hij] at hbefore ⊢
        exact (hself before hbefore).2.1 hsubmitted
      · refine (h.submitted j before hbefore hsubmitted).imp_right ?_
        rintro ⟨entry, hentry, hsettle⟩
        exact ⟨entry, hkept entry hentry (by rw [hsettle]; exact Option.some_ne_none _), hsettle⟩
    · rw [hnew] at hsubmitted
      cases hsubmitted
  · intro j reservation hj hrefused
    rcases hcases j reservation hj with ⟨before, hbefore, rfl⟩ | ⟨hnot, hnew⟩
    · split_ifs at hrefused ⊢ with hij
      · rw [hij] at hbefore
        exact (hself before hbefore).2.2 hrefused
      · exact h.refused j before hbefore hrefused
    · rw [hnew] at hrefused
      cases hrefused

theorem CauseInv.extend (h : CauseInv s)
    (hextends : Extends s.weights.reservations s'.weights.reservations)
    (hgranted : ∀ entry ∈ s'.items.all, ∀ j, entry.settle = some j → s.Granted j)
    (hkept : ∀ entry ∈ s.items.all, entry.settle ≠ none → entry ∈ s'.items.all)
    (hfinished : ∀ j, HasItem s'.finished j ↔ HasItem s.finished j) : CauseInv s' := by
  refine h.modify (i := 0) (f := fun reservation => reservation) ?_ hgranted hkept
    (fun j _ => hfinished j) fun reservation hreservation => ⟨?_, ?_, ?_⟩
  · have hid : s.weights.reservations.modify 0 (fun reservation => reservation) =
        s.weights.reservations := List.modify_id 0 _
    rwa [hid]
  · rw [hfinished]
    exact h.freed 0 reservation hreservation
  · intro hsubmitted
    refine (h.submitted 0 reservation hreservation hsubmitted).imp_right ?_
    rintro ⟨entry, hentry, hsettle⟩
    exact ⟨entry, hkept entry hentry (by rw [hsettle]; exact Option.some_ne_none _), hsettle⟩
  · exact h.refused 0 reservation hreservation

/-! ## Jobs -/

/-- What a job keeps of the items: those of reservations stay, and new ones are of granted ones. -/
theorem all_job (hworker : WorkerInv o s) (hcause : CauseInv s) (action : Action) :
    (∀ entry ∈ (step o s action).items.all, ∀ j, entry.settle = some j → s.Granted j) ∧
      ∀ entry ∈ s.items.all, entry.settle ≠ none → entry ∈ (step o s action).items.all := by
  have hsteps := step_items hworker.slots hworker.parked hworker.items action
  constructor
  · exact hsteps.induction (P := fun i => ∀ entry ∈ i.all, ∀ j, entry.settle = some j → s.Granted j)
      (fun _ _ hstep hi => reserved_step hstep hi) hcause.granted
  · have hkept := hsteps.induction
      (P := fun i => OrderInv i ∧ ∀ entry ∈ s.items.all, entry.settle ≠ none → entry ∈ i.all)
      (fun _ _ hstep hi => ⟨OrderInv.step hi.1 hstep, fun entry hentry hsettle =>
        reserved_kept hstep hi.1.parked (hi.2 entry hentry hsettle) hsettle⟩)
      ⟨hworker.order, fun entry hentry _ => hentry⟩
    exact hkept.2

theorem CauseInv.of_ledger (h : CauseInv s) (hworker : WorkerInv o s) {action : Action}
    (hledger : (step o s action).ledger = s.ledger) : CauseInv (step o s action) := by
  obtain ⟨hgranted, hkept⟩ := all_job hworker h action
  have hweights : (step o s action).weights = s.weights := congrArg Prod.fst hledger
  have hfinished : (step o s action).finished = s.finished := congrArg Prod.snd hledger
  refine h.extend ?_ hgranted hkept fun j => by rw [hfinished]
  rw [hweights]
  exact Extends.refl _

variable {budget : ℚ≥0}

theorem ledger_finish (hbudget : o.budget = some budget) (entry : Entry) (s : Worker) :
    (finish o entry s).finished = s.finished ++ [entry] ∧
      (finish o entry s).weights =
        (match entry.settle with
          | some i => free budget i s.weights
          | none => s.weights) := by
  unfold finish
  dsimp only
  cases hsettle : entry.settle with
  | none =>
    dsimp only
    have hledger := ledger_notifyIfIdle
      { s with inFlight := s.inFlight - 1, finished := s.finished ++ [entry] }
    exact ⟨congrArg Prod.snd hledger, congrArg Prod.fst hledger⟩
  | some i =>
    dsimp only
    rw [freeWeight, hbudget]
    have hledger := ledger_notifyIfIdle
      { s with
        inFlight := s.inFlight - 1
        finished := s.finished ++ [entry]
        weights := free budget i s.weights }
    exact ⟨congrArg Prod.snd hledger, congrArg Prod.fst hledger⟩

/-- Freeing after a change of the same reservation is one change of it. -/
theorem extends_free_modify (i : ℕ) (f : Reservation → Reservation) (w : Weights) :
    Extends (w.reservations.modify i fun reservation => { f reservation with freed := true })
      (free budget i { w with reservations := w.reservations.modify i f }).reservations := by
  let changed : Weights := { w with reservations := w.reservations.modify i f }
  have hfree : Extends (changed.reservations.modify i fun reservation =>
      { reservation with freed := true }) (free budget i changed).reservations := extends_free i
  have hmodify : (w.reservations.modify i f).modify i
      (fun reservation => { reservation with freed := true }) =
      w.reservations.modify i fun reservation => { f reservation with freed := true } :=
    List.modify_modify_eq f _ i w.reservations
  rwa [hmodify] at hfree

theorem causeInv_release (h : CauseInv s) (hworker : WorkerInv o s)
    (hbudget : o.budget = some budget) (i : ℕ) : CauseInv (step o s (.release i)) := by
  obtain ⟨hgranted, hkept⟩ := all_job hworker h (.release i)
  revert hgranted hkept
  show (∀ entry ∈ (release o i s).items.all, _) → (∀ entry ∈ s.items.all, _ → entry ∈
    (release o i s).items.all) → CauseInv (release o i s)
  unfold release
  split
  · exact fun _ _ => h
  · rename_i reservation hreservation
    split_ifs with hsubmitted
    · exact fun _ _ => h
    · rw [freeWeight, hbudget]
      intro hgranted hkept
      refine h.modify (extends_free_modify i _ s.weights) hgranted hkept (fun j _ => Iff.rfl)
        fun before hbefore => ?_
      obtain rfl := Option.some.inj (hreservation.symm.trans hbefore)
      exact ⟨by simp, fun htrue => absurd htrue hsubmitted, h.refused i reservation hreservation⟩

theorem exists_entered (hworker : WorkerInv o s) {i : ℕ} {reservation : Reservation}
    (hreservation : s.weights.reservations[i]? = some reservation) (prepares : Bool) :
    ∃ entry ∈ (enqueue (pump o) { id := s.nextItem, prepares := prepares, settle := some i }
      (modifyReservation i (fun r => { r with submitted := true, refused := s.closed })
        { s with nextItem := s.nextItem + 1 })).items.all, entry.settle = some i := by
  let entry : Entry := { id := s.nextItem, prepares := prepares, settle := some i }
  let entered : Worker :=
    { modifyReservation i (fun r => { r with submitted := true, refused := s.closed })
        { s with nextItem := s.nextItem + 1 } with
      queue := s.queue ++ [entry]
      accepted := s.accepted ++ [entry] }
  have hsome : entry.settle ≠ none := Option.some_ne_none i
  have hstep : ItemStep s.Granted s.items entered.items :=
    ItemStep.enter entry rfl (fun hplain => absurd hplain hsome) fun j hj =>
      Option.some.inj hj ▸ (List.getElem?_eq_some_iff.1 hreservation).1
  have hmem : entry ∈ entered.items.all := by
    rw [Items.all, Multiset.mem_add, mem_unfinished]
    exact Or.inl (Or.inl (List.mem_append_right _ List.mem_cons_self))
  have hkept := (items_pump (R := s.Granted) (o := o) entered).induction
    (P := fun items => OrderInv items ∧ entry ∈ items.all)
    (fun _ _ hnext hi => ⟨OrderInv.step hi.1 hnext, reserved_kept hnext hi.1.parked hi.2 hsome⟩)
    ⟨OrderInv.step hworker.order hstep, hmem⟩
  exact ⟨entry, hkept.2, rfl⟩

theorem causeInv_reservationSubmit (h : CauseInv s) (hworker : WorkerInv o s)
    (hbudget : o.budget = some budget) (i : ℕ) (prepares : Bool) :
    CauseInv (step o s (.reservationSubmit i prepares)) := by
  obtain ⟨hgranted, hkept⟩ := all_job hworker h (.reservationSubmit i prepares)
  revert hgranted hkept
  show (∀ entry ∈ (reservationSubmit o i prepares s).items.all, _) →
    (∀ entry ∈ s.items.all, _ → entry ∈ (reservationSubmit o i prepares s).items.all) →
      CauseInv (reservationSubmit o i prepares s)
  unfold reservationSubmit
  split
  · exact fun _ _ => h
  · rename_i reservation hreservation
    dsimp only
    split_ifs with hsubmitted hclosed
    · exact fun _ _ => h
    · -- the worker is closed: the weight is given back at once
      rw [freeWeight, hbudget]
      intro hgranted hkept
      refine h.modify (extends_free_modify i _ s.weights) hgranted hkept (fun j _ => Iff.rfl)
        fun before hbefore => ?_
      have hrefused : s.closed = true := hclosed
      simp [hrefused]
    · -- the item of the reservation enters the queue
      rw [Bool.not_eq_true] at hclosed
      have hclosed' : s.closed = false := hclosed
      rw [Bool.not_eq_true] at hsubmitted
      have hunrefused : reservation.refused = false := by
        by_contra hne
        rw [h.refused i reservation hreservation (Bool.not_eq_false _ ▸ hne)] at hsubmitted
        cases hsubmitted
      intro hgranted hkept
      have hledger := ledger_enqueue (o := o)
        { id := s.nextItem, prepares := prepares, settle := some i }
        (modifyReservation i (fun r => { r with submitted := true, refused := s.closed })
          { s with nextItem := s.nextItem + 1 })
      have hweights := congrArg Prod.fst hledger
      have hfinished := congrArg Prod.snd hledger
      refine h.modify (i := i) (f := fun r => { r with submitted := true, refused := s.closed }) ?_
        hgranted hkept (fun j _ => ?_) fun before hbefore => ⟨?_, fun _ => Or.inr ?_, fun _ => rfl⟩
      · exact (congrArg Weights.reservations hweights) ▸ Extends.refl _
      · exact iff_of_eq (congrArg (HasItem · j) hfinished)
      · obtain rfl := Option.some.inj (hreservation.symm.trans hbefore)
        have hsame : HasItem (enqueue (pump o) _ _).finished i ↔ HasItem s.finished i :=
          iff_of_eq (congrArg (HasItem · i) hfinished)
        have hfreed := h.freed i reservation hreservation
        rw [hunrefused] at hfreed
        rw [hsame, hclosed']
        exact hfreed
      · exact exists_entered hworker hreservation prepares

theorem hasItem_append {entries : List Entry} {entry : Entry} {i : ℕ} :
    HasItem (entries ++ [entry]) i ↔ HasItem entries i ∨ entry.settle = some i := by
  simp only [HasItem, List.mem_append, List.mem_singleton, or_and_right, exists_or,
    exists_eq_left]

/-- The end of an item frees its reservation, if that has not been freed. -/
theorem causeInv_finish (h : CauseInv s) (hbudget : o.budget = some budget) {entry : Entry}
    {t : Worker} (hledger : t.ledger = s.ledger)
    (hgranted : ∀ e ∈ (finish o entry t).items.all, ∀ j, e.settle = some j → s.Granted j)
    (hkept : ∀ e ∈ s.items.all, e.settle ≠ none → e ∈ (finish o entry t).items.all) :
    CauseInv (finish o entry t) := by
  have hweights : t.weights = s.weights := congrArg Prod.fst hledger
  have hfinished : t.finished = s.finished := congrArg Prod.snd hledger
  obtain ⟨hover, hfree⟩ := ledger_finish hbudget entry t
  rw [hfinished] at hover
  rw [hweights] at hfree
  cases hsettle : entry.settle with
  | none =>
    rw [hsettle] at hfree
    refine h.extend ?_ hgranted hkept fun j => ?_
    · rw [hfree]
      exact Extends.refl _
    · rw [hover, hasItem_append, hsettle]
      simp
  | some i =>
    rw [hsettle] at hfree
    refine h.modify (i := i) (f := fun r => { r with freed := true }) ?_ hgranted hkept
      (fun j hj => ?_) fun reservation hreservation => ⟨?_, fun hsubmitted => ?_, ?_⟩
    · rw [hfree]
      exact extends_free i
    · rw [hover, hasItem_append, hsettle]
      simp [Ne.symm hj]
    · rw [hover, hasItem_append, hsettle]
      simp
    · refine (h.submitted i reservation hreservation hsubmitted).imp_right ?_
      rintro ⟨other, hother, hsome⟩
      exact ⟨other, hkept other hother (by rw [hsome]; exact Option.some_ne_none _), hsome⟩
    · exact h.refused i reservation hreservation

theorem causeInv_prepareEnds (h : CauseInv s) (hworker : WorkerInv o s)
    (hbudget : o.budget = some budget) (entry : Entry) (preparation : Preparation) :
    CauseInv (step o s (.prepareEnds entry preparation)) := by
  by_cases hentry : entry ∈ s.preparing
  · have hledger : ∀ outcome, (settleUnlessExpired entry.id outcome
        { s with preparing := s.preparing.erase entry }).ledger = s.ledger :=
      fun outcome => ledger_settleUnlessExpired _ _ _
    cases preparation with
    | result =>
      obtain ⟨hgranted, hkept⟩ := all_job hworker h (.prepareEnds entry .result)
      have hstep : step o s (.prepareEnds entry .result) =
          finish o entry (settleUnlessExpired entry.id .prepared
            { s with preparing := s.preparing.erase entry }) := if_pos hentry
      rw [hstep] at hgranted hkept ⊢
      exact causeInv_finish h hbudget (hledger .prepared) hgranted hkept
    | error =>
      obtain ⟨hgranted, hkept⟩ := all_job hworker h (.prepareEnds entry .error)
      have hstep : step o s (.prepareEnds entry .error) =
          finish o entry (settleUnlessExpired entry.id .error
            { s with preparing := s.preparing.erase entry }) := if_pos hentry
      rw [hstep] at hgranted hkept ⊢
      exact causeInv_finish h hbudget (hledger .error) hgranted hkept
    | null =>
      have hstep : step o s (.prepareEnds entry .null) =
          claim o entry { s with preparing := s.preparing.erase entry } := if_pos hentry
      exact h.of_ledger hworker (hstep ▸ ledger_claim entry _)
  · exact h.of_ledger hworker (congrArg Worker.ledger (if_neg hentry))

theorem causeInv_runEnds (h : CauseInv s) (hworker : WorkerInv o s)
    (hbudget : o.budget = some budget) (entry : Entry) (fails : Bool) :
    CauseInv (step o s (.runEnds entry fails)) := by
  obtain ⟨hgranted, hkept⟩ := all_job hworker h (.runEnds entry fails)
  by_cases hentry : entry ∈ s.running
  · have hstep : step o s (.runEnds entry fails) =
        finish o entry (releaseWriterSlot (settleUnlessExpired entry.id
          (if fails then .error else .value) { s with running := s.running.erase entry })) :=
      if_pos hentry
    rw [hstep] at hgranted hkept ⊢
    refine causeInv_finish h hbudget ?_ hgranted hkept
    rw [ledger_releaseWriterSlot, ledger_settleUnlessExpired]
    rfl
  · exact h.of_ledger hworker (congrArg Worker.ledger (if_neg hentry))

theorem CauseInv.of_extends (h : CauseInv s) (hworker : WorkerInv o s) {action : Action}
    (hextends : Extends s.weights.reservations (step o s action).weights.reservations)
    (hfinished : (step o s action).finished = s.finished) : CauseInv (step o s action) := by
  obtain ⟨hgranted, hkept⟩ := all_job hworker h action
  exact h.extend hextends hgranted hkept fun j => by rw [hfinished]

theorem close_weights (s : Worker) : (close s).weights = { s.weights with weightWaiters := [] } ∧
    (close s).finished = s.finished := by
  obtain ⟨outcomes, heq⟩ := rejectSlotWaiters_eq s.slotWaiters { s with closed := true }
  unfold close
  dsimp only
  rw [heq]
  split_ifs <;> exact ⟨rfl, rfl⟩

/-- **Every job keeps the causes.** -/
theorem CauseInv.step (h : CauseInv s) (hworker : WorkerInv o s) (hbudget : o.budget = some budget)
    (action : Action) : CauseInv (step o s action) := by
  cases action with
  | submit prepares aborted => exact h.of_ledger hworker (ledger_submit prepares aborted s)
  | abortSubmission item => exact h.of_ledger hworker (ledger_abortSubmission hworker.slots item)
  | reserve weight aborted =>
    have hstep : FlushWorker.step o s (.reserve weight aborted) =
        if s.closed ∨ aborted then s
        else { s with weights := reserveWeight budget weight s.weights } := by
      show reserve o weight aborted s = _
      rw [reserve, hbudget]
    refine h.of_extends hworker ?_ ?_
    · rw [hstep]
      split_ifs
      · exact Extends.refl _
      · exact extends_reserveWeight weight
    · rw [hstep]
      split_ifs <;> rfl
  | abortReservation item =>
    have hstep : FlushWorker.step o s (.abortReservation item) =
        { s with weights := abortReserve budget item s.weights } := by
      show abortReservation o item s = _
      rw [abortReservation, hbudget]
    refine h.of_extends hworker ?_ ?_
    · rw [hstep]
      exact extends_abortReserve item
    · rw [hstep]
  | release i => exact causeInv_release h hworker hbudget i
  | reservationSubmit i prepares => exact causeInv_reservationSubmit h hworker hbudget i prepares
  | close =>
    obtain ⟨hweights, hfinished⟩ := close_weights s
    refine h.of_extends hworker ?_ hfinished
    show Extends _ (close s).weights.reservations
    rw [hweights]
    exact Extends.refl _
  | prepareEnds entry preparation => exact causeInv_prepareEnds h hworker hbudget entry preparation
  | runEnds entry fails => exact causeInv_runEnds h hworker hbudget entry fails
  | deadline entry => exact h.of_ledger hworker (ledger_deadline entry s)
  | ownsSlot entry => exact h.of_ledger hworker (ledger_ownsSlot entry s)
  | pumpResumes => exact h.of_ledger hworker (ledger_pumpResumes s)

/-! ## Weights -/

theorem WeightInv.modify {w : Weights} (h : WeightInv budget w) (i : ℕ)
    {f : Reservation → Reservation} (hweight : ∀ r, (f r).weight = r.weight)
    (hfreed : ∀ r, (f r).freed = r.freed) :
    WeightInv budget { w with reservations := w.reservations.modify i f } := by
  refine ⟨?_, h.atMost, h.waiters, h.frees, fun j => ?_, h.queue.ascending, h.queue.known,
    h.queue.fresh, h.queue.bounded, h.queue.overtakes, h.queue.head⟩
  · have hmap : (w.reservations.modify i f).map
        (fun r => if r.freed then 0 else (r.weight : ℚ)) =
        w.reservations.map fun r => if r.freed then 0 else (r.weight : ℚ) := by
      refine List.ext_getElem? fun j => ?_
      rw [List.getElem?_map, List.getElem?_map, List.getElem?_modify]
      cases w.reservations[j]? with
      | none => rfl
      | some r =>
        simp only [Option.map_eq_map, Option.map_some]
        by_cases hij : i = j
        · rw [if_pos hij, hweight, hfreed]
        · rw [if_neg hij]
    show w.outstandingWeight = (List.map _ _).sum
    rw [hmap]
    exact h.outstanding
  · rw [h.freed j]
    dsimp only
    rw [List.getElem?_modify]
    constructor
    · rintro ⟨r, hr, htrue⟩
      refine ⟨_, by rw [hr]; rfl, ?_⟩
      split_ifs
      · rwa [hfreed]
      · exact htrue
    · rintro ⟨r, hr, htrue⟩
      obtain ⟨before, hbefore, rfl⟩ := Option.map_eq_some_iff.1 hr
      refine ⟨before, hbefore, ?_⟩
      split_ifs at htrue
      · rwa [hfreed] at htrue
      · exact htrue

theorem WeightInv.of_ledger (h : WeightInv budget s.weights) (hledger : s'.ledger = s.ledger) :
    WeightInv budget s'.weights := by
  have hweights : s'.weights = s.weights := congrArg Prod.fst hledger
  rwa [hweights]

theorem weightInv_finish (hbudget : o.budget = some budget) {t : Worker}
    (h : WeightInv budget t.weights) (entry : Entry) :
    WeightInv budget (finish o entry t).weights := by
  rw [(ledger_finish hbudget entry t).2]
  split
  · exact h.free _
  · exact h

theorem weightInv_freeWeight (hbudget : o.budget = some budget) {t : Worker}
    (h : WeightInv budget t.weights) (i : ℕ) : WeightInv budget (freeWeight o i t).weights := by
  rw [freeWeight, hbudget]
  exact h.free i

/-- **Every job keeps the weights.** -/
theorem weightInv_step (h : WeightInv budget s.weights) (hslots : SlotInv o 0 0 s)
    (hbudget : o.budget = some budget) (action : Action) :
    WeightInv budget (step o s action).weights := by
  have hledger : ∀ s' : Worker, s'.ledger = s.ledger → WeightInv budget s'.weights :=
    fun s' heq => h.of_ledger heq
  have hmodify : ∀ (i : ℕ) (f : Reservation → Reservation) (next : ℕ),
      (∀ r, (f r).weight = r.weight) → (∀ r, (f r).freed = r.freed) →
      WeightInv budget (modifyReservation i f { s with nextItem := next }).weights :=
    fun i f next hweight hfreed => h.modify i hweight hfreed
  cases action with
  | submit prepares aborted => exact hledger _ (ledger_submit prepares aborted s)
  | abortSubmission item => exact hledger _ (ledger_abortSubmission hslots item)
  | reserve weight aborted =>
    show WeightInv budget (reserve o weight aborted s).weights
    rw [reserve, hbudget]
    dsimp only
    split_ifs
    · exact h
    · exact h.reserve weight
  | abortReservation item =>
    show WeightInv budget (abortReservation o item s).weights
    rw [abortReservation, hbudget]
    exact h.abortReserve item
  | release i =>
    show WeightInv budget (release o i s).weights
    unfold release
    split
    · exact h
    · split_ifs
      · exact h
      · exact weightInv_freeWeight hbudget
          (hmodify i (fun r => { r with released := true }) s.nextItem (fun _ => rfl) fun _ => rfl) i
  | reservationSubmit i prepares =>
    show WeightInv budget (reservationSubmit o i prepares s).weights
    have hsubmitted := hmodify i (fun r => { r with submitted := true, refused := s.closed })
      (s.nextItem + 1) (fun _ => rfl) fun _ => rfl
    unfold reservationSubmit
    split
    · exact h
    · dsimp only
      split_ifs
      · exact h
      · exact weightInv_freeWeight hbudget hsubmitted i
      · exact hsubmitted.of_ledger (ledger_enqueue _ _)
  | close =>
    show WeightInv budget (close s).weights
    rw [(close_weights s).1]
    exact ⟨h.outstanding, h.atMost, fun _ hwaiter => absurd hwaiter List.not_mem_nil, h.frees,
      h.freed, List.Pairwise.nil, fun _ hwaiter => absurd hwaiter List.not_mem_nil, h.queue.fresh,
      h.queue.bounded, h.queue.overtakes, fun _ _ hcons => (by cases hcons)⟩
  | prepareEnds entry preparation =>
    show WeightInv budget (prepareEnds o entry preparation s).weights
    have hended : ∀ outcome, WeightInv budget (settleUnlessExpired entry.id outcome
        { s with preparing := s.preparing.erase entry }).weights :=
      fun outcome => hledger _ (ledger_settleUnlessExpired _ _ _)
    unfold prepareEnds
    dsimp only
    split_ifs
    · cases preparation with
      | result => exact weightInv_finish hbudget (hended .prepared) entry
      | error => exact weightInv_finish hbudget (hended .error) entry
      | null => exact hledger _ (ledger_claim entry _)
    · exact h
  | runEnds entry fails =>
    show WeightInv budget (runEnds o entry fails s).weights
    unfold runEnds
    dsimp only
    split
    · refine weightInv_finish hbudget (hledger _ ?_) entry
      rw [ledger_releaseWriterSlot, ledger_settleUnlessExpired]
      rfl
    · exact h
  | deadline entry => exact hledger _ (ledger_deadline entry s)
  | ownsSlot entry => exact hledger _ (ledger_ownsSlot entry s)
  | pumpResumes => exact hledger _ (ledger_pumpResumes s)

/-! ## The result -/

structure IsAccounted (budget : ℚ≥0) (s : Worker) : Prop where
  /-- The outstanding weight is that of the reservations that are not freed. -/
  outstanding : s.weights.outstandingWeight = heldWeight s.weights.reservations
  nonneg : 0 ≤ s.weights.outstandingWeight
  atMost : s.weights.outstandingWeight ≤ budget + budget / 16
  /-- No weight is given back twice. -/
  freedOnce : s.weights.frees.Nodup ∧ ∀ i, i ∈ s.weights.frees ↔
    ∃ reservation, s.weights.reservations[i]? = some reservation ∧ reservation.freed = true
  /-- A reservation is freed by a release that comes before its submission, by its submission to a
  closed worker, or when its item is over, and not before. -/
  freed : ∀ (i : ℕ) (reservation : Reservation), s.weights.reservations[i]? = some reservation →
    (reservation.freed = true ↔
      reservation.released = true ∨ reservation.refused = true ∨ HasItem s.finished i)
  /-- One that was submitted, and not refused, has an item that is waited for until it is over. -/
  submitted : ∀ (i : ℕ) (reservation : Reservation), s.weights.reservations[i]? = some reservation →
    reservation.submitted = true → reservation.refused = false →
      HasItem (s.queue ++ s.started ++ s.finished) i
  zero : (∀ reservation ∈ s.weights.reservations, reservation.freed = true) →
    s.weights.outstandingWeight = 0
  /-- No parked reservation is overtaken more than sixteen times at the head of the queue. -/
  overtaken : ∀ id, s.weights.overtaken.count id ≤ 16

theorem causeInv_initial : CauseInv {} where
  granted := fun _ hentry => absurd hentry (Multiset.notMem_zero _)
  freed := fun i _ h => by cases h
  submitted := fun i _ h => by cases h
  refused := fun i _ h => by cases h

theorem weightInv_initial (budget : ℚ≥0) : WeightInv budget {} where
  outstanding := rfl
  atMost := budget.2.trans (ceiling_le budget)
  waiters := fun _ h => absurd h List.not_mem_nil
  frees := List.nodup_nil
  freed := fun i => ⟨fun h => absurd h List.not_mem_nil, fun ⟨_, h, _⟩ => (by cases h)⟩
  queue := ⟨List.Pairwise.nil, fun _ h => absurd h List.not_mem_nil, fun _ _ => rfl,
    fun _ => Nat.zero_le _, Nat.zero_le _, fun _ _ h => (by cases h)⟩

/-- **A flush worker is accounted for** after every sequence of jobs. -/
theorem flushWorker_isAccounted (o : Options) (budget : ℚ≥0) (actions : List Action) :
    IsAccounted budget (run { o with budget := some budget } {} actions) := by
  obtain ⟨hworker, hcause, h⟩ := run_induction (s := {}) { o with budget := some budget }
    (P := fun s => WorkerInv { o with budget := some budget } s ∧ CauseInv s ∧
      WeightInv budget s.weights)
    (fun s action hs => ⟨hs.1.step action, hs.2.1.step hs.1 rfl action,
      weightInv_step hs.2.2 hs.1.slots rfl action⟩)
    ⟨workerInv_initial _, causeInv_initial, weightInv_initial budget⟩ actions
  generalize run { o with budget := some budget } {} actions = s at *
  have hheld := h.outstanding
  refine ⟨hheld, ?_, h.atMost, ⟨h.frees, h.freed⟩, hcause.freed, ?_, fun hall => ?_,
    h.queue.bounded⟩
  · rw [hheld]
    exact heldWeight_nonneg _
  · intro i reservation hreservation hsubmitted hunrefused
    rcases hcause.submitted i reservation hreservation hsubmitted with hrefused | hitem
    · rw [hunrefused] at hrefused
      cases hrefused
    · obtain ⟨entry, hentry, hsettle⟩ := hitem
      refine ⟨entry, ?_, hsettle⟩
      have hplain : entry ∉ s.items.parked := fun hparked => by
        rw [hworker.order.parked entry hparked] at hsettle
        cases hsettle
      rw [Items.all, Multiset.mem_add, mem_unfinished] at hentry
      simp only [Worker.items, Multiset.mem_add, Multiset.mem_coe, Worker.started,
        List.mem_append] at hentry hplain ⊢
      tauto
  · rw [hheld, heldWeight]
    refine List.sum_eq_zero fun x hx => ?_
    obtain ⟨reservation, hreservation, rfl⟩ := List.mem_map.1 hx
    rw [if_pos (hall reservation hreservation)]

/-- A reservation of 8 of 64 that is submitted after `close`. -/
def lateSubmission : Worker :=
  run { budget := some 64 } {} [.reserve 8 false, .close, .reservationSubmit 0 false]

/-- A reservation that is submitted to a closed worker is freed without any run. -/
theorem not_freedByRun : ¬ ∀ (i : ℕ) (reservation : Reservation),
    lateSubmission.weights.reservations[i]? = some reservation → reservation.submitted = true →
      reservation.freed = true → HasItem lateSubmission.finished i := by
  intro h
  have hreservation : lateSubmission.weights.reservations[0]? =
      some { weight := 8, freed := true, submitted := true, refused := true } := by decide +kernel
  have hfinished : lateSubmission.finished = [] := by decide +kernel
  obtain ⟨entry, hentry, -⟩ := h 0 _ hreservation rfl rfl
  rw [hfinished] at hentry
  exact absurd hentry List.not_mem_nil

end FlushWorker

end Keeper
