import Mathlib.Data.List.Flatten
import Mathlib.Data.List.Nodup
import Mathlib.Algebra.BigOperators.Group.List.Basic
import Mathlib.Data.Rat.Floor
import Mathlib.Tactic.SplitIfs

/-!
# An ingest lane

`services/cron/src/ingest/ingest-lane.ts`: a loop claims calendars while there is capacity and hands each batch
to a round; `stop` ends the loop and waits for the rounds. Between two awaits the code runs alone, so that a
step is what it does from one await to the next.

* `Inv.step`, `Inv.reaches`: the claims in flight, the pending claims and the rounds describe the same batches.
* `keepsClaims_iff`: a lane keeps its claims in every run unless its batch size is zero.
* `not_keepsClaims`: a batch size that is configured as a fraction is zero.
-/

namespace Keeper

namespace IngestLane

/-! ## Options -/

/-- `batchSize` and `capacity` of `IngestLaneDials`. -/
structure Dials where
  batchSize : ℕ
  capacity : ℕ
  deriving DecidableEq

def positive (value : Option ℚ) (fallback : ℚ) : ℚ :=
  match value with
  | some value => if 0 < value then value else fallback
  | none => fallback

/-- The dials of the fleet, from `INGEST_CLAIM_BATCH` and `INGEST_FLEET_CONCURRENCY`. -/
def resolveFleetDials (claimBatch fleetConcurrency : Option ℚ) : Dials where
  batchSize := ⌊positive claimBatch 50⌋.toNat
  capacity := ⌊positive fleetConcurrency 64⌋.toNat

/-! ## State -/

/-- An object that `claim` has returned. It makes one for every row that it has leased, so that two claims of
one calendar are two objects. -/
structure Claim where
  ref : ℕ
  calendarId : String
  deriving DecidableEq

structure Round where
  id : ℕ
  claims : List Claim
  deriving DecidableEq

/-- `onError` has been called with this phase. -/
inductive ErrorPhase
  | claim
  | round
  deriving DecidableEq

/-- Where the loop awaits. The waiters are numbered: a notification releases the current one and takes the
next number. -/
inductive LoopPhase
  | atCapacity (waiter : ℕ)
  | claiming (limit : ℤ)
  | pausing (waiter : ℕ)
  | ended
  deriving DecidableEq

/-- Where a call of `stop` awaits: the loop, then the rounds that are unsettled at that time. -/
inductive StopPhase
  | loop
  | rounds (ids : List ℕ)
  | resolved
  deriving DecidableEq

/-- A lane, with what it has asked for, been given, launched and reported. A round is unsettled until its
finaliser has run. -/
structure Lane where
  stopped : Bool := false
  inFlight : ℤ := 0
  waiter : ℕ := 0
  rounds : List Round := []
  pending : List Claim := []
  loop : LoopPhase := .ended
  stops : List StopPhase := []
  limits : List ℤ := []
  returned : List Claim := []
  launched : List Round := []
  reports : List ErrorPhase := []
  deriving DecidableEq

namespace Lane

/-! ## The code between two awaits -/

def notify (s : Lane) : Lane := { s with waiter := s.waiter + 1 }

/-- `launchRound`, whose `pending` is a set. -/
def launchRound (s : Lane) (claims : List Claim) : Lane :=
  let round := ⟨s.launched.length, claims⟩
  { s with
    inFlight := s.inFlight + claims.length
    pending := claims.foldl (fun pending claim => if claim ∈ pending then pending else pending ++ [claim])
      s.pending
    rounds := s.rounds ++ [round]
    launched := s.launched ++ [round] }

def finaliseRound (s : Lane) (round : Round) : Lane :=
  { s with
    inFlight := s.inFlight - round.claims.length
    pending := s.pending.filter (· ∉ round.claims)
    rounds := s.rounds.filter (·.id ≠ round.id) }.notify

/-- The loop from its test to the next await. -/
def continueLoop (dials : Dials) (s : Lane) : Lane :=
  if s.stopped then { s with loop := .ended }
  else if s.inFlight ≥ dials.capacity then { s with loop := .atCapacity s.waiter }
  else
    let limit := min (dials.batchSize : ℤ) (dials.capacity - s.inFlight)
    { s with loop := .claiming limit, limits := s.limits ++ [limit] }

/-- `claim` returns an object for each of these calendars. -/
def returnClaims (s : Lane) (calendarIds : List String) : Lane × List Claim :=
  let claims := calendarIds.mapIdx fun i calendarId => ⟨s.returned.length + i, calendarId⟩
  ({ s with returned := s.returned ++ claims }, claims)

/-- The loop after `claimNext`. -/
def afterClaim (dials : Dials) (s : Lane) (claims : Option (List Claim)) : Lane :=
  if s.stopped then
    match claims with
    | some claims =>
      if claims.length > 0 then { s.launchRound claims with loop := .ended } else { s with loop := .ended }
    | none => { s with loop := .ended }
  else
    match claims with
    | none => { s with loop := .pausing s.waiter }
    | some claims =>
      if claims.length = 0 then { s with loop := .pausing s.waiter }
      else (s.launchRound claims).continueLoop dials

/-- `onError`. -/
def report (s : Lane) (phase : ErrorPhase) : Lane := { s with reports := s.reports ++ [phase] }

/-- `startIngestLane`. -/
def start (dials : Dials) : Lane := continueLoop dials {}

/-- `stop`, up to its first await. -/
def stop (s : Lane) : Lane :=
  { s with stopped := true, stops := s.stops ++ [StopPhase.loop] }.notify

end Lane

/-! ## Steps -/

/-- What the lane waits for happens. -/
inductive Step (dials : Dials) : Lane → Lane → Prop
  | released {s : Lane} {waiter : ℕ} (hloop : s.loop = .atCapacity waiter) (h : waiter < s.waiter) :
    Step dials s (s.continueLoop dials)
  | claimed {s : Lane} {limit : ℤ} (hloop : s.loop = .claiming limit) (calendarIds : List String)
    (h : calendarIds.length ≤ limit.toNat) :
    Step dials s ((s.returnClaims calendarIds).1.afterClaim dials (s.returnClaims calendarIds).2)
  | claimFailed {s : Lane} {limit : ℤ} (hloop : s.loop = .claiming limit) :
    Step dials s ((s.report .claim).afterClaim dials none)
  /-- The pause ends early when its waiter is released, or else when its time has elapsed. -/
  | paused {s : Lane} {waiter : ℕ} (hloop : s.loop = .pausing waiter) :
    Step dials s (s.continueLoop dials)
  | resolved {s : Lane} {round : Round} (h : round ∈ s.rounds) : Step dials s (s.finaliseRound round)
  | rejected {s : Lane} {round : Round} (h : round ∈ s.rounds) :
    Step dials s ((s.report .round).finaliseRound round)
  | stop (s : Lane) : Step dials s s.stop
  | loopEnded {s : Lane} {before after : List StopPhase} (hstops : s.stops = before ++ .loop :: after)
    (hloop : s.loop = .ended) :
    Step dials s { s with stops := before ++ .rounds (s.rounds.map (·.id)) :: after }
  | roundsSettled {s : Lane} {before after : List StopPhase} {ids : List ℕ}
    (hstops : s.stops = before ++ .rounds ids :: after) (h : ∀ round ∈ s.rounds, round.id ∉ ids) :
    Step dials s { s with stops := before ++ .resolved :: after }

inductive Reaches (dials : Dials) : Lane → Prop
  | start : Reaches dials (Lane.start dials)
  | step {s s' : Lane} (h : Reaches dials s) (hstep : Step dials s s') : Reaches dials s'

/-- A lane neither loses nor doubles a claim. -/
structure KeepsClaims (dials : Dials) (s : Lane) : Prop where
  /-- The claims in flight fit the capacity, and are those of the unsettled rounds. -/
  capacity : s.inFlight ≤ dials.capacity
  inFlight : s.inFlight = (s.rounds.map (·.claims.length)).sum
  /-- Every claim that was returned is given to one round, once. -/
  launched : (s.launched.flatMap (·.claims)).Perm s.returned ∧ s.returned.Nodup ∧
    (s.launched.map (·.id)).Nodup
  /-- The pending claims are those of the unsettled rounds, which have been launched. -/
  pending : (∀ claim, claim ∈ s.pending ↔ ∃ round ∈ s.rounds, claim ∈ round.claims) ∧
    s.pending.Nodup ∧ s.rounds.Sublist s.launched
  /-- The limits that were asked for are positive. -/
  limits : ∀ limit ∈ s.limits, 0 < limit
  /-- When a stop has resolved, the loop has ended and no round is unsettled. -/
  stops : .resolved ∈ s.stops → s.loop = .ended ∧ s.rounds = []
  /-- The loop awaits a waiter that was released, or there is no capacity and no stop. -/
  waits : ∀ waiter, s.loop = .atCapacity waiter →
    waiter < s.waiter ∨ (s.stopped = false ∧ dials.capacity ≤ s.inFlight)

/-! ## What every step keeps -/

/-- The claims are accounted for. -/
structure Books (dials : Dials) (s : Lane) : Prop where
  inFlight : s.inFlight = (s.rounds.flatMap (·.claims)).length
  capacity : s.inFlight ≤ dials.capacity
  pending : s.pending = s.rounds.flatMap (·.claims)
  launched : s.launched.flatMap (·.claims) = s.returned
  refs : s.returned.map (·.ref) = List.range s.returned.length
  ids : s.launched.map (·.id) = List.range s.launched.length
  rounds : s.rounds.Sublist s.launched
  limits : 0 < dials.batchSize ∨ dials.capacity = 0 → ∀ limit ∈ s.limits, 0 < limit

/-- What a call of `stop` relies on. -/
def Lane.Stopping (s : Lane) : StopPhase → Prop
  | .loop => True
  | .rounds ids => s.loop = .ended ∧ ∀ round ∈ s.rounds, round.id ∈ ids
  | .resolved => s.loop = .ended ∧ s.rounds = []

/-- The claims are accounted for, where the loop and the calls of `stop` await. -/
structure Inv (dials : Dials) (s : Lane) : Prop extends Books dials s where
  claiming : ∀ limit, s.loop = .claiming limit → limit ≤ dials.capacity - s.inFlight
  stops : ∀ phase ∈ s.stops, s.Stopping phase
  waits : ∀ waiter, s.loop = .atCapacity waiter →
    waiter < s.waiter ∨ (waiter = s.waiter ∧ s.stopped = false ∧ dials.capacity ≤ s.inFlight)

namespace Books

variable {dials : Dials} {s : Lane}

theorem nodup_returned (h : Books dials s) : s.returned.Nodup := by
  have hnodup : (s.returned.map (·.ref)).Nodup := h.refs ▸ List.nodup_range
  exact hnodup.of_map _

theorem nodup_rounds (h : Books dials s) : (s.rounds.flatMap (·.claims)).Nodup := by
  refine h.nodup_returned.sublist ?_
  rw [← h.launched]
  exact h.rounds.flatMap _

theorem nodup_ids (h : Books dials s) : (s.launched.map (·.id)).Nodup := h.ids ▸ List.nodup_range

theorem continueLoop (h : Books dials s) : Books dials (s.continueLoop dials) := by
  unfold Lane.continueLoop
  split_ifs with hstopped hcapacity
  · exact { h with }
  · exact { h with }
  · refine { h with limits := ?_ }
    intro hdials limit hlimit
    have hnonneg : 0 ≤ s.inFlight := by
      rw [h.inFlight]
      exact Int.natCast_nonneg _
    rcases List.mem_append.1 hlimit with hlimit | hlimit
    · exact h.limits hdials limit hlimit
    · rw [List.mem_singleton] at hlimit
      omega

theorem returnClaims (h : Books dials s) (calendarIds : List String) :
    (s.returnClaims calendarIds).1.returned.map (·.ref) =
      List.range (s.returnClaims calendarIds).1.returned.length := by
  simp only [Lane.returnClaims, List.map_append, h.refs, List.length_append, List.length_mapIdx]
  rw [List.range_add]
  congr 1
  refine List.ext_getElem (by simp) fun i hi hi' => ?_
  simp

theorem foldl_add {pending claims : List Claim} (h : (pending ++ claims).Nodup) :
    claims.foldl (fun pending claim => if claim ∈ pending then pending else pending ++ [claim])
      pending = pending ++ claims := by
  induction claims generalizing pending with
  | nil => simp
  | cons claim claims ih =>
    have hnew : claim ∉ pending := fun hmem =>
      (List.nodup_append.1 h).2.2 claim hmem claim List.mem_cons_self rfl
    rw [List.foldl_cons, if_neg hnew, ih (by simpa using h)]
    simp

theorem launch (h : Books dials s) {calendarIds : List String}
    (hlength : (calendarIds.length : ℤ) ≤ dials.capacity - s.inFlight) :
    Books dials ((s.returnClaims calendarIds).1.launchRound (s.returnClaims calendarIds).2) := by
  have hrefs := h.returnClaims calendarIds
  obtain ⟨claims, hclaims⟩ : ∃ claims, (s.returnClaims calendarIds).2 = claims := ⟨_, rfl⟩
  have hreturned : (s.returnClaims calendarIds).1 = { s with returned := s.returned ++ claims } := by
    rw [← hclaims]
    rfl
  have hlen : claims.length = calendarIds.length := by
    rw [← hclaims, Lane.returnClaims, List.length_mapIdx]
  rw [hreturned] at hrefs
  have hnodup : (s.returned ++ claims).Nodup := by
    have hmap : ((s.returned ++ claims).map (·.ref)).Nodup := hrefs ▸ List.nodup_range
    exact hmap.of_map _
  have hpending : (s.pending ++ claims).Nodup := by
    refine hnodup.sublist (List.Sublist.append_right ?_ _)
    rw [h.pending, ← h.launched]
    exact h.rounds.flatMap _
  rw [hreturned, hclaims]
  refine ⟨?_, ?_, ?_, ?_, hrefs, ?_, h.rounds.append_right _, h.limits⟩
  · simp [Lane.launchRound, h.inFlight]
  · show s.inFlight + claims.length ≤ dials.capacity
    omega
  · show claims.foldl _ s.pending = _
    rw [foldl_add hpending, h.pending]
    simp [Lane.launchRound]
  · simp [Lane.launchRound, h.launched]
  · simp [Lane.launchRound, h.ids, List.range_succ]

theorem finaliseRound (h : Books dials s) {round : Round} (hround : round ∈ s.rounds) :
    Books dials (s.finaliseRound round) := by
  obtain ⟨before, after, hsplit⟩ := List.append_of_mem hround
  have hids : (s.rounds.map (·.id)).Nodup := h.nodup_ids.sublist (h.rounds.map _)
  have hclaims := h.nodup_rounds
  have hrounds : s.rounds.filter (·.id ≠ round.id) = before ++ after := by
    rw [hsplit] at hids ⊢
    simp only [List.map_append, List.map_cons, List.nodup_append, List.nodup_cons, List.mem_map,
      List.mem_cons] at hids
    have hbefore : ∀ other ∈ before, decide (other.id ≠ round.id) = true := fun other hother =>
      decide_eq_true (hids.2.2 other.id ⟨other, hother, rfl⟩ round.id (Or.inl rfl))
    have hafter : ∀ other ∈ after, decide (other.id ≠ round.id) = true := fun other hother =>
      decide_eq_true fun heq => hids.2.1.1 ⟨other, hother, heq⟩
    rw [List.filter_append, List.filter_cons_of_neg (by simp), List.filter_eq_self.2 hbefore,
      List.filter_eq_self.2 hafter]
  have hpending : (s.rounds.flatMap (·.claims)).filter (· ∉ round.claims) =
      (before ++ after).flatMap (·.claims) := by
    rw [hsplit, List.flatMap_append, List.flatMap_cons] at hclaims ⊢
    obtain ⟨-, hrest, hdisjoint⟩ := List.nodup_append.1 hclaims
    have hbefore : ∀ claim ∈ before.flatMap (·.claims), decide (claim ∉ round.claims) = true :=
      fun claim hclaim => decide_eq_true fun hmem =>
        hdisjoint claim hclaim claim (List.mem_append_left _ hmem) rfl
    have hafter : ∀ claim ∈ after.flatMap (·.claims), decide (claim ∉ round.claims) = true :=
      fun claim hclaim => decide_eq_true fun hmem =>
        (List.nodup_append.1 hrest).2.2 claim hmem claim hclaim rfl
    rw [List.filter_append, List.filter_append, List.filter_eq_self.2 hbefore,
      List.filter_eq_self.2 hafter, List.filter_eq_nil_iff.2 (by simp), List.nil_append,
      List.flatMap_append]
  have hlength : s.inFlight - round.claims.length = ((before ++ after).flatMap (·.claims)).length := by
    rw [h.inFlight, hsplit]
    simp only [List.flatMap_append, List.flatMap_cons, List.length_append]
    omega
  refine ⟨?_, ?_, ?_, h.launched, h.refs, h.ids, List.filter_sublist.trans h.rounds, h.limits⟩
  · show s.inFlight - _ = ((s.rounds.filter (·.id ≠ round.id)).flatMap (·.claims)).length
    rw [hlength, hrounds]
  · have hcapacity := h.capacity
    show s.inFlight - _ ≤ _
    omega
  · show s.pending.filter _ = (s.rounds.filter (·.id ≠ round.id)).flatMap (·.claims)
    rw [h.pending, hpending, hrounds]

end Books

namespace Inv

variable {dials : Dials} {s s' : Lane}

/-- While the loop has not ended, every call of `stop` awaits it. -/
theorem eq_loop (h : Inv dials s) (hloop : s.loop ≠ .ended) : ∀ phase ∈ s.stops, phase = .loop := by
  intro phase hphase
  have hstopping := h.stops phase hphase
  cases phase with
  | loop => rfl
  | rounds ids => exact absurd hstopping.1 hloop
  | resolved => exact absurd hstopping.1 hloop

theorem lt_succ_waiter (h : Inv dials s) {waiter : ℕ} (hwaiter : s.loop = .atCapacity waiter) :
    waiter < s.waiter + 1 := by
  rcases h.waits waiter hwaiter with hlt | ⟨heq, -⟩ <;> omega

theorem of_books (h : Books dials s) (hloop : s.loop = .ended ∨ ∃ waiter, s.loop = .pausing waiter)
    (hstops : ∀ phase ∈ s.stops, phase = .loop) : Inv dials s := by
  refine ⟨h, fun limit hlimit => ?_, fun phase hphase => ?_, fun waiter hwaiter => ?_⟩
  · rcases hloop with hloop | ⟨_, hloop⟩ <;> cases hloop.symm.trans hlimit
  · rw [hstops phase hphase]
    trivial
  · rcases hloop with hloop | ⟨_, hloop⟩ <;> cases hloop.symm.trans hwaiter

theorem continueLoop (h : Books dials s) (hstops : ∀ phase ∈ s.stops, phase = .loop) :
    Inv dials (s.continueLoop dials) := by
  have hbooks := h.continueLoop
  have hsame : (s.continueLoop dials).stops = s.stops ∧
      (s.continueLoop dials).inFlight = s.inFlight := by
    unfold Lane.continueLoop
    split_ifs <;> exact ⟨rfl, rfl⟩
  refine ⟨hbooks, fun limit hlimit => ?_, fun phase hphase => ?_, fun waiter hwaiter => Or.inr ?_⟩
  · rw [hsame.2]
    unfold Lane.continueLoop at hlimit
    split_ifs at hlimit
    cases hlimit
    exact min_le_right _ _
  · rw [hstops phase (hsame.1 ▸ hphase)]
    trivial
  · unfold Lane.continueLoop at hwaiter ⊢
    split_ifs at hwaiter ⊢ with hstopped hcapacity
    cases hwaiter
    exact ⟨rfl, Bool.not_eq_true _ ▸ hstopped, hcapacity⟩

theorem afterClaim_none (h : Books dials s) (hstops : ∀ phase ∈ s.stops, phase = .loop) :
    Inv dials (s.afterClaim dials none) := by
  unfold Lane.afterClaim
  split_ifs
  · exact of_books { h with }
      (Or.inl rfl) hstops
  · exact of_books { h with }
      (Or.inr ⟨_, rfl⟩) hstops

theorem claimed (h : Inv dials s) {limit : ℤ} (hloop : s.loop = .claiming limit)
    {calendarIds : List String} (hlength : calendarIds.length ≤ limit.toNat) :
    Inv dials ((s.returnClaims calendarIds).1.afterClaim dials (s.returnClaims calendarIds).2) := by
  have hstops := h.eq_loop (by rw [hloop]; exact LoopPhase.noConfusion)
  cases calendarIds with
  | nil =>
    have hnone : (s.returnClaims []).1.afterClaim dials (s.returnClaims []).2 =
        s.afterClaim dials none := by
      simp [Lane.returnClaims, Lane.afterClaim]
    rw [hnone]
    exact afterClaim_none h.toBooks hstops
  | cons calendarId calendarIds =>
    have hlaunch := @Books.launch _ _ h.toBooks (calendarId :: calendarIds) (by
      have hlimit := h.claiming limit hloop
      simp only [List.length_cons] at hlength ⊢
      omega)
    have hpos : 0 < (s.returnClaims (calendarId :: calendarIds)).2.length := by
      simp [Lane.returnClaims]
    unfold Lane.afterClaim
    simp only [gt_iff_lt, hpos, if_true, Nat.pos_iff_ne_zero.1 hpos, if_false]
    split_ifs
    · exact of_books { hlaunch with } (Or.inl rfl) hstops
    · exact continueLoop hlaunch hstops

theorem finaliseRound (h : Inv dials s) {round : Round} (hround : round ∈ s.rounds) :
    Inv dials (s.finaliseRound round) := by
  refine ⟨h.toBooks.finaliseRound hround, fun limit hlimit => ?_, fun phase hphase => ?_,
    fun waiter hwaiter => Or.inl ?_⟩
  · have hclaiming := h.claiming limit hlimit
    show limit ≤ dials.capacity - (s.inFlight - round.claims.length)
    omega
  · have hstopping := h.stops phase hphase
    cases phase with
    | loop => trivial
    | rounds ids =>
      exact ⟨hstopping.1, fun other hother => hstopping.2 other (List.mem_of_mem_filter hother)⟩
    | resolved => exact ⟨hstopping.1, List.filter_eq_nil_iff.2 fun other hother => by
        rw [hstopping.2] at hother
        cases hother⟩
  · exact h.lt_succ_waiter hwaiter

theorem report (h : Inv dials s) (phase : ErrorPhase) : Inv dials (s.report phase) :=
  ⟨{ h with }, h.claiming,
    fun stopPhase hphase => h.stops stopPhase hphase, h.waits⟩

/-- A call of `stop` gets from one await to the next. -/
theorem stopPhase (h : Inv dials s) {before after : List StopPhase} {old new : StopPhase}
    (hstops : s.stops = before ++ old :: after) (hnew : s.Stopping new) :
    Inv dials { s with stops := before ++ new :: after } := by
  refine ⟨{ h with },
    h.claiming, fun phase hphase => ?_, h.waits⟩
  have hkept : phase = new ∨ phase ∈ s.stops := by
    simp only [List.mem_append, List.mem_cons] at hphase
    rw [hstops]
    rcases hphase with hphase | rfl | hphase
    · exact Or.inr (List.mem_append_left _ hphase)
    · exact Or.inl rfl
    · exact Or.inr (List.mem_append_right _ (List.mem_cons_of_mem _ hphase))
  have hstopping : s.Stopping phase := by
    rcases hkept with rfl | hphase
    · exact hnew
    · exact h.stops phase hphase
  cases phase with
  | loop => trivial
  | rounds ids => exact hstopping
  | resolved => exact hstopping

theorem step (h : Inv dials s) (hstep : Step dials s s') : Inv dials s' := by
  cases hstep with
  | released hloop hwaiter =>
    exact continueLoop h.toBooks (h.eq_loop (by rw [hloop]; exact LoopPhase.noConfusion))
  | claimed hloop calendarIds hlength => exact h.claimed hloop hlength
  | claimFailed hloop =>
    exact afterClaim_none (h.report .claim).toBooks
      ((h.report .claim).eq_loop (by
        show s.loop ≠ _
        rw [hloop]
        exact LoopPhase.noConfusion))
  | paused hloop =>
    exact continueLoop h.toBooks (h.eq_loop (by rw [hloop]; exact LoopPhase.noConfusion))
  | resolved hround => exact h.finaliseRound hround
  | rejected hround => exact (h.report .round).finaliseRound hround
  | stop =>
    refine ⟨{ h with },
      h.claiming, fun phase hphase => ?_, fun waiter hwaiter => Or.inl (h.lt_succ_waiter hwaiter)⟩
    rcases List.mem_append.1 hphase with hphase | hphase
    · have hstopping := h.stops phase hphase
      cases phase with
      | loop => trivial
      | rounds ids => exact hstopping
      | resolved => exact hstopping
    · rw [List.mem_singleton.1 hphase]
      trivial
  | loopEnded hstops hloop =>
    exact h.stopPhase hstops ⟨hloop, fun round hround => List.mem_map_of_mem hround⟩
  | roundsSettled hstops hsettled =>
    have hstopping := h.stops _ (hstops ▸ List.mem_append_right _ List.mem_cons_self)
    refine h.stopPhase hstops ⟨hstopping.1, List.eq_nil_iff_forall_not_mem.2 fun round hround => ?_⟩
    exact hsettled round hround (hstopping.2 round hround)

theorem start (dials : Dials) : Inv dials (Lane.start dials) :=
  continueLoop ⟨rfl, Int.natCast_nonneg _, rfl, rfl, rfl, rfl, List.Sublist.refl _,
    fun _ limit hlimit => by cases hlimit⟩ fun phase hphase => by cases hphase

theorem reaches (h : Reaches dials s) : Inv dials s := by
  induction h with
  | start => exact start dials
  | step hreaches hstep ih => exact ih.step hstep

theorem keepsClaims (h : Inv dials s) (hdials : 0 < dials.batchSize ∨ dials.capacity = 0) :
    KeepsClaims dials s where
  capacity := h.capacity
  inFlight := by
    rw [h.inFlight, List.length_flatMap]
  launched := ⟨h.launched ▸ List.Perm.refl _, h.nodup_returned, h.nodup_ids⟩
  pending := by
    refine ⟨fun claim => ?_, h.pending ▸ h.nodup_rounds, h.rounds⟩
    rw [h.pending, List.mem_flatMap]
  limits := h.limits hdials
  stops := fun hresolved => h.stops _ hresolved
  waits := fun waiter hwaiter => (h.waits waiter hwaiter).imp_right (·.2)

end Inv

/-! ## Lanes that keep their claims -/

/-- **A lane keeps its claims in every run** exactly if its batches are not empty, or it has no capacity. -/
theorem keepsClaims_iff (dials : Dials) :
    (∀ s, Reaches dials s → KeepsClaims dials s) ↔ 0 < dials.batchSize ∨ dials.capacity = 0 := by
  constructor
  · intro h
    by_contra hdials
    push Not at hdials
    have hlimits := (h _ .start).limits (min (dials.batchSize : ℤ) (dials.capacity - 0))
    have hasked : (Lane.start dials).limits = [min (dials.batchSize : ℤ) (dials.capacity - 0)] := by
      simp [Lane.start, Lane.continueLoop, hdials.2]
    rw [hasked] at hlimits
    have hpos := hlimits List.mem_cons_self
    omega
  · exact fun hdials s h => (Inv.reaches h).keepsClaims hdials

/-- Half a calendar for each batch is a number, but no batch size. -/
theorem not_keepsClaims : ¬ ∀ (claimBatch fleetConcurrency : Option ℚ) (s : Lane),
    Reaches (resolveFleetDials claimBatch fleetConcurrency) s →
      KeepsClaims (resolveFleetDials claimBatch fleetConcurrency) s := by
  intro h
  have hdials : resolveFleetDials (some (1 / 2)) none = ⟨0, 64⟩ := by
    norm_num [resolveFleetDials, positive]
    rfl
  have hfleet := h (some (1 / 2)) none
  rw [hdials] at hfleet
  have hlimits := (hfleet _ .start).limits 0 (by decide)
  exact absurd hlimits (by decide)

end IngestLane

end Keeper
