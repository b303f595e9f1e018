import Keeper.Coordination.LeasedSemaphore

/-!
# The gate of an account

`enterAccountGate` and `leaveAccountGate` of `core/utils/redis-rate-limiter.ts`: in one process at most
three callers of an account go on to its semaphore, and the others wait in a list. A caller that
leaves hands its place to the first waiter that has not been aborted, without touching the count.

* `GateInv.step`, `GateInv.run`: the count is that of the callers that are in, and nobody waits below
  the limit.
* `outlookLimiter_isBounded`: the gates of all accounts, and the leases of an account.
-/

namespace Keeper

namespace AccountGate

/-! ## The gates -/

def outlookAccountConcurrency : ℕ := 3

/-- An `AccountGateWaiter`, by the call of `enterAccountGate` whose promise it resolves. -/
structure AccountGateWaiter where
  call : ℕ
  settled : Bool := false

/-- An `AccountGate`. -/
structure Gate where
  active : ℤ
  waiters : List AccountGateWaiter

/-- An account: its entry of `outlookAccountGates`, the calls that are in, those that were rejected, and
the number of the next call. -/
structure Account where
  gate : Option Gate
  admitted : List ℕ
  rejected : List ℕ
  nextCall : ℕ

/-- Nobody has entered. -/
def Account.initial : Account := ⟨none, [], [], 0⟩

namespace Account

variable (account : Account)

def resolveAccountGate : Gate := account.gate.getD ⟨0, []⟩

/-- `enterAccountGate`, by a caller whose signal is aborted already or not. -/
def enterAccountGate (aborted : Bool) : Account :=
  let gate := account.resolveAccountGate
  let call := account.nextCall
  if gate.active < outlookAccountConcurrency then
    { account with
      gate := some { gate with active := gate.active + 1 }
      admitted := call :: account.admitted
      nextCall := call + 1 }
  else if aborted then
    { account with gate := some gate, rejected := call :: account.rejected, nextCall := call + 1 }
  else
    { account with
      gate := some { gate with waiters := gate.waiters ++ [{ call := call }] }
      nextCall := call + 1 }

/-- The waiters when the signal of one of them is aborted. -/
def settle (waiters : List AccountGateWaiter) (call : ℕ) : List AccountGateWaiter :=
  waiters.map fun waiter => if waiter.call = call then { waiter with settled := true } else waiter

/-- The signal of a waiter is aborted: nothing happens when it has been settled. -/
def abort (call : ℕ) : Account :=
  match account.gate with
  | none => account
  | some gate =>
    if gate.waiters.any fun waiter => waiter.call == call && !waiter.settled then
      { account with
        gate := some { gate with waiters := settle gate.waiters call }
        rejected := call :: account.rejected }
    else account

/-- `leaveAccountGate`, by a call that is in: settled waiters are dropped until one is left to resolve. -/
def leaveAccountGate (call : ℕ) : Account :=
  let gate := account.resolveAccountGate
  match gate.waiters.dropWhile (·.settled) with
  | waiter :: rest =>
    { account with
      gate := some { gate with waiters := rest }
      admitted := waiter.call :: account.admitted.erase call }
  | [] =>
    { account with
      gate := if gate.active - 1 ≤ 0 then none else some ⟨gate.active - 1, []⟩
      admitted := account.admitted.erase call }

end Account

/-- What happens at a gate. -/
inductive Action
  | enter (aborted : Bool)
  | abort (call : ℕ)
  | leave (call : ℕ)

/-- One step: only a call that is in leaves. -/
def Account.step (account : Account) : Action → Account
  | .enter aborted => account.enterAccountGate aborted
  | .abort call => account.abort call
  | .leave call => if call ∈ account.admitted then account.leaveAccountGate call else account

abbrev Process := String → Account

def Process.run (process : Process) (actions : List (String × Action)) : Process :=
  actions.foldl (fun p action => Function.update p action.1 ((p action.1).step action.2)) process

/-! ## The invariant -/

/-- The calls that wait. -/
def Account.parked (account : Account) : List ℕ :=
  (account.resolveAccountGate.waiters.filter (!·.settled)).map (·.call)

/-- The calls that are in, that wait, and that were rejected. -/
def Account.calls (account : Account) : List ℕ :=
  account.admitted ++ (account.parked ++ account.rejected)

/-- **The bound**: the count is that of the calls that are in, it is three at most, no call that was
rejected is in, and below three nobody waits. -/
structure IsBounded (account : Account) : Prop where
  counted : account.resolveAccountGate.active = account.admitted.length
  distinct : account.admitted.Nodup
  limited : account.resolveAccountGate.active ≤ outlookAccountConcurrency
  rejected : ∀ call ∈ account.rejected, call ∉ account.admitted
  parked : account.resolveAccountGate.active < outlookAccountConcurrency → account.parked = []

/-- The invariant of an account: the list is empty below the limit, and each call is drawn once. -/
structure GateInv (account : Account) : Prop where
  counted : account.resolveAccountGate.active = account.admitted.length
  limited : account.resolveAccountGate.active ≤ outlookAccountConcurrency
  idle : account.resolveAccountGate.active < outlookAccountConcurrency →
    account.resolveAccountGate.waiters = []
  calls : account.calls.Nodup
  drawn : ∀ call ∈ account.calls, call < account.nextCall

variable {account : Account}

theorem GateInv.initial : GateInv Account.initial :=
  ⟨rfl, Int.ofNat_le.2 (Nat.zero_le 3), fun _ => rfl, List.nodup_nil, fun _ hc => by cases hc⟩

theorem GateInv.nodup_cons (h : GateInv account) : (account.nextCall :: account.calls).Nodup :=
  List.nodup_cons.2 ⟨fun hmem => Nat.lt_irrefl _ (h.drawn account.nextCall hmem), h.calls⟩

theorem GateInv.drawn_cons (h : GateInv account) :
    ∀ call ∈ account.nextCall :: account.calls, call < account.nextCall + 1 := by
  intro call hcall
  rcases List.mem_cons.1 hcall with rfl | hcall
  · exact Nat.lt_succ_self _
  · exact Nat.lt_succ_of_lt (h.drawn call hcall)

/-- **A caller enters.** -/
theorem GateInv.enter (h : GateInv account) (aborted : Bool) :
    GateInv (account.enterAccountGate aborted) := by
  have hcounted := h.counted
  have hlimited := h.limited
  have hnodup := h.nodup_cons
  have hdrawn := h.drawn_cons
  unfold Account.enterAccountGate
  dsimp only
  split_ifs with hroom haborted
  · refine ⟨?_, ?_, fun _ => h.idle hroom, hnodup, hdrawn⟩
    · show account.resolveAccountGate.active + 1 = ((account.admitted.length + 1 : ℕ) : ℤ)
      omega
    · show account.resolveAccountGate.active + 1 ≤ (outlookAccountConcurrency : ℤ)
      omega
  · have hperm : (account.admitted ++ (account.parked ++ account.nextCall :: account.rejected)).Perm
        (account.nextCall :: account.calls) :=
      (List.perm_middle.append_left _).trans List.perm_middle
    exact ⟨hcounted, hlimited, h.idle, hperm.nodup_iff.2 hnodup,
      fun call hcall => hdrawn call (hperm.mem_iff.1 hcall)⟩
  · have hparked : ((account.resolveAccountGate.waiters ++
        [{ call := account.nextCall : AccountGateWaiter }]).filter (!·.settled)).map (·.call) =
          account.parked ++ [account.nextCall] := by
      rw [List.filter_append, List.map_append]
      rfl
    have hperm : (account.admitted ++ (account.parked ++ [account.nextCall] ++ account.rejected)).Perm
        (account.nextCall :: account.calls) := by
      rw [List.append_assoc]
      exact (List.perm_middle.append_left _).trans List.perm_middle
    rw [← hparked] at hperm
    exact ⟨hcounted, hlimited, fun hidle => absurd hidle hroom, hperm.nodup_iff.2 hnodup,
      fun call hcall => hdrawn call (hperm.mem_iff.1 hcall)⟩

theorem parked_settle (waiters : List AccountGateWaiter) (call : ℕ) :
    ((Account.settle waiters call).filter (!·.settled)).map (·.call) =
      ((waiters.filter (!·.settled)).map (·.call)).filter (· != call) := by
  induction waiters with
  | nil => rfl
  | cons waiter rest ih =>
    unfold Account.settle at ih ⊢
    rw [List.map_cons]
    by_cases hcall : waiter.call = call
    · rw [if_pos hcall, List.filter_cons_of_neg (by simp)]
      by_cases hsettled : waiter.settled
      · rw [List.filter_cons_of_neg (by simp [hsettled])]
        exact ih
      · rw [List.filter_cons_of_pos (by simp [hsettled]), List.map_cons,
          List.filter_cons_of_neg (by simp [hcall])]
        exact ih
    · rw [if_neg hcall]
      by_cases hsettled : waiter.settled
      · rw [List.filter_cons_of_neg (by simp [hsettled]),
          List.filter_cons_of_neg (by simp [hsettled])]
        exact ih
      · rw [List.filter_cons_of_pos (by simp [hsettled]),
          List.filter_cons_of_pos (by simp [hsettled]), List.map_cons, List.map_cons,
          List.filter_cons_of_pos (by simp [hcall]), ih]

/-- **A waiter is aborted**: its call waits no longer. -/
theorem GateInv.abort (h : GateInv account) (call : ℕ) : GateInv (account.abort call) := by
  unfold Account.abort
  cases hgate : account.gate with
  | none => exact h
  | some gate =>
    have hresolve : account.resolveAccountGate = gate := by
      unfold Account.resolveAccountGate
      rw [hgate]
      rfl
    dsimp only
    split_ifs with hany
    · have hmem : call ∈ account.parked := by
        obtain ⟨waiter, hwaiter, hcall⟩ := List.any_eq_true.1 hany
        rw [Bool.and_eq_true, beq_iff_eq] at hcall
        unfold Account.parked
        rw [hresolve]
        exact List.mem_map.2 ⟨waiter, List.mem_filter.2 ⟨hwaiter, hcall.2⟩, hcall.1⟩
      have hparked : ((Account.settle gate.waiters call).filter (!·.settled)).map (·.call) =
          account.parked.erase call := by
        have hnodup : account.parked.Nodup :=
          (List.nodup_append.1 (List.nodup_append.1 h.calls).2.1).1
        rw [parked_settle, hnodup.erase_eq_filter, Account.parked, hresolve]
      have hperm : (account.admitted ++ (account.parked.erase call ++ call :: account.rejected)).Perm
          account.calls :=
        ((List.perm_middle.trans
          ((List.perm_cons_erase hmem).symm.append_right account.rejected)).append_left _)
      rw [← hparked] at hperm
      refine ⟨?_, ?_, fun hidle => ?_, hperm.nodup_iff.2 h.calls,
        fun c hc => h.drawn c (hperm.mem_iff.1 hc)⟩
      · show gate.active = _
        rw [← hresolve]
        exact h.counted
      · show gate.active ≤ _
        rw [← hresolve]
        exact h.limited
      · have hnil := h.idle (by rw [hresolve]; exact hidle)
        rw [hresolve] at hnil
        show Account.settle gate.waiters call = []
        rw [hnil]
        rfl
    · exact h

/-- The calls that wait are those behind the settled waiters in front. -/
theorem filter_dropWhile (waiters : List AccountGateWaiter) :
    (waiters.dropWhile (·.settled)).filter (!·.settled) = waiters.filter (!·.settled) := by
  induction waiters with
  | nil => rfl
  | cons waiter rest ih =>
    by_cases hsettled : waiter.settled
    · rw [List.dropWhile_cons_of_pos hsettled, List.filter_cons_of_neg (by simp [hsettled]), ih]
    · rw [List.dropWhile_cons_of_neg hsettled]

/-- **A caller leaves**: its place goes to the first waiter, if there is one. -/
theorem GateInv.leave (h : GateInv account) {call : ℕ} (hmem : call ∈ account.admitted) :
    GateInv (account.leaveAccountGate call) := by
  have hcounted := h.counted
  have hlimited := h.limited
  have hlength : account.admitted.length = (account.admitted.erase call).length + 1 :=
    (List.perm_cons_erase hmem).length_eq
  have hparked : ((account.resolveAccountGate.waiters.dropWhile (·.settled)).filter
      (!·.settled)).map (·.call) = account.parked := by
    rw [filter_dropWhile]
    rfl
  have hperm : (call :: (account.admitted.erase call ++ (account.parked ++ account.rejected))).Perm
      account.calls :=
    (List.perm_cons_erase hmem).symm.append_right _
  have hnodup := (List.nodup_cons.1 (hperm.nodup_iff.2 h.calls)).2
  have hdrawn : ∀ c ∈ account.admitted.erase call ++ (account.parked ++ account.rejected),
      c < account.nextCall :=
    fun c hc => h.drawn c (hperm.mem_iff.1 (List.mem_cons_of_mem _ hc))
  unfold Account.leaveAccountGate
  dsimp only
  cases hdrop : account.resolveAccountGate.waiters.dropWhile (·.settled) with
  | cons waiter rest =>
    have hlive : waiter.settled = false := by
      have hhead := List.head?_dropWhile_not AccountGateWaiter.settled
        account.resolveAccountGate.waiters
      rw [hdrop] at hhead
      exact hhead
    have hcons : account.parked = waiter.call :: (rest.filter (!·.settled)).map (·.call) := by
      rw [← hparked, hdrop, List.filter_cons_of_pos (by simp [hlive]), List.map_cons]
    have hmove : (waiter.call :: account.admitted.erase call ++
        ((rest.filter (!·.settled)).map (·.call) ++ account.rejected)).Perm
          (account.admitted.erase call ++ (account.parked ++ account.rejected)) := by
      rw [hcons]
      exact List.perm_middle.symm
    refine ⟨?_, hlimited, fun hidle => ?_, hmove.nodup_iff.2 hnodup,
      fun c hc => hdrawn c (hmove.mem_iff.1 hc)⟩
    · show account.resolveAccountGate.active = (((account.admitted.erase call).length + 1 : ℕ) : ℤ)
      omega
    · rw [h.idle hidle] at hdrop
      cases hdrop
  | nil =>
    have hnone : account.parked = [] := by
      rw [← hparked, hdrop]
      rfl
    rw [hnone] at hnodup hdrawn
    by_cases hlast : account.resolveAccountGate.active - 1 ≤ 0
    · dsimp only
      rw [if_pos hlast]
      refine ⟨?_, Int.ofNat_le.2 (Nat.zero_le 3), fun _ => rfl, hnodup, hdrawn⟩
      show (0 : ℤ) = ((account.admitted.erase call).length : ℤ)
      omega
    · dsimp only
      rw [if_neg hlast]
      refine ⟨?_, ?_, fun _ => rfl, hnodup, hdrawn⟩
      · show account.resolveAccountGate.active - 1 = ((account.admitted.erase call).length : ℤ)
        omega
      · show account.resolveAccountGate.active - 1 ≤ (outlookAccountConcurrency : ℤ)
        omega

/-- **A step keeps the invariant.** -/
theorem GateInv.step (h : GateInv account) (action : Action) : GateInv (account.step action) := by
  cases action with
  | enter aborted => exact h.enter aborted
  | abort call => exact h.abort call
  | leave call =>
    unfold Account.step
    dsimp only
    split_ifs with hmem
    · exact h.leave hmem
    · exact h

/-- **A run keeps the invariant** of every account. -/
theorem GateInv.run {process : Process} (h : ∀ id, GateInv (process id))
    (actions : List (String × Action)) (id : String) : GateInv (process.run actions id) := by
  induction actions generalizing process with
  | nil => exact h id
  | cons action actions ih =>
    refine ih fun other => ?_
    show GateInv (Function.update process action.1 ((process action.1).step action.2) other)
    by_cases hother : other = action.1
    · rw [hother, Function.update_self]
      exact (h action.1).step action.2
    · rw [Function.update_of_ne hother]
      exact h other

theorem GateInv.isBounded (h : GateInv account) : IsBounded account := by
  obtain ⟨hadmitted, hrest, hdisjoint⟩ := List.nodup_append.1 h.calls
  refine ⟨h.counted, hadmitted, h.limited, fun call hcall hmem => ?_, fun hroom => ?_⟩
  · exact hdisjoint call hmem call (List.mem_append_right _ hcall) rfl
  · unfold Account.parked
    rw [h.idle hroom]
    rfl

end AccountGate

/-! ## The limiter -/

open AccountGate LeasedSemaphore in
/-- **The concurrency of an Outlook account is bounded**: in every run of the semaphore the unexpired
leases that are not released are as many as its slots at most and no release deletes the key of
another, and in every run at the gates of a process the count of each account is that of the calls
that are in, and at most three. -/
theorem outlookLimiter_isBounded (config : Config) (clock : ℕ → ℤ) (now : ℤ)
    (requests : List LeasedSemaphore.Action) (calls : List (String × AccountGate.Action)) (id : String) :
    IsExclusive config ((System.initial now).run config clock requests) ∧
      IsBounded (Process.run (fun _ => Account.initial) calls id) :=
  ⟨isExclusive_run config clock now requests,
    (GateInv.run (fun _ => GateInv.initial) calls id).isBounded⟩

end Keeper
