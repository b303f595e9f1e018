import Keeper.Foundations.Redis
import Mathlib.Data.List.Nodup
import Mathlib.Data.List.Perm.Subperm
import Mathlib.Logic.Function.Basic
import Mathlib.Tactic.Cases

/-!
# The leased semaphore

`createLeasedSemaphore` of `core/utils/leased-semaphore.ts`: each slot of an account is a key of Redis
that is claimed with `SET NX PX` and given up with a bare `DEL`. Any number of acquirers, each in a
process with a clock of its own, run against the slots in any interleaving.

* `Inv.step`, `Inv.run`: an unexpired lease owns the key of its slot, and no two acquirers share a token.
* `isExclusive_run`: at most `capacity` leases are unexpired and unreleased, and a `DEL` deletes the key
  that its own lease claimed.
-/

namespace Keeper

open Redis

namespace LeasedSemaphore

/-! ## Acquirers -/

/-- `LeasedSemaphoreConfig`. -/
structure Config where
  capacity : ℕ
  ttlMs : ℤ

def releaseSafetyMs : ℤ := 1000

/-- A `SemaphoreLease`, by the number of its slot, and when Redis lets its key expire. -/
structure SemaphoreLease where
  slot : ℕ
  token : ℕ
  safeToDeleteUntil : ℤ
  expiresAt : ℤ
  deriving DecidableEq

/-- Where an acquirer is: before or between its tries, with a `SET` on the way, with its answer on the
way, with a lease, with a `DEL` on the way, with a `SET` on the way that it does not wait for, or
done. -/
inductive Phase
  | idle
  | sending (token slot : ℕ) (requestedAt : ℤ)
  | granted (lease : SemaphoreLease)
  | refused (token slot : ℕ)
  | holding (lease : SemaphoreLease)
  | deleting (lease : SemaphoreLease) (checkedAt : ℤ)
  | abandoned (token slot : ℕ)
  | over
  deriving DecidableEq

/-- The lease of an acquirer, from its grant by Redis until its key is deleted. -/
def Phase.lease : Phase → Option SemaphoreLease
  | .granted lease => some lease
  | .holding lease => some lease
  | .deleting lease _ => some lease
  | _ => none

/-- The token that an acquirer uses. -/
def Phase.token : Phase → Option ℕ
  | .sending token _ _ => some token
  | .granted lease => some lease.token
  | .refused token _ => some token
  | .holding lease => some lease.token
  | .deleting lease _ => some lease.token
  | .abandoned token _ => some token
  | _ => none

/-! ## Steps -/

/-- The clock of Redis, the keys of the slots, the acquirers, and the next token. -/
structure System where
  now : ℤ
  keys : ℕ → Key ℕ
  phase : ℕ → Phase
  nextToken : ℕ

/-- Nothing has been claimed. -/
def System.initial (now : ℤ) : System := ⟨now, fun _ => none, fun _ => .idle, 0⟩

/-- What happens next: time passes; an acquirer tries, or is aborted between its tries; Redis applies
its `SET`; its answer arrives, or is lost; it releases, and Redis applies its `DEL`. -/
inductive Action
  | elapse (milliseconds : ℕ)
  | tryAcquire (a : ℕ)
  | abort (a : ℕ)
  | applySet (a : ℕ)
  | receive (a : ℕ)
  | lose (a : ℕ)
  | release (a : ℕ)
  | applyDel (a : ℕ)

variable (config : Config) (clock : ℕ → ℤ)

namespace System

variable (s : System)

/-- `Date.now()` in the process of an acquirer, whose clock differs from that of Redis. -/
def dateNow (a : ℕ) : ℤ := s.now + clock a

/-- An acquirer goes on. -/
def goOn (a : ℕ) (phase : Phase) : System := { s with phase := Function.update s.phase a phase }

/-- The loop of `tryAcquire` at a slot: the time is taken before the `SET`. -/
def trySlot (a token slot : ℕ) : Phase :=
  if slot < config.capacity then .sending token slot (s.dateNow clock a) else .idle

/-- `SET slotKey token NX PX ttlMs`. -/
def setNx (token slot : ℕ) : System :=
  if (s.keys slot).isSome then s
  else { s with keys := Function.update s.keys slot (some ⟨token, some (s.now + config.ttlMs)⟩) }

/-- A `SET` is applied. -/
def applySet (a : ℕ) : System :=
  match s.phase a with
  | .sending token slot requestedAt =>
    if (s.keys slot).isSome then s.goOn a (.refused token slot)
    else (s.setNx config token slot).goOn a (.granted
      { slot := slot
        token := token
        safeToDeleteUntil := requestedAt + config.ttlMs - releaseSafetyMs
        expiresAt := s.now + config.ttlMs })
  | .abandoned token slot => (s.setNx config token slot).goOn a .over
  | _ => s

/-- An answer arrives: the lease is returned, or the next slot is tried. -/
def receive (a : ℕ) : System :=
  match s.phase a with
  | .granted lease => s.goOn a (.holding lease)
  | .refused token slot => s.goOn a (s.trySlot config clock a token (slot + 1))
  | _ => s

/-- A request fails: its `SET` may still be applied, or has been applied already. -/
def lose (a : ℕ) : System :=
  match s.phase a with
  | .sending token slot _ => s.goOn a (.abandoned token slot)
  | .granted _ => s.goOn a .over
  | .refused _ _ => s.goOn a .over
  | .deleting _ _ => s.goOn a .over
  | _ => s

def release (a : ℕ) : System :=
  match s.phase a with
  | .holding lease =>
    if lease.safeToDeleteUntil ≤ s.dateNow clock a then s.goOn a .over
    else s.goOn a (.deleting lease s.now)
  | _ => s

/-- The `DEL` of an acquirer can be applied: within a second of the check before it. -/
def Deletes (a : ℕ) (lease : SemaphoreLease) : Prop :=
  ∃ checkedAt, s.phase a = .deleting lease checkedAt ∧ s.now ≤ checkedAt + releaseSafetyMs

/-- A `DEL` is applied. -/
def applyDel (a : ℕ) : System :=
  match s.phase a with
  | .deleting lease checkedAt =>
    if s.now ≤ checkedAt + releaseSafetyMs then
      { s with keys := Function.update s.keys lease.slot none }.goOn a .over
    else s
  | _ => s

def step : Action → System
  | .elapse milliseconds =>
    { s with
      now := s.now + milliseconds
      keys := fun slot => (s.keys slot).elapse (s.now + milliseconds) }
  | .tryAcquire a =>
    if s.phase a = .idle then
      { s with nextToken := s.nextToken + 1 }.goOn a (s.trySlot config clock a s.nextToken 0)
    else s
  | .abort a => if s.phase a = .idle then s.goOn a .over else s
  | .applySet a => s.applySet config a
  | .receive a => s.receive config clock a
  | .lose a => s.lose a
  | .release a => s.release clock a
  | .applyDel a => s.applyDel a

def run (actions : List Action) : System := actions.foldl (step config clock) s

/-- An acquirer has an unexpired lease that it has not released. -/
def HasLease (a : ℕ) : Prop := ∃ lease, (s.phase a).lease = some lease ∧ s.now < lease.expiresAt

end System

/-! ## The invariant -/

/-- A lease of an acquirer: it owns the key of its slot until it expires, and it is safe to delete
until a second before. -/
structure IsLease (s : System) (a : ℕ) (lease : SemaphoreLease) : Prop where
  slot : lease.slot < config.capacity
  owns : s.now < lease.expiresAt → s.keys lease.slot = some ⟨lease.token, some lease.expiresAt⟩
  safe : lease.safeToDeleteUntil + releaseSafetyMs ≤ lease.expiresAt + clock a

/-- Tokens are used by one acquirer each; leases are leases; a `SET` is on the way to a slot with its
time taken, and a `DEL` since its check. -/
structure Inv (s : System) : Prop where
  tokens : ∀ a token, (s.phase a).token = some token → token < s.nextToken
  alone : ∀ a b token, (s.phase a).token = some token → (s.phase b).token = some token → a = b
  leases : ∀ a lease, (s.phase a).lease = some lease → IsLease config clock s a lease
  sending : ∀ a token slot requestedAt, s.phase a = .sending token slot requestedAt →
    slot < config.capacity ∧ requestedAt ≤ s.dateNow clock a
  checked : ∀ a lease checkedAt, s.phase a = .deleting lease checkedAt →
    checkedAt + clock a < lease.safeToDeleteUntil

variable {config : Config} {clock : ℕ → ℤ} {s : System}

theorem token_of_lease {phase : Phase} {lease : SemaphoreLease} (h : phase.lease = some lease) :
    phase.token = some lease.token := by
  cases phase with
  | granted l => rw [← Option.some.inj h]; rfl
  | holding l => rw [← Option.some.inj h]; rfl
  | deleting l t => rw [← Option.some.inj h]; rfl
  | _ => cases h

theorem phase_goOn (s : System) (a : ℕ) (phase : Phase) : (s.goOn a phase).phase a = phase :=
  Function.update_self _ _ _

theorem phase_goOn_of_ne (s : System) {a b : ℕ} (h : b ≠ a) (phase : Phase) :
    (s.goOn a phase).phase b = s.phase b := Function.update_of_ne h _ _

/-- A token that an acquirer may use: it has been drawn, and nobody else uses it. -/
def System.MayUse (s : System) (a token : ℕ) : Prop :=
  token < s.nextToken ∧ ∀ b, b ≠ a → (s.phase b).token ≠ some token

theorem Inv.mayUse (h : Inv config clock s) {a token : ℕ} (ha : (s.phase a).token = some token) :
    s.MayUse a token :=
  ⟨h.tokens a token ha, fun b hne hb => hne (h.alone b a token hb ha)⟩

/-- **An acquirer goes on**, with a token that it may use and what is due for its new phase. -/
theorem Inv.goOn (h : Inv config clock s) {a : ℕ} {phase : Phase}
    (htoken : ∀ token, phase.token = some token → s.MayUse a token)
    (hlease : ∀ lease, phase.lease = some lease → IsLease config clock s a lease)
    (hsending : ∀ token slot requestedAt, phase = .sending token slot requestedAt →
      slot < config.capacity ∧ requestedAt ≤ s.dateNow clock a)
    (hchecked : ∀ lease checkedAt, phase = .deleting lease checkedAt →
      checkedAt + clock a < lease.safeToDeleteUntil) :
    Inv config clock (s.goOn a phase) := by
  constructor
  · intro b token hb
    by_cases hne : b = a
    · rw [hne, phase_goOn] at hb
      exact (htoken token hb).1
    · rw [phase_goOn_of_ne s hne] at hb
      exact h.tokens b token hb
  · intro b c token hb hc
    by_cases hneb : b = a
    · by_cases hnec : c = a
      · rw [hneb, hnec]
      · rw [hneb, phase_goOn] at hb
        rw [phase_goOn_of_ne s hnec] at hc
        exact absurd hc ((htoken token hb).2 c hnec)
    · rw [phase_goOn_of_ne s hneb] at hb
      by_cases hnec : c = a
      · rw [hnec, phase_goOn] at hc
        exact absurd hb ((htoken token hc).2 b hneb)
      · rw [phase_goOn_of_ne s hnec] at hc
        exact h.alone b c token hb hc
  · intro b lease hb
    have hold : IsLease config clock s b lease := by
      by_cases hne : b = a
      · rw [hne, phase_goOn] at hb
        rw [hne]
        exact hlease lease hb
      · rw [phase_goOn_of_ne s hne] at hb
        exact h.leases b lease hb
    exact ⟨hold.slot, hold.owns, hold.safe⟩
  · intro b token slot requestedAt hb
    by_cases hne : b = a
    · rw [hne, phase_goOn] at hb
      rw [hne]
      exact hsending token slot requestedAt hb
    · rw [phase_goOn_of_ne s hne] at hb
      exact h.sending b token slot requestedAt hb
  · intro b lease checkedAt hb
    by_cases hne : b = a
    · rw [hne, phase_goOn] at hb
      rw [hne]
      exact hchecked lease checkedAt hb
    · rw [phase_goOn_of_ne s hne] at hb
      exact h.checked b lease checkedAt hb

theorem Inv.over (h : Inv config clock s) (a : ℕ) : Inv config clock (s.goOn a .over) :=
  h.goOn (fun _ hnone => (by cases hnone)) (fun _ hnone => (by cases hnone))
    (fun _ _ _ heq => (by cases heq)) fun _ _ heq => (by cases heq)

theorem Inv.elapse (h : Inv config clock s) (milliseconds : ℕ) :
    Inv config clock (s.step config clock (.elapse milliseconds)) := by
  refine ⟨h.tokens, h.alone, fun a lease ha => ?_, fun a token slot requestedAt ha => ?_, h.checked⟩
  · have hlease := h.leases a lease ha
    refine ⟨hlease.slot, fun hlater => ?_, hlease.safe⟩
    have hnow : s.now + milliseconds < lease.expiresAt := hlater
    have hkey := hlease.owns (by omega)
    show (s.keys lease.slot).elapse (s.now + milliseconds) = _
    rw [hkey, Key.elapse, Option.filter_some, if_pos]
    rw [Option.all_some, decide_eq_true_eq]
    exact hnow
  · obtain ⟨hslot, hrequested⟩ := h.sending a token slot requestedAt ha
    refine ⟨hslot, ?_⟩
    unfold System.dateNow System.step at *
    dsimp only
    omega

theorem Inv.setNx (h : Inv config clock s) (token slot : ℕ) :
    Inv config clock (s.setNx config token slot) := by
  unfold System.setNx
  split_ifs with hkey
  · exact h
  · refine ⟨h.tokens, h.alone, fun a lease ha => ?_, h.sending, h.checked⟩
    have hlease := h.leases a lease ha
    refine ⟨hlease.slot, fun hlater => ?_, hlease.safe⟩
    have howns := hlease.owns hlater
    have hne : lease.slot ≠ slot := by
      rintro rfl
      rw [howns] at hkey
      exact hkey rfl
    show Function.update s.keys slot _ lease.slot = _
    rw [Function.update_of_ne hne]
    exact howns

theorem Inv.delete (h : Inv config clock s) {slot : ℕ}
    (hfree : ∀ a lease, (s.phase a).lease = some lease → s.now < lease.expiresAt →
      lease.slot ≠ slot) :
    Inv config clock { s with keys := Function.update s.keys slot none } := by
  refine ⟨h.tokens, h.alone, fun a lease ha => ?_, h.sending, h.checked⟩
  have hlease := h.leases a lease ha
  refine ⟨hlease.slot, fun hlater => ?_, hlease.safe⟩
  show Function.update s.keys slot none lease.slot = _
  rw [Function.update_of_ne (hfree a lease ha hlater)]
  exact hlease.owns hlater

/-! ## Steps keep the invariant -/

theorem Inv.trySlot (h : Inv config clock s) {a token : ℕ} (hmay : s.MayUse a token) (slot : ℕ) :
    Inv config clock (s.goOn a (s.trySlot config clock a token slot)) := by
  unfold System.trySlot
  split_ifs with hslot
  · refine h.goOn (fun t ht => ?_) (fun _ hnone => (by cases hnone)) (fun t r q heq => ?_)
      fun _ _ heq => (by cases heq)
    · rw [← Option.some.inj ht]
      exact hmay
    · obtain ⟨-, rfl, rfl⟩ := Phase.sending.inj heq
      exact ⟨hslot, Int.le_refl _⟩
  · exact h.goOn (fun _ hnone => (by cases hnone)) (fun _ hnone => (by cases hnone))
      (fun _ _ _ heq => (by cases heq)) fun _ _ heq => (by cases heq)

theorem Inv.tryAcquire (h : Inv config clock s) (a : ℕ) :
    Inv config clock (s.step config clock (.tryAcquire a)) := by
  unfold System.step
  dsimp only
  split_ifs with hidle
  · have hdrawn : Inv config clock { s with nextToken := s.nextToken + 1 } :=
      ⟨fun b token hb => Nat.lt_succ_of_lt (h.tokens b token hb), h.alone,
        fun b lease hb =>
          have hlease := h.leases b lease hb
          ⟨hlease.slot, hlease.owns, hlease.safe⟩,
        h.sending, h.checked⟩
    have hmay : System.MayUse { s with nextToken := s.nextToken + 1 } a s.nextToken :=
      ⟨Nat.lt_succ_self _, fun b _ hb => Nat.lt_irrefl _ (h.tokens b s.nextToken hb)⟩
    exact hdrawn.trySlot hmay 0
  · exact h

/-- A `SET` that claims its slot grants a lease of it. -/
theorem Inv.applySet (h : Inv config clock s) (a : ℕ) :
    Inv config clock (s.step config clock (.applySet a)) := by
  show Inv config clock (s.applySet config a)
  unfold System.applySet
  cases hphase : s.phase a with
  | sending token slot requestedAt =>
    obtain ⟨hslot, hrequested⟩ := h.sending a token slot requestedAt hphase
    have hmay : s.MayUse a token := h.mayUse (by rw [hphase]; rfl)
    dsimp only
    by_cases hkey : (s.keys slot).isSome
    · rw [if_pos hkey]
      refine h.goOn (fun t ht => ?_) (fun _ hnone => (by cases hnone))
        (fun _ _ _ heq => (by cases heq)) fun _ _ heq => (by cases heq)
      rw [← Option.some.inj ht]
      exact hmay
    · rw [if_neg hkey]
      have hset : s.setNx config token slot =
          { s with keys := Function.update s.keys slot (some ⟨token, some (s.now + config.ttlMs)⟩) } :=
        if_neg hkey
      have hclaimed := h.setNx token slot
      rw [hset] at hclaimed ⊢
      refine hclaimed.goOn (fun t ht => ?_) (fun lease hlease => ?_)
        (fun _ _ _ heq => (by cases heq)) fun _ _ heq => (by cases heq)
      · rw [← Option.some.inj ht]
        exact hmay
      · rw [← Option.some.inj hlease]
        refine ⟨hslot, fun _ => Function.update_self _ _ _, ?_⟩
        unfold System.dateNow at hrequested
        dsimp only
        omega
  | abandoned token slot => exact (h.setNx token slot).over a
  | _ => exact h

theorem Inv.receive (h : Inv config clock s) (a : ℕ) :
    Inv config clock (s.step config clock (.receive a)) := by
  show Inv config clock (s.receive config clock a)
  unfold System.receive
  cases hphase : s.phase a with
  | granted lease =>
    refine h.goOn (fun token htoken => ?_) (fun l hl => ?_)
      (fun _ _ _ heq => (by cases heq)) fun _ _ heq => (by cases heq)
    · exact h.mayUse (by rw [hphase]; exact htoken)
    · exact h.leases a l (by rw [hphase]; exact hl)
  | refused token slot => exact h.trySlot (h.mayUse (by rw [hphase]; rfl)) (slot + 1)
  | _ => exact h

theorem Inv.lose (h : Inv config clock s) (a : ℕ) :
    Inv config clock (s.step config clock (.lose a)) := by
  show Inv config clock (s.lose a)
  unfold System.lose
  cases hphase : s.phase a with
  | sending token slot requestedAt =>
    refine h.goOn (fun t ht => ?_) (fun _ hnone => (by cases hnone))
      (fun _ _ _ heq => (by cases heq)) fun _ _ heq => (by cases heq)
    exact h.mayUse (by rw [hphase]; exact ht)
  | granted _ => exact h.over a
  | refused _ _ => exact h.over a
  | deleting _ _ => exact h.over a
  | _ => exact h

/-- A lease is released: its `DEL` is on the way when the check says so. -/
theorem Inv.release (h : Inv config clock s) (a : ℕ) :
    Inv config clock (s.step config clock (.release a)) := by
  show Inv config clock (s.release clock a)
  unfold System.release
  cases hphase : s.phase a with
  | holding lease =>
    dsimp only
    split_ifs with hlate
    · exact h.over a
    · refine h.goOn (fun token htoken => ?_) (fun l hl => ?_)
        (fun _ _ _ heq => (by cases heq)) fun l checkedAt heq => ?_
      · exact h.mayUse (by rw [hphase]; exact htoken)
      · exact h.leases a l (by rw [hphase]; exact hl)
      · obtain ⟨rfl, rfl⟩ := Phase.deleting.inj heq
        exact Int.not_le.1 hlate
  | _ => exact h

/-- A `DEL` within a second of its check finds the lease unexpired. -/
theorem Inv.unexpired (h : Inv config clock s) {a : ℕ} {lease : SemaphoreLease} {checkedAt : ℤ}
    (hphase : s.phase a = .deleting lease checkedAt) (hsoon : s.now ≤ checkedAt + releaseSafetyMs) :
    s.now < lease.expiresAt := by
  have hchecked := h.checked a lease checkedAt hphase
  have hsafe := (h.leases a lease (by rw [hphase]; rfl)).safe
  omega

theorem Inv.eq_of_slot (h : Inv config clock s) {a b : ℕ} {l r : SemaphoreLease}
    (ha : (s.phase a).lease = some l) (hb : (s.phase b).lease = some r)
    (hl : s.now < l.expiresAt) (hr : s.now < r.expiresAt) (hslot : l.slot = r.slot) : a = b := by
  have hkey := (h.leases a l ha).owns hl
  rw [hslot, (h.leases b r hb).owns hr] at hkey
  have htoken : r.token = l.token := congrArg Entry.value (Option.some.inj hkey)
  refine h.alone a b l.token (token_of_lease ha) ?_
  rw [← htoken]
  exact token_of_lease hb

/-- A `DEL` deletes the key of a lease that is over. -/
theorem Inv.applyDel (h : Inv config clock s) (a : ℕ) :
    Inv config clock (s.step config clock (.applyDel a)) := by
  show Inv config clock (s.applyDel a)
  unfold System.applyDel
  cases hphase : s.phase a with
  | deleting lease checkedAt =>
    dsimp only
    split_ifs with hsoon
    · refine (h.over a).delete fun b l hb hlater hslot => ?_
      by_cases hne : b = a
      · rw [hne, phase_goOn] at hb
        cases hb
      · rw [phase_goOn_of_ne s hne] at hb
        exact hne (h.eq_of_slot hb (by rw [hphase]; rfl) hlater (h.unexpired hphase hsoon) hslot)
    · exact h
  | _ => exact h

/-- **A step keeps the invariant.** -/
theorem Inv.step (h : Inv config clock s) (action : Action) :
    Inv config clock (s.step config clock action) := by
  cases action with
  | elapse milliseconds => exact h.elapse milliseconds
  | tryAcquire a => exact h.tryAcquire a
  | abort a =>
    unfold System.step
    dsimp only
    split_ifs
    · exact h.over a
    · exact h
  | applySet a => exact h.applySet a
  | receive a => exact h.receive a
  | lose a => exact h.lose a
  | release a => exact h.release a
  | applyDel a => exact h.applyDel a

/-- **A run keeps the invariant.** -/
theorem Inv.run (h : Inv config clock s) (actions : List Action) :
    Inv config clock (s.run config clock actions) := by
  induction actions generalizing s with
  | nil => exact h
  | cons action actions ih => exact ih (h.step action)

theorem Inv.initial (now : ℤ) : Inv config clock (System.initial now) :=
  ⟨fun _ _ hnone => (by cases hnone), fun _ _ _ hnone => (by cases hnone),
    fun _ _ hnone => (by cases hnone), fun _ _ _ _ heq => (by cases heq),
    fun _ _ _ heq => (by cases heq)⟩

/-! ## Exclusion -/

/-- At most `capacity` leases are unexpired and unreleased, and a `DEL` that is applied finds the key
that its own lease claimed. -/
structure IsExclusive (config : Config) (s : System) : Prop where
  bounded : ∀ holders : List ℕ, holders.Nodup → (∀ a ∈ holders, s.HasLease a) →
    holders.length ≤ config.capacity
  deletesOwn : ∀ a lease, s.Deletes a lease →
    s.keys lease.slot = some ⟨lease.token, some lease.expiresAt⟩

def System.slotOf (s : System) (a : ℕ) : ℕ := ((s.phase a).lease.map (·.slot)).getD 0

/-- **Unexpired leases are as many as their slots at most.** -/
theorem Inv.isExclusive (h : Inv config clock s) : IsExclusive config s := by
  constructor
  · intro holders hnodup hholders
    have hslots : (holders.map s.slotOf).Nodup := by
      refine hnodup.map_on fun a ha b hb hslot => ?_
      obtain ⟨l, hl, hlater⟩ := hholders a ha
      obtain ⟨r, hr, hrlater⟩ := hholders b hb
      unfold System.slotOf at hslot
      rw [hl, hr] at hslot
      exact h.eq_of_slot hl hr hlater hrlater hslot
    have hsubset : holders.map s.slotOf ⊆ List.range config.capacity := by
      intro slot hslot
      obtain ⟨a, ha, rfl⟩ := List.mem_map.1 hslot
      obtain ⟨l, hl, -⟩ := hholders a ha
      unfold System.slotOf
      rw [hl]
      exact List.mem_range.2 (h.leases a l hl).slot
    have hle := (hslots.subperm hsubset).length_le
    rwa [List.length_map, List.length_range] at hle
  · rintro a lease ⟨checkedAt, hphase, hsoon⟩
    exact (h.leases a lease (by rw [hphase]; rfl)).owns (h.unexpired hphase hsoon)

/-- **The semaphore is exclusive** in every state that a run reaches. -/
theorem isExclusive_run (config : Config) (clock : ℕ → ℤ) (now : ℤ) (actions : List Action) :
    IsExclusive config ((System.initial now).run config clock actions) :=
  ((Inv.initial now).run actions).isExclusive

end LeasedSemaphore

end Keeper
