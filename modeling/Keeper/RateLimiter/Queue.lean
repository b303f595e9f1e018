import Keeper.RateLimiter.Scripts

/-!
# The queue of the rate limiter

A waiter is dropped for its silence while it blocks someone: a mark is set when it blocks a caller, and
cleared when it polls as the head. A mark outlives a waiter that is no longer the head.

* `isFair_of_reaches`: a waiter that polls is kept, and granted in its turn, where no waiter joins before
  the head of the queue.
* `not_isFair`: it does with the clock value of the head and a smaller token.
-/

namespace Keeper

open Redis

/-! ## Waiters of a log -/

def LimiterEvent.poll? (token : String) (event : LimiterEvent) : Option ℤ :=
  match event.call with
  | .acquire input => if input.token = token then some input.now else none
  | _ => none

def polledAt (token : String) : List LimiterEvent → Option ℤ
  | [] => none
  | event :: log => (event.poll? token).or (polledAt token log)

def joinedAt (token : String) : List LimiterEvent → Option ℤ
  | [] => none
  | event :: log => (joinedAt token log).or (event.poll? token)

/-- A run removes a token from the queue at its own wish. -/
def LimiterEvent.leaves (token : String) (event : LimiterEvent) : Bool :=
  match event.call with
  | .leave other => other = token
  | _ => false

/-- A request does not come later than a token may be silent. -/
def isInGrace (token : String) (log : List LimiterEvent) (input : AcquireInput) : Bool :=
  (polledAt token log).all fun polled => input.now - polled < queueHeadGraceMs

/-- A token polls in every span of less than the grace. -/
def keepsPolling (token : String) : List LimiterEvent → Bool
  | [] => true
  | event :: log => event.call.request?.all (isInGrace token log) && keepsPolling token log

/-- A token has joined the queue, keeps polling, and neither has left nor was granted. -/
structure Waits (token : String) (log : List LimiterEvent) : Prop where
  hasToken : token ≠ ""
  hasJoined : (joinedAt token log).isSome
  stays : ∀ event ∈ log, event.leaves token = false
  refused : ∀ event ∈ log, (event.poll? token).isSome → event.granted = false
  polls : keepsPolling token log = true

namespace LimiterSystem

def grants (s : LimiterSystem) (input : AcquireInput) : Bool :=
  isGranted (acquireScript input (s.keys.elapse input.now)).1

structure IsFair (s : LimiterSystem) : Prop where
  /-- A waiter is in the queue, with the clock value at which it joined. -/
  queued : ∀ token, Waits token s.log → ∃ joined, joinedAt token s.log = some joined ∧
    ⟨token, joined⟩ ∈ s.keys.queue.sorted.entries
  /-- A waiter is not granted before one that joined earlier. -/
  inOrder : ∀ input token joined joined', Waits token s.log → Waits input.token s.log →
    joinedAt token s.log = some joined → joinedAt input.token s.log = some joined' →
      joined < joined' → s.IsTimely (.acquire input) → isInGrace token s.log input = true →
        s.grants input = false
  /-- No caller without a token is granted before a waiter. -/
  notOvertaken : ∀ input token, Waits token s.log → input.token = "" →
    s.IsTimely (.acquire input) → isInGrace token s.log input = true → s.grants input = false

/-- A run with a token that is not in the queue does not come before the head of the queue. -/
def KeepsHead (s : LimiterSystem) : LimiterCall → Prop
  | .acquire input => (s.keys.elapse input.now).queue.sorted.score? input.token = none →
      ∀ head, (s.keys.elapse input.now).queue.sorted.first = some head →
        ¬ Scored.Before ⟨input.token, input.now⟩ head
  | _ => True

end LimiterSystem

/-! ## A turn in the queue -/

/-- What the keys hold of a waiter: it is in the queue, and if it is marked, then since its latest poll
and as the head. -/
structure HasTurn (token : String) (joined polled : ℤ) (keys : LimiterKeys) : Prop where
  queued : ⟨token, joined⟩ ∈ keys.queue.sorted.entries
  lasts : keys.queue.LastsUntil (polled + queueEntryTtlMs)
  marked : ∀ since, ⟨token, since⟩ ∈ keys.blocked.sorted.entries →
    polled ≤ since ∧ keys.queue.sorted.first.map (·.member) = some token

section Turn

variable {token other : String} {joined polled now : ℤ} {keys : LimiterKeys} {input : AcquireInput}

/-- **The head** that a run finds, and the keys that it leaves. -/
theorem headAfterReaping_cases (now : ℤ) (other : String) (keys : LimiterKeys) :
    (keys.queue.sorted.first.map (·.member) = none ∧ headAfterReaping now other keys = (none, keys)) ∨
    ∃ head, keys.queue.sorted.first = some head ∧
      (head.member = other ∧ headAfterReaping now other keys = (some other, keys) ∨
      head.member ≠ other ∧ keys.blocked.sorted.score? head.member = none ∧
        headAfterReaping now other keys = (some head.member, { keys with
          blocked := (keys.blocked.update (·.add now head.member)).pexpire now queueEntryTtlMs }) ∨
      head.member ≠ other ∧ (∃ since, keys.blocked.sorted.score? head.member = some since ∧
        now - since < queueHeadGraceMs) ∧
        headAfterReaping now other keys = (some head.member, keys) ∨
      head.member ≠ other ∧ (∃ since, keys.blocked.sorted.score? head.member = some since ∧
        queueHeadGraceMs ≤ now - since) ∧
        headAfterReaping now other keys =
          ((keys.queue.update (·.remove head.member)).sorted.first.map (·.member), { keys with
            queue := keys.queue.update (·.remove head.member)
            blocked := keys.blocked.update (·.remove head.member) })) := by
  cases hfirst : keys.queue.sorted.first with
  | none =>
    refine Or.inl ⟨rfl, ?_⟩
    rw [headAfterReaping, hfirst]
  | some head =>
    refine Or.inr ⟨head, rfl, ?_⟩
    rw [headAfterReaping, hfirst]
    dsimp only
    by_cases hother : head.member = other
    · exact Or.inl ⟨hother, by rw [if_pos hother, hother]⟩
    rw [if_neg hother]
    refine Or.inr ?_
    cases hmark : keys.blocked.sorted.score? head.member with
    | none => exact Or.inl ⟨hother, rfl, rfl⟩
    | some since =>
      dsimp only
      by_cases hgrace : now - since ≥ queueHeadGraceMs
      · rw [if_pos hgrace]
        exact Or.inr (Or.inr ⟨hother, ⟨since, rfl, hgrace⟩, rfl⟩)
      · rw [if_neg hgrace]
        exact Or.inr (Or.inl ⟨hother, ⟨since, rfl, by omega⟩, rfl⟩)

/-- The head that a run finds is the first one of the queue that it leaves. -/
theorem headAfterReaping_fst : (headAfterReaping now other keys).1 =
    (headAfterReaping now other keys).2.queue.sorted.first.map (·.member) := by
  rcases headAfterReaping_cases now other keys with
    ⟨hnone, heq⟩ | ⟨head, hfirst, ⟨hmember, heq⟩ | ⟨-, -, heq⟩ | ⟨-, -, heq⟩ | ⟨-, -, heq⟩⟩
  · rw [heq]
    exact hnone.symm
  · rw [heq, hfirst, ← hmember]
    rfl
  · rw [heq, hfirst]
    rfl
  · rw [heq, hfirst]
    rfl
  · rw [heq]

variable {entry : Scored String}

theorem mem_queue_headAfterReaping (h : entry ∈ (headAfterReaping now other keys).2.queue.sorted.entries) :
    entry ∈ keys.queue.sorted.entries := by
  rcases headAfterReaping_cases now other keys with
    ⟨-, heq⟩ | ⟨head, -, ⟨-, heq⟩ | ⟨-, -, heq⟩ | ⟨-, -, heq⟩ | ⟨-, -, heq⟩⟩
  · rwa [heq] at h
  · rwa [heq] at h
  · rwa [heq] at h
  · rwa [heq] at h
  · rw [heq, Key.sorted_update, SortedSet.mem_remove] at h
    exact h.1

theorem mem_blocked_headAfterReaping (h : entry ∈ (headAfterReaping now other keys).2.blocked.sorted.entries) :
    entry ∈ keys.blocked.sorted.entries ∨ entry.score = now ∧ entry.member ≠ other ∧
      keys.queue.sorted.first.map (·.member) = some entry.member ∧
        (headAfterReaping now other keys).2.queue = keys.queue := by
  rcases headAfterReaping_cases now other keys with
    ⟨-, heq⟩ | ⟨head, hfirst, ⟨-, heq⟩ | ⟨hother, -, heq⟩ | ⟨-, -, heq⟩ | ⟨-, -, heq⟩⟩
  · rw [heq] at h
    exact Or.inl h
  · rw [heq] at h
    exact Or.inl h
  · rw [heq, Key.sorted_pexpire, Key.sorted_update, SortedSet.mem_add] at h
    rcases h with rfl | ⟨hmem, -⟩
    · rw [hfirst, heq]
      exact Or.inr ⟨rfl, hother, rfl, rfl⟩
    · exact Or.inl hmem
  · rw [heq] at h
    exact Or.inl h
  · rw [heq, Key.sorted_update, SortedSet.mem_remove] at h
    exact Or.inl h.1

/-- **A waiter that polls keeps its turn** in what a run drops and marks. -/
theorem HasTurn.headAfterReaping (h : HasTurn token joined polled keys) (other : String)
    (hpolled : polled ≤ now) (hgrace : now - polled < queueHeadGraceMs) :
    HasTurn token joined polled (headAfterReaping now other keys).2 ∧
      ((∃ since, ⟨token, since⟩ ∈ (headAfterReaping now other keys).2.blocked.sorted.entries) →
        (headAfterReaping now other keys).2.queue = keys.queue) := by
  have hkept (heq : (Keeper.headAfterReaping now other keys).2.queue = keys.queue) :
      HasTurn token joined polled (Keeper.headAfterReaping now other keys).2 := by
    refine ⟨?_, ?_, fun since hmark => ?_⟩
    · rw [heq]
      exact h.queued
    · rw [heq]
      exact h.lasts
    · rw [heq]
      rcases mem_blocked_headAfterReaping hmark with hmem | ⟨rfl, -, hhead, -⟩
      · exact h.marked since hmem
      · exact ⟨hpolled, hhead⟩
  rcases headAfterReaping_cases now other keys with
    ⟨-, heq⟩ | ⟨head, hfirst, ⟨-, heq⟩ | ⟨-, -, heq⟩ | ⟨-, -, heq⟩ | ⟨-, ⟨since, hscore, hsilent⟩, heq⟩⟩
  · exact ⟨hkept (by rw [heq]), fun _ => by rw [heq]⟩
  · exact ⟨hkept (by rw [heq]), fun _ => by rw [heq]⟩
  · exact ⟨hkept (by rw [heq]), fun _ => by rw [heq]⟩
  · exact ⟨hkept (by rw [heq]), fun _ => by rw [heq]⟩
  · -- the waiter is not the one that is dropped, since its mark is not older than its latest poll
    have hne : token ≠ head.member := by
      rintro rfl
      have hsince := (h.marked since (SortedSet.score?_eq_some.1 hscore)).1
      omega
    have hunmarked : ∀ since, ⟨token, since⟩ ∉ keys.blocked.sorted.entries := by
      intro since hmark
      have hhead := (h.marked since hmark).2
      rw [hfirst] at hhead
      exact hne (Option.some.inj hhead).symm
    have hno : ∀ since, ⟨token, since⟩ ∉
        (Keeper.headAfterReaping now other keys).2.blocked.sorted.entries := by
      intro since hmark
      rw [heq, Key.sorted_update, SortedSet.mem_remove] at hmark
      exact hunmarked since hmark.1
    refine ⟨⟨?_, ?_, fun since hmark => absurd hmark (hno since)⟩, fun ⟨since, hmark⟩ =>
      absurd hmark (hno since)⟩
    · rw [heq, Key.sorted_update, SortedSet.mem_remove]
      exact ⟨h.queued, hne⟩
    · rw [heq]
      exact h.lasts.update _

theorem HasTurn.of_queue {keys' : LimiterKeys} (h : HasTurn token joined polled keys)
    (hqueue : keys'.queue = keys.queue)
    (hblocked : ∀ entry ∈ keys'.blocked.sorted.entries, entry ∈ keys.blocked.sorted.entries) :
    HasTurn token joined polled keys' where
  queued := by
    rw [hqueue]
    exact h.queued
  lasts := by
    rw [hqueue]
    exact h.lasts
  marked since hmark := by
    rw [hqueue]
    exact h.marked since (hblocked _ hmark)

theorem HasTurn.queue_elapse (h : HasTurn token joined polled keys)
    (hgrace : now - polled < queueHeadGraceMs) : (keys.elapse now).queue = keys.queue := by
  apply h.lasts.elapse_eq
  rw [queueHeadGraceMs] at hgrace
  rw [queueEntryTtlMs]
  omega

theorem HasTurn.elapse (h : HasTurn token joined polled keys)
    (hgrace : now - polled < queueHeadGraceMs) : HasTurn token joined polled (keys.elapse now) :=
  h.of_queue (h.queue_elapse hgrace) fun _ => Key.mem_of_elapse_sorted

theorem HasTurn.remove (h : HasTurn token joined polled keys) (hne : token ≠ other) :
    HasTurn token joined polled { keys with queue := keys.queue.update (·.remove other) } where
  queued := by
    rw [Key.sorted_update, SortedSet.mem_remove]
    exact ⟨h.queued, hne⟩
  lasts := h.lasts.update _
  marked since hmark := by
    obtain ⟨hpolled, hhead⟩ := h.marked since hmark
    refine ⟨hpolled, ?_⟩
    obtain ⟨head, hfirst, hmember⟩ := Option.map_eq_some_iff.1 hhead
    rw [Key.sorted_update, SortedSet.remove, SortedSet.first_filter hfirst]
    · rw [← hmember]
      rfl
    · rw [hmember]
      exact decide_eq_true hne

/-! ## A run of a normal caller -/

@[simp] theorem queue_pollHead : (pollHead input keys).2.queue =
    (headAfterReaping input.now input.token keys).2.queue := by
  rw [pollHead]
  dsimp only
  split_ifs <;> rfl

theorem pollHead_fst : (pollHead input keys).1 =
    (pollHead input keys).2.queue.sorted.first.map (·.member) := by
  rw [queue_pollHead]
  exact headAfterReaping_fst

theorem mem_blocked_pollHead (h : entry ∈ (pollHead input keys).2.blocked.sorted.entries) :
    entry ∈ (headAfterReaping input.now input.token keys).2.blocked.sorted.entries ∧
      ((pollHead input keys).1 = some input.token → entry.member ≠ input.token) := by
  rw [pollHead] at h ⊢
  dsimp only at h ⊢
  split_ifs at h with hhead
  · rw [Key.sorted_update, SortedSet.mem_remove] at h
    exact ⟨h.1, fun _ => h.2⟩
  · exact ⟨h, fun heq => absurd heq hhead⟩

theorem HasTurn.pollHead (h : HasTurn token joined polled keys) (hpolled : polled ≤ input.now)
    (hgrace : input.now - polled < queueHeadGraceMs) :
    HasTurn token joined polled (pollHead input keys).2 ∧
      ((∃ since, ⟨token, since⟩ ∈ (Keeper.pollHead input keys).2.blocked.sorted.entries) →
        (Keeper.pollHead input keys).2.queue = keys.queue) := by
  obtain ⟨hturn, hsame⟩ := h.headAfterReaping input.token hpolled hgrace
  refine ⟨hturn.of_queue queue_pollHead fun entry hmem => (mem_blocked_pollHead hmem).1, ?_⟩
  rintro ⟨since, hmark⟩
  rw [queue_pollHead]
  exact hsame ⟨since, (mem_blocked_pollHead hmark).1⟩

/-- **A waiter keeps its turn** where another one joins and does not come before it as the head. -/
theorem HasTurn.joinQueue (h : HasTurn token joined polled keys) (hpolled : polled ≤ input.now)
    (hhead : (∃ since, ⟨token, since⟩ ∈ keys.blocked.sorted.entries) →
      keys.queue.sorted.score? input.token = none → ∀ head, keys.queue.sorted.first = some head →
        ¬ Scored.Before ⟨input.token, input.now⟩ head) :
    HasTurn token joined polled (joinQueue input keys) where
  queued := by
    rw [Keeper.joinQueue, Key.sorted_pexpire, Key.sorted_update, SortedSet.mem_addNew]
    exact Or.inl h.queued
  lasts := Key.LastsUntil.pexpire (by omega)
  marked since hmark := by
    rw [Keeper.joinQueue, Key.sorted_pexpire] at hmark
    obtain ⟨hsince, hfirst⟩ := h.marked since hmark
    obtain ⟨head, hfirst, hmember⟩ := Option.map_eq_some_iff.1 hfirst
    refine ⟨hsince, ?_⟩
    rw [Keeper.joinQueue, Key.sorted_pexpire, Key.sorted_update,
      SortedSet.first_addNew hfirst fun hnone => hhead ⟨since, hmark⟩ hnone head hfirst, ← hmember]
    rfl

/-- A caller that joins the queue, or stays in it, without a mark has its turn. -/
theorem hasTurn_joinQueue
    (hmem : ⟨input.token, joined⟩ ∈ keys.queue.sorted.entries ∨
      keys.queue.sorted.score? input.token = none ∧ joined = input.now)
    (hunmarked : ∀ since, ⟨input.token, since⟩ ∉ keys.blocked.sorted.entries) :
    HasTurn input.token joined input.now (joinQueue input keys) where
  queued := by
    rw [joinQueue, Key.sorted_pexpire, Key.sorted_update, SortedSet.mem_addNew]
    exact hmem.imp_right fun ⟨hnone, heq⟩ => ⟨hnone, by rw [heq]⟩
  lasts := Key.LastsUntil.pexpire le_rfl
  marked since hmark := by
    rw [joinQueue, Key.sorted_pexpire] at hmark
    exact absurd hmark (hunmarked since)

/-- **A waiter keeps its turn** in a run of another caller. -/
theorem HasTurn.acquire_other (h : HasTurn token joined polled keys) (hpolled : polled ≤ input.now)
    (hgrace : input.now - polled < queueHeadGraceMs) (hne : token ≠ input.token)
    (hhead : keys.queue.sorted.score? input.token = none →
      ∀ head, keys.queue.sorted.first = some head →
        ¬ Scored.Before ⟨input.token, input.now⟩ head) :
    HasTurn token joined polled (acquireScript input keys).2 := by
  have htrim : HasTurn token joined polled (trimWindow input keys) := ⟨h.queued, h.lasts, h.marked⟩
  rw [acquireScript]
  split_ifs
  · obtain ⟨hturn, -⟩ := htrim.headAfterReaping "" hpolled hgrace
    rcases @acquireAtOnce_cases input keys with ⟨-, -, -, hkeys⟩ | ⟨-, hkeys | hkeys⟩
    · rw [hkeys]
      exact ⟨hturn.queued, hturn.lasts, hturn.marked⟩
    · rw [hkeys]
      exact hturn
    · rw [hkeys]
      exact htrim
  · obtain ⟨hturn, hsame⟩ := htrim.pollHead hpolled hgrace
    rcases @acquireInTurn_cases input keys with ⟨-, -, -, hkeys⟩ | ⟨-, hkeys⟩
    · have hremoved := hturn.remove hne
      rw [hkeys]
      exact ⟨hremoved.queued, hremoved.lasts, hremoved.marked⟩
    · rw [hkeys]
      refine hturn.joinQueue hpolled fun hmark => ?_
      rw [hsame hmark]
      exact hhead

/-- **A waiter keeps its turn** in a run of its own that is refused. -/
theorem HasTurn.acquire_self (h : HasTurn input.token joined polled keys)
    (hpolled : polled ≤ input.now) (hgrace : input.now - polled < queueHeadGraceMs)
    (htoken : input.token ≠ "") (hrefused : isGranted (acquireScript input keys).1 = false) :
    HasTurn input.token joined input.now (acquireScript input keys).2 := by
  have htrim : HasTurn input.token joined polled (trimWindow input keys) :=
    ⟨h.queued, h.lasts, h.marked⟩
  rw [acquireScript, if_neg htoken] at hrefused ⊢
  rcases @acquireInTurn_cases input keys with ⟨hgranted, -⟩ | ⟨-, hkeys⟩
  · cases hrefused.symm.trans hgranted
  rw [hkeys]
  obtain ⟨hturn, -⟩ := htrim.pollHead hpolled hgrace
  refine hasTurn_joinQueue (Or.inl hturn.queued) fun since hmark => ?_
  -- a mark would be on the head, and the head has just cleared its own
  have hhead := (hturn.marked since hmark).2
  rw [← pollHead_fst] at hhead
  exact (mem_blocked_pollHead hmark).2 hhead rfl

/-- **A caller has its turn** from its first run on, if that is refused. -/
theorem hasTurn_acquire_new (hqueue : ∀ score, ⟨input.token, score⟩ ∉ keys.queue.sorted.entries)
    (hblocked : ∀ since, ⟨input.token, since⟩ ∉ keys.blocked.sorted.entries)
    (htoken : input.token ≠ "") (hrefused : isGranted (acquireScript input keys).1 = false) :
    HasTurn input.token input.now input.now (acquireScript input keys).2 := by
  rw [acquireScript, if_neg htoken] at hrefused ⊢
  rcases @acquireInTurn_cases input keys with ⟨hgranted, -⟩ | ⟨-, hkeys⟩
  · cases hrefused.symm.trans hgranted
  rw [hkeys]
  refine hasTurn_joinQueue (Or.inr ⟨?_, rfl⟩) fun since hmark => ?_
  · rw [SortedSet.score?_eq_none, queue_pollHead]
    intro score hmem
    have hbefore := mem_queue_headAfterReaping hmem
    exact hqueue score hbefore
  · rcases mem_blocked_headAfterReaping (mem_blocked_pollHead hmark).1 with hmem | ⟨-, hne, -⟩
    · exact hblocked since hmem
    · exact hne rfl

theorem mem_queue_acquireScript (h : entry ∈ (acquireScript input keys).2.queue.sorted.entries) :
    entry ∈ keys.queue.sorted.entries ∨ entry.member = input.token ∧ input.token ≠ "" := by
  have hpoll : entry ∈ (pollHead input (trimWindow input keys)).2.queue.sorted.entries →
      entry ∈ keys.queue.sorted.entries := by
    rw [queue_pollHead]
    exact mem_queue_headAfterReaping
  rw [acquireScript] at h
  split_ifs at h with htoken
  · rcases @acquireAtOnce_cases input keys with ⟨-, -, -, hkeys⟩ | ⟨-, hkeys | hkeys⟩
    · rw [hkeys] at h
      have hbefore := mem_queue_headAfterReaping h
      exact Or.inl hbefore
    · rw [hkeys] at h
      have hbefore := mem_queue_headAfterReaping h
      exact Or.inl hbefore
    · rw [hkeys] at h
      exact Or.inl h
  · rcases @acquireInTurn_cases input keys with ⟨-, -, -, hkeys⟩ | ⟨-, hkeys⟩
    · rw [hkeys, Key.sorted_update, SortedSet.mem_remove] at h
      exact Or.inl (hpoll h.1)
    · rw [hkeys, joinQueue, Key.sorted_pexpire, Key.sorted_update, SortedSet.mem_addNew] at h
      rcases h with hmem | ⟨-, rfl⟩
      · exact Or.inl (hpoll hmem)
      · exact Or.inr ⟨rfl, htoken⟩

theorem mem_blocked_acquireScript (h : entry ∈ (acquireScript input keys).2.blocked.sorted.entries) :
    entry ∈ keys.blocked.sorted.entries ∨
      keys.queue.sorted.first.map (·.member) = some entry.member := by
  have hhead : ∀ {token}, entry ∈
      (headAfterReaping input.now token (trimWindow input keys)).2.blocked.sorted.entries →
        entry ∈ keys.blocked.sorted.entries ∨
          keys.queue.sorted.first.map (·.member) = some entry.member := fun hmem =>
    (mem_blocked_headAfterReaping hmem).imp_right fun hmarked => hmarked.2.2.1
  rw [acquireScript] at h
  split_ifs at h
  · rcases @acquireAtOnce_cases input keys with ⟨-, -, -, hkeys⟩ | ⟨-, hkeys | hkeys⟩
    · rw [hkeys] at h
      exact hhead h
    · rw [hkeys] at h
      exact hhead h
    · rw [hkeys] at h
      exact Or.inl h
  · rcases @acquireInTurn_cases input keys with ⟨-, -, -, hkeys⟩ | ⟨-, hkeys⟩
    · rw [hkeys] at h
      exact hhead (mem_blocked_pollHead h).1
    · rw [hkeys, joinQueue, Key.sorted_pexpire] at h
      exact hhead (mem_blocked_pollHead h).1

/-- **A run of a caller without a token** is refused while a waiter has its turn. -/
theorem HasTurn.refuses_at_once (h : HasTurn token joined polled keys) (hpolled : polled ≤ input.now)
    (hgrace : input.now - polled < queueHeadGraceMs) (htoken : input.token = "") :
    isGranted (acquireScript input keys).1 = false := by
  have htrim : HasTurn token joined polled (trimWindow input keys) := ⟨h.queued, h.lasts, h.marked⟩
  obtain ⟨hturn, -⟩ := htrim.headAfterReaping "" hpolled hgrace
  rw [acquireScript, if_pos htoken]
  rcases @acquireAtOnce_cases input keys with ⟨-, -, hnone, -⟩ | ⟨hrefused, -⟩
  · rw [headAfterReaping_fst, Option.map_eq_none_iff, SortedSet.first_eq_none] at hnone
    have hqueued := hturn.queued
    rw [hnone] at hqueued
    cases hqueued
  · exact hrefused

/-- **A run of a waiter** is refused while one that joined earlier has its turn. -/
theorem HasTurn.refuses_in_turn (h : HasTurn token joined polled keys) (hpolled : polled ≤ input.now)
    (hgrace : input.now - polled < queueHeadGraceMs) (htoken : input.token ≠ "") {joined' : ℤ}
    (hqueued : ⟨input.token, joined'⟩ ∈ keys.queue.sorted.entries) (hlater : joined < joined') :
    isGranted (acquireScript input keys).1 = false := by
  have htrim : HasTurn token joined polled (trimWindow input keys) := ⟨h.queued, h.lasts, h.marked⟩
  obtain ⟨hturn, -⟩ := htrim.pollHead hpolled hgrace
  rw [acquireScript, if_neg htoken]
  rcases @acquireInTurn_cases input keys with ⟨-, -, hhead, -⟩ | ⟨hrefused, -⟩
  · rw [pollHead_fst] at hhead
    rcases hhead with hnone | hself
    · rw [Option.map_eq_none_iff, SortedSet.first_eq_none] at hnone
      have hwaits := hturn.queued
      rw [hnone] at hwaits
      cases hwaits
    · obtain ⟨head, hfirst, hmember⟩ := Option.map_eq_some_iff.1 hself
      have hmem := SortedSet.mem_of_first hfirst
      rw [queue_pollHead] at hmem
      have hscore : head.score = joined' := by
        refine SortedSet.score_unique ?_ hqueued
        have hbefore := mem_queue_headAfterReaping hmem
        rw [← hmember]
        exact hbefore
      have hbefore : Scored.Before ⟨token, joined⟩ head := Or.inl (by rw [hscore]; exact hlater)
      exact absurd hbefore (SortedSet.not_before_of_first hfirst hturn.queued)
  · exact hrefused

end Turn

/-! ## The invariant -/

section Log

variable {token : String} {event : LimiterEvent} {log : List LimiterEvent}

theorem joinedAt_cons_of_none (h : event.poll? token = none) :
    joinedAt token (event :: log) = joinedAt token log := by
  rw [joinedAt, h, Option.or_none]

theorem polledAt_cons_of_none (h : event.poll? token = none) :
    polledAt token (event :: log) = polledAt token log := by
  rw [polledAt, h, Option.none_or]

theorem isSome_polledAt : (polledAt token log).isSome = (joinedAt token log).isSome := by
  induction log with
  | nil => rfl
  | cons event log ih => rw [polledAt, joinedAt, Option.isSome_or, Option.isSome_or, ih, Bool.or_comm]

theorem Waits.of_cons (h : Waits token (event :: log)) (hjoined : (joinedAt token log).isSome) :
    Waits token log where
  hasToken := h.hasToken
  hasJoined := hjoined
  stays earlier hmem := h.stays earlier (List.mem_cons_of_mem _ hmem)
  refused earlier hmem := h.refused earlier (List.mem_cons_of_mem _ hmem)
  polls := (Bool.and_eq_true_iff.1 h.polls).2

theorem isInGrace_of_eq_some {input : AcquireInput} {polled : ℤ}
    (h : isInGrace token log input = true) (hpolled : polledAt token log = some polled) :
    input.now - polled < queueHeadGraceMs := by
  rw [isInGrace, hpolled, Option.all_some, decide_eq_true_eq] at h
  exact h

theorem Waits.inGrace {input : AcquireInput} (h : Waits token (event :: log))
    (hinput : event.call.request? = some input) : isInGrace token log input = true := by
  have hpolls := (Bool.and_eq_true_iff.1 h.polls).1
  rwa [hinput, Option.all_some] at hpolls

end Log

namespace LimiterSystem

/-- The waiters of a log have their turns, and the keys hold tokens of the log only. -/
structure QueueInv (s : LimiterSystem) : Prop where
  polled : ∀ token polled, polledAt token s.log = some polled → polled ≤ s.now
  queue : ∀ entry ∈ s.keys.queue.sorted.entries, (polledAt entry.member s.log).isSome
  blocked : ∀ entry ∈ s.keys.blocked.sorted.entries, (polledAt entry.member s.log).isSome
  turns : ∀ token joined polled, Waits token s.log → joinedAt token s.log = some joined →
    polledAt token s.log = some polled → HasTurn token joined polled s.keys

variable {s : LimiterSystem} {call : LimiterCall} {input : AcquireInput} {token : String}

theorem QueueInv.start (now : ℤ) : QueueInv { now } where
  polled _ _ h := by cases h
  queue _ h := by cases h
  blocked _ h := by cases h
  turns _ _ _ h := by cases h.hasJoined

theorem isSome_polledAt_cons {event : LimiterEvent} {log : List LimiterEvent}
    (h : (polledAt token log).isSome) : (polledAt token (event :: log)).isSome := by
  rw [polledAt, Option.isSome_or, h, Bool.or_true]

/-- A waiter before a run has its turn in the keys that the run finds. -/
theorem QueueInv.turn (h : s.QueueInv) {joined polled : ℤ} (hwaits : Waits token s.log)
    (hjoined : joinedAt token s.log = some joined) (hpolled : polledAt token s.log = some polled)
    (hgrace : isInGrace token s.log input = true) :
    HasTurn token joined polled (s.keys.elapse input.now) :=
  (h.turns token joined polled hwaits hjoined hpolled).elapse (isInGrace_of_eq_some hgrace hpolled)

theorem step_acquire (s : LimiterSystem) (input : AcquireInput) :
    s.step (.acquire input) =
      { now := input.now
        keys := (acquireScript input (s.keys.elapse input.now)).2
        log := ⟨.acquire input, s.grants input⟩ :: s.log } :=
  rfl

theorem step_priority (s : LimiterSystem) (input : AcquireInput) :
    (s.step (.priority input)).keys = (priorityAcquireScript input (s.keys.elapse input.now)).2 :=
  rfl

theorem QueueInv.acquire (h : s.QueueInv) (htimely : s.IsTimely (.acquire input))
    (hhead : s.KeepsHead (.acquire input)) : (s.step (.acquire input)).QueueInv := by
  have hnow : s.now ≤ input.now := htimely input rfl
  rw [step_acquire]
  refine ⟨?_, ?_, ?_, ?_⟩
  · intro token polled hpolled
    by_cases htoken : input.token = token
    · have heq : some input.now = some polled := by
        rw [← hpolled, polledAt, LimiterEvent.poll?]
        dsimp only
        rw [if_pos htoken, Option.some_or]
      exact (Option.some.inj heq).ge
    · have hnone : LimiterEvent.poll? token ⟨.acquire input, s.grants input⟩ = none := if_neg htoken
      have hbefore : polledAt token s.log = some polled := (polledAt_cons_of_none hnone).symm.trans hpolled
      exact (h.polled token polled hbefore).trans hnow
  · intro entry hentry
    rcases mem_queue_acquireScript hentry with hmem | ⟨hmember, -⟩
    · exact isSome_polledAt_cons (h.queue entry (Key.mem_of_elapse_sorted hmem))
    · rw [polledAt, LimiterEvent.poll?, hmember]
      dsimp only
      rw [if_pos rfl]
      rfl
  · intro entry hentry
    rcases mem_blocked_acquireScript hentry with hmem | hfirst
    · exact isSome_polledAt_cons (h.blocked entry (Key.mem_of_elapse_sorted hmem))
    · obtain ⟨head, hfirst, hmember⟩ := Option.map_eq_some_iff.1 hfirst
      rw [← hmember]
      exact isSome_polledAt_cons
        (h.queue head (Key.mem_of_elapse_sorted (SortedSet.mem_of_first hfirst)))
  · intro token joined polled hwaits hjoined hpolled
    have hgrace : isInGrace token s.log input = true := hwaits.inGrace rfl
    by_cases htoken : input.token = token
    · subst htoken
      have hpoll : LimiterEvent.poll? input.token ⟨.acquire input, s.grants input⟩ = some input.now :=
        if_pos rfl
      have hrefused : s.grants input = false :=
        hwaits.refused _ List.mem_cons_self (by rw [hpoll]; rfl)
      obtain rfl : input.now = polled := by
        have heq : polledAt input.token (⟨.acquire input, s.grants input⟩ :: s.log) = some polled := hpolled
        rw [polledAt, hpoll, Option.some_or] at heq
        exact Option.some.inj heq
      have hjoined' : joinedAt input.token (⟨.acquire input, s.grants input⟩ :: s.log) = some joined :=
        hjoined
      rw [joinedAt, hpoll] at hjoined'
      cases hbefore : joinedAt input.token s.log with
      | none =>
        rw [hbefore, Option.none_or] at hjoined'
        obtain rfl := Option.some.inj hjoined'
        have hunknown : (polledAt input.token s.log).isSome = false := by
          rw [isSome_polledAt, hbefore]
          rfl
        refine hasTurn_acquire_new (fun score hmem => ?_) (fun since hmem => ?_) hwaits.hasToken hrefused
        · have hknown := h.queue _ (Key.mem_of_elapse_sorted hmem)
          cases hunknown.symm.trans hknown
        · have hknown := h.blocked _ (Key.mem_of_elapse_sorted hmem)
          cases hunknown.symm.trans hknown
      | some earlier =>
        rw [hbefore, Option.some_or] at hjoined'
        obtain rfl := Option.some.inj hjoined'
        have hsome : (joinedAt input.token s.log).isSome := by rw [hbefore]; rfl
        obtain ⟨last, hlast⟩ := Option.isSome_iff_exists.1 (isSome_polledAt.trans hsome)
        have hturn := h.turn (hwaits.of_cons hsome) hbefore hlast hgrace
        exact hturn.acquire_self ((h.polled _ _ hlast).trans hnow) (isInGrace_of_eq_some hgrace hlast)
          hwaits.hasToken hrefused
    · have hnone : LimiterEvent.poll? token ⟨.acquire input, s.grants input⟩ = none := if_neg htoken
      have hjoined' := (joinedAt_cons_of_none hnone).symm.trans hjoined
      have hpolled' := (polledAt_cons_of_none hnone).symm.trans hpolled
      have hsome : (joinedAt token s.log).isSome := by rw [hjoined']; rfl
      exact (h.turn (hwaits.of_cons hsome) hjoined' hpolled' hgrace).acquire_other
        ((h.polled _ _ hpolled').trans hnow) (isInGrace_of_eq_some hgrace hpolled') (Ne.symm htoken) hhead

/-- **A run keeps the turns**, if it is timely and does not come before the head of the queue. -/
theorem QueueInv.step (h : s.QueueInv) (htimely : s.IsTimely call) (hhead : s.KeepsHead call) :
    (s.step call).QueueInv := by
  cases call with
  | acquire input => exact h.acquire htimely hhead
  | priority input =>
    have hnow : s.now ≤ input.now := htimely input rfl
    have hkeys : (priorityAcquireScript input (s.keys.elapse input.now)).2.queue =
          (s.keys.elapse input.now).queue ∧
        (priorityAcquireScript input (s.keys.elapse input.now)).2.blocked =
          (s.keys.elapse input.now).blocked := by
      rw [priorityAcquireScript]
      split_ifs
      · exact ⟨rfl, rfl⟩
      · exact ⟨rfl, rfl⟩
    refine ⟨fun token polled hpolled => (h.polled token polled hpolled).trans hnow, ?_, ?_, ?_⟩
    · intro entry hentry
      rw [step_priority, hkeys.1] at hentry
      exact h.queue entry (Key.mem_of_elapse_sorted hentry)
    · intro entry hentry
      rw [step_priority, hkeys.2] at hentry
      exact h.blocked entry (Key.mem_of_elapse_sorted hentry)
    · intro token joined polled hwaits hjoined hpolled
      have hjoined' : joinedAt token s.log = some joined :=
        (joinedAt_cons_of_none rfl).symm.trans hjoined
      have hpolled' : polledAt token s.log = some polled :=
        (polledAt_cons_of_none rfl).symm.trans hpolled
      have hgrace : isInGrace token s.log input = true := hwaits.inGrace rfl
      have hturn := h.turn (hwaits.of_cons (Option.isSome_of_eq_some hjoined')) hjoined' hpolled' hgrace
      rw [step_priority]
      refine hturn.of_queue hkeys.1 fun entry hentry => ?_
      rwa [hkeys.2] at hentry
  | leave other =>
    refine ⟨h.polled, ?_, ?_, ?_⟩
    · intro entry hentry
      rw [step, leaveQueueScript, Key.sorted_update, SortedSet.mem_remove] at hentry
      exact h.queue entry hentry.1
    · intro entry hentry
      rw [step, leaveQueueScript, Key.sorted_update, SortedSet.mem_remove] at hentry
      exact h.blocked entry hentry.1
    · intro token joined polled hwaits hjoined hpolled
      have hjoined' : joinedAt token s.log = some joined :=
        (joinedAt_cons_of_none rfl).symm.trans hjoined
      have hpolled' : polledAt token s.log = some polled :=
        (polledAt_cons_of_none rfl).symm.trans hpolled
      have hne : token ≠ other := by
        rintro rfl
        exact absurd (hwaits.stays _ List.mem_cons_self) (by simp [LimiterEvent.leaves])
      have hbefore := hwaits.of_cons (Option.isSome_of_eq_some hjoined')
      have hturn := (h.turns token joined polled hbefore hjoined' hpolled').remove hne
      refine hturn.of_queue rfl fun entry hentry => ?_
      rw [step, leaveQueueScript, Key.sorted_update, SortedSet.mem_remove] at hentry
      exact hentry.1

/-- **The queue is fair**, where no run joins before its head. -/
theorem isFair_of_reaches (h : Reaches (fun s call => s.IsTimely call ∧ s.KeepsHead call) s) :
    s.IsFair := by
  have hinv : s.QueueInv := by
    induction h with
    | start now => exact QueueInv.start now
    | step _ call hallowed ih => exact ih.step hallowed.1 hallowed.2
  have hlast : ∀ {token}, Waits token s.log → ∃ joined polled, joinedAt token s.log = some joined ∧
      polledAt token s.log = some polled := by
    intro token hwaits
    obtain ⟨joined, hjoined⟩ := Option.isSome_iff_exists.1 hwaits.hasJoined
    obtain ⟨polled, hpolled⟩ := Option.isSome_iff_exists.1 (isSome_polledAt.trans hwaits.hasJoined)
    exact ⟨joined, polled, hjoined, hpolled⟩
  refine ⟨?_, ?_, ?_⟩
  · intro token hwaits
    obtain ⟨joined, polled, hjoined, hpolled⟩ := hlast hwaits
    exact ⟨joined, hjoined, (hinv.turns token joined polled hwaits hjoined hpolled).queued⟩
  · intro input token joined joined' hwaits hwaits' hjoined hjoined' hlater htimely hgrace
    obtain ⟨-, polled, -, hpolled⟩ := hlast hwaits
    obtain ⟨-, polled', -, hpolled'⟩ := hlast hwaits'
    have hturn := hinv.turn hwaits hjoined hpolled hgrace
    have hbefore := (hinv.polled token polled hpolled).trans (htimely input rfl)
    have hqueued := (hinv.turns _ _ _ hwaits' hjoined' hpolled').queued
    rw [← (hinv.turns _ _ _ hwaits hjoined hpolled).queue_elapse (isInGrace_of_eq_some hgrace hpolled)] at hqueued
    exact hturn.refuses_in_turn hbefore (isInGrace_of_eq_some hgrace hpolled) hwaits'.hasToken hqueued hlater
  · intro input token hwaits htoken htimely hgrace
    obtain ⟨joined, polled, hjoined, hpolled⟩ := hlast hwaits
    have hturn := hinv.turn hwaits hjoined hpolled hgrace
    exact hturn.refuses_at_once ((hinv.polled token polled hpolled).trans (htimely input rfl))
      (isInGrace_of_eq_some hgrace hpolled) htoken

/-! ### A waiter that joins before the head -/

namespace Example

def poll (token : String) (now : ℤ) : LimiterCall :=
  .acquire { now, count := 1, limit := 1, token, random := fun _ => 7 }

/-- The head of the queue is marked, and loses its place to a waiter of its own clock value; it polls
until that one has left. -/
def displaced : LimiterSystem :=
  [poll "" 0, poll "b" 0, poll "a" 0, poll "a" 5000, poll "b" 5000, poll "a" 10000, poll "b" 10000,
    .leave "a", poll "c" 15000].foldl step { now := 0 }

theorem reaches_poll {s : LimiterSystem} (h : Reaches IsTimely s) (token : String) (now : ℤ)
    (hnow : s.now ≤ now) : Reaches IsTimely (s.step (poll token now)) := by
  refine .step h _ fun input hinput => ?_
  obtain rfl := Option.some.inj hinput
  exact hnow

theorem displaced_reaches : Reaches IsTimely displaced := by
  have hstart : Reaches IsTimely { now := 0 } := .start 0
  have hjoined := reaches_poll (reaches_poll (reaches_poll hstart "" 0 le_rfl) "b" 0 le_rfl) "a" 0 le_rfl
  have hpolled := reaches_poll (reaches_poll hjoined "a" 5000 (by decide)) "b" 5000 le_rfl
  have hpolled' := reaches_poll (reaches_poll hpolled "a" 10000 (by decide)) "b" 10000 le_rfl
  have hleft := Reaches.step hpolled' (.leave "a") (fun input hinput => by cases hinput)
  exact reaches_poll hleft "c" 15000 (by decide)

end Example

theorem isFair_of_reaches_example :
    ([Example.poll "" 0, Example.poll "b" 0, Example.poll "a" 1].foldl step { now := 0 }).IsFair := by
  have htimely : ∀ (s : LimiterSystem) (token : String) (now : ℤ), s.now ≤ now →
      s.IsTimely (Example.poll token now) := by
    intro s token now hnow input hinput
    obtain rfl := Option.some.inj hinput
    exact hnow
  have hstart : Reaches (fun s call => s.IsTimely call ∧ s.KeepsHead call) { now := 0 } := .start 0
  have hfilled := hstart.step (Example.poll "" 0) ⟨htimely _ "" 0 le_rfl, fun _ head hfirst => by
    cases hfirst⟩
  have hjoined := hfilled.step (Example.poll "b" 0) ⟨htimely _ "b" 0 le_rfl, fun _ head hfirst => by
    cases hfirst⟩
  refine isFair_of_reaches (hjoined.step (Example.poll "a" 1) ⟨htimely _ "a" 1 (by decide), ?_⟩)
  intro _ head hfirst
  have hhead : ((([Example.poll "" 0, Example.poll "b" 0].foldl step { now := 0 }).keys.elapse
      1).queue.sorted.first) = some ⟨"b", 0⟩ := by decide +kernel
  obtain rfl := Option.some.inj (hhead.symm.trans hfirst)
  decide

/-- **A waiter that polls is dropped.** -/
theorem not_isFair : ¬ ∀ s : LimiterSystem, Reaches IsTimely s → s.IsFair := by
  intro h
  have hwaits : Waits "b" Example.displaced.log :=
    ⟨by decide, by decide +kernel, by decide +kernel, by decide +kernel, by decide +kernel⟩
  obtain ⟨joined, -, hmem⟩ := (h Example.displaced Example.displaced_reaches).queued "b" hwaits
  have hgone : ∀ entry ∈ Example.displaced.keys.queue.sorted.entries, entry.member ≠ "b" := by
    decide +kernel
  exact hgone _ hmem rfl

end LimiterSystem

end Keeper
