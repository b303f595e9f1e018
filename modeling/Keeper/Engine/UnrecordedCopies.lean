import Keeper.Engine.SyncCalendar

/-!
# No untracked copy survives a run

Every copy that a push reports is held by a flush that returned, or is deleted after the flush that
held it failed; and nothing but that deletion follows a failed flush.

* `syncCalendar_noUntrackedCopy`: for every run of `syncCalendar`.
* `Ongoing.tracked`: the invariant. A copy is pending until the next flush holds it.
-/

namespace Keeper

open JsArray

/-! ## Positions in a trace -/

/-- An element of an extended list is its last one, or stands in the list itself. -/
theorem append_singleton_eq_append_cons {α : Type*} {l t u : List α} {c x : α}
    (h : l ++ [c] = t ++ x :: u) :
    (u = [] ∧ l = t ∧ c = x) ∨ ∃ u', u = u' ++ [c] ∧ l = t ++ x :: u' := by
  rcases List.eq_nil_or_concat' u with rfl | ⟨u', c', rfl⟩
  · obtain ⟨rfl, hc⟩ := List.append_inj' h rfl
    exact Or.inl ⟨rfl, rfl, (List.cons.inj hc).1⟩
  · rw [← List.cons_append, ← List.append_assoc] at h
    obtain ⟨rfl, hc⟩ := List.append_inj' h rfl
    obtain rfl := (List.cons.inj hc).1
    exact Or.inr ⟨u', rfl, rfl⟩

/-- An element of a list extended by two stands in the list, or is one of the two. -/
theorem append_pair_eq_append_cons {α : Type*} {l t u : List α} {c d x : α}
    (h : l ++ [c, d] = t ++ x :: u) :
    (u = [] ∧ d = x ∧ t = l ++ [c]) ∨ (u = [d] ∧ c = x ∧ t = l) ∨
      ∃ u', u = u' ++ [c, d] ∧ l = t ++ x :: u' := by
  rw [show l ++ [c, d] = (l ++ [c]) ++ [d] by simp] at h
  rcases append_singleton_eq_append_cons h with ⟨hu, ht, hd⟩ | ⟨u', hu, h1⟩
  · exact Or.inl ⟨hu, hd, ht.symm⟩
  · rcases append_singleton_eq_append_cons h1 with ⟨rfl, ht, hc⟩ | ⟨u'', rfl, h2⟩
    · exact Or.inr (Or.inl ⟨hu, hc, ht.symm⟩)
    · exact Or.inr (Or.inr ⟨u'', by simpa using hu, h2⟩)

/-! ## Tracked copies -/

/-- The calls hold a flush that returned and recorded the row. -/
def RecordedIn (calls : List Call) (insert : PendingInsert) : Prop :=
  ∃ changes, Call.flush changes true ∈ calls ∧ insert ∈ changes.inserts

/-- The calls hold a flush of the row that failed and then the deletion of its copy, by its delete
identifier. -/
def DeletedIn (calls : List Call) (insert : PendingInsert) : Prop :=
  ∃ before changes after inserts results,
    calls = before ++ .flush changes false :: after ∧ insert ∈ changes.inserts ∧
      Call.cleanup inserts results ∈ after ∧ insert.deleteIdentifier ∈ inserts.map (·.deleteIdentifier)

/-- Every copy that a push reports is recorded or deleted in the calls that follow, and only the
deletion of copies follows a failed flush. -/
structure NoUntrackedCopy (host : Host) (calendarId : String) (trace : List Call) : Prop where
  copies : ∀ before adds results after, trace = before ++ .push adds (some results) :: after →
    ∀ add result remoteId, (add, some result) ∈ zipIndexed adds results →
      result.success = true → result.remoteId = some remoteId → remoteId ≠ "" →
      RecordedIn after (pendingInsert host calendarId add.event remoteId result) ∨
        DeletedIn after (pendingInsert host calendarId add.event remoteId result)
  afterFailure : ∀ before changes after, trace = before ++ .flush changes false :: after →
    ∀ c ∈ after, ∃ inserts results, c = .cleanup inserts results

variable {adds : List AddOperation} {results : List PushResult} {insert : PendingInsert}

theorem mem_insertsOf (host : Host) (calendarId : String) {add : AddOperation} {result : PushResult}
    {remoteId : String} (h : (add, some result) ∈ zipIndexed adds results) (hs : result.success = true)
    (hid : result.remoteId = some remoteId) (hne : remoteId ≠ "") :
    pendingInsert host calendarId add.event remoteId result ∈
      insertsOf host calendarId adds results := by
  have ht : truthy result.remoteId = some remoteId := truthy_eq_some_iff.2 ⟨hid, hne⟩
  exact List.mem_filterMap.2 ⟨_, h, by simp [insertOf, Option.filter, hs, ht]⟩

theorem RecordedIn.append {calls : List Call} (h : RecordedIn calls insert) (calls' : List Call) :
    RecordedIn (calls ++ calls') insert := by
  obtain ⟨changes, hc, hi⟩ := h
  exact ⟨changes, List.mem_append_left _ hc, hi⟩

variable {host : Host} {calendarId : String} {pending : List PendingInsert} {trace : List Call}

/-- **A pushed copy is pending or recorded.** -/
theorem Ongoing.tracked (h : Ongoing host calendarId pending trace) {before after : List Call}
    (heq : trace = before ++ .push adds (some results) :: after)
    (hi : insert ∈ insertsOf host calendarId adds results) : insert ∈ pending ∨ RecordedIn after insert := by
  -- a call other than the flush of the pending rows leaves what was recorded before
  have hold : ∀ {t : List Call} {c : Call} {after' : List Call},
      (∀ after, t = before ++ .push adds (some results) :: after →
        insert ∈ ([] : List PendingInsert) ∨ RecordedIn after insert) →
      t = before ++ .push adds (some results) :: after' → RecordedIn (after' ++ [c]) insert := by
    intro t c after' ih heq
    exact ((ih after' heq).resolve_left List.not_mem_nil).append _
  induction h generalizing after with
  | start => simp at heq
  | push adds' results' h ih =>
    rcases append_singleton_eq_append_cons heq with ⟨rfl, -, hc⟩ | ⟨after', rfl, heq'⟩
    · obtain ⟨rfl, hr⟩ := Call.push.inj hc
      obtain rfl := Option.some.inj hr
      exact Or.inl hi
    · exact Or.inr (hold (fun _ h => ih h) heq')
  | update replacements results' h ih =>
    rcases append_singleton_eq_append_cons heq with ⟨-, -, hc⟩ | ⟨after', rfl, heq'⟩
    · cases hc
    · exact Or.inr (hold (fun _ h => ih h) heq')
  | delete removes results' h ih =>
    rcases append_singleton_eq_append_cons heq with ⟨-, -, hc⟩ | ⟨after', rfl, heq'⟩
    · cases hc
    · exact Or.inr (hold (fun _ h => ih h) heq')
  | current h ih =>
    rcases append_singleton_eq_append_cons heq with ⟨-, -, hc⟩ | ⟨after', rfl, heq'⟩
    · cases hc
    · exact Or.inr (hold (fun _ h => ih h) heq')
  | flush changes h hp ih =>
    rcases append_singleton_eq_append_cons heq with ⟨-, -, hc⟩ | ⟨after', rfl, heq'⟩
    · cases hc
    · rcases ih heq' with hpend | hrec
      · exact Or.inr ⟨changes, by simp, hp hpend⟩
      · exact Or.inr (hrec.append _)

theorem Ongoing.not_mem_flush_false (h : Ongoing host calendarId pending trace)
    (changes : PendingChanges) : Call.flush changes false ∉ trace := by
  induction h <;> simp_all

theorem Ongoing.recorded (h : Ongoing host calendarId [] trace) {before after : List Call}
    (heq : trace = before ++ .push adds (some results) :: after)
    (hi : insert ∈ insertsOf host calendarId adds results) : RecordedIn after insert :=
  (h.tracked heq hi).resolve_left List.not_mem_nil

/-- Calls after a run that went on, none of which reports a push: the copies are recorded. -/
theorem Ongoing.noUntrackedCopy (h : Ongoing host calendarId [] trace) {c : Call}
    (hc : ∀ adds results, c ≠ .push adds (some results)) :
    NoUntrackedCopy host calendarId (trace ++ [c]) where
  copies before adds results after heq add result remoteId hmem hs hid hne := by
    have hi := mem_insertsOf host calendarId hmem hs hid hne
    rcases append_singleton_eq_append_cons heq with ⟨-, -, hpush⟩ | ⟨after', rfl, heq'⟩
    · exact absurd hpush (hc adds results)
    · exact Or.inl ((h.recorded heq' hi).append _)
  afterFailure before changes after heq := by
    rcases append_singleton_eq_append_cons heq with ⟨rfl, -, -⟩ | ⟨after', rfl, heq'⟩
    · simp
    · exact absurd (by simp [heq']) (h.not_mem_flush_false changes)

theorem Halted.noUntrackedCopy (h : Halted host calendarId trace) :
    NoUntrackedCopy host calendarId trace := by
  cases h with
  | call h hc =>
    refine h.noUntrackedCopy ?_
    rintro adds results rfl
    exact hc
  | @flush pending t changes h hp hi =>
    rw [hi, List.subset_nil] at hp
    subst hp
    exact h.noUntrackedCopy (by simp)
  | @cleanup pending t changes results h hp =>
    constructor
    · intro before adds results' after heq add result remoteId hmem hs hid hne
      have hins := mem_insertsOf host calendarId hmem hs hid hne
      rcases append_pair_eq_append_cons heq with ⟨-, hd, -⟩ | ⟨-, hc, -⟩ | ⟨after', rfl, heq'⟩
      · cases hd
      · cases hc
      · rcases h.tracked heq' hins with hpend | hrec
        · refine Or.inr ⟨after', changes, [.cleanup changes.inserts results], changes.inserts, results,
            rfl, hp hpend, List.mem_singleton.2 rfl, List.mem_map_of_mem (hp hpend)⟩
        · exact Or.inl (hrec.append _)
    · intro before changes' after heq c hc
      rcases append_pair_eq_append_cons heq with ⟨rfl, -, -⟩ | ⟨rfl, -, -⟩ | ⟨after', rfl, heq'⟩
      · simp at hc
      · exact ⟨_, _, List.mem_singleton.1 hc⟩
      · exact absurd (by simp [heq']) (h.not_mem_flush_false changes')

/-- **No untracked copy survives a run**, whatever the provider reports, whichever flushes fail and
whenever the run is superseded. -/
theorem syncCalendar_noUntrackedCopy {W : Type} (o : SyncCalendarOptions W) (world : W) :
    NoUntrackedCopy o.host o.calendarId (o.trace world) := by
  have ht := syncCalendar_trace o world
  generalize o.trace world = trace at ht
  cases ht with
  | ongoing h =>
    refine ⟨fun before adds results after heq add result remoteId hmem hs hid hne => ?_,
      fun before changes after heq => ?_⟩
    · exact Or.inl (h.recorded heq (mem_insertsOf _ _ hmem hs hid hne))
    · exact absurd (by simp [heq]) (h.not_mem_flush_false changes)
  | halted h => exact h.noUntrackedCopy
  | superseded h => exact h.noUntrackedCopy (by simp)
  | flushedLate returned h =>
    constructor
    · intro before adds results after heq add result remoteId hmem hs hid hne
      rcases append_pair_eq_append_cons heq with ⟨-, hd, -⟩ | ⟨-, hc, -⟩ | ⟨after', rfl, heq'⟩
      · cases hd
      · cases hc
      · exact Or.inl ((h.recorded heq' (mem_insertsOf _ _ hmem hs hid hne)).append _)
    · intro before changes' after heq c hc
      rcases append_pair_eq_append_cons heq with ⟨rfl, -, -⟩ | ⟨-, hf, -⟩ | ⟨after', rfl, heq'⟩
      · simp at hc
      · cases hf
      · exact absurd (by simp [heq']) (h.not_mem_flush_false changes')

end Keeper
