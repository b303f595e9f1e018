import Keeper.Ingest.Transactions

/-!
# Runs of an OAuth ingestion are serial

Every flush advances `ingestSeq`, in a transaction that holds the advisory lock and has found it where the source
was read. A transaction that is past this comparison is therefore applied to the very state that its run has
fetched from: the committed runs are a history, one after another.

* `IsHistory`: committed runs applied one after another.
* `ingestRuns_serial`: what is stored is the history of the committed runs; a run that fails, or is aborted before
  its transaction has last checked its signal, is not part of it.
-/

namespace Keeper

namespace IngestRuns

variable (rt : Runtime) (ark : Arktype) (fresh : List String → String)
  (answers : Option String → FetchEventsResult → Bool)

/-! ## Statements -/

/-- A transaction flushes changes: its work on what is stored yields them, and its statements write them. -/
def Flushes (fetched : Fetched) (changes : IngestionChanges) (recordedAt : ℤ)
    (stored draft : StoredSource) : Prop :=
  (∃ outcome, workOf rt ark fetched stored = some outcome ∧ outcome.flushed = some changes) ∧
    applyWrites fresh stored (flushWrites (existingEventCountOf fetched stored) recordedAt changes) = some draft

/-- **A committed run is applied** to the state that it has read and fetched from. -/
structure CommittedRun.IsApplied (committed : CommittedRun) : Prop where
  read : committed.fetched.read = committed.before
  answers : answers committed.fetched.token committed.fetched.fetchResult = true
  flushes : Flushes rt ark fresh committed.fetched committed.changes committed.recordedAt committed.before
    committed.after
  ingestSeq : committed.after.ingestSeq = committed.before.ingestSeq + 1

/-- What is stored after runs, the last one first, that are applied one after another. -/
def IsHistory (initial : StoredSource) : List CommittedRun → StoredSource → Prop
  | [], stored => stored = initial
  | committed :: log, stored =>
    stored = committed.after ∧ committed.IsApplied rt ark fresh answers ∧ IsHistory initial log committed.before

namespace IngestSystem

variable (s : IngestSystem)

/-- **What is stored is a history** of the committed runs, each of which commits once. -/
def IsSerial (initial : StoredSource) : Prop :=
  IsHistory rt ark fresh answers initial s.log s.stored ∧ (s.log.map (·.run)).Nodup

def LeavesAlone : Prop := ∀ committed ∈ s.log, ¬ (s.runs committed.run).caller.HasThrown

/-- No run that has failed, or was aborted before the last check of its signal, has flushed. -/
def LeavesAloneInTime : Prop :=
  ∀ committed ∈ s.log, (s.runs committed.run).caller ≠ .failed ∧
    (s.runs committed.run).caller ≠ .aborted false

end IngestSystem

/-! ## Writing -/

section Writing

variable {fresh} {stored draft : StoredSource}

theorem applyWrites_append (writes writes' : List FlushWrite) :
    applyWrites fresh stored (writes ++ writes') =
      (applyWrites fresh stored writes).bind fun stored => applyWrites fresh stored writes' := by
  induction writes generalizing stored with
  | nil => rfl
  | cons write writes ih =>
    simp only [List.cons_append, applyWrites, Option.bind_assoc]
    exact congrArg _ (funext fun stored => ih)

/-- A statement other than the last one leaves `ingestSeq` alone. -/
theorem ingestSeq_apply {write : FlushWrite} (hwrite : write ≠ .ingestSeq)
    (h : write.apply fresh stored = some draft) : draft.ingestSeq = stored.ingestSeq := by
  cases write with
  | ingestSeq => exact absurd rfl hwrite
  | inserts events =>
    obtain ⟨table, -, rfl⟩ := Option.map_eq_some_iff.1 h
    rfl
  | _ =>
    obtain rfl := Option.some.inj h
    rfl

theorem ingestSeq_applyWrites {writes : List FlushWrite} (hwrites : ∀ write ∈ writes, write ≠ .ingestSeq)
    (h : applyWrites fresh stored writes = some draft) : draft.ingestSeq = stored.ingestSeq := by
  induction writes generalizing stored with
  | nil =>
    obtain rfl := Option.some.inj h
    rfl
  | cons write writes ih =>
    obtain ⟨next, hnext, hrest⟩ := Option.bind_eq_some_iff.1 h
    rw [ih (fun write hmem => hwrites write (List.mem_cons_of_mem _ hmem)) hrest]
    exact ingestSeq_apply (hwrites write List.mem_cons_self) hnext

/-- **A flush advances `ingestSeq`** by one. -/
theorem ingestSeq_flushWrites {existingEventCount : Option ℕ} {recordedAt : ℤ} {changes : IngestionChanges}
    (h : applyWrites fresh stored (flushWrites existingEventCount recordedAt changes) = some draft) :
    draft.ingestSeq = stored.ingestSeq + 1 := by
  rw [flushWrites, applyWrites_append] at h
  obtain ⟨next, hnext, hlast⟩ := Option.bind_eq_some_iff.1 h
  obtain rfl := Option.some.inj hlast
  refine congrArg (· + 1) (ingestSeq_applyWrites ?_ hnext)
  intro write hmem
  simp only [List.mem_append, Option.mem_toList, Option.map_eq_some_iff] at hmem
  rcases hmem with ((((hmem | hmem) | ⟨count, -, rfl⟩) | hmem) | ⟨coverage, -, rfl⟩) | ⟨snapshot, -, rfl⟩
  · split_ifs at hmem
    · rw [List.mem_singleton.1 hmem]
      exact nofun
    · cases hmem
  · split_ifs at hmem
    · rw [List.mem_singleton.1 hmem]
      exact nofun
    · cases hmem
  · exact nofun
  · split_ifs at hmem
    · cases hmem
    · rw [List.mem_singleton.1 hmem]
      exact nofun
  · exact nofun
  · exact nofun

end Writing

/-! ## The invariant -/

/-- A state was read before another, and is it unless something was flushed in between. -/
def StoredSource.Precedes (read stored : StoredSource) : Prop :=
  read.ingestSeq ≤ stored.ingestSeq ∧ (read.ingestSeq = stored.ingestSeq → read = stored)

/-- What is so of a run in its phase. Past the comparison, what the run has read is what is stored. -/
def IsSound (stored : StoredSource) (lockedBy : Option ℕ) (run : ℕ) : RunPhase → Prop
  | .idle => True
  | .sourced read => read.Precedes stored
  | .fetched fetched => fetched.read.Precedes stored ∧ answers fetched.token fetched.fetchResult = true
  | .submitted fetched => fetched.read.Precedes stored ∧ answers fetched.token fetched.fetchResult = true
  | .locked fetched =>
    lockedBy = some run ∧ fetched.read.Precedes stored ∧ answers fetched.token fetched.fetchResult = true
  | .compared fetched =>
    lockedBy = some run ∧ fetched.read = stored ∧ answers fetched.token fetched.fetchResult = true
  | .writing fetched changes recordedAt draft writes =>
    lockedBy = some run ∧ fetched.read = stored ∧ answers fetched.token fetched.fetchResult = true ∧
      ∀ final, applyWrites fresh draft writes = some final →
        Flushes rt ark fresh fetched changes recordedAt stored final
  | .returned fetched none draft =>
    lockedBy = some run ∧ fetched.read = stored ∧ answers fetched.token fetched.fetchResult = true ∧ draft = stored
  | .returned fetched (some (changes, recordedAt)) draft =>
    lockedBy = some run ∧ fetched.read = stored ∧ answers fetched.token fetched.fetchResult = true ∧
      Flushes rt ark fresh fetched changes recordedAt stored draft
  | .settled => True
  | .finished => True

/-- A run that flushes has settled; one that has failed has finished, and one that was aborted in time stays
short of its last check. -/
structure IngestSystem.IsTold (s : IngestSystem) : Prop where
  settled : ∀ committed ∈ s.log, (s.runs committed.run).phase = .settled
  failed : ∀ run, (s.runs run).caller = .failed → (s.runs run).phase = .finished
  aborted : ∀ run, (s.runs run).caller = .aborted false →
    (s.runs run).aborted = true ∧ (s.runs run).phase.isPastChecks = false

structure IngestSystem.Inv (initial : StoredSource) (s : IngestSystem) : Prop where
  history : IsHistory rt ark fresh answers initial s.log s.stored
  nodup : (s.log.map (·.run)).Nodup
  sound : ∀ run, IsSound rt ark fresh answers s.stored s.lockedBy run (s.runs run).phase
  told : s.IsTold

/-! ## Steps -/

section Steps

variable {rt ark fresh answers} {s s' : IngestSystem} {stored stored' initial : StoredSource}
  {lockedBy lockedBy' : Option ℕ} {run other : ℕ} {phase : RunPhase}

def RunPhase.isOpen : RunPhase → Bool
  | .locked _ => true
  | .compared _ => true
  | .writing _ _ _ _ _ => true
  | .returned _ _ _ => true
  | _ => false

theorem IsSound.holds (h : IsSound rt ark fresh answers stored lockedBy run phase)
    (hopen : phase.isOpen = true) : lockedBy = some run := by
  cases phase with
  | locked | compared | writing => exact h.1
  | returned fetched flushed draft =>
    cases flushed with
    | none => exact h.1
    | some flushed => exact h.1
  | _ => cases hopen

/-- A run whose transaction is not open is sound after a commit of another, and whoever holds the lock. -/
theorem IsSound.of_not_isOpen (h : IsSound rt ark fresh answers stored lockedBy run phase)
    (hopen : phase.isOpen = false)
    (hstored : ∀ read : StoredSource, read.Precedes stored → read.Precedes stored') :
    IsSound rt ark fresh answers stored' lockedBy' run phase := by
  cases phase with
  | idle | settled | finished => trivial
  | sourced read => exact hstored read h
  | fetched fetched => exact ⟨hstored _ h.1, h.2⟩
  | submitted fetched => exact ⟨hstored _ h.1, h.2⟩
  | _ => cases hopen

theorem StoredSource.Precedes.flush {read : StoredSource} (h : read.Precedes stored)
    (hseq : stored'.ingestSeq = stored.ingestSeq + 1) : read.Precedes stored' := by
  refine ⟨by have := h.1; omega, fun heq => ?_⟩
  have := h.1
  omega

theorem IngestSystem.Inv.setPhase (hinv : s.Inv rt ark fresh answers initial) {phase : RunPhase}
    (hphase : IsSound rt ark fresh answers s.stored s.lockedBy run phase)
    (hsettled : (s.runs run).phase ≠ .settled) (hover : (s.runs run).phase ≠ .finished)
    (hchecks : phase.isPastChecks = true → (s.runs run).aborted = false) :
    (s.setPhase run phase).Inv rt ark fresh answers initial := by
  have hself : (s.setPhase run phase).runs run = { s.runs run with phase } := Function.update_self ..
  have hother : ∀ other, other ≠ run → (s.setPhase run phase).runs other = s.runs other :=
    fun other hne => Function.update_of_ne hne ..
  refine ⟨hinv.history, hinv.nodup, fun other => ?_, ⟨fun committed hmem => ?_, fun other hfailed => ?_,
    fun other haborted => ?_⟩⟩
  · by_cases heq : other = run
    · rw [heq, hself]
      exact hphase
    · rw [hother other heq]
      exact hinv.sound other
  · have hne : committed.run ≠ run := by
      intro heq
      exact hsettled (heq ▸ hinv.told.settled committed hmem)
    rw [hother _ hne]
    exact hinv.told.settled committed hmem
  · by_cases heq : other = run
    · rw [heq, hself] at hfailed
      exact absurd (hinv.told.failed run hfailed) hover
    · rw [hother other heq] at hfailed ⊢
      exact hinv.told.failed other hfailed
  · by_cases heq : other = run
    · rw [heq, hself] at haborted ⊢
      refine ⟨(hinv.told.aborted run haborted).1, ?_⟩
      by_contra hpast
      have hfalse := hchecks (Bool.not_eq_false _ ▸ hpast)
      rw [(hinv.told.aborted run haborted).1] at hfalse
      cases hfalse
    · rw [hother other heq] at haborted ⊢
      exact hinv.told.aborted other haborted

/-- What the caller of a run is told does not concern the transaction. -/
theorem IngestSystem.Inv.tell (hinv : s.Inv rt ark fresh answers initial) {caller : Caller}
    (hfailed : caller = .failed → (s.runs run).phase = .finished)
    (haborted : caller = .aborted false → (s.runs run).aborted = true ∧ (s.runs run).phase.isPastChecks = false) :
    (s.tell run caller).Inv rt ark fresh answers initial := by
  have hphase : ∀ other, ((s.tell run caller).runs other).phase = (s.runs other).phase ∧
      ((s.tell run caller).runs other).aborted = (s.runs other).aborted := by
    intro other
    by_cases heq : other = run
    · subst heq
      simp only [IngestSystem.tell, Function.update_self, and_self]
    · simp only [IngestSystem.tell, Function.update_of_ne heq, and_self]
  have hcaller : ∀ other, ((s.tell run caller).runs other).caller = (s.runs other).caller ∨
      other = run ∧ ((s.tell run caller).runs other).caller = caller := by
    intro other
    by_cases heq : other = run
    · subst heq
      simp only [IngestSystem.tell, Function.update_self, true_and]
      split_ifs
      · exact Or.inr rfl
      · exact Or.inl rfl
    · simp only [IngestSystem.tell, Function.update_of_ne heq, true_or]
  refine ⟨hinv.history, hinv.nodup, fun other => ?_, ⟨fun committed hmem => ?_, fun other htold => ?_,
    fun other htold => ?_⟩⟩
  · rw [(hphase other).1]
    exact hinv.sound other
  · rw [(hphase committed.run).1]
    exact hinv.told.settled committed hmem
  · rw [(hphase other).1]
    rcases hcaller other with heq | ⟨rfl, heq⟩
    · exact hinv.told.failed other (heq.symm.trans htold)
    · exact hfailed (heq.symm.trans htold)
  · rw [(hphase other).1, (hphase other).2]
    rcases hcaller other with heq | ⟨rfl, heq⟩
    · exact hinv.told.aborted other (heq.symm.trans htold)
    · exact haborted (heq.symm.trans htold)

/-- The lock passes to a run, or is released, while no other transaction is open. -/
theorem IngestSystem.Inv.setLock (hinv : s.Inv rt ark fresh answers initial)
    (hopen : ∀ other, other ≠ run → (s.runs other).phase.isOpen = false)
    (hrun : IsSound rt ark fresh answers s.stored lockedBy run (s.runs run).phase) :
    { s with lockedBy }.Inv rt ark fresh answers initial := by
  refine ⟨hinv.history, hinv.nodup, fun other => ?_, hinv.told.settled, hinv.told.failed, hinv.told.aborted⟩
  by_cases heq : other = run
  · exact heq ▸ hrun
  · exact (hinv.sound other).of_not_isOpen (hopen other heq) fun _ h => h

/-- Where a run holds the lock, or none does, the transactions of the others are not open. -/
theorem IngestSystem.Inv.not_isOpen (hinv : s.Inv rt ark fresh answers initial)
    (hlock : s.lockedBy = none ∨ s.lockedBy = some run) (other : ℕ) (hne : other ≠ run) :
    (s.runs other).phase.isOpen = false := by
  by_contra hopen
  have hholds := (hinv.sound other).holds (Bool.not_eq_false _ ▸ hopen)
  rcases hlock with hlock | hlock <;> rw [hlock] at hholds
  · cases hholds
  · exact hne (Option.some.inj hholds).symm

theorem IngestSystem.Inv.setAborted (hinv : s.Inv rt ark fresh answers initial) :
    { s with runs := Function.update s.runs run { s.runs run with aborted := true } }.Inv rt ark fresh answers
      initial := by
  have hrun : ∀ other, (Function.update s.runs run { s.runs run with aborted := true } other).phase =
      (s.runs other).phase ∧ (Function.update s.runs run { s.runs run with aborted := true } other).caller =
      (s.runs other).caller := by
    intro other
    by_cases heq : other = run
    · rw [heq, Function.update_self]
      exact ⟨rfl, rfl⟩
    · rw [Function.update_of_ne heq]
      exact ⟨rfl, rfl⟩
  refine ⟨hinv.history, hinv.nodup, fun other => ?_, ⟨fun committed hmem => ?_, fun other htold => ?_,
    fun other htold => ?_⟩⟩
  · dsimp only
    rw [(hrun other).1]
    exact hinv.sound other
  · dsimp only
    rw [(hrun committed.run).1]
    exact hinv.told.settled committed hmem
  · dsimp only at htold ⊢
    rw [(hrun other).2] at htold
    rw [(hrun other).1]
    exact hinv.told.failed other htold
  · dsimp only at htold ⊢
    rw [(hrun other).2] at htold
    refine ⟨?_, (hrun other).1 ▸ (hinv.told.aborted other htold).2⟩
    by_cases heq : other = run
    · rw [heq, Function.update_self]
    · rw [Function.update_of_ne heq]
      exact (hinv.told.aborted other htold).1

/-- What a run has read is what is stored, or was stored before a flush. -/
theorem StoredSource.precedes_self (stored : StoredSource) : stored.Precedes stored := ⟨le_rfl, fun _ => rfl⟩

/-- **A commit** adds the run to the history, if it has flushed. -/
theorem inv_commit (hinv : s.Inv rt ark fresh answers initial)
    (h : step rt ark fresh answers s (.commit run) = some s') : s'.Inv rt ark fresh answers initial := by
  simp only [step] at h
  split at h
  case h_2 => cases h
  next fetched flushed draft hphase =>
    obtain rfl := Option.some.inj h
    have hsound := hinv.sound run
    rw [hphase] at hsound
    have hlock := hsound.holds rfl
    have hnew : run ∉ s.log.map (·.run) := by
      intro hmem
      obtain ⟨committed, hcommitted, rfl⟩ := List.mem_map.1 hmem
      have hsettled := hinv.told.settled committed hcommitted
      rw [hphase] at hsettled
      cases hsettled
    have hself : (s.setPhase run .settled).runs run = { s.runs run with phase := .settled } :=
      Function.update_self ..
    have hother : ∀ other, other ≠ run → (s.setPhase run .settled).runs other = s.runs other :=
      fun other hne => Function.update_of_ne hne ..
    -- What the other runs have read precedes what is stored now.
    have hprecedes : ∀ read : StoredSource, read.Precedes s.stored → read.Precedes draft := by
      intro read hread
      cases flushed with
      | none =>
        obtain ⟨-, -, -, rfl⟩ := hsound
        exact hread
      | some flushed =>
        obtain ⟨-, -, -, hflushes⟩ := hsound
        exact hread.flush (ingestSeq_flushWrites hflushes.2)
    refine ⟨?_, ?_, fun other => ?_, ⟨fun committed hmem => ?_, fun other htold => ?_, fun other htold => ?_⟩⟩
    · cases flushed with
      | none =>
        obtain ⟨-, -, -, rfl⟩ := hsound
        exact hinv.history
      | some flushed =>
        obtain ⟨-, hread, hanswers, hflushes⟩ := hsound
        exact ⟨rfl, ⟨hread, hanswers, hflushes, ingestSeq_flushWrites hflushes.2⟩, hinv.history⟩
    · cases flushed with
      | none => exact hinv.nodup
      | some flushed => exact List.nodup_cons.2 ⟨hnew, hinv.nodup⟩
    · by_cases heq : other = run
      · dsimp only
        rw [heq, hself]
        trivial
      · dsimp only
        rw [hother other heq]
        exact (hinv.sound other).of_not_isOpen (hinv.not_isOpen (Or.inr hlock) other heq) hprecedes
    · dsimp only at hmem ⊢
      by_cases heq : committed.run = run
      · rw [heq, hself]
      · rw [hother _ heq]
        rcases List.mem_append.1 hmem with hmem | hmem
        · obtain ⟨_, -, rfl⟩ := Option.map_eq_some_iff.1 (Option.mem_toList.1 hmem)
          exact absurd rfl heq
        · exact hinv.told.settled committed hmem
    · dsimp only at htold ⊢
      by_cases heq : other = run
      · rw [heq, hself] at htold
        have hover := hinv.told.failed run htold
        rw [hphase] at hover
        cases hover
      · rw [hother other heq] at htold ⊢
        exact hinv.told.failed other htold
    · dsimp only at htold ⊢
      by_cases heq : other = run
      · rw [heq, hself] at htold
        have hpast := (hinv.told.aborted run htold).2
        rw [hphase] at hpast
        cases hpast
      · rw [hother other heq] at htold ⊢
        exact hinv.told.aborted other htold

/-- **A failure** rolls the transaction back. -/
theorem inv_fail (hinv : s.Inv rt ark fresh answers initial)
    (h : step rt ark fresh answers s (.fail run) = some s') : s'.Inv rt ark fresh answers initial := by
  have hover : (s.runs run).phase ≠ .settled → (s.runs run).phase ≠ .finished →
      some { (s.setPhase run .finished).tell run .failed with
        lockedBy := if s.lockedBy = some run then none else s.lockedBy } = some s' →
      s'.Inv rt ark fresh answers initial := by
    intro hsettled hover h
    obtain rfl := Option.some.inj h
    have hset : (s.setPhase run .finished).Inv rt ark fresh answers initial :=
      hinv.setPhase trivial hsettled hover fun hpast => nomatch hpast
    have hphase : ((s.setPhase run .finished).runs run).phase = .finished := by
      simp only [IngestSystem.setPhase, Function.update_self]
    have htold : ((s.setPhase run .finished).tell run .failed).Inv rt ark fresh answers initial :=
      hset.tell (fun _ => hphase) nofun
    have hphase' : (((s.setPhase run .finished).tell run .failed).runs run).phase = .finished := by
      simp only [IngestSystem.tell, Function.update_self]
      exact hphase
    by_cases hlock : s.lockedBy = some run
    · rw [if_pos hlock]
      refine htold.setLock (htold.not_isOpen (Or.inr hlock)) ?_
      rw [hphase']
      trivial
    · rw [if_neg hlock]
      exact htold
  simp only [step] at h
  split at h
  · cases h
  · cases h
  · exact hover (by assumption) (by assumption) h

/-- **A step keeps the invariant.** -/
theorem IngestSystem.Inv.step {event : Event} (hinv : s.Inv rt ark fresh answers initial)
    (h : IngestRuns.step rt ark fresh answers s event = some s') : s'.Inv rt ark fresh answers initial := by
  cases event with
  | commit run => exact inv_commit hinv h
  | fail run => exact inv_fail hinv h
  | read run =>
    simp only [IngestRuns.step] at h
    split at h
    case h_2 => cases h
    next hphase =>
      obtain rfl := Option.some.inj h
      refine hinv.setPhase s.stored.precedes_self ?_ ?_ nofun <;> simp [hphase]
  | fetch run ranges fetchResult =>
    simp only [IngestRuns.step] at h
    split at h
    case h_2 => cases h
    next read hphase =>
      split_ifs at h with hanswers
      obtain rfl := Option.some.inj h
      have hsound := hinv.sound run
      rw [hphase] at hsound
      refine hinv.setPhase ⟨hsound, hanswers⟩ ?_ ?_ nofun <;> simp [hphase]
  | submit run =>
    simp only [IngestRuns.step] at h
    split at h
    case h_2 => cases h
    next fetched hphase =>
      obtain rfl := Option.some.inj h
      have hsound := hinv.sound run
      rw [hphase] at hsound
      refine hinv.setPhase hsound ?_ ?_ nofun <;> simp [hphase]
  | supersede run =>
    have hover : ∀ phase, (s.runs run).phase = phase → phase ≠ .settled → phase ≠ .finished →
        some (s.setPhase run .finished) = some s' → s'.Inv rt ark fresh answers initial := by
      rintro phase rfl hsettled hover h
      obtain rfl := Option.some.inj h
      exact hinv.setPhase trivial hsettled hover nofun
    simp only [IngestRuns.step] at h
    split at h
    next hphase => exact hover _ hphase nofun nofun h
    next hphase => exact hover _ hphase nofun nofun h
    next hphase => exact hover _ hphase nofun nofun h
    · cases h
  | lock run =>
    simp only [IngestRuns.step] at h
    split at h
    case h_2 => cases h
    next fetched hphase =>
      split_ifs at h with hguard
      obtain rfl := Option.some.inj h
      have hsound := hinv.sound run
      rw [hphase] at hsound
      have hlocked : { s with lockedBy := some run }.Inv rt ark fresh answers initial := by
        have hopen : ∀ other, other ≠ run → (s.runs other).phase.isOpen = false :=
          hinv.not_isOpen (Or.inl hguard.1)
        refine hinv.setLock hopen ?_
        rw [hphase]
        exact hsound
      refine hlocked.setPhase ⟨rfl, hsound.1, hsound.2⟩ ?_ ?_ nofun <;> simp [hphase]
  | compare run =>
    simp only [IngestRuns.step] at h
    split at h
    case h_2 => cases h
    next fetched hphase =>
      split_ifs at h with hguard
      obtain rfl := Option.some.inj h
      have hsound := hinv.sound run
      rw [hphase] at hsound
      obtain ⟨hlock, hprecedes, hanswers⟩ := hsound
      refine hinv.setPhase ⟨hlock, hprecedes.2 hguard.1.symm, hanswers⟩ ?_ ?_ nofun <;> simp [hphase]
  | work run recordedAt =>
    simp only [IngestRuns.step] at h
    split at h
    case h_2 => cases h
    next fetched hphase =>
      split_ifs at h with haborted
      have hsound := hinv.sound run
      rw [hphase] at hsound
      obtain ⟨hlock, hread, hanswers⟩ := hsound
      split at h
      case h_1 => cases h
      next outcome hwork =>
        split at h
        next hflushed =>
          obtain rfl := Option.some.inj h
          refine hinv.setPhase ⟨hlock, hread, hanswers, rfl⟩ ?_ ?_ fun _ => Bool.eq_false_iff.2 haborted <;>
            simp [hphase]
        next changes hflushed =>
          obtain rfl := Option.some.inj h
          refine hinv.setPhase ⟨hlock, hread, hanswers, fun final hfinal => ⟨⟨outcome, hwork, hflushed⟩, hfinal⟩⟩
            ?_ ?_ nofun <;> simp [hphase]
  | write run =>
    simp only [IngestRuns.step] at h
    split at h
    case h_3 => cases h
    next fetched changes recordedAt draft write writes hphase =>
      split_ifs at h with haborted
      obtain ⟨next, hnext, rfl⟩ := Option.map_eq_some_iff.1 h
      have hsound := hinv.sound run
      rw [hphase] at hsound
      obtain ⟨hlock, hread, hanswers, hfinal⟩ := hsound
      refine hinv.setPhase ⟨hlock, hread, hanswers, fun final hrest => hfinal final ?_⟩ ?_ ?_ nofun
      · rw [applyWrites, hnext]
        exact hrest
      · simp [hphase]
      · simp [hphase]
    next fetched changes recordedAt draft hphase =>
      split_ifs at h with haborted
      obtain rfl := Option.some.inj h
      have hsound := hinv.sound run
      rw [hphase] at hsound
      obtain ⟨hlock, hread, hanswers, hfinal⟩ := hsound
      refine hinv.setPhase ⟨hlock, hread, hanswers, hfinal draft rfl⟩ ?_ ?_ fun _ => Bool.eq_false_iff.2 haborted <;>
        simp [hphase]
  | resolve run =>
    simp only [IngestRuns.step] at h
    split at h
    case h_3 => cases h
    · obtain rfl := Option.some.inj h
      exact hinv.tell nofun nofun
    · obtain rfl := Option.some.inj h
      exact hinv.tell nofun nofun
  | abort run =>
    simp only [IngestRuns.step] at h
    split_ifs at h with haborted
    obtain rfl := Option.some.inj h
    refine hinv.setAborted.tell nofun fun htold => ⟨?_, ?_⟩
    · simp only [Function.update_self]
    · simp only [Function.update_self]
      exact Caller.aborted.inj htold
  | expire run =>
    simp only [IngestRuns.step] at h
    split_ifs at h
    obtain rfl := Option.some.inj h
    exact hinv.tell nofun nofun

end Steps

/-! ## Runs of the system -/

section Runs

variable {rt ark fresh answers} {s s' : IngestSystem} {initial : StoredSource} {events : List Event}

theorem IngestSystem.inv_initial : ({ stored := initial } : IngestSystem).Inv rt ark fresh answers initial where
  history := rfl
  nodup := List.nodup_nil
  sound _ := trivial
  told :=
    { settled := fun _ hmem => absurd hmem List.not_mem_nil
      failed := fun _ hfailed => Caller.noConfusion hfailed
      aborted := fun _ haborted => Caller.noConfusion haborted }

theorem IngestSystem.Inv.runEvents (hinv : s.Inv rt ark fresh answers initial)
    (h : IngestRuns.runEvents rt ark fresh answers s events = some s') : s'.Inv rt ark fresh answers initial := by
  induction events generalizing s with
  | nil =>
    obtain rfl := Option.some.inj h
    exact hinv
  | cons event events ih =>
    obtain ⟨next, hstep, hrun⟩ := Option.bind_eq_some_iff.1 h
    exact ih (hinv.step hstep) hrun

/-- **Ingestions of a calendar are serial**: what is stored is the history of the committed runs, each applied to
the state that it has fetched from; a run that fails, or is aborted in time, leaves it alone. -/
theorem ingestRuns_serial
    (h : runEvents rt ark fresh answers { stored := initial } events = some s) :
    s.IsSerial rt ark fresh answers initial ∧ s.LeavesAloneInTime := by
  have hinv := IngestSystem.inv_initial.runEvents h
  refine ⟨⟨hinv.history, hinv.nodup⟩, fun committed hmem => ⟨fun hfailed => ?_, fun haborted => ?_⟩⟩
  · have hover := hinv.told.failed _ hfailed
    rw [hinv.told.settled committed hmem] at hover
    cases hover
  · have hpast := (hinv.told.aborted _ haborted).2
    rw [hinv.told.settled committed hmem] at hpast
    cases hpast

end Runs

/-! ## Two runs -/

def tokenOnly : StoredSource where
  source :=
    { calendar :=
        { id := "calendar"
          ingestFutureRange := SyncRange.oneWeek.value
          ingestHistoricRange := SyncRange.oneWeek.value
          ingestWindowEnd := some 1
          ingestWindowRecordedAt := some 0
          ingestWindowStart := some 0
          syncToken := some "token" }
      table := [] }

def weekRanges : RequiredSourceRanges := ⟨.oneWeek, .oneWeek⟩

def forgetsToken (token : Option String) (fetchResult : FetchEventsResult) : Bool :=
  token = some "token" && fetchResult.fullSyncRequired = some true

def tokenExpired : FetchEventsResult where
  events := []
  fullSyncRequired := some true

/-- A run flushes; another one, that has read its source before, finds its baseline moved. -/
def movedBaseline : List Event :=
  [.read 0, .read 1, .fetch 0 weekRanges tokenExpired, .submit 0, .lock 0, .compare 0, .work 0 0, .write 0,
    .write 0, .write 0, .commit 0, .resolve 0, .fetch 1 weekRanges tokenExpired, .submit 1, .lock 1, .fail 1]

theorem ingestRuns_serial_movedBaseline :
    ∃ s, runEvents Example.ingestRuntime Example.arktype (fun _ => "") forgetsToken { stored := tokenOnly }
        movedBaseline = some s ∧
      s.stored.ingestSeq = 1 ∧
      s.IsSerial Example.ingestRuntime Example.arktype (fun _ => "") forgetsToken tokenOnly ∧
        s.LeavesAloneInTime :=
  ⟨_, rfl, rfl, @ingestRuns_serial _ _ _ _ _ _ movedBaseline rfl⟩

/-- The deadline of a run passes once it has committed. -/
def lateAbort : List Event :=
  [.read 0, .fetch 0 weekRanges tokenExpired, .submit 0, .lock 0, .compare 0, .work 0 0, .write 0, .write 0,
    .write 0, .commit 0, .abort 0]

/-- A run whose deadline passes once it has committed throws, and has advanced what is stored. -/
theorem not_ingestRuns_leavesAlone :
    ¬ ∀ (rt : Runtime) (ark : Arktype) (fresh : List String → String)
      (answers : Option String → FetchEventsResult → Bool) (initial : StoredSource) (events : List Event)
      (s : IngestSystem), runEvents rt ark fresh answers { stored := initial } events = some s →
        s.IsSerial rt ark fresh answers initial ∧ s.LeavesAlone := by
  intro h
  obtain ⟨s, hrun, committed, hmem, hthrown⟩ :
      ∃ s, runEvents Example.ingestRuntime Example.arktype (fun _ => "") forgetsToken { stored := tokenOnly }
        lateAbort = some s ∧ ∃ committed ∈ s.log, (s.runs committed.run).caller.HasThrown :=
    ⟨_, rfl, _, List.mem_cons_self, by decide, by decide⟩
  exact (h _ _ _ _ _ _ s hrun).2 committed hmem hthrown

end IngestRuns

end Keeper
