import Keeper.Engine.InStep
import Keeper.Engine.KeyedCalendar

/-!
# Reconciliation converges

Runs with the same local events and scope, from a sound replica at a faithful destination, come to
rest. The first run leaves rows that are requested and have exact copies, and sweeps every orphan
but those that share a uid with a copy that it wrote; the second writes none of these uids, adds
what the first retired, and leaves a replica whose plan is empty.

* `Outcome.clean`: what one run leaves.
* `Clean.settled`: what the second run leaves.
* `reconcile_converges`: from the third run on every plan is empty.
* `reconcile_not_converges`: uids must tell events apart, and delete identifiers copies.
-/

namespace Keeper

section Convergence

variable {W : Type} {x : Setting W} {s s' : Replica W} {log : Log} {run : Run W}

/-! ## After the first run -/

/-- A replica that a run has left: its rows are requested, have a covered event unless they are
withheld, and a copy under their delete identifier; an orphan has the uid of a row in step. -/
structure Clean (x : Setting W) (s : Replica W) : Prop where
  requested : ∀ m ∈ s.mappings, x.scope.requests m.range = true
  mapped : ∀ m ∈ s.mappings, x.coversRow m = true → x.scope.withholds m = false →
    ∃ e ∈ x.covered, m.syncEventId = e.id
  copies : ∀ m ∈ s.mappings, x.coversRow m = true → ∀ e ∈ x.covered, m.syncEventId = e.id →
    HasCopy x s m
  shielded : ∀ c, Sweepable x s c → ∃ m ∈ s.mappings, c.uid = m.destinationEventUid ∧
    ∃ e ∈ x.covered, m.syncEventId = e.id ∧ InStep x s m e

theorem requests_of_covered (hx : x.Regular) {e : MaterializedSyncableEvent} (he : e ∈ x.covered)
    {range : EventTimeRange} (hstart : range.startTime = e.startTime)
    (hend : range.endTime = e.endTime) : x.scope.requests range = true := by
  have hcov := (List.mem_filter.1 he).2
  have hrange : range = e.range := by
    cases range
    simp_all [MaterializedSyncableEvent.range]
  rw [hrange]
  exact hx.bounded.requested_overlaps hcov

/-- A row after a run is one that the run left as it was, or has a covered event and its times. -/
theorem Outcome.untouched_or_covered (hs : x.Sound s.mappings)
    (ho : Outcome x s log run s') {m' : EventMapping} (hm' : m' ∈ s'.mappings) :
    Untouched x s log m' ∨ ∃ e ∈ x.covered, m'.syncEventId = e.id ∧ m'.startTime = e.startTime ∧
      m'.endTime = e.endTime := by
  rcases ho.rows m' hm' with ⟨m, hm, hk, hkeeps⟩ | ⟨item, hitem, id, rfl⟩
  · cases hkeeps with
    | same hedited hupdated => exact Or.inl ⟨⟨hm, hk, hedited⟩, hupdated⟩
    | edited item hitem hr => exact Or.inr ⟨item.1.event, hr.takes.event, rfl, rfl, rfl⟩
    | updated u e c hu hup =>
      rw [hup.update]
      exact Or.inr ⟨e, hup.takes.event, rfl, rfl, rfl⟩
  · exact Or.inr ⟨item.1, (ho.logged.pushed hs hitem).1, rfl, rfl, rfl⟩

/-- **One run leaves a clean replica.** -/
theorem Outcome.clean (hx : x.Regular) (hs : x.Sound s.mappings) (ho : Outcome x s log run s') :
    Clean x s' where
  requested m hm := by
    rcases ho.untouched_or_covered hs hm with hun | ⟨e, he, -, hstart, hend⟩
    · have hret := hun.retiresMapping hx hs ho.logged
      simp only [retiresMapping, Bool.or_eq_false_iff, Bool.not_eq_false'] at hret
      exact hret.1
    · exact requests_of_covered hx he hstart hend
  mapped m hm hcov hwith := by
    rcases ho.untouched_or_covered hs hm with hun | ⟨e, he, hid, -⟩
    · have hret := hun.retiresMapping hx hs ho.logged
      simp only [retiresMapping, Bool.or_eq_false_iff] at hret
      have hlocal : m.syncEventId ∈ (x.reconciliation s).localEventIds := by
        simpa [show isInsideSourceAuthoritativeWindow m.range m.sourceCalendarId x.scope = true from
          hcov, hwith] using hret.2
      obtain ⟨e, he, hid⟩ := mem_localEventIds_reconciliation.1 hlocal
      exact ⟨e, he, hid.symm⟩
    · exact ⟨e, he, hid⟩
  copies m hm hcov e he hid := by
    rcases ho.row_cases hx hs hm he hid hcov with h | ⟨h, -⟩
    · exact h.hasCopy
    · exact h
  shielded c hc := by
    obtain ⟨-, st, hst, hu⟩ := ho.sweepable_before hx hs (ho.sound hx hs) hc
    obtain ⟨m, hm, hmu, -, e, he, hid, hstep⟩ := ho.exists_row_of_stored hx hs hst
    exact ⟨m, hm, hu.symm.trans hmu.symm, e, he, hid, hstep⟩

/-! ## After the second run -/

/-- A replica at rest: clean, with a row for each covered event, the covered rows in step and no
orphans. -/
structure Settled (x : Setting W) (s : Replica W) : Prop extends Clean x s where
  complete : ∀ e ∈ x.covered, ∃ m ∈ s.mappings, m.syncEventId = e.id
  inStep : ∀ m ∈ s.mappings, x.coversRow m = true → ∀ e ∈ x.covered, m.syncEventId = e.id →
    InStep x s m e
  noOrphans : ∀ c, ¬ Sweepable x s c

namespace Clean

variable {m : EventMapping} {e : MaterializedSyncableEvent}

theorem not_retired (h : Clean x s) (hm : m ∈ s.mappings) :
    retiresMapping (x.reconciliation s).localEventIds x.scope m = false := by
  have hlocal : ∀ e ∈ x.covered, m.syncEventId = e.id →
      m.syncEventId ∈ (x.reconciliation s).localEventIds := fun e he hid =>
    mem_localEventIds_reconciliation.2 ⟨e, he, hid.symm⟩
  cases hcov : x.coversRow m with
  | false =>
    simp [retiresMapping, h.requested m hm,
      show isInsideSourceAuthoritativeWindow m.range m.sourceCalendarId x.scope = false from hcov]
  | true =>
    cases hwith : x.scope.withholds m with
    | true => simp [retiresMapping, h.requested m hm, hwith]
    | false =>
      obtain ⟨e, he, hid⟩ := h.mapped m hm hcov hwith
      simp [retiresMapping, h.requested m hm, hlocal e he hid]

theorem not_mem_retired (h : Clean x s) : m ∉ (x.reconciliation s).retiredMappings := by
  intro hret
  obtain ⟨hm, -, ht⟩ := Reconciliation.mem_retiredMappings.1 hret
  have hno := h.not_retired hm
  rw [show Keeper.retiresMapping (x.reconciliation s).localEventIds x.scope m = true from ht] at hno
  cases hno

theorem not_repairsLegacy (hs : x.Sound s.mappings) (h : Clean x s) (hm : m ∈ s.mappings) (he : e ∈ x.covered)
    (hid : m.syncEventId = e.id) {c : RemoteEvent} : ¬ RepairsLegacy x s m c := by
  rintro ⟨hstd, hmatch, hd⟩
  have hcov := (Reconciliation.mem_activeMappings.1 (Reconciliation.mem_standardMappings.1 hstd).1).2
  obtain ⟨c', hmatch', hd'⟩ := (h.copies m hm hcov e he hid).exists_match hs hm
  obtain rfl : c = c' := Option.some.inj (hmatch.symm.trans hmatch')
  exact hd hd'

theorem not_replaced_of_inStep (hx : x.Regular) (hs : x.Sound s.mappings) (he : e ∈ x.covered)
    (hid : m.syncEventId = e.id) (hstep : InStep x s m e) {op : ReplaceOperation} : ¬ Replaces x s op m := by
  intro hr
  obtain ⟨c, hc, hu, hd, hreflects⟩ := hstep.copy
  have hm := hr.takes.mapping
  have hmatch := (get?_remoteEventsByMappingId hs hm).trans (match_of_exact hc hu hd)
  have hl : (x.reconciliation s).localEventsById.get? m.syncEventId = some e :=
    hid ▸ (Reconciliation.get?_localEventsById (hx.wellFormed hs)).2 he
  have hlid := Reconciliation.localEventsById_isSome_iff.1 ⟨e, hl⟩
  rcases hr.reason with ⟨hst, -⟩ | hp
  · have hnone : (x.reconciliation s).staleReason m = none := by
      refine (staleReason_eq_none_iff hlid hl).2 ?_
      rw [hmatch]
      exact ⟨hstep.hash, hreflects⟩
    have hsome := (Reconciliation.mem_staleRemoteMappings.1 hst).2
    rw [hnone] at hsome
    cases hsome
  · exact (Reconciliation.isReassignment_of_mem
      (Reconciliation.mem_remoteReassignments.1 hp).1).missing hlid

theorem complete_after (hx : x.Regular) (hs : x.Sound s.mappings) (h : Clean x s) (ho : Outcome x s log run s')
    (he : e ∈ x.covered) : ∃ m ∈ s'.mappings, m.syncEventId = e.id := by
  have hlog := ho.logged
  have hpushed : ∀ item ∈ log.pushed, item.1.id = e.id → ∃ m ∈ s'.mappings, m.syncEventId = e.id := by
    intro item hitem hid
    obtain ⟨id, hm⟩ := ho.pushed item hitem
    exact ⟨_, hm, hid⟩
  by_cases hmapped : ∃ m ∈ s.mappings, m.syncEventId = e.id
  · obtain ⟨m, hm, hid⟩ := hmapped
    by_cases hk : m.id ∈ log.deleted s
    · rcases (hlog.mem_deleted hx hs hm).1 hk with ⟨hret, -⟩ | ⟨item, hitem, hr⟩
      · exact absurd hret h.not_mem_retired
      · refine hpushed (item.1.event, item.2)
          (List.mem_append_left _ (List.mem_map_of_mem hitem)) ?_
        rcases hr.takes.link with hl | ⟨-, hgone⟩
        · exact hl.symm.trans hid
        · exact absurd hid.symm (hgone e he)
    · obtain ⟨m', hm', hkeeps⟩ := ho.kept m hm hk
      refine ⟨m', hm', ?_⟩
      rcases hkeeps.cases with heq | ⟨e', ht, hid', -⟩
      · rw [heq]
        exact hid
      · rcases ht.link with hl | ⟨-, hgone⟩
        · exact hid'.trans (hl.symm.trans hid)
        · exact absurd hid.symm (hgone e he)
  · have hnew : ∀ m ∈ s.mappings, m.syncEventId ≠ e.id := fun m hm hid => hmapped ⟨m, hm, hid⟩
    have hsubject := Reconciliation.mem_subjects_of_unmapped (hx.wellFormed hs) he hnew
    rcases List.mem_append.1 hsubject with hop | hu
    · obtain ⟨op, hop, hid⟩ := List.mem_filterMap.1 hop
      rcases Log.mem_operations.1 (hlog.mem_plan.1 hop) with ⟨o, -, rfl⟩ | ⟨o, -, rfl⟩ |
        ⟨item, hitem, rfl⟩ | ⟨item, hitem, rfl⟩ | ⟨item, hitem, rfl⟩
      · cases hid
      · cases hid
      · obtain ⟨m, hr⟩ := hlog.edited hitem
        exact ⟨_, ho.edited_row hx hs hitem hr, Option.some.inj hid⟩
      · exact hpushed (item.1.event, item.2)
          (List.mem_append_left _ (List.mem_map_of_mem hitem)) (Option.some.inj hid)
      · exact hpushed (item.1.event, item.2)
          (List.mem_append_right _ (List.mem_map_of_mem hitem)) (Option.some.inj hid)
    · obtain ⟨u, hu, hid⟩ := List.mem_map.1 hu
      obtain ⟨m, e', c, hup⟩ := exists_updates hu
      have hmid : u.id = m.id := by rw [hup.update]; rfl
      exact ⟨_, ho.updated_row hx hs hu hup.takes.mapping hmid, hid⟩

/-- **The second run leaves a settled replica.** -/
theorem settled (hx : x.Regular) (hs : x.Sound s.mappings) (h : Clean x s)
    (ho : Outcome x s log run s') : Settled x s' where
  toClean := ho.clean hx hs
  complete e he := h.complete_after hx hs ho he
  inStep m' hm' hcov e he hid := by
    rcases ho.row_cases hx hs hm' he hid hcov with hstep | ⟨-, m, hm, hmid, c, hrep⟩
    · exact hstep
    · exact absurd hrep (h.not_repairsLegacy hs hm he hmid)
  noOrphans c hc := by
    obtain ⟨hbefore, st, hst, hu⟩ := ho.sweepable_before hx hs (ho.sound hx hs) hc
    obtain ⟨m, hm, hcu, e, he, hid, hstep⟩ := h.shielded c hbefore
    rcases ho.logged.exists_replaces_of_stored hs hst hm (hu.trans hcu) with
      ⟨item, -, hr⟩ | ⟨item, -, hr⟩ <;>
      exact not_replaced_of_inStep hx hs he hid hstep hr

end Clean

namespace Settled

theorem occurrenceReassignments (h : Settled x s) :
    (x.reconciliation s).occurrenceReassignments = [] := by
  refine List.eq_nil_iff_forall_not_mem.2 fun p hp => ?_
  have hr := Reconciliation.isReassignment_of_mem hp
  obtain ⟨m, hm, hid⟩ := h.complete p.event hr.event
  exact hr.new m hm hid

theorem staleRemoteMappings (hx : x.Regular) (hs : x.Sound s.mappings) (h : Settled x s) :
    (x.reconciliation s).staleRemoteMappings = [] := by
  refine List.eq_nil_iff_forall_not_mem.2 fun m hm => ?_
  obtain ⟨e, hl⟩ := Reconciliation.event_of_stale hm
  obtain ⟨he, hid⟩ := Reconciliation.localEventsById_some hl
  have hact := Reconciliation.mem_activeMappings.1
    (Reconciliation.mem_standardMappings.1 (Reconciliation.mem_staleRemoteMappings.1 hm).1).1
  have hstep := h.inStep m hact.1 hact.2 e he hid.symm
  let op : ReplaceOperation :=
    { event := e
      staleMappingId := m.id
      uid := m.destinationEventUid
      deleteId := resolveMappingDeleteId m (x.reconciliation s).remoteEventsByMappingId }
  have hr : Replaces x s op m :=
    ⟨⟨hact.1, he, Or.inl hid.symm⟩, rfl, rfl, rfl, Or.inl ⟨hm, hid.symm⟩⟩
  exact Clean.not_replaced_of_inStep hx hs he hid.symm hstep hr

/-- **The plan of a settled replica asks for nothing.** -/
theorem quiet (hx : x.Regular) (hs : x.Sound s.mappings) (h : Settled x s) :
    (x.reconciliation s).Quiet where
  operations := by
    refine List.eq_nil_iff_forall_not_mem.2 fun op hop => ?_
    rcases Reconciliation.mem_unsortedOperations_iff.1 hop with hop | hop | hop | hop
    · obtain ⟨e, he, -, hnew, -⟩ := Reconciliation.mem_addOperations_iff.1 hop
      obtain ⟨m, hm, hid⟩ := h.complete e he
      exact hnew m hm hid
    · rcases Reconciliation.mem_removeOperations_iff.1 hop with ⟨m, hm, hr, hret, -⟩ | ⟨c, hc, hsw, -⟩
      · exact h.not_mem_retired (Reconciliation.mem_retiredMappings.2 ⟨hm, hr, hret⟩)
      · exact h.noOrphans c ⟨hc, hsw⟩
    · obtain ⟨m, hm, -⟩ := Reconciliation.mem_replacementOperations_iff.1 hop
      rw [h.staleRemoteMappings hx hs] at hm
      cases hm
    · obtain ⟨p, hp, -⟩ := Reconciliation.mem_reassignmentOperations_iff.1 hop
      have hp := (Reconciliation.mem_remoteReassignments.1 hp).1
      rw [h.occurrenceReassignments] at hp
      cases hp
  updates := by
    refine List.eq_nil_iff_forall_not_mem.2 fun u hu => ?_
    obtain ⟨m, e, c, hup⟩ := exists_updates (mem_mappingUpdates.2 hu)
    rcases hup.reason with ⟨hstd, -, hid, -, hd⟩ | hp
    · exact h.not_repairsLegacy hs hup.takes.mapping hup.takes.event hid ⟨hstd, hup.copy, hd⟩
    · have hp := (Reconciliation.mem_databaseOnlyReassignments.1 hp).1
      rw [h.occurrenceReassignments] at hp
      cases hp

end Settled

/-! ## All runs -/

theorem exists_settled (hx : x.Regular) (hs : x.Sound s.mappings) (n : ℕ) :
    ∃ s', x.reconcileTimes s n = some s' ∧ x.Sound s'.mappings ∧ (1 ≤ n → Clean x s') ∧
      (2 ≤ n → Settled x s') := by
  induction n with
  | zero => exact ⟨s, rfl, hs, by omega, by omega⟩
  | succ n ih =>
    obtain ⟨s₁, htimes, hs₁, hclean, hsettled⟩ := ih
    obtain ⟨log, run, s₂, hrun, ho⟩ := exists_outcome hx hs₁
    refine ⟨s₂, ?_, ho.sound hx hs₁, fun _ => ho.clean hx hs₁, fun hn => ?_⟩
    · rw [Setting.reconcileTimes, htimes]
      exact hrun
    · exact (hclean (by omega)).settled hx hs₁ ho

end Convergence

def Setting.knownEventIds {W : Type} (x : Setting W) (mappings : List EventMapping) :
    List String :=
  x.covered.map (·.id) ++ mappings.map (·.syncEventId)

theorem sound_of_uids {W : Type} {x : Setting W} {mappings : List EventMapping}
    (hmid : (mappings.map (·.id)).Nodup) (hmne : ∀ m ∈ mappings, m.id ≠ "")
    (hsid : (mappings.map (·.syncEventId)).Nodup)
    (huid : ∀ m ∈ mappings, m.destinationEventUid = x.destination.uid m.syncEventId)
    (hinj : ∀ id ∈ x.knownEventIds mappings, ∀ id' ∈ x.knownEventIds mappings,
      x.destination.uid id = x.destination.uid id' → id = id')
    (hnul : ∀ m ∈ mappings, NulFree m.destinationEventUid)
    (hnamed : ∀ m ∈ mappings, x.destination.uidOf m.deleteIdentifier = m.destinationEventUid) :
    x.Sound mappings where
  ids := hmid
  ids_ne := hmne
  events := hsid
  uids := by
    have hrow : ∀ m ∈ mappings, m.syncEventId ∈ x.knownEventIds mappings := fun m hm =>
      List.mem_append_right _ (List.mem_map_of_mem hm)
    refine List.pairwise_map.2 ((List.pairwise_map.1 hsid).imp_of_mem ?_)
    intro m m' hm hm' hne heq
    rw [huid m hm, huid m' hm'] at heq
    exact hne (hinj _ (hrow m hm) _ (hrow m' hm') heq)
  nulFree := hnul
  named := hnamed
  own m hm e he hu := by
    rw [huid m hm] at hu
    exact hinj _ (List.mem_append_right _ (List.mem_map_of_mem hm)) _
      (List.mem_append_left _ (List.mem_map_of_mem he)) hu

/-- **Reconciliation converges.** Every run succeeds, and from the third run on the plan is empty:
at a faithful destination whose uids tell the events apart, with distinct event ids, a full read
with authoritative windows inside the requested one, and rows of distinct ids and events that have
the uids of their events and delete identifiers that name these. -/
theorem reconcile_converges {W : Type} (x : Setting W) (s : Replica W)
    (hd : x.destination.Faithful) (heid : (x.localEvents.map (·.id)).Nodup)
    (hscope : x.scope.Bounded) (hfull : x.scope.authoritativeMappingIds = none)
    (hmid : (s.mappings.map (·.id)).Nodup) (hmne : ∀ m ∈ s.mappings, m.id ≠ "")
    (hsid : (s.mappings.map (·.syncEventId)).Nodup)
    (huid : ∀ m ∈ s.mappings, m.destinationEventUid = x.destination.uid m.syncEventId)
    (hinj : ∀ id ∈ x.knownEventIds s.mappings, ∀ id' ∈ x.knownEventIds s.mappings,
      x.destination.uid id = x.destination.uid id' → id = id')
    (hnul : ∀ m ∈ s.mappings, NulFree m.destinationEventUid)
    (hnamed : ∀ m ∈ s.mappings, x.destination.uidOf m.deleteIdentifier = m.destinationEventUid) :
    ∀ n, ∃ s', x.reconcileTimes s n = some s' ∧ (2 ≤ n → (x.plan s').IsEmpty) := by
  intro n
  have hcovered : ∀ e ∈ x.covered, e.id ∈ x.knownEventIds s.mappings := fun e he =>
    List.mem_append_left _ (List.mem_map_of_mem he)
  have hx : x.Regular :=
    ⟨hd, fun e he e' he' h => hinj _ (hcovered e he) _ (hcovered e' he') h, heid, hscope, hfull⟩
  obtain ⟨s', htimes, hs', -, hsettled⟩ :=
    exists_settled hx (sound_of_uids hmid hmne hsid huid hinj hnul hnamed) n
  exact ⟨s', htimes, fun hn => quiet_iff_isEmpty.1 ((hsettled hn).quiet hx hs')⟩

namespace Example

def stripNul (s : String) : String := String.ofList (s.toList.filter (· ≠ '\u0000'))

theorem nulFree_stripNul (s : String) : NulFree (stripNul s) := by
  simp [NulFree, stripNul]

theorem stripNul_of_nulFree {s : String} (h : NulFree s) : stripNul s = s := by
  have hf : s.toList.filter (· ≠ '\u0000') = s.toList := by
    refine List.filter_eq_self.2 fun c hc => ?_
    rw [decide_eq_true_eq]
    rintro rfl
    exact h hc
  rw [stripNul, hf, String.ofList_toList]

/-- Uids that name their events, which are also the delete identifiers. -/
def ownNames : CopyNames where
  uid id := "copy-" ++ stripNul id
  deleteIdOf := id
  uidOf := stripNul
  edits := true
  uid_nulFree id := by
    have h := nulFree_stripNul id
    simpa [NulFree] using h
  uidOf_nulFree := nulFree_stripNul
  uidOf_deleteIdOf _ _ h := stripNul_of_nulFree h

theorem ownNames_uid_ne (id : String) : ownNames.uid id ≠ "" := by
  intro h
  have hlength := congrArg String.length h
  rw [show ownNames.uid id = "copy-" ++ stripNul id from rfl, String.length_append] at hlength
  have hprefix : "copy-".length = 5 := by decide
  have hempty : "".length = 0 := by decide
  omega

/-- Uids that name their events, over one delete identifier for all copies. -/
def sharedDeleteId : CopyNames where
  uid := ownNames.uid
  deleteIdOf _ := "d"
  uidOf _ := ""
  edits := false
  uid_nulFree := ownNames.uid_nulFree
  uidOf_nulFree _ := by decide
  uidOf_deleteIdOf h := by cases h

def sharedUid : CopyNames where
  uid _ := "u"
  deleteIdOf := id
  uidOf := stripNul
  edits := true
  uid_nulFree _ := by decide
  uidOf_nulFree := nulFree_stripNul
  uidOf_deleteIdOf _ _ h := stripNul_of_nulFree h

/-- A text longer than those given. -/
def freshId (ids : List String) : String := ids.foldr (· ++ ·) "m"

theorem length_freshId_pos (ids : List String) : 0 < (freshId ids).length := by
  induction ids with
  | nil => decide
  | cons id ids ih =>
    rw [freshId, List.foldr_cons, ← freshId, String.length_append]
    omega

theorem length_lt_freshId {ids : List String} {id : String} (h : id ∈ ids) :
    id.length < (freshId ids).length := by
  induction ids with
  | nil => cases h
  | cons id' ids ih =>
    have hpos := length_freshId_pos ids
    rw [freshId, List.foldr_cons, ← freshId, String.length_append]
    rcases List.mem_cons.1 h with rfl | h
    · omega
    · have := ih h
      omega

/-- A database whose new ids are longer than those it holds. -/
def database : Database where
  newId rows := freshId (rows.map (·.id))
  newId_fresh rows h := Nat.lt_irrefl _ (length_lt_freshId h)
  newId_ne rows h := by
    have hpos := length_freshId_pos (rows.map (·.id))
    rw [h] at hpos
    exact Nat.lt_irrefl 0 hpos
  survives _ := true

def tenSeconds : ReconciliationScope where
  authoritativeWindow := some ⟨0, 10000⟩
  requestedWindow := ⟨0, 10000⟩

theorem tenSeconds_bounded : tenSeconds.Bounded where
  aggregate w hw := by
    obtain rfl := Option.some.inj hw
    decide
  source windows h := by cases h

def setting (names : CopyNames) : Setting (KeyedCalendar names) where
  host
  destination := KeyedCalendar.destination host names
  db := database
  calendarId := "destination"
  localEvents := [event "a" 0, event "b" 5000]
  scope := tenSeconds

def noCopies (names : CopyNames) : KeyedCalendar names where
  copies := []
  nodup := List.nodup_nil
  deleteId c h := by cases h
  nulFree c h := by cases h

def bothCopies (names : CopyNames) : KeyedCalendar names :=
  KeyedCalendar.put host "copy-b" (event "b" 5000) (by decide)
    (KeyedCalendar.put host "copy-a" (event "a" 0) (by decide) (noCopies names))

def staleRows : List EventMapping :=
  [mapping "m" "a" "copy-a" "copy-a" 0, mapping "n" "c" "copy-c" "copy-c" 100]

/-- A row without a hash, and a row in step with a copy of the same delete identifier. -/
def sharedRows : List EventMapping :=
  [mapping "m" "a" "copy-a" "d" 0,
    { mapping "n" "b" "copy-b" "d" 5000 with
      syncEventHash := some (createSyncEventContentHash host (event "b" 5000)) }]

end Example

/-- The theorem at a row without a hash, a row whose event is gone and two copies. -/
theorem reconcile_converges_example :
    ∃ s', (Example.setting Example.ownNames).reconcileTimes
        ⟨Example.staleRows, Example.bothCopies _⟩ 2 = some s' ∧
      (2 ≤ 2 → ((Example.setting Example.ownNames).plan s').IsEmpty) :=
  reconcile_converges (Example.setting Example.ownNames) ⟨Example.staleRows, Example.bothCopies _⟩
    (KeyedCalendar.faithful Example.host Example.ownNames Example.ownNames_uid_ne
      fun _ h => Example.stripNul_of_nulFree h)
    (by decide) Example.tenSeconds_bounded rfl (by decide) (by decide) (by decide) (by decide)
    (by decide) (by decide) (by decide) 2

/-- The third plan from a replica is empty. -/
def Setting.RestsFrom {W : Type} (x : Setting W) (s : Replica W) : Prop :=
  ∃ s', x.reconcileTimes s 2 = some s' ∧ (x.plan s').IsEmpty

theorem Setting.not_restsFrom {W : Type} {x : Setting W} {s : Replica W}
    (h : (x.reconcileTimes s 2).map (fun s' => decide (x.plan s').IsEmpty) = some false) :
    ¬ x.RestsFrom s := by
  rintro ⟨s', htimes, hempty⟩
  rw [htimes] at h
  exact of_decide_eq_false (Option.some.inj h) hempty

/-- **Uids must tell events apart, and delete identifiers copies.** A calendar with one uid for all
events keeps the copy of one of two events, and each run replaces it by that of the other. At a
calendar with one delete identifier for all copies the replacement of one copy deletes the other,
which the next run replaces. -/
theorem reconcile_not_converges :
    ((Example.setting Example.sharedUid).localEvents.map (·.id)).Nodup ∧
      Example.tenSeconds.Bounded ∧ Example.tenSeconds.authoritativeMappingIds = none ∧
      ¬ (Example.setting Example.sharedUid).RestsFrom ⟨[], Example.noCopies _⟩ ∧
      (Example.sharedRows.map (·.id)).Nodup ∧ (Example.sharedRows.map (·.syncEventId)).Nodup ∧
      (Example.sharedRows.map (·.identity)).Nodup ∧
      (∀ m ∈ Example.sharedRows,
        m.destinationEventUid = Example.sharedDeleteId.uid m.syncEventId) ∧
      ¬ (Example.setting Example.sharedDeleteId).RestsFrom
        ⟨Example.sharedRows, Example.bothCopies _⟩ :=
  ⟨by decide, Example.tenSeconds_bounded, rfl, Setting.not_restsFrom (by decide), by decide,
    by decide, by decide, by decide, Setting.not_restsFrom (by decide)⟩

end Keeper
