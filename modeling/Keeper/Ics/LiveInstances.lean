import Keeper.Ics.KeptRevisions
import Keeper.Ics.UidClasses
import Keeper.Ics.WithheldEvents

/-!
# Live instances

Which instances of a calendar have an entry: the events and series by their uids, and the overrides
by uid and recurrence id. A master whose uid has the mark of a slot in it is compared with itself and
dropped.

* `liveInstances_iff`: an instance that is not cancelled has its newest revision as an entry exactly
  when the reader returns and one of its canonical revisions has a start.
* `emits_of_isUnmarked`: this is so for every live instance of a calendar of VEVENTs with starts whose uids
  are without the mark.
-/

namespace Keeper

open JsArray

/-! ## Instances -/

/-- An event bears STATUS, SEQUENCE or LAST-MODIFIED. -/
def bearsRevision (event : IcsEvent) : Bool :=
  (truthy event.status).isSome || event.sequence.isSome || event.lastModified.isSome

structure IsMasterOf (uid : String) (event : IcsEvent) : Prop where
  uid : truthy event.uid = some uid
  recurrenceId : event.recurrenceId = none

structure IsOverrideOf (uid : String) (date : ℤ) (event : IcsEvent) : Prop where
  uid : truthy event.uid = some uid
  recurrenceId : event.recurrenceId.map (·.value.date) = some (some date)

section Emission

variable (zones : Zones) (options : ParseIcsEventsOptions) (rawEvents : List IcsEvent)

/-- The uid has an entry that is no override, and none that is older than the newest buildable
revision with STATUS, SEQUENCE or LAST-MODIFIED. -/
def EmitsMaster (uid : String) : Prop :=
  ∃ result, parseIcsEventsWithDiagnostics zones options rawEvents = .ok result ∧
    (∃ slot ∈ result.events, slot.uid = uid ∧ slot.recurrenceId = none) ∧
    ∀ slot ∈ result.events, slot.uid = uid → slot.recurrenceId = none →
      ∃ event ∈ buildableEvents zones rawEvents, IsMasterOf uid event ∧ IsSlotOf zones event slot ∧
        ∀ other ∈ buildableEvents zones rawEvents, IsMasterOf uid other →
          bearsRevision other = true → isNewerEventRevision other event = false

/-- The override has one entry, of a newest buildable revision. -/
def EmitsOverride (uid : String) (date : ℤ) : Prop :=
  ∃ result, parseIcsEventsWithDiagnostics zones options rawEvents = .ok result ∧
    ∃ slot, result.events.filter (fun slot => slot.uid = uid && slot.recurrenceId = some date) =
        [slot] ∧
      ∃ event ∈ buildableEvents zones rawEvents, IsOverrideOf uid date event ∧
        IsSlotOf zones event slot ∧
        ∀ other ∈ buildableEvents zones rawEvents, IsOverrideOf uid date other →
          isNewerEventRevision other event = false

variable {zones options rawEvents} {event : IcsEvent} {uid : String} {date : ℤ}

theorem identity_of_bearsRevision (h : IsMasterOf uid event) (hbears : bearsRevision event = true) :
    buildEventRevisionIdentity zones event = some (masterIdentity uid) := by
  unfold buildEventRevisionIdentity
  rw [h.uid, h.recurrenceId]
  exact if_pos hbears

theorem identity_of_isOverrideOf (h : IsOverrideOf uid date event) :
    buildEventRevisionIdentity zones event = some (buildRecurrenceIdentity uid (some date)) := by
  obtain ⟨recurrenceId, hrec, hdate⟩ := Option.map_eq_some_iff.1 h.recurrenceId
  unfold buildEventRevisionIdentity
  rw [h.uid, hrec]
  exact congrArg (fun date => some (buildRecurrenceIdentity uid date)) hdate

/-- The identity of an event that is no override, and bears no revision, has the mark of a slot. -/
theorem includesSlotMark_of_not_bearsRevision (h : IsMasterOf uid event)
    (hbears : bearsRevision event = false) {identity : String}
    (hidentity : buildEventRevisionIdentity zones event = some identity) :
    includesSlotMark identity = true := by
  unfold buildEventRevisionIdentity at hidentity
  rw [h.uid, h.recurrenceId] at hidentity
  have hslot : (event.start.map fun start => uid ++ "|slot|" ++ isoText start.date ++ "|" ++
      isoText (getEventEndTime zones event start)) = some identity :=
    (if_neg (ne_true_of_eq_false hbears)).symm.trans hidentity
  obtain ⟨start, -, rfl⟩ := Option.map_eq_some_iff.1 hslot
  refine decide_eq_true ⟨uid.toList, (isoText start.date).toList ++ "|".toList ++
    (isoText (getEventEndTime zones event start)).toList, ?_⟩
  simp only [String.toList_append, List.append_assoc]

theorem not_newer_of_not_replaces {candidate winner : IcsEvent}
    (h : replacesWinner candidate winner ≠ true) : isNewerEventRevision candidate winner = false := by
  refine Bool.eq_false_iff.2 fun hnewer => h ?_
  rw [replacesWinner, Bool.or_eq_true]
  exact Or.inl hnewer

theorem isNewerEventRevision_trans {a b c : IcsEvent} (ha : HasRevisionTime a)
    (hb : HasRevisionTime b) (hc : HasRevisionTime c) (hab : isNewerEventRevision a b = true)
    (hcb : isNewerEventRevision c b = false) : isNewerEventRevision c a = false := by
  rw [isNewerEventRevision_iff_lt ha hb] at hab
  refine Bool.eq_false_iff.2 fun hca => ne_true_of_eq_false hcb ?_
  rw [isNewerEventRevision_iff_lt hc ha] at hca
  exact (isNewerEventRevision_iff_lt hc hb).2 (hab.trans hca)

/-! ## Canonical revisions are the newest -/

theorem hasRevisionTime_of_mem (htimes : ∀ e ∈ rawEvents, HasRevisionTime e) :
    ∀ e ∈ buildableEvents zones rawEvents, HasRevisionTime e :=
  fun e he => htimes e (List.mem_filter.1 he).1

/-- **A canonical event** is not older than a revision with STATUS, SEQUENCE or LAST-MODIFIED. -/
theorem IsCanonical.newest_master (htimes : ∀ e ∈ rawEvents, HasRevisionTime e)
    (h : IsCanonical zones rawEvents event) (hevent : IsMasterOf uid event) {other : IcsEvent}
    (hmem : other ∈ buildableEvents zones rawEvents) (hother : IsMasterOf uid other)
    (hbears : bearsRevision other = true) : isNewerEventRevision other event = false := by
  have htimes' : ∀ e ∈ buildableEvents zones rawEvents, HasRevisionTime e :=
    hasRevisionTime_of_mem htimes
  have hidentity : buildEventRevisionIdentity zones other = some (masterIdentity uid) :=
    identity_of_bearsRevision hother hbears
  obtain ⟨identity, hown, hselected⟩ := h.selected
  cases hrevision : bearsRevision event with
  | true =>
    have heq : some identity = some (masterIdentity uid) :=
      hown.symm.trans (identity_of_bearsRevision hevent hrevision)
    rw [Option.some.inj heq] at hselected
    exact not_newer_of_not_replaces (not_replaces_selected htimes' hselected hmem hidentity)
  | false =>
    have hmark := includesSlotMark_of_not_bearsRevision hevent hrevision hown
    obtain ⟨master, hmaster⟩ := exists_selected hmem hidentity
    have hnewer := h.survives uid hevent.uid hevent.recurrenceId (by rw [hown]; exact hmark) master
      hmaster
    have holder := not_newer_of_not_replaces
      (not_replaces_selected htimes' hmaster hmem hidentity)
    exact isNewerEventRevision_trans (htimes' _ h.mem) (htimes' _ (mem_of_selected hmaster).1)
      (htimes' _ hmem) hnewer holder

/-- **A canonical override** is not older than another revision of its instance. -/
theorem IsCanonical.newest_override (htimes : ∀ e ∈ rawEvents, HasRevisionTime e)
    (h : IsCanonical zones rawEvents event) (hevent : IsOverrideOf uid date event)
    {other : IcsEvent} (hmem : other ∈ buildableEvents zones rawEvents)
    (hother : IsOverrideOf uid date other) : isNewerEventRevision other event = false := by
  obtain ⟨identity, hown, hselected⟩ := h.selected
  rw [identity_of_isOverrideOf hevent] at hown
  rw [← Option.some.inj hown] at hselected
  exact not_newer_of_not_replaces (not_replaces_selected (hasRevisionTime_of_mem htimes) hselected
    hmem (identity_of_isOverrideOf hother))

/-! ## Emitted entries -/

variable {slot : EventTimeSlot}

theorem IsSlotOf.recurrenceId_eq (h : IsSlotOf zones event slot) :
    event.uid = some slot.uid ∧ slot.recurrenceId = event.recurrenceId.bind (·.value.date) :=
  convertCanonicalEvent_eq_some h.choose_spec

theorem of_mem_events
    (hmem : slot ∈ (readIcsEvents zones options rawEvents (canonicalRevisions zones rawEvents)).events) :
    ∃ event, IsCanonical zones rawEvents event ∧ truthy event.uid = some slot.uid ∧
      event.start.isSome ∧ IsSlotOf zones event slot := by
  obtain ⟨event, hkept, hconvert⟩ := mem_events_readIcsEvents.1 hmem
  obtain ⟨hcanonical, ⟨uid, huid⟩, hstart⟩ := of_mem_keptEvents hkept
  have hslot : IsSlotOf zones event slot := ⟨_, hconvert⟩
  have heq := hslot.recurrenceId_eq.1
  rw [(truthy_eq_some_iff.1 huid).1] at heq
  exact ⟨event, hcanonical, huid.trans heq, hstart, hslot⟩

theorem isMasterOf_of_slot (hreadable : HaveReadableRecurrences rawEvents) (hmem : event ∈ rawEvents)
    (huid : truthy event.uid = some uid) (hslot : IsSlotOf zones event slot) (hrec : slot.recurrenceId = none) :
    IsMasterOf uid event := by
  refine ⟨huid, ?_⟩
  cases hrecurrence : event.recurrenceId with
  | none => rfl
  | some recurrenceId =>
    have hdate := hreadable.date_isSome hmem huid hrecurrence
    have heq := hslot.recurrenceId_eq.2
    rw [hrec, hrecurrence, Option.bind_some] at heq
    rw [← heq] at hdate
    cases hdate

theorem isOverrideOf_of_slot (huid : truthy event.uid = some uid) (hslot : IsSlotOf zones event slot)
    (hrec : slot.recurrenceId = some date) : IsOverrideOf uid date event := by
  obtain ⟨recurrenceId, hrecurrence, hvalue⟩ :=
    Option.bind_eq_some_iff.1 (hslot.recurrenceId_eq.2.symm.trans hrec)
  refine ⟨huid, ?_⟩
  rw [hrecurrence, Option.map_some, hvalue]

theorem isForeignUid_of_not_keeper (h : isKeeperEvent uid = false) :
    isForeignUid options uid = true := by
  rw [isForeignUid, h]
  exact Bool.or_true _

/-- **A live uid** has its entry iff one of its canonical revisions has a start. -/
theorem emitsMaster_iff (htimes : ∀ e ∈ rawEvents, HasRevisionTime e)
    (hkeeper : isKeeperEvent uid = false) (hno : ¬ HasCancelledMaster rawEvents uid) :
    EmitsMaster zones options rawEvents uid ↔ IsLegible zones options rawEvents ∧
      ∃ event, IsCanonical zones rawEvents event ∧ IsMasterOf uid event ∧ event.start.isSome := by
  constructor
  · rintro ⟨result, hresult, ⟨slot, hslot, rfl, hrec⟩, -⟩
    obtain ⟨hreadable, rfl⟩ := parseIcsEventsWithDiagnostics_eq_ok_iff.1 hresult
    obtain ⟨event, hcanonical, huid, hstart, hconvert⟩ := of_mem_events hslot
    exact ⟨(isReadable_iff htimes).1 hreadable, event, hcanonical,
      isMasterOf_of_slot hreadable.recurrences hcanonical.mem_raw huid hconvert hrec, hstart⟩
  · rintro ⟨hlegible, event, hcanonical, hmaster, hstart⟩
    have hreadable := (isReadable_iff htimes).2 hlegible
    refine ⟨_, parseIcsEventsWithDiagnostics_eq_ok_iff.2 ⟨hreadable, rfl⟩, ?_, ?_⟩
    · obtain ⟨slot, hslot, huid, hrec⟩ := exists_entry hcanonical hmaster.uid
        (isForeignUid_of_not_keeper hkeeper) hstart hno fun recurrenceId hrec => by
          rw [hmaster.recurrenceId] at hrec
          cases hrec
      rw [hmaster.recurrenceId] at hrec
      exact ⟨slot, hslot, huid, hrec⟩
    · rintro slot hslot rfl hrec
      obtain ⟨event, hcanonical, huid, -, hconvert⟩ := of_mem_events hslot
      have hevent := isMasterOf_of_slot hreadable.recurrences hcanonical.mem_raw huid hconvert hrec
      exact ⟨event, hcanonical.mem, hevent, hconvert, fun other hother hmaster hbears =>
        hcanonical.newest_master htimes hevent hother hmaster hbears⟩

/-- The entries of an instance are those of the revision that its identity selects. -/
theorem filter_events_eq_singleton
    (hmem : slot ∈ (readIcsEvents zones options rawEvents (canonicalRevisions zones rawEvents)).events)
    (hrec : slot.recurrenceId = some date) :
    (readIcsEvents zones options rawEvents (canonicalRevisions zones rawEvents)).events.filter
      (fun other => other.uid = slot.uid && other.recurrenceId = some date) = [slot] := by
  obtain ⟨event, hkept, hconvert⟩ := mem_events_readIcsEvents.1 hmem
  have hidentity : ∀ event slot', event ∈ keptEvents options
      (canonicalRevisions zones rawEvents).events → convertCanonicalEvent zones event
        (collectCancellationState (canonicalRevisions zones rawEvents).events) = some slot' →
          slot'.uid = slot.uid → slot'.recurrenceId = some date →
            buildEventRevisionIdentity zones event =
              some (buildRecurrenceIdentity slot.uid (some date)) := by
    intro event slot' hkept hconvert huid' hrec'
    obtain ⟨-, ⟨uid, huid⟩, -⟩ := of_mem_keptEvents hkept
    have heq := (convertCanonicalEvent_eq_some hconvert).1
    rw [(truthy_eq_some_iff.1 huid).1] at heq
    rw [Option.some.inj heq, huid'] at huid
    exact identity_of_isOverrideOf (isOverrideOf_of_slot huid ⟨_, hconvert⟩ hrec')
  have hnodup : ((keptEvents options (canonicalRevisions zones rawEvents).events).map
      (buildEventRevisionIdentity zones)).Nodup :=
    List.Nodup.sublist (List.filter_sublist.map _) nodup_identities_canonicalRevisions
  have halone := filter_eq_singleton hnodup hkept
  rw [hidentity event slot hkept hconvert rfl hrec] at halone
  rw [readIcsEvents]
  dsimp only
  -- the conversions of the other identities are of other instances
  have hrest : (keptEvents options (canonicalRevisions zones rawEvents).events).filterMap
      (fun event => (convertCanonicalEvent zones event (collectCancellationState
        (canonicalRevisions zones rawEvents).events)).filter fun other =>
          other.uid = slot.uid && other.recurrenceId = some date) =
      ((keptEvents options (canonicalRevisions zones rawEvents).events).filter fun event =>
        buildEventRevisionIdentity zones event =
          some (buildRecurrenceIdentity slot.uid (some date))).filterMap fun event =>
        (convertCanonicalEvent zones event (collectCancellationState
          (canonicalRevisions zones rawEvents).events)).filter fun other =>
            other.uid = slot.uid && other.recurrenceId = some date := by
    rw [List.filterMap_filter]
    refine List.filterMap_congr fun event hkept => ?_
    split_ifs with hsame
    · rfl
    · refine Option.filter_eq_none_iff.2 fun other hconvert hother => hsame ?_
      rw [Bool.and_eq_true, decide_eq_true_eq, decide_eq_true_eq] at hother
      exact decide_eq_true (hidentity event other hkept hconvert hother.1 hother.2)
  rw [List.filter_filterMap, hrest, halone, List.filterMap_cons, List.filterMap_nil, hconvert,
    Option.filter_some, hrec]
  simp

/-- **A live override** has its entry iff a canonical revision of it has a start. -/
theorem emitsOverride_iff (htimes : ∀ e ∈ rawEvents, HasRevisionTime e)
    (hkeeper : isKeeperEvent uid = false) (hno : ¬ HasCancelledMaster rawEvents uid)
    (hinstance : ¬ HasCancelledOverride rawEvents uid (some date)) :
    EmitsOverride zones options rawEvents uid date ↔ IsLegible zones options rawEvents ∧
      ∃ event, IsCanonical zones rawEvents event ∧ IsOverrideOf uid date event ∧
        event.start.isSome := by
  constructor
  · rintro ⟨result, hresult, slot, hfilter, -⟩
    obtain ⟨hreadable, rfl⟩ := parseIcsEventsWithDiagnostics_eq_ok_iff.1 hresult
    have hmem := List.mem_singleton.2 (rfl : slot = slot)
    rw [← hfilter] at hmem
    obtain ⟨hslot, hsame⟩ := List.mem_filter.1 hmem
    rw [Bool.and_eq_true, decide_eq_true_eq, decide_eq_true_eq] at hsame
    obtain ⟨rfl, hrec⟩ := hsame
    obtain ⟨event, hcanonical, huid, hstart, hconvert⟩ := of_mem_events hslot
    exact ⟨(isReadable_iff htimes).1 hreadable, event, hcanonical,
      isOverrideOf_of_slot huid hconvert hrec, hstart⟩
  · rintro ⟨hlegible, event, hcanonical, hoverride, hstart⟩
    have hreadable := (isReadable_iff htimes).2 hlegible
    have hdate : ∀ recurrenceId, event.recurrenceId = some recurrenceId →
        recurrenceId.value.date = some date := by
      intro recurrenceId hrec
      have heq := hoverride.recurrenceId
      rw [hrec] at heq
      exact Option.some.inj heq
    have hforeign : isForeignUid options uid = true := isForeignUid_of_not_keeper hkeeper
    obtain ⟨slot, hslot, huid, hrec⟩ := exists_entry hcanonical hoverride.uid
      hforeign hstart hno fun recurrenceId hrec => by
        rw [hdate recurrenceId hrec]
        exact hinstance
    obtain ⟨recurrenceId, hrecurrence, hvalue⟩ := Option.map_eq_some_iff.1 hoverride.recurrenceId
    rw [hrecurrence, Option.bind_some, hvalue] at hrec
    subst huid
    refine ⟨_, parseIcsEventsWithDiagnostics_eq_ok_iff.2 ⟨hreadable, rfl⟩, slot,
      filter_events_eq_singleton hslot hrec, ?_⟩
    obtain ⟨event, hcanonical, huid, -, hconvert⟩ := of_mem_events hslot
    have hevent : IsOverrideOf slot.uid date event := isOverrideOf_of_slot huid hconvert hrec
    exact ⟨event, hcanonical.mem, hevent, hconvert, fun other hmem hother =>
      hcanonical.newest_override htimes hevent hmem hother⟩

/-! ## Which uids have a canonical revision -/

/-- **A uid without the mark of a slot** has a canonical revision, where all VEVENTs have starts and
no override of another uid has the identity of one of its slots. -/
theorem exists_canonical_master (hmark : includesSlotMark (masterIdentity uid) = false)
    (hstarts : ∀ e ∈ buildableEvents zones rawEvents, e.start.isSome)
    (hown : ∀ a ∈ buildableEvents zones rawEvents, ∀ b ∈ buildableEvents zones rawEvents,
      buildEventRevisionIdentity zones a = buildEventRevisionIdentity zones b →
        IsMasterOf uid a → IsMasterOf uid b)
    (hmem : event ∈ buildableEvents zones rawEvents) (hevent : IsMasterOf uid event) :
    ∃ event, IsCanonical zones rawEvents event ∧ IsMasterOf uid event ∧ event.start.isSome := by
  cases hmaster : selectedRevision zones (buildableEvents zones rawEvents) (masterIdentity uid) with
  | some master =>
    -- the selected master is not compared with itself
    obtain ⟨hmem', hidentity⟩ := mem_of_selected hmaster
    obtain ⟨huid, hrec⟩ := truthy_uid_of_masterIdentity hidentity
    refine ⟨master, ⟨⟨_, hidentity, hmaster⟩, fun uid' _ _ hmarked => ?_⟩, ⟨huid, hrec⟩,
      hstarts master hmem'⟩
    rw [hidentity, Option.any_some, hmark] at hmarked
    cases hmarked
  | none =>
    have hbears : bearsRevision event = false := by
      refine Bool.eq_false_iff.2 fun hbears => ?_
      obtain ⟨selected, hselected⟩ := exists_selected hmem (identity_of_bearsRevision hevent hbears)
      rw [hmaster] at hselected
      cases hselected
    obtain ⟨start, hstart⟩ := Option.isSome_iff_exists.1 (hstarts event hmem)
    have hidentity : buildEventRevisionIdentity zones event = some (uid ++ "|slot|" ++
        isoText start.date ++ "|" ++ isoText (getEventEndTime zones event start)) := by
      unfold buildEventRevisionIdentity
      rw [hevent.uid, hevent.recurrenceId, hstart]
      exact if_neg (ne_true_of_eq_false hbears)
    obtain ⟨slot, hslot⟩ := exists_selected hmem hidentity
    obtain ⟨hmem', hidentity'⟩ := mem_of_selected hslot
    have hown' := hown event hmem slot hmem' (hidentity.trans hidentity'.symm) hevent
    refine ⟨slot, ⟨⟨_, hidentity', hslot⟩, fun uid' huid' _ _ master hselected => ?_⟩, hown',
      hstarts slot hmem'⟩
    rw [hown'.uid] at huid'
    rw [← Option.some.inj huid', hmaster] at hselected
    cases hselected

/-- Neither a uid nor the identity of its master has the mark of a slot in it. -/
def IsUnmarked (uid : String) : Prop := includesSlotMark (masterIdentity uid) = false

theorem not_isUnmarked (uid : String) (date : JsDate) : ¬ IsUnmarked (uid ++ "|slot|" ++ isoText date) := by
  refine ne_false_of_eq_true (decide_eq_true ⟨uid.toList, (isoText date).toList ++ "|master".toList, ?_⟩)
  simp only [masterIdentity, String.toList_append, List.append_assoc]

/-- Revisions of one identity are of one uid, and of one instance of it. -/
theorem instance_of_identity {other : IcsEvent} {uid' identity : String}
    (h : buildEventRevisionIdentity zones event = some identity)
    (h' : buildEventRevisionIdentity zones other = some identity) (huid : truthy event.uid = some uid)
    (huid' : truthy other.uid = some uid') (hmark : IsUnmarked uid) (hmark' : IsUnmarked uid') :
    uid = uid' ∧ event.recurrenceId.map (·.value.date) = other.recurrenceId.map (·.value.date) := by
  obtain rfl : uid = uid' := by
    rcases uids_of_shared_identity (identityForm h huid) (identityForm h' huid') with
      rfl | ⟨date, rfl | rfl⟩
    · rfl
    · exact absurd hmark (not_isUnmarked _ _)
    · exact absurd hmark' (not_isUnmarked _ _)
  have hoverride : ∀ {e : IcsEvent} {recurrenceId}, buildEventRevisionIdentity zones e = some identity →
      truthy e.uid = some uid → e.recurrenceId = some recurrenceId →
        identity = buildRecurrenceIdentity uid recurrenceId.value.date := by
    intro e recurrenceId he heuid hrec
    rw [buildEventRevisionIdentity, heuid, hrec] at he
    exact (Option.some.inj he).symm
  -- the identity of an override is that of no other event of its uid
  have hnever : ∀ {e : IcsEvent} {date}, buildEventRevisionIdentity zones e = some identity →
      truthy e.uid = some uid → e.recurrenceId = none → identity ≠ buildRecurrenceIdentity uid date := by
    rintro e date he heuid hrec rfl
    rw [buildEventRevisionIdentity, heuid, hrec] at he
    dsimp only [Option.bind_some] at he
    split_ifs at he
    · exact masterIdentity_ne_bar _ _ _ (Option.some.inj he)
    · obtain ⟨start, -, hslot⟩ := Option.map_eq_some_iff.1 he
      have hlonger := (bar_inj (bar_not_mem_isoText _) (bar_not_mem_isoText _) hslot).1
      refine not_isUnmarked uid start.date ?_
      rw [hlonger]
      exact hmark
  refine ⟨rfl, ?_⟩
  cases hrec : event.recurrenceId <;> cases hrec' : other.recurrenceId
  · rfl
  · exact absurd (hoverride h' huid' hrec') (hnever h huid hrec)
  · exact absurd (hoverride h huid hrec) (hnever h' huid' hrec')
  · have hsame := (hoverride h huid hrec).symm.trans (hoverride h' huid' hrec')
    exact congrArg some (buildRecurrenceIdentity_inj hsame).2

/-- **No live instance is dropped** of a calendar whose VEVENTs have starts and uids without the mark of a slot. -/
theorem emits_of_isUnmarked (htimes : ∀ e ∈ rawEvents, HasRevisionTime e) (hlegible : IsLegible zones options rawEvents)
    (hstarts : ∀ e ∈ buildableEvents zones rawEvents, e.start.isSome)
    (hmarks : ∀ e ∈ buildableEvents zones rawEvents, ∀ uid, truthy e.uid = some uid → IsUnmarked uid)
    (hkeeper : isKeeperEvent uid = false) (hno : ¬ HasCancelledMaster rawEvents uid) :
    ((∃ event ∈ buildableEvents zones rawEvents, IsMasterOf uid event) → EmitsMaster zones options rawEvents uid) ∧
      ∀ date, ¬ HasCancelledOverride rawEvents uid (some date) →
        (∃ event ∈ buildableEvents zones rawEvents, IsOverrideOf uid date event) →
          EmitsOverride zones options rawEvents uid date := by
  constructor
  · rintro ⟨event, hmem, hevent⟩
    refine (emitsMaster_iff htimes hkeeper hno).2 ⟨hlegible,
      exists_canonical_master (hmarks event hmem uid hevent.uid) hstarts (fun a ha b hb hsame haMaster => ?_) hmem hevent⟩
    obtain ⟨start, hstart⟩ := Option.isSome_iff_exists.1 (hstarts a ha)
    obtain ⟨identity, hidentity⟩ : ∃ identity, buildEventRevisionIdentity zones a = some identity := by
      rw [buildEventRevisionIdentity, haMaster.uid, haMaster.recurrenceId, hstart]
      dsimp only [Option.bind_some]
      split_ifs
      · exact ⟨_, rfl⟩
      · exact ⟨_, rfl⟩
    obtain ⟨uid', huid'⟩ := truthy_uid_of_identity (hsame.symm.trans hidentity)
    obtain ⟨rfl, hdate⟩ := instance_of_identity hidentity (hsame.symm.trans hidentity) haMaster.uid huid'
      (hmarks a ha _ haMaster.uid) (hmarks b hb _ huid')
    rw [haMaster.recurrenceId] at hdate
    exact ⟨huid', Option.map_eq_none_iff.1 hdate.symm⟩
  · rintro date hinstance ⟨event, hmem, hevent⟩
    have hidentity := @identity_of_isOverrideOf zones _ _ _ hevent
    obtain ⟨selected, hselected⟩ := exists_selected hmem hidentity
    obtain ⟨hmem', hidentity'⟩ := mem_of_selected hselected
    obtain ⟨uid', huid'⟩ := truthy_uid_of_identity hidentity'
    obtain ⟨rfl, hdate⟩ := instance_of_identity hidentity hidentity' hevent.uid huid' (hmarks event hmem _ hevent.uid)
      (hmarks selected hmem' _ huid')
    refine (emitsOverride_iff htimes hkeeper hno hinstance).2 ⟨hlegible, selected,
      ⟨⟨_, hidentity', hselected⟩, fun _ _ hrec => ?_⟩, ⟨huid', hdate.symm.trans hevent.recurrenceId⟩,
      hstarts selected hmem'⟩
    rw [hevent.recurrenceId, hrec] at hdate
    exact absurd hdate (Option.some_ne_none _)

end Emission

/-- **Live instances have their newest revisions as entries** exactly where the calendar is legible
and a canonical revision of the uid, or of the instance, has a start. -/
theorem liveInstances_iff (zones : Zones) (options : ParseIcsEventsOptions)
    (rawEvents : List IcsEvent) (htimes : ∀ e ∈ rawEvents, HasRevisionTime e) :
    (∀ uid, isKeeperEvent uid = false → ¬ HasCancelledMaster rawEvents uid →
      (EmitsMaster zones options rawEvents uid ↔ IsLegible zones options rawEvents ∧
        ∃ event, IsCanonical zones rawEvents event ∧ IsMasterOf uid event ∧
          event.start.isSome)) ∧
    ∀ uid date, isKeeperEvent uid = false → ¬ HasCancelledMaster rawEvents uid →
      ¬ HasCancelledOverride rawEvents uid (some date) →
        (EmitsOverride zones options rawEvents uid date ↔ IsLegible zones options rawEvents ∧
          ∃ event, IsCanonical zones rawEvents event ∧ IsOverrideOf uid date event ∧
            event.start.isSome) :=
  ⟨fun _ hkeeper hno => emitsMaster_iff htimes hkeeper hno,
    fun _ _ hkeeper hno hinstance => emitsOverride_iff htimes hkeeper hno hinstance⟩

namespace Example

def markedUid : IcsEvent where
  uid := some "a|slot|b"
  start := some { date := some 0 }
  status := some "CONFIRMED"

theorem parse_markedUid : parseIcsEventsWithDiagnostics noZones {} [markedUid] =
    .ok { events := [], selfAuthoredCount := 0, unrepresentableCount := 0
          unsupportedEvents := [] } := rfl

def plainUid : IcsEvent := { markedUid with uid := some "a" }

theorem isLegible_plainUid : IsLegible noZones {} [plainUid] :=
  (isReadable_iff (by decide)).1 (parseIcsEventsWithDiagnostics_eq_ok_iff.1
    (rfl : parseIcsEventsWithDiagnostics noZones {} [plainUid] = .ok _)).1

end Example

theorem emits_of_isUnmarked_example : EmitsMaster Example.noZones {} [Example.plainUid] "a" :=
  (emits_of_isUnmarked (by decide) Example.isLegible_plainUid (by decide) (fun e he uid huid => by
    rw [List.mem_singleton.1 (List.mem_of_mem_filter he)] at huid
    rw [← Option.some.inj huid]
    unfold IsUnmarked
    decide) (by decide) (by unfold HasCancelledMaster; decide)).1
    ⟨Example.plainUid, by decide, by decide, rfl⟩

theorem liveInstances_iff_example :
    (∀ uid, isKeeperEvent uid = false → ¬ HasCancelledMaster [Example.markedUid] uid →
      (EmitsMaster Example.noZones {} [Example.markedUid] uid ↔
        IsLegible Example.noZones {} [Example.markedUid] ∧
          ∃ event, IsCanonical Example.noZones [Example.markedUid] event ∧ IsMasterOf uid event ∧
            event.start.isSome)) ∧
    ∀ uid date, isKeeperEvent uid = false → ¬ HasCancelledMaster [Example.markedUid] uid →
      ¬ HasCancelledOverride [Example.markedUid] uid (some date) →
        (EmitsOverride Example.noZones {} [Example.markedUid] uid date ↔
          IsLegible Example.noZones {} [Example.markedUid] ∧
            ∃ event, IsCanonical Example.noZones [Example.markedUid] event ∧
              IsOverrideOf uid date event ∧ event.start.isSome) :=
  liveInstances_iff Example.noZones {} [Example.markedUid] (by decide)

/-- **A live event is dropped.** The only VEVENT of its uid is taken for a slot that its master
supersedes, and the master is itself. -/
theorem not_liveInstances :
    (∀ e ∈ [Example.markedUid], HasRevisionTime e) ∧
      Example.markedUid ∈ buildableEvents Example.noZones [Example.markedUid] ∧
      IsMasterOf "a|slot|b" Example.markedUid ∧ isKeeperEvent "a|slot|b" = false ∧
      (∀ e ∈ [Example.markedUid], e.status ≠ some "CANCELLED") ∧
      ¬ EmitsMaster Example.noZones {} [Example.markedUid] "a|slot|b" := by
  refine ⟨by decide, by decide, ⟨by decide, rfl⟩, by decide, by decide, ?_⟩
  rintro ⟨result, hresult, ⟨slot, hslot, -⟩, -⟩
  rw [Example.parse_markedUid] at hresult
  obtain rfl := Except.ok.inj hresult
  cases hslot

end Keeper
