import Keeper.Ics.CanonicalRevisions

/-!
# Events of some uids

What is read of the events of some uids is what they are read to alone, wherever their identities are not
also those of other events. An identity ends in the mark of its kind and a date, so that two uids share one
only if the one continues the other.

* `filter_canonicalRevisions`: revisions are selected among the events of a class.
* `filter_events`, `filter_unsupportedEvents`: the entries and the reports of a class are those of its events.
* `parseIcsEventsWithDiagnostics_append`: events of disjoint uids are read apart.
-/

namespace Keeper

open JsArray

/-! ## Classes -/

def inClass (p : String → Bool) (event : IcsEvent) : Bool := (truthy event.uid).any p

/-- No two events share an identity unless both are of the class. -/
def SeparatesIdentities (zones : Zones) (p : String → Bool) (events : List IcsEvent) : Prop :=
  ∀ e ∈ events, ∀ e' ∈ events, ∀ identity, buildEventRevisionIdentity zones e = some identity →
    buildEventRevisionIdentity zones e' = some identity → inClass p e = inClass p e'

section Classes

variable {zones : Zones} {options : ParseIcsEventsOptions} {p : String → Bool}
  {events rawEvents : List IcsEvent} {event : IcsEvent} {uid identity : String}

theorem inClass_of_uid (h : truthy event.uid = some uid) : inClass p event = p uid := by
  rw [inClass, h]
  rfl

theorem truthy_uid_of_identity (h : buildEventRevisionIdentity zones event = some identity) :
    ∃ uid, truthy event.uid = some uid := by
  obtain ⟨uid, huid, -⟩ := Option.bind_eq_some_iff.1 h
  exact ⟨uid, huid⟩

def identityInClass (key : IcsEvent → Option String) (p : String → Bool) (events : List IcsEvent)
    (identity : String) : Bool :=
  events.any fun e => inClass p e && decide (key e = some identity)

theorem identityInClass_eq {key : IcsEvent → Option String}
    (h : ∀ e ∈ events, ∀ e' ∈ events, ∀ identity, key e = some identity → key e' = some identity →
      inClass p e = inClass p e') (hevent : event ∈ events) (hkey : key event = some identity) :
    inClass p event = identityInClass key p events identity := by
  cases hclass : inClass p event with
  | true =>
    refine (List.any_eq_true.2 ⟨event, hevent, ?_⟩).symm
    simp [hclass, hkey]
  | false =>
    refine (List.any_eq_false.2 fun e he hyes => ?_).symm
    obtain ⟨hmember, hsame⟩ : inClass p e = true ∧ key e = some identity := by simpa using hyes
    rw [h e he event hevent identity hsame hkey, hclass] at hmember
    cases hmember

/-! ## Revisions -/

def selectedRevisions (zones : Zones) (events : List IcsEvent) : List IcsEvent :=
  ((groupEventsByRevisionIdentity zones events).values.filterMap selectGroupRevision).map (·.event)

/-- **The selected revisions of a class** are selected among its events. -/
theorem filter_selectedRevisions (h : SeparatesIdentities zones p events) :
    (selectedRevisions zones events).filter (inClass p) =
      selectedRevisions zones (events.filter (inClass p)) := by
  have hclass : ∀ e ∈ events, ∀ identity, buildEventRevisionIdentity zones e = some identity →
      inClass p e = identityInClass (buildEventRevisionIdentity zones) p events identity :=
    fun e he identity hkey => identityInClass_eq h he hkey
  have hgroups : (groupEventsByRevisionIdentity zones (events.filter (inClass p))).entries =
      (groupEventsByRevisionIdentity zones events).entries.filter fun entry =>
        identityInClass (buildEventRevisionIdentity zones) p events entry.1 := by
    rw [groupEventsByRevisionIdentity, JsMap.keyed_filter hclass, groupEventsByRevisionIdentity,
      JsMap.filter_entries_group]
  rw [selectedRevisions, selectedRevisions, JsMap.values, JsMap.values, hgroups, List.filter_map,
    List.filter_filterMap, List.filterMap_map, List.filterMap_map, List.filterMap_filter]
  refine congrArg (List.map _) (List.filterMap_congr fun entry hentry => ?_)
  obtain ⟨identity, group⟩ := entry
  have hgroup := (JsMap.get?_group.1 (JsMap.mem_entries_iff.1 hentry)).2
  rw [JsMap.valuesAt_keyed] at hgroup
  dsimp only [Function.comp_apply]
  cases hselect : selectGroupRevision group with
  | none => simp
  | some revision =>
    have hmem := selectGroupRevision_mem hselect
    rw [hgroup, List.mem_filter, decide_eq_true_eq] at hmem
    have hsame := hclass revision.event hmem.1 identity hmem.2
    cases hyes : identityInClass (buildEventRevisionIdentity zones) p events identity <;>
      simp [Option.filter, hsame, hyes]

theorem get?_authoritativeMasterByUid_filter (huid : p uid = true) :
    (authoritativeMasterByUid zones (events.filter (inClass p))).get? uid =
      (authoritativeMasterByUid zones events).get? uid := by
  rw [authoritativeMasterByUid, authoritativeMasterByUid, get?_newestByUid, get?_newestByUid]
  have hkeyed : JsMap.keyed (masterUid zones) (events.filter (inClass p)) =
      (JsMap.keyed (masterUid zones) events).filter fun e => p e.1 :=
    JsMap.keyed_filter fun e _ k hkey => inClass_of_uid (Option.filter_eq_some_iff.1 hkey).1
  rw [hkeyed, JsMap.valuesAt_filter huid]

theorem survivesAuthoritativeMaster_filter (hclass : inClass p event = true) :
    survivesAuthoritativeMaster zones (authoritativeMasterByUid zones (events.filter (inClass p))) event =
      survivesAuthoritativeMaster zones (authoritativeMasterByUid zones events) event := by
  unfold survivesAuthoritativeMaster
  cases huid : truthy event.uid with
  | none => rfl
  | some uid =>
    have hp : p uid = true := by rw [← hclass, inClass_of_uid huid]
    dsimp only
    rw [get?_authoritativeMasterByUid_filter hp]

/-- **The canonical events of a class** are those of its events. -/
theorem filter_canonicalRevisions (h : SeparatesIdentities zones p (buildableEvents zones rawEvents)) :
    (canonicalRevisions zones rawEvents).events.filter (inClass p) =
      (canonicalRevisions zones (rawEvents.filter (inClass p))).events := by
  have hbuildable : buildableEvents zones (rawEvents.filter (inClass p)) =
      (buildableEvents zones rawEvents).filter (inClass p) := by
    rw [buildableEvents, buildableEvents, List.filter_filter, List.filter_filter]
    exact List.filter_congr fun e _ => Bool.and_comm _ _
  have hevents : ∀ events, (selectCanonicalEventRevisions zones events).events =
      (selectedRevisions zones events).filter (survivesAuthoritativeMaster zones
        (authoritativeMasterByUid zones (selectedRevisions zones events))) := fun _ => rfl
  change (selectCanonicalEventRevisions zones (buildableEvents zones rawEvents)).events.filter _ =
    (selectCanonicalEventRevisions zones (buildableEvents zones _)).events
  rw [hbuildable, hevents, hevents, ← filter_selectedRevisions h, List.filter_filter, List.filter_filter]
  refine List.filter_congr fun e _ => ?_
  cases hclass : inClass p e with
  | false => simp
  | true => rw [survivesAuthoritativeMaster_filter hclass, Bool.true_and, Bool.and_true]

/-! ## Cancellations -/

theorem keyed_cancelledUid_filter : JsMap.keyed cancelledUid (events.filter (inClass p)) =
    (JsMap.keyed cancelledUid events).filter fun e => p e.1 :=
  JsMap.keyed_filter fun _ _ _ hkey => inClass_of_uid (cancelledUid_eq_some_iff.1 hkey).1

theorem get?_cancelledMasters_filter (huid : p uid = true) :
    (collectCancellationState (events.filter (inClass p))).cancelledMasters.get? uid =
      (collectCancellationState events).cancelledMasters.get? uid := by
  change (newestByUid _).get? uid = (newestByUid _).get? uid
  rw [get?_newestByUid, get?_newestByUid, keyed_cancelledUid_filter, List.filter_filter]
  have hswap : (JsMap.keyed cancelledUid events).filter
      (fun e => e.2.recurrenceId.isNone && p e.1) =
      ((JsMap.keyed cancelledUid events).filter fun e => e.2.recurrenceId.isNone).filter
        fun e => p e.1 := by
    rw [List.filter_filter]
    exact List.filter_congr fun e _ => Bool.and_comm _ _
  rw [hswap, JsMap.valuesAt_filter huid]

theorem get?_cancelledRecurrences_filter (huid : p uid = true) :
    (collectCancellationState (events.filter (inClass p))).cancelledRecurrences.get? uid =
      (collectCancellationState events).cancelledRecurrences.get? uid := by
  change (JsMap.group _).get? uid = (JsMap.group _).get? uid
  rw [keyed_cancelledUid_filter]
  have hswap : ((JsMap.keyed cancelledUid events).filter fun e => p e.1).filterMap
      (fun x => x.2.recurrenceId.map fun recurrenceId => (x.1, recurrenceId.value)) =
      ((JsMap.keyed cancelledUid events).filterMap fun x =>
        x.2.recurrenceId.map fun recurrenceId => (x.1, recurrenceId.value)).filter fun e => p e.1 := by
    rw [List.filterMap_filter, List.filter_filterMap]
    refine List.filterMap_congr fun x _ => ?_
    cases x.2.recurrenceId <;> cases hp : p x.1 <;> simp [Option.filter, hp]
  exact (congrArg (fun l => (JsMap.group l).get? uid) hswap).trans (JsMap.get?_group_filter huid _)

theorem contains_cancelledRecurrenceIdentities_filter (huid : p uid = true) (date : JsDate) :
    (collectCancellationState (events.filter (inClass p))).cancelledRecurrenceIdentities.contains
        (buildRecurrenceIdentity uid date) =
      (collectCancellationState events).cancelledRecurrenceIdentities.contains
        (buildRecurrenceIdentity uid date) := by
  rw [Bool.eq_iff_iff, List.contains_iff_mem, List.contains_iff_mem, mem_cancelledRecurrenceIdentities,
    mem_cancelledRecurrenceIdentities]
  refine exists_congr fun e => ?_
  rw [List.mem_filter, and_assoc]
  refine and_congr_right fun _ => and_iff_right_of_imp ?_
  rintro ⟨uid', recurrenceId, huid', -, -, hsame⟩
  rw [inClass_of_uid huid', ← (buildRecurrenceIdentity_inj hsame).1, huid]

/-! ## Entries -/

theorem shouldSkipEvent_filter (hclass : inClass p event = true) :
    shouldSkipEvent event options (collectCancellationState (events.filter (inClass p))) =
      shouldSkipEvent event options (collectCancellationState events) := by
  unfold shouldSkipEvent
  cases huid : truthy event.uid with
  | none => rfl
  | some uid =>
    have hp : p uid = true := by rw [← hclass, inClass_of_uid huid]
    dsimp only
    simp only [get?_cancelledMasters_filter hp, contains_cancelledRecurrenceIdentities_filter hp]

theorem convertCanonicalEvent_filter (huid : event.uid = some uid) (hp : p uid = true) :
    convertCanonicalEvent zones event (collectCancellationState (events.filter (inClass p))) =
      convertCanonicalEvent zones event (collectCancellationState events) := by
  unfold convertCanonicalEvent
  rw [huid]
  simp only [Option.bind_eq_bind, Option.bind_some, get?_cancelledRecurrences_filter hp]

theorem filter_keptEvents :
    (keptEvents options events).filter (inClass p) = keptEvents options (events.filter (inClass p)) := by
  rw [keptEvents, keptEvents, List.filter_filter, List.filter_filter]
  refine List.filter_congr fun e _ => ?_
  cases hclass : inClass p e with
  | false => simp
  | true => rw [shouldSkipEvent_filter hclass, Bool.true_and, Bool.and_true]

theorem uid_of_convertCanonicalEvent {cancellations : CancellationState} {slot : EventTimeSlot}
    (h : convertCanonicalEvent zones event cancellations = some slot) : event.uid = some slot.uid := by
  simp only [convertCanonicalEvent, Option.bind_eq_bind, Option.bind_eq_some_iff, Option.pure_def,
    Option.some.injEq] at h
  obtain ⟨uid, huid, start, -, startTime, -, endTime, -, rfl⟩ := h
  exact huid

theorem truthy_uid_of_mem_keptEvents (h : event ∈ keptEvents options events) :
    ∃ uid, truthy event.uid = some uid := by
  have hskip := (List.mem_filter.1 h).2
  rw [Bool.not_eq_true'] at hskip
  exact (of_shouldSkipEvent_eq_false hskip).1

/-- **The entries of a class** are those of its events. -/
theorem filter_events (h : SeparatesIdentities zones p (buildableEvents zones rawEvents)) :
    (readIcsEvents zones options rawEvents (canonicalRevisions zones rawEvents)).events.filter
        (fun slot => p slot.uid) =
      (readIcsEvents zones options (rawEvents.filter (inClass p))
        (canonicalRevisions zones (rawEvents.filter (inClass p)))).events := by
  change ((keptEvents options (canonicalRevisions zones rawEvents).events).filterMap fun event =>
      convertCanonicalEvent zones event
        (collectCancellationState (canonicalRevisions zones rawEvents).events)).filter _ =
    (keptEvents options (canonicalRevisions zones (rawEvents.filter (inClass p))).events).filterMap _
  rw [← filter_canonicalRevisions h, ← filter_keptEvents, List.filter_filterMap, List.filterMap_filter]
  refine List.filterMap_congr fun e he => ?_
  obtain ⟨uid, huid⟩ := truthy_uid_of_mem_keptEvents he
  have heuid : e.uid = some uid := (Option.filter_eq_some_iff.1 huid).1
  rw [inClass_of_uid huid]
  have hslot : Option.filter (fun slot => p slot.uid) (convertCanonicalEvent zones e
      (collectCancellationState (canonicalRevisions zones rawEvents).events)) =
      if p uid then convertCanonicalEvent zones e
        (collectCancellationState (canonicalRevisions zones rawEvents).events) else none := by
    cases hconvert : convertCanonicalEvent zones e
        (collectCancellationState (canonicalRevisions zones rawEvents).events) with
    | none => simp
    | some slot =>
      obtain rfl := Option.some.inj (heuid.symm.trans (uid_of_convertCanonicalEvent hconvert))
      cases hp : p slot.uid <;> simp [Option.filter, hp]
  rw [hslot]
  cases hp : p uid with
  | true => rw [if_pos rfl, if_pos rfl, convertCanonicalEvent_filter heuid hp]
  | false => rfl

/-! ## Reports -/

theorem mem_uniqueByUid_entries {reports : List UnsupportedIcsEvent} {entry : String × UnsupportedIcsEvent}
    (h : entry ∈ (JsMap.ofList (reports.map fun report => (report.uid, report))).entries) :
    entry.2.uid = entry.1 := by
  have hmem := JsMap.get?_ofList_some (JsMap.mem_entries_iff.1 h)
  obtain ⟨report, -, hreport⟩ := List.mem_map.1 hmem
  rw [← (Prod.mk.inj hreport).1, ← (Prod.mk.inj hreport).2]

theorem filter_uniqueByUid (p : String → Bool) (reports : List UnsupportedIcsEvent) :
    (uniqueByUid reports).filter (fun report => p report.uid) =
      uniqueByUid (reports.filter fun report => p report.uid) := by
  have hpairs : (reports.filter fun report => p report.uid).map (fun report => (report.uid, report)) =
      (reports.map fun report => (report.uid, report)).filter fun e => p e.1 := by
    rw [List.filter_map]
    rfl
  rw [uniqueByUid, uniqueByUid, hpairs, JsMap.values, JsMap.values, ← JsMap.filter_entries_ofList,
    List.filter_map]
  refine congrArg (List.map Prod.snd) (List.filter_congr fun entry hentry => ?_)
  rw [Function.comp_apply, mem_uniqueByUid_entries hentry]

theorem filter_collectRangedOverrideEvents :
    (collectRangedOverrideEvents events).filter (fun report => p report.uid) =
      collectRangedOverrideEvents (events.filter (inClass p)) := by
  rw [collectRangedOverrideEvents, collectRangedOverrideEvents, filter_uniqueByUid, List.filter_filterMap,
    List.filterMap_filter]
  refine congrArg uniqueByUid (List.filterMap_congr fun e _ => ?_)
  cases huid : truthy e.uid with
  | none => simp
  | some uid =>
    rw [inClass_of_uid huid]
    cases hp : p uid <;> cases e.recurrenceId.any (·.range = some "THISANDFUTURE") <;>
      simp [Option.filter, hp]

theorem filter_collectUnresolvedTimeEvents :
    (collectUnresolvedTimeEvents events).filter (fun report => p report.uid) =
      collectUnresolvedTimeEvents (events.filter (inClass p)) := by
  rw [collectUnresolvedTimeEvents, collectUnresolvedTimeEvents, List.filter_filterMap,
    List.filterMap_filter]
  refine List.filterMap_congr fun e _ => ?_
  cases huid : truthy e.uid with
  | none => simp
  | some uid =>
    rw [inClass_of_uid huid]
    cases hp : p uid <;> cases truthy e.unresolvedTimeReason <;> simp [Option.filter, hp]

theorem uid_of_instanceIdentity {other : IcsEvent} (h : instanceIdentity? event = some identity)
    (hother : instanceIdentity? other = some identity) : truthy event.uid = truthy other.uid := by
  obtain ⟨uid, huid, hsame⟩ := Option.map_eq_some_iff.1 h
  obtain ⟨uid', huid', hsame'⟩ := Option.map_eq_some_iff.1 hother
  rw [huid, huid', Option.some_inj]
  have heq := hsame.trans hsame'.symm
  cases hdate : event.recurrenceId.map (·.value.date) with
  | none =>
    cases hdate' : other.recurrenceId.map (·.value.date) with
    | none =>
      rw [hdate, hdate'] at heq
      exact masterIdentity_inj heq
    | some date' =>
      rw [hdate, hdate'] at heq
      exact absurd heq (masterIdentity_ne_bar _ _ _)
  | some date =>
    cases hdate' : other.recurrenceId.map (·.value.date) with
    | none =>
      rw [hdate, hdate'] at heq
      exact absurd heq.symm (masterIdentity_ne_bar _ _ _)
    | some date' =>
      rw [hdate, hdate'] at heq
      exact (buildRecurrenceIdentity_inj heq).1

theorem inClass_eq_identityInClass (hevent : event ∈ events)
    (hkey : instanceIdentity? event = some identity) :
    inClass p event = identityInClass instanceIdentity? p events identity :=
  identityInClass_eq (fun e _ e' _ identity h h' => by
    rw [inClass, inClass, uid_of_instanceIdentity h h']) hevent hkey

/-- **The reports of a class** are those of its events. -/
theorem filter_collectStaleRevisions {canonicalEvents : List IcsEvent}
    (hsub : ∀ e ∈ canonicalEvents, e ∈ rawEvents) :
    (collectStaleRevisions zones rawEvents canonicalEvents).unsupported.filter
        (fun report => p report.uid) =
      (collectStaleRevisions zones (rawEvents.filter (inClass p))
        (canonicalEvents.filter (inClass p))).unsupported := by
  have hraw : JsMap.keyed instanceIdentity? (rawEvents.filter (inClass p)) =
      (JsMap.keyed instanceIdentity? rawEvents).filter fun e =>
        identityInClass instanceIdentity? p rawEvents e.1 :=
    JsMap.keyed_filter fun e he k hkey => inClass_eq_identityInClass he hkey
  have hcanonical : JsMap.keyed instanceIdentity? (canonicalEvents.filter (inClass p)) =
      (JsMap.keyed instanceIdentity? canonicalEvents).filter fun e =>
        identityInClass instanceIdentity? p rawEvents e.1 :=
    JsMap.keyed_filter fun e he k hkey => inClass_eq_identityInClass (hsub e he) hkey
  rw [collectStaleRevisions, collectStaleRevisions]
  dsimp only
  rw [filter_uniqueByUid, hraw, hcanonical, List.filter_map, List.filter_filter, List.filter_filter]
  refine congrArg (fun l => uniqueByUid (List.map _ l)) (List.filter_congr fun entry hentry => ?_)
  obtain ⟨identity, event⟩ := entry
  obtain ⟨hmem, hkey⟩ := JsMap.mem_keyed.1 hentry
  obtain ⟨uid, huid, -⟩ := Option.map_eq_some_iff.1 hkey
  have hclass : identityInClass instanceIdentity? p rawEvents identity = p uid := by
    rw [← inClass_eq_identityInClass hmem hkey, inClass_of_uid huid]
  have heuid : event.uid.getD "" = uid := by
    rw [(Option.filter_eq_some_iff.1 huid).1]
    rfl
  dsimp only [Function.comp_apply]
  rw [heuid, hclass]
  cases hp : p uid with
  | false => simp
  | true => rw [JsMap.get?_ofList_filter (hclass.trans hp), Bool.true_and, Bool.and_true]

/-- **The reports of a class** are those of its events. -/
theorem filter_unsupportedEvents (h : SeparatesIdentities zones p (buildableEvents zones rawEvents)) :
    (readIcsEvents zones options rawEvents (canonicalRevisions zones rawEvents)).unsupportedEvents.filter
        (fun report => p report.uid) =
      (readIcsEvents zones options (rawEvents.filter (inClass p))
        (canonicalRevisions zones (rawEvents.filter (inClass p)))).unsupportedEvents := by
  have hsub : ∀ e ∈ (canonicalRevisions zones rawEvents).events, e ∈ rawEvents := fun e he =>
    (mem_canonicalRevisions_iff.1 he).mem_raw
  change (mergeUnsupportedEvents [collectRangedOverrideEvents _, _, _]).filter _ =
    mergeUnsupportedEvents [collectRangedOverrideEvents _, _, _]
  rw [mergeUnsupportedEvents, mergeUnsupportedEvents, filter_uniqueByUid, List.filter_flatten,
    ← filter_canonicalRevisions h]
  simp only [List.map_cons, List.map_nil, filter_collectRangedOverrideEvents,
    filter_collectStaleRevisions hsub, filter_collectUnresolvedTimeEvents]

/-! ## Events of disjoint uids -/

def HasUid (events : List IcsEvent) (uid : String) : Prop := ∃ e ∈ events, truthy e.uid = some uid

instance (events : List IcsEvent) (uid : String) : Decidable (HasUid events uid) :=
  inferInstanceAs (Decidable (∃ e ∈ events, truthy e.uid = some uid))

theorem separates_uids (zones : Zones) (events : List IcsEvent) :
    SeparatesIdentities zones (fun _ => true) events := by
  intro e _ e' _ identity h h'
  obtain ⟨uid, huid⟩ := truthy_uid_of_identity h
  obtain ⟨uid', huid'⟩ := truthy_uid_of_identity h'
  rw [inClass_of_uid huid, inClass_of_uid huid']

theorem read_filter_uids (zones : Zones) (options : ParseIcsEventsOptions) (rawEvents : List IcsEvent) :
    (readIcsEvents zones options (rawEvents.filter (inClass fun _ => true))
        (canonicalRevisions zones (rawEvents.filter (inClass fun _ => true)))).events =
      (readIcsEvents zones options rawEvents (canonicalRevisions zones rawEvents)).events ∧
    (readIcsEvents zones options (rawEvents.filter (inClass fun _ => true))
        (canonicalRevisions zones (rawEvents.filter (inClass fun _ => true)))).unsupportedEvents =
      (readIcsEvents zones options rawEvents (canonicalRevisions zones rawEvents)).unsupportedEvents := by
  have hseparates := separates_uids zones (buildableEvents zones rawEvents)
  rw [← filter_events hseparates, ← filter_unsupportedEvents hseparates]
  exact ⟨List.filter_true _, List.filter_true _⟩

/-- Two lists of events share neither a uid nor an identity. -/
structure AreApart (zones : Zones) (first second : List IcsEvent) : Prop where
  uids : ∀ uid, HasUid first uid → ¬ HasUid second uid
  identities : ∀ e ∈ buildableEvents zones first, ∀ e' ∈ buildableEvents zones second, ∀ identity,
    buildEventRevisionIdentity zones e = some identity →
      buildEventRevisionIdentity zones e' ≠ some identity

variable {first second : List IcsEvent}

inductive IdentityForm (uid identity : String) : Prop
  | override (date : JsDate) (eq : identity = uid ++ "|" ++ isoText date)
  | master (eq : identity = masterIdentity uid)
  | slot (start stop : JsDate) (eq : identity = uid ++ "|slot|" ++ isoText start ++ "|" ++ isoText stop)

theorem identityForm (h : buildEventRevisionIdentity zones event = some identity)
    (huid : truthy event.uid = some uid) : IdentityForm uid identity := by
  unfold buildEventRevisionIdentity at h
  rw [huid, Option.bind_some] at h
  cases hrecurrence : event.recurrenceId with
  | some recurrenceId =>
    rw [hrecurrence] at h
    exact .override recurrenceId.value.date (Option.some.inj h).symm
  | none =>
    rw [hrecurrence] at h
    dsimp only at h
    split_ifs at h
    · exact .master (Option.some.inj h).symm
    · obtain ⟨start, -, hslot⟩ := Option.map_eq_some_iff.1 h
      exact .slot start.date _ hslot.symm

theorem slot_bar (uid : String) (date : JsDate) :
    uid ++ "|slot|" ++ isoText date = uid ++ "|slot" ++ "|" ++ isoText date := by
  have hmark : uid ++ "|slot" ++ "|" = uid ++ "|slot|" := String.append_assoc
  rw [hmark]

/-- **Uids that share an identity** are the same, or one continues the other by a slot. -/
theorem uids_of_shared_identity {uid' : String} (h : IdentityForm uid identity)
    (h' : IdentityForm uid' identity) :
    uid = uid' ∨ ∃ date, uid = uid' ++ "|slot|" ++ isoText date ∨ uid' = uid ++ "|slot|" ++ isoText date := by
  cases h with
  | override date heq =>
    cases h' with
    | override date' heq' =>
      exact Or.inl (bar_inj (bar_not_mem_isoText _) (bar_not_mem_isoText _) (heq.symm.trans heq')).1
    | master heq' => exact absurd (heq'.symm.trans heq) (masterIdentity_ne_bar _ _ _)
    | slot start stop heq' =>
      exact Or.inr ⟨start, Or.inl
        (bar_inj (bar_not_mem_isoText _) (bar_not_mem_isoText _) (heq.symm.trans heq')).1⟩
  | master heq =>
    cases h' with
    | override date' heq' => exact absurd (heq.symm.trans heq') (masterIdentity_ne_bar _ _ _)
    | master heq' => exact Or.inl (masterIdentity_inj (heq.symm.trans heq'))
    | slot start stop heq' => exact absurd (heq.symm.trans heq') (masterIdentity_ne_bar _ _ _)
  | slot start stop heq =>
    cases h' with
    | override date' heq' =>
      exact Or.inr ⟨start, Or.inr
        (bar_inj (bar_not_mem_isoText _) (bar_not_mem_isoText _) (heq'.symm.trans heq)).1⟩
    | master heq' => exact absurd (heq'.symm.trans heq) (masterIdentity_ne_bar _ _ _)
    | slot start' stop' heq' =>
      have hslots := (bar_inj (bar_not_mem_isoText _) (bar_not_mem_isoText _) (heq.symm.trans heq')).1
      rw [slot_bar, slot_bar] at hslots
      have huids := (bar_inj (bar_not_mem_isoText _) (bar_not_mem_isoText _) hslots).1
      exact Or.inl ((String.append_left_inj _).1 huids)

/-- **Events of disjoint uids are apart** where no uid continues another by a slot. -/
theorem areApart_of_uids (huids : ∀ uid, HasUid first uid → ¬ HasUid second uid)
    (hslots : ∀ uid, HasUid first uid → ∀ uid', HasUid second uid' → ∀ date,
      uid ≠ uid' ++ "|slot|" ++ isoText date ∧ uid' ≠ uid ++ "|slot|" ++ isoText date) :
    AreApart zones first second where
  uids := huids
  identities e he e' he' identity hkey hkey' := by
    obtain ⟨uid, huid⟩ := truthy_uid_of_identity hkey
    obtain ⟨uid', huid'⟩ := truthy_uid_of_identity hkey'
    have hfirst : HasUid first uid := ⟨e, List.mem_of_mem_filter he, huid⟩
    have hsecond : HasUid second uid' := ⟨e', List.mem_of_mem_filter he', huid'⟩
    rcases uids_of_shared_identity (identityForm hkey huid) (identityForm hkey' huid') with
      rfl | ⟨date, hslot | hslot⟩
    · exact huids uid hfirst hsecond
    · exact (hslots uid hfirst uid' hsecond date).1 hslot
    · exact (hslots uid hfirst uid' hsecond date).2 hslot

theorem AreApart.exists_class (h : AreApart zones first second) :
    ∃ p : String → Bool, (∀ uid, HasUid first uid → p uid = true) ∧
      ∀ uid, HasUid second uid → p uid = false :=
  ⟨fun uid => decide (HasUid first uid), fun _ => decide_eq_true, fun uid huid =>
    decide_eq_false fun hyes => h.uids uid hyes huid⟩

theorem buildableEvents_append : buildableEvents zones (first ++ second) =
    buildableEvents zones first ++ buildableEvents zones second := List.filter_append _ _

/-- Events that are apart are separated by a class that tells their uids. -/
theorem AreApart.separates (h : AreApart zones first second)
    (hfirst : ∀ uid, HasUid first uid → p uid = true) (hsecond : ∀ uid, HasUid second uid → p uid = false) :
    SeparatesIdentities zones p (buildableEvents zones (first ++ second)) := by
  have hclass : ∀ e ∈ buildableEvents zones first, ∀ identity,
      buildEventRevisionIdentity zones e = some identity → inClass p e = true := by
    intro e he identity hkey
    obtain ⟨uid, huid⟩ := truthy_uid_of_identity hkey
    rw [inClass_of_uid huid]
    exact hfirst uid ⟨e, List.mem_of_mem_filter he, huid⟩
  have hclass' : ∀ e ∈ buildableEvents zones second, ∀ identity,
      buildEventRevisionIdentity zones e = some identity → inClass p e = false := by
    intro e he identity hkey
    obtain ⟨uid, huid⟩ := truthy_uid_of_identity hkey
    rw [inClass_of_uid huid]
    exact hsecond uid ⟨e, List.mem_of_mem_filter he, huid⟩
  intro e he e' he' identity hkey hkey'
  rw [buildableEvents_append, List.mem_append] at he he'
  rcases he with he | he <;> rcases he' with he' | he'
  · rw [hclass e he identity hkey, hclass e' he' identity hkey']
  · exact absurd hkey' (h.identities e he e' he' identity hkey)
  · exact absurd hkey (h.identities e' he' e he identity hkey')
  · rw [hclass' e he identity hkey, hclass' e' he' identity hkey']

/-- Events that are apart from each of some lists are apart from all of them. -/
theorem areApart_flatMap {ι : Type*} {f : ι → List IcsEvent} {l : List ι}
    (h : ∀ i ∈ l, AreApart zones first (f i)) : AreApart zones first (l.flatMap f) where
  uids uid hfirst hrest := by
    obtain ⟨e, he, huid⟩ := hrest
    obtain ⟨i, hi, hmem⟩ := List.mem_flatMap.1 he
    exact (h i hi).uids uid hfirst ⟨e, hmem, huid⟩
  identities e he e' he' := by
    obtain ⟨hmem, hbuildable⟩ := List.mem_filter.1 he'
    obtain ⟨i, hi, hmem⟩ := List.mem_flatMap.1 hmem
    exact (h i hi).identities e he e' (List.mem_filter.2 ⟨hmem, hbuildable⟩)

theorem filter_inClass_eq_nil (h : ∀ uid, HasUid events uid → p uid = false) :
    events.filter (inClass p) = [] := by
  rw [List.filter_eq_nil_iff]
  intro e he
  unfold inClass
  cases huid : truthy e.uid with
  | none => simp
  | some uid => simp [h uid ⟨e, he, huid⟩]

/-- A class with the uids of some events has those of the events that have a uid. -/
theorem filter_inClass_eq (h : ∀ uid, HasUid events uid → p uid = true) :
    events.filter (inClass p) = events.filter (inClass fun _ => true) := by
  refine List.filter_congr fun e he => ?_
  unfold inClass
  cases huid : truthy e.uid with
  | none => rfl
  | some uid => simp [h uid ⟨e, he, huid⟩]

theorem SeparatesIdentities.not (h : SeparatesIdentities zones p events) :
    SeparatesIdentities zones (fun uid => !p uid) events := by
  intro e he e' he' identity hkey hkey'
  obtain ⟨uid, huid⟩ := truthy_uid_of_identity hkey
  obtain ⟨uid', huid'⟩ := truthy_uid_of_identity hkey'
  have hsame := h e he e' he' identity hkey hkey'
  rw [inClass_of_uid huid, inClass_of_uid huid'] at hsame ⊢
  rw [hsame]

theorem perm_append_of_filter {α : Type*} {l first second : List α} (q : α → Bool)
    (hfirst : l.filter q = first) (hsecond : l.filter (fun a => !q a) = second) :
    l.Perm (first ++ second) := by
  rw [← hfirst, ← hsecond]
  exact (List.filter_append_perm q l).symm

/-- A class that tells the uids of two lists divides what they are together. -/
theorem filter_append_inClass (hfirst : ∀ uid, HasUid first uid → p uid = true)
    (hsecond : ∀ uid, HasUid second uid → p uid = false) :
    (first ++ second).filter (inClass p) = first.filter (inClass fun _ => true) ∧
      (first ++ second).filter (inClass fun uid => !p uid) = second.filter (inClass fun _ => true) := by
  constructor
  · rw [List.filter_append, filter_inClass_eq hfirst, filter_inClass_eq_nil hsecond, List.append_nil]
  · rw [List.filter_append, filter_inClass_eq_nil fun uid huid => by rw [hfirst uid huid]; rfl,
      filter_inClass_eq fun uid huid => by rw [hsecond uid huid]; rfl, List.nil_append]

/-- **Of events that are apart** each side leaves what is read of it alone. -/
theorem AreApart.perm_read (h : AreApart zones first second) :
    (readIcsEvents zones options (first ++ second)
        (canonicalRevisions zones (first ++ second))).events.Perm
      ((readIcsEvents zones options first (canonicalRevisions zones first)).events ++
        (readIcsEvents zones options second (canonicalRevisions zones second)).events) ∧
    (readIcsEvents zones options (first ++ second)
        (canonicalRevisions zones (first ++ second))).unsupportedEvents.Perm
      ((readIcsEvents zones options first (canonicalRevisions zones first)).unsupportedEvents ++
        (readIcsEvents zones options second (canonicalRevisions zones second)).unsupportedEvents) := by
  obtain ⟨p, hfirst, hsecond⟩ := h.exists_class
  have hseparates := h.separates hfirst hsecond
  obtain ⟨hleft, hright⟩ := filter_append_inClass hfirst hsecond
  obtain ⟨hevents, hreports⟩ := read_filter_uids zones options first
  obtain ⟨hevents', hreports'⟩ := read_filter_uids zones options second
  refine ⟨perm_append_of_filter (fun slot => p slot.uid) ?_ ?_,
    perm_append_of_filter (fun report => p report.uid) ?_ ?_⟩
  · rw [filter_events hseparates, hleft, hevents]
  · rw [filter_events (p := fun uid => !p uid) hseparates.not, hright, hevents']
  · rw [filter_unsupportedEvents hseparates, hleft, hreports]
  · rw [filter_unsupportedEvents (p := fun uid => !p uid) hseparates.not, hright, hreports']

theorem mem_keptEvents_filter (h : SeparatesIdentities zones p (buildableEvents zones rawEvents))
    (hclass : inClass p event = true)
    (hkept : event ∈ keptEvents options (canonicalRevisions zones rawEvents).events) :
    event ∈ keptEvents options (canonicalRevisions zones (rawEvents.filter (inClass p))).events := by
  rw [← filter_canonicalRevisions h, ← filter_keptEvents]
  exact List.mem_filter.2 ⟨hkept, hclass⟩

theorem mem_keptEvents_of_uids (hkept : event ∈ keptEvents options
    (canonicalRevisions zones (rawEvents.filter (inClass fun _ => true))).events) :
    event ∈ keptEvents options (canonicalRevisions zones rawEvents).events := by
  rw [← filter_canonicalRevisions (separates_uids _ _), ← filter_keptEvents] at hkept
  exact List.mem_of_mem_filter hkept

/-- **Events that are apart can be read together** where each side can be read. -/
theorem AreApart.isReadable (h : AreApart zones first second)
    (hfirst : IsReadable zones options first) (hsecond : IsReadable zones options second) :
    IsReadable zones options (first ++ second) where
  ends event hevent := (List.mem_append.1 hevent).elim (hfirst.ends event) (hsecond.ends event)
  recurrences event hevent :=
    (List.mem_append.1 hevent).elim (hfirst.recurrences event) (hsecond.recurrences event)
  exceptions event hkept := by
    obtain ⟨uid, huid⟩ := truthy_uid_of_mem_keptEvents hkept
    obtain ⟨p, hleft, hright⟩ := h.exists_class
    have hseparates := h.separates hleft hright
    obtain ⟨hevents, hevents'⟩ := filter_append_inClass hleft hright
    cases hside : p uid with
    | true =>
      have hmem := mem_keptEvents_filter hseparates (by rw [inClass_of_uid huid, hside]) hkept
      rw [hevents] at hmem
      exact hfirst.exceptions event (mem_keptEvents_of_uids hmem)
    | false =>
      have hmem := mem_keptEvents_filter hseparates.not (by rw [inClass_of_uid huid, hside]; rfl) hkept
      rw [hevents'] at hmem
      exact hsecond.exceptions event (mem_keptEvents_of_uids hmem)

theorem parseIcsEventsWithDiagnostics_nil (zones : Zones) (options : ParseIcsEventsOptions) :
    parseIcsEventsWithDiagnostics zones options [] = .ok ⟨[], 0, 0, []⟩ := rfl

/-- **Events that are apart are read to** what each side is read to, in some order. -/
theorem parseIcsEventsWithDiagnostics_append (h : AreApart zones first second)
    {result result' : ParsedIcsEventDiagnostics}
    (hfirst : parseIcsEventsWithDiagnostics zones options first = .ok result)
    (hsecond : parseIcsEventsWithDiagnostics zones options second = .ok result') :
    ∃ all, parseIcsEventsWithDiagnostics zones options (first ++ second) = .ok all ∧
      all.events.Perm (result.events ++ result'.events) ∧
      all.unsupportedEvents.Perm (result.unsupportedEvents ++ result'.unsupportedEvents) := by
  obtain ⟨hreadable, rfl⟩ := parseIcsEventsWithDiagnostics_eq_ok_iff.1 hfirst
  obtain ⟨hreadable', rfl⟩ := parseIcsEventsWithDiagnostics_eq_ok_iff.1 hsecond
  obtain ⟨hevents, hreports⟩ := @AreApart.perm_read zones options first second h
  exact ⟨_, parseIcsEventsWithDiagnostics_eq_ok_iff.2 ⟨h.isReadable hreadable hreadable', rfl⟩, hevents,
    hreports⟩

end Classes

end Keeper
