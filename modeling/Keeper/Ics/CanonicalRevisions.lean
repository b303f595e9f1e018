import Keeper.Ics.ParseEvents
import Mathlib.Data.Prod.Lex

/-!
# Which revisions are canonical

A VEVENT is canonical if it is the revision that its identity selects and, where the mark of a slot
is in its identity, is newer than the revision that the identity of its master selects.

* `mem_canonicalRevisions_iff`: the canonical revisions are these.
* `shouldSkipEvent_eq_false`: what is not skipped.
* `parseIcsEventsWithDiagnostics_eq_ok_iff`: when the reader returns.
-/

namespace Keeper

open JsArray

/-! ## Identities -/

theorem bar_not_mem_isoText (date : JsDate) : '|' ∉ (isoText date).toList := by
  cases date with
  | none => decide
  | some t => exact Date.not_mem_toISOString (by decide) (by decide) t

theorem isoText_ne_master (date : JsDate) : isoText date ≠ "master" := by
  intro h
  have hmem : 'm' ∈ (isoText date).toList := by
    rw [h]
    decide
  cases date with
  | none => exact absurd hmem (by decide)
  | some t => exact Date.not_mem_toISOString (by decide) (by decide) t hmem

theorem isoText_injective : Function.Injective isoText := by
  have hinvalid : ∀ t, isoText (some t) ≠ isoText none := by
    intro t h
    have hspace : ' ' ∈ (isoText (some t)).toList := by
      rw [h]
      decide
    exact Date.not_mem_toISOString (by decide) (by decide) t hspace
  intro date date' h
  cases date with
  | none =>
    cases date' with
    | none => rfl
    | some t' => exact absurd h.symm (hinvalid t')
  | some t =>
    cases date' with
    | none => exact absurd h (hinvalid t)
    | some t' => exact congrArg some (Date.toISOString_injective h)

theorem bar_inj {s s' t t' : String} (ht : '|' ∉ t.toList) (ht' : '|' ∉ t'.toList)
    (h : s ++ "|" ++ t = s' ++ "|" ++ t') : s = s' ∧ t = t' := by
  have hlist := congrArg String.toList h
  simp only [String.toList_append] at hlist
  have hbar : "|".toList = ['|'] := rfl
  simp only [hbar, List.append_assoc, List.singleton_append] at hlist
  obtain ⟨hs, ht⟩ := Text.append_separator_inj ht ht' hlist
  exact ⟨String.ext hs, String.ext ht⟩

theorem buildRecurrenceIdentity_inj {uid uid' : String} {date date' : JsDate}
    (h : buildRecurrenceIdentity uid date = buildRecurrenceIdentity uid' date') :
    uid = uid' ∧ date = date' := by
  obtain ⟨huid, hdate⟩ := bar_inj (bar_not_mem_isoText _) (bar_not_mem_isoText _) h
  exact ⟨huid, isoText_injective hdate⟩

theorem masterIdentity_eq (uid : String) : masterIdentity uid = uid ++ "|" ++ "master" := by
  rw [String.append_assoc]
  rfl

theorem masterIdentity_inj {uid uid' : String} (h : masterIdentity uid = masterIdentity uid') :
    uid = uid' := by
  rw [masterIdentity_eq, masterIdentity_eq] at h
  exact (bar_inj (by decide) (by decide) h).1

theorem masterIdentity_ne_bar (uid s : String) (date : JsDate) :
    masterIdentity uid ≠ s ++ "|" ++ isoText date := by
  intro h
  rw [masterIdentity_eq] at h
  exact isoText_ne_master date (bar_inj (by decide) (bar_not_mem_isoText _) h).2.symm

section Identities

variable {zones : Zones} {event : IcsEvent} {uid : String}

/-- **The identity of a master** is that of its uid alone. -/
theorem truthy_uid_of_masterIdentity
    (h : buildEventRevisionIdentity zones event = some (masterIdentity uid)) :
    truthy event.uid = some uid ∧ event.recurrenceId = none := by
  unfold buildEventRevisionIdentity at h
  obtain ⟨uid', huid, h⟩ := Option.bind_eq_some_iff.1 h
  cases hrec : event.recurrenceId with
  | some recurrenceId =>
    simp only [hrec] at h
    exact absurd (Option.some.inj h).symm (masterIdentity_ne_bar _ _ _)
  | none =>
    simp only [hrec] at h
    split_ifs at h
    · rw [huid, masterIdentity_inj (Option.some.inj h)]
      exact ⟨rfl, rfl⟩
    · obtain ⟨start, -, h⟩ := Option.map_eq_some_iff.1 h
      exact absurd h.symm (masterIdentity_ne_bar _ _ _)

end Identities

/-! ## The order of revisions -/

def HasRevisionTime (event : IcsEvent) : Prop := (getEventRevisionTime event).isSome

instance (event : IcsEvent) : Decidable (HasRevisionTime event) :=
  inferInstanceAs (Decidable ((getEventRevisionTime event).isSome = true))

/-- The rank of a revision: by its sequence, its time, and the lower signature. -/
def revisionRank (event : IcsEvent) : ℤ ×ₗ ℤ ×ₗ (List ℕ)ᵒᵈ :=
  toLex (event.sequence.getD 0, toLex ((getEventRevisionTime event).getD 0,
    OrderDual.toDual (Text.utf16Units (buildEventSlotSignature event))))

theorem compareUnits_neg_iff {first second : String} :
    Text.compareUnits first second < 0 ↔ Text.utf16Units first < Text.utf16Units second := by
  unfold Text.compareUnits
  split_ifs with hlt hgt
  · exact iff_of_true (by decide) hlt
  · exact iff_of_false (by decide) hlt
  · exact iff_of_false (by decide) hlt

theorem isNewerEventRevision_iff {event current : IcsEvent} (hevent : HasRevisionTime event)
    (hcurrent : HasRevisionTime current) :
    isNewerEventRevision event current = true ↔
      current.sequence.getD 0 < event.sequence.getD 0 ∨
        current.sequence.getD 0 = event.sequence.getD 0 ∧
          (getEventRevisionTime current).getD 0 < (getEventRevisionTime event).getD 0 := by
  obtain ⟨time, htime⟩ := Option.isSome_iff_exists.1 hevent
  obtain ⟨time', htime'⟩ := Option.isSome_iff_exists.1 hcurrent
  unfold isNewerEventRevision compareEventRevisions
  rw [htime, htime']
  dsimp only
  split_ifs with hdelta
  · simp only [Option.any_some, decide_eq_true_eq, Int.sign_pos_iff]
    omega
  · simp only [Option.pure_def, Option.bind_eq_bind, Option.bind_some, Option.any_some,
      decide_eq_true_eq, Int.sign_pos_iff, Option.getD_some]
    omega

def revisionOrder (event : IcsEvent) : ℤ ×ₗ ℤ :=
  toLex (event.sequence.getD 0, (getEventRevisionTime event).getD 0)

theorem isNewerEventRevision_iff_lt {event current : IcsEvent} (hevent : HasRevisionTime event)
    (hcurrent : HasRevisionTime current) :
    isNewerEventRevision event current = true ↔ revisionOrder current < revisionOrder event := by
  rw [isNewerEventRevision_iff hevent hcurrent, revisionOrder, revisionOrder,
    Prod.Lex.toLex_lt_toLex]

theorem isNewerEventRevision_prefers : Prefers isNewerEventRevision HasRevisionTime where
  asymm a b ha hb hab := by
    rw [isNewerEventRevision_iff_lt ha hb] at hab
    exact Bool.eq_false_iff.2 fun hba => hab.asymm ((isNewerEventRevision_iff_lt hb ha).1 hba)
  splits a b c ha hb hc hac := by
    rw [isNewerEventRevision_iff_lt ha hc] at hac
    rw [isNewerEventRevision_iff_lt ha hb, isNewerEventRevision_iff_lt hb hc]
    rcases lt_or_ge (revisionOrder b) (revisionOrder a) with hba | hab
    · exact Or.inl hba
    · exact Or.inr (hac.trans_le hab)

/-- **A revision replaces the winner** iff it ranks higher. -/
theorem replacesWinner_iff {event winner : IcsEvent} (hevent : HasRevisionTime event)
    (hwinner : HasRevisionTime winner) :
    replacesWinner event winner = true ↔ revisionRank winner < revisionRank event := by
  have hnewer := isNewerEventRevision_iff hevent hwinner
  have htie : compareEventRevisions event winner = some 0 ↔
      winner.sequence.getD 0 = event.sequence.getD 0 ∧
        (getEventRevisionTime winner).getD 0 = (getEventRevisionTime event).getD 0 := by
    obtain ⟨time, htime⟩ := Option.isSome_iff_exists.1 hevent
    obtain ⟨time', htime'⟩ := Option.isSome_iff_exists.1 hwinner
    unfold compareEventRevisions
    rw [htime, htime']
    dsimp only
    split_ifs with hdelta
    · simp only [Option.some.injEq, Int.sign_eq_zero_iff_zero]
      omega
    · simp only [Option.pure_def, Option.bind_eq_bind, Option.bind_some, Option.some.injEq,
        Int.sign_eq_zero_iff_zero, Option.getD_some]
      omega
  rw [replacesWinner, Bool.or_eq_true, Bool.and_eq_true, decide_eq_true_eq, decide_eq_true_eq, htie,
    compareUnits_neg_iff]
  refine (or_congr_left hnewer).trans ?_
  rw [revisionRank, revisionRank, Prod.Lex.toLex_lt_toLex, Prod.Lex.toLex_lt_toLex,
    OrderDual.toDual_lt_toDual]
  dsimp only
  tauto

theorem replacesWinner_prefers : Prefers replacesWinner HasRevisionTime where
  asymm a b ha hb hab := by
    rw [replacesWinner_iff ha hb] at hab
    exact Bool.eq_false_iff.2 fun hba => hab.asymm ((replacesWinner_iff hb ha).1 hba)
  splits a b c ha hb hc hac := by
    rw [replacesWinner_iff ha hc] at hac
    rw [replacesWinner_iff ha hb, replacesWinner_iff hb hc]
    rcases lt_or_ge (revisionRank b) (revisionRank a) with hba | hab
    · exact Or.inl hba
    · exact Or.inr (hac.trans_le hab)

/-! ## Selection -/

section Selection

variable (zones : Zones)

def selectedRevision (events : List IcsEvent) (identity : String) : Option IcsEvent :=
  (selectGroupRevision (events.filter fun event =>
    buildEventRevisionIdentity zones event = some identity)).map (·.event)

def buildableEvents (rawEvents : List IcsEvent) : List IcsEvent :=
  rawEvents.filter fun event => !isUnbuildableEvent zones event

/-- An event survives the masters of some events: if it is not an override and the mark of a slot is
in its identity, it is newer than the selected master of its uid. -/
def SurvivesMaster (events : List IcsEvent) (event : IcsEvent) : Prop :=
  ∀ uid, truthy event.uid = some uid → event.recurrenceId = none →
    (buildEventRevisionIdentity zones event).any includesSlotMark = true → ∀ master,
      selectedRevision zones events (masterIdentity uid) = some master →
        isNewerEventRevision event master = true

/-- An event of a calendar is canonical: its identity selects it, and it survives the masters. -/
structure IsCanonical (rawEvents : List IcsEvent) (event : IcsEvent) : Prop where
  selected : ∃ identity, buildEventRevisionIdentity zones event = some identity ∧
    selectedRevision zones (buildableEvents zones rawEvents) identity = some event
  survives : SurvivesMaster zones (buildableEvents zones rawEvents) event

variable {zones} {events rawEvents : List IcsEvent} {event : IcsEvent} {uid identity : String}

variable {group : List IcsEvent}

theorem selectGroupRevision_mem {revision : CanonicalEventRevision} (h : selectGroupRevision group = some revision) :
    revision.event ∈ group := by
  cases group with
  | nil => cases h
  | cons first rest =>
    obtain rfl := Option.some.inj h
    exact keepBest_mem _ _ _

/-- **No event of its identity replaces a selected revision.** -/
theorem not_replaces_selected (htimes : ∀ e ∈ events, HasRevisionTime e)
    (h : selectedRevision zones events identity = some event) {e : IcsEvent} (he : e ∈ events)
    (hidentity : buildEventRevisionIdentity zones e = some identity) :
    replacesWinner e event ≠ true := by
  obtain ⟨revision, hrevision, rfl⟩ := Option.map_eq_some_iff.1 h
  have hmem : e ∈ events.filter fun event =>
      buildEventRevisionIdentity zones event = some identity :=
    List.mem_filter.2 ⟨he, decide_eq_true hidentity⟩
  have hgroup : ∀ e ∈ events.filter fun event =>
      buildEventRevisionIdentity zones event = some identity, HasRevisionTime e := fun e he =>
    htimes e (List.mem_filter.1 he).1
  generalize events.filter (fun event =>
    buildEventRevisionIdentity zones event = some identity) = group at hrevision hmem hgroup
  cases group with
  | nil => cases hmem
  | cons first rest =>
    obtain rfl := Option.some.inj hrevision
    exact replacesWinner_prefers.not_better_keepBest hgroup hmem

theorem mem_of_selected (h : selectedRevision zones events identity = some event) :
    event ∈ events ∧ buildEventRevisionIdentity zones event = some identity := by
  obtain ⟨revision, hrevision, rfl⟩ := Option.map_eq_some_iff.1 h
  obtain ⟨hmem, hidentity⟩ := List.mem_filter.1 (selectGroupRevision_mem hrevision)
  exact ⟨hmem, of_decide_eq_true hidentity⟩

theorem exists_selected (he : event ∈ events)
    (hidentity : buildEventRevisionIdentity zones event = some identity) :
    ∃ selected, selectedRevision zones events identity = some selected := by
  have hmem : event ∈ events.filter fun event =>
      buildEventRevisionIdentity zones event = some identity :=
    List.mem_filter.2 ⟨he, decide_eq_true hidentity⟩
  unfold selectedRevision
  generalize events.filter (fun event =>
    buildEventRevisionIdentity zones event = some identity) = group at hmem
  cases group with
  | nil => cases hmem
  | cons first rest => exact ⟨_, rfl⟩

/-- **The groups of the events** are those of their identities. -/
theorem values_groupEventsByRevisionIdentity :
    (groupEventsByRevisionIdentity zones events).values =
      (groupEventsByRevisionIdentity zones events).keys.map fun identity =>
        events.filter fun event => buildEventRevisionIdentity zones event = some identity := by
  refine JsMap.values_eq_map_keys fun identity group hget => ?_
  rw [groupEventsByRevisionIdentity, JsMap.get?_group, JsMap.valuesAt_keyed] at hget
  exact hget.2

theorem mem_keys_groupEventsByRevisionIdentity :
    identity ∈ (groupEventsByRevisionIdentity zones events).keys ↔
      ∃ event ∈ events, buildEventRevisionIdentity zones event = some identity := by
  rw [groupEventsByRevisionIdentity, JsMap.mem_keys_group, List.mem_map]
  constructor
  · rintro ⟨⟨_, event⟩, hmem, rfl⟩
    exact ⟨event, JsMap.mem_keyed.1 hmem⟩
  · rintro ⟨event, hevent⟩
    exact ⟨(identity, event), JsMap.mem_keyed.2 hevent, rfl⟩

/-- **The canonical events before the masters are compared**: one selected for each identity. -/
theorem mem_selected_iff :
    event ∈ ((groupEventsByRevisionIdentity zones events).values.filterMap
      selectGroupRevision).map (·.event) ↔ ∃ identity,
        buildEventRevisionIdentity zones event = some identity ∧
          selectedRevision zones events identity = some event := by
  simp only [values_groupEventsByRevisionIdentity, List.mem_map, List.mem_filterMap,
    mem_keys_groupEventsByRevisionIdentity]
  constructor
  · rintro ⟨revision, ⟨group, ⟨identity, -, rfl⟩, hrevision⟩, rfl⟩
    have hselected : selectedRevision zones events identity = some revision.event := by
      rw [selectedRevision, hrevision]
      rfl
    exact ⟨identity, (mem_of_selected hselected).2, hselected⟩
  · rintro ⟨identity, hidentity, hselected⟩
    obtain ⟨revision, hrevision, rfl⟩ := Option.map_eq_some_iff.1 hselected
    exact ⟨revision, ⟨_, ⟨identity, ⟨_, (mem_of_selected hselected).1, hidentity⟩, rfl⟩,
      hrevision⟩, rfl⟩

/-! ## Authoritative masters -/

def newestOf : List IcsEvent → Option IcsEvent
  | [] => none
  | first :: rest => some (keepBest isNewerEventRevision first rest)

theorem newestOf_mem (h : newestOf group = some event) : event ∈ group := by
  cases group with
  | nil => cases h
  | cons first rest =>
    obtain rfl := Option.some.inj h
    exact keepBest_mem _ _ _

theorem newestOf_eq_none_iff : newestOf group = none ↔ group = [] := by
  cases group with
  | nil => exact iff_of_true rfl rfl
  | cons first rest => exact iff_of_false (fun h => by cases h) (fun h => by cases h)

/-- **No event is newer** than the newest. -/
theorem revisionOrder_le_newestOf (htimes : ∀ e ∈ group, HasRevisionTime e) (h : newestOf group = some event)
    {other : IcsEvent} (hmem : other ∈ group) : revisionOrder other ≤ revisionOrder event := by
  have hevent := htimes event (newestOf_mem h)
  cases group with
  | nil => cases h
  | cons first rest =>
    obtain rfl := Option.some.inj h
    have hno := isNewerEventRevision_prefers.not_better_keepBest htimes hmem
    exact not_lt.1 (mt (isNewerEventRevision_iff_lt (htimes other hmem) hevent).2 hno)

theorem get?_foldl_newest (entries : List (String × IcsEvent)) (newest : JsMap String IcsEvent) :
    (entries.foldl (fun newest event =>
      match newest.get? event.1 with
      | none => newest.set event.1 event.2
      | some current =>
        if isNewerEventRevision event.2 current then newest.set event.1 event.2 else newest)
      newest).get? uid = newestOf ((newest.get? uid).toList ++ JsMap.valuesAt uid entries) := by
  induction entries generalizing newest with
  | nil => cases h : newest.get? uid <;> simp [h, JsMap.valuesAt, newestOf, keepBest]
  | cons entry entries ih =>
    rw [List.foldl_cons, ih]
    by_cases hkey : entry.1 = uid
    · have hvalues : JsMap.valuesAt uid (entry :: entries) =
          entry.2 :: JsMap.valuesAt uid entries := by
        simp [JsMap.valuesAt, hkey]
      rw [hvalues, hkey]
      cases hcurrent : newest.get? uid with
      | none => simp
      | some current =>
        dsimp only
        split_ifs with hnewer
        · simp [newestOf, keepBest, hnewer]
        · simp [newestOf, keepBest, hnewer, hcurrent]
    · have hvalues : JsMap.valuesAt uid (entry :: entries) = JsMap.valuesAt uid entries := by
        simp [JsMap.valuesAt, hkey]
      rw [hvalues]
      split
      · rw [JsMap.get?_set_of_ne _ _ hkey]
      · split_ifs
        · rw [JsMap.get?_set_of_ne _ _ hkey]
        · rfl

theorem get?_newestByUid (entries : List (String × IcsEvent)) (uid : String) :
    (newestByUid entries).get? uid = newestOf (JsMap.valuesAt uid entries) :=
  get?_foldl_newest entries JsMap.empty

/-- **The newest event of a uid**, where it has one only. -/
theorem get?_newestByUid_iff {entries : List (String × IcsEvent)}
    (hunique : ∀ a b, (uid, a) ∈ entries → (uid, b) ∈ entries → a = b) :
    (newestByUid entries).get? uid = some event ↔ (uid, event) ∈ entries := by
  rw [get?_newestByUid]
  constructor
  · intro h
    exact JsMap.mem_valuesAt.1 (newestOf_mem h)
  · intro hmem
    cases hnewest : newestOf (JsMap.valuesAt uid entries) with
    | none =>
      have hvalue := JsMap.mem_valuesAt.2 hmem
      rw [newestOf_eq_none_iff.1 hnewest] at hvalue
      cases hvalue
    | some newest => rw [hunique _ _ (JsMap.mem_valuesAt.1 (newestOf_mem hnewest)) hmem]

/-- **The authoritative master** of a uid is the revision that its identity selects. -/
theorem get?_authoritativeMasterByUid :
    (authoritativeMasterByUid zones (((groupEventsByRevisionIdentity zones events).values.filterMap
      selectGroupRevision).map (·.event))).get? uid =
        selectedRevision zones events (masterIdentity uid) := by
  have hentry : ∀ e, (uid, e) ∈ JsMap.keyed (masterUid zones)
      (((groupEventsByRevisionIdentity zones events).values.filterMap selectGroupRevision).map
        (·.event)) ↔ selectedRevision zones events (masterIdentity uid) = some e := by
    intro e
    rw [JsMap.mem_keyed, mem_selected_iff, masterUid, Option.filter_eq_some_iff, decide_eq_true_eq]
    constructor
    · rintro ⟨⟨identity, hidentity, hselected⟩, -, hmaster⟩
      rw [hidentity] at hmaster
      rw [← Option.some.inj hmaster]
      exact hselected
    · intro hselected
      have hidentity := (mem_of_selected hselected).2
      exact ⟨⟨_, hidentity, hselected⟩, (truthy_uid_of_masterIdentity hidentity).1, hidentity⟩
  refine Option.ext fun e => ?_
  rw [authoritativeMasterByUid, get?_newestByUid_iff fun a b ha hb => ?_, hentry]
  rw [hentry] at ha hb
  exact Option.some.inj (ha.symm.trans hb)

/-- What `survivesAuthoritativeMaster` keeps. -/
theorem survivesAuthoritativeMaster_iff :
    survivesAuthoritativeMaster zones (authoritativeMasterByUid zones
      (((groupEventsByRevisionIdentity zones events).values.filterMap selectGroupRevision).map
        (·.event))) event = true ↔ SurvivesMaster zones events event := by
  unfold survivesAuthoritativeMaster SurvivesMaster
  cases huid : truthy event.uid with
  | none => simp
  | some uid =>
    simp only [get?_authoritativeMasterByUid, Option.some.injEq, forall_eq']
    cases hrec : event.recurrenceId with
    | some recurrenceId => simp
    | none =>
      cases hmark : (buildEventRevisionIdentity zones event).any includesSlotMark with
      | false => simp
      | true =>
        cases hmaster : selectedRevision zones events (masterIdentity uid) with
        | none => simp
        | some master => simp

/-- **The canonical revisions** of a calendar. -/
theorem mem_canonicalRevisions_iff :
    event ∈ (canonicalRevisions zones rawEvents).events ↔ IsCanonical zones rawEvents event := by
  rw [canonicalRevisions, selectCanonicalEventRevisions, List.mem_filter, mem_selected_iff,
    survivesAuthoritativeMaster_iff]
  exact ⟨fun ⟨hselected, hkeeps⟩ => ⟨hselected, hkeeps⟩, fun h => ⟨h.selected, h.survives⟩⟩

theorem IsCanonical.mem (h : IsCanonical zones rawEvents event) :
    event ∈ buildableEvents zones rawEvents := by
  obtain ⟨identity, -, hselected⟩ := h.selected
  exact (mem_of_selected hselected).1

theorem IsCanonical.mem_raw (h : IsCanonical zones rawEvents event) : event ∈ rawEvents :=
  (List.mem_filter.1 h.mem).1

theorem nodup_identities_canonicalRevisions :
    ((canonicalRevisions zones rawEvents).events.map
      (buildEventRevisionIdentity zones)).Nodup := by
  rw [canonicalRevisions, selectCanonicalEventRevisions]
  refine List.Nodup.sublist (List.filter_sublist.map _) ?_
  generalize rawEvents.filter (fun event => !isUnbuildableEvent zones event) = events
  have hkeys := (groupEventsByRevisionIdentity zones events).keys_nodup.map
    (Option.some_injective String)
  refine hkeys.sublist ?_
  rw [values_groupEventsByRevisionIdentity]
  induction (groupEventsByRevisionIdentity zones events).keys with
  | nil => exact List.Sublist.refl _
  | cons identity identities ih =>
    rw [List.map_cons, List.map_cons]
    cases hselected : selectGroupRevision (events.filter fun event =>
        buildEventRevisionIdentity zones event = some identity) with
    | none =>
      rw [List.filterMap_cons_none hselected]
      exact ih.cons _
    | some revision =>
      rw [List.filterMap_cons_some hselected, List.map_cons, List.map_cons,
        of_decide_eq_true (List.mem_filter.1 (selectGroupRevision_mem hselected)).2]
      exact ih.cons_cons _

end Selection

/-! ## What is kept -/

section Kept

def HasCancelledMaster (rawEvents : List IcsEvent) (uid : String) : Prop :=
  ∃ event ∈ rawEvents, truthy event.uid = some uid ∧ event.recurrenceId = none ∧
    event.status = some "CANCELLED"

def HasCancelledOverride (rawEvents : List IcsEvent) (uid : String) (date : JsDate) : Prop :=
  ∃ event ∈ rawEvents, truthy event.uid = some uid ∧
    event.recurrenceId.map (·.value.date) = some date ∧ event.status = some "CANCELLED"

variable {zones : Zones} {options : ParseIcsEventsOptions} {rawEvents events : List IcsEvent}
  {event : IcsEvent} {uid : String}

theorem cancelledUid_eq_some_iff : cancelledUid event = some uid ↔
    truthy event.uid = some uid ∧ event.status = some "CANCELLED" := by
  rw [cancelledUid]
  split_ifs with hstatus
  · exact (and_iff_left hstatus).symm
  · exact iff_of_false (fun h => by cases h) (fun h => hstatus h.2)

theorem mem_cancelledMasters {other : IcsEvent} :
    other ∈ JsMap.valuesAt uid ((JsMap.keyed cancelledUid events).filter fun e =>
      e.2.recurrenceId.isNone) ↔
      other ∈ events ∧ truthy other.uid = some uid ∧ other.recurrenceId = none ∧
        other.status = some "CANCELLED" := by
  rw [JsMap.mem_valuesAt, List.mem_filter, JsMap.mem_keyed, cancelledUid_eq_some_iff,
    Option.isNone_iff_eq_none]
  tauto

theorem get?_cancelledMasters (hno : ¬ HasCancelledMaster events uid) :
    (collectCancellationState events).cancelledMasters.get? uid = none := by
  refine (get?_newestByUid _ uid).trans (newestOf_eq_none_iff.2 ?_)
  exact List.eq_nil_iff_forall_not_mem.2 fun e he => hno ⟨e, mem_cancelledMasters.1 he⟩

theorem mem_cancelledRecurrences {date : IcsDateValue} :
    date ∈ ((collectCancellationState events).cancelledRecurrences.get? uid).getD [] ↔
      ∃ e ∈ events, truthy e.uid = some uid ∧ e.status = some "CANCELLED" ∧
        e.recurrenceId.map (·.value) = some date := by
  refine (iff_of_eq (congrArg (date ∈ ·) (JsMap.getD_group _ uid))).trans ?_
  simp only [JsMap.mem_valuesAt, List.mem_filterMap, Option.map_eq_some_iff, Prod.mk.injEq]
  constructor
  · rintro ⟨⟨_, e⟩, he, recurrenceId, hrec, rfl, rfl⟩
    obtain ⟨hmem, hcancelled⟩ := JsMap.mem_keyed.1 he
    obtain ⟨huid, hstatus⟩ := cancelledUid_eq_some_iff.1 hcancelled
    exact ⟨e, hmem, huid, hstatus, recurrenceId, hrec, rfl⟩
  · rintro ⟨e, hmem, huid, hstatus, recurrenceId, hrec, rfl⟩
    exact ⟨(uid, e), JsMap.mem_keyed.2 ⟨hmem, cancelledUid_eq_some_iff.2 ⟨huid, hstatus⟩⟩,
      recurrenceId, hrec, rfl, rfl⟩

/-- **The identities of the cancelled instances.** -/
theorem mem_cancelledRecurrenceIdentities {identity : String} :
    identity ∈ (collectCancellationState events).cancelledRecurrenceIdentities ↔
      ∃ e ∈ events, ∃ uid recurrenceId, truthy e.uid = some uid ∧
        e.recurrenceId = some recurrenceId ∧ e.status = some "CANCELLED" ∧
        identity = buildRecurrenceIdentity uid recurrenceId.value.date := by
  constructor
  · intro h
    obtain ⟨⟨uid, dates⟩, hentry, hmem⟩ := List.mem_flatMap.1 h
    obtain ⟨date, hdate, rfl⟩ := List.mem_map.1 hmem
    have hdates := JsMap.mem_entries_iff.1 hentry
    have hmem : date ∈ ((collectCancellationState events).cancelledRecurrences.get? uid).getD [] := by
      rw [show (collectCancellationState events).cancelledRecurrences.get? uid = _ from hdates]
      exact hdate
    obtain ⟨e, he, huid, hstatus, hrec⟩ := mem_cancelledRecurrences.1 hmem
    obtain ⟨recurrenceId, hrecurrence, rfl⟩ := Option.map_eq_some_iff.1 hrec
    exact ⟨e, he, uid, recurrenceId, huid, hrecurrence, hstatus, rfl⟩
  · rintro ⟨e, he, uid, recurrenceId, huid, hrec, hstatus, rfl⟩
    have hvalue : e.recurrenceId.map (·.value) = some recurrenceId.value := by
      rw [hrec]
      rfl
    have hmem := mem_cancelledRecurrences.2 ⟨e, he, huid, hstatus, hvalue⟩
    cases hdates : (collectCancellationState events).cancelledRecurrences.get? uid with
    | none =>
      rw [hdates] at hmem
      cases hmem
    | some dates =>
      rw [hdates] at hmem
      exact List.mem_flatMap.2 ⟨(uid, dates), JsMap.mem_entries_iff.2 hdates,
        List.mem_map.2 ⟨recurrenceId.value, hmem, rfl⟩⟩

def HaveReadableRecurrences (events : List IcsEvent) : Prop :=
  ∀ event ∈ events, hasUnreadableRecurrence event = false

theorem HaveReadableRecurrences.date_isSome (h : HaveReadableRecurrences events)
    (hmem : event ∈ events) (huid : truthy event.uid = some uid) {recurrenceId : IcsRecurrenceId}
    (hrec : event.recurrenceId = some recurrenceId) : recurrenceId.value.date.isSome := by
  have hno := h event hmem
  rw [hasUnreadableRecurrence, huid, hrec] at hno
  simpa using hno

/-- **What is not skipped**: an event with a uid of its publisher and a start, of which neither the
master nor the instance is cancelled. -/
theorem shouldSkipEvent_eq_false (hsub : ∀ e ∈ events, e ∈ rawEvents) (hmem : event ∈ events)
    (huid : truthy event.uid = some uid) (hforeign : isForeignUid options uid = true)
    (hstart : event.start.isSome) (hmaster : ¬ HasCancelledMaster rawEvents uid)
    (hoverride : ∀ recurrenceId, event.recurrenceId = some recurrenceId →
      ¬ HasCancelledOverride rawEvents uid recurrenceId.value.date) :
    shouldSkipEvent event options (collectCancellationState events) = false := by
  have hlive : event.status ≠ some "CANCELLED" := by
    intro hstatus
    cases hrec : event.recurrenceId with
    | none => exact hmaster ⟨event, hsub event hmem, huid, hrec, hstatus⟩
    | some recurrenceId =>
      exact hoverride recurrenceId hrec ⟨event, hsub event hmem, huid, by rw [hrec]; rfl, hstatus⟩
  have hmasters : (collectCancellationState events).cancelledMasters.get? uid = none :=
    get?_cancelledMasters fun ⟨e, he, h⟩ => hmaster ⟨e, hsub e he, h⟩
  have hoverrides : (event.recurrenceId.any fun recurrenceId =>
      (collectCancellationState events).cancelledRecurrenceIdentities.contains
        (buildRecurrenceIdentity uid recurrenceId.value.date)) = false := by
    cases hrec : event.recurrenceId with
    | none => rfl
    | some recurrenceId =>
      refine Bool.eq_false_iff.2 fun hcontains => hoverride recurrenceId hrec ?_
      rw [Option.any_some, List.contains_eq_mem, decide_eq_true_eq] at hcontains
      obtain ⟨e, he, uid', recurrenceId', huid', hrec', hstatus, hidentity⟩ :=
        mem_cancelledRecurrenceIdentities.1 hcontains
      obtain ⟨rfl, hdate⟩ := buildRecurrenceIdentity_inj hidentity
      exact ⟨e, hsub e he, huid', by rw [hrec', hdate]; rfl, hstatus⟩
  have hkeeper : (!options.includeKeeperEvents && isKeeperEvent uid) = false := by
    rw [isForeignUid] at hforeign
    cases hinclude : options.includeKeeperEvents with
    | true => rfl
    | false =>
      rw [hinclude, Bool.false_or, Bool.not_eq_true'] at hforeign
      rw [hforeign]
      rfl
  have hstarted : event.start.isNone = false := by
    rw [← Option.not_isSome, hstart]
    rfl
  unfold shouldSkipEvent
  rw [huid]
  dsimp only
  rw [hmasters, hoverrides, hkeeper, hstarted, decide_eq_false hlive]
  rfl

/-- **What is skipped not** has a uid, a start, and is not cancelled. -/
theorem of_shouldSkipEvent_eq_false {cancellations : CancellationState}
    (h : shouldSkipEvent event options cancellations = false) :
    (∃ uid, truthy event.uid = some uid) ∧ event.start.isSome := by
  unfold shouldSkipEvent at h
  cases huid : truthy event.uid with
  | none =>
    rw [huid] at h
    cases h
  | some uid =>
    rw [huid] at h
    simp only [Bool.or_eq_false_iff] at h
    refine ⟨⟨uid, rfl⟩, ?_⟩
    rw [← Option.not_isNone, h.1.1.1.1]
    rfl

/-! ## Conversion -/

/-- A slot is the conversion of an event, with some exception dates. -/
def IsSlotOf (zones : Zones) (event : IcsEvent) (slot : EventTimeSlot) : Prop :=
  ∃ cancellations, convertCanonicalEvent zones event cancellations = some slot

theorem convertCanonicalEvent_eq_some {cancellations : CancellationState} {slot : EventTimeSlot}
    (h : convertCanonicalEvent zones event cancellations = some slot) :
    event.uid = some slot.uid ∧ slot.recurrenceId = event.recurrenceId.bind (·.value.date) := by
  unfold convertCanonicalEvent at h
  obtain ⟨uid, huid, h⟩ := Option.bind_eq_some_iff.1 h
  obtain ⟨start, -, h⟩ := Option.bind_eq_some_iff.1 h
  obtain ⟨startTime, -, h⟩ := Option.bind_eq_some_iff.1 h
  obtain ⟨endTime, -, h⟩ := Option.bind_eq_some_iff.1 h
  obtain rfl := Option.some.inj h
  exact ⟨huid, rfl⟩

/-- **A buildable event with a start** has a slot. -/
theorem exists_convertCanonicalEvent (hbuildable : isUnbuildableEvent zones event = false)
    (huid : truthy event.uid = some uid) (hstart : event.start.isSome)
    (cancellations : CancellationState) :
    ∃ slot, convertCanonicalEvent zones event cancellations = some slot ∧ slot.uid = uid ∧
      slot.recurrenceId = event.recurrenceId.bind (·.value.date) := by
  obtain ⟨start, hstart⟩ := Option.isSome_iff_exists.1 hstart
  have htimes : ∃ startTime endTime, start.date = some startTime ∧
      getEventEndTime zones event start = some endTime := by
    unfold isUnbuildableEvent at hbuildable
    rw [hstart] at hbuildable
    dsimp only at hbuildable
    cases hdate : start.date with
    | none =>
      rw [hdate] at hbuildable
      cases hbuildable
    | some startTime =>
      rw [hdate] at hbuildable
      dsimp only at hbuildable
      split at hbuildable
      · rename_i endTime hend
        refine ⟨startTime, endTime, rfl, ?_⟩
        rw [getEventEndTime, hdate, Option.bind_some, hend]
        rfl
      · cases hbuildable
  obtain ⟨startTime, endTime, hdate, hend⟩ := htimes
  have huid' := (truthy_eq_some_iff.1 huid).1
  refine ⟨_, Option.bind_eq_some_iff.2 ⟨uid, huid', Option.bind_eq_some_iff.2 ⟨start, hstart,
    Option.bind_eq_some_iff.2 ⟨startTime, hdate, Option.bind_eq_some_iff.2 ⟨endTime, hend,
      rfl⟩⟩⟩⟩, rfl, rfl⟩

/-! ## The reader -/

/-- Nothing is thrown: every end can be computed, every recurrence id printed, and every exception
date of a recurring event that is kept. -/
structure IsReadable (zones : Zones) (options : ParseIcsEventsOptions)
    (rawEvents : List IcsEvent) : Prop where
  ends : ∀ event ∈ rawEvents, endTimeError zones event = none
  recurrences : HaveReadableRecurrences rawEvents
  exceptions : ∀ event ∈ keptEvents options (canonicalRevisions zones rawEvents).events,
    hasUnreadableException event = false

/-- **The reader returns** iff nothing is thrown. -/
theorem parseIcsEventsWithDiagnostics_eq_ok_iff {result : ParsedIcsEventDiagnostics} :
    parseIcsEventsWithDiagnostics zones options rawEvents = .ok result ↔
      IsReadable zones options rawEvents ∧
        result = readIcsEvents zones options rawEvents (canonicalRevisions zones rawEvents) := by
  unfold parseIcsEventsWithDiagnostics
  cases hends : rawEvents.findSome? (endTimeError zones) with
  | some error =>
    obtain ⟨event, hevent, herror⟩ := List.exists_of_findSome?_eq_some hends
    refine iff_of_false (fun h => by cases h) fun h => ?_
    rw [h.1.ends event hevent] at herror
    cases herror
  | none =>
    dsimp only
    rw [List.findSome?_eq_none_iff] at hends
    split_ifs with hunreadable
    · refine iff_of_false (fun h => by cases h) fun h => ?_
      rw [Bool.or_eq_true, List.any_eq_true, List.any_eq_true] at hunreadable
      rcases hunreadable with ⟨event, hevent, hyes⟩ | ⟨event, hevent, hyes⟩
      · rw [h.1.recurrences event hevent] at hyes
        cases hyes
      · rw [h.1.exceptions event hevent] at hyes
        cases hyes
    · rw [Bool.not_eq_true, Bool.or_eq_false_iff, List.any_eq_false, List.any_eq_false]
        at hunreadable
      have hreadable : IsReadable zones options rawEvents :=
        ⟨hends, fun event hevent => Bool.eq_false_iff.2 (hunreadable.1 event hevent),
          fun event hevent => Bool.eq_false_iff.2 (hunreadable.2 event hevent)⟩
      rw [Except.ok.injEq, and_iff_right hreadable]
      exact eq_comm

theorem mem_events_readIcsEvents {slot : EventTimeSlot} :
    slot ∈ (readIcsEvents zones options rawEvents (canonicalRevisions zones rawEvents)).events ↔
      ∃ event ∈ keptEvents options (canonicalRevisions zones rawEvents).events,
        convertCanonicalEvent zones event
          (collectCancellationState (canonicalRevisions zones rawEvents).events) = some slot :=
  List.mem_filterMap

/-- **A kept event** is canonical, with a uid and a start. -/
theorem of_mem_keptEvents
    (h : event ∈ keptEvents options (canonicalRevisions zones rawEvents).events) :
    IsCanonical zones rawEvents event ∧ (∃ uid, truthy event.uid = some uid) ∧
      event.start.isSome := by
  obtain ⟨hmem, hskip⟩ := List.mem_filter.1 h
  rw [Bool.not_eq_true'] at hskip
  exact ⟨mem_canonicalRevisions_iff.1 hmem, of_shouldSkipEvent_eq_false hskip⟩

/-- **A canonical event that is not cancelled** is kept. -/
theorem mem_keptEvents (hcanonical : IsCanonical zones rawEvents event) (huid : truthy event.uid = some uid)
    (hforeign : isForeignUid options uid = true) (hstart : event.start.isSome)
    (hmaster : ¬ HasCancelledMaster rawEvents uid)
    (hoverride : ∀ recurrenceId, event.recurrenceId = some recurrenceId →
      ¬ HasCancelledOverride rawEvents uid recurrenceId.value.date) :
    event ∈ keptEvents options (canonicalRevisions zones rawEvents).events := by
  have hmem := mem_canonicalRevisions_iff.2 hcanonical
  refine List.mem_filter.2 ⟨hmem, ?_⟩
  rw [shouldSkipEvent_eq_false
    (fun e he => (mem_canonicalRevisions_iff.1 he).mem_raw) hmem huid hforeign hstart hmaster
    hoverride]
  rfl

theorem exists_entry (hcanonical : IsCanonical zones rawEvents event) (huid : truthy event.uid = some uid)
    (hforeign : isForeignUid options uid = true) (hstart : event.start.isSome)
    (hmaster : ¬ HasCancelledMaster rawEvents uid)
    (hoverride : ∀ recurrenceId, event.recurrenceId = some recurrenceId →
      ¬ HasCancelledOverride rawEvents uid recurrenceId.value.date) :
    ∃ slot ∈ (readIcsEvents zones options rawEvents (canonicalRevisions zones rawEvents)).events,
      slot.uid = uid ∧ slot.recurrenceId = event.recurrenceId.bind (·.value.date) := by
  have hkept := mem_keptEvents hcanonical huid hforeign hstart hmaster hoverride
  have hbuildable := (List.mem_filter.1 hcanonical.mem).2
  rw [Bool.not_eq_true'] at hbuildable
  obtain ⟨slot, hslot, huid', hrec⟩ := exists_convertCanonicalEvent hbuildable huid hstart
    (collectCancellationState (canonicalRevisions zones rawEvents).events)
  exact ⟨slot, mem_events_readIcsEvents.2 ⟨event, hkept, hslot⟩, huid', hrec⟩

end Kept

end Keeper
