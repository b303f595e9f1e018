import Keeper.Ics.AlikeRevisions
import Keeper.Ics.WithheldEvents

/-!
# Feed order

What the reader returns for the VEVENTs of a calendar in another order: the same keys of entries, the
same exception dates of recurring ones, the same withheld uids and the same counts, where revisions
that tie are alike and every canonical revision of a uid gives the same answer to a stale one.

* `sameResult_of_perm`: the order of such a feed does not matter.
* `not_sameResult`: it does where a cancelled revision ties with a confirmed one.
-/

namespace Keeper

open JsArray

/-! ## What is compared -/

def entryKeys (result : ParsedIcsEventDiagnostics) : Set EntryKey :=
  {key | ∃ slot ∈ result.events, entryKey slot = key}

/-- The keys of the recurring entries, with the instants of their exception dates. -/
def recurringExceptions (result : ParsedIcsEventDiagnostics) : Set (EntryKey × Set JsDate) :=
  {entry | ∃ slot ∈ result.events, slot.recurrenceRule.isSome ∧
    entry = (entryKey slot, {date | date ∈ exceptionInstants slot.exceptionDates})}

def unsupportedUids (result : ParsedIcsEventDiagnostics) : Set String :=
  {uid | uid ∈ result.unsupportedEvents.map (·.uid)}

/-- Two readings agree. -/
structure SameReading (result result' : ParsedIcsEventDiagnostics) : Prop where
  entries : entryKeys result = entryKeys result'
  exceptions : recurringExceptions result = recurringExceptions result'
  unsupported : unsupportedUids result = unsupportedUids result'
  selfAuthoredCount : result.selfAuthoredCount = result'.selfAuthoredCount
  unrepresentableCount : result.unrepresentableCount = result'.unrepresentableCount

/-- Both calls throw, or their readings agree. -/
def SameResult : Except RangeError ParsedIcsEventDiagnostics →
    Except RangeError ParsedIcsEventDiagnostics → Prop
  | .ok result, .ok result' => SameReading result result'
  | .error _, .error _ => True
  | _, _ => False

section Reading

variable {zones : Zones} {options : ParseIcsEventsOptions} {rawEvents rawEvents' : List IcsEvent}
  {event other : IcsEvent} {uid identity : String}

/-! ## Entries -/

theorem map_entryKey_convertCanonicalEvent (cancellations : CancellationState) :
    (convertCanonicalEvent zones event cancellations).map entryKey = eventKey zones event := by
  unfold convertCanonicalEvent eventKey
  cases huid : event.uid with
  | none => rfl
  | some uid =>
    cases hstart : event.start with
    | none => rfl
    | some start =>
      cases hdate : start.date with
      | none => simp [hdate]
      | some startTime => cases hend : getEventEndTime zones event start <;> simp [hdate, hend, entryKey]

/-- **The keys of the entries** are those of the kept revisions. -/
theorem mem_entryKeys_iff (htimes : ∀ e ∈ rawEvents, HasRevisionTime e) {key : EntryKey} :
    key ∈ entryKeys (readIcsEvents zones options rawEvents (canonicalRevisions zones rawEvents)) ↔
      ∃ uid event, IsKept zones options rawEvents uid event ∧ eventKey zones event = some key := by
  constructor
  · rintro ⟨slot, hslot, rfl⟩
    obtain ⟨event, hkept, hconvert⟩ := mem_events_readIcsEvents.1 hslot
    obtain ⟨uid, hkept⟩ := (mem_keptEvents_iff htimes).1 hkept
    refine ⟨uid, event, hkept, ?_⟩
    rw [← map_entryKey_convertCanonicalEvent, hconvert]
    rfl
  · rintro ⟨uid, event, hkept, hkey⟩
    rw [← map_entryKey_convertCanonicalEvent (collectCancellationState
      (canonicalRevisions zones rawEvents).events)] at hkey
    obtain ⟨slot, hconvert, hkey⟩ := Option.map_eq_some_iff.1 hkey
    exact ⟨slot, mem_events_readIcsEvents.2 ⟨event, (mem_keptEvents_iff htimes).2 ⟨uid, hkept⟩,
      hconvert⟩, hkey⟩

/-- The instants of the exception dates of a recurring revision: its own, and those of its cancelled
instances. -/
def exceptionsOf (zones : Zones) (rawEvents : List IcsEvent) (uid : String) (event : IcsEvent) :
    Set JsDate :=
  {date | date ∈ exceptionInstants event.exceptionDates ∨
    ∃ other, IsCancellation zones rawEvents uid other ∧ instanceDate other = some date}

theorem recurrence_convertCanonicalEvent {cancellations : CancellationState} {slot : EventTimeSlot}
    (huid : truthy event.uid = some uid)
    (h : convertCanonicalEvent zones event cancellations = some slot) :
    slot.recurrenceRule = event.recurrenceRule ∧ (event.recurrenceRule.isSome →
      slot.exceptionDates = mergeExceptionDates event.exceptionDates
        ((cancellations.cancelledRecurrences.get? uid).getD [])) := by
  unfold convertCanonicalEvent at h
  obtain ⟨uid', huid', h⟩ := Option.bind_eq_some_iff.1 h
  obtain rfl : uid' = uid := Option.some.inj (huid'.symm.trans (truthy_eq_some_iff.1 huid).1)
  obtain ⟨start, -, h⟩ := Option.bind_eq_some_iff.1 h
  obtain ⟨startTime, -, h⟩ := Option.bind_eq_some_iff.1 h
  obtain ⟨endTime, -, h⟩ := Option.bind_eq_some_iff.1 h
  obtain rfl := Option.some.inj h
  exact ⟨rfl, fun hrule => if_pos hrule⟩

/-- **The exception dates of a recurring entry.** -/
theorem exceptionInstants_convertCanonicalEvent {slot : EventTimeSlot}
    (huid : truthy event.uid = some uid) (hrule : event.recurrenceRule.isSome)
    (h : convertCanonicalEvent zones event (collectCancellationState
      (canonicalRevisions zones rawEvents).events) = some slot) :
    {date | date ∈ exceptionInstants slot.exceptionDates} =
      exceptionsOf zones rawEvents uid event := by
  rw [(recurrence_convertCanonicalEvent huid h).2 hrule]
  ext date
  refine mem_mergeExceptionDates_iff.trans (or_congr_right ?_)
  simp only [mem_cancelledRecurrences, isCancellation_iff]
  constructor
  · rintro ⟨value, ⟨e, hmem, huid', hstatus, hvalue⟩, rfl⟩
    refine ⟨e, ⟨hmem, huid', hstatus⟩, ?_⟩
    obtain ⟨recurrenceId, hrec, rfl⟩ := Option.map_eq_some_iff.1 hvalue
    rw [instanceDate, hrec]
    rfl
  · rintro ⟨e, ⟨hmem, huid', hstatus⟩, hdate⟩
    obtain ⟨recurrenceId, hrec, rfl⟩ := Option.map_eq_some_iff.1 hdate
    exact ⟨recurrenceId.value, ⟨e, hmem, huid', hstatus, by rw [hrec]; rfl⟩, rfl⟩

theorem mem_recurringExceptions_iff (htimes : ∀ e ∈ rawEvents, HasRevisionTime e)
    {entry : EntryKey × Set JsDate} :
    entry ∈ recurringExceptions
        (readIcsEvents zones options rawEvents (canonicalRevisions zones rawEvents)) ↔
      ∃ uid event, IsKept zones options rawEvents uid event ∧ event.recurrenceRule.isSome ∧
        eventKey zones event = some entry.1 ∧ entry.2 = exceptionsOf zones rawEvents uid event := by
  constructor
  · rintro ⟨slot, hslot, hrule, rfl⟩
    obtain ⟨event, hkept, hconvert⟩ := mem_events_readIcsEvents.1 hslot
    obtain ⟨uid, hkept⟩ := (mem_keptEvents_iff htimes).1 hkept
    rw [(recurrence_convertCanonicalEvent hkept.hasUid hconvert).1] at hrule
    refine ⟨uid, event, hkept, hrule, ?_,
      exceptionInstants_convertCanonicalEvent hkept.hasUid hrule hconvert⟩
    rw [← map_entryKey_convertCanonicalEvent, hconvert]
    rfl
  · rintro ⟨uid, event, hkept, hrule, hkey, hdates⟩
    rw [← map_entryKey_convertCanonicalEvent (collectCancellationState
      (canonicalRevisions zones rawEvents).events)] at hkey
    obtain ⟨slot, hconvert, hkey⟩ := Option.map_eq_some_iff.1 hkey
    refine ⟨slot, mem_events_readIcsEvents.2 ⟨event, (mem_keptEvents_iff htimes).2 ⟨uid, hkept⟩,
      hconvert⟩, ?_, ?_⟩
    · rw [(recurrence_convertCanonicalEvent hkept.hasUid hconvert).1]
      exact hrule
    · rw [exceptionInstants_convertCanonicalEvent hkept.hasUid hrule hconvert, ← hdates, hkey]

/-! ## Stale revisions -/

/-- An event that cannot be represented is newer than the canonical revision of its instance that the
reader finds. -/
def IsStale (zones : Zones) (rawEvents : List IcsEvent) (event : IcsEvent) : Prop :=
  isUnbuildableEvent zones event = true ∧ ∃ canonical,
    (instanceIdentity? event).bind (canonicalOfInstance zones rawEvents) = some canonical ∧
      isNewerEventRevision event canonical = true

/-- An event of a uid that cannot be represented is newer than each canonical revision of the uid that
is no override, or than none. -/
def StaleSettled (zones : Zones) (rawEvents : List IcsEvent) : Prop :=
  ∀ event ∈ rawEvents, isUnbuildableEvent zones event = true → event.recurrenceId = none →
    ∀ a b, IsCanonical zones rawEvents a → IsCanonical zones rawEvents b →
      instanceIdentity? a = instanceIdentity? event → instanceIdentity? b = instanceIdentity? event →
        isNewerEventRevision event a = isNewerEventRevision event b

theorem Alike.instanceIdentity (h : Alike zones event other) :
    instanceIdentity? event = instanceIdentity? other := by
  have heq := h.instance_eq
  rw [instanceDate, instanceDate] at heq
  rw [instanceIdentity?, instanceIdentity?, h.uid, heq]

theorem of_canonicalOfInstance (h : canonicalOfInstance zones rawEvents identity = some event) :
    IsCanonical zones rawEvents event ∧ instanceIdentity? event = some identity := by
  obtain ⟨hmem, hidentity⟩ := JsMap.mem_keyed.1 (JsMap.get?_ofList_some h)
  exact ⟨mem_canonicalRevisions_iff.1 hmem, hidentity⟩

theorem exists_canonicalOfInstance (h : IsCanonical zones rawEvents event)
    (hidentity : instanceIdentity? event = some identity) :
    ∃ canonical, canonicalOfInstance zones rawEvents identity = some canonical := by
  refine JsMap.mem_keys_iff.1 (JsMap.mem_keys_ofList.2 (List.mem_map.2 ⟨(identity, event), ?_, rfl⟩))
  exact JsMap.mem_keyed.2 ⟨mem_canonicalRevisions_iff.2 h, hidentity⟩

/-- **An override has one canonical revision.** -/
theorem canonical_override_unique {a b : IcsEvent} (ha : IsCanonical zones rawEvents a)
    (hb : IsCanonical zones rawEvents b) {recurrenceId : IcsRecurrenceId}
    (hrec : event.recurrenceId = some recurrenceId)
    (hsame : instanceIdentity? a = instanceIdentity? event)
    (hsame' : instanceIdentity? b = instanceIdentity? event)
    (hsome : (instanceIdentity? event).isSome) : a = b := by
  have hrevision : ∀ c, instanceIdentity? c = instanceIdentity? event →
      buildEventRevisionIdentity zones c = instanceIdentity? event := by
    intro c hc
    rw [← hc] at hsome ⊢
    obtain ⟨identity, hidentity⟩ := Option.isSome_iff_exists.1 hsome
    obtain ⟨uid, huid, rfl⟩ := Option.map_eq_some_iff.1 hidentity
    rw [hidentity] at hc
    obtain ⟨uid', -, hevent⟩ := Option.map_eq_some_iff.1 hc.symm
    rw [hrec] at hevent
    rw [hidentity]
    unfold buildEventRevisionIdentity
    rw [huid]
    cases hrec' : c.recurrenceId with
    | none =>
      rw [hrec'] at hevent
      exact absurd hevent.symm (masterIdentity_ne_bar _ _ _)
    | some recurrenceId' => rfl
  obtain ⟨identity, hidentity, hselected⟩ := ha.selected
  obtain ⟨identity', hidentity', hselected'⟩ := hb.selected
  rw [hrevision a hsame] at hidentity
  rw [hrevision b hsame', hidentity] at hidentity'
  rw [← Option.some.inj hidentity', hselected] at hselected'
  exact Option.some.inj hselected'

/-- **A stale revision** is stale in a feed in another order. -/
theorem IsStale.of_perm (hperm : rawEvents.Perm rawEvents')
    (htimes : ∀ e ∈ rawEvents, HasRevisionTime e) (hties : TiesAlike zones rawEvents)
    (hsettled : StaleSettled zones rawEvents) (hmem : event ∈ rawEvents)
    (h : IsStale zones rawEvents event) : IsStale zones rawEvents' event := by
  have htimes' : ∀ e ∈ rawEvents', HasRevisionTime e := fun e he => htimes e (hperm.mem_iff.2 he)
  obtain ⟨hunbuildable, canonical, hfound, hnewer⟩ := h
  obtain ⟨identity, hidentity, hcanonical⟩ := Option.bind_eq_some_iff.1 hfound
  obtain ⟨hcanonical, hinstance⟩ := of_canonicalOfInstance hcanonical
  obtain ⟨other, hother, halike⟩ := hcanonical.exists_alike hperm htimes hties
  obtain ⟨found, hfound'⟩ := exists_canonicalOfInstance hother
    (halike.instanceIdentity.symm.trans hinstance)
  refine ⟨hunbuildable, found, by rw [hidentity]; exact hfound', ?_⟩
  -- the revision that is found there is like one of this order, which answers as the one found here
  obtain ⟨hfoundCanonical, hfoundInstance⟩ := of_canonicalOfInstance hfound'
  obtain ⟨back, hback, hbackAlike⟩ := hfoundCanonical.exists_alike hperm.symm htimes'
    (hties.of_perm hperm)
  have hbackInstance := hbackAlike.instanceIdentity.symm.trans hfoundInstance
  have hagree : isNewerEventRevision event back = isNewerEventRevision event canonical := by
    cases hrec : event.recurrenceId with
    | none =>
      exact hsettled event hmem hunbuildable hrec back canonical hback hcanonical
        (hbackInstance.trans hidentity.symm) (hinstance.trans hidentity.symm)
    | some recurrenceId =>
      rw [canonical_override_unique hback hcanonical hrec (hbackInstance.trans hidentity.symm)
        (hinstance.trans hidentity.symm) (by rw [hidentity]; rfl)]
  rw [← hnewer, ← hagree]
  exact isNewerEventRevision_congr (htimes _ hmem) (htimes _ hmem)
    (htimes' _ hfoundCanonical.mem_raw) (htimes _ hback.mem_raw) rfl
    (revisionOrder_eq_of_rank hbackAlike.rank)

theorem StaleSettled.of_perm (hperm : rawEvents.Perm rawEvents')
    (htimes : ∀ e ∈ rawEvents, HasRevisionTime e) (hties : TiesAlike zones rawEvents)
    (h : StaleSettled zones rawEvents) : StaleSettled zones rawEvents' := by
  have htimes' : ∀ e ∈ rawEvents', HasRevisionTime e := fun e he => htimes e (hperm.mem_iff.2 he)
  intro event hmem hunbuildable hrec a b ha hb hsame hsame'
  obtain ⟨a', ha', halike⟩ := ha.exists_alike hperm.symm htimes' (hties.of_perm hperm)
  obtain ⟨b', hb', hblike⟩ := hb.exists_alike hperm.symm htimes' (hties.of_perm hperm)
  have hcongr : ∀ {c c'}, IsCanonical zones rawEvents' c → IsCanonical zones rawEvents c' →
      Alike zones c c' → isNewerEventRevision event c = isNewerEventRevision event c' :=
    fun hc hc' hlike => isNewerEventRevision_congr (htimes' _ hmem) (htimes' _ hmem)
      (htimes' _ hc.mem_raw) (htimes _ hc'.mem_raw) rfl (revisionOrder_eq_of_rank hlike.rank)
  rw [hcongr ha ha' halike, hcongr hb hb' hblike]
  exact h event (hperm.mem_iff.2 hmem) hunbuildable hrec a' b' ha' hb'
    (halike.instanceIdentity.symm.trans hsame) (hblike.instanceIdentity.symm.trans hsame')

/-! ## Withheld uids -/

/-- **A withheld uid** is withheld in a feed in another order. -/
theorem WithholdsUid.of_perm (hperm : rawEvents.Perm rawEvents')
    (htimes : ∀ e ∈ rawEvents, HasRevisionTime e) (hties : TiesAlike zones rawEvents)
    (hsettled : StaleSettled zones rawEvents) (h : WithholdsUid zones rawEvents uid) :
    WithholdsUid zones rawEvents' uid := by
  cases h with
  | unresolved event hmem huid hreason =>
    exact .unresolved event (hperm.mem_iff.1 hmem) huid hreason
  | ranged event hcanonical huid hrange =>
    obtain ⟨other, hother, halike⟩ := hcanonical.exists_alike hperm htimes hties
    exact .ranged other hother (halike.uid.symm.trans huid) (halike.range.symm.trans hrange)
  | stale event canonical hmem huid hunbuildable hinstance hnewer =>
    have hstale : IsStale zones rawEvents event := ⟨hunbuildable, canonical, hinstance, hnewer⟩
    obtain ⟨-, canonical', hinstance', hnewer'⟩ := hstale.of_perm hperm htimes hties hsettled hmem
    exact .stale event canonical' (hperm.mem_iff.1 hmem) huid hunbuildable hinstance' hnewer'

/-! ## Counts -/

theorem countSelfAuthored_perm (hperm : rawEvents.Perm rawEvents') :
    countSelfAuthored rawEvents options = countSelfAuthored rawEvents' options :=
  length_dedup_congr fun _ => ((hperm.filterMap _).filter _).mem_iff

theorem countUnrepresentable_perm (hperm : rawEvents.Perm rawEvents')
    {parsed parsed' : List String} (h : ∀ identity, identity ∈ parsed ↔ identity ∈ parsed') :
    countUnrepresentable zones rawEvents options parsed =
      countUnrepresentable zones rawEvents' options parsed' := by
  have hcontains : ∀ identity, parsed.contains identity = parsed'.contains identity := by
    intro identity
    rw [List.contains_eq_mem, List.contains_eq_mem, decide_eq_decide]
    exact h identity
  unfold countUnrepresentable
  simp only [hcontains]
  exact congrArg₂ (· + ·) (hperm.filter _).length_eq
    (length_dedup_congr fun _ => (((hperm.filter _).filterMap _).filter _).mem_iff)

theorem mem_stale_identities :
    identity ∈ (collectStaleRevisions zones rawEvents
      (canonicalRevisions zones rawEvents).events).identities ↔
        ∃ event ∈ rawEvents, instanceIdentity? event = some identity ∧
          IsStale zones rawEvents event := by
  simp only [collectStaleRevisions, List.mem_map, List.mem_filter, Bool.and_eq_true,
    Option.any_eq_true]
  constructor
  · rintro ⟨⟨_, event⟩, ⟨hkeyed, hunbuildable, canonical, hget, hnewer⟩, rfl⟩
    obtain ⟨hmem, hidentity⟩ := JsMap.mem_keyed.1 hkeyed
    refine ⟨event, hmem, hidentity, hunbuildable, canonical, ?_, hnewer⟩
    rw [hidentity]
    exact hget
  · rintro ⟨event, hmem, hidentity, hunbuildable, canonical, hget, hnewer⟩
    rw [hidentity] at hget
    exact ⟨(identity, event), ⟨JsMap.mem_keyed.2 ⟨hmem, hidentity⟩, hunbuildable, canonical, hget,
      hnewer⟩, rfl⟩

def collapsedCountAt (zones : Zones) (events : List IcsEvent) (identity : String) : ℕ :=
  ((selectGroupRevision (events.filter fun event =>
    buildEventRevisionIdentity zones event = some identity)).map (·.collapsedSlotCount)).getD 0

def supersededSlots (zones : Zones) (events : List IcsEvent) : List String :=
  let canonicalEvents :=
    ((groupEventsByRevisionIdentity zones events).values.filterMap selectGroupRevision).map (·.event)
  let masters := authoritativeMasterByUid zones canonicalEvents
  (canonicalEvents.filter fun event => !survivesAuthoritativeMaster zones masters event).flatMap
    fun event =>
      match masters.get? (event.uid.getD "") with
      | none => []
      | some authoritativeMaster =>
        (collapsedSlotSignatures [event] authoritativeMaster).map fun signature =>
          event.uid.getD "" ++ "|" ++ signature

theorem collapsedSlotCount_eq (events : List IcsEvent) :
    (selectCanonicalEventRevisions zones events).collapsedSlotCount =
      ((groupEventsByRevisionIdentity zones events).keys.map (collapsedCountAt zones events)).sum +
        (supersededSlots zones events).dedup.length := by
  refine congrArg (· + (supersededSlots zones events).dedup.length) ?_
  rw [sum_map_filterMap, values_groupEventsByRevisionIdentity, List.map_map]
  rfl

/-- **The superseded slots** are of the selected revisions that do not survive their master. -/
theorem mem_supersededSlots {events : List IcsEvent} {text : String} :
    text ∈ supersededSlots zones events ↔ ∃ event identity uid master,
      selectedRevision zones events identity = some event ∧
      ¬ SurvivesMaster zones events event ∧ truthy event.uid = some uid ∧
      selectedRevision zones events (masterIdentity uid) = some master ∧
      buildEventSlotSignature event ≠ buildEventSlotSignature master ∧
      text = uid ++ "|" ++ buildEventSlotSignature event := by
  have hsignatures : ∀ event master signature, signature ∈ collapsedSlotSignatures [event] master ↔
      signature = buildEventSlotSignature event ∧
        buildEventSlotSignature event ≠ buildEventSlotSignature master := by
    intro event master signature
    rw [collapsedSlotSignatures, List.mem_dedup, List.map_singleton, List.mem_filter,
      List.mem_singleton, decide_eq_true_eq]
    exact and_congr_right fun heq => by rw [heq]
  constructor
  · intro h
    obtain ⟨event, hmem, htext⟩ := List.mem_flatMap.1 h
    obtain ⟨hselected, hsuperseded⟩ := List.mem_filter.1 hmem
    obtain ⟨identity, -, hselected⟩ := mem_selected_iff.1 hselected
    have hno : ¬ SurvivesMaster zones events event := by
      rw [← survivesAuthoritativeMaster_iff, Bool.not_eq_true, ← Bool.not_eq_true']
      exact hsuperseded
    obtain ⟨uid, huid⟩ : ∃ uid, truthy event.uid = some uid := by
      by_contra hnone
      exact hno fun uid huid => absurd ⟨uid, huid⟩ hnone
    rw [(truthy_eq_some_iff.1 huid).1, Option.getD_some, get?_authoritativeMasterByUid] at htext
    cases hmaster : selectedRevision zones events (masterIdentity uid) with
    | none =>
      rw [hmaster] at htext
      cases htext
    | some master =>
      rw [hmaster] at htext
      obtain ⟨signature, hsignature, rfl⟩ := List.mem_map.1 htext
      obtain ⟨rfl, hne⟩ := (hsignatures _ _ _).1 hsignature
      exact ⟨event, identity, uid, master, hselected, hno, huid, hmaster, hne, rfl⟩
  · rintro ⟨event, identity, uid, master, hselected, hno, huid, hmaster, hne, rfl⟩
    refine List.mem_flatMap.2 ⟨event, List.mem_filter.2
      ⟨mem_selected_iff.2 ⟨identity, (mem_of_selected hselected).2, hselected⟩, ?_⟩, ?_⟩
    · rw [Bool.not_eq_true', ← Bool.not_eq_true, survivesAuthoritativeMaster_iff]
      exact hno
    · rw [(truthy_eq_some_iff.1 huid).1, Option.getD_some, get?_authoritativeMasterByUid, hmaster]
      exact List.mem_map.2 ⟨_, (hsignatures _ _ _).2 ⟨rfl, hne⟩, rfl⟩

theorem mem_supersededSlots_of_perm (hperm : rawEvents.Perm rawEvents')
    (htimes : ∀ e ∈ rawEvents, HasRevisionTime e) (hties : TiesAlike zones rawEvents) {text : String}
    (h : text ∈ supersededSlots zones (buildableEvents zones rawEvents)) :
    text ∈ supersededSlots zones (buildableEvents zones rawEvents') := by
  have htimes' : ∀ e ∈ rawEvents', HasRevisionTime e := fun e he => htimes e (hperm.mem_iff.2 he)
  obtain ⟨event, identity, uid, master, hselected, hno, huid, hmaster, hne, rfl⟩ :=
    mem_supersededSlots.1 h
  obtain ⟨other, hother, halike⟩ := exists_selected_alike hperm htimes hties hselected
  obtain ⟨master', hmaster', hmasters⟩ := exists_selected_alike hperm htimes hties hmaster
  have hevent := htimes event (List.mem_filter.1 (mem_of_selected hselected).1).1
  have hvalid := htimes' other (List.mem_filter.1 (mem_of_selected hother).1).1
  refine mem_supersededSlots.2 ⟨other, identity, uid, master', hother, fun hsurvives => hno ?_,
    halike.uid.symm.trans huid, hmaster', ?_, ?_⟩
  · exact hsurvives.of_alike hperm.symm htimes' (hties.of_perm hperm) hvalid hevent halike.symm
  · rw [← halike.signature, ← hmasters.signature]
    exact hne
  · rw [halike.signature]

theorem collapsedCountAt_of_selected {events : List IcsEvent}
    (h : selectedRevision zones events identity = some event) :
    collapsedCountAt zones events identity = (collapsedSlotSignatures (events.filter fun event =>
      buildEventRevisionIdentity zones event = some identity) event).length := by
  unfold selectedRevision at h
  unfold collapsedCountAt
  generalize events.filter (fun event =>
    buildEventRevisionIdentity zones event = some identity) = group at h
  cases group with
  | nil => cases h
  | cons first rest =>
    obtain rfl := Option.some.inj h
    rfl

/-- **The collapsed slots** of a feed in another order are as many. -/
theorem collapsedSlotCount_perm (hperm : rawEvents.Perm rawEvents')
    (htimes : ∀ e ∈ rawEvents, HasRevisionTime e) (hties : TiesAlike zones rawEvents) :
    (canonicalRevisions zones rawEvents).collapsedSlotCount =
      (canonicalRevisions zones rawEvents').collapsedSlotCount := by
  have hbuildable := @perm_buildableEvents zones _ _ hperm
  have htimes' : ∀ e ∈ rawEvents', HasRevisionTime e := fun e he => htimes e (hperm.mem_iff.2 he)
  have hkeys := JsMap.keys_group_perm (hbuildable.filterMap fun event =>
    (buildEventRevisionIdentity zones event).map (·, event))
  have hcount : ∀ identity ∈ (groupEventsByRevisionIdentity zones
      (buildableEvents zones rawEvents)).keys,
        collapsedCountAt zones (buildableEvents zones rawEvents) identity =
          collapsedCountAt zones (buildableEvents zones rawEvents') identity := by
    intro identity hkey
    obtain ⟨event, hmem, hidentity⟩ := mem_keys_groupEventsByRevisionIdentity.1 hkey
    obtain ⟨winner, hwinner⟩ := exists_selected hmem hidentity
    obtain ⟨winner', hwinner', halike⟩ := exists_selected_alike hperm htimes hties hwinner
    rw [collapsedCountAt_of_selected hwinner, collapsedCountAt_of_selected hwinner',
      collapsedSlotSignatures, collapsedSlotSignatures, halike.signature]
    exact length_dedup_congr fun _ => (((hbuildable.filter _).map _).filter _).mem_iff
  have hslots : (supersededSlots zones (buildableEvents zones rawEvents)).dedup.length =
      (supersededSlots zones (buildableEvents zones rawEvents')).dedup.length :=
    length_dedup_congr fun _ => ⟨mem_supersededSlots_of_perm hperm htimes hties,
      mem_supersededSlots_of_perm hperm.symm htimes' (hties.of_perm hperm)⟩
  calc (canonicalRevisions zones rawEvents).collapsedSlotCount
      = ((groupEventsByRevisionIdentity zones (buildableEvents zones rawEvents)).keys.map
          (collapsedCountAt zones (buildableEvents zones rawEvents))).sum +
            (supersededSlots zones (buildableEvents zones rawEvents)).dedup.length :=
        collapsedSlotCount_eq _
    _ = ((groupEventsByRevisionIdentity zones (buildableEvents zones rawEvents)).keys.map
          (collapsedCountAt zones (buildableEvents zones rawEvents'))).sum +
            (supersededSlots zones (buildableEvents zones rawEvents')).dedup.length := by
        rw [List.map_congr_left hcount, hslots]
    _ = ((groupEventsByRevisionIdentity zones (buildableEvents zones rawEvents')).keys.map
          (collapsedCountAt zones (buildableEvents zones rawEvents'))).sum +
            (supersededSlots zones (buildableEvents zones rawEvents')).dedup.length :=
        congrArg (· + _) (hkeys.map _).sum_nat
    _ = (canonicalRevisions zones rawEvents').collapsedSlotCount := (collapsedSlotCount_eq _).symm

/-! ## The reading of a permuted feed -/

/-- **A legible calendar** is legible in another order. -/
theorem IsLegible.of_perm (hperm : rawEvents.Perm rawEvents')
    (htimes : ∀ e ∈ rawEvents, HasRevisionTime e) (hties : TiesAlike zones rawEvents)
    (h : IsLegible zones options rawEvents) : IsLegible zones options rawEvents' := by
  have htimes' : ∀ e ∈ rawEvents', HasRevisionTime e := fun e he => htimes e (hperm.mem_iff.2 he)
  refine ⟨fun event hmem => h.ends event (hperm.mem_iff.2 hmem),
    fun event hmem => h.recurrences event (hperm.mem_iff.2 hmem), fun uid event hkept => ?_⟩
  obtain ⟨other, hother, halike⟩ := hkept.exists_alike hperm.symm htimes' (hties.of_perm hperm)
  have hreadable := h.exceptions uid other hother
  have hnone : ∀ e : IcsEvent, hasUnreadableException e = true ↔
      e.recurrenceRule.isSome = true ∧ none ∈ exceptionInstants e.exceptionDates := by
    intro e
    rw [hasUnreadableException, Bool.and_eq_true, List.any_eq_true, exceptionInstants, List.mem_map]
    simp only [Option.isNone_iff_eq_none]
  rw [← Bool.not_eq_true, hnone] at hreadable ⊢
  rintro ⟨hrule, hmem⟩
  exact hreadable ⟨halike.rule.symm.trans hrule, (halike.exceptions hrule none).1 hmem⟩

theorem mem_entryKeys_of_perm (hperm : rawEvents.Perm rawEvents')
    (htimes : ∀ e ∈ rawEvents, HasRevisionTime e) (hties : TiesAlike zones rawEvents)
    {key : EntryKey} (h : key ∈ entryKeys
      (readIcsEvents zones options rawEvents (canonicalRevisions zones rawEvents))) :
    key ∈ entryKeys
      (readIcsEvents zones options rawEvents' (canonicalRevisions zones rawEvents')) := by
  obtain ⟨uid, event, hkept, hkey⟩ := (mem_entryKeys_iff htimes).1 h
  obtain ⟨other, hother, halike⟩ := hkept.exists_alike hperm htimes hties
  exact (mem_entryKeys_iff fun e he => htimes e (hperm.mem_iff.2 he)).2
    ⟨uid, other, hother, halike.key.symm.trans hkey⟩

theorem mem_recurringExceptions_of_perm (hperm : rawEvents.Perm rawEvents')
    (htimes : ∀ e ∈ rawEvents, HasRevisionTime e) (hties : TiesAlike zones rawEvents)
    {entry : EntryKey × Set JsDate} (h : entry ∈ recurringExceptions
      (readIcsEvents zones options rawEvents (canonicalRevisions zones rawEvents))) :
    entry ∈ recurringExceptions
      (readIcsEvents zones options rawEvents' (canonicalRevisions zones rawEvents')) := by
  have htimes' : ∀ e ∈ rawEvents', HasRevisionTime e := fun e he => htimes e (hperm.mem_iff.2 he)
  obtain ⟨uid, event, hkept, hrule, hkey, hdates⟩ := (mem_recurringExceptions_iff htimes).1 h
  obtain ⟨other, hother, halike⟩ := hkept.exists_alike hperm htimes hties
  refine (mem_recurringExceptions_iff htimes').2 ⟨uid, other, hother, halike.rule.symm.trans hrule,
    halike.key.symm.trans hkey, hdates.trans ?_⟩
  ext date
  refine or_congr (halike.exceptions hrule date) ?_
  constructor
  · rintro ⟨e, he, hdate⟩
    obtain ⟨e', he', hlike⟩ := he.exists_alike hperm htimes hties
    exact ⟨e', he', hlike.instance_eq.symm.trans hdate⟩
  · rintro ⟨e, he, hdate⟩
    obtain ⟨e', he', hlike⟩ := he.exists_alike hperm.symm htimes' (hties.of_perm hperm)
    exact ⟨e', he', hlike.instance_eq.symm.trans hdate⟩

/-- The identities that a reading has parsed, less those of stale revisions. -/
def parsedIdentities (zones : Zones) (options : ParseIcsEventsOptions) (rawEvents : List IcsEvent) :
    List String :=
  ((readIcsEvents zones options rawEvents (canonicalRevisions zones rawEvents)).events.map
    fun event => buildInstanceIdentity event.uid (event.recurrenceId.map some)).filter
      fun identity => !(collectStaleRevisions zones rawEvents
        (canonicalRevisions zones rawEvents).events).identities.contains identity

theorem unrepresentableCount_readIcsEvents : (readIcsEvents zones options rawEvents
    (canonicalRevisions zones rawEvents)).unrepresentableCount =
      countUnrepresentable zones rawEvents options (parsedIdentities zones options rawEvents) +
        (canonicalRevisions zones rawEvents).collapsedSlotCount := rfl

theorem mem_unsupportedUids {result : ParsedIcsEventDiagnostics} :
    uid ∈ unsupportedUids result ↔ uid ∈ result.unsupportedEvents.map (·.uid) := Iff.rfl

theorem mem_unsupportedUids_iff : uid ∈ unsupportedUids (readIcsEvents zones options rawEvents
    (canonicalRevisions zones rawEvents)) ↔ WithholdsUid zones rawEvents uid := by
  rw [mem_unsupportedUids, mem_uids_unsupportedEvents_iff]

theorem mem_parsedIdentities : identity ∈ parsedIdentities zones options rawEvents ↔
    (∃ key ∈ entryKeys (readIcsEvents zones options rawEvents (canonicalRevisions zones rawEvents)),
      buildInstanceIdentity key.1 (key.2.1.map some) = identity) ∧
    ¬ ∃ event ∈ rawEvents, instanceIdentity? event = some identity ∧
      IsStale zones rawEvents event := by
  rw [parsedIdentities, List.mem_filter, Bool.not_eq_true', ← Bool.not_eq_true,
    List.contains_eq_mem, decide_eq_true_eq, mem_stale_identities, List.mem_map]
  refine and_congr_left fun _ => ?_
  constructor
  · rintro ⟨slot, hslot, rfl⟩
    exact ⟨_, ⟨slot, hslot, rfl⟩, rfl⟩
  · rintro ⟨_, ⟨slot, hslot, rfl⟩, rfl⟩
    exact ⟨slot, hslot, rfl⟩

theorem mem_parsedIdentities_of_perm (hperm : rawEvents.Perm rawEvents')
    (htimes : ∀ e ∈ rawEvents, HasRevisionTime e) (hties : TiesAlike zones rawEvents)
    (hsettled : StaleSettled zones rawEvents)
    (h : identity ∈ parsedIdentities zones options rawEvents) :
    identity ∈ parsedIdentities zones options rawEvents' := by
  have htimes' : ∀ e ∈ rawEvents', HasRevisionTime e := fun e he => htimes e (hperm.mem_iff.2 he)
  obtain ⟨⟨key, hkey, hidentity⟩, hfresh⟩ := mem_parsedIdentities.1 h
  refine mem_parsedIdentities.2
    ⟨⟨key, mem_entryKeys_of_perm hperm htimes hties hkey, hidentity⟩, ?_⟩
  rintro ⟨event, hmem, hsame, hstale⟩
  exact hfresh ⟨event, hperm.mem_iff.2 hmem, hsame, hstale.of_perm hperm.symm htimes'
    (hties.of_perm hperm) (hsettled.of_perm hperm htimes hties) hmem⟩

/-- **The readings** of a feed and of another order of it agree. -/
theorem sameReading_of_perm (hperm : rawEvents.Perm rawEvents')
    (htimes : ∀ e ∈ rawEvents, HasRevisionTime e) (hties : TiesAlike zones rawEvents)
    (hsettled : StaleSettled zones rawEvents) :
    SameReading (readIcsEvents zones options rawEvents (canonicalRevisions zones rawEvents))
      (readIcsEvents zones options rawEvents' (canonicalRevisions zones rawEvents')) := by
  have htimes' : ∀ e ∈ rawEvents', HasRevisionTime e := fun e he => htimes e (hperm.mem_iff.2 he)
  have hties' := hties.of_perm hperm
  have hsettled' := hsettled.of_perm hperm htimes hties
  refine ⟨?_, ?_, ?_, countSelfAuthored_perm hperm, ?_⟩
  · ext key
    exact ⟨mem_entryKeys_of_perm hperm htimes hties, mem_entryKeys_of_perm hperm.symm htimes' hties'⟩
  · ext entry
    exact ⟨mem_recurringExceptions_of_perm hperm htimes hties,
      mem_recurringExceptions_of_perm hperm.symm htimes' hties'⟩
  · ext uid
    rw [mem_unsupportedUids_iff, mem_unsupportedUids_iff]
    exact ⟨fun h => h.of_perm hperm htimes hties hsettled,
      fun h => h.of_perm hperm.symm htimes' hties' hsettled'⟩
  · have hparsed : ∀ identity, identity ∈ parsedIdentities zones options rawEvents ↔
        identity ∈ parsedIdentities zones options rawEvents' := fun identity =>
      ⟨mem_parsedIdentities_of_perm hperm htimes hties hsettled,
        mem_parsedIdentities_of_perm hperm.symm htimes' hties' hsettled'⟩
    rw [unrepresentableCount_readIcsEvents, unrepresentableCount_readIcsEvents,
      countUnrepresentable_perm hperm hparsed, collapsedSlotCount_perm hperm htimes hties]

end Reading

/-- **The order of a feed does not matter** where revisions that tie are alike and the canonical
revisions of a uid agree on its stale ones. -/
theorem sameResult_of_perm (zones : Zones) (options : ParseIcsEventsOptions)
    {rawEvents rawEvents' : List IcsEvent} (hperm : rawEvents.Perm rawEvents')
    (htimes : ∀ e ∈ rawEvents, HasRevisionTime e) (hties : TiesAlike zones rawEvents)
    (hsettled : StaleSettled zones rawEvents) :
    SameResult (parseIcsEventsWithDiagnostics zones options rawEvents)
      (parseIcsEventsWithDiagnostics zones options rawEvents') := by
  have htimes' : ∀ e ∈ rawEvents', HasRevisionTime e := fun e he => htimes e (hperm.mem_iff.2 he)
  have hok : ∀ {l}, (∀ e ∈ l, HasRevisionTime e) → (IsLegible zones options l ↔
      parseIcsEventsWithDiagnostics zones options l =
        .ok (readIcsEvents zones options l (canonicalRevisions zones l))) := by
    intro l hl
    rw [parseIcsEventsWithDiagnostics_eq_ok_iff, isReadable_iff hl]
    exact (and_iff_left rfl).symm
  by_cases hlegible : IsLegible zones options rawEvents
  · rw [(hok htimes).1 hlegible, (hok htimes').1 (hlegible.of_perm hperm htimes hties)]
    exact sameReading_of_perm hperm htimes hties hsettled
  · have hillegible : ¬ IsLegible zones options rawEvents' := fun h =>
      hlegible (h.of_perm hperm.symm htimes' (hties.of_perm hperm))
    have herror : ∀ {l}, (∀ e ∈ l, HasRevisionTime e) → ¬ IsLegible zones options l →
        ∃ error, parseIcsEventsWithDiagnostics zones options l = .error error := by
      intro l hl hno
      cases hparse : parseIcsEventsWithDiagnostics zones options l with
      | error error => exact ⟨error, rfl⟩
      | ok result =>
        exact absurd ((isReadable_iff hl).1 (parseIcsEventsWithDiagnostics_eq_ok_iff.1 hparse).1) hno
    obtain ⟨error, herror₁⟩ := herror htimes hlegible
    obtain ⟨error', herror₂⟩ := herror htimes' hillegible
    rw [herror₁, herror₂]
    trivial

theorem tiesAlike_of_distinct {zones : Zones} {rawEvents : List IcsEvent}
    (h : ∀ a ∈ buildableEvents zones rawEvents, ∀ b ∈ buildableEvents zones rawEvents,
      buildEventRevisionIdentity zones a = buildEventRevisionIdentity zones b → a = b) :
    TiesAlike zones rawEvents := by
  intro event other hevent hother hsame
  obtain rfl := h event hevent.mem other hother.mem hsame
  exact ⟨rfl, rfl, rfl, rfl, rfl, rfl, rfl, Iff.rfl, rfl, fun _ _ => Iff.rfl⟩

namespace Example

def confirmed : IcsEvent where
  uid := some "review"
  start := some { date := some 0 }
  status := some "CONFIRMED"

/-- The same, cancelled. Neither SEQUENCE nor LAST-MODIFIED tells which is newer. -/
def withdrawn : IcsEvent := { confirmed with status := some "CANCELLED" }

theorem parse_confirmed_withdrawn :
    parseIcsEventsWithDiagnostics noZones {} [confirmed, withdrawn] =
      .ok { events := [{ endTime := 0, isAllDay := false, startTime := 0, uid := "review" }]
            selfAuthoredCount := 0, unrepresentableCount := 0, unsupportedEvents := [] } := rfl

theorem parse_withdrawn_confirmed :
    parseIcsEventsWithDiagnostics noZones {} [withdrawn, confirmed] =
      .ok { events := [], selfAuthoredCount := 0, unrepresentableCount := 0
            unsupportedEvents := [] } := rfl

end Example

theorem sameResult_of_perm_example :
    SameResult
      (parseIcsEventsWithDiagnostics Example.noZones {} [Example.unresolvedZone, Example.confirmed])
      (parseIcsEventsWithDiagnostics Example.noZones {}
        [Example.confirmed, Example.unresolvedZone]) := by
  refine sameResult_of_perm Example.noZones {} (List.Perm.swap _ _ _) (by decide)
    (tiesAlike_of_distinct (by decide)) ?_
  intro event hmem hunbuildable
  have hno : ∀ e ∈ [Example.unresolvedZone, Example.confirmed],
      isUnbuildableEvent Example.noZones e = false := by decide
  rw [hno event hmem] at hunbuildable
  cases hunbuildable

/-- **The order of a feed decides** which of two revisions that tie is canonical, one confirmed and
the other cancelled. -/
theorem not_sameResult :
    (∀ e ∈ [Example.confirmed, Example.withdrawn], HasRevisionTime e) ∧
      [Example.confirmed, Example.withdrawn].Perm [Example.withdrawn, Example.confirmed] ∧
      ¬ SameResult
        (parseIcsEventsWithDiagnostics Example.noZones {} [Example.confirmed, Example.withdrawn])
        (parseIcsEventsWithDiagnostics Example.noZones {}
          [Example.withdrawn, Example.confirmed]) := by
  refine ⟨by decide, List.Perm.swap _ _ _, fun h => ?_⟩
  rw [Example.parse_confirmed_withdrawn, Example.parse_withdrawn_confirmed] at h
  have hentry : ("review", none, 0, 0) ∈ entryKeys
      { events := [{ endTime := 0, isAllDay := false, startTime := 0, uid := "review" }]
        selfAuthoredCount := 0, unrepresentableCount := 0, unsupportedEvents := [] } :=
    ⟨_, List.mem_cons_self, rfl⟩
  rw [h.entries] at hentry
  obtain ⟨slot, hslot, -⟩ := hentry
  cases hslot

end Keeper
