import Keeper.Recurrence.Materializer
import Keeper.Sync.ConflictFree

/-!
# Withheld series and their mirrors

`getEventsForCalendarsWithDiagnostics` (`core/events/events.ts`) reads the events of a destination
and collects the event states of the series over budget; `createDestinationReconciliationScope`
(`packages/sync/src/sync-user.ts`) hands them to the planner, which keeps their mirrors.

* `keepsMirrors_iff`: the mirrors of what was left out are kept, unless one of an override lies in
  the authoritative window of its source.
* `not_keepsMirrors`: such a mirror is removed.
-/

namespace Keeper

/-! ## The read of a destination's events -/

/-- `DestinationEventReadResult`, as far as a reconciliation uses it. -/
structure DestinationEventRead where
  events : List MaterializedSyncableEvent
  overBudgetSourceEventStateIds : List String
  overBudgetSourceEventUids : List String

/-- The end of `getEventsForCalendarsWithDiagnostics`: the events in the window, and what the handler
of series over budget has collected. -/
def readDestinationEvents (rt : Runtime) (syncableEvents : List SyncableEvent)
    (excludedOverrides : List SuppressedOverride) (syncWindow : SyncWindow) :
    Except MaterializationError DestinationEventRead := do
  let result ← materializeRecurrenceEvents rt syncableEvents syncWindow true excludedOverrides
  pure
    { events := result.events
      overBudgetSourceEventStateIds :=
        result.overBudget.map fun error => error.eventStateId.getD error.eventId
      overBudgetSourceEventUids := result.overBudget.map (·.sourceEventUid) }

structure DestinationReconciliationScopeContext where
  authoritativeMappingIds : Option (List String) := none
  authoritativeSourceWindows : JsMap String SyncWindow
  authoritativeWindow : Option SyncWindow
  read : DestinationEventRead
  requestedWindow : SyncWindow
  sourceCalendarIdsAtLocalRead : List String

def createDestinationReconciliationScope (context : DestinationReconciliationScopeContext) :
    ReconciliationScope where
  authoritativeMappingIds := context.authoritativeMappingIds
  authoritativeSourceWindows := some context.authoritativeSourceWindows
  authoritativeWindow := context.authoritativeWindow
  configuredSourceCalendarIds := some context.sourceCalendarIdsAtLocalRead
  requestedWindow := context.requestedWindow
  withheldSourceEventStateIds := some context.read.overBudgetSourceEventStateIds

/-- What the database promises of the stored events: their ids are their event states' and tell
them apart, and none has the form of an occurrence's. -/
structure AreStored (events : List SyncableEvent) : Prop where
  ids : (events.map (·.id)).Nodup
  states : ∀ event ∈ events, event.eventStateId = some event.id
  reserved : ∀ event ∈ events, ∀ hash, event.id ≠ "recurrence-" ++ hash

/-! ## Mirrors of what is left out -/

section Mirrors

variable (rt : Runtime) (events : List SyncableEvent) (window : SyncWindow)

def MirrorsSkippedMaster (m : EventMapping) : Prop :=
  ∃ master ∈ events, isSkipped rt window master = true ∧ m.eventStateId = some master.ownStateId

/-- The mapping mirrors an override in the window that is left out because a series of its uid is
over budget, its own or that of another calendar. -/
structure MirrorsSkippedOverride (m : EventMapping) (event : SyncableEvent) : Prop where
  stored : event ∈ events
  override : event.recurrenceId.isSome = true
  inWindow : window.overlaps event.range = true
  skipped : event.sourceEventUid ∈ skippedUids rt events window
  mirrors : m.syncEventId = event.id
  eventState : ∀ id, m.eventStateId = some id → id = event.id

/-- The plan removes no requested mapping that mirrors what is left out of the local events only
because a series is over budget. -/
def KeepsMirrors (existingMappings : List EventMapping) (remoteEvents : List RemoteEvent)
    (context : DestinationReconciliationScopeContext) : Prop :=
  ∀ m ∈ existingMappings, context.requestedWindow.overlaps m.range = true →
    (MirrorsSkippedMaster rt events window m ∨
      ∃ event, MirrorsSkippedOverride rt events window m event) →
    ∀ op, .remove op ∈ (computeSyncOperations rt.host context.read.events existingMappings
      remoteEvents (createDestinationReconciliationScope context)).operations →
      op.mappingId ≠ some m.id

end Mirrors

/-! ## What the read leaves out -/

section Read

variable {rt : Runtime} {events : List SyncableEvent} {window : SyncWindow}
  {excludedOverrides : List SuppressedOverride} {read : DestinationEventRead}

theorem mem_overBudgetSourceEventStateIds
    (h : readDestinationEvents rt events excludedOverrides window = .ok read) {id : String} :
    id ∈ read.overBudgetSourceEventStateIds ↔
      ∃ master ∈ events, isSkipped rt window master = true ∧ master.ownStateId = id := by
  obtain ⟨result, hresult, h⟩ := bind_eq_ok_iff.1 h
  obtain rfl := Except.ok.inj h
  obtain ⟨-, hover⟩ := materializeRecurrenceEvents_ok hresult
  simp only [hover, List.map_map, List.mem_map, List.mem_filter, Function.comp_apply]
  constructor
  · rintro ⟨master, ⟨hm, hskip⟩, rfl⟩
    exact ⟨master, hm, hskip, rfl⟩
  · rintro ⟨master, hm, hskip, rfl⟩
    exact ⟨master, ⟨hm, hskip⟩, rfl⟩

variable {event : SyncableEvent} {m : EventMapping}

theorem isMaster_of_isSkipped (h : isSkipped rt window event = true) : event.isMaster = true :=
  (Bool.and_eq_true_iff.1 h).1

theorem not_isMaster_of_recurrenceId (h : event.recurrenceId.isSome = true) :
    event.isMaster = false := by
  cases hr : event.recurrenceId with
  | none => simp [hr] at h
  | some t => simp [SyncableEvent.isMaster, hr]

/-- **A skipped override is not read**: no local event has its id or belongs to its event state. -/
theorem MirrorsSkippedOverride.not_read (hs : AreStored events)
    (h : readDestinationEvents rt events excludedOverrides window = .ok read)
    (hm : MirrorsSkippedOverride rt events window m event) {e : MaterializedSyncableEvent}
    (he : e ∈ read.events) : e.id ≠ event.id ∧ e.eventStateId ≠ some event.id := by
  obtain ⟨result, hresult, h⟩ := bind_eq_ok_iff.1 h
  obtain rfl := Except.ok.inj h
  have hmaster := not_isMaster_of_recurrenceId hm.override
  have heq : ∀ event' ∈ events, event'.id = event.id → event' = event := fun event' he' =>
    List.inj_on_of_nodup_map hs.ids he' hm.stored
  rcases (materializeRecurrenceEvents_ok hresult).1 e he with
    ⟨master, hmem, hmas, hocc⟩ | ⟨event', hmem, hemit⟩
  · obtain ⟨start, «end», hid⟩ := hocc.id
    refine ⟨fun heid => hs.reserved event hm.stored _ (heid.symm.trans hid), fun hstate => ?_⟩
    rw [hocc.eventStateId, SyncableEvent.ownStateId, hs.states master hmem] at hstate
    rw [heq master hmem (Option.some.inj hstate), hmaster] at hmas
    cases hmas
  · have hne : event' ≠ event := by
      rintro rfl
      simp [emitOneOff, hmaster, hm.override, hm.skipped] at hemit
    unfold emitOneOff at hemit
    dsimp only at hemit
    split_ifs at hemit
    obtain rfl := Option.some.inj hemit
    refine ⟨fun hid => hne (heq event' hmem hid), fun hstate => ?_⟩
    exact hne (heq event' hmem (Option.some.inj ((hs.states event' hmem).symm.trans hstate)))

/-! ## Their mirrors in the plan -/

variable {existingMappings : List EventMapping} {remoteEvents : List RemoteEvent}
  {context : DestinationReconciliationScopeContext}

/-- The inputs of the plan. -/
def DestinationReconciliationScopeContext.reconciliation
    (context : DestinationReconciliationScopeContext) (host : Host)
    (existingMappings : List EventMapping) (remoteEvents : List RemoteEvent) : Reconciliation :=
  ⟨host, context.read.events, existingMappings, remoteEvents,
    createDestinationReconciliationScope context⟩

/-- A removal that names a mapping is that of a retired mapping with its id. -/
theorem exists_retired_of_remove {r : Reconciliation} {op : RemoveOperation} {id : String}
    (h : .remove op ∈ r.unsortedOperations) (hid : op.mappingId = some id) :
    ∃ m ∈ r.retiredMappings, m.id = id := by
  rcases Reconciliation.mem_unsortedOperations_iff.1 h with h | h | h | h
  · obtain ⟨e, -, heq, -⟩ := Reconciliation.mem_addOperations_iff.1 h
    cases heq
  · rcases Reconciliation.mem_removeOperations_iff.1 h with ⟨m, hm, hr, ht, heq⟩ | ⟨c, -, -, heq⟩
    · simp only [removeMappingOperation, SyncOperation.remove.injEq] at heq
      rw [heq] at hid
      exact ⟨m, Reconciliation.mem_retiredMappings.2 ⟨hm, hr, ht⟩, Option.some.inj hid⟩
    · simp only [removeOrphanOperation, SyncOperation.remove.injEq] at heq
      rw [heq] at hid
      cases hid
  · obtain ⟨m, -, e, -, heq⟩ := Reconciliation.mem_replacementOperations_iff.1 h
    cases heq
  · obtain ⟨p, -, heq⟩ := Reconciliation.mem_reassignmentOperations_iff.1 h
    cases heq

theorem MirrorsSkippedMaster.withholds
    (h : readDestinationEvents rt events excludedOverrides window = .ok context.read)
    (hm : MirrorsSkippedMaster rt events window m) :
    (createDestinationReconciliationScope context).withholds m = true := by
  obtain ⟨master, hmem, hskip, hstate⟩ := hm
  have hid := (mem_overBudgetSourceEventStateIds h).2 ⟨master, hmem, hskip, rfl⟩
  simp [ReconciliationScope.withholds, createDestinationReconciliationScope, hstate, hid]

theorem MirrorsSkippedOverride.not_withholds (hs : AreStored events)
    (h : readDestinationEvents rt events excludedOverrides window = .ok context.read)
    (hm : MirrorsSkippedOverride rt events window m event) :
    (createDestinationReconciliationScope context).withholds m = false := by
  by_contra hwith
  obtain ⟨id, hstate, hid⟩ := (Option.any_eq_true _ _).1 (Bool.of_not_eq_false hwith)
  have hid : id ∈ context.read.overBudgetSourceEventStateIds := by
    simpa [createDestinationReconciliationScope] using hid
  obtain rfl := hm.eventState id hstate
  obtain ⟨master, hmem, hskip, hown⟩ := (mem_overBudgetSourceEventStateIds h).1 hid
  rw [SyncableEvent.ownStateId, hs.states master hmem] at hown
  obtain rfl : master = event := List.inj_on_of_nodup_map hs.ids hmem hm.stored hown
  have hmaster := isMaster_of_isSkipped hskip
  rw [not_isMaster_of_recurrenceId hm.override] at hmaster
  cases hmaster

/-- **The mirror of a skipped override is retired** inside the authoritative window of its
source. -/
theorem MirrorsSkippedOverride.retired (hs : AreStored events)
    (h : readDestinationEvents rt events excludedOverrides window = .ok context.read)
    (hmem : m ∈ existingMappings) (hm : MirrorsSkippedOverride rt events window m event)
    (hcov : isInsideSourceAuthoritativeWindow m.range m.sourceCalendarId (createDestinationReconciliationScope context) = true)
    (hmid : (existingMappings.map (·.id)).Nodup) :
    m ∈ (context.reconciliation rt.host existingMappings remoteEvents).retiredMappings := by
  refine Reconciliation.mem_retiredMappings.2 ⟨hmem, fun hre => ?_, ?_⟩
  · -- a reassigned mapping shares its event state with a local event
    obtain ⟨p, hp, hid⟩ := List.mem_map.1 hre
    obtain ⟨owner, ⟨hevent, howner⟩, hmapping, hmissing⟩ := mem_pairReidentified hp
    have hact := (Reconciliation.mem_activeMappings.1 hmapping).1
    obtain rfl : p.mapping = m := List.inj_on_of_nodup_map hmid hact hmem hid
    obtain ⟨hstate, -⟩ := truthy_eq_some_iff.1 (missingMappingOwner_eq_some_iff.1 hmissing).2
    obtain ⟨hstate', -⟩ := truthy_eq_some_iff.1 (newEventOwner_eq_some_iff.1 howner).2
    rw [hm.eventState owner hstate] at hstate'
    have hlocal := (Reconciliation.mem_authoritativeLocalEvents.1 hevent).1
    exact (hm.not_read hs h hlocal).2 hstate'
  · have hnot : m.syncEventId ∉
        (context.reconciliation rt.host existingMappings remoteEvents).localEventIds := by
      intro hid
      obtain ⟨e, he, hid⟩ := Reconciliation.mem_localEventIds.1 hid
      have hlocal := (Reconciliation.mem_authoritativeLocalEvents.1 he).1
      exact (hm.not_read hs h hlocal).1 (hid.trans hm.mirrors)
    have hwith := hm.not_withholds hs h
    simp only [retiresMapping, Bool.or_eq_true, Bool.and_eq_true, Bool.not_eq_true']
    refine Or.inr ⟨⟨hcov, hwith⟩, ?_⟩
    simpa using hnot

end Read

/-- **Mirrors of withheld series are kept** iff no requested mapping inside the authoritative window
of its source mirrors an override of a uid over budget. -/
theorem keepsMirrors_iff (rt : Runtime) (events : List SyncableEvent)
    (excludedOverrides : List SuppressedOverride) (window : SyncWindow)
    (existingMappings : List EventMapping) (remoteEvents : List RemoteEvent)
    (context : DestinationReconciliationScopeContext) (hs : AreStored events)
    (hmid : (existingMappings.map (·.id)).Nodup)
    (hread : readDestinationEvents rt events excludedOverrides window = .ok context.read) :
    KeepsMirrors rt events window existingMappings remoteEvents context ↔
      ∀ m ∈ existingMappings, context.requestedWindow.overlaps m.range = true →
        isInsideSourceAuthoritativeWindow m.range m.sourceCalendarId
          (createDestinationReconciliationScope context) = true →
        ¬ ∃ event, MirrorsSkippedOverride rt events window m event := by
  constructor
  · rintro hkeeps m hm hreq hcov ⟨event, hmirror⟩
    have hret : m ∈ (context.reconciliation rt.host existingMappings remoteEvents).retiredMappings :=
      hmirror.retired hs hread hm hcov hmid
    obtain ⟨-, hr, ht⟩ := Reconciliation.mem_retiredMappings.1 hret
    have hop := Reconciliation.mem_unsortedOperations_iff.2 (Or.inr (Or.inl
      (Reconciliation.mem_removeOperations_iff.2 (Or.inl ⟨m, hm, hr, ht, rfl⟩))))
    exact hkeeps m hm hreq (Or.inr ⟨event, hmirror⟩) _ (mem_operations_iff.2 hop) rfl
  · intro hcond m hm hreq hmirror op hop hid
    obtain ⟨m', hret, hid⟩ := exists_retired_of_remove (mem_operations_iff.1 hop) hid
    obtain ⟨hm', -, ht⟩ := Reconciliation.mem_retiredMappings.1 hret
    obtain rfl : m' = m := List.inj_on_of_nodup_map hmid hm' hm hid
    have hreq : (createDestinationReconciliationScope context).requests m'.range = true := hreq
    simp only [retiresMapping, hreq, Bool.not_true, Bool.false_or, Bool.and_eq_true,
      Bool.not_eq_true'] at ht
    rcases hmirror with hmaster | hoverride
    · rw [hmaster.withholds hread] at ht
      exact absurd ht.1.2 (by decide)
    · exact hcond m' hm hreq ht.1.1 hoverride

namespace Example

/-- A run time in which no time zone shifts and the recurrence engine is not asked. -/
def runtime : Runtime := ⟨host, ⟨id, fun _ => true, fun t _ => t⟩, fun _ _ _ => .ok []⟩

def everySecond : SyncableEvent :=
  { event "s1" 0 with
    sourceEventUid := "u"
    eventStateId := some "s1"
    recurrenceRule := some { frequency := .secondly } }

def sixthSecond : SyncableEvent :=
  { event "s2" 5000 with
    sourceEventUid := "u"
    eventStateId := some "s2"
    recurrenceId := some 5000 }

/-- Twenty thousand seconds. -/
def longWindow : SyncWindow := ⟨0, 20000000⟩

/-- The read of the series: nothing, and the master withheld. -/
def emptyRead : DestinationEventRead := ⟨[], ["s1"], ["u"]⟩

/-- A full read of a source that covers the window. -/
def readContext : DestinationReconciliationScopeContext where
  authoritativeSourceWindows := JsMap.ofList [("source", longWindow)]
  authoritativeWindow := some longWindow
  read := emptyRead
  requestedWindow := longWindow
  sourceCalendarIdsAtLocalRead := ["source"]

def overrideMirror : EventMapping :=
  { mapping "m" "s2" "u2" "d2" 5000 with eventStateId := some "s2" }

theorem readDestinationEvents_everySecond :
    readDestinationEvents runtime [everySecond, sixthSecond] [] longWindow = .ok emptyRead := by
  rfl

theorem areStored_everySecond : AreStored [everySecond, sixthSecond] where
  ids := by decide
  states := by decide
  reserved event hevent hash hid := by
    have hlength := congrArg String.length hid
    rw [String.length_append] at hlength
    have hprefix : "recurrence-".length = 11 := by decide
    simp only [List.mem_cons, List.not_mem_nil, or_false] at hevent
    rcases hevent with rfl | rfl
    · have : everySecond.id.length = 2 := by decide
      omega
    · have : sixthSecond.id.length = 2 := by decide
      omega

end Example

/-- The theorem at a series over budget and the mirror of an override. -/
theorem keepsMirrors_iff_example :
    KeepsMirrors Example.runtime [Example.everySecond, Example.sixthSecond] Example.longWindow
        [Example.overrideMirror] [] Example.readContext ↔
      ∀ m ∈ [Example.overrideMirror], Example.readContext.requestedWindow.overlaps m.range = true →
        isInsideSourceAuthoritativeWindow m.range m.sourceCalendarId
          (createDestinationReconciliationScope Example.readContext) = true →
        ¬ ∃ event, MirrorsSkippedOverride Example.runtime
          [Example.everySecond, Example.sixthSecond] Example.longWindow m event :=
  keepsMirrors_iff _ _ [] _ _ _ _ Example.areStored_everySecond (by decide)
    Example.readDestinationEvents_everySecond

/-- **The mirror of an override is removed.** A series that recurs every second exceeds the budget
over twenty thousand seconds; its override is left out with it, but only the master's event state is
withheld, so the plan removes the override's mirror. -/
theorem not_keepsMirrors :
    readDestinationEvents Example.runtime [Example.everySecond, Example.sixthSecond] []
        Example.longWindow = .ok Example.readContext.read ∧
      ¬ KeepsMirrors Example.runtime [Example.everySecond, Example.sixthSecond] Example.longWindow
        [Example.overrideMirror] [] Example.readContext := by
  refine ⟨Example.readDestinationEvents_everySecond, fun hkeeps => ?_⟩
  have hmirror : MirrorsSkippedOverride Example.runtime [Example.everySecond, Example.sixthSecond]
      Example.longWindow Example.overrideMirror Example.sixthSecond :=
    ⟨by decide, by decide, by decide, by decide, rfl, fun id hid => (Option.some.inj hid).symm⟩
  exact hkeeps Example.overrideMirror (by decide) (by decide) (Or.inr ⟨_, hmirror⟩)
    { uid := "u2", deleteId := "d2", startTime := 5000, mappingId := some "m" } (by decide) rfl

end Keeper
