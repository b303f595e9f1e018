import Keeper.Source.EventStates

/-!
# What the keys of an event determine

An identity key is the JSON text of sixteen parts; a stored row and an event with one identity key
agree in each of them, and so in the key that the table indexes the row by.

* `existingIdentityKey_eq_iff`: identity keys agree iff their parts do.
* `storageIdentity_eq_of_identity`: then the row is stored under the key of the event.
* `indexKey_stored`, `indexKey_buildEventStateInsertRow`: the index keys of rows and of events.
-/

namespace Keeper

open SqlTable

/-- What the key-sorting JSON printer is known for: it prints an array of strings as
`JSON.stringify` does, and no value as nothing. -/
structure Host.StableStringify (host : Host) : Prop where
  strings : ∀ l, host.stableStringify (.strings l) = (Json.strings l).stringify
  nonempty : ∀ v, host.stableStringify v ≠ ""

theorem Host.StableStringify.strings_injective {host : Host} (h : host.StableStringify)
    {l l' : List String}
    (heq : host.stableStringify (.strings l) = host.stableStringify (.strings l')) : l = l' := by
  have hkeyed : ∀ l : List String, (Json.strings l).WellKeyed := fun l =>
    Json.wellKeyed_arr fun _ _ => trivial
  rw [h.strings, h.strings] at heq
  have hvalues := Json.parse_stringify (hkeyed l)
  rw [heq, Json.parse_stringify (hkeyed l')] at hvalues
  have hitems := Json.arr.inj (Option.some.inj hvalues)
  exact (List.map_injective_iff.2 (fun _ _ => Json.str.inj) hitems).symm

/-! ## Parts of an identity key -/

section Parts

variable {host : Host} {existing : ExistingSourceEventState} {event : SourceEvent}
  {options : SourceEventIdentityOptions}

/-- **Identity keys agree** iff their parts do. -/
theorem existingIdentityKey_eq_iff (hhost : host.StableStringify) :
    existingIdentityKey host options existing =
        some (buildSourceEventIdentityKey host event.identityInput options) ↔
      existing.sourceEventUid = some event.uid ∧
        sourceEventIdentityParts host (existing.identityInput event.uid) options =
          sourceEventIdentityParts host event.identityInput options := by
  constructor
  · intro h
    obtain ⟨uid, huid, hkey⟩ := Option.map_eq_some_iff.1 h
    have hparts := hhost.strings_injective hkey
    have hsame : uid = event.uid := by
      simp only [sourceEventIdentityParts, List.cons.injEq] at hparts
      exact hparts.2.1
    subst hsame
    exact ⟨huid, hparts⟩
  · rintro ⟨huid, hparts⟩
    rw [existingIdentityKey, huid, Option.map_some, buildSourceEventIdentityKey, hparts]
    rfl

structure SameIdentity (host : Host) (options : SourceEventIdentityOptions)
    (existing : ExistingSourceEventState) (event : SourceEvent) : Prop where
  uid : existing.sourceEventUid = some event.uid
  providerId : existing.sourceEventId.getD "" = event.sourceEventId.getD ""
  instanceKey : resolveExistingSourceEventInstanceKey existing = event.instanceKey
  startTime : existing.startTime = event.startTime
  endTime : existing.endTime = event.endTime
  isAllDay : normalizeIdentityIsAllDay (.ofNullable existing.isAllDay) options =
    normalizeIdentityIsAllDay (.ofOptional event.isAllDay) options
  recurrenceDuration :
    serializeStructuredIdentityValue host (existing.recurrenceDuration.map (·.toJson)) =
      serializeStructuredIdentityValue host (event.recurrenceDuration.map (·.toJson))
  recurrenceRule :
    serializeStructuredIdentityValue host (existing.recurrenceRule.map (·.toJson)) =
      serializeStructuredIdentityValue host (event.recurrenceRule.map (·.toJson))

theorem sameIdentity_of_identityKey (hhost : host.StableStringify)
    (h : existingIdentityKey host options existing =
      some (buildSourceEventIdentityKey host event.identityInput options)) :
    SameIdentity host options existing event := by
  obtain ⟨huid, hparts⟩ := (existingIdentityKey_eq_iff hhost).1 h
  simp only [sourceEventIdentityParts, List.cons.injEq] at hparts
  obtain ⟨hprovider, -, hkey, hstart, hend, hallDay, -, -, -, -, -, -, hduration, hrule, -⟩ := hparts
  exact ⟨huid, hprovider, hkey, Date.toISOString_injective hstart, Date.toISOString_injective hend,
    hallDay, hduration, hrule⟩

theorem serializeStructuredIdentityValue_eq_empty_iff (hhost : host.StableStringify)
    (value : Option Json) : serializeStructuredIdentityValue host value = "" ↔ value = none := by
  cases value with
  | none => simp [serializeStructuredIdentityValue]
  | some v => simp [serializeStructuredIdentityValue, hhost.nonempty]

theorem SameIdentity.rule_isNone (hhost : host.StableStringify)
    (h : SameIdentity host options existing event) :
    existing.recurrenceRule = none ↔ event.recurrenceRule = none := by
  have hleft := serializeStructuredIdentityValue_eq_empty_iff hhost
    (existing.recurrenceRule.map (·.toJson))
  have hright := serializeStructuredIdentityValue_eq_empty_iff hhost
    (event.recurrenceRule.map (·.toJson))
  rw [h.recurrenceRule] at hleft
  simpa using hleft.symm.trans hright

/-- A stored duration comes with a rule, and so does that of an event with the same key. -/
theorem SameIdentity.duration_of_rule (hhost : host.StableStringify)
    (h : SameIdentity host options existing event)
    (hexisting : existing.recurrenceDuration.isSome → existing.recurrenceRule.isSome) :
    event.recurrenceDuration.isSome → event.recurrenceRule.isSome := by
  intro hduration
  by_contra hrule
  have hnone : existing.recurrenceRule = none :=
    (h.rule_isNone hhost).2 (by simpa using hrule)
  have hstored : existing.recurrenceDuration = none := by
    by_contra hne
    have hsome := hexisting (Option.isSome_iff_ne_none.2 hne)
    rw [hnone] at hsome
    cases hsome
  have hempty := h.recurrenceDuration
  rw [hstored, Option.map_none] at hempty
  have hnone' := (serializeStructuredIdentityValue_eq_empty_iff hhost _).1 hempty.symm
  rw [Option.map_eq_none_iff] at hnone'
  rw [hnone'] at hduration
  cases hduration

theorem booleanText_injective {b c : Bool} (h : booleanText b = booleanText c) : b = c := by
  cases b <;> cases c <;> first | rfl | exact absurd h (by decide)

/-- A boolean of an event is stored as it is, where the keys of row and event agree. -/
theorem SameIdentity.normalize (h : SameIdentity host ⟨false⟩ existing event)
    (hallDay : event.isAllDay.isSome) : existing.isAllDay = event.isAllDay := by
  obtain ⟨b, hb⟩ := Option.isSome_iff_exists.1 hallDay
  have htext := h.isAllDay
  rw [hb] at htext ⊢
  cases hrow : existing.isAllDay with
  | none => rw [hrow] at htext; cases b <;> exact absurd htext (by decide)
  | some c =>
    rw [hrow] at htext
    rw [booleanText_injective htext]

/-- **Keys that agree** agree with metadata normalised. -/
theorem existingIdentityKey_normalize (hhost : host.StableStringify)
    (hallDay : event.isAllDay.isSome)
    (h : existingIdentityKey host ⟨false⟩ existing =
      some (buildSourceEventIdentityKey host event.identityInput ⟨false⟩)) :
    existingIdentityKey host ⟨true⟩ existing =
      some (buildSourceEventIdentityKey host event.identityInput ⟨true⟩) := by
  have hisAllDay := (sameIdentity_of_identityKey hhost h).normalize hallDay
  obtain ⟨huid, hparts⟩ := (existingIdentityKey_eq_iff hhost).1 h
  refine (existingIdentityKey_eq_iff hhost).2 ⟨huid, ?_⟩
  obtain ⟨b, hb⟩ := Option.isSome_iff_exists.1 hallDay
  simp only [sourceEventIdentityParts, List.cons.injEq] at hparts ⊢
  obtain ⟨h₁, h₂, h₃, h₄, h₅, -, hrest⟩ := hparts
  refine ⟨h₁, h₂, h₃, h₄, h₅, ?_, hrest⟩
  simp only [ExistingSourceEventState.identityInput, SourceEvent.identityInput, hisAllDay, hb]
  rfl

end Parts

/-! ## Storage keys -/

/-- What a stored row is stored under. -/
def ExistingSourceEventState.storageIdentity (existing : ExistingSourceEventState) :
    String ⊕ InstanceSlot :=
  match truthy existing.sourceEventId with
  | some sourceEventId => .inl sourceEventId
  | none => .inr (instanceSlot (existing.sourceEventUid.getD "") existing.startTime
      existing.endTime existing.recurrenceId)

theorem truthy_eq_of_getD_eq {s s' : Option String} (h : s.getD "" = s'.getD "") :
    truthy s = truthy s' := by
  have hgetD : ∀ v : Option String, truthy v = if v.getD "" = "" then none else some (v.getD "") := by
    intro v
    cases v with
    | none => rfl
    | some v =>
      by_cases hv : v = "" <;> simp [truthy, hv]
  rw [hgetD, hgetD, h]

/-- **A row with the identity key of an event** is stored under the key of the event. -/
theorem SameIdentity.storageIdentity {host : Host} {options : SourceEventIdentityOptions}
    {existing : ExistingSourceEventState} {event : SourceEvent}
    (h : SameIdentity host options existing event) :
    existing.storageIdentity = event.storageIdentity := by
  have hslot := h.instanceKey
  rw [resolveExistingSourceEventInstanceKey, SourceEvent.instanceKey,
    buildSourceEventInstanceKey_eq_iff] at hslot
  unfold ExistingSourceEventState.storageIdentity SourceEvent.storageIdentity
  rw [truthy_eq_of_getD_eq h.providerId, hslot]
  rfl

def storageIndexKey (calendarId : String) : String ⊕ InstanceSlot → EventStateKey
  | .inl sourceEventId => .sourceEvent calendarId sourceEventId
  | .inr (.recurrence uid recurrenceId) => .recurringInstance calendarId uid recurrenceId
  | .inr (.slot uid startTime endTime) => .nonRecurringInstance calendarId uid startTime endTime

theorem storageIndexKey_injective (calendarId : String) :
    Function.Injective (storageIndexKey calendarId) := by
  rintro (a | (⟨u, r⟩ | ⟨u, s, e⟩)) (a' | (⟨u', r'⟩ | ⟨u', s', e'⟩)) h <;>
    simp_all [storageIndexKey]

theorem indexKey_columns {row : EventStateInsertRow} {uid : String}
    (hid : row.sourceEventId ≠ some "") (huid : row.sourceEventUid = some uid) :
    row.indexKey = some (storageIndexKey row.calendarId
      (match truthy row.sourceEventId with
      | some sourceEventId => .inl sourceEventId
      | none => .inr (instanceSlot uid row.startTime row.endTime row.recurrenceId))) := by
  cases hsource : row.sourceEventId with
  | some sourceEventId =>
    have hne : sourceEventId ≠ "" := fun heq => hid (by rw [hsource, heq])
    have htruthy : truthy (some sourceEventId) = some sourceEventId :=
      truthy_eq_some_iff.2 ⟨rfl, hne⟩
    simp [EventStateInsertRow.indexKey, hsource, htruthy, storageIndexKey]
  | none =>
    cases hrecurrence : row.recurrenceId <;>
      simp [EventStateInsertRow.indexKey, hsource, huid, hrecurrence, storageIndexKey, instanceSlot]

/-- **The index key of an event's row.** -/
theorem indexKey_buildEventStateInsertRow {event : SourceEvent} (calendarId : String)
    (hid : event.sourceEventId ≠ some "") :
    (buildEventStateInsertRow calendarId event).indexKey =
      some (storageIndexKey calendarId event.storageIdentity) :=
  indexKey_columns hid rfl

/-- **The index key of a stored row.** -/
theorem indexKey_parsedRow {ark : Arktype} {row : EventStateInsertRow} {id : String}
    {existing : ExistingSourceEventState} (hparse : parsedRow ark (row.stored id) = some existing)
    (hid : row.sourceEventId ≠ some "") (huid : row.sourceEventUid.isSome) :
    row.indexKey = some (storageIndexKey row.calendarId existing.storageIdentity) := by
  obtain ⟨uid, huid⟩ := Option.isSome_iff_exists.1 huid
  obtain ⟨-, hprovider, huid', hstart, hend, hrecurrence⟩ :=
    parseStoredSourceEventState_ok (parsedRow_eq_some_iff.1 hparse)
  rw [indexKey_columns hid huid, ExistingSourceEventState.storageIdentity, hprovider, huid', hstart,
    hend, hrecurrence]
  simp only [EventStateInsertRow.stored, huid, Option.getD_some]

end Keeper
