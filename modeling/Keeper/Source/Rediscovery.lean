import Keeper.Foundations.JsMap
import Mathlib.Data.Int.Order.Basic
import Mathlib.Data.List.Induction

/-!
# Calendar rediscovery

`core/source/calendar-rediscovery.ts` and `core/source/apply-calendar-rediscovery.ts`: the calendars that a provider
lists are matched with the rows of the account by identity. New ones are inserted, unless they were removed or belong
to another account; rows that reappear are revived, and those that are gone are marked.

* `rediscovery_converges`: a plan brings back nothing that was removed, and once it is applied, the same discovery
  plans nothing.
-/

namespace Keeper

namespace Rediscovery

structure DiscoveredCalendar where
  identityKey : String
  name : String
  writable : Bool
  externalCalendarId : Option String := none
  calendarUrl : Option String := none

/-- A row that has an identity, as `toExistingCalendars` reads it. -/
structure ExistingCalendar where
  id : String
  identityKey : String
  calendarUrl : Option String := none
  unavailableSince : Option ℤ := none
  createdAt : ℤ
  writable : Bool

structure CalendarWriteAccessChange where
  id : String
  writable : Bool

structure CalendarRetarget where
  id : String
  calendarUrl : String

structure CalendarRediscoveryPlan where
  toInsert : List DiscoveredCalendar := []
  toRevive : List String := []
  toMarkUnavailable : List String := []
  toRetargetUrl : List CalendarRetarget := []
  toSetWritable : List CalendarWriteAccessChange := []
  unchangedCount : ℕ := 0
  duplicateCount : ℕ
  crossAccountSkippedCount : ℕ := 0
  removedSkippedCount : ℕ := 0
  suppressed : Bool := false

structure CalendarRediscoveryInput where
  discovered : List DiscoveredCalendar
  existing : List ExistingCalendar
  blockedKeys : List String := []
  removedKeys : List String := []
  enumerationStartedAt : Option ℤ := none

/-! ## The plan -/

/-- The loop of `indexExistingByKey`. -/
def indexCalendar (index : JsMap String ExistingCalendar × ℕ) (calendar : ExistingCalendar) :
    JsMap String ExistingCalendar × ℕ :=
  match index.1.get? calendar.identityKey with
  | none => (index.1.set calendar.identityKey calendar, index.2)
  | some incumbent =>
    (if calendar.createdAt < incumbent.createdAt then index.1.set calendar.identityKey calendar else index.1,
      index.2 + 1)

def indexExistingByKey (existing : List ExistingCalendar) : JsMap String ExistingCalendar × ℕ :=
  existing.foldl indexCalendar (.empty, 0)

/-- `dedupeDiscoveredByKey`, after the keys that it has seen. -/
def dedupeDiscoveredByKey (seen : List String) : List DiscoveredCalendar → List DiscoveredCalendar
  | [] => []
  | calendar :: discovered =>
    if seen.contains calendar.identityKey then dedupeDiscoveredByKey seen discovered
    else calendar :: dedupeDiscoveredByKey (calendar.identityKey :: seen) discovered

def matchDiscoveredCalendar (byKey : JsMap String ExistingCalendar) (calendar : DiscoveredCalendar) :
    List (DiscoveredCalendar × ExistingCalendar) :=
  (byKey.get? calendar.identityKey).toList.map (calendar, ·)

def predatesEnumeration (calendar : ExistingCalendar) (enumerationStartedAt : Option ℤ) : Bool :=
  enumerationStartedAt.all fun startedAt => calendar.createdAt ≤ startedAt

def buildUrlRetarget (pair : DiscoveredCalendar × ExistingCalendar) : List CalendarRetarget :=
  match pair.1.calendarUrl with
  | none => []
  | some calendarUrl => if some calendarUrl = pair.2.calendarUrl then [] else [⟨pair.2.id, calendarUrl⟩]

def buildWriteAccessChange (pair : DiscoveredCalendar × ExistingCalendar) : List CalendarWriteAccessChange :=
  if pair.1.writable = pair.2.writable then [] else [⟨pair.2.id, pair.1.writable⟩]

namespace CalendarRediscoveryInput

def byKey (input : CalendarRediscoveryInput) : JsMap String ExistingCalendar := (indexExistingByKey input.existing).1

def unique (input : CalendarRediscoveryInput) : List DiscoveredCalendar := dedupeDiscoveredByKey [] input.discovered

def matched (input : CalendarRediscoveryInput) : List (DiscoveredCalendar × ExistingCalendar) :=
  input.unique.flatMap (matchDiscoveredCalendar input.byKey)

end CalendarRediscoveryInput

/-- The plan where the provider lists something, or nothing is known. -/
def planListed (input : CalendarRediscoveryInput) : CalendarRediscoveryPlan :=
  let matchedIds := input.matched.map (·.2.id)
  let unmatched := input.unique.filter fun calendar => !input.byKey.has calendar.identityKey
  let retained := unmatched.filter fun calendar => !input.removedKeys.contains calendar.identityKey
  let toInsert := retained.filter fun calendar => !input.blockedKeys.contains calendar.identityKey
  { crossAccountSkippedCount := retained.length - toInsert.length
    duplicateCount := (indexExistingByKey input.existing).2 + (input.discovered.length - input.unique.length)
    removedSkippedCount := unmatched.length - retained.length
    toInsert
    toMarkUnavailable := (input.byKey.values.filter fun calendar => !matchedIds.contains calendar.id &&
      calendar.unavailableSince.isNone && predatesEnumeration calendar input.enumerationStartedAt).map (·.id)
    toRetargetUrl := input.matched.flatMap buildUrlRetarget
    toRevive := (input.matched.filter (·.2.unavailableSince.isSome)).map (·.2.id)
    toSetWritable := input.matched.flatMap buildWriteAccessChange
    unchangedCount := input.matched.length }

def planCalendarRediscovery (input : CalendarRediscoveryInput) : CalendarRediscoveryPlan :=
  if input.discovered.isEmpty && !input.existing.isEmpty then
    { duplicateCount := (planListed input).duplicateCount, suppressed := true }
  else planListed input

/-! ## Applying it -/

/-- `buildInsertRow`, under the id and the time that the database gives, as it is read back. -/
def buildInsertRow (newId : DiscoveredCalendar → String) (createdAt : ℤ) (calendar : DiscoveredCalendar) :
    ExistingCalendar where
  id := newId calendar
  identityKey := calendar.identityKey
  calendarUrl := if calendar.externalCalendarId.isSome then none else calendar.calendarUrl
  createdAt := createdAt
  writable := calendar.writable

def setWritable (row : ExistingCalendar) (change : CalendarWriteAccessChange) : ExistingCalendar :=
  if row.id = change.id then { row with writable := change.writable } else row

/-- The new URL has the key of the row. -/
def retargetUrl (row : ExistingCalendar) (retarget : CalendarRetarget) : ExistingCalendar :=
  if row.id = retarget.id then { row with calendarUrl := some retarget.calendarUrl } else row

/-- What the updates of `applyCalendarRediscoveryPlan`, each by ids, make of a row. -/
def updateRow (plan : CalendarRediscoveryPlan) (now : ℤ) (row : ExistingCalendar) : ExistingCalendar :=
  let row := if row.id ∈ plan.toRevive then { row with unavailableSince := none } else row
  let row := if row.id ∈ plan.toMarkUnavailable then { row with unavailableSince := some now } else row
  plan.toRetargetUrl.foldl retargetUrl (plan.toSetWritable.foldl setWritable row)

def applyCalendarRediscoveryPlan (newId : DiscoveredCalendar → String) (createdAt now : ℤ)
    (plan : CalendarRediscoveryPlan) (rows : List ExistingCalendar) : List ExistingCalendar :=
  if plan.suppressed then rows
  else (rows ++ plan.toInsert.map (buildInsertRow newId createdAt)).map (updateRow plan now)

/-- The plan changes no row. -/
structure CalendarRediscoveryPlan.IsQuiet (plan : CalendarRediscoveryPlan) : Prop where
  toInsert : plan.toInsert = []
  toRevive : plan.toRevive = []
  toMarkUnavailable : plan.toMarkUnavailable = []
  toRetargetUrl : plan.toRetargetUrl = []
  toSetWritable : plan.toSetWritable = []

/-- The plan brings back no calendar, and marks none that is listed or young. -/
structure IsGuarded (input : CalendarRediscoveryInput) (plan : CalendarRediscoveryPlan) : Prop where
  distinct : (plan.toInsert.map (·.identityKey)).Nodup
  inserted : ∀ found ∈ plan.toInsert, found.identityKey ∉ input.removedKeys ∧ found.identityKey ∉ input.blockedKeys ∧
    ∀ row ∈ input.existing, row.identityKey ≠ found.identityKey
  marked : ∀ id ∈ plan.toMarkUnavailable, ∃ row ∈ input.existing, row.id = id ∧
    predatesEnumeration row input.enumerationStartedAt = true ∧
      ∀ found ∈ input.discovered, found.identityKey ≠ row.identityKey

/-! ## What a plan makes of a row -/

def IsOldest (existing : List ExistingCalendar) (key : String) (calendar : ExistingCalendar) : Prop :=
  (calendar ∈ existing ∧ calendar.identityKey = key) ∧
    ∀ other ∈ existing, other.identityKey = key → calendar.createdAt ≤ other.createdAt

/-- **The index** has the oldest row of each key. -/
theorem indexExistingByKey_spec (existing : List ExistingCalendar) :
    (∀ key calendar, (indexExistingByKey existing).1.get? key = some calendar → IsOldest existing key calendar) ∧
      ∀ calendar ∈ existing, (indexExistingByKey existing).1.get? calendar.identityKey ≠ none := by
  induction existing using List.reverseRecOn with
  | nil => exact ⟨fun _ _ h => (by cases h), fun _ h => (by cases h)⟩
  | append_singleton existing last ih =>
    rw [indexExistingByKey, List.foldl_append, List.foldl_cons, List.foldl_nil, ← indexExistingByKey]
    generalize indexExistingByKey existing = index at ih
    obtain ⟨holdest, hindexed⟩ := ih
    unfold indexCalendar
    constructor <;> intro key <;> cases hlast : index.1.get? last.identityKey <;>
      grind [JsMap.get?_set, IsOldest]

theorem nodup_dedupe (seen : List String) (discovered : List DiscoveredCalendar) :
    (∀ found ∈ dedupeDiscoveredByKey seen discovered, found.identityKey ∉ seen ∧ found ∈ discovered) ∧
      ((dedupeDiscoveredByKey seen discovered).map (·.identityKey)).Nodup := by
  fun_induction dedupeDiscoveredByKey seen discovered <;> grind

theorem exists_mem_dedupe (seen : List String) (discovered : List DiscoveredCalendar) :
    ∀ found ∈ discovered, found.identityKey ∈ seen ∨
      ∃ first ∈ dedupeDiscoveredByKey seen discovered, first.identityKey = found.identityKey := by
  fun_induction dedupeDiscoveredByKey seen discovered <;> grind

/-- **Updates of one row each** leave of a row what its own makes of it. -/
theorem foldl_updates {γ : Type} (set : ExistingCalendar → γ → ExistingCalendar)
    (build : DiscoveredCalendar × ExistingCalendar → List γ) {pairs : List (DiscoveredCalendar × ExistingCalendar)}
    (hset : ∀ row pair, ((build pair).foldl set row).id = row.id)
    (hother : ∀ row pair, pair.2.id ≠ row.id → (build pair).foldl set row = row)
    (hnodup : pairs.Pairwise fun pair pair' => pair.2.id ≠ pair'.2.id) (row : ExistingCalendar) :
    ((∀ pair ∈ pairs, pair.2.id ≠ row.id) → (pairs.flatMap build).foldl set row = row) ∧
      ∀ pair ∈ pairs, pair.2.id = row.id → (pairs.flatMap build).foldl set row = (build pair).foldl set row := by
  induction pairs generalizing row with
  | nil => exact ⟨fun _ => rfl, fun _ h => (by cases h)⟩
  | cons first pairs ih =>
    obtain ⟨hfirst, hrest⟩ := List.pairwise_cons.1 hnodup
    rw [List.flatMap_cons, List.foldl_append]
    refine ⟨fun hno => ?_, fun pair hpair hid => ?_⟩
    · rw [hother _ _ (hno _ List.mem_cons_self)]
      exact (ih hrest row).1 fun pair hpair => hno pair (List.mem_cons_of_mem _ hpair)
    · rcases List.mem_cons.1 hpair with rfl | hpair
      · exact (ih hrest _).1 fun pair' hpair' => by rw [hset, ← hid]; exact (hfirst pair' hpair').symm
      · rw [hother _ _ (hid ▸ hfirst pair hpair)]
        exact (ih hrest row).2 pair hpair hid

section Settling

variable {input : CalendarRediscoveryInput} {newId : DiscoveredCalendar → String} {createdAt now : ℤ}
  {rows : List ExistingCalendar} {row : ExistingCalendar} {pair : DiscoveredCalendar × ExistingCalendar}

theorem mem_matched_iff : pair ∈ input.matched ↔
    pair.1 ∈ input.unique ∧ input.byKey.get? pair.1.identityKey = some pair.2 := by
  simp only [CalendarRediscoveryInput.matched, matchDiscoveredCalendar, List.mem_flatMap, List.mem_map,
    Option.mem_toList]
  grind

/-- The rows that a discovery meets: ids are unique, and so are the creation times of the rows of a key; the ids of
new rows are new, and what has an external id has no URL. -/
structure IsRegular (input : CalendarRediscoveryInput) (newId : DiscoveredCalendar → String) : Prop where
  ids : (input.existing.map (·.id)).Nodup
  ages : (input.existing.map fun row => (row.identityKey, row.createdAt)).Nodup
  newIds : ∀ found, ∀ row ∈ input.existing, row.id ≠ newId found
  urls : ∀ found ∈ input.discovered, found.externalCalendarId.isSome = true → found.calendarUrl = none

/-- A matched row is an existing one of the key, and is matched once. -/
theorem IsRegular.matched (h : IsRegular input newId) :
    (∀ pair ∈ input.matched, pair.2 ∈ input.existing ∧ pair.2.identityKey = pair.1.identityKey) ∧
      input.matched.Pairwise fun pair pair' => pair.2.id ≠ pair'.2.id := by
  have hmem : ∀ pair ∈ input.matched, pair.2 ∈ input.existing ∧ pair.2.identityKey = pair.1.identityKey :=
    fun pair hpair => ((indexExistingByKey_spec _).1 _ _ (mem_matched_iff.1 hpair).2).1
  refine ⟨hmem, List.pairwise_flatMap.2 ⟨fun found _ => ?_, ?_⟩⟩
  · cases hget : input.byKey.get? found.identityKey <;> simp [matchDiscoveredCalendar, hget]
  · refine (List.pairwise_map.1 (nodup_dedupe [] input.discovered).2).imp_of_mem ?_
    intro found found' hfound hfound' hne pair hpair pair' hpair' hid
    obtain ⟨hin, hkey⟩ := hmem pair (List.mem_flatMap.2 ⟨found, hfound, hpair⟩)
    obtain ⟨hin', hkey'⟩ := hmem pair' (List.mem_flatMap.2 ⟨found', hfound', hpair'⟩)
    have hrow := List.inj_on_of_nodup_map h.ids hin hin' hid
    grind [matchDiscoveredCalendar]

/-- **The changes of a plan** are those of the match of a row. -/
theorem IsRegular.foldl_changes (h : IsRegular input newId) (row : ExistingCalendar) :
    ((∀ pair ∈ input.matched, pair.2.id ≠ row.id) →
      (input.matched.flatMap buildUrlRetarget).foldl retargetUrl
        ((input.matched.flatMap buildWriteAccessChange).foldl setWritable row) = row) ∧
    ∀ pair ∈ input.matched, pair.2.id = row.id → pair.2.writable = row.writable →
      pair.2.calendarUrl = row.calendarUrl →
      (input.matched.flatMap buildUrlRetarget).foldl retargetUrl
        ((input.matched.flatMap buildWriteAccessChange).foldl setWritable row) =
          { row with writable := pair.1.writable, calendarUrl := pair.1.calendarUrl.or row.calendarUrl } := by
  have hwritable := foldl_updates setWritable buildWriteAccessChange (by grind [setWritable, buildWriteAccessChange])
    (by grind [setWritable, buildWriteAccessChange]) h.matched.2
  have hurl := foldl_updates retargetUrl buildUrlRetarget
    (by rintro row ⟨⟨_, _, _, _, _ | _⟩, _⟩ <;> grind [retargetUrl, buildUrlRetarget])
    (by rintro row ⟨⟨_, _, _, _, _ | _⟩, _⟩ <;> grind [retargetUrl, buildUrlRetarget]) h.matched.2
  refine ⟨fun hno => by rw [(hwritable row).1 hno, (hurl row).1 hno], fun pair hpair hid hsame hsame' => ?_⟩
  have hset : (buildWriteAccessChange pair).foldl setWritable row = { row with writable := pair.1.writable } := by
    cases row
    grind [buildWriteAccessChange, setWritable]
  rw [(hwritable row).2 pair hpair hid, hset, (hurl { row with writable := pair.1.writable }).2 pair hpair hid]
  obtain ⟨⟨_, _, _, _, _ | _⟩, _⟩ := pair <;> cases row <;> grind [buildUrlRetarget, retargetUrl, Option.or]

variable {found : DiscoveredCalendar}

/-- **What a plan makes of a matched row.** -/
theorem IsRegular.updateRow_match (h : IsRegular input newId) (hmatch : (found, row) ∈ input.matched) :
    updateRow (planListed input) now row =
      { row with
        unavailableSince := none
        writable := found.writable
        calendarUrl := found.calendarUrl.or row.calendarUrl } := by
  have hrevive : row.id ∈ (planListed input).toRevive ↔ row.unavailableSince ≠ none := by
    simp only [planListed, List.mem_map, List.mem_filter, Option.isSome_iff_ne_none]
    refine ⟨?_, fun hne => ⟨_, ⟨hmatch, hne⟩, rfl⟩⟩
    rintro ⟨pair, ⟨hpair, hne⟩, hid⟩
    rwa [List.inj_on_of_nodup_map h.ids (h.matched.1 _ hpair).1 (h.matched.1 _ hmatch).1 hid] at hne
  have hmark : row.id ∉ (planListed input).toMarkUnavailable := by
    simp only [planListed, List.mem_map, List.mem_filter]
    grind
  have hrow : (if row.id ∈ (planListed input).toRevive then { row with unavailableSince := none } else row) =
      { row with unavailableSince := none } := by
    cases row
    grind
  rw [updateRow, hrow]
  dsimp only
  rw [if_neg hmark]
  exact (h.foldl_changes { row with unavailableSince := none }).2 _ hmatch rfl rfl rfl

/-- **What it makes of another.** -/
theorem IsRegular.updateRow_other (h : IsRegular input newId) (hno : ∀ pair ∈ input.matched, pair.2.id ≠ row.id) :
    updateRow (planListed input) now row = if row.id ∈ (planListed input).toMarkUnavailable then
      { row with unavailableSince := some now } else row := by
  have hrevive : row.id ∉ (planListed input).toRevive := by
    simp only [planListed, List.mem_map, List.mem_filter]
    grind
  rw [updateRow, if_neg hrevive]
  refine (h.foldl_changes _).1 ?_
  split_ifs <;> exact hno

def Agrees (found : DiscoveredCalendar) (row : ExistingCalendar) : Prop :=
  row.unavailableSince = none ∧ row.writable = found.writable ∧
    ∀ url, found.calendarUrl = some url → row.calendarUrl = some url

/-- What is left of a key is as it was listed, or it was not and is marked or young. -/
def IsSettled (input : CalendarRediscoveryInput) (key : String) (row : ExistingCalendar) : Prop :=
  (∃ found ∈ input.unique, found.identityKey = key ∧ Agrees found row) ∨
    (∀ found ∈ input.unique, found.identityKey ≠ key) ∧
      (row.unavailableSince ≠ none ∨ predatesEnumeration row input.enumerationStartedAt = false)

theorem mem_toInsert_iff {found : DiscoveredCalendar} : found ∈ (planListed input).toInsert ↔ found ∈ input.unique ∧
    input.byKey.get? found.identityKey = none ∧ found.identityKey ∉ input.removedKeys ∧
      found.identityKey ∉ input.blockedKeys := by
  simp [planListed, JsMap.has]
  tauto

theorem isGuarded_planListed (input : CalendarRediscoveryInput) : IsGuarded input (planListed input) where
  distinct := (nodup_dedupe [] input.discovered).2.sublist
    (((List.filter_sublist.trans List.filter_sublist).trans List.filter_sublist).map _)
  inserted found hfound := by
    obtain ⟨-, hnone, hguards⟩ := mem_toInsert_iff.1 hfound
    exact ⟨hguards.1, hguards.2, fun row hrow hkey => (indexExistingByKey_spec _).2 row hrow (hkey ▸ hnone)⟩
  marked id hid := by
    obtain ⟨row, hrow, rfl⟩ := List.mem_map.1 hid
    obtain ⟨hvalue, hmark⟩ := List.mem_filter.1 hrow
    obtain ⟨key, hget⟩ := JsMap.mem_values_iff.1 hvalue
    obtain ⟨⟨hmem, rfl⟩, -⟩ := (indexExistingByKey_spec _).1 _ _ hget
    refine ⟨row, hmem, rfl, by grind, fun found hfound hkey => ?_⟩
    obtain ⟨first, hfirst, hsame⟩ := (exists_mem_dedupe [] _ found hfound).resolve_left List.not_mem_nil
    have hmatch : (first, row) ∈ input.matched := mem_matched_iff.2 ⟨hfirst, (hsame.trans hkey).symm ▸ hget⟩
    grind

theorem isQuiet_planListed (hsettled : ∀ key row, input.byKey.get? key = some row → IsSettled input key row)
    (hinsert : ∀ found ∈ input.unique, input.byKey.get? found.identityKey = none →
      found.identityKey ∈ input.removedKeys ∨ found.identityKey ∈ input.blockedKeys) :
    (planListed input).IsQuiet := by
  have hmatched : ∀ pair ∈ input.matched, Agrees pair.1 pair.2 := by
    intro pair hpair
    obtain ⟨hfound, hget⟩ := mem_matched_iff.1 hpair
    rcases hsettled _ _ hget with ⟨found, hfound', hkey, hagrees⟩ | ⟨hno, -⟩
    · rwa [List.inj_on_of_nodup_map (nodup_dedupe [] _).2 hfound hfound' hkey.symm]
    · exact absurd rfl (hno _ hfound)
  constructor
  · exact List.eq_nil_iff_forall_not_mem.2 fun found hmem => by grind [mem_toInsert_iff]
  all_goals simp only [planListed, List.map_eq_nil_iff, List.filter_eq_nil_iff, List.flatMap_eq_nil_iff]
  · grind [Agrees]
  · intro row hrow
    obtain ⟨key, hget⟩ := JsMap.mem_values_iff.1 hrow
    rcases hsettled key row hget with ⟨found, hfound, hkey, -⟩ | ⟨-, hmarked⟩
    · have hmatch : (found, row) ∈ input.matched := mem_matched_iff.2 ⟨hfound, hkey ▸ hget⟩
      grind
    · grind [Option.isNone_iff_eq_none]
  · grind [Agrees, buildUrlRetarget]
  · grind [Agrees, buildWriteAccessChange]

/-- The rows that are left, before they are updated. -/
def CalendarRediscoveryInput.grown (input : CalendarRediscoveryInput) (newId : DiscoveredCalendar → String)
    (createdAt : ℤ) : List ExistingCalendar :=
  input.existing ++ (planListed input).toInsert.map (buildInsertRow newId createdAt)

/-- **What a plan makes of a row**: it is as it was listed, or it was not and is marked if the index has it. -/
theorem IsRegular.updateRow_spec (h : IsRegular input newId) (now : ℤ) (hrow : row ∈ input.grown newId createdAt) :
    let left := updateRow (planListed input) now row
    left.identityKey = row.identityKey ∧ left.createdAt = row.createdAt ∧
      ((∃ found ∈ input.unique, found.identityKey = row.identityKey ∧ Agrees found left) ∨
        row ∈ input.existing ∧ (input.byKey.get? row.identityKey = some row →
          (∀ found ∈ input.unique, found.identityKey ≠ row.identityKey) ∧
            (left.unavailableSince ≠ none ∨ predatesEnumeration left input.enumerationStartedAt = false))) := by
  intro left
  by_cases hmatch : ∃ found, (found, row) ∈ input.matched
  · obtain ⟨found, hmatch⟩ := hmatch
    have hleft : left = _ := h.updateRow_match hmatch
    have hkey := (h.matched.1 _ hmatch).2.symm
    refine ⟨by rw [hleft], by rw [hleft], Or.inl ⟨found, (mem_matched_iff.1 hmatch).1, hkey, ?_⟩⟩
    grind [Agrees]
  · have hno : ∀ pair ∈ input.matched, pair.2.id ≠ row.id := by
      intro pair hpair hid
      rcases List.mem_append.1 hrow with hrow | hrow
      · obtain rfl := List.inj_on_of_nodup_map h.ids (h.matched.1 _ hpair).1 hrow hid
        exact hmatch ⟨pair.1, hpair⟩
      · obtain ⟨found, -, rfl⟩ := List.mem_map.1 hrow
        exact h.newIds found _ (h.matched.1 _ hpair).1 hid
    have hleft : left = _ := h.updateRow_other hno
    have hmark : row.id ∈ (planListed input).toMarkUnavailable ↔ ∃ row', (∃ key, input.byKey.get? key = some row') ∧
        (∀ pair ∈ input.matched, pair.2.id ≠ row'.id) ∧ row'.unavailableSince = none ∧
        predatesEnumeration row' input.enumerationStartedAt = true ∧ row'.id = row.id := by
      simp [planListed, JsMap.mem_values_iff, and_assoc]
    refine ⟨by grind, by grind, ?_⟩
    rcases List.mem_append.1 hrow with hrow | hrow
    · refine Or.inr ⟨hrow, fun hget => ⟨fun found hfound hkey => ?_, by grind⟩⟩
      exact hmatch ⟨found, mem_matched_iff.2 ⟨hfound, hkey ▸ hget⟩⟩
    · obtain ⟨found, hfound, rfl⟩ := List.mem_map.1 hrow
      have hunique : found ∈ input.unique := (mem_toInsert_iff.1 hfound).1
      rw [if_neg fun hmem => ?_] at hleft
      · refine Or.inl ⟨found, hunique, rfl, hleft ▸ ⟨rfl, rfl, fun url hurl => ?_⟩⟩
        refine (if_neg fun hid => ?_).trans hurl
        rw [h.urls found ((nodup_dedupe [] _).1 found hunique).2 hid] at hurl
        cases hurl
      · obtain ⟨row', ⟨key, hget⟩, -, -, -, hid⟩ := hmark.1 hmem
        exact h.newIds found row' ((indexExistingByKey_spec _).1 _ _ hget).1.1 hid

/-- **What is left** is settled. -/
theorem IsRegular.isSettled (h : IsRegular input newId)
    (hrows : rows.Perm ((input.grown newId createdAt).map (updateRow (planListed input) now))) {key : String}
    {left : ExistingCalendar} (hget : (indexExistingByKey rows).1.get? key = some left) :
    IsSettled input key left := by
  obtain ⟨⟨hmem, rfl⟩, hle⟩ := (indexExistingByKey_spec rows).1 key left hget
  obtain ⟨row, hrow, rfl⟩ := List.mem_map.1 (hrows.mem_iff.1 hmem)
  obtain ⟨hsame, hage, hlisted | ⟨hin, hspec⟩⟩ := h.updateRow_spec now hrow
  · exact Or.inl (hsame ▸ hlisted)
  · obtain ⟨first, hfirst⟩ := Option.ne_none_iff_exists'.1 ((indexExistingByKey_spec _).2 row hin)
    obtain ⟨⟨hmem', hkey⟩, hold⟩ := (indexExistingByKey_spec _).1 _ _ hfirst
    have hmem'' := List.mem_append_left ((planListed input).toInsert.map (buildInsertRow newId createdAt)) hmem'
    obtain ⟨hsame', hage', -⟩ := h.updateRow_spec now hmem''
    have hle' := hle _ (hrows.mem_iff.2 (List.mem_map_of_mem hmem'')) (hsame'.trans (hkey.trans hsame.symm))
    rw [hage, hage'] at hle'
    obtain rfl := List.inj_on_of_nodup_map h.ages hmem' hin (Prod.ext hkey (le_antisymm (hold row hin rfl) hle'))
    exact Or.inr (hsame ▸ hspec hfirst)

theorem isGuarded_planCalendarRediscovery (input : CalendarRediscoveryInput) :
    IsGuarded input (planCalendarRediscovery input) := by
  rw [planCalendarRediscovery]
  split_ifs
  · exact ⟨List.nodup_nil, fun _ hmem => (by cases hmem), fun _ hmem => (by cases hmem)⟩
  · exact isGuarded_planListed input

theorem isQuiet_planCalendarRediscovery (h : IsRegular input newId) (hrows : rows.Perm
      (applyCalendarRediscoveryPlan newId createdAt now (planCalendarRediscovery input) input.existing)) :
    (planCalendarRediscovery { input with existing := rows }).IsQuiet := by
  by_cases hdiscovered : input.discovered = []
  · rw [planCalendarRediscovery]
    split_ifs with hsuppressed
    · exact ⟨rfl, rfl, rfl, rfl, rfl⟩
    · obtain rfl : rows = [] := by simpa [hdiscovered] using hsuppressed
      refine isQuiet_planListed (fun key row hget => by cases hget) fun found hfound => ?_
      rw [CalendarRediscoveryInput.unique, hdiscovered] at hfound
      cases hfound
  have hplan : ∀ rows, planCalendarRediscovery { input with existing := rows } =
      planListed { input with existing := rows } := fun rows => by simp [planCalendarRediscovery, hdiscovered]
  rw [show planCalendarRediscovery input = planListed input from hplan _] at hrows
  have hrows : rows.Perm ((input.grown newId createdAt).map (updateRow (planListed input) now)) := hrows
  rw [hplan]
  refine isQuiet_planListed (fun key left hget => h.isSettled hrows hget) fun found hfound hnone => ?_
  have hleft : ∀ row ∈ input.grown newId createdAt, row.identityKey ≠ found.identityKey := by
    intro row hrow hkey
    have hindexed := (indexExistingByKey_spec rows).2 _ (hrows.mem_iff.2 (List.mem_map_of_mem hrow))
    rw [(h.updateRow_spec now hrow).1, hkey] at hindexed
    exact hindexed hnone
  by_contra! hno
  refine hleft (buildInsertRow newId createdAt found) (List.mem_append_right _ (List.mem_map_of_mem ?_)) rfl
  refine mem_toInsert_iff.2 ⟨hfound, ?_, hno⟩
  by_contra hne
  obtain ⟨row, hget⟩ := Option.ne_none_iff_exists'.1 hne
  obtain ⟨⟨hmem, hkey⟩, -⟩ := (indexExistingByKey_spec _).1 _ _ hget
  exact hleft row (List.mem_append_left _ hmem) hkey

/-- **Rediscovery converges**: a plan is guarded, and once it is applied the same discovery changes no row. -/
theorem rediscovery_converges (h : IsRegular input newId) (hrows : rows.Perm
      (applyCalendarRediscoveryPlan newId createdAt now (planCalendarRediscovery input) input.existing)) :
    IsGuarded input (planCalendarRediscovery input) ∧
      (planCalendarRediscovery { input with existing := rows }).IsQuiet :=
  ⟨isGuarded_planCalendarRediscovery input, isQuiet_planCalendarRediscovery h hrows⟩

end Settling

/-- A calendar that was gone is listed again, read-only, beside a new one; another one is gone. -/
def listedAgain : CalendarRediscoveryInput where
  discovered := [⟨"work", "Work", false, none, some "/work/"⟩, ⟨"home", "Home", true, none, some "/home/"⟩]
  existing := [⟨"1", "work", some "/old/work/", some 3, 1, true⟩, ⟨"2", "gone", some "/gone/", none, 2, true⟩]

theorem rediscovery_converges_example : IsGuarded listedAgain (planCalendarRediscovery listedAgain) ∧
    (planCalendarRediscovery { listedAgain with
      existing := applyCalendarRediscoveryPlan (fun _ => "3") 5 4 (planCalendarRediscovery listedAgain)
        listedAgain.existing }).IsQuiet :=
  rediscovery_converges ⟨by decide, by decide, by simp [listedAgain], by simp [listedAgain]⟩
    (List.Perm.refl _)

end Rediscovery

end Keeper
