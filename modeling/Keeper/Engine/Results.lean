import Keeper.Core.ContentHash
import Keeper.Foundations.JsArray
import Keeper.Sync.Matching

/-!
# Results of provider calls

`processAddResults`, `processUpdateResults` and `processDeleteResults`
(`core/sync-engine/index.ts`): what a batch of provider results makes of the operations it answers.
Results are matched to operations by index; a missing result counts as a failure.

* `inserts_processAddResults`, `deletes_processAddResults`, `updates_processUpdateResults`,
  `unresolved_processUpdateResults`, `deleteIds_processDeleteResults`: the lists, item by item.
-/

namespace Keeper

open JsArray

/-! ## Results -/

structure PushEchoValueLengths where
  echo : ℕ := 0
  sent : ℕ := 0
  deriving DecidableEq

structure PushEchoFieldDivergence where
  allDay : Bool
  description : Bool
  «end» : Bool
  descriptionLengths : Option PushEchoValueLengths := none
  locationLengths : Option PushEchoValueLengths := none
  summaryLengths : Option PushEchoValueLengths := none
  location : Bool
  start : Bool
  summary : Bool
  deriving DecidableEq

/-- `PushEchoComparison`; the reason of an uncomparable echo is not read here. -/
inductive PushEchoComparison
  | comparable (divergence : PushEchoFieldDivergence)
  | uncomparable
  deriving DecidableEq

structure PushResult where
  success : Bool
  remoteId : Option String := none
  deleteId : Option String := none
  echo : Option PushEchoComparison := none
  error : Option String := none
  errorType : Option String := none
  statusCode : Option ℤ := none
  conflictResolved : Option Bool := none
  writeAccessDenied : Option Bool := none
  deriving DecidableEq

structure DeleteResult where
  success : Bool
  error : Option String := none
  errorType : Option String := none
  statusCode : Option ℤ := none
  writeAccessDenied : Option Bool := none
  deriving DecidableEq

inductive OperationErrorType
  | add
  | remove
  | update
  deriving DecidableEq

structure OperationError where
  type : OperationErrorType
  error : String
  errorType : Option String
  statusCode : Option ℤ
  writeAccessDenied : Bool
  deriving DecidableEq

/-- The error that a failed push leaves, if its result carries a message. -/
def pushResultErrors (type : OperationErrorType) (result : Option PushResult) :
    List OperationError :=
  match result with
  | none => []
  | some r =>
    match truthy r.error with
    | none => []
    | some error =>
      [{ type, error, errorType := truthy r.errorType, statusCode := r.statusCode,
         writeAccessDenied := r.writeAccessDenied = some true }]

/-- The error that a failed delete leaves, if its result carries a message. -/
def deleteResultErrors (result : Option DeleteResult) : List OperationError :=
  match result with
  | none => []
  | some r =>
    match truthy r.error with
    | none => []
    | some error =>
      [{ type := .remove, error, errorType := truthy r.errorType, statusCode := r.statusCode,
         writeAccessDenied := r.writeAccessDenied = some true }]

/-! ## Echoes -/

structure PushEchoCounts where
  allDay : ℕ := 0
  changed : ℕ := 0
  compared : ℕ := 0
  description : ℕ := 0
  descriptionEchoLength : ℕ := 0
  descriptionSentLength : ℕ := 0
  «end» : ℕ := 0
  location : ℕ := 0
  locationEchoLength : ℕ := 0
  locationSentLength : ℕ := 0
  start : ℕ := 0
  summary : ℕ := 0
  summaryEchoLength : ℕ := 0
  summarySentLength : ℕ := 0
  uncomparable : ℕ := 0
  deriving DecidableEq

/-- The sum of two counts, key by key. -/
def PushEchoCounts.add (a b : PushEchoCounts) : PushEchoCounts where
  allDay := a.allDay + b.allDay
  changed := a.changed + b.changed
  compared := a.compared + b.compared
  description := a.description + b.description
  descriptionEchoLength := a.descriptionEchoLength + b.descriptionEchoLength
  descriptionSentLength := a.descriptionSentLength + b.descriptionSentLength
  «end» := a.end + b.end
  location := a.location + b.location
  locationEchoLength := a.locationEchoLength + b.locationEchoLength
  locationSentLength := a.locationSentLength + b.locationSentLength
  start := a.start + b.start
  summary := a.summary + b.summary
  summaryEchoLength := a.summaryEchoLength + b.summaryEchoLength
  summarySentLength := a.summarySentLength + b.summarySentLength
  uncomparable := a.uncomparable + b.uncomparable

def hasPushEchoDivergence (d : PushEchoFieldDivergence) : Bool :=
  d.allDay || d.description || d.end || d.location || d.start || d.summary

def echoCounts : Option PushEchoComparison → PushEchoCounts
  | some (.comparable d) =>
    if hasPushEchoDivergence d then
      { compared := 1
        changed := 1
        allDay := d.allDay.toNat
        description := d.description.toNat
        «end» := d.end.toNat
        location := d.location.toNat
        start := d.start.toNat
        summary := d.summary.toNat
        descriptionEchoLength := (d.descriptionLengths.getD {}).echo
        descriptionSentLength := (d.descriptionLengths.getD {}).sent
        locationEchoLength := (d.locationLengths.getD {}).echo
        locationSentLength := (d.locationLengths.getD {}).sent
        summaryEchoLength := (d.summaryLengths.getD {}).echo
        summarySentLength := (d.summaryLengths.getD {}).sent }
    else { compared := 1 }
  | _ => { uncomparable := 1 }

def tallyPushEcho (pushResults : List PushResult) : PushEchoCounts :=
  pushResults.foldl (fun counts r =>
    if r.success && (truthy r.remoteId).isSome then counts.add (echoCounts r.echo) else counts) {}

/-! ## Additions -/

/-- What `processAddResults` returns. -/
structure AddResults where
  inserts : List PendingInsert := []
  deletes : List String := []
  added : ℕ := 0
  addFailed : ℕ := 0
  conflictsResolved : ℕ := 0
  errors : List OperationError := []

variable (host : Host)

def pendingInsert (calendarId : String) (event : MaterializedSyncableEvent) (remoteId : String)
    (result : PushResult) : PendingInsert where
  eventStateId := event.eventStateId.getD event.id
  sourceCalendarId := event.calendarId
  syncEventId := event.id
  calendarId
  destinationEventUid := remoteId
  deleteIdentifier := result.deleteId.getD remoteId
  syncEventHash := some (createSyncEventContentHash host event)
  startTime := event.startTime
  endTime := event.endTime

/-- One iteration of `processAddResults`. -/
def processAddResult (calendarId : String) (acc : AddResults)
    (item : AddOperation × Option PushResult) : AddResults :=
  match item.2.filter (·.success) with
  | none =>
    { acc with
      addFailed := acc.addFailed + 1
      errors := acc.errors ++ pushResultErrors .add item.2 }
  | some result =>
    let deletes := acc.deletes ++ (truthy item.1.staleMappingId).toList
    match truthy result.remoteId with
    | none => { acc with deletes }
    | some remoteId =>
      { acc with
        inserts := acc.inserts ++ [pendingInsert host calendarId item.1.event remoteId result]
        deletes
        added := acc.added + 1
        conflictsResolved := acc.conflictsResolved + (result.conflictResolved == some true).toNat }

def processAddResults (addOperations : List AddOperation) (pushResults : List PushResult)
    (calendarId : String) : AddResults :=
  (zipIndexed addOperations pushResults).foldl (processAddResult host calendarId) {}

def insertOf (calendarId : String) (item : AddOperation × Option PushResult) :
    Option PendingInsert :=
  (item.2.filter (·.success)).bind fun result =>
    (truthy result.remoteId).map fun remoteId =>
      pendingInsert host calendarId item.1.event remoteId result

def staleMappingOf (item : AddOperation × Option PushResult) : Option String :=
  (item.2.filter (·.success)).bind fun _ => truthy item.1.staleMappingId

theorem foldl_processAddResult (calendarId : String)
    (items : List (AddOperation × Option PushResult)) (acc : AddResults) :
    (items.foldl (processAddResult host calendarId) acc).inserts =
        acc.inserts ++ items.filterMap (insertOf host calendarId) ∧
      (items.foldl (processAddResult host calendarId) acc).deletes =
        acc.deletes ++ items.filterMap staleMappingOf := by
  induction items generalizing acc with
  | nil => simp
  | cons item items ih =>
    rw [List.foldl_cons, (ih _).1, (ih _).2]
    obtain ⟨op, r⟩ := item
    cases hr : r.filter (·.success) with
    | none => simp [processAddResult, insertOf, staleMappingOf, hr]
    | some result =>
      cases hid : truthy result.remoteId <;> cases hst : truthy op.staleMappingId <;>
        simp [processAddResult, insertOf, staleMappingOf, hr, hid, hst]

theorem inserts_processAddResults (adds : List AddOperation) (results : List PushResult)
    (calendarId : String) :
    (processAddResults host adds results calendarId).inserts =
      (zipIndexed adds results).filterMap (insertOf host calendarId) :=
  (foldl_processAddResult host calendarId _ {}).1

theorem deletes_processAddResults (adds : List AddOperation) (results : List PushResult)
    (calendarId : String) :
    (processAddResults host adds results calendarId).deletes =
      (zipIndexed adds results).filterMap staleMappingOf :=
  (foldl_processAddResult host calendarId _ {}).2

/-! ## Updates -/

/-- What `processUpdateResults` returns. -/
structure UpdateResults where
  updates : List PendingUpdate := []
  updated : ℕ := 0
  conflictsResolved : ℕ := 0
  errors : List OperationError := []
  unresolved : List ReplaceOperation := []

/-- The mapping row of a copy updated in place. -/
def pendingUpdate (op : ReplaceOperation) (result : PushResult) : PendingUpdate where
  deleteIdentifier := (result.deleteId.or result.remoteId).getD op.deleteId
  endTime := op.event.endTime
  id := op.staleMappingId
  startTime := op.event.startTime
  syncEventHash := createSyncEventContentHash host op.event
  syncEventId := op.event.id

/-- One iteration of `processUpdateResults`. -/
def processUpdateResult (acc : UpdateResults) (item : ReplaceOperation × Option PushResult) :
    UpdateResults :=
  match item.2.filter (·.success) with
  | none =>
    { acc with
      unresolved := acc.unresolved ++ [item.1]
      errors := acc.errors ++ pushResultErrors .update item.2 }
  | some result =>
    { acc with
      updates := acc.updates ++ [pendingUpdate host item.1 result]
      updated := acc.updated + 1
      conflictsResolved := acc.conflictsResolved + (result.conflictResolved == some true).toNat }

def processUpdateResults (replacements : List ReplaceOperation) (pushResults : List PushResult) :
    UpdateResults :=
  (zipIndexed replacements pushResults).foldl (processUpdateResult host) {}

def updateOf (item : ReplaceOperation × Option PushResult) : Option PendingUpdate :=
  (item.2.filter (·.success)).map fun result => pendingUpdate host item.1 result

/-- The replacement, if its update failed. -/
def unresolvedOf (item : ReplaceOperation × Option PushResult) : Option ReplaceOperation :=
  match item.2.filter (·.success) with
  | none => some item.1
  | some _ => none

theorem foldl_processUpdateResult (items : List (ReplaceOperation × Option PushResult))
    (acc : UpdateResults) :
    (items.foldl (processUpdateResult host) acc).updates =
        acc.updates ++ items.filterMap (updateOf host) ∧
      (items.foldl (processUpdateResult host) acc).unresolved =
        acc.unresolved ++ items.filterMap unresolvedOf := by
  induction items generalizing acc with
  | nil => simp
  | cons item items ih =>
    rw [List.foldl_cons, (ih _).1, (ih _).2]
    obtain ⟨op, r⟩ := item
    cases hr : r.filter (·.success) <;>
      simp [processUpdateResult, updateOf, unresolvedOf, hr]

theorem updates_processUpdateResults (replacements : List ReplaceOperation)
    (results : List PushResult) :
    (processUpdateResults host replacements results).updates =
      (zipIndexed replacements results).filterMap (updateOf host) :=
  (foldl_processUpdateResult host _ {}).1

theorem unresolved_processUpdateResults (replacements : List ReplaceOperation)
    (results : List PushResult) :
    (processUpdateResults host replacements results).unresolved =
      (zipIndexed replacements results).filterMap unresolvedOf :=
  (foldl_processUpdateResult host _ {}).2

/-! ## Removals -/

/-- What `processDeleteResults` returns. -/
structure DeleteResults where
  deleteIds : List String := []
  removed : ℕ := 0
  removeFailed : ℕ := 0
  errors : List OperationError := []

/-- One iteration of `processDeleteResults`. -/
def processDeleteResult (byIdentity : JsMap String EventMapping) (acc : DeleteResults)
    (item : RemoveOperation × Option DeleteResult) : DeleteResults :=
  match item.2.filter (·.success) with
  | none =>
    { acc with
      removeFailed := acc.removeFailed + 1
      errors := acc.errors ++ deleteResultErrors item.2 }
  | some _ =>
    { acc with
      deleteIds := acc.deleteIds ++ (truthy (removeTarget byIdentity item.1)).toList
      removed := acc.removed + 1 }

def processDeleteResults (removeOperations : List RemoveOperation)
    (deleteResults : List DeleteResult) (byIdentity : JsMap String EventMapping) : DeleteResults :=
  (zipIndexed removeOperations deleteResults).foldl (processDeleteResult byIdentity) {}

/-- The mapping that one removal drops. -/
def deletedMappingOf (byIdentity : JsMap String EventMapping)
    (item : RemoveOperation × Option DeleteResult) : Option String :=
  (item.2.filter (·.success)).bind fun _ => truthy (removeTarget byIdentity item.1)

theorem foldl_processDeleteResult (byIdentity : JsMap String EventMapping)
    (items : List (RemoveOperation × Option DeleteResult)) (acc : DeleteResults) :
    (items.foldl (processDeleteResult byIdentity) acc).deleteIds =
      acc.deleteIds ++ items.filterMap (deletedMappingOf byIdentity) := by
  induction items generalizing acc with
  | nil => simp
  | cons item items ih =>
    rw [List.foldl_cons, ih]
    obtain ⟨op, r⟩ := item
    cases hr : r.filter (·.success) with
    | none => simp [processDeleteResult, deletedMappingOf, hr]
    | some result =>
      cases ht : truthy (removeTarget byIdentity op) <;>
        simp [processDeleteResult, deletedMappingOf, hr, ht]

theorem deleteIds_processDeleteResults (removes : List RemoveOperation)
    (results : List DeleteResult) (byIdentity : JsMap String EventMapping) :
    (processDeleteResults removes results byIdentity).deleteIds =
      (zipIndexed removes results).filterMap (deletedMappingOf byIdentity) :=
  foldl_processDeleteResult byIdentity _ {}

end Keeper
