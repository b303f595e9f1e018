import Keeper.Core.Time
import Mathlib.Data.List.Sort

/-!
# Content hashes

`core/events/content-hash.ts`: the hash of everything a mirror shows, and the hash of the content
a user can edit on the destination. Both are SHA-256 of a JSON text of normalised fields.
-/

namespace Keeper

/-- Replace `\r\n` and `\r` by `\n`. -/
def normalizeNewlines : List Char → List Char
  | '\r' :: '\n' :: cs => '\n' :: normalizeNewlines cs
  | '\r' :: cs => '\n' :: normalizeNewlines cs
  | c :: cs => c :: normalizeNewlines cs
  | [] => []

def normalizeText (value : Option String) : String :=
  match value with
  | none => ""
  | some s => Text.trim (String.ofList (normalizeNewlines s.toList))

def normalizeAvailability (value : Option EventAvailability) : String :=
  (value.getD .busy).name

/-- `SyncableEventContent`: the fields a hash reads. -/
structure SyncableEventContent where
  summary : String
  description : Option String := none
  location : Option String := none
  availability : Option EventAvailability := none
  isAllDay : Option Bool := none
  isPrivate : Option Bool := none
  remindersDisabled : Option Bool := none
  startTime : Option ℤ := none
  endTime : Option ℤ := none
  startTimeZone : Option String := none
  recurrenceRule : Option IcsRecurrenceRule := none
  recurrenceDuration : Option IcsDuration := none
  exceptionDates : Option (List ℤ) := none
  recurrenceId : Option ℤ := none

def MaterializedSyncableEvent.content (e : MaterializedSyncableEvent) : SyncableEventContent where
  summary := e.summary
  description := e.description
  location := e.location
  availability := e.availability
  isAllDay := e.isAllDay
  isPrivate := e.isPrivate
  remindersDisabled := e.remindersDisabled
  startTime := some e.startTime
  endTime := some e.endTime
  startTimeZone := e.startTimeZone

def resolveHashedAllDay (event : SyncableEventContent) : Bool :=
  match event.startTime, event.endTime with
  | some startTime, some endTime => resolveIsAllDayEvent event.isAllDay startTime endTime
  | _, _ => event.isAllDay.getD false

def resolveHashedPrivacy (isPrivate : Option Bool) : List String :=
  if isPrivate = some true then ["private"] else []

def resolveHashedReminders (remindersDisabled : Option Bool) : List String :=
  if remindersDisabled = some true then ["reminders-disabled"] else []

/-- An optional instant as an ISO string, `""` when absent. -/
def isoOrEmpty (t : Option ℤ) : String := (t.map Date.toISOString).getD ""

variable (host : Host)

/-- The JSON array that `createSyncEventContentHash` hashes. -/
def syncEventContentPayload (event : SyncableEventContent) : Json :=
  .arr ([.str (normalizeText (some event.summary)), .str (normalizeText event.description),
    .str (normalizeText event.location), .str (normalizeAvailability event.availability),
    .bool (resolveHashedAllDay event), .str (isoOrEmpty event.startTime),
    .str (isoOrEmpty event.endTime), .str (event.startTimeZone.getD ""),
    .str (host.stableStringify ((event.recurrenceDuration.map (·.toJson)).getD .null)),
    .str (host.stableStringify ((event.recurrenceRule.map (·.toJson)).getD .null)),
    .strings (((event.exceptionDates.getD []).map Date.toISOString).insertionSort (· ≤ ·)),
    .str (isoOrEmpty event.recurrenceId)] ++
    (resolveHashedPrivacy event.isPrivate).map .str ++
    (resolveHashedReminders event.remindersDisabled).map .str)

def createSyncEventContentHash (event : MaterializedSyncableEvent) : String :=
  host.sha256 (syncEventContentPayload host event.content).stringify

def createEditableEventContentSnapshot (event : MaterializedSyncableEvent) :
    EditableEventContentSnapshot where
  summary := normalizeText (some event.summary)
  description := normalizeText event.description
  location := normalizeText event.location
  isAllDay := resolveHashedAllDay event.content

def hashEditableEventContentSnapshot (snapshot : EditableEventContentSnapshot) : String :=
  host.sha256 (Json.stringify (.arr [.str snapshot.summary, .str snapshot.description,
    .str snapshot.location, .bool snapshot.isAllDay]))

def createEditableEventContentHash (event : MaterializedSyncableEvent) : String :=
  hashEditableEventContentSnapshot host (createEditableEventContentSnapshot event)

end Keeper
