import Keeper.Core.Types
import Keeper.Foundations.JsonSchema

/-!
# Recurrence fields in storage

`core/events/stored-recurrence.ts` and the schemas it reads with: a rule and the exception dates of
a series are JSON texts in two columns, and the duration of its occurrences travels inside the
rule's object.

* `parseStoredIcsRecurrence_serialize`: a rule and its duration are read back from their column.
* `parseStoredIcsExceptionDates_serialize`: and the exception dates from theirs.
-/

namespace Keeper

/-- What the schema package contributes: the instant of a text that `string.date.iso.parse` accepts,
and the summary of what is wrong with a value, by the field it is in. -/
structure Arktype where
  isoDate : String → Option ℤ
  problem : String → Json → String

def Arktype.ReadsIso (ark : Arktype) (t : ℤ) : Prop := ark.isoDate (Date.toISOString t) = some t

/-- ISO strings whose year has four digits parse to their instant. -/
def Arktype.ParsesIsoDates (ark : Arktype) : Prop := ∀ t, Date.InIsoYears t → ark.ReadsIso t

/-! ## Names -/

def IcsDateType.ofName (name : String) : Option IcsDateType :=
  [date, dateTime].find? (·.name = name)

def IcsFrequency.ofName (name : String) : Option IcsFrequency :=
  [secondly, minutely, hourly, daily, weekly, monthly, yearly].find? (·.name = name)

def IcsWeekDay.ofName (name : String) : Option IcsWeekDay :=
  [su, mo, tu, we, th, fr, sa].find? (·.name = name)

@[simp] theorem IcsDateType.ofName_name (t : IcsDateType) : ofName t.name = some t := by
  cases t <;> decide

@[simp] theorem IcsFrequency.ofName_name (f : IcsFrequency) : ofName f.name = some f := by
  cases f <;> decide

@[simp] theorem IcsWeekDay.ofName_name (d : IcsWeekDay) : ofName d.name = some d := by
  cases d <;> decide

/-! ## Schemas -/

section Schemas

open Json (required optional string? number? boolean? array? fields?)

variable (ark : Arktype)

/-- `string.date.iso.parse`. -/
def readIsoDate (value : Json) : Option ℤ := value.string?.bind ark.isoDate

/-- The `local` part of `icsDateObjectSchema`. -/
def readIcsLocalDate (value : Json) : Option IcsLocalDate := do
  let fields ← value.fields?
  return { date := ← required fields "date" (readIsoDate ark)
           timezone := ← required fields "timezone" string?
           tzoffset := ← required fields "tzoffset" string? }

/-- `icsDateObjectSchema`. -/
def readIcsDateObject (value : Json) : Option IcsDateObject := do
  let fields ← value.fields?
  return { date := ← required fields "date" (readIsoDate ark)
           type := ← optional fields "type" fun v => v.string?.bind IcsDateType.ofName
           «local» := ← optional fields "local" (readIcsLocalDate ark) }

/-- `icsDurationSchema`. -/
def readIcsDuration (value : Json) : Option IcsDuration := do
  let fields ← value.fields?
  return { before := ← optional fields "before" boolean?
           weeks := ← optional fields "weeks" number?
           days := ← optional fields "days" number?
           hours := ← optional fields "hours" number?
           minutes := ← optional fields "minutes" number?
           seconds := ← optional fields "seconds" number? }

/-- `icsWeekDaySchema`. -/
def readIcsWeekDay (value : Json) : Option IcsWeekDay := value.string?.bind IcsWeekDay.ofName

/-- The items of `byDay`. -/
def readIcsByDay (value : Json) : Option IcsByDay := do
  let fields ← value.fields?
  return { day := ← required fields "day" readIcsWeekDay
           occurrence := ← optional fields "occurrence" number? }

/-- `icsRecurrenceRuleSchema`, on the fields of an object. -/
def readIcsRecurrenceRule (fields : List (String × Json)) : Option IcsRecurrenceRule := do
  return { frequency := ← required fields "frequency" fun v => v.string?.bind IcsFrequency.ofName
           «until» := ← optional fields "until" (readIcsDateObject ark)
           count := ← optional fields "count" number?
           interval := ← optional fields "interval" number?
           bySecond := ← optional fields "bySecond" (array? number?)
           byMinute := ← optional fields "byMinute" (array? number?)
           byHour := ← optional fields "byHour" (array? number?)
           byDay := ← optional fields "byDay" (array? readIcsByDay)
           byMonthday := ← optional fields "byMonthday" (array? number?)
           byYearday := ← optional fields "byYearday" (array? number?)
           byWeekNo := ← optional fields "byWeekNo" (array? number?)
           byMonth := ← optional fields "byMonth" (array? number?)
           bySetPos := ← optional fields "bySetPos" (array? number?)
           workweekStart := ← optional fields "workweekStart" readIcsWeekDay }

structure ParsedStoredRecurrenceRule where
  recurrenceDuration : Option IcsDuration := none
  recurrenceRule : IcsRecurrenceRule
  deriving DecidableEq

/-- `storedIcsRecurrenceRuleSchema`: a rule with the duration inside it. -/
def readStoredIcsRecurrenceRule (value : Json) : Option ParsedStoredRecurrenceRule := do
  let fields ← value.fields?
  return { recurrenceRule := ← readIcsRecurrenceRule ark fields
           recurrenceDuration := ← optional fields "recurrenceDuration" readIcsDuration }

/-- `icsExceptionDatesSchema`. -/
def readIcsExceptionDates (value : Json) : Option (List IcsDateObject) :=
  value.array? (readIcsDateObject ark)

end Schemas

/-! ## Columns -/

section Columns

variable (ark : Arktype)

def parseStoredJson (value field eventId : String) : Except String Json :=
  match Json.parse value with
  | some parsed => .ok parsed
  | none => .error ("Failed to JSON.parse " ++ field ++ " for event " ++ eventId)

/-- `schema.assert`, its failure as the column's `TypeError`. -/
def assertSchema {α : Type} (read : Json → Option α) (field eventId : String) (parsed : Json) :
    Except String α :=
  match read parsed with
  | some value => .ok value
  | none => .error ("Invalid " ++ field ++ " shape for event " ++ eventId ++ ": " ++
      ark.problem field parsed)

def parseStoredIcsRecurrence (value : Option String) (eventId : String) :
    Except String (Option ParsedStoredRecurrenceRule) :=
  match value with
  | none => .ok none
  | some value => do
    let parsed ← parseStoredJson value "recurrenceRule" eventId
    let storedRule ← assertSchema ark (readStoredIcsRecurrenceRule ark) "recurrenceRule" eventId
      parsed
    return some storedRule

/-- The object that `serializeStoredIcsRecurrenceRule` prints. -/
def storedIcsRecurrenceRuleJson (recurrenceRule : IcsRecurrenceRule)
    (recurrenceDuration : Option IcsDuration) : Json :=
  .ofFields (recurrenceRule.jsonFields ++
    [("recurrenceDuration", recurrenceDuration.map (·.toJson))])

/-- `serializeStoredIcsRecurrenceRule`: a duration without a rule is not stored. -/
def serializeStoredIcsRecurrenceRule (recurrenceRule : Option IcsRecurrenceRule)
    (recurrenceDuration : Option IcsDuration) : Option String :=
  recurrenceRule.map fun rule => (storedIcsRecurrenceRuleJson rule recurrenceDuration).stringify

def parseStoredIcsExceptionDates (value : Option String) (eventId : String) :
    Except String (Option (List IcsDateObject)) :=
  match value with
  | none => .ok none
  | some value => do
    let parsed ← parseStoredJson value "exceptionDates" eventId
    let dates ← assertSchema ark (readIcsExceptionDates ark) "exceptionDates" eventId parsed
    return some dates

def icsExceptionDatesJson (dates : List IcsDateObject) : Json := .arr (dates.map (·.toJson))

structure MaterializedRecurrenceFields where
  exceptionDates : Option (List ℤ) := none
  recurrenceDuration : Option IcsDuration := none
  recurrenceId : Option ℤ := none
  recurrenceRule : Option IcsRecurrenceRule := none
  deriving DecidableEq

def parseStoredRecurrenceForMaterialization (eventId : String) (exceptionDates : Option String)
    (recurrenceId : Option ℤ) (recurrenceRule : Option String) :
    Except String MaterializedRecurrenceFields := do
  let exceptionDates ← parseStoredIcsExceptionDates ark exceptionDates eventId
  let storedRecurrenceRule ← parseStoredIcsRecurrence ark recurrenceRule eventId
  return { exceptionDates := exceptionDates.map fun dates => dates.map (·.date)
           recurrenceId := recurrenceId
           recurrenceDuration := storedRecurrenceRule.bind (·.recurrenceDuration)
           recurrenceRule := storedRecurrenceRule.map (·.recurrenceRule) }

end Columns

/-! ## Reading back -/

section ReadBack

open Json

def IcsDateObject.dates (d : IcsDateObject) : List ℤ := d.date :: (d.local.map (·.date)).toList

def IcsRecurrenceRule.dates (r : IcsRecurrenceRule) : List ℤ :=
  (r.until.map IcsDateObject.dates).getD []

variable {ark : Arktype}

theorem readIsoDate_dateJson {t : ℤ} (ht : ark.ReadsIso t) :
    readIsoDate ark (dateJson t) = some t := ht

theorem readIcsLocalDate_toJson {l : IcsLocalDate} (hl : ark.ReadsIso l.date) :
    readIcsLocalDate ark l.toJson = some l := by
  rw [readIcsLocalDate, IcsLocalDate.toJson, fields?_ofFields, Option.bind_eq_bind,
    Option.bind_some,
    required_ofFields (by simp) "date" l.date (readIsoDate_dateJson hl) (by simp),
    required_ofFields (by simp) "timezone" l.timezone (p := .str) rfl (by simp),
    required_ofFields (by simp) "tzoffset" l.tzoffset (p := .str) rfl (by simp)]
  rfl

theorem readIcsDateObject_toJson {d : IcsDateObject} (hd : ∀ t ∈ d.dates, ark.ReadsIso t) :
    readIcsDateObject ark d.toJson = some d := by
  have hdate : ark.ReadsIso d.date := hd _ List.mem_cons_self
  have hlocal : ∀ l ∈ d.local, ark.ReadsIso l.date := fun l hl =>
    hd _ (List.mem_cons_of_mem _ (by rw [Option.mem_def.1 hl]; simp))
  rw [readIcsDateObject, IcsDateObject.toJson, fields?_ofFields, Option.bind_eq_bind,
    Option.bind_some,
    required_ofFields (by simp) "date" d.date (readIsoDate_dateJson hdate) (by simp),
    optional_ofFields (by simp) "type" d.type (p := fun t => .str t.name)
      (fun t _ => by simp [string?]) (by simp),
    optional_ofFields (by simp) "local" d.local
      (fun l hl => readIcsLocalDate_toJson (hlocal l hl)) (by simp)]
  rfl

theorem readIcsDuration_toJson (d : IcsDuration) : readIcsDuration d.toJson = some d := by
  have hnum : ∀ n : ℤ, number? (.num n) = some n := fun _ => rfl
  rw [readIcsDuration, IcsDuration.toJson, fields?_ofFields, Option.bind_eq_bind,
    Option.bind_some,
    optional_ofFields (by simp) "before" d.before (p := .bool) (fun _ _ => rfl) (by simp),
    optional_ofFields (by simp) "weeks" d.weeks (fun n _ => hnum n) (by simp),
    optional_ofFields (by simp) "days" d.days (fun n _ => hnum n) (by simp),
    optional_ofFields (by simp) "hours" d.hours (fun n _ => hnum n) (by simp),
    optional_ofFields (by simp) "minutes" d.minutes (fun n _ => hnum n) (by simp),
    optional_ofFields (by simp) "seconds" d.seconds (fun n _ => hnum n) (by simp)]
  rfl

theorem readIcsByDay_toJson (b : IcsByDay) : readIcsByDay b.toJson = some b := by
  rw [readIcsByDay, IcsByDay.toJson, fields?_ofFields, Option.bind_eq_bind, Option.bind_some,
    required_ofFields (by simp) "day" b.day (p := fun d => .str d.name)
      (by simp [readIcsWeekDay, string?]) (by simp),
    optional_ofFields (by simp) "occurrence" b.occurrence (p := .num) (fun _ _ => rfl) (by simp)]
  rfl

theorem readNumbers_numbersJson (l : List ℤ) : array? number? (numbersJson l) = some l :=
  array?_arr fun _ _ => rfl

theorem IcsRecurrenceRule.nodup_storedFields (r : IcsRecurrenceRule) (d : Option IcsDuration) :
    ((r.jsonFields ++ [("recurrenceDuration", d.map (·.toJson))]).map Prod.fst).Nodup := by
  simp [IcsRecurrenceRule.jsonFields]

theorem readIcsRecurrenceRule_jsonFields {r : IcsRecurrenceRule}
    (hr : ∀ t ∈ r.dates, ark.ReadsIso t) {fields : List (String × Option Json)}
    (hkeys : (fields.map Prod.fst).Nodup) (hfields : r.jsonFields ⊆ fields) :
    readIcsRecurrenceRule ark (fields.filterMap fun e => e.2.map (e.1, ·)) = some r := by
  have number : ∀ key (v : Option ℤ), (key, v.map .num) ∈ r.jsonFields →
      optional (fields.filterMap fun e => e.2.map (e.1, ·)) key number? = some v :=
    fun key v h => optional_ofFields hkeys key v (fun _ _ => rfl) (hfields h)
  have numbers : ∀ key (v : Option (List ℤ)), (key, v.map numbersJson) ∈ r.jsonFields →
      optional (fields.filterMap fun e => e.2.map (e.1, ·)) key (array? number?) = some v :=
    fun key v h => optional_ofFields hkeys key v (fun l _ => readNumbers_numbersJson l) (hfields h)
  have hfrequency := required_ofFields (r := fun v => v.string?.bind IcsFrequency.ofName) hkeys
    "frequency" r.frequency (p := fun f => .str f.name) (by simp [string?])
    (hfields (by simp [IcsRecurrenceRule.jsonFields]))
  have huntil := optional_ofFields hkeys "until" r.until
    (fun u hu => readIcsDateObject_toJson fun t ht =>
      hr t (by rw [IcsRecurrenceRule.dates, Option.mem_def.1 hu]; exact ht))
    (hfields (by simp [IcsRecurrenceRule.jsonFields]))
  have hbyDay := optional_ofFields hkeys "byDay" r.byDay (p := fun l => .arr (l.map (·.toJson)))
    (fun l _ => array?_arr fun b _ => readIcsByDay_toJson b)
    (hfields (by simp [IcsRecurrenceRule.jsonFields]))
  have hstart := optional_ofFields (r := readIcsWeekDay) hkeys "workweekStart" r.workweekStart
    (p := fun d => .str d.name) (fun d _ => by simp [readIcsWeekDay, string?])
    (hfields (by simp [IcsRecurrenceRule.jsonFields]))
  rw [readIcsRecurrenceRule, hfrequency, huntil,
    number "count" r.count (by simp [IcsRecurrenceRule.jsonFields]),
    number "interval" r.interval (by simp [IcsRecurrenceRule.jsonFields]),
    numbers "bySecond" r.bySecond (by simp [IcsRecurrenceRule.jsonFields]),
    numbers "byMinute" r.byMinute (by simp [IcsRecurrenceRule.jsonFields]),
    numbers "byHour" r.byHour (by simp [IcsRecurrenceRule.jsonFields]), hbyDay,
    numbers "byMonthday" r.byMonthday (by simp [IcsRecurrenceRule.jsonFields]),
    numbers "byYearday" r.byYearday (by simp [IcsRecurrenceRule.jsonFields]),
    numbers "byWeekNo" r.byWeekNo (by simp [IcsRecurrenceRule.jsonFields]),
    numbers "byMonth" r.byMonth (by simp [IcsRecurrenceRule.jsonFields]),
    numbers "bySetPos" r.bySetPos (by simp [IcsRecurrenceRule.jsonFields]), hstart]
  rfl

/-! The texts have no repeated key. -/

theorem IcsLocalDate.wellKeyed_toJson (l : IcsLocalDate) : l.toJson.WellKeyed :=
  wellKeyed_ofFields (by simp) (by simp [dateJson])

theorem IcsDateObject.wellKeyed_toJson (d : IcsDateObject) : d.toJson.WellKeyed := by
  refine wellKeyed_ofFields (by simp) ?_
  have hlocal := fun l : IcsLocalDate => l.wellKeyed_toJson
  simp [dateJson, hlocal]

theorem IcsDuration.wellKeyed_toJson (d : IcsDuration) : d.toJson.WellKeyed := by
  have hmap : ∀ {α : Type} {p : α → Json} (v : Option α), (∀ a, (p a).WellKeyed) →
      ∀ j ∈ v.map p, j.WellKeyed := by
    intro α p v hp j hj
    obtain ⟨a, -, rfl⟩ := Option.map_eq_some_iff.1 hj
    exact hp a
  refine wellKeyed_ofFields (by simp) ?_
  simp only [List.forall_mem_cons]
  exact ⟨hmap _ wellKeyed_bool, hmap _ wellKeyed_num, hmap _ wellKeyed_num, hmap _ wellKeyed_num,
    hmap _ wellKeyed_num, hmap _ wellKeyed_num, by simp⟩

theorem IcsByDay.wellKeyed_toJson (b : IcsByDay) : b.toJson.WellKeyed :=
  wellKeyed_ofFields (by simp) (by simp)

theorem wellKeyed_numbersJson (l : List ℤ) : (numbersJson l).WellKeyed :=
  wellKeyed_arr fun _ _ => trivial

theorem wellKeyed_storedIcsRecurrenceRuleJson (r : IcsRecurrenceRule) (d : Option IcsDuration) :
    (storedIcsRecurrenceRuleJson r d).WellKeyed := by
  refine wellKeyed_ofFields (r.nodup_storedFields d) ?_
  have huntil := fun u : IcsDateObject => u.wellKeyed_toJson
  have hduration := fun d : IcsDuration => d.wellKeyed_toJson
  have hbyDay : ∀ l : List IcsByDay, (arr (l.map (·.toJson))).WellKeyed :=
    fun l => wellKeyed_arr fun b _ => b.wellKeyed_toJson
  simp [IcsRecurrenceRule.jsonFields, huntil, hduration, hbyDay, wellKeyed_numbersJson]

/-- **A rule and its duration are read back from their column.** -/
theorem parseStoredIcsRecurrence_serialize {rule : Option IcsRecurrenceRule}
    (hrule : ∀ r ∈ rule, ∀ t ∈ r.dates, ark.ReadsIso t)
    (duration : Option IcsDuration) (eventId : String) :
    parseStoredIcsRecurrence ark (serializeStoredIcsRecurrenceRule rule duration) eventId =
      .ok (rule.map fun r => ⟨duration, r⟩) := by
  cases rule with
  | none => rfl
  | some r =>
    have hparse : parseStoredJson (storedIcsRecurrenceRuleJson r duration).stringify
        "recurrenceRule" eventId = .ok (storedIcsRecurrenceRuleJson r duration) := by
      rw [parseStoredJson, parse_stringify (wellKeyed_storedIcsRecurrenceRuleJson r duration)]
    have hfields := readIcsRecurrenceRule_jsonFields (hrule r rfl)
      (r.nodup_storedFields duration) (List.subset_append_left _ _)
    have hduration := optional_ofFields (r.nodup_storedFields duration) "recurrenceDuration"
      duration (fun d _ => readIcsDuration_toJson d) (by simp)
    have hread : readStoredIcsRecurrenceRule ark (storedIcsRecurrenceRuleJson r duration) =
        some ⟨duration, r⟩ := by
      rw [readStoredIcsRecurrenceRule, storedIcsRecurrenceRuleJson, fields?_ofFields,
        Option.bind_eq_bind, Option.bind_some, hfields, hduration]
      rfl
    rw [serializeStoredIcsRecurrenceRule, Option.map_some, parseStoredIcsRecurrence, hparse]
    show (assertSchema ark (readStoredIcsRecurrenceRule ark) "recurrenceRule" eventId
      (storedIcsRecurrenceRuleJson r duration) >>= _) = _
    rw [assertSchema, hread]
    rfl

/-- **Exception dates are read back from their column.** -/
theorem parseStoredIcsExceptionDates_serialize {dates : Option (List IcsDateObject)}
    (hdates : ∀ l ∈ dates, ∀ d ∈ l, ∀ t ∈ d.dates, ark.ReadsIso t)
    (eventId : String) :
    parseStoredIcsExceptionDates ark (dates.map fun l => (icsExceptionDatesJson l).stringify)
      eventId = .ok dates := by
  cases dates with
  | none => rfl
  | some l =>
    have hkeyed : (icsExceptionDatesJson l).WellKeyed :=
      wellKeyed_arr fun d _ => d.wellKeyed_toJson
    have hparse : parseStoredJson (icsExceptionDatesJson l).stringify "exceptionDates" eventId =
        .ok (icsExceptionDatesJson l) := by
      rw [parseStoredJson, parse_stringify hkeyed]
    have hread : readIcsExceptionDates ark (icsExceptionDatesJson l) = some l :=
      array?_arr fun d hd => readIcsDateObject_toJson (hdates l rfl d hd)
    rw [Option.map_some, parseStoredIcsExceptionDates, hparse]
    show (assertSchema ark (readIcsExceptionDates ark) "exceptionDates" eventId
      (icsExceptionDatesJson l) >>= _) = _
    rw [assertSchema, hread]
    rfl

end ReadBack

end Keeper
