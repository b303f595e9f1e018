import Keeper.Destinations.RemoteCopy
import Keeper.Foundations.DateText
import Keeper.Recurrence.TimeZones

/-!
# Copies in Outlook

`providers/outlook/destination` and `providers/outlook/shared/date-time.ts`: an event is normalized,
serialized for Microsoft Graph and read back.

* `parseEventTime_toUtc`: a written time is read back where its year is written with four digits from
  the year 100 on.
* `outlookCopy_unchanged`: a copy nobody edited is read back as unchanged.
-/

namespace Keeper

namespace Outlook

/-! ## Resources -/

/-- `PartialOutlookDateTime`. -/
structure OutlookDateTime where
  dateTime : Option String := none
  timeZone : Option String := none
  deriving DecidableEq

/-- The `body` of an `OutlookEvent`. -/
structure OutlookBody where
  content : Option String := none
  contentType : Option String := none
  deriving DecidableEq

/-- The `location` of an `OutlookEvent`. -/
structure OutlookLocation where
  displayName : Option String := none
  deriving DecidableEq

/-- `OutlookEvent`, as far as it is written or read here. -/
structure OutlookEvent where
  id : Option String := none
  iCalUId : Option String := none
  body : Option OutlookBody := none
  location : Option OutlookLocation := none
  sensitivity : Option String := none
  isReminderOn : Option Bool := none
  categories : Option (List String) := none
  start : Option OutlookDateTime := none
  «end» : Option OutlookDateTime := none
  isAllDay : Option Bool := none
  showAs : Option String := none
  subject : Option String := none
  deriving DecidableEq

/-! ## Writing -/

def keeperCategory : String := "keeper.sh"

def isInvertedTimeRange (range : EventTimeRange) : Bool := range.endTime < range.startTime

def normalizeOutlookEvent (event : MaterializedSyncableEvent) : MaterializedSyncableEvent :=
  if event.shape.resolvesAllDay then event.withRange (resolveWholeDayTimeRange event.range)
  else if isInvertedTimeRange event.range then event.withRange (resolvePointInTimeRange event.range)
  else event

/-- `toUtcOutlookDateTime`: the ISO string without its `Z`, which is its last character. -/
def toUtcOutlookDateTime (value : ℤ) : OutlookDateTime where
  dateTime := some (String.ofList (Date.wallChars value))
  timeZone := some "UTC"

def getOutlookBody (event : MaterializedSyncableEvent) : Option OutlookBody :=
  (truthy event.description).map fun content => ⟨some content, some "text"⟩

def getOutlookLocation (event : MaterializedSyncableEvent) : Option OutlookLocation :=
  (truthy event.location).map fun displayName => ⟨some displayName⟩

def getShowAs : Option EventAvailability → String
  | some .free => "free"
  | some .oof => "oof"
  | some .workingElsewhere => "workingElsewhere"
  | _ => "busy"

def serializeOutlookEvent (event : MaterializedSyncableEvent) : OutlookEvent where
  body := getOutlookBody event
  location := getOutlookLocation event
  sensitivity := if event.isPrivate = some true then some "private" else none
  isReminderOn := if event.remindersDisabled = some true then some false else none
  categories := some [keeperCategory]
  «end» := some (toUtcOutlookDateTime event.endTime)
  isAllDay := some event.shape.resolvesAllDay
  showAs := some (getShowAs event.availability)
  start := some (toUtcOutlookDateTime event.startTime)
  subject := some event.summary

/-! ## Reading -/

/-- `EXPLICIT_OFFSET_PATTERN`: a text ends with `Z` or an offset of hours and minutes. -/
def hasExplicitOffset (text : String) : Bool :=
  match text.toList.reverse with
  | 'Z' :: _ | 'z' :: _ => true
  | d₄ :: d₃ :: ':' :: d₂ :: d₁ :: sign :: _ =>
    (sign = '+' || sign = '-') && [d₁, d₂, d₃, d₄].all (·.isDigit)
  | _ => false

def parseWallDateTime (value : String) : Except RangeError ℤ :=
  match Date.readWall (· = 'T') value.toList with
  | some (fields, []) => .ok (Date.utc fields)
  | _ => .error ("Invalid Outlook dateTime: " ++ value)

/-- `parseAllDayEventTime`, of a present text. -/
def parseAllDayEventTime (dateTime : String) : Except RangeError ℤ :=
  match Date.readDay dateTime.toList with
  | some (fields, rest) =>
    if (rest = [] ∨ rest.head? = some 'T') ∧ Date.isCalendarDate fields = true then
      .ok (Date.utc fields)
    else .error ("Invalid Outlook all-day dateTime: " ++ dateTime)
  | none => .error ("Invalid Outlook all-day dateTime: " ++ dateTime)

section Reading

variable (zones : Zones) (newDate : String → ℤ)

/-- `parseEventDateTime`. What `new Date` reads from other texts is the host's. -/
def parseEventDateTime (dateTime timeZone : String) : Except RangeError ℤ :=
  if hasExplicitOffset dateTime then .ok (newDate dateTime)
  else do
    match ← resolveTimeZone zones (some timeZone) with
    | none => .error "Outlook event is missing a timezone"
    | some timeZone =>
      let wallTime ← parseWallDateTime dateTime
      wallTimeToInstant zones wallTime timeZone

def parseEventTime (time : Option OutlookDateTime) (isAllDay : Option Bool) :
    Except RangeError (Option ℤ) :=
  match truthy (time.bind (·.dateTime)) with
  | none => .ok none
  | some dateTime =>
    if isAllDay.getD false then (parseAllDayEventTime dateTime).map some
    else
      match truthy (time.bind (·.timeZone)) with
      | none => .ok (some (newDate dateTime))
      | some timeZone => (parseEventDateTime zones newDate dateTime timeZone).map some

def parseRemoteAvailability (showAs : Option String) : EventAvailability :=
  (showAs.bind fun showAs =>
    [EventAvailability.free, .oof, .workingElsewhere].find? (·.name = showAs)).getD .busy

/-- The content of a resource as it is read. -/
def outlookContent (event : OutlookEvent) (startTime endTime : ℤ) : SyncableEventContent where
  availability := some (parseRemoteAvailability event.showAs)
  description := event.body.bind (·.content)
  endTime := some endTime
  isAllDay := event.isAllDay
  location := event.location.bind (·.displayName)
  startTime := some startTime
  summary := event.subject.getD ""

def outlookRemoteEvent (host : Host) (event : OutlookEvent) (id iCalUId : String)
    (startTime endTime : ℤ) : RemoteEvent :=
  let availability := parseRemoteAvailability event.showAs
  let editableContent := (outlookContent event startTime endTime).editableSnapshot
  { deleteId := id
    editableAvailability := some availability
    editableContent := some editableContent
    editableContentHash := some (hashEditableEventContentSnapshot host editableContent)
    endTime := endTime
    isKeeperEvent := (event.categories.getD []).contains keeperCategory
    startTime := startTime
    supportedAvailabilities := some [.busy, .free, .oof, .workingElsewhere]
    uid := iCalUId }

def toOutlookRemoteEvent (host : Host) (event : OutlookEvent) :
    Except RangeError (Option RemoteEvent) := do
  let startTime ← parseEventTime zones newDate event.start event.isAllDay
  let endTime ← parseEventTime zones newDate event.«end» event.isAllDay
  match truthy event.id, truthy event.iCalUId, startTime, endTime with
  | some id, some iCalUId, some startTime, some endTime =>
    pure (some (outlookRemoteEvent host event id iCalUId startTime endTime))
  | _, _, _, _ => pure none

end Reading

/-! ## Times -/

/-- A text without its `Z` has no explicit offset. -/
theorem hasExplicitOffset_wallChars (t : ℤ) :
    hasExplicitOffset (String.ofList (Date.wallChars t)) = false := by
  obtain ⟨front, n, hchars⟩ := Date.exists_wallChars t
  have hreverse : (Date.wallChars t).reverse = Date.digitChar n :: Date.digitChar (n / 10) ::
      Date.digitChar (n / 10 / 10) :: '.' :: front.reverse := by
    rw [hchars]
    simp [Date.digits]
  have hdigit := Date.isDigit_digitChar
  rw [hasExplicitOffset, String.toList_ofList, hreverse]
  split
  · rename_i hz
    exact absurd (hdigit n) (by rw [(List.cons.inj hz).1]; decide)
  · rename_i hz
    exact absurd (hdigit n) (by rw [(List.cons.inj hz).1]; decide)
  · rename_i hcolon
    simp only [List.cons.injEq] at hcolon
    exact absurd (hdigit (n / 10 / 10)) (by rw [hcolon.2.2.1]; decide)
  · rfl

/-- The host knows UTC: its clock shows, from the year 100 on, the instant itself. In an earlier year
the source reads the printed year as one of the twentieth century. -/
def KnowsUtc (zones : Zones) : Prop :=
  ∃ name, resolveTimeZone zones (some "UTC") = .ok (some name) ∧
    ∀ t, Date.firstFullYear ≤ t → zones.instantToWallTime t name = t

section Times

variable {zones : Zones} {newDate : String → ℤ} {t : ℤ}

theorem truthy_wallChars (t : ℤ) : truthy (some (String.ofList (Date.wallChars t))) =
    some (String.ofList (Date.wallChars t)) := by
  obtain ⟨front, n, hchars⟩ := Date.exists_wallChars t
  refine truthy_eq_some_iff.2 ⟨rfl, fun hempty => ?_⟩
  have hlist := congrArg String.toList hempty
  rw [String.toList_ofList, hchars] at hlist
  exact List.append_ne_nil_of_right_ne_nil _ (by simp) hlist

theorem parseEventTime_allDay_eq (t : ℤ) :
    parseEventTime zones newDate (some (toUtcOutlookDateTime t)) (some true) =
      (parseAllDayEventTime (String.ofList (Date.wallChars t))).map some := by
  rw [parseEventTime, Option.bind_some]
  show (match truthy (some (String.ofList (Date.wallChars t))) with
    | none => _
    | some dateTime => _) = _
  rw [truthy_wallChars]
  rfl

theorem parseEventTime_utc (t : ℤ) :
    parseEventTime zones newDate (some (toUtcOutlookDateTime t)) (some false) =
      (parseEventDateTime zones newDate (String.ofList (Date.wallChars t)) "UTC").map some := by
  rw [parseEventTime, Option.bind_some]
  show (match truthy (some (String.ofList (Date.wallChars t))) with
    | none => _
    | some dateTime => _) = _
  rw [truthy_wallChars]
  rfl

theorem parseEventTime_allDay (h : Date.InFullYears t) (hday : isMidnightUtc t = true) :
    parseEventTime zones newDate (some (toUtcOutlookDateTime t)) (some true) = .ok (some t) := by
  obtain ⟨rest, hread⟩ := Date.readDay_wallChars h.1
  have hmidnight : t / 86400000 * 86400000 = t := by
    rw [isMidnightUtc, decide_eq_true_eq] at hday
    exact Int.ediv_mul_cancel (Int.dvd_of_emod_eq_zero hday)
  have hdate : Date.isCalendarDate (Date.fieldsOf t).midnight = true :=
    (Date.isCalendarDate_fieldsOf_iff h.1).2 h.2
  have hparse : parseAllDayEventTime (String.ofList (Date.wallChars t)) = .ok t := by
    rw [parseAllDayEventTime, String.toList_ofList, hread]
    dsimp only
    rw [if_pos ⟨Or.inr rfl, hdate⟩, Date.utc_midnight_fieldsOf h, hmidnight]
  rw [parseEventTime_allDay_eq, hparse]
  rfl

/-- A UTC wall time is its own instant, from the second day of the year 100 on. -/
theorem wallTimeToInstant_utc {name : String}
    (hclock : ∀ t, Date.firstFullYear ≤ t → zones.instantToWallTime t name = t)
    (hfirst : Date.firstFullYear + msPerDay ≤ t) : wallTimeToInstant zones t name = .ok t := by
  have hoffset : ∀ u, Date.firstFullYear ≤ u → offsetMillisecondsAt zones name u = 0 :=
    fun u hu => by rw [offsetMillisecondsAt, hclock u hu, sub_self]
  have hday : (0 : ℤ) < probeWindowMs := by decide
  have hbefore := hoffset (t - probeWindowMs) (by rw [probeWindowMs]; omega)
  have hafter := hoffset (t + probeWindowMs) (by rw [probeWindowMs] at hday ⊢; omega)
  rw [wallTimeToInstant, wallTimeToInstantWith, hbefore, hafter, if_pos rfl, sub_zero]

theorem parseEventTime_timed (hutc : KnowsUtc zones) (h : Date.InIsoYears t)
    (hfirst : Date.firstFullYear + msPerDay ≤ t) :
    parseEventTime zones newDate (some (toUtcOutlookDateTime t)) (some false) = .ok (some t) := by
  obtain ⟨name, hname, hclock⟩ := hutc
  have hday : (0 : ℤ) < msPerDay := by decide
  have hyear : 100 ≤ (Date.fieldsOf t).year := (Date.inFullYears_iff.2 ⟨h, by omega⟩).2
  have hread : Date.readWall (· = 'T') (Date.wallChars t ++ []) = some (Date.fieldsOf t, []) :=
    Date.readWall_wallChars h (by decide) rfl
  rw [List.append_nil] at hread
  have hwall : parseWallDateTime (String.ofList (Date.wallChars t)) = .ok t := by
    rw [parseWallDateTime, String.toList_ofList, hread]
    exact congrArg Except.ok (Date.utc_fieldsOf h hyear)
  rw [parseEventTime_utc, parseEventDateTime, hasExplicitOffset_wallChars, if_neg (by decide), hname]
  show ((parseWallDateTime _ >>= fun wallTime => wallTimeToInstant zones wallTime name).map some) = _
  rw [hwall]
  show (wallTimeToInstant zones t name).map some = _
  rw [wallTimeToInstant_utc hclock hfirst]
  rfl

variable (newDate) in
theorem parseEventTime_error (hutc : KnowsUtc zones) (h : ¬ Date.InIsoYears t) (isAllDay : Bool) :
    ∃ message, parseEventTime zones newDate (some (toUtcOutlookDateTime t)) (some isAllDay) =
      .error message := by
  obtain ⟨name, hname, -⟩ := hutc
  obtain ⟨c, cs, hchars, hsign⟩ := Date.exists_sign_wallChars h
  have hday : Date.readDay (Date.wallChars t) = none := by
    rw [Date.readDay, hchars, Date.readDigits_eq_none_of_head hsign]
    rfl
  cases isAllDay with
  | true =>
    rw [parseEventTime_allDay_eq, parseAllDayEventTime, String.toList_ofList, hday]
    exact ⟨_, rfl⟩
  | false =>
    have hwall : Date.readWall (· = 'T') (Date.wallChars t) = none := by
      rw [Date.readWall, hday]
      rfl
    rw [parseEventTime_utc, parseEventDateTime, hasExplicitOffset_wallChars, if_neg (by decide),
      hname]
    show ∃ message, ((parseWallDateTime _ >>= fun wallTime =>
      wallTimeToInstant zones wallTime name).map some) = _
    rw [parseWallDateTime, String.toList_ofList, hwall]
    exact ⟨_, rfl⟩

/-- The text of a time is read back: from the year 100 on, and for the clock that a timed one is read
by a day later. -/
def IsReadable (isAllDay : Bool) (t : ℤ) : Prop :=
  Date.InFullYears t ∧ (isAllDay = false → Date.firstFullYear + msPerDay ≤ t)

instance (isAllDay : Bool) (t : ℤ) : Decidable (IsReadable isAllDay t) :=
  inferInstanceAs (Decidable (_ ∧ _))

/-- **A written time is read back.** -/
theorem parseEventTime_toUtc (hutc : KnowsUtc zones) {isAllDay : Bool}
    (h : IsReadable isAllDay t) (hday : isAllDay = true → isMidnightUtc t = true) :
    parseEventTime zones newDate (some (toUtcOutlookDateTime t)) (some isAllDay) = .ok (some t) := by
  cases isAllDay with
  | true => exact parseEventTime_allDay h.1 (hday rfl)
  | false => exact parseEventTime_timed hutc h.1.1 (h.2 rfl)

end Times

/-! ## Content -/

/-- `showAs` is read back, and a missing availability as busy. -/
theorem parseRemoteAvailability_getShowAs (availability : Option EventAvailability) :
    parseRemoteAvailability (some (getShowAs availability)) = availability.getD .busy := by
  cases availability with
  | none => decide
  | some availability => cases availability <;> decide

theorem mem_allAvailabilities (availability : EventAvailability) :
    availability ∈ [EventAvailability.busy, .free, .oof, .workingElsewhere] := by
  cases availability <;> decide

theorem resolvesAllDay_normalizeOutlookEvent (e : MaterializedSyncableEvent) :
    (normalizeOutlookEvent e).shape.resolvesAllDay = e.shape.resolvesAllDay := by
  unfold normalizeOutlookEvent
  split_ifs with hday hinverted
  · rw [resolvesAllDay_wholeDay hday, hday]
  · rw [Bool.not_eq_true] at hday
    rw [resolvesAllDay_pointInTime hday, hday]
  · rfl

theorem isMidnightUtc_normalizeOutlookEvent {e : MaterializedSyncableEvent}
    (h : (normalizeOutlookEvent e).shape.resolvesAllDay = true) :
    isMidnightUtc (normalizeOutlookEvent e).startTime = true ∧
      isMidnightUtc (normalizeOutlookEvent e).endTime = true := by
  rw [resolvesAllDay_normalizeOutlookEvent] at h
  rw [normalizeOutlookEvent, if_pos h]
  exact isMidnightUtc_resolveWholeDayTimeRange e.range

/-! ## A copy -/

/-- The resource that Graph returns for a created one: its fields, an identifier and the uid. -/
def OutlookEvent.returned (event : OutlookEvent) (id iCalUId : String) : OutlookEvent :=
  { event with id := some id, iCalUId := some iCalUId }

/-- What is read of the content of a written event is what was written. -/
theorem editableSnapshot_outlookContent (n : MaterializedSyncableEvent) (id iCalUId : String)
    (startTime endTime : ℤ) :
    (outlookContent ((serializeOutlookEvent n).returned id iCalUId) startTime
      endTime).editableSnapshot = createEditableEventContentSnapshot n := by
  have hdescription : (getOutlookBody n).bind (·.content) = truthy n.description := by
    unfold getOutlookBody
    cases truthy n.description <;> rfl
  have hlocation : (getOutlookLocation n).bind (·.displayName) = truthy n.location := by
    unfold getOutlookLocation
    cases truthy n.location <;> rfl
  rw [createEditableEventContentSnapshot_eq, SyncableEventContent.editableSnapshot,
    SyncableEventContent.editableSnapshot]
  simp only [outlookContent, OutlookEvent.returned, serializeOutlookEvent, hdescription, hlocation,
    normalizeText_truthy]
  rfl

section Copy

variable {zones : Zones} {newDate : String → ℤ} {host : Host} {id iCalUId : String}

theorem toOutlookRemoteEvent_returned (event : OutlookEvent) (hid : id ≠ "") (huid : iCalUId ≠ "")
    {startTime endTime : ℤ}
    (hstart : parseEventTime zones newDate event.start event.isAllDay = .ok (some startTime))
    (hend : parseEventTime zones newDate event.«end» event.isAllDay = .ok (some endTime)) :
    toOutlookRemoteEvent zones newDate host (event.returned id iCalUId) =
      .ok (some (outlookRemoteEvent host (event.returned id iCalUId) id iCalUId startTime
        endTime)) := by
  have hid' : truthy (event.returned id iCalUId).id = some id := truthy_eq_some_iff.2 ⟨rfl, hid⟩
  have huid' : truthy (event.returned id iCalUId).iCalUId = some iCalUId :=
    truthy_eq_some_iff.2 ⟨rfl, huid⟩
  have hstart' : parseEventTime zones newDate (event.returned id iCalUId).start
      (event.returned id iCalUId).isAllDay = .ok (some startTime) := hstart
  have hend' : parseEventTime zones newDate (event.returned id iCalUId).«end»
      (event.returned id iCalUId).isAllDay = .ok (some endTime) := hend
  rw [toOutlookRemoteEvent, hstart', hend', hid', huid']
  rfl

/-- **A copy nobody edited** is read back as unchanged. -/
theorem outlookCopy_unchanged (e : MaterializedSyncableEvent) (hutc : KnowsUtc zones)
    (hid : id ≠ "") (huid : iCalUId ≠ "") {mapping : EventMapping}
    (hmapping : mapping.startTime = (normalizeOutlookEvent e).startTime ∧
      mapping.endTime = (normalizeOutlookEvent e).endTime)
    (hstart : IsReadable e.shape.resolvesAllDay (normalizeOutlookEvent e).startTime)
    (hend : IsReadable e.shape.resolvesAllDay (normalizeOutlookEvent e).endTime) :
    ∃ r, toOutlookRemoteEvent zones newDate host
        ((serializeOutlookEvent (normalizeOutlookEvent e)).returned id iCalUId) = .ok (some r) ∧
      hasRemoteStateChanged host mapping (normalizeOutlookEvent e) r = false := by
  rw [← resolvesAllDay_normalizeOutlookEvent] at hstart hend
  have hday := isMidnightUtc_normalizeOutlookEvent (e := e)
  generalize normalizeOutlookEvent e = n at *
  refine ⟨_, toOutlookRemoteEvent_returned (serializeOutlookEvent n) hid huid
    (parseEventTime_toUtc hutc hstart fun h => (hday h).1)
    (parseEventTime_toUtc hutc hend fun h => (hday h).2), ?_⟩
  refine (hasRemoteStateChanged_iff rfl rfl ?_ hmapping.1.symm hmapping.2.symm).2 ?_
  · show parseRemoteAvailability (some (getShowAs n.availability)) = _
    rw [parseRemoteAvailability_getShowAs, expectedRemoteAvailability]
    exact (if_pos (mem_allAvailabilities _)).symm
  · rw [editableSnapshot_outlookContent]
    rfl

variable (newDate host id iCalUId) in
theorem outlookCopy_error (n : MaterializedSyncableEvent) (hutc : KnowsUtc zones)
    (h : ¬ Date.InIsoYears n.startTime) :
    ∃ message, toOutlookRemoteEvent zones newDate host
      ((serializeOutlookEvent n).returned id iCalUId) = .error message := by
  obtain ⟨message, hmessage⟩ := parseEventTime_error newDate hutc h
    n.shape.resolvesAllDay
  refine ⟨message, ?_⟩
  have hstart : parseEventTime zones newDate ((serializeOutlookEvent n).returned id iCalUId).start
      ((serializeOutlookEvent n).returned id iCalUId).isAllDay = .error message := hmessage
  rw [toOutlookRemoteEvent, hstart]
  rfl

end Copy

end Outlook

namespace Example

/-- A host that knows the wall clock of UTC alone. -/
def utcZones : Zones := ⟨id, (· = "UTC"), fun t _ => t⟩

theorem knowsUtc_utcZones : Outlook.KnowsUtc utcZones := ⟨"UTC", by rfl, fun _ _ => rfl⟩

/-- An hour on 2026-03-01. -/
def springMeeting : MaterializedSyncableEvent := meeting 1772355600000 " Agenda\r\n"

/-- An hour on the first day of the year 10000. -/
def distantMeeting : MaterializedSyncableEvent := meeting 253402300800000 "Agenda"

end Example

namespace Outlook

theorem outlookCopy_unchanged_example :
    ∃ r, toOutlookRemoteEvent Example.utcZones (fun _ => 0) Example.copyHost
        ((serializeOutlookEvent (normalizeOutlookEvent Example.springMeeting)).returned "copy"
          "copy@keeper.sh") = .ok (some r) ∧
      hasRemoteStateChanged Example.copyHost
        (Example.meetingMapping (normalizeOutlookEvent Example.springMeeting))
        (normalizeOutlookEvent Example.springMeeting) r = false :=
  outlookCopy_unchanged Example.springMeeting Example.knowsUtc_utcZones (by decide) (by decide)
    ⟨rfl, rfl⟩ (by decide) (by decide)

/-- In the year 10000 the copy is not read at all. -/
theorem not_outlookCopy_unchanged :
    ¬ ∃ r, toOutlookRemoteEvent Example.utcZones (fun _ => 0) Example.copyHost
        ((serializeOutlookEvent (normalizeOutlookEvent Example.distantMeeting)).returned "copy"
          "copy@keeper.sh") = .ok (some r) ∧
      hasRemoteStateChanged Example.copyHost
        (Example.meetingMapping (normalizeOutlookEvent Example.distantMeeting))
        (normalizeOutlookEvent Example.distantMeeting) r = false := by
  rintro ⟨r, hread, -⟩
  obtain ⟨message, herror⟩ := outlookCopy_error (fun _ => 0) Example.copyHost "copy" "copy@keeper.sh"
    (normalizeOutlookEvent Example.distantMeeting) Example.knowsUtc_utcZones (by decide)
  rw [herror] at hread
  cases hread

end Outlook

end Keeper
