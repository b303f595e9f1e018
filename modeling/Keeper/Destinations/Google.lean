import Keeper.Destinations.RemoteCopy
import Keeper.Foundations.DateText
import Keeper.Foundations.Fallible
import Keeper.Ics.ParseEvents

/-!
# Events of Google

`providers/google/shared/date-time.ts` and the reader of `providers/google/destination/provider.ts`:
how an event resource of Google Calendar is read as a remote event.

* `exists_toGoogleRemoteEvent`: where zones are regular, a resource is read, as an event or as none.
* `isSome_toGoogleRemoteEvent_iff`: the resources that are read as events.
-/

namespace Keeper

namespace Google

/-! ## Resources -/

/-- `PartialGoogleDateTime`. -/
structure GoogleDateTime where
  date : Option String := none
  dateTime : Option String := none
  timeZone : Option String := none
  deriving DecidableEq

/-- The `status` of a `GoogleEvent`. -/
inductive GoogleStatus
  | confirmed
  | tentative
  | cancelled
  deriving DecidableEq

/-- The `reminders` of a `GoogleEvent`, whose `overrides` are empty. -/
structure GoogleReminders where
  useDefault : Bool
  deriving DecidableEq

/-- `GoogleEvent`, as far as it is written or read here. -/
structure GoogleEvent where
  id : Option String := none
  iCalUID : Option String := none
  status : Option GoogleStatus := none
  start : Option GoogleDateTime := none
  «end» : Option GoogleDateTime := none
  summary : Option String := none
  description : Option String := none
  location : Option String := none
  transparency : Option String := none
  visibility : Option String := none
  reminders : Option GoogleReminders := none
  deriving DecidableEq

/-! ## Times -/

def isClockTime (fields : Date.Fields) : Bool :=
  fields.hour < 24 && fields.minute < 60 && fields.second < 60

def readWallDateTime (fields : Date.Fields) : Option ℤ :=
  if Date.isCalendarDate fields && isClockTime fields then some (Date.utc fields) else none

/-- The zone at the end of an RFC 3339 text: `Z` or an offset of hours and minutes. -/
def isZoneText : List Char → Bool
  | ['Z'] | ['z'] => true
  | [sign, h₁, h₂, ':', m₁, m₂] =>
    (sign = '+' || sign = '-') && [h₁, h₂, m₁, m₂].all (·.isDigit)
  | _ => false

section Reading

variable (zones : Zones) (newDate : String → Option ℤ)

/-- `readTimeZone`: no zone where it does not resolve. -/
def readTimeZone (timeZone : Option String) : Option String :=
  match resolveTimeZone zones timeZone with
  | .ok timeZone => timeZone
  | .error _ => none

/-- `readDateTime`. What `new Date` makes of a text with a zone is the host's. -/
def readDateTime (value : String) (timeZone : Option String) : Except RangeError (Option ℤ) :=
  match Date.readWall (fun c => c = 'T' || c = 't') value.toList with
  | none => .ok none
  | some (fields, rest) =>
    if rest ≠ [] && !isZoneText rest then .ok none
    else
      match readWallDateTime fields with
      | none => .ok none
      | some wallTime =>
        if rest ≠ [] then .ok (newDate value)
        else
          match readTimeZone zones timeZone with
          | none => .ok none
          | some zone => (wallTimeToInstant zones wallTime zone).map some

def readDate (value : String) : Option ℤ :=
  match Date.readDay value.toList with
  | some (fields, []) => if Date.isCalendarDate fields then some (Date.utc fields) else none
  | _ => none

def parseEventTime (time : Option GoogleDateTime) : Except RangeError (Option ℤ) :=
  match truthy (time.bind (·.dateTime)) with
  | some dateTime => readDateTime zones newDate dateTime (time.bind (·.timeZone))
  | none => .ok ((truthy (time.bind (·.date))).bind readDate)

/-! ## Remote events -/

def parseGoogleAvailability (resource : GoogleEvent) : EventAvailability :=
  if resource.transparency = some "transparent" then .free else .busy

def googleContent (resource : GoogleEvent) (startTime endTime : ℤ) : SyncableEventContent where
  availability := some (parseGoogleAvailability resource)
  description := resource.description
  endTime := some endTime
  isAllDay := some (truthy (resource.start.bind (·.date))).isSome
  location := resource.location
  startTime := some startTime
  summary := resource.summary.getD ""

structure PushEchoObservation where
  content : EditableEventContentSnapshot
  startTime : ℤ
  endTime : ℤ

def buildGoogleEchoObservation (resource : GoogleEvent) :
    Except RangeError (Option PushEchoObservation) := do
  let startTime ← parseEventTime zones newDate resource.start
  let endTime ← parseEventTime zones newDate resource.«end»
  match startTime, endTime with
  | some startTime, some endTime =>
    pure (some ⟨(googleContent resource startTime endTime).editableSnapshot, startTime, endTime⟩)
  | _, _ => pure none

def googleRemoteEvent (host : Host) (event : GoogleEvent) (iCalUID : String)
    (observation : PushEchoObservation) : RemoteEvent where
  deleteId := event.id.getD iCalUID
  editableAvailability := some (parseGoogleAvailability event)
  editableContent := some observation.content
  editableContentHash := some (hashEditableEventContentSnapshot host observation.content)
  endTime := observation.endTime
  isKeeperEvent := true
  startTime := observation.startTime
  supportedAvailabilities := some [.busy, .free]
  uid := iCalUID

def toGoogleRemoteEvent (host : Host) (event : GoogleEvent) :
    Except RangeError (Option RemoteEvent) :=
  match truthy event.iCalUID with
  | none => .ok none
  | some iCalUID =>
    if isKeeperEvent iCalUID then do
      let observation ← buildGoogleEchoObservation zones newDate event
      pure (observation.map (googleRemoteEvent host event iCalUID))
    else .ok none

end Reading

/-! ## What is read -/

section Lemmas

variable {zones : Zones} {newDate : String → Option ℤ} {host : Host}

theorem exists_readDateTime (hzones : ∀ name, RegularZone zones name) (value : String)
    (timeZone : Option String) :
    ∃ instant, readDateTime zones newDate value timeZone = .ok instant := by
  unfold readDateTime
  split
  · exact ⟨_, rfl⟩
  · split_ifs
    · exact ⟨_, rfl⟩
    · split <;> exact ⟨_, rfl⟩
    · split
      · exact ⟨_, rfl⟩
      · rename_i wallTime _
        split
        · exact ⟨_, rfl⟩
        · rename_i zone _
          obtain ⟨instant, hinstant⟩ := wallTimeToInstant_ok zones (hzones zone) wallTime
          rw [hinstant]
          exact ⟨_, rfl⟩

variable (newDate) in
theorem exists_parseEventTime (hzones : ∀ name, RegularZone zones name)
    (time : Option GoogleDateTime) : ∃ instant, parseEventTime zones newDate time = .ok instant := by
  unfold parseEventTime
  split
  · exact exists_readDateTime hzones _ _
  · exact ⟨_, rfl⟩

/-- The start and the end of a resource are read. -/
def HasTimes (zones : Zones) (newDate : String → Option ℤ) (event : GoogleEvent) : Prop :=
  ∃ startTime endTime, parseEventTime zones newDate event.start = .ok (some startTime) ∧
    parseEventTime zones newDate event.«end» = .ok (some endTime)

variable (newDate host) in
/-- **Where zones are regular**, a resource is read: as an event where Keeper wrote it and its times are
read, as none otherwise. -/
theorem exists_toGoogleRemoteEvent (hzones : ∀ name, RegularZone zones name) (event : GoogleEvent) :
    ∃ remote, toGoogleRemoteEvent zones newDate host event = .ok remote ∧
      (remote.isSome ↔ (∃ iCalUID, truthy event.iCalUID = some iCalUID ∧ isKeeperEvent iCalUID = true) ∧
        HasTimes zones newDate event) := by
  unfold toGoogleRemoteEvent
  cases huid : truthy event.iCalUID with
  | none => exact ⟨none, rfl, by simp⟩
  | some iCalUID =>
    dsimp only
    by_cases hkeeper : isKeeperEvent iCalUID = true
    · obtain ⟨startTime, hstart⟩ := exists_parseEventTime newDate hzones event.start
      obtain ⟨endTime, hend⟩ := exists_parseEventTime newDate hzones event.«end»
      have htimes : HasTimes zones newDate event ↔ startTime.isSome ∧ endTime.isSome := by
        unfold HasTimes
        rw [hstart, hend]
        simp [Option.isSome_iff_exists]
      have hboth : ∃ observation, buildGoogleEchoObservation zones newDate event = .ok observation ∧
          (observation.isSome ↔ startTime.isSome ∧ endTime.isSome) := by
        unfold buildGoogleEchoObservation
        rw [hstart, hend]
        cases startTime <;> cases endTime <;> exact ⟨_, rfl, by simp⟩
      obtain ⟨observation, hobservation, hsome⟩ := hboth
      refine ⟨observation.map (googleRemoteEvent host event iCalUID), ?_, ?_⟩
      · rw [if_pos hkeeper, hobservation]
        rfl
      · rw [Option.isSome_map, hsome, htimes]
        simp [hkeeper]
    · rw [if_neg hkeeper]
      exact ⟨none, rfl, by simp [hkeeper]⟩

theorem deleteId_toGoogleRemoteEvent {event : GoogleEvent} {remote : RemoteEvent} {id : String}
    (hid : event.id = some id) (h : toGoogleRemoteEvent zones newDate host event = .ok (some remote)) :
    remote.deleteId = id := by
  unfold toGoogleRemoteEvent at h
  split at h
  · cases h
  · split_ifs at h
    · obtain ⟨observation, -, hread⟩ := bind_eq_ok_iff.1 h
      obtain ⟨echo, -, rfl⟩ := Option.map_eq_some_iff.1 (Except.ok.inj hread)
      show event.id.getD _ = id
      rw [hid]
      rfl
    · cases h

end Lemmas

end Google

end Keeper
