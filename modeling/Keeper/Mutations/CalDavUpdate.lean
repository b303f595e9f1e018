import Keeper.Ics.ZonedDates
import Keeper.Mutations.EventUpdates

/-!
# Updates of a CalDAV object

`updateCalDAVEvent` of `services/api/src/mutations/providers/caldav.ts`: the object of a uid is fetched by its name
or by the uid, its first VEVENT is updated, and a calendar of that VEVENT alone is written. Objects are what
`ts-ics` parses of them; the properties of a VEVENT that no update touches are of any type.

* `changesOnlyNamed_iff`: the written object differs only in what the update names exactly when the object has one
  VEVENT and no VTIMEZONE for a zone that its times name.
-/

namespace Keeper

namespace CalDavUpdate

variable {ρ : Type}

/-! ## Objects -/

/-- `IcsEvent`, with its other properties. -/
structure ObjectEvent (ρ : Type) where
  uid : String
  summary : Option String
  description : Option String
  location : Option String
  start : Option IcsDateObject
  «end» : Option IcsDateObject
  recurrenceId : Option IcsDateObject
  exceptionDates : List IcsDateObject
  timeTransparent : Option String
  stamp : ℤ
  others : ρ

structure ObjectCalendar (ρ : Type) where
  prodId : String
  version : String
  timezones : List IcsTimezone
  events : List (ObjectEvent ρ)

/-- An object that is fetched, with what is parsed of its data, if it has any. -/
structure CalendarObject (ρ : Type) where
  url : String
  data : Option (Except String (ObjectCalendar ρ))

/-- A calendar that is written to an address. -/
structure WrittenObject (ρ : Type) where
  url : String
  calendar : ObjectCalendar ρ

def zonesOf (dates : List IcsDateObject) : List String := dates.filterMap fun date => date.local.map (·.timezone)

/-- The times of a VEVENT beside its start and end. -/
def ObjectEvent.otherDates (event : ObjectEvent ρ) : List IcsDateObject :=
  event.recurrenceId.toList ++ event.exceptionDates

/-- The zones that the times of a VEVENT name. -/
def ObjectEvent.zones (event : ObjectEvent ρ) : List String :=
  zonesOf (event.start.toList ++ event.end.toList ++ event.otherDates)

/-! ## The update -/

def buildIcsCalendar (events : List (ObjectEvent ρ)) : ObjectCalendar ρ where
  events
  timezones := []
  prodId := "-//Keeper//Keeper Calendar//EN"
  version := "2.0"

/-- `fetchCalendarObject`: the first object at the address of the uid, or the first one with the uid; a fetch that
fails gives none. -/
def fetchCalendarObject (named found : List (CalendarObject ρ)) :
    Option (String × Except String (ObjectCalendar ρ)) :=
  let first (objects : List (CalendarObject ρ)) := objects.head?.bind fun object => object.data.map (object.url, ·)
  (first named).or (first found)

def resolveEventIsAllDay (updates : EventUpdateInput) (start : Option IcsDateObject) : Bool :=
  match updates.isAllDay with
  | some isAllDay => isAllDay
  | none => start.bind (·.type) = some .date

def resolveTransparency : RequestedAvailability → String
  | .free => "TRANSPARENT"
  | .busy => "OPAQUE"

variable (zones : Zones)

/-- The start and the end that `applyUpdatesToEvent` leaves. -/
def updateTimes (updates : EventUpdateInput) (start «end» : Option IcsDateObject) :
    Except RangeError (Option IcsDateObject × Option IcsDateObject) :=
  let timezone := updates.startTimeZone.or ((start.bind (·.local)).map (·.timezone))
  let isAllDay := resolveEventIsAllDay updates start
  match updates.startTime, updates.endTime with
  | some startTime, some endTime => do
    let range := resolveRepresentableIsoRange startTime endTime isAllDay
    let start ← buildZonedIcsDate zones range.startTime timezone isAllDay
    let «end» ← buildZonedIcsDate zones range.endTime timezone isAllDay
    pure (some start, some «end»)
  | some startTime, none => do
    let start ← buildZonedIcsDate zones startTime timezone isAllDay
    pure (some start, «end»)
  | none, some endTime => do
    let «end» ← buildZonedIcsDate zones endTime timezone isAllDay
    pure (start, some «end»)
  | none, none => pure (start, «end»)

def applyUpdatesToEvent (now : ℤ) (event : ObjectEvent ρ) (updates : EventUpdateInput) :
    Except RangeError (ObjectEvent ρ) := do
  let (start, «end») ← updateTimes zones updates event.start event.end
  pure { event with
    summary := updates.title.or event.summary
    description := updates.description.or event.description
    location := updates.location.or event.location
    start
    «end»
    timeTransparent := (updates.availability.map resolveTransparency).or event.timeTransparent
    stamp := now }

/-- `updateCalDAVEvent`: what is written, or the error that is returned. -/
def updateCalDAVEvent (now : ℤ) (named found : List (CalendarObject ρ)) (updates : EventUpdateInput) :
    Except String (WrittenObject ρ) :=
  match fetchCalendarObject named found with
  | none => .error "Event not found on CalDAV server."
  | some (url, data) => do
    let calendar ← data
    match calendar.events.head? with
    | none => .error "Could not parse event from CalDAV server."
    | some event =>
      let updated ← applyUpdatesToEvent zones now event updates
      pure ⟨url, buildIcsCalendar [updated]⟩

/-! ## What an update changes -/

/-- A one-off, or a series with its overrides: one VEVENT has no recurrence id. -/
def ObjectCalendar.IsSeries (calendar : ObjectCalendar ρ) : Prop :=
  ∃ before main after, calendar.events = before ++ main :: after ∧ main.recurrenceId = none ∧
    ∀ event ∈ before ++ after, event.recurrenceId.isSome

/-- A VEVENT differs from another in its stamp and in what an update names: the start and the end together with
the zone and the kind. -/
structure DiffersAsNamed (updates : EventUpdateInput) (event updated : ObjectEvent ρ) : Prop where
  uid : updated.uid = event.uid
  summary : updated.summary = updates.title.or event.summary
  description : updated.description = updates.description.or event.description
  location : updated.location = updates.location.or event.location
  times : updates.namesTimes = false → updates.isAllDay = none →
    updated.start = event.start ∧ updated.end = event.end
  recurrenceId : updated.recurrenceId = event.recurrenceId
  exceptionDates : updated.exceptionDates = event.exceptionDates
  timeTransparent : updates.availability = none → updated.timeTransparent = event.timeTransparent
  others : updated.others = event.others

/-- A written calendar differs from the one before in what an update names: it has the same VEVENTs beside the one
that carries the series or one-off, and each zone that a time names still has its VTIMEZONE. -/
structure ChangesOnlyNamed (updates : EventUpdateInput) (calendar written : ObjectCalendar ρ) : Prop where
  events : ∃ before main after updated, calendar.events = before ++ main :: after ∧ main.recurrenceId = none ∧
    DiffersAsNamed updates main updated ∧ written.events.Perm (before ++ updated :: after)
  timezones : ∀ event ∈ written.events, ∀ zone ∈ event.zones, (∃ timezone ∈ calendar.timezones, timezone.id = zone) →
    ∃ timezone ∈ written.timezones, timezone.id = zone

/-- The only VEVENT of a calendar, where no time has the zone of a VTIMEZONE after an update. -/
structure IsPlainFor (updates : EventUpdateInput) (calendar : ObjectCalendar ρ) : Prop where
  single : calendar.events.length = 1
  timezones : ∀ event ∈ calendar.events, ∀ times, updateTimes zones updates event.start event.end = .ok times →
    ∀ zone ∈ zonesOf (times.1.toList ++ times.2.toList ++ event.otherDates), ∀ timezone ∈ calendar.timezones,
      timezone.id ≠ zone

variable {zones} {now : ℤ} {updates : EventUpdateInput} {event updated : ObjectEvent ρ}

/-- **An updated VEVENT** differs as the update names. -/
theorem applyUpdatesToEvent_ok (h : applyUpdatesToEvent zones now event updates = .ok updated) :
    DiffersAsNamed updates event updated ∧ updated.stamp = now ∧ updated.otherDates = event.otherDates ∧
      updateTimes zones updates event.start event.end = .ok (updated.start, updated.end) := by
  obtain ⟨⟨start, «end»⟩, htimes, h⟩ := bind_eq_ok_iff.1 h
  obtain rfl := Except.ok.inj h
  refine ⟨⟨rfl, rfl, rfl, rfl, fun hnames _ => ?_, rfl, rfl, fun hnone => ?_, rfl⟩, rfl, rfl, htimes⟩
  · simp only [EventUpdateInput.namesTimes, Bool.or_eq_false_iff, Option.isSome_eq_false_iff,
      Option.isNone_iff_eq_none] at hnames
    rw [updateTimes, hnames.1.1, hnames.1.2] at htimes
    obtain ⟨rfl, rfl⟩ := Prod.mk.inj (Except.ok.inj htimes)
    exact ⟨rfl, rfl⟩
  · rw [hnone]
    rfl

theorem updateCalDAVEvent_ok {named found : List (CalendarObject ρ)} {written : WrittenObject ρ}
    (h : updateCalDAVEvent zones now named found updates = .ok written) :
    ∃ calendar event updated, fetchCalendarObject named found = some (written.url, .ok calendar) ∧
      calendar.events.head? = some event ∧ applyUpdatesToEvent zones now event updates = .ok updated ∧
      written.calendar = buildIcsCalendar [updated] := by
  rw [updateCalDAVEvent] at h
  split at h
  · cases h
  · rename_i url data hfetch
    obtain ⟨calendar, hdata, hupdate⟩ := bind_eq_ok_iff.1 h
    subst hdata
    split at hupdate
    · cases hupdate
    · rename_i event hevent
      obtain ⟨updated, hupdated, hupdate⟩ := bind_eq_ok_iff.1 hupdate
      obtain rfl := Except.ok.inj hupdate
      exact ⟨calendar, event, updated, hfetch, hevent, hupdated, rfl⟩

/-- **A written object differs only in what the update names** exactly when it has one VEVENT, and no VTIMEZONE for
a zone that its times name. -/
theorem changesOnlyNamed_iff {named found : List (CalendarObject ρ)} {url : String}
    {calendar : ObjectCalendar ρ} (hfetch : fetchCalendarObject named found = some (url, .ok calendar))
    (hseries : calendar.IsSeries) {written : WrittenObject ρ}
    (h : updateCalDAVEvent zones now named found updates = .ok written) :
    written.url = url ∧ (ChangesOnlyNamed updates calendar written.calendar ↔ IsPlainFor zones updates calendar) := by
  obtain ⟨calendar', event, updated, hfetch', hhead, hupdated, hwritten⟩ := updateCalDAVEvent_ok h
  obtain ⟨rfl, hcalendar⟩ := Prod.mk.inj (Option.some.inj (hfetch'.symm.trans hfetch))
  obtain rfl : calendar' = calendar := Except.ok.inj hcalendar
  obtain ⟨hdiffers, -, hdates, htimes⟩ := applyUpdatesToEvent_ok hupdated
  have hzones : updated.zones = zonesOf (updated.start.toList ++ updated.end.toList ++ event.otherDates) := by
    rw [ObjectEvent.zones, hdates]
  refine ⟨rfl, ?_⟩
  rw [hwritten]
  constructor
  · rintro ⟨⟨before, main, after, updated', hevents, -, -, hperm⟩, hkept⟩
    have hlength := hperm.length_eq
    have hsingle : calendar'.events.length = 1 := by
      rw [hevents]
      simpa [buildIcsCalendar] using hlength.symm
    refine ⟨hsingle, fun other hother times htimes' zone hzone timezone htimezone heq => ?_⟩
    obtain rfl : other = event := by
      obtain ⟨only, honly⟩ := List.length_eq_one_iff.1 hsingle
      rw [honly] at hhead hother
      exact (List.mem_singleton.1 hother).trans (Option.some.inj hhead)
    obtain rfl := Except.ok.inj (htimes.symm.trans htimes')
    rw [← hzones] at hzone
    obtain ⟨kept, hmem, -⟩ := hkept updated List.mem_cons_self zone hzone ⟨timezone, htimezone, heq⟩
    cases hmem
  · rintro ⟨hsingle, hnone⟩
    obtain ⟨only, honly⟩ := List.length_eq_one_iff.1 hsingle
    obtain ⟨before, main, after, hevents, hmain, -⟩ := hseries
    have hlength := hsingle
    rw [hevents, List.length_append, List.length_cons] at hlength
    have hnone' : before.length = 0 ∧ after.length = 0 := by omega
    obtain rfl : before = [] := List.length_eq_zero_iff.1 hnone'.1
    obtain rfl : after = [] := List.length_eq_zero_iff.1 hnone'.2
    rw [List.nil_append] at hevents
    obtain rfl : main = event := by
      rw [hevents] at hhead
      exact Option.some.inj hhead
    refine ⟨⟨[], main, [], updated, hevents, hmain, hdiffers, List.Perm.refl _⟩, ?_⟩
    intro other hother zone hzone hhad
    obtain rfl := List.mem_singleton.1 hother
    obtain ⟨timezone, htimezone, heq⟩ := hhad
    rw [hzones] at hzone
    exact absurd heq (hnone main (by rw [hevents]; exact List.mem_cons_self) _ htimes zone hzone timezone htimezone)

/-! ## A zone that is lost -/

def utcZones : Zones where
  identify := id
  supports := fun _ => true
  instantToWallTime := fun t _ => t

def berlinHour : ObjectEvent Unit where
  uid := "u"
  summary := some "Call"
  description := none
  location := none
  start := some ⟨3600000, none, some ⟨7200000, "Europe/Berlin", "+01:00"⟩⟩
  «end» := some ⟨7200000, none, some ⟨10800000, "Europe/Berlin", "+01:00"⟩⟩
  recurrenceId := none
  exceptionDates := []
  timeTransparent := none
  stamp := 0
  others := ()

def berlinObject (timezones : List IcsTimezone) : CalendarObject Unit where
  url := "/c/u.ics"
  data := some (.ok ⟨"-//Other//EN", "2.0", timezones, [berlinHour]⟩)

theorem isSeries_berlinHour (timezones : List IcsTimezone) :
    (⟨"-//Other//EN", "2.0", timezones, [berlinHour]⟩ : ObjectCalendar Unit).IsSeries :=
  ⟨[], berlinHour, [], rfl, rfl, fun _ hevent => nomatch hevent⟩

/-- A title is updated, and the object has no VTIMEZONE. -/
theorem changesOnlyNamed_iff_example : ∃ written : WrittenObject Unit,
    updateCalDAVEvent utcZones 1 [berlinObject []] [] { title := some "Talk" } = .ok written ∧
      written.url = "/c/u.ics" ∧
      (ChangesOnlyNamed { title := some "Talk" } ⟨"-//Other//EN", "2.0", [], [berlinHour]⟩ written.calendar ↔
        IsPlainFor utcZones { title := some "Talk" } ⟨"-//Other//EN", "2.0", [], [berlinHour]⟩) := by
  obtain ⟨written, hwritten⟩ : ∃ written : WrittenObject Unit,
      updateCalDAVEvent utcZones 1 [berlinObject []] [] { title := some "Talk" } = .ok written := ⟨_, rfl⟩
  exact ⟨written, hwritten, changesOnlyNamed_iff rfl (isSeries_berlinHour []) hwritten⟩

/-- **The VTIMEZONE of an event is lost** when its title is updated. -/
theorem not_changesOnlyNamed : ∃ written : WrittenObject Unit,
    updateCalDAVEvent utcZones 1 [berlinObject [⟨"Europe/Berlin", []⟩]] [] { title := some "Talk" } = .ok written ∧
      ¬ ChangesOnlyNamed { title := some "Talk" } ⟨"-//Other//EN", "2.0", [⟨"Europe/Berlin", []⟩], [berlinHour]⟩
        written.calendar := by
  refine ⟨_, rfl, fun h => ?_⟩
  obtain ⟨timezone, hmem, -⟩ := h.timezones _ List.mem_cons_self "Europe/Berlin" (by decide)
    ⟨⟨"Europe/Berlin", []⟩, List.mem_cons_self, rfl⟩
  cases hmem

end CalDavUpdate

end Keeper
