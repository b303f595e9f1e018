import Keeper.Destinations.Google

/-!
# Copies in Google Calendar

`serialize-event.ts`, `normalize-event.ts` and `conference-block.ts` of `providers/google/destination`: an event
is normalized, serialized and read back by `toGoogleRemoteEvent`.

* `stripFrom_of_holdsNoDelimiter`: nothing is removed from a text without conference delimiters.
* `parseEventTime_buildDateField`: a written time is read back where its year has four digits and is a full one.
* `googleCopy_unchanged`: a copy nobody edited is read back as unchanged.
-/

namespace Keeper

namespace Google

/-! ## Conference blocks -/

/-- `[-:~]`. -/
def isRule (c : Char) : Bool := c = '-' || c = ':' || c = '~'

/-- `[^\S\n]`. -/
def isBlank (c : Char) : Bool := c ≠ '\n' && Text.isWhitespace c

def delimiterHead : List Char := "-::~:~::".toList

def delimiterTail : List Char := "::~:~::-".toList

/-- `[-:~]{40,}::~:~::-` at the head of a text: the longest run before the end of a delimiter. -/
def ruleLength (cs : List Char) : Option ℕ :=
  (List.range ((cs.takeWhile isRule).length + 1)).reverse.find? fun n =>
    40 ≤ n && delimiterTail.isPrefixOf (cs.drop n)

/-- `-::~:~::[-:~]{40,}::~:~::-[^\S\n]*(\n)?` at the head of a text: whether the break is captured, and the
length of the match. -/
def matchDelimiter (cs : List Char) : Option (Bool × ℕ) :=
  if delimiterHead.isPrefixOf cs then
    (ruleLength (cs.drop 8)).map fun n =>
      let rest := cs.drop (16 + n)
      let blanks := (rest.takeWhile isBlank).length
      if (rest.drop blanks).head? = some '\n' then (true, 16 + n + blanks + 1)
      else (false, 16 + n + blanks)
  else none

/-- `CONFERENCE_DELIMITER` at the head of a text: whether the breaks before and after it are captured, and the
length of the match. -/
def matchConferenceDelimiter : List Char → Option (Bool × Bool × ℕ)
  | '\n' :: cs =>
    let blanks := (cs.takeWhile isBlank).length
    (matchDelimiter (cs.drop blanks)).map fun (after, length) => (true, after, 1 + blanks + length)
  | cs => (matchDelimiter cs).map fun (after, length) => (false, after, length)

def readDelimiterGap (before after : Bool) : List Char := if before && after then ['\n'] else []

/-- `replaceAll` of the delimiters, behind a match of which some characters are left. -/
def stripFrom : ℕ → List Char → List Char
  | _, [] => []
  | skip + 1, _ :: cs => stripFrom skip cs
  | 0, c :: cs =>
    match matchConferenceDelimiter (c :: cs) with
    | some (before, after, length) => readDelimiterGap before after ++ stripFrom (length - 1) cs
    | none => c :: stripFrom 0 cs

def stripConferenceDelimiters (value : Option String) : Option String :=
  match truthy value with
  | none => value
  | some text => some (String.ofList (stripFrom 0 text.toList))

/-- No conference delimiter stands in a text. -/
def HoldsNoDelimiter (value : Option String) : Prop :=
  ∀ cs ∈ (value.getD "").toList.tails, matchConferenceDelimiter cs = none

instance (value : Option String) : Decidable (HoldsNoDelimiter value) :=
  inferInstanceAs (Decidable (∀ cs ∈ _, _))

theorem stripFrom_of_holdsNoDelimiter {cs : List Char}
    (h : ∀ suffix ∈ cs.tails, matchConferenceDelimiter suffix = none) : stripFrom 0 cs = cs := by
  induction cs with
  | nil => rfl
  | cons c cs ih =>
    rw [List.tails_cons] at h
    rw [stripFrom, h (c :: cs) List.mem_cons_self]
    exact congrArg (c :: ·) (ih fun suffix hsuffix => h suffix (List.mem_cons_of_mem _ hsuffix))

/-- **Nothing is removed** from a text without delimiters. -/
theorem stripConferenceDelimiters_of_holdsNoDelimiter {value : Option String} (h : HoldsNoDelimiter value) :
    stripConferenceDelimiters value = value := by
  unfold stripConferenceDelimiters
  cases htext : truthy value with
  | none => rfl
  | some text =>
    obtain ⟨rfl, -⟩ := truthy_eq_some_iff.1 htext
    exact congrArg some ((congrArg String.ofList (stripFrom_of_holdsNoDelimiter h)).trans
      (String.ofList_toList))

/-! ## Writing -/

def normalizeGoogleEvent (event : MaterializedSyncableEvent) : MaterializedSyncableEvent :=
  { event.withRange (resolveRepresentableTimeRange event.shape) with
    description := stripConferenceDelimiters event.description }

def formatDateOnly (value : ℤ) : String := String.ofList ((Date.isoChars value).take 10)

def buildDateField (time : ℤ) (isAllDay : Bool) : GoogleDateTime :=
  if isAllDay then { date := some (formatDateOnly time) }
  else { dateTime := some (Date.toISOString time) }

def canSerializeGoogleEvent (event : MaterializedSyncableEvent) : Bool :=
  if event.availability = some .workingElsewhere then false else true

def serializeGoogleEvent (event : MaterializedSyncableEvent) (uid : String) : Option GoogleEvent :=
  if canSerializeGoogleEvent event then
    let isAllDay := event.shape.resolvesAllDay
    let normalized := normalizeGoogleEvent event
    some {
      description := normalized.description
      «end» := some (buildDateField normalized.endTime isAllDay)
      iCalUID := some uid
      location := event.location
      start := some (buildDateField normalized.startTime isAllDay)
      summary := some event.summary
      transparency := if event.availability = some .free then some "transparent" else none
      visibility := if event.isPrivate = some true then some "private" else none
      reminders := if event.remindersDisabled = some true then some { useDefault := false } else none }
  else none

/-! ## Times -/

theorem resolveWholeDayTimeRange_self {range : EventTimeRange} (hbefore : range.startTime < range.endTime)
    (hstart : isMidnightUtc range.startTime = true) (hend : isMidnightUtc range.endTime = true) :
    resolveWholeDayTimeRange range = range := by
  rw [isMidnightUtc_iff] at hstart hend
  have hfloor : floorToUtcDay range.startTime = range.startTime := by
    unfold floorToUtcDay msPerDay
    omega
  have hceil : ceilToUtcDay range.endTime = range.endTime := by
    unfold ceilToUtcDay msPerDay
    omega
  unfold resolveWholeDayTimeRange
  dsimp only
  rw [hfloor, hceil, if_pos hbefore]

section Normalized

variable (e : MaterializedSyncableEvent)

theorem resolvesAllDay_normalizeGoogleEvent :
    (normalizeGoogleEvent e).shape.resolvesAllDay = e.shape.resolvesAllDay := by
  change (e.withRange (resolveRepresentableTimeRange e.shape)).shape.resolvesAllDay = _
  unfold resolveRepresentableTimeRange
  cases hday : e.shape.resolvesAllDay with
  | true => exact resolvesAllDay_wholeDay hday
  | false => exact resolvesAllDay_pointInTime hday

theorem isMidnightUtc_normalizeGoogleEvent (h : e.shape.resolvesAllDay = true) :
    isMidnightUtc (normalizeGoogleEvent e).startTime = true ∧
      isMidnightUtc (normalizeGoogleEvent e).endTime = true := by
  change isMidnightUtc (resolveRepresentableTimeRange e.shape).startTime = true ∧
    isMidnightUtc (resolveRepresentableTimeRange e.shape).endTime = true
  rw [resolveRepresentableTimeRange, if_pos h]
  exact isMidnightUtc_resolveWholeDayTimeRange _

/-- **Times are normalized once.** -/
theorem resolveRepresentableTimeRange_normalizeGoogleEvent :
    resolveRepresentableTimeRange (normalizeGoogleEvent e).shape =
      ⟨(normalizeGoogleEvent e).startTime, (normalizeGoogleEvent e).endTime⟩ := by
  have hbefore := (resolveRepresentableTimeRange_isShaped e.shape).nonempty
  rw [resolveRepresentableTimeRange, resolvesAllDay_normalizeGoogleEvent]
  split_ifs with hday
  · obtain ⟨hstart, hend⟩ := isMidnightUtc_normalizeGoogleEvent e hday
    exact resolveWholeDayTimeRange_self hbefore hstart hend
  · exact if_pos hbefore

theorem normalizeGoogleEvent_normalizeGoogleEvent
    (h : HoldsNoDelimiter (normalizeGoogleEvent e).description) :
    normalizeGoogleEvent (normalizeGoogleEvent e) = normalizeGoogleEvent e := by
  have hrange := resolveRepresentableTimeRange_normalizeGoogleEvent e
  have hdescription := stripConferenceDelimiters_of_holdsNoDelimiter h
  generalize normalizeGoogleEvent e = n at *
  unfold normalizeGoogleEvent
  rw [hrange, hdescription]
  rfl

end Normalized

/-- `new Date` reads ISO strings whose year has four digits. -/
def ReadsIsoTexts (newDate : String → Option ℤ) : Prop :=
  ∀ t, Date.InIsoYears t → newDate (Date.toISOString t) = some t

section Times

variable {zones : Zones} {newDate : String → Option ℤ} {t : ℤ}

theorem truthy_of_toList {text : String} (h : text.toList ≠ []) : truthy (some text) = some text :=
  truthy_eq_some_iff.2 ⟨rfl, fun hempty => h (by rw [hempty]; rfl)⟩

theorem readDate_formatDateOnly (h : Date.InFullYears t) (hday : isMidnightUtc t = true) :
    readDate (formatDateOnly t) = some t := by
  have hmidnight : t / 86400000 * 86400000 = t := by
    rw [isMidnightUtc_iff] at hday
    omega
  have hread : Date.readDay ((Date.isoChars t).take 10) = some ((Date.fieldsOf t).midnight, []) :=
    Date.readDay_take_isoChars h.1
  have hdate : Date.isCalendarDate (Date.fieldsOf t).midnight = true :=
    (Date.isCalendarDate_fieldsOf_iff h.1).2 h.2
  rw [readDate, formatDateOnly, String.toList_ofList, hread]
  dsimp only
  rw [if_pos hdate, Date.utc_midnight_fieldsOf h, hmidnight]

theorem readDateTime_toISOString (hreads : ReadsIsoTexts newDate) (h : Date.InFullYears t)
    (timeZone : Option String) :
    readDateTime zones newDate (Date.toISOString t) timeZone = .ok (some t) := by
  have hread : Date.readWall (fun c => c = 'T' || c = 't') (Date.toISOString t).toList =
      some (Date.fieldsOf t, ['Z']) := by
    rw [Date.toISOString, String.toList_ofList, Date.isoChars_eq]
    exact Date.readWall_wallChars h.1 (by decide) (by decide)
  have hclock : readWallDateTime (Date.fieldsOf t) = some t := by
    have hfields : (Date.fieldsOf t).hour < 24 ∧ (Date.fieldsOf t).minute < 60 ∧
        (Date.fieldsOf t).second < 60 := by
      simp only [Date.fieldsOf]
      omega
    have hday : isClockTime (Date.fieldsOf t) = true := by simp [isClockTime, hfields]
    have hdate : Date.isCalendarDate (Date.fieldsOf t) = true :=
      (Date.isCalendarDate_fieldsOf_iff h.1).2 h.2
    rw [readWallDateTime, hdate, hday, Bool.and_self, if_pos rfl, Date.utc_fieldsOf h.1 h.2]
  rw [readDateTime, hread]
  dsimp only
  rw [if_neg (by decide), hclock]
  dsimp only
  rw [if_pos (by decide), hreads t h.1]

/-- **A written time is read back.** -/
theorem parseEventTime_buildDateField (hreads : ReadsIsoTexts newDate) (h : Date.InFullYears t)
    {isAllDay : Bool} (hday : isAllDay = true → isMidnightUtc t = true) :
    parseEventTime zones newDate (some (buildDateField t isAllDay)) = .ok (some t) := by
  have htime : (some (buildDateField t false)).bind (·.dateTime) = some (Date.toISOString t) := rfl
  cases isAllDay with
  | true =>
    have hdate := readDate_formatDateOnly h (hday rfl)
    have htruthy : truthy (some (formatDateOnly t)) = some (formatDateOnly t) := by
      refine truthy_of_toList fun hempty => ?_
      rw [readDate, hempty] at hdate
      cases hdate
    show Except.ok ((truthy (some (formatDateOnly t))).bind readDate) = _
    rw [htruthy, Option.bind_some, hdate]
  | false =>
    have htruthy : truthy (some (Date.toISOString t)) = some (Date.toISOString t) := by
      refine truthy_of_toList fun hempty => ?_
      rw [Date.toISOString, String.toList_ofList, Date.isoChars_eq] at hempty
      exact List.append_ne_nil_of_right_ne_nil _ (List.cons_ne_nil _ _) hempty
    rw [parseEventTime, htime, htruthy]
    exact readDateTime_toISOString hreads h none

end Times

/-! ## A copy -/

/-- The resource as Google returns it: its fields, and an identifier. -/
def GoogleEvent.returned (event : GoogleEvent) (id : Option String) : GoogleEvent := { event with id }

section Copy

variable {zones : Zones} {newDate : String → Option ℤ} {host : Host} {uid : String}

def ReadsBackUnchanged (zones : Zones) (newDate : String → Option ℤ) (host : Host)
    (e : MaterializedSyncableEvent) (uid : String) (id : Option String) (mapping : EventMapping) : Prop :=
  ∃ event r, serializeGoogleEvent (normalizeGoogleEvent e) uid = some event ∧
    toGoogleRemoteEvent zones newDate host (event.returned id) = .ok (some r) ∧
    hasRemoteStateChanged host mapping (normalizeGoogleEvent e) r = false

theorem toGoogleRemoteEvent_ok {event : GoogleEvent} {startTime endTime : ℤ} (hkeeper : isKeeperEvent uid = true)
    (huid : event.iCalUID = some uid) (hstart : parseEventTime zones newDate event.start = .ok (some startTime))
    (hend : parseEventTime zones newDate event.«end» = .ok (some endTime)) :
    toGoogleRemoteEvent zones newDate host event = .ok (some (googleRemoteEvent host event uid
      ⟨(googleContent event startTime endTime).editableSnapshot, startTime, endTime⟩)) := by
  have htruthy : truthy (some uid) = some uid := by
    refine truthy_of_toList fun hempty => ?_
    rw [isKeeperEvent, hempty] at hkeeper
    exact absurd hkeeper (by decide)
  rw [toGoogleRemoteEvent, huid, htruthy]
  dsimp only
  rw [if_pos hkeeper, buildGoogleEchoObservation, hstart, hend]
  rfl

theorem isSome_date_buildDateField (t : ℤ) (isAllDay : Bool) :
    (truthy (buildDateField t isAllDay).date).isSome = isAllDay := by
  unfold buildDateField
  cases isAllDay with
  | true =>
    rw [if_pos rfl, truthy_of_toList]
    · rfl
    · intro hempty
      rw [formatDateOnly, String.toList_ofList] at hempty
      have hlength := congrArg List.length hempty
      rw [Date.isoChars, Date.isoTail] at hlength
      simp at hlength
  | false => rfl

/-- Free is written and read back, and what Google does not know is busy. -/
theorem parseGoogleAvailability_transparency {n : MaterializedSyncableEvent} {event : GoogleEvent}
    (havailability : n.availability ≠ some .workingElsewhere)
    (htransparency : event.transparency = if n.availability = some .free then some "transparent" else none) :
    parseGoogleAvailability event = expectedRemoteAvailability n (some [.busy, .free]) := by
  unfold parseGoogleAvailability expectedRemoteAvailability
  rw [htransparency]
  cases h : n.availability with
  | none => decide
  | some availability =>
    rw [h] at havailability
    cases availability with
    | workingElsewhere => exact absurd rfl havailability
    | _ => decide

theorem serializeGoogleEvent_normalized {n : MaterializedSyncableEvent}
    (havailability : n.availability ≠ some .workingElsewhere) (hnormalized : normalizeGoogleEvent n = n) :
    serializeGoogleEvent n uid = some {
      description := n.description
      «end» := some (buildDateField n.endTime n.shape.resolvesAllDay)
      iCalUID := some uid
      location := n.location
      start := some (buildDateField n.startTime n.shape.resolvesAllDay)
      summary := some n.summary
      transparency := if n.availability = some .free then some "transparent" else none
      visibility := if n.isPrivate = some true then some "private" else none
      reminders := if n.remindersDisabled = some true then some { useDefault := false } else none } := by
  rw [serializeGoogleEvent, canSerializeGoogleEvent, if_neg havailability, if_pos rfl]
  dsimp only
  rw [hnormalized]

/-- **A copy nobody edited** is read back as unchanged. -/
theorem googleCopy_unchanged (zones : Zones) (host : Host) (e : MaterializedSyncableEvent) (id : Option String)
    (hreads : ReadsIsoTexts newDate) (huid : isKeeperEvent uid = true)
    (havailability : e.availability ≠ some .workingElsewhere) {mapping : EventMapping}
    (hmapping : mapping.startTime = (normalizeGoogleEvent e).startTime ∧
      mapping.endTime = (normalizeGoogleEvent e).endTime)
    (hyears : Date.InFullYears (normalizeGoogleEvent e).startTime ∧
      Date.InFullYears (normalizeGoogleEvent e).endTime)
    (hdescription : HoldsNoDelimiter (stripConferenceDelimiters e.description)) :
    ReadsBackUnchanged zones newDate host e uid id mapping := by
  have hnormalized := normalizeGoogleEvent_normalizeGoogleEvent e hdescription
  have hday := isMidnightUtc_normalizeGoogleEvent e
  rw [← resolvesAllDay_normalizeGoogleEvent] at hday
  have havailability' : (normalizeGoogleEvent e).availability ≠ some .workingElsewhere := havailability
  unfold ReadsBackUnchanged
  generalize normalizeGoogleEvent e = n at *
  have hstart : parseEventTime zones newDate (some (buildDateField n.startTime n.shape.resolvesAllDay)) =
      .ok (some n.startTime) := parseEventTime_buildDateField hreads hyears.1 fun h => (hday h).1
  have hend : parseEventTime zones newDate (some (buildDateField n.endTime n.shape.resolvesAllDay)) =
      .ok (some n.endTime) := parseEventTime_buildDateField hreads hyears.2 fun h => (hday h).2
  refine ⟨_, _, serializeGoogleEvent_normalized havailability' hnormalized,
    toGoogleRemoteEvent_ok huid rfl hstart hend, ?_⟩
  refine (hasRemoteStateChanged_iff rfl rfl ?_ hmapping.1.symm hmapping.2.symm).2 ?_
  · exact parseGoogleAvailability_transparency havailability' rfl
  · refine congrArg (hashEditableEventContentSnapshot host) ?_
    rw [createEditableEventContentSnapshot_eq, SyncableEventContent.editableSnapshot,
      SyncableEventContent.editableSnapshot]
    have hall : resolveHashedAllDay n.content = n.shape.resolvesAllDay := rfl
    rw [hall]
    simp only [googleContent, GoogleEvent.returned, resolveHashedAllDay, Option.bind_some,
      isSome_date_buildDateField, resolveIsAllDayEvent, Option.getD_some]
    rfl

variable (zones newDate) in
theorem parseEventTime_eq_none {t : ℤ} (h : ¬ Date.InIsoYears t) (isAllDay : Bool) :
    parseEventTime zones newDate (some (buildDateField t isAllDay)) = .ok none := by
  obtain ⟨c, cs, hchars, hsign, -⟩ := Date.exists_sign_isoChars h
  have htime : (some (buildDateField t false)).bind (·.dateTime) = some (Date.toISOString t) := rfl
  cases isAllDay with
  | true =>
    have htext : (formatDateOnly t).toList = c :: cs.take 9 := by
      rw [formatDateOnly, String.toList_ofList, hchars]
      rfl
    have hday : readDate (formatDateOnly t) = none := by
      rw [readDate, htext, Date.readDay, Date.readDigits_eq_none_of_head hsign]
      rfl
    show Except.ok ((truthy (some (formatDateOnly t))).bind readDate) = _
    rw [truthy_of_toList (by rw [htext]; exact List.cons_ne_nil _ _), Option.bind_some, hday]
  | false =>
    have htext : (Date.toISOString t).toList = c :: cs := by
      rw [Date.toISOString, String.toList_ofList, hchars]
    have hwall : Date.readWall (fun c => c = 'T' || c = 't') (Date.toISOString t).toList = none := by
      rw [htext, Date.readWall, Date.readDay, Date.readDigits_eq_none_of_head hsign]
      rfl
    rw [parseEventTime, htime, truthy_of_toList (by rw [htext]; exact List.cons_ne_nil _ _)]
    dsimp only
    rw [readDateTime, hwall]

theorem toGoogleRemoteEvent_ne {event : GoogleEvent} {r : RemoteEvent}
    (hstart : parseEventTime zones newDate event.start = .ok none) :
    toGoogleRemoteEvent zones newDate host event ≠ .ok (some r) := by
  intro h
  unfold toGoogleRemoteEvent buildGoogleEchoObservation at h
  rw [hstart] at h
  split at h
  · cases h
  · split_ifs at h
    · cases hend : parseEventTime zones newDate event.«end» <;> rw [hend] at h <;> cases h
    · cases h

end Copy

end Google

namespace Example

def utcClock : Zones := ⟨id, fun _ => true, fun t _ => t⟩

/-- A delimiter whose two halves a whole one keeps apart. -/
def splitDelimiter : String :=
  "-::~:~::--------------------\n-::~:~::----------------------------------------::~:~::- --------------------::~:~::-"

end Example

namespace Google

theorem readsIsoTexts_ofISOString : ReadsIsoTexts Date.ofISOString := fun _ => Date.ofISOString_toISOString

theorem googleCopy_unchanged_example :
    ReadsBackUnchanged Example.utcClock Date.ofISOString Example.copyHost
      (Example.meeting 1772355600000 " Agenda\r\n") "copy@keeper.sh" none
      (Example.meetingMapping (normalizeGoogleEvent (Example.meeting 1772355600000 " Agenda\r\n"))) :=
  googleCopy_unchanged _ _ _ _ readsIsoTexts_ofISOString (by decide) (by decide) ⟨rfl, rfl⟩ (by decide)
    (by decide)

/-- **Two copies that are not unchanged**: one in the year 10000 is not read at all, and where the removal of a
delimiter brings another one about, that one is removed when the copy is written. -/
theorem not_googleCopy_unchanged :
    ¬ ReadsBackUnchanged Example.utcClock Date.ofISOString Example.copyHost
        (Example.meeting 253402300800000 "Agenda") "copy@keeper.sh" none
        (Example.meetingMapping (normalizeGoogleEvent (Example.meeting 253402300800000 "Agenda"))) ∧
      ¬ ReadsBackUnchanged Example.utcClock Date.ofISOString Example.copyHost
        (Example.meeting 1772355600000 Example.splitDelimiter) "copy@keeper.sh" none
        (Example.meetingMapping
          (normalizeGoogleEvent (Example.meeting 1772355600000 Example.splitDelimiter))) := by
  refine ⟨?_, ?_⟩
  · rintro ⟨event, r, hwritten, hread, -⟩
    obtain rfl := Option.some.inj hwritten
    exact toGoogleRemoteEvent_ne
      (parseEventTime_eq_none Example.utcClock Date.ofISOString (by decide) false) hread
  · rintro ⟨event, r, hwritten, hread, hchanged⟩
    obtain rfl := Option.some.inj hwritten
    have hstart : parseEventTime Example.utcClock Date.ofISOString (some (buildDateField 1772355600000 false)) =
        .ok (some 1772355600000) :=
      parseEventTime_buildDateField readsIsoTexts_ofISOString (by decide) nofun
    have hend : parseEventTime Example.utcClock Date.ofISOString (some (buildDateField 1772359200000 false)) =
        .ok (some 1772359200000) :=
      parseEventTime_buildDateField readsIsoTexts_ofISOString (by decide) nofun
    rw [toGoogleRemoteEvent_ok (by decide) rfl hstart hend] at hread
    obtain rfl := Option.some.inj (Except.ok.inj hread)
    have hhash := (hasRemoteStateChanged_iff rfl rfl (by decide) rfl rfl).1 hchanged
    revert hhash
    decide +kernel

end Google

end Keeper
