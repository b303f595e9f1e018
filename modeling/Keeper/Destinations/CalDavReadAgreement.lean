import Keeper.Destinations.CalDavReads
import Keeper.Foundations.KeyedParts

/-!
# A CalDAV lookup and the listing

The reads of `CalDavReads` over one state of a collection, of which every answer of the server is.

* `readObject_of_held`: what a read returns of an object is what the collection has at its path.
* `listRemoteEvents_eq`: a listing is of the objects with events, each once.
* `found_perm_iff`: a lookup returns of the requested objects what the listing does exactly when the server answers
  each of them once, and no other.
-/

namespace Keeper

open JsArray

namespace CalDavReads

/-- The objects that a collection holds: the data at a path, and the path at which the object of a name is. -/
structure Collection where
  held : String → Option String
  pathOf : String → Option String

section Served

variable (urls : Urls) (client : Client) (storedUrl calendarUrl : String) (parser : ResourceParser) (host : Host)
  (collection : Collection)

def eventsAt (path : String) : List CalDavRemoteEvent :=
  if isKeeperCalendarObjectPath path then
    match truthy (collection.held path) with
    | none => []
    | some data => (((parseCalendarObjectEvents parser data).toOption.getD []).filter
        fun parsed => isKeeperEvent parsed.uid).map (toCalDAVRemoteEvent host · path)
  else []

def requestedPaths (deleteIds : List String) : List String :=
  deleteIds.filterMap fun deleteId =>
    if deleteId.toList.contains '/' then some deleteId else collection.pathOf (deleteId ++ ".ics")

/-- An object is at a path, under the address that is stored as under the one that is resolved. -/
structure IsHeldAt (object : CalendarObject) (path : String) : Prop where
  resolved : urls.pathname object.url calendarUrl = .ok path
  stored : urls.pathname object.url storedUrl = .ok path
  held : collection.held path = object.data

/-- A server answers with objects that the collection holds, under absolute URLs, and lists those that have an
event. -/
structure Serves : Prop where
  answered : ∀ objectUrls objects, client.fetchCalendarObjects calendarUrl objectUrls (urlFilter urls calendarUrl) =
    .ok objects → ∀ object ∈ objects, object.data.isSome → ∃ path, IsHeldAt urls storedUrl calendarUrl collection object path
  listed : ∀ responses, client.calendarQuery calendarUrl = .ok responses → ∀ path,
    eventsAt parser host collection path ≠ [] →
      ∃ href ∈ responses, urls.pathname (href.getD "") calendarUrl = .ok path

/-- A multiget returns each requested object that the collection holds. -/
def ReturnsRequested : Prop :=
  ∀ objectUrls objects, client.fetchCalendarObjects calendarUrl objectUrls (urlFilter urls calendarUrl) = .ok objects →
    ∀ url ∈ objectUrls, ∀ path, urls.pathname url calendarUrl = .ok path → isCalendarObjectPath path = true →
      (collection.held path).isSome → ∃ object ∈ objects, object.data.isSome ∧
        IsHeldAt urls storedUrl calendarUrl collection object path

/-- **Answers to a lookup**: each requested object that has an event, once, and no other that has one. Only a path
with `.ics` in it is requested of a listing. -/
structure AnswersOnce (requested : List String) (objects : List CalendarObject) : Prop where
  once : ∀ path ∈ requested, eventsAt parser host collection path ≠ [] → isCalendarObjectPath path = true →
    (objects.map (objectPath urls calendarUrl)).count path = 1
  none : ∀ path, eventsAt parser host collection path ≠ [] → (path ∈ requested → isCalendarObjectPath path = false) →
    path ∉ objects.map (objectPath urls calendarUrl)

end Served

section Lemmas

variable {urls : Urls} {client : Client} {storedUrl calendarUrl : String} {parser : ResourceParser} {host : Host}
  {collection : Collection}

/-! ## The events of objects -/

theorem deleteId_of_mem_eventsAt (path : String) : ∀ event ∈ eventsAt parser host collection path,
    event.deleteId = path := by
  intro event hevent
  rw [eventsAt] at hevent
  split_ifs at hevent
  · split at hevent
    · cases hevent
    · obtain ⟨parsed, -, rfl⟩ := List.mem_map.1 hevent
      rfl
  · cases hevent

theorem IsHeldAt.objectPath_eq {object : CalendarObject} {path : String}
    (h : IsHeldAt urls storedUrl calendarUrl collection object path) : objectPath urls calendarUrl object = path := by
  rw [objectPath, h.resolved]
  rfl

/-- **What is read of an object** is what the collection has at its path, as far as a test keeps it. -/
theorem readObject_of_held {keeps : ResourceEvent → Bool}
    (hkeeps : ∀ parsed path, keeps { parsed with deleteId := path } = keeps parsed) {object : CalendarObject}
    {path : String} (hheld : IsHeldAt urls storedUrl calendarUrl collection object path)
    {own : List CalDavRemoteEvent}
    (h : readObject urls storedUrl parser host calendarUrl keeps object = .ok own) :
    own = (eventsAt parser host collection path).filter fun event => keeps event.toResourceEvent := by
  rw [readObject] at h
  rw [eventsAt, hheld.held]
  have hkeeper : isKeeperCalendarObjectUrl urls storedUrl object.url = isKeeperCalendarObjectPath path := by
    rw [isKeeperCalendarObjectUrl, hheld.stored]
  rw [hkeeper] at h
  cases hdata : truthy object.data with
  | none =>
    rw [hdata] at h
    rw [← Except.ok.inj h]
    split_ifs <;> rfl
  | some data =>
    rw [hdata] at h
    dsimp only at h ⊢
    split_ifs at h ⊢ with hpath
    · obtain ⟨path', hpath', h⟩ := bind_eq_ok_iff.1 h
      obtain ⟨events, hevents, h⟩ := bind_eq_ok_iff.1 h
      obtain rfl : path' = path := Except.ok.inj ((mapError_eq_ok_iff.1 hpath').symm.trans hheld.resolved)
      rw [← Except.ok.inj h, hevents]
      show _ = ((events.filter fun parsed => isKeeperEvent parsed.uid).map (toCalDAVRemoteEvent host · path')).filter _
      rw [List.filter_map, List.filter_filter]
      refine congrArg (List.map _) (List.filter_congr fun parsed _ => ?_)
      show (isKeeperEvent parsed.uid && keeps parsed) =
        (keeps { parsed with deleteId := path' } && isKeeperEvent parsed.uid)
      rw [hkeeps parsed path']
      exact Bool.and_comm _ _
    · rw [← Except.ok.inj h]
      rfl

theorem readObjects_of_held {keeps : ResourceEvent → Bool}
    (hkeeps : ∀ parsed path, keeps { parsed with deleteId := path } = keeps parsed) {objects : List CalendarObject}
    (hheld : ∀ object ∈ objects, ∃ path, IsHeldAt urls storedUrl calendarUrl collection object path)
    {events : List CalDavRemoteEvent}
    (h : readObjects urls storedUrl parser host calendarUrl keeps objects = .ok events) :
    events = (objects.map (objectPath urls calendarUrl)).flatMap fun path =>
      (eventsAt parser host collection path).filter fun event => keeps event.toResourceEvent := by
  obtain ⟨hall, rfl⟩ := readObjects_ok_iff.1 h
  rw [List.flatMap_map]
  refine List.flatMap_congr fun object hobject => ?_
  obtain ⟨own, hown⟩ := hall object hobject
  obtain ⟨path, hpath⟩ := hheld object hobject
  rw [hpath.objectPath_eq, ← readObject_of_held hkeeps hpath hown, hown]
  rfl

/-! ## The listing -/

/-- **A listing** is of objects at different paths: those with an event whose path has `.ics` in it, among them. -/
theorem listRemoteEvents_eq (hserves : Serves urls client storedUrl calendarUrl parser host collection)
    (hresolve : client.resolveCalendarUrl storedUrl = .ok calendarUrl) {window : SyncWindow}
    {listed : List CalDavRemoteEvent}
    (h : listRemoteEvents urls client storedUrl parser host window = .ok listed) :
    ∃ paths : List String, paths.Nodup ∧
      (∀ path, eventsAt parser host collection path ≠ [] → (path ∈ paths ↔ isCalendarObjectPath path = true)) ∧
      listed = paths.flatMap fun path =>
        (eventsAt parser host collection path).filter fun event => isListed window event.toResourceEvent := by
  obtain ⟨calendarUrl', hresolve', h⟩ := bind_eq_ok_iff.1 h
  obtain rfl : calendarUrl' = calendarUrl := Except.ok.inj ((mapError_eq_ok_iff.1 hresolve').symm.trans hresolve)
  obtain ⟨objects, hobjects, h⟩ := bind_eq_ok_iff.1 h
  obtain ⟨responses, listedPaths, hquery, hlistedPaths, hpaths, hanswered⟩ := fetchCalendarObjects_ok hobjects
  have hheld : ∀ object ∈ objects, ∃ path, IsHeldAt urls storedUrl calendarUrl' collection object path :=
    fun object hobject => by
      obtain ⟨hdata, batch, answer, hanswer, hmem⟩ := hanswered object hobject
      exact hserves.answered batch answer hanswer object hmem hdata
  refine ⟨listedPaths.filter isKeeperCalendarObjectPath, ?_, fun path hevents => ?_, ?_⟩
  · obtain ⟨paths, -, h⟩ := bind_eq_ok_iff.1 hlistedPaths
    rw [← Except.ok.inj h]
    exact (nodup_eraseDups _).filter _
  · obtain ⟨paths, hpaths', h⟩ := bind_eq_ok_iff.1 hlistedPaths
    have hkeeper : isKeeperCalendarObjectPath path = true := by
      by_contra hnot
      exact hevents (if_neg hnot)
    obtain ⟨href, hhref, hpath⟩ := hserves.listed responses hquery path hevents
    have hmem : path ∈ paths :=
      (mem_mapM_iff hpaths').2 ⟨href, hhref, mapError_eq_ok_iff.2 hpath⟩
    rw [← Except.ok.inj h, List.mem_filter, List.mem_eraseDups, List.mem_filter]
    exact ⟨fun hin => hin.1.2, fun hin => ⟨⟨hmem, hin⟩, hkeeper⟩⟩
  · rw [← hpaths]
    exact readObjects_of_held (fun _ _ => rfl) hheld h

/-- What a listing has of some paths, where all of their events are in its window. -/
theorem filter_listed_eq {window : SyncWindow} {requested : List String}
    (hwindow : ∀ path ∈ requested, ∀ event ∈ eventsAt parser host collection path,
      isListed window event.toResourceEvent = true) (paths : List String) :
    ((paths.flatMap fun path => (eventsAt parser host collection path).filter fun event =>
        isListed window event.toResourceEvent).filter fun event => requested.contains event.deleteId) =
      (paths.filter fun path => requested.contains path).flatMap (eventsAt parser host collection) := by
  induction paths with
  | nil => rfl
  | cons path paths ih =>
    rw [List.flatMap_cons, List.filter_append, ih, List.filter_cons]
    have hid := @deleteId_of_mem_eventsAt parser host collection path
    split_ifs with hrequested
    · rw [List.flatMap_cons, List.filter_filter]
      congr 1
      refine List.filter_eq_self.2 fun event hevent => ?_
      rw [hid event hevent, hrequested, hwindow path (List.contains_iff_mem.1 hrequested) event hevent]
      rfl
    · have hnone : ((eventsAt parser host collection path).filter fun event =>
          isListed window event.toResourceEvent).filter (fun event => requested.contains event.deleteId) = [] :=
        List.filter_eq_nil_iff.2 fun event hevent => by
          rw [hid event (List.mem_filter.1 hevent).1]
          exact hrequested
      rw [hnone, List.nil_append]

/-! ## Lookup and listing -/

/-- The answers that have each part once are the answers of a lookup. -/
theorem answersOnce_iff {paths requested : List String} {objects : List CalendarObject} (hnodup : paths.Nodup)
    (hpaths : ∀ path, eventsAt parser host collection path ≠ [] →
      (path ∈ paths ↔ isCalendarObjectPath path = true)) :
    (∀ path, eventsAt parser host collection path ≠ [] → (objects.map (objectPath urls calendarUrl)).count path =
        (paths.filter fun path => requested.contains path).count path) ↔
      AnswersOnce urls calendarUrl parser host collection requested objects := by
  have hcount : ∀ path, (paths.filter fun path => requested.contains path).count path =
      if path ∈ paths ∧ path ∈ requested then 1 else 0 := fun path => by
    rw [List.Nodup.count (hnodup.filter _)]
    simp only [List.mem_filter, List.contains_iff_mem]
  constructor
  · intro h
    refine ⟨fun path hrequested hevents hics => ?_, fun path hevents hnot => ?_⟩
    · rw [h path hevents, hcount, if_pos ⟨(hpaths path hevents).2 hics, hrequested⟩]
    · rw [← List.count_eq_zero, h path hevents, hcount, if_neg]
      rintro ⟨hin, hrequested⟩
      rw [hpaths path hevents, hnot hrequested] at hin
      cases hin
  · rintro ⟨honce, hnone⟩ path hevents
    rw [hcount]
    split_ifs with hin
    · exact honce path hin.2 hevents ((hpaths path hevents).1 hin.1)
    · refine List.count_eq_zero.2 (hnone path hevents fun hrequested => ?_)
      rw [Bool.eq_false_iff]
      exact fun hics => hin ⟨(hpaths path hevents).2 hics, hrequested⟩

/-- **A lookup succeeds** where each object that is answered can be read, whatever ids have none, and it returns of
the requested objects what a listing does, each event once, exactly when each is answered once and no other. -/
theorem found_perm_iff (hserves : Serves urls client storedUrl calendarUrl parser host collection)
    (hresolve : client.resolveCalendarUrl storedUrl = .ok calendarUrl) {window : SyncWindow}
    {listed : List CalDavRemoteEvent}
    (hlisted : listRemoteEvents urls client storedUrl parser host window = .ok listed) {deleteIds : List String}
    (hwindow : ∀ path ∈ requestedPaths collection deleteIds, ∀ event ∈ eventsAt parser host collection path,
      isListed window event.toResourceEvent = true) {objects : List CalendarObject}
    (hobjects : answersTo urls client storedUrl calendarUrl deleteIds = .ok objects) :
    ((∃ found, getRemoteEventsByIds urls client storedUrl parser host deleteIds = .ok found) ↔
        ∀ object ∈ objects, ∃ own,
          readObject urls storedUrl parser host calendarUrl (fun _ => true) object = .ok own) ∧
      ∀ found, getRemoteEventsByIds urls client storedUrl parser host deleteIds = .ok found →
        (found.Perm (listed.filter fun event => (requestedPaths collection deleteIds).contains event.deleteId) ↔
          AnswersOnce urls calendarUrl parser host collection (requestedPaths collection deleteIds) objects) := by
  rw [getRemoteEventsByIds_eq hresolve hobjects]
  constructor
  · constructor
    · rintro ⟨found, hfound⟩
      exact (readObjects_ok_iff.1 hfound).1
    · exact fun hall => ⟨_, readObjects_ok_iff.2 ⟨hall, rfl⟩⟩
  · intro found hfound
    obtain ⟨objectUrls, -, hanswers⟩ := bind_eq_ok_iff.1 hobjects
    have hheld : ∀ object ∈ objects, ∃ path, IsHeldAt urls storedUrl calendarUrl collection object path :=
      fun object hobject => by
        obtain ⟨hdata, batch, answer, hanswer, hmem⟩ := mem_fetchCalendarObjectsByUrls hanswers hobject
        exact hserves.answered batch answer hanswer object hmem hdata
    obtain ⟨paths, hnodup, hpaths, rfl⟩ := listRemoteEvents_eq hserves hresolve hlisted
    rw [readObjects_of_held (fun _ _ => rfl) hheld hfound, filter_listed_eq hwindow]
    simp only [List.filter_true]
    exact (KeyedParts.flatMap_perm_iff deleteId_of_mem_eventsAt).trans (answersOnce_iff hnodup hpaths)

end Lemmas

/-! ## An object that nobody asked for -/

namespace OneObject

def urls : Urls where
  href url _ := .ok (if "/".toList.isPrefixOf url.toList then "https://h" ++ url else "https://h/c/" ++ url)
  pathname url _ := .ok (if "https://h".toList.isPrefixOf url.toList then String.ofList (url.toList.drop 9) else url)

def standupText : String :=
  "BEGIN:VCALENDAR\r\nBEGIN:VEVENT\r\nUID:a@keeper.sh\r\nDTSTART:20260105T090000Z\r\nEND:VEVENT\r\nEND:VCALENDAR\r\n"

def standupPath : String := "/c/a@keeper.sh.ics"

def utcHost : IntlHost where
  windowsToIana _ := none
  canFormatTimeZone _ := false
  listSupportedTimeZones := []
  readTimeZoneOffsetMinutes _ _ := none
  instantToWallTime instant _ := instant

def parser : ResourceParser where
  host := utcHost
  parseIcsCalendar icsString :=
    if icsString = standupText then
      .ok { events := some [{ uid := some "a@keeper.sh", start := some { date := some 1767603600000 } }] }
    else .error "Not an iCalendar document: no BEGIN:VCALENDAR line"
  applyCalendarTimeZoneToFloatingEventDates icsString _ := .ok icsString

def host : Host := Example.copyHost

/-- A server that answers with its one object whatever it is asked for. -/
def client : Client where
  resolveCalendarUrl _ := .ok "https://h/c/"
  calendarQuery _ := .ok [some standupPath]
  fetchCalendarObjects _ _ _ := .ok [⟨"https://h/c/a@keeper.sh.ics", some standupText⟩]

def collection : Collection where
  held path := if path = standupPath then some standupText else none
  pathOf filename := if filename = "a@keeper.sh.ics" then some standupPath else none

def window : SyncWindow := ⟨0, 4102444800000⟩

def goneId : String := "/c/gone@keeper.sh.ics"

theorem isHeldAt_standup : IsHeldAt urls "https://h/c/" "https://h/c/" collection
    ⟨"https://h/c/a@keeper.sh.ics", some standupText⟩ standupPath := ⟨by decide +kernel, by decide +kernel, rfl⟩

theorem serves : Serves urls client "https://h/c/" "https://h/c/" parser host collection := by
  constructor
  · intro objectUrls objects h object hobject _
    obtain rfl := Except.ok.inj h
    obtain rfl := List.mem_singleton.1 hobject
    exact ⟨standupPath, isHeldAt_standup⟩
  · intro responses h path hevents
    obtain rfl := Except.ok.inj h
    have hpath : path = standupPath := by
      by_contra hother
      refine hevents ?_
      rw [eventsAt, collection]
      dsimp only
      rw [if_neg hother]
      exact ite_self _
    subst hpath
    exact ⟨some standupPath, List.mem_cons_self, by decide +kernel⟩

theorem returnsRequested : ReturnsRequested urls client "https://h/c/" "https://h/c/" collection := by
  intro objectUrls objects h url _ path _ _ hheld
  obtain rfl := Except.ok.inj h
  have hpath : path = standupPath := by
    by_contra hother
    change (if path = standupPath then some standupText else none).isSome = true at hheld
    rw [if_neg hother] at hheld
    cases hheld
  subst hpath
  exact ⟨_, List.mem_cons_self, rfl, isHeldAt_standup⟩

theorem exists_listed : ∃ listed, listRemoteEvents urls client "https://h/c/" parser host window = .ok listed ∧
    ∀ event ∈ listed, event.deleteId = standupPath := by
  have hlisted : (listRemoteEvents urls client "https://h/c/" parser host window).toOption.map
      (·.map (·.deleteId)) = some [standupPath] := by decide +kernel
  cases h : listRemoteEvents urls client "https://h/c/" parser host window with
  | error error =>
    rw [h] at hlisted
    cases hlisted
  | ok listed =>
    rw [h] at hlisted
    have hids : listed.map (·.deleteId) = [standupPath] := Option.some.inj hlisted
    refine ⟨listed, rfl, fun event hevent => ?_⟩
    have hmem := List.mem_map_of_mem (f := (·.deleteId)) hevent
    rw [hids] at hmem
    exact List.mem_singleton.1 hmem

theorem eventsAt_goneId : eventsAt parser host collection goneId = [] := by
  rw [eventsAt]
  exact ite_self _

end OneObject

open OneObject in
/-- A lookup of an object that is gone. -/
theorem found_perm_iff_example : ∃ listed, listRemoteEvents urls client "https://h/c/" parser host window = .ok listed ∧
    ∃ objects, answersTo urls client "https://h/c/" "https://h/c/" [goneId] = .ok objects ∧
      ((∃ found, getRemoteEventsByIds urls client "https://h/c/" parser host [goneId] = .ok found) ↔
        ∀ object ∈ objects, ∃ own,
          readObject urls "https://h/c/" parser host "https://h/c/" (fun _ => true) object = .ok own) ∧
      ∀ found, getRemoteEventsByIds urls client "https://h/c/" parser host [goneId] = .ok found →
        (found.Perm (listed.filter fun event => (requestedPaths collection [goneId]).contains event.deleteId) ↔
          AnswersOnce urls "https://h/c/" parser host collection (requestedPaths collection [goneId]) objects) := by
  obtain ⟨listed, hlisted, -⟩ := exists_listed
  have hrequested : requestedPaths collection [goneId] = [goneId] := by decide +kernel
  refine ⟨listed, hlisted, _, rfl, found_perm_iff serves rfl hlisted (fun path hpath event hevent => ?_) rfl⟩
  rw [hrequested, List.mem_singleton] at hpath
  rw [hpath, eventsAt_goneId] at hevent
  cases hevent

open OneObject in
/-- **An object that nobody asked for** is returned by a lookup. -/
theorem not_found_perm : Serves urls client "https://h/c/" "https://h/c/" parser host collection ∧
    ReturnsRequested urls client "https://h/c/" "https://h/c/" collection ∧
    collection.held goneId = none ∧
    ∃ listed found, listRemoteEvents urls client "https://h/c/" parser host window = .ok listed ∧
      getRemoteEventsByIds urls client "https://h/c/" parser host [goneId] = .ok found ∧
      ¬ found.Perm (listed.filter fun event => (requestedPaths collection [goneId]).contains event.deleteId) := by
  obtain ⟨listed, hlisted, hids⟩ := exists_listed
  have hlength : (getRemoteEventsByIds urls client "https://h/c/" parser host [goneId]).toOption.map (·.length) =
      some 1 := by decide +kernel
  refine ⟨serves, returnsRequested, by decide +kernel, listed, ?_⟩
  cases hfound : getRemoteEventsByIds urls client "https://h/c/" parser host [goneId] with
  | error error =>
    rw [hfound] at hlength
    cases hlength
  | ok found =>
    rw [hfound] at hlength
    refine ⟨found, hlisted, rfl, fun hperm => ?_⟩
    have hrequested : requestedPaths collection [goneId] = [goneId] := by decide +kernel
    have hnone : (listed.filter fun event => [goneId].contains event.deleteId) = [] :=
      List.filter_eq_nil_iff.2 fun event hevent => by
        rw [hids event hevent]
        decide +kernel
    rw [hrequested, hnone] at hperm
    have hone : found.length = 1 := Option.some.inj hlength
    rw [hperm.length_eq] at hone
    cases hone

end CalDavReads

end Keeper
