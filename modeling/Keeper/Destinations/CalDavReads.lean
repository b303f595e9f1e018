import Keeper.Destinations.RemoteCopy
import Keeper.Foundations.ByteText
import Keeper.Foundations.Fallible
import Keeper.Foundations.TextSearch
import Keeper.Source.CalDavResources

/-!
# Reads of a CalDAV destination

`listRemoteEvents` and `getRemoteEventsByIds` of `providers/caldav/destination/provider.ts`, over
`fetchCalendarObjects` and `fetchCalendarObjectsByUrls` of `providers/caldav/shared/client.ts`. The constructor of
`URL` is a parameter, and so are `resolveCalendarUrl` and the client of `tsdav`, whose answers are those of a server.

* `mem_fetchCalendarObjectsByUrls`: the objects of a lookup are answered to one of its batches.
* `fetchCalendarObjects_ok`: a listing is of one object for each path that is listed and passes the filter.
* `getRemoteEventsByIds_ok_iff`: a lookup succeeds where what is answered can be read.
-/

namespace Keeper

open JsArray

namespace CalDavReads

/-! ## Urls and objects -/

/-- `new URL(url, base).href` and `new URL(url, base).pathname`, or the error of an invalid URL. -/
structure Urls where
  href : String → String → Except String String
  pathname : String → String → Except String String

/-- `CalendarObject`, without its ETag. -/
structure CalendarObject where
  url : String
  data : Option String
  deriving DecidableEq

/-- The client of `tsdav`, its multiget with a filter of the URLs that it asks for, and `resolveCalendarUrl`. -/
structure Client where
  resolveCalendarUrl : String → Except String String
  calendarQuery : String → Except String (List (Option String))
  fetchCalendarObjects : String → List String → (String → Except String Bool) → Except String (List CalendarObject)

/-- `CalDAVIncompleteMultiGetError`. -/
structure IncompleteMultiGet where
  batchCount : ℕ
  calendarUrl : String
  hrefsRequested : ℕ
  missingHrefs : List String
  objectsReturned : ℕ
  deriving DecidableEq

inductive ReadError
  | request (message : String)
  | incomplete (details : IncompleteMultiGet)
  | resource (error : ResourceError)
  | unsupported (message : String)
  deriving DecidableEq

def caldavMultigetBatchSize : ℕ := 250

def missingHrefSampleSize : ℕ := 5

def isCalendarObjectPath (path : String) : Bool :=
  (Text.searchAfter (· == ·) ".ics".toList path.toList).isSome

def toCalendarBaseUrl (calendarUrl : String) : String :=
  if "/".toList.isSuffixOf calendarUrl.toList then calendarUrl else calendarUrl ++ "/"

/-- `isKeeperCalendarObjectPath`; a name that is not percent-encoded is caught. -/
def isKeeperCalendarObjectPath (path : String) : Bool :=
  match Bytes.decodeURIComponent (String.ofList ((path.toList.splitOn '/').getLast?.getD [])) with
  | none => false
  | some filename => ".ics".toList.isSuffixOf filename.toList &&
    isKeeperEvent (String.ofList (filename.toList.take (filename.toList.length - 4)))

section Reads

variable (urls : Urls) (client : Client) (storedUrl : String)

def isKeeperCalendarObjectUrl (objectUrl : String) : Bool :=
  match urls.pathname objectUrl storedUrl with
  | .error _ => false
  | .ok path => isKeeperCalendarObjectPath path

def toObjectUrl (deleteId : String) : Except ReadError String :=
  if deleteId.toList.contains '/' then (urls.href deleteId (toCalendarBaseUrl storedUrl)).mapError .request
  else (urls.href (deleteId ++ ".ics") (toCalendarBaseUrl storedUrl)).mapError .request

def toCalendarObjectPath (href calendarUrl : String) : Except ReadError String :=
  (urls.pathname href calendarUrl).mapError .request

def toCalendarObjectPaths (responses : List (Option String)) (calendarUrl : String) : Except ReadError (List String) := do
  let paths ← responses.mapM fun href => toCalendarObjectPath urls (href.getD "") calendarUrl
  return (paths.filter isCalendarObjectPath).eraseDups

/-! ## The client -/

/-- The `urlFilter` of a multiget. -/
def urlFilter (calendarUrl url : String) : Except String Bool :=
  (urls.pathname url calendarUrl).map isCalendarObjectPath

def fetchCalendarObjectsByUrls (calendarUrl : String) (objectUrls : List String) :
    Except ReadError (List CalendarObject) := do
  let batches ← (chunks (caldavMultigetBatchSize - 1) objectUrls).mapM fun batch =>
    (client.fetchCalendarObjects calendarUrl batch (urlFilter urls calendarUrl)).mapError .request
  return batches.flatten.filter (·.data.isSome)

def byPath (calendarUrl : String) (objects : List CalendarObject) : Except ReadError (List (String × CalendarObject)) :=
  objects.mapM fun object => do
    let path ← toCalendarObjectPath urls object.url calendarUrl
    return (path, object)

/-- `fetchCalendarObjects`, without a time range. Its batches are asked for as those of a lookup by URLs. -/
def fetchCalendarObjects (calendarUrl : String) (pathFilter : String → Bool) :
    Except ReadError (List CalendarObject) := do
  let queryResponses ← (client.calendarQuery calendarUrl).mapError .request
  let listedPaths ← toCalendarObjectPaths urls queryResponses calendarUrl
  let requestedPaths := listedPaths.filter pathFilter
  if requestedPaths = [] then return []
  else
    let objects ← fetchCalendarObjectsByUrls urls client calendarUrl requestedPaths
    let entries ← byPath urls calendarUrl objects
    let objectsByPath := JsMap.ofList entries
    let missingHrefs := requestedPaths.filter fun path => !objectsByPath.has path
    if missingHrefs ≠ [] then .error (.incomplete
      { batchCount := (chunks (caldavMultigetBatchSize - 1) requestedPaths).length
        calendarUrl
        hrefsRequested := requestedPaths.length
        missingHrefs := missingHrefs.take missingHrefSampleSize
        objectsReturned := requestedPaths.length - missingHrefs.length })
    else return requestedPaths.filterMap objectsByPath.get?

/-! ## Events -/

/-- `RemoteEvent`, as CalDAV returns it: with the fields of the event that is parsed. -/
structure CalDavRemoteEvent extends ResourceEvent where
  editableAvailability : EventAvailability
  editableContent : EditableEventContentSnapshot
  editableContentHash : String
  supportedAvailabilities : List EventAvailability
  deriving DecidableEq

variable (parser : ResourceParser) (host : Host)

def assertAllEventsSupported (resources : ParsedCalendarResources) : Except ReadError Unit :=
  if resources.unsupportedEvents = [] then .ok ()
  else .error (.unsupported ("; ".intercalate (resources.unsupportedEvents.map (·.reason))))

def assertAllResourcesRead (resources : ParsedCalendarResources) : Except ReadError Unit :=
  if 0 < resources.skippedResourceCount then
    .error (.resource (.unreadable resources.skippedResourceCount resources.skippedResourceReasons))
  else .ok ()

def parseCalendarObjectEvents (data : String) : Except ReadError (List ResourceEvent) := do
  let resources ← (parseICalCalendarsToRemoteEvents parser { rejectUnsupportedRecurrenceDates := some false }
    [data]).mapError .resource
  assertAllResourcesRead resources
  assertAllEventsSupported resources
  return resources.events

def editableContentOf (parsed : ResourceEvent) : EditableEventContentSnapshot :=
  ({ availability := some parsed.availability
     description := parsed.description
     endTime := some parsed.endTime
     isAllDay := some parsed.isAllDay
     location := parsed.location
     startTime := some parsed.startTime
     summary := parsed.title.getD "" } : SyncableEventContent).editableSnapshot

def toCalDAVRemoteEvent (parsed : ResourceEvent) (objectPath : String) : CalDavRemoteEvent where
  toResourceEvent := { parsed with deleteId := objectPath }
  editableAvailability := parsed.availability
  editableContent := editableContentOf parsed
  editableContentHash := hashEditableEventContentSnapshot host (editableContentOf parsed)
  supportedAvailabilities := [.busy, .free]

/-- The events of an object that a read looks at, those that a test keeps. -/
def readObject (calendarUrl : String) (keeps : ResourceEvent → Bool) (object : CalendarObject) :
    Except ReadError (List CalDavRemoteEvent) :=
  match truthy object.data with
  | none => .ok []
  | some data =>
    if isKeeperCalendarObjectUrl urls storedUrl object.url then do
      let objectPath ← toCalendarObjectPath urls object.url calendarUrl
      let events ← parseCalendarObjectEvents parser data
      return ((events.filter fun parsed => isKeeperEvent parsed.uid && keeps parsed).map
        (toCalDAVRemoteEvent host · objectPath))
    else .ok []

def readObjects (calendarUrl : String) (keeps : ResourceEvent → Bool) (objects : List CalendarObject) :
    Except ReadError (List CalDavRemoteEvent) :=
  (objects.mapM (readObject urls storedUrl parser host calendarUrl keeps)).map List.flatten

def resolveTimeRangeEnd (range : EventTimeRange) : ℤ :=
  if range.startTime < range.endTime then range.endTime else range.startTime

def isListed (window : SyncWindow) (parsed : ResourceEvent) : Bool :=
  !(window.timeMax < parsed.startTime ||
    resolveTimeRangeEnd ⟨parsed.startTime, parsed.endTime⟩ < window.timeMin)

def listRemoteEvents (window : SyncWindow) : Except ReadError (List CalDavRemoteEvent) := do
  let calendarUrl ← (client.resolveCalendarUrl storedUrl).mapError .request
  let objects ← fetchCalendarObjects urls client calendarUrl isKeeperCalendarObjectPath
  readObjects urls storedUrl parser host calendarUrl (isListed window) objects

def getRemoteEventsByIds (deleteIds : List String) : Except ReadError (List CalDavRemoteEvent) :=
  if deleteIds = [] then .ok []
  else do
    let calendarUrl ← (client.resolveCalendarUrl storedUrl).mapError .request
    let objectUrls ← deleteIds.mapM (toObjectUrl urls storedUrl)
    let objects ← fetchCalendarObjectsByUrls urls client calendarUrl objectUrls
    readObjects urls storedUrl parser host calendarUrl (fun _ => true) objects

end Reads

/-! ## What is read -/

section Lemmas

variable {urls : Urls} {client : Client} {storedUrl calendarUrl : String} {parser : ResourceParser} {host : Host}

variable {objects : List CalendarObject}

/-- **An object of a lookup** has data, and was answered to one of its batches. -/
theorem mem_fetchCalendarObjectsByUrls {objectUrls : List String}
    (h : fetchCalendarObjectsByUrls urls client calendarUrl objectUrls = .ok objects) {object : CalendarObject}
    (hobject : object ∈ objects) : object.data.isSome ∧ ∃ batch answer,
      client.fetchCalendarObjects calendarUrl batch (urlFilter urls calendarUrl) = .ok answer ∧ object ∈ answer := by
  obtain ⟨batches, hbatches, h⟩ := bind_eq_ok_iff.1 h
  obtain rfl := Except.ok.inj h
  obtain ⟨hmem, hdata⟩ := List.mem_filter.1 hobject
  obtain ⟨answer, hanswer, hobject⟩ := List.mem_flatten.1 hmem
  obtain ⟨batch, -, hbatch⟩ := (mem_mapM_iff hbatches).1 hanswer
  exact ⟨hdata, batch, answer, mapError_eq_ok_iff.1 hbatch, hobject⟩

def objectPath (urls : Urls) (calendarUrl : String) (object : CalendarObject) : String :=
  (urls.pathname object.url calendarUrl).toOption.getD ""

theorem byPath_ok {entries : List (String × CalendarObject)} (h : byPath urls calendarUrl objects = .ok entries) :
    entries = objects.map fun object => (objectPath urls calendarUrl object, object) := by
  obtain ⟨hall, hentries⟩ := mapM_eq_ok_iff.1 h
  rw [hentries, ← List.filterMap_eq_map]
  refine List.filterMap_congr fun object hobject => ?_
  obtain ⟨entry, hentry⟩ := hall object hobject
  obtain ⟨path, hpath, hpair⟩ := bind_eq_ok_iff.1 hentry
  have howned : objectPath urls calendarUrl object = path := by
    rw [objectPath, mapError_eq_ok_iff.1 hpath]
    rfl
  rw [hentry, ← Except.ok.inj hpair]
  exact congrArg (fun path => some (path, object)) howned.symm

/-- **A listing** has an object for each path that is listed and passes the filter. -/
theorem fetchCalendarObjects_ok {pathFilter : String → Bool}
    (h : fetchCalendarObjects urls client calendarUrl pathFilter = .ok objects) :
    ∃ responses listedPaths, client.calendarQuery calendarUrl = .ok responses ∧
      toCalendarObjectPaths urls responses calendarUrl = .ok listedPaths ∧
      objects.map (objectPath urls calendarUrl) = listedPaths.filter pathFilter ∧
      ∀ object ∈ objects, object.data.isSome ∧ ∃ batch answer,
        client.fetchCalendarObjects calendarUrl batch (urlFilter urls calendarUrl) = .ok answer ∧ object ∈ answer := by
  obtain ⟨responses, hresponses, h⟩ := bind_eq_ok_iff.1 h
  obtain ⟨listedPaths, hlisted, h⟩ := bind_eq_ok_iff.1 h
  refine ⟨responses, listedPaths, mapError_eq_ok_iff.1 hresponses, hlisted, ?_⟩
  dsimp only at h
  split_ifs at h with hempty
  · obtain rfl := Except.ok.inj h
    rw [hempty]
    exact ⟨rfl, fun object hobject => absurd hobject List.not_mem_nil⟩
  · obtain ⟨answered, hanswered, h⟩ := bind_eq_ok_iff.1 h
    obtain ⟨entries, hentries, h⟩ := bind_eq_ok_iff.1 h
    have hpaths := byPath_ok hentries
    have hget : ∀ path object, (JsMap.ofList entries).get? path = some object →
        object ∈ answered ∧ objectPath urls calendarUrl object = path := fun path object hobject => by
      have hmem := JsMap.get?_ofList_some hobject
      rw [hpaths] at hmem
      obtain ⟨object', hmem', heq⟩ := List.mem_map.1 hmem
      obtain ⟨rfl, rfl⟩ := Prod.mk.inj heq
      exact ⟨hmem', rfl⟩
    split_ifs at h with hmissing
    obtain rfl := Except.ok.inj h
    rw [not_not] at hmissing
    constructor
    · rw [List.map_filterMap]
      conv_rhs => rw [← List.map_id (listedPaths.filter pathFilter), ← List.filterMap_eq_map]
      refine List.filterMap_congr fun path hpath => ?_
      have hhas := List.filter_eq_nil_iff.1 hmissing path hpath
      rw [Bool.not_eq_true', Bool.not_eq_false, JsMap.has, Option.isSome_iff_exists] at hhas
      obtain ⟨object, hobject⟩ := hhas
      rw [hobject, Option.map_some, (hget path object hobject).2]
      rfl
    · intro object hobject
      obtain ⟨path, -, hpath⟩ := List.mem_filterMap.1 hobject
      exact mem_fetchCalendarObjectsByUrls hanswered (hget path object hpath).1

def answersTo (urls : Urls) (client : Client) (storedUrl calendarUrl : String) (deleteIds : List String) :
    Except ReadError (List CalendarObject) := do
  let objectUrls ← deleteIds.mapM (toObjectUrl urls storedUrl)
  fetchCalendarObjectsByUrls urls client calendarUrl objectUrls

/-- **What a lookup returns** where its answers can be read. -/
theorem getRemoteEventsByIds_eq (hresolve : client.resolveCalendarUrl storedUrl = .ok calendarUrl)
    {deleteIds : List String} (hobjects : answersTo urls client storedUrl calendarUrl deleteIds = .ok objects) :
    getRemoteEventsByIds urls client storedUrl parser host deleteIds =
      readObjects urls storedUrl parser host calendarUrl (fun _ => true) objects := by
  obtain ⟨objectUrls, hurls, hanswers⟩ := bind_eq_ok_iff.1 hobjects
  by_cases hempty : deleteIds = []
  · subst hempty
    obtain rfl := Except.ok.inj hurls
    obtain rfl := Except.ok.inj hanswers
    rfl
  · rw [getRemoteEventsByIds, if_neg hempty, hresolve, hurls]
    show (fetchCalendarObjectsByUrls urls client calendarUrl objectUrls >>= _) = _
    rw [hanswers]
    rfl

theorem readObjects_ok_iff {keeps : ResourceEvent → Bool} {events : List CalDavRemoteEvent} :
    readObjects urls storedUrl parser host calendarUrl keeps objects = .ok events ↔
      (∀ object ∈ objects, ∃ own, readObject urls storedUrl parser host calendarUrl keeps object = .ok own) ∧
      events = objects.flatMap fun object =>
        (readObject urls storedUrl parser host calendarUrl keeps object).toOption.getD [] := by
  rw [readObjects]
  constructor
  · intro h
    obtain ⟨parts, hparts, rfl⟩ : ∃ parts, objects.mapM (readObject urls storedUrl parser host calendarUrl keeps) =
        .ok parts ∧ parts.flatten = events := by
      cases hparts : objects.mapM (readObject urls storedUrl parser host calendarUrl keeps) with
      | error error => rw [hparts] at h; cases h
      | ok parts => rw [hparts] at h; exact ⟨parts, rfl, Except.ok.inj h⟩
    obtain ⟨hall, rfl⟩ := mapM_eq_ok_iff.1 hparts
    refine ⟨hall, ?_⟩
    rw [List.flatMap_def, ← List.filterMap_eq_map]
    refine congrArg List.flatten (List.filterMap_congr fun object hobject => ?_)
    obtain ⟨own, hown⟩ := hall object hobject
    show _ = some ((readObject urls storedUrl parser host calendarUrl keeps object).toOption.getD [])
    rw [hown]
    rfl
  · rintro ⟨hall, rfl⟩
    rw [mapM_eq_ok_iff.2 ⟨hall, rfl⟩, List.flatMap_def, ← List.filterMap_eq_map]
    refine congrArg (fun parts => Except.ok (List.flatten parts)) (List.filterMap_congr fun object hobject => ?_)
    obtain ⟨own, hown⟩ := hall object hobject
    show _ = some ((readObject urls storedUrl parser host calendarUrl keeps object).toOption.getD [])
    rw [hown]
    rfl

end Lemmas

end CalDavReads

end Keeper
