import Keeper.Destinations.Google
import Keeper.Foundations.JsArray

/-!
# The two reads of a Google calendar

`listRemoteEvents` and `getRemoteEventsByIds` of `providers/google/destination/provider.ts`: a calendar
is listed page by page, or some of its events are asked for by their ids, fifty to a batch. Google lists
no cancelled event and returns one that is asked for.

* `getRemoteEventsByIds_ok`, `listRemoteEvents_ok`: what the two reads return.
* `readsAgree_iff`: when they agree.
-/

namespace Keeper

namespace Google

open JsArray

/-! ## Google -/

/-- The state of a calendar: its events have ids of their own. -/
structure GoogleCalendar where
  events : List GoogleEvent
  identified : ∀ event ∈ events, event.id.isSome
  distinct : (events.map (·.id)).Nodup

/-- `BatchSubResponse`, its body as the schema reads it. -/
structure BatchSubResponse where
  statusCode : ℕ
  body : Option GoogleEvent := none

/-- `GET` of an event: Google returns it, cancelled or not. -/
def GoogleCalendar.get (calendar : GoogleCalendar) (id : String) : BatchSubResponse :=
  match calendar.events.find? (·.id = some id) with
  | some event => ⟨200, some event⟩
  | none => ⟨404, none⟩

structure GoogleEventList where
  items : Option (List GoogleEvent) := none
  nextPageToken : Option String := none

/-- The pages that Google serves, from a page token on, hold these events. -/
inductive Serves (page : Option String → GoogleEventList) :
    Option String → List GoogleEvent → Prop
  | last {token : Option String} (h : truthy (page token).nextPageToken = none) :
      Serves page token ((page token).items.getD [])
  | more {token : Option String} {next : String} {rest : List GoogleEvent}
      (h : truthy (page token).nextPageToken = some next) (hrest : Serves page (some next) rest) :
      Serves page token ((page token).items.getD [] ++ rest)

/-- The events that Google lists: those of the window that are not cancelled. -/
def GoogleCalendar.listed (calendar : GoogleCalendar) (overlaps : GoogleEvent → Bool) :
    List GoogleEvent :=
  calendar.events.filter fun event => event.status ≠ some .cancelled && overlaps event

/-! ## Reads -/

inductive ReadFailure
  | missingResponse
  | api (statusCode : ℕ)
  | invalidBody
  | range (error : RangeError)
  deriving DecidableEq

/-- A `RangeError` of a read. -/
def liftRead {α : Type} : Except RangeError α → Except ReadFailure α
  | .ok a => .ok a
  | .error e => .error (.range e)

/-- `GOOGLE_BATCH_MAX_SIZE`, less one. -/
def googleBatchLast : ℕ := 49

/-- `executeBatchChunked` of these lookups: Google answers each of a batch, in order. -/
def executeBatchChunked (calendar : GoogleCalendar) (eventIds : List String) :
    List BatchSubResponse :=
  (chunks googleBatchLast eventIds).flatMap fun chunk => chunk.map calendar.get

section Reads

variable (zones : Zones) (newDate : String → Option ℤ) (host : Host)

/-- One turn of the loop over the answers. -/
def readLookup : Option BatchSubResponse → Except ReadFailure (Option RemoteEvent)
  | none => .error .missingResponse
  | some response =>
    if response.statusCode = 404 ∨ response.statusCode = 410 then .ok none
    else if response.statusCode < 200 ∨ 300 ≤ response.statusCode then
      .error (.api response.statusCode)
    else
      match response.body with
      | none => .error .invalidBody
      | some event => liftRead (toGoogleRemoteEvent zones newDate host event)

def getRemoteEventsByIds (calendar : GoogleCalendar) (eventIds : List String) :
    Except ReadFailure (List RemoteEvent) :=
  if eventIds = [] then .ok []
  else do
    let responses := executeBatchChunked calendar eventIds
    let remoteEvents ← (zipIndexed eventIds responses).mapM fun lookup =>
      readLookup zones newDate host lookup.2
    pure remoteEvents.reduceOption

def readItems (items : List GoogleEvent) : Except ReadFailure (List RemoteEvent) := do
  let remoteEvents ← items.mapM fun event => liftRead (toGoogleRemoteEvent zones newDate host event)
  pure remoteEvents.reduceOption

/-- `listRemoteEvents`, as many pages as the fuel allows. -/
def listRemoteEvents (page : Option String → GoogleEventList) :
    ℕ → Option String → Option (Except ReadFailure (List RemoteEvent))
  | 0, _ => none
  | fuel + 1, pageToken =>
    match readItems zones newDate host ((page pageToken).items.getD []) with
    | .error e => some (.error e)
    | .ok items =>
      match truthy (page pageToken).nextPageToken with
      | none => some (.ok items)
      | some next => (listRemoteEvents page fuel (some next)).map fun rest => rest.map (items ++ ·)

end Reads

/-! ## What the reads return -/

section Lemmas

variable {zones : Zones} {newDate : String → Option ℤ} {host : Host} {calendar : GoogleCalendar}

def remoteOf (zones : Zones) (newDate : String → Option ℤ) (host : Host) (event : GoogleEvent) :
    Option RemoteEvent :=
  (toGoogleRemoteEvent zones newDate host event).toOption.join

theorem toGoogleRemoteEvent_eq (hzones : ∀ name, RegularZone zones name) (event : GoogleEvent) :
    toGoogleRemoteEvent zones newDate host event = .ok (remoteOf zones newDate host event) := by
  obtain ⟨remote, hremote, -⟩ := exists_toGoogleRemoteEvent newDate host hzones event
  rw [remoteOf, hremote]
  rfl

theorem mapM_eq_ok {α β : Type} {f : α → Except ReadFailure β} {g : α → β} {l : List α}
    (h : ∀ a ∈ l, f a = .ok (g a)) : l.mapM f = .ok (l.map g) := by
  induction l with
  | nil => rfl
  | cons a l ih =>
    rw [List.mapM_cons, h a List.mem_cons_self,
      ih fun b hb => h b (List.mem_cons_of_mem _ hb)]
    rfl

theorem readItems_ok (hzones : ∀ name, RegularZone zones name) (items : List GoogleEvent) :
    readItems zones newDate host items = .ok (items.filterMap (remoteOf zones newDate host)) := by
  unfold readItems
  rw [mapM_eq_ok fun event _ => by rw [toGoogleRemoteEvent_eq hzones]; rfl]
  exact congrArg Except.ok List.filterMap_map

/-- **The listing** reads what the pages hold, with fuel for all of them. -/
theorem listRemoteEvents_ok (hzones : ∀ name, RegularZone zones name)
    {page : Option String → GoogleEventList} {token : Option String} {events : List GoogleEvent}
    (h : Serves page token events) : ∃ fuel, listRemoteEvents zones newDate host page fuel token =
      some (.ok (events.filterMap (remoteOf zones newDate host))) := by
  induction h with
  | last h =>
    refine ⟨1, ?_⟩
    rw [listRemoteEvents, readItems_ok hzones]
    dsimp only
    rw [h]
  | more h _ ih =>
    obtain ⟨fuel, hrest⟩ := ih
    refine ⟨fuel + 1, ?_⟩
    rw [listRemoteEvents, readItems_ok hzones]
    dsimp only
    rw [h]
    dsimp only
    rw [hrest, List.filterMap_append]
    rfl

def GoogleCalendar.event (calendar : GoogleCalendar) (id : String) : Option GoogleEvent :=
  calendar.events.find? (·.id = some id)

variable {id : String} {event : GoogleEvent} {remote : RemoteEvent}

theorem GoogleCalendar.event_eq_some_iff :
    calendar.event id = some event ↔ event ∈ calendar.events ∧ event.id = some id := by
  constructor
  · intro h
    exact ⟨List.mem_of_find?_eq_some h, by simpa using List.find?_some h⟩
  · rintro ⟨hmem, hid⟩
    have hsome : (calendar.event id).isSome :=
      List.find?_isSome.2 ⟨event, hmem, decide_eq_true hid⟩
    obtain ⟨found, hfound⟩ := Option.isSome_iff_exists.1 hsome
    have hfoundId : found.id = some id := by simpa using List.find?_some hfound
    have hboth : found.id = event.id := hfoundId.trans hid.symm
    rw [hfound]
    exact congrArg some (List.inj_on_of_nodup_map calendar.distinct
      (List.mem_of_find?_eq_some hfound) hmem hboth)

theorem executeBatchChunked_eq (eventIds : List String) :
    executeBatchChunked calendar eventIds = eventIds.map calendar.get := by
  unfold executeBatchChunked
  rw [← List.map_flatMap, List.flatMap_id', flatten_chunks]

theorem readLookup_get (hzones : ∀ name, RegularZone zones name) (id : String) :
    readLookup zones newDate host (some (calendar.get id)) =
      .ok ((calendar.event id).bind (remoteOf zones newDate host)) := by
  unfold GoogleCalendar.get GoogleCalendar.event
  cases hevent : calendar.events.find? (·.id = some id) with
  | none => rfl
  | some event =>
    show liftRead (toGoogleRemoteEvent zones newDate host event) = _
    rw [toGoogleRemoteEvent_eq hzones]
    rfl

/-- **The lookup** reads the events of the ids. -/
theorem getRemoteEventsByIds_ok (hzones : ∀ name, RegularZone zones name) (eventIds : List String) :
    getRemoteEventsByIds zones newDate host calendar eventIds = .ok (eventIds.filterMap fun id =>
      (calendar.event id).bind (remoteOf zones newDate host)) := by
  unfold getRemoteEventsByIds
  by_cases hnil : eventIds = []
  · rw [if_pos hnil, hnil]
    rfl
  · have hread : ∀ lookup ∈ zipIndexed eventIds (eventIds.map calendar.get),
        readLookup zones newDate host lookup.2 =
          .ok ((calendar.event lookup.1).bind (remoteOf zones newDate host)) := by
      rw [zipIndexed_map]
      intro lookup hlookup
      obtain ⟨id, -, rfl⟩ := List.mem_map.1 hlookup
      exact readLookup_get hzones id
    rw [if_neg hnil, executeBatchChunked_eq]
    dsimp only
    rw [mapM_eq_ok hread, zipIndexed_map, List.map_map]
    exact congrArg Except.ok List.filterMap_map

/-! ## Agreement -/

/-- **The two reads agree** on some events: a remote event of one of these ids is returned by the lookup
iff it is listed. -/
def ReadsAgree (eventIds : List String) (byIds listed : List RemoteEvent) : Prop :=
  ∀ id ∈ eventIds, ∀ remote : RemoteEvent, remote.deleteId = id →
    (remote ∈ byIds ↔ remote ∈ listed)

/-- A copy that the user deleted and Google still returns: it is cancelled, Keeper wrote it, and its
times are read. -/
structure IsDeletedCopy (zones : Zones) (newDate : String → Option ℤ) (event : GoogleEvent) : Prop where
  cancelled : event.status = some .cancelled
  keeper : ∃ iCalUID, truthy event.iCalUID = some iCalUID ∧ isKeeperEvent iCalUID = true
  times : HasTimes zones newDate event

variable (host) in
theorem isSome_remoteOf_iff (hzones : ∀ name, RegularZone zones name) : (remoteOf zones newDate host event).isSome ↔
      (∃ iCalUID, truthy event.iCalUID = some iCalUID ∧ isKeeperEvent iCalUID = true) ∧
        HasTimes zones newDate event := by
  obtain ⟨remote, hremote, hiff⟩ := exists_toGoogleRemoteEvent newDate host hzones event
  rw [toGoogleRemoteEvent_eq hzones] at hremote
  rwa [Except.ok.inj hremote]

theorem deleteId_of_remoteOf (hzones : ∀ name, RegularZone zones name) (hid : event.id = some id)
    (h : remoteOf zones newDate host event = some remote) : remote.deleteId = id :=
  deleteId_toGoogleRemoteEvent hid (by rw [toGoogleRemoteEvent_eq hzones, h])

theorem mem_lookup_iff (hzones : ∀ name, RegularZone zones name) {eventIds : List String} (hid : id ∈ eventIds)
    (hremote : remote.deleteId = id) :
    remote ∈ eventIds.filterMap (fun id => (calendar.event id).bind (remoteOf zones newDate host)) ↔
      ∃ event ∈ calendar.events, event.id = some id ∧
        remoteOf zones newDate host event = some remote := by
  rw [List.mem_filterMap]
  constructor
  · rintro ⟨other, -, hother⟩
    obtain ⟨event, hevent, hread⟩ := Option.bind_eq_some_iff.1 hother
    obtain ⟨hmem, heventId⟩ := GoogleCalendar.event_eq_some_iff.1 hevent
    have hsame : other = id := (deleteId_of_remoteOf hzones heventId hread).symm.trans hremote
    exact ⟨event, hmem, hsame ▸ heventId, hread⟩
  · rintro ⟨event, hmem, heventId, hread⟩
    refine ⟨id, hid, Option.bind_eq_some_iff.2 ⟨event, ?_, hread⟩⟩
    exact GoogleCalendar.event_eq_some_iff.2 ⟨hmem, heventId⟩

theorem mem_listed_iff (hzones : ∀ name, RegularZone zones name) {overlaps : GoogleEvent → Bool}
    {served : List GoogleEvent} (hserved : served.Perm (calendar.listed overlaps)) (hremote : remote.deleteId = id) :
    remote ∈ served.filterMap (remoteOf zones newDate host) ↔
      ∃ event ∈ calendar.events, event.id = some id ∧ event.status ≠ some .cancelled ∧
        overlaps event = true ∧ remoteOf zones newDate host event = some remote := by
  have hmem : ∀ event, event ∈ served ↔ event ∈ calendar.events ∧
      event.status ≠ some .cancelled ∧ overlaps event = true := by
    intro event
    rw [hserved.mem_iff, GoogleCalendar.listed, List.mem_filter, Bool.and_eq_true, decide_eq_true_eq]
  rw [List.mem_filterMap]
  constructor
  · rintro ⟨event, hevent, hread⟩
    obtain ⟨hin, hstatus, hoverlaps⟩ := (hmem event).1 hevent
    obtain ⟨eventId, heventId⟩ := Option.isSome_iff_exists.1 (calendar.identified event hin)
    have hsame := (deleteId_of_remoteOf hzones heventId hread).symm.trans hremote
    exact ⟨event, hin, hsame ▸ heventId, hstatus, hoverlaps, hread⟩
  · rintro ⟨event, hin, -, hstatus, hoverlaps, hread⟩
    exact ⟨event, (hmem event).2 ⟨hin, hstatus, hoverlaps⟩, hread⟩

/-- **The two reads of a calendar agree** on events of the window iff none of them is a deleted copy. -/
theorem readsAgree_iff (hzones : ∀ name, RegularZone zones name) (calendar : GoogleCalendar)
    (overlaps : GoogleEvent → Bool) {page : Option String → GoogleEventList}
    {served : List GoogleEvent} (hserves : Serves page none served)
    (hserved : served.Perm (calendar.listed overlaps)) (eventIds : List String)
    (hwindow : ∀ event ∈ calendar.events, ∀ id ∈ eventIds, event.id = some id →
      overlaps event = true) :
    ∃ byIds listed, getRemoteEventsByIds zones newDate host calendar eventIds = .ok byIds ∧
      (∃ fuel, listRemoteEvents zones newDate host page fuel none = some (.ok listed)) ∧
      (ReadsAgree eventIds byIds listed ↔ ∀ event ∈ calendar.events, ∀ id ∈ eventIds,
        event.id = some id → ¬ IsDeletedCopy zones newDate event) := by
  refine ⟨_, _, getRemoteEventsByIds_ok hzones eventIds, listRemoteEvents_ok hzones hserves, ?_⟩
  constructor
  · intro hagree event hmem id hid heventId hdeleted
    obtain ⟨remote, hread⟩ := Option.isSome_iff_exists.1
      ((isSome_remoteOf_iff host hzones).2 ⟨hdeleted.keeper, hdeleted.times⟩)
    have hremote := deleteId_of_remoteOf hzones heventId hread
    have hlisted := (hagree id hid remote hremote).1
      ((mem_lookup_iff hzones hid hremote).2 ⟨event, hmem, heventId, hread⟩)
    obtain ⟨other, hother, hotherId, hstatus, -⟩ := (mem_listed_iff hzones hserved hremote).1 hlisted
    -- ids are distinct, so the listed event is the deleted one
    have hsame : other = event := List.inj_on_of_nodup_map calendar.distinct hother hmem
      (hotherId.trans heventId.symm)
    exact hstatus (hsame ▸ hdeleted.cancelled)
  · intro hnone id hid remote hremote
    rw [mem_lookup_iff hzones hid hremote, mem_listed_iff hzones hserved hremote]
    constructor
    · rintro ⟨event, hmem, heventId, hread⟩
      refine ⟨event, hmem, heventId, fun hcancelled => ?_, hwindow event hmem id hid heventId, hread⟩
      have hsome := (isSome_remoteOf_iff host hzones).1 (Option.isSome_iff_exists.2 ⟨remote, hread⟩)
      exact hnone event hmem id hid heventId ⟨hcancelled, hsome.1, hsome.2⟩
    · rintro ⟨event, hmem, heventId, -, -, hread⟩
      exact ⟨event, hmem, heventId, hread⟩

end Lemmas

end Google

namespace Example

open Google

/-- A host that knows zones without an offset only. -/
def greenwich : Zones := ⟨id, fun _ => true, fun t _ => t⟩

theorem regular_greenwich (name : String) : RegularZone greenwich name where
  bounded t := by
    simp only [offsetMillisecondsAt, greenwich, msPerDay]
    omega
  changes t := ⟨t, fun u hu hc => absurd hc (not_lt.2 hu), fun u _ _ => by
    simp only [offsetMillisecondsAt, greenwich]
    omega⟩

def deletedCopy : GoogleEvent where
  id := some "copy"
  iCalUID := some "copy@keeper.sh"
  status := some .cancelled
  start := some { date := some "2026-03-01" }
  «end» := some { date := some "2026-03-02" }

def deletedCopyCalendar : GoogleCalendar where
  events := [deletedCopy]
  identified event hevent := by
    obtain rfl := List.mem_singleton.1 hevent
    rfl
  distinct := List.nodup_singleton _

def emptyPage : Option String → GoogleEventList := fun _ => { items := some [] }

theorem serves_emptyPage : Serves emptyPage none [] := Serves.last rfl

end Example

namespace Google

theorem readsAgree_iff_example :
    ∃ byIds listed, getRemoteEventsByIds Example.greenwich (fun _ => none) Example.copyHost
        Example.deletedCopyCalendar ["copy"] = .ok byIds ∧
      (∃ fuel, listRemoteEvents Example.greenwich (fun _ => none) Example.copyHost
        Example.emptyPage fuel none = some (.ok listed)) ∧
      (ReadsAgree ["copy"] byIds listed ↔ ∀ event ∈ Example.deletedCopyCalendar.events,
        ∀ id ∈ ["copy"], event.id = some id →
          ¬ IsDeletedCopy Example.greenwich (fun _ => none) event) :=
  readsAgree_iff Example.regular_greenwich Example.deletedCopyCalendar (fun _ => true)
    Example.serves_emptyPage (List.Perm.refl _) ["copy"]
    fun _ _ _ _ _ => rfl

/-- **A deleted copy is found by its id.** Its start is read as 2026-03-01, and the listing, which has
one empty page, does not hold it. -/
theorem not_readsAgree :
    Serves Example.emptyPage none [] ∧
      ([] : List GoogleEvent).Perm (Example.deletedCopyCalendar.listed fun _ => true) ∧
      listRemoteEvents Example.greenwich (fun _ => none) Example.copyHost Example.emptyPage 1 none =
        some (.ok []) ∧
      ∃ byIds, getRemoteEventsByIds Example.greenwich (fun _ => none) Example.copyHost
          Example.deletedCopyCalendar ["copy"] = .ok byIds ∧ ¬ ReadsAgree ["copy"] byIds [] := by
  have hread : (getRemoteEventsByIds Example.greenwich (fun _ => none) Example.copyHost
      Example.deletedCopyCalendar ["copy"]).map (fun byIds => byIds.map (·.deleteId)) =
        .ok ["copy"] := by decide +kernel
  refine ⟨Example.serves_emptyPage, List.Perm.refl _, rfl, _,
    getRemoteEventsByIds_ok Example.regular_greenwich _, ?_⟩
  rw [getRemoteEventsByIds_ok Example.regular_greenwich] at hread
  have hids := Except.ok.inj hread
  intro hagree
  obtain ⟨remote, hremote, hid⟩ := List.mem_map.1 (hids ▸ List.mem_singleton_self "copy")
  exact absurd ((hagree "copy" (List.mem_singleton_self _) remote hid).1 hremote) List.not_mem_nil

end Google

end Keeper
