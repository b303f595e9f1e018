import Keeper.Foundations.Fallible
import Keeper.Foundations.JsMap
import Keeper.Foundations.Text
import Mathlib.Data.List.DropRight
import Mathlib.Data.Int.Order.Basic

/-!
# Listings

`fetchCalendarEvents` of Google and Outlook (`providers/google/source/utils/fetch-events.ts`,
`providers/outlook/source/utils/fetch-events.ts`): the entries of a listing are merged by id as its pages arrive. Two
entries are compared by their revision times, and by their order where one has none.

* `isNewestLast_iff`: when the merge of entries keeps a newest one.
* `reads_iff`: what a fetch reads of a listing is right exactly where it does so for each id.
-/

namespace Keeper

namespace Listings

/-! ## Entries -/

structure GoogleCalendarEvent where
  id : Option String := none
  status : Option String := none
  updated : Option String := none
  created : Option String := none

structure OutlookCalendarEvent where
  id : Option String := none
  isRemoved : Bool := false
  isCancelled : Bool := false
  type : Option String := none
  lastModifiedDateTime : Option String := none
  createdDateTime : Option String := none

/-- What a fetch asks of the entries of a provider. An entry that is withheld is not among the events. -/
structure EventRecords (E : Type) where
  id : E → Option String
  isRemoved : E → Bool
  isWithheld : E → Bool
  revisionTime : E → Option ℤ

section Providers

variable (newDate : String → Option ℤ)

def getGoogleRevisionTime (event : GoogleCalendarEvent) : Option ℤ :=
  (truthy (event.updated.or event.created)).bind newDate

def getOutlookRevisionTime (event : OutlookCalendarEvent) : Option ℤ :=
  (truthy (event.lastModifiedDateTime.or event.createdDateTime)).bind newDate

def googleRecords : EventRecords GoogleCalendarEvent where
  id := fun event => truthy event.id
  isRemoved := fun event => event.status = some "cancelled"
  isWithheld := fun event => event.status = some "cancelled"
  revisionTime := getGoogleRevisionTime newDate

def outlookRecords : EventRecords OutlookCalendarEvent where
  id := fun event => truthy event.id
  isRemoved := (·.isRemoved)
  isWithheld := fun event => event.isRemoved || event.isCancelled
  revisionTime := getOutlookRevisionTime newDate

end Providers

/-! ## Pages -/

inductive PageAnswer (E : Type)
  | gone
  | failed (status : ℕ)
  | page (events : List E) (nextToken : Option String)

structure CollectedEvents (E : Type) where
  changedEventsById : JsMap String E := .empty
  changedEventsWithoutId : List E := []
  lastToken : Option String := none

/-- The answer of a fetch. -/
inductive CalendarEvents (E : Type)
  | fullSyncRequired
  | read (events : List E) (isDeltaSync : Bool) (nextToken : Option String)
      (changedEventIds cancelledEventIds : Option (List String))

section Fetches

variable {E : Type} (records : EventRecords E)

/-- `shouldReplaceGoogleRevision` and `shouldReplaceOutlookRevision`. -/
def shouldReplaceRevision (current candidate : E) : Bool :=
  match records.revisionTime current, records.revisionTime candidate with
  | some currentTime, some candidateTime => if currentTime ≠ candidateTime then candidateTime > currentTime else true
  | _, _ => true

/-- `collectEvents`, for one event. -/
def collectEvent (collected : CollectedEvents E) (event : E) : CollectedEvents E :=
  match records.id event with
  | some id =>
    match collected.changedEventsById.get? id with
    | some current =>
      if shouldReplaceRevision records current event then
        { collected with changedEventsById := collected.changedEventsById.set id event }
      else collected
    | none => { collected with changedEventsById := collected.changedEventsById.set id event }
  | none =>
    if records.isRemoved event then collected
    else { collected with changedEventsWithoutId := collected.changedEventsWithoutId ++ [event] }

/-- The loop over the pages, each but the last of which links to the next. -/
def collectPages (collected : CollectedEvents E) : List (PageAnswer E) → Except ℕ (Option (CollectedEvents E))
  | [] => .ok (some collected)
  | .gone :: _ => .ok none
  | .failed status :: _ => .error status
  | .page events nextToken :: pages =>
    let collected := events.foldl (collectEvent records) collected
    collectPages { collected with lastToken := (truthy nextToken).or collected.lastToken } pages

/-- What is collected before the first page, whose token is taken as it is. -/
def initialEvents : List (PageAnswer E) → CollectedEvents E
  | .page _ nextToken :: _ => { lastToken := nextToken }
  | _ => {}

/-- `latestChangedEvents`. -/
def CollectedEvents.latest (collected : CollectedEvents E) : List E :=
  collected.changedEventsWithoutId ++ collected.changedEventsById.values

def toAnswer (latest : List E) (isDeltaSync : Bool) (nextToken : Option String) : CalendarEvents E :=
  .read (latest.filter (!records.isWithheld ·)) isDeltaSync nextToken
    (if isDeltaSync then some (latest.filterMap records.id) else none)
    (if isDeltaSync then some ((latest.filter records.isWithheld).filterMap records.id) else none)

end Fetches

/-- `fetchCalendarEvents` of Google. -/
def fetchGoogleEvents (newDate : String → Option ℤ) (isDeltaSync : Bool)
    (pages : List (PageAnswer GoogleCalendarEvent)) : Except ℕ (CalendarEvents GoogleCalendarEvent) := do
  match ← collectPages (googleRecords newDate) (initialEvents pages) pages with
  | none => return .fullSyncRequired
  | some collected => return toAnswer (googleRecords newDate) collected.latest isDeltaSync collected.lastToken

def seriesMasterType : String := "seriesMaster"

/-- The id of a series master that `expandSeriesMasters` expands. -/
def OutlookCalendarEvent.masterId (event : OutlookCalendarEvent) : Option String :=
  if event.type = some seriesMasterType then truthy event.id else none

def deduplicateOutlookEvents (newDate : String → Option ℤ) (events : List OutlookCalendarEvent) :
    List OutlookCalendarEvent :=
  (events.foldl (collectEvent { outlookRecords newDate with isRemoved := fun _ => false }) {}).latest

/-- `fetchCalendarEvents` of Outlook. `instances` is what it lists of a series master, where a window is given. -/
def fetchOutlookEvents (newDate : String → Option ℤ) (isDeltaSync : Bool)
    (instances : Option (String → List OutlookCalendarEvent)) (pages : List (PageAnswer OutlookCalendarEvent)) :
    Except ℕ (CalendarEvents OutlookCalendarEvent) := do
  match ← collectPages (outlookRecords newDate) (initialEvents pages) pages with
  | none => return .fullSyncRequired
  | some collected =>
    let latest := collected.latest
    if isDeltaSync && latest.any (·.type = some seriesMasterType) then return .fullSyncRequired
    -- a tombstone without a type may be that of a series master
    else if isDeltaSync && latest.any (fun event => event.isRemoved && (truthy event.type).isNone) then
      return .fullSyncRequired
    else
      let latest := match instances with
        | none => latest
        | some instances => deduplicateOutlookEvents newDate
            (latest.filter (·.masterId.isNone) ++ (latest.filterMap (·.masterId)).flatMap instances)
      return toAnswer (outlookRecords newDate) latest isDeltaSync collected.lastToken

/-! ## What is right about a fetch -/

/-- The entries of pages, in order. -/
def listing {E : Type} : List (PageAnswer E) → List E
  | .page events _ :: pages => events ++ listing pages
  | _ => []

def tokenAfter {E : Type} (before : Option String) : List (PageAnswer E) → Option String
  | .page _ nextToken :: pages => tokenAfter ((truthy nextToken).or before) pages
  | _ => before

def lastToken {E : Type} (pages : List (PageAnswer E)) : Option String :=
  tokenAfter (initialEvents pages).lastToken pages

/-- No page is gone, and no request fails. -/
def IsWhole {E : Type} (pages : List (PageAnswer E)) : Prop :=
  ∀ answer ∈ pages, ∃ events nextToken, answer = .page events nextToken

section Right

variable {E : Type} (records : EventRecords E)

def times (events : List E) (id : String) : List (Option ℤ) :=
  (events.filter (records.id · = some id)).map records.revisionTime

/-- No entry without a time is followed by older ones only. -/
def IsNewestLast (times : List (Option ℤ)) : Prop :=
  times.rtakeWhile Option.isSome ≠ [] → ∀ t, some t ∈ times → ∃ t', some t' ∈ times.rtakeWhile Option.isSome ∧ t ≤ t'

/-- Entries have ids of their own, and none is known to be older than another one of its id. -/
structure Keeps (served latest : List E) : Prop where
  distinct : (latest.filterMap records.id).Nodup
  newest : ∀ kept ∈ latest, ∀ id t, records.id kept = some id → records.revisionTime kept = some t →
    ∀ event ∈ served, records.id event = some id → ∀ t', records.revisionTime event = some t' → t' ≤ t

/-- What is right about a fetch, which keeps some entries of what it is served for a listing, and expires the token at
some listings. -/
structure Reads (fetch : List (PageAnswer E) → Except ℕ (CalendarEvents E)) (served latest : List E → List E)
    (expires : List E → Prop) (pages : List (PageAnswer E)) : Prop where
  kept : ∀ events isDeltaSync nextToken changed cancelled,
    fetch pages = .ok (.read events isDeltaSync nextToken changed cancelled) →
      Keeps records (served (listing pages)) (latest (listing pages)) ∧
      events = (latest (listing pages)).filter (!records.isWithheld ·) ∧
      (∀ ids ∈ changed, ∀ id, id ∈ ids ↔ ∃ event ∈ listing pages, records.id event = some id) ∧
      ∀ ids ∈ cancelled, (∀ id, id ∈ ids ↔ ∃ kept ∈ latest (listing pages), records.id kept = some id ∧
        records.isWithheld kept = true) ∧ ∀ event ∈ events, ∀ id ∈ records.id event, id ∉ ids
  expired : ∀ answer, fetch pages = .ok answer → ¬ IsWhole pages ∨ expires (listing pages) →
    answer = .fullSyncRequired
  cut : IsWhole pages → ∀ pages', IsWhole pages' → listing pages' = listing pages →
    lastToken pages' = lastToken pages → fetch pages' = fetch pages

end Right

/-! ## Times -/

/-- The time of the entry that is kept of two. -/
def keepTime : Option ℤ → Option ℤ → Option ℤ
  | some current, some candidate => some (max current candidate)
  | _, candidate => candidate

/-- **The merge of times** is the newest one after the last that is missing. -/
theorem foldl_keepTime (times : List (Option ℤ)) :
    (times.foldl keepTime none = none ↔ times.rtakeWhile Option.isSome = []) ∧
      ∀ t, times.foldl keepTime none = some t → some t ∈ times.rtakeWhile Option.isSome ∧
        ∀ t', some t' ∈ times.rtakeWhile Option.isSome → t' ≤ t := by
  induction times using List.reverseRecOn with
  | nil => exact ⟨Iff.rfl.trans (by simp), fun t h => absurd h.symm (Option.some_ne_none t)⟩
  | append_singleton times time ih =>
    rw [List.foldl_append, List.foldl_cons, List.foldl_nil, List.rtakeWhile_concat]
    cases time with
    | none =>
      refine ⟨by cases times.foldl keepTime none <;> simp [keepTime], fun t h => ?_⟩
      cases hfold : times.foldl keepTime none <;> rw [hfold] at h <;> cases h
    | some time =>
      rw [if_pos Option.isSome_some]
      cases hfold : times.foldl keepTime none with
      | none =>
        have hnil := ih.1.1 hfold
        refine ⟨by simp [keepTime], fun t h => ?_⟩
        obtain rfl := Option.some.inj h
        rw [hnil]
        exact ⟨List.mem_cons_self, fun t' ht' => (Option.some.inj (List.mem_singleton.1 ht')).le⟩
      | some current =>
        obtain ⟨hmem, hle⟩ := ih.2 current hfold
        refine ⟨by simp [keepTime], fun t h => ?_⟩
        obtain rfl : max current time = t := Option.some.inj h
        refine ⟨?_, fun t' ht' => ?_⟩
        · rcases le_total current time with hle' | hle'
          · rw [max_eq_right hle']
            exact List.mem_append_right _ List.mem_cons_self
          · rw [max_eq_left hle']
            exact List.mem_append_left _ hmem
        · rcases List.mem_append.1 ht' with hbefore | hlast
          · exact (hle t' hbefore).trans (le_max_left ..)
          · rw [Option.some.inj (List.mem_singleton.1 hlast)]
            exact le_max_right ..

/-- **When a newest time is kept.** -/
theorem isNewestLast_iff {times : List (Option ℤ)} : IsNewestLast times ↔
    ∀ t, times.foldl keepTime none = some t → ∀ t', some t' ∈ times → t' ≤ t := by
  obtain ⟨hnone, hsome⟩ := foldl_keepTime times
  constructor
  · intro h t ht t' ht'
    obtain ⟨newest, hmem, hle⟩ := h (fun hnil => Option.some_ne_none t (ht.symm.trans (hnone.2 hnil))) t' ht'
    exact hle.trans ((hsome t ht).2 newest hmem)
  · intro h hne t ht
    obtain ⟨kept, hkept⟩ := Option.ne_none_iff_exists'.1 fun heq => hne (hnone.1 heq)
    exact ⟨kept, (hsome kept hkept).1, h kept hkept t ht⟩

/-! ## The merge -/

section Merge

variable {E : Type} {records : EventRecords E} {collected : CollectedEvents E} {events : List E} {event : E}
  {id : String}

/-- What is collected of some entries. -/
structure Collects (records : EventRecords E) (events : List E) (collected : CollectedEvents E) : Prop where
  keyed : ∀ id event, collected.changedEventsById.get? id = some event → records.id event = some id ∧ event ∈ events
  unkeyed : ∀ event ∈ collected.changedEventsWithoutId, records.id event = none ∧ event ∈ events
  seen : ∀ event ∈ events, ∀ id, records.id event = some id → (collected.changedEventsById.get? id).isSome = true
  merged : ∀ id, (collected.changedEventsById.get? id).bind records.revisionTime =
    (times records events id).foldl keepTime none

theorem shouldReplaceRevision_iff {current candidate : E} : shouldReplaceRevision records current candidate = true ↔
    ∀ t t', records.revisionTime current = some t → records.revisionTime candidate = some t' → t ≤ t' := by
  unfold shouldReplaceRevision
  cases records.revisionTime current <;> cases records.revisionTime candidate <;> simp
  omega

theorem revisionTime_kept {current candidate kept : E}
    (h : kept = if shouldReplaceRevision records current candidate then candidate else current) :
    records.revisionTime kept = keepTime (records.revisionTime current) (records.revisionTime candidate) := by
  subst h
  by_cases hreplaces : shouldReplaceRevision records current candidate = true
  · rw [if_pos hreplaces]
    rw [shouldReplaceRevision_iff] at hreplaces
    cases hcurrent : records.revisionTime current with
    | none => rfl
    | some t =>
      cases hcandidate : records.revisionTime candidate with
      | none => rfl
      | some t' => rw [keepTime, max_eq_right (hreplaces t t' hcurrent hcandidate)]
  · rw [if_neg hreplaces]
    rw [shouldReplaceRevision_iff] at hreplaces
    push Not at hreplaces
    obtain ⟨t, t', hcurrent, hcandidate, hlt⟩ := hreplaces
    rw [hcurrent, hcandidate, keepTime, max_eq_left hlt.le]

/-- An entry with an id replaces the one of its id, or is dropped. -/
theorem collectEvent_of_id (h : records.id event = some id) : ∃ kept, (∀ id',
      (collectEvent records collected event).changedEventsById.get? id' =
        if id = id' then some kept else collected.changedEventsById.get? id') ∧
    (collectEvent records collected event).changedEventsWithoutId = collected.changedEventsWithoutId ∧
    (kept = event ∨ collected.changedEventsById.get? id = some kept) ∧
    records.revisionTime kept = keepTime ((collected.changedEventsById.get? id).bind records.revisionTime)
      (records.revisionTime event) := by
  rw [collectEvent, h]
  dsimp only
  cases hcurrent : collected.changedEventsById.get? id with
  | none => exact ⟨event, fun id' => JsMap.get?_set .., rfl, Or.inl rfl, rfl⟩
  | some current =>
    have hkept := @revisionTime_kept _ records current event _ rfl
    by_cases hreplaces : shouldReplaceRevision records current event = true
    · rw [if_pos hreplaces] at hkept
      dsimp only
      rw [if_pos hreplaces]
      exact ⟨event, fun id' => JsMap.get?_set .., rfl, Or.inl rfl, hkept⟩
    · rw [if_neg hreplaces] at hkept
      dsimp only
      rw [if_neg hreplaces]
      refine ⟨current, fun id' => ?_, rfl, Or.inr rfl, hkept⟩
      split_ifs with hid
      · exact hid ▸ hcurrent
      · rfl

theorem times_append (events events' : List E) (id : String) :
    times records (events ++ events') id = times records events id ++ times records events' id := by
  rw [times, List.filter_append, List.map_append, ← times, ← times]

theorem times_singleton (event : E) (id : String) :
    times records [event] id = if records.id event = some id then [records.revisionTime event] else [] := by
  rw [times, List.filter_singleton]
  by_cases h : records.id event = some id <;> simp [h]

/-- **What is collected**, an id at a time. -/
theorem collects (records : EventRecords E) (events : List E) :
    Collects records events (events.foldl (collectEvent records) {}) := by
  induction events using List.reverseRecOn with
  | nil =>
    exact ⟨fun _ _ h => absurd h.symm (Option.some_ne_none _), fun _ h => absurd h List.not_mem_nil,
      fun _ h => absurd h List.not_mem_nil, fun _ => rfl⟩
  | append_singleton events event ih =>
    rw [List.foldl_append, List.foldl_cons, List.foldl_nil]
    generalize events.foldl (collectEvent records) {} = collected at ih
    have hleft : ∀ {other}, other ∈ events → other ∈ events ++ [event] := List.mem_append_left _
    have hlast : event ∈ events ++ [event] := List.mem_append_right _ List.mem_cons_self
    cases hid : records.id event with
    | some id =>
      obtain ⟨kept, hget, hunkeyed, hkept, htime⟩ := @collectEvent_of_id _ _ collected _ _ hid
      refine ⟨fun id' other hother => ?_, fun other hother => ?_, fun other hother id' hid' => ?_, fun id' => ?_⟩
      · rw [hget] at hother
        split_ifs at hother with hsame
        · obtain rfl := Option.some.inj hother
          subst hsame
          rcases hkept with rfl | hcurrent
          · exact ⟨hid, hlast⟩
          · exact (ih.keyed _ _ hcurrent).imp_right hleft
        · exact (ih.keyed id' other hother).imp_right hleft
      · exact (ih.unkeyed other (hunkeyed ▸ hother)).imp_right hleft
      · rw [hget]
        split_ifs with hsame
        · rfl
        · rcases List.mem_append.1 hother with hbefore | heq
          · exact ih.seen other hbefore id' hid'
          · rw [List.mem_singleton.1 heq, hid] at hid'
            exact absurd (Option.some.inj hid') hsame
      · rw [hget, times_append, times_singleton, List.foldl_append, ← ih.merged, hid]
        by_cases hsame : id = id'
        · rw [if_pos hsame, if_pos (congrArg some hsame), ← hsame]
          exact htime
        · rw [if_neg hsame, if_neg fun heq => hsame (Option.some.inj heq)]
          rfl
    | none =>
      have hget : (collectEvent records collected event).changedEventsById = collected.changedEventsById := by
        rw [collectEvent, hid]
        dsimp only
        split_ifs <;> rfl
      have hunkeyed : ∀ other ∈ (collectEvent records collected event).changedEventsWithoutId,
          other ∈ collected.changedEventsWithoutId ∨ other = event := by
        rw [collectEvent, hid]
        dsimp only
        split_ifs
        · exact fun other hother => Or.inl hother
        · exact fun other hother => (List.mem_append.1 hother).imp_right List.mem_singleton.1
      refine ⟨fun id other hother => ?_, fun other hother => ?_, fun other hother id hid' => ?_, fun id => ?_⟩
      · exact (ih.keyed id other (hget ▸ hother)).imp_right hleft
      · rcases hunkeyed other hother with hbefore | rfl
        · exact (ih.unkeyed other hbefore).imp_right hleft
        · exact ⟨hid, hlast⟩
      · rw [hget]
        rcases List.mem_append.1 hother with hbefore | heq
        · exact ih.seen other hbefore id hid'
        · rw [List.mem_singleton.1 heq, hid] at hid'
          cases hid'
      · rw [hget, times_append, times_singleton, List.foldl_append, ← ih.merged, hid,
          if_neg (Option.some_ne_none id).symm]
        rfl

/-- Of entries that have ids of their own, one is the only one of its id. -/
theorem filter_id {id : E → Option String} {events : List E} (h : (events.filterMap id).Nodup) {event : E}
    {key : String} (hmem : event ∈ events) (hkey : id event = some key) :
    events.filter (id · = some key) = [event] := by
  induction events with
  | nil => cases hmem
  | cons first events ih =>
    by_cases hfirst : id first = some key
    · rw [List.filterMap_cons_some hfirst, List.nodup_cons] at h
      have hnil : events.filter (id · = some key) = [] := List.filter_eq_nil_iff.2 fun other hother heq =>
        h.1 (List.mem_filterMap.2 ⟨other, hother, of_decide_eq_true heq⟩)
      rw [List.filter_cons_of_pos (by simp [hfirst]), hnil]
      rcases List.mem_cons.1 hmem with rfl | hmem
      · rfl
      · exact absurd (List.mem_filterMap.2 ⟨event, hmem, hkey⟩) h.1
    · rw [List.filter_cons_of_neg (by simpa using hfirst)]
      refine ih (h.sublist ((List.sublist_cons_self ..).filterMap _)) ((List.mem_cons.1 hmem).resolve_left ?_)
      rintro rfl
      exact hfirst hkey

/-- An entry that is kept has its id to itself. -/
theorem Collects.mem_latest_iff (h : Collects records events collected) (hid : records.id event = some id) :
    event ∈ collected.latest ↔ collected.changedEventsById.get? id = some event := by
  rw [CollectedEvents.latest, List.mem_append, JsMap.mem_values_iff]
  constructor
  · rintro (hunkeyed | ⟨id', hget⟩)
    · exact absurd (hid.symm.trans (h.unkeyed event hunkeyed).1) (Option.some_ne_none _)
    · exact Option.some.inj ((h.keyed id' event hget).1.symm.trans hid) ▸ hget
  · exact fun hget => Or.inr ⟨id, hget⟩

theorem Collects.filterMap_latest (h : Collects records events collected) :
    collected.latest.filterMap records.id = collected.changedEventsById.keys := by
  have hvalues : ∀ entries : List (String × E), (∀ entry ∈ entries, records.id entry.2 = some entry.1) →
      (entries.map Prod.snd).filterMap records.id = entries.map Prod.fst := by
    intro entries hentries
    rw [List.filterMap_map, ← List.filterMap_eq_map]
    exact List.filterMap_congr fun entry hentry => hentries entry hentry
  rw [CollectedEvents.latest, List.filterMap_append, List.filterMap_eq_nil_iff.2 fun other hother =>
    (h.unkeyed other hother).1, List.nil_append]
  exact hvalues _ fun entry hentry => (h.keyed entry.1 entry.2 (JsMap.mem_entries_iff.1 hentry)).1

theorem Collects.mem_ids_iff (h : Collects records events collected) :
    id ∈ collected.latest.filterMap records.id ↔ ∃ event ∈ events, records.id event = some id := by
  rw [h.filterMap_latest, ← JsMap.isSome_get?_iff]
  constructor
  · intro hsome
    obtain ⟨event, hget⟩ := Option.isSome_iff_exists.1 hsome
    exact ⟨event, (h.keyed id event hget).2, (h.keyed id event hget).1⟩
  · rintro ⟨event, hmem, hid⟩
    exact h.seen event hmem id hid

/-- What is kept of an id is one entry. -/
theorem Collects.filter_latest (h : Collects records events collected) (id : String) :
    collected.latest.filter (records.id · = some id) = (collected.changedEventsById.get? id).toList := by
  cases hget : collected.changedEventsById.get? id with
  | none =>
    refine List.filter_eq_nil_iff.2 fun event hmem heq => ?_
    cases hget.symm.trans ((h.mem_latest_iff (of_decide_eq_true heq)).1 hmem)
  | some event =>
    have hid := (h.keyed id event hget).1
    exact filter_id (h.filterMap_latest ▸ JsMap.keys_nodup _) ((h.mem_latest_iff hid).2 hget) hid

/-- **When the entries that are kept are newest**, of entries that are served in some order for each id. -/
theorem Collects.keeps_iff (h : Collects records events collected) {served : List E}
    {order : String → List (Option ℤ)}
    (horder : ∀ id, (collected.changedEventsById.get? id).bind records.revisionTime = (order id).foldl keepTime none)
    (hserved : ∀ id t, some t ∈ order id ↔
      ∃ event ∈ served, records.id event = some id ∧ records.revisionTime event = some t) :
    Keeps records served collected.latest ↔ ∀ id, IsNewestLast (order id) := by
  simp only [isNewestLast_iff, ← horder, hserved, Option.bind_eq_some_iff]
  constructor
  · rintro hkeeps id t ⟨kept, hget, ht⟩ t' ⟨event, hmem, hid, ht'⟩
    have hkeyed := (h.keyed id kept hget).1
    exact hkeeps.newest kept ((h.mem_latest_iff hkeyed).2 hget) id t hkeyed ht event hmem hid t' ht'
  · intro hnewest
    refine ⟨h.filterMap_latest ▸ JsMap.keys_nodup _, ?_⟩
    intro kept hkept id t hid ht event hmem hid' t' ht'
    exact hnewest id t ⟨kept, (h.mem_latest_iff hid).1 hkept, ht⟩ t' ⟨event, hmem, hid', ht'⟩

end Merge

/-! ## Fetches -/

section Fetches

variable {E : Type} {records : EventRecords E}

theorem collectEvent_lastToken (collected : CollectedEvents E) (token : Option String) (event : E) :
    collectEvent records { collected with lastToken := token } event =
      { collectEvent records collected event with lastToken := token } := by
  unfold collectEvent
  dsimp only
  split
  · split
    · split_ifs <;> rfl
    · rfl
  · split_ifs <;> rfl

theorem foldl_lastToken (events : List E) (collected : CollectedEvents E) (token : Option String) :
    events.foldl (collectEvent records) { collected with lastToken := token } =
      { events.foldl (collectEvent records) collected with lastToken := token } := by
  induction events generalizing collected with
  | nil => rfl
  | cons event events ih => rw [List.foldl_cons, collectEvent_lastToken, ih, List.foldl_cons]

theorem collectPages_eq {pages : List (PageAnswer E)} (h : IsWhole pages) (collected : CollectedEvents E) :
    collectPages records collected pages = .ok (some { (listing pages).foldl (collectEvent records) collected with
      lastToken := tokenAfter collected.lastToken pages }) := by
  induction pages generalizing collected with
  | nil => rfl
  | cons answer pages ih =>
    obtain ⟨events, nextToken, rfl⟩ := h answer List.mem_cons_self
    have htoken : (events.foldl (collectEvent records) collected).lastToken = collected.lastToken :=
      congrArg (·.lastToken) (foldl_lastToken events collected collected.lastToken)
    rw [collectPages, ih fun other hother => h other (List.mem_cons_of_mem _ hother), listing, List.foldl_append,
      foldl_lastToken, htoken, tokenAfter]

/-- **The entries of pages are merged as one list.** -/
theorem collectPages_of_isWhole {pages : List (PageAnswer E)} (h : IsWhole pages) :
    collectPages records (initialEvents pages) pages =
      .ok (some { (listing pages).foldl (collectEvent records) {} with lastToken := lastToken pages }) := by
  have hinitial : initialEvents pages =
      { ({} : CollectedEvents E) with lastToken := (initialEvents pages).lastToken } := by
    unfold initialEvents
    split <;> rfl
  rw [collectPages_eq h, lastToken, hinitial, foldl_lastToken]

theorem eq_none_of_collectPages {pages : List (PageAnswer E)} (h : ¬ IsWhole pages) {collected : CollectedEvents E}
    {result : Option (CollectedEvents E)} (hresult : collectPages records collected pages = .ok result) :
    result = none := by
  induction pages generalizing collected with
  | nil => exact absurd (fun _ hmem => absurd hmem List.not_mem_nil) h
  | cons answer pages ih =>
    cases answer with
    | gone => exact (Except.ok.inj hresult).symm
    | failed status => cases hresult
    | page events nextToken =>
      refine ih (fun hwhole => h fun other hother => ?_) hresult
      rcases List.mem_cons.1 hother with rfl | hmem
      · exact ⟨events, nextToken, rfl⟩
      · exact hwhole other hmem

/-- **What a fetch reads is right** where it keeps newest entries, if it is the merge of a listing. -/
theorem reads_iff_of {fetch : List (PageAnswer E) → Except ℕ (CalendarEvents E)} {served latest : List E → List E}
    {expires : List E → Prop} {isDeltaSync : Bool} {order : List E → String → List (Option ℤ)}
    (hread : ∀ pages, IsWhole pages → ¬ expires (listing pages) →
      fetch pages = .ok (toAnswer records (latest (listing pages)) isDeltaSync (lastToken pages)))
    (hexpired : ∀ pages, IsWhole pages → expires (listing pages) → fetch pages = .ok .fullSyncRequired)
    (hcut : ∀ pages answer, ¬ IsWhole pages → fetch pages = .ok answer → answer = .fullSyncRequired)
    (hkeeps : ∀ events, ¬ expires events →
      (Keeps records (served events) (latest events) ↔ ∀ id, IsNewestLast (order events id)))
    (hids : ∀ events, ¬ expires events → isDeltaSync = true → ∀ id,
      id ∈ (latest events).filterMap records.id ↔ ∃ event ∈ events, records.id event = some id)
    (pages : List (PageAnswer E)) : Reads records fetch served latest expires pages ↔
      (IsWhole pages → ¬ expires (listing pages) → ∀ id, IsNewestLast (order (listing pages) id)) := by
  constructor
  · intro h hwhole hexpires
    exact (hkeeps _ hexpires).1 (h.kept _ _ _ _ _ (hread pages hwhole hexpires)).1
  intro h
  refine ⟨fun events isDelta nextToken changed cancelled hfetch => ?_, fun answer hfetch hcases => ?_,
    fun hwhole pages' hwhole' hlisting htoken => ?_⟩
  · by_cases hwhole : IsWhole pages
    · by_cases hexpires : expires (listing pages)
      · cases (hexpired pages hwhole hexpires).symm.trans hfetch
      · have hkept := (hkeeps _ hexpires).2 (h hwhole hexpires)
        obtain ⟨rfl, -, -, rfl, rfl⟩ := CalendarEvents.read.inj
          (Except.ok.inj ((hread pages hwhole hexpires).symm.trans hfetch))
        refine ⟨hkept, rfl, fun ids hids' => ?_, fun ids hids' => ?_⟩ <;>
          obtain ⟨hdelta, hsome⟩ := Option.ite_none_right_eq_some.1 hids' <;>
          obtain rfl := Option.some.inj hsome
        · exact hids _ hexpires hdelta
        · have hmem : ∀ id, id ∈ ((latest (listing pages)).filter records.isWithheld).filterMap records.id ↔
              ∃ kept ∈ latest (listing pages), records.id kept = some id ∧ records.isWithheld kept = true := by
            simp only [List.mem_filterMap, List.mem_filter, and_assoc, and_comm (a := records.id _ = _), implies_true]
          refine ⟨hmem, fun event hevent id hid hcancelled => ?_⟩
          obtain ⟨kept, hkept', hid', hwithheld⟩ := (hmem id).1 hcancelled
          obtain ⟨hlatest, hshown⟩ := List.mem_filter.1 hevent
          have hsame : [event] = [kept] :=
            (filter_id hkept.distinct hlatest hid).symm.trans (filter_id hkept.distinct hkept' hid')
          rw [List.head_eq_of_cons_eq hsame, hwithheld] at hshown
          cases hshown
    · cases hcut pages _ hwhole hfetch
  · by_cases hwhole : IsWhole pages
    · exact Except.ok.inj (hfetch.symm.trans (hexpired pages hwhole (hcases.resolve_left (not_not.2 hwhole))))
    · exact hcut pages answer hwhole hfetch
  · by_cases hexpires : expires (listing pages)
    · rw [hexpired pages hwhole hexpires, hexpired pages' hwhole' (hlisting ▸ hexpires)]
    · rw [hread pages hwhole hexpires, hread pages' hwhole' (hlisting ▸ hexpires), hlisting, htoken]

end Fetches

/-! ## Google and Outlook -/

section Providers

variable (newDate : String → Option ℤ)

/-- The entries that Google's merge keeps of a listing. -/
def googleLatest (events : List GoogleCalendarEvent) : List GoogleCalendarEvent :=
  (events.foldl (collectEvent (googleRecords newDate)) {}).latest

/-- The entries that Outlook's merge keeps of a listing, before its masters are expanded. -/
def outlookMerged (events : List OutlookCalendarEvent) : List OutlookCalendarEvent :=
  (events.foldl (collectEvent (outlookRecords newDate)) {}).latest

def outlookInstances (instances : Option (String → List OutlookCalendarEvent)) (events : List OutlookCalendarEvent) :
    List OutlookCalendarEvent :=
  instances.elim [] fun instances => ((outlookMerged newDate events).filterMap (·.masterId)).flatMap instances

def outlookLatest (instances : Option (String → List OutlookCalendarEvent)) (events : List OutlookCalendarEvent) :
    List OutlookCalendarEvent :=
  if instances.isSome then
    deduplicateOutlookEvents newDate
      ((outlookMerged newDate events).filter (·.masterId.isNone) ++ outlookInstances newDate instances events)
  else outlookMerged newDate events

/-- A delta that lists a series master, or a removal that may be of one. -/
def OutlookExpires (isDeltaSync : Bool) (events : List OutlookCalendarEvent) : Prop :=
  isDeltaSync = true ∧ ∃ event ∈ outlookMerged newDate events,
    event.type = some seriesMasterType ∨ event.isRemoved = true ∧ truthy event.type = none

/-- The times of an id, first in the listing and then in the instances. A master that is expanded is dropped between
them, as by an entry without a time. -/
def outlookTimes (instances : Option (String → List OutlookCalendarEvent)) (events : List OutlookCalendarEvent)
    (id : String) : List (Option ℤ) :=
  times (outlookRecords newDate) events id ++
    (if instances.isSome && (outlookMerged newDate events).any (·.masterId = some id) then [none] else []) ++
    times (outlookRecords newDate) (outlookInstances newDate instances events) id

variable {newDate}

theorem some_mem_times_iff {E : Type} {records : EventRecords E} {events : List E} {id : String} {t : ℤ} :
    some t ∈ times records events id ↔
      ∃ event ∈ events, records.id event = some id ∧ records.revisionTime event = some t := by
  simp only [times, List.mem_map, List.mem_filter, decide_eq_true_eq, and_assoc]

theorem masterId_eq_some_iff (newDate : String → Option ℤ) {event : OutlookCalendarEvent} {id : String} :
    event.masterId = some id ↔ event.type = some seriesMasterType ∧ (outlookRecords newDate).id event = some id :=
  Option.ite_none_right_eq_some

/-- A master that is expanded is dropped, as by an entry without a time. -/
theorem foldl_times_unexpanded (events : List OutlookCalendarEvent) (id : String) :
    (times (outlookRecords newDate) ((outlookMerged newDate events).filter (·.masterId.isNone)) id).foldl
        keepTime none = (times (outlookRecords newDate) events id ++
        if (outlookMerged newDate events).any (·.masterId = some id) then [none] else []).foldl keepTime none := by
  have hcollects := collects (outlookRecords newDate) events
  have hany : (outlookMerged newDate events).any (·.masterId = some id) =
      ((events.foldl (collectEvent (outlookRecords newDate)) {}).changedEventsById.get? id).any
        (·.type = some seriesMasterType) := by
    rw [Bool.eq_iff_iff, List.any_eq_true, Option.any_eq_true]
    constructor
    · rintro ⟨event, hmem, heq⟩
      obtain ⟨htype, hid⟩ := (masterId_eq_some_iff newDate).1 (of_decide_eq_true heq)
      exact ⟨event, (hcollects.mem_latest_iff hid).1 hmem, decide_eq_true htype⟩
    · rintro ⟨event, hget, htype⟩
      have hid := (hcollects.keyed id event hget).1
      exact ⟨event, (hcollects.mem_latest_iff hid).2 hget,
        decide_eq_true ((masterId_eq_some_iff newDate).2 ⟨of_decide_eq_true htype, hid⟩)⟩
  rw [times, List.filter_comm, outlookMerged, hcollects.filter_latest, List.foldl_append, ← hcollects.merged]
  rw [outlookMerged] at hany
  rw [hany]
  cases hget : (events.foldl (collectEvent (outlookRecords newDate)) {}).changedEventsById.get? id with
  | none => rfl
  | some event =>
    have hid := (hcollects.keyed id event hget).1
    by_cases htype : event.type = some seriesMasterType
    · have hmaster := (masterId_eq_some_iff newDate).2 ⟨htype, hid⟩
      simp [hmaster, htype, keepTime]
    · have hmaster : event.masterId = none := if_neg htype
      simp [hmaster, htype, keepTime]

theorem fetchOutlookEvents_of_isWhole {isDeltaSync : Bool} {instances : Option (String → List OutlookCalendarEvent)}
    {pages : List (PageAnswer OutlookCalendarEvent)} (h : IsWhole pages) :
    (OutlookExpires newDate isDeltaSync (listing pages) →
      fetchOutlookEvents newDate isDeltaSync instances pages = .ok .fullSyncRequired) ∧
    (¬ OutlookExpires newDate isDeltaSync (listing pages) → fetchOutlookEvents newDate isDeltaSync instances pages =
      .ok (toAnswer (outlookRecords newDate) (outlookLatest newDate instances (listing pages)) isDeltaSync
        (lastToken pages))) := by
  have hexpires : OutlookExpires newDate isDeltaSync (listing pages) ↔
      (isDeltaSync && (outlookMerged newDate (listing pages)).any (·.type = some seriesMasterType)) = true ∨
      (isDeltaSync && (outlookMerged newDate (listing pages)).any fun event =>
        event.isRemoved && (truthy event.type).isNone) = true := by
    simp only [OutlookExpires, Bool.and_eq_true, List.any_eq_true, decide_eq_true_eq, Option.isNone_iff_eq_none]
    rw [← and_or_left, ← exists_or]
    simp only [and_or_left]
  have hlatest : (({ (listing pages).foldl (collectEvent (outlookRecords newDate)) {} with
      lastToken := lastToken pages } : CollectedEvents OutlookCalendarEvent)).latest =
        outlookMerged newDate (listing pages) := rfl
  rw [hexpires, fetchOutlookEvents, collectPages_of_isWhole h]
  dsimp only [bind, Except.bind]
  rw [hlatest]
  constructor
  · rintro (hmaster | hremoved)
    · rw [if_pos hmaster]
      rfl
    · rw [if_pos hremoved, ite_self]
      rfl
  · intro hneither
    push Not at hneither
    rw [if_neg hneither.1, if_neg hneither.2]
    cases instances <;> rfl

theorem mem_outlookTimes_iff {instances : Option (String → List OutlookCalendarEvent)}
    {events : List OutlookCalendarEvent} {id : String} {t : ℤ} : some t ∈ outlookTimes newDate instances events id ↔
      ∃ event ∈ events ++ outlookInstances newDate instances events,
        (outlookRecords newDate).id event = some id ∧ (outlookRecords newDate).revisionTime event = some t := by
  have hmark : ∀ marked : Bool, some t ∉ if marked then [(none : Option ℤ)] else [] := by simp
  simp only [outlookTimes, List.mem_append, hmark, some_mem_times_iff, or_false, or_and_right, exists_or]

/-- **When the entries that are kept are newest.** -/
theorem keeps_outlookLatest_iff (instances : Option (String → List OutlookCalendarEvent))
    (events : List OutlookCalendarEvent) :
    Keeps (outlookRecords newDate) (events ++ outlookInstances newDate instances events)
      (outlookLatest newDate instances events) ↔ ∀ id, IsNewestLast (outlookTimes newDate instances events id) := by
  cases instances with
  | none =>
    refine (collects (outlookRecords newDate) events).keeps_iff (fun id => ?_) fun _ _ => mem_outlookTimes_iff
    rw [(collects (outlookRecords newDate) events).merged, outlookTimes, outlookInstances]
    simp [times]
  | some instances =>
    have hcollects := collects { outlookRecords newDate with isRemoved := fun _ => false }
      ((outlookMerged newDate events).filter (·.masterId.isNone) ++ outlookInstances newDate (some instances) events)
    refine Iff.trans ⟨fun h => ⟨h.distinct, h.newest⟩, fun h => ⟨h.distinct, h.newest⟩⟩
      (hcollects.keeps_iff (fun id => ?_) fun _ _ => mem_outlookTimes_iff)
    refine (hcollects.merged id).trans ?_
    rw [times_append, List.foldl_append, outlookTimes, List.foldl_append]
    exact congrArg (fun time => List.foldl keepTime time _) (foldl_times_unexpanded events id)

theorem mem_ids_outlookLatest {instances : Option (String → List OutlookCalendarEvent)}
    {events : List OutlookCalendarEvent} (h : ¬ OutlookExpires newDate true events) {id : String} :
    id ∈ (outlookLatest newDate instances events).filterMap (outlookRecords newDate).id ↔
      ∃ event ∈ events, (outlookRecords newDate).id event = some id := by
  have hmerged : id ∈ (outlookMerged newDate events).filterMap (outlookRecords newDate).id ↔ _ :=
    (collects (outlookRecords newDate) events).mem_ids_iff
  cases instances with
  | none => exact hmerged
  | some instances =>
    have hplain : ∀ event ∈ outlookMerged newDate events, event.masterId = none :=
      fun event hmem => if_neg fun htype => h ⟨rfl, event, hmem, Or.inl htype⟩
    have hfilter : (outlookMerged newDate events).filter (·.masterId.isNone) = outlookMerged newDate events :=
      List.filter_eq_self.2 fun event hmem => Option.isNone_iff_eq_none.2 (hplain event hmem)
    have hinstances : outlookInstances newDate (some instances) events = [] := by
      rw [outlookInstances, Option.elim_some, List.filterMap_eq_nil_iff.2 hplain]
      rfl
    rw [outlookLatest, if_pos Option.isSome_some, hfilter, hinstances, List.append_nil]
    refine (collects { outlookRecords newDate with isRemoved := fun _ => false } _).mem_ids_iff.trans ?_
    rw [← hmerged, List.mem_filterMap]

/-- **What a fetch reads is right** exactly where, for each id, the newest entry is among those that follow the last
one without a time. -/
theorem reads_iff (newDate : String → Option ℤ) (isDeltaSync : Bool) :
    (∀ pages, Reads (googleRecords newDate) (fetchGoogleEvents newDate isDeltaSync) id (googleLatest newDate)
        (fun _ => False) pages ↔
      (IsWhole pages → ∀ id, IsNewestLast (times (googleRecords newDate) (listing pages) id))) ∧
    ∀ instances pages, Reads (outlookRecords newDate) (fetchOutlookEvents newDate isDeltaSync instances)
        (fun events => events ++ outlookInstances newDate instances events) (outlookLatest newDate instances)
        (OutlookExpires newDate isDeltaSync) pages ↔
      (IsWhole pages → ¬ OutlookExpires newDate isDeltaSync (listing pages) →
        ∀ id, IsNewestLast (outlookTimes newDate instances (listing pages) id)) := by
  refine ⟨fun pages => ?_, fun instances pages => ?_⟩
  · have hnever : ∀ pages' answer, ¬ IsWhole pages' → fetchGoogleEvents newDate isDeltaSync pages' = .ok answer →
        answer = .fullSyncRequired := by
      intro pages' answer hcut hfetch
      rw [fetchGoogleEvents] at hfetch
      obtain ⟨result, hresult, hanswer⟩ := bind_eq_ok_iff.1 hfetch
      rw [eq_none_of_collectPages hcut hresult] at hanswer
      exact (Except.ok.inj hanswer).symm
    have hread : ∀ pages', IsWhole pages' → ¬ False → fetchGoogleEvents newDate isDeltaSync pages' =
        .ok (toAnswer (googleRecords newDate) (googleLatest newDate (listing pages')) isDeltaSync
          (lastToken pages')) := by
      intro pages' hwhole _
      rw [fetchGoogleEvents, collectPages_of_isWhole hwhole]
      rfl
    have hcollects := collects (googleRecords newDate)
    refine (reads_iff_of hread (fun _ _ hfalse => hfalse.elim) hnever
      (fun events _ => (hcollects events).keeps_iff (hcollects events).merged fun _ _ => some_mem_times_iff)
      (fun events _ _ id => (hcollects events).mem_ids_iff) pages).trans ?_
    simp
  · refine reads_iff_of (fun pages' hwhole => (fetchOutlookEvents_of_isWhole hwhole).2)
      (fun pages' hwhole => (fetchOutlookEvents_of_isWhole hwhole).1) ?_
      (fun events _ => keeps_outlookLatest_iff instances events) ?_ pages
    · intro pages' answer hcut hfetch
      rw [fetchOutlookEvents] at hfetch
      obtain ⟨result, hresult, hanswer⟩ := bind_eq_ok_iff.1 hfetch
      rw [eq_none_of_collectPages hcut hresult] at hanswer
      exact (Except.ok.inj hanswer).symm
    · rintro events hexpires rfl id
      exact mem_ids_outlookLatest hexpires

/-- After an entry without a time, an older revision replaces a newer one. -/
theorem not_reads : ¬ ∀ (newDate : String → Option ℤ) (isDeltaSync : Bool)
    (pages : List (PageAnswer GoogleCalendarEvent)), Reads (googleRecords newDate)
      (fetchGoogleEvents newDate isDeltaSync) id (googleLatest newDate) (fun _ => False) pages := by
  intro h
  have hreads := h (fun text =>
      if text = "2026-03-05T00:00:00Z" then some 1772668800000
      else if text = "2026-03-03T00:00:00Z" then some 1772496000000 else none) true
    [.page [{ id := some "standup", updated := some "2026-03-05T00:00:00Z" }, { id := some "standup" },
      { id := some "standup", updated := some "2026-03-03T00:00:00Z" }] (some "token")]
  have hnewest := (hreads.kept _ _ _ _ _ rfl).1.newest
  have holder : (1772668800000 : ℤ) ≤ 1772496000000 := hnewest _ List.mem_cons_self "standup" _ rfl rfl _
    List.mem_cons_self rfl _ rfl
  exact absurd holder (by decide)

end Providers

end Listings

end Keeper
