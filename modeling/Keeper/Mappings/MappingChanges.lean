import Keeper.Foundations.JsArray
import Mathlib

/-!
# Changes of the mappings of a user

`runChangeDestinationsForSource` and `runChangeSourcesForDestination` of
`services/api/src/utils/source-destination-mappings.ts`, with `mapping-change.ts`: a transaction takes the lock of
its user, reads, checks and writes the mappings of one calendar. The statements of several transactions are
interleaved; a statement sees what is committed and what its own transaction has written.

* `Inv.step`: what a transaction has read is still there when it commits.
* `keepsMappings`: the limit and the ownership of mappings survive every interleaving.
-/

namespace Keeper

namespace Mappings

/-! ## Changes -/

inductive MappingChange
  | replace (calendarIds : List String)
  | toggle (calendarId : String) (enabled : Bool)
  deriving DecidableEq

structure MappingChangeResult where
  previousIds : List String
  nextIds : List String
  deriving DecidableEq

def resolveMappedIds (currentIds : List String) : MappingChange → List String
  | .replace calendarIds => calendarIds.eraseDups
  | .toggle calendarId true => (currentIds ++ [calendarId]).eraseDups
  | .toggle calendarId false => currentIds.filter (· ≠ calendarId)

def listNewlyMappedIds (result : MappingChangeResult) : List String :=
  result.nextIds.filter (· ∉ result.previousIds)

/-! ## Tables -/

/-- A row of `calendarsTable`. -/
structure Calendar where
  userId : String
  capabilities : List String

abbrev Calendars : Type := String → Option Calendar

/-- A row of `sourceDestinationMappingsTable`. -/
structure Mapping where
  id : ℕ
  sourceCalendarId : String
  destinationCalendarId : String
  deriving DecidableEq

/-- The end of the mappings at which a change is made. -/
inductive End
  | source
  | destination
  deriving DecidableEq

def Mapping.at (row : Mapping) : End → String
  | .source => row.sourceCalendarId
  | .destination => row.destinationCalendarId

def End.other : End → End
  | .source => .destination
  | .destination => .source

variable (calendars : Calendars)

def isOwned (userId calendarId : String) : Bool :=
  match calendars calendarId with
  | some calendar => calendar.userId = userId
  | none => false

/-- `arrayContains(calendarsTable.capabilities, ["push"])`. -/
def isPushable (calendarId : String) : Bool :=
  match calendars calendarId with
  | some calendar => calendar.capabilities.contains "push"
  | none => false

/-- `countUserMappings`: the rows whose source is a calendar of the user. -/
def countUserMappings (userId : String) (rows : List Mapping) : ℕ :=
  rows.countP fun row => isOwned calendars userId row.sourceCalendarId

/-- `sourceExists` and `destinationExists`. -/
def calendarExists (side : End) (userId calendarId : String) : Bool :=
  match side with
  | .source => isOwned calendars userId calendarId
  | .destination => isOwned calendars userId calendarId && isPushable calendars calendarId

/-- `findOwnedDestinationIds`, when a source is changed, and `findOwnedSourceIds`. -/
def findOwnedIds (side : End) (userId : String) (calendarIds : List String) : List String :=
  match side with
  | .source => calendarIds.filter fun id => isOwned calendars userId id && isPushable calendars id
  | .destination => calendarIds.filter fun id => isOwned calendars userId id

/-- `listSourceDestinationIds` and `listDestinationSourceIds`. -/
def listMappedIds (side : End) (calendarId : String) (rows : List Mapping) : List String :=
  (rows.filter (·.at side = calendarId)).map (·.at side.other)

/-- A limit, which may be infinite, is compared with a number. -/
instance decidableLimitLT (limit : WithTop ℤ) (n : ℤ) : Decidable (limit < (n : WithTop ℤ)) :=
  match limit with
  | none => isFalse not_top_lt
  | some limit => decidable_of_iff (limit < n) WithTop.coe_lt_coe.symm

def exceedsMappingLimit (mappingLimit : Option (WithTop ℤ)) (result : MappingChangeResult)
    (currentMappingCount : ℕ) : Bool :=
  match mappingLimit with
  | none => false
  | some mappingLimit =>
    if result.nextIds.length ≤ result.previousIds.length then false
    else
      decide (mappingLimit <
        ((currentMappingCount - result.previousIds.length + result.nextIds.length : ℤ) : WithTop ℤ))

/-- The error of `runChangeDestinationsForSource` or `runChangeSourcesForDestination` for a calendar that does
not exist. -/
def calendarNotFound : End → String
  | .source => "Source calendar not found"
  | .destination => "Destination calendar not found"

/-- Their error for newly mapped calendars that are not owned. -/
def calendarsNotFound : End → String
  | .source => "Some destination calendars not found"
  | .destination => "Some source calendars not found"

/-- `MAPPING_LIMIT_ERROR_MESSAGE`. -/
def MAPPING_LIMIT_ERROR_MESSAGE : String :=
  "Mapping limit reached. Upgrade to Pro for unlimited sync mappings."

/-! ## Transactions -/

/-- A call: `changeDestinationsForSource` changes the `source` end, and the limit has been resolved. -/
structure Request where
  side : End
  userId : String
  calendarId : String
  change : MappingChange
  mappingLimit : Option (WithTop ℤ)

/-- The statement of a transaction that is next. -/
inductive Phase
  | acquireUserLock
  | calendarExists
  | listMappedIds
  | findOwnedIds (result : MappingChangeResult)
  | countUserMappings (result : MappingChangeResult)
  | deleteMappings (result : MappingChangeResult)
  | insertMappings (result : MappingChangeResult)
  | commit (result : MappingChangeResult)
  deriving DecidableEq

/-- A transaction, and the rows that it has deleted and inserted. -/
structure Transaction where
  request : Request
  phase : Phase := .acquireUserLock
  deleted : List Mapping := []
  inserted : List Mapping := []

def Transaction.apply (transaction : Transaction) (rows : List Mapping) : List Mapping :=
  rows.filter (· ∉ transaction.deleted) ++ transaction.inserted

def Request.mapping (request : Request) (id : ℕ) (other : String) : Mapping :=
  match request.side with
  | .source => ⟨id, request.calendarId, other⟩
  | .destination => ⟨id, other, request.calendarId⟩

/-- `INSERT ... ON CONFLICT DO NOTHING` of the mappings of a calendar: the rows that are new. -/
def insertRows (request : Request) (nextId : ℕ) (view : List Mapping) : List String → List Mapping
  | [] => []
  | other :: others =>
    if view.any fun row => row.at request.side = request.calendarId ∧ row.at request.side.other = other then
      insertRows request nextId view others
    else
      let row := request.mapping nextId other
      row :: insertRows request (nextId + 1) (view ++ [row]) others

/-- The next statement of a transaction that has its lock, on the rows that are committed, or its error. -/
def Transaction.execute (rows : List Mapping) (nextId : ℕ) (transaction : Transaction) :
    Except String Transaction :=
  let request := transaction.request
  let view := transaction.apply rows
  match transaction.phase with
  | .acquireUserLock => .ok transaction
  | .calendarExists =>
    if calendarExists calendars request.side request.userId request.calendarId then
      .ok { transaction with phase := .listMappedIds }
    else .error (calendarNotFound request.side)
  | .listMappedIds =>
    let previousIds := listMappedIds request.side request.calendarId view
    .ok { transaction with phase := .findOwnedIds ⟨previousIds, resolveMappedIds previousIds request.change⟩ }
  | .findOwnedIds result =>
    let newlyMappedIds := listNewlyMappedIds result
    let validIds := findOwnedIds calendars request.side request.userId newlyMappedIds
    if (newlyMappedIds.filter (· ∉ validIds)).length > 0 then .error (calendarsNotFound request.side)
    else .ok { transaction with phase := .countUserMappings result }
  | .countUserMappings result =>
    if exceedsMappingLimit request.mappingLimit result
        (countUserMappings calendars request.userId view) then
      .error MAPPING_LIMIT_ERROR_MESSAGE
    else .ok { transaction with phase := .deleteMappings result }
  | .deleteMappings result =>
    let deleted := view.filter fun row => row.at request.side = request.calendarId ∧
      (result.nextIds.length = 0 ∨ row.at request.side.other ∉ result.nextIds)
    .ok { transaction with phase := .insertMappings result, deleted }
  | .insertMappings result =>
    .ok { transaction with
      phase := .commit result
      inserted := insertRows request nextId view result.nextIds }
  | .commit _ => .ok transaction

/-! ## Interleavings -/

/-- The committed rows, and the transactions that are open. -/
structure State where
  rows : List Mapping
  nextId : ℕ
  sessions : ℕ → Option Transaction

def State.set (s : State) (session : ℕ) (transaction : Option Transaction) : State :=
  { s with sessions := Function.update s.sessions session transaction }

/-- Two mappings never link the same calendars, and the calendars of one have one user. -/
structure Consistent (rows : List Mapping) : Prop where
  unique : (rows.map fun row => (row.sourceCalendarId, row.destinationCalendarId)).Nodup
  owned : ∀ row ∈ rows, ∃ userId, isOwned calendars userId row.sourceCalendarId = true ∧
    isOwned calendars userId row.destinationCalendarId = true

/-- What a step has done: it has committed a change, or ended one with an error, or neither. -/
inductive Outcome
  | committed (request : Request)
  | raised (request : Request)
  | going

/-- One statement of one session. `hashtext` gives the key of the lock of a user. -/
inductive Step (hashtext : String → ℤ) (s : State) : Outcome → State → Prop
  | begin (session : ℕ) (request : Request) (h : s.sessions session = none) :
    Step hashtext s .going (s.set session (some { request }))
  | acquireUserLock {session : ℕ} {transaction : Transaction}
    (h : s.sessions session = some transaction) (hphase : transaction.phase = .acquireUserLock)
    (hfree : ∀ session' transaction', s.sessions session' = some transaction' →
      transaction'.phase ≠ .acquireUserLock →
        hashtext transaction'.request.userId ≠ hashtext transaction.request.userId) :
    Step hashtext s .going (s.set session (some { transaction with phase := .calendarExists }))
  | execute {session : ℕ} {transaction transaction' : Transaction}
    (h : s.sessions session = some transaction) (hphase : transaction.phase ≠ .acquireUserLock)
    (hcommit : ∀ result, transaction.phase ≠ .commit result)
    (hexecute : transaction.execute calendars s.rows s.nextId = .ok transaction') :
    Step hashtext s .going { s.set session (some transaction') with
      nextId := s.nextId + transaction'.inserted.length }
  | raise {session : ℕ} {transaction : Transaction} {error : String}
    (h : s.sessions session = some transaction)
    (hexecute : transaction.execute calendars s.rows s.nextId = .error error) :
    Step hashtext s (.raised transaction.request) (s.set session none)
  /-- A statement or the connection fails. -/
  | fail {session : ℕ} {transaction : Transaction} (h : s.sessions session = some transaction) :
    Step hashtext s (.raised transaction.request) (s.set session none)
  | commit {session : ℕ} {transaction : Transaction} {result : MappingChangeResult}
    (h : s.sessions session = some transaction) (hphase : transaction.phase = .commit result) :
    Step hashtext s (.committed transaction.request)
      { s.set session none with rows := transaction.apply s.rows }

/-- The states that are reached from consistent rows, when no transaction is open. -/
inductive Reaches (hashtext : String → ℤ) : State → Prop
  | start {rows : List Mapping} (h : Consistent calendars rows) (nextId : ℕ) :
    Reaches hashtext ⟨rows, nextId, fun _ => none⟩
  | step {s s' : State} {outcome : Outcome} (h : Reaches hashtext s)
    (hstep : Step calendars hashtext s outcome s') : Reaches hashtext s'

/-! ## What a transaction has checked -/

def rowsOf (userId : String) (rows : List Mapping) : List Mapping :=
  rows.filter fun row => isOwned calendars userId row.sourceCalendarId

/-- A calendar that a change of this end may map: one of the user, and a destination must be pushable. -/
def Mappable (side : End) (userId calendarId : String) : Prop :=
  isOwned calendars userId calendarId = true ∧
    (side = .source → isPushable calendars calendarId = true)

/-- What a transaction has read of the rows of its user. -/
def Request.resultOn (request : Request) (rows : List Mapping) : MappingChangeResult :=
  let previousIds := listMappedIds request.side request.calendarId rows
  ⟨previousIds, resolveMappedIds previousIds request.change⟩

def Request.dropped (request : Request) (result : MappingChangeResult) (rows : List Mapping) :
    List Mapping :=
  rows.filter fun row => row.at request.side = request.calendarId ∧
    row.at request.side.other ∉ result.nextIds

/-- All that a transaction checks. -/
structure Checked (rows : List Mapping) (request : Request) (result : MappingChangeResult) : Prop where
  found : calendarExists calendars request.side request.userId request.calendarId = true
  listed : result = request.resultOn rows
  owned : ∀ id ∈ listNewlyMappedIds result, Mappable calendars request.side request.userId id
  allowed : exceedsMappingLimit request.mappingLimit result rows.length = false

/-- What holds of a transaction at its next statement, when these are the rows of its user. -/
def Transaction.Sound (rows : List Mapping) (transaction : Transaction) : Prop :=
  let request := transaction.request
  match transaction.phase with
  | .acquireUserLock | .calendarExists => transaction.deleted = [] ∧ transaction.inserted = []
  | .listMappedIds => transaction.deleted = [] ∧ transaction.inserted = [] ∧
    calendarExists calendars request.side request.userId request.calendarId = true
  | .findOwnedIds result => transaction.deleted = [] ∧ transaction.inserted = [] ∧
    calendarExists calendars request.side request.userId request.calendarId = true ∧
      result = request.resultOn rows
  | .countUserMappings result => transaction.deleted = [] ∧ transaction.inserted = [] ∧
    calendarExists calendars request.side request.userId request.calendarId = true ∧
      result = request.resultOn rows ∧
        ∀ id ∈ listNewlyMappedIds result, Mappable calendars request.side request.userId id
  | .deleteMappings result => transaction.deleted = [] ∧ transaction.inserted = [] ∧
    Checked calendars rows request result
  | .insertMappings result => transaction.deleted = request.dropped result rows ∧
    transaction.inserted = [] ∧ Checked calendars rows request result
  | .commit result => transaction.deleted = request.dropped result rows ∧
    (∀ row ∈ transaction.inserted, row.at request.side = request.calendarId) ∧
      transaction.inserted.map (·.at request.side.other) = listNewlyMappedIds result ∧
        Checked calendars rows request result

/-- What every step keeps. -/
structure Inv (hashtext : String → ℤ) (s : State) : Prop where
  consistent : Consistent calendars s.rows
  exclusive : ∀ session session' transaction transaction', s.sessions session = some transaction →
    s.sessions session' = some transaction' → transaction.phase ≠ .acquireUserLock →
      transaction'.phase ≠ .acquireUserLock →
        hashtext transaction.request.userId = hashtext transaction'.request.userId → session = session'
  sound : ∀ session transaction, s.sessions session = some transaction →
    transaction.Sound calendars (rowsOf calendars transaction.request.userId s.rows)

section

variable {calendars} {request : Request} {result : MappingChangeResult} {rows : List Mapping}

variable {userId calendarId : String} {side : End} {hashtext : String → ℤ}

theorem isOwned_unique {userId' : String} (h : isOwned calendars userId calendarId = true)
    (h' : isOwned calendars userId' calendarId = true) : userId = userId' := by
  unfold isOwned at h h'
  split at h
  · rename_i calendar hcalendar
    rw [hcalendar] at h'
    exact (of_decide_eq_true h).symm.trans (of_decide_eq_true h')
  · cases h

theorem Consistent.isOwned_at (h : Consistent calendars rows) {row : Mapping} (hrow : row ∈ rows) (side side' : End)
    (hside : isOwned calendars userId (row.at side) = true) : isOwned calendars userId (row.at side') = true := by
  obtain ⟨userId', hsource, hdestination⟩ := h.owned row hrow
  have heq : userId = userId' := by
    cases side with
    | source => exact isOwned_unique hside hsource
    | destination => exact isOwned_unique hside hdestination
  subst heq
  cases side' with
  | source => exact hsource
  | destination => exact hdestination

theorem nodup_resolveMappedIds {currentIds : List String} (h : currentIds.Nodup)
    (change : MappingChange) : (resolveMappedIds currentIds change).Nodup := by
  cases change with
  | replace calendarIds => exact JsArray.nodup_eraseDups _
  | toggle calendarId enabled =>
    cases enabled with
    | true => exact JsArray.nodup_eraseDups _
    | false => exact h.filter _

theorem Consistent.nodup (h : Consistent calendars rows) : rows.Nodup := List.Nodup.of_map _ h.unique

theorem Consistent.eq_of_at (h : Consistent calendars rows) {row row' : Mapping} (hrow : row ∈ rows)
    (hrow' : row' ∈ rows) (hside : row.at side = row'.at side) (hother : row.at side.other = row'.at side.other) :
    row = row' := by
  refine List.inj_on_of_nodup_map h.unique hrow hrow' ?_
  cases side with
  | source => exact Prod.ext hside hother
  | destination => exact Prod.ext hother hside

theorem mem_listMappedIds {id : String} : id ∈ listMappedIds side calendarId rows ↔
      ∃ row ∈ rows, row.at side = calendarId ∧ row.at side.other = id := by
  simp [listMappedIds, and_assoc]

theorem Consistent.nodup_listMappedIds (h : Consistent calendars rows) (side : End)
    (calendarId : String) : (listMappedIds side calendarId rows).Nodup := by
  refine List.Nodup.map_on ?_ (h.nodup.filter _)
  intro row hrow row' hrow' hother
  obtain ⟨hrow, hside⟩ := List.mem_filter.1 hrow
  obtain ⟨hrow', hside'⟩ := List.mem_filter.1 hrow'
  exact h.eq_of_at hrow hrow' ((of_decide_eq_true hside).trans (of_decide_eq_true hside').symm) hother

theorem isOwned_of_calendarExists (h : calendarExists calendars side userId calendarId = true) :
    isOwned calendars userId calendarId = true := by
  cases side with
  | source => exact h
  | destination => exact (Bool.and_eq_true_iff.1 h).1

theorem Consistent.filter_rowsOf (h : Consistent calendars rows) (side : End)
    (howned : isOwned calendars userId calendarId = true) (p : Mapping → Bool) :
    (rowsOf calendars userId rows).filter (fun row => row.at side = calendarId ∧ p row) =
      rows.filter fun row => row.at side = calendarId ∧ p row := by
  rw [rowsOf, List.filter_filter]
  refine List.filter_congr fun row hrow => ?_
  by_cases hside : row.at side = calendarId
  · have hsource := h.isOwned_at hrow side .source (hside ▸ howned)
    simp [hside, show isOwned calendars userId row.sourceCalendarId = true from hsource]
  · simp [hside]

/-- The rows that are inserted: one for each calendar that is not mapped yet. -/
theorem insertRows_spec (request : Request) (nextId : ℕ) (view : List Mapping) {ids : List String} (hids : ids.Nodup) :
    (insertRows request nextId view ids).map (·.at request.side.other) =
        ids.filter (· ∉ listMappedIds request.side request.calendarId view) ∧
      ∀ row ∈ insertRows request nextId view ids, row.at request.side = request.calendarId := by
  induction ids generalizing nextId view with
  | nil => exact ⟨rfl, by simp [insertRows]⟩
  | cons id ids ih =>
    obtain ⟨hid, hids⟩ := List.nodup_cons.1 hids
    have hmapped : (view.any fun row => row.at request.side = request.calendarId ∧
        row.at request.side.other = id) = true ↔
          id ∈ listMappedIds request.side request.calendarId view := by
      simp [mem_listMappedIds]
    have hnew : (request.mapping nextId id).at request.side = request.calendarId ∧
        (request.mapping nextId id).at request.side.other = id := by
      unfold Request.mapping
      cases request.side <;> exact ⟨rfl, rfl⟩
    rw [insertRows]
    split_ifs with hany
    · rw [List.filter_cons_of_neg (by simpa using hmapped.1 hany)]
      exact ih nextId view hids
    · obtain ⟨hmap, hside⟩ := ih (nextId + 1) (view ++ [request.mapping nextId id]) hids
      rw [List.filter_cons_of_pos (by simpa using fun hmem => hany (hmapped.2 hmem))]
      refine ⟨?_, ?_⟩
      · rw [List.map_cons, hmap, hnew.2]
        congr 1
        refine List.filter_congr fun other hother => ?_
        have hne : other ≠ id := fun heq => hid (heq ▸ hother)
        simp [mem_listMappedIds, or_and_right, exists_or, hnew.1, hnew.2, hne.symm]
      · intro row hrow
        rcases List.mem_cons.1 hrow with rfl | hrow
        · exact hnew.1
        · exact hside row hrow

/-! ## What a commit does -/

theorem resultOn_rowsOf (h : Consistent calendars rows)
    (howned : isOwned calendars request.userId request.calendarId = true) :
    request.resultOn (rowsOf calendars request.userId rows) = request.resultOn rows := by
  have hfilter := h.filter_rowsOf request.side howned fun _ => true
  simp only [and_true] at hfilter
  rw [Request.resultOn, Request.resultOn, listMappedIds, listMappedIds, hfilter]

theorem dropped_rowsOf (h : Consistent calendars rows)
    (howned : isOwned calendars request.userId request.calendarId = true)
    (result : MappingChangeResult) :
    request.dropped result (rowsOf calendars request.userId rows) = request.dropped result rows := by
  have hfilter := h.filter_rowsOf request.side howned
    fun row => decide (row.at request.side.other ∉ result.nextIds)
  simpa only [decide_eq_true_eq, Request.dropped] using hfilter

structure Committing (calendars : Calendars) (rows : List Mapping) (transaction : Transaction)
    (result : MappingChangeResult) : Prop where
  consistent : Consistent calendars rows
  owned : isOwned calendars transaction.request.userId transaction.request.calendarId = true
  pushable : transaction.request.side = .destination →
    isPushable calendars transaction.request.calendarId = true
  mem_deleted : ∀ row ∈ rows, row ∈ transaction.deleted ↔
    row.at transaction.request.side = transaction.request.calendarId ∧
      row.at transaction.request.side.other ∉ result.nextIds
  inserted_at : ∀ row ∈ transaction.inserted,
    row.at transaction.request.side = transaction.request.calendarId
  inserted : transaction.inserted.map (·.at transaction.request.side.other) = listNewlyMappedIds result
  listed : result = transaction.request.resultOn rows
  mappable : ∀ id ∈ listNewlyMappedIds result,
    Mappable calendars transaction.request.side transaction.request.userId id
  allowed : exceedsMappingLimit transaction.request.mappingLimit result
    (countUserMappings calendars transaction.request.userId rows) = false

theorem Transaction.Sound.committing (h : Consistent calendars rows) {transaction : Transaction}
    (hsound : transaction.Sound calendars (rowsOf calendars transaction.request.userId rows))
    (hphase : transaction.phase = .commit result) : Committing calendars rows transaction result := by
  simp only [Transaction.Sound, hphase] at hsound
  obtain ⟨hdeleted, hat, hinserted, hchecked⟩ := hsound
  have howned := isOwned_of_calendarExists hchecked.found
  rw [dropped_rowsOf h howned] at hdeleted
  refine ⟨h, howned, fun hside => ?_, fun row hrow => ?_, hat, hinserted, ?_, hchecked.owned, ?_⟩
  · have hfound := hchecked.found
    rw [hside] at hfound
    exact (Bool.and_eq_true_iff.1 hfound).2
  · rw [hdeleted, Request.dropped, List.mem_filter, and_iff_right hrow, decide_eq_true_eq]
  · rw [hchecked.listed, resultOn_rowsOf h howned]
  · have hallowed := hchecked.allowed
    rwa [rowsOf, ← List.countP_eq_length_filter] at hallowed

namespace Committing

variable {transaction : Transaction}

theorem mem_inserted (h : Committing calendars rows transaction result) {row : Mapping}
    (hrow : row ∈ transaction.inserted) :
    row.at transaction.request.side = transaction.request.calendarId ∧
      row.at transaction.request.side.other ∈ listNewlyMappedIds result :=
  ⟨h.inserted_at row hrow, h.inserted ▸ List.mem_map_of_mem hrow⟩

/-- An inserted row links two calendars of the user, and its destination is pushable. -/
theorem inserted_owned (h : Committing calendars rows transaction result) {row : Mapping}
    (hrow : row ∈ transaction.inserted) :
    isOwned calendars transaction.request.userId row.sourceCalendarId = true ∧
      isOwned calendars transaction.request.userId row.destinationCalendarId = true ∧
        isPushable calendars row.destinationCalendarId = true := by
  obtain ⟨hat, hnew⟩ := h.mem_inserted hrow
  have howned := h.owned
  have hpushable := h.pushable
  have hmappable := h.mappable _ hnew
  rw [← hat] at howned hpushable
  unfold Mappable at hmappable
  cases hside : transaction.request.side with
  | source =>
    rw [hside] at howned hmappable
    exact ⟨howned, hmappable.1, hmappable.2 rfl⟩
  | destination =>
    rw [hside] at howned hmappable hpushable
    exact ⟨hmappable.1, howned, hpushable rfl⟩

theorem nodup_previousIds (h : Committing calendars rows transaction result) :
    result.previousIds.Nodup := by
  rw [h.listed]
  exact h.consistent.nodup_listMappedIds _ _

theorem nodup_nextIds (h : Committing calendars rows transaction result) : result.nextIds.Nodup := by
  rw [h.listed]
  exact nodup_resolveMappedIds (h.consistent.nodup_listMappedIds _ _) _

/-- The calendars that are mapped after the commit: the kept ones, and the new ones. -/
theorem listMappedIds_apply (h : Committing calendars rows transaction result) :
    listMappedIds transaction.request.side transaction.request.calendarId (transaction.apply rows) =
      result.previousIds.filter (· ∈ result.nextIds) ++ listNewlyMappedIds result := by
  have hprevious : result.previousIds =
      listMappedIds transaction.request.side transaction.request.calendarId rows := by
    rw [h.listed]
    rfl
  rw [hprevious, ← h.inserted, listMappedIds, listMappedIds, Transaction.apply, List.filter_append,
    List.map_append, List.filter_map, List.filter_filter, List.filter_filter,
    List.filter_eq_self.2 fun row hrow => decide_eq_true (h.inserted_at row hrow)]
  congr 2
  refine List.filter_congr fun row hrow => ?_
  have hdeleted := h.mem_deleted row hrow
  by_cases hat : row.at transaction.request.side = transaction.request.calendarId
  · by_cases hnext : row.at transaction.request.side.other ∈ result.nextIds <;>
      simp [hdeleted, hat, hnext]
  · simp [hat]

/-- **The rows of the calendar** are those that the change resolves to. -/
theorem listMappedIds_perm (h : Committing calendars rows transaction result) :
    (listMappedIds transaction.request.side transaction.request.calendarId
      (transaction.apply rows)).Perm result.nextIds := by
  rw [h.listMappedIds_apply]
  refine (List.perm_ext_iff_of_nodup ?_ h.nodup_nextIds).2 fun id => ?_
  · refine List.nodup_append.2 ⟨h.nodup_previousIds.filter _, h.nodup_nextIds.filter _, ?_⟩
    rintro id hprevious id' hnew rfl
    exact of_decide_eq_true (List.mem_filter.1 hnew).2 (List.mem_filter.1 hprevious).1
  · by_cases hprevious : id ∈ result.previousIds <;> simp [listNewlyMappedIds, hprevious]

theorem length_filter_add (h : Committing calendars rows transaction result) :
    (result.previousIds.filter (· ∈ result.nextIds)).length + (listNewlyMappedIds result).length =
      result.nextIds.length := by
  rw [← List.length_append, ← h.listMappedIds_apply, h.listMappedIds_perm.length_eq]

/-- **The total of the user** changes by the lengths of the lists. -/
theorem countUserMappings_apply (h : Committing calendars rows transaction result) :
    countUserMappings calendars transaction.request.userId (transaction.apply rows) +
        result.previousIds.length =
      countUserMappings calendars transaction.request.userId rows + result.nextIds.length := by
  have hprevious : result.previousIds =
      listMappedIds transaction.request.side transaction.request.calendarId rows := by
    rw [h.listed]
    rfl
  have hdeleted : (rows.filter (· ∈ transaction.deleted)).length =
      (result.previousIds.filter (· ∉ result.nextIds)).length := by
    rw [hprevious, listMappedIds, List.filter_map, List.length_map, List.filter_filter]
    congr 1
    refine List.filter_congr fun row hrow => ?_
    simp [h.mem_deleted row hrow, Bool.and_comm]
  have howned : (rows.filter (· ∈ transaction.deleted)).countP
      (fun row => isOwned calendars transaction.request.userId row.sourceCalendarId) =
        (rows.filter (· ∈ transaction.deleted)).length := by
    rw [List.countP_eq_length]
    intro row hrow
    obtain ⟨hrow, hmem⟩ := List.mem_filter.1 hrow
    obtain ⟨hat, -⟩ := (h.mem_deleted row hrow).1 (of_decide_eq_true hmem)
    exact h.consistent.isOwned_at hrow transaction.request.side .source (hat ▸ h.owned)
  have hinserted : transaction.inserted.countP
      (fun row => isOwned calendars transaction.request.userId row.sourceCalendarId) =
        (listNewlyMappedIds result).length := by
    rw [← h.inserted, List.length_map, List.countP_eq_length]
    exact fun row hrow => (h.inserted_owned hrow).1
  have hsplit := List.countP_eq_countP_filter_add rows
    (fun row => isOwned calendars transaction.request.userId row.sourceCalendarId)
    (fun row => decide (row ∈ transaction.deleted))
  have hlength := result.previousIds.length_eq_length_filter_add
    fun id => decide (id ∈ result.nextIds)
  have hnext := h.length_filter_add
  simp only [countUserMappings, Transaction.apply, List.countP_append, hinserted]
  simp only [← decide_not] at hsplit hlength
  omega

theorem rowsOf_apply (h : Committing calendars rows transaction result) {userId : String}
    (huser : userId ≠ transaction.request.userId) :
    rowsOf calendars userId (transaction.apply rows) = rowsOf calendars userId rows := by
  have hinserted : transaction.inserted.filter
      (fun row => isOwned calendars userId row.sourceCalendarId) = [] := by
    rw [List.filter_eq_nil_iff]
    intro row hrow howned
    exact huser (isOwned_unique howned (h.inserted_owned hrow).1)
  rw [rowsOf, Transaction.apply, List.filter_append, hinserted, List.append_nil, List.filter_filter]
  refine List.filter_congr fun row hrow => ?_
  by_cases howned : isOwned calendars userId row.sourceCalendarId = true
  · have hkept : row ∉ transaction.deleted := by
      rw [h.mem_deleted row hrow]
      rintro ⟨hat, -⟩
      have hsource := h.consistent.isOwned_at hrow transaction.request.side .source (hat ▸ h.owned)
      exact huser (isOwned_unique howned hsource)
    simp [howned, hkept]
  · simp [howned]

theorem consistent_apply (h : Committing calendars rows transaction result) :
    Consistent calendars (transaction.apply rows) := by
  refine ⟨?_, fun row hrow => ?_⟩
  · rw [Transaction.apply, List.map_append, List.nodup_append]
    refine ⟨h.consistent.unique.sublist (List.filter_sublist.map _), ?_, ?_⟩
    · have hnew : (transaction.inserted.map (·.at transaction.request.side.other)).Nodup := by
        rw [h.inserted]
        exact h.nodup_nextIds.filter _
      cases hside : transaction.request.side with
      | source =>
        rw [hside] at hnew
        exact List.Nodup.of_map Prod.snd (by rwa [List.map_map])
      | destination =>
        rw [hside] at hnew
        exact List.Nodup.of_map Prod.fst (by rwa [List.map_map])
    · intro pair hpair pair' hpair' heq
      obtain ⟨row, hrow, rfl⟩ := List.mem_map.1 hpair
      obtain ⟨row', hrow', rfl⟩ := List.mem_map.1 hpair'
      obtain ⟨hat, hnew⟩ := h.mem_inserted hrow'
      have hsame : ∀ side, row.at side = row'.at side := by
        intro side
        cases side with
        | source => exact congrArg Prod.fst heq
        | destination => exact congrArg Prod.snd heq
      refine of_decide_eq_true (List.mem_filter.1 hnew).2 ?_
      rw [h.listed]
      exact mem_listMappedIds.2 ⟨row, List.mem_of_mem_filter hrow, (hsame _).trans hat, hsame _⟩
  · rcases List.mem_append.1 hrow with hrow | hrow
    · exact h.consistent.owned row (List.mem_of_mem_filter hrow)
    · obtain ⟨hsource, hdestination, -⟩ := h.inserted_owned hrow
      exact ⟨_, hsource, hdestination⟩

end Committing

/-! ## What every step keeps -/

theorem mem_findOwnedIds {id : String} {ids : List String} :
    id ∈ findOwnedIds calendars side userId ids ↔ id ∈ ids ∧ Mappable calendars side userId id := by
  cases side with
  | source => simp [findOwnedIds, Mappable]
  | destination => simp [findOwnedIds, Mappable]

/-- **A statement** of a transaction keeps what it has checked. -/
theorem Transaction.Sound.execute (h : Consistent calendars rows) {transaction transaction' : Transaction}
    {nextId : ℕ} (hsound : transaction.Sound calendars (rowsOf calendars transaction.request.userId rows))
    (hexecute : transaction.execute calendars rows nextId = .ok transaction') :
    transaction'.request = transaction.request ∧
      transaction'.Sound calendars (rowsOf calendars transaction.request.userId rows) := by
  have hview : transaction.deleted = [] → transaction.inserted = [] → transaction.apply rows = rows := by
    intro hdeleted hinserted
    simp [Transaction.apply, hdeleted, hinserted]
  cases hphase : transaction.phase with
  | acquireUserLock =>
    simp only [Transaction.execute, hphase] at hexecute
    cases hexecute
    exact ⟨rfl, hsound⟩
  | calendarExists =>
    simp only [Transaction.execute, hphase] at hexecute
    simp only [Transaction.Sound, hphase] at hsound
    split_ifs at hexecute with hfound
    cases hexecute
    exact ⟨rfl, hsound.1, hsound.2, hfound⟩
  | listMappedIds =>
    simp only [Transaction.execute, hphase] at hexecute
    simp only [Transaction.Sound, hphase] at hsound
    obtain ⟨hdeleted, hinserted, hfound⟩ := hsound
    cases hexecute
    refine ⟨rfl, hdeleted, hinserted, hfound, ?_⟩
    rw [hview hdeleted hinserted, resultOn_rowsOf h (isOwned_of_calendarExists hfound)]
    rfl
  | findOwnedIds result =>
    simp only [Transaction.execute, hphase] at hexecute
    simp only [Transaction.Sound, hphase] at hsound
    obtain ⟨hdeleted, hinserted, hfound, hlisted⟩ := hsound
    split_ifs at hexecute with hinvalid
    cases hexecute
    refine ⟨rfl, hdeleted, hinserted, hfound, hlisted, fun id hid => ?_⟩
    by_contra hmappable
    refine hinvalid (List.length_pos_of_mem (List.mem_filter.2 ⟨hid, decide_eq_true fun hvalid => ?_⟩))
    exact hmappable (mem_findOwnedIds.1 hvalid).2
  | countUserMappings result =>
    simp only [Transaction.execute, hphase] at hexecute
    simp only [Transaction.Sound, hphase] at hsound
    obtain ⟨hdeleted, hinserted, hfound, hlisted, howned⟩ := hsound
    split_ifs at hexecute with hexceeds
    cases hexecute
    refine ⟨rfl, hdeleted, hinserted, hfound, hlisted, howned, ?_⟩
    rw [hview hdeleted hinserted, countUserMappings, List.countP_eq_length_filter] at hexceeds
    exact Bool.not_eq_true _ ▸ hexceeds
  | deleteMappings result =>
    simp only [Transaction.execute, hphase] at hexecute
    simp only [Transaction.Sound, hphase] at hsound
    obtain ⟨hdeleted, hinserted, hchecked⟩ := hsound
    cases hexecute
    refine ⟨rfl, ?_, hinserted, hchecked⟩
    rw [hview hdeleted hinserted, dropped_rowsOf h (isOwned_of_calendarExists hchecked.found),
      Request.dropped]
    refine List.filter_congr fun row _ => decide_eq_decide.2 (and_congr_right fun _ => ?_)
    refine or_iff_right_of_imp fun hempty => ?_
    rw [List.length_eq_zero_iff.1 hempty]
    exact List.not_mem_nil
  | insertMappings result =>
    simp only [Transaction.execute, hphase] at hexecute
    simp only [Transaction.Sound, hphase] at hsound
    obtain ⟨hdeleted, hinserted, hchecked⟩ := hsound
    have howned := isOwned_of_calendarExists hchecked.found
    have hlisted := hchecked.listed
    rw [resultOn_rowsOf h howned] at hlisted
    have hnodup : result.nextIds.Nodup := by
      rw [hlisted]
      exact nodup_resolveMappedIds (h.nodup_listMappedIds _ _) _
    have hprevious : result.previousIds =
        listMappedIds transaction.request.side transaction.request.calendarId rows := by
      rw [hlisted]
      rfl
    obtain ⟨hmap, hat⟩ := insertRows_spec transaction.request nextId
      (transaction.apply rows) hnodup
    cases hexecute
    refine ⟨rfl, hdeleted, hat, hmap.trans ?_, hchecked⟩
    refine List.filter_congr fun id hid => decide_eq_decide.2 (not_congr ?_)
    rw [hprevious, mem_listMappedIds, mem_listMappedIds]
    constructor
    · rintro ⟨row, hrow, hside, hother⟩
      rw [Transaction.apply, hinserted, List.append_nil] at hrow
      exact ⟨row, List.mem_of_mem_filter hrow, hside, hother⟩
    · rintro ⟨row, hrow, hside, hother⟩
      refine ⟨row, List.mem_append_left _ (List.mem_filter.2 ⟨hrow, decide_eq_true fun hmem => ?_⟩),
        hside, hother⟩
      rw [hdeleted, dropped_rowsOf h howned] at hmem
      exact (of_decide_eq_true (List.mem_filter.1 hmem).2).2 (hother ▸ hid)
  | commit result =>
    simp only [Transaction.execute, hphase] at hexecute
    cases hexecute
    exact ⟨rfl, hsound⟩

/-- What a transaction has checked depends on the rows of its user alone, and on none while it waits. -/
theorem Inv.set {s : State} (h : Inv calendars hashtext s) {session : ℕ} {transaction : Option Transaction}
    {rows : List Mapping} {nextId : ℕ} (hconsistent : Consistent calendars rows)
    (hrows : ∀ session' transaction', session' ≠ session → s.sessions session' = some transaction' → transaction'.phase ≠ .acquireUserLock → rowsOf calendars transaction'.request.userId rows = rowsOf calendars transaction'.request.userId s.rows)
    (hexclusive : ∀ transaction', transaction = some transaction' → transaction'.phase ≠ .acquireUserLock → ∀ session' other, session' ≠ session → s.sessions session' = some other → other.phase ≠ .acquireUserLock → hashtext other.request.userId ≠ hashtext transaction'.request.userId)
    (hsound : ∀ transaction', transaction = some transaction' → transaction'.Sound calendars (rowsOf calendars transaction'.request.userId rows)) :
    Inv calendars hashtext { s.set session transaction with rows, nextId } := by
  have hget : ∀ session' transaction', Function.update s.sessions session transaction session' =
      some transaction' → (session' = session ∧ transaction = some transaction') ∨
        (session' ≠ session ∧ s.sessions session' = some transaction') := by
    intro session' transaction' hsession'
    rw [Function.update_apply] at hsession'
    split_ifs at hsession' with heq
    · exact Or.inl ⟨heq, hsession'⟩
    · exact Or.inr ⟨heq, hsession'⟩
  refine ⟨hconsistent, ?_, ?_⟩
  · intro first second transaction₁ transaction₂ hfirst hsecond hphase₁ hphase₂ hkey
    rcases hget _ _ hfirst with ⟨rfl, hset₁⟩ | ⟨hne₁, hkept₁⟩ <;>
      rcases hget _ _ hsecond with ⟨rfl, hset₂⟩ | ⟨hne₂, hkept₂⟩
    · rfl
    · exact absurd hkey.symm (hexclusive _ hset₁ hphase₁ _ _ hne₂ hkept₂ hphase₂)
    · exact absurd hkey (hexclusive _ hset₂ hphase₂ _ _ hne₁ hkept₁ hphase₁)
    · exact h.exclusive _ _ _ _ hkept₁ hkept₂ hphase₁ hphase₂ hkey
  · intro session' transaction' hsession'
    rcases hget _ _ hsession' with ⟨rfl, hset⟩ | ⟨hne, hsession'⟩
    · exact hsound _ hset
    · have hsame := h.sound _ _ hsession'
      by_cases hphase : transaction'.phase = .acquireUserLock
      · simpa only [Transaction.Sound, hphase] using hsame
      · show transaction'.Sound calendars (rowsOf calendars transaction'.request.userId rows)
        rwa [hrows _ _ hne hsession' hphase]

theorem Inv.keep {s : State} (h : Inv calendars hashtext s) {session : ℕ} {transaction : Option Transaction}
    (nextId : ℕ)
    (hexclusive : ∀ transaction', transaction = some transaction' → transaction'.phase ≠ .acquireUserLock → ∀ session' other, session' ≠ session → s.sessions session' = some other → other.phase ≠ .acquireUserLock → hashtext other.request.userId ≠ hashtext transaction'.request.userId)
    (hsound : ∀ transaction', transaction = some transaction' → transaction'.Sound calendars (rowsOf calendars transaction'.request.userId s.rows)) :
    Inv calendars hashtext { s.set session transaction with nextId } :=
  h.set h.consistent (fun _ _ _ _ _ => rfl) hexclusive hsound

theorem Inv.step {s s' : State} {outcome : Outcome} (h : Inv calendars hashtext s)
    (hstep : Step calendars hashtext s outcome s') : Inv calendars hashtext s' := by
  cases hstep with
  | begin session request hnone =>
    refine h.keep s.nextId ?_ ?_
    · rintro _ ⟨⟩ hphase
      exact absurd rfl hphase
    · rintro _ ⟨⟩
      exact ⟨rfl, rfl⟩
  | acquireUserLock hsession hphase hfree =>
    rename_i session transaction
    refine h.keep s.nextId ?_ ?_
    · rintro _ ⟨⟩ - session' other - hother hother'
      exact hfree session' other hother hother'
    · rintro _ ⟨⟩
      have hsound := h.sound _ _ hsession
      simpa only [Transaction.Sound, hphase] using hsound
  | execute hsession hphase hcommit hexecute =>
    rename_i session transaction transaction'
    obtain ⟨hrequest, hsound⟩ := (h.sound _ _ hsession).execute h.consistent hexecute
    refine h.keep _ ?_ ?_
    · rintro _ ⟨⟩ - session' other hne hother hother' hkey
      exact hne (h.exclusive _ _ _ _ hother hsession hother' hphase (hrequest ▸ hkey))
    · rintro _ ⟨⟩
      rwa [hrequest]
  | raise hsession hexecute =>
    refine h.keep s.nextId ?_ ?_
    · rintro _ ⟨⟩
    · rintro _ ⟨⟩
  | fail hsession =>
    refine h.keep s.nextId ?_ ?_
    · rintro _ ⟨⟩
    · rintro _ ⟨⟩
  | commit hsession hphase =>
    rename_i session transaction result
    have hcommitting := (h.sound _ _ hsession).committing h.consistent hphase
    refine h.set hcommitting.consistent_apply ?_ ?_ ?_
    · intro session' transaction' hne hsession' hphase'
      refine hcommitting.rowsOf_apply fun heq => hne ?_
      exact h.exclusive _ _ _ _ hsession' hsession hphase' (by rw [hphase]; simp)
        (congrArg hashtext heq)
    · rintro _ ⟨⟩
    · rintro _ ⟨⟩

theorem Inv.reaches {s : State} (h : Reaches calendars hashtext s) : Inv calendars hashtext s := by
  induction h with
  | start h nextId =>
    refine ⟨h, ?_, ?_⟩
    · rintro _ _ _ _ ⟨⟩
    · rintro _ _ ⟨⟩
  | step h hstep ih => exact ih.step hstep

end

/-! ## Mappings that survive -/

structure Commits (request : Request) (rows rows' : List Mapping) : Prop where
  /-- The calendar is mapped to what the change resolves to. -/
  resolved : (listMappedIds request.side request.calendarId rows').Perm
    (resolveMappedIds (listMappedIds request.side request.calendarId rows) request.change)
  /-- The other rows stay, and the kept ones. -/
  kept : ∀ row ∈ rows, (row.at request.side = request.calendarId → row.at request.side.other ∈
    resolveMappedIds (listMappedIds request.side request.calendarId rows) request.change) → row ∈ rows'
  /-- A row that is created maps the calendar to a new one, of the same user, and its destination can be
  pushed to. -/
  created : ∀ row ∈ rows', row ∉ rows → row.at request.side = request.calendarId ∧
    row.at request.side.other ∉ listMappedIds request.side request.calendarId rows ∧
      isOwned calendars request.userId row.sourceCalendarId = true ∧
        isOwned calendars request.userId row.destinationCalendarId = true ∧
          isPushable calendars row.destinationCalendarId = true
  /-- More rows than before are no more than the limit. -/
  limited : countUserMappings calendars request.userId rows <
    countUserMappings calendars request.userId rows' → ∀ limit, request.mappingLimit = some limit →
      ((countUserMappings calendars request.userId rows' : ℤ) : WithTop ℤ) ≤ limit

/-- What a step makes of the rows. -/
def Outcome.KeepsMappings (rows rows' : List Mapping) : Outcome → Prop
  | .committed request => Commits calendars request rows rows'
  | .raised _ => rows' = rows
  | .going => rows' = rows

variable {calendars}

theorem Committing.commits {rows : List Mapping} {transaction : Transaction}
    {result : MappingChangeResult} (h : Committing calendars rows transaction result) :
    Commits calendars transaction.request rows (transaction.apply rows) := by
  have hprevious : result.previousIds =
      listMappedIds transaction.request.side transaction.request.calendarId rows := by
    rw [h.listed]
    rfl
  have hnext : result.nextIds = resolveMappedIds
      (listMappedIds transaction.request.side transaction.request.calendarId rows)
        transaction.request.change := by
    rw [h.listed]
    rfl
  rw [← hprevious] at hnext
  refine ⟨?_, fun row hrow hkept => ?_, fun row hrow hnew => ?_, fun hmore limit hlimit => ?_⟩
  · rw [← hprevious, ← hnext]
    exact h.listMappedIds_perm
  · rw [← hprevious, ← hnext] at hkept
    refine List.mem_append_left _ (List.mem_filter.2 ⟨hrow, decide_eq_true fun hmem => ?_⟩)
    obtain ⟨hat, hdropped⟩ := (h.mem_deleted row hrow).1 hmem
    exact hdropped (hkept hat)
  · rcases List.mem_append.1 hrow with hrow | hrow
    · exact absurd (List.mem_of_mem_filter hrow) hnew
    · obtain ⟨hat, hmapped⟩ := h.mem_inserted hrow
      rw [← hprevious]
      exact ⟨hat, of_decide_eq_true (List.mem_filter.1 hmapped).2, h.inserted_owned hrow⟩
  · have htotal := h.countUserMappings_apply
    have hallowed := h.allowed
    unfold exceedsMappingLimit at hallowed
    rw [hlimit] at hallowed
    simp only at hallowed
    rw [if_neg (by omega), decide_eq_false_iff_not, not_lt] at hallowed
    refine le_trans (le_of_eq ?_) hallowed
    congr 1
    omega

/-- **The limit and the ownership of mappings survive** every interleaving. -/
theorem keepsMappings {hashtext : String → ℤ} {s s' : State} {outcome : Outcome}
    (h : Reaches calendars hashtext s) (hstep : Step calendars hashtext s outcome s') :
    outcome.KeepsMappings calendars s.rows s'.rows := by
  have hinv := Inv.reaches h
  cases hstep with
  | commit hsession hphase =>
    exact ((hinv.sound _ _ hsession).committing hinv.consistent hphase).commits
  | _ => rfl

namespace Example

def table : Calendars := fun id =>
  if id = "work" then some ⟨"user", ["pull"]⟩
  else if id = "home" then some ⟨"user", ["pull", "push"]⟩
  else none

/-- The first mapping of a user who may have one. -/
def request : Request := ⟨.source, "user", "work", .toggle "home" true, some ((1 : ℤ) : WithTop ℤ)⟩

/-- What the transaction of this request finds. -/
def result : MappingChangeResult := ⟨[], ["home"]⟩

def running (phase : Phase) (inserted : List Mapping) : State :=
  ⟨[], inserted.length, Function.update (fun _ => none) 0 (some ⟨request, phase, [], inserted⟩)⟩

theorem sessions_running (phase : Phase) (inserted : List Mapping) :
    (running phase inserted).sessions 0 = some ⟨request, phase, [], inserted⟩ := by
  simp [running]

theorem execute_running {phase phase' : Phase} {inserted : List Mapping}
    (h : Reaches table (fun _ => 0) (running phase []))
    (hphase : phase ≠ .acquireUserLock) (hcommit : ∀ result, phase ≠ .commit result)
    (hexecute : Transaction.execute table [] 0 ⟨request, phase, [], []⟩ =
      .ok ⟨request, phase', [], inserted⟩) :
    Reaches table (fun _ => 0) (running phase' inserted) := by
  have hreaches := h.step (.execute (sessions_running phase []) hphase hcommit hexecute)
  simpa [running, State.set] using hreaches

theorem reaches_commit :
    Reaches table (fun _ => 0) (running (.commit result) [⟨0, "work", "home"⟩]) := by
  have hbegin : Reaches table (fun _ => 0) (running .acquireUserLock []) :=
    (Reaches.start ⟨by simp, by simp⟩ 0).step (.begin 0 request rfl)
  have hlock : Reaches table (fun _ => 0) (running .calendarExists []) := by
    have hreaches := hbegin.step (.acquireUserLock (sessions_running _ _) rfl ?_)
    · simpa [running, State.set] using hreaches
    · intro session transaction hsession hphase
      simp only [running, Function.update_apply] at hsession
      split_ifs at hsession
      cases hsession
      exact absurd rfl hphase
  have hfound : Reaches table (fun _ => 0) (running .listMappedIds []) :=
    execute_running hlock (by simp) (by simp) rfl
  have hlisted : Reaches table (fun _ => 0) (running (.findOwnedIds result) []) :=
    execute_running hfound (by simp) (by simp) rfl
  have howned : Reaches table (fun _ => 0) (running (.countUserMappings result) []) :=
    execute_running hlisted (by simp) (by simp) rfl
  have hcounted : Reaches table (fun _ => 0) (running (.deleteMappings result) []) :=
    execute_running howned (by simp) (by simp) rfl
  have hdeleted : Reaches table (fun _ => 0) (running (.insertMappings result) []) :=
    execute_running hcounted (by simp) (by simp) rfl
  exact execute_running hdeleted (by simp) (by simp) rfl

end Example

/-- The first mapping of a user is committed. -/
theorem keepsMappings_example :
    Commits Example.table Example.request [] [⟨0, "work", "home"⟩] :=
  keepsMappings Example.reaches_commit (.commit (Example.sessions_running _ _) rfl)

end Mappings

end Keeper
