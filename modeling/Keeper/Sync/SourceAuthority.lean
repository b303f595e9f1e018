import Keeper.Source.IngestionState
import Keeper.Sync.Scope

/-!
# The authority of a source

The windows in which what is stored of a source is taken to be complete (`packages/sync/src/sync-user.ts`):
the requested window cut to the coverage that the source's columns record, once before the remote read and
once more, under the ingest locks, at the local read.

* `sourceWindow_spec`: a window of a source lies in the requested one and in the recorded coverage.
* `narrowSourceAuthority_within`: what is left of it at the local read lies in what was recorded then.
-/

namespace Keeper

/-! ## Recorded coverage -/

def resolveStoredSourceCoverage (source : SourceCalendar) : Option SyncWindow :=
  match source.ingestWindowStart, source.ingestWindowEnd, source.ingestWindowRecordedAt with
  | some timeMin, some timeMax, some _ =>
    if SyncRange.allows source.ingestHistoricRange && SyncRange.allows source.ingestFutureRange then
      (createSyncWindow (some timeMin) (some timeMax)).toOption
    else none
  | _, _, _ => none

theorem resolveStoredSourceCoverage_spec {source : SourceCalendar} {w : SyncWindow}
    (h : resolveStoredSourceCoverage source = some w) :
    ∃ coverage, source.coverage = some coverage ∧ coverage.window = w := by
  unfold resolveStoredSourceCoverage at h
  split at h
  · rename_i timeMin timeMax recordedAt hmin hmax hrecorded
    split_ifs at h
    refine ⟨⟨source.ingestFutureRange, source.ingestHistoricRange, ⟨timeMin, timeMax⟩⟩, ?_, ?_⟩
    · simp [SourceCalendar.coverage, hmin, hmax, hrecorded]
    · cases hwindow : createSyncWindow (some timeMin) (some timeMax) with
      | error error =>
        rw [hwindow] at h
        cases h
      | ok window =>
        obtain ⟨hstart, hend, -⟩ := createSyncWindow_ok hwindow
        rw [hwindow] at h
        obtain rfl := Option.some.inj h
        rw [Option.some.inj hstart, Option.some.inj hend]
  · cases h

/-! ## Source windows -/

structure SourceAuthority where
  aggregateWindow : Option SyncWindow
  sourceWindows : JsMap String SyncWindow

def createAggregateAuthorityWindow (sourceCalendarIds : List String)
    (sourceWindows : JsMap String SyncWindow) (requestedWindow : SyncWindow) : Option SyncWindow :=
  if sourceCalendarIds.isEmpty then none
  else if sourceWindows.keys.length ≠ sourceCalendarIds.length then none
  else sourceCalendarIds.foldlM (fun aggregateWindow id => do
    let sourceWindow ← sourceWindows.get? id
    intersectSyncWindows aggregateWindow sourceWindow) requestedWindow

/-- The windows that the rows of sources leave of the requested one. -/
def sourceWindowsOf (sources : List SourceCalendar) (requestedWindow : SyncWindow) :
    JsMap String SyncWindow :=
  JsMap.ofList (sources.filterMap fun source => do
    let sourceCoverage ← resolveStoredSourceCoverage source
    let sourceWindow ← intersectSyncWindows requestedWindow sourceCoverage
    return (source.id, sourceWindow))

def resolveSourceAuthority (calendars : List SourceCalendar) (sourceCalendarIds : List String)
    (requestedWindow : SyncWindow) : SourceAuthority :=
  if sourceCalendarIds.isEmpty then { aggregateWindow := none, sourceWindows := JsMap.empty }
  else
    let sources := calendars.filter fun calendar => sourceCalendarIds.contains calendar.id
    let sourceWindows := sourceWindowsOf sources requestedWindow
    { aggregateWindow := createAggregateAuthorityWindow sourceCalendarIds sourceWindows requestedWindow
      sourceWindows }

def narrowSourceAuthority (initialSourceWindows currentSourceWindows : JsMap String SyncWindow) :
    JsMap String SyncWindow :=
  JsMap.ofList (initialSourceWindows.entries.filterMap fun entry => do
    let currentWindow ← currentSourceWindows.get? entry.1
    let narrowedWindow ← intersectSyncWindows entry.2 currentWindow
    return (entry.1, narrowedWindow))

section Authority

variable {calendars : List SourceCalendar} {sourceCalendarIds : List String} {requestedWindow w : SyncWindow}
  {id : String}

/-- **A window of a source** lies in the requested one and in the recorded coverage. -/
theorem sourceWindow_spec
    (h : (resolveSourceAuthority calendars sourceCalendarIds requestedWindow).sourceWindows.get? id =
      some w) :
    ∃ source ∈ calendars, source.id = id ∧ ∃ coverage, source.coverage = some coverage ∧
      w.Within requestedWindow ∧ w.Within coverage.window := by
  unfold resolveSourceAuthority at h
  split_ifs at h
  · cases h
  · have hentry := JsMap.get?_ofList_some h
    rw [List.mem_filterMap] at hentry
    obtain ⟨source, hsource, hwindow⟩ := hentry
    simp only [Option.bind_eq_bind, Option.bind_eq_some_iff, Option.pure_def, Option.some.injEq,
      Prod.mk.injEq] at hwindow
    obtain ⟨recorded, hrecorded, window, hintersect, rfl, rfl⟩ := hwindow
    obtain ⟨coverage, hcoverage, rfl⟩ := resolveStoredSourceCoverage_spec hrecorded
    exact ⟨source, (List.mem_filter.1 hsource).1, rfl, coverage, hcoverage,
      intersectSyncWindows_within hintersect⟩

/-- **What is left at the local read** lies in the windows of then. -/
theorem narrowSourceAuthority_within {initial current : JsMap String SyncWindow}
    (h : (narrowSourceAuthority initial current).get? id = some w) :
    ∃ currentWindow, current.get? id = some currentWindow ∧ w.Within currentWindow := by
  have hentry := JsMap.get?_ofList_some h
  rw [List.mem_filterMap] at hentry
  obtain ⟨entry, -, hwindow⟩ := hentry
  simp only [Option.bind_eq_bind, Option.bind_eq_some_iff, Option.pure_def, Option.some.injEq,
    Prod.mk.injEq] at hwindow
  obtain ⟨currentWindow, hcurrent, window, hintersect, rfl, rfl⟩ := hwindow
  exact ⟨currentWindow, hcurrent, (intersectSyncWindows_within hintersect).2⟩

end Authority

end Keeper
