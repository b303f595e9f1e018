import Keeper.Core.Types
import Keeper.Core.Time
import Keeper.Foundations.JsMap

/-!
# The scope of a reconciliation

`ReconciliationScope` (`core/sync/operations.ts`) and the window that is authoritative for a source
calendar: the part of the requested window in which what is stored of the source is complete.

* `ReconciliationScope.Bounded`: the authoritative windows lie in the requested one, as the callers
  arrange by `intersectSyncWindows`.
* `Bounded.requested_overlaps`: inside a source's authoritative window is inside the requested one.
-/

namespace Keeper

/-- `ReconciliationScope`. Its sets are only asked for membership and are lists here. -/
structure ReconciliationScope where
  authoritativeMappingIds : Option (List String) := none
  authoritativeWindow : Option SyncWindow := none
  authoritativeSourceWindows : Option (JsMap String SyncWindow) := none
  configuredSourceCalendarIds : Option (List String) := none
  requestedWindow : SyncWindow
  withheldSourceEventStateIds : Option (List String) := none

def getSourceAuthoritativeWindow (scope : ReconciliationScope) (sourceCalendarId : Option String) :
    Option SyncWindow :=
  match sourceCalendarId with
  | none => some scope.requestedWindow
  | some id =>
    match scope.authoritativeSourceWindows, scope.configuredSourceCalendarIds with
    | some windows, some configured =>
      if id ∈ configured then windows.get? id else some scope.requestedWindow
    | _, _ => scope.authoritativeWindow

def isInsideSourceAuthoritativeWindow (value : EventTimeRange) (sourceCalendarId : Option String)
    (scope : ReconciliationScope) : Bool :=
  (getSourceAuthoritativeWindow scope sourceCalendarId).any (·.overlaps value)

theorem isInsideSourceAuthoritativeWindow_iff {value : EventTimeRange} {id : Option String}
    {scope : ReconciliationScope} :
    isInsideSourceAuthoritativeWindow value id scope = true ↔
      ∃ w, getSourceAuthoritativeWindow scope id = some w ∧ w.overlaps value = true := by
  simp [isInsideSourceAuthoritativeWindow, Option.any_eq_true]

namespace ReconciliationScope

def requests (scope : ReconciliationScope) (value : EventTimeRange) : Bool :=
  scope.requestedWindow.overlaps value

/-- The series of the mapping was withheld from the local events. -/
def withholds (scope : ReconciliationScope) (mapping : EventMapping) : Bool :=
  mapping.eventStateId.any fun id => (scope.withheldSourceEventStateIds.getD []).contains id

/-- The aggregate and the per-source authoritative windows lie in the requested window. -/
structure Bounded (scope : ReconciliationScope) : Prop where
  aggregate : ∀ w, scope.authoritativeWindow = some w → w.Within scope.requestedWindow
  source : ∀ windows, scope.authoritativeSourceWindows = some windows →
    ∀ w ∈ windows.values, w.Within scope.requestedWindow

theorem Bounded.sourceWindow_within {scope : ReconciliationScope} (h : scope.Bounded)
    {id : Option String} {w : SyncWindow} (hw : getSourceAuthoritativeWindow scope id = some w) :
    w.Within scope.requestedWindow := by
  unfold getSourceAuthoritativeWindow at hw
  split at hw
  · obtain rfl := Option.some.inj hw
    exact SyncWindow.Within.refl _
  · split at hw
    · rename_i windows configured hs hc
      split at hw
      · exact h.source windows hs w (JsMap.mem_values_iff.2 ⟨_, hw⟩)
      · obtain rfl := Option.some.inj hw
        exact SyncWindow.Within.refl _
    · exact h.aggregate w hw

/-- **Authority is inside the request**: what overlaps a source's authoritative window overlaps
the requested window. -/
theorem Bounded.requested_overlaps {scope : ReconciliationScope} (h : scope.Bounded)
    {value : EventTimeRange} {id : Option String}
    (hv : isInsideSourceAuthoritativeWindow value id scope = true) :
    scope.requests value = true := by
  obtain ⟨w, hw, ho⟩ := isInsideSourceAuthoritativeWindow_iff.1 hv
  exact (h.sourceWindow_within hw).overlaps ho

end ReconciliationScope

/-! ## Serialized seconds -/

/-- The second of an instant that a destination keeps: `Math.trunc(date.getTime() / 1000)`. -/
def serializedSecond (t : ℤ) : ℤ := Int.tdiv t 1000

def isSameSerializedSecond (first second : ℤ) : Bool :=
  serializedSecond first = serializedSecond second

/-- `getSerializedSlotKey`: the seconds of the two ends, which the source joins in a string. -/
def getSerializedSlotKey (startTime endTime : ℤ) : ℤ × ℤ :=
  (serializedSecond startTime, serializedSecond endTime)

end Keeper
