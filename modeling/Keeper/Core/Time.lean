import Keeper.Core.Types
import Mathlib.Order.Basic
import Mathlib.Tactic.SplitIfs

/-!
# Time ranges and sync windows

`overlapsTimeWindow` (`core/events/time-range.ts`), the all-day test (`core/events/all-day.ts`) and
the windows of `core/sync/sync-range.ts`.

* `overlapsTimeWindow_mono`: an event that overlaps a window overlaps every wider one.
* `intersectSyncWindows_within`: an intersection lies in both windows, which is how the callers
  keep authoritative windows inside the requested one.
-/

namespace Keeper

/-! ## Time ranges -/

structure EventTimeRange where
  startTime : ℤ
  endTime : ℤ
  deriving DecidableEq

/-- `overlapsTimeWindow`: an empty or inverted range overlaps where its start does. -/
def overlapsTimeWindow (range : EventTimeRange) (windowStart windowEnd : ℤ) : Bool :=
  if range.endTime ≤ range.startTime then
    windowStart ≤ range.startTime && range.startTime < windowEnd
  else windowStart < range.endTime && range.startTime < windowEnd

theorem overlapsTimeWindow_iff {range : EventTimeRange} {windowStart windowEnd : ℤ} :
    overlapsTimeWindow range windowStart windowEnd = true ↔
      range.startTime < windowEnd ∧ (windowStart ≤ range.startTime ∨
        range.startTime < range.endTime ∧ windowStart < range.endTime) := by
  simp only [overlapsTimeWindow]
  split_ifs with h <;> simp only [Bool.and_eq_true, decide_eq_true_eq] <;> omega

/-- **A wider window overlaps more.** -/
theorem overlapsTimeWindow_mono {range : EventTimeRange} {s e s' e' : ℤ} (hs : s' ≤ s)
    (he : e ≤ e') (h : overlapsTimeWindow range s e = true) :
    overlapsTimeWindow range s' e' = true := by
  rw [overlapsTimeWindow_iff] at h ⊢
  omega

/-- A range that overlaps two windows overlaps one that begins no later than the one and ends no earlier
than the other. -/
theorem overlapsTimeWindow_between {range : EventTimeRange} {s e s' e' s'' e'' : ℤ}
    (h : overlapsTimeWindow range s e = true) (h' : overlapsTimeWindow range s' e' = true)
    (hs : s'' ≤ s') (he : e ≤ e'') : overlapsTimeWindow range s'' e'' = true := by
  rw [overlapsTimeWindow_iff] at h h' ⊢
  omega

def MaterializedSyncableEvent.range (e : MaterializedSyncableEvent) : EventTimeRange :=
  ⟨e.startTime, e.endTime⟩

def EventMapping.range (m : EventMapping) : EventTimeRange := ⟨m.startTime, m.endTime⟩

def RemoteEvent.range (r : RemoteEvent) : EventTimeRange := ⟨r.startTime, r.endTime⟩

/-! ## All-day events -/

def msPerDay : ℤ := 24 * 60 * 60 * 1000

def msPerMinute : ℤ := 60000

def isMidnightUtc (value : ℤ) : Bool := value % msPerDay = 0

def inferAllDayEvent (startTime endTime : ℤ) : Bool :=
  let durationMs := endTime - startTime
  if durationMs ≤ 0 ∨ durationMs % msPerDay ≠ 0 then false
  else isMidnightUtc startTime && isMidnightUtc endTime

def resolveIsAllDayEvent (isAllDay : Option Bool) (startTime endTime : ℤ) : Bool :=
  isAllDay.getD (inferAllDayEvent startTime endTime)

/-! ## Sync windows -/

structure SyncWindow where
  timeMin : ℤ
  timeMax : ℤ
  deriving DecidableEq

namespace SyncWindow

def overlaps (w : SyncWindow) (range : EventTimeRange) : Bool :=
  overlapsTimeWindow range w.timeMin w.timeMax

def Within (w w' : SyncWindow) : Prop := w'.timeMin ≤ w.timeMin ∧ w.timeMax ≤ w'.timeMax

instance (w w' : SyncWindow) : Decidable (w.Within w') :=
  inferInstanceAs (Decidable (_ ∧ _))

theorem Within.refl (w : SyncWindow) : w.Within w := ⟨le_refl _, le_refl _⟩

theorem Within.trans {w w' w'' : SyncWindow} (h : w.Within w') (h' : w'.Within w'') : w.Within w'' :=
  ⟨h'.1.trans h.1, h.2.trans h'.2⟩

theorem Within.overlaps {w w' : SyncWindow} (h : w.Within w') {range : EventTimeRange}
    (ho : w.overlaps range = true) : w'.overlaps range = true :=
  overlapsTimeWindow_mono h.1 h.2 ho

end SyncWindow

def intersectSyncWindows (first second : SyncWindow) : Option SyncWindow :=
  let timeMin := if second.timeMin < first.timeMin then first.timeMin else second.timeMin
  let timeMax := if first.timeMax < second.timeMax then first.timeMax else second.timeMax
  if timeMax ≤ timeMin then none else some ⟨timeMin, timeMax⟩

theorem intersectSyncWindows_within {first second w : SyncWindow}
    (h : intersectSyncWindows first second = some w) : w.Within first ∧ w.Within second := by
  unfold intersectSyncWindows at h
  generalize hmin : (if second.timeMin < first.timeMin then first.timeMin else second.timeMin) = a
    at h
  generalize hmax : (if first.timeMax < second.timeMax then first.timeMax else second.timeMax) = b
    at h
  simp only [Option.ite_none_left_eq_some, Option.some.injEq] at h
  obtain ⟨-, rfl⟩ := h
  constructor <;> refine ⟨?_, ?_⟩ <;> dsimp only <;> split_ifs at hmin hmax <;> omega

end Keeper
