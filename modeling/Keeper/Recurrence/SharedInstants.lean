import Keeper.Recurrence.OffsetChanges

/-!
# Wall times that share an instant

`wallTimeToInstantWith` gives a wall time that a change of the clock skips the instant of a later one. In a zone whose
offsets are regular no other two wall times share an instant.

* `shows_or_skipsTo`: the clock shows a wall time at its instant, or has been set from it to what it shows.
* `sharesInstant_iff`: the wall times that share an instant.
-/

namespace Keeper

/-- The clock is set forward over a wall time, to a later one that it shows instead. -/
def SkipsTo (offset : ℤ → ℤ) (wallTime shown : ℤ) : Prop :=
  ∃ c, ChangesAt offset c ∧ c + offset (c - 1) ≤ wallTime ∧ wallTime < c + offset c ∧
    shown = wallTime + (offset c - offset (c - 1))

section Regular

variable {offset : ℤ → ℤ} (h : RegularOffsets offset)
include h

theorem RegularOffsets.changesAtMostOnce {lo hi : ℤ} (hhi : hi ≤ lo + 2 * msPerDay) :
    ChangesAtMostOnce offset lo hi := by
  obtain ⟨c, hbefore, hafter⟩ := h.changes lo
  have heq : ∀ d, lo < d → d ≤ hi → ChangesAt offset d → d = c := by
    intro d hlo hd hchange
    by_contra hne
    rcases lt_or_gt_of_ne hne with hlt | hlt
    · exact hchange ((hbefore (d - 1) (by omega) (by omega)).trans (hbefore d (by omega) hlt).symm)
    · exact hchange ((hafter (d - 1) (by omega) (by omega)).trans (hafter d (by omega) (by omega)).symm)
  intro c' d hlo hhi' hc' hlo' hd hchange
  rw [heq c' hlo hhi' hc', heq d hlo' hd hchange]

theorem RegularOffsets.isInstantOf {wallTime instant : ℤ}
    (hinstant : wallTimeToInstantWith wallTime offset = .ok instant) : IsInstantOf offset wallTime instant := by
  have honce : ChangesAtMostOnce offset (wallTime - msPerDay) (wallTime + msPerDay) :=
    h.changesAtMostOnce (by omega)
  obtain ⟨resolved, hresolved, hof⟩ := wallTimeToInstantWith_resolves h.bounded honce
  obtain rfl := Except.ok.inj (hinstant.symm.trans hresolved)
  exact hof

/-- **At the instant of a wall time** the clock shows it, or has been set over it to what it shows. -/
theorem shows_or_skipsTo {wallTime instant : ℤ} (hinstant : wallTimeToInstantWith wallTime offset = .ok instant) :
    instant + offset instant = wallTime ∨ ∃ c, ChangesAt offset c ∧ c ≤ instant ∧ instant < c + 2 * msPerDay ∧
      instant = wallTime - offset (c - 1) ∧ c + offset (c - 1) ≤ wallTime ∧ wallTime < c + offset c ∧
      instant + offset instant = wallTime + (offset c - offset (c - 1)) := by
  rcases h.isInstantOf hinstant with hleast | ⟨hskipped, c, hlo, hhi, hchange, rfl⟩
  · exact Or.inl hleast.1
  · refine Or.inr ⟨c, hchange, ?_⟩
    have hbefore := h.bounded (c - 1)
    have hafter := h.bounded c
    have honce : ChangesAtMostOnce offset (wallTime - msPerDay) (wallTime + msPerDay) := h.changesAtMostOnce (by omega)
    obtain ⟨hfirst, hlast⟩ := honce.split hlo hhi hchange
    have hc := hfirst (c - 1) (by omega) (by omega)
    have hc' := hlast c le_rfl hhi
    -- the wall time by the offset before the change lies past it, the one by the offset after it before it
    have hpast : c ≤ wallTime - offset (c - 1) := by
      by_contra hlt
      have hat := hfirst (wallTime - offset (c - 1)) (by omega) (by omega)
      exact hskipped (wallTime - offset (c - 1)) (by omega)
    have hshort : wallTime - offset c < c := by
      by_contra hle
      have hat := hlast (wallTime - offset c) (by omega) (by omega)
      exact hskipped (wallTime - offset c) (by omega)
    have hshown := hlast (wallTime - offset (c - 1)) hpast (by omega)
    exact ⟨hpast, by omega, rfl, by omega, by omega, by omega⟩

/-- A wall time that the clock is set over has the instant of the one that it is set to. -/
theorem SkipsTo.sharesInstant {wallTime shown : ℤ} (hskips : SkipsTo offset wallTime shown) :
    ∃ instant, wallTimeToInstantWith wallTime offset = .ok instant ∧
      wallTimeToInstantWith shown offset = .ok instant := by
  obtain ⟨c, hchange, hlo, hhi, rfl⟩ := hskips
  have hbefore := h.bounded (c - 1)
  have hafter := h.bounded c
  have honce : ChangesAtMostOnce offset (wallTime - msPerDay) (wallTime + msPerDay) := h.changesAtMostOnce (by omega)
  obtain ⟨hfirst, hlast⟩ := honce.split (c := c) (by omega) (by omega) hchange
  have hc := hfirst (c - 1) (by omega) (by omega)
  have hc' := hlast c le_rfl (by omega)
  obtain ⟨instant, hinstant⟩ := wallTimeToInstantWith_ok h wallTime
  obtain ⟨other, hother⟩ := wallTimeToInstantWith_ok h (wallTime + (offset c - offset (c - 1)))
  -- no instant shows the skipped wall time, and so it is resolved by the offset before this change
  have hinstant' : instant = wallTime - offset (c - 1) := by
    rcases shows_or_skipsTo h hinstant with hshows | ⟨d, hd, hle, hlt, heq, hlo', hhi', -⟩
    · have hbounds := h.bounded instant
      by_cases hbefore' : instant < c
      · have hat := hfirst instant (by omega) hbefore'
        omega
      · have hat := hlast instant (by omega) (by omega)
        omega
    · have hd' := h.bounded (d - 1)
      have hd'' := h.bounded d
      have hsame : d = c := honce d c (by omega) (by omega) hd (by omega) (by omega) hchange
      rw [heq, hsame]
  have hshows : instant + offset instant = wallTime + (offset c - offset (c - 1)) := by
    have hat := hlast instant (by omega) (by omega)
    omega
  refine ⟨instant, hinstant, ?_⟩
  rcases h.isInstantOf hother with hleast | ⟨hskipped, -⟩
  · have hle : other ≤ instant := hleast.2 hshows
    have hbounds := h.bounded other
    have hother' : other + offset other = wallTime + (offset c - offset (c - 1)) := hleast.1
    -- before the change the later wall time is shown after the instant only
    by_cases hbefore' : other < c
    · have hat := hfirst other (by omega) hbefore'
      omega
    · have hat := hlast other (by omega) (by omega)
      rw [hother, show other = instant by omega]
  · exact absurd hshows (hskipped instant)

/-- **Wall times share an instant** if and only if the clock is set over one of them to the other. -/
theorem sharesInstant_iff {wallTime other instant : ℤ}
    (hinstant : wallTimeToInstantWith wallTime offset = .ok instant) :
    wallTimeToInstantWith other offset = .ok instant ↔
      wallTime = other ∨ SkipsTo offset wallTime other ∨ SkipsTo offset other wallTime := by
  constructor
  · intro hother
    rcases shows_or_skipsTo h hinstant with hshows | ⟨c, hc, hle, hlt, heq, hlo, hhi, hshows⟩ <;>
      rcases shows_or_skipsTo h hother with hshows' | ⟨c', hc', hle', hlt', heq', hlo', hhi', hshows'⟩
    · exact Or.inl (hshows.symm.trans hshows')
    · exact Or.inr (Or.inr ⟨c', hc', hlo', hhi', by omega⟩)
    · exact Or.inr (Or.inl ⟨c, hc, hlo, hhi, by omega⟩)
    · -- the clock is set once in the two days before the instant
      have honce : ChangesAtMostOnce offset (instant - 2 * msPerDay) instant := h.changesAtMostOnce (by omega)
      obtain rfl := honce c c' (by omega) hle hc (by omega) hle' hc'
      exact Or.inl (by omega)
  · rintro (rfl | hskips | hskips)
    · exact hinstant
    · obtain ⟨shared, hshared, hother⟩ := hskips.sharesInstant h
      obtain rfl := Except.ok.inj (hinstant.symm.trans hshared)
      exact hother
    · obtain ⟨shared, hother, hshared⟩ := hskips.sharesInstant h
      obtain rfl := Except.ok.inj (hinstant.symm.trans hshared)
      exact hother

end Regular

theorem wallTimeToInstant_eq_ok_iff {zones : Zones} {timeZone : String} {wallTime instant : ℤ} :
    wallTimeToInstant zones wallTime timeZone = .ok instant ↔
      wallTimeToInstantWith wallTime (offsetMillisecondsAt zones timeZone) = .ok instant := by
  unfold wallTimeToInstant
  cases wallTimeToInstantWith wallTime (offsetMillisecondsAt zones timeZone) <;> simp

namespace Example

/-- The zone of Samoa without its summer times: ten hours behind up to the end of 2011-12-29, and fourteen hours
ahead from then on. -/
def samoa : Zones where
  identify := id
  supports := fun _ => true
  instantToWallTime := fun t _ => if t < 1325239200000 then t - 36000000 else t + 50400000

theorem samoa_regular (name : String) : RegularZone samoa name where
  bounded t := by
    simp only [offsetMillisecondsAt, samoa, msPerDay]
    split_ifs <;> omega
  changes t := by
    refine ⟨max t 1325239200000, fun u hu hc => ?_, fun u hu hc => ?_⟩ <;>
    · simp only [offsetMillisecondsAt, samoa, msPerDay] at hc ⊢
      split_ifs <;> omega

end Example

end Keeper
