import Mathlib.Data.List.MinMax

/-!
# Window functions

A window function looks at the rows of a row's partition, in an order. The order is given by a rank, and rows of
one partition that have the same rank would stand in either order.

* `firstValue_eq_some_iff`: the first row of a partition.
* `rowNumber_eq_one_iff`: the row that no other row of its partition comes before.
-/

namespace Keeper

namespace Windows

variable {α κ ρ : Type*} [DecidableEq κ] [LinearOrder ρ] (key : α → κ) (rank : α → ρ)

def partition (rows : List α) (row : α) : List α := rows.filter fun other => key other = key row

/-- `first_value(..) OVER (PARTITION BY key ORDER BY rank)`: the first row of the partition. -/
def firstValue (rows : List α) (row : α) : Option α := (partition key rows row).argmin rank

/-- `row_number() OVER (PARTITION BY key ORDER BY rank)`. -/
def rowNumber (rows : List α) (row : α) : ℕ :=
  (partition key rows row).countP (fun other => decide (rank other < rank row)) + 1

variable {key rank} {rows : List α} {row first : α}

theorem mem_partition_iff {other : α} : other ∈ partition key rows row ↔ other ∈ rows ∧ key other = key row := by
  simp [partition]

theorem exists_firstValue (h : row ∈ rows) : ∃ first, firstValue key rank rows row = some first := by
  refine Option.ne_none_iff_exists'.1 fun hnone => ?_
  rw [firstValue, List.argmin_eq_none] at hnone
  exact List.not_mem_nil (hnone ▸ mem_partition_iff.2 ⟨h, rfl⟩)

theorem firstValue_congr {other : α} (h : key other = key row) :
    firstValue key rank rows other = firstValue key rank rows row := by
  rw [firstValue, firstValue, partition, partition, h]

/-- **The first row of a partition**, where rows differ in rank. -/
theorem firstValue_eq_some_iff (hrank : Set.InjOn rank {other | other ∈ rows}) :
    firstValue key rank rows row = some first ↔
      first ∈ rows ∧ key first = key row ∧ ∀ other ∈ rows, key other = key row → rank first ≤ rank other := by
  have hspec : ∀ {other}, firstValue key rank rows row = some other → other ∈ rows ∧ key other = key row ∧
      ∀ other' ∈ rows, key other' = key row → rank other ≤ rank other' := by
    intro other hother
    obtain ⟨hmem, hkey⟩ := mem_partition_iff.1 (List.argmin_mem hother)
    exact ⟨hmem, hkey, fun other' hmem' hkey' =>
      List.le_of_mem_argmin (mem_partition_iff.2 ⟨hmem', hkey'⟩) hother⟩
  refine ⟨hspec, ?_⟩
  rintro ⟨hmem, hkey, hle⟩
  obtain ⟨other, hother⟩ := @exists_firstValue _ _ _ _ _ key rank _ _ hmem
  rw [firstValue_congr hkey] at hother
  obtain ⟨hmem', hkey', hle'⟩ := hspec hother
  rw [hother, hrank hmem hmem' (le_antisymm (hle other hmem' hkey') (hle' first hmem hkey))]

/-- **The first row** is the one with number one. -/
theorem rowNumber_eq_one_iff : rowNumber key rank rows row = 1 ↔
    ∀ other ∈ rows, key other = key row → rank row ≤ rank other := by
  rw [rowNumber, Nat.add_eq_right, List.countP_eq_zero]
  simp only [mem_partition_iff, decide_eq_true_eq, not_lt, and_imp]

end Windows

end Keeper
