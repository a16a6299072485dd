import Mathlib.Data.List.Dedup

/-! Rows in groups, one for each value of a key that occurs. -/

namespace Yomochi.Foundation

variable {Row Key Line : Type} [DecidableEq Key]

def groupOf (key : Row → Key) (rows : List Row) (k : Key) : List Row :=
  rows.filter fun row => decide (key row = k)

def groupBy (key : Row → Key) (line : Key → List Row → Line) (rows : List Row) : List Line :=
  (rows.map key).dedup.map fun k => line k (groupOf key rows k)

variable {key : Row → Key} {line : Key → List Row → Line} {rows : List Row}

theorem group_ne_nil {k : Key} : groupOf key rows k ≠ [] ↔ k ∈ rows.map key := by
  constructor
  · intro filled
    obtain ⟨row, member⟩ := List.exists_mem_of_ne_nil _ filled
    obtain ⟨inside, same⟩ := List.mem_filter.mp member
    exact List.mem_map.mpr ⟨row, inside, of_decide_eq_true same⟩
  · intro present
    obtain ⟨row, inside, same⟩ := List.mem_map.mp present
    exact List.ne_nil_of_mem (List.mem_filter.mpr ⟨inside, decide_eq_true same⟩)

theorem mem_group_by {made : Line} :
    made ∈ groupBy key line rows ↔
      ∃ k, groupOf key rows k ≠ [] ∧ line k (groupOf key rows k) = made := by
  simp only [groupBy, List.mem_map, List.mem_dedup, group_ne_nil]

/-- When a line tells its key, the key tells the line. -/
theorem group_by_line {keyOf : Line → Key} (tells : ∀ k group, keyOf (line k group) = k)
    {made : Line} : made ∈ groupBy key line rows ↔
      groupOf key rows (keyOf made) ≠ [] ∧
        made = line (keyOf made) (groupOf key rows (keyOf made)) := by
  rw [mem_group_by]
  constructor
  · intro found
    obtain ⟨k, filled, same⟩ := found
    have named : keyOf made = k := by rw [← same, tells]
    rw [named]
    exact ⟨filled, same.symm⟩
  · intro given
    exact ⟨keyOf made, given.1, given.2.symm⟩

end Yomochi.Foundation
