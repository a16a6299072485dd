import Yomochi.Foundation.Keyset

/-! Rows from the smallest key on: the last ones of them, and a reader who has seen some of them in
order. -/

namespace Yomochi.Foundation

variable {Row Key : Type} [LinearOrder Key]

def ascending (key : Row → Key) (rows : List Row) : List Row := (descending key rows).reverse

variable {key : Row → Key} {rows : List Row}

theorem ascending_perm (key : Row → Key) (rows : List Row) : (ascending key rows).Perm rows :=
  (List.reverse_perm _).trans (List.perm_insertionSort _ _)

theorem mem_ascending {row : Row} : row ∈ ascending key rows ↔ row ∈ rows :=
  (ascending_perm key rows).mem_iff

theorem ascending_strict (unique : (rows.map key).Nodup) :
    (ascending key rows).Pairwise fun first second => key first < key second := by
  have total : Std.Total fun first second : Row => key second ≤ key first :=
    ⟨fun first second => le_total _ _⟩
  have trans : IsTrans Row fun first second : Row => key second ≤ key first :=
    ⟨fun first second third one two => le_trans two one⟩
  have sorted : (ascending key rows).Pairwise fun first second => key first ≤ key second :=
    List.pairwise_reverse.mpr (List.pairwise_insertionSort _ _)
  have apart : ((ascending key rows).map key).Nodup :=
    ((ascending_perm key rows).map key).nodup_iff.mpr unique
  exact (sorted.and (List.pairwise_map.mp apart)).imp fun both => lt_of_le_of_ne both.1 both.2

/-- Rows in strict order are the only such list of their members. -/
theorem ascending_eq {shown : List Row}
    (strict : shown.Pairwise fun first second => key first < key second)
    (unique : (rows.map key).Nodup) (same : ∀ row, row ∈ shown ↔ row ∈ rows) :
    ascending key rows = shown := by
  have irrefl : Std.Irrefl fun first second : Row => key first < key second :=
    ⟨fun row => lt_irrefl (key row)⟩
  have asymm : Std.Asymm fun first second : Row => key first < key second :=
    ⟨fun first second smaller => lt_asymm smaller⟩
  apply List.Pairwise.eq_of_mem_iff (ascending_strict unique) strict
  intro row
  rw [mem_ascending, same]

/-- `ORDER BY key DESC LIMIT n`, read from behind, has the last rows. -/
theorem take_descending_reverse (key : Row → Key) (rows : List Row) (n : Nat) :
    ((descending key rows).take n).reverse =
      (ascending key rows).drop ((ascending key rows).length - n) := by
  rw [ascending, List.length_reverse, List.reverse_take]

/-- Who has seen some of the rows, one after the other, has a part of them in their order. -/
theorem sublist_ascending {shown : List Row}
    (strict : shown.Pairwise fun first second => key first < key second)
    (unique : (rows.map key).Nodup) (seen : ∀ row ∈ shown, row ∈ rows) :
    shown.Sublist (ascending key rows) := by
  have antisymm : Std.Antisymm fun first second : Row => key first < key second :=
    ⟨fun first second one two => absurd two (lt_asymm one)⟩
  have distinct : shown.Nodup := strict.imp fun {first second} smaller same => by
    subst same
    exact lt_irrefl _ smaller
  have inside : shown ⊆ ascending key rows := fun row member =>
    mem_ascending.mpr (seen row member)
  exact List.sublist_of_subperm_of_pairwise (List.subperm_of_subset distinct inside) strict
    (ascending_strict unique)

end Yomochi.Foundation
