import Mathlib.Data.List.Perm.Subperm
import Mathlib.Data.List.Lattice
import Mathlib.Data.List.Nodup

/-! The answers that a SELECT may give: the rows that meet the condition, in the declared
order, cut at the limit. Rows that the order does not tell apart may come in any order. -/

namespace Yomochi.Foundation

/-! The comparisons of SQL, where a null makes the answer null. -/

def sqlEq {α : Type} [DecidableEq α] (left right : Option α) : Option Bool :=
  left.bind fun left => right.map fun right => decide (left = right)

/-- WHERE keeps a row when the answer is true. -/
def keeps (answer : Option Bool) : Bool := answer == some true

theorem keeps_sql_eq {α : Type} [DecidableEq α] {value : α} {bound : Option α} :
    keeps (sqlEq (some value) bound) = true ↔ bound = some value := by
  cases bound with
  | none => simp [keeps, sqlEq]
  | some other => simp [keeps, sqlEq, eq_comm]

def LimitInRange (limit : Int) : Prop := 0 ≤ limit ∧ limit < 9223372036854775808

instance (limit : Int) : Decidable (LimitInRange limit) := inferInstanceAs (Decidable (_ ∧ _))

variable {Row : Type} [DecidableEq Row]

/-- `answer` is an answer of `SELECT .. WHERE condition ORDER BY precedes LIMIT limit`. -/
def Selects (rows : List Row) (condition : Row → Bool) (precedes : Row → Row → Bool)
    (limit : Option Nat) (answer : List Row) : Prop :=
  let matching := rows.filter condition
  let skipped := matching.diff answer
  (answer ++ skipped).Perm matching ∧
  answer.Pairwise (fun left right => precedes left right = true) ∧
  (∀ left ∈ answer, ∀ right ∈ skipped, precedes left right = true) ∧
  answer.length = limit.elim matching.length fun n => min n matching.length

instance (rows : List Row) (condition : Row → Bool) (precedes : Row → Row → Bool)
    (limit : Option Nat) (answer : List Row) :
    Decidable (Selects rows condition precedes limit answer) :=
  inferInstanceAs (Decidable (_ ∧ _ ∧ _ ∧ _))

theorem selects_mem {rows answer : List Row} {condition : Row → Bool}
    {precedes : Row → Row → Bool} {limit : Option Nat}
    (selects : Selects rows condition precedes limit answer) {row : Row}
    (member : row ∈ answer) : row ∈ rows ∧ condition row = true :=
  List.mem_filter.mp (selects.1.mem_iff.mp (List.mem_append_left _ member))

theorem selects_nodup {Key : Type*} {rows answer : List Row} {condition : Row → Bool}
    {precedes : Row → Row → Bool} {limit : Option Nat} {key : Row → Key}
    (selects : Selects rows condition precedes limit answer) (unique : (rows.map key).Nodup) :
    (answer.map key).Nodup := by
  have matching : ((rows.filter condition).map key).Nodup :=
    unique.sublist (List.filter_sublist.map key)
  have whole := (selects.1.map key).nodup_iff.mpr matching
  rw [List.map_append] at whole
  exact (List.nodup_append.mp whole).1

/-- In lists without duplicates, an element occurs at most once in all of them together when no
two of them have it. -/
theorem count_flatten_le_one_iff {P : Row → Prop} {lists : List (List Row)}
    (nodup : ∀ list ∈ lists, list.Nodup) :
    (∀ x, P x → lists.flatten.count x ≤ 1) ↔
      lists.Pairwise fun earlier later => ∀ x ∈ earlier, P x → x ∉ later := by
  induction lists with
  | nil => simp
  | cons list lists ih =>
      rw [List.forall_mem_cons] at nodup
      rw [List.pairwise_cons, ← ih nodup.2]
      simp only [List.flatten_cons, List.count_append]
      constructor
      · intro bound
        refine ⟨?_, fun x holds => Nat.le_trans (Nat.le_add_left _ _) (bound x holds)⟩
        intro later member x inside holds again
        have first := List.count_pos_iff.mpr inside
        have second := List.count_pos_iff.mpr (List.mem_flatten_of_mem member again)
        have total := bound x holds
        omega
      · rintro ⟨apart, bound⟩ x holds
        by_cases inside : x ∈ list
        · have absent : x ∉ lists.flatten := by
            intro again
            obtain ⟨later, member, has⟩ := List.mem_flatten.mp again
            exact apart later member x inside holds has
          rw [List.count_eq_zero_of_not_mem absent]
          exact List.nodup_iff_count_le_one.mp nodup.1 x
        · rw [List.count_eq_zero_of_not_mem inside, Nat.zero_add]
          exact bound x holds

end Yomochi.Foundation
