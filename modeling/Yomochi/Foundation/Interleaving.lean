import Mathlib.Logic.Function.Basic

/-! Lists, each under a key, interleaved into one: the elements of a list keep their order, and
those of different lists come in any order. -/

namespace Yomochi.Foundation

/-- The elements of the lists, taken one by one from the front of some list. -/
inductive Interleaves {α ι : Type} [DecidableEq ι] : (ι → List α) → List α → Prop
  | nil {lists : ι → List α} (empty : ∀ i, lists i = []) : Interleaves lists []
  | cons {lists : ι → List α} {i : ι} {a : α} {rest merged : List α} (front : lists i = a :: rest)
      (later : Interleaves (Function.update lists i rest) merged) : Interleaves lists (a :: merged)

variable {α ι : Type} [DecidableEq ι] {lists : ι → List α} {merged : List α}

theorem mem_of_interleaves (interleaved : Interleaves lists merged) {a : α} (member : a ∈ merged) :
    ∃ i, a ∈ lists i := by
  induction interleaved with
  | nil => cases member
  | @cons lists i first rest merged front later ih =>
      rcases List.mem_cons.mp member with same | tail
      · exact ⟨i, by rw [front, same]; exact List.mem_cons_self⟩
      · obtain ⟨j, inside⟩ := ih tail
        by_cases here : j = i
        · rw [here, Function.update_self] at inside
          exact ⟨i, by rw [front]; exact List.mem_cons_of_mem first inside⟩
        · rw [Function.update_of_ne here] at inside
          exact ⟨j, inside⟩

/-- When the elements know their list, each list is found again. -/
theorem filter_interleaves {key : α → ι} (interleaved : Interleaves lists merged)
    (keyed : ∀ i, ∀ a ∈ lists i, key a = i) (j : ι) :
    merged.filter (fun a => decide (key a = j)) = lists j := by
  induction interleaved with
  | nil empty => exact (empty j).symm
  | @cons lists i first rest merged front later ih =>
      have own : key first = i := keyed i first (by rw [front]; exact List.mem_cons_self)
      have rests : ∀ k, ∀ a ∈ Function.update lists i rest k, key a = k := by
        intro k a member
        by_cases here : k = i
        · rw [here, Function.update_self] at member
          rw [here]
          exact keyed i a (by rw [front]; exact List.mem_cons_of_mem first member)
        · rw [Function.update_of_ne here] at member
          exact keyed k a member
      have others := ih rests
      by_cases here : j = i
      · rw [here, Function.update_self] at others
        rw [here, List.filter_cons, if_pos (decide_eq_true own), others, front]
      · have apart : ¬ key first = j := fun same => here (same.symm.trans own)
        rw [Function.update_of_ne here] at others
        rw [List.filter_cons, if_neg (by simpa using apart), others]

end Yomochi.Foundation
