import Mathlib.Data.List.Basic

/-! Python's `dict`: the values of some keys, which stay in the order in which they came. -/

namespace Yomochi.Foundation

abbrev Dict (κ ν : Type) := List (κ × ν)

namespace Dict

variable {κ ν : Type} [DecidableEq κ]

def get? (k : κ) : Dict κ ν → Option ν
  | [] => none
  | (other, value) :: rest => if other = k then some value else get? k rest

/-- `dict[k] = value` -/
def set (k : κ) (value : ν) : Dict κ ν → Dict κ ν
  | [] => [(k, value)]
  | (other, old) :: rest =>
      if other = k then (other, value) :: rest else (other, old) :: set k value rest

def keys (dict : Dict κ ν) : List κ := dict.map Prod.fst

theorem get?_set (k j : κ) (value : ν) (dict : Dict κ ν) :
    get? j (set k value dict) = if k = j then some value else get? j dict := by
  induction dict with
  | nil => rfl
  | cons entry rest ih =>
      obtain ⟨other, old⟩ := entry
      unfold set
      split
      · rename_i same
        subst same
        unfold get?
        split
        · rfl
        · rfl
      · rename_i different
        unfold get?
        rw [ih]
        split
        · rename_i found
          subst found
          rw [if_neg fun equal => different equal.symm]
        · rfl

theorem mem_keys_set (k j : κ) (value : ν) (dict : Dict κ ν) :
    j ∈ keys (set k value dict) ↔ j = k ∨ j ∈ keys dict := by
  induction dict with
  | nil => simp [set, keys]
  | cons entry rest ih =>
      obtain ⟨other, old⟩ := entry
      unfold set
      split
      · rename_i same
        subst same
        simp [keys]
      · change j ∈ other :: keys (set k value rest) ↔ j = k ∨ j ∈ other :: keys rest
        rw [List.mem_cons, ih, List.mem_cons, or_left_comm]

/-- The keys that some entries set, in the order in which each one came first. -/
def firstSeen : List κ → List κ
  | [] => []
  | k :: rest => k :: (firstSeen rest).filter (· ≠ k)

theorem mem_first_seen {k : κ} {entries : List κ} : k ∈ firstSeen entries ↔ k ∈ entries := by
  induction entries with
  | nil => rfl
  | cons first rest ih =>
      rw [firstSeen, List.mem_cons, List.mem_filter, ih, List.mem_cons, decide_eq_true_eq]
      by_cases same : k = first
      · simp only [same, true_or]
      · simp only [same, not_false_eq_true, ne_eq, and_true]

theorem first_seen_nodup (entries : List κ) : (firstSeen entries).Nodup := by
  induction entries with
  | nil => exact List.nodup_nil
  | cons first rest ih =>
      apply List.nodup_cons.mpr
      constructor
      · intro member
        exact of_decide_eq_true (List.mem_filter.mp member).2 rfl
      · exact ih.filter _

theorem first_seen_concat (entries : List κ) (k : κ) :
    firstSeen (entries ++ [k]) =
      if k ∈ entries then firstSeen entries else firstSeen entries ++ [k] := by
  induction entries with
  | nil => rfl
  | cons first rest ih =>
      rw [List.cons_append, firstSeen, firstSeen, ih]
      by_cases known : k ∈ rest
      · rw [if_pos known, if_pos (List.mem_cons_of_mem first known)]
      · rw [if_neg known, List.filter_append]
        by_cases same : k = first
        · rw [if_pos (List.mem_cons.mpr (.inl same)), List.filter_singleton, same]
          simp
        · rw [if_neg (by simp [same, known]), List.filter_singleton]
          simp [same]

theorem first_seen_perm {entries others : List κ} (permuted : entries.Perm others) :
    (firstSeen entries).Perm (firstSeen others) := by
  apply (List.perm_ext_iff_of_nodup (first_seen_nodup entries) (first_seen_nodup others)).mpr
  intro k
  rw [mem_first_seen, mem_first_seen, permuted.mem_iff]

end Dict

end Yomochi.Foundation
