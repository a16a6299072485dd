import Mathlib.Data.List.Sort

/-! The first entries of a list in the order of a stable sort: where each entry comes to stand, and
when they do not depend on the order that the list had. -/

namespace Yomochi.Foundation.Ranking

variable {α : Type} (r : α → α → Prop) [DecidableRel r]

/-- Entries that may stand in either order stand behind at least `n` others. -/
def Decided (n : Nat) (entries : List α) : Prop :=
  ∀ first ∈ entries, ∀ second ∈ entries, first ≠ second → r first second → r second first →
    n ≤ (entries.filter fun other => ¬ r first other).length

/-- How many entries the sort puts before one, which has some in front of it and some behind. -/
def rank (entry : α) (front back : List α) : Nat :=
  (front.filter fun other => r other entry).length +
    (back.filter fun other => ¬ r entry other).length

variable {r}

theorem Decided.tail {n : Nat} {entry : α} {entries : List α}
    (decided : Decided r (n + 1) (entry :: entries)) : Decided r n entries := by
  intro first member second other different ties back
  have enough := decided first (List.mem_cons_of_mem _ member) second
    (List.mem_cons_of_mem _ other) different ties back
  have atMost := (List.sublist_cons_self entry
    (entries.filter fun other => ¬ r first other)).length_le
  rw [List.filter_cons] at enough
  split at enough
  · exact Nat.le_of_succ_le_succ enough
  · exact Nat.le_of_succ_le enough

theorem Decided.perm {n : Nat} {entries others : List α} (decided : Decided r n entries)
    (permuted : entries.Perm others) : Decided r n others := by
  intro first member second other different ties back
  rw [← (permuted.filter _).length_eq]
  exact decided first (permuted.mem_iff.mpr member) second (permuted.mem_iff.mpr other) different
    ties back

/-- Two orders of the same entries begin with the same entries. -/
theorem take_eq_of_decided [Std.Total r] {n : Nat} {entries others : List α} (permuted : entries.Perm others)
    (sorted : entries.Pairwise r) (ordered : others.Pairwise r) (decided : Decided r n entries) :
    entries.take n = others.take n := by
  induction n generalizing entries others with
  | zero => rw [List.take_zero, List.take_zero]
  | succ n ih =>
      cases entries with
      | nil => rw [List.nil_perm.mp permuted]
      | cons first entries =>
          cases others with
          | nil => exact absurd permuted.eq_nil (List.cons_ne_nil first entries)
          | cons second others =>
              have least {head : α} {rest : List α} (sorted : (head :: rest).Pairwise r) :
                  ∀ other ∈ head :: rest, r head other := by
                intro other member
                rcases List.mem_cons.mp member with rfl | later
                · exact refl_of r other
                · exact List.rel_of_pairwise_cons sorted later
              have inside : second ∈ first :: entries := permuted.mem_iff.mpr List.mem_cons_self
              have same : first = second := by
                by_contra different
                have enough := decided first List.mem_cons_self second inside different
                  (least sorted second inside)
                  (least ordered first (permuted.mem_iff.mp List.mem_cons_self))
                have none : ((first :: entries).filter fun other => ¬ r first other) = [] := by
                  apply List.filter_eq_nil_iff.mpr
                  intro other member
                  simpa using least sorted other member
                rw [none] at enough
                exact absurd enough (Nat.not_succ_le_zero n)
              subst same
              rw [List.take_succ_cons, List.take_succ_cons,
                ih permuted.cons_inv sorted.of_cons ordered.of_cons decided.tail]

theorem insert_in_front {new entry : α} (stands : r new entry) (before after : List α) :
    ∃ start, (before ++ entry :: after).orderedInsert r new = start ++ entry :: after ∧
      start.length = before.length + 1 := by
  induction before with
  | nil => exact ⟨[new], List.orderedInsert_cons_of_le r after stands, rfl⟩
  | cons head before ih =>
      by_cases first : r new head
      · exact ⟨new :: head :: before, List.orderedInsert_cons_of_le r _ first, rfl⟩
      · obtain ⟨start, inserted, length⟩ := ih
        refine ⟨head :: start, ?_, congrArg Nat.succ length⟩
        rw [List.cons_append, List.orderedInsert_of_not_le r _ first, inserted]
        rfl

theorem insert_behind {new : α} {before : List α} (behind : ∀ other ∈ before, ¬ r new other)
    (after : List α) :
    (before ++ after).orderedInsert r new = before ++ after.orderedInsert r new := by
  induction before with
  | nil => rfl
  | cons head before ih =>
      have later : ∀ other ∈ before, ¬ r new other := by
        intro other member
        exact behind other (List.mem_cons_of_mem head member)
      rw [List.cons_append, List.orderedInsert_of_not_le r _ (behind head List.mem_cons_self),
        ih later]
      rfl

theorem take_while_sorted [IsTrans α r] {entry : α} {entries : List α} (sorted : entries.Pairwise r) :
    (entries.takeWhile fun other => ¬ r entry other) =
      entries.filter fun other => ¬ r entry other := by
  induction entries with
  | nil => rfl
  | cons head entries ih =>
      obtain ⟨below, sorted⟩ := List.pairwise_cons.mp sorted
      rw [List.takeWhile_cons, List.filter_cons, ih sorted]
      split
      · rfl
      · rename_i reached
        have stands : r entry head := by simpa using reached
        have nothing : (entries.filter fun other => ¬ r entry other) = [] := by
          apply List.filter_eq_nil_iff.mpr
          intro other member
          simpa using trans_of r stands (below other member)
        exact nothing.symm

theorem rank_nil [Std.Total r] (entry : α) (back : List α) :
    rank r entry [] back = ((entry :: back).filter fun other => ¬ r entry other).length := by
  rw [List.filter_cons, if_neg (by simpa using refl_of r entry)]
  exact Nat.zero_add _

section

variable [IsTrans α r] [Std.Total r]

theorem sort_position (front : List α) (entry : α) (back : List α) :
    ∃ before after, (front ++ entry :: back).insertionSort r = before ++ entry :: after ∧
      before.length = rank r entry front back := by
  induction front with
  | nil =>
      have sorted := List.pairwise_insertionSort r back
      refine ⟨_, _, List.insertionSort_cons_eq_take_drop r entry back, ?_⟩
      rw [take_while_sorted sorted, ((List.perm_insertionSort r back).filter _).length_eq]
      exact (Nat.zero_add _).symm
  | cons new front ih =>
      obtain ⟨before, after, sorted, length⟩ := ih
      have inserted : (new :: front ++ entry :: back).insertionSort r =
          (before ++ entry :: after).orderedInsert r new := by
        rw [← sorted]
        rfl
      by_cases stands : r new entry
      · obtain ⟨start, made, more⟩ := insert_in_front stands before after
        refine ⟨start, after, inserted.trans made, ?_⟩
        rw [more, length, rank, rank, List.filter_cons, if_pos (decide_eq_true stands),
          List.length_cons]
        omega
      · have ordered := List.pairwise_insertionSort r (front ++ entry :: back)
        rw [sorted] at ordered
        have behind : ∀ other ∈ before, ¬ r new other := by
          intro other member ahead
          have up : r other entry :=
            (List.pairwise_append.mp ordered).2.2 other member entry List.mem_cons_self
          exact stands (trans_of r ahead up)
        refine ⟨before, after.orderedInsert r new, ?_, ?_⟩
        · rw [inserted, insert_behind behind, List.orderedInsert_of_not_le r _ stands]
        · rw [length, rank, rank, List.filter_cons, if_neg (by simpa using stands)]

theorem mem_top_iff {n : Nat} {front back : List α} {entry : α}
    (distinct : (front ++ entry :: back).Nodup) :
    entry ∈ ((front ++ entry :: back).insertionSort r).take n ↔ rank r entry front back < n := by
  obtain ⟨before, after, sorted, length⟩ := sort_position front entry back (r := r)
  have apart : (before ++ entry :: after).Nodup := by
    rw [← sorted]
    exact (List.perm_insertionSort r _).nodup_iff.mpr distinct
  have absent : entry ∉ before := by
    intro member
    exact (List.nodup_append.mp apart).2.2 entry member entry List.mem_cons_self rfl
  rw [sorted, ← length, List.take_append]
  constructor
  · intro member
    by_contra short
    rw [Nat.sub_eq_zero_of_le (not_lt.mp short), List.take_zero, List.append_nil] at member
    exact absent (List.mem_of_mem_take member)
  · intro inside
    obtain ⟨k, rest⟩ := Nat.exists_eq_succ_of_ne_zero (Nat.sub_ne_zero_of_lt inside)
    rw [rest, List.take_succ_cons]
    exact List.mem_append_right _ List.mem_cons_self

/-- The first entries after the sort, in whatever order the entries came. -/
theorem top_eq_of_decided {n : Nat} {entries others : List α} (permuted : entries.Perm others)
    (decided : Decided r n entries) :
    (entries.insertionSort r).take n = (others.insertionSort r).take n := by
  have sorted := List.perm_insertionSort r entries
  exact take_eq_of_decided (sorted.trans (permuted.trans (List.perm_insertionSort r others).symm))
    (List.pairwise_insertionSort r entries) (List.pairwise_insertionSort r others)
    (decided.perm sorted.symm)

theorem top_get {n : Nat} {entry : α} {back : List α} (few : rank r entry [] back < n) :
    ((entry :: back).insertionSort r |>.take n)[rank r entry [] back]? = some entry := by
  obtain ⟨before, after, sorted, length⟩ := sort_position [] entry back (r := r)
  rw [List.nil_append] at sorted
  rw [sorted, List.getElem?_take_of_lt few, ← length, List.getElem?_append_right le_rfl,
    Nat.sub_self]
  rfl

/-- Of two entries that may stand in either order, the one that came first stands first. -/
theorem top_ne_of_undecided {n : Nat} {first second : α} {entries others : List α}
    (permuted : (first :: entries).Perm (second :: others)) (different : first ≠ second)
    (ties : r first second) (back : r second first)
    (few : ((first :: entries).filter fun other => ¬ r first other).length < n) :
    ((first :: entries).insertionSort r).take n ≠ ((second :: others).insertionSort r).take n := by
  have alike (other : α) : r first other ↔ r second other :=
    ⟨trans_of r back, trans_of r ties⟩
  have place : rank r first [] entries = rank r second [] others := by
    rw [rank_nil, rank_nil, (permuted.filter _).length_eq]
    congr 2
    funext other
    rw [decide_eq_decide, alike other]
  have inside : rank r first [] entries < n := by
    rw [rank_nil]
    exact few
  intro same
  have one := top_get inside
  rw [same, place, top_get (place ▸ inside)] at one
  exact different (Option.some.inj one).symm

end

end Yomochi.Foundation.Ranking
