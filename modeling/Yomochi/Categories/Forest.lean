import Yomochi.Categories.Category
import Yomochi.Foundation.Runs

/-! The shape of the categories that any sequence of `CreateCategory` commands leaves behind. -/

namespace Yomochi.Categories

open Foundation Recurring

structure Action where
  command : CreateCategoryCommand
  id : CategoryId
  createdAt : Timestamp

/-- A command that is turned down changes nothing. -/
def step (rows : CategoryRows) (action : Action) : Option CategoryRows :=
  match createCategory rows action.command action.id action.createdAt with
  | .error _ => some rows
  | .ok next => some next

def Category.usableBy (category : Category) (userId : UserId) : Prop :=
  category.isSystem = true ∨ category.userId = some userId

instance (category : Category) (userId : UserId) : Decidable (category.usableBy userId) :=
  inferInstanceAs (Decidable (_ ∨ _))

/-- Every parent is there, and `R` relates it to its child. -/
def Parents (R : Category → Category → Prop) (rows : CategoryRows) : Prop :=
  ∀ child ∈ rows.rows, ∀ parentId ∈ child.parentId, ∃ parent ∈ rows.get parentId, R parent child

instance (R : Category → Category → Prop) [∀ parent child, Decidable (R parent child)]
    (rows : CategoryRows) : Decidable (Parents R rows) :=
  inferInstanceAs (Decidable (∀ _ ∈ _, _))

/-- The parent is a group of the type of its child. -/
def Nested (parent child : Category) : Prop := parent.parentId = none ∧ parent.type = child.type

instance (parent child : Category) : Decidable (Nested parent child) :=
  inferInstanceAs (Decidable (_ ∧ _))

/-- Besides, the parent of a user's category is not another user's. -/
def WellPlaced (parent child : Category) : Prop :=
  Nested parent child ∧ ∀ userId ∈ child.userId, parent.usableBy userId

instance (parent child : Category) : Decidable (WellPlaced parent child) :=
  inferInstanceAs (Decidable (_ ∧ _))

def Forest (rows : CategoryRows) : Prop := Parents WellPlaced rows

instance (rows : CategoryRows) : Decidable (Forest rows) :=
  inferInstanceAs (Decidable (Parents _ _))

/-- A command that no check turns down names no parent of another user. -/
def OwnParent (rows : CategoryRows) (action : Action) : Prop :=
  accepts rows action.command action.id action.createdAt = true →
    ∀ parentId ∈ action.command.parentId, ∀ parent ∈ rows.get parentId,
      parent.usableBy action.command.userId

instance (rows : CategoryRows) (action : Action) : Decidable (OwnParent rows action) :=
  inferInstanceAs (Decidable (_ → _))

section

variable {rows next : CategoryRows} {command : CreateCategoryCommand} {id : CategoryId}
  {createdAt : Timestamp}

/-- A new row hides no category that was there before. -/
theorem get_kept {parentId : CategoryId} {parent : Category}
    (inserted : rows.insert (newCategory command id createdAt) = some next)
    (found : rows.get parentId = some parent) : next.get parentId = some parent := by
  rw [Table.get_insert inserted]
  split
  · rename_i same
    have fresh := (Table.insert_eq_some inserted).1
    rw [same, found] at fresh
    cases fresh
  · exact found

theorem parents_insert_iff {R : Category → Category → Prop}
    (valid : validateParent rows command = .ok ())
    (inserted : rows.insert (newCategory command id createdAt) = some next)
    (parents : Parents R rows) :
    Parents R next ↔ ∀ parentId ∈ command.parentId, ∀ parent ∈ rows.get parentId,
      R parent (newCategory command id createdAt) := by
  have appended := (Table.insert_eq_some inserted).2
  constructor
  · intro grown parentId given parent found
    have member : newCategory command id createdAt ∈ next.rows := by
      rw [appended]
      exact List.mem_append_right _ (List.mem_singleton_self _)
    obtain ⟨_, same, related⟩ := grown _ member parentId given
    cases (get_kept inserted found).symm.trans same
    exact related
  · intro related child member parentId given
    rw [appended] at member
    rcases List.mem_append.mp member with old | new
    · obtain ⟨parent, found, before⟩ := parents child old parentId given
      exact ⟨parent, get_kept inserted found, before⟩
    · cases List.mem_singleton.mp new
      obtain ⟨parent, found, _⟩ := validate_parent_eq_ok valid parentId given
      exact ⟨parent, get_kept inserted found, related parentId given parent found⟩

/-- The checks of the parent see to its depth and its type. -/
theorem nested_new (valid : validateParent rows command = .ok ()) :
    ∀ parentId ∈ command.parentId, ∀ parent ∈ rows.get parentId,
      Nested parent (newCategory command id createdAt) := by
  intro parentId given parent found
  obtain ⟨_, same, root, type⟩ := validate_parent_eq_ok valid parentId given
  cases same.symm.trans found
  exact ⟨root, type⟩

theorem forest_insert_iff (valid : validateParent rows command = .ok ())
    (inserted : rows.insert (newCategory command id createdAt) = some next) (forest : Forest rows) :
    Forest next ↔ ∀ parentId ∈ command.parentId, ∀ parent ∈ rows.get parentId,
      parent.usableBy command.userId := by
  rw [Forest, parents_insert_iff valid inserted forest]
  refine forall₂_congr fun parentId given => forall₂_congr fun parent found => ?_
  constructor
  · rintro ⟨_, usable⟩
    exact usable command.userId rfl
  · intro usable
    refine ⟨nested_new valid parentId given parent found, ?_⟩
    intro userId owner
    cases owner
    exact usable

end

theorem nested_step (rows : CategoryRows) (action : Action) (next : CategoryRows)
    (taken : step rows action = some next) (nested : Parents Nested rows) :
    Parents Nested next := by
  unfold step at taken
  split at taken
  · cases taken
    exact nested
  · rename_i grown created
    cases taken
    obtain ⟨_, valid, inserted⟩ := create_category_eq_ok created
    exact (parents_insert_iff valid inserted nested).mpr (nested_new valid)

/-- Depth and types are right after any commands. -/
theorem nested_always (actions : List Action) (rows : CategoryRows)
    (reached : run step seeded actions = some rows) : Parents Nested rows :=
  run_preserves nested_step reached (by decide +kernel)

theorem forest_step (rows : CategoryRows) (action : Action) (next : CategoryRows)
    (taken : step rows action = some next) (forest : Forest rows) :
    Forest next ↔ OwnParent rows action := by
  unfold step at taken
  split at taken
  · rename_i error refused
    cases taken
    refine ⟨fun _ accepted => ?_, fun _ => forest⟩
    rw [create_category_eq_error refused] at accepted
    cases accepted
  · rename_i grown created
    cases taken
    obtain ⟨accepted, valid, inserted⟩ := create_category_eq_ok created
    rw [forest_insert_iff valid inserted forest]
    exact ⟨fun usable _ => usable, fun own => own accepted⟩

theorem seeded_forest : Forest seeded := by decide +kernel

/-- The categories are a forest all along a run exactly when no accepted command names a parent
of another user. -/
theorem forest_iff (actions : List Action) (rows : CategoryRows)
    (reached : run step seeded actions = some rows) :
    Visits step Forest seeded actions ↔ Along step OwnParent seeded actions :=
  visits_iff_along (I := fun _ => True) (fun _ _ _ _ _ => trivial)
    (fun rows action next taken _ forest => forest_step rows action next taken forest) reached
    trivial seeded_forest

def travel : Action := ⟨⟨⟨1⟩, "Travel", .EXPENSE, none, none, none⟩, ⟨100⟩, 0⟩

def hotels (userId : Uuid) : Action := ⟨⟨⟨userId⟩, "Hotels", .EXPENSE, some ⟨100⟩, none, none⟩, ⟨200⟩, 0⟩

theorem forest_iff_own_group : ∃ rows, run step seeded [travel, hotels 1] = some rows ∧
    (Visits step Forest seeded [travel, hotels 1] ↔ Along step OwnParent seeded [travel, hotels 1]) := by
  have ends : (run step seeded [travel, hotels 1]).isSome = true := by decide +kernel
  obtain ⟨rows, reached⟩ := Option.isSome_iff_exists.mp ends
  exact ⟨rows, reached, forest_iff [travel, hotels 1] rows reached⟩

/-- User 2 gets a child of the group that belongs to user 1. -/
theorem not_forest : ¬ ∀ (actions : List Action) (rows : CategoryRows),
    run step seeded actions = some rows → Forest rows := by
  intro claimed
  have ends : (run step seeded [travel, hotels 2]).any (fun rows => decide (¬ Forest rows)) = true := by
    decide +kernel
  obtain ⟨rows, reached, broken⟩ := (Option.any_eq_true _ _).mp ends
  exact of_decide_eq_true broken (claimed [travel, hotels 2] rows reached)

end Yomochi.Categories
