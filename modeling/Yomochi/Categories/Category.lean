import Yomochi.Foundation.Table
import Yomochi.Recurring.Rules

/-! The `Category` entity, the seeded system categories, and `CreateCategoryUseCase`. -/

namespace Yomochi.Categories

open Foundation Recurring

inductive CategoryType
  | INCOME
  | EXPENSE
  deriving DecidableEq, Repr

structure Category where
  id : CategoryId
  name : String
  icon : Option String
  color : Option String
  isSystem : Bool
  userId : Option UserId
  parentId : Option CategoryId
  type : CategoryType
  createdAt : Timestamp
  deriving DecidableEq

inductive CategoryError
  | parentNotFound (parentId : CategoryId)
  | parentIsLeaf (parentId : CategoryId)
  | typeMismatch
  | nameAlreadyExists (name : String)
  | storageError
  deriving DecidableEq, Repr

def Category.isLeaf (category : Category) : Bool := category.parentId.isSome

def Category.validateCanBeParent (category : Category) : Except CategoryError Unit :=
  if category.isLeaf then .error (.parentIsLeaf category.id) else .ok ()

abbrev CategoryRows := Table Category.id

def seededAt : Timestamp := 1779667200000000

/-- The last twelve digits of a seeded id are a decimal number, read as hexadecimal digits. -/
def lastDigits (i : Nat) : Nat := i / 10 * 16 + i % 10

def gid (i : Nat) : CategoryId := ⟨0x70008001000000000000 + lastDigits i⟩

def lid (i : Nat) : CategoryId := ⟨0x70008002000000000000 + lastDigits i⟩

def groups : List (CategoryId × String × String × String × CategoryType) :=
  [(gid 1, "Food & Drink", "🍽️", "#FF6B35", .EXPENSE),
    (gid 2, "Home", "🏠", "#45B7D1", .EXPENSE),
    (gid 3, "Transport", "🚗", "#4ECDC4", .EXPENSE),
    (gid 4, "Health", "🏥", "#FFEAA7", .EXPENSE),
    (gid 5, "Shopping", "🛍️", "#F08080", .EXPENSE),
    (gid 6, "Personal Care", "💄", "#FFB6C1", .EXPENSE),
    (gid 7, "Entertainment", "🎬", "#DDA0DD", .EXPENSE),
    (gid 8, "Education", "📚", "#87CEEB", .EXPENSE),
    (gid 9, "Financial", "🛡️", "#9370DB", .EXPENSE),
    (gid 10, "Employment", "💼", "#3CB371", .INCOME),
    (gid 11, "Self-employment", "💻", "#1E90FF", .INCOME),
    (gid 12, "Passive Income", "📈", "#32CD32", .INCOME),
    (gid 13, "Other Income", "💰", "#FFD700", .INCOME)]

def leaves : List (CategoryId × String × String × String × CategoryType × CategoryId) :=
  [(lid 1, "Groceries", "🛒", "#90EE90", .EXPENSE, gid 1),
    (lid 2, "Restaurants & Dining", "🍽️", "#FF6B35", .EXPENSE, gid 1),
    (lid 3, "Cafés & Coffee", "☕", "#D2B48C", .EXPENSE, gid 1),
    (lid 4, "Alcohol & Bars", "🍺", "#DAA520", .EXPENSE, gid 1),
    (lid 5, "Convenience Store", "🏪", "#FF8C00", .EXPENSE, gid 1),
    (lid 6, "Rent & Housing", "🏠", "#45B7D1", .EXPENSE, gid 2),
    (lid 7, "Utilities", "💡", "#96CEB4", .EXPENSE, gid 2),
    (lid 8, "Home Goods", "🛠️", "#B0C4DE", .EXPENSE, gid 2),
    (lid 9, "Public Transit", "🚇", "#4ECDC4", .EXPENSE, gid 3),
    (lid 10, "Taxi & Rideshare", "🚕", "#20B2AA", .EXPENSE, gid 3),
    (lid 11, "Car & Fuel", "⛽", "#708090", .EXPENSE, gid 3),
    (lid 12, "Medical & Pharmacy", "🏥", "#FFEAA7", .EXPENSE, gid 4),
    (lid 13, "Fitness & Sports", "🏋️", "#98FB98", .EXPENSE, gid 4),
    (lid 14, "Clothing & Shoes", "👗", "#F08080", .EXPENSE, gid 5),
    (lid 15, "Electronics", "📱", "#B0C4DE", .EXPENSE, gid 5),
    (lid 16, "General Shopping", "🛍️", "#FFA07A", .EXPENSE, gid 5),
    (lid 17, "Beauty & Grooming", "💄", "#FFB6C1", .EXPENSE, gid 6),
    (lid 18, "Pets", "🐾", "#F4A460", .EXPENSE, gid 6),
    (lid 19, "Movies & Events", "🎬", "#DDA0DD", .EXPENSE, gid 7),
    (lid 20, "Streaming & Subscriptions", "📺", "#9370DB", .EXPENSE, gid 7),
    (lid 21, "Hobbies", "🎨", "#87CEEB", .EXPENSE, gid 7),
    (lid 22, "Courses & Tuition", "📚", "#87CEEB", .EXPENSE, gid 8),
    (lid 23, "Books & Supplies", "📖", "#778899", .EXPENSE, gid 8),
    (lid 24, "Insurance", "🛡️", "#9370DB", .EXPENSE, gid 9),
    (lid 25, "Taxes & Fees", "🧾", "#BC8F8F", .EXPENSE, gid 9),
    (lid 26, "Gifts & Donations", "🎁", "#FF69B4", .EXPENSE, gid 9),
    (lid 27, "Salary", "💼", "#3CB371", .INCOME, gid 10),
    (lid 28, "Bonus", "🎯", "#2E8B57", .INCOME, gid 10),
    (lid 29, "Freelance", "💻", "#1E90FF", .INCOME, gid 11),
    (lid 30, "Business Income", "📊", "#4169E1", .INCOME, gid 11),
    (lid 31, "Investments & Dividends", "📈", "#32CD32", .INCOME, gid 12),
    (lid 32, "Rental Income", "🏘️", "#228B22", .INCOME, gid 12),
    (lid 33, "Refunds & Cashback", "💰", "#FFD700", .INCOME, gid 13),
    (lid 34, "Government Benefits", "🏛️", "#DAA520", .INCOME, gid 13),
    (lid 35, "Other", "📦", "#808080", .INCOME, gid 13)]

def seeds : List Category :=
  groups.map (fun (id, name, icon, color, type) =>
    ⟨id, name, some icon, some color, true, none, none, type, seededAt⟩) ++
  leaves.map fun (id, name, icon, color, type, parentId) =>
    ⟨id, name, some icon, some color, true, none, some parentId, type, seededAt⟩

def seeded : CategoryRows := ⟨seeds, by decide +kernel⟩

structure CreateCategoryCommand where
  userId : UserId
  name : String
  type : CategoryType
  parentId : Option CategoryId
  icon : Option String
  color : Option String
  deriving DecidableEq

/-- The checks of a parent, which `get_by_id` looks up among the categories of all users. -/
def validateParent (rows : CategoryRows) (command : CreateCategoryCommand) :
    Except CategoryError Unit :=
  match command.parentId with
  | none => .ok ()
  | some parentId =>
      match rows.get parentId with
      | none => .error (.parentNotFound parentId)
      | some parent =>
          match parent.validateCanBeParent with
          | .error error => .error error
          | .ok () => if parent.type ≠ command.type then .error .typeMismatch else .ok ()

def getUserCategoryByName (rows : CategoryRows) (userId : UserId) (name : String) : Option Category :=
  rows.rows.find? fun row => decide (row.userId = some userId) && decide (row.name = name)

def newCategory (command : CreateCategoryCommand) (id : CategoryId) (now : Timestamp) : Category where
  id := id
  name := command.name
  icon := command.icon
  color := command.color
  isSystem := false
  userId := some command.userId
  parentId := command.parentId
  type := command.type
  createdAt := now

def fits (category : Category) : Bool :=
  decide (category.name.length ≤ 100) && category.icon.all (fun icon => decide (icon.length ≤ 10)) &&
    category.color.all fun color => decide (color.length ≤ 7)

/-- `CreateCategoryUseCase`, which flushes its INSERT: the generator's ids are fresh. -/
def createCategory (rows : CategoryRows) (command : CreateCategoryCommand) (id : CategoryId)
    (now : Timestamp) : Except CategoryError CategoryRows :=
  match validateParent rows command with
  | .error error => .error error
  | .ok () =>
      match getUserCategoryByName rows command.userId command.name with
      | some _ => .error (.nameAlreadyExists command.name)
      | none =>
          if fits (newCategory command id now) then
            match rows.insert (newCategory command id now) with
            | none => .error .storageError
            | some rows => .ok rows
          else .error .storageError

/-- What an accepted parent is. -/
theorem validate_parent_eq_ok {rows : CategoryRows} {command : CreateCategoryCommand}
    (valid : validateParent rows command = .ok ()) :
    ∀ parentId ∈ command.parentId, ∃ parent, rows.get parentId = some parent ∧
      parent.parentId = none ∧ parent.type = command.type := by
  intro parentId given
  unfold validateParent at valid
  rw [Option.mem_def.mp given] at valid
  simp only at valid
  split at valid
  · cases valid
  · rename_i parent found
    refine ⟨parent, found, ?_⟩
    unfold Category.validateCanBeParent at valid
    by_cases leaf : parent.isLeaf = true
    · rw [if_pos leaf] at valid
      cases valid
    · rw [if_neg leaf] at valid
      by_cases same : parent.type = command.type
      · exact ⟨by simpa [Category.isLeaf] using leaf, same⟩
      · simp [same] at valid

def accepts (rows : CategoryRows) (command : CreateCategoryCommand) (id : CategoryId)
    (now : Timestamp) : Bool :=
  (validateParent rows command).isOk &&
    (getUserCategoryByName rows command.userId command.name).isNone &&
    fits (newCategory command id now) && (rows.get id).isNone

theorem create_category_eq_ok {rows next : CategoryRows} {command : CreateCategoryCommand}
    {id : CategoryId} {now : Timestamp} (created : createCategory rows command id now = .ok next) :
    accepts rows command id now = true ∧ validateParent rows command = .ok () ∧
      rows.insert (newCategory command id now) = some next := by
  unfold createCategory at created
  split at created
  · cases created
  · rename_i valid
    split at created
    · cases created
    · rename_i unnamed
      split at created
      · rename_i narrow
        split at created
        · cases created
        · rename_i inserted
          cases created
          have fresh : rows.get id = none := (Table.insert_eq_some inserted).1
          refine ⟨?_, valid, inserted⟩
          simp [accepts, valid, unnamed, narrow, fresh, Except.isOk, Except.toBool]
      · cases created

theorem create_category_eq_error {rows : CategoryRows} {command : CreateCategoryCommand}
    {id : CategoryId} {now : Timestamp} {error : CategoryError}
    (refused : createCategory rows command id now = .error error) :
    accepts rows command id now = false := by
  unfold createCategory at refused
  split at refused
  · rename_i invalid
    simp [accepts, invalid, Except.isOk, Except.toBool]
  · split at refused
    · rename_i named
      simp [accepts, named]
    · split at refused
      · split at refused
        · rename_i taken
          have present : (rows.get id).isSome = true := Table.insert_eq_none taken
          simp [accepts, present]
        · cases refused
      · rename_i wide
        simp [accepts, wide]

end Yomochi.Categories
