import Yomochi.Categories.Forest
import Yomochi.Recurring.Effects
import Yomochi.Recurring.Progress

/-! The categories of transactions and of recurring rules, under the requests of all users and the
runs of the scheduler. -/

namespace Yomochi.Categories.Isolation

open Foundation Recurring

structure State where
  categories : CategoryRows
  rules : Table RecurringRule.id
  transactions : Table Transaction.id
  recurringUnique : (recurringKeys transactions.rows).Nodup

def State.start : State := ⟨seeded, .empty, .empty, recurring_keys_nil⟩

def listed (categories : CategoryRows) : Table Recurring.Category.id :=
  categories.view (fun row => ⟨row.id, row.isSystem, row.userId, row.parentId⟩) fun _ => rfl

def State.store (s : State) : Store :=
  ⟨s.rules, s.transactions, listed s.categories, s.recurringUnique⟩

def State.write (s : State) (after : Store) : State :=
  { s with
    rules := after.rules
    transactions := after.transactions
    recurringUnique := after.recurringUnique }

/-- A run fires whatever its query asks for: the job asks for `dueStatus`, and gets nothing. -/
inductive Action
  | createCategory (action : Categories.Action)
  | createTransaction (command : CreateTransactionCommand) (script : FireScript)
  | updateTransaction (command : UpdateTransactionCommand)
  | createRule (command : CreateRecurringRuleCommand) (id : RecurringRuleId)
  | updateRule (command : UpdateRecurringRuleCommand) (today : Date) (now : Timestamp)
  | fire (operand : StatusOperand) (today : Date) (scripts : List BatchScript)

def step (s : State) : Action → Option State
  | .createCategory action =>
      (Categories.step s.categories action).map fun categories => { s with categories := categories }
  | .createTransaction command script =>
      some (s.write (createTransactionRequest s.store script command).2)
  | .updateTransaction command => some (s.write (Recurring.updateTransaction s.store command).2)
  | .createRule command id => some (s.write (createRecurringRule s.store command id).2)
  | .updateRule command today now => some (s.write (updateRecurringRule s.store command today now).2)
  | .fire operand today scripts => (fireRulesOf operand s.store today scripts).map fun ended =>
      match ended with
      | .ok after => s.write after
      | .error _ => s

/-- No category, or a leaf that is a system category or the user's. -/
def Assignable (categories : CategoryRows) (userId : UserId) (categoryId : Option CategoryId) : Prop :=
  ∀ id ∈ categoryId, ∃ category ∈ categories.get id,
    category.isLeaf = true ∧ category.usableBy userId

instance (categories : CategoryRows) (userId : UserId) (categoryId : Option CategoryId) :
    Decidable (Assignable categories userId categoryId) :=
  inferInstanceAs (Decidable (∀ _ ∈ _, _))

def Isolated (s : State) : Prop :=
  (∀ entry ∈ s.transactions.rows, Assignable s.categories entry.userId entry.categoryId) ∧
    ∀ rule ∈ s.rules.rows, Assignable s.categories rule.userId rule.categoryId

instance (s : State) : Decidable (Isolated s) := inferInstanceAs (Decidable (_ ∧ _))

/-- A request names no category of another user, and for a rule no group. -/
def OwnCategory (s : State) : Action → Prop
  | .createTransaction command _ => ∀ id ∈ command.categoryId,
      ∀ category ∈ s.categories.get id, category.usableBy command.userId
  | .updateTransaction command => .categoryId ∈ command.fieldsToUpdate → ∀ id ∈ command.categoryId,
      ∀ category ∈ s.categories.get id, category.usableBy command.userId
  | .createRule command _ => ∀ id ∈ command.categoryId,
      ∀ category ∈ s.categories.get id, category.isLeaf = true ∧ category.usableBy command.userId
  | _ => True

instance (s : State) (a : Action) : Decidable (OwnCategory s a) :=
  match a with
  | .createCategory _ => inferInstanceAs (Decidable True)
  | .createTransaction _ _ => inferInstanceAs (Decidable (∀ _ ∈ _, _))
  | .updateTransaction _ => inferInstanceAs (Decidable (_ → _))
  | .createRule _ _ => inferInstanceAs (Decidable (∀ _ ∈ _, _))
  | .updateRule _ _ _ => inferInstanceAs (Decidable True)
  | .fire _ _ _ => inferInstanceAs (Decidable True)

section

variable {s : State} {categories next : CategoryRows} {userId : UserId}
  {categoryId : Option CategoryId}

/-- Categories are only ever added. -/
theorem assignable_step {action : Categories.Action}
    (taken : Categories.step categories action = some next)
    (assignable : Assignable categories userId categoryId) :
    Assignable next userId categoryId := by
  unfold Categories.step at taken
  split at taken
  · cases taken
    exact assignable
  · rename_i created
    cases taken
    obtain ⟨_, _, inserted⟩ := create_category_eq_ok created
    intro id given
    obtain ⟨category, found, usable⟩ := assignable id given
    exact ⟨category, get_kept inserted found, usable⟩

theorem known_category (known : s.store.knowsCategory categoryId = true) {id : CategoryId}
    (given : id ∈ categoryId) : ∃ category, s.categories.get id = some category := by
  rw [Store.knowsCategory, Option.mem_def.mp given, Option.all_some] at known
  have found : ((listed s.categories).get id).isSome = true := known
  rw [listed, Table.get_view, Option.isSome_map] at found
  exact Option.isSome_iff_exists.mp found

theorem leaf_of_valid {id : CategoryId} {category : Category}
    (valid : validateCategory s.store userId (some id) = .ok ())
    (found : s.categories.get id = some category) (usable : category.usableBy userId) :
    category.isLeaf = true := by
  have seen : getByIdForUser s.store id userId =
      some ⟨category.id, category.isSystem, category.userId, category.parentId⟩ := by
    rw [getByIdForUser]
    change ((listed s.categories).get id).filter _ = _
    rw [listed, Table.get_view, found]
    rcases usable with system | owned
    · simp [system]
    · simp [owned]
  simp only [validateCategory, seen] at valid
  split at valid
  · cases valid
  · rename_i leaf
    exact Option.isSome_iff_ne_none.mpr leaf

theorem assignable_of_valid (valid : validateCategory s.store userId categoryId = .ok ())
    (known : s.store.knowsCategory categoryId = true)
    (usable : ∀ id ∈ categoryId, ∀ category ∈ s.categories.get id, category.usableBy userId) :
    Assignable s.categories userId categoryId := by
  intro id given
  obtain ⟨category, found⟩ := known_category known given
  cases Option.mem_def.mp given
  have own := usable id rfl category found
  exact ⟨category, found, leaf_of_valid valid found own, own⟩

theorem knows_of_admits {store : Store} {entry : Transaction}
    (admitted : store.admitsTransaction entry = true) :
    store.knowsCategory entry.categoryId = true := by
  simp only [Store.admitsTransaction, Bool.and_eq_true] at admitted
  exact admitted.1.2

theorem knows_of_admits_rule {store : Store} {rule : RecurringRule}
    (admitted : store.admitsRule rule = true) : store.knowsCategory rule.categoryId = true := by
  simp only [Store.admitsRule, Bool.and_eq_true] at admitted
  exact admitted.1.1.1.2

theorem isolated_start : Isolated .start := by
  constructor
  · intro entry member
    cases member
  · intro rule member
    cases member

theorem isolated_create_transaction (s : State) (command : CreateTransactionCommand)
    (script : FireScript) (guard : OwnCategory s (.createTransaction command script))
    (isolated : Isolated s) :
    Isolated (s.write (createTransactionRequest s.store script command).2) := by
  obtain same | ⟨valid, admitted, rules, appended⟩ :=
    create_transaction_cases s.store script command
  · rw [same]
    exact isolated
  · constructor
    · intro entry member
      change entry ∈ (createTransactionRequest s.store script command).2.transactions.rows at member
      rw [appended] at member
      rcases List.mem_append.mp member with old | new
      · exact isolated.1 entry old
      · cases List.mem_singleton.mp new
        exact assignable_of_valid (s := s) valid (knows_of_admits admitted) guard
    · intro rule member
      change rule ∈ (createTransactionRequest s.store script command).2.rules.rows at member
      rw [rules] at member
      exact isolated.2 rule member

theorem isolated_update_transaction (s : State) (command : UpdateTransactionCommand)
    (guard : OwnCategory s (.updateTransaction command)) (isolated : Isolated s) :
    Isolated (s.write (Recurring.updateTransaction s.store command).2) := by
  obtain same | ⟨row, updated, found, revised, admitted, rules, _, transactions⟩ :=
    update_transaction_cases s.store command
  · rw [same]
    exact isolated
  · obtain ⟨stored, owned⟩ := Option.filter_eq_some_iff.mp found
    have owner : row.userId = command.userId := of_decide_eq_true owned
    constructor
    · intro entry member
      change entry ∈ (Recurring.updateTransaction s.store command).2.transactions.rows at member
      rw [transactions] at member
      rcases Table.mem_replace member with rfl | ⟨old, _⟩
      · have known := knows_of_admits admitted
        rw [revised.categoryId] at known
        rw [revised.userId, revised.categoryId]
        have valid := revised.valid
        by_cases given : Field.categoryId ∈ command.fieldsToUpdate
        · simp only [UpdateTransactionCommand.newCategory, UpdateTransactionCommand.given, given,
            if_true, Option.getD_some] at known valid ⊢
          rw [owner]
          exact assignable_of_valid valid known (guard given)
        · simp only [UpdateTransactionCommand.newCategory, UpdateTransactionCommand.given, given,
            if_false, Option.getD_none]
          exact isolated.1 row (Table.mem_of_get stored)
      · exact isolated.1 entry old
    · intro rule member
      change rule ∈ (Recurring.updateTransaction s.store command).2.rules.rows at member
      rw [rules] at member
      exact isolated.2 rule member

theorem isolated_create_rule (s : State) (command : CreateRecurringRuleCommand)
    (id : RecurringRuleId) (guard : OwnCategory s (.createRule command id))
    (isolated : Isolated s) :
    Isolated (s.write (createRecurringRule s.store command id).2) := by
  obtain same | ⟨amount, firstFire, rules, _, admitted, inserted, after⟩ :=
    create_rule_cases s.store command id
  · rw [same]
    exact isolated
  · rw [after]
    refine ⟨isolated.1, ?_⟩
    intro rule member
    change rule ∈ rules.rows at member
    rw [(Table.insert_eq_some inserted).2] at member
    rcases List.mem_append.mp member with old | new
    · exact isolated.2 rule old
    · cases List.mem_singleton.mp new
      intro categoryId given
      obtain ⟨category, found⟩ := known_category (knows_of_admits_rule admitted) given
      exact ⟨category, found, guard categoryId given category found⟩

theorem isolated_update_rule (s : State) (command : UpdateRecurringRuleCommand) (today : Date)
    (now : Timestamp) (isolated : Isolated s) :
    Isolated (s.write (updateRecurringRule s.store command today now).2) := by
  obtain same | ⟨row, rule, found, updated, rewrites⟩ :=
    update_rule_cases s.store command today now
  · rw [same]
    exact isolated
  · constructor
    · intro entry member
      change entry ∈ (updateRecurringRule s.store command today now).2.transactions.rows at member
      rw [rewrites.transactions] at member
      exact isolated.1 entry member
    · intro other member
      change other ∈ (updateRecurringRule s.store command today now).2.rules.rows at member
      rw [rewrites.rules] at member
      rcases Table.mem_replace member with rfl | ⟨old, _⟩
      · rw [updated.userId, updated.categoryId]
        exact isolated.2 row (Table.mem_of_get (Option.filter_eq_some_iff.mp found).1)
      · exact isolated.2 other old

/-- A run copies the user and the category of a rule. -/
theorem isolated_fire (s : State) (operand : StatusOperand) (today : Date)
    (scripts : List BatchScript) (after : Store)
    (committed : fireRulesOf operand s.store today scripts = some (.ok after))
    (isolated : Isolated s) : Isolated (s.write after) := by
  obtain ⟨fired, session, holds, flushes, commits, _⟩ :=
    fire_rules_holds (progress s.store today) committed
  constructor
  · intro entry member
    change entry ∈ after.transactions.rows at member
    rw [commits.appended] at member
    rcases List.mem_append.mp member with old | new
    · exact isolated.1 entry old
    · obtain ⟨row, fires, _, _, _, _, _, rfl⟩ := holds.entries entry new
      exact isolated.2 row (holds.due row fires).1.stored
  · intro rule member
    obtain ⟨row, stored, rfl⟩ := rule_after commits flushes member
    have same := same_of_flushes (flushes row stored)
    rw [same.userId, same.categoryId]
    exact isolated.2 row stored

theorem isolated_step (s : State) (a : Action) (t : State) (guard : OwnCategory s a)
    (taken : step s a = some t) (isolated : Isolated s) : Isolated t := by
  cases a with
  | createCategory action =>
      obtain ⟨next, grown, rfl⟩ := Option.map_eq_some_iff.mp taken
      exact ⟨fun entry member => assignable_step grown (isolated.1 entry member),
        fun rule member => assignable_step grown (isolated.2 rule member)⟩
  | createTransaction command script =>
      cases taken
      exact isolated_create_transaction s command script guard isolated
  | updateTransaction command =>
      cases taken
      exact isolated_update_transaction s command guard isolated
  | createRule command id =>
      cases taken
      exact isolated_create_rule s command id guard isolated
  | updateRule command today now =>
      cases taken
      exact isolated_update_rule s command today now isolated
  | fire operand today scripts =>
      obtain ⟨ended, ran, rfl⟩ := Option.map_eq_some_iff.mp taken
      cases ended with
      | error error => exact isolated
      | ok after => exact isolated_fire s operand today scripts after ran isolated

end

/-- Where the requests name no category of another user, none gets onto another user's rows. -/
theorem isolated_of_own (actions : List Action) (along : Along step OwnCategory .start actions) :
    Visits step Isolated .start actions :=
  visits_of_along isolated_step (fun _ isolated => isolated) along isolated_start

def hotelsOf (userId : Uuid) : List Action :=
  [.createCategory ⟨⟨⟨2⟩, "Hotels", .EXPENSE, some (gid 3), none, none⟩, ⟨200⟩, 0⟩,
    .createTransaction ⟨⟨userId⟩, ⟨80, "USD"⟩, firstOfMay, .EXPENSE, none, none, some ⟨200⟩, none⟩
      ⟨none, ⟨1⟩, 0, 0⟩]

theorem isolated_own_hotels : Visits step Isolated .start (hotelsOf 2) :=
  isolated_of_own (hotelsOf 2) (by decide +kernel)

theorem not_isolated : ¬ ∀ (actions : List Action) (s : State),
    run step .start actions = some s → Isolated s := by
  intro claimed
  have ends : (run step .start (hotelsOf 1)).any (fun s => decide (¬ Isolated s)) = true := by
    decide +kernel
  obtain ⟨s, reached, exposed⟩ := (Option.any_eq_true _ _).mp ends
  exact of_decide_eq_true exposed (claimed (hotelsOf 1) s reached)

end Yomochi.Categories.Isolation
