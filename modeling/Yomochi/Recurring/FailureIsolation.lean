import Yomochi.Recurring.Firings

/-! The due rules of a run beside those that fail. The run is compared with one in which the
failing rules are absent. -/

namespace Yomochi.Recurring

open Foundation

def without (failing : RecurringRuleId → Bool) (rules : List RecurringRule) : List RecurringRule :=
  rules.filter fun rule => !failing rule.id

def Store.without (store : Store) (failing : RecurringRuleId → Bool) : Store :=
  { store with rules := store.rules.delete fun row => failing row.id }

/-- A run that does not commit is rolled back. -/
def persisted (store : Store) : Except JobError Store → Store
  | .error _ => store
  | .ok after => after

/-- What the database holds of the other rules, and all transactions. -/
def othersRows (failing : RecurringRuleId → Bool) (store : Store) :
    List RecurringRule × List Transaction :=
  (Recurring.without failing store.rules.rows, store.transactions.rows)

def Fired (before after : Store) (today : Date) (rule : RecurringRule) : Prop :=
  (∃ entry ∈ newFor before after rule.id, entry.date = rule.nextFireDate) ∧
    ∃ moved ∈ after.rules.get rule.id, today < moved.nextFireDate

/-- `after` is what a run leaves, `absent` what one leaves that does not have the failing rules. -/
structure FailuresIsolated (before after absent : Store) (today : Date)
    (failing : RecurringRuleId → Bool) : Prop where
  fired : ∀ rule ∈ without failing (dueRules before today), Fired before after today rule
  unaware : othersRows failing after = othersRows failing absent

theorem new_for_self (store : Store) (id : RecurringRuleId) : newFor store store id = [] := by
  rw [newFor, List.filter_eq_nil_iff]
  intro row member
  simp [Table.get_of_mem member]

theorem not_fired_self (store : Store) (today : Date) (rule : RecurringRule) :
    ¬ Fired store store today rule := by
  rintro ⟨⟨entry, new, _⟩, _⟩
  rw [new_for_self] at new
  cases new

theorem others_rows_without (store : Store) (failing : RecurringRuleId → Bool) :
    othersRows failing (store.without failing) = othersRows failing store := by
  have twice : without failing (without failing store.rules.rows) =
      without failing store.rules.rows := List.filter_filter .. |>.trans (by simp [without])
  exact Prod.ext twice rfl

theorem persisted_idle {store : Store} {today : Date} {scripts : List BatchScript}
    {ended : Except JobError Store} (ran : fireDueRules store today scripts = some ended) :
    persisted store ended = store := by
  rw [fire_due_rules_idle ran]
  rfl

/-- The query finds none of the due rules, so that a run is right only where it has nothing to do
but for the failing ones. -/
theorem failures_isolated_iff (store : Store) (today : Date) (failing : RecurringRuleId → Bool)
    (scripts others : List BatchScript) (ended absent : Except JobError Store)
    (ran : fireDueRules store today scripts = some ended)
    (apart : fireDueRules (store.without failing) today others = some absent) :
    FailuresIsolated store (persisted store ended) (persisted (store.without failing) absent) today
        failing ↔
      ∀ rule ∈ dueRules store today, failing rule.id = true := by
  rw [persisted_idle ran, persisted_idle apart]
  constructor
  · intro isolated rule due
    by_contra sound
    have other : rule ∈ without failing (dueRules store today) :=
      List.mem_filter.mpr ⟨due, by simpa using sound⟩
    exact not_fired_self store today rule (isolated.fired rule other)
  · intro fails
    refine ⟨?_, (others_rows_without store failing).symm⟩
    intro rule other
    obtain ⟨due, sound⟩ := List.mem_filter.mp other
    rw [fails rule due] at sound
    cases sound

def isSalary (id : RecurringRuleId) : Bool := decide (id = salary.id)

theorem failures_isolated_iff_salary : FailuresIsolated salaryStore salaryStore
    (salaryStore.without isSalary) firstOfMay isSalary :=
  (failures_isolated_iff salaryStore firstOfMay isSalary [idleBatch] [idleBatch] _ _
    (fire_due_rules_idle_batch salaryStore firstOfMay)
    (fire_due_rules_idle_batch (salaryStore.without isSalary) firstOfMay)).mpr (by decide)

/-- No rule fails, and the one that is due is not fired. -/
theorem not_failures_isolated : ¬ ∀ (store : Store) (today : Date)
    (failing : RecurringRuleId → Bool) (scripts others : List BatchScript)
    (ended absent : Except JobError Store), fireDueRules store today scripts = some ended →
      fireDueRules (store.without failing) today others = some absent →
        FailuresIsolated store (persisted store ended) (persisted (store.without failing) absent)
          today failing := by
  intro claimed
  have isolated := claimed salaryStore firstOfMay (fun _ => false) [idleBatch] [idleBatch] _ _
    (fire_due_rules_idle_batch salaryStore firstOfMay)
    (fire_due_rules_idle_batch (salaryStore.without fun _ => false) firstOfMay)
  exact not_fired_self salaryStore firstOfMay salary (isolated.fired salary (by decide))

end Yomochi.Recurring
