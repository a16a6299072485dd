import Yomochi.Foundation.Runs
import Yomochi.Recurring.Effects

/-! The interval of a rule, from its `start_date` to its `end_date`, and the transactions that the
rule generates. -/

namespace Yomochi.Recurring.Interval

open Foundation

/-- `starts` is the column `start_date`, which is written once and read by nobody. -/
structure State where
  store : Store
  starts : RecurringRuleId → Option Date
  today : Date

def State.start (categories : Table Category.id) (today : Date) : State :=
  ⟨⟨.empty, .empty, categories, recurring_keys_nil⟩, fun _ => none, today⟩

inductive Action
  | create (command : CreateRecurringRuleCommand) (id : RecurringRuleId)
  | update (command : UpdateRecurringRuleCommand) (now : Timestamp)
  | fire (scripts : List BatchScript)
  | pass (days : Nat)

def step (s : State) : Action → Option State
  | .create command id => some { s with
      store := (createRecurringRule s.store command id).2
      starts := if s.store.rules.get id = none then
        Function.update s.starts id (some command.startDate) else s.starts }
  | .update command now =>
      some { s with store := (updateRecurringRule s.store command s.today now).2 }
  | .fire scripts => (fireDueRules s.store s.today scripts).map fun ended =>
      match ended with
      | .ok after => { s with store := after }
      | .error _ => s
  | .pass days => (s.today.plusDays days).map fun today => { s with today := today }

def Within (starts : RecurringRuleId → Option Date) (rule : RecurringRule) (date : Date) : Prop :=
  (∃ start ∈ starts rule.id, start ≤ date) ∧ ∀ ended ∈ rule.endDate, date ≤ ended

instance (starts : RecurringRuleId → Option Date) (rule : RecurringRule) (date : Date) :
    Decidable (Within starts rule date) :=
  inferInstanceAs (Decidable (_ ∧ _))

/-- Every transaction of a rule is dated in the interval of the rule. -/
def InInterval (s : State) : Prop :=
  ∀ entry ∈ s.store.transactions.rows, ∀ id ∈ entry.recurringRuleId,
    ∃ rule ∈ s.store.rules.get id, Within s.starts rule entry.date

instance (s : State) : Decidable (InInterval s) := inferInstanceAs (Decidable (∀ _ ∈ _, _))

section

variable {s : State}

theorem within_congr {starts : RecurringRuleId → Option Date} {rule other : RecurringRule}
    {date : Date} (id : other.id = rule.id) (ends : other.endDate = rule.endDate)
    (within : Within starts rule date) : Within starts other date := by
  rw [Within, id, ends]
  exact within

theorem within_update {starts : RecurringRuleId → Option Date} {rule : RecurringRule}
    {id : RecurringRuleId} {start date : Date} (different : rule.id ≠ id)
    (within : Within starts rule date) :
    Within (Function.update starts id (some start)) rule date := by
  rw [Within, Function.update_of_ne different]
  exact within

theorem in_interval_starts {id : RecurringRuleId} (start : Date) (inside : InInterval s)
    (absent : s.store.rules.get id = none) :
    InInterval { s with starts := Function.update s.starts id (some start) } := by
  intro entry member ruleId owner
  obtain ⟨rule, found, within⟩ := inside entry member ruleId owner
  refine ⟨rule, found, within_update ?_ within⟩
  rintro rfl
  have present := Table.get_of_mem (Table.mem_of_get found)
  rw [absent] at present
  cases present

theorem in_interval_create (s : State) (command : CreateRecurringRuleCommand) (id : RecurringRuleId)
    (inside : InInterval s) :
    InInterval { s with
      store := (createRecurringRule s.store command id).2
      starts := if s.store.rules.get id = none then
        Function.update s.starts id (some command.startDate) else s.starts } := by
  obtain same | ⟨amount, firstFire, rules, first, _, inserted, after⟩ :=
    create_rule_cases s.store command id
  · rw [same]
    split
    · rename_i absent
      exact in_interval_starts _ inside absent
    · exact inside
  · have absent : s.store.rules.get id = none := (Table.insert_eq_some inserted).1
    rw [after, if_pos absent]
    intro entry member ruleId owner
    obtain ⟨rule, found, within⟩ :=
      in_interval_starts command.startDate inside absent entry member ruleId owner
    refine ⟨rule, ?_, within⟩
    change rules.get ruleId = some rule
    rw [Table.get_insert inserted]
    split
    · rename_i equal
      rw [← equal] at found
      cases absent.symm.trans found
    · exact found

/-- No update touches the end of a rule, or a transaction. -/
theorem in_interval_update (s : State) (command : UpdateRecurringRuleCommand) (now : Timestamp)
    (inside : InInterval s) :
    InInterval { s with store := (updateRecurringRule s.store command s.today now).2 } := by
  obtain same | ⟨row, rule, found, updated, rewrites⟩ :=
    update_rule_cases s.store command s.today now
  · rw [same]
    exact inside
  · have stored : s.store.rules.get rule.id = some row := by
      have member := (Option.filter_eq_some_iff.mp found).1
      rw [updated.id, Table.key_of_get member]
      exact member
    intro entry member ruleId owner
    change entry ∈ (updateRecurringRule s.store command s.today now).2.transactions.rows at member
    rw [rewrites.transactions] at member
    obtain ⟨old, before, within⟩ := inside entry member ruleId owner
    change ∃ new ∈ (updateRecurringRule s.store command s.today now).2.rules.get ruleId, _
    rw [rewrites.rules, Table.get_replace]
    split
    · rename_i equal
      rw [equal, stored] at before
      cases before
      rw [equal, stored]
      exact ⟨rule, rfl, within_congr updated.id updated.endDate within⟩
    · exact ⟨old, before, within⟩

/-- Every step keeps the transactions of the rules in their intervals, whatever is stored. -/
theorem in_interval_step (s : State) (a : Action) (t : State) (taken : step s a = some t)
    (inside : InInterval s) : InInterval t := by
  cases a with
  | create command id =>
      obtain rfl := Option.some.inj taken
      exact in_interval_create s command id inside
  | update command now =>
      cases taken
      exact in_interval_update s command now inside
  | fire scripts =>
      obtain ⟨ended, ran, rfl⟩ := Option.map_eq_some_iff.mp taken
      rw [fire_due_rules_idle ran]
      exact inside
  | pass days =>
      obtain ⟨today, _, rfl⟩ := Option.map_eq_some_iff.mp taken
      exact inside

end

/-- Every transaction of a rule is dated in its interval, along every run. -/
theorem in_interval (categories : Table Category.id) (today : Date) (actions : List Action) :
    Visits step InInterval (.start categories today) actions := by
  refine visits_of_along (fun s a t _ => in_interval_step s a t) (fun _ inside => inside)
    (along_always (fun _ _ => trivial) _ _) ?_
  intro entry member
  cases member

def midMay : Date := { firstOfMay with day := 15, dayBounds := by decide }

def rent (endDate : Date) : CreateRecurringRuleCommand where
  userId := ⟨3⟩
  rawAmount := "1000"
  currency := "USD"
  type := .EXPENSE
  recurrence := .MONTHLY
  startDate := firstOfMay
  dayOfMonth := some 15
  dayOfWeek := none
  month := none
  merchant := none
  notes := none
  categoryId := none
  endDate := some endDate

def rentRule (endDate : Date) : RecurringRule := newRule (rent endDate) ⟨1⟩ ⟨1000, "USD"⟩ midMay

def farEnd : Date := ⟨2050, 1, 1, by decide, by decide, by decide⟩

def nearEnd : Date := { firstOfMay with day := 10, dayBounds := by decide }

/-- The rule ends before its first date, and nothing is made of it on that date. -/
example : (run step (.start .empty firstOfMay)
    [.create (rent nearEnd) ⟨1⟩, .pass 14, .fire [idleBatch]]).map (fun s =>
      (s.store.rules.rows, s.store.transactions.rows)) = some ([rentRule nearEnd], []) := by
  decide +kernel

end Yomochi.Recurring.Interval
