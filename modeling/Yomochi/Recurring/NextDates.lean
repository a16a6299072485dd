import Yomochi.Recurring.Interval
import Yomochi.Recurring.Progress

/-! The next date of an active rule against the transactions that the rule has already. A run is
taken to fire each due rule once, and to write all of them. -/

namespace Yomochi.Recurring.NextDates

open Foundation

structure State where
  store : Store
  today : Date

def State.start (categories : Table Category.id) (today : Date) : State :=
  ⟨⟨.empty, .empty, categories, recurring_keys_nil⟩, today⟩

/-- The answer of the script says in which order the rules are fired. -/
inductive Action
  | create (command : CreateRecurringRuleCommand) (id : RecurringRuleId)
  | update (command : UpdateRecurringRuleCommand) (now : Timestamp)
  | updateTransaction (command : UpdateTransactionCommand)
  | fire (script : BatchScript)
  | pass (days : Nat)

def fireEach (store : Store) (today : Date) (script : BatchScript) : Except JobError Session :=
  (fireAll store today script script.answer ([], .start)).map Prod.snd

/-- `Session.commit` without the sort of the changed rules. -/
def commitEach (store : Store) (session : Session) : Except JobError Store :=
  if session.aborted then .error .storageError else session.flush store

def step (s : State) : Action → Option State
  | .create command id => some { s with store := (createRecurringRule s.store command id).2 }
  | .update command now =>
      some { s with store := (updateRecurringRule s.store command s.today now).2 }
  | .updateTransaction command => some { s with store := (updateTransaction s.store command).2 }
  | .fire script =>
      if script.answer.Perm (dueRules s.store s.today) then
        match (fireEach s.store s.today script).bind (commitEach s.store) with
        | .error _ => some s
        | .ok after => some { s with store := after }
      else none
  | .pass days => (s.today.plusDays days).map fun today => { s with today := today }

def FreeAt (store : Store) (id : RecurringRuleId) (date : Date) : Prop :=
  ∀ entry ∈ store.transactions.rows, entry.recurringRuleId = some id → entry.date ≠ date

instance (store : Store) (id : RecurringRuleId) (date : Date) : Decidable (FreeAt store id date) :=
  inferInstanceAs (Decidable (∀ _ ∈ _, _))

def NextDatesFree (s : State) : Prop :=
  ∀ rule ∈ s.store.rules.rows, rule.status = .ACTIVE → FreeAt s.store rule.id rule.nextFireDate

instance (s : State) : Decidable (NextDatesFree s) := inferInstanceAs (Decidable (∀ _ ∈ _, _))

/-- No run adds a transaction that the unique index turns down. -/
def IndexHolds (s : State) : Prop :=
  ∀ script session, script.answer.Perm (dueRules s.store s.today) →
    fireEach s.store s.today script = .ok session → session.aborted = false →
      (recurringKeys (s.store.transactions.rows ++ session.added)).Nodup

def CanFire (s : State) : Prop := NextDatesFree s ∧ IndexHolds s

/-- An update leaves no rule active at a date that it has a transaction on, no transaction moves
to the next date of its active rule, and no run moves a rule on to a date that it has one on. -/
def KeepsFree (s : State) : Action → Prop
  | .update command _ => ∀ row ∈ getRule s.store command.ruleId command.userId,
      command.newStatus row = .ok .ACTIVE →
        ∀ date ∈ command.nextDate row s.today, FreeAt s.store row.id date
  | .updateTransaction command =>
      ∀ entry ∈ getTransaction s.store command.transactionId command.userId,
        ∀ id ∈ entry.recurringRuleId, ∀ rule ∈ s.store.rules.get id, rule.status = .ACTIVE →
          command.newDate entry ≠ rule.nextFireDate
  | .fire _ => ∀ row ∈ dueRules s.store s.today, Accepted s.store row →
      ∀ next ∈ (row.nextAfter s.today).toOption, (∀ ended ∈ row.endDate, next ≤ ended) →
        FreeAt s.store row.id next
  | _ => True

instance (s : State) (a : Action) : Decidable (KeepsFree s a) :=
  match a with
  | .create _ _ => inferInstanceAs (Decidable True)
  | .update _ _ => inferInstanceAs (Decidable (∀ _ ∈ _, _))
  | .updateTransaction _ => inferInstanceAs (Decidable (∀ _ ∈ _, _))
  | .fire _ => inferInstanceAs (Decidable (∀ _ ∈ _, _))
  | .pass _ => inferInstanceAs (Decidable True)

structure Invariant (s : State) : Prop where
  free : NextDatesFree s
  owned : ∀ entry ∈ s.store.transactions.rows, ∀ id ∈ entry.recurringRuleId,
    ∃ rule, s.store.rules.get id = some rule

section

variable {s : State}

theorem mem_recurring_keys {rows : List Transaction} {key : RecurringRuleId × Date} :
    key ∈ recurringKeys rows ↔
      ∃ row ∈ rows, row.recurringRuleId = some key.1 ∧ row.date = key.2 := by
  obtain ⟨id, date⟩ := key
  simp only [recurringKeys, List.mem_filterMap, Option.map_eq_some_iff, Prod.mk.injEq]
  constructor
  · rintro ⟨row, member, _, owner, rfl, dated⟩
    exact ⟨row, member, owner, dated⟩
  · rintro ⟨row, member, owner, dated⟩
    exact ⟨row, member, id, owner, rfl, dated⟩

theorem recurring_keys_fst (rows : List Transaction) :
    (recurringKeys rows).map Prod.fst = rows.filterMap Transaction.recurringRuleId := by
  rw [recurringKeys, List.map_filterMap]
  congr 1
  funext row
  cases row.recurringRuleId <;> rfl

theorem commit_each_eq_ok {store after : Store} {session : Session}
    (ok : commitEach store session = .ok after) : Commits store session after := by
  unfold commitEach at ok
  split at ok
  · cases ok
  · rename_i running
    exact flush_eq_ok (Bool.eq_false_iff.mpr running) ok

theorem due_distinct {store : Store} {today : Date} {due : List RecurringRule}
    (order : due.Perm (dueRules store today)) : (due.map RecurringRule.id).Nodup := by
  rw [(order.map RecurringRule.id).nodup_iff]
  exact store.rules.unique.sublist (List.filter_sublist.map RecurringRule.id)

/-- A run that gets to its commit has fired some of the due rules, each of them once. -/
theorem fire_each_holds {store : Store} {today : Date} {script : BatchScript} {session : Session}
    (order : script.answer.Perm (dueRules store today))
    (ok : fireEach store today script = .ok session) (sound : session.aborted = false) :
    ∃ fired, Progress store today fired session ∧ Flushes store session ∧
      (∀ row ∈ fired, Due store today row) ∧ (fired.map RecurringRule.id).Nodup := by
  unfold fireEach at ok
  cases ran : fireAll store today script script.answer ([], .start) with
  | error error =>
      rw [ran] at ok
      cases ok
  | ok result =>
      rw [ran] at ok
      cases ok
      have distinct := due_distinct order
      have objects : script.answer.map Session.start.object = script.answer := List.map_id _
      rw [← objects] at ran
      obtain ⟨fired, holds, flushes, listed⟩ := fire_all_holds (progress store today) distinct
        (fun row member => (mem_due_rules.mp (order.mem_iff.mp member)).toReached) ran sound
        (flushes_start store) (progress_start store today)
      have due (row : RecurringRule) (member : row ∈ fired) : Due store today row :=
        mem_due_rules.mp (order.mem_iff.mp (listed.subset member))
      exact ⟨fired, holds, flushes, due, distinct.sublist (listed.map RecurringRule.id)⟩

section

variable {store : Store} {today : Date} {fired : List RecurringRule} {session : Session}

theorem count_of_distinct (distinct : (fired.map RecurringRule.id).Nodup) {row : RecurringRule}
    (listed : row ∈ fired) : fired.count row = 1 :=
  List.count_eq_one_of_mem (distinct.of_map _) listed

theorem entry_of_fired (progress : Progress store today fired session)
    (distinct : (fired.map RecurringRule.id).Nodup) {entry : Transaction}
    (added : entry ∈ session.added) :
    ∃ row ∈ fired, entry.recurringRuleId = some row.id ∧ entry.date = row.nextFireDate := by
  obtain ⟨row, listed, n, less, date, script, dated, rfl⟩ := progress.entries entry added
  rw [count_of_distinct distinct listed, Nat.lt_one_iff] at less
  subst less
  cases dated
  exact ⟨row, listed, rfl, rfl⟩

theorem next_of_fired (progress : Progress store today fired session)
    (distinct : (fired.map RecurringRule.id).Nodup) {row : RecurringRule} (listed : row ∈ fired) :
    row.nextAfter today = .ok (session.object row).nextFireDate := by
  have dated := progress.dates row (progress.due row listed).1.stored
  rw [count_of_distinct distinct listed] at dated
  exact dated

/-- The rules that a run fires have nothing yet on the dates of their new transactions. -/
theorem keys_after_run (free : NextDatesFree ⟨store, today⟩)
    (progress : Progress store today fired session) (due : ∀ row ∈ fired, Due store today row)
    (distinct : (fired.map RecurringRule.id).Nodup) :
    (recurringKeys (store.transactions.rows ++ session.added)).Nodup := by
  rw [recurringKeys, List.filterMap_append]
  refine List.nodup_append.mpr ⟨store.recurringUnique, ?_, ?_⟩
  · apply List.Nodup.of_map Prod.fst
    change ((recurringKeys session.added).map Prod.fst).Nodup
    have owners : session.added.filterMap Transaction.recurringRuleId =
        fired.map RecurringRule.id := by
      calc
        session.added.filterMap Transaction.recurringRuleId =
            (session.added.map Transaction.recurringRuleId).filterMap id := by
          rw [List.filterMap_map]
          rfl
        _ = (fired.map fun row => some row.id).filterMap id := by rw [progress.owners]
        _ = fired.map RecurringRule.id := by
          rw [List.filterMap_map]
          exact congrFun (List.filterMap_eq_map (f := RecurringRule.id)) fired
    rw [recurring_keys_fst, owners]
    exact distinct
  · intro key old other new same
    subst same
    obtain ⟨before, stored, owner, dated⟩ := mem_recurring_keys.mp old
    obtain ⟨entry, added, owner', dated'⟩ := mem_recurring_keys.mp new
    obtain ⟨row, listed, mine, date⟩ := entry_of_fired progress distinct added
    have ids : key.1 = row.id := Option.some.inj (owner'.symm.trans mine)
    rw [ids] at owner
    exact free row (due row listed).stored (due row listed).active before stored owner
      (dated.trans (dated'.symm.trans date))

end

theorem can_fire_of_invariant (s : State) (invariant : Invariant s) : CanFire s := by
  refine ⟨invariant.free, ?_⟩
  intro script session order ok sound
  obtain ⟨fired, progress, _, due, distinct⟩ := fire_each_holds order ok sound
  exact keys_after_run invariant.free progress due distinct

theorem invariant_start (categories : Table Category.id) (today : Date) :
    Invariant (.start categories today) where
  free := by
    intro rule member
    cases member
  owned := by
    intro entry member
    cases member

theorem invariant_create (s : State) (command : CreateRecurringRuleCommand) (id : RecurringRuleId)
    (invariant : Invariant s) :
    Invariant { s with store := (createRecurringRule s.store command id).2 } := by
  obtain same | ⟨amount, firstFire, rules, _, _, inserted, after⟩ :=
    create_rule_cases s.store command id
  · rw [same]
    exact invariant
  · have absent : s.store.rules.get id = none := (Table.insert_eq_some inserted).1
    rw [after]
    constructor
    · intro rule member active entry stored owner
      change rule ∈ rules.rows at member
      rw [(Table.insert_eq_some inserted).2] at member
      rcases List.mem_append.mp member with old | new
      · exact invariant.free rule old active entry stored owner
      · -- No transaction can have a rule that is not there yet.
        cases List.mem_singleton.mp new
        obtain ⟨rule, found⟩ := invariant.owned entry stored id owner
        cases absent.symm.trans found
    · intro entry stored ruleId owner
      obtain ⟨rule, found⟩ := invariant.owned entry stored ruleId owner
      refine ⟨rule, ?_⟩
      change rules.get ruleId = some rule
      rw [Table.get_insert inserted]
      split
      · rename_i equal
        rw [← equal] at found
        cases absent.symm.trans found
      · exact found

theorem invariant_update (s : State) (command : UpdateRecurringRuleCommand) (now : Timestamp)
    (guard : KeepsFree s (.update command now)) (invariant : Invariant s) :
    Invariant { s with store := (updateRecurringRule s.store command s.today now).2 } := by
  obtain same | ⟨row, rule, found, updated, rewrites⟩ :=
    update_rule_cases s.store command s.today now
  · rw [same]
    exact invariant
  · constructor
    · intro other member active entry stored owner
      change other ∈ (updateRecurringRule s.store command s.today now).2.rules.rows at member
      change entry ∈ (updateRecurringRule s.store command s.today now).2.transactions.rows at stored
      rw [rewrites.rules] at member
      rw [rewrites.transactions] at stored
      rcases Table.mem_replace member with rfl | ⟨old, _⟩
      · have status := updated.status
        rw [active] at status
        rw [updated.id] at owner
        exact guard row found status other.nextFireDate updated.next entry stored owner
      · exact invariant.free other old active entry stored owner
    · intro entry stored ruleId owner
      change entry ∈ (updateRecurringRule s.store command s.today now).2.transactions.rows at stored
      rw [rewrites.transactions] at stored
      obtain ⟨old, before⟩ := invariant.owned entry stored ruleId owner
      change ∃ new, (updateRecurringRule s.store command s.today now).2.rules.get ruleId = some new
      rw [rewrites.rules, Table.get_replace, before]
      split
      · exact ⟨rule, rfl⟩
      · exact ⟨old, rfl⟩

theorem invariant_update_transaction (s : State) (command : UpdateTransactionCommand)
    (guard : KeepsFree s (.updateTransaction command)) (invariant : Invariant s) :
    Invariant { s with store := (updateTransaction s.store command).2 } := by
  obtain same | ⟨row, updated, found, revised, _, rules, _, transactions⟩ :=
    update_transaction_cases s.store command
  · rw [same]
    exact invariant
  · have stored := Table.mem_of_get (Option.filter_eq_some_iff.mp found).1
    constructor
    · intro rule member active entry inside owner
      change rule ∈ (updateTransaction s.store command).2.rules.rows at member
      change entry ∈ (updateTransaction s.store command).2.transactions.rows at inside
      rw [rules] at member
      rw [transactions] at inside
      rcases Table.mem_replace inside with rfl | ⟨old, _⟩
      · rw [revised.recurringRuleId] at owner
        rw [revised.date]
        exact guard row found rule.id owner rule (Table.get_of_mem member) active
      · exact invariant.free rule member active entry old owner
    · intro entry inside ruleId owner
      change entry ∈ (updateTransaction s.store command).2.transactions.rows at inside
      change ∃ rule, (updateTransaction s.store command).2.rules.get ruleId = some rule
      rw [transactions] at inside
      rw [rules]
      rcases Table.mem_replace inside with rfl | ⟨old, _⟩
      · rw [revised.recurringRuleId] at owner
        exact invariant.owned row stored ruleId owner
      · exact invariant.owned entry old ruleId owner

theorem invariant_fire (s : State) (script : BatchScript) (session : Session) (after : Store)
    (order : script.answer.Perm (dueRules s.store s.today))
    (ok : fireEach s.store s.today script = .ok session)
    (committed : commitEach s.store session = .ok after)
    (guard : KeepsFree s (.fire script)) (invariant : Invariant s) :
    Invariant { s with store := after } := by
  have commits := commit_each_eq_ok committed
  obtain ⟨fired, progress, flushes, reaches, distinct⟩ := fire_each_holds order ok commits.sound
  constructor
  · intro rule member active entry inside owner
    obtain ⟨row, stored, rfl⟩ := rule_after commits flushes member
    have mine := (same_of_flushes (flushes row stored)).id
    rw [mine] at owner
    change entry ∈ after.transactions.rows at inside
    rw [commits.appended] at inside
    by_cases listed : row ∈ fired
    · have due := reaches row listed
      have accepted := (progress.due row listed).2
      have moved := next_of_fired progress distinct listed
      rcases List.mem_append.mp inside with old | new
      · exact guard row (mem_due_rules.mpr due) accepted _ (by rw [moved]; rfl)
          (progress.ended row listed active) entry old owner
      · -- The new transaction is dated up to today, the rule moves on behind it.
        obtain ⟨other, again, owner', dated⟩ := entry_of_fired progress distinct new
        have ids : other.id = row.id := Option.some.inj (owner'.symm.trans owner)
        cases List.inj_on_of_nodup_map s.store.rules.unique (progress.due other again).1.stored
          stored ids
        rw [dated]
        intro equal
        have later := Date.lt_of_le_of_lt due.reached (next_after_lt moved)
        rw [← equal] at later
        exact Nat.lt_irrefl _ later
    · rw [progress.idle row stored listed] at active ⊢
      rcases List.mem_append.mp inside with old | new
      · exact invariant.free row stored active entry old owner
      · obtain ⟨other, again, owner', _⟩ := entry_of_fired progress distinct new
        have ids : other.id = row.id := Option.some.inj (owner'.symm.trans owner)
        cases List.inj_on_of_nodup_map s.store.rules.unique (progress.due other again).1.stored
          stored ids
        exact absurd again listed
  · intro entry inside ruleId owner
    change entry ∈ after.transactions.rows at inside
    rw [commits.appended] at inside
    rcases List.mem_append.mp inside with old | new
    · obtain ⟨row, found⟩ := invariant.owned entry old ruleId owner
      exact ⟨_, get_after commits flushes found⟩
    · obtain ⟨row, listed, owner', _⟩ := entry_of_fired progress distinct new
      cases Option.some.inj (owner'.symm.trans owner)
      exact ⟨_, get_after commits flushes (Table.get_of_mem (progress.due row listed).1.stored)⟩

theorem invariant_step (s : State) (a : Action) (t : State) (guard : KeepsFree s a)
    (taken : step s a = some t) (invariant : Invariant s) : Invariant t := by
  cases a with
  | create command id =>
      obtain rfl := Option.some.inj taken
      exact invariant_create s command id invariant
  | update command now =>
      obtain rfl := Option.some.inj taken
      exact invariant_update s command now guard invariant
  | updateTransaction command =>
      obtain rfl := Option.some.inj taken
      exact invariant_update_transaction s command guard invariant
  | fire script =>
      simp only [step] at taken
      split at taken
      · rename_i order
        cases ran : fireEach s.store s.today script with
        | error error =>
            rw [ran] at taken
            cases taken
            exact invariant
        | ok session =>
            rw [ran] at taken
            simp only [Except.bind] at taken
            split at taken
            · cases taken
              exact invariant
            · rename_i after committed
              cases taken
              exact invariant_fire s script session after order ran committed guard invariant
      · cases taken
  | pass days =>
      obtain ⟨today, _, rfl⟩ := Option.map_eq_some_iff.mp taken
      exact ⟨invariant.free, invariant.owned⟩

end

/-- Along a run that keeps the next dates free, every due rule can fire. -/
theorem can_fire_of_free (categories : Table Category.id) (today : Date) (actions : List Action)
    (along : Along step KeepsFree (.start categories today) actions) :
    Visits step CanFire (.start categories today) actions :=
  visits_of_along invariant_step can_fire_of_invariant along (invariant_start categories today)

section

open Recurring.Interval (rent rentRule farEnd)

def sixteenthOfMay : Date := { firstOfMay with day := 16, dayBounds := by decide }

def firedRun : List Action :=
  [.create (rent farEnd) ⟨1⟩, .pass 14,
    .fire ⟨[rentRule farEnd], fun _ => false, fun _ => ⟨none, ⟨7⟩, 0, 0⟩⟩]

def moveTransaction : Action :=
  .updateTransaction ⟨⟨3⟩, ⟨7⟩, [.date], none, none, some sixteenthOfMay, none, none, none, none⟩

/-- The schedule is set again, on the day on which the rule has been fired. -/
def reschedule : Action :=
  .update ⟨⟨1⟩, ⟨3⟩, none, some 15, none, none, none, none⟩ 0

theorem can_fire_moved_transaction :
    Visits step CanFire (.start .empty firstOfMay) (firedRun ++ [moveTransaction]) :=
  can_fire_of_free .empty firstOfMay (firedRun ++ [moveTransaction]) (by decide +kernel)

/-- The rule is due again on the day of the transaction that it has just got. -/
theorem not_can_fire : ¬ ∀ (categories : Table Category.id) (today : Date)
    (actions : List Action) (s : State),
    run step (.start categories today) actions = some s → CanFire s := by
  intro claimed
  have ends : (run step (.start .empty firstOfMay) (firedRun ++ [reschedule])).any (fun s =>
      decide (¬ NextDatesFree s)) = true := by
    decide +kernel
  obtain ⟨s, reached, taken⟩ := (Option.any_eq_true _ _).mp ends
  exact of_decide_eq_true taken
    (claimed .empty firstOfMay (firedRun ++ [reschedule]) s reached).1

end

end Yomochi.Recurring.NextDates
