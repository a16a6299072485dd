import Yomochi.Recurring.FireRuns

/-! The dates at which one run fires a rule, and what the session holds of it. -/

namespace Yomochi.Recurring

open Foundation

/-- The date of the transaction that a rule gets when the run fires it for the `n`-th time. -/
def RecurringRule.dateOfFiring (rule : RecurringRule) (today : Date) : Nat → Except ScheduleError Date
  | 0 => .ok rule.nextFireDate
  | n + 1 => (rule.dateOfFiring today n).bind fun date =>
      { rule with nextFireDate := date }.nextAfter today

def FiredAt (row : RecurringRule) (today : Date) (n : Nat) (entry : Transaction) : Prop :=
  ∃ date script, row.dateOfFiring today n = .ok date ∧
    entry = newTransaction (fireCommand { row with nextFireDate := date }) script

structure Progress (store : Store) (today : Date) (fired : List RecurringRule) (session : Session) :
    Prop where
  due : ∀ row ∈ fired, Reached store today row ∧ Accepted store row
  owners : session.added.map Transaction.recurringRuleId = fired.map fun row => some row.id
  entries : ∀ entry ∈ session.added, ∃ row ∈ fired, ∃ n < fired.count row, FiredAt row today n entry
  dates : ∀ row ∈ store.rules.rows,
    row.dateOfFiring today (fired.count row) = .ok (session.object row).nextFireDate
  idle : ∀ row ∈ store.rules.rows, row ∉ fired → session.object row = row
  ended : ∀ row ∈ fired, (session.object row).status = .ACTIVE →
    ∀ ended ∈ row.endDate, (session.object row).nextFireDate ≤ ended

section

variable {store : Store} {today : Date} {fired : List RecurringRule} {session : Session}
  {script : FireScript} {row : RecurringRule} {next : Date}

/-- A rule that stays active has not moved behind its end. -/
theorem moveTo_active {rule : RecurringRule} {now : Timestamp}
    (active : (rule.moveTo next now).status = .ACTIVE) : ∀ ended ∈ rule.endDate, next ≤ ended := by
  intro ended has
  unfold RecurringRule.moveTo at active
  dsimp only at active
  split at active
  · cases active
  · rename_i inside
    rw [Option.mem_def.mp has, Option.any_some, decide_eq_true_eq] at inside
    exact Date.not_lt.mp inside

theorem progress_start (store : Store) (today : Date) : Progress store today [] .start where
  due := by simp
  owners := rfl
  entries := by simp [Session.start]
  dates := fun _ _ => rfl
  idle := fun _ _ _ => rfl
  ended := by simp

theorem object_next_after (flushes : session.flushRule row = session.object row) (today : Date) :
    { row with nextFireDate := (session.object row).nextFireDate }.nextAfter today =
      (session.object row).nextAfter today := by
  apply next_after_congr
  · change row.advance = (session.object row).advance
    rw [← flushes]
    rfl
  · rfl

theorem progress_fire (due : Reached store today row)
    (flushes : session.flushRule row = session.object row) (accepted : Accepted store row)
    (moved : (session.object row).nextAfter today = .ok next)
    (progress : Progress store today fired session) :
    Progress store today (fired ++ [row]) (session.fire script (session.object row) next) := by
  have same := same_of_flushes flushes
  have dated := progress.dates row due.stored
  have self : (fired ++ [row]).count row = fired.count row + 1 := by simp
  have others {other : RecurringRule} (different : other ≠ row) :
      (fired ++ [row]).count other = fired.count other := by
    rw [List.count_append, List.count_singleton]
    simp [different.symm]
  have apart {other : RecurringRule} (stored : other ∈ store.rules.rows) (different : other ≠ row) :
      other.id ≠ row.id :=
    fun equal => different (List.inj_on_of_nodup_map store.rules.unique stored due.stored equal)
  constructor
  · intro other member
    rcases List.mem_append.mp member with before | last
    · exact progress.due other before
    · cases List.mem_singleton.mp last
      exact ⟨due, accepted⟩
  · simp [Session.fire, Session.add, Session.save, newTransaction, fireCommand, progress.owners,
      same.id]
  · intro entry member
    rcases List.mem_append.mp member with before | last
    · obtain ⟨other, listed, n, less, at_n⟩ := progress.entries entry before
      refine ⟨other, List.mem_append_left _ listed, n, ?_, at_n⟩
      rw [List.count_append]
      exact Nat.lt_add_right _ less
    · refine ⟨row, List.mem_append_right _ (List.mem_singleton_self _), fired.count row, ?_,
        (session.object row).nextFireDate, script, dated, ?_⟩
      · rw [self]
        exact Nat.lt_succ_self _
      · rw [List.mem_singleton.mp last]
        -- The object differs from the row in columns that no transaction is made of.
        conv_lhs => rw [← flushes]
        rfl
  · intro other stored
    by_cases equal : other = row
    · subst equal
      rw [self, object_fire_self flushes, moveTo_nextFireDate, RecurringRule.dateOfFiring, dated]
      exact (object_next_after flushes today).trans moved
    · rw [others equal, object_fire_other flushes (apart stored equal)]
      exact progress.dates other stored
  · intro other stored unfired
    have unlisted : other ∉ fired := fun listed => unfired (List.mem_append_left _ listed)
    have different : other ≠ row := by
      rintro rfl
      exact unfired (List.mem_append_right _ (List.mem_singleton_self _))
    rw [object_fire_other flushes (apart stored different)]
    exact progress.idle other stored unlisted
  · intro other member
    by_cases equal : other = row
    · subst equal
      rw [object_fire_self flushes, moveTo_nextFireDate]
      intro active ended has
      rw [← flushes] at active
      exact moveTo_active active ended has
    · have listed : other ∈ fired := by
        rcases List.mem_append.mp member with before | last
        · exact before
        · exact absurd (List.mem_singleton.mp last) equal
      rw [object_fire_other flushes (apart (progress.due other listed).1.stored equal)]
      exact progress.ended other listed

def progress (store : Store) (today : Date) : RunInvariant store today where
  holds := Progress store today
  start := progress_start store today
  lock := fun _ _ _ before => ⟨before.due, before.owners, before.entries, before.dates, before.idle,
    before.ended⟩
  fire := fun _ _ _ _ _ due flushes accepted moved before =>
    progress_fire due flushes accepted moved before

end

end Yomochi.Recurring
