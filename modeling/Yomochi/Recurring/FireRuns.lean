import Yomochi.Recurring.Firings

/-! What the session of a run keeps, whatever its queries answer: the induction over the batches
and their rules, once for every invariant. -/

namespace Yomochi.Recurring

open Foundation

def Session.fire (session : Session) (script : FireScript) (rule : RecurringRule) (next : Date) :
    Session :=
  (session.add (newTransaction (fireCommand rule) script)).save (rule.moveTo next script.pausedAt)

/-- The flush writes the objects as they are. -/
def Flushes (store : Store) (session : Session) : Prop :=
  ∀ row ∈ store.rules.rows, session.flushRule row = session.object row

structure RunInvariant (store : Store) (today : Date) where
  holds : List RecurringRule → Session → Prop
  start : holds [] .start
  lock : ∀ fired session rows, holds fired session → holds fired (session.lock rows)
  fire : ∀ fired session script row next, Reached store today row →
    session.flushRule row = session.object row → Accepted store row →
    (session.object row).nextAfter today = .ok next → holds fired session →
    holds (fired ++ [row]) (session.fire script (session.object row) next)

section

variable {store : Store} {today : Date} {session : Session} {script : FireScript}
  {row : RecurringRule} {next : Date}

theorem same_of_flushes (flushes : session.flushRule row = session.object row) :
    SameRule (session.object row) row := by
  rw [← flushes]
  exact ⟨rfl, rfl, rfl⟩

theorem object_fire_self (flushes : session.flushRule row = session.object row) :
    (session.fire script (session.object row) next).object row =
      (session.object row).moveTo next script.pausedAt := by
  have loaded := loaded_self session script (session.object row) next
  rw [(same_of_flushes flushes).id] at loaded
  exact congrArg (Option.getD · row) loaded

theorem object_fire_other {other : RecurringRule}
    (flushes : session.flushRule row = session.object row) (different : other.id ≠ row.id) :
    (session.fire script (session.object row) next).object other = session.object other := by
  have apart : other.id ≠ (session.object row).id := by
    rw [(same_of_flushes flushes).id]
    exact different
  rw [Session.object, Session.fire, loaded_other apart]
  rfl

theorem flushes_fire (flushes : Flushes store session) (member : row ∈ store.rules.rows) :
    Flushes store (session.fire script (session.object row) next) := by
  have mine := flushes row member
  intro other inside
  by_cases same : other.id = row.id
  · cases List.inj_on_of_nodup_map store.rules.unique inside member same
    rw [Session.flushRule, object_fire_self mine, ← mine, RecurringRule.moveTo]
    dsimp only
    split <;> rfl
  · rw [Session.flushRule, object_fire_other mine same]
    exact flushes other inside

theorem flushes_start (store : Store) : Flushes store .start := fun _ _ => rfl

section

variable {script : BatchScript} {fired : List RecurringRule} {failed failed' : List RecurringRuleId}
  {after : Session}

/-- The rules of one batch: their objects are taken before the first of them is fired. -/
theorem fire_all_holds (I : RunInvariant store today) {rows : List RecurringRule}
    (distinct : (rows.map RecurringRule.id).Nodup) (due : ∀ row ∈ rows, Reached store today row)
    (ok : fireAll store today script (rows.map session.object) (failed, session) =
      .ok (failed', after)) (sound : after.aborted = false)
    (flushes : Flushes store session) (holds : I.holds fired session) :
    ∃ more, I.holds (fired ++ more) after ∧ Flushes store after ∧ more.Sublist rows := by
  induction rows generalizing fired failed session with
  | nil =>
      cases ok
      exact ⟨[], by rwa [List.append_nil], flushes, List.Sublist.slnil⟩
  | cons row rows ih =>
      rw [List.map_cons, List.nodup_cons] at distinct
      rw [List.map_cons, fireAll] at ok
      rw [List.forall_mem_cons] at due
      split at ok
      · cases ok
      · rename_i answer middle first
        obtain ⟨_, ⟨_, _, rfl⟩ | ⟨next, _, accepted, moved, rfl⟩⟩ :=
          fire_rule_sound first (fire_all_sound ok sound)
        · obtain ⟨more, kept, wrote, listed⟩ := ih distinct.2 due.2 ok flushes holds
          exact ⟨more, kept, wrote, listed.cons row⟩
        · have mine := flushes row due.1.stored
          have same := same_of_flushes mine
          rw [Accepted, same.userId, same.categoryId] at accepted
          have objects : rows.map session.object =
              rows.map (session.fire (script.calls (session.object row).id)
                (session.object row) next).object := by
            refine List.map_congr_left fun other listed => ?_
            have different : other.id ≠ row.id :=
              fun equal => distinct.1 (List.mem_map.mpr ⟨other, listed, equal⟩)
            exact (object_fire_other mine different).symm
          rw [objects] at ok
          obtain ⟨more, kept, wrote, listed⟩ := ih distinct.2 due.2 ok
            (flushes_fire flushes due.1.stored)
            (I.fire fired session _ row next due.1 mine accepted moved holds)
          rw [List.append_assoc, List.singleton_append] at kept
          exact ⟨row :: more, kept, wrote, listed.cons_cons row⟩

/-- A rule is fired at most once for each batch that selects it. -/
theorem fire_batches_holds (I : RunInvariant store today) {operand : StatusOperand}
    {batches : Nat} {scripts : List BatchScript} {final : Session}
    (ended : fireBatches operand store today batches scripts (failed, session) =
      some (.ok final)) (sound : final.aborted = false)
    (flushes : Flushes store session) (holds : I.holds fired session) :
    ∃ more, I.holds (fired ++ more) final ∧ Flushes store final ∧
      ∀ row, more.count row ≤ (scripts.map BatchScript.answer).flatten.count row := by
  induction scripts generalizing batches fired failed session with
  | nil =>
      obtain ⟨_, rfl⟩ | ⟨_, _, other, _⟩ := fire_batches_eq_ok ended
      · exact ⟨[], by rwa [List.append_nil], flushes, by simp⟩
      · cases other
  | cons script scripts ih =>
      obtain ⟨other, _⟩ | ⟨_, _, same, _, fetched, outcome⟩ := fire_batches_eq_ok ended
      · cases other
      cases same
      have locked := I.lock fired session script.answer holds
      rcases outcome with ⟨_, rfl, rfl⟩ | ⟨left, ⟨failed', middle⟩, done, rest⟩
      · exact ⟨[], by rwa [List.append_nil], flushes, by simp⟩
      · have kept : (pendingRows session failed script.answer).Sublist script.answer :=
          List.filter_sublist
        have distinct := (selects_nodup fetched store.rules.unique).sublist (kept.map RecurringRule.id)
        have quiet : middle.aborted = false := by
          obtain ⟨_, rfl⟩ | ⟨_, _, _, running, _⟩ := fire_batches_eq_ok rest
          · exact sound
          · exact running
        have lock_flushes : Flushes store (session.lock script.answer) := flushes
        obtain ⟨front, middle_holds, middle_flushes, listed⟩ := fire_all_holds I distinct
          (fun row member => fetched_reached fetched (kept.subset member)) done quiet lock_flushes
          locked
        obtain ⟨back, final_holds, final_flushes, counted⟩ := ih rest middle_flushes middle_holds
        rw [List.append_assoc] at final_holds
        refine ⟨front ++ back, final_holds, final_flushes, ?_⟩
        intro row
        rw [List.map_cons, List.flatten_cons, List.count_append, List.count_append]
        exact Nat.add_le_add ((listed.trans kept).count_le row) (counted row)

end

theorem fire_rules_holds (I : RunInvariant store today) {operand : StatusOperand}
    {scripts : List BatchScript} {after : Store}
    (committed : fireRulesOf operand store today scripts = some (.ok after)) :
    ∃ fired session, I.holds fired session ∧ Flushes store session ∧
      Commits store session after ∧
      ∀ row, fired.count row ≤ (scripts.map BatchScript.answer).flatten.count row := by
  obtain ⟨result, ended, closed⟩ := Option.map_eq_some_iff.mp committed
  cases result with
  | error error => cases closed
  | ok session =>
      have commits := commit_eq_ok closed
      obtain ⟨fired, holds, flushes, counted⟩ :=
        fire_batches_holds I ended commits.sound (flushes_start store) I.start
      exact ⟨fired, session, holds, flushes, commits, counted⟩

theorem get_after {after : Store} (commits : Commits store session after)
    (flushes : Flushes store session) {id : RecurringRuleId} (found : store.rules.get id = some row) :
    after.rules.get id = some (session.object row) := by
  rw [commits.rules, Table.get_update, found, Option.map_some,
    flushes row (Table.mem_of_get found)]

theorem rule_after {after : Store} (commits : Commits store session after)
    (flushes : Flushes store session) {rule : RecurringRule} (member : rule ∈ after.rules.rows) :
    ∃ row ∈ store.rules.rows, rule = session.object row := by
  rw [commits.rules] at member
  obtain ⟨row, stored, rfl⟩ := List.mem_map.mp member
  exact ⟨row, stored, flushes row stored⟩

end

end Yomochi.Recurring
