import Yomochi.Recurring.FireDueRules

/-! How often one run fires a rule. -/

namespace Yomochi.Recurring

open Foundation

/-- The transaction of the rule passes the checks of `CreateTransactionUseCase`. -/
def Accepted (store : Store) (rule : RecurringRule) : Prop :=
  validateCategory store rule.userId rule.categoryId = .ok ()

instance (store : Store) (rule : RecurringRule) : Decidable (Accepted store rule) :=
  inferInstanceAs (Decidable (_ = _))

/-- The transactions that the second store has for a rule and the first one does not have. -/
def newFor (before after : Store) (id : RecurringRuleId) : List Transaction :=
  after.transactions.rows.filter fun row =>
    decide (before.transactions.get row.id = none ∧ row.recurringRuleId = some id)

/-- Each rule gets at most one new transaction, dated at the date it was due, and a rule that
got one is due after today or paused; there are no others. -/
structure FiresOnce (before after : Store) (today : Date) : Prop where
  once : ∀ rule ∈ before.rules.rows, (newFor before after rule.id).length ≤ 1
  dated : ∀ rule ∈ before.rules.rows, ∀ row ∈ newFor before after rule.id,
    row.date = rule.nextFireDate ∧ rule.nextFireDate ≤ today
  moved : ∀ rule ∈ before.rules.rows, newFor before after rule.id ≠ [] →
    ∃ moved, after.rules.get rule.id = some moved ∧
      (today < moved.nextFireDate ∨ moved.status = .PAUSED)
  known : ∀ row ∈ after.transactions.rows, before.transactions.get row.id = none →
    ∃ rule ∈ before.rules.rows, row.recurringRuleId = some rule.id

/-- No rule whose transaction is accepted is selected by two batches. -/
def SelectedOnce (store : Store) (scripts : List BatchScript) : Prop :=
  scripts.Pairwise fun earlier later =>
    ∀ rule ∈ earlier.answer, Accepted store rule → rule ∉ later.answer

def firedFor (session : Session) (id : RecurringRuleId) : List Transaction :=
  session.added.filter fun row => decide (row.recurringRuleId = some id)

structure SameRule (object row : RecurringRule) : Prop where
  id : object.id = row.id
  userId : object.userId = row.userId
  categoryId : object.categoryId = row.categoryId

/-- How the session accounts for one stored rule, once the rules of `attempted` have been
through `_fire`. -/
structure Account (store : Store) (today : Date) (attempted : List RecurringRule)
    (failed : List RecurringRuleId) (session : Session) (row : RecurringRule) : Prop where
  count : Accepted store row → (firedFor session row.id).length = attempted.count row
  refused : ¬ Accepted store row → firedFor session row.id = []
  unfailed : Accepted store row → row.id ∉ failed
  untouched : session.loaded row.id = none ↔ firedFor session row.id = []
  moved : ∀ object, session.loaded row.id = some object →
    SameRule object row ∧ today < object.nextFireDate
  first : ∀ entry, (firedFor session row.id).head? = some entry → entry.date = row.nextFireDate

structure Tracks (store : Store) (today : Date) (attempted : List RecurringRule)
    (failed : List RecurringRuleId) (session : Session) : Prop where
  accounts : ∀ row ∈ store.rules.rows, Account store today attempted failed session row
  known : ∀ entry ∈ session.added, ∃ row ∈ store.rules.rows,
    row.nextFireDate ≤ today ∧ entry.recurringRuleId = some row.id

/-- What the query looks at besides the status. -/
structure Reached (store : Store) (today : Date) (row : RecurringRule) : Prop where
  stored : row ∈ store.rules.rows
  reached : row.nextFireDate ≤ today

/-- What the job is there for, whatever its query finds. -/
structure Due (store : Store) (today : Date) (row : RecurringRule) : Prop
    extends Reached store today row where
  active : row.status = .ACTIVE

def dueRules (store : Store) (today : Date) : List RecurringRule :=
  store.rules.rows.filter fun row =>
    decide (row.nextFireDate ≤ today) && decide (row.status = .ACTIVE)

theorem mem_due_rules {store : Store} {today : Date} {row : RecurringRule} :
    row ∈ dueRules store today ↔ Due store today row := by
  rw [dueRules, List.mem_filter, Bool.and_eq_true, decide_eq_true_eq, decide_eq_true_eq]
  exact ⟨fun ⟨stored, reached, active⟩ => ⟨⟨stored, reached⟩, active⟩,
    fun due => ⟨due.stored, due.reached, due.active⟩⟩

section

variable {store : Store} {today : Date} {session : Session} {script : FireScript}

theorem move_same (rule : RecurringRule) (next : Date) (now : Timestamp) :
    SameRule (rule.moveTo next now) rule := by
  unfold RecurringRule.moveTo
  dsimp only
  split <;> exact ⟨rfl, rfl, rfl⟩

@[simp] theorem moveTo_nextFireDate (rule : RecurringRule) (next : Date) (now : Timestamp) :
    (rule.moveTo next now).nextFireDate = next := by
  unfold RecurringRule.moveTo
  dsimp only
  split <;> rfl

/-- A call that no fault ends adds the transaction, unless the category turns it down. -/
theorem create_transaction_sound {command : CreateTransactionCommand}
    {result : Except CreateError TransactionId} {after : Session}
    (ended : createTransaction store script session command = (result, after))
    (sound : after.aborted = false) :
    session.aborted = false ∧
      ((∃ error, result = .error error ∧ after = session ∧
          validateCategory store command.userId command.categoryId = .error error) ∨
        ∃ id, result = .ok id ∧ after = session.add (newTransaction command script) ∧
          validateCategory store command.userId command.categoryId = .ok ()) := by
  unfold createTransaction at ended
  split at ended
  · rename_i aborted
    cases ended
    rw [sound] at aborted
    cases aborted
  · rename_i running
    refine ⟨Bool.eq_false_iff.mpr running, ?_⟩
    split at ended
    · cases ended
      cases sound
    · split at ended
      · rename_i error refused
        cases ended
        exact .inl ⟨error, rfl, rfl, refused⟩
      · rename_i accepted
        dsimp only at ended
        split at ended
        · cases ended
          cases sound
        · cases ended
          exact .inr ⟨_, rfl, rfl, accepted⟩

/-- A call of `_fire` that no fault ends: the category turns the transaction down, or the
transaction is added and the rule moves on. -/
theorem fire_rule_sound {rule : RecurringRule} {fired : Bool} {after : Session}
    (ok : fireRule store today script session rule = .ok (fired, after))
    (sound : after.aborted = false) :
    session.aborted = false ∧
      ((fired = false ∧ ¬ Accepted store rule ∧ after = session) ∨
        ∃ next, fired = true ∧ Accepted store rule ∧ rule.nextAfter today = .ok next ∧
          after = (session.add (newTransaction (fireCommand rule) script)).save
            (rule.moveTo next script.pausedAt)) := by
  unfold fireRule at ok
  split at ok
  · rename_i error middle created
    cases ok
    obtain ⟨running, ⟨_, _, same, refused⟩ | ⟨_, other, _⟩⟩ := create_transaction_sound created sound
    · refine ⟨running, .inl ⟨rfl, ?_, same⟩⟩
      intro accepted
      cases refused.symm.trans accepted
    · cases other
  · rename_i id middle created
    split at ok
    · cases ok
    · rename_i next moved
      cases ok
      have quiet : middle.aborted = false := sound
      obtain ⟨running, ⟨_, other, _⟩ | ⟨_, _, added, accepted⟩⟩ :=
        create_transaction_sound created quiet
      · cases other
      · exact ⟨running, .inr ⟨next, rfl, accepted, moved, by rw [added]⟩⟩

section

variable {rule : RecurringRule} {next : Date} {id : RecurringRuleId}

theorem fired_for_self (session : Session) (script : FireScript) (rule : RecurringRule)
    (next : Date) : firedFor ((session.add (newTransaction (fireCommand rule) script)).save
    (rule.moveTo next script.pausedAt)) rule.id =
      firedFor session rule.id ++ [newTransaction (fireCommand rule) script] := by
  simp [firedFor, Session.save, Session.add, newTransaction, fireCommand]

theorem fired_for_other (different : id ≠ rule.id) :
    firedFor ((session.add (newTransaction (fireCommand rule) script)).save
      (rule.moveTo next script.pausedAt)) id = firedFor session id := by
  simp [firedFor, Session.save, Session.add, newTransaction, fireCommand, different.symm]

theorem loaded_self (session : Session) (script : FireScript) (rule : RecurringRule)
    (next : Date) : ((session.add (newTransaction (fireCommand rule) script)).save
    (rule.moveTo next script.pausedAt)).loaded rule.id =
      some (rule.moveTo next script.pausedAt) := by
  have same := (move_same rule next script.pausedAt).id
  simp [Session.save, same]

theorem loaded_other (different : id ≠ rule.id) :
    ((session.add (newTransaction (fireCommand rule) script)).save
      (rule.moveTo next script.pausedAt)).loaded id = session.loaded id := by
  have same := (move_same rule next script.pausedAt).id
  simp [Session.save, Session.add, same, different]

end

variable {attempted : List RecurringRule} {failed : List RecurringRuleId} {row : RecurringRule}

theorem object_same (account : Account store today attempted failed session row) :
    SameRule (session.object row) row := by
  unfold Session.object
  cases found : session.loaded row.id with
  | none => exact ⟨rfl, rfl, rfl⟩
  | some object => exact (account.moved object found).1

theorem accepted_object (account : Account store today attempted failed session row) :
    Accepted store (session.object row) ↔ Accepted store row := by
  have same := object_same account
  rw [Accepted, Accepted, same.userId, same.categoryId]

theorem account_other {other : RecurringRule} {after : Session} {failed' : List RecurringRuleId}
    (account : Account store today attempted failed session row) (different : row.id ≠ other.id)
    (unfired : firedFor after row.id = firedFor session row.id)
    (unmoved : after.loaded row.id = session.loaded row.id)
    (unfailed : row.id ∈ failed' → row.id ∈ failed) :
    Account store today (attempted ++ [other]) failed' after row where
  count := by
    intro accepted
    have apart : other ≠ row := fun same => different (congrArg RecurringRule.id same.symm)
    rw [unfired, account.count accepted, List.count_append, List.count_singleton]
    simp [apart]
  refused := by
    intro refused
    rw [unfired]
    exact account.refused refused
  unfailed := fun accepted member => account.unfailed accepted (unfailed member)
  untouched := by
    rw [unfired, unmoved]
    exact account.untouched
  moved := by
    intro object found
    rw [unmoved] at found
    exact account.moved object found
  first := by
    intro entry head
    rw [unfired] at head
    exact account.first entry head

theorem account_refused (account : Account store today attempted failed session row)
    (turnedDown : ¬ Accepted store row) (failed' : List RecurringRuleId) :
    Account store today (attempted ++ [row]) failed' session row where
  count := fun accepted => absurd accepted turnedDown
  refused := account.refused
  unfailed := fun accepted => absurd accepted turnedDown
  untouched := account.untouched
  moved := account.moved
  first := account.first

theorem account_fired {next : Date} (account : Account store today attempted failed session row)
    (accepted : Accepted store row) (past : today < next) :
    Account store today (attempted ++ [row]) failed
      ((session.add (newTransaction (fireCommand (session.object row)) script)).save
        ((session.object row).moveTo next script.pausedAt)) row := by
  have same := object_same account
  have fired := fired_for_self session script (session.object row) next
  have loaded := loaded_self session script (session.object row) next
  rw [same.id] at fired loaded
  refine ⟨?_, fun refused => absurd accepted refused, account.unfailed, ?_, ?_, ?_⟩
  · intro _
    rw [fired, List.length_append, account.count accepted, List.count_append]
    simp
  · rw [fired, loaded]
    simp
  · intro object found
    rw [loaded] at found
    cases found
    have kept := move_same (session.object row) next script.pausedAt
    refine ⟨⟨kept.id.trans same.id, kept.userId.trans same.userId,
      kept.categoryId.trans same.categoryId⟩, ?_⟩
    rw [moveTo_nextFireDate]
    exact past
  · intro entry head
    rw [fired] at head
    cases earlier : firedFor session row.id with
    | nil =>
        -- The first firing is that of the stored rule.
        have fresh : session.object row = row := by
          simp [Session.object, account.untouched.mpr earlier]
        rw [earlier, fresh] at head
        cases head
        rfl
    | cons oldest rest =>
        rw [earlier] at head
        cases head
        exact account.first _ (by rw [earlier]; rfl)

theorem tracks_fire {fired : Bool} {after : Session} (due : Reached store today row)
    (tracks : session.aborted = false → Tracks store today attempted failed session)
    (ok : fireRule store today script session (session.object row) = .ok (fired, after))
    (sound : after.aborted = false) :
    Tracks store today (attempted ++ [row])
        (if fired then failed else (session.object row).id :: failed) after ∧
      ∀ other, other ≠ row.id → after.loaded other = session.loaded other := by
  obtain ⟨running, outcome⟩ := fire_rule_sound ok sound
  have before := tracks running
  have account := before.accounts row due.stored
  have same := object_same account
  have apart {other : RecurringRule} (inside : other ∈ store.rules.rows) (different : other ≠ row) :
      other.id ≠ row.id :=
    fun equal => different (List.inj_on_of_nodup_map store.rules.unique inside due.stored equal)
  rcases outcome with ⟨rfl, refused, rfl⟩ | ⟨next, rfl, accepted, moved, rfl⟩
  · rw [accepted_object account] at refused
    refine ⟨⟨?_, before.known⟩, fun _ _ => rfl⟩
    intro other inside
    by_cases equal : other = row
    · subst equal
      exact account_refused account refused _
    · apply account_other (before.accounts other inside) (apart inside equal) rfl rfl
      intro listed
      rcases List.mem_cons.mp listed with mine | earlier
      · exact absurd (mine.trans same.id) (apart inside equal)
      · exact earlier
  · rw [accepted_object account] at accepted
    refine ⟨⟨?_, ?_⟩, ?_⟩
    · intro other inside
      by_cases equal : other = row
      · subst equal
        exact account_fired account accepted (next_after_lt moved)
      · have different := apart inside equal
        refine account_other (before.accounts other inside) different ?_ ?_ (fun listed => listed)
        · exact fired_for_other (by rw [same.id]; exact different)
        · exact loaded_other (by rw [same.id]; exact different)
    · intro entry inside
      rcases List.mem_append.mp inside with earlier | last
      · exact before.known entry earlier
      · rw [List.mem_singleton.mp last]
        exact ⟨row, due.stored, due.reached, congrArg some same.id⟩
    · intro other different
      exact loaded_other (by rw [same.id]; exact different)

end

section

variable {operand : StatusOperand} {store : Store} {today : Date} {script : BatchScript}

theorem fire_all_sound {rules : List RecurringRule} {failed failed' : List RecurringRuleId}
    {session after : Session}
    (ok : fireAll store today script rules (failed, session) = .ok (failed', after))
    (sound : after.aborted = false) : session.aborted = false := by
  induction rules generalizing failed session with
  | nil =>
      cases ok
      exact sound
  | cons rule rules ih =>
      unfold fireAll at ok
      split at ok
      · cases ok
      · rename_i fired middle first
        exact (fire_rule_sound first (ih ok)).1

theorem tracks_all {rows : List RecurringRule} (distinct : (rows.map RecurringRule.id).Nodup)
    (inside : ∀ row ∈ rows, Reached store today row)
    {attempted : List RecurringRule} {failed failed' : List RecurringRuleId}
    {session after : Session}
    (tracks : session.aborted = false → Tracks store today attempted failed session)
    (ok : fireAll store today script (rows.map session.object) (failed, session) =
      .ok (failed', after)) (sound : after.aborted = false) :
    Tracks store today (attempted ++ rows) failed' after := by
  induction rows generalizing attempted failed session with
  | nil =>
      cases ok
      rw [List.append_nil]
      exact tracks sound
  | cons row rows ih =>
      rw [List.map_cons, List.nodup_cons] at distinct
      rw [List.map_cons, fireAll] at ok
      split at ok
      · cases ok
      · rename_i fired middle first
        have quiet := fire_all_sound ok sound
        obtain ⟨next, others⟩ := tracks_fire (inside row List.mem_cons_self) tracks first quiet
        have objects : rows.map session.object = rows.map middle.object := by
          refine List.map_congr_left fun other listed => ?_
          have different : other.id ≠ row.id :=
            fun equal => distinct.1 (List.mem_map.mpr ⟨other, listed, equal⟩)
          simp [Session.object, others other.id different]
        rw [objects] at ok
        have rest := ih distinct.2 (fun other listed => inside other (List.mem_cons_of_mem row listed))
          (fun _ => next) ok
        rw [List.append_assoc, List.singleton_append] at rest
        exact rest

theorem tracks_lock {attempted : List RecurringRule} {failed : List RecurringRuleId}
    {session : Session} (tracks : Tracks store today attempted failed session)
    (rows : List RecurringRule) : Tracks store today attempted failed (session.lock rows) where
  accounts := by
    intro row member
    have account := tracks.accounts row member
    exact ⟨account.count, account.refused, account.unfailed, account.untouched, account.moved,
      account.first⟩
  known := tracks.known

/-- The rows of an answer that a batch does not leave out. -/
def pendingRows (session : Session) (failed : List RecurringRuleId) (answer : List RecurringRule) :
    List RecurringRule :=
  answer.filter fun row => (session.object row).id ∉ failed

theorem count_pendingRows {attempted : List RecurringRule} {failed : List RecurringRuleId}
    {session : Session} {row : RecurringRule}
    (account : Account store today attempted failed session row) (accepted : Accepted store row)
    (answer : List RecurringRule) :
    (pendingRows session failed answer).count row = answer.count row := by
  refine List.count_filter (decide_eq_true ?_)
  rw [(object_same account).id]
  exact account.unfailed accepted

theorem fire_batches_eq_ok {batches : Nat} {scripts : List BatchScript}
    {failed : List RecurringRuleId} {session final : Session}
    (ended : fireBatches operand store today batches scripts (failed, session) =
      some (.ok final)) :
    (scripts = [] ∧ final = session) ∨
      ∃ script rest, scripts = script :: rest ∧ session.aborted = false ∧
        FetchesDue operand store session script.heldElsewhere today batchLimit script.answer ∧
        ((pendingRows session failed script.answer = [] ∧ rest = [] ∧
            final = session.lock script.answer) ∨
          ∃ left progress, fireAll store today script
              ((pendingRows session failed script.answer).map session.object)
              (failed, session.lock script.answer) = .ok progress ∧
            fireBatches operand store today left rest progress = some (.ok final)) := by
  cases batches with
  | zero =>
      cases scripts with
      | nil =>
          cases ended
          exact .inl ⟨rfl, rfl⟩
      | cons script rest => cases ended
  | succ batches =>
      cases scripts with
      | nil => cases ended
      | cons script rest =>
          unfold fireBatches at ended
          split at ended
          · split at ended <;> cases ended
          · rename_i running
            split at ended
            · cases ended
            · rename_i selected
              have pending : ((script.answer.map session.object).filter fun rule =>
                  rule.id ∉ failed) =
                    (pendingRows session failed script.answer).map session.object :=
                List.filter_map ..
              refine .inr ⟨script, rest, rfl, Bool.eq_false_iff.mpr running, not_not.mp selected, ?_⟩
              simp only [pending] at ended
              split at ended
              · rename_i idle
                split at ended
                · rename_i last
                  cases ended
                  rw [List.isEmpty_iff, List.map_eq_nil_iff] at idle
                  exact .inl ⟨idle, List.isEmpty_iff.mp last, rfl⟩
                · cases ended
              · split at ended
                · split at ended <;> cases ended
                · rename_i progress fired
                  exact .inr ⟨batches, progress, fired, ended⟩

theorem fetched_reached {session : Session} {heldElsewhere : RecurringRuleId → Bool} {limit : Nat}
    {answer : List RecurringRule}
    (fetched : FetchesDue operand store session heldElsewhere today limit answer)
    {row : RecurringRule} (member : row ∈ answer) : Reached store today row := by
  obtain ⟨stored, condition⟩ := selects_mem fetched member
  simp only [fetchable, Bool.and_eq_true, decide_eq_true_eq] at condition
  exact ⟨stored, condition.1.1⟩

/-- All batches of a run: a rule whose transaction is accepted goes through `_fire` once for
each batch that selects it. -/
theorem tracks_batches {batches : Nat} {scripts : List BatchScript}
    {attempted : List RecurringRule} {failed : List RecurringRuleId} {session final : Session}
    (tracks : session.aborted = false → Tracks store today attempted failed session)
    (ended : fireBatches operand store today batches scripts (failed, session) =
      some (.ok final)) (sound : final.aborted = false) :
    ∃ attempted' failed', Tracks store today attempted' failed' final ∧
      ∀ row ∈ store.rules.rows, Accepted store row → attempted'.count row =
        attempted.count row + (scripts.map BatchScript.answer).flatten.count row := by
  induction scripts generalizing batches attempted failed session with
  | nil =>
      obtain ⟨_, rfl⟩ | ⟨_, _, other, _⟩ := fire_batches_eq_ok ended
      · exact ⟨attempted, failed, tracks sound, fun _ _ _ => rfl⟩
      · cases other
  | cons script scripts ih =>
      obtain ⟨other, _⟩ | ⟨_, _, same, running, fetched, outcome⟩ := fire_batches_eq_ok ended
      · cases other
      cases same
      have before := tracks_lock (tracks running) script.answer
      have counted (row : RecurringRule) (member : row ∈ store.rules.rows)
          (accepted : Accepted store row) :=
        count_pendingRows ((tracks running).accounts row member) accepted script.answer
      rcases outcome with ⟨idle, rfl, rfl⟩ | ⟨left, ⟨failed', middle⟩, fired, rest⟩
      · refine ⟨attempted, failed, before, ?_⟩
        intro row member accepted
        simp [← counted row member accepted, idle]
      · have distinct := selects_nodup fetched store.rules.unique
        have next (quiet : middle.aborted = false) : Tracks store today
            (attempted ++ pendingRows session failed script.answer) failed' middle :=
          tracks_all (distinct.sublist (List.filter_sublist.map _))
            (fun row member => fetched_reached fetched (List.mem_filter.mp member).1)
            (fun _ => before) fired quiet
        obtain ⟨attempted', failed'', tracked, total⟩ := ih next rest
        refine ⟨attempted', failed'', tracked, ?_⟩
        intro row member accepted
        calc
          attempted'.count row = (attempted ++ pendingRows session failed script.answer).count row +
              (scripts.map BatchScript.answer).flatten.count row := total row member accepted
          _ = attempted.count row +
              ((script :: scripts).map BatchScript.answer).flatten.count row := by
            rw [List.count_append, counted row member accepted]
            simp [Nat.add_assoc]

theorem answers_fetched {batches : Nat} {scripts : List BatchScript}
    {progress : List RecurringRuleId × Session} {final : Session}
    (ended : fireBatches operand store today batches scripts progress = some (.ok final)) :
    ∀ script ∈ scripts, ∃ session,
      FetchesDue operand store session script.heldElsewhere today batchLimit script.answer := by
  induction scripts generalizing batches progress with
  | nil => simp
  | cons script scripts ih =>
      obtain ⟨other, _⟩ | ⟨_, _, same, _, fetched, outcome⟩ := fire_batches_eq_ok ended
      · cases other
      cases same
      rw [List.forall_mem_cons]
      refine ⟨⟨progress.2, fetched⟩, ?_⟩
      rcases outcome with ⟨_, rfl, _⟩ | ⟨left, next, _, rest⟩
      · simp
      · exact ih rest

end

section

variable {store after : Store} {today : Date} {session : Session}

structure Commits (store : Store) (session : Session) (after : Store) : Prop where
  sound : session.aborted = false
  rules : after.rules = store.rules.update session.flushRule session.flushRule_id
  categories : after.categories = store.categories
  appended : after.transactions.rows = store.transactions.rows ++ session.added
  fresh : ∀ entry ∈ session.added, store.transactions.get entry.id = none

theorem flush_eq_ok (running : session.aborted = false) (ok : session.flush store = .ok after) :
    Commits store session after := by
  unfold Session.flush at ok
  split at ok
  · cases ok
  · rename_i transactions inserted
    split at ok
    · cases ok
      obtain ⟨appended, fresh⟩ := Table.insertAll_eq_some inserted
      exact ⟨running, rfl, rfl, appended, fresh⟩
    · cases ok

theorem commit_eq_ok (ok : session.commit store = .ok after) : Commits store session after := by
  unfold Session.commit at ok
  split at ok
  · cases ok
  · rename_i running
    split at ok
    · cases ok
    · exact flush_eq_ok (Bool.eq_false_iff.mpr running) ok

theorem commit_sortable (ok : session.commit store = .ok after) :
    session.unsortable store = false := by
  unfold Session.commit at ok
  split at ok
  · cases ok
  · split at ok
    · cases ok
    · rename_i sortable
      exact Bool.eq_false_iff.mpr sortable

theorem newFor_eq (commits : Commits store session after) (id : RecurringRuleId) :
    newFor store after id = firedFor session id := by
  rw [newFor, commits.appended, List.filter_append]
  have stored : (store.transactions.rows.filter fun row =>
      decide (store.transactions.get row.id = none ∧ row.recurringRuleId = some id)) = [] := by
    rw [List.filter_eq_nil_iff]
    intro row member
    simp [Table.get_of_mem member]
  rw [stored, List.nil_append, firedFor]
  refine List.filter_congr fun entry member => ?_
  simp [commits.fresh entry member]

theorem tracks_start (store : Store) (today : Date) : Tracks store today [] [] .start where
  accounts := fun _ _ => ⟨fun _ => rfl, fun _ => rfl, by simp, ⟨fun _ => rfl, fun _ => rfl⟩, by
    simp [Session.start], by simp [firedFor, Session.start]⟩
  known := by simp [Session.start]

theorem fires_once_of_tracks {attempted : List RecurringRule} {failed : List RecurringRuleId}
    (tracks : Tracks store today attempted failed session) (commits : Commits store session after)
    (once : ∀ rule ∈ store.rules.rows, (firedFor session rule.id).length ≤ 1) :
    FiresOnce store after today where
  once := by
    intro rule member
    rw [newFor_eq commits]
    exact once rule member
  dated := by
    intro rule member entry new
    rw [newFor_eq commits] at new
    have only : firedFor session rule.id = [entry] := by
      obtain ⟨first, same⟩ := List.length_eq_one_iff.mp
        (Nat.le_antisymm (once rule member) (List.length_pos_of_mem new))
      rw [same] at new ⊢
      rw [List.mem_singleton.mp new]
    refine ⟨(tracks.accounts rule member).first entry (by rw [only]; rfl), ?_⟩
    obtain ⟨added, owned⟩ := List.mem_filter.mp new
    obtain ⟨row, stored, due, known⟩ := tracks.known entry added
    have ids : row.id = rule.id := Option.some.inj (known.symm.trans (of_decide_eq_true owned))
    rw [← List.inj_on_of_nodup_map store.rules.unique stored member ids]
    exact due
  moved := by
    intro rule member new
    rw [newFor_eq commits] at new
    have account := tracks.accounts rule member
    obtain ⟨object, found⟩ := Option.ne_none_iff_exists'.mp
      fun absent => new (account.untouched.mp absent)
    refine ⟨session.flushRule rule, ?_, .inl ?_⟩
    · rw [commits.rules, Table.get_update, Table.get_of_mem member, Option.map_some]
    · simp only [Session.flushRule, Session.object, found, Option.getD_some]
      exact (account.moved object found).2
  known := by
    intro entry member new
    rw [commits.appended] at member
    rcases List.mem_append.mp member with stored | added
    · rw [Table.get_of_mem stored] at new
      cases new
    · obtain ⟨row, inside, _, owned⟩ := tracks.known entry added
      exact ⟨row, inside, owned⟩

end

/-- Whatever status its query asks for: a run that commits fires each rule once exactly when no
rule that it can fire is selected by two of its batches. -/
theorem fires_once_iff_selected_once {operand : StatusOperand} {store after : Store} {today : Date}
    {scripts : List BatchScript}
    (committed : fireRulesOf operand store today scripts = some (.ok after)) :
    FiresOnce store after today ↔ SelectedOnce store scripts := by
  obtain ⟨result, ended, closed⟩ := Option.map_eq_some_iff.mp committed
  cases result with
  | error error => cases closed
  | ok session =>
      have commits := commit_eq_ok closed
      obtain ⟨attempted, failed, tracks, total⟩ :=
        tracks_batches (fun _ => tracks_start store today) ended commits.sound
      have fetched := answers_fetched ended
      have nodup : ∀ answer ∈ scripts.map BatchScript.answer, answer.Nodup := by
        intro answer member
        obtain ⟨script, inside, rfl⟩ := List.mem_map.mp member
        obtain ⟨state, answered⟩ := fetched script inside
        exact (selects_nodup answered store.rules.unique).of_map _
      have selected : SelectedOnce store scripts ↔ ∀ rule, Accepted store rule →
          (scripts.map BatchScript.answer).flatten.count rule ≤ 1 := by
        rw [count_flatten_le_one_iff nodup, List.pairwise_map]
        rfl
      have fired (rule : RecurringRule) (member : rule ∈ store.rules.rows)
          (accepted : Accepted store rule) : (firedFor session rule.id).length =
            (scripts.map BatchScript.answer).flatten.count rule := by
        rw [(tracks.accounts rule member).count accepted, total rule member accepted]
        simp
      rw [selected]
      constructor
      · intro once rule accepted
        by_cases member : rule ∈ store.rules.rows
        · rw [← fired rule member accepted, ← newFor_eq commits]
          exact once.once rule member
        · have absent : rule ∉ (scripts.map BatchScript.answer).flatten := by
            intro inside
            obtain ⟨answer, listed, has⟩ := List.mem_flatten.mp inside
            obtain ⟨script, run, rfl⟩ := List.mem_map.mp listed
            obtain ⟨state, answered⟩ := fetched script run
            exact member (fetched_reached answered has).stored
          rw [List.count_eq_zero_of_not_mem absent]
          exact Nat.zero_le 1
      · intro bound
        apply fires_once_of_tracks tracks commits
        intro rule member
        by_cases accepted : Accepted store rule
        · rw [fired rule member accepted]
          exact bound rule accepted
        · simp [(tracks.accounts rule member).refused accepted]

/-- Two changed rules cannot be sorted: whatever status its query asks for, a run that commits
has fired one rule at most. -/
theorem fires_one_rule {operand : StatusOperand} {store after : Store} {today : Date}
    {scripts : List BatchScript} {rule other : RecurringRule}
    (committed : fireRulesOf operand store today scripts = some (.ok after))
    (stored : rule ∈ store.rules.rows) (beside : other ∈ store.rules.rows)
    (fired : newFor store after rule.id ≠ []) (too : newFor store after other.id ≠ []) :
    rule = other := by
  obtain ⟨result, ended, closed⟩ := Option.map_eq_some_iff.mp committed
  cases result with
  | error error => cases closed
  | ok session =>
      have commits := commit_eq_ok closed
      obtain ⟨attempted, failed, tracks, _⟩ :=
        tracks_batches (fun _ => tracks_start store today) ended commits.sound
      have changed {row : RecurringRule} (member : row ∈ store.rules.rows)
          (new : newFor store after row.id ≠ []) :
          row ∈ store.rules.rows.filter fun row => (session.loaded row.id).isSome := by
        rw [newFor_eq commits] at new
        refine List.mem_filter.mpr ⟨member, Option.isSome_iff_ne_none.mpr fun absent => new ?_⟩
        exact (tracks.accounts row member).untouched.mp absent
      have few : (store.rules.rows.filter fun row =>
          (session.loaded row.id).isSome).length ≤ 1 :=
        Nat.not_lt.mp (of_decide_eq_false (commit_sortable closed))
      have first := changed stored fired
      have second := changed beside too
      obtain ⟨only, same⟩ := List.length_eq_one_iff.mp
        (Nat.le_antisymm few (List.length_pos_of_mem first))
      rw [same, List.mem_singleton] at first second
      exact first.trans second.symm

theorem commit_start (store : Store) : Session.start.commit store = .ok store := by
  have same : store.rules.update Session.start.flushRule Session.start.flushRule_id =
      store.rules := by
    have written : Session.start.flushRule = id := rfl
    simp [Table.update, written]
  have quiet : Session.start.unsortable store = false := by simp [Session.unsortable, Session.start]
  have inserted : store.transactions.insertAll Session.start.added = some store.transactions := rfl
  have flushed : Session.start.flush store = .ok store := by
    rw [Session.flush, inserted]
    simp only [same, store.recurringUnique, dif_pos]
  rw [Session.commit, quiet, flushed]
  rfl

theorem fire_batches_idle {store : Store} {today : Date} {batches : Nat}
    {scripts : List BatchScript} {failed : List RecurringRuleId} {session : Session}
    {ended : Except JobError Session} (running : session.aborted = false)
    (ran : fireBatches dueStatus store today batches scripts (failed, session) = some ended) :
    ended = .ok session := by
  cases batches with
  | zero =>
      cases scripts with
      | nil => exact (Option.some.inj ran).symm
      | cons script rest => cases ran
  | succ batches =>
      cases scripts with
      | nil => cases ran
      | cons script rest =>
          rw [fireBatches, if_neg (by rw [running]; exact Bool.false_ne_true)] at ran
          split at ran
          · cases ran
          · rename_i fetched
            have none_selected := fetches_due_nil (not_not.mp fetched)
            simp only [none_selected, List.map_nil, List.filter_nil, List.isEmpty_nil,
              if_true] at ran
            split at ran
            · exact (Option.some.inj ran).symm
            · cases ran

/-- A run of the job leaves the store as it is. -/
theorem fire_due_rules_idle {store : Store} {today : Date} {scripts : List BatchScript}
    {ended : Except JobError Store} (ran : fireDueRules store today scripts = some ended) :
    ended = .ok store := by
  obtain ⟨result, batches, rfl⟩ := Option.map_eq_some_iff.mp ran
  rw [fire_batches_idle rfl batches]
  exact commit_start store

/-- The only run that there is: the query of its first batch finds nothing. -/
def idleBatch : BatchScript := ⟨[], fun _ => false, fun _ => ⟨none, ⟨7⟩, 0, 0⟩⟩

theorem fire_due_rules_idle_batch (store : Store) (today : Date) :
    fireDueRules store today [idleBatch] = some (.ok store) := by
  have matching : store.rules.rows.filter (fetchable dueStatus .start (fun _ => false) today) =
      [] :=
    List.filter_eq_nil_iff.mpr fun row _ => by simp [fetchable_due_status]
  have fetched : FetchesDue dueStatus store .start idleBatch.heldElsewhere today batchLimit
      idleBatch.answer := by
    unfold FetchesDue Selects idleBatch
    rw [matching]
    exact ⟨.nil, .nil, by simp, rfl⟩
  have ran : fireBatches dueStatus store today maxBatches [idleBatch] ([], .start) =
      some (.ok .start) := by
    rw [maxBatches, fireBatches, if_neg (by simp [Session.start]), if_neg (not_not.mpr fetched)]
    rfl
  rw [fireDueRules, fireRulesOf, ran]
  exact congrArg some (commit_start store)

/-- A run of the job fires each rule at most once: its query selects none. -/
theorem fires_once (store after : Store) (today : Date) (scripts : List BatchScript)
    (committed : fireDueRules store today scripts = some (.ok after)) :
    FiresOnce store after today := by
  obtain ⟨result, ended, closed⟩ := Option.map_eq_some_iff.mp committed
  cases result with
  | error error => cases closed
  | ok session =>
      have fetched := answers_fetched ended
      have once : SelectedOnce store scripts := by
        refine List.pairwise_of_forall_mem_list fun earlier ran later _ rule selected => ?_
        obtain ⟨state, answered⟩ := fetched earlier ran
        rw [fetches_due_nil answered] at selected
        cases selected
      exact (fires_once_iff_selected_once committed).mpr once

def firstOfMay : Date := ⟨2026, 5, 1, by decide, by decide, by decide⟩

def salary : RecurringRule where
  id := ⟨1⟩
  userId := ⟨3⟩
  amount := ⟨1000, "USD"⟩
  type := .INCOME
  merchant := some "Salary"
  notes := none
  categoryId := none
  recurrence := .MONTHLY
  dayOfMonth := some 1
  dayOfWeek := none
  month := none
  endDate := none
  status := .ACTIVE
  nextFireDate := firstOfMay
  updatedAt := none

def salaryStore : Store := ⟨⟨[salary], by decide⟩, .empty, .empty, by decide⟩

theorem fires_once_salary : FiresOnce salaryStore salaryStore firstOfMay :=
  fires_once salaryStore salaryStore firstOfMay [idleBatch]
    (fire_due_rules_idle_batch salaryStore firstOfMay)

end Yomochi.Recurring
