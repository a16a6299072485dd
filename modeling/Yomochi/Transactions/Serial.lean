import Yomochi.Quota.Monthly
import Yomochi.Transactions.Overlaps

/-! Requests that overlap and requests that come one after another. -/

namespace Yomochi.Transactions

open Foundation Recurring
open Quota (Plan createdBy planLimit)

def commandOf (row : Transaction) : CreateTransactionCommand :=
  ⟨row.userId, row.amount, row.date, row.type, row.merchant, row.notes, row.categoryId,
    row.recurringRuleId⟩

def scriptOf (row : Transaction) : FireScript := ⟨none, row.id, row.createdAt, 0⟩

/-- `check_and_increment`. The scheduler has a `NoOpQuotaCheck`. -/
def underQuota (plans : UserId → Option Plan) (store : Store) (row : Transaction) : Bool :=
  row.recurringRuleId.isSome ||
    decide (store.transactions.rows.countP (fun stored =>
        createdBy row.userId stored.userId (currentMonth row.createdAt) stored.createdAt) <
      planLimit ((plans row.userId).getD .FREE) .TRANSACTIONS)

def createWhole (plans : UserId → Option Plan) (store : Store) (session : Session)
    (row : Transaction) : Session :=
  if underQuota plans store row && loads row then
    (createTransaction store (scriptOf row) session (commandOf row)).2
  else session

def deleteTransaction (store : Store) (id : TransactionId) (userId : UserId) : Store :=
  match load store id userId with
  | none => store
  | some _ => removeTransaction store id userId

/-- A request that runs by itself, from its checks to its commit. -/
def Commit.apply (plans : UserId → Option Plan) (store : Store) : Commit → Store
  | .created session => store.commitAdded (session.added.foldl (createWhole plans store) .start)
  | .updated command => (updateTransaction store command).2
  | .removed id userId => deleteTransaction store id userId
  | .category added =>
      match store.categories.insert added with
      | none => store
      | some categories => { store with categories := categories }
  | .rule added => store.insertRule added
  | .ruleRemoved id userId => removeRule store id userId

/-- The requests one after another, in the order of their commits. -/
def replay (plans : UserId → Option Plan) (store : Store) (commits : List Commit) : Store :=
  commits.foldl (Commit.apply plans) store

/-- The columns that an update names are as it has read them, and its category still passes. -/
structure Unraced (store : Store) (write : Write) : Prop where
  amount : (.amount ∈ write.command.fieldsToUpdate ∨ .currency ∈ write.command.fieldsToUpdate) →
    write.row.amount = write.read.amount
  date : .date ∈ write.command.fieldsToUpdate → write.row.date = write.read.date
  type : .type ∈ write.command.fieldsToUpdate → write.row.type = write.read.type
  merchant : .merchant ∈ write.command.fieldsToUpdate → write.row.merchant = write.read.merchant
  notes : .notes ∈ write.command.fieldsToUpdate → write.row.notes = write.read.notes
  categoryId : .categoryId ∈ write.command.fieldsToUpdate →
    write.row.categoryId = write.read.categoryId
  category : validateCategory store write.command.userId
    ((write.command.given .categoryId write.command.categoryId).getD none) = .ok ()

instance (store : Store) (write : Write) : Decidable (Unraced store write) :=
  decidable_of_iff
    (((.amount ∈ write.command.fieldsToUpdate ∨ .currency ∈ write.command.fieldsToUpdate) →
        write.row.amount = write.read.amount) ∧
      (.date ∈ write.command.fieldsToUpdate → write.row.date = write.read.date) ∧
      (.type ∈ write.command.fieldsToUpdate → write.row.type = write.read.type) ∧
      (.merchant ∈ write.command.fieldsToUpdate → write.row.merchant = write.read.merchant) ∧
      (.notes ∈ write.command.fieldsToUpdate → write.row.notes = write.read.notes) ∧
      (.categoryId ∈ write.command.fieldsToUpdate →
        write.row.categoryId = write.read.categoryId) ∧
      validateCategory store write.command.userId
        ((write.command.given .categoryId write.command.categoryId).getD none) = .ok ())
    ⟨fun ⟨amount, date, type, merchant, notes, categoryId, category⟩ =>
      ⟨amount, date, type, merchant, notes, categoryId, category⟩,
      fun unraced => ⟨unraced.amount, unraced.date, unraced.type, unraced.merchant,
        unraced.notes, unraced.categoryId, unraced.category⟩⟩

def inserting (s : State) : Action → List Transaction
  | .commitCreated request =>
      match s.requests request with
      | .adding session => session.added
      | _ => []
  | _ => []

/-- No update overtakes another one of the same columns, and the checks of a creation or an update
still pass when it commits. -/
structure Serial (plans : UserId → Option Plan) (s : State) (action : Action) : Prop where
  quota : ∀ row ∈ inserting s action, underQuota plans s.store row = true
  category : ∀ row ∈ inserting s action,
    validateCategory s.store row.userId row.categoryId = .ok ()
  written : ∀ write ∈ writing s action, Unraced s.store write

instance (plans : UserId → Option Plan) (s : State) (action : Action) :
    Decidable (Serial plans s action) :=
  decidable_of_iff
    ((∀ row ∈ inserting s action, underQuota plans s.store row = true) ∧
      (∀ row ∈ inserting s action,
        validateCategory s.store row.userId row.categoryId = .ok ()) ∧
      ∀ write ∈ writing s action, Unraced s.store write)
    ⟨fun ⟨quota, category, written⟩ => ⟨quota, category, written⟩,
      fun serial => ⟨serial.quota, serial.category, serial.written⟩⟩

/-! One creation. -/

section Creations

variable {plans : UserId → Option Plan} {store after : Store} {session : Session}

theorem create_transaction_loaded (store : Store) (script : FireScript) (session : Session)
    (command : CreateTransactionCommand) :
    (createTransaction store script session command).2.loaded = session.loaded := by
  unfold createTransaction
  split
  · rfl
  · split
    · rfl
    · split
      · rfl
      · dsimp only
        split <;> rfl

theorem create_whole_add {row : Transaction} (running : session.aborted = false)
    (quota : underQuota plans store row = true) (priced : loads row = true)
    (category : validateCategory store row.userId row.categoryId = .ok ()) :
    createWhole plans store session row = session.add row := by
  unfold createWhole
  rw [quota, priced, Bool.and_self, if_pos rfl]
  unfold createTransaction
  rw [running, if_neg Bool.false_ne_true, if_neg (by simp [scriptOf])]
  simp only [commandOf, category]
  rfl

theorem create_whole_all {rows : List Transaction}
    (quota : ∀ row ∈ rows, underQuota plans store row = true)
    (priced : ∀ row ∈ rows, loads row = true)
    (category : ∀ row ∈ rows, validateCategory store row.userId row.categoryId = .ok ())
    (running : session.aborted = false) :
    rows.foldl (createWhole plans store) session =
      { session with added := session.added ++ rows } := by
  induction rows generalizing session with
  | nil => rw [List.foldl_nil, List.append_nil]
  | cons row rows ih =>
      rw [List.forall_mem_cons] at quota priced category
      have rest := ih quota.2 priced.2 category.2 (show (session.add row).aborted = false from running)
      rw [List.foldl_cons, create_whole_add running quota.1 priced.1 category.1, rest]
      unfold Session.add
      dsimp only
      rw [List.append_assoc, List.singleton_append]

theorem commit_added_ok (admitted : session.added.all store.admitsTransaction = true)
    (commits : session.commit store = .ok after) : store.commitAdded session = after := by
  unfold Store.commitAdded
  rw [if_pos admitted]
  split
  · rename_i refused
    rw [commits] at refused
    cases refused
  · rename_i other same
    rw [commits] at same
    exact (Except.ok.inj same).symm

/-- A creation leaves what it leaves by itself, if its checks still pass. -/
theorem replay_created (fresh : session.loaded = Session.start.loaded)
    (quota : ∀ row ∈ session.added, underQuota plans store row = true)
    (priced : ∀ row ∈ session.added, loads row = true)
    (category : ∀ row ∈ session.added,
      validateCategory store row.userId row.categoryId = .ok ())
    (admitted : session.added.all store.admitsTransaction = true)
    (commits : session.commit store = .ok after) :
    (Commit.created session).apply plans store = after := by
  have running := (commit_eq_ok commits).sound
  change store.commitAdded (session.added.foldl (createWhole plans store) .start) = after
  rw [create_whole_all quota priced category rfl]
  obtain ⟨loaded, locked, added, aborted⟩ := session
  dsimp only at fresh running
  subst fresh
  subst running
  apply commit_added_ok
  · exact admitted
  · exact commits

end Creations

/-! One update. -/

section Columns

theorem flush_given {α : Type} [DecidableEq α] {read row : α} (value : Option α)
    (same : value.isSome = true → row = read) :
    flushColumn read (value.getD read) row = value.getD row := by
  unfold flushColumn
  cases value with
  | none => exact if_pos rfl
  | some value =>
      dsimp only [Option.getD_some]
      split
      · rename_i equal
        exact (same rfl).trans equal.symm
      · rfl

theorem given_some {α : Type} {command : UpdateTransactionCommand} {field : Field} {value : α}
    (some : (command.given field value).isSome = true) : field ∈ command.fieldsToUpdate := by
  unfold UpdateTransactionCommand.given at some
  split at some
  · assumption
  · cases some

theorem given_join {α : Type} {command : UpdateTransactionCommand} {field : Field}
    {value : Option α} (some : ((command.given field value).getD none).isSome = true) :
    field ∈ command.fieldsToUpdate := by
  unfold UpdateTransactionCommand.given at some
  split at some
  · assumption
  · cases some

theorem flush_money {read row : Money} (value : Option Money)
    (same : value.isSome = true → row = read) :
    (⟨flushColumn read.amount (value.getD read).amount row.amount,
      flushColumn read.currency (value.getD read).currency row.currency⟩ : Money) =
        value.getD row := by
  cases value with
  | none =>
      unfold flushColumn
      rw [Option.getD_none, if_pos rfl, if_pos rfl]
      rfl
  | some money =>
      have amount := flush_given (some money.amount) fun _ => congrArg Money.amount (same rfl)
      have currency := flush_given (some money.currency) fun _ => congrArg Money.currency (same rfl)
      rw [Option.getD_some] at amount currency
      rw [Option.getD_some, amount, currency]
      rfl

theorem new_amount_same {command : UpdateTransactionCommand} {read row : Transaction}
    (same : (.amount ∈ command.fieldsToUpdate ∨ .currency ∈ command.fieldsToUpdate) →
      row.amount = read.amount) : command.newAmount row = command.newAmount read := by
  unfold UpdateTransactionCommand.newAmount
  split
  · rename_i named
    rw [same named]
  · rfl

theorem amount_named {command : UpdateTransactionCommand} {read : Transaction}
    {amount : Option Money} (given : command.newAmount read = .ok amount)
    (some : amount.isSome = true) :
    .amount ∈ command.fieldsToUpdate ∨ .currency ∈ command.fieldsToUpdate := by
  unfold UpdateTransactionCommand.newAmount at given
  split at given
  · assumption
  · cases given
    cases some

/-- An update that has not been overtaken writes what it would make of the stored row. -/
theorem flush_updated {earlier store : Store} {write : Write}
    (made : updatedTransaction earlier write.command write.read = .ok write.current)
    (unraced : Unraced store write) :
    updatedTransaction store write.command write.row =
      .ok (flush write.read write.current write.row) := by
  have same := new_amount_same unraced.amount
  unfold updatedTransaction at made ⊢
  rw [unraced.category, same]
  split at made
  · cases made
  · split at made
    · cases made
    · rename_i amount given
      have current := (Except.ok.inj made).symm
      have money := flush_money amount fun some => unraced.amount (amount_named given some)
      have date := flush_given ((write.command.given .date write.command.date).getD none)
        fun some => unraced.date (given_join some)
      have type := flush_given ((write.command.given .type write.command.type).getD none)
        fun some => unraced.type (given_join some)
      have merchant := flush_given (write.command.given .merchant write.command.merchant)
        fun some => unraced.merchant (given_some some)
      have notes := flush_given (write.command.given .notes write.command.notes)
        fun some => unraced.notes (given_some some)
      have category := flush_given (write.command.given .categoryId write.command.categoryId)
        fun some => unraced.categoryId (given_some some)
      rw [current]
      unfold flush Transaction.applyUpdate
      dsimp only
      rw [money, date, type, merchant, notes, category]

theorem untouched_same {store : Store} {command : UpdateTransactionCommand}
    {row updated : Transaction} (quiet : touches command = false)
    (made : updatedTransaction store command row = .ok updated) : updated = row := by
  unfold touches at quiet
  simp only [Bool.or_eq_false_iff, Bool.and_eq_false_iff, decide_eq_false_iff_not] at quiet
  obtain ⟨⟨⟨⟨⟨amount, date⟩, type⟩, merchant⟩, notes⟩, category⟩ := quiet
  have none {α : Type} {field : Field} {value : Option α}
      (absent : field ∉ command.fieldsToUpdate ∨ value.isSome = false) :
      (command.given field value).getD none = none := by
    unfold UpdateTransactionCommand.given
    split
    · rename_i named
      rcases absent with absent | absent
      · exact absurd named absent
      · simpa using absent
    · rfl
  unfold updatedTransaction at made
  split at made
  · cases made
  · split at made
    · cases made
    · rename_i money given
      cases made
      unfold UpdateTransactionCommand.newAmount at given
      rw [if_neg amount] at given
      cases given
      unfold Transaction.applyUpdate
      rw [none date, none type]
      unfold UpdateTransactionCommand.given
      rw [if_neg merchant, if_neg notes, if_neg category]
      rfl

theorem write_same {store : Store} {row : Transaction} (stored : row ∈ store.transactions.rows) :
    store.writeTransaction row = store := by
  unfold Store.writeTransaction
  split
  · split
    · have same := Table.replace_self stored
      obtain ⟨rules, transactions, categories, unique⟩ := store
      dsimp only at same ⊢
      congr 1
    · rfl
  · rfl

theorem remove_absent {store : Store} {id : TransactionId} {userId : UserId}
    (priced : ∀ row ∈ store.transactions.rows, loads row = true)
    (absent : load store id userId = none) : removeTransaction store id userId = store := by
  have kept : ∀ row ∈ store.transactions.rows, addresses id userId row = false := by
    intro row stored
    apply Bool.eq_false_iff.mpr
    intro met
    simp only [addresses, Bool.and_eq_true, decide_eq_true_eq] at met
    have found := Table.get_of_mem stored
    unfold load getTransaction at absent
    rw [← met.1, found, Option.filter_some, if_pos (decide_eq_true met.2), Option.filter_some,
      if_pos (priced row stored)] at absent
    cases absent
  have rows : store.transactions.rows.filter (fun row => !addresses id userId row) =
      store.transactions.rows := by
    apply List.filter_eq_self.mpr
    intro row stored
    rw [kept row stored]
    rfl
  obtain ⟨rules, ⟨transactions, unique⟩, categories, distinct⟩ := store
  unfold removeTransaction Table.delete
  dsimp only at rows ⊢
  congr 2

end Columns

theorem update_quiet {store : Store} {command : UpdateTransactionCommand}
    (quiet : touches command = false) : (updateTransaction store command).2 = store := by
  unfold updateTransaction
  split
  · rfl
  · split
    · rfl
    · rename_i row found
      split
      · rfl
      · split
        · rfl
        · rename_i updated made
          rw [untouched_same quiet made]
          exact write_same (Table.mem_of_get (Option.filter_eq_some_iff.mp found).1)

theorem update_written {store : Store} {command : UpdateTransactionCommand}
    {row updated : Transaction} (touched : touches command = true)
    (found : getTransaction store command.transactionId command.userId = some row)
    (priced : loads row = true) (made : updatedTransaction store command row = .ok updated) :
    (updateTransaction store command).2 = store.writeTransaction updated := by
  have some : command.fieldsToUpdate.isEmpty = false := by
    apply Bool.eq_false_iff.mpr
    intro empty
    rw [List.isEmpty_iff] at empty
    unfold touches at touched
    rw [empty] at touched
    simp at touched
  unfold loads at priced
  unfold updateTransaction
  rw [some, found]
  dsimp only
  rw [if_neg Bool.false_ne_true]
  cases valued : moneyFactory row.amount with
  | error error =>
      rw [valued] at priced
      cases priced
  | ok money =>
      dsimp only
      rw [made]

/-- An update that has not been overtaken does not mix an amount with another currency. -/
theorem unraced_kept {earlier store : Store} {write : Write}
    (made : updatedTransaction earlier write.command write.read = .ok write.current)
    (unraced : Unraced store write) : AmountKept write.read write.current write.row := by
  obtain ⟨amount, given, same⟩ := updated_amount made
  cases amount with
  | none =>
      rw [Option.getD_none] at same
      constructor
      · intro _ changed
        exact absurd (congrArg Money.currency same) changed
      · intro _ changed
        exact absurd (congrArg Money.amount same) changed
  | some money =>
      have kept := unraced.amount (amount_named given rfl)
      exact ⟨fun _ _ => congrArg Money.amount kept, fun _ _ => congrArg Money.currency kept⟩

/-! Runs. -/

/-- What an update has read is a row of its user that has come. -/
structure Reads (initial : Store) (s : State) (command : UpdateTransactionCommand)
    (read : Transaction) : Prop where
  id : read.id = command.transactionId
  userId : read.userId = command.userId
  came : owned read ∈ came initial s

structure Replayed (plans : UserId → Option Plan) (initial : Store) (s : State) : Prop extends
    Kept initial s where
  priced : Priced s
  replayed : replay plans initial s.committed = s.store
  fresh : ∀ request session, s.requests request = .adding session →
    session.loaded = Session.start.loaded
  reads : ∀ request command read, s.requests request = .loaded command read →
    Reads initial s command read
  made : ∀ request command read current, s.requests request = .changed command read current →
    Reads initial s command read ∧ ∃ earlier, updatedTransaction earlier command read = .ok current

section Replays

variable {plans : UserId → Option Plan} {initial : Store} {s t : State} {action : Action}

theorem reads_later {command : UpdateTransactionCommand} {read : Transaction}
    (reads : Reads initial s command read) (outcome : Outcome s action t) :
    Reads initial t command read :=
  ⟨reads.id, reads.userId, came_subset outcome reads.came⟩

theorem reads_stored {command : UpdateTransactionCommand} {read row : Transaction}
    (kept : Kept initial s) (reads : Reads initial s command read)
    (stored : s.store.transactions.get read.id = some row) :
    getTransaction s.store command.transactionId command.userId = some row := by
  have member : owned row ∈ came initial s :=
    kept.rows.subset (List.mem_append_left _
      (List.mem_map.mpr ⟨row, Table.mem_of_get stored, rfl⟩))
  have ids : row.id = read.id := Table.key_of_get stored
  have same : owned row = owned read :=
    List.inj_on_of_nodup_map kept.single member reads.came ids
  have own : row.userId = command.userId := (congrArg Prod.snd same).trans reads.userId
  unfold getTransaction
  rw [← reads.id, stored, Option.filter_some, if_pos (decide_eq_true own)]

theorem mem_writing {write : Write} (member : write ∈ writing s action) :
    ∃ request, s.requests request = .changed write.command write.read write.current := by
  cases action with
  | commitChanged request =>
      unfold writing at member
      dsimp only at member
      split at member
      · rename_i command read current was
        obtain ⟨row, _, rfl⟩ := Option.map_eq_some_iff.mp member
        exact ⟨request, was⟩
      · cases member
  | _ => cases member

theorem inserting_at {request : RequestId} {session : Session}
    (was : s.requests request = .adding session) :
    inserting s (.commitCreated request) = session.added := by
  unfold inserting
  dsimp only
  rw [was]

theorem serial_unmixed (replayed : Replayed plans initial s) (serial : Serial plans s action) :
    Unmixed s action := by
  intro write member
  obtain ⟨request, was⟩ := mem_writing member
  obtain ⟨_, earlier, made⟩ := replayed.made _ _ _ _ was
  exact unraced_kept made (serial.written write member)

theorem replay_append (commits : List Commit) (commit : Commit) :
    replay plans initial (commits ++ [commit]) =
      commit.apply plans (replay plans initial commits) := by
  unfold replay
  rw [List.foldl_append]
  rfl

theorem replayed_outcome (replayed : Replayed plans initial s) (serial : Serial plans s action)
    (outcome : Outcome s action t) : replay plans initial t.committed = t.store := by
  cases outcome with
  | turned _ _ => exact replayed.replayed
  | added _ _ _ => exact replayed.replayed
  | inserted was admitted commits =>
      have quota := serial.quota
      have category := serial.category
      rw [inserting_at was] at quota category
      dsimp only
      rw [replay_append, replayed.replayed]
      exact replay_created (replayed.fresh _ _ was) quota (replayed.priced.added _ _ was) category admitted
        commits
  | untouched was quiet =>
      change replay plans initial (s.committed ++ [_]) = s.store
      rw [replay_append, replayed.replayed]
      exact update_quiet quiet
  | written was touched stored admitted unique =>
      dsimp only
      rw [replay_append, replayed.replayed]
      obtain ⟨reads, earlier, made⟩ := replayed.made _ _ _ _ was
      apply update_written touched (reads_stored replayed.toKept reads stored)
      · exact replayed.priced.rows _ (Table.mem_of_get stored)
      · exact flush_updated made (serial.written _ (writing_at was stored))
  | @removed request id userId was =>
      change replay plans initial (s.committed ++ [_]) = removeTransaction s.store id userId
      rw [replay_append, replayed.replayed]
      dsimp only [Commit.apply, deleteTransaction]
      split
      · rename_i absent
        exact (remove_absent replayed.priced.rows absent).symm
      · rfl
  | category stored =>
      dsimp only
      rw [replay_append, replayed.replayed]
      dsimp only [Commit.apply]
      rw [stored]
  | rule =>
      dsimp only
      rw [replay_append, replayed.replayed]
      rfl
  | ruleRemoved =>
      dsimp only
      rw [replay_append, replayed.replayed]
      rfl

theorem replayed_step (replayed : Replayed plans initial s) (serial : Serial plans s action)
    (taken : step s action = some t) : Replayed plans initial t := by
  have outcome := step_outcome taken
  constructor
  · exact kept_step replayed.toKept taken
  · exact priced_step replayed.priced (serial_unmixed replayed serial) taken
  · exact replayed_outcome replayed serial outcome
  · intro request session phase
    rcases outcome_phase outcome phase with same | becomes
    · exact replayed.fresh request session same
    · have before {earlier : Session} (was : s.requests request = .arrived ∧ earlier = .start ∨
          s.requests request = .adding earlier) : earlier.loaded = Session.start.loaded := by
        rcases was with ⟨_, rfl⟩ | was
        · rfl
        · exact replayed.fresh request earlier was
      cases becomes with
      | turned turns =>
          cases turns with
          | adding was => exact before was
      | added _ was _ _ _ =>
          rw [create_transaction_loaded]
          exact before was
  · intro request command read phase
    rcases outcome_phase outcome phase with same | becomes
    · exact reads_later (replayed.reads request command read same) outcome
    · cases becomes with
      | turned turns =>
          cases turns with
          | loaded found =>
              obtain ⟨stored, key, own, _⟩ := mem_of_load found
              refine ⟨key, own, came_subset outcome (replayed.rows.subset ?_)⟩
              exact List.mem_append_left _ (List.mem_map.mpr ⟨read, stored, rfl⟩)
  · intro request command read current phase
    rcases outcome_phase outcome phase with same | becomes
    · obtain ⟨reads, made⟩ := replayed.made request command read current same
      exact ⟨reads_later reads outcome, made⟩
    · cases becomes with
      | turned turns =>
          cases turns with
          | changed was made =>
              exact ⟨reads_later (replayed.reads _ _ _ was) outcome, s.store, made⟩

end Replays

theorem replayed_start {plans : UserId → Option Plan} {initial : Store}
    (constrained : ∀ row ∈ initial.transactions.rows, initial.admitsTransaction row = true)
    (loadable : ∀ row ∈ initial.transactions.rows, loads row = true) :
    Replayed plans initial (.start initial) := by
  constructor
  · exact kept_start constrained
  · exact priced_start loadable
  · rfl
  · intro request session phase
    cases phase
  · intro request command read phase
    cases phase
  · intro request command read current phase
    cases phase

/-- Requests that overlap leave what they leave one after another in the order of their commits, each
with all its checks, as long as no update overtakes another one of the same columns and the checks
that a request has made still pass when it commits. -/
theorem requests_serializable {plans : UserId → Option Plan} {initial : Store}
    (constrained : ∀ row ∈ initial.transactions.rows, initial.admitsTransaction row = true)
    (loadable : ∀ row ∈ initial.transactions.rows, loads row = true) {actions : List Action}
    (serial : Along step (Serial plans) (.start initial) actions) :
    Visits step (fun s => replay plans initial s.committed = s.store) (.start initial) actions :=
  visits_of_along (fun _ _ _ serial taken replayed => replayed_step replayed serial taken)
    (fun _ replayed => replayed.replayed) serial (replayed_start constrained loadable)

def tip : CreateTransactionCommand :=
  ⟨⟨3⟩, ⟨2, "USD"⟩, taxi.date, .EXPENSE, none, none, none, none⟩

/-- Two updates of other columns, and a deletion between the second one's read and its commit. A
creation has begun before all of them. -/
theorem requests_serializable_taxi :
    Visits step (fun s => replay (fun _ => none) purse s.committed = s.store) (.start purse)
      [.create 4 tip ⟨none, ⟨2⟩, 0, 0⟩, .load 0 (taxiUpdate [.merchant] none none (some "Cab")),
        .load 1 (taxiUpdate [.amount] (some "12") none none), .change 0, .change 1,
        .commitChanged 1, .find 2 ⟨1⟩ ⟨3⟩, .commitCreated 4, .commitChanged 0,
        .load 3 (taxiUpdate [.notes] none none none), .change 3, .commitRemoved 2,
        .commitChanged 3] :=
  requests_serializable purse_constrained purse_loads (by decide +kernel)

end Yomochi.Transactions
