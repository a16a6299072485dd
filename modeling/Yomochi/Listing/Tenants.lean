import Yomochi.Chat.History
import Yomochi.Foundation.Tenancy

/-! The users as tenants of the database: the lists of transactions, insights, alerts and chat
turns, the last turns that a chat loads, and the statements that write these tables. -/

namespace Yomochi.Listing.Tenants

open Foundation
open Chat (ChatTurn Turns ListChatHistoryQuery ListChatHistoryResult)

structure Database where
  transactions : Table Transaction.id_
  insights : Table Insight.id_
  alerts : Table Alert.id_
  turns : Turns

structure TransactionValues where
  date : Date
  type_ : Recurring.TransactionType
  currencyCode : Text
  categoryId : Option UUID

/-- The requests of a user, and what is stored for the user behind them. Who asks is no part of a
request: it is the identity that the session gives. -/
inductive UserRequest
  | listTransactions (query : ListTransactionsQuery)
  | listInsights (query : ListInsightsQuery)
  | listAlerts (query : ListAlertsQuery)
  | listChatHistory (query : ListChatHistoryQuery)
  | addTransaction (id : UUID) (createdAt : DateTime) (values : TransactionValues)
  | updateTransaction (id : UUID) (values : TransactionValues)
  | deleteTransaction (id : UUID)
  | addInsight (insight : Insight)
  | addAlert (alert : Alert)
  | markAlertRead (id : UUID)
  | clearAlerts
  | lastTurns (n : Nat)
  | appendTurnPair (asked answered : ChatTurn)
  | clearChatHistory

inductive UserAnswer
  | transactions (result : Except ListError ListTransactionsResult)
  | insights (result : Except ListError ListInsightsResult)
  | alerts (result : Except ListError ListAlertsResult)
  | history (result : Except ListError ListChatHistoryResult)
  | turns (turns : List ChatTurn)
  | stored (done : Bool)
  | found (there : Bool)
  | done

def Transaction.isOf (tx : Transaction) (userId id : UUID) : Bool :=
  decide (tx.userId = userId) && decide (tx.id_ = id)

def Alert.isOf (alert : Alert) (userId id : UUID) : Bool :=
  decide (alert.userId = userId) && decide (alert.id_ = id)

def Transaction.write (values : TransactionValues) (tx : Transaction) : Transaction :=
  { tx with
    date := values.date
    type_ := values.type_
    currencyCode := values.currencyCode
    categoryId := values.categoryId }

def newTransaction (userId id : UUID) (createdAt : DateTime) (values : TransactionValues) :
    Transaction :=
  ⟨id, userId, values.date, createdAt, values.type_, values.currencyCode, values.categoryId⟩

def Alert.read (alert : Alert) : Alert := { alert with isRead := true }

theorem write_keeps (values : TransactionValues) (tx : Transaction) :
    (Transaction.write values tx).id_ = tx.id_ := rfl

theorem read_keeps (alert : Alert) : (Alert.read alert).id_ = alert.id_ := rfl

/-- An INSERT; one that is refused changes nothing. -/
def insertInto {Row : Type} {key : Row → UUID} (table : Table key) (row : Row) :
    Table key × Bool :=
  match table.insert row with
  | none => (table, false)
  | some next => (next, true)

def serve (platform : Platform) (user : UUID) (request : UserRequest) (db : Database) :
    Database × UserAnswer :=
  match request with
  | .listTransactions query =>
      (db, .transactions
        (ListTransactions.call platform db.transactions.rows { query with userId := user }))
  | .listInsights query =>
      (db, .insights (ListInsights.call platform db.insights.rows { query with userId := user }))
  | .listAlerts query =>
      (db, .alerts (ListAlerts.call platform db.alerts.rows { query with userId := user }))
  | .listChatHistory query =>
      (db, .history
        (Chat.ListChatHistory.call platform db.turns.rows { query with userId := user }))
  | .addTransaction id createdAt values =>
      let inserted := insertInto db.transactions (newTransaction user id createdAt values)
      ({ db with transactions := inserted.1 }, .stored inserted.2)
  | .updateTransaction id values =>
      let written := db.transactions.updateWhere (fun tx => Transaction.isOf tx user id)
        (Transaction.write values) (write_keeps values)
      ({ db with transactions := written },
        .found (db.transactions.rows.any fun tx => Transaction.isOf tx user id))
  | .deleteTransaction id =>
      ({ db with transactions := db.transactions.delete fun tx => Transaction.isOf tx user id },
        .found (db.transactions.rows.any fun tx => Transaction.isOf tx user id))
  | .addInsight insight =>
      let inserted := insertInto db.insights { insight with userId := user }
      ({ db with insights := inserted.1 }, .stored inserted.2)
  | .addAlert alert =>
      let inserted := insertInto db.alerts { alert with userId := user }
      ({ db with alerts := inserted.1 }, .stored inserted.2)
  | .markAlertRead id =>
      let written := db.alerts.updateWhere (fun alert => Alert.isOf alert user id) Alert.read
        read_keeps
      ({ db with alerts := written },
        .found (db.alerts.rows.any fun alert => Alert.isOf alert user id))
  | .clearAlerts =>
      ({ db with alerts := db.alerts.delete fun alert => decide (alert.userId = user) }, .done)
  | .lastTurns n => (db, .turns (db.turns.lastN user n))
  | .appendTurnPair asked answered =>
      match db.turns.appendTurnPair { asked with userId := user }
          { answered with userId := user } with
      | none => (db, .stored false)
      | some turns => ({ db with turns := turns }, .stored true)
  | .clearChatHistory => ({ db with turns := db.turns.clearAll user }, .done)

def service (platform : Platform) : Service UUID Database UserRequest UserAnswer :=
  ⟨serve platform⟩

def FreshIds (_ : UUID) (request : UserRequest) (db : Database) : Prop :=
  match request with
  | .addTransaction id _ _ => id ∉ db.transactions.rows.map Transaction.id_
  | .addInsight insight => insight.id_ ∉ db.insights.rows.map Insight.id_
  | .addAlert alert => alert.id_ ∉ db.alerts.rows.map Alert.id_
  | .appendTurnPair asked answered => asked.id ≠ answered.id ∧
      asked.id ∉ db.turns.rows.map ChatTurn.id ∧ answered.id ∉ db.turns.rows.map ChatTurn.id
  | _ => True

def share (user : UUID) (db : Database) : Database where
  transactions := db.transactions.ownedBy Transaction.userId user
  insights := db.insights.ownedBy Insight.userId user
  alerts := db.alerts.ownedBy Alert.userId user
  turns := db.turns.ownedBy ChatTurn.userId user

/-! A user's own requests. -/

section Own

open Table (OnlyOf)

variable {user : UUID}

theorem transaction_only_of (id : UUID) :
    OnlyOf Transaction.userId user fun tx => Transaction.isOf tx user id := by
  intro tx met
  exact of_decide_eq_true (Bool.and_eq_true _ _ ▸ met).1

theorem alert_only_of (id : UUID) :
    OnlyOf Alert.userId user fun alert => Alert.isOf alert user id := by
  intro alert met
  exact of_decide_eq_true (Bool.and_eq_true _ _ ▸ met).1

theorem owner_only_of {Row : Type} (owner : Row → UUID) :
    OnlyOf owner user fun row => decide (owner row = user) :=
  fun _ met => of_decide_eq_true met

theorem list_transactions_own (platform : Platform) (table : Table Transaction.id_)
    (query : ListTransactionsQuery) :
    ListTransactions.call platform (table.ownedBy Transaction.userId user).rows
        { query with userId := user } =
      ListTransactions.call platform table.rows { query with userId := user } := by
  have selected (cursor : Option Position) (type currency category : Option Text) :
      ListTransactions.listByUser (table.ownedBy Transaction.userId user).rows user query.limit
          cursor type currency category =
        ListTransactions.listByUser table.rows user query.limit cursor type currency category := by
    simp only [ListTransactions.listByUser]
    cases ListTransactions.readCategory category with
    | error error => rfl
    | ok asked =>
        simp only [bind, Except.bind]
        rw [Table.filter_own]
        intro tx met
        simp only [Bool.and_eq_true, decide_eq_true_iff] at met
        exact met.1.1.1.1
  simp only [ListTransactions.call, selected]

theorem list_insights_own (platform : Platform) (table : Table Insight.id_)
    (query : ListInsightsQuery) :
    ListInsights.call platform (table.ownedBy Insight.userId user).rows
        { query with userId := user } =
      ListInsights.call platform table.rows { query with userId := user } := by
  have selected (cursor : Option Moment) :
      ListInsights.listByUser (table.ownedBy Insight.userId user).rows user query.limit cursor
          query.period query.periodYear query.periodMonth =
        ListInsights.listByUser table.rows user query.limit cursor query.period query.periodYear
          query.periodMonth := by
    simp only [ListInsights.listByUser]
    rw [Table.filter_own]
    intro insight met
    simp only [Bool.and_eq_true, decide_eq_true_iff] at met
    exact met.1.1.1.1
  simp only [ListInsights.call, selected]

theorem list_alerts_own (platform : Platform) (table : Table Alert.id_)
    (query : ListAlertsQuery) :
    ListAlerts.call platform (table.ownedBy Alert.userId user).rows { query with userId := user } =
      ListAlerts.call platform table.rows { query with userId := user } := by
  have selected (cursor : Option Moment) :
      ListAlerts.listForUser platform (table.ownedBy Alert.userId user).rows user query.limit
          cursor =
        ListAlerts.listForUser platform table.rows user query.limit cursor := by
    simp only [ListAlerts.listForUser]
    rw [Table.filter_own]
    intro alert met
    exact of_decide_eq_true (Bool.and_eq_true _ _ ▸ met).1
  have unread : ListAlerts.unreadCount (table.ownedBy Alert.userId user).rows user =
      ListAlerts.unreadCount table.rows user := by
    rw [ListAlerts.unreadCount, Table.filter_own, ListAlerts.unreadCount]
    intro alert met
    exact of_decide_eq_true (Bool.and_eq_true _ _ ▸ met).1
  simp only [ListAlerts.call, selected, unread]

theorem list_chat_history_own (platform : Platform) (turns : Turns)
    (query : ListChatHistoryQuery) :
    Chat.ListChatHistory.call platform (turns.ownedBy ChatTurn.userId user).rows
        { query with userId := user } =
      Chat.ListChatHistory.call platform turns.rows { query with userId := user } := by
  have selected (cursor : Option Moment) :
      Chat.ListChatHistory.listForUser (turns.ownedBy ChatTurn.userId user).rows user query.limit
          cursor =
        Chat.ListChatHistory.listForUser turns.rows user query.limit cursor := by
    simp only [Chat.ListChatHistory.listForUser]
    rw [Table.filter_own]
    intro turn met
    exact of_decide_eq_true (Bool.and_eq_true _ _ ▸ met).1
  simp only [Chat.ListChatHistory.call, selected]

theorem last_n_own (turns : Turns) (n : Nat) :
    Turns.lastN (turns.ownedBy ChatTurn.userId user) user n = turns.lastN user n := by
  rw [Turns.lastN, Table.filter_own (owner_only_of ChatTurn.userId), Turns.lastN]

theorem insert_into_own {Row : Type} {key : Row → UUID} {owner : Row → UUID} {table : Table key}
    (row : Row) (own : owner row = user) (fresh : key row ∉ table.rows.map key) :
    insertInto (table.ownedBy owner user) row =
      ((insertInto table row).1.ownedBy owner user, (insertInto table row).2) := by
  obtain ⟨next, inserted, alone⟩ := Table.insert_own fresh own
  simp only [insertInto, inserted, alone]

theorem append_pair_own {turns : Turns} (asked answered : ChatTurn)
    (different : asked.id ≠ answered.id) (first : asked.id ∉ turns.rows.map ChatTurn.id)
    (second : answered.id ∉ turns.rows.map ChatTurn.id) (asks : asked.userId = user)
    (answers : answered.userId = user) :
    ∃ next : Turns, turns.appendTurnPair asked answered = some next ∧
      Turns.appendTurnPair (turns.ownedBy ChatTurn.userId user) asked answered =
        some (next.ownedBy ChatTurn.userId user) := by
  obtain ⟨middle, one, oneAlone⟩ := Table.insert_own first asks
  have absent : answered.id ∉ middle.rows.map ChatTurn.id := by
    simp [(Table.insert_eq_some one).2, second, Ne.symm different]
  obtain ⟨next, two, twoAlone⟩ := Table.insert_own absent answers
  refine ⟨next, ?_, ?_⟩
  · simp only [Turns.appendTurnPair, Table.insertAll, one, Option.bind_some, two]
  · simp only [Turns.appendTurnPair, Table.insertAll, oneAlone, Option.bind_some, twoAlone]

/-- A user's request finds in the user's share what it finds in everything. -/
theorem serve_own (platform : Platform) (user : UUID) (request : UserRequest) (db : Database)
    (admitted : FreshIds user request db) :
    serve platform user request (share user db) =
      (share user (serve platform user request db).1, (serve platform user request db).2) := by
  cases request with
  | listTransactions query =>
      simp only [serve, share, list_transactions_own]
  | listInsights query =>
      simp only [serve, share, list_insights_own]
  | listAlerts query =>
      simp only [serve, share, list_alerts_own]
  | listChatHistory query =>
      simp only [serve, share, list_chat_history_own]
  | addTransaction id createdAt values =>
      have own : (newTransaction user id createdAt values).userId = user := rfl
      have inserted := insert_into_own _ own admitted
      simp only [serve, share, inserted]
  | updateTransaction id values =>
      simp only [serve, share, Table.any_own (transaction_only_of id)]
      rw [Table.update_owned]
      intro tx
      rfl
  | deleteTransaction id =>
      simp only [serve, share, Table.any_own (transaction_only_of id), Table.delete_owned]
  | addInsight insight =>
      have own : Insight.userId { insight with userId := user } = user := rfl
      have inserted := insert_into_own _ own admitted
      simp only [serve, share, inserted]
  | addAlert alert =>
      have own : Alert.userId { alert with userId := user } = user := rfl
      have inserted := insert_into_own _ own admitted
      simp only [serve, share, inserted]
  | markAlertRead id =>
      simp only [serve, share, Table.any_own (alert_only_of id)]
      rw [Table.update_owned]
      intro alert
      rfl
  | clearAlerts =>
      simp only [serve, share, Table.delete_owned]
  | lastTurns n =>
      simp only [serve, share, last_n_own]
  | appendTurnPair asked answered =>
      obtain ⟨different, first, second⟩ := admitted
      obtain ⟨next, appended, alone⟩ := append_pair_own { asked with userId := user }
        { answered with userId := user } different first second rfl rfl
      simp only [serve, share, appended, alone]
  | clearChatHistory =>
      simp only [serve, share, Turns.clearAll, Table.delete_owned]

end Own

/-! The requests of the others. -/

section Other

variable {sender observer : UUID}

theorem insert_into_other {Row : Type} {key : Row → UUID} {owner : Row → UUID} {table : Table key}
    {row : Row} (other : owner row ≠ observer) :
    (insertInto table row).1.ownedBy owner observer = table.ownedBy owner observer := by
  cases inserted : table.insert row with
  | none => rw [insertInto, inserted]
  | some next =>
      rw [insertInto, inserted]
      exact Table.insert_other inserted other

theorem append_pair_other {turns next : Turns} {asked answered : ChatTurn}
    (appended : turns.appendTurnPair asked answered = some next) (asks : asked.userId ≠ observer)
    (answers : answered.userId ≠ observer) :
    next.ownedBy ChatTurn.userId observer = turns.ownedBy ChatTurn.userId observer := by
  apply Table.ext_rows
  simp [Table.ownedBy, Turns.append_rows appended, asks, answers]

/-- A request leaves the shares of the other users as they are. -/
theorem serve_other (platform : Platform) (request : UserRequest) (db : Database)
    (different : sender ≠ observer) :
    share observer (serve platform sender request db).1 = share observer db := by
  cases request with
  | listTransactions query => rfl
  | listInsights query => rfl
  | listAlerts query => rfl
  | listChatHistory query => rfl
  | addTransaction id createdAt values =>
      have other : (newTransaction sender id createdAt values).userId ≠ observer := different
      simp only [serve, share, insert_into_other other]
  | updateTransaction id values =>
      simp only [serve, share]
      rw [Table.update_other (transaction_only_of id) different]
      intro tx
      rfl
  | deleteTransaction id =>
      simp only [serve, share, Table.delete_other (transaction_only_of id) different]
  | addInsight insight =>
      have other : Insight.userId { insight with userId := sender } ≠ observer := different
      simp only [serve, share, insert_into_other other]
  | addAlert alert =>
      have other : Alert.userId { alert with userId := sender } ≠ observer := different
      simp only [serve, share, insert_into_other other]
  | markAlertRead id =>
      simp only [serve, share]
      rw [Table.update_other (alert_only_of id) different]
      intro alert
      rfl
  | clearAlerts =>
      simp only [serve, share, Table.delete_other (owner_only_of Alert.userId) different]
  | lastTurns n => rfl
  | appendTurnPair asked answered =>
      simp only [serve]
      split
      · rfl
      · rename_i turns appended
        simp only [share, append_pair_other appended different different]
  | clearChatHistory =>
      simp only [serve, share, Turns.clearAll,
        Table.delete_other (owner_only_of ChatTurn.userId) different]

end Other

theorem confines (platform : Platform) : (service platform).Confines FreshIds share where
  own := serve_own platform
  other _ _ request db _ different := serve_other platform request db different

open Service (ofTenant)

end Yomochi.Listing.Tenants
