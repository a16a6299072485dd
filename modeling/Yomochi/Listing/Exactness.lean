import Yomochi.Foundation.Table
import Yomochi.Listing.Timelines
import Yomochi.Listing.Transactions

/-! Following the cursors of a list from the first page to the last: whether every row that matches
is returned exactly once, also when rows come and go between the requests. -/

namespace Yomochi.Listing

open Foundation
open Recurring (TransactionType)

abbrev Request (Row : Type) := Option Text → List Row → Except ListError (List Row × Option Text)

section Exactness

variable {Row Key : Type} [LinearOrder Key] [DecidableEq Row]

/-- The requests went on until one handed out no cursor, or failed. -/
def Ended (request : Request Row) (tables : List (List Row)) : Prop :=
  ∀ traversal, follow request none tables = .ok traversal → traversal.finished = true

/-- While the rows stay as they are, the cursors come to an end. -/
def Terminates (request : Request Row) : Prop :=
  ∀ rows n, rows.length < n → ∃ traversal,
    follow request none (List.replicate n rows) = .ok traversal ∧ traversal.finished = true

/-- The pages are in order, they hold rows that match, and each row that matches and is there at
every request comes exactly once. -/
structure Exact (request : Request Row) (matching : Row → Bool) (key : Row → Key)
    (tables : List (List Row)) (pages : List (List Row)) : Prop where
  descends : pages.flatten.Pairwise fun first second => key second < key first
  sound : ∀ row ∈ pages.flatten, matching row = true
  complete : ∀ row, matching row = true →
    (∀ made ∈ requests request none tables, row ∈ made.2) → pages.flatten.count row = 1

def ReadsExactly (request : Request Row) (matching : Row → Bool) (key : Row → Key)
    (tables : List (List Row)) : Prop :=
  Terminates request ∧ ∃ traversal, follow request none tables = .ok traversal ∧
    traversal.finished = true ∧ Exact request matching key tables traversal.pages

/-- A list that reads its own cursors and selects only rows that match is exact when the rows that
match are selected, and no cursor on the way leaves one out that is smaller. -/
theorem reads_exactly_iff {request : Request Row} {paging : Paging Row Key} {write : Key → Text}
    (reads : ∀ cursor rows, request (cursor.map write) rows =
      .ok ((paging.page cursor rows).1, (paging.page cursor rows).2.map write))
    (descends : paging.Descends) (positive : 0 < paging.limit) {matching : Row → Bool}
    (sound : ∀ row, paging.selects row = true → matching row = true) {tables : List (List Row)}
    (unique : ∀ rows ∈ tables, (rows.map paging.key).Nodup) (ended : Ended request tables) :
    ReadsExactly request matching paging.key tables ↔ ∀ row, matching row = true →
      (∀ made ∈ requests request none tables, row ∈ made.2) → paging.selects row = true ∧
        ∀ made ∈ paging.asked none tables, ∀ last ∈ made.1,
          paging.key row < last → paging.behind last row = true := by
  have followed := follow_eq_traverse reads none
  have made := requests_eq_asked reads none tables
  rw [Option.map_none] at followed made
  have finished := ended _ (followed tables)
  have throughout {row : Row} (present : ∀ made ∈ requests request none tables, row ∈ made.2) :
      ∀ made ∈ paging.asked none tables, row ∈ made.2 := by
    intro asked inside
    rw [made] at present
    exact present (asked.1.map write, asked.2) (List.mem_map_of_mem inside)
  have sorted := Paging.traverse_descends descends unique none
  have returned {row : Row} (selected : paging.selects row = true)
      (present : ∀ made ∈ requests request none tables, row ∈ made.2) :=
    Paging.traverse_complete_iff descends positive unique selected
      (fun last given => absurd given (Option.not_mem_none last)) finished (throughout present)
  constructor
  · rintro ⟨_, traversal, run, _, exact⟩ row matched present
    rw [followed] at run
    cases run
    have member : row ∈ (paging.traverse none tables).pages.flatten :=
      List.count_pos_iff.mp (by rw [exact.complete row matched present]; decide)
    obtain ⟨selected, _⟩ := Paging.traverse_behind descends member
    exact ⟨selected, (returned selected present).mp member⟩
  · intro covered
    refine ⟨fun rows n bound => ⟨_, followed _, ?_⟩, _, followed tables, finished, ?_⟩
    · refine Paging.traverse_finishes descends rows none n ?_
      exact lt_of_le_of_lt (Paging.found_length_le none rows) bound
    · have distinct : (paging.traverse none tables).pages.flatten.Nodup :=
        sorted.imp fun {first second} smaller same => by
          subst same
          exact lt_irrefl _ smaller
      refine ⟨sorted, fun row member => ?_, fun row matched present => ?_⟩
      · exact sound row (Paging.traverse_behind descends member).1
      · obtain ⟨selected, passed⟩ := covered row matched present
        exact List.count_eq_one_of_mem distinct ((returned selected present).mpr passed)

end Exactness

/-! The four lists. -/

def ListTransactions.request (platform : Platform) (query : ListTransactionsQuery) :
    Request Transaction := fun cursor rows =>
  (call platform rows { query with cursor := cursor }).map fun result =>
    (result.transactions, result.nextCursor)

def ListTransactions.matching (query : ListTransactionsQuery) (tx : Transaction) : Bool :=
  decide (tx.userId = query.userId) &&
    (query.typeFilter.all fun type => decide (typeValue tx.type_ = type)) &&
    (query.currencyFilter.all fun currency => decide (tx.currencyCode = currency)) &&
    (query.categoryIdFilter.all fun category =>
      (UUID.ofText category).any fun id => decide (tx.categoryId = some id))

def ListInsights.request (platform : Platform) (query : ListInsightsQuery) : Request Insight :=
  fun cursor rows => (call platform rows { query with cursor := cursor }).map fun result =>
    (result.insights, result.nextCursor)

def ListAlerts.request (platform : Platform) (query : ListAlertsQuery) : Request Alert :=
  fun cursor rows => (call platform rows { query with cursor := cursor }).map fun result =>
    (result.alerts, result.nextCursor)

def ListAuditEvents.request (platform : Platform) (query : ListAuditEventsQuery) :
    Request AuditEvent := fun cursor rows =>
  (call platform rows { query with cursor := cursor }).map fun result =>
    (result.events, result.nextCursor)

def contents {Key Row : Type} {key : Row → Key} (tables : List (Table key)) : List (List Row) :=
  tables.map Table.rows

/-- A list that is followed from no cursor until there is none, over whatever the table holds at
each request. -/
inductive ListRun (platform : Platform)
  | transactions (query : ListTransactionsQuery) (positive : 0 < query.limit)
      (tables : List (Table Transaction.id_))
      (ended : Ended (ListTransactions.request platform query) (contents tables))
  | insights (query : ListInsightsQuery) (positive : 0 < query.limit)
      (tables : List (Table Insight.id_))
      (ended : Ended (ListInsights.request platform query) (contents tables))
  | alerts (query : ListAlertsQuery) (positive : 0 < query.limit)
      (tables : List (Table Alert.id_))
      (ended : Ended (ListAlerts.request platform query) (contents tables))
  | auditEvents (query : ListAuditEventsQuery) (positive : 0 < query.limit)
      (tables : List (Table fun event : AuditEvent => (event.id, event.occurredAt)))
      (ended : Ended (ListAuditEvents.request platform query) (contents tables))

def ListRun.Exact {platform : Platform} : ListRun platform → Prop
  | .transactions query _ tables _ =>
      ReadsExactly (ListTransactions.request platform query) (ListTransactions.matching query)
        Transaction.position (contents tables)
  | .insights query _ tables _ =>
      ReadsExactly (ListInsights.request platform query) (ListInsights.paging query).selects
        Insight.moment (contents tables)
  | .alerts query _ tables _ =>
      ReadsExactly (ListAlerts.request platform query) (ListAlerts.paging query).selects
        Alert.moment (contents tables)
  | .auditEvents query _ tables _ =>
      ReadsExactly (ListAuditEvents.request platform query) (ListAuditEvents.paging query).selects
        AuditEvent.moment (contents tables)

/-- When the transactions are listed exactly: the category is an identifier; and for a row that
matches and is there at every request, no type and no category is asked for, and no request comes
with the cursor of a row of the same date and creation and a larger identifier. -/
def ListTransactions.Covered (platform : Platform) (query : ListTransactionsQuery)
    (tables : List (List Transaction)) : Prop :=
  (∀ category ∈ query.categoryIdFilter, (UUID.ofText category).isSome = true) ∧
  ∀ tx, matching query tx = true →
    (∀ made ∈ requests (request platform query) none tables, tx ∈ made.2) →
      query.typeFilter = none ∧ query.categoryIdFilter = none ∧
        ∀ made ∈ requests (request platform query) none tables, ∀ cursor ∈ made.1, ∀ last,
          decodeCursor platform cursor = .ok last →
            ¬ (tx.date = last.date ∧ tx.createdAt = last.createdAt ∧ tx.id_ < last.id)

def ListRun.Covered {platform : Platform} : ListRun platform → Prop
  | .transactions query _ tables _ => ListTransactions.Covered platform query (contents tables)
  | _ => True

/-- Rows with different keys have different positions, which hold the keys. -/
theorem contents_unique {Key Row Place : Type} {key : Row → Key} (tables : List (Table key))
    {place : Row → Place} (part : Place → Key) (same : ∀ row, part (place row) = key row) :
    ∀ rows ∈ contents tables, (rows.map place).Nodup := by
  intro rows member
  obtain ⟨table, _, rfl⟩ := List.mem_map.mp member
  apply List.Nodup.of_map part
  rw [List.map_map, show part ∘ place = key from funext same]
  exact table.unique

section Timelines

variable {Row : Type} [DecidableEq Row]

theorem moments_exact {request : Request Row} {moment : Row → Moment} {selects : Row → Bool}
    {lookahead : Bool} {limit : Nat} {write : Moment → Text}
    (reads : ∀ cursor rows, request (cursor.map write) rows =
      .ok (((momentPaging moment selects lookahead limit).page cursor rows).1,
        ((momentPaging moment selects lookahead limit).page cursor rows).2.map write))
    (positive : 0 < limit) {tables : List (List Row)}
    (unique : ∀ rows ∈ tables, (rows.map moment).Nodup) (ended : Ended request tables) :
    ReadsExactly request selects moment tables := by
  have descends := moment_paging_descends moment selects lookahead limit
  refine (reads_exactly_iff reads descends positive (fun _ => id) unique ended).mpr ?_
  exact fun row matched _ => ⟨matched, fun _ _ _ _ smaller => decide_eq_true smaller⟩

end Timelines

/-- What is selected matches: filters that are bound as nulls are not asked for. -/
theorem selects_matching {query : ListTransactionsQuery} {tx : Transaction}
    (selected : (ListTransactions.paging query).selects tx = true) :
    ListTransactions.matching query tx = true ∧ query.typeFilter = none ∧
      query.categoryIdFilter = none := by
  simp only [ListTransactions.paging, Bool.and_eq_true, Option.isNone_iff_eq_none] at selected
  obtain ⟨⟨⟨user, type⟩, currency⟩, category⟩ := selected
  refine ⟨?_, type, category⟩
  simp only [ListTransactions.matching, user, type, currency, category]
  rfl

theorem matching_selects {query : ListTransactionsQuery} {tx : Transaction}
    (matched : ListTransactions.matching query tx = true) (type : query.typeFilter = none)
    (category : query.categoryIdFilter = none) :
    (ListTransactions.paging query).selects tx = true := by
  simp only [ListTransactions.matching, type, category, Bool.and_eq_true] at matched
  obtain ⟨⟨⟨user, _⟩, currency⟩, _⟩ := matched
  simp only [ListTransactions.paging, type, category, user, currency]
  rfl

theorem transaction_paging_descends (query : ListTransactionsQuery) :
    (ListTransactions.paging query).Descends where
  smaller last tx behind := by
    have earlier := of_decide_eq_true behind
    exact Position.lt_iff.mpr (earlier.imp_right fun tie => ⟨tie.1, .inl tie.2⟩)
  trans last first second one two := by
    have earlier : first.date < last.date ∨ first.date = last.date ∧
        first.createdAt < last.createdAt := of_decide_eq_true one
    have again : second.date < first.date ∨ second.date = first.date ∧
        second.createdAt < first.createdAt := of_decide_eq_true two
    apply decide_eq_true
    rcases earlier with day | ⟨sameDay, time⟩
    · rcases again with before | ⟨same, _⟩
      · exact .inl (lt_trans before day)
      · exact .inl (same ▸ day)
    · rcases again with before | ⟨same, less⟩
      · exact .inl (sameDay ▸ before)
      · exact .inr ⟨same.trans sameDay, lt_trans less time⟩

/-- A smaller row is behind a cursor unless it has the same date and creation. -/
theorem behind_iff_no_tie {query : ListTransactionsQuery} {tx : Transaction} {last : Position} :
    (tx.position < last → (ListTransactions.paging query).behind last tx = true) ↔
      ¬ (tx.date = last.date ∧ tx.createdAt = last.createdAt ∧ tx.id_ < last.id) := by
  have sameDay : tx.date = last.date → ¬ tx.date < last.date := fun same => same ▸ lt_irrefl _
  have sameTime : tx.createdAt = last.createdAt → ¬ tx.createdAt < last.createdAt :=
    fun same => same ▸ lt_irrefl _
  have smaller : tx.position < last ↔ tx.date < last.date ∨ tx.date = last.date ∧
      (tx.createdAt < last.createdAt ∨ tx.createdAt = last.createdAt ∧ tx.id_ < last.id) :=
    Position.lt_iff
  have behind : (ListTransactions.paging query).behind last tx = true ↔ tx.date < last.date ∨
      tx.date = last.date ∧ tx.createdAt < last.createdAt := decide_eq_true_iff
  rw [smaller, behind]
  tauto

namespace ListTransactions

theorem request_fails (platform : Platform) {query : ListTransactionsQuery} {category : Text}
    (asked : query.categoryIdFilter = some category) (invalid : UUID.ofText category = none)
    (rows : List Transaction) : request platform query none rows = .error .ValueError := by
  have read : readCategory (some category) = .error .ValueError := by
    rw [readCategory, toUUID, invalid]
    rfl
  simp only [request, call, listByUser, asked, read]
  rfl

theorem request_page (platform : Platform) {query : ListTransactionsQuery}
    (valid : ∀ category ∈ query.categoryIdFilter, (UUID.ofText category).isSome = true)
    (positive : 0 < query.limit) (cursor : Option Position) (rows : List Transaction) :
    request platform query (cursor.map positionCursor) rows =
      .ok (((paging query).page cursor rows).1,
        ((paging query).page cursor rows).2.map positionCursor) := by
  rw [request, call_page platform valid positive]
  rfl

/-- The list of transactions is exact when no filter and no tie hides a row. -/
theorem exact_iff_covered (platform : Platform) {query : ListTransactionsQuery}
    (positive : 0 < query.limit) (tables : List (Table Transaction.id_))
    (ended : Ended (request platform query) (contents tables)) :
    ReadsExactly (request platform query) (matching query) Transaction.position (contents tables) ↔
      Covered platform query (contents tables) := by
  by_cases valid : ∀ category ∈ query.categoryIdFilter, (UUID.ofText category).isSome = true
  · have reads := request_page platform valid positive
    have unique : ∀ rows ∈ contents tables, (rows.map Transaction.position).Nodup :=
      contents_unique tables Position.id fun _ => rfl
    have exact := reads_exactly_iff reads (transaction_paging_descends query) positive
      (fun tx selected => (selects_matching selected).1) unique ended
    refine exact.trans ?_
    rw [Covered, and_iff_right valid]
    refine forall_congr' fun tx => forall_congr' fun matched => forall_congr' fun _ => ?_
    have made := requests_eq_asked reads none (contents tables)
    rw [Option.map_none] at made
    have selected : (paging query).selects tx = true ↔
        query.typeFilter = none ∧ query.categoryIdFilter = none :=
      ⟨fun selected => (selects_matching selected).2,
        fun plain => matching_selects matched plain.1 plain.2⟩
    rw [selected, and_assoc, made]
    refine and_congr_right fun _ => and_congr_right fun _ => ?_
    rw [List.forall_mem_map]
    refine forall_congr' fun asked => forall_congr' fun _ => ?_
    constructor
    · intro passed cursor given last decoded
      obtain ⟨position, start, rfl⟩ := Option.mem_map.mp given
      rw [decode_position] at decoded
      cases decoded
      exact behind_iff_no_tie.mp (passed _ start)
    · intro apart last start
      exact behind_iff_no_tie.mpr
        (apart (positionCursor last) (Option.mem_map_of_mem _ start) last (decode_position _ _))
  · have uncovered : ¬ Covered platform query (contents tables) := fun covered => valid covered.1
    refine iff_of_false ?_ uncovered
    rintro ⟨_, traversal, run, finished, _⟩
    push Not at valid
    obtain ⟨category, asked, invalid⟩ := valid
    have failed := request_fails platform asked (by simpa using invalid)
    cases rows : contents tables with
    | nil =>
        rw [rows] at run
        cases run
        cases finished
    | cons first later =>
        rw [rows, follow, failed] at run
        cases run

end ListTransactions

end Yomochi.Listing
