import Mathlib.Data.Prod.Lex
import Yomochi.Foundation.Selection
import Yomochi.Listing.Cursor
import Yomochi.Recurring.Rules

/-! The list of a user's transactions: by date, then by creation, then by identifier. -/

namespace Yomochi.Listing

open Foundation
open Recurring (TransactionType)

structure Transaction where
  id_ : UUID
  userId : UUID
  date : Date
  createdAt : DateTime
  type_ : TransactionType
  currencyCode : Text
  categoryId : Option UUID
  deriving DecidableEq

structure ListTransactionsQuery where
  userId : UUID
  limit : Nat
  cursor : Option Text
  typeFilter : Option Text
  currencyFilter : Option Text
  categoryIdFilter : Option Text

structure ListTransactionsResult where
  transactions : List Transaction
  nextCursor : Option Text

/-- `(date, created_at, id)`. -/
structure Position where
  date : Date
  createdAt : DateTime
  id : UUID
  deriving DecidableEq

namespace Position

def ordered (position : Position) : Date ×ₗ DateTime ×ₗ UUID :=
  toLex (position.date, toLex (position.createdAt, position.id))

theorem ordered_injective : Function.Injective ordered := by
  rintro ⟨date, createdAt, id⟩ ⟨date', createdAt', id'⟩ same
  cases same
  rfl

instance : LinearOrder Position := LinearOrder.lift' ordered ordered_injective

theorem lt_iff {left right : Position} : left < right ↔
    left.date < right.date ∨ left.date = right.date ∧ (left.createdAt < right.createdAt ∨
      left.createdAt = right.createdAt ∧ left.id < right.id) := by
  change left.ordered < right.ordered ↔ _
  rw [ordered, ordered, Prod.Lex.toLex_lt_toLex]
  simp only [Prod.Lex.toLex_lt_toLex]

end Position

def Transaction.position (tx : Transaction) : Position := ⟨tx.date, tx.createdAt, tx.id_⟩

def typeValue : TransactionType → Text
  | .INCOME => text "income"
  | .EXPENSE => text "expense"

/-! The values that are bound. -/

inductive Bound
  | uuid (value : UUID)
  | str (value : Text)
  | transactionId (value : UUID)
  | categoryId (value : UUID)
  | transactionType (value : TransactionType)

def bindTransactionId : Bound → Option UUID
  | .transactionId value => some value
  | _ => none

def bindCategoryId : Bound → Option UUID
  | .categoryId value => some value
  | _ => none

def bindTransactionType : Bound → Option Text
  | .transactionType value => some (typeValue value)
  | _ => none

/-- `(date, created_at, id) < (..)`: the first column that differs decides. -/
def tupleLess (tx : Transaction) (date : Date) (createdAt : DateTime) (id : Option UUID) :
    Option Bool :=
  if tx.date = date then
    if tx.createdAt = createdAt then id.map fun id => decide (tx.id_ < id)
    else some (decide (tx.createdAt < createdAt))
  else some (decide (tx.date < date))

namespace ListTransactions

def positionCursor (position : Position) : Text :=
  Listing.encodeCursor [(text "date", position.date.isoformat),
    (text "created_at", position.createdAt.isoformat), (text "id", position.id.str)]

def encodeCursor (tx : Transaction) : Text := positionCursor tx.position

def readCursor (platform : Platform) (cursor : Text) : Except ListError Position := do
  let raw ← Listing.decodeCursor platform cursor
  let date ← toDate (← item raw (text "date"))
  let createdAt ← toDateTime (← item raw (text "created_at"))
  let id ← toUUID (← item raw (text "id"))
  .ok ⟨date, createdAt, id⟩

/-- Whatever is raised, the cursor is invalid. -/
def decodeCursor (platform : Platform) (cursor : Text) : Except ListError Position :=
  (readCursor platform cursor).mapError fun _ => .InvalidCursorError

def readCategory : Option Text → Except ListError (Option UUID)
  | none => .ok none
  | some source => (toUUID (.string source)).map some

/-- `SqlaTransactionRepository.list_by_user`. The identifier of the cursor, the type and the
category are bound as they come, a UUID, a text and a UUID. -/
def listByUser (rows : List Transaction) (userId : UUID) (limit : Nat) (cursor : Option Position)
    (typeFilter currencyFilter categoryIdFilter : Option Text) :
    Except ListError (List Transaction) := do
  let category ← readCategory categoryIdFilter
  let selected := rows.filter fun tx =>
    decide (tx.userId = userId) &&
    (cursor.all fun last => keeps
      (tupleLess tx last.date last.createdAt (bindTransactionId (.uuid last.id)))) &&
    (typeFilter.all fun type => keeps
      (sqlEq (some (typeValue tx.type_)) (bindTransactionType (.str type)))) &&
    (currencyFilter.all fun currency => decide (tx.currencyCode = currency)) &&
    (category.all fun id => keeps (sqlEq tx.categoryId (bindCategoryId (.uuid id))))
  .ok ((descending Transaction.position selected).take limit)

def call (platform : Platform) (rows : List Transaction) (query : ListTransactionsQuery) :
    Except ListError ListTransactionsResult := do
  let cursor ← givenCursor (decodeCursor platform) query.cursor
  let transactions ← listByUser rows query.userId query.limit cursor query.typeFilter
    query.currencyFilter query.categoryIdFilter
  let next ← nextCursor encodeCursor (decide (transactions.length = query.limit)) transactions
  .ok ⟨transactions, next⟩

/-! The pages. -/

/-- What the list pages through. The bound identifier is null: the rows behind a cursor are those
of an earlier date or creation. -/
def paging (query : ListTransactionsQuery) : Paging Transaction Position where
  key := Transaction.position
  selects tx := decide (tx.userId = query.userId) && query.typeFilter.isNone &&
    (query.currencyFilter.all fun currency => decide (tx.currencyCode = currency)) &&
    query.categoryIdFilter.isNone
  behind last tx := decide (tx.date < last.date ∨
    tx.date = last.date ∧ tx.createdAt < last.createdAt)
  lookahead := false
  limit := query.limit

theorem decode_payload (platform : Platform) (position : Position) :
    Listing.decodeCursor platform (positionCursor position) =
      .ok (.object [(text "date", .string position.date.isoformat),
        (text "created_at", .string position.createdAt.isoformat),
        (text "id", .string position.id.str)]) := by
  have ascii : ∀ member ∈ [(text "date", position.date.isoformat),
      (text "created_at", position.createdAt.isoformat), (text "id", position.id.str)],
      Ascii member.1 ∧ Ascii member.2 := by
    simp only [List.forall_mem_cons]
    exact ⟨⟨by decide, position.date.isoformat_ascii⟩,
      ⟨by decide, position.createdAt.isoformat_ascii⟩,
      ⟨by decide, position.id.str_ascii⟩, nofun⟩
  rw [positionCursor, decode_encode_cursor platform ascii]
  rfl

theorem decode_position (platform : Platform) (position : Position) :
    decodeCursor platform (positionCursor position) = .ok position := by
  have first (one two three : Json) : item (.object [(text "date", one),
      (text "created_at", two), (text "id", three)]) (text "date") = .ok one := rfl
  have second (one two three : Json) : item (.object [(text "date", one),
      (text "created_at", two), (text "id", three)]) (text "created_at") = .ok two := rfl
  have third (one two three : Json) : item (.object [(text "date", one),
      (text "created_at", two), (text "id", three)]) (text "id") = .ok three := rfl
  have read : readCursor platform (positionCursor position) = .ok position := by
    rw [readCursor, decode_payload]
    simp only [bind, Except.bind, first, second, third, to_date_isoformat,
      to_date_time_isoformat, to_uuid_str]
  rw [decodeCursor, read]
  rfl

theorem keeps_tuple_null (tx : Transaction) (date : Date) (createdAt : DateTime) :
    keeps (tupleLess tx date createdAt none) =
      decide (tx.date < date ∨ tx.date = date ∧ tx.createdAt < createdAt) := by
  unfold tupleLess
  by_cases sameDate : tx.date = date
  · by_cases sameTime : tx.createdAt = createdAt
    · simp [sameDate, sameTime, keeps]
    · simp [sameDate, sameTime, keeps]
  · simp [sameDate, keeps]

theorem keeps_null {α : Type} [DecidableEq α] (left : Option α) :
    keeps (sqlEq left none) = false := by
  cases left <;> rfl

theorem list_by_user_page {query : ListTransactionsQuery}
    (valid : ∀ source ∈ query.categoryIdFilter, (UUID.ofText source).isSome)
    (cursor : Option Position) (rows : List Transaction) :
    listByUser rows query.userId query.limit cursor query.typeFilter query.currencyFilter
      query.categoryIdFilter = .ok ((paging query).page cursor rows).1 := by
  have type (tx : Transaction) : (query.typeFilter.all fun type => keeps
      (sqlEq (some (typeValue tx.type_)) (bindTransactionType (.str type)))) =
        query.typeFilter.isNone := by
    cases query.typeFilter with
    | none => rfl
    | some type => rfl
  have behind (tx : Transaction) : (cursor.all fun last => keeps
      (tupleLess tx last.date last.createdAt (bindTransactionId (.uuid last.id)))) =
        cursor.all fun last => (paging query).behind last tx := by
    cases cursor with
    | none => rfl
    | some last => exact keeps_tuple_null tx last.date last.createdAt
  have category (tx : Transaction) (asked : Option UUID)
      (same : asked.isNone = query.categoryIdFilter.isNone) :
      (asked.all fun id => keeps (sqlEq tx.categoryId (bindCategoryId (.uuid id)))) =
        query.categoryIdFilter.isNone := by
    rw [← same]
    cases asked with
    | none => rfl
    | some id => exact keeps_null _
  have read : ∃ asked : Option UUID, asked.isNone = query.categoryIdFilter.isNone ∧
      readCategory query.categoryIdFilter = .ok asked := by
    cases given : query.categoryIdFilter with
    | none => exact ⟨none, rfl, rfl⟩
    | some source =>
        obtain ⟨id, parsed⟩ := Option.isSome_iff_exists.mp (valid source given)
        exact ⟨some id, rfl, by simp [readCategory, toUUID, parsed, Except.map]⟩
  obtain ⟨asked, same, read⟩ := read
  simp only [listByUser, read, bind, Except.bind, type, behind, category _ _ same]
  rw [Paging.page_rows, Paging.found]
  congr 4
  funext tx
  simp only [paging]
  ac_rfl

theorem call_page (platform : Platform) {query : ListTransactionsQuery}
    (valid : ∀ source ∈ query.categoryIdFilter, (UUID.ofText source).isSome)
    (positive : 0 < query.limit) (cursor : Option Position) (rows : List Transaction) :
    call platform rows { query with cursor := cursor.map positionCursor } =
      .ok ⟨((paging query).page cursor rows).1,
        ((paging query).page cursor rows).2.map positionCursor⟩ := by
  have given : givenCursor (decodeCursor platform) (cursor.map positionCursor) = .ok cursor :=
    given_written (fun _ => encode_cursor_ne _) (decode_position platform) cursor
  have fetched := list_by_user_page valid cursor rows
  have next : nextCursor encodeCursor
      (decide (((paging query).page cursor rows).1.length = query.limit))
      ((paging query).page cursor rows).1 =
        .ok (((paging query).page cursor rows).2.map positionCursor) :=
    @next_cursor_full _ _ _ (paging query) rfl positive positionCursor cursor rows
  simp only [call]
  rw [given]
  simp only [bind, Except.bind, fetched, next]

end ListTransactions

end Yomochi.Listing
