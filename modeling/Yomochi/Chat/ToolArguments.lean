import Yomochi.Chat.ToolRounds
import Yomochi.Foundation.IsoFormat
import Yomochi.Foundation.JsonWriter
import Yomochi.Foundation.Selection
import Yomochi.Insights.Aggregation

/-! The tools of the chat: how the arguments of the model's calls are read, and what raises on
the way. -/

namespace Yomochi.Chat

open Foundation
open Insights (TransactionRow MonthlyAggregation TopCategory aggregate)

inductive ToolError
  | KeyError
  | ValueError
  | TypeError
  | OverflowError
  | RecursionError
  | StorageError
  deriving DecidableEq, Repr

/-! Results, and `json.dumps` of them. -/

/-- The values that the results of the tools are made of; a dataclass is its fields. -/
inductive Value
  | none
  | int (value : Int)
  | float (value : ℚ)
  | string (value : Text)
  | decimal (value : ℚ)
  | date (value : Date)
  | list (items : List Value)
  | dict (entries : List (Text × Value))
  | dataclass (fields : List (Text × Value))

/-- What depends on the interpreter: how deep values may be nested, and the texts of numbers, of
nested values and of exceptions. -/
structure Interpreter where
  maxDepth : Nat
  maxReprDepth : Nat
  repr : Json → Text
  floatRepr : ℚ → Text
  decimalStr : ℚ → Text
  errorText : ToolError → Json → Text

section Serialisation

variable (py : Interpreter)

mutual

def toJsonable : Value → Value
  | .decimal value => .string (py.decimalStr value)
  | .date value => .string value.isoformat
  | .dataclass fields => .dict (fieldsToJsonable fields)
  | .list items => .list (itemsToJsonable items)
  | value => value

def itemsToJsonable : List Value → List Value
  | [] => []
  | item :: items => toJsonable item :: itemsToJsonable items

def fieldsToJsonable : List (Text × Value) → List (Text × Value)
  | [] => []
  | (name, value) :: fields => (name, toJsonable value) :: fieldsToJsonable fields

end

def joined : List Text → Text
  | [] => []
  | [part] => part
  | part :: parts => part ++ text ", " ++ joined parts

mutual

def dumps : Value → Except ToolError Text
  | .none => .ok (text "null")
  | .int value => .ok (if value < 0 then '-'.toNat :: decimal value.natAbs else decimal value.natAbs)
  | .float value => .ok (py.floatRepr value)
  | .string value => .ok (dumpsString value)
  | .decimal _ => .error .TypeError
  | .date _ => .error .TypeError
  | .dataclass _ => .error .TypeError
  | .list items => do
      let parts ← dumpsItems items
      return '['.toNat :: (joined parts ++ [']'.toNat])
  | .dict entries => do
      let parts ← dumpsEntries entries
      return '{'.toNat :: (joined parts ++ ['}'.toNat])

def dumpsItems : List Value → Except ToolError (List Text)
  | [] => .ok []
  | item :: items => do
      let part ← dumps item
      let parts ← dumpsItems items
      return part :: parts

def dumpsEntries : List (Text × Value) → Except ToolError (List Text)
  | [] => .ok []
  | (name, value) :: entries => do
      let part ← dumps value
      let parts ← dumpsEntries entries
      return (dumpsString name ++ text ": " ++ part) :: parts

end

end Serialisation

/-! The arguments. -/

/-- `args[key]`. -/
def subscript (args : Json) (key : String) : Except ToolError Json :=
  match args with
  | .object members =>
      match memberOf members (text key) with
      | some value => .ok value
      | none => .error .KeyError
  | _ => .error .TypeError

def intOf : Json → Except ToolError Int
  | .bool value => .ok (if value then 1 else 0)
  | .int value => .ok value
  | .float (.finite value) => .ok (if value < 0 then ⌈value⌉ else ⌊value⌋)
  | .float (.infinity _) => .error .OverflowError
  | .float .nan => .error .ValueError
  | .string value =>
      match intOfText value with
      | some number => .ok number
      | none => .error .ValueError
  | _ => .error .TypeError

mutual

def depth : Json → Nat
  | .array items => depthOfItems items + 1
  | .object members => depthOfMembers members + 1
  | _ => 0

def depthOfItems : List Json → Nat
  | [] => 0
  | item :: items => max (depth item) (depthOfItems items)

def depthOfMembers : List (Text × Json) → Nat
  | [] => 0
  | (_, value) :: members => max (depth value) (depthOfMembers members)

end

def strOf (py : Interpreter) : Json → Except ToolError Text
  | .string value => .ok value
  | value => if py.maxReprDepth < depth value then .error .RecursionError else .ok (py.repr value)

def parseDate (py : Interpreter) (value : Json) : Except ToolError Date := do
  let source ← strOf py value
  match Date.fromIsoformat source with
  | some date => .ok date
  | none => .error .ValueError

def CInt (value : Int) : Prop := -2147483648 ≤ value ∧ value < 2147483648

instance (value : Int) : Decidable (CInt value) := inferInstanceAs (Decidable (_ ∧ _))

def newDate (year month day : Int) : Except ToolError Date :=
  if CInt year ∧ CInt month ∧ CInt day then
    match Date.ofNumbers year month day with
    | some date => .ok date
    | none => .error .ValueError
  else .error .OverflowError

def lastDay (year month : Int) : Except ToolError Date :=
  newDate year month (daysInMonth year.toNat month.toNat)

/-! The reader. -/

structure CategoryTrendPoint where
  year : Int
  month : Int
  currency : Text
  amount : ℚ

structure TransactionMatch where
  transactionId : Text
  date : Date
  amount : ℚ
  currency : Text
  type : Text
  merchant : Option Text
  notes : Option Text
  category : Option Text

structure CategoryInfo where
  name : Text
  categoryType : Text
  transactionCount : Nat

structure Database where
  budgetRows : Date → Date → List TransactionRow
  categoryTrend : Text → Date → Date → List CategoryTrendPoint
  search : Text → Nat → List TransactionMatch
  categories : List CategoryInfo

def Bindable (source : Text) : Prop := ∀ c ∈ source, c ≠ 0 ∧ Scalar c

instance (source : Text) : Decidable (Bindable source) :=
  inferInstanceAs (Decidable (∀ c ∈ source, c ≠ 0 ∧ Scalar c))

def optionalText (value : Option Text) : Value := value.elim .none .string

def categoryAmountValue (currency : Text) (top : TopCategory) : Value :=
  .dataclass [(text "category", .string top.category), (text "amount", .decimal top.amount),
    (text "currency", .string currency), (text "pct_of_expenses", .float top.pctOfExpenses)]

def currencySummaryValue (agg : MonthlyAggregation) : Value :=
  .dataclass [(text "currency", .string agg.currency),
    (text "total_income", .decimal agg.totalIncome),
    (text "total_expenses", .decimal agg.totalExpenses),
    (text "net_savings", .decimal agg.netSavings),
    (text "savings_rate", .float agg.savingsRate),
    (text "top_categories", .list (agg.topCategories.map (categoryAmountValue agg.currency))),
    (text "transaction_count", .int agg.transactionCount)]

def currencySummaries (year month : Int) (rows : List TransactionRow) : Value :=
  .list ((aggregate year month rows).map currencySummaryValue)

def trendPointValue (point : CategoryTrendPoint) : Value :=
  .dataclass [(text "year", .int point.year), (text "month", .int point.month),
    (text "currency", .string point.currency), (text "amount", .decimal point.amount)]

def matchValue (found : TransactionMatch) : Value :=
  .dataclass [(text "transaction_id", .string found.transactionId),
    (text "date", .date found.date), (text "amount", .decimal found.amount),
    (text "currency", .string found.currency), (text "type_", .string found.type),
    (text "merchant", optionalText found.merchant), (text "notes", optionalText found.notes),
    (text "category", optionalText found.category)]

def categoryInfoValue (info : CategoryInfo) : Value :=
  .dataclass [(text "name", .string info.name), (text "category_type", .string info.categoryType),
    (text "transaction_count", .int info.transactionCount)]

def getMonthSummary (db : Database) (year month : Int) : Except ToolError Value := do
  let first ← newDate year month 1
  let last ← lastDay year month
  return .dataclass [(text "year", .int year), (text "month", .int month),
    (text "by_currency", currencySummaries year month (db.budgetRows first last))]

def stepBack (current : Int × Int) : Int × Int :=
  if current.2 - 1 = 0 then (current.1 - 1, 12) else (current.1, current.2 - 1)

def monthsBefore : Nat → Int × Int → List (Int × Int)
  | 0, _ => []
  | n + 1, current => stepBack current :: monthsBefore n (stepBack current)

/-- The first and the last day of some months, the latest of which comes first. -/
def monthsRange (latest earliest : Int × Int) : Except ToolError (Date × Date) := do
  let first ← newDate earliest.1 earliest.2 1
  let last ← lastDay latest.1 latest.2
  return (first, last)

def getCategoryTrend (db : Database) (today : Date) (category : Text) (nMonths : Int) :
    Except ToolError Value :=
  let months := monthsBefore nMonths.toNat (today.year, today.month)
  let result (series : List CategoryTrendPoint) : Value :=
    .dataclass [(text "category", .string category),
      (text "series", .list (series.map trendPointValue))]
  match months.head?, months.getLast? with
  | some latest, some earliest => do
      let range ← monthsRange latest earliest
      if Bindable category then return result (db.categoryTrend category range.1 range.2)
      else throw .StorageError
  | _, _ => .ok (result [])

def getSpendWindow (db : Database) (start stop : Date) : Value :=
  .dataclass [(text "start_date", .date start), (text "end_date", .date stop),
    (text "by_currency", currencySummaries 0 0 (db.budgetRows start stop))]

def profileMonths : Nat := 4

def getUserProfile (db : Database) (today : Date) : Except ToolError Value :=
  let months := monthsBefore profileMonths (today.year, today.month)
  match months.head?, months.getLast? with
  | some latest, some earliest => do
      let range ← monthsRange latest earliest
      return .dataclass [(text "months_covered", .int months.length),
        (text "by_currency", currencySummaries 0 0 (db.budgetRows range.1 range.2))]
  | _, _ => .ok (.dataclass [(text "months_covered", .int 0), (text "by_currency", .list [])])

def searchTransactions (db : Database) (query : Text) (limit : Int) : Except ToolError Value :=
  if Bindable query ∧ LimitInRange limit then
    .ok (.dataclass [(text "query", .string query),
      (text "matches", .list ((db.search query limit.toNat).map matchValue))])
  else .error .StorageError

def listCategories (db : Database) : Value :=
  .dataclass [(text "categories", .list (db.categories.map categoryInfoValue))]

/-! The executor. -/

inductive ToolName
  | GET_MONTH_SUMMARY
  | GET_CATEGORY_TREND
  | GET_SPEND_WINDOW
  | GET_USER_PROFILE
  | SEARCH_TRANSACTIONS
  | LIST_CATEGORIES
  deriving DecidableEq, Repr

def ToolName.value : ToolName → String
  | .GET_MONTH_SUMMARY => "get_month_summary"
  | .GET_CATEGORY_TREND => "get_category_trend"
  | .GET_SPEND_WINDOW => "get_spend_window"
  | .GET_USER_PROFILE => "get_user_profile"
  | .SEARCH_TRANSACTIONS => "search_transactions"
  | .LIST_CATEGORIES => "list_categories"

def ToolName.all : List ToolName :=
  [.GET_MONTH_SUMMARY, .GET_CATEGORY_TREND, .GET_SPEND_WINDOW, .GET_USER_PROFILE,
    .SEARCH_TRANSACTIONS, .LIST_CATEGORIES]

def toolNamed (name : Text) : Option ToolName :=
  ToolName.all.find? fun tool => text tool.value = name

structure ToolBox where
  db : Database
  today : Date

def runTool (py : Interpreter) (box : ToolBox) (args : Json) : ToolName → Except ToolError Value
  | .GET_MONTH_SUMMARY => do
      let year ← intOf (← subscript args "year")
      let month ← intOf (← subscript args "month")
      getMonthSummary box.db year month
  | .GET_CATEGORY_TREND => do
      let category ← strOf py (← subscript args "category")
      let nMonths ← intOf (← subscript args "n_months")
      getCategoryTrend box.db box.today category nMonths
  | .GET_SPEND_WINDOW => do
      let start ← parseDate py (← subscript args "start_date")
      let stop ← parseDate py (← subscript args "end_date")
      return getSpendWindow box.db start stop
  | .GET_USER_PROFILE => getUserProfile box.db box.today
  | .SEARCH_TRANSACTIONS => do
      let query ← strOf py (← subscript args "text")
      let limit ← intOf (← subscript args "limit")
      searchTransactions box.db query limit
  | .LIST_CATEGORIES => .ok (listCategories box.db)

/-- `except (KeyError, ValueError, TypeError)`. -/
def ToolError.isCaught : ToolError → Bool
  | .KeyError | .ValueError | .TypeError => true
  | _ => false

def errorPayload (message : Text) : Value := .dict [(text "error", .string message)]

def executeTool (py : Interpreter) (box : ToolBox) (name : Text) (args : Json) :
    Except ToolError Value :=
  match toolNamed name with
  | none => .ok (errorPayload (text "unknown tool: " ++ name))
  | some tool =>
      match runTool py box args tool with
      | .ok result => .ok (toJsonable py result)
      | .error error =>
          if error.isCaught then
            .ok (errorPayload (text "invalid arguments for " ++ name ++ text ": " ++
              py.errorText error args))
          else .error error

def loadsArguments (py : Interpreter) (call : ToolCall) : Except LoadsError Json :=
  loads (.python py.maxDepth)
    (if call.arguments = [] then ['{'.toNat, '}'.toNat] else call.arguments)

/-- One call of a round, to the content of its message: bad JSON stands for no arguments. -/
def answerCall (py : Interpreter) (box : ToolBox) (call : ToolCall) : Except ToolError Text :=
  match loadsArguments py call with
  | .ok args => executeTool py box call.name args >>= dumps py
  | .error .JSONDecodeError => executeTool py box call.name (.object []) >>= dumps py
  | .error .ValueError => .error .ValueError
  | .error .RecursionError => .error .RecursionError

/-! When a call raises. -/

def Given (args : Json) (key : String) (value : Json) : Prop := subscript args key = .ok value

def Infinite : Json → Prop
  | .float (.infinity _) => True
  | _ => False

def TooDeep (py : Interpreter) (value : Json) : Prop := py.maxReprDepth < depth value

def MonthSummaryEscapes (args : Json) : Prop :=
  ∃ year, Given args "year" year ∧ (Infinite year ∨ ∃ y, intOf year = .ok y ∧
    ∃ month, Given args "month" month ∧ (Infinite month ∨ ∃ m, intOf month = .ok m ∧
      ¬(CInt y ∧ CInt m)))

/-- The months since the year 0, `n` months before the current one. -/
def monthNumber (today : Date) (n : Int) : Int := 12 * today.year + (today.month - 1) - n

def CategoryTrendEscapes (py : Interpreter) (today : Date) (args : Json) : Prop :=
  ∃ category, Given args "category" category ∧ (TooDeep py category ∨
    ∃ name, strOf py category = .ok name ∧ ∃ nMonths, Given args "n_months" nMonths ∧
      (Infinite nMonths ∨ ∃ n, intOf nMonths = .ok n ∧
        (monthNumber today n < 12 * -2147483648 ∨
          0 < n ∧ 12 ≤ monthNumber today n ∧ ¬Bindable name)))

def SpendWindowEscapes (py : Interpreter) (args : Json) : Prop :=
  ∃ start, Given args "start_date" start ∧ (TooDeep py start ∨
    ∃ first, parseDate py start = .ok first ∧ ∃ stop, Given args "end_date" stop ∧
      TooDeep py stop)

def SearchEscapes (py : Interpreter) (args : Json) : Prop :=
  ∃ source, Given args "text" source ∧ (TooDeep py source ∨
    ∃ query, strOf py source = .ok query ∧ ∃ limit, Given args "limit" limit ∧
      (Infinite limit ∨ ∃ n, intOf limit = .ok n ∧ ¬(Bindable query ∧ LimitInRange n)))

def ToolEscapes (py : Interpreter) (today : Date) (args : Json) : ToolName → Prop
  | .GET_MONTH_SUMMARY => MonthSummaryEscapes args
  | .GET_CATEGORY_TREND => CategoryTrendEscapes py today args
  | .GET_SPEND_WINDOW => SpendWindowEscapes py args
  | .SEARCH_TRANSACTIONS => SearchEscapes py args
  | .GET_USER_PROFILE | .LIST_CATEGORIES => False

/-- The arguments are read, or are no JSON at all, and the tool takes them. -/
def Harmless (py : Interpreter) (box : ToolBox) (call : ToolCall) : Prop :=
  match loadsArguments py call with
  | .ok args => ∀ tool, toolNamed call.name = some tool → ¬ToolEscapes py box.today args tool
  | .error error => error = .JSONDecodeError

/-! Results are plain: no `dict` in them, which `to_jsonable` would leave as it is. -/

mutual

def Plain : Value → Prop
  | .dict _ => False
  | .dataclass fields => PlainFields fields
  | .list items => PlainItems items
  | _ => True

def PlainItems : List Value → Prop
  | [] => True
  | item :: items => Plain item ∧ PlainItems items

def PlainFields : List (Text × Value) → Prop
  | [] => True
  | (_, value) :: fields => Plain value ∧ PlainFields fields

end

mutual

theorem dumps_plain (py : Interpreter) :
    ∀ value, Plain value → ∃ content, dumps py (toJsonable py value) = .ok content
  | .none, _ => ⟨_, by rw [toJsonable, dumps] <;> simp⟩
  | .int _, _ => ⟨_, by rw [toJsonable, dumps] <;> simp⟩
  | .float _, _ => ⟨_, by rw [toJsonable, dumps] <;> simp⟩
  | .string _, _ => ⟨_, by rw [toJsonable, dumps] <;> simp⟩
  | .decimal _, _ => ⟨_, by rw [toJsonable, dumps]⟩
  | .date _, _ => ⟨_, by rw [toJsonable, dumps]⟩
  | .dict _, plain => plain.elim
  | .list items, plain => by
      obtain ⟨parts, dumped⟩ := dumps_plain_items py items plain
      exact ⟨_, by rw [toJsonable, dumps, dumped]; rfl⟩
  | .dataclass fields, plain => by
      obtain ⟨parts, dumped⟩ := dumps_plain_fields py fields plain
      exact ⟨_, by rw [toJsonable, dumps, dumped]; rfl⟩

theorem dumps_plain_items (py : Interpreter) :
    ∀ items, PlainItems items → ∃ parts, dumpsItems py (itemsToJsonable py items) = .ok parts
  | [], _ => ⟨_, rfl⟩
  | item :: items, plain => by
      obtain ⟨part, dumped⟩ := dumps_plain py item plain.1
      obtain ⟨parts, rest⟩ := dumps_plain_items py items plain.2
      exact ⟨_, by rw [itemsToJsonable, dumpsItems, dumped, rest]; rfl⟩

theorem dumps_plain_fields (py : Interpreter) :
    ∀ fields, PlainFields fields → ∃ parts, dumpsEntries py (fieldsToJsonable py fields) = .ok parts
  | [], _ => ⟨_, rfl⟩
  | (name, value) :: fields, plain => by
      obtain ⟨part, dumped⟩ := dumps_plain py value plain.1
      obtain ⟨parts, rest⟩ := dumps_plain_fields py fields plain.2
      exact ⟨_, by rw [fieldsToJsonable, dumpsEntries, dumped, rest]; rfl⟩

end

theorem dumps_error_payload (py : Interpreter) (message : Text) :
    ∃ content, dumps py (errorPayload message) = .ok content :=
  ⟨_, rfl⟩

theorem plain_items_map {α : Type} {value : α → Value} (plain : ∀ item, Plain (value item))
    (items : List α) : PlainItems (items.map value) := by
  induction items with
  | nil => trivial
  | cons item items ih => exact ⟨plain item, ih⟩

theorem plain_category_amount (currency : Text) (top : TopCategory) :
    Plain (categoryAmountValue currency top) := by
  simp [categoryAmountValue, Plain, PlainFields]

theorem plain_currency_summary (agg : MonthlyAggregation) : Plain (currencySummaryValue agg) := by
  have tops := plain_items_map (plain_category_amount agg.currency) agg.topCategories
  simp [currencySummaryValue, Plain, PlainFields, tops]

theorem plain_currency_summaries (year month : Int) (rows : List TransactionRow) :
    Plain (currencySummaries year month rows) :=
  plain_items_map plain_currency_summary _

theorem plain_trend_point (point : CategoryTrendPoint) : Plain (trendPointValue point) := by
  simp [trendPointValue, Plain, PlainFields]

theorem plain_optional_text (value : Option Text) : Plain (optionalText value) := by
  cases value <;> trivial

theorem plain_match (found : TransactionMatch) : Plain (matchValue found) := by
  simp [matchValue, Plain, PlainFields, plain_optional_text]

theorem plain_category_info (info : CategoryInfo) : Plain (categoryInfoValue info) := by
  simp [categoryInfoValue, Plain, PlainFields]

/-! Exceptions that come through. -/

/-- An exception that `_execute` does not catch. -/
def Escapes {α : Type} (outcome : Except ToolError α) : Prop :=
  ∃ error, outcome = .error error ∧ error.isCaught = false

theorem not_escapes_ok {α : Type} (value : α) : ¬Escapes (.ok value : Except ToolError α) := by
  rintro ⟨error, raised, _⟩
  cases raised

theorem escapes_error_iff {α : Type} (error : ToolError) :
    Escapes (.error error : Except ToolError α) ↔ error.isCaught = false := by
  constructor
  · rintro ⟨other, raised, uncaught⟩
    cases raised
    exact uncaught
  · exact fun uncaught => ⟨error, rfl, uncaught⟩

theorem escapes_bind_iff {α β : Type} (first : Except ToolError α) (next : α → Except ToolError β) :
    Escapes (first >>= next) ↔ Escapes first ∨ ∃ value, first = .ok value ∧ Escapes (next value) := by
  cases first with
  | error error =>
      have same : (Except.error error >>= next) = .error error := rfl
      simp [same, escapes_error_iff]
  | ok value =>
      have same : (Except.ok value >>= next) = next value := rfl
      simp [same, not_escapes_ok]

theorem not_escapes_subscript (args : Json) (key : String) : ¬Escapes (subscript args key) := by
  unfold subscript
  cases args with
  | object members =>
      cases found : memberOf members (text key) with
      | some value => simp [found, not_escapes_ok]
      | none => simp [found, escapes_error_iff, ToolError.isCaught]
  | _ => simp [escapes_error_iff, ToolError.isCaught]

theorem escapes_int_iff (value : Json) : Escapes (intOf value) ↔ Infinite value := by
  cases value with
  | float value => cases value <;> simp [intOf, Infinite, not_escapes_ok, escapes_error_iff,
      ToolError.isCaught]
  | string value =>
      cases read : intOfText value <;> simp [intOf, read, Infinite, not_escapes_ok,
        escapes_error_iff, ToolError.isCaught]
  | _ => simp [intOf, Infinite, not_escapes_ok, escapes_error_iff, ToolError.isCaught]

theorem escapes_str_iff (py : Interpreter) (value : Json) :
    Escapes (strOf py value) ↔ TooDeep py value := by
  unfold strOf TooDeep
  split
  · simp [not_escapes_ok, depth]
  · split
    · rename_i deep
      simp [escapes_error_iff, ToolError.isCaught, deep]
    · rename_i shallow
      simp [not_escapes_ok, shallow]

theorem escapes_parse_date_iff (py : Interpreter) (value : Json) :
    Escapes (parseDate py value) ↔ TooDeep py value := by
  rw [parseDate, escapes_bind_iff, escapes_str_iff]
  constructor
  · rintro (deep | ⟨source, _, escapes⟩)
    · exact deep
    · exfalso
      revert escapes
      cases Date.fromIsoformat source <;> simp [not_escapes_ok, escapes_error_iff,
        ToolError.isCaught]
  · exact .inl

theorem escapes_new_date_iff (year month day : Int) :
    Escapes (newDate year month day) ↔ ¬(CInt year ∧ CInt month ∧ CInt day) := by
  unfold newDate
  split
  · rename_i fits
    cases Date.ofNumbers year month day <;> simp [not_escapes_ok, escapes_error_iff,
      ToolError.isCaught, fits]
  · rename_i outside
    simp [escapes_error_iff, ToolError.isCaught, outside]

def ValidNumbers (year month day : Int) : Prop :=
  (1 ≤ year ∧ year ≤ 9999) ∧ (1 ≤ month ∧ month ≤ 12) ∧
    1 ≤ day ∧ day ≤ daysInMonth year.toNat month.toNat

theorem new_date_ok_iff (year month day : Int) :
    (∃ date, newDate year month day = .ok date) ↔ ValidNumbers year month day := by
  have days := (daysInMonth_bounds year.toNat month.toNat).2
  unfold newDate ValidNumbers
  by_cases fits : CInt year ∧ CInt month ∧ CInt day
  · rw [if_pos fits]
    by_cases valid : (1 ≤ year.toNat ∧ year.toNat ≤ maxYear) ∧
        (1 ≤ month.toNat ∧ month.toNat ≤ 12) ∧
        (1 ≤ day.toNat ∧ day.toNat ≤ daysInMonth year.toNat month.toNat)
    · have numbers : (1 ≤ year ∧ year ≤ 9999) ∧ (1 ≤ month ∧ month ≤ 12) ∧
          1 ≤ day ∧ day ≤ daysInMonth year.toNat month.toNat := by
        unfold maxYear at valid
        omega
      rw [Date.ofNumbers, dif_pos valid]
      exact iff_of_true ⟨_, rfl⟩ numbers
    · have invalid : ¬((1 ≤ year ∧ year ≤ 9999) ∧ (1 ≤ month ∧ month ≤ 12) ∧
          1 ≤ day ∧ day ≤ daysInMonth year.toNat month.toNat) := by
        unfold maxYear at valid
        omega
      rw [Date.ofNumbers, dif_neg valid]
      exact iff_of_false nofun invalid
  · have invalid : ¬((1 ≤ year ∧ year ≤ 9999) ∧ (1 ≤ month ∧ month ≤ 12) ∧
        1 ≤ day ∧ day ≤ daysInMonth year.toNat month.toNat) := by
      unfold CInt at fits
      omega
    simp [fits, invalid]

theorem last_day_ok {year month : Int} (years : 1 ≤ year ∧ year ≤ 9999)
    (months : 1 ≤ month ∧ month ≤ 12) : ∃ date, lastDay year month = .ok date := by
  have days := (daysInMonth_bounds year.toNat month.toNat).1
  exact (new_date_ok_iff year month _).mpr ⟨years, months, by omega, Int.le_refl _⟩

theorem escapes_month_summary_iff (db : Database) (year month : Int) :
    Escapes (getMonthSummary db year month) ↔ ¬(CInt year ∧ CInt month) := by
  have one : CInt 1 := by decide
  rw [getMonthSummary, escapes_bind_iff, escapes_new_date_iff]
  constructor
  · rintro (outside | ⟨first, made, escapes⟩)
    · exact fun inside => outside ⟨inside.1, inside.2, one⟩
    · obtain ⟨years, months, _⟩ := (new_date_ok_iff year month 1).mp ⟨first, made⟩
      obtain ⟨last, made⟩ := last_day_ok years months
      rw [made] at escapes
      exact absurd escapes (not_escapes_ok _)
  · exact fun outside => .inl fun inside => outside ⟨inside.1, inside.2.1⟩

/-! The months before one. -/

def IsMonth (current : Int × Int) : Prop := 1 ≤ current.2 ∧ current.2 ≤ 12

def numberOf (current : Int × Int) : Int := 12 * current.1 + (current.2 - 1)

theorem step_back_month {current : Int × Int} (month : IsMonth current) :
    IsMonth (stepBack current) ∧ numberOf (stepBack current) = numberOf current - 1 := by
  unfold IsMonth numberOf stepBack at *
  split <;> refine ⟨?_, ?_⟩ <;> simp only <;> omega

theorem months_before_last {n : Nat} {current : Int × Int} (month : IsMonth current) :
    ∃ earliest, (monthsBefore (n + 1) current).getLast? = some earliest ∧ IsMonth earliest ∧
      numberOf earliest = numberOf current - (n + 1) := by
  induction n generalizing current with
  | zero =>
      obtain ⟨stays, number⟩ := step_back_month month
      exact ⟨stepBack current, rfl, stays, number⟩
  | succ n ih =>
      obtain ⟨stays, number⟩ := step_back_month month
      obtain ⟨earliest, last, valid, earlier⟩ := ih stays
      refine ⟨earliest, ?_, valid, ?_⟩
      · rw [monthsBefore, List.getLast?_cons, last]
        rfl
      · rw [earlier, number]
        omega

theorem today_month (today : Date) : IsMonth (today.year, today.month) ∧
    1 ≤ (today.year : Int) ∧ (today.year : Int) ≤ 9999 := by
  have years := today.yearBounds
  have months := today.monthBounds
  unfold IsMonth
  unfold maxYear at years
  simp only
  omega

/-- The months before today's, their earliest and their latest. -/
theorem months_before_today (today : Date) (n : Nat) :
    ∃ latest earliest,
      (monthsBefore (n + 1) (today.year, today.month)).head? = some latest ∧
      (monthsBefore (n + 1) (today.year, today.month)).getLast? = some earliest ∧
      IsMonth latest ∧ IsMonth earliest ∧ numberOf latest = monthNumber today 1 ∧
      numberOf earliest = monthNumber today (n + 1 : Nat) := by
  obtain ⟨month, _⟩ := today_month today
  obtain ⟨stays, number⟩ := step_back_month month
  obtain ⟨earliest, last, valid, earlier⟩ := months_before_last (n := n) month
  refine ⟨_, earliest, rfl, last, stays, valid, number, ?_⟩
  rw [earlier, monthNumber, numberOf]
  push_cast
  rfl

theorem months_range_cases {today : Date} {latest earliest : Int × Int} {n : Int}
    (late : IsMonth latest) (early : IsMonth earliest) (positive : 1 ≤ n)
    (last : numberOf latest = monthNumber today 1)
    (first : numberOf earliest = monthNumber today n) :
    (Escapes (monthsRange latest earliest) ↔ monthNumber today n < 12 * -2147483648) ∧
    ((∃ range, monthsRange latest earliest = .ok range) ↔ 12 ≤ monthNumber today n) := by
  obtain ⟨_, years⟩ := today_month today
  have months := today.monthBounds
  unfold IsMonth at late early
  unfold numberOf monthNumber at last first
  unfold monthNumber
  have day := (daysInMonth_bounds earliest.1.toNat earliest.2.toNat).1
  unfold monthsRange
  by_cases valid : 1 ≤ earliest.1
  · have numbers : ValidNumbers earliest.1 earliest.2 1 := by
      unfold ValidNumbers
      omega
    obtain ⟨start, made⟩ := (new_date_ok_iff _ _ _).mpr numbers
    obtain ⟨stop, ended⟩ := @last_day_ok latest.1 latest.2 (by omega) (by omega)
    rw [made, ended]
    refine ⟨iff_of_false (not_escapes_ok (start, stop)) (by omega), ?_⟩
    exact iff_of_true ⟨(start, stop), rfl⟩ (by omega)
  · have invalid : ¬ValidNumbers earliest.1 earliest.2 1 := by
      unfold ValidNumbers
      omega
    have fails : ∀ date, newDate earliest.1 earliest.2 1 ≠ .ok date := fun date made =>
      invalid ((new_date_ok_iff _ _ _).mp ⟨date, made⟩)
    constructor
    · rw [escapes_bind_iff, escapes_new_date_iff]
      simp only [fails, false_and, exists_false, or_false, CInt]
      omega
    · cases made : newDate earliest.1 earliest.2 1 with
      | ok date => exact absurd made (fails date)
      | error error => exact iff_of_false nofun (by omega)

theorem escapes_category_trend_iff (db : Database) (today : Date) (category : Text) (n : Int) :
    Escapes (getCategoryTrend db today category n) ↔
      monthNumber today n < 12 * -2147483648 ∨
        0 < n ∧ 12 ≤ monthNumber today n ∧ ¬Bindable category := by
  unfold getCategoryTrend
  by_cases positive : 0 < n
  · obtain ⟨k, rfl⟩ : ∃ k : Nat, n = (k + 1 : Nat) := ⟨n.toNat - 1, by omega⟩
    obtain ⟨latest, earliest, head, last, late, early, one, number⟩ := months_before_today today k
    obtain ⟨raises, returns⟩ := months_range_cases late early (by omega) one number
    rw [Int.toNat_natCast]
    simp only [head, last]
    rw [escapes_bind_iff, raises, ← returns]
    refine or_congr Iff.rfl ?_
    constructor
    · rintro ⟨range, made, escapes⟩
      refine ⟨positive, ⟨range, made⟩, fun bindable => ?_⟩
      rw [if_pos bindable] at escapes
      exact not_escapes_ok _ escapes
    · rintro ⟨_, ⟨range, made⟩, unbindable⟩
      refine ⟨range, made, ?_⟩
      rw [if_neg unbindable]
      exact ⟨.StorageError, rfl, rfl⟩
  · have none : n.toNat = 0 := by omega
    obtain ⟨_, years⟩ := today_month today
    have months := today.monthBounds
    rw [none]
    refine iff_of_false (not_escapes_ok _) ?_
    unfold monthNumber
    omega

theorem not_escapes_user_profile (db : Database) (today : Date) :
    ¬Escapes (getUserProfile db today) := by
  obtain ⟨latest, earliest, head, last, late, early, one, number⟩ := months_before_today today 3
  obtain ⟨raises, _⟩ := months_range_cases late early (by omega) one number
  obtain ⟨_, years⟩ := today_month today
  have months := today.monthBounds
  unfold getUserProfile profileMonths
  simp only [head, last]
  rw [escapes_bind_iff, raises]
  rintro (far | ⟨range, _, escapes⟩)
  · unfold monthNumber at far
    omega
  · exact not_escapes_ok _ escapes

theorem escapes_search_iff (db : Database) (query : Text) (limit : Int) :
    Escapes (searchTransactions db query limit) ↔ ¬(Bindable query ∧ LimitInRange limit) := by
  unfold searchTransactions
  split
  · rename_i taken
    exact iff_of_false (not_escapes_ok _) fun refused => refused taken
  · rename_i refused
    exact iff_of_true ⟨.StorageError, rfl, rfl⟩ refused

theorem escapes_run_tool_iff (py : Interpreter) (box : ToolBox) (args : Json) (tool : ToolName) :
    Escapes (runTool py box args tool) ↔ ToolEscapes py box.today args tool := by
  cases tool with
  | GET_MONTH_SUMMARY =>
      simp only [runTool, ToolEscapes, MonthSummaryEscapes, Given, escapes_bind_iff,
        not_escapes_subscript, false_or, escapes_int_iff, escapes_month_summary_iff]
  | GET_CATEGORY_TREND =>
      simp only [runTool, ToolEscapes, CategoryTrendEscapes, Given, escapes_bind_iff,
        not_escapes_subscript, false_or, escapes_int_iff, escapes_str_iff,
        escapes_category_trend_iff]
  | GET_SPEND_WINDOW =>
      have returned : ∀ start stop, ¬Escapes (pure (getSpendWindow box.db start stop)) :=
        fun start stop => not_escapes_ok _
      simp only [runTool, ToolEscapes, SpendWindowEscapes, Given, escapes_bind_iff,
        not_escapes_subscript, false_or, escapes_parse_date_iff, returned, and_false,
        exists_false, or_false]
  | GET_USER_PROFILE => exact iff_of_false (not_escapes_user_profile _ _) id
  | SEARCH_TRANSACTIONS =>
      simp only [runTool, ToolEscapes, SearchEscapes, Given, escapes_bind_iff,
        not_escapes_subscript, false_or, escapes_int_iff, escapes_str_iff, escapes_search_iff]
  | LIST_CATEGORIES => exact iff_of_false (not_escapes_ok _) id

/-! Results are plain. -/

theorem bind_ok {α β : Type} {first : Except ToolError α} {next : α → Except ToolError β} {result : β}
    (made : first >>= next = .ok result) : ∃ value, first = .ok value ∧ next value = .ok result := by
  cases first with
  | error error => cases made
  | ok value => exact ⟨value, rfl, made⟩

theorem plain_month_summary {db : Database} {year month : Int} {result : Value}
    (made : getMonthSummary db year month = .ok result) : Plain result := by
  obtain ⟨first, _, made⟩ := bind_ok made
  obtain ⟨last, _, made⟩ := bind_ok made
  cases made
  simp [Plain, PlainFields, plain_currency_summaries]

theorem plain_category_trend {db : Database} {today : Date} {category : Text} {n : Int}
    {result : Value} (made : getCategoryTrend db today category n = .ok result) :
    Plain result := by
  have plain : ∀ series : List CategoryTrendPoint, Plain (.dataclass
      [(text "category", .string category), (text "series", .list (series.map trendPointValue))]) := by
    intro series
    simp [Plain, PlainFields, plain_items_map plain_trend_point]
  unfold getCategoryTrend at made
  simp only at made
  split at made
  · obtain ⟨range, _, made⟩ := bind_ok made
    split at made
    · cases made
      exact plain _
    · cases made
  · cases made
    exact plain _

theorem plain_user_profile {db : Database} {today : Date} {result : Value}
    (made : getUserProfile db today = .ok result) : Plain result := by
  unfold getUserProfile at made
  simp only at made
  split at made
  · obtain ⟨range, _, made⟩ := bind_ok made
    cases made
    simp [Plain, PlainFields, plain_currency_summaries]
  · cases made
    simp [Plain, PlainFields, PlainItems]

theorem plain_search {db : Database} {query : Text} {limit : Int} {result : Value}
    (made : searchTransactions db query limit = .ok result) : Plain result := by
  unfold searchTransactions at made
  split at made
  · cases made
    simp [Plain, PlainFields, plain_items_map plain_match]
  · cases made

theorem plain_run_tool {py : Interpreter} {box : ToolBox} {args : Json} {tool : ToolName}
    {result : Value} (made : runTool py box args tool = .ok result) : Plain result := by
  cases tool with
  | GET_MONTH_SUMMARY =>
      obtain ⟨_, _, made⟩ := bind_ok made
      obtain ⟨_, _, made⟩ := bind_ok made
      obtain ⟨_, _, made⟩ := bind_ok made
      obtain ⟨_, _, made⟩ := bind_ok made
      exact plain_month_summary made
  | GET_CATEGORY_TREND =>
      obtain ⟨_, _, made⟩ := bind_ok made
      obtain ⟨_, _, made⟩ := bind_ok made
      obtain ⟨_, _, made⟩ := bind_ok made
      obtain ⟨_, _, made⟩ := bind_ok made
      exact plain_category_trend made
  | GET_SPEND_WINDOW =>
      obtain ⟨_, _, made⟩ := bind_ok made
      obtain ⟨_, _, made⟩ := bind_ok made
      obtain ⟨_, _, made⟩ := bind_ok made
      obtain ⟨_, _, made⟩ := bind_ok made
      cases made
      simp [getSpendWindow, Plain, PlainFields, plain_currency_summaries]
  | GET_USER_PROFILE => exact plain_user_profile made
  | SEARCH_TRANSACTIONS =>
      obtain ⟨_, _, made⟩ := bind_ok made
      obtain ⟨_, _, made⟩ := bind_ok made
      obtain ⟨_, _, made⟩ := bind_ok made
      obtain ⟨_, _, made⟩ := bind_ok made
      exact plain_search made
  | LIST_CATEGORIES =>
      cases made
      simp [listCategories, Plain, PlainFields, plain_items_map plain_category_info]

/-! Rounds. -/

theorem execute_tool_answers_iff (py : Interpreter) (box : ToolBox) (name : Text) (args : Json) :
    (∃ content, executeTool py box name args >>= dumps py = .ok content) ↔
      ∀ tool, toolNamed name = some tool → ¬ToolEscapes py box.today args tool := by
  unfold executeTool
  cases named : toolNamed name with
  | none => exact iff_of_true (dumps_error_payload py _) nofun
  | some tool =>
      have escapes := escapes_run_tool_iff py box args tool
      simp only [Option.some.injEq, forall_eq', ← escapes]
      cases ran : runTool py box args tool with
      | ok result => exact iff_of_true (dumps_plain py result (plain_run_tool ran)) (not_escapes_ok _)
      | error error =>
          cases caught : error.isCaught with
          | true =>
              simp only [escapes_error_iff, caught, if_true]
              exact iff_of_true (dumps_error_payload py _) nofun
          | false =>
              simp only [escapes_error_iff, caught]
              exact iff_of_false nofun fun never => never trivial

/-- A call without arguments is at worst one with bad arguments. -/
theorem not_given_nothing {key : String} {value : Json} : ¬Given (.object []) key value := nofun

theorem not_escapes_nothing (py : Interpreter) (today : Date) (tool : ToolName) :
    ¬ToolEscapes py today (.object []) tool := by
  cases tool <;> simp [ToolEscapes, MonthSummaryEscapes, CategoryTrendEscapes, SpendWindowEscapes,
    SearchEscapes, not_given_nothing]

theorem answer_call_iff (py : Interpreter) (box : ToolBox) (call : ToolCall) :
    (∃ content, answerCall py box call = .ok content) ↔ Harmless py box call := by
  unfold answerCall Harmless
  cases loadsArguments py call with
  | ok args => exact execute_tool_answers_iff py box call.name args
  | error error =>
      cases error with
      | JSONDecodeError =>
          have answers := execute_tool_answers_iff py box call.name (.object [])
          exact iff_of_true (answers.mpr fun tool _ => not_escapes_nothing py box.today tool) rfl
      | ValueError => exact iff_of_false nofun nofun
      | RecursionError => exact iff_of_false nofun nofun

/-- A round is answered when every one of its calls is. -/
theorem tool_round_answered_iff (py : Interpreter) (box : ToolBox) (messages : List Message)
    (calls : List ToolCall) :
    (∃ later, executeToolRound (answerCall py box) messages calls = .ok later) ↔
      ∀ call ∈ calls, Harmless py box call := by
  have raises := execute_round_error_iff (answerCall py box) messages calls
  have each : ∀ call, Harmless py box call ↔ ¬∃ error, answerCall py box call = .error error := by
    intro call
    rw [← answer_call_iff]
    cases answerCall py box call <;> simp
  simp only [each]
  cases executed : executeToolRound (answerCall py box) messages calls with
  | ok later =>
      refine iff_of_true ⟨later, rfl⟩ fun call member ⟨error, raised⟩ => ?_
      obtain ⟨other, failed⟩ := raises.mpr ⟨call, member, error, raised⟩
      exact nomatch executed.symm.trans failed
  | error error =>
      obtain ⟨call, member, raised⟩ := raises.mp ⟨error, executed⟩
      exact iff_of_false nofun fun harmless => harmless call member raised

def bareInterpreter : Interpreter where
  maxDepth := 1000
  maxReprDepth := 1000
  repr := fun _ => []
  floatRepr := fun _ => []
  decimalStr := fun _ => []
  errorText := fun _ _ => []

def emptyBox : ToolBox where
  db := ⟨fun _ _ => [], fun _ _ _ => [], fun _ _ => [], []⟩
  today := ⟨2027, 3, 2, by decide, by decide, by decide⟩

def searchCall (limit : String) : ToolCall where
  id := text "1"
  name := text "search_transactions"
  arguments := '{'.toNat :: (text ("\"text\": \"rent\", \"limit\": " ++ limit) ++ ['}'.toNat])

def answers (call : ToolCall) : Bool := (answerCall bareInterpreter emptyBox call).isOk

/-- With an infinite limit the search is not answered. -/
theorem not_tool_rounds_answered :
    ¬ ∀ (py : Interpreter) (box : ToolBox) (messages : List Message) (calls : List ToolCall),
      ∃ later, executeToolRound (answerCall py box) messages calls = .ok later := by
  intro claimed
  obtain ⟨later, answered⟩ := claimed bareInterpreter emptyBox [] [searchCall "Infinity"]
  have raises : answers (searchCall "Infinity") = false := by decide +kernel
  cases outcome : answerCall bareInterpreter emptyBox (searchCall "Infinity") with
  | ok content =>
      rw [answers, outcome] at raises
      cases raises
  | error error =>
      rw [executeToolRound, List.mapM_cons, outcome] at answered
      cases answered

/-- Numbers are read from texts, too, and a negative limit is refused by the database. -/
example : (answers (searchCall "5"), answers (searchCall "\" 5_0 \""), answers (searchCall "-1")) =
    (true, true, false) := by
  decide +kernel

end Yomochi.Chat
