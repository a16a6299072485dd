import Mathlib.Data.Prod.Lex
import Yomochi.Listing.Cursor
import Yomochi.Values

/-! The lists of insights, alerts and audit events: by a point in time, then by identifier. -/

namespace Yomochi.Listing

open Foundation

structure Moment where
  time : DateTime
  id : UUID
  deriving DecidableEq

namespace Moment

def ordered (moment : Moment) : DateTime ×ₗ UUID := toLex (moment.time, moment.id)

theorem ordered_injective : Function.Injective ordered := by
  rintro ⟨time, id⟩ ⟨time', id'⟩ same
  cases same
  rfl

instance : LinearOrder Moment := LinearOrder.lift' ordered ordered_injective

theorem lt_iff {left right : Moment} :
    left < right ↔ left.time < right.time ∨ left.time = right.time ∧ left.id < right.id := by
  change left.ordered < right.ordered ↔ _
  rw [ordered, ordered, Prod.Lex.toLex_lt_toLex]

end Moment

def momentCursor (name : Text) (moment : Moment) : Text :=
  encodeCursor [(name, moment.time.isoformat), (text "id", moment.id.str)]

def readMoment (platform : Platform) (name : Text) (cursor : Text) : Except ListError Moment := do
  let raw ← decodeCursor platform cursor
  let time ← toDateTime (← item raw name)
  let id ← toUUID (← item raw (text "id"))
  .ok ⟨time, id⟩

structure Insight where
  id_ : UUID
  userId : UUID
  createdAt : DateTime
  period : Period
  periodYear : Int
  periodMonth : Int
  deriving DecidableEq

def Insight.moment (insight : Insight) : Moment := ⟨insight.createdAt, insight.id_⟩

structure ListInsightsQuery where
  userId : UUID
  limit : Nat
  cursor : Option Text
  period : Option Period
  periodYear : Option Int
  periodMonth : Option Int

structure ListInsightsResult where
  insights : List Insight
  nextCursor : Option Text

namespace ListInsights

def encodeCursor (insight : Insight) : Text := momentCursor (text "created_at") insight.moment

/-- The identifier becomes an `InsightId`, as which it is bound. -/
def decodeCursor (platform : Platform) (cursor : Text) : Except ListError Moment :=
  readMoment platform (text "created_at") cursor

def listByUser (rows : List Insight) (userId : UUID) (limit : Nat) (cursor : Option Moment)
    (period : Option Period) (periodYear periodMonth : Option Int) : List Insight :=
  let selected := rows.filter fun insight =>
    decide (insight.userId = userId) &&
    (cursor.all fun last => decide (insight.createdAt < last.time) ||
      (decide (insight.createdAt = last.time) && decide (insight.id_ < last.id))) &&
    (period.all fun period => decide (insight.period = period)) &&
    (periodYear.all fun year => decide (insight.periodYear = year)) &&
    (periodMonth.all fun month => decide (insight.periodMonth = month))
  (descending Insight.moment selected).take limit

def call (platform : Platform) (rows : List Insight) (query : ListInsightsQuery) :
    Except ListError ListInsightsResult := do
  let cursor ← givenCursor (decodeCursor platform) query.cursor
  let insights := listByUser rows query.userId query.limit cursor query.period query.periodYear
    query.periodMonth
  let next ← nextCursor encodeCursor (decide (insights.length = query.limit)) insights
  .ok ⟨insights, next⟩

end ListInsights

structure Alert where
  id_ : UUID
  userId : UUID
  isRead : Bool
  createdAt : DateTime
  deriving DecidableEq

def Alert.moment (alert : Alert) : Moment := ⟨alert.createdAt, alert.id_⟩

structure ListAlertsQuery where
  userId : UUID
  limit : Nat
  cursor : Option Text

structure ListAlertsResult where
  alerts : List Alert
  nextCursor : Option Text
  unreadCount : Nat

namespace ListAlerts

def encodeCursor (alert : Alert) : Text := momentCursor (text "created_at") alert.moment

def decodeCursor (platform : Platform) (cursor : Text) : Except ListError Moment :=
  readMoment platform (text "created_at") cursor

/-- `SqlaAlertRepository.list_for_user`: the identifiers are compared as texts. -/
def listForUser (platform : Platform) (rows : List Alert) (userId : UUID) (limit : Nat)
    (cursor : Option Moment) : List Alert :=
  let selected := rows.filter fun alert =>
    decide (alert.userId = userId) &&
    (cursor.all fun last => decide (alert.createdAt < last.time) ||
      (decide (alert.createdAt = last.time) && platform.textLess alert.id_.str last.id.str))
  (descending Alert.moment selected).take limit

def unreadCount (rows : List Alert) (userId : UUID) : Nat :=
  (rows.filter fun alert => decide (alert.userId = userId) && !alert.isRead).length

def call (platform : Platform) (rows : List Alert) (query : ListAlertsQuery) :
    Except ListError ListAlertsResult := do
  let cursor ← givenCursor (decodeCursor platform) query.cursor
  let alerts := listForUser platform rows query.userId query.limit cursor
  let next ← nextCursor encodeCursor
    (decide (alerts.length = query.limit ∧ 0 < query.limit)) alerts
  .ok ⟨alerts, next, unreadCount rows query.userId⟩

end ListAlerts

inductive AuditEventType
  | USER_REGISTERED
  | USER_LOGIN
  | USER_LOGOUT
  | PASSWORD_CHANGED
  | PASSWORD_RESET_REQUESTED
  | PASSWORD_RESET_CONFIRMED
  | SESSION_REVOKED
  | TRANSACTION_CREATED
  | TRANSACTION_UPDATED
  | TRANSACTION_DELETED
  deriving DecidableEq, Repr

def AuditEventType.value : AuditEventType → Text
  | .USER_REGISTERED => text "user_registered"
  | .USER_LOGIN => text "user_login"
  | .USER_LOGOUT => text "user_logout"
  | .PASSWORD_CHANGED => text "password_changed"
  | .PASSWORD_RESET_REQUESTED => text "password_reset_requested"
  | .PASSWORD_RESET_CONFIRMED => text "password_reset_confirmed"
  | .SESSION_REVOKED => text "session_revoked"
  | .TRANSACTION_CREATED => text "transaction_created"
  | .TRANSACTION_UPDATED => text "transaction_updated"
  | .TRANSACTION_DELETED => text "transaction_deleted"

structure AuditEvent where
  id : UUID
  eventType : AuditEventType
  userId : Option UUID
  occurredAt : DateTime
  deriving DecidableEq

def AuditEvent.moment (event : AuditEvent) : Moment := ⟨event.occurredAt, event.id⟩

structure ListAuditEventsQuery where
  userId : UUID
  limit : Nat
  cursor : Option Text
  eventTypeFilter : Option Text
  fromDate : Option DateTime
  toDate : Option DateTime

structure ListAuditEventsResult where
  events : List AuditEvent
  nextCursor : Option Text

namespace ListAuditEvents

def encodeCursor (event : AuditEvent) : Text := momentCursor (text "occurred_at") event.moment

/-- The identifier stays as it is in the payload. -/
def decodeCursor (platform : Platform) (cursor : Text) : Except ListError (DateTime × Json) := do
  let raw ← Listing.decodeCursor platform cursor
  let occurredAt ← toDateTime (← item raw (text "occurred_at"))
  let id ← item raw (text "id")
  .ok (occurredAt, id)

/-- The two parameters of the cursor; without an identifier there is none, and what is not a text
cannot be bound. -/
def boundCursor : Option (DateTime × Json) → Except ListError (Option (DateTime × Text))
  | none => .ok none
  | some (_, .null) => .ok none
  | some (occurredAt, .string id) => .ok (some (occurredAt, id))
  | some _ => .error .StorageError

/-- `SqlaAuditEventReader.list_by_user`: the identifiers are compared as texts. -/
def listByUser (platform : Platform) (rows : List AuditEvent) (userId : UUID) (limit : Nat)
    (cursor : Option (DateTime × Json)) (eventTypeFilter : Option Text)
    (fromDate toDate : Option DateTime) : Except ListError (List AuditEvent) := do
  let bound ← boundCursor cursor
  let selected := rows.filter fun event =>
    decide (event.userId = some userId) &&
    (bound.all fun last => decide (event.occurredAt < last.1) ||
      (decide (event.occurredAt = last.1) && platform.textLess event.id.str last.2)) &&
    (eventTypeFilter.all fun eventType => decide (event.eventType.value = eventType)) &&
    (fromDate.all fun first => decide (first ≤ event.occurredAt)) &&
    (toDate.all fun last => decide (event.occurredAt ≤ last))
  .ok ((descending AuditEvent.moment selected).take limit)

def call (platform : Platform) (rows : List AuditEvent) (query : ListAuditEventsQuery) :
    Except ListError ListAuditEventsResult := do
  let cursor ← givenCursor (decodeCursor platform) query.cursor
  let rows ← listByUser platform rows query.userId (query.limit + 1) cursor query.eventTypeFilter
    query.fromDate query.toDate
  let page := rows.take query.limit
  let next ← nextCursor encodeCursor (decide (query.limit < rows.length)) page
  .ok ⟨page, next⟩

end ListAuditEvents

/-! The pages. -/

/-- The rows behind a cursor are the smaller ones. -/
def momentPaging {Row : Type} (moment : Row → Moment) (selects : Row → Bool) (lookahead : Bool)
    (limit : Nat) : Paging Row Moment where
  key := moment
  selects := selects
  behind last row := decide (moment row < last)
  lookahead := lookahead
  limit := limit

theorem moment_paging_descends {Row : Type} (moment : Row → Moment) (selects : Row → Bool)
    (lookahead : Bool) (limit : Nat) : (momentPaging moment selects lookahead limit).Descends where
  smaller _ _ behind := of_decide_eq_true behind
  trans last first second one two := by
    have smaller : moment first < last := of_decide_eq_true one
    have least : moment second < moment first := of_decide_eq_true two
    exact decide_eq_true (lt_trans least smaller)

theorem moment_less (left right : Moment) :
    (decide (left.time < right.time) || (decide (left.time = right.time) &&
      decide (left.id < right.id))) = decide (left < right) := by
  rw [← Bool.decide_and, ← Bool.decide_or, decide_eq_decide, Moment.lt_iff]

theorem moment_text_less (platform : Platform) (left right : Moment) :
    (decide (left.time < right.time) || (decide (left.time = right.time) &&
      platform.textLess left.id.str right.id.str)) = decide (left < right) := by
  rw [platform.agrees, moment_less]

theorem decode_moment (platform : Platform) {name : Text} (ascii : Ascii name) (moment : Moment) :
    decodeCursor platform (momentCursor name moment) =
      .ok (.object [(name, .string moment.time.isoformat), (text "id", .string moment.id.str)]) := by
  have members : ∀ member ∈ [(name, moment.time.isoformat), (text "id", moment.id.str)],
      Ascii member.1 ∧ Ascii member.2 := by
    simp only [List.forall_mem_cons]
    exact ⟨⟨ascii, moment.time.isoformat_ascii⟩, ⟨by decide, moment.id.str_ascii⟩, nofun⟩
  rw [momentCursor, decode_encode_cursor platform members]
  rfl

theorem read_created_at (platform : Platform) (moment : Moment) :
    readMoment platform (text "created_at") (momentCursor (text "created_at") moment) =
      .ok moment := by
  have time (one two : Json) : item (.object [(text "created_at", one), (text "id", two)])
      (text "created_at") = .ok one := rfl
  have id (one two : Json) : item (.object [(text "created_at", one), (text "id", two)])
      (text "id") = .ok two := rfl
  simp only [readMoment, decode_moment platform (by decide : Ascii (text "created_at")),
    bind, Except.bind, time, id, to_date_time_isoformat, to_uuid_str]

theorem moment_cursor_ne (name : Text) (moment : Moment) : momentCursor name moment ≠ [] :=
  encode_cursor_ne _

namespace ListInsights

def paging (query : ListInsightsQuery) : Paging Insight Moment :=
  momentPaging Insight.moment (fun insight => decide (insight.userId = query.userId) &&
    (query.period.all fun period => decide (insight.period = period)) &&
    (query.periodYear.all fun year => decide (insight.periodYear = year)) &&
    (query.periodMonth.all fun month => decide (insight.periodMonth = month))) false query.limit

theorem list_by_user_page (query : ListInsightsQuery) (cursor : Option Moment)
    (rows : List Insight) :
    listByUser rows query.userId query.limit cursor query.period query.periodYear
      query.periodMonth = ((paging query).page cursor rows).1 := by
  rw [listByUser, Paging.page_rows, Paging.found]
  congr 3
  funext insight
  have behind : (cursor.all fun last => decide (insight.createdAt < last.time) ||
      (decide (insight.createdAt = last.time) && decide (insight.id_ < last.id))) =
        cursor.all fun last => (paging query).behind last insight := by
    cases cursor with
    | none => rfl
    | some last => exact moment_less insight.moment last
  rw [behind]
  simp only [paging, momentPaging]
  ac_rfl

theorem call_page (platform : Platform) {query : ListInsightsQuery} (positive : 0 < query.limit)
    (cursor : Option Moment) (rows : List Insight) :
    call platform rows { query with cursor := cursor.map (momentCursor (text "created_at")) } =
      .ok ⟨((paging query).page cursor rows).1,
        ((paging query).page cursor rows).2.map (momentCursor (text "created_at"))⟩ := by
  have given : givenCursor (decodeCursor platform)
      (cursor.map (momentCursor (text "created_at"))) = .ok cursor :=
    given_written (moment_cursor_ne _) (read_created_at platform) cursor
  have fetched := list_by_user_page query cursor rows
  have next : nextCursor encodeCursor
      (decide (((paging query).page cursor rows).1.length = query.limit))
      ((paging query).page cursor rows).1 =
        .ok (((paging query).page cursor rows).2.map (momentCursor (text "created_at"))) :=
    @next_cursor_full _ _ _ (paging query) rfl positive _ cursor rows
  simp only [call]
  rw [given]
  simp only [bind, Except.bind, fetched, next]

end ListInsights

namespace ListAlerts

def paging (query : ListAlertsQuery) : Paging Alert Moment :=
  momentPaging Alert.moment (fun alert => decide (alert.userId = query.userId)) false query.limit

theorem list_for_user_page (platform : Platform) (query : ListAlertsQuery)
    (cursor : Option Moment) (rows : List Alert) :
    listForUser platform rows query.userId query.limit cursor =
      ((paging query).page cursor rows).1 := by
  rw [listForUser, Paging.page_rows, Paging.found]
  congr 3
  funext alert
  cases cursor with
  | none => rfl
  | some last => exact congrArg _ (moment_text_less platform alert.moment last)

theorem call_page (platform : Platform) {query : ListAlertsQuery} (positive : 0 < query.limit)
    (cursor : Option Moment) (rows : List Alert) :
    call platform rows { query with cursor := cursor.map (momentCursor (text "created_at")) } =
      .ok ⟨((paging query).page cursor rows).1,
        ((paging query).page cursor rows).2.map (momentCursor (text "created_at")),
        unreadCount rows query.userId⟩ := by
  have given : givenCursor (decodeCursor platform)
      (cursor.map (momentCursor (text "created_at"))) = .ok cursor :=
    given_written (moment_cursor_ne _) (read_created_at platform) cursor
  have fetched := list_for_user_page platform query cursor rows
  have next : nextCursor encodeCursor
      (decide (((paging query).page cursor rows).1.length = query.limit ∧ 0 < query.limit))
      ((paging query).page cursor rows).1 =
        .ok (((paging query).page cursor rows).2.map (momentCursor (text "created_at"))) := by
    simp only [positive, and_true]
    exact @next_cursor_full _ _ _ (paging query) rfl positive _ cursor rows
  simp only [call]
  rw [given]
  simp only [bind, Except.bind, fetched, next]

end ListAlerts

namespace ListAuditEvents

def paging (query : ListAuditEventsQuery) : Paging AuditEvent Moment :=
  momentPaging AuditEvent.moment (fun event => decide (event.userId = some query.userId) &&
    (query.eventTypeFilter.all fun eventType => decide (event.eventType.value = eventType)) &&
    (query.fromDate.all fun first => decide (first ≤ event.occurredAt)) &&
    (query.toDate.all fun last => decide (event.occurredAt ≤ last))) true query.limit

def parameters (moment : Moment) : DateTime × Json := (moment.time, .string moment.id.str)

theorem decode_written (platform : Platform) (cursor : Option Moment) :
    givenCursor (decodeCursor platform) (cursor.map (momentCursor (text "occurred_at"))) =
      .ok (cursor.map parameters) := by
  have time (one two : Json) : item (.object [(text "occurred_at", one), (text "id", two)])
      (text "occurred_at") = .ok one := rfl
  have id (one two : Json) : item (.object [(text "occurred_at", one), (text "id", two)])
      (text "id") = .ok two := rfl
  have read (moment : Moment) : decodeCursor platform (momentCursor (text "occurred_at") moment) =
      .ok (parameters moment) := by
    simp only [decodeCursor, decode_moment platform (by decide : Ascii (text "occurred_at")),
      bind, Except.bind, time, id, to_date_time_isoformat]
    rfl
  cases cursor with
  | none => rfl
  | some moment =>
      rw [Option.map_some, given_cursor _ (moment_cursor_ne _ _), read]
      rfl

theorem list_by_user_found (platform : Platform) (query : ListAuditEventsQuery)
    (cursor : Option Moment) (rows : List AuditEvent) :
    listByUser platform rows query.userId (query.limit + 1) (cursor.map parameters)
      query.eventTypeFilter query.fromDate query.toDate =
        .ok (((paging query).found cursor rows).take (query.limit + 1)) := by
  have bound : boundCursor (cursor.map parameters) =
      .ok (cursor.map fun last => (last.time, last.id.str)) := by
    cases cursor <;> rfl
  simp only [listByUser, bound, bind, Except.bind]
  rw [Paging.found]
  congr 4
  funext event
  have behind : ((cursor.map fun last => (last.time, last.id.str)).all fun last =>
      decide (event.occurredAt < last.1) || (decide (event.occurredAt = last.1) &&
        platform.textLess event.id.str last.2)) =
          cursor.all fun last => (paging query).behind last event := by
    cases cursor with
    | none => rfl
    | some last => exact moment_text_less platform event.moment last
  rw [behind]
  simp only [paging, momentPaging]
  ac_rfl

theorem call_page (platform : Platform) {query : ListAuditEventsQuery} (positive : 0 < query.limit)
    (cursor : Option Moment) (rows : List AuditEvent) :
    call platform rows { query with cursor := cursor.map (momentCursor (text "occurred_at")) } =
      .ok ⟨((paging query).page cursor rows).1,
        ((paging query).page cursor rows).2.map (momentCursor (text "occurred_at"))⟩ := by
  have given := decode_written platform cursor
  have fetched := list_by_user_found platform query cursor rows
  have page := @Paging.page_ahead _ _ _ (paging query) rfl cursor rows _ rfl
  have limit : (paging query).limit = query.limit := rfl
  have key : (paging query).key = AuditEvent.moment := rfl
  rw [limit, key] at page
  generalize ((paging query).found cursor rows).take (query.limit + 1) = ahead at fetched page
  have some : decide (query.limit < ahead.length) = true → ahead.take query.limit ≠ [] := by
    intro more empty
    have length := congrArg List.length empty
    rw [List.length_take, List.length_nil] at length
    have longer := of_decide_eq_true more
    omega
  have next := next_cursor encodeCursor some
  simp only [call]
  rw [given, page]
  simp only [bind, Except.bind, fetched, next]
  by_cases more : query.limit < ahead.length
  · simp only [more, decide_true, if_true, Option.map_map]
    rfl
  · simp [more]

end ListAuditEvents

end Yomochi.Listing
