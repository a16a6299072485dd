import Yomochi.Chat.Billing
import Yomochi.Foundation.Chronology
import Yomochi.Foundation.Selection
import Yomochi.Listing.Exactness

/-! The stored turns of the chats: the statements of `SqlaChatHistoryStore`, and the list of a
user's turns that is read page by page. -/

namespace Yomochi.Chat

open Foundation
open Listing (Moment Platform ListError momentCursor readMoment momentPaging givenCursor nextCursor
  contents Ended ReadsExactly)

inductive Role
  | user
  | assistant
  deriving DecidableEq, Repr

def Role.value : Role → Text
  | .user => text "user"
  | .assistant => text "assistant"

structure ToolUse where
  tool : Text
  deriving DecidableEq, Repr

def toolsMetadata (toolsUsed : List Text) : List ToolUse := toolsUsed.map ToolUse.mk

structure ChatTurn where
  id : UUID
  userId : UUID
  role : Role
  content : Text
  chunksUsed : List ToolUse
  createdAt : DateTime
  deriving DecidableEq

def ChatTurn.moment (turn : ChatTurn) : Moment := ⟨turn.createdAt, turn.id⟩

def ChatTurn.told (turn : ChatTurn) : Turn := ⟨turn.role.value, turn.content⟩

abbrev Turns := Table ChatTurn.id

namespace Turns

def lastN (turns : Turns) (userId : UUID) (n : Nat) : List ChatTurn :=
  ((descending ChatTurn.moment
    (turns.rows.filter fun turn => decide (turn.userId = userId))).take n).reverse

/-- `append_turn_pair`: an identifier that is taken fails both inserts. -/
def appendTurnPair (turns : Turns) (userTurn assistantTurn : ChatTurn) : Option Turns :=
  turns.insertAll [userTurn, assistantTurn]

def clearAll (turns : Turns) (userId : UUID) : Turns :=
  turns.delete fun turn => decide (turn.userId = userId)

def owned (turns : Turns) (userId : UUID) : List ChatTurn :=
  turns.rows.filter fun turn => decide (turn.userId = userId)

def conversation (turns : Turns) (userId : UUID) : List ChatTurn :=
  ascending ChatTurn.moment (turns.owned userId)

end Turns

structure ListChatHistoryQuery where
  userId : UUID
  limit : Int
  cursor : Option Text

structure ListChatHistoryResult where
  turns : List ChatTurn
  nextCursor : Option Text

namespace ListChatHistory

def encodeCursor (turn : ChatTurn) : Text := momentCursor (text "created_at") turn.moment

/-- What is not a time or an identifier makes the cursor invalid; what is not a text at all does
not get that far. -/
def decodeCursor (platform : Platform) (cursor : Text) : Except ListError Moment :=
  (readMoment platform (text "created_at") cursor).mapError fun error =>
    match error with
    | .ValueError | .KeyError => .InvalidCursorError
    | error => error

def listForUser (rows : List ChatTurn) (userId : UUID) (limit : Int) (cursor : Option Moment) :
    Except ListError (List ChatTurn) :=
  if LimitInRange limit then
    let selected := rows.filter fun turn =>
      decide (turn.userId = userId) &&
      (cursor.all fun last => decide (turn.createdAt < last.time) ||
        (decide (turn.createdAt = last.time) && decide (turn.id < last.id)))
    .ok ((descending ChatTurn.moment selected).take limit.toNat)
  else .error .StorageError

def call (platform : Platform) (rows : List ChatTurn) (query : ListChatHistoryQuery) :
    Except ListError ListChatHistoryResult := do
  let cursor ← givenCursor (decodeCursor platform) query.cursor
  let turns ← listForUser rows query.userId query.limit cursor
  let next ← nextCursor encodeCursor
    (decide (turns ≠ [] ∧ (turns.length : Int) = query.limit)) turns
  .ok ⟨turns, next⟩

def request (platform : Platform) (query : ListChatHistoryQuery) : Listing.Request ChatTurn :=
  fun cursor rows => (call platform rows { query with cursor := cursor }).map fun result =>
    (result.turns, result.nextCursor)

def paging (query : ListChatHistoryQuery) : Paging ChatTurn Moment :=
  momentPaging ChatTurn.moment (fun turn => decide (turn.userId = query.userId)) false
    query.limit.toNat

end ListChatHistory

/-! The conversation of a user. -/

namespace Turns

variable {turns next : Turns} {userId : UUID}

theorem mem_owned {turn : ChatTurn} :
    turn ∈ turns.owned userId ↔ turn ∈ turns.rows ∧ turn.userId = userId := by
  rw [owned, List.mem_filter, decide_eq_true_iff]

theorem moments_unique (turns : Turns) : (turns.rows.map ChatTurn.moment).Nodup := by
  apply List.Nodup.of_map Moment.id
  rw [List.map_map]
  exact turns.unique

theorem owned_unique (turns : Turns) (userId : UUID) :
    ((turns.owned userId).map ChatTurn.moment).Nodup :=
  turns.moments_unique.sublist (List.filter_sublist.map _)

theorem mem_conversation {turn : ChatTurn} :
    turn ∈ turns.conversation userId ↔ turn ∈ turns.rows ∧ turn.userId = userId :=
  mem_ascending.trans mem_owned

/-- The window of a chat is the end of the conversation. -/
theorem last_n_conversation (turns : Turns) (userId : UUID) (n : Nat) :
    turns.lastN userId n =
      (turns.conversation userId).drop ((turns.conversation userId).length - n) :=
  take_descending_reverse ChatTurn.moment (turns.owned userId) n

theorem append_rows {userTurn assistantTurn : ChatTurn}
    (saved : turns.appendTurnPair userTurn assistantTurn = some next) :
    next.rows = turns.rows ++ [userTurn, assistantTurn] := by
  obtain ⟨middle, one, rest⟩ := Option.bind_eq_some_iff.mp saved
  obtain ⟨last, two, ends⟩ := Option.bind_eq_some_iff.mp rest
  cases ends
  rw [(Table.insert_eq_some two).2, (Table.insert_eq_some one).2, List.append_assoc]
  rfl

end Turns

/-! The pages of the list. -/

namespace ListChatHistory

theorem list_for_user_page {query : ListChatHistoryQuery} (taken : LimitInRange query.limit)
    (cursor : Option Moment) (rows : List ChatTurn) :
    listForUser rows query.userId query.limit cursor =
      .ok ((paging query).page cursor rows).1 := by
  have behind (turn : ChatTurn) : (cursor.all fun last => decide (turn.createdAt < last.time) ||
      (decide (turn.createdAt = last.time) && decide (turn.id < last.id))) =
        cursor.all fun last => (paging query).behind last turn := by
    cases cursor with
    | none => rfl
    | some last => exact Listing.moment_less turn.moment last
  rw [listForUser, if_pos taken, Paging.page_rows, Paging.found]
  simp only [behind]
  rfl

theorem decode_written (platform : Platform) (moment : Moment) :
    decodeCursor platform (momentCursor (text "created_at") moment) = .ok moment := by
  rw [decodeCursor, Listing.read_created_at]
  rfl

theorem request_page (platform : Platform) {query : ListChatHistoryQuery}
    (positive : 0 < query.limit) (taken : LimitInRange query.limit) (cursor : Option Moment) (rows : List ChatTurn) :
    request platform query (cursor.map (momentCursor (text "created_at"))) rows =
      .ok (((paging query).page cursor rows).1,
        ((paging query).page cursor rows).2.map (momentCursor (text "created_at"))) := by
  have given : givenCursor (decodeCursor platform)
      (cursor.map (momentCursor (text "created_at"))) = .ok cursor :=
    Listing.given_written (Listing.moment_cursor_ne _) (decode_written platform) cursor
  have fetched := list_for_user_page taken cursor rows
  have limit : (paging query).limit = query.limit.toNat := rfl
  have full : decide (((paging query).page cursor rows).1 ≠ [] ∧
      (((paging query).page cursor rows).1.length : Int) = query.limit) =
        decide (((paging query).page cursor rows).1.length = (paging query).limit) := by
    rw [decide_eq_decide, limit]
    constructor
    · rintro ⟨_, full⟩
      omega
    · intro full
      refine ⟨fun empty => ?_, by omega⟩
      rw [empty, List.length_nil] at full
      omega
  have next : nextCursor encodeCursor (decide (((paging query).page cursor rows).1.length =
      (paging query).limit)) ((paging query).page cursor rows).1 =
        .ok (((paging query).page cursor rows).2.map (momentCursor (text "created_at"))) :=
    @Listing.next_cursor_full _ _ _ (paging query) rfl (by rw [limit]; omega) _ cursor rows
  simp only [request, call]
  rw [given]
  simp only [bind, Except.bind, fetched, full, next]
  rfl

/-- The first page holds the end of the conversation, from the last turn on. -/
theorem call_first (platform : Platform) (turns : Turns) (userId : UUID) {limit : Int}
    (positive : 0 < limit) (taken : LimitInRange limit) :
    ∃ next, call platform turns.rows ⟨userId, limit, none⟩ =
      .ok ⟨(turns.lastN userId limit.toNat).reverse, next⟩ := by
  have page := @request_page platform ⟨userId, limit, none⟩ positive taken none turns.rows
  have rows : ((paging ⟨userId, limit, none⟩).page none turns.rows).1 =
      (turns.lastN userId limit.toNat).reverse := by
    rw [Turns.lastN, List.reverse_reverse, Paging.page_rows, Paging.found]
    simp only [Option.all_none, Bool.and_true]
    rfl
  rw [request, rows] at page
  cases called : call platform turns.rows ⟨userId, limit, none⟩ with
  | error error =>
      rw [Option.map_none, called] at page
      cases page
  | ok result =>
      rw [Option.map_none, called] at page
      obtain ⟨same, _⟩ := Prod.mk.inj (Except.ok.inj page)
      exact ⟨result.nextCursor, by rw [← same]⟩

end ListChatHistory

/-- A user's turns are listed exactly, however many chats are stored or cleared between the
requests. -/
theorem chat_history_exact (platform : Platform) {query : ListChatHistoryQuery}
    (positive : 0 < query.limit) (taken : LimitInRange query.limit) (tables : List Turns)
    (ended : Ended (ListChatHistory.request platform query) (contents tables)) :
    ReadsExactly (ListChatHistory.request platform query) (ListChatHistory.paging query).selects
      ChatTurn.moment (contents tables) := by
  have reads := ListChatHistory.request_page platform positive taken
  have limit : 0 < query.limit.toNat := by omega
  have unique : ∀ rows ∈ contents tables, (rows.map ChatTurn.moment).Nodup :=
    Listing.contents_unique tables Moment.id fun _ => rfl
  exact Listing.moments_exact reads limit unique ended

/-- Two turns, a page each, and an empty last page. -/
theorem chat_history_exact_pair :
    let user : UUID := ⟨7, by decide⟩
    let date : Date := ⟨2024, 1, 1, by decide, by decide, by decide⟩
    let asked : ChatTurn := ⟨⟨1, by decide⟩, user, .user, text "Hello", [], ⟨date, 0, by decide⟩⟩
    let told : ChatTurn := ⟨⟨2, by decide⟩, user, .assistant, text "Hi", [], ⟨date, 5, by decide⟩⟩
    let table : Turns := ⟨[asked, told], by decide +kernel⟩
    let query : ListChatHistoryQuery := ⟨user, 1, none⟩
    ReadsExactly (ListChatHistory.request Platform.standard query)
      (ListChatHistory.paging query).selects ChatTurn.moment (contents [table, table, table]) := by
  intro user date asked told table query
  have reads := @ListChatHistory.request_page Platform.standard query (by decide) (by decide)
  have followed := follow_eq_traverse reads none (contents [table, table, table])
  have ended : Ended (ListChatHistory.request Platform.standard query)
      (contents [table, table, table]) := by
    intro traversal run
    rw [Option.map_none, run] at followed
    rw [Except.ok.inj followed]
    decide +kernel
  exact chat_history_exact Platform.standard (by decide) (by decide) [table, table, table] ended

end Yomochi.Chat
