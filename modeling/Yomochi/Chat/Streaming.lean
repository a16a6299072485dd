import Yomochi.Chat.History
import Yomochi.Chat.Sse

/-! A streamed chat from the request to the bytes of its response: what `ChatStreamUseCase` yields,
records and stores, and the events that the controller writes. -/

namespace Yomochi.Chat

open Foundation
open Sse (PyStr ServerEvent)

variable {Failure : Type}

def HISTORY_TURNS : Nat := 5

structure Stamps where
  userTurnId : UUID
  userCreatedAt : DateTime
  assistantId : UUID
  assistantCreatedAt : DateTime
  deriving DecidableEq

/-- What the model answers, round by round; its texts are strings of Python. -/
structure Script (Failure : Type) where
  round : Nat → StreamRound Failure
  valid : ∀ i, ∀ chunk ∈ (round i).chunks, ∀ choice ∈ chunk.choice, CodePoints choice.content

inductive Item
  | token (content : PyStr)
  | done (turnId contextQuality createdAt : PyStr)

/-- A call of the use case until it returns, raises or is closed: `pair` is what it hands to
`append_turn_pair`. -/
structure StreamCall (Failure : Type) where
  items : List Item
  answer : Text
  recorded : List Nat
  pair : Option (ChatTurn × ChatTurn)
  raised : Option Failure

/-- What `append_turn_pair` stores, where it does not fail. -/
def StreamCall.stored (call : StreamCall Failure) (saves : Bool) : Option (ChatTurn × ChatTurn) :=
  call.pair.filter fun _ => saves

theorem uuid_text_valid (id : UUID) : CodePoints id.str :=
  code_points_of_scalars id.str_ascii.scalars

theorem time_text_valid (time : DateTime) : CodePoints time.isoformat :=
  code_points_of_scalars time.isoformat_ascii.scalars

theorem full_valid : CodePoints (text "full") := by decide +kernel

def uuidText (id : UUID) : PyStr := ⟨id.str, uuid_text_valid id⟩

def timeText (time : DateTime) : PyStr := ⟨time.isoformat, time_text_valid time⟩

def fullText : PyStr := ⟨text "full", full_valid⟩

/-! The texts of a stream. -/

theorem mem_pieces {round : StreamRound Failure} {said : Text} (member : said ∈ pieces round) :
    ∃ chunk ∈ round.chunks, ∃ choice ∈ chunk.choice, choice.content = said ∧ said ≠ [] := by
  obtain ⟨chunk, inside, found⟩ := List.mem_filterMap.mp member
  obtain ⟨choice, given, kept⟩ := Option.bind_eq_some_iff.mp found
  split at kept
  · cases kept
  · rename_i some
    cases kept
    exact ⟨chunk, inside, choice, given, rfl, some⟩

/-- Every text that is yielded is a piece of a round. -/
theorem mem_stream_texts {script : Nat → StreamRound Failure}
    {execute : Nat → ToolCall → Except Failure Text} {remaining i : Nat} {p : Progress}
    {said : Text} (member : said ∈ textsOf (streamRounds script execute remaining i p).1) :
    ∃ j, said ∈ pieces (script j) := by
  induction remaining generalizing i p with
  | zero =>
      cases failed : (script i).failure with
      | some failure =>
          rw [stream_broken failed, texts_of_round] at member
          exact ⟨i, member⟩
      | none =>
          rw [stream_answers failed (.inl rfl), texts_of_append, texts_of_round] at member
          exact ⟨i, (List.mem_append.mp member).resolve_right List.not_mem_nil⟩
  | succ remaining ih =>
      cases round_end (execute i) (script i) with
      | broken failure failed =>
          rw [stream_broken failed, texts_of_round] at member
          exact ⟨i, member⟩
      | answers complete final =>
          rw [stream_answers complete (.inr final), texts_of_append, texts_of_round] at member
          exact ⟨i, (List.mem_append.mp member).resolve_right List.not_mem_nil⟩
      | raises complete raised =>
          rw [stream_raises complete raised, texts_of_round] at member
          exact ⟨i, member⟩
      | passes passed =>
          obtain ⟨next, _, rounds⟩ := stream_passes remaining i p passed
          rw [rounds, Trace.after, texts_of_append, texts_of_append, texts_of_round] at member
          rcases List.mem_append.mp member with here | later
          · exact ⟨i, (List.mem_append.mp here).resolve_right List.not_mem_nil⟩
          · exact ih later

/-- A client that is gone at the `n`-th yield has got the texts up to it. -/
theorem until_yield_take (n : Nat) (events : List Event) :
    textsOf (untilYield n events) = (textsOf events).take (n + 1) := by
  induction events generalizing n with
  | nil => rfl
  | cons event events ih =>
      cases event with
      | text chunk =>
          cases n with
          | zero => rfl
          | succ n => exact congrArg (chunk :: ·) (ih n)
      | sends messages => cases n <;> exact ih _
      | received usage => cases n <;> exact ih _
      | report usage toolsUsed => cases n <;> exact ih _

theorem until_disconnect_front (disconnect : Option Nat) (events : List Event) :
    textsOf (untilDisconnect disconnect events) <+: textsOf events := by
  cases disconnect with
  | none => exact List.prefix_refl _
  | some n =>
      rw [untilDisconnect, until_yield_take]
      exact List.take_prefix _ _

def streamTrace (request : Request Failure) (history : List Turn) (script : Script Failure) :
    Trace Failure :=
  streamWithTools script.round request.execute (iterationCap request.maxToolIterations)
    (buildToolsMessages request.system history request.message)

theorem yielded_valid (request : Request Failure) (history : List Turn) (script : Script Failure)
    (disconnect : Option Nat) :
    ∀ chunk ∈ textsOf (untilDisconnect disconnect (streamTrace request history script).1),
      CodePoints chunk := by
  intro chunk member
  have yielded := (until_disconnect_front disconnect _).subset member
  obtain ⟨j, inside⟩ := mem_stream_texts yielded
  obtain ⟨piece, received, choice, given, same, _⟩ := mem_pieces inside
  rw [← same]
  exact script.valid j piece received choice given

/-! The use case. -/

def Gone (disconnect : Option Nat) (texts : List Text) : Prop :=
  ∃ n ∈ disconnect, n < texts.length

instance (disconnect : Option Nat) (texts : List Text) : Decidable (Gone disconnect texts) :=
  match disconnect with
  | none => .isFalse nofun
  | some n => decidable_of_iff (n < texts.length) (by simp [Gone])

def tokenItems (texts : List Text) (valid : ∀ chunk ∈ texts, CodePoints chunk) : List Item :=
  texts.pmap (fun content valid => Item.token ⟨content, valid⟩) valid

theorem token_items (texts : List Text) (valid : ∀ chunk ∈ texts, CodePoints chunk) :
    ∃ strings : List PyStr, strings.map PyStr.value = texts ∧
      tokenItems texts valid = strings.map Item.token := by
  refine ⟨texts.pmap PyStr.mk valid, ?_, ?_⟩
  · rw [List.map_pmap]
    exact List.pmap_eq_self.mpr fun _ _ => rfl
  · rw [List.map_pmap]
    rfl

def toolsOf (events : List Event) : List Text := ((lastReport events).map Prod.snd).getD []

def userTurn (userId : UUID) (message : Text) (stamps : Stamps) : ChatTurn :=
  ⟨stamps.userTurnId, userId, .user, message, [], stamps.userCreatedAt⟩

def assistantTurn (userId : UUID) (answer : Text) (toolsUsed : List Text) (stamps : Stamps) :
    ChatTurn :=
  ⟨stamps.assistantId, userId, .assistant, answer, toolsMetadata toolsUsed,
    stamps.assistantCreatedAt⟩

def doneItem (stamps : Stamps) (stored : Bool) : Item :=
  .done (uuidText stamps.assistantId) fullText
    (timeText (if stored then stamps.assistantCreatedAt else stamps.userCreatedAt))

/-- `ChatStreamUseCase`: `saves` tells whether the pair can be stored. What fails in the `finally`
block is logged only. -/
def chatStreamUseCase (request : Request Failure) (userId : UUID) (stamps : Stamps)
    (script : Script Failure) (disconnect : Option Nat) (saves : Bool) : StreamCall Failure :=
  match request.check, request.history with
  | .error failure, _ => ⟨[], [], [], none, some failure⟩
  | .ok _, .error failure => ⟨[], [], [], none, some failure⟩
  | .ok _, .ok history =>
      let trace := streamTrace request history script
      let events := untilDisconnect disconnect trace.1
      let tokens := tokenItems (textsOf events) (yielded_valid request history script disconnect)
      let answer := textOf events
      let recorded := record (tokensToRecord request.message history events)
      let pair := if answer = [] then none
        else some (userTurn userId request.message stamps,
          assistantTurn userId answer (toolsOf events) stamps)
      if Gone disconnect (textsOf trace.1) then ⟨tokens, answer, recorded, pair, none⟩
      else
        match trace.2 with
        | some failure => ⟨tokens, answer, recorded, pair, some failure⟩
        | none =>
            ⟨tokens ++ [doneItem stamps (decide (answer ≠ []) && saves)], answer, recorded, pair,
              none⟩

/-- A client that stays gets the answer piece by piece, and at the end of a stream that did not
raise the identifier of its turn. -/
theorem stream_call_items (request : Request Failure) (userId : UUID) (stamps : Stamps)
    (script : Script Failure) (saves : Bool) :
    let call := chatStreamUseCase request userId stamps script none saves
    ∃ texts : List PyStr, (texts.map PyStr.value).flatten = call.answer ∧
      call.items = texts.map Item.token ++
        match call.raised with
        | none => [doneItem stamps (decide (call.answer ≠ []) && saves)]
        | some _ => [] := by
  intro call
  cases checked : request.check with
  | error failure =>
      have shape : call = ⟨[], [], [], none, some failure⟩ := by
        simp only [call, chatStreamUseCase, checked]
      rw [shape]
      exact ⟨[], rfl, rfl⟩
  | ok allowed =>
      cases loaded : request.history with
      | error failure =>
          have shape : call = ⟨[], [], [], none, some failure⟩ := by
            simp only [call, chatStreamUseCase, checked, loaded]
          rw [shape]
          exact ⟨[], rfl, rfl⟩
      | ok history =>
          have stays (texts : List Text) : ¬ Gone none texts := nofun
          obtain ⟨texts, same, tokens⟩ :=
            token_items _ (yielded_valid request history script none)
          have answer : (texts.map PyStr.value).flatten =
              textOf (untilDisconnect none (streamTrace request history script).1) := by
            rw [text_of_flatten, same]
          refine ⟨texts, ?_⟩
          cases ends : (streamTrace request history script).2 with
          | some failure =>
              simp only [call, chatStreamUseCase, checked, loaded, stays, if_false, ends]
              exact ⟨answer, tokens.trans (List.append_nil _).symm⟩
          | none =>
              simp only [call, chatStreamUseCase, checked, loaded, stays, if_false, ends]
              exact ⟨answer, congrArg (· ++ _) tokens⟩

theorem stream_call_pair (request : Request Failure) (userId : UUID) (stamps : Stamps)
    (script : Script Failure) (disconnect : Option Nat) (saves : Bool) :
    let call := chatStreamUseCase request userId stamps script disconnect saves
    ∃ toolsUsed, call.pair = if call.answer = [] then none
      else some (userTurn userId request.message stamps,
        assistantTurn userId call.answer toolsUsed stamps) := by
  intro call
  cases checked : request.check with
  | error failure =>
      refine ⟨[], ?_⟩
      simp only [call, chatStreamUseCase, checked, if_true]
  | ok allowed =>
      cases loaded : request.history with
      | error failure =>
          refine ⟨[], ?_⟩
          simp only [call, chatStreamUseCase, checked, loaded, if_true]
      | ok history =>
          let trace := streamTrace request history script
          refine ⟨toolsOf (untilDisconnect disconnect trace.1), ?_⟩
          simp only [call, chatStreamUseCase, checked, loaded]
          split
          · rfl
          · split
            · rfl
            · rfl

theorem stream_call_recorded (request : Request Failure) (userId : UUID) (stamps : Stamps)
    (script : Script Failure) (disconnect : Option Nat) (saves : Bool) :
    (chatStreamUseCase request userId stamps script disconnect saves).recorded =
      (chatStream request script.round disconnect).recorded := by
  cases checked : request.check with
  | error failure =>
      simp only [chatStreamUseCase, chatStream, checked]
      rfl
  | ok allowed =>
      cases loaded : request.history with
      | error failure =>
          simp only [chatStreamUseCase, chatStream, checked, loaded]
          rfl
      | ok history =>
          simp only [chatStreamUseCase, chatStream, checked, loaded]
          split
          · rfl
          · split
            · rfl
            · rfl

/-! The controller. -/

def Item.event : Item → ServerEvent
  | .token content => .token content
  | .done turnId contextQuality createdAt => .done turnId contextQuality createdAt

inductive Ending
  | complete
  | cut
  deriving DecidableEq, Repr

/-- `generate`: an `OpenAICallError` becomes an event, everything else breaks the response off. -/
def generate (openAI : Failure → Bool) (call : StreamCall Failure) : List ServerEvent × Ending :=
  let events := call.items.map Item.event
  match call.raised with
  | none => (events, .complete)
  | some failure => if openAI failure then (events ++ [.error], .complete) else (events, .cut)

end Yomochi.Chat
