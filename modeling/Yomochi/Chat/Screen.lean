import Yomochi.Chat.Streaming

/-! The chat in the browser: what `useStreamChat` makes of a reply, whatever chunks it comes in. -/

namespace Yomochi.Chat

open Foundation
open Sse (PyStr JsValue JsError SSEEvent ServerEvent emitted parseSSEBuffer trim newline
  errorMessage)

structure Runtime where
  toText : Json → Text
  truthy : Json → Bool

structure ChatMessage where
  id : Text
  role : Role
  content : List Nat
  contextQuality : JsValue
  createdAt : JsValue
  turnId : JsValue

structure Screen where
  messages : List ChatMessage
  isStreaming : Bool
  streamError : Option JsValue
  toasts : Nat

inductive Closing
  | done
  | failed
  | aborted
  deriving DecidableEq, Repr

/-- What `fetch` gives: `detail` is that of the error's body, undefined where there is none. -/
inductive Fetched
  | unreachable
  | aborted
  | refused (status : Nat) (detail : JsValue)
  | bodyless
  | streamed (chunks : List Text) (closing : Closing)

/-- The history that was asked for when the chat was opened, as it comes while a message is under
way: behind `after` chunks of the reply. -/
structure Load where
  after : Nat
  items : Option (List ChatMessage)

/-! Values of JavaScript. -/

/-- `value ?? other`. -/
def coalesce (value other : JsValue) : JsValue :=
  match value with
  | .undefined | .null => other
  | value => value

/-- `content + value`. -/
def plus (runtime : Runtime) (content : List Nat) : JsValue → List Nat
  | .undefined => content ++ text "undefined"
  | .null => content ++ text "null"
  | .string units => content ++ units
  | .other value => content ++ runtime.toText value

def truthy (runtime : Runtime) : JsValue → Bool
  | .undefined | .null => false
  | .string units => decide (units ≠ [])
  | .other value => runtime.truthy value

/-! The hook. -/

namespace Screen

def update (screen : Screen) (id : Text) (change : ChatMessage → ChatMessage) : Screen :=
  { screen with messages := screen.messages.map fun message =>
      if message.id = id then change message else message }

def remove (screen : Screen) (ids : List Text) : Screen :=
  { screen with messages := screen.messages.filter fun message => decide (message.id ∉ ids) }

def fail (screen : Screen) (message : JsValue) : Screen :=
  { screen with streamError := some message }

def handleSSEEvent (runtime : Runtime) (assistantId : Text) (screen : Screen) : SSEEvent → Screen
  | .token content =>
      screen.update assistantId fun message =>
        { message with content := plus runtime message.content content }
  | .done turnId contextQuality createdAt saveFailed =>
      let screen := screen.update assistantId fun message =>
        { message with
          turnId := coalesce turnId message.turnId
          contextQuality := coalesce contextQuality message.contextQuality
          createdAt := coalesce createdAt message.createdAt }
      if truthy runtime saveFailed then { screen with toasts := screen.toasts + 1 } else screen
  | .error message => (screen.fail message).remove [assistantId]

def loadHistory (screen : Screen) (load : Load) : Screen :=
  { screen with messages := load.items.getD screen.messages }

/-- The read loop; an exception of `parseSSEBuffer` leaves it. -/
def readLoop (runtime : Runtime) (assistantId : Text) :
    Screen → Text → List Text → Screen × Except JsError Text
  | screen, buffer, [] => (screen, .ok buffer)
  | screen, buffer, chunk :: chunks =>
      match parseSSEBuffer (buffer ++ chunk) with
      | .error error => (screen, .error error)
      | .ok (events, remainder) =>
          readLoop runtime assistantId (events.foldl (handleSSEEvent runtime assistantId) screen)
            remainder chunks

def readBeside (runtime : Runtime) (assistantId : Text) (screen : Screen) (chunks : List Text) :
    Option Load → Screen × Except JsError Text
  | none => readLoop runtime assistantId screen [] chunks
  | some load =>
      match readLoop runtime assistantId screen [] (chunks.take load.after) with
      | (screen, .error error) => (screen, .error error)
      | (screen, .ok buffer) =>
          readLoop runtime assistantId (screen.loadHistory load) buffer (chunks.drop load.after)

def finish (runtime : Runtime) (assistantId : Text) (screen : Screen) (buffer : Text) :
    Screen × Except JsError Unit :=
  if buffer = [] then (screen, .ok ())
  else
    match parseSSEBuffer buffer with
    | .error error => (screen, .error error)
    | .ok (events, _) => (events.foldl (handleSSEEvent runtime assistantId) screen, .ok ())

def question (source : List Nat) (userId : Text) : ChatMessage :=
  ⟨userId, .user, source, .undefined, .undefined, .undefined⟩

def pending (assistantId : Text) : ChatMessage :=
  ⟨assistantId, .assistant, [], .undefined, .undefined, .undefined⟩

def optimistic (screen : Screen) (source : List Nat) (userId assistantId : Text) : Screen :=
  { screen with
    streamError := none
    messages := screen.messages ++ [question source userId, pending assistantId] }

def connectionMessage : String := "Connection error. Please try again."

def failedMessage : String := "Failed to send message."

def limitMessage : String := "Rate limit exceeded. Maximum 20 messages per minute."

def caught (screen : Screen) (userId assistantId : Text) : Screen :=
  (screen.fail (.string (text connectionMessage))).remove [userId, assistantId]

def take (runtime : Runtime) (screen : Screen) (userId assistantId : Text) (load : Option Load)
    (reply : Fetched) : Screen :=
  -- A reply without a body is there at once.
  let loaded := load.elim screen screen.loadHistory
  match reply with
  | .unreachable => loaded.caught userId assistantId
  | .aborted => loaded
  | .refused status detail =>
      (loaded.remove [userId, assistantId]).fail
        (if status = 429 then .string (text limitMessage)
          else coalesce detail (.string (text failedMessage)))
  | .bodyless => loaded
  | .streamed chunks closing =>
      match readBeside runtime assistantId screen chunks load with
      | (screen, .error _) => screen.caught userId assistantId
      | (screen, .ok buffer) =>
          match closing with
          | .failed => screen.caught userId assistantId
          | .aborted => screen
          | .done =>
              match finish runtime assistantId screen buffer with
              | (screen, .error _) => screen.caught userId assistantId
              | (screen, .ok _) => screen

/-- `send`: the identifiers are those that `crypto.randomUUID` makes, and `load` is the history
where it comes before the end. -/
def send (runtime : Runtime) (screen : Screen) (source : List Nat) (userId assistantId : Text)
    (load : Option Load) (reply : Fetched) : Screen :=
  if screen.isStreaming || decide (trim source = []) then screen
  else
    let settled := take runtime (screen.optimistic source userId assistantId) userId assistantId
      load reply
    { settled with isStreaming := false }

/-! One reply, whatever its chunks. -/

section Handling

variable {runtime : Runtime} {assistantId : Text}

/-- The chunks that were received have been handled, event by event. -/
theorem read_loop_received {chunks : List Text} {client last : Sse.Client}
    (received : chunks.foldlM Sse.receive client = .ok last) (screen : Screen) :
    ∃ events, last.handled = client.handled ++ events ∧
      readLoop runtime assistantId screen client.buffer chunks =
        (events.foldl (handleSSEEvent runtime assistantId) screen, .ok last.buffer) := by
  induction chunks generalizing client screen with
  | nil =>
      cases received
      exact ⟨[], (List.append_nil _).symm, rfl⟩
  | cons chunk chunks ih =>
      rw [List.foldlM_cons] at received
      cases parsed : parseSSEBuffer (client.buffer ++ chunk) with
      | error error =>
          have failed : Sse.receive client chunk = .error error := by
            simp only [Sse.receive, parsed]
            rfl
          rw [failed] at received
          cases received
      | ok read =>
          obtain ⟨events, remainder⟩ := read
          have step : Sse.receive client chunk = .ok ⟨remainder, client.handled ++ events⟩ := by
            simp only [Sse.receive, parsed]
            rfl
          rw [step] at received
          obtain ⟨later, all, rest⟩ := ih received
            (events.foldl (handleSSEEvent runtime assistantId) screen)
          refine ⟨events ++ later, ?_, ?_⟩
          · rw [all, List.append_assoc]
          · simp only [readLoop, parsed]
            rw [List.foldl_append]
            exact rest

/-- A body that arrives whole is read as the events that were written. -/
theorem received_emitted {events : List ServerEvent} {chunks : List Text}
    (cut : chunks.flatten = emitted events) :
    chunks.foldlM Sse.receive ⟨[], []⟩ = .ok ⟨[], events.map ServerEvent.seen⟩ := by
  have clean : ∀ block ∈ events.map ServerEvent.body, newline ∉ block := by
    intro block member
    obtain ⟨event, _, rfl⟩ := List.mem_map.mp member
    exact Sse.body_clean event
  have arrive := feed_pieces_framed clean (.inl List.not_mem_nil)
    (cut.trans (Sse.emitted_framed events))
  exact Sse.receive_pieces arrive (Sse.parse_blocks_bodies events) []

theorem read_loop_emitted {events : List ServerEvent} {chunks : List Text}
    (cut : chunks.flatten = emitted events) (screen : Screen) :
    readLoop runtime assistantId screen [] chunks =
      ((events.map ServerEvent.seen).foldl (handleSSEEvent runtime assistantId) screen,
        .ok []) := by
  obtain ⟨handled, all, read⟩ :=
    @read_loop_received runtime assistantId _ _ _ (received_emitted cut) screen
  have all : events.map ServerEvent.seen = handled := all
  rw [all]
  exact read

/-- The messages that were there before have other identifiers. -/
def Fresh (messages : List ChatMessage) (ids : List Text) : Prop :=
  ∀ message ∈ messages, message.id ∉ ids

def writing (screen : Screen) (front : List ChatMessage) (message : ChatMessage) : Screen :=
  { screen with messages := front ++ [message] }

theorem update_writing {front : List ChatMessage} {message : ChatMessage}
    (fresh : Fresh front [message.id]) (change : ChatMessage → ChatMessage) (screen : Screen) :
    (screen.writing front message).update message.id change =
      screen.writing front (change message) := by
  have same : front.map (fun other => if other.id = message.id then change other else other) =
      front := by
    refine (List.map_congr_left fun other member => ?_).trans (List.map_id _)
    exact if_neg fun equal => fresh other member (List.mem_singleton.mpr equal)
  simp only [update, writing, List.map_append, same, List.map_singleton, if_true]

theorem remove_messages {front extra : List ChatMessage} {ids : List Text}
    (fresh : Fresh front ids) (known : ∀ message ∈ extra, message.id ∈ ids) (screen : Screen) :
    ({ screen with messages := front ++ extra } : Screen).remove ids =
      { screen with messages := front } := by
  have kept : front.filter (fun message => decide (message.id ∉ ids)) = front := by
    apply List.filter_eq_self.mpr
    intro message member
    exact decide_eq_true (fresh message member)
  have gone : extra.filter (fun message => decide (message.id ∉ ids)) = [] := by
    apply List.filter_eq_nil_iff.mpr
    intro message member
    simp [known message member]
  simp only [remove, List.filter_append, kept, gone, List.append_nil]

theorem fresh_mono {messages : List ChatMessage} {ids fewer : List Text}
    (fresh : Fresh messages ids) (subset : fewer ⊆ ids) : Fresh messages fewer :=
  fun message member known => fresh message member (subset known)

/-- An event finds nothing to change among messages that do not have its identifier. -/
theorem handle_unknown {items : List ChatMessage} (fresh : Fresh items [assistantId])
    (screen : Screen) (event : SSEEvent) :
    handleSSEEvent runtime assistantId { screen with messages := items } event =
      { handleSSEEvent runtime assistantId screen event with messages := items } := by
  have updated (change : ChatMessage → ChatMessage) :
      items.map (fun message => if message.id = assistantId then change message else message) =
        items := by
    refine (List.map_congr_left fun other member => ?_).trans (List.map_id _)
    exact if_neg fun equal => fresh other member (List.mem_singleton.mpr equal)
  cases event with
  | token content => simp only [handleSSEEvent, update, updated]
  | done turnId contextQuality createdAt saveFailed =>
      simp only [handleSSEEvent, update, updated]
      split <;> rfl
  | error message =>
      have kept : items.filter (fun message => decide (message.id ∉ [assistantId])) = items :=
        List.filter_eq_self.mpr fun message member => decide_eq_true (fresh message member)
      simp only [handleSSEEvent, remove, fail, kept]

theorem handled_unknown {items : List ChatMessage} (fresh : Fresh items [assistantId])
    (screen : Screen) (events : List SSEEvent) :
    events.foldl (handleSSEEvent runtime assistantId) { screen with messages := items } =
      { events.foldl (handleSSEEvent runtime assistantId) screen with messages := items } := by
  induction events generalizing screen with
  | nil => rfl
  | cons event events ih => rw [List.foldl_cons, handle_unknown fresh, ih, List.foldl_cons]

/-- The history that comes while a reply is read replaces what the reply has written, and the rest
of it finds no message any more. -/
theorem read_beside_emitted {events : List ServerEvent} {chunks : List Text}
    (cut : chunks.flatten = emitted events) (screen : Screen) {load : Load}
    (fresh : ∀ items ∈ load.items, Fresh items [assistantId]) :
    readBeside runtime assistantId screen chunks (some load) =
      let read := (events.map ServerEvent.seen).foldl (handleSSEEvent runtime assistantId) screen
      ({ read with messages := load.items.getD read.messages }, .ok []) := by
  have received := received_emitted cut
  rw [← List.take_append_drop load.after chunks, List.foldlM_append] at received
  cases middle : (chunks.take load.after).foldlM Sse.receive ⟨[], []⟩ with
  | error error =>
      rw [middle] at received
      cases received
  | ok client =>
      rw [middle] at received
      obtain ⟨first, before, front⟩ :=
        @read_loop_received runtime assistantId _ _ _ middle screen
      have rest : (chunks.drop load.after).foldlM Sse.receive client =
          .ok ⟨[], events.map ServerEvent.seen⟩ := received
      obtain ⟨second, after, back⟩ := @read_loop_received runtime assistantId _ _ _ rest
        ((first.foldl (handleSSEEvent runtime assistantId) screen).loadHistory load)
      have before : client.handled = first := before
      have all : events.map ServerEvent.seen = first ++ second := by
        rw [← before]
        exact after
      simp only [readBeside, front, back, all, List.foldl_append]
      cases given : load.items with
      | none => simp [loadHistory, given]
      | some items =>
          simp only [loadHistory, given, Option.getD_some]
          rw [handled_unknown (fresh items given)]

theorem handle_tokens {front : List ChatMessage} {message : ChatMessage}
    (fresh : Fresh front [message.id]) (screen : Screen) (texts : List PyStr) :
    (texts.map fun content => (ServerEvent.token content).seen).foldl
        (handleSSEEvent runtime message.id) (screen.writing front message) =
      screen.writing front { message with
        content := message.content ++ utf16 (texts.map PyStr.value).flatten } := by
  induction texts generalizing message with
  | nil =>
      simp only [utf16, List.map_nil, List.flatten_nil, List.flatMap_nil, List.append_nil]
      rfl
  | cons content texts ih =>
      have grown : handleSSEEvent runtime message.id (screen.writing front message)
          (ServerEvent.token content).seen =
            screen.writing front { message with
              content := message.content ++ utf16 content.value } :=
        update_writing fresh _ screen
      rw [List.map_cons, List.foldl_cons, grown]
      have later := @ih { message with content := message.content ++ utf16 content.value } fresh
      rw [later]
      simp only [utf16, List.map_cons, List.flatten_cons, List.flatMap_append, List.append_assoc]

theorem handle_done {front : List ChatMessage} {message : ChatMessage}
    (fresh : Fresh front [message.id]) (screen : Screen) (turnId quality createdAt : PyStr) :
    handleSSEEvent runtime message.id (screen.writing front message)
        (ServerEvent.done turnId quality createdAt).seen =
      screen.writing front { message with
        turnId := .string (utf16 turnId.value)
        contextQuality := .string (utf16 quality.value)
        createdAt := .string (utf16 createdAt.value) } :=
  update_writing fresh _ screen

end Handling

/-! A whole chat. -/

def answered (answer : Text) (assistantId : Text) (stamps : Stamps) (stored : Bool) : ChatMessage :=
  ⟨assistantId, .assistant, utf16 answer, .string (utf16 (text "full")),
    .string (utf16 (if stored then stamps.assistantCreatedAt
      else stamps.userCreatedAt).isoformat), .string (utf16 stamps.assistantId.str)⟩

variable {Failure : Type}

/-- What the user is to see of a call: the question with the whole answer, the question alone when
the model could not be reached, and nothing when the response broke off. -/
def outcome (openAI : Failure → Bool) (screen : Screen) (source : List Nat)
    (userId assistantId : Text) (stamps : Stamps) (saves : Bool) (call : StreamCall Failure) :
    Screen :=
  match call.raised with
  | none =>
      { screen with
        streamError := none
        messages := screen.messages ++ [question source userId,
          answered call.answer assistantId stamps (decide (call.answer ≠ []) && saves)] }
  | some failure =>
      if openAI failure then
        { screen with
          streamError := some (.string (text errorMessage))
          messages := screen.messages ++ [question source userId] }
      else { screen with streamError := some (.string (text connectionMessage)) }

section Replies

variable {runtime : Runtime} {openAI : Failure → Bool} {screen : Screen} {source : List Nat}
  {userId assistantId : Text}

theorem update_kept (screen : Screen) {change : ChatMessage → ChatMessage} {ids : List Text}
    (keeps : ∀ message, (change message).id = message.id) (known : assistantId ∈ ids) :
    ((screen.update assistantId change).remove ids).messages = (screen.remove ids).messages := by
  simp only [remove, update]
  induction screen.messages with
  | nil => rfl
  | cons message messages ih =>
      rw [List.map_cons, List.filter_cons, List.filter_cons, ih]
      by_cases written : message.id = assistantId
      · have gone : message.id ∈ ids := written ▸ known
        simp [written, keeps, known]
      · simp [written]

theorem handle_kept (screen : Screen) (event : SSEEvent) {ids : List Text}
    (known : assistantId ∈ ids) :
    ((handleSSEEvent runtime assistantId screen event).remove ids).messages =
      (screen.remove ids).messages := by
  cases event with
  | token content =>
      apply update_kept screen _ known
      intro message
      rfl
  | done turnId contextQuality createdAt saveFailed =>
      simp only [handleSSEEvent]
      split
      · exact update_kept screen (fun _ => rfl) known
      · exact update_kept screen (fun _ => rfl) known
  | error message =>
      simp only [handleSSEEvent, remove, fail, List.filter_filter]
      apply List.filter_congr
      intro other _
      by_cases inside : other.id ∈ ids
      · simp [inside]
      · have different : other.id ≠ assistantId := fun same => inside (same ▸ known)
        simp [inside, different]

theorem handled_kept (events : List SSEEvent) (screen : Screen) {ids : List Text}
    (known : assistantId ∈ ids) :
    ((events.foldl (handleSSEEvent runtime assistantId) screen).remove ids).messages =
      (screen.remove ids).messages := by
  induction events generalizing screen with
  | nil => rfl
  | cons event events ih =>
      rw [List.foldl_cons, ih, handle_kept screen event known]

theorem read_loop_kept (chunks : List Text) (screen : Screen) (buffer : Text) {ids : List Text}
    (known : assistantId ∈ ids) :
    ((readLoop runtime assistantId screen buffer chunks).1.remove ids).messages =
      (screen.remove ids).messages := by
  induction chunks generalizing screen buffer with
  | nil => rfl
  | cons chunk chunks ih =>
      simp only [readLoop]
      split
      · rfl
      · rw [ih, handled_kept _ screen known]

theorem known_ids (source : List Nat) (userId assistantId : Text) :
    ∀ message ∈ [question source userId, pending assistantId],
      message.id ∈ [userId, assistantId] := by
  intro message member
  rcases List.mem_cons.mp member with rfl | last
  · exact List.mem_cons_self
  · rw [List.mem_singleton.mp last]
    exact List.mem_cons_of_mem _ List.mem_cons_self

/-- Without the two messages under way, a reading leaves those that were there or came. -/
theorem read_beside_kept (chunks : List Text) (screen : Screen) {ids : List Text}
    (known : assistantId ∈ ids) (load : Option Load)
    (fresh : ∀ loaded ∈ load, ∀ items ∈ loaded.items, Fresh items ids) :
    let left := ((readBeside runtime assistantId screen chunks load).1.remove ids).messages
    left = (screen.remove ids).messages ∨
      ∃ loaded ∈ load, left = loaded.items.getD (screen.remove ids).messages := by
  intro left
  cases load with
  | none => exact .inl (read_loop_kept chunks screen [] known)
  | some load =>
      have before : ((readLoop runtime assistantId screen [] (chunks.take load.after)).1.remove
          ids).messages = (screen.remove ids).messages :=
        read_loop_kept _ screen [] known
      cases front : readLoop runtime assistantId screen [] (chunks.take load.after) with
      | mk middle result =>
          rw [front] at before
          cases result with
          | error error =>
              have same : left = (middle.remove ids).messages := by simp only [left, readBeside, front]
              exact .inl (same.trans before)
          | ok buffer =>
              have same : left = ((middle.loadHistory load).remove ids).messages := by
                simp only [left, readBeside, front]
                exact read_loop_kept _ _ buffer known
              refine .inr ⟨load, rfl, ?_⟩
              cases given : load.items with
              | none => simpa [same, loadHistory, given] using before
              | some items =>
                  have kept : items.filter (fun message => decide (message.id ∉ ids)) = items :=
                    List.filter_eq_self.mpr fun message member =>
                      decide_eq_true (fresh load rfl items given message member)
                  simpa [same, loadHistory, given, remove] using kept

/-- A reading that fails takes both messages back, whatever had arrived. -/
theorem broken_reply (idle : screen.isStreaming = false) (written : trim source ≠ [])
    (fresh : Fresh screen.messages [userId, assistantId]) (chunks : List Text)
    (load : Option Load)
    (others : ∀ loaded ∈ load, ∀ items ∈ loaded.items, Fresh items [userId, assistantId]) :
    let after := send runtime screen source userId assistantId load (.streamed chunks .failed)
    after.messages = screen.messages ∨
      ∃ loaded ∈ load, after.messages = loaded.items.getD screen.messages := by
  intro after
  let start := screen.optimistic source userId assistantId
  let read := readBeside runtime assistantId start chunks load
  have shape : after = { read.1.caught userId assistantId with isStreaming := false } := by
    simp only [after, send, idle, written, decide_false, Bool.or_false, Bool.false_eq_true,
      if_false, take]
    split
    · rename_i loop
      rw [show read = (_, _) from loop]
    · rename_i loop
      rw [show read = (_, _) from loop]
  have kept := @read_beside_kept runtime assistantId chunks start [userId, assistantId] (by simp)
    load others
  have removed := remove_messages fresh (known_ids source userId assistantId) start
  have same : (start.remove [userId, assistantId]).messages = screen.messages := by
    have messages := congrArg Screen.messages removed
    exact messages
  rw [same] at kept
  rw [shape]
  exact kept

theorem send_emitted (idle : screen.isStreaming = false) (written : trim source ≠ [])
    {events : List ServerEvent} {chunks : List Text} (cut : chunks.flatten = emitted events) :
    send runtime screen source userId assistantId none (.streamed chunks .done) =
      { (events.map ServerEvent.seen).foldl (handleSSEEvent runtime assistantId)
          (screen.optimistic source userId assistantId) with isStreaming := false } := by
  have read := @read_loop_emitted runtime assistantId events chunks cut
    (screen.optimistic source userId assistantId)
  simp only [send, idle, written, decide_false, Bool.or_false, Bool.false_eq_true, if_false,
    take, readBeside, read, finish, if_true]

theorem loaded_reply (idle : screen.isStreaming = false) (written : trim source ≠ [])
    {events : List ServerEvent} {chunks : List Text} (cut : chunks.flatten = emitted events)
    {load : Load} (fresh : ∀ items ∈ load.items, Fresh items [assistantId]) :
    let whole := send runtime screen source userId assistantId none (.streamed chunks .done)
    send runtime screen source userId assistantId (some load) (.streamed chunks .done) =
      { whole with messages := load.items.getD whole.messages } := by
  intro whole
  have read := @read_beside_emitted runtime assistantId events chunks cut
    (screen.optimistic source userId assistantId) load fresh
  simp only [whole]
  rw [send_emitted idle written cut]
  simp only [send, idle, written, decide_false, Bool.or_false, Bool.false_eq_true, if_false,
    take, read, finish, if_true]

theorem question_fresh (fresh : Fresh screen.messages [userId, assistantId])
    (different : userId ≠ assistantId) :
    Fresh (screen.messages ++ [question source userId]) [assistantId] := by
  intro message member
  rw [List.mem_singleton]
  rcases List.mem_append.mp member with before | last
  · intro same
    apply fresh message before
    rw [same]
    exact List.mem_cons_of_mem _ List.mem_cons_self
  · rw [List.mem_singleton.mp last]
    exact different

theorem optimistic_writing (screen : Screen) (source : List Nat) (userId assistantId : Text) :
    screen.optimistic source userId assistantId =
      { screen with streamError := none }.writing
        (screen.messages ++ [question source userId]) (pending assistantId) := by
  simp only [optimistic, writing, List.append_assoc, List.singleton_append]

theorem handle_call (fresh : Fresh screen.messages [userId, assistantId])
    (different : userId ≠ assistantId) (texts : List PyStr) (last : ServerEvent) :
    (((texts.map Item.token).map Item.event ++ [last]).map ServerEvent.seen).foldl
        (handleSSEEvent runtime assistantId) (screen.optimistic source userId assistantId) =
      handleSSEEvent runtime assistantId
        ({ screen with streamError := none }.writing
          (screen.messages ++ [question source userId])
          { pending assistantId with content := utf16 (texts.map PyStr.value).flatten })
        last.seen := by
  have apart := @question_fresh screen source userId assistantId fresh different
  have spoken := @handle_tokens runtime _ (pending assistantId) apart
    { screen with streamError := none } texts
  have tokens : ((texts.map Item.token).map Item.event).map ServerEvent.seen =
      texts.map fun content => (ServerEvent.token content).seen := by
    rw [List.map_map, List.map_map]
    rfl
  rw [List.map_append, List.foldl_append, tokens, optimistic_writing]
  exact congrArg (fun screen => handleSSEEvent runtime assistantId screen last.seen) spoken

/-- A response that is read to its end leads to the outcome of the call. -/
theorem whole_reply {call : StreamCall Failure} {stamps : Stamps} {saves : Bool}
    {texts : List PyStr} (idle : screen.isStreaming = false) (written : trim source ≠ [])
    (fresh : Fresh screen.messages [userId, assistantId]) (different : userId ≠ assistantId)
    (whole : (texts.map PyStr.value).flatten = call.answer)
    (items : call.items = texts.map Item.token ++
      match call.raised with
      | none => [doneItem stamps (decide (call.answer ≠ []) && saves)]
      | some _ => [])
    (complete : (generate openAI call).2 = .complete) {chunks : List Text}
    (cut : chunks.flatten = emitted (generate openAI call).1) :
    send runtime screen source userId assistantId none (.streamed chunks .done) =
      outcome openAI screen source userId assistantId stamps saves call := by
  have apart := @question_fresh screen source userId assistantId fresh different
  rw [send_emitted idle written cut]
  cases ended : call.raised with
  | none =>
      rw [ended] at items
      have events : (generate openAI call).1 = (texts.map Item.token).map Item.event ++
          [(doneItem stamps (decide (call.answer ≠ []) && saves)).event] := by
        rw [generate, ended]
        change call.items.map Item.event = _
        rw [items, List.map_append]
        rfl
      rw [events, handle_call fresh different, whole, outcome, ended]
      have named := @handle_done runtime _ ({ pending assistantId with
          content := utf16 call.answer }) apart { screen with streamError := none }
        (uuidText stamps.assistantId) fullText
        (timeText (if decide (call.answer ≠ []) && saves then stamps.assistantCreatedAt
          else stamps.userCreatedAt))
      have shown : handleSSEEvent runtime assistantId
          ({ screen with streamError := none }.writing
            (screen.messages ++ [question source userId])
            { pending assistantId with content := utf16 call.answer })
          (doneItem stamps (decide (call.answer ≠ []) && saves)).event.seen =
            { screen with streamError := none }.writing
              (screen.messages ++ [question source userId])
              (answered call.answer assistantId stamps
                (decide (call.answer ≠ []) && saves)) := named
      rw [shown]
      simp only [writing, idle, List.append_assoc, List.singleton_append]
  | some failure =>
      rw [ended] at items
      have known : openAI failure = true := by
        by_contra other
        rw [generate, ended] at complete
        simp only [other] at complete
        cases complete
      have events : (generate openAI call).1 = (texts.map Item.token).map Item.event ++
          [.error] := by
        rw [generate, ended]
        simp only [known, if_true, items, List.append_nil]
      have removed := @remove_messages (screen.messages ++ [question source userId])
        [{ pending assistantId with content := utf16 call.answer }] [assistantId] apart
        (by simp [pending]) { screen with streamError := some (.string (text errorMessage)) }
      have shown : handleSSEEvent runtime assistantId
          ({ screen with streamError := none }.writing
            (screen.messages ++ [question source userId])
            { pending assistantId with content := utf16 call.answer })
          ServerEvent.error.seen =
            { screen with
              streamError := some (.string (text errorMessage))
              messages := screen.messages ++ [question source userId] } := removed
      rw [events, handle_call fresh different, whole, outcome, ended, shown]
      simp only [known, if_true, idle]

end Replies

end Screen

/-- Who speaks, and what: of a message on the screen, and of a stored turn. -/
def ChatMessage.said (message : ChatMessage) : Role × List Nat := (message.role, message.content)

def ChatTurn.said (turn : ChatTurn) : Role × List Nat := (turn.role, utf16 turn.content)

variable {Failure : Type}

/-- A streamed chat from the question to the screen. Whatever chunks the response comes in, the
screen shows the outcome of the call, or the history that comes meanwhile in the place of all
messages; a response that breaks off leaves the messages that were there before, or that history;
and a pair is stored when there is an answer and it can be saved, and says what the question and the
whole answer say. -/
theorem stream_shown_and_stored (runtime : Runtime) (openAI : Failure → Bool) {screen : Screen}
    {userId assistantId : Text} {request : Request Failure} (user : UUID) (stamps : Stamps)
    (script : Script Failure) (saves : Bool) (idle : screen.isStreaming = false)
    (written : trim (utf16 request.message) ≠ [])
    (fresh : Screen.Fresh screen.messages [userId, assistantId])
    (different : userId ≠ assistantId) :
    let call := chatStreamUseCase request user stamps script none saves
    let response := generate openAI call
    let send := screen.send runtime (utf16 request.message) userId assistantId
    let shown := Screen.outcome openAI screen (utf16 request.message) userId assistantId stamps
      saves call
    (∀ chunks, response.2 = .complete → chunks.flatten = emitted response.1 →
      send none (.streamed chunks .done) = shown ∧
      ∀ load : Load, (∀ items ∈ load.items, Screen.Fresh items [userId, assistantId]) →
        send (some load) (.streamed chunks .done) =
          { shown with messages := load.items.getD shown.messages }) ∧
    (∀ chunks load,
      (∀ loaded ∈ load, ∀ items ∈ loaded.items, Screen.Fresh items [userId, assistantId]) →
        (send load (.streamed chunks .failed)).messages = screen.messages ∨
        ∃ loaded ∈ load, (send load (.streamed chunks .failed)).messages =
          loaded.items.getD screen.messages) ∧
    (call.stored saves = none ↔ call.answer = [] ∨ saves = false) ∧
    ∀ pair ∈ call.stored saves,
      pair.1.said = (Screen.question (utf16 request.message) userId).said ∧
      pair.2.said = (Screen.answered call.answer assistantId stamps saves).said := by
  intro call response send shown
  obtain ⟨texts, whole, items⟩ := stream_call_items request user stamps script saves
  obtain ⟨toolsUsed, pair⟩ := stream_call_pair request user stamps script none saves
  have pair : call.pair = if call.answer = [] then none
      else some (userTurn user request.message stamps,
        assistantTurn user call.answer toolsUsed stamps) := pair
  refine ⟨fun chunks complete cut => ?_, fun chunks load others => ?_, ?_, ?_⟩
  · have reply : send none (.streamed chunks .done) = shown :=
      Screen.whole_reply idle written fresh different whole items complete cut
    refine ⟨reply, fun load others => ?_⟩
    rw [← reply]
    exact Screen.loaded_reply idle written cut fun items given =>
      Screen.fresh_mono (others items given) (by simp)
  · exact Screen.broken_reply idle written fresh chunks load others
  · rw [StreamCall.stored, pair]
    by_cases empty : call.answer = []
    · simp [empty]
    · cases saves <;> simp [empty]
  · intro stored member
    rw [StreamCall.stored, pair] at member
    split at member
    · cases member
    · obtain ⟨made, _⟩ := Option.filter_eq_some_iff.mp member
      cases made
      exact ⟨rfl, rfl⟩

def greeting : Script Unit where
  round _ := ⟨[⟨some ⟨text "Hi", [], some "stop"⟩, none⟩], none⟩
  valid i chunk member choice given := by
    cases List.mem_singleton.mp member
    cases given
    exact (by decide +kernel : CodePoints (text "Hi"))

def hello : Request Unit := ⟨.ok (), .ok [], [], text "Hello", fun _ _ => .ok [], 3⟩

/-- The answer to a greeting, in chunks of one character. -/
theorem greeting_shown :
    let stamps : Stamps := ⟨⟨1, by decide⟩, ⟨⟨2024, 1, 1, by decide, by decide, by decide⟩, 0,
      by decide⟩, ⟨2, by decide⟩, ⟨⟨2024, 1, 1, by decide, by decide, by decide⟩, 5, by decide⟩⟩
    let call := chatStreamUseCase hello ⟨7, by decide⟩ stamps greeting none true
    let chunks := (emitted (generate (fun _ => true) call).1).map fun c => [c]
    Screen.send ⟨fun _ => [], fun _ => false⟩ ⟨[], false, none, 0⟩ (utf16 (text "Hello"))
        (text "q") (text "a") none (.streamed chunks .done) =
      Screen.outcome (fun _ => true) ⟨[], false, none, 0⟩ (utf16 (text "Hello")) (text "q")
        (text "a") stamps true call := by
  intro stamps call chunks
  have shown := @stream_shown_and_stored Unit ⟨fun _ => [], fun _ => false⟩ (fun _ => true)
    ⟨[], false, none, 0⟩ (text "q") (text "a") hello ⟨7, by decide⟩ stamps greeting true rfl
    (by decide +kernel) nofun (by decide +kernel)
  exact (shown.1 chunks (by decide +kernel) (List.flatMap_singleton' _)).1

end Yomochi.Chat
