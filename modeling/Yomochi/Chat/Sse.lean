import Yomochi.Foundation.Framing
import Yomochi.Foundation.JsonWriter

/-! The events of a streamed chat: as the controller writes them, and as the read loop of the
web client takes them out of the chunks it receives. -/

namespace Yomochi.Chat.Sse

open Foundation

/-! The server. -/

structure PyStr where
  value : Text
  valid : CodePoints value

inductive ServerEvent
  | token (content : PyStr)
  | done (turnId contextQuality createdAt : PyStr)
  | error

def errorMessage : String := "AI service temporarily unavailable. Please try again."

def ServerEvent.fields : ServerEvent → List (Text × JsonField)
  | .token content =>
      [(text "type", .string (text "token")), (text "content", .string content.value)]
  | .done turnId contextQuality createdAt =>
      [(text "type", .string (text "done")), (text "turn_id", .string turnId.value),
        (text "context_quality", .string contextQuality.value),
        (text "created_at", .string createdAt.value)]
  | .error =>
      [(text "type", .string (text "error")), (text "message", .string (text errorMessage))]

def newline : Nat := 10

def ServerEvent.body (event : ServerEvent) : Text := text "data: " ++ dumpsObject event.fields

def emitted (events : List ServerEvent) : Text :=
  events.flatMap fun event => event.body ++ [newline, newline]

/-! The client. Its strings are sequences of UTF-16 units. -/

inductive JsValue
  | undefined
  | null
  | string (units : List Nat)
  | other (value : Json)

def jsValue : Option Json → JsValue
  | none => .undefined
  | some .null => .null
  | some (.string value) => .string (utf16 value)
  | some value => .other value

/-- `value ?? fallback`. -/
def JsValue.orElse (value : JsValue) (fallback : String) : JsValue :=
  match value with
  | .undefined | .null => .string (text fallback)
  | value => value

inductive SSEEvent
  | token (content : JsValue)
  | done (turnId contextQuality createdAt saveFailed : JsValue)
  | error (message : JsValue)

/-- `JSON.parse` gave `null`, which has no members. -/
inductive JsError
  | TypeError
  deriving DecidableEq, Repr

def isJsSpace (c : Nat) : Bool :=
  (9 ≤ c && c ≤ 13) || (0x2000 ≤ c && c ≤ 0x200A) ||
    c ∈ [32, 0xA0, 0x1680, 0x2028, 0x2029, 0x202F, 0x205F, 0x3000, 0xFEFF]

/-- `trim()`. -/
def trim (source : Text) : Text :=
  ((source.dropWhile isJsSpace).reverse.dropWhile isJsSpace).reverse

def isString (value : JsValue) (expected : String) : Bool :=
  match value with
  | .string units => units == text expected
  | _ => false

def eventOf (member : String → JsValue) : Option SSEEvent :=
  let type := member "type"
  if isString type "token" then some (.token ((member "content").orElse ""))
  else if isString type "done" then
    some (.done (member "turn_id") (member "context_quality") (member "created_at")
      (member "save_failed"))
  else if isString type "error" then
    some (.error ((member "message").orElse "An error occurred."))
  else none

def parseBlock (block : Text) : Except JsError (Option SSEEvent) :=
  let line := trim block
  if (text "data:").isPrefixOf line then
    let source := trim (line.drop 5)
    if source = [] then .ok none
    else
      match loads .javascript source with
      | .error _ => .ok none
      | .ok .null => .error .TypeError
      | .ok (.object members) =>
          .ok (eventOf fun name => jsValue (memberOf members (text name)))
      | .ok _ => .ok none
  else .ok none

def parseBlocks : List Text → Except JsError (List SSEEvent)
  | [] => .ok []
  | block :: blocks => do
      let event ← parseBlock block
      let events ← parseBlocks blocks
      return event.toList ++ events

def parseSSEBuffer (buffer : Text) : Except JsError (List SSEEvent × Text) := do
  let (chunks, remainder) := splitBlocks newline [] buffer
  let events ← parseBlocks chunks
  return (events, remainder)

/-- The buffer of the read loop, and the events that were handled. -/
structure Client where
  buffer : Text
  handled : List SSEEvent

def receive (client : Client) (chunk : Text) : Except JsError Client := do
  let (events, remainder) ← parseSSEBuffer (client.buffer ++ chunk)
  return ⟨remainder, client.handled ++ events⟩

def finish (client : Client) : Except JsError Client :=
  if client.buffer = [] then .ok client
  else do
    let (events, _) ← parseSSEBuffer client.buffer
    return { client with handled := client.handled ++ events }

def readLoop (chunks : List Text) : Except JsError Client := do
  let client ← chunks.foldlM receive ⟨[], []⟩
  finish client

def ServerEvent.seen : ServerEvent → SSEEvent
  | .token content => .token (.string (utf16 content.value))
  | .done turnId contextQuality createdAt =>
      .done (.string (utf16 turnId.value)) (.string (utf16 contextQuality.value))
        (.string (utf16 createdAt.value)) .undefined
  | .error => .error (.string (text errorMessage))

/-! What the writer emits. -/

theorem fields_writable (event : ServerEvent) :
    WritableMembers .javascript event.fields := by
  have names : ∀ name ∈ ["type", "content", "turn_id", "context_quality", "created_at", "message",
      "token", "done", "error", errorMessage], CodePoints (text name) := by decide +kernel
  intro member inside
  cases event with
  | token content =>
      simp only [ServerEvent.fields, List.mem_cons, List.not_mem_nil, or_false] at inside
      rcases inside with rfl | rfl
      · exact ⟨names _ (by simp), names _ (by simp)⟩
      · exact ⟨names _ (by simp), content.valid⟩
  | done turnId contextQuality createdAt =>
      simp only [ServerEvent.fields, List.mem_cons, List.not_mem_nil, or_false] at inside
      rcases inside with rfl | rfl | rfl | rfl
      · exact ⟨names _ (by simp), names _ (by simp)⟩
      · exact ⟨names _ (by simp), turnId.valid⟩
      · exact ⟨names _ (by simp), contextQuality.valid⟩
      · exact ⟨names _ (by simp), createdAt.valid⟩
  | error =>
      simp only [ServerEvent.fields, List.mem_cons, List.not_mem_nil, or_false] at inside
      rcases inside with rfl | rfl
      · exact ⟨names _ (by simp), names _ (by simp)⟩
      · exact ⟨names _ (by simp), names _ (by simp)⟩

/-- No newline stands in a body. -/
theorem body_clean (event : ServerEvent) : newline ∉ event.body := by
  have printable : Printable event.body :=
    printable_append (by decide) (dumps_object_printable (fields_writable event))
  intro member
  exact absurd (printable newline member) (by decide)

theorem emitted_framed (events : List ServerEvent) :
    emitted events = framed newline (events.map ServerEvent.body) := by
  rw [emitted, framed, List.flatMap_map]

/-! One block. -/

theorem trim_visible {c d : Nat} (first : isJsSpace c = false) (last : isJsSpace d = false)
    (inside : Text) : trim (c :: (inside ++ [d])) = c :: (inside ++ [d]) := by
  have front : (c :: (inside ++ [d])).dropWhile isJsSpace = c :: (inside ++ [d]) := by
    simp [first]
  have back : (c :: (inside ++ [d])).reverse = d :: (c :: inside).reverse := by simp
  rw [trim, front, back, List.dropWhile_cons_of_neg (by simp [last])]
  simp

theorem trim_blank {c : Nat} (blank : isJsSpace c = true) (source : Text) :
    trim (c :: source) = trim source := by
  rw [trim, trim, List.dropWhile_cons_of_pos blank]

theorem event_of_fields (event : ServerEvent) :
    eventOf (fun name => jsValue (memberOf (readMembers event.fields) (text name))) =
      some event.seen := by
  cases event with
  | token content =>
      have same := utf16_read content.valid
      change some (SSEEvent.token (.string (utf16 (readUnits (utf16 content.value))))) = _
      rw [same]
      rfl
  | done turnId contextQuality createdAt =>
      change some (SSEEvent.done (.string (utf16 (readUnits (utf16 turnId.value))))
        (.string (utf16 (readUnits (utf16 contextQuality.value))))
        (.string (utf16 (readUnits (utf16 createdAt.value)))) .undefined) = _
      rw [utf16_read turnId.valid, utf16_read contextQuality.valid, utf16_read createdAt.valid]
      rfl
  | error => rfl

theorem parse_block_body (event : ServerEvent) :
    parseBlock event.body = .ok (some event.seen) := by
  obtain ⟨inside, braces⟩ := dumps_object_braces event.fields
  have line : trim event.body = event.body := by
    have parts : event.body = 'd'.toNat :: ((text "ata: " ++ '{'.toNat :: inside) ++ ['}'.toNat]) := by
      rw [ServerEvent.body, braces, List.append_assoc]
      rfl
    rw [parts]
    exact trim_visible rfl rfl _
  have behind : event.body.drop 5 = 32 :: dumpsObject event.fields := rfl
  have source : trim (event.body.drop 5) = dumpsObject event.fields := by
    rw [behind, trim_blank rfl, braces]
    exact trim_visible rfl rfl _
  have marked : (text "data:").isPrefixOf event.body = true := rfl
  have nonempty : dumpsObject event.fields ≠ [] := by
    rw [braces]
    exact List.cons_ne_nil _ _
  have parsed := loads_dumps (fields_writable event) nofun
  unfold parseBlock
  simp only [line, marked, source, nonempty, parsed, if_true, if_false, event_of_fields]

/-! The read loop. -/

theorem parse_blocks_bodies (events : List ServerEvent) :
    parseBlocks (events.map ServerEvent.body) = .ok (events.map ServerEvent.seen) := by
  induction events with
  | nil => rfl
  | cons event events ih =>
      rw [List.map_cons, parseBlocks, parse_block_body, ih]
      rfl

theorem parse_blocks_append {first second : List Text} {events : List SSEEvent}
    (parsed : parseBlocks (first ++ second) = .ok events) :
    ∃ before after, parseBlocks first = .ok before ∧ parseBlocks second = .ok after ∧
      events = before ++ after := by
  induction first generalizing events with
  | nil => exact ⟨[], events, rfl, parsed, rfl⟩
  | cons block first ih =>
      rw [List.cons_append, parseBlocks] at parsed
      cases one : parseBlock block with
      | error error =>
          rw [one] at parsed
          cases parsed
      | ok event =>
          cases rest : parseBlocks (first ++ second) with
          | error error =>
              rw [one, rest] at parsed
              cases parsed
          | ok later =>
              obtain ⟨before, after, left, right, joined⟩ := ih rest
              rw [one, rest] at parsed
              cases parsed
              refine ⟨event.toList ++ before, after, ?_, right, ?_⟩
              · rw [parseBlocks, one, left]
                rfl
              · rw [joined, List.append_assoc]

/-- The client handles the events of the blocks that arrive. -/
theorem receive_pieces {pieces blocks : List Text} {buffer left : Text} {events : List SSEEvent}
    (arrive : feedPieces newline buffer pieces = (blocks, left))
    (parsed : parseBlocks blocks = .ok events) (handled : List SSEEvent) :
    pieces.foldlM receive ⟨buffer, handled⟩ = .ok ⟨left, handled ++ events⟩ := by
  induction pieces generalizing buffer blocks events handled with
  | nil =>
      cases arrive
      cases parsed
      rw [List.append_nil]
      rfl
  | cons piece pieces ih =>
      rw [feedPieces] at arrive
      obtain ⟨blocks', left'⟩ := Prod.mk.inj arrive
      subst blocks'
      obtain ⟨before, after, one, rest, rfl⟩ := parse_blocks_append parsed
      have received : receive ⟨buffer, handled⟩ piece =
          .ok ⟨(splitBlocks newline [] (buffer ++ piece)).2, handled ++ before⟩ := by
        simp only [receive, parseSSEBuffer, one]
        rfl
      have later := ih (Prod.ext rfl left') rest (handled ++ before)
      rw [List.foldlM_cons, received]
      exact later.trans (by rw [List.append_assoc])

/-- The client handles exactly the events that were emitted, however their text is cut. -/
theorem read_loop_exact (events : List ServerEvent) (chunks : List Text)
    (cut : chunks.flatten = emitted events) :
    readLoop chunks = .ok ⟨[], events.map ServerEvent.seen⟩ := by
  have clean : ∀ block ∈ events.map ServerEvent.body, newline ∉ block := by
    intro block member
    obtain ⟨event, _, rfl⟩ := List.mem_map.mp member
    exact body_clean event
  have arrive := feed_pieces_framed clean (.inl List.not_mem_nil)
    (cut.trans (emitted_framed events))
  have received := receive_pieces arrive (parse_blocks_bodies events) []
  rw [readLoop, received]
  rfl

/-- A token that looks like events of the stream, in chunks of one character. -/
def trickyToken : ServerEvent :=
  .token ⟨text "\n\ndata: \r\"é", by decide +kernel⟩

theorem read_loop_tricky :
    readLoop ((emitted [trickyToken, .error]).map fun c => [c]) =
      .ok ⟨[], [trickyToken.seen, ServerEvent.error.seen]⟩ :=
  read_loop_exact [trickyToken, .error] _ (by decide +kernel)

end Yomochi.Chat.Sse
