import Mathlib.Data.List.Sort
import Yomochi.Foundation.Text

/-! The two loops of the chat client, `chat_with_tools` and `stream_with_tools`, and the
streamed calls of the gateway below the second one. -/

namespace Yomochi.Chat

open Foundation

structure ToolCall where
  id : Text
  name : Text
  arguments : Text
  deriving DecidableEq, Repr

/-- `toolCalls` is the assistant's turn of a tool round; it has no content. -/
inductive Message
  | prompt (role content : Text)
  | toolCalls (calls : List ToolCall)
  | tool (callId content : Text)
  deriving DecidableEq, Repr

structure Usage where
  promptTokens : Nat
  completionTokens : Nat
  deriving DecidableEq, Repr

def Usage.zero : Usage := ⟨0, 0⟩

def Usage.add (first second : Usage) : Usage :=
  ⟨first.promptTokens + second.promptTokens, first.completionTokens + second.completionTokens⟩

def Usage.total (usage : Usage) : Nat := usage.promptTokens + usage.completionTokens

structure Round where
  text : Text
  toolCalls : List ToolCall
  usage : Option Usage
  deriving DecidableEq, Repr

/-- A piece of a streamed tool call; fields that are absent are empty. -/
structure Fragment where
  index : Nat
  id : Text
  name : Text
  arguments : Text
  deriving DecidableEq, Repr

structure Choice where
  content : Text
  toolCalls : List Fragment
  finishReason : Option String
  deriving DecidableEq, Repr

structure Chunk where
  choice : Option Choice
  usage : Option Usage
  deriving DecidableEq, Repr

/-- The chunks of a streamed round, and the exception that ends it early. -/
structure StreamRound (Failure : Type) where
  chunks : List Chunk
  failure : Option Failure

/-! The gateway. -/

def ToolCall.merge (slot : ToolCall) (fragment : Fragment) : ToolCall where
  id := if fragment.id = [] then slot.id else fragment.id
  name := if fragment.name = [] then slot.name else fragment.name
  arguments := slot.arguments ++ fragment.arguments

def ToolCall.empty : ToolCall := ⟨[], [], []⟩

/-- `_accumulate_tool_calls` for one fragment. The slots are kept in the order of their indices,
in which `_assemble_tool_calls` reads them. -/
def accumulate : List (Nat × ToolCall) → Fragment → List (Nat × ToolCall)
  | [], fragment => [(fragment.index, ToolCall.empty.merge fragment)]
  | (index, slot) :: slots, fragment =>
      if fragment.index < index then
        (fragment.index, ToolCall.empty.merge fragment) :: (index, slot) :: slots
      else if fragment.index = index then (index, slot.merge fragment) :: slots
      else (index, slot) :: accumulate slots fragment

def assemble (slots : List (Nat × ToolCall)) : List ToolCall := slots.map Prod.snd

inductive GatewayEvent
  | contentDelta (text : Text)
  | toolCallsDelta (toolCalls : List ToolCall)
  | usageInfo (usage : Usage)

def Choice.finishesWithTools (choice : Choice) : Bool :=
  choice.finishReason == some "tool_calls"

def chunkEvents (slots : List (Nat × ToolCall)) : List Chunk → List GatewayEvent
  | [] => []
  | chunk :: chunks =>
      match chunk.choice with
      | none => chunkEvents slots chunks
      | some choice =>
          let slots := choice.toolCalls.foldl accumulate slots
          (if choice.content = [] then [] else [.contentDelta choice.content]) ++
            (if choice.finishesWithTools then [.toolCallsDelta (assemble slots)] else []) ++
            chunkEvents slots chunks

def lastUsage (chunks : List Chunk) : Usage :=
  ((chunks.filterMap Chunk.usage).getLast?).getD .zero

variable {Failure : Type}

/-- `stream_call_with_tools`. The usage comes behind the last chunk. -/
def streamCallWithTools (round : StreamRound Failure) : List GatewayEvent :=
  chunkEvents [] round.chunks ++
    if round.failure.isNone then [.usageInfo (lastUsage round.chunks)] else []

/-- `stream_call`: no tools are offered, and none are looked for. -/
def streamCall (round : StreamRound Failure) : List GatewayEvent :=
  (round.chunks.filterMap fun chunk => chunk.choice.bind fun choice =>
    if choice.content = [] then none else some (.contentDelta choice.content)) ++
    if round.failure.isNone then [.usageInfo (lastUsage round.chunks)] else []

/-! The client. -/

/-- The variables of the loops, with the message lists that were sent. -/
structure Progress where
  messages : List Message
  usage : Usage
  toolsUsed : List Text
  sent : List (List Message)
  deriving DecidableEq, Repr

def Progress.start (messages : List Message) : Progress := ⟨messages, .zero, [], []⟩

namespace Progress

def send (p : Progress) : Progress := { p with sent := p.sent ++ [p.messages] }

def receive (p : Progress) (usage : Usage) : Progress := { p with usage := p.usage.add usage }

def next (p : Progress) (messages : List Message) (calls : List ToolCall) : Progress :=
  { p with messages := messages, toolsUsed := p.toolsUsed ++ calls.map ToolCall.name }

end Progress

/-- `execute` parses the arguments of a call, runs the tool and dumps its result. The calls run
concurrently; when some raise, one of their exceptions comes out. -/
def executeToolRound (execute : ToolCall → Except Failure Text) (messages : List Message)
    (calls : List ToolCall) : Except Failure (List Message) := do
  let results ← calls.mapM execute
  return messages ++ .toolCalls calls ::
    (calls.zip results).map fun entry => .tool entry.1.id entry.2

theorem map_m_error_iff {execute : ToolCall → Except Failure Text} (calls : List ToolCall) :
    (∃ failure, calls.mapM execute = .error failure) ↔
      ∃ call ∈ calls, ∃ failure, execute call = .error failure := by
  induction calls with
  | nil => simp [pure, Except.pure]
  | cons call calls ih =>
      rw [List.mapM_cons]
      cases first : execute call with
      | error failure => simp [bind, Except.bind, first]
      | ok result =>
          simp only [List.mem_cons, exists_eq_or_imp, first, reduceCtorEq, exists_false, false_or]
          rw [← ih]
          cases rest : calls.mapM execute <;> simp [bind, Except.bind, pure, Except.pure]

theorem execute_round_error_iff (execute : ToolCall → Except Failure Text)
    (messages : List Message) (calls : List ToolCall) :
    (∃ failure, executeToolRound execute messages calls = .error failure) ↔
      ∃ call ∈ calls, ∃ failure, execute call = .error failure := by
  rw [← map_m_error_iff, executeToolRound]
  cases calls.mapM execute <;> simp [bind, Except.bind, pure, Except.pure]

/-- `_max_tool_iterations` of the client. -/
def iterationCap (maxToolIterations : Int) : Nat := (max 1 maxToolIterations).toNat

structure ChatResponse where
  answer : Text
  usage : Usage
  toolsUsed : List Text
  deriving DecidableEq, Repr

/-- `_resolve_tool_rounds`, from round `iteration` on; `remaining` rounds are left. -/
def resolveToolRounds (script : Nat → Except Failure Round)
    (execute : Nat → ToolCall → Except Failure Text) :
    Nat → Nat → Progress → Progress × Except Failure (Option Text)
  | 0, _, p => (p, .ok none)
  | remaining + 1, iteration, p =>
      match script iteration with
      | .error failure => (p.send, .error failure)
      | .ok round =>
          let p := p.send.receive (round.usage.getD .zero)
          if round.toolCalls = [] then (p, .ok (some round.text))
          else
            match executeToolRound (execute iteration) p.messages round.toolCalls with
            | .error failure => (p, .error failure)
            | .ok messages =>
                resolveToolRounds script execute remaining (iteration + 1)
                  (p.next messages round.toolCalls)

/-- What `_do_chat_with_tools` makes of the rounds: when the cap was hit, one more round without
tools. -/
def forceAnswer (script : Nat → Except Failure Round) (cap : Nat) :
    Progress × Except Failure (Option Text) → Progress × Except Failure ChatResponse
  | (p, .error failure) => (p, .error failure)
  | (p, .ok (some answer)) => (p, .ok ⟨answer, p.usage, p.toolsUsed⟩)
  | (p, .ok none) =>
      match script cap with
      | .error failure => (p.send, .error failure)
      | .ok round =>
          let p := p.send.receive (round.usage.getD .zero)
          (p, .ok ⟨round.text, p.usage, p.toolsUsed⟩)

def doChatWithTools (script : Nat → Except Failure Round)
    (execute : Nat → ToolCall → Except Failure Text) (cap : Nat) (messages : List Message) :
    Progress × Except Failure ChatResponse :=
  forceAnswer script cap (resolveToolRounds script execute cap 0 (.start messages))

/-- What happens in a streamed chat, in order: only `text` and `report` are yielded to
the use case. -/
inductive Event
  | sends (messages : List Message)
  | text (chunk : Text)
  | received (usage : Usage)
  | report (usage : Usage) (toolsUsed : List Text)
  deriving DecidableEq, Repr

/-- How the client takes an event of the gateway; tool calls wait for the end of the round. -/
def takeEvent : GatewayEvent → Option Event
  | .contentDelta text => some (.text text)
  | .toolCallsDelta _ => none
  | .usageInfo usage => some (.received usage)

def roundToolCalls (events : List GatewayEvent) : List ToolCall :=
  ((events.filterMap fun event =>
    match event with
    | .toolCallsDelta toolCalls => some toolCalls
    | _ => none).getLast?).getD []

def textOf (events : List Event) : Text :=
  events.flatMap fun event =>
    match event with
    | .text chunk => chunk
    | _ => []

def sentOf (events : List Event) : List (List Message) :=
  events.filterMap fun event =>
    match event with
    | .sends messages => some messages
    | _ => none

def lastReport (events : List Event) : Option (Usage × List Text) :=
  (events.filterMap fun event =>
    match event with
    | .report usage toolsUsed => some (usage, toolsUsed)
    | _ => none).getLast?

abbrev Trace (Failure : Type) := List Event × Option Failure

def Trace.after (events : List Event) (trace : Trace Failure) : Trace Failure :=
  (events ++ trace.1, trace.2)

/-- The rounds of `stream_with_tools` from `iteration` on, and the forced answer after them. -/
def streamRounds (script : Nat → StreamRound Failure)
    (execute : Nat → ToolCall → Except Failure Text) : Nat → Nat → Progress → Trace Failure
  | 0, iteration, p =>
      let round := script iteration
      let events := .sends p.messages :: (streamCall round).filterMap takeEvent
      match round.failure with
      | some failure => (events, some failure)
      | none => (events ++ [.report (p.usage.add (lastUsage round.chunks)) p.toolsUsed], none)
  | remaining + 1, iteration, p =>
      let round := script iteration
      let received := streamCallWithTools round
      let events := .sends p.messages :: received.filterMap takeEvent
      match round.failure with
      | some failure => (events, some failure)
      | none =>
          let calls := roundToolCalls received
          let p := p.send.receive (lastUsage round.chunks)
          if calls = [] then (events ++ [.report p.usage p.toolsUsed], none)
          else
            match executeToolRound (execute iteration) p.messages calls with
            | .error failure => (events, some failure)
            | .ok messages =>
                let p := p.next messages calls
                Trace.after (events ++ [.report p.usage p.toolsUsed])
                  (streamRounds script execute remaining (iteration + 1) p)

def streamWithTools (script : Nat → StreamRound Failure)
    (execute : Nat → ToolCall → Except Failure Text) (cap : Nat) (messages : List Message) :
    Trace Failure :=
  streamRounds script execute cap 0 (.start messages)

end Yomochi.Chat
