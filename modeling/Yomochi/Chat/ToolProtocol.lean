import Yomochi.Chat.Agreement
import Yomochi.Chat.Billing

/-! What the loops send to the model. A whole answer may ask for tool calls of another kind than
functions, which are left out when the calls are executed; a streamed answer has function calls
only. -/

namespace Yomochi.Chat

open Foundation

variable {Failure : Type}

inductive RequestedCall
  | function (call : ToolCall)
  | custom (id name input : Text)
  deriving DecidableEq, Repr

/-- A whole answer; absent content is empty, and so are absent tool calls. -/
structure Reply where
  content : Text
  requested : List RequestedCall
  usage : Option Usage
  deriving DecidableEq, Repr

def Reply.ofRound (round : Round) : Reply :=
  ⟨round.text, round.toolCalls.map .function, round.usage⟩

def assembled (requested : List RequestedCall) : List ToolCall :=
  requested.filterMap fun call =>
    match call with
    | .function call => some call
    | .custom _ _ _ => none

/-- `_resolve_tool_rounds`, from round `iteration` on; `remaining` rounds are left. -/
def resolveRequestedRounds (script : Nat → Except Failure Reply)
    (execute : Nat → ToolCall → Except Failure Text) :
    Nat → Nat → Progress → Progress × Except Failure (Option Text)
  | 0, _, p => (p, .ok none)
  | remaining + 1, iteration, p =>
      match script iteration with
      | .error failure => (p.send, .error failure)
      | .ok reply =>
          let p := p.send.receive (reply.usage.getD .zero)
          if reply.requested = [] then (p, .ok (some reply.content))
          else
            match executeToolRound (execute iteration) p.messages (assembled reply.requested) with
            | .error failure => (p, .error failure)
            | .ok messages =>
                resolveRequestedRounds script execute remaining (iteration + 1)
                  (p.next messages (assembled reply.requested))

def forceReply (script : Nat → Except Failure Reply) (cap : Nat) :
    Progress × Except Failure (Option Text) → Progress × Except Failure ChatResponse
  | (p, .error failure) => (p, .error failure)
  | (p, .ok (some answer)) => (p, .ok ⟨answer, p.usage, p.toolsUsed⟩)
  | (p, .ok none) =>
      match script cap with
      | .error failure => (p.send, .error failure)
      | .ok reply =>
          let p := p.send.receive (reply.usage.getD .zero)
          (p, .ok ⟨reply.content, p.usage, p.toolsUsed⟩)

/-- `_do_chat_with_tools`. -/
def chatWithRequested (script : Nat → Except Failure Reply)
    (execute : Nat → ToolCall → Except Failure Text) (cap : Nat) (messages : List Message) :
    Progress × Except Failure ChatResponse :=
  forceReply script cap (resolveRequestedRounds script execute cap 0 (.start messages))

/-! The calls of the model, with the tools or without them. -/

structure ModelCall where
  offersTools : Bool
  messages : List Message
  deriving DecidableEq, Repr

inductive TurnOutcome
  | ended
  | asks (calls : List ToolCall)
  deriving DecidableEq, Repr

def Reply.turn (reply : Reply) : TurnOutcome :=
  if reply.requested = [] then .ended else .asks (assembled reply.requested)

def wholeTurn : Except Failure Reply → TurnOutcome
  | .error _ => .ended
  | .ok reply => reply.turn

/-- The streamed calls are assembled before they are looked at. -/
def streamedTurn (round : StreamRound Failure) : TurnOutcome :=
  if round.failure.isSome then .ended
  else
    match roundToolCalls (streamCallWithTools round) with
    | [] => .ended
    | call :: calls => .asks (call :: calls)

def toolLoop (turn : Nat → TurnOutcome) (execute : Nat → ToolCall → Except Failure Text) :
    Nat → Nat → List Message → List ModelCall
  | 0, _, messages => [⟨false, messages⟩]
  | remaining + 1, iteration, messages =>
      ⟨true, messages⟩ ::
        match turn iteration with
        | .ended => []
        | .asks calls =>
            match executeToolRound (execute iteration) messages calls with
            | .error _ => []
            | .ok messages => toolLoop turn execute remaining (iteration + 1) messages

def chatModelCalls (script : Nat → Except Failure Reply)
    (execute : Nat → ToolCall → Except Failure Text) (cap : Nat) (messages : List Message) :
    List ModelCall :=
  toolLoop (fun i => wholeTurn (script i)) execute cap 0 messages

def streamModelCalls (script : Nat → StreamRound Failure)
    (execute : Nat → ToolCall → Except Failure Text) (cap : Nat) (messages : List Message) :
    List ModelCall :=
  toolLoop (fun i => streamedTurn (script i)) execute cap 0 messages

section Sent

variable {execute : Nat → ToolCall → Except Failure Text}

theorem assembled_functions (calls : List ToolCall) : assembled (calls.map .function) = calls := by
  rw [assembled, List.filterMap_map]
  exact List.filterMap_some

theorem resolve_of_functions (script : Nat → Except Failure Round) (remaining iteration : Nat)
    (p : Progress) :
    resolveRequestedRounds (fun i => (script i).map Reply.ofRound) execute remaining iteration p =
      resolveToolRounds script execute remaining iteration p := by
  induction remaining generalizing iteration p with
  | zero => rfl
  | succ remaining ih =>
      rw [resolveRequestedRounds, resolveToolRounds]
      cases script iteration with
      | error failure => rfl
      | ok round =>
          have answer : (Except.ok round : Except Failure Round).map Reply.ofRound =
              .ok (Reply.ofRound round) := rfl
          have final : (Reply.ofRound round).requested = [] ↔ round.toolCalls = [] :=
            List.map_eq_nil_iff
          have calls : assembled (Reply.ofRound round).requested = round.toolCalls :=
            assembled_functions round.toolCalls
          rw [answer]
          dsimp only
          by_cases last : round.toolCalls = []
          · rw [if_pos (final.mpr last), if_pos last]
            rfl
          · have usage : (Reply.ofRound round).usage = round.usage := rfl
            rw [if_neg (mt final.mp last), if_neg last, calls, usage]
            cases executeToolRound (execute iteration)
                (p.send.receive (round.usage.getD .zero)).messages round.toolCalls with
            | error failure => rfl
            | ok messages => exact ih (iteration + 1) _

theorem sent_resolved (script : Nat → Except Failure Reply) (remaining iteration : Nat)
    (p : Progress) :
    (forceReply script (iteration + remaining)
      (resolveRequestedRounds script execute remaining iteration p)).1.sent =
      p.sent ++ (toolLoop (fun i => wholeTurn (script i)) execute remaining iteration
        p.messages).map ModelCall.messages := by
  induction remaining generalizing iteration p with
  | zero =>
      simp only [resolveRequestedRounds, forceReply, Nat.add_zero, toolLoop]
      cases script iteration <;> rfl
  | succ remaining ih =>
      have next : iteration + (remaining + 1) = iteration + 1 + remaining := by omega
      rw [next, resolveRequestedRounds, toolLoop]
      cases answer : script iteration with
      | error failure => rfl
      | ok reply =>
          simp only [wholeTurn, Reply.turn]
          by_cases final : reply.requested = []
          · simp only [final, if_true]
            rfl
          · simp only [final, if_false]
            change _ = p.sent ++ (p.messages :: _)
            cases executed : executeToolRound (execute iteration) p.messages
                (assembled reply.requested) with
            | error failure =>
                simp only [Progress.send, Progress.receive, executed]
                rfl
            | ok messages =>
                simp only [Progress.send, Progress.receive, executed]
                rw [ih]
                simp only [Progress.next, List.append_assoc, List.singleton_append]
                rfl

theorem sent_chat (script : Nat → Except Failure Reply) (cap : Nat) (messages : List Message) :
    (chatWithRequested script execute cap messages).1.sent =
      (chatModelCalls script execute cap messages).map ModelCall.messages := by
  have sent := @sent_resolved _ execute script cap 0 (.start messages)
  rw [Nat.zero_add] at sent
  exact sent.trans (List.nil_append _)

theorem sent_streamed (script : Nat → StreamRound Failure) (remaining iteration : Nat)
    (p : Progress) :
    sentOf (streamRounds script execute remaining iteration p).1 =
      (toolLoop (fun i => streamedTurn (script i)) execute remaining iteration p.messages).map
        ModelCall.messages := by
  induction remaining generalizing iteration p with
  | zero =>
      rw [streamRounds, toolLoop]
      cases (script iteration).failure with
      | some failure => exact sent_of_round _ _
      | none =>
          simp only
          rw [sent_of_append, sent_of_round]
          rfl
  | succ remaining ih =>
      rw [streamRounds, toolLoop]
      cases broken : (script iteration).failure with
      | some failure =>
          have turn : streamedTurn (script iteration) = .ended := by simp [streamedTurn, broken]
          simp only [turn]
          exact sent_of_round _ _
      | none =>
          cases calls : roundToolCalls (streamCallWithTools (script iteration)) with
          | nil =>
              have turn : streamedTurn (script iteration) = .ended := by
                simp [streamedTurn, calls]
              simp only [turn, if_true]
              rw [sent_of_append, sent_of_round]
              rfl
          | cons call rest =>
              have turn : streamedTurn (script iteration) = .asks (call :: rest) := by
                simp [streamedTurn, broken, calls]
              simp only [turn, reduceCtorEq, if_false]
              cases executed : executeToolRound (execute iteration) p.messages (call :: rest) with
              | error failure =>
                  simp only [Progress.send, Progress.receive, executed]
                  exact sent_of_round _ _
              | ok messages =>
                  simp only [Progress.send, Progress.receive, executed, Trace.after]
                  rw [sent_of_append, sent_of_append, sent_of_round, ih]
                  rfl

theorem sent_stream (script : Nat → StreamRound Failure) (cap : Nat) (messages : List Message) :
    sentOf (streamWithTools script execute cap messages).1 =
      (streamModelCalls script execute cap messages).map ModelCall.messages :=
  sent_streamed script cap 0 (.start messages)

end Sent

/-! Well formed message lists. -/

/-- Every turn with tool calls has some, and behind it a tool message for each of them in their
order; `pending` are the ids of the calls that are still to be answered. -/
def Answered : List Text → List Message → Prop
  | pending, [] => pending = []
  | pending, .prompt _ _ :: rest => pending = [] ∧ Answered [] rest
  | pending, .toolCalls calls :: rest =>
      pending = [] ∧ calls ≠ [] ∧ Answered (calls.map ToolCall.id) rest
  | [], .tool _ _ :: _ => False
  | id :: pending, .tool callId _ :: rest => callId = id ∧ Answered pending rest

def WellFormed (messages : List Message) : Prop := Answered [] messages

/-- In every round a well formed list is sent; there are at most `cap` rounds with tools, and one
answer without tools behind them. -/
structure FollowsProtocol (cap : Nat) (calls : List ModelCall) : Prop where
  wellFormed : ∀ call ∈ calls, WellFormed call.messages
  bounded : ∃ rounds forced, calls = rounds ++ forced ∧ rounds.length ≤ cap ∧
    (∀ call ∈ rounds, call.offersTools = true) ∧ forced.length ≤ 1 ∧
    ∀ call ∈ forced, call.offersTools = false

def Reply.Passes (execute : ToolCall → Except Failure Text) (reply : Reply) : Prop :=
  reply.requested ≠ [] ∧ ∀ call ∈ assembled reply.requested, ∃ result, execute call = .ok result

/-- Some answer within the cap that the loop comes to asks for tool calls, and for none that is a
function's. -/
def OtherKindOnly (script : Nat → Except Failure Reply)
    (execute : Nat → ToolCall → Except Failure Text) (cap : Nat) : Prop :=
  ∃ i < cap, (∀ j < i, ∃ reply, script j = .ok reply ∧ reply.Passes (execute j)) ∧
    ∃ reply, script i = .ok reply ∧ reply.requested ≠ [] ∧ assembled reply.requested = []

section Protocol

theorem answered_append {pending : List Text} {first second : List Message}
    (done : Answered pending first) :
    Answered pending (first ++ second) ↔ Answered [] second := by
  induction first generalizing pending with
  | nil =>
      rw [show pending = [] from done]
      rfl
  | cons message first ih =>
      cases message with
      | prompt role content =>
          obtain ⟨none, rest⟩ := done
          rw [List.cons_append, Answered, ih rest]
          exact and_iff_right none
      | toolCalls calls =>
          obtain ⟨none, some, rest⟩ := done
          rw [List.cons_append, Answered, ih rest, and_iff_right none, and_iff_right some]
      | tool callId content =>
          cases pending with
          | nil => exact done.elim
          | cons id pending =>
              obtain ⟨same, rest⟩ := done
              rw [List.cons_append, Answered, ih rest, and_iff_right same]

theorem answered_results (calls : List ToolCall) (results : List Text)
    (all : calls.length = results.length) :
    Answered (calls.map ToolCall.id)
      ((calls.zip results).map fun entry => .tool entry.1.id entry.2) := by
  induction calls generalizing results with
  | nil => rfl
  | cons call calls ih =>
      cases results with
      | nil => cases all
      | cons result results => exact ⟨rfl, ih results (Nat.succ.inj all)⟩

theorem results_length {execute : ToolCall → Except Failure Text} {calls : List ToolCall}
    {results : List Text} (executed : calls.mapM execute = .ok results) :
    calls.length = results.length := by
  induction calls generalizing results with
  | nil =>
      cases executed
      rfl
  | cons call calls ih =>
      rw [List.mapM_cons] at executed
      cases first : execute call with
      | error failure =>
          rw [first] at executed
          cases executed
      | ok result =>
          cases rest : calls.mapM execute with
          | error failure =>
              rw [first, rest] at executed
              cases executed
          | ok others =>
              rw [first, rest] at executed
              cases executed
              rw [List.length_cons, List.length_cons, ih rest]

/-- A round leaves a well formed list exactly when it has calls. -/
theorem well_formed_round {execute : ToolCall → Except Failure Text} {calls : List ToolCall}
    {messages next : List Message} (wellFormed : WellFormed messages)
    (executed : executeToolRound execute messages calls = .ok next) :
    WellFormed next ↔ calls ≠ [] := by
  unfold executeToolRound at executed
  cases made : calls.mapM execute with
  | error failure =>
      rw [made] at executed
      cases executed
  | ok results =>
      rw [made] at executed
      cases executed
      have answers := answered_results calls results (results_length made)
      rw [WellFormed, answered_append wellFormed, Answered]
      constructor
      · intro some
        exact some.2.1
      · intro some
        exact ⟨rfl, some, answers⟩

theorem execute_round_ok_iff (execute : ToolCall → Except Failure Text) (messages : List Message)
    (calls : List ToolCall) :
    (∃ next, executeToolRound execute messages calls = .ok next) ↔
      ∀ call ∈ calls, ∃ result, execute call = .ok result := by
  have raises := execute_round_error_iff execute messages calls
  constructor
  · intro executed call member
    obtain ⟨next, ok⟩ := executed
    cases made : execute call with
    | ok result => exact ⟨result, rfl⟩
    | error failure =>
        obtain ⟨other, error⟩ := raises.mpr ⟨call, member, failure, made⟩
        cases ok.symm.trans error
  · intro returned
    cases executed : executeToolRound execute messages calls with
    | ok next => exact ⟨next, rfl⟩
    | error failure =>
        obtain ⟨call, member, other, error⟩ := raises.mp ⟨failure, executed⟩
        obtain ⟨result, ok⟩ := returned call member
        cases ok.symm.trans error

theorem head_of_loop (turn : Nat → TurnOutcome) (execute : Nat → ToolCall → Except Failure Text)
    (remaining iteration : Nat) (messages : List Message) :
    ∃ call ∈ toolLoop turn execute remaining iteration messages, call.messages = messages := by
  cases remaining with
  | zero => exact ⟨_, List.mem_cons_self, rfl⟩
  | succ remaining => exact ⟨_, List.mem_cons_self, rfl⟩

theorem loop_bounded (turn : Nat → TurnOutcome) (execute : Nat → ToolCall → Except Failure Text)
    (remaining iteration : Nat) (messages : List Message) :
    ∃ rounds forced, toolLoop turn execute remaining iteration messages = rounds ++ forced ∧
      rounds.length ≤ remaining ∧ (∀ call ∈ rounds, call.offersTools = true) ∧
      forced.length ≤ 1 ∧ ∀ call ∈ forced, call.offersTools = false := by
  induction remaining generalizing iteration messages with
  | zero => exact ⟨[], [⟨false, messages⟩], rfl, Nat.le_refl _, by simp, Nat.le_refl _, by simp⟩
  | succ remaining ih =>
      have single : ∃ rounds forced, [(⟨true, messages⟩ : ModelCall)] = rounds ++ forced ∧
          rounds.length ≤ remaining + 1 ∧ (∀ call ∈ rounds, call.offersTools = true) ∧
          forced.length ≤ 1 ∧ ∀ call ∈ forced, call.offersTools = false :=
        ⟨[⟨true, messages⟩], [], rfl, by simp, by simp, by simp, by simp⟩
      rw [toolLoop]
      cases turn iteration with
      | ended => exact single
      | asks calls =>
          cases executed : executeToolRound (execute iteration) messages calls with
          | error failure =>
              simp only [executed]
              exact single
          | ok next =>
              obtain ⟨rounds, forced, split, few, offered, one, forcedOnly⟩ :=
                ih (iteration + 1) next
              simp only [executed, split]
              refine ⟨⟨true, messages⟩ :: rounds, forced, rfl, Nat.succ_le_succ few, ?_, one,
                forcedOnly⟩
              intro call member
              rcases List.mem_cons.mp member with same | later
              · rw [same]
              · exact offered call later

def EmptyAsk (turn : Nat → TurnOutcome) (execute : Nat → ToolCall → Except Failure Text)
    (iteration remaining : Nat) : Prop :=
  ∃ i, iteration ≤ i ∧ i < iteration + remaining ∧
    (∀ j, iteration ≤ j → j < i → ∃ calls, turn j = .asks calls ∧
      ∀ call ∈ calls, ∃ result, execute j call = .ok result) ∧ turn i = .asks []

theorem empty_ask_succ {turn : Nat → TurnOutcome} {execute : Nat → ToolCall → Except Failure Text}
    {iteration remaining : Nat} : EmptyAsk turn execute iteration (remaining + 1) ↔
      turn iteration = .asks [] ∨ (∃ calls, turn iteration = .asks calls ∧
        ∀ call ∈ calls, ∃ result, execute iteration call = .ok result) ∧
          EmptyAsk turn execute (iteration + 1) remaining := by
  constructor
  · intro ask
    obtain ⟨i, least, most, passed, empty⟩ := ask
    rcases Nat.eq_or_lt_of_le least with same | later
    · exact .inl (same ▸ empty)
    · exact .inr ⟨passed iteration (Nat.le_refl _) later,
        ⟨i, later, by omega, fun j above below => passed j (by omega) below, empty⟩⟩
  · intro ask
    rcases ask with empty | ⟨first, i, least, most, passed, empty⟩
    · exact ⟨iteration, Nat.le_refl _, by omega, fun j above below => by omega, empty⟩
    · refine ⟨i, by omega, by omega, fun j above below => ?_, empty⟩
      rcases Nat.eq_or_lt_of_le above with same | later
      · rw [← same]
        exact first
      · exact passed j later below

/-- Every list that is sent is well formed, unless the loop comes to an empty request for
tools. -/
theorem loop_well_formed_iff (turn : Nat → TurnOutcome)
    (execute : Nat → ToolCall → Except Failure Text) (remaining iteration : Nat)
    {messages : List Message} (wellFormed : WellFormed messages) :
    (∀ call ∈ toolLoop turn execute remaining iteration messages, WellFormed call.messages) ↔
      ¬ EmptyAsk turn execute iteration remaining := by
  induction remaining generalizing iteration messages with
  | zero =>
      have none : ¬ EmptyAsk turn execute iteration 0 := by
        intro ask
        obtain ⟨i, least, most, _⟩ := ask
        omega
      simp [toolLoop, wellFormed, none]
  | succ remaining ih =>
      rw [toolLoop, List.forall_mem_cons, and_iff_right wellFormed, empty_ask_succ]
      cases asked : turn iteration with
      | ended => simp
      | asks calls =>
          cases executed : executeToolRound (execute iteration) messages calls with
          | error failure =>
              have raised := (execute_round_error_iff _ _ _).mp ⟨failure, executed⟩
              obtain ⟨call, member, _⟩ := raised
              have some : calls ≠ [] := List.ne_nil_of_mem member
              have unreturned :
                  ¬ ∀ call ∈ calls, ∃ result, execute iteration call = .ok result := by
                rw [← execute_round_ok_iff _ messages, executed]
                exact nofun
              simp [executed, some, unreturned]
          | ok next =>
              have returned := (execute_round_ok_iff _ _ _).mp ⟨next, executed⟩
              have round := well_formed_round wellFormed executed
              simp only [executed]
              by_cases empty : calls = []
              · obtain ⟨call, member, sent⟩ :=
                  head_of_loop turn execute remaining (iteration + 1) next
                have malformed : ¬ WellFormed next := fun good => round.mp good empty
                constructor
                · intro all
                  exact absurd (sent ▸ all call member) malformed
                · intro none
                  exact absurd (.inl (by rw [empty])) none
              · rw [ih (iteration + 1) (round.mpr empty)]
                have other : ¬ TurnOutcome.asks calls = .asks [] := by simpa using empty
                have first : ∃ made, TurnOutcome.asks calls = .asks made ∧
                    ∀ call ∈ made, ∃ result, execute iteration call = .ok result :=
                  ⟨calls, rfl, returned⟩
                rw [or_iff_right other, and_iff_right first]

theorem streamed_never_empty (round : StreamRound Failure) : streamedTurn round ≠ .asks [] := by
  unfold streamedTurn
  split
  · exact fun same => by cases same
  · split
    · exact fun same => by cases same
    · exact fun same => by cases same

theorem whole_turn_asks {answer : Except Failure Reply} {calls : List ToolCall} :
    wholeTurn answer = .asks calls ↔
      ∃ reply, answer = .ok reply ∧ reply.requested ≠ [] ∧ assembled reply.requested = calls := by
  cases answer with
  | error failure => simp [wholeTurn]
  | ok reply =>
      by_cases final : reply.requested = []
      · simp [wholeTurn, Reply.turn, final]
      · simp [wholeTurn, Reply.turn, final]

theorem empty_ask_iff {script : Nat → Except Failure Reply}
    {execute : Nat → ToolCall → Except Failure Text} {cap : Nat} :
    EmptyAsk (fun i => wholeTurn (script i)) execute 0 cap ↔ OtherKindOnly script execute cap := by
  have passes : ∀ j, (∃ calls, wholeTurn (script j) = .asks calls ∧
      ∀ call ∈ calls, ∃ result, execute j call = .ok result) ↔
      ∃ reply, script j = .ok reply ∧ reply.Passes (execute j) := by
    intro j
    simp only [whole_turn_asks, Reply.Passes]
    constructor
    · intro asked
      obtain ⟨calls, ⟨reply, answer, some, same⟩, returned⟩ := asked
      exact ⟨reply, answer, some, same ▸ returned⟩
    · intro passed
      obtain ⟨reply, answer, some, returned⟩ := passed
      exact ⟨_, ⟨reply, answer, some, rfl⟩, returned⟩
  constructor
  · intro ask
    obtain ⟨i, _, most, passed, empty⟩ := ask
    exact ⟨i, by omega, fun j below => (passes j).mp (passed j (Nat.zero_le j) below),
      whole_turn_asks.mp empty⟩
  · intro only
    obtain ⟨i, most, passed, empty⟩ := only
    exact ⟨i, Nat.zero_le i, by omega, fun j _ below => (passes j).mpr (passed j below),
      whole_turn_asks.mpr empty⟩

theorem prompts_well_formed (system : Text) (history : List Turn) (message : Text) :
    WellFormed (buildToolsMessages system history message) := by
  refine ⟨rfl, ?_⟩
  induction history with
  | nil => exact ⟨rfl, rfl⟩
  | cons turn history ih => exact ⟨rfl, ih⟩

end Protocol

/-- Both loops follow the protocol, exactly unless the whole one comes to an answer within its cap
that asks for tool calls of another kind only. -/
theorem tool_protocol_iff (script : Nat → Except Failure Reply)
    (stream : Nat → StreamRound Failure) (execute : Nat → ToolCall → Except Failure Text)
    (maxToolIterations : Int) (system : Text) (history : List Turn) (message : Text) :
    (FollowsProtocol (iterationCap maxToolIterations)
        (chatModelCalls script execute (iterationCap maxToolIterations)
          (buildToolsMessages system history message)) ∧
      FollowsProtocol (iterationCap maxToolIterations)
        (streamModelCalls stream execute (iterationCap maxToolIterations)
          (buildToolsMessages system history message))) ↔
      ¬ OtherKindOnly script execute (iterationCap maxToolIterations) := by
  have prompts := prompts_well_formed system history message
  have whole := loop_well_formed_iff (fun i => wholeTurn (script i)) execute
    (iterationCap maxToolIterations) 0 prompts
  have streamed := loop_well_formed_iff (fun i => streamedTurn (stream i)) execute
    (iterationCap maxToolIterations) 0 prompts
  rw [empty_ask_iff] at whole
  constructor
  · intro both
    exact whole.mp both.1.wellFormed
  · intro none
    refine ⟨⟨whole.mpr none, loop_bounded _ _ _ _ _⟩, streamed.mpr ?_, loop_bounded _ _ _ _ _⟩
    intro ask
    obtain ⟨i, _, _, _, empty⟩ := ask
    exact streamed_never_empty (stream i) empty

/-- An answer whose only tool call is a custom one. -/
theorem not_tool_protocol : ¬ ∀ (script : Nat → Except Unit Reply)
    (stream : Nat → StreamRound Unit) (execute : Nat → ToolCall → Except Unit Text)
    (maxToolIterations : Int) (system : Text) (history : List Turn) (message : Text),
    FollowsProtocol (iterationCap maxToolIterations)
        (chatModelCalls script execute (iterationCap maxToolIterations)
          (buildToolsMessages system history message)) ∧
      FollowsProtocol (iterationCap maxToolIterations)
        (streamModelCalls stream execute (iterationCap maxToolIterations)
          (buildToolsMessages system history message)) := by
  intro follows
  have both := follows (fun _ => .ok ⟨[], [.custom (text "a") (text "note") []], none⟩)
    (fun _ => ⟨[], none⟩) (fun _ _ => .ok []) 1 [] [] []
  have sent := both.1.wellFormed ⟨false, [.prompt (text "system") [], .prompt (text "user") [],
    .toolCalls []]⟩ (by decide)
  exact sent.2.2.2.1 rfl

end Yomochi.Chat
