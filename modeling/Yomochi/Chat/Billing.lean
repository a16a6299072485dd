import Yomochi.Chat.ToolRounds

/-! What a chat records in the user's token budget, against the figures its client has received
when it ends or is cut off. -/

namespace Yomochi.Chat

open Foundation

variable {Failure : Type}

structure Turn where
  role : Text
  content : Text
  deriving DecidableEq, Repr

/-- `_build_tools_messages`; `system` is the prompt with the date in front. -/
def buildToolsMessages (system : Text) (history : List Turn) (message : Text) : List Message :=
  .prompt (text "system") system ::
    (history.map fun turn =>
      .prompt (if turn.role = text "user" ∨ turn.role = text "assistant" then turn.role
        else text "user") turn.content) ++
    [.prompt (text "user") message]

def historyChars (history : List Turn) : Nat :=
  history.foldl (fun chars turn => chars + turn.content.length) 0

def estimateTokensFromText (message : Text) (history : List Turn) (answer : Text) : Nat :=
  (message.length + historyChars history + answer.length) / 4 + 1

/-- The request and what answers it beside the model: `check` is the budget's, `history` the
loaded one, `execute` the tools. -/
structure Request (Failure : Type) where
  check : Except Failure Unit
  history : Except Failure (List Turn)
  system : Text
  message : Text
  execute : Nat → ToolCall → Except Failure Text
  maxToolIterations : Int

/-- `received` is the sum of the figures the client has, `recorded` what was added to the
budget. -/
structure Billing where
  received : Usage
  recorded : List Nat
  deriving DecidableEq, Repr

def Billing.nothing : Billing := ⟨.zero, []⟩

def record (tokens : Nat) : List Nat := if tokens = 0 then [] else [tokens]

def receivedOf : List Event → Usage
  | [] => .zero
  | .received usage :: events => usage.add (receivedOf events)
  | _ :: events => receivedOf events

/-- The `StreamUsage` that is kept: every one replaces the one before. -/
def latestUsage (usage : Usage) : List Event → Usage
  | [] => usage
  | .report newer _ :: events => latestUsage newer events
  | _ :: events => latestUsage usage events

def untilYield : Nat → List Event → List Event
  | _, [] => []
  | 0, .text chunk :: _ => [.text chunk]
  | n + 1, .text chunk :: events => .text chunk :: untilYield n events
  | n, event :: events => event :: untilYield n events

def untilDisconnect : Option Nat → List Event → List Event
  | none, events => events
  | some n, events => untilYield n events

/-- The `finally` block: the estimate stands in where no usage was reported. -/
def tokensToRecord (message : Text) (history : List Turn) (events : List Event) : Nat :=
  let answer := textOf events
  let usageTokens := (latestUsage .zero events).total
  if usageTokens = 0 ∧ answer ≠ [] then estimateTokensFromText message history answer
  else usageTokens

/-- `ChatStreamUseCase`; the `finally` block runs however the loop ends. -/
def chatStream (request : Request Failure) (script : Nat → StreamRound Failure)
    (disconnect : Option Nat) : Billing :=
  match request.check, request.history with
  | .ok _, .ok history =>
      let trace := streamWithTools script request.execute
        (iterationCap request.maxToolIterations)
        (buildToolsMessages request.system history request.message)
      let events := untilDisconnect disconnect trace.1
      ⟨receivedOf events, record (tokensToRecord request.message history events)⟩
  | _, _ => .nothing

def chatQuery (request : Request Failure) (script : Nat → Except Failure Round) : Billing :=
  match request.check, request.history with
  | .ok _, .ok history =>
      -- The gateway's call translates an exception, which changes no figure.
      match doChatWithTools script request.execute (iterationCap request.maxToolIterations)
          (buildToolsMessages request.system history request.message) with
      | (p, .error _) => ⟨p.usage, []⟩
      | (p, .ok response) => ⟨p.usage, record response.usage.total⟩
  | _, _ => .nothing

/-- How a chat is asked for, what the model answers, and when the client is gone. -/
inductive Route (Failure : Type)
  | stream (script : Nat → StreamRound Failure) (disconnect : Option Nat)
  | query (script : Nat → Except Failure Round)

def billing (request : Request Failure) : Route Failure → Billing
  | .stream script disconnect => chatStream request script disconnect
  | .query script => chatQuery request script

def Billing.Complete (billing : Billing) : Prop :=
  billing.received.total ≤ billing.recorded.foldl (· + ·) 0 ∧ billing.recorded.length ≤ 1

/-! When that is so. -/

def streamCalls (round : StreamRound Failure) : List ToolCall :=
  roundToolCalls (streamCallWithTools round)

def CallRaises (execute : ToolCall → Except Failure Text) (calls : List ToolCall) : Prop :=
  ∃ call ∈ calls, ∃ failure, execute call = .error failure

def StreamPasses (execute : ToolCall → Except Failure Text) (round : StreamRound Failure) : Prop :=
  round.failure = none ∧ streamCalls round ≠ [] ∧ ¬CallRaises execute (streamCalls round)

def pieces (round : StreamRound Failure) : List Text :=
  round.chunks.filterMap fun chunk => chunk.choice.bind fun choice =>
    if choice.content = [] then none else some choice.content

def said (script : Nat → StreamRound Failure) : Nat → List Text
  | 0 => []
  | i + 1 => said script i ++ pieces (script i)

abbrev streamUsage (script : Nat → StreamRound Failure) (i : Nat) : Usage :=
  lastUsage (script i).chunks

/-- A tool of round `i` raises, while the client is there. -/
structure RaisesIn (execute : Nat → ToolCall → Except Failure Text)
    (script : Nat → StreamRound Failure) (disconnect : Option Nat) (i : Nat) : Prop where
  before : ∀ j < i, StreamPasses (execute j) (script j)
  complete : (script i).failure = none
  raises : CallRaises (execute i) (streamCalls (script i))
  stays : ∀ n, disconnect = some n → (said script (i + 1)).length ≤ n

/-- The figures of the last round are all there is, and the estimate for the text covers them. -/
structure EstimateCovers (message : Text) (history : List Turn)
    (script : Nat → StreamRound Failure) (i : Nat) : Prop where
  first : ∀ j < i, (streamUsage script j).total = 0
  spoken : (said script (i + 1)).flatten ≠ []
  covers : (streamUsage script i).total ≤
    estimateTokensFromText message history (said script (i + 1)).flatten

def StreamCovered (request : Request Failure) (history : List Turn)
    (script : Nat → StreamRound Failure) (disconnect : Option Nat) : Prop :=
  ∀ i < iterationCap request.maxToolIterations, RaisesIn request.execute script disconnect i →
    (streamUsage script i).total = 0 ∨ EstimateCovers request.message history script i

def roundUsage : Except Failure Round → Usage
  | .ok round => round.usage.getD .zero
  | .error _ => .zero

def QueryPasses (execute : ToolCall → Except Failure Text) : Except Failure Round → Prop
  | .ok round => round.toolCalls ≠ [] ∧ ¬CallRaises execute round.toolCalls
  | .error _ => False

def LosesIn (execute : Nat → ToolCall → Except Failure Text) (script : Nat → Except Failure Round)
    (cap i : Nat) : Prop :=
  match script i with
  | .error _ => True
  | .ok round => i < cap ∧ CallRaises (execute i) round.toolCalls

structure LostIn (execute : Nat → ToolCall → Except Failure Text)
    (script : Nat → Except Failure Round) (cap i : Nat) : Prop where
  bound : i ≤ cap
  before : ∀ j < i, QueryPasses (execute j) (script j)
  loses : LosesIn execute script cap i

def QueryCovered (request : Request Failure) (script : Nat → Except Failure Round) : Prop :=
  ∀ i, LostIn request.execute script (iterationCap request.maxToolIterations) i →
    ∀ j ≤ i, (roundUsage (script j)).total = 0

/-- No tool raises behind figures that are not reported yet and that the estimate does not cover;
and a whole chat with any figures ends with its answer. -/
def Covered (request : Request Failure) (route : Route Failure) : Prop :=
  match request.check, request.history with
  | .ok _, .ok history =>
      match route with
      | .stream script disconnect => StreamCovered request history script disconnect
      | .query script => QueryCovered request script
  | _, _ => True

/-! The events of a round. -/

def textsOf (events : List Event) : List Text :=
  events.filterMap fun event =>
    match event with
    | .text chunk => some chunk
    | _ => none

theorem text_of_flatten (events : List Event) : textOf events = (textsOf events).flatten := by
  induction events with
  | nil => rfl
  | cons event events ih =>
      cases event with
      | text chunk => exact congrArg (chunk ++ ·) ih
      | sends messages => exact ih
      | received usage => exact ih
      | report usage toolsUsed => exact ih

theorem texts_of_append (first second : List Event) :
    textsOf (first ++ second) = textsOf first ++ textsOf second :=
  List.filterMap_append

@[simp]
theorem texts_of_texts (texts : List Text) : textsOf (texts.map .text) = texts := by
  induction texts with
  | nil => rfl
  | cons chunk texts ih => exact congrArg (chunk :: ·) ih

theorem Usage.add_zero (usage : Usage) : usage.add .zero = usage := rfl

theorem Usage.zero_add (usage : Usage) : Usage.zero.add usage = usage := by
  simp [Usage.add, Usage.zero]

theorem Usage.add_assoc (first second third : Usage) :
    (first.add second).add third = first.add (second.add third) := by
  simp [Usage.add, Nat.add_assoc]

theorem Usage.add_total (first second : Usage) :
    (first.add second).total = first.total + second.total := by
  simp only [Usage.add, Usage.total]
  omega

theorem received_of_append (first second : List Event) :
    receivedOf (first ++ second) = (receivedOf first).add (receivedOf second) := by
  induction first with
  | nil => exact (Usage.zero_add _).symm
  | cons event first ih =>
      cases event with
      | received usage =>
          rw [List.cons_append, receivedOf, receivedOf, ih, Usage.add_assoc]
      | text chunk => exact ih
      | sends messages => exact ih
      | report usage toolsUsed => exact ih

theorem latest_usage_append (usage : Usage) (first second : List Event) :
    latestUsage usage (first ++ second) = latestUsage (latestUsage usage first) second := by
  induction first generalizing usage with
  | nil => rfl
  | cons event first ih =>
      cases event with
      | report newer toolsUsed => exact ih newer
      | text chunk => exact ih usage
      | sends messages => exact ih usage
      | received figures => exact ih usage

def roundEvents (messages : List Message) (round : StreamRound Failure) : List Event :=
  .sends messages :: (pieces round).map .text ++
    if round.failure.isNone then [.received (lastUsage round.chunks)] else []

theorem taken_chunk_events (slots : List (Nat × ToolCall)) (chunks : List Chunk) :
    (chunkEvents slots chunks).filterMap takeEvent =
      (chunks.filterMap fun chunk => chunk.choice.bind fun choice =>
        if choice.content = [] then none else some choice.content).map .text := by
  induction chunks generalizing slots with
  | nil => rfl
  | cons chunk chunks ih =>
      obtain ⟨choice, usage⟩ := chunk
      cases choice with
      | none => exact ih slots
      | some choice =>
          simp only [chunkEvents, List.filterMap_append, ih]
          by_cases empty : choice.content = [] <;> cases finished : choice.finishesWithTools <;>
            simp [empty, takeEvent]

theorem taken_usage (round : StreamRound Failure) :
    (if round.failure.isNone then [GatewayEvent.usageInfo (lastUsage round.chunks)]
      else []).filterMap takeEvent =
    if round.failure.isNone then [.received (lastUsage round.chunks)] else [] := by
  cases round.failure <;> rfl

theorem taken_with_tools (messages : List Message) (round : StreamRound Failure) :
    .sends messages :: (streamCallWithTools round).filterMap takeEvent =
      roundEvents messages round := by
  rw [streamCallWithTools, List.filterMap_append, taken_chunk_events, taken_usage]
  rfl

theorem taken_without_tools (messages : List Message) (round : StreamRound Failure) :
    .sends messages :: (streamCall round).filterMap takeEvent = roundEvents messages round := by
  have texts : (round.chunks.filterMap fun chunk => chunk.choice.bind fun choice =>
      if choice.content = [] then none else some (GatewayEvent.contentDelta choice.content)
      ).filterMap takeEvent = (pieces round).map .text := by
    rw [pieces]
    induction round.chunks with
    | nil => rfl
    | cons chunk chunks ih =>
        obtain ⟨choice, usage⟩ := chunk
        cases choice with
        | none => exact ih
        | some choice =>
            by_cases empty : choice.content = []
            · simpa [empty] using ih
            · simpa [empty, takeEvent] using ih
  rw [streamCall, List.filterMap_append, taken_usage, texts]
  rfl

theorem received_of_texts (texts : List Text) : receivedOf (texts.map .text) = .zero := by
  induction texts with
  | nil => rfl
  | cons chunk texts ih => exact ih

theorem latest_usage_texts (usage : Usage) (texts : List Text) :
    latestUsage usage (texts.map .text) = usage := by
  induction texts with
  | nil => rfl
  | cons chunk texts ih => exact ih

theorem texts_of_round (messages : List Message) (round : StreamRound Failure) :
    textsOf (roundEvents messages round) = pieces round := by
  have figures : textsOf (if round.failure.isNone then [.received (lastUsage round.chunks)]
      else []) = [] := by
    cases round.failure <;> rfl
  change textsOf ((pieces round).map .text ++ _) = _
  rw [texts_of_append, texts_of_texts, figures, List.append_nil]

theorem received_of_round (messages : List Message) {round : StreamRound Failure}
    (complete : round.failure = none) :
    receivedOf (roundEvents messages round) = lastUsage round.chunks := by
  rw [roundEvents, complete]
  change receivedOf ((pieces round).map .text ++ [.received (lastUsage round.chunks)]) = _
  rw [received_of_append, received_of_texts, Usage.zero_add]
  rfl

theorem received_of_broken (messages : List Message) {round : StreamRound Failure}
    {failure : Failure} (broken : round.failure = some failure) :
    receivedOf (roundEvents messages round) = .zero := by
  rw [roundEvents, broken]
  change receivedOf ((pieces round).map .text ++ []) = _
  rw [List.append_nil, received_of_texts]

theorem latest_usage_round (usage : Usage) (messages : List Message)
    (round : StreamRound Failure) : latestUsage usage (roundEvents messages round) = usage := by
  have figures : latestUsage usage (if round.failure.isNone then
      [.received (lastUsage round.chunks)] else []) = usage := by
    cases round.failure <;> rfl
  change latestUsage usage ((pieces round).map .text ++ _) = _
  rw [latest_usage_append, latest_usage_texts, figures]

def usageBefore (usages : Nat → Usage) : Nat → Usage
  | 0 => .zero
  | i + 1 => (usageBefore usages i).add (usages i)

theorem usage_before_zero_iff (usages : Nat → Usage) (i : Nat) :
    (usageBefore usages i).total = 0 ↔ ∀ j < i, (usages j).total = 0 := by
  induction i with
  | zero => simp [usageBefore, Usage.zero, Usage.total]
  | succ i ih =>
      rw [usageBefore, Usage.add_total, Nat.add_eq_zero_iff, ih]
      constructor
      · rintro ⟨before, here⟩ j bound
        rcases Nat.lt_succ_iff_lt_or_eq.mp bound with earlier | rfl
        · exact before j earlier
        · exact here
      · intro all
        exact ⟨fun j bound => all j (Nat.lt_succ_of_lt bound), all i (Nat.lt_succ_self i)⟩

/-! A client that is gone. -/

theorem until_yield_texts (n : Nat) (texts : List Text) (events : List Event) :
    untilYield n (texts.map .text ++ events) =
      if n < texts.length then (texts.take (n + 1)).map .text
      else texts.map .text ++ untilYield (n - texts.length) events := by
  induction texts generalizing n with
  | nil => rfl
  | cons chunk texts ih =>
      cases n with
      | zero => simp [untilYield]
      | succ n =>
          rw [List.map_cons, List.cons_append, untilYield, ih]
          by_cases inside : n < texts.length
          · simp [inside]
          · simp [inside]

theorem until_yield_all {n : Nat} {events : List Event} (few : (textsOf events).length ≤ n) :
    untilYield n events = events := by
  induction events generalizing n with
  | nil => rfl
  | cons event events ih =>
      cases event with
      | text chunk =>
          cases n with
          | zero => exact absurd few (Nat.not_succ_le_zero _)
          | succ n => exact congrArg (Event.text chunk :: ·) (ih (Nat.le_of_succ_le_succ few))
      | sends messages => exact congrArg (Event.sends messages :: ·) (ih few)
      | received usage => exact congrArg (Event.received usage :: ·) (ih few)
      | report usage toolsUsed => exact congrArg (Event.report usage toolsUsed :: ·) (ih few)

/-- A disconnect falls into the texts of a round, or behind them. -/
theorem until_yield_round (n : Nat) (messages : List Message) (round : StreamRound Failure)
    (events : List Event) :
    untilYield n (roundEvents messages round ++ events) =
      if n < (pieces round).length then
        .sends messages :: ((pieces round).take (n + 1)).map .text
      else roundEvents messages round ++ untilYield (n - (pieces round).length) events := by
  have figures : ∀ m, untilYield m ((if round.failure.isNone then
      [.received (lastUsage round.chunks)] else []) ++ events) =
      (if round.failure.isNone then [.received (lastUsage round.chunks)] else []) ++
        untilYield m events := by
    intro m
    cases round.failure <;> rfl
  simp only [roundEvents, List.cons_append, List.append_assoc, untilYield, until_yield_texts,
    figures]
  split <;> rfl

section Streams

variable {script : Nat → StreamRound Failure} {execute : Nat → ToolCall → Except Failure Text}

theorem execute_round_raises {calls : List ToolCall} {executeCall : ToolCall → Except Failure Text}
    (messages : List Message) (raises : CallRaises executeCall calls) :
    ∃ failure, executeToolRound executeCall messages calls = .error failure :=
  (execute_round_error_iff executeCall messages calls).mpr raises

theorem execute_round_returns {calls : List ToolCall}
    {executeCall : ToolCall → Except Failure Text} (messages : List Message)
    (returns : ¬CallRaises executeCall calls) :
    ∃ later, executeToolRound executeCall messages calls = .ok later := by
  cases executed : executeToolRound executeCall messages calls with
  | ok later => exact ⟨later, rfl⟩
  | error failure =>
      exact absurd ((execute_round_error_iff executeCall messages calls).mp ⟨failure, executed⟩)
        returns

inductive RoundEnd (execute : ToolCall → Except Failure Text) (round : StreamRound Failure) : Prop
  | broken (failure : Failure) (failed : round.failure = some failure)
  | answers (complete : round.failure = none) (final : streamCalls round = [])
  | raises (complete : round.failure = none) (raised : CallRaises execute (streamCalls round))
  | passes (passed : StreamPasses execute round)

theorem round_end (execute : ToolCall → Except Failure Text) (round : StreamRound Failure) :
    RoundEnd execute round := by
  cases failed : round.failure with
  | some failure => exact .broken failure failed
  | none =>
      by_cases final : streamCalls round = []
      · exact .answers failed final
      · by_cases raised : CallRaises execute (streamCalls round)
        · exact .raises failed raised
        · exact .passes ⟨failed, final, raised⟩

theorem stream_broken {remaining i : Nat} {p : Progress} {failure : Failure}
    (failed : (script i).failure = some failure) :
    streamRounds script execute remaining i p = (roundEvents p.messages (script i), some failure) := by
  cases remaining <;>
    simp only [streamRounds, failed, taken_with_tools, taken_without_tools]

theorem stream_answers {remaining i : Nat} {p : Progress}
    (complete : (script i).failure = none) (final : remaining = 0 ∨ streamCalls (script i) = []) :
    streamRounds script execute remaining i p =
      (roundEvents p.messages (script i) ++
        [.report (p.usage.add (lastUsage (script i).chunks)) p.toolsUsed], none) := by
  cases remaining with
  | zero => simp only [streamRounds, complete, taken_without_tools]
  | succ remaining =>
      have final : roundToolCalls (streamCallWithTools (script i)) = [] :=
        final.resolve_left (Nat.succ_ne_zero _)
      simp only [streamRounds, complete, taken_with_tools, final, if_true]
      rfl

theorem stream_raises {remaining i : Nat} {p : Progress} (complete : (script i).failure = none)
    (raised : CallRaises (execute i) (streamCalls (script i))) :
    (streamRounds script execute (remaining + 1) i p).1 = roundEvents p.messages (script i) := by
  have final : ¬roundToolCalls (streamCallWithTools (script i)) = [] := by
    obtain ⟨call, member, _⟩ := raised
    exact List.ne_nil_of_mem member
  obtain ⟨failure, executed⟩ := execute_round_raises
    (p.send.receive (lastUsage (script i).chunks)).messages raised
  unfold streamCalls at executed
  simp only [streamRounds, complete, taken_with_tools, final, if_false, executed]

theorem stream_passes (remaining i : Nat) (p : Progress)
    (passed : StreamPasses (execute i) (script i)) :
    ∃ next : Progress, next.usage = p.usage.add (lastUsage (script i).chunks) ∧
      streamRounds script execute (remaining + 1) i p =
        Trace.after (roundEvents p.messages (script i) ++ [.report next.usage next.toolsUsed])
          (streamRounds script execute remaining (i + 1) next) := by
  obtain ⟨complete, final, returns⟩ := passed
  have executed := execute_round_returns (p.send.receive (lastUsage (script i).chunks)).messages
    returns
  obtain ⟨messages, executed⟩ := executed
  refine ⟨(p.send.receive (lastUsage (script i).chunks)).next messages (streamCalls (script i)),
    rfl, ?_⟩
  unfold streamCalls at final executed ⊢
  simp only [streamRounds, complete, taken_with_tools, final, if_false, executed]

/-- In a round, before its figures. -/
theorem disconnect_in_round {n : Nat} {messages : List Message} {round : StreamRound Failure}
    (usage : Usage) (events : List Event) (inside : n < (pieces round).length) :
    latestUsage usage (untilYield n (roundEvents messages round ++ events)) =
      usage.add (receivedOf (untilYield n (roundEvents messages round ++ events))) := by
  rw [until_yield_round, if_pos inside]
  change latestUsage usage (((pieces round).take (n + 1)).map .text) =
    usage.add (receivedOf (((pieces round).take (n + 1)).map .text))
  rw [latest_usage_texts, received_of_texts, Usage.add_zero]

/-- No text comes behind the texts of a last round. -/
theorem disconnect_in_last {n : Nat} {messages : List Message} {round : StreamRound Failure}
    (usage : Usage) {events : List Event} (silent : textsOf events = [])
    (gone : n < (textsOf (roundEvents messages round ++ events)).length) :
    latestUsage usage (untilYield n (roundEvents messages round ++ events)) =
      usage.add (receivedOf (untilYield n (roundEvents messages round ++ events))) := by
  apply disconnect_in_round
  rwa [texts_of_append, texts_of_round, silent, List.append_nil] at gone

/-- Wherever the client is gone, all figures that were received have been reported. -/
theorem disconnect_reported (remaining i : Nat) (p : Progress) (n : Nat)
    (gone : n < (textsOf (streamRounds script execute remaining i p).1).length) :
    latestUsage p.usage (untilYield n (streamRounds script execute remaining i p).1) =
      p.usage.add (receivedOf (untilYield n (streamRounds script execute remaining i p).1)) := by
  induction remaining generalizing i p n with
  | zero =>
      cases failed : (script i).failure with
      | some failure =>
          rw [stream_broken failed] at gone ⊢
          rw [← List.append_nil (roundEvents _ _)] at gone ⊢
          exact disconnect_in_last p.usage rfl gone
      | none =>
          rw [stream_answers failed (.inl rfl)] at gone ⊢
          exact disconnect_in_last p.usage rfl gone
  | succ remaining ih =>
      cases round_end (execute i) (script i) with
      | broken failure failed =>
          rw [stream_broken failed] at gone ⊢
          rw [← List.append_nil (roundEvents _ _)] at gone ⊢
          exact disconnect_in_last p.usage rfl gone
      | answers complete final =>
          rw [stream_answers complete (.inr final)] at gone ⊢
          exact disconnect_in_last p.usage rfl gone
      | raises complete raised =>
          rw [stream_raises complete raised] at gone ⊢
          rw [← List.append_nil (roundEvents _ _)] at gone ⊢
          exact disconnect_in_last p.usage rfl gone
      | passes passed =>
          obtain ⟨next, carried, rounds⟩ := stream_passes remaining i p passed
          rw [rounds] at gone ⊢
          simp only [Trace.after, List.append_assoc] at gone ⊢
          by_cases inside : n < (pieces (script i)).length
          · exact disconnect_in_round p.usage _ inside
          · have later : n - (pieces (script i)).length <
                (textsOf (streamRounds script execute remaining (i + 1) next).1).length := by
              rw [texts_of_append, texts_of_round, List.length_append] at gone
              change n < _ + (textsOf (streamRounds script execute remaining (i + 1) next).1).length
                at gone
              omega
            have reported := ih (i + 1) next _ later
            rw [until_yield_round, if_neg inside, latest_usage_append, latest_usage_round,
              received_of_append, received_of_round _ passed.1, ← Usage.add_assoc, ← carried]
            simpa only [List.singleton_append, untilYield, latestUsage, receivedOf] using reported

/-- The events in front of round `k`, when the rounds before it are tool rounds that pass. -/
theorem stream_before {cap : Nat} (messages : List Message) {k : Nat} (bound : k ≤ cap)
    (passed : ∀ j < k, StreamPasses (execute j) (script j)) :
    ∃ (before : List Event) (p : Progress),
      streamWithTools script execute cap messages =
        Trace.after before (streamRounds script execute (cap - k) k p) ∧
      p.usage = usageBefore (streamUsage script) k ∧
      receivedOf before = usageBefore (streamUsage script) k ∧
      latestUsage .zero before = usageBefore (streamUsage script) k ∧
      textsOf before = said script k := by
  induction k with
  | zero => exact ⟨[], .start messages, rfl, rfl, rfl, rfl, rfl⟩
  | succ k ih =>
      obtain ⟨before, p, rounds, carried, received, latest, texts⟩ :=
        ih (Nat.le_of_succ_le bound) fun j earlier => passed j (Nat.lt_succ_of_lt earlier)
      have here := passed k (Nat.lt_succ_self k)
      have left : cap - k = cap - (k + 1) + 1 := by omega
      obtain ⟨next, grown, later⟩ := stream_passes (cap - (k + 1)) k p here
      refine ⟨before ++ (roundEvents p.messages (script k) ++
        [.report next.usage next.toolsUsed]), next, ?_, ?_, ?_, ?_, ?_⟩
      · rw [rounds, left, later]
        simp only [Trace.after, List.append_assoc]
      · rw [grown, carried, usageBefore]
      · rw [received_of_append, received_of_append, received, received_of_round _ here.1,
          usageBefore]
        rfl
      · rw [latest_usage_append, latest_usage_append, latestUsage, latestUsage, grown, carried,
          usageBefore]
      · rw [texts_of_append, texts_of_append, texts, texts_of_round, said]
        exact congrArg (said script k ++ ·) (List.append_nil _)

theorem first_stop (P : Nat → Prop) (cap : Nat) :
    ∃ k ≤ cap, (∀ j < k, P j) ∧ (k < cap → ¬P k) := by
  induction cap with
  | zero => exact ⟨0, Nat.le_refl _, by simp, by simp⟩
  | succ cap ih =>
      obtain ⟨k, bound, before, stops⟩ := ih
      rcases Nat.lt_or_eq_of_le bound with earlier | rfl
      · exact ⟨k, Nat.le_succ_of_le bound, before, fun _ => stops earlier⟩
      · by_cases here : P k
        · refine ⟨k + 1, Nat.le_refl _, fun j inside => ?_, fun absurd => by omega⟩
          rcases Nat.lt_succ_iff_lt_or_eq.mp inside with earlier | rfl
          · exact before j earlier
          · exact here
        · exact ⟨k, Nat.le_succ k, before, fun _ => here⟩

/-- A round whose tools raise is the first one that does not pass. -/
theorem raises_in_unique {disconnect : Option Nat} {i k : Nat}
    (raises : RaisesIn execute script disconnect i)
    (before : ∀ j < k, StreamPasses (execute j) (script j))
    (stops : ¬StreamPasses (execute k) (script k)) : i = k := by
  rcases Nat.lt_trichotomy i k with earlier | same | later
  · exact absurd raises.raises (before i earlier).2.2
  · exact same
  · exact absurd (raises.before k later) stops

theorem not_raises_at {disconnect : Option Nat} {cap k : Nat}
    (before : ∀ j < k, StreamPasses (execute j) (script j))
    (stops : k < cap → ¬StreamPasses (execute k) (script k))
    (here : k < cap → ¬RaisesIn execute script disconnect k) :
    ¬∃ i < cap, RaisesIn execute script disconnect i := by
  rintro ⟨i, bound, raises⟩
  by_cases earlier : i < k
  · exact (before i earlier).2.2 raises.raises
  · have inside : k < cap := by omega
    cases raises_in_unique raises before (stops inside)
    exact here inside raises

theorem stream_outcome (script : Nat → StreamRound Failure)
    (execute : Nat → ToolCall → Except Failure Text) (cap : Nat) (messages : List Message) :
    (∃ i < cap, RaisesIn execute script none i ∧
      receivedOf (streamWithTools script execute cap messages).1 =
        usageBefore (streamUsage script) (i + 1) ∧
      latestUsage .zero (streamWithTools script execute cap messages).1 =
        usageBefore (streamUsage script) i ∧
      textsOf (streamWithTools script execute cap messages).1 = said script (i + 1)) ∨
    (¬∃ i < cap, RaisesIn execute script none i) ∧
      latestUsage .zero (streamWithTools script execute cap messages).1 =
        receivedOf (streamWithTools script execute cap messages).1 := by
  obtain ⟨k, bound, passed, stops⟩ :=
    first_stop (fun j => StreamPasses (execute j) (script j)) cap
  obtain ⟨before, p, rounds, carried, received, latest, texts⟩ :=
    stream_before messages bound passed
  have broken : ∀ failure, (script k).failure = some failure →
      (¬∃ i < cap, RaisesIn execute script none i) ∧
      latestUsage .zero (streamWithTools script execute cap messages).1 =
        receivedOf (streamWithTools script execute cap messages).1 := by
    intro failure failed
    refine ⟨not_raises_at passed stops fun _ raises => ?_, ?_⟩
    · exact nomatch failed.symm.trans raises.complete
    · rw [rounds, stream_broken failed]
      simp only [Trace.after, latest_usage_append, received_of_append, received_of_broken _ failed,
        latest_usage_round, latest, received, Usage.add_zero]
  have answers : (script k).failure = none → cap - k = 0 ∨ streamCalls (script k) = [] →
      (¬∃ i < cap, RaisesIn execute script none i) ∧
      latestUsage .zero (streamWithTools script execute cap messages).1 =
        receivedOf (streamWithTools script execute cap messages).1 := by
    intro complete final
    refine ⟨not_raises_at passed stops fun inside raises => ?_, ?_⟩
    · obtain ⟨call, member, _⟩ := raises.raises
      rw [final.resolve_left (by omega)] at member
      cases member
    · rw [rounds, stream_answers complete final]
      simp only [Trace.after, latest_usage_append, received_of_append,
        received_of_round _ complete, latestUsage, receivedOf, received, carried,
        Usage.add_zero]
  rcases Nat.lt_or_eq_of_le bound with inside | rfl
  · have left : cap - k = cap - (k + 1) + 1 := by omega
    cases round_end (execute k) (script k) with
    | broken failure failed => exact .inr (broken failure failed)
    | answers complete final => exact .inr (answers complete (.inr final))
    | passes here => exact absurd here (stops inside)
    | raises complete raised =>
        refine .inl ⟨k, inside, ⟨passed, complete, raised, nofun⟩, ?_, ?_, ?_⟩
        · rw [rounds, left, Trace.after, stream_raises complete raised, received_of_append,
            received_of_round _ complete, received, usageBefore]
        · rw [rounds, left, Trace.after, stream_raises complete raised, latest_usage_append,
            latest_usage_round, latest]
        · rw [rounds, left, Trace.after, stream_raises complete raised, texts_of_append,
            texts_of_round, texts, said]
  · cases failed : (script k).failure with
    | some failure => exact .inr (broken failure failed)
    | none => exact .inr (answers failed (.inl (Nat.sub_self k)))

/-- One record of everything that is to be recorded. -/
theorem record_complete (received : Usage) (tokens : Nat) :
    (Billing.mk received (record tokens)).Complete ↔ received.total ≤ tokens := by
  unfold Billing.Complete record
  by_cases none : tokens = 0
  · simp [none]
  · simp [none]

theorem reported_recorded (message : Text) (history : List Turn) {events : List Event}
    (reported : latestUsage .zero events = receivedOf events) :
    (receivedOf events).total ≤ tokensToRecord message history events := by
  simp only [tokensToRecord, reported]
  split
  · rename_i estimated
    rw [estimated.1]
    exact Nat.zero_le _
  · exact Nat.le_refl _

/-- Where the last figures are not reported, they are billed if they are zero or the estimate
is used and covers them. -/
theorem unreported_recorded_iff {message : Text} {history : List Turn} {i : Nat}
    {events : List Event} (received : receivedOf events = usageBefore (streamUsage script) (i + 1))
    (latest : latestUsage .zero events = usageBefore (streamUsage script) i)
    (texts : textsOf events = said script (i + 1)) :
    (receivedOf events).total ≤ tokensToRecord message history events ↔
      (streamUsage script i).total = 0 ∨ EstimateCovers message history script i := by
  have zero := usage_before_zero_iff (streamUsage script) i
  simp only [tokensToRecord, received, latest, text_of_flatten, texts, usageBefore,
    Usage.add_total]
  have positive : 0 < estimateTokensFromText message history (said script (i + 1)).flatten :=
    Nat.succ_pos _
  split
  · rename_i estimated
    rw [estimated.1, Nat.zero_add]
    constructor
    · exact fun covers => .inr ⟨zero.mp estimated.1, estimated.2, covers⟩
    · rintro (none | covered)
      · omega
      · exact covered.covers
  · rename_i exact
    constructor
    · exact fun covers => .inl (by omega)
    · rintro (none | covered)
      · omega
      · exact absurd ⟨zero.mpr covered.first, covered.spoken⟩ exact

theorem RaisesIn.stops {disconnect : Option Nat} {i : Nat}
    (raises : RaisesIn execute script disconnect i) :
    ¬StreamPasses (execute i) (script i) :=
  fun passes => passes.2.2 raises.raises

theorem RaisesIn.never_gone {disconnect : Option Nat} {i : Nat}
    (raises : RaisesIn execute script disconnect i) : RaisesIn execute script none i :=
  ⟨raises.before, raises.complete, raises.raises, nofun⟩

theorem chat_stream_complete_iff (request : Request Failure) {history : List Turn}
    (checked : request.check = .ok ()) (loaded : request.history = .ok history)
    (disconnect : Option Nat) :
    (chatStream request script disconnect).Complete ↔
      StreamCovered request history script disconnect := by
  unfold chatStream StreamCovered
  simp only [checked, loaded, record_complete]
  generalize iterationCap request.maxToolIterations = cap
  generalize buildToolsMessages request.system history request.message = messages
  have outcome := stream_outcome script request.execute cap messages
  have reported : ∀ n,
      n < (textsOf (streamWithTools script request.execute cap messages).1).length →
      latestUsage .zero (untilYield n (streamWithTools script request.execute cap messages).1) =
        receivedOf (untilYield n (streamWithTools script request.execute cap messages).1) := by
    intro n gone
    exact (disconnect_reported cap 0 (.start messages) n gone).trans (Usage.zero_add _)
  generalize (streamWithTools script request.execute cap messages).1 = events at outcome reported ⊢
  by_cases gone : ∃ n, disconnect = some n ∧ n < (textsOf events).length
  · obtain ⟨n, rfl, gone⟩ := gone
    refine iff_of_true (reported_recorded _ _ (reported n gone)) ?_
    intro i bound raises
    rcases outcome with ⟨k, _, there, _, _, texts⟩ | ⟨never, _⟩
    · have same := raises_in_unique raises there.before there.stops
      have stays := raises.stays n rfl
      rw [texts, ← same] at gone
      omega
    · exact absurd ⟨i, bound, raises.never_gone⟩ never
  · have whole : untilDisconnect disconnect events = events := by
      cases disconnect with
      | none => rfl
      | some n =>
          apply until_yield_all
          by_contra more
          exact gone ⟨n, rfl, Nat.lt_of_not_le more⟩
    rw [whole]
    rcases outcome with ⟨k, bound, there, received, latest, texts⟩ | ⟨never, same⟩
    · rw [unreported_recorded_iff received latest texts]
      have raises : RaisesIn request.execute script disconnect k := by
        refine ⟨there.before, there.complete, there.raises, fun n at_n => ?_⟩
        rw [← texts]
        by_contra more
        exact gone ⟨n, at_n, Nat.lt_of_not_le more⟩
      constructor
      · intro covered i _ other
        cases raises_in_unique other raises.before raises.stops
        exact covered
      · exact fun covered => covered k bound raises
    · refine iff_of_true (reported_recorded _ _ same) ?_
      intro i bound raises
      exact absurd ⟨i, bound, raises.never_gone⟩ never

end Streams

section Queries

variable {script : Nat → Except Failure Round} {execute : Nat → ToolCall → Except Failure Text}

theorem query_passes (remaining i : Nat) (p : Progress)
    (passed : QueryPasses (execute i) (script i)) :
    ∃ next : Progress, next.usage = p.usage.add (roundUsage (script i)) ∧
      resolveToolRounds script execute (remaining + 1) i p =
        resolveToolRounds script execute remaining (i + 1) next := by
  cases answer : script i with
  | error failure =>
      rw [answer] at passed
      exact passed.elim
  | ok round =>
      rw [answer] at passed
      obtain ⟨tools, returns⟩ := passed
      obtain ⟨messages, executed⟩ := execute_round_returns
        (p.send.receive (round.usage.getD .zero)).messages returns
      refine ⟨(p.send.receive (round.usage.getD .zero)).next messages round.toolCalls, rfl, ?_⟩
      simp only [resolveToolRounds, answer, tools, if_false, executed]

theorem query_before {cap : Nat} (messages : List Message) {k : Nat} (bound : k ≤ cap)
    (passed : ∀ j < k, QueryPasses (execute j) (script j)) :
    ∃ p : Progress,
      resolveToolRounds script execute cap 0 (.start messages) =
        resolveToolRounds script execute (cap - k) k p ∧
      p.usage = usageBefore (fun j => roundUsage (script j)) k := by
  induction k with
  | zero => exact ⟨.start messages, rfl, rfl⟩
  | succ k ih =>
      obtain ⟨p, rounds, carried⟩ :=
        ih (Nat.le_of_succ_le bound) fun j earlier => passed j (Nat.lt_succ_of_lt earlier)
      have left : cap - k = cap - (k + 1) + 1 := by omega
      obtain ⟨next, grown, later⟩ :=
        query_passes (cap - (k + 1)) k p (passed k (Nat.lt_succ_self k))
      refine ⟨next, ?_, ?_⟩
      · rw [rounds, left, later]
      · rw [grown, carried, usageBefore]

theorem LosesIn.stops {cap i : Nat} (loses : LosesIn execute script cap i) :
    ¬QueryPasses (execute i) (script i) := by
  unfold LosesIn at loses
  cases answer : script i with
  | error failure => exact id
  | ok round =>
      rw [answer] at loses
      exact fun passes => passes.2 loses.2

theorem lost_in_unique {cap i k : Nat} (lost : LostIn execute script cap i)
    (before : ∀ j < k, QueryPasses (execute j) (script j))
    (stops : k < cap → ¬QueryPasses (execute k) (script k)) : i = k := by
  rcases Nat.lt_trichotomy i k with earlier | same | later
  · exact absurd (before i earlier) lost.loses.stops
  · exact same
  · exact absurd (lost.before k later) (stops (Nat.lt_of_lt_of_le later lost.bound))

section RoundEnds

variable {cap k : Nat} {p : Progress}

theorem query_failed (bound : k ≤ cap) {failure : Failure} (answer : script k = .error failure) :
    forceAnswer script cap (resolveToolRounds script execute (cap - k) k p) =
      (p.send, .error failure) := by
  rcases Nat.lt_or_eq_of_le bound with inside | rfl
  · have left : cap - k = cap - (k + 1) + 1 := by omega
    simp only [left, resolveToolRounds, answer, forceAnswer]
  · simp only [Nat.sub_self, resolveToolRounds, answer, forceAnswer]

theorem query_answers (bound : k ≤ cap) {round : Round} (answer : script k = .ok round)
    (final : k < cap → round.toolCalls = []) :
    forceAnswer script cap (resolveToolRounds script execute (cap - k) k p) =
      (p.send.receive (round.usage.getD .zero),
        .ok ⟨round.text, (p.send.receive (round.usage.getD .zero)).usage, p.toolsUsed⟩) := by
  rcases Nat.lt_or_eq_of_le bound with inside | rfl
  · have left : cap - k = cap - (k + 1) + 1 := by omega
    simp only [left, resolveToolRounds, answer, final inside, if_true, forceAnswer]
    rfl
  · simp only [Nat.sub_self, resolveToolRounds, answer, forceAnswer]
    rfl

theorem query_raises (inside : k < cap) {round : Round} (answer : script k = .ok round)
    (tools : round.toolCalls ≠ []) (raised : CallRaises (execute k) round.toolCalls) :
    ∃ failure, forceAnswer script cap (resolveToolRounds script execute (cap - k) k p) =
      (p.send.receive (round.usage.getD .zero), .error failure) := by
  obtain ⟨failure, executed⟩ := execute_round_raises
    (p.send.receive (round.usage.getD .zero)).messages raised
  have left : cap - k = cap - (k + 1) + 1 := by omega
  refine ⟨failure, ?_⟩
  simp only [left, resolveToolRounds, answer, tools, if_false, executed, forceAnswer]

end RoundEnds

theorem query_outcome (script : Nat → Except Failure Round)
    (execute : Nat → ToolCall → Except Failure Text) (cap : Nat) (messages : List Message) :
    (∃ i, LostIn execute script cap i ∧ ∃ (p : Progress) (failure : Failure),
      doChatWithTools script execute cap messages = (p, .error failure) ∧
      p.usage = usageBefore (fun j => roundUsage (script j)) (i + 1)) ∨
    (¬∃ i, LostIn execute script cap i) ∧ ∃ (p : Progress) (response : ChatResponse),
      doChatWithTools script execute cap messages = (p, .ok response) ∧
      p.usage = response.usage := by
  obtain ⟨k, bound, passed, stops⟩ :=
    first_stop (fun j => QueryPasses (execute j) (script j)) cap
  obtain ⟨p, rounds, carried⟩ := query_before messages bound passed
  have kept : ¬LosesIn execute script cap k → ¬∃ i, LostIn execute script cap i := by
    rintro answers ⟨i, lost⟩
    cases lost_in_unique lost passed stops
    exact answers lost.loses
  unfold doChatWithTools
  rw [rounds]
  cases answer : script k with
  | error failure =>
      have loses : LosesIn execute script cap k := by
        rw [LosesIn, answer]
        trivial
      have here : roundUsage (script k) = .zero := by
        rw [answer]
        rfl
      refine .inl ⟨k, ⟨bound, passed, loses⟩, p.send, failure, query_failed bound answer, ?_⟩
      rw [usageBefore, here, Usage.add_zero, ← carried]
      rfl
  | ok round =>
      by_cases final : k < cap → round.toolCalls = []
      · have answers : ¬LosesIn execute script cap k := by
          rw [LosesIn, answer]
          rintro ⟨inside, call, member, _⟩
          rw [final inside] at member
          cases member
        exact .inr ⟨kept answers, _, _, query_answers bound answer final, rfl⟩
      · obtain ⟨inside, tools⟩ := Classical.not_imp.mp final
        have raised : CallRaises (execute k) round.toolCalls := by
          by_contra returns
          refine stops inside ?_
          rw [answer]
          exact ⟨tools, returns⟩
        have loses : LosesIn execute script cap k := by
          rw [LosesIn, answer]
          exact ⟨inside, raised⟩
        have here : roundUsage (script k) = round.usage.getD .zero := by
          rw [answer]
          rfl
        obtain ⟨failure, ended⟩ := query_raises (p := p) inside answer tools raised
        refine .inl ⟨k, ⟨bound, passed, loses⟩, _, failure, ended, ?_⟩
        rw [usageBefore, here, ← carried]
        rfl

theorem chat_query_complete_iff (request : Request Failure) {history : List Turn}
    (checked : request.check = .ok ()) (loaded : request.history = .ok history) :
    (chatQuery request script).Complete ↔ QueryCovered request script := by
  have outcome := query_outcome script request.execute (iterationCap request.maxToolIterations)
    (buildToolsMessages request.system history request.message)
  unfold chatQuery QueryCovered
  simp only [checked, loaded]
  rcases outcome with ⟨i, lost, p, failure, ends, received⟩ | ⟨never, p, response, ends, billed⟩
  · have lostAll : (Billing.mk p.usage []).Complete ↔
        ∀ j ≤ i, (roundUsage (script j)).total = 0 := by
      have zero := usage_before_zero_iff (fun j => roundUsage (script j)) (i + 1)
      simpa [Billing.Complete, received, Nat.lt_succ_iff] using zero
    rw [ends]
    constructor
    · intro complete k other
      cases lost_in_unique other lost.before fun _ => lost.loses.stops
      exact lostAll.mp complete
    · exact fun covered => lostAll.mpr (covered i lost)
  · rw [ends]
    refine iff_of_true ?_ fun i lost => absurd ⟨i, lost⟩ never
    rw [record_complete, billed]

end Queries

theorem billing_complete_iff (request : Request Failure) (route : Route Failure) :
    (billing request route).Complete ↔ Covered request route := by
  unfold Covered
  cases checked : request.check with
  | error failure =>
      refine iff_of_true ?_ trivial
      cases route <;> simp [billing, chatStream, chatQuery, checked, Billing.nothing,
        Billing.Complete, Usage.zero, Usage.total]
  | ok checkedUnit =>
      cases loaded : request.history with
      | error failure =>
          refine iff_of_true ?_ trivial
          cases route <;> simp [billing, chatStream, chatQuery, loaded, Billing.nothing,
            Billing.Complete, Usage.zero, Usage.total]
      | ok history =>
          cases route with
          | stream script disconnect => exact chat_stream_complete_iff request checked loaded _
          | query script => exact chat_query_complete_iff request checked loaded

def raisingTools : Request Unit where
  check := .ok ()
  history := .ok []
  system := []
  message := text "How much did I spend?"
  execute := fun _ _ => .error ()
  maxToolIterations := 3

def askingScript (_ : Nat) : StreamRound Unit where
  chunks := [⟨some ⟨[], [⟨0, text "1", text "search_transactions", text "x"⟩],
    some "tool_calls"⟩, none⟩, ⟨none, some ⟨10, 2⟩⟩]
  failure := none

/-- The tokens of the round whose tool raises are not billed. -/
theorem not_billing_complete :
    ¬ ∀ (request : Request Unit) (route : Route Unit), (billing request route).Complete := by
  intro claimed
  have complete := claimed raisingTools (.stream askingScript none)
  exact absurd complete.1 (by decide)

end Yomochi.Chat
