import Mathlib.Logic.Function.Iterate
import Yomochi.Foundation.Runs
import Yomochi.Values

/-! `OpenAIGateway.call`: the limiter's queue, the circuit breaker, the error mapping, and the
fallback client behind it. The circuit breaker is the one of the purgatory package. -/

namespace Yomochi.Ai

open Foundation

inductive Endpoint
  | chat
  | vision
  | parse
  deriving DecidableEq, Repr

inductive AIErrorClass
  | OpenAICallError
  | AIRateLimitedError
  | AITimeoutError
  | AIUnavailableError
  | AIInvalidRequestError
  deriving DecidableEq, Repr

inductive SdkError
  | RateLimitError
  | APITimeoutError
  | APIConnectionError
  | BadRequestError
  | NotFoundError
  | UnprocessableEntityError
  | APIStatusError (statusCode : Nat)
  | OpenAIError (typeName : String)
  deriving DecidableEq, Repr

/-- `callError` is any `OpenAICallError`; `other` is an exception that the gateway does not
know, such as `ReceiptExtractionFailedError` or `ValueError`. -/
inductive PyException
  | callError (kind : AIErrorClass) (message : String)
  | openedState
  | sdk (error : SdkError) (message : String)
  | cancelled
  | other (typeName message : String)
  deriving DecidableEq, Repr

def AIErrorClass.typeName : AIErrorClass → String
  | .OpenAICallError => "OpenAICallError"
  | .AIRateLimitedError => "AIRateLimitedError"
  | .AITimeoutError => "AITimeoutError"
  | .AIUnavailableError => "AIUnavailableError"
  | .AIInvalidRequestError => "AIInvalidRequestError"

def SdkError.typeName : SdkError → String
  | .RateLimitError => "RateLimitError"
  | .APITimeoutError => "APITimeoutError"
  | .APIConnectionError => "APIConnectionError"
  | .BadRequestError => "BadRequestError"
  | .NotFoundError => "NotFoundError"
  | .UnprocessableEntityError => "UnprocessableEntityError"
  | .APIStatusError _ => "APIStatusError"
  | .OpenAIError typeName => typeName

def unexpected (typeName message : String) : PyException :=
  .callError .OpenAICallError ("unexpected error: " ++ typeName ++ ": " ++ message)

def mapException : PyException → PyException
  | .openedState => .callError .AIUnavailableError "circuit breaker is open"
  | .sdk .RateLimitError message => .callError .AIRateLimitedError message
  | .sdk .APITimeoutError message => .callError .AITimeoutError message
  | .sdk .APIConnectionError message =>
      .callError .AIUnavailableError ("connection error: " ++ message)
  | .sdk .BadRequestError message => .callError .AIInvalidRequestError message
  | .sdk .NotFoundError message => .callError .AIInvalidRequestError message
  | .sdk .UnprocessableEntityError message => .callError .AIInvalidRequestError message
  | .sdk (.APIStatusError statusCode) message =>
      if 500 ≤ statusCode then
        .callError .AIUnavailableError ("server error " ++ toString statusCode ++ ": " ++ message)
      else
        .callError .AIInvalidRequestError ("status " ++ toString statusCode ++ ": " ++ message)
  | .sdk (.OpenAIError typeName) message => unexpected typeName message
  | .callError kind message => unexpected kind.typeName message
  | .cancelled => unexpected "CancelledError" ""
  | .other typeName message => unexpected typeName message

def translate : PyException → PyException
  | .cancelled => .cancelled
  | .callError kind message => .callError kind message
  | raised => mapException raised

/-- `FallbackAIInsightClient.generate`, over the results of the two clients. -/
def generateWithFallback {Result : Type} (primary fallback : Except PyException Result) :
    Except PyException Result :=
  match primary with
  | .error (.callError _ _) => fallback
  | answer => answer

/-- A circuit breaker: `request` is `none` where it raises `OpenedState`. Every exception that
leaves its context counts, and enough of them open it. -/
structure CircuitBreaker where
  State : Type
  start : State
  isOpen : State → Bool
  request : State → Timestamp → Option State
  exception : Timestamp → State → State
  finish : State → State
  counts : ∀ now state, ∃ failures, isOpen ((exception now)^[failures] state) = true

abbrev CallId := Nat

inductive Phase
  | queued (endpoint : Endpoint)
  | running (endpoint : Endpoint)
  | ended
  deriving DecidableEq

inductive Cause
  | queueFull
  | breakerOpen
  | cancelledInQueue
  | returned
  | raised (exception : PyException)
  deriving DecidableEq

/-- A call that has ended: its cause, the breaker before that, and what the caller gets. -/
structure Ended (breaker : CircuitBreaker) (Result : Type) where
  cause : Cause
  before : breaker.State
  outcome : Except PyException Result

structure Gateway (breaker : CircuitBreaker) (Result : Type) where
  maxQueue : Nat
  waiting : Endpoint → Nat
  breakers : Endpoint → breaker.State
  calls : CallId → Option Phase
  ended : List (Ended breaker Result)

def Gateway.start (breaker : CircuitBreaker) (Result : Type) (maxQueue : Nat) :
    Gateway breaker Result where
  maxQueue := maxQueue
  waiting := fun _ => 0
  breakers := fun _ => breaker.start
  calls := fun _ => none
  ended := []

inductive Action (Result : Type)
  | enter (call : CallId) (endpoint : Endpoint)
  | acquired (call : CallId) (now : Timestamp)
  | cancelQueued (call : CallId)
  | finish (call : CallId) (now : Timestamp) (outcome : Except PyException Result)

variable {breaker : CircuitBreaker} {Result : Type}

namespace Gateway

def setPhase (g : Gateway breaker Result) (call : CallId) (phase : Phase) :
    Gateway breaker Result :=
  { g with calls := Function.update g.calls call (some phase) }

def setBreaker (g : Gateway breaker Result) (endpoint : Endpoint) (state : breaker.State) :
    Gateway breaker Result :=
  { g with breakers := Function.update g.breakers endpoint state }

def setWaiting (g : Gateway breaker Result) (endpoint : Endpoint) (waiting : Nat) :
    Gateway breaker Result :=
  { g with waiting := Function.update g.waiting endpoint waiting }

def finishCall (g : Gateway breaker Result) (call : CallId) (entry : Ended breaker Result) :
    Gateway breaker Result :=
  ({ g with ended := g.ended ++ [entry] } : Gateway breaker Result).setPhase call .ended

end Gateway

def queueFullError (endpoint : String) : PyException :=
  .callError .AIRateLimitedError ("openai limiter queue full for endpoint '" ++ endpoint ++ "'")

def Endpoint.name : Endpoint → String
  | .chat => "chat"
  | .vision => "vision"
  | .parse => "parse"

def callOutcome : Except PyException Result → Except PyException Result
  | .ok value => .ok value
  | .error raised => .error (translate raised)

def exitBreaker (breaker : CircuitBreaker) (now : Timestamp) (outcome : Except PyException Result)
    (state : breaker.State) : breaker.State :=
  match outcome with
  | .ok _ => breaker.finish state
  | .error _ => breaker.exception now state

def step (g : Gateway breaker Result) : Action Result → Option (Gateway breaker Result)
  | .enter call endpoint =>
      match g.calls call with
      | some _ => none
      | none =>
          if g.maxQueue ≤ g.waiting endpoint then
            some (g.finishCall call ⟨.queueFull, g.breakers endpoint,
              callOutcome (.error (queueFullError endpoint.name))⟩)
          else
            some ((g.setWaiting endpoint (g.waiting endpoint + 1)).setPhase call
              (.queued endpoint))
  | .acquired call now =>
      match g.calls call with
      | some (.queued endpoint) =>
          let g := g.setWaiting endpoint (g.waiting endpoint - 1)
          match breaker.request (g.breakers endpoint) now with
          | some state => some ((g.setBreaker endpoint state).setPhase call (.running endpoint))
          | none => some (g.finishCall call
              ⟨.breakerOpen, g.breakers endpoint, callOutcome (.error .openedState)⟩)
      | _ => none
  | .cancelQueued call =>
      match g.calls call with
      | some (.queued endpoint) =>
          some ((g.setWaiting endpoint (g.waiting endpoint - 1)).finishCall call
            ⟨.cancelledInQueue, g.breakers endpoint, callOutcome (.error .cancelled)⟩)
      | _ => none
  | .finish call now outcome =>
      match g.calls call with
      | some (.running endpoint) =>
          let before := g.breakers endpoint
          let cause := match outcome with
            | .ok _ => .returned
            | .error raised => .raised raised
          some ((g.setBreaker endpoint (exitBreaker breaker now outcome before)).finishCall call
            ⟨cause, before, callOutcome outcome⟩)
      | _ => none

/-- Failures of the SDK and the transport, an open breaker, and what the gateway itself raises. -/
def PyException.isGatewayError : PyException → Bool
  | .callError _ _ | .openedState | .sdk _ _ => true
  | .cancelled | .other _ _ => false

/-- No number of exceptions like this one opens the breaker. -/
def Harmless (breaker : CircuitBreaker) (Result : Type) (state : breaker.State)
    (raised : PyException) : Prop :=
  ∀ now failures, breaker.isOpen ((exitBreaker breaker now
    (.error raised : Except PyException Result))^[failures] state) = true →
      breaker.isOpen state = true

/-- The classes of errors are kept apart: exceptions that are not the gateway's pass through it,
and gateway errors are answered by the fallback. -/
structure Ended.Lawful (entry : Ended breaker Result) : Prop where
  foreign : ∀ raised, entry.cause = .raised raised → raised.isGatewayError = false →
    entry.outcome = .error raised ∧ Harmless breaker Result entry.before raised ∧
    ∀ fallback, generateWithFallback entry.outcome fallback = .error raised
  gateway : (entry.cause = .queueFull ∨ entry.cause = .breakerOpen ∨
      ∃ raised, entry.cause = .raised raised ∧ raised.isGatewayError = true) →
    ∀ fallback, generateWithFallback entry.outcome fallback = fallback

def ClassesPreserved (g : Gateway breaker Result) : Prop := ∀ entry ∈ g.ended, entry.Lawful

/-- No operation raises an exception of its own, a cancellation under an open breaker apart. -/
def OwnErrorsOnly (g : Gateway breaker Result) (a : Action Result) : Prop :=
  ∀ call now raised endpoint, a = .finish call now (.error raised) →
    g.calls call = some (.running endpoint) → raised.isGatewayError = false →
    raised = .cancelled ∧ breaker.isOpen (g.breakers endpoint) = true

theorem translate_gateway {raised : PyException} (known : raised.isGatewayError = true) :
    ∃ kind message, translate raised = .callError kind message := by
  cases raised with
  | callError kind message => exact ⟨kind, message, rfl⟩
  | openedState => exact ⟨_, _, rfl⟩
  | sdk error message =>
      cases error with
      | APIStatusError statusCode =>
          by_cases server : 500 ≤ statusCode
          · exact ⟨_, _, if_pos server⟩
          · exact ⟨_, _, if_neg server⟩
      | _ => exact ⟨_, _, rfl⟩
  | cancelled => cases known
  | other typeName message => cases known

theorem fallback_of_gateway {raised : PyException} (known : raised.isGatewayError = true)
    (fallback : Except PyException Result) :
    generateWithFallback (callOutcome (.error raised)) fallback = fallback := by
  obtain ⟨kind, message, translated⟩ := translate_gateway known
  simp [callOutcome, translated, generateWithFallback]

theorem lawful_of_gateway {entry : Ended breaker Result} (raised : PyException)
    (known : raised.isGatewayError = true) (outcome : entry.outcome = callOutcome (.error raised))
    (foreign : ∀ other, entry.cause = .raised other → other = raised) : entry.Lawful where
  foreign := by
    intro other cause unknown
    rw [foreign other cause, known] at unknown
    cases unknown
  gateway := by
    intro _ fallback
    rw [outcome, fallback_of_gateway known]

theorem lawful_of_quiet {entry : Ended breaker Result}
    (quiet : entry.cause = .cancelledInQueue ∨ entry.cause = .returned) : entry.Lawful where
  foreign := by
    intro raised cause
    rcases quiet with queue | returned
    · rw [queue] at cause
      cases cause
    · rw [returned] at cause
      cases cause
  gateway := by
    rcases quiet with queue | returned
    · simp [queue]
    · simp [returned]

/-- Of the exceptions that are not the gateway's, only a cancellation passes, and it counts. -/
theorem lawful_foreign_iff {entry : Ended breaker Result} {raised : PyException}
    (unknown : raised.isGatewayError = false) (cause : entry.cause = .raised raised)
    (outcome : entry.outcome = callOutcome (.error raised)) :
    entry.Lawful ↔ raised = .cancelled ∧ breaker.isOpen entry.before = true := by
  constructor
  · intro lawful
    obtain ⟨same, harmless, _⟩ := lawful.foreign raised cause unknown
    refine ⟨?_, ?_⟩
    · rw [outcome] at same
      cases raised with
      | cancelled => rfl
      | other typeName message => cases same
      | callError kind message => cases unknown
      | openedState => cases unknown
      | sdk error message => cases unknown
    · obtain ⟨failures, opened⟩ := breaker.counts 0 entry.before
      exact harmless 0 failures opened
  · rintro ⟨rfl, opened⟩
    refine ⟨fun other same _ => ?_, ?_⟩
    · cases cause.symm.trans same
      exact ⟨outcome, fun _ _ _ => opened, fun fallback => by rw [outcome]; rfl⟩
    · rintro (full | rejected | ⟨other, same, known⟩)
      · rw [cause] at full
        cases full
      · rw [cause] at rejected
        cases rejected
      · cases cause.symm.trans same
        cases known

variable {g h : Gateway breaker Result} {a : Action Result}

inductive Taken (g : Gateway breaker Result) : Action Result → Gateway breaker Result → Prop
  | rejected {call : CallId} {endpoint : Endpoint} (fresh : g.calls call = none)
      (full : g.maxQueue ≤ g.waiting endpoint) :
      Taken g (.enter call endpoint) (g.finishCall call ⟨.queueFull, g.breakers endpoint,
        callOutcome (.error (queueFullError endpoint.name))⟩)
  | queued {call : CallId} {endpoint : Endpoint} (fresh : g.calls call = none)
      (room : g.waiting endpoint < g.maxQueue) :
      Taken g (.enter call endpoint)
        ((g.setWaiting endpoint (g.waiting endpoint + 1)).setPhase call (.queued endpoint))
  | admitted {call : CallId} {endpoint : Endpoint} {now : Timestamp} {state : breaker.State}
      (waits : g.calls call = some (.queued endpoint))
      (passed : breaker.request (g.breakers endpoint) now = some state) :
      Taken g (.acquired call now)
        (((g.setWaiting endpoint (g.waiting endpoint - 1)).setBreaker endpoint state).setPhase call
          (.running endpoint))
  | refused {call : CallId} {endpoint : Endpoint} {now : Timestamp}
      (waits : g.calls call = some (.queued endpoint))
      (opened : breaker.request (g.breakers endpoint) now = none) :
      Taken g (.acquired call now)
        ((g.setWaiting endpoint (g.waiting endpoint - 1)).finishCall call
          ⟨.breakerOpen, g.breakers endpoint, callOutcome (.error .openedState)⟩)
  | cancelled {call : CallId} {endpoint : Endpoint}
      (waits : g.calls call = some (.queued endpoint)) :
      Taken g (.cancelQueued call)
        ((g.setWaiting endpoint (g.waiting endpoint - 1)).finishCall call
          ⟨.cancelledInQueue, g.breakers endpoint, callOutcome (.error .cancelled)⟩)
  | returned {call : CallId} {endpoint : Endpoint} {now : Timestamp} {value : Result}
      (running : g.calls call = some (.running endpoint)) :
      Taken g (.finish call now (.ok value))
        ((g.setBreaker endpoint (breaker.finish (g.breakers endpoint))).finishCall call
          ⟨.returned, g.breakers endpoint, .ok value⟩)
  | raised {call : CallId} {endpoint : Endpoint} {now : Timestamp} {raised : PyException}
      (running : g.calls call = some (.running endpoint)) :
      Taken g (.finish call now (.error raised))
        ((g.setBreaker endpoint (breaker.exception now (g.breakers endpoint))).finishCall call
          ⟨.raised raised, g.breakers endpoint, callOutcome (.error raised)⟩)

theorem step_taken (taken : step g a = some h) : Taken g a h := by
  cases a with
  | enter call endpoint =>
      simp only [step] at taken
      split at taken
      · cases taken
      · rename_i fresh
        split at taken
        · rename_i full
          cases taken
          exact .rejected fresh full
        · rename_i room
          cases taken
          exact .queued fresh (Nat.not_le.mp room)
  | acquired call now =>
      simp only [step] at taken
      split at taken
      · rename_i endpoint waits
        split at taken
        · rename_i state passed
          cases taken
          exact .admitted waits passed
        · rename_i opened
          cases taken
          exact .refused waits opened
      · cases taken
  | cancelQueued call =>
      simp only [step] at taken
      split at taken
      · rename_i endpoint waits
        cases taken
        exact .cancelled waits
      · cases taken
  | finish call now outcome =>
      simp only [step] at taken
      split at taken
      · rename_i endpoint running
        cases outcome with
        | ok value =>
            cases taken
            exact .returned running
        | error raised =>
            cases taken
            exact .raised running
      · cases taken

inductive Effect (g : Gateway breaker Result) (a : Action Result)
    (h : Gateway breaker Result) : Prop
  | quiet (ended : h.ended = g.ended) (running : OwnErrorsOnly g a)
  | lawful (entry : Ended breaker Result) (ended : h.ended = g.ended ++ [entry])
      (lawful : entry.Lawful) (running : OwnErrorsOnly g a)
  | foreign (call : CallId) (now : Timestamp) (endpoint : Endpoint) (raised : PyException)
      (entry : Ended breaker Result) (finish : a = .finish call now (.error raised))
      (running : g.calls call = some (.running endpoint))
      (unknown : raised.isGatewayError = false) (ended : h.ended = g.ended ++ [entry])
      (cause : entry.cause = .raised raised)
      (outcome : entry.outcome = callOutcome (.error raised))
      (before : entry.before = g.breakers endpoint)

theorem step_effect (taken : step g a = some h) : Effect g a h := by
  cases step_taken taken with
  | @rejected call endpoint fresh full =>
      exact .lawful _ rfl (lawful_of_gateway (queueFullError endpoint.name) rfl rfl
        fun _ same => by cases same) fun _ _ _ _ same => by cases same
  | queued fresh room => exact .quiet rfl fun _ _ _ _ same => by cases same
  | admitted waits passed => exact .quiet rfl fun _ _ _ _ same => by cases same
  | refused waits opened =>
      exact .lawful _ rfl (lawful_of_gateway .openedState rfl rfl fun _ same => by cases same)
        fun _ _ _ _ same => by cases same
  | cancelled waits =>
      exact .lawful _ rfl (lawful_of_quiet (.inl rfl)) fun _ _ _ _ same => by cases same
  | returned running =>
      exact .lawful _ rfl (lawful_of_quiet (.inr rfl)) fun _ _ _ _ same => by cases same
  | @raised call endpoint now raised running =>
      cases unknown : raised.isGatewayError with
      | true =>
          refine .lawful _ rfl (lawful_of_gateway raised unknown rfl fun _ same => ?_) ?_
          · cases same
            rfl
          · intro _ _ _ _ same _ foreign
            cases same
            rw [unknown] at foreign
            cases foreign
      | false => exact .foreign call now endpoint raised _ rfl running unknown rfl rfl rfl rfl

theorem classes_step (taken : step g a = some h) (preserved : ClassesPreserved g) :
    ClassesPreserved h ↔ OwnErrorsOnly g a := by
  have extend (entry : Ended breaker Result) (ended : h.ended = g.ended ++ [entry]) :
      ClassesPreserved h ↔ entry.Lawful := by
    constructor
    · intro after
      exact after entry (by simp [ended])
    · intro lawful other member
      rw [ended, List.mem_append, List.mem_singleton] at member
      rcases member with member | rfl
      · exact preserved other member
      · exact lawful
  cases step_effect taken with
  | quiet ended running => exact iff_of_true (by rwa [ClassesPreserved, ended]) running
  | lawful entry ended lawful running => exact iff_of_true ((extend entry ended).mpr lawful) running
  | foreign call now endpoint raised entry finish running unknown ended cause outcome before =>
      rw [extend entry ended, lawful_foreign_iff unknown cause outcome, before]
      constructor
      · intro passed other time found place same phase _
        rw [finish] at same
        cases same
        cases running.symm.trans phase
        exact passed
      · intro own
        exact own call now raised endpoint finish running unknown

theorem classes_preserved_iff (breaker : CircuitBreaker) (Result : Type) (maxQueue : Nat)
    (actions : List (Action Result)) (g : Gateway breaker Result)
    (reached : run step (.start breaker Result maxQueue) actions = some g) :
    Visits step ClassesPreserved (.start breaker Result maxQueue) actions ↔
      Along step OwnErrorsOnly (.start breaker Result maxQueue) actions :=
  visits_iff_along (I := fun _ => True) (fun _ _ _ _ _ => trivial)
    (fun _ _ _ taken _ preserved => classes_step taken preserved) reached trivial
    (fun entry member => by cases member)

inductive BreakerState
  | closed (failures : Nat)
  | opened (since : Timestamp)
  | halfOpened
  deriving DecidableEq, Repr

namespace BreakerState

def isOpen : BreakerState → Bool
  | .opened _ => true
  | _ => false

/-- The breaker opens at the threshold, and in a trial at once. -/
def exception (threshold : Nat) (now : Timestamp) : BreakerState → BreakerState
  | .closed failures =>
      if threshold ≤ failures + 1 then .opened now else .closed (failures + 1)
  | .opened since => .opened since
  | .halfOpened => .opened now

theorem counts (threshold : Nat) (now : Timestamp) (state : BreakerState) :
    ∃ failures, ((exception threshold now)^[failures] state).isOpen = true := by
  cases state with
  | opened since => exact ⟨0, rfl⟩
  | halfOpened => exact ⟨1, rfl⟩
  | closed failures =>
      induction missing : threshold - failures generalizing failures with
      | zero =>
          have reached : threshold ≤ failures + 1 := by omega
          exact ⟨1, by simp [exception, reached, isOpen]⟩
      | succ missing ih =>
          by_cases reached : threshold ≤ failures + 1
          · exact ⟨1, by simp [exception, reached, isOpen]⟩
          · obtain ⟨more, opened⟩ := ih (failures + 1) (by omega)
            refine ⟨more + 1, ?_⟩
            rwa [Function.iterate_succ_apply, exception, if_neg reached]

end BreakerState

def thresholdBreaker (threshold : Nat) (ttl : Timestamp) : CircuitBreaker where
  State := BreakerState
  start := .closed 0
  isOpen := BreakerState.isOpen
  request := fun state now =>
    match state with
    | .opened since => if since + ttl ≤ now then some .halfOpened else none
    | state => some state
  exception := BreakerState.exception threshold
  finish := fun state => if state.isOpen then state else .closed 0
  counts := BreakerState.counts threshold

def receiptCall (outcome : Except PyException Nat) : List (Action Nat) :=
  [.enter 0 .vision, .acquired 0 0, .finish 0 0 outcome]

theorem classes_preserved_receipt : ∃ g,
    run step (.start (thresholdBreaker 5 60) Nat 64) (receiptCall (.error (.sdk .RateLimitError ""))) =
      some g ∧
    (Visits step ClassesPreserved (.start (thresholdBreaker 5 60) Nat 64)
        (receiptCall (.error (.sdk .RateLimitError ""))) ↔
      Along step OwnErrorsOnly (.start (thresholdBreaker 5 60) Nat 64)
        (receiptCall (.error (.sdk .RateLimitError "")))) := by
  have ends : (run step (.start (thresholdBreaker 5 60) Nat 64)
      (receiptCall (.error (.sdk .RateLimitError "")))).isSome = true := rfl
  obtain ⟨g, reached⟩ := Option.isSome_iff_exists.mp ends
  exact ⟨g, reached, classes_preserved_iff (thresholdBreaker 5 60) Nat 64 _ g reached⟩

def notAReceipt : PyException :=
  .other "ReceiptExtractionFailedError" "Image does not appear to be a receipt"

/-- A rejected image comes out of the gateway as a failure of the gateway. -/
theorem not_classes_preserved : ¬ ∀ (breaker : CircuitBreaker) (Result : Type) (maxQueue : Nat)
    (actions : List (Action Result)) (g : Gateway breaker Result),
    run step (.start breaker Result maxQueue) actions = some g → ClassesPreserved g := by
  intro claimed
  have ends : (run step (.start (thresholdBreaker 5 60) Nat 64)
      (receiptCall (.error notAReceipt))).map Gateway.ended =
      some [⟨.raised notAReceipt, .closed 0, .error (.callError .OpenAICallError
        ("unexpected error: ReceiptExtractionFailedError: " ++
          "Image does not appear to be a receipt"))⟩] := by
    rfl
  obtain ⟨g, reached, ended⟩ := Option.map_eq_some_iff.mp ends
  have lawful := claimed _ Nat 64 _ g reached _ (by rw [ended]; exact List.mem_cons_self)
  cases (lawful.foreign notAReceipt rfl rfl).1

end Yomochi.Ai
