import Mathlib.Data.List.Induction
import Yomochi.Chat.Streaming
import Yomochi.Foundation.Runs

/-! What the model remembers of a user: chats of `ChatStreamUseCase` and `ChatQueryUseCase` beside
one another, each with its read, its stamps and its write as steps of their own, and the clearing
of a history between them. -/

namespace Yomochi.Chat.Memory

open Foundation

abbrev RequestId := Nat

abbrev Exchange := ChatTurn × ChatTurn

inductive Entry
  | exchanged (exchange : Exchange)
  | cleared (userId : UUID)

def exchanges (userId : UUID) (log : List Entry) : List Exchange :=
  log.foldl (fun before entry =>
    match entry with
    | .exchanged exchange => if exchange.1.userId = userId then before ++ [exchange] else before
    | .cleared owner => if owner = userId then [] else before) []

def dialog (exchanges : List Exchange) : List ChatTurn :=
  exchanges.flatMap fun exchange => [exchange.1, exchange.2]

/-- What a chat has read: the last turns, and `log` says what had been committed by then. -/
structure Reading where
  history : List ChatTurn
  log : List Entry

/-- How far a chat has come. A query is stamped when it begins, a streamed chat when its history
has been read. -/
inductive Phase
  | arrived
  | begun (userId : UUID) (createdAt : DateTime)
  | loaded (userId : UUID) (reading : Reading) (createdAt : Option DateTime)
  | asked (reading : Reading) (question : ChatTurn) (answerId : UUID)
  | answered (reading : Reading) (question answer : ChatTurn)
  | done

def Phase.user : Phase → Option UUID
  | .begun userId _ | .loaded userId _ _ => some userId
  | .asked _ question _ | .answered _ question _ => some question.userId
  | _ => none

def Phase.told : Phase → Option (UUID × Reading)
  | .loaded userId reading _ => some (userId, reading)
  | .asked reading question _ | .answered reading question _ => some (question.userId, reading)
  | _ => none

/-- `clock` is the last time that was told, and `drawn` the last identifier. -/
structure State where
  turns : Turns
  clock : DateTime
  drawn : Option UUID
  chats : RequestId → Phase
  log : List Entry

def State.start (clock : DateTime) : State := ⟨.empty, clock, none, fun _ => .arrived, []⟩

inductive Action
  | begin (request : RequestId) (userId : UUID) (now : DateTime)
  | load (request : RequestId) (userId : UUID)
  | loadBegun (request : RequestId)
  | ask (request : RequestId) (message : Text) (questionId : UUID) (now : DateTime)
      (answerId : UUID)
  | finish (request : RequestId) (content : Text) (toolsUsed : List Text) (now : DateTime)
  | reply (request : RequestId) (message content : Text) (toolsUsed : List Text)
      (questionId answerId : UUID) (now : DateTime)
  | save (request : RequestId)
  | fail (request : RequestId)
  | clear (userId : UUID)

def Action.starts : Action → Option UUID
  | .begin _ userId _ | .load _ userId => some userId
  | _ => none

namespace State

def setPhase (s : State) (request : RequestId) (phase : Phase) : State :=
  { s with chats := Function.update s.chats request phase }

def read (s : State) (userId : UUID) : Reading := ⟨s.turns.lastN userId HISTORY_TURNS, s.log⟩

/-- `clock.now()`: a clock does not go back. -/
def tick (s : State) (now : DateTime) : Option State :=
  if now < s.clock then none else some { s with clock := now }

/-- The generator's identifiers increase. -/
def draw (s : State) (id : UUID) : Option State :=
  if s.drawn.all (· < id) then some { s with drawn := some id } else none

/-- The write of a pair; one that is refused is logged, or answers an error. -/
def save (s : State) (request : RequestId) (question answer : ChatTurn) : State :=
  match s.turns.appendTurnPair question answer with
  | none => s.setPhase request .done
  | some turns =>
      { s.setPhase request .done with
        turns := turns
        log := s.log ++ [.exchanged (question, answer)] }

end State

def step (s : State) : Action → Option State
  | .begin request userId now =>
      match s.chats request with
      | .arrived => (s.tick now).map fun s => s.setPhase request (.begun userId now)
      | _ => none
  | .load request userId =>
      match s.chats request with
      | .arrived =>
          some (s.setPhase request (.loaded userId (s.read userId) none))
      | _ => none
  | .loadBegun request =>
      match s.chats request with
      | .begun userId createdAt =>
          some (s.setPhase request
            (.loaded userId (s.read userId) (some createdAt)))
      | _ => none
  | .ask request message questionId now answerId =>
      match s.chats request with
      | .loaded userId reading none =>
          (((s.draw questionId).bind fun s => s.tick now).bind fun s => s.draw answerId).map
            fun s => s.setPhase request
              (.asked reading ⟨questionId, userId, .user, message, [], now⟩ answerId)
      | _ => none
  | .finish request content toolsUsed now =>
      match s.chats request with
      | .asked reading question answerId =>
          if content = [] then some (s.setPhase request .done)
          else
            (s.tick now).map fun s => s.setPhase request (.answered reading question
              ⟨answerId, question.userId, .assistant, content, toolsMetadata toolsUsed, now⟩)
      | _ => none
  | .reply request message content toolsUsed questionId answerId now =>
      match s.chats request with
      | .loaded userId reading (some createdAt) =>
          (((s.draw questionId).bind fun s => s.draw answerId).bind fun s => s.tick now).map
            fun s => s.setPhase request (.answered reading
              ⟨questionId, userId, .user, message, [], createdAt⟩
              ⟨answerId, userId, .assistant, content, toolsMetadata toolsUsed, now⟩)
      | _ => none
  | .save request =>
      match s.chats request with
      | .answered _ question answer => some (s.save request question answer)
      | _ => none
  | .fail request =>
      match s.chats request with
      | .arrived | .done => none
      | _ => some (s.setPhase request .done)
  | .clear userId =>
      some { s with turns := s.turns.clearAll userId, log := s.log ++ [.cleared userId] }

/-! What a step can do. -/

inductive Outcome (s : State) : Action → State → Prop
  | ended {action : Action} (request : RequestId) : Outcome s action (s.setPhase request .done)
  | begun {request : RequestId} {userId : UUID} {now : DateTime} (later : s.clock ≤ now) :
      Outcome s (.begin request userId now)
        { s.setPhase request (.begun userId now) with clock := now }
  | loaded {action : Action} {request : RequestId} {userId : UUID} {createdAt : Option DateTime}
      (was : action.starts = some userId ∧ createdAt = none ∨
        ∃ time, s.chats request = .begun userId time ∧ createdAt = some time) :
      Outcome s action (s.setPhase request
        (.loaded userId (s.read userId) createdAt))
  | asked {request : RequestId} {userId questionId answerId : UUID} {reading : Reading}
      {message : Text} {now : DateTime} {action : Action}
      (was : s.chats request = .loaded userId reading none) (later : s.clock ≤ now)
      (fresh : s.drawn.all (· < questionId) = true) (ids : questionId < answerId) :
      Outcome s action { s.setPhase request
          (.asked reading ⟨questionId, userId, .user, message, [], now⟩ answerId) with
        clock := now
        drawn := some answerId }
  | finished {request : RequestId} {reading : Reading} {question : ChatTurn}
      {answerId : UUID} {content : Text} {toolsUsed : List Text} {now : DateTime} {action : Action}
      (was : s.chats request = .asked reading question answerId) (later : s.clock ≤ now) :
      Outcome s action { s.setPhase request (.answered reading question
          ⟨answerId, question.userId, .assistant, content, toolsMetadata toolsUsed, now⟩) with
        clock := now }
  | replied {request : RequestId} {userId questionId answerId : UUID} {reading : Reading}
      {message content : Text} {toolsUsed : List Text} {createdAt now : DateTime} {action : Action}
      (was : s.chats request = .loaded userId reading (some createdAt)) (later : s.clock ≤ now)
      (fresh : s.drawn.all (· < questionId) = true) (ids : questionId < answerId) :
      Outcome s action { s.setPhase request (.answered reading
          ⟨questionId, userId, .user, message, [], createdAt⟩
          ⟨answerId, userId, .assistant, content, toolsMetadata toolsUsed, now⟩) with
        clock := now
        drawn := some answerId }
  | saved {request : RequestId} {reading : Reading} {question answer : ChatTurn}
      {turns : Turns} {action : Action}
      (was : s.chats request = .answered reading question answer)
      (stored : s.turns.appendTurnPair question answer = some turns) :
      Outcome s action { s.setPhase request .done with
        turns := turns
        log := s.log ++ [.exchanged (question, answer)] }
  | cleared {action : Action} (userId : UUID) :
      Outcome s action
        { s with turns := s.turns.clearAll userId, log := s.log ++ [.cleared userId] }

section Outcomes

variable {s t : State}

theorem tick_some {now : DateTime} (ticked : s.tick now = some t) :
    s.clock ≤ now ∧ t = { s with clock := now } := by
  unfold State.tick at ticked
  split at ticked
  · cases ticked
  · rename_i later
    exact ⟨not_lt.mp later, (Option.some.inj ticked).symm⟩

theorem draw_some {id : UUID} (drawn : s.draw id = some t) :
    s.drawn.all (· < id) = true ∧ t = { s with drawn := some id } := by
  unfold State.draw at drawn
  split at drawn
  · rename_i fresh
    exact ⟨fresh, (Option.some.inj drawn).symm⟩
  · cases drawn

theorem step_outcome {action : Action} (taken : step s action = some t) : Outcome s action t := by
  cases action with
  | begin request userId now =>
      simp only [step] at taken
      split at taken
      · obtain ⟨u, ticked, rfl⟩ := Option.map_eq_some_iff.mp taken
        obtain ⟨later, rfl⟩ := tick_some ticked
        exact .begun later
      · cases taken
  | load request userId =>
      simp only [step] at taken
      split at taken
      · cases taken
        exact .loaded (.inl ⟨rfl, rfl⟩)
      · cases taken
  | loadBegun request =>
      simp only [step] at taken
      split at taken
      · rename_i was
        cases taken
        exact .loaded (.inr ⟨_, was, rfl⟩)
      · cases taken
  | ask request message questionId now answerId =>
      simp only [step] at taken
      split at taken
      · rename_i was
        obtain ⟨u, stamped, rfl⟩ := Option.map_eq_some_iff.mp taken
        obtain ⟨v, first, last⟩ := Option.bind_eq_some_iff.mp stamped
        obtain ⟨w, one, two⟩ := Option.bind_eq_some_iff.mp first
        obtain ⟨fresh, rfl⟩ := draw_some one
        obtain ⟨later, rfl⟩ := tick_some two
        obtain ⟨ids, rfl⟩ := draw_some last
        exact .asked was later fresh (of_decide_eq_true ids)
      · cases taken
  | finish request content toolsUsed now =>
      simp only [step] at taken
      split at taken
      · rename_i was
        split at taken
        · cases taken
          exact .ended request
        · obtain ⟨u, ticked, rfl⟩ := Option.map_eq_some_iff.mp taken
          obtain ⟨later, rfl⟩ := tick_some ticked
          exact .finished was later
      · cases taken
  | reply request message content toolsUsed questionId answerId now =>
      simp only [step] at taken
      split at taken
      · rename_i was
        obtain ⟨u, stamped, rfl⟩ := Option.map_eq_some_iff.mp taken
        obtain ⟨v, first, last⟩ := Option.bind_eq_some_iff.mp stamped
        obtain ⟨w, one, two⟩ := Option.bind_eq_some_iff.mp first
        obtain ⟨fresh, rfl⟩ := draw_some one
        obtain ⟨ids, rfl⟩ := draw_some two
        obtain ⟨later, rfl⟩ := tick_some last
        exact .replied was later fresh (of_decide_eq_true ids)
      · cases taken
  | save request =>
      simp only [step] at taken
      split at taken
      · rename_i was
        cases taken
        unfold State.save
        split
        · exact .ended request
        · rename_i stored
          exact .saved was stored
      · cases taken
  | fail request =>
      simp only [step] at taken
      split at taken
      · cases taken
      · cases taken
      · cases taken
        exact .ended request
  | clear userId =>
      cases taken
      exact .cleared userId

end Outcomes

/-! What is stored, whatever chats there are. -/

/-- An exchange is of one user, and its question comes before its answer. -/
structure Answers (exchange : Exchange) : Prop where
  user : exchange.2.userId = exchange.1.userId
  asks : exchange.1.role = .user
  replies : exchange.2.role = .assistant
  ordered : exchange.1.moment < exchange.2.moment

def lastTurns (turns : List ChatTurn) : List ChatTurn := turns.drop (turns.length - HISTORY_TURNS)

/-- A user's turns as the commits left them, by their moments. -/
def recalled (log : List Entry) (userId : UUID) : List ChatTurn :=
  ascending ChatTurn.moment (dialog (exchanges userId log))

/-- Every exchange that was committed since a user's history was last cleared is stored, once and
in the order of the commits, and nothing else is. A chat is told the last turns that were stored
when it read them. -/
structure Stored (s : State) : Prop where
  owned : ∀ userId, s.turns.owned userId = dialog (exchanges userId s.log)
  answers : ∀ exchange, .exchanged exchange ∈ s.log → Answers exchange
  told : ∀ request userId reading, (s.chats request).told = some (userId, reading) →
    reading.log <+: s.log ∧ reading.history = lastTurns (recalled reading.log userId)

def Drawn (s : State) (id : UUID) : Prop := ∃ last, s.drawn = some last ∧ id ≤ last

def Phase.Stamped (s : State) : Phase → Prop
  | .begun _ createdAt => createdAt ≤ s.clock
  | .loaded _ _ createdAt => ∀ time ∈ createdAt, time ≤ s.clock
  | .asked _ question answerId =>
      question.role = .user ∧ question.createdAt ≤ s.clock ∧ question.id < answerId ∧
        Drawn s answerId
  | .answered _ question answer =>
      Answers (question, answer) ∧ answer.createdAt ≤ s.clock ∧ question.createdAt ≤ s.clock ∧
        Drawn s question.id ∧ Drawn s answer.id
  | _ => True

structure Kept (s : State) : Prop extends Stored s where
  stamped : ∀ request, (s.chats request).Stamped s
  times : ∀ turn ∈ s.turns.rows, turn.createdAt ≤ s.clock
  ids : ∀ turn ∈ s.turns.rows, Drawn s turn.id

section Exchanges

variable {log : List Entry} {userId : UUID}

theorem exchanges_exchanged (exchange : Exchange) :
    exchanges userId (log ++ [.exchanged exchange]) =
      if exchange.1.userId = userId then exchanges userId log ++ [exchange]
      else exchanges userId log := by
  rw [exchanges, List.foldl_append]
  rfl

theorem exchanges_cleared (owner : UUID) :
    exchanges userId (log ++ [.cleared owner]) =
      if owner = userId then [] else exchanges userId log := by
  rw [exchanges, List.foldl_append]
  rfl

theorem mem_exchanges {exchange : Exchange} (member : exchange ∈ exchanges userId log) :
    .exchanged exchange ∈ log ∧ exchange.1.userId = userId := by
  induction log using List.reverseRecOn with
  | nil => cases member
  | append_singleton front last ih =>
      cases last with
      | exchanged new =>
          rw [exchanges_exchanged] at member
          split at member
          · rename_i own
            rcases List.mem_append.mp member with old | same
            · exact ⟨List.mem_append_left _ (ih old).1, (ih old).2⟩
            · rw [List.mem_singleton.mp same]
              exact ⟨List.mem_append_right _ (List.mem_singleton_self _), own⟩
          · exact ⟨List.mem_append_left _ (ih member).1, (ih member).2⟩
      | cleared owner =>
          rw [exchanges_cleared] at member
          split at member
          · cases member
          · exact ⟨List.mem_append_left _ (ih member).1, (ih member).2⟩

theorem dialog_append (front back : List Exchange) :
    dialog (front ++ back) = dialog front ++ dialog back := List.flatMap_append

theorem moment_lt {first second : ChatTurn} (times : first.createdAt ≤ second.createdAt)
    (ids : first.id < second.id) : first.moment < second.moment := by
  apply Listing.Moment.lt_iff.mpr
  rcases lt_or_eq_of_le times with less | same
  · exact .inl less
  · exact .inr ⟨same, ids⟩

end Exchanges

section Steps

variable {s t : State} {action : Action}

structure Grows (s t : State) : Prop where
  clock : s.clock ≤ t.clock
  drawn : ∀ id, Drawn s id → Drawn t id
  log : s.log <+: t.log

theorem drawn_before {id fresh : UUID} (drawn : Drawn s id) (new : s.drawn.all (· < fresh) = true) :
    id < fresh := by
  obtain ⟨last, known, below⟩ := drawn
  rw [known] at new
  exact lt_of_le_of_lt below (of_decide_eq_true new)

theorem outcome_grows (outcome : Outcome s action t) : Grows s t := by
  cases outcome with
  | begun later => exact ⟨later, fun _ drawn => drawn, List.prefix_refl _⟩
  | asked was later fresh ids =>
      refine ⟨later, ?_, List.prefix_refl _⟩
      intro id drawn
      exact ⟨_, rfl, ((drawn_before drawn fresh).trans ids).le⟩
  | finished was later => exact ⟨later, fun _ drawn => drawn, List.prefix_refl _⟩
  | replied was later fresh ids =>
      refine ⟨later, ?_, List.prefix_refl _⟩
      intro id drawn
      exact ⟨_, rfl, ((drawn_before drawn fresh).trans ids).le⟩
  | saved was stored => exact ⟨le_refl _, fun _ drawn => drawn, List.prefix_append _ _⟩
  | cleared userId => exact ⟨le_refl _, fun _ drawn => drawn, List.prefix_append _ _⟩
  | _ => exact ⟨le_refl _, fun _ drawn => drawn, List.prefix_refl _⟩

theorem stamped_grows {phase : Phase} (grows : Grows s t) (stamped : phase.Stamped s) :
    phase.Stamped t := by
  cases phase with
  | begun userId createdAt => exact stamped.trans grows.clock
  | loaded userId reading createdAt =>
      exact fun time given => (stamped time given).trans grows.clock
  | asked reading question answerId =>
      obtain ⟨asks, time, ids, drawn⟩ := stamped
      exact ⟨asks, time.trans grows.clock, ids, grows.drawn _ drawn⟩
  | answered reading question answer =>
      obtain ⟨answers, last, first, one, two⟩ := stamped
      exact ⟨answers, last.trans grows.clock, first.trans grows.clock, grows.drawn _ one,
        grows.drawn _ two⟩
  | _ => trivial

theorem owned_save {turns next : Turns} {question answer : ChatTurn} {userId : UUID}
    (stored : turns.appendTurnPair question answer = some next)
    (same : answer.userId = question.userId) :
    next.owned userId = turns.owned userId ++
      if question.userId = userId then [question, answer] else [] := by
  rw [Turns.owned, Turns.append_rows stored, List.filter_append]
  congr 1
  by_cases own : question.userId = userId
  · simp [own, same]
  · simp [own, same]

theorem owned_clear (turns : Turns) (cleared userId : UUID) :
    (turns.clearAll cleared).owned userId =
      if cleared = userId then [] else turns.owned userId := by
  simp only [Turns.owned, Turns.clearAll, Table.delete, List.filter_filter]
  split
  · rename_i same
    subst same
    apply List.filter_eq_nil_iff.mpr
    intro turn _
    simp
  · rename_i other
    apply List.filter_congr
    intro turn _
    by_cases own : turn.userId = userId
    · simp [own, Ne.symm other]
    · simp [own]

theorem owned_step (kept : Kept s) (outcome : Outcome s action t) (userId : UUID) :
    t.turns.owned userId = dialog (exchanges userId t.log) := by
  cases outcome with
  | @saved request reading question answer turns action was stored =>
      have stamped := kept.stamped request
      rw [was] at stamped
      dsimp only
      rw [owned_save stored stamped.1.user, exchanges_exchanged, kept.owned]
      split
      · rw [dialog_append]
        rfl
      · rw [List.append_nil]
  | cleared owner =>
      dsimp only
      rw [owned_clear, exchanges_cleared, kept.owned]
      split
      · rfl
      · rfl
  | _ => exact kept.owned userId

theorem answers_step (kept : Kept s) (outcome : Outcome s action t) (exchange : Exchange)
    (member : .exchanged exchange ∈ t.log) : Answers exchange := by
  cases outcome with
  | @saved request reading question answer turns action was stored =>
      rcases List.mem_append.mp member with old | new
      · exact kept.answers exchange old
      · have stamped := kept.stamped request
        rw [was] at stamped
        cases List.mem_singleton.mp new
        exact stamped.1
  | cleared owner =>
      rcases List.mem_append.mp member with old | new
      · exact kept.answers exchange old
      · cases List.mem_singleton.mp new
  | _ => exact kept.answers exchange member

/-- What a chat reads is the end of what has been committed. -/
theorem told_now (kept : Kept s) (userId : UUID) :
    s.turns.lastN userId HISTORY_TURNS = lastTurns (recalled s.log userId) := by
  rw [Turns.last_n_conversation, Turns.conversation, kept.owned]
  rfl

inductive Becomes (s : State) (action : Action) (t : State) (request : RequestId) : Phase → Prop
  | ended : Becomes s action t request .done
  | begun {userId : UUID} (starts : action.starts = some userId) :
      Becomes s action t request (.begun userId t.clock)
  | loaded {userId : UUID} {createdAt : Option DateTime}
      (was : action.starts = some userId ∧ createdAt = none ∨
        ∃ time, s.chats request = .begun userId time ∧ createdAt = some time) :
      Becomes s action t request
        (.loaded userId (s.read userId) createdAt)
  | asked {userId questionId answerId : UUID} {reading : Reading} {message : Text}
      (was : s.chats request = .loaded userId reading none)
      (fresh : s.drawn.all (· < questionId) = true) (ids : questionId < answerId)
      (drawn : t.drawn = some answerId) :
      Becomes s action t request
        (.asked reading ⟨questionId, userId, .user, message, [], t.clock⟩ answerId)
  | finished {reading : Reading} {question : ChatTurn} {answerId : UUID} {content : Text}
      {toolsUsed : List Text} (was : s.chats request = .asked reading question answerId) :
      Becomes s action t request (.answered reading question
        ⟨answerId, question.userId, .assistant, content, toolsMetadata toolsUsed, t.clock⟩)
  | replied {userId questionId answerId : UUID} {reading : Reading} {message content : Text}
      {toolsUsed : List Text} {createdAt : DateTime}
      (was : s.chats request = .loaded userId reading (some createdAt))
      (fresh : s.drawn.all (· < questionId) = true) (ids : questionId < answerId)
      (drawn : t.drawn = some answerId) :
      Becomes s action t request (.answered reading
        ⟨questionId, userId, .user, message, [], createdAt⟩
        ⟨answerId, userId, .assistant, content, toolsMetadata toolsUsed, t.clock⟩)

theorem outcome_phase (outcome : Outcome s action t) {request : RequestId} {phase : Phase}
    (there : t.chats request = phase) :
    s.chats request = phase ∨ Becomes s action t request phase := by
  cases outcome with
  | ended other =>
      rcases update_cases there with same | ⟨_, rfl⟩
      · exact .inl same
      · exact .inr .ended
  | begun later =>
      rcases update_cases there with same | ⟨_, rfl⟩
      · exact .inl same
      · exact .inr (.begun rfl)
  | loaded was =>
      rcases update_cases there with same | ⟨rfl, rfl⟩
      · exact .inl same
      · exact .inr (.loaded was)
  | asked was later fresh ids =>
      rcases update_cases there with same | ⟨rfl, rfl⟩
      · exact .inl same
      · exact .inr (.asked was fresh ids rfl)
  | finished was later =>
      rcases update_cases there with same | ⟨rfl, rfl⟩
      · exact .inl same
      · exact .inr (.finished was)
  | replied was later fresh ids =>
      rcases update_cases there with same | ⟨rfl, rfl⟩
      · exact .inl same
      · exact .inr (.replied was fresh ids rfl)
  | saved was stored =>
      rcases update_cases there with same | ⟨_, rfl⟩
      · exact .inl same
      · exact .inr .ended
  | cleared owner => exact .inl there

theorem outcome_told (outcome : Outcome s action t) {request : RequestId} {userId : UUID}
    {reading : Reading} (told : (t.chats request).told = some (userId, reading)) :
    (s.chats request).told = some (userId, reading) ∨
      reading = s.read userId := by
  generalize there : t.chats request = phase at told
  rcases outcome_phase outcome there with same | becomes
  · rw [same]
    exact .inl told
  · cases becomes with
    | ended => cases told
    | begun starts => cases told
    | loaded was =>
        cases told
        exact .inr rfl
    | asked was fresh ids drawn =>
        rw [was]
        exact .inl told
    | finished was =>
        rw [was]
        exact .inl told
    | replied was fresh ids drawn =>
        rw [was]
        exact .inl told

theorem told_step (kept : Kept s) (outcome : Outcome s action t) (request : RequestId)
    (userId : UUID) (reading : Reading)
    (told : (t.chats request).told = some (userId, reading)) :
    reading.log <+: t.log ∧ reading.history = lastTurns (recalled reading.log userId) := by
  have stays := (outcome_grows outcome).log
  rcases outcome_told outcome told with before | rfl
  · obtain ⟨front, same⟩ := kept.told request userId reading before
    exact ⟨front.trans stays, same⟩
  · exact ⟨stays, told_now kept userId⟩

theorem stamped_step (kept : Kept s) (outcome : Outcome s action t) (request : RequestId) :
    (t.chats request).Stamped t := by
  have grows := outcome_grows outcome
  have before : (s.chats request).Stamped t := stamped_grows grows (kept.stamped request)
  generalize there : t.chats request = phase
  rcases outcome_phase outcome there with same | becomes
  · rw [← same]
    exact before
  · cases becomes with
    | ended => trivial
    | begun starts => exact le_refl _
    | loaded was =>
        intro time given
        rcases was with ⟨_, rfl⟩ | ⟨begun, was, rfl⟩
        · cases given
        · cases given
          rw [was] at before
          exact before
    | asked was fresh ids drawn => exact ⟨rfl, le_refl _, ids, _, drawn, le_refl _⟩
    | finished was =>
        rw [was] at before
        obtain ⟨asks, time, ids, last, drawn, below⟩ := before
        exact ⟨⟨rfl, asks, rfl, moment_lt time ids⟩, le_refl _, time,
          ⟨last, drawn, ids.le.trans below⟩, last, drawn, below⟩
    | replied was fresh ids drawn =>
        rw [was] at before
        have time := before _ rfl
        exact ⟨⟨rfl, rfl, rfl, moment_lt time ids⟩, le_refl _, time, ⟨_, drawn, ids.le⟩, _,
          drawn, le_refl _⟩

/-- A row that a step stores is one of an exchange. -/
theorem outcome_rows (outcome : Outcome s action t) {turn : ChatTurn}
    (member : turn ∈ t.turns.rows) :
    turn ∈ s.turns.rows ∨ ∃ request reading question answer,
      s.chats request = .answered reading question answer ∧ (turn = question ∨ turn = answer) := by
  cases outcome with
  | @saved request reading question answer turns action was stored =>
      dsimp only at member
      rw [Turns.append_rows stored] at member
      rcases List.mem_append.mp member with old | new
      · exact .inl old
      · rcases List.mem_cons.mp new with rfl | last
        · exact .inr ⟨request, reading, turn, answer, was, .inl rfl⟩
        · exact .inr ⟨request, reading, question, answer, was, .inr (List.mem_singleton.mp last)⟩
  | cleared userId => exact .inl (List.mem_filter.mp member).1
  | _ => exact .inl member

theorem kept_step (kept : Kept s) (taken : step s action = some t) : Kept t := by
  have outcome := step_outcome taken
  have grows := outcome_grows outcome
  constructor
  · constructor
    · exact owned_step kept outcome
    · exact answers_step kept outcome
    · exact told_step kept outcome
  · exact stamped_step kept outcome
  · intro turn member
    rcases outcome_rows outcome member with old | ⟨request, reading, question, answer, was, new⟩
    · exact (kept.times turn old).trans grows.clock
    · have stamped := kept.stamped request
      rw [was] at stamped
      rcases new with rfl | rfl
      · exact stamped.2.2.1.trans grows.clock
      · exact stamped.2.1.trans grows.clock
  · intro turn member
    rcases outcome_rows outcome member with old | ⟨request, reading, question, answer, was, new⟩
    · exact grows.drawn _ (kept.ids turn old)
    · have stamped := kept.stamped request
      rw [was] at stamped
      rcases new with rfl | rfl
      · exact grows.drawn _ stamped.2.2.2.1
      · exact grows.drawn _ stamped.2.2.2.2

end Steps

theorem kept_start (clock : DateTime) : Kept (.start clock) := by
  constructor
  · constructor
    · intro userId
      rfl
    · intro exchange member
      cases member
    · intro request userId reading told
      cases told
  · intro request
    trivial
  · intro turn member
    cases member
  · intro turn member
    cases member

/-- However the chats of all users fall between one another, no exchange is lost or stored twice,
and every chat is told the last turns that were there when it read. -/
theorem exchanges_stored (clock : DateTime) (actions : List Action) :
    Visits step Stored (.start clock) actions := by
  have along : Along step (fun _ _ => True) (.start clock) actions :=
    along_always (fun _ _ => trivial) _ _
  apply visits_of_along _ (fun _ kept => kept.toStored) along (kept_start clock)
  exact fun _ _ _ _ taken kept => kept_step kept taken

end Yomochi.Chat.Memory
