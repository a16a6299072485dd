import Yomochi.Chat.Memory

/-! One user's chats, one after the other: the dialog that the model is told the end of. -/

namespace Yomochi.Chat.Memory

open Foundation

/-- A user whose chat is under way does not begin another one. -/
def Alone (s : State) (action : Action) : Prop :=
  ∀ userId ∈ action.starts, ∀ request, (s.chats request).user ≠ some userId

/-- The history that the model is told is the end of the dialog that the user has had until then:
from the last turn back, an answer and its question, an answer and its question, and an answer. -/
structure Remembers (s : State) : Prop where
  conversation : ∀ userId, s.turns.conversation userId = dialog (exchanges userId s.log)
  told : ∀ request userId reading, (s.chats request).told = some (userId, reading) →
    reading.log <+: s.log ∧
      reading.history = lastTurns (dialog (exchanges userId reading.log)) ∧
      reading.history.reverse.map ChatTurn.role =
        (List.replicate (exchanges userId reading.log).length
          [Role.assistant, Role.user]).flatten.take HISTORY_TURNS

def Phase.Ahead (turns : Turns) : Phase → Prop
  | .begun userId createdAt => ∀ turn ∈ turns.owned userId, turn.createdAt ≤ createdAt
  | .loaded userId _ createdAt =>
      ∀ time ∈ createdAt, ∀ turn ∈ turns.owned userId, turn.createdAt ≤ time
  | .asked _ question _ | .answered _ question _ =>
      ∀ turn ∈ turns.owned question.userId, turn.moment < question.moment
  | _ => True

structure Serial (s : State) : Prop extends Kept s where
  sole : ∀ first second userId, first ≠ second → (s.chats first).user = some userId →
    (s.chats second).user ≠ some userId
  ahead : ∀ request, (s.chats request).Ahead s.turns
  ordered : ∀ userId earlier, earlier <+: s.log →
    (dialog (exchanges userId earlier)).Pairwise fun first second => first.moment < second.moment

section Dialogs

theorem dialog_roles {exchanges : List Exchange}
    (answers : ∀ exchange ∈ exchanges, Answers exchange) :
    (dialog exchanges).reverse.map ChatTurn.role =
      (List.replicate exchanges.length [Role.assistant, Role.user]).flatten := by
  induction exchanges using List.reverseRecOn with
  | nil => rfl
  | append_singleton front last ih =>
      have final := answers last (List.mem_append_right _ (List.mem_singleton_self _))
      have before := ih fun exchange member => answers exchange (List.mem_append_left _ member)
      rw [dialog_append, List.reverse_append, List.map_append, before, List.length_append,
        List.length_singleton, List.replicate_succ, List.flatten_cons]
      congr 1
      change [last.2.role, last.1.role] = _
      rw [final.asks, final.replies]

theorem last_turns_roles {exchanges : List Exchange}
    (answers : ∀ exchange ∈ exchanges, Answers exchange) :
    (lastTurns (dialog exchanges)).reverse.map ChatTurn.role =
      (List.replicate exchanges.length [Role.assistant, Role.user]).flatten.take HISTORY_TURNS := by
  rw [lastTurns, ← List.take_reverse, List.map_take, dialog_roles answers]

/-- Where the exchanges have come one after the other, the moments say so. -/
theorem recalled_dialog {log : List Entry} {userId : UUID}
    (ordered : (dialog (exchanges userId log)).Pairwise fun first second =>
      first.moment < second.moment) : recalled log userId = dialog (exchanges userId log) := by
  have unique : ((dialog (exchanges userId log)).map ChatTurn.moment).Nodup :=
    List.pairwise_map.mpr (ordered.imp fun less => less.ne)
  exact ascending_eq ordered unique fun turn => Iff.rfl

theorem remembers_of_serial {s : State} (serial : Serial s) : Remembers s := by
  constructor
  · intro userId
    rw [Turns.conversation, serial.owned]
    exact recalled_dialog (serial.ordered userId s.log (List.prefix_refl _))
  · intro request userId reading told
    obtain ⟨front, same⟩ := serial.told request userId reading told
    rw [recalled_dialog (serial.ordered userId reading.log front)] at same
    refine ⟨front, same, ?_⟩
    rw [same]
    apply last_turns_roles
    intro exchange member
    exact serial.answers exchange (front.subset (mem_exchanges member).1)

end Dialogs

section SerialSteps

variable {s t : State} {action : Action}

theorem outcome_user (outcome : Outcome s action t) {request : RequestId} {userId : UUID}
    (user : (t.chats request).user = some userId) :
    (s.chats request).user = some userId ∨ action.starts = some userId := by
  generalize there : t.chats request = phase at user
  rcases outcome_phase outcome there with same | becomes
  · rw [same]
    exact .inl user
  · cases becomes with
    | ended => cases user
    | begun starts =>
        cases user
        exact .inr starts
    | loaded was =>
        cases user
        rcases was with ⟨starts, _⟩ | ⟨time, was, _⟩
        · exact .inr starts
        · rw [was]
          exact .inl rfl
    | asked was fresh ids drawn =>
        rw [was]
        exact .inl user
    | finished was =>
        rw [was]
        exact .inl user
    | replied was fresh ids drawn =>
        rw [was]
        exact .inl user

theorem update_one {chats : RequestId → Phase} (changed : RequestId) (phase : Phase)
    {first second : RequestId} (different : first ≠ second) :
    Function.update chats changed phase first = chats first ∨
      Function.update chats changed phase second = chats second := by
  by_cases same : first = changed
  · subst same
    exact .inr (Function.update_of_ne different.symm _ _)
  · exact .inl (Function.update_of_ne same _ _)

theorem outcome_one (outcome : Outcome s action t) {first second : RequestId}
    (different : first ≠ second) :
    t.chats first = s.chats first ∨ t.chats second = s.chats second := by
  cases outcome with
  | cleared userId => exact .inl rfl
  | _ => exact update_one _ _ different

theorem sole_step (serial : Serial s) (alone : Alone s action) (outcome : Outcome s action t)
    (first second : RequestId) (userId : UUID) (different : first ≠ second)
    (one : (t.chats first).user = some userId) : (t.chats second).user ≠ some userId := by
  intro two
  rcases outcome_one outcome different with same | same
  · rw [same] at one
    rcases outcome_user outcome two with before | starts
    · exact serial.sole first second userId different one before
    · exact alone userId starts first one
  · rw [same] at two
    rcases outcome_user outcome one with before | starts
    · exact serial.sole first second userId different before two
    · exact alone userId starts second two

/-- While a user's chat is under way, the user's turns do not become more. -/
theorem outcome_owned (serial : Serial s) (outcome : Outcome s action t) {request : RequestId}
    {userId : UUID} (user : (t.chats request).user = some userId) :
    t.turns.owned userId ⊆ s.turns.owned userId := by
  cases outcome with
  | @saved other reading question answer turns action was stored =>
      have stamped := serial.stamped other
      rw [was] at stamped
      have different : other ≠ request := by
        rintro rfl
        change (Function.update s.chats other Phase.done other).user = _ at user
        rw [Function.update_self] at user
        cases user
      change (Function.update s.chats other Phase.done request).user = _ at user
      rw [Function.update_of_ne different.symm] at user
      have apart : question.userId ≠ userId := by
        intro same
        refine serial.sole other request userId different ?_ user
        rw [was, ← same]
        rfl
      dsimp only
      rw [owned_save stored stamped.1.user, if_neg apart, List.append_nil]
      exact List.Subset.refl _
  | cleared owner =>
      dsimp only
      rw [owned_clear]
      split
      · exact List.nil_subset _
      · exact List.Subset.refl _
  | _ => exact List.Subset.refl _

theorem ahead_mono {turns next : Turns} {phase : Phase} (ahead : phase.Ahead turns)
    (fewer : ∀ userId, phase.user = some userId → next.owned userId ⊆ turns.owned userId) :
    phase.Ahead next := by
  cases phase with
  | begun userId createdAt => exact fun turn member => ahead turn (fewer userId rfl member)
  | loaded userId reading createdAt =>
      exact fun time given turn member => ahead time given turn (fewer userId rfl member)
  | asked reading question answerId =>
      exact fun turn member => ahead turn (fewer question.userId rfl member)
  | answered reading question answer =>
      exact fun turn member => ahead turn (fewer question.userId rfl member)
  | _ => trivial

theorem ahead_step (serial : Serial s) (outcome : Outcome s action t) (request : RequestId) :
    (t.chats request).Ahead t.turns := by
  have grows := outcome_grows outcome
  apply ahead_mono _ fun userId user => outcome_owned serial outcome user
  have before := serial.ahead request
  have rows {userId : UUID} {turn : ChatTurn} (member : turn ∈ s.turns.owned userId) :
      turn ∈ s.turns.rows := (Turns.mem_owned.mp member).1
  generalize there : t.chats request = phase
  rcases outcome_phase outcome there with same | becomes
  · rw [← same]
    exact before
  · cases becomes with
    | ended => trivial
    | begun starts =>
        exact fun turn member => (serial.times turn (rows member)).trans grows.clock
    | loaded was =>
        intro time given
        rcases was with ⟨_, rfl⟩ | ⟨begun, was, rfl⟩
        · cases given
        · cases given
          rw [was] at before
          exact before
    | asked was fresh ids drawn =>
        intro turn member
        apply moment_lt
        · exact (serial.times turn (rows member)).trans grows.clock
        · exact drawn_before (serial.ids turn (rows member)) fresh
    | finished was =>
        rw [was] at before
        exact before
    | replied was fresh ids drawn =>
        rw [was] at before
        intro turn member
        apply moment_lt
        · exact before _ rfl turn member
        · exact drawn_before (serial.ids turn (rows member)) fresh

theorem ordered_step (serial : Serial s) (outcome : Outcome s action t) (userId : UUID)
    (earlier : List Entry) (front : earlier <+: t.log) :
    (dialog (exchanges userId earlier)).Pairwise fun first second =>
      first.moment < second.moment := by
  have whole := serial.ordered userId s.log (List.prefix_refl _)
  cases outcome with
  | @saved request reading question answer turns action was stored =>
      rcases List.prefix_concat_iff.mp front with rfl | before
      · rw [exchanges_exchanged]
        split
        · rename_i own
          have stamped := serial.stamped request
          have ahead := serial.ahead request
          rw [was] at stamped ahead
          dsimp only at own
          have later := stamped.1.ordered
          rw [dialog_append]
          apply List.pairwise_append.mpr
          refine ⟨whole, List.pairwise_pair.mpr later, ?_⟩
          intro old member new fresh
          rw [← serial.owned, ← own] at member
          have behind : old.moment < question.moment := ahead old member
          rcases List.mem_cons.mp fresh with rfl | last
          · exact behind
          · rw [List.mem_singleton.mp last]
            exact behind.trans later
        · exact whole
      · exact serial.ordered userId earlier before
  | cleared owner =>
      rcases List.prefix_concat_iff.mp front with rfl | before
      · rw [exchanges_cleared]
        split
        · exact List.Pairwise.nil
        · exact whole
      · exact serial.ordered userId earlier before
  | _ => exact serial.ordered userId earlier front

theorem serial_step (alone : Alone s action) (taken : step s action = some t)
    (serial : Serial s) : Serial t := by
  have outcome := step_outcome taken
  constructor
  · exact kept_step serial.toKept taken
  · exact sole_step serial alone outcome
  · exact ahead_step serial outcome
  · exact ordered_step serial outcome

end SerialSteps

theorem serial_start (clock : DateTime) : Serial (.start clock) := by
  constructor
  · exact kept_start clock
  · intro first second userId _ user
    cases user
  · intro request
    trivial
  · intro userId earlier front
    rw [List.prefix_nil.mp front]
    exact List.Pairwise.nil

/-- While every user has one chat at a time, the conversation is the dialog in the order in which
it was held, and every chat is told the end of it. -/
theorem chats_remembered {clock : DateTime} {actions : List Action}
    (alone : Along step Alone (.start clock) actions) :
    Visits step Remembers (.start clock) actions := by
  have derived (s : State) (serial : Serial s) : Remembers s := remembers_of_serial serial
  apply visits_of_along _ derived alone (serial_start clock)
  exact fun _ _ _ alone taken serial => serial_step alone taken serial

def talk (user question answer : UUID) (noon : DateTime) : List Action :=
  [.load 0 user, .ask 0 (text "Rent?") question noon answer, .finish 0 (text "900") [] noon,
    .save 0, .begin 1 user noon, .loadBegun 1]

theorem chats_remembered_talk :
    Visits step Remembers
      (.start ⟨⟨2026, 6, 1, by decide, by decide, by decide⟩, 0, by decide⟩)
      (talk ⟨7, by decide⟩ ⟨1, by decide⟩ ⟨2, by decide⟩
        ⟨⟨2026, 6, 1, by decide, by decide, by decide⟩, 0, by decide⟩) := by
  apply chats_remembered
  unfold talk
  refine ⟨?_, ?_⟩
  · intro userId starts request same
    cases same
  intro asking loaded
  cases loaded
  refine ⟨nofun, ?_⟩
  intro finishing asked
  cases asked
  refine ⟨nofun, ?_⟩
  intro saving finished
  cases finished
  refine ⟨nofun, ?_⟩
  intro beginning saved
  cases saved
  refine ⟨?_, fun _ _ => ⟨nofun, fun _ _ => trivial⟩⟩
  -- The first chat is over.
  intro userId starts request same
  by_cases streamed : request = 0
  · subst streamed
    cases same
  · change (Function.update (Function.update (Function.update (Function.update
      (fun _ => Phase.arrived) 0 _) 0 _) 0 _) 0 _ request : Phase).user = _ at same
    rw [Function.update_of_ne streamed, Function.update_of_ne streamed,
      Function.update_of_ne streamed, Function.update_of_ne streamed] at same
    cases same

end Yomochi.Chat.Memory
