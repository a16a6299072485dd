import Yomochi.Chat.Screen
import Yomochi.Foundation.Runs

/-! One user's chats in any number of tabs, beside the chats of everyone else: what the tabs show,
against the stored conversation. -/

namespace Yomochi.Chat

open Foundation
open Listing (Platform Moment)
open Sse (JsValue emitted trim)

def ChatTurn.loaded (turn : ChatTurn) : ChatMessage :=
  ⟨turn.id.str, turn.role, utf16 turn.content, .undefined,
    .string (utf16 turn.createdAt.isoformat), .undefined⟩

/-- A tab, and the stored turns that it has loaded or added. It is stale when another tab has
cleared the history. -/
structure Tab where
  screen : Screen
  seen : List ChatTurn
  stale : Bool

structure Tabs where
  turns : Turns
  tab : Nat → Tab

/-- A message that is sent, and what comes of it. `load` is the history of the tab where it comes
meanwhile: behind how many chunks, and whether it was read after the turns were stored. -/
structure Sending (Failure : Type) where
  request : Request Failure
  stamps : Stamps
  script : Script Failure
  saves : Bool
  userId : Text
  assistantId : Text
  chunks : List Text
  closing : Closing
  load : Option (Nat × Bool)

inductive TabAction (Failure : Type)
  | mount (tab : Nat)
  | send (tab : Nat) (sending : Sending Failure)
  | clear (tab : Nat)
  | elsewhere (asked answered : ChatTurn)

namespace Tabs

variable {Failure : Type}

structure Setting (Failure : Type) where
  platform : Platform
  runtime : Runtime
  openAI : Failure → Bool
  user : UUID

variable (setting : Setting Failure)

/-- `GET /chat/history` with a limit of 40. -/
def history (turns : Turns) : Option (List ChatTurn) :=
  match ListChatHistory.call setting.platform turns.rows ⟨setting.user, 40, none⟩ with
  | .ok result => some result.turns.reverse
  | .error _ => none

/-- The request, with the last turns there are. -/
def asked (turns : Turns) (sending : Sending Failure) : Request Failure :=
  { sending.request with
    history := .ok ((turns.lastN setting.user HISTORY_TURNS).map ChatTurn.told) }

def call (turns : Turns) (sending : Sending Failure) : StreamCall Failure :=
  chatStreamUseCase (asked setting turns sending) setting.user sending.stamps sending.script none
    sending.saves

def stored (turns : Turns) : Option (ChatTurn × ChatTurn) → Option Turns
  | none => some turns
  | some (asked, answered) => turns.appendTurnPair asked answered

def loads (before after : Turns) (sending : Sending Failure) : Option (List ChatTurn) :=
  sending.load.bind fun load => history setting (if load.2 then after else before)

def sent (tab : Tab) (sending : Sending Failure) (call : StreamCall Failure)
    (loaded : Option (List ChatTurn)) : Tab where
  screen := tab.screen.send setting.runtime (utf16 sending.request.message) sending.userId
    sending.assistantId
    (sending.load.map fun load => ⟨load.1, loaded.map (List.map ChatTurn.loaded)⟩)
    (.streamed sending.chunks sending.closing)
  seen := loaded.getD (tab.seen ++
    (call.stored sending.saves).toList.flatMap fun pair => [pair.1, pair.2])
  stale := tab.stale && loaded.isNone

def mounted (tab : Tab) (loaded : List ChatTurn) : Tab where
  screen := { tab.screen with messages := loaded.map ChatTurn.loaded }
  seen := loaded
  stale := false

def cleared (tab : Tab) : Tab := ⟨{ tab.screen with messages := [] }, [], false⟩

def put (s : Tabs) (turns : Turns) (i : Nat) (tab : Tab) : Tabs :=
  ⟨turns, Function.update s.tab i tab⟩

def step (s : Tabs) : TabAction Failure → Option Tabs
  | .mount i =>
      match history setting s.turns with
      | none => some s
      | some loaded => some (s.put s.turns i (mounted (s.tab i) loaded))
  | .send i sending =>
      let call := call setting s.turns sending
      (stored s.turns (call.stored sending.saves)).map fun turns =>
        s.put turns i (sent setting (s.tab i) sending call (loads setting s.turns turns sending))
  | .clear i =>
      some ⟨s.turns.clearAll setting.user,
        fun j => if j = i then cleared (s.tab i) else { s.tab j with stale := true }⟩
  | .elsewhere asked answered =>
      (s.turns.appendTurnPair asked answered).map fun turns => { s with turns := turns }

/-- A message that is answered and stored, in its order behind what the tab has shown so far. -/
structure Answered (s : Tabs) (i : Nat) (sending : Sending Failure) : Prop where
  written : trim (utf16 sending.request.message) ≠ []
  fresh : Screen.Fresh (s.tab i).screen.messages [sending.userId, sending.assistantId]
  others : ∀ id ∈ sending.stamps.userTurnId :: sending.stamps.assistantId ::
    s.turns.rows.map ChatTurn.id, id.str ∉ [sending.userId, sending.assistantId]
  different : sending.userId ≠ sending.assistantId
  complete : (call setting s.turns sending).raised = none
  spoken : (call setting s.turns sending).answer ≠ []
  saves : sending.saves = true
  closing : sending.closing = .done
  whole : sending.chunks.flatten = emitted (generate setting.openAI (call setting s.turns sending)).1
  later : ∀ turn ∈ (s.tab i).seen, turn.moment <
    (⟨sending.stamps.userCreatedAt, sending.stamps.userTurnId⟩ : Moment)
  ordered : (⟨sending.stamps.userCreatedAt, sending.stamps.userTurnId⟩ : Moment) <
    ⟨sending.stamps.assistantCreatedAt, sending.stamps.assistantId⟩

def AllAnswered (s : Tabs) : TabAction Failure → Prop
  | .send i sending => Answered setting s i sending
  | _ => True

/-- The tab is at rest, and shows what it has seen. -/
structure Tab.Shows (tab : Tab) : Prop where
  idle : tab.screen.isStreaming = false
  said : tab.screen.messages.map ChatMessage.said = tab.seen.map ChatTurn.said
  ordered : tab.seen.Pairwise fun first second => first.moment < second.moment

structure Consistent (s : Tabs) : Prop where
  shows : ∀ i, Tab.Shows (s.tab i)
  kept : ∀ i, (s.tab i).stale = false → ∀ turn ∈ (s.tab i).seen,
    turn ∈ s.turns.conversation setting.user

variable {setting}

theorem history_loaded (setting : Setting Failure) (turns : Turns) :
    history setting turns = some (turns.lastN setting.user 40) := by
  obtain ⟨next, called⟩ := @ListChatHistory.call_first setting.platform turns setting.user 40
    (by decide) (by decide)
  rw [history, called]
  exact congrArg some (List.reverse_reverse _)

theorem last_n_ordered (turns : Turns) (user : UUID) (n : Nat) :
    (turns.lastN user n).Pairwise fun first second => first.moment < second.moment := by
  rw [Turns.last_n_conversation]
  exact (ascending_strict (turns.owned_unique user)).sublist (List.drop_sublist _ _)

theorem mem_last_n {turns : Turns} {user : UUID} {n : Nat} {turn : ChatTurn}
    (member : turn ∈ turns.lastN user n) : turn ∈ turns.conversation user := by
  rw [Turns.last_n_conversation] at member
  exact List.mem_of_mem_drop member

theorem mounted_shows {tab : Tab} (shows : Tab.Shows tab) (turns : Turns) (user : UUID) :
    Tab.Shows (mounted tab (turns.lastN user 40)) where
  idle := shows.idle
  said := List.map_map
  ordered := last_n_ordered turns user 40

/-- What an answered message adds. -/
theorem answered_pair {s : Tabs} {i : Nat} {sending : Sending Failure}
    (answered : Answered setting s i sending) :
    ∃ tools, (call setting s.turns sending).stored sending.saves =
      some (userTurn setting.user sending.request.message sending.stamps,
        assistantTurn setting.user (call setting s.turns sending).answer tools sending.stamps) := by
  obtain ⟨tools, pair⟩ := stream_call_pair (asked setting s.turns sending) setting.user
    sending.stamps sending.script none sending.saves
  have made := pair.trans (if_neg answered.spoken)
  exact ⟨tools, Option.filter_eq_some_iff.mpr ⟨made, answered.saves⟩⟩

/-- The history that comes while a message is under way was read before or after the message was
stored. -/
theorem loads_cases (setting : Setting Failure) (before after : Turns) (sending : Sending Failure) :
    (sending.load = none ∧ loads setting before after sending = none) ∨
      ∃ n turns, (turns = before ∨ turns = after) ∧ sending.load.map Prod.fst = some n ∧
        loads setting before after sending = some (turns.lastN setting.user 40) := by
  unfold loads
  cases sending.load with
  | none => exact .inl ⟨rfl, rfl⟩
  | some load =>
      refine .inr ⟨load.1, if load.2 then after else before, ?_, rfl, history_loaded setting _⟩
      cases load.2 with
      | false => exact .inl rfl
      | true => exact .inr rfl

theorem sent_screen {s : Tabs} {i : Nat} {sending : Sending Failure}
    (answered : Answered setting s i sending) (shows : Tab.Shows (s.tab i)) :
    let after := (s.tab i).screen.send setting.runtime (utf16 sending.request.message)
      sending.userId sending.assistantId none (.streamed sending.chunks .done)
    after.isStreaming = false ∧ after.messages.map ChatMessage.said =
      (s.tab i).screen.messages.map ChatMessage.said ++
        [(.user, utf16 sending.request.message),
          (.assistant, utf16 (call setting s.turns sending).answer)] := by
  intro after
  obtain ⟨texts, whole, items⟩ := stream_call_items (asked setting s.turns sending) setting.user
    sending.stamps sending.script sending.saves
  have complete : (generate setting.openAI (call setting s.turns sending)).2 = .complete := by
    rw [generate, answered.complete]
  have screen : after = Screen.outcome setting.openAI (s.tab i).screen
      (utf16 sending.request.message) sending.userId sending.assistantId sending.stamps
      sending.saves (call setting s.turns sending) :=
    Screen.whole_reply shows.idle answered.written answered.fresh answered.different whole items
      complete answered.whole
  rw [screen, Screen.outcome, answered.complete]
  refine ⟨shows.idle, ?_⟩
  rw [List.map_append]
  rfl

theorem stored_ids {s : Tabs} {i : Nat} {sending : Sending Failure} {turns : Turns}
    (answered : Answered setting s i sending)
    (saved : stored s.turns ((call setting s.turns sending).stored sending.saves) = some turns) :
    ∀ turn ∈ turns.rows, turn.id.str ∉ [sending.userId, sending.assistantId] := by
  obtain ⟨tools, pair⟩ := answered_pair answered
  rw [pair] at saved
  intro turn member
  rw [Turns.append_rows saved] at member
  apply answered.others
  rcases List.mem_append.mp member with old | new
  · exact List.mem_cons_of_mem _ (List.mem_cons_of_mem _ (List.mem_map_of_mem old))
  · rcases List.mem_pair.mp new with rfl | rfl
    · exact List.mem_cons_self
    · exact List.mem_cons_of_mem _ List.mem_cons_self

theorem stored_grows {s : Tabs} {i : Nat} {sending : Sending Failure} {turns : Turns}
    (answered : Answered setting s i sending)
    (saved : stored s.turns ((call setting s.turns sending).stored sending.saves) = some turns) :
    ∀ turn ∈ s.turns.rows, turn ∈ turns.rows := by
  obtain ⟨tools, pair⟩ := answered_pair answered
  rw [pair] at saved
  intro turn member
  rw [Turns.append_rows saved]
  exact List.mem_append_left _ member

theorem sent_shows {s : Tabs} {i : Nat} {sending : Sending Failure} {turns : Turns}
    (answered : Answered setting s i sending) (shows : Tab.Shows (s.tab i))
    (saved : stored s.turns ((call setting s.turns sending).stored sending.saves) = some turns) :
    Tab.Shows (sent setting (s.tab i) sending (call setting s.turns sending)
      (loads setting s.turns turns sending)) := by
  obtain ⟨tools, pair⟩ := answered_pair answered
  obtain ⟨idle, said⟩ := sent_screen answered shows
  rcases loads_cases setting s.turns turns sending with
    ⟨quiet, loaded⟩ | ⟨n, read, either, comes, loaded⟩
  · rw [loaded, sent, quiet, pair, answered.closing]
    refine ⟨idle, ?_, ?_⟩
    · refine said.trans ?_
      rw [shows.said, Option.getD_none, List.map_append]
      rfl
    · refine List.pairwise_append.mpr ⟨shows.ordered, List.pairwise_pair.mpr answered.ordered, ?_⟩
      intro old member new fresh
      have before := answered.later old member
      rcases List.mem_cons.mp fresh with rfl | last
      · exact before
      · rw [List.mem_singleton.mp last]
        exact lt_trans before answered.ordered
  · have known : ∀ turn ∈ read.rows, turn ∈ turns.rows := by
      rcases either with rfl | rfl
      · exact stored_grows answered saved
      · exact fun _ member => member
    have fresh : Screen.Fresh ((read.lastN setting.user 40).map ChatTurn.loaded)
        [sending.assistantId] := by
      intro message member
      obtain ⟨turn, listed, rfl⟩ := List.mem_map.mp member
      have inside := (Turns.mem_conversation.mp (mem_last_n listed)).1
      intro same
      exact stored_ids answered saved turn (known turn inside) (List.mem_cons_of_mem _ same)
    have screen := @Screen.loaded_reply setting.runtime (s.tab i).screen
      (utf16 sending.request.message) sending.userId sending.assistantId shows.idle
      answered.written _ _ answered.whole
      ⟨n, some ((read.lastN setting.user 40).map ChatTurn.loaded)⟩
      (fun items given => Option.some.inj given ▸ fresh)
    obtain ⟨load, given, rfl⟩ := Option.map_eq_some_iff.mp comes
    rw [loaded, sent, given, answered.closing]
    refine ⟨?_, ?_, last_n_ordered read setting.user 40⟩
    · exact (congrArg Screen.isStreaming screen).trans idle
    · exact (congrArg (List.map ChatMessage.said ·.messages) screen).trans List.map_map

/-- Turns stay in the conversation while others come. -/
theorem conversation_kept {turns next : Turns} {asked answered turn : ChatTurn} {user : UUID}
    (saved : turns.appendTurnPair asked answered = some next)
    (member : turn ∈ turns.conversation user) : turn ∈ next.conversation user := by
  rw [Turns.mem_conversation] at member ⊢
  rw [Turns.append_rows saved]
  exact ⟨List.mem_append_left _ member.1, member.2⟩

@[simp] theorem put_turns (s : Tabs) (turns : Turns) (i : Nat) (tab : Tab) :
    (s.put turns i tab).turns = turns := rfl

@[simp] theorem put_same (s : Tabs) (turns : Turns) (i : Nat) (tab : Tab) :
    (s.put turns i tab).tab i = tab := by
  simp [put]

theorem put_other (s : Tabs) (turns : Turns) {i j : Nat} (tab : Tab) (other : j ≠ i) :
    (s.put turns i tab).tab j = s.tab j := by
  simp [put, other]

theorem consistent_put {s : Tabs} (start : Consistent setting s) {turns : Turns} {i : Nat}
    {tab : Tab} (shows : Tab.Shows tab)
    (known : tab.stale = false → ∀ turn ∈ tab.seen, turn ∈ turns.conversation setting.user)
    (grows : ∀ turn ∈ s.turns.conversation setting.user, turn ∈ turns.conversation setting.user) :
    Consistent setting (s.put turns i tab) := by
  constructor
  · intro j
    by_cases here : j = i
    · rw [here, put_same]
      exact shows
    · rw [put_other s turns tab here]
      exact start.shows j
  · intro j
    by_cases here : j = i
    · rw [here, put_same]
      exact known
    · rw [put_other s turns tab here]
      exact fun live turn member => grows turn (start.kept j live turn member)

theorem sent_kept {s : Tabs} (start : Consistent setting s) {turns : Turns} {i : Nat}
    {sending : Sending Failure} (answered : Answered setting s i sending)
    (saved : stored s.turns ((call setting s.turns sending).stored sending.saves) = some turns)
    (live : (sent setting (s.tab i) sending (call setting s.turns sending)
      (loads setting s.turns turns sending)).stale = false) :
    ∀ turn ∈ (sent setting (s.tab i) sending (call setting s.turns sending)
      (loads setting s.turns turns sending)).seen, turn ∈ turns.conversation setting.user := by
  obtain ⟨tools, pair⟩ := answered_pair answered
  have grown {turn : ChatTurn} (member : turn ∈ s.turns.conversation setting.user) :
      turn ∈ turns.conversation setting.user := by
    rw [Turns.mem_conversation] at member ⊢
    exact ⟨stored_grows answered saved turn member.1, member.2⟩
  intro turn member
  rcases loads_cases setting s.turns turns sending with
    ⟨_, loaded⟩ | ⟨n, read, either, _, loaded⟩
  · rw [loaded, sent] at live
    rw [loaded, sent, pair] at member
    have live : (s.tab i).stale = false := by simpa using live
    rcases List.mem_append.mp member with before | new
    · exact grown (start.kept i live turn before)
    · rw [pair] at saved
      rw [Turns.mem_conversation, Turns.append_rows saved]
      refine ⟨List.mem_append_right _ new, ?_⟩
      rcases List.mem_pair.mp new with rfl | rfl <;> rfl
  · rw [loaded, sent] at member
    have listed := mem_last_n member
    rcases either with rfl | rfl
    · exact grown listed
    · exact listed

theorem step_consistent {s t : Tabs} {a : TabAction Failure} (guarded : AllAnswered setting s a)
    (taken : step setting s a = some t) (start : Consistent setting s) :
    Consistent setting t := by
  cases a with
  | mount i =>
      simp only [step, history_loaded, Option.some.injEq] at taken
      subst t
      apply consistent_put start (mounted_shows (start.shows i) s.turns setting.user)
      · exact fun _ turn member => mem_last_n member
      · exact fun turn member => member
  | send i sending =>
      obtain ⟨turns, saved, rfl⟩ := Option.map_eq_some_iff.mp taken
      apply consistent_put start (sent_shows guarded (start.shows i) saved)
      · exact sent_kept start guarded saved
      · intro turn member
        rw [Turns.mem_conversation] at member ⊢
        exact ⟨stored_grows guarded saved turn member.1, member.2⟩
  | clear i =>
      cases taken
      constructor
      · intro j
        by_cases here : j = i
        · simp only [here, if_true]
          exact ⟨(start.shows i).idle, rfl, List.Pairwise.nil⟩
        · simp only [here, if_false]
          have shows := start.shows j
          exact ⟨shows.idle, shows.said, shows.ordered⟩
      · intro j live turn member
        by_cases here : j = i
        · simp only [here, if_true] at member
          cases member
        · simp only [here, if_false] at live
          cases live
  | elsewhere asked answered =>
      obtain ⟨turns, saved, rfl⟩ := Option.map_eq_some_iff.mp taken
      refine ⟨start.shows, fun j live turn member => ?_⟩
      exact conversation_kept saved (start.kept j live turn member)

/-- No message has been shown or stored yet by the tabs; there may be turns of earlier days. -/
def opened (turns : Turns) : Tabs := ⟨turns, fun _ => ⟨⟨[], false, none, 0⟩, [], false⟩⟩

theorem opened_consistent (turns : Turns) : Consistent setting (opened turns) := by
  constructor
  · intro i
    exact ⟨rfl, rfl, List.Pairwise.nil⟩
  · intro i _ turn member
    cases member

end Tabs

end Yomochi.Chat
