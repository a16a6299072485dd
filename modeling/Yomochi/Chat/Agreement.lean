import Yomochi.Ai.Gateway
import Yomochi.Chat.ToolRounds

/-! The streamed and the whole chat with one model: a model's round is given as a whole to the
one and cut into chunks for the other. -/

namespace Yomochi.Chat

open Foundation
open Ai (PyException translate)

variable {Failure : Type}

/-- All rounds run inside of one `gateway.call`, which translates what they raise. -/
def chatWithTools (script : Nat → Except PyException Round)
    (execute : Nat → ToolCall → Except PyException Text) (cap : Nat) (messages : List Message) :
    Progress × Except PyException ChatResponse :=
  let ended := doChatWithTools script execute cap messages
  (ended.1, ended.2.mapError translate)

/-- The pieces of one tool call: its id and its name come at least once, whole, and its
arguments in any number of parts. -/
structure Cuts (pieces : List Fragment) (call : ToolCall) : Prop where
  id : ∀ piece ∈ pieces, piece.id = [] ∨ piece.id = call.id
  idOnce : ∃ piece ∈ pieces, piece.id = call.id
  name : ∀ piece ∈ pieces, piece.name = [] ∨ piece.name = call.name
  nameOnce : ∃ piece ∈ pieces, piece.name = call.name
  arguments : pieces.flatMap Fragment.arguments = call.arguments

/-- The pieces of the calls of a round, told apart by their indices and in any order. -/
def CutsCalls (fragments : List Fragment) (calls : List ToolCall) : Prop :=
  ∃ indices : List Nat, indices.Pairwise (· < ·) ∧ indices.length = calls.length ∧
    (∀ fragment ∈ fragments, fragment.index ∈ indices) ∧
    ∀ entry ∈ indices.zip calls,
      Cuts (fragments.filter fun fragment => fragment.index == entry.1) entry.2

def Chunk.content (chunk : Chunk) : Text := chunk.choice.elim [] Choice.content

def Chunk.fragments (chunk : Chunk) : List Fragment := chunk.choice.elim [] Choice.toolCalls

def Chunk.finishesWithTools (chunk : Chunk) : Bool := chunk.choice.any Choice.finishesWithTools

/-- The chunks are the round, cut up: `finish_reason` is `tool_calls` exactly when the round has
tool calls, behind the last piece of them. -/
structure Delivers (chunks : List Chunk) (round : Round) : Prop where
  text : chunks.flatMap Chunk.content = round.text
  calls : CutsCalls (chunks.flatMap Chunk.fragments) round.toolCalls
  usage : (chunks.filterMap Chunk.usage).getLast? = round.usage
  unfinished : round.toolCalls = [] → ∀ chunk ∈ chunks, chunk.finishesWithTools = false
  finished : round.toolCalls ≠ [] → ∃ before last after, chunks = before ++ last :: after ∧
    last.finishesWithTools = true ∧ after.flatMap Chunk.fragments = []

/-- Both loops raise, the streamed one an exception and the other its translation, or both end with
the same answer, tools and totals; and they send the model the same messages. -/
def Agree (whole : Progress × Except PyException ChatResponse) (streamed : Trace PyException) :
    Prop :=
  whole.1.sent = sentOf streamed.1 ∧
  match whole.2 with
  | .error failure => ∃ raised, streamed.2 = some raised ∧ failure = translate raised
  | .ok response => streamed.2 = none ∧ response.answer = textOf streamed.1 ∧
      lastReport streamed.1 = some (response.usage, response.toolsUsed)

/-- Some tool call of the chat raises, or the model says nothing beside its tool calls. -/
def SilentToolRounds (script : Nat → Round) (execute : Nat → ToolCall → Except Failure Text)
    (cap : Nat) : Prop :=
  (∃ i < cap, (∀ j ≤ i, (script j).toolCalls ≠ []) ∧
    ∃ call ∈ (script i).toolCalls, ∃ failure, execute i call = .error failure) ∨
  ∀ i < cap, (∀ j ≤ i, (script j).toolCalls ≠ []) → (script i).text = []

/-! The pieces of the tool calls. -/

def Ordered (slots : List (Nat × ToolCall)) : Prop :=
  slots.Pairwise fun first second => first.1 < second.1

theorem index_mem_accumulate {slots : List (Nat × ToolCall)} {fragment : Fragment}
    {entry : Nat × ToolCall} (member : entry ∈ accumulate slots fragment) :
    entry.1 = fragment.index ∨ entry ∈ slots := by
  induction slots with
  | nil =>
      cases List.mem_singleton.mp member
      exact .inl rfl
  | cons slot slots ih =>
      simp only [accumulate] at member
      split at member
      · rcases List.mem_cons.mp member with rfl | old
        · exact .inl rfl
        · exact .inr old
      · split at member
        · rename_i same
          rcases List.mem_cons.mp member with rfl | old
          · exact .inl same.symm
          · exact .inr (List.mem_cons_of_mem _ old)
        · rcases List.mem_cons.mp member with rfl | old
          · exact .inr List.mem_cons_self
          · exact (ih old).imp_right (List.mem_cons_of_mem _)

theorem accumulate_ordered {slots : List (Nat × ToolCall)} (ordered : Ordered slots)
    (fragment : Fragment) : Ordered (accumulate slots fragment) := by
  induction slots with
  | nil => exact List.pairwise_singleton _ _
  | cons slot slots ih =>
      obtain ⟨above, rest⟩ := List.pairwise_cons.mp ordered
      simp only [accumulate]
      split
      · rename_i before
        refine List.pairwise_cons.mpr ⟨?_, ordered⟩
        intro entry member
        rcases List.mem_cons.mp member with rfl | later
        · exact before
        · exact Nat.lt_trans before (above entry later)
      · split
        · exact List.pairwise_cons.mpr ⟨above, rest⟩
        · refine List.pairwise_cons.mpr ⟨?_, ih rest⟩
          intro entry member
          rcases index_mem_accumulate member with new | old
          · omega
          · exact above entry old

def slotAt (index : Nat) : List (Nat × ToolCall) → Option ToolCall
  | [] => none
  | (other, slot) :: slots => if index = other then some slot else slotAt index slots

theorem slot_at_mem {slots : List (Nat × ToolCall)} {index : Nat} {call : ToolCall}
    (found : slotAt index slots = some call) : (index, call) ∈ slots := by
  induction slots with
  | nil => cases found
  | cons slot slots ih =>
      unfold slotAt at found
      split at found
      · rename_i here
        cases found
        exact here ▸ List.mem_cons_self
      · exact List.mem_cons_of_mem _ (ih found)

theorem slot_at_below {slots : List (Nat × ToolCall)} {index : Nat}
    (below : ∀ entry ∈ slots, index < entry.1) : slotAt index slots = none := by
  cases found : slotAt index slots with
  | none => rfl
  | some call => exact absurd (below _ (slot_at_mem found)) (Nat.lt_irrefl _)

theorem slot_at_accumulate {slots : List (Nat × ToolCall)} (ordered : Ordered slots)
    (fragment : Fragment) (index : Nat) :
    slotAt index (accumulate slots fragment) =
      if index = fragment.index then
        some (((slotAt index slots).getD .empty).merge fragment)
      else slotAt index slots := by
  induction slots with
  | nil => rfl
  | cons slot slots ih =>
      obtain ⟨above, rest⟩ := List.pairwise_cons.mp ordered
      simp only [accumulate]
      split
      · rename_i before
        have absent : slotAt fragment.index (slot :: slots) = none := by
          apply slot_at_below
          intro entry member
          rcases List.mem_cons.mp member with rfl | later
          · exact before
          · exact Nat.lt_trans before (above entry later)
        by_cases same : index = fragment.index
        · subst same
          rw [absent, slotAt, if_pos rfl, if_pos rfl]
          rfl
        · rw [slotAt, if_neg same, if_neg same]
      · split
        · rename_i same
          by_cases here : index = slot.1 <;> simp [slotAt, here, same]
        · rename_i different
          by_cases here : index = slot.1
          · have other : ¬slot.1 = fragment.index := fun same => different same.symm
            simp [slotAt, here, other]
          · simpa [slotAt, here] using ih rest

theorem fold_accumulate (fragments : List Fragment) {slots : List (Nat × ToolCall)}
    (ordered : Ordered slots) :
    Ordered (fragments.foldl accumulate slots) ∧
    ∀ index, slotAt index (fragments.foldl accumulate slots) =
      match fragments.filter (fun fragment => fragment.index == index) with
      | [] => slotAt index slots
      | pieces => some (pieces.foldl ToolCall.merge ((slotAt index slots).getD .empty)) := by
  induction fragments generalizing slots with
  | nil => exact ⟨ordered, fun index => rfl⟩
  | cons fragment fragments ih =>
      obtain ⟨sorted, looked⟩ := ih (accumulate_ordered ordered fragment)
      refine ⟨sorted, fun index => ?_⟩
      rw [List.foldl_cons, looked index, slot_at_accumulate ordered]
      by_cases here : index = fragment.index
      · subst here
        cases pieces : fragments.filter fun other => other.index == fragment.index <;>
          simp [pieces]
      · have other : (fragment.index == index) = false := by
          simpa using fun same => here same.symm
        simp [here, other]

/-- What is sorted strictly is determined by what it looks up. -/
theorem ordered_ext {first second : List (Nat × ToolCall)} (sorted : Ordered first)
    (sorted' : Ordered second) (same : ∀ index, slotAt index first = slotAt index second) :
    first = second := by
  induction first generalizing second with
  | nil =>
      cases second with
      | nil => rfl
      | cons slot second => simpa [slotAt] using same slot.1
  | cons slot first ih =>
      cases second with
      | nil => simpa [slotAt] using same slot.1
      | cons other second =>
          obtain ⟨above, rest⟩ := List.pairwise_cons.mp sorted
          obtain ⟨above', rest'⟩ := List.pairwise_cons.mp sorted'
          have heads : slot.1 = other.1 := by
            by_contra different
            have left : slotAt slot.1 second = some slot.2 := by
              simpa [slotAt, different] using (same slot.1).symm
            have right : slotAt other.1 first = some other.2 := by
              simpa [slotAt, Ne.symm different] using same other.1
            have less := above' _ (slot_at_mem left)
            have more := above _ (slot_at_mem right)
            exact absurd (Nat.lt_trans less more) (Nat.lt_irrefl _)
          have values : slot.2 = other.2 := by
            simpa [slotAt, heads] using same slot.1
          have tails : first = second := by
            refine ih rest rest' fun index => ?_
            by_cases here : index = slot.1
            · rw [here, slot_at_below above, heads, slot_at_below above']
            · have there : ¬index = other.1 := heads ▸ here
              simpa [slotAt, here, there] using same index
          rw [Prod.ext heads values, tails]

/-- The text of a field that is sent at least once, and otherwise left empty. -/
theorem sticky_fold {texts : List Text} {value : Text}
    (only : ∀ text ∈ texts, text = [] ∨ text = value) {seen : Text}
    (known : seen = value ∨ seen = [] ∧ value ∈ texts) :
    texts.foldl (fun seen text => if text = [] then seen else text) seen = value := by
  induction texts generalizing seen with
  | nil =>
      rcases known with same | ⟨_, none⟩
      · exact same
      · cases none
  | cons text texts ih =>
      have others : ∀ other ∈ texts, other = [] ∨ other = value := fun other member =>
        only other (List.mem_cons_of_mem _ member)
      rw [List.foldl_cons]
      apply ih others
      by_cases empty : text = []
      · rw [if_pos empty]
        rcases known with same | ⟨unseen, member⟩
        · exact .inl same
        · rcases List.mem_cons.mp member with here | later
          · exact .inl (unseen.trans (here.trans empty).symm)
          · exact .inr ⟨unseen, later⟩
      · rw [if_neg empty]
        exact .inl ((only text List.mem_cons_self).resolve_left empty)

theorem merge_fold (pieces : List Fragment) (slot : ToolCall) :
    pieces.foldl ToolCall.merge slot =
      ⟨(pieces.map Fragment.id).foldl (fun seen text => if text = [] then seen else text) slot.id,
        (pieces.map Fragment.name).foldl (fun seen text => if text = [] then seen else text)
          slot.name,
        slot.arguments ++ pieces.flatMap Fragment.arguments⟩ := by
  induction pieces generalizing slot with
  | nil => simp
  | cons piece pieces ih => simp [ih, ToolCall.merge]

theorem merge_pieces {pieces : List Fragment} {call : ToolCall} (cuts : Cuts pieces call) :
    pieces.foldl ToolCall.merge .empty = call := by
  have id : (pieces.map Fragment.id).foldl (fun seen text => if text = [] then seen else text) [] =
      call.id := by
    apply sticky_fold
    · simpa using cuts.id
    · exact .inr ⟨rfl, by simpa using cuts.idOnce⟩
  have name : (pieces.map Fragment.name).foldl
      (fun seen text => if text = [] then seen else text) [] = call.name := by
    apply sticky_fold
    · simpa using cuts.name
    · exact .inr ⟨rfl, by simpa using cuts.nameOnce⟩
  rw [merge_fold]
  simp only [ToolCall.empty, id, name, cuts.arguments, List.nil_append]

theorem zip_ordered {indices : List Nat} (increasing : indices.Pairwise (· < ·))
    (calls : List ToolCall) : Ordered (indices.zip calls) := by
  induction indices generalizing calls with
  | nil => simp [Ordered]
  | cons index indices ih =>
      cases calls with
      | nil => simp [Ordered]
      | cons call calls =>
          obtain ⟨above, rest⟩ := List.pairwise_cons.mp increasing
          refine List.pairwise_cons.mpr ⟨?_, ih rest calls⟩
          intro entry member
          exact above _ (List.of_mem_zip member).1

theorem slot_at_of_mem {slots : List (Nat × ToolCall)} (ordered : Ordered slots) {index : Nat}
    {call : ToolCall} (member : (index, call) ∈ slots) : slotAt index slots = some call := by
  induction slots with
  | nil => cases member
  | cons slot slots ih =>
      obtain ⟨above, rest⟩ := List.pairwise_cons.mp ordered
      rcases List.mem_cons.mp member with rfl | later
      · simp [slotAt]
      · have different : ¬index = slot.1 := by
          have less := above _ later
          exact fun same => absurd (same ▸ less) (Nat.lt_irrefl _)
        simpa [slotAt, different] using ih rest later

theorem assemble_cuts {fragments : List Fragment} {calls : List ToolCall}
    (cuts : CutsCalls fragments calls) :
    assemble (fragments.foldl accumulate []) = calls := by
  obtain ⟨indices, increasing, length, known, pieces⟩ := cuts
  have nothing : Ordered [] := List.Pairwise.nil
  obtain ⟨ordered, looked⟩ := fold_accumulate fragments nothing
  have zipped := zip_ordered increasing calls
  have same : fragments.foldl accumulate [] = indices.zip calls := by
    refine ordered_ext ordered zipped fun index => ?_
    rw [looked index]
    cases found : slotAt index (indices.zip calls) with
    | none =>
        have unused : fragments.filter (fun fragment => fragment.index == index) = [] := by
          rw [List.filter_eq_nil_iff]
          intro fragment member here
          have inside : index ∈ indices := by
            simpa using (beq_iff_eq.mp here) ▸ known fragment member
          have zippedKeys : (indices.zip calls).map Prod.fst = indices :=
            List.map_fst_zip (by omega)
          rw [← zippedKeys] at inside
          obtain ⟨entry, member, rfl⟩ := List.mem_map.mp inside
          rw [slot_at_of_mem zipped member] at found
          cases found
        rw [unused]
        rfl
    | some call =>
        have cut := pieces _ (slot_at_mem found)
        obtain ⟨piece, member, _⟩ := cut.idOnce
        cases these : fragments.filter fun fragment => fragment.index == index with
        | nil =>
            rw [these] at member
            cases member
        | cons first rest =>
            rw [these] at cut
            simp only [slotAt, Option.getD_none, merge_pieces cut]
  rw [assemble, same, List.map_snd_zip (by omega)]

/-! The events of a round. -/

theorem text_of_append (first second : List Event) :
    textOf (first ++ second) = textOf first ++ textOf second :=
  List.flatMap_append

theorem sent_of_append (first second : List Event) :
    sentOf (first ++ second) = sentOf first ++ sentOf second :=
  List.filterMap_append

theorem last_report_snoc (events : List Event) (usage : Usage) (toolsUsed : List Text) :
    lastReport (events ++ [.report usage toolsUsed]) = some (usage, toolsUsed) := by
  simp [lastReport]

theorem last_report_append {first second : List Event} {report : Usage × List Text}
    (last : lastReport second = some report) : lastReport (first ++ second) = some report := by
  unfold lastReport at last ⊢
  rw [List.filterMap_append, List.getLast?_append, last]
  rfl

/-- The gateway's events send nothing by themselves. -/
theorem sent_of_taken (events : List GatewayEvent) : sentOf (events.filterMap takeEvent) = [] := by
  induction events with
  | nil => rfl
  | cons event events ih => cases event <;> exact ih

theorem text_of_chunk_events (slots : List (Nat × ToolCall)) (chunks : List Chunk) :
    textOf ((chunkEvents slots chunks).filterMap takeEvent) = chunks.flatMap Chunk.content := by
  induction chunks generalizing slots with
  | nil => rfl
  | cons chunk chunks ih =>
      rw [List.flatMap_cons]
      obtain ⟨choice, usage⟩ := chunk
      cases choice with
      | none => exact ih slots
      | some choice =>
          simp only [chunkEvents, List.filterMap_append, text_of_append, ih]
          by_cases empty : choice.content = [] <;> cases finished : choice.finishesWithTools <;>
            simp [empty, takeEvent, textOf, Chunk.content]

theorem text_of_stream_call (round : StreamRound Failure) :
    textOf ((streamCall round).filterMap takeEvent) = round.chunks.flatMap Chunk.content := by
  have contents : ∀ chunks : List Chunk,
      textOf ((chunks.filterMap fun chunk => chunk.choice.bind fun choice =>
        if choice.content = [] then none else some (GatewayEvent.contentDelta choice.content)
        ).filterMap takeEvent) = chunks.flatMap Chunk.content := by
    intro chunks
    induction chunks with
    | nil => rfl
    | cons chunk chunks ih =>
        obtain ⟨choice, usage⟩ := chunk
        rw [List.flatMap_cons, ← ih]
        cases choice with
        | none => rfl
        | some choice =>
            by_cases empty : choice.content = [] <;>
              simp [empty, takeEvent, textOf, Chunk.content]
  unfold streamCall
  rw [List.filterMap_append, text_of_append, contents]
  cases round.failure <;> simp [takeEvent, textOf]

def deltas (events : List GatewayEvent) : List (List ToolCall) :=
  events.filterMap fun event =>
    match event with
    | .toolCallsDelta toolCalls => some toolCalls
    | _ => none

theorem deltas_chunk {slots : List (Nat × ToolCall)} (chunk : Chunk) (chunks : List Chunk) :
    deltas (chunkEvents slots (chunk :: chunks)) =
      (if chunk.finishesWithTools then [assemble (chunk.fragments.foldl accumulate slots)]
        else []) ++
      deltas (chunkEvents (chunk.fragments.foldl accumulate slots) chunks) := by
  obtain ⟨choice, usage⟩ := chunk
  cases choice with
  | none => rfl
  | some choice =>
      by_cases empty : choice.content = [] <;> cases finished : choice.finishesWithTools <;>
        simp [chunkEvents, deltas, empty, finished, Chunk.finishesWithTools, Chunk.fragments]

theorem deltas_unfinished (slots : List (Nat × ToolCall)) {chunks : List Chunk}
    (unfinished : ∀ chunk ∈ chunks, chunk.finishesWithTools = false) :
    deltas (chunkEvents slots chunks) = [] := by
  induction chunks generalizing slots with
  | nil => rfl
  | cons chunk chunks ih =>
      rw [deltas_chunk, unfinished chunk List.mem_cons_self,
        ih _ fun other member => unfinished other (List.mem_cons_of_mem _ member)]
      rfl

theorem deltas_complete {slots : List (Nat × ToolCall)} {chunks : List Chunk}
    (complete : chunks.flatMap Chunk.fragments = []) :
    ∀ calls ∈ deltas (chunkEvents slots chunks), calls = assemble slots := by
  induction chunks with
  | nil => simp [chunkEvents, deltas]
  | cons chunk chunks ih =>
      rw [List.flatMap_cons, List.append_eq_nil_iff] at complete
      rw [deltas_chunk, complete.1]
      intro calls member
      rcases List.mem_append.mp member with here | later
      · split at here
        · exact List.mem_singleton.mp here
        · cases here
      · exact ih complete.2 calls later

theorem last_delta {slots : List (Nat × ToolCall)} (before : List Chunk) {last : Chunk}
    {after : List Chunk} (finished : last.finishesWithTools = true)
    (complete : after.flatMap Chunk.fragments = []) :
    (deltas (chunkEvents slots (before ++ last :: after))).getLast? =
      some (assemble (((before ++ last :: after).flatMap Chunk.fragments).foldl accumulate
        slots)) := by
  induction before generalizing slots with
  | nil =>
      have same := @deltas_complete (last.fragments.foldl accumulate slots) after complete
      rw [List.nil_append, deltas_chunk, finished, List.flatMap_cons, complete, List.append_nil,
        if_pos rfl, List.singleton_append, List.getLast?_cons]
      cases later : (deltas (chunkEvents (last.fragments.foldl accumulate slots) after)).getLast?
        with
      | none => rfl
      | some calls => rw [Option.getD_some, same calls (List.mem_of_getLast? later)]
  | cons chunk before ih =>
      rw [List.cons_append, deltas_chunk, List.getLast?_append, ih, List.flatMap_cons,
        List.foldl_append]
      rfl

theorem round_tool_calls {stream : StreamRound Failure} {round : Round}
    (delivers : Delivers stream.chunks round) :
    roundToolCalls (streamCallWithTools stream) = round.toolCalls := by
  have usage : deltas (if stream.failure.isNone then
      [GatewayEvent.usageInfo (lastUsage stream.chunks)] else []) = [] := by
    cases stream.failure <;> rfl
  have all : deltas (streamCallWithTools stream) = deltas (chunkEvents [] stream.chunks) := by
    rw [streamCallWithTools, deltas, List.filterMap_append]
    exact (congrArg _ usage).trans (List.append_nil _)
  change (deltas (streamCallWithTools stream)).getLast?.getD [] = _
  rw [all]
  by_cases none : round.toolCalls = []
  · rw [deltas_unfinished [] (delivers.unfinished none), none]
    rfl
  · obtain ⟨before, last, after, chunks, finished, complete⟩ := delivers.finished none
    have calls := assemble_cuts delivers.calls
    rw [chunks] at calls ⊢
    rw [last_delta before finished complete, calls]
    rfl

/-! The loops. -/

/-- What the model says in the rounds from `iteration` on that end with tool calls. -/
def toolTexts (script : Nat → Round) : Nat → Nat → Text
  | 0, _ => []
  | remaining + 1, iteration =>
      if (script iteration).toolCalls = [] then []
      else (script iteration).text ++ toolTexts script remaining (iteration + 1)

section Loops

variable {script : Nat → Round} {stream : Nat → StreamRound Failure}

theorem last_usage_delivered {chunks : List Chunk} {round : Round}
    (delivers : Delivers chunks round) : lastUsage chunks = round.usage.getD .zero := by
  rw [lastUsage, delivers.usage]

theorem text_of_streamed (round : StreamRound Failure) :
    textOf ((streamCallWithTools round).filterMap takeEvent) =
      round.chunks.flatMap Chunk.content := by
  unfold streamCallWithTools
  rw [List.filterMap_append, text_of_append, text_of_chunk_events]
  cases round.failure <;> simp [takeEvent, textOf]

theorem sent_of_round (messages : List Message) (events : List GatewayEvent) :
    sentOf (.sends messages :: events.filterMap takeEvent) = [messages] :=
  congrArg (messages :: ·) (sent_of_taken events)

theorem text_of_round (messages : List Message) (events : List Event) :
    textOf (.sends messages :: events) = textOf events := rfl

/-- What the two loops have in common from a round on. -/
def RoundsAgree (script : Nat → Round) (remaining iteration : Nat) (p : Progress)
    (whole : Progress × Except Failure ChatResponse) (streamed : Trace Failure) : Prop :=
  whole.1.sent = p.sent ++ sentOf streamed.1 ∧
  match whole.2 with
  | .error failure => streamed.2 = some failure
  | .ok response => streamed.2 = none ∧
      textOf streamed.1 = toolTexts script remaining iteration ++ response.answer ∧
      lastReport streamed.1 = some (response.usage, response.toolsUsed)

/-- A tool round in front of rounds that agree. -/
theorem rounds_agree_cons {remaining iteration : Nat} {p next : Progress} {events : List Event}
    {whole : Progress × Except Failure ChatResponse} {streamed : Trace Failure}
    (tools : (script iteration).toolCalls ≠ []) (sent : sentOf events = [p.messages])
    (said : textOf events = (script iteration).text) (carried : next.sent = p.sent ++ [p.messages])
    (agree : RoundsAgree script remaining (iteration + 1) next whole streamed) :
    RoundsAgree script (remaining + 1) iteration p whole (Trace.after events streamed) := by
  obtain ⟨progress, outcome⟩ := whole
  obtain ⟨later, failure⟩ := streamed
  obtain ⟨sentLater, agree⟩ := agree
  refine ⟨?_, ?_⟩
  · simp only [Trace.after, sent_of_append, sent]
    rw [sentLater, carried, List.append_assoc]
  · cases outcome with
    | error failure => exact agree
    | ok response =>
        obtain ⟨finished, answer, report⟩ := agree
        refine ⟨finished, ?_, last_report_append report⟩
        simp only [Trace.after, text_of_append, said]
        rw [answer, toolTexts, if_neg tools, List.append_assoc]

theorem rounds_agree (execute : Nat → ToolCall → Except Failure Text)
    (complete : ∀ i, (stream i).failure = none)
    (delivers : ∀ i, Delivers (stream i).chunks (script i)) (remaining iteration : Nat)
    (p : Progress) :
    RoundsAgree script remaining iteration p
      (forceAnswer (fun i => .ok (script i)) (iteration + remaining)
        (resolveToolRounds (fun i => .ok (script i)) execute remaining iteration p))
      (streamRounds stream execute remaining iteration p) := by
  induction remaining generalizing iteration p with
  | zero =>
      have said := text_of_stream_call (stream iteration)
      rw [(delivers iteration).text] at said
      simp only [resolveToolRounds, forceAnswer, streamRounds, complete iteration,
        Nat.add_zero, last_usage_delivered (delivers iteration)]
      refine ⟨?_, rfl, ?_, last_report_snoc _ _ _⟩
      · rw [sent_of_append, sent_of_round]
        rfl
      · rw [text_of_append, text_of_round, said]
        exact List.append_nil _
  | succ remaining ih =>
      have said := text_of_streamed (stream iteration)
      rw [(delivers iteration).text] at said
      have next : iteration + (remaining + 1) = iteration + 1 + remaining := by omega
      simp only [resolveToolRounds, streamRounds, complete iteration,
        last_usage_delivered (delivers iteration), round_tool_calls (delivers iteration), next]
      by_cases final : (script iteration).toolCalls = []
      · have silent : toolTexts script (remaining + 1) iteration = [] := by
          simp [toolTexts, final]
        simp only [final, if_true, forceAnswer]
        refine ⟨?_, rfl, ?_, last_report_snoc _ _ _⟩
        · rw [sent_of_append, sent_of_round]
          rfl
        · rw [text_of_append, text_of_round, said, silent]
          exact List.append_nil _
      · simp only [final, if_false]
        cases executed : executeToolRound (execute iteration) _ (script iteration).toolCalls with
        | error failure =>
            refine ⟨?_, rfl⟩
            rw [sent_of_round]
            rfl
        | ok messages =>
            have later := ih (iteration + 1)
              ((p.send.receive ((script iteration).usage.getD .zero)).next messages
                (script iteration).toolCalls)
            refine rounds_agree_cons final ?_ ?_ rfl later
            · rw [sent_of_append, sent_of_round]
              rfl
            · rw [text_of_append, text_of_round, said]
              exact List.append_nil _

end Loops

/-- One of the `remaining` rounds from `iteration` on is `P`, and it and the rounds before it end
with tool calls. -/
def Reaches (script : Nat → Round) (iteration remaining : Nat) (P : Nat → Prop) : Prop :=
  ∃ i, iteration ≤ i ∧ i < iteration + remaining ∧
    (∀ j, iteration ≤ j → j ≤ i → (script j).toolCalls ≠ []) ∧ P i

theorem not_reaches_zero (script : Nat → Round) (iteration : Nat) (P : Nat → Prop) :
    ¬Reaches script iteration 0 P := by
  rintro ⟨i, least, most, _⟩
  omega

theorem reaches_succ (script : Nat → Round) (iteration remaining : Nat) (P : Nat → Prop) :
    Reaches script iteration (remaining + 1) P ↔
      (script iteration).toolCalls ≠ [] ∧
        (P iteration ∨ Reaches script (iteration + 1) remaining P) := by
  constructor
  · rintro ⟨i, least, most, tools, holds⟩
    refine ⟨tools iteration (Nat.le_refl _) least, ?_⟩
    rcases Nat.eq_or_lt_of_le least with rfl | later
    · exact .inl holds
    · exact .inr ⟨i, later, by omega, fun j above => tools j (by omega), holds⟩
  · rintro ⟨first, holds | ⟨i, least, most, tools, holds⟩⟩
    · refine ⟨iteration, Nat.le_refl _, by omega, fun j above below => ?_, holds⟩
      rwa [Nat.le_antisymm below above]
    · refine ⟨i, by omega, by omega, fun j above below => ?_, holds⟩
      rcases Nat.eq_or_lt_of_le above with rfl | later
      · exact first
      · exact tools j later below

theorem tool_texts_nil_iff (script : Nat → Round) (remaining iteration : Nat) :
    toolTexts script remaining iteration = [] ↔
      ¬Reaches script iteration remaining fun i => (script i).text ≠ [] := by
  induction remaining generalizing iteration with
  | zero => simp [toolTexts, not_reaches_zero]
  | succ remaining ih =>
      rw [reaches_succ]
      by_cases final : (script iteration).toolCalls = []
      · simp [toolTexts, final]
      · simp [toolTexts, final, ih (iteration + 1)]

def Raises (script : Nat → Round) (execute : Nat → ToolCall → Except Failure Text) (i : Nat) :
    Prop :=
  ∃ call ∈ (script i).toolCalls, ∃ failure, execute i call = .error failure

theorem whole_error_iff (script : Nat → Round) (execute : Nat → ToolCall → Except Failure Text)
    (remaining iteration : Nat) (p : Progress) :
    (∃ failure, (forceAnswer (fun i => .ok (script i)) (iteration + remaining)
      (resolveToolRounds (fun i => .ok (script i)) execute remaining iteration p)).2 =
        .error failure) ↔
      Reaches script iteration remaining (Raises script execute) := by
  induction remaining generalizing iteration p with
  | zero => simp [resolveToolRounds, forceAnswer, not_reaches_zero]
  | succ remaining ih =>
      rw [reaches_succ]
      have next : iteration + (remaining + 1) = iteration + 1 + remaining := by omega
      simp only [resolveToolRounds, next]
      by_cases final : (script iteration).toolCalls = []
      · simp [final, forceAnswer]
      · have failing := execute_round_error_iff (execute iteration)
          (p.send.receive ((script iteration).usage.getD .zero)).messages
          (script iteration).toolCalls
        cases executed : executeToolRound (execute iteration) _ (script iteration).toolCalls with
        | error failure =>
            rw [executed] at failing
            have raises : Raises script execute iteration := failing.mp ⟨failure, rfl⟩
            simp [final, forceAnswer, raises]
        | ok messages =>
            rw [executed] at failing
            have passed : ¬Raises script execute iteration := by
              rw [Raises, ← failing]
              rintro ⟨failure, raised⟩
              cases raised
            simp only [final, if_false, ih, passed, false_or, ne_eq, not_false_iff, true_and]

theorem reaches_first_iff (script : Nat → Round) (cap : Nat) (P : Nat → Prop) :
    Reaches script 0 cap P ↔ ∃ i < cap, (∀ j ≤ i, (script j).toolCalls ≠ []) ∧ P i := by
  simp [Reaches]

theorem silent_tool_rounds_iff (script : Nat → Round)
    (execute : Nat → ToolCall → Except Failure Text) (cap : Nat) :
    SilentToolRounds script execute cap ↔
      Reaches script 0 cap (Raises script execute) ∨ toolTexts script cap 0 = [] := by
  rw [tool_texts_nil_iff, reaches_first_iff, reaches_first_iff, SilentToolRounds]
  refine or_congr Iff.rfl ⟨?_, ?_⟩
  · rintro silent ⟨i, bound, tools, spoken⟩
    exact spoken (silent i bound tools)
  · intro silent i bound tools
    by_contra spoken
    exact silent ⟨i, bound, tools, spoken⟩

/-- The tools, the totals and the messages always agree. -/
theorem chats_agree_iff (script : Nat → Round) (stream : Nat → StreamRound PyException)
    (execute : Nat → ToolCall → Except PyException Text) (maxToolIterations : Int)
    (messages : List Message) (complete : ∀ i, (stream i).failure = none)
    (delivers : ∀ i, Delivers (stream i).chunks (script i)) :
    Agree (chatWithTools (fun i => .ok (script i)) execute (iterationCap maxToolIterations)
        messages)
      (streamWithTools stream execute (iterationCap maxToolIterations) messages) ↔
      SilentToolRounds script execute (iterationCap maxToolIterations) := by
  generalize iterationCap maxToolIterations = cap
  have agree := rounds_agree execute complete delivers cap 0 (.start messages)
  have failing := whole_error_iff script execute cap 0 (.start messages)
  rw [Nat.zero_add] at agree failing
  rw [silent_tool_rounds_iff, ← failing]
  unfold Agree chatWithTools doChatWithTools streamWithTools
  dsimp only
  obtain ⟨sent, outcome⟩ := agree
  have sent : _ = sentOf (streamRounds stream execute cap 0 (.start messages)).1 := sent
  cases whole : (forceAnswer _ _ _).2 with
  | error failure =>
      rw [whole] at outcome
      exact iff_of_true ⟨sent, failure, outcome, rfl⟩ (.inl ⟨failure, rfl⟩)
  | ok response =>
      rw [whole] at outcome
      obtain ⟨finished, answer, report⟩ := outcome
      simp only [Except.mapError, sent, finished, answer, report, true_and, and_true, reduceCtorEq, exists_false,
        false_or]
      rw [eq_comm]
      simp

/-- A model that looks something up, with a word beside the call, and then answers. -/
def lookup (beside : String) : Nat → Round
  | 0 => ⟨text beside, [⟨text "1", text "list_categories", text "x"⟩], some ⟨10, 2⟩⟩
  | _ => ⟨text "Done", [], some ⟨20, 3⟩⟩

def lookupStream (beside : String) (i : Nat) : StreamRound PyException where
  chunks :=
    match i with
    | 0 => [⟨some ⟨text beside, [⟨0, text "1", text "list_categories", text "x"⟩],
          some "tool_calls"⟩, none⟩, ⟨none, some ⟨10, 2⟩⟩]
    | _ => [⟨some ⟨text "Done", [], some "stop"⟩, none⟩, ⟨none, some ⟨20, 3⟩⟩]
  failure := none

theorem lookup_delivers (beside : String) (i : Nat) :
    Delivers (lookupStream beside i).chunks (lookup beside i) := by
  cases i with
  | zero =>
      refine ⟨by simp [lookupStream, lookup, Chunk.content], ?_, rfl, by simp [lookup], fun _ => ?_⟩
      · refine ⟨[0], by simp, rfl, ?_, ?_⟩
        · simp [lookupStream, Chunk.fragments]
        · intro entry member
          cases List.mem_singleton.mp member
          refine ⟨?_, ?_, ?_, ?_, ?_⟩ <;> simp [lookupStream, Chunk.fragments]
      · exact ⟨[], _, _, rfl, rfl, rfl⟩
  | succ i =>
      refine ⟨by simp [lookupStream, lookup, Chunk.content], ?_, rfl, ?_, by simp [lookup]⟩
      · exact ⟨[], List.Pairwise.nil, rfl, by simp [lookupStream, Chunk.fragments], by simp⟩
      · intro _ chunk member
        simp only [lookupStream, List.mem_cons, List.not_mem_nil, or_false] at member
        rcases member with rfl | rfl <;> rfl

def noResult : Nat → ToolCall → Except PyException Text := fun _ _ => .ok []

theorem chats_agree_lookup :
    Agree (chatWithTools (fun i => .ok (lookup "" i)) noResult (iterationCap 3) [])
      (streamWithTools (lookupStream "") noResult (iterationCap 3) []) ↔
      SilentToolRounds (lookup "") noResult (iterationCap 3) :=
  chats_agree_iff (lookup "") (lookupStream "") noResult 3 [] (fun _ => rfl) (lookup_delivers "")

/-- The stream has the word beside the call, the whole chat has not. -/
theorem not_chats_agree :
    ¬ ∀ (script : Nat → Round) (stream : Nat → StreamRound PyException)
      (execute : Nat → ToolCall → Except PyException Text) (maxToolIterations : Int)
      (messages : List Message), (∀ i, (stream i).failure = none) →
      (∀ i, Delivers (stream i).chunks (script i)) →
      Agree (chatWithTools (fun i => .ok (script i)) execute (iterationCap maxToolIterations)
          messages)
        (streamWithTools stream execute (iterationCap maxToolIterations) messages) := by
  intro claimed
  have agree := claimed (lookup "Let me look.") (lookupStream "Let me look.") noResult 3 []
    (fun _ => rfl) (lookup_delivers _)
  have answer := agree.2.2.1
  exact absurd answer (by decide)

end Yomochi.Chat
