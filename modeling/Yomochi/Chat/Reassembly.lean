import Yomochi.Chat.Agreement
import Yomochi.Foundation.Interleaving

/-! Tool calls that are streamed in fragments: however the fragments of different calls are mixed
over the chunks, the calls are put together as they were. -/

namespace Yomochi.Chat

open Foundation

/-- The fragments of a call: id and name come with the first one, and the arguments in parts, some
of them empty. -/
structure CutInto (index : Nat) (call : ToolCall) (first : Fragment) (rest : List Fragment) :
    Prop where
  indices : ∀ piece ∈ first :: rest, piece.index = index
  id : first.id = call.id
  name : first.name = call.name
  bare : ∀ piece ∈ rest, piece.id = [] ∧ piece.name = []
  arguments : (first :: rest).flatMap Fragment.arguments = call.arguments

/-- Each call is cut into the fragments of its index, and there are no other fragments. -/
def CutsAll (indexed : List (Nat × ToolCall)) (pieces : Nat → List Fragment) : Prop :=
  (∀ entry ∈ indexed, ∃ first rest, pieces entry.1 = first :: rest ∧
    CutInto entry.1 entry.2 first rest) ∧
  ∀ index, index ∉ indexed.map Prod.fst → pieces index = []

theorem CutInto.cuts {index : Nat} {call : ToolCall} {first : Fragment} {rest : List Fragment}
    (cut : CutInto index call first rest) : Cuts (first :: rest) call where
  id piece member := by
    rcases List.mem_cons.mp member with same | later
    · exact .inr (same ▸ cut.id)
    · exact .inl (cut.bare piece later).1
  idOnce := ⟨first, List.mem_cons_self, cut.id⟩
  name piece member := by
    rcases List.mem_cons.mp member with same | later
    · exact .inr (same ▸ cut.name)
    · exact .inl (cut.bare piece later).2
  nameOnce := ⟨first, List.mem_cons_self, cut.name⟩
  arguments := cut.arguments

section Cut

variable {indexed : List (Nat × ToolCall)} {pieces : Nat → List Fragment}
  {fragments : List Fragment}

theorem CutsAll.known (cut : CutsAll indexed pieces) {index : Nat} {piece : Fragment}
    (member : piece ∈ pieces index) : index ∈ indexed.map Prod.fst := by
  by_contra unknown
  rw [cut.2 index unknown] at member
  cases member

theorem CutsAll.keyed (cut : CutsAll indexed pieces) :
    ∀ index, ∀ piece ∈ pieces index, piece.index = index := by
  intro index piece member
  obtain ⟨entry, inside, same⟩ := List.mem_map.mp (cut.known member)
  obtain ⟨first, rest, these, own⟩ := cut.1 entry inside
  rw [← same, these] at member
  rw [← same]
  exact own.indices piece member

/-- Mixed in any order, the fragments are still those of the calls. -/
theorem cuts_calls_of_interleaves (ordered : Ordered indexed) (cut : CutsAll indexed pieces)
    (interleaved : Interleaves pieces fragments) :
    CutsCalls fragments (indexed.map Prod.snd) := by
  refine ⟨indexed.map Prod.fst, List.pairwise_map.mpr ordered, ?_, ?_, ?_⟩
  · rw [List.length_map, List.length_map]
  · intro fragment member
    obtain ⟨index, inside⟩ := mem_of_interleaves interleaved member
    rw [cut.keyed index fragment inside]
    exact cut.known inside
  · intro entry member
    rw [← List.zip_of_prod rfl rfl] at member
    obtain ⟨first, rest, these, own⟩ := cut.1 entry member
    have found := filter_interleaves interleaved cut.keyed entry.1
    have same : (fragments.filter fun fragment => fragment.index == entry.1) = first :: rest :=
      found.trans these
    rw [same]
    exact own.cuts

end Cut

/-- The calls of a round come out as they were, in the order of their indices: from the fragments
that have been accumulated, and in the last delta of the chunk loop, once the model has finished
with them. -/
theorem tool_calls_reassembled {indexed : List (Nat × ToolCall)} {pieces : Nat → List Fragment}
    {chunks : List Chunk} (ordered : Ordered indexed) (cut : CutsAll indexed pieces)
    (interleaved : Interleaves pieces (chunks.flatMap Chunk.fragments)) :
    assemble ((chunks.flatMap Chunk.fragments).foldl accumulate []) = indexed.map Prod.snd ∧
    ∀ before last after, chunks = before ++ last :: after → last.finishesWithTools = true →
      after.flatMap Chunk.fragments = [] →
      (deltas (chunkEvents [] chunks)).getLast? = some (indexed.map Prod.snd) := by
  have calls := assemble_cuts (cuts_calls_of_interleaves ordered cut interleaved)
  refine ⟨calls, fun before last after split finished complete => ?_⟩
  rw [split] at calls ⊢
  rw [last_delta before finished complete, calls]

/-- Two calls, the arguments of the first one in two parts around the second one. -/
theorem tool_calls_reassembled_mixed :
    let search : ToolCall := ⟨text "a", text "search", text "tea"⟩
    let profile : ToolCall := ⟨text "b", text "profile", []⟩
    let open_ : Fragment := ⟨0, text "a", text "search", text "te"⟩
    let other : Fragment := ⟨1, text "b", text "profile", []⟩
    let rest : Fragment := ⟨0, [], [], text "a"⟩
    let chunks : List Chunk := [⟨some ⟨[], [open_, other], none⟩, none⟩,
      ⟨some ⟨[], [rest], some "tool_calls"⟩, none⟩]
    assemble ((chunks.flatMap Chunk.fragments).foldl accumulate []) = [search, profile] ∧
    ∀ before last after, chunks = before ++ last :: after → last.finishesWithTools = true →
      after.flatMap Chunk.fragments = [] →
      (deltas (chunkEvents [] chunks)).getLast? = some [search, profile] := by
  intro search profile open_ other rest chunks
  have interleaved : Interleaves
      (fun index => if index = 0 then [open_, rest] else if index = 1 then [other] else [])
      (chunks.flatMap Chunk.fragments) := by
    apply @Interleaves.cons _ _ _ _ 0 open_ [rest] _ rfl
    apply @Interleaves.cons _ _ _ _ 1 other [] _ rfl
    apply @Interleaves.cons _ _ _ _ 0 rest [] _ rfl
    apply Interleaves.nil
    intro index
    by_cases zero : index = 0
    · rw [zero]
      rfl
    · by_cases one : index = 1
      · rw [one]
        rfl
      · simp [Function.update, zero, one]
  have cut : CutsAll [(0, search), (1, profile)]
      (fun index => if index = 0 then [open_, rest] else if index = 1 then [other] else []) := by
    constructor
    · intro entry member
      rcases List.mem_cons.mp member with same | later
      · rw [same]
        exact ⟨open_, [rest], rfl, by decide, rfl, rfl, by decide, rfl⟩
      · rw [List.mem_singleton.mp later]
        exact ⟨other, [], rfl, by decide, rfl, rfl, by decide, rfl⟩
    · intro index unknown
      simp only [List.map_cons, List.map_nil, List.mem_cons, List.not_mem_nil, or_false,
        not_or] at unknown
      simp [unknown]
  have ordered : Ordered [(0, search), (1, profile)] := by
    simp [Ordered]
  exact tool_calls_reassembled ordered cut interleaved

end Yomochi.Chat
