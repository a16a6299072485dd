import Mathlib.Data.List.Basic

/-! Blocks that end with two marks, in a stream that arrives in pieces. -/

namespace Yomochi.Foundation

variable {α : Type} [DecidableEq α]

/-- `split` at two marks in a row; `block` is the open one. The last piece comes apart. -/
def splitBlocks (mark : α) : List α → List α → List (List α) × List α
  | block, [] => ([], block)
  | block, [c] => ([], block ++ [c])
  | block, c :: d :: rest =>
      if c = mark ∧ d = mark then
        let later := splitBlocks mark [] rest
        (block :: later.1, later.2)
      else splitBlocks mark (block ++ [c]) (d :: rest)

def feedPieces (mark : α) (buffer : List α) : List (List α) → List (List α) × List α
  | [] => ([], buffer)
  | piece :: pieces =>
      let found := splitBlocks mark [] (buffer ++ piece)
      let later := feedPieces mark found.2 pieces
      (found.1 ++ later.1, later.2)

def framed (mark : α) (blocks : List (List α)) : List α :=
  blocks.flatMap fun block => block ++ [mark, mark]

/-- What may stand at the end of a stream of blocks without marks: a part of a block, with at
most one mark behind it. -/
def OpenEnd (mark : α) (tail : List α) : Prop :=
  mark ∉ tail ∨ ∃ block, mark ∉ block ∧ tail = block ++ [mark]

theorem split_blocks_step {mark : α} {front : List α} (clean : mark ∉ front) (block : List α)
    (c : α) (rest : List α) :
    splitBlocks mark block (front ++ c :: rest) = splitBlocks mark (block ++ front) (c :: rest) := by
  induction front generalizing block with
  | nil => rw [List.nil_append, List.append_nil]
  | cons d front ih =>
      have different : ¬d = mark := fun same => clean (same ▸ List.mem_cons_self)
      have later : mark ∉ front := fun member => clean (List.mem_cons_of_mem _ member)
      have next := ih later (block ++ [d])
      rw [List.append_assoc, List.singleton_append] at next
      rw [List.cons_append, ← next]
      cases front with
      | nil => simp [splitBlocks, different]
      | cons e front => simp [splitBlocks, different]

theorem split_blocks_block {mark : α} {block : List α} (clean : mark ∉ block) (rest : List α) :
    splitBlocks mark [] (block ++ mark :: mark :: rest) =
      (block :: (splitBlocks mark [] rest).1, (splitBlocks mark [] rest).2) := by
  rw [split_blocks_step clean, List.nil_append, splitBlocks, if_pos ⟨rfl, rfl⟩]

theorem split_blocks_end {mark : α} {tail : List α} (ends : OpenEnd mark tail) :
    splitBlocks mark [] tail = ([], tail) := by
  rcases ends with clean | ⟨block, clean, rfl⟩
  · cases reversed : tail.reverse with
    | nil => rw [List.reverse_eq_nil_iff.mp reversed, splitBlocks]
    | cons last front =>
        have parts : tail = front.reverse ++ [last] := by
          rw [← List.reverse_reverse tail, reversed, List.reverse_cons]
        have before : mark ∉ front.reverse := fun member =>
          clean (parts ▸ List.mem_append_left _ member)
        rw [parts, split_blocks_step before, List.nil_append, splitBlocks]
  · rw [split_blocks_step clean, List.nil_append, splitBlocks]

/-- The blocks that are complete are found, and the rest is what is open. -/
theorem split_blocks_framed {mark : α} {blocks : List (List α)} {tail : List α}
    (clean : ∀ block ∈ blocks, mark ∉ block) (ends : OpenEnd mark tail) :
    splitBlocks mark [] (framed mark blocks ++ tail) = (blocks, tail) := by
  induction blocks with
  | nil => exact split_blocks_end ends
  | cons block blocks ih =>
      have same : framed mark (block :: blocks) ++ tail =
          block ++ mark :: mark :: (framed mark blocks ++ tail) := by
        simp [framed]
      rw [same, split_blocks_block (clean block List.mem_cons_self),
        ih fun other member => clean other (List.mem_cons_of_mem _ member)]

omit [DecidableEq α] in
theorem front_of_snoc {front rest init : List α} {last : α} (cut : front ++ rest = init ++ [last]) :
    front = init ++ [last] ∨ ∃ middle, init = front ++ middle := by
  rcases List.eq_nil_or_concat rest with rfl | ⟨middle, other, rfl⟩
  · exact .inl (by rw [← cut, List.append_nil])
  · rw [List.concat_eq_append, ← List.append_assoc] at cut
    exact .inr ⟨middle, (List.append_inj' cut rfl).1.symm⟩

omit [DecidableEq α] in
/-- A front of a block is an open end, unless it is all of it. -/
theorem front_of_block {mark : α} {block front rest : List α} (clean : mark ∉ block)
    (cut : front ++ rest = block ++ [mark, mark]) :
    front = block ++ [mark, mark] ∨ OpenEnd mark front := by
  have apart : block ++ [mark, mark] = (block ++ [mark]) ++ [mark] := by simp
  rw [apart] at cut ⊢
  rcases front_of_snoc cut with whole | ⟨middle, shorter⟩
  · exact .inl whole
  · rcases front_of_snoc shorter.symm with marked | ⟨inside, part⟩
    · exact .inr (.inr ⟨block, clean, marked⟩)
    · exact .inr (.inl fun member => clean (part ▸ List.mem_append_left _ member))

omit [DecidableEq α] in
/-- A front of a framed stream is some whole blocks and an open end. -/
theorem framed_front {mark : α} {front rest : List α} {blocks : List (List α)}
    (clean : ∀ block ∈ blocks, mark ∉ block) (cut : front ++ rest = framed mark blocks) :
    ∃ done later tail, blocks = done ++ later ∧ front = framed mark done ++ tail ∧
      tail ++ rest = framed mark later ∧ OpenEnd mark tail := by
  induction blocks generalizing front with
  | nil =>
      obtain ⟨rfl, rfl⟩ := List.append_eq_nil_iff.mp cut
      exact ⟨[], [], [], rfl, rfl, rfl, .inl List.not_mem_nil⟩
  | cons block blocks ih =>
      have parts : framed mark (block :: blocks) = (block ++ [mark, mark]) ++ framed mark blocks :=
        List.flatMap_cons
      have others : ∀ other ∈ blocks, mark ∉ other := fun other member =>
        clean other (List.mem_cons_of_mem _ member)
      rw [parts] at cut
      rcases List.append_eq_append_iff.mp cut with ⟨after, inside, later⟩ | ⟨more, beyond, later⟩
      · rcases front_of_block (clean block List.mem_cons_self) inside.symm with whole | ends
        · have same : rest = framed mark blocks := by
            rw [whole] at cut
            exact List.append_cancel_left cut
          exact ⟨[block], blocks, [], rfl, by simp [framed, whole], same,
            .inl List.not_mem_nil⟩
        · exact ⟨[], block :: blocks, front, rfl, rfl, cut.trans parts.symm, ends⟩
      · obtain ⟨done, rest', tail, found, front', tail', ends⟩ := ih others later.symm
        refine ⟨block :: done, rest', tail, congrArg (block :: ·) found, ?_, tail', ends⟩
        rw [beyond, front', ← List.append_assoc]
        rfl

/-- However a framed stream is cut, its blocks arrive, and nothing stays behind. -/
theorem feed_pieces_framed {mark : α} {blocks pieces : List (List α)} {buffer : List α}
    (clean : ∀ block ∈ blocks, mark ∉ block) (opened : OpenEnd mark buffer)
    (cut : buffer ++ pieces.flatten = framed mark blocks) :
    feedPieces mark buffer pieces = (blocks, []) := by
  induction pieces generalizing buffer blocks with
  | nil =>
      rw [List.flatten_nil, List.append_nil] at cut
      have both := split_blocks_end opened
      rw [cut, ← List.append_nil (framed mark blocks),
        split_blocks_framed clean (.inl List.not_mem_nil)] at both
      obtain ⟨none, empty⟩ := Prod.mk.inj both
      rw [none, feedPieces, cut, none]
      rfl
  | cons piece pieces ih =>
      rw [List.flatten_cons, ← List.append_assoc] at cut
      obtain ⟨done, later, tail, rfl, front, rest, ends⟩ := framed_front clean cut
      have whole : ∀ block ∈ done, mark ∉ block := fun block member =>
        clean block (List.mem_append_left _ member)
      have others : ∀ block ∈ later, mark ∉ block := fun block member =>
        clean block (List.mem_append_right _ member)
      rw [feedPieces, front, split_blocks_framed whole ends, ih others ends rest]

end Yomochi.Foundation
