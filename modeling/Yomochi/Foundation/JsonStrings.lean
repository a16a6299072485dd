import Yomochi.Foundation.JsonWriter

/-! `json.dumps` of a list of strings, which `json.loads` reads back. -/

namespace Yomochi.Foundation

def dumpsItems : List Text → Text
  | [] => [']'.toNat]
  | item :: items => text ", " ++ dumpsString item ++ dumpsItems items

def dumpsStrings : List Text → Text
  | [] => ['['.toNat, ']'.toNat]
  | item :: items => '['.toNat :: (dumpsString item ++ dumpsItems items)

variable {dialect : Dialect}

theorem read_items {items : List Text} (valid : ∀ item ∈ items, Scalars item) (done : List Json)
    (value : Json) :
    (tokensFrom dialect 0 (dumpsItems items)).foldlM (Reader.step dialect)
        ⟨[.array done], .after value⟩ =
      .ok ⟨[], .after (.array (done ++ value :: items.map .string))⟩ := by
  induction items generalizing done value with
  | nil => rfl
  | cons item items ih =>
      obtain ⟨first, others⟩ := List.forall_mem_cons.mp valid
      have tail := ih others
      have comma (tail : Text) : text ", " ++ tail = ','.toNat :: ' '.toNat :: tail := rfl
      rw [dumpsItems, List.append_assoc, comma, tokens_punctuation .comma (by decide) rfl,
        tokens_blank (by decide), tokens_string (code_points_of_scalars first), read_units first]
      change (tokensFrom dialect 0 (dumpsItems items)).foldlM (Reader.step dialect)
        ⟨[.array (done ++ [value])], .after (.string item)⟩ = _
      rw [tail]
      simp

theorem loads_dumps_strings {items : List Text} (valid : ∀ item ∈ items, Scalars item)
    (deep : dialect.maxDepth ≠ some 0) :
    loads dialect (dumpsStrings items) = .ok (.array (items.map .string)) := by
  have opened : Reader.step dialect ⟨[], .value⟩ .openBracket = .ok ⟨[], .firstItem⟩ := by
    cases limit : dialect.maxDepth with
    | none => simp [Reader.step, Reader.start, limit]
    | some most =>
        have positive : most ≠ 0 := fun zero => deep (by rw [limit, zero])
        simp [Reader.step, Reader.start, limit, positive]
  cases items with
  | nil =>
      rw [loads, dumpsStrings, tokens_punctuation .openBracket (by decide) rfl,
        List.foldlM_cons, opened]
      rfl
  | cons item items =>
      obtain ⟨first, others⟩ := List.forall_mem_cons.mp valid
      rw [loads, dumpsStrings, tokens_punctuation .openBracket (by decide) rfl,
        tokens_string (code_points_of_scalars first), read_units first, List.foldlM_cons, opened]
      change (do Reader.finish (← (tokensFrom dialect 0 (dumpsItems items)).foldlM
        (Reader.step dialect) ⟨[.array []], .after (.string item)⟩)) = _
      rw [read_items others]
      rfl

end Yomochi.Foundation
