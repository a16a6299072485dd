import Mathlib.Data.List.Infix
import Yomochi.Foundation.Text

/-! `LIKE` patterns: what their marks stand for, and which texts match. Between two percent signs
a text stands for itself exactly when it is escaped or has no marks. -/

namespace Yomochi.Foundation

inductive Wild
  | char (c : Nat)
  | one
  | many
  deriving DecidableEq, Repr

def percent : Nat := '%'.toNat
def underscore : Nat := '_'.toNat
def backslash : Nat := '\\'.toNat

/-- The characters that do not stand for themselves. -/
def isMark (c : Nat) : Bool := c = backslash || c = percent || c = underscore

def mark (c : Nat) : Wild := if c = percent then .many else if c = underscore then .one else .char c

/-- What a pattern stands for; a backslash makes the character behind it stand for itself, and is
not the last one. -/
def parseLike (escaped : Bool) : Text → Option (List Wild)
  | [] => if escaped then none else some []
  | c :: rest =>
      if escaped then (parseLike false rest).map (.char c :: ·)
      else if c = backslash then parseLike true rest
      else (parseLike false rest).map (mark c :: ·)

def likeMatches : List Wild → Text → Bool
  | [], source => source.isEmpty
  | .char c :: wilds, s :: rest => decide (c = s) && likeMatches wilds rest
  | .one :: wilds, _ :: rest => likeMatches wilds rest
  | .many :: wilds, source => source.tails.any (likeMatches wilds)
  | _, [] => false

theorem parse_escaped (c : Nat) (rest : Text) :
    parseLike true (c :: rest) = (parseLike false rest).map (.char c :: ·) := by
  rw [parseLike, if_pos rfl]

theorem parse_backslash (rest : Text) :
    parseLike false (backslash :: rest) = parseLike true rest := by
  rw [parseLike, if_neg Bool.false_ne_true, if_pos rfl]

theorem parse_plain {c : Nat} (plain : c ≠ backslash) (rest : Text) :
    parseLike false (c :: rest) = (parseLike false rest).map (mark c :: ·) := by
  rw [parseLike, if_neg Bool.false_ne_true, if_neg plain]

/-! Literal patterns. -/

theorem matches_many {wilds : List Wild} {source : Text} :
    likeMatches (.many :: wilds) source = true ↔
      ∃ rest, rest <:+ source ∧ likeMatches wilds rest = true := by
  simp [likeMatches, List.any_eq_true, List.mem_tails]

theorem matches_chars {chars source : Text} {wilds : List Wild} :
    likeMatches (chars.map .char ++ wilds) source = true ↔
      ∃ rest, source = chars ++ rest ∧ likeMatches wilds rest = true := by
  induction chars generalizing source with
  | nil => simp
  | cons c chars ih =>
      cases source with
      | nil => simp [likeMatches]
      | cons s rest =>
          rw [List.map_cons, List.cons_append, likeMatches, Bool.and_eq_true, decide_eq_true_iff,
            ih]
          constructor
          · rintro ⟨rfl, back, rfl, matched⟩
            exact ⟨back, rfl, matched⟩
          · rintro ⟨back, same, matched⟩
            obtain ⟨rfl, rfl⟩ := List.cons.inj same
            exact ⟨rfl, back, rfl, matched⟩

theorem matches_rest (source : Text) : likeMatches [.many] source = true :=
  matches_many.mpr ⟨[], List.nil_suffix, rfl⟩

/-- Between two percent signs, characters match the texts that contain them. -/
theorem matches_infix {chars source : Text} :
    likeMatches (.many :: (chars.map .char ++ [.many])) source = true ↔ chars <:+: source := by
  rw [matches_many, List.infix_iff_prefix_suffix]
  apply exists_congr
  intro rest
  rw [matches_chars, and_comm]
  refine and_congr_left fun _ => ?_
  constructor
  · rintro ⟨back, rfl, _⟩
    exact List.prefix_append _ _
  · rintro ⟨back, rfl⟩
    exact ⟨back, rfl, matches_rest back⟩

/-! Escaped texts. -/

def escapeMark (c : Nat) : Text := if isMark c then [backslash, c] else [c]

theorem mark_plain {c : Nat} (plain : isMark c = false) : mark c = .char c := by
  simp only [isMark, Bool.or_eq_false_iff, decide_eq_false_iff_not] at plain
  rw [mark, if_neg plain.1.2, if_neg plain.2]

theorem ne_backslash {c : Nat} (plain : isMark c = false) : c ≠ backslash := by
  simp only [isMark, Bool.or_eq_false_iff, decide_eq_false_iff_not] at plain
  exact plain.1.1

/-- An escaped text stands for its own characters. -/
theorem parse_escape_marks (source rest : Text) :
    parseLike false (source.flatMap escapeMark ++ rest) =
      (parseLike false rest).map (source.map .char ++ ·) := by
  induction source with
  | nil => simp
  | cons c source ih =>
      have first : parseLike false (escapeMark c ++ (source.flatMap escapeMark ++ rest)) =
          (parseLike false (source.flatMap escapeMark ++ rest)).map (.char c :: ·) := by
        unfold escapeMark
        cases marked : isMark c with
        | true => exact (parse_backslash _).trans (parse_escaped _ _)
        | false =>
            rw [if_neg Bool.false_ne_true, List.singleton_append,
              parse_plain (ne_backslash marked), mark_plain marked]
      rw [List.flatMap_cons, List.append_assoc, first, ih, Option.map_map]
      rfl

/-! Letters of either case. -/

/-- `lower` of a text, character by character; it neither makes a mark nor takes one away. -/
structure Folding where
  lower : Nat → Nat
  marks : ∀ c m, isMark m = true → (lower c = m ↔ c = m)

namespace Folding

def ascii : Folding where
  lower c := if 'A'.toNat ≤ c ∧ c ≤ 'Z'.toNat then c + 32 else c
  marks c m marked := by
    simp only [isMark, Bool.or_eq_true, decide_eq_true_eq] at marked
    have values : backslash = 92 ∧ percent = 37 ∧ underscore = 95 := ⟨rfl, rfl, rfl⟩
    have letters : 'A'.toNat = 65 ∧ 'Z'.toNat = 90 := ⟨rfl, rfl⟩
    split <;> omega

variable (folding : Folding)

/-- `source ILIKE pattern`; `none` is an error of the pattern. -/
def ilike (pattern source : Text) : Option Bool :=
  (parseLike false (pattern.map folding.lower)).map fun wilds =>
    likeMatches wilds (source.map folding.lower)

def Contains (query source : Text) : Prop :=
  query.map folding.lower <:+: source.map folding.lower

instance (query source : Text) : Decidable (folding.Contains query source) :=
  inferInstanceAs (Decidable (_ <:+: _))

theorem lower_mark {m : Nat} (marked : isMark m = true) : folding.lower m = m :=
  (folding.marks m m marked).mpr rfl

theorem is_mark_lower (c : Nat) : isMark (folding.lower c) = isMark c := by
  cases marked : isMark c with
  | true => rw [folding.lower_mark marked, marked]
  | false =>
      by_contra other
      have made := (Bool.not_eq_false _).mp other
      have same := (folding.marks c _ made).mp rfl
      rw [← same, marked] at made
      cases made

theorem map_escape_mark (c : Nat) :
    (escapeMark c).map folding.lower = escapeMark (folding.lower c) := by
  unfold escapeMark
  rw [is_mark_lower]
  cases isMark c with
  | true => simp [folding.lower_mark (show isMark backslash = true from rfl)]
  | false => rfl

/-- An escaped text between two percent signs is found as it is. -/
theorem ilike_escaped (query source : Text) :
    folding.ilike (percent :: (query.flatMap escapeMark ++ [percent])) source =
      some (decide (folding.Contains query source)) := by
  have signs : folding.lower percent = percent := folding.lower_mark rfl
  have lowered : (query.flatMap escapeMark).map folding.lower =
      (query.map folding.lower).flatMap escapeMark := by
    rw [List.map_flatMap, List.flatMap_map]
    simp only [map_escape_mark]
  have parsed : parseLike false
      ((percent :: (query.flatMap escapeMark ++ [percent])).map folding.lower) =
        some (.many :: ((query.map folding.lower).map .char ++ [.many])) := by
    rw [List.map_cons, List.map_append, lowered, signs, parse_plain (by decide),
      parse_escape_marks, List.map_singleton, signs]
    rfl
  rw [ilike, parsed, Option.map_some, Option.some_inj, Bool.eq_iff_iff, matches_infix,
    decide_eq_true_iff]
  rfl

/-! Texts that are not escaped. -/

/-- The shortest text that matches a text and a percent sign behind it; a single character is an
`a`. -/
def shortest (escaped : Bool) : Text → Text
  | [] => if escaped then [percent] else []
  | c :: rest =>
      if escaped then c :: shortest false rest
      else if c = backslash then shortest true rest
      else if c = percent then shortest false rest
      else if c = underscore then 'a'.toNat :: shortest false rest
      else c :: shortest false rest

theorem shortest_matches (escaped : Bool) (query : Text) :
    ∃ wilds, parseLike escaped ((query ++ [percent]).map folding.lower) = some wilds ∧
      likeMatches wilds ((shortest escaped query).map folding.lower) = true := by
  have signs : folding.lower percent = percent := folding.lower_mark rfl
  induction query generalizing escaped with
  | nil =>
      rw [List.nil_append, List.map_singleton, signs]
      cases escaped with
      | true => exact ⟨_, rfl, by simp [shortest, signs, likeMatches]⟩
      | false => exact ⟨_, rfl, rfl⟩
  | cons c rest ih =>
      rw [List.cons_append, List.map_cons]
      cases escaped with
      | true =>
          obtain ⟨wilds, parsed, matched⟩ := ih false
          exact ⟨.char (folding.lower c) :: wilds, by rw [parse_escaped, parsed]; rfl, by
            simp [shortest, likeMatches, matched]⟩
      | false =>
          rw [shortest, if_neg Bool.false_ne_true]
          by_cases slash : c = backslash
          · obtain ⟨wilds, parsed, matched⟩ := ih true
            rw [if_pos slash, slash, folding.lower_mark rfl, parse_backslash]
            exact ⟨wilds, parsed, matched⟩
          · obtain ⟨wilds, parsed, matched⟩ := ih false
            have plain : folding.lower c ≠ backslash := fun same =>
              slash ((folding.marks c backslash rfl).mp same)
            refine ⟨mark (folding.lower c) :: wilds, by rw [parse_plain plain, parsed]; rfl, ?_⟩
            rw [if_neg slash]
            by_cases many : c = percent
            · rw [if_pos many, many, signs]
              exact matches_many.mpr ⟨_, List.suffix_refl _, matched⟩
            · rw [if_neg many]
              by_cases one : c = underscore
              · rw [if_pos one, one, folding.lower_mark rfl]
                exact matched
              · have ordinary : isMark c = false := by simp [isMark, slash, many, one]
                rw [if_neg one, mark_plain ((folding.is_mark_lower c).trans ordinary)]
                simp [likeMatches, matched]

theorem shortest_length (query : Text) : (shortest false query).length ≤ query.length ∧
    (shortest true query).length ≤ query.length + 1 := by
  induction query with
  | nil => simp [shortest]
  | cons c rest ih =>
      obtain ⟨plain, escaped⟩ := ih
      simp only [shortest, if_neg Bool.false_ne_true, if_true, List.length_cons]
      constructor
      · split
        · exact escaped
        · split
          · omega
          · split <;> simpa using plain
      · omega

/-- A text that is as long as the shortest one for it has no marks, when both are the same. -/
theorem shortest_same {query : Text}
    (same : (shortest false query).map folding.lower = query.map folding.lower) :
    ∀ c ∈ query, isMark c = false := by
  induction query with
  | nil => exact nofun
  | cons c rest ih =>
      have lengths := congrArg List.length same
      rw [List.length_map, List.length_map, List.length_cons] at lengths
      have shorter := (shortest_length rest).1
      rw [shortest, if_neg Bool.false_ne_true] at same lengths
      by_cases slash : c = backslash
      · rw [if_pos slash] at same lengths
        cases rest with
        | nil =>
            have signs : folding.lower percent = folding.lower c := (List.cons.inj same).1
            rw [slash, folding.lower_mark rfl, folding.lower_mark rfl] at signs
            cases signs
        | cons d rest =>
            have shortened := (shortest_length rest).1
            rw [shortest, if_pos rfl] at lengths
            simp only [List.length_cons] at lengths
            omega
      · rw [if_neg slash] at same lengths
        by_cases many : c = percent
        · rw [if_pos many] at lengths
          omega
        · rw [if_neg many] at same lengths
          by_cases one : c = underscore
          · rw [if_pos one] at same
            have letters : folding.lower 'a'.toNat = folding.lower c := (List.cons.inj same).1
            have signs : folding.lower underscore = underscore := folding.lower_mark rfl
            rw [one, signs] at letters
            exact absurd ((folding.marks _ underscore rfl).mp letters) (by decide)
          · rw [if_neg one] at same
            have ordinary : isMark c = false := by simp [isMark, slash, many, one]
            exact List.forall_mem_cons.mpr ⟨ordinary, ih (List.cons.inj same).2⟩

theorem flat_map_escape_plain {query : Text} (plain : ∀ c ∈ query, isMark c = false) :
    query.flatMap escapeMark = query := by
  induction query with
  | nil => rfl
  | cons c rest ih =>
      obtain ⟨first, others⟩ := List.forall_mem_cons.mp plain
      rw [List.flatMap_cons, ih others, escapeMark, first]
      rfl

/-- A text between two percent signs is found as it is, in every text, exactly when it has no
marks. -/
theorem ilike_exact_iff (query : Text) :
    (∀ source, folding.ilike (percent :: (query ++ [percent])) source =
      some (decide (folding.Contains query source))) ↔ ∀ c ∈ query, isMark c = false := by
  constructor
  · intro exact
    obtain ⟨wilds, parsed, matched⟩ := folding.shortest_matches false query
    have found : folding.ilike (percent :: (query ++ [percent])) (shortest false query) =
        some true := by
      rw [ilike, List.map_cons, folding.lower_mark rfl, parse_plain (by decide), parsed]
      exact congrArg some (matches_many.mpr ⟨_, List.suffix_refl _, matched⟩)
    rw [exact, Option.some_inj, decide_eq_true_iff] at found
    have short := (shortest_length query).1
    have long := found.length_le
    rw [List.length_map, List.length_map] at long
    have same := found.eq_of_length (by simp only [List.length_map]; omega)
    exact folding.shortest_same same.symm
  · intro plain source
    have escaped := folding.ilike_escaped query source
    rw [flat_map_escape_plain plain] at escaped
    exact escaped

end Folding

end Yomochi.Foundation
