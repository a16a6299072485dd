import Mathlib.Order.Lattice

/-! The elements of a linear order that satisfy a property, one after the other. -/

namespace Yomochi.Foundation

section

variable {α : Type} [LinearOrder α]

def LeastOf (p : α → Prop) : Option α → Prop
  | some least => p least ∧ ∀ other, p other → least ≤ other
  | none => ∀ other, ¬ p other

/-- The first element is the least one from `start` on, and `next` leads to the least one that is
greater. -/
structure Enumerates (p : α → Prop) (start : α) (first : Option α) (next : α → Option α) :
    Prop where
  first : LeastOf (fun a => p a ∧ start ≤ a) first
  next : ∀ a, p a → LeastOf (fun b => p b ∧ a < b) (next a)

def enumerate (first : Option α) (next : α → Option α) : Nat → Option α
  | 0 => first
  | n + 1 => (enumerate first next n).bind next

variable {p : α → Prop} {start a b : α} {first : Option α} {next : α → Option α} {n m : Nat}

theorem least_of_restrict {q : α → Prop} {made : Option α} (least : LeastOf q made)
    (all : ∀ a, p a → q a) (itself : ∀ a, made = some a → p a) :
    LeastOf p made := by
  cases made with
  | none => exact fun other inside => least other (all other inside)
  | some a => exact ⟨itself a rfl, fun other inside => least.2 other (all other inside)⟩

theorem least_next (enumerates : Enumerates p start first next) (inside : p a)
    (made : next a = some b) : (p b ∧ a < b) ∧ ∀ c, p c ∧ a < c → b ≤ c := by
  have least := enumerates.next a inside
  rw [made] at least
  exact least

theorem enumerate_sound (enumerates : Enumerates p start first next)
    (made : enumerate first next n = some a) : p a ∧ start ≤ a := by
  induction n generalizing a with
  | zero =>
      have least := enumerates.first
      rw [show first = some a from made] at least
      exact least.1
  | succ n ih =>
      obtain ⟨before, earlier, step⟩ := Option.bind_eq_some_iff.mp made
      obtain ⟨inside, after⟩ := ih earlier
      obtain ⟨⟨next, later⟩, _⟩ := least_next enumerates inside step
      exact ⟨next, after.trans later.le⟩

/-- There is no gap before an element: the ones before it are there, and they are less. -/
theorem enumerate_lt (enumerates : Enumerates p start first next) (later : n < m)
    (made : enumerate first next m = some b) :
    ∃ a, enumerate first next n = some a ∧ a < b := by
  induction m generalizing b with
  | zero => exact absurd later (Nat.not_lt_zero n)
  | succ m ih =>
      obtain ⟨before, earlier, step⟩ := Option.bind_eq_some_iff.mp made
      obtain ⟨inside, _⟩ := enumerate_sound enumerates earlier
      obtain ⟨⟨_, less⟩, _⟩ := least_next enumerates inside step
      rcases Nat.lt_succ_iff_lt_or_eq.mp later with sooner | rfl
      · obtain ⟨a, there, lt⟩ := ih sooner earlier
        exact ⟨a, there, lt.trans less⟩
      · exact ⟨before, earlier, less⟩

/-- From an element of the enumeration every greater one is reached; its rank says how far it can
be. -/
theorem enumerate_reaches (enumerates : Enumerates p start first next) (rank : α → Nat)
    (strict : StrictMono rank) (inside : p b) (made : enumerate first next n = some a)
    (below : a ≤ b) : ∃ m, enumerate first next m = some b := by
  induction distance : rank b - rank a using Nat.strongRecOn generalizing a n with
  | ind distance ih =>
      rcases below.eq_or_lt with rfl | less
      · exact ⟨n, made⟩
      · have least := enumerates.next a (enumerate_sound enumerates made).1
        cases step : next a with
        | none =>
            rw [step] at least
            exact absurd ⟨inside, less⟩ (least b)
        | some c =>
            rw [step] at least
            obtain ⟨⟨_, greater⟩, minimal⟩ := least
            have reached : enumerate first next (n + 1) = some c :=
              Option.bind_eq_some_iff.mpr ⟨a, made, step⟩
            have below : c ≤ b := minimal b ⟨inside, less⟩
            have one := strict greater
            have two := strict.monotone below
            exact ih _ (by omega) reached below rfl

/-- The enumeration is exact. -/
theorem enumerate_iff (enumerates : Enumerates p start first next) (rank : α → Nat)
    (strict : StrictMono rank) (a : α) :
    (∃ n, enumerate first next n = some a) ↔ p a ∧ start ≤ a := by
  constructor
  · rintro ⟨n, made⟩
    exact enumerate_sound enumerates made
  · rintro ⟨inside, after⟩
    have least := enumerates.first
    cases begins : first with
    | none =>
        rw [begins] at least
        exact absurd ⟨inside, after⟩ (least a)
    | some b =>
        rw [begins] at least
        have made : enumerate first next 0 = some b := begins
        rw [← begins]
        exact enumerate_reaches enumerates rank strict inside made (least.2 a ⟨inside, after⟩)

end

end Yomochi.Foundation
