import Yomochi.Chat.ToolArguments
import Yomochi.Foundation.DaysBack
import Yomochi.Foundation.Keyset
import Yomochi.Foundation.Like
import Yomochi.Listing.Transactions

/-! The search for a text in the transactions of a user, and that of the tool of the chat. -/

namespace Yomochi.Search

open Foundation
open Chat (Bindable TransactionMatch)
open Recurring (TransactionType)

inductive SearchError
  | StorageError
  | ValueError
  | UnicodeEncodeError
  deriving DecidableEq, Repr

structure Transaction where
  id_ : UUID
  userId : UUID
  amount : ℚ
  currency : Text
  date : Date
  type_ : TransactionType
  merchant : Option Text
  notes : Option Text
  categoryId : Option UUID
  createdAt : DateTime
  deriving DecidableEq

/-- `ORDER BY date DESC, created_at DESC`. -/
def Transaction.latest (tx : Transaction) : Date ×ₗ DateTime := toLex (tx.date, tx.createdAt)

def replaceChar (old : Nat) (new source : Text) : Text :=
  source.flatMap fun c => if c = old then new else [c]

def escapeLike (query : Text) : Text :=
  replaceChar underscore [backslash, underscore]
    (replaceChar percent [backslash, percent]
      (replaceChar backslash [backslash, backslash] query))

/-- `f"%{source}%"` -/
def contained (source : Text) : Text := percent :: (source ++ [percent])

variable (folding : Folding)

/-- `merchant ILIKE pattern OR notes ILIKE pattern`; what is null does not match, and `none` is an
error. -/
def keeps (pattern : Text) (tx : Transaction) : Option Bool := do
  let merchant ← tx.merchant.elim (some false) (folding.ilike pattern)
  let notes ← tx.notes.elim (some false) (folding.ilike pattern)
  some (merchant || notes)

def selectMatching (rows : List Transaction) (userId : UUID) (pattern : Text) (limit : Int) :
    Except SearchError (List Transaction) :=
  if Bindable pattern ∧ LimitInRange limit then
    let own := rows.filter fun tx => tx.userId = userId
    if own.any fun tx => (keeps folding pattern tx).isNone then .error .StorageError
    else
      .ok ((descending Transaction.latest
        (own.filter fun tx => keeps folding pattern tx = some true)).take limit.toNat)
  else .error .StorageError

def search (rows : List Transaction) (userId : UUID) (query : Text) (limit : Int) :
    Except SearchError (List Transaction) :=
  selectMatching folding rows userId (contained (escapeLike query)) limit

def matchOf (categoryName : UUID → Option Text) (tx : Transaction) : TransactionMatch where
  transactionId := tx.id_.str
  date := tx.date
  amount := tx.amount
  currency := tx.currency
  type := Listing.typeValue tx.type_
  merchant := tx.merchant
  notes := tx.notes
  category := tx.categoryId.bind categoryName

structure SearchTransactionsResult where
  query : Text
  found : List TransactionMatch

def searchTransactions (categoryName : UUID → Option Text) (rows : List Transaction)
    (userId query : Text) (limit : Int) : Except SearchError SearchTransactionsResult :=
  match UUID.ofText userId with
  | none => .error .ValueError
  | some userId => do
      let found ← selectMatching folding rows userId (contained query) limit
      .ok ⟨query, found.map (matchOf categoryName)⟩

def Transaction.holds (query : Text) (tx : Transaction) : Bool :=
  tx.merchant.any (fun source => decide (folding.Contains query source)) ||
    tx.notes.any fun source => decide (folding.Contains query source)

def holding (rows : List Transaction) (userId : UUID) (query : Text) : List Transaction :=
  rows.filter fun tx => decide (tx.userId = userId) && tx.holds folding query

/-- A search finds the transactions that hold the text and no others, when the limit does not cut.
It fails only where PostgreSQL cannot take the text or the limit. -/
structure Literal {α : Type} (query : Text) (view : Transaction → α)
    (searched : List Transaction → UUID → Int → Except SearchError (List α)) : Prop where
  finds : ∀ rows userId limit found, searched rows userId limit = .ok found →
    rows.length ≤ limit → found.Perm ((holding folding rows userId query).map view)
  fails : ∀ rows userId limit error, searched rows userId limit = .error error →
    ¬ (Bindable query ∧ LimitInRange limit)

/-- Both searches are literal, and find the same. -/
structure BothLiteral (categoryName : UUID → Option Text) (query : Text) : Prop where
  searcher : Literal folding query id fun rows userId limit =>
    search folding rows userId query limit
  tool : Literal folding query (matchOf categoryName) fun rows userId limit =>
    (searchTransactions folding categoryName rows userId.str query limit).map
      SearchTransactionsResult.found
  agree : ∀ rows userId limit found result, rows.length ≤ limit →
    search folding rows userId query limit = .ok found →
      searchTransactions folding categoryName rows userId.str query limit = .ok result →
        result.found.Perm (found.map (matchOf categoryName))

/-! What both statements select, when the pattern is literal. -/

theorem escape_like_eq (query : Text) : escapeLike query = query.flatMap escapeMark := by
  simp only [escapeLike, replaceChar, List.flatMap_assoc]
  congr 1
  funext c
  by_cases slash : c = backslash
  · subst slash
    rfl
  · by_cases many : c = percent
    · subst many
      rfl
    · by_cases one : c = underscore
      · subst one
        rfl
      · simp [escapeMark, isMark, slash, many, one]

theorem bindable_contained {query : Text} : Bindable (contained query) ↔ Bindable query := by
  have sign : percent ≠ 0 ∧ Scalar percent := by decide
  constructor
  · intro bindable c inside
    exact bindable c (List.mem_cons_of_mem _ (List.mem_append_left _ inside))
  · intro bindable c inside
    rcases List.mem_cons.mp inside with rfl | behind
    · exact sign
    · rcases List.mem_append.mp behind with own | last
      · exact bindable c own
      · rw [List.mem_singleton.mp last]
        exact sign

theorem bindable_escape_like {query : Text} : Bindable (escapeLike query) ↔ Bindable query := by
  have sign : backslash ≠ 0 ∧ Scalar backslash := by decide
  rw [escape_like_eq]
  constructor
  · intro bindable c inside
    refine bindable c (List.mem_flatMap.mpr ⟨c, inside, ?_⟩)
    unfold escapeMark
    split <;> simp
  · intro bindable c inside
    obtain ⟨source, own, made⟩ := List.mem_flatMap.mp inside
    unfold escapeMark at made
    split at made
    · rcases List.mem_cons.mp made with rfl | last
      · exact sign
      · rw [List.mem_singleton.mp last]
        exact bindable source own
    · rw [List.mem_singleton.mp made]
      exact bindable source own

section Patterns

variable {folding} {query pattern : Text}

/-- A pattern that finds a text as it is, in every text. -/
def Exact (folding : Folding) (query pattern : Text) : Prop :=
  ∀ source, folding.ilike pattern source = some (decide (folding.Contains query source))

theorem keeps_exact (exact : Exact folding query pattern) (tx : Transaction) :
    keeps folding pattern tx = some (tx.holds folding query) := by
  have field (source : Option Text) : source.elim (some false) (folding.ilike pattern) =
      some (source.any fun source => decide (folding.Contains query source)) := by
    cases source with
    | none => rfl
    | some source => exact exact source
  simp only [keeps, field, Option.bind_eq_bind, Option.bind_some, Transaction.holds]

theorem select_exact (exact : Exact folding query pattern) (rows : List Transaction)
    (userId : UUID) (limit : Int) :
    selectMatching folding rows userId pattern limit =
      if Bindable pattern ∧ LimitInRange limit then
        .ok ((descending Transaction.latest (holding folding rows userId query)).take limit.toNat)
      else .error .StorageError := by
  rw [selectMatching]
  simp only [keeps_exact exact, Option.isNone_some, List.any_eq_true, Bool.false_eq_true,
    and_false, exists_false, if_false, Option.some_inj, List.filter_filter, holding,
    Bool.decide_eq_true, Bool.and_comm]

theorem literal_of_exact {α : Type} (exact : Exact folding query pattern)
    (bindable : Bindable pattern ↔ Bindable query) (view : Transaction → α) :
    Literal folding query view fun rows userId limit =>
      (selectMatching folding rows userId pattern limit).map (List.map view) where
  finds rows userId limit found searched uncut := by
    rw [select_exact exact] at searched
    split at searched
    · cases searched
      have few := List.length_filter_le (fun tx => decide (tx.userId = userId) &&
        tx.holds folding query) rows
      have whole : (descending Transaction.latest (holding folding rows userId query)).take
          limit.toNat = descending Transaction.latest (holding folding rows userId query) := by
        apply List.take_of_length_le
        rw [descending, List.length_insertionSort, holding]
        omega
      rw [whole]
      exact (List.perm_insertionSort _ _).map view
    · cases searched
  fails rows userId limit error searched := by
    rw [select_exact exact] at searched
    split at searched
    · cases searched
    · rename_i untaken
      exact fun limits => untaken ⟨bindable.mpr limits.1, limits.2⟩

theorem midnight_bounded : 0 < 86400000000 := by decide

def noted (source : Text) : Transaction where
  id_ := .nil
  userId := .nil
  amount := 0
  currency := []
  date := .first
  type_ := .EXPENSE
  merchant := none
  notes := some source
  categoryId := none
  createdAt := ⟨.first, 0, midnight_bounded⟩

theorem select_noted (taken : Bindable pattern) (source : Text) :
    selectMatching folding [noted source] (noted source).userId pattern 1 =
      match folding.ilike pattern source with
      | none => .error .StorageError
      | some found => .ok (if found then [noted source] else []) := by
  have limits : Bindable pattern ∧ LimitInRange 1 := ⟨taken, by decide⟩
  have kept : keeps folding pattern (noted source) = folding.ilike pattern source := by
    change (folding.ilike pattern source).bind (fun notes => some (false || notes)) = _
    cases folding.ilike pattern source <;> rfl
  have own : [noted source].filter (fun tx => decide (tx.userId = (noted source).userId)) =
      [noted source] := rfl
  rw [selectMatching, if_pos limits]
  simp only [own, List.any_cons, List.any_nil, Bool.or_false, kept]
  cases matched : folding.ilike pattern source with
  | none => rfl
  | some found =>
      simp only [List.filter_cons, kept, matched]
      cases found <;> rfl

/-- One transaction tells whether a pattern is literal. -/
theorem exact_of_literal {α : Type} {view : Transaction → α} (taken : Bindable pattern)
    (bindable : Bindable query)
    (literal : Literal folding query view fun rows userId limit =>
      (selectMatching folding rows userId pattern limit).map (List.map view)) :
    Exact folding query pattern := by
  intro source
  have held : holding folding [noted source] (noted source).userId query =
      if folding.Contains query source then [noted source] else [] := by
    have same : (noted source).holds folding query = decide (folding.Contains query source) := rfl
    rw [holding, List.filter_cons, same]
    simp
  have answer := @select_noted folding pattern taken source
  cases matched : folding.ilike pattern source with
  | none =>
      rw [matched] at answer
      exact absurd ⟨bindable, by decide⟩
        (literal.fails [noted source] (noted source).userId 1 .StorageError (by rw [answer]; rfl))
  | some result =>
      rw [matched] at answer
      have found := literal.finds [noted source] (noted source).userId 1 _
        (by rw [answer]; rfl) (by simp)
      have lengths := found.length_eq
      rw [held] at lengths
      by_cases contains : folding.Contains query source
      · rw [if_pos contains] at lengths
        cases result with
        | true => rw [decide_eq_true contains]
        | false => cases lengths
      · rw [if_neg contains] at lengths
        cases result with
        | true => cases lengths
        | false => rw [decide_eq_false contains]

end Patterns

theorem tool_found (categoryName : UUID → Option Text) (rows : List Transaction) (userId : UUID)
    (query : Text) (limit : Int) :
    (searchTransactions folding categoryName rows userId.str query limit).map
        SearchTransactionsResult.found =
      (selectMatching folding rows userId (contained query) limit).map
        (List.map (matchOf categoryName)) := by
  unfold searchTransactions
  rw [UUID.of_text_str]
  dsimp only
  cases selectMatching folding rows userId (contained query) limit <;> rfl

theorem exact_escaped (query : Text) : Exact folding query (contained (escapeLike query)) := by
  intro source
  rw [escape_like_eq]
  exact folding.ilike_escaped query source

theorem search_eq (rows : List Transaction) (userId : UUID) (query : Text) (limit : Int) :
    search folding rows userId query limit =
      if Bindable query ∧ LimitInRange limit then
        .ok ((descending Transaction.latest (holding folding rows userId query)).take limit.toNat)
      else .error .StorageError := by
  have bindable := bindable_contained.trans (@bindable_escape_like query)
  rw [search, select_exact (exact_escaped folding query)]
  simp only [bindable]

/-- The search escapes what it looks for: it is literal for every text. -/
theorem search_literal (query : Text) :
    Literal folding query id fun rows userId limit => search folding rows userId query limit := by
  have exact := exact_escaped folding query
  have literal := literal_of_exact exact (bindable_contained.trans bindable_escape_like) id
  have same (answer : Except SearchError (List Transaction)) :
      answer.map (List.map id) = answer := by
    cases answer with
    | error error => rfl
    | ok found => exact congrArg Except.ok (List.map_id found)
  simp only [same] at literal
  exact literal

/-- The tool does not: it is literal for the texts without marks. -/
theorem tool_literal_iff (categoryName : UUID → Option Text) (query : Text) :
    (Literal folding query (matchOf categoryName) fun rows userId limit =>
      (searchTransactions folding categoryName rows userId.str query limit).map
        SearchTransactionsResult.found) ↔
      (Bindable query → ∀ c ∈ query, isMark c = false) := by
  simp only [tool_found]
  constructor
  · intro literal bindable
    have exact := exact_of_literal (bindable_contained.mpr bindable) bindable literal
    exact (folding.ilike_exact_iff query).mp exact
  · intro plain
    by_cases bindable : Bindable query
    · have exact := (folding.ilike_exact_iff query).mpr (plain bindable)
      exact literal_of_exact exact bindable_contained (matchOf categoryName)
    · have untaken (limit : Int) : ¬ (Bindable (contained query) ∧ LimitInRange limit) :=
        fun limits => bindable (bindable_contained.mp limits.1)
      constructor
      · intro rows userId limit found searched
        rw [selectMatching, if_neg (untaken limit)] at searched
        cases searched
      · intro rows userId limit error _ limits
        exact bindable limits.1

end Yomochi.Search
