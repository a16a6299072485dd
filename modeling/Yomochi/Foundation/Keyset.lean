import Mathlib.Data.List.Sort
import Mathlib.Order.Defs.LinearOrder
import Yomochi.Foundation.Text

/-! Keyset pagination: pages in descending order of a key, each behind the last key of the one
before, while the rows may change between the pages. -/

namespace Yomochi.Foundation

variable {Row Key : Type} [LinearOrder Key]

def descending (key : Row → Key) (rows : List Row) : List Row :=
  rows.insertionSort fun first second => key second ≤ key first

/-- What is asked for: the filter, the rows behind a cursor, the length of a page, and whether
one row more is fetched to see if the page is the last one. -/
structure Paging (Row Key : Type) where
  key : Row → Key
  selects : Row → Bool
  behind : Key → Row → Bool
  lookahead : Bool
  limit : Nat

/-- The pages that are read one after the other, each from the rows there are then, and whether
the last page had no cursor. -/
structure Traversal (Row : Type) where
  pages : List (List Row)
  finished : Bool

namespace Paging

variable (paging : Paging Row Key)

def found (cursor : Option Key) (rows : List Row) : List Row :=
  descending paging.key
    (rows.filter fun row => paging.selects row && cursor.all fun last => paging.behind last row)

def hasMore (count : Nat) : Bool :=
  if paging.lookahead then decide (paging.limit < count) else decide (paging.limit ≤ count)

def page (cursor : Option Key) (rows : List Row) : List Row × Option Key :=
  let found := paging.found cursor rows
  let rows := found.take paging.limit
  (rows, if paging.hasMore found.length then rows.getLast?.map paging.key else none)

def traverse : Option Key → List (List Row) → Traversal Row
  | _, [] => ⟨[], false⟩
  | cursor, rows :: later =>
      let read := paging.page cursor rows
      match read.2 with
      | none => ⟨[read.1], true⟩
      | some last =>
          let rest := traverse (some last) later
          ⟨read.1 :: rest.pages, rest.finished⟩

/-- The requests on the way: the cursor that each starts behind, and the rows there are then. -/
def asked : Option Key → List (List Row) → List (Option Key × List Row)
  | _, [] => []
  | cursor, rows :: later =>
      (cursor, rows) ::
        match (paging.page cursor rows).2 with
        | none => []
        | some last => asked (some last) later

/-- What is behind a cursor has a smaller key, and so has what is behind that. -/
structure Descends : Prop where
  smaller : ∀ last row, paging.behind last row = true → paging.key row < last
  trans : ∀ last first second, paging.behind last first = true →
    paging.behind (paging.key first) second = true → paging.behind last second = true

variable {paging}

theorem mem_found {cursor : Option Key} {rows : List Row} {row : Row} :
    row ∈ paging.found cursor rows ↔
      row ∈ rows ∧ paging.selects row = true ∧ ∀ last ∈ cursor, paging.behind last row = true := by
  rw [found, descending, List.mem_insertionSort, List.mem_filter, Bool.and_eq_true]
  refine and_congr_right fun _ => and_congr_right fun _ => ?_
  cases cursor <;> simp

theorem found_descends {rows : List Row} (unique : (rows.map paging.key).Nodup)
    (cursor : Option Key) :
    (paging.found cursor rows).Pairwise fun first second => paging.key second < paging.key first := by
  have sorted : (paging.found cursor rows).Pairwise fun first second =>
      paging.key second ≤ paging.key first := by
    have total : Std.Total fun first second : Row => paging.key second ≤ paging.key first :=
      ⟨fun first second => le_total _ _⟩
    have trans : IsTrans Row fun first second : Row => paging.key second ≤ paging.key first :=
      ⟨fun first second third one two => le_trans two one⟩
    exact List.pairwise_insertionSort _ _
  have apart : ((paging.found cursor rows).map paging.key).Nodup := by
    have some : ((rows.filter fun row => paging.selects row &&
        cursor.all fun last => paging.behind last row).map paging.key).Nodup :=
      unique.sublist (List.filter_sublist.map paging.key)
    exact (((List.perm_insertionSort _ _).map paging.key).nodup_iff).mpr some
  have different := List.pairwise_map.mp apart
  exact (sorted.and different).imp fun both => lt_of_le_of_ne both.1 (Ne.symm both.2)

theorem page_all (positive : 0 < paging.limit) {cursor : Option Key} {rows : List Row}
    (last : (paging.page cursor rows).2 = none) :
    (paging.page cursor rows).1 = paging.found cursor rows := by
  change (paging.found cursor rows).take paging.limit = _
  apply List.take_of_length_le
  by_contra longer
  simp only [page] at last
  have more : paging.hasMore (paging.found cursor rows).length = true := by
    unfold hasMore
    split <;> simp <;> omega
  rw [if_pos more, Option.map_eq_none_iff, List.getLast?_eq_none_iff, List.take_eq_nil_iff] at last
  rcases last with zero | empty
  · omega
  · rw [empty] at longer
    exact longer (Nat.zero_le _)

theorem page_more {cursor : Option Key} {rows : List Row} {next : Key}
    (more : (paging.page cursor rows).2 = some next) :
    ∃ row rest, row ∈ (paging.page cursor rows).1 ∧ paging.key row = next ∧
      paging.found cursor rows = (paging.page cursor rows).1 ++ rest ∧
      (paging.page cursor rows).1.getLast? = some row := by
  simp only [page] at more ⊢
  split at more
  · obtain ⟨row, last, same⟩ := Option.map_eq_some_iff.mp more
    exact ⟨row, (paging.found cursor rows).drop paging.limit, List.mem_of_getLast? last, same,
      (List.take_append_drop _ _).symm, last⟩
  · cases more

theorem page_rows (cursor : Option Key) (rows : List Row) :
    (paging.page cursor rows).1 = (paging.found cursor rows).take paging.limit := rfl

/-- A list that fetches no row more goes on after a full page. -/
theorem page_full (exact : paging.lookahead = false) (cursor : Option Key) (rows : List Row) :
    (paging.page cursor rows).2 =
      if (paging.page cursor rows).1.length = paging.limit then
        (paging.page cursor rows).1.getLast?.map paging.key
      else none := by
  have same : paging.hasMore (paging.found cursor rows).length = true ↔
      (paging.page cursor rows).1.length = paging.limit := by
    rw [hasMore, exact, page_rows, List.length_take, if_neg Bool.false_ne_true, decide_eq_true_iff]
    omega
  by_cases more : (paging.page cursor rows).1.length = paging.limit
  · rw [if_pos more]
    exact if_pos (same.mpr more)
  · rw [if_neg more]
    exact if_neg fun some => more (same.mp some)

/-- A list that fetches one row more goes on when it is there. -/
theorem page_ahead (ahead : paging.lookahead = true) {cursor : Option Key} {rows fetched : List Row}
    (read : fetched = (paging.found cursor rows).take (paging.limit + 1)) :
    paging.page cursor rows = (fetched.take paging.limit,
      if paging.limit < fetched.length then (fetched.take paging.limit).getLast?.map paging.key
      else none) := by
  have front : fetched.take paging.limit = (paging.found cursor rows).take paging.limit := by
    rw [read, List.take_take, Nat.min_eq_left (Nat.le_succ _)]
  have same : paging.hasMore (paging.found cursor rows).length =
      decide (paging.limit < fetched.length) := by
    rw [hasMore, ahead, if_pos rfl, decide_eq_decide, read, List.length_take]
    omega
  rw [front, page, same]
  simp

theorem traverse_last {cursor : Option Key} {rows : List Row}
    (last : (paging.page cursor rows).2 = none) (later : List (List Row)) :
    paging.traverse cursor (rows :: later) = ⟨[(paging.page cursor rows).1], true⟩ := by
  rw [traverse, last]

theorem traverse_more {cursor : Option Key} {rows : List Row} {next : Key}
    (more : (paging.page cursor rows).2 = some next) (later : List (List Row)) :
    paging.traverse cursor (rows :: later) =
      ⟨(paging.page cursor rows).1 :: (paging.traverse (some next) later).pages,
        (paging.traverse (some next) later).finished⟩ := by
  rw [traverse, more]

theorem asked_last {cursor : Option Key} {rows : List Row}
    (last : (paging.page cursor rows).2 = none) (later : List (List Row)) :
    paging.asked cursor (rows :: later) = [(cursor, rows)] := by
  rw [asked, last]

theorem asked_more {cursor : Option Key} {rows : List Row} {next : Key}
    (more : (paging.page cursor rows).2 = some next) (later : List (List Row)) :
    paging.asked cursor (rows :: later) = (cursor, rows) :: paging.asked (some next) later := by
  rw [asked, more]

theorem mem_page {cursor : Option Key} {rows : List Row} {row : Row}
    (member : row ∈ (paging.page cursor rows).1) :
    row ∈ rows ∧ paging.selects row = true ∧ ∀ last ∈ cursor, paging.behind last row = true :=
  mem_found.mp (List.mem_of_mem_take member)

/-- What is returned is selected, and behind the cursor at the start. -/
theorem traverse_behind (descends : paging.Descends) {cursor : Option Key}
    {tables : List (List Row)} {row : Row}
    (returned : row ∈ (paging.traverse cursor tables).pages.flatten) :
    paging.selects row = true ∧ ∀ last ∈ cursor, paging.behind last row = true := by
  induction tables generalizing cursor with
  | nil => cases returned
  | cons rows later ih =>
      cases next : (paging.page cursor rows).2 with
      | none =>
          rw [traverse_last next, List.flatten_singleton] at returned
          exact (mem_page returned).2
      | some last =>
          rw [traverse_more next, List.flatten_cons, List.mem_append] at returned
          rcases returned with here | there
          · exact (mem_page here).2
          · obtain ⟨selected, behind⟩ := ih there
            obtain ⟨final, _, member, rfl, _⟩ := page_more next
            refine ⟨selected, fun first start => ?_⟩
            exact descends.trans first final row ((mem_page member).2.2 first start)
              (behind _ rfl)

/-- The last of some descending rows has the least key. -/
theorem last_least {rows : List Row} {final : Row}
    (descends : rows.Pairwise fun first second => paging.key second < paging.key first)
    (last : rows.getLast? = some final) {row : Row} (member : row ∈ rows) :
    paging.key final ≤ paging.key row := by
  obtain ⟨front, rfl⟩ := List.getLast?_eq_some_iff.mp last
  rcases List.mem_append.mp member with before | here
  · exact le_of_lt ((List.pairwise_append.mp descends).2.2 row before final (by simp))
  · rw [List.mem_singleton.mp here]

theorem page_descends {rows : List Row} (unique : (rows.map paging.key).Nodup)
    (cursor : Option Key) :
    (paging.page cursor rows).1.Pairwise fun first second => paging.key second < paging.key first :=
  (found_descends unique cursor).sublist (List.take_sublist _ _)

/-- Over all pages the keys descend, so no row comes twice. -/
theorem traverse_descends (descends : paging.Descends) {tables : List (List Row)}
    (unique : ∀ rows ∈ tables, (rows.map paging.key).Nodup) (cursor : Option Key) :
    (paging.traverse cursor tables).pages.flatten.Pairwise fun first second =>
      paging.key second < paging.key first := by
  induction tables generalizing cursor with
  | nil => exact List.Pairwise.nil
  | cons rows later ih =>
      have here := page_descends (unique rows List.mem_cons_self) cursor
      cases next : (paging.page cursor rows).2 with
      | none =>
          rw [traverse_last next, List.flatten_singleton]
          exact here
      | some last =>
          rw [traverse_more next, List.flatten_cons, List.pairwise_append]
          refine ⟨here, ih (fun others member => unique others (List.mem_cons_of_mem _ member)) _,
            ?_⟩
          intro first inPage second inLater
          obtain ⟨final, _, _, rfl, _, least⟩ := page_more next
          have smaller := descends.smaller _ _ ((traverse_behind descends inLater).2 _ rfl)
          exact lt_of_lt_of_le smaller (last_least here least inPage)

theorem cursor_returned {cursor : Option Key} {tables : List (List Row)}
    {request : Option Key × List Row} (inside : request ∈ paging.asked cursor tables) {last : Key}
    (given : last ∈ request.1) : last ∈ cursor ∨
      ∃ row ∈ (paging.traverse cursor tables).pages.flatten, paging.key row = last := by
  induction tables generalizing cursor with
  | nil => cases inside
  | cons rows later ih =>
      cases next : (paging.page cursor rows).2 with
      | none =>
          rw [asked_last next, List.mem_singleton] at inside
          exact .inl (by simpa [inside] using given)
      | some first =>
          rw [asked_more next] at inside
          rw [traverse_more next, List.flatten_cons]
          rcases List.mem_cons.mp inside with rfl | there
          · exact .inl given
          · right
            rcases ih there with start | ⟨row, member, same⟩
            · cases start
              obtain ⟨final, _, member, same, _⟩ := page_more next
              exact ⟨final, List.mem_append_left _ member, same⟩
            · exact ⟨row, List.mem_append_right _ member, same⟩

/-- A row that is there at every request is returned, unless a cursor that it is smaller than
leaves it out. -/
theorem traverse_complete_iff (descends : paging.Descends) (positive : 0 < paging.limit)
    {tables : List (List Row)} (unique : ∀ rows ∈ tables, (rows.map paging.key).Nodup)
    {cursor : Option Key} {row : Row} (selected : paging.selects row = true)
    (start : ∀ last ∈ cursor, paging.behind last row = true)
    (finished : (paging.traverse cursor tables).finished = true)
    (throughout : ∀ request ∈ paging.asked cursor tables, row ∈ request.2) :
    row ∈ (paging.traverse cursor tables).pages.flatten ↔
      ∀ request ∈ paging.asked cursor tables, ∀ last ∈ request.1,
        paging.key row < last → paging.behind last row = true := by
  induction tables generalizing cursor with
  | nil => cases finished
  | cons rows later ih =>
      cases next : (paging.page cursor rows).2 with
      | none =>
          rw [asked_last next, List.forall_mem_singleton] at throughout
          rw [asked_last next, traverse_last next, List.flatten_singleton, page_all positive next,
            List.forall_mem_singleton]
          exact iff_of_true (mem_found.mpr ⟨throughout, selected, start⟩)
            fun last given _ => start last given
      | some last =>
          have here := page_descends (unique rows List.mem_cons_self) cursor
          rw [asked_more next, List.forall_mem_cons] at throughout
          rw [traverse_more next] at finished
          rw [asked_more next, traverse_more next, List.flatten_cons, List.mem_append,
            List.forall_mem_cons]
          obtain ⟨final, rest, _, same, all, least⟩ := page_more next
          have present : row ∈ paging.found cursor rows :=
            mem_found.mpr ⟨throughout.1, selected, start⟩
          have passed : ∀ first ∈ cursor, paging.key row < first → paging.behind first row = true :=
            fun first given _ => start first given
          rw [and_iff_right passed]
          by_cases inPage : row ∈ (paging.page cursor rows).1
          · -- every cursor from here on is at most the key of the row
            refine iff_of_true (.inl inPage) fun request inside first given smaller => ?_
            have bound := last_least here least inPage
            have small : first ≤ last := by
              rcases cursor_returned inside given with start | ⟨returned, member, rfl⟩
              · exact le_of_eq (Option.some.inj start).symm
              · exact le_of_lt (descends.smaller _ _ ((traverse_behind descends member).2 _ rfl))
            exact absurd (lt_of_lt_of_le smaller small) (not_lt_of_ge (same ▸ bound))
          · have smaller : paging.key row < last := by
              have sorted := found_descends (unique rows List.mem_cons_self) cursor
              rw [all] at sorted present
              have inRest := (List.mem_append.mp present).resolve_left inPage
              exact same ▸ (List.pairwise_append.mp sorted).2.2 final
                (List.mem_of_getLast? least) row inRest
            rw [or_iff_right inPage]
            by_cases behind : paging.behind last row = true
            · exact ih (fun others member => unique others (List.mem_cons_of_mem _ member))
                (fun first given => by
                  cases given
                  exact behind) finished throughout.2
            · refine iff_of_false (fun returned => ?_) fun all => ?_
              · exact behind ((traverse_behind descends returned).2 _ rfl)
              · cases later with
                | nil => cases finished
                | cons others later =>
                    exact behind (all (some last, others) (by rw [asked]; simp) last rfl smaller)

theorem found_length_le (cursor : Option Key) (rows : List Row) :
    (paging.found cursor rows).length ≤ rows.length := by
  rw [found, descending, List.length_insertionSort]
  exact List.length_filter_le _ _

/-- Behind the cursor of the next page fewer rows are left: its own row is not. -/
theorem found_shorter (descends : paging.Descends) {cursor : Option Key} {rows : List Row}
    {next : Key} (more : (paging.page cursor rows).2 = some next) :
    (paging.found (some next) rows).length < (paging.found cursor rows).length := by
  obtain ⟨final, rest, inPage, rfl, all, _⟩ := page_more more
  have present := mem_page inPage
  have fewer : paging.found (some (paging.key final)) rows =
      descending paging.key ((rows.filter fun row => paging.selects row &&
        cursor.all fun last => paging.behind last row).filter fun row =>
          paging.behind (paging.key final) row) := by
    rw [found, List.filter_filter]
    congr 1
    apply List.filter_congr
    intro row _
    cases behind : paging.behind (paging.key final) row with
    | false => simp [behind]
    | true =>
        have start : (cursor.all fun last => paging.behind last row) = true := by
          cases cursor with
          | none => rfl
          | some first => exact descends.trans first final row (present.2.2 first rfl) behind
        simp [behind, start]
  rw [fewer, found, descending, descending, List.length_insertionSort, List.length_insertionSort]
  apply List.length_filter_lt_length_iff_exists.mpr
  refine ⟨final, ?_, ?_⟩
  · exact (List.mem_insertionSort _).mp (mem_found.mpr present)
  · intro behind
    exact lt_irrefl _ (descends.smaller _ _ behind)

/-- While the rows stay as they are, the pages come to an end. -/
theorem traverse_finishes (descends : paging.Descends) (rows : List Row) (cursor : Option Key) :
    ∀ n, (paging.found cursor rows).length < n →
      (paging.traverse cursor (List.replicate n rows)).finished = true := by
  intro n
  induction n generalizing cursor with
  | zero => exact fun none => absurd none (Nat.not_lt_zero _)
  | succ n ih =>
      intro bound
      rw [List.replicate_succ]
      cases next : (paging.page cursor rows).2 with
      | none => rw [traverse_last next]
      | some last =>
          rw [traverse_more next]
          apply ih
          have shorter := found_shorter descends next
          omega

end Paging

/-! The same pages, asked for by the texts of their cursors. -/

section Following

variable {Failure : Type}
  (list : Option Text → List Row → Except Failure (List Row × Option Text))

/-- One request after the other, each with the cursor that the one before handed out. -/
def follow : Option Text → List (List Row) → Except Failure (Traversal Row)
  | _, [] => .ok ⟨[], false⟩
  | cursor, rows :: later => do
      let read ← list cursor rows
      match read.2 with
      | none => .ok ⟨[read.1], true⟩
      | some next =>
          let rest ← follow (some next) later
          .ok ⟨read.1 :: rest.pages, rest.finished⟩

def requests : Option Text → List (List Row) → List (Option Text × List Row)
  | _, [] => []
  | cursor, rows :: later =>
      (cursor, rows) ::
        match list cursor rows with
        | .ok (_, some next) => requests (some next) later
        | _ => []

variable {list} {paging : Paging Row Key} {write : Key → Text}
  (reads : ∀ cursor rows, list (cursor.map write) rows =
    .ok ((paging.page cursor rows).1, (paging.page cursor rows).2.map write))

include reads

/-- A list that reads back the cursors it writes is traversed as its pages are. -/
theorem follow_eq_traverse (cursor : Option Key) (tables : List (List Row)) :
    follow list (cursor.map write) tables = .ok (paging.traverse cursor tables) := by
  induction tables generalizing cursor with
  | nil => rfl
  | cons rows later ih =>
      rw [follow, reads]
      cases next : (paging.page cursor rows).2 with
      | none =>
          rw [Paging.traverse_last next]
          rfl
      | some last =>
          have rest := ih (some last)
          rw [Option.map_some] at rest
          rw [Paging.traverse_more next]
          change (do
            let rest ← follow list (some (write last)) later
            Except.ok _) = _
          rw [rest]
          rfl

theorem requests_eq_asked (cursor : Option Key) (tables : List (List Row)) :
    requests list (cursor.map write) tables =
      (paging.asked cursor tables).map fun request => (request.1.map write, request.2) := by
  induction tables generalizing cursor with
  | nil => rfl
  | cons rows later ih =>
      rw [requests, reads]
      cases next : (paging.page cursor rows).2 with
      | none =>
          rw [Paging.asked_last next]
          rfl
      | some last =>
          have rest := ih (some last)
          rw [Option.map_some] at rest
          rw [Paging.asked_more next, List.map_cons, ← rest]
          rfl

end Following

end Yomochi.Foundation
