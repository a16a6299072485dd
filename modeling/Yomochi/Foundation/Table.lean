import Mathlib.Data.List.Nodup

/-! A relation with a primary key: a list of rows no two of which share a key. Updates keep
the key, so every operation keeps the relation well formed. -/

namespace Yomochi.Foundation

/-- What the end of a transaction answers. A failed statement or COMMIT raises; a COMMIT that
raises may still have been applied. -/
inductive CommitOutcome
  | committed
  | raised (applied : Bool) (error : String)
  deriving DecidableEq

def CommitOutcome.applied : CommitOutcome → Bool
  | .committed => true
  | .raised applied _ => applied

structure Table {Key Row : Type} (key : Row → Key) where
  rows : List Row
  unique : (rows.map key).Nodup

namespace Table

variable {Key Row : Type} [DecidableEq Key] {key : Row → Key}

def empty : Table key := ⟨[], List.nodup_nil⟩

def get (table : Table key) (k : Key) : Option Row :=
  table.rows.find? fun row => key row = k

/-- INSERT: refused when the key is taken. -/
def insert (table : Table key) (row : Row) : Option (Table key) :=
  if fresh : key row ∈ table.rows.map key then none
  else some ⟨table.rows ++ [row], by
    rw [List.map_append, List.map_singleton]
    exact List.nodup_append.mpr ⟨table.unique, List.nodup_singleton _, by
      intro k member other same
      rw [List.mem_singleton] at same
      rintro rfl
      exact fresh (same ▸ member)⟩⟩

def insertAll (table : Table key) : List Row → Option (Table key)
  | [] => some table
  | row :: rows => (table.insert row).bind fun next => next.insertAll rows

/-- UPDATE: `f` decides row by row what to write; it never writes the key. -/
def update (table : Table key) (f : Row → Row) (keeps : ∀ row, key (f row) = key row) :
    Table key :=
  ⟨table.rows.map f, by
    have same : key ∘ f = key := funext keeps
    rw [List.map_map, same]
    exact table.unique⟩

def updateWhere (table : Table key) (p : Row → Bool) (f : Row → Row)
    (keeps : ∀ row, key (f row) = key row) : Table key :=
  table.update (fun row => if p row then f row else row) (by
    intro row
    split
    · exact keeps row
    · rfl)

def updateAt (table : Table key) (k : Key) (f : Row → Row)
    (keeps : ∀ row, key (f row) = key row) : Table key :=
  table.updateWhere (fun row => key row = k) f keeps

def replace (table : Table key) (row : Row) : Table key :=
  table.update (fun old => if key old = key row then row else old) (by
    intro old
    split
    · rename_i same
      exact same.symm
    · rfl)

def delete (table : Table key) (p : Row → Bool) : Table key :=
  ⟨table.rows.filter fun row => !p row, table.unique.sublist (List.filter_sublist.map key)⟩

def view {View : Type} {viewKey : View → Key} (table : Table key) (f : Row → View)
    (keeps : ∀ row, viewKey (f row) = key row) : Table viewKey :=
  ⟨table.rows.map f, by
    have same : viewKey ∘ f = key := funext keeps
    rw [List.map_map, same]
    exact table.unique⟩

theorem mem_of_get {table : Table key} {k : Key} {row : Row} (found : table.get k = some row) :
    row ∈ table.rows := List.mem_of_find?_eq_some found

theorem key_of_get {table : Table key} {k : Key} {row : Row} (found : table.get k = some row) :
    key row = k := by
  simpa using List.find?_some found

theorem get_of_mem {table : Table key} {row : Row} (member : row ∈ table.rows) :
    table.get (key row) = some row := by
  cases found : table.get (key row) with
  | none =>
      have absent := List.find?_eq_none.mp found row member
      simp at absent
  | some other =>
      have same := key_of_get found
      exact congrArg some (List.inj_on_of_nodup_map table.unique (mem_of_get found) member same)

theorem get_eq_none_iff {table : Table key} {k : Key} :
    table.get k = none ↔ k ∉ table.rows.map key := by
  simp [get, List.find?_eq_none]

theorem insert_eq_some {table next : Table key} {row : Row}
    (inserted : table.insert row = some next) :
    table.get (key row) = none ∧ next.rows = table.rows ++ [row] := by
  unfold insert at inserted
  split at inserted
  · cases inserted
  · rename_i fresh
    cases inserted
    exact ⟨get_eq_none_iff.mpr fresh, rfl⟩

theorem insert_eq_none {table : Table key} {row : Row} (refused : table.insert row = none) :
    (table.get (key row)).isSome = true := by
  unfold insert at refused
  split at refused
  · rename_i taken
    rw [Option.isSome_iff_ne_none]
    exact fun absent => get_eq_none_iff.mp absent taken
  · cases refused

theorem get_insert {table next : Table key} {row : Row} (inserted : table.insert row = some next)
    (k : Key) : next.get k = if key row = k then some row else table.get k := by
  obtain ⟨fresh, rows⟩ := insert_eq_some inserted
  unfold get at fresh ⊢
  rw [rows, List.find?_append]
  by_cases same : key row = k
  · subst same
    simp [fresh]
  · simp [same]

theorem get_view {View : Type} {viewKey : View → Key} (table : Table key) (f : Row → View)
    (keeps : ∀ row, viewKey (f row) = key row) (k : Key) :
    (table.view f keeps).get k = (table.get k).map f := by
  simp only [get, view, List.find?_map]
  congr 2
  funext row
  simp [keeps]

theorem get_update (table : Table key) (f : Row → Row) (keeps : ∀ row, key (f row) = key row)
    (k : Key) : (table.update f keeps).get k = (table.get k).map f := by
  simp only [get, update, List.find?_map]
  congr 2
  funext row
  simp [keeps]

theorem get_updateWhere (table : Table key) (p : Row → Bool) (f : Row → Row)
    (keeps : ∀ row, key (f row) = key row) (k : Key) :
    (table.updateWhere p f keeps).get k =
      (table.get k).map fun row => if p row then f row else row :=
  get_update table _ _ k

theorem get_updateAt (table : Table key) (k : Key) (f : Row → Row)
    (keeps : ∀ row, key (f row) = key row) (j : Key) :
    (table.updateAt k f keeps).get j = if j = k then (table.get k).map f else table.get j := by
  rw [updateAt, get_updateWhere]
  cases found : table.get j with
  | none =>
      split
      · rename_i same
        rw [← same, found]
        rfl
      · rfl
  | some row =>
      have same := key_of_get found
      subst same
      by_cases addressed : key row = k
      · subst addressed
        simp [found]
      · simp [addressed]

theorem get_replace (table : Table key) (row : Row) (k : Key) :
    (table.replace row).get k =
      if k = key row then (table.get k).map fun _ => row else table.get k := by
  rw [replace, get_update]
  cases found : table.get k with
  | none => simp
  | some old =>
      rw [← key_of_get found]
      by_cases same : key old = key row
      · simp [same]
      · simp [same]

theorem replace_self {table : Table key} {row : Row} (stored : row ∈ table.rows) :
    table.replace row = table := by
  have same : table.rows.map (fun old => if key old = key row then row else old) = table.rows := by
    apply (List.map_congr_left _).trans (List.map_id _)
    intro old inside
    split
    · rename_i equal
      exact (List.inj_on_of_nodup_map table.unique inside stored equal).symm
    · rfl
  unfold replace update
  simp only [same]

theorem mem_replace {table : Table key} {row other : Row}
    (member : other ∈ (table.replace row).rows) :
    other = row ∨ other ∈ table.rows ∧ key other ≠ key row := by
  obtain ⟨old, inside, rfl⟩ := List.mem_map.mp member
  by_cases same : key old = key row
  · exact .inl (if_pos same)
  · rw [if_neg same]
    exact .inr ⟨inside, same⟩

theorem get_delete (table : Table key) (p : Row → Bool) (k : Key) :
    (table.delete p).get k = (table.get k).filter fun row => !p row := by
  cases found : table.get k with
  | none =>
      rw [get_eq_none_iff] at found
      simp only [Option.filter_none, get_eq_none_iff]
      intro member
      obtain ⟨row, inside, same⟩ := List.mem_map.mp member
      exact found (List.mem_map.mpr ⟨row, (List.mem_filter.mp inside).1, same⟩)
  | some row =>
      have member := mem_of_get found
      have same := key_of_get found
      subst same
      by_cases removed : p row = true
      · simp only [Option.filter, removed, Bool.not_true, Bool.false_eq_true, if_false]
        rw [get_eq_none_iff]
        intro inside
        obtain ⟨other, kept, samekey⟩ := List.mem_map.mp inside
        obtain ⟨present, survives⟩ := List.mem_filter.mp kept
        have equal := List.inj_on_of_nodup_map table.unique present member samekey
        subst equal
        simp [removed] at survives
      · have kept : row ∈ (table.delete p).rows := by
          simp only [delete, List.mem_filter, member, true_and, Bool.not_eq_true']
          simpa using removed
        rw [get_of_mem kept]
        simp [Option.filter, removed]

/-- A bulk INSERT appends its rows, whose keys were all free. -/
theorem insertAll_eq_some {table next : Table key} {rows : List Row}
    (inserted : table.insertAll rows = some next) :
    next.rows = table.rows ++ rows ∧ ∀ row ∈ rows, table.get (key row) = none := by
  induction rows generalizing table with
  | nil =>
      cases inserted
      simp
  | cons row rows ih =>
      obtain ⟨middle, first, rest⟩ := Option.bind_eq_some_iff.mp inserted
      obtain ⟨fresh, appended⟩ := insert_eq_some first
      obtain ⟨later, free⟩ := ih rest
      refine ⟨by rw [later, appended, List.append_assoc, List.singleton_append], ?_⟩
      intro other member
      rcases List.mem_cons.mp member with rfl | inside
      · exact fresh
      · have unread := free other inside
        rw [get_insert first] at unread
        split at unread
        · cases unread
        · exact unread

end Table

end Yomochi.Foundation
