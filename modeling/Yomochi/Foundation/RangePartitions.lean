import Mathlib.Data.List.Nodup
import Mathlib.Data.List.Pairwise
import Mathlib.Order.Lattice

/-! Tables that are partitioned by ranges of a key, as PostgreSQL has them: no two partitions
share a name, their ranges are apart, and what lies in no range is kept by the default partition,
if there is one. -/

namespace Yomochi.Foundation

variable {Name Key : Type} [LinearOrder Key]

/-- `DEFAULT` with the keys of its rows, or `FROM lower TO upper`, without the upper end. -/
inductive Bounds (Key : Type)
  | default (rows : List Key)
  | range (lower upper : Key)
  deriving DecidableEq

namespace Bounds

def Apart : Bounds Key → Bounds Key → Prop
  | .range lower upper, .range otherLower otherUpper => upper ≤ otherLower ∨ otherUpper ≤ lower
  | .range _ _, .default _ => True
  | .default _, .range _ _ => True
  | .default _, .default _ => False

/-- A new range can be added: it overlaps no other one, and no row would have to leave the default
partition for it. -/
def Admits (lower upper : Key) : Bounds Key → Prop
  | .default rows => ∀ row ∈ rows, ¬ (lower ≤ row ∧ row < upper)
  | .range otherLower otherUpper => otherUpper ≤ lower ∨ upper ≤ otherLower

instance (lower upper : Key) : DecidablePred (Admits lower upper)
  | .default rows => inferInstanceAs (Decidable (∀ row ∈ rows, ¬ (lower ≤ row ∧ row < upper)))
  | .range _ _ => inferInstanceAs (Decidable (_ ∨ _))

def Contains (key : Key) : Bounds Key → Prop
  | .default _ => False
  | .range lower upper => lower ≤ key ∧ key < upper

instance (key : Key) : DecidablePred (Contains key)
  | .default _ => .isFalse id
  | .range _ _ => inferInstanceAs (Decidable (_ ∧ _))

def write (key : Key) : Bounds Key → Bounds Key
  | .default rows => .default (rows ++ [key])
  | .range lower upper => .range lower upper

theorem apart_write (key : Key) {one two : Bounds Key} (apart : one.Apart two) :
    (one.write key).Apart (two.write key) := by
  cases one with
  | default rows =>
      cases two with
      | default others => exact apart
      | range lower upper => trivial
  | range lower upper =>
      cases two with
      | default rows => trivial
      | range otherLower otherUpper => exact apart

theorem apart_symmetric {one two : Bounds Key} (apart : one.Apart two) : two.Apart one := by
  cases one with
  | default rows =>
      cases two with
      | default others => exact apart
      | range lower upper => trivial
  | range lower upper =>
      cases two with
      | default rows => trivial
      | range otherLower otherUpper => exact apart.symm

theorem apart_of_admits {bounds : Bounds Key} {lower upper : Key}
    (admits : bounds.Admits lower upper) : bounds.Apart (.range lower upper) := by
  cases bounds with
  | default rows => trivial
  | range otherLower otherUpper => exact admits

theorem not_both_contain {one two : Bounds Key} (apart : one.Apart two) {key : Key}
    (first : one.Contains key) (second : two.Contains key) : False := by
  cases one with
  | default rows => exact first
  | range lower upper =>
      cases two with
      | default rows => exact second
      | range otherLower otherUpper =>
          rcases apart with before | after
          · exact lt_irrefl key (lt_of_lt_of_le (lt_of_lt_of_le first.2 before) second.1)
          · exact lt_irrefl key (lt_of_lt_of_le (lt_of_lt_of_le second.2 after) first.1)

end Bounds

structure RangePartition (Name Key : Type) where
  name : Name
  bounds : Bounds Key
  deriving DecidableEq

structure PartitionedTable (Name Key : Type) [LinearOrder Key] where
  partitions : List (RangePartition Name Key)
  named : (partitions.map RangePartition.name).Nodup
  apart : partitions.Pairwise fun one two => one.bounds.Apart two.bounds

inductive PartitionError
  | emptyRange
  | overlap
  deriving DecidableEq, Repr

namespace PartitionedTable

def names (table : PartitionedTable Name Key) : List Name :=
  table.partitions.map RangePartition.name

def attach (table : PartitionedTable Name Key) (name : Name) (lower upper : Key)
    (fresh : name ∉ table.names)
    (admits : ∀ p ∈ table.partitions, p.bounds.Admits lower upper) :
    PartitionedTable Name Key where
  partitions := table.partitions ++ [⟨name, .range lower upper⟩]
  named := by
    rw [List.map_append]
    refine List.nodup_append.mpr ⟨table.named, List.nodup_singleton name, ?_⟩
    intro other member own inside same
    rw [List.map_singleton, List.mem_singleton] at inside
    rw [same, inside] at member
    exact fresh member
  apart := by
    refine List.pairwise_append.mpr ⟨table.apart, List.pairwise_singleton _ _, ?_⟩
    intro p member own inside
    rw [List.mem_singleton.mp inside]
    exact Bounds.apart_of_admits (admits p member)

/-- A row with the key is written. What no range contains goes to the default partition; without
one it is refused. -/
def insert (table : PartitionedTable Name Key) (key : Key) : PartitionedTable Name Key :=
  if ∃ p ∈ table.partitions, p.bounds.Contains key then table
  else {
    partitions := table.partitions.map fun p => ⟨p.name, p.bounds.write key⟩
    named := by
      rw [List.map_map]
      exact table.named
    apart := List.pairwise_map.mpr (table.apart.imp (Bounds.apart_write key)) }

/-- The partition that a row with the key is kept in. -/
def Keeps (table : PartitionedTable Name Key) (key : Key) (p : RangePartition Name Key) : Prop :=
  p ∈ table.partitions ∧
    match p.bounds with
    | .range lower upper => lower ≤ key ∧ key < upper
    | .default _ => ∀ q ∈ table.partitions, ¬ q.bounds.Contains key

variable {table next : PartitionedTable Name Key}

instance : Std.Symm fun one two : RangePartition Name Key => one.bounds.Apart two.bounds :=
  ⟨fun _ _ => Bounds.apart_symmetric⟩

theorem apart_of_ne {p q : RangePartition Name Key} (first : p ∈ table.partitions)
    (second : q ∈ table.partitions) (differ : p ≠ q) : p.bounds.Apart q.bounds :=
  table.apart.forall first second differ

/-- A key in the range of a partition is kept there and nowhere else. -/
theorem keeps_unique {p : RangePartition Name Key} {lower upper key : Key}
    (member : p ∈ table.partitions) (bounds : p.bounds = .range lower upper)
    (above : lower ≤ key) (below : key < upper) : ∃! p, table.Keeps key p := by
  have inside : p.bounds.Contains key := by
    rw [bounds]
    exact ⟨above, below⟩
  refine ⟨p, ⟨member, by rw [bounds]; exact ⟨above, below⟩⟩, ?_⟩
  rintro q ⟨other, kept⟩
  by_contra differ
  cases shape : q.bounds with
  | default rows =>
      rw [shape] at kept
      exact kept p member inside
  | range otherLower otherUpper =>
      rw [shape] at kept
      have contains : q.bounds.Contains key := by
        rw [shape]
        exact kept
      exact Bounds.not_both_contain (table.apart_of_ne other member differ) contains inside

theorem range_mem_insert {p : RangePartition Name Key} (member : p ∈ table.partitions)
    {lower upper : Key} (range : p.bounds = .range lower upper) (key : Key) :
    p ∈ (table.insert key).partitions := by
  unfold insert
  split
  · exact member
  · refine List.mem_map.mpr ⟨p, member, ?_⟩
    obtain ⟨name, bounds⟩ := p
    cases range
    rfl

variable [DecidableEq Name]

/-- `CREATE TABLE IF NOT EXISTS name PARTITION OF … FOR VALUES FROM (lower) TO (upper)`: a
partition that has the name already is left as it is. -/
def createIfNotExists (table : PartitionedTable Name Key) (name : Name) (lower upper : Key) :
    Except PartitionError (PartitionedTable Name Key) :=
  if fresh : name ∉ table.names then
    if lower < upper then
      if admits : ∀ p ∈ table.partitions, p.bounds.Admits lower upper then
        .ok (table.attach name lower upper fresh admits)
      else .error .overlap
    else .error .emptyRange
  else .ok table

def drop (table : PartitionedTable Name Key) (name : Name) : PartitionedTable Name Key where
  partitions := table.partitions.filter fun p => p.name ≠ name
  named := table.named.sublist (List.filter_sublist.map RangePartition.name)
  apart := table.apart.sublist List.filter_sublist

theorem mem_drop_all {table : PartitionedTable Name Key} {dropped : List Name}
    {p : RangePartition Name Key} : p ∈ (dropped.foldl drop table).partitions ↔
      p ∈ table.partitions ∧ p.name ∉ dropped := by
  induction dropped generalizing table with
  | nil => exact (and_iff_left List.not_mem_nil).symm
  | cons name dropped ih =>
      rw [List.foldl_cons, ih, drop, List.mem_filter, decide_eq_true_eq, and_assoc, List.mem_cons,
        not_or]

structure NewPartition (Name Key : Type) where
  name : Name
  lower : Key
  upper : Key

def NewPartition.partition (new : NewPartition Name Key) : RangePartition Name Key :=
  ⟨new.name, .range new.lower new.upper⟩

def createEach (table : PartitionedTable Name Key) (news : List (NewPartition Name Key)) :
    Except PartitionError (PartitionedTable Name Key) :=
  news.foldlM (fun table new => table.createIfNotExists new.name new.lower new.upper) table

/-- The name is taken, or nothing is in the way. -/
def Creatable (table : PartitionedTable Name Key) (new : NewPartition Name Key) : Prop :=
  new.name ∈ table.names ∨
    ∀ p ∈ table.partitions, p.bounds.Admits new.lower new.upper

def missing (table : PartitionedTable Name Key) (news : List (NewPartition Name Key)) :
    List (RangePartition Name Key) :=
  (news.filter fun new => new.name ∉ table.names).map NewPartition.partition

theorem create_spec (table : PartitionedTable Name Key) {new : NewPartition Name Key}
    (ordered : new.lower < new.upper) :
    match table.createIfNotExists new.name new.lower new.upper with
    | .ok next => table.Creatable new ∧ next.partitions = table.partitions ++ table.missing [new]
    | .error _ => ¬ table.Creatable new := by
  unfold createIfNotExists
  by_cases fresh : new.name ∉ table.names
  · rw [dif_pos fresh, if_pos ordered]
    by_cases admits : ∀ p ∈ table.partitions, p.bounds.Admits new.lower new.upper
    · rw [dif_pos admits]
      have one : table.missing [new] = [new.partition] := by simp [missing, fresh]
      exact ⟨.inr admits, by rw [one]; rfl⟩
    · rw [dif_neg admits]
      rintro (named | admitted)
      · exact fresh named
      · exact admits admitted
  · rw [dif_neg fresh]
    have none : table.missing [new] = [] := by simp [missing, not_not.mp fresh]
    exact ⟨.inl (not_not.mp fresh), by rw [none, List.append_nil]⟩

/-- New partitions that can stand beside each other. -/
structure Compatible (news : List (NewPartition Name Key)) : Prop where
  ordered : ∀ new ∈ news, new.lower < new.upper
  named : (news.map NewPartition.name).Nodup
  apart : news.Pairwise fun one two => one.upper ≤ two.lower ∨ two.upper ≤ one.lower

theorem mem_missing {news : List (NewPartition Name Key)} {p : RangePartition Name Key} :
    p ∈ table.missing news ↔ ∃ new ∈ news, new.name ∉ table.names ∧ new.partition = p := by
  simp only [missing, List.mem_map, List.mem_filter, decide_eq_true_eq, and_assoc]

theorem missing_cons (new : NewPartition Name Key) (news : List (NewPartition Name Key)) :
    table.missing (new :: news) = table.missing [new] ++ table.missing news := by
  rw [missing, missing, missing, ← List.map_append, ← List.filter_append, List.singleton_append]

section Added

variable {new other : NewPartition Name Key}

theorem mem_names_added (added : next.partitions = table.partitions ++ table.missing [new])
    {name : Name} (differs : name ≠ new.name) : name ∈ next.names ↔ name ∈ table.names := by
  rw [names, added, List.map_append, List.mem_append]
  apply or_iff_left
  intro member
  obtain ⟨p, inside, rfl⟩ := List.mem_map.mp member
  obtain ⟨one, own, _, rfl⟩ := mem_missing.mp inside
  rw [List.mem_singleton] at own
  exact differs (own ▸ rfl)

/-- What is added is in the way of no compatible partition. -/
theorem creatable_added (added : next.partitions = table.partitions ++ table.missing [new])
    (differs : other.name ≠ new.name)
    (apart : new.upper ≤ other.lower ∨ other.upper ≤ new.lower) :
    next.Creatable other ↔ table.Creatable other := by
  apply or_congr (mem_names_added added differs)
  rw [added]
  constructor
  · exact fun admits p member => admits p (List.mem_append_left _ member)
  · intro admits p member
    rcases List.mem_append.mp member with before | inside
    · exact admits p before
    · obtain ⟨one, own, _, rfl⟩ := mem_missing.mp inside
      rw [List.mem_singleton.mp own]
      exact apart

end Added

/-- One statement after the other: all succeed exactly when each could be the first. -/
theorem create_each_spec (table : PartitionedTable Name Key) {news : List (NewPartition Name Key)}
    (compatible : Compatible news) :
    match table.createEach news with
    | .ok next => (∀ new ∈ news, table.Creatable new) ∧
        next.partitions = table.partitions ++ table.missing news
    | .error _ => ¬ ∀ new ∈ news, table.Creatable new := by
  induction news generalizing table with
  | nil => exact ⟨nofun, (List.append_nil _).symm⟩
  | cons new news ih =>
      obtain ⟨ordered, named, apart⟩ := compatible
      rw [List.map_cons, List.nodup_cons] at named
      rw [List.pairwise_cons] at apart
      have first := create_spec table (ordered new List.mem_cons_self)
      rw [createEach, List.foldlM_cons]
      cases created : table.createIfNotExists new.name new.lower new.upper with
      | error error =>
          rw [created] at first
          exact fun all => first (all new List.mem_cons_self)
      | ok middle =>
          rw [created] at first
          obtain ⟨creatable, added⟩ := first
          have rest := ih middle ⟨fun other member => ordered other (List.mem_cons_of_mem _ member),
            named.2, apart.2⟩
          have differs : ∀ other ∈ news, other.name ≠ new.name := fun other member same =>
            named.1 (same ▸ List.mem_map_of_mem member)
          have same : (∀ other ∈ news, middle.Creatable other) ↔
              ∀ other ∈ news, table.Creatable other :=
            forall₂_congr fun other member =>
              creatable_added added (differs other member) (apart.1 other member)
          have left : middle.missing news = table.missing news := by
            refine congrArg _ (List.filter_congr fun other member => ?_)
            simp only [mem_names_added added (differs other member)]
          rw [same, left] at rest
          rw [List.forall_mem_cons, and_iff_right creatable, missing_cons, ← List.append_assoc,
            ← added]
          exact rest

end PartitionedTable

end Yomochi.Foundation
