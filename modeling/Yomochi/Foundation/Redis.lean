import Mathlib.Data.List.Sort
import Mathlib.Logic.Function.Basic

/-! Keys that expire, and sorted sets. Every operation is one command. -/

namespace Yomochi.Foundation

/-- Each key has its value and the time at which it expires. -/
structure Keys (Key Value : Type) where
  entry : Key → Option (Value × Nat)

namespace Keys

variable {Key Value : Type}

def empty : Keys Key Value := ⟨fun _ => none⟩

def get (keys : Keys Key Value) (now : Nat) (key : Key) : Option Value :=
  (keys.entry key).bind fun entry => if now < entry.2 then some entry.1 else none

/-- SET .. EX -/
def set [DecidableEq Key] (keys : Keys Key Value) (key : Key) (value : Value) (expiry : Nat) : Keys Key Value :=
  ⟨Function.update keys.entry key (some (value, expiry))⟩

def delete [DecidableEq Key] (keys : Keys Key Value) (removed : List Key) : Keys Key Value :=
  ⟨fun key => if key ∈ removed then none else keys.entry key⟩

theorem get_eq_some {keys : Keys Key Value} {now : Nat} {key : Key} {value : Value} :
    keys.get now key = some value ↔
      ∃ expiry, keys.entry key = some (value, expiry) ∧ now < expiry := by
  unfold get
  cases found : keys.entry key with
  | none => simp
  | some entry =>
      obtain ⟨stored, expiry⟩ := entry
      by_cases lives : now < expiry
      · simp [lives]
      · simp only [Option.bind_some, lives, if_false, Option.some.injEq, Prod.mk.injEq]
        constructor
        · intro absurdity
          cases absurdity
        · rintro ⟨other, ⟨_, rfl⟩, later⟩
          exact absurd later lives

variable [DecidableEq Key]

theorem entry_set (keys : Keys Key Value) (key other : Key) (value : Value) (expiry : Nat) :
    (keys.set key value expiry).entry other =
      if other = key then some (value, expiry) else keys.entry other := by
  simp [set, Function.update_apply]

theorem entry_delete_eq_some {keys : Keys Key Value} {removed : List Key} {key : Key}
    {entry : Value × Nat} :
    (keys.delete removed).entry key = some entry ↔
      key ∉ removed ∧ keys.entry key = some entry := by
  unfold delete
  by_cases inside : key ∈ removed
  · simp [inside]
  · simp [inside]

theorem get_delete {keys : Keys Key Value} {removed : List Key} {now : Nat} {key : Key}
    {value : Value} :
    (keys.delete removed).get now key = some value ↔
      key ∉ removed ∧ keys.get now key = some value := by
  simp only [get_eq_some, entry_delete_eq_some]
  constructor
  · rintro ⟨expiry, ⟨kept, stored⟩, lives⟩
    exact ⟨kept, expiry, stored, lives⟩
  · rintro ⟨kept, expiry, stored, lives⟩
    exact ⟨expiry, ⟨kept, stored⟩, lives⟩

end Keys

structure SortedSet (Member : Type) where
  entries : List (Member × Nat)
  unique : (entries.map Prod.fst).Nodup
  sorted : entries.Pairwise fun left right => left.2 ≤ right.2

namespace SortedSet

variable {Member : Type}

def empty : SortedSet Member := ⟨[], List.nodup_nil, List.Pairwise.nil⟩

def filter (set : SortedSet Member) (keep : Member × Nat → Bool) : SortedSet Member where
  entries := set.entries.filter keep
  unique := set.unique.sublist (List.filter_sublist.map Prod.fst)
  sorted := set.sorted.sublist List.filter_sublist

def zrem [DecidableEq Member] (set : SortedSet Member) (member : Member) : SortedSet Member :=
  set.filter fun entry => entry.1 ≠ member

/-- ZREMRANGEBYSCORE from 0 -/
def zremrangebyscore (set : SortedSet Member) (max : Nat) : SortedSet Member :=
  set.filter fun entry => max < entry.2

def place (entry : Member × Nat) : List (Member × Nat) → List (Member × Nat)
  | [] => [entry]
  | other :: entries =>
      if entry.2 ≤ other.2 then entry :: other :: entries else other :: place entry entries

theorem place_perm (entry : Member × Nat) (entries : List (Member × Nat)) :
    (place entry entries).Perm (entry :: entries) := by
  induction entries with
  | nil => rfl
  | cons other entries ih =>
      unfold place
      split
      · rfl
      · exact (ih.cons other).trans (List.Perm.swap entry other entries)

theorem place_sorted (entry : Member × Nat) {entries : List (Member × Nat)}
    (sorted : entries.Pairwise fun left right => left.2 ≤ right.2) :
    (place entry entries).Pairwise fun left right => left.2 ≤ right.2 := by
  induction entries with
  | nil => exact List.pairwise_singleton _ _
  | cons other entries ih =>
      obtain ⟨first, rest⟩ := List.pairwise_cons.mp sorted
      unfold place
      split
      · rename_i le
        refine List.pairwise_cons.mpr ⟨?_, sorted⟩
        intro later member
        rcases List.mem_cons.mp member with rfl | inside
        · exact le
        · exact Nat.le_trans le (first later inside)
      · rename_i lt
        refine List.pairwise_cons.mpr ⟨?_, ih rest⟩
        intro later member
        rcases List.mem_cons.mp ((place_perm entry entries).mem_iff.mp member) with rfl | inside
        · exact Nat.le_of_not_le lt
        · exact first later inside

def zadd [DecidableEq Member] (set : SortedSet Member) (member : Member) (score : Nat) :
    SortedSet Member where
  entries := place (member, score) (set.zrem member).entries
  unique := by
    rw [((place_perm _ _).map Prod.fst).nodup_iff]
    refine List.nodup_cons.mpr ⟨?_, (set.zrem member).unique⟩
    intro inside
    obtain ⟨entry, kept, same⟩ := List.mem_map.mp inside
    have different := (List.mem_filter.mp kept).2
    simp [same] at different
  sorted := place_sorted _ (set.zrem member).sorted

/-- ZRANGE from 0 to -1 -/
def zrange (set : SortedSet Member) : List Member := set.entries.map Prod.fst

/-- ZRANGEBYSCORE up to +inf -/
def zrangebyscore (set : SortedSet Member) (min : Nat) : List Member :=
  (set.filter fun entry => min ≤ entry.2).zrange

theorem mem_filter {set : SortedSet Member} {keep : Member × Nat → Bool} {entry : Member × Nat} :
    entry ∈ (set.filter keep).entries ↔ entry ∈ set.entries ∧ keep entry = true := List.mem_filter

@[simp] theorem mem_zrem [DecidableEq Member] {set : SortedSet Member} {member other : Member} {score : Nat} :
    (other, score) ∈ (set.zrem member).entries ↔ (other, score) ∈ set.entries ∧ other ≠ member := by
  simp [zrem, mem_filter]

@[simp] theorem mem_zremrangebyscore {set : SortedSet Member} {max : Nat} {entry : Member × Nat} :
    entry ∈ (set.zremrangebyscore max).entries ↔ entry ∈ set.entries ∧ max < entry.2 := by
  simp [zremrangebyscore, mem_filter]

@[simp] theorem mem_zadd [DecidableEq Member] {set : SortedSet Member} {member other : Member}
    {score value : Nat} :
    (other, value) ∈ (set.zadd member score).entries ↔
      (other = member ∧ value = score) ∨ (other, value) ∈ set.entries ∧ other ≠ member := by
  change (other, value) ∈ place (member, score) (set.zrem member).entries ↔ _
  rw [(place_perm _ _).mem_iff]
  simp

theorem mem_zrange {set : SortedSet Member} {member : Member} :
    member ∈ set.zrange ↔ ∃ score, (member, score) ∈ set.entries := by
  simp [zrange]

theorem mem_zrangebyscore {set : SortedSet Member} {min : Nat} {member : Member} :
    member ∈ set.zrangebyscore min ↔ ∃ score, (member, score) ∈ set.entries ∧ min ≤ score := by
  simp [zrangebyscore, mem_zrange, mem_filter]

end SortedSet

end Yomochi.Foundation
