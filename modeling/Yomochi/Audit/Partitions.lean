import Mathlib.Data.List.Pairwise
import Yomochi.Foundation.IsoFormat
import Yomochi.Foundation.Months
import Yomochi.Foundation.Ordinals
import Yomochi.Foundation.RangePartitions

/-! The job that creates the monthly partitions of `audit_events` ahead of time and drops the old
ones. Months are counted from January of the year 0 in what is proved of it. -/

namespace Yomochi.Audit

open Foundation

def auditPartitionAheadMonths : Nat := 3

def auditPartitionRetentionMonths : Nat := 12

def addMonth (year month : Nat) : Nat × Nat :=
  if month = 12 then (year + 1, 1) else (year, month + 1)

def subMonths (year month n : Int) : Int × Int :=
  let idx := year * 12 + (month - 1) - n
  (idx / 12, idx % 12 + 1)

def namePrefix : Text := text "audit_events_"

def partitionName (year month : Nat) : Text :=
  namePrefix ++ padded 4 year ++ '_'.toNat :: padded 2 month

/-- `'YYYY-MM-01'`, midnight of UTC in microseconds since the start of the year 1. -/
def firstOfMonth (year month : Nat) : Int :=
  ((yearStart year + daysInMonths year (month - 1)) * microsecondsPerDay : Nat)

abbrev AuditTable := PartitionedTable Text Int

def upcoming : Nat → Nat → Nat → List (PartitionedTable.NewPartition Text Int)
  | 0, _, _ => []
  | months + 1, year, month =>
      let (nxtYear, nxtMonth) := addMonth year month
      ⟨partitionName year month, firstOfMonth year month, firstOfMonth nxtYear nxtMonth⟩ ::
        upcoming months nxtYear nxtMonth

def newPartitions (today : Date) : List (PartitionedTable.NewPartition Text Int) :=
  upcoming (auditPartitionAheadMonths + 1) today.year today.month

def isPlain (c : Nat) : Bool :=
  ('a'.toNat ≤ c && c ≤ 'z'.toNat) || c = '_'.toNat || isDigit c

/-- `regclass::text`: a name that is no plain identifier stands in double quotes. So do the
reserved words, none of which has the prefix. -/
def regclassText (name : Text) : Text :=
  if name.all isPlain ∧ name.head?.any (fun c => !isDigit c) then name
  else '"'.toNat :: name.flatMap (fun c => if c = '"'.toNat then [c, c] else [c]) ++ ['"'.toNat]

def isdigit (source : Text) : Bool := !source.isEmpty && source.all isDigit

def suffixMonth (name : Text) : Option (Nat × Nat) :=
  if namePrefix.isPrefixOf name then
    match (name.drop namePrefix.length).splitOn '_'.toNat with
    | [year, month] =>
        if isdigit year && isdigit month then some (digitsValue year, digitsValue month) else none
    | _ => none
  else none

/-- `<` of tuples. -/
def earlier (one two : Int × Int) : Bool :=
  one.1 < two.1 || (one.1 = two.1 && one.2 < two.2)

def expired (today : Date) (name : Text) : Bool :=
  match suffixMonth name with
  | none => false
  | some (year, month) =>
      earlier (year, month) (subMonths today.year today.month auditPartitionRetentionMonths)

def expiredNames (today : Date) (table : AuditTable) : List Text :=
  (table.names.map regclassText).filter (expired today)

structure PartitionRun where
  table : AuditTable
  created : List Text
  dropped : List Text

/-- The statements are one transaction: an error leaves the table as it was. -/
def manageAuditPartitions (today : Date) (table : AuditTable) :
    Except PartitionError PartitionRun := do
  let news := newPartitions today
  let table ← table.createEach news
  let dropped := expiredNames today table
  return ⟨dropped.foldl PartitionedTable.drop table, news.map (·.name), dropped⟩

/-! Months as numbers. -/

def monthIndex (date : Date) : Nat := date.year * 12 + (date.month - 1)

def nameAt (n : Nat) : Text := partitionName (n / 12) (n % 12 + 1)

def startAt (n : Nat) : Int := firstOfMonth (n / 12) (n % 12 + 1)

def monthPartition (n : Nat) : PartitionedTable.NewPartition Text Int :=
  ⟨nameAt n, startAt n, startAt (n + 1)⟩

theorem index_year (date : Date) : monthIndex date / 12 = date.year := by
  have months := date.monthBounds
  unfold monthIndex
  omega

theorem index_month (date : Date) : monthIndex date % 12 + 1 = date.month := by
  have months := date.monthBounds
  unfold monthIndex
  omega

theorem add_month (n : Nat) :
    addMonth (n / 12) (n % 12 + 1) = ((n + 1) / 12, (n + 1) % 12 + 1) := by
  unfold addMonth
  split
  · exact Prod.ext (by simp only; omega) (by simp only; omega)
  · exact Prod.ext (by simp only; omega) (by simp only; omega)

theorem upcoming_eq (months n : Nat) :
    upcoming months (n / 12) (n % 12 + 1) = (List.range' n months).map monthPartition := by
  induction months generalizing n with
  | zero => rfl
  | succ months ih =>
      rw [upcoming, add_month, List.range'_succ, List.map_cons, ← ih]
      rfl

def Ahead (today : Date) (n : Nat) : Prop := monthIndex today ≤ n ∧ n < monthIndex today + 4

theorem upcoming_today (today : Date) :
    newPartitions today = (List.range' (monthIndex today) 4).map monthPartition := by
  rw [← upcoming_eq, index_year, index_month]
  rfl

theorem mem_upcoming {today : Date} {new : PartitionedTable.NewPartition Text Int} :
    new ∈ newPartitions today ↔ ∃ n, Ahead today n ∧ monthPartition n = new := by
  rw [upcoming_today, List.mem_map]
  exact exists_congr fun n => and_congr_left' List.mem_range'_1

theorem start_succ {n : Nat} (positive : 12 ≤ n) :
    startAt (n + 1) =
      startAt n + (daysInMonth (n / 12) (n % 12 + 1) * microsecondsPerDay : Nat) := by
  have days : yearStart ((n + 1) / 12) + daysInMonths ((n + 1) / 12) ((n + 1) % 12) =
      yearStart (n / 12) + daysInMonths (n / 12) (n % 12) +
        daysInMonth (n / 12) (n % 12 + 1) := by
    by_cases last : n % 12 = 11
    · have year : (n + 1) / 12 = n / 12 + 1 := by omega
      have month : (n + 1) % 12 = 0 := by omega
      rw [year, month, last, year_start_succ (by omega), Nat.add_assoc]
      rfl
    · have year : (n + 1) / 12 = n / 12 := by omega
      have month : (n + 1) % 12 = n % 12 + 1 := by omega
      rw [year, month, daysInMonths, Nat.add_assoc]
  simp only [startAt, firstOfMonth, Nat.add_sub_cancel, days, Nat.add_mul, Nat.cast_add]

theorem start_lt_succ {n : Nat} (positive : 12 ≤ n) : startAt n < startAt (n + 1) := by
  have days := (daysInMonth_bounds (n / 12) (n % 12 + 1)).1
  have time : 0 < daysInMonth (n / 12) (n % 12 + 1) * microsecondsPerDay :=
    Nat.mul_pos (by omega) (by decide)
  rw [start_succ positive]
  omega

theorem start_mono {first second : Nat} (positive : 12 ≤ first) (le : first ≤ second) :
    startAt first ≤ startAt second := by
  induction le with
  | refl => exact Int.le_refl _
  | step le ih => exact Int.le_trans ih (Int.le_of_lt (start_lt_succ (Nat.le_trans positive le)))

theorem year_le_index (today : Date) : 12 ≤ monthIndex today := by
  have bounds := today.yearBounds
  unfold monthIndex
  omega

def OnDate (date : Date) (time : Int) : Prop :=
  ((date.ordinal - 1) * microsecondsPerDay : Nat) ≤ time ∧
    time < (date.ordinal * microsecondsPerDay : Nat)

theorem month_index_mono {first second : Date} (le : first ≤ second) :
    monthIndex first ≤ monthIndex second := by
  have firstDay := first.dayBounds.1
  have secondDay := second.day_le
  have firstMonth := first.monthBounds
  have secondMonth := second.monthBounds
  rw [Date.le_def, Date.stamp, Date.stamp] at le
  unfold monthIndex
  omega

theorem month_of_date {date : Date} {time : Int} (day : OnDate date time) :
    startAt (monthIndex date) ≤ time ∧ time < startAt (monthIndex date + 1) := by
  have first : startAt (monthIndex date) = firstOfMonth date.year date.month := by
    rw [startAt, index_year, index_month]
  have number := date.ordinal_eq
  have days := date.dayBounds
  rw [start_succ (year_le_index date), index_year, index_month, first, firstOfMonth,
    ← Nat.cast_add, ← Nat.add_mul]
  constructor
  · refine Int.le_trans (Int.ofNat_le.mpr (Nat.mul_le_mul_right _ ?_)) day.1
    omega
  · refine Int.lt_of_lt_of_le day.2 (Int.ofNat_le.mpr (Nat.mul_le_mul_right _ ?_))
    omega

/-! What the names say. -/

theorem underscore_no_digit {digits : Text} (valid : ∀ c ∈ digits, isDigit c = true) :
    '_'.toNat ∉ digits := by
  intro member
  exact absurd (valid _ member) (by decide)

theorem isdigit_padded (width n : Nat) : isdigit (padded width n) = true := by
  have some : padded width n ≠ [] := by
    obtain ⟨c, rest, digits⟩ := decimal_cons n
    rw [padded, digits]
    exact List.append_ne_nil_of_right_ne_nil _ (List.cons_ne_nil c rest)
  have digits : (padded width n).all isDigit = true :=
    List.all_eq_true.mpr fun c member => padded_digits member
  rw [isdigit, digits, Bool.and_true, Bool.not_eq_true', List.isEmpty_eq_false_iff]
  exact some

theorem suffix_month_name (year month : Nat) :
    suffixMonth (partitionName year month) = some (year, month) := by
  have front : namePrefix.isPrefixOf (partitionName year month) = true := by
    rw [List.isPrefixOf_iff_prefix, partitionName, List.append_assoc]
    exact List.prefix_append _ _
  have suffix : (partitionName year month).drop namePrefix.length =
      padded 4 year ++ '_'.toNat :: padded 2 month := by
    rw [partitionName, List.append_assoc, List.drop_left]
  have parts : (padded 4 year ++ '_'.toNat :: padded 2 month).splitOn '_'.toNat =
      [padded 4 year, padded 2 month] := by
    rw [List.splitOn_append_cons_self_of_not_mem (underscore_no_digit fun _ => padded_digits),
      List.splitOn_eq_singleton (underscore_no_digit fun _ => padded_digits)]
  rw [suffixMonth, if_pos front, suffix, parts]
  simp only [isdigit_padded, Bool.and_self, if_true, digits_value_padded]

theorem name_injective {first second : Nat} (same : nameAt first = nameAt second) :
    first = second := by
  have pair : some (first / 12, first % 12 + 1) = some (second / 12, second % 12 + 1) := by
    rw [← suffix_month_name, ← suffix_month_name]
    exact congrArg suffixMonth same
  simp only [Option.some.injEq, Prod.mk.injEq] at pair
  omega

theorem is_plain_digit {digits : Text} (numeral : isdigit digits = true) :
    digits.all isPlain = true := by
  rw [isdigit, Bool.and_eq_true] at numeral
  apply List.all_eq_true.mpr
  intro c member
  rw [isPlain, List.all_eq_true.mp numeral.2 c member, Bool.or_true]

theorem suffix_month_plain {name : Text} {found : Nat × Nat}
    (parsed : suffixMonth name = some found) : regclassText name = name := by
  unfold suffixMonth at parsed
  split at parsed
  · rename_i front
    obtain ⟨suffix, rfl⟩ := List.isPrefixOf_iff_prefix.mp front
    rw [List.drop_left] at parsed
    split at parsed
    · rename_i year month parts
      split at parsed
      · rename_i digits
        rw [Bool.and_eq_true] at digits
        have joined : ['_'.toNat].intercalate (suffix.splitOn '_'.toNat) = suffix :=
          List.intercalate_splitOn '_'.toNat
        have suffixPlain : suffix.all isPlain = true := by
          rw [← joined, parts]
          simp [List.intercalate, List.intersperse, is_plain_digit digits.1,
            is_plain_digit digits.2]
          decide
        have prefixPlain : namePrefix.all isPlain = true := by decide
        refine if_pos ⟨?_, rfl⟩
        rw [List.all_append, prefixPlain, suffixPlain]
        rfl
      · cases parsed
    · cases parsed
  · cases parsed

/-- Quotes hide no month and make none. -/
theorem suffix_month_regclass (name : Text) :
    suffixMonth (regclassText name) = suffixMonth name := by
  cases parsed : suffixMonth name with
  | some found => rw [suffix_month_plain parsed, parsed]
  | none =>
      unfold regclassText
      split
      · exact parsed
      · rw [suffixMonth, if_neg]
        simp [namePrefix, text]

theorem expired_regclass (today : Date) (name : Text) :
    expired today (regclassText name) = expired today name := by
  rw [expired, suffix_month_regclass, ← expired]

theorem plain_of_expired {today : Date} {name : Text} (old : expired today name = true) :
    regclassText name = name := by
  cases parsed : suffixMonth name with
  | none =>
      rw [expired, parsed] at old
      cases old
  | some found => exact suffix_month_plain parsed

theorem earlier_iff {one two : Int × Int} :
    earlier one two = true ↔ one.1 < two.1 ∨ one.1 = two.1 ∧ one.2 < two.2 := by
  simp only [earlier, Bool.or_eq_true, Bool.and_eq_true, decide_eq_true_eq]

/-- The name of a month is old when the month lies more than twelve months back. -/
theorem expired_name (today : Date) (n : Nat) :
    expired today (nameAt n) = decide (n + 12 < monthIndex today) := by
  have months := today.monthBounds
  rw [expired, nameAt, suffix_month_name, Bool.eq_iff_iff, decide_eq_true_eq]
  apply earlier_iff.trans
  simp only [subMonths, auditPartitionRetentionMonths, monthIndex]
  omega

theorem not_expired_ahead {today : Date} {n : Nat} (ahead : Ahead today n) :
    expired today (nameAt n) = false := by
  have below := ahead.1
  rw [expired_name, decide_eq_false_iff_not]
  omega

/-! One run. -/

theorem compatible_upcoming (today : Date) :
    PartitionedTable.Compatible (newPartitions today) where
  ordered := by
    intro new member
    obtain ⟨n, ahead, rfl⟩ := mem_upcoming.mp member
    exact start_lt_succ (Nat.le_trans (year_le_index today) ahead.1)
  named := by
    rw [upcoming_today, List.map_map]
    exact (List.nodup_range').map fun first second same => name_injective same
  apart := by
    rw [upcoming_today, List.pairwise_map]
    refine (List.pairwise_lt_range' 1).imp_of_mem fun first second less => .inl ?_
    have after := (List.mem_range'_1.mp first).1
    have positive := year_le_index today
    exact start_mono (Nat.le_succ_of_le (Nat.le_trans positive after)) less

structure Outcome (today : Date) (table : AuditTable) (run : PartitionRun) : Prop where
  creatable : ∀ n, Ahead today n → table.Creatable (monthPartition n)
  created : ∀ name, name ∈ run.created ↔ ∃ n, Ahead today n ∧ nameAt n = name
  dropped : ∀ name, name ∈ run.dropped ↔ name ∈ table.names ∧ expired today name = true
  partitions : ∀ p, p ∈ run.table.partitions ↔
    p ∈ table.partitions ∧ expired today p.name = false ∨
      ∃ n, Ahead today n ∧ nameAt n ∉ table.names ∧ (monthPartition n).partition = p

theorem mem_expired_names {today : Date} {table : AuditTable} {name : Text} :
    name ∈ expiredNames today table ↔ name ∈ table.names ∧ expired today name = true := by
  have same : expired today ∘ regclassText = expired today := funext (expired_regclass today)
  rw [expiredNames, List.filter_map, same, List.mem_map, ← List.mem_filter]
  constructor
  · rintro ⟨own, member, rfl⟩
    rwa [plain_of_expired (List.mem_filter.mp member).2]
  · exact fun member => ⟨name, member, plain_of_expired (List.mem_filter.mp member).2⟩

theorem outcome_of_created {today : Date} {table middle : AuditTable}
    (creatable : ∀ n, Ahead today n → table.Creatable (monthPartition n))
    (added : middle.partitions = table.partitions ++ table.missing (newPartitions today)) :
    Outcome today table
      ⟨(expiredNames today middle).foldl PartitionedTable.drop middle,
        (newPartitions today).map (·.name), expiredNames today middle⟩ := by
  have inside (p : RangePartition Text Int) : p ∈ middle.partitions ↔ p ∈ table.partitions ∨
      ∃ n, Ahead today n ∧ nameAt n ∉ table.names ∧ (monthPartition n).partition = p := by
    rw [added, List.mem_append, PartitionedTable.mem_missing]
    simp only [mem_upcoming, exists_exists_and_eq_and]
    rfl
  refine ⟨creatable, ?_, ?_, ?_⟩
  · intro name
    simp only [List.mem_map, mem_upcoming, exists_exists_and_eq_and]
    rfl
  · intro name
    refine mem_expired_names.trans (and_congr_left fun old => ?_)
    simp only [PartitionedTable.names, List.mem_map, inside]
    constructor
    · rintro ⟨p, before | ⟨n, ahead, _, rfl⟩, rfl⟩
      · exact ⟨p, before, rfl⟩
      · cases (not_expired_ahead ahead).symm.trans old
    · rintro ⟨p, before, rfl⟩
      exact ⟨p, .inl before, rfl⟩
  · intro p
    have kept : p ∈ middle.partitions ∧ p.name ∉ expiredNames today middle ↔
        p ∈ middle.partitions ∧ expired today p.name = false := by
      apply and_congr_right
      intro member
      have named : p.name ∈ middle.names := List.mem_map_of_mem member
      rw [mem_expired_names, and_iff_right named, Bool.not_eq_true]
    rw [PartitionedTable.mem_drop_all, kept, inside, or_and_right]
    refine or_congr_right (and_iff_left_of_imp ?_)
    rintro ⟨n, ahead, _, rfl⟩
    exact not_expired_ahead ahead

theorem manage_spec (today : Date) (table : AuditTable) :
    match manageAuditPartitions today table with
    | .ok run => Outcome today table run
    | .error _ => ¬ ∀ n, Ahead today n → table.Creatable (monthPartition n) := by
  have creatable : (∀ new ∈ newPartitions today, table.Creatable new) ↔
      ∀ n, Ahead today n → table.Creatable (monthPartition n) := by
    simp only [mem_upcoming, forall_exists_index, and_imp, forall_apply_eq_imp_iff₂]
  have spec := PartitionedTable.create_each_spec table (compatible_upcoming today)
  rw [creatable] at spec
  rw [manageAuditPartitions]
  cases made : table.createEach (newPartitions today) with
  | error error =>
      rw [made] at spec
      exact spec
  | ok middle =>
      rw [made] at spec
      exact outcome_of_created spec.1 spec.2

end Yomochi.Audit
