import Yomochi.Audit.Partitions
import Yomochi.Foundation.Runs

/-! What the runs of the partition job are for, and when they are: a run needs its months free or
already as it wants them, and every name that it takes for an old month to be one. -/

namespace Yomochi.Audit

open Foundation

/-- The four months have their partitions, which meet end to end, and of the others exactly those
of old months are gone. -/
structure Managed (today : Date) (table : AuditTable) (run : PartitionRun) : Prop where
  ensured : ∀ n, Ahead today n → (monthPartition n).partition ∈ run.table.partitions
  gone : ∀ p ∈ table.partitions, p ∉ run.table.partitions ↔
    ∃ n, p.name = nameAt n ∧ n + 12 < monthIndex today
  added : ∀ p ∈ run.table.partitions, p ∈ table.partitions ∨
    ∃ n, Ahead today n ∧ (monthPartition n).partition = p
  dropped : ∀ name, name ∈ run.dropped ↔
    ∃ p ∈ table.partitions, p.name = name ∧ p ∉ run.table.partitions
  spared : ∀ name ∈ run.created, name ∉ run.dropped
  unique : ∀ time, startAt (monthIndex today) ≤ time → time < startAt (monthIndex today + 4) →
    ∃! p, run.table.Keeps time p

structure Unobstructed (today : Date) (table : AuditTable) : Prop where
  months : ∀ n, Ahead today n → (monthPartition n).partition ∈ table.partitions ∨
    nameAt n ∉ table.names ∧
      ∀ p ∈ table.partitions, p.bounds.Admits (startAt n) (startAt (n + 1))
  names : ∀ p ∈ table.partitions, expired today p.name = true → ∃ n, p.name = nameAt n

/-- A time of the months lies in one of them. -/
theorem month_of_time {first months : Nat} {time : Int} (after : startAt first ≤ time)
    (before : time < startAt (first + months)) :
    ∃ n, (first ≤ n ∧ n < first + months) ∧ startAt n ≤ time ∧ time < startAt (n + 1) := by
  induction months with
  | zero => exact absurd before (Int.not_lt.mpr after)
  | succ months ih =>
      rcases lt_or_ge time (startAt (first + months)) with less | reached
      · obtain ⟨n, ⟨above, below⟩, inside⟩ := ih less
        exact ⟨n, ⟨above, Nat.lt_succ_of_lt below⟩, inside⟩
      · exact ⟨first + months, ⟨Nat.le_add_right _ _, Nat.lt_succ_self _⟩, reached, before⟩

theorem keeps_ahead {today : Date} {table : AuditTable}
    (ensured : ∀ n, Ahead today n → (monthPartition n).partition ∈ table.partitions) {time : Int}
    (after : startAt (monthIndex today) ≤ time) (before : time < startAt (monthIndex today + 4)) :
    ∃! p, table.Keeps time p := by
  obtain ⟨n, ahead, above, below⟩ := month_of_time after before
  exact PartitionedTable.keeps_unique (ensured n ahead) rfl above below

variable {today : Date} {table : AuditTable} {run : PartitionRun}

theorem managed_date (managed : Managed today table run) {date : Date} (reached : today ≤ date)
    (within : monthIndex date < monthIndex today + 4) {time : Int} (day : OnDate date time) :
    ∃! p, run.table.Keeps time p := by
  obtain ⟨after, before⟩ := month_of_date day
  have positive := year_le_index today
  have later := month_index_mono reached
  exact managed.unique time (Int.le_trans (start_mono positive later) after)
    (Int.lt_of_lt_of_le before (start_mono (Nat.le_succ_of_le (year_le_index date)) within))

theorem kept_of_not_expired (outcome : Outcome today table run) {p : RangePartition Text Int}
    (member : p ∈ table.partitions) :
    p ∉ run.table.partitions ↔ expired today p.name = true := by
  rw [outcome.partitions, not_or, ← Bool.not_eq_false]
  constructor
  · exact fun absent old => absent.1 ⟨member, old⟩
  · intro old
    refine ⟨fun kept => old kept.2, ?_⟩
    rintro ⟨n, _, fresh, rfl⟩
    exact fresh (List.mem_map_of_mem member)

theorem managed_of_outcome (outcome : Outcome today table run)
    (unobstructed : Unobstructed today table) : Managed today table run := by
  have ensured : ∀ n, Ahead today n → (monthPartition n).partition ∈ run.table.partitions := by
    intro n ahead
    apply (outcome.partitions _).mpr
    rcases unobstructed.months n ahead with there | ⟨fresh, _⟩
    · exact .inl ⟨there, not_expired_ahead ahead⟩
    · exact .inr ⟨n, ahead, fresh, rfl⟩
  refine ⟨ensured, ?_, ?_, ?_, ?_, fun time => keeps_ahead ensured⟩
  · intro p member
    rw [kept_of_not_expired outcome member]
    constructor
    · intro old
      obtain ⟨n, named⟩ := unobstructed.names p member old
      rw [named, expired_name, decide_eq_true_eq] at old
      exact ⟨n, named, old⟩
    · rintro ⟨n, named, old⟩
      rw [named, expired_name]
      exact decide_eq_true old
  · intro p member
    rcases (outcome.partitions p).mp member with ⟨before, _⟩ | ⟨n, ahead, _, same⟩
    · exact .inl before
    · exact .inr ⟨n, ahead, same⟩
  · intro name
    rw [outcome.dropped]
    constructor
    · rintro ⟨known, old⟩
      obtain ⟨p, member, rfl⟩ := List.mem_map.mp known
      exact ⟨p, member, rfl, (kept_of_not_expired outcome member).mpr old⟩
    · rintro ⟨p, member, rfl, absent⟩
      exact ⟨List.mem_map_of_mem member, (kept_of_not_expired outcome member).mp absent⟩
  · intro name created old
    obtain ⟨n, ahead, rfl⟩ := (outcome.created name).mp created
    cases (not_expired_ahead ahead).symm.trans ((outcome.dropped _).mp old).2

theorem unobstructed_of_managed (outcome : Outcome today table run)
    (managed : Managed today table run) : Unobstructed today table := by
  constructor
  · intro n ahead
    rcases (outcome.partitions _).mp (managed.ensured n ahead) with ⟨there, _⟩ | ⟨m, _, fresh, same⟩
    · exact .inl there
    · have named : nameAt m = nameAt n := congrArg RangePartition.name same
      rw [named] at fresh
      exact .inr ⟨fresh, (outcome.creatable n ahead).resolve_left fresh⟩
  · intro p member old
    obtain ⟨n, named, _⟩ :=
      (managed.gone p member).mp ((kept_of_not_expired outcome member).mpr old)
    exact ⟨n, named⟩

theorem creatable_of_unobstructed (unobstructed : Unobstructed today table) :
    ∀ n, Ahead today n → table.Creatable (monthPartition n) := by
  intro n ahead
  rcases unobstructed.months n ahead with there | ⟨_, admits⟩
  · exact .inl (List.mem_map.mpr ⟨_, there, rfl⟩)
  · exact .inr admits

theorem managed_iff (today : Date) (table : AuditTable) :
    (∃ run, manageAuditPartitions today table = .ok run ∧ Managed today table run) ↔
      Unobstructed today table := by
  have spec := manage_spec today table
  cases made : manageAuditPartitions today table with
  | error error =>
      rw [made] at spec
      constructor
      · rintro ⟨run, ⟨⟩, _⟩
      · exact fun unobstructed => absurd (creatable_of_unobstructed unobstructed) spec
  | ok run =>
      rw [made] at spec
      constructor
      · rintro ⟨_, ⟨⟩, managed⟩
        exact unobstructed_of_managed spec managed
      · exact fun unobstructed => ⟨run, rfl, managed_of_outcome spec unobstructed⟩

/-! Runs, with what is recorded between them. -/

inductive AuditEvent
  | record (time : Int)
  | maintain (today : Date)

def auditStep (table : AuditTable) : AuditEvent → Option AuditTable
  | .record time => some (table.insert time)
  | .maintain today =>
      match manageAuditPartitions today table with
      | .ok run => some run.table
      | .error _ => some table

def RunManaged (table : AuditTable) : AuditEvent → Prop
  | .record _ => True
  | .maintain today => ∃ run, manageAuditPartitions today table = .ok run ∧ Managed today table run

def RunUnobstructed (table : AuditTable) : AuditEvent → Prop
  | .record _ => True
  | .maintain today => Unobstructed today table

theorem run_managed_iff (table : AuditTable) (event : AuditEvent) :
    RunManaged table event ↔ RunUnobstructed table event := by
  cases event with
  | record time => exact Iff.rfl
  | maintain today => exact managed_iff today table

theorem audit_partitions_managed_iff (table : AuditTable) (events : List AuditEvent) :
    Along auditStep RunManaged table events ↔ Along auditStep RunUnobstructed table events :=
  ⟨along_mono fun table event => (run_managed_iff table event).mp,
    along_mono fun table event => (run_managed_iff table event).mpr⟩

/-- Two years that were archived as one partition, beside the default partition. -/
def archivedPartitions : List (RangePartition Text Int) :=
  [⟨text "audit_events_default", .default []⟩,
    ⟨text "audit_events_2019_2020", .range (firstOfMonth 2019 1) (firstOfMonth 2021 1)⟩]

theorem archived_named : (archivedPartitions.map RangePartition.name).Nodup := by decide

theorem archived_apart :
    archivedPartitions.Pairwise fun one two => one.bounds.Apart two.bounds := by
  simp [archivedPartitions, Bounds.Apart]

def archivedTable : AuditTable := ⟨archivedPartitions, archived_named, archived_apart⟩

/-- Behind the prefix are two numbers, but the second is no month. -/
theorem archived_years_dropped :
    let june : Date := ⟨2026, 6, 15, by decide, by decide, by decide⟩
    ¬ Along auditStep RunManaged archivedTable [.maintain june] := by
  intro june along
  have unobstructed := (managed_iff june archivedTable).mp along.1
  have member : ⟨text "audit_events_2019_2020",
      .range (firstOfMonth 2019 1) (firstOfMonth 2021 1)⟩ ∈ archivedTable.partitions :=
    List.mem_cons_of_mem _ List.mem_cons_self
  have parsed : suffixMonth (text "audit_events_2019_2020") = some (2019, 2020) := by decide
  have old : expired june (text "audit_events_2019_2020") = true := by decide
  obtain ⟨n, named⟩ := unobstructed.names _ member old
  change text "audit_events_2019_2020" = nameAt n at named
  rw [named, nameAt, suffix_month_name, Option.some.injEq, Prod.mk.injEq] at parsed
  omega

/-! Runs in time: the table begins with the default partition alone, and what is recorded lies in
the months of the last run. -/

def Covers (index : Nat) (table : AuditTable) : Prop :=
  ∀ n, index ≤ n ∧ n < index + 4 → (monthPartition n).partition ∈ table.partitions

theorem covers_records {index : Nat} (covers : Covers index table) (times : List Int) :
    Covers index (times.foldl PartitionedTable.insert table) := by
  induction times generalizing table with
  | nil => exact covers
  | cons time times ih =>
      apply ih
      intro n within
      exact PartitionedTable.range_mem_insert (covers n within) rfl time

/-- Nothing but months and the default partition, which keeps no row from the month `index` on. -/
def Tidy (index : Nat) (table : AuditTable) : Prop :=
  ∀ p ∈ table.partitions, (∃ n, 12 ≤ n ∧ p = (monthPartition n).partition) ∨
    ∃ rows, p = ⟨text "audit_events_default", .default rows⟩ ∧ ∀ row ∈ rows, row < startAt index

def Timely : Nat → List AuditEvent → Prop
  | _, [] => True
  | index, .record time :: events =>
      (startAt index ≤ time ∧ time < startAt (index + 4)) ∧ Timely index events
  | index, .maintain today :: events =>
      index ≤ monthIndex today ∧ Timely (monthIndex today) events

/-- What is recorded has its one partition, and every run does what it is for. -/
def Provided (table : AuditTable) : AuditEvent → Prop
  | .record time => ∃! p, table.Keeps time p
  | .maintain today => RunManaged table (.maintain today)

theorem default_not_expired (today : Date) :
    expired today (text "audit_events_default") = false := by
  have parsed : suffixMonth (text "audit_events_default") = none := by decide
  rw [expired, parsed]

theorem default_no_month (n : Nat) : text "audit_events_default" ≠ nameAt n := by
  intro same
  have parsed : suffixMonth (text "audit_events_default") = none := by decide
  rw [same, nameAt, suffix_month_name] at parsed
  cases parsed

variable {index : Nat}

theorem unobstructed_of_tidy (positive : 12 ≤ index) (tidy : Tidy index table)
    (later : index ≤ monthIndex today) : Unobstructed today table := by
  constructor
  · intro n ahead
    have reached : index ≤ n := Nat.le_trans later ahead.1
    by_cases known : nameAt n ∈ table.names
    · obtain ⟨p, member, named⟩ := List.mem_map.mp known
      rcases tidy p member with ⟨m, _, rfl⟩ | ⟨rows, rfl, _⟩
      · rw [← name_injective named]
        exact .inl member
      · cases default_no_month n named
    · refine .inr ⟨known, fun p member => ?_⟩
      rcases tidy p member with ⟨m, real, rfl⟩ | ⟨rows, rfl, early⟩
      · have other : m ≠ n := fun same => known (List.mem_map.mpr ⟨_, member, by rw [same]; rfl⟩)
        rcases Nat.lt_or_gt_of_ne other with before | after
        · exact .inl (start_mono (Nat.le_succ_of_le real) before)
        · exact .inr (start_mono (by omega) after)
      · intro row inside within
        exact absurd (early row inside)
          (Int.not_lt.mpr (Int.le_trans (start_mono positive reached) within.1))
  · intro p member old
    rcases tidy p member with ⟨n, _, rfl⟩ | ⟨rows, rfl, _⟩
    · exact ⟨n, rfl⟩
    · cases (default_not_expired today).symm.trans old

theorem tidy_of_managed (positive : 12 ≤ index) (tidy : Tidy index table)
    (later : index ≤ monthIndex today) (managed : Managed today table run) :
    Tidy (monthIndex today) run.table := by
  intro p member
  rcases managed.added p member with before | ⟨n, ahead, same⟩
  · rcases tidy p before with month | ⟨rows, same, early⟩
    · exact .inl month
    · exact .inr ⟨rows, same, fun row inside =>
        Int.lt_of_lt_of_le (early row inside) (start_mono positive later)⟩
  · exact .inl ⟨n, Nat.le_trans (year_le_index today) ahead.1, same.symm⟩

/-- Nothing that is recorded in time goes to the default partition. -/
theorem insert_covered (covers : Covers index table) {time : Int} (after : startAt index ≤ time)
    (before : time < startAt (index + 4)) : table.insert time = table := by
  obtain ⟨n, within, inside⟩ := month_of_time after before
  exact if_pos ⟨_, covers n within, inside⟩

theorem maintain_tidy (positive : 12 ≤ index) (tidy : Tidy index table)
    (later : index ≤ monthIndex today) : Provided table (.maintain today) ∧
      ∀ next, auditStep table (.maintain today) = some next →
        Tidy (monthIndex today) next ∧ Covers (monthIndex today) next := by
  obtain ⟨run, made, managed⟩ :=
    (managed_iff today table).mpr (unobstructed_of_tidy positive tidy later)
  refine ⟨⟨run, made, managed⟩, ?_⟩
  intro next taken
  simp only [auditStep, made] at taken
  cases taken
  exact ⟨tidy_of_managed positive tidy later managed, managed.ensured⟩

theorem timely_provided (positive : 12 ≤ index) (tidy : Tidy index table)
    (covers : Covers index table) {events : List AuditEvent} (timely : Timely index events) :
    Along auditStep Provided table events := by
  induction events generalizing index table with
  | nil => trivial
  | cons event events ih =>
      cases event with
      | record time =>
          obtain ⟨⟨after, before⟩, rest⟩ := timely
          obtain ⟨n, within, above, below⟩ := month_of_time after before
          refine ⟨PartitionedTable.keeps_unique (covers n within) rfl above below, ?_⟩
          intro next taken
          rw [auditStep, insert_covered covers after before] at taken
          cases taken
          exact ih positive tidy covers rest
      | maintain today =>
          obtain ⟨provided, following⟩ := maintain_tidy positive tidy timely.1
          refine ⟨provided, ?_⟩
          intro next taken
          obtain ⟨tidyNext, coversNext⟩ := following next taken
          exact ih (year_le_index today) tidyNext coversNext timely.2

def newTable : AuditTable :=
  ⟨[⟨text "audit_events_default", .default []⟩], List.nodup_singleton _,
    List.pairwise_singleton _ _⟩

theorem new_table_provided (today : Date) {events : List AuditEvent}
    (timely : Timely (monthIndex today) events) :
    Along auditStep Provided newTable (.maintain today :: events) := by
  have positive := year_le_index today
  have tidy : Tidy (monthIndex today) newTable := by
    intro p member
    rw [List.mem_singleton.mp member]
    refine .inr ⟨[], rfl, ?_⟩
    intro row inside
    cases inside
  obtain ⟨provided, following⟩ := maintain_tidy positive tidy (Nat.le_refl _)
  refine ⟨provided, ?_⟩
  intro next taken
  obtain ⟨tidyNext, coversNext⟩ := following next taken
  exact timely_provided positive tidyNext coversNext timely

end Yomochi.Audit
