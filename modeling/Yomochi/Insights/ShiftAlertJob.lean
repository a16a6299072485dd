import Yomochi.Insights.ShiftAlerts

/-! The scheduler's job for the shift alerts: two months of each user, each in a transaction of its
own. What a month that fails takes from those behind it. -/

namespace Yomochi.Insights

open Foundation

/-- Where a transaction of the job is made to fail: by the database, or by what else the use case
raises before it writes. -/
inductive Fault
  | begin
  | read
  | detect
  | insert (index : Nat)
  | commit
  deriving DecidableEq, Repr

inductive JobError
  | StorageError
  | ValueError
  | SQLAlchemyError
  | Exception
  deriving DecidableEq, Repr

abbrev UserPeriod := UserId × YearMonth

/-- What a transaction finds: the tables, less the alerts that were removed since the one before,
and where it is made to fail. -/
structure Circumstance where
  rows : List StoredTransaction
  kept : UserAlert → Bool
  fault : Option Fault

def Circumstance.call (now : Circumstance) (pair : UserPeriod) : Call :=
  ⟨pair.1, pair.2, now.rows, now.kept⟩

def faultAhead : Option Fault → Option Fault
  | some (.insert (index + 1)) => some (.insert index)
  | fault => fault

/-- The loop of `write_shift_alerts`; one of the statements may fail. -/
def insertAlerts : Option Fault → List UserAlert → List UserAlert →
    Except JobError (List UserAlert)
  | _, alerts, [] => .ok alerts
  | fault, alerts, alert :: later =>
      if fault = some (.insert 0) ∨ subtypeLimit < alert.subtype.length then .error .StorageError
      else insertAlerts (faultAhead fault) (insertAlert alerts alert) later

variable (t : ShiftThresholds)

/-- The table that the transaction commits. An error rolls it back. -/
def detectShiftAlertsForPeriod (now : Circumstance) (pair : UserPeriod)
    (alerts : List UserAlert) : Except JobError (List UserAlert) :=
  if now.fault = some .begin then .error .SQLAlchemyError
  else if now.fault = some .read then .error .StorageError
  else
    match detectedShifts t (now.call pair) with
    | none => .error .ValueError
    | some shifts =>
        if now.fault = some .detect then .error .Exception
        else
          match insertAlerts now.fault (alerts.filter now.kept)
              (alertsOf pair.1 pair.2 shifts) with
          | .error error => .error error
          | .ok after =>
              if now.fault = some .commit then .error .SQLAlchemyError else .ok after

/-- What a run of the job leaves: the table, each transaction that was committed with the table
behind it, and the error that ended the job. -/
structure JobRun where
  alerts : List UserAlert
  commits : List (UserPeriod × List UserAlert)
  raised : Option JobError

/-- The loop of the job. Nothing is caught in it. -/
def processPairs (world : UserPeriod → Circumstance) : List UserPeriod → List UserAlert → JobRun
  | [], alerts => ⟨alerts, [], none⟩
  | pair :: pairs, alerts =>
      match detectShiftAlertsForPeriod t (world pair) pair alerts with
      | .error error => ⟨alerts.filter (world pair).kept, [], some error⟩
      | .ok after =>
          let rest := processPairs world pairs after
          ⟨rest.alerts, (pair, after) :: rest.commits, rest.raised⟩

def prevMonth (today : Date) : YearMonth :=
  if today.month = 1 then ((today.year : Int) - 1, 12)
  else ((today.year : Int), (today.month : Int) - 1)

def jobPairs (today : Date) (userIds : List UserId) : List UserPeriod :=
  userIds.flatMap fun userId =>
    [(userId, prevMonth today), (userId, ((today.year : Int), (today.month : Int)))]

/-- The pairs that the job covers: two for each user that the reader finds. In the first month of
all the job ends before it reads. -/
def coveredPairs (recentlyActiveUserIds : Date → List UserId) (today : Date) : List UserPeriod :=
  match Date.ofNumbers (prevMonth today).1 (prevMonth today).2 1 with
  | none => []
  | some since => jobPairs today (recentlyActiveUserIds since)

def detectShiftAlertsJob (world : UserPeriod → Circumstance)
    (recentlyActiveUserIds : Date → List UserId) (today : Date) (alerts : List UserAlert) :
    JobRun :=
  match Date.ofNumbers (prevMonth today).1 (prevMonth today).2 1 with
  | none => ⟨alerts, [], some .ValueError⟩
  | some since => processPairs t world (jobPairs today (recentlyActiveUserIds since)) alerts

def madeAlerts (now : Circumstance) (pair : UserPeriod) : List UserAlert :=
  alertsOf pair.1 pair.2 ((detectedShifts t (now.call pair)).getD [])

def faulty (made : List UserAlert) : Option Fault → Bool
  | none => false
  | some (.insert index) => decide (index < made.length)
  | some _ => true

def fails (now : Circumstance) (pair : UserPeriod) : Bool :=
  faulty (madeAlerts t now pair) now.fault || (detectedShifts t (now.call pair)).isNone ||
    (madeAlerts t now pair).any fun alert => decide (subtypeLimit < alert.subtype.length)

/-- The pairs that do not fail by themselves are processed, and their alerts are in the table that
is committed for them. -/
structure Isolates (world : UserPeriod → Circumstance) (pairs : List UserPeriod) (run : JobRun) :
    Prop where
  processed : run.commits.map Prod.fst = pairs.filter fun pair => !fails t (world pair) pair
  committed : ∀ commit ∈ run.commits, ∀ alert ∈ madeAlerts t (world commit.1) commit.1,
    alert.key ∈ commit.2.map UserAlert.key

/-- Behind a pair that fails there are only such pairs. -/
def FailsLast (world : UserPeriod → Circumstance) (pairs : List UserPeriod) : Prop :=
  pairs.Pairwise fun earlier later =>
    fails t (world earlier) earlier = true → fails t (world later) later = true

/-- What is kept up to the first item that is not is all that is kept, when nothing behind it is. -/
theorem take_while_eq_filter {α : Type} (p : α → Bool) (items : List α) :
    items.takeWhile p = items.filter p ↔
      items.Pairwise fun earlier later => p later = true → p earlier = true := by
  induction items with
  | nil => simp
  | cons item items ih =>
      rw [List.pairwise_cons]
      cases held : p item with
      | true =>
          rw [List.takeWhile_cons_of_pos held, List.filter_cons_of_pos held, List.cons_inj_right,
            ih]
          simp
      | false =>
          have out : p item ≠ true := by simp [held]
          rw [List.takeWhile_cons_of_neg out, List.filter_cons_of_neg out]
          constructor
          · intro none
            have all := List.filter_eq_nil_iff.mp none.symm
            exact ⟨fun later inside kept => absurd kept (all later inside),
              List.pairwise_of_forall_mem_list fun _ _ later inside kept =>
                absurd kept (all later inside)⟩
          · rintro ⟨first, _⟩
            exact (List.filter_eq_nil_iff.mpr fun later inside kept =>
              absurd (first later inside kept) Bool.false_ne_true).symm

/-! The statements of one transaction. -/

section Statements

variable {fault : Option Fault} {alerts made : List UserAlert}

theorem fault_ahead_insert {index : Nat} (later : faultAhead fault = some (.insert index))
    (first : fault ≠ some (.insert 0)) : fault = some (.insert (index + 1)) := by
  unfold faultAhead at later
  split at later
  · cases later
    rfl
  · rename_i other
    cases index with
    | zero => exact absurd later first
    | succ index => exact absurd later (other index)

theorem insert_alerts_sound
    (unreached : ∀ index, fault = some (.insert index) → made.length ≤ index)
    (short : ∀ alert ∈ made, ¬ subtypeLimit < alert.subtype.length) :
    insertAlerts fault alerts made = .ok (made.foldl insertAlert alerts) := by
  induction made generalizing fault alerts with
  | nil => rfl
  | cons alert later ih =>
      obtain ⟨room, others⟩ := List.forall_mem_cons.mp short
      have first : fault ≠ some (.insert 0) := fun given =>
        absurd (unreached 0 given) (Nat.not_succ_le_zero _)
      rw [insertAlerts, if_neg (not_or.mpr ⟨first, room⟩), List.foldl_cons]
      apply ih _ others
      intro index given
      exact Nat.le_of_succ_le_succ (unreached _ (fault_ahead_insert given first))

theorem insert_alerts_failed
    (failed : (∃ index, fault = some (.insert index) ∧ index < made.length) ∨
      ∃ alert ∈ made, subtypeLimit < alert.subtype.length) :
    insertAlerts fault alerts made = .error .StorageError := by
  induction made generalizing fault alerts with
  | nil => simp at failed
  | cons alert later ih =>
      rw [insertAlerts]
      by_cases here : fault = some (.insert 0) ∨ subtypeLimit < alert.subtype.length
      · rw [if_pos here]
      · rw [if_neg here]
        obtain ⟨first, room⟩ := not_or.mp here
        apply ih
        rcases failed with ⟨index, rfl, inside⟩ | ⟨other, inside, longer⟩
        · cases index with
          | zero => exact absurd rfl first
          | succ index => exact .inl ⟨index, rfl, Nat.lt_of_succ_lt_succ inside⟩
        · rcases List.mem_cons.mp inside with rfl | behind
          · exact absurd longer room
          · exact .inr ⟨other, behind, longer⟩

/-- Without a fault the loop writes what `writeShiftAlerts` does. -/
theorem insert_alerts_write (userId : UserId) (period : YearMonth)
    (shifts : List DetectedShift) :
    insertAlerts none alerts (alertsOf userId period shifts) =
      (writeShiftAlerts alerts userId period shifts).elim (.error .StorageError) .ok := by
  by_cases long : ∃ alert ∈ alertsOf userId period shifts, subtypeLimit < alert.subtype.length
  · rw [write_long long, insert_alerts_failed (.inr long)]
    rfl
  · rw [write_short long]
    exact insert_alerts_sound nofun fun alert inside longer => long ⟨alert, inside, longer⟩

end Statements

section Pairs

variable {t} {now : Circumstance} {pair : UserPeriod}

theorem period_commits (sound : fails t now pair = false) (alerts : List UserAlert) :
    detectShiftAlertsForPeriod t now pair alerts =
      .ok ((madeAlerts t now pair).foldl insertAlert (alerts.filter now.kept)) := by
  simp only [fails, Bool.or_eq_false_iff, List.any_eq_false, decide_eq_true_eq] at sound
  obtain ⟨⟨unreached, detected⟩, short⟩ := sound
  have other (fault : Fault) (always : ∀ made, faulty made (some fault) = true) :
      now.fault ≠ some fault := by
    intro given
    rw [given, always] at unreached
    cases unreached
  have late : ∀ index, now.fault = some (.insert index) →
      (madeAlerts t now pair).length ≤ index := by
    intro index given
    rw [given] at unreached
    exact Nat.le_of_not_lt (of_decide_eq_false unreached)
  have written := @insert_alerts_sound _ (alerts.filter now.kept) _ late short
  rw [detectShiftAlertsForPeriod, if_neg (other .begin fun _ => rfl),
    if_neg (other .read fun _ => rfl)]
  cases found : detectedShifts t (now.call pair) with
  | none =>
      rw [found] at detected
      cases detected
  | some shifts =>
      have made : alertsOf pair.1 pair.2 shifts = madeAlerts t now pair := by
        rw [madeAlerts, found]
        rfl
      simp only [made, written, if_neg (other .detect fun _ => rfl),
        if_neg (other .commit fun _ => rfl)]

theorem period_sound {alerts after : List UserAlert}
    (committed : detectShiftAlertsForPeriod t now pair alerts = .ok after) :
    fails t now pair = false := by
  unfold detectShiftAlertsForPeriod at committed
  split at committed
  · cases committed
  rename_i begun
  split at committed
  · cases committed
  rename_i readable
  split at committed
  · cases committed
  rename_i shifts detected
  split at committed
  · cases committed
  rename_i undisturbed
  have made : alertsOf pair.1 pair.2 shifts = madeAlerts t now pair := by
    rw [madeAlerts, detected]
    rfl
  split at committed
  · cases committed
  rename_i inserted
  split at committed
  · cases committed
  rename_i closed
  rw [made] at inserted
  by_contra failed
  have reason := (Bool.not_eq_false _).mp failed
  simp only [fails, detected, Bool.or_eq_true, Option.isNone_some, Bool.false_eq_true, or_false,
    List.any_eq_true, decide_eq_true_eq] at reason
  have stopped : (∃ index, now.fault = some (.insert index) ∧
      index < (madeAlerts t now pair).length) ∨
        ∃ alert ∈ madeAlerts t now pair, subtypeLimit < alert.subtype.length := by
    rcases reason with reached | long
    · cases fault : now.fault with
      | none =>
          rw [fault] at reached
          cases reached
      | some fault' =>
          rw [fault] at begun readable undisturbed closed reached
          cases fault' with
          | insert index => exact .inl ⟨index, rfl, of_decide_eq_true reached⟩
          | begin => exact absurd rfl begun
          | read => exact absurd rfl readable
          | detect => exact absurd rfl undisturbed
          | commit => exact absurd rfl closed
    · exact .inr long
  rw [insert_alerts_failed stopped] at inserted
  cases inserted

theorem period_fails (failed : fails t now pair = true) (alerts : List UserAlert) :
    ∃ error, detectShiftAlertsForPeriod t now pair alerts = .error error := by
  cases result : detectShiftAlertsForPeriod t now pair alerts with
  | error error => exact ⟨error, rfl⟩
  | ok after =>
      rw [period_sound result] at failed
      cases failed

theorem period_run {alerts after : List UserAlert}
    (committed : detectShiftAlertsForPeriod t now pair alerts = .ok after) :
    after = (now.call pair).run t alerts := by
  have sound := period_sound committed
  rw [period_commits sound] at committed
  cases committed
  simp only [fails, Bool.or_eq_false_iff, List.any_eq_false, decide_eq_true_eq] at sound
  have short : ¬ ∃ alert ∈ madeAlerts t now pair, subtypeLimit < alert.subtype.length := by
    rintro ⟨alert, inside, longer⟩
    exact sound.2 alert inside longer
  exact ((run_eq (now.call pair) alerts).trans
    (congrArg (Option.getD · _) (write_short short))).symm

end Pairs

/-! The loop. -/

section Loop

variable {t} {world : UserPeriod → Circumstance}

/-- The first pair that fails ends the loop. -/
theorem pairs_processed (pairs : List UserPeriod) (alerts : List UserAlert) :
    (processPairs t world pairs alerts).commits.map Prod.fst =
      pairs.takeWhile fun pair => !fails t (world pair) pair := by
  induction pairs generalizing alerts with
  | nil => rfl
  | cons pair pairs ih =>
      rw [processPairs]
      cases failed : fails t (world pair) pair with
      | true =>
          obtain ⟨error, raised⟩ := period_fails failed alerts
          rw [raised, List.takeWhile_cons_of_neg (by simp [failed])]
          rfl
      | false =>
          rw [period_commits failed, List.takeWhile_cons_of_pos (by simp [failed])]
          exact congrArg (pair :: ·) (ih _)

theorem pairs_committed (pairs : List UserPeriod) (alerts : List UserAlert) :
    ∀ commit ∈ (processPairs t world pairs alerts).commits,
      ∀ alert ∈ madeAlerts t (world commit.1) commit.1,
        alert.key ∈ commit.2.map UserAlert.key := by
  induction pairs generalizing alerts with
  | nil => exact nofun
  | cons pair pairs ih =>
      rw [processPairs]
      cases failed : fails t (world pair) pair with
      | true =>
          obtain ⟨error, raised⟩ := period_fails failed alerts
          rw [raised]
          exact nofun
      | false =>
          rw [period_commits failed]
          exact List.forall_mem_cons.mpr ⟨fun alert inside => insert_all_key inside, ih _⟩

end Loop

/-- One pair's failure leaves the others alone, in every run of the job, exactly when no other pair
comes behind it. -/
theorem shift_alerts_isolated_iff (t : ShiftThresholds) (world : UserPeriod → Circumstance)
    (recentlyActiveUserIds : Date → List UserId) (today : Date) (alerts : List UserAlert) :
    Isolates t world (coveredPairs recentlyActiveUserIds today)
        (detectShiftAlertsJob t world recentlyActiveUserIds today alerts) ↔
      FailsLast t world (coveredPairs recentlyActiveUserIds today) := by
  rw [coveredPairs, detectShiftAlertsJob]
  cases Date.ofNumbers (prevMonth today).1 (prevMonth today).2 1 with
  | none => exact iff_of_true ⟨rfl, nofun⟩ List.Pairwise.nil
  | some since =>
      have order (earlier later : UserPeriod) :
          (fails t (world earlier) earlier = true → fails t (world later) later = true) ↔
            ((!fails t (world later) later) = true →
              (!fails t (world earlier) earlier) = true) := by
        cases fails t (world earlier) earlier <;> cases fails t (world later) later <;> simp
      have last := take_while_eq_filter (fun pair => !fails t (world pair) pair)
        (jobPairs today (recentlyActiveUserIds since))
      simp only [FailsLast, order, ← last]
      constructor
      · intro isolated
        exact (pairs_processed _ alerts).symm.trans isolated.processed
      · intro all
        exact ⟨(pairs_processed _ alerts).trans all, pairs_committed _ alerts⟩

/-- A category of a hundred characters triples, and the alert for it has a subtype that is too long
for its column: the alert of the user behind is not written. -/
theorem not_shift_alerts_isolated : ¬ ∀ (world : UserPeriod → Circumstance)
    (recentlyActiveUserIds : Date → List UserId) (today : Date) (alerts : List UserAlert),
    Isolates {} world (coveredPairs recentlyActiveUserIds today)
      (detectShiftAlertsJob {} world recentlyActiveUserIds today alerts) := by
  intro isolates
  let february : Date := ⟨2021, 2, 1, by decide, by decide, by decide⟩
  let march : Date := ⟨2021, 3, 1, by decide, by decide, by decide⟩
  let april : Date := ⟨2021, 4, 1, by decide, by decide, by decide⟩
  let label : Text := List.replicate 100 'a'.toNat
  let rows (user : UserId) (label : Option Text) : List StoredTransaction :=
    [⟨1, user, february, 100, text "USD", .EXPENSE, label⟩,
      ⟨2, user, march, 100, text "USD", .EXPENSE, label⟩,
      ⟨3, user, april, 900, text "USD", .EXPENSE, label⟩]
  let world : UserPeriod → Circumstance := fun _ =>
    ⟨rows ⟨1⟩ (some label) ++ rows ⟨2⟩ none, fun _ => true, none⟩
  have processed := (isolates world (fun _ => [⟨1⟩, ⟨2⟩]) april []).processed
  have others : (⟨2⟩, (2021, 4)) ∈ (coveredPairs (fun _ => [⟨1⟩, ⟨2⟩]) april).filter
      fun pair => !fails {} (world pair) pair := by decide +kernel
  have stopped : (⟨2⟩, (2021, 4)) ∉ (detectShiftAlertsJob {} world (fun _ => [⟨1⟩, ⟨2⟩]) april
      []).commits.map Prod.fst := by decide +kernel
  exact stopped (processed ▸ others)

end Yomochi.Insights
