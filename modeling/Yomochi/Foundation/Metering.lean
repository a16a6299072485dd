import Yomochi.Foundation.Runs

/-! A meter that is read before a job starts and added to when the job ends, while other jobs are
under way: how far past its limit it can get. -/

namespace Yomochi.Foundation

structure Meter where
  total : Nat
  inFlight : Nat

inductive MeterUse
  | accept
  | settle (amount : Nat)

/-- The limit, the number of jobs that may be under way, and the most that one uses. -/
structure Metering where
  limit : Nat
  jobs : Nat
  most : Nat

namespace Metering

variable (metering : Metering)

/-- A job starts while the limit is not reached, or while nothing has been used. -/
def step (meter : Meter) : MeterUse → Option Meter
  | .accept =>
      if meter.total ≤ metering.limit - 1 ∧ meter.inFlight < metering.jobs then
        some { meter with inFlight := meter.inFlight + 1 }
      else none
  | .settle amount =>
      if 0 < meter.inFlight ∧ amount ≤ metering.most then
        some ⟨meter.total + amount, meter.inFlight - 1⟩
      else none

/-- What the jobs under way can still use is counted as used. -/
def Covered (meter : Meter) : Prop :=
  meter.total + meter.inFlight * metering.most ≤
    metering.limit - 1 + metering.jobs * metering.most

variable {metering}

theorem step_covered {meter next : Meter} {use : MeterUse}
    (taken : metering.step meter use = some next) (start : metering.Covered meter) :
    metering.Covered next := by
  cases use with
  | accept =>
      simp only [step] at taken
      split at taken
      · rename_i admitted
        cases taken
        have few := Nat.mul_le_mul_right metering.most (Nat.succ_le_of_lt admitted.2)
        simp only [Covered]
        exact Nat.add_le_add admitted.1 few
      · cases taken
  | settle amount =>
      simp only [step] at taken
      split at taken
      · rename_i settled
        cases taken
        obtain ⟨some, small⟩ := settled
        have left : (meter.inFlight - 1) * metering.most + metering.most =
            meter.inFlight * metering.most := by
          rw [← Nat.succ_mul, Nat.succ_eq_add_one, Nat.sub_add_cancel some]
        simp only [Covered] at start ⊢
        omega
      · cases taken

/-- The limit is passed by no more than the jobs under way can use together. -/
theorem run_bounded {uses : List MeterUse} {meter : Meter}
    (reached : run metering.step ⟨0, 0⟩ uses = some meter) :
    meter.total ≤ metering.limit - 1 + metering.jobs * metering.most := by
  have start : metering.Covered ⟨0, 0⟩ := by
    simp only [Covered]
    omega
  have covered := run_preserves (fun _ _ _ => step_covered) reached start
  simp only [Covered] at covered
  omega

end Metering

end Yomochi.Foundation
