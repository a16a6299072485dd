import Yomochi.Foundation.IsoWeeks
import Yomochi.Insights.BudgetReader
import Mathlib.Algebra.Order.Floor.Ring
import Mathlib.Data.Rat.Floor

/-! The spending trend: the totals of the last weeks or months. The server groups the rows by the
label of their week or month, from a floor date on; the web client makes the labels of the same
periods by itself, and puts a total at its label. -/

namespace Yomochi.Reports

open Foundation
open Insights (StoredTransaction)
open Recurring (TransactionType)

inductive Granularity
  | week
  | month
  deriving DecidableEq, Repr

structure TrendWindow where
  granularity : Granularity
  bucketCount : Nat
  end_ : Date
  counts : 1 ≤ bucketCount ∧ bucketCount ≤ 52

/-! The server. -/

/-- `to_char(date, 'IYYY-"W"IW')`. -/
def toCharWeek (date : Date) : Text :=
  padded 4 date.isocalendar.1.toNat ++ text "-W" ++ padded 2 date.isocalendar.2.toNat

/-- `to_char(date, 'YYYY-MM')`. -/
def toCharMonth (date : Date) : Text := padded 4 date.year ++ text "-" ++ padded 2 date.month

def bucketLabel : Granularity → Date → Text
  | .week, date => toCharWeek date
  | .month, date => toCharMonth date

/-- `while month <= 0`. -/
def wrapMonth (year month : Int) : Int × Int :=
  if month ≤ 0 then wrapMonth (year - 1) (month + 12) else (year, month)
termination_by (1 - month).toNat
decreasing_by omega

/-- `floor_date`; `none` is an `OverflowError` or a `ValueError`. -/
def TrendWindow.floorDate (window : TrendWindow) : Option Date :=
  match window.granularity with
  | .week => do
      let floor ← window.end_.minusDays (7 * (window.bucketCount - 1))
      floor.minusDays floor.weekday
  | .month =>
      let wrapped := wrapMonth window.end_.year
        ((window.end_.month : Int) - ((window.bucketCount : Int) - 1))
      Date.ofNumbers wrapped.1 wrapped.2 1

structure TrendBucket where
  label : Text
  total : ℚ
  deriving DecidableEq

def trendRows (rows : List StoredTransaction) (userId : UserId) (currency : Text)
    (type : TransactionType) (floor end_ : Date) : List StoredTransaction :=
  rows.filter fun row =>
    decide (row.userId = userId) && decide (row.currency = currency) && decide (row.type = type) &&
      decide (floor ≤ row.date) && decide (row.date ≤ end_)

def read (rows : List StoredTransaction) (userId : UserId) (currency : Text)
    (type : TransactionType) (window : TrendWindow) : Option (List TrendBucket) :=
  window.floorDate.map fun floor =>
    let found := trendRows rows userId currency type floor window.end_
    (sortedSet (found.map fun row => bucketLabel window.granularity row.date)).map fun label =>
      let group := found.filter fun row =>
        decide (bucketLabel window.granularity row.date = label)
      ⟨label, (group.map StoredTransaction.amount).foldl (fun total amount => total + amount) 0⟩

/-! The client. A `Date` of JavaScript is a day here; `none` is a day outside the years 1 to
9999. -/

/-- The years 0 to 99 of the constructors are those from 1900 on. -/
def fullYear (year : Int) : Int := if 0 ≤ year ∧ year ≤ 99 then 1900 + year else year

/-- The day of a month from 0 and a day, which may lie outside of the year and of the month. -/
def makeDay (year month day : Int) : Option Date :=
  (Date.ofNumbers (year + month / 12) (month % 12 + 1) 1).bind fun first => first.addDays (day - 1)

def newDate (year month day : Int) : Option Date := makeDay (fullYear year) month day

/-- `date.setDate(day)`. -/
def setDate (date : Date) (day : Int) : Option Date := makeDay date.year (date.month - 1) day

/-- `date.getDay() || 7`: `getDay` is 0 on Sundays. -/
def dayNumber (date : Date) : Nat := if date.ordinal % 7 = 0 then 7 else date.ordinal % 7

/-- `source.padStart(width, "0")`. -/
def padStart (width : Nat) (source : Text) : Text :=
  List.replicate (width - source.length) '0'.toNat ++ source

def isoYearWeek (date : Date) : Option Text := do
  let target ← newDate date.year (date.month - 1) date.day
  let target ← setDate target (target.day + 4 - dayNumber target)
  let yearStart ← newDate target.year 0 1
  let weekNum := ⌈(((target.ordinal : Int) - yearStart.ordinal + 1 : Int) : ℚ) / 7⌉
  some (decimal target.year ++ text "-W" ++ padStart 2 (decimal weekNum.toNat))

def lastNPeriods (n : Nat) (granularity : Granularity) (now : Date) : Option (List Text) :=
  match granularity with
  | .month => (List.range n).reverse.mapM fun (i : Nat) => do
      let d ← newDate now.year ((now.month : Int) - 1 - i) 1
      some (decimal d.year ++ text "-" ++ padStart 2 (decimal d.month))
  | .week => do
      let monday ← setDate now ((now.day : Int) - dayNumber now + 1)
      (List.range n).reverse.mapM fun (i : Nat) => do
        let d ← setDate monday ((monday.day : Int) - i * 7)
        isoYearWeek d

end Yomochi.Reports
