import Yomochi.Recurring.Rules
import Yomochi.Values.Money

/-! The amounts of rules and transactions: what their columns keep of a `Money`, and the `Money` that
is made of the columns again. -/

namespace Yomochi.Recurring

open Foundation
open Values (Currency MoneyError NearAmount plain)

inductive AmountError
  | invalidCurrency
  | money (error : MoneyError)
  deriving DecidableEq

/-- `str.upper`, as far as a code of the table can come of it. -/
def upperCode (code : Text) : Text :=
  code.map fun c =>
    if 'a'.toNat ≤ c ∧ c ≤ 'z'.toNat then c - 32
    else if c = 'ı'.toNat then 'I'.toNat
    else if c = 'ſ'.toNat then 'S'.toNat
    else c

/-- `Currency(code)` -/
def currencyOf (code : String) : Except AmountError Currency :=
  match Currency.make upperCode (text code) with
  | none => .error .invalidCurrency
  | some currency => .ok currency

/-- What the columns keep: the amount has the places of the currency once the context has rounded
it. -/
def columns (money : Values.Money) : Money :=
  ⟨defaultContext.rounded (money.amount.value.getD 0), money.currency.code⟩

def Money.of (amount : Decimal) (currency : Currency) : Except AmountError Money :=
  match Values.Money.of amount currency with
  | .error error => .error (.money error)
  | .ok money => .ok (columns money)

def Money.fromString (rawAmount : String) (currency : Currency) : Except AmountError Money :=
  match Values.Money.fromString (text rawAmount) currency with
  | .error error => .error (.money error)
  | .ok money => .ok (columns money)

def readAmount (amount : ℚ) : Decimal :=
  .finite (decide (amount < 0)) (amount * 10 ^ 4).num.natAbs (-4)

def moneyFactory (amount : Money) : Except AmountError Money :=
  match currencyOf amount.currency with
  | .error error => .error error
  | .ok currency => Money.of (readAmount amount.amount) currency

/-! A `Money` that has been made is made of its columns again. -/

theorem code_normal {code : String} {digits : Nat}
    (supported : Values.minorUnitDigits code = some digits) :
    plain (upperCode (strip (text code))) = code :=
  (by decide +kernel : ∀ code ∈ _, plain (upperCode (strip (text code))) = code) code
    (Values.supported_mem supported).1

theorem currency_ext {first second : Currency} (same : first.code = second.code) :
    first = second := by
  obtain ⟨code, digits, supported⟩ := first
  obtain ⟨_, others, again⟩ := second
  dsimp only at same
  subst same
  cases supported.symm.trans again
  rfl

theorem currency_of_code (currency : Currency) : currencyOf currency.code = .ok currency := by
  have normal := code_normal currency.supported
  unfold currencyOf Currency.make
  split
  · rename_i refused
    split at refused
    · cases refused
    · rename_i unsupported
      rw [normal, currency.supported] at unsupported
      cases unsupported
  · rename_i made
    split at made
    · cases made
      exact congrArg Except.ok (currency_ext normal)
    · cases made

/-- A `Money` is within the context and near an amount of its currency. -/
theorem money_value (money : Values.Money) : ∃ q, money.amount.value = some q ∧ 0 ≤ q ∧
    q < defaultContext.overflowsFrom ∧ NearAmount q money.currency := by
  obtain ⟨q, value, nonneg⟩ := money.value_nonneg
  have spec := @Values.post_init_spec money.currency _ _ value nonneg
  rw [money.admitted] at spec
  exact ⟨q, value, nonneg, spec⟩

theorem places_whole {q : ℚ} {digits : Nat} (few : digits ≤ 4) (places : HasPlaces q digits) :
    ∃ n : Int, q * 10 ^ 4 = n := by
  obtain ⟨n, rfl⟩ := places
  obtain ⟨power, cast, _⟩ := ten_zpow_int (show (0 : Int) ≤ 4 - digits by omega)
  refine ⟨n * power, ?_⟩
  push_cast
  rw [cast, mul_assoc, ← zpow_natCast (10 : ℚ) 4, ← ten_zpow_add]
  congr 2
  push_cast
  ring

theorem read_amount_value {q : ℚ} {digits : Nat} (nonneg : 0 ≤ q) (few : digits ≤ 4)
    (places : HasPlaces q digits) : (readAmount q).value = some q := by
  obtain ⟨n, whole⟩ := places_whole few places
  have positive : 0 ≤ n := by
    have scaled : (0 : ℚ) ≤ n := whole ▸ mul_nonneg nonneg (by norm_num)
    exact_mod_cast scaled
  have coefficient : ((n.natAbs : Nat) : ℚ) = n := by
    rw [Nat.cast_natAbs, abs_of_nonneg positive]
  unfold readAmount
  rw [whole, Rat.num_intCast, decide_eq_false (not_lt.mpr nonneg)]
  unfold Decimal.value
  dsimp only
  rw [if_neg Bool.false_ne_true, one_mul, coefficient, ← whole, mul_assoc,
    ← zpow_natCast (10 : ℚ) 4, ← ten_zpow_add]
  norm_num

/-- The NUMERIC of a number that is not negative, with so many places. -/
def numeric (scale : Nat) (q : ℚ) : ℚ := ⌊q * 10 ^ scale + 1 / 2⌋ / 10 ^ scale

/-- Of an amount that fits it, the column `amount_value` keeps what `columns` says. -/
theorem numeric_columns {money : Values.Money} {q : ℚ} (value : money.amount.value = some q)
    (fits : q < 10 ^ 15) : numeric 4 q = (columns money).amount := by
  obtain ⟨other, same, nonneg, _, near⟩ := money_value money
  cases value.symm.trans same
  have places := (defaultContext.rounded_has_places_iff q money.currency.minorUnitDigits).mpr near
  have few := (Values.supported_mem money.currency.supported).2
  obtain ⟨n, whole⟩ := places_whole (few.trans (by decide)) places
  have fine : (10 : ℚ) ^ defaultContext.place q ≤ 10 ^ (-13 : Int) := by
    apply ten_zpow_le.mpr
    rcases nonneg.eq_or_lt with rfl | positive
    · rw [show defaultContext.place 0 = -27 by decide +kernel]
      norm_num
    · have log : Int.log 10 q < 15 := (lt_zpow_iff_log_lt positive).mp fits
      unfold DecimalContext.place DecimalContext.etiny
      change max (Int.log 10 q + 1 - (28 : Nat)) (-999999 - (28 : Nat) + 1) ≤ -13
      omega
  have close := abs_le.mp (defaultContext.rounded_near q)
  have last : (10 : ℚ) ^ (-13 : Int) = 1 / 10 ^ 13 := by norm_num
  have floor : ⌊q * 10 ^ 4 + 1 / 2⌋ = n := by
    rw [last] at fine
    apply Int.floor_eq_iff.mpr
    rw [← whole]
    constructor
    · linarith
    · linarith
  unfold numeric columns
  rw [floor, value, ← whole]
  exact mul_div_cancel_right₀ _ (by norm_num)

theorem money_factory_columns (money : Values.Money) :
    moneyFactory (columns money) = .ok (columns money) := by
  obtain ⟨q, value, nonneg, inside, near⟩ := money_value money
  have shape : columns money = ⟨defaultContext.rounded q, money.currency.code⟩ := by
    unfold columns
    rw [value]
    rfl
  have places := (defaultContext.rounded_has_places_iff q money.currency.minorUnitDigits).mpr near
  have few := (Values.supported_mem money.currency.supported).2
  have positive := defaultContext.rounded_nonneg nonneg
  have read := read_amount_value positive (few.trans (by decide)) places
  have same := defaultContext.rounded_idem nonneg
  have spec := @Values.post_init_spec money.currency _ _ read positive
  unfold moneyFactory Money.of
  rw [shape]
  dsimp only
  rw [currency_of_code]
  dsimp only
  cases made : Values.postInit (readAmount (defaultContext.rounded q)) money.currency with
  | ok checked =>
      rw [Values.Money.of_ok made]
      dsimp only
      unfold columns
      dsimp only
      rw [read, Option.getD_some, same]
  | error error =>
      rw [made] at spec
      cases error with
      | invalidMoney message => exact absurd (Values.near_of_places places) spec.2
      | decimal signal =>
          have beyond := (defaultContext.overflows_iff positive).mpr spec
          rw [same, defaultContext.overflows_iff nonneg] at beyond
          exact absurd inside (not_lt.mpr beyond)

theorem money_factory_of {amount : Decimal} {currency : Currency} {money : Money}
    (made : Money.of amount currency = .ok money) : moneyFactory money = .ok money := by
  unfold Money.of at made
  split at made
  · cases made
  · cases made
    exact money_factory_columns _

theorem money_factory_from_string {rawAmount : String} {currency : Currency} {money : Money}
    (made : Money.fromString rawAmount currency = .ok money) : moneyFactory money = .ok money := by
  unfold Money.fromString at made
  split at made
  · cases made
  · cases made
    exact money_factory_columns _

end Yomochi.Recurring
