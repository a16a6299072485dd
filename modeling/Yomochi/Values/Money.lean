import Yomochi.Foundation.DecimalPlaces
import Yomochi.Foundation.DecimalText

/-! The `Money` value object over Python's decimals, and the amounts that it admits. -/

namespace Yomochi.Values

open Foundation

/-! `_ISO_4217` -/

def withoutDigits : List String :=
  ["JPY", "KRW", "VND", "IDR", "CLP", "ISK", "UGX", "RWF", "GNF", "PYG"]

def withTwoDigits : List String :=
  ["USD", "EUR", "GBP", "CHF", "CAD", "AUD", "NZD", "CNY", "HKD", "TWD", "SGD", "MYR", "PHP", "THB",
    "INR", "PKR", "BDT", "LKR", "NPR", "SEK", "NOK", "DKK", "PLN", "CZK", "HUF", "RON", "BGN", "HRK",
    "RSD", "UAH", "RUB", "TRY", "MXN", "BRL", "ARS", "COP", "PEN", "VEF", "ZAR", "EGP", "NGN", "KES",
    "GHS", "MAD", "SAR", "AED", "QAR", "ILS", "GEL", "AMD", "AZN", "KZT", "UZS", "MNT"]

def withThreeDigits : List String := ["KWD", "BHD", "OMR", "JOD", "IQD", "TND", "LYD"]

def minorUnitDigits (code : String) : Option Nat :=
  if code ∈ withoutDigits then some 0
  else if code ∈ withTwoDigits then some 2
  else if code ∈ withThreeDigits then some 3
  else none

theorem supported_mem {code : String} {digits : Nat}
    (supported : minorUnitDigits code = some digits) :
    code ∈ withoutDigits ++ (withTwoDigits ++ withThreeDigits) ∧ digits ≤ 3 := by
  unfold minorUnitDigits at supported
  rw [List.mem_append, List.mem_append]
  split at supported
  · rename_i member
    cases supported
    exact ⟨.inl member, by decide⟩
  · split at supported
    · rename_i member
      cases supported
      exact ⟨.inr (.inl member), by decide⟩
    · split at supported
      · rename_i member
        cases supported
        exact ⟨.inr (.inr member), by decide⟩
      · cases supported

structure Currency where
  code : String
  minorUnitDigits : Nat
  supported : Values.minorUnitDigits code = some minorUnitDigits

/-- The string of a text. A surrogate, which no string has, becomes NUL. -/
def plain (source : Text) : String := String.ofList (source.map Char.ofNat)

/-- `Currency(code)`; `upper` is `str.upper`, and `none` an `InvalidCurrencyError`. -/
def Currency.make (upper : Text → Text) (code : Text) : Option Currency :=
  match supported : Values.minorUnitDigits (plain (upper (strip code))) with
  | some digits => some ⟨plain (upper (strip code)), digits, supported⟩
  | none => none

inductive MoneyError
  /-- `InvalidMoneyError` -/
  | invalidMoney (message : Text)
  /-- An exception of the `decimal` module. -/
  | decimal (signal : Signal)
  deriving DecidableEq

/-- `amount < Decimal(0)` of a finite amount. -/
def isNegative : Decimal → Bool
  | .finite negative coefficient _ => negative && decide (coefficient ≠ 0)
  | _ => false

def postInit (amount : Decimal) (currency : Currency) : Except MoneyError Unit :=
  if !amount.isFinite then .error (.invalidMoney (text "Money amount must be a finite decimal"))
  else if isNegative amount then .error (.invalidMoney (text "Money amount cannot be negative"))
  else
    match defaultContext.normalize amount with
    | .error signal => .error (.decimal signal)
    | .ok (.finite _ _ exponent) =>
        let actualPlaces := if exponent < 0 then (-exponent).toNat else 0
        if currency.minorUnitDigits < actualPlaces then
          .error (.invalidMoney (text "Amount Decimal('" ++ amount.str ++ text "') has " ++
            decimal actualPlaces ++ text " decimal places but " ++ text currency.code ++
            text " allows at most " ++ decimal currency.minorUnitDigits))
        else .ok ()
    | .ok _ => .error (.invalidMoney (text ("Decimal exponent must be an int, got 'str'; " ++
        "value is likely NaN or Infinity (should have been caught above)")))

structure Money where
  amount : Decimal
  currency : Currency
  admitted : postInit amount currency = .ok ()

namespace Money

def of (amount : Decimal) (currency : Currency) : Except MoneyError Money :=
  match admitted : postInit amount currency with
  | .error error => .error error
  | .ok () => .ok ⟨amount, currency, admitted⟩

def fromString (rawAmount : Text) (currency : Currency) : Except MoneyError Money :=
  match Decimal.ofText rawAmount with
  | none => .error (.invalidMoney (text "Amount must be a valid number"))
  | some amount => of amount currency

theorem of_ok {amount : Decimal} {currency : Currency} (admitted : postInit amount currency = .ok ()) :
    of amount currency = .ok ⟨amount, currency, admitted⟩ := by
  unfold of
  split
  · rename_i error raised
    rw [raised] at admitted
    cases admitted
  · rfl

theorem of_error {amount : Decimal} {currency : Currency} {error : MoneyError}
    (raised : postInit amount currency = .error error) : of amount currency = .error error := by
  unfold of
  split
  · rename_i other again
    rw [raised] at again
    cases again
    rfl
  · rename_i admitted
    rw [raised] at admitted
    cases admitted

end Money

/-- A finite amount that is not negative and a multiple of the currency's minor unit. -/
def IsAmount (amount : Decimal) (currency : Currency) : Prop :=
  ∃ q, amount.value = some q ∧ 0 ≤ q ∧ HasPlaces q currency.minorUnitDigits

/-- At most half a unit of its last kept digit away from a multiple of the minor unit. -/
def NearAmount (q : ℚ) (currency : Currency) : Prop :=
  ∃ n : Int, |q - n * 10 ^ (-currency.minorUnitDigits : Int)| ≤ 10 ^ defaultContext.place q / 2

section

variable {currency : Currency}

theorem is_negative_finite (negative : Bool) (coefficient : Nat) (exponent : Int) :
    isNegative (.finite negative coefficient exponent) = (negative && decide (coefficient ≠ 0)) :=
  rfl

theorem value_nonneg_iff {amount : Decimal} {q : ℚ} (value : amount.value = some q) :
    isNegative amount = false ↔ 0 ≤ q := by
  cases amount with
  | infinity negative => cases value
  | nan negative signaling payload => cases value
  | finite negative coefficient exponent =>
      cases value
      rw [is_negative_finite]
      cases negative with
      | false =>
          apply iff_of_true rfl
          rw [if_neg Bool.false_ne_true, one_mul]
          exact mul_nonneg (Nat.cast_nonneg _) (ten_zpow_pos exponent).le
      | true =>
          rw [if_pos rfl, Bool.true_and, decide_eq_false_iff_not, not_not, neg_one_mul,
            Left.nonneg_neg_iff]
          constructor
          · rintro rfl
            simp
          · intro none
            by_contra nonzero
            exact absurd (magnitude_pos nonzero exponent) (not_lt.mpr none)

theorem place_allowed {q : ℚ} {coefficient : Nat} {exponent : Int}
    (kept : (coefficient : ℚ) * 10 ^ exponent = defaultContext.rounded q)
    (last : exponent < 0 → coefficient % 10 ≠ 0) :
    ¬ currency.minorUnitDigits < (if exponent < 0 then (-exponent).toNat else 0) ↔
      NearAmount q currency := by
  unfold NearAmount
  rw [← defaultContext.rounded_has_places_iff, ← kept, has_places_iff last]
  split
  · omega
  · omega

/-- What `__post_init__` answers for an amount of this value. -/
def InitsTo (q : ℚ) (currency : Currency) : Except MoneyError Unit → Prop
  | .ok () => q < defaultContext.overflowsFrom ∧ NearAmount q currency
  | .error (.invalidMoney _) => q < defaultContext.overflowsFrom ∧ ¬ NearAmount q currency
  | .error (.decimal _) => defaultContext.overflowsFrom ≤ q

theorem magnitude_of_nonneg {negative : Bool} {coefficient : Nat} {exponent : Int} {q : ℚ}
    (value : (Decimal.finite negative coefficient exponent).value = some q)
    (positive : isNegative (.finite negative coefficient exponent) = false) :
    q = coefficient * 10 ^ exponent := by
  cases value
  cases negative with
  | false => rw [if_neg Bool.false_ne_true, one_mul]
  | true =>
      rw [is_negative_finite, Bool.true_and, decide_eq_false_iff_not, not_not] at positive
      rw [positive]
      simp

theorem post_init_spec {amount : Decimal} {q : ℚ} (value : amount.value = some q) (nonneg : 0 ≤ q) :
    InitsTo q currency (postInit amount currency) := by
  have positive := (value_nonneg_iff value).mpr nonneg
  cases amount with
  | infinity negative => cases value
  | nan negative signaling payload => cases value
  | finite negative coefficient exponent =>
      have magnitude := magnitude_of_nonneg value positive
      have spec := defaultContext.normalize_spec negative coefficient exponent
      rw [← magnitude] at spec
      unfold postInit
      rw [if_neg (by simp [Decimal.isFinite]), positive, if_neg Bool.false_ne_true]
      generalize defaultContext.normalize (.finite negative coefficient exponent) = normal at *
      cases normal with
      | error signal => exact (defaultContext.overflows_iff nonneg).mp spec.2
      | ok normal =>
          obtain ⟨below, c, e, shape, kept, last⟩ := spec
          subst shape
          have inside : q < defaultContext.overflowsFrom := by
            by_contra beyond
            exact absurd ((defaultContext.overflows_iff nonneg).mpr (not_lt.mp beyond))
              (not_le.mpr below)
          dsimp only
          by_cases deep : currency.minorUnitDigits < (if e < 0 then (-e).toNat else 0)
          · rw [if_pos deep]
            exact ⟨inside, fun near => (place_allowed kept last).mpr near deep⟩
          · rw [if_neg deep]
            exact ⟨inside, (place_allowed kept last).mp deep⟩

theorem post_init_refused {amount : Decimal} (refused : ¬ ∃ q, amount.value = some q ∧ 0 ≤ q) :
    ∃ message, postInit amount currency = .error (.invalidMoney message) := by
  unfold postInit
  cases amount with
  | infinity negative => exact ⟨_, rfl⟩
  | nan negative signaling payload => exact ⟨_, rfl⟩
  | finite negative coefficient exponent =>
      have below : isNegative (.finite negative coefficient exponent) = true := by
        by_contra positive
        exact refused ⟨_, rfl, (value_nonneg_iff rfl).mp ((Bool.not_eq_true _).mp positive)⟩
      rw [if_neg (by simp [Decimal.isFinite]), if_pos below]
      exact ⟨_, rfl⟩

/-- The constructor admits the amount exactly when it is one of the currency. -/
def AdmitsExactly (amount : Decimal) (currency : Currency) : Prop :=
  (∃ money, Money.of amount currency = .ok money) ↔ IsAmount amount currency

/-- An amount of the currency stays within the context, and no other number within the context is
rounded to one. -/
def Regular (amount : Decimal) (currency : Currency) : Prop :=
  ∀ q, amount.value = some q → 0 ≤ q →
    (HasPlaces q currency.minorUnitDigits → q < defaultContext.overflowsFrom) ∧
    (q < defaultContext.overflowsFrom → NearAmount q currency →
      HasPlaces q currency.minorUnitDigits)

theorem near_of_places {q : ℚ} (places : HasPlaces q currency.minorUnitDigits) :
    NearAmount q currency := by
  obtain ⟨n, rfl⟩ := places
  refine ⟨n, ?_⟩
  rw [sub_self, abs_zero]
  exact div_nonneg (ten_zpow_pos _).le (by norm_num)

theorem is_amount_iff {amount : Decimal} {q : ℚ} (value : amount.value = some q)
    (nonneg : 0 ≤ q) : IsAmount amount currency ↔ HasPlaces q currency.minorUnitDigits := by
  constructor
  · rintro ⟨other, same, _, places⟩
    cases value.symm.trans same
    exact places
  · exact fun places => ⟨q, value, nonneg, places⟩

theorem regular_iff {amount : Decimal} {q : ℚ} (value : amount.value = some q) (nonneg : 0 ≤ q) :
    Regular amount currency ↔
      (HasPlaces q currency.minorUnitDigits → q < defaultContext.overflowsFrom) ∧
      (q < defaultContext.overflowsFrom → NearAmount q currency →
        HasPlaces q currency.minorUnitDigits) := by
  constructor
  · exact fun regular => regular q value nonneg
  · rintro regular other same _
    cases value.symm.trans same
    exact regular

theorem not_admitted {amount : Decimal} {error : MoneyError}
    (made : postInit amount currency = .error error) :
    ¬ ∃ money, Money.of amount currency = .ok money := by
  rintro ⟨money, admits⟩
  rw [Money.of_error made] at admits
  cases admits

theorem admits_exactly_iff (amount : Decimal) (currency : Currency) :
    AdmitsExactly amount currency ↔ Regular amount currency := by
  by_cases finite : ∃ q, amount.value = some q ∧ 0 ≤ q
  · obtain ⟨q, value, nonneg⟩ := finite
    have spec := @post_init_spec currency amount q value nonneg
    unfold AdmitsExactly
    rw [is_amount_iff value nonneg, regular_iff value nonneg]
    cases made : postInit amount currency with
    | ok checked =>
        rw [made] at spec
        obtain ⟨below, near⟩ := spec
        have admits : ∃ money, Money.of amount currency = .ok money := ⟨_, Money.of_ok made⟩
        constructor
        · exact fun exactly => ⟨fun _ => below, fun _ _ => exactly.mp admits⟩
        · exact fun regular => iff_of_true admits (regular.2 below near)
    | error error =>
        have refuses := not_admitted made
        rw [made] at spec
        cases error with
        | invalidMoney message =>
            have none : ¬ HasPlaces q currency.minorUnitDigits := fun places =>
              spec.2 (near_of_places places)
            exact iff_of_true (iff_of_false refuses none)
              ⟨fun places => absurd places none, fun _ near => absurd near spec.2⟩
        | decimal signal =>
            constructor
            · intro exactly
              exact ⟨fun places => absurd (exactly.mpr places) refuses,
                fun below => absurd below (not_lt.mpr spec)⟩
            · intro regular
              exact iff_of_false refuses fun places =>
                absurd (regular.1 places) (not_lt.mpr spec)
  · obtain ⟨message, refused⟩ := @post_init_refused currency amount finite
    apply iff_of_true
    · apply iff_of_false (not_admitted refused)
      rintro ⟨q, value, nonneg, _⟩
      exact finite ⟨q, value, nonneg⟩
    · intro q value nonneg
      exact absurd ⟨q, value, nonneg⟩ finite

/-- The text is a numeric string of this value, which `Decimal` can represent. -/
def Denotes (raw : Text) (q : ℚ) : Prop :=
  ∃ source negative coefficient exponent, numericAscii raw = some source ∧
    NumeralOf source negative coefficient exponent ∧
    Decimal.representable coefficient exponent ∧
    q = (if negative then -1 else 1) * (coefficient * 10 ^ exponent)

theorem denotes_iff {raw : Text} {q : ℚ} :
    Denotes raw q ↔ ∃ amount, Decimal.ofText raw = some amount ∧ amount.value = some q := by
  unfold Decimal.ofText
  constructor
  · rintro ⟨source, negative, coefficient, exponent, ascii, numeral, fits, rfl⟩
    refine ⟨.finite negative coefficient exponent, ?_, rfl⟩
    rw [ascii]
    exact Decimal.of_ascii_finite.mpr ⟨numeral, fits⟩
  · rintro ⟨amount, read, value⟩
    obtain ⟨source, ascii, finite⟩ := Option.bind_eq_some_iff.mp read
    cases amount with
    | infinity negative => cases value
    | nan negative signaling payload => cases value
    | finite negative coefficient exponent =>
        obtain ⟨numeral, fits⟩ := Decimal.of_ascii_finite.mp finite
        exact ⟨source, negative, coefficient, exponent, ascii, numeral, fits,
          (Option.some.inj value).symm⟩

namespace Money

theorem from_string_ok {raw : Text} {money : Money}
    (made : fromString raw currency = .ok money) : Decimal.ofText raw = some money.amount := by
  unfold fromString at made
  split at made
  · cases made
  · rename_i amount read
    cases admitted : postInit amount currency with
    | error error =>
        rw [of_error admitted] at made
        cases made
    | ok checked =>
        rw [of_ok admitted] at made
        cases made
        exact read

theorem value_nonneg (money : Money) : ∃ q, money.amount.value = some q ∧ 0 ≤ q := by
  by_contra refused
  obtain ⟨message, raised⟩ := @post_init_refused money.currency money.amount refused
  rw [money.admitted] at raised
  cases raised

end Money

/-- The text becomes money of exactly its value, or the answer is an `InvalidMoneyError`. -/
def ParsesExactly (raw : Text) (currency : Currency) : Prop :=
  match Money.fromString raw currency with
  | .ok money => money.currency = currency ∧ IsAmount money.amount currency ∧
      ∃ q, money.amount.value = some q ∧ Denotes raw q
  | .error (.invalidMoney _) => True
  | .error (.decimal _) => False

/-- The text's value, if it is not negative, is within the context and not rounded to an amount
that it is not. -/
def RegularText (raw : Text) (currency : Currency) : Prop :=
  ∀ q, Denotes raw q → 0 ≤ q → q < defaultContext.overflowsFrom ∧
    (NearAmount q currency → HasPlaces q currency.minorUnitDigits)

theorem parses_exactly_iff (raw : Text) (currency : Currency) :
    ParsesExactly raw currency ↔ RegularText raw currency := by
  unfold ParsesExactly Money.fromString
  cases read : Decimal.ofText raw with
  | none =>
      apply iff_of_true trivial
      intro q denotes
      obtain ⟨amount, again, _⟩ := denotes_iff.mp denotes
      rw [read] at again
      cases again
  | some amount =>
      dsimp only
      by_cases finite : ∃ q, amount.value = some q ∧ 0 ≤ q
      · obtain ⟨q, value, nonneg⟩ := finite
        have denotes : Denotes raw q := denotes_iff.mpr ⟨amount, read, value⟩
        have regularIff : RegularText raw currency ↔ q < defaultContext.overflowsFrom ∧
            (NearAmount q currency → HasPlaces q currency.minorUnitDigits) := by
          constructor
          · exact fun regular => regular q denotes nonneg
          · rintro regular other again _
            obtain ⟨_, readAgain, same⟩ := denotes_iff.mp again
            cases read.symm.trans readAgain
            cases value.symm.trans same
            exact regular
        have spec := @post_init_spec currency amount q value nonneg
        rw [regularIff]
        cases made : postInit amount currency with
        | ok checked =>
            rw [made] at spec
            obtain ⟨below, near⟩ := spec
            rw [Money.of_ok made]
            constructor
            · rintro ⟨_, isAmount, _⟩
              exact ⟨below, fun _ => (is_amount_iff value nonneg).mp isAmount⟩
            · rintro ⟨_, places⟩
              exact ⟨rfl, ⟨q, value, nonneg, places near⟩, q, value, denotes⟩
        | error error =>
            rw [made] at spec
            rw [Money.of_error made]
            cases error with
            | invalidMoney message =>
                exact iff_of_true trivial ⟨spec.1, fun near => absurd near spec.2⟩
            | decimal signal =>
                exact iff_of_false id fun regular => absurd regular.1 (not_lt.mpr spec)
      · obtain ⟨message, refused⟩ := @post_init_refused currency amount finite
        rw [Money.of_error refused]
        apply iff_of_true trivial
        intro q denotes nonneg
        obtain ⟨_, again, value⟩ := denotes_iff.mp denotes
        cases read.symm.trans again
        exact absurd ⟨q, value, nonneg⟩ finite

theorem money_exact_iff (currency : Currency) :
    (∀ amount, AdmitsExactly amount currency ↔ Regular amount currency) ∧
    ∀ raw, ParsesExactly raw currency ↔ RegularText raw currency :=
  ⟨fun amount => admits_exactly_iff amount currency, fun raw => parses_exactly_iff raw currency⟩

end

/-- A thirtieth digit, which the context rounds away. -/
theorem not_money_exact : ¬ ∀ (amount : Decimal) (currency : Currency),
    AdmitsExactly amount currency := by
  intro claimed
  let yen : Currency := ⟨"JPY", 0, by decide⟩
  let amount : Decimal := .finite false 100000000000000000000000000001 (-29)
  have admitted : postInit amount yen = .ok () := by decide +kernel
  obtain ⟨q, value, _, places⟩ := (claimed amount yen).mp ⟨_, Money.of_ok admitted⟩
  cases value
  rw [if_neg Bool.false_ne_true, one_mul] at places
  exact absurd ((has_places_iff (fun _ => by decide) 0).mp places) (by decide)

end Yomochi.Values
