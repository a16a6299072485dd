import Yomochi.Foundation.Decimal
import Yomochi.Foundation.Numbers

/-! `Decimal(text)` and `str(decimal)`: the numeric strings, and that what is written is read. -/

namespace Yomochi.Foundation

/-- The text without blanks around it and without underscores, its digits in ASCII. `none` is a
character that no numeric string has. -/
def numericAscii (source : Text) : Option Text :=
  ((strip source).filter (· ≠ '_'.toNat)).mapM fun c =>
    if 0 < c ∧ c < 128 then some c
    else if isSpace c then some ' '.toNat
    else (decimalZeros.find? fun first => first ≤ c && c < first + 10).map fun first =>
      '0'.toNat + (c - first)

def asciiLower (c : Nat) : Nat := if 'A'.toNat ≤ c ∧ c ≤ 'Z'.toNat then c + 32 else c

def cutSign : Text → Bool × Text
  | [] => (false, [])
  | c :: rest =>
      if c = '-'.toNat then (true, rest) else if c = '+'.toNat then (false, rest)
      else (false, c :: rest)

/-- The digits after a point, if there is a point, and what comes after them. -/
def cutFraction : Text → Text × Text
  | [] => ([], [])
  | c :: rest =>
      if c = '.'.toNat then (rest.takeWhile isDigit, rest.dropWhile isDigit) else ([], c :: rest)

def readExponent : Text → Option Int
  | [] => some 0
  | c :: rest =>
      if c = 'e'.toNat ∨ c = 'E'.toNat then
        let (negative, digits) := cutSign rest
        if digits ≠ [] ∧ digits.all isDigit then
          some (if negative then -(digitsValue digits : Int) else digitsValue digits)
        else none
      else none

def readNumber (source : Text) : Option (Nat × Int) :=
  let whole := source.takeWhile isDigit
  let (fraction, rest) := cutFraction (source.dropWhile isDigit)
  if whole ++ fraction = [] then none
  else (readExponent rest).map fun exponent =>
    (digitsValue (whole ++ fraction), exponent - fraction.length)

namespace Decimal

def representable (coefficient : Nat) (exponent : Int) : Bool :=
  decide (numDigits coefficient ≤ 999999999999999999) &&
    (decide (Nat.log 10 coefficient + exponent ≤ 999999999999999999) &&
      decide (-1999999999999999997 ≤ exponent))

def ofAscii (source : Text) : Option Decimal :=
  let (negative, body) := cutSign source
  let word := body.map asciiLower
  if word = text "inf" ∨ word = text "infinity" then some (.infinity negative)
  else if word.take 3 = text "nan" ∧ (word.drop 3).all isDigit then
    some (.nan negative false (digitsValue (word.drop 3)))
  else if word.take 4 = text "snan" ∧ (word.drop 4).all isDigit then
    some (.nan negative true (digitsValue (word.drop 4)))
  else
    match readNumber body with
    | none => none
    | some (coefficient, exponent) =>
        if representable coefficient exponent then some (.finite negative coefficient exponent)
        else none

def ofText (source : Text) : Option Decimal := (numericAscii source).bind ofAscii

def signText (negative : Bool) : Text := if negative then text "-" else []

/-- The whole part and what follows it, with so many digits before the point. -/
def placePoint (digits : Text) (dotPlace : Int) : Text :=
  if dotPlace ≤ 0 then text "0." ++ List.replicate (-dotPlace).toNat '0'.toNat ++ digits
  else if digits.length ≤ dotPlace then
    digits ++ List.replicate (dotPlace - digits.length).toNat '0'.toNat
  else digits.take dotPlace.toNat ++ text "." ++ digits.drop dotPlace.toNat

def exponentText (shift : Int) : Text :=
  if shift = 0 then []
  else if shift < 0 then text "E-" ++ decimal (-shift).toNat
  else text "E+" ++ decimal shift.toNat

def str : Decimal → Text
  | .infinity negative => signText negative ++ text "Infinity"
  | .nan negative signaling payload =>
      signText negative ++ text (if signaling then "sNaN" else "NaN") ++
        if payload = 0 then [] else decimal payload
  | .finite negative coefficient exponent =>
      let digits := decimal coefficient
      let leftDigits := exponent + digits.length
      let dotPlace := if exponent ≤ 0 ∧ -6 < leftDigits then leftDigits else 1
      signText negative ++ (placePoint digits dotPlace ++ exponentText (leftDigits - dotPlace))

end Decimal

/-! The grammar of numeric strings. -/

inductive SignOf : Text → Bool → Prop
  | none : SignOf [] false
  | plus : SignOf (text "+") false
  | minus : SignOf (text "-") true

/-- The digits after a point, which may be left out. -/
inductive FractionOf : Text → Text → Prop
  | none : FractionOf [] []
  | point {digits : Text} : digits.all isDigit → FractionOf ('.'.toNat :: digits) digits

inductive ExponentOf : Text → Int → Prop
  | none : ExponentOf [] 0
  | power {c : Nat} {sign digits : Text} {negative : Bool} : c = 'e'.toNat ∨ c = 'E'.toNat →
      SignOf sign negative → digits ≠ [] → digits.all isDigit →
      ExponentOf (c :: sign ++ digits)
        (if negative then -(digitsValue digits : Int) else digitsValue digits)

/-- The texts of a number, with its sign, its coefficient and its exponent. -/
inductive NumeralOf : Text → Bool → Nat → Int → Prop
  | number {sign whole point fraction power : Text} {negative : Bool} {exponent : Int} :
      SignOf sign negative → whole.all isDigit → FractionOf point fraction →
      whole ++ fraction ≠ [] → ExponentOf power exponent →
      NumeralOf (sign ++ (whole ++ (point ++ power))) negative (digitsValue (whole ++ fraction))
        (exponent - fraction.length)

def StopsDigits (rest : Text) : Prop := ∀ c, rest.head? = some c → isDigit c = false

theorem cut_digits {digits rest : Text} (all : digits.all isDigit) (stops : StopsDigits rest) :
    (digits ++ rest).takeWhile isDigit = digits ∧ (digits ++ rest).dropWhile isDigit = rest := by
  have each := List.all_eq_true.mp all
  rw [List.takeWhile_append_of_pos each, List.dropWhile_append_of_pos each]
  cases rest with
  | nil => simp
  | cons c rest =>
      have stop := stops c rfl
      rw [List.takeWhile_cons, List.dropWhile_cons, if_neg (by simp [stop]), if_neg (by simp [stop]),
        List.append_nil]
      exact ⟨rfl, rfl⟩

theorem cut_sign {sign rest : Text} {negative : Bool} (signed : SignOf sign negative)
    (unsigned : ∀ c, rest.head? = some c → c ≠ '-'.toNat ∧ c ≠ '+'.toNat) :
    cutSign (sign ++ rest) = (negative, rest) := by
  cases signed with
  | none =>
      cases rest with
      | nil => rfl
      | cons c rest =>
          obtain ⟨minus, plus⟩ := unsigned c rfl
          exact (if_neg minus).trans (if_neg plus)
  | plus => rfl
  | minus => rfl

theorem digit_ne_sign {c : Nat} (digit : isDigit c = true) : c ≠ '-'.toNat ∧ c ≠ '+'.toNat := by
  simp only [isDigit, Bool.and_eq_true, decide_eq_true_eq] at digit
  have bounds : 48 ≤ c ∧ c ≤ 57 := digit
  change c ≠ 45 ∧ c ≠ 43
  omega

theorem sign_of_cut (source : Text) : ∃ sign, SignOf sign (cutSign source).1 ∧
    source = sign ++ (cutSign source).2 := by
  cases source with
  | nil => exact ⟨[], .none, rfl⟩
  | cons c rest =>
      unfold cutSign
      dsimp only
      split
      · rename_i minus
        subst minus
        exact ⟨_, .minus, rfl⟩
      · split
        · rename_i plus
          subst plus
          exact ⟨_, .plus, rfl⟩
        · exact ⟨[], .none, rfl⟩

theorem read_exponent {power : Text} {exponent : Int} (reads : ExponentOf power exponent) :
    readExponent power = some exponent := by
  cases reads with
  | none => rfl
  | @power c sign digits negative letter signed some each =>
      have unsigned : ∀ d, digits.head? = .some d → d ≠ '-'.toNat ∧ d ≠ '+'.toNat := by
        intro d first
        exact digit_ne_sign (List.all_eq_true.mp each d (List.mem_of_head? first))
      unfold readExponent
      rw [List.cons_append]
      dsimp only
      rw [if_pos letter, cut_sign signed unsigned, if_pos ⟨some, each⟩]

theorem exponent_of_read {power : Text} {exponent : Int} (read : readExponent power = some exponent) :
    ExponentOf power exponent := by
  cases power with
  | nil =>
      cases read
      exact .none
  | cons c rest =>
      obtain ⟨sign, signed, cut⟩ := sign_of_cut rest
      unfold readExponent at read
      dsimp only at read
      split at read
      · rename_i letter
        split at read
        · rename_i digits
          cases read
          rw [congrArg (c :: ·) cut]
          exact .power letter signed digits.1 digits.2
        · cases read
      · cases read

theorem exponent_stops {power : Text} {exponent : Int} (reads : ExponentOf power exponent) :
    StopsDigits power := by
  cases reads with
  | none => nofun
  | power letter _ _ _ =>
      rintro c ⟨⟩
      rcases letter with rfl | rfl
      · rfl
      · rfl

theorem exponent_no_point {power : Text} {exponent : Int} (reads : ExponentOf power exponent) :
    cutFraction power = ([], power) := by
  cases reads with
  | none => rfl
  | power letter _ _ _ =>
      rcases letter with rfl | rfl
      · rfl
      · rfl

theorem cut_fraction {point fraction power : Text} {exponent : Int}
    (part : FractionOf point fraction) (reads : ExponentOf power exponent) :
    cutFraction (point ++ power) = (fraction, power) := by
  cases part with
  | none => exact exponent_no_point reads
  | point each =>
      obtain ⟨taken, left⟩ := cut_digits each (exponent_stops reads)
      exact Prod.ext taken left

theorem fraction_stops {point fraction power : Text} {exponent : Int}
    (part : FractionOf point fraction) (reads : ExponentOf power exponent) :
    StopsDigits (point ++ power) := by
  cases part with
  | none => exact exponent_stops reads
  | point each =>
      rintro c ⟨⟩
      rfl

theorem read_number {whole point fraction power : Text} {exponent : Int} (digits : whole.all isDigit)
    (part : FractionOf point fraction) (some : whole ++ fraction ≠ [])
    (reads : ExponentOf power exponent) :
    readNumber (whole ++ (point ++ power)) =
      .some (digitsValue (whole ++ fraction), exponent - fraction.length) := by
  obtain ⟨taken, left⟩ := cut_digits digits (fraction_stops part reads)
  unfold readNumber
  rw [taken, left, cut_fraction part reads]
  dsimp only
  rw [if_neg some, read_exponent reads]
  rfl

theorem fraction_of_cut (source : Text) : ∃ point, FractionOf point (cutFraction source).1 ∧
    source = point ++ (cutFraction source).2 := by
  cases source with
  | nil => exact ⟨[], .none, rfl⟩
  | cons c rest =>
      unfold cutFraction
      dsimp only
      split
      · rename_i point
        subst point
        refine ⟨_, .point List.all_takeWhile, ?_⟩
        exact congrArg _ List.takeWhile_append_dropWhile.symm
      · exact ⟨[], .none, rfl⟩

theorem number_of_read {source : Text} {coefficient : Nat} {exponent : Int}
    (read : readNumber source = some (coefficient, exponent)) :
    ∃ whole point fraction power written, whole.all isDigit ∧ FractionOf point fraction ∧
      whole ++ fraction ≠ [] ∧ ExponentOf power written ∧ source = whole ++ (point ++ power) ∧
      coefficient = digitsValue (whole ++ fraction) ∧ exponent = written - fraction.length := by
  obtain ⟨point, part, cut⟩ := fraction_of_cut (source.dropWhile isDigit)
  unfold readNumber at read
  dsimp only at read
  split at read
  · cases read
  · rename_i some
    obtain ⟨written, reads, made⟩ := Option.map_eq_some_iff.mp read
    cases made
    refine ⟨_, point, _, _, written, List.all_takeWhile, part, some, exponent_of_read reads, ?_, rfl,
      rfl⟩
    rw [← cut, List.takeWhile_append_dropWhile]

theorem number_head {whole point fraction power : Text} (digits : whole.all isDigit)
    (part : FractionOf point fraction) (some : whole ++ fraction ≠ []) :
    ∃ c rest, whole ++ (point ++ power) = c :: rest ∧ (isDigit c = true ∨ c = '.'.toNat) := by
  cases whole with
  | cons c whole =>
      rw [List.all_cons, Bool.and_eq_true] at digits
      exact ⟨c, _, rfl, .inl digits.1⟩
  | nil =>
      cases part with
      | none => exact absurd rfl some
      | point each => exact ⟨_, _, rfl, .inr rfl⟩

theorem lower_digit {c : Nat} (first : isDigit c = true ∨ c = '.'.toNat) :
    asciiLower c = c ∧ c ∉ text "ins" ∧ c ≠ '-'.toNat ∧ c ≠ '+'.toNat := by
  have bounds : 46 ≤ c ∧ c ≤ 57 := by
    rcases first with digit | rfl
    · simp only [isDigit, Bool.and_eq_true, decide_eq_true_eq] at digit
      have bounds : 48 ≤ c ∧ c ≤ 57 := digit
      omega
    · decide
  have upper : ¬ ('A'.toNat ≤ c ∧ c ≤ 'Z'.toNat) := by
    change ¬ (65 ≤ c ∧ c ≤ 90)
    omega
  refine ⟨if_neg upper, ?_, ?_⟩
  · intro member
    change c ∈ [105, 110, 115] at member
    simp only [List.mem_cons, List.not_mem_nil, or_false] at member
    omega
  · change c ≠ 45 ∧ c ≠ 43
    omega

namespace Decimal

theorem of_ascii_number {sign body : Text} {negative : Bool} (signed : SignOf sign negative)
    {c : Nat} {rest : Text} (first : body = c :: rest) (starts : isDigit c = true ∨ c = '.'.toNat) :
    ofAscii (sign ++ body) =
      match readNumber body with
      | none => none
      | some (coefficient, exponent) =>
          if representable coefficient exponent then some (.finite negative coefficient exponent)
          else none := by
  obtain ⟨same, letter, unsigned⟩ := lower_digit starts
  have cut : cutSign (sign ++ body) = (negative, body) := by
    apply cut_sign signed
    rw [first]
    rintro d ⟨⟩
    exact unsigned
  have head : (body.map asciiLower).head? = some c := by
    rw [first, List.map_cons, same]
    rfl
  have absent : ∀ d ∈ text "ins", (body.map asciiLower).head? ≠ some d := by
    intro d member equal
    rw [head] at equal
    exact letter (Option.some.inj equal ▸ member)
  have word (n : Nat) (word : Text) (d : Nat) (member : d ∈ text "ins")
      (starts : word.head? = some d) : ¬ (body.map asciiLower).take (n + 1) = word := by
    intro equal
    apply absent d member
    rw [← starts, ← equal, List.head?_take, if_neg (Nat.succ_ne_zero n)]
  unfold ofAscii
  rw [cut]
  dsimp only
  rw [if_neg, if_neg, if_neg]
  · exact fun equal => word 3 _ _ (by decide) rfl equal.1
  · exact fun equal => word 2 _ _ (by decide) rfl equal.1
  · rintro (equal | equal)
    · exact absent 'i'.toNat (by decide) (congrArg List.head? equal)
    · exact absent 'i'.toNat (by decide) (congrArg List.head? equal)

/-- What is read are the numbers of the grammar, as far as they are representable. -/
theorem of_ascii_finite {source : Text} {negative : Bool} {coefficient : Nat} {exponent : Int} :
    ofAscii source = some (.finite negative coefficient exponent) ↔
      NumeralOf source negative coefficient exponent ∧ representable coefficient exponent := by
  constructor
  · intro read
    obtain ⟨sign, signed, cut⟩ := sign_of_cut source
    unfold ofAscii at read
    generalize cutSign source = parts at *
    obtain ⟨negative, body⟩ := parts
    dsimp only at read signed cut
    split at read
    · cases read
    · split at read
      · cases read
      · split at read
        · cases read
        · split at read
          · cases read
          · rename_i c e number
            split at read
            · rename_i fits
              cases read
              obtain ⟨whole, point, fraction, power, written, digits, part, some, reads, same, made,
                shifted⟩ := number_of_read number
              rw [cut, same, made, shifted]
              rw [made, shifted] at fits
              exact ⟨.number signed digits part some reads, fits⟩
            · cases read
  · rintro ⟨numeral, fits⟩
    cases numeral with
    | number signed digits part some reads =>
        obtain ⟨c, rest, first, starts⟩ := number_head digits part some
        rw [of_ascii_number signed first starts, read_number digits part some reads]
        dsimp only
        rw [if_pos fits]

end Decimal

/-! What is written is read. -/

theorem decimal_all_digits (n : Nat) : (decimal n).all isDigit = true :=
  List.all_eq_true.mpr fun _ member => decimal_digits member

theorem decimal_ne_nil (n : Nat) : decimal n ≠ [] := by
  obtain ⟨c, rest, cut⟩ := decimal_cons n
  rw [cut]
  exact List.cons_ne_nil c rest

theorem exponent_text (shift : Int) : ExponentOf (Decimal.exponentText shift) shift := by
  unfold Decimal.exponentText
  split
  · rename_i zero
    rw [zero]
    exact .none
  · split
    · rename_i below
      have written := @ExponentOf.power 'E'.toNat (text "-") (decimal (-shift).toNat) true
        (.inr rfl) .minus (decimal_ne_nil _) (decimal_all_digits _)
      rw [if_pos rfl, digits_value_decimal] at written
      have value : -((-shift).toNat : Int) = shift := by omega
      rw [value] at written
      exact written
    · have written := @ExponentOf.power 'E'.toNat (text "+") (decimal shift.toNat) false
        (.inr rfl) .plus (decimal_ne_nil _) (decimal_all_digits _)
      rw [if_neg Bool.false_ne_true, digits_value_decimal] at written
      have value : (shift.toNat : Int) = shift := by omega
      rw [value] at written
      exact written

/-- The point moves no digit. -/
theorem place_point {digits : Text} (all : digits.all isDigit) (some : digits ≠ [])
    {dotPlace : Int} (inside : dotPlace ≤ digits.length) :
    ∃ whole point fraction, Decimal.placePoint digits dotPlace = whole ++ point ∧
      whole.all isDigit ∧ FractionOf point fraction ∧ whole ++ fraction ≠ [] ∧
      digitsValue (whole ++ fraction) = digitsValue digits ∧
      (fraction.length : Int) = digits.length - dotPlace := by
  unfold Decimal.placePoint
  split
  · refine ⟨text "0", _, List.replicate (-dotPlace).toNat '0'.toNat ++ digits, ?_, by decide,
      .point ?_, List.cons_ne_nil _ _, ?_, ?_⟩
    · exact List.append_assoc (text "0.") _ _
    · rw [List.all_append, all, Bool.and_true, List.all_eq_true]
      intro c member
      rw [List.eq_of_mem_replicate member]
      decide
    · exact digits_value_zeros ((-dotPlace).toNat + 1) digits
    · rw [List.length_append, List.length_replicate]
      omega
  · split
    · have none : (dotPlace - digits.length).toNat = 0 := by omega
      rw [none]
      refine ⟨digits, [], [], rfl, all, .none, ?_, ?_, ?_⟩
      · rw [List.append_nil]
        exact some
      · rw [List.append_nil]
      · rw [List.length_nil]
        omega
    · have split : digits.take dotPlace.toNat ++ digits.drop dotPlace.toNat = digits :=
        List.take_append_drop _ _
      refine ⟨digits.take dotPlace.toNat, _, digits.drop dotPlace.toNat, List.append_assoc _ _ _, ?_,
        .point ?_, ?_, ?_, ?_⟩
      · exact List.all_eq_true.mpr fun c member =>
          List.all_eq_true.mp all c (List.mem_of_mem_take member)
      · exact List.all_eq_true.mpr fun c member =>
          List.all_eq_true.mp all c (List.mem_of_mem_drop member)
      · rw [split]
        exact some
      · rw [split]
      · rw [List.length_drop]
        omega

theorem sign_text (negative : Bool) : SignOf (Decimal.signText negative) negative := by
  cases negative with
  | false => exact .none
  | true => exact .minus

theorem str_numeral (negative : Bool) (coefficient : Nat) (exponent : Int) :
    NumeralOf (Decimal.finite negative coefficient exponent).str negative coefficient exponent := by
  unfold Decimal.str
  dsimp only
  have long : 1 ≤ (decimal coefficient).length :=
    List.length_pos_iff.mpr (decimal_ne_nil coefficient)
  generalize placed : (if exponent ≤ 0 ∧ -6 < exponent + ((decimal coefficient).length : Int) then
    exponent + (decimal coefficient).length else 1) = dotPlace
  have inside : dotPlace ≤ (decimal coefficient).length := by
    rw [← placed]
    split
    · omega
    · omega
  obtain ⟨whole, point, fraction, cut, digits, part, some, value, length⟩ :=
    place_point (decimal_all_digits coefficient) (decimal_ne_nil coefficient) inside
  have number := NumeralOf.number (sign_text negative) digits part some
    (exponent_text (exponent + (decimal coefficient).length - dotPlace))
  have shifted : exponent + (decimal coefficient).length - dotPlace - fraction.length = exponent := by
    omega
  rw [value, digits_value_decimal, shifted, ← List.append_assoc whole, ← cut] at number
  exact number

/-- The characters that a numeric string keeps as they are. -/
def Kept (c : Nat) : Prop := 0 < c ∧ c < 128 ∧ isSpace c = false ∧ c ≠ '_'.toNat

theorem digit_kept {c : Nat} (digit : isDigit c = true) : Kept c := by
  simp only [isDigit, Bool.and_eq_true, decide_eq_true_eq] at digit
  have bounds : 48 ≤ c ∧ c ≤ 57 := digit
  refine ⟨by omega, by omega, ?_, ?_⟩
  · have all : ∀ c < 58, 48 ≤ c → isSpace c = false := by decide
    exact all c (by omega) bounds.1
  · change c ≠ 95
    omega

theorem numeric_ascii_kept {source : Text} (kept : ∀ c ∈ source, Kept c) :
    numericAscii source = some source := by
  unfold numericAscii strip
  rw [trim_absent fun c member => (kept c member).2.2.1,
    List.filter_eq_self.mpr fun c member => decide_eq_true (kept c member).2.2.2]
  induction source with
  | nil => rfl
  | cons c source ih =>
      obtain ⟨positive, ascii, _, _⟩ := kept c List.mem_cons_self
      rw [List.mapM_cons, if_pos ⟨positive, ascii⟩,
        ih fun d member => kept d (List.mem_cons_of_mem c member)]
      rfl

theorem numeral_kept {source : Text} {negative : Bool} {coefficient : Nat} {exponent : Int}
    (numeral : NumeralOf source negative coefficient exponent) : ∀ c ∈ source, Kept c := by
  have signs {sign : Text} {negative : Bool} (signed : SignOf sign negative) :
      ∀ c ∈ sign, Kept c := by
    cases signed with
    | none => nofun
    | plus => unfold Kept; decide
    | minus => unfold Kept; decide
  have digits {digits : Text} (all : digits.all isDigit) : ∀ c ∈ digits, Kept c :=
    fun c member => digit_kept (List.all_eq_true.mp all c member)
  cases numeral with
  | number signed whole part some power =>
      intro c member
      simp only [List.mem_append] at member
      rcases member with sign | inWhole | inPoint | inPower
      · exact signs signed c sign
      · exact digits whole c inWhole
      · cases part with
        | none => cases inPoint
        | point all =>
            rcases List.mem_cons.mp inPoint with rfl | after
            · unfold Kept
              decide
            · exact digits all c after
      · cases power with
        | none => cases inPower
        | power letter signed _ all =>
            rcases List.mem_append.mp inPower with front | after
            · rcases List.mem_cons.mp front with rfl | sign
              · rcases letter with rfl | rfl
                · unfold Kept
                  decide
                · unfold Kept
                  decide
              · exact signs signed c sign
            · exact digits all c after

theorem Decimal.of_text_str {negative : Bool} {coefficient : Nat} {exponent : Int}
    (fits : Decimal.representable coefficient exponent) :
    Decimal.ofText (Decimal.finite negative coefficient exponent).str =
      some (.finite negative coefficient exponent) := by
  have numeral := str_numeral negative coefficient exponent
  unfold Decimal.ofText
  rw [numeric_ascii_kept (numeral_kept numeral)]
  exact Decimal.of_ascii_finite.mpr ⟨numeral, fits⟩

end Yomochi.Foundation
