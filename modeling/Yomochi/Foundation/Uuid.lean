import Mathlib.Order.Lattice
import Yomochi.Foundation.Numbers
import Yomochi.Foundation.Utf8

/-! `uuid.UUID`: its text, what it is read from, and the order of both. -/

namespace Yomochi.Foundation

structure UUID where
  int : Nat
  bounded : int < 340282366920938463463374607431768211456
  deriving DecidableEq

def UUID.nil : UUID := ⟨0, by decide⟩

def sixteens : Nat → Nat → List Nat
  | 0, _ => []
  | width + 1, n => sixteens width (n / 16) ++ [n % 16]

def dashed : List Nat → Text → Text
  | [], hex => hex
  | width :: widths, hex => hex.take width ++ '-'.toNat :: dashed widths (hex.drop width)

/-- `source.replace(pattern, "")`; so many characters of a pattern that was found are still to
be left out. -/
def without (pattern : Text) : Nat → Text → Text
  | _, [] => []
  | skip + 1, _ :: rest => without pattern skip rest
  | 0, c :: rest =>
      if pattern.isPrefixOf (c :: rest) then without pattern (pattern.length - 1) rest
      else c :: without pattern 0 rest

/-- Digits of base sixteen with single underscores between them. -/
def hexDigits (behind : Bool) : Text → Option (List Nat)
  | [] => if behind then some [] else none
  | c :: rest =>
      match hexDigit c with
      | some digit => (hexDigits true rest).map (digit :: ·)
      | none => if c = '_'.toNat ∧ behind then hexDigits false rest else none

def unsignedOfHex (source : Text) : Option Nat :=
  let body :=
    if source.take 2 = text "0x" ∨ source.take 2 = text "0X" then
      if (source.drop 2).head? = some '_'.toNat then source.drop 3 else source.drop 2
    else source
  (hexDigits false body).map (ofDigits 16)

/-- `int(text, 16)`; `none` is a `ValueError`. -/
def intOfHex (source : Text) : Option Int :=
  let body := (asciiNumeral source).dropWhile isAsciiBlank
  match (body.reverse.dropWhile isAsciiBlank).reverse with
  | c :: rest =>
      if c = '-'.toNat then (unsignedOfHex rest).map fun value => -(value : Int)
      else if c = '+'.toNat then (unsignedOfHex rest).map fun value => (value : Int)
      else (unsignedOfHex (c :: rest)).map fun value => (value : Int)
  | [] => none

namespace UUID

/-- `str(uuid)`, which is also PostgreSQL's `id::text`. -/
def str (uuid : UUID) : Text := dashed [8, 4, 4, 4] ((sixteens 32 uuid.int).map hexChar)

def isBrace (c : Nat) : Bool := c = '{'.toNat || c = '}'.toNat

/-- `UUID(text)`; `none` is a `ValueError`. -/
def ofText (source : Text) : Option UUID :=
  let plain := without (text "uuid:") 0 (without (text "urn:") 0 source)
  let inner := ((plain.dropWhile isBrace).reverse.dropWhile isBrace).reverse
  let hex := inner.filter (· ≠ '-'.toNat)
  if hex.length = 32 then
    match intOfHex hex with
    | some value =>
        if bounded : value.toNat < 340282366920938463463374607431768211456 then
          if 0 ≤ value then some ⟨value.toNat, bounded⟩ else none
        else none
    | none => none
  else none

theorem int_injective : Function.Injective int := by
  rintro ⟨one, _⟩ ⟨two, _⟩ same
  cases same
  rfl

instance : LinearOrder UUID := LinearOrder.lift' int int_injective

end UUID

/-! The text of a number. -/

theorem hex_char_digit : ∀ digit < 16, hexDigit (hexChar digit) = some digit ∧
    hexChar digit < 128 ∧ hexChar digit ∉ text "ux-+ " ∧ isAsciiBlank (hexChar digit) = false ∧
    hexChar digit ≠ 'X'.toNat ∧ UUID.isBrace (hexChar digit) = false := by
  decide

theorem sixteens_length (width n : Nat) : (sixteens width n).length = width := by
  induction width generalizing n with
  | zero => rfl
  | succ width ih => rw [sixteens, List.length_append, ih, List.length_singleton]

theorem sixteens_small {width n digit : Nat} (member : digit ∈ sixteens width n) : digit < 16 := by
  induction width generalizing n with
  | zero => cases member
  | succ width ih =>
      rcases List.mem_append.mp member with front | last
      · exact ih front
      · rw [List.mem_singleton.mp last]
        exact Nat.mod_lt _ (by decide)

theorem ofDigits_sixteens {width n : Nat} (fits : n < Nat.pow 16 width) :
    ofDigits 16 (sixteens width n) = n := by
  induction width generalizing n with
  | zero => exact (Nat.lt_one_iff.mp fits).symm
  | succ width ih =>
      have front : n / 16 < Nat.pow 16 width := Nat.div_lt_of_lt_mul (by
        rw [Nat.mul_comm]
        exact fits)
      have value := ih front
      unfold ofDigits at value ⊢
      rw [sixteens, List.foldl_append, value]
      exact Nat.div_add_mod' n 16

theorem hex_digits_chars {digits : List Nat} (small : ∀ digit ∈ digits, digit < 16) (behind : Bool)
    (some : behind = true ∨ digits ≠ []) :
    hexDigits behind (digits.map hexChar) = .some digits := by
  induction digits generalizing behind with
  | nil =>
      rcases some with rfl | none
      · rfl
      · exact absurd rfl none
  | cons digit digits ih =>
      obtain ⟨read, _⟩ := hex_char_digit digit (small digit (by simp))
      rw [List.map_cons, hexDigits, read]
      simp [ih (fun other member => small other (by simp [member])) true (.inl rfl)]

theorem int_of_hex_chars {digits : List Nat} (small : ∀ digit ∈ digits, digit < 16)
    (some : digits ≠ []) :
    intOfHex (digits.map hexChar) = .some (ofDigits 16 digits : Nat) := by
  have facts : ∀ c ∈ digits.map hexChar, c < 128 ∧ c ∉ text "ux-+ " ∧ isAsciiBlank c = false ∧
      c ≠ 'X'.toNat := by
    intro c member
    obtain ⟨digit, inside, rfl⟩ := List.mem_map.mp member
    obtain ⟨_, ascii, signs, blank, other, _⟩ := hex_char_digit digit (small digit inside)
    exact ⟨ascii, signs, blank, other⟩
  have ascii : asciiNumeral (digits.map hexChar) = digits.map hexChar :=
    if_pos (List.all_eq_true.mpr fun c member => by simpa using (facts c member).1)
  have read : unsignedOfHex (digits.map hexChar) = .some (ofDigits 16 digits) := by
    have plain : ¬ ((digits.map hexChar).take 2 = text "0x" ∨
        (digits.map hexChar).take 2 = text "0X") := by
      rintro (lower | upper)
      · have member : 'x'.toNat ∈ (digits.map hexChar).take 2 := by
          rw [lower]
          decide
        exact (facts _ (List.mem_of_mem_take member)).2.1 (by decide)
      · have member : 'X'.toNat ∈ (digits.map hexChar).take 2 := by
          rw [upper]
          decide
        exact (facts _ (List.mem_of_mem_take member)).2.2.2 rfl
    rw [unsignedOfHex, if_neg plain, hex_digits_chars small false (.inr some)]
    rfl
  cases digits with
  | nil => exact absurd rfl some
  | cons digit digits =>
      obtain ⟨_, signs, _⟩ := facts (hexChar digit) (by simp)
      have minus : hexChar digit ≠ '-'.toNat := fun same => signs (same ▸ by decide)
      have plus : hexChar digit ≠ '+'.toNat := fun same => signs (same ▸ by decide)
      rw [intOfHex, ascii, trim_absent fun c member => (facts c member).2.2.1]
      simp only [List.map_cons] at read ⊢
      rw [if_neg minus, if_neg plus, read]
      rfl

theorem mem_dashed {widths : List Nat} {hex : Text} {c : Nat} (member : c ∈ dashed widths hex) :
    c = '-'.toNat ∨ c ∈ hex := by
  induction widths generalizing hex with
  | nil => exact .inr member
  | cons width widths ih =>
      rcases List.mem_append.mp member with front | back
      · exact .inr (List.mem_of_mem_take front)
      · rcases List.mem_cons.mp back with dash | rest
        · exact .inl dash
        · exact (ih rest).imp_right List.mem_of_mem_drop

theorem dashed_length (widths : List Nat) (hex : Text) :
    (dashed widths hex).length = hex.length + widths.length := by
  induction widths generalizing hex with
  | nil => rfl
  | cons width widths ih =>
      rw [dashed, List.length_append, List.length_cons, ih, List.length_take, List.length_drop,
        List.length_cons]
      omega

theorem filter_dashed (widths : List Nat) {hex : Text} (absent : '-'.toNat ∉ hex) :
    (dashed widths hex).filter (· ≠ '-'.toNat) = hex := by
  induction widths generalizing hex with
  | nil =>
      refine List.filter_eq_self.mpr fun c member => ?_
      simpa using fun same : c = '-'.toNat => absent (same ▸ member)
  | cons width widths ih =>
      have front : (hex.take width).filter (· ≠ '-'.toNat) = hex.take width := by
        refine List.filter_eq_self.mpr fun c member => ?_
        simpa using fun same : c = '-'.toNat => absent (same ▸ List.mem_of_mem_take member)
      have rest : '-'.toNat ∉ hex.drop width := fun member => absent (List.mem_of_mem_drop member)
      have back := ih rest
      rw [dashed, List.filter_append, front, List.filter_cons_of_neg (by simp), back,
        List.take_append_drop]

theorem without_absent {first : Nat} {others source : Text} (absent : first ∉ source) :
    without (first :: others) 0 source = source := by
  induction source with
  | nil => rfl
  | cons c rest ih =>
      have different : (first :: others).isPrefixOf (c :: rest) = false := by
        rw [List.isPrefixOf, beq_eq_false_iff_ne.mpr fun same : first = c => absent (by simp [same]),
          Bool.false_and]
      rw [without, different, if_neg Bool.false_ne_true, ih fun member => absent (by simp [member])]

namespace UUID

theorem str_length (uuid : UUID) : uuid.str.length = 36 := by
  rw [str, dashed_length, List.length_map, sixteens_length]
  rfl

theorem hex_facts (uuid : UUID) : ∀ c ∈ (sixteens 32 uuid.int).map hexChar,
    c < 128 ∧ c ∉ text "ux-+ " ∧ isBrace c = false := by
  intro c member
  obtain ⟨digit, inside, rfl⟩ := List.mem_map.mp member
  obtain ⟨_, ascii, signs, _, _, brace⟩ := hex_char_digit digit (sixteens_small inside)
  exact ⟨ascii, signs, brace⟩

theorem str_facts (uuid : UUID) : ∀ c ∈ uuid.str, c < 128 ∧ c ≠ 'u'.toNat ∧ isBrace c = false := by
  intro c member
  rcases mem_dashed member with rfl | inside
  · decide
  · obtain ⟨ascii, signs, brace⟩ := uuid.hex_facts c inside
    exact ⟨ascii, fun same => signs (same ▸ by decide), brace⟩

theorem str_ascii (uuid : UUID) : Ascii uuid.str := fun c member => (uuid.str_facts c member).1

theorem of_text_str (uuid : UUID) : ofText uuid.str = some uuid := by
  have facts := uuid.str_facts
  have absent : 'u'.toNat ∉ uuid.str := fun member => (facts _ member).2.1 rfl
  have dash : '-'.toNat ∉ (sixteens 32 uuid.int).map hexChar := fun member =>
    (uuid.hex_facts _ member).2.1 (by decide)
  have nonempty : sixteens 32 uuid.int ≠ [] := fun empty => by
    have length := sixteens_length 32 uuid.int
    rw [empty] at length
    cases length
  have value := int_of_hex_chars (fun _ => sixteens_small) nonempty
  rw [ofDigits_sixteens uuid.bounded] at value
  have urn : without (text "urn:") 0 uuid.str = uuid.str := without_absent absent
  have scheme : without (text "uuid:") 0 uuid.str = uuid.str := without_absent absent
  unfold ofText
  dsimp only
  rw [urn, scheme, trim_absent fun c member => (facts c member).2.2, str, filter_dashed _ dash,
    if_pos (by rw [List.length_map, sixteens_length]), value]
  simp [uuid.bounded]

theorem str_injective : Function.Injective str := by
  intro one two same
  have read := congrArg ofText same
  rw [of_text_str, of_text_str] at read
  exact Option.some.inj read

end UUID

/-! The order of the texts. -/

theorem text_lt_dashed (widths : List Nat) {first second : Text}
    (same : first.length = second.length) :
    textLt (dashed widths first) (dashed widths second) = textLt first second := by
  induction widths generalizing first second with
  | nil => rfl
  | cons width widths ih =>
      have fronts : (first.take width).length = (second.take width).length := by simp [same]
      have backs : (first.drop width).length = (second.drop width).length := by simp [same]
      have dash (one two : Text) : textLt ('-'.toNat :: one) ('-'.toNat :: two) = textLt one two := by
        simp [textLt]
      rw [dashed, dashed, text_lt_append fronts, dash, ih backs, ← text_lt_append fronts,
        List.take_append_drop, List.take_append_drop]

theorem hex_char_mono : ∀ one < 16, ∀ two < 16,
    decide (hexChar one < hexChar two) = decide (one < two) := by
  decide

theorem sixteens_injective {width one two : Nat} (oneFits : one < Nat.pow 16 width)
    (twoFits : two < Nat.pow 16 width) :
    (sixteens width one).map hexChar = (sixteens width two).map hexChar ↔ one = two := by
  refine ⟨fun same => ?_, fun same => by rw [same]⟩
  have read (n : Nat) : ((sixteens width n).map hexChar).map hexDigit =
      (sixteens width n).map some := by
    rw [List.map_map]
    exact List.map_congr_left fun digit member => (hex_char_digit digit (sixteens_small member)).1
  have digits : (sixteens width one).map some = (sixteens width two).map some := by
    rw [← read, ← read, same]
  have equal := List.map_injective_iff.mpr (Option.some_injective Nat) digits
  rw [← ofDigits_sixteens oneFits, equal, ofDigits_sixteens twoFits]

theorem text_lt_sixteens {width one two : Nat} (oneFits : one < Nat.pow 16 width)
    (twoFits : two < Nat.pow 16 width) :
    textLt ((sixteens width one).map hexChar) ((sixteens width two).map hexChar) =
      decide (one < two) := by
  induction width generalizing one two with
  | zero =>
      have both := And.intro (Nat.lt_one_iff.mp oneFits) (Nat.lt_one_iff.mp twoFits)
      simp [both.1, both.2, sixteens, textLt]
  | succ width ih =>
      have oneFront : one / 16 < Nat.pow 16 width := Nat.div_lt_of_lt_mul (by
        rw [Nat.mul_comm]
        exact oneFits)
      have twoFront : two / 16 < Nat.pow 16 width := Nat.div_lt_of_lt_mul (by
        rw [Nat.mul_comm]
        exact twoFits)
      have last : textLt [hexChar (one % 16)] [hexChar (two % 16)] = decide (one % 16 < two % 16) := by
        rw [← hex_char_mono _ (Nat.mod_lt _ (by decide)) _ (Nat.mod_lt _ (by decide))]
        simp [textLt]
      rw [sixteens, sixteens, List.map_append, List.map_append,
        text_lt_append (by simp [sixteens_length]), ih oneFront twoFront,
        decide_eq_decide.mpr (sixteens_injective oneFront twoFront), List.map_singleton,
        List.map_singleton, last, ← Bool.decide_and, ← Bool.decide_or, decide_eq_decide]
      omega

/-- The texts are ordered by their code points as the identifiers are. -/
theorem UUID.text_lt_str (one two : UUID) : textLt one.str two.str = decide (one < two) := by
  rw [str, str, text_lt_dashed _ (by simp [sixteens_length]),
    text_lt_sixteens one.bounded two.bounded]
  rfl

end Yomochi.Foundation
