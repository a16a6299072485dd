import Yomochi.Foundation.Json

/-! `json.dumps` with `ensure_ascii`, for an object of strings, non-negative integers and
nulls, and what the reader makes of its text. -/

namespace Yomochi.Foundation

inductive JsonField
  | null
  | nat (value : Nat)
  | string (value : Text)
  deriving DecidableEq, Repr

/-- Lower-case. -/
def hexChar (digit : Nat) : Nat :=
  if digit < 10 then '0'.toNat + digit else 'a'.toNat + (digit - 10)

/-- The escapes of the writer; it leaves the solidus alone. -/
def writerEscapes : List (Nat × Nat) :=
  [('"'.toNat, '"'.toNat), ('\\'.toNat, '\\'.toNat), (10, 'n'.toNat), (13, 'r'.toNat),
    (9, 't'.toNat), (8, 'b'.toNat), (12, 'f'.toNat)]

def escapeUnit (unit : Nat) : Text :=
  match writerEscapes.lookup unit with
  | some short => ['\\'.toNat, short]
  | none =>
      if 32 ≤ unit ∧ unit ≤ 126 then [unit]
      else ['\\'.toNat, 'u'.toNat, hexChar (unit / 4096), hexChar (unit / 256 % 16),
        hexChar (unit / 16 % 16), hexChar (unit % 16)]

def dumpsString (source : Text) : Text :=
  '"'.toNat :: ((utf16 source).flatMap escapeUnit ++ ['"'.toNat])

def dumpsField : JsonField → Text
  | .null => text "null"
  | .nat value => decimal value
  | .string value => dumpsString value

def dumpsMember (member : Text × JsonField) : Text :=
  dumpsString member.1 ++ text ": " ++ dumpsField member.2

def dumpsRest : List (Text × JsonField) → Text
  | [] => ['}'.toNat]
  | member :: members => text ", " ++ dumpsMember member ++ dumpsRest members

def dumpsObject : List (Text × JsonField) → Text
  | [] => ['{'.toNat, '}'.toNat]
  | member :: members => '{'.toNat :: (dumpsMember member ++ dumpsRest members)

/-- The reader sees whether the unit was written as a `\u` escape. -/
def marked (unit : Nat) : Nat × Bool :=
  (unit, (escapeUnit unit).length == 6)

def readUnits (units : List Nat) : Text :=
  joinEscapes (units.map marked)

def CodePoints (source : Text) : Prop := ∀ c ∈ source, c < 0x110000

instance (source : Text) : Decidable (CodePoints source) :=
  inferInstanceAs (Decidable (∀ c ∈ source, c < 0x110000))

def Scalar (c : Nat) : Prop := c < 0xD800 ∨ 0xE000 ≤ c ∧ c < 0x110000

instance (c : Nat) : Decidable (Scalar c) := inferInstanceAs (Decidable (_ ∨ _))

/-- A text without lone surrogates, such as UTF-8 decodes to. -/
def Scalars (source : Text) : Prop := ∀ c ∈ source, Scalar c

instance (source : Text) : Decidable (Scalars source) :=
  inferInstanceAs (Decidable (∀ c ∈ source, Scalar c))

theorem code_points_of_scalars {source : Text} (scalars : Scalars source) : CodePoints source := by
  intro c member
  rcases scalars c member with low | high
  · omega
  · exact high.2

def readField : JsonField → Json
  | .null => .null
  | .nat value => .int value
  | .string value => .string (readUnits (utf16 value))

theorem hex_digit_char : ∀ digit < 16, hexDigit (hexChar digit) = some digit := by
  decide

theorem hex4_chars {unit : Nat} (bounded : unit < 0x10000) :
    hex4 (hexChar (unit / 4096)) (hexChar (unit / 256 % 16)) (hexChar (unit / 16 % 16))
      (hexChar (unit % 16)) = some unit := by
  have digits := And.intro (hex_digit_char (unit / 4096) (by omega))
    (And.intro (hex_digit_char (unit / 256 % 16) (by omega))
      (And.intro (hex_digit_char (unit / 16 % 16) (by omega))
        (hex_digit_char (unit % 16) (by omega))))
  simp only [hex4, List.mapM_cons, List.mapM_nil, digits, Option.bind_eq_bind, Option.bind_some,
    Option.pure_def, Option.map_some, ofDigits, List.foldl_cons, List.foldl_nil]
  congr 1
  omega

theorem scan_short {e short : Nat} (known : shortEscapes.lookup e = some short)
    (other : e ≠ 'u'.toNat) (rest : Text) :
    scanString ('\\'.toNat :: e :: rest) =
      (scanString rest).map fun scanned => ((short, false) :: scanned.1, scanned.2) := by
  rw [scanString.eq_def]
  have letter : ¬e = 117 := other
  cases scanned : scanString rest <;> simp [letter, known, scanned]

theorem scan_unicode {a b c d unit : Nat} (digits : hex4 a b c d = some unit) (rest : Text) :
    scanString ('\\'.toNat :: 'u'.toNat :: a :: b :: c :: d :: rest) =
      (scanString rest).map fun scanned => ((unit, true) :: scanned.1, scanned.2) := by
  rw [scanString.eq_def]
  cases scanned : scanString rest <;> simp [digits, scanned]

theorem scan_plain {unit : Nat} (printable : 32 ≤ unit) (quote : unit ≠ '"'.toNat)
    (backslash : unit ≠ '\\'.toNat) (rest : Text) :
    scanString (unit :: rest) =
      (scanString rest).map fun scanned => ((unit, false) :: scanned.1, scanned.2) := by
  rw [scanString.eq_def]
  have large : ¬unit < 32 := by omega
  have other : ¬unit = 34 ∧ ¬unit = 92 := ⟨quote, backslash⟩
  cases scanned : scanString rest <;> simp [other, large, scanned]

theorem scan_escape {unit : Nat} (bounded : unit < 0x10000) (rest : Text) :
    scanString (escapeUnit unit ++ rest) = (scanString rest).map fun scanned =>
      (marked unit :: scanned.1, scanned.2) := by
  by_cases short : unit ∈ [34, 92, 10, 13, 9, 8, 12]
  · simp only [List.mem_cons, List.not_mem_nil, or_false] at short
    rcases short with rfl | rfl | rfl | rfl | rfl | rfl | rfl <;>
      exact scan_short (by decide) (by decide) rest
  · have missing : writerEscapes.lookup unit = none := by
      simp only [List.mem_cons, List.not_mem_nil, or_false, not_or] at short
      simp [writerEscapes, List.lookup_eq_none_iff, short]
    simp only [List.mem_cons, List.not_mem_nil, or_false, not_or] at short
    by_cases plain : 32 ≤ unit ∧ unit ≤ 126
    · simpa [marked, escapeUnit, missing, plain] using scan_plain plain.1 short.1 short.2.1 rest
    · simpa [marked, escapeUnit, missing, plain] using scan_unicode (hex4_chars bounded) rest

theorem scan_units {units : List Nat} (bounded : ∀ unit ∈ units, unit < 0x10000)
    (rest : Text) :
    scanString (units.flatMap escapeUnit ++ '"'.toNat :: rest) =
      some (units.map marked, rest) := by
  induction units with
  | nil =>
      rw [List.flatMap_nil, List.nil_append, scanString.eq_def]
      rfl
  | cons unit units ih =>
      rw [List.flatMap_cons, List.append_assoc, scan_escape (bounded unit (by simp)),
        ih fun other member => bounded other (by simp [member])]
      rfl

theorem code_units_bounded {c : Nat} (valid : c < 0x110000) :
    ∀ unit ∈ codeUnits c, unit < 0x10000 := by
  intro unit member
  unfold codeUnits at member
  split at member
  · simp only [List.mem_singleton] at member
    omega
  · simp only [List.mem_cons, List.not_mem_nil, or_false] at member
    omega

theorem utf16_bounded {source : Text} (valid : CodePoints source) :
    ∀ unit ∈ utf16 source, unit < 0x10000 := by
  intro unit member
  obtain ⟨c, inside, member⟩ := List.mem_flatMap.mp member
  exact code_units_bounded (valid c inside) unit member

theorem code_units_small {c : Nat} (small : c < 0x10000) : codeUnits c = [c] := by
  simp [codeUnits, small]

theorem code_units_join {high low : Nat} (first : isHighSurrogate high = true)
    (second : isLowSurrogate low = true) :
    codeUnits (joinSurrogates high low) = [high, low] := by
  simp only [isHighSurrogate, isLowSurrogate, Bool.and_eq_true, decide_eq_true_eq] at first second
  have value : joinSurrogates high low =
      0x10000 + (high - 0xD800) * 1024 + (low - 0xDC00) := rfl
  have upper : 0xD800 + (joinSurrogates high low - 0x10000) / 1024 = high := by omega
  have lower : 0xDC00 + (joinSurrogates high low - 0x10000) % 1024 = low := by omega
  have large : ¬joinSurrogates high low < 0x10000 := by omega
  rw [codeUnits, if_neg large, upper, lower]

/-- A reader that keeps the code units gets back what was written. -/
theorem utf16_join (units : List (Nat × Bool)) (bounded : ∀ unit ∈ units, unit.1 < 0x10000) :
    utf16 (joinEscapes units) = units.map Prod.fst := by
  fun_induction joinEscapes units with
  | case1 high low rest surrogates ih =>
      simp only [Bool.and_eq_true] at surrogates
      have tail := ih fun unit member => bounded unit (by simp [member])
      simpa [utf16, code_units_join surrogates.1 surrogates.2] using tail
  | case2 high low rest surrogates ih =>
      have tail := ih fun unit member => bounded unit (by simp at member ⊢; tauto)
      simpa [utf16, code_units_small (bounded (high, true) (by simp))] using tail
  | case3 c flag rest other ih =>
      have tail := ih fun unit member => bounded unit (by simp [member])
      simpa [utf16, code_units_small (bounded (c, flag) (by simp))] using tail
  | case4 => rfl

theorem utf16_read {source : Text} (valid : CodePoints source) :
    utf16 (readUnits (utf16 source)) = utf16 source := by
  have bounded := utf16_bounded valid
  rw [readUnits, utf16_join]
  · rw [List.map_map]
    exact List.map_id' _
  · intro unit member
    obtain ⟨original, inside, rfl⟩ := List.mem_map.mp member
    exact bounded original inside

theorem surrogate_marked {unit : Nat} (surrogate : 0xD800 ≤ unit) :
    marked unit = (unit, true) := by
  have missing : writerEscapes.lookup unit = none := by
    simp only [writerEscapes, List.lookup_eq_none_iff]
    intro entry member
    simp only [List.mem_cons, List.not_mem_nil, or_false] at member
    rcases member with rfl | rfl | rfl | rfl | rfl | rfl | rfl <;> simp <;> omega
  have large : ¬unit ≤ 126 := by omega
  simp [marked, escapeUnit, missing, large]

theorem join_single {c : Nat} (low : isHighSurrogate c = false) (flag : Bool)
    (rest : List (Nat × Bool)) :
    joinEscapes ((c, flag) :: rest) = c :: joinEscapes rest := by
  cases flag with
  | false => simp [joinEscapes]
  | true =>
      cases rest with
      | nil => simp [joinEscapes]
      | cons next rest =>
          obtain ⟨d, flag⟩ := next
          cases flag <;> simp [joinEscapes, low]

/-- A text without surrogates comes back as it was. -/
theorem read_units {source : Text} (scalars : Scalars source) :
    readUnits (utf16 source) = source := by
  induction source with
  | nil => rfl
  | cons c source ih =>
      have scalar : c < 0xD800 ∨ 0xE000 ≤ c ∧ c < 0x110000 := scalars c (by simp)
      have high : isHighSurrogate c = false := by
        simp only [isHighSurrogate, Bool.and_eq_false_iff, decide_eq_false_iff_not]
        omega
      have tail := ih fun other member => scalars other (by simp [member])
      have cut : utf16 (c :: source) = codeUnits c ++ utf16 source := rfl
      by_cases small : c < 0x10000
      · rw [cut, code_units_small small]
        simpa [readUnits, marked, join_single high] using tail
      · have first : isHighSurrogate (0xD800 + (c - 0x10000) / 1024) = true := by
          simp only [isHighSurrogate, Bool.and_eq_true, decide_eq_true_eq]
          omega
        have second : isLowSurrogate (0xDC00 + (c - 0x10000) % 1024) = true := by
          simp only [isLowSurrogate, Bool.and_eq_true, decide_eq_true_eq]
          omega
        have joined : joinSurrogates (0xD800 + (c - 0x10000) / 1024)
            (0xDC00 + (c - 0x10000) % 1024) = c := by
          unfold joinSurrogates
          omega
        rw [cut, codeUnits, if_neg small]
        simp only [readUnits, List.cons_append, List.nil_append, List.map_cons]
        rw [surrogate_marked (by omega), surrogate_marked (by omega)]
        simpa [joinEscapes, first, second, joined, readUnits] using tail

section Tokens

variable {dialect : Dialect}

theorem tokens_skip (front rest : Text) :
    tokensFrom dialect front.length (front ++ rest) = tokensFrom dialect 0 rest := by
  induction front with
  | nil => rfl
  | cons c front ih => exact ih

theorem tokens_cons {c : Nat} (front : Text) {rest : Text} {token : Token} (visible : isBlank c = false)
    (scanned : scanToken dialect (c :: (front ++ rest)) = (token, rest)) :
    tokensFrom dialect 0 (c :: (front ++ rest)) = token :: tokensFrom dialect 0 rest := by
  have length : (front ++ rest).length - rest.length = front.length := by simp
  rw [tokensFrom.eq_def]
  simp only [visible, scanned, length, tokens_skip]
  rfl

theorem tokens_blank {c : Nat} (blank : isBlank c = true) (rest : Text) :
    tokensFrom dialect 0 (c :: rest) = tokensFrom dialect 0 rest := by
  rw [tokensFrom.eq_def]
  simp [blank]

theorem tokens_punctuation {c : Nat} (token : Token) (visible : isBlank c = false)
    (known : punctuation.lookup c = some token) (rest : Text) :
    tokensFrom dialect 0 (c :: rest) = token :: tokensFrom dialect 0 rest := by
  apply tokens_cons [] visible
  simp [scanToken, known]

theorem tokens_string {source : Text} (valid : CodePoints source) (rest : Text) :
    tokensFrom dialect 0 (dumpsString source ++ rest) =
      .string (readUnits (utf16 source)) :: tokensFrom dialect 0 rest := by
  apply tokens_cons _ (by decide)
  have unknown : punctuation.lookup '"'.toNat = none := rfl
  have inner := scan_units (utf16_bounded valid) rest
  rw [List.append_assoc, scanToken]
  simp only [unknown, if_true, List.cons_append, List.nil_append, inner]
  rfl

/-- What may follow a number that the writer has written. -/
def Delimited (rest : Text) : Prop :=
  rest.head? = some ','.toNat ∨ rest.head? = some '}'.toNat

theorem scan_fraction_none {rest : Text} (delimited : Delimited rest) :
    scanFraction rest = (none, rest) := by
  cases rest with
  | nil => rfl
  | cons c rest =>
      rcases delimited with comma | brace
      · cases Option.some.inj comma
        simp [scanFraction]
      · cases Option.some.inj brace
        simp [scanFraction]

theorem scan_exponent_none {rest : Text} (delimited : Delimited rest) :
    scanExponent rest = (none, rest) := by
  cases rest with
  | nil => rfl
  | cons c rest =>
      rcases delimited with comma | brace
      · cases Option.some.inj comma
        simp [scanExponent]
      · cases Option.some.inj brace
        simp [scanExponent]

theorem take_decimal (value : Nat) {rest : Text} (delimited : Delimited rest) :
    (decimal value ++ rest).takeWhile isDigit = decimal value := by
  rw [List.takeWhile_append_of_pos fun c member => decimal_digits member]
  cases rest with
  | nil => simp
  | cons c rest =>
      rcases delimited with comma | brace
      · cases Option.some.inj comma
        simp [isDigit]
      · cases Option.some.inj brace
        simp [isDigit]

theorem scan_number (value : Nat) (fits : ∀ most ∈ dialect.maxDigits, (decimal value).length ≤ most)
    {rest : Text} (delimited : Delimited rest) :
    scanNumber dialect false (decimal value ++ rest) = (.value (.int value), rest) := by
  obtain ⟨c, digits, cut⟩ := decimal_cons value
  have whole : (if (decimal value ++ rest).head? = some '0'.toNat then (decimal value).take 1
      else decimal value) = decimal value := by
    split
    · rename_i head
      rw [decimal_zero_head (by simpa [cut] using head)]
      rfl
    · rfl
  have short : dialect.maxDigits.any (fun most => decide (most < (decimal value).length)) = false := by
    cases limit : dialect.maxDigits with
    | none => rfl
    | some most => simpa using fits most limit
  simp only [scanNumber, take_decimal value delimited, whole, List.drop_left,
    scan_fraction_none delimited, scan_exponent_none delimited, short,
    digits_value_decimal]
  simp

theorem tokens_nat (value : Nat) (fits : ∀ most ∈ dialect.maxDigits, (decimal value).length ≤ most)
    {rest : Text} (delimited : Delimited rest) :
    tokensFrom dialect 0 (decimal value ++ rest) =
      .value (.int value) :: tokensFrom dialect 0 rest := by
  obtain ⟨c, digits, cut⟩ := decimal_cons value
  have digit : isDigit c = true := decimal_digits (n := value) (cut ▸ List.mem_cons_self)
  have scanned := scan_number value fits delimited
  rw [cut] at scanned ⊢
  have range : 48 ≤ c ∧ c ≤ 57 := by simpa [isDigit] using digit
  apply tokens_cons digits
  · simp [isBlank]
    omega
  · have unknown : punctuation.lookup c = none := by
      simp only [punctuation, List.lookup_eq_none_iff]
      intro entry member
      simp only [List.mem_cons, List.not_mem_nil, or_false] at member
      rcases member with rfl | rfl | rfl | rfl | rfl | rfl <;> simp <;> omega
    have quote : c ≠ '"'.toNat := by
      intro same
      simp [same] at range
    rw [scanToken]
    simp only [unknown, quote, if_false, digit, if_true]
    exact scanned

def Writable (dialect : Dialect) : JsonField → Prop
  | .null => True
  | .nat value => ∀ most ∈ dialect.maxDigits, (decimal value).length ≤ most
  | .string value => CodePoints value

def fieldToken : JsonField → Token
  | .null => .value .null
  | .nat value => .value (.int value)
  | .string value => .string (readUnits (utf16 value))

theorem tokens_null (rest : Text) :
    tokensFrom dialect 0 (text "null" ++ rest) = .value .null :: tokensFrom dialect 0 rest := by
  apply tokens_cons (text "ull") (by decide)
  rfl

theorem tokens_field {field : JsonField} (writable : Writable dialect field) {rest : Text}
    (delimited : Delimited rest) :
    tokensFrom dialect 0 (dumpsField field ++ rest) =
      fieldToken field :: tokensFrom dialect 0 rest := by
  cases field with
  | null => exact tokens_null rest
  | nat value => exact tokens_nat value writable delimited
  | string value => exact tokens_string writable rest

theorem tokens_member {member : Text × JsonField} (key : CodePoints member.1)
    (writable : Writable dialect member.2) {rest : Text} (delimited : Delimited rest) :
    tokensFrom dialect 0 (dumpsMember member ++ rest) =
      .string (readUnits (utf16 member.1)) :: .colon :: fieldToken member.2 ::
        tokensFrom dialect 0 rest := by
  have separator (tail : Text) : text ": " ++ tail = ':'.toNat :: ' '.toNat :: tail := rfl
  rw [dumpsMember, List.append_assoc, List.append_assoc, tokens_string key, separator,
    tokens_punctuation .colon (by decide) rfl, tokens_blank (by decide),
    tokens_field writable delimited]

theorem rest_delimited (members : List (Text × JsonField)) (rest : Text) :
    Delimited (dumpsRest members ++ rest) := by
  cases members with
  | nil => exact .inr rfl
  | cons member members => exact .inl rfl

end Tokens

def readMembers (members : List (Text × JsonField)) : List (Text × Json) :=
  members.map fun member => (readUnits (utf16 member.1), readField member.2)

def WritableMembers (dialect : Dialect) (members : List (Text × JsonField)) : Prop :=
  ∀ member ∈ members, CodePoints member.1 ∧ Writable dialect member.2

section Reading

variable {dialect : Dialect}

theorem read_member (done : List (Text × Json)) (key : Text) (field : JsonField)
    (tokens : List Token) :
    (Token.string key :: .colon :: fieldToken field :: tokens).foldlM (Reader.step dialect)
        ⟨[], .key done⟩ =
      tokens.foldlM (Reader.step dialect) ⟨[.object done key], .after (readField field)⟩ := by
  cases field <;> rfl

theorem read_rest {members : List (Text × JsonField)}
    (writable : WritableMembers dialect members) (done : List (Text × Json)) (key : Text)
    (value : Json) :
    (tokensFrom dialect 0 (dumpsRest members)).foldlM (Reader.step dialect)
        ⟨[.object done key], .after value⟩ =
      .ok ⟨[], .after (.object (done ++ (key, value) :: readMembers members))⟩ := by
  induction members generalizing done key value with
  | nil => rfl
  | cons member members ih =>
      obtain ⟨name, field⟩ := writable member (by simp)
      have tail := ih fun other inside => writable other (by simp [inside])
      have delimited := rest_delimited members []
      rw [List.append_nil] at delimited
      have comma (tail : Text) : text ", " ++ tail = ','.toNat :: ' '.toNat :: tail := rfl
      rw [dumpsRest, List.append_assoc, comma,
        tokens_punctuation .comma (by decide) rfl, tokens_blank (by decide),
        tokens_member name field delimited]
      change (Token.string _ :: _).foldlM (Reader.step dialect)
        ⟨[], .key (done ++ [(key, value)])⟩ = _
      rw [read_member, tail]
      simp [readMembers]

theorem loads_dumps {members : List (Text × JsonField)}
    (writable : WritableMembers dialect members) (deep : dialect.maxDepth ≠ some 0) :
    loads dialect (dumpsObject members) = .ok (.object (readMembers members)) := by
  have opened : Reader.step dialect ⟨[], .value⟩ .openBrace = .ok ⟨[], .firstKey⟩ := by
    cases limit : dialect.maxDepth with
    | none => simp [Reader.step, Reader.start, limit]
    | some most =>
        have positive : most ≠ 0 := fun zero => deep (by rw [limit, zero])
        simp [Reader.step, Reader.start, limit, positive]
  cases members with
  | nil =>
      rw [loads, dumpsObject, tokens_punctuation .openBrace (by decide) rfl,
        List.foldlM_cons, opened]
      rfl
  | cons member members =>
      obtain ⟨name, field⟩ := writable member (by simp)
      have others : WritableMembers dialect members := fun other inside =>
        writable other (by simp [inside])
      have tail := read_rest others
      have delimited := rest_delimited members []
      rw [List.append_nil] at delimited
      rw [loads, dumpsObject,
        tokens_punctuation .openBrace (by decide) rfl,
        tokens_member name field delimited, List.foldlM_cons, opened]
      change (do Reader.finish (← (Token.string _ :: _).foldlM (Reader.step dialect)
        ⟨[], .key []⟩)) = _
      rw [read_member, tail]
      rfl

end Reading

/-! The writer's texts are printable ASCII. -/

def Printable (source : Text) : Prop := ∀ c ∈ source, 32 ≤ c ∧ c < 127

instance (source : Text) : Decidable (Printable source) :=
  inferInstanceAs (Decidable (∀ c ∈ source, 32 ≤ c ∧ c < 127))

theorem printable_append {first second : Text} (one : Printable first) (two : Printable second) :
    Printable (first ++ second) := by
  intro c member
  exact (List.mem_append.mp member).elim (one c) (two c)

theorem printable_cons {c : Nat} {rest : Text} (first : 32 ≤ c ∧ c < 127)
    (others : Printable rest) : Printable (c :: rest) :=
  List.forall_mem_cons.mpr ⟨first, others⟩

theorem hex_char_printable : ∀ digit < 16, 32 ≤ hexChar digit ∧ hexChar digit < 127 := by
  decide

theorem escape_unit_printable {unit : Nat} (bounded : unit < 0x10000) :
    Printable (escapeUnit unit) := by
  have shorts : ∀ entry ∈ writerEscapes, 32 ≤ entry.2 ∧ entry.2 < 127 := by decide
  unfold escapeUnit
  split
  · rename_i short found
    obtain ⟨_, _, entries, _⟩ := List.lookup_eq_some_iff.mp found
    have printable := shorts (unit, short) (by rw [entries]; simp)
    exact printable_cons (by decide) (printable_cons printable nofun)
  · split
    · exact printable_cons (by omega) nofun
    · refine printable_cons (by decide) (printable_cons (by decide) ?_)
      have digits := hex_char_printable
      exact printable_cons (digits _ (by omega)) (printable_cons (digits _ (by omega))
        (printable_cons (digits _ (by omega)) (printable_cons (digits _ (by omega)) nofun)))

theorem dumps_string_printable {source : Text} (valid : CodePoints source) :
    Printable (dumpsString source) := by
  refine printable_cons (by decide) (printable_append ?_ (printable_cons (by decide) nofun))
  intro c member
  obtain ⟨unit, written, inside⟩ := List.mem_flatMap.mp member
  exact escape_unit_printable (utf16_bounded valid unit written) c inside

theorem decimal_printable (value : Nat) : Printable (decimal value) := by
  intro c member
  have digit := decimal_digits member
  simp only [isDigit, Bool.and_eq_true, decide_eq_true_eq] at digit
  exact ⟨Nat.le_trans (by decide) digit.1, Nat.lt_of_le_of_lt digit.2 (by decide)⟩

section Printing

variable {dialect : Dialect}

theorem dumps_member_printable {member : Text × JsonField} (key : CodePoints member.1)
    (writable : Writable dialect member.2) : Printable (dumpsMember member) := by
  obtain ⟨name, field⟩ := member
  refine printable_append (printable_append (dumps_string_printable key) (by decide)) ?_
  cases field with
  | null => exact (by decide : Printable (text "null"))
  | nat value => exact decimal_printable value
  | string value => exact dumps_string_printable writable

theorem dumps_rest_printable {members : List (Text × JsonField)}
    (writable : WritableMembers dialect members) : Printable (dumpsRest members) := by
  induction members with
  | nil => exact printable_cons (by decide) nofun
  | cons member members ih =>
      obtain ⟨⟨key, field⟩, others⟩ := List.forall_mem_cons.mp writable
      exact printable_append (printable_append (by decide) (dumps_member_printable key field))
        (ih others)

theorem dumps_object_printable {members : List (Text × JsonField)}
    (writable : WritableMembers dialect members) : Printable (dumpsObject members) := by
  cases members with
  | nil => exact printable_cons (by decide) (printable_cons (by decide) nofun)
  | cons member members =>
      obtain ⟨⟨key, field⟩, others⟩ := List.forall_mem_cons.mp writable
      exact printable_cons (by decide)
        (printable_append (dumps_member_printable key field) (dumps_rest_printable others))

end Printing

theorem dumps_rest_closed (members : List (Text × JsonField)) :
    ∃ front, dumpsRest members = front ++ ['}'.toNat] := by
  induction members with
  | nil => exact ⟨[], rfl⟩
  | cons member members ih =>
      obtain ⟨front, closed⟩ := ih
      refine ⟨text ", " ++ dumpsMember member ++ front, ?_⟩
      simp only [dumpsRest, closed, List.append_assoc]

theorem dumps_object_braces (members : List (Text × JsonField)) :
    ∃ inside, dumpsObject members = '{'.toNat :: (inside ++ ['}'.toNat]) := by
  cases members with
  | nil => exact ⟨[], rfl⟩
  | cons member members =>
      obtain ⟨front, closed⟩ := dumps_rest_closed members
      refine ⟨dumpsMember member ++ front, ?_⟩
      rw [dumpsObject, closed, List.append_assoc]

end Yomochi.Foundation
