import Yomochi.Foundation.Float
import Yomochi.Foundation.Text

/-! JSON values, the reader of Python's `json.loads` (and of `JSON.parse`), and what
`json.dumps` writes for an object of strings, integers and nulls. -/

namespace Yomochi.Foundation

inductive Json
  | null
  | bool (value : Bool)
  | int (value : Int)
  | float (value : PyFloat)
  | string (value : Text)
  | array (items : List Json)
  | object (members : List (Text × Json))

/-- `JSONDecodeError` is for bad syntax, `ValueError` for an integer of too many digits. -/
inductive LoadsError
  | JSONDecodeError
  | ValueError
  | RecursionError
  deriving DecidableEq, Repr

structure Dialect where
  nonFinite : Bool
  maxDigits : Option Nat
  maxDepth : Option Nat

/-- The recursion limit depends on the interpreter. -/
def Dialect.python (maxDepth : Nat) : Dialect where
  nonFinite := true
  maxDigits := some 4300
  maxDepth := some maxDepth

def Dialect.javascript : Dialect where
  nonFinite := false
  maxDigits := none
  maxDepth := none

inductive Token
  | openBrace
  | closeBrace
  | openBracket
  | closeBracket
  | colon
  | comma
  | string (value : Text)
  | value (value : Json)
  | failure (error : LoadsError)

def isBlank (c : Nat) : Bool := c ∈ [9, 10, 13, 32]

/-! The UTF-16 code units of a text. -/

def isHighSurrogate (c : Nat) : Bool := 0xD800 ≤ c && c < 0xDC00

def isLowSurrogate (c : Nat) : Bool := 0xDC00 ≤ c && c < 0xE000

def joinSurrogates (high low : Nat) : Nat :=
  0x10000 + (high - 0xD800) * 1024 + (low - 0xDC00)

def codeUnits (c : Nat) : List Nat :=
  if c < 0x10000 then [c]
  else [0xD800 + (c - 0x10000) / 1024, 0xDC00 + (c - 0x10000) % 1024]

def utf16 (source : Text) : List Nat :=
  source.flatMap codeUnits

/-! Strings: what stands behind the opening quote, with the escapes of the form `\u` marked. -/

def hex4 (a b c d : Nat) : Option Nat :=
  ([a, b, c, d].mapM hexDigit).map (ofDigits 16)

def shortEscapes : List (Nat × Nat) :=
  [('"'.toNat, '"'.toNat), ('\\'.toNat, '\\'.toNat), ('n'.toNat, 10), ('r'.toNat, 13),
    ('t'.toNat, 9), ('b'.toNat, 8), ('f'.toNat, 12), ('/'.toNat, '/'.toNat)]

def scanString : Text → Option (List (Nat × Bool) × Text)
  | [] => none
  | c :: rest =>
      if c = '"'.toNat then some ([], rest)
      else if c < 32 then none
      else if c = '\\'.toNat then
        match rest with
        | [] => none
        | e :: rest =>
            if e = 'u'.toNat then
              match rest with
              | a :: b :: c :: d :: rest => do
                  let unit ← hex4 a b c d
                  let (units, rest) ← scanString rest
                  return ((unit, true) :: units, rest)
              | _ => none
            else do
              let short ← shortEscapes.lookup e
              let (units, rest) ← scanString rest
              return ((short, false) :: units, rest)
      else do
        let (units, rest) ← scanString rest
        return ((c, false) :: units, rest)

/-- Two adjacent `\u` escapes of a surrogate pair are one character. -/
def joinEscapes : List (Nat × Bool) → Text
  | (high, true) :: (low, true) :: rest =>
      if isHighSurrogate high && isLowSurrogate low then
        joinSurrogates high low :: joinEscapes rest
      else high :: joinEscapes ((low, true) :: rest)
  | (c, _) :: rest => c :: joinEscapes rest
  | [] => []

/-! Numbers. -/

/-- `(\.[0-9]+)?` -/
def scanFraction (source : Text) : Option Text × Text :=
  match source with
  | c :: rest =>
      let digits := rest.takeWhile isDigit
      if c = '.'.toNat ∧ digits ≠ [] then (some digits, rest.drop digits.length)
      else (none, source)
  | [] => (none, source)

/-- `([eE][-+]?[0-9]+)?` -/
def scanExponent (source : Text) : Option Int × Text :=
  match source with
  | c :: rest =>
      let negative := decide (rest.head? = some '-'.toNat)
      let signed := negative || decide (rest.head? = some '+'.toNat)
      let body := if signed then rest.drop 1 else rest
      let digits := body.takeWhile isDigit
      if (c = 'e'.toNat ∨ c = 'E'.toNat) ∧ digits ≠ [] then
        (some (if negative then -(digitsValue digits : Int) else digitsValue digits),
          body.drop digits.length)
      else (none, source)
  | [] => (none, source)

/-- A number without its sign. `source` starts with a digit. -/
def scanNumber (dialect : Dialect) (negative : Bool) (source : Text) : Token × Text :=
  let run := source.takeWhile isDigit
  let whole := if source.head? = some '0'.toNat then run.take 1 else run
  let (fraction, afterFraction) := scanFraction (source.drop whole.length)
  let (exponent, rest) := scanExponent afterFraction
  let sign : Int := if negative then -1 else 1
  if fraction.isNone ∧ exponent.isNone then
    if (dialect.maxDigits.any fun most => most < whole.length) then (.failure .ValueError, rest)
    else (.value (.int (sign * digitsValue whole)), rest)
  else
    let digits := fraction.getD []
    let scale : ℚ := 10 ^ (exponent.getD 0 - digits.length)
    (.value (.float (.ofRat (sign * digitsValue (whole ++ digits) * scale))), rest)

/-- The constants, those that only Python's reader knows last. -/
def constants (dialect : Dialect) : List (Text × Json) :=
  [(text "null", .null), (text "true", .bool true), (text "false", .bool false)] ++
    if dialect.nonFinite then
      [(text "NaN", .float .nan), (text "Infinity", .float (.infinity false)),
        (text "-Infinity", .float (.infinity true))]
    else []

def punctuation : List (Nat × Token) :=
  [('{'.toNat, .openBrace), ('}'.toNat, .closeBrace), ('['.toNat, .openBracket),
    (']'.toNat, .closeBracket), (':'.toNat, .colon), (','.toNat, .comma)]

def scanToken (dialect : Dialect) (source : Text) : Token × Text :=
  match source with
  | [] => (.failure .JSONDecodeError, [])
  | c :: rest =>
      match punctuation.lookup c with
      | some token => (token, rest)
      | none =>
          if c = '"'.toNat then
            match scanString rest with
            | some (units, rest) => (.string (joinEscapes units), rest)
            | none => (.failure .JSONDecodeError, [])
          else if isDigit c then scanNumber dialect false source
          else if c = '-'.toNat ∧ rest.head?.any isDigit then scanNumber dialect true rest
          else
            match (constants dialect).find? fun constant => constant.1.isPrefixOf source with
            | some (name, value) => (.value value, source.drop name.length)
            | none => (.failure .JSONDecodeError, [])

/-- The tokens of a text; the first `skip` characters belong to the token before. -/
def tokensFrom (dialect : Dialect) : Nat → Text → List Token
  | _, [] => []
  | skip + 1, _ :: rest => tokensFrom dialect skip rest
  | 0, c :: rest =>
      if isBlank c then tokensFrom dialect 0 rest
      else
        let (token, after) := scanToken dialect (c :: rest)
        token :: tokensFrom dialect (rest.length - after.length) rest

/-- An array or an object that has been opened; an object waits for the value of a key. -/
inductive Frame
  | array (items : List Json)
  | object (members : List (Text × Json)) (key : Text)

inductive Reading
  | value
  | firstItem
  | firstKey
  | key (members : List (Text × Json))
  | colon (members : List (Text × Json)) (key : Text)
  | after (value : Json)

structure Reader where
  frames : List Frame
  reading : Reading

def Reader.start (dialect : Dialect) (frames : List Frame) : Token → Except LoadsError Reader
  | .value value => .ok ⟨frames, .after value⟩
  | .string value => .ok ⟨frames, .after (.string value)⟩
  | .openBracket =>
      if dialect.maxDepth.any fun most => most ≤ frames.length then .error .RecursionError
      else .ok ⟨frames, .firstItem⟩
  | .openBrace =>
      if dialect.maxDepth.any fun most => most ≤ frames.length then .error .RecursionError
      else .ok ⟨frames, .firstKey⟩
  | .failure error => .error error
  | _ => .error .JSONDecodeError

def Reader.step (dialect : Dialect) (reader : Reader) (token : Token) :
    Except LoadsError Reader :=
  match reader.reading, token with
  | .value, token => Reader.start dialect reader.frames token
  | .firstItem, .closeBracket => .ok ⟨reader.frames, .after (.array [])⟩
  | .firstItem, token => Reader.start dialect (.array [] :: reader.frames) token
  | .firstKey, .closeBrace => .ok ⟨reader.frames, .after (.object [])⟩
  | .firstKey, .string key => .ok ⟨reader.frames, .colon [] key⟩
  | .key members, .string key => .ok ⟨reader.frames, .colon members key⟩
  | .colon members key, .colon => .ok ⟨.object members key :: reader.frames, .value⟩
  | .after value, token =>
      match reader.frames, token with
      | .array items :: frames, .comma => .ok ⟨.array (items ++ [value]) :: frames, .value⟩
      | .array items :: frames, .closeBracket => .ok ⟨frames, .after (.array (items ++ [value]))⟩
      | .object members key :: frames, .comma => .ok ⟨frames, .key (members ++ [(key, value)])⟩
      | .object members key :: frames, .closeBrace =>
          .ok ⟨frames, .after (.object (members ++ [(key, value)]))⟩
      | _, _ => .error .JSONDecodeError
  | _, _ => .error .JSONDecodeError

def Reader.finish (reader : Reader) : Except LoadsError Json :=
  match reader with
  | ⟨[], .after value⟩ => .ok value
  | _ => .error .JSONDecodeError

def loads (dialect : Dialect) (source : Text) : Except LoadsError Json := do
  Reader.finish (← (tokensFrom dialect 0 source).foldlM (Reader.step dialect) ⟨[], .value⟩)

/-- The value of a member; of two with one name the later one stays. -/
def memberOf (members : List (Text × Json)) (name : Text) : Option Json :=
  (members.reverse.find? fun member => member.1 == name).map Prod.snd

end Yomochi.Foundation
