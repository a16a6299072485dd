import Yomochi.Foundation.JsonWriter

/-! UTF-8 as Python reads and writes it. The reader replaces what is not UTF-8. -/

namespace Yomochi.Foundation

abbrev Bytes := List UInt8

def encodeChar (c : Nat) : List Nat :=
  if c < 0x80 then [c]
  else if c < 0x800 then [0xC0 + c / 64, 0x80 + c % 64]
  else if c < 0x10000 then [0xE0 + c / 4096, 0x80 + c / 64 % 64, 0x80 + c % 64]
  else [0xF0 + c / 262144, 0x80 + c / 4096 % 64, 0x80 + c / 64 % 64, 0x80 + c % 64]

def encode (source : Text) : Bytes :=
  (source.flatMap encodeChar).map UInt8.ofNat

/-- `text.encode()`, which refuses lone surrogates. -/
def encodeStrict (source : Text) : Option Bytes :=
  if Scalars source then some (encode source) else none

def Ascii (source : Text) : Prop := ∀ c ∈ source, c < 0x80

instance (source : Text) : Decidable (Ascii source) :=
  inferInstanceAs (Decidable (∀ c ∈ source, _))

/-- Between characters, or behind the first bytes of one: their value, the bytes still owed,
and the range of the next one. -/
inductive Decoder
  | start
  | owed (value : Nat) (more : Nat) (low high : Nat)
  deriving DecidableEq, Repr

def replacement : Nat := 0xFFFD

/-- The first byte of a character: what is decided by it, and the state behind it. -/
def firstByte (byte : Nat) : Text × Decoder :=
  if byte < 0x80 then ([byte], .start)
  else if 0xC2 ≤ byte ∧ byte ≤ 0xDF then ([], .owed (byte - 0xC0) 0 0x80 0xBF)
  else if byte = 0xE0 then ([], .owed 0 1 0xA0 0xBF)
  else if byte = 0xED then ([], .owed 13 1 0x80 0x9F)
  else if 0xE1 ≤ byte ∧ byte ≤ 0xEF then ([], .owed (byte - 0xE0) 1 0x80 0xBF)
  else if byte = 0xF0 then ([], .owed 0 2 0x90 0xBF)
  else if byte = 0xF4 then ([], .owed 4 2 0x80 0x8F)
  else if 0xF1 ≤ byte ∧ byte ≤ 0xF3 then ([], .owed (byte - 0xF0) 2 0x80 0xBF)
  else ([replacement], .start)

/-- A byte that does not continue a character ends it, and is read again. -/
def nextByte (decoder : Decoder) (byte : Nat) : Text × Decoder :=
  match decoder with
  | .start => firstByte byte
  | .owed value more low high =>
      if low ≤ byte ∧ byte ≤ high then
        match more with
        | 0 => ([value * 64 + byte % 64], .start)
        | more + 1 => ([], .owed (value * 64 + byte % 64) more 0x80 0xBF)
      else
        let (decided, decoder) := firstByte byte
        (replacement :: decided, decoder)

def decodeFrom (decoder : Decoder) : List Nat → Text
  | [] => if decoder = .start then [] else [replacement]
  | byte :: bytes =>
      let (decided, decoder) := nextByte decoder byte
      decided ++ decodeFrom decoder bytes

/-- `body.decode("utf-8", errors="replace")` -/
def decodeReplace (body : Bytes) : Text :=
  decodeFrom .start (body.map UInt8.toNat)

def ValidUtf8 (body : Bytes) : Prop := ∃ source, Scalars source ∧ encode source = body

theorem decode_last {value low high byte : Nat} (least : low ≤ byte) (most : byte ≤ high)
    (rest : List Nat) :
    decodeFrom (.owed value 0 low high) (byte :: rest) =
      (value * 64 + byte % 64) :: decodeFrom .start rest := by
  simp [decodeFrom, nextByte, least, most]

theorem decode_more {value more low high byte : Nat} (least : low ≤ byte) (most : byte ≤ high)
    (rest : List Nat) :
    decodeFrom (.owed value (more + 1) low high) (byte :: rest) =
      decodeFrom (.owed (value * 64 + byte % 64) more 0x80 0xBF) rest := by
  simp [decodeFrom, nextByte, least, most]

theorem decode_first {byte : Nat} {decoder : Decoder} (first : firstByte byte = ([], decoder))
    (rest : List Nat) :
    decodeFrom .start (byte :: rest) = decodeFrom decoder rest := by
  simp [decodeFrom, nextByte, first]

theorem first_of_two {c : Nat} (least : 0x80 ≤ c) (most : c < 0x800) :
    firstByte (0xC0 + c / 64) = ([], .owed (c / 64) 0 0x80 0xBF) := by
  have ascii : ¬0xC0 + c / 64 < 0x80 := by omega
  have range : 0xC2 ≤ 0xC0 + c / 64 ∧ 0xC0 + c / 64 ≤ 0xDF := by omega
  rw [firstByte, if_neg ascii, if_pos range, Nat.add_sub_cancel_left]

/-- Neither the overlong forms nor the surrogates are in the range of the second byte. -/
theorem first_of_three {c : Nat} (least : 0x800 ≤ c) (most : c < 0x10000)
    (outside : c < 0xD800 ∨ 0xE000 ≤ c) :
    ∃ low high, firstByte (0xE0 + c / 4096) = ([], .owed (c / 4096) 1 low high) ∧
      low ≤ 0x80 + c / 64 % 64 ∧ 0x80 + c / 64 % 64 ≤ high := by
  have ascii : ¬0xE0 + c / 4096 < 0x80 := by omega
  have two : ¬(0xC2 ≤ 0xE0 + c / 4096 ∧ 0xE0 + c / 4096 ≤ 0xDF) := by omega
  by_cases zero : c / 4096 = 0
  · exact ⟨0xA0, 0xBF, by simp [firstByte, zero], by omega, by omega⟩
  · by_cases thirteen : c / 4096 = 13
    · exact ⟨0x80, 0x9F, by simp [firstByte, thirteen], by omega, by omega⟩
    · have other : ¬0xE0 + c / 4096 = 0xE0 ∧ ¬0xE0 + c / 4096 = 0xED := by omega
      have range : 0xE1 ≤ 0xE0 + c / 4096 ∧ 0xE0 + c / 4096 ≤ 0xEF := by omega
      refine ⟨0x80, 0xBF, ?_, by omega, by omega⟩
      rw [firstByte, if_neg ascii, if_neg two, if_neg other.1, if_neg other.2, if_pos range,
        Nat.add_sub_cancel_left]

theorem first_of_four {c : Nat} (least : 0x10000 ≤ c) (most : c < 0x110000) :
    ∃ low high, firstByte (0xF0 + c / 262144) = ([], .owed (c / 262144) 2 low high) ∧
      low ≤ 0x80 + c / 4096 % 64 ∧ 0x80 + c / 4096 % 64 ≤ high := by
  by_cases zero : c / 262144 = 0
  · exact ⟨0x90, 0xBF, by simp [firstByte, zero], by omega, by omega⟩
  · by_cases four : c / 262144 = 4
    · exact ⟨0x80, 0x8F, by simp [firstByte, four], by omega, by omega⟩
    · have between : c / 262144 = 1 ∨ c / 262144 = 2 ∨ c / 262144 = 3 := by omega
      refine ⟨0x80, 0xBF, ?_, by omega, by omega⟩
      rcases between with one | two | three
      · simp [firstByte, one]
      · simp [firstByte, two]
      · simp [firstByte, three]

theorem decode_char {c : Nat} (scalar : Scalar c) (rest : List Nat) :
    decodeFrom .start (encodeChar c ++ rest) = c :: decodeFrom .start rest := by
  unfold Scalar at scalar
  by_cases one : c < 0x80
  · simp [encodeChar, decodeFrom, nextByte, firstByte, one]
  by_cases two : c < 0x800
  · have value : c / 64 * 64 + (0x80 + c % 64) % 64 = c := by omega
    rw [encodeChar, if_neg one, if_pos two, List.cons_append,
      decode_first (first_of_two (by omega) two), List.cons_append,
      decode_last (by omega) (by omega), value]
    rfl
  by_cases three : c < 0x10000
  · obtain ⟨least, most, first, above, below⟩ := first_of_three (c := c) (by omega) three (by omega)
    have value : (c / 4096 * 64 + (0x80 + c / 64 % 64) % 64) * 64 + (0x80 + c % 64) % 64 = c := by
      omega
    rw [encodeChar, if_neg one, if_neg two, if_pos three, List.cons_append, decode_first first,
      List.cons_append, decode_more above below, List.cons_append,
      decode_last (by omega) (by omega), value]
    rfl
  · obtain ⟨least, most, first, above, below⟩ := first_of_four (c := c) (by omega) (by omega)
    have value : ((c / 262144 * 64 + (0x80 + c / 4096 % 64) % 64) * 64 +
        (0x80 + c / 64 % 64) % 64) * 64 + (0x80 + c % 64) % 64 = c := by
      omega
    rw [encodeChar, if_neg one, if_neg two, if_neg three, List.cons_append, decode_first first,
      List.cons_append, decode_more above below, List.cons_append,
      decode_more (by omega) (by omega), List.cons_append,
      decode_last (by omega) (by omega), value]
    rfl

theorem encode_char_bounded {c : Nat} (scalar : Scalar c) :
    ∀ byte ∈ encodeChar c, byte < 256 := by
  intro byte member
  unfold Scalar at scalar
  unfold encodeChar at member
  split at member
  · simp only [List.mem_singleton] at member
    omega
  · split at member
    · simp only [List.mem_cons, List.not_mem_nil, or_false] at member
      omega
    · split at member
      · simp only [List.mem_cons, List.not_mem_nil, or_false] at member
        omega
      · simp only [List.mem_cons, List.not_mem_nil, or_false] at member
        omega

theorem bytes_encode {source : Text} (scalars : Scalars source) :
    (encode source).map UInt8.toNat = source.flatMap encodeChar := by
  rw [encode, List.map_map]
  apply List.map_congr_left (g := id) _ |>.trans (List.map_id _)
  intro byte member
  obtain ⟨c, inside, member⟩ := List.mem_flatMap.mp member
  have bounded := encode_char_bounded (scalars c inside) byte member
  simp [UInt8.toNat_ofNat', Nat.mod_eq_of_lt bounded]

theorem decode_encode {source : Text} (scalars : Scalars source) :
    decodeReplace (encode source) = source := by
  rw [decodeReplace, bytes_encode scalars]
  induction source with
  | nil => rfl
  | cons c source ih =>
      rw [List.flatMap_cons, decode_char (scalars c (by simp)),
        ih fun other member => scalars other (by simp [member])]

/-- Bytes in the ranges that a decoder allows complete a scalar. -/
def Completes : Nat → Nat → Nat → Nat → Prop
  | 0, value, low, high =>
      ∀ byte, low ≤ byte → byte ≤ high → Scalar (value * 64 + byte % 64)
  | more + 1, value, low, high =>
      ∀ byte, low ≤ byte → byte ≤ high → Completes more (value * 64 + byte % 64) 0x80 0xBF

def Decoder.Sound : Decoder → Prop
  | .start => True
  | .owed value more low high => Completes more value low high

theorem first_byte_sound (byte : Nat) :
    Scalars (firstByte byte).1 ∧ (firstByte byte).2.Sound := by
  unfold firstByte
  split
  · simp [Scalars, Scalar, Decoder.Sound]
    omega
  split
  · refine ⟨by simp [Scalars], fun second least most => ?_⟩
    unfold Scalar
    omega
  split
  · refine ⟨by simp [Scalars], fun second least most third above below => ?_⟩
    unfold Scalar
    omega
  split
  · refine ⟨by simp [Scalars], fun second least most third above below => ?_⟩
    unfold Scalar
    omega
  split
  · refine ⟨by simp [Scalars], fun second least most third above below => ?_⟩
    unfold Scalar
    omega
  split
  · refine ⟨by simp [Scalars], fun second _ _ third _ _ fourth _ _ => ?_⟩
    unfold Scalar
    omega
  split
  · refine ⟨by simp [Scalars], fun second _ _ third _ _ fourth _ _ => ?_⟩
    unfold Scalar
    omega
  split
  · refine ⟨by simp [Scalars], fun second _ _ third _ _ fourth _ _ => ?_⟩
    unfold Scalar
    omega
  · simp [Scalars, Scalar, replacement, Decoder.Sound]

theorem next_byte_sound {decoder : Decoder} (sound : decoder.Sound) (byte : Nat) :
    Scalars (nextByte decoder byte).1 ∧ (nextByte decoder byte).2.Sound := by
  cases decoder with
  | start => exact first_byte_sound byte
  | owed value more low high =>
      by_cases range : low ≤ byte ∧ byte ≤ high
      · cases more with
        | zero =>
            have scalar := sound byte range.1 range.2
            exact ⟨by simpa [Scalars, nextByte, range] using scalar,
              by simp [nextByte, range, Decoder.Sound]⟩
        | succ more =>
            have owed := sound byte range.1 range.2
            exact ⟨by simp [Scalars, nextByte, range], by simpa [nextByte, range, Decoder.Sound] using owed⟩
      · obtain ⟨decided, next⟩ := first_byte_sound byte
        refine ⟨?_, by simpa [nextByte, range] using next⟩
        intro c member
        simp only [nextByte, range, if_false, List.mem_cons] at member
        rcases member with rfl | member
        · exact .inr (by decide)
        · exact decided c member

theorem decode_scalars {decoder : Decoder} (sound : decoder.Sound) (bytes : List Nat) :
    Scalars (decodeFrom decoder bytes) := by
  induction bytes generalizing decoder with
  | nil =>
      intro c member
      unfold decodeFrom at member
      split at member
      · cases member
      · cases List.mem_singleton.mp member
        exact .inr (by decide)
  | cons byte bytes ih =>
      obtain ⟨decided, next⟩ := next_byte_sound sound byte
      intro c member
      rcases List.mem_append.mp member with member | member
      · exact decided c member
      · exact ih next c member

theorem decode_replace_scalars (body : Bytes) : Scalars (decodeReplace body) := by
  have sound : Decoder.start.Sound := trivial
  exact decode_scalars sound _

/-- Reading and writing back keeps exactly the bytes that are UTF-8. -/
theorem encode_decode_iff (body : Bytes) :
    encode (decodeReplace body) = body ↔ ValidUtf8 body := by
  constructor
  · intro same
    exact ⟨decodeReplace body, decode_replace_scalars body, same⟩
  · rintro ⟨source, scalars, rfl⟩
    rw [decode_encode scalars]

/-- `body.decode()`, which refuses what is not UTF-8. -/
def decodeStrict (body : Bytes) : Option Text :=
  if encode (decodeReplace body) = body then some (decodeReplace body) else none

theorem Ascii.scalars {source : Text} (ascii : Ascii source) : Scalars source := by
  intro c member
  have small := ascii c member
  exact .inl (by omega)

theorem ascii_append {first second : Text} (one : Ascii first) (two : Ascii second) :
    Ascii (first ++ second) := by
  intro c member
  exact (List.mem_append.mp member).elim (one c) (two c)

theorem ascii_cons {c : Nat} {rest : Text} (first : c < 0x80) (others : Ascii rest) :
    Ascii (c :: rest) :=
  List.forall_mem_cons.mpr ⟨first, others⟩

theorem Printable.ascii {source : Text} (printable : Printable source) : Ascii source := by
  intro c member
  have range := printable c member
  omega

theorem encode_ascii {source : Text} (ascii : Ascii source) :
    source.flatMap encodeChar = source := by
  induction source with
  | nil => rfl
  | cons c source ih =>
      rw [List.flatMap_cons, encodeChar, if_pos (ascii c (by simp)),
        ih fun other member => ascii other (by simp [member])]
      rfl

theorem decode_strict_encode {source : Text} (scalars : Scalars source) :
    decodeStrict (encode source) = some source := by
  rw [decodeStrict, decode_encode scalars, if_pos rfl]

end Yomochi.Foundation
