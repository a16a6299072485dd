import Yomochi.Foundation.Utf8

/-! `base64.urlsafe_b64encode` and `base64.urlsafe_b64decode`. -/

namespace Yomochi.Foundation

def urlsafeChar (sextet : Nat) : Nat :=
  if sextet < 26 then 'A'.toNat + sextet
  else if sextet < 52 then 'a'.toNat + (sextet - 26)
  else if sextet < 62 then '0'.toNat + (sextet - 52)
  else if sextet = 62 then '-'.toNat
  else '_'.toNat

/-- The reader takes both alphabets, since it writes the one as the other first. -/
def sextetOf (c : Nat) : Option Nat :=
  if 'A'.toNat ≤ c ∧ c ≤ 'Z'.toNat then some (c - 'A'.toNat)
  else if 'a'.toNat ≤ c ∧ c ≤ 'z'.toNat then some (c - 'a'.toNat + 26)
  else if isDigit c then some (c - '0'.toNat + 52)
  else if c = '+'.toNat ∨ c = '-'.toNat then some 62
  else if c = '/'.toNat ∨ c = '_'.toNat then some 63
  else none

def urlsafeEncode : List Nat → Text
  | [] => []
  | [a] => [urlsafeChar (a / 4), urlsafeChar (a % 4 * 16), '='.toNat, '='.toNat]
  | [a, b] =>
      [urlsafeChar (a / 4), urlsafeChar (a % 4 * 16 + b / 16), urlsafeChar (b % 16 * 4), '='.toNat]
  | a :: b :: c :: rest =>
      urlsafeChar (a / 4) :: urlsafeChar (a % 4 * 16 + b / 16) ::
        urlsafeChar (b % 16 * 4 + c / 64) :: urlsafeChar (c % 64) :: urlsafeEncode rest

def urlsafeB64encode (body : Bytes) : Text := urlsafeEncode (body.map UInt8.toNat)

/-- `binascii.a2b_base64`, which is not strict: the characters read of a group of four, the bits
left of the last one, and the pads since then. Other characters are passed over, and what is
behind a full pad is not read. -/
def a2bBase64 (quad left pads : Nat) : List Nat → Option (List Nat)
  | [] => if quad = 0 then some [] else none
  | c :: rest =>
      if c = '='.toNat then
        if 2 ≤ quad then
          if 4 ≤ quad + (pads + 1) then some [] else a2bBase64 quad left (pads + 1) rest
        else a2bBase64 quad left pads rest
      else
        match sextetOf c with
        | none => a2bBase64 quad left pads rest
        | some sextet =>
            if quad = 0 then a2bBase64 1 sextet 0 rest
            else if quad = 1 then
              (a2bBase64 2 (sextet % 16) 0 rest).map ((left * 4 + sextet / 16) :: ·)
            else if quad = 2 then
              (a2bBase64 3 (sextet % 4) 0 rest).map ((left * 16 + sextet / 4) :: ·)
            else (a2bBase64 0 0 0 rest).map ((left * 64 + sextet) :: ·)

def urlsafeB64decode (body : Bytes) : Option Bytes :=
  (a2bBase64 0 0 0 (body.map UInt8.toNat)).map fun bytes => bytes.map UInt8.ofNat

theorem sextet_of_char : ∀ sextet < 64,
    sextetOf (urlsafeChar sextet) = some sextet ∧ urlsafeChar sextet ≠ '='.toNat ∧
      urlsafeChar sextet < 128 := by
  decide

section Reading

variable {sextet left pads : Nat}

theorem read_first (small : sextet < 64) (rest : List Nat) :
    a2bBase64 0 left pads (urlsafeChar sextet :: rest) =
      a2bBase64 1 sextet 0 rest := by
  obtain ⟨read, pad, _⟩ := sextet_of_char sextet small
  rw [a2bBase64, if_neg pad, read]
  rfl

theorem read_second (small : sextet < 64) (rest : List Nat) :
    a2bBase64 1 left pads (urlsafeChar sextet :: rest) =
      (a2bBase64 2 (sextet % 16) 0 rest).map ((left * 4 + sextet / 16) :: ·) := by
  obtain ⟨read, pad, _⟩ := sextet_of_char sextet small
  rw [a2bBase64, if_neg pad, read]
  rfl

theorem read_third (small : sextet < 64) (rest : List Nat) :
    a2bBase64 2 left pads (urlsafeChar sextet :: rest) =
      (a2bBase64 3 (sextet % 4) 0 rest).map ((left * 16 + sextet / 4) :: ·) := by
  obtain ⟨read, pad, _⟩ := sextet_of_char sextet small
  rw [a2bBase64, if_neg pad, read]
  rfl

theorem read_fourth (small : sextet < 64) (rest : List Nat) :
    a2bBase64 3 left pads (urlsafeChar sextet :: rest) =
      (a2bBase64 0 0 0 rest).map ((left * 64 + sextet) :: ·) := by
  obtain ⟨read, pad, _⟩ := sextet_of_char sextet small
  rw [a2bBase64, if_neg pad, read]
  rfl

end Reading

theorem a2b_urlsafe_encode (bytes : List Nat) (small : ∀ byte ∈ bytes, byte < 256) :
    a2bBase64 0 0 0 (urlsafeEncode bytes) = some bytes := by
  fun_induction urlsafeEncode bytes with
  | case1 => rfl
  | case2 a =>
      have bound := small a (by simp)
      rw [read_first (by omega), read_second (by omega)]
      have byte : a / 4 * 4 + a % 4 * 16 / 16 = a := by omega
      rw [byte]
      rfl
  | case3 a b =>
      have bounds := And.intro (small a (by simp)) (small b (by simp))
      rw [read_first (by omega), read_second (by omega), read_third (by omega)]
      have first : a / 4 * 4 + (a % 4 * 16 + b / 16) / 16 = a := by omega
      have second : (a % 4 * 16 + b / 16) % 16 * 16 + b % 16 * 4 / 4 = b := by omega
      rw [first, second]
      rfl
  | case4 a b c rest ih =>
      have bounds := And.intro (small a (by simp)) (And.intro (small b (by simp)) (small c (by simp)))
      rw [read_first (by omega), read_second (by omega), read_third (by omega),
        read_fourth (by omega), ih fun byte member => small byte (by simp [member])]
      have first : a / 4 * 4 + (a % 4 * 16 + b / 16) / 16 = a := by omega
      have second : (a % 4 * 16 + b / 16) % 16 * 16 + (b % 16 * 4 + c / 64) / 4 = b := by omega
      have third : (b % 16 * 4 + c / 64) % 4 * 64 + c % 64 = c := by omega
      rw [first, second, third]
      rfl

theorem urlsafe_encode_ascii (bytes : List Nat) (small : ∀ byte ∈ bytes, byte < 256) :
    Ascii (urlsafeEncode bytes) := by
  unfold Ascii
  have ascii : ∀ sextet < 64, urlsafeChar sextet < 128 := fun sextet bound =>
    (sextet_of_char sextet bound).2.2
  fun_induction urlsafeEncode bytes with
  | case1 => nofun
  | case2 a =>
      have bound := small a (by simp)
      simp only [List.forall_mem_cons]
      exact ⟨ascii _ (by omega), ascii _ (by omega), by decide, by decide, nofun⟩
  | case3 a b =>
      have bounds := And.intro (small a (by simp)) (small b (by simp))
      simp only [List.forall_mem_cons]
      exact ⟨ascii _ (by omega), ascii _ (by omega), ascii _ (by omega), by decide, nofun⟩
  | case4 a b c rest ih =>
      have bounds := And.intro (small a (by simp)) (And.intro (small b (by simp)) (small c (by simp)))
      simp only [List.forall_mem_cons]
      exact ⟨ascii _ (by omega), ascii _ (by omega), ascii _ (by omega), ascii _ (by omega),
        ih fun byte member => small byte (by simp [member])⟩

theorem byte_small (body : Bytes) : ∀ byte ∈ body.map UInt8.toNat, byte < 256 := by
  intro byte member
  obtain ⟨whole, _, rfl⟩ := List.mem_map.mp member
  exact whole.toNat_lt

theorem urlsafe_b64encode_ascii (body : Bytes) : Ascii (urlsafeB64encode body) :=
  urlsafe_encode_ascii _ (byte_small body)

theorem urlsafe_b64decode_encode (body : Bytes) :
    urlsafeB64decode (encode (urlsafeB64encode body)) = some body := by
  have ascii := urlsafe_b64encode_ascii body
  rw [urlsafeB64decode, bytes_encode ascii.scalars, encode_ascii ascii, urlsafeB64encode,
    a2b_urlsafe_encode _ (byte_small body), Option.map_some, List.map_map]
  have same : UInt8.ofNat ∘ UInt8.toNat = id := funext fun byte => UInt8.ofNat_toNat
  rw [same, List.map_id]

end Yomochi.Foundation
