import Mathlib.Data.List.Lex
import Mathlib.Data.List.Nodup

/-! Text in the sense of Python's `str`: a list of code points, lone surrogates among them. -/

namespace Yomochi.Foundation

abbrev Text := List Nat

def text (literal : String) : Text :=
  literal.toList.map Char.toNat

def isSpace (c : Nat) : Bool :=
  (9 ≤ c && c ≤ 13) || (28 ≤ c && c ≤ 32) || (0x2000 ≤ c && c ≤ 0x200A) ||
    c ∈ [0x85, 0xA0, 0x1680, 0x2028, 0x2029, 0x202F, 0x205F, 0x3000]

def strip (source : Text) : Text :=
  ((source.dropWhile isSpace).reverse.dropWhile isSpace).reverse

/-- `bytes.decode("latin-1")`, which cannot fail. -/
def latin1 (bytes : List UInt8) : Text :=
  bytes.map UInt8.toNat

def isDigit (c : Nat) : Bool := '0'.toNat ≤ c && c ≤ '9'.toNat

def hexDigit (c : Nat) : Option Nat :=
  if isDigit c then some (c - '0'.toNat)
  else if 'a'.toNat ≤ c ∧ c ≤ 'f'.toNat then some (c - 'a'.toNat + 10)
  else if 'A'.toNat ≤ c ∧ c ≤ 'F'.toNat then some (c - 'A'.toNat + 10)
  else none

def ofDigits (base : Nat) (digits : List Nat) : Nat :=
  digits.foldl (fun value digit => value * base + digit) 0

def digitsValue (digits : Text) : Nat :=
  ofDigits 10 (digits.map fun c => c - '0'.toNat)

def decimal (n : Nat) : Text :=
  (Nat.toDigits 10 n).map Char.toNat

def textLt : Text → Text → Bool
  | _, [] => false
  | [], _ :: _ => true
  | c :: first, d :: second => c < d || (c == d && textLt first second)

def insertText (new : Text) : List Text → List Text
  | [] => [new]
  | known :: texts =>
      if new = known then known :: texts
      else if textLt new known then new :: known :: texts
      else known :: insertText new texts

def sortedSet (texts : List Text) : List Text := texts.foldr insertText []

theorem decimal_digits {n c : Nat} (member : c ∈ decimal n) : isDigit c = true := by
  obtain ⟨digit, inside, rfl⟩ := List.mem_map.mp member
  have known := Nat.isDigit_of_mem_toDigits (by decide) (by decide) inside
  simpa [Char.isDigit, isDigit, UInt32.le_iff_toNat_le] using known

theorem digits_value_decimal (n : Nat) : digitsValue (decimal n) = n := by
  have value : Nat.ofDigitChars 10 (Nat.toDigits 10 n) 0 = n := Nat.ofDigitChars_ten_toDigits
  rw [Nat.ofDigitChars_eq_foldl] at value
  simpa [digitsValue, decimal, ofDigits, List.foldl_map, Nat.mul_comm] using value

theorem digits_value_zeros (count : Nat) (digits : Text) :
    digitsValue (List.replicate count '0'.toNat ++ digits) = digitsValue digits := by
  induction count with
  | zero => rfl
  | succ count ih =>
      rw [← ih, List.replicate_succ]
      rfl

theorem decimal_cons (n : Nat) : ∃ c rest, decimal n = c :: rest := by
  cases digits : Nat.toDigits 10 n with
  | nil => exact absurd digits Nat.toDigits_ne_nil
  | cons c rest => exact ⟨c.toNat, rest.map Char.toNat, by simp [decimal, digits]⟩

theorem digit_char_zero {digit : Nat} (small : digit < 10) (zero : digit.digitChar = '0') :
    digit = 0 := by
  have value := Nat.toNat_digitChar_sub_48_of_lt_ten small
  rw [zero] at value
  exact value.symm

theorem decimal_zero_head {n : Nat} (head : (decimal n).head? = some '0'.toNat) :
    decimal n = ['0'.toNat] := by
  have first : (Nat.toDigits 10 n).head? = some '0' := by
    simp only [decimal, List.head?_map, Option.map_eq_some_iff] at head
    obtain ⟨c, found, code⟩ := head
    rw [found, Char.toNat_inj.mp code]
  have zero : n = 0 := by
    clear head
    induction n using Nat.strongRecOn with
    | _ n ih =>
        rw [Nat.toDigits_eq_if (by decide)] at first
        split at first
        · exact digit_char_zero (by assumption) (by simpa using first)
        · rw [List.head?_append_of_ne_nil _ Nat.toDigits_ne_nil] at first
          have quotient := ih (n / 10) (by omega) first
          omega
  rw [zero]
  rfl

theorem drop_while_absent {p : Nat → Bool} {source : Text} (absent : ∀ c ∈ source, p c = false) :
    source.dropWhile p = source := by
  cases source with
  | nil => rfl
  | cons c rest => rw [List.dropWhile_cons, absent c (by simp), if_neg Bool.false_ne_true]

theorem trim_absent {p : Nat → Bool} {source : Text} (absent : ∀ c ∈ source, p c = false) :
    ((source.dropWhile p).reverse.dropWhile p).reverse = source := by
  rw [drop_while_absent absent,
    drop_while_absent fun c member => absent c (List.mem_reverse.mp member), List.reverse_reverse]

/-! The order of texts, and sorted sets of them. -/

theorem text_lt_iff (first second : Text) : textLt first second = true ↔ first < second := by
  induction first generalizing second with
  | nil =>
      cases second with
      | nil => simp [textLt]
      | cons d second => simp [textLt]
  | cons c first ih =>
      cases second with
      | nil => simp [textLt]
      | cons d second => simp [textLt, List.cons_lt_cons_iff, ih]

/-- Between texts of one length, the fronts decide unless they are equal. -/
theorem text_lt_append {first second : Text} (same : first.length = second.length)
    (one two : Text) : textLt (first ++ one) (second ++ two) =
      (textLt first second || (decide (first = second) && textLt one two)) := by
  induction first generalizing second with
  | nil =>
      cases second with
      | nil => simp [textLt]
      | cons => cases same
  | cons c first ih =>
      cases second with
      | nil => cases same
      | cons d second =>
          rw [List.cons_append, List.cons_append, textLt, textLt,
            ih (Nat.succ.inj same)]
          by_cases heads : c = d
          · simp [heads]
          · have apart : (c == d) = false := beq_eq_false_iff_ne.mpr heads
            simp [heads, apart]

theorem mem_insert_text {new text : Text} {texts : List Text} :
    text ∈ insertText new texts ↔ text = new ∨ text ∈ texts := by
  induction texts with
  | nil => simp [insertText]
  | cons known texts ih =>
      rw [insertText]
      split
      · rename_i same
        simp [same]
      · split
        · simp
        · rw [List.mem_cons, ih, List.mem_cons]
          tauto

theorem mem_sorted_set {text : Text} {texts : List Text} : text ∈ sortedSet texts ↔ text ∈ texts := by
  induction texts with
  | nil => simp [sortedSet]
  | cons new texts ih =>
      change text ∈ insertText new (sortedSet texts) ↔ _
      rw [mem_insert_text, ih, List.mem_cons]

theorem insert_text_sorted {new : Text} {texts : List Text} (sorted : texts.Pairwise (· < ·)) :
    (insertText new texts).Pairwise (· < ·) := by
  induction texts with
  | nil => exact List.pairwise_singleton _ _
  | cons known texts ih =>
      obtain ⟨least, rest⟩ := List.pairwise_cons.mp sorted
      rw [insertText]
      split
      · exact sorted
      · rename_i different
        split
        · rename_i less
          have smaller := (text_lt_iff new known).mp less
          refine List.pairwise_cons.mpr ⟨fun text member => ?_, sorted⟩
          rcases List.mem_cons.mp member with rfl | later
          · exact smaller
          · exact lt_trans smaller (least text later)
        · rename_i notLess
          have larger : known < new := by
            have notSmaller : ¬ new < known := fun less => notLess ((text_lt_iff new known).mpr less)
            exact lt_of_le_of_ne (not_lt.mp notSmaller) (Ne.symm different)
          refine List.pairwise_cons.mpr ⟨fun text member => ?_, ih rest⟩
          rcases mem_insert_text.mp member with rfl | later
          · exact larger
          · exact least text later

theorem sorted_set_sorted (texts : List Text) : (sortedSet texts).Pairwise (· < ·) := by
  induction texts with
  | nil => exact List.Pairwise.nil
  | cons new texts ih => exact insert_text_sorted ih

theorem sorted_set_nodup (texts : List Text) : (sortedSet texts).Nodup :=
  (sorted_set_sorted texts).imp fun less => ne_of_lt less

theorem sorted_set_congr {texts others : List Text} (same : ∀ text, text ∈ texts ↔ text ∈ others) :
    sortedSet texts = sortedSet others := by
  have permuted : (sortedSet texts).Perm (sortedSet others) := by
    apply (List.perm_ext_iff_of_nodup (sorted_set_nodup texts) (sorted_set_nodup others)).mpr
    intro text
    rw [mem_sorted_set, mem_sorted_set, same]
  apply permuted.eq_of_pairwise _ (sorted_set_sorted texts) (sorted_set_sorted others)
  intro first second _ _ less greater
  exact absurd less (lt_asymm greater)

theorem filter_sorted_set (text : Text) (texts : List Text) :
    (sortedSet texts).filter (· = text) = if text ∈ texts then [text] else [] := by
  rw [List.filter_eq]
  by_cases member : text ∈ texts
  · rw [if_pos member, List.count_eq_one_of_mem (sorted_set_nodup texts) (mem_sorted_set.mpr member)]
    rfl
  · rw [if_neg member, List.count_eq_zero_of_not_mem fun inside => member (mem_sorted_set.mp inside)]
    rfl

end Yomochi.Foundation
