/-
This file proves that numerals are read back as the numbers they were written for: decimal
ones as long as they are not too long to be read at all, and hexadecimal ones always.
-/

import MapScript.Proofs.Text.Characters
import MapScript.Proofs.Text.Lines
import MapScript.Text.Numeral

namespace MapScript.Text

/-! ### Decimal digits -/

/-- The value of a plain decimal digit. -/
theorem digitValue?_digitChar {digit : Nat} (small : digit < 10) :
    digitValue? digit.digitChar = some digit := by
  have each : ∀ digit < 10, digitValue? digit.digitChar = some digit := by decide
  exact each digit small

theorem digitsValue?_append (digits : List Char) (last : Char) :
    digitsValue? (digits ++ [last]) =
      (digitsValue? digits).bind fun value => (digitValue? last).map (10 * value + ·) := by
  unfold digitsValue?
  rw [List.foldlM_append]
  cases digits.foldlM (fun value c => (digitValue? c).map (10 * value + ·)) 0 with
  | none => rfl
  | some value =>
    show ((digitValue? last).map (10 * value + ·)).bind some =
      (digitValue? last).map (10 * value + ·)
    cases digitValue? last <;> rfl

theorem digitsValue?_natural (number : Nat) : digitsValue? (natural number) = some number := by
  induction number using Nat.strongRecOn with
  | ind number inductionHypothesis =>
    unfold natural
    by_cases small : number < 10
    · rw [Nat.toDigits_of_lt_base small]
      have read := digitsValue?_append [] number.digitChar
      rw [List.nil_append] at read
      rw [read, digitValue?_digitChar small]
      show some (10 * 0 + number) = some number
      rw [Nat.mul_zero, Nat.zero_add]
    · have large : 10 ≤ number := Nat.not_lt.mp small
      have smaller : number / 10 < number := Nat.div_lt_self (by omega) (by decide)
      have read := inductionHypothesis (number / 10) smaller
      rw [natural] at read
      rw [Nat.toDigits_of_base_le (by decide) large, digitsValue?_append, read, Option.bind_some,
        digitValue?_digitChar (Nat.mod_lt number (by decide)), Option.map_some, Nat.div_add_mod]

theorem natural_ne_nil (number : Nat) : natural number ≠ [] :=
  Nat.toDigits_ne_nil

theorem isPlainDigit_natural {number : Nat} {c : Char} (member : c ∈ natural number) :
    c.isDigit = true :=
  Nat.isDigit_of_mem_toDigits (by decide) (by decide) member

theorem all_isDigit_natural (number : Nat) : (natural number).all isDigit = true :=
  List.all_eq_true.mpr fun _ member => isDigit_of_isPlainDigit (isPlainDigit_natural member)

/-! ### Decimal numerals -/

/-- The first number whose numeral is too long to be read. -/
def numeralLimit : Nat := Nat.pow 10 digitLimit

theorem readNatural?_natural {number : Nat} (short : number < numeralLimit) :
    readNatural? (natural number) = some number := by
  have length : (natural number).length ≤ digitLimit :=
    (Nat.length_toDigits_le_iff (by decide) (by decide)).mpr short
  rw [readNatural?, if_neg, digitsValue?_natural]
  simp [natural_ne_nil, Nat.not_lt.mpr length]

/-- A character that is no digit does not stand in a natural number. -/
theorem digitValue?_lt {c : Char} {digit : Nat} (value : digitValue? c = some digit) :
    digit < 10 := by
  obtain ⟨start, found, rfl⟩ := Option.map_eq_some_iff.mp value
  have range := List.find?_some found
  simp only [Bool.and_eq_true, decide_eq_true_eq] at range
  omega

theorem foldlM_digits_lt {digits : List Char} {start number : Nat}
    (value : digits.foldlM (fun value c => (digitValue? c).map (10 * value + ·)) start =
      some number) : number < (start + 1) * Nat.pow 10 digits.length := by
  induction digits generalizing start with
  | nil =>
    cases value
    exact Nat.lt_of_lt_of_eq (Nat.lt_succ_self _) (Nat.mul_one _).symm
  | cons c rest inductionHypothesis =>
    rw [List.foldlM_cons] at value
    obtain ⟨next, nextOk, value⟩ := Option.bind_eq_some_iff.mp value
    obtain ⟨digit, digitOk, rfl⟩ := Option.map_eq_some_iff.mp nextOk
    have small := digitValue?_lt digitOk
    have grows : 10 * start + digit + 1 ≤ (start + 1) * 10 := by omega
    calc number < (10 * start + digit + 1) * Nat.pow 10 rest.length := inductionHypothesis value
      _ ≤ (start + 1) * 10 * Nat.pow 10 rest.length := Nat.mul_le_mul_right _ grows
      _ = (start + 1) * (Nat.pow 10 rest.length * 10) := by rw [Nat.mul_assoc, Nat.mul_comm 10]

theorem digitsValue?_lt {digits : List Char} {number : Nat}
    (value : digitsValue? digits = some number) : number < Nat.pow 10 digits.length := by
  have bounded := foldlM_digits_lt value
  rwa [Nat.zero_add, Nat.one_mul] at bounded

/-- A numeral that can be read stands for a number that can be written again. -/
theorem lt_of_readNatural? {digits : List Char} {number : Nat}
    (value : readNatural? digits = some number) : number < numeralLimit := by
  unfold readNatural? at value
  split at value
  · cases value
  · rename_i short
    rw [Bool.or_eq_true, not_or, decide_eq_true_eq, Nat.not_lt] at short
    exact Nat.lt_of_lt_of_le (digitsValue?_lt value) (Nat.pow_le_pow_right (by decide) short.2)

theorem not_mem_natural {c : Char} (special : isDigit c = false) (number : Nat) :
    c ∉ natural number := by
  intro member
  rw [List.all_eq_true.mp (all_isDigit_natural number) c member] at special
  cases special

theorem not_mem_integer {c : Char} (noDigit : isDigit c = false) (noSign : c ≠ '-')
    (value : Int) : c ∉ integer value := by
  cases value with
  | ofNat number => exact not_mem_natural noDigit number
  | negSucc number =>
    intro member
    rcases List.mem_cons.mp member with sign | digit
    · exact noSign sign
    · exact not_mem_natural noDigit _ digit

theorem readInteger?_integer {value : Int} (short : value.natAbs < numeralLimit) :
    readInteger? (integer value) = some value := by
  cases value with
  | ofNat number =>
    have short : number < numeralLimit := short
    rw [integer, readInteger?]
    · rw [readNatural?_natural short]
      rfl
    · intro rest same
      exact not_mem_natural (by decide) number (same ▸ List.mem_cons_self)
  | negSucc number =>
    have short : number + 1 < numeralLimit := short
    rw [integer, readInteger?, readNatural?_natural short]
    rfl

theorem isBlank_of_mem_integer {value : Int} {c : Char} (member : c ∈ integer value) :
    isBlank c = false := by
  have digits (number : Nat) (inside : c ∈ natural number) : isBlank c = false :=
    isBlank_of_isDigit (List.all_eq_true.mp (all_isDigit_natural number) c inside)
  cases value with
  | ofNat number => exact digits number member
  | negSucc number =>
    rcases List.mem_cons.mp member with rfl | inside
    · decide
    · exact digits (number + 1) inside

theorem dropWhile_of_forall_not {test : Char → Bool} {text : List Char}
    (none : ∀ c ∈ text, test c = false) : text.dropWhile test = text := by
  cases text with
  | nil => rfl
  | cons c rest =>
    rw [List.dropWhile_cons, if_neg (by rw [none c List.mem_cons_self]; decide)]

/-- A number is written without blanks around it. -/
theorem trimmed_integer (value : Int) :
    (((integer value).dropWhile isNumberBlank).reverse.dropWhile isNumberBlank).reverse =
      integer value := by
  have inside (c : Char) (member : c ∈ integer value) : isNumberBlank c = false := by
    rw [isNumberBlank, isBlank_of_mem_integer member, Bool.false_and]
  rw [dropWhile_of_forall_not inside, dropWhile_of_forall_not, List.reverse_reverse]
  exact fun c member => inside c (List.mem_reverse.mp member)

theorem readSetting?_integer {value : Int} (short : value.natAbs < numeralLimit) :
    readSetting? (integer value) = some value := by
  have body (number : Nat) : splitOn '_' (natural number) = [natural number] :=
    splitOn_of_not_mem (not_mem_natural (by decide) number)
  have filled (number : Nat) : [natural number].any List.isEmpty = false := by
    simp [natural_ne_nil]
  have flat (number : Nat) : [natural number].flatten = natural number := by simp
  unfold readSetting?
  rw [trimmed_integer]
  cases value with
  | ofNat number =>
    have short : number < numeralLimit := short
    have sign : splitSign (natural number) = (false, natural number) := by
      rw [splitSign]
      · intro rest same
        exact not_mem_natural (by decide) number (same ▸ List.mem_cons_self)
      · intro rest same
        exact not_mem_natural (by decide) number (same ▸ List.mem_cons_self)
    simp only [integer, sign, body, filled, flat, readNatural?_natural short]
    rfl
  | negSucc number =>
    have short : number + 1 < numeralLimit := short
    simp only [integer, splitSign, body, filled, flat, readNatural?_natural short]
    rfl

/-! ### Hexadecimal numerals -/

theorem hexValue?_digitChar {digit : Nat} (small : digit < 16) :
    hexValue? digit.digitChar.toUpper = some digit := by
  have each : ∀ digit < 16, hexValue? digit.digitChar.toUpper = some digit := by decide
  exact each digit small

theorem hexDigitsValue_append (digits : List Char) (last : Char) :
    hexDigitsValue (digits ++ [last]) =
      16 * hexDigitsValue digits + (hexValue? last).getD 0 :=
  List.foldl_append

theorem hexDigitsValue_small (number : Nat) :
    hexDigitsValue ((hexSmall number).map Char.toUpper) = number := by
  induction number using Nat.strongRecOn with
  | ind number inductionHypothesis =>
    unfold hexSmall
    by_cases small : number < 16
    · have read := hexDigitsValue_append [] number.digitChar.toUpper
      rw [List.nil_append, hexValue?_digitChar small] at read
      rw [Nat.toDigits_of_lt_base small, List.map_singleton, read]
      exact Nat.zero_add number
    · have large : 16 ≤ number := Nat.not_lt.mp small
      have smaller : number / 16 < number := Nat.div_lt_self (by omega) (by decide)
      have read := inductionHypothesis (number / 16) smaller
      rw [hexSmall] at read
      rw [Nat.toDigits_of_base_le (by decide) large, List.map_append, List.map_singleton,
        hexDigitsValue_append, read, hexValue?_digitChar (Nat.mod_lt number (by decide)),
        Option.getD_some, Nat.div_add_mod]

theorem hexDigitsValue_zeros (count : Nat) (digits : List Char) :
    hexDigitsValue (List.replicate count '0' ++ digits) = hexDigitsValue digits := by
  induction count with
  | zero => rfl
  | succ count inductionHypothesis =>
    rw [List.replicate_succ, List.cons_append]
    exact inductionHypothesis

/-- A hexadecimal numeral is read back as its number, whatever it is filled up to. -/
theorem hexDigitsValue_hexCapital (width number : Nat) :
    hexDigitsValue (hexCapital width number) = number := by
  rw [hexCapital, padLeft, hexDigitsValue_zeros, hexDigitsValue_small]

theorem all_isHexDigit_small (number : Nat) :
    ((hexSmall number).map Char.toUpper).all isHexDigit = true := by
  induction number using Nat.strongRecOn with
  | ind number inductionHypothesis =>
    have digit {value : Nat} (small : value < 16) :
        isHexDigit value.digitChar.toUpper = true := by
      rw [isHexDigit, hexValue?_digitChar small]
      rfl
    unfold hexSmall
    by_cases small : number < 16
    · rw [Nat.toDigits_of_lt_base small, List.map_singleton, List.all_cons, digit small]
      rfl
    · have large : 16 ≤ number := Nat.not_lt.mp small
      have smaller : number / 16 < number := Nat.div_lt_self (by omega) (by decide)
      have others := inductionHypothesis (number / 16) smaller
      rw [hexSmall] at others
      rw [Nat.toDigits_of_base_le (by decide) large, List.map_append, List.map_singleton,
        List.all_append, others, List.all_cons, digit (Nat.mod_lt number (by decide))]
      rfl

theorem all_isHexDigit_hexCapital (width number : Nat) :
    (hexCapital width number).all isHexDigit = true := by
  rw [hexCapital, padLeft, List.all_append, all_isHexDigit_small, Bool.and_true]
  refine List.all_eq_true.mpr fun c member => ?_
  rw [List.eq_of_mem_replicate member]
  decide

theorem hexCapital_ne_nil (width number : Nat) : hexCapital width number ≠ [] := by
  rw [hexCapital, padLeft]
  refine List.append_ne_nil_of_right_ne_nil _ ?_
  rw [ne_eq, List.map_eq_nil_iff]
  exact Nat.toDigits_ne_nil

end MapScript.Text
