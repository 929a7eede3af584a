/-
This file compares classes of characters. A class that is given by ranges of code points
is settled by looking at every code point of the smaller class.
-/

import MapScript.Text.Blank
import MapScript.Text.Digit
import MapScript.Text.Lines
import MapScript.Text.Word

namespace MapScript.Text

/-! ### Blanks -/

/-- The code points of blanks. -/
def blankCodes : List Nat :=
  List.range' 0x09 5 ++ List.range' 0x1C 5 ++ [0x85, 0xA0, 0x1680] ++ List.range' 0x2000 11 ++
    [0x2028, 0x2029, 0x202F, 0x205F, 0x3000]

theorem toNat_mem_blankCodes {c : Char} (blank : isBlank c = true) : c.toNat ∈ blankCodes := by
  simp only [isBlank, Bool.or_eq_true, Bool.and_eq_true, decide_eq_true_eq, beq_iff_eq] at blank
  simp only [blankCodes, List.mem_append, List.mem_range'_1, List.mem_cons, List.not_mem_nil]
  omega

/-- What no blank code point has, a character that has it is no blank. -/
theorem isBlank_eq_false_of (property : Char → Bool) {c : Char} (holds : property c = true)
    (each : ∀ code ∈ blankCodes, property (Char.ofNat code) = false) : isBlank c = false := by
  cases blank : isBlank c with
  | false => rfl
  | true =>
    have there := each c.toNat (toNat_mem_blankCodes blank)
    rw [Char.ofNat_toNat, holds] at there
    cases there

theorem isBlank_of_isDigit {c : Char} (digit : isDigit c = true) : isBlank c = false :=
  isBlank_eq_false_of isDigit digit (by decide)

theorem isBlank_of_isNameChar {c : Char} (nameChar : isNameChar c = true) : isBlank c = false :=
  isBlank_eq_false_of isNameChar nameChar (by decide)

theorem isBlank_of_isWordChar {c : Char} (wordChar : isWordChar c = true) : isBlank c = false :=
  isBlank_eq_false_of isWordChar wordChar (by decide +kernel)

/-! ### Line breaks -/

/-- Line breaks are blanks. -/
theorem isBlank_of_isLineBreak {c : Char} (breaks : isLineBreak c = true) : isBlank c = true := by
  simp only [isLineBreak, Bool.or_eq_true, Bool.and_eq_true, decide_eq_true_eq, beq_iff_eq]
    at breaks
  simp only [isBlank, Bool.or_eq_true, Bool.and_eq_true, decide_eq_true_eq, beq_iff_eq]
  omega

theorem isLineBreak_of_isBlank {c : Char} (full : isBlank c = false) : isLineBreak c = false := by
  cases breaks : isLineBreak c with
  | false => rfl
  | true =>
    rw [isBlank_of_isLineBreak breaks] at full
    cases full

/-! ### Digits -/

/-- What holds of every plain code point holds of a plain character. -/
theorem of_plain (property : Char → Bool) {c : Char} (plain : c.toNat < 128)
    (each : ∀ code < 128, property (Char.ofNat code) = true) : property c = true := by
  have here := each c.toNat plain
  rwa [Char.ofNat_toNat] at here

theorem plain_of_isNameChar {c : Char} (nameChar : isNameChar c = true) : c.toNat < 128 := by
  have nameChar : (c.isUpper || c.isLower || c.isDigit || c == '_') = true := nameChar
  have below {last : Char} (upTo : c.val ≤ last.val) (plain : last.toNat < 128) :
      c.toNat < 128 :=
    Nat.lt_of_le_of_lt (UInt32.le_iff_toNat_le.mp upTo) plain
  simp only [Bool.or_eq_true, beq_iff_eq] at nameChar
  rcases nameChar with ((upper | lower) | digit) | rfl
  · exact @below 'Z' (of_decide_eq_true upper).2 (by decide)
  · exact @below 'z' (of_decide_eq_true (Bool.and_eq_true_iff.mp lower).2) (by decide)
  · exact @below '9' (of_decide_eq_true (Bool.and_eq_true_iff.mp digit).2) (by decide)
  · decide

theorem isNameChar_of_isPlainDigit {c : Char} (digit : c.isDigit = true) :
    isNameChar c = true := by
  simp [isNameChar, Char.isAlphanum, digit]

/-- A plain letter or digit is a digit of some script only if it is a plain digit. -/
theorem isPlainDigit_of_isNameChar {c : Char} (nameChar : isNameChar c = true)
    (digit : isDigit c = true) : c.isDigit = true := by
  have implied := of_plain (fun c => !isDigit c || c.isDigit) (plain_of_isNameChar nameChar)
    (by decide)
  rw [digit] at implied
  exact implied

/-- A plain digit is a digit. -/
theorem isDigit_of_isPlainDigit {c : Char} (digit : c.isDigit = true) : isDigit c = true := by
  have implied := of_plain (fun c => !c.isDigit || isDigit c)
    (plain_of_isNameChar (isNameChar_of_isPlainDigit digit)) (by decide)
  rw [digit] at implied
  exact implied

end MapScript.Text
