/-
Numerals: how numbers are written in listings and messages, and how they are
read back. Writing uses plain digits. Reading accepts the decimal digits of any
script, and refuses numerals that are too long to be meant.
-/

import MapScript.Text.Blank
import MapScript.Text.Digit
import MapScript.Text.Lines

namespace MapScript.Text

/-! ### Writing -/

/-- The decimal numeral of a natural number. -/
def natural (n : Nat) : List Char :=
  Nat.toDigits 10 n

/-- The decimal numeral of an integer, with a minus sign in front if it is
negative. -/
def integer : Int → List Char
  | .ofNat n => natural n
  | .negSucc n => '-' :: natural (n + 1)

/-- Fills a text up on the left. -/
def padLeft (width : Nat) (fill : Char) (text : List Char) : List Char :=
  List.replicate (width - text.length) fill ++ text

/-- Fills a text up on the right. -/
def padRight (width : Nat) (fill : Char) (text : List Char) : List Char :=
  text ++ List.replicate (width - text.length) fill

/-- The hexadecimal numeral of a natural number with small letters. -/
def hexSmall (n : Nat) : List Char :=
  Nat.toDigits 16 n

/-- The hexadecimal numeral of a natural number with capital letters, filled up
with zeros to the given width. -/
def hexCapital (width n : Nat) : List Char :=
  padLeft width '0' ((hexSmall n).map Char.toUpper)

/-- The hexadecimal numeral of an integer with capital letters. The sign takes
one place of the width. -/
def hexInteger (width : Nat) : Int → List Char
  | .ofNat n => hexCapital width n
  | .negSucc n => '-' :: hexCapital (width - 1) (n + 1)

/-- Sets a comma before every group of three digits but the first; the digits
come last one first. -/
def groupReversed : List Char → List Char
  | a :: b :: c :: d :: rest => a :: b :: c :: ',' :: groupReversed (d :: rest)
  | digits => digits

/-- The decimal numeral of a natural number with a comma between thousands. -/
def grouped (n : Nat) : List Char :=
  (groupReversed (natural n).reverse).reverse

/-! ### Reading -/

/-- The most digits a decimal numeral may have. -/
def digitLimit : Nat := 4300

/-- The number that a list of decimal digits stands for, most significant digit
first, or nothing if some character is no digit. -/
def digitsValue? (digits : List Char) : Option Nat :=
  digits.foldlM (fun value c => (digitValue? c).map (10 * value + ·)) 0

/-- Reads a numeral made of decimal digits only. -/
def readNatural? (text : List Char) : Option Nat :=
  if text.isEmpty || digitLimit < text.length then none else digitsValue? text

/-- Splits the sign off a numeral: whether it is negative, and the rest. -/
def splitSign : List Char → Bool × List Char
  | '-' :: rest => (true, rest)
  | '+' :: rest => (false, rest)
  | text => (false, text)

/-- Gives a magnitude its sign. -/
def signed (negative : Bool) (magnitude : Nat) : Int :=
  if negative then -(magnitude : Int) else magnitude

/-- Reads a numeral as it stands in a script: decimal digits, after a minus sign
or not. -/
def readInteger? : List Char → Option Int
  | '-' :: rest => (readNatural? rest).map (signed true)
  | text => (readNatural? text).map (signed false)

/-- Blanks that may stand around a number in a settings file. The four
separators below the space are not among them. -/
def isNumberBlank (c : Char) : Bool :=
  isBlank c && !(0x1C ≤ c.toNat && c.toNat ≤ 0x1F)

/-- Reads a number as it stands in a settings file: blanks around it, one sign,
and single underscores between digits are allowed. -/
def readSetting? (text : List Char) : Option Int :=
  let bare := ((text.dropWhile isNumberBlank).reverse.dropWhile isNumberBlank).reverse
  let (negative, body) := splitSign bare
  let groups := splitOn '_' body
  if groups.any List.isEmpty then none
  else (readNatural? groups.flatten).map (signed negative)

/-- The number that a list of hexadecimal digits stands for. -/
def hexDigitsValue (digits : List Char) : Nat :=
  digits.foldl (fun value c => 16 * value + (hexValue? c).getD 0) 0

end MapScript.Text
