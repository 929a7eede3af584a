/-
Quoted forms: how a text, or a run of bytes, is shown inside a message. A quote
is chosen that the text does not hold where that is possible, and whatever
cannot be shown is written as an escape.
-/

import MapScript.Text.Numeral
import MapScript.Text.Printable

namespace MapScript.Text

/-- The quote around a text: the single one, unless the text holds a single
quote and no double one. -/
def quoteMark (text : List Char) : Char :=
  if text.contains '\'' && !text.contains '"' then '"' else '\''

/-- The escape for a code point, as wide as the code point needs. -/
def escapeCode (code : Nat) : List Char :=
  if code < 0x100 then '\\' :: 'x' :: padLeft 2 '0' (hexSmall code)
  else if code < 0x10000 then '\\' :: 'u' :: padLeft 4 '0' (hexSmall code)
  else '\\' :: 'U' :: padLeft 8 '0' (hexSmall code)

/-- The escapes that do not depend on which characters can be shown: the
backslash, the quote in use, and the three common controls. -/
def shortEscape? (mark c : Char) : Option (List Char) :=
  if c == '\\' || c == mark then some ['\\', c]
  else if c == '\n' then some ['\\', 'n']
  else if c == '\r' then some ['\\', 'r']
  else if c == '\t' then some ['\\', 't']
  else none

/-- One character inside quotes. -/
def quoteChar (mark c : Char) : List Char :=
  (shortEscape? mark c).getD (if isPrintable c then [c] else escapeCode c.toNat)

/-- The quoted form of a text. -/
def quoted (text : List Char) : List Char :=
  let mark := quoteMark text
  mark :: text.flatMap (quoteChar mark) ++ [mark]

/-- One byte inside quotes: only the plain characters stand for themselves. -/
def quoteByte (mark c : Char) : List Char :=
  (shortEscape? mark c).getD
    (if 0x20 ≤ c.toNat && c.toNat < 0x7F then [c] else escapeCode c.toNat)

/-- The quoted form of a run of bytes, marked by a letter in front. -/
def quotedBytes (bytes : List UInt8) : List Char :=
  let text := bytes.map fun byte => Char.ofNat byte.toNat
  let mark := quoteMark text
  'b' :: mark :: text.flatMap (quoteByte mark) ++ [mark]

end MapScript.Text
