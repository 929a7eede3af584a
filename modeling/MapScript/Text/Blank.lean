/-
Blank characters, and what is done to text at them: trimming and cutting into
words. Text is handled as a list of characters throughout the library, so that
every function on it is a recursion that a proof can follow; strings stand only
at the boundary and as names.
-/

namespace MapScript.Text

/-! ### Blank characters -/

/-- The code points that count as blank: the control characters that move the
cursor, the four separators below the space, the space itself, and the spaces
and line separators of the wider character set. -/
def isBlank (c : Char) : Bool :=
  let code := c.toNat
  (0x09 ≤ code && code ≤ 0x0D) || (0x1C ≤ code && code ≤ 0x20) || code == 0x85 || code == 0xA0 ||
    code == 0x1680 || (0x2000 ≤ code && code ≤ 0x200A) || code == 0x2028 || code == 0x2029 ||
    code == 0x202F || code == 0x205F || code == 0x3000

/-! ### Trimming -/

/-- Drops the blanks a text starts with. -/
def trimStart (text : List Char) : List Char :=
  text.dropWhile isBlank

/-- Drops the blanks a text ends with. -/
def trimEnd (text : List Char) : List Char :=
  (text.reverse.dropWhile isBlank).reverse

/-- Drops the blanks on both sides of a text. -/
def trim (text : List Char) : List Char :=
  trimEnd (trimStart text)

/-! ### Words -/

/-- One step of `words`, read from the right: the word under construction and
the words after it. -/
def wordStep (c : Char) (state : List Char × List (List Char)) : List Char × List (List Char) :=
  if isBlank c then
    if state.1.isEmpty then state else ([], state.1 :: state.2)
  else (c :: state.1, state.2)

/-- The maximal runs of characters that are not blank, in order. -/
def words (text : List Char) : List (List Char) :=
  match text.foldr wordStep ([], []) with
  | ([], rest) => rest
  | (first, rest) => first :: rest

end MapScript.Text
