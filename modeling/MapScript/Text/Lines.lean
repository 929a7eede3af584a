/-
Cutting text into lines. Three rules are in use: script files and settings are
cut at every character that ends a line in the wider character set, definition
files only at the line feed, and a text file read from disk first has its line
ends made uniform.
-/

namespace MapScript.Text

/-! ### Line ends -/

/-- The characters that end a line of a script or settings file. A carriage
return and the line feed after it end one line together. -/
def isLineBreak (c : Char) : Bool :=
  let code := c.toNat
  (0x0A ≤ code && code ≤ 0x0D) || (0x1C ≤ code && code ≤ 0x1E) || code == 0x85 ||
    code == 0x2028 || code == 0x2029

/-- One step of `splitLines`, read from the right. The flag says whether the
character after this one is a line feed. The lines are those of the text after
this character, the first one still open. -/
def lineStep (c : Char) (state : Bool × List (List Char)) : Bool × List (List Char) :=
  if c == '\r' && state.1 then (false, state.2)
  else if isLineBreak c then (c == '\n', [] :: state.2)
  else match state.2 with
    | [] => (false, [[c]])
    | line :: rest => (false, (c :: line) :: rest)

/-- The lines of a text, without their ends. A break at the very end opens no
further line. -/
def splitLines (text : List Char) : List (List Char) :=
  (text.foldr lineStep (false, [])).2

/-! ### One separator -/

/-- The pieces of a text between the occurrences of one separator. There is
always at least one piece. -/
def splitOn (separator : Char) (text : List Char) : List (List Char) :=
  text.foldr
    (fun c pieces =>
      if c == separator then [] :: pieces
      else match pieces with
        | [] => [[c]]
        | piece :: rest => (c :: piece) :: rest)
    [[]]

/-- The text before the first separator, and the text after it if there is one. -/
def cutAt (separator : Char) (text : List Char) : List Char × Option (List Char) :=
  (text.takeWhile (· != separator),
    match text.dropWhile (· != separator) with
    | [] => none
    | _ :: rest => some rest)

/-- The text after the last separator, or the whole text if there is none. -/
def afterLast (separator : Char) (text : List Char) : List Char :=
  (text.reverse.takeWhile (· != separator)).reverse

/-! ### Uniform line ends -/

/-- One step of `unifyLineEnds`, read from the right; the flag says whether the
character after this one is a line feed. -/
def unifyStep (c : Char) (state : Bool × List Char) : Bool × List Char :=
  if c == '\r' then (false, if state.1 then state.2 else '\n' :: state.2)
  else (c == '\n', c :: state.2)

/-- Makes every line end a line feed: a carriage return, alone or before a line
feed, becomes one. -/
def unifyLineEnds (text : List Char) : List Char :=
  (text.foldr unifyStep (false, [])).2

/-! ### Occurrences -/

/-- Replaces every occurrence of `old`, left to right and without overlaps. The
count says how many characters of the last occurrence are still to be passed
over. An empty `old` occurs before every character and at the end. -/
def replaceFrom (old new : List Char) : List Char → Nat → List Char
  | [], _ => []
  | _ :: rest, passed + 1 => replaceFrom old new rest passed
  | c :: rest, 0 =>
    if old.isPrefixOf (c :: rest) then
      if old.isEmpty then new ++ c :: replaceFrom old new rest 0
      else new ++ replaceFrom old new rest (old.length - 1)
    else c :: replaceFrom old new rest 0

/-- Replaces every occurrence of `old` by `new`. -/
def replaceAll (old new text : List Char) : List Char :=
  replaceFrom old new text 0 ++ if old.isEmpty then new else []

end MapScript.Text
