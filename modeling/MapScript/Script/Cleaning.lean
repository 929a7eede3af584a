/-
This file prepares script text line by line: comments go, spacing is made even,
and names of items and maps in angle brackets give way to their numbers. Text in
double quotes is left alone by all of these. A quote that is never closed opens
nothing and stands for itself.
-/

import MapScript.Symbols.Basic
import MapScript.Text.Lines

namespace MapScript

/-! ### Quoted text -/

/-- A line cut at its quoted parts: the plain text before the first one, and then
each quoted part, without its quotes, with the plain text after it. -/
structure Quotation where
  lead : List Char
  quotes : List (List Char × List Char)
  deriving DecidableEq, Repr

namespace Quotation

/-- Pairs up the pieces between quotes: plain and quoted pieces take turns. A last
quote without a partner belongs to the plain text around it. -/
def ofPieces : List (List Char) → Quotation
  | [] => ⟨[], []⟩
  | [plain] => ⟨plain, []⟩
  | [plain, rest] => ⟨plain ++ '"' :: rest, []⟩
  | plain :: inside :: rest =>
    let tail := ofPieces rest
    ⟨plain, (inside, tail.lead) :: tail.quotes⟩

/-- Cuts a line at its quoted parts. -/
def ofLine (line : List Char) : Quotation :=
  ofPieces (Text.splitOn '"' line)

/-- The line that a quotation was cut from. -/
def join (quotation : Quotation) : List Char :=
  quotation.lead ++ quotation.quotes.flatMap fun (inside, plain) => '"' :: inside ++ '"' :: plain

/-- Changes the plain text and leaves the quoted parts alone. -/
def mapPlain (change : List Char → List Char) (quotation : Quotation) : Quotation :=
  ⟨change quotation.lead, quotation.quotes.map fun (inside, plain) => (inside, change plain)⟩

/-- Changes the plain text from left to right, where a change may fail. -/
def mapPlainM (change : List Char → Except Fault (List Char)) (quotation : Quotation) :
    Except Fault Quotation := do
  let lead ← change quotation.lead
  let quotes ← quotation.quotes.mapM fun (inside, plain) => do
    let changed ← change plain
    pure (inside, changed)
  pure ⟨lead, quotes⟩

end Quotation

/-! ### Comments -/

/-- The text before the first two slashes, if there are any. -/
def beforeSlashes? : List Char → Option (List Char)
  | '/' :: '/' :: _ => some []
  | c :: rest => (beforeSlashes? rest).map (c :: ·)
  | [] => none

/-- The line before the first comment in its plain text, if there is one. -/
def beforeComment? (lead : List Char) : List (List Char × List Char) → Option (List Char)
  | [] => beforeSlashes? lead
  | (inside, plain) :: rest =>
    match beforeSlashes? lead with
    | some kept => some kept
    | none => (beforeComment? plain rest).map fun kept => lead ++ '"' :: inside ++ '"' :: kept

/-- Drops a comment and the blanks before it. A line without a comment stays as it
is. -/
def stripComment (line : List Char) : List Char :=
  let quotation := Quotation.ofLine line
  match beforeComment? quotation.lead quotation.quotes with
  | some kept => Text.trimEnd kept
  | none => line

/-! ### Spacing -/

/-- Drops blanks after commas; the flag says whether a comma was just passed. -/
def tightenFrom : (afterComma : Bool) → List Char → List Char
  | _, [] => []
  | true, c :: rest =>
    if Text.isBlank c then tightenFrom true rest else c :: tightenFrom (c == ',') rest
  | false, c :: rest => c :: tightenFrom (c == ',') rest

/-- Drops the blanks after every comma. -/
def tightenCommas (text : List Char) : List Char :=
  tightenFrom false text

/-- Sets a space before every step mark. -/
def spaceSteps : List Char → List Char
  | '+' :: '+' :: rest => ' ' :: '+' :: '+' :: spaceSteps rest
  | '-' :: '-' :: rest => ' ' :: '-' :: '-' :: spaceSteps rest
  | c :: rest => c :: spaceSteps rest
  | [] => []

/-! ### Names in brackets -/

/-- The name in front of a closing angle bracket. It starts neither with a blank
nor with an equals sign and does not end with a blank, so that comparisons are not
taken for names. -/
def bracketName? (text : List Char) : Option (List Char) :=
  let name := text.takeWhile fun c => c != '<' && c != '>'
  let closed := (text.drop name.length).head? == some '>'
  match name.head?, name.getLast? with
  | some first, some last =>
    if closed && !Text.isBlank first && first != '=' && !Text.isBlank last then some name else none
  | _, _ => none

/-- The names in brackets that belong to the language itself. -/
def isReservedName (name : List Char) : Bool :=
  name == "Anchor".toList || name == "ScriptRv".toList || "TaskPause(".toList.isPrefixOf name

/-- What a name in brackets gives way to: the number of the map, or else of the
item, that it names. -/
def nameNumber (symbols : Symbols) (name : List Char) : Except Fault (List Char) :=
  if isReservedName name then .ok ('<' :: name ++ ['>'])
  else
    let word := String.ofList name
    match symbols.mapId? word with
    | some id => .ok (Text.integer id)
    | none =>
      match symbols.itemId? word with
      | some id => .ok (Text.natural id)
      | none => fail (.unknownName .itemOrMap word)

/-- Replaces names in brackets from left to right. The count says how many
characters of the last name are still to be passed over. -/
def replaceNames (symbols : Symbols) : List Char → (passed : Nat) → Except Fault (List Char)
  | [], _ => .ok []
  | _ :: rest, passed + 1 => replaceNames symbols rest passed
  | c :: rest, 0 =>
    match if c == '<' then bracketName? rest else none with
    | some name => do
      let number ← nameNumber symbols name
      let tail ← replaceNames symbols rest (name.length + 1)
      pure (number ++ tail)
    | none => do
      let tail ← replaceNames symbols rest 0
      pure (c :: tail)

/-! ### Lines -/

/-- A line of a script file: where it stands, and its text when cleaned. -/
structure ScriptLine where
  origin : Origin
  text : List Char
  deriving DecidableEq, Repr

/-- Cleans one line. -/
def cleanLine (symbols : Symbols) (line : List Char) : Except Fault (List Char) := do
  let bare := stripComment line
  let tight := ((Quotation.ofLine bare).mapPlain tightenCommas).join
  let spaced := ((Quotation.ofLine tight).mapPlain spaceSteps).join
  let named ← (Quotation.ofLine spaced).mapPlainM (replaceNames symbols · 0)
  pure (Text.trim named.join)

/-- Cleans the line with a number; a fault is blamed on it. -/
def ScriptLine.clean (symbols : Symbols) (number : Nat) (line : List Char) :
    Except Fault ScriptLine :=
  let origin : Origin := ⟨number, String.ofList line⟩
  locating (some origin) do
    let text ← cleanLine symbols line
    pure ⟨origin, text⟩

/-- Cuts script text into lines and cleans them; lines count from one. -/
def cleanText (symbols : Symbols) (text : List Char) : Except Fault (List ScriptLine) :=
  ((Text.splitLines text).mapIdx fun place line => (place + 1, line)).mapM
    fun (number, line) => ScriptLine.clean symbols number line

end MapScript
