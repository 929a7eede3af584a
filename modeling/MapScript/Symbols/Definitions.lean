/-
The definition file: functions, references, attributes and flags, each in its own
section. The sections stand in a fixed order, and an entry's number is its place
among the meaningful lines of its section, so blank lines and comment lines never
shift a number.
-/

import MapScript.Logged
import MapScript.Symbols.Basic
import MapScript.Text.Lines

namespace MapScript

/-! ### Entries -/

/-- Reads a function line: a kind, a name, the word `params` and a number. A kind
that the engine does not know is kept, with a notice. -/
def GameFunction.parse (line : List Char) : Logged GameFunction :=
  let words := (Text.words line).map String.ofList
  match words with
  | kind :: name :: mark :: count :: _ =>
    if mark = "params" then do
      unless (FunctionKind.ofWord kind).isKnown do
        Logged.note (.functionKind kind (String.ofList line))
      match Text.readSetting? count.toList with
      | some parameterCount => pure ⟨name, .ofWord kind, parameterCount⟩
      | none => Logged.lift (fail (.notANumber count))
    else Logged.lift (fail (.format (.functionLine (String.ofList line))))
  | _ => Logged.lift (fail (.format (.functionLine (String.ofList line))))

/-- Reads a flag line: a type, a name and a value, and after a semicolon a
comment. -/
def GameFlag.parse (line : List Char) : Except Fault GameFlag :=
  let (body, comment) := Text.cutAt ';' line
  match (Text.words body).map String.ofList with
  | type :: name :: value :: _ => .ok ⟨name, type, value, comment.map String.ofList⟩
  | _ => fail (.format (.flagLine (String.ofList line)))

/-! ### Sections -/

/-- Whether a line counts: it is not empty and no comment. -/
def isMeaningful (line : List Char) : Bool :=
  !line.isEmpty && line.head? != some ';'

/-- The lines after the first line that equals a mark. -/
def afterMark (mark : String) (lines : List (List Char)) : List (List Char) :=
  (lines.dropWhile (· != mark.toList)).drop 1

/-- The meaningful lines before the first line that equals a mark. -/
def beforeMark (mark : String) (lines : List (List Char)) : List (List Char) :=
  (lines.takeWhile (· != mark.toList)).filter isMeaningful

/-- The contents of a definition file. -/
structure Definitions where
  functions : List GameFunction
  references : List String
  attributes : List String
  flags : List GameFlag
  deriving DecidableEq, Repr

namespace Definitions

/-- The lines of a definition file: only the line feed ends a line, and carriage
returns at the end of a line are dropped. -/
def lines (text : List Char) : List (List Char) :=
  (Text.splitOn '\n' text).map fun line => (line.reverse.dropWhile (· == '\r')).reverse

/-- The lines of a section as trimmed names. -/
def names (lines : List (List Char)) : List String :=
  lines.map fun line => String.ofList (Text.trim line)

/-- Reads the sections from lines: functions, references, attributes and flags,
in this order. The function with number zero is not written in the file. An
attribute line with an equals sign is passed over. -/
def ofLines (lines : List (List Char)) : Logged Definitions := do
  let fromFunctions := afterMark "[functions]" lines
  let fromReferences := afterMark "[refs]" fromFunctions
  let fromEquates := afterMark "[equates]" fromReferences
  let fromAttributes := afterMark "auto" fromEquates
  let fromFlags := afterMark "[flags]" (afterMark "endauto" fromAttributes)
  let functions ← (beforeMark "[refs]" fromFunctions).mapM GameFunction.parse
  let flags ← Logged.lift ((fromFlags.filter isMeaningful).mapM GameFlag.parse)
  pure {
    functions := .null :: functions
    references := names (beforeMark "[equates]" fromReferences)
    attributes := names ((beforeMark "endauto" fromAttributes).filter fun line => !line.contains '=')
    flags := flags }

/-- Reads a definition file. -/
def parse (text : List Char) : Logged Definitions :=
  ofLines (lines text)

end Definitions

end MapScript
