/-
This file describes listings: the statements that script code holds, as lines of
text with their addresses and depths, and the addresses that are jumped to. A
listing is written out as script text by putting in braces where the depth
changes and a label line before every line that is jumped to.
-/

import MapScript.Program

namespace MapScript

/-! ### Lines -/

/-- A statement of script code. -/
structure ListedLine where
  address : Nat
  depth : Nat
  text : String
  comment : Option String
  emptyBlock : Bool
  deriving DecidableEq, Repr

namespace ListedLine

/-- A statement of which nothing is read yet. -/
def start (address depth : Nat) : ListedLine :=
  ⟨address, depth, "", none, false⟩

/-- A one-line description. -/
def describe (line : ListedLine) : String :=
  s!"Instruction(0x{String.ofList (Text.hexSmall line.address)}, depth={line.depth}, {quote line.text})"

end ListedLine

/-- The statements of a script in the order of their addresses, the addresses that
are referred to, in ascending order, and the place where reading ended. -/
structure Listing where
  lines : List ListedLine
  labels : List Nat
  cursor : Nat
  deriving DecidableEq, Repr

/-- Adds a label to labels in ascending order, unless it is there already. -/
def insertLabel (label : Nat) : List Nat → List Nat
  | [] => [label]
  | first :: rest =>
    if label < first then label :: first :: rest
    else if label = first then first :: rest
    else first :: insertLabel label rest

namespace Listing

/-- The labels that neither start a statement nor stand at the end of the
script. -/
def looseLabels (listing : Listing) (length : Nat) : List Nat :=
  listing.labels.filter fun label =>
    label != length && !listing.lines.any fun line => line.address == label

/-! ### Text -/

/-- The blanks in front of a line at a depth. -/
def indent (depth : Nat) : String :=
  String.ofList (List.replicate (2 * depth) ' ')

/-- An opening brace at a depth. -/
def openBrace (depth : Nat) : String := indent depth ++ "\x7b"

/-- A closing brace at a depth. -/
def closeBrace (depth : Nat) : String := indent depth ++ "\x7d"

/-- The closing braces from a depth down to another, deepest first. -/
def closing (inner outer : Nat) : List String :=
  ((List.range' outer (inner - outer)).reverse).map closeBrace

/-- The braces between two lines: opening ones where the depth rises, closing ones
where it falls. -/
def bracesBetween (previous next : Nat) : List String :=
  if previous < next then (List.range' previous (next - previous)).map openBrace
  else closing previous next

/-- The label line for an address. -/
def labelLine (depth address : Nat) : List String :=
  ["", indent depth ++ labelText address ++ ":"]

/-- The text lines of a statement, after a statement of the given depth. -/
def renderLine (labels : List Nat) (previous : Nat) (line : ListedLine) : List String :=
  let comment := match line.comment with
    | some comment => " // " ++ comment
    | none => ""
  bracesBetween previous line.depth ++
  (if labels.contains line.address then labelLine line.depth line.address else []) ++
  [indent line.depth ++ line.text ++ comment] ++
  (if line.emptyBlock then [openBrace line.depth, closeBrace line.depth] else [])

/-- The text lines of statements, after a statement of the given depth, and the
depth of the last one. -/
def renderLines (labels : List Nat) : (previous : Nat) → List ListedLine → List String × Nat
  | previous, [] => ([], previous)
  | previous, line :: rest =>
    let (others, last) := renderLines labels line.depth rest
    (renderLine labels previous line ++ others, last)

/-- The first line of a script: its name, and the entry point if it is not the
start. -/
def titleLine (program : Program) : String :=
  if program.entry = 0 then program.name
  else program.name ++ " (Execution starts at " ++ labelText program.entry ++ ")"

/-- The lines after the last statement, which has the given depth: closing braces,
and a label at the end of the script inside the outermost one. -/
def renderEnd (labels : List Nat) (length depth : Nat) : List String :=
  (if depth = 0 then [openBrace 0] else []) ++ closing depth 1 ++
  (if labels.contains length then labelLine 1 length else []) ++ [closeBrace 0]

/-- The text lines of a script. -/
def render (listing : Listing) (program : Program) : List String :=
  let (lines, depth) := renderLines listing.labels 0 listing.lines
  titleLine program :: lines ++ renderEnd listing.labels program.code.length depth

end Listing

end MapScript
