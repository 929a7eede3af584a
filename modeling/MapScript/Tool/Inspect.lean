/-
The tool that shows what a map file holds: its records, its headers, and whether
writing it gives the same bytes back.
-/

import MapScript.Container.MapFile
import MapScript.Tool.Host

namespace MapScript.Tool

/-! ### Columns -/

/-- A text at the left of a column. -/
def leftIn (width : Nat) (text : List Char) : String :=
  String.ofList (Text.padRight width ' ' text)

/-- A text at the right of a column. -/
def rightIn (width : Nat) (text : List Char) : String :=
  String.ofList (Text.padLeft width ' ' text)

/-- A number with a comma between thousands. -/
def groupedText (n : Nat) : String :=
  String.ofList (Text.grouped n)

/-- An offset in hexadecimal digits. -/
def offsetText (width offset : Nat) : String :=
  "0x" ++ String.ofList (Text.hexCapital width offset)

/-- A line across a table. -/
def ruleText (width : Nat) : String :=
  String.ofList (List.replicate width '-')

/-! ### Reports -/

/-- The sum of sizes. -/
def total (sizes : List Nat) : Nat :=
  sizes.foldl (fun sum size => sum + size) 0

/-- The lines of the record table. -/
def recordTable (file : MapFile) : List String :=
  let size := total (file.records.map fun record => record.payload.length)
  [rightIn 4 ['#'] ++ "  " ++ leftIn 6 "Tag".toList ++ " " ++ rightIn 10 "Length".toList,
    ruleText 24] ++
  (file.records.mapIdx fun place record =>
    rightIn 4 (Text.natural place) ++ "  " ++ leftIn 6 (Bytes.toChars record.tag) ++ " " ++
      rightIn 10 (Text.grouped record.payload.length)) ++
  [ruleText 24,
    s!"Total: {file.records.length} records, {groupedText size} payload bytes"] ++
  (if file.trailer.isEmpty then [] else [s!"  Trailer after END: {file.trailer.length} bytes"])

/-- The line of a header in the header table. -/
def headerRow (place : Nat) (header : Header) : String :=
  rightIn 4 (Text.natural place) ++ "  " ++ leftIn 10 header.name.toList ++ " " ++
    rightIn 4 (Text.natural (header.field .instances)) ++ " " ++
    rightIn 7 (Text.grouped (header.field .codeLength)) ++ " " ++
    offsetText 6 (header.field .codeOffset) ++ " " ++ offsetText 4 (header.field .entry) ++ " " ++
    rightIn 4 (Text.natural header.strings.length) ++ " " ++
    rightIn 4 (Text.natural header.locals.length) ++ " " ++
    rightIn 5 (Text.natural header.attributeValues.length)

/-- The lines of the header table. -/
def headerTable (file : MapFile) : List String :=
  let size := total (file.headers.map fun header => header.field .codeLength)
  [rightIn 4 ['#'] ++ "  " ++ leftIn 10 "Name".toList ++ " " ++ rightIn 4 "Inst".toList ++ " " ++
      rightIn 7 "Script".toList ++ " " ++ rightIn 8 "Offset".toList ++ " " ++
      rightIn 6 "PC".toList ++ " " ++ rightIn 4 "Str".toList ++ " " ++
      rightIn 4 "Vars".toList ++ " " ++ rightIn 5 "Attrs".toList,
    ruleText 62] ++
  file.headers.mapIdx headerRow ++
  [ruleText 62,
    s!"Total: {file.headers.length} headers, {groupedText size} script bytes " ++
      s!"(base offset {offsetText 0 (MapFile.codeBase file.headers)})"]

/-- The first place where two runs of bytes differ; the end of the shorter one if
they do not differ before. -/
def firstDifference : Bytes → Bytes → Nat
  | first :: rest, second :: others =>
    if first = second then firstDifference rest others + 1 else 0
  | _, _ => 0

/-- Compares a file with what writing it gave: the exit code and the line that
says so. -/
def verification (data written : Bytes) : Nat × String :=
  if written = data then
    (0, s!"  VERIFY OK: {groupedText data.length} bytes, byte-identical")
  else
    (1, s!"  VERIFY FAILED: {groupedText data.length} vs {groupedText written.length} bytes, " ++
      s!"first difference at {offsetText 0 (firstDifference data written)}")

/-! ### The tool -/

/-- Asks for the record table. -/
def recordsOption : OptionForm := ⟨["--records"], false, false⟩

/-- Asks for the header table. -/
def headersOption : OptionForm := ⟨["--headers"], false, false⟩

/-- Asks for the comparison with what writing gives. -/
def verifyOption : OptionForm := ⟨["--verify"], false, false⟩

/-- Asks for more words on the way. -/
def verboseOption : OptionForm := ⟨["-v", "--verbose"], false, false⟩

/-- How the tool is used. -/
def inspectForm : CommandForm :=
  { usage := "usage: inspect [-h] [--records] [--headers] [--verify] [-v] MAP"
    options := [recordsOption, headersOption, verifyOption, verboseOption]
    operands := [false] }

variable {m : Type → Type} [Monad m] [Host m]

/-- Compares a map with what writing it gives. -/
def verifyMap (data : Bytes) (file : MapFile) : Job m Nat := do
  let written ← Job.attempt file.encode
  let (code, line) := verification data written
  Job.print line
  pure code

/-- Shows a map that was read. -/
def showMap (arguments : Arguments) (data : Bytes) (file : MapFile) : Job m Nat := do
  Job.print (s!"  Loaded: {groupedText data.length} bytes, {file.records.length} records, " ++
    s!"{file.headers.length} headers\n")
  if arguments.has verifyOption then verifyMap data file
  else
    let showAll := !(arguments.has recordsOption || arguments.has headersOption)
    if arguments.has recordsOption || showAll then
      for line in recordTable file do
        Job.print line
    if showAll then Job.print ""
    if arguments.has headersOption || showAll then
      for line in headerTable file do
        Job.print line
    pure 0

/-- Shows what a map file holds. -/
def inspect (texts : List String) : Job m Nat :=
  Job.start inspectForm texts fun arguments => do
    let path := (arguments.operand? 0).getD ""
    if ← ExceptT.lift (Host.isThere path) then
      let data ← Job.read path
      match MapFile.decode data with
      | .ok file => showMap arguments data file
      | .error fault => Job.reporting 1 (throw (.fault fault))
    else
      ExceptT.lift (Host.complain ("File not found: " ++ path))
      pure 1

end MapScript.Tool
