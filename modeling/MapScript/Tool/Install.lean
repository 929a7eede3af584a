/-
The tool that compiles script text and puts it into a map file. It can also try
itself out on a map: it writes out every script, compiles it again and compares.
-/

import MapScript.Code.Compile
import MapScript.Tool.Extract

namespace MapScript.Tool

/-! ### Percentages -/

/-- The whole number nearest to a quotient; of two equally near ones the even
one. -/
def nearest (numerator denominator : Nat) : Nat :=
  let whole := numerator / denominator
  let twice := 2 * (numerator % denominator)
  if twice < denominator then whole
  else if denominator < twice then whole + 1
  else whole + whole % 2

/-- How many binary digits behind the point a percentage has when it is written with
53 of them. -/
def percentPlaces (part whole : Nat) : Nat :=
  let lift := whole.log2 + 1
  lift + 52 - (100 * part * Nat.pow 2 lift / whole).log2

/-- The tenths of a percentage. The quotient is first rounded to 53 binary digits, and
what that gives is rounded to tenths. -/
def percentTenths (part whole : Nat) : Nat :=
  if part = 0 then 0
  else
    let places := percentPlaces part whole
    nearest (10 * nearest (100 * part * Nat.pow 2 places) whole) (Nat.pow 2 places)

/-- A percentage with one place behind the point. -/
def percentText (part whole : Nat) : String :=
  let tenths := percentTenths part whole
  s!"{tenths / 10}.{tenths % 10}%"

/-! ### Trying a map out -/

/-- Bytes in hexadecimal digits, with spaces between. -/
def dumpText (bytes : Bytes) : String :=
  " ".intercalate (bytes.map fun byte => String.ofList (Text.hexCapital 2 byte.toNat))

/-- The script of a header, written out and compiled again. -/
def recompiled (symbols : Symbols) (header : Header) : Logged Compiled := do
  let text ← header.program.text symbols false
  match ← Logged.lift (compileText symbols [some header.locals] text.toList) with
  | first :: _ => pure first
  | [] => Logged.lift (fail (.noHeader header.name))

/-- The lines about a header whose script came out differently. -/
def mismatchLines (place : Nat) (header : Header) (compiled : Compiled) : List String :=
  let first := firstDifference header.code compiled.code
  [s!"  MISMATCH header [{place}] {header.name}:",
    s!"    Length:   {header.code.length} vs {compiled.code.length}",
    s!"    PC:       {header.field .entry} vs {compiled.entry}",
    s!"    First difference at {offsetText 0 first}",
    s!"    Original: {dumpText (Bytes.part header.code first 16)}",
    s!"    Recomp:   {dumpText (Bytes.part compiled.code first 16)}"]

/-- The most headers that are reported one by one. -/
def reportLimit : Nat := 10

variable {m : Type → Type} [Monad m] [Host m]

/-- Tries one header out, and says what is wrong with it, if anything is. -/
def tryHeader (symbols : Symbols) (place : Nat) (header : Header) : Job m (List String) := do
  let result ← tryCatch (Except.ok <$> Job.logged (recompiled symbols header)) fun trouble =>
    if trouble.isReported then pure (Except.error trouble) else throw trouble
  match result with
  | .error trouble => pure [s!"  ERROR header [{place}] {header.name}: {trouble.message}"]
  | .ok compiled =>
    if compiled.code = header.code ∧ compiled.entry = header.field .entry then pure []
    else pure (mismatchLines place header compiled)

/-- Tries headers out from a place on, and counts those that failed. -/
def tryHeaders (symbols : Symbols) : (place failed : Nat) → List Header → Job m Nat
  | _, failed, [] => pure failed
  | place, failed, header :: rest => do
    let lines ← tryHeader symbols place header
    if lines.isEmpty then tryHeaders symbols (place + 1) failed rest
    else
      if failed < reportLimit then
        for line in lines do
          Job.print line
      tryHeaders symbols (place + 1) (failed + 1) rest

/-- Tries every header of a map out. -/
def tryMap (symbols : Symbols) (file : MapFile) : Job m Nat := do
  let failed ← tryHeaders symbols 0 0 file.headers
  let total := file.headers.length
  let passed := total - failed
  Job.print "\n=== Roundtrip Results ==="
  Job.print s!"  Passed:  {passed}/{total}"
  Job.print s!"  Failed:  {failed}/{total}"
  if 0 < total then Job.print s!"  Rate:    {percentText passed total}"
  pure (if failed = 0 then 0 else 1)

/-! ### The tool -/

/-- Asks for a map to be tried out. -/
def testOption : OptionForm := ⟨["--test"], false, false⟩

/-- How the tool is used. -/
def installForm : CommandForm :=
  { usage := "usage: install [-h] --game-dir DIR [-o PATH] [--test] [-v] MAP [SCRIPT]"
    options := [gameOption, outputOption, testOption, verboseOption]
    operands := [false, true] }

/-- Compiles a script file into a map, and writes the map. -/
def compileInto (symbols : Symbols) (file : MapFile) (script output : String) : Job m Nat := do
  let text ← Job.readText script
  let rebuilt ← Job.attempt (file.compile symbols text)
  let bytes ← Job.attempt rebuilt.encode
  Job.write output bytes
  let size := total (rebuilt.headers.map fun header => header.code.length)
  Job.print s!"  Compiled: {rebuilt.headers.length} headers, {groupedText size} script bytes"
  Job.print s!"  Saved: {output}"
  pure 0

/-- Compiles script text and puts it into a map file. -/
def install (texts : List String) : Job m Nat :=
  Job.start installForm texts fun arguments => do
    let path := (arguments.operand? 0).getD ""
    let script := (arguments.operand? 1).getD ""
    let output := (arguments.value? outputOption).getD ""
    if !arguments.has testOption && (script.isEmpty || output.isEmpty) then
      Job.print installForm.usage
      pure 1
    else
      Job.reporting 1 do
        let symbols ← loadSymbols (arguments.text? gameOption)
        let data ← Job.read path
        let file ← Job.attempt (MapFile.decode data)
        Job.print s!"  Loaded: {path} ({file.headers.length} headers)"
        if arguments.has testOption then tryMap symbols file
        else compileInto symbols file script output

end MapScript.Tool
