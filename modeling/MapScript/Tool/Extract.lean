/-
The tool that writes out the scripts of a map file as text.
-/

import MapScript.Listing.MapText
import MapScript.Tool.GameFolder
import MapScript.Tool.Inspect

namespace MapScript.Tool

/-- The name of a map from the path of its file: in capitals, without the folders
and the ending. Dots at the start of the name begin no ending. -/
def mapNameOf (path : String) : String :=
  let name := Text.afterLast '/' path.toList
  let ending := (Text.afterLast '.' name).length
  let stem := name.take (name.length - ending - 1)
  let bare := if name.contains '.' && stem.any (· != '.') then stem else name
  String.ofList (Text.upper bare)

/-- Gives the folder of the game. -/
def gameOption : OptionForm := ⟨["--game-dir"], true, true⟩

/-- Gives the name of the only header to write out. -/
def headerOption : OptionForm := ⟨["--header"], true, false⟩

/-- Asks for unknown bytes to be passed over. -/
def lenientOption : OptionForm := ⟨["--lenient"], false, false⟩

/-- Gives the file to write. -/
def outputOption : OptionForm := ⟨["-o", "--output"], true, false⟩

/-- How the tool is used. -/
def extractForm : CommandForm :=
  { usage :=
      "usage: extract [-h] --game-dir DIR [--header NAME] [--lenient] [-o PATH] [-v] MAP"
    options := [gameOption, headerOption, lenientOption, outputOption, verboseOption]
    operands := [false] }

variable {m : Type → Type} [Monad m] [Host m]

/-- The text of a map, or of one of its headers. -/
def mapText (arguments : Arguments) (path : String) (symbols : Symbols) (file : MapFile) :
    Job m String := do
  let lenient := arguments.has lenientOption
  match arguments.value? headerOption with
  | some name =>
    let header ← Job.attempt (file.header name)
    Job.logged (header.program.text symbols lenient)
  | none => Job.logged (file.text symbols (some (mapNameOf path)) [] lenient)

/-- Writes a text to a file, with a line feed at its end. A file that cannot be
reached is found before a character that cannot be written. -/
def writeText (path : String) (text : String) : Job m Unit := do
  match Bytes.ofText? (text ++ "\n") with
  | some bytes => Job.write path bytes
  | none =>
    Job.write path []
    Job.attempt (fail (.wideCharacter text))

/-- Puts a text out: to a file, or else to the screen. -/
def putText (arguments : Arguments) (file : MapFile) (text : String) : Job m Nat := do
  match arguments.value? outputOption with
  | some path =>
    writeText path text
    let lineCount := text.toList.count '\n' + 1
    Job.print (s!"  Saved: {path} ({file.headers.length} headers, " ++
      s!"{groupedText lineCount} lines)")
  | none => Job.print text
  pure 0

/-- Whether a trouble is that there is no such header. -/
def Trouble.isNoHeader : Trouble → Bool
  | .fault ⟨.noHeader _, _⟩ => true
  | _ => false

/-- Writes out the scripts of a map file. -/
def extract (texts : List String) : Job m Nat :=
  Job.start extractForm texts fun arguments => do
    let path := (arguments.operand? 0).getD ""
    let work : Job m (Option (MapFile × String)) := do
      let symbols ← loadSymbols (arguments.text? gameOption)
      let data ← Job.read path
      let file ← Job.attempt (MapFile.decode data)
      let text ← mapText arguments path symbols file
      pure (some (file, text))
    let found ← tryCatch work fun trouble =>
      if trouble.isReported || trouble.isNoHeader then do
        Job.print ("  ERROR: " ++ trouble.message)
        pure none
      else throw trouble
    match found with
    | some (file, text) => putText arguments file text
    | none => pure 1

end MapScript.Tool
