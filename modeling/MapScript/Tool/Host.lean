/-
This file says what a tool needs from its surroundings: printing, and files that
can be read, listed and written. The tools are written against these few acts, so
that they can be run on a real disk and on a folder held in memory alike.
-/

import MapScript.Logged
import MapScript.Text.Lines
import MapScript.Tool.Arguments

namespace MapScript.Tool

/-! ### Files -/

/-- Why a file cannot be reached. -/
inductive FileTrouble where
  | missing
  | notAFolder
  | isAFolder
  | nameTooLong
  deriving DecidableEq, Repr

/-- A file that cannot be reached. -/
structure FileFault where
  trouble : FileTrouble
  path : String
  deriving DecidableEq, Repr

/-- The wording of a file fault. -/
def FileFault.message (fault : FileFault) : String :=
  let what := match fault.trouble with
    | .missing => "[Errno 2] No such file or directory"
    | .notAFolder => "[Errno 20] Not a directory"
    | .isAFolder => "[Errno 21] Is a directory"
    | .nameTooLong => "[Errno 36] File name too long"
  what ++ ": " ++ quote fault.path

/-- The path of an entry of a folder. -/
def joinPath (folder entry : String) : String :=
  if folder.toList.getLast?.all (· == '/') then folder ++ entry else folder ++ "/" ++ entry

/-! ### Surroundings -/

/-- What a tool can do. -/
class Host (m : Type → Type) where
  /-- Prints a line. -/
  print : String → m Unit
  /-- Prints a line where complaints go. -/
  complain : String → m Unit
  /-- Passes a notice on. -/
  note : Notice → m Unit
  /-- Whether there is a file or folder at a path. -/
  isThere : String → m Bool
  /-- The bytes of a file. -/
  read : String → m (Except FileFault Bytes)
  /-- The names in a folder, if it is one. -/
  entries : String → m (Option (List String))
  /-- Writes a file. -/
  write : String → Bytes → m (Except FileFault Unit)

/-- What stops a tool: a fault of the data, a file that cannot be reached, a folder
that was asked for and not named, or a text with a NUL in the place of a path. -/
inductive Trouble where
  | fault (fault : Fault)
  | file (fault : FileFault)
  | unnamedFolder
  | brokenPath (path : String)
  deriving DecidableEq, Repr

namespace Trouble

/-- The wording of a trouble. -/
def message : Trouble → String
  | .fault found => found.message
  | .file found => found.message
  | .unnamedFolder => "no folder is named"
  | .brokenPath path => "a path cannot hold a NUL: " ++ quote path

/-- Whether a tool reports a trouble and ends, or is stopped by it. -/
def isReported : Trouble → Bool
  | .fault found => found.cause.isReported
  | .file _ => true
  | .unnamedFolder | .brokenPath _ => false

end Trouble

/-- Work of a tool. -/
abbrev Job (m : Type → Type) := ExceptT Trouble m

namespace Job

variable {m : Type → Type} [Monad m] [Host m] {α : Type}

/-- Uses the outcome of an operation. -/
def attempt (result : Except Fault α) : Job m α :=
  ExceptT.mk (pure (result.mapError Trouble.fault))

/-- Uses the outcome of an operation and passes its notices on. -/
def logged (work : Logged α) : Job m α := do
  let (result, notices) := work.outcome
  for notice in notices do
    ExceptT.lift (Host.note notice)
  attempt result

/-- Prints a line. -/
def print (line : String) : Job m Unit :=
  ExceptT.lift (Host.print line)

/-- Asks that a text can be a path. -/
def checkPath (path : String) : Job m Unit :=
  if path.toList.contains (Char.ofNat 0) then throw (.brokenPath path) else pure ()

/-- The bytes of a file. -/
def read (path : String) : Job m Bytes := do
  checkPath path
  let result ← ExceptT.lift (Host.read path)
  ExceptT.mk (pure (result.mapError Trouble.file))

/-- The characters of a text file, with uniform line ends. -/
def readText (path : String) : Job m (List Char) := do
  let bytes ← read path
  pure (Text.unifyLineEnds (Bytes.toChars bytes))

/-- Writes a file. -/
def write (path : String) (bytes : Bytes) : Job m Unit := do
  checkPath path
  let result ← ExceptT.lift (Host.write path bytes)
  ExceptT.mk (pure (result.mapError Trouble.file))

/-- Reports what a tool can report, and goes on with an answer. -/
def reporting (answer : Nat) (work : Job m Nat) : Job m Nat :=
  tryCatch work fun trouble =>
    if trouble.isReported then do
      print ("  ERROR: " ++ trouble.message)
      pure answer
    else throw trouble

/-- Starts a tool if its arguments can be read. -/
def start (form : CommandForm) (texts : List String) (work : Arguments → Job m Nat) :
    Job m Nat :=
  match form.read texts with
  | .ok arguments => work arguments
  | .error .help => do
    print form.usage
    pure 0
  | .error .rejected => do
    ExceptT.lift (Host.complain form.usage)
    pure 2

end Job

end MapScript.Tool
