/-
The command line. The first argument says which tool is meant, and the others are
its arguments. The tools work on the disk here; everything they decide is decided
elsewhere.
-/

import MapScript.Tool.Install

namespace MapScript.Tool

/-- The trouble behind a refusal of the disk. -/
def fileTrouble : IO.Error → FileTrouble
  | .inappropriateType .. => .isAFolder
  | _ => .missing

/-- Uses the disk, and says which file was in the way if it refuses. -/
def onDisk {α : Type} (path : String) (act : IO α) : IO (Except FileFault α) := do
  try
    let value ← act
    pure (.ok value)
  catch refusal => pure (.error ⟨fileTrouble refusal, path⟩)

instance : Host IO where
  print line := IO.println line
  complain line := IO.eprintln line
  note notice := IO.eprintln ("WARNING " ++ notice.message)
  isThere path := do
    let found ← onDisk path (IO.FS.realPath path >>= fun place => place.pathExists)
    pure (found.toOption.getD false)
  read path := onDisk path do
    let content ← IO.FS.readBinFile path
    pure content.toList
  entries path := do
    let found ← onDisk path (IO.FS.realPath path >>= fun place => place.readDir)
    pure (found.toOption.map fun entries => (entries.map fun entry => entry.fileName).toList)
  write path bytes := onDisk path (IO.FS.writeBinFile path bytes.toByteArray)

/-- How the command line is used. -/
def commandUsage : String :=
  "usage: mapscript TOOL ..., where TOOL is inspect, extract or install"

/-- Runs a tool on the disk, and gives its exit code. -/
def runTool (tool : List String → Job IO Nat) (texts : List String) : IO UInt32 := do
  match ← (tool texts).run with
  | .ok code => pure (UInt32.ofNat code)
  | .error trouble =>
    IO.eprintln ("error: " ++ trouble.message)
    pure 1

end MapScript.Tool

/-- Runs the tool that the first argument names. -/
def main (arguments : List String) : IO UInt32 :=
  match arguments with
  | "inspect" :: rest => MapScript.Tool.runTool MapScript.Tool.inspect rest
  | "extract" :: rest => MapScript.Tool.runTool MapScript.Tool.extract rest
  | "install" :: rest => MapScript.Tool.runTool MapScript.Tool.install rest
  | _ => do
    IO.eprintln MapScript.Tool.commandUsage
    pure 2
