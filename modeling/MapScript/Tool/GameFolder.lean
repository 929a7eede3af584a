/-
This file finds the symbol files of a game below its folder. Names are compared
without regard to case. The definition file has to be there; the others may be
missing, and then their tables are empty.
-/

import MapScript.Symbols.Sources
import MapScript.Tool.Host

namespace MapScript.Tool

variable {m : Type → Type} [Monad m] [Host m]

/-- Whether two file names are the same but for case. -/
def sameName (first second : String) : Bool :=
  Text.lower first.toList == Text.lower second.toList

/-- The path of a file below a folder, if it is there. -/
def findBelow : (folder : String) → List String → m (Option String)
  | folder, [] => pure (some folder)
  | folder, part :: rest => do
    match ← Host.entries folder with
    | none => pure none
    | some entries =>
      match entries.find? (sameName · part) with
      | none => pure none
      | some entry => findBelow (joinPath folder entry) rest

/-- What a file below a folder holds, if it is there. -/
def readBelow {α β : Type} (folder : String) (parts : List String) (content : String → Job m α)
    (use : α → Job m β) : Job m (Option β) := do
  match ← ExceptT.lift (findBelow folder parts) with
  | none => pure none
  | some path =>
    let found ← content path
    let value ← use found
    pure (some value)

/-- Builds the symbols from the files below a game's folder, which has to be
named. -/
def loadSymbols (named : Option String) : Job m Symbols := do
  let some folder := named | throw .unnamedFolder
  Job.checkPath folder
  let definitions ← readBelow folder ["soup386", "SOUP386.DEF"] Job.readText fun text =>
    Job.logged (Definitions.parse text)
  match definitions with
  | none => Job.attempt (fail (.format (.noDefinitions folder)))
  | some definitions =>
    let subtitles ← readBelow folder ["ENGLISH.RTX"] Job.read fun bytes =>
      Job.attempt (Dialogue.parse bytes)
    let subtitles := subtitles.getD .empty
    let maps ← readBelow folder ["WORLD.INI"] Job.readText fun text =>
      Job.attempt (parseMaps text)
    let labels ← readBelow folder ["ITEM.INI"] Job.readText fun text =>
      Job.attempt (parseItems text)
    pure (.assemble (some definitions) subtitles (maps.getD .empty)
      (itemNames (labels.getD []) subtitles) standardParameterKinds)

end MapScript.Tool
