/-
Building the symbol tables from the contents of the game's files. The files are
read in a fixed order, so that of several faults always the same one is reported:
definitions, dialogue, maps, items.
-/

import MapScript.Symbols.Definitions
import MapScript.Symbols.Dialogue
import MapScript.Symbols.Settings

namespace MapScript

/-- The contents of the files that symbols come from, each of which may be
missing. -/
structure SymbolSources where
  definitions : Option (List Char)
  dialogue : Option Bytes
  maps : Option (List Char)
  items : Option (List Char)
  parameterKinds : Registry String ParameterKind

namespace Symbols

/-- The tables from their contents. There is always a function with number
zero. -/
def assemble (definitions : Option Definitions) (subtitles : Registry String String)
    (maps : Registry Int String) (items : List (Option String))
    (parameterKinds : Registry String ParameterKind) : Symbols :=
  let found := definitions.getD ⟨[.null], [], [], []⟩
  { functions := found.functions
    flags := found.flags
    references := found.references
    attributes := found.attributes
    items := items
    maps := maps
    subtitles := subtitles
    parameterKinds := parameterKinds }

/-- Builds the tables from the contents of the files. -/
def ofSources (sources : SymbolSources) : Logged Symbols := do
  let definitions ← sources.definitions.mapM Definitions.parse
  let subtitles ← Logged.lift ((sources.dialogue.mapM Dialogue.parse).map (·.getD .empty))
  let maps ← Logged.lift ((sources.maps.mapM parseMaps).map (·.getD .empty))
  let labels ← Logged.lift ((sources.items.mapM parseItems).map (·.getD []))
  pure (assemble definitions subtitles maps (itemNames labels subtitles) sources.parameterKinds)

end Symbols

end MapScript
