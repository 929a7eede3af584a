/-
This file writes the script text of a whole map: which map it is, and then the
scripts of its headers, each after lines for the variables that may be edited and
for the attributes that are not zero.
-/

import MapScript.Container.MapFile
import MapScript.Listing.Decoding

namespace MapScript

/-- The lines that say which map the text belongs to, with the numbers of the
map. -/
def preambleText (name : String) (ids : List Int) : String :=
  "Maps\\" ++ name ++ ".RGM\n" ++ (if 1 < ids.length then "IDs: " else "ID: ") ++
    ", ".intercalate (ids.map fun id => String.ofList (Text.integer id)) ++ "\n\n"

/-- The variables of a header that may be edited, with their places: all but the
first two and the last two, if there are more than four. -/
def editableVariables (locals : List Int) : List (Nat × Int) :=
  if locals.length ≤ 4 then []
  else ((locals.mapIdx fun place value => (place, value)).drop 2).take (locals.length - 4)

/-- The lines that set the variables of a header. -/
def variablesText (locals : List Int) : String :=
  let lines := (editableVariables locals).map fun (place, value) =>
    "var" ++ String.ofList (Text.natural place) ++ " = " ++ String.ofList (Text.integer value) ++ "\n"
  if locals.length ≤ 4 then "" else String.join lines ++ "\n"

/-- The lines that set the attributes of a header. -/
def attributesText (symbols : Symbols) (attributes : List (Nat × Int)) :
    Except Fault String := do
  let lines ← attributes.mapM fun (place, value) => do
    let name ← symbols.attributeName place
    pure (name ++ " = " ++ String.ofList (Text.integer value) ++ "\n")
  pure (if attributes.isEmpty then "" else String.join lines ++ "\n")

/-- The text of a header: its variables, its attributes and its script. -/
def Header.text (header : Header) (symbols : Symbols) (lenient : Bool) : Logged String := do
  let attributes ← Logged.lift (attributesText symbols header.attributeValues)
  let script ← header.program.text symbols lenient
  pure (variablesText header.locals ++ attributes ++ script)

/-- The script text of a map. A map that is given a name says which map it is; its
numbers are those given, or else those that the symbols know. -/
def MapFile.text (file : MapFile) (symbols : Symbols) (name : Option String) (ids : List Int)
    (lenient : Bool) : Logged String := do
  let preamble := match name with
    | some name =>
      if name.isEmpty then ""
      else preambleText name (if ids.isEmpty then symbols.mapIds name else ids)
    | none => ""
  let scripts ← file.headers.mapM fun header => header.text symbols lenient
  pure (preamble ++ "\n\n".intercalate scripts)

end MapScript
