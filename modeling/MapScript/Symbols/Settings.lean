/-
The two settings files: which number loads which map, and which dialogue labels
hold the name and the description of each item.
-/

import MapScript.Fault
import MapScript.Registry
import MapScript.Text.Case

namespace MapScript

/-! ### Maps -/

/-- The text between the first opening and the first closing bracket, if both are
there. -/
def bracketed? (line : List Char) : Option (List Char) :=
  match line.idxOf? '[', line.idxOf? ']' with
  | some opening, some closing =>
    some ((line.drop (opening + 1)).take (closing - (opening + 1)))
  | _, _ => none

/-- The name of a map from the path of its file: in capitals, without the folders
and the ending. -/
def mapNameOfPath (path : List Char) : List Char :=
  let name := (Text.upper (Text.trim path)).map fun c => if c == '\\' then '/' else c
  (Text.cutAt '.' (Text.afterLast '/' name)).1

/-- Reads one line of the map settings: nothing if it does not name a map, else
the number and the name. -/
def parseMapLine (line : List Char) : Except Fault (Option (Int × String)) :=
  if "world_map".toList.isPrefixOf line then
    match (bracketed? line).bind Text.readSetting? with
    | none => fail (.format (.worldLine (String.ofList line)))
    | some id =>
      match (Text.cutAt '=' line).2 with
      | none => fail (.noAssignment (String.ofList line))
      | some path => .ok (some (id, String.ofList (mapNameOfPath path)))
  else .ok none

/-- Reads the map settings: the name of the map behind each number. A later line
for a number replaces an earlier one. -/
def parseMaps (text : List Char) : Except Fault (Registry Int String) := do
  let entries ← (Text.splitLines text).mapM fun line => parseMapLine (Text.trim line)
  pure (.ofList (entries.filterMap id))

/-! ### Items -/

/-- The dialogue labels of an item. -/
structure ItemLabels where
  name : String
  description : String
  deriving DecidableEq, Repr

/-- The label after the equals sign of a line, if there is one. -/
def labelAfterEquals? (line : List Char) : Option String :=
  (Text.cutAt '=' line).2.map fun label => String.ofList (Text.lower (Text.trim label))

/-- Reads the items from lines. A line that names an item is followed by the line
that describes it, whatever that line holds. -/
def parseItemLines : List (List Char) → Except Fault (List ItemLabels)
  | [] => .ok []
  | line :: rest =>
    if "name".toList.isPrefixOf line then
      match labelAfterEquals? line with
      | none => fail (.noAssignment (String.ofList line))
      | some name =>
        match rest with
        | [] => .ok [⟨name, ""⟩]
        | next :: rest => do
          let items ← parseItemLines rest
          pure (⟨name, (labelAfterEquals? next).getD ""⟩ :: items)
    else parseItemLines rest

/-- Reads the item settings: the labels of each item, in the order of numbers. -/
def parseItems (text : List Char) : Except Fault (List ItemLabels) :=
  parseItemLines (Text.splitLines text)

/-- Items whose subtitle is shared with another item, and the names that tell
them apart. -/
def distinctItemNames : List (Nat × String) :=
  [(7, "GUARD SWORD"), (15, "RUNE (2 LINES AND A DOT)"), (16, "RUNE (2 LINES)"),
    (17, "RUNE (A LINE AND DOT)"), (20, "ORC'S BLOOD (SUBLIMATED)"),
    (22, "SPIDER'S MILK (SUBLIMATED)"), (24, "ECTOPLASM (SUBLIMATED)"),
    (26, "HIST SAP (SUBLIMATED)"), (30, "GLASS VIAL (WITH ELIXIR)"), (34, "RUNE (fist)"),
    (35, "'ELVEN ARTIFACTS VIII' (COPY)"), (53, "ISZARA'S JOURNAL (OPEN)"),
    (57, "ISZARA'S JOURNAL (LOCKED)"), (61, "N'GASTA'S NECROMANCY BOOK"), (62, "BAR MUG"),
    (63, "MARIAH'S WATERING CAN"), (70, "SKELETON SWORD"), (71, "KEEP OUT"),
    (72, "NO TRESPASSING"), (73, "TOBIAS' BAR MUG"), (75, "FLAMING SABRE"),
    (76, "GOBLIN SWORD"), (77, "OGRE'S AXE"), (78, "DRAM'S SWORD"),
    (79, "SILVER KEY (PALACE)"), (80, "DRAM'S BOW"), (81, "DRAM'S ARROW"),
    (82, "SILVER LOCKET (COPY)"), (84, "WANTED POSTER"), (85, "PALACE DIAGRAM"), (86, "LAST")]

/-- The names of the items: the distinct one if the item has one, else the
subtitle of its name label. -/
def itemNames (labels : List ItemLabels) (subtitles : Registry String String) :
    List (Option String) :=
  labels.mapIdx fun id item => distinctItemNames.lookup id <|> subtitles.find? item.name

end MapScript
