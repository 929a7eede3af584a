/-
The symbols of a game: the names behind the numbers that scripts hold. A number
is the place of its entry in a table, so looking up a number is indexing; a name
belongs to the first entry that carries it, so looking up a name and indexing
with the result gives that name back.
-/

import MapScript.Fault
import MapScript.Registry

namespace MapScript

/-! ### Functions and flags -/

/-- How a function is run. -/
inductive FunctionKind where
  | task
  | multitask
  | function
  | other (word : String)
  deriving DecidableEq, Repr

namespace FunctionKind

/-- The kind a word stands for. -/
def ofWord (word : String) : FunctionKind :=
  if word = "task" then task
  else if word = "multitask" then multitask
  else if word = "function" then function
  else other word

/-- The word for a kind. -/
def word : FunctionKind → String
  | task => "task"
  | multitask => "multitask"
  | function => "function"
  | other word => word

/-- Whether a kind is one of the three that the engine knows. -/
def isKnown : FunctionKind → Bool
  | other _ => false
  | _ => true

end FunctionKind

/-- A function that scripts can call. -/
structure GameFunction where
  name : String
  kind : FunctionKind
  parameterCount : Int
  deriving DecidableEq, Repr

/-- The function with number zero, which every table starts with. -/
def GameFunction.null : GameFunction := ⟨"NullFunction", .function, 0⟩

/-- A global flag that scripts can read and set. -/
structure GameFlag where
  name : String
  type : String
  value : String
  comment : Option String
  deriving DecidableEq, Repr

/-! ### Parameter kinds -/

/-- What a literal stands for in one parameter of a function. -/
inductive ParameterKind where
  | normal
  | dialogue
  | map
  | item
  | other (word : String)
  deriving DecidableEq, Repr

namespace ParameterKind

/-- The kind a word stands for. -/
def ofWord (word : String) : ParameterKind :=
  if word = "normal" then normal
  else if word = "dialogue" then dialogue
  else if word = "map" then map
  else if word = "item" then item
  else other word

/-- The word for a kind. -/
def word : ParameterKind → String
  | normal => "normal"
  | dialogue => "dialogue"
  | map => "map"
  | item => "item"
  | other word => word

end ParameterKind

/-- The key of a parameter: the function's name followed by the parameter's
place. -/
def parameterKey (function : String) (index : Int) : String :=
  function ++ String.ofList (Text.integer index)

/-- The place that stands for the other side of a comparison with a call. -/
def comparisonIndex : Int := 9

/-- The parameters that take more than plain numbers. -/
def standardParameterKinds : Registry String ParameterKind :=
  .ofList
    [("ACTIVATE0", .dialogue), ("AddLog0", .dialogue), ("AmbientRtx0", .dialogue),
      ("menuAddItem0", .dialogue), ("RTX0", .dialogue), ("rtxAnim0", .dialogue),
      ("RTXp0", .dialogue), ("RTXpAnim0", .dialogue), ("TorchActivate0", .dialogue),
      ("LoadWorld0", .map), ("ActiveItem9", .item), ("AddItem0", .item), ("DropItem0", .item),
      ("HandItem0", .item), ("HaveItem0", .item), ("SelectItem0", .item), ("ShowItem0", .item),
      ("ShowItemNoRtx0", .item)]

/-- The functions whose literal arguments name a global flag by number. -/
def globalFlagFunctions : List String :=
  ["TestGlobalFlag", "SetGlobalFlag", "ResetGlobalFlag"]

/-! ### Symbol tables -/

/-- All symbol tables of a game. An item without a name keeps its place. -/
structure Symbols where
  functions : List GameFunction
  flags : List GameFlag
  references : List String
  attributes : List String
  items : List (Option String)
  maps : Registry Int String
  subtitles : Registry String String
  parameterKinds : Registry String ParameterKind

/-- The entry at a place of a table. -/
def entryAt {α : Type} (table : List α) (place : Int) : Option α :=
  if 0 ≤ place then table[place.toNat]? else none

namespace Symbols

/-! ### From numbers to entries -/

/-- The function with a number. -/
def function (symbols : Symbols) (id : Int) : Except Fault GameFunction :=
  match entryAt symbols.functions id with
  | some entry => .ok entry
  | none => fail (.unknownId .function id)

/-- The flag with a number. -/
def flag (symbols : Symbols) (id : Int) : Except Fault GameFlag :=
  match entryAt symbols.flags id with
  | some entry => .ok entry
  | none => fail (.unknownId .flag id)

/-- The reference with a number. -/
def reference (symbols : Symbols) (id : Int) : Except Fault String :=
  match entryAt symbols.references id with
  | some entry => .ok entry
  | none => fail (.unknownId .reference id)

/-- The attribute at a place. -/
def attributeName (symbols : Symbols) (place : Int) : Except Fault String :=
  match entryAt symbols.attributes place with
  | some entry => .ok entry
  | none => fail (.unknownId .attributeIndex place)

/-- The name of an item, if it has one. -/
def itemName? (symbols : Symbols) (id : Int) : Option String :=
  (entryAt symbols.items id).join

/-- The name of the map with a number. -/
def mapName? (symbols : Symbols) (id : Int) : Option String :=
  symbols.maps.find? id

/-- The subtitle of a dialogue label. -/
def subtitle? (symbols : Symbols) (label : String) : Option String :=
  symbols.subtitles.find? label

/-- What a literal stands for in a parameter of a function. -/
def parameterKind (symbols : Symbols) (function : String) (index : Int) : ParameterKind :=
  (symbols.parameterKinds.find? (parameterKey function index)).getD .normal

/-! ### From names to numbers -/

/-- The number of the first function with a name. -/
def functionId? (symbols : Symbols) (name : String) : Option Nat :=
  (symbols.functions.map GameFunction.name).idxOf? name

/-- The number of the first flag with a name. -/
def flagId? (symbols : Symbols) (name : String) : Option Nat :=
  (symbols.flags.map GameFlag.name).idxOf? name

/-- The number of the first reference with a name. -/
def referenceId? (symbols : Symbols) (name : String) : Option Nat :=
  symbols.references.idxOf? name

/-- The place of the first attribute with a name. -/
def attributeId? (symbols : Symbols) (name : String) : Option Nat :=
  symbols.attributes.idxOf? name

/-- The number of the first item with a name. -/
def itemId? (symbols : Symbols) (name : String) : Option Nat :=
  symbols.items.idxOf? (some name)

/-- All numbers of a map, in ascending order. -/
def mapIds (symbols : Symbols) (name : String) : List Int :=
  ((symbols.maps.entries.filter fun entry => entry.2 == name).map Prod.fst).mergeSort

/-- The least number of a map. -/
def mapId? (symbols : Symbols) (name : String) : Option Int :=
  (symbols.mapIds name).head?

/-- The answer of a look-up by name, or the fault that there is none. -/
def resolve {α : Type} (kind : NameKind) (name : String) : Option α → Except Fault α
  | some id => .ok id
  | none => fail (.unknownName kind name)

/-- The number of a function that has to exist. -/
def functionId (symbols : Symbols) (name : String) : Except Fault Nat :=
  resolve .function name (symbols.functionId? name)

/-- The number of a flag that has to exist. -/
def flagId (symbols : Symbols) (name : String) : Except Fault Nat :=
  resolve .flag name (symbols.flagId? name)

/-- The number of a reference that has to exist. -/
def referenceId (symbols : Symbols) (name : String) : Except Fault Nat :=
  resolve .reference name (symbols.referenceId? name)

/-- The place of an attribute that has to exist. -/
def attributeId (symbols : Symbols) (name : String) : Except Fault Nat :=
  resolve .attributeName name (symbols.attributeId? name)

/-- The number of an item that has to exist. -/
def itemId (symbols : Symbols) (name : String) : Except Fault Nat :=
  resolve .item name (symbols.itemId? name)

/-- The least number of a map that has to exist. -/
def mapId (symbols : Symbols) (name : String) : Except Fault Int :=
  resolve .map name (symbols.mapId? name)

end Symbols

end MapScript
