/-
This file compiles scripts: it encodes the body of each one, fills in the addresses
of labels, finds the entry point, and collects strings and attributes. A label
belongs to its script, so nothing but the symbols is shared between scripts.
-/

import MapScript.Code.Encoding
import MapScript.Container.Rebuild
import MapScript.Script.Source

namespace MapScript

/-! ### Labels -/

/-- The address of a label that a script has to define. -/
def labelAddress (script : Script) (labels : Registry Int Nat) (label : Int) :
    Except Fault Nat :=
  match labels.find? label with
  | some address => .ok address
  | none => locating (some script.origin) (fail (.undefinedLabel script.name label))

/-- The bytes of a piece of code when the labels are known. -/
def Cell.resolve (script : Script) (labels : Registry Int Nat) : Cell → Except Fault Bytes
  | .byte value => .ok [value]
  | .address label => do
    let address ← labelAddress script labels label
    packNumber 4 address

/-- Fills in the addresses of labels. -/
def link (script : Script) (labels : Registry Int Nat) (cells : List Cell) :
    Except Fault Bytes := do
  let pieces ← cells.mapM (Cell.resolve script labels)
  pure pieces.flatten

/-! ### Attributes -/

/-- Sets one attribute in a block of attributes. -/
def setAttribute (symbols : Symbols) (block : Bytes) (line : AttributeLine) :
    Except Fault Bytes := do
  let place ← locating (some line.origin) (symbols.attributeId line.name)
  if place < attributeBlockSize ∧ -128 ≤ line.value ∧ line.value ≤ 255 then
    pure (block.set place (UInt8.ofNat (line.value % 256).toNat))
  else locating (some line.origin) (reject (.attributeRange line.name line.value))

/-- The block of attributes that attribute lines set. -/
def attributeBlock (symbols : Symbols) (lines : List AttributeLine) : Except Fault Bytes :=
  lines.foldlM (setAttribute symbols) (List.replicate attributeBlockSize 0)

/-! ### Scripts -/

/-- The entry point of a script: the address of its start label, or zero. -/
def entryPoint (script : Script) (labels : Registry Int Nat) : Except Fault Nat :=
  match script.startLabel with
  | none => .ok 0
  | some label => labelAddress script labels label

/-- Compiles a script for a header with the given variables, if they are known. -/
def Script.compile (symbols : Symbols) (locals : Option (List Int)) (script : Script) :
    Except Fault Compiled := do
  let (cells, assembly) ← (Assembler.block ⟨symbols, locals⟩ 0 script.body).run .empty
  let code ← link script assembly.labels cells
  let entry ← entryPoint script assembly.labels
  let attributes ← attributeBlock symbols script.attributes
  pure {
    name := script.name
    code := code
    entry := entry
    strings := assembly.pool.all
    attributes := attributes
    locals := script.locals
    labels := assembly.labels }

/-- Compiles scripts in order, each with the variables of the header in its place;
headers past the end of the list are not known. -/
def compileScripts (symbols : Symbols) :
    List (Option (List Int)) → List Script → Except Fault (List Compiled)
  | _, [] => .ok []
  | locals, script :: rest => do
    let first ← script.compile symbols (locals.head?.join)
    let others ← compileScripts symbols (locals.drop 1) rest
    pure (first :: others)

/-- Compiles a script file. -/
def compileText (symbols : Symbols) (locals : List (Option (List Int))) (text : List Char) :
    Except Fault (List Compiled) := do
  let scripts ← Script.parse symbols text
  compileScripts symbols locals scripts

/-- Compiles a script file and puts it into a map. -/
def MapFile.compile (file : MapFile) (symbols : Symbols) (text : List Char) :
    Except Fault MapFile := do
  let compiled ← compileText symbols (file.headers.map fun header => some header.locals) text
  file.withCompiled compiled

end MapScript
