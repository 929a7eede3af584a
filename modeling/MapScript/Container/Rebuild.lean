/-
This file puts compiled scripts back into a map. The six parts of the file that
depend on scripts are built anew: the header table, the string pool and its
offsets, the variable pool, the code and the attribute blocks. Each string is
stored once, at its first use. Every other record is left as it is, and a part
that the map did not have is added only if it holds something.
-/

import MapScript.Container.MapFile

namespace MapScript

/-! ### Parts under construction -/

/-- The parts built from the headers seen so far. `places` holds the offset of
each string in `texts`. -/
structure Rebuild where
  texts : Bytes
  places : Registry String Nat
  offsets : Bytes
  locals : Bytes
  code : Bytes
  attributes : Bytes
  headers : List Header

namespace Rebuild

/-- Nothing built yet. The variable pool starts with an entry that belongs to no
header. -/
def start : Rebuild :=
  { texts := []
    places := .empty
    offsets := []
    locals := [0, 0, 0, 0]
    code := []
    attributes := []
    headers := [] }

/-- Adds one string of a header: its text, unless it is stored already, and its
offset, which has to fit its entry. -/
def addString (state : Rebuild) (text : String) : Except Fault Rebuild :=
  match state.places.find? text with
  | some place => do
    let entry ← packNumber 4 place
    pure { state with offsets := state.offsets ++ entry }
  | none =>
    match Bytes.ofText? text with
    | none => fail (.wideCharacter text)
    | some bytes => do
      let entry ← packNumber 4 state.texts.length
      pure { state with
        texts := state.texts ++ bytes ++ [0]
        places := state.places.put text state.texts.length
        offsets := state.offsets ++ entry }

/-- Sets one variable of a header. -/
def setVariable (header : String) (locals : List Int) (change : Int × Int) :
    Except Fault (List Int) :=
  if 0 ≤ change.1 ∧ change.1 < locals.length then
    .ok (locals.set change.1.toNat change.2)
  else fail (.format (.noVariable header change.1 locals.length))

/-- One number of the variable pool. -/
def packVariable (value : Int) : Except Fault Bytes :=
  match Bytes.signed? 4 value with
  | some bytes => .ok bytes
  | none => fail (.fieldOverflow value)

/-- The part of the variable pool that belongs to a header: its variables once for
each instance. -/
def packVariables (instances : Nat) (locals : List Int) : Except Fault Bytes :=
  if instances = 0 then .ok []
  else do
    let block ← locals.mapM packVariable
    pure (List.replicate instances block.flatten).flatten

/-- The numbers that a header block takes over from a compiled script. The places
of strings and variables are left alone where there are none. -/
def fields (base : Nat) (state : Rebuild) (compiled : Compiled) (locals : List Int) :
    List (HeaderField × Int) :=
  [(.codeLength, (compiled.code.length : Int)), (.codeOffset, (base + state.code.length : Nat)),
    (.entry, compiled.entry), (.stringCount, (compiled.strings.length : Int))] ++
  (if compiled.strings.isEmpty then []
    else [(.stringIndex, (state.offsets.length : Int))]) ++
  (if locals.isEmpty then [] else [(.variableOffset, (state.locals.length : Int))])

/-- Adds a header with its compiled script. -/
def add (base : Nat) (state : Rebuild) (pair : Header × Compiled) : Except Fault Rebuild := do
  let (header, compiled) := pair
  if compiled.name ≠ header.name then
    fail (.format (.headerName compiled.name header.name))
  else if compiled.attributes.length ≠ attributeBlockSize then
    fail (.format (.attributeBlock header.name))
  else
    let locals ← compiled.locals.entries.foldlM (setVariable header.name) header.locals
    let filled ← compiled.strings.foldlM addString state
    let block ←
      if locals.isEmpty then .ok [] else packVariables (header.field .instances) locals
    let placed ← header.withFields (fields base state compiled locals)
    pure { filled with
      locals := state.locals ++ block
      code := state.code ++ compiled.code
      attributes := state.attributes ++ compiled.attributes
      headers := state.headers ++
        [{ placed with
            strings := compiled.strings
            locals := locals
            attributes := compiled.attributes
            code := compiled.code }] }

/-- The records of the parts, in the order in which missing ones are added. The
header table keeps the four bytes behind its count. -/
def records (state : Rebuild) (base : Nat) (mark : Bytes) : List Record :=
  [⟨headersTag,
      Bytes.ofNatLittle 4 state.headers.length ++ mark ++ (state.headers.map Header.raw).flatten⟩,
    ⟨stringsTag, state.texts⟩, ⟨offsetsTag, state.offsets⟩, ⟨variablesTag, state.locals⟩,
    ⟨codeTag, List.replicate base 0 ++ state.code⟩, ⟨attributesTag, state.attributes⟩]

end Rebuild

/-- Puts new records in the place of the first old ones with the same tags. A new
record without a place comes last, and only if it holds a byte that is not
zero. -/
def replaceRecords : List Record → (new : List Record) → List Record
  | [], new => new.filter fun record => record.payload.any (· != 0)
  | record :: rest, new =>
    match new.find? fun other => other.tag == record.tag with
    | some other =>
      other :: replaceRecords rest (new.filter fun other => other.tag != record.tag)
    | none => record :: replaceRecords rest new

/-! ### Rebuilding -/

/-- Puts compiled scripts into a map, one for each header and in table order. -/
def MapFile.withCompiled (file : MapFile) (compiled : List Compiled) : Except Fault MapFile := do
  if compiled.length ≠ file.headers.length then
    fail (.format (.headerCount compiled.length file.headers.length))
  else
    let base := codeBase file.headers
    let mark := Bytes.part ((Record.payload? file.records headersTag).getD []) 4 4
    let state ← (file.headers.zip compiled).foldlM (Rebuild.add base) .start
    pure ⟨replaceRecords file.records (state.records base mark), state.headers, file.trailer⟩

end MapScript
