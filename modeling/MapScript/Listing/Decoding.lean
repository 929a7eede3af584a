/-
This file reads script code. Reading goes through the bytes once, from left to
right: a value starts with its opcode, and what the opcode stands for reads
further values in turn. Each value takes at least its opcode, so the number of
bytes that are left bounds both the nesting and the number of rounds of every
loop; where a bound is used up no byte is left, and the read that comes next fails
as it should. The text of a value goes to the line that was begun last.

A strict reading stops at a byte that stands for nothing; a lenient one leaves a
notice and goes on.
-/

import MapScript.Code.Opcode
import MapScript.Listing.Basic
import MapScript.Logged
import MapScript.Symbols.Basic

namespace MapScript

/-! ### Reading -/

/-- How far reading has come: the bytes that are left and the place of the first of
them, the depth of the block, the lines begun so far, last one first, the labels
seen, and the notices left. -/
structure Scan where
  rest : Bytes
  position : Nat
  depth : Nat
  lines : List ListedLine
  labels : List Nat
  notices : List Notice

/-- The state before anything is read. -/
def Scan.start (code : Bytes) : Scan := ⟨code, 0, 0, [], [], []⟩

/-- What the reading of a script looks up. -/
structure Reading where
  program : Program
  symbols : Symbols
  lenient : Bool

/-- Reading of script code. The state is kept when reading fails, because the
notices left until then still count. -/
abbrev Decoder := ExceptT Fault (StateM Scan)

namespace Decoder

/-- Uses the answer of a look-up. -/
def lift {α : Type} (attempt : Except Fault α) : Decoder α :=
  ExceptT.mk (pure attempt)

/-! ### Bytes -/

/-- Takes so many bytes. -/
def take (reading : Reading) (size : Nat) : Decoder Bytes := do
  let scan ← get
  let taken := scan.rest.take size
  if taken.length < size then
    throw (.of (.truncated (.script reading.program.name) scan.position size scan.rest.length))
  else
    set { scan with rest := scan.rest.drop size, position := scan.position + size }
    pure taken

/-- Takes one byte. -/
def byte (reading : Reading) : Decoder UInt8 := do
  let taken ← take reading 1
  pure (taken.headD 0)

/-- Takes a number of two bytes. -/
def word (reading : Reading) : Decoder Nat := do
  let taken ← take reading 2
  pure (Bytes.little taken)

/-- Takes a number of four bytes. -/
def long (reading : Reading) : Decoder Nat := do
  let taken ← take reading 4
  pure (Bytes.little taken)

/-- Takes a signed number of four bytes. -/
def signedLong (reading : Reading) : Decoder Int := do
  let taken ← take reading 4
  pure (Bytes.littleSigned taken)

/-- The place of the next byte. -/
def position : Decoder Nat := do
  let scan ← get
  pure scan.position

/-! ### Lines -/

/-- Changes the line that was begun last. -/
def changeLine (change : ListedLine → ListedLine) : Decoder Unit :=
  modify fun scan =>
    match scan.lines with
    | [] => scan
    | line :: others => { scan with lines := change line :: others }

/-- Adds text to the line that was begun last. -/
def emit (text : String) : Decoder Unit :=
  changeLine fun line => { line with text := line.text ++ text }

/-- Adds a decimal numeral to the line that was begun last. -/
def emitNumber (value : Int) : Decoder Unit :=
  emit (String.ofList (Text.integer value))

/-- Gives the line that was begun last a comment. -/
def comment (text : String) : Decoder Unit :=
  changeLine fun line => { line with comment := some text }

/-- Begins a line at the next byte. -/
def beginLine : Decoder Unit :=
  modify fun scan =>
    { scan with lines := .start scan.position scan.depth :: scan.lines }

/-- Records that an address is referred to, and adds its label to the line that was
begun last. -/
def emitLabel (address : Nat) : Decoder Unit := do
  modify fun scan => { scan with labels := insertLabel address scan.labels }
  emit (labelText address)

/-- Meets a byte that stands for nothing. -/
def unknown (reading : Reading) (kind : ByteKind) (value : UInt8) (offset : Nat) :
    Decoder Unit :=
  if reading.lenient then
    modify fun scan =>
      { scan with
        notices := scan.notices ++
          [.skipped reading.program.name kind value.toNat offset] }
  else throw (.of (.unknownByte kind value.toNat offset))

/-! ### Loops -/

/-- Repeats a step as long as it says so. The step is run at most once more than
the bound. -/
def repeatWhile : (bound : Nat) → Decoder Bool → Decoder Unit
  | 0, step => discard step
  | bound + 1, step => do
    if ← step then repeatWhile bound step else pure ()

/-- Reads the statements of a block up to an address, given how to read one. A
block without statements is recorded in the line that it belongs to. -/
def block (bound stop : Nat) (statement : Decoder Unit) : Decoder Unit := do
  if (← position) < stop then
    modify fun scan => { scan with depth := scan.depth + 1 }
    repeatWhile bound do
      if (← position) < stop then
        beginLine
        statement
        pure true
      else pure false
    modify fun scan => { scan with depth := scan.depth - 1 }
  else changeLine fun line => { line with emptyBlock := true }

/-! ### Operators -/

/-- Reads an operator, and says whether a term follows. A step is followed by a byte
without meaning. -/
def operator (reading : Reading) : Decoder Bool := do
  let offset ← position
  let code ← byte reading
  match Operator.ofCode? code, Step.ofCode? code with
  | some operator, _ =>
    emit (" " ++ operator.text ++ " ")
    pure true
  | none, some step =>
    emit step.text
    discard (byte reading)
    pure false
  | none, none =>
    unless code = 0 do unknown reading .operator code offset
    pure false

/-- Reads operators and their terms, given how to read a term. -/
def operators (reading : Reading) (bound : Nat) (term : Decoder Unit) : Decoder Unit :=
  repeatWhile bound do
    if ← operator reading then
      term
      pure true
    else pure false

/-- Reads a formula behind what it is assigned to. -/
def formula (reading : Reading) (bound : Nat) (term : Decoder Unit) : Decoder Unit := do
  emit " = "
  term
  operators reading bound term

/-! ### Names -/

/-- The string of the header with a number. -/
def headerString (reading : Reading) (index : Nat) : Except Fault String :=
  match reading.program.strings[index]? with
  | some text => .ok text
  | none =>
    fail (.format (.stringIndex reading.program.name index reading.program.strings.length))

/-- The name of an object that a variable holds: its value, unless an earlier
variable holds the same value; then the variable itself. -/
def variableObject (reading : Reading) (index : Nat) : Except Fault String :=
  match reading.program.locals[index]? with
  | none => fail (.format (.objectVariable reading.program.name index))
  | some value =>
    if reading.program.locals.idxOf value = index then
      .ok (String.ofList (Text.integer value))
    else .ok ("var" ++ String.ofList (Text.natural index))

/-- Reads the name of an object and the dot behind it. -/
def objectName (reading : Reading) : Decoder Unit := do
  let offset ← position
  let selector ← byte reading
  match builtInObjects[selector.toNat]? with
  | some name =>
    emit name
    discard (byte reading)
  | none =>
    if selector = stringSelector then
      let index ← byte reading
      let name ← lift (headerString reading index.toNat)
      emit name
    else if selector = variableSelector then
      let index ← byte reading
      let name ← lift (variableObject reading index.toNat)
      emit name
    else unknown reading .selector selector offset
  emit "."

/-- Reads the name of a reference. Only the low byte of its number counts. -/
def referenceName (reading : Reading) : Decoder Unit := do
  let number ← word reading
  let name ← lift (reading.symbols.reference (number % 256 : Nat))
  emit name

/-! ### Literals -/

/-- The name of the item with a number, if that name leads back to the number. -/
def itemNamed? (symbols : Symbols) (id : Int) : Option String :=
  match symbols.itemName? id with
  | some name =>
    if !name.isEmpty && (symbols.itemId? name).any fun found => (found : Int) == id then some name
    else none
  | none => none

/-- The name of the map with a number, if that name leads back to the number. -/
def mapNamed? (symbols : Symbols) (id : Int) : Option String :=
  match symbols.mapName? id with
  | some name =>
    if !name.isEmpty && symbols.mapId? name == some id then some name else none
  | none => none

/-- The written form of a number in a slot: the name of an item or a map where the
slot takes one and the name leads back, else the numeral. -/
def typedNumber (symbols : Symbols) (kind : Option ParameterKind) (value : Int) : String :=
  let name? := match kind with
    | some .item => itemNamed? symbols value
    | some .map => mapNamed? symbols value
    | _ => none
  match name? with
  | some name => "<" ++ name ++ ">"
  | none => String.ofList (Text.integer value)

/-- Reads a dialogue label; its subtitle becomes a comment. -/
def dialogueLabel (reading : Reading) : Decoder Unit := do
  let taken ← take reading dialogueLabelSize
  let label := Bytes.toText taken
  match reading.symbols.subtitle? label with
  | some subtitle => comment ("Dlg " ++ label ++ " = " ++ subtitle)
  | none => pure ()
  emit ("\"" ++ label ++ "\"")

/-- Reads a number where it stands. -/
def number (reading : Reading) (position : Position) (slot : Option Slot) : Decoder Unit := do
  if position = .parameter ∨ position = .right then
    let kind := slot.map fun slot => reading.symbols.parameterKind slot.function slot.index
    if kind = some .dialogue then dialogueLabel reading
    else
      let value ← signedLong reading
      emit (typedNumber reading.symbols kind value)
  else
    let value ← signedLong reading
    emitNumber value

/-! ### Values

How the values inside a value are read is an argument of what follows, so that
only the last definition is recursive. -/

/-- Reading of a value in a place. If it is a call, the answer is the name of the
function. -/
abbrev ValueReader := Position → Option Slot → Decoder (Option String)

/-- Reads so many arguments of a function, from a place on. -/
def arguments (value : ValueReader) (function : String) : (index count : Nat) → Decoder Unit
  | _, 0 => pure ()
  | index, count + 1 => do
    unless index = 0 do emit ", "
    discard (value .parameter (some ⟨function, index⟩))
    arguments value function (index + 1) count

/-- Reads a call behind its opcode. The function with number zero has no count of
arguments. -/
def call (reading : Reading) (value : ValueReader) (multitask : Bool) :
    Decoder (Option String) := do
  let id ← word reading
  let function ← lift (reading.symbols.function id)
  emit ((if multitask then "@" else "") ++ function.name ++ "(")
  let count ← if id = 0 then pure 0 else byte reading
  arguments value function.name 0 count.toNat
  emit ")"
  pure (some function.name)

/-- Reads what follows a flag, a variable or a property, depending on its place. The
size is that of the filling behind an argument. -/
def continuation (reading : Reading) (bound : Nat) (value : ValueReader) (position : Position)
    (size : Nat) : Decoder Unit :=
  let term : Decoder Unit := discard (value .formula none)
  match position with
  | .statement => formula reading bound term
  | .left | .right => operators reading bound term
  | .parameter => discard (take reading size)
  | _ => pure ()

/-- Reads a flag behind its opcode. -/
def flag (reading : Reading) (bound : Nat) (value : ValueReader) (position : Position) :
    Decoder Unit := do
  let id ← word reading
  let flag ← lift (reading.symbols.flag id)
  emit flag.name
  continuation reading bound value position 2
  if position = .statement then
    match flag.comment with
    | some text => comment text
    | none => pure ()

/-- Reads a local variable behind its opcode. -/
def localVariable (reading : Reading) (bound : Nat) (value : ValueReader)
    (position : Position) : Decoder Unit := do
  let index ← byte reading
  emit ("var" ++ String.ofList (Text.natural index.toNat))
  continuation reading bound value position 3

/-- Reads a property behind its opcode. Only on the left of a comparison do
operators follow it. -/
def property (reading : Reading) (bound : Nat) (value : ValueReader) (position : Position) :
    Decoder Unit := do
  objectName reading
  referenceName reading
  if position = .statement ∨ position = .left then
    continuation reading bound value position 0

/-- Reads one clause of a condition, and says whether another one follows. -/
def clause (reading : Reading) (value : ValueReader) : Decoder Bool := do
  let called ← value .left none
  let offset ← position
  let code ← byte reading
  match Comparison.ofCode? code with
  | some comparison => emit (" " ++ comparison.text ++ " ")
  | none => unknown reading .comparison code offset
  let slot : Option Slot := match called with
    | some name => if name.isEmpty then none else some ⟨name, comparisonIndex⟩
    | none => none
  discard (value .right slot)
  let offset ← position
  let code ← byte reading
  match Conjunction.ofCode? code with
  | none =>
    unknown reading .conjunction code offset
    pure false
  | some none => pure false
  | some (some conjunction) =>
    emit (" " ++ conjunction.text ++ " ")
    pure true

/-- Reads a condition behind its opcode, and the block up to the address in it. -/
def branch (reading : Reading) (bound : Nat) (value : ValueReader) : Decoder Unit := do
  emit "if "
  repeatWhile bound (clause reading value)
  let stop ← long reading
  block bound stop (discard (value .statement none))

/-- Reads a jump that may go nowhere behind its opcode. -/
def optionalJump (reading : Reading) (kind : JumpKind) : Decoder Unit := do
  let address ← long reading
  emit kind.text
  unless address = 0 do
    emit " "
    emitLabel address

/-- Reads a guard on the returned value behind its opcode, and the bytes of its
block. -/
def returnGuard (reading : Reading) (bound : Nat) (value : ValueReader) : Decoder Unit := do
  let expected ← byte reading
  emit "if <ScriptRv> = "
  emitNumber expected.toNat
  let start ← position
  block bound (start + returnGuardSize) (discard (value .statement none))

/-- Reads what an opcode stands for. -/
def operand (reading : Reading) (bound : Nat) (value : ValueReader) (position : Position)
    (slot : Option Slot) : Opcode → Decoder (Option String)
  | .task | .function => call reading value false
  | .multitask => call reading value true
  | .branch => do
    branch reading bound value
    pure none
  | .goto => do
    optionalJump reading .goto
    pure none
  | .stop => do
    optionalJump reading .stop
    pure none
  | .flag => do
    flag reading bound value position
    pure none
  | .number | .flagNumber => do
    number reading position slot
    pure none
  | .localVariable => do
    localVariable reading bound value position
    pure none
  | .increment => do
    objectName reading
    referenceName reading
    emit Step.increment.text
    pure none
  | .decrement => do
    objectName reading
    referenceName reading
    emit Step.decrement.text
    pure none
  | .gosub => do
    let address ← long reading
    emit (JumpKind.gosub.text ++ " ")
    emitLabel address
    pure none
  | .giveBack => do
    emit WordKind.giveBack.text
    pure none
  | .endInterrupt => do
    emit WordKind.endInterrupt.text
    pure none
  | .property => do
    property reading bound value position
    pure none
  | .string => do
    let index ← long reading
    let text ← lift (headerString reading index)
    emit ("\"" ++ text ++ "\"")
    pure none
  | .anchor => do
    let place ← byte reading
    emit "<Anchor>="
    emitNumber place.toNat
    pure none
  | .objectTask | .objectFunction => do
    objectName reading
    if position = .statement then value .behindObject none else call reading value false
  | .taskPause => do
    let address ← long reading
    emit "<TaskPause("
    emitLabel address
    emit ")>"
    pure none
  | .returnGuard => do
    returnGuard reading bound value
    pure none

/-- Reads a value: its opcode, and what the opcode stands for. -/
def value (reading : Reading) : (bound : Nat) → ValueReader
  | 0, _, _ => do
    discard (byte reading)
    pure none
  | bound + 1, place, slot => do
    let offset ← position
    let code ← byte reading
    match Opcode.ofCode? code with
    | some opcode => operand reading bound (value reading bound) place slot opcode
    | none =>
      unknown reading .opcode code offset
      pure none

/-- Reads all statements of a script. -/
def script (reading : Reading) : Decoder Unit :=
  let length := reading.program.code.length
  block length length (discard (value reading length .statement none))

end Decoder

/-! ### Listings -/

/-- What reading has found when it has come to its end. The entry point counts as
a label unless it is the start of the script. -/
def Scan.listing (scan : Scan) (program : Program) : Listing :=
  { lines := scan.lines.reverse
    labels := if program.entry = 0 then scan.labels else insertLabel program.entry scan.labels
    cursor := scan.position }

/-- The listing of a script. A label that does not start a statement gets a
notice. -/
def Program.listing (program : Program) (symbols : Symbols) (lenient : Bool) :
    Logged Listing := do
  let (result, scan) := (Decoder.script ⟨program, symbols, lenient⟩).run (.start program.code)
  Logged.resume (result, scan.notices)
  let listing := scan.listing program
  for label in listing.looseLabels program.code.length do
    Logged.note (.looseLabel program.name label)
  pure listing

/-- The lines of the text of a script. -/
def Program.textLines (program : Program) (symbols : Symbols) (lenient : Bool) :
    Logged (List String) := do
  let listing ← program.listing symbols lenient
  pure (listing.render program)

/-- The text of a script. -/
def Program.text (program : Program) (symbols : Symbols) (lenient : Bool) : Logged String := do
  let lines ← program.textLines symbols lenient
  pure ("\n".intercalate lines)

end MapScript
