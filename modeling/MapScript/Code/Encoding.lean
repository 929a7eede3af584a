/-
This file turns statements into code. Names become numbers here, so this is where
an unknown name is found. Labels are left open: a statement that goes to a label
leaves four bytes for its address, and the addresses are filled in when the whole
script is encoded. The end of a conditional block is known as soon as its body is
encoded, because blocks are encoded in place, from an offset on.
-/

import MapScript.Code.Opcode
import MapScript.Symbols.Basic

namespace MapScript

/-! ### Surroundings -/

/-- What the encoding of a script looks up: the symbols, and the variables of the
header, if they are known. -/
structure Surroundings where
  symbols : Symbols
  locals : Option (List Int)

/-- The strings that a script has used so far, each once and in order of first
use: those that code refers to by number, and the dialogue labels. -/
structure StringPool where
  strings : List String
  dialogue : List String
  deriving DecidableEq, Repr

namespace StringPool

/-- No strings. -/
def empty : StringPool := ⟨[], []⟩

/-- Adds a string unless it is there already. -/
def add (pool : List String) (text : String) : List String :=
  if pool.contains text then pool else pool ++ [text]

/-- The strings of a script: those that code refers to by number, and then the
dialogue labels that are not among them. -/
def all (pool : StringPool) : List String :=
  pool.strings ++ pool.dialogue.filter fun label => !pool.strings.contains label

end StringPool

/-- Encoding of values, which uses strings on its way. -/
abbrev Encoder := StateT StringPool (Except Fault)

namespace Encoder

/-- Fails because there is no encoding. -/
def reject {α : Type} (fault : ScriptFault) : Encoder α :=
  throw (.of (.script fault))

/-! ### Numbers -/

/-- An integer as one byte. -/
def byte (value : Int) : Encoder Bytes :=
  if 0 ≤ value ∧ value ≤ 255 then pure [UInt8.ofNat value.toNat] else reject (.byteRange value)

/-- A number as two bytes. -/
def word (value : Nat) : Encoder Bytes :=
  liftM (packNumber 2 value)

/-- An integer as four bytes, counted modulo their range. -/
def long (value : Int) : Bytes :=
  Bytes.wrapLittle 4 value

/-- The number of a string, which is added unless it is there already. -/
def stringNumber (text : String) : Encoder Nat := do
  let pool ← get
  let strings := StringPool.add pool.strings text
  set { pool with strings := strings }
  pure (strings.idxOf text)

/-! ### Objects -/

/-- Whether a text is a numeral; a line feed may follow it. -/
def isNumeral (text : List Char) : Bool :=
  let digits := if text.head? == some '-' then text.drop 1 else text
  let bare := if digits.getLast? == some '\n' then digits.dropLast else digits
  !bare.isEmpty && bare.all Text.isDigit

/-- The digits of a variable name; a line feed may follow them. -/
def variableNameDigits? (name : List Char) : Option (List Char) :=
  match name with
  | 'v' :: 'a' :: 'r' :: digits =>
    let bare := if digits.getLast? == some '\n' then digits.dropLast else digits
    if !bare.isEmpty && bare.all Text.isDigit then some bare else none
  | _ => none

/-- An object that is named by the value of a variable: the first variable of the
header that holds the value. -/
def objectByValue (around : Surroundings) (name : String) : Encoder Bytes :=
  match Text.readSetting? name.toList with
  | none => throw (.of (.notANumber name))
  | some value =>
    match around.locals.bind fun locals => locals.idxOf? value with
    | none => throw (.of (.unknownName .objectValue name))
    | some index => do
      let place ← byte index
      pure (variableSelector :: place)

/-- An object that is named by a variable: the variable has to exist, if the
variables of the header are known. -/
def objectByVariable (around : Surroundings) (name : String) (digits : List Char) :
    Encoder Bytes :=
  match Text.readNatural? digits with
  | none => throw (.of (.notANumber name))
  | some index =>
    if around.locals.any fun locals => locals.length ≤ index then
      throw (.of (.unknownName .objectVariable name))
    else do
      let place ← byte index
      pure (variableSelector :: place)

/-- The name of an object: one of the built-in ones, the value of a variable, a
variable, or else a string. -/
def objectName (around : Surroundings) (name : String) : Encoder Bytes :=
  match builtInObjects.idxOf? name with
  | some index => pure [UInt8.ofNat index, 0]
  | none =>
    if isNumeral name.toList then objectByValue around name
    else
      match variableNameDigits? name.toList with
      | some digits => objectByVariable around name digits
      | none => do
        let index ← stringNumber name
        let place ← byte index
        pure (stringSelector :: place)

/-- The number of a reference. -/
def reference (around : Surroundings) (name : String) : Encoder Bytes := do
  let id ← around.symbols.referenceId name
  word id

/-! ### Literals -/

/-- The opcode of a number, which differs for the arguments that name a global
flag by number. -/
def numberOpcode (position : Position) (slot : Option Slot) : Opcode :=
  if position = .parameter ∧ slot.any fun slot => globalFlagFunctions.contains slot.function then
    .flagNumber
  else .number

/-- What a literal in a slot stands for. Only arguments and the right sides of
comparisons have a slot. -/
def slotKind (around : Surroundings) (position : Position) (slot : Option Slot) :
    Option ParameterKind :=
  if position = .parameter ∨ position = .right then
    slot.map fun slot => around.symbols.parameterKind slot.function slot.index
  else none

/-- A dialogue label: four characters in the place of a number. -/
def dialogueLabel (opcode : Opcode) (label : String) : Encoder Bytes :=
  match Bytes.ofText? label with
  | none => throw (.of (.wideCharacter label))
  | some bytes =>
    if bytes.length = dialogueLabelSize then do
      modify fun pool => { pool with dialogue := StringPool.add pool.dialogue label }
      pure (opcode.code :: bytes)
    else reject (.dialogueLabel label)

/-- A text: a dialogue label where the slot takes one, else a string of the
header. -/
def textLiteral (around : Surroundings) (position : Position) (slot : Option Slot)
    (text : String) : Encoder Bytes :=
  if slotKind around position slot = some .dialogue then
    dialogueLabel (numberOpcode position slot) text
  else do
    let index ← stringNumber text
    pure (Opcode.string.code :: long index)

/-! ### Terms -/

/-- The opcode and number of a term that can be assigned to. -/
def target (around : Surroundings) : Term → Encoder Bytes
  | .flag name => do
    let id ← around.symbols.flagId name
    let number ← word id
    pure (Opcode.flag.code :: number)
  | .localVariable index => do
    let place ← byte index
    pure (Opcode.localVariable.code :: place)
  | .property object name => do
    let selected ← objectName around object
    let number ← reference around name
    pure (Opcode.property.code :: selected ++ number)
  | other => reject (.cannotAssign other.kindName)

/-- The opcode of a call: its own for multitasks, else by the function's kind. -/
def callOpcode (function : GameFunction) (multitask : Bool) : Opcode :=
  if multitask then .multitask else if function.kind = .task then .task else .function

/-- The opcode of a call behind an object. -/
def objectOpcode (function : GameFunction) : Opcode :=
  if function.kind = .function then .objectFunction else .objectTask

/-- A call, given the encoding of its arguments: the opcode unless it is left out,
the number of the function and, except for the one with number zero, the arguments
with their count. -/
def callWith (around : Surroundings) (name : String) (multitask withOpcode : Bool) (count : Nat)
    (arguments : Encoder Bytes) : Encoder Bytes := do
  let id ← around.symbols.functionId name
  let function ← around.symbols.function id
  let opcode := if withOpcode then [(callOpcode function multitask).code] else []
  let number ← word id
  if id = 0 then
    if count = 0 then pure (opcode ++ number) else reject (.noParameters name)
  else
    let size ← byte count
    let encoded ← arguments
    pure (opcode ++ number ++ size ++ encoded)

/-- A flag or variable on its own: arguments are filled up to the size of a number,
terms of a formula are not, and elsewhere it cannot stand alone. -/
def padded (position : Position) (size : Nat) (alone : ScriptFault) (encoded : Bytes) :
    Encoder Bytes :=
  match position with
  | .parameter => pure (encoded ++ List.replicate size 0)
  | .formula => pure encoded
  | _ => reject alone

mutual

/-- Encodes a term. -/
def term (around : Surroundings) : Term → Position → Option Slot → Encoder Bytes
  | .call name arguments multitask, _, _ =>
    callWith around name multitask true arguments.length (terms around name 0 arguments)
  | .flag name, position, _ => do
    let encoded ← target around (.flag name)
    padded position 2 (.flagAlone name) encoded
  | .localVariable index, position, _ => do
    let encoded ← target around (.localVariable index)
    padded position 3 (.variableAlone index) encoded
  | .number value, position, slot =>
    pure ((numberOpcode position slot).code :: long value)
  | .text text, position, slot => textLiteral around position slot text
  | .property object name, _, _ => target around (.property object name)
  | .objectCall object name arguments multitask, position, _ => do
    let id ← around.symbols.functionId name
    let function ← around.symbols.function id
    let selected ← objectName around object
    if position ≠ .statement ∧ multitask then reject .multitaskInside
    else
      let call ← callWith around name multitask (position = .statement) arguments.length
        (terms around name 0 arguments)
      pure ((objectOpcode function).code :: selected ++ call)
  | .chain head operators operands step, _, _ =>
    reject (.cannotEncode (Term.chain head operators operands step).kindName)

/-- Encodes the arguments of a function, from a place on. -/
def terms (around : Surroundings) (function : String) (index : Nat) : List Term → Encoder Bytes
  | [] => pure []
  | first :: rest => do
    let encoded ← term around first .parameter (some ⟨function, index⟩)
    let others ← terms around function (index + 1) rest
    pure (encoded ++ others)

end

/-! ### Formulas -/

/-- The operators of a formula, each with its term. -/
def operations (around : Surroundings) : List (Operator × Term) → Encoder Bytes
  | [] => pure []
  | (operator, operand) :: rest => do
    let encoded ← term around operand .formula none
    let others ← operations around rest
    pure (operator.code :: encoded ++ others)

/-- What follows the first term of a formula: the operators with their terms, and
a closing step or zero. -/
def formulaTail (around : Surroundings) (formula : Formula) : Encoder Bytes := do
  let encoded ← operations around (formula.operators.zip formula.operands)
  pure (encoded ++
    match formula.step with
    | some step => [step.code, 0]
    | none => [0])

/-- A formula. -/
def formula (around : Surroundings) (formula : Formula) : Encoder Bytes := do
  let head ← term around formula.head .formula none
  let tail ← formulaTail around formula
  pure (head ++ tail)

/-! ### Conditions -/

/-- Whether a term carries operators on a side of a comparison. -/
def carriesOperators (position : Position) : Term → Bool
  | .flag _ | .localVariable _ => true
  | .property .. => position = .left
  | _ => false

/-- The function that a term calls. -/
def calledFunction? : Term → Option String
  | .call name .. => some name
  | .objectCall _ name .. => some name
  | _ => none

/-- One side of a comparison. Flags, variables and, on the left, properties are
followed by operators; anything else stands alone. -/
def side (around : Surroundings) (position : Position) (slot : Option Slot) (formula : Formula) :
    Encoder Bytes :=
  if carriesOperators position formula.head then do
    let head ← target around formula.head
    let tail ← formulaTail around formula
    pure (head ++ tail)
  else if !formula.operators.isEmpty || formula.step.isSome then
    reject (.operatorsAfter formula.head.kindName)
  else term around formula.head position slot

/-- The slot of the right side of a comparison, if the left side calls a function
with a name. -/
def comparedSlot? (left : Term) : Option Slot :=
  match calledFunction? left with
  | some name => if name.isEmpty then none else some ⟨name, comparisonIndex⟩
  | none => none

/-- One clause of a condition. -/
def clause (around : Surroundings) (clause : Clause) : Encoder Bytes := do
  let left ← side around .left none clause.left
  let right ← side around .right (comparedSlot? clause.left.head) clause.right
  pure (left ++ clause.comparison.code :: right ++ [Conjunction.code clause.conjunction])

/-- The clauses of a condition. -/
def clauses (around : Surroundings) : List Clause → Encoder Bytes
  | [] => pure []
  | first :: rest => do
    let encoded ← clause around first
    let others ← clauses around rest
    pure (encoded ++ others)

end Encoder

/-! ### Cells -/

/-- A piece of code before labels are resolved: a byte, or the four bytes of a
label's address. -/
inductive Cell where
  | byte (value : UInt8)
  | address (label : Int)
  deriving DecidableEq, Repr

namespace Cell

/-- The number of bytes a piece of code takes. -/
def size : Cell → Nat
  | byte _ => 1
  | address _ => 4

/-- The number of bytes that pieces of code take. -/
def totalSize (cells : List Cell) : Nat :=
  cells.foldl (fun total cell => total + cell.size) 0

/-- Bytes as pieces of code. -/
def ofBytes (bytes : Bytes) : List Cell :=
  bytes.map byte

end Cell

/-! ### Statements -/

/-- What the encoding of statements keeps: the strings used, and the labels
defined, with their addresses. -/
structure Assembly where
  pool : StringPool
  labels : Registry Int Nat

/-- Nothing encoded yet. -/
def Assembly.empty : Assembly := ⟨.empty, .empty⟩

/-- Encoding of statements. -/
abbrev Assembler := StateT Assembly (Except Fault)

namespace Assembler

/-- Encodes values inside a statement. -/
def encode (encoder : Encoder Bytes) : Assembler (List Cell) := fun assembly =>
  match encoder.run assembly.pool with
  | .ok (bytes, pool) => .ok (Cell.ofBytes bytes, { assembly with pool := pool })
  | .error fault => .error fault

/-- Blames the fault of a statement on its line. -/
def located {α : Type} (origin : Option Origin) (assembler : Assembler α) : Assembler α :=
  fun assembly => locating origin (assembler.run assembly)

/-- Defines a label at an address. -/
def define (label : Int) (address : Nat) : Assembler Unit := do
  let assembly ← get
  if assembly.labels.has label then throw (.of (.script (.labelTwice label)))
  else set { assembly with labels := assembly.labels.put label address }

/-- A statement whose only operand is a label. -/
def withLabel (opcode : Opcode) (label : Int) : List Cell :=
  [.byte opcode.code, .address label]

mutual

/-- Encodes a statement that starts at an offset. -/
def statement (around : Surroundings) (offset : Nat) : Statement → Assembler (List Cell)
  | .label label => do
    define label offset
    pure []
  | .expression value => encode (Encoder.term around value .statement none)
  | .assign target formula => encode do
    let head ← Encoder.target around target
    let tail ← Encoder.formula around formula
    pure (head ++ tail)
  | .objectStep object reference step => encode do
    let selected ← Encoder.objectName around object
    let number ← Encoder.reference around reference
    pure ((Opcode.ofStep step).code :: selected ++ number)
  | .branch clauses body => do
    let encoded ← encode (Encoder.clauses around clauses)
    let head := Cell.byte Opcode.branch.code :: encoded
    let start := offset + Cell.totalSize head + 4
    let inner ← block around start body
    let stop ← packNumber 4 (start + Cell.totalSize inner)
    pure (head ++ Cell.ofBytes stop ++ inner)
  | .returnGuard value body => do
    let operand ← encode (Encoder.byte value)
    let head := Cell.byte Opcode.returnGuard.code :: operand
    let inner ← block around (offset + Cell.totalSize head) body
    pure (head ++ inner)
  | .jump kind (some label) => pure (withLabel (Opcode.ofJump kind) label)
  | .jump kind none => pure (Cell.ofBytes ((Opcode.ofJump kind).code :: Encoder.long 0))
  | .word kind => pure [.byte (Opcode.ofWord kind).code]
  | .anchor value => do
    let operand ← encode (Encoder.byte value)
    pure (.byte Opcode.anchor.code :: operand)
  | .taskPause label => pure (withLabel .taskPause label)
  | .bare => throw (.of (.script (.cannotEncode "Statement")))

/-- Encodes the statements of a block that starts at an offset. -/
def block (around : Surroundings) (offset : Nat) : Block → Assembler (List Cell)
  | .nil => pure []
  | .cons origin first rest => do
    let encoded ← located origin (statement around offset first)
    let others ← block around (offset + Cell.totalSize encoded) rest
    pure (encoded ++ others)

end

end Assembler

end MapScript
