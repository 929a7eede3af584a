/-
This file describes scripts as data: what stands between the text of a script and
its code. Names are not resolved here; a term says that a flag of some name is
meant, and only its encoding asks which number that flag has. Some terms and
statements below never come out of text, and the encoding refuses them.
-/

import MapScript.Fault
import MapScript.Registry

namespace MapScript

/-! ### Marks -/

/-- The operators that join the terms of a formula. -/
inductive Operator where
  | add
  | subtract
  | divide
  | multiply
  | shiftLeft
  | shiftRight
  | bitAnd
  | bitOr
  | bitXor
  deriving DecidableEq, Repr

namespace Operator

/-- All operators, in the order of their codes, which start at one. -/
def all : List Operator :=
  [add, subtract, divide, multiply, shiftLeft, shiftRight, bitAnd, bitOr, bitXor]

/-- The written form of an operator. -/
def text : Operator → String
  | add => "+"
  | subtract => "-"
  | divide => "/"
  | multiply => "*"
  | shiftLeft => "<<"
  | shiftRight => ">>"
  | bitAnd => "&"
  | bitOr => "|"
  | bitXor => "^"

/-- The byte of an operator. -/
def code : Operator → UInt8
  | add => 1
  | subtract => 2
  | divide => 3
  | multiply => 4
  | shiftLeft => 5
  | shiftRight => 6
  | bitAnd => 7
  | bitOr => 8
  | bitXor => 9

/-- The operator with a written form. -/
def ofText? (written : String) : Option Operator :=
  all.find? fun operator => operator.text == written

/-- The operator of a byte. -/
def ofCode? (byte : UInt8) : Option Operator :=
  all.find? fun operator => operator.code == byte

end Operator

/-- A step by one that closes a formula or stands on its own. -/
inductive Step where
  | increment
  | decrement
  deriving DecidableEq, Repr

namespace Step

/-- The written form of a step. -/
def text : Step → String
  | increment => "++"
  | decrement => "--"

/-- The byte of a step at the end of a formula. -/
def code : Step → UInt8
  | increment => 10
  | decrement => 11

/-- The step with a written form. -/
def ofText? (written : String) : Option Step :=
  if written = "++" then some increment else if written = "--" then some decrement else none

/-- The step of a byte. -/
def ofCode? (byte : UInt8) : Option Step :=
  if byte = 10 then some increment else if byte = 11 then some decrement else none

end Step

/-- The comparisons of a condition. -/
inductive Comparison where
  | equal
  | unequal
  | less
  | greater
  | atMost
  | atLeast
  deriving DecidableEq, Repr

namespace Comparison

/-- All comparisons, in the order of their codes, which start at zero. -/
def all : List Comparison := [equal, unequal, less, greater, atMost, atLeast]

/-- The written form of a comparison. -/
def text : Comparison → String
  | equal => "="
  | unequal => "!="
  | less => "<"
  | greater => ">"
  | atMost => "<="
  | atLeast => ">="

/-- The byte of a comparison. -/
def code : Comparison → UInt8
  | equal => 0
  | unequal => 1
  | less => 2
  | greater => 3
  | atMost => 4
  | atLeast => 5

/-- The comparison with a written form. -/
def ofText? (written : String) : Option Comparison :=
  all.find? fun comparison => comparison.text == written

/-- The comparison of a byte. -/
def ofCode? (byte : UInt8) : Option Comparison :=
  all.find? fun comparison => comparison.code == byte

end Comparison

/-- The words that join the clauses of a condition. -/
inductive Conjunction where
  | both
  | either
  deriving DecidableEq, Repr

namespace Conjunction

/-- The written form of a conjunction. -/
def text : Conjunction → String
  | both => "and"
  | either => "or"

/-- The byte after a clause: which word joins it to the next one, or zero if it is
the last. -/
def code : Option Conjunction → UInt8
  | none => 0
  | some both => 1
  | some either => 2

/-- The conjunction with a written form. -/
def ofText? (written : String) : Option Conjunction :=
  if written = "and" then some both else if written = "or" then some either else none

/-- What the byte after a clause says, if it says anything. -/
def ofCode? (byte : UInt8) : Option (Option Conjunction) :=
  if byte = 0 then some none
  else if byte = 1 then some (some both)
  else if byte = 2 then some (some either)
  else none

end Conjunction

/-- The statements that go to a label. -/
inductive JumpKind where
  | goto
  | stop
  | gosub
  deriving DecidableEq, Repr

namespace JumpKind

/-- The written form of a jump. -/
def text : JumpKind → String
  | goto => "Goto"
  | stop => "End"
  | gosub => "Gosub"

/-- The jump with a written form. -/
def ofText? (written : String) : Option JumpKind :=
  if written = "Goto" then some goto
  else if written = "End" then some stop
  else if written = "Gosub" then some gosub
  else none

end JumpKind

/-- The statements that are one word. -/
inductive WordKind where
  | giveBack
  | endInterrupt
  deriving DecidableEq, Repr

namespace WordKind

/-- The written form of a word statement. -/
def text : WordKind → String
  | giveBack => "Return"
  | endInterrupt => "Endint"

/-- The word statement with a written form. -/
def ofText? (written : String) : Option WordKind :=
  if written = "Return" then some giveBack
  else if written = "Endint" then some endInterrupt
  else none

end WordKind

/-! ### Terms -/

/-- A value in a script. -/
inductive Term where
  | call (name : String) (arguments : List Term) (multitask : Bool)
  | flag (name : String)
  | localVariable (index : Int)
  | number (value : Int)
  | text (value : String)
  | property (object reference : String)
  | objectCall (object name : String) (arguments : List Term) (multitask : Bool)
  | chain (head : Term) (operators : List Operator) (operands : List Term) (step : Option Step)

instance : Inhabited Term := ⟨.number 0⟩

/-- The name of a kind of term in messages. -/
def Term.kindName : Term → String
  | .call .. => "Call"
  | .flag _ => "FlagRef"
  | .localVariable _ => "VarRef"
  | .number _ => "Number"
  | .text _ => "Text"
  | .property .. => "ObjectRef"
  | .objectCall .. => "ObjectCall"
  | .chain .. => "Chain"

/-- A term followed by operators and further terms, and perhaps closed by a step.
Operators and operands belong together in pairs; what is left over on either side
has no meaning. -/
structure Formula where
  head : Term
  operators : List Operator
  operands : List Term
  step : Option Step

instance : Inhabited Formula := ⟨⟨default, [], [], none⟩⟩

/-- One comparison of a condition, and the word that joins it to the next. -/
structure Clause where
  left : Formula
  comparison : Comparison
  right : Formula
  conjunction : Option Conjunction

/-! ### Statements -/

mutual

/-- A statement of a script. A bare statement has no meaning and no encoding. -/
inductive Statement where
  | label (label : Int)
  | expression (value : Term)
  | assign (target : Term) (formula : Formula)
  | objectStep (object reference : String) (step : Step)
  | branch (clauses : List Clause) (body : Block)
  | returnGuard (value : Int) (body : Block)
  | jump (kind : JumpKind) (label : Option Int)
  | word (kind : WordKind)
  | anchor (value : Int)
  | taskPause (label : Int)
  | bare

/-- Statements in order, each with the line it comes from. -/
inductive Block where
  | nil
  | cons (origin : Option Origin) (first : Statement) (rest : Block)

end

instance : Inhabited Statement := ⟨.bare⟩

instance : Inhabited Block := ⟨.nil⟩

/-! ### Scripts -/

/-- A line that sets an attribute. -/
structure AttributeLine where
  name : String
  value : Int
  origin : Origin

/-- The script of one header, with the attribute and variable lines before it. -/
structure Script where
  name : String
  startLabel : Option Int
  body : Block
  attributes : List AttributeLine
  locals : Registry Int Int
  origin : Origin

end MapScript
