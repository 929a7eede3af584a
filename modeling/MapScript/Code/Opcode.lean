/-
The bytes that script code is made of. Every value starts with an opcode, and how
the bytes after it are read depends on where the value stands; the tables here
are shared by the writing and the reading of code.
-/

import MapScript.Script.Syntax

namespace MapScript

/-! ### Opcodes -/

/-- What a value or statement in script code is. -/
inductive Opcode where
  | task
  | multitask
  | function
  | branch
  | goto
  | stop
  | flag
  | number
  | localVariable
  | increment
  | decrement
  | gosub
  | giveBack
  | endInterrupt
  | property
  | string
  | flagNumber
  | anchor
  | objectTask
  | objectFunction
  | taskPause
  | returnGuard
  deriving DecidableEq, Repr

namespace Opcode

/-- All opcodes. -/
def all : List Opcode :=
  [task, multitask, function, branch, goto, stop, flag, number, localVariable, increment,
    decrement, gosub, giveBack, endInterrupt, property, string, flagNumber, anchor, objectTask,
    objectFunction, taskPause, returnGuard]

/-- The byte of an opcode. -/
def code : Opcode → UInt8
  | task => 0
  | multitask => 1
  | function => 2
  | branch => 3
  | goto => 4
  | stop => 5
  | flag => 6
  | number => 7
  | localVariable => 10
  | increment => 15
  | decrement => 16
  | gosub => 17
  | giveBack => 18
  | endInterrupt => 19
  | property => 20
  | string => 21
  | flagNumber => 22
  | anchor => 23
  | objectTask => 25
  | objectFunction => 26
  | taskPause => 27
  | returnGuard => 30

/-- The opcode of a byte. -/
def ofCode? (byte : UInt8) : Option Opcode :=
  all.find? fun opcode => opcode.code == byte

/-- The opcode of a step on a property. -/
def ofStep : Step → Opcode
  | .increment => increment
  | .decrement => decrement

/-- The opcode of a jump. -/
def ofJump : JumpKind → Opcode
  | .goto => goto
  | .stop => stop
  | .gosub => gosub

/-- The opcode of a word statement. -/
def ofWord : WordKind → Opcode
  | .giveBack => giveBack
  | .endInterrupt => endInterrupt

end Opcode

/-! ### Objects -/

/-- The objects that have a name of their own, in the order of their codes. -/
def builtInObjects : List String := ["Me", "Player", "Camera"]

/-- The byte in front of the number of a string that names an object. -/
def stringSelector : UInt8 := 4

/-- The byte in front of the number of a variable that names an object. -/
def variableSelector : UInt8 := 10

/-! ### Places of values -/

/-- Where a value stands: as a statement, on either side of a comparison, as an
argument of a call, as a term of a formula, or as the call behind an object in a
statement. -/
inductive Position where
  | statement
  | left
  | right
  | parameter
  | formula
  | behindObject
  deriving DecidableEq, Repr

/-- The parameter that a value is passed to, or compared with: a function and a
place. -/
structure Slot where
  function : String
  index : Int
  deriving DecidableEq, Repr

/-- The number of characters of a dialogue label. -/
def dialogueLabelSize : Nat := 4

/-- The number of bytes that a block behind a guard on the returned value takes
when code is read. -/
def returnGuardSize : Nat := 4

end MapScript
