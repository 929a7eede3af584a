/-
A program is what the script of one header is about: its code, the place where it
starts to run, and the strings and variables that the code refers to by number.
A compiled program is the same seen from the other side, as it comes out of script
text.
-/

import MapScript.Fault
import MapScript.Registry

namespace MapScript

/-- A script as it is stored; `locals` are the variables of its header. -/
structure Program where
  name : String
  code : Bytes
  entry : Nat
  strings : List String
  locals : List Int
  deriving DecidableEq, Repr

/-- A script as it comes out of script text: the entry point is an address in the
code, the variables are the ones that the text sets, and the labels are those that
the text defines, with their addresses. -/
structure Compiled where
  name : String
  code : Bytes
  entry : Int
  strings : List String
  attributes : Bytes
  locals : Registry Int Int
  labels : Registry Int Nat
  deriving DecidableEq

/-- A one-line description. -/
def Compiled.describe (compiled : Compiled) : String :=
  s!"CompiledHeader({quote compiled.name}, {compiled.code.length} bytes, pc={compiled.entry}, " ++
    s!"{compiled.strings.length} strings)"

end MapScript
