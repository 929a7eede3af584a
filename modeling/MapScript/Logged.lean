/-
Work that may fail and may leave notices on its way. The notices given before a
failure stay, so a caller sees them together with the fault.
-/

import MapScript.Fault

namespace MapScript

/-- Work that ends with a value or a fault, and leaves notices either way. -/
abbrev Logged := ExceptT Fault (StateM (List Notice))

namespace Logged

/-- Leaves a notice. -/
def note (notice : Notice) : Logged Unit :=
  modifyGet fun notices => ((), notices ++ [notice])

/-- Work that leaves no notice. -/
def lift {α : Type} (attempt : Except Fault α) : Logged α :=
  ExceptT.mk (pure attempt)

/-- The outcome of the work, and all notices it left, in order. -/
def outcome {α : Type} (work : Logged α) : Except Fault α × List Notice :=
  (ExceptT.run work).run []

/-- Continues with an outcome that was reached elsewhere. -/
def resume {α : Type} (reached : Except Fault α × List Notice) : Logged α :=
  ExceptT.mk fun notices => (reached.1, notices ++ reached.2)

end Logged

end MapScript
