/-
This file says what a term or a formula is read back as when a listing has written it, and
proves that the listing holds the tokens of just that. Two things change. A number comes back
as the signed number that four bytes hold, and an object by the name that a listing gives it.
The code of both is the same; that is proved elsewhere.
-/

import MapScript.Proofs.Bytes
import MapScript.Proofs.Script.Reparsed

namespace MapScript

/-! ### What is read back -/

mutual

/-- A term as it is read back from a listing. -/
def Term.settled (reading : Reading) : Term → Term
  | .call name arguments multitask => .call name (Term.settledList reading arguments) multitask
  | .flag name => .flag name
  | .localVariable index => .localVariable index
  | .number value => .number (settledNumber value)
  | .text value => .text value
  | .property object name => .property (reading.objectText object) name
  | .objectCall object name arguments multitask =>
    .objectCall (reading.objectText object) name (Term.settledList reading arguments) multitask
  | .chain head operators operands step => .chain head operators operands step

/-- Terms as they are read back from a listing. -/
def Term.settledList (reading : Reading) : List Term → List Term
  | [] => []
  | first :: rest => first.settled reading :: Term.settledList reading rest

end

/-- A formula as it is read back from a listing. -/
def Formula.settled (reading : Reading) (formula : Formula) : Formula :=
  ⟨formula.head.settled reading, formula.operators,
    formula.operands.map (Term.settled reading), formula.step⟩

/-- A clause as it is read back from a listing. -/
def Clause.settled (reading : Reading) (clause : Clause) : Clause :=
  ⟨clause.left.settled reading, clause.comparison, clause.right.settled reading,
    clause.conjunction⟩

/-! ### What can be printed -/

theorem settledNumber_range (value : Int) :
    -0x80000000 ≤ settledNumber value ∧ settledNumber value < 0x80000000 := by
  have small := Bytes.little_lt_range (Encoder.long value)
  rw [Encoder.length_long, Bytes.range_four] at small
  rw [settledNumber, Bytes.littleSigned, Encoder.length_long, Bytes.asSigned, Bytes.range_four]
  split <;> omega

section Settled

variable {reading : Reading}

mutual

/-- What a term is read back as can be printed. -/
theorem Term.printable_settled (value : Term) {position : Position} {slot : Option Slot}
    (each : value.Each (Term.Spelled reading.symbols) position slot) :
    (value.settled reading).Printable := by
  match value with
  | .call name arguments multitask => exact ⟨each.1.1, Term.printable_settledList arguments each.2⟩
  | .flag name => exact each.1
  | .localVariable index => exact each.1
  | .number given =>
    obtain ⟨least, most⟩ := settledNumber_range given
    exact ⟨least, by omega⟩
  | .text written => exact each.1.1
  | .property object name => exact ⟨reading.isObject_objectText each.1.1, each.1.2⟩
  | .objectCall object name arguments multitask =>
    exact ⟨⟨reading.isObject_objectText each.1.1.1, each.1.1.2⟩,
      Term.printable_settledList arguments each.2⟩
  | .chain head operators operands step => exact each.1.elim

theorem Term.printable_settledList {function : String} {index : Nat} (values : List Term)
    (each : Term.EachArgument (Term.Spelled reading.symbols) function index values) :
    Term.ArgumentsPrintable (Term.settledList reading values) := by
  match values with
  | [] => trivial
  | first :: others =>
    exact ⟨Term.printable_settled first each.1, Term.printable_settledList others each.2⟩

end

theorem Formula.printable_settled {formula : Formula} {position : Position} {slot : Option Slot}
    (each : formula.Each (Term.Spelled reading.symbols) position slot) (paired : formula.Paired) :
    (formula.settled reading).Printable where
  head := Term.printable_settled formula.head each.1
  operands operand member := by
    obtain ⟨given, there, rfl⟩ := List.mem_map.mp member
    exact Term.printable_settled given (each.2 given there)
  paired := paired.trans (List.length_map _).symm

/-! ### Tokens -/

mutual

/-- The pieces of a term hold the tokens of what the term is read back as. -/
theorem Term.tokens_pieces (value : Term) {position : Position} {slot : Option Slot}
    (each : value.Each (Term.Spelled reading.symbols) position slot) :
    (value.pieces reading position slot).flatMap Piece.tokens =
      (value.settled reading).parts.flatMap Piece.tokens := by
  match value with
  | .call name arguments multitask =>
    rw [Term.pieces, Term.settled, Term.parts, Reader.flatMap_callPieces,
      Reader.flatMap_callPieces, Term.tokens_argumentPieces arguments each.2]
  | .flag name => rfl
  | .localVariable index =>
    obtain ⟨number, rfl, -⟩ := each.1
    rw [Term.pieces, Term.settled, Term.parts]
    show [Piece.word ("var" ++ String.ofList (Text.natural number)).toList].flatMap _ = _
    rw [Piece.toList_variable]
    rfl
  | .number given =>
    rw [Term.pieces, List.flatMap_cons, Piece.tokens_ofNumber]
    rfl
  | .text written => rfl
  | .property object name => rfl
  | .objectCall object name arguments multitask =>
    rw [Term.pieces, Term.settled, Term.parts, List.flatMap_cons, List.flatMap_cons,
      List.flatMap_cons, List.flatMap_cons, Reader.flatMap_callPieces,
      Reader.flatMap_callPieces, Term.tokens_argumentPieces arguments each.2]
  | .chain head operators operands step => exact each.1.elim

theorem Term.tokens_argumentPieces {function : String} (values : List Term)
    (each : Term.EachArgument (Term.Spelled reading.symbols) function 0 values) :
    (Term.argumentPieces reading function 0 values).flatMap Piece.tokens =
      (Term.argumentParts (Term.settledList reading values)).flatMap Piece.tokens := by
  match values with
  | [] => rfl
  | first :: others =>
    rw [Term.argumentPieces, if_pos rfl, List.nil_append, List.flatMap_append,
      Term.tokens_pieces first each.1, Term.tokens_furtherPieces others each.2, Term.settledList,
      Term.argumentParts, List.flatMap_append]

theorem Term.tokens_furtherPieces {function : String} {index : Nat} (values : List Term)
    (each : Term.EachArgument (Term.Spelled reading.symbols) function (index + 1) values) :
    (Term.argumentPieces reading function (index + 1) values).flatMap Piece.tokens =
      (Term.furtherParts (Term.settledList reading values)).flatMap Piece.tokens := by
  match values with
  | [] => rfl
  | next :: others =>
    rw [Term.argumentPieces, if_neg (Nat.succ_ne_zero index), List.flatMap_append,
      List.flatMap_append, Term.tokens_pieces next each.1, Term.tokens_furtherPieces others each.2,
      Term.settledList, Term.furtherParts, List.flatMap_append, List.flatMap_cons]
    rfl

end

theorem tokens_operationPieces {operands : List Term}
    (each : ∀ operand ∈ operands, operand.Each (Term.Spelled reading.symbols) .formula none)
    (operators : List Operator) :
    (operationPieces reading (operators.zip operands)).flatMap Piece.tokens =
      (Term.operationParts operators (operands.map (Term.settled reading))).flatMap
        Piece.tokens := by
  induction operands generalizing operators with
  | nil => cases operators <;> rfl
  | cons operand operands inductionHypothesis =>
    cases operators with
    | nil => rfl
    | cons operator operators =>
      obtain ⟨here, others⟩ := List.forall_mem_cons.mp each
      rw [List.zip_cons_cons, operationPieces, List.map_cons, Term.operationParts,
        List.flatMap_append, List.flatMap_append, List.flatMap_cons, List.flatMap_cons,
        Term.tokens_pieces operand here, inductionHypothesis others]

theorem Formula.tokens_pieces {formula : Formula} {position : Position} {slot : Option Slot}
    (each : formula.Each (Term.Spelled reading.symbols) position slot) :
    (formula.pieces reading position slot).flatMap Piece.tokens =
      (formula.settled reading).parts.flatMap Piece.tokens := by
  rw [Formula.pieces, Formula.tailPieces, Formula.parts, Term.parts, List.flatMap_append,
    List.flatMap_append, List.flatMap_append, List.flatMap_append,
    Term.tokens_pieces formula.head each.1, tokens_operationPieces each.2, List.append_assoc]
  rfl

end Settled

end MapScript
