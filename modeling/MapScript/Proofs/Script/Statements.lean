/-
This file proves that the line of a statement is read back as the statement. What a listing
writes for a statement holds the tokens of what the statement is read back as, and these are
read as they would be from a print. Words of the language come first when a line is read, so
a term that starts with such a word would be mistaken for another statement; but no term that
came out of text starts with one, and a listing does not give an object such a name.
-/

import MapScript.Proofs.Script.Ordered
import MapScript.Proofs.Script.Rereading

namespace MapScript

/-! ### What is read back -/

/-- A statement as the line of a listing is read back, its block left out. -/
def Statement.reread (reading : Reading) (labels : Registry Int Nat) : Statement → Statement
  | .expression value => .expression (value.settled reading)
  | .assign target formula => .assign (target.settled reading) (formula.settled reading)
  | .objectStep object reference step =>
    .objectStep (reading.objectText object) reference step
  | .branch clauses _ => .branch (clauses.map (Clause.settled reading)) .nil
  | .returnGuard value _ => .returnGuard value .nil
  | .jump kind goal =>
    let address := (goal.bind labels.find?).getD 0
    .jump kind (if kind ≠ .gosub ∧ address = 0 then none else some (address : Int))
  | .word kind => .word kind
  | .anchor value => .anchor value
  | .taskPause goal => .taskPause ((labels.find? goal).getD 0 : Nat)
  | .label goal => .label goal
  | .bare => .bare

section Settled

variable {reading : Reading}

/-! ### Words of the language -/

theorem isReservedWord_integer (value : Int) :
    isReservedWord (String.ofList (Text.integer value)) = false := by
  refine isReservedWord_numeral ?_
  rw [String.toList_ofList]
  exact Piece.isNumeral_integer value

theorem isReservedWord_objectText {object : String} (free : isReservedWord object = false) :
    isReservedWord (reading.objectText object) = false := by
  unfold Reading.objectText
  split
  · exact free
  · split
    · split
      · split
        · exact isReservedWord_integer _
        · exact free
      · exact free
    · split
      · split
        · rename_i named
          rcases Decoder.variableObject_eq_ok named with ⟨value, -, rfl⟩ | ⟨-, rfl⟩
          · exact isReservedWord_integer _
          · exact isReservedWord_variable _
        · exact free
      · exact free

/-- A term that starts with no word of the language does not come back with one. -/
theorem Term.free_settled {value : Term}
    (free : ∀ word ∈ value.lead?, isReservedWord word = false) :
    ∀ word ∈ (value.settled reading).lead?, isReservedWord word = false := by
  intro word leads
  cases value with
  | flag name => exact free word leads
  | property object name | objectCall object name arguments multitask =>
    cases leads
    exact isReservedWord_objectText (free object rfl)
  | _ => cases leads

theorem Statement.free_reread (labels : Registry Int Nat) {statement : Statement}
    (written : statement.Written) :
    ∀ word ∈ (statement.reread reading labels).lead?, isReservedWord word = false := by
  cases statement with
  | expression value => exact Term.free_settled written
  | assign target formula => exact Term.free_settled written.1
  | objectStep object reference step =>
    intro word leads
    cases leads
    exact isReservedWord_objectText written
  | _ => exact fun word leads => by cases leads

/-! ### What can be printed -/

theorem joined_settled {list : List Clause} (joined : Joined list) :
    Joined (list.map (Clause.settled reading)) := by
  induction list with
  | nil => exact joined
  | cons first others inductionHypothesis =>
    cases others with
    | nil => exact joined
    | cons second others => exact ⟨joined.1, inductionHypothesis joined.2⟩

/-- What a statement is read back as can be printed. -/
theorem Statement.printable_reread (labels : Registry Int Nat) {statement : Statement}
    (shaped : statement.Shaped) (written : statement.Written)
    (each : statement.EachTerm (Term.Spelled reading.symbols))
    (notLabel : statement.isLabel = false) : (statement.reread reading labels).Printable := by
  cases statement with
  | expression value =>
    refine ⟨?_, Term.printable_settled value each⟩
    cases value <;> exact shaped
  | assign target formula =>
    refine ⟨?_, Term.printable_settled target each.1,
      Formula.printable_settled each.2 written.2⟩
    cases target <;> exact shaped
  | objectStep object reference step =>
    exact Term.printable_settled (.property object reference) each
  | branch clauses body =>
    refine ⟨joined_settled shaped, fun clause member => ?_⟩
    obtain ⟨given, there, rfl⟩ := List.mem_map.mp member
    obtain ⟨left, right⟩ := each given there
    exact ⟨Formula.printable_settled left (written given there).1,
      Formula.printable_settled right (written given there).2⟩
  | returnGuard value body => exact written
  | jump kind goal =>
    refine ⟨fun gosub => ?_, fun label member => ?_⟩
    · rw [if_neg fun without => without.1 gosub]
      exact Option.some_ne_none _
    · split at member
      · cases member
      · cases member
        exact Int.natCast_nonneg _
  | word kind => trivial
  | anchor value => exact written
  | taskPause goal => exact Int.natCast_nonneg _
  | label goal => cases notLabel
  | bare => exact shaped.elim

/-! ### Tokens -/

theorem tokens_clausePieces {list : List Clause}
    (each : ∀ clause ∈ list, clause.Each (Term.Spelled reading.symbols)) :
    (clausePieces reading list).flatMap Piece.tokens =
      (clauseParts (list.map (Clause.settled reading))).flatMap Piece.tokens := by
  induction list with
  | nil => rfl
  | cons first others inductionHypothesis =>
    obtain ⟨⟨left, right⟩, others⟩ := List.forall_mem_cons.mp each
    simp only [clausePieces, Clause.pieces, List.map_cons, clauseParts, Clause.settled,
      List.flatMap_append, List.flatMap_cons, Formula.tokens_pieces left,
      Formula.tokens_pieces right, inductionHypothesis others]

/-- The pieces of a statement hold the tokens of what the statement is read back as. -/
theorem Statement.tokens_pieces (labels : Registry Int Nat) {statement : Statement}
    (each : statement.EachTerm (Term.Spelled reading.symbols))
    (notLabel : statement.isLabel = false) :
    (statement.pieces reading labels).flatMap Piece.tokens =
      (statement.reread reading labels).parts.flatMap Piece.tokens := by
  cases statement with
  | expression value => exact Term.tokens_pieces value each
  | assign target formula =>
    rw [pieces, reread, parts, List.flatMap_append, List.flatMap_append, List.flatMap_cons,
      List.flatMap_cons, Term.tokens_pieces target each.1, Formula.tokens_pieces each.2]
  | branch clauses body =>
    rw [pieces, reread, parts, List.flatMap_cons, List.flatMap_cons, List.flatMap_cons,
      List.flatMap_cons, tokens_clausePieces each]
  | jump kind goal =>
    rw [pieces, jumpPieces, reread]
    split <;> rfl
  | label goal => cases notLabel
  | _ => rfl

end Settled

/-! ### Lines -/

section Parsing

variable {reading : Reading} (legible : reading.symbols.Legible)
  (few : reading.program.strings.length < Bytes.range 4)

include legible few

/-- The cleaned line of a statement is read back as the statement. -/
theorem Statement.parse_line (labels : Registry Int Nat) {statement : Statement}
    (shaped : statement.Shaped) (written : statement.Written)
    (each : statement.EachTerm (Term.Spelled reading.symbols))
    (notLabel : statement.isLabel = false) :
    Statement.parse (Piece.line Piece.clean (statement.pieces reading labels)) =
      .ok (statement.reread reading labels) := by
  have sound := (Statement.spells_heading legible few labels each).sound
  have chained := (Statement.isLine_pieces labels shaped notLabel each).chained
  have cut := Piece.cut_line sound chained
  have read := run_statementParts (printable_reread labels shaped written each notLabel)
    (free_reread labels written) (Nat.le_refl _)
  have noBody : (statement.reread reading labels).withBody .nil =
      statement.reread reading labels := by
    cases statement <;> rfl
  rw [tokens_pieces labels each notLabel] at cut
  rw [noBody] at read
  exact parse_of_run cut read

end Parsing

/-- The line of a label is read back as the label. -/
theorem Statement.parse_definition (address : Nat) :
    Statement.parse (Piece.line Piece.clean [.definition (Text.hexCapital 2 address)]) =
      .ok (.label address) := by
  have sound : ∀ piece ∈ [Piece.definition (Text.hexCapital 2 address)],
      piece.Sound ⟨[], [], [], [], [], .empty, .empty, .empty⟩ := by
    intro piece member
    cases List.mem_singleton.mp member
    exact ⟨Text.hexCapital_ne_nil 2 address, Text.all_isHexDigit_hexCapital 2 address⟩
  exact parse_of_run (Piece.cut_line sound trivial) (Reader.run_definition address _)

end MapScript
