/-
This file proves that a script that can be encoded names only known references. Flags and
functions have to be known as well, but a listing looks them up by the number that their
name led to; a reference is written with its low byte only.
-/

import MapScript.Proofs.Listing.Cells
import MapScript.Proofs.Script.Written

namespace MapScript

namespace Encoder

variable {around : Surroundings} {pool next : StringPool} {bytes : Bytes}

theorem mem_references_of_reference {name : String}
    (encoded : (reference around name).run pool = .ok (bytes, next)) :
    name ∈ around.symbols.references := by
  obtain ⟨-, found, -⟩ := reference_eq_ok encoded
  exact List.mem_of_getElem? (Symbols.getElem?_of_idxOf? found)

theorem known_target {value : Term} {position : Position} {slot : Option Slot}
    (encoded : (target around value).run pool = .ok (bytes, next)) :
    value.Each (Term.Anywhere (Term.Known around.symbols)) position slot := by
  cases target_eq_ok encoded with
  | flag => trivial
  | localVariable => trivial
  | property object name selected number _ objectOk nameOk =>
    exact mem_references_of_reference nameOk

/-- Either a call has no arguments, or they are encoded. -/
theorem arguments_of_callWith {name : String} {multitask withOpcode : Bool} {count : Nat}
    {arguments : Encoder Bytes}
    (encoded : (callWith around name multitask withOpcode count arguments).run pool =
      .ok (bytes, next)) :
    count = 0 ∨ ∃ before inside after, arguments.run before = .ok (inside, after) := by
  obtain ⟨function, number, rest, called, code, -⟩ := callWith_eq_ok encoded
  cases code with
  | nothing zero empty => exact .inl empty
  | counted inside next positive small insideOk => exact .inr ⟨pool, inside, _, insideOk⟩

mutual

theorem known_term (value : Term) {position : Position} {slot : Option Slot}
    {pool next : StringPool} {bytes : Bytes}
    (encoded : (term around value position slot).run pool = .ok (bytes, next)) :
    value.Each (Term.Anywhere (Term.Known around.symbols)) position slot := by
  match value with
  | .call name arguments multitask =>
    refine ⟨trivial, ?_⟩
    rw [term] at encoded
    rcases arguments_of_callWith encoded with none | ⟨before, inside, after, argumentsOk⟩
    · rw [List.eq_nil_of_length_eq_zero none]
      trivial
    · exact known_terms arguments argumentsOk
  | .objectCall object name arguments multitask =>
    refine ⟨trivial, ?_⟩
    obtain ⟨-, _, _, _, _, -, callOk, -⟩ := objectCall_eq_ok encoded
    rcases arguments_of_callWith callOk with none | ⟨before, inside, after, argumentsOk⟩
    · rw [List.eq_nil_of_length_eq_zero none]
      trivial
    · exact known_terms arguments argumentsOk
  | .property object name =>
    rw [term] at encoded
    exact known_target encoded
  | .flag _ | .localVariable _ | .number _ | .text _ | .chain .. => trivial

theorem known_terms (list : List Term) {function : String} {index : Nat}
    {pool next : StringPool} {bytes : Bytes}
    (encoded : (terms around function index list).run pool = .ok (bytes, next)) :
    Term.EachArgument (Term.Anywhere (Term.Known around.symbols)) function index list := by
  match list with
  | [] => trivial
  | first :: rest =>
    obtain ⟨_, _, _, firstOk, restOk, -⟩ := terms_cons_eq_ok encoded
    exact ⟨known_term first firstOk, known_terms rest restOk⟩

end

theorem known_operations {operators : List Operator} {operands : List Term}
    (paired : operators.length = operands.length)
    (encoded : (operations around (operators.zip operands)).run pool = .ok (bytes, next)) :
    ∀ operand ∈ operands, operand.Each (Term.Anywhere (Term.Known around.symbols)) .formula none := by
  induction operands generalizing operators pool bytes with
  | nil => exact fun _ none => absurd none List.not_mem_nil
  | cons first rest inductionHypothesis =>
    cases operators with
    | nil => cases paired
    | cons operator others =>
      obtain ⟨_, _, _, firstOk, restOk, -⟩ := operations_cons_eq_ok encoded
      intro operand member
      rcases List.mem_cons.mp member with rfl | later
      · exact known_term _ firstOk
      · exact inductionHypothesis (Nat.succ.inj paired) restOk operand later

theorem known_formulaTail {written : Formula} (paired : written.Paired)
    (encoded : (formulaTail around written).run pool = .ok (bytes, next)) :
    ∀ operand ∈ written.operands,
      operand.Each (Term.Anywhere (Term.Known around.symbols)) .formula none := by
  obtain ⟨_, operationsOk, -⟩ := formulaTail_eq_ok encoded
  exact known_operations paired operationsOk

theorem known_formula {written : Formula} (paired : written.Paired)
    (encoded : (formula around written).run pool = .ok (bytes, next)) :
    written.Each (Term.Anywhere (Term.Known around.symbols)) .formula none := by
  obtain ⟨_, _, _, headOk, tailOk, -⟩ := formula_eq_ok encoded
  exact ⟨known_term _ headOk, known_formulaTail paired tailOk⟩

theorem known_side {position : Position} {slot : Option Slot} {written : Formula}
    (paired : written.Paired)
    (encoded : (side around position slot written).run pool = .ok (bytes, next)) :
    written.Each (Term.Anywhere (Term.Known around.symbols)) position slot := by
  rcases side_eq_ok encoded with ⟨-, _, _, _, headOk, tailOk, -⟩ | ⟨-, noOperators, -, alone⟩
  · exact ⟨known_target headOk, known_formulaTail paired tailOk⟩
  · have none : written.operands = [] := by
      have paired : written.operators.length = written.operands.length := paired
      rw [noOperators] at paired
      exact List.eq_nil_of_length_eq_zero paired.symm
    refine ⟨known_term _ alone, ?_⟩
    rw [none]
    exact fun _ member => absurd member List.not_mem_nil

theorem known_clauses {list : List Clause}
    (paired : ∀ clause ∈ list, clause.left.Paired ∧ clause.right.Paired)
    (encoded : (clauses around list).run pool = .ok (bytes, next)) :
    ∀ clause ∈ list, clause.Each (Term.Anywhere (Term.Known around.symbols)) := by
  induction list generalizing pool bytes with
  | nil => exact fun _ none => absurd none List.not_mem_nil
  | cons first rest inductionHypothesis =>
    obtain ⟨_, _, _, firstOk, restOk, -⟩ := clauses_cons_eq_ok encoded
    obtain ⟨_, _, _, leftOk, rightOk, -⟩ := clause_eq_ok firstOk
    intro clause member
    rcases List.mem_cons.mp member with rfl | later
    · obtain ⟨left, right⟩ := paired _ List.mem_cons_self
      exact ⟨known_side left leftOk, known_side right rightOk⟩
    · exact inductionHypothesis (fun other there => paired other (List.mem_cons_of_mem _ there))
        restOk clause later

end Encoder

/-! ### Statements and blocks -/

namespace Assembler

variable {around : Surroundings}

mutual

theorem known_statement (given : Statement) (written : given.Each Statement.Written)
    {offset : Nat} {assembly next : Assembly} {cells : List Cell}
    (encoded : (statement around offset given).run assembly = .ok (cells, next)) :
    given.Each (Statement.EachTerm (Term.Anywhere (Term.Known around.symbols))) := by
  match given with
  | .expression value =>
    obtain ⟨_, _, termOk, -, -⟩ := encode_eq_ok encoded
    exact Encoder.known_term value termOk
  | .assign target formula =>
    obtain ⟨_, _, run, -, -⟩ := encode_eq_ok encoded
    obtain ⟨_, _, _, targetOk, formulaOk, -⟩ := Encoder.run_append_eq_ok run
    exact ⟨Encoder.known_target targetOk, Encoder.known_formula written.2 formulaOk⟩
  | .objectStep object reference step =>
    obtain ⟨_, _, run, -, -⟩ := encode_eq_ok encoded
    obtain ⟨_, _, -, referenceOk, -⟩ := Encoder.objectReference_eq_ok run
    exact Encoder.mem_references_of_reference referenceOk
  | .branch clauses body =>
    obtain ⟨_, _, _, _, clausesOk, bodyOk, -, -⟩ := branch_eq_ok encoded
    exact ⟨Encoder.known_clauses written.1 clausesOk, known_block body written.2 bodyOk⟩
  | .returnGuard value body =>
    obtain ⟨_, -, bodyOk, -⟩ := returnGuard_eq_ok encoded
    exact ⟨trivial, known_block body written.2 bodyOk⟩
  | .label _ | .jump .. | .word _ | .anchor _ | .taskPause _ | .bare => trivial

/-- The references in a block that can be encoded are known. -/
theorem known_block (given : Block) (written : given.Each Statement.Written)
    {offset : Nat} {assembly next : Assembly} {cells : List Cell}
    (encoded : (block around offset given).run assembly = .ok (cells, next)) :
    given.Each (Statement.EachTerm (Term.Anywhere (Term.Known around.symbols))) := by
  match given with
  | .nil => trivial
  | .cons origin first rest =>
    obtain ⟨_, _, _, firstOk, restOk, -⟩ := block_cons_eq_ok encoded
    exact ⟨known_statement first written.1 firstOk, known_block rest written.2 restOk⟩

end

end Assembler

end MapScript
