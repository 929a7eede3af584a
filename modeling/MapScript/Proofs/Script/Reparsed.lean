/-
This file proves that reading a statement undoes printing it. The tokens of a term are read
back as the term, whatever follows, as long as that does not go on with it; so a formula
ends before a comparison, and a clause before the word that joins it to the next. A line
that starts with a word of the language is taken for the statement of that word, though,
unless the word is called. So a flag or an object of such a name can stand within a line,
but not at its start.
-/

import MapScript.Proofs.Script.Parsing
import MapScript.Proofs.Script.Printed

namespace MapScript

namespace Reader

variable {rest : List Token}

/-! ### Terms -/

/-- A term starts with a token of its kind. If that is a word of the language that no parenthesis
follows, the term can be mistaken for another statement. -/
theorem head_parts {value : Term} (printable : value.Printable) :
    ∃ token others, value.parts.flatMap Piece.tokens = token :: others ∧
      startsTerm token.kind = true ∧ (token.kind = .name → (∃ more, others = openToken :: more) ∨
        isReservedWord token.text = false ∨ token.text ∈ value.lead?) := by
  cases value with
  | call name arguments multitask => exact ⟨_, _, rfl, rfl, fun _ => Or.inl ⟨_, rfl⟩⟩
  | flag name =>
    exact ⟨_, _, rfl, rfl, fun _ => Or.inr (Or.inr (congrArg some String.ofList_toList.symm))⟩
  | localVariable index =>
    obtain ⟨number, rfl, -⟩ := printable
    refine ⟨_, _, rfl, rfl, fun _ => Or.inr (Or.inl ?_)⟩
    show isReservedWord (String.ofList ("var".toList ++ Text.natural number)) = false
    rw [← Piece.toList_variable, String.ofList_toList]
    exact isReservedWord_variable number
  | number given => exact ⟨_, _, rfl, rfl, nofun⟩
  | text written => exact ⟨_, _, rfl, rfl, nofun⟩
  | property object name =>
    obtain ⟨token, same, starts, named⟩ := tokens_ofObject object
    rw [Term.parts, List.flatMap_cons, same]
    exact ⟨_, _, rfl, starts, fun isName => Or.inr (Or.inr (congrArg some (named isName).symm))⟩
  | objectCall object name arguments multitask =>
    obtain ⟨token, same, starts, named⟩ := tokens_ofObject object
    rw [Term.parts, List.flatMap_cons, same]
    exact ⟨_, _, rfl, starts, fun isName => Or.inr (Or.inr (congrArg some (named isName).symm))⟩
  | chain head operators operands step => exact printable.elim

/-- The arguments of a call in their parentheses, given that they are read if there are any. -/
theorem run_parenthesizedParts {values : List Term} {bound : Nat}
    (printable : Term.ArgumentsPrintable values)
    (read : values ≠ [] → (arguments bound).run
      ((Term.argumentParts values).flatMap Piece.tokens ++ closeToken :: rest) =
        .ok (values, closeToken :: rest)) :
    (parenthesized (arguments bound)).run
        (openToken :: (Term.argumentParts values).flatMap Piece.tokens ++ closeToken :: rest) =
      .ok (values, rest) := by
  cases values with
  | nil => rfl
  | cons first others =>
    refine run_parenthesized ?_ (read (List.cons_ne_nil _ _))
    obtain ⟨token, more, same, starts, -⟩ := head_parts printable.1
    rw [Term.argumentParts, List.flatMap_append, same]
    refine beq_eq_false_iff_ne.mpr fun closes => ?_
    rw [closes] at starts
    cases starts

mutual

/-- A term is read back from its tokens. -/
theorem run_parts (value : Term) (printable : value.Printable) {rest : List Token}
    (stops : Stops rest) {bound : Nat}
    (enough : (value.parts.flatMap Piece.tokens).length ≤ bound) :
    (term bound).run (value.parts.flatMap Piece.tokens ++ rest) = .ok (value, rest) := by
  obtain ⟨fewer, rfl⟩ : ∃ fewer, bound = fewer + 1 := by
    obtain ⟨token, others, same, -⟩ := head_parts printable
    rw [same, List.length_cons] at enough
    exact ⟨bound - 1, by omega⟩
  rw [term]
  match value with
  | .call name values multitask =>
    rw [Term.parts, flatMap_callPieces] at enough ⊢
    have fits : ((Term.argumentParts values).flatMap Piece.tokens).length + 1 ≤ fewer := by
      simp only [List.length_cons, List.length_append] at enough
      omega
    have read := run_parenthesizedParts printable.2 fun filled =>
      run_argumentParts values filled printable.2 rest fits
    simp only [List.cons_append, List.append_assoc, List.nil_append] at read ⊢
    rw [run_termWith_name]
    exact run_namedTerm_call printable.1 read
  | .flag name =>
    have named : nameTerm name = .ok (.flag name) := by rw [nameTerm, printable.2]
    show (termWith (arguments fewer)).run (⟨.name, String.ofList name.toList⟩ :: rest) = _
    rw [String.ofList_toList]
    exact run_termWith_alone printable.1 named _ stops
  | .localVariable index =>
    obtain ⟨number, rfl, short⟩ := printable
    show (termWith (arguments fewer)).run
      (⟨.name, String.ofList ("var".toList ++ Text.natural number)⟩ :: rest) = _
    rw [← Piece.toList_variable, String.ofList_toList]
    exact run_termWith_alone (Piece.isWord_variable number) (nameTerm_variable short) _ stops
  | .number given => exact run_termWith_integer printable _ stops
  | .text written => exact run_termWith_quoted written _
  | .property object name =>
    rw [Term.parts, List.flatMap_cons, List.append_assoc]
    show (termWith (arguments fewer)).run ((Piece.ofObject object).tokens ++
      ⟨.dot, "."⟩ :: ⟨.name, String.ofList name.toList⟩ :: rest) = _
    rw [run_termWith_object printable.1, String.ofList_toList]
    exact run_objectTerm_property printable.2 _ stops
  | .objectCall object name values multitask =>
    rw [Term.parts, List.flatMap_cons, List.flatMap_cons, flatMap_callPieces] at enough ⊢
    have fits : ((Term.argumentParts values).flatMap Piece.tokens).length + 1 ≤ fewer := by
      simp only [List.length_cons, List.length_append] at enough
      omega
    have read := run_parenthesizedParts printable.2 fun filled =>
      run_argumentParts values filled printable.2 rest fits
    simp only [List.cons_append, List.append_assoc, List.nil_append] at read ⊢
    exact (run_termWith_object printable.1.1 _ _).trans (run_objectTerm_call printable.1.2 read)
  | .chain head operators operands step => exact printable.elim

/-- Arguments are read back from their tokens. -/
theorem run_argumentParts (values : List Term) (filled : values ≠ [])
    (printable : Term.ArgumentsPrintable values) (rest : List Token) {bound : Nat}
    (enough : ((Term.argumentParts values).flatMap Piece.tokens).length + 1 ≤ bound) :
    (arguments bound).run
        ((Term.argumentParts values).flatMap Piece.tokens ++ closeToken :: rest) =
      .ok (values, closeToken :: rest) := by
  obtain ⟨fewer, rfl⟩ : ∃ fewer, bound = fewer + 1 := ⟨bound - 1, by omega⟩
  match values with
  | [] => exact absurd rfl filled
  | [first] =>
    simp only [Term.argumentParts, Term.furtherParts, List.append_nil] at enough ⊢
    exact run_arguments_last
      (run_parts first printable.1 (stops_closing rest) (Nat.le_of_succ_le_succ enough))
  | first :: second :: others =>
    have split : (Term.argumentParts (first :: second :: others)).flatMap Piece.tokens =
        first.parts.flatMap Piece.tokens ++ ⟨.comma, ","⟩ ::
          (Term.argumentParts (second :: others)).flatMap Piece.tokens := by
      rw [Term.argumentParts, List.flatMap_append]
      rfl
    have filled : 0 < (first.parts.flatMap Piece.tokens).length := by
      obtain ⟨token, more, same, -⟩ := head_parts printable.1
      rw [same]
      exact Nat.succ_pos _
    rw [split] at enough ⊢
    rw [List.length_append, List.length_cons] at enough
    rw [List.append_assoc, List.cons_append]
    exact run_arguments_more
      (run_parts first printable.1 (stops_comma _) (show _ ≤ fewer by omega))
      (run_argumentParts (second :: others) (List.cons_ne_nil _ _) printable.2 rest
        (show _ ≤ fewer by omega))

end

/-! ### Formulas and conditions -/

/-- What follows the first term of a formula does not go on with that term. -/
theorem stops_operationParts (operators : List Operator) (operands : List Term)
    (step : Option Step) (stops : Stops rest) :
    Stops ((Term.operationParts operators operands ++ step.toList.map Piece.step).flatMap
      Piece.tokens ++ rest) := by
  match operators, operands with
  | operator :: operators, operand :: operands =>
    rw [Term.operationParts]
    exact stops_operator _ _
  | [], _ | _ :: _, [] =>
    rw [Term.operationParts, List.nil_append]
    · cases step with
      | none => exact stops
      | some step => exact stops_operator _ _
    · nofun

/-- What follows the first term of a formula is read back from its tokens. -/
theorem run_operationParts {operators : List Operator} {operands : List Term} (step : Option Step)
    (printable : ∀ operand ∈ operands, operand.Printable)
    (paired : operators.length = operands.length) (closes : Closes rest) {bound : Nat}
    (enough : ((Term.operationParts operators operands ++ step.toList.map Piece.step).flatMap
      Piece.tokens).length ≤ bound) :
    (formulaTail bound).run ((Term.operationParts operators operands ++
        step.toList.map Piece.step).flatMap Piece.tokens ++ rest) =
      .ok ((operators.zip operands, step), rest) := by
  induction operands generalizing operators bound with
  | nil =>
    cases List.eq_nil_of_length_eq_zero paired
    cases step with
    | none => exact run_formulaTail_end bound closes
    | some step =>
      obtain ⟨fewer, rfl⟩ : ∃ fewer, bound = fewer + 1 := ⟨bound - 1, by
        simp [Term.operationParts, Piece.tokens] at enough
        omega⟩
      exact run_formulaTail_step fewer step rest
  | cons operand operands inductionHypothesis =>
    obtain ⟨operator, operators, rfl⟩ :=
      List.exists_cons_of_length_eq_add_one paired
    rw [Term.operationParts, List.cons_append, List.cons_append, List.append_assoc,
      List.flatMap_cons, List.flatMap_append, Piece.tokens, String.ofList_toList] at enough ⊢
    simp only [List.length_append, List.length_cons, List.length_nil] at enough
    obtain ⟨fewer, rfl⟩ : ∃ fewer, bound = fewer + 1 := ⟨bound - 1, by omega⟩
    have tailRead := inductionHypothesis
      (fun other member => printable other (List.mem_cons_of_mem _ member))
      (Nat.succ.inj paired) (show _ ≤ fewer by omega)
    have operandRead := run_parts operand (printable operand List.mem_cons_self)
      (stops_operationParts operators operands step closes.stops) (show _ ≤ fewer by omega)
    simp only [List.cons_append, List.nil_append, List.append_assoc]
    exact run_formulaTail_operator operator operandRead tailRead

/-- A formula is read back from its tokens. -/
theorem run_formulaParts {given : Formula} (printable : given.Printable) (closes : Closes rest)
    {bound : Nat} (enough : (given.parts.flatMap Piece.tokens).length ≤ bound) :
    (formula bound).run (given.parts.flatMap Piece.tokens ++ rest) = .ok (given, rest) := by
  rw [Formula.parts, Term.parts, List.append_assoc, List.flatMap_append] at enough ⊢
  rw [List.length_append] at enough
  have headRead := run_parts given.head printable.head
    (stops_operationParts given.operators given.operands given.step closes.stops)
    (show _ ≤ bound by omega)
  have tailRead := run_operationParts given.step printable.operands printable.paired closes
    (show _ ≤ bound by omega)
  rw [List.append_assoc, formula, run_bind_ok headRead, run_bind_ok tailRead]
  simp only [List.map_fst_zip (Nat.le_of_eq printable.paired),
    List.map_snd_zip (Nat.le_of_eq printable.paired.symm)]
  rfl

/-- The clauses of a condition are read back from their tokens. -/
theorem run_clauseParts {list : List Clause} (joined : Joined list)
    (printable : ∀ clause ∈ list, clause.left.Printable ∧ clause.right.Printable) {bound : Nat}
    (enough : ((clauseParts list).flatMap Piece.tokens).length ≤ bound) :
    (clauses bound).run ((clauseParts list).flatMap Piece.tokens) = .ok (list, []) := by
  induction list generalizing bound with
  | nil => exact joined.elim
  | cons first others inductionHypothesis =>
    obtain ⟨leftPrintable, rightPrintable⟩ := printable first List.mem_cons_self
    have split : (clauseParts (first :: others)).flatMap Piece.tokens =
        first.left.parts.flatMap Piece.tokens ++ ⟨.operator, first.comparison.text⟩ ::
          (first.right.parts.flatMap Piece.tokens ++
            ((conjunctionPieces first.conjunction).flatMap Piece.tokens ++
              (clauseParts others).flatMap Piece.tokens)) := by
      simp only [clauseParts, List.flatMap_append, List.flatMap_cons, Piece.tokens,
        String.ofList_toList, List.append_assoc, List.cons_append, List.nil_append]
    rw [split] at enough ⊢
    simp only [List.length_append, List.length_cons] at enough
    obtain ⟨fewer, rfl⟩ : ∃ fewer, bound = fewer + 1 := ⟨bound - 1, by omega⟩
    have left (rest : List Token) := run_formulaParts leftPrintable
      (closes_comparison first.comparison rest) (show _ ≤ fewer + 1 by omega)
    have right {rest : List Token} (closes : Closes rest) :=
      run_formulaParts rightPrintable closes (show _ ≤ fewer + 1 by omega)
    cases others with
    | nil =>
      have last : first.conjunction = none := joined
      have whole := run_clauses_last (left _) (right closes_nil)
      rw [last]
      rw [← last] at whole
      exact whole
    | cons second others =>
      obtain ⟨word, joins⟩ := Option.isSome_iff_exists.mp joined.1
      have rest := inductionHypothesis joined.2
        (fun clause member => printable clause (List.mem_cons_of_mem _ member))
        (show _ ≤ fewer by omega)
      have whole := run_clauses_more (left _) (right (closes_name word.text _)) rest
      rw [← joins] at whole
      rw [joins, tokens_conjunction]
      exact whole

/-! ### Statements -/

/-- A statement that starts with a term is read as such, unless it starts with a word of the
language. -/
theorem run_statement_parts {value : Term} (printable : value.Printable)
    (free : ∀ word ∈ value.lead?, isReservedWord word = false) (bound : Nat)
    (rest : List Token) :
    (statement bound).run (value.parts.flatMap Piece.tokens ++ rest) =
      (termStatement bound).run (value.parts.flatMap Piece.tokens ++ rest) := by
  obtain ⟨token, others, same, starts, named⟩ := head_parts printable
  rw [same]
  refine run_statement_head bound starts fun isName => ?_
  rcases named isName with called | unreserved | leads
  · exact Or.inl called
  · exact Or.inr unreserved
  · exact Or.inr (free token.text leads)

theorem run_expressionParts {value : Term} (printable : value.Printable)
    (alone : standsAlone value = true)
    (free : ∀ word ∈ value.lead?, isReservedWord word = false) {bound : Nat}
    (enough : (value.parts.flatMap Piece.tokens).length ≤ bound) :
    (statement bound).run (value.parts.flatMap Piece.tokens) = .ok (.expression value, []) := by
  have starts := run_statement_parts printable free bound []
  have read := run_parts value printable closes_nil.stops enough
  rw [List.append_nil] at starts read
  rw [starts]
  exact run_termStatement_expression read alone

theorem run_assignParts {target : Term} {given : Formula} (targetPrintable : target.Printable)
    (printable : given.Printable) (assignable : isTarget target = true)
    (free : ∀ word ∈ target.lead?, isReservedWord word = false) {bound : Nat}
    (enough : (target.parts.flatMap Piece.tokens ++ ⟨.operator, "="⟩ ::
      given.parts.flatMap Piece.tokens).length ≤ bound) :
    (statement bound).run (target.parts.flatMap Piece.tokens ++ ⟨.operator, "="⟩ ::
        given.parts.flatMap Piece.tokens) = .ok (.assign target given, []) := by
  rw [List.length_append, List.length_cons] at enough
  have read := run_parts target targetPrintable
    (stops_operator "=" (given.parts.flatMap Piece.tokens)) (show _ ≤ bound by omega)
  have formulaRead := run_formulaParts printable closes_nil (show _ ≤ bound by omega)
  rw [List.append_nil] at formulaRead
  rw [run_statement_parts targetPrintable free]
  exact run_termStatement_assign read assignable formulaRead

theorem run_stepParts {object reference : String} {step : Step}
    (printable : (Term.property object reference).Printable)
    (free : isReservedWord object = false) {bound : Nat}
    (enough : ((Term.property object reference).parts.flatMap Piece.tokens).length ≤ bound) :
    (statement bound).run ((Term.property object reference).parts.flatMap Piece.tokens ++
        [⟨.operator, step.text⟩]) = .ok (.objectStep object reference step, []) := by
  have leads : ∀ word ∈ (Term.property object reference).lead?, isReservedWord word = false := by
    intro word member
    cases member
    exact free
  rw [run_statement_parts printable leads]
  exact run_termStatement_step
    (run_parts (.property object reference) printable (stops_operator step.text []) enough)

theorem run_branchParts {list : List Clause} (joined : Joined list)
    (printable : ∀ clause ∈ list, clause.left.Printable ∧ clause.right.Printable) {bound : Nat}
    (enough : ((clauseParts list).flatMap Piece.tokens).length ≤ bound) :
    (statement bound).run (⟨.name, "if"⟩ :: (clauseParts list).flatMap Piece.tokens) =
      .ok (.branch list .nil, []) := by
  have read := run_clauseParts joined printable enough
  obtain ⟨first, others, rfl⟩ : ∃ first others, list = first :: others := by
    cases list with
    | nil => exact joined.elim
    | cons first others => exact ⟨first, others, rfl⟩
  obtain ⟨token, more, same, starts, -⟩ := head_parts (printable first List.mem_cons_self).1.head
  have tokens : ∃ rest, (clauseParts (first :: others)).flatMap Piece.tokens = token :: rest := by
    simp only [clauseParts, Formula.parts, Term.parts, List.flatMap_append, same]
    exact ⟨_, rfl⟩
  obtain ⟨rest, tokens⟩ := tokens
  rw [tokens] at read ⊢
  exact run_statement_branch starts read

/-! ### Words of the language -/

/-- A line that starts with a word of the language is refused if a dot or an operator follows the
word. -/
theorem run_statement_reserved {word : String} (reserved : isReservedWord word = true)
    {next : Token} (follows : next.kind = .dot ∨ next.kind = .operator) (rest : List Token)
    (bound : Nat) :
    ∃ reason, (statement (bound + 1)).run (⟨.name, word⟩ :: next :: rest) =
      .error (.of (.script reason)) := by
  obtain ⟨kind, text⟩ := next
  have taken : (statement (bound + 1)).run (⟨.name, word⟩ :: ⟨kind, text⟩ :: rest) =
      (wordStatement (bound + 1) word).run (⟨.name, word⟩ :: ⟨kind, text⟩ :: rest) := by
    rcases follows with rfl | rfl <;> rfl
  rw [taken, wordStatement]
  by_cases isIf : word = "if"
  · -- A condition asks for a value, and none starts with such a token.
    rw [if_pos isIf, run_bind_ok (run_advance _ _)]
    rcases follows with rfl | rfl <;> exact ⟨_, rfl⟩
  · rw [if_neg isIf]
    cases jumps : JumpKind.ofText? word with
    | some jumpKind =>
      -- A jump asks for a label.
      show ∃ reason, (advance >>= fun _ => jump jumpKind).run _ = .error (.of (.script reason))
      rw [run_bind_ok (run_advance _ _)]
      rcases follows with rfl | rfl <;> exact ⟨_, rfl⟩
    | none =>
      cases ends : WordKind.ofText? word with
      | some wordKind => exact ⟨_, rfl⟩
      | none =>
        rw [isReservedWord, jumps, ends, beq_eq_false_iff_ne.mpr isIf] at reserved
        cases reserved

/-- An object that is a word of the language is written as a word. -/
theorem tokens_reserved {object : String} (isObject : IsObject object.toList)
    (reserved : isReservedWord object = true) :
    (Piece.ofObject object).tokens = [⟨.name, object⟩] := by
  rcases Piece.ofObject_cases isObject with ⟨-, isNumeral⟩ | ⟨same, -⟩
  · rw [isReservedWord_numeral isNumeral] at reserved
    cases reserved
  · rw [same, Piece.tokens, String.ofList_toList]

end Reader

namespace Statement

/-- The word that a statement starts with where that could be mistaken for another statement. -/
def lead? : Statement → Option String
  | .expression value => value.lead?
  | .assign target _ => target.lead?
  | .objectStep object _ _ => some object
  | _ => none

/-- A statement that starts with a word of the language goes on with a dot or an operator. -/
theorem lead_parts {statement : Statement} (printable : statement.Printable) {word : String}
    (leads : word ∈ statement.lead?) (reserved : isReservedWord word = true) :
    ∃ next rest, statement.parts.flatMap Piece.tokens = ⟨.name, word⟩ :: next :: rest ∧
      (next.kind = .dot ∨ next.kind = .operator) := by
  cases statement with
  | expression value =>
    obtain ⟨alone, printable⟩ := printable
    cases value with
    | objectCall object name arguments multitask =>
      cases leads
      rw [parts, Term.parts, List.flatMap_cons, Reader.tokens_reserved printable.1.1 reserved]
      exact ⟨_, _, rfl, Or.inl rfl⟩
    | call _ _ _ => cases leads
    | number _ => cases leads
    | text _ => cases leads
    | _ => cases alone
  | assign target formula =>
    obtain ⟨assignable, printable, -⟩ := printable
    cases target with
    | flag name =>
      cases leads
      rw [parts, Term.parts, List.cons_append, List.flatMap_cons, Piece.tokens,
        String.ofList_toList]
      exact ⟨_, _, rfl, Or.inr rfl⟩
    | property object name =>
      cases leads
      rw [parts, Term.parts, List.cons_append, List.flatMap_cons,
        Reader.tokens_reserved printable.1 reserved]
      exact ⟨_, _, rfl, Or.inl rfl⟩
    | localVariable _ => cases leads
    | _ => cases assignable
  | objectStep object reference step =>
    cases leads
    rw [parts, List.flatMap_cons, Reader.tokens_reserved printable.1 reserved]
    exact ⟨_, _, rfl, Or.inl rfl⟩
  | _ => cases leads

/-- The tokens of a statement that starts with no word of the language but its own are read back
as the statement. -/
theorem run_statementParts {statement : Statement} (printable : statement.Printable)
    (free : ∀ word ∈ statement.lead?, isReservedWord word = false) {bound : Nat}
    (enough : (statement.parts.flatMap Piece.tokens).length ≤ bound) :
    (Reader.statement bound).run (statement.parts.flatMap Piece.tokens) =
      .ok (statement.withBody .nil, []) := by
  cases statement with
  | label goal =>
    obtain ⟨address, rfl⟩ := Int.eq_ofNat_of_zero_le printable
    exact Reader.run_definition address bound
  | expression value => exact Reader.run_expressionParts printable.2 printable.1 free enough
  | assign target formula =>
    have tokens : (Statement.assign target formula).parts.flatMap Piece.tokens =
        target.parts.flatMap Piece.tokens ++ ⟨.operator, "="⟩ ::
          formula.parts.flatMap Piece.tokens := by
      rw [parts, List.flatMap_append]
      rfl
    rw [tokens] at enough ⊢
    exact Reader.run_assignParts printable.2.1 printable.2.2 printable.1 free enough
  | objectStep object reference step =>
    have tokens : (Statement.objectStep object reference step).parts.flatMap Piece.tokens =
        (Term.property object reference).parts.flatMap Piece.tokens ++
          [⟨.operator, step.text⟩] := by
      simp only [parts, Term.parts, List.flatMap_cons, List.append_assoc]
      rfl
    rw [tokens] at enough ⊢
    rw [List.length_append] at enough
    exact Reader.run_stepParts printable (free object rfl) (Nat.le_of_add_right_le enough)
  | branch clauses body =>
    exact Reader.run_branchParts printable.1 printable.2 (Nat.le_of_succ_le enough)
  | returnGuard value body => exact Reader.run_returnGuard printable bound
  | jump kind goal =>
    cases goal with
    | none =>
      have tokens : (Statement.jump kind none).parts.flatMap Piece.tokens =
        [⟨.name, kind.text⟩] := Reader.flatMap_word kind.text
      rw [tokens]
      exact Reader.run_jump_alone (fun same => printable.1 same rfl) bound
    | some goal =>
      obtain ⟨address, rfl⟩ := Int.eq_ofNat_of_zero_le (printable.2 goal rfl)
      have tokens : (Statement.jump kind (some address)).parts.flatMap Piece.tokens =
          [⟨.name, kind.text⟩, ⟨.label, String.ofList ('#' :: Text.hexCapital 2 address)⟩] :=
        congrArg (· ++ _) (Reader.flatMap_word kind.text)
      rw [tokens]
      exact Reader.run_jump_label kind address bound
  | word kind =>
    have tokens : (Statement.word kind).parts.flatMap Piece.tokens = [⟨.name, kind.text⟩] :=
      Reader.flatMap_word kind.text
    rw [tokens]
    exact Reader.run_word kind bound
  | anchor value => exact Reader.run_anchor printable bound
  | taskPause goal =>
    obtain ⟨address, rfl⟩ := Int.eq_ofNat_of_zero_le printable
    have tokens : (Statement.taskPause address).parts.flatMap Piece.tokens =
        [⟨.taskPause, String.ofList ("<TaskPause(".toList ++
          '#' :: Text.hexCapital 2 address ++ ")>".toList)⟩] := Reader.flatMap_taskPause _
    rw [tokens]
    exact Reader.run_taskPause address bound
  | bare => exact printable.elim

/-- Reading a statement undoes printing it, its block left out, unless the statement starts with a
word of the language that is meant as a flag or an object. Such a line is refused. -/
theorem parse_print {statement : Statement} (printable : statement.Printable) :
    ((∀ word ∈ statement.lead?, isReservedWord word = false) →
      parse statement.print = .ok (statement.withBody .nil)) ∧
    ((∃ word ∈ statement.lead?, isReservedWord word = true) →
      ∃ reason, parse statement.print = .error (.of (.script reason))) := by
  have cut := cut_print printable
  refine ⟨fun free => parse_of_run cut (run_statementParts printable free (Nat.le_refl _)), ?_⟩
  rintro ⟨word, leads, reserved⟩
  obtain ⟨next, rest, tokens, follows⟩ := lead_parts printable leads reserved
  obtain ⟨reason, refused⟩ := Reader.run_statement_reserved reserved follows rest
    (rest.length + 1)
  rw [tokens] at cut
  exact ⟨reason, parse_of_refused cut refused⟩

/-- A condition with calls in a call, the least and the greatest number, and flags that are named
as words of the language are. -/
def siege : Statement :=
  .branch
    [⟨⟨.call "Count" [.objectCall "77" "Reach" [.number (-0x80000000), .text "a, (b"] true,
        .flag "and"] false, [.subtract, .shiftLeft], [.number 0xFFFFFFFF, .property "gate" "x"],
        some .increment⟩, .atMost, ⟨.localVariable 3, [], [], none⟩, some .either⟩,
      ⟨⟨.flag "if", [], [], none⟩, .unequal,
        ⟨.number 0, [.bitOr], [.localVariable 0], some .decrement⟩, none⟩] .nil

theorem parse_print_siege :
    siege.print = ("if Count(77.@Reach(-2147483648, \"a, (b\"), and) - 4294967295 << gate.x++" ++
      " <= var3 or if != 0 | var0--").toList ∧ parse siege.print = .ok siege ∧
    ∃ reason, parse (objectStep "Goto" "x" .increment).print = .error (.of (.script reason)) := by
  have indexed (number : Nat) (small : number < 0x80000000) :
      (Term.localVariable number).Printable := by
    have short : (number : Int).natAbs < Text.numeralLimit := short_of_range (by omega)
    exact ⟨number, rfl, short⟩
  have quoted : (Term.text "a, (b").Printable := show '"' ∉ "a, (b".toList by decide
  have reach : Term.Printable (.objectCall "77" "Reach"
      [.number (-0x80000000), .text "a, (b"] true) :=
    ⟨⟨Or.inr (Piece.isNumeral_integer 77), by decide⟩, ⟨by decide, by decide⟩, quoted, trivial⟩
  have count : Term.Printable (.call "Count" [.objectCall "77" "Reach"
      [.number (-0x80000000), .text "a, (b"] true, .flag "and"] false) :=
    ⟨by decide, reach, ⟨by decide, by decide⟩, trivial⟩
  have printable : siege.Printable := by
    refine ⟨⟨rfl, rfl⟩, List.forall_mem_cons.mpr ⟨?_, List.forall_mem_singleton.mpr ?_⟩⟩
    · refine ⟨⟨count, ?_, rfl⟩, ⟨indexed 3 (by decide), List.forall_mem_nil _, rfl⟩⟩
      refine List.forall_mem_cons.mpr ⟨⟨by decide, by decide⟩, List.forall_mem_singleton.mpr ?_⟩
      exact ⟨Or.inl (by decide), by decide⟩
    · refine ⟨⟨⟨by decide, by decide⟩, List.forall_mem_nil _, rfl⟩,
        ⟨⟨by decide, by decide⟩, ?_, rfl⟩⟩
      exact List.forall_mem_singleton.mpr (indexed 0 (by decide))
  have stepPrintable : (objectStep "Goto" "x" .increment).Printable :=
    ⟨Or.inl (by decide), by decide⟩
  exact ⟨by decide +kernel, (parse_print printable).1 nofun,
    (parse_print stepPrintable).2 ⟨"Goto", rfl, by decide⟩⟩

/-- A flag that is named as a word of the language is, a formula as an argument, and negative
labels and variables can all be printed, but the lines are refused. -/
theorem parse_print_mistaken :
    ((assign (.flag "if") ⟨.number 3, [], [], none⟩).print = "if = 3".toList ∧
      failure? (parse "if = 3".toList) = some (.script (.valueExpected (some "=")))) ∧
    ((expression (.call "Wait" [.chain (.number 1) [.add] [.number 2] none] false)).print =
        "Wait(1 + 2)".toList ∧
      failure? (parse "Wait(1 + 2)".toList) = some (.script (.mismatch "RPAREN" "+"))) ∧
    ((jump .goto (some (-1))).print = "Goto #-1".toList ∧
      failure? (parse "Goto #-1".toList) = some (.script (.character '#'))) ∧
    (assign (.localVariable (-1)) ⟨.number 0, [], [], none⟩).print = "var-1 = 0".toList ∧
      failure? (parse "var-1 = 0".toList) = some (.script (.mismatch "OP" "-1")) := by
  decide +kernel

end Statement

end MapScript
