/-
This file steps through the reading of tokens: what is read from a term, a formula, a
condition or a statement, given what is read from its parts. What a term is made of does not
matter here, only that it is read and what follows it.
-/

import MapScript.Proofs.Script.Spelling

namespace MapScript

/-! ### Numbers and variables -/

theorem short_of_range {value : Int} (range : -0x80000000 ≤ value ∧ value < 0x100000000) :
    value.natAbs < Text.numeralLimit := by
  have digits : 10 ≤ Text.digitLimit := by decide
  unfold Text.numeralLimit
  -- the limit stays a variable, or its power would be computed
  generalize Text.digitLimit = limit at digits ⊢
  have large : 10 ^ 10 ≤ 10 ^ limit := Nat.pow_le_pow_right (by decide) digits
  show value.natAbs < 10 ^ limit
  omega

theorem numberOf_integer {value : Int} (range : -0x80000000 ≤ value ∧ value < 0x100000000) :
    Reader.numberOf (String.ofList (Text.integer value)) = .ok value := by
  rw [Reader.numberOf, String.toList_ofList, Text.readInteger?_integer (short_of_range range)]
  exact if_pos range

/-- The name of a variable is no word of the language. -/
theorem isReservedWord_variable (number : Nat) :
    isReservedWord ("var" ++ String.ofList (Text.natural number)) = false := by
  refine Bool.eq_false_iff.mpr fun reserved => ?_
  have member := isReservedWord_cases reserved
  have none : ∀ word ∈ ["if", "Goto", "End", "Gosub", "Return", "Endint"],
      word.toList.head? ≠ some 'v' := by decide
  refine none _ member ?_
  rw [Piece.toList_variable]
  rfl

namespace Reader

/-! ### Single tokens -/

section Steps

variable {α β : Type} {tokens rest : List Token}

/-- Reading goes on behind what was read. -/
theorem run_bind_ok {first : Reader α} {next : α → Reader β} {value : α}
    (one : first.run tokens = .ok (value, rest)) :
    (first >>= next).run tokens = (next value).run rest := by
  rw [StateT.run_bind, one]
  rfl

theorem run_peek? (tokens : List Token) : peek?.run tokens = .ok (tokens.head?, tokens) := rfl

theorem run_nextIs (kind : TokenKind) (tokens : List Token) :
    (nextIs kind).run tokens = .ok (tokens.head?.any (·.kind == kind), tokens) := by
  cases tokens <;> rfl

theorem run_advance (token : Token) (rest : List Token) :
    advance.run (token :: rest) = .ok ((), rest) := rfl

theorem run_atEnd (tokens : List Token) : atEnd.run tokens = .ok (tokens.isEmpty, tokens) := rfl

end Steps

/-- What does not go on with a term that was just read. -/
def Stops (rest : List Token) : Prop :=
  ∀ token ∈ rest.head?, token.kind ≠ .leftParenthesis ∧ token.kind ≠ .dot

theorem Stops.nextIs_opening {rest : List Token} (stops : Stops rest) :
    rest.head?.any (·.kind == .leftParenthesis) = false := by
  cases rest with
  | nil => rfl
  | cons token others => exact beq_eq_false_iff_ne.mpr (stops token rfl).1

theorem Stops.nextIs_dot {rest : List Token} (stops : Stops rest) :
    rest.head?.any (·.kind == .dot) = false := by
  cases rest with
  | nil => rfl
  | cons token others => exact beq_eq_false_iff_ne.mpr (stops token rfl).2

/-! ### Names -/

/-- The written name of a call. -/
def calledName (multitask : Bool) (name : String) : String :=
  (if multitask then "@" else "") ++ name

theorem head_ne_at {name : String} (isWord : Piece.IsWord name.toList) :
    ∃ c rest, name.toList = c :: rest ∧ c ≠ '@' := by
  obtain ⟨all, some⟩ := isWord
  cases letters : name.toList with
  | nil =>
    rw [letters] at some
    cases some
  | cons c rest =>
    rw [letters] at all
    refine ⟨c, rest, rfl, ?_⟩
    rintro rfl
    exact absurd (List.all_eq_true.mp all _ List.mem_cons_self) (by decide)

theorem isMultitask_calledName {name : String} (isWord : Piece.IsWord name.toList)
    (multitask : Bool) : isMultitask (calledName multitask name) = multitask := by
  obtain ⟨c, rest, letters, other⟩ := head_ne_at isWord
  unfold isMultitask calledName
  cases multitask with
  | true => rw [if_pos rfl, String.toList_append]; rfl
  | false =>
    rw [if_neg Bool.false_ne_true, String.empty_append, letters]
    exact beq_eq_false_iff_ne.mpr fun same => other (Option.some.inj same)

theorem plainName_calledName {name : String} (isWord : Piece.IsWord name.toList)
    (multitask : Bool) : plainName (calledName multitask name) = name := by
  obtain ⟨c, rest, letters, other⟩ := head_ne_at isWord
  have kept : name.toList.dropWhile (· == '@') = name.toList := by
    rw [letters, List.dropWhile_cons, if_neg]
    rw [beq_eq_false_iff_ne.mpr other]
    exact Bool.false_ne_true
  unfold plainName calledName
  cases multitask with
  | true =>
    rw [if_pos rfl, String.toList_append]
    show String.ofList (name.toList.dropWhile (· == '@')) = name
    rw [kept, String.ofList_toList]
  | false => rw [if_neg Bool.false_ne_true, String.empty_append, kept, String.ofList_toList]

theorem isMultitask_word {name : String} (isWord : Piece.IsWord name.toList) :
    isMultitask name = false := by
  have plain := isMultitask_calledName isWord false
  rwa [calledName, if_neg Bool.false_ne_true, String.empty_append] at plain

theorem nameTerm_variable {number : Nat} (short : number < Text.numeralLimit) :
    nameTerm ("var" ++ String.ofList (Text.natural number)) = .ok (.localVariable number) := by
  have digits : variableDigits? ("var" ++ String.ofList (Text.natural number)).toList =
      some (Text.natural number) := by
    rw [Piece.toList_variable]
    show (if !(Text.natural number).isEmpty && (Text.natural number).all Text.isDigit then
      some (Text.natural number) else none) = _
    rw [List.isEmpty_eq_false_iff.mpr (Text.natural_ne_nil number),
      Text.all_isDigit_natural]
    rfl
  rw [nameTerm, digits]
  simp only [Text.readNatural?_natural short]

/-! ### Terms -/

section Terms

variable {rest : List Token}

/-- The token of an opening parenthesis. -/
def openToken : Token := ⟨.leftParenthesis, "("⟩

/-- The token of a closing parenthesis. -/
def closeToken : Token := ⟨.rightParenthesis, ")"⟩

theorem run_parenthesized {arguments : Reader (List Term)} {tokens : List Token}
    {values : List Term}
    (value : (tokens ++ closeToken :: rest).head?.any (·.kind == .rightParenthesis) = false)
    (read : arguments.run (tokens ++ closeToken :: rest) = .ok (values, closeToken :: rest)) :
    (parenthesized arguments).run (openToken :: tokens ++ closeToken :: rest) =
      .ok (values, rest) := by
  have opened : (discard (expect .leftParenthesis) : Reader Unit).run
      (openToken :: tokens ++ closeToken :: rest) = .ok ((), tokens ++ closeToken :: rest) := rfl
  have next := run_nextIs .rightParenthesis (tokens ++ closeToken :: rest)
  rw [value] at next
  rw [parenthesized, run_bind_ok opened, run_bind_ok next, if_neg Bool.false_ne_true,
    run_bind_ok read]
  rfl

/-- A call behind its name. -/
theorem run_namedTerm_call {name : String} {multitask : Bool}
    (isWord : Piece.IsWord name.toList) {arguments : Reader (List Term)} {tokens : List Token}
    {values : List Term}
    (read : (parenthesized arguments).run (openToken :: tokens) = .ok (values, rest)) :
    (namedTerm (calledName multitask name) arguments).run (openToken :: tokens) =
      .ok (.call name values multitask, rest) := by
  rw [namedTerm, run_bind_ok (run_nextIs _ _)]
  show ((parenthesized arguments >>= fun terms => pure
    (Term.call (plainName (calledName multitask name)) terms
      (isMultitask (calledName multitask name)))) : Reader Term).run _ = _
  rw [run_bind_ok read, plainName_calledName isWord, isMultitask_calledName isWord]
  rfl

/-- A call behind an object. -/
theorem run_objectTerm_call {object name : String} {multitask : Bool}
    (isWord : Piece.IsWord name.toList) {arguments : Reader (List Term)} {tokens : List Token}
    {values : List Term}
    (read : (parenthesized arguments).run (openToken :: tokens) = .ok (values, rest)) :
    (objectTerm object arguments).run
        (⟨.dot, "."⟩ :: ⟨.name, calledName multitask name⟩ :: openToken :: tokens) =
      .ok (.objectCall object name values multitask, rest) := by
  show ((parenthesized arguments >>= fun terms => pure
    (Term.objectCall object (plainName (calledName multitask name)) terms
      (isMultitask (calledName multitask name)))) : Reader Term).run (openToken :: tokens) = _
  rw [run_bind_ok read, plainName_calledName isWord, isMultitask_calledName isWord]
  rfl

/-- A property behind its object. -/
theorem run_objectTerm_property {object name : String} (isWord : Piece.IsWord name.toList)
    (arguments : Reader (List Term)) (stops : Stops rest) :
    (objectTerm object arguments).run (⟨.dot, "."⟩ :: ⟨.name, name⟩ :: rest) =
      .ok (.property object name, rest) := by
  have named : (expect .name).run (⟨.name, name⟩ :: rest) = .ok (⟨.name, name⟩, rest) := rfl
  have dotted : (discard (expect .dot) : Reader Unit).run (⟨.dot, "."⟩ :: ⟨.name, name⟩ :: rest) =
    .ok ((), ⟨.name, name⟩ :: rest) := rfl
  rw [objectTerm, run_bind_ok dotted, run_bind_ok named, run_bind_ok (run_nextIs _ _),
    stops.nextIs_opening, if_neg Bool.false_ne_true, isMultitask_word isWord,
    if_neg Bool.false_ne_true]
  rfl

theorem run_termWith_string (arguments : Reader (List Term)) (text : String)
    (tokens : List Token) :
    (termWith arguments).run (⟨.string, text⟩ :: tokens) =
      .ok (.text (String.ofList ((text.toList.drop 1).dropLast)), tokens) := rfl

theorem run_termWith_number (arguments : Reader (List Term)) (text : String)
    (tokens : List Token) :
    (termWith arguments).run (⟨.number, text⟩ :: tokens) =
      (numeralTerm text arguments).run tokens := rfl

theorem run_termWith_name (arguments : Reader (List Term)) (text : String)
    (tokens : List Token) :
    (termWith arguments).run (⟨.name, text⟩ :: tokens) =
      (namedTerm text arguments).run tokens := rfl

/-- A word on its own is a variable or a flag. -/
theorem run_termWith_alone {name : String} (isWord : Piece.IsWord name.toList) {value : Term}
    (named : nameTerm name = .ok value) (arguments : Reader (List Term)) (stops : Stops rest) :
    (termWith arguments).run (⟨.name, name⟩ :: rest) = .ok (value, rest) := by
  rw [run_termWith_name, namedTerm, run_bind_ok (run_nextIs _ _), stops.nextIs_opening,
    if_neg Bool.false_ne_true, isMultitask_word isWord, if_neg Bool.false_ne_true,
    run_bind_ok (run_nextIs _ _), stops.nextIs_dot, if_neg Bool.false_ne_true, named]
  rfl

theorem run_termWith_integer {value : Int} (range : -0x80000000 ≤ value ∧ value < 0x100000000)
    (arguments : Reader (List Term)) (stops : Stops rest) :
    (termWith arguments).run (⟨.number, String.ofList (Text.integer value)⟩ :: rest) =
      .ok (.number value, rest) := by
  rw [run_termWith_number, numeralTerm, run_bind_ok (run_nextIs _ _), stops.nextIs_dot,
    if_neg Bool.false_ne_true, numberOf_integer range]
  rfl

theorem run_termWith_quoted (written : String) (arguments : Reader (List Term)) :
    (termWith arguments).run (⟨.string, String.ofList ('"' :: written.toList ++ ['"'])⟩ :: rest) =
      .ok (.text written, rest) := by
  rw [run_termWith_string, String.toList_ofList, List.cons_append, List.drop_succ_cons,
    List.drop_zero, List.dropLast_concat, String.ofList_toList]

/-- What follows an object is read, whether the object is a word or a numeral. -/
theorem run_termWith_object {object : String} (isObject : IsObject object.toList)
    (arguments : Reader (List Term)) (tokens : List Token) :
    (termWith arguments).run ((Piece.ofObject object).tokens ++ ⟨.dot, "."⟩ :: tokens) =
      (objectTerm object arguments).run (⟨.dot, "."⟩ :: tokens) := by
  rcases Piece.ofObject_cases isObject with ⟨same, -⟩ | ⟨same, isWord⟩
  · rw [same, Piece.tokens, String.ofList_toList, List.singleton_append, run_termWith_number]
    rfl
  · rw [same, Piece.tokens, String.ofList_toList, List.singleton_append, run_termWith_name,
      namedTerm, run_bind_ok (run_nextIs _ _)]
    show ((if isMultitask object then reject (.callExpected object)
      else do if ← nextIs .dot then objectTerm object arguments else nameTerm object) :
        Reader Term).run (⟨.dot, "."⟩ :: tokens) = _
    rw [isMultitask_word isWord]
    rfl

/-- The last argument of a call. -/
theorem run_arguments_last {tokens : List Token} {value : Term} {bound : Nat}
    (read : (term bound).run tokens = .ok (value, closeToken :: rest)) :
    (arguments (bound + 1)).run tokens = .ok ([value], closeToken :: rest) := by
  rw [arguments, run_bind_ok read, run_bind_ok (run_nextIs _ _)]
  rfl

/-- An argument before a comma. -/
theorem run_arguments_more {tokens more : List Token} {first : Term} {others : List Term}
    {bound : Nat} (read : (term bound).run tokens = .ok (first, ⟨.comma, ","⟩ :: more))
    (furtherRead : (arguments bound).run more = .ok (others, rest)) :
    (arguments (bound + 1)).run tokens = .ok (first :: others, rest) := by
  rw [arguments, run_bind_ok read, run_bind_ok (run_nextIs _ _)]
  show ((do
    advance
    let rest ← arguments bound
    pure (first :: rest)) : Reader (List Term)).run (⟨.comma, ","⟩ :: more) = _
  rw [run_bind_ok (run_advance _ _), run_bind_ok furtherRead]
  rfl

theorem stops_closing (rest : List Token) : Stops (closeToken :: rest) := by
  intro token member
  cases member
  decide

theorem stops_comma (rest : List Token) : Stops (⟨.comma, ","⟩ :: rest) := by
  intro token member
  cases member
  decide

/-- Whether a term starts with a kind of token. -/
def startsTerm : TokenKind → Bool
  | .string | .number | .name => true
  | _ => false

theorem tokens_ofObject (written : String) : ∃ token, (Piece.ofObject written).tokens = [token] ∧
    startsTerm token.kind = true ∧ (token.kind = .name → token.text = written) := by
  unfold Piece.ofObject
  split
  · exact ⟨_, rfl, rfl, fun other => by cases other⟩
  · exact ⟨_, rfl, rfl, fun _ => String.ofList_toList⟩

theorem flatMap_callPieces (multitask : Bool) (name : String) (pieces : List Piece) :
    (callPieces multitask name pieces).flatMap Piece.tokens =
      ⟨.name, calledName multitask name⟩ :: openToken :: pieces.flatMap Piece.tokens ++
        [closeToken] := by
  rw [callPieces, List.cons_append, List.cons_append, List.flatMap_cons, List.flatMap_cons,
    List.flatMap_append, Piece.tokens, String.ofList_toList]
  rfl

/-! ### Formulas -/

/-- What does not go on with a formula that was just read. -/
structure Closes (rest : List Token) : Prop where
  stops : Stops rest
  noMark : ∀ token ∈ rest.head?, token.kind = .operator →
    Step.ofText? token.text = none ∧ Operator.ofText? token.text = none

theorem step_ofText?_text (step : Step) : Step.ofText? step.text = some step := by
  cases step <;> decide

theorem operator_ofText?_text (operator : Operator) :
    Step.ofText? operator.text = none ∧ Operator.ofText? operator.text = some operator := by
  cases operator <;> decide

theorem comparison_ofText?_text (comparison : Comparison) :
    Comparison.ofText? comparison.text = some comparison ∧
      Step.ofText? comparison.text = none ∧ Operator.ofText? comparison.text = none := by
  cases comparison <;> decide

theorem run_formulaTail_end (bound : Nat) (closes : Closes rest) :
    (formulaTail bound).run rest = .ok (([], none), rest) := by
  cases bound with
  | zero => rfl
  | succ bound =>
    cases rest with
    | nil => rfl
    | cons token others =>
      rw [formulaTail, run_bind_ok (run_peek? _)]
      simp only [List.head?_cons]
      split
      · rename_i mark
        obtain ⟨noStep, noOperator⟩ := closes.noMark token rfl mark
        simp only [noStep, noOperator]
        rfl
      · rfl

theorem run_formulaTail_step (bound : Nat) (step : Step) (rest : List Token) :
    (formulaTail (bound + 1)).run (⟨.operator, step.text⟩ :: rest) =
      .ok (([], some step), rest) := by
  rw [formulaTail, run_bind_ok (run_peek? _)]
  simp only [List.head?_cons, if_true, step_ofText?_text]
  rfl

/-- An operator and its term, before the rest of a formula. -/
theorem run_formulaTail_operator {tokens more : List Token} {operand : Term}
    {list : List (Operator × Term)} {step : Option Step} {bound : Nat} (operator : Operator)
    (operandRead : (term bound).run tokens = .ok (operand, more))
    (tailRead : (formulaTail bound).run more = .ok ((list, step), rest)) :
    (formulaTail (bound + 1)).run (⟨.operator, operator.text⟩ :: tokens) =
      .ok (((operator, operand) :: list, step), rest) := by
  obtain ⟨noStep, isOperator⟩ := operator_ofText?_text operator
  rw [formulaTail, run_bind_ok (run_peek? _)]
  simp only [List.head?_cons, if_true, noStep, isOperator]
  rw [run_bind_ok (run_advance _ _), run_bind_ok operandRead, run_bind_ok tailRead]
  rfl

theorem stops_operator (text : String) (rest : List Token) :
    Stops (⟨.operator, text⟩ :: rest) := by
  intro token member
  cases member
  exact ⟨nofun, nofun⟩

end Terms

/-! ### Conditions -/

theorem closes_comparison (comparison : Comparison) (rest : List Token) :
    Closes (⟨.operator, comparison.text⟩ :: rest) where
  stops := stops_operator _ _
  noMark token member _ := by
    cases member
    exact (comparison_ofText?_text comparison).2

theorem closes_name (text : String) (rest : List Token) : Closes (⟨.name, text⟩ :: rest) where
  stops token member := by
    cases member
    exact ⟨nofun, nofun⟩
  noMark token member mark := by
    cases member
    cases mark

theorem closes_nil : Closes [] where
  stops token member := by cases member
  noMark token member _ := by cases member

theorem conjunction_ofText?_text (conjunction : Conjunction) :
    Conjunction.ofText? conjunction.text = some conjunction := by
  cases conjunction <;> decide

theorem run_comparison (mark : Comparison) (rest : List Token) :
    comparison.run (⟨.operator, mark.text⟩ :: rest) = .ok (mark, rest) := by
  have taken : (expect .operator).run (⟨.operator, mark.text⟩ :: rest) =
    .ok (⟨.operator, mark.text⟩, rest) := rfl
  rw [comparison, run_bind_ok taken]
  simp only [(comparison_ofText?_text mark).1]
  rfl

theorem run_conjunction (word : Conjunction) (rest : List Token) :
    conjunction.run (⟨.name, word.text⟩ :: rest) = .ok (word, rest) := by
  have taken : (expect .name).run (⟨.name, word.text⟩ :: rest) = .ok (⟨.name, word.text⟩, rest) :=
    rfl
  rw [conjunction, run_bind_ok taken]
  simp only [conjunction_ofText?_text word]
  rfl

/-- The last clause of a condition. -/
theorem run_clauses_last {tokens more : List Token} {left right : Formula} {mark : Comparison}
    {bound : Nat}
    (leftRead : (formula (bound + 1)).run tokens = .ok (left, ⟨.operator, mark.text⟩ :: more))
    (rightRead : (formula (bound + 1)).run more = .ok (right, [])) :
    (clauses (bound + 1)).run tokens = .ok ([⟨left, mark, right, none⟩], []) := by
  rw [clauses, run_bind_ok leftRead, run_bind_ok (run_comparison _ _), run_bind_ok rightRead,
    run_bind_ok (run_atEnd _)]
  rfl

/-- A clause before the word that joins it to others. -/
theorem run_clauses_more {tokens more next : List Token} {left right : Formula}
    {mark : Comparison} {word : Conjunction} {list : List Clause} {bound : Nat}
    (leftRead : (formula (bound + 1)).run tokens = .ok (left, ⟨.operator, mark.text⟩ :: more))
    (rightRead : (formula (bound + 1)).run more = .ok (right, ⟨.name, word.text⟩ :: next))
    (restRead : (clauses bound).run next = .ok (list, [])) :
    (clauses (bound + 1)).run tokens = .ok (⟨left, mark, right, some word⟩ :: list, []) := by
  rw [clauses, run_bind_ok leftRead, run_bind_ok (run_comparison _ _), run_bind_ok rightRead,
    run_bind_ok (run_atEnd _)]
  simp only [List.isEmpty_cons, Bool.false_eq_true, if_false]
  rw [run_bind_ok (run_conjunction _ _), run_bind_ok restRead]
  rfl

theorem tokens_conjunction (word : Conjunction) :
    (conjunctionPieces (some word)).flatMap Piece.tokens = [⟨.name, word.text⟩] := by
  simp only [conjunctionPieces, List.flatMap_cons, Piece.tokens, String.ofList_toList,
    List.flatMap_nil]
  rfl

/-! ### Labels -/

/-- The number of a label is found behind its mark, whatever stands around it. -/
theorem labelOf_eq {kind : TokenKind} {front back : List Char} (address : Nat)
    (noMark : '#' ∉ front) (ends : ∀ c ∈ back.head?, Text.isHexDigit c = false) :
    labelOf ⟨kind, String.ofList (front ++ '#' :: Text.hexCapital 2 address ++ back)⟩ =
      address := by
  have skipped : (front ++ '#' :: Text.hexCapital 2 address ++ back).dropWhile (· != '#') =
      '#' :: (Text.hexCapital 2 address ++ back) := by
    rw [List.append_assoc, List.dropWhile_append_of_pos]
    · rfl
    · exact fun c member => bne_iff_ne.mpr fun same => noMark (same ▸ member)
  rw [labelOf, String.toList_ofList, skipped, List.drop_succ_cons, List.drop_zero,
    Token.takeWhile_append_stop (Text.all_isHexDigit_hexCapital 2 address) ends,
    Text.hexDigitsValue_hexCapital]

/-! ### Statements of a word -/

theorem flatMap_word (word : String) :
    [Piece.word word.toList].flatMap Piece.tokens = [⟨.name, word⟩] := by
  rw [List.flatMap_singleton, Piece.tokens, String.ofList_toList]

theorem flatMap_taskPause (digits : List Char) :
    [Piece.bracketed ("TaskPause(#".toList ++ digits ++ [')'])].flatMap Piece.tokens =
      [⟨.taskPause, String.ofList ("<TaskPause(".toList ++ '#' :: digits ++ ")>".toList)⟩] := by
  have letters : '<' :: ("TaskPause(#".toList ++ digits ++ [')']) ++ ['>'] =
      "<TaskPause(".toList ++ '#' :: digits ++ ")>".toList := by simp
  rw [← letters]
  rfl

theorem jumpKind_ofText?_text (kind : JumpKind) : JumpKind.ofText? kind.text = some kind := by
  cases kind <;> decide

theorem run_statement_word {word : String} (bound : Nat) {rest : List Token}
    (stops : Stops rest) :
    (statement bound).run (⟨.name, word⟩ :: rest) =
      (wordStatement bound word).run (⟨.name, word⟩ :: rest) := by
  show ((if rest.head?.any (·.kind == .leftParenthesis) then termStatement bound
    else wordStatement bound word) : Reader Statement).run (⟨.name, word⟩ :: rest) = _
  rw [stops.nextIs_opening]
  rfl

theorem run_wordStatement_jump (kind : JumpKind) (bound : Nat) (rest : List Token) :
    (wordStatement bound kind.text).run (⟨.name, kind.text⟩ :: rest) = (jump kind).run rest := by
  have other : kind.text ≠ "if" := by cases kind <;> decide
  rw [wordStatement, if_neg other]
  simp only [jumpKind_ofText?_text]
  exact run_bind_ok (run_advance _ _)

theorem run_jump_alone {kind : JumpKind} (other : kind ≠ .gosub) (bound : Nat) :
    (statement bound).run [⟨.name, kind.text⟩] = .ok (.jump kind none, []) := by
  rw [run_statement_word bound closes_nil.stops, run_wordStatement_jump, jump,
    run_bind_ok (run_atEnd _)]
  simp only [List.isEmpty_nil, if_true, if_neg other]
  rfl

theorem run_jump_label (kind : JumpKind) (address bound : Nat) :
    (statement bound).run
        [⟨.name, kind.text⟩, ⟨.label, String.ofList ('#' :: Text.hexCapital 2 address)⟩] =
      .ok (.jump kind (some address), []) := by
  have stops : Stops [⟨.label, String.ofList ('#' :: Text.hexCapital 2 address)⟩] := by
    intro token member
    cases member
    exact ⟨fun same => (by cases same), fun same => (by cases same)⟩
  have label := @labelOf_eq .label [] [] address List.not_mem_nil (fun _ none => by cases none)
  rw [List.nil_append, List.append_nil] at label
  rw [run_statement_word bound stops, run_wordStatement_jump, jump, run_bind_ok (run_atEnd _)]
  show Except.ok (Statement.jump kind (some (labelOf _)), _) = _
  rw [label]
  rfl

theorem run_word (kind : WordKind) (bound : Nat) :
    (statement bound).run [⟨.name, kind.text⟩] = .ok (.word kind, []) := by
  rw [run_statement_word bound closes_nil.stops]
  have other : kind.text ≠ "if" := by cases kind <;> decide
  have noJump : JumpKind.ofText? kind.text = none := by cases kind <;> decide
  have isWord : WordKind.ofText? kind.text = some kind := by cases kind <;> decide
  rw [wordStatement, if_neg other]
  simp only [noJump, isWord]
  rfl

theorem run_number {value : Int} (range : -0x80000000 ≤ value ∧ value < 0x100000000)
    (rest : List Token) :
    number.run (⟨.number, String.ofList (Text.integer value)⟩ :: rest) = .ok (value, rest) := by
  have taken : (expect .number).run (⟨.number, String.ofList (Text.integer value)⟩ :: rest) =
    .ok (⟨.number, String.ofList (Text.integer value)⟩, rest) := rfl
  rw [number, run_bind_ok taken, numberOf_integer range]
  rfl

theorem run_anchor {value : Int} (range : -0x80000000 ≤ value ∧ value < 0x100000000)
    (bound : Nat) :
    (statement bound).run [⟨.keyword, "<Anchor>"⟩, ⟨.operator, "="⟩,
      ⟨.number, String.ofList (Text.integer value)⟩] = .ok (.anchor value, []) := by
  show ((do
    let value ← number
    expectEnd
    pure (.anchor value)) : Reader Statement).run
      [⟨.number, String.ofList (Text.integer value)⟩] = _
  rw [run_bind_ok (run_number range [])]
  rfl

theorem run_returnGuard {value : Int} (range : -0x80000000 ≤ value ∧ value < 0x100000000)
    (bound : Nat) :
    (statement bound).run [⟨.name, "if"⟩, ⟨.keyword, "<ScriptRv>"⟩, ⟨.operator, "="⟩,
      ⟨.number, String.ofList (Text.integer value)⟩] = .ok (.returnGuard value .nil, []) := by
  show ((do
    let value ← number
    expectEnd
    pure (.returnGuard value .nil)) : Reader Statement).run
      [⟨.number, String.ofList (Text.integer value)⟩] = _
  rw [run_bind_ok (run_number range [])]
  rfl

theorem run_taskPause (address bound : Nat) :
    (statement bound).run [⟨.taskPause, String.ofList
      ("<TaskPause(".toList ++ '#' :: Text.hexCapital 2 address ++ ")>".toList)⟩] =
        .ok (.taskPause address, []) := by
  have label := @labelOf_eq .taskPause "<TaskPause(".toList ")>".toList address (by decide)
    (fun c first => by cases first; decide)
  show Except.ok (Statement.taskPause (labelOf _), _) = _
  rw [label]
  rfl

theorem run_definition (address bound : Nat) :
    (statement bound).run [⟨.labelDefinition, String.ofList
      ('#' :: Text.hexCapital 2 address ++ [':'])⟩] = .ok (.label address, []) := by
  have label := @labelOf_eq .labelDefinition [] [':'] address List.not_mem_nil
    (fun c first => by cases first; decide)
  show Except.ok (Statement.label (labelOf _), _) = _
  rw [List.nil_append] at label
  rw [label]
  rfl

/-! ### Statements that start with a term -/

theorem wordStatement_free {word : String} (free : isReservedWord word = false) (bound : Nat) :
    wordStatement bound word = termStatement bound := by
  simp only [isReservedWord, Bool.or_eq_false_iff, beq_eq_false_iff_ne] at free
  rw [wordStatement, if_neg free.1.1]
  simp only [Option.not_isSome_iff_eq_none.mp (Bool.eq_false_iff.mp free.1.2),
    Option.not_isSome_iff_eq_none.mp (Bool.eq_false_iff.mp free.2)]

/-- A line that starts with a term is read as a statement of that term, unless it starts with a
word of the language that no parenthesis follows. -/
theorem run_statement_head {token : Token} {others rest : List Token} (bound : Nat)
    (starts : startsTerm token.kind = true)
    (named : token.kind = .name → (∃ more, others = openToken :: more) ∨
      isReservedWord token.text = false) :
    (statement bound).run (token :: others ++ rest) =
      (termStatement bound).run (token :: others ++ rest) := by
  obtain ⟨kind, text⟩ := token
  cases kind with
  | name =>
    rcases named rfl with ⟨more, rfl⟩ | free
    · rfl
    · show ((if (others ++ rest).head?.any (·.kind == .leftParenthesis) then termStatement bound
        else wordStatement bound text) : Reader Statement).run _ = _
      rw [wordStatement_free free, ite_self]
  | number => rfl
  | string => rfl
  | _ => cases starts

/-- A term with nothing behind it. -/
theorem run_termStatement_expression {tokens : List Token} {value : Term} {bound : Nat}
    (read : (term bound).run tokens = .ok (value, [])) (alone : standsAlone value = true) :
    (termStatement bound).run tokens = .ok (.expression value, []) := by
  rw [termStatement, run_bind_ok read, statementTail, run_bind_ok (run_atEnd _)]
  simp only [List.isEmpty_nil, if_true, alone]
  rfl

/-- A term, an equals sign and a formula. -/
theorem run_termStatement_assign {tokens rest : List Token} {target : Term} {given : Formula}
    {bound : Nat} (read : (term bound).run tokens = .ok (target, ⟨.operator, "="⟩ :: rest))
    (assignable : isTarget target = true)
    (formulaRead : (formula bound).run rest = .ok (given, [])) :
    (termStatement bound).run tokens = .ok (.assign target given, []) := by
  have taken : (expect .operator).run (⟨.operator, "="⟩ :: rest) = .ok (⟨.operator, "="⟩, rest) :=
    rfl
  have noStep : Step.ofText? "=" = none := by decide
  rw [termStatement, run_bind_ok read, statementTail, run_bind_ok (run_atEnd _)]
  simp only [List.isEmpty_cons, Bool.false_eq_true, if_false]
  rw [run_bind_ok taken]
  simp only [noStep, assignable]
  show ((do
    let formula ← formula bound
    expectEnd
    pure (.assign target formula)) : Reader Statement).run _ = _
  rw [run_bind_ok formulaRead]
  rfl

/-- A property and a step. -/
theorem run_termStatement_step {tokens : List Token} {object reference : String} {step : Step}
    {bound : Nat} (read : (term bound).run tokens =
      .ok (.property object reference, [⟨.operator, step.text⟩])) :
    (termStatement bound).run tokens = .ok (.objectStep object reference step, []) := by
  have taken : (expect .operator).run [⟨.operator, step.text⟩] =
    .ok (⟨.operator, step.text⟩, []) := rfl
  rw [termStatement, run_bind_ok read, statementTail, run_bind_ok (run_atEnd _)]
  simp only [List.isEmpty_cons, Bool.false_eq_true, if_false]
  rw [run_bind_ok taken]
  simp only [step_ofText?_text]
  rfl

/-- A condition of clauses, of which the first starts with a term. -/
theorem run_statement_branch {token : Token} {rest : List Token} {list : List Clause} {bound : Nat}
    (starts : startsTerm token.kind = true)
    (read : (clauses bound).run (token :: rest) = .ok (list, [])) :
    (statement bound).run (⟨.name, "if"⟩ :: token :: rest) = .ok (.branch list .nil, []) := by
  obtain ⟨kind, text⟩ := token
  have stops : Stops (⟨kind, text⟩ :: rest) := by
    intro token member
    cases member
    constructor
    · rintro rfl
      cases starts
    · rintro rfl
      cases starts
  rw [run_statement_word bound stops, wordStatement, if_pos rfl, run_bind_ok (run_advance _ _),
    condition, run_bind_ok (run_peek? _)]
  cases kind with
  | name | number | string =>
    show ((do
      let clauses ← clauses bound
      pure (.branch clauses .nil)) : Reader Statement).run _ = _
    rw [run_bind_ok read]
    rfl
  | _ => cases starts

end Reader

/-! ### Lines -/

theorem Statement.parse_of_run {line : List Char} {tokens : List Token} {statement : Statement}
    (cut : Token.cut line = .ok tokens)
    (read : (Reader.statement tokens.length).run tokens = .ok (statement, [])) :
    Statement.parse line = .ok statement := by
  rw [Statement.parse, cut, ok_bind]
  show Prod.fst <$> (Reader.statement tokens.length).run tokens = _
  rw [read]
  rfl

theorem Statement.parse_of_refused {line : List Char} {tokens : List Token} {fault : Fault}
    (cut : Token.cut line = .ok tokens)
    (refused : (Reader.statement tokens.length).run tokens = .error fault) :
    Statement.parse line = .error fault := by
  rw [Statement.parse, cut, ok_bind]
  show Prod.fst <$> (Reader.statement tokens.length).run tokens = _
  rw [refused]
  rfl

end MapScript
