/-
This file proves that what is read back from a listing has the code of what was listed.
Numbers change only by what four bytes do not hold, and an object by the name that a
listing gives it is the same object.
-/

import MapScript.Proofs.Script.Rereading

namespace MapScript

/-! ### Objects -/

section Objects

variable {reading : Reading}

/-- A variable of the header can be written as the numeral of its value. -/
def Reading.ShortLocals (reading : Reading) : Prop :=
  ∀ value ∈ reading.program.locals, value.natAbs < Text.numeralLimit

theorem builtInObjects_idxOf?_eq_none {name : String} (isObject : name.toList.any Text.isDigit) :
    builtInObjects.idxOf? name = none := by
  refine List.idxOf?_eq_none_iff.mpr fun member => ?_
  have each : ∀ name ∈ builtInObjects, name.toList.any Text.isDigit = false := by decide
  rw [each name member] at isObject
  cases isObject

theorem any_isDigit_natural (number : Nat) : (Text.natural number).any Text.isDigit = true := by
  obtain ⟨c, rest, split⟩ := List.exists_cons_of_ne_nil (Text.natural_ne_nil number)
  have digit := List.all_eq_true.mp (Text.all_isDigit_natural number) c (split ▸ List.mem_cons_self)
  rw [split, List.any_cons, digit, Bool.true_or]

theorem any_isDigit_integer (value : Int) : (Text.integer value).any Text.isDigit = true := by
  cases value with
  | ofNat number => exact any_isDigit_natural number
  | negSucc number =>
    show ('-' :: Text.natural (number + 1)).any Text.isDigit = true
    rw [List.any_cons, any_isDigit_natural, Bool.or_true]

/-- The numeral of a value names the first variable that holds it. -/
theorem Encoder.objectName_integer (short : reading.ShortLocals) {value : Int} {index : Nat}
    (found : reading.program.locals.idxOf? value = some index) :
    Encoder.objectName reading.around (String.ofList (Text.integer value)) = (do
      let place ← Encoder.byte index
      pure (variableSelector :: place)) := by
  have member := List.mem_of_getElem? (Symbols.getElem?_of_idxOf? found)
  have letters : (String.ofList (Text.integer value)).toList = Text.integer value :=
    String.toList_ofList
  have held : (reading.around.locals.bind fun locals => locals.idxOf? value) = some index := found
  have digit : (String.ofList (Text.integer value)).toList.any Text.isDigit = true := by
    rw [letters]
    exact any_isDigit_integer value
  rw [Encoder.objectName, builtInObjects_idxOf?_eq_none digit, letters,
    if_pos (Piece.isNumeral_of_isNumeral (Piece.isNumeral_integer value)), Encoder.objectByValue,
    letters, Text.readSetting?_integer (short value member)]
  simp only [held]

/-- A variable names itself. -/
theorem Encoder.objectName_variable {index : Nat} (short : index < Text.numeralLimit)
    (inside : index < reading.program.locals.length) :
    Encoder.objectName reading.around ("var" ++ String.ofList (Text.natural index)) = (do
      let place ← Encoder.byte index
      pure (variableSelector :: place)) := by
  have digits : Encoder.variableNameDigits? ("var".toList ++ Text.natural index) =
      some (Text.natural index) := by
    have noFeed : ((Text.natural index).getLast? == some '\n') = false := by
      refine beq_eq_false_iff_ne.mpr fun same => ?_
      exact absurd (List.all_eq_true.mp (Text.all_isDigit_natural index) _
        (List.mem_of_mem_getLast? same)) (by decide)
    have filled : (Text.natural index).isEmpty = false :=
      List.isEmpty_eq_false_iff.mpr (Text.natural_ne_nil index)
    show Encoder.variableNameDigits? ('v' :: 'a' :: 'r' :: Text.natural index) = _
    simp only [Encoder.variableNameDigits?, noFeed, filled, Text.all_isDigit_natural,
      Bool.false_eq_true, if_false, Bool.not_false, Bool.and_self, if_true]
  have known : (reading.around.locals.any fun locals => locals.length ≤ index) = false := by
    simpa [Reading.around] using inside
  rw [Encoder.objectName, builtInObjects_idxOf?_eq_none, Piece.toList_variable, if_neg, digits]
  · simp only [Encoder.objectByVariable, Text.readNatural?_natural short, known,
      Bool.false_eq_true, if_false]
  · rw [← Piece.toList_variable, Piece.isNumeral_of_isWord (Piece.isWord_variable index)]
    decide
  · rw [Piece.toList_variable, List.any_append, any_isDigit_natural, Bool.or_true]

/-- The numeral of a value that a variable holds names the same object however it is spelled. -/
theorem Encoder.objectName_numeral (short : reading.ShortLocals) {name : String}
    (absent : builtInObjects.idxOf? name = none) (numeral : Encoder.isNumeral name.toList = true)
    {value : Int} (written : Text.readSetting? name.toList = some value)
    (held : value ∈ reading.program.locals) :
    Encoder.objectName reading.around (String.ofList (Text.integer value)) =
      Encoder.objectName reading.around name := by
  obtain ⟨index, found⟩ : ∃ index, reading.program.locals.idxOf? value = some index := by
    refine Option.isSome_iff_exists.mp ?_
    simpa using held
  have same : (reading.around.locals.bind fun locals => locals.idxOf? value) = some index := found
  rw [Encoder.objectName_integer short found, Encoder.objectName, absent, if_pos numeral,
    Encoder.objectByValue, written]
  simp only [same]

/-- What a listing calls a variable names the same object as the number of the variable. -/
theorem Encoder.objectName_variableObject (short : reading.ShortLocals) {name text : String}
    (absent : builtInObjects.idxOf? name = none) (noNumeral : ¬Encoder.isNumeral name.toList = true)
    {index : Nat}
    (read : (Encoder.variableNameDigits? name.toList).bind Text.readNatural? = some index)
    (named : Decoder.variableObject reading index = .ok text) :
    Encoder.objectName reading.around text = Encoder.objectName reading.around name := by
  obtain ⟨digits, written, value⟩ := Option.bind_eq_some_iff.mp read
  have inside : index < reading.program.locals.length := by
    rcases Decoder.variableObject_eq_ok named with ⟨held, found, -⟩ | ⟨inside, -⟩
    · exact (List.getElem?_eq_some_iff.mp (Symbols.getElem?_of_idxOf? found)).1
    · exact inside
  have known : (reading.around.locals.any fun locals => locals.length ≤ index) = false := by
    simpa [Reading.around] using inside
  have original : Encoder.objectName reading.around name = (do
      let place ← Encoder.byte index
      pure (variableSelector :: place)) := by
    rw [Encoder.objectName, absent, if_neg noNumeral, written]
    simp only [Encoder.objectByVariable, value, known, Bool.false_eq_true, if_false]
  rw [original]
  rcases Decoder.variableObject_eq_ok named with ⟨held, found, rfl⟩ | ⟨-, rfl⟩
  · exact Encoder.objectName_integer short found
  · exact Encoder.objectName_variable (Text.lt_of_readNatural? value) inside

/-- The name that a listing gives an object names the same object. -/
theorem Encoder.objectName_objectText (short : reading.ShortLocals) (name : String) :
    Encoder.objectName reading.around (reading.objectText name) =
      Encoder.objectName reading.around name := by
  unfold Reading.objectText
  split
  · rfl
  · rename_i other
    have absent : builtInObjects.idxOf? name = none := by simpa using other
    split
    · rename_i numeral
      split
      · rename_i value written
        split
        · rename_i held
          exact Encoder.objectName_numeral short absent numeral written
            (List.contains_iff_mem.mp held)
        · rfl
      · rfl
    · rename_i noNumeral
      split
      · rename_i index read
        split
        · rename_i text named
          exact Encoder.objectName_variableObject short absent noNumeral read named
        · rfl
      · rfl

end Objects

/-! ### Terms -/

theorem Term.length_settledList (reading : Reading) (list : List Term) :
    (Term.settledList reading list).length = list.length := by
  induction list with
  | nil => rfl
  | cons first rest inductionHypothesis =>
    rw [Term.settledList, List.length_cons, List.length_cons, inductionHypothesis]

section Terms

variable {reading : Reading}

theorem Encoder.target_settled (short : reading.ShortLocals) (value : Term) :
    Encoder.target reading.around (value.settled reading) =
      Encoder.target reading.around value := by
  cases value with
  | property object name =>
    rw [Term.settled, Encoder.target, Encoder.target, Encoder.objectName_objectText short]
  | _ => rfl

mutual

/-- A term that is read back has the code of the term that was listed. -/
theorem Encoder.term_settled (short : reading.ShortLocals) (value : Term) (position : Position)
    (slot : Option Slot) :
    Encoder.term reading.around (value.settled reading) position slot =
      Encoder.term reading.around value position slot := by
  match value with
  | .call name arguments multitask =>
    rw [Term.settled, Encoder.term, Encoder.term, Term.length_settledList,
      Encoder.terms_settled short arguments]
  | .number number =>
    rw [Term.settled, Encoder.term, Encoder.term, settledNumber, Encoder.long, Encoder.long,
      Bytes.wrapLittle_littleSigned]
  | .property object name =>
    rw [Term.settled, Encoder.term, Encoder.term]
    exact Encoder.target_settled short (.property object name)
  | .objectCall object name arguments multitask =>
    rw [Term.settled, Encoder.term, Encoder.term, Encoder.objectName_objectText short,
      Term.length_settledList, Encoder.terms_settled short arguments]
  | .flag _ | .localVariable _ | .text _ | .chain .. => rfl

theorem Encoder.terms_settled (short : reading.ShortLocals) (list : List Term)
    (function : String) (index : Nat) :
    Encoder.terms reading.around function index (Term.settledList reading list) =
      Encoder.terms reading.around function index list := by
  match list with
  | [] => rfl
  | first :: rest =>
    rw [Term.settledList, Encoder.terms, Encoder.terms, Encoder.term_settled short first,
      Encoder.terms_settled short rest]

end

/-! ### Formulas and conditions -/

variable (short : reading.ShortLocals)

include short

theorem Encoder.operations_settled (operators : List Operator) (operands : List Term) :
    Encoder.operations reading.around
        (operators.zip (operands.map (Term.settled reading))) =
      Encoder.operations reading.around (operators.zip operands) := by
  induction operators generalizing operands with
  | nil => rfl
  | cons operator operators inductionHypothesis =>
    cases operands with
    | nil => rfl
    | cons operand operands =>
      simp only [List.map_cons, List.zip_cons_cons, Encoder.operations,
        Encoder.term_settled short, inductionHypothesis]

theorem Encoder.formulaTail_settled (formula : Formula) :
    Encoder.formulaTail reading.around (formula.settled reading) =
      Encoder.formulaTail reading.around formula := by
  simp only [Encoder.formulaTail, Formula.settled, Encoder.operations_settled short]

theorem Encoder.formula_settled (formula : Formula) :
    Encoder.formula reading.around (formula.settled reading) =
      Encoder.formula reading.around formula := by
  unfold Encoder.formula
  rw [Encoder.formulaTail_settled short, Formula.settled, Encoder.term_settled short]

theorem Encoder.side_settled (position : Position) (slot : Option Slot) (formula : Formula) :
    Encoder.side reading.around position slot (formula.settled reading) =
      Encoder.side reading.around position slot formula := by
  have carries : Encoder.carriesOperators position (formula.head.settled reading) =
      Encoder.carriesOperators position formula.head := by
    cases formula.head <;> rfl
  have kind : (formula.head.settled reading).kindName = formula.head.kindName := by
    cases formula.head <;> rfl
  unfold Encoder.side
  rw [Encoder.formulaTail_settled short]
  simp only [Formula.settled, carries, kind, Encoder.target_settled short,
    Encoder.term_settled short]

theorem Encoder.clause_settled (clause : Clause) :
    Encoder.clause reading.around (clause.settled reading) =
      Encoder.clause reading.around clause := by
  have compared : Encoder.comparedSlot? (clause.left.head.settled reading) =
      Encoder.comparedSlot? clause.left.head := by
    cases clause.left.head <;> rfl
  unfold Encoder.clause
  simp only [Clause.settled, Encoder.side_settled short]
  simp only [Formula.settled, compared]

/-- A condition that is read back has the code of the condition that was listed. -/
theorem Encoder.clauses_settled (list : List Clause) :
    Encoder.clauses reading.around (list.map (Clause.settled reading)) =
      Encoder.clauses reading.around list := by
  induction list with
  | nil => rfl
  | cons first rest inductionHypothesis =>
    rw [List.map_cons, Encoder.clauses, Encoder.clauses, Encoder.clause_settled short,
      inductionHypothesis]

end Terms

end MapScript
