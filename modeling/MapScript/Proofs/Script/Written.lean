/-
This file says what the terms that come out of text look like. Names are words, objects
are words or numerals, texts hold neither quotes nor line breaks, and formulas have a
term for every operator. What is said of the terms of a script is said of each of them
in its place, because what a number may stand for depends on the place.
-/

import MapScript.Code.Encoding
import MapScript.Proofs.Script.Pieces
import MapScript.Proofs.Script.Shapes
import MapScript.Proofs.Text.Numerals

namespace MapScript

/-! ### Properties of all terms -/

/-- A property of terms in their places. -/
abbrev TermProperty := Term → Position → Option Slot → Prop

mutual

/-- A term in a place and the arguments of the calls in it have a property. -/
def Term.Each (property : TermProperty) : Term → Position → Option Slot → Prop
  | .call name arguments multitask, position, slot =>
    property (.call name arguments multitask) position slot ∧
      Term.EachArgument property name 0 arguments
  | .objectCall object name arguments multitask, position, slot =>
    property (.objectCall object name arguments multitask) position slot ∧
      Term.EachArgument property name 0 arguments
  | .flag name, position, slot => property (.flag name) position slot
  | .localVariable index, position, slot => property (.localVariable index) position slot
  | .number value, position, slot => property (.number value) position slot
  | .text value, position, slot => property (.text value) position slot
  | .property object name, position, slot => property (.property object name) position slot
  | .chain head operators operands step, position, slot =>
    property (.chain head operators operands step) position slot

/-- The arguments of a function, from a place on, have a property. -/
def Term.EachArgument (property : TermProperty) (function : String) (index : Nat) :
    List Term → Prop
  | [] => True
  | first :: rest =>
    first.Each property .parameter (some ⟨function, index⟩) ∧
      Term.EachArgument property function (index + 1) rest

end

/-- The terms of a formula have a property, the first of them in a place. -/
def Formula.Each (property : TermProperty) (position : Position) (slot : Option Slot)
    (formula : Formula) : Prop :=
  formula.head.Each property position slot ∧
    ∀ operand ∈ formula.operands, operand.Each property .formula none

/-- The terms of a clause have a property. -/
def Clause.Each (property : TermProperty) (clause : Clause) : Prop :=
  clause.left.Each property .left none ∧
    clause.right.Each property .right (Encoder.comparedSlot? clause.left.head)

/-- The terms of a statement have a property, its block left out of account. -/
def Statement.EachTerm (property : TermProperty) : Statement → Prop
  | .expression value => value.Each property .statement none
  | .assign target formula =>
    target.Each property .statement none ∧ formula.Each property .formula none
  | .objectStep object reference _ => property (.property object reference) .statement none
  | .branch clauses _ => ∀ clause ∈ clauses, clause.Each property
  | _ => True

section Deciding

variable (property : TermProperty)
  [decide : (value : Term) → (position : Position) → (slot : Option Slot) →
    Decidable (property value position slot)]

mutual

/-- Whether a term and the arguments of the calls in it have a property. -/
def Term.decideEach : (value : Term) → (position : Position) → (slot : Option Slot) →
    Decidable (value.Each property position slot)
  | .call name arguments multitask, position, slot =>
    have := Term.decideEachArgument name 0 arguments
    inferInstanceAs (Decidable (property (.call name arguments multitask) position slot ∧
      Term.EachArgument property name 0 arguments))
  | .objectCall object name arguments multitask, position, slot =>
    have := Term.decideEachArgument name 0 arguments
    inferInstanceAs (Decidable (property (.objectCall object name arguments multitask) position
      slot ∧ Term.EachArgument property name 0 arguments))
  | .flag name, position, slot => decide (.flag name) position slot
  | .localVariable index, position, slot => decide (.localVariable index) position slot
  | .number value, position, slot => decide (.number value) position slot
  | .text value, position, slot => decide (.text value) position slot
  | .property object name, position, slot => decide (.property object name) position slot
  | .chain head operators operands step, position, slot =>
    decide (.chain head operators operands step) position slot

/-- Whether the arguments of a function have a property. -/
def Term.decideEachArgument (function : String) (index : Nat) : (arguments : List Term) →
    Decidable (Term.EachArgument property function index arguments)
  | [] => isTrue trivial
  | first :: rest =>
    have := first.decideEach .parameter (some ⟨function, index⟩)
    have := Term.decideEachArgument function (index + 1) rest
    inferInstanceAs (Decidable (first.Each property .parameter (some ⟨function, index⟩) ∧
      Term.EachArgument property function (index + 1) rest))

end

instance (value : Term) (position : Position) (slot : Option Slot) :
    Decidable (value.Each property position slot) :=
  value.decideEach property position slot

instance (formula : Formula) (position : Position) (slot : Option Slot) :
    Decidable (formula.Each property position slot) :=
  inferInstanceAs (Decidable (_ ∧ _))

instance (clause : Clause) : Decidable (clause.Each property) :=
  inferInstanceAs (Decidable (_ ∧ _))

instance : DecidablePred (Statement.EachTerm property)
  | .expression value => inferInstanceAs (Decidable (value.Each property .statement none))
  | .assign target formula =>
    inferInstanceAs (Decidable (target.Each property .statement none ∧
      formula.Each property .formula none))
  | .objectStep object reference _ => decide (.property object reference) .statement none
  | .branch clauses _ => inferInstanceAs (Decidable (∀ clause ∈ clauses, clause.Each property))
  | .label _ | .returnGuard .. | .jump .. | .word _ | .anchor _ | .taskPause _ | .bare =>
    isTrue trivial

end Deciding

theorem Statement.eachTerm_bodyBlind (property : TermProperty) :
    BodyBlind (Statement.EachTerm property) := by
  intro statement body each
  cases statement <;> exact each

section Properties

variable {one other : TermProperty}

mutual

theorem Term.Each.and {value : Term} {position : Position} {slot : Option Slot}
    (first : value.Each one position slot) (second : value.Each other position slot) :
    value.Each (fun value position slot => one value position slot ∧ other value position slot)
      position slot := by
  match value with
  | .call name arguments multitask =>
    exact ⟨⟨first.1, second.1⟩, Term.EachArgument.and first.2 second.2⟩
  | .objectCall object name arguments multitask =>
    exact ⟨⟨first.1, second.1⟩, Term.EachArgument.and first.2 second.2⟩
  | .flag _ | .localVariable _ | .number _ | .text _ | .property .. | .chain .. =>
    exact ⟨first, second⟩

theorem Term.EachArgument.and {function : String} {index : Nat} {arguments : List Term}
    (first : Term.EachArgument one function index arguments)
    (second : Term.EachArgument other function index arguments) :
    Term.EachArgument
      (fun value position slot => one value position slot ∧ other value position slot)
      function index arguments := by
  match arguments with
  | [] => trivial
  | _ :: _ => exact ⟨Term.Each.and first.1 second.1, Term.EachArgument.and first.2 second.2⟩

end

theorem Formula.Each.and {formula : Formula} {position : Position} {slot : Option Slot}
    (first : formula.Each one position slot) (second : formula.Each other position slot) :
    formula.Each (fun value position slot => one value position slot ∧ other value position slot)
      position slot :=
  ⟨first.1.and second.1, fun operand member => (first.2 operand member).and (second.2 operand member)⟩

theorem Statement.EachTerm.and {statement : Statement} (first : statement.EachTerm one)
    (second : statement.EachTerm other) :
    statement.EachTerm
      (fun value position slot => one value position slot ∧ other value position slot) := by
  cases statement with
  | expression value => exact Term.Each.and first second
  | assign target formula => exact ⟨first.1.and second.1, first.2.and second.2⟩
  | objectStep object reference step => exact ⟨first, second⟩
  | branch clauses body =>
    intro clause member
    exact ⟨(first clause member).1.and (second clause member).1,
      (first clause member).2.and (second clause member).2⟩
  | _ => trivial

end Properties

/-- A property of terms that does not depend on their places. -/
def Term.Anywhere (property : Term → Prop) : TermProperty := fun value _ _ => property value

/-! ### Terms that come out of text -/

/-- The text of an object: a word or a numeral. -/
def IsObject (written : List Char) : Prop :=
  Piece.IsWord written ∨ Piece.IsNumeral written

/-- What holds of a term that comes out of text, its arguments left out of account. -/
def Term.Written : Term → Prop
  | .call name _ _ => Piece.IsWord name.toList
  | .flag name => Piece.IsWord name.toList ∧ Reader.variableDigits? name.toList = none
  | .localVariable index => ∃ number : Nat, index = number ∧ number < Text.numeralLimit
  | .number _ => True
  | .text value => '"' ∉ value.toList ∧ ∀ c ∈ value.toList, Text.isLineBreak c = false
  | .property object name => IsObject object.toList ∧ Piece.IsWord name.toList
  | .objectCall object name _ _ => IsObject object.toList ∧ Piece.IsWord name.toList
  | .chain .. => False

/-- The references that a term names are known. -/
def Term.Known (symbols : Symbols) : Term → Prop
  | .property _ name => name ∈ symbols.references
  | _ => True

/-- A number does not stand where a dialogue label is meant. -/
def Term.OffDialogue (symbols : Symbols) : TermProperty
  | .number _, position, slot => Encoder.slotKind ⟨symbols, none⟩ position slot ≠ some .dialogue
  | _, _, _ => True

instance (symbols : Symbols) : (value : Term) → (position : Position) → (slot : Option Slot) →
    Decidable (value.OffDialogue symbols position slot)
  | .number _, position, slot =>
    inferInstanceAs (Decidable (Encoder.slotKind ⟨symbols, none⟩ position slot ≠ some .dialogue))
  | .call .., _, _ | .flag _, _, _ | .localVariable _, _, _ | .text _, _, _ | .property .., _, _
  | .objectCall .., _, _ | .chain .., _, _ => isTrue trivial

/-- A term that a listing writes as it was meant. -/
def Term.Spelled (symbols : Symbols) : TermProperty := fun value position slot =>
  value.Written ∧ value.Known symbols ∧ value.OffDialogue symbols position slot

/-! ### Statements that come out of text -/

/-- Whether a word starts a statement of its own. -/
def isReservedWord (word : String) : Bool :=
  word == "if" || (JumpKind.ofText? word).isSome || (WordKind.ofText? word).isSome

theorem isReservedWord_cases {word : String} (reserved : isReservedWord word = true) :
    word ∈ ["if", "Goto", "End", "Gosub", "Return", "Endint"] := by
  simp only [isReservedWord, JumpKind.ofText?, WordKind.ofText?, Bool.or_eq_true, beq_iff_eq]
    at reserved
  simp only [List.mem_cons, List.not_mem_nil, or_false]
  grind

/-- A numeral is no word of the language. -/
theorem isReservedWord_numeral {numeral : String} (isNumeral : Piece.IsNumeral numeral.toList) :
    isReservedWord numeral = false := by
  refine Bool.eq_false_iff.mpr fun reserved => ?_
  have none : ∀ word ∈ ["if", "Goto", "End", "Gosub", "Return", "Endint"],
      word.toList.any Text.isDigit = false := by decide
  obtain ⟨digits, form, filled, all⟩ := isNumeral
  obtain ⟨c, rest, rfl⟩ := List.exists_cons_of_ne_nil filled
  have digit := List.all_eq_true.mp all c List.mem_cons_self
  have inside : c ∈ numeral.toList := by
    rcases form with same | same
    · exact same ▸ List.mem_cons_self
    · exact same ▸ List.mem_cons_of_mem _ List.mem_cons_self
  exact List.any_eq_false.mp (none _ (isReservedWord_cases reserved)) c inside digit

/-- The word that a term starts with where that could be mistaken for another
statement. -/
def Term.lead? : Term → Option String
  | .flag name => some name
  | .property object _ => some object
  | .objectCall object .. => some object
  | _ => none

/-- Every operator of a formula has a term. -/
def Formula.Paired (formula : Formula) : Prop :=
  formula.operators.length = formula.operands.length

/-- What holds of a statement that comes out of text, its terms and its block left out of
account. -/
def Statement.Written : Statement → Prop
  | .expression value => ∀ word ∈ value.lead?, isReservedWord word = false
  | .assign target formula =>
    (∀ word ∈ target.lead?, isReservedWord word = false) ∧ formula.Paired
  | .objectStep object _ _ => isReservedWord object = false
  | .branch clauses _ => ∀ clause ∈ clauses, clause.left.Paired ∧ clause.right.Paired
  | .returnGuard value _ => -0x80000000 ≤ value ∧ value < 0x100000000
  | .anchor value => -0x80000000 ≤ value ∧ value < 0x100000000
  | _ => True

theorem Statement.written_bodyBlind : BodyBlind Statement.Written := by
  intro statement body written
  cases statement <;> exact written

end MapScript
