/-
This file prints statements as scripts write them, and proves that the text of a statement
is cut into the tokens of its pieces. Unlike a listing, printing looks nothing up: names
and numbers are written as they are. Nothing is cleaned before the cutting, either, so the
blanks of the text are passed over here, and a step stands right behind its term. A word or
a numeral ends where a character follows that can go on with neither; all other pieces end
by themselves.
-/

import MapScript.Proofs.Script.Spelling

namespace MapScript

/-! ### Printing -/

mutual

/-- The pieces of a term. -/
def Term.parts : Term → List Piece
  | .call name arguments multitask => callPieces multitask name (Term.argumentParts arguments)
  | .flag name => [.word name.toList]
  | .localVariable index => [.word ("var".toList ++ Text.integer index)]
  | .number value => [.numeral (Text.integer value)]
  | .text written => [.quoted written.toList]
  | .property object name => [.ofObject object, .dot, .word name.toList]
  | .objectCall object name arguments multitask =>
    .ofObject object :: .dot :: callPieces multitask name (Term.argumentParts arguments)
  | .chain head operators operands step =>
    head.parts ++ Term.operationParts operators operands ++ step.toList.map Piece.step

/-- The pieces of the arguments of a call. -/
def Term.argumentParts : List Term → List Piece
  | [] => []
  | first :: others => first.parts ++ Term.furtherParts others

/-- The pieces of the arguments behind the first one. -/
def Term.furtherParts : List Term → List Piece
  | [] => []
  | next :: others => .comma :: next.parts ++ Term.furtherParts others

/-- The pieces of operators and their terms. -/
def Term.operationParts : List Operator → List Term → List Piece
  | operator :: operators, operand :: operands =>
    .operator operator.text.toList :: operand.parts ++ Term.operationParts operators operands
  | _, _ => []

end

/-- The pieces of a formula. -/
def Formula.parts (formula : Formula) : List Piece :=
  (Term.chain formula.head formula.operators formula.operands formula.step).parts

/-- The pieces of the clauses of a condition. -/
def clauseParts : List Clause → List Piece
  | [] => []
  | first :: others =>
    first.left.parts ++ .operator first.comparison.text.toList :: first.right.parts ++
      conjunctionPieces first.conjunction ++ clauseParts others

/-- The pieces of a statement, its block left out. -/
def Statement.parts : Statement → List Piece
  | .label goal => [.definition (Text.hexInteger 2 goal)]
  | .expression value => value.parts
  | .assign target formula => target.parts ++ .operator "=".toList :: formula.parts
  | .objectStep object reference step =>
    [.ofObject object, .dot, .word reference.toList, .step step]
  | .branch clauses _ => .word "if".toList :: .gap :: clauseParts clauses
  | .returnGuard value _ =>
    [.word "if".toList, .gap, .bracketed "ScriptRv".toList, .operator "=".toList,
      .numeral (Text.integer value)]
  | .jump kind none => [.word kind.text.toList]
  | .jump kind (some goal) =>
    [.word kind.text.toList, .gap, .label (Text.hexInteger 2 goal)]
  | .word kind => [.word kind.text.toList]
  | .anchor value => [.bracketed "Anchor".toList, .equals, .numeral (Text.integer value)]
  | .taskPause goal => [.bracketed ("TaskPause(#".toList ++ Text.hexInteger 2 goal ++ [')'])]
  | .bare => []

/-- The line of a statement. -/
def Statement.print (statement : Statement) : List Char :=
  Piece.line Piece.raw statement.parts

/-! ### What can be printed -/

instance (written : List Char) : Decidable (Piece.IsWord written) :=
  inferInstanceAs (Decidable (_ ∧ _))

/-- A number that fits 32 bits, signed or not. -/
def IsShort (value : Int) : Prop := -0x80000000 ≤ value ∧ value < 0x100000000

mutual

/-- A term whose names are words and whose numbers fit, and that holds no formula. -/
def Term.Printable : Term → Prop
  | .call name arguments _ => Piece.IsWord name.toList ∧ Term.ArgumentsPrintable arguments
  | .flag name => Piece.IsWord name.toList ∧ Reader.variableDigits? name.toList = none
  | .localVariable index => ∃ number : Nat, index = number ∧ number < Text.numeralLimit
  | .number value => IsShort value
  | .text written => '"' ∉ written.toList
  | .property object name => IsObject object.toList ∧ Piece.IsWord name.toList
  | .objectCall object name arguments _ =>
    (IsObject object.toList ∧ Piece.IsWord name.toList) ∧ Term.ArgumentsPrintable arguments
  | .chain .. => False

/-- Arguments that can be printed. -/
def Term.ArgumentsPrintable : List Term → Prop
  | [] => True
  | first :: others => first.Printable ∧ Term.ArgumentsPrintable others

end

/-- A formula of terms that can be printed, one more than it has operators. -/
structure Formula.Printable (formula : Formula) : Prop where
  head : formula.head.Printable
  operands : ∀ operand ∈ formula.operands, operand.Printable
  paired : formula.Paired

/-- A statement that a line can stand for: its terms can be printed, clauses are joined by words,
a statement that is a term is a call or a literal, what is assigned to can be assigned to, and a
subroutine call has a label. -/
def Statement.Printable : Statement → Prop
  | .label goal => 0 ≤ goal
  | .expression value => Reader.standsAlone value = true ∧ value.Printable
  | .assign target formula =>
    Reader.isTarget target = true ∧ target.Printable ∧ formula.Printable
  | .objectStep object reference _ => (Term.property object reference).Printable
  | .branch clauses _ =>
    Joined clauses ∧ ∀ clause ∈ clauses, clause.left.Printable ∧ clause.right.Printable
  | .returnGuard value _ => IsShort value
  | .jump kind goal => (kind = .gosub → goal ≠ none) ∧ ∀ label ∈ goal, 0 ≤ label
  | .word _ => True
  | .anchor value => IsShort value
  | .taskPause goal => 0 ≤ goal
  | .bare => False

/-! ### Cutting -/

namespace Piece

/-- A text that does not go on with a word or a numeral. -/
def Breaks (rest : List Char) : Prop :=
  ∀ c ∈ rest.head?, Text.isNameChar c = false ∧ Text.isDigit c = false

/-- Before a text of a kind, pieces are cut into their tokens. -/
def Cuts (before : List Char → Prop) (pieces : List Piece) : Prop :=
  ∀ rest, before rest → Token.cutFrom (line raw pieces ++ rest) 0 =
    (pieces.flatMap tokens ++ ·) <$> Token.cutFrom rest 0

/-- Any text. -/
abbrev anything : List Char → Prop := fun _ => True

namespace Cuts

variable {before between : List Char → Prop} {front back : List Piece}

theorem nil : Cuts before [] := fun _ _ => (id_map _).symm

theorem append (first : Cuts between front) (second : Cuts before back)
    (fits : ∀ rest, before rest → between (line raw back ++ rest)) :
    Cuts before (front ++ back) := by
  intro rest ready
  rw [line_append, List.append_assoc, first _ (fits rest ready), second rest ready, ← comp_map]
  refine congrArg (· <$> _) (funext fun tokens => ?_)
  rw [Function.comp_apply, List.flatMap_append, List.append_assoc]

/-- Pieces that end by themselves, before others. -/
theorem append_any (first : Cuts anything front) (second : Cuts before back) :
    Cuts before (front ++ back) :=
  first.append second fun _ _ => trivial

theorem weaken (cuts : Cuts anything front) : Cuts before front := fun rest _ => cuts rest trivial

/-- A piece that is one token. -/
theorem of_munch {piece : Piece} {kind : TokenKind} (filled : piece.raw ≠ [])
    (token : piece.tokens = [⟨kind, String.ofList piece.raw⟩])
    (fits : ∀ rest, before rest →
      Token.munch? (piece.raw ++ rest) = some (kind, piece.raw.length)) :
    Cuts before [piece] := by
  intro rest ready
  have taken := Token.cutFrom_munch filled (fits rest ready)
  rw [line_cons, line_nil, List.append_nil, taken, List.flatMap_cons, List.flatMap_nil,
    List.append_nil, token]
  rfl

end Cuts

/-- Marks of punctuation are no part of a word or a numeral. -/
theorem breaks_cons {c : Char} (other : Text.isNameChar c = false ∧ Text.isDigit c = false)
    (rest : List Char) : Breaks (c :: rest) := by
  intro first same
  cases same
  exact other

theorem breaks_nil : Breaks [] := fun _ none => by cases none

/-- No symbols at all. -/
def noSymbols : Symbols := ⟨[], [], [], [], [], .empty, .empty, .empty⟩

theorem cuts_word {written : List Char} (sound : (word written).Sound noSymbols) :
    Cuts Breaks [.word written] := by
  obtain ⟨c, others, rfl, -⟩ := word_head sound
  exact .of_munch (List.cons_ne_nil _ _) rfl fun rest stops =>
    Token.munch?_word sound fun c first => (stops c first).1

theorem cuts_numeral {written : List Char} (numeral : IsNumeral written) :
    Cuts Breaks [.numeral written] := by
  obtain ⟨c, others, rfl, -⟩ := numeral_head numeral
  exact .of_munch (List.cons_ne_nil _ _) rfl fun rest => Token.munch?_numeral numeral

theorem cuts_quoted {inside : List Char} (absent : '"' ∉ inside) :
    Cuts anything [.quoted inside] :=
  .of_munch (List.cons_ne_nil _ _) rfl fun rest _ => Token.munch?_quoted absent rest

theorem cuts_opening : Cuts anything [.opening] :=
  .of_munch (List.cons_ne_nil _ _) rfl fun rest _ => Token.munch?_opening rest

theorem cuts_closing : Cuts anything [.closing] :=
  .of_munch (List.cons_ne_nil _ _) rfl fun rest _ => Token.munch?_closing rest

theorem cuts_dot : Cuts anything [.dot] :=
  .of_munch (List.cons_ne_nil _ _) rfl fun rest _ => Token.munch?_dot rest

theorem cuts_equals : Cuts anything [.equals] :=
  .of_munch (List.cons_ne_nil _ _) rfl fun rest _ => Token.munch?_equals rest

theorem cuts_step (change : Step) : Cuts anything [.step change] := by
  cases change with
  | increment => exact .of_munch (List.cons_ne_nil _ _) rfl fun rest _ => Token.munch?_step _ rest
  | decrement => exact .of_munch (List.cons_ne_nil _ _) rfl fun rest _ => Token.munch?_step _ rest

theorem cuts_gap : Cuts anything [.gap] := fun rest _ =>
  (Token.cutFrom_gap rest).trans (id_map _).symm

/-- The blank behind a comma is passed over. -/
theorem cuts_comma : Cuts anything [.comma] := by
  intro rest _
  have taken := Token.cutFrom_munch (List.cons_ne_nil ',' []) (Token.munch?_comma (' ' :: rest))
  exact taken.trans (congrArg _ (Token.cutFrom_gap rest))

/-- The blanks around an operator are passed over. -/
theorem cuts_operator {written : List Char} (mark : written ∈ operatorMarks) :
    Cuts anything [.operator written] := by
  intro rest _
  have filled : ∀ mark ∈ operatorMarks, mark ≠ [] := by decide
  have taken := Token.cutFrom_munch (filled written mark) (Token.munch?_operator mark rest)
  rw [Token.cutFrom_gap] at taken
  show Token.cutFrom (' ' :: written ++ [' '] ++ [] ++ rest) 0 = _
  rw [List.append_nil, List.append_assoc, List.cons_append, Token.cutFrom_gap]
  exact taken

theorem cuts_label {digits : List Char} (sound : (label digits).Sound noSymbols) :
    Cuts (· = []) [.label digits] := by
  refine .of_munch (List.cons_ne_nil _ _) rfl fun rest ended => ?_
  subst ended
  exact Token.munch?_label sound.1 sound.2 fun c none => by cases none

theorem cuts_definition {digits : List Char} (sound : (definition digits).Sound noSymbols) :
    Cuts anything [.definition digits] :=
  .of_munch (List.cons_ne_nil _ _) rfl fun rest _ => Token.munch?_definition sound.1 sound.2 rest

theorem cuts_bracketed {name : List Char} (sound : (bracketed name).Sound noSymbols) :
    Cuts anything [.bracketed name] :=
  .of_munch (List.cons_ne_nil _ _) rfl fun rest _ => Token.munch?_bracketed sound rest

theorem cuts_ofObject {written : String} (isObject : IsObject written.toList) :
    Cuts Breaks [.ofObject written] := by
  rcases ofObject_cases isObject with ⟨same, isNumeral⟩ | ⟨same, isWord⟩
  · rw [same]
    exact cuts_numeral isNumeral
  · rw [same]
    exact cuts_word (Or.inl isWord)

/-- Whether pieces start with something that is no part of a word or a numeral. -/
def startsApart : List Piece → Bool
  | [] | opening :: _ | closing :: _ | comma :: _ | dot :: _ | gap :: _ | operator _ :: _
  | step _ :: _ => true
  | _ => false

theorem breaks_line {pieces : List Piece} (apart : startsApart pieces = true) {rest : List Char}
    (breaks : Breaks rest) : Breaks (line raw pieces ++ rest) := by
  match pieces with
  | [] => exact breaks
  | opening :: _ | closing :: _ | comma :: _ | dot :: _ | gap :: _ | operator _ :: _ =>
    exact breaks_cons (by decide) _
  | step .increment :: _ | step .decrement :: _ => exact breaks_cons (by decide) _

/-- Pieces one after the other, where the second ones do not go on with a word or a numeral. -/
theorem Cuts.append_apart {front back : List Piece} (first : Cuts Breaks front)
    (second : Cuts Breaks back) (apart : startsApart back = true) : Cuts Breaks (front ++ back) :=
  first.append second fun _ => breaks_line apart

theorem sound_calledName {name : String} (isWord : IsWord name.toList) (multitask : Bool) :
    (word ((if multitask then "@" else "") ++ name).toList).Sound noSymbols := by
  cases multitask with
  | true => exact Or.inr ⟨name.toList, String.toList_append, isWord⟩
  | false =>
    rw [if_neg Bool.false_ne_true, String.empty_append]
    exact Or.inl isWord

theorem cuts_call {name : String} {arguments : List Piece} (isWord : IsWord name.toList)
    (inside : Cuts Breaks arguments) (multitask : Bool) :
    Cuts Breaks (callPieces multitask name arguments) := by
  have closed : Cuts Breaks (arguments ++ [.closing]) :=
    inside.append_apart cuts_closing.weaken rfl
  exact (cuts_word (sound_calledName isWord multitask)).append_apart
    (cuts_opening.append_any closed) rfl

end Piece

open Piece

theorem Term.apart_furtherParts (arguments : List Term) :
    startsApart (Term.furtherParts arguments) = true := by
  cases arguments <;> rfl

mutual

/-- The text of a term is cut into the tokens of its pieces. -/
theorem Term.cuts_parts (value : Term) (printable : value.Printable) :
    Cuts Breaks value.parts := by
  match value with
  | .call name arguments multitask =>
    exact cuts_call printable.1 (Term.cuts_argumentParts arguments printable.2) multitask
  | .flag name => exact cuts_word (Or.inl printable.1)
  | .localVariable index =>
    obtain ⟨number, rfl, -⟩ := printable
    have isWord := isWord_variable number
    rw [toList_variable] at isWord
    exact cuts_word (Or.inl isWord)
  | .number value => exact cuts_numeral (isNumeral_integer value)
  | .text written => exact (cuts_quoted printable).weaken
  | .property object name =>
    exact (cuts_ofObject printable.1).append_apart
      (cuts_dot.append_any (cuts_word (Or.inl printable.2))) rfl
  | .objectCall object name arguments multitask =>
    have called := cuts_call printable.1.2 (Term.cuts_argumentParts arguments printable.2) multitask
    exact (cuts_ofObject printable.1.1).append_apart (cuts_dot.append_any called) rfl
  | .chain head operators operands change => exact printable.elim

theorem Term.cuts_argumentParts (arguments : List Term)
    (printable : Term.ArgumentsPrintable arguments) :
    Cuts Breaks (Term.argumentParts arguments) := by
  match arguments with
  | [] => exact .nil
  | first :: others =>
    exact (Term.cuts_parts first printable.1).append_apart
      (Term.cuts_furtherParts others printable.2) (Term.apart_furtherParts others)

theorem Term.cuts_furtherParts (arguments : List Term)
    (printable : Term.ArgumentsPrintable arguments) :
    Cuts Breaks (Term.furtherParts arguments) := by
  match arguments with
  | [] => exact .nil
  | next :: others =>
    exact cuts_comma.append_any ((Term.cuts_parts next printable.1).append_apart
      (Term.cuts_furtherParts others printable.2) (Term.apart_furtherParts others))

end

theorem Term.cuts_operationParts {operators : List Operator} {operands : List Term}
    (printable : ∀ operand ∈ operands, operand.Printable) :
    Cuts Breaks (Term.operationParts operators operands) ∧
      startsApart (Term.operationParts operators operands) = true := by
  induction operands generalizing operators with
  | nil => cases operators <;> exact ⟨.nil, rfl⟩
  | cons operand operands inductionHypothesis =>
    cases operators with
    | nil => exact ⟨.nil, rfl⟩
    | cons operator operators =>
      obtain ⟨cuts, apart⟩ := @inductionHypothesis operators
        fun other member => printable other (List.mem_cons_of_mem _ member)
      have here := Term.cuts_parts operand (printable operand List.mem_cons_self)
      have mark : operator.text.toList ∈ operatorMarks := sound_operator noSymbols operator
      exact ⟨(cuts_operator mark).append_any (here.append_apart cuts apart), rfl⟩

theorem Formula.cuts_parts {formula : Formula} (printable : formula.Printable) :
    Cuts Breaks formula.parts := by
  obtain ⟨operations, apart⟩ :=
    @Term.cuts_operationParts formula.operators formula.operands printable.operands
  have head := (Term.cuts_parts formula.head printable.head).append_apart operations apart
  unfold Formula.parts Term.parts
  cases formula.step with
  | none => exact head.append_apart .nil rfl
  | some change => exact head.append_apart (cuts_step change).weaken rfl

/-- A word that joins clauses has blanks around it. -/
theorem cuts_conjunction (conjunction : Conjunction) {front : List Piece}
    (cuts : Cuts Breaks front) :
    Cuts anything (front ++ conjunctionPieces (some conjunction)) := by
  have isWord : IsWord conjunction.text.toList := by cases conjunction <;> decide
  have gap (rest : List Char) : Breaks (line raw [.gap] ++ rest) := breaks_cons (by decide) _
  have joining : Cuts anything ([.gap] ++ ([.word conjunction.text.toList] ++ [.gap])) :=
    cuts_gap.append_any ((cuts_word (Or.inl isWord)).append cuts_gap fun rest _ => gap rest)
  exact cuts.append joining fun _ _ => breaks_cons (by decide) _

theorem cuts_clauseParts {clauses : List Clause} (joined : Joined clauses)
    (printable : ∀ clause ∈ clauses, clause.left.Printable ∧ clause.right.Printable) :
    Cuts Breaks (clauseParts clauses) := by
  induction clauses with
  | nil => exact joined.elim
  | cons first others inductionHypothesis =>
    obtain ⟨left, right⟩ := printable first List.mem_cons_self
    have mark : first.comparison.text.toList ∈ operatorMarks :=
      sound_comparison noSymbols first.comparison
    have sides : Cuts Breaks (first.left.parts ++
        .operator first.comparison.text.toList :: first.right.parts) :=
      (Formula.cuts_parts left).append_apart
        ((cuts_operator mark).append_any (Formula.cuts_parts right)) rfl
    cases others with
    | nil =>
      have last : first.conjunction = none := joined
      rw [clauseParts, last]
      exact (sides.append_apart .nil rfl).append_apart .nil rfl
    | cons second others =>
      obtain ⟨word, joins⟩ := Option.isSome_iff_exists.mp joined.1
      rw [clauseParts, joins]
      exact (cuts_conjunction word sides).append_any (inductionHypothesis joined.2
        fun clause member => printable clause (List.mem_cons_of_mem _ member))

theorem sound_hexInteger {goal : Int} (natural : 0 ≤ goal) :
    Text.hexInteger 2 goal ≠ [] ∧ (Text.hexInteger 2 goal).all Text.isHexDigit = true := by
  obtain ⟨address, rfl⟩ := Int.eq_ofNat_of_zero_le natural
  exact sound_label noSymbols address

theorem cuts_keyword {word : List Char} (isWord : IsWord word) {back : List Piece}
    {before : List Char → Prop} (cuts : Cuts before back) :
    Cuts before ([.word word] ++ ([.gap] ++ back)) :=
  (cuts_word (Or.inl isWord)).append (cuts_gap.append_any cuts)
    fun _ _ => breaks_cons (by decide) _

theorem Statement.cuts_parts {statement : Statement} (printable : statement.Printable) :
    Cuts (· = []) statement.parts := by
  have ended {pieces : List Piece} (cuts : Cuts Breaks pieces) : Cuts (· = []) pieces :=
    fun rest none => cuts rest (none ▸ breaks_nil)
  have isIf : IsWord "if".toList := by decide
  have equals : Cuts anything [.operator "=".toList] := cuts_operator (by decide)
  cases statement with
  | label goal => exact (cuts_definition (sound_hexInteger printable)).weaken
  | expression value => exact ended (Term.cuts_parts value printable.2)
  | assign target formula =>
    exact ended ((Term.cuts_parts target printable.2.1).append_apart
      (equals.append_any (Formula.cuts_parts printable.2.2)) rfl)
  | objectStep object reference change =>
    have property := Term.cuts_parts (.property object reference) printable
    exact ended (property.append_apart (cuts_step change).weaken rfl)
  | branch clauses body =>
    exact ended (cuts_keyword isIf (cuts_clauseParts printable.1 printable.2))
  | returnGuard value body =>
    have mark : Cuts anything [.bracketed "ScriptRv".toList] :=
      cuts_bracketed (Or.inr (Or.inl rfl))
    exact ended (cuts_keyword isIf
      (mark.append_any (equals.append_any (cuts_numeral (isNumeral_integer value)))))
  | jump kind goal =>
    have isWord : IsWord kind.text.toList := by cases kind <;> decide
    cases goal with
    | none => exact ended (cuts_word (Or.inl isWord))
    | some goal =>
      exact cuts_keyword isWord (cuts_label (sound_hexInteger (printable.2 goal rfl)))
  | word kind =>
    have isWord : IsWord kind.text.toList := by cases kind <;> decide
    exact ended (cuts_word (Or.inl isWord))
  | anchor value =>
    have mark : Cuts anything [.bracketed "Anchor".toList] := cuts_bracketed (Or.inl rfl)
    exact ended (mark.append_any (cuts_equals.append_any (cuts_numeral (isNumeral_integer value))))
  | taskPause goal =>
    obtain ⟨filled, all⟩ := sound_hexInteger printable
    exact (cuts_bracketed (Or.inr (Or.inr ⟨_, filled, all, rfl⟩))).weaken
  | bare => exact printable.elim

/-- The text of a statement is cut into the tokens of its pieces. -/
theorem Statement.cut_print {statement : Statement} (printable : statement.Printable) :
    Token.cut statement.print = .ok (statement.parts.flatMap Piece.tokens) := by
  have cut := Statement.cuts_parts printable [] rfl
  rw [List.append_nil] at cut
  exact cut.trans (congrArg Except.ok (List.append_nil _))

end MapScript
