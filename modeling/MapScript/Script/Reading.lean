/-
This file reads statements from the tokens of one line. Reading goes from left to
right and never looks back; calls nest, so the reading of terms is bounded by the
number of tokens that are left, of which each step takes at least one. Where the
bound is used up no token is left either, and what is reported is what a missing
token would be.
-/

import MapScript.Script.Syntax
import MapScript.Script.Token
import MapScript.Text.Numeral

namespace MapScript

/-- Reading from a list of tokens. -/
abbrev Reader := StateT (List Token) (Except Fault)

namespace Reader

/-! ### Single tokens -/

/-- Fails because the tokens do not fit. -/
def reject {α : Type} (fault : ScriptFault) : Reader α :=
  throw (.of (.script fault))

/-- The next token, left in place. -/
def peek? : Reader (Option Token) := do
  let tokens ← get
  pure tokens.head?

/-- Whether the next token is of a kind. -/
def nextIs (kind : TokenKind) : Reader Bool := do
  match ← peek? with
  | some token => pure (token.kind == kind)
  | none => pure false

/-- Passes the next token over. -/
def advance : Reader Unit :=
  modify (List.drop 1)

/-- Whether all tokens are read. -/
def atEnd : Reader Bool := do
  let tokens ← get
  pure tokens.isEmpty

/-- Asks that all tokens are read. -/
def expectEnd : Reader Unit := do
  match ← peek? with
  | some token => reject (.unexpected token.text)
  | none => pure ()

/-- Takes a token of a kind. -/
def expect (kind : TokenKind) : Reader Token := do
  match ← peek? with
  | none => reject (.endOfLine kind.word)
  | some token =>
    if token.kind = kind then
      advance
      pure token
    else reject (.mismatch kind.word token.text)

/-- Takes the equals sign. -/
def expectEquals : Reader Unit := do
  match ← peek? with
  | none => reject (.endOfLine "=")
  | some token =>
    if token.kind = .operator ∧ token.text = "=" then advance
    else reject (.mismatch "=" token.text)

/-! ### Numbers and labels -/

/-- The number that a numeral stands for. It has to fit 32 bits, signed or
not. -/
def numberOf (numeral : String) : Except Fault Int :=
  match Text.readInteger? numeral.toList with
  | none => fail (.notANumber numeral)
  | some value =>
    if -0x80000000 ≤ value ∧ value < 0x100000000 then .ok value
    else MapScript.reject (.numberRange numeral)

/-- The number of the label in a token. -/
def labelOf (token : Token) : Int :=
  Text.hexDigitsValue
    (((token.text.toList.dropWhile (· != '#')).drop 1).takeWhile Text.isHexDigit)

/-- Takes a number. -/
def number : Reader Int := do
  let token ← expect .number
  numberOf token.text

/-! ### Terms -/

/-- Whether a name asks for a call, by an at sign in front. -/
def isMultitask (name : String) : Bool :=
  name.toList.head? == some '@'

/-- A name without the at signs in front. -/
def plainName (name : String) : String :=
  String.ofList (name.toList.dropWhile (· == '@'))

/-- The index of a local variable that a name stands for, if it is `var` and
digits: the digits. -/
def variableDigits? (name : List Char) : Option (List Char) :=
  match name with
  | 'v' :: 'a' :: 'r' :: digits =>
    if !digits.isEmpty && digits.all Text.isDigit then some digits else none
  | _ => none

/-- A name on its own: a local variable or a flag. -/
def nameTerm (name : String) : Except Fault Term :=
  match variableDigits? name.toList with
  | some digits =>
    match Text.readNatural? digits with
    | some index => .ok (.localVariable index)
    | none => fail (.notANumber (String.ofList digits))
  | none => .ok (.flag name)

/-- The arguments of a call in their parentheses, given how to read arguments. -/
def parenthesized (arguments : Reader (List Term)) : Reader (List Term) := do
  discard (expect .leftParenthesis)
  if ← nextIs .rightParenthesis then
    advance
    pure []
  else
    let terms ← arguments
    discard (expect .rightParenthesis)
    pure terms

/-- What follows the name of an object: a call, or a property. -/
def objectTerm (object : String) (arguments : Reader (List Term)) : Reader Term := do
  discard (expect .dot)
  let token ← expect .name
  if ← nextIs .leftParenthesis then
    let terms ← parenthesized arguments
    pure (.objectCall object (plainName token.text) terms (isMultitask token.text))
  else if isMultitask token.text then reject (.callExpected token.text)
  else pure (.property object token.text)

/-- A term that starts with a name. -/
def namedTerm (name : String) (arguments : Reader (List Term)) : Reader Term := do
  if ← nextIs .leftParenthesis then
    let terms ← parenthesized arguments
    pure (.call (plainName name) terms (isMultitask name))
  else if isMultitask name then reject (.callExpected name)
  else if ← nextIs .dot then objectTerm name arguments
  else nameTerm name

/-- A term that starts with a number. -/
def numeralTerm (numeral : String) (arguments : Reader (List Term)) : Reader Term := do
  if ← nextIs .dot then objectTerm numeral arguments
  else
    let value ← numberOf numeral
    pure (.number value)

/-- A term, given how to read the arguments of calls. -/
def termWith (arguments : Reader (List Term)) : Reader Term := do
  match ← peek? with
  | none => reject (.valueExpected none)
  | some token =>
    match token.kind with
    | .string =>
      advance
      pure (.text (String.ofList ((token.text.toList.drop 1).dropLast)))
    | .number =>
      advance
      numeralTerm token.text arguments
    | .name =>
      advance
      namedTerm token.text arguments
    | _ => reject (.valueExpected (some token.text))

mutual

/-- Reads a term. -/
def term : (bound : Nat) → Reader Term
  | 0 => reject (.valueExpected none)
  | bound + 1 => termWith (arguments bound)

/-- Reads terms with commas between them. -/
def arguments : (bound : Nat) → Reader (List Term)
  | 0 => reject (.valueExpected none)
  | bound + 1 => do
    let first ← term bound
    if ← nextIs .comma then
      advance
      let rest ← arguments bound
      pure (first :: rest)
    else pure [first]

end

/-! ### Formulas -/

/-- Reads what follows the first term of a formula: operators, each with a term,
and perhaps a step. -/
def formulaTail : (bound : Nat) → Reader (List (Operator × Term) × Option Step)
  | 0 => pure ([], none)
  | bound + 1 => do
    match ← peek? with
    | none => pure ([], none)
    | some token =>
      if token.kind = .operator then
        match Step.ofText? token.text, Operator.ofText? token.text with
        | some step, _ =>
          advance
          pure ([], some step)
        | none, some operator =>
          advance
          let operand ← term bound
          let (rest, step) ← formulaTail bound
          pure ((operator, operand) :: rest, step)
        | none, none => pure ([], none)
      else pure ([], none)

/-- Reads a formula. -/
def formula (bound : Nat) : Reader Formula := do
  let head ← term bound
  let (pairs, step) ← formulaTail bound
  pure ⟨head, pairs.map Prod.fst, pairs.map Prod.snd, step⟩

/-! ### Conditions -/

/-- Takes a comparison. -/
def comparison : Reader Comparison := do
  let token ← expect .operator
  match Comparison.ofText? token.text with
  | some comparison => pure comparison
  | none => reject (.comparison token.text)

/-- Takes a conjunction. -/
def conjunction : Reader Conjunction := do
  let token ← expect .name
  match Conjunction.ofText? token.text with
  | some conjunction => pure conjunction
  | none => reject (.conjunction token.text)

/-- Reads the clauses of a condition up to the end of the line. -/
def clauses : (bound : Nat) → Reader (List Clause)
  | 0 => reject (.valueExpected none)
  | bound + 1 => do
    let left ← formula (bound + 1)
    let comparison ← comparison
    let right ← formula (bound + 1)
    if ← atEnd then pure [⟨left, comparison, right, none⟩]
    else
      let conjunction ← conjunction
      let rest ← clauses bound
      pure (⟨left, comparison, right, some conjunction⟩ :: rest)

/-! ### Statements -/

/-- Reads a condition: a guard on the returned value, or clauses. The body is read
from other lines. -/
def condition (bound : Nat) : Reader Statement := do
  match ← peek? with
  | some ⟨.keyword, "<ScriptRv>"⟩ =>
    advance
    expectEquals
    let value ← number
    expectEnd
    pure (.returnGuard value .nil)
  | _ =>
    let clauses ← clauses bound
    pure (.branch clauses .nil)

/-- Reads the label of a jump, which only a subroutine call has to have. -/
def jump (kind : JumpKind) : Reader Statement := do
  if ← atEnd then
    if kind = .gosub then reject .gosubLabel else pure (.jump kind none)
  else
    let token ← expect .label
    expectEnd
    pure (.jump kind (some (labelOf token)))

/-- Whether a term is a statement on its own. -/
def standsAlone : Term → Bool
  | .call .. | .objectCall .. | .number _ | .text _ => true
  | _ => false

/-- Whether a term can be assigned to. -/
def isTarget : Term → Bool
  | .flag _ | .localVariable _ | .property .. => true
  | _ => false

/-- Reads what follows the first term of a statement. -/
def statementTail (bound : Nat) (target : Term) : Reader Statement := do
  if ← atEnd then
    if standsAlone target then pure (.expression target) else reject .assignmentExpected
  else
    let token ← expect .operator
    match Step.ofText? token.text, target with
    | some step, .property object reference =>
      expectEnd
      pure (.objectStep object reference step)
    | _, _ =>
      if token.text = "=" && isTarget target then
        let formula ← formula bound
        expectEnd
        pure (.assign target formula)
      else reject (.unexpected token.text)

/-- Reads a statement that starts with a term. -/
def termStatement (bound : Nat) : Reader Statement := do
  let target ← term bound
  statementTail bound target

/-- Reads a statement that starts with a word of the language, or with a term. -/
def wordStatement (bound : Nat) (word : String) : Reader Statement :=
  if word = "if" then do
    advance
    condition bound
  else
    match JumpKind.ofText? word, WordKind.ofText? word with
    | some kind, _ => do
      advance
      jump kind
    | none, some kind => do
      advance
      expectEnd
      pure (.word kind)
    | none, none => termStatement bound

/-- Reads a statement. A word of the language loses its meaning before an opening
parenthesis. -/
def statement (bound : Nat) : Reader Statement := do
  match ← get with
  | [] => reject .emptyStatement
  | first :: rest =>
    match first.kind with
    | .labelDefinition =>
      advance
      expectEnd
      pure (.label (labelOf first))
    | .taskPause =>
      advance
      expectEnd
      pure (.taskPause (labelOf first))
    | .keyword =>
      if first.text = "<Anchor>" then
        advance
        expectEquals
        let value ← number
        expectEnd
        pure (.anchor value)
      else termStatement bound
    | .name =>
      if rest.head?.any (·.kind == .leftParenthesis) then termStatement bound
      else wordStatement bound first.text
    | _ => termStatement bound

end Reader

/-- Reads the statement on a cleaned line. -/
def Statement.parse (line : List Char) : Except Fault Statement := do
  let tokens ← Token.cut line
  (Reader.statement tokens.length).run' tokens

end MapScript
