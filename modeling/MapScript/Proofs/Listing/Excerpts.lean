/-
This file says what a term, a formula and a condition look like in a listing, and how
many bytes of code they take. Both follow the data and say nothing about reading or
writing code; that reading and writing agree with them is proved elsewhere.

Some things in a listing are not as they were written. A number counts modulo the range
of four bytes and is shown as a signed one, and an object that a variable holds is
shown by the value of the variable where that names the first variable with it. Strings
and references are shown as their numbers lead to them, which is what they are as long
as there are not too many of them.
-/

import MapScript.Code.Encoding
import MapScript.Proofs.Listing.Reads

namespace MapScript

/-! ### Sizes -/

/-- The number of bytes behind the number of a function: its arguments with their
count, unless it is the function with number zero. -/
def argumentsSize (symbols : Symbols) (function : String) (size : Nat) : Nat :=
  if symbols.functionId? function = some 0 then 0 else 1 + size

mutual

/-- The number of bytes that a term takes in a place. -/
def Term.codeSize (symbols : Symbols) : Term → Position → Nat
  | .call name arguments _, _ => 3 + argumentsSize symbols name (Term.codeSizes symbols arguments)
  | .flag _, position => if position = .parameter then 5 else 3
  | .localVariable _, position => if position = .parameter then 5 else 2
  | .number _, _ => 5
  | .text _, _ => 5
  | .property .., _ => 5
  | .objectCall _ name arguments _, position =>
    (if position = .statement then 6 else 5) +
      argumentsSize symbols name (Term.codeSizes symbols arguments)
  | .chain .., _ => 0

/-- The number of bytes that arguments take. -/
def Term.codeSizes (symbols : Symbols) : List Term → Nat
  | [] => 0
  | first :: rest => first.codeSize symbols .parameter + Term.codeSizes symbols rest

end

/-- The number of bytes that operators with their terms take. -/
def operationsSize (symbols : Symbols) : List (Operator × Term) → Nat
  | [] => 0
  | (_, operand) :: rest => 1 + operand.codeSize symbols .formula + operationsSize symbols rest

namespace Formula

/-- The number of bytes behind the first term of a formula. -/
def tailSize (symbols : Symbols) (formula : Formula) : Nat :=
  operationsSize symbols (formula.operators.zip formula.operands) +
    if formula.step.isSome then 2 else 1

/-- The number of bytes of a formula. -/
def codeSize (symbols : Symbols) (formula : Formula) : Nat :=
  formula.head.codeSize symbols .formula + formula.tailSize symbols

/-- The number of bytes of a formula on a side of a comparison. -/
def sideSize (symbols : Symbols) (position : Position) (formula : Formula) : Nat :=
  formula.head.codeSize symbols position +
    if Encoder.carriesOperators position formula.head then formula.tailSize symbols else 0

end Formula

/-- The number of bytes of a clause. -/
def Clause.codeSize (symbols : Symbols) (clause : Clause) : Nat :=
  clause.left.sideSize symbols .left + 1 + clause.right.sideSize symbols .right + 1

/-- The number of bytes of a condition. -/
def clausesSize (symbols : Symbols) : List Clause → Nat
  | [] => 0
  | first :: rest => first.codeSize symbols + clausesSize symbols rest

/-! ### Text -/

/-- What the writing of code looks up, given what its reading looks up. -/
def Reading.around (reading : Reading) : Surroundings :=
  ⟨reading.symbols, some reading.program.locals⟩

/-- The name of an object in a listing. -/
def Reading.objectText (reading : Reading) (name : String) : String :=
  if builtInObjects.contains name then name
  else if Encoder.isNumeral name.toList then
    match Text.readSetting? name.toList with
    | some value =>
      if reading.program.locals.contains value then String.ofList (Text.integer value) else name
    | none => name
  else
    match (Encoder.variableNameDigits? name.toList).bind Text.readNatural? with
    | some index =>
      match Decoder.variableObject reading index with
      | .ok text => text
      | .error _ => name
    | none => name

/-- The string that the number of a string leads to: four bytes hold the number. -/
def Reading.stringText (reading : Reading) (text : String) : String :=
  (reading.program.strings[reading.program.strings.idxOf text % Bytes.range 4]?).getD text

/-- The reference that the number of a reference leads to: only its low byte counts. -/
def Reading.referenceText (reading : Reading) (name : String) : String :=
  (reading.symbols.references[reading.symbols.references.idxOf name % 256]?).getD name

/-- A dialogue label in a listing; its subtitle becomes a comment. -/
def Reading.dialogueExcerpt (reading : Reading) (label : String) : Excerpt :=
  ⟨"\"" ++ label ++ "\"",
    (reading.symbols.subtitle? label).map fun subtitle => "Dlg " ++ label ++ " = " ++ subtitle⟩

/-- A number in a listing. -/
def Reading.numberExcerpt (reading : Reading) (position : Position) (slot : Option Slot)
    (value : Int) : Excerpt :=
  let kind := Encoder.slotKind reading.around position slot
  if kind = some .dialogue then reading.dialogueExcerpt (Bytes.toText (Encoder.long value))
  else .plain (Decoder.typedNumber reading.symbols kind (Bytes.littleSigned (Encoder.long value)))

/-- A text in a listing. -/
def Reading.textExcerpt (reading : Reading) (position : Position) (slot : Option Slot)
    (text : String) : Excerpt :=
  if Encoder.slotKind reading.around position slot = some .dialogue then
    reading.dialogueExcerpt text
  else .plain ("\"" ++ reading.stringText text ++ "\"")

/-- A call in a listing, given its arguments. -/
def callExcerpt (multitask : Bool) (name : String) (arguments : Excerpt) : Excerpt :=
  .plain ((if multitask then "@" else "") ++ name ++ "(") ++ (arguments ++ .plain ")")

mutual

/-- A term in a listing, in a place. -/
def Term.excerpt (reading : Reading) : Term → Position → Option Slot → Excerpt
  | .call name arguments multitask, _, _ =>
    callExcerpt multitask name (Term.excerpts reading name 0 arguments)
  | .flag name, _, _ => .plain name
  | .localVariable index, _, _ => .plain ("var" ++ String.ofList (Text.natural index.toNat))
  | .number value, position, slot => reading.numberExcerpt position slot value
  | .text written, position, slot => reading.textExcerpt position slot written
  | .property object name, _, _ =>
    .plain (reading.objectText object ++ ".") ++ .plain (reading.referenceText name)
  | .objectCall object name arguments multitask, _, _ =>
    .plain (reading.objectText object ++ ".") ++
      callExcerpt multitask name (Term.excerpts reading name 0 arguments)
  | .chain .., _, _ => .plain ""

/-- The arguments of a function in a listing, from a place on. -/
def Term.excerpts (reading : Reading) (function : String) (index : Nat) : List Term → Excerpt
  | [] => .plain ""
  | first :: rest =>
    (if index = 0 then .plain "" else .plain ", ") ++
      (first.excerpt reading .parameter (some ⟨function, index⟩) ++
        Term.excerpts reading function (index + 1) rest)

end

/-- Operators with their terms in a listing. -/
def operationsExcerpt (reading : Reading) : List (Operator × Term) → Excerpt
  | [] => .plain ""
  | (operator, operand) :: rest =>
    .plain (" " ++ operator.text ++ " ") ++
      (operand.excerpt reading .formula none ++ operationsExcerpt reading rest)

namespace Formula

/-- What follows the first term of a formula in a listing. -/
def tailExcerpt (reading : Reading) (formula : Formula) : Excerpt :=
  operationsExcerpt reading (formula.operators.zip formula.operands) ++
    match formula.step with
    | some step => .plain step.text
    | none => .plain ""

/-- A formula in a listing, with its first term in a place. -/
def excerpt (reading : Reading) (position : Position) (slot : Option Slot) (formula : Formula) :
    Excerpt :=
  formula.head.excerpt reading position slot ++ formula.tailExcerpt reading

end Formula

/-- The comment of the flag that a statement assigns to. -/
def Reading.targetComment? (reading : Reading) : Term → Option String
  | .flag name =>
    ((reading.symbols.flagId? name).bind fun id => reading.symbols.flags[id]?).bind
      GameFlag.comment
  | _ => none

/-- A clause in a listing. -/
def Clause.excerpt (reading : Reading) (clause : Clause) : Excerpt :=
  clause.left.excerpt reading .left none ++
    (.plain (" " ++ clause.comparison.text ++ " ") ++
      (clause.right.excerpt reading .right (Encoder.comparedSlot? clause.left.head) ++
        match clause.conjunction with
        | some conjunction => .plain (" " ++ conjunction.text ++ " ")
        | none => .plain ""))

/-- The clauses of a condition in a listing. -/
def clausesExcerpt (reading : Reading) : List Clause → Excerpt
  | [] => .plain ""
  | first :: rest => first.excerpt reading ++ clausesExcerpt reading rest

end MapScript
