/-
This file reads whole script files. A file is a sequence of scripts, each a line
with a name, perhaps with the label where it starts to run, and a block of
statements in braces; lines in front of it set variables and attributes. Braces
stand on lines of their own, and blocks nest.
-/

import MapScript.Script.Cleaning
import MapScript.Script.Reading

namespace MapScript

/-! ### Kinds of lines -/

/-- Letters that match a plain small letter when case is ignored: its capital and,
for two letters, their relatives in other alphabets. -/
def matchesLetter (letter c : Char) : Bool :=
  c == letter || c == letter.toUpper ||
    (letter == 's' && c.toNat == 0x17F) ||
    (letter == 'i' && (c.toNat == 0x130 || c.toNat == 0x131))

/-- Whether a text starts with a word of small letters and other marks, case
ignored. -/
def startsWithWord : (word text : List Char) → Bool
  | [], _ => true
  | _ :: _, [] => false
  | letter :: word, c :: text => matchesLetter letter c && startsWithWord word text

/-- The lines above the scripts that only say which map they belong to. -/
def isPreamble (text : List Char) : Bool :=
  startsWithWord "maps\\".toList text || startsWithWord "id:".toList text ||
    startsWithWord "ids:".toList text

/-- What follows an equals sign, with blanks around it passed over, if it is a
numeral. -/
def numeralAfterEquals? (text : List Char) : Option (List Char) :=
  match text.dropWhile Text.isBlank with
  | '=' :: rest =>
    let numeral := rest.dropWhile Text.isBlank
    let digits := if numeral.head? == some '-' then numeral.drop 1 else numeral
    if !digits.isEmpty && digits.all Text.isDigit then some numeral else none
  | _ => none

/-- A variable line: the digits of the variable and the numeral of its value. -/
def variableLine? (text : List Char) : Option (List Char × List Char) :=
  match text with
  | 'v' :: 'a' :: 'r' :: rest =>
    let digits := rest.takeWhile Text.isDigit
    if digits.isEmpty then none
    else (numeralAfterEquals? (rest.dropWhile Text.isDigit)).map (digits, ·)
  | _ => none

/-- An attribute line: the name and the numeral of its value. -/
def attributeLine? (text : List Char) : Option (List Char × List Char) :=
  let name := text.takeWhile Text.isWordChar
  if name.isEmpty then none
  else (numeralAfterEquals? (text.dropWhile Text.isWordChar)).map (name, ·)

/-- The label in the words after the name of a script that say where it starts. -/
def startLabel? (text : List Char) : Option Int :=
  let mark := "(Execution starts at #".toList
  let opened := text.dropWhile Text.isBlank
  if mark.isPrefixOf opened then
    let rest := opened.drop mark.length
    let digits := rest.takeWhile Text.isHexDigit
    if !digits.isEmpty && rest.drop digits.length == [')'] then
      some (Text.hexDigitsValue digits)
    else none
  else none

/-- A script line: the name, and the label where the script starts. -/
def scriptLine? (text : List Char) : Option (String × Option Int) :=
  let name := text.takeWhile (!Text.isBlank ·)
  let rest := text.dropWhile (!Text.isBlank ·)
  if name.isEmpty || text == ['\x7b'] || text == ['\x7d'] then none
  else if rest.isEmpty then some (String.ofList name, none)
  else (startLabel? rest).map fun label => (String.ofList name, some label)

/-- Reads a numeral. -/
def readNumeral (numeral : List Char) : Except Fault Int :=
  match Text.readInteger? numeral with
  | some value => .ok value
  | none => fail (.notANumber (String.ofList numeral))

/-- Reads the value of a variable, which has to fit 32 signed bits. -/
def readVariable (origin : Origin) (numeral : List Char) : Except Fault Int := do
  let value ← readNumeral numeral
  if -0x80000000 ≤ value ∧ value < 0x80000000 then pure value
  else locating (some origin) (reject (.variableRange value))

/-! ### Blocks -/

/-- Takes the line with the opening brace of a block. -/
def takeOpen (owner : String) : List ScriptLine → Except Fault (List ScriptLine)
  | [] => reject (.missingOpen owner)
  | line :: rest =>
    if line.text = ['\x7b'] then .ok rest
    else locating (some line.origin) (reject (.expectedOpen owner))

/-- Gives a condition its body; other statements have none. -/
def Statement.withBody : Statement → Block → Statement
  | .branch clauses _, body => .branch clauses body
  | .returnGuard value _, body => .returnGuard value body
  | other, _ => other

/-- Whether a statement is followed by a block. -/
def Statement.hasBody : Statement → Bool
  | .branch .. | .returnGuard .. => true
  | _ => false

/-- The name of a nested block in messages. -/
def ScriptLine.ownerName (line : ScriptLine) : String :=
  s!"line {line.origin.number}"

/-- Reads statements up to the closing brace of their block, and gives the lines
after it. Each step takes a line, so the number of lines bounds the reading; where
the bound is used up no line is left. -/
def readBlock (owner : String) :
    (bound : Nat) → List ScriptLine → Except Fault (Block × List ScriptLine)
  | 0, _ | _, [] => reject (.missingClose owner)
  | bound + 1, line :: rest =>
    if line.text = ['\x7d'] then .ok (.nil, rest)
    else if line.text = ['\x7b'] then locating (some line.origin) (reject .unexpectedOpen)
    else do
      let statement ← locating (some line.origin) (Statement.parse line.text)
      if statement.hasBody then
        let inner ← takeOpen line.ownerName rest
        let (body, after) ← readBlock line.ownerName bound inner
        let (others, remaining) ← readBlock owner bound after
        pure (.cons (some line.origin) (statement.withBody body) others, remaining)
      else
        let (others, remaining) ← readBlock owner bound rest
        pure (.cons (some line.origin) statement others, remaining)

/-! ### Files -/

/-- Lines seen since the last script, which belong to the next one. -/
structure Preface where
  attributes : List AttributeLine
  locals : Registry Int Int

/-- No lines seen. -/
def Preface.empty : Preface := ⟨[], .empty⟩

/-- At the end of a file no attribute or variable line may be left over. -/
def Preface.finish (preface : Preface) : Except Fault (List Script) :=
  if preface.attributes.isEmpty && preface.locals.isEmpty then .ok []
  else reject .strayLines

/-- Reads scripts from lines that are not blank, given the lines seen since the
last script. -/
def readScripts : (bound : Nat) → Preface → List ScriptLine → Except Fault (List Script)
  | 0, preface, _ | _, preface, [] => preface.finish
  | bound + 1, preface, line :: rest =>
    if isPreamble line.text then readScripts bound preface rest
    else
      match variableLine? line.text with
      | some (digits, numeral) => do
        let value ← readVariable line.origin numeral
        let index ← readNumeral digits
        readScripts bound { preface with locals := preface.locals.put index value } rest
      | none =>
        match attributeLine? line.text with
        | some (name, numeral) => do
          let value ← readNumeral numeral
          let entry : AttributeLine := ⟨String.ofList name, value, line.origin⟩
          readScripts bound { preface with attributes := preface.attributes ++ [entry] } rest
        | none =>
          match scriptLine? line.text with
          | none => locating (some line.origin) (reject .headerExpected)
          | some (name, startLabel) => do
            let inner ← takeOpen name rest
            let (body, after) ← readBlock name inner.length inner
            let others ← readScripts bound .empty after
            pure ({
              name := name
              startLabel := startLabel
              body := body
              attributes := preface.attributes
              locals := preface.locals
              origin := line.origin } :: others)

/-- Reads scripts from cleaned lines; blank ones do not count. -/
def Script.ofLines (lines : List ScriptLine) : Except Fault (List Script) :=
  let filled := lines.filter fun line => !line.text.isEmpty
  readScripts filled.length .empty filled

/-- Reads a script file. -/
def Script.parse (symbols : Symbols) (text : List Char) : Except Fault (List Script) := do
  let lines ← cleanText symbols text
  ofLines lines

end MapScript
