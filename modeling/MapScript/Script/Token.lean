/-
This file cuts a cleaned script line into tokens. At each place the forms of a
token are tried in a fixed order, and the first that fits takes as many
characters as it can; blanks between tokens are passed over.
-/

import MapScript.Fault
import MapScript.Text.Word

namespace MapScript

/-! ### Kinds -/

/-- The kinds of tokens. -/
inductive TokenKind where
  | string
  | labelDefinition
  | label
  | taskPause
  | keyword
  | name
  | number
  | operator
  | leftParenthesis
  | rightParenthesis
  | comma
  | dot
  | leftBrace
  | rightBrace
  deriving DecidableEq, Repr

/-- The word for a kind of token in messages. -/
def TokenKind.word : TokenKind → String
  | string => "STRING"
  | labelDefinition => "LABELDEF"
  | label => "LABEL"
  | taskPause => "TASKPAUSE"
  | keyword => "KEYWORD"
  | name => "NAME"
  | number => "NUMBER"
  | operator => "OP"
  | leftParenthesis => "LPAREN"
  | rightParenthesis => "RPAREN"
  | comma => "COMMA"
  | dot => "DOT"
  | leftBrace => "LBRACE"
  | rightBrace => "RBRACE"

/-- A token: its kind and the characters it is written with. -/
structure Token where
  kind : TokenKind
  text : String
  deriving DecidableEq, Repr

namespace Token

/-! ### Forms

Each form says how many characters it takes at the start of a text, if it fits
there at all. -/

/-- A quoted string, with both quotes. -/
def stringLength? : List Char → Option Nat
  | '"' :: rest =>
    let inside := rest.takeWhile (· != '"')
    if inside.length < rest.length then some (inside.length + 2) else none
  | _ => none

/-- A label: a hash and hexadecimal digits. -/
def labelLength? : List Char → Option Nat
  | '#' :: rest =>
    let digits := rest.takeWhile Text.isHexDigit
    if digits.isEmpty then none else some (digits.length + 1)
  | _ => none

/-- A label definition: a label and a colon. -/
def labelDefinitionLength? (text : List Char) : Option Nat :=
  match labelLength? text with
  | some length => if (text.drop length).head? == some ':' then some (length + 1) else none
  | none => none

/-- A fixed text. -/
def fixedLength? (expected text : List Char) : Option Nat :=
  if expected.isPrefixOf text then some expected.length else none

/-- A task pause: its mark around a label. -/
def taskPauseLength? (text : List Char) : Option Nat :=
  match fixedLength? "<TaskPause(".toList text with
  | some opening =>
    match labelLength? (text.drop opening) with
    | some label =>
      if ")>".toList.isPrefixOf (text.drop (opening + label)) then some (opening + label + 2)
      else none
    | none => none
  | none => none

/-- One of the two marks of the language. -/
def keywordLength? (text : List Char) : Option Nat :=
  fixedLength? "<Anchor>".toList text <|> fixedLength? "<ScriptRv>".toList text

/-- Letters, digits and underscores, not all of them digits. -/
def wordLength? (text : List Char) : Option Nat :=
  let word := text.takeWhile Text.isNameChar
  if word.any fun c => !c.isDigit then some word.length else none

/-- A name: a word, perhaps after an at sign. -/
def nameLength? : List Char → Option Nat
  | '@' :: rest => (wordLength? rest).map (· + 1)
  | text => wordLength? text

/-- Decimal digits. -/
def digitsLength? (text : List Char) : Option Nat :=
  let digits := text.takeWhile Text.isDigit
  if digits.isEmpty then none else some digits.length

/-- A number: digits, perhaps after a minus sign. -/
def numberLength? : List Char → Option Nat
  | '-' :: rest => (digitsLength? rest).map (· + 1)
  | text => digitsLength? text

/-- An operator, comparison or step; two characters before one. -/
def operatorLength? : List Char → Option Nat
  | '+' :: '+' :: _ | '-' :: '-' :: _ | '<' :: '<' :: _ | '>' :: '>' :: _ | '<' :: '=' :: _
  | '>' :: '=' :: _ | '!' :: '=' :: _ => some 2
  | c :: _ => if "-+*/&|^=<>".toList.contains c then some 1 else none
  | [] => none

/-- A mark of punctuation. -/
def punctuation? : List Char → Option TokenKind
  | '(' :: _ => some .leftParenthesis
  | ')' :: _ => some .rightParenthesis
  | ',' :: _ => some .comma
  | '.' :: _ => some .dot
  | '\x7b' :: _ => some .leftBrace
  | '\x7d' :: _ => some .rightBrace
  | _ => none

/-! ### Cutting -/

/-- The kind and the length of the token at the start of a text. -/
def munch? (text : List Char) : Option (TokenKind × Nat) :=
  (stringLength? text).map (.string, ·) <|>
  (labelDefinitionLength? text).map (.labelDefinition, ·) <|>
  (labelLength? text).map (.label, ·) <|>
  (taskPauseLength? text).map (.taskPause, ·) <|>
  (keywordLength? text).map (.keyword, ·) <|>
  (nameLength? text).map (.name, ·) <|>
  (numberLength? text).map (.number, ·) <|>
  (operatorLength? text).map (.operator, ·) <|>
  (punctuation? text).map (·, 1)

/-- Cuts a text into tokens. The count says how many characters of the last token
are still to be passed over. A character that starts no token is refused. -/
def cutFrom : List Char → (passed : Nat) → Except Fault (List Token)
  | [], _ => .ok []
  | _ :: rest, passed + 1 => cutFrom rest passed
  | c :: rest, 0 =>
    match munch? (c :: rest) with
    | some (kind, length) => do
      let tokens ← cutFrom rest (length - 1)
      pure (⟨kind, String.ofList ((c :: rest).take length)⟩ :: tokens)
    | none => if Text.isBlank c then cutFrom rest 0 else reject (.character c)

/-- Cuts a line into tokens. -/
def cut (line : List Char) : Except Fault (List Token) :=
  cutFrom line 0

end Token

end MapScript
