/-
This file reads the arguments of a command. A command has options, which start
with a dash, and operands, which do not; they may be mixed. A long option may be
cut short as long as it stays the only one, and short options may be run together.
After a double dash everything is an operand. Operands are taken up in runs: a run
that is long enough for the operands that have to be there also settles those that
may be left out. A double dash is never a value: the first one among the texts that
an option or operand takes up is passed over, even if no other text is left.
-/

import MapScript.Text.Digit

namespace MapScript.Tool

/-! ### Forms -/

/-- An option of a command, with its names. -/
structure OptionForm where
  names : List String
  takesValue : Bool
  required : Bool
  deriving DecidableEq, Repr

/-- The option that asks for help, which every command has. -/
def helpOption : OptionForm := ⟨["-h", "--help"], false, false⟩

/-- A command: how it is used, its options, and for each operand whether it may be
left out. -/
structure CommandForm where
  usage : String
  options : List OptionForm
  operands : List Bool
  deriving DecidableEq, Repr

/-- All options of a command. -/
def CommandForm.allOptions (form : CommandForm) : List OptionForm :=
  helpOption :: form.options

/-- The option with a name. -/
def CommandForm.option? (form : CommandForm) (name : String) : Option OptionForm :=
  form.allOptions.find? fun option => option.names.contains name

/-- Why arguments are not taken. -/
inductive Refusal where
  | help
  | rejected
  deriving DecidableEq, Repr

/-! ### Single arguments -/

/-- The text of a double dash. -/
def dividerText : String := "--"

/-- An argument by its looks. An option may have a text attached, behind an equals
sign or, for a short option, right behind its letter. -/
inductive Argument where
  | operand (text : String)
  | divider
  | option (form : OptionForm) (single : Bool) (attached : Option (List Char))
  | unknown (text : String)
  deriving DecidableEq, Repr

/-- Whether an argument is an option. -/
def Argument.isOption : Argument → Bool
  | option .. | unknown _ => true
  | _ => false

/-- Whether a name is that of a short option. -/
def isSingle (name : List Char) : Bool :=
  match name with
  | _ :: '-' :: _ => false
  | _ => true

/-- Whether a text is a negative number, with or without a point. A line feed may
follow it. -/
def isNegativeNumber (text : List Char) : Bool :=
  match if text.getLast? == some '\n' then text.dropLast else text with
  | '-' :: rest =>
    let whole := rest.takeWhile Text.isDigit
    match rest.drop whole.length with
    | [] => !whole.isEmpty
    | '.' :: places => !places.isEmpty && places.all Text.isDigit
    | _ => false
  | _ => false

/-- The part of a text before its first equals sign, and the part after it. -/
def splitEquals (text : List Char) : List Char × Option (List Char) :=
  (text.takeWhile (· != '='),
    match text.dropWhile (· != '=') with
    | [] => none
    | _ :: rest => some rest)

/-- The options that a text may be short for, once for each name that fits. A long
option is cut short; a short one has its value attached. -/
def candidates (form : CommandForm) (text : List Char) : List Argument :=
  let (start, value) := splitEquals text
  form.allOptions.flatMap fun option =>
    option.names.filterMap fun name =>
      if isSingle text then
        if name.toList = text.take 2 then some (.option option true (some (text.drop 2)))
        else if text.isPrefixOf name.toList then
          some (.option option (isSingle name.toList) none)
        else none
      else if start.isPrefixOf name.toList then
        some (.option option (isSingle name.toList) value)
      else none

/-- What an argument in front of the double dash looks like. -/
def Argument.ofText (form : CommandForm) (text : String) : Except Refusal Argument :=
  let letters := text.toList
  if letters.head? != some '-' then .ok (.operand text)
  else
    match form.option? text with
    | some found => .ok (.option found (isSingle letters) none)
    | none =>
      if letters.length = 1 then .ok (.operand text)
      else
        let (start, value) := splitEquals letters
        match value, form.option? (String.ofList start) with
        | some value, some found => .ok (.option found (isSingle start) (some value))
        | _, _ =>
          match candidates form letters with
          | [only] => .ok only
          | [] =>
            if isNegativeNumber letters || letters.contains ' ' then .ok (.operand text)
            else .ok (.unknown text)
          | _ => .error .rejected

/-- What the arguments of a command look like. -/
def classify (form : CommandForm) : List String → Except Refusal (List Argument)
  | [] => .ok []
  | text :: rest =>
    if text = dividerText then .ok (.divider :: rest.map .operand)
    else do
      let first ← Argument.ofText form text
      let others ← classify form rest
      pure (first :: others)

/-! ### Taking arguments up -/

/-- What is known of a command's arguments: the options given, with their values if
they have one, the operands settled, the operands still to come, and whether some
argument was left over. -/
structure Settled where
  settings : List (OptionForm × Option String)
  operands : List (Option String)
  awaited : List Bool
  leftOver : Bool
  deriving DecidableEq, Repr

/-- Takes an option up. -/
def Settled.set (settled : Settled) (setting : OptionForm × Option String) : Except Refusal Settled :=
  if setting.1 = helpOption then .error .help
  else .ok { settled with settings := settled.settings ++ [setting] }

/-- The value among the texts that an option or operand takes up: the first double
dash is passed over, and what is left is the value. -/
def valueAmong (texts : List String) : Option String :=
  (texts.erase dividerText).head?

/-- The double dashes at the start, as texts. -/
def dividers (arguments : List Argument) : List String :=
  (arguments.takeWhile (· == .divider)).map fun _ => dividerText

/-- Settles one operand with the arguments at the start: its value if there is one,
and the arguments left. The operand takes up the double dashes around it. -/
def takeOperand (optional : Bool) (arguments : List Argument) :
    Option (Option String × List Argument) :=
  let before := dividers arguments
  match arguments.drop before.length with
  | .operand text :: rest =>
    let behind := dividers rest
    some (valueAmong (before ++ text :: behind), rest.drop behind.length)
  | rest => if optional then some (none, rest) else none

/-- Settles operands in order. -/
def takeOperands : List Bool → List Argument → Option (List (Option String) × List Argument)
  | [], arguments => some ([], arguments)
  | optional :: rest, arguments => do
    let (value, after) ← takeOperand optional arguments
    let (values, last) ← takeOperands rest after
    pure (value :: values, last)

/-- Settles as many operands as the arguments at the start are enough for. -/
def Settled.takeRun (settled : Settled) (arguments : List Argument) :
    Settled × List Argument :=
  let attempts := (List.range (settled.awaited.length + 1)).reverse
  match attempts.findSome? fun count =>
      (takeOperands (settled.awaited.take count) arguments).map (count, ·) with
  | some (count, values, rest) =>
    ({ settled with operands := settled.operands ++ values, awaited := settled.awaited.drop count }, rest)
  | none => (settled, arguments)

/-- What an argument with something attached comes to: the options it sets, and the
last one if it has nothing attached. -/
structure Attached where
  settings : List (OptionForm × Option String)
  pending : Option OptionForm

/-- Takes apart what is attached to an option: its value if it takes one, else
further short options, each of which has to be one. -/
def attachedOptions (form : CommandForm) :
    (option : OptionForm) → (single : Bool) → List Char → Except Refusal Attached
  | option, _, [] =>
    if option.takesValue then .ok ⟨[(option, some "")], none⟩ else .error .rejected
  | option, single, letter :: rest =>
    if option.takesValue then
      .ok ⟨[(option, valueAmong [String.ofList (letter :: rest)])], none⟩
    else if !single then .error .rejected
    else
      match form.option? (String.ofList ['-', letter]), rest with
      | none, _ => .error .rejected
      | some next, [] => .ok ⟨[(option, none)], some next⟩
      | some next, first :: others => do
        let tail ← attachedOptions form next true (first :: others)
        pure { tail with settings := (option, none) :: tail.settings }

/-- Takes up an option with the arguments behind it. -/
def takeOption (form : CommandForm) (settled : Settled) (option : OptionForm) (single : Bool)
    (attached : Option (List Char)) (rest : List Argument) :
    Except Refusal (Settled × List Argument) := do
  let found ← match attached with
    | some text => attachedOptions form option single text
    | none => .ok ⟨[], some option⟩
  let (last, after) ← match found.pending with
    | none => .ok ([], rest)
    | some pending =>
      if pending.takesValue then
        match rest with
        | .operand value :: after => .ok ([(pending, valueAmong [value])], after)
        | _ => .error .rejected
      else .ok ([(pending, none)], rest)
  let settled ← (found.settings ++ last).foldlM Settled.set settled
  pure (settled, after)

/-- Takes arguments up until no option is left. Every step takes up an argument or
settles what stands before the next option, which bounds the steps. -/
def takeAll (form : CommandForm) :
    (bound : Nat) → Settled → List Argument → Except Refusal Settled
  | 0, settled, _ => .ok settled
  | bound + 1, settled, arguments =>
    if arguments.any Argument.isOption then
      match arguments with
      | .option option single attached :: rest => do
        let (settled, after) ← takeOption form settled option single attached rest
        takeAll form bound settled after
      | .unknown _ :: rest => takeAll form bound { settled with leftOver := true } rest
      | _ =>
        let (next, rest) := settled.takeRun arguments
        if rest.length < arguments.length then takeAll form bound next rest
        else
          takeAll form bound { next with leftOver := true }
            (arguments.dropWhile fun argument => !argument.isOption)
    else
      let (next, rest) := settled.takeRun arguments
      .ok { next with leftOver := next.leftOver || !rest.isEmpty }

/-- The arguments of a command: the options given and the operands. -/
structure Arguments where
  settings : List (OptionForm × Option String)
  operands : List (Option String)
  deriving DecidableEq, Repr

/-- Reads the arguments of a command. Options and operands that have to be there
must be there, and nothing may be left over. -/
def CommandForm.read (form : CommandForm) (texts : List String) : Except Refusal Arguments := do
  let arguments ← classify form texts
  let settled ← takeAll form (2 * arguments.length + 1) ⟨[], [], form.operands, false⟩ arguments
  let complete := form.options.all fun option =>
    !option.required || settled.settings.any fun setting => setting.1 == option
  if complete && settled.awaited.all id && !settled.leftOver then
    .ok ⟨settled.settings, settled.operands⟩
  else .error .rejected

namespace Arguments

/-- Whether an option was given. -/
def has (arguments : Arguments) (option : OptionForm) : Bool :=
  arguments.settings.any fun setting => setting.1 == option

/-- The text an option was given last, if it was given one; the text may be
empty. -/
def text? (arguments : Arguments) (option : OptionForm) : Option String :=
  (arguments.settings.reverse.find? fun setting => setting.1 == option).bind Prod.snd

/-- The value an option was given last. An empty one counts as none. -/
def value? (arguments : Arguments) (option : OptionForm) : Option String :=
  (arguments.text? option).filter fun text => !text.isEmpty

/-- The operand at a place. -/
def operand? (arguments : Arguments) (place : Nat) : Option String :=
  (arguments.operands[place]?).join

end Arguments

end MapScript.Tool
