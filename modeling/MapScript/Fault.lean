/-
What can go wrong, as causes. A fault is a cause and, where script text is to
blame, the line it came from; the wording of every cause stands in one place, and
the line is put in front of it. The line that is recorded first stays: a block
that passes on the fault of a statement inside it does not blame itself.
-/

import MapScript.Bytes
import MapScript.Text.Quoted

namespace MapScript

/-! ### Wording -/

/-- A name inside a message. -/
def quote (name : String) : String :=
  String.ofList (Text.quoted name.toList)

/-- A tag inside a message. -/
def quoteBytes (bytes : Bytes) : String :=
  String.ofList (Text.quotedBytes bytes)

/-- The written form of a label: its address with at least two digits. -/
def labelText (label : Int) : String :=
  String.ofList ('#' :: Text.hexInteger 2 label)

/-! ### Malformed data -/

/-- Malformed or missing parts of the input files. -/
inductive FormatFault where
  | functionLine (line : String)
  | flagLine (line : String)
  | worldLine (line : String)
  | noDefinitions (folder : String)
  | headerSize (size : Nat)
  | openString (header : String) (index start : Nat)
  | variablesOutside (header : String) (start stop entries : Nat)
  | noEnd (size : Nat)
  | tagSize (tag : Bytes)
  | headerCount (given expected : Nat)
  | headerName (given expected : String)
  | attributeBlock (header : String)
  | noVariable (header : String) (index : Int) (count : Nat)
  | noHeaderTable
  | shortHeaderTable (size : Nat)
  | headerTableSize (size count needed : Nat)
  | attributesSize (count size : Nat)
  | objectVariable (header : String) (index : Nat)
  | stringIndex (header : String) (index count : Nat)
  deriving DecidableEq, Repr

namespace FormatFault

/-- The wording of a format fault. -/
def message : FormatFault → String
  | functionLine line => s!"Bad function line: {quote line}"
  | flagLine line => s!"Bad flag line: {quote line}"
  | worldLine line => s!"Bad world_map line: {quote line}"
  | noDefinitions folder => s!"SOUP386.DEF not found under {folder}"
  | headerSize size => s!"Header sub-record must be 165 bytes, got {size}"
  | openString header index start =>
    s!"{header}: string {index} at RAST offset {start} is not terminated"
  | variablesOutside header start stop entries =>
    s!"{header}: variables {start}..{stop - 1} outside RAVA ({entries} entries)"
  | noEnd size => s!"Missing END record (data ends at offset {size})"
  | tagSize tag => s!"Record tag must be 4 bytes: {quoteBytes tag}"
  | headerCount given expected => s!"Script has {given} headers, map has {expected}"
  | headerName given expected =>
    s!"Script header {quote given} does not match map header {quote expected}"
  | attributeBlock header => s!"{header}: attribute block must be 256 bytes"
  | noVariable header index count =>
    s!"{header}: var{index} does not exist ({count} variables)"
  | noHeaderTable => "Missing RAHD record"
  | shortHeaderTable size => s!"RAHD too small: {size} bytes"
  | headerTableSize size count needed =>
    s!"RAHD holds {size} bytes, {count} headers need {needed}"
  | attributesSize count size => s!"RAAT too small for {count} headers ({size} bytes)"
  | objectVariable header index => s!"{header}: object variable {index} out of range"
  | stringIndex header index count =>
    s!"{header}: string {index} out of range ({count} strings)"

end FormatFault

/-- What a read ran out of bytes in. -/
inductive Extent where
  | dialogueLabel
  | dialogueRecord (label : String)
  | dialogueSubtitle (label : String)
  | audioHeader (label : String)
  | audio (label : String)
  | stringOffset (header : String) (index : Nat)
  | recordLength (tag : Bytes)
  | record (tag : Bytes)
  | script (header : String)
  deriving DecidableEq, Repr

namespace Extent

/-- The wording of an extent. -/
def message : Extent → String
  | dialogueLabel => "RTX label"
  | dialogueRecord label => s!"RTX record '{label}'"
  | dialogueSubtitle label => s!"RTX subtitle '{label}'"
  | audioHeader label => s!"RTX audio header '{label}'"
  | audio label => s!"RTX audio '{label}'"
  | stringOffset header index => s!"{header}: RASB entry {index}"
  | recordLength tag => s!"Record {quoteBytes tag} length"
  | record tag => s!"Record {quoteBytes tag}"
  | script header => s!"{header}: script"

end Extent

/-! ### Unresolved symbols -/

/-- The tables in which a number is looked up. -/
inductive IdKind where
  | function
  | flag
  | reference
  | attributeIndex
  deriving DecidableEq, Repr

/-- The wording of a table of numbers. -/
def IdKind.message : IdKind → String
  | function => "function id"
  | flag => "flag id"
  | reference => "reference id"
  | attributeIndex => "attribute index"

/-- What a name was looked up as. -/
inductive NameKind where
  | function
  | flag
  | reference
  | attributeName
  | item
  | map
  | itemOrMap
  | objectValue
  | objectVariable
  deriving DecidableEq, Repr

/-- The wording of what a name was looked up as. -/
def NameKind.message : NameKind → String
  | function => "function"
  | flag => "flag"
  | reference => "reference"
  | attributeName => "attribute"
  | item => "item"
  | map => "map"
  | itemOrMap => "item or map"
  | objectValue => "object variable value"
  | objectVariable => "object variable"

/-! ### Script text -/

/-- Script text that cannot be read, or that has no encoding. -/
inductive ScriptFault where
  | character (c : Char)
  | emptyStatement
  | endOfLine (expected : String)
  | mismatch (expected found : String)
  | unexpected (found : String)
  | numberRange (numeral : String)
  | callExpected (name : String)
  | valueExpected (found : Option String)
  | comparison (found : String)
  | conjunction (found : String)
  | gosubLabel
  | assignmentExpected
  | headerExpected
  | missingOpen (owner : String)
  | expectedOpen (owner : String)
  | missingClose (owner : String)
  | unexpectedOpen
  | strayLines
  | variableRange (value : Int)
  | byteRange (value : Int)
  | labelTwice (label : Int)
  | cannotEncode (node : String)
  | cannotAssign (node : String)
  | operatorsAfter (node : String)
  | flagAlone (name : String)
  | variableAlone (index : Int)
  | multitaskInside
  | dialogueLabel (label : String)
  | noParameters (name : String)
  | attributeRange (name : String) (value : Int)
  deriving DecidableEq, Repr

namespace ScriptFault

/-- The wording of a script fault. -/
def message : ScriptFault → String
  | character c => s!"Unexpected character {quote (String.singleton c)}"
  | emptyStatement => "Empty statement"
  | endOfLine expected => s!"Unexpected end of line, expected {expected}"
  | mismatch expected found => s!"Expected {expected}, got {quote found}"
  | unexpected found => s!"Unexpected {quote found}"
  | numberRange numeral => s!"Number out of range: {numeral}"
  | callExpected name => s!"Expected a call after {quote name}"
  | valueExpected (some found) => s!"Expected a value, got {quote found}"
  | valueExpected none => "Expected a value"
  | comparison found => s!"Unknown comparison {quote found}"
  | conjunction found => s!"Expected 'and' or 'or', got {quote found}"
  | gosubLabel => "Gosub needs a label"
  | assignmentExpected => "Expected '=' after the name"
  | headerExpected => "Expected a header name"
  | missingOpen owner => s!"Missing '\x7b' after {owner}"
  | expectedOpen owner => s!"Expected '\x7b' after {owner}"
  | missingClose owner => s!"Missing '\x7d' closing {owner}"
  | unexpectedOpen => "Unexpected '\x7b'"
  | strayLines => "Attribute or variable lines after the last header"
  | variableRange value => s!"Variable value out of range: {value}"
  | byteRange value => s!"Byte value out of range: {value}"
  | labelTwice label => s!"Label {labelText label} defined twice"
  | cannotEncode node => s!"Cannot encode {node}"
  | cannotAssign node => s!"Cannot assign to {node}"
  | operatorsAfter node => s!"Operators are not allowed after {node} here"
  | flagAlone name => s!"Flag {name} needs '= value' here"
  | variableAlone index => s!"var{index} needs '= value' here"
  | multitaskInside => "'@' is only allowed on statement object calls"
  | dialogueLabel label => s!"Dialogue label must be 4 characters: {quote label}"
  | noParameters name => s!"{name} takes no parameters"
  | attributeRange name value => s!"Attribute {name} = {value} out of range"

end ScriptFault

/-! ### Script code -/

/-- The places in script code where a byte selects among forms. -/
inductive ByteKind where
  | opcode
  | operator
  | selector
  | comparison
  | conjunction
  deriving DecidableEq, Repr

/-- The wording of a selecting byte. -/
def ByteKind.message : ByteKind → String
  | opcode => "opcode"
  | operator => "operator"
  | selector => "object selector"
  | comparison => "comparison"
  | conjunction => "conjunction"

/-! ### Faults -/

/-- Why an operation failed. The first seven are faults of the data that the
library reports in its own words; the others are inputs that do not have the
form an operation asks for at all. -/
inductive Cause where
  | format (fault : FormatFault)
  | truncated (what : Extent) (offset needed available : Int)
  | unknownId (kind : IdKind) (id : Int)
  | unknownName (kind : NameKind) (name : String)
  | undefinedLabel (header : String) (label : Int)
  | script (fault : ScriptFault)
  | unknownByte (kind : ByteKind) (value offset : Nat)
  | notANumber (text : String)
  | noAssignment (line : String)
  | noHeader (name : String)
  | noField (name : String)
  | fieldOverflow (value : Int)
  | wideCharacter (text : String)
  | endlessDialogue
  deriving DecidableEq, Repr

namespace Cause

/-- The wording of a cause. -/
def message : Cause → String
  | format fault => fault.message
  | truncated what offset needed available =>
    s!"{what.message}: need {needed} bytes at offset {offset}, only {available} available"
  | unknownId kind id => s!"Unknown {kind.message}: {id}"
  | unknownName kind name => s!"Unknown {kind.message}: {quote name}"
  | undefinedLabel header label => s!"{header}: label {labelText label} is never defined"
  | script fault => fault.message
  | unknownByte kind value offset =>
    s!"Unknown {kind.message} {value} at script offset 0x{String.ofList (Text.hexSmall offset)}"
  | notANumber text => s!"not a number: {quote text}"
  | noAssignment line => s!"no '=' in line: {quote line}"
  | noHeader name => s!"no header named {quote name}"
  | noField name => s!"no field named {quote name}"
  | fieldOverflow value => s!"{value} does not fit its field"
  | wideCharacter text => s!"a character takes more than one byte: {quote text}"
  | endlessDialogue => "dialogue records lead back to earlier ones"

/-- Whether a cause is a fault of the data that the library reports in its own
words. -/
def isReported : Cause → Bool
  | format _ | truncated .. | unknownId .. | unknownName .. | undefinedLabel .. | script _ |
    unknownByte .. => true
  | _ => false

end Cause

/-- The line of script text a statement or fault comes from. -/
structure Origin where
  number : Nat
  text : String
  deriving DecidableEq, Repr

/-- A cause, and the line it is blamed on. -/
structure Fault where
  cause : Cause
  origin : Option Origin
  deriving DecidableEq, Repr

namespace Fault

/-- A fault that is not blamed on a line yet. -/
def of (cause : Cause) : Fault := ⟨cause, none⟩

/-- Blames a fault on a line, unless it is blamed on one already. -/
def locate (fault : Fault) (origin : Option Origin) : Fault :=
  ⟨fault.cause, fault.origin <|> origin⟩

/-- The full message: the line, if there is one, and the wording of the cause. -/
def message (fault : Fault) : String :=
  match fault.origin with
  | none => fault.cause.message
  | some origin =>
    s!"line {origin.number}: {String.ofList (Text.trim origin.text.toList)}: {fault.cause.message}"

end Fault

/-- Fails with a cause that no line is to blame for. -/
def fail {α : Type} (cause : Cause) : Except Fault α :=
  .error (.of cause)

/-- Fails because script text cannot be read or encoded. -/
def reject {α : Type} (fault : ScriptFault) : Except Fault α :=
  fail (.script fault)

/-- Blames the fault of an attempt on a line, unless it is blamed on one already. -/
def locating {α : Type} (origin : Option Origin) : Except Fault α → Except Fault α
  | .ok value => .ok value
  | .error fault => .error (fault.locate origin)

/-- A number as a field of so many bytes, which it has to fit. -/
def packNumber (width value : Nat) : Except Fault Bytes :=
  match Bytes.unsigned? width value with
  | some bytes => .ok bytes
  | none => fail (.fieldOverflow value)

/-! ### Notices -/

/-- What deserves a word though the work goes on. -/
inductive Notice where
  | functionKind (kind line : String)
  | skipped (header : String) (kind : ByteKind) (value offset : Nat)
  | looseLabel (header : String) (label : Nat)
  deriving DecidableEq, Repr

namespace Notice

/-- The wording of a notice. -/
def message : Notice → String
  | functionKind kind line =>
    s!"Unexpected function kind {quote kind} in line: {quote line}"
  | skipped header kind value offset =>
    s!"{header}: skipping unknown {kind.message} {value} at offset 0x{String.ofList (Text.hexSmall offset)}"
  | looseLabel header label => s!"{header}: label {labelText label} does not start a statement"

end Notice

end MapScript
