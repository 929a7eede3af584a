/-
This file compares two ways of reading code. They may differ in what becomes a comment and
in what they make of bytes that stand for nothing; all other look-ups agree. A relation
between readings that holds of the single steps, and is kept when one step is done after
another, holds of everything that an opcode stands for, given that it holds of the values
and blocks inside. What is proved about readings of code needs to be checked for the single
steps only.
-/

import MapScript.Proofs.Attempt
import MapScript.Proofs.Listing.Reads

namespace MapScript

/-! ### Readings that agree -/

/-- A flag without its comment. -/
def GameFlag.plain (flag : GameFlag) : GameFlag := { flag with comment := none }

/-- Symbols without what becomes a comment. -/
def Symbols.plain (symbols : Symbols) : Symbols :=
  { symbols with flags := symbols.flags.map GameFlag.plain, subtitles := .empty }

/-- Readings of one program with symbols that agree up to comments. -/
structure Reading.Agrees (one two : Reading) : Prop where
  program_eq : one.program = two.program
  plain_eq : one.symbols.plain = two.symbols.plain

namespace Reading.Agrees

variable {one two : Reading} (agrees : one.Agrees two)

include agrees

theorem function_eq (id : Int) : one.symbols.function id = two.symbols.function id := by
  have same : one.symbols.functions = two.symbols.functions :=
    (congrArg Symbols.functions agrees.plain_eq :)
  rw [Symbols.function, Symbols.function, same]

theorem reference_eq (id : Int) : one.symbols.reference id = two.symbols.reference id := by
  have same : one.symbols.references = two.symbols.references :=
    (congrArg Symbols.references agrees.plain_eq :)
  rw [Symbols.reference, Symbols.reference, same]

theorem parameterKind_eq (function : String) (index : Int) :
    one.symbols.parameterKind function index = two.symbols.parameterKind function index := by
  have same : one.symbols.parameterKinds = two.symbols.parameterKinds :=
    (congrArg Symbols.parameterKinds agrees.plain_eq :)
  rw [Symbols.parameterKind, Symbols.parameterKind, same]

theorem typedNumber_eq (kind : Option ParameterKind) (value : Int) :
    Decoder.typedNumber one.symbols kind value = Decoder.typedNumber two.symbols kind value :=
  (congrArg (Decoder.typedNumber · kind value) agrees.plain_eq :)

/-- Both find a flag of one name, or fail alike. -/
theorem flag_cases (id : Int) :
    (∃ first second, one.symbols.flag id = .ok first ∧ two.symbols.flag id = .ok second ∧
        first.name = second.name) ∨
      ∃ fault, one.symbols.flag id = .error fault ∧ two.symbols.flag id = .error fault := by
  have same : one.symbols.flags.map GameFlag.plain = two.symbols.flags.map GameFlag.plain :=
    congrArg Symbols.flags agrees.plain_eq
  have entry : (entryAt one.symbols.flags id).map GameFlag.plain =
      (entryAt two.symbols.flags id).map GameFlag.plain := by
    unfold entryAt
    split
    · rw [← List.getElem?_map, ← List.getElem?_map, same]
    · rfl
  unfold Symbols.flag
  cases first : entryAt one.symbols.flags id with
  | none =>
    rw [first, Option.map_none] at entry
    rw [Option.map_eq_none_iff.mp entry.symm]
    exact Or.inr ⟨_, rfl, rfl⟩
  | some flag =>
    rw [first, Option.map_some] at entry
    obtain ⟨other, second, plain⟩ := Option.map_eq_some_iff.mp entry.symm
    rw [second]
    exact Or.inl ⟨flag, other, rfl, rfl, (congrArg GameFlag.name plain).symm⟩

end Reading.Agrees

/-! ### Look-ups -/

/-- Why the look-ups of a reading fail: a number is not that of a string or a variable of the
program, or not that of a function, a flag or a reference. -/
inductive Reading.Misses (reading : Reading) : Cause → Prop
  | string {index : Nat} (outside : reading.program.strings.length ≤ index) :
    Misses reading
      (.format (.stringIndex reading.program.name index reading.program.strings.length))
  | localVariable {index : Nat} (outside : reading.program.locals.length ≤ index) :
    Misses reading (.format (.objectVariable reading.program.name index))
  | function {id : Nat} (outside : reading.symbols.functions.length ≤ id) :
    Misses reading (.unknownId .function id)
  | flag {id : Nat} (outside : reading.symbols.flags.length ≤ id) :
    Misses reading (.unknownId .flag id)
  | reference {id : Nat} (outside : reading.symbols.references.length ≤ id) :
    Misses reading (.unknownId .reference id)

/-- A table has no entry with a number only if it ends before. -/
theorem length_le_of_entryAt {α : Type} {table : List α} {id : Nat}
    (none : entryAt table id = none) : table.length ≤ id := by
  have found : entryAt table id = table[id]? := if_pos (Int.natCast_nonneg id)
  rw [found] at none
  exact List.getElem?_eq_none_iff.mp none

namespace Reading

variable (reading : Reading)

theorem failsOnly_headerString (index : Nat) :
    FailsOnly reading.Misses (Decoder.headerString reading index) := by
  unfold Decoder.headerString
  split
  · trivial
  · rename_i none
    exact .string (List.getElem?_eq_none_iff.mp none)

theorem failsOnly_variableObject (index : Nat) :
    FailsOnly reading.Misses (Decoder.variableObject reading index) := by
  unfold Decoder.variableObject
  split
  · rename_i none
    exact .localVariable (List.getElem?_eq_none_iff.mp none)
  · split
    · trivial
    · trivial

theorem failsOnly_function (id : Nat) : FailsOnly reading.Misses (reading.symbols.function id) := by
  unfold Symbols.function
  split
  · trivial
  · rename_i none
    exact .function (length_le_of_entryAt none)

theorem failsOnly_flag (id : Nat) : FailsOnly reading.Misses (reading.symbols.flag id) := by
  unfold Symbols.flag
  split
  · trivial
  · rename_i none
    exact .flag (length_le_of_entryAt none)

theorem failsOnly_reference (id : Nat) :
    FailsOnly reading.Misses (reading.symbols.reference id) := by
  unfold Symbols.reference
  split
  · trivial
  · rename_i none
    exact .reference (length_le_of_entryAt none)

end Reading

/-! ### Relations between readings -/

namespace Decoder

theorem lift_ok_bind {α β : Type} (value : α) (next : α → Decoder β) :
    (lift (.ok value) >>= next) = next value := rfl

theorem lift_error_bind {α β : Type} (fault : Fault) (next : α → Decoder β) :
    (lift (.error fault) >>= next) = lift (.error fault) := rfl

/-- Gives the line that was begun last a comment, if there is one. -/
def note : Option String → Decoder Unit
  | some text => comment text
  | none => Pure.pure ()

theorem result_note (text : Option String) (scan : Scan) :
    (note text).result scan = (.ok (), { scan with
      lines := scan.lines.modifyHead fun line => { line with comment := text.or line.comment } }) := by
  cases text with
  | some text => exact result_changeLine _ scan
  | none =>
    obtain ⟨rest, position, depth, lines, labels, notices⟩ := scan
    cases lines with
    | nil => rfl
    | cons line others => rfl

/-- The comment on a dialogue label. -/
def subtitleNote (reading : Reading) (label : String) : Option String :=
  (reading.symbols.subtitle? label).map fun subtitle => "Dlg " ++ label ++ " = " ++ subtitle

theorem dialogueLabel_eq (reading : Reading) :
    dialogueLabel reading = (do
      let taken ← take reading dialogueLabelSize
      note (subtitleNote reading (Bytes.toText taken))
      emit ("\"" ++ Bytes.toText taken ++ "\"")) := by
  refine congrArg (take reading dialogueLabelSize >>= ·) (funext fun taken => ?_)
  unfold subtitleNote
  dsimp only
  cases reading.symbols.subtitle? (Bytes.toText taken) <;> rfl

theorem flag_eq (reading : Reading) (bound : Nat) (value : ValueReader) (position : Position) :
    flag reading bound value position = (do
      let id ← word reading
      let found ← lift (reading.symbols.flag id)
      emit found.name
      continuation reading bound value position 2
      if position = .statement then note found.comment else Pure.pure ()) := by
  refine congrArg (word reading >>= ·) (funext fun id => ?_)
  refine congrArg (lift (reading.symbols.flag id) >>= ·) (funext fun found => ?_)
  cases found.comment <;> rfl

/-- A relation between two readings that holds of their single steps. -/
structure Relates (one two : Reading) (holds : (α : Type) → Decoder α → Decoder α → Prop) :
    Prop where
  agrees : one.Agrees two
  pure : ∀ {α : Type} (value : α), holds α (Pure.pure value) (Pure.pure value)
  bind : ∀ {α β : Type} {first second : Decoder α} {next later : α → Decoder β},
    holds α first second → (∀ value, holds β (next value) (later value)) →
      holds β (first >>= next) (second >>= later)
  lift : ∀ {α : Type} {attempt : Except Fault α}, FailsOnly one.Misses attempt →
    holds α (Decoder.lift attempt) (Decoder.lift attempt)
  take : ∀ size, holds Bytes (Decoder.take one size) (Decoder.take two size)
  position : holds Nat Decoder.position Decoder.position
  emit : ∀ text, holds Unit (Decoder.emit text) (Decoder.emit text)
  emitLabel : ∀ address, holds Unit (Decoder.emitLabel address) (Decoder.emitLabel address)
  unknown : ∀ kind value offset,
    holds Unit (Decoder.unknown one kind value offset) (Decoder.unknown two kind value offset)
  subtitle : ∀ label,
    holds Unit (note (subtitleNote one label)) (note (subtitleNote two label))
  flagComment : ∀ {id : Int} {first second : GameFlag}, one.symbols.flag id = .ok first →
    two.symbols.flag id = .ok second → holds Unit (note first.comment) (note second.comment)

namespace Relates

variable {one two : Reading} {holds : (α : Type) → Decoder α → Decoder α → Prop}
  (relates : Relates one two holds)

include relates

theorem discard {α : Type} {first second : Decoder α} (related : holds α first second) :
    holds Unit (Functor.discard first) (Functor.discard second) :=
  relates.bind related fun _ => relates.pure ()

theorem byte : holds UInt8 (Decoder.byte one) (Decoder.byte two) :=
  relates.bind (relates.take 1) fun _ => relates.pure _

theorem word : holds Nat (Decoder.word one) (Decoder.word two) :=
  relates.bind (relates.take 2) fun _ => relates.pure _

theorem long : holds Nat (Decoder.long one) (Decoder.long two) :=
  relates.bind (relates.take 4) fun _ => relates.pure _

theorem signedLong : holds Int (Decoder.signedLong one) (Decoder.signedLong two) :=
  relates.bind (relates.take 4) fun _ => relates.pure _

theorem repeatWhile {first second : Decoder Bool} (related : holds Bool first second)
    (bound : Nat) :
    holds Unit (Decoder.repeatWhile bound first) (Decoder.repeatWhile bound second) := by
  induction bound with
  | zero => exact relates.discard related
  | succ bound inductionHypothesis =>
    refine relates.bind related fun again => ?_
    cases again with
    | true => exact inductionHypothesis
    | false => exact relates.pure ()

/-! ### Operators and names -/

theorem operator : holds Bool (Decoder.operator one) (Decoder.operator two) := by
  refine relates.bind relates.position fun offset => relates.bind relates.byte fun code => ?_
  split
  · exact relates.bind (relates.emit _) fun _ => relates.pure _
  · exact relates.bind (relates.emit _) fun _ =>
      relates.bind (relates.discard relates.byte) fun _ => relates.pure _
  · by_cases none : code = 0
    · simp only [none, if_true]
      exact relates.bind (relates.pure ()) fun _ => relates.pure _
    · simp only [none, if_false]
      exact relates.bind (relates.unknown _ _ _) fun _ => relates.pure _

theorem operators {first second : Decoder Unit} (term : holds Unit first second) (bound : Nat) :
    holds Unit (Decoder.operators one bound first) (Decoder.operators two bound second) := by
  refine relates.repeatWhile (relates.bind relates.operator fun again => ?_) bound
  cases again with
  | true => exact relates.bind term fun _ => relates.pure _
  | false => exact relates.pure _

theorem formula {first second : Decoder Unit} (term : holds Unit first second) (bound : Nat) :
    holds Unit (Decoder.formula one bound first) (Decoder.formula two bound second) :=
  relates.bind (relates.emit _) fun _ =>
    relates.bind term fun _ => relates.operators term bound

theorem objectName : holds Unit (Decoder.objectName one) (Decoder.objectName two) := by
  have program := relates.agrees.program_eq
  have strings (index : Nat) : headerString one index = headerString two index := by
    rw [headerString, headerString, program]
  have objects (index : Nat) : variableObject one index = variableObject two index := by
    rw [variableObject, variableObject, program]
  refine relates.bind relates.position fun offset => relates.bind relates.byte fun selector => ?_
  have dot := relates.emit "."
  dsimp only
  split
  · exact relates.bind (relates.emit _) fun _ =>
      relates.bind (relates.discard relates.byte) fun _ => dot
  · split
    · refine relates.bind relates.byte fun index => ?_
      rw [← strings]
      exact relates.bind (relates.lift (one.failsOnly_headerString _)) fun _ =>
        relates.bind (relates.emit _) fun _ => dot
    · split
      · refine relates.bind relates.byte fun index => ?_
        rw [← objects]
        exact relates.bind (relates.lift (one.failsOnly_variableObject _)) fun _ =>
          relates.bind (relates.emit _) fun _ => dot
      · exact relates.bind (relates.unknown _ _ _) fun _ => dot

theorem referenceName : holds Unit (Decoder.referenceName one) (Decoder.referenceName two) := by
  refine relates.bind relates.word fun number => ?_
  rw [← relates.agrees.reference_eq]
  exact relates.bind (relates.lift (one.failsOnly_reference _)) fun _ => relates.emit _

theorem dialogueLabel : holds Unit (Decoder.dialogueLabel one) (Decoder.dialogueLabel two) := by
  rw [dialogueLabel_eq, dialogueLabel_eq]
  exact relates.bind (relates.take _) fun taken =>
    relates.bind (relates.subtitle (Bytes.toText taken)) fun _ => relates.emit _

theorem number (position : Position) (slot : Option Slot) :
    holds Unit (Decoder.number one position slot) (Decoder.number two position slot) := by
  unfold Decoder.number
  have kind : (slot.map fun slot => one.symbols.parameterKind slot.function slot.index) =
      slot.map fun slot => two.symbols.parameterKind slot.function slot.index :=
    congrArg slot.map (funext fun slot => relates.agrees.parameterKind_eq _ _)
  split
  · simp only [kind]
    split
    · exact relates.dialogueLabel
    · refine relates.bind relates.signedLong fun value => ?_
      rw [relates.agrees.typedNumber_eq]
      exact relates.emit _
  · exact relates.bind relates.signedLong fun value => relates.emit _

theorem optionalJump (kind : JumpKind) :
    holds Unit (Decoder.optionalJump one kind) (Decoder.optionalJump two kind) := by
  refine relates.bind relates.long fun address => relates.bind (relates.emit _) fun _ => ?_
  split
  · exact relates.pure ()
  · exact relates.bind (relates.emit _) fun _ => relates.emitLabel address

/-! ### Values -/

section Values

variable {value other : ValueReader}
  (values : ∀ place slot, holds (Option String) (value place slot) (other place slot))

include values

theorem arguments (function : String) (index count : Nat) :
    holds Unit (Decoder.arguments value function index count)
      (Decoder.arguments other function index count) := by
  induction count generalizing index with
  | zero => exact relates.pure ()
  | succ count inductionHypothesis =>
    have rest := relates.bind (relates.discard (values .parameter (some ⟨function, index⟩)))
      fun _ => inductionHypothesis (index + 1)
    unfold Decoder.arguments
    split
    · exact rest
    · exact relates.bind (relates.emit _) fun _ => rest

theorem call (multitask : Bool) :
    holds (Option String) (Decoder.call one value multitask) (Decoder.call two other multitask) := by
  refine relates.bind relates.word fun id => ?_
  rw [← relates.agrees.function_eq]
  refine relates.bind (relates.lift (one.failsOnly_function id)) fun function =>
    relates.bind (relates.emit _) fun _ => ?_
  have rest (count : UInt8) := relates.bind (relates.arguments values function.name 0 count.toNat)
    fun _ => relates.bind (relates.emit ")") fun _ => relates.pure (some function.name)
  dsimp only
  split
  · exact rest 0
  · exact relates.bind relates.byte rest

theorem continuation (bound : Nat) (position : Position) (size : Nat) :
    holds Unit (Decoder.continuation one bound value position size)
      (Decoder.continuation two bound other position size) := by
  have term := relates.discard (values .formula none)
  cases position with
  | statement => exact relates.formula term bound
  | left => exact relates.operators term bound
  | right => exact relates.operators term bound
  | parameter => exact relates.discard (relates.take size)
  | _ => exact relates.pure ()

theorem flag (bound : Nat) (position : Position) :
    holds Unit (Decoder.flag one bound value position) (Decoder.flag two bound other position) := by
  rw [flag_eq, flag_eq]
  refine relates.bind relates.word fun id => ?_
  rcases relates.agrees.flag_cases id with ⟨first, second, here, there, name⟩ | ⟨fault, here, there⟩
  · rw [here, there, lift_ok_bind, lift_ok_bind, name]
    refine relates.bind (relates.emit _) fun _ =>
      relates.bind (relates.continuation values bound position 2) fun _ => ?_
    split
    · exact relates.flagComment here there
    · exact relates.pure ()
  · have missed := one.failsOnly_flag id
    rw [here] at missed
    rw [here, there, lift_error_bind, lift_error_bind]
    exact relates.lift missed

theorem localVariable (bound : Nat) (position : Position) :
    holds Unit (Decoder.localVariable one bound value position)
      (Decoder.localVariable two bound other position) :=
  relates.bind relates.byte fun _ => relates.bind (relates.emit _) fun _ =>
    relates.continuation values bound position 3

theorem property (bound : Nat) (position : Position) :
    holds Unit (Decoder.property one bound value position)
      (Decoder.property two bound other position) := by
  refine relates.bind relates.objectName fun _ => relates.bind relates.referenceName fun _ => ?_
  split
  · exact relates.continuation values bound position 0
  · exact relates.pure ()

theorem clause : holds Bool (Decoder.clause one value) (Decoder.clause two other) := by
  refine relates.bind (values .left none) fun called => relates.bind relates.position fun offset =>
    relates.bind relates.byte fun code => ?_
  dsimp only
  split
  case' h_1 => refine relates.bind (relates.emit _) fun _ => ?_
  case' h_2 => refine relates.bind (relates.unknown _ _ _) fun _ => ?_
  all_goals
    refine relates.bind (relates.discard (values .right _)) fun _ =>
      relates.bind relates.position fun offset => relates.bind relates.byte fun code => ?_
    split
    · exact relates.bind (relates.unknown _ _ _) fun _ => relates.pure _
    · exact relates.pure _
    · exact relates.bind (relates.emit _) fun _ => relates.pure _

/-- What an opcode stands for, given the values and blocks inside it. -/
theorem operand {bound : Nat}
    (blocks : ∀ stop, holds Unit
      (Decoder.block bound stop (Functor.discard (value .statement none)))
      (Decoder.block bound stop (Functor.discard (other .statement none))))
    (position : Position) (slot : Option Slot) (opcode : Opcode) :
    holds (Option String) (Decoder.operand one bound value position slot opcode)
      (Decoder.operand two bound other position slot opcode) := by
  have alone {first second : Decoder Unit} (related : holds Unit first second) :
      holds (Option String) (first >>= fun _ => Pure.pure none)
        (second >>= fun _ => Pure.pure none) :=
    relates.bind related fun _ => relates.pure none
  cases opcode with
  | task => exact relates.call values false
  | function => exact relates.call values false
  | multitask => exact relates.call values true
  | branch =>
    refine alone (relates.bind (relates.emit _) fun _ => ?_)
    exact relates.bind (relates.repeatWhile (relates.clause values) bound) fun _ =>
      relates.bind relates.long blocks
  | goto => exact alone (relates.optionalJump .goto)
  | stop => exact alone (relates.optionalJump .stop)
  | flag => exact alone (relates.flag values bound position)
  | number => exact alone (relates.number position slot)
  | flagNumber => exact alone (relates.number position slot)
  | localVariable => exact alone (relates.localVariable values bound position)
  | increment =>
    exact relates.bind relates.objectName fun _ => relates.bind relates.referenceName fun _ =>
      alone (relates.emit _)
  | decrement =>
    exact relates.bind relates.objectName fun _ => relates.bind relates.referenceName fun _ =>
      alone (relates.emit _)
  | gosub =>
    exact relates.bind relates.long fun address => relates.bind (relates.emit _) fun _ =>
      alone (relates.emitLabel address)
  | giveBack => exact alone (relates.emit _)
  | endInterrupt => exact alone (relates.emit _)
  | property => exact alone (relates.property values bound position)
  | string =>
    refine relates.bind relates.long fun index => ?_
    have same : headerString two index = headerString one index := by
      rw [headerString, headerString, relates.agrees.program_eq]
    rw [same]
    exact relates.bind (relates.lift (one.failsOnly_headerString _)) fun _ =>
      alone (relates.emit _)
  | anchor =>
    exact relates.bind relates.byte fun place => relates.bind (relates.emit _) fun _ =>
      alone (relates.emit _)
  | objectTask =>
    refine relates.bind relates.objectName fun _ => ?_
    split
    · exact values .behindObject none
    · exact relates.call values false
  | objectFunction =>
    refine relates.bind relates.objectName fun _ => ?_
    split
    · exact values .behindObject none
    · exact relates.call values false
  | taskPause =>
    exact relates.bind relates.long fun address => relates.bind (relates.emit _) fun _ =>
      relates.bind (relates.emitLabel address) fun _ => alone (relates.emit _)
  | returnGuard =>
    refine alone (relates.bind relates.byte fun expected => relates.bind (relates.emit _) fun _ => ?_)
    exact relates.bind (relates.emit _) fun _ => relates.bind relates.position fun start =>
      blocks _

end Values

end Relates

/-! ### Blocks -/

/-- A relation that holds of the steps between lines, too. -/
structure RelatesLines (one two : Reading)
    (holds : (α : Type) → Decoder α → Decoder α → Prop) : Prop extends Relates one two holds where
  beginLine : holds Unit Decoder.beginLine Decoder.beginLine
  deepen : holds Unit (modify fun scan => { scan with depth := scan.depth + 1 })
    (modify fun scan => { scan with depth := scan.depth + 1 })
  surface : holds Unit (modify fun scan => { scan with depth := scan.depth - 1 })
    (modify fun scan => { scan with depth := scan.depth - 1 })
  markEmpty : holds Unit (changeLine fun line => { line with emptyBlock := true })
    (changeLine fun line => { line with emptyBlock := true })

namespace RelatesLines

variable {one two : Reading} {holds : (α : Type) → Decoder α → Decoder α → Prop}
  (relates : RelatesLines one two holds)

include relates

theorem block {first second : Decoder Unit} (statement : holds Unit first second)
    (bound stop : Nat) :
    holds Unit (Decoder.block bound stop first) (Decoder.block bound stop second) := by
  refine relates.bind relates.position fun place => ?_
  split
  · refine relates.bind relates.deepen fun _ => relates.bind (relates.repeatWhile ?_ bound) fun _ =>
      relates.surface
    refine relates.bind relates.position fun place => ?_
    split
    · exact relates.bind relates.beginLine fun _ => relates.bind statement fun _ => relates.pure _
    · exact relates.pure _
  · exact relates.markEmpty

/-- The relation holds of all values. -/
theorem value (bound : Nat) (place : Position) (slot : Option Slot) :
    holds (Option String) (Decoder.value one bound place slot)
      (Decoder.value two bound place slot) := by
  induction bound generalizing place slot with
  | zero => exact relates.bind (relates.discard relates.byte) fun _ => relates.pure none
  | succ bound inductionHypothesis =>
    refine relates.bind relates.position fun offset => relates.bind relates.byte fun code => ?_
    split
    · have statement := relates.discard (inductionHypothesis .statement none)
      exact relates.operand inductionHypothesis (relates.block statement bound) place slot _
    · exact relates.bind (relates.unknown _ _ _) fun _ => relates.pure none

/-- The relation holds of whole scripts. -/
theorem script : holds Unit (Decoder.script one) (Decoder.script two) := by
  unfold Decoder.script
  rw [relates.agrees.program_eq]
  exact relates.block (relates.discard (relates.value _ .statement none)) _ _

end RelatesLines

end Decoder

/-! ### Listings -/

/-- Whether a script can be listed, and as what, is settled by reading its code; what is
left is notices. -/
theorem Program.gives_listing (program : Program) (symbols : Symbols) (lenient : Bool) :
    (program.listing symbols lenient).Gives
      (((Decoder.script ⟨program, symbols, lenient⟩).result (.start program.code)).1.map fun _ =>
        ((Decoder.script ⟨program, symbols, lenient⟩).result (.start program.code)).2.listing
          program) := by
  have same : ExceptT.run (Decoder.script ⟨program, symbols, lenient⟩) (.start program.code) =
    (Decoder.script ⟨program, symbols, lenient⟩).result (.start program.code) := rfl
  unfold Program.listing
  rw [same]
  cases (Decoder.script ⟨program, symbols, lenient⟩).result (.start program.code) with
  | mk attempt scan =>
    have noted := (Logged.gives_resume (attempt, scan.notices)).bind fun _ =>
      (Logged.gives_notes (Notice.looseLabel program.name)
        ((scan.listing program).looseLabels program.code.length)).bind fun _ =>
        Logged.gives_pure (scan.listing program)
    cases attempt with
    | error fault => exact noted
    | ok value => exact noted

theorem Program.fst_outcome_listing (program : Program) (symbols : Symbols) (lenient : Bool) :
    (program.listing symbols lenient).outcome.1 =
      ((Decoder.script ⟨program, symbols, lenient⟩).result (.start program.code)).1.map fun _ =>
        ((Decoder.script ⟨program, symbols, lenient⟩).result (.start program.code)).2.listing
          program :=
  (program.gives_listing symbols lenient).outcome

/-- A listing is what reading the code has found when it has come to its end. -/
theorem Program.exists_scan_of_listing {program : Program} {symbols : Symbols} {lenient : Bool}
    {listing : Listing} (listed : (program.listing symbols lenient).outcome.1 = .ok listing) :
    ∃ scan, (Decoder.script ⟨program, symbols, lenient⟩).result (.start program.code) =
      (.ok (), scan) ∧ listing = scan.listing program := by
  rw [fst_outcome_listing] at listed
  generalize (Decoder.script ⟨program, symbols, lenient⟩).result (.start program.code) = reached
    at listed
  obtain ⟨attempt, scan⟩ := reached
  cases attempt with
  | error fault => cases listed
  | ok done => exact ⟨scan, rfl, (Except.ok.inj listed).symm⟩

end MapScript
