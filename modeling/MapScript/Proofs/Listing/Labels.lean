/-
This file proves that a listing accounts for every label that it prints. An operand is
recorded when it is printed, and nothing that is recorded is lost; so a label outside of what
was recorded is never printed, and how it would be spelled does not matter. Statements stand
at different addresses before the end of the code. So a label that leads to one of them, or to
the end, is defined once, right before the statement or before the last brace; any other label
is not defined, and a notice is left about it instead, also once.
-/

import Mathlib.Data.List.Count
import Mathlib.Data.List.Nodup
import MapScript.Proofs.Listing.Braces

namespace MapScript

/-! ### Labels in ascending order -/

theorem pairwise_insertLabel {label : Nat} {labels : List Nat} (sorted : labels.Pairwise (· < ·)) :
    (insertLabel label labels).Pairwise (· < ·) := by
  induction labels with
  | nil => exact List.pairwise_singleton _ _
  | cons first rest inductionHypothesis =>
    obtain ⟨before, ascending⟩ := List.pairwise_cons.mp sorted
    unfold insertLabel
    split
    · rename_i smaller
      refine List.pairwise_cons.mpr ⟨List.forall_mem_cons.mpr ⟨smaller, fun other member => ?_⟩,
        sorted⟩
      exact Nat.lt_trans smaller (before other member)
    · split
      · exact sorted
      · rename_i notSmaller different
        refine List.pairwise_cons.mpr ⟨fun other member => ?_, inductionHypothesis ascending⟩
        rcases mem_insertLabel.mp member with rfl | inside
        · omega
        · exact before other inside

/-! ### Labels and notices that reading leaves -/

/-- Reading a program of a name has gone on from one state to another: no label was lost, labels
stay in ascending order, and the notices that were left are about bytes that were skipped. -/
structure Scan.Gathers (name : String) (first second : Scan) : Prop where
  kept : ∀ label ∈ first.labels, label ∈ second.labels
  sorted : first.labels.Pairwise (· < ·) → second.labels.Pairwise (· < ·)
  skipped : ∀ notice ∈ second.notices,
    notice ∈ first.notices ∨ ∃ kind value offset, notice = .skipped name kind value offset

theorem Scan.Gathers.quiet {name : String} {first second : Scan}
    (labels : second.labels = first.labels) (notices : second.notices = first.notices) :
    first.Gathers name second where
  kept := fun _ member => labels ▸ member
  sorted := fun sorted => labels ▸ sorted
  skipped := fun _ member => Or.inl (notices ▸ member)

theorem Scan.Gathers.trans {name : String} {first second third : Scan}
    (one : first.Gathers name second) (two : second.Gathers name third) :
    first.Gathers name third where
  kept := fun label member => two.kept label (one.kept label member)
  sorted := fun sorted => two.sorted (one.sorted sorted)
  skipped := fun notice member => (two.skipped notice member).elim (one.skipped notice) Or.inr

namespace Decoder

variable {α β : Type} {reading : Reading}

/-! ### Operands in another spelling -/

/-- Records that an address is referred to, and adds its label to the line in a spelling. -/
def emitSpelled (spell : Nat → String) (address : Nat) : Decoder Unit := do
  modify fun scan => { scan with labels := insertLabel address scan.labels }
  emit (spell address)

/-- Reads a jump that may go nowhere, with its label in a spelling. -/
def optionalJumpSpelled (spell : Nat → String) (reading : Reading) (kind : JumpKind) :
    Decoder Unit := do
  let address ← long reading
  emit kind.text
  unless address = 0 do
    emit " "
    emitSpelled spell address

/-- Reads what an opcode stands for. The operands of jumps and pauses are the labels that are
printed here; they are written in a spelling. -/
def operandSpelled (spell : Nat → String) (reading : Reading) (bound : Nat) (value : ValueReader)
    (position : Position) (slot : Option Slot) : Opcode → Decoder (Option String)
  | .goto => do
    optionalJumpSpelled spell reading .goto
    pure none
  | .stop => do
    optionalJumpSpelled spell reading .stop
    pure none
  | .gosub => do
    let address ← long reading
    emit (JumpKind.gosub.text ++ " ")
    emitSpelled spell address
    pure none
  | .taskPause => do
    let address ← long reading
    emit "<TaskPause("
    emitSpelled spell address
    emit ")>"
    pure none
  | opcode => operand reading bound value position slot opcode

/-- Reads a value, with the operands of jumps and pauses in a spelling. -/
def valueSpelled (spell : Nat → String) (reading : Reading) : (bound : Nat) → ValueReader
  | 0, _, _ => do
    discard (byte reading)
    pure none
  | bound + 1, place, slot => do
    let offset ← position
    let code ← byte reading
    match Opcode.ofCode? code with
    | some opcode =>
      operandSpelled spell reading bound (valueSpelled spell reading bound) place slot opcode
    | none =>
      unknown reading .opcode code offset
      pure none

/-- Reads all statements of a script, with the operands of jumps and pauses in a spelling. -/
def scriptSpelled (spell : Nat → String) (reading : Reading) : Decoder Unit :=
  let length := reading.program.code.length
  block length length (discard (valueSpelled spell reading length .statement none))

theorem operandSpelled_labelText (reading : Reading) (bound : Nat) (value : ValueReader) :
    operandSpelled (fun address => labelText address) reading bound value =
      operand reading bound value := by
  funext position slot opcode
  cases opcode <;> rfl

theorem valueSpelled_labelText (reading : Reading) (bound : Nat) :
    valueSpelled (fun address => labelText address) reading bound = value reading bound := by
  induction bound with
  | zero => rfl
  | succ bound inductionHypothesis =>
    have operands : operandSpelled (fun address => labelText address) reading bound
        (valueSpelled (fun address => labelText address) reading bound) =
        operand reading bound (value reading bound) := by
      rw [inductionHypothesis, operandSpelled_labelText]
    funext place slot
    exact congrArg (fun read : Position → Option Slot → Opcode → Decoder (Option String) => do
      let offset ← position
      let code ← byte reading
      match Opcode.ofCode? code with
      | some opcode => read place slot opcode
      | none =>
        unknown reading .opcode code offset
        pure none) operands

/-- In its own spelling this is the reading of a script. -/
theorem scriptSpelled_labelText (reading : Reading) :
    scriptSpelled (fun address => labelText address) reading = script reading := by
  simp only [scriptSpelled, script, valueSpelled_labelText]

/-! ### A label that is not recorded is not printed -/

/-- A reading that succeeds gathers labels and notices, and comes to the same as another one
that spells labels differently, if the labels that are recorded in the end are spelled alike. -/
def Spelled (spell : Nat → String) (name : String) (first second : Decoder α) : Prop :=
  ∀ scan value next, first.result scan = (.ok value, next) → scan.Gathers name next ∧
    ((∀ label ∈ next.labels, spell label = labelText label) →
      second.result scan = (.ok value, next))

variable {spell : Nat → String} {name : String}

theorem spelled_self {decoder : Decoder α}
    (gathers : ∀ scan value next, decoder.result scan = (.ok value, next) →
      scan.Gathers name next) : Spelled spell name decoder decoder :=
  fun scan value next done => ⟨gathers scan value next done, fun _ => done⟩

theorem spelled_pure (value : α) : Spelled spell name (pure value) (pure value) :=
  spelled_self fun _ _ _ done => by
    cases done
    exact .quiet rfl rfl

theorem spelled_bind {first second : Decoder α} {next later : α → Decoder β}
    (front : Spelled spell name first second)
    (back : ∀ value, Spelled spell name (next value) (later value)) :
    Spelled spell name (first >>= next) (second >>= later) := by
  intro scan value final done
  obtain ⟨found, middle, firstOk, nextOk⟩ := result_bind_eq_ok.mp done
  obtain ⟨one, same⟩ := front scan found middle firstOk
  obtain ⟨two, alike⟩ := back found middle value final nextOk
  refine ⟨one.trans two, fun agrees => ?_⟩
  rw [result_bind (same fun label member => agrees label (two.kept label member))]
  exact alike agrees

theorem spelled_changeLine (change : ListedLine → ListedLine) :
    Spelled spell name (changeLine change) (changeLine change) :=
  spelled_self fun scan _ _ done => by
    rw [result_changeLine] at done
    cases done
    exact .quiet rfl rfl

theorem spelled_note (text : Option String) : Spelled spell name (note text) (note text) :=
  spelled_self fun scan _ _ done => by
    rw [result_note] at done
    cases done
    exact .quiet rfl rfl

theorem spelled_modify {change : Scan → Scan}
    (gathers : ∀ scan : Scan, scan.Gathers name (change scan)) :
    Spelled spell name (modify change) (modify change) :=
  spelled_self fun scan _ _ done => by
    cases done
    exact gathers scan

theorem gathers_insertLabel (address : Nat) (scan : Scan) :
    scan.Gathers name { scan with labels := insertLabel address scan.labels } where
  kept := fun _ member => mem_insertLabel.mpr (Or.inr member)
  sorted := pairwise_insertLabel
  skipped := fun _ member => Or.inl member

/-- A label is recorded before it is written. -/
theorem spelled_emitLabel (address : Nat) :
    Spelled spell name (emitLabel address) (emitSpelled spell address) := by
  intro scan value next done
  obtain ⟨_, middle, recorded, written⟩ := result_bind_eq_ok.mp done
  cases recorded
  have printed := (@spelled_changeLine spell name _ _ value next written).1
  refine ⟨(gathers_insertLabel address scan).trans printed, fun agrees => ?_⟩
  have here : spell address = labelText address :=
    agrees address (printed.kept address (mem_insertLabel.mpr (Or.inl rfl)))
  rw [emitSpelled, here]
  exact done

theorem relates_spelled (spell : Nat → String) (reading : Reading) :
    RelatesLines reading reading fun _ => Spelled spell reading.program.name where
  agrees := ⟨rfl, rfl⟩
  pure := spelled_pure
  bind := spelled_bind
  lift {_ attempt} _ := spelled_self fun _ _ _ done => by
    cases attempt <;> cases done
    exact .quiet rfl rfl
  take _ := spelled_self fun _ _ _ done => by
    obtain ⟨-, -, rfl⟩ := take_eq_ok done
    exact .quiet rfl rfl
  position := spelled_self fun _ _ _ done => by
    cases done
    exact .quiet rfl rfl
  emit _ := spelled_changeLine _
  emitLabel address := spelled_bind (spelled_modify (gathers_insertLabel address)) fun _ =>
    spelled_changeLine _
  unknown kind value offset := spelled_self fun scan _ _ done => by
    unfold unknown at done
    split at done <;> cases done
    refine ⟨fun _ member => member, id, fun notice member => ?_⟩
    rcases List.mem_append.mp member with earlier | here
    · exact Or.inl earlier
    · exact Or.inr ⟨kind, value.toNat, offset, List.mem_singleton.mp here⟩
  subtitle _ := spelled_note _
  flagComment here there := by
    cases here.symm.trans there
    exact spelled_note _
  beginLine := spelled_modify fun _ => .quiet rfl rfl
  deepen := spelled_modify fun _ => .quiet rfl rfl
  surface := spelled_modify fun _ => .quiet rfl rfl
  markEmpty := spelled_changeLine _

theorem spelled_optionalJump (kind : JumpKind) :
    Spelled spell reading.program.name (optionalJump reading kind)
      (optionalJumpSpelled spell reading kind) := by
  have relates := relates_spelled spell reading
  refine relates.bind relates.long fun address => relates.bind (relates.emit _) fun _ => ?_
  split
  · exact relates.pure ()
  · exact relates.bind (relates.emit _) fun _ => spelled_emitLabel address

theorem spelled_operand {bound : Nat} {value other : ValueReader}
    (values : ∀ place slot, Spelled spell reading.program.name (value place slot)
      (other place slot)) (position : Position) (slot : Option Slot) (opcode : Opcode) :
    Spelled spell reading.program.name (operand reading bound value position slot opcode)
      (operandSpelled spell reading bound other position slot opcode) := by
  have relates := relates_spelled spell reading
  have blocks := relates.block (relates.discard (values .statement none)) bound
  cases opcode with
  | goto => exact relates.bind (spelled_optionalJump .goto) fun _ => relates.pure none
  | stop => exact relates.bind (spelled_optionalJump .stop) fun _ => relates.pure none
  | gosub =>
    exact relates.bind relates.long fun address => relates.bind (relates.emit _) fun _ =>
      relates.bind (spelled_emitLabel address) fun _ => relates.pure none
  | taskPause =>
    exact relates.bind relates.long fun address => relates.bind (relates.emit _) fun _ =>
      relates.bind (spelled_emitLabel address) fun _ =>
        relates.bind (relates.emit _) fun _ => relates.pure none
  | _ => exact relates.operand values blocks position slot _

theorem spelled_value (spell : Nat → String) (reading : Reading) (bound : Nat) (place : Position)
    (slot : Option Slot) :
    Spelled spell reading.program.name (value reading bound place slot)
      (valueSpelled spell reading bound place slot) := by
  have relates := relates_spelled spell reading
  induction bound generalizing place slot with
  | zero => exact relates.bind (relates.discard relates.byte) fun _ => relates.pure none
  | succ bound inductionHypothesis =>
    refine relates.bind relates.position fun offset => relates.bind relates.byte fun code => ?_
    cases Opcode.ofCode? code with
    | some opcode => exact spelled_operand inductionHypothesis place slot opcode
    | none => exact relates.bind (relates.unknown _ _ _) fun _ => relates.pure none

theorem spelled_script (spell : Nat → String) (reading : Reading) :
    Spelled spell reading.program.name (script reading) (scriptSpelled spell reading) := by
  have relates := relates_spelled spell reading
  exact relates.block (relates.discard (spelled_value spell reading _ .statement none)) _ _

end Decoder

/-! ### Definitions of labels in the text -/

/-- The label that a line defines. -/
def TextLine.defined? : TextLine → Option Nat
  | label _ address => some address
  | _ => none

namespace Listing

/-- In these lines every definition of a label stands right before a statement at its address. -/
def DefinesNext (lines : List TextLine) : Prop :=
  ∀ before depth label after, lines = before ++ .label depth label :: after →
    ∃ line rest, after = .statement line :: rest ∧ line.address = label

theorem definesNext_of_not_mem {lines : List TextLine}
    (none : ∀ depth label, .label depth label ∉ lines) : DefinesNext lines :=
  fun before depth label _ split => absurd
    (split ▸ List.mem_append_right before List.mem_cons_self) (none depth label)

theorem DefinesNext.append {front back : List TextLine} (one : DefinesNext front)
    (two : DefinesNext back) : DefinesNext (front ++ back) := by
  intro before depth label after split
  rcases List.append_eq_append_iff.mp split with ⟨more, rfl, rest⟩ | ⟨more, whole, rest⟩
  · exact two more depth label after rest
  · cases more with
    | nil => exact two [] depth label after rest.symm
    | cons first more =>
      cases rest
      obtain ⟨line, rest, rfl, there⟩ := one before depth label more whole
      exact ⟨line, rest ++ back, rfl, there⟩

theorem definesNext_sheetBetween (previous next : Nat) :
    DefinesNext (sheetBetween previous next) := by
  refine definesNext_of_not_mem fun depth label member => ?_
  have kept : .label depth label ∈ (sheetBetween previous next).filter (!·.isBrace) :=
    List.mem_filter.mpr ⟨member, rfl⟩
  rw [filter_sheetBetween] at kept
  cases kept

theorem definesNext_sheetStatement (labels : List Nat) (line : ListedLine) :
    DefinesNext (sheetStatement labels line) := by
  unfold sheetStatement sheetLabel
  split
  · intro before depth label after split
    rcases before with _ | ⟨gap, _ | ⟨named, _ | ⟨written, before⟩⟩⟩
    · cases split
    · cases split
      exact ⟨line, [], rfl, rfl⟩
    · cases split
    · simp at split
  · exact definesNext_of_not_mem fun depth label => by simp

theorem definesNext_sheetLines (labels : List Nat) (previous : Nat) (lines : List ListedLine) :
    DefinesNext (sheetLines labels previous lines) := by
  induction lines generalizing previous with
  | nil => exact definesNext_of_not_mem fun _ _ => List.not_mem_nil
  | cons line rest inductionHypothesis =>
    refine (((definesNext_sheetBetween _ _).append (definesNext_sheetStatement _ _)).append
      (definesNext_of_not_mem fun depth label => ?_)).append (inductionHypothesis line.depth)
    split <;> simp

/-- The label at the end stands right before the last brace. -/
theorem after_label_end {labels : List Nat} {length depth label : Nat}
    {before after : List TextLine}
    (split : sheetLabel labels 1 length ++ [.closing 0] = before ++ .label depth label :: after) :
    label = length ∧ after = [.closing 0] := by
  unfold sheetLabel at split
  split at split
  · rcases before with _ | ⟨gap, _ | ⟨named, _ | ⟨brace, before⟩⟩⟩
    · cases split
    · cases split
      exact ⟨rfl, rfl⟩
    · cases split
    · simp at split
  · rcases before with _ | ⟨brace, before⟩
    · cases split
    · simp at split

/-- A label is defined right before a statement at its address, or right before the last brace. -/
theorem after_label_sheet {listing : Listing} {program : Program} {before after : List TextLine}
    {depth label : Nat} (split : listing.sheet program = before ++ .label depth label :: after) :
    (∃ line rest, after = .statement line :: rest ∧ line.address = label) ∨
      (label = program.code.length ∧ after = [.closing 0]) := by
  have front := (definesNext_sheetLines listing.labels 0 listing.lines).append
    (definesNext_sheetBetween (lastDepth 0 listing.lines) 1)
  cases before with
  | nil => cases split
  | cons title before =>
    obtain ⟨-, rest⟩ := List.cons_eq_cons.mp split
    rw [sheetBody, List.append_assoc _ _ [TextLine.closing 0]] at rest
    rcases List.append_eq_append_iff.mp rest with ⟨more, rfl, behind⟩ | ⟨more, whole, behind⟩
    · exact Or.inr (after_label_end behind)
    · cases more with
      | nil => exact Or.inr (@after_label_end _ _ depth label [] after behind.symm)
      | cons first more =>
        cases behind
        obtain ⟨line, rest, rfl, there⟩ := front before depth label more whole
        exact Or.inl ⟨line, _, rfl, there⟩

/-- The labels that are defined in a text: those of statements, and that of the end. -/
theorem filterMap_defined?_sheet (listing : Listing) (program : Program) :
    (listing.sheet program).filterMap TextLine.defined? =
      (listing.lines.map ListedLine.address ++ [program.code.length]).filter
        listing.labels.contains := by
  have unseen (line : TextLine) (brace : line.isBrace = true) : line.defined? = none := by
    cases line <;> first | rfl | cases brace
  have label (depth address : Nat) :
      (sheetLabel listing.labels depth address).filterMap TextLine.defined? =
        [address].filter listing.labels.contains := by
    rw [sheetLabel, List.filter_singleton]
    cases listing.labels.contains address <;> rfl
  have statement (line : ListedLine) :
      (sheetStatement listing.labels line).filterMap TextLine.defined? =
        [line.address].filter listing.labels.contains := by
    rw [sheetStatement, List.filterMap_append, label]
    exact List.append_nil _
  rw [filterMap_unbraced unseen, filter_sheet, List.filterMap_cons_none rfl,
    List.filterMap_append, List.filterMap_flatMap, label, List.filter_append]
  simp only [statement]
  rw [← List.filter_flatMap, List.map_eq_flatMap]

end Listing

/-! ### Listings that account for their labels -/

theorem Program.outcome_listing {program : Program} {symbols : Symbols} {lenient : Bool}
    {scan : Scan} (done : (Decoder.script ⟨program, symbols, lenient⟩).result
      (.start program.code) = (.ok (), scan)) :
    (program.listing symbols lenient).outcome =
      (.ok (scan.listing program), scan.notices ++
        ((scan.listing program).looseLabels program.code.length).map
          (Notice.looseLabel program.name)) := by
  have same : ExceptT.run (Decoder.script ⟨program, symbols, lenient⟩) (.start program.code) =
    (.ok (), scan) := done
  unfold listing
  rw [same]
  have noted := Logged.run_notes (Notice.looseLabel program.name)
    ((scan.listing program).looseLabels program.code.length) scan.notices
  exact Logged.run_bind noted fun _ => pure (scan.listing program)

/-- A label leads to a statement of a listing, or to the end of a script of so many bytes. -/
def Listing.LeadsTo (listing : Listing) (length label : Nat) : Prop :=
  label ∈ listing.lines.map ListedLine.address ∨ label = length

instance (listing : Listing) (length label : Nat) : Decidable (listing.LeadsTo length label) :=
  inferInstanceAs (Decidable (_ ∨ _))

theorem Listing.mem_looseLabels {listing : Listing} {length label : Nat} :
    label ∈ listing.looseLabels length ↔
      label ∈ listing.labels ∧ ¬listing.LeadsTo length label := by
  have here : listing.lines.any (fun line => line.address == label) = true ↔
      label ∈ listing.lines.map ListedLine.address := by
    simp only [List.any_eq_true, beq_iff_eq, List.mem_map]
  rw [looseLabels, List.mem_filter, LeadsTo, ← here, not_or, Bool.and_eq_true, bne_iff_ne,
    Bool.not_eq_true', Bool.not_eq_true]
  exact and_congr_right fun _ => and_comm

/-- The lines of a text and the notices that are left account for the labels of a listing. The
label where the script starts is one of them, and so is each operand: how another one would be
spelled makes no difference to what is read. A label that leads to a statement or to the end of
the script is defined once, right before the statement or before the last brace, and no notice is
about it. Any other label is not defined and has one notice; other numbers have neither. -/
structure Listing.Accounts (listing : Listing) (reading : Reading) (lines : List TextLine)
    (notices : List Notice) : Prop where
  spelled : Decoder.scriptSpelled (fun label => labelText label) reading = Decoder.script reading
  operands : ∀ spell : Nat → String, (∀ label ∈ listing.labels, spell label = labelText label) →
    (Decoder.scriptSpelled spell reading).result (.start reading.program.code) =
      (Decoder.script reading).result (.start reading.program.code)
  start : ∀ label, .title (some label) ∈ lines → label ∈ listing.labels
  defined : ∀ label, (lines.filterMap TextLine.defined?).count label =
    if label ∈ listing.labels ∧ listing.LeadsTo reading.program.code.length label then 1 else 0
  placed : ∀ before depth label after, lines = before ++ .label depth label :: after →
    (∃ line rest, after = .statement line :: rest ∧ line.address = label) ∨
      label = reading.program.code.length ∧ after = [.closing 0]
  noticed : ∀ label, notices.count (.looseLabel reading.program.name label) =
    if label ∈ listing.labels ∧ ¬listing.LeadsTo reading.program.code.length label then 1 else 0

theorem Scan.mem_labels_listing (program : Program) {scan : Scan} {label : Nat}
    (member : label ∈ scan.labels) : label ∈ (scan.listing program).labels := by
  unfold Scan.listing
  split
  · exact member
  · exact mem_insertLabel.mpr (Or.inr member)

/-- The title names the label where the script starts only if it was recorded. -/
theorem Scan.mem_labels_of_title {program : Program} {scan : Scan} {label : Nat}
    (member : .title (some label) ∈ (scan.listing program).sheet program) :
    label ∈ (scan.listing program).labels := by
  have kept : .title (some label) ∈ ((scan.listing program).sheet program).filter (!·.isBrace) :=
    List.mem_filter.mpr ⟨member, rfl⟩
  have never (labels : List Nat) (depth address : Nat) :
      .title (some label) ∉ Listing.sheetLabel labels depth address := by
    unfold Listing.sheetLabel
    split <;> simp
  rw [Listing.filter_sheet, List.mem_cons, List.mem_append, List.mem_flatMap] at kept
  rcases kept with here | ⟨line, -, written⟩ | last
  · unfold Scan.listing
    split at here
    · cases here
    · cases here
      rename_i entered
      rw [if_neg entered]
      exact mem_insertLabel.mpr (Or.inl rfl)
  · rcases List.mem_append.mp written with named | statement
    · exact absurd named (never _ _ _)
    · cases List.mem_singleton.mp statement
  · exact absurd last (never _ _ _)

section Accounts

variable {program : Program} {symbols : Symbols} {lenient : Bool} {scan : Scan}
  (done : (Decoder.script ⟨program, symbols, lenient⟩).result (.start program.code) =
    (.ok (), scan))

include done

theorem Scan.nodup_labels_listing : (scan.listing program).labels.Nodup := by
  have sorted : scan.labels.Pairwise (· < ·) :=
    (Decoder.spelled_script (fun label => labelText label) _ _ _ _ done).1.sorted .nil
  have ascending : (scan.listing program).labels.Pairwise (· < ·) := by
    unfold Scan.listing
    split
    · exact sorted
    · exact pairwise_insertLabel sorted
  exact ascending.imp Nat.ne_of_lt

/-- Reading itself leaves no notice about a label. -/
theorem Scan.looseLabel_not_mem_notices (label : Nat) :
    .looseLabel program.name label ∉ scan.notices := by
  intro member
  obtain ⟨-, -, skipped⟩ := (Decoder.spelled_script (fun label => labelText label) _ _ _ _ done).1
  rcases skipped _ member with earlier | ⟨_, _, _, same⟩
  · cases earlier
  · cases same

end Accounts

/-- Every label that the text of a script prints is defined once or noticed once, whatever its
code is, if it can be read, strictly or leniently. -/
theorem Program.textLines_account (program : Program) (symbols : Symbols) (lenient : Bool)
    (listing : Listing) (notices : List Notice)
    (listed : (program.listing symbols lenient).outcome = (.ok listing, notices)) :
    (program.textLines symbols lenient).outcome.1 =
        .ok ((listing.sheet program).map (TextLine.text program.name)) ∧
      listing.Accounts ⟨program, symbols, lenient⟩ (listing.sheet program) notices := by
  obtain ⟨scan, done, rfl⟩ := exists_scan_of_listing (congrArg Prod.fst listed)
  obtain rfl : _ = notices := congrArg Prod.snd ((outcome_listing done).symm.trans listed)
  refine ⟨textLines_eq_sheet done, ?_⟩
  constructor
  case spelled => exact Decoder.scriptSpelled_labelText _
  case operands =>
    intro spell alike
    rw [done]
    exact (Decoder.spelled_script spell _ _ _ _ done).2 fun label member =>
      alike label (Scan.mem_labels_listing program member)
  case start => exact fun label member => Scan.mem_labels_of_title member
  case defined =>
    intro label
    -- The places where a label may be defined rise, so they are all different.
    have distinct := (Scan.rising_listing done).imp Nat.ne_of_lt
    rw [Listing.filterMap_defined?_sheet, List.Nodup.count (List.Nodup.filter _ distinct)]
    refine if_congr ?_ rfl rfl
    rw [List.mem_filter, List.mem_append, List.mem_singleton, List.contains_iff_mem,
      Listing.LeadsTo, and_comm]
  case placed => exact fun before depth label after split => Listing.after_label_sheet split
  case noticed =>
    intro label
    have injective : Function.Injective (Notice.looseLabel program.name) :=
      fun _ _ same => (Notice.looseLabel.inj same).2
    have others := List.count_eq_zero_of_not_mem (Scan.looseLabel_not_mem_notices done label)
    have distinct : ((scan.listing program).looseLabels program.code.length).Nodup :=
      (Scan.nodup_labels_listing done).filter _
    rw [List.count_append, others, Nat.zero_add, List.count_map_of_injective _ _ injective,
      List.Nodup.count distinct]
    exact if_congr Listing.mem_looseLabels rfl rfl

/-- A jump into its own operand, and one to the end, at which the script starts. -/
def moorProgram : Program := ⟨"MOOR", [4, 1, 0, 0, 0] ++ [4, 10, 0, 0, 0], 5, [], []⟩

theorem Program.textLines_account_moor :
    ∃ listing, (moorProgram.listing doorSymbols false).outcome =
        (.ok listing, [.looseLabel "MOOR" 1]) ∧
      listing.labels = [1, 5, 10] ∧ listing.lines.map ListedLine.address = [0, 5] ∧
      (moorProgram.textLines doorSymbols false).outcome.1 =
        .ok ((listing.sheet moorProgram).map (TextLine.text "MOOR")) ∧
      listing.Accounts ⟨moorProgram, doorSymbols, false⟩ (listing.sheet moorProgram)
        [.looseLabel "MOOR" 1] := by
  have listed : (moorProgram.listing doorSymbols false).outcome =
    (.ok ⟨[⟨0, 1, "Goto #01", none, false⟩, ⟨5, 1, "Goto #0A", none, false⟩], [1, 5, 10], 10⟩,
      [.looseLabel "MOOR" 1]) := by decide +kernel
  exact ⟨_, listed, rfl, rfl, textLines_account moorProgram doorSymbols false _ _ listed⟩

end MapScript
