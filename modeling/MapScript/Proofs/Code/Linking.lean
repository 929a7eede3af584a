/-
This file proves that the labels of a script are filled in consistently and completely.
The code before the labels are known is a draft in which every operand that is a label is
blank. Labels are defined at the places of their lines and only once; the blanks are the
operands of jumps and pauses, in the order of the text; and linking writes the place of
the definition into each blank and leaves all else as it was drafted. A label that is used
and not defined is a fault.
-/

import MapScript.Proofs.Code.Lines
import MapScript.Proofs.Listing.Scripts

namespace MapScript

/-! ### Lines that define and use labels -/

/-- The label that a statement defines. -/
def Statement.label? : Statement → Option Int
  | .label name => some name
  | _ => none

/-- The label that a statement leads to. -/
def Statement.goal? : Statement → Option Int
  | .jump _ goal => goal
  | .taskPause goal => some goal
  | _ => none

/-- The label that a line defines, and its place. -/
def CodeLine.definition? (line : CodeLine) : Option (Int × Nat) :=
  line.statement.label?.map fun label => (label, line.address)

/-- Where the operand of a line stands that leads to a label, and the label. An opcode
stands in front of it. -/
def CodeLine.blank? (line : CodeLine) : Option (Nat × Int) :=
  line.statement.goal?.map fun goal => (line.address + 1, goal)

/-! ### Drafts -/

namespace Cell

/-- A piece of code before the labels are known. -/
def draft : Cell → Bytes
  | .byte value => [value]
  | .address _ => [0, 0, 0, 0]

/-- The labels to be filled in and where they stand, for code that starts at an offset. -/
def blanks (offset : Nat) : List Cell → List (Nat × Int)
  | [] => []
  | .byte _ :: rest => blanks (offset + 1) rest
  | .address label :: rest => (offset, label) :: blanks (offset + 4) rest

theorem length_draft (cell : Cell) : cell.draft.length = cell.size := by
  cases cell <;> rfl

theorem length_flatMap_draft (cells : List Cell) :
    (cells.flatMap draft).length = totalSize cells := by
  induction cells with
  | nil => rfl
  | cons first rest inductionHypothesis =>
    rw [List.flatMap_cons, List.length_append, length_draft, inductionHypothesis, totalSize_cons]

@[simp] theorem blanks_append (offset : Nat) (front back : List Cell) :
    blanks offset (front ++ back) = blanks offset front ++ blanks (offset + totalSize front) back := by
  induction front generalizing offset with
  | nil => rfl
  | cons first rest inductionHypothesis =>
    cases first with
    | byte value =>
      rw [List.cons_append, blanks, blanks, inductionHypothesis, totalSize_cons, ← Nat.add_assoc]
      rfl
    | address label =>
      rw [List.cons_append, blanks, blanks, inductionHypothesis, totalSize_cons, ← Nat.add_assoc]
      rfl

@[simp] theorem blanks_ofBytes (offset : Nat) (bytes : Bytes) :
    blanks offset (ofBytes bytes) = [] := by
  induction bytes generalizing offset with
  | nil => rfl
  | cons first rest inductionHypothesis => exact inductionHypothesis (offset + 1)

end Cell

/-! ### Encoding defines the labels and leaves the blanks -/

namespace Assembler

variable {around : Surroundings}

/-- What encoding does about the labels on some lines: it defines those that the lines
define, and leaves blanks for those that the lines lead to. -/
structure Marks (lines : List CodeLine) (offset : Nat) (assembly next : Assembly)
    (cells : List Cell) : Prop where
  entries_eq : next.labels.entries =
    assembly.labels.entries ++ lines.filterMap CodeLine.definition?
  blanks_eq : Cell.blanks offset cells = lines.filterMap CodeLine.blank?

namespace Marks

variable {offset : Nat} {assembly between next : Assembly} {front back : List CodeLine}
  {cells : List Cell}

theorem append {more : List Cell} (first : Marks front offset assembly between cells)
    (second : Marks back (offset + Cell.totalSize cells) between next more) :
    Marks (front ++ back) offset assembly next (cells ++ more) where
  entries_eq := by
    rw [second.entries_eq, first.entries_eq, List.filterMap_append, List.append_assoc]
  blanks_eq := by
    rw [Cell.blanks_append, first.blanks_eq, second.blanks_eq, List.filterMap_append]

/-- A statement that neither defines a label nor leads to one. -/
theorem ofBytes {written : Statement} (noLabel : written.label? = none)
    (noGoal : written.goal? = none) (pool : StringPool) (bytes : Bytes) :
    Marks [⟨offset, written⟩] offset assembly { assembly with pool := pool }
      (Cell.ofBytes bytes) where
  entries_eq := by
    simp only [List.filterMap_cons, List.filterMap_nil, CodeLine.definition?, noLabel,
      Option.map_none, List.append_nil]
  blanks_eq := by
    simp only [Cell.blanks_ofBytes, List.filterMap_cons, List.filterMap_nil, CodeLine.blank?,
      noGoal, Option.map_none]

/-- A statement whose operand is a label. -/
theorem withLabel {written : Statement} (noLabel : written.label? = none) {goal : Int}
    (leads : written.goal? = some goal) (opcode : Opcode) :
    Marks [⟨offset, written⟩] offset assembly assembly (Assembler.withLabel opcode goal) where
  entries_eq := by
    simp only [List.filterMap_cons, List.filterMap_nil, CodeLine.definition?, noLabel,
      Option.map_none, List.append_nil]
  blanks_eq := by
    simp only [List.filterMap_cons, List.filterMap_nil, CodeLine.blank?, leads, Option.map_some]
    rfl

/-- A statement with a block: its own code is followed by that of the block. -/
theorem block {written : Statement} (noLabel : written.label? = none)
    (noGoal : written.goal? = none) {bytes : Bytes} {pool : StringPool} {inner : List CodeLine}
    (body : Marks inner (offset + bytes.length) { assembly with pool := pool } next cells) :
    Marks (⟨offset, written⟩ :: inner) offset assembly next (Cell.ofBytes bytes ++ cells) :=
  append (ofBytes noLabel noGoal pool bytes) (by rwa [Cell.totalSize_ofBytes])

end Marks

mutual

theorem marks_statement (written : Statement) {offset : Nat} {assembly next : Assembly}
    {cells : List Cell}
    (encoded : (statement around offset written).run assembly = .ok (cells, next)) :
    Marks (⟨offset, written⟩ :: innerLines around offset assembly written) offset assembly next
      cells := by
  cases written with
  | label goal =>
    obtain ⟨rfl, fresh, rfl⟩ := label_eq_ok encoded
    exact ⟨Registry.entries_put_of_has fresh offset, rfl⟩
  | branch clauses body =>
    obtain ⟨condition, pool, inner, stop, clausesOk, bodyOk, packed, rfl⟩ := branch_eq_ok encoded
    have start : offset + 5 + condition.length =
        offset + (Opcode.branch.code :: condition ++ stop).length := by
      rw [List.length_append, List.length_cons, (Encoder.packNumber_eq_ok packed).1]
      omega
    have marks := marks_block body bodyOk
    rw [start] at marks
    rw [innerLines_branch clausesOk bodyOk packed, start]
    exact .block rfl rfl marks
  | returnGuard value body =>
    obtain ⟨inner, range, bodyOk, rfl⟩ := returnGuard_eq_ok encoded
    rw [innerLines_returnGuard range bodyOk]
    exact .block rfl rfl (marks_block body bodyOk)
  | expression value =>
    obtain ⟨bytes, pool, -, rfl, rfl⟩ := encode_eq_ok encoded
    exact .ofBytes rfl rfl pool bytes
  | assign target formula =>
    obtain ⟨bytes, pool, -, rfl, rfl⟩ := encode_eq_ok encoded
    exact .ofBytes rfl rfl pool bytes
  | objectStep object reference step =>
    obtain ⟨bytes, pool, -, rfl, rfl⟩ := encode_eq_ok encoded
    exact .ofBytes rfl rfl pool bytes
  | jump kind goal =>
    cases goal with
    | none =>
      cases run_pure_eq_ok.mp encoded
      exact .ofBytes rfl rfl assembly.pool _
    | some goal =>
      cases run_pure_eq_ok.mp encoded
      exact .withLabel rfl rfl _
  | word kind =>
    cases run_pure_eq_ok.mp encoded
    exact .ofBytes rfl rfl assembly.pool [_]
  | anchor value =>
    obtain ⟨-, rfl, rfl⟩ := anchor_eq_ok encoded
    exact .ofBytes rfl rfl next.pool _
  | taskPause goal =>
    cases run_pure_eq_ok.mp encoded
    exact .withLabel rfl rfl _
  | bare => exact absurd encoded (run_throw_ne_ok _ _)

theorem marks_block (written : Block) {offset : Nat} {assembly next : Assembly}
    {cells : List Cell}
    (encoded : (block around offset written).run assembly = .ok (cells, next)) :
    Marks (lines around offset assembly written) offset assembly next cells := by
  cases written with
  | nil =>
    cases run_pure_eq_ok.mp encoded
    exact ⟨(List.append_nil _).symm, rfl⟩
  | cons origin first rest =>
    obtain ⟨front, between, back, firstOk, restOk, rfl⟩ := block_cons_eq_ok encoded
    rw [lines_cons firstOk restOk, ← List.cons_append]
    exact (marks_statement first firstOk).append (marks_block rest restOk)

end

end Assembler

/-! ### Linking -/

section Linking

variable {script : Script} {labels : Registry Int Nat} {cells : List Cell} {code : Bytes}

/-- Every blank is filled with the address of its label. -/
theorem part_of_link (linked : link script labels cells = .ok code) {offset : Nat}
    {blank : Nat × Int} (member : blank ∈ Cell.blanks offset cells) :
    ∃ address, labels.find? blank.2 = some address ∧ address < Bytes.range 4 ∧
      offset ≤ blank.1 ∧ Bytes.part code (blank.1 - offset) 4 = Bytes.ofNatLittle 4 address := by
  induction cells generalizing offset code with
  | nil => cases member
  | cons first rest inductionHypothesis =>
    obtain ⟨piece, others, resolved, restOk, rfl⟩ := link_cons_eq_ok.mp linked
    have length := length_of_resolve resolved
    have later (inside : blank ∈ Cell.blanks (offset + first.size) rest) : ∃ address,
        labels.find? blank.2 = some address ∧ address < Bytes.range 4 ∧ offset ≤ blank.1 ∧
          Bytes.part (piece ++ others) (blank.1 - offset) 4 = Bytes.ofNatLittle 4 address := by
      obtain ⟨address, found, fits, behind, filled⟩ := inductionHypothesis restOk inside
      refine ⟨address, found, fits, by omega, ?_⟩
      rw [Bytes.part_append_right _ _ _ _ (by omega), length, Nat.sub_sub, filled]
    cases first with
    | byte value => exact later member
    | address label =>
      rcases List.mem_cons.mp member with rfl | inside
      · obtain ⟨address, found, packed⟩ := resolve_address_eq_ok resolved
        obtain ⟨fits, rfl⟩ := packNumber_eq_ok_iff.mp packed
        refine ⟨address, found, fits, Nat.le_refl _, ?_⟩
        rw [Nat.sub_self, Bytes.part, List.drop_zero]
        exact List.take_left' length
      · exact later inside

/-- What does not stand in a blank is as it was drafted. -/
theorem getElem?_of_link (linked : link script labels cells = .ok code) {offset index : Nat}
    (outside : ∀ blank ∈ Cell.blanks offset cells,
      offset + index < blank.1 ∨ blank.1 + 4 ≤ offset + index) :
    code[index]? = (cells.flatMap Cell.draft)[index]? := by
  induction cells generalizing offset index code with
  | nil =>
    cases linked
    rfl
  | cons first rest inductionHypothesis =>
    obtain ⟨piece, others, resolved, restOk, rfl⟩ := link_cons_eq_ok.mp linked
    have length := length_of_resolve resolved
    have drafted := first.length_draft
    rw [List.flatMap_cons]
    by_cases here : index < first.size
    · cases first with
      | byte value =>
        cases resolved
        rw [List.getElem?_append_left here, List.getElem?_append_left here]
        rfl
      | address label =>
        have apart := outside (offset, label) List.mem_cons_self
        have here : index < 4 := here
        simp only at apart
        omega
    · rw [List.getElem?_append_right (by omega), List.getElem?_append_right (by omega), length,
        drafted]
      refine @inductionHypothesis others restOk (offset + first.size) _ fun blank inside => ?_
      have apart : offset + index < blank.1 ∨ blank.1 + 4 ≤ offset + index := by
        cases first with
        | byte value => exact outside blank inside
        | address label => exact outside blank (List.mem_cons_of_mem _ inside)
      omega

theorem link_cons (first : Cell) (rest : List Cell) :
    link script labels (first :: rest) = (do
      let piece ← first.resolve script labels
      let others ← link script labels rest
      pure (piece ++ others)) := by
  unfold link
  rw [List.mapM_cons]
  cases first.resolve script labels with
  | error fault => rfl
  | ok piece => cases rest.mapM (Cell.resolve script labels) <;> rfl

/-- A label that is not defined has no address. -/
theorem labelAddress_eq_error {label : Int} {fault : Fault}
    (failed : labelAddress script labels label = .error fault) :
    labels.find? label = none ∧ fault.cause = .undefinedLabel script.name label := by
  unfold labelAddress at failed
  split at failed
  · cases failed
  · rename_i absent
    cases failed
    exact ⟨absent, rfl⟩

/-- Linking fails at a blank: its label is not defined, or stands too far behind. -/
theorem link_eq_error {fault : Fault} (failed : link script labels cells = .error fault)
    (offset : Nat) :
    ∃ blank ∈ Cell.blanks offset cells,
      (labels.find? blank.2 = none ∧ fault.cause = .undefinedLabel script.name blank.2) ∨
        ∃ address, labels.find? blank.2 = some address ∧ Bytes.range 4 ≤ address := by
  induction cells generalizing offset with
  | nil => cases failed
  | cons first rest inductionHypothesis =>
    rw [link_cons] at failed
    rcases bind_eq_error.mp failed with here | ⟨piece, -, failed⟩
    · cases first with
      | byte value => cases here
      | address label =>
        refine ⟨(offset, label), List.mem_cons_self, ?_⟩
        rcases bind_eq_error.mp here with absent | ⟨address, found, tooLarge⟩
        · exact Or.inl (labelAddress_eq_error absent)
        · exact Or.inr ⟨address, labelAddress_eq_ok found, range_le_of_packNumber tooLarge⟩
    · rcases bind_eq_error.mp failed with later | ⟨others, -, never⟩
      · obtain ⟨blank, inside, reason⟩ := inductionHypothesis later (offset + first.size)
        refine ⟨blank, ?_, reason⟩
        cases first with
        | byte value => exact inside
        | address label => exact List.mem_cons_of_mem _ inside
      · cases never

end Linking

/-! ### Compiled scripts -/

/-- Whether a label is defined on one of the lines. -/
def Defines (lines : List CodeLine) (label : Int) : Prop :=
  ∃ line ∈ lines, line.statement.label? = some label

/-- Whether a label is used on one of the lines, or is where the script starts. -/
def Script.Uses (script : Script) (lines : List CodeLine) (label : Int) : Prop :=
  script.startLabel = some label ∨ ∃ line ∈ lines, line.statement.goal? = some label

instance (lines : List CodeLine) (label : Int) : Decidable (Defines lines label) :=
  inferInstanceAs (Decidable (∃ line ∈ lines, line.statement.label? = some label))

instance (script : Script) (lines : List CodeLine) (label : Int) :
    Decidable (script.Uses lines label) :=
  inferInstanceAs (Decidable (script.startLabel = some label ∨
    ∃ line ∈ lines, line.statement.goal? = some label))

/-- A script whose labels are filled in. No label is defined twice. The operand of every
line that leads to a label is the address of the line that defines it, which is not behind
the end of the code, and all else is as it was drafted. The script starts where its start
label is defined, or else at the start of the code. -/
structure Script.Linked (script : Script) (lines : List CodeLine) (draft : Bytes)
    (compiled : Compiled) : Prop where
  distinct : (lines.filterMap fun line => line.statement.label?).Nodup
  address_le : ∀ line ∈ lines, line.address ≤ compiled.code.length
  operand_eq : ∀ line ∈ lines, ∀ goal, line.statement.goal? = some goal →
    ∃ target ∈ lines, target.statement.label? = some goal ∧ target.address < Bytes.range 4 ∧
      Bytes.part compiled.code (line.address + 1) 4 = Bytes.ofNatLittle 4 target.address
  length_eq : compiled.code.length = draft.length
  drafted : ∀ index, (∀ line ∈ lines, line.statement.goal? ≠ none →
      index < line.address + 1 ∨ line.address + 5 ≤ index) →
    compiled.code[index]? = draft[index]?
  entry_eq_zero : script.startLabel = none → compiled.entry = 0
  entry_eq : ∀ goal, script.startLabel = some goal →
    ∃ target ∈ lines, target.statement.label? = some goal ∧ compiled.entry = target.address

section Compiling

variable {symbols : Symbols} {locals : Option (List Int)} {script : Script} {cells : List Cell}
  {assembly : Assembly}

theorem marks_codeLines
    (encoded : (Assembler.block ⟨symbols, locals⟩ 0 script.body).run .empty =
      .ok (cells, assembly)) :
    Assembler.Marks (script.codeLines symbols locals) 0 .empty assembly cells :=
  Assembler.marks_block script.body encoded

theorem Assembler.Marks.exists_line {lines : List CodeLine}
    (marks : Assembler.Marks lines 0 .empty assembly cells) {label : Int} {address : Nat}
    (found : assembly.labels.find? label = some address) :
    ∃ line ∈ lines, line.statement.label? = some label ∧ line.address = address := by
  have entry := Registry.mem_entries_of_find? found
  rw [marks.entries_eq] at entry
  obtain ⟨line, member, defines⟩ := List.mem_filterMap.mp entry
  obtain ⟨name, named, same⟩ := Option.map_eq_some_iff.mp defines
  cases same
  exact ⟨line, member, named, rfl⟩

theorem Assembler.Marks.not_defines {lines : List CodeLine}
    (marks : Assembler.Marks lines 0 .empty assembly cells) {label : Int}
    (absent : assembly.labels.find? label = none) : ¬Defines lines label := by
  rintro ⟨line, member, named⟩
  refine Registry.notMem_of_find? absent line.address ?_
  rw [marks.entries_eq]
  refine List.mem_append_right _ (List.mem_filterMap.mpr ⟨line, member, ?_⟩)
  rw [CodeLine.definition?, named]
  rfl

theorem Assembler.Marks.mem_blanks {lines : List CodeLine}
    (marks : Assembler.Marks lines 0 .empty assembly cells) {blank : Nat × Int} :
    blank ∈ Cell.blanks 0 cells ↔
      ∃ line ∈ lines, line.statement.goal? = some blank.2 ∧ blank.1 = line.address + 1 := by
  rw [marks.blanks_eq, List.mem_filterMap]
  refine exists_congr fun line => and_congr_right fun _ => ?_
  rw [CodeLine.blank?, Option.map_eq_some_iff]
  constructor
  · rintro ⟨goal, leads, rfl⟩
    exact ⟨leads, rfl⟩
  · rintro ⟨leads, place⟩
    exact ⟨blank.2, leads, Prod.ext place.symm rfl⟩

theorem nodup_of_marks {lines : List CodeLine}
    (marks : Assembler.Marks lines 0 .empty assembly cells) :
    (lines.filterMap fun line => line.statement.label?).Nodup := by
  have distinct := assembly.labels.distinct
  rw [marks.entries_eq] at distinct
  have key (line : CodeLine) : line.definition?.map Prod.fst = line.statement.label? := by
    rw [CodeLine.definition?, Option.map_map]
    exact Option.map_id'
  have distinct : ((lines.filterMap CodeLine.definition?).map Prod.fst).Nodup := distinct
  simp only [List.map_filterMap, key] at distinct
  exact distinct

/-- Compiling fills in the labels. -/
theorem Script.linked_of_compile {compiled : Compiled}
    (done : script.compile symbols locals = .ok compiled) :
    ∃ cells assembly, (Assembler.block ⟨symbols, locals⟩ 0 script.body).run .empty =
        .ok (cells, assembly) ∧
      script.Linked (script.codeLines symbols locals) (cells.flatMap Cell.draft) compiled := by
  obtain ⟨cells, assembly, entry, encoded, linked, start, same, -⟩ := compile_eq_ok done
  have marks := marks_codeLines encoded
  have length := length_of_link linked
  refine ⟨cells, assembly, encoded, ?_⟩
  constructor
  case distinct => exact nodup_of_marks marks
  case address_le =>
    rw [length, ← Nat.zero_add (Cell.totalSize cells)]
    exact Assembler.address_le_of_mem_lines encoded
  case operand_eq =>
    intro line member goal leads
    have blank : (line.address + 1, goal) ∈ Cell.blanks 0 cells :=
      marks.mem_blanks.mpr ⟨line, member, leads, rfl⟩
    obtain ⟨address, found, fits, -, filled⟩ := part_of_link linked blank
    obtain ⟨target, inside, named, rfl⟩ := marks.exists_line found
    exact ⟨target, inside, named, fits, filled⟩
  case length_eq => rw [length, Cell.length_flatMap_draft]
  case drafted =>
    intro index outside
    refine @getElem?_of_link _ _ _ _ linked 0 index fun blank inside => ?_
    obtain ⟨line, member, leads, place⟩ := marks.mem_blanks.mp inside
    have apart := outside line member (by rw [leads]; exact Option.some_ne_none _)
    omega
  case entry_eq_zero =>
    intro none
    rw [entryPoint, none] at start
    cases start
    exact same
  case entry_eq =>
    intro goal starts
    rw [entryPoint, starts] at start
    obtain ⟨target, inside, named, rfl⟩ := marks.exists_line (labelAddress_eq_ok start)
    exact ⟨target, inside, named, same⟩

/-- A label that is used and not defined makes compiling fail. The fault names such a label,
unless a label that is used is defined too far behind for its address to be written. -/
theorem Script.compile_undefined
    (encoded : (Assembler.block ⟨symbols, locals⟩ 0 script.body).run .empty =
      .ok (cells, assembly)) {label : Int}
    (used : script.Uses (script.codeLines symbols locals) label)
    (undefined : ¬Defines (script.codeLines symbols locals) label) :
    ∃ fault, script.compile symbols locals = .error fault ∧
      ((∃ missing, script.Uses (script.codeLines symbols locals) missing ∧
          ¬Defines (script.codeLines symbols locals) missing ∧
          fault.cause = .undefinedLabel script.name missing) ∨
        ∃ line ∈ script.codeLines symbols locals, line.statement.label? ≠ none ∧
          Bytes.range 4 ≤ line.address) := by
  have marks := marks_codeLines encoded
  cases linked : link script assembly.labels cells with
  | error fault =>
    refine ⟨fault, ?_, ?_⟩
    · rw [Script.compile, encoded, ok_bind]
      simp only [linked, error_bind]
    · obtain ⟨blank, inside, reason⟩ := link_eq_error linked 0
      obtain ⟨line, member, leads, -⟩ := marks.mem_blanks.mp inside
      rcases reason with ⟨absent, cause⟩ | ⟨address, found, far⟩
      · exact Or.inl ⟨blank.2, Or.inr ⟨line, member, leads⟩, marks.not_defines absent, cause⟩
      · obtain ⟨target, there, named, rfl⟩ := marks.exists_line found
        exact Or.inr ⟨target, there, by rw [named]; exact Option.some_ne_none _, far⟩
  | ok code =>
    -- All operands are filled in, so the label that is not defined is where the script starts.
    have starts : script.startLabel = some label := by
      rcases used with starts | ⟨line, member, leads⟩
      · exact starts
      · have blank : (line.address + 1, label) ∈ Cell.blanks 0 cells :=
          marks.mem_blanks.mpr ⟨line, member, leads, rfl⟩
        obtain ⟨address, found, -⟩ := part_of_link linked blank
        obtain ⟨target, inside, named, -⟩ := marks.exists_line found
        exact absurd ⟨target, inside, named⟩ undefined
    cases entry : entryPoint script assembly.labels with
    | ok address =>
      rw [entryPoint, starts] at entry
      obtain ⟨target, inside, named, -⟩ := marks.exists_line (labelAddress_eq_ok entry)
      exact absurd ⟨target, inside, named⟩ undefined
    | error fault =>
      refine ⟨fault, ?_, Or.inl ⟨label, used, undefined, ?_⟩⟩
      · rw [Script.compile, encoded, ok_bind]
        simp only [linked, ok_bind, entry, error_bind]
      · rw [entryPoint, starts] at entry
        exact (labelAddress_eq_error entry).2

end Compiling

/-- Labels are filled in consistently and completely: in every script that is compiled, and
no script is compiled that uses a label without defining it. -/
theorem Script.compile_links (symbols : Symbols) (locals : Option (List Int)) (script : Script) :
    (∀ compiled, script.compile symbols locals = .ok compiled →
      ∃ cells assembly, (Assembler.block ⟨symbols, locals⟩ 0 script.body).run .empty =
          .ok (cells, assembly) ∧
        script.Linked (script.codeLines symbols locals) (cells.flatMap Cell.draft) compiled) ∧
    ∀ cells assembly label,
      (Assembler.block ⟨symbols, locals⟩ 0 script.body).run .empty = .ok (cells, assembly) →
      script.Uses (script.codeLines symbols locals) label →
      ¬Defines (script.codeLines symbols locals) label →
      ∃ fault, script.compile symbols locals = .error fault ∧
        ((∃ missing, script.Uses (script.codeLines symbols locals) missing ∧
            ¬Defines (script.codeLines symbols locals) missing ∧
            fault.cause = .undefinedLabel script.name missing) ∨
          ∃ line ∈ script.codeLines symbols locals, line.statement.label? ≠ none ∧
            Bytes.range 4 ≤ line.address) :=
  ⟨fun _ done => linked_of_compile done,
    fun _ _ _ encoded used undefined => compile_undefined encoded used undefined⟩

/-- A script that jumps to a label of its own and to one that it does not define. -/
def strayScript : Script where
  name := "STRAY"
  startLabel := none
  body := .cons none (.label 16) (.cons none (.jump .goto (some 16))
    (.cons none (.returnGuard 1 (.cons none (.jump .gosub (some 32)) .nil)) .nil))
  attributes := []
  locals := .empty
  origin := ⟨1, "STRAY"⟩

theorem Script.compile_links_door :
    (∃ script compiled, Script.parse doorSymbols doorText = .ok [script] ∧
      script.compile doorSymbols (some [5]) = .ok compiled ∧
      (script.codeLines doorSymbols (some [5])).map CodeLine.address =
        [0, 1, 1, 3, 8, 24, 24, 29] ∧
      ∃ cells assembly, (Assembler.block ⟨doorSymbols, some [5]⟩ 0 script.body).run .empty =
          .ok (cells, assembly) ∧
        script.Linked (script.codeLines doorSymbols (some [5])) (cells.flatMap Cell.draft)
          compiled) ∧
    ∃ cells assembly, (Assembler.block ⟨doorSymbols, none⟩ 0 strayScript.body).run .empty =
        .ok (cells, assembly) ∧
      strayScript.Uses (strayScript.codeLines doorSymbols none) 32 ∧
      ¬Defines (strayScript.codeLines doorSymbols none) 32 ∧
      ∃ fault, strayScript.compile doorSymbols none = .error fault ∧
        ((∃ missing, strayScript.Uses (strayScript.codeLines doorSymbols none) missing ∧
            ¬Defines (strayScript.codeLines doorSymbols none) missing ∧
            fault.cause = .undefinedLabel strayScript.name missing) ∨
          ∃ line ∈ strayScript.codeLines doorSymbols none, line.statement.label? ≠ none ∧
            Bytes.range 4 ≤ line.address) := by
  constructor
  · obtain ⟨script, parsed, checked⟩ := @Script.exists_single_of_any doorSymbols doorText
      (fun script => (script.compile doorSymbols (some [5])).toOption.any (fun _ => true) &&
        decide ((script.codeLines doorSymbols (some [5])).map CodeLine.address =
          [0, 1, 1, 3, 8, 24, 24, 29])) (by decide +kernel)
    obtain ⟨succeeds, places⟩ := Bool.and_eq_true_iff.mp checked
    obtain ⟨compiled, done, -⟩ := exists_ok_of_any succeeds
    exact ⟨script, compiled, parsed, done, of_decide_eq_true places,
      (compile_links doorSymbols (some [5]) script).1 compiled done⟩
  · have encoded := @eq_ok_reached _ ((Assembler.block ⟨doorSymbols, none⟩ 0
      strayScript.body).run .empty) ([], .empty) (by decide +kernel)
    have used : strayScript.Uses (strayScript.codeLines doorSymbols none) 32 := by decide +kernel
    have undefined : ¬Defines (strayScript.codeLines doorSymbols none) 32 := by decide +kernel
    exact ⟨_, _, encoded, used, undefined,
      (compile_links doorSymbols none strayScript).2 _ _ _ encoded used undefined⟩

end MapScript
