/-
This file shows that what is read from text can be encoded, up to names and numbers that do
not fit. The encoding refuses terms and statements in places where they have no meaning, and
looks up marks and words in tables; no script that comes out of text runs into either. Every
condition it gives rise to in code is closed properly: the byte behind a clause says that
another one follows, and only the one behind the last says that none does.
-/

import MapScript.Proofs.Code.Blame
import MapScript.Proofs.Code.Lines
import MapScript.Proofs.Script.Genuine
import Mathlib.Data.List.Forall2

namespace MapScript

/-! ### Scripts that come out of text are fit -/

theorem Script.fit_of_parse {symbols : Symbols} {text : List Char} {scripts : List Script}
    (parsed : Script.parse symbols text = .ok scripts) :
    ∀ script ∈ scripts, script.body.Each Statement.Fit := fun script member =>
  Block.Each.combine (fun _ shaped written => ⟨shaped, written.2⟩)
    (shaped_of_parse parsed script member) (written_of_parse parsed script member)

mutual

theorem Statement.Each.mem_inOrder {property : Statement → Prop} {statement : Statement}
    (each : statement.Each property) : ∀ entry ∈ statement.inOrder, property entry.2 := by
  cases statement with
  | branch clauses body => exact Block.Each.mem_inOrder each.2
  | returnGuard value body => exact Block.Each.mem_inOrder each.2
  | _ => exact fun _ member => absurd member List.not_mem_nil

theorem Block.Each.mem_inOrder {property : Statement → Prop} {block : Block}
    (each : block.Each property) : ∀ entry ∈ block.inOrder, property entry.2 := by
  cases block with
  | nil => exact fun _ member => absurd member List.not_mem_nil
  | cons origin first rest =>
    exact List.forall_mem_cons.mpr ⟨Statement.Each.self each.1, List.forall_mem_append.mpr
      ⟨Statement.Each.mem_inOrder each.1, Block.Each.mem_inOrder each.2⟩⟩

end

/-! ### Causes of failure -/

theorem Cause.isReported_of_isInternal {cause : Cause} (internal : cause.isInternal = true) :
    cause.isReported = true := by
  cases cause with
  | script fault => rfl
  | _ => cases internal

/-- The body of a fit script has no internal fault, for the statement that is blamed is fit. -/
theorem Assembler.failsOnly_block {around : Surroundings} {written : Block}
    (fit : written.Each Statement.Fit)
    (located : ∀ entry ∈ written.inOrder, entry.1.isSome = true) (offset : Nat)
    (assembly : Assembly) :
    FailsOnly (fun cause => cause.isInternal = false)
      ((block around offset written).run assembly) := by
  cases failed : (block around offset written).run assembly with
  | ok result => trivial
  | error fault =>
    refine Bool.eq_false_iff.mpr fun internal => ?_
    obtain ⟨index, origin, statement, member, blames⟩ :=
      block_blames written located failed (Cause.isReported_of_isInternal internal)
    obtain ⟨place, reached, -, own⟩ := blames.before
    have fitting := fit.mem_inOrder _ (List.mem_of_getElem? member)
    have outward := (refuses_bodiless statement place reached _ own).outward fitting
    exact Bool.false_ne_true (outward.symm.trans internal)

section Linking

variable {script : Script} {labels : Registry Int Nat}

theorem failsOnly_labelAddress (label : Int) :
    FailsOnly (fun cause => cause.isInternal = false) (labelAddress script labels label) := by
  unfold labelAddress
  split
  · trivial
  · rfl

theorem failsOnly_link (cells : List Cell) :
    FailsOnly (fun cause => cause.isInternal = false) (link script labels cells) := by
  refine (FailsOnly.mapM fun cell _ => ?_).bind fun _ => trivial
  cases cell with
  | byte value => trivial
  | address label =>
    refine (failsOnly_labelAddress label).bind fun address => ?_
    rw [packNumber_eq]
    split
    · trivial
    · rfl

theorem failsOnly_entryPoint :
    FailsOnly (fun cause => cause.isInternal = false) (entryPoint script labels) := by
  unfold entryPoint
  split
  · trivial
  · exact failsOnly_labelAddress _

end Linking

theorem failsOnly_attributeBlock (symbols : Symbols) (lines : List AttributeLine) :
    FailsOnly (fun cause => cause.isInternal = false) (attributeBlock symbols lines) := by
  refine FailsOnly.foldlM (fun block line _ => ?_) _
  refine FailsOnly.bind ?_ fun place => ?_
  · unfold Symbols.attributeId Symbols.resolve
    split
    · trivial
    · rfl
  · split
    · trivial
    · rfl

theorem Script.failsOnly_compile {script : Script} (fit : script.body.Each Statement.Fit)
    (located : ∀ entry ∈ script.body.inOrder, entry.1.isSome = true) (symbols : Symbols)
    (locals : Option (List Int)) :
    FailsOnly (fun cause => cause.isInternal = false) (script.compile symbols locals) :=
  (Assembler.failsOnly_block fit located 0 .empty).bind fun _ =>
    (failsOnly_link _).bind fun _ => failsOnly_entryPoint.bind fun _ =>
      (failsOnly_attributeBlock symbols _).bind fun _ => trivial

/-! ### Tables -/

/-- The marks of formulas, each in the place of its byte. -/
def operatorTable : List String :=
  ["", "+", "-", "/", "*", "<<", ">>", "&", "|", "^", "++", "--"]

/-- The marks of comparisons, each in the place of its byte. -/
def comparisonTable : List String := ["=", "!=", "<", ">", "<=", ">="]

/-- The words between clauses, and what stands behind the last, with their bytes. -/
def conjunctionTable : List (Option String × UInt8) :=
  [(none, 0), (some "and", 1), (some "or", 2)]

/-- The words in front of labels, with their bytes. -/
def jumpTable : List (String × UInt8) := [("Goto", 4), ("End", 5), ("Gosub", 17)]

/-- The words that are statements, with their bytes. -/
def wordTable : List (String × UInt8) := [("Return", 18), ("Endint", 19)]

/-- The operators of a formula stand in their table, in the places that their bytes are. -/
def Formula.Tabled (formula : Formula) : Prop :=
  ∀ operator ∈ formula.operators,
    operatorTable.idxOf? operator.text = some operator.code.toNat

/-- The marks and words of a clause stand in their tables. -/
structure Clause.Tabled (clause : Clause) : Prop where
  left : clause.left.Tabled
  comparison : comparisonTable.idxOf? clause.comparison.text = some clause.comparison.code.toNat
  right : clause.right.Tabled
  conjunction : conjunctionTable.lookup (clause.conjunction.map Conjunction.text) =
    some (Conjunction.code clause.conjunction)

/-- The marks and words of a statement stand in their tables, with the bytes that they are
encoded as. -/
def Statement.Tabled : Statement → Prop
  | .assign _ formula => formula.Tabled
  | .branch clauses _ => ∀ clause ∈ clauses, clause.Tabled
  | .jump kind _ => jumpTable.lookup kind.text = some (Opcode.ofJump kind).code
  | .word kind => wordTable.lookup kind.text = some (Opcode.ofWord kind).code
  | _ => True

theorem Formula.tabled (formula : Formula) : formula.Tabled := fun operator _ => by
  cases operator <;> decide +kernel

theorem Clause.tabled (clause : Clause) : clause.Tabled where
  left := clause.left.tabled
  comparison := by cases clause.comparison <;> decide +kernel
  right := clause.right.tabled
  conjunction := by
    rcases clause.conjunction with _ | conjunction
    · decide +kernel
    · cases conjunction <;> decide +kernel

theorem Statement.tabled (statement : Statement) : statement.Tabled := by
  cases statement with
  | assign target formula => exact formula.tabled
  | branch clauses body => exact fun clause _ => clause.tabled
  | jump kind goal =>
    have found : jumpTable.lookup kind.text = some (Opcode.ofJump kind).code := by
      cases kind <;> decide +kernel
    exact found
  | word kind =>
    have found : wordTable.lookup kind.text = some (Opcode.ofWord kind).code := by
      cases kind <;> decide +kernel
    exact found
  | _ => trivial

/-! ### Code at the places of lines -/

namespace Assembler

variable {around : Surroundings}

/-- The code of a line stands in code that starts at an offset, at the address of the line. -/
def Emits (around : Surroundings) (offset : Nat) (cells : List Cell) (line : CodeLine) : Prop :=
  ∃ before own after reached next, cells = before ++ own ++ after ∧
    line.address = offset + Cell.totalSize before ∧
    (statement around line.address line.statement).run reached = .ok (own, next)

namespace Emits

variable {offset : Nat} {front back : List Cell} {line : CodeLine}

theorem append_right (emits : Emits around offset front line) (back : List Cell) :
    Emits around offset (front ++ back) line := by
  obtain ⟨before, own, after, reached, next, rfl, address, run⟩ := emits
  exact ⟨before, own, after ++ back, reached, next, List.append_assoc _ _ _, address, run⟩

theorem append_left (emits : Emits around (offset + Cell.totalSize front) back line) :
    Emits around offset (front ++ back) line := by
  obtain ⟨before, own, after, reached, next, rfl, address, run⟩ := emits
  refine ⟨front ++ before, own, after, reached, next, ?_, ?_, run⟩
  · simp only [List.append_assoc]
  · rw [address, Cell.totalSize_append, Nat.add_assoc]

end Emits

mutual

theorem statement_emits (written : Statement) {offset : Nat} {assembly next : Assembly}
    {cells : List Cell}
    (encoded : (statement around offset written).run assembly = .ok (cells, next)) :
    ∀ line ∈ innerLines around offset assembly written, Emits around offset cells line := by
  cases written with
  | branch clauses body =>
    obtain ⟨condition, pool, inner, stop, clausesOk, bodyOk, packed, rfl⟩ := branch_eq_ok encoded
    rw [innerLines_branch clausesOk bodyOk packed]
    intro line member
    have emits := block_emits body bodyOk line member
    refine .append_left ?_
    rw [Cell.totalSize_ofBytes, List.length_append, List.length_cons,
      (Encoder.packNumber_eq_ok packed).1]
    rwa [show offset + 5 + condition.length = offset + (condition.length + 1 + 4) by omega]
      at emits
  | returnGuard value body =>
    obtain ⟨inner, range, bodyOk, rfl⟩ := returnGuard_eq_ok encoded
    rw [innerLines_returnGuard range bodyOk]
    exact fun line member => .append_left (block_emits body bodyOk line member)
  | _ => exact fun _ member => absurd member List.not_mem_nil

/-- The code of every line of a block, and of the blocks in it, stands where the line does. -/
theorem block_emits (written : Block) {offset : Nat} {assembly next : Assembly}
    {cells : List Cell}
    (encoded : (block around offset written).run assembly = .ok (cells, next)) :
    ∀ line ∈ lines around offset assembly written, Emits around offset cells line := by
  cases written with
  | nil => exact fun _ member => absurd member List.not_mem_nil
  | cons origin first rest =>
    obtain ⟨front, between, back, firstOk, restOk, rfl⟩ := block_cons_eq_ok encoded
    rw [lines_cons firstOk restOk]
    refine List.forall_mem_cons.mpr ⟨?_, List.forall_mem_append.mpr ⟨?_, ?_⟩⟩
    · exact ⟨[], front, back, assembly, between, rfl, rfl, firstOk⟩
    · exact fun line member => (statement_emits first firstOk line member).append_right back
    · exact fun line member => (block_emits rest restOk line member).append_left

end

end Assembler

/-! ### Clauses in code -/

/-- Bytes that are the code of clauses, piece by piece. The last byte of a piece is zero if it
is the last piece, and only then. -/
structure Conjoined (around : Surroundings) (clauses : List Clause) (pieces : List Bytes) :
    Prop where
  encoded : List.Forall₂ (fun clause piece => ∃ pool next,
    (Encoder.clause around clause).run pool = .ok (piece, next)) clauses pieces
  closed : ∀ index piece, pieces[index]? = some piece →
    ∃ last, piece.getLast? = some last ∧ (last = 0 ↔ index + 1 = pieces.length)

namespace Encoder

variable {around : Surroundings} {pool next : StringPool} {bytes : Bytes}

/-- The code of a clause ends with the byte of the word behind it. -/
theorem getLast?_clause {written : Clause}
    (encoded : (clause around written).run pool = .ok (bytes, next)) :
    bytes.getLast? = some (Conjunction.code written.conjunction) := by
  obtain ⟨left, middle, right, -, -, rfl⟩ := clause_eq_ok encoded
  rw [List.append_assoc, List.cons_append, List.getLast?_append, List.getLast?_cons,
    List.getLast?_append]
  rfl

theorem code_eq_zero_iff (conjunction : Option Conjunction) :
    Conjunction.code conjunction = 0 ↔ conjunction = none := by
  rcases conjunction with _ | conjunction
  · exact ⟨fun _ => rfl, fun _ => rfl⟩
  · cases conjunction <;> decide

/-- Clauses that are joined are encoded piece by piece. -/
theorem conjoined_of_clauses {list : List Clause} (joined : Joined list)
    (encoded : (clauses around list).run pool = .ok (bytes, next)) :
    ∃ pieces, Conjoined around list pieces ∧ bytes = pieces.flatten := by
  induction list generalizing pool bytes with
  | nil => exact joined.elim
  | cons first rest inductionHypothesis =>
    obtain ⟨piece, between, others, firstOk, restOk, rfl⟩ := clauses_cons_eq_ok encoded
    have last := getLast?_clause firstOk
    cases rest with
    | nil =>
      cases run_pure_eq_ok.mp restOk
      have zero := (code_eq_zero_iff first.conjunction).mpr joined
      refine ⟨[piece], ⟨.cons ⟨pool, _, firstOk⟩ .nil, fun index other found => ?_⟩,
        (List.append_nil _).trans (List.append_nil _).symm⟩
      cases index with
      | zero =>
        cases found
        exact ⟨_, last, fun _ => rfl, fun _ => zero⟩
      | succ index => cases found
    | cons second rest =>
      obtain ⟨pieces, conjoined, rfl⟩ := inductionHypothesis joined.2 restOk
      refine ⟨piece :: pieces, ⟨.cons ⟨pool, between, firstOk⟩ conjoined.encoded,
        fun index other found => ?_⟩, rfl⟩
      cases index with
      | zero =>
        cases found
        refine ⟨_, last, fun zero => ?_, fun alone => ?_⟩
        · have none := (code_eq_zero_iff first.conjunction).mp zero
          have some := joined.1
          rw [none] at some
          cases some
        · have lengths := conjoined.encoded.length_eq
          rw [List.length_cons] at alone lengths
          omega
      | succ index =>
        obtain ⟨ending, same, closed⟩ := conjoined.closed index other found
        refine ⟨ending, same, closed.trans ?_⟩
        rw [List.length_cons, Nat.add_right_cancel_iff]

end Encoder

/-! ### Compiled scripts -/

mutual

/-- The cuts of a text are at its statements, in their order. -/
theorem Statement.map_statement_cuts (statement : Statement) :
    statement.cuts.map Cut.statement = statement.inOrder.map Prod.snd := by
  cases statement with
  | branch clauses body =>
    rw [Statement.cuts, List.map_map]
    exact body.map_statement_cuts
  | returnGuard value body =>
    rw [Statement.cuts, List.map_map]
    exact body.map_statement_cuts
  | _ => rfl

theorem Block.map_statement_cuts (block : Block) :
    block.cuts.map Cut.statement = block.inOrder.map Prod.snd := by
  cases block with
  | nil => rfl
  | cons origin first rest =>
    rw [Block.cuts, Block.inOrder, List.map_cons, List.map_cons, List.map_append, List.map_append,
      List.map_map, List.map_map, ← first.map_statement_cuts, ← rest.map_statement_cuts]
    rfl

end

/-- What holds of every statement of a script holds of those on the lines of its code. -/
theorem Script.each_of_mem_codeLines {property : Statement → Prop} {script : Script}
    (each : script.body.Each property) {symbols : Symbols} {locals : Option (List Int)}
    {line : CodeLine} (member : line ∈ script.codeLines symbols locals) :
    property line.statement := by
  obtain ⟨cut, inside, rfl⟩ := List.mem_map.mp member
  have listed := List.mem_map_of_mem (f := Cut.statement) inside
  rw [Block.map_statement_cuts] at listed
  obtain ⟨entry, there, same⟩ := List.mem_map.mp listed
  exact same ▸ each.mem_inOrder entry there

/-- The conditions of a compiled script are closed properly. -/
theorem Script.conjoined_of_compile {script : Script} {symbols : Symbols}
    {locals : Option (List Int)} {compiled : Compiled}
    (done : script.compile symbols locals = .ok compiled) {line : CodeLine}
    (member : line ∈ script.codeLines symbols locals) {clauses : List Clause} {body : Block}
    (condition : line.statement = .branch clauses body) (joined : Joined clauses) :
    ∃ pieces, Conjoined ⟨symbols, locals⟩ clauses pieces ∧
      Opcode.branch.code :: pieces.flatten <+: compiled.code.drop line.address := by
  obtain ⟨cells, assembly, entry, encoded, linked, -⟩ := compile_eq_ok done
  obtain ⟨before, own, after, reached, next, rfl, address, run⟩ :=
    Assembler.block_emits script.body encoded line member
  rw [condition] at run
  obtain ⟨code, pool, inner, stop, clausesOk, -, -, rfl⟩ := Assembler.branch_eq_ok run
  obtain ⟨pieces, conjoined, rfl⟩ := Encoder.conjoined_of_clauses joined clausesOk
  refine ⟨pieces, conjoined, ?_⟩
  rw [List.append_assoc] at linked
  obtain ⟨front, back, frontOk, backOk, whole⟩ := link_append_eq_ok.mp linked
  rw [List.append_assoc] at backOk
  obtain ⟨one, two, oneOk, -, rfl⟩ := link_append_eq_ok.mp backOk
  cases (link_ofBytes script assembly.labels _).symm.trans oneOk
  rw [whole, address, Nat.zero_add, ← length_of_link frontOk, List.drop_left, List.append_assoc]
  exact List.prefix_append _ _

/-- What is read from text can be encoded: no script of it is refused for where its terms and
statements stand, its marks and words are all found in their tables, and the conditions in its
code are closed properly. -/
theorem Script.encodable_of_parse {symbols : Symbols} {text : List Char} {scripts : List Script}
    (parsed : Script.parse symbols text = .ok scripts) {script : Script}
    (member : script ∈ scripts) (others : Symbols) (locals : Option (List Int)) :
    FailsOnly (fun cause => cause.isInternal = false) (script.compile others locals) ∧
      script.body.Each Statement.Tabled ∧
      ∀ compiled, script.compile others locals = .ok compiled →
        ∀ line ∈ script.codeLines others locals, ∀ clauses body,
          line.statement = .branch clauses body →
          ∃ pieces, Conjoined ⟨others, locals⟩ clauses pieces ∧
            Opcode.branch.code :: pieces.flatten <+: compiled.code.drop line.address := by
  have fit := fit_of_parse parsed script member
  refine ⟨failsOnly_compile fit (located_of_parse parsed script member) others locals,
    fit.combine (fun statement _ _ => statement.tabled) fit, ?_⟩
  intro compiled done line inside clauses body condition
  have shaped := (each_of_mem_codeLines fit inside).1
  rw [condition] at shaped
  exact conjoined_of_compile done inside condition shaped

/-- A script with two clauses in a condition. -/
def latchText : List Char :=
  "LATCH\n\x7b\nEndint\nif open = 0 and open = 1\n\x7b\nReturn\n\x7d\n\x7d".toList

theorem Script.encodable_of_parse_latch :
    ∃ script compiled, Script.parse doorSymbols latchText = .ok [script] ∧
      script.compile doorSymbols none = .ok compiled ∧
      FailsOnly (fun cause => cause.isInternal = false) (script.compile doorSymbols none) ∧
      script.body.Each Statement.Tabled ∧
      ∃ line ∈ script.codeLines doorSymbols none, ∃ clauses body,
        line.statement = .branch clauses body ∧ clauses.length = 2 ∧
        ∃ pieces, Conjoined ⟨doorSymbols, none⟩ clauses pieces ∧
          Opcode.branch.code :: pieces.flatten <+: compiled.code.drop line.address := by
  obtain ⟨script, parsed, checked⟩ := @Script.exists_single_of_any doorSymbols latchText
    (fun script => (script.compile doorSymbols none).toOption.any (fun _ => true) &&
      (script.codeLines doorSymbols none).any fun line =>
        match line.statement with
        | .branch clauses _ => clauses.length == 2
        | _ => false) (by decide +kernel)
  obtain ⟨succeeds, branches⟩ := Bool.and_eq_true_iff.mp checked
  obtain ⟨compiled, done, -⟩ := exists_ok_of_any succeeds
  obtain ⟨line, member, two⟩ := List.any_eq_true.mp branches
  obtain ⟨fails, tabled, closed⟩ :=
    Script.encodable_of_parse parsed List.mem_cons_self doorSymbols none
  refine ⟨script, compiled, parsed, done, fails, tabled, line, member, ?_⟩
  split at two
  · rename_i clauses body condition
    exact ⟨clauses, body, condition, beq_iff_eq.mp two,
      closed compiled done line member clauses body condition⟩
  · cases two

end MapScript
