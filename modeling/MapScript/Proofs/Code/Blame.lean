/-
This file shows that the fault of a script is blamed on the first line that is at fault. A
fault passes through every block around the statement that it comes from, and each of them
blames its own line if none is blamed yet. The text can be cut at any line, the blocks that
are open there closed behind it: the line that is blamed is the one before which the text
can be encoded, and up to which it fails with the fault of the whole. The fault itself is
that of the statement on the line, with the line put in front of it once.
-/

import MapScript.Proofs.Code.Refusals
import MapScript.Proofs.Listing.Scripts

namespace MapScript

/-! ### Statements in the order of the text -/

mutual

/-- The statements in the block of a statement, with their lines. -/
def Statement.inOrder : Statement → List (Option Origin × Statement)
  | .branch _ body => body.inOrder
  | .returnGuard _ body => body.inOrder
  | _ => []

/-- The statements of a block in the order of the text, with their lines; the block of a
statement follows it. -/
def Block.inOrder : Block → List (Option Origin × Statement)
  | .nil => []
  | .cons origin first rest => (origin, first) :: (first.inOrder ++ rest.inOrder)

end

mutual

/-- A statement with only so many of the statements in its block. -/
def Statement.takeLines (count : Nat) : Statement → Statement
  | .branch clauses body => .branch clauses (body.takeLines count)
  | .returnGuard value body => .returnGuard value (body.takeLines count)
  | other => other

/-- The first statements of a block in the order of the text; blocks that are cut short end
there. -/
def Block.takeLines (count : Nat) : Block → Block
  | .nil => .nil
  | .cons origin first rest =>
    match count with
    | 0 => .nil
    | count + 1 =>
      .cons origin (first.takeLines count) (rest.takeLines (count - first.inOrder.length))

end

theorem Block.takeLines_zero (block : Block) : block.takeLines 0 = .nil := by
  cases block <;> rfl

theorem Statement.takeLines_zero (statement : Statement) :
    statement.takeLines 0 = statement.withBody .nil := by
  cases statement with
  | branch clauses body => exact congrArg (Statement.branch clauses) body.takeLines_zero
  | returnGuard value body => exact congrArg (Statement.returnGuard value) body.takeLines_zero
  | _ => rfl

/-- A text that is cut inside the block of its first statement. -/
theorem Block.takeLines_inside {origin : Option Origin} {first : Statement} {count : Nat}
    (rest : Block) (inside : count ≤ first.inOrder.length) :
    (Block.cons origin first rest).takeLines (count + 1) =
      .cons origin (first.takeLines count) .nil := by
  rw [Block.takeLines, Nat.sub_eq_zero_of_le inside, Block.takeLines_zero]

mutual

theorem Statement.takeLines_of_le (statement : Statement) {count : Nat}
    (enough : statement.inOrder.length ≤ count) : statement.takeLines count = statement := by
  cases statement with
  | branch clauses body => exact congrArg (Statement.branch clauses) (body.takeLines_of_le enough)
  | returnGuard value body =>
    exact congrArg (Statement.returnGuard value) (body.takeLines_of_le enough)
  | _ => rfl

theorem Block.takeLines_of_le (block : Block) {count : Nat}
    (enough : block.inOrder.length ≤ count) : block.takeLines count = block := by
  cases block with
  | nil => rfl
  | cons origin first rest =>
    rw [Block.inOrder, List.length_cons, List.length_append] at enough
    match count, enough with
    | count + 1, enough =>
      rw [Block.takeLines, first.takeLines_of_le (by omega), rest.takeLines_of_le (by omega)]

end

/-- A text that is cut behind its first statement. -/
theorem Block.takeLines_behind (origin : Option Origin) (first : Statement) (rest : Block)
    (count : Nat) :
    (Block.cons origin first rest).takeLines (first.inOrder.length + count + 1) =
      .cons origin first (rest.takeLines count) := by
  rw [Block.takeLines, Statement.takeLines_of_le first (Nat.le_add_right _ _),
    Nat.add_sub_cancel_left]

/-- A statement and its line, without the block that may follow. -/
def lineHead (entry : Option Origin × Statement) : Option Origin × Statement :=
  (entry.1, entry.2.withBody .nil)

theorem lineHead_takeLines (origin : Option Origin) (statement : Statement) (count : Nat) :
    lineHead (origin, statement.takeLines count) = lineHead (origin, statement) := by
  cases statement <;> rfl

mutual

theorem Statement.inOrder_takeLines (statement : Statement) (count : Nat) :
    (statement.takeLines count).inOrder.map lineHead =
      (statement.inOrder.map lineHead).take count := by
  cases statement with
  | branch clauses body => exact body.inOrder_takeLines count
  | returnGuard value body => exact body.inOrder_takeLines count
  | _ => exact List.take_nil.symm

/-- What is left of a text that is cut short are its first lines. -/
theorem Block.inOrder_takeLines (block : Block) (count : Nat) :
    (block.takeLines count).inOrder.map lineHead = (block.inOrder.map lineHead).take count := by
  cases block with
  | nil => exact List.take_nil.symm
  | cons origin first rest =>
    cases count with
    | zero => rfl
    | succ count =>
      rw [Block.takeLines, Block.inOrder, Block.inOrder, List.map_cons, List.map_append,
        lineHead_takeLines, first.inOrder_takeLines, rest.inOrder_takeLines, List.map_cons,
        List.map_append, List.take_succ_cons, List.take_append, List.length_map]

end

/-! ### Faults of statements and blocks -/

namespace Assembler

variable {around : Surroundings} {offset : Nat} {assembly : Assembly} {fault : Fault}

theorem encode_eq_error {encoder : Encoder Bytes} :
    (encode encoder).run assembly = .error fault ↔ encoder.run assembly.pool = .error fault := by
  show encode encoder assembly = _ ↔ _
  unfold encode
  cases encoder.run assembly.pool with
  | ok result => exact ⟨nofun, nofun⟩
  | error found => exact ⟨fun failed => congrArg _ (Except.error.inj failed), fun failed =>
      congrArg _ (Except.error.inj failed)⟩

theorem located_eq_error {α : Type} {origin : Option Origin} {assembler : Assembler α} :
    (located origin assembler).run assembly = .error fault ↔
      ∃ inner, assembler.run assembly = .error inner ∧ fault = inner.locate origin := by
  show locating origin (assembler.run assembly) = _ ↔ _
  cases assembler.run assembly with
  | ok result => exact ⟨nofun, nofun⟩
  | error inner =>
    constructor
    · intro failed
      exact ⟨inner, rfl, (Except.error.inj failed).symm⟩
    · rintro ⟨other, same, rfl⟩
      cases same
      rfl

/-- A block fails at its first statement, which is blamed if no line is yet, or behind it. -/
theorem block_cons_eq_error {origin : Option Origin} {first : Statement} {rest : Block} :
    (block around offset (.cons origin first rest)).run assembly = .error fault ↔
      (∃ inner, (statement around offset first).run assembly = .error inner ∧
        fault = inner.locate origin) ∨
      ∃ front between, (statement around offset first).run assembly = .ok (front, between) ∧
        (block around (offset + Cell.totalSize front) rest).run between = .error fault := by
  rw [block, run_bind_eq_error, located_eq_error]
  refine or_congr_right ⟨?_, ?_⟩
  · rintro ⟨front, between, firstOk, failed⟩
    rcases run_bind_eq_error.mp failed with failed | ⟨back, next, -, never⟩
    · exact ⟨front, between, located_eq_ok firstOk, failed⟩
    · cases never
  · rintro ⟨front, between, firstOk, failed⟩
    exact ⟨front, between, locating_eq_ok.mpr firstOk, run_bind_eq_error.mpr (.inl failed)⟩

/-- A condition fails in its clauses, in its block, or because its block ends too far behind. -/
theorem branch_eq_error {clauses : List Clause} {body : Block} :
    (statement around offset (.branch clauses body)).run assembly = .error fault ↔
      (Encoder.clauses around clauses).run assembly.pool = .error fault ∨
      ∃ condition pool,
        (Encoder.clauses around clauses).run assembly.pool = .ok (condition, pool) ∧
        ((block around (offset + 5 + condition.length) body).run { assembly with pool := pool } =
            .error fault ∨
          ∃ inner next, (block around (offset + 5 + condition.length) body).run
              { assembly with pool := pool } = .ok (inner, next) ∧
            packNumber 4 (offset + 5 + condition.length + Cell.totalSize inner) =
              .error fault) := by
  have start (condition : Bytes) :
      offset + Cell.totalSize (.byte Opcode.branch.code :: Cell.ofBytes condition) + 4 =
        offset + 5 + condition.length := by
    rw [Cell.totalSize_cons, Cell.totalSize_ofBytes, Cell.size]
    omega
  rw [statement, run_bind_eq_error, encode_eq_error]
  refine or_congr_right ⟨?_, ?_⟩
  · rintro ⟨front, between, frontOk, failed⟩
    obtain ⟨condition, pool, clausesOk, rfl, rfl⟩ := encode_eq_ok frontOk
    refine ⟨condition, pool, clausesOk, ?_⟩
    rw [← start condition]
    rcases run_bind_eq_error.mp failed with failed | ⟨inner, next, bodyOk, failed⟩
    · exact .inl failed
    · rcases run_bind_eq_error.mp failed with failed | ⟨stop, last, -, never⟩
      · exact .inr ⟨inner, next, bodyOk, run_lift_eq_error.mp failed⟩
      · cases never
  · rintro ⟨condition, pool, clausesOk, failed⟩
    rw [← start condition] at failed
    refine ⟨_, _, run_encode clausesOk, run_bind_eq_error.mpr ?_⟩
    rcases failed with failed | ⟨inner, next, bodyOk, failed⟩
    · exact .inl failed
    · exact .inr ⟨inner, next, bodyOk, run_bind_eq_error.mpr (.inl (run_lift_eq_error.mpr failed))⟩

/-- A guard on the returned value fails if the value is no byte, or in its block. -/
theorem returnGuard_eq_error {value : Int} {body : Block} :
    (statement around offset (.returnGuard value body)).run assembly = .error fault ↔
      (Encoder.byte value).run assembly.pool = .error fault ∨
      ((0 ≤ value ∧ value ≤ 255) ∧
        (block around (offset + 2) body).run assembly = .error fault) := by
  rw [statement, run_bind_eq_error, encode_eq_error]
  refine or_congr_right ⟨?_, ?_⟩
  · rintro ⟨front, between, frontOk, failed⟩
    obtain ⟨bytes, pool, valueOk, rfl, rfl⟩ := encode_eq_ok frontOk
    obtain ⟨range, rfl, rfl⟩ := Encoder.byte_eq_ok valueOk
    rcases run_bind_eq_error.mp failed with failed | ⟨inner, next, bodyOk, never⟩
    · exact ⟨range, failed⟩
    · cases never
  · rintro ⟨range, failed⟩
    exact ⟨_, _, run_encode_byte range, run_bind_eq_error.mpr (.inl failed)⟩

/-! ### Getting to a line -/

/-- Encoding a text from an offset on gets to a place in a state. It fails there only if a block
is open and the place is too far behind to be its end, at four gigabytes or more. -/
def Reaches (offset : Nat) (attempt : Except Fault (List Cell × Assembly)) (place : Nat)
    (reached : Assembly) : Prop :=
  (∃ cells, attempt = .ok (cells, reached) ∧ place = offset + Cell.totalSize cells) ∨
    Bytes.range 4 ≤ place ∧ ∃ fault, attempt = .error fault ∧ fault.cause = .fieldOverflow place

namespace Reaches

variable {place : Nat} {reached : Assembly}

theorem front {origin : Option Origin} {first : Statement}
    (reaches : Reaches offset ((statement around offset first).run assembly) place reached) :
    Reaches offset ((block around offset (.cons origin first .nil)).run assembly) place
      reached := by
  rcases reaches with ⟨cells, firstOk, rfl⟩ | ⟨far, fault, failed, cause⟩
  · refine .inl ⟨cells ++ [], run_block_cons firstOk rfl, ?_⟩
    rw [List.append_nil]
  · exact .inr ⟨far, fault.locate origin, block_cons_eq_error.mpr (.inl ⟨fault, failed, rfl⟩),
      cause⟩

theorem behind {origin : Option Origin} {first : Statement} {rest : Block} {cells : List Cell}
    {between : Assembly}
    (firstOk : (statement around offset first).run assembly = .ok (cells, between))
    (reaches : Reaches (offset + Cell.totalSize cells)
      ((block around (offset + Cell.totalSize cells) rest).run between) place reached) :
    Reaches offset ((block around offset (.cons origin first rest)).run assembly) place
      reached := by
  rcases reaches with ⟨more, restOk, rfl⟩ | ⟨far, fault, failed, cause⟩
  · refine .inl ⟨cells ++ more, run_block_cons firstOk restOk, ?_⟩
    rw [Cell.totalSize_append, Nat.add_assoc]
  · exact .inr ⟨far, fault, block_cons_eq_error.mpr (.inr ⟨cells, between, firstOk, failed⟩),
      cause⟩

theorem branch {clauses : List Clause} {body : Block} {condition : Bytes} {pool : StringPool}
    (clausesOk : (Encoder.clauses around clauses).run assembly.pool = .ok (condition, pool))
    (reaches : Reaches (offset + 5 + condition.length)
      ((block around (offset + 5 + condition.length) body).run { assembly with pool := pool })
      place reached) :
    Reaches offset ((statement around offset (.branch clauses body)).run assembly) place
      reached := by
  rcases reaches with ⟨inner, bodyOk, rfl⟩ | ⟨far, fault, failed, cause⟩
  · by_cases fits : offset + 5 + condition.length + Cell.totalSize inner < Bytes.range 4
    · have packed := packNumber_eq_ok_iff.mpr ⟨fits, rfl⟩
      refine .inl ⟨_, run_branch clausesOk bodyOk packed, ?_⟩
      rw [Cell.totalSize_append, Cell.totalSize_ofBytes, List.length_append, List.length_cons,
        Bytes.length_ofNatLittle]
      omega
    · have failed := packNumber_eq 4 (offset + 5 + condition.length + Cell.totalSize inner)
      rw [if_neg fits] at failed
      exact .inr ⟨Nat.not_lt.mp fits, _, branch_eq_error.mpr
        (.inr ⟨condition, pool, clausesOk, .inr ⟨inner, reached, bodyOk, failed⟩⟩), rfl⟩
  · exact .inr ⟨far, fault, branch_eq_error.mpr (.inr ⟨condition, pool, clausesOk, .inl failed⟩),
      cause⟩

theorem returnGuard {value : Int} {body : Block} (range : 0 ≤ value ∧ value ≤ 255)
    (reaches : Reaches (offset + 2) ((block around (offset + 2) body).run assembly) place
      reached) :
    Reaches offset ((statement around offset (.returnGuard value body)).run assembly) place
      reached := by
  rcases reaches with ⟨inner, bodyOk, rfl⟩ | ⟨far, fault, failed, cause⟩
  · refine .inl ⟨_, run_returnGuard range bodyOk, ?_⟩
    rw [Cell.totalSize_append, Cell.totalSize_ofBytes, ← Nat.add_assoc]
    rfl
  · exact .inr ⟨far, fault, returnGuard_eq_error.mpr (.inr ⟨range, failed⟩), cause⟩

end Reaches

/-! ### The line that is blamed -/

/-- A fault is that of a line, the statement on which is the one behind so many others of a
text that can be cut at any line. The text before the line can be encoded; the statement,
encoded from there on without its block, has the fault and blames no line; and the text up to
the line has the fault with the line blamed for it. -/
structure Blames (around : Surroundings) (offset : Nat) (assembly : Assembly)
    (text : Nat → Assembler (List Cell)) (index : Nat) (origin : Origin) (written : Statement)
    (fault : Fault) : Prop where
  blamed : fault = (Fault.of fault.cause).locate (some origin)
  before : ∃ place reached, Reaches offset ((text index).run assembly) place reached ∧
    (statement around place (written.withBody .nil)).run reached = .error (.of fault.cause)
  upTo : (text (index + 1)).run assembly = .error fault

/-- A line that is blamed stays. -/
theorem Blames.locate {text : Nat → Assembler (List Cell)} {index : Nat} {origin : Origin}
    {written : Statement} (blames : Blames around offset assembly text index origin written fault)
    (other : Option Origin) : fault.locate other = fault := by
  rw [blames.blamed]
  rfl

mutual

/-- A statement with a block has the fault itself, or else a line in its block is blamed. -/
theorem statement_blames (written : Statement)
    (located : ∀ entry ∈ written.inOrder, entry.1.isSome = true) {offset : Nat}
    {assembly : Assembly} {fault : Fault}
    (failed : (statement around offset written).run assembly = .error fault)
    (reported : fault.cause.isReported = true) :
    (statement around offset (written.withBody .nil)).run assembly = .error fault ∨
      ∃ index origin inner, written.inOrder[index]? = some (some origin, inner) ∧
        Blames around offset assembly
          (fun count => statement around offset (written.takeLines count)) index origin inner
          fault := by
  cases written with
  | branch clauses body =>
    rcases branch_eq_error.mp failed with refused | ⟨condition, pool, clausesOk, failed | later⟩
    · exact .inl (branch_eq_error.mpr (.inl refused))
    · obtain ⟨index, origin, inner, member, blames⟩ :=
        block_blames body located failed reported
      obtain ⟨place, reached, reaches, own⟩ := blames.before
      refine .inr ⟨index, origin, inner, member, blames.blamed,
        ⟨place, reached, reaches.branch clausesOk, own⟩, ?_⟩
      exact branch_eq_error.mpr (.inr ⟨condition, pool, clausesOk, .inl blames.upTo⟩)
    · -- An end that is too far behind is no fault that is reported.
      obtain ⟨inner, next, -, packed⟩ := later
      rw [packNumber_eq] at packed
      split at packed
      · cases packed
      · cases packed
        cases reported
  | returnGuard value body =>
    rcases returnGuard_eq_error.mp failed with refused | ⟨range, failed⟩
    · exact .inl (returnGuard_eq_error.mpr (.inl refused))
    · obtain ⟨index, origin, inner, member, blames⟩ :=
        block_blames body located failed reported
      obtain ⟨place, reached, reaches, own⟩ := blames.before
      refine .inr ⟨index, origin, inner, member, blames.blamed,
        ⟨place, reached, reaches.returnGuard range, own⟩, ?_⟩
      exact returnGuard_eq_error.mpr (.inr ⟨range, blames.upTo⟩)
  | _ => exact .inl failed

/-- A block whose encoding fails blames one of its lines. -/
theorem block_blames (written : Block)
    (located : ∀ entry ∈ written.inOrder, entry.1.isSome = true) {offset : Nat}
    {assembly : Assembly} {fault : Fault}
    (failed : (block around offset written).run assembly = .error fault)
    (reported : fault.cause.isReported = true) :
    ∃ index origin inner, written.inOrder[index]? = some (some origin, inner) ∧
      Blames around offset assembly (fun count => block around offset (written.takeLines count))
        index origin inner fault := by
  cases written with
  | nil => cases failed
  | cons origin first rest =>
    obtain ⟨here, others⟩ := List.forall_mem_cons.mp located
    obtain ⟨inside, behind⟩ := List.forall_mem_append.mp others
    rcases block_cons_eq_error.mp failed with ⟨inner, refused, rfl⟩ | ⟨cells, between, firstOk,
      refused⟩
    · rcases statement_blames first inside refused reported with own | ⟨index, line, found, member,
        blames⟩
      · obtain ⟨line, rfl⟩ := Option.isSome_iff_exists.mp here
        have unlocated := (refuses_bodiless first offset assembly inner own).unlocated
        have same : inner = .of inner.cause := congrArg (Fault.mk inner.cause) unlocated
        have cut : (Block.cons (some line) first rest).takeLines 1 =
            .cons (some line) (first.takeLines 0) .nil :=
          Block.takeLines_inside rest (Nat.zero_le _)
        rw [Statement.takeLines_zero] at cut
        refine ⟨0, line, first, rfl, congrArg (Fault.locate · (some line)) same,
          ⟨offset, assembly, .inl ⟨[], rfl, rfl⟩, own.trans (congrArg _ same)⟩, ?_⟩
        rw [cut]
        exact block_cons_eq_error.mpr (.inl ⟨inner, own, rfl⟩)
      · have bound : index < first.inOrder.length := (List.getElem?_eq_some_iff.mp member).1
        obtain ⟨place, reached, reaches, own⟩ := blames.before
        rw [blames.locate]
        refine ⟨index + 1, line, found, ?_, blames.blamed, ⟨place, reached, ?_, own⟩, ?_⟩
        · rw [Block.inOrder, List.getElem?_cons_succ, List.getElem?_append_left bound, member]
        · rw [Block.takeLines_inside rest (Nat.le_of_lt bound)]
          exact reaches.front
        · rw [Block.takeLines_inside rest bound]
          exact block_cons_eq_error.mpr (.inl ⟨inner, blames.upTo, (blames.locate origin).symm⟩)
    · obtain ⟨index, line, found, member, blames⟩ := block_blames rest behind refused reported
      obtain ⟨place, reached, reaches, own⟩ := blames.before
      refine ⟨first.inOrder.length + index + 1, line, found, ?_, blames.blamed,
        ⟨place, reached, ?_, own⟩, ?_⟩
      · rw [Block.inOrder, List.getElem?_cons_succ,
          List.getElem?_append_right (Nat.le_add_right _ _), Nat.add_sub_cancel_left, member]
      · rw [Block.takeLines_behind]
        exact reaches.behind firstOk
      · rw [Nat.add_assoc _ index, Block.takeLines_behind]
        exact block_cons_eq_error.mpr (.inr ⟨cells, between, firstOk, blames.upTo⟩)

end

end Assembler

/-! ### Scripts -/

theorem Statement.inOrder_withBody {statement : Statement} (hasBody : statement.hasBody = true)
    (body : Block) : (statement.withBody body).inOrder = body.inOrder := by
  cases statement with
  | branch => rfl
  | returnGuard => rfl
  | _ => cases hasBody

theorem Statement.inOrder_single {statement : Statement} (noBody : statement.hasBody = false) :
    statement.inOrder = [] := by
  cases statement with
  | branch => cases noBody
  | returnGuard => cases noBody
  | _ => rfl

/-- Every statement that is read from lines has the line it was read from. -/
theorem Unfolds.located {lines : List ScriptLine} {block : Block}
    (unfolds : Unfolds lines block) : ∀ entry ∈ block.inOrder, entry.1.isSome = true := by
  induction unfolds with
  | nil => exact fun _ member => absurd member List.not_mem_nil
  | single plain read noBody rest restLocated =>
    rw [Block.inOrder, Statement.inOrder_single noBody, List.nil_append]
    exact List.forall_mem_cons.mpr ⟨rfl, restLocated⟩
  | nested plain read hasBody opens inside closes rest insideLocated restLocated =>
    rw [Block.inOrder, Statement.inOrder_withBody hasBody]
    exact List.forall_mem_cons.mpr ⟨rfl, List.forall_mem_append.mpr ⟨insideLocated, restLocated⟩⟩

theorem Script.located_of_parse {symbols : Symbols} {text : List Char} {scripts : List Script}
    (parsed : Script.parse symbols text = .ok scripts) :
    ∀ script ∈ scripts, ∀ entry ∈ script.body.inOrder, entry.1.isSome = true := by
  obtain ⟨lines, -, read⟩ := bind_eq_ok.mp parsed
  refine readScripts_forall (fun _ _ _ _ _ _ _ bodyRead => ?_) read
  obtain ⟨inner, closing, -, -, unfolds⟩ := unfolds_of_readBlock bodyRead
  exact unfolds.located

/-- A script with an unknown flag inside of two blocks. -/
def lockText : List Char :=
  ("LOCK\n\x7b\nEndint\nif open = 0\n\x7b\n#10:\nif <ScriptRv> = 1\n\x7b\nmissing = 1\nEndint\n" ++
    "\x7d\n\x7d\n#10:\n\x7d").toList

end MapScript
