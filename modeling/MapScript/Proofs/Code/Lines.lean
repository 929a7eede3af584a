/-
This file places the lines of a script in its code. What stands before a line is a text of
its own once the blocks that are open there are closed behind it, and the line is placed
where the code of that text ends. So the place of a line is the number of bytes that are
written before it, whatever follows; it is shown that the text before a line is encoded
whenever the whole is, and that places are found from one statement to the next.
-/

import MapScript.Proofs.Listing.Cells

namespace MapScript

/-! ### Cutting a text before a line -/

/-- A text cut before a line: what stands before it, and the statement on the line. -/
structure Cut (α : Type) where
  before : α
  statement : Statement

mutual

/-- The cuts before the lines in the block of a statement. -/
def Statement.cuts : Statement → List (Cut Statement)
  | .branch clauses body => body.cuts.map fun cut => ⟨.branch clauses cut.before, cut.statement⟩
  | .returnGuard value body =>
    body.cuts.map fun cut => ⟨.returnGuard value cut.before, cut.statement⟩
  | _ => []

/-- The cuts before the lines of a block and of the blocks in it, in the order of the text. -/
def Block.cuts : Block → List (Cut Block)
  | .nil => []
  | .cons origin first rest =>
    ⟨.nil, first⟩ ::
      (first.cuts.map (fun cut => ⟨.cons origin cut.before .nil, cut.statement⟩) ++
        rest.cuts.map fun cut => ⟨.cons origin first cut.before, cut.statement⟩)

end

/-! ### Places of lines -/

/-- A line of a script: the number of bytes that are written before it, and the statement
on it. -/
structure CodeLine where
  address : Nat
  statement : Statement

namespace Assembler

/-- Where code that starts at an offset ends. -/
def stop (offset : Nat) (assembly : Assembly) (assembler : Assembler (List Cell)) : Nat :=
  match assembler.run assembly with
  | .ok (cells, _) => offset + Cell.totalSize cells
  | .error _ => offset

theorem stop_eq {offset : Nat} {assembly next : Assembly} {assembler : Assembler (List Cell)}
    {cells : List Cell} (encoded : assembler.run assembly = .ok (cells, next)) :
    stop offset assembly assembler = offset + Cell.totalSize cells := by
  rw [stop, encoded]

/-- The lines in the block of a statement that starts at an offset. -/
def innerLines (around : Surroundings) (offset : Nat) (assembly : Assembly)
    (written : Statement) : List CodeLine :=
  written.cuts.map fun cut =>
    ⟨stop offset assembly (statement around offset cut.before), cut.statement⟩

/-- The lines of a block that starts at an offset, and of the blocks in it. -/
def lines (around : Surroundings) (offset : Nat) (assembly : Assembly) (written : Block) :
    List CodeLine :=
  written.cuts.map fun cut =>
    ⟨stop offset assembly (block around offset cut.before), cut.statement⟩

end Assembler

/-- The lines of a script. -/
def Script.codeLines (symbols : Symbols) (locals : Option (List Int)) (script : Script) :
    List CodeLine :=
  Assembler.lines ⟨symbols, locals⟩ 0 .empty script.body

/-! ### What stands before a line is encoded -/

namespace Assembler

variable {around : Surroundings}

/-- A text is encoded whenever the text that it is the start of is, and takes no more
bytes. -/
def Shortens (assembly : Assembly) (cells : List Cell) (assembler : Assembler (List Cell)) :
    Prop :=
  ∃ shorter after, assembler.run assembly = .ok (shorter, after) ∧
    Cell.totalSize shorter ≤ Cell.totalSize cells

mutual

theorem statement_shortens (written : Statement) {offset : Nat} {assembly next : Assembly}
    {cells : List Cell}
    (encoded : (statement around offset written).run assembly = .ok (cells, next)) :
    ∀ cut ∈ written.cuts, Shortens assembly cells (statement around offset cut.before) := by
  cases written with
  | branch clauses body =>
    obtain ⟨condition, pool, inner, stop, clausesOk, bodyOk, packed, rfl⟩ := branch_eq_ok encoded
    intro cut member
    obtain ⟨start, inside, rfl⟩ := List.mem_map.mp member
    obtain ⟨shorter, after, run, less⟩ := block_shortens body bodyOk start inside
    have closed := packNumber_of_le packed (Nat.add_le_add_left less _)
    refine ⟨_, after, run_branch clausesOk run closed, ?_⟩
    simp only [Cell.totalSize_append, Cell.totalSize_ofBytes, List.length_append,
      List.length_cons, Bytes.length_ofNatLittle, (Encoder.packNumber_eq_ok packed).1]
    omega
  | returnGuard value body =>
    obtain ⟨inner, range, bodyOk, rfl⟩ := returnGuard_eq_ok encoded
    intro cut member
    obtain ⟨start, inside, rfl⟩ := List.mem_map.mp member
    obtain ⟨shorter, after, run, less⟩ := block_shortens body bodyOk start inside
    refine ⟨_, after, run_returnGuard range run, ?_⟩
    simp only [Cell.totalSize_append, Cell.totalSize_ofBytes]
    omega
  | _ => exact fun cut member => absurd member List.not_mem_nil

theorem block_shortens (written : Block) {offset : Nat} {assembly next : Assembly}
    {cells : List Cell}
    (encoded : (block around offset written).run assembly = .ok (cells, next)) :
    ∀ cut ∈ written.cuts, Shortens assembly cells (block around offset cut.before) := by
  cases written with
  | nil => exact fun cut member => absurd member List.not_mem_nil
  | cons origin first rest =>
    obtain ⟨front, between, back, firstOk, restOk, rfl⟩ := block_cons_eq_ok encoded
    intro cut member
    rcases List.mem_cons.mp member with rfl | member
    · exact ⟨[], assembly, rfl, Nat.zero_le _⟩
    · rcases List.mem_append.mp member with member | member
      · obtain ⟨start, inside, rfl⟩ := List.mem_map.mp member
        obtain ⟨shorter, after, run, less⟩ := statement_shortens first firstOk start inside
        refine ⟨shorter ++ [], after, run_block_cons run rfl, ?_⟩
        rw [List.append_nil, Cell.totalSize_append]
        omega
      · obtain ⟨start, inside, rfl⟩ := List.mem_map.mp member
        obtain ⟨shorter, after, run, less⟩ := block_shortens rest restOk start inside
        refine ⟨front ++ shorter, after, run_block_cons firstOk run, ?_⟩
        rw [Cell.totalSize_append, Cell.totalSize_append]
        omega

end

/-! ### From one statement to the next -/

section

variable {offset : Nat} {assembly next : Assembly}

/-- The lines of a block: its first line, those in the block of the first statement, and
those behind it. -/
theorem lines_cons {origin : Option Origin} {first : Statement} {rest : Block}
    {front back : List Cell} {between : Assembly}
    (firstOk : (statement around offset first).run assembly = .ok (front, between))
    (restOk : (block around (offset + Cell.totalSize front) rest).run between =
      .ok (back, next)) :
    lines around offset assembly (.cons origin first rest) =
      ⟨offset, first⟩ :: (innerLines around offset assembly first ++
        lines around (offset + Cell.totalSize front) between rest) := by
  simp only [lines, innerLines, Block.cuts, List.map_cons, List.map_append, List.map_map]
  congr 2
  · refine List.map_congr_left fun cut member => ?_
    obtain ⟨shorter, after, run, -⟩ := statement_shortens first firstOk cut member
    have closed : (block around offset (.cons origin cut.before .nil)).run assembly =
        .ok (shorter ++ [], after) := run_block_cons run rfl
    simp only [Function.comp_apply, stop_eq run, stop_eq closed, List.append_nil]
  · refine List.map_congr_left fun cut member => ?_
    obtain ⟨shorter, after, run, -⟩ := block_shortens rest restOk cut member
    simp only [Function.comp_apply, stop_eq run, stop_eq (run_block_cons firstOk run),
      Cell.totalSize_append, Nat.add_assoc]

theorem innerLines_branch {clauses : List Clause} {body : Block} {condition stop : Bytes}
    {pool : StringPool} {inner : List Cell}
    (clausesOk : (Encoder.clauses around clauses).run assembly.pool = .ok (condition, pool))
    (bodyOk : (block around (offset + 5 + condition.length) body).run
      { assembly with pool := pool } = .ok (inner, next))
    (packed : packNumber 4 (offset + 5 + condition.length + Cell.totalSize inner) = .ok stop) :
    innerLines around offset assembly (.branch clauses body) =
      lines around (offset + 5 + condition.length) { assembly with pool := pool } body := by
  simp only [lines, innerLines, Statement.cuts, List.map_map]
  refine List.map_congr_left fun cut member => ?_
  obtain ⟨shorter, after, run, less⟩ := block_shortens body bodyOk cut member
  have closed := packNumber_of_le packed (Nat.add_le_add_left less _)
  have size : 5 + condition.length + Cell.totalSize shorter = Cell.totalSize
      (Cell.ofBytes (Opcode.branch.code :: condition ++ Bytes.ofNatLittle 4
        (offset + 5 + condition.length + Cell.totalSize shorter)) ++ shorter) := by
    rw [Cell.totalSize_append, Cell.totalSize_ofBytes, List.length_append, List.length_cons,
      Bytes.length_ofNatLittle]
    omega
  simp only [Function.comp_apply]
  rw [stop_eq run, stop_eq (run_branch clausesOk run closed), ← size]
  simp only [Nat.add_assoc]

theorem innerLines_returnGuard {value : Int} {body : Block} {inner : List Cell}
    (range : 0 ≤ value ∧ value ≤ 255)
    (bodyOk : (block around (offset + 2) body).run assembly = .ok (inner, next)) :
    innerLines around offset assembly (.returnGuard value body) =
      lines around (offset + 2) assembly body := by
  simp only [lines, innerLines, Statement.cuts, List.map_map]
  refine List.map_congr_left fun cut member => ?_
  obtain ⟨shorter, after, run, -⟩ := block_shortens body bodyOk cut member
  simp only [Function.comp_apply, stop_eq run, stop_eq (run_returnGuard range run),
    Cell.totalSize_append, Cell.totalSize_ofBytes, Nat.add_assoc]
  rfl

/-- No line starts behind the end of the code. -/
theorem address_le_of_mem_lines {written : Block} {cells : List Cell}
    (encoded : (block around offset written).run assembly = .ok (cells, next)) :
    ∀ line ∈ lines around offset assembly written,
      line.address ≤ offset + Cell.totalSize cells := by
  intro line member
  obtain ⟨cut, inside, rfl⟩ := List.mem_map.mp member
  obtain ⟨shorter, after, run, less⟩ := block_shortens written encoded cut inside
  rw [stop_eq run]
  exact Nat.add_le_add_left less offset

end

end Assembler

end MapScript
