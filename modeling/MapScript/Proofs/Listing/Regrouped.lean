/-
This file moves statements into and out of the blocks of guards on the returned value. The
code of a guard does not say where its block ends, and reading takes it to end with the
first statement that ends four bytes or more behind its start. A script whose blocks are
regrouped in this way has the same code. This works for every guard behind which the
condition or the script that it stands in goes on for four bytes.
-/

import MapScript.Proofs.Listing.Scripts

namespace MapScript

/-! ### Room for guards -/

mutual

/-- Behind the start of the block of every guard in a statement there are four bytes, up
to the end of the condition or the script that the guard stands in. So many bytes of
these lie behind the statement. -/
def Statement.Roomy (symbols : Symbols) (behind : Nat) : Statement → Prop
  | .branch _ body => body.Roomy symbols 0
  | .returnGuard _ body =>
    returnGuardSize ≤ body.codeSize symbols + behind ∧ body.Roomy symbols behind
  | _ => True

/-- The guards in a block have room. -/
def Block.Roomy (symbols : Symbols) (behind : Nat) : Block → Prop
  | .nil => True
  | .cons _ first rest =>
    first.Roomy symbols (rest.codeSize symbols + behind) ∧ rest.Roomy symbols behind

end

mutual

/-- Whether the guards in a statement have room. -/
def Statement.decideRoomy (symbols : Symbols) (behind : Nat) :
    (statement : Statement) → Decidable (statement.Roomy symbols behind)
  | .branch _ body => body.decideRoomy symbols 0
  | .returnGuard _ body =>
    have := body.decideRoomy symbols behind
    inferInstanceAs (Decidable (returnGuardSize ≤ body.codeSize symbols + behind ∧
      body.Roomy symbols behind))
  | .label _ | .expression _ | .assign .. | .objectStep .. | .jump .. | .word _ | .anchor _
  | .taskPause _ | .bare => isTrue trivial

/-- Whether the guards in a block have room. -/
def Block.decideRoomy (symbols : Symbols) (behind : Nat) :
    (block : Block) → Decidable (block.Roomy symbols behind)
  | .nil => isTrue trivial
  | .cons _ first rest =>
    have := first.decideRoomy symbols (rest.codeSize symbols + behind)
    have := rest.decideRoomy symbols behind
    inferInstanceAs (Decidable (first.Roomy symbols (rest.codeSize symbols + behind) ∧
      rest.Roomy symbols behind))

end

instance (symbols : Symbols) (behind : Nat) (block : Block) :
    Decidable (block.Roomy symbols behind) :=
  block.decideRoomy symbols behind

/-! ### Regrouping -/

/-- The statements of a block up to the first one that ends so many bytes or more behind
its start. -/
def Block.takeSize (symbols : Symbols) (size : Nat) : Block → Block
  | .nil => .nil
  | .cons origin first rest =>
    if size = 0 then .nil
    else .cons origin first (rest.takeSize symbols (size - first.codeSize symbols))

/-- The statements behind those. -/
def Block.dropSize (symbols : Symbols) (size : Nat) : Block → Block
  | .nil => .nil
  | .cons origin first rest =>
    if size = 0 then .cons origin first rest
    else rest.dropSize symbols (size - first.codeSize symbols)

mutual

/-- A statement and what follows it, regrouped. -/
def Statement.regrouped (symbols : Symbols) (origin : Option Origin) (after : Block) :
    Statement → Block
  | .branch clauses body =>
    .cons origin (.branch clauses (Block.regrouped symbols .nil body)) after
  | .returnGuard value body =>
    let inside := Block.regrouped symbols after body
    .cons origin (.returnGuard value (inside.takeSize symbols returnGuardSize))
      (inside.dropSize symbols returnGuardSize)
  | other => .cons origin other after

/-- A block and what follows it, regrouped. -/
def Block.regrouped (symbols : Symbols) (after : Block) : Block → Block
  | .nil => after
  | .cons origin first rest =>
    first.regrouped symbols origin (Block.regrouped symbols after rest)

end

/-! ### Sizes -/

section Sizes

variable {symbols : Symbols}

theorem Block.takeSize_zero (block : Block) : block.takeSize symbols 0 = .nil := by
  cases block <;> rfl

theorem Block.codeSize_take_drop (block : Block) (size : Nat) :
    (block.takeSize symbols size).codeSize symbols +
      (block.dropSize symbols size).codeSize symbols = block.codeSize symbols := by
  induction block using Block.inductionOn generalizing size with
  | nil => rfl
  | cons origin first rest inductionHypothesis =>
    unfold Block.takeSize Block.dropSize
    split
    · exact Nat.zero_add _
    · rw [Block.codeSize, Block.codeSize, Nat.add_assoc, inductionHypothesis]

theorem Block.le_codeSize_takeSize {block : Block} {size : Nat}
    (enough : size ≤ block.codeSize symbols) :
    size ≤ (block.takeSize symbols size).codeSize symbols := by
  induction block using Block.inductionOn generalizing size with
  | nil => exact enough
  | cons origin first rest inductionHypothesis =>
    unfold Block.takeSize
    split
    · rename_i none
      rw [none]
      exact Nat.zero_le _
    · rw [Block.codeSize] at enough ⊢
      have others : size - first.codeSize symbols ≤ rest.codeSize symbols := by omega
      have := inductionHypothesis others
      omega

theorem Block.lastStart?_takeSize_lt {block : Block} {size offset start : Nat}
    (last : (block.takeSize symbols size).lastStart? symbols offset = some start) :
    start < offset + size := by
  induction block using Block.inductionOn generalizing size offset with
  | nil => cases last
  | cons origin first rest inductionHypothesis =>
    unfold Block.takeSize at last
    split at last
    · cases last
    · rename_i positive
      rw [Block.lastStart?] at last
      split at last
      · rename_i found
        cases last
        have before := inductionHypothesis found
        by_cases fits : first.codeSize symbols ≤ size
        · omega
        · rw [Nat.sub_eq_zero_of_le (Nat.le_of_not_le fits), Block.takeSize_zero] at found
          cases found
      · split at last
        · cases last
        · cases last
          omega

mutual

theorem Statement.codeSize_regrouped (statement : Statement) (origin : Option Origin)
    (after : Block) :
    (statement.regrouped symbols origin after).codeSize symbols =
      statement.codeSize symbols + after.codeSize symbols := by
  match statement with
  | .branch clauses body =>
    rw [Statement.regrouped, Block.codeSize, Statement.codeSize, Statement.codeSize,
      Block.codeSize_regrouped body, Block.codeSize, Nat.add_zero]
  | .returnGuard value body =>
    rw [Statement.regrouped, Block.codeSize, Statement.codeSize, Statement.codeSize,
      Nat.add_assoc, Block.codeSize_take_drop, Block.codeSize_regrouped body, Nat.add_assoc]
  | .label _ | .expression _ | .assign .. | .objectStep .. | .jump .. | .word _ | .anchor _
  | .taskPause _ | .bare => rfl

theorem Block.codeSize_regrouped (block after : Block) :
    (Block.regrouped symbols after block).codeSize symbols =
      block.codeSize symbols + after.codeSize symbols := by
  match block with
  | .nil => exact (Nat.zero_add _).symm
  | .cons origin first rest =>
    rw [Block.regrouped, Statement.codeSize_regrouped first, Block.codeSize_regrouped rest,
      Block.codeSize, Nat.add_assoc]

end

end Sizes

/-! ### What regrouping keeps -/

section Properties

variable {symbols : Symbols} {property : Statement → Prop}

theorem Block.each_take_drop {block : Block} (each : block.Each property) (size : Nat) :
    (block.takeSize symbols size).Each property ∧ (block.dropSize symbols size).Each property := by
  induction block using Block.inductionOn generalizing size with
  | nil => exact ⟨trivial, trivial⟩
  | cons origin first rest inductionHypothesis =>
    unfold Block.takeSize Block.dropSize
    split
    · exact ⟨trivial, each⟩
    · obtain ⟨front, back⟩ := inductionHypothesis each.2 (size - first.codeSize symbols)
      exact ⟨⟨each.1, front⟩, back⟩

theorem Block.covered_take_drop {block : Block} (covered : block.Covered symbols) (size : Nat) :
    (block.takeSize symbols size).Covered symbols ∧
      (block.dropSize symbols size).Covered symbols := by
  induction block using Block.inductionOn generalizing size with
  | nil => exact ⟨trivial, trivial⟩
  | cons origin first rest inductionHypothesis =>
    unfold Block.takeSize Block.dropSize
    split
    · exact ⟨trivial, covered⟩
    · obtain ⟨front, back⟩ := inductionHypothesis covered.2 (size - first.codeSize symbols)
      exact ⟨⟨covered.1, front⟩, back⟩

mutual

theorem Statement.each_regrouped (blind : BodyBlind property) (statement : Statement)
    (each : statement.Each property) (origin : Option Origin) {after : Block}
    (later : after.Each property) :
    (statement.regrouped symbols origin after).Each property := by
  match statement with
  | .branch clauses body =>
    exact ⟨⟨blind _ _ each.1, Block.each_regrouped blind body each.2 trivial⟩, later⟩
  | .returnGuard value body =>
    obtain ⟨front, back⟩ := @Block.each_take_drop symbols property _
      (Block.each_regrouped blind body each.2 later) returnGuardSize
    exact ⟨⟨blind _ _ each.1, front⟩, back⟩
  | .label _ | .expression _ | .assign .. | .objectStep .. | .jump .. | .word _ | .anchor _
  | .taskPause _ | .bare => exact ⟨each, later⟩

/-- What holds of every statement whatever its block holds after regrouping. -/
theorem Block.each_regrouped (blind : BodyBlind property) (block : Block)
    (each : block.Each property) {after : Block} (later : after.Each property) :
    (Block.regrouped symbols after block).Each property := by
  match block with
  | .nil => exact later
  | .cons origin first rest =>
    exact Statement.each_regrouped blind first each.1 origin
      (Block.each_regrouped blind rest each.2 later)

end

mutual

theorem Statement.covered_regrouped (statement : Statement)
    (shaped : statement.Each Statement.Shaped) (origin : Option Origin) {after : Block}
    (laterShaped : after.Each Statement.Shaped)
    (roomy : statement.Roomy symbols (after.codeSize symbols)) (later : after.Covered symbols) :
    (statement.regrouped symbols origin after).Covered symbols := by
  match statement with
  | .branch clauses body => exact ⟨Block.covered_regrouped body shaped.2 trivial roomy trivial, later⟩
  | .returnGuard value body =>
    have insideShaped := @Block.each_regrouped symbols _ Statement.shaped_bodyBlind body shaped.2 _
      laterShaped
    obtain ⟨front, back⟩ := Block.covered_take_drop
      (Block.covered_regrouped body shaped.2 laterShaped roomy.2 later) returnGuardSize
    have enough : returnGuardSize ≤ (Block.regrouped symbols after body).codeSize symbols := by
      rw [Block.codeSize_regrouped]
      exact roomy.1
    have size := Block.le_codeSize_takeSize enough
    have filled : ((Block.regrouped symbols after body).takeSize symbols
        returnGuardSize).onlyLabels = false := by
      refine Bool.eq_false_iff.mpr fun only => ?_
      rw [(Block.codeSize_eq_zero_iff
        (Block.each_take_drop insideShaped returnGuardSize).1).mpr only] at size
      exact absurd size (by decide)
    obtain ⟨start, last⟩ := Block.lastStart?_isSome symbols 0 filled
    have within := Block.lastStart?_takeSize_lt last
    rw [Nat.zero_add] at within
    exact ⟨⟨size, ⟨start, last, within⟩, front⟩, back⟩
  | .label _ | .expression _ | .assign .. | .objectStep .. | .jump .. | .word _ | .anchor _
  | .taskPause _ | .bare => exact ⟨trivial, later⟩

/-- After regrouping the block of every guard ends where reading takes it to end. -/
theorem Block.covered_regrouped (block : Block) (shaped : block.Each Statement.Shaped)
    {after : Block} (laterShaped : after.Each Statement.Shaped)
    (roomy : block.Roomy symbols (after.codeSize symbols)) (later : after.Covered symbols) :
    (Block.regrouped symbols after block).Covered symbols := by
  match block with
  | .nil => exact later
  | .cons origin first rest =>
    have others := Block.covered_regrouped rest shaped.2 laterShaped roomy.2 later
    refine Statement.covered_regrouped first shaped.1 origin
      (Block.each_regrouped Statement.shaped_bodyBlind rest shaped.2 laterShaped) ?_ others
    rw [Block.codeSize_regrouped]
    exact roomy.1

end

end Properties

/-! ### Code -/

namespace Assembler

variable {around : Surroundings}

/-- A block is encoded in two parts. -/
theorem run_take_drop (written : Block) {offset size : Nat} {assembly next : Assembly}
    {cells : List Cell}
    (encoded : (block around offset written).run assembly = .ok (cells, next)) :
    ∃ front between back,
      (block around offset (written.takeSize around.symbols size)).run assembly =
        .ok (front, between) ∧
      (block around (offset + Cell.totalSize front) (written.dropSize around.symbols size)).run
        between = .ok (back, next) ∧ cells = front ++ back := by
  induction written using Block.inductionOn generalizing offset size assembly cells with
  | nil => exact ⟨[], assembly, cells, rfl, encoded, rfl⟩
  | cons origin first rest inductionHypothesis =>
    unfold Block.takeSize Block.dropSize
    split
    · exact ⟨[], assembly, cells, rfl, encoded, rfl⟩
    · obtain ⟨one, middle, others, firstOk, restOk, rfl⟩ := block_cons_eq_ok encoded
      obtain ⟨front, between, back, frontOk, backOk, rfl⟩ := inductionHypothesis restOk
      refine ⟨one ++ front, between, back, run_block_cons firstOk frontOk, ?_,
        (List.append_assoc _ _ _).symm⟩
      rw [Cell.totalSize_append, ← Nat.add_assoc]
      exact backOk

mutual

theorem run_statement_regrouped (written : Statement) {offset : Nat} {origin : Option Origin}
    {after : Block} {assembly between next : Assembly} {cells more : List Cell}
    (encoded : (statement around offset written).run assembly = .ok (cells, between))
    (later : (block around (offset + Cell.totalSize cells) after).run between =
      .ok (more, next)) :
    (block around offset (written.regrouped around.symbols origin after)).run assembly =
      .ok (cells ++ more, next) := by
  match written with
  | .branch clauses body =>
    obtain ⟨condition, pool, inner, stop, clausesOk, bodyOk, packed, rfl⟩ := branch_eq_ok encoded
    have regrouped := @run_block_regrouped body _ .nil _ _ _ _ [] bodyOk rfl
    rw [List.append_nil] at regrouped
    exact run_block_cons (run_branch clausesOk regrouped packed) later
  | .returnGuard value body =>
    obtain ⟨inner, range, bodyOk, rfl⟩ := returnGuard_eq_ok encoded
    rw [Cell.totalSize_append, ← Nat.add_assoc] at later
    obtain ⟨front, middle, back, frontOk, backOk, same⟩ :=
      run_take_drop _ (run_block_regrouped body bodyOk later)
    rw [List.append_assoc, same, ← List.append_assoc]
    refine run_block_cons (run_returnGuard range frontOk) ?_
    rw [Cell.totalSize_append, ← Nat.add_assoc]
    exact backOk
  | .label _ | .expression _ | .assign .. | .objectStep .. | .jump .. | .word _ | .anchor _
  | .taskPause _ | .bare => exact run_block_cons encoded later

/-- A block that is regrouped has the same code. -/
theorem run_block_regrouped (written : Block) {offset : Nat} {after : Block}
    {assembly between next : Assembly} {cells more : List Cell}
    (encoded : (block around offset written).run assembly = .ok (cells, between))
    (later : (block around (offset + Cell.totalSize cells) after).run between =
      .ok (more, next)) :
    (block around offset (Block.regrouped around.symbols after written)).run assembly =
      .ok (cells ++ more, next) := by
  match written with
  | .nil =>
    cases run_pure_eq_ok.mp encoded
    exact later
  | .cons origin first rest =>
    obtain ⟨front, middle, back, firstOk, restOk, rfl⟩ := block_cons_eq_ok encoded
    rw [Cell.totalSize_append, ← Nat.add_assoc] at later
    rw [List.append_assoc]
    exact run_statement_regrouped first firstOk (run_block_regrouped rest restOk later)

end

end Assembler

/-- A script with its blocks regrouped. -/
def Script.regrouped (symbols : Symbols) (script : Script) : Script :=
  { script with body := Block.regrouped symbols .nil script.body }

/-- Regrouping does not change what a script is compiled to. -/
theorem Script.compile_regrouped {script : Script} {symbols : Symbols}
    {locals : Option (List Int)} {compiled : Compiled}
    (done : script.compile symbols locals = .ok compiled) :
    (script.regrouped symbols).compile symbols locals = .ok compiled := by
  obtain ⟨⟨cells, assembly⟩, encoded, done⟩ := bind_eq_ok.mp done
  have regrouped := @Assembler.run_block_regrouped ⟨symbols, locals⟩ script.body _ .nil _ _ _ _ []
    encoded rfl
  rw [List.append_nil] at regrouped
  exact bind_eq_ok.mpr ⟨(cells, assembly), regrouped, done⟩

end MapScript
