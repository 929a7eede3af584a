/-
This file proves that the reading of statements keeps in step with their writing. One
statement that was written at an offset is read from there as one line, followed by the
lines of its block; by induction over blocks, all statements of a script are. A block
ends for the reader where its writer left it: for a condition because the address behind
the block is written in front of it, and for a guard on the returned value because its
last statement is the one that reaches the end of the bytes that guards cover.
-/

import MapScript.Proofs.Listing.Cells
import MapScript.Proofs.Listing.Passages

namespace MapScript

/-! ### Reading the statements of a block -/

namespace Decoder

variable {reading : Reading} {offset depth stop : Nat} {bytes : Bytes}

/-- One round of the reading of a block: a statement, unless the block is over. -/
def blockStep (stop : Nat) (statement : Decoder Unit) : Decoder Bool := do
  if (← position) < stop then
    beginLine
    statement
    pure true
  else pure false

theorem fills_blockStep_end (statement : Decoder Unit) (ended : stop ≤ offset) :
    Fills (blockStep stop statement) offset depth [] false (.whole [] []) := by
  refine Fills.position_bind ?_
  rw [if_neg (Nat.not_lt.mpr ended)]
  exact Fills.pure false

theorem fills_blockStep {statement : Decoder Unit} {passage : Passage} (inside : offset < stop)
    (fills : Fills statement offset depth bytes () passage) :
    Fills (blockStep stop statement) offset depth bytes true
      (.whole ((ListedLine.start offset depth).fill passage :: passage.lines)
        passage.landings) := by
  refine Fills.position_bind ?_
  rw [if_pos inside]
  exact Fills.beginLine_bind (fills.bind_pure true)

/-- The rounds of the reading of a block end where the block ends. -/
theorem fills_rounds_end (bound : Nat) (statement : Decoder Unit) (ended : stop ≤ offset) :
    Fills (repeatWhile bound (blockStep stop statement)) offset depth [] () (.whole [] []) := by
  cases bound with
  | zero => exact (fills_blockStep_end statement ended).discard
  | succ bound =>
    exact (fills_blockStep_end statement ended).bind_whole (Fills.pure ()) rfl

/-- One more statement before the rounds that are left. -/
theorem fills_rounds {bound : Nat} {statement : Decoder Unit} {front back : Bytes}
    {passage : Passage} {lines : List ListedLine} {landings : List Nat} (inside : offset < stop)
    (fills : Fills statement offset depth front () passage)
    (rest : Fills (repeatWhile bound (blockStep stop statement)) (offset + front.length) depth
      back () (.whole lines landings)) :
    Fills (repeatWhile (bound + 1) (blockStep stop statement)) offset depth (front ++ back) ()
      (.whole (((ListedLine.start offset depth).fill passage :: passage.lines) ++ lines)
        (passage.landings ++ landings)) :=
  (fills_blockStep inside fills).bind_whole rest rfl

/-- A block without statements leaves a mark in the line that it belongs to. -/
theorem fills_block_end (bound : Nat) (statement : Decoder Unit) (ended : stop ≤ offset) :
    Fills (block bound stop statement) offset depth [] () ⟨.plain "", true, [], []⟩ := by
  refine Fills.position_bind ?_
  rw [if_neg (Nat.not_lt.mpr ended)]
  exact Fills.markEmpty

/-- The statements of a block stand one level deeper than the line that it belongs to. -/
theorem fills_block {bound : Nat} {statement : Decoder Unit} {passage : Passage}
    (inside : offset < stop)
    (fills : Fills (repeatWhile bound (blockStep stop statement)) offset (depth + 1) bytes ()
      passage) :
    Fills (block bound stop statement) offset depth bytes () passage := by
  refine Fills.position_bind ?_
  rw [if_pos inside]
  exact fills.deeper

/-- Reads a statement. -/
def statement (reading : Reading) (bound : Nat) : Decoder Unit :=
  discard (value reading bound .statement none)

/-- A statement is in step if what follows its opcode is. -/
theorem fills_statement {opcode : Opcode} {bound : Nat} {passage : Passage}
    (enough : (opcode.code :: bytes).length ≤ bound)
    (fills : ∀ fewer, bytes.length ≤ fewer →
      Fills (operand reading fewer (value reading fewer) .statement none opcode) (offset + 1) depth
        bytes none passage) :
    Fills (statement reading bound) offset depth (opcode.code :: bytes) () passage := by
  cases bound with
  | zero => cases enough
  | succ fewer =>
    have whole : Fills (value reading (fewer + 1) .statement none) offset depth
        (opcode.code :: bytes) none passage := by
      refine Fills.position_bind ?_
      refine Fills.silent_bind (Reads.byte reading opcode.code) ?_ rfl
      rw [Encoder.ofCode?_code]
      exact fills fewer (Nat.le_of_succ_le_succ enough)
    exact whole.discard

end Decoder

/-! ### What was written -/

/-- What a statement adds to a listing. -/
def Statement.passage (reading : Reading) (labels : Registry Int Nat) (offset depth : Nat)
    (statement : Statement) : Passage where
  excerpt := statement.heading reading labels
  empty := statement.hasEmptyBody
  lines := (statement.nested reading.symbols offset depth).map (Spot.line reading labels)
  landings := statement.uses.filterMap (LabelUse.landing? labels)

/-- What holds of the pieces of code that statements were turned into: no string that was
in use has lost its number, the pieces take as many bytes as expected, and the code that
they become is read as expected with all strings that are in use afterwards. -/
structure Built (reading : Reading) (before after : Assembly) (cells : List Cell) (size : Nat)
    (fills : Registry Int Nat → Bytes → Prop) : Prop where
  grows : before.pool.strings <+: after.pool.strings
  size_eq : Cell.totalSize cells = size
  fills_of_link : ∀ {script : Script} {labels : Registry Int Nat} {bytes : Bytes},
    link script labels cells = .ok bytes → after.pool.strings <+: reading.program.strings →
    fills labels bytes

namespace Assembler

open Decoder (Reads Fills)

variable {reading : Reading} {assembly next : Assembly} {cells : List Cell} {offset depth : Nat}

/-- Code of this statement is read as what it adds to a listing. -/
def Filled (reading : Reading) (offset depth : Nat) (statement : Statement)
    (labels : Registry Int Nat) (bytes : Bytes) : Prop :=
  ∀ bound, bytes.length ≤ bound →
    Fills (Decoder.statement reading bound) offset depth bytes ()
      (statement.passage reading labels offset depth)

/-- A statement that is a value and nothing else. -/
theorem built_encode {encoder : Encoder Bytes} {size : Nat} {written : Statement}
    (encoded : (encode encoder).run assembly = .ok (cells, next))
    (laid : ∀ {bytes pool}, encoder.run assembly.pool = .ok (bytes, pool) →
      ∃ called excerpt, Laid reading assembly.pool pool bytes size (∀ bound, bytes.length ≤ bound →
        Reads (Decoder.value reading bound .statement none) bytes called excerpt) ∧
        ∀ labels, written.passage reading labels offset depth = .part excerpt) :
    Built reading assembly next cells size (Filled reading offset depth written) := by
  obtain ⟨bytes, pool, run, rfl, rfl⟩ := encode_eq_ok encoded
  obtain ⟨called, excerpt, written, same⟩ := laid run
  refine ⟨written.grows, (Cell.totalSize_ofBytes bytes).trans written.size_eq, ?_⟩
  intro script labels linkedBytes linked kept bound enough
  cases (link_ofBytes script labels bytes).symm.trans linked
  rw [same labels]
  exact Fills.of_reads (written.reads_of_kept kept bound enough).discard

theorem built_expression {value : Term} (alone : Reader.standsAlone value = true)
    (encoded : (statement reading.around offset (.expression value)).run assembly =
      .ok (cells, next)) :
    Built reading assembly next cells ((Statement.expression value).codeSize reading.symbols)
      (Filled reading offset depth (.expression value)) := by
  refine built_encode encoded fun run => ⟨_, _, Encoder.laid_term value ?_ run, fun labels => rfl⟩
  intro object name same
  rw [same] at alone
  cases alone

/-- A target takes as many bytes where it is assigned to as on the left of a comparison. -/
theorem codeSize_of_isTarget {value : Term} (target : Reader.isTarget value = true)
    (symbols : Symbols) : value.codeSize symbols .statement = value.codeSize symbols .left := by
  cases value <;> first | rfl | cases target

theorem built_assign {target : Term} {formula : Formula} (isTarget : Reader.isTarget target = true)
    (encoded : (statement reading.around offset (.assign target formula)).run assembly =
      .ok (cells, next)) :
    Built reading assembly next cells ((Statement.assign target formula).codeSize reading.symbols)
      (Filled reading offset depth (.assign target formula)) := by
  refine built_encode encoded fun run => ?_
  obtain ⟨front, middle, back, targetOk, formulaOk, rfl⟩ := Encoder.run_append_eq_ok run
  refine ⟨none, _, ?_, fun labels => rfl⟩
  rw [Statement.codeSize, codeSize_of_isTarget isTarget]
  refine (Encoder.laid_target target targetOk).append (Encoder.laid_formula formula formulaOk) ?_
  intro targetReads formulaReads bound enough
  exact targetReads none enough (Or.inl rfl) fun fewer size inside => formulaReads fewer inside

theorem built_objectStep {object reference : String} {step : Step}
    (encoded : (statement reading.around offset (.objectStep object reference step)).run assembly =
      .ok (cells, next)) :
    Built reading assembly next cells
      ((Statement.objectStep object reference step).codeSize reading.symbols)
      (Filled reading offset depth (.objectStep object reference step)) := by
  refine built_encode encoded fun run => ?_
  obtain ⟨selected, number, objectOk, nameOk, rfl⟩ := Encoder.objectReference_eq_ok run
  have laid := Encoder.laid_objectReference objectOk nameOk
  refine ⟨none, _, ⟨laid.grows, congrArg (· + 1) laid.size_eq, fun kept bound enough => ?_⟩,
    fun labels => rfl⟩
  refine Encoder.reads_value enough fun fewer _ => ?_
  have closing : Reads (do Decoder.emit step.text; pure none : Decoder (Option String)) [] none
      (.plain step.text) := Reads.emit_bind (Reads.pure none) (Excerpt.append_plain_empty _)
  have reads := laid.reads_of_kept kept closing
  rw [List.append_nil] at reads
  cases step with
  | increment => exact reads
  | decrement => exact reads

/-- Words are read as they are. -/
theorem built_word {kind : WordKind}
    (encoded : (statement reading.around offset (.word kind)).run assembly = .ok (cells, next)) :
    Built reading assembly next cells ((Statement.word kind).codeSize reading.symbols)
      (Filled reading offset depth (.word kind)) := by
  cases run_pure_eq_ok.mp encoded
  refine ⟨List.prefix_rfl, rfl, ?_⟩
  intro script labels bytes linked kept bound enough
  obtain ⟨others, nothing, rfl⟩ := link_byte_cons_eq_ok linked
  cases nothing
  refine Decoder.fills_statement enough fun fewer _ => Fills.of_reads ?_
  cases kind with
  | giveBack => exact Reads.emit_bind (Reads.pure none) (Excerpt.append_plain_empty _)
  | endInterrupt => exact Reads.emit_bind (Reads.pure none) (Excerpt.append_plain_empty _)

theorem integer_toNat {value : Int} (range : 0 ≤ value ∧ value ≤ 255) :
    (((UInt8.ofNat value.toNat).toNat : Nat) : Int) = value := by
  rw [Encoder.toNat_byte range, Int.toNat_of_nonneg range.1]

theorem built_anchor {value : Int}
    (encoded : (statement reading.around offset (.anchor value)).run assembly =
      .ok (cells, next)) :
    Built reading assembly next cells ((Statement.anchor value).codeSize reading.symbols)
      (Filled reading offset depth (.anchor value)) := by
  obtain ⟨range, rfl, rfl⟩ := anchor_eq_ok encoded
  refine ⟨List.prefix_rfl, rfl, ?_⟩
  intro script labels bytes linked kept bound enough
  obtain ⟨others, restOk, rfl⟩ := link_byte_cons_eq_ok linked
  cases (link_ofBytes script labels _).symm.trans restOk
  refine Decoder.fills_statement enough fun fewer _ => Fills.of_reads ?_
  refine Reads.silent_bind (Reads.byte reading _) ?_ rfl
  simp only [Decoder.emitNumber, integer_toNat range]
  refine Reads.emit_bind (Reads.emit_bind (Reads.pure none) (Excerpt.append_plain_empty _)) ?_
  exact Excerpt.plain_append_plain _ _

/-! ### Jumps -/

/-- The address of a label, as it is read. -/
theorem reads_address {address : Nat} {number : Bytes} (packed : packNumber 4 address = .ok number) :
    Reads (Decoder.long reading) number address (.plain "") := by
  obtain ⟨length, value⟩ := Encoder.packNumber_eq_ok packed
  have reads := Reads.long reading length
  rw [value] at reads
  exact reads

/-- The address that a jump leads to, unless it goes nowhere. -/
def jumpLandings (kind : JumpKind) (address : Nat) : List Nat :=
  if kind ≠ .gosub ∧ address = 0 then [] else [address]

/-- A jump that may go nowhere. -/
theorem fills_optionalJump (kind : JumpKind) {address : Nat} {number : Bytes}
    (optional : kind ≠ .gosub) (reads : Reads (Decoder.long reading) number address (.plain "")) :
    Fills (Decoder.optionalJump reading kind) offset depth number ()
      ⟨.plain (jumpText kind address), false, [], jumpLandings kind address⟩ := by
  unfold jumpText jumpLandings
  refine Fills.silent_bind reads ?_ (List.append_nil _)
  by_cases nowhere : address = 0
  · simp only [nowhere, if_true, optional, ne_eq, not_false_eq_true, true_and]
    exact Fills.of_reads (Reads.emit_bind (Reads.pure ()) (Excerpt.append_plain_empty _))
  · simp only [nowhere, if_false, and_false]
    refine Fills.reads_bind (Reads.emit kind.text) (Fills.reads_bind (Reads.emit " ")
      (Fills.emitLabel address) rfl rfl) rfl ?_
    simp only [Excerpt.plain_append_plain, String.append_assoc]

/-- A jump to an address, or nowhere. -/
theorem fills_jump {kind : JumpKind} {address bound : Nat} {number : Bytes}
    (reads : Reads (Decoder.long reading) number address (.plain ""))
    (enough : ((Opcode.ofJump kind).code :: number).length ≤ bound) :
    Fills (Decoder.statement reading bound) offset depth ((Opcode.ofJump kind).code :: number) ()
      ⟨.plain (jumpText kind address), false, [], jumpLandings kind address⟩ := by
  refine Decoder.fills_statement enough fun fewer _ => ?_
  cases kind with
  | goto => exact (fills_optionalJump .goto (by decide) reads).bind_pure none
  | stop => exact (fills_optionalJump .stop (by decide) reads).bind_pure none
  | gosub =>
    refine Fills.silent_bind reads ?_ (List.append_nil _)
    refine Fills.reads_bind (Reads.emit _) ((Fills.emitLabel address).bind_pure none) rfl ?_
    simp only [Excerpt.plain_append_plain]
    rfl

theorem landings_jump {kind : JumpKind} {goal : Int} {labels : Registry Int Nat} {address : Nat}
    (found : labels.find? goal = some address) :
    (Statement.jump kind (some goal)).uses.filterMap (LabelUse.landing? labels) =
      jumpLandings kind address := by
  have landing : LabelUse.landing? labels ⟨goal, kind != .gosub⟩ =
      if kind ≠ .gosub ∧ address = 0 then none else some address := by
    rw [LabelUse.landing?, found]
    simp only [Bool.and_eq_true, bne_iff_ne, beq_iff_eq, ne_eq]
  rw [Statement.uses, List.filterMap_cons, landing, jumpLandings]
  by_cases nowhere : kind ≠ .gosub ∧ address = 0
  · rw [if_pos nowhere, if_pos nowhere]
    rfl
  · rw [if_neg nowhere, if_neg nowhere]
    rfl

theorem built_jump {kind : JumpKind} {goal : Int}
    (encoded : (statement reading.around offset (.jump kind (some goal))).run assembly =
      .ok (cells, next)) :
    Built reading assembly next cells ((Statement.jump kind (some goal)).codeSize reading.symbols)
      (Filled reading offset depth (.jump kind (some goal))) := by
  cases run_pure_eq_ok.mp encoded
  refine ⟨List.prefix_rfl, rfl, ?_⟩
  intro script labels bytes linked kept bound enough
  obtain ⟨address, number, found, packed, rfl⟩ := link_withLabel_eq_ok linked
  have passage : (Statement.jump kind (some goal)).passage reading labels offset depth =
      ⟨.plain (jumpText kind address), false, [], jumpLandings kind address⟩ := by
    rw [Statement.passage, landings_jump found, Statement.heading, Option.bind_some, found]
    rfl
  rw [passage]
  exact fills_jump (reads_address packed) enough

theorem little_long_zero : Bytes.little (Encoder.long 0) = 0 := by
  decide

/-- A jump that goes nowhere. -/
theorem built_jump_none {kind : JumpKind} (optional : kind ≠ .gosub)
    (encoded : (statement reading.around offset (.jump kind none)).run assembly =
      .ok (cells, next)) :
    Built reading assembly next cells ((Statement.jump kind none).codeSize reading.symbols)
      (Filled reading offset depth (.jump kind none)) := by
  cases run_pure_eq_ok.mp encoded
  refine ⟨List.prefix_rfl, rfl, ?_⟩
  intro script labels bytes linked kept bound enough
  cases (link_ofBytes script labels _).symm.trans linked
  have reads := Reads.long reading (Encoder.length_long 0)
  rw [little_long_zero] at reads
  have passage : (Statement.jump kind none).passage reading labels offset depth =
      ⟨.plain (jumpText kind 0), false, [], jumpLandings kind 0⟩ := by
    rw [jumpLandings, if_pos ⟨optional, rfl⟩]
    rfl
  rw [passage]
  exact fills_jump reads enough

theorem built_taskPause {goal : Int}
    (encoded : (statement reading.around offset (.taskPause goal)).run assembly =
      .ok (cells, next)) :
    Built reading assembly next cells ((Statement.taskPause goal).codeSize reading.symbols)
      (Filled reading offset depth (.taskPause goal)) := by
  cases run_pure_eq_ok.mp encoded
  refine ⟨List.prefix_rfl, rfl, ?_⟩
  intro script labels bytes linked kept bound enough
  obtain ⟨address, number, found, packed, rfl⟩ := link_withLabel_eq_ok linked
  have passage : (Statement.taskPause goal).passage reading labels offset depth =
      ⟨.plain ("<TaskPause(" ++ labelText address ++ ")>"), false, [], [address]⟩ := by
    rw [Statement.passage, Statement.heading, Statement.uses, List.filterMap_cons,
      LabelUse.landing?, found]
    rfl
  rw [passage]
  refine Decoder.fills_statement enough fun fewer _ => ?_
  refine Fills.silent_bind (reads_address packed) ?_ (List.append_nil _)
  refine Fills.reads_bind (Reads.emit _) (Fills.bind (Fills.emitLabel address) (Fills.of_reads
    (Reads.emit_bind (Reads.pure none) (Excerpt.append_plain_empty _))) rfl rfl) rfl ?_
  simp only [Passage.part, Excerpt.plain_append_plain, String.append_assoc]
  rfl

/-! ### Blocks -/

/-- Code of this block is read as its statements, if reading starts the last of them and
does not go on behind it. -/
def FilledBlock (reading : Reading) (offset depth : Nat) (block : Block)
    (labels : Registry Int Nat) (bytes : Bytes) : Prop :=
  ∀ inner bound stop, bytes.length ≤ inner → bytes.length ≤ bound →
    (∀ start, block.lastStart? reading.symbols offset = some start → start < stop) →
    stop ≤ offset + block.codeSize reading.symbols →
    Fills (Decoder.repeatWhile bound (Decoder.blockStep stop (Decoder.statement reading inner)))
      offset depth bytes ()
      (.whole ((block.outline reading.symbols offset depth).map (Spot.line reading labels))
        (block.uses.filterMap (LabelUse.landing? labels)))

/-- A block behind the line that it belongs to. -/
theorem fills_body {body : Block} (shaped : body.Each Statement.Shaped) {labels : Registry Int Nat}
    {bytes : Bytes} {bound stop : Nat} (length : bytes.length = body.codeSize reading.symbols)
    (filled : FilledBlock reading offset (depth + 1) body labels bytes)
    (enough : bytes.length ≤ bound)
    (starts : ∀ start, body.lastStart? reading.symbols offset = some start → start < stop)
    (stops : stop ≤ offset + body.codeSize reading.symbols) :
    Fills (Decoder.block bound stop (Decoder.statement reading bound)) offset depth bytes ()
      ⟨.plain "", body.onlyLabels,
        (body.outline reading.symbols offset (depth + 1)).map (Spot.line reading labels),
        body.uses.filterMap (LabelUse.landing? labels)⟩ := by
  have fills := filled bound bound stop enough enough starts stops
  cases only : body.onlyLabels with
  | false =>
    obtain ⟨start, last⟩ := Block.lastStart?_isSome reading.symbols offset only
    have inside : offset < stop := Nat.lt_of_le_of_lt (Block.le_lastStart? last) (starts start last)
    exact Decoder.fills_block inside fills
  | true =>
    rw [(Block.codeSize_eq_zero_iff shaped).mpr only] at length stops
    rw [Block.outline_of_onlyLabels only, Block.uses_of_onlyLabels only,
      List.eq_nil_of_length_eq_zero length]
    exact Decoder.fills_block_end bound _ stops

/-- A condition is read in step if its block is. -/
theorem built_branch {clauses : List Clause} {body : Block} (joined : Joined clauses)
    (shaped : body.Each Statement.Shaped)
    (encoded : (statement reading.around offset (.branch clauses body)).run assembly =
      .ok (cells, next))
    (built : ∀ {offset : Nat} {assembly : Assembly} {inner : List Cell},
      (block reading.around offset body).run assembly = .ok (inner, next) →
      Built reading assembly next inner (body.codeSize reading.symbols)
        (FilledBlock reading offset (depth + 1) body)) :
    Built reading assembly next cells ((Statement.branch clauses body).codeSize reading.symbols)
      (Filled reading offset depth (.branch clauses body)) := by
  obtain ⟨condition, pool, inner, stop, clausesOk, bodyOk, packed, rfl⟩ := branch_eq_ok encoded
  have laid := Encoder.laid_clauses clauses joined clausesOk
  have bodyBuilt := built bodyOk
  have stopLength := (Encoder.packNumber_eq_ok packed).1
  rw [laid.size_eq] at bodyBuilt
  rw [laid.size_eq, bodyBuilt.size_eq] at packed
  refine ⟨laid.grows.trans bodyBuilt.grows, ?_, ?_⟩
  · rw [Cell.totalSize_append, Cell.totalSize_ofBytes, bodyBuilt.size_eq, List.length_append,
      List.length_cons, laid.size_eq, stopLength, Statement.codeSize]
    omega
  · intro script labels bytes linked kept bound enough
    obtain ⟨front, back, frontOk, backOk, rfl⟩ := link_append_eq_ok.mp linked
    cases (link_ofBytes script labels _).symm.trans frontOk
    have backLength := (length_of_link backOk).trans bodyBuilt.size_eq
    simp only [List.cons_append, List.append_assoc] at enough ⊢
    refine Decoder.fills_statement enough fun fewer inside => Fills.bind_pure ?_ none
    simp only [List.length_append] at inside
    have clausesReads := laid.reads_of_kept (bodyBuilt.grows.trans kept) fewer fewer (by omega)
      (by omega)
    have within : back.length ≤ fewer := by omega
    have bodyFills := fills_body shaped backLength (bodyBuilt.fills_of_link backOk kept) within
      (fun start last => Block.lastStart?_lt shaped last) (Nat.le_refl _)
    have place : offset + 1 + ([] : Bytes).length + condition.length + stop.length =
        offset + 5 + clausesSize reading.symbols clauses := by
      rw [laid.size_eq, stopLength, List.length_nil]
      omega
    rw [← place] at bodyFills packed
    refine Fills.reads_bind (Reads.emit "if ") (Fills.reads_bind clausesReads
      (Fills.silent_bind (reads_address packed) bodyFills rfl) rfl rfl) rfl ?_
    simp only [Excerpt.append_plain_empty, place]
    rfl

/-- A guard is read in step if its block is and reaches the end of what guards cover. -/
theorem built_returnGuard {value : Int} {body : Block} (shaped : body.Each Statement.Shaped)
    (covered : (Statement.returnGuard value body).Covered reading.symbols)
    (encoded : (statement reading.around offset (.returnGuard value body)).run assembly =
      .ok (cells, next))
    (built : ∀ {offset : Nat} {assembly : Assembly} {inner : List Cell},
      (block reading.around offset body).run assembly = .ok (inner, next) →
      Built reading assembly next inner (body.codeSize reading.symbols)
        (FilledBlock reading offset (depth + 1) body)) :
    Built reading assembly next cells
      ((Statement.returnGuard value body).codeSize reading.symbols)
      (Filled reading offset depth (.returnGuard value body)) := by
  obtain ⟨inner, range, bodyOk, rfl⟩ := returnGuard_eq_ok encoded
  have bodyBuilt := built bodyOk
  refine ⟨bodyBuilt.grows, ?_, ?_⟩
  · rw [Cell.totalSize_append, Cell.totalSize_ofBytes, bodyBuilt.size_eq, Statement.codeSize]
    rfl
  · intro script labels bytes linked kept bound enough
    obtain ⟨front, back, frontOk, backOk, rfl⟩ := link_append_eq_ok.mp linked
    cases (link_ofBytes script labels _).symm.trans frontOk
    have backLength := (length_of_link backOk).trans bodyBuilt.size_eq
    simp only [List.cons_append, List.nil_append] at enough ⊢
    refine Decoder.fills_statement enough fun fewer inside => Fills.bind_pure ?_ none
    obtain ⟨large, ⟨first, last, small⟩, -⟩ := covered
    have starts (start : Nat) (there : body.lastStart? reading.symbols (offset + 2) = some start) :
        start < offset + 2 + returnGuardSize := by
      rw [← Nat.add_zero (offset + 2), Block.lastStart?_add, last, Option.map_some] at there
      cases there
      omega
    have bodyFills := fills_body shaped backLength (bodyBuilt.fills_of_link backOk kept)
      (Nat.le_of_succ_le inside) starts (Nat.add_le_add_left large _)
    refine Fills.silent_bind (Reads.byte reading _) ?_ rfl
    simp only [Decoder.emitNumber, integer_toNat range]
    refine Fills.reads_bind (Reads.emit _) (Fills.reads_bind (Reads.emit _)
      (Fills.position_bind bodyFills) rfl rfl) rfl ?_
    simp only [Excerpt.append_plain_empty, Excerpt.plain_append_plain]
    rfl

/-- The line of a statement is the one that was begun for it and filled by it. -/
theorem line_eq_fill (labels : Registry Int Nat) (written : Statement) :
    Spot.line reading labels ⟨offset, depth, written⟩ =
      (ListedLine.start offset depth).fill (written.passage reading labels offset depth) := by
  simp only [Spot.line, ListedLine.fill, ListedLine.extend, ListedLine.start, Statement.passage,
    String.empty_append, Bool.or_false]
  cases (written.heading reading labels).comment <;> rfl

/-- A label takes no code and adds nothing to a listing. -/
theorem built_label_cons {origin : Option Origin} {first : Statement} {rest : Block}
    {between : Assembly} {front back : List Cell} (label : first.isLabel = true)
    (encoded : (statement reading.around offset first).run assembly = .ok (front, between))
    (built : Built reading between next back (rest.codeSize reading.symbols)
      (FilledBlock reading (offset + Cell.totalSize front) depth rest)) :
    Built reading assembly next (front ++ back)
      ((Block.cons origin first rest).codeSize reading.symbols)
      (FilledBlock reading offset depth (.cons origin first rest)) := by
  cases first with
  | label goal =>
    obtain ⟨rfl, -, rfl⟩ := label_eq_ok encoded
    refine ⟨built.grows, ?_, ?_⟩
    · rw [List.nil_append, built.size_eq, Block.codeSize, Statement.codeSize, Nat.zero_add]
    · intro script labels bytes linked kept inner bound stop enough rounds starts stops
      rw [Block.codeSize, Statement.codeSize, Nat.zero_add] at stops
      refine built.fills_of_link linked kept inner bound stop enough rounds ?_ stops
      intro start last
      have last : rest.lastStart? reading.symbols offset = some start := last
      refine starts start ?_
      rw [Block.lastStart?, Statement.codeSize, Nat.add_zero, last]
  | _ => cases label

/-- A statement and the statements after it. -/
theorem built_cons {origin : Option Origin} {first : Statement} {rest : Block}
    {between : Assembly} {front back : List Cell} (shaped : first.Shaped)
    (notLabel : first.isLabel = false)
    (firstBuilt : Built reading assembly between front (first.codeSize reading.symbols)
      (Filled reading offset depth first))
    (restBuilt : Built reading between next back (rest.codeSize reading.symbols)
      (FilledBlock reading (offset + Cell.totalSize front) depth rest)) :
    Built reading assembly next (front ++ back)
      ((Block.cons origin first rest).codeSize reading.symbols)
      (FilledBlock reading offset depth (.cons origin first rest)) := by
  rw [firstBuilt.size_eq] at restBuilt
  refine ⟨firstBuilt.grows.trans restBuilt.grows, ?_, ?_⟩
  · rw [Cell.totalSize_append, firstBuilt.size_eq, restBuilt.size_eq, Block.codeSize]
  · intro script labels bytes linked kept inner bound stop enough rounds starts stops
    obtain ⟨one, two, frontOk, backOk, rfl⟩ := link_append_eq_ok.mp linked
    have length := (length_of_link frontOk).trans firstBuilt.size_eq
    have positive := first.codeSize_pos shaped notLabel reading.symbols
    rw [List.length_append] at enough rounds
    have filled : (Block.cons origin first rest).onlyLabels = false := by
      rw [Block.onlyLabels, notLabel, Bool.false_and]
    have inside : offset < stop := by
      obtain ⟨start, last⟩ := Block.lastStart?_isSome reading.symbols offset filled
      exact Nat.lt_of_le_of_lt (Block.le_lastStart? last) (starts start last)
    obtain ⟨fewer, rfl⟩ : ∃ fewer, bound = fewer + 1 := ⟨bound - 1, by omega⟩
    have restFills := restBuilt.fills_of_link backOk kept inner fewer stop (by omega) (by omega)
      (fun start last => starts start (by rw [Block.lastStart?, last]))
      (by rw [Block.codeSize] at stops; omega)
    rw [← length] at restFills
    have fills := Decoder.fills_rounds inside
      (firstBuilt.fills_of_link frontOk (restBuilt.grows.trans kept) inner (by omega)) restFills
    rw [← line_eq_fill] at fills
    rw [Block.outline, if_neg (by rw [notLabel]; decide), Block.uses, List.map_append, List.map_cons,
      List.filterMap_append, ← length]
    exact fills

mutual

/-- Statements are read in step with their writing. -/
theorem built_statement (written : Statement) (shaped : written.Each Statement.Shaped)
    (covered : written.Covered reading.symbols) (notLabel : written.isLabel = false)
    {offset depth : Nat} {assembly next : Assembly} {cells : List Cell}
    (encoded : (statement reading.around offset written).run assembly = .ok (cells, next)) :
    Built reading assembly next cells (written.codeSize reading.symbols)
      (Filled reading offset depth written) := by
  cases written with
  | label goal => cases notLabel
  | expression value => exact built_expression shaped encoded
  | assign target formula => exact built_assign shaped encoded
  | objectStep object reference step => exact built_objectStep encoded
  | branch clauses body =>
    exact built_branch shaped.1 shaped.2 encoded (built_block body shaped.2 covered)
  | returnGuard value body =>
    exact built_returnGuard shaped.2 covered encoded (built_block body shaped.2 covered.2.2)
  | jump kind goal =>
    cases goal with
    | some goal => exact built_jump encoded
    | none => exact built_jump_none (fun gosub => shaped gosub rfl) encoded
  | word kind => exact built_word encoded
  | anchor value => exact built_anchor encoded
  | taskPause goal => exact built_taskPause encoded
  | bare => cases shaped

/-- The statements of a block are read in step with their writing. -/
theorem built_block (block : Block) (shaped : block.Each Statement.Shaped)
    (covered : block.Covered reading.symbols)
    {offset depth : Nat} {assembly next : Assembly} {cells : List Cell}
    (encoded : (Assembler.block reading.around offset block).run assembly = .ok (cells, next)) :
    Built reading assembly next cells (block.codeSize reading.symbols)
      (FilledBlock reading offset depth block) := by
  cases block with
  | nil =>
    cases run_pure_eq_ok.mp encoded
    refine ⟨List.prefix_rfl, rfl, ?_⟩
    intro script labels bytes linked _ inner bound stop _ _ _ stops
    cases linked
    exact Decoder.fills_rounds_end bound _ stops
  | cons origin first rest =>
    obtain ⟨front, between, back, firstOk, restOk, rfl⟩ := block_cons_eq_ok encoded
    cases label : first.isLabel with
    | true => exact built_label_cons label firstOk (built_block rest shaped.2 covered.2 restOk)
    | false =>
      exact built_cons shaped.1.self label (built_statement first shaped.1 covered.1 label firstOk)
        (built_block rest shaped.2 covered.2 restOk)

end

mutual

/-- A statement takes as many bytes of code as it is said to take. -/
theorem totalSize_statement (written : Statement) (shaped : written.Each Statement.Shaped)
    {offset : Nat} {assembly next : Assembly} {cells : List Cell}
    (encoded : (statement reading.around offset written).run assembly = .ok (cells, next)) :
    Cell.totalSize cells = written.codeSize reading.symbols := by
  -- Only blocks are taken apart here; what is read back of all else also says its size.
  have simple (covered : written.Covered reading.symbols) (notLabel : written.isLabel = false) :
      Cell.totalSize cells = written.codeSize reading.symbols := by
    have built : Built reading assembly next cells _ (Filled reading offset 0 written) :=
      built_statement written shaped covered notLabel encoded
    exact built.size_eq
  cases written with
  | label goal =>
    rw [(label_eq_ok encoded).1]
    rfl
  | branch clauses body =>
    obtain ⟨condition, pool, inner, stop, clausesOk, bodyOk, packed, rfl⟩ := branch_eq_ok encoded
    rw [Cell.totalSize_append, Cell.totalSize_ofBytes, totalSize_block body shaped.2 bodyOk,
      List.length_append, List.length_cons, (Encoder.packNumber_eq_ok packed).1,
      (Encoder.laid_clauses clauses shaped.1 clausesOk).size_eq, Statement.codeSize]
    omega
  | returnGuard value body =>
    obtain ⟨inner, -, bodyOk, rfl⟩ := returnGuard_eq_ok encoded
    rw [Cell.totalSize_append, Cell.totalSize_ofBytes, totalSize_block body shaped.2 bodyOk]
    rfl
  | _ => exact simple trivial rfl

/-- The statements of a block take as many bytes of code as they are said to take. -/
theorem totalSize_block (block : Block) (shaped : block.Each Statement.Shaped)
    {offset : Nat} {assembly next : Assembly} {cells : List Cell}
    (encoded : (Assembler.block reading.around offset block).run assembly = .ok (cells, next)) :
    Cell.totalSize cells = block.codeSize reading.symbols := by
  cases block with
  | nil =>
    cases run_pure_eq_ok.mp encoded
    rfl
  | cons origin first rest =>
    obtain ⟨front, between, back, firstOk, restOk, rfl⟩ := block_cons_eq_ok encoded
    rw [Cell.totalSize_append, totalSize_statement first shaped.1 firstOk,
      totalSize_block rest shaped.2 restOk, Block.codeSize]

end

end Assembler

end MapScript
