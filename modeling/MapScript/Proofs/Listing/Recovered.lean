/-
This file reads the cleaned lines of a listing back. What comes out is the script with
its labels changed: a label stands in front of every statement that is referred to and is
named by its address, all other labels are gone. Which line a statement comes from is
left out of account.
-/

import MapScript.Proofs.Listing.Sheets

namespace MapScript

/-! ### Scripts with addresses for labels -/

mutual

/-- A statement without the lines that its block comes from. -/
def Statement.forget : Statement → Statement
  | .branch clauses body => .branch clauses body.forget
  | .returnGuard value body => .returnGuard value body.forget
  | other => other

/-- A block without the lines that it comes from. -/
def Block.forget : Block → Block
  | .nil => .nil
  | .cons _ first rest => .cons none first.forget rest.forget

end

/-- A label in front of what starts at an address, if the address is referred to. -/
def markBlock (marks : List Nat) (address : Nat) (rest : Block) : Block :=
  if marks.contains address then .cons none (.label address) rest else rest

mutual

/-- A statement as it is read back from a listing. -/
def Statement.relisted (reading : Reading) (labels : Registry Int Nat) (marks : List Nat)
    (offset : Nat) : Statement → Statement
  | .branch clauses body =>
    .branch (clauses.map (Clause.settled reading))
      (Block.relisted reading labels marks (offset + 5 + clausesSize reading.symbols clauses) .nil
        body)
  | .returnGuard value body =>
    .returnGuard value (Block.relisted reading labels marks (offset + 2) .nil body)
  | other => other.reread reading labels

/-- A block as it is read back from a listing, with what follows it. -/
def Block.relisted (reading : Reading) (labels : Registry Int Nat) (marks : List Nat)
    (offset : Nat) (after : Block) : Block → Block
  | .nil => after
  | .cons _ first rest =>
    let others :=
      Block.relisted reading labels marks (offset + first.codeSize reading.symbols) after rest
    if first.isLabel then others
    else markBlock marks offset
      (.cons none (first.relisted reading labels marks offset) others)

end

/-! ### Reading blocks -/

/-- Lines are read back as a block up to its closing brace, the origins of the statements
left out of account. -/
def Recovers (owner : String) (lines : List ScriptLine) (block : Block)
    (remaining : List ScriptLine) : Prop :=
  ∀ bound, lines.length ≤ bound →
    ∃ read, readBlock owner bound lines = .ok (read, remaining) ∧ read.forget = block

theorem ne_brace_of_parse {text : List Char} {statement : Statement}
    (parsed : Statement.parse text = .ok statement) : text ≠ ['\x7d'] ∧ text ≠ ['\x7b'] := by
  constructor
  · rintro rfl
    cases parsed
  · rintro rfl
    cases parsed

namespace Recovers

variable {owner : String} {line : ScriptLine} {rest remaining : List ScriptLine}
  {statement : Statement} {block : Block}

theorem close (closes : line.text = ['\x7d']) : Recovers owner (line :: rest) .nil rest := by
  intro bound enough
  obtain ⟨fewer, rfl⟩ : ∃ fewer, bound = fewer + 1 := ⟨bound - 1, by
    rw [List.length_cons] at enough
    omega⟩
  refine ⟨.nil, ?_, rfl⟩
  rw [readBlock, if_pos closes]

theorem forget_of_not_hasBody (noBody : statement.hasBody = false) :
    statement.forget = statement := by
  cases statement <;> first | rfl | cases noBody

/-- A statement without a block. -/
theorem plain (parsed : Statement.parse line.text = .ok statement)
    (noBody : statement.hasBody = false) (others : Recovers owner rest block remaining) :
    Recovers owner (line :: rest) (.cons none statement block) remaining := by
  intro bound enough
  rw [List.length_cons] at enough
  obtain ⟨fewer, rfl⟩ : ∃ fewer, bound = fewer + 1 := ⟨bound - 1, by omega⟩
  obtain ⟨read, readOk, same⟩ := others fewer (by omega)
  obtain ⟨notClose, notOpen⟩ := ne_brace_of_parse parsed
  refine ⟨.cons (some line.origin) statement read, ?_, ?_⟩
  · rw [readBlock, if_neg notClose, if_neg notOpen, parsed]
    show (if statement.hasBody then _ else _ : Except Fault _) = _
    rw [if_neg (by rw [noBody]; decide), readOk]
    rfl
  · rw [Block.forget, forget_of_not_hasBody noBody, same]

/-- A statement with a block. -/
theorem braced {opening closing : ScriptLine} {inner after : List ScriptLine} {body : Block}
    (parsed : Statement.parse line.text = .ok statement) (hasBody : statement.hasBody = true)
    (opens : opening.text = ['\x7b'])
    (inside : Recovers line.ownerName (inner ++ closing :: after) body after)
    (others : Recovers owner after block remaining) :
    Recovers owner (line :: (opening :: (inner ++ [closing])) ++ after)
      (.cons none (statement.withBody body) block) remaining := by
  rw [List.cons_append, List.cons_append, List.append_assoc]
  intro bound enough
  rw [List.length_cons, List.length_cons] at enough
  have shorter : after.length ≤ (inner ++ closing :: after).length := by
    rw [List.length_append, List.length_cons]
    omega
  rw [List.singleton_append] at enough ⊢
  obtain ⟨fewer, rfl⟩ : ∃ fewer, bound = fewer + 1 := ⟨bound - 1, by omega⟩
  obtain ⟨readBody, bodyOk, sameBody⟩ := inside fewer (by omega)
  obtain ⟨read, readOk, same⟩ := others fewer (by omega)
  obtain ⟨notClose, notOpen⟩ := ne_brace_of_parse parsed
  refine ⟨.cons (some line.origin) (statement.withBody readBody) read, ?_, ?_⟩
  · rw [readBlock, if_neg notClose, if_neg notOpen, parsed]
    show (if statement.hasBody then _ else _ : Except Fault _) = _
    rw [if_pos hasBody, takeOpen, if_pos opens, ok_bind, bodyOk, ok_bind]
    show (readBlock owner fewer after >>= _) = _
    rw [readOk]
    rfl
  · rw [Block.forget, same, ← sameBody]
    cases statement with
    | branch clauses other => rfl
    | returnGuard value other => rfl
    | _ => cases hasBody

end Recovers

/-- What is asked of the statements of a block, so that it is read back. -/
structure Block.Legible (symbols : Symbols) (block : Block) : Prop where
  shaped : block.Each Statement.Shaped
  written : block.Each Statement.Written
  spelled : block.Each (Statement.EachTerm (Term.Spelled symbols))

/-- What is asked of a statement, so that it is read back. -/
structure Statement.Legible (symbols : Symbols) (statement : Statement) : Prop where
  shaped : statement.Each Statement.Shaped
  written : statement.Each Statement.Written
  spelled : statement.Each (Statement.EachTerm (Term.Spelled symbols))

section Blocks

variable {reading : Reading}

theorem Recovers.mark {owner : String} {front lines remaining : List ScriptLine} {block : Block}
    {marks : List Nat} {address : Nat}
    (texts : front.map ScriptLine.text = markSheet marks address)
    (recovers : Recovers owner lines block remaining) :
    Recovers owner (front ++ lines) (markBlock marks address block) remaining := by
  unfold markSheet at texts
  unfold markBlock
  split
  · rename_i marked
    rw [if_pos marked] at texts
    obtain ⟨line, none, rfl, text, nothing⟩ := List.map_eq_cons_iff.mp texts
    cases List.map_eq_nil_iff.mp nothing
    refine Recovers.plain ?_ rfl recovers
    rw [text, show labelSheet address =
      Piece.line Piece.clean [.definition (Text.hexCapital 2 address)] from
        (List.append_nil _).symm]
    exact Statement.parse_definition address
  · rename_i unmarked
    rw [if_neg unmarked] at texts
    cases List.map_eq_nil_iff.mp texts
    exact recovers

/-- The lines of a block in braces come apart. -/
theorem exists_braces_of_texts {lines : List ScriptLine} {texts : List (List Char)}
    (same : lines.map ScriptLine.text = ['\x7b'] :: texts ++ [['\x7d']]) :
    ∃ opening inner closing, lines = opening :: (inner ++ [closing]) ∧
      opening.text = ['\x7b'] ∧ inner.map ScriptLine.text = texts ∧ closing.text = ['\x7d'] := by
  obtain ⟨opening, others, rfl, opens, texts⟩ := List.map_eq_cons_iff.mp same
  obtain ⟨inner, last, rfl, innerTexts, lastTexts⟩ := List.map_eq_append_iff.mp texts
  obtain ⟨closing, none, rfl, closes, nothing⟩ := List.map_eq_cons_iff.mp lastTexts
  cases List.map_eq_nil_iff.mp nothing
  exact ⟨opening, inner, closing, rfl, opens, innerTexts, closes⟩

mutual

/-- A statement is read back from its line and the lines of its block. -/
theorem Statement.recovers (legible : reading.symbols.Legible)
    (few : reading.program.strings.length < Bytes.range 4) (labels : Registry Int Nat)
    (marks : List Nat) (statement : Statement) (spelled : statement.Legible reading.symbols)
    (notLabel : statement.isLabel = false) {offset : Nat} {owner : String} {line : ScriptLine}
    {front behind remaining : List ScriptLine} {after : Block}
    (text : line.text = Piece.line Piece.clean (statement.pieces reading labels))
    (texts : front.map ScriptLine.text = statement.bodySheet reading labels marks offset)
    (rest : Recovers owner behind after remaining) :
    Recovers owner (line :: front ++ behind)
      (.cons none (statement.relisted reading labels marks offset) after) remaining := by
  have parsed := Statement.parse_line legible few labels spelled.shaped.self spelled.written.self
    spelled.spelled.self notLabel
  rw [← text] at parsed
  match statement with
  | .branch clauses body =>
    obtain ⟨opening, inner, closing, rfl, opens, innerTexts, closes⟩ :=
      exists_braces_of_texts texts
    have inside := Block.recovers legible few labels marks body
      ⟨spelled.shaped.2, spelled.written.2, spelled.spelled.2⟩ innerTexts
      (Recovers.close closes : Recovers line.ownerName (closing :: behind) .nil behind)
    exact Recovers.braced parsed rfl opens inside rest
  | .returnGuard value body =>
    obtain ⟨opening, inner, closing, rfl, opens, innerTexts, closes⟩ :=
      exists_braces_of_texts texts
    have inside := Block.recovers legible few labels marks body
      ⟨spelled.shaped.2, spelled.written.2, spelled.spelled.2⟩ innerTexts
      (Recovers.close closes : Recovers line.ownerName (closing :: behind) .nil behind)
    exact Recovers.braced parsed rfl opens inside rest
  | .label _ | .expression _ | .assign .. | .objectStep .. | .jump .. | .word _ | .anchor _
  | .taskPause _ | .bare =>
    cases List.map_eq_nil_iff.mp texts
    exact Recovers.plain parsed rfl rest

/-- A block is read back from its cleaned lines. -/
theorem Block.recovers (legible : reading.symbols.Legible)
    (few : reading.program.strings.length < Bytes.range 4) (labels : Registry Int Nat)
    (marks : List Nat) (block : Block) (spelled : block.Legible reading.symbols) {offset : Nat}
    {owner : String} {front behind remaining : List ScriptLine} {after : Block}
    (texts : front.map ScriptLine.text = block.sheet reading labels marks offset)
    (rest : Recovers owner behind after remaining) :
    Recovers owner (front ++ behind) (Block.relisted reading labels marks offset after block)
      remaining := by
  match block with
  | .nil =>
    cases List.map_eq_nil_iff.mp texts
    exact rest
  | .cons origin first others =>
    rw [Block.sheet] at texts
    obtain ⟨one, two, rfl, oneTexts, twoTexts⟩ := List.map_eq_append_iff.mp texts
    have behindFirst := Block.recovers legible few labels marks others
      ⟨spelled.shaped.2, spelled.written.2, spelled.spelled.2⟩ twoTexts rest
    rw [Block.relisted, List.append_assoc]
    cases label : first.isLabel with
    | true =>
      rw [if_pos label] at oneTexts
      cases List.map_eq_nil_iff.mp oneTexts
      exact behindFirst
    | false =>
      rw [if_neg (by rw [label]; decide)] at oneTexts
      obtain ⟨marked, lines, rfl, markTexts, lineTexts⟩ := List.map_eq_append_iff.mp oneTexts
      obtain ⟨line, body, rfl, text, bodyTexts⟩ := List.map_eq_cons_iff.mp lineTexts
      have here := Statement.recovers legible few labels marks first
        ⟨spelled.shaped.1, spelled.written.1, spelled.spelled.1⟩ label text bodyTexts behindFirst
      rw [List.append_assoc]
      exact here.mark markTexts

end

end Blocks

end MapScript
