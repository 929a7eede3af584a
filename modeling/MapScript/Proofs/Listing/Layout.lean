/-
This file shows that the text of a listing has the shape of the script. A listing is a
row of lines with depths, and its braces come from changes of the depth; here the text is
laid out along the blocks instead, each in its braces, and both are the same.
-/

import MapScript.Proofs.Listing.Scripts

namespace MapScript

/-! ### Braces -/

namespace Listing

theorem closing_self (depth : Nat) : closing depth depth = [] := by
  rw [closing, Nat.sub_self]
  rfl

/-- The braces down to a depth are those down to the next deeper one and one more. -/
theorem closing_of_lt {inner outer : Nat} (deeper : outer < inner) :
    closing inner outer = closing inner (outer + 1) ++ [closeBrace outer] := by
  obtain ⟨count, rfl⟩ : ∃ count, inner = outer + 1 + count := ⟨inner - (outer + 1), by omega⟩
  have one : outer + 1 + count - outer = count + 1 := by omega
  have other : outer + 1 + count - (outer + 1) = count := by omega
  rw [closing, closing, one, other, List.range'_succ, List.reverse_cons, List.map_append]
  rfl

theorem bracesBetween_of_le {previous next : Nat} (notDeeper : next ≤ previous) :
    bracesBetween previous next = closing previous next :=
  if_neg (Nat.not_lt.mpr notDeeper)

theorem bracesBetween_succ (depth : Nat) : bracesBetween depth (depth + 1) = [openBrace depth] := by
  rw [bracesBetween, if_pos (Nat.lt_succ_self depth), Nat.add_sub_cancel_left]
  rfl

variable {marks : List Nat} {previous : Nat}

theorem renderLines_append (front back : List ListedLine) :
    renderLines marks previous (front ++ back) =
      ((renderLines marks previous front).1 ++
        (renderLines marks (renderLines marks previous front).2 back).1,
        (renderLines marks (renderLines marks previous front).2 back).2) := by
  induction front generalizing previous with
  | nil => rfl
  | cons line rest inductionHypothesis =>
    simp only [List.cons_append, renderLines, inductionHypothesis, List.append_assoc]

/-- The first line of a block brings the opening brace with it. -/
theorem renderLines_enter {line : ListedLine} {rest : List ListedLine}
    (deeper : line.depth = previous + 1) :
    renderLines marks previous (line :: rest) =
      (openBrace previous :: (renderLines marks (previous + 1) (line :: rest)).1,
        (renderLines marks (previous + 1) (line :: rest)).2) := by
  have opened : bracesBetween previous line.depth = [openBrace previous] := by
    rw [deeper, bracesBetween_succ]
  have level : bracesBetween (previous + 1) line.depth = [] := by
    rw [deeper, bracesBetween_of_le (Nat.le_refl _), closing_self]
  simp only [renderLines, renderLine, opened, level, List.cons_append, List.nil_append,
    List.append_assoc]

end Listing

/-! ### Blocks -/

/-- The text of a comment behind a line. -/
def commentText : Option String → String
  | some comment => " // " ++ comment
  | none => ""

/-- The text line of a statement. -/
def Statement.textLine (reading : Reading) (labels : Registry Int Nat) (depth : Nat)
    (statement : Statement) : String :=
  Listing.indent depth ++ (statement.heading reading labels).text ++
    commentText (statement.heading reading labels).comment

/-- The label lines in front of an address, if it is referred to. -/
def markLines (marks : List Nat) (depth address : Nat) : List String :=
  if marks.contains address then Listing.labelLine depth address else []

mutual

/-- The text lines of the block of a statement, in its braces. -/
def Statement.bodyLayout (reading : Reading) (labels : Registry Int Nat) (marks : List Nat)
    (offset depth : Nat) : Statement → List String
  | .branch clauses body =>
    Listing.openBrace depth ::
      body.layout reading labels marks (offset + 5 + clausesSize reading.symbols clauses)
        (depth + 1) ++ [Listing.closeBrace depth]
  | .returnGuard _ body =>
    Listing.openBrace depth :: body.layout reading labels marks (offset + 2) (depth + 1) ++
      [Listing.closeBrace depth]
  | _ => []

/-- The text lines of a block. -/
def Block.layout (reading : Reading) (labels : Registry Int Nat) (marks : List Nat)
    (offset depth : Nat) : Block → List String
  | .nil => []
  | .cons _ first rest =>
    (if first.isLabel then []
      else markLines marks depth offset ++ first.textLine reading labels depth ::
        first.bodyLayout reading labels marks offset depth) ++
      rest.layout reading labels marks (offset + first.codeSize reading.symbols) depth

end

section Blocks

variable {reading : Reading} {labels : Registry Int Nat} {marks : List Nat}

theorem Block.layout_of_onlyLabels {block : Block} (only : block.onlyLabels = true)
    {offset depth : Nat} : block.layout reading labels marks offset depth = [] := by
  match block with
  | .nil => rfl
  | .cons origin first rest =>
    obtain ⟨label, others⟩ := (Bool.and_eq_true _ _).mp only
    rw [layout, if_pos label, layout_of_onlyLabels others]
    rfl

theorem Block.outline_head {symbols : Symbols} {block : Block} (filled : block.onlyLabels = false)
    (offset depth : Nat) :
    ∃ spot others, block.outline symbols offset depth = spot :: others ∧ spot.depth = depth := by
  match block with
  | .nil => cases filled
  | .cons origin first rest =>
    rw [outline]
    cases label : first.isLabel with
    | false => exact ⟨_, _, rfl, rfl⟩
    | true =>
      rw [onlyLabels, label, Bool.true_and] at filled
      exact outline_head filled _ depth

theorem renderLine_spot (spot : Spot) (previous : Nat) :
    Listing.renderLine marks previous (spot.line reading labels) =
      Listing.bracesBetween previous spot.depth ++ markLines marks spot.depth spot.address ++
        [spot.statement.textLine reading labels spot.depth] ++
        (if spot.statement.hasEmptyBody then
          [Listing.openBrace spot.depth, Listing.closeBrace spot.depth] else []) := rfl

/-- The lines of a block from a depth on, down to its own depth. -/
def Rendered (lines : List ListedLine) (marks : List Nat) (previous depth : Nat)
    (layout : List String) : Prop :=
  (Listing.renderLines marks previous lines).1 ++
      Listing.closing (Listing.renderLines marks previous lines).2 depth = layout ∧
    depth ≤ (Listing.renderLines marks previous lines).2

/-- A body that holds a statement, from the depth around it on. -/
theorem Rendered.braced {line : ListedLine} {rest : List ListedLine} {depth : Nat}
    {layout : List String} (deeper : line.depth = depth + 1)
    (rendered : Rendered (line :: rest) marks (depth + 1) (depth + 1) layout) :
    Rendered (line :: rest) marks depth depth
      (Listing.openBrace depth :: layout ++ [Listing.closeBrace depth]) := by
  obtain ⟨same, deep⟩ := rendered
  unfold Rendered
  rw [Listing.renderLines_enter deeper]
  refine ⟨?_, by omega⟩
  rw [Listing.closing_of_lt (by omega), ← same]
  simp only [List.cons_append, List.append_assoc]

theorem rendered_nil {previous depth : Nat} (notDeeper : depth ≤ previous) :
    Rendered [] marks previous depth (Listing.closing previous depth) :=
  ⟨rfl, notDeeper⟩

/-- The braces of a body that holds no statement come with the line of its statement, the
others with the lines of the body. -/
theorem Rendered.body {body : Block} {offset depth : Nat}
    (rendered : Rendered ((body.outline reading.symbols offset (depth + 1)).map
      (Spot.line reading labels)) marks (depth + 1) (depth + 1)
      (body.layout reading labels marks offset (depth + 1))) :
    ∃ inner, Rendered ((body.outline reading.symbols offset (depth + 1)).map
        (Spot.line reading labels)) marks depth depth inner ∧
      (if body.onlyLabels then [Listing.openBrace depth, Listing.closeBrace depth] else []) ++
        inner = Listing.openBrace depth ::
          body.layout reading labels marks offset (depth + 1) ++ [Listing.closeBrace depth] := by
  cases only : body.onlyLabels with
  | true =>
    rw [Block.outline_of_onlyLabels only, Block.layout_of_onlyLabels only]
    exact ⟨_, rendered_nil (Nat.le_refl depth), by rw [Listing.closing_self]; rfl⟩
  | false =>
    obtain ⟨spot, others, same, deeper⟩ :=
      @Block.outline_head reading.symbols body only offset (depth + 1)
    rw [same] at rendered ⊢
    exact ⟨_, rendered.braced deeper, rfl⟩

mutual

/-- The lines of the block of a statement. -/
theorem Statement.rendered_nested (statement : Statement) (offset depth : Nat) :
    ∃ inner, Rendered ((statement.nested reading.symbols offset depth).map
        (Spot.line reading labels)) marks depth depth inner ∧
      (if statement.hasEmptyBody then [Listing.openBrace depth, Listing.closeBrace depth]
        else []) ++ inner = statement.bodyLayout reading labels marks offset depth := by
  match statement with
  | .branch clauses body =>
    have rendered := Block.rendered_outline body
      (offset + 5 + clausesSize reading.symbols clauses) (Nat.le_refl (depth + 1))
    rw [Listing.closing_self, List.nil_append] at rendered
    rw [Statement.nested, Statement.bodyLayout]
    exact rendered.body
  | .returnGuard value body =>
    have rendered := Block.rendered_outline body (offset + 2) (Nat.le_refl (depth + 1))
    rw [Listing.closing_self, List.nil_append] at rendered
    rw [Statement.nested, Statement.bodyLayout]
    exact rendered.body
  | .label _ | .expression _ | .assign .. | .objectStep .. | .jump .. | .word _ | .anchor _
  | .taskPause _ | .bare =>
    exact ⟨_, rendered_nil (Nat.le_refl depth), Listing.closing_self depth⟩

/-- The lines of a block. -/
theorem Block.rendered_outline (block : Block) (offset : Nat) {previous depth : Nat}
    (notDeeper : depth ≤ previous) :
    Rendered ((block.outline reading.symbols offset depth).map (Spot.line reading labels)) marks
      previous depth
      (Listing.closing previous depth ++ block.layout reading labels marks offset depth) := by
  match block with
  | .nil =>
    rw [Block.layout, List.append_nil]
    exact rendered_nil notDeeper
  | .cons origin first rest =>
    rw [Block.outline, Block.layout]
    cases label : first.isLabel with
    | true =>
      simp only [if_true, List.nil_append]
      exact Block.rendered_outline rest _ notDeeper
    | false =>
      obtain ⟨inner, ⟨nestedLines, deep⟩, braces⟩ :=
        Statement.rendered_nested first offset depth
      have others := Block.rendered_outline rest (offset + first.codeSize reading.symbols) deep
      simp only [Bool.false_eq_true, if_false, List.cons_append, List.map_cons, List.map_append]
      unfold Rendered at others ⊢
      simp only [Listing.renderLines, renderLine_spot, Listing.bracesBetween_of_le notDeeper]
      show _ ++ (Listing.renderLines marks depth _).1 ++ Listing.closing
        (Listing.renderLines marks depth _).2 depth = _ ∧ depth ≤ (Listing.renderLines marks depth _).2
      rw [Listing.renderLines_append]
      refine ⟨?_, others.2⟩
      simp only [List.append_assoc, others.1]
      rw [← braces, ← nestedLines]
      simp only [List.append_assoc, List.cons_append, List.nil_append]

end

end Blocks

/-! ### Scripts -/

/-- The lines behind the last statement of a script. -/
def endLines (marks : List Nat) (length : Nat) : List String :=
  markLines marks 1 length ++ [Listing.closeBrace 0]

/-- The text of a listing: the title, and the script in its braces. -/
theorem Script.render_listed (script : Script) (reading : Reading) (labels : Registry Int Nat) :
    (script.listed reading labels).render reading.program =
      Listing.titleLine reading.program :: Listing.openBrace 0 ::
        script.body.layout reading labels (script.listed reading labels).labels 0 1 ++
        endLines (script.listed reading labels).labels reading.program.code.length := by
  have rendered := @Block.rendered_outline reading labels (script.listed reading labels).labels
    script.body 0 1 1 (Nat.le_refl 1)
  have lines : (script.listed reading labels).lines =
    (script.body.outline reading.symbols 0 1).map (Spot.line reading labels) := rfl
  rw [Listing.closing_self, List.nil_append] at rendered
  rw [Listing.render, lines]
  cases only : script.body.onlyLabels with
  | true =>
    rw [Block.outline_of_onlyLabels only, Block.layout_of_onlyLabels only]
    rfl
  | false =>
    obtain ⟨spot, others, same, deeper⟩ :=
      @Block.outline_head reading.symbols script.body only 0 1
    rw [same] at rendered ⊢
    obtain ⟨text, deep⟩ := rendered
    rw [List.map_cons] at text deep ⊢
    rw [← text]
    simp only [Listing.renderLines_enter (show (spot.line reading labels).depth = 0 + 1 from deeper),
      Nat.zero_add, Listing.renderEnd, if_neg (Nat.ne_of_gt deep), List.nil_append,
      List.cons_append, List.append_assoc]
    rfl

end MapScript
