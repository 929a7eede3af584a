/-
This file follows the text of a listing through the cleaning of lines. Every line loses
its indent and its comment, empty lines go, and what is left is laid out along the blocks
of the script as the text was.
-/

import MapScript.Proofs.Listing.Layout
import MapScript.Proofs.Script.Statements
import MapScript.Proofs.Script.Unbroken

namespace MapScript

/-! ### Plain lines -/

/-- Whether a character means something to the cleaning of lines. -/
def isMark (c : Char) : Bool :=
  "\"/,+-<".toList.contains c

/-- Text without quotes, slashes and brackets is cleaned by spacing alone. -/
theorem cleanLine_unquoted {text : List Char} (noQuote : '"' ∉ text) (noSlash : '/' ∉ text)
    (noBracket : '<' ∉ text) (symbols : Symbols) :
    cleanLine symbols text = .ok (Text.trim (spaceSteps (tightenCommas text))) := by
  have kept {mark : Char} (absent : mark ∉ text) (full : mark ≠ ' ') :
      mark ∉ tightenCommas text ∧ mark ∉ spaceSteps (tightenCommas text) := by
    have tight : mark ∉ tightenCommas text := fun member => absent (mem_tightenFrom member)
    exact ⟨tight, fun member => (mem_spaceSteps member).elim full tight⟩
  have quotation {given : List Char} (absent : '"' ∉ given) :
      Quotation.ofLine given = ⟨given, []⟩ := by
    rw [Quotation.ofLine, Text.splitOn_of_not_mem absent]
    rfl
  have slashes : beforeSlashes? text = none := by
    have passed := Piece.beforeSlashes?_append noSlash []
    rw [List.append_nil] at passed
    exact passed
  have names : replaceNames symbols (spaceSteps (tightenCommas text)) 0 =
      .ok (spaceSteps (tightenCommas text)) := by
    have passed := Piece.replaceNames_append (kept noBracket (by decide)).2 symbols []
    rw [List.append_nil] at passed
    rw [passed]
    exact congrArg Except.ok (List.append_nil _)
  have stripped : stripComment text = text := by
    rw [stripComment, quotation noQuote]
    simp only [beforeComment?, slashes]
  have joined (given : List Char) : (⟨given, []⟩ : Quotation).join = given := List.append_nil _
  rw [cleanLine]
  simp only [stripped, quotation noQuote, Quotation.mapPlain, List.map_nil, joined,
    quotation (kept noQuote (by decide)).1, quotation (kept noQuote (by decide)).2,
    Quotation.mapPlainM, names, ok_bind]
  show Except.ok (Text.trim (⟨spaceSteps (tightenCommas text), []⟩ : Quotation).join) = _
  rw [joined]

/-- Cleaning takes nothing but the blanks around it from text without marks. -/
theorem cleanLine_plain {text : List Char} (plain : ∀ c ∈ text, isMark c = false)
    (symbols : Symbols) : cleanLine symbols text = .ok (Text.trim text) := by
  have absent {mark : Char} (special : isMark mark = true) : mark ∉ text := by
    intro member
    rw [plain mark member] at special
    cases special
  have commas : tightenCommas text = text := by
    have passed := Piece.tightenFrom_append (absent (by decide : isMark ',' = true)) []
    rw [List.append_nil] at passed
    exact passed.trans (List.append_nil _)
  have steps : spaceSteps text = text := by
    have passed := Piece.spaceSteps_append (absent (by decide : isMark '+' = true))
      (absent (by decide : isMark '-' = true)) []
    rw [List.append_nil] at passed
    exact passed.trans (List.append_nil _)
  rw [cleanLine_unquoted (absent (by decide)) (absent (by decide)) (absent (by decide)), commas,
    steps]

/-! ### Cleaning lines -/

/-- Lines without line breaks are cleaned to texts; those that come out empty do not
count. -/
structure Cleans (symbols : Symbols) (lines : List String) (texts : List (List Char)) : Prop where
  unbroken : ∀ line ∈ lines, ∀ c ∈ line.toList, Text.isLineBreak c = false
  cleaned : ∃ all, lines.mapM (fun line => cleanLine symbols line.toList) = .ok all ∧
    all.filter (fun text => !text.isEmpty) = texts

namespace Cleans

variable {symbols : Symbols} {front back : List String} {one two : List (List Char)}

theorem nil : Cleans symbols [] [] where
  unbroken _ member := absurd member List.not_mem_nil
  cleaned := ⟨[], rfl, rfl⟩

theorem append (first : Cleans symbols front one) (second : Cleans symbols back two) :
    Cleans symbols (front ++ back) (one ++ two) where
  unbroken line member :=
    (List.mem_append.mp member).elim (first.unbroken line) (second.unbroken line)
  cleaned := by
    obtain ⟨firstAll, firstOk, rfl⟩ := first.cleaned
    obtain ⟨secondAll, secondOk, rfl⟩ := second.cleaned
    refine ⟨firstAll ++ secondAll, ?_, List.filter_append _ _⟩
    rw [List.mapM_append, firstOk, ok_bind, secondOk]
    rfl

theorem single {line : String} {text : List Char} (filled : text ≠ [])
    (unbroken : ∀ c ∈ line.toList, Text.isLineBreak c = false)
    (cleaned : cleanLine symbols line.toList = .ok text) : Cleans symbols [line] [text] where
  unbroken other member := List.mem_singleton.mp member ▸ unbroken
  cleaned := by
    refine ⟨[text], mapM_cons_eq_ok.mpr ⟨text, [], cleaned, rfl, rfl⟩, ?_⟩
    rw [List.filter_cons, if_pos (by simpa using filled)]
    rfl

/-- A line of plain text behind an indent. -/
theorem indented {text : List Char} (plain : ∀ c ∈ text, isMark c = false)
    (starts : ∃ c rest, text = c :: rest ∧ Text.isBlank c = false)
    (ends : ∀ c ∈ text.getLast?, Text.isBlank c = false)
    (unbroken : ∀ c ∈ text, Text.isLineBreak c = false) (depth : Nat) {line : String}
    (same : line.toList = List.replicate (2 * depth) ' ' ++ text) :
    Cleans symbols [line] [text] := by
  have inside {c : Char} (member : c ∈ List.replicate (2 * depth) ' ' ++ text) :
      c = ' ' ∨ c ∈ text := (List.mem_append.mp member).imp_left List.eq_of_mem_replicate
  have filled : text ≠ [] := by
    obtain ⟨c, rest, rfl, -⟩ := starts
    exact List.cons_ne_nil _ _
  refine single filled (fun c member => ?_) ?_
  · rw [same] at member
    rcases inside member with rfl | member
    · decide
    · exact unbroken c member
  · rw [same, cleanLine_plain, Piece.trim_gaps _ starts ends]
    intro c member
    rcases inside member with rfl | member
    · decide
    · exact plain c member

end Cleans

/-! ### Cleaned blocks -/

/-- The cleaned line of a label. -/
def labelSheet (address : Nat) : List Char :=
  '#' :: Text.hexCapital 2 address ++ [':']

/-- The cleaned lines of a label in front of an address, if it is referred to. -/
def markSheet (marks : List Nat) (address : Nat) : List (List Char) :=
  if marks.contains address then [labelSheet address] else []

mutual

/-- The cleaned lines of the block of a statement, in its braces. -/
def Statement.bodySheet (reading : Reading) (labels : Registry Int Nat) (marks : List Nat)
    (offset : Nat) : Statement → List (List Char)
  | .branch clauses body =>
    ['\x7b'] :: body.sheet reading labels marks
      (offset + 5 + clausesSize reading.symbols clauses) ++ [['\x7d']]
  | .returnGuard _ body =>
    ['\x7b'] :: body.sheet reading labels marks (offset + 2) ++ [['\x7d']]
  | _ => []

/-- The cleaned lines of a block. -/
def Block.sheet (reading : Reading) (labels : Registry Int Nat) (marks : List Nat)
    (offset : Nat) : Block → List (List Char)
  | .nil => []
  | .cons _ first rest =>
    (if first.isLabel then []
      else markSheet marks offset ++ Piece.line Piece.clean (first.pieces reading labels) ::
        first.bodySheet reading labels marks offset) ++
      rest.sheet reading labels marks (offset + first.codeSize reading.symbols)

end

section Layouts

variable {symbols : Symbols}

theorem toList_indent (depth : Nat) (text : String) :
    (Listing.indent depth ++ text).toList = List.replicate (2 * depth) ' ' ++ text.toList := by
  rw [String.toList_append, Listing.indent, @String.toList_ofList (List.replicate (2 * depth) ' ')]

theorem cleans_openBrace (depth : Nat) : Cleans symbols [Listing.openBrace depth] [['\x7b']] :=
  .indented (forall_mem_of_all (by decide)) ⟨_, _, rfl, by decide⟩
    (forall_mem_of_all_option (by decide)) (forall_mem_of_all (by decide)) depth
    (toList_indent depth _)

theorem cleans_closeBrace (depth : Nat) : Cleans symbols [Listing.closeBrace depth] [['\x7d']] :=
  .indented (forall_mem_of_all (by decide)) ⟨_, _, rfl, by decide⟩
    (forall_mem_of_all_option (by decide)) (forall_mem_of_all (by decide)) depth
    (toList_indent depth _)

theorem mem_labelSheet {address : Nat} {c : Char} (member : c ∈ labelSheet address) :
    (c == '#' || Text.isHexDigit c || c == ':') = true := by
  rcases List.mem_append.mp member with front | back
  · rcases List.mem_cons.mp front with rfl | inside
    · decide
    · rw [List.all_eq_true.mp (Text.all_isHexDigit_hexCapital 2 address) c inside]
      simp
  · cases List.mem_singleton.mp back
    decide

theorem cleans_labelLine (depth address : Nat) :
    Cleans symbols (Listing.labelLine depth address) [labelSheet address] := by
  have empty : Cleans symbols [""] [] := by
    refine ⟨fun line member => ?_, [[]], ?_, rfl⟩
    · cases List.mem_singleton.mp member
      exact fun c none => absurd none List.not_mem_nil
    · exact mapM_cons_eq_ok.mpr ⟨[], [], cleanLine_plain (fun c none => absurd none List.not_mem_nil) _,
        rfl, rfl⟩
  have label : Cleans symbols [Listing.indent depth ++ labelText address ++ ":"]
      [labelSheet address] := by
    have ends : ∀ c ∈ (labelSheet address).getLast?, Text.isBlank c = false :=
      Piece.getLast?_concat_full (by decide)
    refine .indented (fun c member => ?_) ⟨_, _, rfl, by decide⟩ ends (fun c member => ?_) depth ?_
    · have allowed := mem_labelSheet member
      cases marked : isMark c with
      | false => rfl
      | true =>
        have marks : ∀ c ∈ "\"/,+-<".toList,
            (c == '#' || Text.isHexDigit c || c == ':') = false := forall_mem_of_all (by decide)
        rw [marks c (List.contains_iff_mem.mp marked)] at allowed
        cases allowed
    · exact Text.isLineBreak_of_isBlank (Text.isBlank_eq_false_of
        (fun c => c == '#' || Text.isHexDigit c || c == ':') (mem_labelSheet member) (by decide))
    · rw [String.append_assoc, toList_indent, String.toList_append, toList_labelText]
      rfl
  exact empty.append label

theorem cleans_markLines (marks : List Nat) (depth address : Nat) :
    Cleans symbols (markLines marks depth address) (markSheet marks address) := by
  unfold markLines markSheet
  split
  · exact cleans_labelLine depth address
  · exact .nil

end Layouts

section Blocks

variable {reading : Reading}

theorem Statement.cleans_textLine (legible : reading.symbols.Legible)
    (few : reading.program.strings.length < Bytes.range 4) (labels : Registry Int Nat)
    {statement : Statement} (shaped : statement.Shaped) (notLabel : statement.isLabel = false)
    (each : statement.EachTerm (Term.Spelled reading.symbols)) (depth : Nat) :
    Cleans reading.symbols [statement.textLine reading labels depth]
      [Piece.line Piece.clean (statement.pieces reading labels)] := by
  have spells := Statement.spells_heading legible few labels each
  have isLine := Statement.isLine_pieces labels shaped notLabel each
  have letters : (statement.textLine reading labels depth).toList =
      List.replicate (2 * depth) ' ' ++ Piece.line Piece.raw (statement.pieces reading labels) ++
        Piece.commentTail (statement.heading reading labels).comment := by
    rw [textLine, String.append_assoc, toList_indent, String.toList_append, spells.text_eq,
      List.append_assoc]
    cases (statement.heading reading labels).comment with
    | none => rfl
    | some comment => rw [commentText, String.toList_append]; rfl
  refine .single ?_ ?_ ?_
  · obtain ⟨first, others, split⟩ := List.exists_cons_of_ne_nil isLine.filled
    obtain ⟨c, more, same, -⟩ := Piece.head_clean
      (spells.sound first (split ▸ List.mem_cons_self)) (isLine.starts first (split ▸ rfl))
    rw [split, Piece.line_cons, same]
    exact List.cons_ne_nil _ _
  · intro c member
    rw [letters] at member
    rcases List.mem_append.mp member with front | tail
    · rcases List.mem_append.mp front with indent | inside
      · rw [List.eq_of_mem_replicate indent]
        decide
      · exact Piece.unbroken_line spells.sound c inside
    · have unbroken := spells.comment_unbroken
      cases comment : (statement.heading reading labels).comment with
      | none =>
        rw [comment] at tail
        cases tail
      | some text =>
        rw [comment] at tail unbroken
        rcases List.mem_append.mp tail with mark | inside
        · have marks : ∀ c ∈ " // ".toList, Text.isLineBreak c = false :=
            forall_mem_of_all (by decide)
          exact marks c mark
        · exact unbroken text rfl c inside
  · rw [letters]
    exact Piece.cleanLine_isLine isLine spells.sound _ _

mutual

theorem Statement.cleans_bodyLayout (legible : reading.symbols.Legible)
    (few : reading.program.strings.length < Bytes.range 4) (labels : Registry Int Nat)
    (marks : List Nat) (statement : Statement) (shaped : statement.Each Statement.Shaped)
    (each : statement.Each (Statement.EachTerm (Term.Spelled reading.symbols)))
    (offset depth : Nat) :
    Cleans reading.symbols (statement.bodyLayout reading labels marks offset depth)
      (statement.bodySheet reading labels marks offset) := by
  match statement with
  | .branch clauses body =>
    rw [Statement.bodyLayout, Statement.bodySheet]
    have inner := Block.cleans_layout legible few labels marks body shaped.2 each.2
    exact (cleans_openBrace depth).append ((inner _ _).append (cleans_closeBrace depth))
  | .returnGuard value body =>
    rw [Statement.bodyLayout, Statement.bodySheet]
    have inner := Block.cleans_layout legible few labels marks body shaped.2 each.2
    exact (cleans_openBrace depth).append ((inner _ _).append (cleans_closeBrace depth))
  | .label _ | .expression _ | .assign .. | .objectStep .. | .jump .. | .word _ | .anchor _
  | .taskPause _ | .bare => exact .nil

/-- The text of a block is cleaned to its cleaned lines. -/
theorem Block.cleans_layout (legible : reading.symbols.Legible)
    (few : reading.program.strings.length < Bytes.range 4) (labels : Registry Int Nat)
    (marks : List Nat) (block : Block) (shaped : block.Each Statement.Shaped)
    (each : block.Each (Statement.EachTerm (Term.Spelled reading.symbols)))
    (offset depth : Nat) :
    Cleans reading.symbols (block.layout reading labels marks offset depth)
      (block.sheet reading labels marks offset) := by
  match block with
  | .nil => exact .nil
  | .cons origin first rest =>
    have others := Block.cleans_layout legible few labels marks rest shaped.2 each.2
      (offset + first.codeSize reading.symbols) depth
    rw [Block.layout, Block.sheet]
    refine .append ?_ others
    cases label : first.isLabel with
    | true => exact .nil
    | false =>
      have line := Statement.cleans_textLine legible few labels shaped.1.self label
        each.1.self depth
      have body := Statement.cleans_bodyLayout legible few labels marks first shaped.1 each.1
        offset depth
      exact (cleans_markLines marks depth offset).append (line.append body)

end

end Blocks

end MapScript
