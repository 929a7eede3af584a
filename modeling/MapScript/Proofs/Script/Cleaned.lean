/-
This file proves what the cleaning of a line makes of it. A line that is made of pieces,
perhaps with a comment behind them, comes out as the same pieces in their clean form.
Quoted text cuts a line into stretches of plain text, and every pass of the cleaning goes
through the stretches one by one.
-/

import MapScript.Proofs.Script.Pieces
import MapScript.Proofs.Text.Lines

namespace MapScript

/-! ### Quotes in lines -/

namespace Quotation

/-- Plain text in front belongs to the first stretch. -/
theorem ofLine_append {text : List Char} (absent : '"' ∉ text) (rest : List Char) :
    ofLine (text ++ rest) = ⟨text ++ (ofLine rest).lead, (ofLine rest).quotes⟩ := by
  unfold ofLine
  rw [Text.splitOn_append absent]
  have filled := Text.splitOn_ne_nil '"' rest
  rcases split : Text.splitOn '"' rest with _ | ⟨plain, _ | ⟨inside, _ | ⟨after, others⟩⟩⟩
  · exact absurd split filled
  · rfl
  · simp only [List.modifyHead_cons, ofPieces, List.append_assoc]
  · rfl

/-- A quoted part in front opens a new stretch. -/
theorem ofLine_quoted {inside : List Char} (absent : '"' ∉ inside) (rest : List Char) :
    ofLine ('"' :: inside ++ '"' :: rest) =
      ⟨[], (inside, (ofLine rest).lead) :: (ofLine rest).quotes⟩ := by
  unfold ofLine
  rw [List.cons_append, Text.splitOn_cons_self, Text.splitOn_append absent,
    Text.splitOn_cons_self, List.modifyHead_cons, List.append_nil]
  have filled := Text.splitOn_ne_nil '"' rest
  cases split : Text.splitOn '"' rest with
  | nil => exact absurd split filled
  | cons plain others => rfl

end Quotation

/-! ### Lines made of pieces -/

namespace Piece

/-- The stretches of a line that is made of pieces, given those of what follows. -/
def quotation (write : Piece → List Char) (after : Quotation) : List Piece → Quotation
  | [] => after
  | .quoted inside :: rest =>
    let tail := quotation write after rest
    ⟨[], (inside, tail.lead) :: tail.quotes⟩
  | piece :: rest =>
    let tail := quotation write after rest
    ⟨write piece ++ tail.lead, tail.quotes⟩

/-- A way to write pieces that leaves quoted text alone. -/
def KeepsQuotes (write : Piece → List Char) : Prop :=
  ∀ inside, write (.quoted inside) = '"' :: inside ++ ['"']

theorem quotation_cons {piece : Piece} (plain : ∀ inside, piece ≠ .quoted inside)
    (write : Piece → List Char) (after : Quotation) (rest : List Piece) :
    quotation write after (piece :: rest) =
      ⟨write piece ++ (quotation write after rest).lead, (quotation write after rest).quotes⟩ := by
  cases piece with
  | quoted inside => exact absurd rfl (plain inside)
  | _ => rfl

/-- Whether a piece is quoted text. -/
theorem quoted_or_plain (piece : Piece) :
    (∃ inside, piece = .quoted inside) ∨ ∀ inside, piece ≠ .quoted inside := by
  cases piece with
  | quoted inside => exact Or.inl ⟨inside, rfl⟩
  | _ =>
    refine Or.inr fun inside same => ?_
    cases same

theorem ofLine_line {write : Piece → List Char} (keeps : KeepsQuotes write) {symbols : Symbols}
    {pieces : List Piece} (sound : ∀ piece ∈ pieces, piece.Sound symbols)
    (unquoted : ∀ piece ∈ pieces, (∀ inside, piece ≠ .quoted inside) → '"' ∉ write piece)
    (tail : List Char) :
    Quotation.ofLine (line write pieces ++ tail) =
      quotation write (Quotation.ofLine tail) pieces := by
  induction pieces with
  | nil => rfl
  | cons piece rest inductionHypothesis =>
    have others := inductionHypothesis
      (fun other member => sound other (List.mem_cons_of_mem _ member))
      (fun other member => unquoted other (List.mem_cons_of_mem _ member))
    rw [line_cons, List.append_assoc]
    rcases quoted_or_plain piece with ⟨inside, rfl⟩ | plain
    · rw [keeps inside, List.append_assoc, List.singleton_append,
        Quotation.ofLine_quoted (sound _ List.mem_cons_self).1, others]
      rfl
    · rw [Quotation.ofLine_append (unquoted piece List.mem_cons_self plain), others,
        quotation_cons plain]

theorem join_quotation {write : Piece → List Char} (keeps : KeepsQuotes write)
    (pieces : List Piece) : (quotation write ⟨[], []⟩ pieces).join = line write pieces := by
  induction pieces with
  | nil => rfl
  | cons piece rest inductionHypothesis =>
    rw [line_cons, ← inductionHypothesis]
    rcases quoted_or_plain piece with ⟨inside, rfl⟩ | plain
    · rw [keeps inside]
      simp only [quotation, Quotation.join, List.flatMap_cons, List.nil_append, List.append_assoc,
        List.cons_append]
    · rw [quotation_cons plain]
      simp only [Quotation.join, List.append_assoc]

/-- Pieces that may stand one after the other. -/
def Chained : List Piece → Prop
  | [] => True
  | [_] => True
  | first :: second :: rest => first.follows second ∧ Chained (second :: rest)

theorem Chained.tail {first : Piece} {rest : List Piece} (chained : Chained (first :: rest)) :
    Chained rest := by
  cases rest with
  | nil => trivial
  | cons second rest => exact chained.2

section Passes

variable {symbols : Symbols} {pieces : List Piece}

/-- A pass over plain text that goes through pieces one by one goes through lines that are
made of them. -/
theorem mapPlain_quotation (change : List Char → List Char) (before after : Piece → List Char)
    (empty : change [] = [])
    (each : ∀ piece rest, (∀ other ∈ piece :: rest, other.Sound symbols) →
      Chained (piece :: rest) → (∀ inside, piece ≠ .quoted inside) →
      change (before piece ++ (quotation before ⟨[], []⟩ rest).lead) =
        after piece ++ change (quotation before ⟨[], []⟩ rest).lead)
    (sound : ∀ piece ∈ pieces, piece.Sound symbols) (chained : Chained pieces) :
    (quotation before ⟨[], []⟩ pieces).mapPlain change = quotation after ⟨[], []⟩ pieces := by
  induction pieces with
  | nil => exact congrArg (Quotation.mk · []) empty
  | cons piece rest inductionHypothesis =>
    have others := inductionHypothesis
      (fun other member => sound other (List.mem_cons_of_mem _ member)) chained.tail
    have lead := congrArg Quotation.lead others
    have quotes := congrArg Quotation.quotes others
    simp only [Quotation.mapPlain] at lead quotes
    rcases quoted_or_plain piece with ⟨inside, rfl⟩ | plain
    · simp only [quotation, Quotation.mapPlain, List.map_cons, empty, lead, quotes]
    · rw [quotation_cons plain, quotation_cons plain, Quotation.mapPlain]
      simp only [each piece rest sound chained plain, lead, quotes]

theorem word_head {written : List Char} (sound : (word written).Sound symbols) :
    ∃ c rest, written = c :: rest ∧ Text.isBlank c = false := by
  rcases sound with ⟨all, some⟩ | ⟨plain, rfl, -⟩
  · cases written with
    | nil => cases some
    | cons c rest =>
      exact ⟨c, rest, rfl, Text.isBlank_of_isNameChar
        (List.all_eq_true.mp all c List.mem_cons_self)⟩
  · exact ⟨'@', plain, rfl, by decide⟩

theorem numeral_head {written : List Char} (sound : IsNumeral written) :
    ∃ c rest, written = c :: rest ∧ Text.isBlank c = false := by
  obtain ⟨digits, rfl | rfl, filled, all⟩ := sound
  · obtain ⟨c, rest, rfl⟩ := List.exists_cons_of_ne_nil filled
    exact ⟨c, rest, rfl, Text.isBlank_of_isDigit (List.all_eq_true.mp all c List.mem_cons_self)⟩
  · exact ⟨'-', digits, rfl, by decide⟩

/-- Behind a comma a value starts, or the stretch of plain text ends. -/
theorem lead_after_comma {rest : List Piece} (sound : ∀ piece ∈ rest, piece.Sound symbols)
    (chained : Chained (.comma :: rest)) :
    ∀ c ∈ (quotation raw ⟨[], []⟩ rest).lead.head?, Text.isBlank c = false := by
  intro c first
  cases rest with
  | nil => cases first
  | cons piece rest =>
    have next := chained.1
    have here := sound piece List.mem_cons_self
    cases piece with
    | word written =>
      obtain ⟨other, more, rfl, full⟩ := word_head here
      cases first
      exact full
    | numeral written =>
      obtain ⟨other, more, rfl, full⟩ := numeral_head here
      cases first
      exact full
    | named name value =>
      cases first
      decide
    | quoted inside => cases first
    | _ => cases next

theorem keepsQuotes_raw : KeepsQuotes raw := fun _ => rfl

theorem keepsQuotes_tight : KeepsQuotes tight := fun _ => rfl

theorem keepsQuotes_spaced : KeepsQuotes spaced := fun _ => rfl

theorem keepsQuotes_clean : KeepsQuotes clean := fun _ => rfl

theorem quote_not_mem_raw {piece : Piece} (sound : piece.Sound symbols)
    (plain : ∀ inside, piece ≠ .quoted inside) : '"' ∉ piece.raw := by
  cases ordinary : piece.isSpecial with
  | false => exact not_mem_raw sound ordinary (by decide)
  | true =>
    cases piece with
    | named name value =>
      intro member
      rcases List.mem_append.mp member with front | back
      · rcases List.mem_cons.mp front with same | inside
        · exact absurd same (by decide)
        · exact (sound.1.unmarked _ inside).1 rfl
      · exact absurd (List.mem_singleton.mp back) (by decide)
    | quoted inside => exact absurd rfl (plain inside)
    | numeral written => exact not_mem_numeral sound (by decide) (by decide)
    | bracketed name => exact not_mem_bracketed sound (by decide) (by decide) (by decide)
    | comma => decide
    | step change => rcases step_raw change with same | same <;> rw [raw, same] <;> decide
    | operator written =>
      have marks : ∀ mark ∈ operatorMarks, '"' ∉ ' ' :: mark ++ [' '] := by decide
      exact marks written sound
    | _ => cases ordinary

theorem quote_not_mem_tight {piece : Piece} (sound : piece.Sound symbols)
    (plain : ∀ inside, piece ≠ .quoted inside) : '"' ∉ piece.tight := by
  have absent := quote_not_mem_raw sound plain
  cases piece with
  | comma => decide
  | _ => exact absent

theorem quote_not_mem_spaced {piece : Piece} (sound : piece.Sound symbols)
    (plain : ∀ inside, piece ≠ .quoted inside) : '"' ∉ piece.spaced := by
  have absent := quote_not_mem_tight sound plain
  cases piece with
  | step change => rcases step_raw change with same | same <;> rw [spaced, same] <;> decide
  | _ => exact absent

/-! ### The passes of the cleaning -/

theorem join_tightened (sound : ∀ piece ∈ pieces, piece.Sound symbols)
    (chained : Chained pieces) :
    ((Quotation.ofLine (line raw pieces)).mapPlain tightenCommas).join = line tight pieces := by
  have cut := ofLine_line keepsQuotes_raw sound
    (fun piece member => quote_not_mem_raw (sound piece member)) []
  rw [List.append_nil] at cut
  have passed := mapPlain_quotation tightenCommas raw tight rfl
    (fun piece rest all linked plain => tightenFrom_raw (all piece List.mem_cons_self) plain
      (fun comma => lead_after_comma (fun other member => all other (List.mem_cons_of_mem _ member))
        (comma ▸ linked))) sound chained
  rw [cut]
  show ((quotation raw ⟨[], []⟩ pieces).mapPlain tightenCommas).join = _
  rw [passed, join_quotation keepsQuotes_tight]

theorem join_spaced (sound : ∀ piece ∈ pieces, piece.Sound symbols) (chained : Chained pieces) :
    ((Quotation.ofLine (line tight pieces)).mapPlain spaceSteps).join = line spaced pieces := by
  have cut := ofLine_line keepsQuotes_tight sound
    (fun piece member => quote_not_mem_tight (sound piece member)) []
  rw [List.append_nil] at cut
  have passed := mapPlain_quotation spaceSteps tight spaced rfl
    (fun piece rest all _ plain => spaceSteps_tight (all piece List.mem_cons_self) plain _)
    sound chained
  rw [cut]
  show ((quotation tight ⟨[], []⟩ pieces).mapPlain spaceSteps).join = _
  rw [passed, join_quotation keepsQuotes_spaced]

theorem mapPlainM_quotation (sound : ∀ piece ∈ pieces, piece.Sound symbols) :
    (quotation spaced ⟨[], []⟩ pieces).mapPlainM (replaceNames symbols · 0) =
      .ok (quotation clean ⟨[], []⟩ pieces) := by
  -- Both parts of the stretches are needed for the induction: the first and the others.
  have parts : replaceNames symbols (quotation spaced ⟨[], []⟩ pieces).lead 0 =
        .ok (quotation clean ⟨[], []⟩ pieces).lead ∧
      ((quotation spaced ⟨[], []⟩ pieces).quotes.mapM fun quote => do
        let changed ← replaceNames symbols quote.2 0
        pure (quote.1, changed)) = .ok (quotation clean ⟨[], []⟩ pieces).quotes := by
    induction pieces with
    | nil => exact ⟨rfl, rfl⟩
    | cons piece rest inductionHypothesis =>
      obtain ⟨lead, quotes⟩ := inductionHypothesis
        fun other member => sound other (List.mem_cons_of_mem _ member)
      rcases quoted_or_plain piece with ⟨inside, rfl⟩ | plain
      · refine ⟨rfl, mapM_cons_eq_ok.mpr ⟨_, _, ?_, quotes, rfl⟩⟩
        show (replaceNames symbols (quotation spaced ⟨[], []⟩ rest).lead 0 >>= _) = _
        rw [lead]
        rfl
      · rw [quotation_cons plain, quotation_cons plain]
        refine ⟨?_, quotes⟩
        rw [replaceNames_spaced (sound piece List.mem_cons_self) plain, lead]
        rfl
  exact bind_eq_ok.mpr ⟨_, parts.1, bind_eq_ok.mpr ⟨_, parts.2, rfl⟩⟩

theorem replaced (sound : ∀ piece ∈ pieces, piece.Sound symbols) :
    (Quotation.ofLine (line spaced pieces)).mapPlainM (replaceNames symbols · 0) =
      .ok (quotation clean ⟨[], []⟩ pieces) := by
  have cut := ofLine_line keepsQuotes_spaced sound
    (fun piece member => quote_not_mem_spaced (sound piece member)) []
  rw [List.append_nil] at cut
  rw [cut]
  exact mapPlainM_quotation sound

/-! ### Comments -/

/-- The end of a line that has a comment, or that has none. -/
def commentTail : Option String → List Char
  | some comment => " // ".toList ++ comment.toList
  | none => []

/-- Plain text without a comment in front changes nothing but what is kept. -/
theorem beforeComment?_append {text : List Char}
    (passes : ∀ rest, beforeSlashes? (text ++ rest) = (beforeSlashes? rest).map (text ++ ·))
    (lead : List Char) (quotes : List (List Char × List Char)) :
    beforeComment? (text ++ lead) quotes = (beforeComment? lead quotes).map (text ++ ·) := by
  cases quotes with
  | nil => exact passes lead
  | cons quote others =>
    rw [beforeComment?, beforeComment?, passes lead]
    cases beforeSlashes? lead with
    | some kept => rfl
    | none =>
      rw [Option.map_none, Option.map_map]
      simp only [Function.comp_def, List.append_assoc]

theorem beforeComment?_quotation (sound : ∀ piece ∈ pieces, piece.Sound symbols)
    (after : Quotation) :
    beforeComment? (quotation raw after pieces).lead (quotation raw after pieces).quotes =
      (beforeComment? after.lead after.quotes).map (line raw pieces ++ ·) := by
  induction pieces with
  | nil => exact Option.map_id'.symm
  | cons piece rest inductionHypothesis =>
    have others := inductionHypothesis
      fun other member => sound other (List.mem_cons_of_mem _ member)
    rcases quoted_or_plain piece with ⟨inside, rfl⟩ | plain
    · rw [quotation, beforeComment?, others, Option.map_map]
      simp only [Function.comp_def, line_cons, raw, List.nil_append, List.append_assoc,
        List.cons_append]
      rfl
    · rw [quotation_cons plain, beforeComment?_append
        (beforeSlashes?_raw (sound piece List.mem_cons_self) plain), others, Option.map_map]
      simp only [Function.comp_def, line_cons, List.append_assoc]

theorem trimEnd_of_full {text : List Char}
    (full : ∀ c ∈ text.getLast?, Text.isBlank c = false) : Text.trimEnd text = text := by
  unfold Text.trimEnd
  rw [← List.head?_reverse] at full
  cases last : text.reverse with
  | nil => exact (List.reverse_eq_nil_iff.mp last).symm
  | cons c others =>
    rw [last] at full
    rw [List.dropWhile_cons, if_neg (by rw [full c rfl]; decide), ← last, List.reverse_reverse]

theorem trimEnd_append_blank {blank : Char} (isBlank : Text.isBlank blank = true)
    (text : List Char) : Text.trimEnd (text ++ [blank]) = Text.trimEnd text := by
  unfold Text.trimEnd
  rw [List.reverse_append, List.reverse_singleton, List.singleton_append, List.dropWhile_cons,
    if_pos isBlank]

/-- A comment behind the pieces of a line is cut off. -/
theorem stripComment_line (sound : ∀ piece ∈ pieces, piece.Sound symbols)
    (comment : Option String)
    (full : ∀ c ∈ (line raw pieces).getLast?, Text.isBlank c = false) :
    stripComment (line raw pieces ++ commentTail comment) = line raw pieces := by
  have cut := ofLine_line keepsQuotes_raw sound
    (fun piece member => quote_not_mem_raw (sound piece member)) (commentTail comment)
  unfold stripComment
  simp only [cut, beforeComment?_quotation sound]
  cases comment with
  | none => exact List.append_nil _
  | some comment =>
    have opened : beforeComment? (Quotation.ofLine (commentTail (some comment))).lead
        (Quotation.ofLine (commentTail (some comment))).quotes = some [' '] := by
      have absent : '"' ∉ [' ', '/', '/'] := by decide
      have split := Quotation.ofLine_append absent (' ' :: comment.toList)
      have same : commentTail (some comment) = [' ', '/', '/'] ++ ' ' :: comment.toList := rfl
      rw [same, split]
      cases (Quotation.ofLine (' ' :: comment.toList)).quotes <;> rfl
    rw [opened, Option.map_some]
    show Text.trimEnd (line raw pieces ++ [' ']) = line raw pieces
    rw [trimEnd_append_blank (by decide), trimEnd_of_full full]

/-- Cleaning makes of a line the clean forms of its pieces, without blanks around them. -/
theorem cleanLine_line (sound : ∀ piece ∈ pieces, piece.Sound symbols) (chained : Chained pieces)
    (comment : Option String)
    (full : ∀ c ∈ (line raw pieces).getLast?, Text.isBlank c = false) :
    cleanLine symbols (line raw pieces ++ commentTail comment) =
      .ok (Text.trim (line clean pieces)) := by
  unfold cleanLine
  simp only [stripComment_line sound comment full, join_tightened sound chained,
    join_spaced sound chained, replaced sound, ok_bind, join_quotation keepsQuotes_clean]
  rfl

end Passes

end Piece

end MapScript
