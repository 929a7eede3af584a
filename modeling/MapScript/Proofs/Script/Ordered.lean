/-
This file shows that the pieces of a statement follow each other as pieces may, so that
cleaning gives their clean forms and nothing else. Values and separators take turns: a
value is followed by a separator or by nothing, and behind a comma or an operator a value
starts. Proofs go from the end of a line to its start.
-/

import MapScript.Proofs.Script.Spelling

namespace MapScript

namespace Piece

/-! ### Values and separators -/

/-- Whether a value starts with a piece. -/
def isValue : Piece → Bool
  | word _ | numeral _ | named .. | quoted _ => true
  | _ => false

/-- Whether a piece ends what stands before it. -/
def isSeparator : Piece → Bool
  | opening | closing | comma | dot | gap | operator _ | step _ => true
  | _ => false

/-- Whether a piece ends with a character that is not blank. -/
def endsFull : Piece → Bool
  | comma | gap | operator _ => false
  | _ => true

/-- What may stand behind a value. -/
structure IsTail (pieces : List Piece) : Prop where
  chained : Chained pieces
  separated : ∀ first ∈ pieces.head?, first.isSeparator = true
  full : ∀ last ∈ pieces.getLast?, last.endsFull = true

/-- What may stand behind a separator. -/
structure IsBody (pieces : List Piece) : Prop where
  chained : Chained pieces
  filled : pieces ≠ []
  valued : ∀ first ∈ pieces.head?, first.isValue = true
  full : ∀ last ∈ pieces.getLast?, last.endsFull = true

theorem isTail_nil : IsTail [] where
  chained := trivial
  separated _ first := by cases first
  full _ last := by cases last

theorem getLast?_cons_full {first : Piece} {rest : List Piece}
    (alone : rest = [] → first.endsFull = true)
    (full : ∀ last ∈ rest.getLast?, last.endsFull = true) :
    ∀ last ∈ (first :: rest).getLast?, last.endsFull = true := by
  intro last member
  cases rest with
  | nil =>
    cases member
    exact alone rfl
  | cons second rest =>
    rw [List.getLast?_cons_cons] at member
    exact full last member

theorem chained_cons {first : Piece} {rest : List Piece}
    (fits : ∀ second ∈ rest.head?, first.follows second) (chained : Chained rest) :
    Chained (first :: rest) := by
  cases rest with
  | nil => trivial
  | cons second rest => exact ⟨fits second rfl, chained⟩

theorem IsTail.cons_value {first : Piece} {rest : List Piece} (value : first.isValue = true)
    (tail : IsTail rest) : IsBody (first :: rest) where
  chained := by
    refine chained_cons (fun second member => ?_) tail.chained
    have separated := tail.separated second member
    cases first with
    | word | numeral | named => cases second <;> trivial
    | quoted => trivial
    | _ => cases value
  filled := List.cons_ne_nil _ _
  valued _ member := Option.some.inj member ▸ value
  full := by
    refine getLast?_cons_full (fun _ => ?_) tail.full
    cases first <;> first | rfl | cases value

theorem IsBody.cons_separator {first : Piece} {rest : List Piece}
    (separator : first.isSeparator = true) (body : IsBody rest) : IsTail (first :: rest) where
  chained := by
    refine chained_cons (fun second member => ?_) body.chained
    have valued := body.valued second member
    cases first with
    | comma => cases second <;> trivial
    | opening | closing | dot | gap | operator | step => trivial
    | _ => cases separator
  separated _ member := Option.some.inj member ▸ separator
  full := getLast?_cons_full (fun none => absurd none body.filled) body.full

theorem IsTail.cons_separator {first : Piece} {rest : List Piece}
    (separator : first.isSeparator = true) (ends : first.endsFull = true) (tail : IsTail rest) :
    IsTail (first :: rest) where
  chained := by
    refine chained_cons (fun second member => ?_) tail.chained
    cases first with
    | opening | closing | dot | step => trivial
    | comma | gap | operator => cases ends
    | _ => cases separator
  separated _ member := Option.some.inj member ▸ separator
  full := getLast?_cons_full (fun _ => ends) tail.full

theorem isValue_ofObject (written : String) : (ofObject written).isValue = true := by
  unfold ofObject
  split <;> rfl

theorem isValue_ofNumber (symbols : Symbols) (kind : Option ParameterKind) (value : Int) :
    (ofNumber symbols kind value).isValue = true := by
  unfold ofNumber
  split <;> rfl

end Piece

/-! ### Terms -/

open Piece (IsTail IsBody)

section Terms

variable {reading : Reading}

mutual

/-- The pieces of a term start with a value, whatever it is that stands behind them. -/
theorem Term.isBody_pieces (value : Term) {position : Position} {slot : Option Slot}
    (each : value.Each (Term.Spelled reading.symbols) position slot) {rest : List Piece}
    (tail : IsTail rest) :
    IsBody (value.pieces reading position slot ++ rest) := by
  have closed : IsTail (.closing :: rest) := tail.cons_separator rfl rfl
  match value with
  | .call name arguments multitask =>
    rw [pieces, callPieces, List.append_assoc]
    exact (Term.isTail_arguments name arguments each.2 closed).cons_value rfl
  | .flag name => exact tail.cons_value rfl
  | .localVariable index => exact tail.cons_value rfl
  | .number given => exact tail.cons_value (Piece.isValue_ofNumber _ _ _)
  | .text written => exact tail.cons_value rfl
  | .property object name =>
    have named : IsBody (.word name.toList :: rest) := tail.cons_value rfl
    exact (named.cons_separator rfl).cons_value (Piece.isValue_ofObject _)
  | .objectCall object name arguments multitask =>
    have called : IsBody (callPieces multitask name (Term.argumentPieces reading name 0 arguments)
        ++ rest) := by
      rw [callPieces, List.append_assoc]
      exact (Term.isTail_arguments name arguments each.2 closed).cons_value rfl
    exact (called.cons_separator rfl).cons_value (Piece.isValue_ofObject _)
  | .chain head operators operands step => exact each.1.elim

/-- Arguments in their parentheses. -/
theorem Term.isTail_arguments (function : String) (values : List Term)
    (each : Term.EachArgument (Term.Spelled reading.symbols) function 0 values)
    {rest : List Piece} (tail : IsTail rest) :
    IsTail (.opening :: Term.argumentPieces reading function 0 values ++ rest) := by
  match values with
  | [] => exact tail.cons_separator rfl rfl
  | first :: others =>
    have behind := Term.isTail_argumentPieces function 0 others each.2 tail
    have body := Term.isBody_pieces first each.1 behind
    rw [Term.argumentPieces, if_pos rfl]
    simp only [List.nil_append, List.cons_append, List.append_assoc]
    exact body.cons_separator rfl

/-- Arguments behind the first one. -/
theorem Term.isTail_argumentPieces (function : String) (index : Nat) (values : List Term)
    (each : Term.EachArgument (Term.Spelled reading.symbols) function (index + 1) values)
    {rest : List Piece} (tail : IsTail rest) :
    IsTail (Term.argumentPieces reading function (index + 1) values ++ rest) := by
  match values with
  | [] => exact tail
  | first :: others =>
    have behind := Term.isTail_argumentPieces function (index + 1) others each.2 tail
    have body := Term.isBody_pieces first each.1 behind
    rw [Term.argumentPieces, if_neg (Nat.succ_ne_zero index)]
    simp only [List.cons_append, List.nil_append, List.append_assoc]
    exact body.cons_separator rfl

end

/-! ### Formulas and conditions -/

theorem isTail_operationPieces (list : List (Operator × Term))
    (each : ∀ pair ∈ list, pair.2.Each (Term.Spelled reading.symbols) .formula none)
    {rest : List Piece} (tail : IsTail rest) : IsTail (operationPieces reading list ++ rest) := by
  induction list with
  | nil => exact tail
  | cons pair others inductionHypothesis =>
    obtain ⟨operator, operand⟩ := pair
    have behind := inductionHypothesis fun pair member => each pair (List.mem_cons_of_mem _ member)
    have body := operand.isBody_pieces (each _ List.mem_cons_self) behind
    rw [operationPieces]
    simp only [List.cons_append, List.append_assoc]
    exact body.cons_separator rfl

theorem Formula.isBody_pieces {formula : Formula} {position : Position} {slot : Option Slot}
    (each : formula.Each (Term.Spelled reading.symbols) position slot) {rest : List Piece}
    (tail : IsTail rest) : IsBody (formula.pieces reading position slot ++ rest) := by
  rw [Formula.pieces, Formula.tailPieces]
  simp only [List.append_assoc]
  refine formula.head.isBody_pieces each.1 (isTail_operationPieces _ ?_ ?_)
  · exact fun pair member => each.2 _ (List.of_mem_zip member).2
  · cases formula.step with
    | none => exact tail
    | some step => exact tail.cons_separator rfl rfl

theorem Clause.isBody_pieces {clause : Clause}
    (each : clause.Each (Term.Spelled reading.symbols)) {rest : List Piece}
    (tail : IsTail (conjunctionPieces clause.conjunction ++ rest)) :
    IsBody (clause.pieces reading ++ rest) := by
  have right := Formula.isBody_pieces each.2 tail
  have left := Formula.isBody_pieces each.1 (right.cons_separator
    (show (Piece.operator clause.comparison.text.toList).isSeparator = true from rfl))
  rw [Clause.pieces]
  simp only [List.cons_append, List.append_assoc] at left ⊢
  exact left

theorem isBody_clausePieces {clauses : List Clause} (joined : Joined clauses)
    (each : ∀ clause ∈ clauses, clause.Each (Term.Spelled reading.symbols)) :
    IsBody (clausePieces reading clauses) := by
  induction clauses with
  | nil => exact joined.elim
  | cons first others inductionHypothesis =>
    refine Clause.isBody_pieces (each first List.mem_cons_self) ?_
    cases others with
    | nil =>
      have last : first.conjunction = none := joined
      rw [last]
      exact Piece.isTail_nil
    | cons second others =>
      obtain ⟨conjunction, joins⟩ := Option.isSome_iff_exists.mp joined.1
      have behind := inductionHypothesis joined.2
        fun clause member => each clause (List.mem_cons_of_mem _ member)
      rw [joins]
      exact ((behind.cons_separator rfl).cons_value rfl).cons_separator rfl

end Terms

/-! ### Lines -/

namespace Piece

/-- Whether a line may start with a piece. -/
def startsFull : Piece → Bool
  | bracketed _ => true
  | piece => piece.isValue

/-- Pieces that make up a line without blanks around them. -/
structure IsLine (pieces : List Piece) : Prop where
  chained : Chained pieces
  filled : pieces ≠ []
  starts : ∀ first ∈ pieces.head?, first.startsFull = true
  full : ∀ last ∈ pieces.getLast?, last.endsFull = true

theorem IsBody.isLine {pieces : List Piece} (body : IsBody pieces) : IsLine pieces where
  chained := body.chained
  filled := body.filled
  starts first member := by
    have value := body.valued first member
    cases first <;> first | rfl | cases value
  full := body.full

section Cleaning

variable {symbols : Symbols} {piece : Piece} {pieces : List Piece}

theorem head_clean (sound : piece.Sound symbols) (starts : piece.startsFull = true) :
    ∃ c rest, piece.clean = c :: rest ∧ Text.isBlank c = false := by
  cases piece with
  | word written => exact word_head sound
  | numeral written => exact numeral_head sound
  | named name value => exact numeral_head (isNumeral_integer value)
  | quoted inside => exact ⟨'"', inside ++ ['"'], rfl, by decide⟩
  | bracketed name => exact ⟨'<', name ++ ['>'], rfl, by decide⟩
  | _ => cases starts

theorem getLast?_numeral {written : List Char} (numeral : IsNumeral written) :
    ∀ c ∈ written.getLast?, Text.isBlank c = false := by
  intro c last
  have member := List.mem_of_mem_getLast? last
  obtain ⟨digits, rfl | rfl, -, all⟩ := numeral
  · exact Text.isBlank_of_isDigit (List.all_eq_true.mp all c member)
  · rcases List.mem_cons.mp member with rfl | inside
    · decide
    · exact Text.isBlank_of_isDigit (List.all_eq_true.mp all c inside)

theorem getLast?_word {written : List Char} (sound : (word written).Sound symbols) :
    ∀ c ∈ written.getLast?, Text.isBlank c = false := by
  intro c last
  have member := List.mem_of_mem_getLast? last
  rcases sound with isWord | ⟨plain, rfl, isWord⟩
  · exact Text.isBlank_of_isNameChar (List.all_eq_true.mp isWord.1 c member)
  · rcases List.mem_cons.mp member with rfl | inside
    · decide
    · exact Text.isBlank_of_isNameChar (List.all_eq_true.mp isWord.1 c inside)

theorem getLast?_label {digits : List Char} (all : digits.all Text.isHexDigit = true) :
    ∀ c ∈ ('#' :: digits).getLast?, Text.isBlank c = false := by
  intro c last
  rcases List.mem_cons.mp (List.mem_of_mem_getLast? last) with rfl | inside
  · decide
  · exact Text.isBlank_eq_false_of Text.isHexDigit (List.all_eq_true.mp all c inside) (by decide)

theorem getLast?_concat_full {text : List Char} {mark : Char}
    (full : Text.isBlank mark = false) :
    ∀ c ∈ (text ++ [mark]).getLast?, Text.isBlank c = false := by
  intro c last
  rw [List.getLast?_concat] at last
  exact Option.some.inj last ▸ full

/-- The last character of a piece, as it is written and when it is cleaned. -/
theorem getLast?_full (sound : piece.Sound symbols) (ends : piece.endsFull = true) :
    (piece.raw ≠ [] ∧ ∀ c ∈ piece.raw.getLast?, Text.isBlank c = false) ∧
      (piece.clean ≠ [] ∧ ∀ c ∈ piece.clean.getLast?, Text.isBlank c = false) := by
  cases piece with
  | word written =>
    obtain ⟨c, rest, rfl, -⟩ := word_head sound
    exact ⟨⟨List.cons_ne_nil _ _, getLast?_word sound⟩, List.cons_ne_nil _ _, getLast?_word sound⟩
  | numeral written =>
    obtain ⟨c, rest, rfl, -⟩ := numeral_head sound
    exact ⟨⟨List.cons_ne_nil _ _, getLast?_numeral sound⟩, List.cons_ne_nil _ _,
      getLast?_numeral sound⟩
  | named name value =>
    have numeral := isNumeral_integer value
    obtain ⟨c, rest, same, -⟩ := numeral_head numeral
    refine ⟨⟨List.cons_ne_nil _ _, getLast?_concat_full (by decide)⟩, ?_, getLast?_numeral numeral⟩
    rw [clean, same]
    exact List.cons_ne_nil _ _
  | label digits =>
    exact ⟨⟨List.cons_ne_nil _ _, getLast?_label sound.2⟩, List.cons_ne_nil _ _,
      getLast?_label sound.2⟩
  | quoted _ | definition _ | bracketed _ =>
    exact ⟨⟨List.cons_ne_nil _ _, getLast?_concat_full (by decide)⟩, List.cons_ne_nil _ _,
      getLast?_concat_full (by decide)⟩
  | step change =>
    cases change <;>
      exact ⟨⟨by decide, forall_mem_of_all_option (by decide)⟩, by decide,
        forall_mem_of_all_option (by decide)⟩
  | opening | closing | dot | equals =>
    exact ⟨⟨by decide, forall_mem_of_all_option (by decide)⟩, by decide,
      forall_mem_of_all_option (by decide)⟩
  | comma | gap | operator => cases ends

theorem getLast?_line {write : Piece → List Char} {last : Piece} {front : List Piece}
    (filled : write last ≠ []) (full : ∀ c ∈ (write last).getLast?, Text.isBlank c = false) :
    ∀ c ∈ (line write (front ++ [last])).getLast?, Text.isBlank c = false := by
  intro c member
  rw [line_append, line_cons, line_nil, List.append_nil, List.getLast?_append,
    List.getLast?_eq_some_getLast filled, Option.some_or] at member
  rw [List.getLast?_eq_some_getLast filled] at full
  exact full c member

theorem line_gaps (write : Piece → List Char) (depth : Nat) (gap : write .gap = [' ']) :
    line write (List.replicate depth .gap) = List.replicate depth ' ' := by
  induction depth with
  | zero => rfl
  | succ depth inductionHypothesis =>
    rw [List.replicate_succ, line_cons, gap, inductionHypothesis]
    rfl

theorem chained_gaps (chained : Chained pieces) (depth : Nat) :
    Chained (List.replicate depth .gap ++ pieces) := by
  induction depth with
  | zero => exact chained
  | succ depth inductionHypothesis => exact chained_cons (fun _ _ => trivial) inductionHypothesis

theorem trim_gaps {text : List Char} (depth : Nat)
    (starts : ∃ c rest, text = c :: rest ∧ Text.isBlank c = false)
    (full : ∀ c ∈ text.getLast?, Text.isBlank c = false) :
    Text.trim (List.replicate depth ' ' ++ text) = text := by
  have front : Text.trimStart (List.replicate depth ' ' ++ text) = text := by
    obtain ⟨c, rest, rfl, notBlank⟩ := starts
    unfold Text.trimStart
    rw [List.dropWhile_append_of_pos]
    · rw [List.dropWhile_cons, if_neg (by rw [notBlank]; decide)]
    · intro blank member
      rw [List.eq_of_mem_replicate member]
      decide
  rw [Text.trim, front, trimEnd_of_full full]

/-- What stands between two marks breaks no line if neither does. -/
theorem unbroken_enclosed {opening closing : Char} {inside : List Char}
    (marks : Text.isLineBreak opening = false ∧ Text.isLineBreak closing = false)
    (unbroken : ∀ c ∈ inside, Text.isLineBreak c = false) :
    ∀ c ∈ opening :: inside ++ [closing], Text.isLineBreak c = false := by
  intro c member
  rcases List.mem_append.mp member with front | back
  · rcases List.mem_cons.mp front with rfl | within
    · exact marks.1
    · exact unbroken c within
  · rw [List.mem_singleton.mp back]
    exact marks.2

theorem unbroken_numeral {written : List Char} (isNumeral : IsNumeral written) :
    ∀ c ∈ written, Text.isLineBreak c = false := by
  intro c member
  obtain ⟨digits, same, -, all⟩ := isNumeral
  have digit (inside : c ∈ digits) : Text.isLineBreak c = false :=
    Text.isLineBreak_of_isBlank (Text.isBlank_of_isDigit (List.all_eq_true.mp all c inside))
  rcases same with rfl | rfl
  · exact digit member
  · rcases List.mem_cons.mp member with rfl | inside
    · decide
    · exact digit inside

/-- No piece breaks a line. -/
theorem unbroken_raw (sound : piece.Sound symbols) :
    ∀ c ∈ piece.raw, Text.isLineBreak c = false := by
  intro c member
  cases ordinary : piece.isSpecial with
  | false =>
    have plain := isPlain_raw sound ordinary c member
    by_cases gap : c = ' '
    · rw [gap]
      decide
    · refine Text.isLineBreak_of_isBlank (Text.isBlank_eq_false_of
        (fun c => isPlain c && c != ' ') ?_ (by decide))
      rw [plain, bne_iff_ne.mpr gap]
      rfl
  | true =>
    cases piece with
    | numeral written => exact unbroken_numeral sound c member
    | named name value => exact unbroken_enclosed (by decide) sound.1.unbroken c member
    | quoted inside => exact unbroken_enclosed (by decide) sound.2 c member
    | comma =>
      have marks : ∀ c ∈ comma.raw, Text.isLineBreak c = false := forall_mem_of_all (by decide)
      exact marks c member
    | operator written =>
      have marks : ∀ mark ∈ operatorMarks,
          ((' ' :: mark ++ [' ']).all fun c => !Text.isLineBreak c) = true := by decide
      exact Bool.not_eq_true' _ ▸ List.all_eq_true.mp (marks written sound) c member
    | step change =>
      have marks : ∀ c ∈ (step change).raw, Text.isLineBreak c = false := by
        cases change <;> exact forall_mem_of_all (by decide)
      exact marks c member
    | bracketed name =>
      have allowed := (bracketed_cases sound).2
      refine unbroken_enclosed (by decide) (fun c inside => ?_) c member
      exact Text.isLineBreak_of_isBlank (Text.isBlank_eq_false_of
        (fun c => Text.isHexDigit c || c.isAlpha || "(#)".toList.contains c)
        (List.all_eq_true.mp allowed c inside) (by decide))
    | _ => cases ordinary

theorem unbroken_line (sound : ∀ piece ∈ pieces, piece.Sound symbols) :
    ∀ c ∈ line raw pieces, Text.isLineBreak c = false := by
  intro c member
  obtain ⟨piece, inside, there⟩ := List.mem_flatMap.mp member
  exact unbroken_raw (sound piece inside) c there

/-- Cleaning takes the blanks in front of a line and the comment behind it away. -/
theorem cleanLine_isLine (isLine : IsLine pieces) (sound : ∀ piece ∈ pieces, piece.Sound symbols)
    (depth : Nat) (comment : Option String) :
    cleanLine symbols (List.replicate depth ' ' ++ line raw pieces ++ commentTail comment) =
      .ok (line clean pieces) := by
  obtain ⟨first, others, startSplit⟩ := List.exists_cons_of_ne_nil isLine.filled
  obtain ⟨c, more, same, notBlank⟩ := head_clean
    (sound first (startSplit ▸ List.mem_cons_self)) (isLine.starts first (startSplit ▸ rfl))
  have starts : ∃ c rest, line clean pieces = c :: rest ∧ Text.isBlank c = false := by
    refine ⟨c, more ++ line clean others, ?_, notBlank⟩
    rw [startSplit, line_cons, same]
    rfl
  have endSplit : pieces.dropLast ++ [pieces.getLast isLine.filled] = pieces :=
    List.dropLast_concat_getLast isLine.filled
  have ends := getLast?_full (sound _ (List.getLast_mem isLine.filled))
    (isLine.full _ (List.getLast?_eq_some_getLast isLine.filled))
  have rawFull := @getLast?_line raw _ (List.replicate depth .gap ++ pieces.dropLast) ends.1.1 ends.1.2
  have cleanFull := @getLast?_line clean _ pieces.dropLast ends.2.1 ends.2.2
  rw [List.append_assoc, endSplit] at rawFull
  rw [endSplit] at cleanFull
  have indented : ∀ piece ∈ List.replicate depth .gap ++ pieces, piece.Sound symbols := by
    intro piece member
    rcases List.mem_append.mp member with gap | inside
    · cases List.eq_of_mem_replicate gap
      trivial
    · exact sound piece inside
  have cleaned := cleanLine_line indented (chained_gaps isLine.chained depth) comment rawFull
  rw [line_append, line_append, line_gaps raw depth rfl, line_gaps clean depth rfl,
    trim_gaps depth starts cleanFull] at cleaned
  exact cleaned

end Cleaning

end Piece

/-! ### Statements -/

open Piece (IsLine)

/-- The pieces of a statement make up a line. -/
theorem Statement.isLine_pieces {reading : Reading} (labels : Registry Int Nat)
    {statement : Statement} (shaped : statement.Shaped) (notLabel : statement.isLabel = false)
    (each : statement.EachTerm (Term.Spelled reading.symbols)) :
    IsLine (statement.pieces reading labels) := by
  cases statement with
  | expression value =>
    have body := value.isBody_pieces each Piece.isTail_nil
    rw [List.append_nil] at body
    exact body.isLine
  | assign target formula =>
    have body := Formula.isBody_pieces each.2 Piece.isTail_nil
    rw [List.append_nil] at body
    exact (target.isBody_pieces each.1 (body.cons_separator rfl)).isLine
  | objectStep object reference step =>
    have tail : IsTail [.step step] := Piece.isTail_nil.cons_separator rfl rfl
    have named : IsBody [.word reference.toList, .step step] := tail.cons_value rfl
    exact ((named.cons_separator rfl).cons_value (Piece.isValue_ofObject _)).isLine
  | branch clauses body =>
    exact (((isBody_clausePieces shaped each).cons_separator rfl).cons_value rfl).isLine
  | returnGuard value body =>
    exact ⟨⟨trivial, trivial, trivial, trivial, trivial⟩, List.cons_ne_nil _ _,
      fun _ member => Option.some.inj member ▸ rfl, fun _ member => Option.some.inj member ▸ rfl⟩
  | jump kind goal =>
    show IsLine (jumpPieces kind _)
    unfold jumpPieces
    split
    · exact (Piece.isTail_nil.cons_value rfl).isLine
    · exact ⟨⟨trivial, trivial, trivial⟩, List.cons_ne_nil _ _,
        fun _ member => Option.some.inj member ▸ rfl, fun _ member => Option.some.inj member ▸ rfl⟩
  | word kind => exact (Piece.isTail_nil.cons_value rfl).isLine
  | anchor value =>
    exact ⟨⟨trivial, trivial, trivial⟩, List.cons_ne_nil _ _,
      fun _ member => Option.some.inj member ▸ rfl, fun _ member => Option.some.inj member ▸ rfl⟩
  | taskPause goal =>
    exact ⟨trivial, List.cons_ne_nil _ _, fun _ member => Option.some.inj member ▸ rfl,
      fun _ member => Option.some.inj member ▸ rfl⟩
  | label goal => cases notLabel
  | bare => exact shaped.elim

end MapScript
