/-
This file proves that a cleaned line is cut into the tokens of its pieces. The forms of
tokens are tried in a fixed order, so for each piece it is shown that the forms before
its own do not fit and that its own takes exactly the piece; for that, what follows must
not run into it.
-/

import MapScript.Proofs.Script.Cleaned
import MapScript.Proofs.Text.Numerals
import MapScript.Script.Token

namespace MapScript

namespace Piece

/-- The tokens that a piece is cut into: one, or none for a gap. -/
def tokens : Piece → List Token
  | word written => [⟨.name, String.ofList written⟩]
  | numeral written => [⟨.number, String.ofList written⟩]
  | named _ value => [⟨.number, String.ofList (Text.integer value)⟩]
  | quoted inside => [⟨.string, String.ofList ('"' :: inside ++ ['"'])⟩]
  | opening => [⟨.leftParenthesis, "("⟩]
  | closing => [⟨.rightParenthesis, ")"⟩]
  | comma => [⟨.comma, ","⟩]
  | dot => [⟨.dot, "."⟩]
  | gap => []
  | operator written => [⟨.operator, String.ofList written⟩]
  | step change => [⟨.operator, change.text⟩]
  | label digits => [⟨.label, String.ofList ('#' :: digits)⟩]
  | definition digits => [⟨.labelDefinition, String.ofList ('#' :: digits ++ [':'])⟩]
  | bracketed name =>
    [⟨if "TaskPause(".toList.isPrefixOf name then .taskPause else .keyword,
      String.ofList ('<' :: name ++ ['>'])⟩]
  | equals => [⟨.operator, "="⟩]

end Piece

namespace Token

/-! ### Steps of cutting -/

theorem cutFrom_skip (passed rest : List Char) :
    cutFrom (passed ++ rest) passed.length = cutFrom rest 0 := by
  induction passed with
  | nil => rfl
  | cons c passed inductionHypothesis => exact inductionHypothesis

/-- A token that fits is taken. -/
theorem cutFrom_munch {text rest : List Char} {kind : TokenKind} (filled : text ≠ [])
    (fits : munch? (text ++ rest) = some (kind, text.length)) :
    cutFrom (text ++ rest) 0 = (⟨kind, String.ofList text⟩ :: ·) <$> cutFrom rest 0 := by
  obtain ⟨c, others, rfl⟩ := List.exists_cons_of_ne_nil filled
  have skipped := cutFrom_skip others rest
  rw [List.cons_append] at fits ⊢
  rw [cutFrom, fits]
  show (cutFrom (others ++ rest) others.length >>= fun tokens =>
    pure (⟨kind, String.ofList ((c :: (others ++ rest)).take (others.length + 1))⟩ :: tokens)) = _
  rw [skipped, List.take_succ_cons, List.take_left, map_eq_pure_bind]

/-- A blank is passed over. -/
theorem cutFrom_gap (rest : List Char) : cutFrom (' ' :: rest) 0 = cutFrom rest 0 := by
  have none : munch? (' ' :: rest) = none := rfl
  rw [cutFrom, none]
  rfl

/-! ### Forms -/

theorem munch?_opening (rest : List Char) : munch? ('(' :: rest) = some (.leftParenthesis, 1) := rfl

theorem munch?_closing (rest : List Char) : munch? (')' :: rest) = some (.rightParenthesis, 1) := rfl

theorem munch?_comma (rest : List Char) : munch? (',' :: rest) = some (.comma, 1) := rfl

theorem munch?_dot (rest : List Char) : munch? ('.' :: rest) = some (.dot, 1) := rfl

theorem munch?_equals (rest : List Char) : munch? ('=' :: rest) = some (.operator, 1) := rfl

theorem munch?_step (change : Step) (rest : List Char) :
    munch? (change.text.toList ++ rest) = some (.operator, change.text.toList.length) := by
  cases change with
  | increment => rfl
  | decrement => rfl

theorem munch?_operator {written : List Char} (mark : written ∈ Piece.operatorMarks)
    (rest : List Char) :
    munch? (written ++ ' ' :: rest) = some (.operator, written.length) := by
  simp only [Piece.operatorMarks, List.map_cons, List.map_nil, List.mem_cons, List.not_mem_nil,
    or_false] at mark
  rcases mark with rfl | rfl | rfl | rfl | rfl | rfl | rfl | rfl | rfl | rfl | rfl | rfl | rfl |
    rfl | rfl <;> rfl

/-- What runs out is what was taken, up to where something else starts. -/
theorem takeWhile_append_stop {test : Char → Bool} {text rest : List Char}
    (all : text.all test = true) (stops : ∀ c ∈ rest.head?, test c = false) :
    (text ++ rest).takeWhile test = text := by
  rw [List.takeWhile_append_of_pos (List.all_eq_true.mp all)]
  cases rest with
  | nil => exact List.append_nil _
  | cons c rest =>
    rw [List.takeWhile_cons, if_neg (by rw [stops c rfl]; decide), List.append_nil]

theorem munch?_quoted {inside : List Char} (absent : '"' ∉ inside) (rest : List Char) :
    munch? ('"' :: inside ++ ['"'] ++ rest) =
      some (.string, ('"' :: inside ++ ['"']).length) := by
  have taken : (inside ++ '"' :: rest).takeWhile (· != '"') = inside := by
    refine takeWhile_append_stop (List.all_eq_true.mpr fun c member => ?_) (by simp)
    exact bne_iff_ne.mpr fun same => absent (same ▸ member)
  have fits : stringLength? ('"' :: (inside ++ '"' :: rest)) = some (inside.length + 2) := by
    rw [stringLength?, taken]
    simp
  rw [List.append_assoc, munch?, List.cons_append, List.singleton_append, fits,
    List.length_append]
  rfl

theorem labelLength?_eq_some {digits rest : List Char} (filled : digits ≠ [])
    (all : digits.all Text.isHexDigit = true)
    (stops : ∀ c ∈ rest.head?, Text.isHexDigit c = false) :
    labelLength? ('#' :: digits ++ rest) = some (digits.length + 1) := by
  rw [List.cons_append, labelLength?, takeWhile_append_stop all stops]
  simp [filled]

theorem munch?_label {digits rest : List Char} (filled : digits ≠ [])
    (all : digits.all Text.isHexDigit = true)
    (stops : ∀ c ∈ rest.head?, Text.isHexDigit c = false ∧ c ≠ ':') :
    munch? ('#' :: digits ++ rest) = some (.label, digits.length + 1) := by
  have fits := labelLength?_eq_some filled all fun c first => (stops c first).1
  have undefined : labelDefinitionLength? ('#' :: digits ++ rest) = none := by
    have behind : ('#' :: digits ++ rest).drop (digits.length + 1) = rest := by
      rw [List.cons_append, List.drop_succ_cons, List.drop_left]
    rw [labelDefinitionLength?, fits]
    simp only [behind]
    cases rest with
    | nil => rfl
    | cons c rest => simp [(stops c rfl).2]
  rw [munch?, undefined, fits]
  rfl

theorem munch?_definition {digits : List Char} (filled : digits ≠ [])
    (all : digits.all Text.isHexDigit = true) (rest : List Char) :
    munch? ('#' :: digits ++ [':'] ++ rest) =
      some (.labelDefinition, ('#' :: digits ++ [':']).length) := by
  have fits : labelLength? ('#' :: digits ++ ':' :: rest) = some (digits.length + 1) :=
    labelLength?_eq_some filled all fun c first => by cases first; decide
  have closed : labelDefinitionLength? ('#' :: digits ++ ':' :: rest) =
      some (digits.length + 2) := by
    rw [labelDefinitionLength?, fits]
    simp
  rw [List.append_assoc, List.singleton_append, munch?, closed, List.length_append]
  rfl

/-- The forms in front of names do not fit where other characters stand. -/
theorem munch?_of_head {c : Char} {rest : List Char} (noQuote : c ≠ '"') (noHash : c ≠ '#')
    (noBracket : c ≠ '<') :
    munch? (c :: rest) = ((nameLength? (c :: rest)).map (TokenKind.name, ·) <|>
      (numberLength? (c :: rest)).map (TokenKind.number, ·) <|>
      (operatorLength? (c :: rest)).map (TokenKind.operator, ·) <|>
      (punctuation? (c :: rest)).map (·, 1)) := by
  have string : stringLength? (c :: rest) = none := by
    rw [stringLength?]
    intro more same
    cases same
    exact noQuote rfl
  have label : labelLength? (c :: rest) = none := by
    rw [labelLength?]
    intro more same
    cases same
    exact noHash rfl
  have fixed (expected : List Char) : fixedLength? ('<' :: expected) (c :: rest) = none := by
    rw [fixedLength?, List.isPrefixOf, beq_eq_false_iff_ne.mpr (Ne.symm noBracket)]
    rfl
  have pause : taskPauseLength? (c :: rest) = none := by
    rw [taskPauseLength?, show "<TaskPause(".toList = '<' :: "TaskPause(".toList from rfl, fixed]
  have keyword : keywordLength? (c :: rest) = none := by
    rw [keywordLength?, show "<Anchor>".toList = '<' :: "Anchor>".toList from rfl, fixed,
      show "<ScriptRv>".toList = '<' :: "ScriptRv>".toList from rfl, fixed]
    rfl
  rw [munch?, string, labelDefinitionLength?, label, pause, keyword]
  rfl

theorem wordLength?_eq_some {written rest : List Char} (word : Piece.IsWord written)
    (stops : ∀ c ∈ rest.head?, Text.isNameChar c = false) :
    wordLength? (written ++ rest) = some written.length := by
  rw [wordLength?, takeWhile_append_stop word.1 stops]
  exact if_pos word.2

theorem munch?_word {symbols : Symbols} {written rest : List Char}
    (sound : (Piece.word written).Sound symbols)
    (stops : ∀ c ∈ rest.head?, Text.isNameChar c = false) :
    munch? (written ++ rest) = some (.name, written.length) := by
  rcases sound with word | ⟨plain, rfl, word⟩
  · have fits := wordLength?_eq_some word stops
    cases written with
    | nil => cases word.2
    | cons c written =>
      have nameChar := List.all_eq_true.mp word.1 c List.mem_cons_self
      have other {mark : Char} (notName : Text.isNameChar mark = false) : c ≠ mark := by
        rintro rfl
        rw [nameChar] at notName
        cases notName
      rw [List.cons_append] at fits ⊢
      rw [munch?_of_head (other (by decide)) (other (by decide)) (other (by decide)), nameLength?,
        fits]
      · rfl
      · intro more same
        cases same
        exact other (by decide) rfl
  · rw [List.cons_append, munch?_of_head (by decide) (by decide) (by decide), nameLength?,
      wordLength?_eq_some word stops]
    rfl

/-- Digits alone are no word. -/
theorem wordLength?_digits {digits rest : List Char} (all : digits.all Text.isDigit = true)
    (stops : ∀ c ∈ rest.head?, Text.isNameChar c = false) : wordLength? (digits ++ rest) = none := by
  have onlyDigits : (((digits ++ rest).takeWhile Text.isNameChar).any fun c => !c.isDigit) =
      false := by
    induction digits with
    | nil =>
      cases rest with
      | nil => rfl
      | cons c rest =>
        rw [List.nil_append, List.takeWhile_cons, if_neg (by rw [stops c rfl]; decide)]
        rfl
    | cons c digits inductionHypothesis =>
      rw [List.all_cons, Bool.and_eq_true] at all
      rw [List.cons_append, List.takeWhile_cons]
      cases nameChar : Text.isNameChar c with
      | false => rfl
      | true =>
        rw [if_pos rfl, List.any_cons, Text.isPlainDigit_of_isNameChar nameChar all.1,
          inductionHypothesis all.2]
        rfl
  rw [wordLength?]
  exact if_neg (by rw [onlyDigits]; decide)

theorem munch?_numeral {written rest : List Char} (numeral : Piece.IsNumeral written)
    (stops : ∀ c ∈ rest.head?, Text.isNameChar c = false ∧ Text.isDigit c = false) :
    munch? (written ++ rest) = some (.number, written.length) := by
  obtain ⟨digits, form, filled, all⟩ := numeral
  have fits : digitsLength? (digits ++ rest) = some digits.length := by
    rw [digitsLength?, takeWhile_append_stop all fun c first => (stops c first).2]
    simp [filled]
  rcases form with rfl | rfl
  · obtain ⟨c, others, rfl⟩ := List.exists_cons_of_ne_nil filled
    have digit := List.all_eq_true.mp all c List.mem_cons_self
    have other {mark : Char} (notDigit : Text.isDigit mark = false) : c ≠ mark := by
      rintro rfl
      rw [digit] at notDigit
      cases notDigit
    have unnamed : nameLength? (c :: (others ++ rest)) = none := by
      rw [nameLength?]
      · exact wordLength?_digits all fun c first => (stops c first).1
      · intro more same
        cases same
        exact other (by decide) rfl
    have number : numberLength? (c :: (others ++ rest)) = some (others.length + 1) := by
      rw [numberLength?]
      · exact fits
      · intro more same
        cases same
        exact other (by decide) rfl
    rw [List.cons_append, munch?_of_head (other (by decide)) (other (by decide))
      (other (by decide)), unnamed, number]
    rfl
  · rw [List.cons_append, munch?_of_head (by decide) (by decide) (by decide)]
    have unnamed : nameLength? ('-' :: (digits ++ rest)) = none := rfl
    rw [unnamed, numberLength?, fits]
    rfl

theorem munch?_taskPause {digits : List Char} (filled : digits ≠ [])
    (all : digits.all Text.isHexDigit = true) (rest : List Char) :
    munch? ("<TaskPause(".toList ++ '#' :: digits ++ ")>".toList ++ rest) =
      some (.taskPause, ("<TaskPause(".toList ++ '#' :: digits ++ ")>".toList).length) := by
  have label : labelLength? ('#' :: digits ++ ')' :: '>' :: rest) = some (digits.length + 1) :=
    labelLength?_eq_some filled all fun c first => by cases first; decide
  have behind : ("<TaskPause(".toList ++ '#' :: digits ++ ')' :: '>' :: rest).drop
      (11 + (digits.length + 1)) = ')' :: '>' :: rest :=
    List.drop_left' (by simp; omega)
  have opened : fixedLength? "<TaskPause(".toList
      ("<TaskPause(".toList ++ '#' :: digits ++ ')' :: '>' :: rest) = some 11 := rfl
  have inside : ("<TaskPause(".toList ++ '#' :: digits ++ ')' :: '>' :: rest).drop 11 =
      '#' :: digits ++ ')' :: '>' :: rest := rfl
  have fits : taskPauseLength? ("<TaskPause(".toList ++ '#' :: digits ++ ')' :: '>' :: rest) =
      some (11 + (digits.length + 1) + 2) := by
    rw [taskPauseLength?, opened]
    simp only [inside, label, behind]
    rfl
  have text : "<TaskPause(".toList ++ '#' :: digits ++ ")>".toList ++ rest =
      "<TaskPause(".toList ++ '#' :: digits ++ ')' :: '>' :: rest := by simp
  have size : 11 + (digits.length + 1) + 2 =
      ("<TaskPause(".toList ++ '#' :: digits ++ ")>".toList).length := by
    simp
    omega
  rw [size] at fits
  rw [text]
  show ((none : Option (TokenKind × Nat)) <|> none <|> none <|>
    (taskPauseLength? ("<TaskPause(".toList ++ '#' :: digits ++ ')' :: '>' :: rest)).map
      (TokenKind.taskPause, ·) <|> _) = _
  rw [fits]
  rfl

theorem munch?_bracketed {symbols : Symbols} {name : List Char}
    (sound : (Piece.bracketed name).Sound symbols) (rest : List Char) :
    munch? ('<' :: name ++ ['>'] ++ rest) =
      some (if "TaskPause(".toList.isPrefixOf name then .taskPause else .keyword,
        ('<' :: name ++ ['>']).length) := by
  rcases sound with rfl | rfl | ⟨digits, filled, all, rfl⟩
  · rfl
  · rfl
  · have text : '<' :: ("TaskPause(#".toList ++ digits ++ [')']) ++ ['>'] =
        "<TaskPause(".toList ++ '#' :: digits ++ ")>".toList := by
      simp
    rw [text, munch?_taskPause filled all rest]
    rfl

end Token

/-! ### Lines -/

namespace Piece

variable {symbols : Symbols}

/-- What follows a word, a numeral or a label starts with a mark. -/
theorem head_clean_of_follows {piece : Piece} {rest : List Piece} {c : Char}
    (closer : match piece with
      | opening | closing | comma | dot | gap | operator _ | step _ => True
      | _ => False)
    (first : c ∈ (line clean (piece :: rest)).head?) : c ∈ "(),. ".toList := by
  cases piece with
  | opening | closing | comma | dot | gap | operator | step =>
    cases first
    decide
  | _ => cases closer

/-- The end of a word, a numeral or a label is seen from what follows. -/
theorem stops_of_chained {piece : Piece} {rest : List Piece} (chained : Chained (piece :: rest))
    (growing : match piece with
      | word _ | numeral _ | named .. | label _ => True
      | _ => False) :
    ∀ c ∈ (line clean rest).head?, Text.isNameChar c = false ∧ Text.isDigit c = false ∧
      Text.isHexDigit c = false ∧ c ≠ ':' := by
  intro c first
  have marks : ∀ c ∈ "(),. ".toList, Text.isNameChar c = false ∧ Text.isDigit c = false ∧
      Text.isHexDigit c = false ∧ c ≠ ':' := forall_mem_of_all (by decide)
  cases rest with
  | nil => cases first
  | cons next rest =>
    refine marks c (head_clean_of_follows ?_ first)
    cases piece with
    | word | numeral | named | label => exact chained.1
    | _ => cases growing

theorem isNumeral_integer (value : Int) : IsNumeral (Text.integer value) := by
  cases value with
  | ofNat number =>
    exact ⟨_, Or.inl rfl, Text.natural_ne_nil number, Text.all_isDigit_natural number⟩
  | negSucc number =>
    exact ⟨_, Or.inr rfl, Text.natural_ne_nil (number + 1), Text.all_isDigit_natural _⟩

theorem cutFrom_piece {piece : Piece} {rest : List Piece} (sound : piece.Sound symbols)
    (chained : Chained (piece :: rest)) :
    Token.cutFrom (piece.clean ++ line clean rest) 0 =
      (piece.tokens ++ ·) <$> Token.cutFrom (line clean rest) 0 := by
  cases piece with
  | word written =>
    have stops := stops_of_chained chained trivial
    obtain ⟨c, others, rfl, -⟩ := word_head sound
    exact Token.cutFrom_munch (List.cons_ne_nil _ _)
      (Token.munch?_word sound fun c first => (stops c first).1)
  | numeral written =>
    have stops := stops_of_chained chained trivial
    obtain ⟨c, others, rfl, -⟩ := numeral_head sound
    exact Token.cutFrom_munch (List.cons_ne_nil _ _)
      (Token.munch?_numeral sound fun c first => ⟨(stops c first).1, (stops c first).2.1⟩)
  | named name value =>
    have stops := stops_of_chained chained trivial
    have numeral := isNumeral_integer value
    obtain ⟨c, others, same, -⟩ := numeral_head numeral
    exact Token.cutFrom_munch (by rw [clean, same]; exact List.cons_ne_nil _ _)
      (Token.munch?_numeral numeral fun c first => ⟨(stops c first).1, (stops c first).2.1⟩)
  | quoted inside =>
    exact Token.cutFrom_munch (List.cons_ne_nil _ _) (Token.munch?_quoted sound.1 _)
  | opening =>
    exact Token.cutFrom_munch (List.cons_ne_nil '(' []) (Token.munch?_opening _)
  | closing =>
    exact Token.cutFrom_munch (List.cons_ne_nil ')' []) (Token.munch?_closing _)
  | comma => exact Token.cutFrom_munch (List.cons_ne_nil ',' []) (Token.munch?_comma _)
  | dot => exact Token.cutFrom_munch (List.cons_ne_nil '.' []) (Token.munch?_dot _)
  | gap =>
    show Token.cutFrom (' ' :: line clean rest) 0 = _
    rw [Token.cutFrom_gap]
    exact (id_map _).symm
  | operator written =>
    have filled : ∀ mark ∈ operatorMarks, mark ≠ [] := by decide
    have taken := Token.cutFrom_munch (filled written sound)
      (Token.munch?_operator sound (line clean rest))
    rw [Token.cutFrom_gap] at taken
    show Token.cutFrom (' ' :: written ++ [' '] ++ line clean rest) 0 = _
    rw [List.append_assoc, List.cons_append, Token.cutFrom_gap]
    exact taken
  | step change =>
    have filled : change.text.toList ≠ [] := by cases change <;> decide
    have taken := Token.cutFrom_munch filled (Token.munch?_step change (line clean rest))
    rw [String.ofList_toList] at taken
    show Token.cutFrom (' ' :: change.text.toList ++ line clean rest) 0 = _
    rw [List.cons_append, Token.cutFrom_gap]
    exact taken
  | label digits =>
    have stops := stops_of_chained chained trivial
    exact Token.cutFrom_munch (List.cons_ne_nil _ _)
      (Token.munch?_label sound.1 sound.2 fun c first => (stops c first).2.2)
  | definition digits =>
    exact Token.cutFrom_munch (List.cons_ne_nil _ _) (Token.munch?_definition sound.1 sound.2 _)
  | bracketed name =>
    exact Token.cutFrom_munch (List.cons_ne_nil _ _) (Token.munch?_bracketed sound _)
  | equals => exact Token.cutFrom_munch (List.cons_ne_nil '=' []) (Token.munch?_equals _)

/-- A cleaned line is cut into the tokens of its pieces. -/
theorem cut_line {pieces : List Piece} (sound : ∀ piece ∈ pieces, piece.Sound symbols)
    (chained : Chained pieces) :
    Token.cut (line clean pieces) = .ok (pieces.flatMap tokens) := by
  unfold Token.cut
  induction pieces with
  | nil => rfl
  | cons piece rest inductionHypothesis =>
    rw [line_cons, cutFrom_piece (sound piece List.mem_cons_self) chained, inductionHypothesis
      (fun other member => sound other (List.mem_cons_of_mem _ member)) chained.tail]
    rfl

end Piece

end MapScript
