/-
This file proves that the blanks between tokens mean nothing. A line that can be cut consists
of the texts of its tokens in order, with nothing but blanks between and around them, and each
text is of the form of its kind. A text of some form, with a blank or the end of the line behind
it, is cut as a token of that kind, because no form goes on with a blank and none that is tried
earlier fits. So other blanks, one at least between two tokens, give the same tokens.
-/

import MapScript.Proofs.Script.Comments
import MapScript.Proofs.Script.Genuine
import MapScript.Proofs.Script.Printed

namespace MapScript

/-- What no blank code point has, no blank has. -/
theorem Text.of_isBlank (property : Char → Bool) {c : Char} (blank : isBlank c = true)
    (each : ∀ code ∈ blankCodes, property (Char.ofNat code) = false) : property c = false := by
  cases holds : property c with
  | false => rfl
  | true =>
    rw [isBlank_eq_false_of property holds each] at blank
    cases blank

namespace Token

/-! ### Forms -/

/-- The operators, comparisons and steps. -/
def operatorTexts : List (List Char) :=
  Piece.operatorMarks ++ [Step.increment, Step.decrement].map fun change => change.text.toList

/-- The operators and comparisons of one character. -/
def singleMarks : List Char :=
  "-+*/&|^=<>".toList

/-- The texts of a kind of tokens. -/
def Form : TokenKind → List Char → Prop
  | .string, text => ∃ inside, text = '"' :: inside ++ ['"'] ∧ '"' ∉ inside
  | .labelDefinition, text =>
    ∃ digits, text = '#' :: digits ++ [':'] ∧ digits ≠ [] ∧ digits.all Text.isHexDigit = true
  | .label, text => ∃ digits, text = '#' :: digits ∧ digits ≠ [] ∧ digits.all Text.isHexDigit = true
  | .taskPause, text =>
    ∃ digits, text = "<TaskPause(".toList ++ '#' :: digits ++ ")>".toList ∧ digits ≠ [] ∧
      digits.all Text.isHexDigit = true
  | .keyword, text => text = "<Anchor>".toList ∨ text = "<ScriptRv>".toList
  | .name, text => Piece.IsWord text ∨ ∃ plain, text = '@' :: plain ∧ Piece.IsWord plain
  | .number, text => Piece.IsNumeral text
  | .operator, text => text ∈ operatorTexts
  | .leftParenthesis, text => text = ['(']
  | .rightParenthesis, text => text = [')']
  | .comma, text => text = [',']
  | .dot, text => text = ['.']
  | .leftBrace, text => text = ['\x7b']
  | .rightBrace, text => text = ['\x7d']

/-- A text starts with so many characters that have a property. -/
def StartsWith (property : List Char → Prop) (text : List Char) (length : Nat) : Prop :=
  ∃ front rest, text = front ++ rest ∧ length = front.length ∧ property front

theorem StartsWith.imp {one other : List Char → Prop} {text : List Char} {length : Nat}
    (starts : StartsWith one text length) (weaker : ∀ front, one front → other front) :
    StartsWith other text length := by
  obtain ⟨front, rest, split, size, holds⟩ := starts
  exact ⟨front, rest, split, size, weaker front holds⟩

/-- What a text goes on with as long as its characters pass a test. -/
theorem startsWith_takeWhile (test : Char → Bool) (text : List Char) :
    StartsWith (fun front => front = text.takeWhile test) text (text.takeWhile test).length :=
  ⟨_, text.dropWhile test, List.takeWhile_append_dropWhile.symm, rfl, rfl⟩

/-! ### The forms of what is taken -/

section Taken

variable {text : List Char} {length : Nat}

theorem form_stringLength? (found : stringLength? text = some length) :
    StartsWith (Form .string) text length := by
  obtain ⟨inside, rest, rfl, noQuote, rfl⟩ := stringLength?_eq_some found
  exact ⟨'"' :: inside ++ ['"'], rest, by simp, by simp, inside, rfl, noQuote⟩

theorem form_labelLength? (found : labelLength? text = some length) :
    StartsWith (Form .label) text length := by
  unfold labelLength? at found
  split at found
  · rename_i rest
    obtain ⟨digits, more, split, size, same⟩ := startsWith_takeWhile Text.isHexDigit rest
    simp only at found
    split at found
    · cases found
    · rename_i filled
      cases found
      refine ⟨'#' :: digits, more, congrArg ('#' :: ·) split, congrArg (· + 1) size, digits, rfl,
        ?_⟩
      rw [same]
      exact ⟨by simpa using filled, List.all_takeWhile⟩
  · cases found

theorem form_labelDefinitionLength? (found : labelDefinitionLength? text = some length) :
    StartsWith (Form .labelDefinition) text length := by
  unfold labelDefinitionLength? at found
  split at found
  · rename_i size label
    obtain ⟨front, rest, rfl, rfl, digits, rfl, filled, all⟩ := form_labelLength? label
    rw [List.drop_left] at found
    split at found
    · rename_i colon
      cases found
      obtain ⟨more, rfl⟩ := List.head?_eq_some_iff.mp (beq_iff_eq.mp colon)
      exact ⟨'#' :: digits ++ [':'], more, by simp, by simp, digits, rfl, filled, all⟩
    · cases found
  · cases found

theorem form_fixedLength? {expected : List Char}
    (found : fixedLength? expected text = some length) : StartsWith (· = expected) text length := by
  unfold fixedLength? at found
  split at found
  · rename_i fits
    cases found
    obtain ⟨rest, rfl⟩ := List.isPrefixOf_iff_prefix.mp fits
    exact ⟨expected, rest, rfl, rfl, rfl⟩
  · cases found

theorem form_taskPauseLength? (found : taskPauseLength? text = some length) :
    StartsWith (Form .taskPause) text length := by
  unfold taskPauseLength? at found
  split at found
  · rename_i size opened
    obtain ⟨_, rest, rfl, rfl, rfl⟩ := form_fixedLength? opened
    rw [List.drop_left] at found
    split at found
    · rename_i size label
      obtain ⟨_, more, rfl, rfl, digits, rfl, filled, all⟩ := form_labelLength? label
      rw [← List.drop_drop, List.drop_left, List.drop_left] at found
      split at found
      · rename_i closed
        cases found
        obtain ⟨last, rfl⟩ := List.isPrefixOf_iff_prefix.mp closed
        refine ⟨"<TaskPause(".toList ++ '#' :: digits ++ ")>".toList, last, ?_, ?_, digits, rfl,
          filled, all⟩
        · simp only [List.append_assoc]
        · rw [List.length_append, List.length_append]
          rfl
      · cases found
    · cases found
  · cases found

theorem form_keywordLength? (found : keywordLength? text = some length) :
    StartsWith (Form .keyword) text length := by
  rcases orElse_eq_some found with anchor | result
  · exact (form_fixedLength? anchor).imp fun _ => .inl
  · exact (form_fixedLength? result).imp fun _ => .inr

theorem form_wordLength? (found : wordLength? text = some length) :
    StartsWith Piece.IsWord text length := by
  simp only [wordLength?] at found
  split at found
  · rename_i some
    cases found
    refine (startsWith_takeWhile Text.isNameChar text).imp fun front same => ?_
    rw [same]
    exact ⟨List.all_takeWhile, some⟩
  · cases found

/-- A character in front of a form. -/
theorem StartsWith.cons {property : List Char → Prop} (starts : StartsWith property text length)
    (c : Char) : StartsWith (fun front => ∃ plain, front = c :: plain ∧ property plain) (c :: text)
      (length + 1) := by
  obtain ⟨front, rest, rfl, rfl, holds⟩ := starts
  exact ⟨c :: front, rest, rfl, rfl, front, rfl, holds⟩

theorem form_nameLength? (found : nameLength? text = some length) :
    StartsWith (Form .name) text length := by
  unfold nameLength? at found
  split at found
  · obtain ⟨size, word, rfl⟩ := Option.map_eq_some_iff.mp found
    exact ((form_wordLength? word).cons '@').imp fun _ => .inr
  · exact (form_wordLength? found).imp fun _ => .inl

theorem form_digitsLength? (found : digitsLength? text = some length) :
    StartsWith (fun digits => digits ≠ [] ∧ digits.all Text.isDigit = true) text length := by
  simp only [digitsLength?] at found
  split at found
  · cases found
  · rename_i filled
    cases found
    refine (startsWith_takeWhile Text.isDigit text).imp fun front same => ?_
    rw [same]
    exact ⟨by simpa using filled, List.all_takeWhile⟩

theorem form_numberLength? (found : numberLength? text = some length) :
    StartsWith (Form .number) text length := by
  unfold numberLength? at found
  split at found
  · obtain ⟨size, digits, rfl⟩ := Option.map_eq_some_iff.mp found
    refine ((form_digitsLength? digits).cons '-').imp fun front => ?_
    rintro ⟨plain, rfl, holds⟩
    exact ⟨plain, .inr rfl, holds⟩
  · exact (form_digitsLength? found).imp fun front holds => ⟨front, .inl rfl, holds⟩

theorem form_operatorLength? (found : operatorLength? text = some length) :
    StartsWith (Form .operator) text length := by
  have texts : ∀ mark ∈ operatorTexts, Form .operator mark := fun _ member => member
  unfold operatorLength? at found
  split at found
  all_goals first
    | cases found
      exact ⟨[_, _], _, rfl, rfl, texts _ (by decide)⟩
    | skip
  · rename_i c rest _ _ _ _ _ _ _
    split at found
    · rename_i mark
      cases found
      have single : ∀ c ∈ singleMarks, [c] ∈ operatorTexts := forall_mem_of_all (by decide)
      exact ⟨[c], rest, rfl, rfl, single c (List.contains_iff_mem.mp mark)⟩
    · cases found
  · cases found

theorem form_punctuation? {kind : TokenKind} (found : punctuation? text = some kind) :
    StartsWith (Form kind) text 1 := by
  unfold punctuation? at found
  split at found
  all_goals cases found
  all_goals exact ⟨[_], _, rfl, rfl, rfl⟩

/-- What is taken as a token of a kind has the form of that kind. -/
theorem form_munch? {kind : TokenKind} (found : munch? text = some (kind, length)) :
    StartsWith (Form kind) text length := by
  -- Each form but the last one gives its own kind.
  have own {attempt : Option Nat} {plain : TokenKind}
      (found : attempt.map (plain, ·) = some (kind, length))
      (form : ∀ {size}, attempt = some size → StartsWith (Form plain) text size) :
      StartsWith (Form kind) text length := by
    obtain ⟨_, some, same⟩ := Option.map_eq_some_iff.mp found
    cases same
    exact form some
  rcases orElse_eq_some found with string | found
  · exact own string form_stringLength?
  rcases orElse_eq_some found with definition | found
  · exact own definition form_labelDefinitionLength?
  rcases orElse_eq_some found with label | found
  · exact own label form_labelLength?
  rcases orElse_eq_some found with taskPause | found
  · exact own taskPause form_taskPauseLength?
  rcases orElse_eq_some found with keyword | found
  · exact own keyword form_keywordLength?
  rcases orElse_eq_some found with name | found
  · exact own name form_nameLength?
  rcases orElse_eq_some found with number | found
  · exact own number form_numberLength?
  rcases orElse_eq_some found with operator | mark
  · exact own operator form_operatorLength?
  · obtain ⟨_, some, same⟩ := Option.map_eq_some_iff.mp mark
    cases same
    exact form_punctuation? some

end Taken

/-! ### Taking what has a form -/

/-- Nothing follows, or a blank. -/
def Closes (rest : List Char) : Prop :=
  ∀ c ∈ rest.head?, Text.isBlank c = true

/-- The characters that tokens go on with are no blanks. -/
theorem Closes.stops {rest : List Char} (closes : Closes rest) :
    ∀ c ∈ rest.head?, Text.isNameChar c = false ∧ Text.isDigit c = false ∧
      Text.isHexDigit c = false ∧ c ≠ ':' :=
  fun c first =>
    ⟨Text.of_isBlank Text.isNameChar (closes c first) (by decide),
      Text.of_isBlank Text.isDigit (closes c first) (by decide),
      Text.of_isBlank Text.isHexDigit (closes c first) (by decide),
      ne_of_isBlank (closes c first) (by decide)⟩

theorem nameLength?_eq_none {c : Char} (plain : c ≠ '@') (other : Text.isNameChar c = false)
    (rest : List Char) : nameLength? (c :: rest) = none := by
  have word : wordLength? (c :: rest) = none := by
    rw [wordLength?, List.takeWhile_cons, other]
    rfl
  rw [nameLength?]
  · exact word
  · intro more same
    cases same
    exact plain rfl

theorem numberLength?_eq_none {c : Char} {rest : List Char} (other : Text.isDigit c = false)
    (unsigned : c = '-' → ∀ d ∈ rest.head?, Text.isDigit d = false) :
    numberLength? (c :: rest) = none := by
  have digits {text : List Char} (stops : ∀ d ∈ text.head?, Text.isDigit d = false) :
      digitsLength? text = none := by
    cases text with
    | nil => rfl
    | cons d text =>
      rw [digitsLength?, List.takeWhile_cons, stops d rfl]
      rfl
  unfold numberLength?
  split
  · rename_i more same
    cases same
    rw [digits (unsigned rfl)]
    rfl
  · refine digits fun d first => ?_
    cases first
    exact other

theorem operatorLength?_single {c blank : Char} (mark : c ∈ singleMarks)
    (isBlank : Text.isBlank blank = true) (rest : List Char) :
    operatorLength? (c :: blank :: rest) = some 1 := by
  unfold operatorLength?
  split
  case h_8 same =>
    cases same
    exact if_pos (List.contains_iff_mem.mpr mark)
  case h_9 same => cases same
  all_goals
    rename_i same
    cases same
    exact absurd isBlank (by decide)

/-- A single mark is cut by itself if it cannot go on. -/
theorem munch?_single {c : Char} (mark : c ∈ singleMarks) {rest : List Char}
    (closes : Closes rest) : munch? (c :: rest) = some (.operator, 1) := by
  cases rest with
  | nil =>
    have alone : ∀ c ∈ singleMarks, munch? [c] = some (.operator, 1) :=
      forall_mem_of_all (by decide)
    exact alone c mark
  | cons blank rest =>
    have isBlank : Text.isBlank blank = true := closes blank rfl
    have operator := operatorLength?_single mark isBlank rest
    by_cases bracket : c = '<'
    · subst bracket
      -- What stands in brackets starts with a letter.
      have fixed {letter : Char} (full : Text.isBlank letter = false) (more : List Char) :
          fixedLength? ('<' :: letter :: more) ('<' :: blank :: rest) = none := by
        rw [fixedLength?, List.isPrefixOf, List.isPrefixOf,
          beq_eq_false_iff_ne.mpr (Ne.symm (ne_of_isBlank isBlank full)), Bool.false_and,
          Bool.and_false]
        rfl
      have pause : taskPauseLength? ('<' :: blank :: rest) = none := by
        rw [taskPauseLength?, show "<TaskPause(".toList = '<' :: 'T' :: "askPause(".toList from rfl,
          fixed (by decide)]
      have keyword : keywordLength? ('<' :: blank :: rest) = none := by
        rw [keywordLength?, show "<Anchor>".toList = '<' :: 'A' :: "nchor>".toList from rfl,
          show "<ScriptRv>".toList = '<' :: 'S' :: "criptRv>".toList from rfl, fixed (by decide),
          fixed (by decide)]
        rfl
      rw [munch?, pause, keyword, operator]
      rfl
    · have heads : ∀ c ∈ singleMarks, c ≠ '"' ∧ c ≠ '#' ∧ c ≠ '@' ∧ Text.isNameChar c = false ∧
          Text.isDigit c = false := forall_mem_of_all (by decide)
      obtain ⟨noQuote, noHash, plain, noName, noDigit⟩ := heads c mark
      rw [munch?_of_head noQuote noHash bracket, nameLength?_eq_none plain noName,
        numberLength?_eq_none noDigit fun _ d first => (closes.stops d first).2.1, operator]
      rfl

/-- No token starts with a blank. -/
theorem munch?_blank {c : Char} (blank : Text.isBlank c = true) (rest : List Char) :
    munch? (c :: rest) = none := by
  have other {mark : Char} (full : Text.isBlank mark = false) : c ≠ mark := ne_of_isBlank blank full
  have operator : operatorLength? (c :: rest) = none := by
    unfold operatorLength?
    split
    case h_8 same =>
      cases same
      have marks : ∀ c ∈ singleMarks, Text.isBlank c = false := forall_mem_of_all (by decide)
      refine if_neg fun mark => ?_
      rw [marks c (List.contains_iff_mem.mp mark)] at blank
      cases blank
    case h_9 => rfl
    all_goals
      rename_i same
      cases same
      exact absurd blank (by decide)
  have punctuation : punctuation? (c :: rest) = none := by
    unfold punctuation?
    split
    case h_7 => rfl
    all_goals
      rename_i same
      cases same
      exact absurd blank (by decide)
  rw [munch?_of_head (other (by decide)) (other (by decide)) (other (by decide)),
    nameLength?_eq_none (other (by decide)) (Text.of_isBlank Text.isNameChar blank (by decide)),
    numberLength?_eq_none (Text.of_isBlank Text.isDigit blank (by decide))
      fun sign => absurd sign (other (by decide)), operator, punctuation]
  rfl

/-- A text that has the form of a kind is taken as a token of that kind, if nothing but blanks
can follow it. -/
theorem munch?_form {kind : TokenKind} {text rest : List Char} (form : Form kind text)
    (closes : Closes rest) : munch? (text ++ rest) = some (kind, text.length) := by
  cases kind with
  | string =>
    obtain ⟨inside, rfl, absent⟩ := form
    exact munch?_quoted absent rest
  | labelDefinition =>
    obtain ⟨digits, rfl, filled, all⟩ := form
    exact munch?_definition filled all rest
  | label =>
    obtain ⟨digits, rfl, filled, all⟩ := form
    exact munch?_label filled all fun c first => (closes.stops c first).2.2
  | taskPause =>
    obtain ⟨digits, rfl, filled, all⟩ := form
    exact munch?_taskPause filled all rest
  | keyword => rcases form with rfl | rfl <;> rfl
  | name =>
    have sound : (Piece.word text).Sound Piece.noSymbols := form
    exact munch?_word sound fun c first => (closes.stops c first).1
  | number =>
    exact munch?_numeral form fun c first =>
      ⟨(closes.stops c first).1, (closes.stops c first).2.1⟩
  | operator =>
    have forms : ∀ mark ∈ operatorTexts, mark ∈ singleMarks.map (fun c => [c]) ∨
        mark ∈ ["<<", ">>", "!=", "<=", ">=", "++", "--"].map String.toList :=
      forall_mem_of_all (by decide)
    rcases forms text form with single | pair
    · obtain ⟨c, mark, rfl⟩ := List.mem_map.mp single
      exact munch?_single mark closes
    · simp only [List.map_cons, List.map_nil, List.mem_cons, List.not_mem_nil, or_false] at pair
      rcases pair with rfl | rfl | rfl | rfl | rfl | rfl | rfl <;> rfl
  | leftParenthesis | rightParenthesis | comma | dot | leftBrace | rightBrace =>
    cases form
    rfl

/-! ### Lines -/

/-- Whether a text is made of blanks. -/
def IsGap (text : List Char) : Prop :=
  ∀ c ∈ text, Text.isBlank c = true

instance (text : List Char) : Decidable (IsGap text) :=
  decidable_of_iff (text.all Text.isBlank = true) List.all_eq_true

/-- A line of tokens, with something in front and something behind each. -/
def spaced (lead : List Char) (pairs : List (Token × List Char)) : List Char :=
  lead ++ pairs.flatMap fun (token, gap) => token.text.toList ++ gap

theorem spaced_cons (lead : List Char) (token : Token) (gap : List Char)
    (pairs : List (Token × List Char)) :
    spaced lead ((token, gap) :: pairs) = lead ++ (token.text.toList ++ spaced gap pairs) := by
  rw [spaced, List.flatMap_cons, List.append_assoc, spaced]

/-- Blanks in front are passed over. -/
theorem cutFrom_blanks {lead : List Char} (blanks : IsGap lead) (rest : List Char) :
    cutFrom (lead ++ rest) 0 = cutFrom rest 0 := by
  induction lead with
  | nil => rfl
  | cons c lead inductionHypothesis =>
    have blank := blanks c List.mem_cons_self
    rw [List.cons_append, cutFrom, munch?_blank blank]
    simp only [blank, if_true]
    exact inductionHypothesis fun other member => blanks other (List.mem_cons_of_mem _ member)

theorem Form.ne_nil {kind : TokenKind} {text : List Char} (form : Form kind text) : text ≠ [] := by
  rintro rfl
  cases kind with
  | string | labelDefinition | label =>
    obtain ⟨_, same, -⟩ := form
    cases same
  | taskPause =>
    obtain ⟨_, same, -⟩ := form
    simp at same
  | keyword => rcases form with same | same <;> simp at same
  | name =>
    rcases form with word | ⟨_, same, -⟩
    · cases word.2
    · cases same
  | number =>
    obtain ⟨_, rfl | same, filled, -⟩ := form
    · exact filled rfl
    · cases same
  | operator =>
    have filled : [] ∉ operatorTexts := by decide
    exact filled form
  | leftParenthesis | rightParenthesis | comma | dot | leftBrace | rightBrace => cases form

/-- A line that can be cut consists of its tokens, each of the form of its kind, and of blanks
between and around them. -/
theorem exists_spaced {line : List Char} {tokens : List Token}
    (done : cutFrom line 0 = .ok tokens) :
    (∀ token ∈ tokens, Form token.kind token.text.toList) ∧
      ∃ lead pairs, pairs.map Prod.fst = tokens ∧ IsGap lead ∧ (∀ pair ∈ pairs, IsGap pair.2) ∧
        line = spaced lead pairs := by
  obtain ⟨size, length⟩ : ∃ size, line.length = size := ⟨_, rfl⟩
  induction size using Nat.strongRecOn generalizing line tokens with
  | ind size inductionHypothesis =>
    cases line with
    | nil =>
      cases done
      exact ⟨List.forall_mem_nil _, [], [], rfl, List.forall_mem_nil _, List.forall_mem_nil _, rfl⟩
    | cons c rest =>
      cases found : munch? (c :: rest) with
      | some munched =>
        obtain ⟨kind, taken⟩ := munched
        obtain ⟨front, back, split, rfl, form⟩ := form_munch? found
        rw [split] at done found length ⊢
        rw [cutFrom_munch form.ne_nil found, map_eq_pure_bind] at done
        obtain ⟨others, othersOk, whole⟩ := bind_eq_ok.mp done
        cases whole
        have filled := List.length_pos_iff.mpr form.ne_nil
        rw [List.length_append] at length
        obtain ⟨forms, lead, pairs, rfl, blanks, gaps, rfl⟩ :=
          inductionHypothesis back.length (by omega) othersOk rfl
        refine ⟨List.forall_mem_cons.mpr ⟨?_, forms⟩, [],
          (⟨kind, String.ofList front⟩, lead) :: pairs, rfl, List.forall_mem_nil _,
          List.forall_mem_cons.mpr ⟨blanks, gaps⟩, ?_⟩
        · rw [String.toList_ofList]
          exact form
        · rw [spaced_cons, String.toList_ofList]
          rfl
      | none =>
        rw [cutFrom, found] at done
        simp only at done
        split at done
        · rename_i blank
          rw [List.length_cons] at length
          obtain ⟨forms, lead, pairs, same, blanks, gaps, rfl⟩ :=
            inductionHypothesis rest.length (by omega) done rfl
          exact ⟨forms, c :: lead, pairs, same, List.forall_mem_cons.mpr ⟨blank, blanks⟩, gaps, rfl⟩
        · cases done

/-- Tokens that have the forms of their kinds are cut out of any line that has blanks around them
and at least one between two of them. -/
theorem cutFrom_spaced {lead : List Char} {pairs : List (Token × List Char)}
    (forms : ∀ pair ∈ pairs, Form pair.1.kind pair.1.text.toList) (blanks : IsGap lead)
    (gaps : ∀ pair ∈ pairs, IsGap pair.2) (apart : ∀ pair ∈ pairs.dropLast, pair.2 ≠ []) :
    cutFrom (spaced lead pairs) 0 = .ok (pairs.map Prod.fst) := by
  induction pairs generalizing lead with
  | nil =>
    rw [spaced, cutFrom_blanks blanks]
    rfl
  | cons pair rest inductionHypothesis =>
    obtain ⟨token, gap⟩ := pair
    obtain ⟨form, forms⟩ := List.forall_mem_cons.mp forms
    obtain ⟨isGap, gaps⟩ := List.forall_mem_cons.mp gaps
    -- Behind a token stands a blank, or it is the last one and nothing stands there.
    have closes : Closes (spaced gap rest) := by
      cases gap with
      | cons blank gap =>
        intro c first
        cases first
        exact isGap _ List.mem_cons_self
      | nil =>
        cases rest with
        | nil => exact fun c none => by cases none
        | cons next others => exact absurd rfl (apart _ List.mem_cons_self)
    have others := inductionHypothesis forms isGap gaps fun other member => by
      cases rest with
      | nil => cases member
      | cons next others => exact apart other (List.mem_cons_of_mem _ member)
    rw [spaced_cons, cutFrom_blanks blanks, cutFrom_munch form.ne_nil (munch?_form form closes),
      others, String.ofList_toList]
    rfl

/-- A line that can be cut is the texts of its tokens in order, with only blanks between and
around them; and with any other blanks around them, one at least between two tokens, they are the
tokens of the line again. -/
theorem cut_respaced {line : List Char} {tokens : List Token} (done : cut line = .ok tokens) :
    (∃ lead pairs, pairs.map Prod.fst = tokens ∧ IsGap lead ∧ (∀ pair ∈ pairs, IsGap pair.2) ∧
      line = spaced lead pairs) ∧
    ∀ lead pairs, pairs.map Prod.fst = tokens → IsGap lead → (∀ pair ∈ pairs, IsGap pair.2) →
      (∀ pair ∈ pairs.dropLast, pair.2 ≠ []) → cut (spaced lead pairs) = .ok tokens := by
  obtain ⟨forms, written⟩ := exists_spaced done
  refine ⟨written, fun lead pairs same blanks gaps apart => ?_⟩
  subst same
  exact cutFrom_spaced (fun pair member => forms pair.1 (List.mem_map_of_mem member)) blanks gaps
    apart

/-- A line in which tokens stand close together. -/
def closeLine : List Char :=
  "a-5\"x  y\"<Anchor>--#1F:7".toList

/-- The tokens of the line, with blanks of several sorts behind them. -/
def looseTokens : List (Token × List Char) :=
  [(⟨.name, "a"⟩, [' ']), (⟨.number, "-5"⟩, ['\n']), (⟨.string, "\"x  y\""⟩, [' ', '\t']),
    (⟨.keyword, "<Anchor>"⟩, [' ']), (⟨.operator, "--"⟩, ['\t']),
    (⟨.labelDefinition, "#1F:"⟩, [' ']), (⟨.number, "7"⟩, [])]

/-- The line and the one with blanks are cut alike. -/
theorem cut_respaced_close :
    cut closeLine = .ok (looseTokens.map Prod.fst) ∧
      spaced ['\t'] looseTokens = "\ta -5\n\"x  y\" \t<Anchor> --\t#1F: 7".toList ∧
      cut (spaced ['\t'] looseTokens) = .ok (looseTokens.map Prod.fst) := by
  have done : cut closeLine = .ok (looseTokens.map Prod.fst) := rfl
  exact ⟨done, by decide,
    (cut_respaced done).2 ['\t'] looseTokens rfl (forall_mem_of_all (by decide))
      (forall_mem_of_all (by decide)) (forall_mem_of_all (by decide))⟩

end Token

end MapScript
