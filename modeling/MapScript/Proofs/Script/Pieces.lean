/-
This file describes the lines of a listing piece by piece and follows the pieces through
the cleaning of lines. Only three kinds of pieces change on the way: the blank behind a
comma goes, a step gets a blank in front of it, and a name in brackets gives way to its
number. All else, above all quoted text, comes out as it went in.
-/

import MapScript.Proofs.Attempt
import MapScript.Proofs.Text.Characters
import MapScript.Script.Cleaning
import MapScript.Script.Syntax
import MapScript.Text.Numeral

namespace MapScript

/-! ### Pieces -/

/-- A piece of a line as listings write it. -/
inductive Piece where
  | word (written : List Char)
  | numeral (written : List Char)
  | named (name : List Char) (value : Int)
  | quoted (inside : List Char)
  | opening
  | closing
  | comma
  | dot
  | gap
  | operator (written : List Char)
  | step (change : Step)
  | label (digits : List Char)
  | definition (digits : List Char)
  | bracketed (name : List Char)
  | equals

namespace Piece

/-- How a listing writes a piece. -/
def raw : Piece → List Char
  | word written => written
  | numeral written => written
  | named name _ => '<' :: name ++ ['>']
  | quoted inside => '"' :: inside ++ ['"']
  | opening => ['(']
  | closing => [')']
  | comma => [',', ' ']
  | dot => ['.']
  | gap => [' ']
  | operator written => ' ' :: written ++ [' ']
  | step change => change.text.toList
  | label digits => '#' :: digits
  | definition digits => '#' :: digits ++ [':']
  | bracketed name => '<' :: name ++ ['>']
  | equals => ['=']

/-- A piece when blanks behind commas are gone. -/
def tight : Piece → List Char
  | comma => [',']
  | other => other.raw

/-- A piece when steps have blanks in front of them. -/
def spaced : Piece → List Char
  | step change => ' ' :: change.text.toList
  | other => other.tight

/-- A piece when names in brackets have given way to numbers. -/
def clean : Piece → List Char
  | named _ value => Text.integer value
  | other => other.spaced

/-- Pieces one after the other. -/
def line (write : Piece → List Char) (pieces : List Piece) : List Char :=
  pieces.flatMap write

@[simp] theorem line_nil (write : Piece → List Char) : line write [] = [] := rfl

@[simp] theorem line_cons (write : Piece → List Char) (first : Piece) (rest : List Piece) :
    line write (first :: rest) = write first ++ line write rest := rfl

@[simp] theorem line_append (write : Piece → List Char) (front back : List Piece) :
    line write (front ++ back) = line write front ++ line write back :=
  List.flatMap_append

/-! ### What pieces are made of -/

/-- A word: plain letters, digits and underscores, not all of them digits. -/
def IsWord (written : List Char) : Prop :=
  written.all Text.isNameChar = true ∧ (written.any fun c => !c.isDigit) = true

/-- A numeral: digits, perhaps after a minus sign. -/
def IsNumeral (written : List Char) : Prop :=
  ∃ digits, (written = digits ∨ written = '-' :: digits) ∧ digits ≠ [] ∧
    digits.all Text.isDigit = true

/-- A name that can stand in brackets: nothing in it is changed or cut off on the way. -/
structure IsName (name : List Char) : Prop where
  unbroken : ∀ c ∈ name, Text.isLineBreak c = false
  unmarked : ∀ c ∈ name, c ≠ '"' ∧ c ≠ '<' ∧ c ≠ '>'
  noComment : ¬['/', '/'] <:+: name
  noIncrement : ¬['+', '+'] <:+: name
  noDecrement : ¬['-', '-'] <:+: name
  tight : ∀ c, Text.isBlank c = true → ¬[',', c] <:+: name
  startsFull : ∀ c ∈ name.head?, Text.isBlank c = false ∧ c ≠ '='
  endsFull : ∀ c ∈ name.getLast?, Text.isBlank c = false
  unreserved : isReservedName name = false

/-- Letters, digits, underscores and spaces inside make a name that can stand in
brackets. -/
theorem isName_of_plain {name : List Char}
    (plain : (name.all fun c => Text.isNameChar c || c == ' ') = true)
    (startsFull : name.head?.all Text.isNameChar = true)
    (endsFull : name.getLast?.all Text.isNameChar = true)
    (unreserved : isReservedName name = false) : IsName name := by
  have starts (c : Char) (first : c ∈ name.head?) : Text.isNameChar c = true := by
    rw [Option.mem_def.mp first] at startsFull
    exact startsFull
  have ends (c : Char) (last : c ∈ name.getLast?) : Text.isNameChar c = true := by
    rw [Option.mem_def.mp last] at endsFull
    exact endsFull
  have absent (mark : Char) (other : (Text.isNameChar mark || mark == ' ') = false) :
      mark ∉ name := by
    intro member
    rw [List.all_eq_true.mp plain mark member] at other
    cases other
  have noPair (mark next : Char) (other : (Text.isNameChar mark || mark == ' ') = false) :
      ¬[mark, next] <:+: name :=
    fun there => absent mark other (there.subset List.mem_cons_self)
  refine {
    unbroken := fun c member => ?_
    unmarked := fun c member => ⟨?_, ?_, ?_⟩
    noComment := noPair _ _ (by decide)
    noIncrement := noPair _ _ (by decide)
    noDecrement := noPair _ _ (by decide)
    tight := fun c _ => noPair _ _ (by decide)
    startsFull := fun c first => ⟨Text.isBlank_of_isNameChar (starts c first), ?_⟩
    endsFull := fun c last => Text.isBlank_of_isNameChar (ends c last)
    unreserved := unreserved }
  · rcases Bool.or_eq_true_iff.mp (List.all_eq_true.mp plain c member) with letter | space
    · exact Text.isLineBreak_of_isBlank (Text.isBlank_of_isNameChar letter)
    · cases beq_iff_eq.mp space
      rfl
  all_goals rintro rfl
  · exact absent _ (by decide) member
  · exact absent _ (by decide) member
  · exact absent _ (by decide) member
  · exact absurd (starts _ first) (by decide)

/-- The marks of operators and comparisons. -/
def operatorMarks : List (List Char) :=
  ["+", "-", "/", "*", "<<", ">>", "&", "|", "^", "=", "!=", "<", ">", "<=", ">="].map String.toList

/-- Pieces are what their kinds say they are. -/
def Sound (symbols : Symbols) : Piece → Prop
  | word written => IsWord written ∨ ∃ plain, written = '@' :: plain ∧ IsWord plain
  | numeral written => IsNumeral written
  | named name value =>
    IsName name ∧ name ≠ [] ∧ nameNumber symbols name = .ok (Text.integer value)
  | quoted inside => '"' ∉ inside ∧ ∀ c ∈ inside, Text.isLineBreak c = false
  | operator written => written ∈ operatorMarks
  | label digits => digits ≠ [] ∧ digits.all Text.isHexDigit = true
  | definition digits => digits ≠ [] ∧ digits.all Text.isHexDigit = true
  | bracketed name =>
    name = "Anchor".toList ∨ name = "ScriptRv".toList ∨ ∃ digits, digits ≠ [] ∧
      digits.all Text.isHexDigit = true ∧ name = "TaskPause(#".toList ++ digits ++ [')']
  | _ => True

/-- What may stand behind a piece: something that does not run into a word, a numeral or
a label, and something that starts a value behind a comma. -/
def follows : Piece → Piece → Prop
  | word _, next | numeral _, next | named .., next | label _, next =>
    match next with
    | opening | closing | comma | dot | gap | operator _ | step _ => True
    | _ => False
  | comma, next =>
    match next with
    | word _ | numeral _ | named .. | quoted _ => True
    | _ => False
  | _, _ => True

/-! ### Single characters -/

theorem beforeSlashes?_cons {c : Char} {rest : List Char}
    (other : ¬(c = '/' ∧ rest.head? = some '/')) :
    beforeSlashes? (c :: rest) = (beforeSlashes? rest).map (c :: ·) := by
  rw [beforeSlashes?]
  intro more isSlash same
  exact other ⟨isSlash, same ▸ rfl⟩

theorem tightenFrom_cons {c : Char} {rest : List Char}
    (other : c = ',' → ∀ next ∈ rest.head?, Text.isBlank next = false) :
    tightenFrom false (c :: rest) = c :: tightenFrom false rest := by
  rw [tightenFrom]
  by_cases isComma : c = ','
  · rw [beq_iff_eq.mpr isComma]
    cases rest with
    | nil => rfl
    | cons next rest =>
      rw [tightenFrom, tightenFrom, other isComma next rfl]
      rfl
  · rw [beq_eq_false_iff_ne.mpr isComma]

theorem spaceSteps_cons {c : Char} {rest : List Char}
    (noIncrement : ¬(c = '+' ∧ rest.head? = some '+'))
    (noDecrement : ¬(c = '-' ∧ rest.head? = some '-')) :
    spaceSteps (c :: rest) = c :: spaceSteps rest := by
  rw [spaceSteps]
  · intro more isPlus same
    exact noIncrement ⟨isPlus, same ▸ rfl⟩
  · intro more isMinus same
    exact noDecrement ⟨isMinus, same ▸ rfl⟩

theorem replaceNames_cons {c : Char} {rest : List Char}
    (other : c = '<' → bracketName? rest = none) (symbols : Symbols) :
    replaceNames symbols (c :: rest) 0 = (c :: ·) <$> replaceNames symbols rest 0 := by
  rw [replaceNames]
  by_cases opens : c = '<'
  · rw [beq_iff_eq.mpr opens, if_pos rfl, other opens]
    rfl
  · rw [beq_eq_false_iff_ne.mpr opens]
    rfl

/-! ### Plain characters -/

theorem beforeSlashes?_append {text : List Char} (plain : '/' ∉ text) (rest : List Char) :
    beforeSlashes? (text ++ rest) = (beforeSlashes? rest).map (text ++ ·) := by
  induction text with
  | nil => exact Option.map_id'.symm
  | cons c text inductionHypothesis =>
    have other := List.ne_of_not_mem_cons plain
    rw [List.cons_append, beforeSlashes?_cons fun both => other both.1.symm,
      inductionHypothesis (List.not_mem_of_not_mem_cons plain), Option.map_map]
    rfl

theorem tightenFrom_append {text : List Char} (plain : ',' ∉ text) (rest : List Char) :
    tightenFrom false (text ++ rest) = text ++ tightenFrom false rest := by
  induction text with
  | nil => rfl
  | cons c text inductionHypothesis =>
    have other := List.ne_of_not_mem_cons plain
    rw [List.cons_append, tightenFrom_cons fun same => absurd same.symm other,
      inductionHypothesis (List.not_mem_of_not_mem_cons plain)]
    rfl

theorem spaceSteps_append {text : List Char} (noPlus : '+' ∉ text) (noMinus : '-' ∉ text)
    (rest : List Char) : spaceSteps (text ++ rest) = text ++ spaceSteps rest := by
  induction text with
  | nil => rfl
  | cons c text inductionHypothesis =>
    have notPlus := List.ne_of_not_mem_cons noPlus
    have notMinus := List.ne_of_not_mem_cons noMinus
    rw [List.cons_append, spaceSteps_cons (fun both => notPlus both.1.symm)
      (fun both => notMinus both.1.symm), inductionHypothesis
      (List.not_mem_of_not_mem_cons noPlus) (List.not_mem_of_not_mem_cons noMinus)]
    rfl

theorem replaceNames_append {text : List Char} (plain : '<' ∉ text) (symbols : Symbols)
    (rest : List Char) :
    replaceNames symbols (text ++ rest) 0 = (text ++ ·) <$> replaceNames symbols rest 0 := by
  induction text with
  | nil => exact (id_map (replaceNames symbols rest 0)).symm
  | cons c text inductionHypothesis =>
    have other := List.ne_of_not_mem_cons plain
    rw [List.cons_append, replaceNames_cons (fun same => absurd same.symm other),
      inductionHypothesis (List.not_mem_of_not_mem_cons plain), ← comp_map]
    rfl

/-! ### Names in brackets -/

theorem not_infix_tail {a b c : Char} {name : List Char} (absent : ¬[a, b] <:+: c :: name) :
    ¬[a, b] <:+: name :=
  fun there => absent (there.trans (List.suffix_cons c name).isInfix)

/-- Two characters that never stand together do not do so at the end of a name either. -/
theorem not_pair_of_absent {a b c : Char} {name rest : List Char}
    (absent : ¬[a, b] <:+: c :: name) (closed : '>' ≠ b) :
    ¬(c = a ∧ (name ++ '>' :: rest).head? = some b) := by
  rintro ⟨rfl, next⟩
  cases name with
  | nil => exact closed (Option.some.inj next)
  | cons d name =>
    cases Option.some.inj next
    exact absent (List.prefix_append [c, b] name).isInfix

theorem beforeSlashes?_name {name : List Char} (legible : IsName name) (rest : List Char) :
    beforeSlashes? (name ++ '>' :: rest) = (beforeSlashes? rest).map (name ++ '>' :: ·) := by
  have absent := legible.noComment
  clear legible
  induction name with
  | nil => exact beforeSlashes?_cons fun both => absurd both.1 (by decide)
  | cons c name inductionHypothesis =>
    rw [List.cons_append, beforeSlashes?_cons (not_pair_of_absent absent (by decide)),
      inductionHypothesis (not_infix_tail absent), Option.map_map]
    rfl

theorem tightenFrom_name {name : List Char} (legible : IsName name) (rest : List Char) :
    tightenFrom false (name ++ '>' :: rest) = name ++ '>' :: tightenFrom false rest := by
  have absent := legible.tight
  clear legible
  induction name with
  | nil => exact tightenFrom_cons fun same => absurd same (by decide)
  | cons c name inductionHypothesis =>
    rw [List.cons_append, tightenFrom_cons, inductionHypothesis]
    · rfl
    · exact fun blank isBlank => not_infix_tail (absent blank isBlank)
    · intro isComma next there
      cases blank : Text.isBlank next with
      | false => rfl
      | true =>
        have closed : '>' ≠ next := by
          rintro rfl
          exact absurd blank (by decide)
        exact absurd ⟨isComma, there⟩ (not_pair_of_absent (absent next blank) closed)

theorem spaceSteps_name {name : List Char} (legible : IsName name) (rest : List Char) :
    spaceSteps (name ++ '>' :: rest) = name ++ '>' :: spaceSteps rest := by
  have noIncrement := legible.noIncrement
  have noDecrement := legible.noDecrement
  clear legible
  induction name with
  | nil =>
    exact spaceSteps_cons (fun both => absurd both.1 (by decide))
      (fun both => absurd both.1 (by decide))
  | cons c name inductionHypothesis =>
    rw [List.cons_append, spaceSteps_cons (not_pair_of_absent noIncrement (by decide))
      (not_pair_of_absent noDecrement (by decide)), inductionHypothesis
      (not_infix_tail noIncrement) (not_infix_tail noDecrement)]
    rfl

/-- The characters of a name that were looked at already are passed over. -/
theorem replaceNames_skip (symbols : Symbols) (passed rest : List Char) :
    replaceNames symbols (passed ++ rest) passed.length = replaceNames symbols rest 0 := by
  induction passed with
  | nil => rfl
  | cons c passed inductionHypothesis => exact inductionHypothesis

theorem bracketName?_eq_some {name : List Char} (filled : name ≠ [])
    (unmarked : ∀ c ∈ name, c ≠ '<' ∧ c ≠ '>')
    (startsFull : ∀ c ∈ name.head?, Text.isBlank c = false ∧ c ≠ '=')
    (endsFull : ∀ c ∈ name.getLast?, Text.isBlank c = false) (rest : List Char) :
    bracketName? (name ++ '>' :: rest) = some name := by
  have taken : (name ++ '>' :: rest).takeWhile (fun c => c != '<' && c != '>') = name := by
    rw [List.takeWhile_append_of_pos]
    · simp
    · intro c member
      simp [unmarked c member]
  have first : name.head? = some (name.head filled) := List.head?_eq_some_head filled
  have last : name.getLast? = some (name.getLast filled) := List.getLast?_eq_some_getLast filled
  have starts := startsFull _ first
  have ends := endsFull _ last
  unfold bracketName?
  simp [taken, first, last, starts.1, starts.2, ends]

/-- A name in brackets gives way to what it stands for. -/
theorem replaceNames_bracket {symbols : Symbols} {name number : List Char} (filled : name ≠ [])
    (unmarked : ∀ c ∈ name, c ≠ '<' ∧ c ≠ '>')
    (startsFull : ∀ c ∈ name.head?, Text.isBlank c = false ∧ c ≠ '=')
    (endsFull : ∀ c ∈ name.getLast?, Text.isBlank c = false)
    (known : nameNumber symbols name = .ok number) (rest : List Char) :
    replaceNames symbols ('<' :: name ++ '>' :: rest) 0 =
      (number ++ ·) <$> replaceNames symbols rest 0 := by
  have skipped := replaceNames_skip symbols (name ++ ['>']) rest
  rw [List.length_append, List.append_assoc] at skipped
  rw [List.cons_append, replaceNames, if_pos (by decide),
    bracketName?_eq_some filled unmarked startsFull endsFull]
  show (nameNumber symbols name >>= fun number =>
    replaceNames symbols (name ++ (['>'] ++ rest)) (name.length + ['>'].length) >>= fun tail =>
      pure (number ++ tail)) = _
  rw [known, skipped, ok_bind, map_eq_pure_bind]

/-! ### Passing over pieces -/

/-- Characters that stand in pieces of which nothing is changed. -/
def isPlain (c : Char) : Bool :=
  Text.isNameChar c || Text.isDigit c || Text.isHexDigit c || "@().#:= ".toList.contains c

/-- Whether a piece is changed on the way, or holds marks that could be. -/
def isSpecial : Piece → Bool
  | numeral _ | named .. | quoted _ | comma | operator _ | step _ | bracketed _ => true
  | _ => false

theorem plain_of_nameChar {c : Char} (nameChar : Text.isNameChar c = true) : isPlain c = true := by
  simp [isPlain, nameChar]

theorem plain_of_hexDigit {c : Char} (digit : Text.isHexDigit c = true) : isPlain c = true := by
  simp [isPlain, digit]

theorem isPlain_raw {symbols : Symbols} {piece : Piece} (sound : piece.Sound symbols)
    (ordinary : piece.isSpecial = false) : ∀ c ∈ piece.raw, isPlain c = true := by
  intro c member
  cases piece with
  | word written =>
    rcases sound with plain | ⟨plain, rfl, isWord⟩
    · exact plain_of_nameChar (List.all_eq_true.mp plain.1 c member)
    · rcases List.mem_cons.mp member with rfl | inside
      · decide
      · exact plain_of_nameChar (List.all_eq_true.mp isWord.1 c inside)
  | label digits =>
    rcases List.mem_cons.mp member with rfl | inside
    · decide
    · exact plain_of_hexDigit (List.all_eq_true.mp sound.2 c inside)
  | definition digits =>
    rcases List.mem_append.mp member with front | back
    · rcases List.mem_cons.mp front with rfl | inside
      · decide
      · exact plain_of_hexDigit (List.all_eq_true.mp sound.2 c inside)
    · cases List.mem_singleton.mp back
      decide
  | opening | closing | dot | gap | equals =>
    cases List.mem_singleton.mp member
    decide
  | numeral written | named name value | quoted inside | comma | operator written | step change
  | bracketed name => cases ordinary

/-- Marks that are not plain do not stand in pieces of which nothing is changed. -/
theorem not_mem_raw {symbols : Symbols} {piece : Piece} (sound : piece.Sound symbols)
    (ordinary : piece.isSpecial = false) {c : Char} (special : isPlain c = false) :
    c ∉ piece.raw := by
  intro member
  rw [isPlain_raw sound ordinary c member] at special
  cases special

theorem not_mem_numeral {written : List Char} (numeral : IsNumeral written) {c : Char}
    (special : Text.isDigit c = false) (notMinus : c ≠ '-') : c ∉ written := by
  intro member
  obtain ⟨digits, rfl | rfl, -, all⟩ := numeral
  · rw [List.all_eq_true.mp all c member] at special
    cases special
  · rcases List.mem_cons.mp member with same | inside
    · exact notMinus same
    · rw [List.all_eq_true.mp all c inside] at special
      cases special

/-- The marks of the language are reserved and made of letters, digits and few others. -/
theorem bracketed_cases {symbols : Symbols} {name : List Char}
    (sound : (bracketed name).Sound symbols) :
    isReservedName name = true ∧
      name.all (fun c => Text.isHexDigit c || c.isAlpha || "(#)".toList.contains c) = true := by
  rcases sound with rfl | rfl | ⟨digits, -, all, rfl⟩
  · decide
  · decide
  · constructor
    · rfl
    · have inside : digits.all
          (fun c => Text.isHexDigit c || c.isAlpha || "(#)".toList.contains c) = true := by
        refine List.all_eq_true.mpr fun c member => ?_
        rw [List.all_eq_true.mp all c member]
        rfl
      rw [List.all_append, List.all_append, inside]
      rfl

theorem not_mem_bracketed {symbols : Symbols} {name : List Char}
    (sound : (bracketed name).Sound symbols) {c : Char}
    (special : (Text.isHexDigit c || c.isAlpha || "(#)".toList.contains c) = false)
    (notOpen : c ≠ '<') (notClose : c ≠ '>') : c ∉ (bracketed name).raw := by
  intro member
  rcases List.mem_append.mp member with front | back
  · rcases List.mem_cons.mp front with same | inside
    · exact notOpen same
    · rw [List.all_eq_true.mp (bracketed_cases sound).2 c inside] at special
      cases special
  · exact notClose (List.mem_singleton.mp back)

theorem step_raw (change : Step) :
    change.text.toList = ['+', '+'] ∨ change.text.toList = ['-', '-'] := by
  cases change with
  | increment => exact Or.inl rfl
  | decrement => exact Or.inr rfl

section Passing

variable {symbols : Symbols} {piece : Piece}

theorem beforeSlashes?_raw (sound : piece.Sound symbols) (plain : ∀ inside, piece ≠ .quoted inside)
    (rest : List Char) :
    beforeSlashes? (piece.raw ++ rest) = (beforeSlashes? rest).map (piece.raw ++ ·) := by
  cases ordinary : piece.isSpecial with
  | false => exact beforeSlashes?_append (not_mem_raw sound ordinary (by decide)) rest
  | true =>
    cases piece with
    | named name value =>
      have inside := beforeSlashes?_name sound.1 rest
      rw [raw, List.append_assoc, List.cons_append, beforeSlashes?_cons
        fun both => absurd both.1 (by decide)]
      rw [List.singleton_append, inside, Option.map_map]
      simp only [List.cons_append, List.append_assoc]
      rfl
    | quoted inside => exact absurd rfl (plain inside)
    | numeral written =>
      exact beforeSlashes?_append (not_mem_numeral sound (by decide) (by decide)) rest
    | bracketed name =>
      exact beforeSlashes?_append
        (not_mem_bracketed sound (by decide) (by decide) (by decide)) rest
    | comma => exact beforeSlashes?_append (by decide) rest
    | step change =>
      refine beforeSlashes?_append ?_ rest
      rcases step_raw change with same | same <;> rw [raw, same] <;> decide
    | operator written =>
      have marks : ∀ mark ∈ operatorMarks, mark ∉ ["/".toList] → '/' ∉ ' ' :: mark ++ [' '] := by
        decide
      by_cases slash : written = "/".toList
      · subst slash
        show beforeSlashes? (' ' :: '/' :: ' ' :: rest) = _
        rw [beforeSlashes?_cons fun both => absurd both.1 (by decide),
          beforeSlashes?_cons fun both => absurd both.2 (by simp),
          beforeSlashes?_cons fun both => absurd both.1 (by decide), Option.map_map, Option.map_map]
        rfl
      · exact beforeSlashes?_append (marks written sound (by simpa using slash)) rest
    | _ => cases ordinary

theorem tightenFrom_raw (sound : piece.Sound symbols) (plain : ∀ inside, piece ≠ .quoted inside)
    {rest : List Char} (value : piece = .comma → ∀ c ∈ rest.head?, Text.isBlank c = false) :
    tightenFrom false (piece.raw ++ rest) = piece.tight ++ tightenFrom false rest := by
  cases ordinary : piece.isSpecial with
  | false =>
    have same : piece.tight = piece.raw := by
      cases piece <;> first | rfl | cases ordinary
    rw [same]
    exact tightenFrom_append (not_mem_raw sound ordinary (by decide)) rest
  | true =>
    cases piece with
    | named name value =>
      show tightenFrom false ('<' :: name ++ ['>'] ++ rest) = '<' :: name ++ ['>'] ++ _
      rw [List.append_assoc, List.cons_append,
        tightenFrom_cons fun same => absurd same (by decide), List.singleton_append,
        tightenFrom_name sound.1, List.append_assoc]
      rfl
    | quoted inside => exact absurd rfl (plain inside)
    | numeral written =>
      exact tightenFrom_append (not_mem_numeral sound (by decide) (by decide)) rest
    | bracketed name =>
      exact tightenFrom_append
        (not_mem_bracketed sound (by decide) (by decide) (by decide)) rest
    | comma =>
      show ',' :: tightenFrom true (' ' :: rest) = ',' :: tightenFrom false rest
      have blank : Text.isBlank ' ' = true := by decide
      rw [tightenFrom, if_pos blank]
      cases rest with
      | nil => rfl
      | cons c rest =>
        rw [tightenFrom, tightenFrom, value rfl c rfl]
        rfl
    | step change =>
      refine tightenFrom_append ?_ rest
      rcases step_raw change with same | same <;> rw [raw, same] <;> decide
    | operator written =>
      have marks : ∀ mark ∈ operatorMarks, ',' ∉ ' ' :: mark ++ [' '] := by decide
      exact tightenFrom_append (marks written sound) rest
    | _ => cases ordinary

theorem spaceSteps_tight (sound : piece.Sound symbols) (plain : ∀ inside, piece ≠ .quoted inside)
    (rest : List Char) :
    spaceSteps (piece.tight ++ rest) = piece.spaced ++ spaceSteps rest := by
  cases ordinary : piece.isSpecial with
  | false =>
    have same : piece.tight = piece.raw ∧ piece.spaced = piece.raw := by
      cases piece <;> first | exact ⟨rfl, rfl⟩ | cases ordinary
    rw [same.1, same.2]
    exact spaceSteps_append (not_mem_raw sound ordinary (by decide))
      (not_mem_raw sound ordinary (by decide)) rest
  | true =>
    cases piece with
    | named name value =>
      show spaceSteps ('<' :: name ++ ['>'] ++ rest) = '<' :: name ++ ['>'] ++ _
      rw [List.append_assoc, List.cons_append,
        spaceSteps_cons (fun both => absurd both.1 (by decide))
          (fun both => absurd both.1 (by decide)), List.singleton_append,
        spaceSteps_name sound.1, List.append_assoc]
      rfl
    | quoted inside => exact absurd rfl (plain inside)
    | numeral written =>
      obtain ⟨digits, form, filled, all⟩ := sound
      have noPlus : '+' ∉ digits := fun member =>
        absurd (List.all_eq_true.mp all _ member) (by decide)
      have noMinus : '-' ∉ digits := fun member =>
        absurd (List.all_eq_true.mp all _ member) (by decide)
      rcases form with rfl | rfl
      · exact spaceSteps_append noPlus noMinus rest
      · show spaceSteps ('-' :: (digits ++ rest)) = '-' :: digits ++ spaceSteps rest
        rw [spaceSteps_cons (fun both => absurd both.1 (by decide)),
          spaceSteps_append noPlus noMinus]
        · rfl
        · rintro ⟨-, next⟩
          obtain ⟨first, others, rfl⟩ := List.exists_cons_of_ne_nil filled
          cases next
          exact noMinus List.mem_cons_self
    | bracketed name =>
      exact spaceSteps_append (not_mem_bracketed sound (by decide) (by decide) (by decide))
        (not_mem_bracketed sound (by decide) (by decide) (by decide)) rest
    | comma => exact spaceSteps_append (by decide) (by decide) rest
    | step change => cases change <;> rfl
    | operator written =>
      have marks : ∀ mark ∈ operatorMarks, mark ∉ ["+".toList, "-".toList] →
          '+' ∉ ' ' :: mark ++ [' '] ∧ '-' ∉ ' ' :: mark ++ [' '] := by decide
      by_cases sign : written ∈ ["+".toList, "-".toList]
      · simp only [List.mem_cons, List.not_mem_nil, or_false] at sign
        rcases sign with rfl | rfl
        · show spaceSteps (' ' :: '+' :: ' ' :: rest) = _
          rw [spaceSteps_cons (by simp) (by simp), spaceSteps_cons (by simp) (by simp),
            spaceSteps_cons (by simp) (by simp)]
          rfl
        · show spaceSteps (' ' :: '-' :: ' ' :: rest) = _
          rw [spaceSteps_cons (by simp) (by simp), spaceSteps_cons (by simp) (by simp),
            spaceSteps_cons (by simp) (by simp)]
          rfl
      · obtain ⟨noPlus, noMinus⟩ := marks written sound sign
        exact spaceSteps_append noPlus noMinus rest
    | _ => cases ordinary

/-- No name starts behind a bracket that belongs to a comparison or a shift. -/
theorem bracketName?_eq_none {c : Char} (other : Text.isBlank c = true ∨ c = '=' ∨ c = '<')
    (rest : List Char) : bracketName? (c :: rest) = none := by
  unfold bracketName?
  by_cases opens : c = '<'
  · subst opens
    rfl
  · by_cases closes : c = '>'
    · subst closes
      rfl
    · have taken : (c :: rest).takeWhile (fun c => c != '<' && c != '>') =
          c :: rest.takeWhile (fun c => c != '<' && c != '>') := by
        rw [List.takeWhile_cons, if_pos (by simp [opens, closes])]
      simp only [taken, List.head?_cons]
      cases (c :: rest.takeWhile fun c => c != '<' && c != '>').getLast? with
      | none => rfl
      | some last =>
        rcases other with blank | equals | same
        · simp [blank]
        · simp [equals]
        · exact absurd same opens

theorem replaceNames_bracketed {name : List Char} (sound : (bracketed name).Sound symbols)
    (rest : List Char) :
    replaceNames symbols ((bracketed name).raw ++ rest) 0 =
      ((bracketed name).raw ++ ·) <$> replaceNames symbols rest 0 := by
  obtain ⟨reserved, allowed⟩ := bracketed_cases sound
  have filled : name ≠ [] := by
    rintro rfl
    exact absurd reserved (by decide)
  have inside (c : Char) (member : c ∈ name) :
      Text.isBlank c = false ∧ c ≠ '=' ∧ c ≠ '<' ∧ c ≠ '>' := by
    have holds := List.all_eq_true.mp allowed c member
    refine ⟨Text.isBlank_eq_false_of
      (fun c => Text.isHexDigit c || c.isAlpha || "(#)".toList.contains c) holds (by decide),
      ?_, ?_, ?_⟩ <;>
      · rintro rfl
        exact absurd holds (by decide)
  have known : nameNumber symbols name = .ok (bracketed name).raw := by
    rw [nameNumber, if_pos reserved]
    rfl
  show replaceNames symbols ('<' :: name ++ ['>'] ++ rest) 0 = _
  rw [List.append_assoc]
  refine replaceNames_bracket filled (fun c member => (inside c member).2.2) ?_ ?_ known rest
  · intro c first
    have member := List.mem_of_mem_head? first
    exact ⟨(inside c member).1, (inside c member).2.1⟩
  · exact fun c last => (inside c (List.mem_of_mem_getLast? last)).1

theorem replaceNames_operator {written : List Char} (mark : written ∈ operatorMarks)
    (rest : List Char) :
    replaceNames symbols ((operator written).raw ++ rest) 0 =
      ((operator written).raw ++ ·) <$> replaceNames symbols rest 0 := by
  have marks : ∀ mark ∈ operatorMarks, mark ∉ ["<".toList, "<<".toList, "<=".toList] →
      '<' ∉ ' ' :: mark ++ [' '] := by decide
  by_cases opens : written ∈ ["<".toList, "<<".toList, "<=".toList]
  · simp only [List.mem_cons, List.not_mem_nil, or_false] at opens
    have blank : Text.isBlank ' ' = true := by decide
    rcases opens with rfl | rfl | rfl
    · show replaceNames symbols (' ' :: '<' :: ' ' :: rest) 0 = _
      rw [replaceNames_cons (fun same => absurd same (by decide)),
        replaceNames_cons (fun _ => bracketName?_eq_none (Or.inl blank) _),
        replaceNames_cons (fun same => absurd same (by decide)), ← comp_map, ← comp_map]
      rfl
    · show replaceNames symbols (' ' :: '<' :: '<' :: ' ' :: rest) 0 = _
      rw [replaceNames_cons (fun same => absurd same (by decide)),
        replaceNames_cons (fun _ => bracketName?_eq_none (Or.inr (Or.inr rfl)) _),
        replaceNames_cons (fun _ => bracketName?_eq_none (Or.inl blank) _),
        replaceNames_cons (fun same => absurd same (by decide)), ← comp_map, ← comp_map,
        ← comp_map]
      rfl
    · show replaceNames symbols (' ' :: '<' :: '=' :: ' ' :: rest) 0 = _
      rw [replaceNames_cons (fun same => absurd same (by decide)),
        replaceNames_cons (fun _ => bracketName?_eq_none (Or.inr (Or.inl rfl)) _),
        replaceNames_cons (fun same => absurd same (by decide)),
        replaceNames_cons (fun same => absurd same (by decide)), ← comp_map, ← comp_map,
        ← comp_map]
      rfl
  · exact replaceNames_append (marks written mark opens) symbols rest

theorem replaceNames_spaced (sound : piece.Sound symbols)
    (plain : ∀ inside, piece ≠ .quoted inside) (rest : List Char) :
    replaceNames symbols (piece.spaced ++ rest) 0 =
      (piece.clean ++ ·) <$> replaceNames symbols rest 0 := by
  cases ordinary : piece.isSpecial with
  | false =>
    have same : piece.spaced = piece.raw ∧ piece.clean = piece.raw := by
      cases piece <;> first | exact ⟨rfl, rfl⟩ | cases ordinary
    rw [same.1, same.2]
    exact replaceNames_append (not_mem_raw sound ordinary (by decide)) symbols rest
  | true =>
    cases piece with
    | named name value =>
      obtain ⟨legible, filled, known⟩ := sound
      show replaceNames symbols ('<' :: name ++ ['>'] ++ rest) 0 = _
      rw [List.append_assoc]
      exact replaceNames_bracket filled (fun c member => (legible.unmarked c member).2)
        legible.startsFull legible.endsFull known rest
    | quoted inside => exact absurd rfl (plain inside)
    | numeral written =>
      exact replaceNames_append (not_mem_numeral sound (by decide) (by decide)) symbols rest
    | bracketed name => exact replaceNames_bracketed sound rest
    | comma => exact replaceNames_append (by decide) symbols rest
    | step change =>
      refine replaceNames_append ?_ symbols rest
      rcases step_raw change with same | same <;> rw [spaced, same] <;> decide
    | operator written => exact replaceNames_operator sound rest
    | _ => cases ordinary

end Passing

end Piece

end MapScript
