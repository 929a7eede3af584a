/-
This file proves that what is read from text is written as terms and statements can be
written. The tokens of a line are what their kinds say they are, and reading only puts
them together: it takes names from name tokens, numerals from number tokens and texts from
what stands between quotes.
-/

import MapScript.Proofs.Script.Unbroken
import MapScript.Proofs.Script.Written

namespace MapScript

/-! ### Tokens -/

/-- A token is what its kind says it is, as far as terms are made of it. -/
def Token.Genuine (token : Token) : Prop :=
  match token.kind with
  | .string => ∃ inside, token.text.toList = '"' :: inside ++ ['"'] ∧ '"' ∉ inside ∧
      Text.Unbroken inside
  | .name => Piece.IsWord token.text.toList ∨
      ∃ plain, token.text.toList = '@' :: plain ∧ Piece.IsWord plain
  | .number => Piece.IsNumeral token.text.toList
  | _ => True

namespace Token

theorem take_length_takeWhile (test : Char → Bool) (text : List Char) :
    text.take (text.takeWhile test).length = text.takeWhile test :=
  (List.prefix_iff_eq_take.mp (List.takeWhile_prefix test)).symm

theorem stringLength?_eq_some {text : List Char} {length : Nat}
    (found : stringLength? text = some length) :
    ∃ inside rest, text = '"' :: inside ++ '"' :: rest ∧ '"' ∉ inside ∧
      length = inside.length + 2 := by
  unfold stringLength? at found
  split at found
  · rename_i rest
    have parts : rest.takeWhile (· != '"') ++ rest.dropWhile (· != '"') = rest :=
      List.takeWhile_append_dropWhile
    have noQuote : '"' ∉ rest.takeWhile (· != '"') := fun member =>
      absurd (List.all_eq_true.mp List.all_takeWhile _ member) (by decide)
    cases behind : rest.dropWhile (· != '"') with
    | nil =>
      rw [behind, List.append_nil] at parts
      simp only [parts, Nat.lt_irrefl, if_false] at found
      cases found
    | cons c more =>
      have quote := List.head_dropWhile_not (· != '"') (behind ▸ List.cons_ne_nil c more)
      simp only [behind, List.head_cons, bne_eq_false_iff_eq] at quote
      rw [behind] at parts
      simp only at found
      generalize rest.takeWhile (· != '"') = inside at parts noQuote found
      subst parts quote
      rw [if_pos (by rw [List.length_append, List.length_cons]; omega)] at found
      cases found
      exact ⟨inside, more, rfl, noQuote, rfl⟩
  · cases found

theorem take_stringLength? {text : List Char} {length : Nat} (unbroken : Text.Unbroken text)
    (found : stringLength? text = some length) :
    ∃ inside, text.take length = '"' :: inside ++ ['"'] ∧ '"' ∉ inside ∧
      Text.Unbroken inside := by
  obtain ⟨inside, rest, rfl, noQuote, rfl⟩ := stringLength?_eq_some found
  refine ⟨inside, ?_, noQuote, unbroken.subset fun c member => ?_⟩
  · rw [List.cons_append, List.take_succ_cons, List.take_length_add_append]
    rfl
  · exact List.mem_append_left _ (List.mem_cons_of_mem _ member)

theorem isWord_of_wordLength? {text : List Char} {length : Nat}
    (found : wordLength? text = some length) : Piece.IsWord (text.take length) := by
  simp only [wordLength?] at found
  split at found
  · rename_i some
    cases found
    rw [take_length_takeWhile]
    exact ⟨List.all_takeWhile, some⟩
  · cases found

theorem isNumeral_of_digitsLength? {text : List Char} {length : Nat}
    (found : digitsLength? text = some length) :
    text.take length ≠ [] ∧ (text.take length).all Text.isDigit = true := by
  simp only [digitsLength?] at found
  split at found
  · cases found
  · rename_i filled
    cases found
    rw [take_length_takeWhile]
    exact ⟨by simpa using filled, List.all_takeWhile⟩

theorem genuine_name {text : List Char} {length : Nat} (found : nameLength? text = some length) :
    (⟨.name, String.ofList (text.take length)⟩ : Token).Genuine := by
  show Piece.IsWord (String.ofList _).toList ∨ ∃ plain, (String.ofList _).toList = _ ∧ _
  rw [String.toList_ofList]
  unfold nameLength? at found
  split at found
  · obtain ⟨plain, word, rfl⟩ := Option.map_eq_some_iff.mp found
    exact Or.inr ⟨_, rfl, isWord_of_wordLength? word⟩
  · exact Or.inl (isWord_of_wordLength? found)

theorem genuine_number {text : List Char} {length : Nat}
    (found : numberLength? text = some length) :
    (⟨.number, String.ofList (text.take length)⟩ : Token).Genuine := by
  show Piece.IsNumeral (String.ofList _).toList
  rw [String.toList_ofList]
  unfold numberLength? at found
  split at found
  · obtain ⟨plain, digits, rfl⟩ := Option.map_eq_some_iff.mp found
    exact ⟨_, Or.inr rfl, isNumeral_of_digitsLength? digits⟩
  · exact ⟨_, Or.inl rfl, isNumeral_of_digitsLength? found⟩

theorem genuine_string {text : List Char} {length : Nat} (unbroken : Text.Unbroken text)
    (found : stringLength? text = some length) :
    (⟨.string, String.ofList (text.take length)⟩ : Token).Genuine := by
  show ∃ inside, (String.ofList _).toList = _ ∧ _
  rw [String.toList_ofList]
  exact take_stringLength? unbroken found

/-- One of two forms fits. -/
theorem orElse_eq_some {α : Type} {one other : Option α} {value : α}
    (found : (one <|> other) = some value) : one = some value ∨ other = some value := by
  cases one with
  | none => exact Or.inr found
  | some first => exact Or.inl found

/-- The token at the start of a text is genuine. -/
theorem genuine_munch? {text : List Char} {kind : TokenKind} {length : Nat}
    (unbroken : Text.Unbroken text) (found : munch? text = some (kind, length)) :
    (⟨kind, String.ofList (text.take length)⟩ : Token).Genuine := by
  have other {form : Option Nat} {plain : TokenKind}
      (found : form.map (plain, ·) = some (kind, length))
      (any : ∀ text : String, (⟨plain, text⟩ : Token).Genuine) :
      (⟨kind, String.ofList (text.take length)⟩ : Token).Genuine := by
    obtain ⟨_, -, same⟩ := Option.map_eq_some_iff.mp found
    cases same
    exact any _
  rcases orElse_eq_some found with string | found
  · obtain ⟨_, form, same⟩ := Option.map_eq_some_iff.mp string
    cases same
    exact genuine_string unbroken form
  rcases orElse_eq_some found with definition | found
  · exact other definition fun _ => trivial
  rcases orElse_eq_some found with label | found
  · exact other label fun _ => trivial
  rcases orElse_eq_some found with taskPause | found
  · exact other taskPause fun _ => trivial
  rcases orElse_eq_some found with keyword | found
  · exact other keyword fun _ => trivial
  rcases orElse_eq_some found with name | found
  · obtain ⟨_, form, same⟩ := Option.map_eq_some_iff.mp name
    cases same
    exact genuine_name form
  rcases orElse_eq_some found with number | found
  · obtain ⟨_, form, same⟩ := Option.map_eq_some_iff.mp number
    cases same
    exact genuine_number form
  rcases orElse_eq_some found with operator | mark
  · exact other operator fun _ => trivial
  · obtain ⟨punctuation, form, same⟩ := Option.map_eq_some_iff.mp mark
    cases same
    unfold punctuation? at form
    split at form <;> first | cases form; trivial | cases form

theorem genuine_cutFrom {text : List Char} {passed : Nat} {tokens : List Token}
    (unbroken : Text.Unbroken text) (cut : cutFrom text passed = .ok tokens) :
    ∀ token ∈ tokens, token.Genuine := by
  induction text generalizing passed tokens with
  | nil =>
    cases cut
    exact fun _ none => absurd none List.not_mem_nil
  | cons c rest inductionHypothesis =>
    cases passed with
    | succ passed => exact inductionHypothesis unbroken.tail cut
    | zero =>
      rw [cutFrom] at cut
      split at cut
      · rename_i kind length found
        obtain ⟨others, othersOk, whole⟩ := bind_eq_ok.mp cut
        cases whole
        exact List.forall_mem_cons.mpr ⟨genuine_munch? unbroken found,
          inductionHypothesis unbroken.tail othersOk⟩
      · split at cut
        · exact inductionHypothesis unbroken.tail cut
        · cases cut

/-- The tokens of a line without line breaks are genuine. -/
theorem genuine_cut {line : List Char} {tokens : List Token} (unbroken : Text.Unbroken line)
    (done : cut line = .ok tokens) : ∀ token ∈ tokens, token.Genuine :=
  genuine_cutFrom unbroken done

end Token

/-! ### Reading genuine tokens -/

namespace Reader

/-- From genuine tokens a reader takes values with a property, and leaves genuine
tokens. -/
def Yields {α : Type} (reader : Reader α) (property : α → Prop) : Prop :=
  ∀ tokens value rest, (∀ token ∈ tokens, token.Genuine) → reader.run tokens = .ok (value, rest) →
    property value ∧ ∀ token ∈ rest, token.Genuine

namespace Yields

variable {α β : Type} {one : α → Prop} {other : β → Prop}

theorem pure {value : α} (holds : one value) : Yields (pure value) one := by
  intro tokens _ _ genuine read
  cases run_pure_eq_ok.mp read
  exact ⟨holds, genuine⟩

theorem bind {first : Reader α} {next : α → Reader β} (yields : Yields first one)
    (continues : ∀ value, one value → Yields (next value) other) :
    Yields (first >>= next) other := by
  intro tokens result rest genuine read
  obtain ⟨value, between, firstOk, nextOk⟩ := run_bind_eq_ok.mp read
  obtain ⟨holds, still⟩ := yields tokens value between genuine firstOk
  exact continues value holds between result rest still nextOk

theorem reject (fault : ScriptFault) : Yields (Reader.reject fault : Reader α) one :=
  fun _ _ _ _ read => absurd read (reject_ne_ok _ _)

theorem lift {attempt : Except Fault α} (holds : ∀ value, attempt = .ok value → one value) :
    Yields (liftM attempt : Reader α) one := by
  intro tokens _ _ genuine read
  obtain ⟨_, succeeded, same⟩ := run_lift_eq_ok.mp read
  cases same
  exact ⟨holds _ succeeded, genuine⟩

theorem discard {reader : Reader α} (yields : Yields reader one) :
    Yields (discard reader) fun _ => True :=
  yields.bind fun _ _ => .pure trivial

end Yields

theorem yields_peek? : Yields peek? fun next => ∀ token ∈ next, token.Genuine := by
  intro tokens _ _ genuine read
  cases read
  exact ⟨fun token first => genuine token (List.mem_of_mem_head? first), genuine⟩

theorem yields_advance : Yields advance fun _ => True := by
  intro tokens _ _ genuine read
  cases read
  exact ⟨trivial, fun token member => genuine token (List.mem_of_mem_drop member)⟩

theorem yields_atEnd : Yields atEnd fun _ => True := by
  intro tokens _ _ genuine read
  cases read
  exact ⟨trivial, genuine⟩

theorem yields_nextIs (kind : TokenKind) : Yields (nextIs kind) fun _ => True := by
  refine yields_peek?.bind fun next _ => ?_
  cases next with
  | none => exact .pure trivial
  | some token => exact .pure trivial

theorem yields_expectEnd : Yields expectEnd fun _ => True := by
  refine yields_peek?.bind fun next _ => ?_
  cases next with
  | none => exact .pure trivial
  | some token => exact .reject _

theorem yields_expect (kind : TokenKind) :
    Yields (expect kind) fun token => token.kind = kind ∧ token.Genuine := by
  refine yields_peek?.bind fun next genuine => ?_
  cases next with
  | none => exact .reject _
  | some token =>
    by_cases same : token.kind = kind
    · simp only [if_pos same]
      exact yields_advance.bind fun _ _ => .pure ⟨same, genuine token rfl⟩
    · simp only [if_neg same]
      exact .reject _

theorem yields_expectEquals : Yields expectEquals fun _ => True := by
  refine yields_peek?.bind fun next _ => ?_
  cases next with
  | none => exact .reject _
  | some token =>
    by_cases equals : token.kind = .operator ∧ token.text = "="
    · simp only [if_pos equals]
      exact yields_advance
    · simp only [if_neg equals]
      exact .reject _

/-! ### Terms -/

/-- A term and the arguments in it are written as terms can be, in any place. -/
def WrittenTerm (value : Term) : Prop :=
  ∀ position slot, value.Each (Term.Anywhere Term.Written) position slot

/-- Terms that are written as arguments can be. -/
def WrittenArguments (list : List Term) : Prop :=
  ∀ function index, Term.EachArgument (Term.Anywhere Term.Written) function index list

theorem isWord_of_genuine {token : Token} (kind : token.kind = .name) (genuine : token.Genuine)
    (single : isMultitask token.text = false) : Piece.IsWord token.text.toList := by
  unfold Token.Genuine at genuine
  rw [kind] at genuine
  rcases genuine with isWord | ⟨plain, letters, -⟩
  · exact isWord
  · rw [isMultitask, letters] at single
    cases single

theorem dropWhile_at_of_isWord {written : List Char} (isWord : Piece.IsWord written) :
    written.dropWhile (· == '@') = written := by
  refine Text.dropWhile_of_forall_not fun c member => beq_eq_false_iff_ne.mpr ?_
  rintro rfl
  exact absurd (List.all_eq_true.mp isWord.1 _ member) (by decide)

theorem isWord_plainName {token : Token} (kind : token.kind = .name)
    (genuine : token.Genuine) : Piece.IsWord (plainName token.text).toList := by
  unfold Token.Genuine at genuine
  rw [kind] at genuine
  rw [plainName, String.toList_ofList]
  rcases genuine with isWord | ⟨plain, letters, isWord⟩
  · rw [dropWhile_at_of_isWord isWord]
    exact isWord
  · rw [letters, List.dropWhile_cons, if_pos (beq_self_eq_true _), dropWhile_at_of_isWord isWord]
    exact isWord

theorem written_nameTerm {name : String} (isWord : Piece.IsWord name.toList) {value : Term}
    (read : nameTerm name = .ok value) : WrittenTerm value := by
  unfold nameTerm at read
  split at read
  · split at read
    · rename_i index number
      cases read
      exact fun _ _ => ⟨index, rfl, Text.lt_of_readNatural? number⟩
    · exact absurd read fail_ne_ok
  · rename_i noDigits
    cases read
    exact fun _ _ => ⟨isWord, noDigits⟩

section Terms

variable {arguments : Reader (List Term)} (inside : Yields arguments WrittenArguments)

include inside

theorem yields_parenthesized : Yields (parenthesized arguments) WrittenArguments := by
  refine (yields_expect _).discard.bind fun _ _ => (yields_nextIs _).bind fun empty _ => ?_
  cases empty with
  | true => exact yields_advance.bind fun _ _ => .pure fun _ _ => trivial
  | false => exact inside.bind fun terms written =>
      (yields_expect _).discard.bind fun _ _ => .pure written

theorem yields_objectTerm {object : String} (isObject : IsObject object.toList) :
    Yields (objectTerm object arguments) WrittenTerm := by
  refine (yields_expect _).discard.bind fun _ _ => (yields_expect _).bind fun token named => ?_
  obtain ⟨kind, genuine⟩ := named
  refine (yields_nextIs _).bind fun opens _ => ?_
  cases opens with
  | true =>
    refine (yields_parenthesized inside).bind fun terms written => .pure fun _ _ => ?_
    exact ⟨⟨isObject, isWord_plainName kind genuine⟩, written _ _⟩
  | false =>
    cases multitask : isMultitask token.text with
    | true => exact .reject _
    | false => exact .pure fun _ _ => ⟨isObject, isWord_of_genuine kind genuine multitask⟩

theorem yields_namedTerm {token : Token} (kind : token.kind = .name) (genuine : token.Genuine) :
    Yields (namedTerm token.text arguments) WrittenTerm := by
  refine (yields_nextIs _).bind fun opens _ => ?_
  cases opens with
  | true =>
    refine (yields_parenthesized inside).bind fun terms written => .pure fun _ _ => ?_
    exact ⟨isWord_plainName kind genuine, written _ _⟩
  | false =>
    cases multitask : isMultitask token.text with
    | true => exact .reject _
    | false =>
      have isWord := isWord_of_genuine kind genuine multitask
      refine (yields_nextIs _).bind fun dotted _ => ?_
      cases dotted with
      | true => exact yields_objectTerm inside (Or.inl isWord)
      | false => exact .lift fun _ read => written_nameTerm isWord read

theorem yields_numeralTerm {numeral : String} (isNumeral : Piece.IsNumeral numeral.toList) :
    Yields (numeralTerm numeral arguments) WrittenTerm := by
  refine (yields_nextIs _).bind fun dotted _ => ?_
  cases dotted with
  | true => exact yields_objectTerm inside (Or.inr isNumeral)
  | false =>
    have number : Yields (liftM (numberOf numeral) : Reader Int) fun _ => True :=
      .lift fun _ _ => trivial
    exact number.bind fun _ _ => .pure fun _ _ => trivial

theorem yields_termWith : Yields (termWith arguments) WrittenTerm := by
  refine yields_peek?.bind fun next genuine => ?_
  cases next with
  | none => exact .reject _
  | some token =>
    have genuine := genuine token rfl
    cases kind : token.kind with
    | string =>
      simp only [kind]
      refine yields_advance.bind fun _ _ => .pure fun _ _ => ?_
      unfold Token.Genuine at genuine
      rw [kind] at genuine
      obtain ⟨text, letters, noQuote, unbroken⟩ := genuine
      show '"' ∉ (String.ofList _).toList ∧ ∀ c ∈ (String.ofList _).toList, _
      rw [String.toList_ofList, letters, List.cons_append, List.drop_succ_cons, List.drop_zero,
        List.dropLast_concat]
      exact ⟨noQuote, unbroken⟩
    | number =>
      simp only [kind]
      unfold Token.Genuine at genuine
      rw [kind] at genuine
      exact yields_advance.bind fun _ _ => yields_numeralTerm inside genuine
    | name =>
      simp only [kind]
      exact yields_advance.bind fun _ _ => yields_namedTerm inside kind genuine
    | _ =>
      simp only [kind]
      exact .reject _

end Terms

mutual

/-- Terms are read as they can be written. -/
theorem yields_term (bound : Nat) : Yields (term bound) WrittenTerm := by
  match bound with
  | 0 => exact .reject _
  | bound + 1 => exact yields_termWith (yields_arguments bound)

theorem yields_arguments (bound : Nat) : Yields (arguments bound) WrittenArguments := by
  match bound with
  | 0 => exact .reject _
  | bound + 1 =>
    refine (yields_term bound).bind fun first written => (yields_nextIs _).bind fun more _ => ?_
    cases more with
    | true =>
      refine yields_advance.bind fun _ _ => (yields_arguments bound).bind fun rest others => ?_
      exact .pure fun _ _ => ⟨written _ _, others _ _⟩
    | false => exact .pure fun _ _ => ⟨written _ _, trivial⟩

end

/-! ### Formulas and conditions -/

/-- A formula with a term for every operator, and with terms as they can be written. -/
def WrittenFormula (formula : Formula) : Prop :=
  formula.Paired ∧ ∀ position slot, formula.Each (Term.Anywhere Term.Written) position slot

theorem yields_formulaTail (bound : Nat) :
    Yields (formulaTail bound) fun tail => ∀ pair ∈ tail.1, WrittenTerm pair.2 := by
  induction bound with
  | zero => exact .pure fun _ none => absurd none List.not_mem_nil
  | succ bound inductionHypothesis =>
    have stop : Yields (pure ([], none) : Reader (List (Operator × Term) × Option Step))
        fun tail => ∀ pair ∈ tail.1, WrittenTerm pair.2 :=
      .pure fun _ none => absurd none List.not_mem_nil
    refine yields_peek?.bind fun next _ => ?_
    cases next with
    | none => exact stop
    | some token =>
      by_cases operator : token.kind = .operator
      · simp only [if_pos operator]
        split
        · exact yields_advance.bind fun _ _ => .pure fun _ none => absurd none List.not_mem_nil
        · refine yields_advance.bind fun _ _ => (yields_term bound).bind fun operand written => ?_
          refine inductionHypothesis.bind fun tail others => .pure ?_
          exact List.forall_mem_cons.mpr ⟨written, others⟩
        · exact stop
      · simp only [if_neg operator]
        exact stop

theorem yields_formula (bound : Nat) : Yields (formula bound) WrittenFormula := by
  refine (yields_term bound).bind fun head written => ?_
  refine (yields_formulaTail bound).bind fun tail others => .pure ⟨?_, fun _ _ => ⟨written _ _, ?_⟩⟩
  · show (tail.1.map Prod.fst).length = (tail.1.map Prod.snd).length
    rw [List.length_map, List.length_map]
  · intro operand member
    obtain ⟨pair, there, rfl⟩ := List.mem_map.mp member
    exact others pair there _ _

theorem yields_comparison : Yields comparison fun _ => True := by
  refine (yields_expect _).bind fun token _ => ?_
  split
  · exact .pure trivial
  · exact .reject _

theorem yields_conjunction : Yields conjunction fun _ => True := by
  refine (yields_expect _).bind fun token _ => ?_
  split
  · exact .pure trivial
  · exact .reject _

theorem yields_clauses (bound : Nat) : Yields (clauses bound) fun list =>
    ∀ clause ∈ list, WrittenFormula clause.left ∧ WrittenFormula clause.right := by
  induction bound with
  | zero => exact .reject _
  | succ bound inductionHypothesis =>
    refine (yields_formula _).bind fun left leftWritten => yields_comparison.bind fun mark _ => ?_
    refine (yields_formula _).bind fun right rightWritten => yields_atEnd.bind fun ended _ => ?_
    cases ended with
    | true => exact .pure (List.forall_mem_singleton.mpr ⟨leftWritten, rightWritten⟩)
    | false =>
      refine yields_conjunction.bind fun word _ => inductionHypothesis.bind fun rest others => ?_
      exact .pure (List.forall_mem_cons.mpr ⟨⟨leftWritten, rightWritten⟩, others⟩)

/-! ### Statements -/

/-- A statement that is written as statements can be, with terms as they can be. -/
def WrittenStatement (statement : Statement) : Prop :=
  statement.Written ∧ statement.EachTerm (Term.Anywhere Term.Written)

theorem yields_number :
    Yields number fun value => -0x80000000 ≤ value ∧ value < 0x100000000 := by
  refine (yields_expect _).bind fun token _ => .lift fun value read => ?_
  unfold numberOf at read
  split at read
  · exact absurd read fail_ne_ok
  · split at read
    · rename_i range
      cases read
      exact range
    · cases read

theorem yields_condition (bound : Nat) : Yields (condition bound) WrittenStatement := by
  refine yields_peek?.bind fun next _ => ?_
  split
  · refine yields_advance.bind fun _ _ => yields_expectEquals.bind fun _ _ => ?_
    refine yields_number.bind fun value range => yields_expectEnd.bind fun _ _ => ?_
    exact .pure ⟨range, trivial⟩
  · refine (yields_clauses bound).bind fun list written => .pure ⟨fun clause member => ?_, ?_⟩
    · exact ⟨(written clause member).1.1, (written clause member).2.1⟩
    · exact fun clause member => ⟨(written clause member).1.2 _ _, (written clause member).2.2 _ _⟩

theorem yields_jump (kind : JumpKind) : Yields (jump kind) WrittenStatement := by
  refine yields_atEnd.bind fun ended _ => ?_
  cases ended with
  | true =>
    by_cases gosub : kind = .gosub
    · simp only [if_true, if_pos gosub]
      exact .reject _
    · simp only [if_true, if_neg gosub]
      exact .pure ⟨trivial, trivial⟩
  | false =>
    refine (yields_expect _).bind fun token _ => yields_expectEnd.bind fun _ _ => ?_
    exact .pure ⟨trivial, trivial⟩

theorem yields_statementTail (bound : Nat) {target : Term} (written : WrittenTerm target)
    (free : ∀ word ∈ target.lead?, isReservedWord word = false) :
    Yields (statementTail bound target) WrittenStatement := by
  refine yields_atEnd.bind fun ended _ => ?_
  cases ended with
  | true =>
    cases alone : standsAlone target with
    | true =>
      simp only [if_true]
      exact .pure ⟨free, written _ _⟩
    | false =>
      simp only [if_true]
      exact .reject _
  | false =>
    refine (yields_expect _).bind fun token _ => ?_
    split
    · refine yields_expectEnd.bind fun _ _ => .pure ⟨free _ rfl, written _ _⟩
    · split
      · refine (yields_formula bound).bind fun formula tail => yields_expectEnd.bind fun _ _ => ?_
        exact .pure ⟨⟨free, tail.1⟩, written _ _, tail.2 _ _⟩
      · exact .reject _

/-! ### The first word of a statement -/

theorem lead_objectTerm {object : String} {arguments : Reader (List Term)} {value : Term}
    {tokens rest : List Token}
    (read : (objectTerm object arguments).run tokens = .ok (value, rest)) :
    value.lead? = some object := by
  simp only [objectTerm, run_bind_eq_ok] at read
  obtain ⟨_, _, -, token, _, -, opens, _, -, read⟩ := read
  cases opens with
  | true =>
    simp only [if_true, run_bind_eq_ok] at read
    obtain ⟨_, _, -, read⟩ := read
    cases run_pure_eq_ok.mp read
    rfl
  | false =>
    cases multitask : isMultitask token.text with
    | true =>
      simp only [multitask, if_true, Bool.false_eq_true, if_false] at read
      exact absurd read (reject_ne_ok _ _)
    | false =>
      simp only [multitask, Bool.false_eq_true, if_false] at read
      cases run_pure_eq_ok.mp read
      rfl

theorem nextIs_eq_ok {kind : TokenKind} {tokens rest : List Token} {found : Bool}
    (read : (nextIs kind).run tokens = .ok (found, rest)) :
    found = tokens.head?.any (·.kind == kind) ∧ rest = tokens := by
  cases tokens <;> cases read <;> exact ⟨rfl, rfl⟩

/-- A term that starts with a numeral and could be mistaken is that of an object with the numeral
as its name. -/
theorem lead_numeralTerm {numeral : String} {arguments : Reader (List Term)} {value : Term}
    {tokens rest : List Token}
    (read : (numeralTerm numeral arguments).run tokens = .ok (value, rest)) {word : String}
    (leads : word ∈ value.lead?) : word = numeral := by
  simp only [numeralTerm, run_bind_eq_ok] at read
  obtain ⟨dotted, _, -, read⟩ := read
  cases dotted with
  | true =>
    rw [lead_objectTerm read] at leads
    exact (Option.some.inj leads).symm
  | false =>
    simp only [Bool.false_eq_true, if_false, run_bind_eq_ok] at read
    obtain ⟨number, _, -, read⟩ := read
    cases run_pure_eq_ok.mp read
    cases leads

theorem lead_nameTerm {name word : String} {value : Term} (named : nameTerm name = .ok value)
    (leads : word ∈ value.lead?) : word = name := by
  unfold nameTerm at named
  split at named
  · split at named
    · cases named
      cases leads
    · exact absurd named fail_ne_ok
  · cases named
    exact (Option.some.inj leads).symm

/-- A term that starts with a name and could be mistaken has no parenthesis behind the name. -/
theorem lead_namedTerm {name : String} {arguments : Reader (List Term)} {value : Term}
    {tokens rest : List Token}
    (read : (namedTerm name arguments).run tokens = .ok (value, rest)) {word : String}
    (leads : word ∈ value.lead?) :
    word = name ∧ tokens.head?.any (·.kind == .leftParenthesis) = false := by
  simp only [namedTerm, run_bind_eq_ok] at read
  obtain ⟨opens, _, looked, read⟩ := read
  obtain ⟨opening, rfl⟩ := nextIs_eq_ok looked
  cases opens with
  | true =>
    simp only [if_true, run_bind_eq_ok] at read
    obtain ⟨_, _, -, read⟩ := read
    cases run_pure_eq_ok.mp read
    cases leads
  | false =>
    refine ⟨?_, opening.symm⟩
    cases multitask : isMultitask name with
    | true =>
      simp only [multitask, if_true, Bool.false_eq_true, if_false] at read
      exact absurd read (reject_ne_ok _ _)
    | false =>
      simp only [multitask, Bool.false_eq_true, if_false, run_bind_eq_ok] at read
      obtain ⟨dotted, _, -, read⟩ := read
      cases dotted with
      | true =>
        rw [lead_objectTerm read] at leads
        exact (Option.some.inj leads).symm
      | false =>
        obtain ⟨_, named, same⟩ := run_lift_eq_ok.mp read
        cases same
        exact lead_nameTerm named leads

/-- A term that starts with a word that could be mistaken starts with a numeral, or with a
name that no parenthesis follows. -/
theorem lead_term {bound : Nat} {first : Token} {tokens rest : List Token} {value : Term}
    (read : (term bound).run (first :: tokens) = .ok (value, rest)) {word : String}
    (leads : word ∈ value.lead?) :
    word = first.text ∧ (first.kind = .number ∨
      first.kind = .name ∧ tokens.head?.any (·.kind == .leftParenthesis) = false) := by
  cases bound with
  | zero => exact absurd read (reject_ne_ok _ _)
  | succ bound =>
    obtain ⟨kind, text⟩ := first
    cases kind with
    | string =>
      cases read
      cases leads
    | number =>
      have read : (numeralTerm text (arguments bound)).run tokens = .ok (value, rest) := read
      exact ⟨lead_numeralTerm read leads, Or.inl rfl⟩
    | name =>
      have read : (namedTerm text (arguments bound)).run tokens = .ok (value, rest) := read
      obtain ⟨same, alone⟩ := lead_namedTerm read leads
      exact ⟨same, Or.inr ⟨rfl, alone⟩⟩
    | _ => cases read

/-- A statement that starts with a term is read as it can be written, if its first token
is no reserved word. -/
theorem written_termStatement {bound : Nat} {first : Token} {tokens rest : List Token}
    {statement : Statement} (genuine : ∀ token ∈ first :: tokens, token.Genuine)
    (free : first.kind = .name → tokens.head?.any (·.kind == .leftParenthesis) = false →
      isReservedWord first.text = false)
    (read : (termStatement bound).run (first :: tokens) = .ok (statement, rest)) :
    WrittenStatement statement := by
  simp only [termStatement, run_bind_eq_ok] at read
  obtain ⟨target, between, targetOk, read⟩ := read
  obtain ⟨written, still⟩ := yields_term bound _ _ _ genuine targetOk
  refine (yields_statementTail bound written (fun word leads => ?_) _ _ _ still read).1
  obtain ⟨rfl, number | ⟨name, alone⟩⟩ := lead_term targetOk leads
  · have isNumeral := genuine first List.mem_cons_self
    unfold Token.Genuine at isNumeral
    rw [number] at isNumeral
    exact isReservedWord_numeral isNumeral
  · exact free name alone

theorem written_wordStatement {bound : Nat} {first : Token} {tokens rest : List Token}
    {statement : Statement} (genuine : ∀ token ∈ first :: tokens, token.Genuine)
    (read : (wordStatement bound first.text).run (first :: tokens) = .ok (statement, rest)) :
    WrittenStatement statement := by
  unfold wordStatement at read
  split at read
  · exact (Yields.bind yields_advance (fun _ _ => yields_condition bound) _ _ _ genuine read).1
  · rename_i notIf
    split at read
    · exact (Yields.bind yields_advance (fun _ _ => yields_jump _) _ _ _ genuine read).1
    · refine (Yields.bind yields_advance (fun _ _ => yields_expectEnd.bind fun _ _ => ?_) _ _ _
        genuine read).1
      exact .pure ⟨trivial, trivial⟩
    · rename_i noJump noWord
      refine written_termStatement genuine (fun _ _ => ?_) read
      rw [isReservedWord, noJump, noWord, beq_eq_false_iff_ne.mpr notIf]
      rfl

/-- What is read from genuine tokens is a statement as it can be written. -/
theorem written_statement {bound : Nat} {tokens rest : List Token} {statement : Statement}
    (genuine : ∀ token ∈ tokens, token.Genuine)
    (read : (Reader.statement bound).run tokens = .ok (statement, rest)) :
    WrittenStatement statement := by
  cases tokens with
  | nil => cases read
  | cons first tokens =>
    obtain ⟨kind, text⟩ := first
    cases kind with
    | labelDefinition =>
      have read : (do
          advance
          expectEnd
          pure (.label (labelOf ⟨.labelDefinition, text⟩)) : Reader Statement).run
          (⟨.labelDefinition, text⟩ :: tokens) = .ok (statement, rest) := read
      refine (Yields.bind yields_advance (fun _ _ => yields_expectEnd.bind fun _ _ => ?_) _ _ _
        genuine read).1
      exact .pure ⟨trivial, trivial⟩
    | taskPause =>
      have read : (do
          advance
          expectEnd
          pure (.taskPause (labelOf ⟨.taskPause, text⟩)) : Reader Statement).run
          (⟨.taskPause, text⟩ :: tokens) = .ok (statement, rest) := read
      refine (Yields.bind yields_advance (fun _ _ => yields_expectEnd.bind fun _ _ => ?_) _ _ _
        genuine read).1
      exact .pure ⟨trivial, trivial⟩
    | keyword =>
      have read : (if text = "<Anchor>" then do
          advance
          expectEquals
          let value ← number
          expectEnd
          pure (.anchor value)
        else termStatement bound : Reader Statement).run (⟨.keyword, text⟩ :: tokens) =
        .ok (statement, rest) := read
      split at read
      · refine (Yields.bind yields_advance (fun _ _ => yields_expectEquals.bind fun _ _ =>
          yields_number.bind fun value range => yields_expectEnd.bind fun _ _ => ?_) _ _ _
          genuine read).1
        exact .pure ⟨range, trivial⟩
      · exact written_termStatement genuine (fun name => by cases name) read
    | name =>
      have read : (if tokens.head?.any (·.kind == .leftParenthesis) then termStatement bound
        else wordStatement bound text).run (⟨.name, text⟩ :: tokens) = .ok (statement, rest) := read
      split at read
      · rename_i opens
        refine written_termStatement genuine (fun _ alone => ?_) read
        rw [opens] at alone
        cases alone
      · exact written_wordStatement genuine read
    | _ => exact written_termStatement genuine (fun name => by cases name) read

end Reader

/-- The statement on a line without line breaks is written as statements can be. -/
theorem Statement.written_of_parse {line : List Char} {statement : Statement}
    (unbroken : Text.Unbroken line) (parsed : Statement.parse line = .ok statement) :
    Reader.WrittenStatement statement := by
  obtain ⟨tokens, rest, cut, read⟩ := parse_eq_ok parsed
  exact Reader.written_statement (Token.genuine_cut unbroken cut) read

theorem writtenStatement_bodyBlind : BodyBlind Reader.WrittenStatement := fun statement body both =>
  ⟨Statement.written_bodyBlind statement body both.1,
    Statement.eachTerm_bodyBlind _ statement body both.2⟩

/-- The statements of scripts are written as statements can be. -/
theorem Script.written_of_parse {symbols : Symbols} {text : List Char} {scripts : List Script}
    (parsed : Script.parse symbols text = .ok scripts) :
    ∀ script ∈ scripts, script.body.Each Reader.WrittenStatement :=
  parse_each writtenStatement_bodyBlind
    (fun _ cleaned line member _ statementParsed =>
      Statement.written_of_parse (unbroken_cleanText cleaned line member) statementParsed) parsed

end MapScript
