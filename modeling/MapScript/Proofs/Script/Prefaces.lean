/-
This file reads the lines that stand in front of a script: those that say which map a text
belongs to, and those that set variables and attributes. Each kind is told from the others
by its first characters and its equals sign, as long as the name of an attribute is a word
that is not also the name of a variable.
-/

import MapScript.Listing.MapText
import MapScript.Proofs.Listing.Reopened
import MapScript.Proofs.Script.Sequences

namespace MapScript

/-! ### Settings -/

theorem not_mem_word {name : List Char} (word : ∀ c ∈ name, Text.isWordChar c = true)
    {mark : Char} (other : Text.isWordChar mark = false) : mark ∉ name := by
  intro member
  rw [word mark member] at other
  cases other

theorem integer_ne_nil (value : Int) : Text.integer value ≠ [] := by
  cases value with
  | ofNat number => exact Text.natural_ne_nil number
  | negSucc number => exact List.cons_ne_nil _ _

/-- A number holds no step mark: it has at most one sign, in front of its digits. -/
theorem spaceSteps_integer (value : Int) : spaceSteps (Text.integer value) = Text.integer value := by
  have digits (number : Nat) : spaceSteps (Text.natural number) = Text.natural number := by
    have passed := Piece.spaceSteps_append (Text.not_mem_natural (by decide : Text.isDigit '+' = false)
      number) (Text.not_mem_natural (by decide : Text.isDigit '-' = false) number) []
    rw [List.append_nil] at passed
    exact passed.trans (List.append_nil _)
  cases value with
  | ofNat number => exact digits number
  | negSucc number =>
    have noSign : '-' ∉ Text.natural (number + 1) := Text.not_mem_natural (by decide) _
    rw [Text.integer, spaceSteps, digits]
    · intro rest impossible
      exact absurd impossible (by decide)
    · intro rest _ same
      exact noSign (same ▸ List.mem_cons_self)

/-- A setting is cleaned to itself. -/
theorem cleanLine_setting {lead : List Char} (plain : ∀ c ∈ lead, isMark c = false)
    (starts : ∃ c rest, lead = c :: rest ∧ Text.isBlank c = false) (symbols : Symbols)
    (value : Int) :
    cleanLine symbols (lead ++ Text.integer value) = .ok (lead ++ Text.integer value) := by
  have absent {mark : Char} (special : isMark mark = true) : mark ∉ lead := by
    intro member
    rw [plain mark member] at special
    cases special
  have outside {mark : Char} (special : isMark mark = true) (noDigit : Text.isDigit mark = false)
      (noSign : mark ≠ '-') : mark ∉ lead ++ Text.integer value := by
    rw [List.mem_append, not_or]
    exact ⟨absent special, Text.not_mem_integer noDigit noSign value⟩
  have commas : tightenCommas (lead ++ Text.integer value) = lead ++ Text.integer value := by
    have passed := Piece.tightenFrom_append
      (outside (by decide : isMark ',' = true) (by decide) (by decide)) []
    rw [List.append_nil] at passed
    exact passed.trans (List.append_nil _)
  have steps : spaceSteps (lead ++ Text.integer value) = lead ++ Text.integer value := by
    rw [Piece.spaceSteps_append (absent (by decide)) (absent (by decide)), spaceSteps_integer]
  rw [cleanLine_unquoted (outside (by decide) (by decide) (by decide))
    (outside (by decide) (by decide) (by decide)) (outside (by decide) (by decide) (by decide)),
    commas, steps]
  have begins : ∃ c rest, lead ++ Text.integer value = c :: rest ∧ Text.isBlank c = false := by
    obtain ⟨c, rest, rfl, full⟩ := starts
    exact ⟨c, rest ++ Text.integer value, rfl, full⟩
  have ends : ∀ c ∈ (lead ++ Text.integer value).getLast?, Text.isBlank c = false := by
    intro c last
    rw [List.getLast?_append, List.getLast?_eq_some_getLast (integer_ne_nil value),
      Option.some_or] at last
    exact Text.isBlank_of_mem_integer (Option.mem_some.mp last ▸ List.getLast_mem _)
  exact congrArg Except.ok (Piece.trim_gaps 0 begins ends)

theorem dropWhile_append_stop {test : Char → Bool} {text rest : List Char}
    (all : text.all test = true) (stops : ∀ c ∈ rest.head?, test c = false) :
    (text ++ rest).dropWhile test = rest := by
  rw [List.dropWhile_append_of_pos (List.all_eq_true.mp all)]
  cases rest with
  | nil => rfl
  | cons c rest => rw [List.dropWhile_cons, if_neg (by rw [stops c rfl]; decide)]

theorem numeralAfterEquals?_integer (value : Int) :
    numeralAfterEquals? (" = ".toList ++ Text.integer value) = some (Text.integer value) := by
  have equals : (" = ".toList ++ Text.integer value).dropWhile Text.isBlank =
      '=' :: ' ' :: Text.integer value := rfl
  have behind : (' ' :: Text.integer value).dropWhile Text.isBlank = Text.integer value := by
    rw [List.dropWhile_cons, if_pos (by decide)]
    exact Text.dropWhile_of_forall_not fun c member => Text.isBlank_of_mem_integer member
  simp only [numeralAfterEquals?, equals, behind]
  obtain ⟨digits, written, filled, all⟩ := Piece.isNumeral_integer value
  have nonempty : digits.isEmpty = false := by simpa using filled
  rcases written with same | same
  · have noSign : (digits.head? == some '-') = false := by
      refine beq_eq_false_iff_ne.mpr fun sign => ?_
      have digit := List.all_eq_true.mp all '-' (List.mem_of_head? sign)
      exact absurd digit (by decide)
    simp only [same, noSign, Bool.false_eq_true, if_false, nonempty, all, Bool.not_false,
      Bool.and_self, if_true]
  · simp only [same, List.head?_cons, beq_self_eq_true, if_true, List.drop_succ_cons,
      List.drop_zero, nonempty, all, Bool.not_false, Bool.and_self]

theorem readNumeral_integer {value : Int} (range : -0x80000000 ≤ value ∧ value < 0x100000000) :
    readNumeral (Text.integer value) = .ok value := by
  rw [readNumeral, Text.readInteger?_integer (short_of_range range)]

/-! ### Variable lines -/

/-- The line that sets the variable at a place. -/
def variableText (setting : Nat × Int) : List Char :=
  "var".toList ++ Text.natural setting.1 ++ " = ".toList ++ Text.integer setting.2

theorem variableLine?_variableText (setting : Nat × Int) :
    variableLine? (variableText setting) =
      some (Text.natural setting.1, Text.integer setting.2) := by
  have letters : variableText setting = 'v' :: 'a' :: 'r' ::
      (Text.natural setting.1 ++ (" = ".toList ++ Text.integer setting.2)) := by
    rw [variableText, List.append_assoc, List.append_assoc]
    rfl
  have all := Text.all_isDigit_natural setting.1
  have stops : ∀ c ∈ (" = ".toList ++ Text.integer setting.2).head?, Text.isDigit c = false :=
    fun c first => by cases first; decide
  have filled : (Text.natural setting.1).isEmpty = false := by
    simpa using Text.natural_ne_nil setting.1
  simp only [letters, variableLine?, Token.takeWhile_append_stop all stops, filled,
    dropWhile_append_stop all stops, numeralAfterEquals?_integer, Bool.false_eq_true, if_false,
    Option.map_some]

theorem plain_variableText (setting : Nat × Int) :
    ∀ c ∈ "var".toList ++ Text.natural setting.1 ++ " = ".toList, isMark c = false := by
  intro c member
  rcases List.mem_append.mp member with front | back
  · rcases List.mem_append.mp front with word | digits
    · have letters : ∀ c ∈ "var".toList, isMark c = false := forall_mem_of_all (by decide)
      exact letters c word
    · have marks : ∀ c ∈ "\"/,+-<".toList, Text.isDigit c = false := forall_mem_of_all (by decide)
      cases marked : isMark c with
      | false => rfl
      | true =>
        exact absurd digits
          (Text.not_mem_natural (marks c (List.contains_iff_mem.mp marked)) setting.1)
  · have equals : ∀ c ∈ " = ".toList, isMark c = false := forall_mem_of_all (by decide)
    exact equals c back

theorem isPreamble_variableText (setting : Nat × Int) :
    isPreamble (variableText setting) = false := by
  have outside {mark : Char} (noLetter : mark ∉ "var".toList) (noDigit : Text.isDigit mark = false)
      (noEquals : mark ∉ " = ".toList) (noSign : mark ≠ '-') : mark ∉ variableText setting := by
    simp only [variableText, List.mem_append, not_or]
    exact ⟨⟨⟨noLetter, Text.not_mem_natural noDigit _⟩, noEquals⟩,
      Text.not_mem_integer noDigit noSign _⟩
  exact isPreamble_of_not_mem (outside (by decide) (by decide) (by decide) (by decide))
    (outside (by decide) (by decide) (by decide) (by decide))

/-- The variables that settings leave when they are entered one after the other. -/
def enterLocals (settings : List (Nat × Int)) (locals : Registry Int Int) : Registry Int Int :=
  settings.foldl (fun locals setting => locals.put setting.1 setting.2) locals

/-- Variable lines go to the script that follows. -/
theorem ReadsAs.variableLines {settings : List (Nat × Int)} {preface : Preface}
    {texts : List (List Char)} {scripts : List Script}
    (places : ∀ setting ∈ settings, setting.1 < 0x100000000)
    (values : ∀ setting ∈ settings, -0x80000000 ≤ setting.2 ∧ setting.2 < 0x80000000)
    (rest : ReadsAs { preface with locals := enterLocals settings preface.locals } texts scripts) :
    ReadsAs preface (settings.map variableText ++ texts) scripts := by
  induction settings generalizing preface with
  | nil => exact rest
  | cons setting others inductionHypothesis =>
    obtain ⟨place, places⟩ := List.forall_mem_cons.mp places
    obtain ⟨value, values⟩ := List.forall_mem_cons.mp values
    have placed : readNumeral (Text.natural setting.1) = .ok (setting.1 : Int) :=
      @readNumeral_integer setting.1 ⟨by omega, by omega⟩
    exact ReadsAs.variableLine (isPreamble_variableText setting)
      (variableLine?_variableText setting) placed (readNumeral_integer ⟨value.1, by omega⟩) value
      (inductionHypothesis places values rest)

/-! ### Attribute lines -/

/-- A name that an attribute line can have: a word that is not the name of a variable. -/
structure IsAttributeName (name : String) : Prop where
  filled : name ≠ ""
  word : ∀ c ∈ name.toList, Text.isWordChar c = true
  apart : ∀ digits, digits ≠ [] → digits.all Text.isDigit = true →
    name.toList ≠ "var".toList ++ digits

/-- The line that sets an attribute. -/
def attributeText (setting : String × Int) : List Char :=
  setting.1.toList ++ " = ".toList ++ Text.integer setting.2

theorem numeralAfterEquals?_wordChar {c : Char} (word : Text.isWordChar c = true)
    (rest : List Char) : numeralAfterEquals? (c :: rest) = none := by
  have full : (c :: rest).dropWhile Text.isBlank = c :: rest := by
    rw [List.dropWhile_cons, if_neg (by rw [Text.isBlank_of_isWordChar word]; decide)]
  unfold numeralAfterEquals?
  rw [full]
  split
  · rename_i same
    rw [(List.cons.inj same).1] at word
    exact absurd word (by decide +kernel)
  · rfl

/-- A word in front of other text that starts like the name of a variable. -/
theorem exists_append_of_var {name tail rest : List Char} (word : name.all Text.isWordChar = true)
    (stops : ∀ c ∈ tail.head?, Text.isWordChar c = false)
    (same : name ++ tail = 'v' :: 'a' :: 'r' :: rest) :
    ∃ more, name = "var".toList ++ more ∧ rest = more ++ tail := by
  have letters : ('v' :: 'a' :: 'r' :: rest).takeWhile Text.isWordChar =
      "var".toList ++ rest.takeWhile Text.isWordChar := by
    simp only [List.takeWhile_cons, show Text.isWordChar 'v' = true by decide +kernel,
      show Text.isWordChar 'a' = true by decide +kernel,
      show Text.isWordChar 'r' = true by decide +kernel, if_true]
    rfl
  have front : name = "var".toList ++ rest.takeWhile Text.isWordChar := by
    rw [← letters, ← same, Token.takeWhile_append_stop word stops]
  refine ⟨_, front, ?_⟩
  rw [front, List.append_assoc] at same
  exact (@List.append_cancel_left _ "var".toList _ _ same).symm

section AttributeLines

variable {setting : String × Int} (named : IsAttributeName setting.1)
include named

theorem attributeLine?_attributeText :
    attributeLine? (attributeText setting) =
      some (setting.1.toList, Text.integer setting.2) := by
  have all : setting.1.toList.all Text.isWordChar = true := List.all_eq_true.mpr named.word
  have stops : ∀ c ∈ (" = ".toList ++ Text.integer setting.2).head?, Text.isWordChar c = false :=
    fun c first => by cases first; decide +kernel
  have filled : setting.1.toList.isEmpty = false := by simpa using named.filled
  simp only [attributeText, List.append_assoc, attributeLine?, Token.takeWhile_append_stop all stops,
    filled, dropWhile_append_stop all stops, numeralAfterEquals?_integer, Bool.false_eq_true,
    if_false, Option.map_some]

/-- An attribute line is no variable line: a name that starts like that of a variable goes on
with something else before the equals sign. -/
theorem variableLine?_attributeText : variableLine? (attributeText setting) = none := by
  have word : setting.1.toList.all Text.isWordChar = true := List.all_eq_true.mpr named.word
  have stops : ∀ c ∈ (" = ".toList ++ Text.integer setting.2).head?, Text.isWordChar c = false :=
    fun c first => by cases first; decide +kernel
  rw [attributeText, List.append_assoc]
  unfold variableLine?
  split
  · rename_i rest same
    obtain ⟨more, name, rfl⟩ := exists_append_of_var word stops same
    have wordMore : ∀ c ∈ more, Text.isWordChar c = true := fun c member =>
      named.word c (by rw [name]; exact List.mem_append_right _ member)
    by_cases digits : more.all Text.isDigit = true
    · by_cases none : more = []
      · rw [none]
        rfl
      · exact absurd name (named.apart more none digits)
    · have kept : numeralAfterEquals? ((more ++ (" = ".toList ++ Text.integer setting.2)).dropWhile
          Text.isDigit) = none := by
        obtain ⟨c, left, split⟩ : ∃ c left, more.dropWhile Text.isDigit = c :: left := by
          refine List.exists_cons_of_ne_nil fun none => digits ?_
          have whole := @List.takeWhile_append_dropWhile _ Text.isDigit more
          rw [none, List.append_nil] at whole
          rw [← whole]
          exact List.all_takeWhile
        have inside : c ∈ more := (List.dropWhile_suffix _).subset (split ▸ List.mem_cons_self)
        rw [List.dropWhile_append, split]
        exact numeralAfterEquals?_wordChar (wordMore c inside) _
      simp only [kept, Option.map_none, ite_self]
  · rfl

theorem plain_attributeText : ∀ c ∈ setting.1.toList ++ " = ".toList, isMark c = false := by
  intro c member
  rcases List.mem_append.mp member with inName | equals
  · have marks : ∀ c ∈ "\"/,+-<".toList, Text.isWordChar c = false :=
      forall_mem_of_all (by decide +kernel)
    cases marked : isMark c with
    | false => rfl
    | true =>
      exact absurd inName (not_mem_word named.word (marks c (List.contains_iff_mem.mp marked)))
  · have each : ∀ c ∈ " = ".toList, isMark c = false := forall_mem_of_all (by decide)
    exact each c equals

theorem isPreamble_attributeText : isPreamble (attributeText setting) = false := by
  have outside {mark : Char} (noWord : Text.isWordChar mark = false)
      (noEquals : mark ∉ " = ".toList) (noDigit : Text.isDigit mark = false)
      (noSign : mark ≠ '-') : mark ∉ attributeText setting := by
    simp only [attributeText, List.mem_append, not_or]
    exact ⟨⟨not_mem_word named.word noWord, noEquals⟩, Text.not_mem_integer noDigit noSign _⟩
  exact isPreamble_of_not_mem
    (outside (by decide +kernel) (by decide) (by decide) (by decide))
    (outside (by decide +kernel) (by decide) (by decide) (by decide))

end AttributeLines

/-- What a line that stands nowhere says of an attribute. -/
def AttributeLine.bare (setting : String × Int) : AttributeLine :=
  ⟨setting.1, setting.2, ⟨0, ""⟩⟩

/-- Attribute lines go to the script that follows. -/
theorem ReadsAs.attributeLines {settings : List (String × Int)} {preface : Preface}
    {texts : List (List Char)} {scripts : List Script}
    (names : ∀ setting ∈ settings, IsAttributeName setting.1)
    (values : ∀ setting ∈ settings, -128 ≤ setting.2 ∧ setting.2 < 128)
    (rest : ReadsAs
      { preface with attributes := preface.attributes ++ settings.map AttributeLine.bare }
      texts scripts) :
    ReadsAs preface (settings.map attributeText ++ texts) scripts := by
  induction settings generalizing preface with
  | nil =>
    rw [List.map_nil, List.append_nil] at rest
    exact rest
  | cons setting others inductionHypothesis =>
    obtain ⟨named, names⟩ := List.forall_mem_cons.mp names
    obtain ⟨value, values⟩ := List.forall_mem_cons.mp values
    refine ReadsAs.attributeLine (isPreamble_attributeText named)
      (variableLine?_attributeText named) (attributeLine?_attributeText named)
      (readNumeral_integer ⟨by omega, by omega⟩) (inductionHypothesis names values ?_)
    rw [String.ofList_toList, List.append_assoc]
    exact rest

/-! ### Sifting -/

section Sifting

variable {symbols : Symbols}

theorem siftText_cons_line {line text : List Char} (unbroken : Text.Unbroken line)
    (cleaned : cleanLine symbols line = .ok text) (filled : text ≠ []) (back : List Char) :
    siftText symbols (line ++ '\n' :: back) = (siftText symbols back).map (text :: ·) := by
  have sifted : siftLine symbols line = some [text] := by
    have nonempty : text.isEmpty = false := by simpa using filled
    rw [siftLine, cleaned]
    show some (if text.isEmpty = true then [] else [text]) = _
    rw [nonempty]
    rfl
  rw [siftText, Text.splitLines_cons unbroken, gather_cons, sifted]
  rfl

theorem siftText_feed (back : List Char) :
    siftText symbols ('\n' :: back) = siftText symbols back := by
  have fed := @siftText_append_feed symbols [] back
  exact fed.trans Option.map_id'

/-- A line that cleaning leaves as it is. -/
structure IsKept (symbols : Symbols) (line : List Char) : Prop where
  unbroken : Text.Unbroken line
  filled : line ≠ []
  cleaned : cleanLine symbols line = .ok line

/-- Settings that are set off by an empty line are sifted one by one. -/
theorem siftText_settings {lines : List (List Char)} (kept : ∀ line ∈ lines, IsKept symbols line)
    (back : List Char) :
    siftText symbols ((lines.map (· ++ ['\n'])).flatten ++ '\n' :: back) =
      (siftText symbols back).map (lines ++ ·) := by
  induction lines with
  | nil => exact (siftText_feed back).trans Option.map_id'.symm
  | cons line rest inductionHypothesis =>
    obtain ⟨here, others⟩ := List.forall_mem_cons.mp kept
    rw [List.map_cons, List.flatten_cons, List.append_assoc, List.append_assoc,
      List.singleton_append, siftText_cons_line here.unbroken here.cleaned here.filled,
      inductionHypothesis others, Option.map_map]
    rfl

theorem isKept_variableText (setting : Nat × Int) : IsKept symbols (variableText setting) := by
  have letters : Text.Unbroken "var".toList := forall_mem_of_all (by decide)
  have equals : Text.Unbroken " = ".toList := forall_mem_of_all (by decide)
  have digits : Text.Unbroken (Text.natural setting.1) := Text.unbroken_integer setting.1
  exact ⟨((letters.append digits).append equals).append (Text.unbroken_integer _),
    List.cons_ne_nil _ _,
    cleanLine_setting (plain_variableText setting) ⟨_, _, rfl, by decide⟩ symbols setting.2⟩

theorem isKept_attributeText {setting : String × Int} (named : IsAttributeName setting.1) :
    IsKept symbols (attributeText setting) := by
  obtain ⟨first, rest, name⟩ : ∃ first rest, setting.1.toList = first :: rest :=
    List.exists_cons_of_ne_nil fun none => named.filled (String.toList_eq_nil_iff.mp none)
  have full (c : Char) (member : c ∈ setting.1.toList) : Text.isBlank c = false :=
    Text.isBlank_of_isWordChar (named.word c member)
  have unbroken : Text.Unbroken setting.1.toList := fun c member =>
    Text.isLineBreak_of_isBlank (full c member)
  have equals : Text.Unbroken " = ".toList := forall_mem_of_all (by decide)
  refine ⟨(unbroken.append equals).append (Text.unbroken_integer _), ?_,
    cleanLine_setting (plain_attributeText named) ⟨first, rest ++ " = ".toList, ?_, ?_⟩ symbols
      setting.2⟩
  · rw [attributeText, name]
    exact List.cons_ne_nil _ _
  · rw [name]
    rfl
  · exact full first (name ▸ List.mem_cons_self)

end Sifting

/-! ### Lines that say which map this is -/

theorem startsWithWord_append {word front : List Char} (starts : startsWithWord word front = true)
    (back : List Char) : startsWithWord word (front ++ back) = true := by
  induction word generalizing front with
  | nil => rfl
  | cons letter word inductionHypothesis =>
    cases front with
    | nil => cases starts
    | cons c front =>
      obtain ⟨here, others⟩ := Bool.and_eq_true_iff.mp starts
      rw [List.cons_append, startsWithWord, here, inductionHypothesis others]
      rfl

/-- Trimming leaves the part of a text in front of a character that is not blank. -/
theorem exists_trimEnd_append {front back : List Char}
    (ends : ∀ c ∈ front.getLast?, Text.isBlank c = false) :
    ∃ more, Text.trimEnd (front ++ back) = front ++ more := by
  unfold Text.trimEnd
  rw [List.reverse_append, List.dropWhile_append]
  split
  · refine ⟨[], ?_⟩
    rw [List.append_nil]
    exact Piece.trimEnd_of_full ends
  · rw [List.reverse_append, List.reverse_reverse]
    exact ⟨_, rfl⟩

theorem isPreamble_append {front : List Char} (starts : isPreamble front = true)
    (back : List Char) : isPreamble (front ++ back) = true := by
  have one (word : List Char) (holds : startsWithWord word front = true) :=
    startsWithWord_append holds back
  unfold isPreamble at starts ⊢
  rcases Bool.or_eq_true_iff.mp starts with starts | starts
  · rcases Bool.or_eq_true_iff.mp starts with starts | starts
    · rw [one _ starts]
      rfl
    · rw [one _ starts, Bool.or_true]
      rfl
  · rw [one _ starts, Bool.or_true]

/-- The words that lines which say which map this is start with. -/
def preambleWords : List (List Char) := ["Maps\\".toList, "IDs:".toList, "ID:".toList]

/-- Whether a character is left alone by cleaning, or only spaced. -/
def isInert (c : Char) : Bool :=
  !Text.isLineBreak c && !"\"/<".toList.contains c

/-- A line that starts with one of the words is known by it when it is cleaned. -/
theorem siftText_preamble_line {symbols : Symbols} {word rest : List Char}
    (known : word ∈ preambleWords) (inert : ∀ c ∈ rest, isInert c = true) (back : List Char) :
    ∃ text, isPreamble text = true ∧
      siftText symbols (word ++ rest ++ '\n' :: back) =
        (siftText symbols back).map (text :: ·) := by
  have each : ∀ word ∈ preambleWords, isPreamble word = true ∧
      (word.all fun c => decide (isMark c = false ∧ Text.isBlank c = false)) = true :=
    forall_mem_of_all (by decide)
  obtain ⟨starts, plain⟩ := each word known
  have marks := forall_mem_of_all plain
  have absent {mark : Char} (special : isMark mark = true) : mark ∉ word := by
    intro member
    rw [(marks mark member).1] at special
    cases special
  have outside {mark : Char} (other : isInert mark = false) (special : isMark mark = true) :
      mark ∉ word ++ rest := by
    rw [List.mem_append, not_or]
    refine ⟨absent special, fun member => ?_⟩
    rw [inert mark member] at other
    cases other
  have trimmed (tail : List Char) : ∃ more, Text.trim (word ++ tail) = word ++ more := by
    have front : Text.trimStart (word ++ tail) = word ++ tail := by
      cases word with
      | nil => cases starts
      | cons c word =>
        rw [Text.trimStart, List.cons_append, List.dropWhile_cons,
          if_neg (by rw [(marks c List.mem_cons_self).2]; decide)]
    rw [Text.trim, front]
    exact exists_trimEnd_append fun c last => (marks c (List.mem_of_getLast? last)).2
  obtain ⟨more, cleaned⟩ := trimmed (spaceSteps (tightenFrom false rest))
  have clean : cleanLine symbols (word ++ rest) = .ok (word ++ more) := by
    rw [cleanLine_unquoted (outside (by decide) (by decide)) (outside (by decide) (by decide))
      (outside (by decide) (by decide)), tightenCommas, Piece.tightenFrom_append (absent (by decide)),
      Piece.spaceSteps_append (absent (by decide)) (absent (by decide)), cleaned]
  refine ⟨word ++ more, isPreamble_append starts more, ?_⟩
  refine siftText_cons_line (.append (fun c member => ?_) fun c member => ?_) clean ?_ back
  · exact Text.isLineBreak_of_isBlank (marks c member).2
  · have here := (Bool.and_eq_true_iff.mp (inert c member)).1
    rwa [Bool.not_eq_true'] at here
  · cases word with
    | nil => cases starts
    | cons c word => exact List.cons_ne_nil _ _

theorem mem_intercalate {separator : List Char} {parts : List (List Char)} {c : Char}
    (member : c ∈ separator.intercalate parts) : c ∈ separator ∨ ∃ part ∈ parts, c ∈ part := by
  induction parts with
  | nil => cases member
  | cons first rest inductionHypothesis =>
    cases rest with
    | nil =>
      rw [List.intercalate_singleton] at member
      exact .inr ⟨first, List.mem_cons_self, member⟩
    | cons second rest =>
      rw [List.intercalate_cons_cons] at member
      rcases List.mem_append.mp member with front | back
      · rcases List.mem_append.mp front with inFirst | between
        · exact .inr ⟨first, List.mem_cons_self, inFirst⟩
        · exact .inl between
      · rcases inductionHypothesis back with between | ⟨part, inside, there⟩
        · exact .inl between
        · exact .inr ⟨part, List.mem_cons_of_mem _ inside, there⟩

/-- The numbers of a map as they are listed. -/
def numberList (ids : List Int) : List Char :=
  (", ".intercalate (ids.map fun id => String.ofList (Text.integer id))).toList

theorem isInert_of_mem_numberList {ids : List Int} {c : Char} (member : c ∈ numberList ids) :
    isInert c = true := by
  have separator : ∀ c ∈ ", ".toList, isInert c = true := forall_mem_of_all (by decide)
  have marks : ∀ mark ∈ "\"/<".toList, Text.isDigit mark = false ∧ mark ≠ '-' :=
    forall_mem_of_all (by decide)
  rw [numberList, String.toList_intercalate] at member
  rcases mem_intercalate member with between | ⟨part, inside, there⟩
  · exact separator c between
  · obtain ⟨text, listed, rfl⟩ := List.mem_map.mp inside
    obtain ⟨id, -, rfl⟩ := List.mem_map.mp listed
    rw [String.toList_ofList] at there
    have unbroken := Text.unbroken_integer id c there
    cases marked : "\"/<".toList.contains c with
    | false =>
      rw [isInert, unbroken, marked]
      rfl
    | true =>
      obtain ⟨noDigit, noSign⟩ := marks c (List.contains_iff_mem.mp marked)
      exact absurd there (Text.not_mem_integer noDigit noSign id)

theorem isInert_of_isNameChar {c : Char} (letter : Text.isNameChar c = true) :
    isInert c = true := by
  have implied := Text.of_plain (fun c => !Text.isNameChar c || isInert c)
    (Text.plain_of_isNameChar letter) (by decide)
  rw [letter] at implied
  exact implied

/-- The lines that say which map a text belongs to are known as such. -/
theorem siftText_preamble {symbols : Symbols} {name : String}
    (letters : ∀ c ∈ name.toList, Text.isNameChar c = true) (ids : List Int) (back : List Char) :
    ∃ texts, (∀ text ∈ texts, isPreamble text = true) ∧
      siftText symbols ((preambleText name ids).toList ++ back) =
        (siftText symbols back).map (texts ++ ·) := by
  obtain ⟨word, known, written⟩ : ∃ word ∈ preambleWords,
      (if 1 < ids.length then "IDs: " else "ID: ").toList = word ++ [' '] := by
    split
    · exact ⟨"IDs:".toList, by decide, rfl⟩
    · exact ⟨"ID:".toList, by decide, rfl⟩
  have lines : (preambleText name ids).toList ++ back =
      "Maps\\".toList ++ (name.toList ++ ".RGM".toList) ++ '\n' ::
        (word ++ (' ' :: numberList ids) ++ '\n' :: ('\n' :: back)) := by
    simp only [preambleText, String.toList_append, written, List.append_assoc]
    rfl
  have mapsKnown : "Maps\\".toList ∈ preambleWords := by decide
  have nameInert : ∀ c ∈ name.toList ++ ".RGM".toList, isInert c = true := by
    have ending : ∀ c ∈ ".RGM".toList, isInert c = true := forall_mem_of_all (by decide)
    intro c member
    exact (List.mem_append.mp member).elim (fun inName => isInert_of_isNameChar (letters c inName))
      (ending c)
  have idsInert : ∀ c ∈ ' ' :: numberList ids, isInert c = true :=
    List.forall_mem_cons.mpr ⟨by decide, fun c member => isInert_of_mem_numberList member⟩
  obtain ⟨first, firstKnown, firstSifted⟩ := @siftText_preamble_line symbols _ _ mapsKnown
    nameInert (word ++ (' ' :: numberList ids) ++ '\n' :: ('\n' :: back))
  obtain ⟨second, secondKnown, secondSifted⟩ :=
    @siftText_preamble_line symbols _ _ known idsInert ('\n' :: back)
  refine ⟨[first, second], ?_, ?_⟩
  · simp [firstKnown, secondKnown]
  · rw [lines, firstSifted, secondSifted, siftText_feed, Option.map_map]
    rfl

end MapScript
