/-
This file reads the text of a listing back as a whole. The title gives the name of the
script and the label where it starts, the braces of the outermost block take in all other
lines, and nothing is left over, so that the text holds one script.
-/

import MapScript.Proofs.Listing.Recovered
import MapScript.Proofs.Text.Lines

namespace MapScript

/-! ### Titles -/

/-- Whether a character may stand in a title. -/
def isTitleChar (c : Char) : Bool :=
  Text.isNameChar c || Text.isHexDigit c || " (#)".toList.contains c

/-- What follows the name in a title. -/
def titleTail (entry : Nat) : List Char :=
  if entry = 0 then [] else " (Execution starts at #".toList ++ Text.hexCapital 2 entry ++ [')']

/-- The label where a script starts that is read from a title. -/
def titleLabel (entry : Nat) : Option Int :=
  if entry = 0 then none else some entry

theorem toList_titleLine (program : Program) :
    (Listing.titleLine program).toList = program.name.toList ++ titleTail program.entry := by
  unfold Listing.titleLine titleTail
  split
  · exact (List.append_nil _).symm
  · simp only [String.toList_append, toList_labelText, List.append_assoc]
    rfl

section Titles

variable {name : List Char} {entry : Nat}

theorem isTitleChar_of_mem (letters : ∀ c ∈ name, Text.isNameChar c = true) {c : Char}
    (member : c ∈ name ++ titleTail entry) : isTitleChar c = true := by
  rcases List.mem_append.mp member with inName | inTail
  · rw [isTitleChar, letters c inName]
    rfl
  · unfold titleTail at inTail
    split at inTail
    · cases inTail
    · rcases List.mem_append.mp inTail with front | last
      · rcases List.mem_append.mp front with words | digits
        · have mark : ∀ c ∈ " (Execution starts at #".toList, isTitleChar c = true :=
            forall_mem_of_all (by decide)
          exact mark c words
        · have digit := List.all_eq_true.mp (Text.all_isHexDigit_hexCapital 2 entry) c digits
          rw [isTitleChar, digit, Bool.or_true]
          rfl
      · cases List.mem_singleton.mp last
        decide

/-- A character that is not allowed in titles does not stand in one. -/
theorem not_mem_title (letters : ∀ c ∈ name, Text.isNameChar c = true) {mark : Char}
    (other : isTitleChar mark = false) : mark ∉ name ++ titleTail entry := by
  intro member
  rw [isTitleChar_of_mem letters member] at other
  cases other

theorem unbroken_titleTail (entry : Nat) : Text.Unbroken (titleTail entry) := by
  intro c member
  have allowed : isTitleChar c = true :=
    isTitleChar_of_mem (fun _ none => absurd none List.not_mem_nil) (List.mem_append_right [] member)
  cases breaks : Text.isLineBreak c with
  | false => rfl
  | true =>
    have each : ∀ code ∈ Text.blankCodes,
        (!Text.isLineBreak (Char.ofNat code) || !isTitleChar (Char.ofNat code)) = true := by
      decide
    have here := each c.toNat (Text.toNat_mem_blankCodes (Text.isBlank_of_isLineBreak breaks))
    rw [Char.ofNat_toNat, breaks, allowed] at here
    cases here

theorem cleans_titleLine {program : Program} {symbols : Symbols} (filled : program.name ≠ "")
    (letters : ∀ c ∈ program.name.toList, Text.isNameChar c = true) :
    Cleans symbols [Listing.titleLine program]
      [program.name.toList ++ titleTail program.entry] := by
  obtain ⟨first, rest, split⟩ : ∃ first rest, program.name.toList = first :: rest :=
    List.exists_cons_of_ne_nil fun none => filled (String.toList_eq_nil_iff.mp none)
  have full (c : Char) (member : c ∈ program.name.toList) : Text.isBlank c = false :=
    Text.isBlank_of_isNameChar (letters c member)
  refine .indented (fun c member => ?_) ?_ ?_ (fun c member => ?_) 0
    ((toList_titleLine program).trans (List.nil_append _).symm)
  · cases marked : isMark c with
    | false => rfl
    | true =>
      have marks : ∀ c ∈ "\"/,+-<".toList, isTitleChar c = false := forall_mem_of_all (by decide)
      exact absurd member
        (not_mem_title letters (marks c (List.contains_iff_mem.mp marked)))
  · refine ⟨first, rest ++ titleTail program.entry, ?_, full first (split ▸ List.mem_cons_self)⟩
    rw [split, List.cons_append]
  · unfold titleTail
    split
    · rw [List.append_nil]
      exact fun c last => full c (List.mem_of_getLast? last)
    · rw [← List.append_assoc]
      exact Piece.getLast?_concat_full (by decide)
  · rcases List.mem_append.mp member with inName | inTail
    · exact Text.isLineBreak_of_isBlank (full c inName)
    · exact unbroken_titleTail program.entry c inTail

/-! ### Reading a title -/

theorem exists_matchesLetter {word text : List Char} (starts : startsWithWord word text = true)
    {letter : Char} (member : letter ∈ word) : ∃ c ∈ text, matchesLetter letter c = true := by
  induction word generalizing text with
  | nil => cases member
  | cons first word inductionHypothesis =>
    cases text with
    | nil => cases starts
    | cons c text =>
      obtain ⟨here, others⟩ := Bool.and_eq_true_iff.mp starts
      rcases List.mem_cons.mp member with rfl | inside
      · exact ⟨c, List.mem_cons_self, here⟩
      · obtain ⟨found, there, same⟩ := inductionHypothesis others inside
        exact ⟨found, List.mem_cons_of_mem _ there, same⟩

/-- The lines that say which map this is all hold a backslash or a colon. -/
theorem isPreamble_of_not_mem {text : List Char} (noSlash : '\\' ∉ text) (noColon : ':' ∉ text) :
    isPreamble text = false := by
  have passes (word : List Char) (mark : Char) (inside : mark ∈ word)
      (alone : ∀ c, matchesLetter mark c = true → c = mark) (absent : mark ∉ text) :
      startsWithWord word text = false := by
    cases starts : startsWithWord word text with
    | false => rfl
    | true =>
      obtain ⟨c, member, same⟩ := exists_matchesLetter starts inside
      exact absurd (alone c same ▸ member) absent
  have slash (c : Char) (same : matchesLetter '\\' c = true) : c = '\\' := by
    simpa [matchesLetter] using same
  have colon (c : Char) (same : matchesLetter ':' c = true) : c = ':' := by
    simpa [matchesLetter] using same
  rw [isPreamble, passes "maps\\".toList '\\' (by decide) slash noSlash,
    passes "id:".toList ':' (by decide) colon noColon,
    passes "ids:".toList ':' (by decide) colon noColon]
  rfl

theorem isPreamble_title (letters : ∀ c ∈ name, Text.isNameChar c = true) :
    isPreamble (name ++ titleTail entry) = false :=
  isPreamble_of_not_mem (not_mem_title letters (by decide)) (not_mem_title letters (by decide))

theorem numeralAfterEquals?_of_not_mem {text : List Char} (absent : '=' ∉ text) :
    numeralAfterEquals? text = none := by
  have kept : '=' ∉ text.dropWhile Text.isBlank := fun member =>
    absent ((List.dropWhile_suffix _).subset member)
  unfold numeralAfterEquals?
  split
  · rename_i same
    exact absurd (same ▸ List.mem_cons_self) kept
  · rfl

theorem variableLine?_of_not_mem {text : List Char} (absent : '=' ∉ text) :
    variableLine? text = none := by
  unfold variableLine?
  split
  · rename_i rest
    have kept : '=' ∉ rest.dropWhile Text.isDigit := fun member =>
      absent (List.mem_cons_of_mem _ (List.mem_cons_of_mem _ (List.mem_cons_of_mem _
        ((List.dropWhile_suffix _).subset member))))
    simp only [numeralAfterEquals?_of_not_mem kept, Option.map_none, ite_self]
  · rfl

theorem attributeLine?_of_not_mem {text : List Char} (absent : '=' ∉ text) :
    attributeLine? text = none := by
  have kept : '=' ∉ text.dropWhile Text.isWordChar := fun member =>
    absent ((List.dropWhile_suffix _).subset member)
  simp only [attributeLine?, numeralAfterEquals?_of_not_mem kept, Option.map_none, ite_self]

theorem startLabel?_titleTail (positive : entry ≠ 0) :
    startLabel? (titleTail entry) = some (entry : Int) := by
  have blank : (titleTail entry).dropWhile Text.isBlank =
      "(Execution starts at #".toList ++ (Text.hexCapital 2 entry ++ [')']) := by
    unfold titleTail
    rw [if_neg positive, List.append_assoc]
    rfl
  have digits : (Text.hexCapital 2 entry ++ [')']).takeWhile Text.isHexDigit =
      Text.hexCapital 2 entry :=
    Token.takeWhile_append_stop (Text.all_isHexDigit_hexCapital 2 entry)
      (forall_mem_of_all_option (by decide))
  have filled : (Text.hexCapital 2 entry).isEmpty = false := by
    simpa using Text.hexCapital_ne_nil 2 entry
  simp only [startLabel?, blank, List.isPrefixOf_iff_prefix, List.prefix_append, if_true,
    List.drop_left, digits, filled, Bool.not_false, beq_self_eq_true, Bool.and_self,
    Text.hexDigitsValue_hexCapital]

theorem scriptLine?_title (filled : name ≠ [])
    (letters : ∀ c ∈ name, Text.isNameChar c = true) :
    scriptLine? (name ++ titleTail entry) = some (String.ofList name, titleLabel entry) := by
  have full (c : Char) (member : c ∈ name) : (!Text.isBlank c) = true := by
    rw [Text.isBlank_of_isNameChar (letters c member)]
    rfl
  have stops : ∀ c ∈ (titleTail entry).head?, (!Text.isBlank c) = false := by
    unfold titleTail
    split
    · exact fun c none => by cases none
    · exact fun c first => by cases first; decide
  have front : (name ++ titleTail entry).takeWhile (!Text.isBlank ·) = name :=
    Token.takeWhile_append_stop (List.all_eq_true.mpr full) stops
  have back : (name ++ titleTail entry).dropWhile (!Text.isBlank ·) = titleTail entry := by
    rw [List.dropWhile_append_of_pos full]
    cases tail : titleTail entry with
    | nil => rfl
    | cons c rest =>
      rw [List.dropWhile_cons, if_neg]
      rw [stops c (tail ▸ rfl)]
      decide
  have brace (mark : Char) (other : isTitleChar mark = false) :
      (name ++ titleTail entry == [mark]) = false := by
    refine beq_eq_false_iff_ne.mpr fun same => ?_
    exact not_mem_title letters other (same ▸ List.mem_cons_self)
  have named : name.isEmpty = false := by simpa using filled
  simp only [scriptLine?, front, back, named, brace '\x7b' (by decide), brace '\x7d' (by decide),
    Bool.or_self, Bool.false_eq_true, if_false]
  by_cases start : entry = 0
  · simp [titleTail, titleLabel, start]
  · rw [if_neg, startLabel?_titleTail start, titleLabel, if_neg start]
    · rfl
    · unfold titleTail
      rw [if_neg start]
      exact Bool.false_ne_true

end Titles

/-! ### Reading a text -/

/-- Lines are cleaned one by one, whatever numbers they have. -/
theorem exists_clean_lines {symbols : Symbols} {numbered : List (Nat × List Char)}
    {texts : List (List Char)}
    (cleaned : (numbered.map Prod.snd).mapM (cleanLine symbols) = .ok texts) :
    ∃ lines, numbered.mapM (fun (number, line) => ScriptLine.clean symbols number line) =
      .ok lines ∧ lines.map ScriptLine.text = texts := by
  induction numbered generalizing texts with
  | nil =>
    cases cleaned
    exact ⟨[], rfl, rfl⟩
  | cons first rest inductionHypothesis =>
    obtain ⟨text, others, here, there, rfl⟩ := mapM_cons_eq_ok.mp cleaned
    obtain ⟨lines, read, same⟩ := inductionHypothesis there
    have clean : ScriptLine.clean symbols first.1 first.2 =
        .ok ⟨⟨first.1, String.ofList first.2⟩, text⟩ := by
      rw [ScriptLine.clean, here]
      rfl
    exact ⟨_ :: lines, mapM_cons_eq_ok.mpr ⟨_, _, clean, read, rfl⟩, congrArg (text :: ·) same⟩

/-- Lines that are joined to a text are cut apart and cleaned again. -/
theorem Cleans.cleanText {symbols : Symbols} {lines : List String} {last : String}
    {texts : List (List Char)} (cleans : Cleans symbols (lines ++ [last]) texts)
    (filled : last ≠ "") :
    ∃ all, MapScript.cleanText symbols ("\n".intercalate (lines ++ [last])).toList = .ok all ∧
      (all.filter fun line => !line.text.isEmpty).map ScriptLine.text = texts := by
  obtain ⟨cleaned, cleanedOk, kept⟩ := cleans.cleaned
  have cut : Text.splitLines ("\n".intercalate (lines ++ [last])).toList =
      (lines ++ [last]).map String.toList := by
    rw [String.toList_intercalate, List.map_append]
    refine Text.splitLines_intercalate (fun line member => ?_)
      (fun none => filled (String.toList_eq_nil_iff.mp none))
    rw [← List.map_singleton, ← List.map_append] at member
    obtain ⟨given, inside, rfl⟩ := List.mem_map.mp member
    exact cleans.unbroken given inside
  have lettersOk : ((lines ++ [last]).map String.toList).mapM (cleanLine symbols) = .ok cleaned := by
    rw [List.mapM_map]
    exact cleanedOk
  rw [← Text.snd_numbered ((lines ++ [last]).map String.toList)] at lettersOk
  obtain ⟨all, allOk, same⟩ := exists_clean_lines lettersOk
  refine ⟨all, ?_, ?_⟩
  · rw [MapScript.cleanText, cut, allOk]
  · rw [← kept, ← same, List.filter_map]
    rfl

/-- A title and a block in braces are read as one script. -/
theorem readScripts_single {program : Program} {lines : List ScriptLine}
    {inner : List (List Char)} {body : Block} (filled : program.name ≠ "")
    (letters : ∀ c ∈ program.name.toList, Text.isNameChar c = true)
    (texts : lines.map ScriptLine.text =
      (program.name.toList ++ titleTail program.entry) :: ['\x7b'] :: inner)
    (recovers : ∀ found : List ScriptLine, found.map ScriptLine.text = inner →
      Recovers program.name found body []) :
    ∃ read, readScripts lines.length .empty lines = .ok [read] ∧ read.name = program.name ∧
      read.startLabel = titleLabel program.entry ∧ read.attributes = [] ∧
      read.body.forget = body := by
  obtain ⟨title, others, rfl, titled, texts⟩ := List.map_eq_cons_iff.mp texts
  obtain ⟨opening, found, rfl, opens, innerTexts⟩ := List.map_eq_cons_iff.mp texts
  obtain ⟨read, readOk, same⟩ := recovers found innerTexts found.length (Nat.le_refl _)
  have noEquals : '=' ∉ program.name.toList ++ titleTail program.entry :=
    not_mem_title letters (by decide)
  have named : scriptLine? title.text = some (program.name, titleLabel program.entry) := by
    rw [titled, scriptLine?_title (fun none => filled (String.toList_eq_nil_iff.mp none)) letters,
      String.ofList_toList]
  refine ⟨⟨program.name, titleLabel program.entry, read, [], .empty, title.origin⟩, ?_, rfl, rfl,
    rfl, same⟩
  rw [List.length_cons, readScripts, if_neg (by rw [titled, isPreamble_title letters]; decide),
    show variableLine? title.text = none from titled ▸ variableLine?_of_not_mem noEquals,
    show attributeLine? title.text = none from titled ▸ attributeLine?_of_not_mem noEquals, named]
  simp only [takeOpen, if_pos opens, ok_bind, readOk]
  rfl

section Listings

variable {reading : Reading} {script : Script}

theorem Script.cleans_listed (legible : reading.symbols.Legible)
    (few : reading.program.strings.length < Bytes.range 4) (labels : Registry Int Nat)
    (filled : reading.program.name ≠ "")
    (letters : ∀ c ∈ reading.program.name.toList, Text.isNameChar c = true)
    (spelled : script.body.Legible reading.symbols) (marks : List Nat) :
    Cleans reading.symbols
      (Listing.titleLine reading.program :: Listing.openBrace 0 ::
        script.body.layout reading labels marks 0 1 ++
          endLines marks reading.program.code.length)
      ((reading.program.name.toList ++ titleTail reading.program.entry) :: ['\x7b'] ::
        (script.body.sheet reading labels marks 0 ++
          (markSheet marks reading.program.code.length ++ [['\x7d']]))) := by
  have body := Block.cleans_layout legible few labels marks script.body spelled.shaped
    spelled.spelled 0 1
  have tail : Cleans reading.symbols (endLines marks reading.program.code.length) _ :=
    (cleans_markLines marks 1 reading.program.code.length).append (cleans_closeBrace 0)
  exact (cleans_titleLine filled letters).append ((cleans_openBrace 0).append (body.append tail))

/-- The text of a listing is read as one script. Its labels are the addresses that the
listing marks, its statements are those of the script that was listed. -/
theorem Script.parse_listed (legible : reading.symbols.Legible)
    (few : reading.program.strings.length < Bytes.range 4) (labels : Registry Int Nat)
    (filled : reading.program.name ≠ "")
    (letters : ∀ c ∈ reading.program.name.toList, Text.isNameChar c = true)
    (spelled : script.body.Legible reading.symbols) :
    ∃ read, Script.parse reading.symbols ("\n".intercalate
        ((script.listed reading labels).render reading.program)).toList = .ok [read] ∧
      read.name = reading.program.name ∧
      read.startLabel = titleLabel reading.program.entry ∧ read.attributes = [] ∧
      read.body.forget = Block.relisted reading labels (script.listed reading labels).labels 0
        (markBlock (script.listed reading labels).labels reading.program.code.length .nil)
        script.body := by
  have cleans := cleans_listed legible few labels filled letters spelled
    (script.listed reading labels).labels
  rw [← render_listed] at cleans
  obtain ⟨front, last, split, braced⟩ : ∃ front last,
      (script.listed reading labels).render reading.program = front ++ [last] ∧ last ≠ "" := by
    rw [render_listed, endLines, ← List.append_assoc]
    exact ⟨_, _, rfl, by decide⟩
  rw [split] at cleans ⊢
  obtain ⟨all, allOk, texts⟩ := cleans.cleanText braced
  obtain ⟨read, readOk, parts⟩ := readScripts_single filled letters texts fun found same => by
    obtain ⟨inside, tail, rfl, insideTexts, tailTexts⟩ := List.map_eq_append_iff.mp same
    obtain ⟨marked, closing, rfl, markTexts, closingTexts⟩ := List.map_eq_append_iff.mp tailTexts
    obtain ⟨line, none, rfl, closes, nothing⟩ := List.map_eq_cons_iff.mp closingTexts
    cases List.map_eq_nil_iff.mp nothing
    exact Block.recovers legible few labels (script.listed reading labels).labels script.body
      spelled insideTexts ((Recovers.close closes).mark markTexts)
  refine ⟨read, ?_, parts⟩
  rw [parse, allOk, ok_bind, ofLines, readOk]

end Listings

end MapScript
