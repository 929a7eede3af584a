/-
This file reads script files that are put together from parts. Reading goes through the
texts of the lines once and keeps nothing of a script that is done, so that what follows a
script is read as if it stood alone, and what stands in front of it is read as before. A
text that was read as one script is therefore read as that script wherever it stands, with
the variable and attribute lines in front of it.
-/

import MapScript.Proofs.Script.Sifted

namespace MapScript

/-! ### Lines without places -/

/-- A line with a text that stands nowhere. -/
def ScriptLine.bare (text : List Char) : ScriptLine := ⟨⟨0, ""⟩, text⟩

theorem map_text_bare (texts : List (List Char)) :
    (texts.map ScriptLine.bare).map ScriptLine.text = texts := by
  rw [List.map_map]
  exact List.map_id _

theorem Agree.exists_ok {α γ : Type} {view : α → γ} {first second : Except Fault α} {one : α}
    (agree : Agree view first second) (done : first = .ok one) :
    ∃ two, second = .ok two ∧ view one = view two := by
  subst done
  cases second with
  | error fault => cases agree
  | ok two => exact ⟨two, rfl, Option.some.inj agree⟩

theorem Agree.symm {α γ : Type} {view : α → γ} {first second : Except Fault α}
    (agree : Agree view first second) : Agree view second first :=
  Eq.symm agree

/-- A text is read as the lines with its sifted texts are. -/
theorem Script.agree_parse_bare {symbols : Symbols} {text : List Char} {texts : List (List Char)}
    (sifted : siftText symbols text = some texts) :
    Agree (List.map Script.forget) (Script.parse symbols text)
      (readScripts texts.length .empty (texts.map ScriptLine.bare)) := by
  rw [← toOption_cleanText] at sifted
  unfold Script.parse
  cases cleaned : cleanText symbols text with
  | error fault =>
    rw [cleaned] at sifted
    cases sifted
  | ok lines =>
    rw [cleaned] at sifted
    have kept : filledTexts lines = texts := Option.some.inj sifted
    have length := congrArg List.length kept
    rw [filledTexts, List.length_map] at length
    rw [ok_bind, ofLines, length]
    exact agree_readScripts (kept.trans (map_text_bare texts).symm) ⟨rfl, rfl⟩

/-- A text that is read at all is read so from its sifted texts. -/
theorem Script.exists_reread {symbols : Symbols} {text : List Char} {scripts : List Script}
    (parsed : Script.parse symbols text = .ok scripts) :
    ∃ texts reads, siftText symbols text = some texts ∧
      readScripts texts.length .empty (texts.map ScriptLine.bare) = .ok reads ∧
      reads.map Script.forget = scripts.map Script.forget := by
  obtain ⟨lines, cleaned, -⟩ := bind_eq_ok.mp parsed
  have sifted : siftText symbols text = some (filledTexts lines) := by
    rw [← toOption_cleanText, cleaned]
    rfl
  obtain ⟨reads, read, same⟩ := (agree_parse_bare sifted).exists_ok parsed
  exact ⟨_, reads, sifted, read, same.symm⟩

/-! ### Reading on -/

/-- After the lines of a preface, lines with these texts are read as these scripts. -/
def ReadsAs (preface : Preface) (texts : List (List Char)) (scripts : List Script) : Prop :=
  ∀ bound, texts.length ≤ bound →
    readScripts bound preface (texts.map ScriptLine.bare) = .ok scripts

namespace ReadsAs

variable {preface : Preface} {text : List Char} {texts : List (List Char)}
  {scripts : List Script}

theorem nil : ReadsAs .empty [] [] := by
  intro bound _
  cases bound with
  | zero => rfl
  | succ bound => rfl

theorem cons (step : ∀ bound, texts.length ≤ bound →
      readScripts (bound + 1) preface (.bare text :: texts.map ScriptLine.bare) = .ok scripts) :
    ReadsAs preface (text :: texts) scripts := by
  intro bound enough
  match bound, enough with
  | bound + 1, enough => exact step bound (Nat.le_of_succ_le_succ enough)

/-- A line that says which map this is makes no difference. -/
theorem preamble (skipped : isPreamble text = true) (rest : ReadsAs preface texts scripts) :
    ReadsAs preface (text :: texts) scripts := by
  refine cons fun bound enough => ?_
  rw [readScripts, if_pos (show isPreamble (ScriptLine.bare text).text = true from skipped)]
  exact rest bound enough

/-- A variable line goes to the script that follows. -/
theorem variableLine {digits numeral : List Char} {place value : Int}
    (other : isPreamble text = false) (line : variableLine? text = some (digits, numeral))
    (placed : readNumeral digits = .ok place) (given : readNumeral numeral = .ok value)
    (range : -0x80000000 ≤ value ∧ value < 0x80000000)
    (rest : ReadsAs { preface with locals := preface.locals.put place value } texts scripts) :
    ReadsAs preface (text :: texts) scripts := by
  refine cons fun bound enough => ?_
  have read : readVariable (ScriptLine.bare text).origin numeral = .ok value := by
    rw [readVariable, given, ok_bind, if_pos range]
    rfl
  rw [readScripts, show isPreamble (ScriptLine.bare text).text = false from other,
    show variableLine? (ScriptLine.bare text).text = _ from line]
  simp only [Bool.false_eq_true, if_false, read, ok_bind, placed]
  exact rest bound enough

/-- An attribute line goes to the script that follows. -/
theorem attributeLine {name numeral : List Char} {value : Int}
    (other : isPreamble text = false) (noVariable : variableLine? text = none)
    (line : attributeLine? text = some (name, numeral))
    (given : readNumeral numeral = .ok value)
    (rest : ReadsAs
      { preface with attributes := preface.attributes ++ [⟨String.ofList name, value, ⟨0, ""⟩⟩] }
      texts scripts) :
    ReadsAs preface (text :: texts) scripts := by
  refine cons fun bound enough => ?_
  rw [readScripts, show isPreamble (ScriptLine.bare text).text = false from other,
    show variableLine? (ScriptLine.bare text).text = none from noVariable,
    show attributeLine? (ScriptLine.bare text).text = _ from line]
  simp only [Bool.false_eq_true, if_false, given, ok_bind]
  exact rest bound enough

end ReadsAs

/-! ### Blocks -/

theorem takeOpen_append {owner : String} {lines inner : List ScriptLine}
    (taken : takeOpen owner lines = .ok inner) (behind : List ScriptLine) :
    takeOpen owner (lines ++ behind) = .ok (inner ++ behind) := by
  cases lines with
  | nil => cases taken
  | cons line rest =>
    rw [takeOpen] at taken
    rw [List.cons_append, takeOpen]
    split at taken
    · rename_i opens
      cases taken
      rw [if_pos opens]
    · cases locating_eq_ok.mp taken

/-- A block ends with its brace, whatever follows. -/
theorem readBlock_append {owner : String} {bound larger : Nat} {lines after : List ScriptLine}
    {block : Block} (read : readBlock owner bound lines = .ok (block, after))
    (enough : bound ≤ larger) (behind : List ScriptLine) :
    readBlock owner larger (lines ++ behind) = .ok (block, after ++ behind) := by
  induction bound generalizing owner larger lines block after with
  | zero => cases read
  | succ bound inductionHypothesis =>
    match larger, enough with
    | larger + 1, enough =>
    have enough := Nat.le_of_succ_le_succ enough
    cases lines with
    | nil => cases read
    | cons line rest =>
      rw [readBlock] at read
      rw [List.cons_append, readBlock]
      split at read
      · rename_i closes
        cases read
        rw [if_pos closes]
      · rename_i noClose
        rw [if_neg noClose]
        split at read
        · cases locating_eq_ok.mp read
        · rename_i noOpen
          rw [if_neg noOpen]
          obtain ⟨statement, parsed, read⟩ := bind_eq_ok.mp read
          rw [parsed, ok_bind]
          split at read
          · rename_i hasBody
            rw [if_pos hasBody]
            obtain ⟨inner, taken, read⟩ := bind_eq_ok.mp read
            obtain ⟨⟨body, left⟩, bodyRead, read⟩ := bind_eq_ok.mp read
            obtain ⟨⟨others, remaining⟩, othersRead, read⟩ := bind_eq_ok.mp read
            cases read
            rw [takeOpen_append taken, ok_bind, inductionHypothesis bodyRead enough, ok_bind]
            dsimp only
            rw [inductionHypothesis othersRead enough]
            rfl
          · rename_i noBody
            rw [if_neg noBody]
            obtain ⟨⟨others, remaining⟩, othersRead, read⟩ := bind_eq_ok.mp read
            cases read
            rw [inductionHypothesis othersRead enough]
            rfl

/-! ### Titles -/

/-- Whether a line may stand between scripts. -/
def IsBetween (text : List Char) : Prop :=
  isPreamble text = true ∨ variableLine? text ≠ none ∨ attributeLine? text ≠ none

/-- A title and the block behind it are read as a script with the lines that came before, if
the lines behind the block can be read. -/
theorem readScripts_title {bound : Nat} {preface : Preface} {line : ScriptLine}
    {rest inner after : List ScriptLine} {name : String} {startLabel : Option Int} {body : Block}
    {others : List Script} (other : ¬IsBetween line.text)
    (titled : scriptLine? line.text = some (name, startLabel))
    (taken : takeOpen name rest = .ok inner)
    (bodyRead : readBlock name inner.length inner = .ok (body, after))
    (othersRead : readScripts bound .empty after = .ok others) :
    readScripts (bound + 1) preface (line :: rest) =
      .ok (⟨name, startLabel, body, preface.attributes, preface.locals, line.origin⟩ ::
        others) := by
  have noVariable := Classical.not_not.mp fun found => other (.inr (.inl found))
  have noAttribute := Classical.not_not.mp fun found => other (.inr (.inr found))
  rw [readScripts, if_neg fun skipped => other (.inl skipped)]
  simp only [noVariable, noAttribute, titled, taken, ok_bind, bodyRead, othersRead]
  rfl

/-! ### Texts that are one script -/

/-- Texts that make up one script: a title, and a block in braces that takes in all of
them. -/
structure MakesUp (texts : List (List Char)) (name : String) (startLabel : Option Int)
    (body : Block) : Prop where
  parts : ∃ title inner, texts = title :: ['\x7b'] :: inner ∧ isPreamble title = false ∧
    variableLine? title = none ∧ attributeLine? title = none ∧
    scriptLine? title = some (name, startLabel) ∧
    readBlock name inner.length (inner.map ScriptLine.bare) = .ok (body, [])

/-- Texts that make up one script are read as it in front of all others; it is given the
lines that came before it. -/
theorem MakesUp.readsAs {texts behind : List (List Char)} {name : String}
    {startLabel : Option Int} {body : Block} {scripts : List Script}
    (makes : MakesUp texts name startLabel body) (preface : Preface)
    (rest : ReadsAs .empty behind scripts) :
    ReadsAs preface (texts ++ behind)
      (⟨name, startLabel, body, preface.attributes, preface.locals, ⟨0, ""⟩⟩ :: scripts) := by
  obtain ⟨title, inner, rfl, other, noVariable, noAttribute, titled, read⟩ := makes.parts
  rw [List.cons_append, List.cons_append]
  refine ReadsAs.cons fun bound enough => ?_
  have shorter : inner.length ≤ ((inner ++ behind).map ScriptLine.bare).length := by
    rw [List.length_map, List.length_append]
    exact Nat.le_add_right _ _
  have inside := readBlock_append read shorter (behind.map ScriptLine.bare)
  rw [← List.map_append, List.nil_append] at inside
  have others : readScripts bound .empty (behind.map ScriptLine.bare) = .ok scripts := by
    refine rest bound (Nat.le_trans ?_ enough)
    rw [List.length_cons, List.length_append]
    omega
  have title : ¬IsBetween (ScriptLine.bare title).text := by
    rintro (skipped | found | found)
    · exact Bool.false_ne_true (other.symm.trans skipped)
    · exact found noVariable
    · exact found noAttribute
  exact readScripts_title title titled rfl inside others

/-! ### Texts that were read as one script -/

/-- What reading does with a line: it stands between scripts and is kept for the next one or
skipped, whatever follows it, or it is the title of a script. -/
theorem readScripts_cases {bound : Nat} {preface : Preface} {line : ScriptLine}
    {rest : List ScriptLine} {scripts : List Script}
    (read : readScripts (bound + 1) preface (line :: rest) = .ok scripts) :
    (IsBetween line.text ∧ ∃ later, readScripts bound later rest = .ok scripts ∧
        ∀ limit behind, readScripts (limit + 1) preface (line :: behind) =
          readScripts limit later behind) ∨
      (¬IsBetween line.text ∧ ∃ name startLabel inner body after others,
        scriptLine? line.text = some (name, startLabel) ∧ takeOpen name rest = .ok inner ∧
        readBlock name inner.length inner = .ok (body, after) ∧
        readScripts bound .empty after = .ok others ∧
        scripts = ⟨name, startLabel, body, preface.attributes, preface.locals, line.origin⟩ ::
          others) := by
  rw [readScripts] at read
  split at read
  · rename_i skipped
    refine .inl ⟨.inl skipped, _, read, fun limit behind => ?_⟩
    rw [readScripts, if_pos skipped]
  · rename_i other
    split at read
    · rename_i found
      obtain ⟨value, given, read⟩ := bind_eq_ok.mp read
      obtain ⟨place, placed, read⟩ := bind_eq_ok.mp read
      refine .inl ⟨.inr (.inl (by rw [found]; exact Option.some_ne_none _)), _, read,
        fun limit behind => ?_⟩
      rw [readScripts, if_neg other]
      simp only [found, given, ok_bind, placed]
    · rename_i noVariable
      split at read
      · rename_i found
        obtain ⟨value, given, read⟩ := bind_eq_ok.mp read
        refine .inl ⟨.inr (.inr (by rw [found]; exact Option.some_ne_none _)), _, read,
          fun limit behind => ?_⟩
        rw [readScripts, if_neg other]
        simp only [noVariable, found, given, ok_bind]
      · rename_i noAttribute
        split at read
        · cases locating_eq_ok.mp read
        · rename_i name startLabel titled
          obtain ⟨inner, taken, read⟩ := bind_eq_ok.mp read
          obtain ⟨⟨body, after⟩, bodyRead, read⟩ := bind_eq_ok.mp read
          obtain ⟨others, othersRead, read⟩ := bind_eq_ok.mp read
          refine .inr ⟨?_, name, startLabel, inner, body, after, others, titled, taken, bodyRead,
            othersRead, (Except.ok.inj read).symm⟩
          rintro (skipped | some | some)
          · exact other skipped
          · exact some noVariable
          · exact some noAttribute

/-- Lines of which no script is read stand between scripts. -/
theorem isBetween_of_readScripts {bound : Nat} {preface : Preface} {lines : List ScriptLine}
    (enough : lines.length ≤ bound) (read : readScripts bound preface lines = .ok []) :
    ∀ line ∈ lines, IsBetween line.text := by
  induction bound generalizing preface lines with
  | zero =>
    rw [List.eq_nil_of_length_eq_zero (Nat.le_zero.mp enough)]
    exact fun _ member => absurd member List.not_mem_nil
  | succ bound inductionHypothesis =>
    cases lines with
    | nil => exact fun _ member => absurd member List.not_mem_nil
    | cons line rest =>
      rcases readScripts_cases read with ⟨between, later, read, -⟩ |
        ⟨-, _, _, _, _, _, _, -, -, -, -, none⟩
      · exact List.forall_mem_cons.mpr
          ⟨between, inductionHypothesis (Nat.le_of_succ_le_succ enough) read⟩
      · cases none

/-- A brace alone does not stand between scripts, and is no title. -/
theorem brace_alone {text : List Char} (brace : text = ['\x7b'] ∨ text = ['\x7d']) :
    ¬IsBetween text ∧ scriptLine? text = none := by
  unfold IsBetween
  rcases brace with rfl | rfl <;> decide +kernel

/-- No line but a title stands in front of a brace. -/
theorem readScripts_open_ne_ok (bound : Nat) (preface : Preface) (rest : List ScriptLine)
    (scripts : List Script) :
    readScripts (bound + 1) preface (.bare ['\x7b'] :: rest) ≠ .ok scripts := by
  intro read
  obtain ⟨other, noTitle⟩ := brace_alone (.inl rfl)
  rcases readScripts_cases read with ⟨between, -⟩ | ⟨-, _, _, _, _, _, _, titled, -⟩
  · exact other between
  · exact absurd (noTitle.symm.trans titled) (Option.some_ne_none _).symm

/-- A line and a block in braces that are read as one script make that script up: the line is
its title, and its block ends at the end, for no brace is left over. -/
theorem makesUp_of_readScripts {title : List Char} {inner : List (List Char)} {script : Script}
    (read : readScripts (title :: ['\x7b'] :: (inner ++ [['\x7d']])).length .empty
      ((title :: ['\x7b'] :: (inner ++ [['\x7d']])).map ScriptLine.bare) = .ok [script]) :
    MakesUp (title :: ['\x7b'] :: (inner ++ [['\x7d']])) script.name script.startLabel
      script.body := by
  rcases readScripts_cases read with ⟨-, later, read, -⟩ | ⟨other, name, startLabel, lines, body,
    after, others, titled, taken, bodyRead, othersRead, same⟩
  · exact absurd read (readScripts_open_ne_ok _ _ _ _)
  · have opened : lines = (inner ++ [['\x7d']]).map ScriptLine.bare := (Except.ok.inj taken).symm
    subst opened
    obtain ⟨rfl, rfl⟩ := List.cons.inj same
    have suffix := suffix_of_readBlock bodyRead
    have finished : after = [] := by
      refine Classical.byContradiction fun some => ?_
      have few : after.length ≤ (['\x7b'] :: (inner ++ [['\x7d']])).length := by
        have length := suffix.length_le
        rw [List.length_map] at length
        rw [List.length_cons]
        omega
      have last : ScriptLine.bare ['\x7d'] ∈ after := by
        obtain ⟨front, split⟩ := suffix
        obtain ⟨most, final, rfl⟩ := List.eq_nil_or_concat after |>.resolve_left some
        rw [List.map_append, List.concat_eq_append, ← List.append_assoc] at split
        rw [List.concat_eq_append, (List.append_inj_right' split rfl :)]
        exact List.mem_append_right _ List.mem_cons_self
      exact (brace_alone (.inr rfl)).1
        (isBetween_of_readScripts few othersRead _ last)
    rw [finished, List.length_map] at bodyRead
    have noVariable := fun found => other (.inr (.inl found))
    have noAttribute := fun found => other (.inr (.inr found))
    exact ⟨title, _, rfl, Bool.eq_false_iff.mpr fun skipped => other (.inl skipped),
      Classical.not_not.mp noVariable, Classical.not_not.mp noAttribute, titled, bodyRead⟩

end MapScript
