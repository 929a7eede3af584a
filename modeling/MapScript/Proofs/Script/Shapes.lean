/-
This file says what the statements that come out of text look like. Not every statement
that can be built is the reading of some line: clauses are joined by words, a statement
that is a term is a call or a literal, what is assigned to can be assigned to, and a
subroutine call has a label. What holds of the statement on every line holds of every
statement of a script, however deep its block is.
-/

import MapScript.Proofs.Attempt
import MapScript.Script.Source

namespace MapScript

/-! ### Properties of all statements -/

mutual

/-- A statement and the statements in its block have a property. -/
def Statement.Each (property : Statement → Prop) : Statement → Prop
  | .branch clauses body => property (.branch clauses body) ∧ body.Each property
  | .returnGuard value body => property (.returnGuard value body) ∧ body.Each property
  | other => property other

/-- The statements of a block and of the blocks in it have a property. -/
def Block.Each (property : Statement → Prop) : Block → Prop
  | .nil => True
  | .cons _ first rest => first.Each property ∧ rest.Each property

end

mutual

/-- Whether a statement and the statements in its block have a property. -/
def Statement.decideEach (property : Statement → Prop) [DecidablePred property] :
    (statement : Statement) → Decidable (statement.Each property)
  | .branch clauses body =>
    have := body.decideEach property
    inferInstanceAs (Decidable (property (.branch clauses body) ∧ body.Each property))
  | .returnGuard value body =>
    have := body.decideEach property
    inferInstanceAs (Decidable (property (.returnGuard value body) ∧ body.Each property))
  | .label goal => inferInstanceAs (Decidable (property (.label goal)))
  | .expression value => inferInstanceAs (Decidable (property (.expression value)))
  | .assign target formula => inferInstanceAs (Decidable (property (.assign target formula)))
  | .objectStep object reference step =>
    inferInstanceAs (Decidable (property (.objectStep object reference step)))
  | .jump kind goal => inferInstanceAs (Decidable (property (.jump kind goal)))
  | .word kind => inferInstanceAs (Decidable (property (.word kind)))
  | .anchor value => inferInstanceAs (Decidable (property (.anchor value)))
  | .taskPause goal => inferInstanceAs (Decidable (property (.taskPause goal)))
  | .bare => inferInstanceAs (Decidable (property .bare))

/-- Whether the statements of a block and of the blocks in it have a property. -/
def Block.decideEach (property : Statement → Prop) [DecidablePred property] :
    (block : Block) → Decidable (block.Each property)
  | .nil => isTrue trivial
  | .cons _ first rest =>
    have := first.decideEach property
    have := rest.decideEach property
    inferInstanceAs (Decidable (first.Each property ∧ rest.Each property))

end

instance (property : Statement → Prop) [DecidablePred property] (block : Block) :
    Decidable (block.Each property) :=
  block.decideEach property

theorem Statement.Each.self {property : Statement → Prop} {statement : Statement}
    (each : statement.Each property) : property statement := by
  cases statement with
  | branch clauses body => exact each.1
  | returnGuard value body => exact each.1
  | _ => exact each

mutual

theorem Statement.Each.combine {one other both : Statement → Prop}
    (implies : ∀ statement, one statement → other statement → both statement)
    {statement : Statement} (first : statement.Each one) (second : statement.Each other) :
    statement.Each both := by
  match statement with
  | .branch clauses body =>
    exact ⟨implies _ first.1 second.1, Block.Each.combine implies first.2 second.2⟩
  | .returnGuard value body =>
    exact ⟨implies _ first.1 second.1, Block.Each.combine implies first.2 second.2⟩
  | .label _ | .expression _ | .assign .. | .objectStep .. | .jump .. | .word _ | .anchor _
  | .taskPause _ | .bare => exact implies _ first second

/-- Two properties of all statements of a block give a third. -/
theorem Block.Each.combine {one other both : Statement → Prop}
    (implies : ∀ statement, one statement → other statement → both statement) {block : Block}
    (first : block.Each one) (second : block.Each other) : block.Each both := by
  match block with
  | .nil => trivial
  | .cons origin statement rest =>
    exact ⟨Statement.Each.combine implies first.1 second.1,
      Block.Each.combine implies first.2 second.2⟩

end

/-- What holds of the empty block and passes from a block to the same with a statement in
front holds of every block. -/
@[elab_as_elim] theorem Block.inductionOn {motive : Block → Prop} (block : Block)
    (nil : motive .nil)
    (cons : ∀ origin first rest, motive rest → motive (.cons origin first rest)) : motive block :=
  @Block.rec (fun _ => True) motive (fun _ => trivial) (fun _ => trivial) (fun _ _ => trivial)
    (fun _ _ _ => trivial) (fun _ _ _ => trivial) (fun _ _ _ => trivial) (fun _ _ => trivial)
    (fun _ => trivial) (fun _ => trivial) (fun _ => trivial) trivial nil
    (fun origin first rest _ holds => cons origin first rest holds) block

/-- The clauses of a condition are joined to each other: a word follows every one but the
last. -/
def Joined : List Clause → Prop
  | [] => False
  | [last] => last.conjunction = none
  | first :: second :: rest => first.conjunction.isSome = true ∧ Joined (second :: rest)

/-- What holds of a statement that comes out of text, its block left out of account. -/
def Statement.Shaped : Statement → Prop
  | .expression value => Reader.standsAlone value = true
  | .assign target _ => Reader.isTarget target = true
  | .branch clauses _ => Joined clauses
  | .jump kind goal => kind = .gosub → goal ≠ none
  | .bare => False
  | _ => True

/-- A statement as it is read from its line alone: it is shaped as what comes out of text, and
the block that follows on other lines is not there yet. -/
structure Statement.FromLine (statement : Statement) : Prop where
  shaped : statement.Shaped
  bodiless : statement.withBody .nil = statement

/-! ### Statements on lines -/

namespace Reader

variable {tokens rest : List Token}

theorem reject_ne_ok {α : Type} (fault : ScriptFault) (result : α × List Token) :
    (reject fault : Reader α).run tokens ≠ .ok result :=
  run_throw_ne_ok _ result

theorem joined_of_clauses {bound : Nat} {list : List Clause}
    (read : (clauses bound).run tokens = .ok (list, rest)) : Joined list := by
  induction bound generalizing tokens list with
  | zero => exact absurd read (reject_ne_ok _ _)
  | succ bound inductionHypothesis =>
    simp only [clauses, run_bind_eq_ok] at read
    obtain ⟨left, _, -, comparison, _, -, right, _, -, ended, _, -, read⟩ := read
    cases ended with
    | true =>
      cases run_pure_eq_ok.mp read
      rfl
    | false =>
      simp only [Bool.false_eq_true, if_false, run_bind_eq_ok] at read
      obtain ⟨conjunction, _, -, others, _, more, read⟩ := read
      cases run_pure_eq_ok.mp read
      have joined := inductionHypothesis more
      cases others with
      | nil => cases joined
      | cons second others => exact ⟨rfl, joined⟩

theorem fromLine_of_condition {bound : Nat} {statement : Statement}
    (read : (condition bound).run tokens = .ok (statement, rest)) : statement.FromLine := by
  simp only [condition, run_bind_eq_ok] at read
  obtain ⟨next, _, -, read⟩ := read
  split at read
  · simp only [run_bind_eq_ok] at read
    obtain ⟨_, _, -, _, _, -, value, _, -, _, _, -, read⟩ := read
    cases run_pure_eq_ok.mp read
    exact ⟨trivial, rfl⟩
  · simp only [run_bind_eq_ok] at read
    obtain ⟨list, _, listRead, read⟩ := read
    cases run_pure_eq_ok.mp read
    exact ⟨joined_of_clauses listRead, rfl⟩

theorem fromLine_of_jump {kind : JumpKind} {statement : Statement}
    (read : (jump kind).run tokens = .ok (statement, rest)) : statement.FromLine := by
  simp only [jump, run_bind_eq_ok] at read
  obtain ⟨ended, _, -, read⟩ := read
  cases ended with
  | true =>
    by_cases gosub : kind = .gosub
    · rw [if_pos rfl, if_pos gosub] at read
      exact absurd read (reject_ne_ok _ _)
    · rw [if_pos rfl, if_neg gosub] at read
      cases run_pure_eq_ok.mp read
      exact ⟨fun same => absurd same gosub, rfl⟩
  | false =>
    simp only [Bool.false_eq_true, if_false, run_bind_eq_ok] at read
    obtain ⟨token, _, -, _, _, -, read⟩ := read
    cases run_pure_eq_ok.mp read
    exact ⟨fun _ => Option.some_ne_none _, rfl⟩

theorem fromLine_of_statementTail {bound : Nat} {target : Term} {statement : Statement}
    (read : (statementTail bound target).run tokens = .ok (statement, rest)) :
    statement.FromLine := by
  simp only [statementTail, run_bind_eq_ok] at read
  obtain ⟨ended, _, -, read⟩ := read
  cases ended with
  | true =>
    cases alone : standsAlone target with
    | true =>
      rw [if_pos rfl, if_pos alone] at read
      cases run_pure_eq_ok.mp read
      exact ⟨alone, rfl⟩
    | false =>
      rw [if_pos rfl, if_neg (by rw [alone]; decide)] at read
      exact absurd read (reject_ne_ok _ _)
  | false =>
    simp only [Bool.false_eq_true, if_false, run_bind_eq_ok] at read
    obtain ⟨token, _, -, read⟩ := read
    split at read
    · simp only [run_bind_eq_ok] at read
      obtain ⟨_, _, -, read⟩ := read
      cases run_pure_eq_ok.mp read
      exact ⟨trivial, rfl⟩
    · split at read
      · rename_i assigns
        simp only [run_bind_eq_ok] at read
        obtain ⟨formula, _, -, _, _, -, read⟩ := read
        cases run_pure_eq_ok.mp read
        exact ⟨((Bool.and_eq_true _ _).mp assigns).2, rfl⟩
      · exact absurd read (reject_ne_ok _ _)

theorem fromLine_of_termStatement {bound : Nat} {statement : Statement}
    (read : (termStatement bound).run tokens = .ok (statement, rest)) : statement.FromLine := by
  simp only [termStatement, run_bind_eq_ok] at read
  obtain ⟨target, _, -, read⟩ := read
  exact fromLine_of_statementTail read

theorem fromLine_of_wordStatement {bound : Nat} {word : String} {statement : Statement}
    (read : (wordStatement bound word).run tokens = .ok (statement, rest)) :
    statement.FromLine := by
  unfold wordStatement at read
  split at read
  · simp only [run_bind_eq_ok] at read
    obtain ⟨_, _, -, read⟩ := read
    exact fromLine_of_condition read
  · split at read
    · simp only [run_bind_eq_ok] at read
      obtain ⟨_, _, -, read⟩ := read
      exact fromLine_of_jump read
    · simp only [run_bind_eq_ok] at read
      obtain ⟨_, _, -, _, _, -, read⟩ := read
      cases run_pure_eq_ok.mp read
      exact ⟨trivial, rfl⟩
    · exact fromLine_of_termStatement read

/-- What is read from the tokens of a line is a statement as it comes out of text. -/
theorem fromLine_of_statement {bound : Nat} {statement : Statement}
    (read : (Reader.statement bound).run tokens = .ok (statement, rest)) : statement.FromLine := by
  simp only [Reader.statement, run_bind_eq_ok] at read
  obtain ⟨found, _, -, read⟩ := read
  split at read
  · exact absurd read (reject_ne_ok _ _)
  · split at read
    · simp only [run_bind_eq_ok] at read
      obtain ⟨_, _, -, _, _, -, read⟩ := read
      cases run_pure_eq_ok.mp read
      exact ⟨trivial, rfl⟩
    · simp only [run_bind_eq_ok] at read
      obtain ⟨_, _, -, _, _, -, read⟩ := read
      cases run_pure_eq_ok.mp read
      exact ⟨trivial, rfl⟩
    · split at read
      · simp only [run_bind_eq_ok] at read
        obtain ⟨_, _, -, _, _, -, value, _, -, _, _, -, read⟩ := read
        cases run_pure_eq_ok.mp read
        exact ⟨trivial, rfl⟩
      · exact fromLine_of_termStatement read
    · split at read
      · exact fromLine_of_termStatement read
      · exact fromLine_of_wordStatement read
    · exact fromLine_of_termStatement read

end Reader

theorem Statement.parse_eq_ok {line : List Char} {statement : Statement}
    (parsed : Statement.parse line = .ok statement) :
    ∃ tokens rest, Token.cut line = .ok tokens ∧
      (Reader.statement tokens.length).run tokens = .ok (statement, rest) := by
  obtain ⟨tokens, cut, read⟩ := bind_eq_ok.mp parsed
  have read : (Prod.fst <$> (Reader.statement tokens.length).run tokens) = .ok statement := read
  cases whole : (Reader.statement tokens.length).run tokens with
  | error fault =>
    rw [whole] at read
    cases read
  | ok result =>
    rw [whole] at read
    cases read
    exact ⟨tokens, result.2, cut, whole⟩

theorem Statement.fromLine_of_parse {line : List Char} {statement : Statement}
    (parsed : Statement.parse line = .ok statement) : statement.FromLine := by
  obtain ⟨tokens, rest, -, read⟩ := parse_eq_ok parsed
  exact Reader.fromLine_of_statement read

/-! ### Statements of scripts -/

/-- A property of statements that does not depend on their blocks. -/
def BodyBlind (property : Statement → Prop) : Prop :=
  ∀ statement body, property statement → property (statement.withBody body)

theorem Statement.shaped_bodyBlind : BodyBlind Statement.Shaped := by
  intro statement body shaped
  cases statement <;> exact shaped

theorem Statement.each_withBody {property : Statement → Prop} (blind : BodyBlind property)
    {statement : Statement} {body : Block} (hasBody : statement.hasBody = true)
    (holds : property statement) (each : body.Each property) :
    (statement.withBody body).Each property := by
  have kept := blind statement body holds
  cases statement with
  | branch clauses other => exact ⟨kept, each⟩
  | returnGuard value other => exact ⟨kept, each⟩
  | _ => cases hasBody

theorem Statement.each_of_not_hasBody {property : Statement → Prop} {statement : Statement}
    (noBody : statement.hasBody = false) (holds : property statement) :
    statement.Each property := by
  cases statement with
  | branch clauses other => cases noBody
  | returnGuard value other => cases noBody
  | _ => exact holds

/-! ### Blocks and their lines -/

theorem takeOpen_eq_ok {owner : String} {lines inner : List ScriptLine}
    (taken : takeOpen owner lines = .ok inner) :
    ∃ opening, lines = opening :: inner ∧ opening.text = ['\x7b'] := by
  cases lines with
  | nil => cases taken
  | cons line rest =>
    rw [takeOpen] at taken
    split at taken
    · rename_i opens
      cases taken
      exact ⟨line, rfl, opens⟩
    · cases locating_eq_ok.mp taken

/-- Whether a line is one of the braces around a block. -/
def ScriptLine.IsBrace (line : ScriptLine) : Prop :=
  line.text = ['\x7b'] ∨ line.text = ['\x7d']

/-- Lines that make up a block, but for the braces around it: each line that is no brace holds a
statement, and the lines of a block inside stand in braces behind the line of its condition. -/
inductive Unfolds : List ScriptLine → Block → Prop where
  | nil : Unfolds [] .nil
  | single {line : ScriptLine} {lines : List ScriptLine} {statement : Statement} {others : Block}
      (plain : ¬line.IsBrace) (read : Statement.parse line.text = .ok statement)
      (noBody : statement.hasBody = false) (rest : Unfolds lines others) :
      Unfolds (line :: lines) (.cons (some line.origin) statement others)
  | nested {line opening closing : ScriptLine} {inner lines : List ScriptLine}
      {statement : Statement} {body others : Block} (plain : ¬line.IsBrace)
      (read : Statement.parse line.text = .ok statement) (hasBody : statement.hasBody = true)
      (opens : opening.text = ['\x7b']) (inside : Unfolds inner body)
      (closes : closing.text = ['\x7d']) (rest : Unfolds lines others) :
      Unfolds (line :: opening :: (inner ++ closing :: lines))
        (.cons (some line.origin) (statement.withBody body) others)

/-- What is read as a block is made up by the lines up to its closing brace. -/
theorem unfolds_of_readBlock {owner : String} {bound : Nat} {lines after : List ScriptLine}
    {block : Block} (read : readBlock owner bound lines = .ok (block, after)) :
    ∃ inner closing, lines = inner ++ closing :: after ∧ closing.text = ['\x7d'] ∧
      Unfolds inner block := by
  induction bound generalizing owner lines block after with
  | zero => cases read
  | succ bound inductionHypothesis =>
    cases lines with
    | nil => cases read
    | cons line rest =>
      rw [readBlock] at read
      split at read
      · rename_i closes
        cases read
        exact ⟨[], line, rfl, closes, .nil⟩
      · rename_i noClose
        split at read
        · cases locating_eq_ok.mp read
        · rename_i noOpen
          have plain : ¬line.IsBrace := not_or.mpr ⟨noOpen, noClose⟩
          obtain ⟨statement, parsed, read⟩ := bind_eq_ok.mp read
          have parsed := locating_eq_ok.mp parsed
          split at read
          · rename_i hasBody
            obtain ⟨behind, taken, within⟩ := bind_eq_ok.mp read
            obtain ⟨opening, rfl, opens⟩ := takeOpen_eq_ok taken
            obtain ⟨⟨body, left⟩, bodyRead, behindBody⟩ := bind_eq_ok.mp within
            obtain ⟨⟨others, remaining⟩, othersRead, whole⟩ := bind_eq_ok.mp behindBody
            cases whole
            obtain ⟨inner, closing, rfl, closes, inside⟩ := inductionHypothesis bodyRead
            obtain ⟨tail, last, rfl, ends, behind⟩ := inductionHypothesis othersRead
            refine ⟨line :: opening :: (inner ++ closing :: tail), last, ?_, ends,
              .nested plain parsed hasBody opens inside closes behind⟩
            simp only [List.cons_append, List.append_assoc]
          · rename_i noBody
            obtain ⟨⟨others, remaining⟩, othersRead, read⟩ := bind_eq_ok.mp read
            cases read
            obtain ⟨tail, last, rfl, ends, behind⟩ := inductionHypothesis othersRead
            exact ⟨line :: tail, last, rfl, ends,
              .single plain parsed (Bool.eq_false_iff.mpr noBody) behind⟩

/-- What holds of the statement on every line holds of every statement of the block that the
lines make up. -/
theorem Unfolds.each {property : Statement → Prop} (blind : BodyBlind property)
    {lines : List ScriptLine} {block : Block} (unfolds : Unfolds lines block)
    (holds : ∀ line ∈ lines, ∀ statement, Statement.parse line.text = .ok statement →
      property statement) : block.Each property := by
  induction unfolds with
  | nil => trivial
  | single plain read noBody rest restEach =>
    obtain ⟨here, later⟩ := List.forall_mem_cons.mp holds
    exact ⟨Statement.each_of_not_hasBody noBody (here _ read), restEach later⟩
  | nested plain read hasBody opens inside closes rest insideEach restEach =>
    obtain ⟨here, later⟩ := List.forall_mem_cons.mp holds
    obtain ⟨inner, behind⟩ := List.forall_mem_append.mp (List.forall_mem_cons.mp later).2
    exact ⟨Statement.each_withBody blind hasBody (here _ read) (insideEach inner),
      restEach (List.forall_mem_cons.mp behind).2⟩

/-- What is left behind a block are the last of its lines. -/
theorem suffix_of_readBlock {owner : String} {bound : Nat} {lines remaining : List ScriptLine}
    {block : Block} (read : readBlock owner bound lines = .ok (block, remaining)) :
    remaining <:+ lines := by
  obtain ⟨inner, closing, rfl, -, -⟩ := unfolds_of_readBlock read
  exact (List.suffix_cons closing remaining).trans (List.suffix_append inner _)

/-- What holds of the statement on every line holds of every statement of a block that is
read from the lines. -/
theorem readBlock_each {property : Statement → Prop} (blind : BodyBlind property)
    {owner : String} {bound : Nat} {lines remaining : List ScriptLine} {block : Block}
    (holds : ∀ line ∈ lines, ∀ statement, Statement.parse line.text = .ok statement →
      property statement)
    (read : readBlock owner bound lines = .ok (block, remaining)) : block.Each property := by
  obtain ⟨inner, closing, rfl, -, unfolds⟩ := unfolds_of_readBlock read
  exact unfolds.each blind (List.forall_mem_append.mp holds).1

theorem Preface.finish_eq_ok {preface : Preface} {scripts : List Script}
    (done : preface.finish = .ok scripts) : scripts = [] := by
  unfold finish at done
  split at done
  · cases done
    rfl
  · cases done

/-- What holds of every script with the name of a line and a block of the lines behind it
holds of all scripts that are read from the lines. -/
theorem readScripts_forall {property : Script → Prop} {bound : Nat} {preface : Preface}
    {lines : List ScriptLine} {scripts : List Script}
    (holds : ∀ line ∈ lines, ∀ inner, inner <:+ lines → ∀ script remaining,
      scriptLine? line.text = some (script.name, script.startLabel) →
      readBlock script.name inner.length inner = .ok (script.body, remaining) → property script)
    (read : readScripts bound preface lines = .ok scripts) : ∀ script ∈ scripts, property script := by
  induction bound generalizing preface lines scripts with
  | zero =>
    rw [Preface.finish_eq_ok read]
    exact fun _ member => absurd member List.not_mem_nil
  | succ bound inductionHypothesis =>
    cases lines with
    | nil =>
      rw [Preface.finish_eq_ok read]
      exact fun _ member => absurd member List.not_mem_nil
    | cons line rest =>
      have later {others : List ScriptLine} (suffix : others <:+ line :: rest) : ∀ line ∈ others,
          ∀ inner, inner <:+ others → ∀ script remaining,
          scriptLine? line.text = some (script.name, script.startLabel) →
          readBlock script.name inner.length inner = .ok (script.body, remaining) →
          property script := fun line member inner inside =>
        holds line (suffix.subset member) inner (inside.trans suffix)
      have behind := List.suffix_cons line rest
      rw [readScripts] at read
      split at read
      · exact inductionHypothesis (later behind) read
      · split at read
        · obtain ⟨value, -, read⟩ := bind_eq_ok.mp read
          obtain ⟨index, -, read⟩ := bind_eq_ok.mp read
          exact inductionHypothesis (later behind) read
        · split at read
          · obtain ⟨value, -, read⟩ := bind_eq_ok.mp read
            exact inductionHypothesis (later behind) read
          · split at read
            · cases locating_eq_ok.mp read
            · rename_i name startLabel titled
              obtain ⟨inner, taken, inside⟩ := bind_eq_ok.mp read
              obtain ⟨brace, rfl, -⟩ := takeOpen_eq_ok taken
              obtain ⟨⟨body, after⟩, bodyRead, behindBody⟩ := bind_eq_ok.mp inside
              obtain ⟨others, othersRead, whole⟩ := bind_eq_ok.mp behindBody
              cases whole
              have innerBehind := (List.suffix_cons brace inner).trans behind
              have suffix := suffix_of_readBlock bodyRead
              intro script member
              rcases List.mem_cons.mp member with rfl | member
              · exact holds line List.mem_cons_self inner innerBehind _ after titled bodyRead
              · exact inductionHypothesis (later (suffix.trans innerBehind)) othersRead script member

/-- What holds of the statement on every line holds of every statement of the scripts that
are read from the lines. -/
theorem readScripts_each {property : Statement → Prop} (blind : BodyBlind property) {bound : Nat}
    {preface : Preface} {lines : List ScriptLine} {scripts : List Script}
    (holds : ∀ line ∈ lines, ∀ statement, Statement.parse line.text = .ok statement →
      property statement)
    (read : readScripts bound preface lines = .ok scripts) :
    ∀ script ∈ scripts, script.body.Each property :=
  readScripts_forall (fun _ _ _ suffix _ _ _ bodyRead =>
    readBlock_each blind (fun line member => holds line (suffix.subset member)) bodyRead) read

/-- What holds of the statement on every line of a file holds of every statement of its
scripts. -/
theorem Script.parse_each {property : Statement → Prop} (blind : BodyBlind property)
    {symbols : Symbols} {text : List Char} {scripts : List Script}
    (holds : ∀ lines, cleanText symbols text = .ok lines → ∀ line ∈ lines, ∀ statement,
      Statement.parse line.text = .ok statement → property statement)
    (parsed : Script.parse symbols text = .ok scripts) :
    ∀ script ∈ scripts, script.body.Each property := by
  obtain ⟨lines, cleaned, read⟩ := bind_eq_ok.mp parsed
  refine readScripts_each blind ?_ read
  exact fun line member => holds lines cleaned line (List.mem_filter.mp member).1

/-- The name in a script line is all that stands in front of its first blank. -/
theorem name_of_scriptLine? {text : List Char} {name : String} {startLabel : Option Int}
    (titled : scriptLine? text = some (name, startLabel)) :
    name.toList = text.takeWhile (!Text.isBlank ·) ∧ name.toList ≠ [] := by
  simp only [scriptLine?] at titled
  split at titled
  · cases titled
  · rename_i filled
    have named : String.ofList (text.takeWhile (!Text.isBlank ·)) = name := by
      split at titled
      · exact congrArg Prod.fst (Option.some.inj titled)
      · obtain ⟨label, -, same⟩ := Option.map_eq_some_iff.mp titled
        exact congrArg Prod.fst same
    rw [← named, String.toList_ofList]
    refine ⟨rfl, fun empty => filled ?_⟩
    rw [empty]
    rfl

/-- Every script has a name, and there is no blank in it. -/
theorem Script.name_of_parse {symbols : Symbols} {text : List Char} {scripts : List Script}
    (parsed : Script.parse symbols text = .ok scripts) :
    ∀ script ∈ scripts, script.name ≠ "" ∧ ∀ c ∈ script.name.toList, Text.isBlank c = false := by
  obtain ⟨lines, -, read⟩ := bind_eq_ok.mp parsed
  refine readScripts_forall (fun line _ _ _ script _ titled _ => ?_) read
  obtain ⟨named, filled⟩ := name_of_scriptLine? titled
  refine ⟨fun empty => filled (String.toList_eq_nil_iff.mpr empty), fun c member => ?_⟩
  rw [named] at member
  simpa using List.all_eq_true.mp List.all_takeWhile c member

theorem Script.name_ne_empty_of_parse {symbols : Symbols} {text : List Char}
    {scripts : List Script} (parsed : Script.parse symbols text = .ok scripts) :
    ∀ script ∈ scripts, script.name ≠ "" :=
  fun script member => (name_of_parse parsed script member).1

theorem Script.shaped_of_parse {symbols : Symbols} {text : List Char} {scripts : List Script}
    (parsed : Script.parse symbols text = .ok scripts) :
    ∀ script ∈ scripts, script.body.Each Statement.Shaped :=
  parse_each Statement.shaped_bodyBlind
    (fun _ _ _ _ _ statementParsed => (Statement.fromLine_of_parse statementParsed).shaped) parsed

/-- A text is read as one script if that can be tested. -/
theorem Script.exists_single_of_any {symbols : Symbols} {text : List Char} {test : Script → Bool}
    (passes : (Script.parse symbols text).toOption.any
      (fun scripts => scripts.length == 1 && scripts.all test) = true) :
    ∃ script, Script.parse symbols text = .ok [script] ∧ test script = true := by
  obtain ⟨scripts, parsed, checked⟩ := exists_ok_of_any passes
  obtain ⟨alone, checked⟩ := Bool.and_eq_true_iff.mp checked
  obtain ⟨script, rfl⟩ := List.length_eq_one_iff.mp (beq_iff_eq.mp alone)
  exact ⟨script, parsed, List.all_eq_true.mp checked script List.mem_cons_self⟩

end MapScript
