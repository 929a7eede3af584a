/-
This file says what reading makes of a script text depends on: the texts of its lines once
they are cleaned, without those that come out empty. Texts in which these agree are read
alike, or both cannot be read; only the lines that are recorded with what was read differ.
So a comment at the end of a text makes no difference, unless it breaks the line, or closes a
quote that the line leaves open.
-/

import MapScript.Proofs.Listing.Recovered
import MapScript.Proofs.Script.Comments

namespace MapScript

/-! ### Gathering -/

section Gathering

variable {α β : Type} {parts : α → Option (List β)}

/-- All parts of the members of a list, if each member has some. -/
def gather (parts : α → Option (List β)) (list : List α) : Option (List β) :=
  (list.mapM parts).map List.flatten

theorem gather_cons (first : α) (rest : List α) :
    gather parts (first :: rest) =
      (parts first).bind fun front => (gather parts rest).map (front ++ ·) := by
  unfold gather
  rw [List.mapM_cons]
  cases parts first with
  | none => rfl
  | some front =>
    cases rest.mapM parts with
    | none => rfl
    | some others => rfl

theorem gather_append (first second : List α) :
    gather parts (first ++ second) =
      (gather parts first).bind fun front => (gather parts second).map (front ++ ·) := by
  induction first with
  | nil =>
    show _ = (gather parts second).map ([] ++ ·)
    rw [List.nil_append]
    exact Option.map_id'.symm
  | cons head rest inductionHypothesis =>
    rw [List.cons_append, gather_cons, gather_cons, inductionHypothesis]
    cases parts head with
    | none => rfl
    | some front =>
      cases gather parts rest with
      | none => rfl
      | some middle =>
        cases gather parts second with
        | none => rfl
        | some back => exact congrArg some (List.append_assoc front middle back).symm

theorem gather_singleton (only : α) : gather parts [only] = parts only := by
  rw [gather_cons]
  cases parts only with
  | none => rfl
  | some front => exact congrArg some (List.append_nil front)

theorem gather_congr {first second : List α} (same : first.map parts = second.map parts) :
    gather parts first = gather parts second := by
  have mapped (list : List α) : gather parts list = gather id (list.map parts) := by
    unfold gather
    rw [List.mapM_map]
    rfl
  rw [mapped, mapped, same]

end Gathering

/-! ### Cleaned texts -/

/-- The cleaned text of a line, unless it is empty. -/
def siftLine (symbols : Symbols) (line : List Char) : Option (List (List Char)) :=
  (cleanLine symbols line).toOption.map fun text => if text.isEmpty then [] else [text]

/-- The cleaned texts of the lines of a text, without the empty ones. -/
def siftText (symbols : Symbols) (text : List Char) : Option (List (List Char)) :=
  gather (siftLine symbols) (Text.splitLines text)

section Sifting

variable {symbols : Symbols}

theorem siftLine_nil : siftLine symbols [] = some [] := rfl

/-- A text behind a line feed is sifted on its own. -/
theorem siftText_append_feed (front back : List Char) :
    siftText symbols (front ++ '\n' :: back) =
      (siftText symbols front).bind fun one => (siftText symbols back).map (one ++ ·) := by
  have fed : gather (siftLine symbols) (Text.splitLines (front ++ ['\n'])) =
      gather (siftLine symbols) (Text.splitLines front) := by
    rcases Text.splitLines_feed front with same | more
    · rw [same]
    · rw [more, gather_append, gather_singleton, siftLine_nil]
      cases gather (siftLine symbols) (Text.splitLines front) with
      | none => rfl
      | some texts => exact congrArg some (List.append_nil texts)
  unfold siftText
  rw [Text.splitLines_append_feed, gather_append, fed]

/-- Parts that are joined to a text are sifted one by one, if what is put between them keeps
them apart. -/
theorem siftText_intercalate_of {separator : String}
    (parted : ∀ front back, siftText symbols (front ++ (separator.toList ++ back)) =
      (siftText symbols front).bind fun one => (siftText symbols back).map (one ++ ·))
    (parts : List String) :
    siftText symbols (separator.intercalate parts).toList =
      gather (fun part => siftText symbols part.toList) parts := by
  rw [String.toList_intercalate]
  induction parts with
  | nil => rfl
  | cons part rest inductionHypothesis =>
    rw [gather_cons, ← inductionHypothesis, List.map_cons]
    cases rest with
    | nil =>
      rw [List.map_nil, List.intercalate_singleton]
      cases siftText symbols part.toList with
      | none => rfl
      | some texts => exact congrArg some (List.append_nil texts).symm
    | cons next rest =>
      rw [List.map_cons, List.intercalate_cons_cons, ← parted, List.append_assoc]

/-- Lines that are joined to a text are sifted one by one. -/
theorem siftText_intercalate (lines : List String) :
    siftText symbols ("\n".intercalate lines).toList =
      gather (fun line => siftText symbols line.toList) lines :=
  siftText_intercalate_of siftText_append_feed lines

/-- A comment at the end of a text leaves no trace, unless it breaks the line or closes a
quote. -/
theorem siftText_append_comment {text comment : List Char} (unbroken : Text.Unbroken comment)
    (paired : '"' ∉ comment ∨ (Text.lastLine text).count '"' % 2 = 0) :
    siftText symbols (text ++ (" // ".toList ++ comment)) = siftText symbols text := by
  have mark : Text.Unbroken " // ".toList := forall_mem_of_all (by decide)
  obtain ⟨front, split, last⟩ :=
    Text.splitLines_append_unbroken (mark.append unbroken) (List.cons_ne_nil _ _) text
  have clean : siftLine symbols (Text.lastLine text ++ (" // ".toList ++ comment)) =
      siftLine symbols (Text.lastLine text) := by
    unfold siftLine
    rw [cleanLine_append_comment symbols paired]
  unfold siftText
  rw [split, gather_append, gather_singleton, clean]
  rcases last with same | ⟨none, same⟩
  · rw [same, gather_append, gather_singleton]
  · rw [same, none, siftLine_nil]
    cases gather (siftLine symbols) front with
    | none => rfl
    | some texts => exact congrArg some (List.append_nil texts)

end Sifting

/-! ### Attempts that agree -/

section Agreement

variable {α β γ δ : Type} {view : α → γ} {sight : β → δ}

/-- Attempts that both fail, or succeed with results that look alike. -/
def Agree (view : α → γ) (first second : Except Fault α) : Prop :=
  first.toOption.map view = second.toOption.map view

theorem Agree.ok {one two : α} (alike : view one = view two) : Agree view (.ok one) (.ok two) :=
  congrArg some alike

theorem Agree.bind {first second : Except Fault α} (agree : Agree view first second)
    {next later : α → Except Fault β}
    (following : ∀ one two, view one = view two → Agree sight (next one) (later two)) :
    Agree sight (first >>= next) (second >>= later) := by
  cases first with
  | error fault =>
    cases second with
    | error fault => rfl
    | ok two => cases agree
  | ok one =>
    cases second with
    | error fault => cases agree
    | ok two => exact following one two (Option.some.inj agree)

/-- One attempt, followed by attempts that agree. -/
theorem Agree.after (attempt : Except Fault α) {next later : α → Except Fault β}
    (following : ∀ value, Agree sight (next value) (later value)) :
    Agree sight (attempt >>= next) (attempt >>= later) := by
  cases attempt with
  | error fault => rfl
  | ok value => exact following value

/-- Where a fault is blamed makes no difference. -/
theorem Agree.locating {attempt : Except Fault α} (one two : Option Origin) :
    Agree view (MapScript.locating one attempt) (MapScript.locating two attempt) := by
  cases attempt with
  | error fault => rfl
  | ok value => rfl

end Agreement

/-! ### Lines and their texts -/

theorem toOption_clean (symbols : Symbols) (number : Nat) (line : List Char) :
    ((ScriptLine.clean symbols number line).toOption.map fun cleaned =>
      if cleaned.text.isEmpty then [] else [cleaned.text]) = siftLine symbols line := by
  unfold ScriptLine.clean siftLine
  cases cleanLine symbols line with
  | error fault => rfl
  | ok text => rfl

/-- The texts of the lines that are not empty. -/
def filledTexts (lines : List ScriptLine) : List (List Char) :=
  (lines.filter fun line => !line.text.isEmpty).map ScriptLine.text

theorem filledTexts_cons (line : ScriptLine) (rest : List ScriptLine) :
    filledTexts (line :: rest) =
      (if line.text.isEmpty then [] else [line.text]) ++ filledTexts rest := by
  unfold filledTexts
  rw [List.filter_cons]
  cases line.text.isEmpty with
  | true => rfl
  | false => rfl

theorem toOption_clean_lines {symbols : Symbols} (numbered : List (Nat × List Char)) :
    (numbered.mapM fun (number, line) => ScriptLine.clean symbols number line).toOption.map
      filledTexts = gather (siftLine symbols) (numbered.map Prod.snd) := by
  induction numbered with
  | nil => rfl
  | cons first rest inductionHypothesis =>
    obtain ⟨number, line⟩ := first
    rw [List.map_cons, gather_cons, ← inductionHypothesis, ← toOption_clean symbols number,
      List.mapM_cons]
    dsimp only
    cases ScriptLine.clean symbols number line with
    | error fault => rfl
    | ok cleaned =>
      generalize List.mapM (m := Except Fault) _ rest = others
      cases others with
      | error fault => rfl
      | ok lines => exact congrArg some (filledTexts_cons cleaned lines)

/-- Cleaning a text gives lines with the sifted texts. -/
theorem toOption_cleanText (symbols : Symbols) (text : List Char) :
    (cleanText symbols text).toOption.map filledTexts = siftText symbols text := by
  have whole := @toOption_clean_lines symbols
    ((Text.splitLines text).mapIdx fun place line => (place + 1, line))
  rwa [Text.snd_numbered] at whole

/-! ### Blocks -/

/-- What is seen of a block that was read and of the lines behind it. -/
def blockView (read : Block × List ScriptLine) : Block × List (List Char) :=
  (read.1.forget, read.2.map ScriptLine.text)

/-- Lines with the same texts are none on both sides, or begin with lines of one text. -/
theorem cases_sameTexts {lines others : List ScriptLine}
    (same : lines.map ScriptLine.text = others.map ScriptLine.text) :
    lines = [] ∧ others = [] ∨ ∃ first rest second remaining,
      lines = first :: rest ∧ others = second :: remaining ∧ first.text = second.text ∧
        rest.map ScriptLine.text = remaining.map ScriptLine.text := by
  cases lines with
  | nil => exact Or.inl ⟨rfl, List.map_eq_nil_iff.mp same.symm⟩
  | cons first rest =>
    obtain ⟨second, remaining, rfl, text, texts⟩ := List.map_eq_cons_iff.mp same.symm
    exact Or.inr ⟨first, rest, second, remaining, rfl, rfl, text.symm, texts.symm⟩

theorem agree_takeOpen {lines others : List ScriptLine}
    (same : lines.map ScriptLine.text = others.map ScriptLine.text) (owner other : String) :
    Agree (List.map ScriptLine.text) (takeOpen owner lines) (takeOpen other others) := by
  obtain ⟨rfl, rfl⟩ | ⟨first, rest, second, remaining, rfl, rfl, text, texts⟩ :=
    cases_sameTexts same
  · rfl
  · rw [takeOpen, takeOpen, text]
    split
    · exact .ok texts
    · rfl

theorem Statement.forget_withBody (statement : Statement) {one two : Block}
    (same : one.forget = two.forget) :
    (statement.withBody one).forget = (statement.withBody two).forget := by
  cases statement with
  | branch clauses body => exact congrArg (Statement.branch clauses) same
  | returnGuard value body => exact congrArg (Statement.returnGuard value) same
  | _ => rfl

/-- Blocks are read by the texts of their lines. -/
theorem agree_readBlock {bound : Nat} {lines others : List ScriptLine}
    (same : lines.map ScriptLine.text = others.map ScriptLine.text) (owner other : String) :
    Agree blockView (readBlock owner bound lines) (readBlock other bound others) := by
  induction bound generalizing lines others owner other with
  | zero => rfl
  | succ bound inductionHypothesis =>
    obtain ⟨rfl, rfl⟩ | ⟨first, rest, second, remaining, rfl, rfl, text, texts⟩ :=
      cases_sameTexts same
    · rfl
    · rw [readBlock, readBlock, text]
      split
      · exact .ok (congrArg (Block.nil, ·) texts)
      · split
        · rfl
        · refine (Agree.locating _ _ : Agree id _ _).bind fun statement _ alike => ?_
          cases alike
          split
          · refine (agree_takeOpen texts _ _).bind fun inner behind alike => ?_
            refine (inductionHypothesis alike _ _).bind fun body held alike => ?_
            obtain ⟨bodies, alike⟩ := Prod.mk.inj alike
            refine (inductionHypothesis alike _ _).bind fun tail finish alike => ?_
            obtain ⟨tails, alike⟩ := Prod.mk.inj alike
            have blocks : Block.cons none (statement.withBody body.1).forget tail.1.forget =
                .cons none (statement.withBody held.1).forget finish.1.forget := by
              rw [statement.forget_withBody bodies, tails]
            exact .ok (Prod.ext blocks alike)
          · refine (inductionHypothesis texts _ _).bind fun tail finish alike => ?_
            obtain ⟨tails, alike⟩ := Prod.mk.inj alike
            exact .ok (Prod.ext (congrArg (Block.cons none statement.forget) tails) alike)

/-! ### Scripts -/

/-- A line without where it stands. -/
def AttributeLine.forget (line : AttributeLine) : AttributeLine := { line with origin := ⟨0, ""⟩ }

/-- A script without the lines that it was read from. -/
def Script.forget (script : Script) : Script :=
  { script with
    body := script.body.forget
    attributes := script.attributes.map AttributeLine.forget
    origin := ⟨0, ""⟩ }

theorem agree_readVariable (one two : Origin) (numeral : List Char) :
    Agree id (readVariable one numeral) (readVariable two numeral) := by
  unfold readVariable
  refine .after _ fun value => ?_
  split
  · rfl
  · rfl

/-- Prefaces that look alike. -/
structure Preface.Alike (one two : Preface) : Prop where
  attributes_eq : one.attributes.map AttributeLine.forget = two.attributes.map AttributeLine.forget
  locals_eq : one.locals = two.locals

theorem Preface.Alike.agree_finish {one two : Preface} (alike : one.Alike two) :
    Agree (List.map Script.forget) one.finish two.finish := by
  have empty : one.attributes.isEmpty = two.attributes.isEmpty := by
    have same := congrArg List.isEmpty alike.attributes_eq
    rwa [List.isEmpty_map, List.isEmpty_map] at same
  unfold finish
  rw [empty, alike.locals_eq]
  rfl

/-- Scripts are read by the texts of their lines. -/
theorem agree_readScripts {bound : Nat} {lines others : List ScriptLine} {one two : Preface}
    (same : lines.map ScriptLine.text = others.map ScriptLine.text) (alike : one.Alike two) :
    Agree (List.map Script.forget) (readScripts bound one lines) (readScripts bound two others) := by
  induction bound generalizing lines others one two with
  | zero => exact alike.agree_finish
  | succ bound inductionHypothesis =>
    obtain ⟨rfl, rfl⟩ | ⟨first, rest, second, remaining, rfl, rfl, text, texts⟩ :=
      cases_sameTexts same
    · exact alike.agree_finish
    · rw [readScripts, readScripts, text]
      split
      · exact inductionHypothesis texts alike
      · split
        · refine (agree_readVariable _ _ _).bind fun value _ same => ?_
          cases same
          refine .after _ fun index => inductionHypothesis texts ⟨alike.attributes_eq, ?_⟩
          rw [alike.locals_eq]
        · split
          · refine .after _ fun value => inductionHypothesis texts ⟨?_, alike.locals_eq⟩
            rw [List.map_append, List.map_append, alike.attributes_eq]
            rfl
          · split
            · rfl
            · refine (agree_takeOpen texts _ _).bind fun inner behind same => ?_
              have length : inner.length = behind.length := by
                have lengths := congrArg List.length same
                rwa [List.length_map, List.length_map] at lengths
              rw [length]
              refine (agree_readBlock same _ _).bind fun body held same => ?_
              obtain ⟨bodies, same⟩ := Prod.mk.inj same
              refine (inductionHypothesis same ⟨rfl, rfl⟩).bind fun tail finish tails => ?_
              refine .ok (List.cons_eq_cons.mpr ⟨?_, tails⟩)
              simp only [Script.forget, alike.attributes_eq, alike.locals_eq]
              rw [bodies]

/-- Texts that sift alike are read alike. -/
theorem Script.agree_parse {one two : Symbols} {text other : List Char}
    (same : siftText one text = siftText two other) :
    Agree (List.map Script.forget) (Script.parse one text) (Script.parse two other) := by
  rw [← toOption_cleanText, ← toOption_cleanText] at same
  have agree : Agree filledTexts (cleanText one text) (cleanText two other) := same
  refine agree.bind fun lines others alike => ?_
  have length : (lines.filter fun line => !line.text.isEmpty).length =
      (others.filter fun line => !line.text.isEmpty).length := by
    have lengths := congrArg List.length alike
    rwa [filledTexts, filledTexts, List.length_map, List.length_map] at lengths
  have read : Agree (List.map Script.forget)
      (readScripts (lines.filter fun line => !line.text.isEmpty).length .empty _)
      (readScripts (lines.filter fun line => !line.text.isEmpty).length .empty _) :=
    agree_readScripts alike ⟨rfl, rfl⟩
  unfold ofLines
  dsimp only
  rwa [length] at read ⊢

end MapScript
