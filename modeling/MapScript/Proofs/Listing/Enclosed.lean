/-
This file proves that the text of a program is a title and one block in braces. Every
statement that is listed stands in the block of the script, so the line behind the title
opens that block, and the last line closes it. A text that is read as one script with the
name of the program is therefore cut up in this way, and makes the script up wherever it
stands in a file.
-/

import MapScript.Proofs.Listing.Guards
import MapScript.Proofs.Listing.Inert
import MapScript.Proofs.Listing.Reopened
import MapScript.Proofs.Script.Sequences

namespace MapScript

/-! ### Lines between braces -/

/-- Every statement that is listed stands in the block of the script. -/
theorem Program.one_le_depth_of_listing {program : Program} {symbols : Symbols} {lenient : Bool}
    {listing : Listing} (listed : (program.listing symbols lenient).outcome.1 = .ok listing) :
    ∀ line ∈ listing.lines, 1 ≤ line.depth := by
  obtain ⟨scan, ended, rfl⟩ := exists_scan_of_listing listed
  obtain ⟨places, grows, -⟩ := Decoder.grows_script ended
  intro line member
  have placed : (line.address, line.depth) ∈ scan.places := List.mem_map.mpr ⟨line, member, rfl⟩
  rw [grows.places_eq] at placed
  exact grows.stretch.level_le _ placed

theorem Listing.exists_renderLines {line : ListedLine} (deep : 1 ≤ line.depth) (labels : List Nat)
    (rest : List ListedLine) :
    ∃ more, (renderLines labels 0 (line :: rest)).1 = openBrace 0 :: more := by
  obtain ⟨depth, same⟩ : ∃ depth, line.depth = depth + 1 := Nat.exists_eq_add_one.mpr deep
  have opened : bracesBetween 0 line.depth =
      openBrace 0 :: (List.range' 1 depth).map openBrace := by
    rw [same, bracesBetween, if_pos (Nat.succ_pos depth), Nat.sub_zero, List.range'_succ]
    rfl
  rw [renderLines, renderLine, opened]
  exact ⟨_, rfl⟩

/-- The text lines of a listing are a title and a block in braces. -/
theorem Listing.exists_render {listing : Listing} (deep : ∀ line ∈ listing.lines, 1 ≤ line.depth)
    (program : Program) :
    ∃ inner, listing.render program =
      titleLine program :: openBrace 0 :: (inner ++ [closeBrace 0]) := by
  unfold render
  cases lines : listing.lines with
  | nil => exact ⟨_, rfl⟩
  | cons line rest =>
    rw [lines] at deep
    obtain ⟨more, opened⟩ := exists_renderLines (deep line List.mem_cons_self) listing.labels rest
    simp only [opened, renderEnd, List.cons_append, ← List.append_assoc]
    exact ⟨_, rfl⟩

/-! ### Sifted texts -/

section Sifting

variable {symbols : Symbols}

/-- A line gives one text at most. -/
theorem length_le_of_siftText {line : List Char} (unbroken : Text.Unbroken line)
    {texts : List (List Char)} (sifted : siftText symbols line = some texts) :
    texts.length ≤ 1 := by
  by_cases empty : line = []
  · subst empty
    cases sifted
    exact Nat.zero_le _
  · rw [siftText, Text.splitLines_last unbroken empty, gather_singleton] at sifted
    obtain ⟨text, -, same⟩ := Option.map_eq_some_iff.mp sifted
    rw [← same]
    split
    · exact Nat.zero_le _
    · exact Nat.le_refl _

theorem siftText_braces : siftText symbols (Listing.openBrace 0).toList = some [['\x7b']] ∧
    siftText symbols (Listing.closeBrace 0).toList = some [['\x7d']] :=
  ⟨rfl, rfl⟩

/-- A title and a block in braces are sifted to at most one text for the title, the braces, and
the texts between them. -/
theorem siftText_enclosed {title : String} {inner : List String} {texts : List (List Char)}
    (unbroken : Text.Unbroken title.toList)
    (sifted : siftText symbols ("\n".intercalate
      (title :: Listing.openBrace 0 :: (inner ++ [Listing.closeBrace 0]))).toList = some texts) :
    ∃ front middle, front.length ≤ 1 ∧
      texts = front ++ ['\x7b'] :: (middle ++ [['\x7d']]) := by
  rw [siftText_intercalate, gather_cons] at sifted
  obtain ⟨front, titled, block⟩ := Option.bind_eq_some_iff.mp sifted
  obtain ⟨_, opened, rfl⟩ := Option.map_eq_some_iff.mp block
  rw [gather_cons, siftText_braces.1, Option.bind_some, gather_append] at opened
  obtain ⟨_, filled, rfl⟩ := Option.map_eq_some_iff.mp opened
  obtain ⟨middle, -, closed⟩ := Option.bind_eq_some_iff.mp filled
  rw [gather_singleton, siftText_braces.2] at closed
  cases closed
  exact ⟨front, middle, length_le_of_siftText unbroken titled, rfl⟩

end Sifting

/-! ### Texts of programs -/

section Programs

variable {program : Program} {symbols : Symbols} {lenient : Bool} {text : String}

/-- The text of a program is a title and a block in braces. -/
theorem Program.exists_text_lines (listed : (program.text symbols lenient).outcome.1 = .ok text) :
    ∃ inner, text = "\n".intercalate
      (Listing.titleLine program :: Listing.openBrace 0 :: (inner ++ [Listing.closeBrace 0])) := by
  rw [fst_outcome_text] at listed
  cases reached : (program.listing symbols lenient).outcome.1 with
  | error fault =>
    rw [reached] at listed
    cases listed
  | ok listing =>
    rw [reached] at listed
    obtain ⟨inner, rendered⟩ := Listing.exists_render (one_le_depth_of_listing reached) program
    exact ⟨inner, by rw [← rendered]; exact (Except.ok.inj listed).symm⟩

/-- The text of a program that is read as one script with its name makes that script up. -/
theorem Program.makesUp_of_parse {script : Script}
    (listed : (program.text symbols lenient).outcome.1 = .ok text)
    (parsed : Script.parse symbols text.toList = .ok [script])
    (named : script.name = program.name) :
    ∃ texts body, siftText symbols text.toList = some texts ∧
      MakesUp texts program.name script.startLabel body ∧ body.forget = script.body.forget := by
  obtain ⟨texts, reads, sifted, read, alike⟩ := Script.exists_reread parsed
  obtain ⟨only, rfl, same⟩ := List.map_eq_singleton_iff.mp alike
  obtain ⟨inner, rfl⟩ := exists_text_lines listed
  -- The name was read from a script line, so it has no blank, and the title is one line.
  have full := (Script.name_of_parse parsed script List.mem_cons_self).2
  have unbroken : Text.Unbroken (Listing.titleLine program).toList := by
    rw [toList_titleLine, ← named]
    exact Text.Unbroken.append (fun c member => Text.isLineBreak_of_isBlank (full c member))
      (unbroken_titleTail _)
  obtain ⟨front, middle, short, rfl⟩ := siftText_enclosed unbroken sifted
  cases front with
  | nil => exact absurd read (readScripts_open_ne_ok _ _ _ _)
  | cons title more =>
    have none : more = [] :=
      List.eq_nil_of_length_eq_zero (Nat.le_zero.mp (Nat.le_of_succ_le_succ short))
    subst none
    have makes := makesUp_of_readScripts read
    have sameName : only.name = script.name := (congrArg Script.name same :)
    have sameStart : only.startLabel = script.startLabel := (congrArg Script.startLabel same :)
    rw [sameName, named, sameStart] at makes
    exact ⟨_, _, sifted, makes, (congrArg Script.body same :)⟩

end Programs

end MapScript
