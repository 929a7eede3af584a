/-
This file compiles script files that are joined. Reading keeps nothing of a file that came to
its end, for no variable or attribute line may be left over there, and compiling keeps nothing
of a script that is done: its strings, its labels and the places where their addresses go are
its own. What two files are compiled to when one follows the other on a new line is therefore
what they are compiled to alone, put one behind the other.
-/

import MapScript.Proofs.Listing.Recompiled
import MapScript.Proofs.Listing.Restored
import MapScript.Proofs.Script.Sequences

namespace MapScript

/-! ### Reading -/

/-- Where lines may come to an end, none is left over for a script to follow. -/
theorem Preface.eq_empty_of_finish {preface : Preface} {scripts : List Script}
    (done : preface.finish = .ok scripts) : preface = .empty := by
  obtain ⟨attributes, ⟨entries, distinct⟩⟩ := preface
  unfold finish at done
  split at done
  · rename_i none
    obtain ⟨noAttributes, noLocals⟩ := Bool.and_eq_true_iff.mp none
    obtain rfl : attributes = [] := List.isEmpty_iff.mp noAttributes
    obtain rfl : entries = [] := List.isEmpty_iff.mp noLocals
    rfl
  · cases done

/-- Lines that are read as scripts are read so in front of others, which are read as if they
stood alone. -/
theorem readScripts_append {bound : Nat} {preface : Preface} {lines behind : List ScriptLine}
    {front back : List Script} (enough : lines.length ≤ bound)
    (read : readScripts bound preface lines = .ok front)
    (rest : ∀ limit, behind.length ≤ limit → readScripts limit .empty behind = .ok back)
    {limit : Nat} (room : (lines ++ behind).length ≤ limit) :
    readScripts limit preface (lines ++ behind) = .ok (front ++ back) := by
  induction bound generalizing preface lines front limit with
  | zero =>
    obtain rfl := List.eq_nil_of_length_eq_zero (Nat.le_zero.mp enough)
    rw [Preface.finish_eq_ok read, Preface.eq_empty_of_finish read]
    exact rest limit room
  | succ bound inductionHypothesis =>
    match lines, limit, room with
    | [], limit, room =>
      rw [Preface.finish_eq_ok read, Preface.eq_empty_of_finish read]
      exact rest limit room
    | line :: lines, limit + 1, room =>
      have enough := Nat.le_of_succ_le_succ enough
      have room : (lines ++ behind).length ≤ limit := Nat.le_of_succ_le_succ room
      rcases readScripts_cases read with ⟨-, later, read, alike⟩ | ⟨other, name, startLabel,
        inner, body, after, others, titled, taken, bodyRead, othersRead, rfl⟩
      · rw [List.cons_append, alike]
        exact inductionHypothesis enough read room
      · have left := suffix_of_readBlock bodyRead
        have few : after.length ≤ lines.length := by
          obtain ⟨brace, rfl, -⟩ := takeOpen_eq_ok taken
          exact (left.trans (List.suffix_cons brace inner)).length_le
        rw [List.length_append] at room
        have roomLeft : (after ++ behind).length ≤ limit := by
          rw [List.length_append]
          omega
        have longer : inner.length ≤ (inner ++ behind).length := by
          rw [List.length_append]
          exact Nat.le_add_right _ _
        exact readScripts_title other titled (takeOpen_append taken behind)
          (readBlock_append bodyRead longer behind)
          (inductionHypothesis (Nat.le_trans few enough) othersRead roomLeft)

/-- Texts of lines that are read as scripts are read so in front of others. -/
theorem ReadsAs.append {preface : Preface} {texts behind : List (List Char)}
    {front back : List Script}
    (read : readScripts texts.length preface (texts.map ScriptLine.bare) = .ok front)
    (rest : ReadsAs .empty behind back) : ReadsAs preface (texts ++ behind) (front ++ back) := by
  intro limit room
  rw [List.map_append]
  refine readScripts_append (Nat.le_of_eq (List.length_map _)) read (fun limit enough => ?_) ?_
  · rw [List.length_map] at enough
    exact rest limit enough
  · rwa [← List.map_append, List.length_map]

/-- Of two texts that are joined by a line feed the scripts of one and then those of the other
are read. -/
theorem Script.parse_joined {symbols : Symbols} {first second : List Char}
    {front back : List Script} (one : Script.parse symbols first = .ok front)
    (two : Script.parse symbols second = .ok back) :
    ∃ scripts, Script.parse symbols (first ++ '\n' :: second) = .ok scripts ∧
      scripts.map Script.forget = (front ++ back).map Script.forget := by
  obtain ⟨texts, reads, sifted, read, same⟩ := exists_reread one
  obtain ⟨others, later, siftedLater, readLater, sameLater⟩ := exists_reread two
  have whole : siftText symbols (first ++ '\n' :: second) = some (texts ++ (others ++ [])) := by
    rw [siftText_append_feed, sifted, siftedLater, List.append_nil]
    rfl
  have readBoth : ReadsAs .empty (texts ++ (others ++ [])) (reads ++ (later ++ [])) :=
    .append read (.append readLater .nil)
  obtain ⟨scripts, parsed, alike⟩ :=
    (agree_parse_bare whole).symm.exists_ok (readBoth _ (Nat.le_refl _))
  refine ⟨scripts, parsed, alike.symm.trans ?_⟩
  rw [List.append_nil, List.map_append, List.map_append, same, sameLater]

/-! ### Compiling -/

/-- Scripts that differ in no more than the lines they were read from are compiled alike. -/
theorem Script.compile_of_alike {script read : Script} {symbols : Symbols}
    {locals : Option (List Int)} {compiled : Compiled} (alike : read.forget = script.forget)
    (done : script.compile symbols locals = .ok compiled) :
    read.compile symbols locals = .ok compiled := by
  have body : read.body.forget = script.body.forget := (congrArg Script.body alike :)
  have start : read.startLabel = script.startLabel := (congrArg Script.startLabel alike :)
  have name : read.name = script.name := (congrArg Script.name alike :)
  have locals_eq : read.locals = script.locals := (congrArg Script.locals alike :)
  have lines : read.attributes.map AttributeLine.forget =
      script.attributes.map AttributeLine.forget := (congrArg Script.attributes alike :)
  have whole := done
  obtain ⟨⟨cells, assembly⟩, -, done⟩ := bind_eq_ok.mp done
  obtain ⟨code, -, done⟩ := bind_eq_ok.mp done
  obtain ⟨entry, -, done⟩ := bind_eq_ok.mp done
  obtain ⟨attributes, set, done⟩ := bind_eq_ok.mp done
  have setAlike : attributeBlock symbols read.attributes = .ok attributes := by
    rw [← attributeBlock_forget, lines]
    exact attributeBlock_forget.mpr set
  rw [compile_of_forget whole body start setAlike, name, locals_eq, ← Except.ok.inj done]

section Lists

variable {symbols : Symbols} {locals : List (Option (List Int))}

theorem compileScripts_cons_eq_ok {script : Script} {rest : List Script}
    {compiled : List Compiled} :
    compileScripts symbols locals (script :: rest) = .ok compiled ↔
      ∃ first others, script.compile symbols locals.head?.join = .ok first ∧
        compileScripts symbols (locals.drop 1) rest = .ok others ∧ first :: others = compiled := by
  rw [compileScripts]
  constructor
  · intro done
    obtain ⟨first, firstOk, done⟩ := bind_eq_ok.mp done
    obtain ⟨others, othersOk, done⟩ := bind_eq_ok.mp done
    exact ⟨first, others, firstOk, othersOk, Except.ok.inj done⟩
  · rintro ⟨first, others, firstOk, othersOk, rfl⟩
    exact bind_eq_ok.mpr ⟨first, firstOk, bind_eq_ok.mpr ⟨others, othersOk, rfl⟩⟩

theorem compileScripts_of_alike {scripts reads : List Script} {compiled : List Compiled}
    (alike : reads.map Script.forget = scripts.map Script.forget)
    (done : compileScripts symbols locals scripts = .ok compiled) :
    compileScripts symbols locals reads = .ok compiled := by
  induction scripts generalizing locals reads compiled with
  | nil =>
    rw [List.map_eq_nil_iff.mp alike]
    exact done
  | cons script rest inductionHypothesis =>
    obtain ⟨read, remaining, rfl, same, alike⟩ := List.map_eq_cons_iff.mp alike
    obtain ⟨first, others, firstOk, othersOk, rfl⟩ := compileScripts_cons_eq_ok.mp done
    exact compileScripts_cons_eq_ok.mpr ⟨first, others, Script.compile_of_alike same firstOk,
      inductionHypothesis alike othersOk, rfl⟩

theorem length_of_compileScripts {scripts : List Script} {compiled : List Compiled}
    (done : compileScripts symbols locals scripts = .ok compiled) :
    compiled.length = scripts.length := by
  induction scripts generalizing locals compiled with
  | nil =>
    cases done
    rfl
  | cons script rest inductionHypothesis =>
    obtain ⟨first, others, -, othersOk, rfl⟩ := compileScripts_cons_eq_ok.mp done
    exact congrArg (· + 1) (inductionHypothesis othersOk)

/-- Scripts are compiled one by one: what some are compiled to does not depend on those in
front of them, if these have all variables that are listed in front. -/
theorem compileScripts_append {more : List (Option (List Int))} {scripts later : List Script}
    {front back : List Compiled}
    (counted : locals.length = scripts.length ∨ locals = [] ∧ more = [])
    (one : compileScripts symbols locals scripts = .ok front)
    (two : compileScripts symbols more later = .ok back) :
    compileScripts symbols (locals ++ more) (scripts ++ later) = .ok (front ++ back) := by
  induction scripts generalizing locals front with
  | nil =>
    cases one
    have none : locals = [] := by
      rcases counted with same | ⟨none, -⟩
      · exact List.eq_nil_of_length_eq_zero same
      · exact none
    rw [none]
    exact two
  | cons script rest inductionHypothesis =>
    obtain ⟨first, others, firstOk, othersOk, rfl⟩ := compileScripts_cons_eq_ok.mp one
    rw [List.cons_append]
    cases locals with
    | nil =>
      rcases counted with impossible | ⟨-, rfl⟩
      · cases impossible
      · exact compileScripts_cons_eq_ok.mpr ⟨first, _, firstOk,
          inductionHypothesis (.inr ⟨rfl, rfl⟩) othersOk, rfl⟩
    | cons held locals =>
      rcases counted with same | ⟨impossible, -⟩
      · exact compileScripts_cons_eq_ok.mpr ⟨first, _, firstOk,
          inductionHypothesis (.inl (Nat.succ.inj same)) othersOk, rfl⟩
      · cases impossible

end Lists

/-! ### Files -/

/-- Two texts that are joined by a line feed are compiled to what one and then the other is
compiled to, if variables are listed for each script of the first text, or for none at all. -/
theorem compileText_joined {symbols : Symbols} {locals more : List (Option (List Int))}
    {first second : List Char} {front back : List Compiled}
    (counted : locals.length = front.length ∨ locals = [] ∧ more = [])
    (one : compileText symbols locals first = .ok front)
    (two : compileText symbols more second = .ok back) :
    compileText symbols (locals ++ more) (first ++ '\n' :: second) = .ok (front ++ back) := by
  obtain ⟨scripts, parsed, compiled⟩ := bind_eq_ok.mp one
  obtain ⟨later, parsedLater, compiledLater⟩ := bind_eq_ok.mp two
  obtain ⟨reads, parsedBoth, alike⟩ := Script.parse_joined parsed parsedLater
  rw [length_of_compileScripts compiled] at counted
  exact bind_eq_ok.mpr ⟨reads, parsedBoth,
    compileScripts_of_alike alike (compileScripts_append counted compiled compiledLater)⟩

/-! ### A sample -/

def hallSymbols : Symbols := { doorSymbols with attributes := ["side"] }

/-- A text with lines for its one script in front of it. It ends in the first half of a line
break. -/
def hallText : List Char :=
  ("IDs: 7\nvar2 = 5\nside = -1\nHALL (Execution starts at #10)\n\x7b\nEndint\n#10:\n" ++
    "5.health++\nGoto #10\n\x7d\r").toList

/-- A text with two scripts, of which the first has a label that the other text has too, and
names a value that both keep in a variable. -/
def loftText : List Char :=
  ("side = 2\nLOFT\n\x7b\n5.health++\n#10:\nGoto #10\n\x7d\n" ++
    "CELL\n\x7b\nReturn\n\x7d").toList

theorem compileText_joined_hall :
    ∃ front back, compileText hallSymbols [some [5]] hallText = .ok front ∧
      compileText hallSymbols [some [9, 5], some []] loftText = .ok back ∧
      front.map Compiled.code = [[0x13, 0x0F, 10, 0, 0, 0, 4, 1, 0, 0, 0]] ∧
      back.map Compiled.code = [[0x0F, 10, 1, 0, 0, 4, 5, 0, 0, 0], [0x12]] ∧
      compileText hallSymbols ([some [5]] ++ [some [9, 5], some []])
        (hallText ++ '\n' :: loftText) = .ok (front ++ back) := by
  obtain ⟨front, one, frontCode⟩ := @exists_ok_of_any _
    (compileText hallSymbols [some [5]] hallText)
    (fun compiled => compiled.map Compiled.code == [[0x13, 0x0F, 10, 0, 0, 0, 4, 1, 0, 0, 0]])
    (by decide +kernel)
  obtain ⟨back, two, backCode⟩ := @exists_ok_of_any _
    (compileText hallSymbols [some [9, 5], some []] loftText)
    (fun compiled => compiled.map Compiled.code ==
      [[0x0F, 10, 1, 0, 0, 4, 5, 0, 0, 0], [0x12]]) (by decide +kernel)
  have frontCode := beq_iff_eq.mp frontCode
  have single : front.length = 1 := by
    rw [← List.length_map Compiled.code, frontCode]
    rfl
  exact ⟨front, back, one, two, frontCode, beq_iff_eq.mp backCode,
    compileText_joined (.inl single.symm) one two⟩

end MapScript
