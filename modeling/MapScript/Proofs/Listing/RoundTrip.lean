/-
This file closes the circle. A script text is compiled, the code is listed, and the text
of the listing is compiled again: what comes out is the code, the entry point and the
strings of the first time. The symbols have to be such that their names can be told from
the text around them, and the script must not put a number where a dialogue label is
meant, because a listing cannot tell the two apart there.
-/

import MapScript.Proofs.Listing.Recompiled
import MapScript.Proofs.Listing.Regrouped
import MapScript.Proofs.Script.Genuine
import MapScript.Proofs.Script.Known

namespace MapScript

/-! ### Texts of listings -/

/-- The text of a listing is its lines joined. -/
theorem Program.outcome_text {program : Program} {symbols : Symbols} {listing : Listing}
    (listed : (program.listing symbols false).outcome = (.ok listing, [])) :
    (program.text symbols false).outcome =
      (.ok ("\n".intercalate (listing.render program)), []) := by
  have lines : (program.textLines symbols false).outcome = (.ok (listing.render program), []) :=
    Logged.run_bind listed _
  exact Logged.run_bind lines _

section Scripts

variable {script : Script} {symbols : Symbols} {locals : List Int} {compiled : Compiled}
  {text : List Char}

/-- A script that comes out of text and is compiled can be read back from its listing, if
no number stands where a dialogue label is meant. -/
theorem Script.legible_of_compile (parsed : Script.parse symbols text = .ok [script])
    (done : script.compile symbols (some locals) = .ok compiled)
    (offDialogue : script.body.Each (Statement.EachTerm (Term.OffDialogue symbols))) :
    script.body.Legible symbols := by
  obtain ⟨cells, assembly, entry, encoded, -⟩ := compile_eq_ok done
  have both := written_of_parse parsed script List.mem_cons_self
  have written : script.body.Each Statement.Written :=
    both.combine (fun _ holds _ => holds.1) both
  have known := Assembler.known_block script.body written encoded
  have unambiguous := known.combine (fun _ => Statement.EachTerm.and) offDialogue
  exact {
    shaped := shaped_of_parse parsed script List.mem_cons_self
    written := written
    spelled := both.combine (fun _ holds others => holds.2.and others) unambiguous }

theorem Block.Legible.regrouped {block : Block} (legible : block.Legible symbols) :
    (Block.regrouped symbols .nil block).Legible symbols where
  shaped := Block.each_regrouped Statement.shaped_bodyBlind block legible.shaped trivial
  written := Block.each_regrouped Statement.written_bodyBlind block legible.written trivial
  spelled :=
    Block.each_regrouped (Statement.eachTerm_bodyBlind _) block legible.spelled trivial

/-- Compiling a text that holds one script. -/
theorem compileText_eq_single_iff :
    compileText symbols [some locals] text = .ok [compiled] ↔
      ∃ script, Script.parse symbols text = .ok [script] ∧
        script.compile symbols (some locals) = .ok compiled := by
  unfold compileText
  rw [bind_eq_ok]
  constructor
  · rintro ⟨scripts, parsed, done⟩
    match scripts with
    | [] => cases done
    | first :: rest =>
      obtain ⟨one, firstOk, done⟩ := bind_eq_ok.mp done
      obtain ⟨others, restOk, same⟩ := bind_eq_ok.mp done
      cases same
      match rest with
      | [] => exact ⟨first, parsed, firstOk⟩
      | second :: more =>
        obtain ⟨two, -, left⟩ := bind_eq_ok.mp restOk
        obtain ⟨_, -, impossible⟩ := bind_eq_ok.mp left
        cases impossible
  · rintro ⟨script, parsed, done⟩
    exact ⟨[script], parsed, bind_eq_ok.mpr ⟨compiled, done, rfl⟩⟩

/-- What is asked of a script, so that the listing of its code can be compiled again: its
name is a plain word, no number stands where a dialogue label is meant, and the block of
every guard on the returned value can be filled up to the size that reading takes it to
have. -/
structure Script.Recoverable (symbols : Symbols) (script : Script) : Prop where
  letters : script.name.toList.all Text.isNameChar = true
  offDialogue : script.body.Each (Statement.EachTerm (Term.OffDialogue symbols))
  roomy : script.body.Roomy symbols 0

instance (symbols : Symbols) (script : Script) : Decidable (script.Recoverable symbols) :=
  decidable_of_iff (script.name.toList.all Text.isNameChar = true ∧
      script.body.Each (Statement.EachTerm (Term.OffDialogue symbols)) ∧
      script.body.Roomy symbols 0)
    ⟨fun ⟨letters, offDialogue, roomy⟩ => ⟨letters, offDialogue, roomy⟩,
      fun ⟨letters, offDialogue, roomy⟩ => ⟨letters, offDialogue, roomy⟩⟩

/-- Listing what a text is compiled to succeeds, and compiling the text of the listing
gives the same code, entry point and strings again. -/
theorem compileText_text_compiled (legible : symbols.Legible)
    (short : ∀ value ∈ locals, value.natAbs < Text.numeralLimit)
    (done : compileText symbols [some locals] text = .ok [compiled])
    (few : compiled.strings.length < Bytes.range 4)
    (recoverable : ∀ script, Script.parse symbols text = .ok [script] →
      script.Recoverable symbols) :
    ∃ listed again, ((compiled.program locals).text symbols false).outcome = (.ok listed, []) ∧
      compileText symbols [some locals] listed.toList = .ok [again] ∧
      again.code = compiled.code ∧ again.entry = compiled.entry ∧
      again.strings = compiled.strings := by
  obtain ⟨script, parsed, done⟩ := compileText_eq_single_iff.mp done
  obtain ⟨letters, offDialogue, roomy⟩ := recoverable script parsed
  obtain ⟨-, -, -, -, -, -, -, -, -, name⟩ := Script.compile_eq_ok done
  have filled : compiled.name ≠ "" :=
    name ▸ Script.name_ne_empty_of_parse parsed script List.mem_cons_self
  have plainName : ∀ c ∈ compiled.name.toList, Text.isNameChar c = true := by
    rw [name]
    exact List.all_eq_true.mp letters
  have shaped := Script.shaped_of_parse parsed script List.mem_cons_self
  -- The listing shows the regrouped script, so it is that one which is read back.
  have spelled := (Script.legible_of_compile parsed done offDialogue).regrouped
  have covered : (script.regrouped symbols).body.Covered symbols :=
    Block.covered_regrouped script.body shaped trivial roomy trivial
  have regrouped := Script.compile_regrouped done
  have listed := Script.listing_eq_listed regrouped spelled.shaped covered
  obtain ⟨read, readOk, -, start, plain, body⟩ := @Script.parse_listed
    (compiled.reading symbols locals) (script.regrouped symbols) legible few compiled.labels filled
    plainName spelled
  obtain ⟨again, againOk, same⟩ :=
    Script.compile_relisted regrouped spelled.shaped covered short start plain body
  exact ⟨_, again, Program.outcome_text listed,
    compileText_eq_single_iff.mpr ⟨read, readOk, againOk⟩, same⟩

end Scripts

/-! ### Samples -/

/-- Symbols with a dialogue label, an item and a flag whose comment holds a quote. -/
def gateSymbols : Symbols where
  functions := [.null, ⟨"Say", .task, 1⟩, ⟨"Give", .function, 1⟩]
  flags := [⟨"open", "int", "0", some "seen \"it\" // once"⟩]
  references := ["health"]
  attributes := []
  items := [none, some "GOLD KEY"]
  maps := .ofList [(4, "ISLAND")]
  subtitles := .ofList [("gd01", "Halt!")]
  parameterKinds := .ofList [("Say0", .dialogue), ("Give0", .item)]

theorem item_gateSymbols {name : String} (member : some name ∈ gateSymbols.items) :
    name = "GOLD KEY" := by
  simpa [gateSymbols] using member

theorem map_gateSymbols {entry : Int × String} (member : entry ∈ gateSymbols.maps.entries) :
    entry = (4, "ISLAND") :=
  List.mem_singleton.mp member

theorem legible_gateSymbols : gateSymbols.Legible where
  references_length := by decide
  comment_unbroken := by
    intro flag member comment there
    have one : flag = ⟨"open", "int", "0", some "seen \"it\" // once"⟩ := List.mem_singleton.mp member
    subst one
    cases Option.mem_some.mp there
    exact forall_mem_of_all (by decide)
  subtitle_unbroken := by
    intro entry member
    have one : entry = ("gd01", "Halt!") := List.mem_singleton.mp member
    subst one
    exact forall_mem_of_all (by decide)
  item_isName := by
    intro name member
    cases item_gateSymbols member
    exact Piece.isName_of_plain (by decide) (by decide) (by decide) (by decide)
  map_isName := by
    intro entry member
    cases map_gateSymbols member
    exact Piece.isName_of_plain (by decide) (by decide) (by decide) (by decide)
  items_no_maps := by
    intro name member entry there
    cases item_gateSymbols member
    cases map_gateSymbols there
    decide

/-- A script in which a guard is too short for what reading takes its block to be, so that
the assignment behind it is listed inside. -/
def gateText : List Char :=
  ("GATE (Execution starts at #10)\n\x7b\nSay(\"gd01\")\n#10:\nif <ScriptRv> = 1\n\x7b\nReturn\n\x7d\n" ++
    "open = var1 + 2\nif Give(<GOLD KEY>) = 0\n\x7b\n5.health++\n\x7d\nGoto #10\n\x7d").toList

theorem compileText_text_gate :
    gateSymbols.Legible ∧
    ∃ script compiled, Script.parse gateSymbols gateText = .ok [script] ∧
      script.Recoverable gateSymbols ∧ ¬script.body.Covered gateSymbols ∧
      compileText gateSymbols [some [5, 7]] gateText = .ok [compiled] ∧
      ∃ listed again,
        ((compiled.program [5, 7]).text gateSymbols false).outcome = (.ok listed, []) ∧
        compileText gateSymbols [some [5, 7]] listed.toList = .ok [again] ∧
        again.code = compiled.code ∧ again.entry = compiled.entry ∧
        again.strings = compiled.strings := by
  obtain ⟨script, parsed, checked⟩ := @Script.exists_single_of_any gateSymbols gateText
    (fun script => decide (script.Recoverable gateSymbols ∧ ¬script.body.Covered gateSymbols) &&
      (script.compile gateSymbols (some [5, 7])).toOption.any fun (compiled : Compiled) =>
        decide (compiled.strings.length < Bytes.range 4)) (by decide +kernel)
  obtain ⟨held, compiles⟩ := Bool.and_eq_true_iff.mp checked
  obtain ⟨recoverable, uncovered⟩ := of_decide_eq_true held
  obtain ⟨compiled, done, few⟩ := exists_ok_of_any compiles
  have done := compileText_eq_single_iff.mpr ⟨script, parsed, done⟩
  refine ⟨legible_gateSymbols, script, compiled, parsed, recoverable, uncovered, done,
    compileText_text_compiled legible_gateSymbols (by decide +kernel) done (of_decide_eq_true few)
      fun other alone => ?_⟩
  cases parsed.symm.trans alone
  exact recoverable

/-- A script that ends with a guard whose block is empty. -/
def shortGuardText : List Char :=
  "GATE\n\x7b\nif <ScriptRv> = 1\n\x7b\n\x7d\n\x7d".toList

/-- Without room behind a guard its code cannot be listed, so there is nothing to compile
again. -/
theorem compileText_text_shortGuard :
    gateSymbols.Legible ∧
    ∃ script compiled, Script.parse gateSymbols shortGuardText = .ok [script] ∧
      script.name.toList.all Text.isNameChar = true ∧
      script.body.Each (Statement.EachTerm (Term.OffDialogue gateSymbols)) ∧
      compileText gateSymbols [some []] shortGuardText = .ok [compiled] ∧
      compiled.code = [30, 1] ∧
      ((compiled.program []).text gateSymbols false).outcome.1.isOk = false := by
  obtain ⟨script, parsed, checked⟩ := @Script.exists_single_of_any gateSymbols shortGuardText
    (fun script => decide (script.name.toList.all Text.isNameChar = true ∧
        script.body.Each (Statement.EachTerm (Term.OffDialogue gateSymbols))) &&
      (script.compile gateSymbols (some [])).toOption.any fun (compiled : Compiled) =>
        decide (compiled.code = [30, 1] ∧
          ((compiled.program []).text gateSymbols false).outcome.1.isOk = false))
    (by decide +kernel)
  obtain ⟨held, compiles⟩ := Bool.and_eq_true_iff.mp checked
  obtain ⟨letters, offDialogue⟩ := of_decide_eq_true held
  obtain ⟨compiled, done, fails⟩ := exists_ok_of_any compiles
  exact ⟨legible_gateSymbols, script, compiled, parsed, letters, offDialogue,
    compileText_eq_single_iff.mpr ⟨script, parsed, done⟩, of_decide_eq_true fails⟩

end MapScript
