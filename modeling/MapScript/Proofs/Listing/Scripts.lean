/-
This file proves that the listing of compiled code is in step with the script that the
code was compiled from. Listing the code succeeds without a notice and uses up all of
it; the lines are the statements of the script in the order of the text, each at the
address where its code starts and as deep as it stands in the script; and the labels of
the listing are the addresses that the script refers to. The only condition is on guards
on the returned value, whose code does not say where their block ends.
-/

import MapScript.Proofs.Listing.Places

namespace MapScript

/-! ### Compiled scripts -/

/-- A compiled script as it is stored in a header with the given variables. -/
def Compiled.program (compiled : Compiled) (locals : List Int) : Program where
  name := compiled.name
  code := compiled.code
  entry := compiled.entry.toNat
  strings := compiled.strings
  locals := locals

/-- What the listing of a compiled script looks up. -/
def Compiled.reading (compiled : Compiled) (symbols : Symbols) (locals : List Int) : Reading :=
  ⟨compiled.program locals, symbols, false⟩

theorem Script.compile_eq_ok {symbols : Symbols} {locals : Option (List Int)} {script : Script}
    {compiled : Compiled} (done : script.compile symbols locals = .ok compiled) :
    ∃ cells assembly entry,
      (Assembler.block ⟨symbols, locals⟩ 0 script.body).run .empty = .ok (cells, assembly) ∧
      link script assembly.labels cells = .ok compiled.code ∧
      entryPoint script assembly.labels = .ok entry ∧ compiled.entry = (entry : Int) ∧
      compiled.strings = assembly.pool.all ∧ compiled.labels = assembly.labels ∧
      compiled.name = script.name := by
  obtain ⟨⟨cells, assembly⟩, encoded, done⟩ := bind_eq_ok.mp done
  obtain ⟨code, linked, done⟩ := bind_eq_ok.mp done
  obtain ⟨entry, found, done⟩ := bind_eq_ok.mp done
  obtain ⟨attributes, -, done⟩ := bind_eq_ok.mp done
  cases done
  exact ⟨cells, assembly, entry, encoded, linked, found, rfl, rfl, rfl, rfl⟩

/-- The entry point of a script is the start of its code or the address of a label. -/
theorem entryPoint_eq_ok {script : Script} {labels : Registry Int Nat} {entry : Nat}
    (found : entryPoint script labels = .ok entry) :
    entry = 0 ∨ ∃ goal, labels.find? goal = some entry := by
  unfold entryPoint at found
  split at found
  · cases found
    exact Or.inl rfl
  · exact Or.inr ⟨_, labelAddress_eq_ok found⟩

/-! ### Listings of compiled scripts -/

/-- The listing that a script has when its labels are known. -/
def Script.listed (script : Script) (reading : Reading) (labels : Registry Int Nat) : Listing where
  lines := (script.body.outline reading.symbols 0 1).map (Spot.line reading labels)
  labels :=
    let landings := insertLabels (script.body.uses.filterMap (LabelUse.landing? labels)) []
    if reading.program.entry = 0 then landings else insertLabel reading.program.entry landings
  cursor := reading.program.code.length

theorem Script.mem_labels_listed {script : Script} {reading : Reading}
    {labels : Registry Int Nat} {address : Nat} :
    address ∈ (script.listed reading labels).labels ↔
      (∃ use ∈ script.body.uses, use.landing? labels = some address) ∨
        (0 < reading.program.entry ∧ address = reading.program.entry) := by
  have landings : address ∈ insertLabels (script.body.uses.filterMap (LabelUse.landing? labels)) [] ↔
      ∃ use ∈ script.body.uses, use.landing? labels = some address := by
    rw [mem_insertLabels, List.mem_filterMap, or_iff_left List.not_mem_nil]
  unfold listed
  by_cases start : reading.program.entry = 0
  · simp only [start, if_true, landings, Nat.lt_irrefl, false_and, or_false]
  · simp only [start, if_false, mem_insertLabel, landings, Nat.pos_of_ne_zero start, true_and]
    exact or_comm

section Compiling

variable {script : Script} {symbols : Symbols} {locals : List Int} {compiled : Compiled}

/-- The code of a script takes as many bytes as its statements are said to take. -/
theorem Script.length_compiled (done : script.compile symbols (some locals) = .ok compiled)
    (shaped : script.body.Each Statement.Shaped) :
    compiled.code.length = script.body.codeSize symbols := by
  obtain ⟨cells, assembly, entry, encoded, linked, -⟩ := compile_eq_ok done
  exact (length_of_link linked).trans
    (@Assembler.totalSize_block (compiled.reading symbols locals) _ shaped _ _ _ _ encoded)

/-- The code of a script is read from its start to its end as its statements. -/
theorem Script.decode_compiled (done : script.compile symbols (some locals) = .ok compiled)
    (shaped : script.body.Each Statement.Shaped) (covered : script.body.Covered symbols) :
    ∃ scan, (Decoder.script (compiled.reading symbols locals)).result (.start compiled.code) =
        (.ok (), scan) ∧ scan.notices = [] ∧
      scan.listing (compiled.program locals) =
        script.listed (compiled.reading symbols locals) compiled.labels := by
  obtain ⟨cells, assembly, entry, encoded, linked, -, -, strings, labels, -⟩ := compile_eq_ok done
  have built : Built (compiled.reading symbols locals) .empty assembly cells _
      (Assembler.FilledBlock (compiled.reading symbols locals) 0 1 script.body) :=
    Assembler.built_block script.body shaped covered encoded
  have kept : assembly.pool.strings <+: compiled.strings := by
    rw [strings]
    exact List.prefix_append _ _
  have length := length_compiled done shaped
  have starts (start : Nat) (last : script.body.lastStart? symbols 0 = some start) :
      start < compiled.code.length := by
    rw [length, ← Nat.zero_add (script.body.codeSize symbols)]
    exact Block.lastStart?_lt shaped last
  have stops : compiled.code.length ≤ 0 + script.body.codeSize symbols :=
    Nat.le_of_eq (length.trans (Nat.zero_add _).symm)
  have fills := Assembler.fills_body shaped length (built.fills_of_link linked kept)
    (Nat.le_refl _) starts stops
  refine ⟨_, fills (.start compiled.code) rfl rfl List.prefix_rfl, rfl, ?_⟩
  rw [labels]
  simp only [Scan.listing, Scan.passed, Scan.start, List.modifyHead_nil, List.append_nil,
    List.reverse_reverse, Nat.zero_add]
  rfl

/-- Every label of the listing starts a statement or stands at the end of the code. -/
theorem Script.looseLabels_compiled (done : script.compile symbols (some locals) = .ok compiled)
    (shaped : script.body.Each Statement.Shaped) (covered : script.body.Covered symbols) :
    (script.listed (compiled.reading symbols locals) compiled.labels).looseLabels
      compiled.code.length = [] := by
  obtain ⟨cells, assembly, entry, encoded, linked, found, same, -, labels, -⟩ := compile_eq_ok done
  have placed : Assembler.PlacedLabels .empty assembly.labels
      (0 + script.body.codeSize symbols) (script.body.outline symbols 0 1) :=
    @Assembler.placedLabels_block (compiled.reading symbols locals) script.body shaped covered 0 1
      .empty assembly cells encoded
  have standing (address : Nat)
      (member : address ∈ (script.listed (compiled.reading symbols locals) compiled.labels).labels) :
      ∃ goal, assembly.labels.find? goal = some address := by
    rw [labels] at member
    rcases mem_labels_listed.mp member with ⟨use, -, landing⟩ | ⟨positive, rfl⟩
    · exact ⟨use.label, LabelUse.find?_of_landing? landing⟩
    · have start : compiled.entry.toNat = entry := by rw [same, Int.toNat_natCast]
      have positive : 0 < compiled.entry.toNat := positive
      rcases entryPoint_eq_ok found with zero | ⟨goal, known⟩
      · omega
      · exact ⟨goal, known.trans (congrArg some start.symm)⟩
  refine List.filter_eq_nil_iff.mpr fun address member => ?_
  obtain ⟨goal, known⟩ := standing address member
  rcases placed goal address known with before | atEnd | ⟨spot, inside, there⟩
  · cases before
  · rw [atEnd, length_compiled done shaped, Nat.zero_add, bne_self_eq_false, Bool.false_and]
    exact Bool.false_ne_true
  · have line : (script.listed (compiled.reading symbols locals) compiled.labels).lines.any
        (fun line => line.address == address) = true :=
      List.any_eq_true.mpr ⟨_, List.mem_map_of_mem inside, beq_iff_eq.mpr there⟩
    rw [line, Bool.not_true, Bool.and_false]
    exact Bool.false_ne_true

/-- The listing of a compiled script, without a notice. -/
theorem Script.listing_eq_listed (done : script.compile symbols (some locals) = .ok compiled)
    (shaped : script.body.Each Statement.Shaped) (covered : script.body.Covered symbols) :
    ((compiled.program locals).listing symbols false).outcome =
      (.ok (script.listed (compiled.reading symbols locals) compiled.labels), []) := by
  obtain ⟨scan, decoded, notices, listing⟩ := decode_compiled done shaped covered
  have decoded : ExceptT.run (Decoder.script ⟨compiled.program locals, symbols, false⟩)
      (.start (compiled.program locals).code) = (.ok (), scan) := decoded
  have loose : (script.listed (compiled.reading symbols locals) compiled.labels).looseLabels
      (compiled.program locals).code.length = [] := looseLabels_compiled done shaped covered
  unfold Program.listing
  rw [decoded]
  simp only [notices, listing, loose, List.forIn_nil]
  rfl

/-- The listing of compiled code is in step with the script. Listing succeeds, leaves no
notice and uses up the code. Its lines are the statements of the script, labels left out,
in the order of the text: each at the address where its code starts, at its depth, and
marked if its block holds no statement. Its labels are the addresses that jumps lead to,
and the entry point unless that is the start. -/
theorem Script.listing_compiled {text : List Char} {scripts : List Script}
    (parsed : Script.parse symbols text = .ok scripts) (member : script ∈ scripts)
    (done : script.compile symbols (some locals) = .ok compiled)
    (covered : script.body.Covered symbols) :
    ∃ listing, ((compiled.program locals).listing symbols false).outcome = (.ok listing, []) ∧
      listing.cursor = compiled.code.length ∧
      listing.lines.map (fun line => (line.address, line.depth, line.emptyBlock)) =
        (script.body.outline symbols 0 1).map
          (fun spot => (spot.address, spot.depth, spot.statement.hasEmptyBody)) ∧
      (∀ spot ∈ script.body.outline symbols 0 1,
        spot.EncodedIn ⟨symbols, some locals⟩ script compiled.labels 0 compiled.code) ∧
      ∀ address, address ∈ listing.labels ↔
        (∃ use ∈ script.body.uses, use.landing? compiled.labels = some address) ∨
          (0 < compiled.entry ∧ (address : Int) = compiled.entry) := by
  have shaped := shaped_of_parse parsed script member
  refine ⟨_, listing_eq_listed done shaped covered, rfl, ?_, ?_, ?_⟩
  · rw [Script.listed, List.map_map]
    rfl
  · obtain ⟨cells, assembly, entry, encoded, linked, -, -, -, labels, -⟩ := compile_eq_ok done
    rw [labels]
    exact @Assembler.outline_encodedIn (compiled.reading symbols locals) _ _ script.body shaped
      covered 0 1 .empty assembly cells _ encoded linked
  · intro address
    rw [mem_labels_listed]
    have entry : (0 < (compiled.program locals).entry ∧
        address = (compiled.program locals).entry) ↔
        (0 < compiled.entry ∧ (address : Int) = compiled.entry) := by
      show (0 < compiled.entry.toNat ∧ address = compiled.entry.toNat) ↔ _
      omega
    exact or_congr_right entry

end Compiling

/-! ### A sample -/

/-- Symbols with one flag and one reference. -/
def doorSymbols : Symbols where
  functions := [.null]
  flags := [⟨"open", "int", "0", none⟩]
  references := ["health"]
  attributes := []
  items := []
  maps := .empty
  subtitles := .empty
  parameterKinds := .empty

/-- A script with a guard, a condition whose block holds only a label, and jumps. -/
def doorText : List Char :=
  ("DOOR (Execution starts at #10)\n\x7b\nEndint\n#10:\nif <ScriptRv> = 1\n\x7b\nGoto #10\n\x7d\n" ++
    "if open = 0\n\x7b\n#20:\n\x7d\nGate.health++\nGosub #20\n\x7d").toList

/-- The scripts of the sample. -/
def doorScripts : List Script := reached (Script.parse doorSymbols doorText) []

theorem Script.listing_compiled_door :
    Script.parse doorSymbols doorText = .ok doorScripts ∧ doorScripts.length = 1 ∧
    ∀ script ∈ doorScripts, script.body.Covered doorSymbols ∧
      ∃ compiled, script.compile doorSymbols (some [5]) = .ok compiled ∧
      ∃ listing, ((compiled.program [5]).listing doorSymbols false).outcome = (.ok listing, []) ∧
        listing.cursor = compiled.code.length ∧
        listing.lines.map (fun line => (line.address, line.depth, line.emptyBlock)) =
          [(0, 1, false), (1, 1, false), (3, 2, false), (8, 1, true), (24, 1, false),
            (29, 1, false)] ∧
        ∀ address, address ∈ listing.labels ↔
          (∃ use ∈ script.body.uses, use.landing? compiled.labels = some address) ∨
            (0 < compiled.entry ∧ (address : Int) = compiled.entry) := by
  have parsed : Script.parse doorSymbols doorText = .ok doorScripts :=
    eq_ok_reached (by decide +kernel)
  have checked : doorScripts.length = 1 ∧ ∀ script ∈ doorScripts,
      (script.compile doorSymbols (some [5])).isOk = true ∧ script.body.Covered doorSymbols ∧
      (script.body.outline doorSymbols 0 1).map
        (fun spot => (spot.address, spot.depth, spot.statement.hasEmptyBody)) =
        [(0, 1, false), (1, 1, false), (3, 2, false), (8, 1, true), (24, 1, false),
          (29, 1, false)] := by decide +kernel
  refine ⟨parsed, checked.1, fun script member => ?_⟩
  obtain ⟨succeeds, covered, places⟩ := checked.2 script member
  refine ⟨covered, ?_⟩
  cases done : script.compile doorSymbols (some [5]) with
  | error fault =>
    rw [done] at succeeds
    cases succeeds
  | ok compiled =>
    obtain ⟨listing, listed, cursor, lines, -, labels⟩ :=
      listing_compiled parsed member done covered
    exact ⟨compiled, rfl, listing, listed, cursor, lines.trans places, labels⟩

end MapScript
