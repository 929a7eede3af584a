/-
This file proves when a listing nests the statements of compiled code as the text does. The
code of a guard on the returned value does not say where its block ends, so reading takes
the block to be the next four bytes, while the text may hold any statements there. Text and
listing agree on all blocks exactly if the block of every guard takes at least four bytes
and its last statement starts within them.
-/

import MapScript.Proofs.Listing.Guards
import MapScript.Proofs.Listing.Scripts

namespace MapScript

/-! ### What comes after a block -/

/-- What comes after a block that ends at an address: a line there that is not deeper, or
the stop. -/
def Resumes (depth finish stop : Nat) : List (Nat × Nat) → Prop
  | [] => stop = finish
  | place :: _ => place.1 = finish ∧ place.2 ≤ depth

theorem Resumes.deeper {depth finish stop : Nat} {after : List (Nat × Nat)}
    (resumes : Resumes depth finish stop after) : Resumes (depth + 1) finish stop after := by
  cases after with
  | nil => exact resumes
  | cons place rest => exact ⟨resumes.1, Nat.le_succ_of_le resumes.2⟩

/-- A guard that is closed, with what comes after its block: the block reaches the limit, and
its own statements start before it. -/
theorem Closes.of_resumes {depth limit finish stop : Nat} {inner after : List (Nat × Nat)}
    (closes : Closes depth limit stop (inner ++ after))
    (deeper : ∀ place ∈ inner, depth < place.2) (resumes : Resumes depth finish stop after) :
    limit ≤ finish ∧ ∀ place ∈ inner, place.2 = depth + 1 → place.1 < limit := by
  induction inner with
  | nil =>
    refine ⟨?_, fun _ member => absurd member List.not_mem_nil⟩
    cases after with
    | nil => exact Nat.le_trans closes (Nat.le_of_eq resumes)
    | cons place rest =>
      rw [List.nil_append, Closes, if_pos resumes.2] at closes
      exact Nat.le_trans closes (Nat.le_of_eq resumes.1)
  | cons place rest inductionHypothesis =>
    have below := deeper place List.mem_cons_self
    rw [List.cons_append, Closes, if_neg (Nat.not_le.mpr below)] at closes
    obtain ⟨reaches, starts⟩ := inductionHypothesis closes.2
      fun other member => deeper other (List.mem_cons_of_mem _ member)
    refine ⟨reaches, fun other member level => ?_⟩
    rcases List.mem_cons.mp member with rfl | later
    · exact closes.1 level
    · exact starts other later level

theorem GuardsClose.of_append {code : Bytes} {stop : Nat} {front back : List (Nat × Nat)}
    (closes : GuardsClose code stop (front ++ back)) : GuardsClose code stop back := by
  induction front with
  | nil => exact closes
  | cons place rest inductionHypothesis => exact inductionHypothesis closes.2

/-! ### Places in the text -/

/-- The address and the depth of a statement. -/
def Spot.place (spot : Spot) : Nat × Nat := (spot.address, spot.depth)

section Places

variable {symbols : Symbols}

theorem Statement.covered_of_isLabel {statement : Statement} (label : statement.isLabel = true) :
    statement.Covered symbols := by
  cases statement with
  | label goal => trivial
  | _ => cases label

mutual

theorem Statement.depth_le_nested (statement : Statement) {offset depth : Nat} :
    ∀ spot ∈ statement.nested symbols offset depth, depth < spot.depth := by
  cases statement with
  | branch clauses body => exact fun spot member => body.depth_le_outline spot member
  | returnGuard value body => exact fun spot member => body.depth_le_outline spot member
  | _ => exact fun spot member => absurd member List.not_mem_nil

theorem Block.depth_le_outline (block : Block) {offset depth : Nat} :
    ∀ spot ∈ block.outline symbols offset depth, depth ≤ spot.depth := by
  cases block with
  | nil => exact fun spot member => absurd member List.not_mem_nil
  | cons origin first rest =>
    intro spot member
    rw [Block.outline, List.mem_append] at member
    rcases member with here | later
    · split at here
      · cases here
      · rcases List.mem_cons.mp here with rfl | inside
        · exact Nat.le_refl _
        · exact Nat.le_of_lt (first.depth_le_nested spot inside)
    · exact rest.depth_le_outline spot later

end

/-- The last statement of a block stands in the block itself. -/
theorem Block.mem_outline_of_lastStart? {block : Block} {offset depth start : Nat}
    (last : block.lastStart? symbols offset = some start) :
    (start, depth) ∈ (block.outline symbols offset depth).map Spot.place := by
  match block with
  | .cons origin first rest =>
    rw [lastStart?] at last
    rw [outline, List.map_append]
    split at last
    · rename_i found
      cases last
      exact List.mem_append_right _ (mem_outline_of_lastStart? found)
    · split at last
      · cases last
      · rename_i notLabel
        cases last
        rw [if_neg notLabel]
        exact List.mem_append_left _ List.mem_cons_self

/-- Where what comes after a block resumes, with the lines of the block in front. -/
theorem Block.resumes_outline (block : Block) {offset depth stop : Nat}
    {after : List (Nat × Nat)}
    (resumes : Resumes depth (offset + block.codeSize symbols) stop after) :
    Resumes depth offset stop ((block.outline symbols offset depth).map Spot.place ++ after) := by
  match block with
  | .nil => exact resumes
  | .cons origin first rest =>
    rw [codeSize, ← Nat.add_assoc] at resumes
    rw [outline]
    cases label : first.isLabel with
    | true =>
      rw [first.codeSize_of_isLabel label, Nat.add_zero] at resumes ⊢
      exact rest.resumes_outline resumes
    | false => exact ⟨rfl, Nat.le_refl _⟩

end Places

/-! ### Blocks of guards -/

namespace Assembler

variable {reading : Reading} {script : Script} {labels : Registry Int Nat} {whole : Bytes}
  {stop : Nat}

/-- Code behind code that stands at an offset. -/
theorem prefix_behind {front back : Bytes} {offset : Nat}
    (inside : front ++ back <+: whole.drop offset) :
    back <+: whole.drop (offset + front.length) := by
  rw [← List.drop_drop]
  exact Decoder.Fills.prefix_drop inside

/-- The block of a guard that is closed as reading closes it. -/
theorem covers_guard {body : Block} (shaped : body.Each Statement.Shaped) {symbols : Symbols}
    {offset depth : Nat} {after : List (Nat × Nat)}
    (closes : Closes depth (offset + 2 + returnGuardSize) stop
      ((body.outline symbols (offset + 2) (depth + 1)).map Spot.place ++ after))
    (resumes : Resumes depth (offset + 2 + body.codeSize symbols) stop after) :
    returnGuardSize ≤ body.codeSize symbols ∧
      ∃ start ∈ body.lastStart? symbols 0, start < returnGuardSize := by
  have deeper : ∀ place ∈ (body.outline symbols (offset + 2) (depth + 1)).map Spot.place,
      depth < place.2 := by
    intro place member
    obtain ⟨spot, inside, rfl⟩ := List.mem_map.mp member
    exact body.depth_le_outline spot inside
  obtain ⟨reaches, starts⟩ := closes.of_resumes deeper resumes
  have large : returnGuardSize ≤ body.codeSize symbols := by omega
  have filled : body.onlyLabels = false := by
    refine Bool.eq_false_iff.mpr fun only => ?_
    rw [(Block.codeSize_eq_zero_iff shaped).mpr only] at large
    exact absurd large (by decide)
  obtain ⟨start, last⟩ := Block.lastStart?_isSome symbols 0 filled
  have shifted : body.lastStart? symbols (offset + 2) = some (offset + 2 + start) := by
    rw [← Nat.add_zero (offset + 2), Block.lastStart?_add, last]
    rfl
  have before := starts _ (Block.mem_outline_of_lastStart? shifted) rfl
  have before : offset + 2 + start < offset + 2 + returnGuardSize := before
  exact ⟨large, start, last, by omega⟩

mutual

/-- If all guards among the lines are closed as reading closes them, those in a statement
are covered. -/
theorem covered_statement (written : Statement) (shaped : written.Each Statement.Shaped)
    {offset depth : Nat} {assembly next : Assembly} {cells : List Cell} {code : Bytes}
    (encoded : (statement reading.around offset written).run assembly = .ok (cells, next))
    (linked : link script labels cells = .ok code) (inside : code <+: whole.drop offset)
    {after : List (Nat × Nat)}
    (closes : GuardsClose whole stop
      ((offset, depth) :: ((written.nested reading.symbols offset depth).map Spot.place ++ after)))
    (resumes : Resumes depth (offset + written.codeSize reading.symbols) stop after) :
    written.Covered reading.symbols := by
  cases written with
  | branch clauses body =>
    obtain ⟨condition, pool, inner, size, clausesOk, bodyOk, packed, rfl⟩ := branch_eq_ok encoded
    obtain ⟨front, back, frontOk, backOk, rfl⟩ := link_append_eq_ok.mp linked
    cases (link_ofBytes script labels _).symm.trans frontOk
    have conditionSize := (Encoder.laid_clauses clauses shaped.1 clausesOk).size_eq
    have start : offset + (Opcode.branch.code :: condition ++ size).length =
        offset + 5 + condition.length := by
      rw [List.length_append, List.length_cons, (Encoder.packNumber_eq_ok packed).1]
      omega
    have behind := prefix_behind inside
    rw [start] at behind
    have finish : offset + (Statement.branch clauses body).codeSize reading.symbols =
        offset + 5 + condition.length + body.codeSize reading.symbols := by
      rw [Statement.codeSize, conditionSize]
      omega
    rw [finish] at resumes
    have closes := closes.2
    rw [Statement.nested, ← conditionSize] at closes
    exact covered_block body shaped.2 bodyOk backOk behind closes resumes.deeper
  | returnGuard value body =>
    obtain ⟨inner, range, bodyOk, rfl⟩ := returnGuard_eq_ok encoded
    obtain ⟨front, back, frontOk, backOk, rfl⟩ := link_append_eq_ok.mp linked
    cases (link_ofBytes script labels _).symm.trans frontOk
    have opcode : whole[offset]? = some Opcode.returnGuard.code := by
      rw [← Nat.add_zero offset, ← List.getElem?_drop]
      obtain ⟨more, split⟩ := inside
      rw [← split]
      rfl
    rw [Statement.codeSize, ← Nat.add_assoc] at resumes
    obtain ⟨large, last⟩ := covers_guard shaped.2 (closes.1 opcode) resumes
    exact ⟨large, last, covered_block body shaped.2 bodyOk backOk (prefix_behind inside) closes.2
      resumes.deeper⟩
  | _ => trivial

/-- The guards in a block are covered. -/
theorem covered_block (block : Block) (shaped : block.Each Statement.Shaped)
    {offset depth : Nat} {assembly next : Assembly} {cells : List Cell} {code : Bytes}
    (encoded : (Assembler.block reading.around offset block).run assembly = .ok (cells, next))
    (linked : link script labels cells = .ok code) (inside : code <+: whole.drop offset)
    {after : List (Nat × Nat)}
    (closes : GuardsClose whole stop
      ((block.outline reading.symbols offset depth).map Spot.place ++ after))
    (resumes : Resumes depth (offset + block.codeSize reading.symbols) stop after) :
    block.Covered reading.symbols := by
  cases block with
  | nil => trivial
  | cons origin first rest =>
    obtain ⟨front, between, back, firstOk, restOk, rfl⟩ := block_cons_eq_ok encoded
    obtain ⟨one, two, frontOk, backOk, rfl⟩ := link_append_eq_ok.mp linked
    have size := totalSize_statement first shaped.1 firstOk
    have length := (length_of_link frontOk).trans size
    have behind := prefix_behind inside
    rw [length] at behind
    rw [size] at restOk
    rw [Block.codeSize, ← Nat.add_assoc] at resumes
    rw [Block.outline, List.map_append, List.append_assoc] at closes
    refine ⟨?_, covered_block rest shaped.2 restOk backOk behind closes.of_append resumes⟩
    cases label : first.isLabel with
    | true => exact Statement.covered_of_isLabel label
    | false =>
      rw [label] at closes
      exact covered_statement first shaped.1 firstOk frontOk
        ((List.prefix_append one two).trans inside) closes (rest.resumes_outline resumes)

end

end Assembler

/-! ### Scripts -/

section Compiling

variable {script : Script} {symbols : Symbols} {locals : List Int} {compiled : Compiled}

/-- If the lines of the listing stand as the statements of the script do, its guards are
covered. -/
theorem Script.covered_of_places (done : script.compile symbols (some locals) = .ok compiled)
    (shaped : script.body.Each Statement.Shaped) {listing : Listing}
    (listed : ((compiled.program locals).listing symbols false).outcome.1 = .ok listing)
    (places : listing.lines.map (fun line => (line.address, line.depth)) =
      (script.body.outline symbols 0 1).map (fun spot => (spot.address, spot.depth))) :
    script.body.Covered symbols := by
  obtain ⟨cells, assembly, entry, encoded, linked, -⟩ := compile_eq_ok done
  obtain ⟨scan, ended, rfl⟩ := Program.exists_scan_of_listing listed
  obtain ⟨finished, closes⟩ := Decoder.guardsClose_script ended
  have same : scan.places = (script.body.outline symbols 0 1).map Spot.place ++ [] :=
    places.trans (List.append_nil _).symm
  rw [same] at closes
  have stops : Resumes 1 (0 + script.body.codeSize symbols) scan.position [] := by
    rw [Nat.zero_add, ← length_compiled done shaped]
    exact finished
  exact @Assembler.covered_block (compiled.reading symbols locals) _ _ _ _ script.body shaped
    0 1 _ _ _ _ encoded linked List.prefix_rfl _ closes stops

/-- A listing agrees with the text on what each block holds exactly if the guards on the
returned value are covered. Listing then succeeds without a notice, and the lines are the
statements of the text, labels left out, each at its address and as deep as the text puts
it; otherwise listing fails, or some statement is listed in another block. -/
theorem Script.listing_nests_iff_covered {text : List Char} {scripts : List Script}
    (parsed : Script.parse symbols text = .ok scripts) (member : script ∈ scripts)
    (done : script.compile symbols (some locals) = .ok compiled) :
    (∃ listing notices,
      ((compiled.program locals).listing symbols false).outcome = (.ok listing, notices) ∧
      listing.lines.map (fun line => (line.address, line.depth)) =
        (script.body.outline symbols 0 1).map (fun spot => (spot.address, spot.depth))) ↔
      script.body.Covered symbols := by
  have shaped := shaped_of_parse parsed script member
  constructor
  · rintro ⟨listing, notices, listed, places⟩
    exact covered_of_places done shaped (congrArg Prod.fst listed) places
  · intro covered
    refine ⟨_, _, listing_eq_listed done shaped covered, ?_⟩
    rw [Script.listed, List.map_map]
    rfl

end Compiling

/-! ### Samples -/

theorem Script.listing_nests_door :
    ∃ script compiled, Script.parse doorSymbols doorText = .ok [script] ∧
      script.compile doorSymbols (some [5]) = .ok compiled ∧ script.body.Covered doorSymbols ∧
      ∃ listing notices,
        ((compiled.program [5]).listing doorSymbols false).outcome = (.ok listing, notices) ∧
        listing.lines.map (fun line => (line.address, line.depth)) =
          [(0, 1), (1, 1), (3, 2), (8, 1), (24, 1), (29, 1)] := by
  obtain ⟨script, parsed, checked⟩ := @Script.exists_single_of_any doorSymbols doorText
    (fun script => decide (script.body.Covered doorSymbols ∧
        (script.body.outline doorSymbols 0 1).map (fun spot => (spot.address, spot.depth)) =
          [(0, 1), (1, 1), (3, 2), (8, 1), (24, 1), (29, 1)]) &&
      (script.compile doorSymbols (some [5])).toOption.any fun (_ : Compiled) => true)
    (by decide +kernel)
  obtain ⟨held, compiles⟩ := Bool.and_eq_true_iff.mp checked
  obtain ⟨covered, outline⟩ := of_decide_eq_true held
  obtain ⟨compiled, done, -⟩ := exists_ok_of_any compiles
  refine ⟨script, compiled, parsed, done, covered, ?_⟩
  rw [← outline]
  exact (listing_nests_iff_covered parsed List.mem_cons_self done).mpr covered

/-- A script in which the block of a guard takes one byte. -/
def narrowGuardText : List Char :=
  "GATE\n\x7b\nif <ScriptRv> = 1\n\x7b\nReturn\n\x7d\nEnd\n\x7d".toList

/-- The statement behind such a guard is listed inside its block. -/
theorem Script.listing_nests_narrowGuard :
    ∃ script compiled, Script.parse doorSymbols narrowGuardText = .ok [script] ∧
      script.compile doorSymbols (some []) = .ok compiled ∧
      compiled.code = [30, 1, 18, 5, 0, 0, 0, 0] ∧
      (script.body.outline doorSymbols 0 1).map (fun spot => (spot.address, spot.depth)) =
        [(0, 1), (2, 2), (3, 1)] ∧
      ((compiled.program []).listing doorSymbols false).outcome.1.toOption.map
          (fun listing => listing.lines.map fun line => (line.address, line.depth)) =
        some [(0, 1), (2, 2), (3, 2)] := by
  obtain ⟨script, parsed, checked⟩ := @Script.exists_single_of_any doorSymbols narrowGuardText
    (fun script => decide ((script.body.outline doorSymbols 0 1).map
        (fun spot => (spot.address, spot.depth)) = [(0, 1), (2, 2), (3, 1)]) &&
      (script.compile doorSymbols (some [])).toOption.any fun (compiled : Compiled) =>
        decide (compiled.code = [30, 1, 18, 5, 0, 0, 0, 0] ∧
          ((compiled.program []).listing doorSymbols false).outcome.1.toOption.map
            (fun listing => listing.lines.map fun line => (line.address, line.depth)) =
          some [(0, 1), (2, 2), (3, 2)])) (by decide +kernel)
  obtain ⟨outline, compiles⟩ := Bool.and_eq_true_iff.mp checked
  obtain ⟨compiled, done, listed⟩ := exists_ok_of_any compiles
  obtain ⟨code, places⟩ := of_decide_eq_true listed
  exact ⟨script, compiled, parsed, done, code, of_decide_eq_true outline, places⟩

end MapScript
