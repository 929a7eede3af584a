/-
This file proves where things stand in the code of a script. From the address of a
statement on, the code is the code of that statement; and every label stands for the
address of some statement, or for the end of the code.
-/

import MapScript.Proofs.Listing.Blocks

namespace MapScript

/-! ### Code of statements -/

/-- From the address of a statement on, code that starts at an offset is the code that the
statement is turned into there. -/
def Spot.EncodedIn (around : Surroundings) (script : Script) (labels : Registry Int Nat)
    (offset : Nat) (code : Bytes) (spot : Spot) : Prop :=
  ∃ before after cells piece place,
    (Assembler.statement around spot.address spot.statement).run before = .ok (cells, after) ∧
    link script labels cells = .ok piece ∧ spot.address = offset + place ∧
    piece <+: code.drop place

namespace Spot.EncodedIn

variable {around : Surroundings} {script : Script} {labels : Registry Int Nat} {offset : Nat}
  {spot : Spot}

theorem append_right {code : Bytes} (encoded : spot.EncodedIn around script labels offset code)
    (more : Bytes) : spot.EncodedIn around script labels offset (code ++ more) := by
  obtain ⟨before, after, cells, piece, place, run, linked, there, inside⟩ := encoded
  refine ⟨before, after, cells, piece, place, run, linked, there, inside.trans ?_⟩
  rw [List.drop_append]
  exact List.prefix_append _ _

theorem append_left {front code : Bytes}
    (encoded : spot.EncodedIn around script labels (offset + front.length) code) :
    spot.EncodedIn around script labels offset (front ++ code) := by
  obtain ⟨before, after, cells, piece, place, run, linked, there, inside⟩ := encoded
  refine ⟨before, after, cells, piece, front.length + place, run, linked, ?_, ?_⟩
  · rw [there, Nat.add_assoc]
  · rw [List.drop_append, List.drop_eq_nil_of_le (Nat.le_add_right _ _), List.nil_append,
      Nat.add_sub_cancel_left]
    exact inside

end Spot.EncodedIn

namespace Assembler

variable {reading : Reading} {script : Script} {labels : Registry Int Nat}

mutual

/-- The statements in the block of a statement have their code at their addresses. -/
theorem nested_encodedIn (written : Statement) (shaped : written.Each Statement.Shaped)
    (covered : written.Covered reading.symbols) {offset depth : Nat} {assembly next : Assembly}
    {cells : List Cell} {code : Bytes}
    (encoded : (statement reading.around offset written).run assembly = .ok (cells, next))
    (linked : link script labels cells = .ok code) :
    ∀ spot ∈ written.nested reading.symbols offset depth,
      spot.EncodedIn reading.around script labels offset code := by
  cases written with
  | branch clauses body =>
    obtain ⟨condition, pool, inner, stop, clausesOk, bodyOk, packed, rfl⟩ := branch_eq_ok encoded
    obtain ⟨front, back, frontOk, backOk, rfl⟩ := link_append_eq_ok.mp linked
    cases (link_ofBytes script labels _).symm.trans frontOk
    have conditionSize := (Encoder.laid_clauses clauses shaped.1 clausesOk).size_eq
    have start : offset + (Opcode.branch.code :: condition ++ stop).length =
        offset + 5 + condition.length := by
      rw [List.length_append, List.length_cons, (Encoder.packNumber_eq_ok packed).1]
      omega
    intro spot member
    rw [Statement.nested, ← conditionSize] at member
    have there := outline_encodedIn body shaped.2 covered bodyOk backOk spot member
    rw [← start] at there
    exact there.append_left
  | returnGuard value body =>
    obtain ⟨inner, range, bodyOk, rfl⟩ := returnGuard_eq_ok encoded
    obtain ⟨front, back, frontOk, backOk, rfl⟩ := link_append_eq_ok.mp linked
    cases (link_ofBytes script labels _).symm.trans frontOk
    intro spot member
    exact (outline_encodedIn body shaped.2 covered.2.2 bodyOk backOk spot member).append_left
  | _ =>
    intro spot member
    cases member

/-- The statements of a block have their code at their addresses. -/
theorem outline_encodedIn (block : Block) (shaped : block.Each Statement.Shaped)
    (covered : block.Covered reading.symbols) {offset depth : Nat} {assembly next : Assembly}
    {cells : List Cell} {code : Bytes}
    (encoded : (Assembler.block reading.around offset block).run assembly = .ok (cells, next))
    (linked : link script labels cells = .ok code) :
    ∀ spot ∈ block.outline reading.symbols offset depth,
      spot.EncodedIn reading.around script labels offset code := by
  cases block with
  | nil =>
    intro spot member
    cases member
  | cons origin first rest =>
    obtain ⟨front, between, back, firstOk, restOk, rfl⟩ := block_cons_eq_ok encoded
    obtain ⟨one, two, frontOk, backOk, rfl⟩ := link_append_eq_ok.mp linked
    have size := totalSize_statement first shaped.1 firstOk
    have length := (length_of_link frontOk).trans size
    intro spot member
    rw [Block.outline, List.mem_append] at member
    rcases member with here | later
    · have firstEncoded : (⟨offset, depth, first⟩ : Spot).EncodedIn reading.around script labels
          offset one := ⟨assembly, between, front, one, 0, firstOk, frontOk, rfl, List.prefix_rfl⟩
      split at here
      · cases here
      · rcases List.mem_cons.mp here with rfl | inside
        · exact firstEncoded.append_right two
        · exact (nested_encodedIn first shaped.1 covered.1 firstOk frontOk spot inside).append_right
            two
    · rw [size] at restOk
      have there := outline_encodedIn rest shaped.2 covered.2 restOk backOk spot later
      rw [← length] at there
      exact there.append_left

end

/-! ### Addresses of labels -/

/-- A label that was not known before stands for the address of one of these statements,
or for the end of their code. -/
def PlacedLabels (before after : Registry Int Nat) (stop : Nat) (spots : List Spot) : Prop :=
  ∀ goal address, after.find? goal = some address →
    before.find? goal = some address ∨ address = stop ∨ ∃ spot ∈ spots, spot.address = address

theorem placedLabels_refl (known : Registry Int Nat) (stop : Nat) (spots : List Spot) :
    PlacedLabels known known stop spots :=
  fun _ _ found => Or.inl found

/-- A block that holds a statement has one where the block starts. -/
theorem exists_outline_start {block : Block} (filled : block.onlyLabels = false)
    (symbols : Symbols) (offset depth : Nat) :
    ∃ spot ∈ block.outline symbols offset depth, spot.address = offset := by
  match block with
  | .nil => cases filled
  | .cons origin first rest =>
    cases label : first.isLabel with
    | false =>
      refine ⟨⟨offset, depth, first⟩, ?_, rfl⟩
      rw [Block.outline, label]
      exact List.mem_append_left _ List.mem_cons_self
    | true =>
      rw [Block.onlyLabels, label, Bool.true_and] at filled
      obtain ⟨spot, member, there⟩ := exists_outline_start filled symbols offset depth
      refine ⟨spot, ?_, there⟩
      rw [Block.outline, first.codeSize_of_isLabel label, Nat.add_zero]
      exact List.mem_append_right _ member

mutual

/-- The labels in the block of a statement stand for addresses of statements in it, or for
its end. -/
theorem placedLabels_statement (written : Statement) (shaped : written.Each Statement.Shaped)
    (covered : written.Covered reading.symbols) {offset : Nat} (depth : Nat)
    {assembly next : Assembly} {cells : List Cell}
    (encoded : (statement reading.around offset written).run assembly = .ok (cells, next)) :
    PlacedLabels assembly.labels next.labels (offset + written.codeSize reading.symbols)
      (written.nested reading.symbols offset depth) := by
  cases written with
  | label goal =>
    obtain ⟨-, -, rfl⟩ := label_eq_ok encoded
    intro other address found
    by_cases same : other = goal
    · subst same
      rw [Registry.find?_put_self] at found
      cases found
      exact Or.inr (Or.inl rfl)
    · rw [Registry.find?_put_other _ same] at found
      exact Or.inl found
  | branch clauses body =>
    obtain ⟨condition, pool, inner, stop, clausesOk, bodyOk, -, -⟩ := branch_eq_ok encoded
    have conditionSize := (Encoder.laid_clauses clauses shaped.1 clausesOk).size_eq
    rw [conditionSize] at bodyOk
    have placed := placedLabels_block body shaped.2 covered (depth + 1) bodyOk
    have stops : offset + (Statement.branch clauses body).codeSize reading.symbols =
        offset + 5 + clausesSize reading.symbols clauses + body.codeSize reading.symbols := by
      rw [Statement.codeSize]
      omega
    rw [stops]
    exact placed
  | returnGuard value body =>
    obtain ⟨inner, -, bodyOk, -⟩ := returnGuard_eq_ok encoded
    have placed := placedLabels_block body shaped.2 covered.2.2 (depth + 1) bodyOk
    rw [Nat.add_assoc] at placed
    exact placed
  | expression value =>
    obtain ⟨_, _, -, -, rfl⟩ := encode_eq_ok encoded
    exact placedLabels_refl _ _ _
  | assign target formula =>
    obtain ⟨_, _, -, -, rfl⟩ := encode_eq_ok encoded
    exact placedLabels_refl _ _ _
  | objectStep object reference step =>
    obtain ⟨_, _, -, -, rfl⟩ := encode_eq_ok encoded
    exact placedLabels_refl _ _ _
  | jump kind goal =>
    cases goal <;> cases run_pure_eq_ok.mp encoded <;> exact placedLabels_refl _ _ _
  | word kind =>
    cases run_pure_eq_ok.mp encoded
    exact placedLabels_refl _ _ _
  | anchor value =>
    obtain ⟨-, rfl, -⟩ := anchor_eq_ok encoded
    exact placedLabels_refl _ _ _
  | taskPause goal =>
    cases run_pure_eq_ok.mp encoded
    exact placedLabels_refl _ _ _
  | bare => cases shaped

/-- The labels of a block stand for addresses of statements in it, or for its end. -/
theorem placedLabels_block (block : Block) (shaped : block.Each Statement.Shaped)
    (covered : block.Covered reading.symbols) {offset : Nat} (depth : Nat)
    {assembly next : Assembly} {cells : List Cell}
    (encoded : (Assembler.block reading.around offset block).run assembly = .ok (cells, next)) :
    PlacedLabels assembly.labels next.labels (offset + block.codeSize reading.symbols)
      (block.outline reading.symbols offset depth) := by
  cases block with
  | nil =>
    cases run_pure_eq_ok.mp encoded
    exact placedLabels_refl _ _ _
  | cons origin first rest =>
    obtain ⟨front, between, back, firstOk, restOk, rfl⟩ := block_cons_eq_ok encoded
    rw [totalSize_statement first shaped.1 firstOk] at restOk
    have firstPlaced := placedLabels_statement first shaped.1 covered.1 depth firstOk
    have restPlaced := placedLabels_block rest shaped.2 covered.2 depth restOk
    rw [Block.codeSize, ← Nat.add_assoc]
    intro goal address found
    rcases restPlaced goal address found with known | atEnd | ⟨spot, member, there⟩
    · rcases firstPlaced goal address known with older | behind | ⟨spot, member, there⟩
      · exact Or.inl older
      · -- A label right behind the first statement stands for the next one, if there is one.
        refine Or.inr ?_
        cases only : rest.onlyLabels with
        | true =>
          rw [(Block.codeSize_eq_zero_iff shaped.2).mpr only, Nat.add_zero]
          exact Or.inl behind
        | false =>
          obtain ⟨spot, member, there⟩ := exists_outline_start only reading.symbols
            (offset + first.codeSize reading.symbols) depth
          exact Or.inr ⟨spot, List.mem_append_right _ member, there.trans behind.symm⟩
      · refine Or.inr (Or.inr ⟨spot, List.mem_append_left _ ?_, there⟩)
        cases label : first.isLabel with
        | true =>
          cases first with
          | label goal => cases member
          | _ => cases label
        | false => exact List.mem_cons_of_mem _ member
    · exact Or.inr (Or.inl atEnd)
    · exact Or.inr (Or.inr ⟨spot, List.mem_append_right _ member, there⟩)

end

end Assembler

end MapScript
