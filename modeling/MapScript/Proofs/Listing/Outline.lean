/-
This file says what the listing of a script is, on the script itself: which statements
it lists, where each of them starts and how deep it stands, what its line says, and
which labels it refers to. A label is no statement of the listing; it is an address that
others refer to.
-/

import MapScript.Proofs.Listing.Formulas

namespace MapScript

/-! ### Sizes of statements -/

mutual

/-- The number of bytes that a statement takes. -/
def Statement.codeSize (symbols : Symbols) : Statement → Nat
  | .label _ => 0
  | .expression value => value.codeSize symbols .statement
  | .assign target formula => target.codeSize symbols .statement + formula.codeSize symbols
  | .objectStep .. => 5
  | .branch clauses body => 5 + clausesSize symbols clauses + body.codeSize symbols
  | .returnGuard _ body => 2 + body.codeSize symbols
  | .jump .. => 5
  | .word _ => 1
  | .anchor _ => 2
  | .taskPause _ => 5
  | .bare => 0

/-- The number of bytes that the statements of a block take. -/
def Block.codeSize (symbols : Symbols) : Block → Nat
  | .nil => 0
  | .cons _ first rest => first.codeSize symbols + rest.codeSize symbols

end

/-! ### Statements and their places -/

/-- Whether a statement is a label. -/
def Statement.isLabel : Statement → Bool
  | .label _ => true
  | _ => false

/-- Whether a block holds no statement but labels. -/
def Block.onlyLabels : Block → Bool
  | .nil => true
  | .cons _ first rest => first.isLabel && rest.onlyLabels

/-- Whether a statement is a condition whose block holds no statement but labels. -/
def Statement.hasEmptyBody : Statement → Bool
  | .branch _ body => body.onlyLabels
  | .returnGuard _ body => body.onlyLabels
  | _ => false

/-- A statement, the address where its code starts, and its depth. -/
structure Spot where
  address : Nat
  depth : Nat
  statement : Statement

mutual

/-- The places of the statements in the block of a statement, labels left out. -/
def Statement.nested (symbols : Symbols) (offset depth : Nat) : Statement → List Spot
  | .branch clauses body =>
    body.outline symbols (offset + 5 + clausesSize symbols clauses) (depth + 1)
  | .returnGuard _ body => body.outline symbols (offset + 2) (depth + 1)
  | _ => []

/-- The places of the statements of a block and of the blocks in it, in the order of the
text, labels left out. -/
def Block.outline (symbols : Symbols) (offset depth : Nat) : Block → List Spot
  | .nil => []
  | .cons _ first rest =>
    (if first.isLabel then []
      else ⟨offset, depth, first⟩ :: first.nested symbols offset depth) ++
      rest.outline symbols (offset + first.codeSize symbols) depth

end

/-- Where the last statement of a block starts, labels and nested blocks left out. -/
def Block.lastStart? (symbols : Symbols) (offset : Nat) : Block → Option Nat
  | .nil => none
  | .cons _ first rest =>
    match rest.lastStart? symbols (offset + first.codeSize symbols) with
    | some start => some start
    | none => if first.isLabel then none else some offset

/-! ### Uses of labels -/

/-- A use of a label. An optional one goes nowhere if the label's address is zero. -/
structure LabelUse where
  label : Int
  optional : Bool
  deriving DecidableEq, Repr

/-- The address that a use of a label leads to, if any. -/
def LabelUse.landing? (labels : Registry Int Nat) (use : LabelUse) : Option Nat :=
  match labels.find? use.label with
  | some address => if use.optional && address == 0 then none else some address
  | none => none

theorem LabelUse.find?_of_landing? {labels : Registry Int Nat} {use : LabelUse} {address : Nat}
    (landing : use.landing? labels = some address) : labels.find? use.label = some address := by
  unfold landing? at landing
  split at landing
  · rename_i found
    split at landing
    · cases landing
    · cases landing
      exact found
  · cases landing

mutual

/-- The labels that a statement and its block refer to. -/
def Statement.uses : Statement → List LabelUse
  | .branch _ body => body.uses
  | .returnGuard _ body => body.uses
  | .jump kind (some goal) => [⟨goal, kind != .gosub⟩]
  | .taskPause goal => [⟨goal, false⟩]
  | _ => []

/-- The labels that a block refers to. -/
def Block.uses : Block → List LabelUse
  | .nil => []
  | .cons _ first rest => first.uses ++ rest.uses

end

/-! ### Lines -/

/-- The text of a jump in a listing. -/
def jumpText (kind : JumpKind) (address : Nat) : String :=
  if kind ≠ .gosub ∧ address = 0 then kind.text else kind.text ++ " " ++ labelText address

/-- What the line of a statement says. -/
def Statement.heading (reading : Reading) (labels : Registry Int Nat) : Statement → Excerpt
  | .expression value => value.excerpt reading .statement none
  | .assign target formula =>
    target.excerpt reading .statement none ++
      (.plain " = " ++ formula.excerpt reading .formula none ++
        ⟨"", reading.targetComment? target⟩)
  | .objectStep object reference step =>
    .plain (reading.objectText object ++ ".") ++
      (.plain (reading.referenceText reference) ++ .plain step.text)
  | .branch clauses _ => .plain "if " ++ clausesExcerpt reading clauses
  | .returnGuard value _ => .plain ("if <ScriptRv> = " ++ String.ofList (Text.integer value))
  | .jump kind goal => .plain (jumpText kind ((goal.bind labels.find?).getD 0))
  | .word kind => .plain kind.text
  | .anchor value => .plain ("<Anchor>=" ++ String.ofList (Text.integer value))
  | .taskPause goal =>
    .plain ("<TaskPause(" ++ labelText ((labels.find? goal).getD 0) ++ ")>")
  | .label _ => .plain ""
  | .bare => .plain ""

/-- The line of a statement in a listing. -/
def Spot.line (reading : Reading) (labels : Registry Int Nat) (spot : Spot) : ListedLine :=
  let heading := spot.statement.heading reading labels
  ⟨spot.address, spot.depth, heading.text, heading.comment, spot.statement.hasEmptyBody⟩

/-! ### Guards on the returned value -/

mutual

/-- The block of every guard on the returned value ends where reading takes it to end: it
takes at least four bytes, and its last statement starts within the first four. -/
def Statement.Covered (symbols : Symbols) : Statement → Prop
  | .branch _ body => body.Covered symbols
  | .returnGuard _ body =>
    returnGuardSize ≤ body.codeSize symbols ∧
      (∃ start ∈ body.lastStart? symbols 0, start < returnGuardSize) ∧ body.Covered symbols
  | _ => True

/-- The guards in a block are covered. -/
def Block.Covered (symbols : Symbols) : Block → Prop
  | .nil => True
  | .cons _ first rest => first.Covered symbols ∧ rest.Covered symbols

end

mutual

/-- Whether the guards in the block of a statement are covered. -/
def Statement.decideCovered (symbols : Symbols) :
    (statement : Statement) → Decidable (statement.Covered symbols)
  | .branch _ body => body.decideCovered symbols
  | .returnGuard _ body =>
    have := body.decideCovered symbols
    inferInstanceAs (Decidable (returnGuardSize ≤ body.codeSize symbols ∧
      (∃ start ∈ body.lastStart? symbols 0, start < returnGuardSize) ∧ body.Covered symbols))
  | .label _ | .expression _ | .assign .. | .objectStep .. | .jump .. | .word _ | .anchor _
  | .taskPause _ | .bare => isTrue trivial

/-- Whether the guards in a block are covered. -/
def Block.decideCovered (symbols : Symbols) : (block : Block) → Decidable (block.Covered symbols)
  | .nil => isTrue trivial
  | .cons _ first rest =>
    have := first.decideCovered symbols
    have := rest.decideCovered symbols
    inferInstanceAs (Decidable (first.Covered symbols ∧ rest.Covered symbols))

end

instance (symbols : Symbols) (block : Block) : Decidable (block.Covered symbols) :=
  block.decideCovered symbols

/-! ### Sizes and places -/

theorem Term.codeSize_pos {value : Term} (alone : Reader.standsAlone value = true)
    (symbols : Symbols) (position : Position) : 0 < value.codeSize symbols position := by
  cases value with
  | call name arguments multitask =>
    rw [Term.codeSize]
    omega
  | number value => exact Nat.succ_pos 4
  | text written => exact Nat.succ_pos 4
  | objectCall object name arguments multitask =>
    rw [Term.codeSize]
    split <;> omega
  | flag name => cases alone
  | localVariable index => cases alone
  | property object name => cases alone
  | chain head operators operands step => cases alone

/-- Every statement but a label takes some code. -/
theorem Statement.codeSize_pos {statement : Statement} (shaped : statement.Shaped)
    (notLabel : statement.isLabel = false) (symbols : Symbols) :
    0 < statement.codeSize symbols := by
  cases statement with
  | label label => cases notLabel
  | expression value => exact Term.codeSize_pos shaped symbols .statement
  | assign target formula =>
    rw [codeSize, Formula.codeSize, Formula.tailSize]
    split <;> omega
  | objectStep object reference step => exact Nat.succ_pos 4
  | branch clauses body =>
    rw [codeSize]
    omega
  | returnGuard value body =>
    rw [codeSize]
    omega
  | jump kind label => exact Nat.succ_pos 4
  | word kind => exact Nat.succ_pos 0
  | anchor value => exact Nat.succ_pos 1
  | taskPause label => exact Nat.succ_pos 4
  | bare => cases shaped

theorem Statement.codeSize_of_isLabel {statement : Statement} (label : statement.isLabel = true)
    (symbols : Symbols) : statement.codeSize symbols = 0 := by
  cases statement <;> first | rfl | cases label

namespace Block

variable {symbols : Symbols}

theorem codeSize_eq_zero_iff {block : Block} (shaped : block.Each Statement.Shaped) :
    block.codeSize symbols = 0 ↔ block.onlyLabels = true := by
  match block with
  | .nil => exact ⟨fun _ => rfl, fun _ => rfl⟩
  | .cons origin first rest =>
    have others := codeSize_eq_zero_iff shaped.2
    rw [codeSize, onlyLabels, Nat.add_eq_zero_iff, Bool.and_eq_true, others]
    refine and_congr_left fun _ => ?_
    constructor
    · intro none
      cases label : first.isLabel with
      | true => rfl
      | false => exact absurd none (Nat.ne_of_gt (first.codeSize_pos shaped.1.self label symbols))
    · exact fun label => first.codeSize_of_isLabel label symbols

theorem outline_of_onlyLabels {block : Block} (only : block.onlyLabels = true)
    {offset depth : Nat} : block.outline symbols offset depth = [] := by
  match block with
  | .nil => rfl
  | .cons origin first rest =>
    obtain ⟨label, others⟩ := (Bool.and_eq_true _ _).mp only
    rw [outline, if_pos label, outline_of_onlyLabels others]
    rfl

theorem uses_of_onlyLabels {block : Block} (only : block.onlyLabels = true) : block.uses = [] := by
  match block with
  | .nil => rfl
  | .cons origin first rest =>
    obtain ⟨label, others⟩ := (Bool.and_eq_true _ _).mp only
    rw [uses, uses_of_onlyLabels others, List.append_nil]
    cases first <;> first | rfl | cases label

theorem le_lastStart? {block : Block} {offset start : Nat}
    (last : block.lastStart? symbols offset = some start) : offset ≤ start := by
  match block with
  | .cons origin first rest =>
    rw [lastStart?] at last
    split at last
    · rename_i found
      cases last
      exact Nat.le_trans (Nat.le_add_right _ _) (le_lastStart? found)
    · split at last
      · cases last
      · cases last
        exact Nat.le_refl _

/-- The last statement of a block starts before its end. -/
theorem lastStart?_lt {block : Block} (shaped : block.Each Statement.Shaped) {offset start : Nat}
    (last : block.lastStart? symbols offset = some start) :
    start < offset + block.codeSize symbols := by
  match block with
  | .cons origin first rest =>
    rw [lastStart?] at last
    rw [codeSize]
    split at last
    · rename_i found
      cases last
      have before := lastStart?_lt shaped.2 found
      omega
    · split at last
      · cases last
      · rename_i notLabel
        cases last
        have positive := first.codeSize_pos shaped.1.self (Bool.eq_false_iff.mpr notLabel) symbols
        omega

/-- Where a block starts only shifts its statements. -/
theorem lastStart?_add (block : Block) (base offset : Nat) :
    block.lastStart? symbols (base + offset) =
      (block.lastStart? symbols offset).map (base + ·) := by
  match block with
  | .nil => rfl
  | .cons origin first rest =>
    rw [lastStart?, lastStart?, Nat.add_assoc, lastStart?_add rest base]
    cases rest.lastStart? symbols (offset + first.codeSize symbols) with
    | some start => rfl
    | none =>
      cases first.isLabel with
      | true => rfl
      | false => rfl

theorem lastStart?_isSome (symbols : Symbols) {block : Block} (offset : Nat)
    (filled : block.onlyLabels = false) : ∃ start, block.lastStart? symbols offset = some start := by
  match block with
  | .nil => cases filled
  | .cons origin first rest =>
    rw [lastStart?]
    cases found : rest.lastStart? symbols (offset + first.codeSize symbols) with
    | some start => exact ⟨start, rfl⟩
    | none =>
      cases label : first.isLabel with
      | false => exact ⟨offset, rfl⟩
      | true =>
        rw [onlyLabels, label, Bool.true_and] at filled
        obtain ⟨start, there⟩ :=
          lastStart?_isSome symbols (offset + first.codeSize symbols) filled
        rw [found] at there
        cases there

end Block

end MapScript
