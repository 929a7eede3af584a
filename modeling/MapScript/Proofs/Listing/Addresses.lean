/-
This file proves that the statements of a listing stand in the order of their code. A line
is begun at the place of the next byte, and its statement takes that byte before another
line is begun, in its block or behind it. So the addresses rise from line to line, whatever
the blocks of the code claim about where they end: one that ends before it starts, in the
middle of a statement or behind the end of the code only moves the depth. Reading ends by
itself, and where it succeeds it has come to the end of the code.
-/

import MapScript.Proofs.Listing.Lenient
import MapScript.Proofs.Listing.Progress

namespace MapScript

/-! ### Lines that rise -/

/-- The addresses of the lines begun so far, last one first. -/
def Scan.addresses (scan : Scan) : List Nat := scan.lines.map ListedLine.address

/-- Each line begun so far stands behind the ones before it, and before a limit. -/
structure Scan.Rises (scan : Scan) (limit : Nat) : Prop where
  falling : scan.addresses.Pairwise (· > ·)
  below : ∀ address ∈ scan.addresses, address < limit

/-- Lines are only added, and reading does not go back. -/
theorem Scan.Rises.mono {first second : Scan} {limit more : Nat} (rises : first.Rises limit)
    (same : second.addresses = first.addresses) (le : limit ≤ more) : second.Rises more where
  falling := same ▸ rises.falling
  below address member := Nat.lt_of_lt_of_le (rises.below address (same ▸ member)) le

/-- A line that is begun at the next byte stands behind all others. -/
theorem Scan.Rises.begin {scan : Scan} (rises : scan.Rises scan.position) :
    ({ scan with lines := .start scan.position scan.depth :: scan.lines } : Scan).Rises
      (scan.position + 1) where
  falling := List.pairwise_cons.mpr ⟨rises.below, rises.falling⟩
  below := List.forall_mem_cons.mpr
    ⟨Nat.lt_succ_self _, fun address member => Nat.lt_succ_of_lt (rises.below address member)⟩

namespace Decoder

variable {α β : Type} {reading : Reading}

/-- Reading adds lines that rise further, if the lines so far stand before the next byte. -/
def KeepsRising (decoder : Decoder α) : Prop :=
  ∀ scan value next, scan.Rises scan.position → decoder.result scan = (.ok value, next) →
    next.Rises next.position ∧ scan.addresses <:+ next.addresses

theorem keepsRising_bind {decoder : Decoder α} {continuing : α → Decoder β}
    (first : KeepsRising decoder) (second : ∀ value, KeepsRising (continuing value)) :
    KeepsRising (decoder >>= continuing) := by
  intro scan value next rises done
  obtain ⟨found, middle, firstOk, secondOk⟩ := result_bind_eq_ok.mp done
  obtain ⟨risen, front⟩ := first scan found middle rises firstOk
  obtain ⟨high, back⟩ := second found middle value next risen secondOk
  exact ⟨high, front.trans back⟩

/-- A step that leaves the addresses alone. -/
theorem keepsRising_quiet {decoder : Decoder α}
    (quiet : ∀ scan value next, decoder.result scan = (.ok value, next) →
      next.addresses = scan.addresses ∧ scan.position ≤ next.position) : KeepsRising decoder := by
  intro scan value next rises done
  obtain ⟨same, le⟩ := quiet scan value next done
  exact ⟨rises.mono same le, same ▸ List.suffix_refl _⟩

theorem keepsRising_pure (value : α) : KeepsRising (pure value) :=
  keepsRising_quiet fun _ _ _ done => by
    cases done
    exact ⟨rfl, Nat.le_refl _⟩

theorem keepsRising_position : KeepsRising position :=
  keepsRising_quiet fun _ _ _ done => by
    cases done
    exact ⟨rfl, Nat.le_refl _⟩

theorem keepsRising_take (size : Nat) : KeepsRising (take reading size) :=
  keepsRising_quiet fun _ _ _ done => by
    obtain ⟨-, -, rfl⟩ := take_eq_ok done
    exact ⟨rfl, Nat.le_add_right _ _⟩

theorem addresses_modifyHead {change : ListedLine → ListedLine}
    (keeps : ∀ line, (change line).address = line.address) (lines : List ListedLine) :
    (lines.modifyHead change).map ListedLine.address = lines.map ListedLine.address := by
  cases lines with
  | nil => rfl
  | cons line others => rw [List.modifyHead_cons, List.map_cons, List.map_cons, keeps]

theorem keepsRising_changeLine {change : ListedLine → ListedLine}
    (keeps : ∀ line, (change line).address = line.address) : KeepsRising (changeLine change) :=
  keepsRising_quiet fun scan _ _ done => by
    rw [result_changeLine] at done
    cases done
    exact ⟨addresses_modifyHead keeps scan.lines, Nat.le_refl _⟩

theorem keepsRising_note (text : Option String) : KeepsRising (note text) := by
  cases text with
  | none => exact keepsRising_pure ()
  | some text => exact keepsRising_changeLine fun _ => rfl

theorem keepsRising_modify {change : Scan → Scan}
    (lines_eq : ∀ scan, (change scan).lines = scan.lines)
    (position_eq : ∀ scan, (change scan).position = scan.position) :
    KeepsRising (modify change) :=
  keepsRising_quiet fun scan _ _ done => by
    cases done
    exact ⟨congrArg (List.map ListedLine.address) (lines_eq scan),
      Nat.le_of_eq (position_eq scan).symm⟩

theorem relates_keepsRising (reading : Reading) :
    Relates reading reading fun _ decoder _ => KeepsRising decoder where
  agrees := ⟨rfl, rfl⟩
  pure := keepsRising_pure
  bind := keepsRising_bind
  lift {_ attempt} _ := by
    cases attempt with
    | ok value => exact keepsRising_pure value
    | error fault =>
      intro scan value next _ done
      cases done
  take := keepsRising_take
  position := keepsRising_position
  emit _ := keepsRising_changeLine fun _ => rfl
  emitLabel _ := keepsRising_bind (keepsRising_modify (fun _ => rfl) fun _ => rfl) fun _ =>
    keepsRising_changeLine fun _ => rfl
  unknown kind value offset := by
    unfold unknown
    split
    · exact keepsRising_modify (fun _ => rfl) fun _ => rfl
    · intro scan value next _ done
      cases done
  subtitle _ := keepsRising_note _
  flagComment _ _ := keepsRising_note _

/-! ### Statements and blocks -/

/-- Reading that takes a byte before it begins a line, so that the last line may have been begun
right here. -/
def RisesAnew (decoder : Decoder α) : Prop :=
  ∀ scan value next, scan.Rises (scan.position + 1) → decoder.result scan = (.ok value, next) →
    next.Rises next.position ∧ scan.addresses <:+ next.addresses

theorem RisesAnew.keepsRising {decoder : Decoder α} (anew : RisesAnew decoder) :
    KeepsRising decoder :=
  fun scan value next rises done =>
    anew scan value next (rises.mono rfl (Nat.le_succ _)) done

theorem RisesAnew.bind {decoder : Decoder α} {continuing : α → Decoder β}
    (first : RisesAnew decoder) (second : ∀ value, KeepsRising (continuing value)) :
    RisesAnew (decoder >>= continuing) := by
  intro scan value next rises done
  obtain ⟨found, middle, firstOk, secondOk⟩ := result_bind_eq_ok.mp done
  obtain ⟨risen, front⟩ := first scan found middle rises firstOk
  obtain ⟨high, back⟩ := second found middle value next risen secondOk
  exact ⟨high, front.trans back⟩

theorem risesAnew_byte : RisesAnew (byte reading) := by
  intro scan value next rises done
  obtain ⟨rest, -, rfl⟩ := byte_eq_ok done
  exact ⟨rises.mono rfl (Nat.le_refl _), List.suffix_refl _⟩

/-- One round of a block begins a line here, unless the block is over, and its statement takes a
byte. -/
theorem rises_blockStep {statement : Decoder Unit} (anew : RisesAnew statement) {stop : Nat}
    {scan next : Scan} {again : Bool} (rises : scan.Rises scan.position)
    (done : (blockStep stop statement).result scan = (.ok again, next)) :
    next.Rises next.position ∧
      ((again = true ∧ scan.position :: scan.addresses <:+ next.addresses) ∨
        (stop ≤ scan.position ∧ next = scan)) := by
  rcases round_cases done with ⟨again, -, statementOk⟩ | ⟨-, reached, rfl⟩
  · obtain ⟨risen, front⟩ := anew _ () next rises.begin statementOk
    exact ⟨risen, Or.inl ⟨again, front⟩⟩
  · exact ⟨rises, Or.inr ⟨reached, rfl⟩⟩

theorem keepsRising_blockStep {statement : Decoder Unit} (anew : RisesAnew statement)
    (stop : Nat) : KeepsRising (blockStep stop statement) := by
  intro scan again next rises done
  obtain ⟨risen, ⟨-, front⟩ | ⟨-, rfl⟩⟩ := rises_blockStep anew rises done
  · exact ⟨risen, (List.suffix_cons _ _).trans front⟩
  · exact ⟨risen, List.suffix_refl _⟩

theorem keepsRising_rounds {statement : Decoder Unit} (anew : RisesAnew statement)
    (bound stop : Nat) : KeepsRising (repeatWhile bound (blockStep stop statement)) := by
  induction bound with
  | zero => exact keepsRising_bind (keepsRising_blockStep anew stop) fun _ => keepsRising_pure ()
  | succ bound inductionHypothesis =>
    refine keepsRising_bind (keepsRising_blockStep anew stop) fun again => ?_
    cases again with
    | true => exact inductionHypothesis
    | false => exact keepsRising_pure ()

theorem keepsRising_block {statement : Decoder Unit} (anew : RisesAnew statement)
    (bound stop : Nat) : KeepsRising (block bound stop statement) := by
  refine keepsRising_bind keepsRising_position fun place => ?_
  split
  · exact keepsRising_bind (keepsRising_modify (fun _ => rfl) fun _ => rfl) fun _ =>
      keepsRising_bind (keepsRising_rounds anew bound stop) fun _ =>
        keepsRising_modify (fun _ => rfl) fun _ => rfl
  · exact keepsRising_changeLine fun _ => rfl

/-- A block that does not end before it starts has its first line here. -/
theorem suffix_block {statement : Decoder Unit} (anew : RisesAnew statement) {bound stop : Nat}
    {scan next : Scan} (rises : scan.Rises scan.position) (before : scan.position < stop)
    (done : (block bound stop statement).result scan = (.ok (), next)) :
    scan.position :: scan.addresses <:+ next.addresses := by
  unfold block at done
  rw [result_bind (result_position scan), if_pos before,
    result_bind (result_modify _ scan)] at done
  obtain ⟨_, middle, roundsOk, done⟩ := result_bind_eq_ok.mp done
  cases done
  have deeper : ({ scan with depth := scan.depth + 1 } : Scan).Rises scan.position :=
    rises.mono rfl (Nat.le_refl _)
  -- The first round takes a statement, and the other rounds only add lines.
  cases bound with
  | zero =>
    obtain ⟨again, begun, stepOk, rest⟩ := result_bind_eq_ok.mp roundsOk
    cases rest
    obtain ⟨-, ⟨-, front⟩ | ⟨reached, -⟩⟩ := rises_blockStep anew deeper stepOk
    · exact front
    · exact absurd before (Nat.not_lt.mpr reached)
  | succ bound =>
    obtain ⟨again, begun, stepOk, rest⟩ := result_bind_eq_ok.mp roundsOk
    obtain ⟨risen, ⟨rfl, front⟩ | ⟨reached, -⟩⟩ := rises_blockStep anew deeper stepOk
    · exact front.trans (keepsRising_rounds anew bound stop begun () middle risen rest).2
    · exact absurd before (Nat.not_lt.mpr reached)

theorem risesAnew_value (reading : Reading) (bound : Nat) (place : Position)
    (slot : Option Slot) : RisesAnew (value reading bound place slot) := by
  have relates := relates_keepsRising reading
  induction bound generalizing place slot with
  | zero =>
    exact (risesAnew_byte.bind fun _ => keepsRising_pure ()).bind fun _ => keepsRising_pure none
  | succ bound inductionHypothesis =>
    have values (place slot) := (inductionHypothesis place slot).keepsRising
    have blocks := keepsRising_block
      ((inductionHypothesis .statement none).bind fun _ => keepsRising_pure ()) bound
    intro scan found next rises done
    rw [value, result_bind (result_position scan)] at done
    refine risesAnew_byte.bind (fun code => ?_) scan found next rises done
    split
    · exact @Relates.operand _ _ _ relates (value reading bound) (value reading bound) values _
        blocks place slot _
    · exact keepsRising_bind (relates.unknown _ _ _) fun _ => keepsRising_pure none

theorem risesAnew_statement (reading : Reading) (bound : Nat) :
    RisesAnew (statement reading bound) :=
  (risesAnew_value reading bound .statement none).bind fun _ => keepsRising_pure ()

/-- The lines of a script that is read rise up to where reading ends, and the first one is at the
start of its code. -/
theorem rises_script {scan : Scan}
    (done : (script reading).result (.start reading.program.code) = (.ok (), scan)) :
    scan.Rises scan.position ∧
      (0 < reading.program.code.length → scan.addresses.getLast? = some 0) := by
  have start : (Scan.start reading.program.code).Rises 0 :=
    ⟨List.Pairwise.nil, fun _ member => absurd member List.not_mem_nil⟩
  have anew := risesAnew_statement reading reading.program.code.length
  refine ⟨(keepsRising_block anew _ _ _ () scan start done).1, fun filled => ?_⟩
  obtain ⟨others, whole⟩ := suffix_block anew start filled done
  rw [← whole]
  exact List.getLast?_concat

end Decoder

/-- The statements of a listing of so much code stand in order: reading has come to the end of the
code, the first statement starts the code if there is any, and each starts behind the ones before
it and before the end. -/
structure Listing.Orderly (listing : Listing) (length : Nat) : Prop where
  cursor_eq : listing.cursor = length
  head_eq : 0 < length → (listing.lines.map ListedLine.address).head? = some 0
  rising : (listing.lines.map ListedLine.address).Pairwise (· < ·)
  below : ∀ line ∈ listing.lines, line.address < length

/-- Reading a script ends by itself, whatever its code is, strictly or leniently; it takes the bytes
of the code in order. If it succeeds, all bytes were taken and the statements stand in order. -/
theorem Program.listing_ends (program : Program) (symbols : Symbols) (lenient : Bool) :
    Reading.Ends ⟨program, symbols, lenient⟩ ∧
      ∀ listing, (program.listing symbols lenient).outcome.1 = .ok listing →
        listing.Orderly program.code.length := by
  refine ⟨Reading.ends _, fun listing listed => ?_⟩
  obtain ⟨scan, ended, rfl⟩ := exists_scan_of_listing listed
  have cursor := (Decoder.guardsClose_script ended).1
  obtain ⟨rises, first⟩ := Decoder.rises_script ended
  have addresses : (scan.listing program).lines.map ListedLine.address = scan.addresses.reverse :=
    List.map_reverse
  refine ⟨cursor, fun filled => ?_, ?_, fun line member => ?_⟩
  · rw [addresses, List.head?_reverse]
    exact first filled
  · rw [addresses, List.pairwise_reverse]
    exact rises.falling
  · rw [← cursor]
    exact rises.below _ (List.mem_map_of_mem (List.mem_reverse.mp member))

/-- Code of a condition that has another one as its left side. The block of the inner one ends
within a jump, that of the outer one before it starts; a byte without a meaning follows. -/
def bogCode : Bytes :=
  [3, 3, 7, 1, 0, 0, 0, 0, 7, 2, 0, 0, 0, 0, 20, 0, 0, 0] ++ [18] ++ [4, 5, 0, 0, 0] ++
    [1, 7, 3, 0, 0, 0, 0, 0, 0, 0, 0] ++ [0xFF]

theorem Program.listing_ends_bog :
    (∃ listing, ((marshProgram bogCode).listing doorSymbols true).outcome.1 = .ok listing ∧
      listing.lines.map ListedLine.address = [0, 18, 19, 35] ∧ listing.Orderly 36) ∧
    Reading.Ends ⟨marshProgram bogCode, doorSymbols, true⟩ := by
  obtain ⟨ends, orderly⟩ := listing_ends (marshProgram bogCode) doorSymbols true
  obtain ⟨listing, listed, addresses⟩ := @exists_ok_of_any _
    ((marshProgram bogCode).listing doorSymbols true).outcome.1
    (fun listing => listing.lines.map ListedLine.address = [0, 18, 19, 35]) (by decide +kernel)
  exact ⟨⟨listing, listed, of_decide_eq_true addresses, orderly listing listed⟩, ends⟩

end MapScript
