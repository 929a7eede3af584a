/-
This file proves that reading code comes to an end by itself. Reading takes bytes in order,
whether it succeeds or fails, and a value that is read takes at least its opcode. So each
round of a loop takes a byte, and each value inside another one starts behind the opcode of
that one: a loop that were not bounded would end all the same, and with the same outcome,
and values never nest as deep as the bound. The bounds are only there to let reading be
defined; what is done where they are used up does not matter.
-/

import MapScript.Proofs.Listing.Blocks
import MapScript.Proofs.Listing.Guards

namespace MapScript

/-! ### Bytes in order -/

/-- Reading has gone on from one state to another and has taken these bytes, none twice and
none left out. -/
structure Scan.Takes (first : Scan) (taken : Bytes) (second : Scan) : Prop where
  rest_eq : first.rest = taken ++ second.rest
  position_eq : second.position = first.position + taken.length

theorem Scan.Takes.refl {first second : Scan} (rest : second.rest = first.rest)
    (position : second.position = first.position) : first.Takes [] second :=
  ⟨rest.symm, position⟩

theorem Scan.Takes.trans {first second third : Scan} {front back : Bytes}
    (one : first.Takes front second) (two : second.Takes back third) :
    first.Takes (front ++ back) third where
  rest_eq := by rw [one.rest_eq, two.rest_eq, List.append_assoc]
  position_eq := by rw [two.position_eq, one.position_eq, List.length_append, Nat.add_assoc]

namespace Decoder

variable {α β : Type} {reading : Reading}

/-- Reading takes bytes in order, also when it fails. -/
def InOrder (decoder : Decoder α) : Prop :=
  ∀ scan : Scan, ∃ taken, scan.Takes taken (decoder.result scan).2

theorem inOrder_bind {decoder : Decoder α} {continuing : α → Decoder β}
    (first : InOrder decoder) (second : ∀ value, InOrder (continuing value)) :
    InOrder (decoder >>= continuing) := by
  intro scan
  obtain ⟨front, one⟩ := first scan
  cases outcome : decoder.result scan with
  | mk attempt middle =>
    rw [outcome] at one
    cases attempt with
    | error fault =>
      rw [result_bind_error outcome]
      exact ⟨front, one⟩
    | ok value =>
      obtain ⟨back, two⟩ := second value middle
      rw [result_bind outcome]
      exact ⟨front ++ back, one.trans two⟩

/-- A step that takes no bytes. -/
theorem inOrder_quiet {decoder : Decoder α} (quiet : ∀ scan,
    (decoder.result scan).2.rest = scan.rest ∧
      (decoder.result scan).2.position = scan.position) : InOrder decoder :=
  fun scan => ⟨[], .refl (quiet scan).1 (quiet scan).2⟩

theorem inOrder_pure (value : α) : InOrder (pure value) :=
  inOrder_quiet fun _ => ⟨rfl, rfl⟩

theorem inOrder_take (size : Nat) : InOrder (take reading size) := by
  intro scan
  rw [result_take]
  split
  · rename_i enough
    refine ⟨scan.rest.take size, (List.take_append_drop size scan.rest).symm, ?_⟩
    rw [List.length_take_of_le enough]
  · exact ⟨[], .refl rfl rfl⟩

theorem inOrder_changeLine (change : ListedLine → ListedLine) : InOrder (changeLine change) := by
  refine inOrder_quiet fun scan => ?_
  rw [result_changeLine]
  exact ⟨rfl, rfl⟩

theorem inOrder_note (text : Option String) : InOrder (note text) := by
  refine inOrder_quiet fun scan => ?_
  rw [result_note]
  exact ⟨rfl, rfl⟩

theorem inOrder_unknown (kind : ByteKind) (value : UInt8) (offset : Nat) :
    InOrder (unknown reading kind value offset) := by
  unfold unknown
  split
  · exact inOrder_quiet fun _ => ⟨rfl, rfl⟩
  · exact inOrder_quiet fun _ => ⟨rfl, rfl⟩

theorem relates_inOrder (reading : Reading) :
    RelatesLines reading reading fun _ decoder _ => InOrder decoder where
  agrees := ⟨rfl, rfl⟩
  pure := inOrder_pure
  bind := inOrder_bind
  lift _ := inOrder_quiet fun _ => ⟨rfl, rfl⟩
  take := inOrder_take
  position := inOrder_quiet fun _ => ⟨rfl, rfl⟩
  emit _ := inOrder_changeLine _
  emitLabel _ := inOrder_bind (inOrder_quiet fun _ => ⟨rfl, rfl⟩) fun _ => inOrder_changeLine _
  unknown := inOrder_unknown
  subtitle _ := inOrder_note _
  flagComment _ _ := inOrder_note _
  beginLine := inOrder_quiet fun _ => ⟨rfl, rfl⟩
  deepen := inOrder_quiet fun _ => ⟨rfl, rfl⟩
  surface := inOrder_quiet fun _ => ⟨rfl, rfl⟩
  markEmpty := inOrder_changeLine _

theorem inOrder_value (reading : Reading) (bound : Nat) (place : Position) (slot : Option Slot) :
    InOrder (value reading bound place slot) :=
  (relates_inOrder reading).value bound place slot

/-- Bytes that are left were there before. -/
theorem InOrder.length_le {decoder : Decoder α} (inOrder : InOrder decoder) (scan : Scan) :
    (decoder.result scan).2.rest.length ≤ scan.rest.length := by
  obtain ⟨taken, takes⟩ := inOrder scan
  rw [takes.rest_eq, List.length_append]
  exact Nat.le_add_left _ _

/-! ### Readings that take a byte -/

/-- Reading that succeeds has taken a byte. -/
def TakesByte (decoder : Decoder α) : Prop :=
  ∀ scan value next, decoder.result scan = (.ok value, next) → next.rest.length < scan.rest.length

theorem takesByte_byte : TakesByte (byte reading) := by
  intro scan value next done
  obtain ⟨rest, split, rfl⟩ := byte_eq_ok done
  rw [split]
  exact Nat.lt_succ_self _

/-- Reading that goes on takes no byte back. -/
theorem TakesByte.bind {decoder : Decoder α} {continuing : α → Decoder β}
    (first : TakesByte decoder) (second : ∀ value, InOrder (continuing value)) :
    TakesByte (decoder >>= continuing) := by
  intro scan value next done
  obtain ⟨found, middle, firstOk, secondOk⟩ := result_bind_eq_ok.mp done
  have left := (second found).length_le middle
  rw [secondOk] at left
  exact Nat.lt_of_le_of_lt left (first scan found middle firstOk)

theorem takesByte_position_bind {continuing : Nat → Decoder α}
    (each : ∀ offset, TakesByte (continuing offset)) : TakesByte (position >>= continuing) :=
  fun scan value next done =>
    each _ scan value next ((result_bind (result_position scan) _).symm.trans done)

theorem inOrder_operand (reading : Reading) (bound : Nat) (place : Position)
    (slot : Option Slot) (opcode : Opcode) :
    InOrder (operand reading bound (value reading bound) place slot opcode) := by
  have relates := relates_inOrder reading
  have values := inOrder_value reading bound
  exact @Relates.operand _ _ _ relates.toRelates _ (value reading bound) values _
    (@RelatesLines.block _ _ _ relates _ (discard (value reading bound .statement none))
      (inOrder_bind (values .statement none) fun _ => inOrder_pure ()) bound) place slot opcode

theorem takesByte_value (reading : Reading) (bound : Nat) (place : Position)
    (slot : Option Slot) : TakesByte (value reading bound place slot) := by
  cases bound with
  | zero => exact (takesByte_byte.bind fun _ => inOrder_pure ()).bind fun _ => inOrder_pure none
  | succ bound =>
    refine takesByte_position_bind fun offset => takesByte_byte.bind fun code => ?_
    split
    · exact inOrder_operand reading bound place slot _
    · exact inOrder_bind (inOrder_unknown _ _ _) fun _ => inOrder_pure none

theorem takesByte_statement (reading : Reading) (bound : Nat) :
    TakesByte (statement reading bound) :=
  (takesByte_value reading bound .statement none).bind fun _ => inOrder_pure ()

/-! ### Loops -/

/-- What repeating a step without a bound comes to: the step fails, or says that it was the
last one, or is followed by more. A loop that goes on for ever has no outcome. -/
inductive Repeats (step : Decoder Bool) : Scan → Except Fault Unit × Scan → Prop
  | fails {scan next : Scan} {fault : Fault} (failed : step.result scan = (.error fault, next)) :
    Repeats step scan (.error fault, next)
  | last {scan next : Scan} (done : step.result scan = (.ok false, next)) :
    Repeats step scan (.ok (), next)
  | more {scan next : Scan} {outcome : Except Fault Unit × Scan}
    (done : step.result scan = (.ok true, next)) (rest : Repeats step next outcome) :
    Repeats step scan outcome

/-- A step that takes a byte whenever another one follows. -/
def Shrinks (step : Decoder Bool) : Prop :=
  ∀ scan next, step.result scan = (.ok true, next) → next.rest.length < scan.rest.length

theorem TakesByte.shrinks {step : Decoder Bool} (takesByte : TakesByte step) : Shrinks step :=
  fun scan next done => takesByte scan true next done

/-- As many rounds as there are bytes are enough. -/
theorem repeats_repeatWhile {step : Decoder Bool} (shrinks : Shrinks step) {bound : Nat}
    {scan : Scan} (few : scan.rest.length ≤ bound) :
    Repeats step scan ((repeatWhile bound step).result scan) := by
  induction bound generalizing scan with
  | zero =>
    cases outcome : step.result scan with
    | mk attempt next =>
      cases attempt with
      | error fault =>
        have whole := result_bind_error outcome fun _ => pure ()
        exact whole ▸ .fails outcome
      | ok again =>
        cases again with
        | true => exact absurd (shrinks scan next outcome) (by omega)
        | false =>
          rw [repeatWhile, result_discard outcome]
          exact .last outcome
  | succ bound inductionHypothesis =>
    cases outcome : step.result scan with
    | mk attempt next =>
      cases attempt with
      | error fault =>
        rw [repeatWhile, result_bind_error outcome]
        exact .fails outcome
      | ok again =>
        rw [repeatWhile, result_bind outcome]
        cases again with
        | true =>
          have fewer := shrinks scan next outcome
          exact .more outcome (inductionHypothesis (by omega))
        | false => exact .last outcome

/-- One round of reading operators and their terms. -/
def operatorStep (reading : Reading) (term : Decoder Unit) : Decoder Bool := do
  if ← operator reading then
    term
    pure true
  else pure false

theorem takesByte_operator : TakesByte (operator reading) := by
  refine takesByte_position_bind fun offset => takesByte_byte.bind fun code => ?_
  split
  · exact inOrder_bind (inOrder_changeLine _) fun _ => inOrder_pure true
  · refine inOrder_bind (inOrder_changeLine _) fun _ => inOrder_bind ?_ fun _ => inOrder_pure false
    exact inOrder_bind (relates_inOrder reading).byte fun _ => inOrder_pure ()
  · split
    · exact inOrder_bind (inOrder_pure _) fun _ => inOrder_pure false
    · exact inOrder_bind (inOrder_unknown _ _ _) fun _ => inOrder_pure false

theorem shrinks_operatorStep {term : Decoder Unit} (inOrder : InOrder term) :
    Shrinks (operatorStep reading term) := by
  refine TakesByte.shrinks (takesByte_operator.bind fun again => ?_)
  split
  · exact inOrder_bind inOrder fun _ => inOrder_pure true
  · exact inOrder_pure false

/-- A clause starts with a value. -/
theorem shrinks_clause (reading : Reading) (bound : Nat) :
    Shrinks (clause reading (value reading bound)) := by
  have byteInOrder : InOrder (byte reading) := (relates_inOrder reading).byte
  have placeInOrder : InOrder position := (relates_inOrder reading).position
  have right (slot : Option Slot) : InOrder (discard (value reading bound .right slot)) :=
    inOrder_bind (inOrder_value reading bound .right slot) fun _ => inOrder_pure ()
  refine TakesByte.shrinks ((takesByte_value reading bound .left none).bind fun called =>
    inOrder_bind placeInOrder fun offset => inOrder_bind byteInOrder fun code => ?_)
  dsimp only
  split
  case' h_1 => refine inOrder_bind (inOrder_changeLine _) fun _ => ?_
  case' h_2 => refine inOrder_bind (inOrder_unknown _ _ _) fun _ => ?_
  all_goals
    refine inOrder_bind (right _) fun _ =>
      inOrder_bind placeInOrder fun offset => inOrder_bind byteInOrder fun code => ?_
    split
    · exact inOrder_bind (inOrder_unknown _ _ _) fun _ => inOrder_pure _
    · exact inOrder_pure _
    · exact inOrder_bind (inOrder_changeLine _) fun _ => inOrder_pure _

theorem shrinks_blockStep {statement : Decoder Unit} (takesByte : TakesByte statement)
    (stop : Nat) : Shrinks (blockStep stop statement) := by
  intro scan next done
  rcases round_cases done with ⟨-, -, statementOk⟩ | ⟨never, -⟩
  · have fewer := takesByte _ () next statementOk
    exact fewer
  · cases never

/-! ### Nesting -/

/-- Reading of a value, with something else in place of what is done where the bound on the
nesting is used up. -/
def valueBeyond (reading : Reading) (beyond : ValueReader) : (bound : Nat) → ValueReader
  | 0, place, slot => do
    discard (byte reading)
    beyond place slot
  | bound + 1, place, slot => do
    let offset ← position
    let code ← byte reading
    match Opcode.ofCode? code with
    | some opcode => operand reading bound (valueBeyond reading beyond bound) place slot opcode
    | none =>
      unknown reading .opcode code offset
      pure none

/-- Readings that come to the same where at most so many bytes are left, and take bytes in
order. -/
structure SameWithin (count : Nat) (first second : Decoder α) : Prop where
  inOrder : InOrder second
  result_eq : ∀ scan : Scan, scan.rest.length ≤ count → first.result scan = second.result scan

theorem SameWithin.of_inOrder {decoder : Decoder α} (inOrder : InOrder decoder) (count : Nat) :
    SameWithin count decoder decoder :=
  ⟨inOrder, fun _ _ => rfl⟩

theorem SameWithin.bind {count : Nat} {first second : Decoder α} {next later : α → Decoder β}
    (same : SameWithin count first second)
    (following : ∀ value, SameWithin count (next value) (later value)) :
    SameWithin count (first >>= next) (second >>= later) where
  inOrder := inOrder_bind same.inOrder fun value => (following value).inOrder
  result_eq scan few := by
    have here := same.result_eq scan few
    have left := same.inOrder.length_le scan
    cases outcome : second.result scan with
    | mk attempt middle =>
      rw [outcome] at here left
      cases attempt with
      | error fault => rw [result_bind_error here, result_bind_error outcome]
      | ok value =>
        rw [result_bind here, result_bind outcome]
        exact (following value).result_eq middle (Nat.le_trans left few)

/-- Behind a byte there are fewer left. -/
theorem SameWithin.of_takesByte {count : Nat} {first : Decoder α} {next later : α → Decoder β}
    (takesByte : TakesByte first) (inOrder : InOrder first)
    (following : ∀ value, InOrder (later value) ∧ ∀ scan : Scan, scan.rest.length < count →
      (next value).result scan = (later value).result scan) :
    SameWithin count (first >>= next) (first >>= later) where
  inOrder := inOrder_bind inOrder fun value => (following value).1
  result_eq scan few := by
    cases outcome : first.result scan with
    | mk attempt middle =>
      cases attempt with
      | error fault => rw [result_bind_error outcome, result_bind_error outcome]
      | ok value =>
        have fewer := Nat.lt_of_lt_of_le (takesByte scan value middle outcome) few
        rw [result_bind outcome, result_bind outcome]
        exact (following value).2 middle fewer

theorem relates_sameWithin (reading : Reading) (count : Nat) :
    RelatesLines reading reading fun _ => SameWithin count where
  agrees := ⟨rfl, rfl⟩
  pure value := .of_inOrder (inOrder_pure value) count
  bind := SameWithin.bind
  lift failsOnly := .of_inOrder ((relates_inOrder reading).lift failsOnly) count
  take size := .of_inOrder (inOrder_take size) count
  position := .of_inOrder (relates_inOrder reading).position count
  emit text := .of_inOrder ((relates_inOrder reading).emit text) count
  emitLabel address := .of_inOrder ((relates_inOrder reading).emitLabel address) count
  unknown kind value offset := .of_inOrder (inOrder_unknown kind value offset) count
  subtitle _ := .of_inOrder (inOrder_note _) count
  flagComment here there := by
    cases here.symm.trans there
    exact .of_inOrder (inOrder_note _) count
  beginLine := .of_inOrder (relates_inOrder reading).beginLine count
  deepen := .of_inOrder (relates_inOrder reading).deepen count
  surface := .of_inOrder (relates_inOrder reading).surface count
  markEmpty := .of_inOrder (relates_inOrder reading).markEmpty count

/-- What is done where the bound on the nesting is used up does not matter. -/
theorem sameWithin_value (reading : Reading) (beyond : ValueReader) (bound : Nat)
    (place : Position) (slot : Option Slot) :
    SameWithin bound (valueBeyond reading beyond bound place slot)
      (value reading bound place slot) := by
  have byteInOrder : InOrder (byte reading) := (relates_inOrder reading).byte
  induction bound generalizing place slot with
  | zero =>
    exact .of_takesByte (takesByte_byte.bind fun _ => inOrder_pure ())
      (inOrder_bind byteInOrder fun _ => inOrder_pure ()) fun _ =>
        ⟨inOrder_pure none, fun scan none => absurd none (Nat.not_lt_zero _)⟩
  | succ bound inductionHypothesis =>
    have relates := relates_sameWithin reading bound
    have blocks := relates.block (relates.discard (inductionHypothesis .statement none)) bound
    refine SameWithin.bind (.of_inOrder (relates_inOrder reading).position _) fun offset =>
      .of_takesByte takesByte_byte byteInOrder fun code => ?_
    cases Opcode.ofCode? code with
    | some opcode =>
      have inside := relates.operand inductionHypothesis blocks place slot opcode
      exact ⟨inside.inOrder, fun scan few => inside.result_eq scan (Nat.le_of_lt_succ few)⟩
    | none =>
      exact ⟨inOrder_bind (inOrder_unknown _ _ _) fun _ => inOrder_pure none, fun _ _ => rfl⟩

/-- Reading of all statements of a script, with something else where the bound on the nesting is
used up. -/
def scriptBeyond (reading : Reading) (beyond : ValueReader) : Decoder Unit :=
  let length := reading.program.code.length
  block length length (discard (valueBeyond reading beyond length .statement none))

theorem result_scriptBeyond (reading : Reading) (beyond : ValueReader) :
    (scriptBeyond reading beyond).result (.start reading.program.code) =
      (script reading).result (.start reading.program.code) := by
  have relates := relates_sameWithin reading reading.program.code.length
  have statements := relates.discard
    (sameWithin_value reading beyond reading.program.code.length .statement none)
  exact (relates.block statements _ _).result_eq _ (Nat.le_refl _)

end Decoder

/-! ### Reading ends -/

open Decoder in
/-- Reading ends by itself. Statements and values take bytes in order, and at least one; the loops
over operators, clauses and statements end without their bounds, and as they do with them, as long
as there are no more bytes than the bound says; and values do not nest as deep as the bound. -/
structure Reading.Ends (reading : Reading) : Prop where
  inOrder : InOrder (script reading) ∧ ∀ bound place slot, InOrder (value reading bound place slot)
  takesByte : (∀ bound, TakesByte (statement reading bound)) ∧
    ∀ bound place slot, TakesByte (value reading bound place slot)
  operators : ∀ (bound : Nat) (scan : Scan), scan.rest.length ≤ bound →
    Repeats (operatorStep reading (discard (value reading bound .formula none))) scan
      ((operators reading bound (discard (value reading bound .formula none))).result scan)
  clauses : ∀ (bound : Nat) (scan : Scan), scan.rest.length ≤ bound →
    Repeats (clause reading (value reading bound)) scan
      ((repeatWhile bound (clause reading (value reading bound))).result scan)
  statements : ∀ (bound stop : Nat) (scan : Scan), scan.rest.length ≤ bound →
    Repeats (blockStep stop (statement reading bound)) scan
      ((repeatWhile bound (blockStep stop (statement reading bound))).result scan)
  values : ∀ (beyond : ValueReader) (bound : Nat) (place : Position) (slot : Option Slot)
    (scan : Scan), scan.rest.length ≤ bound →
      (valueBeyond reading beyond bound place slot).result scan =
        (value reading bound place slot).result scan
  script : ∀ beyond, (scriptBeyond reading beyond).result (.start reading.program.code) =
    (script reading).result (.start reading.program.code)

open Decoder in
theorem Reading.ends (reading : Reading) : reading.Ends where
  inOrder := ⟨(relates_inOrder reading).script, inOrder_value reading⟩
  takesByte := ⟨takesByte_statement reading, takesByte_value reading⟩
  operators bound _ few := repeats_repeatWhile (shrinks_operatorStep
    (inOrder_bind (inOrder_value reading bound .formula none) fun _ => inOrder_pure ())) few
  clauses bound _ few := repeats_repeatWhile (shrinks_clause reading bound) few
  statements bound stop _ few :=
    repeats_repeatWhile (shrinks_blockStep (takesByte_statement reading bound) stop) few
  values beyond bound place slot := (sameWithin_value reading beyond bound place slot).result_eq
  script := result_scriptBeyond reading

end MapScript
