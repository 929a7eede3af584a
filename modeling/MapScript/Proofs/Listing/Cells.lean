/-
This file takes apart what statements are turned into before the labels are known. The
pieces of code of a statement take as many bytes as the statement is said to take,
whatever its labels turn out to be, and filling in the labels piece by piece is filling
them in at once.
-/

import MapScript.Code.Compile
import MapScript.Proofs.Listing.Outline

namespace MapScript

/-! ### Sizes of pieces -/

namespace Cell

theorem foldl_size (cells : List Cell) (start : Nat) :
    cells.foldl (fun total cell => total + cell.size) start = start + totalSize cells := by
  unfold totalSize
  induction cells generalizing start with
  | nil => rfl
  | cons first rest inductionHypothesis =>
    rw [List.foldl_cons, List.foldl_cons, inductionHypothesis, inductionHypothesis (0 + first.size)]
    omega

@[simp] theorem totalSize_nil : totalSize [] = 0 := rfl

@[simp] theorem totalSize_cons (first : Cell) (rest : List Cell) :
    totalSize (first :: rest) = first.size + totalSize rest := by
  rw [totalSize, List.foldl_cons, foldl_size, Nat.zero_add]

@[simp] theorem totalSize_append (front back : List Cell) :
    totalSize (front ++ back) = totalSize front + totalSize back := by
  rw [totalSize, List.foldl_append, foldl_size]
  rfl

@[simp] theorem totalSize_ofBytes (bytes : Bytes) : totalSize (ofBytes bytes) = bytes.length := by
  unfold ofBytes
  induction bytes with
  | nil => rfl
  | cons first rest inductionHypothesis =>
    rw [List.map_cons, totalSize_cons, inductionHypothesis, List.length_cons, Nat.add_comm]
    rfl

end Cell

/-! ### Filling in labels -/

section Linking

variable {script : Script} {labels : Registry Int Nat} {bytes : Bytes}

theorem link_cons_eq_ok {first : Cell} {rest : List Cell} :
    link script labels (first :: rest) = .ok bytes ↔
      ∃ piece others, first.resolve script labels = .ok piece ∧
        link script labels rest = .ok others ∧ bytes = piece ++ others := by
  unfold link
  rw [bind_eq_ok]
  constructor
  · rintro ⟨pieces, resolved, whole⟩
    obtain ⟨piece, others, firstOk, restOk, rfl⟩ := mapM_cons_eq_ok.mp resolved
    cases whole
    exact ⟨piece, others.flatten, firstOk, bind_eq_ok.mpr ⟨others, restOk, rfl⟩, rfl⟩
  · rintro ⟨piece, others, firstOk, restOk, rfl⟩
    obtain ⟨pieces, resolved, whole⟩ := bind_eq_ok.mp restOk
    cases whole
    exact ⟨piece :: pieces, mapM_cons_eq_ok.mpr ⟨piece, pieces, firstOk, resolved, rfl⟩, rfl⟩

/-- Pieces of code one after the other. -/
theorem link_append_eq_ok {front back : List Cell} :
    link script labels (front ++ back) = .ok bytes ↔
      ∃ one two, link script labels front = .ok one ∧ link script labels back = .ok two ∧
        bytes = one ++ two := by
  induction front generalizing bytes with
  | nil =>
    constructor
    · intro linked
      exact ⟨[], bytes, rfl, linked, rfl⟩
    · rintro ⟨one, two, frontOk, backOk, rfl⟩
      cases frontOk
      exact backOk
  | cons first rest inductionHypothesis =>
    rw [List.cons_append, link_cons_eq_ok]
    constructor
    · rintro ⟨piece, others, firstOk, restOk, rfl⟩
      obtain ⟨one, two, frontOk, backOk, rfl⟩ := inductionHypothesis.mp restOk
      refine ⟨piece ++ one, two, ?_, backOk, (List.append_assoc _ _ _).symm⟩
      exact link_cons_eq_ok.mpr ⟨piece, one, firstOk, frontOk, rfl⟩
    · rintro ⟨one, two, frontOk, backOk, rfl⟩
      obtain ⟨piece, others, firstOk, restOk, rfl⟩ := link_cons_eq_ok.mp frontOk
      refine ⟨piece, others ++ two, firstOk, ?_, List.append_assoc _ _ _⟩
      exact inductionHypothesis.mpr ⟨others, two, restOk, backOk, rfl⟩

/-- Bytes that are known stay as they are. -/
theorem link_ofBytes (script : Script) (labels : Registry Int Nat) (bytes : Bytes) :
    link script labels (Cell.ofBytes bytes) = .ok bytes := by
  induction bytes with
  | nil => rfl
  | cons first rest inductionHypothesis =>
    exact link_cons_eq_ok.mpr ⟨[first], rest, rfl, inductionHypothesis, rfl⟩

theorem link_byte_cons_eq_ok {value : UInt8} {rest : List Cell}
    (linked : link script labels (.byte value :: rest) = .ok bytes) :
    ∃ others, link script labels rest = .ok others ∧ bytes = value :: others := by
  obtain ⟨piece, others, resolved, restOk, rfl⟩ := link_cons_eq_ok.mp linked
  cases resolved
  exact ⟨others, restOk, rfl⟩

theorem labelAddress_eq_ok {label : Int} {address : Nat}
    (found : labelAddress script labels label = .ok address) :
    labels.find? label = some address := by
  unfold labelAddress at found
  split at found
  · rename_i there
    cases found
    exact there
  · exact absurd (locating_eq_ok.mp found) fail_ne_ok

theorem resolve_address_eq_ok {label : Int} {piece : Bytes}
    (resolved : (Cell.address label).resolve script labels = .ok piece) :
    ∃ address, labels.find? label = some address ∧ packNumber 4 address = .ok piece := by
  obtain ⟨address, found, packed⟩ := bind_eq_ok.mp resolved
  exact ⟨address, labelAddress_eq_ok found, packed⟩

/-- A statement whose operand is a label becomes its opcode and the label's address. -/
theorem link_withLabel_eq_ok {opcode : Opcode} {label : Int}
    (linked : link script labels (Assembler.withLabel opcode label) = .ok bytes) :
    ∃ address number, labels.find? label = some address ∧ packNumber 4 address = .ok number ∧
      bytes = opcode.code :: number := by
  obtain ⟨others, restOk, rfl⟩ := link_byte_cons_eq_ok linked
  obtain ⟨number, none, resolved, nothing, rfl⟩ := link_cons_eq_ok.mp restOk
  obtain ⟨address, found, packed⟩ := resolve_address_eq_ok resolved
  cases nothing
  exact ⟨address, number, found, packed, congrArg _ (List.append_nil number)⟩

theorem length_of_resolve {cell : Cell} {piece : Bytes}
    (resolved : cell.resolve script labels = .ok piece) : piece.length = cell.size := by
  cases cell with
  | byte value =>
    cases resolved
    rfl
  | address label =>
    obtain ⟨address, -, packed⟩ := resolve_address_eq_ok resolved
    exact (Encoder.packNumber_eq_ok packed).1

/-- Code takes as many bytes as its pieces. -/
theorem length_of_link {cells : List Cell} (linked : link script labels cells = .ok bytes) :
    bytes.length = Cell.totalSize cells := by
  induction cells generalizing bytes with
  | nil =>
    cases linked
    rfl
  | cons first rest inductionHypothesis =>
    obtain ⟨piece, others, resolved, restOk, rfl⟩ := link_cons_eq_ok.mp linked
    rw [List.length_append, length_of_resolve resolved, inductionHypothesis restOk,
      Cell.totalSize_cons]

end Linking

/-! ### Statements and blocks -/

namespace Assembler

variable {around : Surroundings} {assembly next : Assembly} {cells : List Cell}

/-- Values inside a statement are encoded with the strings used so far. -/
theorem encode_eq_ok {encoder : Encoder Bytes}
    (encoded : (encode encoder).run assembly = .ok (cells, next)) :
    ∃ bytes pool, encoder.run assembly.pool = .ok (bytes, pool) ∧ cells = Cell.ofBytes bytes ∧
      next = { assembly with pool := pool } := by
  have encoded : encode encoder assembly = .ok (cells, next) := encoded
  unfold encode at encoded
  split at encoded
  · rename_i bytes pool run
    cases encoded
    exact ⟨bytes, pool, run, rfl, rfl⟩
  · cases encoded

theorem located_eq_ok {α : Type} {origin : Option Origin} {assembler : Assembler α} {value : α}
    (done : (located origin assembler).run assembly = .ok (value, next)) :
    assembler.run assembly = .ok (value, next) :=
  locating_eq_ok.mp done

/-- A block is encoded statement by statement, each from where the one before it ends. -/
theorem block_cons_eq_ok {offset : Nat} {origin : Option Origin} {first : Statement}
    {rest : Block}
    (encoded : (block around offset (.cons origin first rest)).run assembly = .ok (cells, next)) :
    ∃ front between back, (statement around offset first).run assembly = .ok (front, between) ∧
      (block around (offset + Cell.totalSize front) rest).run between = .ok (back, next) ∧
      cells = front ++ back := by
  simp only [block, run_bind_eq_ok] at encoded
  obtain ⟨front, between, firstOk, back, after, restOk, whole⟩ := encoded
  cases run_pure_eq_ok.mp whole
  exact ⟨front, between, back, located_eq_ok firstOk, restOk, rfl⟩

/-- A label takes no code; it is defined where it stands, and only once. -/
theorem label_eq_ok {offset : Nat} {goal : Int}
    (encoded : (statement around offset (.label goal)).run assembly = .ok (cells, next)) :
    cells = [] ∧ assembly.labels.has goal = false ∧
      next = { assembly with labels := assembly.labels.put goal offset } := by
  simp only [statement, run_bind_eq_ok] at encoded
  obtain ⟨nothing, one, defined, whole⟩ := encoded
  have defined : (define goal offset).run assembly = .ok (nothing, one) := defined
  cases run_pure_eq_ok.mp whole
  cases there : assembly.labels.has goal with
  | true =>
    have refused : (define goal offset).run assembly =
        .error (.of (.script (.labelTwice goal))) := by
      show (if assembly.labels.has goal then _ else _ : Assembler Unit).run assembly = _
      rw [if_pos there]
      rfl
    rw [refused] at defined
    cases defined
  | false =>
    have accepted : (define goal offset).run assembly =
        .ok ((), { assembly with labels := assembly.labels.put goal offset }) := by
      show (if assembly.labels.has goal then _ else _ : Assembler Unit).run assembly = _
      rw [if_neg (by rw [there]; decide)]
      rfl
    rw [accepted] at defined
    cases defined
    exact ⟨rfl, rfl, rfl⟩

/-- A condition is its opcode, its clauses, the address behind its block, and the block. -/
theorem branch_eq_ok {offset : Nat} {clauses : List Clause} {body : Block}
    (encoded : (statement around offset (.branch clauses body)).run assembly = .ok (cells, next)) :
    ∃ condition pool inner stop,
      (Encoder.clauses around clauses).run assembly.pool = .ok (condition, pool) ∧
      (block around (offset + 5 + condition.length) body).run { assembly with pool := pool } =
        .ok (inner, next) ∧
      packNumber 4 (offset + 5 + condition.length + Cell.totalSize inner) = .ok stop ∧
      cells = Cell.ofBytes (Opcode.branch.code :: condition ++ stop) ++ inner := by
  simp only [statement, run_bind_eq_ok] at encoded
  obtain ⟨front, one, frontOk, inner, two, bodyOk, stop, three, stopOk, whole⟩ := encoded
  obtain ⟨condition, pool, clausesOk, rfl, rfl⟩ := encode_eq_ok frontOk
  obtain ⟨stop, packed, same⟩ := run_lift_eq_ok.mp stopOk
  cases same
  cases run_pure_eq_ok.mp whole
  have start : offset + Cell.totalSize (.byte Opcode.branch.code :: Cell.ofBytes condition) + 4 =
      offset + 5 + condition.length := by
    rw [Cell.totalSize_cons, Cell.totalSize_ofBytes, Cell.size]
    omega
  rw [start] at bodyOk packed
  refine ⟨condition, pool, inner, stop, clausesOk, bodyOk, packed, ?_⟩
  simp only [Cell.ofBytes, List.map_cons, List.map_append, List.cons_append]

/-- A guard on the returned value is its opcode, the value, and the block. -/
theorem returnGuard_eq_ok {offset : Nat} {value : Int} {body : Block}
    (encoded : (statement around offset (.returnGuard value body)).run assembly =
      .ok (cells, next)) :
    ∃ inner, (0 ≤ value ∧ value ≤ 255) ∧
      (block around (offset + 2) body).run assembly = .ok (inner, next) ∧
      cells = Cell.ofBytes [Opcode.returnGuard.code, UInt8.ofNat value.toNat] ++ inner := by
  simp only [statement, run_bind_eq_ok] at encoded
  obtain ⟨operand, one, operandOk, inner, two, bodyOk, whole⟩ := encoded
  obtain ⟨bytes, pool, valueOk, rfl, rfl⟩ := encode_eq_ok operandOk
  obtain ⟨range, rfl, rfl⟩ := Encoder.byte_eq_ok valueOk
  cases run_pure_eq_ok.mp whole
  exact ⟨inner, range, bodyOk, rfl⟩

/-- An anchor is its opcode and its value. -/
theorem anchor_eq_ok {offset : Nat} {value : Int}
    (encoded : (statement around offset (.anchor value)).run assembly = .ok (cells, next)) :
    (0 ≤ value ∧ value ≤ 255) ∧ next = assembly ∧
      cells = Cell.ofBytes [Opcode.anchor.code, UInt8.ofNat value.toNat] := by
  simp only [statement, run_bind_eq_ok] at encoded
  obtain ⟨operand, one, operandOk, whole⟩ := encoded
  obtain ⟨bytes, pool, valueOk, rfl, rfl⟩ := encode_eq_ok operandOk
  obtain ⟨range, rfl, rfl⟩ := Encoder.byte_eq_ok valueOk
  cases run_pure_eq_ok.mp whole
  exact ⟨range, rfl, rfl⟩

/-! ### Encoding forward -/

theorem run_encode {encoder : Encoder Bytes} {bytes : Bytes} {pool : StringPool}
    (encoded : encoder.run assembly.pool = .ok (bytes, pool)) :
    (encode encoder).run assembly = .ok (Cell.ofBytes bytes, { assembly with pool := pool }) := by
  show encode encoder assembly = _
  unfold encode
  rw [encoded]

/-- A number that fits a byte, as an operand. -/
theorem run_encode_byte {value : Int} (range : 0 ≤ value ∧ value ≤ 255) :
    (encode (Encoder.byte value)).run assembly =
      .ok (Cell.ofBytes [UInt8.ofNat value.toNat], assembly) := by
  refine run_encode ?_
  rw [Encoder.byte, if_pos range]
  rfl

theorem run_label {offset : Nat} {goal : Int} (fresh : assembly.labels.has goal = false) :
    (statement around offset (.label goal)).run assembly =
      .ok ([], { assembly with labels := assembly.labels.put goal offset }) := by
  have defined : (define goal offset).run assembly =
      .ok ((), { assembly with labels := assembly.labels.put goal offset }) := by
    show (if assembly.labels.has goal then _ else _ : Assembler Unit).run assembly = _
    rw [if_neg (by rw [fresh]; decide)]
    rfl
  simp only [statement, run_bind_eq_ok]
  exact ⟨(), _, defined, rfl⟩

theorem run_block_cons {offset : Nat} {origin : Option Origin} {first : Statement} {rest : Block}
    {front back : List Cell} {between : Assembly}
    (firstOk : (statement around offset first).run assembly = .ok (front, between))
    (restOk : (block around (offset + Cell.totalSize front) rest).run between =
      .ok (back, next)) :
    (block around offset (.cons origin first rest)).run assembly = .ok (front ++ back, next) := by
  simp only [block, run_bind_eq_ok]
  exact ⟨front, between, locating_eq_ok.mpr firstOk, back, next, restOk, rfl⟩

theorem run_branch {offset : Nat} {clauses : List Clause} {body : Block} {condition stop : Bytes}
    {pool : StringPool} {inner : List Cell}
    (clausesOk : (Encoder.clauses around clauses).run assembly.pool = .ok (condition, pool))
    (bodyOk : (block around (offset + 5 + condition.length) body).run
      { assembly with pool := pool } = .ok (inner, next))
    (packed : packNumber 4 (offset + 5 + condition.length + Cell.totalSize inner) = .ok stop) :
    (statement around offset (.branch clauses body)).run assembly =
      .ok (Cell.ofBytes (Opcode.branch.code :: condition ++ stop) ++ inner, next) := by
  have start : offset + Cell.totalSize (.byte Opcode.branch.code :: Cell.ofBytes condition) + 4 =
      offset + 5 + condition.length := by
    rw [Cell.totalSize_cons, Cell.totalSize_ofBytes, Cell.size]
    omega
  simp only [statement, run_bind_eq_ok]
  refine ⟨_, _, run_encode clausesOk, inner, next, start ▸ bodyOk, stop, next, ?_, ?_⟩
  · rw [start]
    exact run_lift_eq_ok.mpr ⟨stop, packed, rfl⟩
  · simp only [Cell.ofBytes, List.map_cons, List.map_append, List.cons_append]
    rfl

theorem run_returnGuard {offset : Nat} {value : Int} {body : Block} {inner : List Cell}
    (range : 0 ≤ value ∧ value ≤ 255)
    (bodyOk : (block around (offset + 2) body).run assembly = .ok (inner, next)) :
    (statement around offset (.returnGuard value body)).run assembly =
      .ok (Cell.ofBytes [Opcode.returnGuard.code, UInt8.ofNat value.toNat] ++ inner, next) := by
  simp only [statement, run_bind_eq_ok]
  exact ⟨_, _, run_encode_byte range, inner, next, bodyOk, rfl⟩

theorem run_anchor {offset : Nat} {value : Int} (range : 0 ≤ value ∧ value ≤ 255) :
    (statement around offset (.anchor value)).run assembly =
      .ok (Cell.ofBytes [Opcode.anchor.code, UInt8.ofNat value.toNat], assembly) := by
  simp only [statement, run_bind_eq_ok]
  exact ⟨_, _, run_encode_byte range, rfl⟩

end Assembler

end MapScript
