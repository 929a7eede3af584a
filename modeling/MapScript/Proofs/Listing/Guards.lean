/-
This file proves where reading takes the blocks of guards on the returned value to end.
Their code does not say it, so reading takes the next four bytes to be the block, and the
statement that starts in them to belong to it as a whole. Whatever the code is, the lines
of a listing obey this: behind a guard, the lines that are one deeper start within its four
bytes, and the first line that is not deeper, or else the end of reading, stands behind
them.
-/

import MapScript.Proofs.Listing.Related

namespace MapScript

/-! ### Lines behind a guard -/

/-- Behind a guard at a depth, given the places and depths of the lines that follow: the
lines that are one deeper start before a limit, and the first that is not deeper, or else
the stop, does not. -/
def Closes (depth limit stop : Nat) : List (Nat × Nat) → Prop
  | [] => limit ≤ stop
  | place :: rest =>
    if place.2 ≤ depth then limit ≤ place.1
    else (place.2 = depth + 1 → place.1 < limit) ∧ Closes depth limit stop rest

/-- The blocks of all guards among the lines end where their four bytes do, or within the
statement that starts last in them. -/
def GuardsClose (code : Bytes) (stop : Nat) : List (Nat × Nat) → Prop
  | [] => True
  | place :: rest =>
    (code[place.1]? = some Opcode.returnGuard.code →
      Closes place.2 (place.1 + 2 + returnGuardSize) stop rest) ∧ GuardsClose code stop rest

/-- The lines of a block are deeper than the guard. -/
theorem Closes.of_block {depth limit stop : Nat} {places : List (Nat × Nat)}
    (deeper : ∀ place ∈ places, depth + 1 ≤ place.2)
    (starts : ∀ place ∈ places, place.2 = depth + 1 → place.1 < limit) (ends : limit ≤ stop) :
    Closes depth limit stop places := by
  induction places with
  | nil => exact ends
  | cons place rest inductionHypothesis =>
    have here := deeper place List.mem_cons_self
    rw [Closes, if_neg (by omega)]
    exact ⟨starts place List.mem_cons_self,
      inductionHypothesis (fun other member => deeper other (List.mem_cons_of_mem _ member))
        fun other member => starts other (List.mem_cons_of_mem _ member)⟩

theorem Closes.append {depth limit middle stop : Nat} {front back : List (Nat × Nat)}
    (closes : Closes depth limit middle front)
    (next : ∀ place ∈ back.head?, place.2 ≤ depth ∧ middle ≤ place.1) (le : middle ≤ stop) :
    Closes depth limit stop (front ++ back) := by
  induction front with
  | nil =>
    have ends : limit ≤ middle := closes
    cases back with
    | nil => exact Nat.le_trans ends le
    | cons place rest =>
      obtain ⟨shallow, behind⟩ := next place rfl
      rw [List.nil_append, Closes, if_pos shallow]
      exact Nat.le_trans ends behind
  | cons place rest inductionHypothesis =>
    rw [Closes] at closes
    rw [List.cons_append, Closes]
    split
    · rename_i shallow
      rwa [if_pos shallow] at closes
    · rename_i deeper
      rw [if_neg deeper] at closes
      exact ⟨closes.1, inductionHypothesis closes.2⟩

/-! ### Lines that are added -/

/-- Lines that reading adds from a start to a stop. None is above the level, and the first
is at it. -/
structure Stretch (code : Bytes) (level start stop : Nat) (places : List (Nat × Nat)) : Prop where
  level_le : ∀ place ∈ places, level ≤ place.2
  head_eq : ∀ place ∈ places.head?, place.2 = level ∧ start ≤ place.1
  closes : GuardsClose code stop places

namespace Stretch

variable {code : Bytes} {level start middle stop : Nat} {front back : List (Nat × Nat)}

theorem nil : Stretch code level start stop [] where
  level_le _ member := absurd member List.not_mem_nil
  head_eq _ member := absurd member (Option.not_mem_none _)
  closes := trivial

theorem append (first : Stretch code level start middle front)
    (second : Stretch code level middle stop back) (startLe : start ≤ middle)
    (stopLe : middle ≤ stop) : Stretch code level start stop (front ++ back) where
  level_le place member := by
    rcases List.mem_append.mp member with before | after
    · exact first.level_le place before
    · exact second.level_le place after
  head_eq place member := by
    cases front with
    | nil =>
      obtain ⟨same, behind⟩ := second.head_eq place member
      exact ⟨same, Nat.le_trans startLe behind⟩
    | cons head rest => exact first.head_eq place member
  closes := by
    have lower := first.level_le
    have closes := first.closes
    clear first
    induction front with
    | nil => exact second.closes
    | cons place rest inductionHypothesis =>
      refine ⟨fun guard => ?_, inductionHypothesis
        (fun other member => lower other (List.mem_cons_of_mem _ member)) closes.2⟩
      refine (closes.1 guard).append (fun next head => ?_) stopLe
      obtain ⟨same, behind⟩ := second.head_eq next head
      have above := lower place List.mem_cons_self
      exact ⟨by omega, behind⟩

end Stretch

/-! ### Scans -/

/-- The places and depths of the lines begun so far. -/
def Scan.places (scan : Scan) : List (Nat × Nat) :=
  scan.lines.reverse.map fun line => (line.address, line.depth)

/-- Reading has gone on from one state to another and has added these lines. -/
structure Scan.Grows (code : Bytes) (level : Nat) (first second : Scan)
    (places : List (Nat × Nat)) : Prop where
  depth_eq : second.depth = first.depth
  position_le : first.position ≤ second.position
  length_eq : second.rest.length + second.position = first.rest.length + first.position
  rest_eq : second.rest = first.rest.drop (second.position - first.position)
  places_eq : second.places = first.places ++ places
  stretch : Stretch code level first.position second.position places

namespace Scan.Grows

variable {code : Bytes} {level : Nat} {first second third : Scan}
  {front back : List (Nat × Nat)}

/-- Nothing but bytes was taken. -/
theorem quiet {size : Nat} (enough : size ≤ first.rest.length)
    (depth_eq : second.depth = first.depth)
    (position_eq : second.position = first.position + size)
    (rest_eq : second.rest = first.rest.drop size) (places_eq : second.places = first.places) :
    first.Grows code level second [] where
  depth_eq := depth_eq
  position_le := by omega
  length_eq := by
    rw [rest_eq, List.length_drop]
    omega
  rest_eq := by
    rw [rest_eq, position_eq, Nat.add_sub_cancel_left]
  places_eq := by rw [places_eq, List.append_nil]
  stretch := .nil

/-- What is written in a line does not move it. -/
theorem modifyHead {change : ListedLine → ListedLine}
    (keeps : ∀ line, (change line).address = line.address ∧ (change line).depth = line.depth) :
    first.Grows code level { first with lines := first.lines.modifyHead change } [] := by
  refine .quiet (Nat.zero_le _) rfl rfl rfl ?_
  unfold places
  rw [List.map_reverse, List.map_reverse]
  cases first.lines with
  | nil => rfl
  | cons line others =>
    simp only [List.modifyHead_cons, List.map_cons, (keeps line).1, (keeps line).2]

theorem trans (one : first.Grows code level second front)
    (two : second.Grows code level third back) : first.Grows code level third (front ++ back) where
  depth_eq := two.depth_eq.trans one.depth_eq
  position_le := Nat.le_trans one.position_le two.position_le
  length_eq := two.length_eq.trans one.length_eq
  rest_eq := by
    have firstLe := one.position_le
    have secondLe := two.position_le
    rw [two.rest_eq, one.rest_eq, List.drop_drop]
    congr 1
    omega
  places_eq := by rw [two.places_eq, one.places_eq, List.append_assoc]
  stretch := one.stretch.append two.stretch one.position_le two.position_le

theorem ready (grows : first.Grows code level second front)
    (ready : first.rest = code.drop first.position) : second.rest = code.drop second.position := by
  have le := grows.position_le
  rw [grows.rest_eq, ready, List.drop_drop]
  congr 1
  omega

theorem length_le (grows : first.Grows code level second front) :
    second.rest.length ≤ first.rest.length := by
  have le := grows.position_le
  have same := grows.length_eq
  omega

end Scan.Grows

/-! ### Reading -/

namespace Decoder

variable {α β : Type} {reading : Reading} {code : Bytes} {bound : Nat}

/-- Reading goes on in the code and adds lines that are deeper than the block it is in. The
bound is one on the bytes that are left. -/
def Grows (code : Bytes) (bound : Nat) (decoder : Decoder α) : Prop :=
  ∀ scan value next, scan.rest.length ≤ bound → scan.rest = code.drop scan.position →
    decoder.result scan = (.ok value, next) →
    ∃ places, scan.Grows code (scan.depth + 1) next places

theorem grows_bind {decoder : Decoder α} {continuing : α → Decoder β}
    (first : Grows code bound decoder) (second : ∀ value, Grows code bound (continuing value)) :
    Grows code bound (decoder >>= continuing) := by
  intro scan value next few ready done
  obtain ⟨found, middle, firstOk, secondOk⟩ := result_bind_eq_ok.mp done
  obtain ⟨front, one⟩ := first scan found middle few ready firstOk
  obtain ⟨back, two⟩ := second found middle value next (Nat.le_trans one.length_le few)
    (one.ready ready) secondOk
  rw [one.depth_eq] at two
  exact ⟨front ++ back, one.trans two⟩

/-- A step that does not touch the lines. -/
theorem grows_modify {change : Scan → Scan} (depth_eq : ∀ scan, (change scan).depth = scan.depth)
    (position_eq : ∀ scan, (change scan).position = scan.position)
    (rest_eq : ∀ scan, (change scan).rest = scan.rest)
    (places_eq : ∀ scan, (change scan).places = scan.places) :
    Grows code bound (modify change) := by
  intro scan value next _ _ done
  cases done
  exact ⟨[], .quiet (Nat.zero_le _) (depth_eq scan) (position_eq scan) (rest_eq scan)
    (places_eq scan)⟩

theorem grows_pure (value : α) : Grows code bound (pure value) := by
  intro scan found next _ _ done
  cases done
  exact ⟨[], .quiet (Nat.zero_le _) rfl rfl rfl rfl⟩

theorem grows_lift (attempt : Except Fault α) : Grows code bound (lift attempt) := by
  cases attempt with
  | ok value => exact grows_pure value
  | error fault =>
    intro scan found next _ _ done
    cases done

/-- Bytes that were taken were there. -/
theorem take_eq_ok {size : Nat} {scan next : Scan} {taken : Bytes}
    (done : (take reading size).result scan = (.ok taken, next)) :
    size ≤ scan.rest.length ∧ taken = scan.rest.take size ∧
      next = { scan with rest := scan.rest.drop size, position := scan.position + size } := by
  rw [result_take] at done
  split at done
  · rename_i enough
    cases done
    exact ⟨enough, rfl, rfl⟩
  · cases done

theorem grows_take (size : Nat) : Grows code bound (take reading size) := by
  intro scan taken next _ _ done
  obtain ⟨enough, -, rfl⟩ := take_eq_ok done
  exact ⟨[], .quiet enough rfl rfl rfl rfl⟩

theorem grows_changeLine {change : ListedLine → ListedLine}
    (keeps : ∀ line, (change line).address = line.address ∧ (change line).depth = line.depth) :
    Grows code bound (changeLine change) := by
  intro scan value next _ _ done
  rw [result_changeLine] at done
  cases done
  exact ⟨[], .modifyHead keeps⟩

theorem grows_note (text : Option String) : Grows code bound (note text) := by
  cases text with
  | none => exact grows_pure ()
  | some text => exact grows_changeLine fun _ => ⟨rfl, rfl⟩

theorem relates_grows (reading : Reading) (code : Bytes) (bound : Nat) :
    Relates reading reading fun _ decoder _ => Grows code bound decoder where
  agrees := ⟨rfl, rfl⟩
  pure := grows_pure
  bind := grows_bind
  lift {_ attempt} _ := grows_lift attempt
  take := grows_take
  position := by
    intro scan value next _ _ done
    cases done
    exact ⟨[], .quiet (Nat.zero_le _) rfl rfl rfl rfl⟩
  emit _ := grows_changeLine fun _ => ⟨rfl, rfl⟩
  emitLabel address := grows_bind (grows_modify (fun _ => rfl) (fun _ => rfl) (fun _ => rfl)
    fun _ => rfl) fun _ => grows_changeLine fun _ => ⟨rfl, rfl⟩
  unknown kind value offset := by
    unfold unknown
    split
    · exact grows_modify (fun _ => rfl) (fun _ => rfl) (fun _ => rfl) fun _ => rfl
    · exact grows_lift (.error _)
  subtitle _ := grows_note _
  flagComment _ _ := grows_note _

/-! ### Statements and blocks -/

/-- Reading of a statement: it takes some code, and if that starts with the opcode of a
guard, the lines that it adds are those of the guard's block. -/
def GrowsStatement (code : Bytes) (bound : Nat) (statement : Decoder Unit) : Prop :=
  ∀ scan next, scan.rest.length ≤ bound → scan.rest = code.drop scan.position →
    statement.result scan = (.ok (), next) →
    ∃ places, scan.Grows code (scan.depth + 1) next places ∧ scan.position < next.position ∧
      (scan.rest.head? = some Opcode.returnGuard.code →
        Closes scan.depth (scan.position + 2 + returnGuardSize) next.position places)

/-- What reading a block up to a stop adds: lines of which those in the block itself start
before the stop, until the stop is reached. -/
def GrowsBlock (code : Bytes) (stop level : Nat) (scan next : Scan) : Prop :=
  ∃ places, scan.Grows code level next places ∧
    (∀ place ∈ places, place.2 = level → place.1 < stop) ∧ stop ≤ next.position

/-- One round of a block begins a line and reads a statement, if the stop is not reached. -/
theorem round_cases {statement : Decoder Unit} {stop : Nat} {scan next : Scan} {again : Bool}
    (done : (do
      if (← position) < stop then
        beginLine
        statement
        pure true
      else pure false : Decoder Bool).result scan = (.ok again, next)) :
    (again = true ∧ scan.position < stop ∧ statement.result
        { scan with lines := .start scan.position scan.depth :: scan.lines } = (.ok (), next)) ∨
      (again = false ∧ stop ≤ scan.position ∧ next = scan) := by
  rw [result_bind (result_position scan)] at done
  by_cases before : scan.position < stop
  · rw [if_pos before] at done
    obtain ⟨_, begun, beginOk, rest⟩ := result_bind_eq_ok.mp done
    cases beginOk
    obtain ⟨_, middle, statementOk, same⟩ := result_bind_eq_ok.mp rest
    cases same
    exact Or.inl ⟨rfl, before, statementOk⟩
  · rw [if_neg before] at done
    cases done
    exact Or.inr ⟨rfl, Nat.not_lt.mp before, rfl⟩

/-- One statement in a line of its own. -/
theorem grows_line {statement : Decoder Unit} (law : GrowsStatement code bound statement)
    {scan next : Scan} (few : scan.rest.length ≤ bound)
    (ready : scan.rest = code.drop scan.position)
    (done : statement.result
      { scan with lines := .start scan.position scan.depth :: scan.lines } = (.ok (), next)) :
    ∃ places, scan.Grows code scan.depth next ((scan.position, scan.depth) :: places) ∧
      (∀ place ∈ places, scan.depth < place.2) ∧ scan.position < next.position := by
  obtain ⟨places, grows, further, guard⟩ :=
    law { scan with lines := .start scan.position scan.depth :: scan.lines } next few ready done
  refine ⟨places, ⟨grows.depth_eq, grows.position_le, grows.length_eq, grows.rest_eq, ?_, ?_⟩,
    grows.stretch.level_le, further⟩
  · rw [grows.places_eq]
    simp [Scan.places, ListedLine.start]
  · refine ⟨fun place member => ?_, fun place member => ?_, fun isGuard => ?_,
      grows.stretch.closes⟩
    · rcases List.mem_cons.mp member with rfl | inside
      · exact Nat.le_refl _
      · exact Nat.le_of_lt (grows.stretch.level_le place inside)
    · cases Option.mem_some.mp member
      exact ⟨rfl, Nat.le_refl _⟩
    · refine guard ?_
      show scan.rest.head? = _
      rw [ready, List.head?_drop]
      exact isGuard

/-- The rounds of a block. There are as many rounds left as bytes, and each takes some. -/
theorem grows_rounds {statement : Decoder Unit} (law : GrowsStatement code bound statement)
    {stop rounds : Nat} {scan next : Scan} (few : scan.rest.length ≤ bound)
    (enough : scan.rest.length ≤ rounds) (ready : scan.rest = code.drop scan.position)
    (done : (repeatWhile rounds do
      if (← position) < stop then
        beginLine
        statement
        pure true
      else pure false).result scan = (.ok (), next)) :
    GrowsBlock code stop scan.depth scan next := by
  induction rounds generalizing scan with
  | zero =>
    obtain ⟨again, middle, roundOk, same⟩ := result_bind_eq_ok.mp done
    cases same
    rcases round_cases roundOk with ⟨-, -, statementOk⟩ | ⟨-, reached, rfl⟩
    · -- No byte is left, so no statement can be read.
      obtain ⟨places, grows, -, further⟩ := grows_line law few ready statementOk
      have same := grows.length_eq
      omega
    · exact ⟨[], .quiet (Nat.zero_le _) rfl rfl rfl rfl,
        fun _ member => absurd member List.not_mem_nil, reached⟩
  | succ rounds inductionHypothesis =>
    obtain ⟨again, middle, roundOk, rest⟩ := result_bind_eq_ok.mp done
    rcases round_cases roundOk with ⟨rfl, before, statementOk⟩ | ⟨rfl, reached, rfl⟩
    · obtain ⟨inner, grows, deeper, further⟩ := grows_line law few ready statementOk
      have same := grows.length_eq
      obtain ⟨others, more, starts, reached⟩ := inductionHypothesis
        (Nat.le_trans grows.length_le few) (by omega) (grows.ready ready) rest
      rw [grows.depth_eq] at more starts
      refine ⟨_, grows.trans more, fun place member level => ?_, reached⟩
      rcases List.mem_append.mp member with first | later
      · rcases List.mem_cons.mp first with rfl | inside
        · exact before
        · exact absurd level (Nat.ne_of_gt (deeper place inside))
      · exact starts place later level
    · cases rest
      exact ⟨[], .quiet (Nat.zero_le _) rfl rfl rfl rfl,
        fun _ member => absurd member List.not_mem_nil, reached⟩

theorem grows_block {statement : Decoder Unit} (law : GrowsStatement code bound statement)
    {stop : Nat} {scan next : Scan} (few : scan.rest.length ≤ bound)
    (ready : scan.rest = code.drop scan.position)
    (done : (block bound stop statement).result scan = (.ok (), next)) :
    GrowsBlock code stop (scan.depth + 1) scan next := by
  unfold block at done
  rw [result_bind (result_position scan)] at done
  by_cases before : scan.position < stop
  · rw [if_pos before, result_bind (result_modify _ scan)] at done
    obtain ⟨_, middle, roundsOk, done⟩ := result_bind_eq_ok.mp done
    cases done
    obtain ⟨places, grows, starts, reached⟩ :=
      @grows_rounds _ _ _ law _ _ { scan with depth := scan.depth + 1 } _ few few ready roundsOk
    have depth : middle.depth - 1 = scan.depth := by
      rw [grows.depth_eq]
      exact Nat.add_sub_cancel _ _
    exact ⟨places, ⟨depth, grows.position_le, grows.length_eq, grows.rest_eq, grows.places_eq,
      grows.stretch⟩, starts, reached⟩
  · rw [if_neg before, result_changeLine] at done
    cases done
    exact ⟨[], .modifyHead fun _ => ⟨rfl, rfl⟩, fun _ member => absurd member List.not_mem_nil,
      Nat.not_lt.mp before⟩

/-! ### All code -/

theorem byte_eq_ok {scan next : Scan} {value : UInt8}
    (done : (byte reading).result scan = (.ok value, next)) :
    ∃ rest, scan.rest = value :: rest ∧
      next = { scan with rest := rest, position := scan.position + 1 } := by
  obtain ⟨taken, middle, takeOk, same⟩ := result_bind_eq_ok.mp done
  cases same
  obtain ⟨enough, rfl, rfl⟩ := take_eq_ok takeOk
  obtain ⟨first, rest, split⟩ := List.exists_cons_of_length_pos enough
  simp only [split, List.take_succ_cons, List.headD_cons, List.drop_succ_cons, List.drop_zero]
  exact ⟨rest, rfl, rfl⟩

/-- A byte was taken. -/
theorem grows_byte {scan : Scan} {value : UInt8} {rest : Bytes} (split : scan.rest = value :: rest)
    (level : Nat) :
    scan.Grows code level { scan with rest := rest, position := scan.position + 1 } [] := by
  refine @Scan.Grows.quiet _ _ _ _ 1 ?_ rfl rfl ?_ rfl
  · rw [split]
    exact Nat.succ_pos _
  · rw [split]
    rfl

/-- A value that is read starts with an opcode, or with a byte that stands for nothing. -/
theorem value_succ_eq_ok {place : Position} {slot : Option Slot} {scan next : Scan}
    {found : Option String}
    (done : (value reading (bound + 1) place slot).result scan = (.ok found, next)) :
    ∃ first rest, scan.rest = first :: rest ∧
      ((∃ opcode, Opcode.ofCode? first = some opcode ∧
          (operand reading bound (value reading bound) place slot opcode).result
            { scan with rest := rest, position := scan.position + 1 } = (.ok found, next)) ∨
        (Opcode.ofCode? first = none ∧
          (unknown reading .opcode first scan.position >>= fun _ => pure none).result
            { scan with rest := rest, position := scan.position + 1 } = (.ok found, next))) := by
  unfold value at done
  rw [result_bind (result_position scan)] at done
  obtain ⟨first, middle, byteOk, done⟩ := result_bind_eq_ok.mp done
  obtain ⟨rest, split, rfl⟩ := byte_eq_ok byteOk
  refine ⟨first, rest, split, ?_⟩
  cases known : Opcode.ofCode? first with
  | some opcode =>
    simp only [known] at done
    exact Or.inl ⟨opcode, rfl, done⟩
  | none =>
    simp only [known] at done
    exact Or.inr ⟨rfl, done⟩

/-- A guard reads the byte behind its opcode and then its block. -/
theorem returnGuard_eq_ok {value : ValueReader} {scan next : Scan} {found : Option String}
    (done : (operand reading bound value .statement none .returnGuard).result scan =
      (.ok found, next)) :
    ∃ begun, scan.Grows code (scan.depth + 1) begun [] ∧ begun.position = scan.position + 1 ∧
      (block bound (begun.position + returnGuardSize)
        (discard (value .statement none))).result begun = (.ok (), next) := by
  obtain ⟨_, last, guardOk, same⟩ := result_bind_eq_ok.mp done
  cases same
  obtain ⟨expected, middle, byteOk, done⟩ := result_bind_eq_ok.mp guardOk
  obtain ⟨rest, split, rfl⟩ := byte_eq_ok byteOk
  rw [emit, result_bind (result_changeLine _ _), emitNumber, emit,
    result_bind (result_changeLine _ _), result_bind (result_position _)] at done
  refine ⟨_, ?_, ?_, done⟩
  · refine (grows_byte split _).trans (.trans (.modifyHead ?_) (.modifyHead ?_))
    · exact fun _ => ⟨rfl, rfl⟩
    · exact fun _ => ⟨rfl, rfl⟩
  · rfl

/-- The lines that a guard adds are those of its block. -/
theorem closes_guard {value : ValueReader}
    (law : GrowsStatement code bound (discard (value .statement none))) {scan next : Scan}
    {first : UInt8} {rest : Bytes} {found : Option String} {places : List (Nat × Nat)}
    (few : scan.rest.length ≤ bound + 1) (ready : scan.rest = code.drop scan.position)
    (split : scan.rest = first :: rest) (grows : scan.Grows code (scan.depth + 1) next places)
    (done : (operand reading bound value .statement none .returnGuard).result
      { scan with rest := rest, position := scan.position + 1 } = (.ok found, next)) :
    Closes scan.depth (scan.position + 2 + returnGuardSize) next.position places := by
  obtain ⟨begun, second, place, blockOk⟩ := returnGuard_eq_ok done
  have start : scan.Grows code (scan.depth + 1) begun [] := (grows_byte split _).trans second
  have fewer : begun.rest.length ≤ bound := by
    have same := start.length_eq
    simp only at place
    omega
  obtain ⟨inner, block, starts, reached⟩ := grows_block law fewer (start.ready ready) blockOk
  rw [start.depth_eq] at block starts
  have same : places = inner := by
    have whole := (start.trans block).places_eq
    rw [grows.places_eq] at whole
    exact List.append_cancel_left whole
  have limit : begun.position + returnGuardSize = scan.position + 2 + returnGuardSize := by
    rw [place]
  rw [limit] at starts reached
  rw [same]
  exact .of_block block.stretch.level_le starts reached

/-- Without a byte no value is read. -/
theorem value_zero_ne_ok {reading : Reading} {place : Position} {slot : Option Slot}
    {scan next : Scan} {found : Option String} (few : scan.rest.length ≤ 0) :
    (value reading 0 place slot).result scan ≠ (.ok found, next) := by
  intro done
  obtain ⟨_, middle, discarded, -⟩ := result_bind_eq_ok.mp done
  obtain ⟨taken, _, byteOk, -⟩ := result_bind_eq_ok.mp discarded
  obtain ⟨rest, split, -⟩ := byte_eq_ok byteOk
  rw [split] at few
  exact absurd few (Nat.not_succ_le_zero _)

/-- Reading a value and reading a statement, whatever the code is. -/
theorem grows_value (reading : Reading) (code : Bytes) (bound : Nat) :
    (∀ place slot, Grows code bound (value reading bound place slot)) ∧
      GrowsStatement code bound (discard (value reading bound .statement none)) := by
  induction bound with
  | zero =>
    refine ⟨fun place slot scan found next few _ done => absurd done (value_zero_ne_ok few),
      fun scan next few _ done => ?_⟩
    obtain ⟨_, _, valueOk, -⟩ := result_bind_eq_ok.mp done
    exact absurd valueOk (value_zero_ne_ok few)
  | succ bound inductionHypothesis =>
    obtain ⟨values, statements⟩ := inductionHypothesis
    have relates := relates_grows reading code bound
    have blocks (stop : Nat) :
        Grows code bound (block bound stop (discard (value reading bound .statement none))) := by
      intro scan found next few ready done
      obtain ⟨places, grows, -⟩ := grows_block statements few ready done
      exact ⟨places, grows⟩
    -- One byte is taken, and then the bound is that of what is inside.
    have step {place : Position} {slot : Option Slot} {scan next : Scan} {found : Option String}
        (few : scan.rest.length ≤ bound + 1) (ready : scan.rest = code.drop scan.position)
        (done : (value reading (bound + 1) place slot).result scan = (.ok found, next)) :
        ∃ places, scan.Grows code (scan.depth + 1) next places ∧ scan.position < next.position := by
      obtain ⟨first, rest, split, inside⟩ := value_succ_eq_ok done
      have begun : scan.Grows code (scan.depth + 1)
        { scan with rest := rest, position := scan.position + 1 } [] := grows_byte split _
      have fewer : rest.length ≤ bound := by
        rw [split] at few
        exact Nat.le_of_succ_le_succ few
      have further : ∃ places, Scan.Grows code (scan.depth + 1)
          { scan with rest := rest, position := scan.position + 1 } next places := by
        rcases inside with ⟨opcode, -, operandOk⟩ | ⟨-, unknownOk⟩
        · exact @Relates.operand _ _ _ relates _ (value reading bound) values _ blocks place slot
            opcode _ found next fewer (begun.ready ready) operandOk
        · exact grows_bind (relates.unknown _ _ _) (fun _ => grows_pure none) _ found next fewer
            (begun.ready ready) unknownOk
      obtain ⟨places, grows⟩ := further
      exact ⟨places, begun.trans grows, grows.position_le⟩
    refine ⟨fun place slot scan found next few ready done => ?_,
      fun scan next few ready done => ?_⟩
    · obtain ⟨places, grows, -⟩ := step few ready done
      exact ⟨places, grows⟩
    · obtain ⟨found, _, valueOk, same⟩ := result_bind_eq_ok.mp done
      cases same
      obtain ⟨places, grows, further⟩ := step few ready valueOk
      refine ⟨places, grows, further, fun guard => ?_⟩
      obtain ⟨first, rest, split, inside⟩ := value_succ_eq_ok valueOk
      rw [split] at guard
      cases Option.some.inj guard
      rcases inside with ⟨opcode, known, operandOk⟩ | ⟨unknown, -⟩
      · have same : opcode = .returnGuard := Option.some.inj (known.symm.trans (by decide))
        subst same
        exact closes_guard statements few ready split grows operandOk
      · exact absurd unknown (by decide)

/-- Reading a script adds lines in its block, up to the end of the code. -/
theorem grows_script {scan : Scan}
    (done : (script reading).result (.start reading.program.code) = (.ok (), scan)) :
    ∃ places, (Scan.start reading.program.code).Grows reading.program.code 1 scan places ∧
      reading.program.code.length ≤ scan.position := by
  have law := (grows_value reading reading.program.code reading.program.code.length).2
  obtain ⟨places, grows, -, reached⟩ :=
    @grows_block _ _ _ law _ (.start reading.program.code) _ (Nat.le_refl _) rfl done
  exact ⟨places, grows, reached⟩

/-- Every guard in a listing is closed by its four bytes. -/
theorem guardsClose_script {scan : Scan}
    (done : (script reading).result (.start reading.program.code) = (.ok (), scan)) :
    scan.position = reading.program.code.length ∧
      GuardsClose reading.program.code scan.position scan.places := by
  obtain ⟨places, grows, reached⟩ := grows_script done
  have same := grows.length_eq
  refine ⟨?_, ?_⟩
  · simp only [Scan.start] at same
    omega
  · rw [grows.places_eq]
    exact grows.stretch.closes

end Decoder

end MapScript
