/-
This file encodes a script that is read back from a listing, next to the script that was
listed. Both use the same strings and put the same code in the same places. The labels of
the script that is read back are named by their addresses, so that none is defined twice,
and every address that is referred to has one.
-/

import MapScript.Proofs.Listing.Places
import MapScript.Proofs.Listing.Recovered
import MapScript.Proofs.Listing.Reencoded

namespace MapScript

/-! ### Lines left out of account -/

namespace Assembler

variable {around : Surroundings}

mutual

theorem run_statement_forget (written : Statement) {offset : Nat} {assembly next : Assembly}
    {cells : List Cell}
    (encoded : (statement around offset written.forget).run assembly = .ok (cells, next)) :
    (statement around offset written).run assembly = .ok (cells, next) := by
  match written with
  | .branch clauses body =>
    obtain ⟨condition, pool, inner, stop, clausesOk, bodyOk, packed, rfl⟩ := branch_eq_ok encoded
    exact run_branch clausesOk (run_block_forget body bodyOk) packed
  | .returnGuard value body =>
    obtain ⟨inner, range, bodyOk, rfl⟩ := returnGuard_eq_ok encoded
    exact run_returnGuard range (run_block_forget body bodyOk)
  | .label _ | .expression _ | .assign .. | .objectStep .. | .jump .. | .word _ | .anchor _
  | .taskPause _ | .bare => exact encoded

/-- Which lines the statements come from does not change their code. -/
theorem run_block_forget (written : Block) {offset : Nat} {assembly next : Assembly}
    {cells : List Cell}
    (encoded : (block around offset written.forget).run assembly = .ok (cells, next)) :
    (block around offset written).run assembly = .ok (cells, next) := by
  match written with
  | .nil => exact encoded
  | .cons origin first rest =>
    obtain ⟨front, between, back, firstOk, restOk, rfl⟩ := block_cons_eq_ok encoded
    exact run_block_cons (run_statement_forget first firstOk) (run_block_forget rest restOk)

theorem run_forget_statement (written : Statement) {offset : Nat} {assembly next : Assembly}
    {cells : List Cell}
    (encoded : (statement around offset written).run assembly = .ok (cells, next)) :
    (statement around offset written.forget).run assembly = .ok (cells, next) := by
  match written with
  | .branch clauses body =>
    obtain ⟨condition, pool, inner, stop, clausesOk, bodyOk, packed, rfl⟩ := branch_eq_ok encoded
    exact run_branch clausesOk (run_forget_block body bodyOk) packed
  | .returnGuard value body =>
    obtain ⟨inner, range, bodyOk, rfl⟩ := returnGuard_eq_ok encoded
    exact run_returnGuard range (run_forget_block body bodyOk)
  | .label _ | .expression _ | .assign .. | .objectStep .. | .jump .. | .word _ | .anchor _
  | .taskPause _ | .bare => exact encoded

theorem run_forget_block (written : Block) {offset : Nat} {assembly next : Assembly}
    {cells : List Cell}
    (encoded : (block around offset written).run assembly = .ok (cells, next)) :
    (block around offset written.forget).run assembly = .ok (cells, next) := by
  match written with
  | .nil => exact encoded
  | .cons origin first rest =>
    obtain ⟨front, between, back, firstOk, restOk, rfl⟩ := block_cons_eq_ok encoded
    exact run_block_cons (run_forget_statement first firstOk) (run_forget_block rest restOk)

end

end Assembler

/-! ### Addresses for labels -/

/-- Labels are named by their addresses, which lie in front of an offset. -/
def NamedByAddress (labels : Registry Int Nat) (offset : Nat) : Prop :=
  ∀ key address, labels.find? key = some address → key = (address : Int) ∧ address < offset

theorem NamedByAddress.mono {labels : Registry Int Nat} {near far : Nat}
    (named : NamedByAddress labels near) (further : near ≤ far) : NamedByAddress labels far :=
  fun key address found =>
    ⟨(named key address found).1, Nat.lt_of_lt_of_le (named key address found).2 further⟩

theorem NamedByAddress.fresh {labels : Registry Int Nat} {offset : Nat}
    (named : NamedByAddress labels offset) : labels.has (offset : Int) = false := by
  cases there : labels.has (offset : Int) with
  | false => rfl
  | true =>
    obtain ⟨address, found⟩ := Option.isSome_iff_exists.mp there
    obtain ⟨same, before⟩ := named _ address found
    omega

theorem NamedByAddress.put {labels : Registry Int Nat} {offset : Nat}
    (named : NamedByAddress labels offset) :
    NamedByAddress (labels.put (offset : Int) offset) (offset + 1) := by
  intro key address found
  by_cases same : key = (offset : Int)
  · subst same
    rw [Registry.find?_put_self] at found
    cases found
    exact ⟨rfl, Nat.lt_succ_self _⟩
  · rw [Registry.find?_put_other _ same] at found
    exact named.mono (Nat.le_succ _) key address found

/-- Pieces of code of which some labels have become addresses: they take as many bytes,
and they are the same bytes if every marked address has a label. -/
structure Relinks (labels : Registry Int Nat) (marks : List Nat) (cells read : List Cell) :
    Prop where
  size_eq : Cell.totalSize read = Cell.totalSize cells
  link_eq : ∀ {script other : Script} {known : Registry Int Nat} {bytes : Bytes},
    (∀ address ∈ marks, known.find? (address : Int) = some address) →
    link script labels cells = .ok bytes → link other known read = .ok bytes

namespace Relinks

variable {labels : Registry Int Nat} {marks : List Nat}

theorem ofBytes (bytes : Bytes) :
    Relinks labels marks (Cell.ofBytes bytes) (Cell.ofBytes bytes) where
  size_eq := rfl
  link_eq _ linked := by
    cases (link_ofBytes _ _ bytes).symm.trans linked
    exact link_ofBytes _ _ _

theorem append {front back one two : List Cell} (first : Relinks labels marks front one)
    (second : Relinks labels marks back two) :
    Relinks labels marks (front ++ back) (one ++ two) where
  size_eq := by
    rw [Cell.totalSize_append, Cell.totalSize_append, first.size_eq, second.size_eq]
  link_eq named linked := by
    obtain ⟨left, right, frontOk, backOk, rfl⟩ := link_append_eq_ok.mp linked
    exact link_append_eq_ok.mpr
      ⟨left, right, first.link_eq named frontOk, second.link_eq named backOk, rfl⟩

theorem link_address {script : Script} {known : Registry Int Nat} {opcode : Opcode}
    {address : Nat} {number : Bytes} (found : known.find? (address : Int) = some address)
    (packed : packNumber 4 address = .ok number) :
    link script known (Assembler.withLabel opcode address) = .ok (opcode.code :: number) := by
  have there : labelAddress script known address = .ok address := by
    rw [labelAddress, found]
  have resolved : (Cell.address address).resolve script known = .ok number :=
    bind_eq_ok.mpr ⟨address, there, packed⟩
  exact link_cons_eq_ok.mpr ⟨[opcode.code], number, rfl,
    link_cons_eq_ok.mpr ⟨number, [], resolved, rfl, (List.append_nil _).symm⟩, rfl⟩

/-- A label and its address, if that is marked. -/
theorem withLabel {opcode : Opcode} {goal : Int}
    (marked : ∀ address, labels.find? goal = some address → address ∈ marks) :
    Relinks labels marks (Assembler.withLabel opcode goal)
      (Assembler.withLabel opcode ((labels.find? goal).getD 0 : Nat)) where
  size_eq := rfl
  link_eq named linked := by
    obtain ⟨address, number, found, packed, rfl⟩ := link_withLabel_eq_ok linked
    rw [found, Option.getD_some]
    exact link_address (named address (marked address found)) packed

/-- A label at the start of the code, and no label. -/
theorem nowhere {opcode : Opcode} {goal : Int} (start : (labels.find? goal).getD 0 = 0) :
    Relinks labels marks (Assembler.withLabel opcode goal)
      (Cell.ofBytes (opcode.code :: Encoder.long 0)) where
  size_eq := rfl
  link_eq named linked := by
    obtain ⟨address, number, found, packed, rfl⟩ := link_withLabel_eq_ok linked
    rw [found, Option.getD_some] at start
    subst start
    cases packed
    exact link_ofBytes _ _ _

end Relinks

/-! ### Encoding what is read back -/

/-- One encoding follows another one: it uses the same strings, its code fits the other's,
the labels it knew before stay, and those of the marked places are added. -/
structure Follows (labels : Registry Int Nat) (marks : List Nat) (stop : Nat) (spots : List Spot)
    (before : Registry Int Nat) (next : Assembly) (cells : List Cell) (reached : Assembly)
    (read : List Cell) : Prop where
  pool_eq : reached.pool = next.pool
  named : NamedByAddress reached.labels stop
  relinks : Relinks labels marks cells read
  kept : ∀ key address, before.find? key = some address →
    reached.labels.find? key = some address
  marked : ∀ spot ∈ spots, spot.address ∈ marks →
    reached.labels.find? (spot.address : Int) = some spot.address

/-- The code in front of a block does not refer to labels. -/
theorem Follows.behind {labels : Registry Int Nat} {marks : List Nat} {stop later : Nat}
    {spots : List Spot} {before : Registry Int Nat} {next reached : Assembly}
    {cells read : List Cell}
    (follows : Follows labels marks stop spots before next cells reached read) (front : Bytes)
    (same : stop = later) :
    Follows labels marks later spots before next (Cell.ofBytes front ++ cells) reached
      (Cell.ofBytes front ++ read) where
  pool_eq := follows.pool_eq
  named := same ▸ follows.named
  relinks := (Relinks.ofBytes front).append follows.relinks
  kept := follows.kept
  marked := follows.marked

/-- Every address that labels lead to is marked. -/
def Marked (labels : Registry Int Nat) (marks : List Nat) (uses : List LabelUse) : Prop :=
  ∀ use ∈ uses, ∀ address, use.landing? labels = some address → address ∈ marks

/-- The state of an encoding behind a mark. -/
def Assembly.mark (marks : List Nat) (address : Nat) (assembly : Assembly) : Assembly :=
  if marks.contains address then
    { assembly with labels := assembly.labels.put (address : Int) address }
  else assembly

namespace Assembler

variable {reading : Reading} {labels : Registry Int Nat} {marks : List Nat}

theorem pool_mark (address : Nat) (assembly : Assembly) :
    (assembly.mark marks address).pool = assembly.pool := by
  unfold Assembly.mark
  split <;> rfl

theorem named_mark {address : Nat} {assembly : Assembly}
    (named : NamedByAddress assembly.labels address) :
    NamedByAddress (assembly.mark marks address).labels (address + 1) := by
  unfold Assembly.mark
  split
  · exact named.put
  · exact named.mono (Nat.le_succ _)

theorem kept_mark {address : Nat} {assembly : Assembly}
    (named : NamedByAddress assembly.labels address) {key : Int} {value : Nat}
    (found : assembly.labels.find? key = some value) :
    (assembly.mark marks address).labels.find? key = some value := by
  unfold Assembly.mark
  split
  · rw [Registry.find?_put_other _ (fun same => ?_), found]
    obtain ⟨equal, before⟩ := named key value found
    omega
  · exact found

theorem find?_mark {address : Nat} {assembly : Assembly} (marked : address ∈ marks) :
    (assembly.mark marks address).labels.find? (address : Int) = some address := by
  rw [Assembly.mark, if_pos (List.contains_iff_mem.mpr marked)]
  exact Registry.find?_put_self _ _ _

/-- A marked address gets a label, which is not defined yet. -/
theorem run_markBlock {around : Surroundings} {address : Nat} {assembly next : Assembly}
    {rest : Block} {cells : List Cell} (named : NamedByAddress assembly.labels address)
    (encoded : (block around address rest).run (assembly.mark marks address) =
      .ok (cells, next)) :
    (block around address (markBlock marks address rest)).run assembly = .ok (cells, next) := by
  unfold markBlock
  unfold Assembly.mark at encoded
  split
  · rename_i marked
    rw [if_pos marked] at encoded
    exact run_block_cons (run_label named.fresh) encoded
  · rename_i unmarked
    rwa [if_neg unmarked] at encoded

/-- A statement without a block follows if its code fits and uses the same strings. -/
theorem follows_plain {stop offset : Nat} {known next : Assembly} {cells read : List Cell}
    (named : NamedByAddress known.labels (offset + 1)) (behind : offset < stop)
    (relinks : Relinks labels marks cells read) :
    Follows labels marks stop [] known.labels next cells { known with pool := next.pool } read where
  pool_eq := rfl
  named := named.mono behind
  relinks := relinks
  kept _ _ found := found
  marked _ none := absurd none List.not_mem_nil

theorem follows_same {stop offset : Nat} {known next : Assembly} {cells read : List Cell}
    (pool : known.pool = next.pool) (named : NamedByAddress known.labels (offset + 1))
    (behind : offset < stop) (relinks : Relinks labels marks cells read) :
    Follows labels marks stop [] known.labels next cells known read := by
  have follows := @follows_plain labels marks stop offset known next cells read named behind relinks
  rw [← pool] at follows
  exact follows

/-- A jump that is read back goes to the address of its label. -/
theorem relinks_jump {kind : JumpKind} {goal : Option Int} (shaped : (Statement.jump kind goal).Shaped)
    (uses : Marked labels marks (Statement.jump kind goal).uses) {offset : Nat}
    {assembly next known : Assembly} {cells : List Cell}
    (encoded : (statement reading.around offset (.jump kind goal)).run assembly =
      .ok (cells, next)) :
    next = assembly ∧ ∃ read, Relinks labels marks cells read ∧
      (statement reading.around offset ((Statement.jump kind goal).reread reading labels)).run
        known = .ok (read, known) := by
  cases goal with
  | none =>
    cases run_pure_eq_ok.mp encoded
    refine ⟨rfl, _, .ofBytes _, ?_⟩
    rw [Statement.reread]
    simp only [Option.bind_none, Option.getD_none, and_true,
      if_pos (fun same : kind = .gosub => shaped same rfl)]
    rfl
  | some goal =>
    cases run_pure_eq_ok.mp encoded
    refine ⟨rfl, ?_⟩
    rw [Statement.reread]
    by_cases nowhere : kind ≠ .gosub ∧ (labels.find? goal).getD 0 = 0
    · simp only [Option.bind_some, if_pos nowhere]
      exact ⟨_, .nowhere nowhere.2, rfl⟩
    · simp only [Option.bind_some, if_neg nowhere]
      refine ⟨_, .withLabel fun address found => ?_, rfl⟩
      refine uses ⟨goal, kind != .gosub⟩ List.mem_cons_self address ?_
      rw [LabelUse.landing?, found]
      rw [found, Option.getD_some] at nowhere
      simpa using nowhere

mutual

/-- The encoding of a statement that is read back follows that of the statement that was
listed. -/
theorem follows_statement (short : reading.ShortLocals) (written : Statement)
    (shaped : written.Each Statement.Shaped) (covered : written.Covered reading.symbols)
    (notLabel : written.isLabel = false) (uses : Marked labels marks written.uses)
    {offset : Nat} (depth : Nat) {assembly next known : Assembly} {cells : List Cell}
    (encoded : (statement reading.around offset written).run assembly = .ok (cells, next))
    (pool : known.pool = assembly.pool) (named : NamedByAddress known.labels (offset + 1)) :
    ∃ read reached,
      (statement reading.around offset (written.relisted reading labels marks offset)).run known =
        .ok (read, reached) ∧
      Follows labels marks (offset + written.codeSize reading.symbols)
        (written.nested reading.symbols offset depth) known.labels next cells reached read := by
  have behind : offset < offset + written.codeSize reading.symbols :=
    Nat.lt_add_of_pos_right (Statement.codeSize_pos shaped.self notLabel _)
  match written with
  | .expression value =>
    obtain ⟨bytes, pool', run, rfl, rfl⟩ := encode_eq_ok encoded
    refine ⟨_, _, run_encode ?_, follows_plain named behind (.ofBytes bytes)⟩
    rw [Encoder.term_settled short, pool]
    exact run
  | .assign target formula =>
    obtain ⟨bytes, pool', run, rfl, rfl⟩ := encode_eq_ok encoded
    refine ⟨_, _, run_encode ?_, follows_plain named behind (.ofBytes bytes)⟩
    rw [Encoder.target_settled short, Encoder.formula_settled short, pool]
    exact run
  | .objectStep object reference step =>
    obtain ⟨bytes, pool', run, rfl, rfl⟩ := encode_eq_ok encoded
    refine ⟨_, _, run_encode ?_, follows_plain named behind (.ofBytes bytes)⟩
    rw [Encoder.objectName_objectText short, pool]
    exact run
  | .branch clauses body =>
    obtain ⟨condition, between, inner, stop, clausesOk, bodyOk, packed, rfl⟩ :=
      branch_eq_ok encoded
    have size := (Encoder.laid_clauses clauses shaped.1 clausesOk).size_eq
    rw [size] at bodyOk packed
    have samePool : ({ known with pool := between } : Assembly).pool =
      ({ assembly with pool := between } : Assembly).pool := rfl
    obtain ⟨read, reached, follows, run⟩ := follows_block short body shaped.2 covered uses
      (depth + 1) bodyOk samePool (named.mono (by omega))
    have conditionOk : (Encoder.clauses reading.around (clauses.map (Clause.settled reading))).run
        known.pool = .ok (condition, between) := by
      rw [Encoder.clauses_settled short, pool]
      exact clausesOk
    have readOk := @run .nil [] reached rfl
    rw [List.append_nil] at readOk
    rw [← follows.relinks.size_eq] at packed
    refine ⟨_, reached, run_branch conditionOk (size.symm ▸ readOk) (size.symm ▸ packed),
      follows.behind _ ?_⟩
    rw [Statement.codeSize]
    omega
  | .returnGuard value body =>
    obtain ⟨inner, range, bodyOk, rfl⟩ := returnGuard_eq_ok encoded
    obtain ⟨read, reached, follows, run⟩ := follows_block short body shaped.2 covered.2.2 uses
      (depth + 1) bodyOk pool (named.mono (by omega))
    have readOk := @run .nil [] reached rfl
    rw [List.append_nil] at readOk
    refine ⟨_, reached, run_returnGuard range readOk, follows.behind _ ?_⟩
    rw [Statement.codeSize]
    omega
  | .jump kind goal =>
    obtain ⟨rfl, read, relinks, run⟩ := relinks_jump shaped uses encoded
    exact ⟨read, known, run, follows_same pool named behind relinks⟩
  | .word kind =>
    cases run_pure_eq_ok.mp encoded
    exact ⟨_, known, rfl, follows_same pool named behind (.ofBytes [(Opcode.ofWord kind).code])⟩
  | .anchor value =>
    obtain ⟨range, rfl, rfl⟩ := anchor_eq_ok encoded
    exact ⟨_, known, run_anchor range, follows_same pool named behind (.ofBytes _)⟩
  | .taskPause goal =>
    cases run_pure_eq_ok.mp encoded
    refine ⟨_, known, rfl, follows_same pool named behind (.withLabel fun address found => ?_)⟩
    refine uses ⟨goal, false⟩ List.mem_cons_self address ?_
    rw [LabelUse.landing?, found]
    rfl
  | .label goal => cases notLabel
  | .bare => cases shaped

/-- The encoding of a block that is read back follows that of the block that was listed,
and is carried on by what comes behind it. -/
theorem follows_block (short : reading.ShortLocals) (written : Block)
    (shaped : written.Each Statement.Shaped) (covered : written.Covered reading.symbols)
    (uses : Marked labels marks written.uses) {offset : Nat} (depth : Nat)
    {assembly next known : Assembly} {cells : List Cell}
    (encoded : (block reading.around offset written).run assembly = .ok (cells, next))
    (pool : known.pool = assembly.pool) (named : NamedByAddress known.labels offset) :
    ∃ read reached,
      Follows labels marks (offset + written.codeSize reading.symbols)
        (written.outline reading.symbols offset depth) known.labels next cells reached read ∧
      ∀ {after : Block} {more : List Cell} {last : Assembly},
        (block reading.around (offset + written.codeSize reading.symbols) after).run reached =
          .ok (more, last) →
        (block reading.around offset
          (Block.relisted reading labels marks offset after written)).run known =
          .ok (read ++ more, last) := by
  match written with
  | .nil =>
    cases run_pure_eq_ok.mp encoded
    refine ⟨[], known, ⟨pool, named, .ofBytes [], fun _ _ found => found, ?_⟩, fun done => done⟩
    exact fun _ none => absurd none List.not_mem_nil
  | .cons origin first rest =>
    obtain ⟨front, between, back, firstOk, restOk, rfl⟩ := block_cons_eq_ok encoded
    have size := totalSize_statement first shaped.1 firstOk
    rw [size] at restOk
    obtain ⟨usesFirst, usesRest⟩ := List.forall_mem_append.mp uses
    have stops : offset + first.codeSize reading.symbols + rest.codeSize reading.symbols =
        offset + (Block.cons origin first rest).codeSize reading.symbols :=
      Nat.add_assoc _ _ _
    rw [← stops, Block.outline]
    cases label : first.isLabel with
    | true =>
      cases first with
      | label goal =>
        obtain ⟨rfl, -, rfl⟩ := label_eq_ok firstOk
        simp only [Block.relisted, Statement.isLabel, if_true, List.nil_append]
        exact follows_block short rest shaped.2 covered.2 usesRest depth restOk pool named
      | _ => cases label
    | false =>
      obtain ⟨one, middle, firstRun, firstFollows⟩ := follows_statement short first shaped.1
        covered.1 label usesFirst depth firstOk ((pool_mark offset known).trans pool)
        (@named_mark marks offset known named)
      obtain ⟨two, reached, restFollows, restRun⟩ := follows_block short rest shaped.2 covered.2
        usesRest depth restOk firstFollows.pool_eq firstFollows.named
      refine ⟨one ++ two, reached, ?_, fun done => ?_⟩
      · refine ⟨restFollows.pool_eq, restFollows.named,
          firstFollows.relinks.append restFollows.relinks, fun key address found => ?_,
          fun spot member marked => ?_⟩
        · exact restFollows.kept _ _ (firstFollows.kept _ _ (kept_mark named found))
        · rcases List.mem_append.mp member with here | later
          · refine restFollows.kept _ _ ?_
            rcases List.mem_cons.mp here with rfl | inside
            · exact firstFollows.kept _ _ (find?_mark marked)
            · exact firstFollows.marked spot inside marked
          · exact restFollows.marked spot later marked
      · rw [Block.relisted, label]
        refine run_markBlock named ?_
        rw [List.append_assoc]
        refine run_block_cons firstRun ?_
        rw [firstFollows.relinks.size_eq, size]
        exact restRun done

end

end Assembler

end MapScript
