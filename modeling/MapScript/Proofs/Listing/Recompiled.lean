/-
This file compiles a script that is read back from the listing of a compiled script. The
code, the entry point and the strings are those of the compiled script.
-/

import MapScript.Proofs.Listing.Reassembled
import MapScript.Proofs.Listing.Reopened
import MapScript.Proofs.Listing.Scripts

namespace MapScript

/-- A script is compiled if its body is encoded, its labels are found, and so are its entry
point and its attributes. -/
theorem Script.compile_of_run {script : Script} {symbols : Symbols} {locals : Option (List Int)}
    {cells : List Cell} {assembly : Assembly} {code attributes : Bytes} {entry : Nat}
    (encoded : (Assembler.block ⟨symbols, locals⟩ 0 script.body).run .empty =
      .ok (cells, assembly))
    (linked : link script assembly.labels cells = .ok code)
    (found : entryPoint script assembly.labels = .ok entry)
    (set : attributeBlock symbols script.attributes = .ok attributes) :
    script.compile symbols locals =
      .ok ⟨script.name, code, entry, assembly.pool.all, attributes, script.locals,
        assembly.labels⟩ :=
  bind_eq_ok.mpr ⟨_, encoded, bind_eq_ok.mpr ⟨_, linked, bind_eq_ok.mpr ⟨_, found,
    bind_eq_ok.mpr ⟨_, set, rfl⟩⟩⟩⟩

/-! ### Scripts with the same statements -/

/-- Which script labels are looked up for does not matter if they are found. -/
theorem labelAddress_other {script : Script} {labels : Registry Int Nat} {label : Int}
    {address : Nat} (found : labelAddress script labels label = .ok address) (other : Script) :
    labelAddress other labels label = .ok address := by
  rw [labelAddress, labelAddress_eq_ok found]

theorem link_other {script : Script} {labels : Registry Int Nat} {cells : List Cell}
    {bytes : Bytes} (linked : link script labels cells = .ok bytes) (other : Script) :
    link other labels cells = .ok bytes := by
  induction cells generalizing bytes with
  | nil => exact linked
  | cons first rest inductionHypothesis =>
    obtain ⟨piece, others, resolved, restOk, rfl⟩ := link_cons_eq_ok.mp linked
    refine link_cons_eq_ok.mpr ⟨piece, others, ?_, inductionHypothesis restOk, rfl⟩
    cases first with
    | byte value => exact resolved
    | address label =>
      obtain ⟨address, found, packed⟩ := bind_eq_ok.mp resolved
      exact bind_eq_ok.mpr ⟨address, labelAddress_other found other, packed⟩

theorem entryPoint_other {script other : Script} {labels : Registry Int Nat} {entry : Nat}
    (start : other.startLabel = script.startLabel)
    (found : entryPoint script labels = .ok entry) : entryPoint other labels = .ok entry := by
  unfold entryPoint at found ⊢
  rw [start]
  split at found
  · exact found
  · exact labelAddress_other found other

/-- The label in a title leads to the address that the title was made of. -/
theorem entryPoint_title {script : Script} {labels : Registry Int Nat} {entry : Nat}
    (start : script.startLabel = titleLabel entry)
    (named : entry ≠ 0 → labels.find? (entry : Int) = some entry) :
    entryPoint script labels = .ok entry := by
  unfold entryPoint
  rw [start]
  unfold titleLabel
  by_cases zero : entry = 0
  · rw [if_pos zero, zero]
  · rw [if_neg zero]
    simp only [labelAddress, named zero]

/-- Scripts with the same statements and the same start are compiled to the same code. -/
theorem Script.compile_of_forget {script read : Script} {symbols : Symbols}
    {locals : Option (List Int)} {compiled : Compiled} {attributes : Bytes}
    (done : script.compile symbols locals = .ok compiled)
    (body : read.body.forget = script.body.forget) (start : read.startLabel = script.startLabel)
    (set : attributeBlock symbols read.attributes = .ok attributes) :
    read.compile symbols locals =
      .ok ⟨read.name, compiled.code, compiled.entry, compiled.strings, attributes, read.locals,
        compiled.labels⟩ := by
  obtain ⟨cells, assembly, entry, encoded, linked, found, isEntry, strings, labels, -⟩ :=
    compile_eq_ok done
  have reread := Assembler.run_block_forget read.body
    (body ▸ Assembler.run_forget_block script.body encoded)
  rw [isEntry, strings, labels]
  exact compile_of_run reread (link_other linked read) (entryPoint_other start found) set

section Compiling

variable {script : Script} {symbols : Symbols} {locals : List Int} {compiled : Compiled}

/-- Every label of the listing of a compiled script starts a statement or stands at the
end of the code. -/
theorem Script.placed_label (done : script.compile symbols (some locals) = .ok compiled)
    (shaped : script.body.Each Statement.Shaped) (covered : script.body.Covered symbols)
    {address : Nat}
    (member : address ∈ (script.listed (compiled.reading symbols locals) compiled.labels).labels) :
    address = compiled.code.length ∨
      ∃ spot ∈ script.body.outline symbols 0 1, spot.address = address := by
  have tight := List.filter_eq_nil_iff.mp (looseLabels_compiled done shaped covered) address member
  rw [Bool.and_eq_true, not_and, bne_iff_ne, ne_eq, Bool.not_eq_true, Bool.not_eq_false'] at tight
  by_cases atEnd : address = compiled.code.length
  · exact Or.inl atEnd
  · obtain ⟨line, inside, same⟩ := List.any_eq_true.mp (tight atEnd)
    obtain ⟨spot, there, rfl⟩ := List.mem_map.mp inside
    exact Or.inr ⟨spot, there, beq_iff_eq.mp same⟩

/-- The entry point of a compiled script is an address, and a label of its listing unless
it is the start. -/
theorem Script.entry_listed (done : script.compile symbols (some locals) = .ok compiled) :
    compiled.entry = (compiled.entry.toNat : Int) ∧ (compiled.entry.toNat ≠ 0 →
      compiled.entry.toNat ∈
        (script.listed (compiled.reading symbols locals) compiled.labels).labels) := by
  obtain ⟨cells, assembly, entry, -, -, -, same, -⟩ := compile_eq_ok done
  refine ⟨by omega, fun positive => ?_⟩
  exact mem_labels_listed.mpr (Or.inr ⟨Nat.pos_of_ne_zero positive, rfl⟩)

/-- A script that is read back from a listing is compiled to what was listed. -/
theorem Script.compile_relisted {read : Script}
    (done : script.compile symbols (some locals) = .ok compiled)
    (shaped : script.body.Each Statement.Shaped) (covered : script.body.Covered symbols)
    (short : ∀ value ∈ locals, value.natAbs < Text.numeralLimit)
    (start : read.startLabel = titleLabel compiled.entry.toNat) (plain : read.attributes = [])
    (body : read.body.forget = Block.relisted (compiled.reading symbols locals) compiled.labels
      (script.listed (compiled.reading symbols locals) compiled.labels).labels 0
      (markBlock (script.listed (compiled.reading symbols locals) compiled.labels).labels
        compiled.code.length .nil) script.body) :
    ∃ again, read.compile symbols (some locals) = .ok again ∧ again.code = compiled.code ∧
      again.entry = compiled.entry ∧ again.strings = compiled.strings := by
  obtain ⟨cells, assembly, entry, encoded, linked, -, -, strings, labels, -⟩ := compile_eq_ok done
  have length := length_compiled done shaped
  obtain ⟨isAddress, entryMarked⟩ := entry_listed done
  have placed := fun address => @placed_label _ _ _ _ done shaped covered address
  have uses : Marked compiled.labels
      (script.listed (compiled.reading symbols locals) compiled.labels).labels
      script.body.uses := fun use member address landing =>
    mem_labels_listed.mpr (Or.inl ⟨use, member, landing⟩)
  generalize (script.listed (compiled.reading symbols locals) compiled.labels).labels = marks
    at placed uses body entryMarked
  have short : (compiled.reading symbols locals).ShortLocals := short
  have fresh : NamedByAddress (Assembly.empty).labels 0 := fun _ _ found => by cases found
  have encoded : (Assembler.block (compiled.reading symbols locals).around 0 script.body).run
    .empty = .ok (cells, assembly) := encoded
  obtain ⟨pieces, reached, follows, run⟩ := Assembler.follows_block short script.body shaped
    covered uses 1 encoded rfl fresh
  have stop : 0 + script.body.codeSize symbols = compiled.code.length := by
    rw [length, Nat.zero_add]
  have ending : (Assembler.block (compiled.reading symbols locals).around
      (0 + script.body.codeSize symbols) (markBlock marks compiled.code.length .nil)).run reached =
      .ok ([], reached.mark marks compiled.code.length) := by
    rw [stop]
    exact Assembler.run_markBlock (stop ▸ follows.named) rfl
  have readEncoded := Assembler.run_block_forget read.body (body ▸ run ending)
  have named (address : Nat) (member : address ∈ marks) :
      (reached.mark marks compiled.code.length).labels.find? (address : Int) = some address := by
    rcases placed address member with rfl | ⟨spot, inside, rfl⟩
    · exact Assembler.find?_mark member
    · exact Assembler.kept_mark (stop ▸ follows.named) (follows.marked spot inside member)
  rw [List.append_nil] at readEncoded
  have readLinked : link read (reached.mark marks compiled.code.length).labels pieces =
      .ok compiled.code := follows.relinks.link_eq named (labels ▸ linked)
  have readEntry : entryPoint read (reached.mark marks compiled.code.length).labels =
      .ok compiled.entry.toNat :=
    entryPoint_title start fun positive => named _ (entryMarked positive)
  have noAttributes : attributeBlock symbols read.attributes =
      .ok (List.replicate attributeBlockSize 0) := by
    rw [plain]
    rfl
  refine ⟨_, compile_of_run readEncoded readLinked readEntry noAttributes, rfl, isAddress.symm, ?_⟩
  show (reached.mark marks compiled.code.length).pool.all = compiled.strings
  rw [strings, Assembler.pool_mark, follows.pool_eq]

end Compiling

end MapScript
