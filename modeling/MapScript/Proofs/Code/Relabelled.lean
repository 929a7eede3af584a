/-
This file proves that labels are only names. A script whose labels are renamed, without giving
two of them the same name, is compiled exactly if the script itself is, and to the same code,
entry point, strings and attributes. Both scripts are encoded side by side: their pieces of code
differ in the labels that are left open, and their tables of labels in the keys, and where one
encoding stops so does the other. Looking up a renamed label in the renamed table finds the
address of the label, so that linking closes every gap with the same number.
-/

import Mathlib.Data.Set.Function
import MapScript.Proofs.Code.Linking

namespace MapScript

/-! ### Renaming the labels of a script -/

mutual

/-- A statement with other names for labels, where they are defined and where they are used. -/
def Statement.relabel (rename : Int → Int) : Statement → Statement
  | .label label => .label (rename label)
  | .branch clauses body => .branch clauses (body.relabel rename)
  | .returnGuard value body => .returnGuard value (body.relabel rename)
  | .jump kind label => .jump kind (label.map rename)
  | .taskPause label => .taskPause (rename label)
  | other => other

/-- The statements of a block with other names for labels. -/
def Block.relabel (rename : Int → Int) : Block → Block
  | .nil => .nil
  | .cons origin first rest => .cons origin (first.relabel rename) (rest.relabel rename)

end

/-- A script with other names for labels. -/
def Script.relabel (rename : Int → Int) (script : Script) : Script :=
  { script with
    startLabel := script.startLabel.map rename
    body := script.body.relabel rename }

mutual

/-- The labels that a statement defines or uses, with those in its block. -/
def Statement.labels : Statement → List Int
  | .label label => [label]
  | .branch _ body => body.labels
  | .returnGuard _ body => body.labels
  | .jump _ label => label.toList
  | .taskPause label => [label]
  | _ => []

/-- The labels that the statements of a block define or use. -/
def Block.labels : Block → List Int
  | .nil => []
  | .cons _ first rest => first.labels ++ rest.labels

end

/-- The labels that occur in a script. -/
def Script.labels (script : Script) : List Int :=
  script.startLabel.toList ++ script.body.labels

/-! ### Attempts side by side -/

/-- Two attempts both fail, or both succeed with related results. -/
inductive Abreast {α β : Type} (related : α → β → Prop) : Except Fault α → Except Fault β → Prop
  | error (fault other : Fault) : Abreast related (.error fault) (.error other)
  | ok {one : α} {two : β} (results : related one two) : Abreast related (.ok one) (.ok two)

namespace Abreast

variable {α β γ δ : Type} {related : α → β → Prop} {connected : γ → δ → Prop}

theorem bind {first : Except Fault α} {second : Except Fault β} {next : α → Except Fault γ}
    {later : β → Except Fault δ} (front : Abreast related first second)
    (back : ∀ one two, related one two → Abreast connected (next one) (later two)) :
    Abreast connected (first >>= next) (second >>= later) := by
  cases front with
  | error fault other => exact .error fault other
  | ok results => exact back _ _ results

/-- An attempt beside itself. -/
theorem refl {results : α → α → Prop} (same : ∀ value, results value value)
    (attempt : Except Fault α) : Abreast results attempt attempt := by
  cases attempt with
  | error fault => exact .error fault fault
  | ok value => exact .ok (same value)

theorem locating {first : Except Fault α} {second : Except Fault β}
    (attempts : Abreast related first second) (origin : Option Origin) :
    Abreast related (MapScript.locating origin first) (MapScript.locating origin second) := by
  cases attempts with
  | error fault other => exact .error _ _
  | ok results => exact .ok results

/-- One of the attempts succeeds if the other one does. -/
theorem exists_ok_iff {first : Except Fault α} {second : Except Fault β}
    (attempts : Abreast related first second) :
    (∃ two, second = .ok two) ↔ ∃ one, first = .ok one := by
  cases attempts with
  | error fault other => simp
  | ok results => simp

theorem results {one : α} {two : β} (attempts : Abreast related (.ok one) (.ok two)) :
    related one two := by
  cases attempts with
  | ok results => exact results

end Abreast

/-! ### Pieces of code and tables of labels -/

/-- A piece of code with another name for its label. -/
def Cell.relabel (rename : Int → Int) : Cell → Cell
  | .byte value => .byte value
  | .address label => .address (rename label)

/-- The same pieces of code, but for the names of labels; all labels are known ones. -/
structure Cell.Relabels (rename : Int → Int) (known : List Int) (cells others : List Cell) :
    Prop where
  map_eq : others = cells.map (Cell.relabel rename)
  known : ∀ label, .address label ∈ cells → label ∈ known

/-- The same strings and the same table of labels, but for their names; all labels are known
ones. -/
structure Assembly.Relabels (rename : Int → Int) (known : List Int) (assembly other : Assembly) :
    Prop where
  pool_eq : other.pool = assembly.pool
  entries_eq : other.labels.entries =
    assembly.labels.entries.map fun entry => (rename entry.1, entry.2)
  known : ∀ entry ∈ assembly.labels.entries, entry.1 ∈ known

section Relabelling

variable {rename : Int → Int} {known : List Int}

namespace Cell.Relabels

theorem ofBytes (bytes : Bytes) :
    Cell.Relabels rename known (Cell.ofBytes bytes) (Cell.ofBytes bytes) where
  map_eq := by
    rw [Cell.ofBytes, List.map_map]
    rfl
  known label member := by
    obtain ⟨value, -, never⟩ := List.mem_map.mp member
    cases never

theorem withLabel {label : Int} (member : label ∈ known) (opcode : Opcode) :
    Cell.Relabels rename known (Assembler.withLabel opcode label)
      (Assembler.withLabel opcode (rename label)) where
  map_eq := rfl
  known other inside := by
    rcases List.mem_cons.mp inside with never | inside
    · cases never
    · cases List.mem_singleton.mp inside
      exact member

theorem append {front back others more : List Cell}
    (one : Cell.Relabels rename known front others)
    (two : Cell.Relabels rename known back more) :
    Cell.Relabels rename known (front ++ back) (others ++ more) where
  map_eq := by rw [one.map_eq, two.map_eq, List.map_append]
  known label member := (List.mem_append.mp member).elim (one.known label) (two.known label)

theorem byte_cons {cells others : List Cell} (pieces : Cell.Relabels rename known cells others)
    (value : UInt8) : Cell.Relabels rename known (.byte value :: cells) (.byte value :: others) :=
  (ofBytes [value]).append pieces

theorem totalSize_eq {cells others : List Cell}
    (pieces : Cell.Relabels rename known cells others) :
    Cell.totalSize others = Cell.totalSize cells := by
  rw [pieces.map_eq]
  clear pieces
  induction cells with
  | nil => rfl
  | cons first rest inductionHypothesis =>
    rw [List.map_cons, Cell.totalSize_cons, Cell.totalSize_cons, inductionHypothesis]
    cases first <;> rfl

end Cell.Relabels

/-! ### Encoding side by side -/

namespace Assembler

/-- Two encodings go on alike: from states that differ in the names of labels, both fail, or both
come to such states again with related results. -/
def Relabels {α : Type} (rename : Int → Int) (known : List Int) (related : α → α → Prop)
    (first second : Assembler α) : Prop :=
  ∀ assembly other, Assembly.Relabels rename known assembly other →
    Abreast (fun one two => related one.1 two.1 ∧ Assembly.Relabels rename known one.2 two.2)
      (first.run assembly) (second.run other)

variable {α β : Type} {related : α → α → Prop} {connected : β → β → Prop} {around : Surroundings}

theorem relabels_pure {one two : α} (results : related one two) :
    Relabels rename known related (pure one) (pure two) :=
  fun _ _ states => .ok ⟨results, states⟩

theorem relabels_throw (fault : Fault) :
    Relabels rename known related (throw fault) (throw fault) :=
  fun _ _ _ => .error fault fault

theorem relabels_bind {first second : Assembler α} {next later : α → Assembler β}
    (front : Relabels rename known related first second)
    (back : ∀ one two, related one two → Relabels rename known connected (next one) (later two)) :
    Relabels rename known connected (first >>= next) (second >>= later) :=
  fun assembly other states => (front assembly other states).bind fun one two results =>
    back one.1 two.1 results.1 one.2 two.2 results.2

theorem relabels_lift (attempt : Except Fault α) :
    Relabels rename known Eq (liftM attempt) (liftM attempt) := by
  intro assembly other states
  cases attempt with
  | error fault => exact .error fault fault
  | ok value => exact .ok ⟨rfl, states⟩

theorem relabels_located {first second : Assembler α}
    (both : Relabels rename known related first second) (origin : Option Origin) :
    Relabels rename known related (located origin first) (located origin second) :=
  fun assembly other states => (both assembly other states).locating origin

/-- Values have no labels in them. -/
theorem relabels_encode (encoder : Encoder Bytes) :
    Relabels rename known (Cell.Relabels rename known) (encode encoder) (encode encoder) := by
  intro assembly other states
  show Abreast _ (encode encoder assembly) (encode encoder other)
  unfold encode
  rw [states.pool_eq]
  cases encoder.run assembly.pool with
  | error fault => exact .error fault fault
  | ok encoded =>
    exact .ok ⟨.ofBytes encoded.1, rfl, states.entries_eq, states.known⟩

end Assembler

/-! ### Looking up renamed labels -/

section Distinct

variable (injective : Set.InjOn rename {label | label ∈ known})

include injective

theorem lookup_relabel {α : Type} {label : Int} (member : label ∈ known)
    (entries : List (Int × α)) (keys : ∀ entry ∈ entries, entry.1 ∈ known) :
    (entries.map fun entry => (rename entry.1, entry.2)).lookup (rename label) =
      entries.lookup label := by
  induction entries with
  | nil => rfl
  | cons first rest inductionHypothesis =>
    obtain ⟨here, others⟩ := List.forall_mem_cons.mp keys
    have same : (rename label == rename first.1) = (label == first.1) := by
      rw [Bool.eq_iff_iff, beq_iff_eq, beq_iff_eq]
      exact ⟨fun same => injective member here same, congrArg rename⟩
    rw [List.map_cons, List.lookup_cons, List.lookup_cons, same, inductionHypothesis others]

theorem Assembly.Relabels.find?_eq {assembly other : Assembly}
    (states : Assembly.Relabels rename known assembly other) {label : Int}
    (member : label ∈ known) :
    other.labels.find? (rename label) = assembly.labels.find? label := by
  unfold Registry.find?
  rw [states.entries_eq]
  exact lookup_relabel injective member assembly.labels.entries states.known

namespace Assembler

theorem relabels_define {label : Int} (member : label ∈ known) (address : Nat) :
    Relabels rename known Eq (define label address) (define (rename label) address) := by
  intro assembly other states
  have there : other.labels.has (rename label) = assembly.labels.has label :=
    congrArg Option.isSome (states.find?_eq injective member)
  show Abreast _ ((if assembly.labels.has label then _ else _ : Assembler Unit).run assembly)
    ((if other.labels.has (rename label) then _ else _ : Assembler Unit).run other)
  rw [there]
  -- Either both tables have the label already, or both get it as their last entry.
  cases fresh : assembly.labels.has label with
  | true => exact .error _ _
  | false =>
    refine .ok ⟨rfl, states.pool_eq, ?_, ?_⟩
    · show (other.labels.put (rename label) address).entries =
        (assembly.labels.put label address).entries.map _
      rw [Registry.entries_put_of_has (there.trans fresh), Registry.entries_put_of_has fresh,
        states.entries_eq, List.map_append, List.map_singleton]
    · intro entry inside
      rw [Registry.entries_put_of_has fresh] at inside
      rcases List.mem_append.mp inside with earlier | here
      · exact states.known entry earlier
      · cases List.mem_singleton.mp here
        exact member

end Assembler

end Distinct

namespace Assembler

mutual

theorem relabels_statement (injective : Set.InjOn rename {label | label ∈ known})
    {around : Surroundings} (written : Statement)
    (occur : ∀ label ∈ written.labels, label ∈ known) (offset : Nat) :
    Relabels rename known (Cell.Relabels rename known) (statement around offset written)
      (statement around offset (written.relabel rename)) := by
  cases written with
  | label label =>
    refine relabels_bind (relabels_define injective (occur label List.mem_cons_self) offset) ?_
    exact fun _ _ _ => relabels_pure (.ofBytes [])
  | expression value => exact relabels_encode _
  | assign target formula => exact relabels_encode _
  | objectStep object reference step => exact relabels_encode _
  | branch clauses body =>
    simp only [Statement.relabel, statement]
    refine relabels_bind (relabels_encode _) fun front others pieces => ?_
    have head := pieces.byte_cons Opcode.branch.code
    -- Labels take the same room under any name, so both blocks start at the same place.
    rw [head.totalSize_eq]
    refine relabels_bind (relabels_block injective body occur _) fun inner innerOthers bodies => ?_
    rw [bodies.totalSize_eq]
    refine relabels_bind (relabels_lift _) fun stop stopOther same => ?_
    cases same
    exact relabels_pure ((head.append (.ofBytes stop)).append bodies)
  | returnGuard value body =>
    simp only [Statement.relabel, statement]
    refine relabels_bind (relabels_encode _) fun front others pieces => ?_
    have head := pieces.byte_cons Opcode.returnGuard.code
    rw [head.totalSize_eq]
    exact relabels_bind (relabels_block injective body occur _) fun inner innerOthers bodies =>
      relabels_pure (head.append bodies)
  | jump kind label =>
    cases label with
    | none => exact relabels_pure (.ofBytes _)
    | some label => exact relabels_pure (.withLabel (occur label List.mem_cons_self) _)
  | word kind => exact relabels_pure (.ofBytes [_])
  | anchor value =>
    exact relabels_bind (relabels_encode _) fun _ _ pieces => relabels_pure (pieces.byte_cons _)
  | taskPause label => exact relabels_pure (.withLabel (occur label List.mem_cons_self) _)
  | bare => exact relabels_throw _

theorem relabels_block (injective : Set.InjOn rename {label | label ∈ known})
    {around : Surroundings} (written : Block)
    (occur : ∀ label ∈ written.labels, label ∈ known) (offset : Nat) :
    Relabels rename known (Cell.Relabels rename known) (block around offset written)
      (block around offset (written.relabel rename)) := by
  cases written with
  | nil => exact relabels_pure (.ofBytes [])
  | cons origin first rest =>
    have here (label : Int) (member : label ∈ first.labels) : label ∈ known :=
      occur label (List.mem_append_left _ member)
    have behind (label : Int) (member : label ∈ rest.labels) : label ∈ known :=
      occur label (List.mem_append_right _ member)
    simp only [Block.relabel, block]
    refine relabels_bind (relabels_located (relabels_statement injective first here offset) origin)
      fun front others pieces => ?_
    rw [pieces.totalSize_eq]
    exact relabels_bind (relabels_block injective rest behind _) fun back more later =>
      relabels_pure (pieces.append later)

end

end Assembler

/-! ### Linking side by side -/

section Linking

variable (injective : Set.InjOn rename {label | label ∈ known}) {assembly other : Assembly}
  (states : Assembly.Relabels rename known assembly other) (script : Script)

include injective states

theorem abreast_labelAddress {label : Int} (member : label ∈ known) :
    Abreast Eq (labelAddress script assembly.labels label)
      (labelAddress (script.relabel rename) other.labels (rename label)) := by
  unfold labelAddress
  rw [states.find?_eq injective member]
  cases assembly.labels.find? label with
  | none => exact .error _ _
  | some address => exact .ok rfl

theorem abreast_resolve (cell : Cell) (inside : ∀ label, cell = .address label → label ∈ known) :
    Abreast Eq (cell.resolve script assembly.labels)
      ((cell.relabel rename).resolve (script.relabel rename) other.labels) := by
  cases cell with
  | byte value => exact .ok rfl
  | address label =>
    refine (abreast_labelAddress injective states script (inside label rfl)).bind ?_
    rintro address _ rfl
    exact .refl (fun _ => rfl) _

theorem abreast_link {cells others : List Cell}
    (pieces : Cell.Relabels rename known cells others) :
    Abreast Eq (link script assembly.labels cells)
      (link (script.relabel rename) other.labels others) := by
  obtain ⟨rfl, inside⟩ := pieces
  induction cells with
  | nil => exact .ok rfl
  | cons first rest inductionHypothesis =>
    have here (label : Int) (same : first = .address label) : label ∈ known :=
      inside label (same ▸ List.mem_cons_self)
    have behind (label : Int) (member : .address label ∈ rest) : label ∈ known :=
      inside label (List.mem_cons_of_mem _ member)
    rw [List.map_cons, link_cons, link_cons]
    refine (abreast_resolve injective states script first here).bind ?_
    rintro piece _ rfl
    refine (inductionHypothesis behind).bind ?_
    rintro bytes _ rfl
    exact .ok rfl

theorem abreast_entryPoint (occurs : ∀ label ∈ script.startLabel, label ∈ known) :
    Abreast Eq (entryPoint script assembly.labels)
      (entryPoint (script.relabel rename) other.labels) := by
  have starts : (script.relabel rename).startLabel = script.startLabel.map rename := rfl
  unfold entryPoint
  rw [starts]
  cases start : script.startLabel with
  | none => exact .ok rfl
  | some label => exact abreast_labelAddress injective states script (occurs label start)

end Linking

end Relabelling

/-! ### Labels are only names -/

/-- Compiled scripts that differ in the names of labels alone: the table of labels, which is not
written to a map, has other keys. -/
structure Compiled.Relabels (rename : Int → Int) (compiled other : Compiled) : Prop where
  code_eq : other.code = compiled.code
  entry_eq : other.entry = compiled.entry
  strings_eq : other.strings = compiled.strings
  attributes_eq : other.attributes = compiled.attributes
  name_eq : other.name = compiled.name
  locals_eq : other.locals = compiled.locals
  labels_eq : other.labels.entries =
    compiled.labels.entries.map fun entry => (rename entry.1, entry.2)

theorem Script.abreast_compile {rename : Int → Int} {script : Script}
    (injective : Set.InjOn rename {label | label ∈ script.labels})
    (symbols : Symbols) (locals : Option (List Int)) :
    Abreast (Compiled.Relabels rename) (script.compile symbols locals)
      ((script.relabel rename).compile symbols locals) := by
  have starts : ∀ label ∈ script.startLabel, label ∈ script.labels := fun label start =>
    List.mem_append_left _ (Option.mem_toList.mpr start)
  have empty : Assembly.Relabels rename script.labels .empty .empty :=
    ⟨rfl, rfl, fun _ member => absurd member List.not_mem_nil⟩
  refine (Assembler.relabels_block injective script.body
    (fun _ => List.mem_append_right _) 0 .empty .empty empty).bind ?_
  rintro ⟨cells, assembly⟩ ⟨others, other⟩ ⟨pieces, states⟩
  refine (abreast_link injective states script pieces).bind ?_
  rintro code _ rfl
  refine (abreast_entryPoint injective states script starts).bind ?_
  rintro entry _ rfl
  refine (Abreast.refl (fun _ => rfl) (attributeBlock symbols script.attributes)).bind ?_
  rintro attributes _ rfl
  exact .ok ⟨rfl, rfl, congrArg StringPool.all states.pool_eq, rfl, rfl, rfl, states.entries_eq⟩

/-- Labels are only names: when they are renamed, each to one of its own, a script is compiled
exactly if it was before, and to the same. -/
theorem Script.compile_relabel (symbols : Symbols) (locals : Option (List Int)) (script : Script)
    (rename : Int → Int) (injective : Set.InjOn rename {label | label ∈ script.labels}) :
    ((∃ other, (script.relabel rename).compile symbols locals = .ok other) ↔
        ∃ compiled, script.compile symbols locals = .ok compiled) ∧
      ∀ compiled other, script.compile symbols locals = .ok compiled →
        (script.relabel rename).compile symbols locals = .ok other →
        compiled.Relabels rename other := by
  have both := abreast_compile injective symbols locals
  refine ⟨both.exists_ok_iff, fun compiled other done redone => ?_⟩
  rw [done, redone] at both
  exact both.results

/-- A renaming that exchanges two labels, and gives all others the name of one of them. -/
def exchange (label : Int) : Int := if label = 16 then 32 else 16

theorem Script.compile_relabel_door :
    ∃ script compiled other, Script.parse doorSymbols doorText = .ok [script] ∧
      script.labels = [16, 16, 16, 32, 32] ∧
      Set.InjOn exchange {label | label ∈ script.labels} ∧
      script.compile doorSymbols (some [5]) = .ok compiled ∧
      (script.relabel exchange).compile doorSymbols (some [5]) = .ok other ∧
      compiled.Relabels exchange other := by
  obtain ⟨script, parsed, checked⟩ := @Script.exists_single_of_any doorSymbols doorText
    (fun script => (script.compile doorSymbols (some [5])).toOption.any (fun _ => true) &&
      decide (script.labels = [16, 16, 16, 32, 32])) (by decide +kernel)
  obtain ⟨succeeds, labels⟩ := Bool.and_eq_true_iff.mp checked
  obtain ⟨compiled, done, -⟩ := exists_ok_of_any succeeds
  have occur : script.labels = [16, 16, 16, 32, 32] := of_decide_eq_true labels
  have injective : Set.InjOn exchange {label | label ∈ script.labels} := by
    rw [occur]
    have apart : ∀ one ∈ [16, 16, 16, 32, 32], ∀ other ∈ [16, 16, 16, 32, 32],
      exchange one = exchange other → one = other := by decide
    exact fun one here other there => apart one here other there
  obtain ⟨both, same⟩ := compile_relabel doorSymbols (some [5]) script exchange injective
  obtain ⟨other, redone⟩ := both.mpr ⟨compiled, done⟩
  exact ⟨script, compiled, other, parsed, occur, injective, done, redone,
    same compiled other done redone⟩

end MapScript
