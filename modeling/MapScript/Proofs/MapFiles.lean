/-
This file says what it means that a map was taken apart: each header is stored in
the pools, at its place of the table and of the code pool, and the blocks of the
headers are those of the header table. What a header is given depends on its block
alone, so a table of blocks resolves to given headers exactly if these have the
same blocks and are stored.
-/

import MapScript.Container.MapFile
import MapScript.Proofs.Headers
import MapScript.Proofs.Records

namespace MapScript

namespace Header

/-! ### Stored headers -/

/-- The parts of a header are those that the pools hold for it, when it stands at a
place of a table of so many headers and at a place of the code pool. -/
structure Stored (pools : Pools) (count place cursor : Nat) (header : Header) : Prop where
  strings : header.stringsFrom pools 0 (header.field .stringCount) = .ok header.strings
  locals : header.variablesIn pools = .ok header.locals
  code : header.codeAt pools cursor = .ok header.code
  attributes : attributesAt pools place count = .ok header.attributes

theorem length_of_attributesAt {pools : Pools} {place count : Nat} {attributes : Bytes}
    (found : attributesAt pools place count = .ok attributes) :
    attributes.length = attributeBlockSize := by
  unfold attributesAt at found
  split at found
  · cases found
    exact List.length_replicate
  · simp only at found
    split at found
    · cases found
    · cases found
      rw [Bytes.length_part]
      omega

/-- The headers of a table are stored one after the other. -/
def StoredFrom (pools : Pools) (count : Nat) : (place cursor : Nat) → List Header → Prop
  | _, _, [] => True
  | place, cursor, header :: rest =>
    header.Stored pools count place cursor ∧
      StoredFrom pools count (place + 1) (cursor + header.field .codeLength) rest

/-! ### What a block decides -/

section SameBlock

variable {first second : Header} (same : first.raw = second.raw)
include same

theorem field_congr (field : HeaderField) : first.field field = second.field field := by
  rw [Header.field, Header.field, same]

theorem name_congr : first.name = second.name := by
  rw [name, name, same]

theorem stringAt_congr (pools : Pools) (index : Nat) :
    first.stringAt pools index = second.stringAt pools index := by
  simp only [stringAt, field_congr same, name_congr same]

theorem stringsFrom_congr (pools : Pools) (index count : Nat) :
    first.stringsFrom pools index count = second.stringsFrom pools index count := by
  induction count generalizing index with
  | zero => rfl
  | succ count inductionHypothesis =>
    rw [stringsFrom, stringsFrom, stringAt_congr same, inductionHypothesis]

theorem variablesIn_congr (pools : Pools) : first.variablesIn pools = second.variablesIn pools := by
  simp only [variablesIn, field_congr same, name_congr same]

theorem codeAt_congr (pools : Pools) (cursor : Nat) :
    first.codeAt pools cursor = second.codeAt pools cursor := by
  simp only [codeAt, field_congr same, name_congr same]

/-- Headers with one block and the same parts are the same. -/
theorem ext_parts (strings : first.strings = second.strings) (locals : first.locals = second.locals)
    (attributes : first.attributes = second.attributes) (code : first.code = second.code) :
    first = second := by
  cases first
  cases second
  cases same
  cases strings
  cases locals
  cases attributes
  cases code
  rfl

end SameBlock

/-! ### Resolution -/

/-- Blocks resolve to headers exactly if the headers have these blocks and are
stored. -/
theorem resolveFrom_eq_ok_iff {pools : Pools} {count place cursor : Nat}
    {blocks headers : List Header} :
    resolveFrom pools count place cursor blocks = .ok headers ↔
      blocks.map raw = headers.map raw ∧ StoredFrom pools count place cursor headers := by
  induction blocks generalizing place cursor headers with
  | nil =>
    constructor
    · intro resolved
      cases resolved
      exact ⟨rfl, trivial⟩
    · rintro ⟨raws, -⟩
      cases headers with
      | nil => rfl
      | cons header rest => cases raws
  | cons block rest inductionHypothesis =>
    constructor
    · intro resolved
      simp only [resolveFrom, bind_eq_ok] at resolved
      obtain ⟨strings, stringsOk, locals, localsOk, code, codeOk, attributes, attributesOk, others,
        othersOk, whole⟩ := resolved
      cases whole
      obtain ⟨raws, stored⟩ := inductionHypothesis.mp othersOk
      have same : raw { block with strings, locals, attributes, code } = block.raw := rfl
      refine ⟨by rw [List.map_cons, List.map_cons, raws], ⟨?_, ?_, ?_, attributesOk⟩, stored⟩
      · rw [← stringsOk]
        exact stringsFrom_congr same _ _ _
      · rw [← localsOk]
        exact variablesIn_congr same _
      · rw [← codeOk]
        exact codeAt_congr same _ _
    · rintro ⟨raws, stored⟩
      cases headers with
      | nil => cases raws
      | cons header others =>
        rw [List.map_cons, List.map_cons, List.cons.injEq] at raws
        obtain ⟨same, raws⟩ := raws
        obtain ⟨first, stored⟩ := stored
        have rest := inductionHypothesis.mpr ⟨raws, stored⟩
        simp only [resolveFrom, bind_eq_ok]
        refine ⟨header.strings, ?_, header.locals, ?_, header.code, ?_, header.attributes,
          first.attributes, others, ?_, ?_⟩
        · rw [field_congr same, stringsFrom_congr same, first.strings]
        · rw [variablesIn_congr same, first.locals]
        · rw [codeAt_congr same, first.code]
        · rw [field_congr same, rest]
        · exact congrArg (fun found => Except.ok (found :: others))
            (ext_parts same rfl rfl rfl rfl)

/-- Each stored header is stored somewhere. -/
theorem StoredFrom.exists_stored {pools : Pools} {count place cursor : Nat}
    {headers : List Header} (stored : StoredFrom pools count place cursor headers)
    {header : Header} (member : header ∈ headers) :
    ∃ place cursor, header.Stored pools count place cursor := by
  induction headers generalizing place cursor with
  | nil => cases member
  | cons first rest inductionHypothesis =>
    rcases List.mem_cons.mp member with rfl | inRest
    · exact ⟨place, cursor, stored.1⟩
    · exact inductionHypothesis stored.2 inRest

/-- Headers that are stored in some pools are stored in others, if each of them is. -/
theorem StoredFrom.imp {pools others : Pools} {count : Nat} {headers : List Header}
    (each : ∀ header ∈ headers, ∀ place cursor, header.Stored pools count place cursor →
      header.Stored others count place cursor)
    {place cursor : Nat} (stored : StoredFrom pools count place cursor headers) :
    StoredFrom others count place cursor headers := by
  induction headers generalizing place cursor with
  | nil => trivial
  | cons first rest inductionHypothesis =>
    refine ⟨each first List.mem_cons_self place cursor stored.1, ?_⟩
    exact inductionHypothesis (fun header member => each header (List.mem_cons_of_mem _ member))
      stored.2

theorem stringsFrom_pools_congr {pools others : Pools} (texts : pools.texts = others.texts)
    (offsets : pools.offsets = others.offsets) (header : Header) (index count : Nat) :
    header.stringsFrom pools index count = header.stringsFrom others index count := by
  induction count generalizing index with
  | zero => rfl
  | succ count inductionHypothesis =>
    rw [stringsFrom, stringsFrom, stringAt, stringAt, texts, offsets, inductionHypothesis]

/-- A header that has strings is stored only where there are offsets and texts. -/
theorem Stored.pools_of_strings {pools : Pools} {count place cursor : Nat} {header : Header}
    (stored : header.Stored pools count place cursor) (some : 0 < header.field .stringCount) :
    pools.offsets ≠ [] ∧ pools.texts ≠ [] := by
  have found := stored.strings
  obtain ⟨fewer, many⟩ := Nat.exists_eq_succ_of_ne_zero (Nat.pos_iff_ne_zero.mp some)
  rw [many, stringsFrom] at found
  obtain ⟨text, first, -⟩ := bind_eq_ok.mp found
  unfold stringAt at first
  simp only at first
  split at first
  · cases first
  · rename_i long
    split at first
    · rename_i closed
      constructor
      · intro empty
        rw [empty] at long
        exact long (Nat.succ_pos _)
      · intro empty
        rw [empty, List.drop_nil] at closed
        cases closed
    · cases first

/-- A header that has variables is stored only where there are variables. -/
theorem Stored.pools_of_locals {pools : Pools} {count place cursor : Nat} {header : Header}
    (stored : header.Stored pools count place cursor) (some : header.locals ≠ []) :
    pools.locals ≠ [] := by
  have found := stored.locals
  intro empty
  unfold variablesIn at found
  simp only [empty] at found
  split at found
  · exact some (Except.ok.inj found).symm
  · split at found
    · cases found
    · rw [List.drop_nil, List.take_nil] at found
      exact some (Except.ok.inj found).symm

/-- Code is stored only as far as the code pool reaches. -/
theorem Stored.code_le {pools : Pools} {count place cursor : Nat} {header : Header}
    (stored : header.Stored pools count place cursor) :
    cursor + header.field .codeLength ≤ pools.code.length := by
  have found := stored.code
  unfold codeAt at found
  simp only at found
  split at found
  · cases found
  · omega

/-- A header that is stored has as many variables as its block says. -/
theorem Stored.length_locals {pools : Pools} {count place cursor : Nat} {header : Header}
    (stored : header.Stored pools count place cursor) :
    header.locals.length = header.field .variableCount := by
  have found := stored.locals
  unfold variablesIn at found
  simp only at found
  split at found
  · rename_i none
    rw [← Except.ok.inj found, none]
    rfl
  · split at found
    · cases found
    · rw [← Except.ok.inj found, List.length_take, List.length_drop]
      omega

end Header

/-! ### Header tables -/

namespace MapFile

theorem exists_mapM_ok {α β γ : Type} {attempt : α → Except Fault β} {view : β → γ} {seen : α → γ}
    (list : List α) (each : ∀ entry ∈ list, ∃ value, attempt entry = .ok value ∧
      view value = seen entry) :
    ∃ values, list.mapM attempt = .ok values ∧ values.map view = list.map seen := by
  induction list with
  | nil => exact ⟨[], rfl, rfl⟩
  | cons first rest inductionHypothesis =>
    obtain ⟨value, firstOk, firstSeen⟩ := each first List.mem_cons_self
    obtain ⟨others, restOk, restSeen⟩ :=
      inductionHypothesis fun entry member => each entry (List.mem_cons_of_mem _ member)
    exact ⟨value :: others, mapM_cons_eq_ok.mpr ⟨value, others, firstOk, restOk, rfl⟩,
      by rw [List.map_cons, List.map_cons, firstSeen, restSeen]⟩

/-- The part of blocks of one size that holds the block at a place. -/
theorem part_flatten {size : Nat} {blocks : List Bytes} (sizes : ∀ block ∈ blocks, block.length = size)
    {place : Nat} (inside : place < blocks.length) :
    Bytes.part blocks.flatten (place * size) size = blocks[place] := by
  induction blocks generalizing place with
  | nil => cases inside
  | cons block rest inductionHypothesis =>
    have length := sizes block List.mem_cons_self
    cases place with
    | zero =>
      rw [List.flatten_cons, Nat.zero_mul, Bytes.part_append_left _ _ _ _ (by omega), Bytes.part,
        List.drop_zero, ← length, List.take_length]
      rfl
    | succ place =>
      have shorter : place < rest.length := by
        rw [List.length_cons] at inside
        omega
      rw [List.flatten_cons, Bytes.part_append_right _ _ _ _ (by rw [length, Nat.succ_mul]; omega),
        length, Nat.succ_mul, Nat.add_sub_cancel, List.getElem_cons_succ]
      exact inductionHypothesis (fun other member => sizes other (List.mem_cons_of_mem _ member))
        shorter

theorem length_flatten_of_sizes (size : Nat) {blocks : List Bytes}
    (sizes : ∀ block ∈ blocks, block.length = size) :
    blocks.flatten.length = blocks.length * size := by
  induction blocks with
  | nil => rw [List.flatten_nil, List.length_nil, List.length_nil, Nat.zero_mul]
  | cons block rest inductionHypothesis =>
    rw [List.flatten_cons, List.length_append, sizes block List.mem_cons_self,
      inductionHypothesis fun other member => sizes other (List.mem_cons_of_mem _ member),
      List.length_cons, Nat.succ_mul, Nat.add_comm]

/-- A header table that was put together is taken apart into its blocks. -/
theorem headerBlocks_of_table {mark : Bytes} {raws : List Bytes} (markLength : mark.length = 4)
    (sizes : ∀ raw ∈ raws, raw.length = headerSize) (fits : raws.length < Bytes.range 4) :
    ∃ blocks, headerBlocks (Bytes.ofNatLittle 4 raws.length ++ mark ++ raws.flatten) = .ok blocks ∧
      blocks.map Header.raw = raws := by
  have front : (Bytes.ofNatLittle 4 raws.length ++ mark).length = headerTableStart := by
    rw [List.length_append, Bytes.length_ofNatLittle, markLength]
    rfl
  have whole : (Bytes.ofNatLittle 4 raws.length ++ mark ++ raws.flatten).length =
      headerTableStart + raws.length * headerSize := by
    rw [List.length_append, front, length_flatten_of_sizes _ sizes]
  have count : Bytes.little ((Bytes.ofNatLittle 4 raws.length ++ mark ++ raws.flatten).take 4) =
      raws.length := by
    rw [List.append_assoc, List.take_left' (Bytes.length_ofNatLittle 4 _),
      Bytes.little_ofNatLittle fits]
  have block (place : Nat) (inside : place < raws.length) :
      Bytes.part (Bytes.ofNatLittle 4 raws.length ++ mark ++ raws.flatten)
        (headerTableStart + place * headerSize) headerSize = raws[place] := by
    rw [Bytes.part_append_right _ _ _ _ (by omega), front, Nat.add_sub_cancel_left,
      part_flatten sizes inside]
  have each : ∀ place ∈ List.range raws.length, ∃ header,
      Header.ofRaw (Bytes.part (Bytes.ofNatLittle 4 raws.length ++ mark ++ raws.flatten)
        (headerTableStart + place * headerSize) headerSize) = .ok header ∧
      header.raw = raws[place]?.getD [] := by
    intro place member
    have inside := List.mem_range.mp member
    have size := sizes raws[place] (List.getElem_mem inside)
    rw [block place inside, Header.ofRaw, dif_pos size]
    exact ⟨_, rfl, by rw [List.getElem?_eq_getElem inside]; rfl⟩
  obtain ⟨blocks, found, seen⟩ := exists_mapM_ok (List.range raws.length) each
  refine ⟨blocks, ?_, ?_⟩
  · unfold headerBlocks
    rw [if_neg (by omega), count, whole]
    simp only [Nat.lt_irrefl, if_false, found]
  · rw [seen]
    apply List.ext_getElem
    · rw [List.length_map, List.length_range]
    · intro place first second
      rw [List.getElem_map, List.getElem_range, List.getElem?_eq_getElem second]
      rfl

/-- A header table has at least its first eight bytes, and fewer blocks than its
count can say. -/
theorem headerBlocks_bounds {table : Bytes} {blocks : List Header}
    (found : headerBlocks table = .ok blocks) :
    headerTableStart ≤ table.length ∧ blocks.length < Bytes.range 4 := by
  unfold headerBlocks at found
  split at found
  · cases found
  · rename_i long
    simp only at found
    split at found
    · cases found
    · have length := length_of_mapM_ok found
      have four : (table.take 4).length = 4 := by
        rw [List.length_take]
        simp only [headerTableStart] at long
        omega
      have count := Bytes.little_lt_range (table.take 4)
      rw [four] at count
      rw [List.length_range] at length
      omega

/-! ### Decoding -/

/-- What a decoded map is: its records were read, its header table is one of them,
and its headers are stored in the pools. -/
structure Decoded (file : MapFile) : Prop where
  tagged : ∀ record ∈ file.records, record.Tagged
  table : ∃ table blocks, Record.payload? file.records headersTag = some table ∧
    headerBlocks table = .ok blocks ∧ blocks.map Header.raw = file.headers.map Header.raw
  stored : Header.StoredFrom (.ofRecords file.records) file.headers.length 0 (codeBase file.headers)
    file.headers

theorem codeBase_congr {first second : List Header}
    (same : first.map Header.raw = second.map Header.raw) : codeBase first = codeBase second := by
  cases first with
  | nil =>
    cases second with
    | nil => rfl
    | cons header rest => cases same
  | cons header rest =>
    cases second with
    | nil => cases same
    | cons other others =>
      rw [List.map_cons, List.map_cons, List.cons.injEq] at same
      exact Header.field_congr same.1 .codeOffset

/-- Decoding succeeds with a map exactly if the bytes hold its records and the map is
what these stand for. -/
theorem decode_eq_ok_iff {data : Bytes} {file : MapFile} :
    decode data = .ok file ↔
      Record.readAll data = .ok (file.records, file.trailer) ∧ file.Decoded := by
  constructor
  · intro decoded
    obtain ⟨⟨records, trailer⟩, read, decoded⟩ := bind_eq_ok.mp decoded
    simp only at decoded
    split at decoded
    · cases decoded
    · rename_i table found
      obtain ⟨blocks, blocksOk, decoded⟩ := bind_eq_ok.mp decoded
      obtain ⟨headers, resolved, decoded⟩ := bind_eq_ok.mp decoded
      cases decoded
      obtain ⟨raws, stored⟩ := Header.resolveFrom_eq_ok_iff.mp resolved
      refine ⟨read, Record.tagged_of_readFrom read, ⟨table, blocks, found, blocksOk, raws⟩, ?_⟩
      have length : blocks.length = headers.length := by
        rw [← List.length_map (f := Header.raw), raws, List.length_map]
      rw [length, codeBase_congr raws] at stored
      exact stored
  · rintro ⟨read, tagged, ⟨table, blocks, found, blocksOk, raws⟩, stored⟩
    have length : blocks.length = file.headers.length := by
      rw [← List.length_map (f := Header.raw), raws, List.length_map]
    rw [← length, ← codeBase_congr raws] at stored
    have resolved := Header.resolveFrom_eq_ok_iff.mpr ⟨raws, stored⟩
    refine bind_eq_ok.mpr ⟨(file.records, file.trailer), read, ?_⟩
    simp only [found]
    exact bind_eq_ok.mpr ⟨blocks, blocksOk, bind_eq_ok.mpr ⟨file.headers, resolved, rfl⟩⟩

end MapFile

end MapScript
