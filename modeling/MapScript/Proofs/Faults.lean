/-
This file says how reading a map can fail. Its numbers are whatever the bytes hold, and each is
compared with the size of a pool, a table or what is left of the code before it is used. So
taking a map apart fails only because data do not have their form or end too early; and a
header that it gives has as many strings, variables, bytes of code and attributes as its block
says. Writing the text of such a map fails only where a look-up misses, where the code ends too
early, or where a strict reading meets a byte that stands for nothing; each of these is reported
as such, and the cursor never leaves the code.
-/

import MapScript.Proofs.Listing.Guards
import MapScript.Proofs.Listing.MapTexts
import MapScript.Proofs.Rebuild.Histories

namespace MapScript

/-! ### Taking maps apart -/

namespace Header

theorem failsOnly_stringAt (header : Header) (pools : Pools) (index : Nat) :
    FailsOnly (fun cause => cause.isMalformed) (header.stringAt pools index) := by
  unfold stringAt
  simp only
  split
  · rfl
  · split
    · trivial
    · rfl

theorem failsOnly_stringsFrom (header : Header) (pools : Pools) (index count : Nat) :
    FailsOnly (fun cause => cause.isMalformed) (header.stringsFrom pools index count) := by
  induction count generalizing index with
  | zero => trivial
  | succ count inductionHypothesis =>
    exact (header.failsOnly_stringAt pools index).bind fun _ =>
      (inductionHypothesis (index + 1)).bind fun _ => trivial

theorem failsOnly_variablesIn (header : Header) (pools : Pools) :
    FailsOnly (fun cause => cause.isMalformed) (header.variablesIn pools) := by
  unfold variablesIn
  simp only
  split
  · trivial
  · split
    · rfl
    · trivial

theorem failsOnly_codeAt (header : Header) (pools : Pools) (cursor : Nat) :
    FailsOnly (fun cause => cause.isMalformed) (header.codeAt pools cursor) := by
  unfold codeAt
  simp only
  split
  · rfl
  · trivial

theorem failsOnly_attributesAt (pools : Pools) (place count : Nat) :
    FailsOnly (fun cause => cause.isMalformed) (attributesAt pools place count) := by
  unfold attributesAt
  split
  · trivial
  · simp only
    split
    · rfl
    · trivial

theorem failsOnly_resolveFrom (pools : Pools) (count place cursor : Nat) (blocks : List Header) :
    FailsOnly (fun cause => cause.isMalformed) (resolveFrom pools count place cursor blocks) := by
  induction blocks generalizing place cursor with
  | nil => trivial
  | cons header rest inductionHypothesis =>
    refine (header.failsOnly_stringsFrom pools _ _).bind fun _ => ?_
    refine (header.failsOnly_variablesIn pools).bind fun _ => ?_
    refine (header.failsOnly_codeAt pools cursor).bind fun _ => ?_
    refine (failsOnly_attributesAt pools place count).bind fun _ => ?_
    exact (inductionHypothesis _ _).bind fun _ => trivial

/-- A string is given only if its offset stands in the offset table and leads to a text that
ends. -/
theorem stringAt_eq_ok {header : Header} {pools : Pools} {index : Nat} {text : String}
    (found : header.stringAt pools index = .ok text) :
    header.field .stringIndex + index * 4 + 4 ≤ pools.offsets.length ∧
      0 ∈ pools.texts.drop
        (Bytes.little (Bytes.part pools.offsets (header.field .stringIndex + index * 4) 4)) := by
  unfold stringAt at found
  simp only at found
  split at found
  · cases found
  · rename_i long
    split at found
    · rename_i ends
      exact ⟨Nat.le_of_not_lt long, List.contains_iff_mem.mp ends⟩
    · cases found

theorem exists_stringAt {header : Header} {pools : Pools} {index count : Nat}
    {strings : List String} (found : header.stringsFrom pools index count = .ok strings)
    {further : Nat} (inside : further < count) :
    ∃ text, header.stringAt pools (index + further) = .ok text := by
  induction count generalizing index strings further with
  | zero => cases inside
  | succ count inductionHypothesis =>
    obtain ⟨first, firstOk, found⟩ := bind_eq_ok.mp found
    obtain ⟨rest, restOk, -⟩ := bind_eq_ok.mp found
    cases further with
    | zero => exact ⟨first, firstOk⟩
    | succ further =>
      rw [Nat.add_comm further, ← Nat.add_assoc]
      exact inductionHypothesis restOk (Nat.lt_of_succ_lt_succ inside)

/-- The numbers of a header are the lengths of its parts, and lead into the pools: each offset
stands in the offset table and leads to a text that ends, and the variables stand in the
variable pool. -/
structure Inside (pools : Pools) (header : Header) : Prop extends header.Described where
  offset_le : ∀ index < header.field .stringCount,
    header.field .stringIndex + index * 4 + 4 ≤ pools.offsets.length
  text_ends : ∀ index < header.field .stringCount, 0 ∈ pools.texts.drop
    (Bytes.little (Bytes.part pools.offsets (header.field .stringIndex + index * 4) 4))
  variables_le : header.field .variableCount = 0 ∨
    header.field .variableOffset / 4 + header.field .variableCount ≤ pools.locals.length

theorem Stored.inside {header : Header} {pools : Pools} {count place cursor : Nat}
    (stored : header.Stored pools count place cursor) : header.Inside pools := by
  have each (index : Nat) (inside : index < header.field .stringCount) :
      ∃ text, header.stringAt pools index = .ok text := by
    have found := exists_stringAt stored.strings inside
    rwa [Nat.zero_add] at found
  refine ⟨stored.described, fun index inside => ?_, fun index inside => ?_, ?_⟩
  · obtain ⟨text, found⟩ := each index inside
    exact (stringAt_eq_ok found).1
  · obtain ⟨text, found⟩ := each index inside
    exact (stringAt_eq_ok found).2
  · have found := stored.locals
    unfold variablesIn at found
    simp only at found
    split at found
    · rename_i none
      exact .inl none
    · split at found
      · cases found
      · rename_i long
        exact .inr (Nat.le_of_not_lt long)

end Header

namespace MapFile

theorem failsOnly_headerBlocks (table : Bytes) :
    FailsOnly (fun cause => cause.isMalformed) (headerBlocks table) := by
  unfold headerBlocks
  simp only
  split
  · rfl
  · split
    · rfl
    · refine FailsOnly.mapM fun place _ => ?_
      unfold Header.ofRaw
      split
      · trivial
      · rfl

theorem failsOnly_decode (data : Bytes) :
    FailsOnly (fun cause => cause.isMalformed) (decode data) := by
  have records : FailsOnly (fun cause => cause.isMalformed) (Record.readAll data) := by
    cases read : Record.readAll data with
    | ok found => trivial
    | error fault => exact Record.isMalformed_of_readFrom read
  refine records.bind fun found => ?_
  dsimp only
  split
  · rfl
  · exact (failsOnly_headerBlocks _).bind fun blocks =>
      (Header.failsOnly_resolveFrom _ _ _ _ blocks).bind fun _ => trivial

/-- A header table holds the blocks of all headers that it counts. -/
theorem length_of_headerBlocks {table : Bytes} {blocks : List Header}
    (found : headerBlocks table = .ok blocks) :
    headerTableStart + blocks.length * headerSize ≤ table.length := by
  unfold headerBlocks at found
  simp only at found
  split at found
  · cases found
  · split at found
    · cases found
    · rename_i long
      rw [length_of_mapM_ok found, List.length_range]
      exact Nat.le_of_not_lt long

/-- The numbers of a map lead to what its records hold: its header table has a block for each
header, and the numbers of each header lead into the pools. -/
structure Inside (file : MapFile) : Prop where
  table : ∃ table, Record.payload? file.records headersTag = some table ∧
    headerTableStart + file.headers.length * headerSize ≤ table.length
  headers : ∀ header ∈ file.headers, header.Inside (.ofRecords file.records)

theorem inside_of_decode {data : Bytes} {file : MapFile} (decoded : decode data = .ok file) :
    file.Inside := by
  have whole := (decode_eq_ok_iff.mp decoded).2
  refine ⟨?_, fun header member => ?_⟩
  · obtain ⟨table, blocks, found, blocksOk, raws⟩ := whole.table
    have lengths := congrArg List.length raws
    rw [List.length_map, List.length_map] at lengths
    exact ⟨table, found, lengths ▸ length_of_headerBlocks blocksOk⟩
  · obtain ⟨place, cursor, stored⟩ := whole.stored.exists_stored member
    exact stored.inside

end MapFile

/-! ### Reading code -/

/-- What stops a reading: it asks for more bytes than are left of the code, a look-up misses, or
it is strict and meets a byte that stands for nothing. -/
inductive Reading.Blames (reading : Reading) : Cause → Prop
  | truncated {offset needed available : Nat}
    (ends : offset + available = reading.program.code.length) (short : available < needed) :
    Blames reading (.truncated (.script reading.program.name) offset needed available)
  | missed {cause : Cause} (misses : reading.Misses cause) : Blames reading cause
  | unknown {kind : ByteKind} {value offset : Nat} (strict : reading.lenient = false) :
    Blames reading (.unknownByte kind value offset)

theorem Reading.Blames.isReported {reading : Reading} {cause : Cause}
    (blamed : reading.Blames cause) : cause.isReported := by
  cases blamed with
  | truncated ends short => rfl
  | missed misses => cases misses <;> rfl
  | unknown strict => rfl

/-- What is left to be read is the code from the cursor on, which stands in the code or at its
end. -/
structure Scan.Within (code : Bytes) (scan : Scan) : Prop where
  position_le : scan.position ≤ code.length
  rest_eq : scan.rest = code.drop scan.position

theorem Scan.Within.length_rest {code : Bytes} {scan : Scan} (within : scan.Within code) :
    scan.position + scan.rest.length = code.length := by
  rw [within.rest_eq, List.length_drop]
  exact Nat.add_sub_cancel' within.position_le

namespace Decoder

variable {α β : Type} {reading : Reading}

/-- Reading stays within the code, and stops only for what it can be blamed on. -/
def Guarded (reading : Reading) (decoder : Decoder α) : Prop :=
  ∀ scan, scan.Within reading.program.code →
    (decoder.result scan).2.Within reading.program.code ∧
      FailsOnly reading.Blames (decoder.result scan).1

theorem guarded_bind {decoder : Decoder α} {next : α → Decoder β}
    (first : Guarded reading decoder) (rest : ∀ value, Guarded reading (next value)) :
    Guarded reading (decoder >>= next) := by
  intro scan within
  obtain ⟨kept, fails⟩ := first scan within
  cases ended : decoder.result scan with
  | mk attempt middle =>
    rw [ended] at kept fails
    cases attempt with
    | error fault =>
      rw [result_bind_error ended]
      exact ⟨kept, fails⟩
    | ok value =>
      rw [result_bind ended]
      exact rest value middle kept

/-- A step that takes no byte and does not stop. -/
theorem guarded_quiet {decoder : Decoder α} (quiet : ∀ scan, ∃ value next,
      decoder.result scan = (.ok value, next) ∧ next.rest = scan.rest ∧
        next.position = scan.position) : Guarded reading decoder := by
  intro scan within
  obtain ⟨value, next, ended, rest, position⟩ := quiet scan
  rw [ended]
  refine ⟨⟨?_, ?_⟩, trivial⟩
  · rw [position]
    exact within.position_le
  · rw [rest, position]
    exact within.rest_eq

theorem guarded_lift {attempt : Except Fault α} (fails : FailsOnly reading.Misses attempt) :
    Guarded reading (lift attempt) :=
  fun _ within => ⟨within, fails.imp fun _ => .missed⟩

theorem guarded_take (size : Nat) : Guarded reading (take reading size) := by
  intro scan within
  have length := within.length_rest
  rw [result_take]
  split
  · rename_i enough
    refine ⟨⟨?_, ?_⟩, trivial⟩
    · show scan.position + size ≤ reading.program.code.length
      omega
    · show scan.rest.drop size = reading.program.code.drop (scan.position + size)
      rw [within.rest_eq, List.drop_drop]
  · rename_i short
    exact ⟨within, .truncated length (Nat.lt_of_not_le short)⟩

theorem guarded_changeLine (change : ListedLine → ListedLine) :
    Guarded reading (changeLine change) :=
  guarded_quiet fun scan => ⟨_, _, result_changeLine change scan, rfl, rfl⟩

theorem guarded_note (text : Option String) : Guarded reading (note text) :=
  guarded_quiet fun scan => ⟨_, _, result_note text scan, rfl, rfl⟩

theorem guarded_unknown (kind : ByteKind) (value : UInt8) (offset : Nat) :
    Guarded reading (unknown reading kind value offset) := by
  unfold unknown
  split
  · exact guarded_quiet fun _ => ⟨_, _, rfl, rfl, rfl⟩
  · rename_i strict
    exact fun _ within => ⟨within, .unknown (Bool.eq_false_iff.mpr strict)⟩

theorem relates_guarded (reading : Reading) :
    RelatesLines reading reading fun _ decoder _ => Guarded reading decoder where
  agrees := ⟨rfl, rfl⟩
  pure _ := guarded_quiet fun _ => ⟨_, _, rfl, rfl, rfl⟩
  bind := guarded_bind
  lift := guarded_lift
  take := guarded_take
  position := guarded_quiet fun _ => ⟨_, _, rfl, rfl, rfl⟩
  emit _ := guarded_changeLine _
  emitLabel _ := guarded_bind (guarded_quiet fun _ => ⟨_, _, rfl, rfl, rfl⟩) fun _ =>
    guarded_changeLine _
  unknown := guarded_unknown
  subtitle _ := guarded_note _
  flagComment _ _ := guarded_note _
  beginLine := guarded_quiet fun _ => ⟨_, _, rfl, rfl, rfl⟩
  deepen := guarded_quiet fun _ => ⟨_, _, rfl, rfl, rfl⟩
  surface := guarded_quiet fun _ => ⟨_, _, rfl, rfl, rfl⟩
  markEmpty := guarded_changeLine _

end Decoder

/-! ### Texts -/

theorem Program.failsOnly_text (program : Program) (symbols : Symbols) (lenient : Bool) :
    FailsOnly (Reading.Blames ⟨program, symbols, lenient⟩)
      (program.text symbols lenient).outcome.1 := by
  have start : (Scan.start program.code).Within program.code := ⟨Nat.zero_le _, rfl⟩
  have guarded := ((Decoder.relates_guarded ⟨program, symbols, lenient⟩).script _ start).2
  rw [fst_outcome_text, fst_outcome_listing]
  exact (guarded.map _).map _

/-- A script that is listed was read to the end of its code. -/
theorem Program.cursor_eq_of_listing (program : Program) {symbols : Symbols} {lenient : Bool}
    {listing : Listing} (listed : (program.listing symbols lenient).outcome.1 = .ok listing) :
    listing.cursor = program.code.length := by
  obtain ⟨scan, ended, rfl⟩ := exists_scan_of_listing listed
  exact (Decoder.guardsClose_script ended).1

/-- What stops the writing of a header: its script cannot be read, or one of its attributes has
no name. -/
inductive Header.Blames (header : Header) (symbols : Symbols) (lenient : Bool) : Cause → Prop
  | script {cause : Cause} (blamed : Reading.Blames ⟨header.program, symbols, lenient⟩ cause) :
    Blames header symbols lenient cause
  | nameless {place : Nat} {value : Int} (member : (place, value) ∈ header.attributeValues)
    (outside : symbols.attributes.length ≤ place) :
    Blames header symbols lenient (.unknownId .attributeIndex place)

theorem Header.Blames.isReported {header : Header} {symbols : Symbols} {lenient : Bool}
    {cause : Cause} (blamed : header.Blames symbols lenient cause) : cause.isReported := by
  cases blamed with
  | script blamed => exact blamed.isReported
  | nameless member outside => rfl

theorem Header.failsOnly_text (header : Header) (symbols : Symbols) (lenient : Bool) :
    FailsOnly (header.Blames symbols lenient) (header.text symbols lenient).outcome.1 := by
  rw [(header.gives_text symbols lenient).outcome]
  have named : FailsOnly (header.Blames symbols lenient)
      (attributesText symbols header.attributeValues) := by
    refine FailsOnly.bind (FailsOnly.mapM fun value member => ?_) fun _ => trivial
    refine FailsOnly.bind ?_ fun _ => trivial
    unfold Symbols.attributeName
    split
    · trivial
    · rename_i none
      exact .nameless member (length_le_of_entryAt none)
  exact named.bind fun _ =>
    ((header.program.failsOnly_text symbols lenient).imp fun _ => .script).bind fun _ => trivial

theorem MapFile.failsOnly_text (file : MapFile) (symbols : Symbols) (name : Option String)
    (ids : List Int) (lenient : Bool) :
    FailsOnly (fun cause => ∃ header ∈ file.headers, header.Blames symbols lenient cause)
      (file.text symbols name ids lenient).outcome.1 := by
  obtain ⟨front, -, gives⟩ := file.gives_parts symbols name ids lenient
  rw [gives.outcome]
  refine FailsOnly.bind (FailsOnly.mapM fun header member => ?_) fun _ => trivial
  exact (header.failsOnly_text symbols lenient).imp fun _ blamed => ⟨header, member, blamed⟩

end MapScript
