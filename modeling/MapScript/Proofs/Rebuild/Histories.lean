/-
This file follows a map through its whole life: it is read from bytes, then rebuilt
from compiled scripts, rebuilt from a script text or written and read again, any
number of times and in any order. What a header says of itself is kept three times,
as numbers in its block, as the parts it carries and as a stretch of the header
table. The three agree in every map that can be reached.
-/

import MapScript.Code.Compile
import MapScript.Proofs.RecordStreams
import MapScript.Proofs.Rebuild.Reload

namespace MapScript

/-! ### Lengths of stored parts -/

namespace Header

theorem length_of_stringsFrom {header : Header} {pools : Pools} {index count : Nat}
    {strings : List String} (found : header.stringsFrom pools index count = .ok strings) :
    strings.length = count := by
  induction count generalizing index strings with
  | zero =>
    cases found
    rfl
  | succ count inductionHypothesis =>
    obtain ⟨first, -, found⟩ := bind_eq_ok.mp found
    obtain ⟨rest, others, found⟩ := bind_eq_ok.mp found
    cases found
    rw [List.length_cons, inductionHypothesis others]

theorem length_of_codeAt {header : Header} {pools : Pools} {cursor : Nat} {code : Bytes}
    (found : header.codeAt pools cursor = .ok code) : code.length = header.field .codeLength := by
  unfold codeAt at found
  simp only at found
  split at found
  · cases found
  · cases found
    rw [Bytes.length_part]
    omega

/-- The numbers in the block of a header are the lengths of the parts that it
carries. -/
structure Described (header : Header) : Prop where
  code : header.code.length = header.field .codeLength
  strings : header.strings.length = header.field .stringCount
  locals : header.locals.length = header.field .variableCount
  attributes : header.attributes.length = attributeBlockSize

theorem Stored.described {pools : Pools} {count place cursor : Nat} {header : Header}
    (stored : header.Stored pools count place cursor) : header.Described :=
  ⟨length_of_codeAt stored.code, length_of_stringsFrom stored.strings, stored.length_locals,
    length_of_attributesAt stored.attributes⟩

theorem raw_of_ofRaw {raw : Bytes} {header : Header} (read : ofRaw raw = .ok header) :
    header.raw = raw := by
  unfold ofRaw at read
  split at read
  · cases read
    rfl
  · cases read

end Header

/-- A header that took over a script is described by its block, if the one before it
was: a rebuild changes the values of variables but not their number. -/
theorem Rebuild.Carries.described {old new : Header} {compiled : Compiled}
    (carries : Carries old new compiled) (described : old.Described) : new.Described where
  code := by rw [carries.code, carries.codeLength]
  strings := by rw [carries.strings, carries.stringCount]
  locals := by rw [carries.locals, described.locals, carries.variableCount]
  attributes := by rw [carries.attributes, carries.attributeSize]

/-- A run adds one header for each pair, whatever the strings and the instance counts
are. -/
theorem Rebuild.run_carries {base : Nat} {pairs : List (Header × Compiled)}
    {state final : Rebuild} (run : pairs.foldlM (add base) state = .ok final) :
    ∃ new, final.headers = state.headers ++ new ∧ CarriesAll pairs new := by
  induction pairs generalizing state with
  | nil =>
    cases run
    exact ⟨[], (List.append_nil _).symm, .nil⟩
  | cons pair rest inductionHypothesis =>
    rw [List.foldlM_cons] at run
    obtain ⟨next, step, run⟩ := bind_eq_ok.mp run
    obtain ⟨new, filled, block, added⟩ := add_eq_ok step
    obtain ⟨others, headers, carried⟩ := inductionHypothesis run
    refine ⟨new :: others, ?_, .cons added.carries carried⟩
    rw [headers, added.next_eq, List.append_assoc, List.singleton_append]

/-! ### Header tables -/

namespace MapFile

/-- Blocks of one size that follow each other make up one part. -/
theorem flatten_parts (bytes : Bytes) (start size count : Nat) :
    ((List.range count).map fun place => Bytes.part bytes (start + place * size) size).flatten =
      Bytes.part bytes start (count * size) := by
  induction count with
  | zero =>
    rw [Nat.zero_mul]
    rfl
  | succ count inductionHypothesis =>
    rw [List.range_succ, List.map_append, List.flatten_append, inductionHypothesis,
      List.map_singleton, List.flatten_singleton, Nat.succ_mul]
    simp only [Bytes.part, List.take_add, List.drop_drop]

/-- A table that says how many headers there are and, behind four more bytes, holds their
blocks; what follows the last block does not matter. -/
structure TableOf (headers : List Header) (table : Bytes) : Prop where
  counted : headers.length < Bytes.range 4
  laidOut : ∃ mark rest, mark.length = 4 ∧
    table = Bytes.ofNatLittle 4 headers.length ++ mark ++ (headers.map Header.raw).flatten ++ rest

theorem TableOf.congr {first second : List Header} {table : Bytes} (holds : TableOf first table)
    (same : first.map Header.raw = second.map Header.raw) : TableOf second table := by
  have lengths := congrArg List.length same
  rw [List.length_map, List.length_map] at lengths
  exact ⟨lengths ▸ holds.counted, lengths ▸ same ▸ holds.laidOut⟩

theorem map_raw_of_mapM {cut : Nat → Bytes} {places : List Nat} {blocks : List Header}
    (found : places.mapM (fun place => Header.ofRaw (cut place)) = .ok blocks) :
    blocks.map Header.raw = places.map cut := by
  induction places generalizing blocks with
  | nil =>
    cases found
    rfl
  | cons place rest inductionHypothesis =>
    obtain ⟨block, others, blockOk, othersOk, rfl⟩ := mapM_cons_eq_ok.mp found
    rw [List.map_cons, List.map_cons, Header.raw_of_ofRaw blockOk, inductionHypothesis othersOk]

/-- A table that is taken apart is the table of the blocks that were found. -/
theorem tableOf_headerBlocks {table : Bytes} {blocks : List Header}
    (found : headerBlocks table = .ok blocks) : TableOf blocks table := by
  obtain ⟨long, counted⟩ := headerBlocks_bounds found
  refine ⟨counted, Bytes.part table 4 4, ?_⟩
  simp only [headerTableStart] at long
  have four : (table.take 4).length = 4 := by
    rw [List.length_take]
    omega
  unfold headerBlocks at found
  rw [if_neg (by simp only [headerTableStart]; omega)] at found
  simp only at found
  split at found
  · cases found
  · have count : Bytes.little (table.take 4) = blocks.length := by
      rw [length_of_mapM_ok found, List.length_range]
    have raws : (blocks.map Header.raw).flatten <+: table.drop headerTableStart := by
      rw [map_raw_of_mapM found, flatten_parts]
      exact List.take_prefix _ _
    obtain ⟨rest, behind⟩ := raws
    refine ⟨rest, ?_, ?_⟩
    · rw [Bytes.length_part]
      omega
    · have entry : Bytes.ofNatLittle 4 blocks.length = table.take 4 := by
        have back := Bytes.ofNatLittle_little (table.take 4)
        rwa [four, count] at back
      rw [entry, List.append_assoc, behind, Bytes.part, List.append_assoc, headerTableStart,
        ← List.drop_drop (i := 4) (j := 4), List.take_append_drop, List.take_append_drop]

/-! ### Consistent maps -/

/-- The blocks of a map describe the parts that its headers carry, and the first header
table among its records is the table of these blocks. -/
structure Consistent (file : MapFile) : Prop where
  described : ∀ header ∈ file.headers, header.Described
  table : ∃ table, Record.payload? file.records headersTag = some table ∧
    TableOf file.headers table

theorem Decoded.consistent {file : MapFile} (decoded : file.Decoded) : file.Consistent := by
  obtain ⟨table, blocks, found, blocksOk, raws⟩ := decoded.table
  refine ⟨?_, table, found, (tableOf_headerBlocks blocksOk).congr raws⟩
  intro header member
  obtain ⟨place, cursor, stored⟩ := decoded.stored.exists_stored member
  exact stored.described

/-- The four bytes behind the count of a table are there. -/
theorem TableOf.length_mark {headers : List Header} {table : Bytes}
    (holds : TableOf headers table) : (Bytes.part table 4 4).length = 4 := by
  obtain ⟨mark, rest, four, rfl⟩ := holds.laidOut
  simp only [Bytes.length_part, List.length_append, Bytes.length_ofNatLittle]
  omega

/-- A rebuild keeps a map consistent: it has as many headers as before, each described
by its new block, and the table is written from these blocks. -/
theorem Consistent.withCompiled {file rebuilt : MapFile} {compiled : List Compiled}
    (consistent : file.Consistent) (built : file.withCompiled compiled = .ok rebuilt) :
    rebuilt.Consistent := by
  obtain ⟨state, builtBy⟩ := withCompiled_eq_ok built
  obtain ⟨new, headers, carried⟩ := Rebuild.run_carries builtBy.run
  have newHeaders : rebuilt.headers = new := by
    rw [builtBy.headers, headers]
    rfl
  have count : rebuilt.headers.length = file.headers.length := by
    rw [newHeaders, carried.length_eq, List.length_zip, builtBy.lengths, Nat.min_self]
  obtain ⟨table, found, holds⟩ := consistent.table
  have mark : (tableMark file).length = 4 := by
    rw [tableMark, found]
    exact holds.length_mark
  refine ⟨?_, _, builtBy.headerTable found, count ▸ holds.counted, tableMark file, [], mark,
    (List.append_nil _).symm⟩
  intro header member
  rw [newHeaders] at member
  obtain ⟨pair, paired, carries⟩ := carried.exists_pair member
  exact carries.described (consistent.described pair.1 (List.of_mem_zip paired).1)

/-! ### Histories -/

/-- What can be done with a map: put compiled scripts into it, compile a text into it, or
write it and read it again. -/
inductive Step : MapFile → MapFile → Prop where
  | withCompiled {file next : MapFile} (compiled : List Compiled)
      (built : file.withCompiled compiled = .ok next) : Step file next
  | compile {file next : MapFile} (symbols : Symbols) (text : List Char)
      (built : file.compile symbols text = .ok next) : Step file next
  | reload {file next : MapFile} (bytes : Bytes) (written : file.encode = .ok bytes)
      (read : decode bytes = .ok next) : Step file next

/-- The maps that a finite number of steps leads to from one that was read. -/
inductive Reachable : MapFile → Prop where
  | decoded {file : MapFile} (data : Bytes) (read : decode data = .ok file) : Reachable file
  | step {file next : MapFile} (reachable : Reachable file) (step : Step file next) :
      Reachable next

theorem consistent_of_decode {data : Bytes} {file : MapFile} (read : decode data = .ok file) :
    file.Consistent :=
  (decode_eq_ok_iff.mp read).2.consistent

/-- Every step keeps a map consistent. -/
theorem Consistent.step {file next : MapFile} (consistent : file.Consistent)
    (step : Step file next) : next.Consistent := by
  cases step with
  | withCompiled compiled built => exact consistent.withCompiled built
  | compile symbols text built =>
    obtain ⟨compiled, -, built⟩ := bind_eq_ok.mp built
    exact consistent.withCompiled built
  | reload bytes written read => exact consistent_of_decode read

theorem Reachable.consistent {file : MapFile} (reachable : file.Reachable) : file.Consistent := by
  induction reachable with
  | decoded data read => exact consistent_of_decode read
  | step _ step inductionHypothesis => exact inductionHypothesis.step step

/-- In every map that can be reached, the fields of the headers describe the parts they
carry, and the first header table holds the number of headers and, from its ninth byte on,
their blocks in order. -/
theorem headers_described_of_reachable {file : MapFile} (reachable : file.Reachable) :
    (∀ header ∈ file.headers,
      header.code.length = header.field .codeLength ∧
        header.strings.length = header.field .stringCount ∧
        header.locals.length = header.field .variableCount ∧ header.attributes.length = 256 ∧
        header.raw.length = 165) ∧
      file.headers.length < 0x100000000 ∧
      ∃ mark rest, mark.length = 4 ∧ Record.payload? file.records headersTag =
        some (Bytes.ofNatLittle 4 file.headers.length ++ mark ++
          (file.headers.map Header.raw).flatten ++ rest) := by
  have consistent := reachable.consistent
  obtain ⟨table, found, counted, mark, rest, four, laidOut⟩ := consistent.table
  refine ⟨?_, Bytes.range_four ▸ counted, mark, rest, four, laidOut ▸ found⟩
  intro header member
  have described := consistent.described header member
  exact ⟨described.code, described.strings, described.locals, described.attributes,
    header.raw_length⟩

/-- The bytes of the gate map after a rebuild. -/
def gateWritten : Bytes := reached gateRebuilt.encode []

/-- The gate map after a rebuild, written and read again. -/
def gateReloaded : MapFile := reached (decode gateWritten) ⟨[], [], []⟩

/-- The same map with a script without strings compiled into it. -/
def gateEmptied : MapFile :=
  reached (gateReloaded.compile ⟨[], [], [], [], [], .empty, .empty, .empty⟩
    "GATE\n\x7b\nReturn\n\x7d".toList) ⟨[], [], []⟩

/-- After all three kinds of steps there is one byte of code where there were three, and no
string where there were three. -/
theorem headers_described_gate :
    gateEmptied.headers.map (fun header => (header.code.length, header.field .codeLength,
      header.strings.length, header.locals)) = [(1, 1, 0, [-3])] ∧
      ∃ mark rest, mark.length = 4 ∧ Record.payload? gateEmptied.records headersTag =
        some (Bytes.ofNatLittle 4 1 ++ mark ++
          (gateEmptied.headers.map Header.raw).flatten ++ rest) := by
  have first : gateFile.Reachable := .decoded gateData (eq_ok_reached (by decide +kernel))
  have second : gateRebuilt.Reachable :=
    first.step (.withCompiled _ (eq_ok_reached (by decide +kernel)))
  have third : gateReloaded.Reachable :=
    second.step (.reload gateWritten (eq_ok_reached (by decide +kernel))
      (eq_ok_reached (by decide +kernel)))
  have fourth : gateEmptied.Reachable :=
    third.step (.compile _ _ (eq_ok_reached (by decide +kernel)))
  refine ⟨by decide +kernel, ?_⟩
  have one : gateEmptied.headers.length = 1 := by decide +kernel
  have described := (headers_described_of_reachable fourth).2.2
  rwa [one] at described

end MapFile

end MapScript
