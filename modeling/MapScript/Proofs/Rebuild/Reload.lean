/-
This file proves that a rebuilt map can be written and read back. A part that the
map had is put in the place of the old one, so reading finds it; a part that the
map lacked is left out if all its bytes are zero. For variables and attributes that
loses nothing. For strings, their offsets and code it does: a single string of a
map has offset zero, so an offset table that is all zero may be needed, and without
it the map cannot be read. The exact condition under which nothing is lost is
stated and proved here in both directions.
-/

import MapScript.Proofs.Rebuild.Copies
import MapScript.Proofs.Rebuild.Placed

namespace MapScript

/-! ### Nothing is lost -/

namespace MapFile

/-- Where a map lacks one of the parts that scripts need, what the scripts put there
is told from nothing: if they have strings and the map no string pool, some string is
not empty; if the map has no offset table, two strings differ; if they have code and
the map no code pool, some byte of the code is not zero. -/
structure KeepsParts (file : MapFile) (compiled : List Compiled) : Prop where
  texts : Record.payload? file.records stringsTag = none →
    (∃ script ∈ compiled, script.strings ≠ []) →
    ∃ script ∈ compiled, ∃ text ∈ script.strings, text ≠ ""
  offsets : Record.payload? file.records offsetsTag = none →
    (∃ script ∈ compiled, script.strings ≠ []) →
    ∃ script ∈ compiled, ∃ other ∈ compiled, ∃ text ∈ script.strings, ∃ different ∈ other.strings,
      text ≠ different
  code : Record.payload? file.records codeTag = none →
    (∃ script ∈ compiled, script.code ≠ []) → ∃ script ∈ compiled, ∃ byte ∈ script.code, byte ≠ 0

/-- The four bytes behind the count of a header table. -/
def tableMark (file : MapFile) : Bytes :=
  Bytes.part ((Record.payload? file.records headersTag).getD []) 4 4

/-- A rebuild of a map: the run that built its parts. -/
structure RebuiltBy (file rebuilt : MapFile) (compiled : List Compiled) (state : Rebuild) :
    Prop where
  lengths : compiled.length = file.headers.length
  run : (file.headers.zip compiled).foldlM (Rebuild.add (codeBase file.headers)) .start = .ok state
  records : rebuilt.records =
    replaceRecords file.records (state.records (codeBase file.headers) (tableMark file))
  headers : rebuilt.headers = state.headers
  trailer : rebuilt.trailer = file.trailer

theorem withCompiled_eq_ok {file rebuilt : MapFile} {compiled : List Compiled}
    (built : file.withCompiled compiled = .ok rebuilt) :
    ∃ state, RebuiltBy file rebuilt compiled state := by
  unfold withCompiled at built
  split at built
  · cases built
  · rename_i lengths
    obtain ⟨state, run, built⟩ := bind_eq_ok.mp built
    cases built
    exact ⟨state, Classical.not_not.mp lengths, run, rfl, rfl, rfl⟩

section Rebuilt

variable {file rebuilt : MapFile} {compiled : List Compiled} {state : Rebuild}

theorem RebuiltBy.pools (built : RebuiltBy file rebuilt compiled state) :
    Pools.ofRecords rebuilt.records =
      { texts := (keptPayload file.records stringsTag state.texts).getD []
        offsets := (keptPayload file.records offsetsTag state.offsets).getD []
        locals := signedWords ((keptPayload file.records variablesTag state.locals).getD [])
        code := (keptPayload file.records codeTag
          (List.replicate (codeBase file.headers) 0 ++ state.code)).getD []
        attributes := keptPayload file.records attributesTag state.attributes } := by
  rw [built.records]
  exact Rebuild.ofRecords_replaceRecords file.records

/-- The header table of a rebuilt map is the one that was built, if the map had one. -/
theorem RebuiltBy.headerTable (built : RebuiltBy file rebuilt compiled state) {old : Bytes}
    (found : Record.payload? file.records headersTag = some old) :
    Record.payload? rebuilt.records headersTag =
      some (Bytes.ofNatLittle 4 rebuilt.headers.length ++ tableMark file ++
        (rebuilt.headers.map Header.raw).flatten) := by
  rw [built.records, built.headers]
  refine (Rebuild.payload?_rebuilt file.records List.mem_cons_self).trans ?_
  show keptPayload file.records headersTag _ = _
  rw [keptPayload, found]
  rfl

theorem exists_pair_of_mem (built : RebuiltBy file rebuilt compiled state) {script : Compiled}
    (member : script ∈ compiled) :
    ∃ header ∈ file.headers, (header, script) ∈ file.headers.zip compiled := by
  have seconds : (file.headers.zip compiled).map Prod.snd = compiled :=
    List.map_snd_zip (Nat.le_of_eq built.lengths)
  rw [← seconds] at member
  obtain ⟨⟨header, found⟩, paired, rfl⟩ := List.mem_map.mp member
  exact ⟨header, (List.of_mem_zip paired).1, paired⟩

/-- The scripts fit the headers of a decoded map. -/
theorem fit_of_decoded (decoded : file.Decoded)
    (instances : ∀ header ∈ file.headers, header.locals ≠ [] → 0 < header.field .instances)
    (noNul : ∀ script ∈ compiled, ∀ text ∈ script.strings, Char.ofNat 0 ∉ text.toList) :
    ∀ pair ∈ file.headers.zip compiled, Rebuild.Fit pair.1 pair.2 := by
  intro pair member
  have parts := List.of_mem_zip member
  obtain ⟨place, cursor, stored⟩ := decoded.stored.exists_stored parts.1
  exact ⟨noNul pair.2 parts.2, stored.length_locals, instances pair.1 parts.1⟩

theorem counted_of_decoded (decoded : file.Decoded) :
    ∀ pair ∈ file.headers.zip compiled,
      pair.1.locals.length = pair.1.field .variableCount := by
  intro pair paired
  obtain ⟨place, cursor, stored⟩ := decoded.stored.exists_stored (List.of_mem_zip paired).1
  exact stored.length_locals

/-- Without a code pool, code starts at zero. -/
theorem codeBase_of_no_code (decoded : file.Decoded)
    (missing : Record.payload? file.records codeTag = none) : codeBase file.headers = 0 := by
  have stored := decoded.stored
  cases headers : file.headers with
  | nil => rfl
  | cons first rest =>
    rw [headers] at stored
    have bound := stored.1.code_le
    rw [Pools.ofRecords, missing, Option.getD_none, List.length_nil] at bound
    omega

/-- The header table of a rebuilt map gives its blocks back. -/
theorem table_of_rebuilt (decoded : file.Decoded) (built : RebuiltBy file rebuilt compiled state)
    (headerCount : state.headers.length = file.headers.length) :
    ∃ table blocks, Record.payload? rebuilt.records headersTag = some table ∧
      headerBlocks table = .ok blocks ∧ blocks.map Header.raw = rebuilt.headers.map Header.raw := by
  obtain ⟨oldTable, oldBlocks, oldFound, oldBlocksOk, raws⟩ := decoded.table
  obtain ⟨long, count⟩ := headerBlocks_bounds oldBlocksOk
  have oldCount : oldBlocks.length = file.headers.length := by
    rw [← List.length_map (f := Header.raw), raws, List.length_map]
  have mark : (tableMark file).length = 4 := by
    rw [tableMark, oldFound, Option.getD_some, Bytes.length_part]
    simp only [headerTableStart] at long
    omega
  have sizes : ∀ raw ∈ state.headers.map Header.raw, raw.length = headerSize := by
    intro raw member
    obtain ⟨header, -, rfl⟩ := List.mem_map.mp member
    exact header.raw_length
  obtain ⟨blocks, blocksOk, same⟩ := headerBlocks_of_table mark sizes
    (by rw [List.length_map, headerCount, ← oldCount]; exact count)
  rw [List.length_map, ← built.headers] at blocksOk
  exact ⟨_, blocks, built.headerTable oldFound, blocksOk, by rw [same, built.headers]⟩

theorem tagged_of_rebuilt (decoded : file.Decoded)
    (built : RebuiltBy file rebuilt compiled state) :
    ∀ record ∈ rebuilt.records, record.Tagged := by
  intro record member
  rw [built.records] at member
  rcases mem_replaceRecords member with old | new
  · exact decoded.tagged record old
  · exact Rebuild.tagged_records new

/-- A part that was kept was written, so it fits its length field. -/
theorem length_lt_of_kept (built : RebuiltBy file rebuilt compiled state) {bytes : Bytes}
    (written : rebuilt.encode = .ok bytes) {record : Record}
    (member : record ∈ state.records (codeBase file.headers) (tableMark file))
    (kept : keptPayload file.records record.tag record.payload ≠ none) :
    record.payload.length < Bytes.range 4 := by
  obtain ⟨payload, found⟩ := Option.ne_none_iff_exists'.mp kept
  have same := Rebuild.keptPayload_eq_some found
  rw [← Rebuild.payload?_rebuilt file.records member, ← built.records, same] at found
  obtain ⟨holder, inside, holds⟩ := mem_of_payload? found
  rw [← holds]
  exact Record.payload_lt_of_writeAll written holder inside

/-- Where scripts have strings and nothing is lost, the string pool is kept. -/
theorem texts_kept (built : RebuiltBy file rebuilt compiled state)
    (noNul : ∀ pair ∈ file.headers.zip compiled, Rebuild.NoNul pair.2)
    (keeps : file.KeepsParts compiled) (some : ∃ script ∈ compiled, script.strings ≠ []) :
    keptPayload file.records stringsTag state.texts ≠ none := by
  intro none
  obtain ⟨missing, zero⟩ := Rebuild.keptPayload_eq_none_iff.mp none
  obtain ⟨script, member, text, used, filled⟩ := keeps.texts missing some
  obtain ⟨header, -, paired⟩ := exists_pair_of_mem built member
  obtain ⟨place, stands, -⟩ := Rebuild.run_used Rebuild.sound_start noNul built.run paired used
  obtain ⟨byte, inside, nonzero⟩ := stands.exists_nonzero filled
  exact nonzero (zero byte inside)

/-- Where scripts have strings and nothing is lost, the offset table is kept: of two
strings that differ, at most one has offset zero. -/
theorem offsets_kept (built : RebuiltBy file rebuilt compiled state)
    (noNul : ∀ pair ∈ file.headers.zip compiled, Rebuild.NoNul pair.2)
    (keeps : file.KeepsParts compiled) (some : ∃ script ∈ compiled, script.strings ≠ [])
    (fits : state.texts.length ≤ Bytes.range 4) :
    keptPayload file.records offsetsTag state.offsets ≠ none := by
  intro none
  obtain ⟨missing, zero⟩ := Rebuild.keptPayload_eq_none_iff.mp none
  obtain ⟨script, member, other, otherMember, text, used, different, otherUsed, differ⟩ :=
    keeps.offsets missing some
  have atZero {script : Compiled} (member : script ∈ compiled) {text : String}
      (used : text ∈ script.strings) : Rebuild.TextAt state.texts text 0 := by
    obtain ⟨header, -, paired⟩ := exists_pair_of_mem built member
    obtain ⟨place, stands, entered⟩ :=
      Rebuild.run_used Rebuild.sound_start noNul built.run paired used
    by_cases first : place = 0
    · rw [first] at stands
      exact stands
    · obtain ⟨byte, inside, nonzero⟩ := Rebuild.exists_nonzero_ofNatLittle
        (Nat.lt_of_lt_of_le stands.lt_length fits) first
      exact absurd (zero byte (entered byte inside)) nonzero
  exact differ ((atZero member used).unique (atZero otherMember otherUsed))

/-- Where nothing is lost, the code pool of the rebuilt map is the one that was built. -/
theorem code_kept (decoded : file.Decoded) (built : RebuiltBy file rebuilt compiled state)
    (keeps : file.KeepsParts compiled) :
    (keptPayload file.records codeTag
        (List.replicate (codeBase file.headers) 0 ++ state.code)).getD [] =
      List.replicate (codeBase file.headers) 0 ++ state.code := by
  have codes := Rebuild.run_code built.run
  cases kept : keptPayload file.records codeTag
      (List.replicate (codeBase file.headers) 0 ++ state.code) with
  | some payload => exact Rebuild.keptPayload_eq_some kept
  | none =>
    obtain ⟨missing, zero⟩ := Rebuild.keptPayload_eq_none_iff.mp kept
    have inCode {script : Compiled} (member : script ∈ compiled) {byte : UInt8}
        (inside : byte ∈ script.code) : byte ∈ state.code := by
      obtain ⟨header, -, paired⟩ := exists_pair_of_mem built member
      rw [codes]
      exact List.mem_append_right _
        (List.mem_flatten.mpr ⟨_, List.mem_map.mpr ⟨_, paired, rfl⟩, inside⟩)
    have empty : state.code = [] := by
      rw [codes]
      refine List.append_eq_nil_iff.mpr ⟨rfl, List.flatten_eq_nil_iff.mpr ?_⟩
      intro code member
      obtain ⟨pair, paired, rfl⟩ := List.mem_map.mp member
      refine Classical.byContradiction fun filled => ?_
      obtain ⟨script, inside, byte, used, nonzero⟩ :=
        keeps.code missing ⟨pair.2, (List.of_mem_zip paired).2, filled⟩
      exact nonzero (zero byte (List.mem_append_right _ (inCode inside used)))
    rw [codeBase_of_no_code decoded missing, empty]
    rfl

/-- The attributes of a header are the same whether a block of zeros is there or not. -/
theorem attributesAt_of_zero {pools others : Pools} {blocks : Bytes} {place count : Nat}
    {attributes : Bytes} (filled : pools.attributes = some blocks)
    (zero : ∀ byte ∈ blocks, byte = 0) (missing : others.attributes = none)
    (found : Header.attributesAt pools place count = .ok attributes) :
    Header.attributesAt others place count = .ok attributes := by
  unfold Header.attributesAt at found ⊢
  rw [filled] at found
  rw [missing]
  simp only at found ⊢
  split at found
  · cases found
  · rename_i long
    rw [← Except.ok.inj found]
    refine congrArg Except.ok (List.eq_replicate_iff.mpr ⟨?_, ?_⟩).symm
    · rw [Bytes.length_part]
      omega
    · intro byte member
      exact zero byte (List.mem_of_mem_drop (List.mem_of_mem_take member))

/-- The variables of a rebuilt map are those of its source with the changes of the
scripts. -/
theorem map_locals_rebuilt (decoded : file.Decoded)
    (built : RebuiltBy file rebuilt compiled state) :
    rebuilt.headers.map Header.locals =
      (file.headers.zip compiled).map fun pair => pair.2.localsOver pair.1.locals := by
  obtain ⟨new, headers, changed, -⟩ :=
    Rebuild.run_held Rebuild.sound_start.locals (counted_of_decoded decoded) built.run
  rw [built.headers, headers]
  exact changed

/-- The variables of a rebuilt map can be read from the pool that was built exactly if
they are held. -/
theorem readable_iff_held (decoded : file.Decoded)
    (built : RebuiltBy file rebuilt compiled state) :
    (∀ header ∈ rebuilt.headers,
        header.variablesIn (state.pools (codeBase file.headers)) = .ok header.locals) ↔
      Rebuild.Held (file.headers.zip compiled) := by
  obtain ⟨new, headers, -, held⟩ :=
    Rebuild.run_held Rebuild.sound_start.locals (counted_of_decoded decoded) built.run
  rw [built.headers, headers]
  exact held

/-- Where no strings are lost, those of a header are the same in a rebuilt map as in the parts
that were built. -/
theorem stringsFrom_of_kept (built : RebuiltBy file rebuilt compiled state)
    (noNul : ∀ pair ∈ file.headers.zip compiled, Rebuild.NoNul pair.2)
    (keeps : file.KeepsParts compiled) (fits : state.texts.length ≤ Bytes.range 4)
    {script : Compiled} (member : script ∈ compiled) (header : Header) :
    header.stringsFrom (.ofRecords rebuilt.records) 0 script.strings.length =
      header.stringsFrom (state.pools (codeBase file.headers)) 0 script.strings.length := by
  by_cases none : script.strings = []
  · rw [none]
    rfl
  · have some : ∃ script ∈ compiled, script.strings ≠ [] := ⟨script, member, none⟩
    obtain ⟨texts, textsKept⟩ :=
      Option.ne_none_iff_exists'.mp (texts_kept built noNul keeps some)
    obtain ⟨offsets, offsetsKept⟩ :=
      Option.ne_none_iff_exists'.mp (offsets_kept built noNul keeps some fits)
    apply Header.stringsFrom_pools_congr
    · rw [built.pools, textsKept, Rebuild.keptPayload_eq_some textsKept]
      rfl
    · rw [built.pools, offsetsKept, Rebuild.keptPayload_eq_some offsetsKept]
      rfl

/-- A map that has a header with variables keeps the variables of a rebuild. -/
theorem locals_kept (decoded : file.Decoded) {header : Header} (member : header ∈ file.headers)
    (some : header.locals ≠ []) (payload : Bytes) :
    keptPayload file.records variablesTag payload = Option.some payload := by
  obtain ⟨place, cursor, stored⟩ := decoded.stored.exists_stored member
  have there := stored.pools_of_locals some
  rw [keptPayload, if_pos]
  rw [Bool.or_eq_true]
  left
  refine Option.isSome_iff_ne_none.mpr fun missing => there ?_
  rw [Pools.ofRecords, missing]
  rfl

/-- Variables that are found in the parts of a rebuild are found in the rebuilt map. -/
theorem variablesIn_of_kept (decoded : file.Decoded)
    (built : RebuiltBy file rebuilt compiled state) {new : Header} {pair : Header × Compiled}
    (paired : pair ∈ file.headers.zip compiled) (carries : Rebuild.Carries pair.1 new pair.2)
    (found : new.variablesIn (state.pools (codeBase file.headers)) = .ok new.locals) :
    new.variablesIn (.ofRecords rebuilt.records) = .ok new.locals := by
  by_cases none : new.locals = []
  · have zero : new.field .variableCount = 0 := by
      rw [carries.variableCount, ← counted_of_decoded decoded pair paired, ← carries.locals, none]
      rfl
    rw [Header.variablesIn, zero, none]
    rfl
  · have some : pair.1.locals ≠ [] := by
      intro empty
      have same := carries.locals
      rw [empty] at same
      exact none (List.eq_nil_of_length_eq_zero same)
    have kept := locals_kept decoded (List.of_mem_zip paired).1 some state.locals
    have same : (Pools.ofRecords rebuilt.records).locals =
        (state.pools (codeBase file.headers)).locals := by
      rw [built.pools, kept]
      rfl
    rw [← found, Header.variablesIn, Header.variablesIn, same]

/-- Attributes that are found in the parts of a rebuild are found in the rebuilt map: zeros that
are left out are what is read where there are none. -/
theorem attributesAt_of_kept (built : RebuiltBy file rebuilt compiled state) {place count : Nat}
    {attributes : Bytes} (found : Header.attributesAt (state.pools (codeBase file.headers)) place
      count = .ok attributes) :
    Header.attributesAt (.ofRecords rebuilt.records) place count = .ok attributes := by
  cases kept : keptPayload file.records attributesTag state.attributes with
  | some payload =>
    rw [← found, Header.attributesAt, Header.attributesAt, built.pools, kept,
      Rebuild.keptPayload_eq_some kept]
    rfl
  | none =>
    obtain ⟨-, zero⟩ := Rebuild.keptPayload_eq_none_iff.mp kept
    exact attributesAt_of_zero rfl zero (by rw [built.pools, kept]) found

/-- Where nothing is lost, a header that is stored in the parts of a rebuild is stored
in the records of the rebuilt map. -/
theorem stored_of_kept (decoded : file.Decoded) (built : RebuiltBy file rebuilt compiled state)
    (noNul : ∀ pair ∈ file.headers.zip compiled, Rebuild.NoNul pair.2)
    (keeps : file.KeepsParts compiled) (fits : state.texts.length ≤ Bytes.range 4)
    {new : Header} {pair : Header × Compiled} (paired : pair ∈ file.headers.zip compiled)
    (carries : Rebuild.Carries pair.1 new pair.2) {count place cursor : Nat}
    (stored : new.Stored (state.pools (codeBase file.headers)) count place cursor) :
    new.Stored (.ofRecords rebuilt.records) count place cursor where
  strings := by
    have same :=
      stringsFrom_of_kept built noNul keeps fits (List.of_mem_zip paired).2 new
    rw [← carries.stringCount] at same
    exact same.trans stored.strings
  locals := variablesIn_of_kept decoded built paired carries stored.locals
  code := by
    have same : (Pools.ofRecords rebuilt.records).code =
        (state.pools (codeBase file.headers)).code := by
      rw [built.pools]
      exact code_kept decoded built keeps
    rw [← stored.code, Header.codeAt, Header.codeAt, same]
  attributes := attributesAt_of_kept built stored.attributes

/-- Where nothing is lost and all variables are held, a rebuilt map is read back as it
is. -/
theorem decode_of_held (decoded : file.Decoded)
    (built : RebuiltBy file rebuilt compiled state)
    (noNul : ∀ pair ∈ file.headers.zip compiled, Rebuild.NoNul pair.2)
    (held : Rebuild.Held (file.headers.zip compiled)) (keeps : file.KeepsParts compiled)
    {bytes : Bytes} (written : rebuilt.encode = .ok bytes) :
    decode bytes = .ok rebuilt := by
  have tagged := tagged_of_rebuilt decoded built
  have read := Record.readAll_of_writeAll tagged written
  have fits : state.texts.length ≤ Bytes.range 4 := by
    by_cases some : ∃ script ∈ compiled, script.strings ≠ []
    · have kept := texts_kept built noNul keeps some
      have member : ⟨stringsTag, state.texts⟩ ∈
          state.records (codeBase file.headers) (tableMark file) := by
        simp [Rebuild.records]
      exact Nat.le_of_lt (length_lt_of_kept built written member kept)
    · have none : ∀ pair ∈ file.headers.zip compiled, ∀ text ∈ pair.2.strings, False := by
        intro pair paired text used
        exact some ⟨pair.2, (List.of_mem_zip paired).2, List.ne_nil_of_mem used⟩
      have empty := Rebuild.run_strings_keep (fun texts _ _ => texts = [])
        (fun before pair paired text used => (none pair paired text used).elim) rfl built.run
      rw [empty]
      exact Nat.zero_le _
  obtain ⟨new, headers, carried, base, stored⟩ :=
    Rebuild.run_stored Rebuild.sound_start noNul built.run rebuilt.headers.length
  have newHeaders : rebuilt.headers = new := by rw [built.headers, headers]; rfl
  have locals := (readable_iff_held decoded built).mpr held
  rw [newHeaders] at locals
  have count : state.headers.length = file.headers.length := by
    rw [← built.headers, newHeaders, carried.length_eq, List.length_zip, built.lengths, Nat.min_self]
  refine decode_eq_ok_iff.mpr ⟨read, tagged, table_of_rebuilt decoded built count, ?_⟩
  have moved : Header.StoredFrom (.ofRecords rebuilt.records) rebuilt.headers.length 0
      (codeBase file.headers) new := by
    refine Header.StoredFrom.imp ?_ (stored fits locals)
    intro header member place cursor inParts
    obtain ⟨pair, paired, carries⟩ := carried.exists_pair member
    exact stored_of_kept decoded built noNul keeps fits paired carries inParts
  rw [newHeaders] at moved ⊢
  by_cases none : new = []
  · rw [none]
    trivial
  · rw [base none]
    exact moved

/-- Where nothing is lost and every header with variables has an instance, a rebuilt map
is read back as it is. -/
theorem decode_of_keepsParts (decoded : file.Decoded)
    (built : RebuiltBy file rebuilt compiled state)
    (fit : ∀ pair ∈ file.headers.zip compiled, Rebuild.Fit pair.1 pair.2)
    (keeps : file.KeepsParts compiled) {bytes : Bytes} (written : rebuilt.encode = .ok bytes) :
    decode bytes = .ok rebuilt :=
  decode_of_held decoded built (fun pair paired => (fit pair paired).noNul)
    (Rebuild.held_of_instances fun pair paired => (fit pair paired).instances) keeps written

/-! ### What is lost cannot be read -/

/-- Whatever is read back from a rebuilt map has its header blocks. -/
theorem raws_of_reload (decoded : file.Decoded) (built : RebuiltBy file rebuilt compiled state)
    (headerCount : state.headers.length = file.headers.length) {reloaded : MapFile}
    (records : reloaded.records = rebuilt.records) (reread : reloaded.Decoded) :
    reloaded.headers.map Header.raw = rebuilt.headers.map Header.raw := by
  obtain ⟨table, blocks, found, blocksOk, raws⟩ := table_of_rebuilt decoded built headerCount
  obtain ⟨again, againBlocks, againFound, againOk, againRaws⟩ := reread.table
  rw [records, found] at againFound
  cases againFound
  rw [blocksOk] at againOk
  cases againOk
  rw [← againRaws, raws]

/-- A header that was read back from a rebuilt map for each script, with the numbers of
strings and of code bytes that the script has. -/
theorem exists_reloaded (decoded : file.Decoded) (built : RebuiltBy file rebuilt compiled state)
    (fit : ∀ pair ∈ file.headers.zip compiled, Rebuild.Fit pair.1 pair.2) {reloaded : MapFile}
    (records : reloaded.records = rebuilt.records) (reread : reloaded.Decoded)
    {script : Compiled} (member : script ∈ compiled) :
    ∃ header : Header, header.field .stringCount = script.strings.length ∧
      header.field .codeLength = script.code.length ∧
      ∃ count place cursor, header.Stored (.ofRecords rebuilt.records) count place cursor := by
  obtain ⟨new, headers, carried, -, -⟩ :=
    Rebuild.run_stored Rebuild.sound_start (fun pair paired => (fit pair paired).noNul) built.run
      rebuilt.headers.length
  have newHeaders : rebuilt.headers = new := by rw [built.headers, headers]; rfl
  have count : state.headers.length = file.headers.length := by
    rw [← built.headers, newHeaders, carried.length_eq, List.length_zip, built.lengths, Nat.min_self]
  obtain ⟨old, -, paired⟩ := exists_pair_of_mem built member
  obtain ⟨carrier, inside, carries⟩ := carried.exists_header paired
  have raws := raws_of_reload decoded built count records reread
  have rawInside : carrier.raw ∈ reloaded.headers.map Header.raw := by
    rw [raws, newHeaders]
    exact List.mem_map.mpr ⟨carrier, inside, rfl⟩
  obtain ⟨header, found, same⟩ := List.mem_map.mp rawInside
  obtain ⟨place, cursor, stored⟩ := reread.stored.exists_stored found
  rw [records] at stored
  refine ⟨header, ?_, ?_, _, place, cursor, stored⟩
  · rw [Header.field_congr same, carries.stringCount]
  · rw [Header.field_congr same, carries.codeLength]

section Stored

variable {header : Header} {count place cursor : Nat}

/-- Where a map without a string pool has a header with strings read back, some string is not
empty. -/
theorem exists_filled_of_stored (built : RebuiltBy file rebuilt compiled state)
    (missing : Record.payload? file.records stringsTag = none)
    (stored : header.Stored (.ofRecords rebuilt.records) count place cursor)
    (some : 0 < header.field .stringCount) :
    ∃ script ∈ compiled, ∃ text ∈ script.strings, text ≠ "" := by
  refine Classical.byContradiction fun noText => (stored.pools_of_strings some).2 ?_
  have zero := Rebuild.run_texts_zero (fun pair paired text used =>
    Classical.byContradiction fun filled =>
      noText ⟨pair.2, (List.of_mem_zip paired).2, text, used, filled⟩) built.run
  rw [built.pools, Rebuild.keptPayload_eq_none_iff.mpr ⟨missing, zero⟩]
  rfl

/-- Where a map without an offset table has a header with strings read back, some string differs
from any that is given. -/
theorem exists_other_of_stored (built : RebuiltBy file rebuilt compiled state)
    (missing : Record.payload? file.records offsetsTag = none)
    (stored : header.Stored (.ofRecords rebuilt.records) count place cursor)
    (some : 0 < header.field .stringCount) (single : String) :
    ∃ script ∈ compiled, ∃ text ∈ script.strings, text ≠ single := by
  refine Classical.byContradiction fun noOther => (stored.pools_of_strings some).1 ?_
  have zero := Rebuild.run_offsets_zero single (fun pair paired text other =>
    Classical.byContradiction fun differ =>
      noOther ⟨pair.2, (List.of_mem_zip paired).2, text, other, differ⟩) built.run
  rw [built.pools, Rebuild.keptPayload_eq_none_iff.mpr ⟨missing, zero⟩]
  rfl

/-- Where a map without a code pool has a header with code read back, some byte of the code is not
zero. -/
theorem exists_byte_of_stored (decoded : file.Decoded)
    (built : RebuiltBy file rebuilt compiled state)
    (missing : Record.payload? file.records codeTag = none)
    (stored : header.Stored (.ofRecords rebuilt.records) count place cursor)
    (some : 0 < header.field .codeLength) :
    ∃ script ∈ compiled, ∃ byte ∈ script.code, byte ≠ 0 := by
  refine Classical.byContradiction fun noByte => ?_
  have zero : ∀ byte ∈ List.replicate (codeBase file.headers) 0 ++ state.code, byte = 0 := by
    rw [codeBase_of_no_code decoded missing, Rebuild.run_code built.run]
    intro byte inside
    obtain ⟨code, member, used⟩ := List.mem_flatten.mp inside
    obtain ⟨pair, paired, rfl⟩ := List.mem_map.mp member
    exact Classical.byContradiction fun nonzero =>
      noByte ⟨pair.2, (List.of_mem_zip paired).2, byte, used, nonzero⟩
  have bound := stored.code_le
  rw [built.pools, Rebuild.keptPayload_eq_none_iff.mpr ⟨missing, zero⟩, Option.getD_none,
    List.length_nil] at bound
  omega

end Stored

/-- A rebuilt map that can be read back has lost nothing. -/
theorem keepsParts_of_decode (decoded : file.Decoded)
    (built : RebuiltBy file rebuilt compiled state)
    (fit : ∀ pair ∈ file.headers.zip compiled, Rebuild.Fit pair.1 pair.2)
    {bytes : Bytes} (written : rebuilt.encode = .ok bytes) {reloaded : MapFile}
    (reload : decode bytes = .ok reloaded) : file.KeepsParts compiled := by
  obtain ⟨read, reread⟩ := decode_eq_ok_iff.mp reload
  have records : reloaded.records = rebuilt.records := by
    have again := Record.readAll_of_writeAll (tagged_of_rebuilt decoded built) written
    rw [read] at again
    exact congrArg Prod.fst (Except.ok.inj again)
  constructor
  case texts =>
    rintro missing ⟨script, member, some⟩
    obtain ⟨header, stringCount, -, _, place, cursor, stored⟩ :=
      exists_reloaded decoded built fit records reread member
    refine exists_filled_of_stored built missing stored ?_
    rw [stringCount]
    exact List.length_pos_iff.mpr some
  case offsets =>
    rintro missing ⟨script, member, some⟩
    obtain ⟨header, stringCount, -, _, place, cursor, stored⟩ :=
      exists_reloaded decoded built fit records reread member
    obtain ⟨single, used⟩ := List.exists_mem_of_ne_nil _ some
    rw [← List.length_pos_iff, ← stringCount] at some
    obtain ⟨other, inside, text, there, differ⟩ :=
      exists_other_of_stored built missing stored some single
    exact ⟨other, inside, script, member, text, there, single, used, differ⟩
  case code =>
    rintro missing ⟨script, member, some⟩
    obtain ⟨header, -, codeLength, _, place, cursor, stored⟩ :=
      exists_reloaded decoded built fit records reread member
    refine exists_byte_of_stored decoded built missing stored ?_
    rw [codeLength]
    exact List.length_pos_iff.mpr some

end Rebuilt

/-! ### Maps that have all parts -/

/-- The tags of the parts that depend on scripts. -/
def partTags : List Bytes :=
  [headersTag, stringsTag, offsetsTag, variablesTag, codeTag, attributesTag]

/-- A rebuilt map survives being written and read back, if the map had all the parts that
depend on scripts. -/
theorem decode_encode_withCompiled {data bytes : Bytes} {file rebuilt : MapFile}
    {compiled : List Compiled} (decoded : decode data = .ok file)
    (complete : ∀ tag ∈ partTags, ∃ record ∈ file.records, record.tag = tag)
    (instances : ∀ header ∈ file.headers, header.locals ≠ [] → 1 ≤ header.field .instances)
    (noNul : ∀ script ∈ compiled, ∀ text ∈ script.strings, Char.ofNat 0 ∉ text.toList)
    (built : file.withCompiled compiled = .ok rebuilt) (written : rebuilt.encode = .ok bytes) :
    decode bytes = .ok rebuilt := by
  obtain ⟨-, sound⟩ := decode_eq_ok_iff.mp decoded
  obtain ⟨state, builtBy⟩ := withCompiled_eq_ok built
  have present {tag : Bytes} (member : tag ∈ partTags) :
      Record.payload? file.records tag ≠ none := by
    obtain ⟨record, inside, same⟩ := complete tag member
    intro missing
    have absent := List.find?_eq_none.mp (Option.map_eq_none_iff.mp missing) record inside
    exact absent (by simpa using same)
  refine decode_of_keepsParts sound builtBy (fit_of_decoded sound instances noNul) ?_ written
  exact ⟨fun missing => absurd missing (present (by simp [partTags])),
    fun missing => absurd missing (present (by simp [partTags])),
    fun missing => absurd missing (present (by simp [partTags]))⟩

/-- The block of a header `GATE` with these numbers of instances, strings, bytes of code and
variables; its code starts behind two bytes of padding if it has any. -/
def gateBlock (instances strings length held : UInt8) : Bytes :=
  [0, 0, 0, 0, 0x47, 0x41, 0x54, 0x45] ++ List.replicate 5 0 ++ [instances, 0] ++
    List.replicate 50 0 ++ [strings, 0, 0, 0] ++ List.replicate 8 0 ++ [length, 0, 0, 0] ++
    [2 * length, 0, 0, 0] ++ List.replicate 32 0 ++ [held, 0, 0, 0] ++
    List.replicate 4 0 ++ [4, 0, 0, 0] ++ List.replicate 36 0

/-- The bytes of a map of one header `GATE` with all parts. -/
def gateData : Bytes :=
  headersTag ++ [0, 0, 0, 173, 1, 0, 0, 0, 0, 0, 0, 0] ++ gateBlock 2 1 1 1 ++
    stringsTag ++ [0, 0, 0, 3, 0x68, 0x69, 0] ++ offsetsTag ++ [0, 0, 0, 4, 0, 0, 0, 0] ++
    variablesTag ++ [0, 0, 0, 12, 0, 0, 0, 0, 7, 0, 0, 0, 7, 0, 0, 0] ++
    codeTag ++ [0, 0, 0, 3, 0, 0, 0x12] ++ attributesTag ++ [0, 0, 1, 0] ++
    List.replicate attributeBlockSize 0 ++ endTag

/-- A script for the header `GATE` with these strings and variables. -/
def gateScript (strings : List String) (locals : Registry Int Int) : Compiled :=
  { name := "GATE"
    code := [5, 0, 0]
    entry := 1
    strings := strings
    attributes := List.replicate attributeBlockSize 1
    locals := locals
    labels := .empty }

def gateFile : MapFile := reached (decode gateData) ⟨[], [], []⟩

def gateRebuilt : MapFile :=
  reached (gateFile.withCompiled [gateScript ["lock", "hi", "lock"] (Registry.empty.put 0 (-3))])
    ⟨[], [], []⟩

theorem decode_encode_gate :
    decode gateData = .ok gateFile ∧
      ∃ bytes, gateRebuilt.encode = .ok bytes ∧ decode bytes = .ok gateRebuilt := by
  have decoded : decode gateData = .ok gateFile := eq_ok_reached (by decide +kernel)
  have written : gateRebuilt.encode = .ok (reached gateRebuilt.encode []) :=
    eq_ok_reached (by decide +kernel)
  refine ⟨decoded, _, written, ?_⟩
  exact decode_encode_withCompiled decoded (by decide +kernel) (by decide +kernel)
    (by decide +kernel) (eq_ok_reached (by decide +kernel)) written

/-! ### Maps that lack parts -/

/-- Whether a rebuilt map survives being written and read back: it does if no part that
scripts need was left out, and else it cannot be read at all. -/
theorem decode_encode_withCompiled_of_missing {data bytes : Bytes} {file rebuilt : MapFile}
    {compiled : List Compiled} (decoded : decode data = .ok file)
    (instances : ∀ header ∈ file.headers, header.locals ≠ [] → 1 ≤ header.field .instances)
    (noNul : ∀ script ∈ compiled, ∀ text ∈ script.strings, Char.ofNat 0 ∉ text.toList)
    (built : file.withCompiled compiled = .ok rebuilt) (written : rebuilt.encode = .ok bytes) :
    (file.KeepsParts compiled → decode bytes = .ok rebuilt) ∧
      (¬ file.KeepsParts compiled → ∃ fault, decode bytes = .error fault) := by
  obtain ⟨-, sound⟩ := decode_eq_ok_iff.mp decoded
  obtain ⟨state, builtBy⟩ := withCompiled_eq_ok built
  have fit := fit_of_decoded sound instances noNul
  refine ⟨fun keeps => decode_of_keepsParts sound builtBy fit keeps written, fun lost => ?_⟩
  cases reload : decode bytes with
  | ok reloaded => exact absurd (keepsParts_of_decode sound builtBy fit written reload) lost
  | error fault => exact ⟨fault, rfl⟩

/-- The bytes of a map of one header `GATE` without any other part. -/
def bareData : Bytes :=
  headersTag ++ [0, 0, 0, 173, 1, 0, 0, 0, 0, 0, 0, 0] ++ gateBlock 1 0 0 0 ++ endTag

def bareFile : MapFile := reached (decode bareData) ⟨[], [], []⟩

/-- The bare map rebuilt with a script that has these strings. -/
def bareRebuilt (strings : List String) : MapFile :=
  reached (bareFile.withCompiled [gateScript strings .empty]) ⟨[], [], []⟩

/-- Two strings that differ survive in a map that had none; one string alone does not. -/
theorem decode_encode_bare :
    decode (reached (bareRebuilt ["lock", "hi"]).encode []) = .ok (bareRebuilt ["lock", "hi"]) ∧
      ∃ fault, decode (reached (bareRebuilt ["lock"]).encode []) = .error fault := by
  have decoded : decode bareData = .ok bareFile := eq_ok_reached (by decide +kernel)
  have built (strings : List String)
      (succeeds : (bareFile.withCompiled [gateScript strings .empty]).isOk = true) :
      bareFile.withCompiled [gateScript strings .empty] = .ok (bareRebuilt strings) :=
    eq_ok_reached succeeds
  constructor
  · refine (decode_encode_withCompiled_of_missing decoded (by decide +kernel) (by decide +kernel)
      (built ["lock", "hi"] (by decide +kernel)) (eq_ok_reached (by decide +kernel))).1 ⟨?_, ?_, ?_⟩
    · intro _ _
      exact ⟨_, List.mem_singleton_self _, "lock", by decide, by decide⟩
    · intro _ _
      exact ⟨_, List.mem_singleton_self _, _, List.mem_singleton_self _, "lock", by decide, "hi",
        by decide, by decide⟩
    · intro _ _
      exact ⟨_, List.mem_singleton_self _, 5, by decide, by decide⟩
  · refine (decode_encode_withCompiled_of_missing decoded (by decide +kernel) (by decide +kernel)
      (built ["lock"] (by decide +kernel)) (eq_ok_reached (by decide +kernel))).2 fun keeps => ?_
    have two := keeps.offsets (by decide +kernel) ⟨_, List.mem_singleton_self _, by decide⟩
    simp [gateScript] at two

/-- A rebuilt map can be lost: of a map without offsets, a script with one string is accepted and
written, and the bytes cannot be read. -/
theorem decode_encode_bare_fails :
    decode bareData = .ok bareFile ∧ Record.payload? bareFile.records offsetsTag = none ∧
      (∀ header ∈ bareFile.headers, header.locals ≠ [] → 1 ≤ header.field .instances) ∧
      bareFile.withCompiled [gateScript ["lock"] .empty] = .ok (bareRebuilt ["lock"]) ∧
      ∃ bytes, (bareRebuilt ["lock"]).encode = .ok bytes ∧ (decode bytes).toOption = none := by
  refine ⟨eq_ok_reached (by decide +kernel), by decide +kernel, by decide +kernel,
    eq_ok_reached (by decide +kernel), reached (bareRebuilt ["lock"]).encode [],
    eq_ok_reached (by decide +kernel), by decide +kernel⟩

end MapFile

end MapScript
