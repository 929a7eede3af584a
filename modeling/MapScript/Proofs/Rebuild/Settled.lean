/-
This file proves that one rebuild settles a map. A rebuild writes down where it put the
parts of each header and lays all parts out in the order of the table, so rebuilding the
result from the scripts that its own headers carry goes through the same states: every
header block already holds the numbers that are written into it, every pool grows by the
same bytes, and every record is already where it is put. Nothing is asked of the map but a
header table; it may lack parts, have several records of one tag, or have headers without
instances.
-/

import MapScript.Proofs.Rebuild.Histories

namespace MapScript

/-! ### Numbers that are there already -/

namespace Bytes

/-- The number that bytes hold is packed to these bytes. -/
theorem unsigned?_little (bytes : Bytes) :
    unsigned? bytes.length (little bytes) = some bytes := by
  have fits := little_lt_range bytes
  rw [unsigned?, if_pos ⟨Int.natCast_nonneg _, Int.ofNat_lt.mpr fits⟩, Int.toNat_natCast,
    ofNatLittle_little]

/-- Writing over a part what stands there changes nothing. -/
theorem overwrite_part {bytes : Bytes} {start size : Nat} (inside : start + size ≤ bytes.length) :
    overwrite bytes start (part bytes start size) = bytes := by
  have length : (part bytes start size).length = size := by
    rw [length_part]
    omega
  rw [overwrite, length, part, List.append_assoc, ← List.drop_drop, List.take_append_drop,
    List.take_append_drop]

end Bytes

namespace Header

/-- Setting a field to the number that it holds changes nothing. -/
theorem withField_held {header : Header} {field : HeaderField} {value : Int}
    (held : (header.field field : Int) = value) : header.withField field value = .ok header := by
  have inside : field.start + field.width ≤ header.raw.length := by
    rw [header.raw_length]
    exact field.start_add_width_le
  have packed := Bytes.unsigned?_little (Bytes.part header.raw field.start field.width)
  have size : (Bytes.part header.raw field.start field.width).length = field.width := by
    rw [Bytes.length_part]
    omega
  rw [size,
    show (Bytes.little (Bytes.part header.raw field.start field.width) : Int) = value from held]
    at packed
  unfold withField
  split
  · rename_i bytes found
    cases packed.symm.trans found
    exact congrArg Except.ok (ext_parts (Bytes.overwrite_part inside) rfl rfl rfl rfl)
  · rename_i missing
    cases packed.symm.trans missing

/-- Setting fields to the numbers that they hold changes nothing. -/
theorem withFields_held {header : Header} {values : List (HeaderField × Int)}
    (held : ∀ pair ∈ values, (header.field pair.1 : Int) = pair.2) :
    header.withFields values = .ok header := by
  induction values with
  | nil => rfl
  | cons pair rest inductionHypothesis =>
    obtain ⟨here, others⟩ := List.forall_mem_cons.mp held
    rw [withFields, List.foldlM_cons, withField_held here, ok_bind]
    exact inductionHypothesis others

/-- What a header carries, as a script for it that sets no variables. -/
def own (header : Header) : Compiled :=
  { name := header.name
    code := header.code
    entry := header.field .entry
    strings := header.strings
    attributes := header.attributes
    locals := .empty
    labels := .empty }

end Header

/-! ### Headers that are added again -/

namespace Rebuild

/-- A header that was added with a script is added again with its own script, to the same
state and with the same effect. -/
theorem add_own {base : Nat} {state next : Rebuild} {old : Header} {compiled : Compiled}
    (added : add base state (old, compiled) = .ok next) :
    ∃ new, next.headers = state.headers ++ [new] ∧
      new.field .codeOffset = base + state.code.length ∧
      add base state (new, new.own) = .ok next := by
  obtain ⟨named, attributeSize, locals, filled, block, placed, -, stringsOk, packed, placedOk, rfl⟩ :=
    add_eq_ok_iff.mp added
  have distinct := nodup_fields base state compiled locals
  have set {field : HeaderField} {value : Int}
      (member : (field, value) ∈ fields base state compiled locals) :
      (placed.field field : Int) = value :=
    Header.field_withFields_of_mem placedOk distinct member
  have instances : placed.field .instances = old.field .instances := by
    refine Header.field_withFields_of_notMem placedOk ?_
    unfold fields
    split <;> split <;> simp
  have entry : (placed.field .entry : Int) = compiled.entry := set (by simp [fields])
  let new : Header := { placed with
    strings := compiled.strings
    locals := locals
    attributes := compiled.attributes
    code := compiled.code }
  -- The block of the new header holds the very numbers that its own script asks for.
  have asked : fields base state new.own locals = fields base state compiled locals := by
    show (_ : List (HeaderField × Int)) ++ _ ++ _ = _
    rw [show new.own.entry = compiled.entry from entry]
    rfl
  refine ⟨new, rfl, Int.ofNat.inj (set (by simp [fields])), add_eq_ok_iff.mpr ?_⟩
  refine ⟨rfl, attributeSize, locals, filled, block, new, rfl, stringsOk, ?_, ?_, rfl⟩
  · rw [show new.field .instances = old.field .instances from instances]
    exact packed
  · rw [asked]
    exact Header.withFields_held fun pair member => set member

/-- A whole run is gone through again with the headers that it added and their own scripts.
The first of these starts its code at the place where the run started. -/
theorem run_own {base : Nat} {pairs : List (Header × Compiled)} {state final : Rebuild}
    (run : pairs.foldlM (add base) state = .ok final) :
    ∃ new, final.headers = state.headers ++ new ∧ new.length = pairs.length ∧
      (∀ first ∈ new.head?, first.field .codeOffset = base + state.code.length) ∧
      (new.map fun header => (header, header.own)).foldlM (add base) state = .ok final := by
  induction pairs generalizing state with
  | nil =>
    refine ⟨[], ?_, rfl, fun _ none => absurd none (Option.not_mem_none _), run⟩
    cases run
    exact (List.append_nil _).symm
  | cons pair rest inductionHypothesis =>
    rw [List.foldlM_cons] at run
    obtain ⟨next, step, run⟩ := bind_eq_ok.mp run
    obtain ⟨new, newHeaders, codeOffset, again⟩ := add_own step
    obtain ⟨others, headers, length, -, runAgain⟩ := inductionHypothesis run
    refine ⟨new :: others, ?_, congrArg (· + 1) length, ?_, ?_⟩
    · rw [headers, newHeaders, List.append_assoc, List.singleton_append]
    · intro first head
      cases Option.mem_some.mp head
      exact codeOffset
    · rw [List.map_cons, List.foldlM_cons, again, ok_bind, runAgain]

end Rebuild

/-! ### Records that are in place already -/

/-- A record that is all zero and has no place leaves no trace. -/
theorem replaceRecords_cons_zero {record : Record}
    (zero : record.payload.any (· != 0) = false) {old : List Record}
    (noPlace : record.tag ∉ old.map Record.tag) (new : List Record) :
    replaceRecords old (record :: new) = replaceRecords old new := by
  induction old generalizing new with
  | nil => rw [replaceRecords, replaceRecords, List.filter_cons_of_neg (by rw [zero]; decide)]
  | cons first rest inductionHypothesis =>
    rw [List.map_cons, List.mem_cons, not_or] at noPlace
    have other : (record.tag == first.tag) = false := beq_eq_false_iff_ne.mpr noPlace.1
    have kept : (record.tag != first.tag) = true := bne_iff_ne.mpr noPlace.1
    rw [replaceRecords, replaceRecords, List.find?_cons_of_neg (by rw [other]; decide),
      List.filter_cons, if_pos kept]
    split
    · rw [inductionHypothesis noPlace.2]
    · rw [inductionHypothesis noPlace.2]

/-- Records that came last are put in their own places, and what was left out is left out
again. -/
theorem replaceRecords_filter {new : List Record} (distinct : (new.map Record.tag).Nodup) :
    replaceRecords (new.filter fun record => record.payload.any (· != 0)) new =
      new.filter fun record => record.payload.any (· != 0) := by
  induction new with
  | nil => rfl
  | cons record rest inductionHypothesis =>
    obtain ⟨fresh, distinct⟩ := List.nodup_cons.mp distinct
    by_cases filled : record.payload.any (· != 0) = true
    · have others : (record :: rest).filter (fun other => other.tag != record.tag) = rest := by
        rw [List.filter_cons_of_neg (by simp)]
        refine List.filter_eq_self.mpr fun other member => bne_iff_ne.mpr fun same => ?_
        exact fresh (same ▸ List.mem_map.mpr ⟨other, member, rfl⟩)
      rw [List.filter_cons, if_pos filled, replaceRecords, List.find?_cons_of_pos (by simp)]
      simp only [others, inductionHypothesis distinct]
    · rw [List.filter_cons, if_neg filled, replaceRecords_cons_zero (Bool.eq_false_iff.mpr filled),
        inductionHypothesis distinct]
      intro placed
      obtain ⟨other, member, same⟩ := List.mem_map.mp placed
      exact fresh (same ▸ List.mem_map.mpr ⟨other, (List.mem_filter.mp member).1, rfl⟩)

/-- Putting records in place a second time changes nothing: each stands where it is put. -/
theorem replaceRecords_replaceRecords {old new : List Record}
    (distinct : (new.map Record.tag).Nodup) :
    replaceRecords (replaceRecords old new) new = replaceRecords old new := by
  induction old generalizing new with
  | nil => exact replaceRecords_filter distinct
  | cons first rest inductionHypothesis =>
    rw [replaceRecords]
    split
    · rename_i other found
      have tag : other.tag = first.tag := by simpa using List.find?_some found
      rw [replaceRecords, tag, found]
      simp only
      rw [inductionHypothesis (distinct.sublist (List.Sublist.map _ List.filter_sublist))]
    · rename_i missing
      rw [replaceRecords, missing]
      simp only
      rw [inductionHypothesis distinct]

/-! ### Maps that are rebuilt from themselves -/

namespace MapFile

section Rebuilt

variable {file rebuilt : MapFile} {compiled : List Compiled} {state : Rebuild}

/-- A rebuild keeps the four bytes behind the count of the header table. -/
theorem tableMark_rebuilt (consistent : file.Consistent)
    (built : RebuiltBy file rebuilt compiled state) : tableMark rebuilt = tableMark file := by
  obtain ⟨table, found, holds⟩ := consistent.table
  have four : (tableMark file).length = 4 := by
    rw [tableMark, found]
    exact holds.length_mark
  have middle := Bytes.part_middle (Bytes.ofNatLittle 4 rebuilt.headers.length) (tableMark file)
    (rebuilt.headers.map Header.raw).flatten
  rw [Bytes.length_ofNatLittle, four] at middle
  rw [tableMark, built.headerTable found]
  exact middle

/-- A rebuild does not move the place where the code of the first header starts. -/
theorem codeBase_rebuilt (built : RebuiltBy file rebuilt compiled state) :
    codeBase rebuilt.headers = codeBase file.headers := by
  obtain ⟨new, headers, length, starts, -⟩ := Rebuild.run_own built.run
  have newHeaders : rebuilt.headers = new := by
    rw [built.headers, headers]
    rfl
  have count : new.length = file.headers.length := by
    rw [length, List.length_zip, built.lengths, Nat.min_self]
  rw [newHeaders]
  cases new with
  | nil => rw [List.eq_nil_of_length_eq_zero count.symm]
  | cons first rest => exact starts first rfl

/-- Rebuilding a rebuilt map from its own scripts runs through the same states. -/
theorem run_rebuilt (built : RebuiltBy file rebuilt compiled state) :
    (rebuilt.headers.zip (rebuilt.headers.map Header.own)).foldlM
      (Rebuild.add (codeBase file.headers)) .start = .ok state := by
  obtain ⟨new, headers, -, -, again⟩ := Rebuild.run_own built.run
  have newHeaders : rebuilt.headers = new := by
    rw [built.headers, headers]
    rfl
  rw [newHeaders, ← List.map_prod_left_eq_zip]
  exact again

end Rebuilt

/-- One rebuild settles a map: rebuilding the result from the scripts that its headers carry
succeeds and gives the same records, headers and trailer. -/
theorem withCompiled_own_rebuilt {data : Bytes} {file rebuilt : MapFile}
    {compiled : List Compiled} (decoded : decode data = .ok file)
    (built : file.withCompiled compiled = .ok rebuilt) :
    rebuilt.withCompiled (rebuilt.headers.map Header.own) = .ok rebuilt := by
  obtain ⟨state, builtBy⟩ := withCompiled_eq_ok built
  have mark := tableMark_rebuilt (consistent_of_decode decoded) builtBy
  have records : replaceRecords rebuilt.records
      (state.records (codeBase file.headers) (tableMark file)) = rebuilt.records := by
    rw [builtBy.records]
    exact replaceRecords_replaceRecords Rebuild.nodup_recordTags
  unfold withCompiled
  rw [if_neg (not_not_intro (List.length_map _)), codeBase_rebuilt builtBy]
  simp only
  rw [run_rebuilt builtBy, ok_bind]
  show Except.ok (MapFile.mk (replaceRecords rebuilt.records
    (state.records (codeBase file.headers) (tableMark rebuilt))) state.headers rebuilt.trailer) = _
  rw [mark, records, ← builtBy.headers]

/-- The bytes of a map of one header with a variable and no instance. It has two variable
pools, of which the second counts for nothing, no other part, and a trailer. -/
def twinData : Bytes :=
  headersTag ++ [0, 0, 0, 173, 1, 0, 0, 0, 9, 8, 7, 6] ++ gateBlock 0 0 0 1 ++
    variablesTag ++ [0, 0, 0, 8, 0, 0, 0, 0, 7, 0, 0, 0] ++
    variablesTag ++ [0, 0, 0, 3, 1, 2, 3] ++ endTag ++ [5]

def twinFile : MapFile := reached (decode twinData) ⟨[], [], []⟩

/-- The same map with a script that has one string and sets the variable. -/
def twinRebuilt : MapFile :=
  reached (twinFile.withCompiled [gateScript ["lock"] (Registry.empty.put 0 (-3))]) ⟨[], [], []⟩

/-- Three of the missing parts are added by the first rebuild, and the offsets, which are all
zero, are left out; a second rebuild leaves all of that as it is. -/
theorem withCompiled_own_twin :
    decode twinData = .ok twinFile ∧
      twinFile.withCompiled [gateScript ["lock"] (Registry.empty.put 0 (-3))] = .ok twinRebuilt ∧
      twinFile.records.map Record.tag = [headersTag, variablesTag, variablesTag] ∧
      twinRebuilt.records.map Record.tag =
        [headersTag, variablesTag, variablesTag, stringsTag, codeTag, attributesTag] ∧
      twinRebuilt.headers.map Header.locals = [[-3]] ∧
      twinRebuilt.withCompiled (twinRebuilt.headers.map Header.own) = .ok twinRebuilt := by
  have decoded : decode twinData = .ok twinFile := eq_ok_reached (by decide +kernel)
  have built : twinFile.withCompiled [gateScript ["lock"] (Registry.empty.put 0 (-3))] =
      .ok twinRebuilt := eq_ok_reached (by decide +kernel)
  exact ⟨decoded, built, by decide +kernel, by decide +kernel, by decide +kernel,
    withCompiled_own_rebuilt decoded built⟩

end MapFile

end MapScript
