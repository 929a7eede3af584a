/-
This file proves that a rebuild touches only what it owns. Of the records it replaces the
first of each tag that depends on scripts, and it adds records of such tags at the end where
the map has none; all others stay where they are, as they are. Of a header block it sets the
numbers that lead to the parts of the header, and no other byte.
-/

import MapScript.Proofs.Rebuild.Settled

namespace MapScript

/-! ### Records -/

/-- A record stays if its tag is not that of a new one, or if a record before it has the same
tag and is the one that is replaced. -/
theorem getElem?_replaceRecords {old new : List Record} {place : Nat} {record : Record}
    (found : old[place]? = some record)
    (kept : record.tag ∉ new.map Record.tag ∨ record.tag ∈ (old.take place).map Record.tag) :
    (replaceRecords old new)[place]? = some record := by
  induction old generalizing new place with
  | nil => cases found
  | cons first rest inductionHypothesis =>
    have none_iff : (new.find? fun other => other.tag == first.tag) = none ↔
        first.tag ∉ new.map Record.tag := by
      simp [List.find?_eq_none]
    rw [replaceRecords]
    cases place with
    | zero =>
      cases Option.some.inj found
      have absent : record.tag ∉ new.map Record.tag :=
        kept.resolve_right fun before => List.not_mem_nil before
      rw [none_iff.mpr absent]
      rfl
    | succ place =>
      rw [List.take_succ_cons, List.map_cons, List.mem_cons] at kept
      cases replaced : new.find? fun other => other.tag == first.tag with
      | none =>
        refine inductionHypothesis found ?_
        rcases kept with absent | same | before
        · exact .inl absent
        · exact .inl (same ▸ none_iff.mp replaced)
        · exact .inr before
      | some other =>
        refine inductionHypothesis found ?_
        rcases kept with absent | same | before
        · refine .inl fun member => absent ?_
          exact (List.filter_sublist.map Record.tag).subset member
        · refine .inl fun member => ?_
          obtain ⟨candidate, inside, equal⟩ := List.mem_map.mp member
          exact bne_iff_ne.mp (List.mem_filter.mp inside).2 (equal.trans same)
        · exact .inr before

/-- The tags stay in their order, and behind them come those of the new records that had no
place and hold something. -/
theorem map_tag_replaceRecords (old new : List Record) :
    (replaceRecords old new).map Record.tag =
      old.map Record.tag ++ (new.filter fun record =>
        !(old.map Record.tag).contains record.tag && record.payload.any (· != 0)).map
          Record.tag := by
  induction old generalizing new with
  | nil => simp [replaceRecords]
  | cons first rest inductionHypothesis =>
    rw [replaceRecords]
    split
    · rename_i other found
      have tag : other.tag = first.tag := by simpa using List.find?_some found
      rw [List.map_cons, List.map_cons, inductionHypothesis, tag, List.filter_filter,
        List.cons_append]
      congr 3
      refine List.filter_congr fun record _ => ?_
      by_cases same : record.tag = first.tag <;> simp [same]
    · rename_i missing
      rw [List.map_cons, List.map_cons, inductionHypothesis, List.cons_append]
      congr 3
      refine List.filter_congr fun record member => ?_
      have other : record.tag ≠ first.tag := by
        simpa using List.find?_eq_none.mp missing record member
      simp [other]

/-! ### Header blocks -/

namespace Bytes

/-- A byte outside of what is written over stays. -/
theorem getElem?_overwrite {bytes new : Bytes} {start place : Nat}
    (inside : start + new.length ≤ bytes.length)
    (outside : place < start ∨ start + new.length ≤ place) :
    (overwrite bytes start new)[place]? = bytes[place]? := by
  have front : (bytes.take start).length = start := by
    rw [List.length_take]
    omega
  rcases outside with before | behind
  · rw [overwrite, List.append_assoc, List.getElem?_append_left (by rw [front]; exact before),
      List.getElem?_take_of_lt before]
  · have past : (bytes.take start ++ new).length ≤ place := by
      rw [List.length_append, front]
      exact behind
    rw [overwrite, List.getElem?_append_right past, List.getElem?_drop, List.length_append, front,
      Nat.add_sub_cancel' behind]

end Bytes

/-- The bytes of a header block in which a number is written. -/
def HeaderField.Covers (field : HeaderField) (place : Nat) : Prop :=
  field.start ≤ place ∧ place < field.start + field.width

namespace Header

/-- The fields of a header that lead to its parts. Where there are no strings, or no
variables, there is no place for them either. -/
def partFields (header : Header) : List HeaderField :=
  [.codeLength, .codeOffset, .entry, .stringCount] ++
    (if header.strings.isEmpty then [] else [.stringIndex]) ++
    (if header.locals.isEmpty then [] else [.variableOffset])

/-- The blocks of two headers differ at most in the fields that lead to the parts of the
second. -/
def SameBut (old new : Header) : Prop :=
  ∀ place, (∀ field ∈ new.partFields, ¬field.Covers place) → new.raw[place]? = old.raw[place]?

theorem getElem?_withField {header new : Header} {field : HeaderField} {value : Int}
    (placed : header.withField field value = .ok new) {place : Nat}
    (outside : ¬field.Covers place) : new.raw[place]? = header.raw[place]? := by
  obtain ⟨bytes, -, size, inside, raw⟩ := withField_eq_ok placed
  rw [raw, Bytes.getElem?_overwrite inside]
  unfold HeaderField.Covers at outside
  rw [size]
  omega

/-- Setting fields changes no byte outside of them. -/
theorem getElem?_withFields {header new : Header} {values : List (HeaderField × Int)}
    (placed : header.withFields values = .ok new) {place : Nat}
    (outside : ∀ field ∈ values.map Prod.fst, ¬field.Covers place) :
    new.raw[place]? = header.raw[place]? := by
  refine foldlM_keeps (fun found : Header => found.raw[place]? = header.raw[place]?)
    (fun middle pair member next same set => ?_) rfl placed
  rw [getElem?_withField set (outside pair.1 (List.mem_map_of_mem member)), same]

end Header

namespace Rebuild

/-- Adding a header puts its block behind the others and changes it in the fields of its
parts only. -/
theorem add_sameBut {base : Nat} {state next : Rebuild} {old : Header} {compiled : Compiled}
    (added : add base state (old, compiled) = .ok next) :
    ∃ new, next.headers = state.headers ++ [new] ∧ old.SameBut new := by
  obtain ⟨-, -, locals, filled, block, placed, -, -, -, placedOk, rfl⟩ := add_eq_ok_iff.mp added
  refine ⟨_, rfl, fun place outside => Header.getElem?_withFields placedOk fun field member => ?_⟩
  have same : (fields base state compiled locals).map Prod.fst =
      [.codeLength, .codeOffset, .entry, .stringCount] ++
        (if compiled.strings.isEmpty then [] else [.stringIndex]) ++
        (if locals.isEmpty then [] else [.variableOffset]) := by
    unfold fields
    split <;> split <;> rfl
  rw [same] at member
  exact outside field member

/-- A run does so for every header, in the order of the table. -/
theorem run_sameBut {base : Nat} {pairs : List (Header × Compiled)} {state final : Rebuild}
    (run : pairs.foldlM (add base) state = .ok final) :
    ∃ new, final.headers = state.headers ++ new ∧ new.length = pairs.length ∧
      ∀ (place : Nat) (pair : Header × Compiled) (header : Header), pairs[place]? = some pair →
        new[place]? = some header → pair.1.SameBut header := by
  induction pairs generalizing state with
  | nil =>
    cases run
    exact ⟨[], (List.append_nil _).symm, rfl, fun _ _ _ missing => by cases missing⟩
  | cons pair rest inductionHypothesis =>
    rw [List.foldlM_cons] at run
    obtain ⟨next, step, run⟩ := bind_eq_ok.mp run
    obtain ⟨new, newHeaders, same⟩ := add_sameBut step
    obtain ⟨others, headers, length, sames⟩ := inductionHypothesis run
    refine ⟨new :: others, ?_, congrArg (· + 1) length, fun place found header foundPair foundNew => ?_⟩
    · rw [headers, newHeaders, List.append_assoc, List.singleton_append]
    · cases place with
      | zero =>
        cases Option.some.inj foundPair
        cases Option.some.inj foundNew
        exact same
      | succ place => exact sames place found header foundPair foundNew

end Rebuild

/-! ### Rebuilt maps -/

namespace MapFile

/-- What a rebuild leaves alone. Tags keep their order, and those that are added are tags of
parts that the map did not have. A record stays if it is no part that depends on scripts, or
not the first with its tag. The four bytes behind the count of the header table stay, and so
does every byte of a header block that is not in one of the fields of its parts. -/
structure Untouched (file rebuilt : MapFile) : Prop where
  tags : ∃ added, rebuilt.records.map Record.tag = file.records.map Record.tag ++ added ∧
    added.Nodup ∧ ∀ tag ∈ added, tag ∈ partTags ∧ tag ∉ file.records.map Record.tag
  records : ∀ (place : Nat) (record : Record), file.records[place]? = some record →
    record.tag ∉ partTags ∨ record.tag ∈ (file.records.take place).map Record.tag →
    rebuilt.records[place]? = some record
  trailer : rebuilt.trailer = file.trailer
  table : ∃ old new, Record.payload? file.records headersTag = some old ∧
    Record.payload? rebuilt.records headersTag = some new ∧
    (Bytes.part old 4 4).length = 4 ∧ Bytes.part new 4 4 = Bytes.part old 4 4
  count : rebuilt.headers.length = file.headers.length
  blocks : ∀ (place : Nat) (old new : Header), file.headers[place]? = some old →
    rebuilt.headers[place]? = some new → old.SameBut new

section Rebuilt

variable {file rebuilt : MapFile} {compiled : List Compiled} {state : Rebuild}

theorem map_tag_rebuilt (built : RebuiltBy file rebuilt compiled state) :
    ∃ added, rebuilt.records.map Record.tag = file.records.map Record.tag ++ added ∧
      added.Nodup ∧ ∀ tag ∈ added, tag ∈ partTags ∧ tag ∉ file.records.map Record.tag := by
  rw [built.records, map_tag_replaceRecords]
  refine ⟨_, rfl, Rebuild.nodup_recordTags.sublist (List.filter_sublist.map _), fun tag member => ?_⟩
  obtain ⟨record, inside, rfl⟩ := List.mem_map.mp member
  obtain ⟨new, condition⟩ := List.mem_filter.mp inside
  have absent := (Bool.and_eq_true_iff.mp condition).1
  refine ⟨List.mem_map.mpr ⟨record, new, rfl⟩, fun present => ?_⟩
  rw [List.contains_iff_mem.mpr present] at absent
  cases absent

theorem blocks_rebuilt (built : RebuiltBy file rebuilt compiled state) :
    rebuilt.headers.length = file.headers.length ∧
      ∀ (place : Nat) (old new : Header), file.headers[place]? = some old →
        rebuilt.headers[place]? = some new → old.SameBut new := by
  obtain ⟨new, headers, length, sames⟩ := Rebuild.run_sameBut built.run
  have newHeaders : rebuilt.headers = new := by
    rw [built.headers, headers]
    rfl
  rw [List.length_zip, built.lengths, Nat.min_self] at length
  refine ⟨newHeaders ▸ length, fun place old header foundOld foundNew => ?_⟩
  have below : place < compiled.length := by
    rw [built.lengths]
    exact (List.getElem?_eq_some_iff.mp foundOld).1
  refine sames place (old, compiled[place]) header ?_ (newHeaders ▸ foundNew)
  rw [List.getElem?_zip_eq_some]
  exact ⟨foundOld, List.getElem?_eq_getElem below⟩

end Rebuilt

/-- A rebuild of a map touches only what it owns. -/
theorem withCompiled_untouched {data : Bytes} {file rebuilt : MapFile} {compiled : List Compiled}
    (decoded : decode data = .ok file) (built : file.withCompiled compiled = .ok rebuilt) :
    Untouched file rebuilt := by
  obtain ⟨state, builtBy⟩ := withCompiled_eq_ok built
  have consistent := consistent_of_decode decoded
  obtain ⟨table, found, holds⟩ := consistent.table
  obtain ⟨count, blocks⟩ := blocks_rebuilt builtBy
  refine ⟨map_tag_rebuilt builtBy, fun place record here kept => ?_, builtBy.trailer,
    ⟨table, _, found, builtBy.headerTable found, holds.length_mark, ?_⟩, count, blocks⟩
  · rw [builtBy.records]
    exact getElem?_replaceRecords here kept
  · have mark := tableMark_rebuilt consistent builtBy
    rw [tableMark, tableMark, found, builtBy.headerTable found] at mark
    exact mark

/-- The tag of a record that has nothing to do with scripts. -/
def moatTag : Bytes := [0x4D, 0x50, 0x4F, 0x42]

/-- The bytes of a map of one header with neither strings nor variables. Between its records
stands one that no script needs, and its code pool is followed by a second one. -/
def moatData : Bytes :=
  moatTag ++ [0, 0, 0, 2, 3, 1] ++
    headersTag ++ [0, 0, 0, 173, 1, 0, 0, 0, 9, 8, 7, 6] ++ gateBlock 1 0 1 0 ++
    codeTag ++ [0, 0, 0, 3, 0, 0, 0x12] ++ moatTag ++ [0, 0, 0, 0] ++
    codeTag ++ [0, 0, 0, 1, 4] ++ endTag ++ [5]

def moatFile : MapFile := reached (decode moatData) ⟨[], [], []⟩

def moatRebuilt : MapFile := reached (moatFile.withCompiled [gateScript [] .empty]) ⟨[], [], []⟩

/-- New code takes the place of the first code pool, and attributes are added. Strings and
variables have no place in the new block, so the bytes where one would stand are kept. -/
theorem withCompiled_untouched_moat :
    decode moatData = .ok moatFile ∧
      moatFile.withCompiled [gateScript [] .empty] = .ok moatRebuilt ∧
      moatRebuilt.records.map Record.tag =
        [moatTag, headersTag, codeTag, moatTag, codeTag, attributesTag] ∧
      moatRebuilt.records[2]? = some ⟨codeTag, [0, 0, 5, 0, 0]⟩ ∧
      moatRebuilt.records[4]? = some ⟨codeTag, [4]⟩ ∧
      moatRebuilt.headers.map Header.partFields =
        [[.codeLength, .codeOffset, .entry, .stringCount]] ∧
      Untouched moatFile moatRebuilt := by
  have decoded : decode moatData = .ok moatFile := eq_ok_reached (by decide +kernel)
  have built : moatFile.withCompiled [gateScript [] .empty] = .ok moatRebuilt :=
    eq_ok_reached (by decide +kernel)
  exact ⟨decoded, built, by decide +kernel, by decide +kernel, by decide +kernel,
    by decide +kernel, withCompiled_untouched decoded built⟩

end MapFile

end MapScript
