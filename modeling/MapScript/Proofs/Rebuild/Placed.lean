/-
This file says what becomes of the parts of a rebuild when they are put among the
records of a map. A part that the map had takes the place of the old one; a part that
the map lacked is kept if it holds a byte that is not zero. When a part is all zero
depends on the scripts, and is settled here for strings and their offsets.
-/

import MapScript.Proofs.Rebuild.Parts

namespace MapScript

/-! ### Records put in place -/

theorem payload?_cons_self (record : Record) (rest : List Record) :
    Record.payload? (record :: rest) record.tag = some record.payload := by
  simp [Record.payload?]

theorem payload?_cons_other {record : Record} {tag : Bytes} (different : record.tag ≠ tag)
    (rest : List Record) :
    Record.payload? (record :: rest) tag = Record.payload? rest tag := by
  simp [Record.payload?, different]

theorem payload?_filter {new : List Record}
    (distinct : (new.map Record.tag).Nodup) (tag : Bytes) (keep : Record → Bool) :
    Record.payload? (new.filter keep) tag =
      ((new.find? fun record => record.tag == tag).filter keep).map Record.payload := by
  induction new with
  | nil => rfl
  | cons record rest inductionHypothesis =>
    rw [List.map_cons, List.nodup_cons] at distinct
    have others := inductionHypothesis distinct.2
    by_cases same : record.tag = tag
    · subst same
      have absent : (rest.find? fun other => other.tag == record.tag) = none := by
        rw [List.find?_eq_none]
        intro other member equal
        exact distinct.1 (List.mem_map.mpr ⟨other, member, by simpa using equal⟩)
      rw [absent] at others
      by_cases kept : keep record = true
      · rw [List.filter_cons_of_pos kept, payload?_cons_self, List.find?_cons_of_pos (by simp),
          Option.filter_some, if_pos kept]
        rfl
      · rw [List.filter_cons_of_neg kept, others, List.find?_cons_of_pos (by simp),
          Option.filter_some, if_neg kept]
        rfl
    · rw [List.find?_cons_of_neg (by simpa using same), ← others]
      by_cases kept : keep record = true
      · rw [List.filter_cons_of_pos kept, payload?_cons_other same]
      · rw [List.filter_cons_of_neg kept]

/-- What becomes of a new payload: it is kept if its tag had a record before, or if it
holds a byte that is not zero. -/
def keptPayload (old : List Record) (tag payload : Bytes) : Option Bytes :=
  if (Record.payload? old tag).isSome || payload.any (· != 0) then some payload else none

/-- The payload that a tag has after new records were put in place. -/
theorem payload?_replaceRecords {old new : List Record} (distinct : (new.map Record.tag).Nodup)
    {tag : Bytes} {record : Record} (found : new.find? (fun other => other.tag == tag) = some record) :
    Record.payload? (replaceRecords old new) tag = keptPayload old tag record.payload := by
  unfold keptPayload
  induction old generalizing new with
  | nil =>
    rw [replaceRecords, payload?_filter distinct, found, Option.filter_some]
    by_cases filled : record.payload.any (· != 0) = true
    · rw [if_pos filled, filled, Bool.or_true]
      rfl
    · rw [if_neg filled, Bool.eq_false_iff.mpr filled]
      rfl
  | cons first rest inductionHypothesis =>
    rw [replaceRecords]
    by_cases same : first.tag = tag
    · subst same
      have recordTag : record.tag = first.tag := by simpa using List.find?_some found
      rw [found, payload?_cons_self first rest]
      simp only [← recordTag, payload?_cons_self]
      rfl
    · rw [payload?_cons_other same]
      split
      · rename_i other otherFound
        have otherTag : other.tag = first.tag := by simpa using List.find?_some otherFound
        rw [payload?_cons_other (by rw [otherTag]; exact same)]
        apply inductionHypothesis
        · exact distinct.sublist (List.Sublist.map _ List.filter_sublist)
        · rw [List.find?_filter, ← found]
          congr 1
          funext candidate
          by_cases equal : candidate.tag = tag
          · simp [equal, Ne.symm same]
          · simp [equal]
      · rw [payload?_cons_other same]
        exact inductionHypothesis distinct found

theorem find?_of_mem_nodup {new : List Record} (distinct : (new.map Record.tag).Nodup)
    {record : Record} (member : record ∈ new) :
    new.find? (fun other => other.tag == record.tag) = some record := by
  induction new with
  | nil => cases member
  | cons first rest inductionHypothesis =>
    rw [List.map_cons, List.nodup_cons] at distinct
    rcases List.mem_cons.mp member with rfl | inRest
    · exact List.find?_cons_of_pos (by simp)
    · have different : first.tag ≠ record.tag := fun same =>
        distinct.1 (same ▸ List.mem_map.mpr ⟨record, inRest, rfl⟩)
      rw [List.find?_cons_of_neg (by simpa using different), inductionHypothesis distinct.2 inRest]

theorem mem_replaceRecords {old new : List Record} {record : Record}
    (member : record ∈ replaceRecords old new) : record ∈ old ∨ record ∈ new := by
  induction old generalizing new with
  | nil =>
    rw [replaceRecords] at member
    exact Or.inr ((List.mem_filter.mp member).1)
  | cons first rest inductionHypothesis =>
    rw [replaceRecords] at member
    split at member
    · rename_i other otherFound
      rcases List.mem_cons.mp member with rfl | inRest
      · exact Or.inr (List.mem_of_find?_eq_some otherFound)
      · rcases inductionHypothesis inRest with inOld | inNew
        · exact Or.inl (List.mem_cons_of_mem _ inOld)
        · exact Or.inr ((List.mem_filter.mp inNew).1)
    · rcases List.mem_cons.mp member with rfl | inRest
      · exact Or.inl List.mem_cons_self
      · rcases inductionHypothesis inRest with inOld | inNew
        · exact Or.inl (List.mem_cons_of_mem _ inOld)
        · exact Or.inr inNew

theorem mem_of_payload? {records : List Record} {tag payload : Bytes}
    (found : Record.payload? records tag = some payload) :
    ∃ record ∈ records, record.payload = payload := by
  obtain ⟨record, recordFound, same⟩ := Option.map_eq_some_iff.mp found
  exact ⟨record, List.mem_of_find?_eq_some recordFound, same⟩

/-! ### The parts of a rebuilt map -/

namespace Rebuild

variable {state : Rebuild} {base : Nat} {mark : Bytes}

theorem nodup_recordTags : ((state.records base mark).map Record.tag).Nodup := by
  show [headersTag, stringsTag, offsetsTag, variablesTag, codeTag, attributesTag].Nodup
  decide

theorem tagged_records {record : Record} (member : record ∈ state.records base mark) :
    record.Tagged := by
  simp only [records, List.mem_cons, List.not_mem_nil, or_false] at member
  rcases member with rfl | rfl | rfl | rfl | rfl | rfl <;>
    refine ⟨rfl, ?_⟩ <;>
    simp [endTag, headersTag, stringsTag, offsetsTag, variablesTag, codeTag, attributesTag]

theorem payload?_rebuilt (old : List Record) {record : Record}
    (member : record ∈ state.records base mark) :
    Record.payload? (replaceRecords old (state.records base mark)) record.tag =
      keptPayload old record.tag record.payload :=
  payload?_replaceRecords nodup_recordTags (find?_of_mem_nodup nodup_recordTags member)

/-- The pools of a rebuilt map. -/
theorem ofRecords_replaceRecords (old : List Record) :
    Pools.ofRecords (replaceRecords old (state.records base mark)) =
      { texts := (keptPayload old stringsTag state.texts).getD []
        offsets := (keptPayload old offsetsTag state.offsets).getD []
        locals := signedWords ((keptPayload old variablesTag state.locals).getD [])
        code := (keptPayload old codeTag (List.replicate base 0 ++ state.code)).getD []
        attributes := keptPayload old attributesTag state.attributes } := by
  have part (tag payload : Bytes) (member : ⟨tag, payload⟩ ∈ state.records base mark) :
      Record.payload? (replaceRecords old (state.records base mark)) tag =
        keptPayload old tag payload :=
    payload?_rebuilt old member
  rw [Pools.ofRecords, part _ state.texts (by simp [records]),
    part _ state.offsets (by simp [records]),
    part _ state.locals (by simp [records]),
    part _ (List.replicate base 0 ++ state.code) (by simp [records]),
    part _ state.attributes (by simp [records])]

theorem keptPayload_eq_none_iff {old : List Record} {tag payload : Bytes} :
    keptPayload old tag payload = none ↔
      Record.payload? old tag = none ∧ ∀ byte ∈ payload, byte = 0 := by
  simp [keptPayload]

theorem keptPayload_eq_some {old : List Record} {tag payload kept : Bytes}
    (found : keptPayload old tag payload = some kept) : kept = payload := by
  unfold keptPayload at found
  split at found
  · exact (Option.some.inj found).symm
  · cases found

/-! ### Parts that are all zero -/

/-- A text that is not empty leaves a byte that is not zero in the pool. -/
theorem TextAt.exists_nonzero {texts : Bytes} {text : String} {place : Nat}
    (stands : TextAt texts text place) (filled : text ≠ "") : ∃ byte ∈ texts, byte ≠ 0 := by
  obtain ⟨bytes, packed, noZero, stored⟩ := stands
  have some : bytes ≠ [] := by
    rintro rfl
    apply filled
    rw [← Bytes.toText_of_ofText? packed]
    rfl
  obtain ⟨byte, rest, rfl⟩ := List.exists_cons_of_ne_nil some
  refine ⟨byte, ?_, fun zero => noZero (zero ▸ List.mem_cons_self)⟩
  exact List.mem_of_mem_drop (stored.subset List.mem_cons_self)

/-- If all strings are empty, the string pool is all zero. -/
theorem run_texts_zero {pairs : List (Header × Compiled)} {final : Rebuild}
    (empty : ∀ pair ∈ pairs, ∀ text ∈ pair.2.strings, text = "")
    (run : pairs.foldlM (add base) start = .ok final) : ∀ byte ∈ final.texts, byte = 0 := by
  refine run_strings_keep (fun texts _ _ => ∀ byte ∈ texts, byte = 0) ?_ ?_ run
  · intro before pair member text used after zero added
    rw [empty pair member text used] at added
    rcases addString_eq_ok added with ⟨place, -, -, rfl⟩ | ⟨bytes, -, packed, -, rfl⟩
    · exact zero
    · have none : bytes = [] := by
        rw [Bytes.ofText?, String.toList_empty, Bytes.ofChars?, List.mapM_nil] at packed
        exact (Option.some.inj packed).symm
      intro byte member
      rw [none, List.append_nil, List.mem_append, List.mem_singleton] at member
      exact member.elim (zero byte) id
  · intro byte member
    cases member

/-- If all strings are the same, every offset is zero. -/
theorem run_offsets_zero {pairs : List (Header × Compiled)} {final : Rebuild} (single : String)
    (same : ∀ pair ∈ pairs, ∀ text ∈ pair.2.strings, text = single)
    (run : pairs.foldlM (add base) start = .ok final) : ∀ byte ∈ final.offsets, byte = 0 := by
  have zeros : ∀ byte ∈ Bytes.ofNatLittle 4 0, byte = 0 := forall_mem_of_all (by decide)
  refine (run_strings_keep (fun texts places offsets =>
    (∀ byte ∈ offsets, byte = 0) ∧ (∀ place, places.find? single = some place → place = 0) ∧
      (places.find? single = none → texts = [])) ?_ ?_ run).1
  · rintro before pair member text used after ⟨zero, first, fresh⟩ added
    rw [same pair member text used] at added
    rcases addString_eq_ok added with ⟨place, known, -, rfl⟩ | ⟨bytes, unknown, -, -, rfl⟩
    · refine ⟨?_, first, fresh⟩
      intro byte inside
      rw [first place known, List.mem_append] at inside
      exact inside.elim (zero byte) (zeros byte)
    · rw [fresh unknown]
      refine ⟨?_, ?_, ?_⟩
      · intro byte inside
        rw [List.mem_append] at inside
        exact inside.elim (zero byte) (zeros byte)
      · intro place found
        rw [Registry.find?_put_self] at found
        exact (Option.some.inj found).symm
      · intro missing
        rw [Registry.find?_put_self] at missing
        cases missing
  · refine ⟨?_, ?_, fun _ => rfl⟩
    · intro byte member
      cases member
    · intro place found
      cases found

theorem exists_nonzero_ofNatLittle {place : Nat} (fits : place < Bytes.range 4)
    (nonzero : place ≠ 0) : ∃ byte ∈ Bytes.ofNatLittle 4 place, byte ≠ 0 := by
  refine Classical.byContradiction fun none => nonzero ?_
  have zero : ∀ byte ∈ Bytes.ofNatLittle 4 place, byte = 0 := fun byte member =>
    Classical.byContradiction fun some => none ⟨byte, member, some⟩
  rw [← Bytes.little_ofNatLittle fits, Bytes.little_eq_zero zero]

end Rebuild

end MapScript
