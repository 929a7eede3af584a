/-
This file says what the numbers of a header block are after some of them were set.
Fields do not overlap, so setting a field changes that number and no other.
-/

import MapScript.Container.Header
import MapScript.Proofs.Attempt
import MapScript.Proofs.Bytes

namespace MapScript

/-! ### Places of fields -/

namespace HeaderField

/-- Two fields do not overlap. -/
theorem apart {first second : HeaderField} (different : first ≠ second) :
    first.start + first.width ≤ second.start ∨ second.start + second.width ≤ first.start := by
  cases first <;> cases second <;> first | exact absurd rfl different | decide

end HeaderField

namespace Header

/-! ### One field -/

/-- Setting a field writes its number over as many bytes of the block as the field has. -/
theorem withField_eq_ok {header new : Header} {field : HeaderField} {value : Int}
    (placed : header.withField field value = .ok new) :
    ∃ bytes, Bytes.unsigned? field.width value = some bytes ∧ bytes.length = field.width ∧
      field.start + bytes.length ≤ header.raw.length ∧
      new.raw = Bytes.overwrite header.raw field.start bytes := by
  unfold withField at placed
  split at placed
  · rename_i bytes packed
    cases placed
    have size := Bytes.length_of_unsigned? packed
    refine ⟨bytes, packed, size, ?_, rfl⟩
    rw [size, header.raw_length]
    exact field.start_add_width_le
  · cases placed

/-- The field that is set holds the number. -/
theorem field_withField_self {header new : Header} {field : HeaderField} {value : Int}
    (placed : header.withField field value = .ok new) : (new.field field : Int) = value := by
  obtain ⟨bytes, packed, size, inside, raw⟩ := withField_eq_ok placed
  rw [Header.field, raw, ← size, Bytes.part_overwrite_self inside]
  exact Bytes.little_of_unsigned? packed

/-- The other fields stay. -/
theorem field_withField_other {header new : Header} {field other : HeaderField} {value : Int}
    (placed : header.withField field value = .ok new) (different : other ≠ field) :
    new.field other = header.field other := by
  obtain ⟨bytes, packed, size, inside, raw⟩ := withField_eq_ok placed
  rw [Header.field, Header.field, raw]
  rcases HeaderField.apart different with before | behind
  · rw [Bytes.part_overwrite_before inside before]
  · rw [Bytes.part_overwrite_after inside (by rw [size]; exact behind)]

/-! ### Several fields -/

/-- A field that is not among those set stays. -/
theorem field_withFields_of_notMem {header new : Header} {values : List (HeaderField × Int)}
    (placed : header.withFields values = .ok new) {field : HeaderField}
    (absent : field ∉ values.map Prod.fst) : new.field field = header.field field := by
  refine foldlM_keeps (fun found : Header => found.field field = header.field field)
    (fun middle pair member next same set => ?_) rfl placed
  have other : field ≠ pair.1 := fun equal => absent (List.mem_map.mpr ⟨pair, member, equal.symm⟩)
  rw [field_withField_other set other, same]

/-- A field that is set once holds its number. -/
theorem field_withFields_of_mem {header new : Header} {values : List (HeaderField × Int)}
    (placed : header.withFields values = .ok new) (distinct : (values.map Prod.fst).Nodup)
    {field : HeaderField} {value : Int} (member : (field, value) ∈ values) :
    (new.field field : Int) = value := by
  induction values generalizing header with
  | nil => cases member
  | cons pair rest inductionHypothesis =>
    obtain ⟨middle, first, others⟩ := bind_eq_ok.mp placed
    rw [List.map_cons, List.nodup_cons] at distinct
    rcases List.mem_cons.mp member with rfl | inRest
    · rw [field_withFields_of_notMem others distinct.1, field_withField_self first]
    · exact inductionHypothesis others distinct.2 inRest

end Header

end MapScript
