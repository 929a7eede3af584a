/-
This file says what settings restore. The text of a header sets the variables that may be
edited and the attributes that are not zero; entered one after the other, they give back
these variables, and all attributes.
-/

import MapScript.Code.Compile
import MapScript.Proofs.MapFiles
import MapScript.Proofs.Script.Prefaces

namespace MapScript

/-! ### Variables -/

theorem find?_enterLocals_of_forall_ne {settings : List (Nat × Int)} {key : Int}
    (absent : ∀ setting ∈ settings, key ≠ (setting.1 : Int)) (locals : Registry Int Int) :
    (enterLocals settings locals).find? key = locals.find? key := by
  induction settings generalizing locals with
  | nil => rfl
  | cons setting rest inductionHypothesis =>
    obtain ⟨here, others⟩ := List.forall_mem_cons.mp absent
    exact (inductionHypothesis others _).trans (Registry.find?_put_other locals here _)

/-- A variable that is set, always to the same value, has that value. -/
theorem find?_enterLocals_of_mem {settings : List (Nat × Int)} {place : Nat} {value : Int}
    (member : (place, value) ∈ settings)
    (single : ∀ other, (place, other) ∈ settings → other = value) (locals : Registry Int Int) :
    (enterLocals settings locals).find? place = some value := by
  induction settings generalizing locals with
  | nil => cases member
  | cons setting rest inductionHypothesis =>
    show (enterLocals rest (locals.put setting.1 setting.2)).find? place = some value
    by_cases later : ∃ other, (place, other) ∈ rest
    · obtain ⟨other, there⟩ := later
      have same := single other (List.mem_cons_of_mem _ there)
      subst same
      exact inductionHypothesis there
        (fun other inside => single other (List.mem_cons_of_mem _ inside)) _
    · have here : setting = (place, value) := by
        rcases List.mem_cons.mp member with same | inRest
        · exact same.symm
        · exact absurd ⟨value, inRest⟩ later
      rw [find?_enterLocals_of_forall_ne, here, Registry.find?_put_self]
      intro other inside same
      exact later ⟨other.2, by rw [Int.ofNat.inj same]; exact inside⟩

/-- The variables that may be edited are all but the first two and the last two. -/
theorem mem_editableVariables {locals : List Int} {place : Nat} {value : Int} :
    (place, value) ∈ editableVariables locals ↔
      2 ≤ place ∧ place + 2 < locals.length ∧ locals[place]? = some value := by
  unfold editableVariables
  split
  · constructor
    · intro member
      cases member
    · omega
  · rw [List.mem_iff_getElem?]
    simp only [List.getElem?_take, List.getElem?_drop, List.getElem?_mapIdx]
    constructor
    · rintro ⟨index, found⟩
      split at found
      · obtain ⟨held, there, same⟩ := Option.map_eq_some_iff.mp found
        cases same
        exact ⟨by omega, by omega, there⟩
      · cases found
    · rintro ⟨low, high, there⟩
      refine ⟨place - 2, ?_⟩
      rw [if_pos (by omega), Nat.add_sub_cancel' low, there]
      rfl

/-- The variables that a text sets are those that may be edited. -/
theorem find?_enterLocals_editable (locals : List Int) (index : Int) :
    (enterLocals (editableVariables locals) .empty).find? index =
      if 2 ≤ index ∧ index + 2 < locals.length then locals[index.toNat]? else none := by
  split
  · rename_i inside
    have short : index.toNat < locals.length := by omega
    have same : index = (index.toNat : Int) := by omega
    have member : (index.toNat, locals[index.toNat]) ∈ editableVariables locals :=
      mem_editableVariables.mpr ⟨by omega, by omega, List.getElem?_eq_getElem short⟩
    rw [same, Int.toNat_natCast, List.getElem?_eq_getElem short]
    refine find?_enterLocals_of_mem member (fun other there => ?_) _
    have found := (mem_editableVariables.mp there).2.2
    rw [List.getElem?_eq_getElem short] at found
    exact (Option.some.inj found).symm
  · rename_i outside
    refine (find?_enterLocals_of_forall_ne ?_ _).trans rfl
    intro setting member same
    obtain ⟨low, high, -⟩ := mem_editableVariables.mp member
    exact outside ⟨by omega, by omega⟩

/-! ### Values that are stored -/

theorem Header.field_lt (header : Header) (field : HeaderField) :
    header.field field < Bytes.range field.width := by
  have inside := field.start_add_width_le
  have length : (Bytes.part header.raw field.start field.width).length = field.width := by
    rw [Bytes.length_part, header.raw_length]
    omega
  have bound := Bytes.little_lt_range (Bytes.part header.raw field.start field.width)
  rwa [length] at bound

theorem signedWords_range (bytes : Bytes) :
    ∀ value ∈ signedWords bytes, -0x80000000 ≤ value ∧ value < 0x80000000 := by
  fun_induction signedWords bytes with
  | case1 a b c d rest inductionHypothesis =>
    refine List.forall_mem_cons.mpr ⟨?_, inductionHypothesis⟩
    have bound := Bytes.little_lt_range [a, b, c, d]
    simp only [List.length_cons, List.length_nil, Nat.zero_add, Nat.reduceAdd, Bytes.range_four] at bound
    simp only [Bytes.littleSigned, Bytes.asSigned, List.length_cons, List.length_nil, Nat.zero_add,
      Nat.reduceAdd, Bytes.range_four]
    split <;> omega
  | case2 => exact fun _ none => absurd none List.not_mem_nil

/-- The variables of a stored header are numbers of 32 bits. -/
theorem Header.Stored.locals_range {records : List Record} {count place cursor : Nat}
    {header : Header} (stored : header.Stored (.ofRecords records) count place cursor) :
    ∀ value ∈ header.locals, -0x80000000 ≤ value ∧ value < 0x80000000 := by
  have found := stored.locals
  unfold variablesIn at found
  simp only at found
  split at found
  · rw [← Except.ok.inj found]
    exact fun _ none => absurd none List.not_mem_nil
  · split at found
    · cases found
    · rw [← Except.ok.inj found]
      intro value member
      exact signedWords_range _ value (List.mem_of_mem_drop (List.mem_of_mem_take member))

/-! ### Attributes -/

theorem idxOf?_of_getElem? {names : List String} (distinct : names.Nodup) {place : Nat}
    {name : String} (found : names[place]? = some name) : names.idxOf? name = some place := by
  induction names generalizing place with
  | nil => cases found
  | cons first rest inductionHypothesis =>
    rw [List.nodup_cons] at distinct
    rw [List.idxOf?_cons]
    cases place with
    | zero =>
      cases found
      rw [beq_self_eq_true]
      rfl
    | succ place =>
      have inRest : rest[place]? = some name := found
      have other : (first == name) = false := by
        rw [beq_eq_false_iff_ne]
        rintro rfl
        exact distinct.1 (List.mem_of_getElem? inRest)
      rw [other, inductionHypothesis distinct.2 inRest]
      rfl

theorem setAttribute_eq_ok {symbols : Symbols} {block next : Bytes} {line : AttributeLine} :
    setAttribute symbols block line = .ok next ↔
      ∃ place, symbols.attributeId line.name = .ok place ∧
        (place < attributeBlockSize ∧ -128 ≤ line.value ∧ line.value ≤ 255) ∧
        next = block.set place (UInt8.ofNat (line.value % 256).toNat) := by
  unfold setAttribute
  rw [bind_eq_ok]
  refine exists_congr fun place => and_congr locating_eq_ok ?_
  by_cases inside : place < attributeBlockSize ∧ -128 ≤ line.value ∧ line.value ≤ 255
  · rw [if_pos inside]
    exact ⟨fun done => ⟨inside, (Except.ok.inj done).symm⟩, fun kept => congrArg _ kept.2.symm⟩
  · rw [if_neg inside]
    exact ⟨fun done => (nomatch locating_eq_ok.mp done), fun kept => absurd kept.1 inside⟩

/-- The settings of attributes, with their names for their places. -/
def Symbols.attributeSettings (symbols : Symbols) (values : List (Nat × Int)) :
    List (String × Int) :=
  values.map fun value => (symbols.attributes.getD value.1 "", value.2)

theorem setAttribute_bare {symbols : Symbols} (distinct : symbols.attributes.Nodup) {place : Nat}
    (known : place < symbols.attributes.length) (small : place < attributeBlockSize)
    (block : Bytes) (byte : UInt8) :
    setAttribute symbols block
      (.bare (symbols.attributes.getD place "", Bytes.asSigned 1 byte.toNat)) =
      .ok (block.set place byte) := by
  have found : symbols.attributes[place]? = some (symbols.attributes.getD place "") := by
    rw [List.getD_eq_getElem?_getD, List.getElem?_eq_getElem known]
    rfl
  have id : symbols.attributeId (symbols.attributes.getD place "") = .ok place := by
    rw [Symbols.attributeId, Symbols.attributeId?, idxOf?_of_getElem? distinct found]
    rfl
  have byteLt := byte.toNat_lt
  have range : (-128 ≤ Bytes.asSigned 1 byte.toNat ∧ Bytes.asSigned 1 byte.toNat ≤ 255) ∧
      (Bytes.asSigned 1 byte.toNat % 256).toNat = byte.toNat := by
    simp only [Bytes.asSigned, show Bytes.range 1 = 256 from rfl]
    split <;> omega
  refine setAttribute_eq_ok.mpr ⟨place, id, ⟨small, range.1⟩, ?_⟩
  show _ = block.set place (UInt8.ofNat (Bytes.asSigned 1 byte.toNat % 256).toNat)
  rw [range.2, UInt8.ofNat_toNat]

/-- The attributes of a stretch of a block that are not zero, with their places. -/
def attributeValuesFrom (start : Nat) : Bytes → List (Nat × Int)
  | [] => []
  | byte :: rest =>
    (if byte = 0 then [] else [(start, Bytes.asSigned 1 byte.toNat)]) ++
      attributeValuesFrom (start + 1) rest

theorem Header.attributeValues_eq (header : Header) :
    header.attributeValues = attributeValuesFrom 0 header.attributes := by
  have each (bytes : Bytes) (start : Nat) :
      ((bytes.mapIdx fun place byte => (start + place, byte)).filterMap fun entry =>
        if entry.2 = 0 then none else some (entry.1, Bytes.asSigned 1 entry.2.toNat)) =
      attributeValuesFrom start bytes := by
    induction bytes generalizing start with
    | nil => rfl
    | cons byte rest inductionHypothesis =>
      have places : (rest.mapIdx fun place byte => (start + (place + 1), byte)) =
          rest.mapIdx fun place byte => (start + 1 + place, byte) := by
        congr 1
        funext place byte
        rw [Nat.add_right_comm, Nat.add_assoc]
      rw [List.mapIdx_cons, attributeValuesFrom, ← inductionHypothesis (start + 1), places,
        List.filterMap_cons]
      by_cases zero : byte = 0
      · simp only [zero, if_true, List.nil_append]
      · simp only [zero, if_false, Nat.add_zero, List.singleton_append]
  have whole := each header.attributes 0
  simp only [Nat.zero_add] at whole
  exact whole

/-- Settings for the rest of a block fill it up. -/
theorem foldlM_attributes {symbols : Symbols} (distinct : symbols.attributes.Nodup)
    {front back : Bytes} (size : front.length + back.length = attributeBlockSize)
    (known : ∀ value ∈ attributeValuesFrom front.length back,
      value.1 < symbols.attributes.length) :
    ((symbols.attributeSettings (attributeValuesFrom front.length back)).map
        AttributeLine.bare).foldlM (setAttribute symbols)
        (front ++ List.replicate back.length 0) = .ok (front ++ back) := by
  induction back generalizing front with
  | nil => rfl
  | cons byte rest inductionHypothesis =>
    have longer : (front ++ [byte]).length = front.length + 1 := by
      rw [List.length_append, List.length_singleton]
    rw [List.length_cons] at size
    have others := @inductionHypothesis (front ++ [byte]) (by omega) fun value member =>
      known value (by
        rw [attributeValuesFrom]
        exact List.mem_append_right _ (longer ▸ member))
    rw [longer, List.append_assoc, List.append_assoc, List.singleton_append,
      List.singleton_append] at others
    rw [attributeValuesFrom] at known ⊢
    rw [List.length_cons, List.replicate_succ]
    by_cases zero : byte = 0
    · rw [if_pos zero, List.nil_append]
      rwa [zero] at others ⊢
    · rw [if_neg zero] at known ⊢
      have here := known _ (List.mem_append_left _ List.mem_cons_self)
      have placed : (front ++ 0 :: List.replicate rest.length 0).set front.length byte =
          front ++ byte :: List.replicate rest.length 0 := by
        rw [List.set_append_right _ _ (Nat.le_refl _), Nat.sub_self]
        rfl
      rw [List.singleton_append, Symbols.attributeSettings, List.map_cons, List.map_cons,
        List.foldlM_cons, setAttribute_bare distinct here (by omega), ok_bind, placed]
      exact others

/-- The attributes of a header that are not zero give back all of them. -/
theorem Header.attributeBlock_values {header : Header} {symbols : Symbols}
    (distinct : symbols.attributes.Nodup) (size : header.attributes.length = attributeBlockSize)
    (known : ∀ value ∈ header.attributeValues, value.1 < symbols.attributes.length) :
    attributeBlock symbols
      ((symbols.attributeSettings header.attributeValues).map AttributeLine.bare) =
      .ok header.attributes := by
  rw [attributeValues_eq] at known ⊢
  have whole := @foldlM_attributes symbols distinct [] header.attributes
    (by rw [List.length_nil, Nat.zero_add, size]) known
  rw [size] at whole
  exact whole

theorem Header.attributeValues_range (header : Header) :
    ∀ value ∈ header.attributeValues, -128 ≤ value.2 ∧ value.2 < 128 := by
  intro value member
  obtain ⟨⟨place, byte⟩, -, found⟩ := List.mem_filterMap.mp member
  simp only at found
  split at found
  · cases found
  · cases found
    have byteLt := byte.toNat_lt
    simp only [Bytes.asSigned, show Bytes.range 1 = 256 from rfl]
    split <;> omega

/-- Attribute lines set the same wherever they stand. -/
theorem attributeBlock_forget {symbols : Symbols} {lines : List AttributeLine} {block : Bytes} :
    attributeBlock symbols (lines.map AttributeLine.forget) = .ok block ↔
      attributeBlock symbols lines = .ok block := by
  unfold attributeBlock
  generalize (List.replicate attributeBlockSize (0 : UInt8)) = before
  induction lines generalizing before with
  | nil => rfl
  | cons line rest inductionHypothesis =>
    rw [List.map_cons, List.foldlM_cons, List.foldlM_cons, bind_eq_ok, bind_eq_ok]
    refine exists_congr fun next => and_congr ?_ (inductionHypothesis next)
    rw [setAttribute_eq_ok, setAttribute_eq_ok]
    rfl

end MapScript
