/-
This file is about the string pool of a rebuilt map. Each string is stored once,
with a zero behind it, and the offset table has an entry for every use of it; as
no string holds a zero, reading from an offset up to the next zero gives the string
back. Storing further strings moves nothing that is stored already.
-/

import MapScript.Container.Rebuild
import MapScript.Proofs.MapFiles

namespace MapScript

namespace Rebuild

/-! ### Stored texts -/

/-- A text stands in the string pool at an offset: its bytes, and a zero behind
them. -/
def TextAt (texts : Bytes) (text : String) (place : Nat) : Prop :=
  ∃ bytes, Bytes.ofText? text = some bytes ∧ 0 ∉ bytes ∧ bytes ++ [0] <+: texts.drop place

theorem TextAt.lt_length {texts : Bytes} {text : String} {place : Nat}
    (stands : TextAt texts text place) : place < texts.length := by
  obtain ⟨bytes, -, -, stored⟩ := stands
  have size := stored.length_le
  rw [List.length_append, List.length_drop, List.length_singleton] at size
  omega

/-- A stored text stays where it is when the pool grows. -/
theorem TextAt.mono {texts larger : Bytes} {text : String} {place : Nat}
    (stands : TextAt texts text place) (grown : texts <+: larger) : TextAt larger text place := by
  have inside := stands.lt_length
  obtain ⟨bytes, packed, noZero, stored⟩ := stands
  obtain ⟨more, rfl⟩ := grown
  refine ⟨bytes, packed, noZero, ?_⟩
  rw [List.drop_append_of_le_length (Nat.le_of_lt inside)]
  exact stored.trans (List.prefix_append _ _)

/-- A text at the end of the pool. -/
theorem textAt_append (texts : Bytes) {text : String} {bytes : Bytes}
    (packed : Bytes.ofText? text = some bytes) (noZero : 0 ∉ bytes) :
    TextAt (texts ++ bytes ++ [0]) text texts.length := by
  have behind : (texts ++ bytes ++ [0]).drop texts.length = bytes ++ [0] := by
    rw [List.append_assoc, List.drop_left]
  exact ⟨bytes, packed, noZero, behind ▸ List.prefix_rfl⟩

theorem takeWhile_append_zero {bytes more : Bytes} (noZero : 0 ∉ bytes) :
    (bytes ++ [0] ++ more).takeWhile (· != 0) = bytes := by
  rw [List.append_assoc, List.takeWhile_append_of_pos]
  · rw [List.singleton_append, List.takeWhile_cons_of_neg (by decide), List.append_nil]
  · intro byte member
    have nonzero : byte ≠ 0 := fun zero => noZero (zero ▸ member)
    simpa using nonzero

/-- Reading up to the next zero gives a stored text back. -/
theorem TextAt.read {texts : Bytes} {text : String} {place : Nat}
    (stands : TextAt texts text place) :
    (texts.drop place).contains 0 = true ∧
      Bytes.toText ((texts.drop place).takeWhile (· != 0)) = text := by
  obtain ⟨bytes, packed, noZero, more, stored⟩ := stands
  rw [← stored, takeWhile_append_zero noZero]
  exact ⟨by simp, Bytes.toText_of_ofText? packed⟩

/-- Two texts at one offset are the same. -/
theorem TextAt.unique {texts : Bytes} {first second : String} {place : Nat}
    (one : TextAt texts first place) (other : TextAt texts second place) : first = second := by
  rw [← one.read.2, ← other.read.2]

/-! ### Adding strings -/

/-- A string that is stored already is only entered in the offset table; another one is put
at the end of the pool first. Either way its offset fits an entry. -/
theorem addString_eq_ok {state next : Rebuild} {text : String}
    (added : state.addString text = .ok next) :
    (∃ place, state.places.find? text = some place ∧ place < Bytes.range 4 ∧
      next = { state with offsets := state.offsets ++ Bytes.ofNatLittle 4 place }) ∨
    ∃ bytes, state.places.find? text = none ∧ Bytes.ofText? text = some bytes ∧
      state.texts.length < Bytes.range 4 ∧
      next = { state with
        texts := state.texts ++ bytes ++ [0]
        places := state.places.put text state.texts.length
        offsets := state.offsets ++ Bytes.ofNatLittle 4 state.texts.length } := by
  unfold addString at added
  split at added
  · rename_i place known
    obtain ⟨entry, packed, whole⟩ := bind_eq_ok.mp added
    obtain ⟨fits, rfl⟩ := packNumber_eq_ok_iff.mp packed
    exact Or.inl ⟨place, known, fits, (Except.ok.inj whole).symm⟩
  · rename_i unknown
    split at added
    · cases added
    · rename_i bytes spelled
      obtain ⟨entry, packed, whole⟩ := bind_eq_ok.mp added
      obtain ⟨fits, rfl⟩ := packNumber_eq_ok_iff.mp packed
      exact Or.inr ⟨bytes, unknown, spelled, fits, (Except.ok.inj whole).symm⟩

/-- Every offset in the registry of a rebuild is that of its text. -/
def PlacesRight (state : Rebuild) : Prop :=
  ∀ text place, state.places.find? text = some place → TextAt state.texts text place

/-- What adding one string does: the string has an offset then, which is entered in
the offset table, and neither stored strings nor their offsets move. -/
structure StringAdded (state next : Rebuild) (text : String) (place : Nat) : Prop where
  found : next.places.find? text = some place
  offsets : next.offsets = state.offsets ++ Bytes.ofNatLittle 4 place
  texts : state.texts <+: next.texts
  places : ∀ other there, state.places.find? other = some there → next.places.find? other = some there
  right : PlacesRight next

theorem addString_added {state next : Rebuild} {text : String} (right : PlacesRight state)
    (noNul : Char.ofNat 0 ∉ text.toList) (added : state.addString text = .ok next) :
    ∃ place, StringAdded state next text place := by
  rcases addString_eq_ok added with ⟨place, known, -, rfl⟩ | ⟨bytes, unknown, packed, -, rfl⟩
  · exact ⟨place, known, rfl, List.prefix_rfl, fun _ _ found => found, right⟩
  · have noZero := Bytes.zero_notMem_of_ofChars? packed noNul
    have kept (other : String) (place : Nat) (found : state.places.find? other = some place) :
        (state.places.put text state.texts.length).find? other = some place := by
      have different : other ≠ text := by
        rintro rfl
        rw [unknown] at found
        cases found
      rw [Registry.find?_put_other _ different, found]
    refine ⟨state.texts.length, Registry.find?_put_self _ _ _, rfl, ?_, kept, ?_⟩
    · show state.texts <+: state.texts ++ bytes ++ [0]
      rw [List.append_assoc]
      exact List.prefix_append _ _
    · intro other place found
      by_cases same : other = text
      · subst same
        rw [Registry.find?_put_self] at found
        cases found
        exact textAt_append _ packed noZero
      · rw [Registry.find?_put_other _ same] at found
        refine (right other place found).mono ?_
        rw [List.append_assoc]
        exact List.prefix_append _ _

/-- What adding the strings of a header does. The offsets are entered in the order of
the strings. -/
structure StringsAdded (state next : Rebuild) (strings : List String) (offsets : List Nat) :
    Prop where
  found : strings.map next.places.find? = offsets.map some
  entered : next.offsets = state.offsets ++ (offsets.map (Bytes.ofNatLittle 4)).flatten
  texts : state.texts <+: next.texts
  places : ∀ other there, state.places.find? other = some there → next.places.find? other = some there
  right : PlacesRight next

theorem addStrings_added {state next : Rebuild} {strings : List String} (right : PlacesRight state)
    (noNul : ∀ text ∈ strings, Char.ofNat 0 ∉ text.toList)
    (added : strings.foldlM addString state = .ok next) :
    ∃ offsets, StringsAdded state next strings offsets := by
  induction strings generalizing state with
  | nil =>
    cases added
    exact ⟨[], rfl, (List.append_nil _).symm, List.prefix_rfl, fun _ _ found => found, right⟩
  | cons text rest inductionHypothesis =>
    rw [List.foldlM_cons] at added
    obtain ⟨middle, first, others⟩ := bind_eq_ok.mp added
    obtain ⟨place, one⟩ := addString_added right (noNul text List.mem_cons_self) first
    obtain ⟨offsets, more⟩ := inductionHypothesis one.right
      (fun other member => noNul other (List.mem_cons_of_mem _ member)) others
    refine ⟨place :: offsets, ?_, ?_, one.texts.trans more.texts, ?_, more.right⟩
    · rw [List.map_cons, List.map_cons, more.found, more.places text place one.found]
    · rw [more.entered, one.offsets, List.append_assoc, List.map_cons, List.flatten_cons]
    · intro other there found
      exact more.places other there (one.places other there found)

/-! ### Reading strings back -/

/-- A string whose offset stands in the offset table is read back. -/
theorem stringAt_of_textAt {header : Header} {pools : Pools} {index place : Nat} {text : String}
    {front back : Bytes} (table : pools.offsets = front ++ Bytes.ofNatLittle 4 place ++ back)
    (here : front.length = header.field .stringIndex + index * 4)
    (stands : TextAt pools.texts text place) (fits : pools.texts.length ≤ Bytes.range 4) :
    header.stringAt pools index = .ok text := by
  have small : place < Bytes.range 4 := Nat.lt_of_lt_of_le stands.lt_length fits
  have middle := Bytes.part_middle front (Bytes.ofNatLittle 4 place) back
  rw [← table, Bytes.length_ofNatLittle, here] at middle
  have long : ¬pools.offsets.length < header.field .stringIndex + index * 4 + 4 := by
    rw [table, List.length_append, List.length_append, Bytes.length_ofNatLittle, here]
    omega
  obtain ⟨closed, text_eq⟩ := stands.read
  unfold Header.stringAt
  simp only [if_neg long, middle, Bytes.little_ofNatLittle small, closed, if_true, text_eq]

/-- Strings whose offsets stand in the offset table one after the other are read
back. -/
theorem stringsFrom_of_textAt {header : Header} {pools : Pools} {index : Nat}
    {strings : List String} {offsets : List Nat} {front back : Bytes}
    (table : pools.offsets = front ++ (offsets.map (Bytes.ofNatLittle 4)).flatten ++ back)
    (here : front.length = header.field .stringIndex + index * 4)
    (stands : ∀ pair ∈ strings.zip offsets, TextAt pools.texts pair.1 pair.2)
    (sameLength : strings.length = offsets.length) (fits : pools.texts.length ≤ Bytes.range 4) :
    header.stringsFrom pools index strings.length = .ok strings := by
  induction strings generalizing offsets index front with
  | nil => rfl
  | cons text rest inductionHypothesis =>
    cases offsets with
    | nil => cases sameLength
    | cons place others =>
      rw [List.map_cons, List.flatten_cons] at table
      have firstTable : pools.offsets = front ++ Bytes.ofNatLittle 4 place ++
          ((others.map (Bytes.ofNatLittle 4)).flatten ++ back) := by
        rw [table]
        simp only [List.append_assoc]
      have restTable : pools.offsets = front ++ Bytes.ofNatLittle 4 place ++
          (others.map (Bytes.ofNatLittle 4)).flatten ++ back := by
        rw [table]
        simp only [List.append_assoc]
      have next : (front ++ Bytes.ofNatLittle 4 place).length =
          header.field .stringIndex + (index + 1) * 4 := by
        rw [List.length_append, Bytes.length_ofNatLittle, here]
        omega
      have first := stringAt_of_textAt firstTable here (stands (text, place) List.mem_cons_self) fits
      have restRead := inductionHypothesis restTable next
        (fun pair member => stands pair (List.mem_cons_of_mem _ member)) (by simpa using sameLength)
      rw [List.length_cons, Header.stringsFrom, first, ok_bind, restRead, ok_bind]
      rfl

end Rebuild

end MapScript
