/-
This file settles what a number in a slot for items or maps comes back as when its written
form is cleaned. A listing writes a name only where the name leads back to the number, but
it asks the table of the slot alone, while cleaning asks the maps first and then the items.
So maps always come back, and an item comes back exactly if no map with another number has
its name.
-/

import Mathlib
import MapScript.Proofs.Script.Ordered
import MapScript.Proofs.Script.Parsing
import MapScript.Proofs.Script.Unbroken

namespace MapScript

/-! ### Numerals -/

theorem Text.natural_inj {first second : Nat} (same : natural first = natural second) :
    first = second := by
  have read := digitsValue?_natural first
  rw [same, digitsValue?_natural second] at read
  exact (Option.some.inj read).symm

theorem Text.integer_inj {first second : Int} (same : integer first = integer second) :
    first = second := by
  have noMinus (number other : Nat) : natural number ≠ '-' :: natural other := by
    intro same
    exact not_mem_natural (by decide) number (same ▸ List.mem_cons_self)
  cases first with
  | ofNat number =>
    cases second with
    | ofNat other => exact congrArg Int.ofNat (natural_inj same)
    | negSucc other => exact absurd same (noMinus _ _)
  | negSucc number =>
    cases second with
    | ofNat other => exact absurd same.symm (noMinus _ _)
    | negSucc other =>
      exact congrArg Int.negSucc (Nat.succ.inj (natural_inj (List.cons.inj same).2))

/-! ### A line with nothing but a number -/

/-- The number that the written form of a number in a slot comes back as. -/
def slotNumber (symbols : Symbols) (kind : Option ParameterKind) (value : Int) : Int :=
  ((slotName? symbols kind value).bind symbols.mapId?).getD value

/-- The piece that the written form of a number in a slot is cleaned as. -/
def Piece.ofSlot (symbols : Symbols) (kind : Option ParameterKind) (value : Int) : Piece :=
  match slotName? symbols kind value with
  | some name => .named name.toList (slotNumber symbols kind value)
  | none => .numeral (Text.integer value)

section

variable {symbols : Symbols} {kind : Option ParameterKind} {value : Int}

theorem Piece.raw_ofSlot :
    (ofSlot symbols kind value).raw = (Decoder.typedNumber symbols kind value).toList := by
  rw [← raw_ofNumber, ofSlot, ofNumber]
  cases slotName? symbols kind value <;> rfl

theorem Piece.clean_ofSlot :
    (ofSlot symbols kind value).clean = Text.integer (slotNumber symbols kind value) := by
  unfold ofSlot slotNumber
  cases slotName? symbols kind value <;> rfl

theorem Piece.isLine_ofSlot : IsLine [ofSlot symbols kind value] where
  filled := List.cons_ne_nil _ _
  starts piece member := by
    cases Option.mem_some.mp member
    unfold ofSlot
    cases slotName? symbols kind value <;> rfl
  full piece member := by
    cases Option.mem_some.mp member
    unfold ofSlot
    cases slotName? symbols kind value <;> rfl
  chained := trivial

theorem Piece.sound_ofSlot
    (isName : ∀ name, slotName? symbols kind value = some name → IsName name.toList) :
    (ofSlot symbols kind value).Sound symbols := by
  unfold ofSlot slotNumber
  cases named : slotName? symbols kind value with
  | none => exact isNumeral_integer value
  | some name => exact ⟨isName name named, nameNumber_of_isName (isName name named) named⟩

/-- The written form of a number is one line, and cleaning makes a numeral of it. -/
theorem exists_cleanText_typedNumber
    (isName : ∀ name, slotName? symbols kind value = some name → Piece.IsName name.toList) :
    ∃ line, cleanText symbols (Decoder.typedNumber symbols kind value).toList = .ok [line] ∧
      line.text = Text.integer (slotNumber symbols kind value) := by
  have sound : ∀ piece ∈ [Piece.ofSlot symbols kind value], piece.Sound symbols :=
    fun piece member => List.mem_singleton.mp member ▸ Piece.sound_ofSlot isName
  have cleaned := Piece.cleanLine_isLine Piece.isLine_ofSlot sound 0 none
  have unbroken := Piece.unbroken_line sound
  have filled := (Piece.getLast?_full (Piece.sound_ofSlot isName)
    (Piece.isLine_ofSlot.full _ rfl)).1.1
  simp only [Piece.line_cons, Piece.line_nil, List.append_nil, Piece.raw_ofSlot,
    Piece.clean_ofSlot, Piece.commentTail, List.replicate_zero, List.nil_append]
    at cleaned unbroken filled
  let origin : Origin := ⟨1, String.ofList (Decoder.typedNumber symbols kind value).toList⟩
  refine ⟨⟨origin, Text.integer (slotNumber symbols kind value)⟩, ?_, rfl⟩
  have clean : ScriptLine.clean symbols 1 (Decoder.typedNumber symbols kind value).toList =
      .ok ⟨origin, Text.integer (slotNumber symbols kind value)⟩ := by
    rw [ScriptLine.clean, cleaned]
    rfl
  rw [cleanText, Text.splitLines_last unbroken filled]
  exact mapM_cons_eq_ok.mpr ⟨_, _, clean, rfl, rfl⟩

/-- Only the name of an item can lead elsewhere, and only to a map. -/
theorem slotNumber_eq_iff :
    slotNumber symbols kind value = value ↔
      (kind = some .item → ∀ name, Decoder.itemNamed? symbols value = some name →
        ∀ id, symbols.mapId? name = some id → id = value) := by
  unfold slotNumber slotName?
  split
  · cases Decoder.itemNamed? symbols value with
    | none => simp
    | some name =>
      simp only [Option.bind_some, forall_const, Option.some.injEq, forall_eq']
      cases symbols.mapId? name <;> simp
  · cases named : Decoder.mapNamed? symbols value with
    | none => simp
    | some name => simp [(Decoder.mapNamed?_eq_some named).2.2]
  · rename_i notItem _
    exact ⟨fun _ isItem => absurd isItem notItem, fun _ => rfl⟩

end

/-- A number in a slot of a function is written on one line, which is cleaned to a numeral.
The numeral is that of the number, and is read as the number, for every map, and for an item
exactly if no map with another number has the name that is written. -/
theorem Symbols.cleanText_typedNumber (symbols : Symbols) (function : String) (index : Int)
    {value : Int} (range : -0x80000000 ≤ value ∧ value < 0x80000000)
    (isName : ∀ name, slotName? symbols (some (symbols.parameterKind function index)) value =
      some name → Piece.IsName name.toList) :
    ∃ line, cleanText symbols (Decoder.typedNumber symbols
        (some (symbols.parameterKind function index)) value).toList = .ok [line] ∧
      ((line.text = Text.integer value ∧
          Reader.numberOf (String.ofList line.text) = .ok value) ↔
        (symbols.parameterKind function index = .item →
          ∀ name, Decoder.itemNamed? symbols value = some name →
            ∀ id, symbols.mapId? name = some id → id = value)) := by
  obtain ⟨line, cleaned, numeral⟩ := exists_cleanText_typedNumber isName
  have leads := @slotNumber_eq_iff symbols (some (symbols.parameterKind function index)) value
  rw [Option.some_inj] at leads
  refine ⟨line, cleaned, ?_⟩
  rw [← leads, numeral]
  constructor
  · exact fun same => Text.integer_inj same.1
  · intro same
    rw [same]
    exact ⟨rfl, numberOf_integer ⟨range.1, by omega⟩⟩

/-- Symbols in which an item and a map share a name, and two numbers load one map. -/
def harborSymbols : Symbols where
  functions := [.null, ⟨"Give", .function, 1⟩, ⟨"Travel", .function, 1⟩]
  flags := []
  references := []
  attributes := []
  items := [some "GOLD KEY", none, some "ISLAND"]
  maps := .ofList [(7, "ISLAND"), (-1, "ISLAND")]
  subtitles := .ofList []
  parameterKinds := .ofList [("Give0", .item), ("Travel0", .map)]

theorem cleanText_typedNumber_harbor :
    (-0x80000000 ≤ (-1 : Int) ∧ (-1 : Int) < 0x80000000) ∧
    slotName? harborSymbols (some (harborSymbols.parameterKind "Travel" 0)) (-1) =
      some "ISLAND" ∧
    Piece.IsName "ISLAND".toList ∧
    ∃ line, cleanText harborSymbols (Decoder.typedNumber harborSymbols
        (some (harborSymbols.parameterKind "Travel" 0)) (-1)).toList = .ok [line] ∧
      ((line.text = Text.integer (-1) ∧
          Reader.numberOf (String.ofList line.text) = .ok (-1)) ↔
        (harborSymbols.parameterKind "Travel" 0 = .item →
          ∀ name, Decoder.itemNamed? harborSymbols (-1) = some name →
            ∀ id, harborSymbols.mapId? name = some id → id = -1)) := by
  have named : slotName? harborSymbols (some (harborSymbols.parameterKind "Travel" 0)) (-1) =
      some "ISLAND" := by cbv
  have isName : Piece.IsName "ISLAND".toList :=
    Piece.isName_of_plain (by decide) (by decide) (by decide) (by decide)
  refine ⟨by decide, named, isName, ?_⟩
  refine harborSymbols.cleanText_typedNumber "Travel" 0 (by decide) fun name same => ?_
  cases named.symm.trans same
  exact isName

/-- An item that shares its name with a map is written by its name, and the name comes back
as the number of the map. -/
theorem cleanText_typedNumber_shared :
    harborSymbols.parameterKind "Give" 0 = .item ∧
    Decoder.typedNumber harborSymbols (some (harborSymbols.parameterKind "Give" 0)) 2 =
      "<ISLAND>" ∧
    Piece.IsName "ISLAND".toList ∧
    ∃ line, cleanText harborSymbols "<ISLAND>".toList = .ok [line] ∧
      line.text = Text.integer (-1) ∧ line.text ≠ Text.integer 2 := by
  have written : Decoder.typedNumber harborSymbols
      (some (harborSymbols.parameterKind "Give" 0)) 2 = "<ISLAND>" := by cbv
  have named : slotName? harborSymbols (some (harborSymbols.parameterKind "Give" 0)) 2 =
      some "ISLAND" := by cbv
  have number : slotNumber harborSymbols (some (harborSymbols.parameterKind "Give" 0)) 2 = -1 := by
    cbv
  have isName : Piece.IsName "ISLAND".toList :=
    Piece.isName_of_plain (by decide) (by decide) (by decide) (by decide)
  obtain ⟨line, cleaned, numeral⟩ := exists_cleanText_typedNumber fun name same =>
    Option.some.inj (named.symm.trans same) ▸ isName
  rw [written] at cleaned
  rw [number] at numeral
  refine ⟨by cbv, written, isName, line, cleaned, numeral, fun same => ?_⟩
  exact absurd (Text.integer_inj (numeral.symm.trans same)) (by decide)

end MapScript
