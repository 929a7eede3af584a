/-
This file spells the terms, conditions and statements of a script as pieces. The pieces
are what a listing writes, and what the cleaning and the cutting of lines are proved to
handle; here it is shown that what a listing writes is made of sound pieces, and that
they follow each other as pieces may.
-/

import MapScript.Proofs.Listing.Outline
import MapScript.Proofs.Script.Cutting
import MapScript.Proofs.Script.Written

namespace MapScript

/-! ### Symbols that can be written -/

/-- Symbols of which a listing can be read back: names of items and maps can stand in
brackets and do not clash, and what becomes a comment stays on its line. -/
structure Symbols.Legible (symbols : Symbols) : Prop where
  references_length : symbols.references.length ≤ 256
  comment_unbroken : ∀ flag ∈ symbols.flags, ∀ comment ∈ flag.comment, ∀ c ∈ comment.toList,
    Text.isLineBreak c = false
  subtitle_unbroken : ∀ entry ∈ symbols.subtitles.entries, ∀ c ∈ entry.2.toList,
    Text.isLineBreak c = false
  item_isName : ∀ name, some name ∈ symbols.items → Piece.IsName name.toList
  map_isName : ∀ entry ∈ symbols.maps.entries, Piece.IsName entry.2.toList
  items_no_maps : ∀ name, some name ∈ symbols.items → ∀ entry ∈ symbols.maps.entries,
    entry.2 ≠ name

/-! ### Objects -/

namespace Piece

theorem isNumeral_of_isNumeral {written : List Char} (numeral : IsNumeral written) :
    Encoder.isNumeral written = true := by
  obtain ⟨digits, form, filled, all⟩ := numeral
  have noMinus : (digits.head? == some '-') = false := by
    cases digits with
    | nil => rfl
    | cons c rest =>
      refine beq_eq_false_iff_ne.mpr fun same => ?_
      cases Option.some.inj same
      exact absurd (List.all_eq_true.mp all _ List.mem_cons_self) (by decide)
  have noFeed : (digits.getLast? == some '\n') = false := by
    refine beq_eq_false_iff_ne.mpr fun same => ?_
    exact absurd (List.all_eq_true.mp all _ (List.mem_of_mem_getLast? same)) (by decide)
  have filled : digits.isEmpty = false := List.isEmpty_eq_false_iff.mpr filled
  rcases form with rfl | rfl
  · simp only [Encoder.isNumeral, noMinus, noFeed, filled, all, Bool.false_eq_true, if_false]
    rfl
  · simp only [Encoder.isNumeral, List.head?_cons, beq_self_eq_true, if_true,
      List.drop_succ_cons, List.drop_zero, noFeed, filled, all, Bool.false_eq_true, if_false]
    rfl

theorem isNumeral_of_isWord {written : List Char} (word : IsWord written) :
    Encoder.isNumeral written = false := by
  obtain ⟨all, some⟩ := word
  have nameChar {c : Char} (member : c ∈ written) : Text.isNameChar c = true :=
    List.all_eq_true.mp all c member
  have noMinus : (written.head? == Option.some '-') = false := by
    refine beq_eq_false_iff_ne.mpr fun same => ?_
    exact absurd (nameChar (List.mem_of_mem_head? same)) (by decide)
  have noFeed : (written.getLast? == Option.some '\n') = false := by
    refine beq_eq_false_iff_ne.mpr fun same => ?_
    exact absurd (nameChar (List.mem_of_mem_getLast? same)) (by decide)
  obtain ⟨c, member, other⟩ := List.any_eq_true.mp some
  have notAll : written.all Text.isDigit = false := by
    refine List.all_eq_false.mpr ⟨c, member, fun digit => ?_⟩
    rw [Text.isPlainDigit_of_isNameChar (nameChar member) digit] at other
    cases other
  simp only [Encoder.isNumeral, noMinus, noFeed, notAll, Bool.false_eq_true, if_false,
    Bool.and_false]

/-- The piece of an object, a numeral or a word. -/
def ofObject (written : String) : Piece :=
  if Encoder.isNumeral written.toList then numeral written.toList else word written.toList

theorem ofObject_cases {written : String} (isObject : IsObject written.toList) :
    (ofObject written = numeral written.toList ∧ IsNumeral written.toList) ∨
      (ofObject written = word written.toList ∧ IsWord written.toList) := by
  rcases isObject with isWord | isNumeral
  · refine Or.inr ⟨if_neg ?_, isWord⟩
    rw [isNumeral_of_isWord isWord]
    decide
  · exact Or.inl ⟨if_pos (isNumeral_of_isNumeral isNumeral), isNumeral⟩

theorem sound_ofObject {written : String} (isObject : IsObject written.toList)
    (symbols : Symbols) : (ofObject written).Sound symbols := by
  rcases ofObject_cases isObject with ⟨same, isNumeral⟩ | ⟨same, isWord⟩
  · rw [same]
    exact isNumeral
  · rw [same]
    exact Or.inl isWord

theorem raw_ofObject (written : String) : (ofObject written).raw = written.toList := by
  unfold ofObject
  split <;> rfl

theorem toList_variable (number : Nat) :
    ("var" ++ String.ofList (Text.natural number)).toList = "var".toList ++ Text.natural number := by
  rw [String.toList_append, @String.toList_ofList (Text.natural number)]

theorem isWord_variable (number : Nat) :
    IsWord ("var" ++ String.ofList (Text.natural number)).toList := by
  rw [toList_variable]
  constructor
  · rw [List.all_append]
    refine Bool.and_eq_true_iff.mpr ⟨rfl, List.all_eq_true.mpr fun c member => ?_⟩
    exact Text.isNameChar_of_isPlainDigit (Text.isPlainDigit_natural member)
  · rfl

end Piece

theorem Decoder.variableObject_eq_ok {reading : Reading} {index : Nat} {text : String}
    (named : Decoder.variableObject reading index = .ok text) :
    (∃ value, reading.program.locals.idxOf? value = some index ∧
        text = String.ofList (Text.integer value)) ∨
      (index < reading.program.locals.length ∧
        text = "var" ++ String.ofList (Text.natural index)) := by
  unfold variableObject at named
  split at named
  · cases named
  · rename_i value held
    have inside := (List.getElem?_eq_some_iff.mp held).1
    split at named
    · rename_i first
      cases named
      refine Or.inl ⟨value, ?_, rfl⟩
      exact List.findIdx?_eq_some_iff_findIdx_eq.mpr ⟨inside, first⟩
    · cases named
      exact Or.inr ⟨inside, rfl⟩

/-- An object is a word or a numeral in a listing, too. -/
theorem Reading.isObject_objectText (reading : Reading) {name : String}
    (isObject : IsObject name.toList) : IsObject (reading.objectText name).toList := by
  unfold objectText
  split
  · exact isObject
  · split
    · split
      · split
        · rw [String.toList_ofList]
          exact Or.inr (Piece.isNumeral_integer _)
        · exact isObject
      · exact isObject
    · split
      · split
        · rename_i text named
          rcases Decoder.variableObject_eq_ok named with ⟨value, -, rfl⟩ | ⟨-, rfl⟩
          · rw [String.toList_ofList]
            exact Or.inr (Piece.isNumeral_integer _)
          · exact Or.inl (Piece.isWord_variable _)
        · exact isObject
      · exact isObject

/-! ### Numbers -/

/-- The name that a listing writes for a number in a slot, if it writes one. -/
def slotName? (symbols : Symbols) (kind : Option ParameterKind) (value : Int) : Option String :=
  match kind with
  | some .item => Decoder.itemNamed? symbols value
  | some .map => Decoder.mapNamed? symbols value
  | _ => none

theorem Symbols.mapId?_eq_none {symbols : Symbols} {name : String}
    (absent : ∀ entry ∈ symbols.maps.entries, entry.2 ≠ name) : symbols.mapId? name = none := by
  have none : symbols.maps.entries.filter (fun entry => entry.2 == name) = [] := by
    refine List.filter_eq_nil_iff.mpr fun entry member => ?_
    rw [beq_eq_false_iff_ne.mpr (absent entry member)]
    exact Bool.false_ne_true
  rw [mapId?, mapIds, none, List.map_nil, List.mergeSort_nil]
  rfl

theorem Symbols.mem_items_of_itemName? {symbols : Symbols} {id : Int} {name : String}
    (found : symbols.itemName? id = some name) : some name ∈ symbols.items := by
  have entry := Option.join_eq_some_iff.mp found
  unfold entryAt at entry
  split at entry
  · exact List.mem_of_getElem? entry
  · cases entry

theorem Decoder.itemNamed?_eq_some {symbols : Symbols} {id : Int} {name : String}
    (named : Decoder.itemNamed? symbols id = some name) :
    symbols.itemName? id = some name ∧ name ≠ "" ∧
      ∃ number : Nat, symbols.itemId? name = some number ∧ (number : Int) = id := by
  unfold Decoder.itemNamed? at named
  split at named
  · rename_i found
    split at named
    · rename_i leads
      cases named
      obtain ⟨filled, known⟩ := (Bool.and_eq_true _ _).mp leads
      refine ⟨found, by simpa using filled, ?_⟩
      cases there : symbols.itemId? name with
      | none =>
        rw [there] at known
        cases known
      | some number =>
        rw [there] at known
        exact ⟨number, rfl, beq_iff_eq.mp known⟩
    · cases named
  · cases named

theorem Decoder.mapNamed?_eq_some {symbols : Symbols} {id : Int} {name : String}
    (named : Decoder.mapNamed? symbols id = some name) :
    symbols.mapName? id = some name ∧ name ≠ "" ∧ symbols.mapId? name = some id := by
  unfold Decoder.mapNamed? at named
  split at named
  · rename_i found
    split at named
    · rename_i leads
      cases named
      obtain ⟨filled, known⟩ := (Bool.and_eq_true _ _).mp leads
      exact ⟨found, by simpa using filled, beq_iff_eq.mp known⟩
    · cases named
  · cases named

/-- The number that a written name gives way to: a map of that name comes first. -/
theorem nameNumber_of_isName {symbols : Symbols} {kind : Option ParameterKind} {value : Int}
    {name : String} (isName : Piece.IsName name.toList)
    (named : slotName? symbols kind value = some name) :
    name.toList ≠ [] ∧
      nameNumber symbols name.toList = .ok (Text.integer ((symbols.mapId? name).getD value)) := by
  have number (filled : name ≠ "") (other : symbols.mapId? name = none →
      ∃ number : Nat, symbols.itemId? name = some number ∧ (number : Int) = value) :
      name.toList ≠ [] ∧
        nameNumber symbols name.toList =
          .ok (Text.integer ((symbols.mapId? name).getD value)) := by
    refine ⟨fun empty => filled (String.toList_eq_nil_iff.mp empty), ?_⟩
    simp only [nameNumber, isName.unreserved, String.ofList_toList, Bool.false_eq_true, if_false]
    cases there : symbols.mapId? name with
    | some id => rfl
    | none =>
      obtain ⟨number, known, rfl⟩ := other there
      simp only [known]
      rfl
  unfold slotName? at named
  split at named
  · obtain ⟨-, filled, known⟩ := Decoder.itemNamed?_eq_some named
    exact number filled fun _ => known
  · obtain ⟨-, filled, known⟩ := Decoder.mapNamed?_eq_some named
    exact number filled fun none => absurd (known.symm.trans none) (Option.some_ne_none _)
  · cases named

/-- A name that a listing writes for a number can stand in brackets and leads back to the
number. -/
theorem nameNumber_of_slotName? {symbols : Symbols} (legible : symbols.Legible)
    {kind : Option ParameterKind} {value : Int} {name : String}
    (named : slotName? symbols kind value = some name) :
    Piece.IsName name.toList ∧ name.toList ≠ [] ∧
      nameNumber symbols name.toList = .ok (Text.integer value) := by
  obtain ⟨isName, leads⟩ : Piece.IsName name.toList ∧ (symbols.mapId? name).getD value = value := by
    unfold slotName? at named
    split at named
    · have entry := Symbols.mem_items_of_itemName? (Decoder.itemNamed?_eq_some named).1
      refine ⟨legible.item_isName name entry, ?_⟩
      rw [Symbols.mapId?_eq_none (legible.items_no_maps name entry)]
      rfl
    · obtain ⟨found, -, known⟩ := Decoder.mapNamed?_eq_some named
      refine ⟨legible.map_isName _ (Registry.mem_entries_of_find? found), ?_⟩
      rw [known]
      rfl
    · cases named
  have number := nameNumber_of_isName isName named
  rw [leads] at number
  exact ⟨isName, number⟩

namespace Piece

/-- The piece of a number in a slot: a name, or else the numeral. -/
def ofNumber (symbols : Symbols) (kind : Option ParameterKind) (value : Int) : Piece :=
  match slotName? symbols kind value with
  | some name => named name.toList value
  | none => numeral (Text.integer value)

theorem raw_ofNumber (symbols : Symbols) (kind : Option ParameterKind) (value : Int) :
    (ofNumber symbols kind value).raw = (Decoder.typedNumber symbols kind value).toList := by
  show _ = (match slotName? symbols kind value with
    | some name => "<" ++ name ++ ">"
    | none => String.ofList (Text.integer value)).toList
  unfold ofNumber
  cases slotName? symbols kind value with
  | some name => simp [raw]
  | none => exact String.toList_ofList.symm

theorem sound_ofNumber {symbols : Symbols} (legible : symbols.Legible)
    (kind : Option ParameterKind) (value : Int) : (ofNumber symbols kind value).Sound symbols := by
  unfold ofNumber
  split
  · rename_i named
    exact nameNumber_of_slotName? legible named
  · exact isNumeral_integer value

theorem tokens_ofNumber (symbols : Symbols) (kind : Option ParameterKind) (value : Int) :
    (ofNumber symbols kind value).tokens = [⟨.number, String.ofList (Text.integer value)⟩] := by
  unfold ofNumber
  split <;> rfl

end Piece

/-! ### Pieces of terms -/

/-- A number as four bytes hold it. -/
def settledNumber (value : Int) : Int :=
  Bytes.littleSigned (Encoder.long value)

/-- A call, given the pieces of its arguments. -/
def callPieces (multitask : Bool) (name : String) (arguments : List Piece) : List Piece :=
  .word ((if multitask then "@" else "") ++ name).toList :: .opening :: arguments ++ [.closing]

mutual

/-- The pieces of a term in a place. -/
def Term.pieces (reading : Reading) : Term → Position → Option Slot → List Piece
  | .call name arguments multitask, _, _ =>
    callPieces multitask name (Term.argumentPieces reading name 0 arguments)
  | .flag name, _, _ => [.word name.toList]
  | .localVariable index, _, _ =>
    [.word ("var" ++ String.ofList (Text.natural index.toNat)).toList]
  | .number value, position, slot =>
    [.ofNumber reading.symbols (Encoder.slotKind reading.around position slot)
      (settledNumber value)]
  | .text written, _, _ => [.quoted written.toList]
  | .property object name, _, _ =>
    [.ofObject (reading.objectText object), .dot, .word name.toList]
  | .objectCall object name arguments multitask, _, _ =>
    .ofObject (reading.objectText object) :: .dot ::
      callPieces multitask name (Term.argumentPieces reading name 0 arguments)
  | .chain .., _, _ => []

/-- The pieces of the arguments of a function, from a place on. -/
def Term.argumentPieces (reading : Reading) (function : String) (index : Nat) :
    List Term → List Piece
  | [] => []
  | first :: rest =>
    (if index = 0 then [] else [.comma]) ++
      first.pieces reading .parameter (some ⟨function, index⟩) ++
      Term.argumentPieces reading function (index + 1) rest

end

/-- The pieces of operators with their terms. -/
def operationPieces (reading : Reading) : List (Operator × Term) → List Piece
  | [] => []
  | (operator, operand) :: rest =>
    .operator operator.text.toList :: operand.pieces reading .formula none ++
      operationPieces reading rest

/-- The pieces of what follows the first term of a formula. -/
def Formula.tailPieces (reading : Reading) (formula : Formula) : List Piece :=
  operationPieces reading (formula.operators.zip formula.operands) ++
    formula.step.toList.map Piece.step

/-- The pieces of a formula with its first term in a place. -/
def Formula.pieces (reading : Reading) (position : Position) (slot : Option Slot)
    (formula : Formula) : List Piece :=
  formula.head.pieces reading position slot ++ formula.tailPieces reading

/-- The pieces of a conjunction, if there is one. -/
def conjunctionPieces : Option Conjunction → List Piece
  | some conjunction => [.gap, .word conjunction.text.toList, .gap]
  | none => []

/-- The pieces of a clause. -/
def Clause.pieces (reading : Reading) (clause : Clause) : List Piece :=
  clause.left.pieces reading .left none ++ .operator clause.comparison.text.toList ::
    clause.right.pieces reading .right (Encoder.comparedSlot? clause.left.head) ++
    conjunctionPieces clause.conjunction

/-- The pieces of the clauses of a condition. -/
def clausePieces (reading : Reading) : List Clause → List Piece
  | [] => []
  | first :: rest => first.pieces reading ++ clausePieces reading rest

/-- The pieces of a jump. -/
def jumpPieces (kind : JumpKind) (address : Nat) : List Piece :=
  if kind ≠ .gosub ∧ address = 0 then [.word kind.text.toList]
  else [.word kind.text.toList, .gap, .label (Text.hexCapital 2 address)]

/-- The pieces of the line of a statement. -/
def Statement.pieces (reading : Reading) (labels : Registry Int Nat) : Statement → List Piece
  | .expression value => value.pieces reading .statement none
  | .assign target formula =>
    target.pieces reading .statement none ++
      .operator "=".toList :: formula.pieces reading .formula none
  | .objectStep object reference step =>
    [.ofObject (reading.objectText object), .dot, .word reference.toList, .step step]
  | .branch clauses _ => .word "if".toList :: .gap :: clausePieces reading clauses
  | .returnGuard value _ =>
    [.word "if".toList, .gap, .bracketed "ScriptRv".toList, .operator "=".toList,
      .numeral (Text.integer value)]
  | .jump kind goal => jumpPieces kind ((goal.bind labels.find?).getD 0)
  | .word kind => [.word kind.text.toList]
  | .anchor value => [.bracketed "Anchor".toList, .equals, .numeral (Text.integer value)]
  | .taskPause goal =>
    [.bracketed ("TaskPause(#".toList ++ Text.hexCapital 2 ((labels.find? goal).getD 0) ++ [')'])]
  | .label _ => []
  | .bare => []

/-! ### What listings write -/

/-- A part of a line is written as sound pieces, and its comment stays on the line. -/
structure Excerpt.Spells (symbols : Symbols) (excerpt : Excerpt) (pieces : List Piece) : Prop where
  text_eq : excerpt.text.toList = Piece.line Piece.raw pieces
  sound : ∀ piece ∈ pieces, piece.Sound symbols
  comment_unbroken : ∀ comment ∈ excerpt.comment, ∀ c ∈ comment.toList,
    Text.isLineBreak c = false

namespace Excerpt.Spells

variable {symbols : Symbols} {first second : Excerpt} {front back : List Piece}

theorem append (one : first.Spells symbols front) (two : second.Spells symbols back) :
    (first ++ second).Spells symbols (front ++ back) where
  text_eq := by
    rw [text_append, String.toList_append, one.text_eq, two.text_eq, Piece.line_append]
  sound piece member := (List.mem_append.mp member).elim (one.sound piece) (two.sound piece)
  comment_unbroken comment member := by
    have member : comment ∈ (second.comment <|> first.comment) := member
    cases later : second.comment with
    | some other =>
      rw [later] at member
      exact two.comment_unbroken comment (later ▸ member)
    | none =>
      rw [later] at member
      exact one.comment_unbroken comment member

theorem plain {text : String} (same : text.toList = Piece.line Piece.raw front)
    (sound : ∀ piece ∈ front, piece.Sound symbols) : (Excerpt.plain text).Spells symbols front where
  text_eq := same
  sound := sound
  comment_unbroken _ member := by cases member

theorem single {text : String} {piece : Piece} (same : text.toList = piece.raw)
    (sound : piece.Sound symbols) : (Excerpt.plain text).Spells symbols [piece] :=
  plain (by rw [same, Piece.line_cons, Piece.line_nil, List.append_nil])
    fun _ member => List.mem_singleton.mp member ▸ sound

theorem nothing : (Excerpt.plain "").Spells symbols [] :=
  plain rfl fun _ member => absurd member List.not_mem_nil

end Excerpt.Spells

section Listings

variable {reading : Reading}

/-- What cannot be counted out of its range is found again. -/
theorem Reading.stringText_eq (few : reading.program.strings.length < Bytes.range 4)
    (text : String) : reading.stringText text = text := by
  have place : reading.program.strings.idxOf text ≤ reading.program.strings.length :=
    List.idxOf_le_length
  rw [stringText, Nat.mod_eq_of_lt (Nat.lt_of_le_of_lt place few)]
  by_cases member : text ∈ reading.program.strings
  · rw [List.getElem?_eq_getElem (List.idxOf_lt_length_of_mem member), List.getElem_idxOf]
    rfl
  · rw [List.idxOf_eq_length member, List.getElem?_eq_none (Nat.le_refl _)]
    rfl

theorem Reading.referenceText_eq (few : reading.symbols.references.length ≤ 256) {name : String}
    (known : name ∈ reading.symbols.references) : reading.referenceText name = name := by
  have place := List.idxOf_lt_length_of_mem known
  rw [referenceText, Nat.mod_eq_of_lt (by omega), List.getElem?_eq_getElem place,
    List.getElem_idxOf]
  rfl

theorem spells_object {object : String} (isObject : IsObject object.toList) :
    (Excerpt.plain (reading.objectText object ++ ".")).Spells reading.symbols
      [.ofObject (reading.objectText object), .dot] := by
  refine .plain ?_ ?_
  · rw [String.toList_append, Piece.line_cons, Piece.raw_ofObject]
    rfl
  · intro piece member
    rcases List.mem_cons.mp member with rfl | member
    · exact Piece.sound_ofObject (reading.isObject_objectText isObject) _
    · cases List.mem_singleton.mp member
      trivial

theorem spells_reference (few : reading.symbols.references.length ≤ 256) {name : String}
    (isWord : Piece.IsWord name.toList) (known : name ∈ reading.symbols.references) :
    (Excerpt.plain (reading.referenceText name)).Spells reading.symbols [.word name.toList] := by
  rw [Reading.referenceText_eq few known]
  exact .single rfl (Or.inl isWord)

theorem spells_dialogue (legible : reading.symbols.Legible) {label : String}
    (noQuote : '"' ∉ label.toList) (unbroken : ∀ c ∈ label.toList, Text.isLineBreak c = false) :
    (reading.dialogueExcerpt label).Spells reading.symbols [.quoted label.toList] where
  text_eq := by simp [Reading.dialogueExcerpt, Piece.raw]
  sound piece member := List.mem_singleton.mp member ▸ ⟨noQuote, unbroken⟩
  comment_unbroken comment member c there := by
    obtain ⟨subtitle, found, rfl⟩ := Option.map_eq_some_iff.mp member
    simp only [String.toList_append, List.mem_append] at there
    rcases there with ((dialogue | inLabel) | equals) | inSubtitle
    · have marks : ∀ c ∈ "Dlg ".toList, Text.isLineBreak c = false := forall_mem_of_all (by decide)
      exact marks c dialogue
    · exact unbroken c inLabel
    · have marks : ∀ c ∈ " = ".toList, Text.isLineBreak c = false := forall_mem_of_all (by decide)
      exact marks c equals
    · exact legible.subtitle_unbroken _ (Registry.mem_entries_of_find? found) c inSubtitle

theorem spells_call {multitask : Bool} {name : String} (isWord : Piece.IsWord name.toList)
    {arguments : Excerpt} {pieces : List Piece}
    (spells : arguments.Spells reading.symbols pieces) :
    (callExcerpt multitask name arguments).Spells reading.symbols
      (callPieces multitask name pieces) := by
  have word : (Piece.word ((if multitask then "@" else "") ++ name).toList).Sound
      reading.symbols := by
    cases multitask with
    | false =>
      refine Or.inl ?_
      rw [if_neg Bool.false_ne_true, String.empty_append]
      exact isWord
    | true =>
      refine Or.inr ⟨name.toList, ?_, isWord⟩
      rw [if_pos rfl, String.toList_append]
      rfl
  have opens : (Excerpt.plain ((if multitask then "@" else "") ++ name ++ "(")).Spells
      reading.symbols [.word ((if multitask then "@" else "") ++ name).toList, .opening] := by
    refine .plain ?_ ?_
    · rw [String.toList_append]
      rfl
    · intro piece member
      rcases List.mem_cons.mp member with rfl | member
      · exact word
      · cases List.mem_singleton.mp member
        trivial
  have closes : (Excerpt.plain ")").Spells reading.symbols [.closing] := .single rfl trivial
  exact opens.append (spells.append closes)

mutual

/-- A term is written as its pieces. -/
theorem Term.spells_excerpt (legible : reading.symbols.Legible)
    (few : reading.program.strings.length < Bytes.range 4) (value : Term) {position : Position}
    {slot : Option Slot} (each : value.Each (Term.Spelled reading.symbols) position slot) :
    (value.excerpt reading position slot).Spells reading.symbols
      (value.pieces reading position slot) := by
  match value with
  | .call name arguments multitask =>
    rw [excerpt, pieces]
    exact spells_call each.1.1 (Term.spells_excerpts legible few name 0 arguments each.2)
  | .flag name =>
    rw [excerpt, pieces]
    exact .single rfl (Or.inl each.1.1)
  | .localVariable index =>
    rw [excerpt, pieces]
    exact .single rfl (Or.inl (Piece.isWord_variable _))
  | .number given =>
    rw [excerpt, pieces]
    have kind : Encoder.slotKind reading.around position slot ≠ some .dialogue := each.2.2
    rw [Reading.numberExcerpt, if_neg kind]
    exact .single (Piece.raw_ofNumber _ _ _).symm (Piece.sound_ofNumber legible _ _)
  | .text written =>
    obtain ⟨noQuote, unbroken⟩ := each.1
    rw [excerpt, pieces, Reading.textExcerpt]
    split
    · exact spells_dialogue legible noQuote unbroken
    · rw [Reading.stringText_eq few]
      exact .single (by simp [Piece.raw]) ⟨noQuote, unbroken⟩
  | .property object name =>
    rw [excerpt, pieces]
    exact (spells_object each.1.1).append
      (spells_reference legible.references_length each.1.2 each.2.1)
  | .objectCall object name arguments multitask =>
    rw [excerpt, pieces]
    exact (spells_object each.1.1.1).append
      (spells_call each.1.1.2 (Term.spells_excerpts legible few name 0 arguments each.2))
  | .chain head operators operands step => exact each.1.elim

theorem Term.spells_excerpts (legible : reading.symbols.Legible)
    (few : reading.program.strings.length < Bytes.range 4) (function : String) (index : Nat)
    (values : List Term)
    (each : Term.EachArgument (Term.Spelled reading.symbols) function index values) :
    (Term.excerpts reading function index values).Spells reading.symbols
      (Term.argumentPieces reading function index values) := by
  match values with
  | [] => exact .nothing
  | first :: rest =>
    have one := Term.spells_excerpt legible few first each.1
    have others := Term.spells_excerpts legible few function (index + 1) rest each.2
    rw [Term.excerpts, Term.argumentPieces, List.append_assoc]
    refine .append ?_ (one.append others)
    split
    · exact .nothing
    · exact .single rfl trivial

end

theorem toList_labelText (address : Nat) :
    (labelText address).toList = '#' :: Text.hexCapital 2 address :=
  String.toList_ofList

theorem sound_operator (symbols : Symbols) (operator : Operator) :
    (Piece.operator operator.text.toList).Sound symbols := by
  show operator.text.toList ∈ Piece.operatorMarks
  cases operator <;> decide

theorem sound_comparison (symbols : Symbols) (comparison : Comparison) :
    (Piece.operator comparison.text.toList).Sound symbols := by
  show comparison.text.toList ∈ Piece.operatorMarks
  cases comparison <;> decide

theorem spells_mark {symbols : Symbols} {text : String}
    (sound : (Piece.operator text.toList).Sound symbols) :
    (Excerpt.plain (" " ++ text ++ " ")).Spells symbols [.operator text.toList] :=
  .single (by simp [Piece.raw]) sound

theorem sound_label (symbols : Symbols) (address : Nat) :
    (Piece.label (Text.hexCapital 2 address)).Sound symbols :=
  ⟨Text.hexCapital_ne_nil 2 address, Text.all_isHexDigit_hexCapital 2 address⟩

/-- A number behind a text. -/
theorem Excerpt.Spells.number {symbols : Symbols} {text : String} {front : List Piece}
    (spells : (Excerpt.plain text).Spells symbols front) (value : Int) :
    (Excerpt.plain (text ++ String.ofList (Text.integer value))).Spells symbols
      (front ++ [.numeral (Text.integer value)]) := by
  rw [← Excerpt.plain_append_plain]
  exact spells.append (.single String.toList_ofList (Piece.isNumeral_integer value))

/-- A word of the language. -/
theorem sound_keyword (symbols : Symbols) {written : List Char}
    (word : written.all Text.isNameChar && written.any (fun c => !c.isDigit)) :
    (Piece.word written).Sound symbols :=
  Or.inl ((Bool.and_eq_true _ _).mp word)

/-- A jump is its word, and the label behind it if there is one. -/
theorem spells_jump (symbols : Symbols) (kind : JumpKind) (address : Nat) :
    (Excerpt.plain (jumpText kind address)).Spells symbols (jumpPieces kind address) := by
  have word : (Piece.word kind.text.toList).Sound symbols := by
    cases kind <;> exact sound_keyword _ (by decide)
  unfold jumpText jumpPieces
  split
  · exact .single rfl word
  · refine .plain ?_ ?_
    · rw [String.toList_append, String.toList_append, toList_labelText]
      simp [Piece.raw]
    · intro piece member
      simp only [List.mem_cons, List.not_mem_nil, or_false] at member
      rcases member with rfl | rfl | rfl
      · exact word
      · trivial
      · exact sound_label _ _

variable (legible : reading.symbols.Legible)
  (few : reading.program.strings.length < Bytes.range 4)

include legible few

theorem spells_operations (list : List (Operator × Term))
    (each : ∀ pair ∈ list, pair.2.Each (Term.Spelled reading.symbols) .formula none) :
    (operationsExcerpt reading list).Spells reading.symbols (operationPieces reading list) := by
  induction list with
  | nil => exact .nothing
  | cons pair rest inductionHypothesis =>
    obtain ⟨operator, operand⟩ := pair
    have mark := spells_mark (sound_operator reading.symbols operator)
    have one := operand.spells_excerpt legible few (each _ List.mem_cons_self)
    have others := inductionHypothesis fun pair member => each pair (List.mem_cons_of_mem _ member)
    exact mark.append (one.append others)

theorem Formula.spells_excerpt {formula : Formula} {position : Position} {slot : Option Slot}
    (each : formula.Each (Term.Spelled reading.symbols) position slot) :
    (formula.excerpt reading position slot).Spells reading.symbols
      (formula.pieces reading position slot) := by
  refine (formula.head.spells_excerpt legible few each.1).append (.append ?_ ?_)
  · exact spells_operations legible few _ fun pair member => each.2 _ (List.of_mem_zip member).2
  · cases formula.step with
    | none => exact .nothing
    | some step => exact .single rfl trivial

theorem Clause.spells_excerpt {clause : Clause}
    (each : clause.Each (Term.Spelled reading.symbols)) :
    (clause.excerpt reading).Spells reading.symbols (clause.pieces reading) := by
  have left := Formula.spells_excerpt legible few each.1
  have right := Formula.spells_excerpt legible few each.2
  have mark := spells_mark (sound_comparison reading.symbols clause.comparison)
  rw [Clause.excerpt, Clause.pieces, List.append_assoc]
  refine left.append (mark.append (right.append ?_))
  cases clause.conjunction with
  | none => exact .nothing
  | some conjunction =>
    have word : (Piece.word conjunction.text.toList).Sound reading.symbols := by
      cases conjunction <;> exact sound_keyword _ (by decide)
    refine .plain (by simp [conjunctionPieces, Piece.raw]) fun piece member => ?_
    simp only [conjunctionPieces, List.mem_cons, List.not_mem_nil, or_false] at member
    rcases member with rfl | rfl | rfl
    · trivial
    · exact word
    · trivial

theorem spells_clauses {clauses : List Clause}
    (each : ∀ clause ∈ clauses, clause.Each (Term.Spelled reading.symbols)) :
    (clausesExcerpt reading clauses).Spells reading.symbols (clausePieces reading clauses) := by
  induction clauses with
  | nil => exact .nothing
  | cons first rest inductionHypothesis =>
    have one := Clause.spells_excerpt legible few (each first List.mem_cons_self)
    exact one.append (inductionHypothesis fun clause member =>
      each clause (List.mem_cons_of_mem _ member))

omit few in
/-- The comment of a flag stays on the line. -/
theorem spells_targetComment (target : Term) :
    (⟨"", reading.targetComment? target⟩ : Excerpt).Spells reading.symbols [] where
  text_eq := rfl
  sound _ member := absurd member List.not_mem_nil
  comment_unbroken comment member := by
    cases target with
    | flag name =>
      obtain ⟨flag, found, commented⟩ := Option.bind_eq_some_iff.mp member
      obtain ⟨id, -, there⟩ := Option.bind_eq_some_iff.mp found
      exact legible.comment_unbroken flag (List.mem_of_getElem? there) comment commented
    | _ => cases member

/-- The line of a statement is written as its pieces. -/
theorem Statement.spells_heading (labels : Registry Int Nat) {statement : Statement}
    (each : statement.EachTerm (Term.Spelled reading.symbols)) :
    (statement.heading reading labels).Spells reading.symbols
      (statement.pieces reading labels) := by
  have guardWord : (Piece.word "if".toList).Sound reading.symbols := sound_keyword _ (by decide)
  have equals : "=".toList ∈ Piece.operatorMarks := by decide
  cases statement with
  | expression value => exact value.spells_excerpt legible few each
  | assign target formula =>
    have mark : (Excerpt.plain " = ").Spells reading.symbols [.operator "=".toList] :=
      .single rfl equals
    have written := Formula.spells_excerpt legible few each.2
    have comment := spells_targetComment legible target
    have tail := (mark.append written).append comment
    rw [List.append_nil] at tail
    exact (target.spells_excerpt legible few each.1).append tail
  | objectStep object reference step =>
    have named := spells_reference legible.references_length each.1.2 each.2.1
    exact (spells_object each.1.1).append (named.append (.single rfl trivial))
  | branch clauses body =>
    have opened : (Excerpt.plain "if ").Spells reading.symbols [.word "if".toList, .gap] :=
      .plain rfl (by simpa [Piece.Sound] using guardWord)
    exact opened.append (spells_clauses legible few each)
  | returnGuard value body =>
    have opened : (Excerpt.plain "if <ScriptRv> = ").Spells reading.symbols
        [.word "if".toList, .gap, .bracketed "ScriptRv".toList, .operator "=".toList] := by
      refine .plain rfl fun piece member => ?_
      simp only [List.mem_cons, List.not_mem_nil, or_false] at member
      rcases member with rfl | rfl | rfl | rfl
      · exact guardWord
      · trivial
      · exact Or.inr (Or.inl rfl)
      · exact equals
    exact opened.number value
  | jump kind goal => exact spells_jump reading.symbols kind _
  | word kind => cases kind <;> exact .single rfl (sound_keyword _ (by decide))
  | anchor value =>
    have opened : (Excerpt.plain "<Anchor>=").Spells reading.symbols
        [.bracketed "Anchor".toList, .equals] := by
      refine .plain rfl fun piece member => ?_
      simp only [List.mem_cons, List.not_mem_nil, or_false] at member
      rcases member with rfl | rfl
      · exact Or.inl rfl
      · trivial
    exact opened.number value
  | taskPause goal =>
    refine .single ?_ ?_
    · rw [String.toList_append, String.toList_append, toList_labelText]
      simp [Piece.raw]
    · obtain ⟨filled, digits⟩ := sound_label reading.symbols ((labels.find? goal).getD 0)
      exact Or.inr (Or.inr ⟨_, filled, digits, rfl⟩)
  | label goal => exact .nothing
  | bare => exact .nothing

end Listings

end MapScript
