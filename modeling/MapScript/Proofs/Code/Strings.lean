/-
This file proves that the table of strings of a compiled script is exact. A script uses a string
as a literal, as the name of an object, or as a dialogue label. All its uses are listed here on
the script itself, each with the place in the code where it is written. Encoding enters the
strings that are referred to by number as they come, and the number of a string does not change
when others are entered behind it. So the table holds each string once, in the order of first
use, with those behind that are dialogue labels only, and every number in the code is the place
of its string in the finished table.
-/

import MapScript.Proofs.Listing.Scripts

namespace MapScript

/-! ### Entering strings -/

namespace StringPool

/-- Enters strings in order, each unless it is there already. -/
def enter (strings texts : List String) : List String := texts.foldl add strings

theorem enter_append (strings front back : List String) :
    enter strings (front ++ back) = enter (enter strings front) back :=
  List.foldl_append

theorem prefix_enter (strings texts : List String) : strings <+: enter strings texts := by
  induction texts generalizing strings with
  | nil => exact List.prefix_rfl
  | cons text rest inductionHypothesis =>
    exact (Encoder.prefix_add strings text).trans (inductionHypothesis _)

theorem nodup_add {strings : List String} (distinct : strings.Nodup) (text : String) :
    (add strings text).Nodup := by
  unfold add
  split
  · exact distinct
  · rename_i absent
    refine List.nodup_append.mpr ⟨distinct, List.pairwise_singleton _ _, ?_⟩
    rintro other member _ single rfl
    rw [List.mem_singleton.mp single] at member
    exact absent (List.contains_iff_mem.mpr member)

theorem nodup_enter {strings : List String} (distinct : strings.Nodup) (texts : List String) :
    (enter strings texts).Nodup := by
  induction texts generalizing strings with
  | nil => exact distinct
  | cons text rest inductionHypothesis => exact inductionHypothesis (nodup_add distinct text)

theorem add_eraseDups (texts : List String) (text : String) :
    add texts.eraseDups text = (texts ++ [text]).eraseDups := by
  rw [List.eraseDups_append, add, List.removeAll, List.filter_cons, List.filter_nil]
  have same : texts.eraseDups.contains text = texts.elem text := by
    rw [Bool.eq_iff_iff, List.contains_iff_mem, List.mem_eraseDups, List.elem_iff]
  rw [same]
  cases texts.elem text with
  | true => exact (List.append_nil _).symm
  | false => rfl

/-- What is entered are the strings without repetitions, in order of first use. -/
theorem enter_eq_eraseDups (texts : List String) : enter [] texts = texts.eraseDups := by
  have behind (front : List String) :
      enter front.eraseDups texts = (front ++ texts).eraseDups := by
    induction texts generalizing front with
    | nil => rw [List.append_nil]; rfl
    | cons text rest inductionHypothesis =>
      show enter (add front.eraseDups text) rest = _
      rw [add_eraseDups, inductionHypothesis, List.append_assoc]
      rfl
  exact behind []

/-- The strings of a script are all different if those of each kind are. -/
theorem nodup_all {pool : StringPool} (strings : pool.strings.Nodup)
    (dialogue : pool.dialogue.Nodup) : pool.all.Nodup := by
  refine List.nodup_append.mpr ⟨strings, dialogue.filter _, ?_⟩
  rintro text member _ other rfl
  have absent := (List.mem_filter.mp other).2
  rw [List.contains_iff_mem.mpr member] at absent
  cases absent

end StringPool

/-! ### Uses of strings -/

/-- What a string is used for: as a literal that code refers to by number, as the name of an
object, also by number, or as a dialogue label, which is written out. -/
inductive StringKind where
  | literal
  | object
  | dialogue
  deriving DecidableEq, Repr

/-- A use of a string, and where it is written in the code. -/
structure StringUse where
  place : Nat
  kind : StringKind
  text : String
  deriving DecidableEq, Repr

namespace StringUse

/-- The string, if code refers to it by number. -/
def indexed? (use : StringUse) : Option String :=
  if use.kind = .dialogue then none else some use.text

/-- The string, if it is a dialogue label. -/
def dialogue? (use : StringUse) : Option String :=
  if use.kind = .dialogue then some use.text else none

/-- Whether a field is how a use is written, with the numbers that strings have in a table: a
literal is its opcode and the number, the name of an object is its selector and the number,
which is less than the range of a byte, and a dialogue label is its characters. -/
def Writes (table : List String) (use : StringUse) (field : Bytes) : Prop :=
  match use.kind with
  | .literal => field = Opcode.string.code :: Encoder.long (table.idxOf use.text)
  | .object => table.idxOf use.text < 256 ∧
      field = [stringSelector, UInt8.ofNat (table.idxOf use.text)]
  | .dialogue => Bytes.ofText? use.text = some field ∧ field.length = dialogueLabelSize

/-- A use stands at its place in bytes that start at an offset. -/
def StandsIn (table : List String) (offset : Nat) (bytes : Bytes) (use : StringUse) : Prop :=
  ∃ front field back, bytes = front ++ field ++ back ∧ use.place = offset + front.length ∧
    use.Writes table field

theorem Writes.length_pos {table : List String} {use : StringUse} {field : Bytes}
    (writes : use.Writes table field) : 0 < field.length := by
  unfold Writes at writes
  split at writes
  · rw [writes]
    exact Nat.succ_pos _
  · rw [writes.2]
    exact Nat.succ_pos _
  · rw [writes.2]
    exact Nat.succ_pos _

theorem StandsIn.self {table : List String} {offset : Nat} {use : StringUse} {field : Bytes}
    (place : use.place = offset) (writes : use.Writes table field) :
    use.StandsIn table offset field :=
  ⟨[], field, [], (List.append_nil field).symm, place, writes⟩

theorem StandsIn.bounds {table : List String} {offset : Nat} {bytes : Bytes} {use : StringUse}
    (stands : use.StandsIn table offset bytes) :
    offset ≤ use.place ∧ use.place < offset + bytes.length := by
  obtain ⟨front, field, back, rfl, place, writes⟩ := stands
  have filled := writes.length_pos
  simp only [List.length_append]
  omega

theorem StandsIn.append_right {table : List String} {offset : Nat} {bytes : Bytes}
    {use : StringUse} (stands : use.StandsIn table offset bytes) (more : Bytes) :
    use.StandsIn table offset (bytes ++ more) := by
  obtain ⟨front, field, back, rfl, place, writes⟩ := stands
  exact ⟨front, field, back ++ more, by rw [List.append_assoc _ back more], place, writes⟩

theorem StandsIn.append_left {table : List String} {offset : Nat} {bytes more : Bytes}
    {use : StringUse} (stands : use.StandsIn table (offset + more.length) bytes) :
    use.StandsIn table offset (more ++ bytes) := by
  obtain ⟨front, field, back, rfl, place, writes⟩ := stands
  refine ⟨more ++ front, field, back, by simp only [List.append_assoc], ?_, writes⟩
  rw [List.length_append, place, Nat.add_assoc]

end StringUse

/-- The strings among uses that code refers to by number, in order. -/
def indexedTexts (uses : List StringUse) : List String := uses.filterMap StringUse.indexed?

/-- The dialogue labels among uses, in order. -/
def dialogueTexts (uses : List StringUse) : List String := uses.filterMap StringUse.dialogue?

theorem indexedTexts_append (front back : List StringUse) :
    indexedTexts (front ++ back) = indexedTexts front ++ indexedTexts back :=
  List.filterMap_append

theorem dialogueTexts_append (front back : List StringUse) :
    dialogueTexts (front ++ back) = dialogueTexts front ++ dialogueTexts back :=
  List.filterMap_append

theorem mem_indexedTexts {uses : List StringUse} {use : StringUse} (member : use ∈ uses)
    (indexed : use.kind ≠ .dialogue) : use.text ∈ indexedTexts uses :=
  List.mem_filterMap.mpr ⟨use, member, if_neg indexed⟩

/-! ### Uses in a script -/

/-- The use of a string as the name of an object, if it is neither a built-in object nor a
variable or the value of one. -/
def objectUses (place : Nat) (name : String) : List StringUse :=
  if builtInObjects.contains name || Encoder.isNumeral name.toList ||
      (Encoder.variableNameDigits? name.toList).isSome then []
  else [⟨place, .object, name⟩]

/-- The use of a text. The number of a literal stands behind its opcode, and so do the characters
of a dialogue label. -/
def textUse (around : Surroundings) (place : Nat) (position : Position) (slot : Option Slot)
    (text : String) : StringUse :=
  if Encoder.slotKind around position slot = some .dialogue then ⟨place + 1, .dialogue, text⟩
  else ⟨place, .literal, text⟩

mutual

/-- The uses of strings in a term that is written at a place. -/
def Term.stringUses (around : Surroundings) (place : Nat) :
    Term → Position → Option Slot → List StringUse
  | .call name arguments _, _, _ => Term.argumentUses around name 0 (place + 4) arguments
  | .text written, position, slot => [textUse around place position slot written]
  | .property object _, _, _ => objectUses (place + 1) object
  | .objectCall object name arguments _, position, _ =>
    objectUses (place + 1) object ++
      Term.argumentUses around name 0 (place + if position = .statement then 7 else 6) arguments
  | _, _, _ => []

/-- The uses of strings in the arguments of a function, from one of them on. -/
def Term.argumentUses (around : Surroundings) (function : String) (index place : Nat) :
    List Term → List StringUse
  | [] => []
  | first :: rest =>
    first.stringUses around place .parameter (some ⟨function, index⟩) ++
      Term.argumentUses around function (index + 1)
        (place + first.codeSize around.symbols .parameter) rest

end

/-- The uses of strings in operators with their terms. -/
def operationUses (around : Surroundings) (place : Nat) : List (Operator × Term) → List StringUse
  | [] => []
  | (_, operand) :: rest =>
    operand.stringUses around (place + 1) .formula none ++
      operationUses around (place + (1 + operand.codeSize around.symbols .formula)) rest

namespace Formula

/-- The uses of strings behind the first term of a formula. -/
def tailUses (around : Surroundings) (place : Nat) (formula : Formula) : List StringUse :=
  operationUses around place (formula.operators.zip formula.operands)

/-- The uses of strings in a formula. -/
def stringUses (around : Surroundings) (place : Nat) (formula : Formula) : List StringUse :=
  formula.head.stringUses around place .formula none ++
    formula.tailUses around (place + formula.head.codeSize around.symbols .formula)

/-- The uses of strings on a side of a comparison. -/
def sideUses (around : Surroundings) (place : Nat) (position : Position) (slot : Option Slot)
    (formula : Formula) : List StringUse :=
  formula.head.stringUses around place position slot ++
    if Encoder.carriesOperators position formula.head then
      formula.tailUses around (place + formula.head.codeSize around.symbols position)
    else []

end Formula

/-- The uses of strings in a clause. -/
def Clause.stringUses (around : Surroundings) (place : Nat) (clause : Clause) : List StringUse :=
  clause.left.sideUses around place .left none ++
    clause.right.sideUses around (place + (clause.left.sideSize around.symbols .left + 1)) .right
      (Encoder.comparedSlot? clause.left.head)

/-- The uses of strings in a condition. -/
def clauseUses (around : Surroundings) (place : Nat) : List Clause → List StringUse
  | [] => []
  | first :: rest =>
    first.stringUses around place ++
      clauseUses around (place + first.codeSize around.symbols) rest

mutual

/-- The uses of strings in a statement at an address, and in its block. -/
def Statement.stringUses (around : Surroundings) (address : Nat) : Statement → List StringUse
  | .expression value => value.stringUses around address .statement none
  | .assign target formula =>
    target.stringUses around address .statement none ++
      formula.stringUses around (address + target.codeSize around.symbols .statement)
  | .objectStep object _ _ => objectUses (address + 1) object
  | .branch clauses body =>
    clauseUses around (address + 1) clauses ++
      body.stringUses around (address + 5 + clausesSize around.symbols clauses)
  | .returnGuard _ body => body.stringUses around (address + 2)
  | _ => []

/-- The uses of strings in a block at an address, and in the blocks in it. -/
def Block.stringUses (around : Surroundings) (address : Nat) : Block → List StringUse
  | .nil => []
  | .cons _ first rest =>
    first.stringUses around address ++
      rest.stringUses around (address + first.codeSize around.symbols)

end

/-! ### Encoding enters the strings that are used -/

/-- What holds of bytes that were encoded at an offset, with certain uses of strings: they are as
many as expected, the strings have been entered in order, the uses stand in the order of their
places, and each is written with the number that its string has from then on. -/
structure Enters (offset : Nat) (uses : List StringUse) (size : Nat) (before after : StringPool)
    (bytes : Bytes) : Prop where
  size_eq : bytes.length = size
  strings_eq : after.strings = StringPool.enter before.strings (indexedTexts uses)
  dialogue_eq : after.dialogue = StringPool.enter before.dialogue (dialogueTexts uses)
  ordered : uses.Pairwise fun one two => one.place < two.place
  stands : ∀ table, after.strings <+: table → ∀ use ∈ uses, use.StandsIn table offset bytes

namespace Enters

variable {offset size more : Nat} {uses others : List StringUse}
  {before between after pool : StringPool} {bytes front back : Bytes}

/-- Bytes without strings. -/
theorem quiet (length : bytes.length = size) : Enters offset [] size pool pool bytes :=
  ⟨length, rfl, rfl, .nil, fun _ _ _ member => absurd member List.not_mem_nil⟩

theorem grows (enters : Enters offset uses size before after bytes) :
    before.strings <+: after.strings :=
  enters.strings_eq ▸ StringPool.prefix_enter _ _

theorem append (first : Enters offset uses size before between front)
    (second : Enters (offset + size) others more between after back) :
    Enters offset (uses ++ others) (size + more) before after (front ++ back) where
  size_eq := by rw [List.length_append, first.size_eq, second.size_eq]
  strings_eq := by
    rw [indexedTexts_append, StringPool.enter_append, ← first.strings_eq, second.strings_eq]
  dialogue_eq := by
    rw [dialogueTexts_append, StringPool.enter_append, ← first.dialogue_eq, second.dialogue_eq]
  ordered := by
    refine List.pairwise_append.mpr ⟨first.ordered, second.ordered, fun one here two there => ?_⟩
    have left := (first.stands _ List.prefix_rfl one here).bounds
    have right := (second.stands _ List.prefix_rfl two there).bounds
    rw [first.size_eq] at left
    omega
  stands table kept use member := by
    rcases List.mem_append.mp member with here | there
    · -- Strings that are entered later stand behind, and change no number.
      exact (first.stands table (second.grows.trans kept) use here).append_right back
    · exact (first.size_eq ▸ second.stands table kept use there).append_left

/-- Bytes in front that hold no string. -/
theorem behind (length : front.length = more)
    (enters : Enters (offset + more) uses size before after bytes) :
    Enters offset uses (more + size) before after (front ++ bytes) :=
  (quiet length).append enters

/-- Bytes behind that hold no string. -/
theorem followed (enters : Enters offset uses size before after bytes)
    (length : back.length = more) :
    Enters offset uses (size + more) before after (bytes ++ back) := by
  have whole := enters.append (@quiet (offset + size) more after back length)
  rwa [List.append_nil] at whole

theorem cast {other : Nat} (enters : Enters offset uses size before after bytes)
    (same : size = other) : Enters offset uses other before after bytes :=
  same ▸ enters

end Enters

namespace Encoder

variable {around : Surroundings} {pool next : StringPool} {bytes : Bytes}

/-- A string that is used by number. -/
theorem enters_entered {offset size : Nat} {use : StringUse} (length : bytes.length = size)
    (indexed : use.kind ≠ .dialogue) (place : use.place = offset)
    (writes : ∀ table, (pool.entered use.text).strings <+: table →
      table.idxOf use.text = (pool.entered use.text).strings.idxOf use.text →
      use.Writes table bytes) :
    Enters offset [use] size pool (pool.entered use.text) bytes where
  size_eq := length
  strings_eq := by
    rw [indexedTexts, List.filterMap_cons, StringUse.indexed?, if_neg indexed]
    rfl
  dialogue_eq := by
    rw [dialogueTexts, List.filterMap_cons, StringUse.dialogue?, if_neg indexed]
    rfl
  ordered := List.pairwise_singleton _ _
  stands table kept other member := by
    cases List.mem_singleton.mp member
    have same := idxOf_of_prefix kept (mem_add pool.strings use.text)
    exact .self place (writes table kept same)

theorem enters_objectName {name : String}
    (encoded : (objectName around name).run pool = .ok (bytes, next)) (offset : Nat) :
    Enters offset (objectUses offset name) 2 pool next bytes := by
  unfold objectUses
  cases objectName_eq_ok encoded with
  | builtIn index found =>
    have there := List.contains_iff_mem.mpr (List.mem_of_getElem? found)
    rw [if_pos (by rw [there]; rfl)]
    exact .quiet rfl
  | ofValue value index foreign numeral written found small =>
    rw [if_pos (by rw [numeral]; simp)]
    exact .quiet rfl
  | ofVariable digits index foreign word named written inside small =>
    rw [if_pos (by rw [named]; simp)]
    exact .quiet rfl
  | ofString foreign word plain small =>
    rw [if_neg (by rw [foreign, word, plain]; decide)]
    refine @enters_entered _ _ offset 2 ⟨offset, .object, name⟩ rfl nofun rfl ?_
    intro table _ same
    exact ⟨same ▸ small, congrArg (fun index => [stringSelector, UInt8.ofNat index]) same.symm⟩

theorem enters_reference {name : String}
    (encoded : (reference around name).run pool = .ok (bytes, next)) (offset : Nat) :
    Enters offset [] 2 pool next bytes := by
  obtain ⟨length, -, rfl⟩ := reference_eq_ok encoded
  exact .quiet length

theorem enters_textLiteral {position : Position} {slot : Option Slot} {text : String}
    (encoded : (textLiteral around position slot text).run pool = .ok (bytes, next))
    (offset : Nat) :
    Enters offset [textUse around offset position slot text] 5 pool next bytes := by
  unfold textUse
  cases textLiteral_eq_ok encoded with
  | dialogue label taken packed size =>
    rw [if_pos taken]
    refine ⟨congrArg (· + 1) size, rfl, rfl, List.pairwise_singleton _ _,
      fun table _ use member => ?_⟩
    cases List.mem_singleton.mp member
    have stands : StringUse.StandsIn table (offset + 1) label ⟨offset + 1, .dialogue, text⟩ :=
      .self rfl ⟨packed, size⟩
    exact @StringUse.StandsIn.append_left _ _ _ [(numberOpcode position slot).code] _ stands
  | string plain =>
    rw [if_neg plain]
    refine @enters_entered _ _ offset 5 ⟨offset, .literal, text⟩
      (congrArg (· + 1) (length_long _)) nofun rfl ?_
    intro table _ same
    exact congrArg (fun index : Nat => Opcode.string.code :: long index) same.symm

/-- A call, given what its arguments enter. -/
theorem enters_callWith {name : String} {multitask withOpcode : Bool} {count size offset : Nat}
    {arguments : Encoder Bytes} {uses : List StringUse}
    (encoded : (callWith around name multitask withOpcode count arguments).run pool =
      .ok (bytes, next)) (empty : count = 0 → uses = [])
    (enters : ∀ {before after inside}, arguments.run before = .ok (inside, after) →
      Enters (offset + (withOpcode.toNat + 3)) uses size before after inside) :
    Enters offset uses (withOpcode.toNat + 2 + argumentsSize around.symbols name size) pool next
      bytes := by
  obtain ⟨function, number, rest, called, code, rfl⟩ := callWith_eq_ok encoded
  rw [← List.append_assoc]
  have head : ((if withOpcode then [(callOpcode function multitask).code] else []) ++
      number).length = withOpcode.toNat + 2 := by
    rw [List.length_append, called.length]
    cases withOpcode <;> rfl
  cases code with
  | nothing zero none =>
    rw [empty none, argumentsSize, if_pos (by rw [called.known, zero]), List.append_nil]
    exact .quiet head
  | counted inside next positive small insideOk =>
    rw [argumentsSize, if_neg (by rw [called.known]; simpa using positive), ← Nat.add_assoc,
      List.append_cons]
    refine .behind ?_ (enters insideOk)
    rw [List.length_append, head]
    rfl

/-- An object and a reference, behind an opcode. -/
theorem enters_objectReference {middle : StringPool} {object name : String} {opcode : UInt8}
    {selected number : Bytes}
    (objectOk : (objectName around object).run pool = .ok (selected, middle))
    (nameOk : (reference around name).run middle = .ok (number, next)) (offset : Nat) :
    Enters offset (objectUses (offset + 1) object) 5 pool next (opcode :: (selected ++ number)) := by
  have both := (enters_objectName objectOk (offset + 1)).append (enters_reference nameOk _)
  rw [List.append_nil] at both
  exact @Enters.behind offset _ 1 _ _ _ _ [opcode] rfl both

/-- What can be assigned to, wherever it stands. -/
theorem enters_target {value : Term} (encoded : (target around value).run pool = .ok (bytes, next))
    {position : Position} (sized : position ≠ .parameter) (slot : Option Slot) (offset : Nat) :
    Enters offset (value.stringUses around offset position slot)
      (value.codeSize around.symbols position) pool next bytes := by
  cases target_eq_ok encoded with
  | flag number entry length known found =>
    rw [Term.codeSize, if_neg sized]
    exact .quiet (congrArg (· + 1) length)
  | localVariable index range =>
    rw [Term.codeSize, if_neg sized]
    exact .quiet rfl
  | property object name selected number _ objectOk nameOk =>
    exact enters_objectReference objectOk nameOk offset

/-- A flag or variable on its own, with what it is filled up with. -/
theorem enters_padded {position : Position} {offset size filling : Nat} {alone : ScriptFault}
    {uses : List StringUse} {middle : StringPool} {encoded : Bytes}
    (enters : Enters offset uses size pool middle encoded)
    (padding : (padded position filling alone encoded).run middle = .ok (bytes, next)) :
    Enters offset uses (if position = .parameter then size + filling else size) pool next
      bytes := by
  rcases padded_eq_ok padding with ⟨rfl, ⟨rfl, rfl⟩ | ⟨rfl, rfl⟩⟩
  · exact enters.followed List.length_replicate
  · exact enters

theorem argumentUses_of_length_eq_zero (around : Surroundings) (function : String)
    (index place : Nat) {values : List Term} (none : values.length = 0) :
    Term.argumentUses around function index place values = [] := by
  rw [List.eq_nil_of_length_eq_zero none]
  rfl

mutual

theorem enters_term (value : Term) {position : Position} {slot : Option Slot}
    {pool next : StringPool} {bytes : Bytes}
    (encoded : (term around value position slot).run pool = .ok (bytes, next)) (offset : Nat) :
    Enters offset (value.stringUses around offset position slot)
      (value.codeSize around.symbols position) pool next bytes := by
  cases value with
  | call name arguments multitask =>
    rw [term] at encoded
    exact enters_callWith encoded (argumentUses_of_length_eq_zero around name 0 _) fun inside =>
      enters_terms name 0 arguments inside _
  | flag name =>
    simp only [term, run_bind_eq_ok] at encoded
    obtain ⟨head, middle, headOk, rest⟩ := encoded
    have written := @enters_target _ _ _ _ _ headOk .formula (by decide) none offset
    exact enters_padded written rest
  | localVariable index =>
    simp only [term, run_bind_eq_ok] at encoded
    obtain ⟨head, middle, headOk, rest⟩ := encoded
    have written := @enters_target _ _ _ _ _ headOk .formula (by decide) none offset
    exact enters_padded written rest
  | number value =>
    cases encoded
    exact .quiet (congrArg (· + 1) (length_long value))
  | text written => exact enters_textLiteral encoded offset
  | property object name =>
    rw [term] at encoded
    exact @enters_target _ _ _ _ (.property object name) encoded .left (by decide) slot offset
  | objectCall object name arguments multitask =>
    obtain ⟨-, function, selected, middle, call, selectedOk, callOk, rfl⟩ :=
      objectCall_eq_ok encoded
    have named := enters_objectName selectedOk (offset + 1)
    have call := @enters_callWith _ _ _ _ _ _ _ _ _ (offset + 1 + 2) _ _ callOk
      (argumentUses_of_length_eq_zero around name 0 _)
      fun inside => enters_terms name 0 arguments inside _
    have place : offset + 1 + 2 + ((decide (position = .statement)).toNat + 3) =
        offset + if position = .statement then 7 else 6 := by
      by_cases statement : position = .statement <;> simp [statement]
    have size : 1 + (2 + ((decide (position = .statement)).toNat + 2 +
        argumentsSize around.symbols name (Term.codeSizes around.symbols arguments))) =
        (Term.objectCall object name arguments multitask).codeSize around.symbols position := by
      rw [Term.codeSize]
      by_cases statement : position = .statement <;> simp [statement] <;> omega
    rw [place] at call
    exact (@Enters.behind offset _ 1 _ _ _ _ [_] rfl (named.append call)).cast size
  | chain head operators operands step => cases encoded

theorem enters_terms (function : String) (index : Nat) (values : List Term)
    {pool next : StringPool} {bytes : Bytes}
    (encoded : (terms around function index values).run pool = .ok (bytes, next))
    (offset : Nat) :
    Enters offset (Term.argumentUses around function index offset values)
      (Term.codeSizes around.symbols values) pool next bytes := by
  cases values with
  | nil =>
    cases encoded
    exact .quiet rfl
  | cons first rest =>
    obtain ⟨front, middle, back, firstOk, restOk, rfl⟩ := terms_cons_eq_ok encoded
    exact (enters_term first firstOk offset).append
      (enters_terms function (index + 1) rest restOk _)

end

/-! ### Formulas and conditions -/

theorem enters_operations (list : List (Operator × Term)) {pool next : StringPool} {bytes : Bytes}
    (encoded : (operations around list).run pool = .ok (bytes, next)) (offset : Nat) :
    Enters offset (operationUses around offset list) (operationsSize around.symbols list) pool next
      bytes := by
  induction list generalizing pool bytes offset with
  | nil =>
    cases encoded
    exact .quiet rfl
  | cons pair rest inductionHypothesis =>
    obtain ⟨operator, operand⟩ := pair
    obtain ⟨front, middle, back, operandOk, restOk, rfl⟩ := operations_cons_eq_ok encoded
    have first := @Enters.behind offset _ 1 _ _ _ _ [operator.code] rfl
      (enters_term operand operandOk (offset + 1))
    exact first.append (inductionHypothesis restOk _)

theorem enters_formulaTail {value : Formula}
    (encoded : (formulaTail around value).run pool = .ok (bytes, next)) (offset : Nat) :
    Enters offset (value.tailUses around offset) (value.tailSize around.symbols) pool next
      bytes := by
  obtain ⟨pairs, pairsOk, rfl⟩ := formulaTail_eq_ok encoded
  refine (enters_operations _ pairsOk offset).followed ?_
  cases value.step <;> rfl

theorem enters_formula {value : Formula}
    (encoded : (formula around value).run pool = .ok (bytes, next)) (offset : Nat) :
    Enters offset (value.stringUses around offset) (value.codeSize around.symbols) pool next
      bytes := by
  obtain ⟨front, middle, back, headOk, tailOk, rfl⟩ := formula_eq_ok encoded
  exact (enters_term value.head headOk offset).append (enters_formulaTail tailOk _)

theorem enters_side {value : Formula} {position : Position} {slot : Option Slot}
    (sized : position ≠ .parameter)
    (encoded : (side around position slot value).run pool = .ok (bytes, next)) (offset : Nat) :
    Enters offset (value.sideUses around offset position slot)
      (value.sideSize around.symbols position) pool next bytes := by
  unfold Formula.sideUses Formula.sideSize
  rcases side_eq_ok encoded with ⟨carries, front, middle, back, headOk, tailOk, rfl⟩ |
    ⟨closed, -, -, alone⟩
  · rw [if_pos carries, if_pos carries]
    exact (enters_target headOk sized slot offset).append (enters_formulaTail tailOk _)
  · rw [closed, if_neg Bool.false_ne_true, if_neg Bool.false_ne_true, List.append_nil, Nat.add_zero]
    exact enters_term value.head alone offset

theorem enters_clause {value : Clause}
    (encoded : (clause around value).run pool = .ok (bytes, next)) (offset : Nat) :
    Enters offset (value.stringUses around offset) (value.codeSize around.symbols) pool next
      bytes := by
  obtain ⟨left, middle, right, leftOk, rightOk, rfl⟩ := clause_eq_ok encoded
  have first := (enters_side (by decide) leftOk offset).followed
    (@List.length_singleton _ value.comparison.code)
  have both := (first.append (enters_side (by decide) rightOk _)).followed
    (@List.length_singleton _ (Conjunction.code value.conjunction))
  rw [List.append_assoc left] at both
  exact both

theorem enters_clauses (list : List Clause) {pool next : StringPool} {bytes : Bytes}
    (encoded : (clauses around list).run pool = .ok (bytes, next)) (offset : Nat) :
    Enters offset (clauseUses around offset list) (clausesSize around.symbols list) pool next
      bytes := by
  induction list generalizing pool bytes offset with
  | nil =>
    cases encoded
    exact .quiet rfl
  | cons first rest inductionHypothesis =>
    obtain ⟨front, middle, back, firstOk, restOk, rfl⟩ := clauses_cons_eq_ok encoded
    exact (enters_clause firstOk offset).append (inductionHypothesis restOk _)

end Encoder

/-! ### Statements -/

namespace Assembler

variable {around : Surroundings} {script : Script} {labels : Registry Int Nat}

/-- Values inside a statement, behind the opcode or not. -/
theorem enters_encode {encoder : Encoder Bytes} {assembly next : Assembly} {cells : List Cell}
    {code : Bytes} {offset size : Nat} {uses : List StringUse}
    (encoded : (encode encoder).run assembly = .ok (cells, next))
    (linked : link script labels cells = .ok code)
    (enters : ∀ {pool bytes}, encoder.run assembly.pool = .ok (bytes, pool) →
      Enters offset uses size assembly.pool pool bytes) :
    Enters offset uses size assembly.pool next.pool code := by
  obtain ⟨bytes, pool, run, rfl, rfl⟩ := encode_eq_ok encoded
  rw [link_ofBytes] at linked
  cases linked
  exact enters run

mutual

theorem enters_statement (written : Statement) {offset : Nat} {assembly next : Assembly}
    {cells : List Cell} {code : Bytes}
    (encoded : (statement around offset written).run assembly = .ok (cells, next))
    (linked : link script labels cells = .ok code) :
    Enters offset (written.stringUses around offset) (written.codeSize around.symbols)
      assembly.pool next.pool code := by
  cases written with
  | label goal =>
    obtain ⟨rfl, -, rfl⟩ := label_eq_ok encoded
    cases linked
    exact .quiet rfl
  | expression value =>
    exact enters_encode encoded linked fun run => Encoder.enters_term value run offset
  | assign target formula =>
    refine enters_encode encoded linked fun {pool bytes} run => ?_
    obtain ⟨head, middle, tail, headOk, tailOk, rfl⟩ := Encoder.run_append_eq_ok run
    exact (Encoder.enters_target headOk (by decide) none offset).append
      (Encoder.enters_formula tailOk _)
  | objectStep object reference step =>
    refine enters_encode encoded linked fun run => ?_
    obtain ⟨selected, number, objectOk, nameOk, rfl⟩ := Encoder.objectReference_eq_ok run
    exact Encoder.enters_objectReference objectOk nameOk offset
  | branch clauses body =>
    obtain ⟨condition, pool, inner, stop, clausesOk, bodyOk, packed, rfl⟩ := branch_eq_ok encoded
    obtain ⟨front, back, frontOk, backOk, rfl⟩ := link_append_eq_ok.mp linked
    rw [link_ofBytes] at frontOk
    cases frontOk
    have condition := Encoder.enters_clauses clauses clausesOk (offset + 1)
    have head := (@Enters.behind offset _ 1 _ _ _ _ [Opcode.branch.code] rfl condition).followed
      (Encoder.packNumber_eq_ok packed).1
    have place : offset + (1 + clausesSize around.symbols clauses + 4) =
      offset + 5 + clausesSize around.symbols clauses := by omega
    have size : 1 + clausesSize around.symbols clauses + 4 + body.codeSize around.symbols =
      5 + clausesSize around.symbols clauses + body.codeSize around.symbols := by omega
    rw [condition.size_eq] at bodyOk
    have inside := enters_block body bodyOk backOk
    -- The block starts behind the four bytes that say where it ends.
    rw [← place] at inside
    refine Enters.cast ?_ size
    rw [Statement.stringUses, ← place]
    exact head.append inside
  | returnGuard value body =>
    obtain ⟨inner, range, bodyOk, rfl⟩ := returnGuard_eq_ok encoded
    obtain ⟨front, back, frontOk, backOk, rfl⟩ := link_append_eq_ok.mp linked
    rw [link_ofBytes] at frontOk
    cases frontOk
    exact .behind rfl (enters_block body bodyOk backOk)
  | jump kind goal =>
    cases goal with
    | none =>
      cases encoded
      exact .quiet (length_of_link linked)
    | some goal =>
      cases encoded
      exact .quiet (length_of_link linked)
  | word kind =>
    cases encoded
    exact .quiet (length_of_link linked)
  | anchor value =>
    obtain ⟨-, rfl, rfl⟩ := anchor_eq_ok encoded
    exact .quiet (length_of_link linked)
  | taskPause goal =>
    cases encoded
    exact .quiet (length_of_link linked)
  | bare => cases encoded

theorem enters_block (written : Block) {offset : Nat} {assembly next : Assembly}
    {cells : List Cell} {code : Bytes}
    (encoded : (block around offset written).run assembly = .ok (cells, next))
    (linked : link script labels cells = .ok code) :
    Enters offset (written.stringUses around offset) (written.codeSize around.symbols)
      assembly.pool next.pool code := by
  cases written with
  | nil =>
    cases encoded
    cases linked
    exact .quiet rfl
  | cons origin first rest =>
    obtain ⟨front, between, back, firstOk, restOk, rfl⟩ := block_cons_eq_ok encoded
    obtain ⟨one, two, frontOk, backOk, rfl⟩ := link_append_eq_ok.mp linked
    have here := enters_statement first firstOk frontOk
    rw [← length_of_link frontOk, here.size_eq] at restOk
    exact here.append (enters_block rest restOk backOk)

end

end Assembler

/-! ### The table of a compiled script -/

/-- The table of strings of a compiled script is exact for the uses of strings, which are listed
in the order of their places. No string stands in it twice. It holds those that code refers to by
number, in order of first use, and then the dialogue labels that are not among them, in order of
first use. Where a string is used by number, the number that is written is its place in the table:
in one byte for an object, and in four bytes for a literal, which count it modulo their range. A
dialogue label is written out. -/
structure Compiled.Tabulates (compiled : Compiled) (uses : List StringUse) : Prop where
  ordered : uses.Pairwise fun one two => one.place < two.place
  distinct : compiled.strings.Nodup
  strings_eq : compiled.strings = (indexedTexts uses).eraseDups ++
    (dialogueTexts uses).eraseDups.filter fun label => label ∉ indexedTexts uses
  literal : ∀ use ∈ uses, use.kind = .literal → ∃ index : Nat,
    compiled.strings[index]? = some use.text ∧
      Bytes.part compiled.code use.place 5 = Opcode.string.code :: Encoder.long index ∧
      (index < Bytes.range 4 → Bytes.little (Bytes.part compiled.code (use.place + 1) 4) = index)
  object : ∀ use ∈ uses, use.kind = .object → ∃ index : Nat,
    compiled.strings[index]? = some use.text ∧ index < 256 ∧
      Bytes.part compiled.code use.place 2 = [stringSelector, UInt8.ofNat index]
  dialogue : ∀ use ∈ uses, use.kind = .dialogue →
    Bytes.ofText? use.text = some (Bytes.part compiled.code use.place dialogueLabelSize)

theorem StringUse.StandsIn.exists_part {table : List String} {code : Bytes} {use : StringUse}
    (stands : use.StandsIn table 0 code) :
    ∃ field, use.Writes table field ∧ Bytes.part code use.place field.length = field := by
  obtain ⟨front, field, back, rfl, place, writes⟩ := stands
  refine ⟨field, writes, ?_⟩
  rw [place, Nat.zero_add, Bytes.part_middle]

theorem Bytes.part_succ {bytes rest : Bytes} {first : UInt8} {start size : Nat}
    (whole : part bytes start (size + 1) = first :: rest) : part bytes (start + 1) size = rest := by
  unfold part at whole ⊢
  rw [← List.tail_drop]
  cases dropped : bytes.drop start with
  | nil =>
    rw [dropped] at whole
    cases whole
  | cons byte others =>
    rw [dropped, List.take_succ_cons] at whole
    exact (List.cons.inj whole).2

theorem StringPool.all_eq {pool : StringPool} {indexed labels : List String}
    (strings : pool.strings = enter [] indexed) (dialogue : pool.dialogue = enter [] labels) :
    pool.all = indexed.eraseDups ++ labels.eraseDups.filter fun label => label ∉ indexed := by
  rw [all, strings, dialogue, enter_eq_eraseDups, enter_eq_eraseDups]
  congr 1
  refine List.filter_congr fun label _ => ?_
  rw [Bool.eq_iff_iff]
  simp [List.mem_eraseDups]

/-- The table of strings of a compiled script is exact. -/
theorem Script.compile_tabulates (symbols : Symbols) (locals : Option (List Int))
    (script : Script) (compiled : Compiled)
    (done : script.compile symbols locals = .ok compiled) :
    compiled.Tabulates (script.body.stringUses ⟨symbols, locals⟩ 0) := by
  obtain ⟨cells, assembly, entry, encoded, linked, -, -, strings, -, -⟩ := compile_eq_ok done
  have enters := Assembler.enters_block script.body encoded linked
  have kept : assembly.pool.strings <+: compiled.strings := by
    rw [strings]
    exact List.prefix_append _ _
  have field (use : StringUse) (member : use ∈ script.body.stringUses ⟨symbols, locals⟩ 0) :=
    (enters.stands compiled.strings kept use member).exists_part
  have whole := strings.trans (StringPool.all_eq enters.strings_eq enters.dialogue_eq)
  have found (use : StringUse) (member : use ∈ script.body.stringUses ⟨symbols, locals⟩ 0)
      (indexed : use.kind ≠ .dialogue) :
      compiled.strings[compiled.strings.idxOf use.text]? = some use.text := by
    refine Encoder.getElem?_stringNumber List.prefix_rfl ?_
    rw [whole]
    exact List.mem_append_left _ (List.mem_eraseDups.mpr (mem_indexedTexts member indexed))
  constructor
  case ordered => exact enters.ordered
  case distinct =>
    rw [strings]
    refine StringPool.nodup_all ?_ ?_
    · exact enters.strings_eq ▸ StringPool.nodup_enter List.nodup_nil _
    · exact enters.dialogue_eq ▸ StringPool.nodup_enter List.nodup_nil _
  case strings_eq => exact whole
  case literal =>
    intro use member kind
    obtain ⟨bytes, writes, part⟩ := field use member
    rw [StringUse.Writes, kind] at writes
    rw [writes, List.length_cons, Encoder.length_long] at part
    refine ⟨_, found use member (by rw [kind]; decide), part, fun fits => ?_⟩
    rw [Bytes.part_succ part, Encoder.little_long, Nat.mod_eq_of_lt fits]
  case object =>
    intro use member kind
    obtain ⟨bytes, writes, part⟩ := field use member
    rw [StringUse.Writes, kind] at writes
    obtain ⟨small, rfl⟩ := writes
    exact ⟨_, found use member (by rw [kind]; decide), small, part⟩
  case dialogue =>
    intro use member kind
    obtain ⟨bytes, writes, part⟩ := field use member
    rw [StringUse.Writes, kind] at writes
    rw [writes.2] at part
    rw [part]
    exact writes.1

/-- Symbols with two functions, one of which takes a dialogue label. -/
def campSymbols : Symbols where
  functions := [.null, ⟨"Say", .task, 1⟩, ⟨"Wait", .function, 2⟩]
  flags := []
  references := []
  attributes := []
  items := []
  maps := .empty
  subtitles := .empty
  parameterKinds := .ofList [("Say0", .dialogue)]

/-- A script in which one string is a dialogue label, a literal and the name of an object. -/
def campText : List Char :=
  ("CAMP\n\x7b\nSay(\"gate\")\nif Wait(\"rope\", Wait(\"gate\")) = 0\n\x7b\n" ++
    "gate.Wait(\"gate\")\nSay(\"rest\")\n\x7d\n\x7d").toList

/-- The uses of strings in the script. -/
def campUses : List StringUse :=
  [⟨5, .dialogue, "gate"⟩, ⟨14, .literal, "rope"⟩, ⟨23, .literal, "gate"⟩, ⟨40, .object, "gate"⟩,
    ⟨46, .literal, "gate"⟩, ⟨56, .dialogue, "rest"⟩]

theorem Script.compile_tabulates_camp :
    ∃ script compiled, Script.parse campSymbols campText = .ok [script] ∧
      script.compile campSymbols none = .ok compiled ∧
      script.body.stringUses ⟨campSymbols, none⟩ 0 = campUses ∧
      compiled.strings = ["rope", "gate", "rest"] ∧ compiled.Tabulates campUses := by
  obtain ⟨script, parsed, checked⟩ := @Script.exists_single_of_any campSymbols campText
    (fun script => decide (script.body.stringUses ⟨campSymbols, none⟩ 0 = campUses) &&
      (script.compile campSymbols none).toOption.any fun (compiled : Compiled) =>
        decide (compiled.strings = ["rope", "gate", "rest"])) (by decide +kernel)
  obtain ⟨uses, compiles⟩ := Bool.and_eq_true_iff.mp checked
  obtain ⟨compiled, done, strings⟩ := exists_ok_of_any compiles
  have tabulates := compile_tabulates campSymbols none script compiled done
  rw [of_decide_eq_true uses] at tabulates
  exact ⟨script, compiled, parsed, done, of_decide_eq_true uses, of_decide_eq_true strings,
    tabulates⟩

end MapScript
