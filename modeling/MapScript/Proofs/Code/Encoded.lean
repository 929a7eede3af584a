/-
This file says what the code of a value is if the value can be encoded. For each kind of
value the bytes are given one after the other, with what had to be found or to be in range
for them. What is proved of encoded values starts from here, so that a change to the code
of one kind of value is a change to one statement.
-/

import MapScript.Code.Encoding
import MapScript.Proofs.Attempt
import MapScript.Proofs.Bytes

namespace MapScript

/-! ### Look-ups -/

namespace Symbols

variable {symbols : Symbols} {name : String} {id : Nat}

theorem resolve_eq_ok {α : Type} {kind : NameKind} {found : Option α} {value : α}
    (success : resolve kind name found = .ok value) : found = some value := by
  cases found with
  | none => cases success
  | some other => exact congrArg some (Except.ok.inj success)

theorem entryAt_of_getElem? {α : Type} {table : List α} {entry : α}
    (found : table[id]? = some entry) : entryAt table (id : Int) = some entry := by
  rw [entryAt, if_pos (Int.natCast_nonneg id), Int.toNat_natCast]
  exact found

theorem getElem?_of_idxOf? {α : Type} [DecidableEq α] {table : List α} {entry : α}
    (found : table.idxOf? entry = some id) : table[id]? = some entry := by
  obtain ⟨inside, same, -⟩ := List.idxOf?_eq_some_iff.mp found
  rw [List.getElem?_eq_getElem inside, same]

/-- A name and the function that its number leads to. -/
theorem function_of_functionId? (found : symbols.functionId? name = some id) :
    ∃ function, symbols.function id = .ok function ∧ function.name = name := by
  have named := getElem?_of_idxOf? found
  rw [List.getElem?_map, Option.map_eq_some_iff] at named
  obtain ⟨function, there, same⟩ := named
  refine ⟨function, ?_, same⟩
  rw [Symbols.function, entryAt_of_getElem? there]

theorem flag_of_flagId? (found : symbols.flagId? name = some id) :
    ∃ flag, symbols.flag id = .ok flag ∧ flag.name = name := by
  have named := getElem?_of_idxOf? found
  rw [List.getElem?_map, Option.map_eq_some_iff] at named
  obtain ⟨flag, there, same⟩ := named
  refine ⟨flag, ?_, same⟩
  rw [Symbols.flag, entryAt_of_getElem? there]

end Symbols

/-- The strings in use once a string has been used, and the dialogue labels as they are. -/
def StringPool.entered (pool : StringPool) (text : String) : StringPool :=
  { pool with strings := StringPool.add pool.strings text }

namespace Encoder

variable {around : Surroundings} {pool next : StringPool} {bytes : Bytes}

/-! ### Numbers -/

theorem byte_eq_ok {value : Int} (encoded : (byte value).run pool = .ok (bytes, next)) :
    (0 ≤ value ∧ value ≤ 255) ∧ bytes = [UInt8.ofNat value.toNat] ∧ next = pool := by
  unfold byte at encoded
  split at encoded
  · rename_i range
    cases encoded
    exact ⟨range, rfl, rfl⟩
  · cases encoded

theorem toNat_byte {value : Int} (range : 0 ≤ value ∧ value ≤ 255) :
    (UInt8.ofNat value.toNat).toNat = value.toNat := by
  rw [UInt8.toNat_ofNat']
  exact Nat.mod_eq_of_lt (by show value.toNat < 256; omega)

theorem packNumber_eq_ok {width value : Nat} (packed : packNumber width value = .ok bytes) :
    bytes.length = width ∧ Bytes.little bytes = value := by
  unfold packNumber at packed
  split at packed
  · rename_i found
    cases packed
    exact ⟨Bytes.length_of_unsigned? found, Int.natCast_inj.mp (Bytes.little_of_unsigned? found)⟩
  · cases packed

theorem word_eq_ok {value : Nat} (encoded : (word value).run pool = .ok (bytes, next)) :
    bytes.length = 2 ∧ Bytes.little bytes = value ∧ next = pool := by
  unfold word at encoded
  obtain ⟨packed, success, same⟩ := run_lift_eq_ok.mp encoded
  cases same
  exact ⟨(packNumber_eq_ok success).1, (packNumber_eq_ok success).2, rfl⟩

/-- The number of a name, as a word. -/
theorem numbered_eq_ok {kind : NameKind} {name : String} {found : Option Nat}
    (encoded : (do let id ← Symbols.resolve kind name found; word id : Encoder Bytes).run pool =
      .ok (bytes, next)) :
    bytes.length = 2 ∧ found = some (Bytes.little bytes) ∧ next = pool := by
  obtain ⟨id, middle, resolved, packed⟩ := run_bind_eq_ok.mp encoded
  obtain ⟨id, success, same⟩ := run_lift_eq_ok.mp resolved
  cases same
  obtain ⟨length, rfl, rfl⟩ := word_eq_ok packed
  exact ⟨length, Symbols.resolve_eq_ok success, rfl⟩

/-! ### Strings -/

theorem prefix_add (strings : List String) (text : String) :
    strings <+: StringPool.add strings text := by
  unfold StringPool.add
  split
  · exact List.prefix_rfl
  · exact List.prefix_append _ _

theorem mem_add (strings : List String) (text : String) : text ∈ StringPool.add strings text := by
  unfold StringPool.add
  split
  · rename_i there
    exact List.contains_iff_mem.mp there
  · exact List.mem_append_right _ (List.mem_singleton_self _)

theorem idxOf_of_prefix {strings all : List String} {text : String} (kept : strings <+: all)
    (member : text ∈ strings) : all.idxOf text = strings.idxOf text := by
  obtain ⟨more, rfl⟩ := kept
  rw [List.idxOf_append, if_pos member]

theorem getElem?_stringNumber {strings all : List String} {text : String} (kept : strings <+: all)
    (member : text ∈ strings) : all[strings.idxOf text]? = some text := by
  rw [← idxOf_of_prefix kept member]
  have inside := List.idxOf_lt_length_of_mem (kept.subset member)
  rw [List.getElem?_eq_getElem inside, List.getElem_idxOf inside]

theorem stringNumber_eq_ok {text : String} {index : Nat}
    (encoded : (stringNumber text).run pool = .ok (index, next)) :
    next = pool.entered text ∧ index = (pool.entered text).strings.idxOf text := by
  cases encoded
  exact ⟨rfl, rfl⟩

/-! ### Parts one after the other -/

theorem run_append_eq_ok {one two : Encoder Bytes}
    (encoded : (do let front ← one; let back ← two; pure (front ++ back) : Encoder Bytes).run pool =
      .ok (bytes, next)) :
    ∃ front middle back, one.run pool = .ok (front, middle) ∧ two.run middle = .ok (back, next) ∧
      bytes = front ++ back := by
  simp only [run_bind_eq_ok] at encoded
  obtain ⟨front, middle, frontOk, back, last, backOk, whole⟩ := encoded
  cases run_pure_eq_ok.mp whole
  exact ⟨front, middle, back, frontOk, backOk, rfl⟩

/-! ### Objects -/

/-- The number of a place, as a byte behind what it is a place of. -/
theorem selected_eq_ok {selector : UInt8} {index : Nat}
    (encoded : (do let place ← byte index; pure (selector :: place) : Encoder Bytes).run pool =
      .ok (bytes, next)) :
    index < 256 ∧ bytes = [selector, UInt8.ofNat index] ∧ next = pool := by
  obtain ⟨place, middle, placed, rest⟩ := run_bind_eq_ok.mp encoded
  obtain ⟨range, rfl, rfl⟩ := byte_eq_ok placed
  cases run_pure_eq_ok.mp rest
  rw [Int.toNat_natCast]
  exact ⟨by omega, rfl, rfl⟩

/-- The code of an object by what its name is: a built-in object, the value of a variable, a
variable, or else a string. -/
inductive ObjectCode (around : Surroundings) (pool : StringPool) (name : String) :
    Bytes → StringPool → Prop where
  | builtIn (index : Nat) (found : builtInObjects[index]? = some name) :
    ObjectCode around pool name [UInt8.ofNat index, 0] pool
  | ofValue (value : Int) (index : Nat) (foreign : builtInObjects.contains name = false)
    (numeral : isNumeral name.toList = true) (written : Text.readSetting? name.toList = some value)
    (found : (around.locals.bind fun locals => locals.idxOf? value) = some index)
    (small : index < 256) :
    ObjectCode around pool name [variableSelector, UInt8.ofNat index] pool
  | ofVariable (digits : List Char) (index : Nat) (foreign : builtInObjects.contains name = false)
    (word : isNumeral name.toList = false)
    (named : variableNameDigits? name.toList = some digits)
    (written : Text.readNatural? digits = some index)
    (inside : (around.locals.any fun locals => locals.length ≤ index) = false)
    (small : index < 256) :
    ObjectCode around pool name [variableSelector, UInt8.ofNat index] pool
  | ofString (foreign : builtInObjects.contains name = false)
    (word : isNumeral name.toList = false) (plain : variableNameDigits? name.toList = none)
    (small : (pool.entered name).strings.idxOf name < 256) :
    ObjectCode around pool name
      [stringSelector, UInt8.ofNat ((pool.entered name).strings.idxOf name)] (pool.entered name)

theorem objectName_eq_ok {name : String}
    (encoded : (objectName around name).run pool = .ok (bytes, next)) :
    ObjectCode around pool name bytes next := by
  unfold objectName at encoded
  split at encoded
  · rename_i index found
    cases run_pure_eq_ok.mp encoded
    exact .builtIn index (Symbols.getElem?_of_idxOf? found)
  · rename_i absent
    have foreign : builtInObjects.contains name = false := by
      rw [Bool.eq_false_iff]
      exact fun there => List.idxOf?_eq_none_iff.mp absent (List.contains_iff_mem.mp there)
    split at encoded
    · rename_i numeral
      unfold objectByValue at encoded
      split at encoded
      · cases encoded
      · rename_i value written
        split at encoded
        · cases encoded
        · rename_i index found
          obtain ⟨small, rfl, rfl⟩ := selected_eq_ok encoded
          exact .ofValue value index foreign numeral written found small
    · rename_i word
      have word := Bool.eq_false_iff.mpr word
      split at encoded
      · rename_i digits named
        unfold objectByVariable at encoded
        split at encoded
        · cases encoded
        · rename_i index written
          split at encoded
          · cases encoded
          · rename_i inside
            obtain ⟨small, rfl, rfl⟩ := selected_eq_ok encoded
            have inside := Bool.eq_false_iff.mpr inside
            exact .ofVariable digits index foreign word named written inside small
      · rename_i plain
        obtain ⟨index, middle, numbered, rest⟩ := run_bind_eq_ok.mp encoded
        obtain ⟨rfl, rfl⟩ := stringNumber_eq_ok numbered
        obtain ⟨small, rfl, rfl⟩ := selected_eq_ok rest
        exact .ofString foreign word plain small

theorem reference_eq_ok {name : String}
    (encoded : (reference around name).run pool = .ok (bytes, next)) :
    bytes.length = 2 ∧ around.symbols.referenceId? name = some (Bytes.little bytes) ∧
      next = pool :=
  numbered_eq_ok encoded

/-- An object and a reference, behind an opcode. -/
theorem objectReference_eq_ok {object name : String} {opcode : UInt8}
    (encoded : (do
      let selected ← objectName around object
      let number ← reference around name
      pure (opcode :: selected ++ number) : Encoder Bytes).run pool = .ok (bytes, next)) :
    ∃ selected number, (objectName around object).run pool = .ok (selected, next) ∧
      (reference around name).run next = .ok (number, next) ∧
      bytes = opcode :: (selected ++ number) := by
  simp only [run_bind_eq_ok] at encoded
  obtain ⟨selected, middle, selectedOk, number, last, numberOk, whole⟩ := encoded
  cases run_pure_eq_ok.mp whole
  obtain ⟨-, -, rfl⟩ := reference_eq_ok numberOk
  exact ⟨selected, number, selectedOk, numberOk, rfl⟩

/-! ### Literals -/

/-- The code of a text: a dialogue label, which is written out, or else a string. -/
inductive TextCode (around : Surroundings) (pool : StringPool) (position : Position)
    (slot : Option Slot) (text : String) : Bytes → StringPool → Prop where
  | dialogue (label : Bytes) (taken : slotKind around position slot = some .dialogue)
    (packed : Bytes.ofText? text = some label) (size : label.length = dialogueLabelSize) :
    TextCode around pool position slot text ((numberOpcode position slot).code :: label)
      { pool with dialogue := StringPool.add pool.dialogue text }
  | string (plain : slotKind around position slot ≠ some .dialogue) :
    TextCode around pool position slot text
      (Opcode.string.code :: long ((pool.entered text).strings.idxOf text)) (pool.entered text)

theorem textLiteral_eq_ok {position : Position} {slot : Option Slot} {text : String}
    (encoded : (textLiteral around position slot text).run pool = .ok (bytes, next)) :
    TextCode around pool position slot text bytes next := by
  unfold textLiteral at encoded
  split at encoded
  · rename_i taken
    unfold dialogueLabel at encoded
    split at encoded
    · cases encoded
    · rename_i label packed
      split at encoded
      · rename_i size
        obtain ⟨_, middle, changed, rest⟩ := run_bind_eq_ok.mp encoded
        cases changed
        cases run_pure_eq_ok.mp rest
        exact .dialogue label taken packed size
      · cases encoded
  · rename_i plain
    obtain ⟨index, middle, numbered, rest⟩ := run_bind_eq_ok.mp encoded
    obtain ⟨rfl, rfl⟩ := stringNumber_eq_ok numbered
    cases run_pure_eq_ok.mp rest
    exact .string plain

/-! ### Targets -/

/-- The code of what can be assigned to: a flag, a variable, or a property of an object. -/
inductive TargetCode (around : Surroundings) (pool : StringPool) :
    Term → Bytes → StringPool → Prop where
  | flag (number : Bytes) (entry : GameFlag) (length : number.length = 2)
    (known : around.symbols.flagId? entry.name = some (Bytes.little number))
    (found : around.symbols.flag (Bytes.little number : Nat) = .ok entry) :
    TargetCode around pool (.flag entry.name) (Opcode.flag.code :: number) pool
  | localVariable (index : Int) (range : 0 ≤ index ∧ index ≤ 255) :
    TargetCode around pool (.localVariable index)
      [Opcode.localVariable.code, UInt8.ofNat index.toNat] pool
  | property (object name : String) (selected number : Bytes) (next : StringPool)
    (objectOk : (objectName around object).run pool = .ok (selected, next))
    (nameOk : (reference around name).run next = .ok (number, next)) :
    TargetCode around pool (.property object name) (Opcode.property.code :: (selected ++ number))
      next

theorem target_eq_ok {value : Term}
    (encoded : (target around value).run pool = .ok (bytes, next)) :
    TargetCode around pool value bytes next := by
  cases value with
  | flag name =>
    simp only [target, run_bind_eq_ok] at encoded
    obtain ⟨id, one, found, number, two, packed, rest⟩ := encoded
    obtain ⟨length, known, rfl⟩ := numbered_eq_ok (run_bind_eq_ok.mpr ⟨id, one, found, packed⟩)
    cases run_pure_eq_ok.mp rest
    obtain ⟨entry, entryFound, rfl⟩ := Symbols.flag_of_flagId? known
    exact .flag number entry length known entryFound
  | localVariable index =>
    simp only [target, run_bind_eq_ok] at encoded
    obtain ⟨place, one, packed, rest⟩ := encoded
    obtain ⟨range, rfl, rfl⟩ := byte_eq_ok packed
    cases run_pure_eq_ok.mp rest
    exact .localVariable index range
  | property object name =>
    obtain ⟨selected, number, objectOk, nameOk, rfl⟩ := objectReference_eq_ok encoded
    exact .property object name selected number next objectOk nameOk
  | call name arguments multitask => cases encoded
  | number value => cases encoded
  | text written => cases encoded
  | objectCall object name arguments multitask => cases encoded
  | chain head operators operands step => cases encoded

/-- A flag or a variable stands on its own in an argument, where it is filled up, or in a
formula. -/
theorem padded_eq_ok {position : Position} {size : Nat} {alone : ScriptFault} {encoded : Bytes}
    (done : (padded position size alone encoded).run pool = .ok (bytes, next)) :
    next = pool ∧ ((position = .parameter ∧ bytes = encoded ++ List.replicate size 0) ∨
      (position = .formula ∧ bytes = encoded)) := by
  unfold padded at done
  split at done
  · cases run_pure_eq_ok.mp done
    exact ⟨rfl, .inl ⟨rfl, rfl⟩⟩
  · cases run_pure_eq_ok.mp done
    exact ⟨rfl, .inr ⟨rfl, rfl⟩⟩
  · cases done

/-! ### Calls -/

/-- A word is the number of a function that has a name. -/
structure FunctionCode (around : Surroundings) (name : String) (function : GameFunction)
    (number : Bytes) : Prop where
  length : number.length = 2
  known : around.symbols.functionId? name = some (Bytes.little number)
  found : around.symbols.function (Bytes.little number : Nat) = .ok function
  named : function.name = name

/-- What stands behind the number of a function: nothing for the one with number zero, which
takes no arguments, and the arguments with their count for any other. -/
inductive ArgumentsCode (id count : Nat) (arguments : Encoder Bytes) (pool : StringPool) :
    Bytes → StringPool → Prop where
  | nothing (zero : id = 0) (empty : count = 0) : ArgumentsCode id count arguments pool [] pool
  | counted (inside : Bytes) (next : StringPool) (positive : id ≠ 0) (small : count < 256)
    (insideOk : arguments.run pool = .ok (inside, next)) :
    ArgumentsCode id count arguments pool (UInt8.ofNat count :: inside) next

/-- The opcode of a call, the number of the function, and its arguments. -/
theorem callWith_eq_ok {name : String} {multitask withOpcode : Bool} {count : Nat}
    {arguments : Encoder Bytes}
    (encoded : (callWith around name multitask withOpcode count arguments).run pool =
      .ok (bytes, next)) :
    ∃ function number rest, FunctionCode around name function number ∧
      ArgumentsCode (Bytes.little number) count arguments pool rest next ∧
      bytes = (if withOpcode then [(callOpcode function multitask).code] else []) ++
        (number ++ rest) := by
  simp only [callWith, run_bind_eq_ok] at encoded
  obtain ⟨id, one, resolved, function, two, looked, number, three, packed, rest⟩ := encoded
  obtain ⟨_, found, same⟩ := run_lift_eq_ok.mp looked
  cases same
  obtain ⟨_, success, same⟩ := run_lift_eq_ok.mp resolved
  cases same
  have known : around.symbols.functionId? name = some id := Symbols.resolve_eq_ok success
  obtain ⟨length, rfl, rfl⟩ := word_eq_ok packed
  have called : FunctionCode around name function number := by
    obtain ⟨other, otherFound, same⟩ := Symbols.function_of_functionId? known
    cases found.symm.trans otherFound
    exact ⟨length, known, found, same⟩
  split at rest
  · rename_i zero
    split at rest
    · rename_i empty
      cases run_pure_eq_ok.mp rest
      refine ⟨function, number, [], called, .nothing zero empty, ?_⟩
      rw [List.append_nil]
    · cases rest
  · rename_i positive
    simp only [run_bind_eq_ok] at rest
    obtain ⟨size, four, sized, inside, five, insideOk, rest⟩ := rest
    obtain ⟨range, rfl, rfl⟩ := byte_eq_ok sized
    cases run_pure_eq_ok.mp rest
    refine ⟨function, number, _, called, .counted inside _ positive (by omega) insideOk, ?_⟩
    simp only [List.append_assoc, List.singleton_append, Int.toNat_natCast]

/-- A call behind an object: only in a statement has it an opcode of its own, and only there
may it be a multitask. -/
theorem objectCall_eq_ok {object name : String} {arguments : List Term} {multitask : Bool}
    {position : Position} {slot : Option Slot}
    (encoded : (term around (.objectCall object name arguments multitask) position slot).run pool =
      .ok (bytes, next)) :
    (position ≠ .statement → multitask = false) ∧ ∃ function selected middle call,
      (objectName around object).run pool = .ok (selected, middle) ∧
      (callWith around name multitask (position = .statement) arguments.length
        (terms around name 0 arguments)).run middle = .ok (call, next) ∧
      bytes = (objectOpcode function).code :: (selected ++ call) := by
  simp only [term, run_bind_eq_ok] at encoded
  obtain ⟨id, one, resolved, function, two, looked, selected, three, selectedOk, rest⟩ := encoded
  obtain ⟨_, -, same⟩ := run_lift_eq_ok.mp resolved
  cases same
  obtain ⟨_, -, same⟩ := run_lift_eq_ok.mp looked
  cases same
  split at rest
  · cases rest
  · rename_i allowed
    simp only [run_bind_eq_ok] at rest
    obtain ⟨call, four, callOk, rest⟩ := rest
    cases run_pure_eq_ok.mp rest
    refine ⟨fun inside => ?_, function, selected, three, call, selectedOk, callOk, rfl⟩
    exact Bool.eq_false_iff.mpr fun many => allowed ⟨inside, many⟩

theorem terms_cons_eq_ok {function : String} {index : Nat} {first : Term} {rest : List Term}
    (encoded : (terms around function index (first :: rest)).run pool = .ok (bytes, next)) :
    ∃ front middle back,
      (term around first .parameter (some ⟨function, index⟩)).run pool = .ok (front, middle) ∧
      (terms around function (index + 1) rest).run middle = .ok (back, next) ∧
      bytes = front ++ back :=
  run_append_eq_ok encoded

/-! ### Formulas -/

theorem operations_cons_eq_ok {operator : Operator} {operand : Term}
    {rest : List (Operator × Term)}
    (encoded : (operations around ((operator, operand) :: rest)).run pool = .ok (bytes, next)) :
    ∃ front middle back, (term around operand .formula none).run pool = .ok (front, middle) ∧
      (operations around rest).run middle = .ok (back, next) ∧
      bytes = operator.code :: front ++ back := by
  simp only [operations, run_bind_eq_ok] at encoded
  obtain ⟨front, middle, operandOk, back, last, restOk, whole⟩ := encoded
  cases run_pure_eq_ok.mp whole
  exact ⟨front, middle, back, operandOk, restOk, rfl⟩

theorem formulaTail_eq_ok {written : Formula}
    (encoded : (formulaTail around written).run pool = .ok (bytes, next)) :
    ∃ pairs, (operations around (written.operators.zip written.operands)).run pool =
        .ok (pairs, next) ∧
      bytes = pairs ++ match written.step with
        | some step => [step.code, 0]
        | none => [0] := by
  simp only [formulaTail, run_bind_eq_ok] at encoded
  obtain ⟨pairs, middle, pairsOk, whole⟩ := encoded
  cases run_pure_eq_ok.mp whole
  exact ⟨pairs, pairsOk, rfl⟩

theorem formula_eq_ok {written : Formula}
    (encoded : (formula around written).run pool = .ok (bytes, next)) :
    ∃ front middle back, (term around written.head .formula none).run pool = .ok (front, middle) ∧
      (formulaTail around written).run middle = .ok (back, next) ∧ bytes = front ++ back :=
  run_append_eq_ok encoded

/-! ### Conditions -/

/-- A side of a comparison is a target with operators behind it, or a term alone. -/
theorem side_eq_ok {position : Position} {slot : Option Slot} {written : Formula}
    (encoded : (side around position slot written).run pool = .ok (bytes, next)) :
    (carriesOperators position written.head = true ∧ ∃ front middle back,
      (target around written.head).run pool = .ok (front, middle) ∧
      (formulaTail around written).run middle = .ok (back, next) ∧ bytes = front ++ back) ∨
    (carriesOperators position written.head = false ∧ written.operators = [] ∧
      written.step = none ∧ (term around written.head position slot).run pool =
        .ok (bytes, next)) := by
  unfold side at encoded
  split at encoded
  · rename_i carries
    exact .inl ⟨carries, run_append_eq_ok encoded⟩
  · rename_i closed
    split at encoded
    · cases encoded
    · rename_i alone
      rw [Bool.or_eq_true, not_or, Bool.not_eq_true, Bool.not_eq_false', List.isEmpty_iff,
        Option.not_isSome_iff_eq_none] at alone
      exact .inr ⟨Bool.eq_false_iff.mpr closed, alone.1, alone.2, encoded⟩

theorem clause_eq_ok {written : Clause}
    (encoded : (clause around written).run pool = .ok (bytes, next)) :
    ∃ left middle right, (side around .left none written.left).run pool = .ok (left, middle) ∧
      (side around .right (comparedSlot? written.left.head) written.right).run middle =
        .ok (right, next) ∧
      bytes = left ++ written.comparison.code :: right ++
        [Conjunction.code written.conjunction] := by
  simp only [clause, run_bind_eq_ok] at encoded
  obtain ⟨left, middle, leftOk, right, last, rightOk, whole⟩ := encoded
  cases run_pure_eq_ok.mp whole
  exact ⟨left, middle, right, leftOk, rightOk, rfl⟩

theorem clauses_cons_eq_ok {first : Clause} {rest : List Clause}
    (encoded : (clauses around (first :: rest)).run pool = .ok (bytes, next)) :
    ∃ front middle back, (clause around first).run pool = .ok (front, middle) ∧
      (clauses around rest).run middle = .ok (back, next) ∧ bytes = front ++ back :=
  run_append_eq_ok encoded

end Encoder

end MapScript
