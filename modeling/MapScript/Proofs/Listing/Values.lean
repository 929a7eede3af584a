/-
This file proves that the reading of values keeps in step with their writing: whatever
bytes a term, a formula or a condition was turned into, reading takes exactly these
bytes and adds the text of the value to the line. The strings that the code refers to
by number have to be found at these numbers, so the strings in use while a value is
written must still stand at the front of the strings that it is read with.
-/

import MapScript.Proofs.Code.Encoded
import MapScript.Proofs.Listing.Excerpts

namespace MapScript

/-! ### What was written -/

/-- What holds of bytes that a value was turned into: no string that was in use has lost
its number, the bytes are as many as expected, and they are read as expected with all
strings that are in use afterwards. -/
structure Laid (reading : Reading) (before after : StringPool) (bytes : Bytes) (size : Nat)
    (reads : Prop) : Prop where
  grows : before.strings <+: after.strings
  size_eq : bytes.length = size
  reads_of_kept : after.strings <+: reading.program.strings → reads

/-- Values one after the other. -/
theorem Laid.append {reading : Reading} {before between after : StringPool} {front back : Bytes}
    {size more : Nat} {one two both : Prop} (first : Laid reading before between front size one)
    (second : Laid reading between after back more two) (joined : one → two → both) :
    Laid reading before after (front ++ back) (size + more) both where
  grows := first.grows.trans second.grows
  size_eq := by rw [List.length_append, first.size_eq, second.size_eq]
  reads_of_kept kept :=
    joined (first.reads_of_kept (second.grows.trans kept)) (second.reads_of_kept kept)

/-- A value without strings. -/
theorem Laid.of_reads {reading : Reading} {pool : StringPool} {bytes : Bytes} {size : Nat}
    {reads : Prop} (length : bytes.length = size) (holds : reads) :
    Laid reading pool pool bytes size reads :=
  ⟨List.prefix_rfl, length, fun _ => holds⟩

namespace Encoder

open Decoder (Reads)

variable {reading : Reading} {pool next : StringPool} {bytes : Bytes}

/-! ### Objects -/

theorem reads_builtInObject {index : Nat} {name : String}
    (found : builtInObjects[index]? = some name) :
    Reads (Decoder.objectName reading) [UInt8.ofNat index, 0] () (.plain (name ++ ".")) := by
  have small : index < 3 := (List.getElem?_eq_some_iff.mp found).1
  have selector : (UInt8.ofNat index).toNat = index := by
    rw [UInt8.toNat_ofNat']
    exact Nat.mod_eq_of_lt (by show index < 256; omega)
  unfold Decoder.objectName
  refine Reads.position_bind fun offset => ?_
  refine Reads.silent_bind (Reads.byte reading _) ?_ rfl
  rw [selector, found]
  show Reads (do Decoder.emit name; discard (Decoder.byte reading); Decoder.emit ".") _ _ _
  exact Reads.emit_bind (Reads.silent_bind (Reads.byte reading 0).discard (Reads.emit ".") rfl) rfl

theorem reads_namedObject {index : Nat} {name : String} (small : index < 256)
    (found : reading.program.strings[index]? = some name) :
    Reads (Decoder.objectName reading) [stringSelector, UInt8.ofNat index] ()
      (.plain (name ++ ".")) := by
  have place : (UInt8.ofNat index).toNat = index := by
    rw [UInt8.toNat_ofNat']
    exact Nat.mod_eq_of_lt small
  have lookup : Decoder.headerString reading (UInt8.ofNat index).toNat = .ok name := by
    rw [place, Decoder.headerString, found]
  unfold Decoder.objectName
  refine Reads.position_bind fun offset => ?_
  refine Reads.silent_bind (Reads.byte reading _) ?_ rfl
  show Reads (do
    let index ← Decoder.byte reading
    let name ← Decoder.lift (Decoder.headerString reading index.toNat)
    Decoder.emit name
    Decoder.emit ".") _ _ _
  exact Reads.silent_bind (Reads.byte reading _)
    (Reads.lift_bind lookup (Reads.emit_bind (Reads.emit ".") rfl)) rfl

theorem reads_heldObject {index : Nat} {name : String} (small : index < 256)
    (found : Decoder.variableObject reading index = .ok name) :
    Reads (Decoder.objectName reading) [variableSelector, UInt8.ofNat index] ()
      (.plain (name ++ ".")) := by
  have place : (UInt8.ofNat index).toNat = index := by
    rw [UInt8.toNat_ofNat']
    exact Nat.mod_eq_of_lt small
  rw [← place] at found
  unfold Decoder.objectName
  refine Reads.position_bind fun offset => ?_
  refine Reads.silent_bind (Reads.byte reading _) ?_ rfl
  show Reads (do
    let index ← Decoder.byte reading
    let name ← Decoder.lift (Decoder.variableObject reading index.toNat)
    Decoder.emit name
    Decoder.emit ".") _ _ _
  exact Reads.silent_bind (Reads.byte reading _)
    (Reads.lift_bind found (Reads.emit_bind (Reads.emit ".") rfl)) rfl

theorem variableObject_of_idxOf? {value : Int} {index : Nat}
    (found : reading.program.locals.idxOf? value = some index) :
    Decoder.variableObject reading index = .ok (String.ofList (Text.integer value)) := by
  have there := Symbols.getElem?_of_idxOf? found
  have first : reading.program.locals.idxOf value = index :=
    (List.findIdx?_eq_some_iff_findIdx_eq.mp found).2
  rw [Decoder.variableObject, there]
  simp only [first, if_true]

theorem laid_objectName {name : String}
    (encoded : (objectName reading.around name).run pool = .ok (bytes, next)) :
    Laid reading pool next bytes 2
      (Reads (Decoder.objectName reading) bytes () (.plain (reading.objectText name ++ "."))) := by
  unfold Reading.objectText
  cases objectName_eq_ok encoded with
  | builtIn index found =>
    rw [if_pos (List.contains_iff_mem.mpr (List.mem_of_getElem? found))]
    exact Laid.of_reads rfl (reads_builtInObject found)
  | ofValue value index foreign numeral written found small =>
    have found : reading.program.locals.idxOf? value = some index := found
    have there := List.contains_iff_mem.mpr
      (List.mem_of_getElem? (Symbols.getElem?_of_idxOf? found))
    simp only [foreign, numeral, written, there, Bool.false_eq_true, if_true, if_false]
    exact Laid.of_reads rfl (reads_heldObject small (variableObject_of_idxOf? found))
  | ofVariable digits index foreign word named written inside small =>
    have inside : index < reading.program.locals.length := by
      simpa [Reading.around] using inside
    obtain ⟨text, held⟩ : ∃ text, Decoder.variableObject reading index = .ok text := by
      rw [Decoder.variableObject, List.getElem?_eq_getElem inside]
      simp only
      split <;> exact ⟨_, rfl⟩
    simp only [foreign, word, named, written, held, Option.bind_some, Bool.false_eq_true, if_false]
    exact Laid.of_reads rfl (reads_heldObject small held)
  | ofString foreign word plain small =>
    simp only [foreign, word, plain, Option.bind_none, Bool.false_eq_true, if_false]
    refine ⟨prefix_add _ _, rfl, fun kept => reads_namedObject small ?_⟩
    exact getElem?_stringNumber kept (mem_add _ _)

theorem laid_reference {name : String}
    (encoded : (reference reading.around name).run pool = .ok (bytes, next)) :
    Laid reading pool next bytes 2
      (Reads (Decoder.referenceName reading) bytes () (.plain (reading.referenceText name))) := by
  obtain ⟨length, known, rfl⟩ := reference_eq_ok encoded
  have found : reading.symbols.references.idxOf? name = some (Bytes.little bytes) := known
  obtain ⟨inside, first⟩ := List.findIdx?_eq_some_iff_findIdx_eq.mp found
  have low : Bytes.little bytes % 256 < reading.symbols.references.length :=
    Nat.lt_of_le_of_lt (Nat.mod_le _ _) inside
  have text : reading.referenceText name =
      reading.symbols.references[Bytes.little bytes % 256] := by
    have index : reading.symbols.references.idxOf name = Bytes.little bytes := first
    rw [Reading.referenceText, index, List.getElem?_eq_getElem low, Option.getD_some]
  refine Laid.of_reads length ?_
  refine Reads.silent_bind (Reads.word reading length) ?_ (List.append_nil _)
  refine Reads.lift_bind ?_ (Reads.emit _)
  rw [text, Symbols.reference, Symbols.entryAt_of_getElem? (List.getElem?_eq_getElem low)]

/-! ### Opcodes -/

theorem ofCode?_code (opcode : Opcode) : Opcode.ofCode? opcode.code = some opcode := by
  cases opcode <;> decide

/-- A value is in step if what follows its opcode is. -/
theorem reads_value {opcode : Opcode} {bound : Nat} {place : Position} {slot : Option Slot}
    {called : Option String} {excerpt : Excerpt} (enough : (opcode.code :: bytes).length ≤ bound)
    (reads : ∀ fewer, bytes.length ≤ fewer →
      Reads (Decoder.operand reading fewer (Decoder.value reading fewer) place slot opcode)
        bytes called excerpt) :
    Reads (Decoder.value reading bound place slot) (opcode.code :: bytes) called excerpt := by
  cases bound with
  | zero => cases enough
  | succ fewer =>
    refine Reads.position_bind fun offset => ?_
    refine Reads.silent_bind (Reads.byte reading opcode.code) ?_ rfl
    rw [ofCode?_code]
    exact reads fewer (Nat.le_of_succ_le_succ enough)

/-! ### Literals -/

theorem length_long (value : Int) : (long value).length = 4 := Bytes.length_wrapLittle 4 value

theorem little_long (value : Nat) : Bytes.little (long value) = value % Bytes.range 4 := by
  have positive := Bytes.range_pos 4
  rw [long, Bytes.wrapLittle, ← Int.natCast_emod, Int.toNat_natCast]
  exact Bytes.little_ofNatLittle (Nat.mod_lt _ positive)

theorem reads_dialogueLabel (reading : Reading) (size : bytes.length = dialogueLabelSize) :
    Reads (Decoder.dialogueLabel reading) bytes ()
      (reading.dialogueExcerpt (Bytes.toText bytes)) := by
  have taken := Reads.take reading bytes
  rw [size] at taken
  refine Reads.silent_bind taken ?_ (List.append_nil _)
  unfold Reading.dialogueExcerpt
  cases found : reading.symbols.subtitle? (Bytes.toText bytes) with
  | none =>
    simp only [found]
    exact Reads.emit _
  | some subtitle =>
    simp only [found]
    refine Reads.bind (Reads.comment _) (Reads.emit _) rfl ?_
    rw [Excerpt.append_def]
    simp only [Excerpt.plain, String.empty_append]
    rfl

theorem reads_number (reading : Reading) (position : Position) (slot : Option Slot) (value : Int) :
    Reads (Decoder.number reading position slot) (long value) ()
      (reading.numberExcerpt position slot value) := by
  unfold Decoder.number Reading.numberExcerpt slotKind
  by_cases typed : position = .parameter ∨ position = .right
  · rw [if_pos typed, if_pos typed]
    by_cases dialogue : (slot.map fun slot =>
        reading.symbols.parameterKind slot.function slot.index) = some .dialogue
    · have dialogue' : (slot.map fun slot =>
          reading.around.symbols.parameterKind slot.function slot.index) = some .dialogue := dialogue
      simp only [dialogue, dialogue', if_true]
      exact reads_dialogueLabel reading (length_long value)
    · have dialogue' : ¬(slot.map fun slot =>
          reading.around.symbols.parameterKind slot.function slot.index) = some .dialogue := dialogue
      simp only [dialogue, dialogue', if_false]
      exact Reads.silent_bind (Reads.signedLong reading (length_long value)) (Reads.emit _)
        (List.append_nil _)
  · rw [if_neg typed, if_neg typed]
    exact Reads.silent_bind (Reads.signedLong reading (length_long value)) (Reads.emit _)
      (List.append_nil _)

/-- The two opcodes of numbers are read alike. -/
theorem reads_numberOpcode {position : Position} {slot : Option Slot} {excerpt : Excerpt}
    (number : Reads (Decoder.number reading position slot) bytes () excerpt) {bound : Nat}
    (enough : ((numberOpcode position slot).code :: bytes).length ≤ bound) :
    Reads (Decoder.value reading bound position slot) ((numberOpcode position slot).code :: bytes)
      none excerpt := by
  refine reads_value enough fun fewer _ => ?_
  unfold numberOpcode
  split
  · exact Reads.bind number (Reads.pure none) (List.append_nil _) (Excerpt.append_plain_empty _)
  · exact Reads.bind number (Reads.pure none) (List.append_nil _) (Excerpt.append_plain_empty _)

theorem laid_text {position : Position} {slot : Option Slot} {text : String}
    (encoded : (textLiteral reading.around position slot text).run pool = .ok (bytes, next)) :
    Laid reading pool next bytes 5 (∀ bound, bytes.length ≤ bound →
      Reads (Decoder.value reading bound position slot) bytes none
        (reading.textExcerpt position slot text)) := by
  unfold Reading.textExcerpt
  cases textLiteral_eq_ok encoded with
  | dialogue label taken packed size =>
    rw [if_pos taken]
    refine ⟨List.prefix_rfl, congrArg (· + 1) size, fun _ bound enough => ?_⟩
    refine reads_numberOpcode ?_ enough
    unfold Decoder.number
    unfold slotKind at taken
    split at taken
    · rename_i typed
      have taken : (slot.map fun slot =>
        reading.symbols.parameterKind slot.function slot.index) = some .dialogue := taken
      simp only [typed, if_true, taken]
      rw [← Bytes.toText_of_ofText? packed]
      exact reads_dialogueLabel reading size
    · cases taken
  | string plain =>
    rw [if_neg plain]
    refine ⟨prefix_add _ _, congrArg (· + 1) (length_long _), fun kept bound enough => ?_⟩
    refine reads_value enough fun _ _ => ?_
    have member := mem_add pool.strings text
    have index := idxOf_of_prefix kept member
    have inside := List.idxOf_lt_length_of_mem (kept.subset member)
    have low : (pool.entered text).strings.idxOf text % Bytes.range 4 <
        reading.program.strings.length := by
      rw [← index]
      exact Nat.lt_of_le_of_lt (Nat.mod_le _ _) inside
    have lookup : Decoder.headerString reading
        (Bytes.little (long ((pool.entered text).strings.idxOf text))) =
          .ok (reading.stringText text) := by
      rw [little_long, Decoder.headerString, Reading.stringText, index,
        List.getElem?_eq_getElem low, Option.getD_some]
    refine Reads.silent_bind (Reads.long reading (length_long _)) ?_ (List.append_nil _)
    refine Reads.lift_bind lookup ?_
    exact Reads.emit_bind (Reads.pure none) (Excerpt.append_plain_empty _)

/-! ### Calls -/

/-- A call behind its opcode, given that its arguments are in step. -/
theorem laid_call {name : String} {function : GameFunction} {number : Bytes} (shown : Bool)
    {count size : Nat} {arguments : Encoder Bytes} {excerpt : Excerpt}
    (called : FunctionCode reading.around name function number)
    (code : ArgumentsCode (Bytes.little number) count arguments pool bytes next)
    (empty : count = 0 → excerpt = .plain "")
    (laid : ∀ {before after inside}, arguments.run before = .ok (inside, after) →
      Laid reading before after inside size (∀ bound, inside.length ≤ bound →
        Reads (Decoder.arguments (Decoder.value reading bound) name 0 count) inside () excerpt)) :
    Laid reading pool next (number ++ bytes) (2 + argumentsSize reading.symbols name size)
      (∀ bound, (number ++ bytes).length ≤ bound →
        Reads (Decoder.call reading (Decoder.value reading bound) shown) (number ++ bytes)
          (some name) (callExcerpt shown name excerpt)) := by
  have known : reading.symbols.functionId? name = some (Bytes.little number) := called.known
  -- what is read behind the number of the function
  have front {back : Bytes} {bound : Nat}
      (reads : Reads (do
        let counted ← if Bytes.little number = 0 then pure 0 else Decoder.byte reading
        Decoder.arguments (Decoder.value reading bound) name 0 counted.toNat
        Decoder.emit ")"
        pure (some name)) back (some name) (excerpt ++ .plain ")")) :
      Reads (Decoder.call reading (Decoder.value reading bound) shown) (number ++ back) (some name)
        (callExcerpt shown name excerpt) := by
    refine Reads.silent_bind (Reads.word reading called.length) ?_ rfl
    refine Reads.lift_bind called.found ?_
    rw [called.named]
    exact Reads.emit_bind reads rfl
  cases code with
  | nothing zero none =>
    refine Laid.of_reads ?_ fun bound _ => front ?_
    · rw [List.append_nil, called.length, argumentsSize, if_pos (by rw [known, zero])]
    · rw [if_pos zero, empty none]
      refine Reads.silent_bind (Reads.pure 0) ?_ rfl
      exact Reads.silent_bind (Reads.pure ()) (Reads.emit_bind (Reads.pure _) rfl) rfl
  | counted inside next positive small insideOk =>
    have argumentsLaid := laid insideOk
    refine ⟨argumentsLaid.grows, ?_, fun kept bound enough => front ?_⟩
    · rw [argumentsSize, if_neg (by rw [known]; simpa using positive), List.length_append,
        List.length_cons, called.length, argumentsLaid.size_eq, Nat.add_comm 1]
    · have smaller : inside.length ≤ bound := by
        rw [List.length_append, List.length_cons] at enough
        omega
      have read : (UInt8.ofNat count).toNat = count := by
        rw [UInt8.toNat_ofNat']
        exact Nat.mod_eq_of_lt small
      rw [if_neg positive]
      refine Reads.silent_bind (Reads.byte reading _) ?_ rfl
      simp only [read]
      refine Reads.bind (argumentsLaid.reads_of_kept kept bound smaller) ?_ (List.append_nil _) rfl
      exact Reads.emit_bind (Reads.pure _) rfl

/-- A call with its opcode. -/
theorem laid_callWith {name : String} {multitask : Bool} {count size : Nat}
    {arguments : Encoder Bytes} {excerpt : Excerpt}
    (encoded : (callWith reading.around name multitask true count arguments).run pool =
      .ok (bytes, next))
    (empty : count = 0 → excerpt = .plain "")
    (laid : ∀ {before after inside}, arguments.run before = .ok (inside, after) →
      Laid reading before after inside size (∀ bound, inside.length ≤ bound →
        Reads (Decoder.arguments (Decoder.value reading bound) name 0 count) inside () excerpt))
    (place : Position) (slot : Option Slot) :
    Laid reading pool next bytes (3 + argumentsSize reading.symbols name size)
      (∀ bound, bytes.length ≤ bound →
        Reads (Decoder.value reading bound place slot) bytes (some name)
          (callExcerpt multitask name excerpt)) := by
  obtain ⟨function, number, rest, called, code, rfl⟩ := callWith_eq_ok encoded
  have call := laid_call multitask called code empty laid
  rw [if_pos rfl, List.singleton_append]
  refine ⟨call.grows, ?_, fun kept bound enough => ?_⟩
  · rw [List.length_cons, call.size_eq]
    omega
  · refine reads_value enough fun fewer inside => ?_
    have reads := call.reads_of_kept kept fewer inside
    unfold callOpcode
    split
    · rename_i many
      rw [many] at reads ⊢
      exact reads
    · rename_i single
      rw [Bool.eq_false_iff.mpr single] at reads ⊢
      split
      · exact reads
      · exact reads

/-! ### Targets -/

/-- An object and a reference, whatever is read behind them. -/
theorem laid_objectReference {middle : StringPool} {object name : String} {selected number : Bytes}
    (objectOk : (objectName reading.around object).run pool = .ok (selected, middle))
    (nameOk : (reference reading.around name).run middle = .ok (number, next)) :
    Laid reading pool next (selected ++ number) 4
      (∀ {α : Type} {continuing : Decoder α} {after : Bytes} {value : α} {excerpt : Excerpt},
        Reads continuing after value excerpt →
        Reads (do Decoder.objectName reading; Decoder.referenceName reading; continuing)
          (selected ++ number ++ after) value (.plain (reading.objectText object ++ ".") ++
            (.plain (reading.referenceText name) ++ excerpt))) := by
  refine (laid_objectName objectOk).append (laid_reference nameOk) ?_
  intro objectReads referenceReads α continuing after value excerpt continues
  refine objectReads.bind ?_ (List.append_assoc _ _ _).symm rfl
  exact referenceReads.bind continues rfl rfl

/-- A flag behind its opcode, given what follows it and what is done last. -/
theorem reads_flag {number after : Bytes} {flag : GameFlag} {position : Position} {bound : Nat}
    {value : Decoder.ValueReader} {excerpt closing : Excerpt} (length : number.length = 2)
    (found : reading.symbols.flag (Bytes.little number : Nat) = .ok flag)
    (continues : Reads (Decoder.continuation reading bound value position 2) after () excerpt)
    (closes : Reads (if position = .statement then
        match flag.comment with
        | some text => Decoder.comment text
        | none => pure ()
      else pure ()) [] () closing) :
    Reads (Decoder.flag reading bound value position) (number ++ after) ()
      (.plain flag.name ++ (excerpt ++ closing)) := by
  refine Reads.silent_bind (Reads.word reading length) ?_ rfl
  refine Reads.lift_bind found ?_
  refine Reads.emit_bind ?_ rfl
  exact Reads.bind continues closes (List.append_nil _) rfl

theorem reads_localVariable {index : Int} (range : 0 ≤ index ∧ index ≤ 255) {after : Bytes}
    {position : Position} {bound : Nat} {value : Decoder.ValueReader} {excerpt : Excerpt}
    (continues : Reads (Decoder.continuation reading bound value position 3) after () excerpt) :
    Reads (Decoder.localVariable reading bound value position) (UInt8.ofNat index.toNat :: after) ()
      (.plain ("var" ++ String.ofList (Text.natural index.toNat)) ++ excerpt) := by
  refine Reads.silent_bind (Reads.byte reading _) ?_ rfl
  simp only [toNat_byte range]
  exact Reads.emit_bind continues rfl

/-- The filling behind an argument is passed over. -/
theorem reads_filling {bound size : Nat} {value : Decoder.ValueReader} :
    Reads (Decoder.continuation reading bound value .parameter size) (List.replicate size 0) ()
      (.plain "") := by
  have taken := Reads.take reading (List.replicate size 0)
  rw [List.length_replicate] at taken
  exact taken.discard

/-! ### Terms -/

theorem laid_flagTerm {name : String} {position : Position} {slot : Option Slot}
    (encoded : (term reading.around (.flag name) position slot).run pool = .ok (bytes, next)) :
    Laid reading pool next bytes ((Term.flag name).codeSize reading.symbols position)
      (∀ bound, bytes.length ≤ bound → Reads (Decoder.value reading bound position slot) bytes none
        ((Term.flag name).excerpt reading position slot)) := by
  simp only [term, run_bind_eq_ok] at encoded
  obtain ⟨head, middle, targeted, rest⟩ := encoded
  cases target_eq_ok targeted with
  | flag number flag length known found =>
    rcases padded_eq_ok rest with ⟨rfl, ⟨rfl, rfl⟩ | ⟨rfl, rfl⟩⟩
    · refine Laid.of_reads ?_ fun bound enough => ?_
      · rw [List.length_append, List.length_cons, length]
        rfl
      · refine reads_value enough fun _ _ => ?_
        refine Reads.bind (reads_flag length found reads_filling (Reads.pure ())) (Reads.pure none)
          (List.append_nil _) ?_
        simp only [Excerpt.append_plain_empty]
        rfl
    · refine Laid.of_reads (congrArg (· + 1) length) fun bound enough => ?_
      refine reads_value enough fun _ _ => ?_
      refine Reads.bind (reads_flag length found (Reads.pure ()) (Reads.pure ())) (Reads.pure none)
        (by rw [List.append_nil, List.append_nil]) ?_
      simp only [Excerpt.append_plain_empty]
      rfl

theorem laid_localVariableTerm {index : Int} {position : Position} {slot : Option Slot}
    (encoded : (term reading.around (.localVariable index) position slot).run pool =
      .ok (bytes, next)) :
    Laid reading pool next bytes ((Term.localVariable index).codeSize reading.symbols position)
      (∀ bound, bytes.length ≤ bound → Reads (Decoder.value reading bound position slot) bytes none
        ((Term.localVariable index).excerpt reading position slot)) := by
  simp only [term, run_bind_eq_ok] at encoded
  obtain ⟨head, middle, targeted, rest⟩ := encoded
  cases target_eq_ok targeted with
  | localVariable _ range =>
    rcases padded_eq_ok rest with ⟨rfl, ⟨rfl, rfl⟩ | ⟨rfl, rfl⟩⟩
    · refine Laid.of_reads rfl fun bound enough => ?_
      refine reads_value enough fun _ _ => ?_
      refine Reads.bind (reads_localVariable range reads_filling) (Reads.pure none) rfl ?_
      simp only [Excerpt.append_plain_empty]
      rfl
    · refine Laid.of_reads rfl fun bound enough => ?_
      refine reads_value enough fun _ _ => ?_
      refine Reads.bind (reads_localVariable range (Reads.pure ())) (Reads.pure none) rfl ?_
      simp only [Excerpt.append_plain_empty]
      rfl

theorem laid_propertyTerm {object name : String} {position : Position} {slot : Option Slot}
    (closed : position ≠ .statement ∧ position ≠ .left)
    (encoded : (term reading.around (.property object name) position slot).run pool =
      .ok (bytes, next)) :
    Laid reading pool next bytes 5
      (∀ bound, bytes.length ≤ bound → Reads (Decoder.value reading bound position slot) bytes none
        ((Term.property object name).excerpt reading position slot)) := by
  rw [term] at encoded
  cases target_eq_ok encoded with
  | property _ _ selected number _ objectOk nameOk =>
    have laid := laid_objectReference objectOk nameOk
    refine ⟨laid.grows, congrArg (· + 1) laid.size_eq, fun kept bound enough => ?_⟩
    refine reads_value enough fun fewer _ => ?_
    have nothing : Reads (if position = .statement ∨ position = .left then
        Decoder.continuation reading fewer (Decoder.value reading fewer) position 0 else pure ())
        [] () (.plain "") := by
      rw [if_neg fun some => some.elim closed.1 closed.2]
      exact Reads.pure ()
    refine Reads.bind (laid.reads_of_kept kept nothing) (Reads.pure none) ?_ ?_
    · rw [List.append_nil, List.append_nil]
    · simp only [Excerpt.append_plain_empty]
      rfl

/-- The two opcodes of calls behind an object are read alike: the object, then what a call is at
the position. -/
theorem reads_objectOpcode {function : GameFunction} {object name : String}
    {selected body : Bytes} {position : Position} {slot : Option Slot} {excerpt : Excerpt}
    {bound : Nat} (enough : ((objectOpcode function).code :: (selected ++ body)).length ≤ bound)
    (objectReads : Reads (Decoder.objectName reading) selected ()
      (.plain (reading.objectText object ++ ".")))
    (reads : ∀ fewer, body.length ≤ fewer → Reads (if position = .statement then
        Decoder.value reading fewer .behindObject none
      else Decoder.call reading (Decoder.value reading fewer) false) body (some name) excerpt) :
    Reads (Decoder.value reading bound position slot)
      ((objectOpcode function).code :: (selected ++ body)) (some name)
      (.plain (reading.objectText object ++ ".") ++ excerpt) := by
  refine reads_value enough fun fewer inside => ?_
  have behind := reads fewer (by rw [List.length_append] at inside; omega)
  unfold objectOpcode
  split
  · exact Reads.bind objectReads behind rfl rfl
  · exact Reads.bind objectReads behind rfl rfl

/-- A call behind an object, given that its arguments are in step. -/
theorem laid_objectCallTerm {object name : String} {arguments : List Term} {multitask : Bool}
    {position : Position} {slot : Option Slot}
    (encoded : (term reading.around (.objectCall object name arguments multitask) position slot).run
      pool = .ok (bytes, next))
    (laid : ∀ {before after inside},
      (terms reading.around name 0 arguments).run before = .ok (inside, after) →
      Laid reading before after inside (Term.codeSizes reading.symbols arguments)
        (∀ bound, inside.length ≤ bound →
          Reads (Decoder.arguments (Decoder.value reading bound) name 0 arguments.length) inside ()
            (Term.excerpts reading name 0 arguments))) :
    Laid reading pool next bytes
      ((Term.objectCall object name arguments multitask).codeSize reading.symbols position)
      (∀ bound, bytes.length ≤ bound →
        Reads (Decoder.value reading bound position slot) bytes (some name)
          ((Term.objectCall object name arguments multitask).excerpt reading position slot)) := by
  have empty : arguments.length = 0 → Term.excerpts reading name 0 arguments = .plain "" := by
    intro none
    rw [List.eq_nil_of_length_eq_zero none]
    rfl
  obtain ⟨single, function, selected, middle, call, selectedOk, callOk, rfl⟩ :=
    objectCall_eq_ok encoded
  have objectLaid := laid_objectName selectedOk
  by_cases statement : position = .statement
  · simp only [statement, decide_true] at callOk
    have call := laid_callWith callOk empty laid .behindObject none
    refine ⟨objectLaid.grows.trans call.grows, ?_, fun kept bound enough => ?_⟩
    · rw [List.length_cons, List.length_append, objectLaid.size_eq, call.size_eq, Term.codeSize,
        if_pos statement]
      omega
    · refine reads_objectOpcode enough (objectLaid.reads_of_kept (call.grows.trans kept)) ?_
      intro fewer inside
      rw [if_pos statement]
      exact call.reads_of_kept kept fewer inside
  · simp only [statement, decide_false] at callOk
    obtain ⟨_, number, rest, called, code, rfl⟩ := callWith_eq_ok callOk
    have call := laid_call false called code empty laid
    refine ⟨objectLaid.grows.trans call.grows, ?_, fun kept bound enough => ?_⟩
    · simp only [Bool.false_eq_true, if_false, List.nil_append]
      rw [List.length_cons, List.length_append, objectLaid.size_eq, call.size_eq, Term.codeSize,
        if_neg statement]
      omega
    · rw [Term.excerpt, single statement]
      refine reads_objectOpcode enough (objectLaid.reads_of_kept (call.grows.trans kept)) ?_
      intro fewer inside
      rw [if_neg statement]
      exact call.reads_of_kept kept fewer inside

mutual

/-- Terms are read in step with their writing. A property is meant only where no
operators follow it. -/
theorem laid_term (value : Term) {position : Position} {slot : Option Slot}
    {pool next : StringPool} {bytes : Bytes}
    (closed : ∀ object name, value = .property object name →
      position ≠ .statement ∧ position ≠ .left)
    (encoded : (term reading.around value position slot).run pool = .ok (bytes, next)) :
    Laid reading pool next bytes (value.codeSize reading.symbols position)
      (∀ bound, bytes.length ≤ bound → Reads (Decoder.value reading bound position slot) bytes
        (calledFunction? value) (value.excerpt reading position slot)) := by
  cases value with
  | call name arguments multitask =>
    rw [term] at encoded
    refine laid_callWith encoded ?_ (laid_terms name 0 arguments) position slot
    intro none
    rw [List.eq_nil_of_length_eq_zero none]
    rfl
  | flag name => exact laid_flagTerm encoded
  | localVariable index => exact laid_localVariableTerm encoded
  | number value =>
    cases encoded
    refine Laid.of_reads (congrArg (· + 1) (length_long value)) fun bound enough => ?_
    exact reads_numberOpcode (reads_number reading position slot value) enough
  | text written => exact laid_text encoded
  | property object name => exact laid_propertyTerm (closed object name rfl) encoded
  | objectCall object name arguments multitask =>
    exact laid_objectCallTerm encoded (laid_terms name 0 arguments)
  | chain head operators operands step => cases encoded

/-- Arguments are read in step with their writing. -/
theorem laid_terms (function : String) (index : Nat) (values : List Term)
    {pool next : StringPool} {bytes : Bytes}
    (encoded : (terms reading.around function index values).run pool = .ok (bytes, next)) :
    Laid reading pool next bytes (Term.codeSizes reading.symbols values)
      (∀ bound, bytes.length ≤ bound →
        Reads (Decoder.arguments (Decoder.value reading bound) function index values.length) bytes ()
          (Term.excerpts reading function index values)) := by
  cases values with
  | nil =>
    cases encoded
    exact Laid.of_reads rfl fun _ _ => Reads.pure ()
  | cons first rest =>
    obtain ⟨front, middle, back, firstOk, restOk, rfl⟩ := terms_cons_eq_ok encoded
    have firstLaid := laid_term first (fun _ _ _ => by decide) firstOk
    have restLaid := laid_terms function (index + 1) rest restOk
    refine firstLaid.append restLaid ?_
    intro firstReads restReads bound enough
    rw [List.length_append] at enough
    have values : Reads (do
        discard (Decoder.value reading bound .parameter (some ⟨function, index⟩))
        Decoder.arguments (Decoder.value reading bound) function (index + 1) rest.length)
        (front ++ back) () (first.excerpt reading .parameter (some ⟨function, index⟩) ++
          Term.excerpts reading function (index + 1) rest) :=
      Reads.bind (firstReads bound (by omega)).discard (restReads bound (by omega)) rfl rfl
    rw [List.length_cons, Decoder.arguments, Term.excerpts]
    by_cases start : index = 0
    · simp only [start, if_true, Excerpt.plain_empty_append] at values ⊢
      exact values
    · simp only [start, if_false]
      exact Reads.emit_bind values rfl

end

end Encoder

end MapScript
