/-
This file follows the parts of a map while they are rebuilt. Adding a header puts
its strings, variables, code and attributes at the ends of the pools and writes
into its block where they start. Later headers only lengthen the pools, so in the
end every header is stored: reading by the numbers in its block finds what was put
in for it.
-/

import MapScript.Proofs.Rebuild.Texts

namespace MapScript

/-! ### The variable pool -/

theorem signedWords_append {front : Bytes} (words : Nat) (whole : front.length = 4 * words)
    (back : Bytes) : signedWords (front ++ back) = signedWords front ++ signedWords back := by
  induction words generalizing front with
  | zero =>
    rw [List.eq_nil_of_length_eq_zero (by omega : front.length = 0)]
    rfl
  | succ words inductionHypothesis =>
    match front, whole with
    | a :: b :: c :: d :: rest, whole =>
      have shorter : rest.length = 4 * words := by
        simp only [List.length_cons] at whole
        omega
      rw [List.cons_append, List.cons_append, List.cons_append, List.cons_append, signedWords,
        signedWords, inductionHypothesis shorter, List.cons_append]

theorem length_signedWords {bytes : Bytes} (words : Nat) (whole : bytes.length = 4 * words) :
    (signedWords bytes).length = words := by
  induction words generalizing bytes with
  | zero =>
    rw [List.eq_nil_of_length_eq_zero (by omega : bytes.length = 0)]
    rfl
  | succ words inductionHypothesis =>
    match bytes, whole with
    | a :: b :: c :: d :: rest, whole =>
      have shorter : rest.length = 4 * words := by
        simp only [List.length_cons] at whole
        omega
      rw [signedWords, List.length_cons, inductionHypothesis shorter]

theorem signedWords_four {bytes : Bytes} (four : bytes.length = 4) (back : Bytes) :
    signedWords (bytes ++ back) = Bytes.littleSigned bytes :: signedWords back := by
  match bytes, four with
  | [a, b, c, d], _ => rfl

namespace Rebuild

/-- Packed variables are read back. -/
theorem signedWords_packed {locals : List Int} {pieces : List Bytes}
    (packed : locals.mapM packVariable = .ok pieces) :
    pieces.flatten.length = 4 * locals.length ∧ signedWords pieces.flatten = locals := by
  induction locals generalizing pieces with
  | nil =>
    cases packed
    exact ⟨rfl, rfl⟩
  | cons value rest inductionHypothesis =>
    obtain ⟨first, others, firstOk, othersOk, rfl⟩ := mapM_cons_eq_ok.mp packed
    obtain ⟨length, words⟩ := inductionHypothesis othersOk
    unfold packVariable at firstOk
    split at firstOk
    · rename_i bytes fits
      cases firstOk
      have four := Bytes.length_of_signed? fits
      rw [List.flatten_cons, List.length_append, List.length_cons, four, length,
        signedWords_four four, words, Bytes.littleSigned_of_signed? fits]
      exact ⟨by omega, rfl⟩
    · cases firstOk

theorem signedWords_replicate {block : Bytes} {locals : List Int}
    (whole : block.length = 4 * locals.length) (words : signedWords block = locals)
    (instances : Nat) :
    (List.replicate instances block).flatten.length =
        4 * (List.replicate instances locals).flatten.length ∧
      signedWords (List.replicate instances block).flatten =
        (List.replicate instances locals).flatten := by
  induction instances with
  | zero => exact ⟨rfl, rfl⟩
  | succ instances inductionHypothesis =>
    rw [List.replicate_succ, List.replicate_succ, List.flatten_cons, List.flatten_cons,
      List.length_append, List.length_append, signedWords_append _ whole, words,
      inductionHypothesis.2]
    exact ⟨by omega, rfl⟩

/-- The part of the pool that belongs to a header holds its variables once for each
instance. -/
theorem packVariables_eq_ok {instances : Nat} {locals : List Int} {block : Bytes}
    (packed : packVariables instances locals = .ok block) :
    block.length = 4 * (List.replicate instances locals).flatten.length ∧
      signedWords block = (List.replicate instances locals).flatten := by
  unfold packVariables at packed
  split at packed
  · rename_i none
    cases packed
    rw [none]
    exact ⟨rfl, rfl⟩
  · obtain ⟨pieces, piecesOk, whole⟩ := bind_eq_ok.mp packed
    cases whole
    obtain ⟨length, words⟩ := signedWords_packed piecesOk
    exact signedWords_replicate length words instances

/-! ### Growth -/

/-- A later state of a rebuild: every part of the earlier one is the beginning of
its part. -/
structure Grows (earlier later : Rebuild) : Prop where
  texts : earlier.texts <+: later.texts
  offsets : earlier.offsets <+: later.offsets
  locals : earlier.locals <+: later.locals
  code : earlier.code <+: later.code
  attributes : earlier.attributes <+: later.attributes

theorem Grows.refl (state : Rebuild) : Grows state state :=
  ⟨List.prefix_rfl, List.prefix_rfl, List.prefix_rfl, List.prefix_rfl, List.prefix_rfl⟩

theorem Grows.trans {first second third : Rebuild} (one : Grows first second)
    (two : Grows second third) : Grows first third :=
  ⟨one.texts.trans two.texts, one.offsets.trans two.offsets, one.locals.trans two.locals,
    one.code.trans two.code, one.attributes.trans two.attributes⟩

/-- What holds of a rebuild at all times: the registry of strings is right, the
variable pool holds whole numbers, and there is a block of attributes for each
header. -/
structure Sound (state : Rebuild) : Prop where
  places : PlacesRight state
  locals : ∃ words, state.locals.length = 4 * words
  attributes : state.attributes.length = state.headers.length * attributeBlockSize

theorem sound_start : Sound start := by
  refine ⟨?_, ⟨1, rfl⟩, rfl⟩
  intro text place found
  cases found

/-! ### Adding a header -/

/-- A new header that carries a compiled script. -/
structure Carries (old new : Header) (compiled : Compiled) : Prop where
  strings : new.strings = compiled.strings
  stringCount : new.field .stringCount = compiled.strings.length
  code : new.code = compiled.code
  codeLength : new.field .codeLength = compiled.code.length
  attributes : new.attributes = compiled.attributes
  attributeSize : compiled.attributes.length = attributeBlockSize
  variableCount : new.field .variableCount = old.field .variableCount
  locals : new.locals.length = old.locals.length

/-- What adding a header does. The places in its block are the ends of the pools
before it was added. -/
structure Added (base : Nat) (state next : Rebuild) (old new : Header) (compiled : Compiled)
    (filled : Rebuild) (block : Bytes) : Prop where
  changed : compiled.locals.entries.foldlM (setVariable old.name) old.locals = .ok new.locals
  strings : compiled.strings.foldlM addString state = .ok filled
  packed : new.locals ≠ [] → packVariables (old.field .instances) new.locals = .ok block
  noVariables : new.locals = [] → block = []
  next_eq : next = { filled with
    locals := state.locals ++ block
    code := state.code ++ compiled.code
    attributes := state.attributes ++ compiled.attributes
    headers := state.headers ++ [new] }
  carries : Carries old new compiled
  codeOffset : new.field .codeOffset = base + state.code.length
  stringIndex : compiled.strings ≠ [] → new.field .stringIndex = state.offsets.length
  variableOffset : new.locals ≠ [] → new.field .variableOffset = state.locals.length

theorem length_setVariables {header : String} {changes : List (Int × Int)}
    {locals changed : List Int}
    (set : changes.foldlM (setVariable header) locals = .ok changed) :
    changed.length = locals.length := by
  refine foldlM_keeps (fun found => found.length = locals.length) ?_ rfl set
  intro found change _ next length step
  unfold setVariable at step
  split at step
  · cases step
    rw [List.length_set, length]
  · cases step

theorem nodup_fields (base : Nat) (state : Rebuild) (compiled : Compiled) (locals : List Int) :
    ((fields base state compiled locals).map Prod.fst).Nodup := by
  unfold fields
  split <;> split <;> simp

/-- A header is added with a script that has its name and a full block of attributes, if its
variables can be set, its strings stored, its variables packed and its block filled in. -/
theorem add_eq_ok_iff {base : Nat} {state next : Rebuild} {old : Header} {compiled : Compiled} :
    add base state (old, compiled) = .ok next ↔
      compiled.name = old.name ∧ compiled.attributes.length = attributeBlockSize ∧
      ∃ locals filled block placed,
        compiled.locals.entries.foldlM (setVariable old.name) old.locals = .ok locals ∧
        compiled.strings.foldlM addString state = .ok filled ∧
        (if locals.isEmpty then .ok [] else packVariables (old.field .instances) locals) =
          .ok block ∧
        old.withFields (fields base state compiled locals) = .ok placed ∧
        next = { filled with
          locals := state.locals ++ block
          code := state.code ++ compiled.code
          attributes := state.attributes ++ compiled.attributes
          headers := state.headers ++ [{ placed with
            strings := compiled.strings
            locals := locals
            attributes := compiled.attributes
            code := compiled.code }] } := by
  unfold add
  simp only
  constructor
  · intro added
    split at added
    · cases added
    · rename_i named
      split at added
      · cases added
      · rename_i attributeSize
        obtain ⟨locals, localsOk, added⟩ := bind_eq_ok.mp added
        obtain ⟨filled, filledOk, added⟩ := bind_eq_ok.mp added
        obtain ⟨block, blockOk, added⟩ := ite_bind_eq_ok.mp added
        obtain ⟨placed, placedOk, added⟩ := bind_eq_ok.mp added
        exact ⟨Classical.not_not.mp named, Classical.not_not.mp attributeSize, locals, filled, block,
          placed, localsOk, filledOk, blockOk, placedOk, (Except.ok.inj added).symm⟩
  · rintro ⟨named, attributeSize, locals, filled, block, placed, localsOk, filledOk, blockOk, placedOk,
      rfl⟩
    rw [if_neg (not_not_intro named), if_neg (not_not_intro attributeSize)]
    exact bind_eq_ok.mpr ⟨locals, localsOk, bind_eq_ok.mpr ⟨filled, filledOk,
      ite_bind_eq_ok.mpr ⟨block, blockOk, bind_eq_ok.mpr ⟨placed, placedOk, rfl⟩⟩⟩⟩

theorem add_eq_ok {base : Nat} {state next : Rebuild} {old : Header} {compiled : Compiled}
    (added : add base state (old, compiled) = .ok next) :
    ∃ new filled block, Added base state next old new compiled filled block := by
  obtain ⟨-, attributeSize, locals, filled, block, placed, localsOk, filledOk, blockOk, placedOk,
    next_eq⟩ := add_eq_ok_iff.mp added
  have distinct := nodup_fields base state compiled locals
  have setTo {field : HeaderField} {value : Nat}
      (member : (field, (value : Int)) ∈ fields base state compiled locals) :
      placed.field field = value :=
    Int.ofNat.inj (Header.field_withFields_of_mem placedOk distinct member)
  refine ⟨{ placed with
    strings := compiled.strings
    locals := locals
    attributes := compiled.attributes
    code := compiled.code }, filled, block, localsOk, filledOk, ?_, ?_, next_eq, ⟨rfl, ?_, rfl, ?_, rfl,
      ?_, ?_, length_setVariables localsOk⟩, ?_, ?_, ?_⟩
  · intro some
    have filled : locals.isEmpty = false := by
      rw [List.isEmpty_eq_false_iff]
      exact some
    rw [filled] at blockOk
    exact blockOk
  · intro none
    have empty : locals.isEmpty = true := List.isEmpty_iff.mpr none
    rw [empty] at blockOk
    exact (Except.ok.inj blockOk).symm
  · exact setTo (by simp [fields])
  · exact setTo (by simp [fields])
  · exact attributeSize
  · refine Header.field_withFields_of_notMem placedOk ?_
    unfold fields
    split <;> split <;> simp
  · exact setTo (by simp [fields])
  · intro some
    refine setTo ?_
    have filled : compiled.strings.isEmpty = false := by
      rw [List.isEmpty_eq_false_iff]
      exact some
    simp [fields, filled]
  · intro some
    refine setTo ?_
    have filled : locals.isEmpty = false := by
      rw [List.isEmpty_eq_false_iff]
      exact some
    simp [fields, filled]

/-! ### What was added is stored -/

/-- The pools that the parts of a rebuild stand for. -/
def pools (state : Rebuild) (base : Nat) : Pools :=
  { texts := state.texts
    offsets := state.offsets
    locals := signedWords state.locals
    code := List.replicate base 0 ++ state.code
    attributes := some state.attributes }

/-- What is asked of a header and its compiled script: strings without NUL, as many
variables as the block says, and an instance to hold them if there are any. -/
structure Fit (old : Header) (compiled : Compiled) : Prop where
  noNul : ∀ text ∈ compiled.strings, Char.ofNat 0 ∉ text.toList
  variableCount : old.locals.length = old.field .variableCount
  instances : old.locals ≠ [] → 0 < old.field .instances

/-- A script whose strings can be stored: none of them holds a NUL. -/
def NoNul (compiled : Compiled) : Prop :=
  ∀ text ∈ compiled.strings, Char.ofNat 0 ∉ text.toList

theorem of_mem_zip_of_map_eq {α β : Type} {find : α → Option β} {keys : List α} {values : List β}
    (found : keys.map find = values.map some) :
    ∀ pair ∈ keys.zip values, find pair.1 = some pair.2 := by
  induction keys generalizing values with
  | nil =>
    intro pair member
    cases member
  | cons key rest inductionHypothesis =>
    cases values with
    | nil => cases found
    | cons value others =>
      rw [List.map_cons, List.map_cons, List.cons.injEq] at found
      intro pair member
      rcases List.mem_cons.mp member with rfl | inRest
      · exact found.1
      · exact inductionHypothesis found.2 pair inRest

section Step

variable {base : Nat} {state next final : Rebuild} {old new : Header} {compiled : Compiled}
  {filled : Rebuild} {block : Bytes}

theorem Added.stringsAdded (added : Added base state next old new compiled filled block)
    (sound : Sound state) (noNul : NoNul compiled) :
    ∃ offsets, StringsAdded state filled compiled.strings offsets :=
  addStrings_added sound.places noNul added.strings

theorem Added.grows (added : Added base state next old new compiled filled block)
    (sound : Sound state) (noNul : NoNul compiled) : Grows state next := by
  obtain ⟨offsets, strings⟩ := added.stringsAdded sound noNul
  rw [added.next_eq]
  refine ⟨strings.texts, ?_, List.prefix_append _ _, List.prefix_append _ _,
    List.prefix_append _ _⟩
  exact ⟨_, strings.entered.symm⟩

/-- The variable pool holds whole numbers before and after. -/
theorem Added.whole_locals (added : Added base state next old new compiled filled block)
    (whole : ∃ words, state.locals.length = 4 * words) :
    ∃ words, next.locals.length = 4 * words := by
  obtain ⟨words, whole⟩ := whole
  obtain ⟨more, blockWhole⟩ : ∃ more, block.length = 4 * more := by
    by_cases none : new.locals = []
    · rw [added.noVariables none]
      exact ⟨0, rfl⟩
    · exact ⟨_, (packVariables_eq_ok (added.packed none)).1⟩
  refine ⟨words + more, ?_⟩
  rw [added.next_eq, List.length_append, whole, blockWhole]
  omega

theorem Added.sound (added : Added base state next old new compiled filled block)
    (sound : Sound state) (noNul : NoNul compiled) : Sound next := by
  obtain ⟨offsets, strings⟩ := added.stringsAdded sound noNul
  have whole := added.whole_locals sound.locals
  rw [added.next_eq] at whole ⊢
  refine ⟨strings.right, whole, ?_⟩
  rw [List.length_append, sound.attributes, added.carries.attributeSize, List.length_append,
    List.length_singleton, Nat.succ_mul]

/-- The strings of an added header are read back. -/
theorem Added.strings_stored (added : Added base state next old new compiled filled block)
    (sound : Sound state) (noNul : NoNul compiled) (grown : Grows next final)
    (fits : final.texts.length ≤ Bytes.range 4) :
    new.stringsFrom (final.pools base) 0 (new.field .stringCount) = .ok new.strings := by
  rw [added.carries.stringCount, added.carries.strings]
  by_cases none : compiled.strings = []
  · rw [none]
    rfl
  · obtain ⟨offsets, strings⟩ := added.stringsAdded sound noNul
    have texts : filled.texts <+: final.texts := by
      have later := grown.texts
      rwa [added.next_eq] at later
    obtain ⟨back, table⟩ : filled.offsets <+: final.offsets := by
      have later := grown.offsets
      rwa [added.next_eq] at later
    have length := congrArg List.length strings.found
    rw [List.length_map, List.length_map] at length
    have whole : (final.pools base).offsets =
        state.offsets ++ (offsets.map (Bytes.ofNatLittle 4)).flatten ++ back := by
      show final.offsets = _
      rw [← table, strings.entered]
    refine stringsFrom_of_textAt whole ?_ ?_ length fits
    · rw [added.stringIndex none, Nat.zero_mul, Nat.add_zero]
    · intro pair member
      exact (strings.right _ _ (of_mem_zip_of_map_eq strings.found pair member)).mono texts

/-- The code of an added header is read back. -/
theorem Added.code_stored (added : Added base state next old new compiled filled block)
    (grown : Grows next final) :
    new.codeAt (final.pools base) (base + state.code.length) = .ok new.code := by
  obtain ⟨back, tail⟩ : state.code ++ compiled.code <+: final.code := by
    have later := grown.code
    rwa [added.next_eq] at later
  have pool : (final.pools base).code =
      (List.replicate base 0 ++ state.code) ++ compiled.code ++ back := by
    show List.replicate base 0 ++ final.code = _
    rw [← tail]
    simp only [List.append_assoc]
  have front : (List.replicate base (0 : UInt8) ++ state.code).length = base + state.code.length := by
    rw [List.length_append, List.length_replicate]
  unfold Header.codeAt
  simp only [added.carries.codeLength, added.carries.code]
  rw [pool, if_neg (by simp only [List.length_append, List.length_replicate]; omega), ← front,
    Bytes.part_middle]

/-- The attributes of an added header are read back. -/
theorem Added.attributes_stored (added : Added base state next old new compiled filled block)
    (sound : Sound state) (grown : Grows next final) (count : Nat) :
    Header.attributesAt (final.pools base) state.headers.length count = .ok new.attributes := by
  obtain ⟨back, tail⟩ : state.attributes ++ compiled.attributes <+: final.attributes := by
    have later := grown.attributes
    rwa [added.next_eq] at later
  have size := added.carries.attributeSize
  unfold Header.attributesAt
  simp only [pools]
  rw [← sound.attributes, ← tail, added.carries.attributes,
    if_neg (by simp only [List.length_append]; omega), ← size, Bytes.part_middle]

theorem Added.stored (added : Added base state next old new compiled filled block)
    (sound : Sound state) (noNul : NoNul compiled) (grown : Grows next final)
    (fits : final.texts.length ≤ Bytes.range 4)
    (locals : new.variablesIn (final.pools base) = .ok new.locals) (count : Nat) :
    new.Stored (final.pools base) count state.headers.length (base + state.code.length) :=
  ⟨added.strings_stored sound noNul grown fits, locals, added.code_stored grown,
    added.attributes_stored sound grown count⟩

end Step

/-! ### A whole run -/

/-- A run keeps what holds at all times, and only lengthens the parts. -/
theorem run_keeps {base : Nat} {pairs : List (Header × Compiled)} {state final : Rebuild}
    (sound : Sound state) (noNul : ∀ pair ∈ pairs, NoNul pair.2)
    (run : pairs.foldlM (add base) state = .ok final) : Sound final ∧ Grows state final := by
  induction pairs generalizing state with
  | nil =>
    cases run
    exact ⟨sound, Grows.refl _⟩
  | cons pair rest inductionHypothesis =>
    rw [List.foldlM_cons] at run
    obtain ⟨next, step, run⟩ := bind_eq_ok.mp run
    obtain ⟨new, filled, block, added⟩ := add_eq_ok step
    have firstNoNul := noNul pair List.mem_cons_self
    obtain ⟨finalSound, grown⟩ := inductionHypothesis (added.sound sound firstNoNul)
      (fun other member => noNul other (List.mem_cons_of_mem _ member)) run
    exact ⟨finalSound, (added.grows sound firstNoNul).trans grown⟩

/-- New headers that carry compiled scripts, one for one. -/
inductive CarriesAll : List (Header × Compiled) → List Header → Prop where
  | nil : CarriesAll [] []
  | cons {pair : Header × Compiled} {pairs : List (Header × Compiled)} {new : Header}
      {others : List Header} (first : Carries pair.1 new pair.2) (rest : CarriesAll pairs others) :
      CarriesAll (pair :: pairs) (new :: others)

theorem CarriesAll.length_eq {pairs : List (Header × Compiled)} {headers : List Header}
    (carried : CarriesAll pairs headers) : headers.length = pairs.length := by
  induction carried with
  | nil => rfl
  | cons first rest inductionHypothesis =>
    rw [List.length_cons, List.length_cons, inductionHypothesis]

theorem CarriesAll.exists_pair {pairs : List (Header × Compiled)} {headers : List Header}
    (carried : CarriesAll pairs headers) {new : Header} (member : new ∈ headers) :
    ∃ pair ∈ pairs, Carries pair.1 new pair.2 := by
  induction carried with
  | nil => cases member
  | cons first rest inductionHypothesis =>
    rcases List.mem_cons.mp member with rfl | inRest
    · exact ⟨_, List.mem_cons_self, first⟩
    · obtain ⟨pair, paired, carries⟩ := inductionHypothesis inRest
      exact ⟨pair, List.mem_cons_of_mem _ paired, carries⟩

theorem CarriesAll.exists_header {pairs : List (Header × Compiled)} {headers : List Header}
    (carried : CarriesAll pairs headers) {pair : Header × Compiled} (member : pair ∈ pairs) :
    ∃ new ∈ headers, Carries pair.1 new pair.2 := by
  induction carried with
  | nil => cases member
  | cons first rest inductionHypothesis =>
    rcases List.mem_cons.mp member with rfl | inRest
    · exact ⟨_, List.mem_cons_self, first⟩
    · obtain ⟨new, inside, carries⟩ := inductionHypothesis inRest
      exact ⟨new, List.mem_cons_of_mem _ inside, carries⟩

/-- A run adds a header for each pair, and in the end each of them is stored, if its
variables are. -/
theorem run_stored {base : Nat} {pairs : List (Header × Compiled)} {state final : Rebuild}
    (sound : Sound state) (noNul : ∀ pair ∈ pairs, NoNul pair.2)
    (run : pairs.foldlM (add base) state = .ok final) (count : Nat) :
    ∃ new, final.headers = state.headers ++ new ∧ CarriesAll pairs new ∧
      (new ≠ [] → MapFile.codeBase new = base + state.code.length) ∧
      (final.texts.length ≤ Bytes.range 4 →
        (∀ header ∈ new, header.variablesIn (final.pools base) = .ok header.locals) →
        Header.StoredFrom (final.pools base) count state.headers.length
          (base + state.code.length) new) := by
  induction pairs generalizing state with
  | nil =>
    cases run
    exact ⟨[], (List.append_nil _).symm, .nil, fun some => absurd rfl some, fun _ _ => trivial⟩
  | cons pair rest inductionHypothesis =>
    rw [List.foldlM_cons] at run
    obtain ⟨next, step, run⟩ := bind_eq_ok.mp run
    obtain ⟨new, filled, block, added⟩ := add_eq_ok step
    have firstNoNul := noNul pair List.mem_cons_self
    have restNoNul := fun other member => noNul other (List.mem_cons_of_mem pair member)
    have nextSound := added.sound sound firstNoNul
    have grown := (run_keeps nextSound restNoNul run).2
    obtain ⟨others, headers, carried, -, stored⟩ := inductionHypothesis nextSound restNoNul run
    have nextHeaders : next.headers = state.headers ++ [new] := by rw [added.next_eq]
    have nextCode : next.code = state.code ++ pair.2.code := by rw [added.next_eq]
    refine ⟨new :: others, ?_, .cons added.carries carried, fun _ => added.codeOffset,
      fun fits locals => ⟨added.stored sound firstNoNul grown fits
        (locals new List.mem_cons_self) count, ?_⟩⟩
    · rw [headers, nextHeaders, List.append_assoc, List.singleton_append]
    · have restStored := stored fits fun header member =>
        locals header (List.mem_cons_of_mem _ member)
      rwa [nextHeaders, nextCode, List.length_append, List.length_append, List.length_singleton,
        ← Nat.add_assoc, ← added.carries.codeLength] at restStored

/-- Every string of a compiled script is stored in the end, and its offset entered. -/
theorem run_used {base : Nat} {pairs : List (Header × Compiled)} {state final : Rebuild}
    (sound : Sound state) (noNul : ∀ pair ∈ pairs, NoNul pair.2)
    (run : pairs.foldlM (add base) state = .ok final) {pair : Header × Compiled}
    (member : pair ∈ pairs) {text : String} (used : text ∈ pair.2.strings) :
    ∃ place, TextAt final.texts text place ∧
      ∀ byte ∈ Bytes.ofNatLittle 4 place, byte ∈ final.offsets := by
  induction pairs generalizing state with
  | nil => cases member
  | cons first rest inductionHypothesis =>
    rw [List.foldlM_cons] at run
    obtain ⟨next, step, restRun⟩ := bind_eq_ok.mp run
    obtain ⟨new, filled, block, added⟩ := add_eq_ok step
    have firstNoNul := noNul first List.mem_cons_self
    have restNoNul := fun other member => noNul other (List.mem_cons_of_mem first member)
    have nextSound := added.sound sound firstNoNul
    rcases List.mem_cons.mp member with rfl | inRest
    · obtain ⟨offsets, strings⟩ := added.stringsAdded sound firstNoNul
      have grown := (run_keeps nextSound restNoNul restRun).2
      have known : filled.places.find? text ∈ pair.2.strings.map filled.places.find? :=
        List.mem_map.mpr ⟨text, used, rfl⟩
      rw [strings.found] at known
      obtain ⟨place, entered, found⟩ := List.mem_map.mp known
      refine ⟨place, (strings.right text place found.symm).mono ?_, ?_⟩
      · have later := grown.texts
        rwa [added.next_eq] at later
      · intro byte inside
        have later := grown.offsets
        rw [added.next_eq] at later
        apply later.subset
        show byte ∈ filled.offsets
        rw [strings.entered]
        have piece : Bytes.ofNatLittle 4 place ∈ offsets.map (Bytes.ofNatLittle 4) :=
          List.mem_map.mpr ⟨place, entered, rfl⟩
        exact List.mem_append_right _ (List.mem_flatten.mpr ⟨_, piece, inside⟩)
    · exact inductionHypothesis nextSound restNoNul restRun inRest

/-- What depends on the string parts only and is kept by every string that is added, a
run keeps. -/
theorem run_strings_keep {base : Nat} {pairs : List (Header × Compiled)} {state final : Rebuild}
    (property : Bytes → Registry String Nat → Bytes → Prop)
    (keeps : ∀ before : Rebuild, ∀ pair ∈ pairs, ∀ text ∈ pair.2.strings, ∀ after : Rebuild,
      property before.texts before.places before.offsets → before.addString text = .ok after →
      property after.texts after.places after.offsets)
    (initial : property state.texts state.places state.offsets)
    (run : pairs.foldlM (add base) state = .ok final) :
    property final.texts final.places final.offsets := by
  refine foldlM_keeps (fun found => property found.texts found.places found.offsets) ?_ initial run
  intro before pair member after holds step
  obtain ⟨new, filled, block, added⟩ := add_eq_ok step
  have strings := foldlM_keeps
    (fun found : Rebuild => property found.texts found.places found.offsets)
    (fun before text used after => keeps before pair member text used after) holds added.strings
  rw [added.next_eq]
  exact strings

/-- The code pool holds the code of the scripts one after the other. -/
theorem run_code {base : Nat} {pairs : List (Header × Compiled)} {state final : Rebuild}
    (run : pairs.foldlM (add base) state = .ok final) :
    final.code = state.code ++ (pairs.map fun pair => pair.2.code).flatten := by
  induction pairs generalizing state with
  | nil =>
    cases run
    exact (List.append_nil _).symm
  | cons pair rest inductionHypothesis =>
    rw [List.foldlM_cons] at run
    obtain ⟨next, step, run⟩ := bind_eq_ok.mp run
    obtain ⟨new, filled, block, added⟩ := add_eq_ok step
    have nextCode : next.code = state.code ++ pair.2.code := by rw [added.next_eq]
    rw [inductionHypothesis run, nextCode, List.append_assoc, List.map_cons, List.flatten_cons]

end Rebuild

end MapScript
