/-
This file says what the string pool of a rebuilt map holds. While headers are added, the pool is
always the strings used so far, without repetitions and in the order of first use, each with a
zero behind it; the registry of places knows exactly these strings, and the offset table has an
entry for every use. Nothing is asked of the strings: one that is empty, or that holds a zero, or
that is the end of another one still has a place of its own, because every stored string takes at
least the byte behind it.
-/

import MapScript.Proofs.Rebuild.Reload

namespace MapScript

/-! ### Strings one after the other -/

/-- A string as it is stored: its bytes, and a zero behind them. -/
def storedText (text : String) : Bytes := (Bytes.ofText? text).getD [] ++ [0]

/-- Strings that are stored one after the other. -/
def storedTexts (texts : List String) : Bytes := texts.flatMap storedText

/-- Where a string starts among strings that are stored one after the other. -/
def textStart (texts : List String) (text : String) : Nat :=
  (storedTexts (texts.takeWhile (· != text))).length

theorem storedText_of_ofText? {text : String} {bytes : Bytes}
    (spelled : Bytes.ofText? text = some bytes) : storedText text = bytes ++ [0] := by
  rw [storedText, spelled, Option.getD_some]

theorem length_storedText_pos (text : String) : 0 < (storedText text).length := by
  rw [storedText, List.length_append, List.length_singleton]
  exact Nat.succ_pos _

theorem storedTexts_append (front back : List String) :
    storedTexts (front ++ back) = storedTexts front ++ storedTexts back :=
  List.flatMap_append

theorem storedTexts_singleton (text : String) : storedTexts [text] = storedText text :=
  List.flatMap_singleton _ _

/-- The strings in front of a string are the same when others are stored behind it. -/
theorem takeWhile_ne_append {texts : List String} {text : String} (member : text ∈ texts)
    (more : List String) :
    (texts ++ more).takeWhile (· != text) = texts.takeWhile (· != text) := by
  induction texts with
  | nil => cases member
  | cons first rest inductionHypothesis =>
    rw [List.cons_append, List.takeWhile_cons, List.takeWhile_cons]
    by_cases same : first = text
    · rw [same, bne_self_eq_false, if_neg Bool.false_ne_true, if_neg Bool.false_ne_true]
    · have inRest := (List.mem_cons.mp member).resolve_left (Ne.symm same)
      rw [inductionHypothesis inRest]

/-- A string keeps its place when others are stored behind it. -/
theorem textStart_append {texts : List String} {text : String} (member : text ∈ texts)
    (more : List String) : textStart (texts ++ more) text = textStart texts text := by
  rw [textStart, textStart, takeWhile_ne_append member]

/-- A new string starts where the others end. -/
theorem textStart_new {texts : List String} {text : String} (absent : text ∉ texts) :
    textStart (texts ++ [text]) text = (storedTexts texts).length := by
  rw [textStart, List.takeWhile_append_of_pos fun other member => ?_, List.takeWhile_cons_of_neg,
    List.append_nil]
  · simp
  · have different : other ≠ text := fun same => absent (same ▸ member)
    simpa using different

/-- The place of a string, from the front: the first string starts at once, the others behind
it. -/
theorem textStart_cons (first : String) (rest : List String) (text : String) :
    textStart (first :: rest) text =
      if first = text then 0 else (storedText first).length + textStart rest text := by
  rw [textStart, List.takeWhile_cons]
  by_cases same : first = text
  · rw [same, bne_self_eq_false, if_neg Bool.false_ne_true, if_pos rfl]
    rfl
  · have passed : (first != text) = true := by simpa using same
    rw [if_pos passed, if_neg same, storedTexts, List.flatMap_cons, List.length_append]
    rfl

/-- A string stands where it starts. -/
theorem storedText_prefix_drop {texts : List String} {text : String} (member : text ∈ texts) :
    storedText text <+: (storedTexts texts).drop (textStart texts text) := by
  induction texts with
  | nil => cases member
  | cons first rest inductionHypothesis =>
    have whole : storedTexts (first :: rest) = storedText first ++ storedTexts rest := rfl
    rw [whole, textStart_cons]
    by_cases same : first = text
    · rw [if_pos same, List.drop_zero, same]
      exact List.prefix_append _ _
    · rw [if_neg same, List.drop_append, List.drop_of_length_le (Nat.le_add_right _ _),
        List.nil_append, Nat.add_sub_cancel_left]
      exact inductionHypothesis ((List.mem_cons.mp member).resolve_left (Ne.symm same))

/-- Two strings start at the same place only if they are the same, for each takes a byte. -/
theorem textStart_eq_iff {texts : List String} {one other : String} (first : one ∈ texts)
    (second : other ∈ texts) : textStart texts one = textStart texts other ↔ one = other := by
  refine ⟨fun same => ?_, congrArg (textStart texts)⟩
  induction texts with
  | nil => cases first
  | cons head rest inductionHypothesis =>
    have filled := length_storedText_pos head
    rw [textStart_cons, textStart_cons] at same
    by_cases here : head = one
    · by_cases there : head = other
      · exact here.symm.trans there
      · rw [if_pos here, if_neg there] at same
        omega
    · by_cases there : head = other
      · rw [if_neg here, if_pos there] at same
        omega
      · rw [if_neg here, if_neg there, Nat.add_left_cancel_iff] at same
        exact inductionHypothesis ((List.mem_cons.mp first).resolve_left (Ne.symm here))
          ((List.mem_cons.mp second).resolve_left (Ne.symm there)) same

/-! ### Strings used while a map is rebuilt -/

namespace Rebuild

/-- The string parts of a rebuild are those of the strings used so far. -/
structure Pooled (used : List String) (state : Rebuild) : Prop where
  spelled : ∀ text ∈ used, (Bytes.ofText? text).isSome = true
  texts_eq : state.texts = storedTexts used.eraseDups
  known : ∀ text ∈ used, state.places.find? text = some (textStart used.eraseDups text)
  unknown : ∀ text, text ∉ used → state.places.find? text = none
  offsets_eq : state.offsets =
    (used.map fun text => Bytes.ofNatLittle 4 (textStart used.eraseDups text)).flatten
  fits : ∀ text ∈ used, textStart used.eraseDups text < Bytes.range 4

theorem pooled_start : Pooled [] start where
  spelled := fun _ member => absurd member List.not_mem_nil
  texts_eq := rfl
  known := fun _ member => absurd member List.not_mem_nil
  unknown := fun _ _ => rfl
  offsets_eq := rfl
  fits := fun _ member => absurd member List.not_mem_nil

theorem eraseDups_append_singleton (used : List String) (text : String) :
    (used ++ [text]).eraseDups =
      if text ∈ used then used.eraseDups else used.eraseDups ++ [text] := by
  rw [List.eraseDups_append, List.removeAll, List.filter_cons, List.filter_nil]
  by_cases member : text ∈ used
  · simp [member]
  · simp [member, List.eraseDups_cons]

theorem Pooled.length_offsets {used : List String} {state : Rebuild} (pooled : Pooled used state) :
    state.offsets.length = used.length * 4 := by
  rw [pooled.offsets_eq, MapFile.length_flatten_of_sizes 4, List.length_map]
  intro entry member
  obtain ⟨text, -, rfl⟩ := List.mem_map.mp member
  exact Bytes.length_ofNatLittle 4 _

/-- Using a string again adds an entry for it. -/
theorem Pooled.again {used : List String} {state : Rebuild} {text : String}
    (pooled : Pooled used state) (member : text ∈ used) :
    Pooled (used ++ [text]) { state with
      offsets := state.offsets ++ Bytes.ofNatLittle 4 (textStart used.eraseDups text) } := by
  have same : (used ++ [text]).eraseDups = used.eraseDups := by
    rw [eraseDups_append_singleton, if_pos member]
  have inUsed {other : String} (inside : other ∈ used ++ [text]) : other ∈ used := by
    rcases List.mem_append.mp inside with inside | inside
    · exact inside
    · rwa [List.mem_singleton.mp inside]
  constructor
  case spelled => exact fun other inside => pooled.spelled other (inUsed inside)
  case texts_eq => rw [same, pooled.texts_eq]
  case known => exact fun other inside => same ▸ pooled.known other (inUsed inside)
  case unknown =>
    exact fun other missing => pooled.unknown other fun inside =>
      missing (List.mem_append_left _ inside)
  case offsets_eq =>
    rw [same, List.map_append, List.flatten_append, ← pooled.offsets_eq, List.map_singleton,
      List.flatten_singleton]
  case fits => exact fun other inside => same ▸ pooled.fits other (inUsed inside)

/-- A string that was not used yet is stored behind the others. -/
theorem Pooled.fresh {used : List String} {state : Rebuild} {text : String} {bytes : Bytes}
    (pooled : Pooled used state) (absent : text ∉ used)
    (spelled : Bytes.ofText? text = some bytes) (fits : state.texts.length < Bytes.range 4) :
    Pooled (used ++ [text]) { state with
      texts := state.texts ++ bytes ++ [0]
      places := state.places.put text state.texts.length
      offsets := state.offsets ++ Bytes.ofNatLittle 4 state.texts.length } := by
  have more : (used ++ [text]).eraseDups = used.eraseDups ++ [text] := by
    rw [eraseDups_append_singleton, if_neg absent]
  have new : textStart (used.eraseDups ++ [text]) text = state.texts.length := by
    rw [textStart_new (fun inside => absent (List.mem_eraseDups.mp inside)), pooled.texts_eq]
  have old {other : String} (inside : other ∈ used) :
      textStart (used.eraseDups ++ [text]) other = textStart used.eraseDups other :=
    textStart_append (List.mem_eraseDups.mpr inside) [text]
  have different {other : String} (inside : other ∈ used) : other ≠ text :=
    fun same => absent (same ▸ inside)
  constructor
  case spelled =>
    intro other inside
    rcases List.mem_append.mp inside with inside | inside
    · exact pooled.spelled other inside
    · rw [List.mem_singleton.mp inside, spelled]
      rfl
  case texts_eq =>
    rw [more, storedTexts_append, storedTexts_singleton, storedText_of_ofText? spelled,
      ← pooled.texts_eq, List.append_assoc]
  case known =>
    intro other inside
    rw [more]
    rcases List.mem_append.mp inside with inside | inside
    · rw [Registry.find?_put_other _ (different inside), pooled.known other inside, old inside]
    · rw [List.mem_singleton.mp inside, Registry.find?_put_self, new]
  case unknown =>
    intro other missing
    have notText : other ≠ text := fun same =>
      missing (List.mem_append_right _ (List.mem_singleton.mpr same))
    rw [Registry.find?_put_other _ notText]
    exact pooled.unknown other fun inside => missing (List.mem_append_left _ inside)
  case offsets_eq =>
    have entries : (used.map fun other =>
          Bytes.ofNatLittle 4 (textStart (used.eraseDups ++ [text]) other)) =
        used.map fun other => Bytes.ofNatLittle 4 (textStart used.eraseDups other) :=
      List.map_congr_left fun other inside => by rw [old inside]
    rw [more, List.map_append, List.flatten_append, List.map_singleton, List.flatten_singleton, new,
      entries, pooled.offsets_eq]
  case fits =>
    intro other inside
    rw [more]
    rcases List.mem_append.mp inside with inside | inside
    · rw [old inside]
      exact pooled.fits other inside
    · rw [List.mem_singleton.mp inside, new]
      exact fits

/-- Adding a string uses it. -/
theorem Pooled.addString {used : List String} {state next : Rebuild} {text : String}
    (pooled : Pooled used state) (added : state.addString text = .ok next) :
    Pooled (used ++ [text]) next := by
  by_cases member : text ∈ used
  · have found := pooled.known text member
    rcases addString_eq_ok added with ⟨place, known, -, rfl⟩ | ⟨bytes, unknown, -⟩
    · rw [known, Option.some.injEq] at found
      exact found ▸ pooled.again member
    · rw [unknown] at found
      cases found
  · have missing := pooled.unknown text member
    rcases addString_eq_ok added with ⟨place, known, -⟩ | ⟨bytes, -, spelled, fits, rfl⟩
    · rw [known] at missing
      cases missing
    · exact pooled.fresh member spelled fits

/-- Adding the strings of a header uses them in order. -/
theorem Pooled.addStrings {used strings : List String} {state next : Rebuild}
    (pooled : Pooled used state) (added : strings.foldlM Rebuild.addString state = .ok next) :
    Pooled (used ++ strings) next := by
  induction strings generalizing used state with
  | nil =>
    cases added
    rwa [List.append_nil]
  | cons text rest inductionHypothesis =>
    rw [List.foldlM_cons] at added
    obtain ⟨middle, first, others⟩ := bind_eq_ok.mp added
    have later := inductionHypothesis (pooled.addString first) others
    rwa [List.append_assoc] at later

end Rebuild

/-! ### Headers of a rebuilt map -/

/-- The strings of headers, in order. -/
def usedStrings (headers : List Header) : List String := headers.flatMap Header.strings

namespace Rebuild

/-- A run uses the strings of all headers, and each header with strings points behind the
entries of those before it. -/
theorem run_pooled {base : Nat} {pairs : List (Header × Compiled)} {used : List String}
    {state final : Rebuild} (pooled : Pooled used state)
    (run : pairs.foldlM (add base) state = .ok final) :
    ∃ new, final.headers = state.headers ++ new ∧
      new.map Header.strings = pairs.map (fun pair => pair.2.strings) ∧
      Pooled (used ++ usedStrings new) final ∧
      ∀ place header, new[place]? = some header → header.strings ≠ [] →
        header.field .stringIndex = (used ++ usedStrings (new.take place)).length * 4 := by
  induction pairs generalizing used state with
  | nil =>
    cases run
    refine ⟨[], (List.append_nil _).symm, rfl, ?_, fun place header found => ?_⟩
    · rw [usedStrings, List.flatMap_nil, List.append_nil]
      exact pooled
    · cases found
  | cons pair rest inductionHypothesis =>
    rw [List.foldlM_cons] at run
    obtain ⟨next, step, run⟩ := bind_eq_ok.mp run
    obtain ⟨new, filled, block, added⟩ := add_eq_ok step
    have strings := added.carries.strings
    have nextPooled : Pooled (used ++ new.strings) next := by
      have filledPooled := pooled.addStrings added.strings
      rw [strings, added.next_eq]
      exact ⟨filledPooled.spelled, filledPooled.texts_eq, filledPooled.known,
        filledPooled.unknown, filledPooled.offsets_eq, filledPooled.fits⟩
    obtain ⟨others, headers, othersStrings, finalPooled, indexed⟩ :=
      inductionHypothesis nextPooled run
    have nextHeaders : next.headers = state.headers ++ [new] := by rw [added.next_eq]
    refine ⟨new :: others, ?_, ?_, ?_, fun place header found filled => ?_⟩
    · rw [headers, nextHeaders, List.append_assoc, List.singleton_append]
    · rw [List.map_cons, List.map_cons, strings, othersStrings]
    · rwa [List.append_assoc] at finalPooled
    · cases place with
      | zero =>
        cases Option.some.inj found
        rw [strings] at filled
        rw [added.stringIndex filled, pooled.length_offsets, List.take_zero, usedStrings,
          List.flatMap_nil, List.append_nil]
      | succ place =>
        rw [indexed place header found filled, List.append_assoc]
        rfl

end Rebuild

/-! ### The string pool of a rebuilt map -/

/-- A number that an offset table holds: four bytes for each. -/
def offsetEntry (offsets : Bytes) (index : Nat) : Nat :=
  Bytes.little (Bytes.part offsets (index * 4) 4)

theorem Rebuild.Pooled.offsetEntry_eq {used : List String} {state : Rebuild}
    (pooled : Pooled used state) {index : Nat} {text : String} (here : used[index]? = some text) :
    offsetEntry state.offsets index = textStart used.eraseDups text := by
  obtain ⟨inside, rfl⟩ := List.getElem?_eq_some_iff.mp here
  have sizes : ∀ entry ∈ used.map fun text => Bytes.ofNatLittle 4 (textStart used.eraseDups text),
      entry.length = 4 := by
    intro entry member
    obtain ⟨text, -, rfl⟩ := List.mem_map.mp member
    exact Bytes.length_ofNatLittle 4 _
  rw [offsetEntry, pooled.offsets_eq, MapFile.part_flatten sizes (by rwa [List.length_map]),
    List.getElem_map, Bytes.little_ofNatLittle (pooled.fits _ (List.getElem_mem inside))]

/-- A string pool and an offset table hold the strings of headers. The pool is each string once,
in the order of first use, with a zero behind it. The table has an entry for every string of every
header, in order: where the string starts in the pool, which is the same for two entries exactly
if they stand for the same string. A header with strings says behind how many bytes of the table
its own entries start. -/
structure PoolsStrings (headers : List Header) (texts offsets : Bytes) : Prop where
  spelled : ∀ text ∈ usedStrings headers, ∃ bytes, Bytes.ofText? text = some bytes
  texts_eq : texts = storedTexts (usedStrings headers).eraseDups
  length_eq : offsets.length = (usedStrings headers).length * 4
  entry_eq : ∀ (index : Nat) (text : String), (usedStrings headers)[index]? = some text →
    offsetEntry offsets index = textStart (usedStrings headers).eraseDups text
  stored : ∀ (index : Nat) (text : String), (usedStrings headers)[index]? = some text →
    storedText text <+: texts.drop (offsetEntry offsets index)
  entry_eq_iff : ∀ (first second : Nat) (one other : String),
    (usedStrings headers)[first]? = some one → (usedStrings headers)[second]? = some other →
    (offsetEntry offsets first = offsetEntry offsets second ↔ one = other)
  stringIndex_eq : ∀ (place : Nat) (header : Header), headers[place]? = some header →
    header.strings ≠ [] → header.field .stringIndex = (usedStrings (headers.take place)).length * 4

theorem poolsStrings_of_pooled {headers : List Header} {state : Rebuild}
    (pooled : Rebuild.Pooled (usedStrings headers) state)
    (indexed : ∀ (place : Nat) (header : Header), headers[place]? = some header →
      header.strings ≠ [] →
      header.field .stringIndex = (usedStrings (headers.take place)).length * 4) :
    PoolsStrings headers state.texts state.offsets where
  spelled := fun text used => Option.isSome_iff_exists.mp (pooled.spelled text used)
  texts_eq := pooled.texts_eq
  length_eq := pooled.length_offsets
  entry_eq := fun index text here => pooled.offsetEntry_eq here
  stored := by
    intro index text here
    rw [pooled.offsetEntry_eq here, pooled.texts_eq]
    exact storedText_prefix_drop (List.mem_eraseDups.mpr (List.mem_of_getElem? here))
  entry_eq_iff := by
    intro first second one other here there
    rw [pooled.offsetEntry_eq here, pooled.offsetEntry_eq there]
    exact textStart_eq_iff (List.mem_eraseDups.mpr (List.mem_of_getElem? here))
      (List.mem_eraseDups.mpr (List.mem_of_getElem? there))
  stringIndex_eq := indexed

namespace MapFile

/-- Rebuilding a map that has a string pool and an offset table fills both with the strings of
the compiled scripts. -/
theorem withCompiled_poolsStrings {file rebuilt : MapFile} {compiled : List Compiled}
    (hasTexts : Record.payload? file.records stringsTag ≠ none)
    (hasOffsets : Record.payload? file.records offsetsTag ≠ none)
    (built : file.withCompiled compiled = .ok rebuilt) :
    rebuilt.headers.map Header.strings = compiled.map Compiled.strings ∧
      ∃ texts offsets, Record.payload? rebuilt.records stringsTag = some texts ∧
        Record.payload? rebuilt.records offsetsTag = some offsets ∧
        PoolsStrings rebuilt.headers texts offsets := by
  obtain ⟨state, builtBy⟩ := withCompiled_eq_ok built
  obtain ⟨new, headers, strings, pooled, indexed⟩ :=
    Rebuild.run_pooled Rebuild.pooled_start builtBy.run
  have newHeaders : rebuilt.headers = new := by
    rw [builtBy.headers, headers]
    rfl
  have seconds : (file.headers.zip compiled).map (fun pair => pair.2.strings) =
      compiled.map Compiled.strings := by
    have scripts := List.map_snd_zip (Nat.le_of_eq builtBy.lengths)
    rw [← congrArg (List.map Compiled.strings) scripts, List.map_map]
    rfl
  have part (tag payload : Bytes)
      (member : ⟨tag, payload⟩ ∈ state.records (codeBase file.headers) (tableMark file))
      (present : Record.payload? file.records tag ≠ none) :
      Record.payload? rebuilt.records tag = some payload := by
    rw [builtBy.records]
    refine (Rebuild.payload?_rebuilt file.records member).trans ?_
    obtain ⟨old, found⟩ := Option.ne_none_iff_exists'.mp present
    rw [keptPayload, found]
    rfl
  refine ⟨by rw [newHeaders, strings, seconds], state.texts, state.offsets,
    part _ _ (by simp [Rebuild.records]) hasTexts, part _ _ (by simp [Rebuild.records]) hasOffsets,
    ?_⟩
  rw [newHeaders]
  exact poolsStrings_of_pooled pooled indexed

/-- The bytes of a map of two headers `GATE` that have no strings, with an empty string pool and
an empty offset table. -/
def pondData : Bytes :=
  headersTag ++ [0, 0, 1, 82, 2, 0, 0, 0, 0, 0, 0, 0] ++ gateBlock 1 0 0 0 ++ gateBlock 1 0 0 0 ++
    offsetsTag ++ [0, 0, 0, 0] ++ stringsTag ++ [0, 0, 0, 0] ++ endTag

def pondFile : MapFile := reached (decode pondData) ⟨[], [], []⟩

def pondScripts : List Compiled :=
  [gateScript ["ab", "b", ""] .empty, gateScript ["b", "\x00", "ab"] .empty]

def pondRebuilt : MapFile := reached (pondFile.withCompiled pondScripts) ⟨[], [], []⟩

/-- The string `b` is stored for itself, although it also stands at the end of `ab`, and so is
the empty one, though the byte behind another one would do. -/
theorem withCompiled_poolsStrings_pond :
    decode pondData = .ok pondFile ∧ pondFile.withCompiled pondScripts = .ok pondRebuilt ∧
      Record.payload? pondRebuilt.records stringsTag =
        some [0x61, 0x62, 0, 0x62, 0, 0, 0, 0] ∧
      ∃ texts offsets, Record.payload? pondRebuilt.records stringsTag = some texts ∧
        Record.payload? pondRebuilt.records offsetsTag = some offsets ∧
        PoolsStrings pondRebuilt.headers texts offsets ∧
        (List.range 6).map (offsetEntry offsets) = [0, 3, 5, 3, 6, 0] ∧
        pondRebuilt.headers.map (fun header => header.field .stringIndex) = [0, 12] := by
  have built : pondFile.withCompiled pondScripts = .ok pondRebuilt :=
    eq_ok_reached (by decide +kernel)
  obtain ⟨-, texts, offsets, foundTexts, foundOffsets, pools⟩ :=
    withCompiled_poolsStrings (by decide +kernel) (by decide +kernel) built
  refine ⟨eq_ok_reached (by decide +kernel), built, by decide +kernel, texts, offsets, foundTexts,
    foundOffsets, pools, ?_, by decide +kernel⟩
  have entries : (List.range 6).map
      (offsetEntry ((Record.payload? pondRebuilt.records offsetsTag).getD [])) =
        [0, 3, 5, 3, 6, 0] := by decide +kernel
  rwa [foundOffsets] at entries

end MapFile

end MapScript
