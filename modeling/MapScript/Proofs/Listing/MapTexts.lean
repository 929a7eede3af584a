/-
This file proves that the text of a whole map is read back header by header. The text says
which map it is, and then gives for each header the variables that may be edited, the
attributes that are not zero, and the script. Each of these lines is known for what it is, so
that none goes to another header; a header whose script alone comes back is restored from
the text of the map, with its attributes and these variables.
-/

import MapScript.Listing.MapText
import MapScript.Proofs.Listing.Enclosed
import MapScript.Proofs.Listing.Restored
import MapScript.Proofs.Listing.RoundTrip

namespace MapScript

/-! ### Parts of the text -/

theorem Header.gives_text (header : Header) (symbols : Symbols) (lenient : Bool) :
    (header.text symbols lenient).Gives (do
      let attributes ← attributesText symbols header.attributeValues
      let script ← (header.program.text symbols lenient).outcome.1
      pure (variablesText header.locals ++ attributes ++ script)) := by
  have written := header.program.gives_text symbols lenient
  rw [← written.outcome] at written
  exact (Logged.gives_lift _).bind fun _ => written.bind fun _ => Logged.gives_pure _

/-- What stands in front of the first header: nothing, or lines that say which map this is. -/
def IsFront (front : String) : Prop :=
  front = "" ∨ ∃ (name : String) (ids : List Int),
    (∀ c ∈ name.toList, Text.isNameChar c = true) ∧ front = preambleText name ids

/-- The text of a map is that of its headers, behind lines that say which map this is. -/
theorem MapFile.gives_parts (file : MapFile) (symbols : Symbols) (name : Option String)
    (ids : List Int) (lenient : Bool) :
    ∃ front, ((∀ given ∈ name, ∀ c ∈ given.toList, Text.isNameChar c = true) → IsFront front) ∧
      (file.text symbols name ids lenient).Gives (do
        let parts ← file.headers.mapM fun header => (header.text symbols lenient).outcome.1
        pure (front ++ "\n\n".intercalate parts)) := by
  have each (header : Header) :
      (header.text symbols lenient).Gives (header.text symbols lenient).outcome.1 := by
    have gives := header.gives_text symbols lenient
    rwa [← gives.outcome] at gives
  have joined (front : String) := (Logged.Gives.mapM each file.headers).bind fun parts =>
    Logged.gives_pure (front ++ "\n\n".intercalate parts)
  cases name with
  | none => exact ⟨"", fun _ => .inl rfl, joined ""⟩
  | some given =>
    refine ⟨if given.isEmpty then ""
      else preambleText given (if ids.isEmpty then symbols.mapIds given else ids),
      fun letters => ?_, joined _⟩
    split
    · exact .inl rfl
    · exact .inr ⟨given, _, letters given rfl, rfl⟩

theorem MapFile.gives_text (file : MapFile) (symbols : Symbols) {name : Option String}
    (letters : ∀ given ∈ name, ∀ c ∈ given.toList, Text.isNameChar c = true) (ids : List Int)
    (lenient : Bool) :
    ∃ front, IsFront front ∧ (file.text symbols name ids lenient).Gives (do
      let parts ← file.headers.mapM fun header => (header.text symbols lenient).outcome.1
      pure (front ++ "\n\n".intercalate parts)) := by
  obtain ⟨front, isFront, gives⟩ := file.gives_parts symbols name ids lenient
  exact ⟨front, isFront letters, gives⟩

/-! ### Settings -/

section Settings

variable {symbols : Symbols}

/-- Lines of settings, with an empty line behind them, are sifted one by one. -/
theorem siftText_join {lines : List String} {texts : List (List Char)}
    (same : lines.map String.toList = texts.map (· ++ ['\n']))
    (kept : ∀ text ∈ texts, IsKept symbols text) (back : List Char) :
    siftText symbols ((String.join lines ++ "\n").toList ++ back) =
      (siftText symbols back).map (texts ++ ·) := by
  have joined : (String.join lines ++ "\n").toList ++ back =
      (texts.map (· ++ ['\n'])).flatten ++ '\n' :: back := by
    rw [String.toList_append, String.toList_join, List.append_assoc, ← same,
      List.flatMap_def]
    rfl
  rw [joined, siftText_settings kept]

theorem siftText_variablesText (locals : List Int) (back : List Char) :
    siftText symbols ((variablesText locals).toList ++ back) =
      (siftText symbols back).map ((editableVariables locals).map variableText ++ ·) := by
  unfold variablesText
  simp only
  split
  · rename_i few
    rw [editableVariables, if_pos few]
    exact Option.map_id'.symm
  · refine siftText_join ?_ (fun text member => ?_) back
    · simp only [List.map_map]
      refine List.map_congr_left fun setting _ => ?_
      simp only [Function.comp_apply, variableText, String.toList_append, String.toList_ofList]
      rfl
    · obtain ⟨setting, -, rfl⟩ := List.mem_map.mp member
      exact isKept_variableText setting

theorem Symbols.attributeName_eq_ok {place : Nat} {name : String}
    (found : symbols.attributeName place = .ok name) :
    place < symbols.attributes.length ∧ symbols.attributes.getD place "" = name := by
  unfold attributeName entryAt at found
  rw [if_pos (Int.natCast_nonneg place), Int.toNat_natCast] at found
  split at found
  · rename_i entry there
    cases found
    obtain ⟨inside, -⟩ := List.getElem?_eq_some_iff.mp there
    exact ⟨inside, by rw [List.getD_eq_getElem?_getD, there]; rfl⟩
  · cases found

/-- Lines for attributes are those of their settings, and the symbols name all of them. -/
theorem attributeLines_eq {values : List (Nat × Int)} {lines : List String}
    (listed : (values.mapM fun (place, value) => do
      let name ← symbols.attributeName place
      pure (name ++ " = " ++ String.ofList (Text.integer value) ++ "\n")) = .ok lines) :
    (∀ value ∈ values, value.1 < symbols.attributes.length) ∧
      lines.map String.toList =
        ((symbols.attributeSettings values).map attributeText).map (· ++ ['\n']) := by
  induction values generalizing lines with
  | nil =>
    cases listed
    exact ⟨fun _ none => absurd none List.not_mem_nil, rfl⟩
  | cons value rest inductionHypothesis =>
    obtain ⟨line, others, here, behind, rfl⟩ := mapM_cons_eq_ok.mp listed
    obtain ⟨name, found, same⟩ := bind_eq_ok.mp here
    obtain ⟨known, spelled⟩ := symbols.attributeName_eq_ok found
    obtain ⟨allKnown, texts⟩ := inductionHypothesis behind
    cases same
    refine ⟨List.forall_mem_cons.mpr ⟨known, allKnown⟩, ?_⟩
    rw [List.map_cons, texts, ← spelled]
    simp only [Symbols.attributeSettings, List.map_cons, attributeText, String.toList_append,
      String.toList_ofList]
    rfl

theorem Symbols.isAttributeName_of_mem {values : List (Nat × Int)}
    (named : ∀ name ∈ symbols.attributes, IsAttributeName name)
    (known : ∀ value ∈ values, value.1 < symbols.attributes.length) :
    ∀ setting ∈ symbols.attributeSettings values, IsAttributeName setting.1 := by
  intro setting member
  obtain ⟨value, inside, rfl⟩ := List.mem_map.mp member
  refine named _ ?_
  rw [List.getD_eq_getElem?_getD, List.getElem?_eq_getElem (known value inside)]
  exact List.getElem_mem _

theorem siftText_attributesText {values : List (Nat × Int)} {text : String}
    (named : ∀ name ∈ symbols.attributes, IsAttributeName name)
    (written : attributesText symbols values = .ok text) :
    (∀ value ∈ values, value.1 < symbols.attributes.length) ∧
      ∀ back, siftText symbols (text.toList ++ back) =
        (siftText symbols back).map ((symbols.attributeSettings values).map attributeText ++ ·) := by
  obtain ⟨lines, listed, same⟩ := bind_eq_ok.mp written
  obtain ⟨known, texts⟩ := attributeLines_eq listed
  refine ⟨known, fun back => ?_⟩
  rw [← (Except.ok.inj same :)]
  cases values with
  | nil => exact Option.map_id'.symm
  | cons value rest =>
    refine siftText_join texts (fun text member => ?_) back
    obtain ⟨setting, inside, rfl⟩ := List.mem_map.mp member
    exact isKept_attributeText (symbols.isAttributeName_of_mem named known setting inside)

end Settings

/-! ### One header -/

/-- A compiled script is the script of a header. -/
structure Compiled.IsScriptOf (compiled : Compiled) (header : Header) : Prop where
  name : compiled.name = header.name
  code : compiled.code = header.code
  entry : compiled.entry = header.field .entry
  strings : compiled.strings = header.strings

/-- A compiled script restores a header: it is its script, it sets all its attributes, and
those of its variables that may be edited. -/
structure Compiled.Restores (compiled : Compiled) (header : Header) : Prop
    extends compiled.IsScriptOf header where
  attributes : compiled.attributes = header.attributes
  locals : ∀ index : Int, compiled.locals.find? index =
    if 2 ≤ index ∧ index + 2 < header.locals.length then header.locals[index.toNat]? else none

/-- The text of a header's script, without settings, is compiled to the script again. -/
def Header.ComesBack (symbols : Symbols) (lenient : Bool) (header : Header) : Prop :=
  ∃ text compiled, (header.program.text symbols lenient).outcome.1 = .ok text ∧
    compileText symbols [some header.locals] text.toList = .ok [compiled] ∧
    compiled.IsScriptOf header

/-- The script that is read for a header: its settings, and a block behind them. -/
def Header.readBack (header : Header) (symbols : Symbols) (startLabel : Option Int) (body : Block) :
    Script where
  name := header.name
  startLabel := startLabel
  body := body
  attributes := (symbols.attributeSettings header.attributeValues).map AttributeLine.bare
  locals := enterLocals (editableVariables header.locals) .empty
  origin := ⟨0, ""⟩

/-- Texts stand for a header: in front of others they are read as one script, and whatever is
read like it restores the header. -/
structure Header.StandsIn (symbols : Symbols) (header : Header) (texts : List (List Char))
    (script : Script) : Prop where
  reads : ∀ {behind scripts}, ReadsAs .empty behind scripts →
    ReadsAs .empty (texts ++ behind) (script :: scripts)
  restores : ∀ {read : Script}, read.forget = script.forget →
    ∃ compiled, read.compile symbols (some header.locals) = .ok compiled ∧
      compiled.Restores header

namespace Header

variable {symbols : Symbols} {lenient : Bool} {header : Header} {records : List Record}
  {count place cursor : Nat}

/-- The variables that may be edited can be set. -/
theorem Stored.editable_range (stored : header.Stored (.ofRecords records) count place cursor) :
    ∀ setting ∈ editableVariables header.locals,
      setting.1 < 0x100000000 ∧ -0x80000000 ≤ setting.2 ∧ setting.2 < 0x80000000 := by
  intro setting member
  obtain ⟨-, inside, there⟩ := mem_editableVariables.mp member
  have bound := header.field_lt .variableCount
  rw [← stored.length_locals] at bound
  have width : Bytes.range HeaderField.variableCount.width = 0x100000000 := by decide
  exact ⟨by omega, stored.locals_range setting.2 (List.mem_of_getElem? there)⟩

/-- Settings in front of the texts of a script go to that script. -/
theorem readsAs_readBack {texts behind : List (List Char)} {startLabel : Option Int} {body : Block}
    {scripts : List Script} (named : ∀ name ∈ symbols.attributes, IsAttributeName name)
    (known : ∀ value ∈ header.attributeValues, value.1 < symbols.attributes.length)
    (stored : header.Stored (.ofRecords records) count place cursor)
    (makes : MakesUp texts header.name startLabel body) (rest : ReadsAs .empty behind scripts) :
    ReadsAs .empty ((editableVariables header.locals).map variableText ++
      ((symbols.attributeSettings header.attributeValues).map attributeText ++ (texts ++ behind)))
      (header.readBack symbols startLabel body :: scripts) := by
  have range : ∀ setting ∈ symbols.attributeSettings header.attributeValues,
      -128 ≤ setting.2 ∧ setting.2 < 128 := by
    intro setting member
    obtain ⟨value, inside, rfl⟩ := List.mem_map.mp member
    exact header.attributeValues_range value inside
  have editable := stored.editable_range
  refine .variableLines (fun setting member => (editable setting member).1)
    (fun setting member => (editable setting member).2) ?_
  refine .attributeLines (symbols.isAttributeName_of_mem named known) range ?_
  exact makes.readsAs _ rest

/-- What is read like a header's script and settings is compiled to the header's parts. -/
theorem restores_readBack {script read : Script} {body : Block} {compiled : Compiled}
    (distinct : symbols.attributes.Nodup)
    (known : ∀ value ∈ header.attributeValues, value.1 < symbols.attributes.length)
    (size : header.attributes.length = attributeBlockSize)
    (done : script.compile symbols (some header.locals) = .ok compiled)
    (isScript : compiled.IsScriptOf header) (sameBody : body.forget = script.body.forget)
    (alike : read.forget = (header.readBack symbols script.startLabel body).forget) :
    ∃ restored, read.compile symbols (some header.locals) = .ok restored ∧
      restored.Restores header := by
  have bodies : read.body.forget = script.body.forget :=
    (congrArg Script.body alike).trans sameBody
  have starts : read.startLabel = script.startLabel := (congrArg Script.startLabel alike :)
  have locals : read.locals = enterLocals (editableVariables header.locals) .empty :=
    (congrArg Script.locals alike :)
  have set : attributeBlock symbols read.attributes = .ok header.attributes := by
    refine attributeBlock_forget.mp ?_
    rw [← header.attributeBlock_values distinct size known]
    refine congrArg (attributeBlock symbols) ((congrArg Script.attributes alike).trans ?_)
    exact List.map_map
  refine ⟨_, Script.compile_of_forget done bodies starts set,
    ⟨(congrArg Script.name alike :), isScript.code, isScript.entry, isScript.strings⟩, rfl, ?_⟩
  intro index
  rw [locals]
  exact find?_enterLocals_editable header.locals index

/-- A header whose script comes back stands in the text that is written for it. -/
theorem exists_standsIn {part : String} (distinct : symbols.attributes.Nodup)
    (named : ∀ name ∈ symbols.attributes, IsAttributeName name)
    (stored : header.Stored (.ofRecords records) count place cursor)
    (written : (header.text symbols lenient).outcome.1 = .ok part)
    (alone : header.ComesBack symbols lenient) :
    ∃ texts script, siftText symbols part.toList = some texts ∧
      header.StandsIn symbols texts script := by
  rw [(header.gives_text symbols lenient).outcome] at written
  obtain ⟨attributes, attributesOk, written⟩ := bind_eq_ok.mp written
  obtain ⟨text, textOk, same⟩ := bind_eq_ok.mp written
  cases same
  -- The script is the same text in the map as alone, so what is known of it alone is of use.
  obtain ⟨own, compiled, ownOk, recompiled, isScript⟩ := alone
  cases Except.ok.inj (textOk.symm.trans ownOk)
  obtain ⟨script, parsed, done⟩ := compileText_eq_single_iff.mp recompiled
  obtain ⟨_, _, _, -, -, -, -, -, -, sameName⟩ := Script.compile_eq_ok done
  obtain ⟨texts, body, sifted, makes, sameBody⟩ :=
    header.program.makesUp_of_parse textOk parsed (sameName.symm.trans isScript.name)
  obtain ⟨known, attributesSifted⟩ := siftText_attributesText named attributesOk
  refine ⟨(editableVariables header.locals).map variableText ++
    ((symbols.attributeSettings header.attributeValues).map attributeText ++ texts),
    header.readBack symbols script.startLabel body, ?_, ?_, ?_⟩
  · rw [String.toList_append, String.toList_append, List.append_assoc, siftText_variablesText,
      attributesSifted, sifted]
    rfl
  · intro behind scripts rest
    rw [List.append_assoc, List.append_assoc]
    exact readsAs_readBack named known stored makes rest
  · exact restores_readBack distinct known (length_of_attributesAt stored.attributes) done isScript
      sameBody

end Header

/-! ### All headers -/

theorem ReadsAs.preambles {front texts : List (List Char)} {preface : Preface}
    {scripts : List Script} (skipped : ∀ text ∈ front, isPreamble text = true)
    (rest : ReadsAs preface texts scripts) : ReadsAs preface (front ++ texts) scripts := by
  induction front with
  | nil => exact rest
  | cons text front inductionHypothesis =>
    obtain ⟨here, others⟩ := List.forall_mem_cons.mp skipped
    exact (inductionHypothesis others).preamble here

section Headers

variable {symbols : Symbols}

/-- A gap keeps the texts of headers apart. -/
theorem siftText_gap (front back : List Char) :
    siftText symbols (front ++ ("\n\n".toList ++ back)) =
      (siftText symbols front).bind fun one => (siftText symbols back).map (one ++ ·) := by
  have gap : "\n\n".toList ++ back = '\n' :: '\n' :: back := rfl
  rw [gap, siftText_append_feed, siftText_feed]

/-- Texts that stand for headers are read as their scripts, one after the other, and what is
read like these restores the headers. -/
theorem Header.exists_scripts {lenient : Bool} {records : List Record} {count : Nat}
    {headers : List Header} {parts : List String} (distinct : symbols.attributes.Nodup)
    (named : ∀ name ∈ symbols.attributes, IsAttributeName name) {place cursor : Nat}
    (stored : StoredFrom (.ofRecords records) count place cursor headers)
    (written : (headers.mapM fun header => (header.text symbols lenient).outcome.1) = .ok parts)
    (alone : ∀ header ∈ headers, header.ComesBack symbols lenient) :
    ∃ texts scripts, gather (fun part => siftText symbols part.toList) parts = some texts ∧
      ReadsAs .empty texts scripts ∧
      ∀ reads : List Script, reads.map Script.forget = scripts.map Script.forget →
        ∃ restored, compileScripts symbols (headers.map fun header => some header.locals) reads =
            .ok restored ∧ restored.length = headers.length ∧
          ∀ pair ∈ headers.zip restored, pair.2.Restores pair.1 := by
  -- Nothing is left over behind the script of a header, so the next one starts afresh.
  induction headers generalizing parts place cursor with
  | nil =>
    cases written
    refine ⟨[], [], rfl, .nil, fun reads same => ?_⟩
    rw [List.map_eq_nil_iff.mp same]
    exact ⟨[], rfl, rfl, fun _ none => absurd none List.not_mem_nil⟩
  | cons header rest inductionHypothesis =>
    obtain ⟨part, others, here, behind, rfl⟩ := mapM_cons_eq_ok.mp written
    obtain ⟨headerStored, restStored⟩ := stored
    obtain ⟨headerAlone, restAlone⟩ := List.forall_mem_cons.mp alone
    obtain ⟨texts, script, sifted, stands⟩ :=
      exists_standsIn distinct named headerStored here headerAlone
    obtain ⟨more, scripts, gathered, readsMore, restores⟩ :=
      inductionHypothesis restStored behind restAlone
    refine ⟨texts ++ more, script :: scripts, ?_, stands.reads readsMore, fun reads same => ?_⟩
    · rw [gather_cons, sifted, gathered]
      rfl
    · obtain ⟨read, others, rfl, alike, others⟩ := List.map_eq_cons_iff.mp same
      obtain ⟨first, compiled, restored⟩ := stands.restores alike
      obtain ⟨remaining, compiledRest, length, restoredRest⟩ := restores _ others
      refine ⟨first :: remaining, bind_eq_ok.mpr ⟨first, compiled, bind_eq_ok.mpr
        ⟨remaining, compiledRest, rfl⟩⟩, congrArg (· + 1) length, ?_⟩
      exact List.forall_mem_cons.mpr ⟨restored, restoredRest⟩

end Headers

/-- The text of a map is compiled to one script for each header, in the order of the table,
that restores the header, if the scripts of the headers come back when they stand alone. -/
theorem MapFile.compileText_text_decoded {data : Bytes} {file : MapFile} {symbols : Symbols}
    {name : Option String} {ids : List Int} {lenient : Bool} {text : String}
    (decoded : decode data = .ok file) (distinct : symbols.attributes.Nodup)
    (named : ∀ word ∈ symbols.attributes, IsAttributeName word)
    (letters : ∀ given ∈ name, ∀ c ∈ given.toList, Text.isNameChar c = true)
    (written : (file.text symbols name ids lenient).outcome.1 = .ok text)
    (alone : ∀ header ∈ file.headers, header.ComesBack symbols lenient) :
    ∃ restored, compileText symbols (file.headers.map fun header => some header.locals)
        text.toList = .ok restored ∧ restored.length = file.headers.length ∧
      ∀ pair ∈ file.headers.zip restored, pair.2.Restores pair.1 := by
  obtain ⟨front, isFront, gives⟩ := file.gives_text symbols letters ids lenient
  rw [gives.outcome] at written
  obtain ⟨parts, listed, same⟩ := bind_eq_ok.mp written
  cases same
  obtain ⟨texts, scripts, gathered, reads, restores⟩ := Header.exists_scripts distinct named
    (decode_eq_ok_iff.mp decoded).2.stored listed alone
  have sifted : siftText symbols ("\n\n".intercalate parts).toList = some texts :=
    (siftText_intercalate_of siftText_gap parts).trans gathered
  obtain ⟨above, skipped, whole⟩ : ∃ above : List (List Char),
      (∀ text ∈ above, isPreamble text = true) ∧
      siftText symbols (front ++ "\n\n".intercalate parts).toList = some (above ++ texts) := by
    rw [String.toList_append]
    rcases isFront with rfl | ⟨name, ids, letters, rfl⟩
    · exact ⟨[], fun _ none => absurd none List.not_mem_nil, sifted⟩
    · obtain ⟨above, skipped, passed⟩ := @siftText_preamble symbols _ letters ids
        ("\n\n".intercalate parts).toList
      exact ⟨above, skipped, by rw [passed, sifted]; rfl⟩
  obtain ⟨read, parsed, alike⟩ := (Script.agree_parse_bare whole).symm.exists_ok
    (reads.preambles skipped _ (Nat.le_refl _))
  obtain ⟨restored, compiled, length, restoredAll⟩ := restores read alike.symm
  exact ⟨restored, bind_eq_ok.mpr ⟨read, parsed, compiled⟩, length, restoredAll⟩

/-! ### A sample -/

/-- The block of a header whose name is one letter, with one byte of code, and this number of
variables from the start of the pool on. -/
def wardBlock (letter held : UInt8) : Bytes :=
  [0, 0, 0, 0, letter] ++ List.replicate 72 0 ++ [1, 0, 0, 0] ++ List.replicate 36 0 ++
    [held, 0, 0, 0] ++ List.replicate 44 0

/-- The bytes of a map of two headers, of which the first has six variables. -/
def wardData : Bytes :=
  headersTag ++ [0, 0, 1, 82, 2, 0, 0, 0, 0, 0, 0, 0] ++ wardBlock 0x41 6 ++ wardBlock 0x42 0 ++
    variablesTag ++ [0, 0, 0, 24, 1, 0, 0, 0, 2, 0, 0, 0, 3, 0, 0, 0, 0xFC, 0xFF, 0xFF, 0xFF,
      5, 0, 0, 0, 6, 0, 0, 0] ++
    codeTag ++ [0, 0, 0, 2, 0x12, 0x12] ++ attributesTag ++ [0, 0, 2, 0, 0, 0xFE] ++
    List.replicate 254 0 ++ [1] ++ List.replicate 255 0 ++ endTag

def wardFile : MapFile := reached (MapFile.decode wardData) ⟨[], [], []⟩

/-- Symbols that name two attributes and nothing else. -/
def wardSymbols : Symbols where
  functions := []
  flags := []
  references := []
  attributes := ["side", "rank"]
  items := []
  maps := .empty
  subtitles := .empty
  parameterKinds := .empty

def wardText : String :=
  "Maps\\WARD.RGM\nIDs: 3, 4\n\nvar2 = 3\nvar3 = -4\n\nrank = -2\n\nA\n\x7b\n  Return\n\x7d\n\n" ++
    "side = 1\n\nB\n\x7b\n  Return\n\x7d"

/-- A test whether the script of a header comes back. -/
def Header.testBack (symbols : Symbols) (lenient : Bool) (header : Header) : Bool :=
  (header.program.text symbols lenient).outcome.1.toOption.any fun text =>
    (compileText symbols [some header.locals] text.toList).toOption.any fun scripts =>
      scripts.length == 1 && scripts.all fun compiled => decide (compiled.name = header.name ∧
        compiled.code = header.code ∧ compiled.entry = header.field .entry ∧
        compiled.strings = header.strings)

theorem Header.comesBack_of_testBack {header : Header} {symbols : Symbols} {lenient : Bool}
    (passes : header.testBack symbols lenient = true) : header.ComesBack symbols lenient := by
  obtain ⟨text, written, passes⟩ := exists_ok_of_any passes
  obtain ⟨scripts, recompiled, checked⟩ := exists_ok_of_any passes
  obtain ⟨alone, checked⟩ := Bool.and_eq_true_iff.mp checked
  obtain ⟨compiled, rfl⟩ := List.length_eq_one_iff.mp (beq_iff_eq.mp alone)
  obtain ⟨name, code, entry, strings⟩ :=
    of_decide_eq_true (List.all_eq_true.mp checked compiled List.mem_cons_self)
  exact ⟨text, compiled, written, recompiled, name, code, entry, strings⟩

/-- Both headers are restored from the text of the map. -/
theorem MapFile.compileText_text_ward :
    (wardFile.text wardSymbols (some "WARD") [3, 4] false).outcome.1 = .ok wardText ∧
      wardFile.headers.map Header.name = ["A", "B"] ∧
      ∃ restored, compileText wardSymbols (wardFile.headers.map fun header => some header.locals)
          wardText.toList = .ok restored ∧ restored.length = wardFile.headers.length ∧
        ∀ pair ∈ wardFile.headers.zip restored, pair.2.Restores pair.1 := by
  have written : (wardFile.text wardSymbols (some "WARD") [3, 4] false).outcome.1 = .ok wardText := by
    obtain ⟨text, written, same⟩ := @exists_ok_of_any String
      (wardFile.text wardSymbols (some "WARD") [3, 4] false).outcome.1 (· == wardText)
      (by decide +kernel)
    rw [written, beq_iff_eq.mp same]
  have apart : ∀ word ∈ wardSymbols.attributes, IsAttributeName word := by
    intro word member
    have each : ∀ word ∈ wardSymbols.attributes, word ≠ "" ∧
        word.toList.all Text.isWordChar = true ∧ word.toList.head? ≠ some 'v' := by decide +kernel
    obtain ⟨filled, letters, start⟩ := each word member
    exact ⟨filled, List.all_eq_true.mp letters, fun digits _ _ same => start (by rw [same]; rfl)⟩
  refine ⟨written, by decide +kernel, ?_⟩
  refine compileText_text_decoded (eq_ok_reached (by decide +kernel)) (by decide) apart ?_ written ?_
  · intro given there
    cases Option.mem_some.mp there
    exact forall_mem_of_all (by decide)
  · have tested : wardFile.headers.all (Header.testBack wardSymbols false) = true := by
      decide +kernel
    exact fun header member =>
      Header.comesBack_of_testBack (List.all_eq_true.mp tested header member)

end MapScript
