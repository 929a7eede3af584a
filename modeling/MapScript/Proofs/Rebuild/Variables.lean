/-
This file says when the variables of a rebuilt map survive being written and read
again. A header with variables and no instance is given a place in the pool but no
copy there, so reading runs past the end of the pool or finds the variables of the
next header. Variables survive exactly if each header finds its own values at its
place; an instance for every header that has variables is enough.
-/

import MapScript.Proofs.Rebuild.Reload

namespace MapScript

namespace MapFile

section Rebuilt

variable {file rebuilt : MapFile} {compiled : List Compiled} {state : Rebuild}

/-- The part of a map for a tag that it has a record for. -/
theorem payload?_of_complete {records : List Record}
    (complete : ∀ tag ∈ partTags, ∃ record ∈ records, record.tag = tag) {tag : Bytes}
    (member : tag ∈ partTags) : ∃ payload, Record.payload? records tag = some payload := by
  obtain ⟨record, inside, same⟩ := complete tag member
  refine Option.ne_none_iff_exists'.mp fun missing => ?_
  have absent := List.find?_eq_none.mp (Option.map_eq_none_iff.mp missing) record inside
  exact absent (by simpa using same)

theorem keepsParts_of_complete
    (complete : ∀ tag ∈ partTags, ∃ record ∈ file.records, record.tag = tag) :
    file.KeepsParts compiled := by
  have present {tag : Bytes} (member : tag ∈ partTags) :
      Record.payload? file.records tag ≠ none :=
    Option.ne_none_iff_exists'.mpr (payload?_of_complete complete member)
  exact ⟨fun missing => absurd missing (present (by simp [partTags])),
    fun missing => absurd missing (present (by simp [partTags])),
    fun missing => absurd missing (present (by simp [partTags]))⟩

/-- A map that had a variable pool has the one that was built. -/
theorem RebuiltBy.pools_locals (built : RebuiltBy file rebuilt compiled state)
    (complete : ∀ tag ∈ partTags, ∃ record ∈ file.records, record.tag = tag) :
    (Pools.ofRecords rebuilt.records).locals =
      (state.pools (codeBase file.headers)).locals := by
  have member : variablesTag ∈ partTags := by simp [partTags]
  obtain ⟨old, found⟩ := payload?_of_complete complete member
  have kept : keptPayload file.records variablesTag state.locals = some state.locals := by
    rw [keptPayload, found]
    rfl
  rw [built.pools, kept]
  rfl

/-- A header that has been read again with the block and the variables of a rebuilt one. -/
theorem exists_same_block (decoded : file.Decoded)
    (built : RebuiltBy file rebuilt compiled state) {reloaded : MapFile}
    (records : reloaded.records = rebuilt.records) (reread : reloaded.Decoded)
    (same : reloaded.headers.map Header.locals = rebuilt.headers.map Header.locals)
    {header : Header} (member : header ∈ rebuilt.headers) :
    ∃ other ∈ reloaded.headers, other.raw = header.raw ∧ other.locals = header.locals := by
  have lengths : state.headers.length = file.headers.length := by
    have counted := congrArg List.length (map_locals_rebuilt decoded built)
    rwa [List.length_map, List.length_map, List.length_zip, built.lengths, Nat.min_self,
      built.headers] at counted
  have raws := raws_of_reload decoded built lengths records reread
  have views : reloaded.headers.map (fun header => (header.raw, header.locals)) =
      rebuilt.headers.map fun header => (header.raw, header.locals) := by
    rw [← List.zip_map', ← List.zip_map', raws, same]
  have view : (header.raw, header.locals) ∈
      reloaded.headers.map fun header => (header.raw, header.locals) := by
    rw [views]
    exact List.mem_map.mpr ⟨header, member, rfl⟩
  obtain ⟨other, inside, equal⟩ := List.mem_map.mp view
  exact ⟨other, inside, congrArg Prod.fst equal, congrArg Prod.snd equal⟩

/-- If the variables of a rebuilt map come back, they were held. -/
theorem held_of_reload (decoded : file.Decoded) (built : RebuiltBy file rebuilt compiled state)
    (complete : ∀ tag ∈ partTags, ∃ record ∈ file.records, record.tag = tag) {bytes : Bytes}
    (written : rebuilt.encode = .ok bytes) {reloaded : MapFile}
    (reload : decode bytes = .ok reloaded)
    (same : reloaded.headers.map Header.locals = rebuilt.headers.map Header.locals) :
    Rebuild.Held (file.headers.zip compiled) := by
  obtain ⟨read, reread⟩ := decode_eq_ok_iff.mp reload
  have records : reloaded.records = rebuilt.records := by
    have again := Record.readAll_of_writeAll (tagged_of_rebuilt decoded built) written
    rw [read] at again
    exact congrArg Prod.fst (Except.ok.inj again)
  refine (readable_iff_held decoded built).mp fun header member => ?_
  obtain ⟨other, inside, block, locals⟩ :=
    exists_same_block decoded built records reread same member
  obtain ⟨place, cursor, stored⟩ := reread.stored.exists_stored inside
  have found := stored.locals
  rw [records, locals, Header.variablesIn_congr block] at found
  rw [← found, Header.variablesIn, Header.variablesIn, built.pools_locals complete]

end Rebuilt

/-- Whether the variables of a rebuilt map survive being written and read again, for a map
that had all the parts that depend on scripts. The rebuilt map has the variables of its
source with the changes of the scripts; if they are held, it is read back as it is, and
else reading fails or finds other variables. They are held if every header that has
variables has an instance. -/
theorem locals_survive_iff_held {data bytes : Bytes} {file rebuilt : MapFile}
    {compiled : List Compiled} (decoded : decode data = .ok file)
    (complete : ∀ tag ∈ partTags, ∃ record ∈ file.records, record.tag = tag)
    (noNul : ∀ script ∈ compiled, ∀ text ∈ script.strings, Char.ofNat 0 ∉ text.toList)
    (built : file.withCompiled compiled = .ok rebuilt) (written : rebuilt.encode = .ok bytes) :
    rebuilt.headers.map Header.locals =
        (file.headers.zip compiled).map (fun pair => pair.2.localsOver pair.1.locals) ∧
      (Rebuild.Held (file.headers.zip compiled) → decode bytes = .ok rebuilt) ∧
      (¬Rebuild.Held (file.headers.zip compiled) → ∀ reloaded, decode bytes = .ok reloaded →
        reloaded.headers.map Header.locals ≠ rebuilt.headers.map Header.locals) ∧
      ((∀ header ∈ file.headers, header.locals ≠ [] → 1 ≤ header.field .instances) →
        Rebuild.Held (file.headers.zip compiled)) := by
  obtain ⟨-, sound⟩ := decode_eq_ok_iff.mp decoded
  obtain ⟨state, builtBy⟩ := withCompiled_eq_ok built
  refine ⟨map_locals_rebuilt sound builtBy, fun held => ?_, fun lost reloaded reload same => ?_,
    fun instances => ?_⟩
  · exact decode_of_held sound builtBy
      (fun pair paired => noNul pair.2 (List.of_mem_zip paired).2) held
      (keepsParts_of_complete complete) written
  · exact lost (held_of_reload sound builtBy complete written reload same)
  · exact Rebuild.held_of_instances fun pair paired =>
      instances pair.1 (List.of_mem_zip paired).1

/-- The bytes of a map with all parts and these header blocks, whose variable pool holds
the number 7. -/
def poolData (blocks : List Bytes) : Bytes :=
  headersTag ++ Bytes.ofNatBig 4 (headerTableStart + blocks.length * headerSize) ++
    Bytes.ofNatLittle 4 blocks.length ++ [0, 0, 0, 0] ++ blocks.flatten ++
    stringsTag ++ [0, 0, 0, 0] ++ offsetsTag ++ [0, 0, 0, 0] ++
    variablesTag ++ [0, 0, 0, 8, 0, 0, 0, 0, 7, 0, 0, 0] ++
    codeTag ++ [0, 0, 0, 4, 0, 0, 0x12, 0x12] ++ attributesTag ++ [0, 0, 2, 0] ++
    List.replicate (2 * attributeBlockSize) 0 ++ endTag

/-- A map of two headers with one variable each, of which the first has no instance. -/
def idleFile : MapFile :=
  reached (decode (poolData [gateBlock 0 0 1 1, gateBlock 1 0 1 1])) ⟨[], [], []⟩

/-- Scripts that set the two variables. -/
def idleScripts (first second : Int) : List Compiled :=
  [gateScript [] (Registry.empty.put 0 first), gateScript [] (Registry.empty.put 0 second)]

def idleRebuilt (first second : Int) : MapFile :=
  reached (idleFile.withCompiled (idleScripts first second)) ⟨[], [], []⟩

/-- The first header has its value only if the second one has the same. -/
theorem locals_survive_idle :
    decode (reached (idleRebuilt 3 3).encode []) = .ok (idleRebuilt 3 3) ∧
      ∀ reloaded, decode (reached (idleRebuilt 3 4).encode []) = .ok reloaded →
        reloaded.headers.map Header.locals ≠ [[3], [4]] := by
  have decoded : decode (poolData [gateBlock 0 0 1 1, gateBlock 1 0 1 1]) = .ok idleFile :=
    eq_ok_reached (by decide +kernel)
  have complete : ∀ tag ∈ partTags, ∃ record ∈ idleFile.records, record.tag = tag := by
    decide +kernel
  have noNul (first second : Int) : ∀ script ∈ idleScripts first second,
      ∀ text ∈ script.strings, Char.ofNat 0 ∉ text.toList := by
    simp [idleScripts, gateScript]
  have sameBuilt : idleFile.withCompiled (idleScripts 3 3) = .ok (idleRebuilt 3 3) :=
    eq_ok_reached (by decide +kernel)
  have otherBuilt : idleFile.withCompiled (idleScripts 3 4) = .ok (idleRebuilt 3 4) :=
    eq_ok_reached (by decide +kernel)
  constructor
  · exact (locals_survive_iff_held decoded complete (noNul 3 3) sameBuilt
      (eq_ok_reached (by decide +kernel))).2.1 (by decide +kernel)
  · intro reloaded reload
    have changed : (idleRebuilt 3 4).headers.map Header.locals = [[3], [4]] := by decide +kernel
    rw [← changed]
    exact (locals_survive_iff_held decoded complete (noNul 3 4) otherBuilt
      (eq_ok_reached (by decide +kernel))).2.2.1 (by decide +kernel) reloaded reload

/-- A map of one header with one variable and no instance. -/
def loneFile : MapFile := reached (decode (poolData [gateBlock 0 0 1 1])) ⟨[], [], []⟩

def loneRebuilt : MapFile :=
  reached (loneFile.withCompiled [gateScript [] .empty]) ⟨[], [], []⟩

/-- Variables can be lost: a header without instances is accepted, rebuilt and written, and
the bytes cannot be read. -/
theorem locals_lost_lone :
    decode (poolData [gateBlock 0 0 1 1]) = .ok loneFile ∧
      (∀ tag ∈ partTags, ∃ record ∈ loneFile.records, record.tag = tag) ∧
      (∀ text ∈ (gateScript [] .empty).strings, Char.ofNat 0 ∉ text.toList) ∧
      loneFile.withCompiled [gateScript [] .empty] = .ok loneRebuilt ∧
      loneRebuilt.headers.map Header.locals = [[7]] ∧
      ∃ bytes, loneRebuilt.encode = .ok bytes ∧ (decode bytes).toOption = none := by
  refine ⟨eq_ok_reached (by decide +kernel), by decide +kernel, by decide,
    eq_ok_reached (by decide +kernel), by decide +kernel, reached loneRebuilt.encode [], eq_ok_reached (by decide +kernel),
    by decide +kernel⟩

end MapFile

end MapScript
