/-
This file proves that the symbol tables are looked up in two ways that fit together. A number
leads to the entry that it counts to, and a name to the least number of an entry that carries it,
in tables that count their entries and in the table of maps, whose numbers are keys that came in
in any order. A number is therefore found again from its name unless a smaller one has taken
the name before it.
-/

import Mathlib.Data.List.Sort
import Mathlib.Order.Bounds.Defs
import MapScript.Proofs.Listing.Values

namespace MapScript

/-! ### The least number with a name -/

/-- How names and numbers are looked up in tables: entries are named, and a name leads to the
least number of an entry that carries it. -/
structure LeastWins (kind : NameKind) (named : Int → String → Prop)
    (idOf : String → Except Fault Int) : Prop where
  /-- A name is found exactly if an entry carries it. -/
  found_iff : ∀ name, (∃ id, idOf name = .ok id) ↔ ∃ id, named id name
  /-- A name that no entry carries is reported. -/
  refused : ∀ name, (∀ id, ¬named id name) → idOf name = fail (.unknownName kind name)
  /-- The number of a name is the least whose entry carries the name. -/
  least : ∀ name id, idOf name = .ok id → IsLeast {other | named other name} id
  /-- The name of an entry leads back to its number or to a smaller one, and to the number itself
  exactly if no smaller number has the name. -/
  back : ∀ id name, named id name → ∃ first, idOf name = .ok first ∧ first ≤ id ∧
    (first = id ↔ ∀ smaller < id, ¬named smaller name)

/-- A search that gives the least number whenever there is one. -/
theorem LeastWins.of_search {kind : NameKind} {named : Int → String → Prop}
    {search : String → Option Int}
    (hit : ∀ name id, search name = some id → IsLeast {other | named other name} id)
    (miss : ∀ name, search name = none → ∀ id, ¬named id name) :
    LeastWins kind named fun name => Symbols.resolve kind name (search name) := by
  have leads (name : String) (id : Int) :
      Symbols.resolve kind name (search name) = .ok id ↔ search name = some id := by
    cases search name with
    | none => exact ⟨fun none => absurd none fail_ne_ok, fun none => by cases none⟩
    | some first => exact ⟨fun same => by cases same; rfl, fun same => by cases same; rfl⟩
  have reached (name : String) (id : Int) (has : named id name) :
      ∃ first, search name = some first := by
    cases none : search name with
    | none => exact absurd has (miss name none id)
    | some first => exact ⟨first, rfl⟩
  refine ⟨fun name => ⟨?_, ?_⟩, fun name absent => ?_, fun name id same => ?_,
    fun id name has => ?_⟩
  · rintro ⟨id, same⟩
    exact ⟨id, (hit name id ((leads name id).mp same)).1⟩
  · rintro ⟨id, has⟩
    obtain ⟨first, same⟩ := reached name id has
    exact ⟨first, (leads name first).mpr same⟩
  · cases same : search name with
    | none => rfl
    | some id => exact absurd (hit name id same).1 (absent id)
  · exact hit name id ((leads name id).mp same)
  · obtain ⟨first, same⟩ := reached name id has
    obtain ⟨firstHas, below⟩ := hit name first same
    refine ⟨first, (leads name first).mpr same, below has, ?_⟩
    constructor
    · rintro rfl smaller before smallerHas
      exact absurd (below smallerHas) (Int.not_le.mpr before)
    · intro fresh
      exact Int.le_antisymm (below has) (Int.not_lt.mp fun before => fresh first before firstHas)

/-! ### Tables that count their entries -/

theorem entryAt_map {α β : Type} (change : α → β) (table : List α) (place : Int) :
    entryAt (table.map change) place = (entryAt table place).map change := by
  unfold entryAt
  split
  · exact List.getElem?_map
  · rfl

/-- An entry at a place: the place is not negative and inside the table. -/
theorem exists_of_entryAt {α : Type} {table : List α} {id : Int} {entry : α}
    (found : entryAt table id = some entry) : ∃ place : Nat, id = place ∧
      table[place]? = some entry := by
  unfold entryAt at found
  split at found
  · rename_i positive
    exact ⟨id.toNat, (Int.toNat_of_nonneg positive).symm, found⟩
  · cases found

/-- The first place of an entry is the least number that leads to it. -/
theorem isLeast_of_idxOf? {α : Type} [BEq α] [LawfulBEq α] {table : List α} {entry : α}
    {place : Nat} (found : table.idxOf? entry = some place) :
    IsLeast {id | entryAt table id = some entry} (place : Int) := by
  obtain ⟨inside, same, fresh⟩ := List.idxOf?_eq_some_iff.mp found
  have here : table[place]? = some entry := by
    rw [List.getElem?_eq_getElem inside, same]
  refine ⟨Symbols.entryAt_of_getElem? here, fun id has => ?_⟩
  obtain ⟨other, rfl, there⟩ := exists_of_entryAt has
  refine Int.ofNat_le.mpr (Nat.le_of_not_lt fun before => ?_)
  rw [List.getElem?_eq_getElem (Nat.lt_trans before inside)] at there
  exact fresh other before (Option.some.inj there)

/-- A table whose entries are what names stand for. -/
theorem LeastWins.of_table {α : Type} [BEq α] [LawfulBEq α] {kind : NameKind}
    {named : Int → String → Prop} (table : List α) (entryOf : String → α)
    (entries : ∀ id name, named id name ↔ entryAt table id = some (entryOf name)) :
    LeastWins kind named fun name =>
      (Symbols.resolve kind name (table.idxOf? (entryOf name))).map Int.ofNat := by
  have hit (name : String) (id : Int)
      (found : (table.idxOf? (entryOf name)).map Int.ofNat = some id) :
      IsLeast {other | named other name} id := by
    obtain ⟨place, there, rfl⟩ := Option.map_eq_some_iff.mp found
    simp only [entries]
    exact isLeast_of_idxOf? there
  have miss (name : String) (none : (table.idxOf? (entryOf name)).map Int.ofNat = none) (id : Int) :
      ¬named id name := by
    rw [Option.map_eq_none_iff, List.idxOf?_eq_none_iff] at none
    intro has
    obtain ⟨place, -, there⟩ := exists_of_entryAt ((entries id name).mp has)
    exact none (List.mem_of_getElem? there)
  have same (name : String) :
      Symbols.resolve kind name ((table.idxOf? (entryOf name)).map Int.ofNat) =
        (Symbols.resolve kind name (table.idxOf? (entryOf name))).map Int.ofNat := by
    cases table.idxOf? (entryOf name) <;> rfl
  simp only [← same]
  exact .of_search hit miss

/-- A look-up by number that gives the entry or a fault. -/
theorem entry_eq_ok {α : Type} {found : Option α} {cause : Cause} {look : Except Fault α}
    (hit : ∀ entry, found = some entry → look = .ok entry) (miss : found = none → look = fail cause)
    {entry : α} : look = .ok entry ↔ found = some entry := by
  cases same : found with
  | none =>
    rw [miss same]
    exact ⟨fun none => absurd none fail_ne_ok, fun none => by cases none⟩
  | some first =>
    rw [hit first same, Except.ok.injEq, Option.some.injEq]

/-- A table whose entries hold their names among other things. -/
theorem LeastWins.of_entries {α : Type} {kind : NameKind} {entry : Int → Except Fault α}
    {table : List α} (nameOf : α → String)
    (entries : ∀ id found, entry id = .ok found ↔ entryAt table id = some found) :
    LeastWins kind (fun id name => ∃ found, entry id = .ok found ∧ nameOf found = name) fun name =>
      (Symbols.resolve kind name ((table.map nameOf).idxOf? name)).map Int.ofNat := by
  refine .of_table (table.map nameOf) id fun place name => ?_
  rw [entryAt_map, Option.map_eq_some_iff]
  simp only [entries]
  rfl

/-! ### Maps -/

/-- Each key has one entry, so that every entry is found under its key. -/
theorem Registry.find?_eq_some_iff {κ α : Type} [DecidableEq κ] {registry : Registry κ α} {key : κ}
    {value : α} : registry.find? key = some value ↔ (key, value) ∈ registry.entries := by
  refine ⟨mem_entries_of_find?, fun member => ?_⟩
  obtain ⟨front, back, split⟩ := List.append_of_mem member
  refine List.lookup_eq_some_iff.mpr ⟨front, back, split, fun entry before => ?_⟩
  have distinct := registry.distinct
  rw [split, List.map_append, List.map_cons, List.nodup_append] at distinct
  have apart := distinct.2.2 entry.1 (List.mem_map_of_mem before) key List.mem_cons_self
  exact bne_iff_ne.mpr (Ne.symm apart)

namespace Symbols

variable (symbols : Symbols) (name : String)

theorem mem_mapIds {id : Int} : id ∈ symbols.mapIds name ↔ symbols.mapName? id = some name := by
  unfold mapIds mapName?
  rw [List.mem_mergeSort, List.mem_map, Registry.find?_eq_some_iff]
  constructor
  · rintro ⟨⟨key, value⟩, member, rfl⟩
    obtain ⟨inside, same⟩ := List.mem_filter.mp member
    cases beq_iff_eq.mp same
    exact inside
  · exact fun inside => ⟨(id, name), List.mem_filter.mpr ⟨inside, beq_self_eq_true name⟩, rfl⟩

/-- The numbers of a map are different keys, put in order. -/
theorem mapIds_ascending : (symbols.mapIds name).Pairwise (· < ·) := by
  have distinct : (symbols.mapIds name).Nodup :=
    (List.mergeSort_perm _ _).nodup_iff.mpr
      (symbols.maps.distinct.sublist (List.filter_sublist.map Prod.fst))
  have ordered : (symbols.mapIds name).Pairwise (· ≤ ·) := List.pairwise_mergeSort' _ _
  exact (ordered.and distinct).imp fun both => lt_of_le_of_ne both.1 both.2

/-- The numbers of a map do not depend on the order in which the table was filled. -/
theorem mapIds_congr {one other : Symbols} (same : ∀ id, one.mapName? id = other.mapName? id) :
    one.mapIds name = other.mapIds name := by
  refine (one.mapIds_ascending name).eq_of_mem_iff (other.mapIds_ascending name) fun id => ?_
  rw [mem_mapIds, mem_mapIds, same]

theorem isLeast_of_mapId? {id : Int} (found : symbols.mapId? name = some id) :
    IsLeast {other | symbols.mapName? other = some name} id := by
  obtain ⟨rest, listed⟩ := List.head?_eq_some_iff.mp found
  have ascending := symbols.mapIds_ascending name
  rw [listed, List.pairwise_cons] at ascending
  have listed_iff (other : Int) :
      symbols.mapName? other = some name ↔ other = id ∨ other ∈ rest := by
    rw [← mem_mapIds, listed, List.mem_cons]
  refine ⟨(listed_iff id).mpr (.inl rfl), fun other has => ?_⟩
  rcases (listed_iff other).mp has with rfl | behind
  · exact le_refl _
  · exact le_of_lt (ascending.1 other behind)

theorem leastWins_map :
    LeastWins .map (fun id name => symbols.mapName? id = some name) symbols.mapId := by
  refine .of_search (fun name _ => symbols.isLeast_of_mapId? name) fun name none id has => ?_
  have empty := List.head?_eq_none_iff.mp none
  have member := (symbols.mem_mapIds name).mpr has
  rw [empty] at member
  exact List.not_mem_nil member

/-! ### All tables -/

/-- In all tables a name leads to the least number of an entry that carries it. The numbers of a
map are all listed, in ascending order, and which order they came in means nothing. -/
theorem lookups_leastWins :
    LeastWins .function
      (fun id name => ∃ function, symbols.function id = .ok function ∧ function.name = name)
      (fun name => (symbols.functionId name).map Int.ofNat) ∧
    LeastWins .flag (fun id name => ∃ flag, symbols.flag id = .ok flag ∧ flag.name = name)
      (fun name => (symbols.flagId name).map Int.ofNat) ∧
    LeastWins .reference (fun id name => symbols.reference id = .ok name)
      (fun name => (symbols.referenceId name).map Int.ofNat) ∧
    LeastWins .attributeName (fun id name => symbols.attributeName id = .ok name)
      (fun name => (symbols.attributeId name).map Int.ofNat) ∧
    LeastWins .item (fun id name => symbols.itemName? id = some name)
      (fun name => (symbols.itemId name).map Int.ofNat) ∧
    LeastWins .map (fun id name => symbols.mapName? id = some name) symbols.mapId ∧
    (∀ name, (symbols.mapIds name).Pairwise (· < ·) ∧
      (∀ id, id ∈ symbols.mapIds name ↔ symbols.mapName? id = some name) ∧
      ∀ filled : symbols.mapIds name ≠ [],
        symbols.mapId name = .ok ((symbols.mapIds name).head filled)) ∧
    (∀ other : Symbols, (∀ id, other.mapName? id = symbols.mapName? id) →
      ∀ name, other.mapIds name = symbols.mapIds name) := by
  have items : LeastWins .item (fun id name => symbols.itemName? id = some name)
      (fun name => (symbols.itemId name).map Int.ofNat) := by
    refine .of_table symbols.items some fun id name => ?_
    exact Option.join_eq_some_iff
  refine ⟨.of_entries GameFunction.name fun id _ =>
      entry_eq_ok (fun _ hit => by rw [function, hit]) fun miss => by rw [function, miss],
    .of_entries GameFlag.name fun id _ =>
      entry_eq_ok (fun _ hit => by rw [flag, hit]) fun miss => by rw [flag, miss],
    .of_table symbols.references id fun place _ =>
      entry_eq_ok (fun _ hit => by rw [reference, hit]) fun miss => by rw [reference, miss],
    .of_table symbols.attributes id fun place _ =>
      entry_eq_ok (fun _ hit => by rw [attributeName, hit]) fun miss => by rw [attributeName, miss],
    items, symbols.leastWins_map,
    fun name => ⟨symbols.mapIds_ascending name, fun _ => symbols.mem_mapIds name, fun filled => ?_⟩,
    fun other same name => mapIds_congr name same⟩
  rw [mapId, mapId?, List.head?_eq_some_head filled]
  rfl

end Symbols

/-- Items with a missing and a repeated name, and maps that come in in some order. -/
def quaySymbols (maps : List (Int × String)) : Symbols where
  functions := [.null]
  flags := []
  references := []
  attributes := []
  items := [none, some "ROPE", some "ROPE"]
  maps := .ofList maps
  subtitles := .empty
  parameterKinds := .empty

theorem Symbols.lookups_leastWins_quay :
    (∃ first, ((quaySymbols [(7, "PIER"), (-3, "PIER")]).itemId "ROPE").map Int.ofNat = .ok first ∧
      first ≤ 2 ∧ (first = 2 ↔ ∀ smaller < 2,
        (quaySymbols [(7, "PIER"), (-3, "PIER")]).itemName? smaller ≠ some "ROPE")) ∧
    (∃ filled, (quaySymbols [(7, "PIER"), (-3, "PIER")]).mapId "PIER" =
      .ok (((quaySymbols [(7, "PIER"), (-3, "PIER")]).mapIds "PIER").head filled)) ∧
    (quaySymbols [(-3, "PIER"), (7, "PIER")]).mapIds "PIER" =
      (quaySymbols [(7, "PIER"), (-3, "PIER")]).mapIds "PIER" := by
  obtain ⟨-, -, -, -, items, -, listed, ordered⟩ :=
    (quaySymbols [(7, "PIER"), (-3, "PIER")]).lookups_leastWins
  have filled : (quaySymbols [(7, "PIER"), (-3, "PIER")]).mapIds "PIER" ≠ [] :=
    List.ne_nil_of_mem (((listed "PIER").2.1 7).mpr (by decide))
  have same (id : Int) : (quaySymbols [(-3, "PIER"), (7, "PIER")]).mapName? id =
      (quaySymbols [(7, "PIER"), (-3, "PIER")]).mapName? id := by
    by_cases seven : id = 7
    · subst seven
      decide
    · by_cases below : id = -3
      · subst below
        decide
      · show ((Registry.empty.put (-3) "PIER").put 7 "PIER").find? id =
          ((Registry.empty.put 7 "PIER").put (-3) "PIER").find? id
        rw [Registry.find?_put_other _ seven, Registry.find?_put_other _ below,
          Registry.find?_put_other _ below, Registry.find?_put_other _ seven]
  exact ⟨items.back 2 "ROPE" (by decide), ⟨filled, (listed "PIER").2.2 filled⟩,
    ordered _ same "PIER"⟩

end MapScript
