/-
Registries: tables from keys to values that remember the order in which keys
first came in. A second entry for a key replaces the value and keeps the place.
-/

namespace MapScript

/-! ### Entries -/

/-- Enters a value in a list of entries: in the place of the key's entry if there
is one, else at the end. -/
def putEntry {κ α : Type} [DecidableEq κ] (key : κ) (value : α) : List (κ × α) → List (κ × α)
  | [] => [(key, value)]
  | entry :: rest =>
    if entry.1 = key then (key, value) :: rest else entry :: putEntry key value rest

theorem mem_keys_putEntry {κ α : Type} [DecidableEq κ] (key : κ) (value : α)
    (entries : List (κ × α)) (other : κ) :
    other ∈ (putEntry key value entries).map Prod.fst ↔
      other = key ∨ other ∈ entries.map Prod.fst := by
  induction entries with
  | nil => simp [putEntry]
  | cons entry rest inductionHypothesis =>
    unfold putEntry
    split
    · rename_i same
      subst same
      simp
    · simp only [List.map_cons, List.mem_cons, inductionHypothesis]
      constructor <;> rintro (h | h | h) <;> simp [h]

theorem nodup_keys_putEntry {κ α : Type} [DecidableEq κ] (key : κ) (value : α)
    (entries : List (κ × α)) (distinct : (entries.map Prod.fst).Nodup) :
    ((putEntry key value entries).map Prod.fst).Nodup := by
  induction entries with
  | nil => simp [putEntry]
  | cons entry rest inductionHypothesis =>
    have parts := List.nodup_cons.mp distinct
    unfold putEntry
    split
    · rename_i same
      subst same
      exact distinct
    · rename_i differ
      refine List.nodup_cons.mpr ⟨?_, inductionHypothesis parts.2⟩
      intro member
      rcases (mem_keys_putEntry key value rest entry.1).mp member with equal | inRest
      · exact differ equal
      · exact parts.1 inRest

theorem lookup_putEntry_self {κ α : Type} [DecidableEq κ] (key : κ) (value : α)
    (entries : List (κ × α)) : (putEntry key value entries).lookup key = some value := by
  induction entries with
  | nil => simp [putEntry]
  | cons entry rest inductionHypothesis =>
    unfold putEntry
    split
    · simp
    · rename_i differ
      have apart : (key == entry.1) = false := by simpa using Ne.symm differ
      rw [List.lookup_cons, apart]
      exact inductionHypothesis

theorem lookup_putEntry_other {κ α : Type} [DecidableEq κ] {key other : κ}
    (different : other ≠ key) (value : α) (entries : List (κ × α)) :
    (putEntry key value entries).lookup other = entries.lookup other := by
  have apart : (other == key) = false := by simpa using different
  induction entries with
  | nil => rw [putEntry, List.lookup_cons, apart]
  | cons entry rest inductionHypothesis =>
    unfold putEntry
    split
    · rename_i same
      rw [List.lookup_cons, List.lookup_cons, same, apart]
    · rw [List.lookup_cons, List.lookup_cons, inductionHypothesis]

theorem putEntry_of_lookup {κ α : Type} [DecidableEq κ] {key : κ} {entries : List (κ × α)}
    (absent : entries.lookup key = none) (value : α) :
    putEntry key value entries = entries ++ [(key, value)] := by
  induction entries with
  | nil => rfl
  | cons entry rest inductionHypothesis =>
    have absent := List.lookup_eq_none_iff.mp absent
    have other : entry.1 ≠ key := fun same => by
      simpa [same] using absent entry List.mem_cons_self
    rw [putEntry, if_neg other, inductionHypothesis]
    · rfl
    · exact List.lookup_eq_none_iff.mpr fun pair member =>
        absent pair (List.mem_cons_of_mem _ member)

/-! ### Registries -/

/-- A table from keys to values in the order of first entry. -/
structure Registry (κ α : Type) where
  entries : List (κ × α)
  distinct : (entries.map Prod.fst).Nodup

namespace Registry

variable {κ α : Type}

/-- The registry without entries. -/
def empty : Registry κ α := ⟨[], List.nodup_nil⟩

instance : Inhabited (Registry κ α) := ⟨empty⟩

instance [DecidableEq κ] [DecidableEq α] : DecidableEq (Registry κ α) := fun first second =>
  decidable_of_iff (first.entries = second.entries) (by cases first; cases second; simp)

variable [DecidableEq κ]

/-- Enters a value under a key. -/
def put (registry : Registry κ α) (key : κ) (value : α) : Registry κ α :=
  ⟨putEntry key value registry.entries,
    nodup_keys_putEntry key value registry.entries registry.distinct⟩

/-- The registry that results from entering the pairs of a list in order. -/
def ofList (pairs : List (κ × α)) : Registry κ α :=
  pairs.foldl (fun registry pair => registry.put pair.1 pair.2) empty

/-- The value entered under a key. -/
def find? (registry : Registry κ α) (key : κ) : Option α :=
  registry.entries.lookup key

/-- Whether a key has an entry. -/
def has (registry : Registry κ α) (key : κ) : Bool :=
  (registry.find? key).isSome

/-- The number of entries. -/
def size (registry : Registry κ α) : Nat :=
  registry.entries.length

/-- Whether there is no entry. -/
def isEmpty (registry : Registry κ α) : Bool :=
  registry.entries.isEmpty

/-- A key that was just entered is found. -/
theorem find?_put_self (registry : Registry κ α) (key : κ) (value : α) :
    (registry.put key value).find? key = some value :=
  lookup_putEntry_self key value registry.entries

/-- Other keys do not notice. -/
theorem find?_put_other (registry : Registry κ α) {key other : κ} (different : other ≠ key)
    (value : α) : (registry.put key value).find? other = registry.find? other :=
  lookup_putEntry_other different value registry.entries

/-- A new key is entered at the end. -/
theorem entries_put_of_has {registry : Registry κ α} {key : κ}
    (fresh : registry.has key = false) (value : α) :
    (registry.put key value).entries = registry.entries ++ [(key, value)] := by
  refine putEntry_of_lookup ?_ value
  simpa [has, find?] using fresh

theorem mem_entries_of_find? {registry : Registry κ α} {key : κ} {value : α}
    (found : registry.find? key = some value) : (key, value) ∈ registry.entries := by
  obtain ⟨front, back, split, -⟩ := List.lookup_eq_some_iff.mp found
  rw [split]
  exact List.mem_append_right front List.mem_cons_self

theorem notMem_of_find? {registry : Registry κ α} {key : κ} (absent : registry.find? key = none)
    (value : α) : (key, value) ∉ registry.entries := by
  intro member
  simpa using List.lookup_eq_none_iff.mp absent _ member

end Registry

end MapScript
