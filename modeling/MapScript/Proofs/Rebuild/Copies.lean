/-
This file follows the variable pool of a rebuild. A header enters its variables once
for each of its instances and keeps the place where its first copy starts; reading
takes as many values from that place on as the header has variables. A header without
instances enters nothing, so that what is read for it are the copies of the headers
behind it. Its variables are held exactly if they are the beginning of those.
-/

import MapScript.Proofs.Rebuild.Parts

namespace MapScript

/-! ### Changed variables -/

/-- The variables of a header with the changes that a script makes. -/
def Compiled.localsOver (compiled : Compiled) (locals : List Int) : List Int :=
  locals.mapIdx fun place value => (compiled.locals.find? place).getD value

namespace Rebuild

/-- Setting variables one after the other changes each to the value entered for it. -/
theorem setVariables_eq {header : String} {changes : List (Int × Int)} {locals changed : List Int}
    (distinct : (changes.map Prod.fst).Nodup)
    (set : changes.foldlM (setVariable header) locals = .ok changed) :
    changed = locals.mapIdx fun place value => (changes.lookup (place : Int)).getD value := by
  induction changes generalizing locals with
  | nil =>
    cases set
    apply List.ext_getElem?
    intro place
    rw [List.getElem?_mapIdx]
    cases changed[place]? <;> rfl
  | cons change rest inductionHypothesis =>
    obtain ⟨next, step, run⟩ := bind_eq_ok.mp set
    rw [List.map_cons, List.nodup_cons] at distinct
    rw [inductionHypothesis distinct.2 run]
    unfold setVariable at step
    split at step
    · rename_i inside
      cases step
      have fresh : rest.lookup change.1 = none := by
        refine List.lookup_eq_none_iff.mpr fun pair member => ?_
        have apart : change.1 ≠ pair.1 := fun same =>
          distinct.1 (same ▸ List.mem_map.mpr ⟨pair, member, rfl⟩)
        simpa using apart
      apply List.ext_getElem?
      intro place
      rw [List.getElem?_mapIdx, List.getElem?_mapIdx, List.getElem?_set, List.lookup_cons]
      by_cases here : change.1.toNat = place
      · have same : (place : Int) = change.1 := by omega
        have short : change.1.toNat < locals.length := by omega
        rw [if_pos here, if_pos short, same, fresh, beq_self_eq_true,
          List.getElem?_eq_getElem (here ▸ short)]
        rfl
      · have other : ((place : Int) == change.1) = false := by
          rw [beq_eq_false_iff_ne]
          omega
        rw [if_neg here, other]
    · cases step

theorem Added.locals_eq {base : Nat} {state next filled : Rebuild} {old new : Header}
    {compiled : Compiled} {block : Bytes}
    (added : Added base state next old new compiled filled block) :
    new.locals = compiled.localsOver old.locals :=
  setVariables_eq compiled.locals.distinct added.changed

/-! ### Copies -/

/-- The variables that a run enters into the pool: those of each header, once for each
of its instances. -/
def copies (pairs : List (Header × Compiled)) : List Int :=
  pairs.flatMap fun pair =>
    (List.replicate (pair.1.field .instances) (pair.2.localsOver pair.1.locals)).flatten

/-- The variables of every header are those that the pool holds from its first copy
on. -/
def Held : List (Header × Compiled) → Prop
  | [] => True
  | pair :: rest => pair.2.localsOver pair.1.locals <+: copies (pair :: rest) ∧ Held rest

instance decidableHeld : DecidablePred Held
  | [] => isTrue trivial
  | pair :: rest =>
    have := decidableHeld rest
    inferInstanceAs (Decidable (pair.2.localsOver pair.1.locals <+: copies (pair :: rest) ∧ Held rest))

theorem copies_cons (pair : Header × Compiled) (rest : List (Header × Compiled)) :
    copies (pair :: rest) =
      (List.replicate (pair.1.field .instances) (pair.2.localsOver pair.1.locals)).flatten ++
        copies rest :=
  List.flatMap_cons

/-- Where every header with variables has an instance, all variables are held. -/
theorem held_of_instances {pairs : List (Header × Compiled)}
    (instances : ∀ pair ∈ pairs, pair.1.locals ≠ [] → 0 < pair.1.field .instances) :
    Held pairs := by
  induction pairs with
  | nil => trivial
  | cons pair rest inductionHypothesis =>
    refine ⟨?_, inductionHypothesis fun other member =>
      instances other (List.mem_cons_of_mem _ member)⟩
    by_cases none : pair.1.locals = []
    · rw [none]
      exact List.nil_prefix
    · have some := instances pair List.mem_cons_self none
      obtain ⟨fewer, many⟩ := Nat.exists_eq_succ_of_ne_zero (Nat.pos_iff_ne_zero.mp some)
      rw [copies_cons, many, List.replicate_succ, List.flatten_cons, List.append_assoc]
      exact List.prefix_append _ _

section Step

variable {base : Nat} {state next final filled : Rebuild} {old new : Header}
  {compiled : Compiled} {block : Bytes}

theorem Added.signedWords_block (added : Added base state next old new compiled filled block) :
    signedWords block = (List.replicate (old.field .instances) new.locals).flatten := by
  by_cases none : new.locals = []
  · rw [added.noVariables none, none, List.flatten_replicate_nil]
    rfl
  · exact (packVariables_eq_ok (added.packed none)).2

/-- What is read for an added header is what the pool holds behind the parts that were
there before it. -/
theorem Added.variablesIn_iff (added : Added base state next old new compiled filled block)
    (counted : old.locals.length = old.field .variableCount)
    (whole : ∃ words, state.locals.length = 4 * words) {behind : List Int}
    (pool : signedWords final.locals = signedWords state.locals ++ behind) :
    new.variablesIn (final.pools base) = .ok new.locals ↔ new.locals <+: behind := by
  have count : new.field .variableCount = new.locals.length := by
    rw [added.carries.variableCount, ← counted, added.carries.locals]
  have poolLocals : (final.pools base).locals = signedWords state.locals ++ behind := pool
  unfold Header.variablesIn
  simp only [count, poolLocals]
  by_cases none : new.locals = []
  · rw [none]
    simp
  · have some : new.locals.length ≠ 0 := fun zero => none (List.eq_nil_of_length_eq_zero zero)
    have start : new.field .variableOffset / 4 = (signedWords state.locals).length := by
      obtain ⟨words, whole⟩ := whole
      rw [added.variableOffset none, whole, length_signedWords words whole]
      omega
    rw [if_neg some, start, List.drop_left, List.length_append, List.prefix_iff_eq_take]
    split
    · rename_i short
      constructor
      · intro read
        cases read
      · intro taken
        have lengths := congrArg List.length taken
        rw [List.length_take] at lengths
        omega
    · constructor
      · intro read
        exact (Except.ok.inj read).symm
      · intro taken
        rw [← taken]

end Step

/-! ### A whole run -/

/-- The pool of a run holds the copies of its headers one after the other. -/
theorem run_locals {base : Nat} {pairs : List (Header × Compiled)} {state final : Rebuild}
    (whole : ∃ words, state.locals.length = 4 * words)
    (run : pairs.foldlM (add base) state = .ok final) :
    signedWords final.locals = signedWords state.locals ++ copies pairs := by
  induction pairs generalizing state with
  | nil =>
    cases run
    exact (List.append_nil _).symm
  | cons pair rest inductionHypothesis =>
    rw [List.foldlM_cons] at run
    obtain ⟨next, step, run⟩ := bind_eq_ok.mp run
    obtain ⟨new, filled, block, added⟩ := add_eq_ok step
    have nextLocals : next.locals = state.locals ++ block := by rw [added.next_eq]
    rw [inductionHypothesis (added.whole_locals whole) run, nextLocals]
    obtain ⟨words, whole⟩ := whole
    rw [signedWords_append words whole, added.signedWords_block, added.locals_eq, copies_cons,
      List.append_assoc]

/-- A run gives every header its changed variables, and they can be read from the pool of
the run exactly if they are held. -/
theorem run_held {base : Nat} {pairs : List (Header × Compiled)} {state final : Rebuild}
    (whole : ∃ words, state.locals.length = 4 * words)
    (counted : ∀ pair ∈ pairs, pair.1.locals.length = pair.1.field .variableCount)
    (run : pairs.foldlM (add base) state = .ok final) :
    ∃ new, final.headers = state.headers ++ new ∧
      new.map Header.locals = pairs.map (fun pair => pair.2.localsOver pair.1.locals) ∧
      ((∀ header ∈ new, header.variablesIn (final.pools base) = .ok header.locals) ↔
        Held pairs) := by
  induction pairs generalizing state with
  | nil =>
    cases run
    exact ⟨[], (List.append_nil _).symm, rfl, by simp [Held]⟩
  | cons pair rest inductionHypothesis =>
    have pool := run_locals whole run
    rw [List.foldlM_cons] at run
    obtain ⟨next, step, run⟩ := bind_eq_ok.mp run
    obtain ⟨new, filled, block, added⟩ := add_eq_ok step
    have first := added.variablesIn_iff (counted pair List.mem_cons_self) whole pool
    obtain ⟨others, headers, changed, held⟩ := inductionHypothesis (added.whole_locals whole)
      (fun other member => counted other (List.mem_cons_of_mem _ member)) run
    refine ⟨new :: others, ?_, ?_, ?_⟩
    · rw [headers, added.next_eq, List.append_assoc, List.singleton_append]
    · rw [List.map_cons, List.map_cons, changed, added.locals_eq]
    · rw [List.forall_mem_cons, first, held, added.locals_eq]
      rfl

end Rebuild

end MapScript
