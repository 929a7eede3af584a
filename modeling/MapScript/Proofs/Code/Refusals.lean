/-
This file says what the encoding of values fails for. Some causes mean that a term stands
where no text puts one: what is assigned to is no target, a flag or a variable stands where
a value ends, or a chain is meant as a term. Encoding fails for these only if its terms are
like that, and it never blames a line itself; that is left to the block in which the
statement stands.
-/

import MapScript.Proofs.Attempt
import MapScript.Proofs.Script.Written

namespace MapScript

/-- Whether a cause means that a term or statement stands where no text puts one. -/
def Cause.isInternal : Cause → Bool
  | .script (.cannotEncode _) | .script (.cannotAssign _) | .script (.flagAlone _)
  | .script (.variableAlone _) => true
  | _ => false

/-- A fault that no line is blamed for yet, and that is internal only if what was encoded is
not fit to be. -/
structure Fault.Open (fit : Prop) (fault : Fault) : Prop where
  unlocated : fault.origin = none
  outward : fit → fault.cause.isInternal = false

/-- Work fails with such faults only, whatever state it starts in. -/
def Refuses {α σ : Type} (fit : Prop) (work : StateT σ (Except Fault) α) : Prop :=
  ∀ (state : σ) (fault : Fault), work.run state = .error fault → fault.Open fit

namespace Refuses

variable {α β σ : Type} {fit other : Prop}

theorem imp {work : StateT σ (Except Fault) α} (refuses : Refuses fit work)
    (fitting : other → fit) : Refuses other work := by
  intro state fault failed
  obtain ⟨unlocated, outward⟩ := refuses state fault failed
  exact ⟨unlocated, fun holds => outward (fitting holds)⟩

theorem pure (value : α) : Refuses fit (pure value : StateT σ (Except Fault) α) := by
  intro state fault failed
  cases failed

theorem bind {work : StateT σ (Except Fault) α} {next : α → StateT σ (Except Fault) β}
    (first : Refuses fit work) (rest : ∀ value, Refuses fit (next value)) :
    Refuses fit (work >>= next) := by
  intro state fault failed
  rcases run_bind_eq_error.mp failed with failed | ⟨value, middle, -, failed⟩
  · exact first state fault failed
  · exact rest value middle fault failed

theorem throw {cause : Cause} (outward : fit → cause.isInternal = false) :
    Refuses fit (throw (.of cause) : StateT σ (Except Fault) α) := by
  intro state fault failed
  cases failed
  exact ⟨rfl, outward⟩

/-- An attempt that uses no state. -/
theorem lift {attempt : Except Fault α}
    (fails : ∀ fault, attempt = .error fault → fault.Open fit) :
    Refuses fit (liftM attempt : StateT σ (Except Fault) α) := by
  intro state fault failed
  cases attempt with
  | ok value => cases failed
  | error fault =>
    cases failed
    exact fails _ rfl

theorem resolve {kind : NameKind} {name : String} {found : Option α} :
    Refuses fit (liftM (Symbols.resolve kind name found) : StateT σ (Except Fault) α) := by
  refine lift fun fault failed => ?_
  cases found with
  | none =>
    cases failed
    exact ⟨rfl, fun _ => rfl⟩
  | some value => cases failed

theorem function {symbols : Symbols} {id : Nat} :
    Refuses fit (liftM (symbols.function id) : StateT σ (Except Fault) GameFunction) := by
  refine lift fun fault failed => ?_
  unfold Symbols.function at failed
  split at failed
  · cases failed
  · cases failed
    exact ⟨rfl, fun _ => rfl⟩

theorem packNumber (width value : Nat) :
    Refuses fit (liftM (MapScript.packNumber width value) : StateT σ (Except Fault) Bytes) := by
  refine lift fun fault failed => ?_
  rw [packNumber_eq] at failed
  split at failed
  · cases failed
  · cases failed
    exact ⟨rfl, fun _ => rfl⟩

theorem ite {condition : Prop} [Decidable condition] {one two : StateT σ (Except Fault) α}
    (yes : condition → Refuses fit one) (no : ¬condition → Refuses fit two) :
    Refuses fit (if condition then one else two) := by
  split
  · exact yes ‹_›
  · exact no ‹_›

end Refuses

namespace Encoder

variable {around : Surroundings} {fit : Prop}

/-! ### Numbers and objects -/

theorem refuses_reject {α : Type} {fault : ScriptFault}
    (outward : fit → (Cause.script fault).isInternal = false) :
    Refuses fit (reject fault : Encoder α) :=
  .throw outward

theorem refuses_byte (value : Int) : Refuses fit (byte value) :=
  .ite (fun _ => .pure _) fun _ => refuses_reject fun _ => rfl

theorem refuses_word (value : Nat) : Refuses fit (word value) :=
  .packNumber 2 value

theorem refuses_stringNumber (text : String) : Refuses fit (stringNumber text) := by
  intro state fault failed
  cases failed

theorem refuses_objectByValue (name : String) : Refuses fit (objectByValue around name) := by
  unfold objectByValue
  split
  · exact .throw fun _ => rfl
  · split
    · exact .throw fun _ => rfl
    · exact .bind (refuses_byte _) fun _ => .pure _

theorem refuses_objectByVariable (name : String) (digits : List Char) :
    Refuses fit (objectByVariable around name digits) := by
  unfold objectByVariable
  split
  · exact .throw fun _ => rfl
  · exact .ite (fun _ => .throw fun _ => rfl) fun _ => .bind (refuses_byte _) fun _ => .pure _

theorem refuses_objectName (name : String) : Refuses fit (objectName around name) := by
  unfold objectName
  split
  · exact .pure _
  · refine .ite (fun _ => refuses_objectByValue name) fun _ => ?_
    split
    · exact refuses_objectByVariable name _
    · exact .bind (refuses_stringNumber name) fun _ => .bind (refuses_byte _) fun _ => .pure _

theorem refuses_reference (name : String) : Refuses fit (reference around name) :=
  .bind .resolve fun _ => refuses_word _

/-! ### Terms -/

theorem refuses_textLiteral (position : Position) (slot : Option Slot) (text : String) :
    Refuses fit (textLiteral around position slot text) := by
  refine .ite (fun _ => ?_) fun _ => .bind (refuses_stringNumber text) fun _ => .pure _
  unfold dialogueLabel
  split
  · exact .throw fun _ => rfl
  · refine .ite (fun _ => ?_) fun _ => refuses_reject fun _ => rfl
    intro state fault failed
    cases failed

/-- What can be assigned to is encoded as a target. -/
theorem refuses_target (value : Term) :
    Refuses (Reader.isTarget value = true) (target around value) := by
  cases value with
  | flag name => exact .bind .resolve fun _ => .bind (refuses_word _) fun _ => .pure _
  | localVariable index => exact .bind (refuses_byte index) fun _ => .pure _
  | property object name =>
    exact .bind (refuses_objectName object) fun _ => .bind (refuses_reference name) fun _ => .pure _
  | _ => exact refuses_reject nofun

theorem refuses_callWith (name : String) (multitask withOpcode : Bool) (count : Nat)
    {arguments : Encoder Bytes} (inside : Refuses fit arguments) :
    Refuses fit (callWith around name multitask withOpcode count arguments) := by
  refine .bind .resolve fun id => .bind .function fun function => ?_
  refine .bind (refuses_word id) fun number => .ite (fun _ => ?_) fun _ => ?_
  · exact .ite (fun _ => .pure _) fun _ => refuses_reject fun _ => rfl
  · exact .bind (refuses_byte _) fun _ => .bind inside fun _ => .pure _

/-- Whether a term may be the whole of what stands in a place: a flag or a variable is so only
as an argument or inside a formula. -/
def Seated (position : Position) : Term → Prop
  | .flag _ | .localVariable _ => position = .parameter ∨ position = .formula
  | _ => True

theorem seated_formula (value : Term) : Seated .formula value := by
  cases value with
  | flag => exact .inr rfl
  | localVariable => exact .inr rfl
  | _ => trivial

theorem seated_parameter (value : Term) : Seated .parameter value := by
  cases value with
  | flag => exact .inl rfl
  | localVariable => exact .inl rfl
  | _ => trivial

theorem refuses_padded {position : Position} {size : Nat} {alone : ScriptFault} {encoded : Bytes}
    (seated : fit → position = .parameter ∨ position = .formula) :
    Refuses fit (padded position size alone encoded) := by
  unfold padded
  split
  · exact .pure _
  · exact .pure _
  · rename_i noParameter noFormula
    exact refuses_reject fun holds => absurd (seated holds) (not_or.mpr ⟨noParameter, noFormula⟩)

mutual

/-- Terms that can be written are encoded where they may stand. -/
theorem refuses_term (value : Term) (position : Position) (slot : Option Slot) :
    Refuses (value.Each (Term.Anywhere Term.Written) position slot ∧ Seated position value)
      (term around value position slot) := by
  cases value with
  | call name arguments multitask =>
    exact refuses_callWith name multitask true _
      ((refuses_terms name 0 arguments).imp fun both => both.1.2)
  | flag name =>
    exact .bind ((refuses_target _).imp fun _ => rfl) fun _ => refuses_padded And.right
  | localVariable index =>
    exact .bind ((refuses_target _).imp fun _ => rfl) fun _ => refuses_padded And.right
  | number value => exact .pure _
  | text text => exact refuses_textLiteral position slot text
  | property object name => exact (refuses_target (.property object name)).imp fun _ => rfl
  | objectCall object name arguments multitask =>
    refine .bind .resolve fun id => .bind .function fun function => ?_
    refine .bind (refuses_objectName object) fun _ => .ite (fun _ => ?_) fun _ => ?_
    · exact refuses_reject fun _ => rfl
    · refine .bind (refuses_callWith name multitask _ _ ?_) fun _ => .pure _
      exact (refuses_terms name 0 arguments).imp fun both => both.1.2
  | chain head operators operands step => exact refuses_reject fun both => both.1.elim

theorem refuses_terms (function : String) (index : Nat) (list : List Term) :
    Refuses (Term.EachArgument (Term.Anywhere Term.Written) function index list)
      (terms around function index list) := by
  cases list with
  | nil => exact .pure _
  | cons first rest =>
    refine .bind ((refuses_term first .parameter _).imp fun both => ?_) fun _ => ?_
    · exact ⟨both.1, seated_parameter first⟩
    · exact .bind ((refuses_terms function (index + 1) rest).imp And.right) fun _ => .pure _

end

/-! ### Formulas -/

theorem refuses_operations (pairs : List (Operator × Term)) :
    Refuses (∀ pair ∈ pairs, pair.2.Each (Term.Anywhere Term.Written) .formula none)
      (operations around pairs) := by
  induction pairs with
  | nil => exact .pure _
  | cons pair rest inductionHypothesis =>
    refine .bind ((refuses_term pair.2 .formula none).imp fun each => ?_) fun _ => ?_
    · exact ⟨each pair List.mem_cons_self, seated_formula pair.2⟩
    · refine .bind (inductionHypothesis.imp fun each pair member => ?_) fun _ => .pure _
      exact each pair (List.mem_cons_of_mem _ member)

theorem refuses_formulaTail (written : Formula) :
    Refuses (∀ operand ∈ written.operands, operand.Each (Term.Anywhere Term.Written) .formula none)
      (formulaTail around written) := by
  refine .bind ((refuses_operations _).imp fun each pair member => ?_) fun _ => .pure _
  exact each pair.2 (List.of_mem_zip member).2

theorem refuses_formula (written : Formula) :
    Refuses (written.Each (Term.Anywhere Term.Written) .formula none)
      (formula around written) := by
  refine .bind ((refuses_term _ _ _).imp fun each => ?_) fun _ => ?_
  · exact ⟨each.1, seated_formula _⟩
  · exact .bind ((refuses_formulaTail written).imp And.right) fun _ => .pure _

/-! ### Conditions -/

/-- A flag or a variable on a side of a comparison is followed by operators, so that any term
may stand there. -/
theorem refuses_side (position : Position) (slot : Option Slot) (written : Formula) :
    Refuses (written.Each (Term.Anywhere Term.Written) position slot)
      (side around position slot written) := by
  refine .ite (fun carries => ?_) fun carriesNone => .ite (fun _ => ?_) fun _ => ?_
  · refine .bind ((refuses_target _).imp fun _ => ?_) fun _ => ?_
    · cases head : written.head with
      | flag => rfl
      | localVariable => rfl
      | property => rfl
      | _ =>
        rw [head] at carries
        cases carries
    · exact .bind ((refuses_formulaTail written).imp And.right) fun _ => .pure _
  · exact refuses_reject fun _ => rfl
  · refine (refuses_term _ position slot).imp fun each => ⟨each.1, ?_⟩
    cases head : written.head with
    | flag => exact absurd (by rw [head]; rfl) carriesNone
    | localVariable => exact absurd (by rw [head]; rfl) carriesNone
    | _ => trivial

theorem refuses_clause (written : Clause) :
    Refuses (written.Each (Term.Anywhere Term.Written)) (clause around written) :=
  .bind ((refuses_side _ _ _).imp And.left) fun _ =>
    .bind ((refuses_side _ _ _).imp And.right) fun _ => .pure _

theorem refuses_clauses (list : List Clause) :
    Refuses (∀ clause ∈ list, clause.Each (Term.Anywhere Term.Written))
      (clauses around list) := by
  induction list with
  | nil => exact .pure _
  | cons first rest inductionHypothesis =>
    refine .bind ((refuses_clause first).imp fun each => each first List.mem_cons_self) fun _ => ?_
    refine .bind (inductionHypothesis.imp fun each clause member => ?_) fun _ => .pure _
    exact each clause (List.mem_cons_of_mem _ member)

end Encoder

/-! ### Statements -/

/-- A statement that is fit to be encoded: it has the form of one that comes out of text, and so
have its terms. -/
def Statement.Fit (statement : Statement) : Prop :=
  statement.Shaped ∧ statement.EachTerm (Term.Anywhere Term.Written)

namespace Assembler

variable {around : Surroundings} {fit : Prop}

theorem refuses_encode {encoder : Encoder Bytes} (refuses : Refuses fit encoder) :
    Refuses fit (encode encoder) := by
  intro assembly fault failed
  have failed : encode encoder assembly = .error fault := failed
  unfold encode at failed
  split at failed
  · cases failed
  · rename_i other refused
    cases failed
    exact refuses _ _ refused

theorem refuses_define (label : Int) (address : Nat) : Refuses fit (define label address) := by
  refine .bind (fun assembly fault failed => nomatch failed) fun assembly => ?_
  refine .ite (fun _ => .throw fun _ => rfl) fun _ => ?_
  exact fun assembly fault failed => nomatch failed

/-- A statement on its own, without its block. -/
theorem refuses_bodiless (written : Statement) (offset : Nat) :
    Refuses written.Fit (statement around offset (written.withBody .nil)) := by
  cases written with
  | label label => exact .bind (refuses_define label offset) fun _ => .pure _
  | expression value =>
    refine refuses_encode ((Encoder.refuses_term value .statement none).imp fun fit => ⟨fit.2, ?_⟩)
    cases value with
    | flag => cases fit.1
    | localVariable => cases fit.1
    | _ => trivial
  | assign target formula =>
    refine refuses_encode (.bind ((Encoder.refuses_target target).imp And.left) fun _ => ?_)
    exact .bind ((Encoder.refuses_formula formula).imp fun fit => fit.2.2) fun _ => .pure _
  | objectStep object reference step =>
    refine refuses_encode (.bind (Encoder.refuses_objectName object) fun _ => ?_)
    exact .bind (Encoder.refuses_reference reference) fun _ => .pure _
  | branch clauses body =>
    refine .bind (refuses_encode ((Encoder.refuses_clauses clauses).imp And.right)) fun _ => ?_
    exact .bind (.pure _) fun _ => .bind (.packNumber _ _) fun _ => .pure _
  | returnGuard value body =>
    exact .bind (refuses_encode (Encoder.refuses_byte value)) fun _ => .bind (.pure _) fun _ =>
      .pure _
  | jump kind goal => cases goal <;> exact .pure _
  | word kind => exact .pure _
  | anchor value => exact .bind (refuses_encode (Encoder.refuses_byte value)) fun _ => .pure _
  | taskPause label => exact .pure _
  | bare => exact .throw fun fit => fit.1.elim

end Assembler

end MapScript
