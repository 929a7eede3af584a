/-
This file continues with formulas and conditions, which are read by loops: operators
with their terms up to a byte that closes the formula, and clauses up to the one that
no word joins to another. A loop is given as many rounds as there are bytes left, which
is always enough because every round takes at least one.
-/

import MapScript.Proofs.Listing.Values
import MapScript.Proofs.Script.Shapes

namespace MapScript

/-! ### Loops -/

namespace Decoder.Reads

variable {step : Decoder Bool} {front back bytes : Bytes} {first second excerpt : Excerpt}

theorem repeatWhile_last (last : Reads step bytes false excerpt) (bound : Nat) :
    Reads (repeatWhile bound step) bytes () excerpt := by
  cases bound with
  | zero => exact last.discard
  | succ bound =>
    exact last.bind (Reads.pure ()) (List.append_nil _) (Excerpt.append_plain_empty _)

theorem repeatWhile_more {bound : Nat} (more : Reads step front true first)
    (rest : Reads (repeatWhile bound step) back () second) :
    Reads (repeatWhile (bound + 1) step) (front ++ back) () (first ++ second) :=
  more.bind rest rfl rfl

end Decoder.Reads

namespace Encoder

open Decoder (Reads)

variable {reading : Reading} {pool next : StringPool} {bytes : Bytes}

/-! ### Formulas -/

theorem operator_ofCode?_code (operator : Operator) :
    Operator.ofCode? operator.code = some operator := by
  cases operator <;> decide

theorem reads_operator (reading : Reading) (operator : Operator) :
    Reads (Decoder.operator reading) [operator.code] true
      (.plain (" " ++ operator.text ++ " ")) := by
  refine Reads.position_bind fun offset => ?_
  refine Reads.silent_bind (Reads.byte reading operator.code) ?_ rfl
  simp only [operator_ofCode?_code]
  exact Reads.emit_bind (Reads.pure true) (Excerpt.append_plain_empty _)

theorem reads_closingStep (reading : Reading) (step : Step) :
    Reads (Decoder.operator reading) [step.code, 0] false (.plain step.text) := by
  refine Reads.position_bind fun offset => ?_
  refine Reads.silent_bind (Reads.byte reading step.code) ?_ rfl
  have noOperator : Operator.ofCode? step.code = none := by cases step <;> decide
  have isStep : Step.ofCode? step.code = some step := by cases step <;> decide
  simp only [noOperator, isStep]
  refine Reads.emit_bind ?_ (Excerpt.append_plain_empty _)
  exact Reads.silent_bind (Reads.byte reading 0).discard (Reads.pure false) rfl

theorem reads_closingZero (reading : Reading) :
    Reads (Decoder.operator reading) [0] false (.plain "") := by
  refine Reads.position_bind fun offset => ?_
  refine Reads.silent_bind (Reads.byte reading 0) ?_ rfl
  exact Reads.pure false

/-- Operators with their terms, up to what closes the formula. -/
theorem laid_operations (list : List (Operator × Term)) {pool next : StringPool} {bytes : Bytes}
    (encoded : (operations reading.around list).run pool = .ok (bytes, next)) :
    Laid reading pool next bytes (operationsSize reading.symbols list)
      (∀ inner bound, bytes.length ≤ inner → bytes.length ≤ bound →
        ∀ {closing : Bytes} {excerpt : Excerpt},
          Reads (Decoder.operator reading) closing false excerpt →
          Reads (Decoder.operators reading bound
            (discard (Decoder.value reading inner .formula none))) (bytes ++ closing) ()
            (operationsExcerpt reading list ++ excerpt)) := by
  induction list generalizing pool bytes with
  | nil =>
    cases encoded
    refine Laid.of_reads rfl fun inner bound _ _ closing excerpt closes => ?_
    rw [operationsExcerpt, Excerpt.plain_empty_append]
    refine Reads.repeatWhile_last ?_ bound
    exact closes.bind (Reads.pure false) (List.append_nil _) (Excerpt.append_plain_empty _)
  | cons pair rest inductionHypothesis =>
    obtain ⟨operator, operand⟩ := pair
    obtain ⟨front, middle, back, operandOk, restOk, rfl⟩ := operations_cons_eq_ok encoded
    have operandLaid := laid_term operand (fun _ _ _ => by decide) operandOk
    have restLaid := inductionHypothesis restOk
    refine ⟨operandLaid.grows.trans restLaid.grows, ?_, ?_⟩
    · rw [List.cons_append, List.length_cons, List.length_append, operandLaid.size_eq,
        restLaid.size_eq, operationsSize]
      omega
    · intro kept inner bound enough rounds closing excerpt closes
      simp only [List.cons_append, List.length_cons, List.length_append] at enough rounds
      obtain ⟨fewer, rfl⟩ : ∃ fewer, bound = fewer + 1 := ⟨bound - 1, by omega⟩
      have operandReads := operandLaid.reads_of_kept (restLaid.grows.trans kept) inner (by omega)
      have restReads := restLaid.reads_of_kept kept inner fewer (by omega) (by omega) closes
      have round : Reads (do
          if ← Decoder.operator reading then
            discard (Decoder.value reading inner .formula none)
            pure true
          else pure false) (operator.code :: front) true
          (.plain (" " ++ operator.text ++ " ") ++ operand.excerpt reading .formula none) := by
        refine Reads.bind (reads_operator reading operator) ?_ rfl rfl
        exact operandReads.discard.bind (Reads.pure true) (List.append_nil _)
          (Excerpt.append_plain_empty _)
      rw [operationsExcerpt, List.cons_append, List.cons_append, List.append_assoc,
        ← List.cons_append, Excerpt.append_assoc, Excerpt.append_assoc, ← Excerpt.append_assoc]
      exact Reads.repeatWhile_more round restReads

theorem laid_formulaTail (formula : Formula)
    (encoded : (formulaTail reading.around formula).run pool = .ok (bytes, next)) :
    Laid reading pool next bytes (formula.tailSize reading.symbols)
      (∀ bound, bytes.length ≤ bound →
        Reads (Decoder.operators reading bound
          (discard (Decoder.value reading bound .formula none))) bytes ()
          (formula.tailExcerpt reading)) := by
  obtain ⟨pairs, pairsOk, rfl⟩ := formulaTail_eq_ok encoded
  have laid := laid_operations _ pairsOk
  unfold Formula.tailSize Formula.tailExcerpt
  refine ⟨laid.grows, ?_, fun kept bound enough => ?_⟩
  · rw [List.length_append, laid.size_eq]
    cases formula.step <;> rfl
  · rw [List.length_append] at enough
    refine laid.reads_of_kept kept bound bound (by omega) (by omega) ?_
    cases formula.step with
    | none => exact reads_closingZero reading
    | some step => exact reads_closingStep reading step

/-- A formula behind what it is assigned to. -/
theorem laid_formula (value : Formula)
    (encoded : (formula reading.around value).run pool = .ok (bytes, next)) :
    Laid reading pool next bytes (value.codeSize reading.symbols)
      (∀ bound, bytes.length ≤ bound →
        Reads (Decoder.formula reading bound
          (discard (Decoder.value reading bound .formula none))) bytes ()
          (.plain " = " ++ value.excerpt reading .formula none)) := by
  obtain ⟨front, middle, back, headOk, tailOk, rfl⟩ := formula_eq_ok encoded
  have headLaid := laid_term value.head (fun _ _ _ => by decide) headOk
  have tailLaid := laid_formulaTail value tailOk
  refine headLaid.append tailLaid ?_
  intro headReads tailReads bound enough
  rw [List.length_append] at enough
  refine Reads.emit_bind ?_ rfl
  exact Reads.bind (headReads bound (by omega)).discard (tailReads bound (by omega)) rfl rfl

/-! ### Sides of comparisons -/

/-- What a target adds to a line after all else: a flag that is assigned to leaves its
comment. -/
def targetClosing (reading : Reading) (position : Position) (value : Term) : Excerpt :=
  if position = .statement then ⟨"", reading.targetComment? value⟩ else .plain ""

theorem reads_flagClosing {name : String} {flag : GameFlag} {id : Nat}
    (known : reading.symbols.flagId? name = some id)
    (found : reading.symbols.flag (id : Int) = .ok flag) (position : Position) :
    Reads (if position = .statement then
        match flag.comment with
        | some text => Decoder.comment text
        | none => pure ()
      else pure ()) [] () (targetClosing reading position (.flag name)) := by
  unfold targetClosing
  by_cases statement : position = .statement
  · rw [if_pos statement, if_pos statement]
    have there : reading.symbols.flags[id]? = some flag := by
      unfold Symbols.flag entryAt at found
      rw [if_pos (Int.natCast_nonneg id), Int.toNat_natCast] at found
      split at found
      · rename_i entry entryFound
        cases found
        exact entryFound
      · cases found
    have comment : reading.targetComment? (.flag name) = flag.comment := by
      rw [Reading.targetComment?, known, Option.bind_some, there, Option.bind_some]
    rw [comment]
    cases flag.comment with
    | none => exact Reads.pure ()
    | some text => exact Reads.comment text
  · rw [if_neg statement, if_neg statement]
    exact Reads.pure ()

/-- A flag, a variable or a property with what follows it. -/
theorem laid_target (value : Term)
    (encoded : (target reading.around value).run pool = .ok (bytes, next)) :
    Laid reading pool next bytes (value.codeSize reading.symbols .left)
      (∀ (slot : Option Slot) {bound : Nat} {position : Position} {after : Bytes}
        {excerpt : Excerpt}, (bytes ++ after).length ≤ bound →
        (position = .statement ∨ carriesOperators position value = true) →
        (∀ fewer size, after.length ≤ fewer →
          Reads (Decoder.continuation reading fewer (Decoder.value reading fewer) position size)
            after () excerpt) →
        Reads (Decoder.value reading bound position slot) (bytes ++ after) none
          (value.excerpt reading position slot ++
            (excerpt ++ targetClosing reading position value))) := by
  cases target_eq_ok encoded with
  | flag number flag length known found =>
    refine Laid.of_reads (congrArg (· + 1) length) ?_
    intro slot bound position after excerpt enough _ continues
    rw [List.cons_append] at enough ⊢
    refine reads_value enough fun fewer inside => ?_
    rw [List.length_append] at inside
    refine Reads.bind (reads_flag length found (continues fewer 2 (by omega))
      (reads_flagClosing known found position)) (Reads.pure none) (List.append_nil _) ?_
    exact Excerpt.append_plain_empty _
  | localVariable index range =>
    refine Laid.of_reads rfl ?_
    intro slot bound position after excerpt enough _ continues
    rw [List.cons_append] at enough ⊢
    refine reads_value enough fun fewer inside => ?_
    have closing : targetClosing reading position (.localVariable index) = .plain "" := by
      unfold targetClosing
      split <;> rfl
    rw [closing, Excerpt.append_plain_empty]
    refine Reads.bind (reads_localVariable range (continues fewer 3 ?_)) (Reads.pure none)
      (List.append_nil _) (Excerpt.append_plain_empty _)
    exact Nat.le_of_succ_le inside
  | property object name selected number _ objectOk nameOk =>
    have laid := laid_objectReference objectOk nameOk
    refine ⟨laid.grows, congrArg (· + 1) laid.size_eq, fun kept => ?_⟩
    intro slot bound position after excerpt enough placed continues
    rw [List.cons_append] at enough ⊢
    refine reads_value enough fun fewer inside => ?_
    rw [List.length_append] at inside
    have closing : targetClosing reading position (.property object name) = .plain "" := by
      unfold targetClosing
      split <;> rfl
    have here : position = .statement ∨ position = .left := by
      simpa [carriesOperators] using placed
    have continuing : Reads (if position = .statement ∨ position = .left then
        Decoder.continuation reading fewer (Decoder.value reading fewer) position 0 else pure ())
        after () excerpt := by
      rw [if_pos here]
      exact continues fewer 0 (by omega)
    rw [closing, Excerpt.append_plain_empty]
    refine Reads.bind (laid.reads_of_kept kept continuing) (Reads.pure none) (List.append_nil _) ?_
    rw [Excerpt.append_plain_empty, Term.excerpt, Excerpt.append_assoc]

theorem tailExcerpt_of_alone {value : Formula} (noOperators : value.operators = [])
    (noStep : value.step = none) : value.tailExcerpt reading = .plain "" := by
  rw [Formula.tailExcerpt, noOperators, noStep]
  rfl

theorem codeSize_of_carriesOperators {position : Position} {value : Term}
    (side : position = .left ∨ position = .right)
    (carries : carriesOperators position value = true) (symbols : Symbols) :
    value.codeSize symbols position = value.codeSize symbols .left := by
  cases value with
  | flag name => rcases side with rfl | rfl <;> rfl
  | localVariable index => rcases side with rfl | rfl <;> rfl
  | property object name => rfl
  | call name arguments multitask => cases carries
  | number value => cases carries
  | text written => cases carries
  | objectCall object name arguments multitask => cases carries
  | chain head operators operands step => cases carries

/-- One side of a comparison. -/
theorem laid_side (value : Formula) {position : Position} {slot : Option Slot}
    (sided : position = .left ∨ position = .right)
    (encoded : (side reading.around position slot value).run pool = .ok (bytes, next)) :
    Laid reading pool next bytes (value.sideSize reading.symbols position)
      (∀ bound, bytes.length ≤ bound → Reads (Decoder.value reading bound position slot) bytes
        (calledFunction? value.head) (value.excerpt reading position slot)) := by
  unfold Formula.sideSize Formula.excerpt
  rcases side_eq_ok encoded with ⟨carries, front, middle, back, headOk, tailOk, rfl⟩ |
    ⟨closed, noOperators, noStep, alone⟩
  · rw [if_pos carries, codeSize_of_carriesOperators sided carries]
    refine (laid_target value.head headOk).append (laid_formulaTail value tailOk) ?_
    intro headReads tailReads bound enough
    have notCalled : calledFunction? value.head = none := by
      cases head : value.head <;> rw [head] at carries <;> first | rfl | cases carries
    have elsewhere : position ≠ .statement := by
      rcases sided with rfl | rfl <;> decide
    have reads := headReads slot enough (Or.inr carries) fun fewer size inside => by
      rcases sided with rfl | rfl <;> exact tailReads fewer inside
    rw [targetClosing, if_neg elsewhere, Excerpt.append_plain_empty] at reads
    rw [notCalled]
    exact reads
  · rw [closed, if_neg Bool.false_ne_true, Nat.add_zero, tailExcerpt_of_alone noOperators noStep]
    simp only [Excerpt.append_plain_empty]
    refine laid_term value.head ?_ alone
    intro object name same
    rw [same] at closed
    rcases sided with rfl | rfl
    · cases closed
    · exact ⟨by decide, by decide⟩

/-! ### Clauses -/

theorem comparison_ofCode?_code (comparison : Comparison) :
    Comparison.ofCode? comparison.code = some comparison := by
  cases comparison <;> decide

theorem conjunction_ofCode?_code (conjunction : Option Conjunction) :
    Conjunction.ofCode? (Conjunction.code conjunction) = some conjunction := by
  cases conjunction with
  | none => decide
  | some conjunction => cases conjunction <;> decide

/-- The words behind a clause. -/
theorem reads_conjunction (reading : Reading) (conjunction : Option Conjunction) :
    Reads (do
      let offset ← Decoder.position
      let code ← Decoder.byte reading
      match Conjunction.ofCode? code with
      | none =>
        Decoder.unknown reading .conjunction code offset
        pure false
      | some none => pure false
      | some (some conjunction) =>
        Decoder.emit (" " ++ conjunction.text ++ " ")
        pure true) [Conjunction.code conjunction] conjunction.isSome
      (match conjunction with
        | some conjunction => .plain (" " ++ conjunction.text ++ " ")
        | none => .plain "") := by
  refine Reads.position_bind fun offset => ?_
  refine Reads.silent_bind (Reads.byte reading _) ?_ rfl
  rw [conjunction_ofCode?_code]
  cases conjunction with
  | none => exact Reads.pure false
  | some conjunction => exact Reads.emit_bind (Reads.pure true) (Excerpt.append_plain_empty _)

theorem laid_clause (value : Clause)
    (encoded : (clause reading.around value).run pool = .ok (bytes, next)) :
    Laid reading pool next bytes (value.codeSize reading.symbols)
      (∀ bound, bytes.length ≤ bound →
        Reads (Decoder.clause reading (Decoder.value reading bound)) bytes value.conjunction.isSome
          (value.excerpt reading)) := by
  obtain ⟨left, middle, right, leftOk, rightOk, rfl⟩ := clause_eq_ok encoded
  have leftLaid := laid_side value.left (Or.inl rfl) leftOk
  have rightLaid := laid_side value.right (Or.inr rfl) rightOk
  refine ⟨leftLaid.grows.trans rightLaid.grows, ?_, fun kept bound enough => ?_⟩
  · simp only [List.length_append, List.length_cons, List.length_nil, leftLaid.size_eq,
      rightLaid.size_eq, Clause.codeSize]
    omega
  · simp only [List.length_append, List.length_cons, List.length_nil] at enough
    have leftReads := leftLaid.reads_of_kept (rightLaid.grows.trans kept) bound (by omega)
    have rightReads := rightLaid.reads_of_kept kept bound (by omega)
    refine Reads.bind leftReads ?_ (List.append_assoc _ _ _).symm rfl
    refine Reads.position_bind fun offset => ?_
    refine Reads.silent_bind (Reads.byte reading value.comparison.code) ?_ rfl
    simp only [comparison_ofCode?_code]
    refine Reads.emit_bind ?_ rfl
    exact Reads.bind rightReads.discard (reads_conjunction reading value.conjunction) rfl rfl

/-- Conditions are read in step with their writing. -/
theorem laid_clauses (list : List Clause) (joined : Joined list) {pool next : StringPool}
    {bytes : Bytes} (encoded : (clauses reading.around list).run pool = .ok (bytes, next)) :
    Laid reading pool next bytes (clausesSize reading.symbols list)
      (∀ inner bound, bytes.length ≤ inner → bytes.length ≤ bound →
        Reads (Decoder.repeatWhile bound (Decoder.clause reading (Decoder.value reading inner)))
          bytes () (clausesExcerpt reading list)) := by
  induction list generalizing pool bytes with
  | nil => cases joined
  | cons first rest inductionHypothesis =>
    obtain ⟨front, middle, back, firstOk, restOk, rfl⟩ := clauses_cons_eq_ok encoded
    have firstLaid := laid_clause first firstOk
    cases rest with
    | nil =>
      cases restOk
      refine ⟨firstLaid.grows, ?_, fun kept inner bound enough _ => ?_⟩
      · rw [List.append_nil, firstLaid.size_eq]
        rfl
      · rw [List.append_nil] at enough ⊢
        have reads := firstLaid.reads_of_kept kept inner enough
        rw [show first.conjunction = none from joined] at reads
        rw [clausesExcerpt, clausesExcerpt, Excerpt.append_plain_empty]
        exact Reads.repeatWhile_last reads bound
    | cons second others =>
      have restLaid := inductionHypothesis joined.2 restOk
      refine firstLaid.append restLaid ?_
      intro firstReads restReads inner bound enough rounds
      have positive : 0 < front.length := by
        rw [firstLaid.size_eq, Clause.codeSize]
        omega
      rw [List.length_append] at enough rounds
      obtain ⟨fewer, rfl⟩ : ∃ fewer, bound = fewer + 1 := ⟨bound - 1, by omega⟩
      have reads := firstReads inner (by omega)
      rw [joined.1] at reads
      exact Reads.repeatWhile_more reads (restReads inner fewer (by omega) (by omega))

end Encoder

end MapScript
