/-
This file says what the success of a composed attempt means for its parts. An
attempt that goes on after another one succeeds exactly if both do, and a list of
attempts succeeds exactly if each of them does; everything that is proved about
reading and writing takes attempts apart with these facts.
-/

import MapScript.Logged

namespace MapScript

variable {α β σ : Type}

/-! ### One after the other -/

/-- An attempt followed by another succeeds if both do. -/
theorem bind_eq_ok {attempt : Except Fault α} {next : α → Except Fault β} {result : β} :
    (attempt >>= next) = .ok result ↔
      ∃ value, attempt = .ok value ∧ next value = .ok result := by
  cases attempt with
  | error fault =>
    constructor
    · intro success
      cases success
    · rintro ⟨value, success, _⟩
      cases success
  | ok value =>
    constructor
    · intro success
      exact ⟨value, rfl, success⟩
    · rintro ⟨other, same, success⟩
      cases same
      exact success

/-- Two attempts in a row fail if the first one fails, or else the second one. -/
theorem bind_eq_error {attempt : Except Fault α} {next : α → Except Fault β} {fault : Fault} :
    (attempt >>= next) = .error fault ↔
      attempt = .error fault ∨ ∃ value, attempt = .ok value ∧ next value = .error fault := by
  cases attempt with
  | error other =>
    constructor
    · intro failed
      cases failed
      exact Or.inl rfl
    · rintro (same | ⟨value, success, -⟩)
      · cases same
        rfl
      · cases success
  | ok value =>
    constructor
    · exact fun failed => Or.inr ⟨value, rfl, failed⟩
    · rintro (same | ⟨found, success, failed⟩)
      · cases same
      · cases success
        exact failed

/-- The same for a choice between two attempts that go on alike. -/
theorem ite_bind_eq_ok {condition : Prop} [Decidable condition] {one other : Except Fault α}
    {next : α → Except Fault β} {result : β} :
    (if condition then one >>= next else other >>= next) = .ok result ↔
      ∃ value, (if condition then one else other) = .ok value ∧ next value = .ok result := by
  split <;> exact bind_eq_ok

@[simp] theorem ok_bind (value : α) (next : α → Except Fault β) :
    ((.ok value : Except Fault α) >>= next) = next value := rfl

@[simp] theorem error_bind (fault : Fault) (next : α → Except Fault β) :
    ((.error fault : Except Fault α) >>= next) = .error fault := rfl

theorem pure_eq_ok (value : α) : (pure value : Except Fault α) = .ok value := rfl

theorem fail_ne_ok {cause : Cause} {value : α} : (fail cause : Except Fault α) ≠ .ok value := by
  intro success
  cases success

/-- Blaming a line changes no success. -/
theorem locating_eq_ok {origin : Option Origin} {attempt : Except Fault α} {value : α} :
    locating origin attempt = .ok value ↔ attempt = .ok value := by
  cases attempt with
  | ok found => rfl
  | error fault =>
    constructor <;> intro success <;> cases success

/-! ### Numbers in fields -/

theorem packNumber_eq (width value : Nat) :
    packNumber width value =
      if value < Bytes.range width then .ok (Bytes.ofNatLittle width value)
      else fail (.fieldOverflow value) := by
  unfold packNumber Bytes.unsigned?
  by_cases fits : value < Bytes.range width
  · rw [if_pos fits, if_pos ⟨Int.natCast_nonneg value, Int.ofNat_lt.mpr fits⟩]
    rfl
  · rw [if_neg fits, if_neg fun both => fits (Int.ofNat_lt.mp both.2)]

theorem packNumber_eq_ok_iff {width value : Nat} {bytes : Bytes} :
    packNumber width value = .ok bytes ↔
      value < Bytes.range width ∧ bytes = Bytes.ofNatLittle width value := by
  rw [packNumber_eq]
  split
  · rename_i fits
    rw [Except.ok.injEq, and_iff_right fits]
    exact eq_comm
  · rename_i tooLarge
    exact ⟨fun done => absurd done fail_ne_ok, fun both => absurd both.1 tooLarge⟩

theorem range_le_of_packNumber {width value : Nat} {fault : Fault}
    (failed : packNumber width value = .error fault) : Bytes.range width ≤ value := by
  rw [packNumber_eq] at failed
  split at failed
  · cases failed
  · rename_i tooLarge
    exact Nat.not_lt.mp tooLarge

/-- A number that is not larger than one that fits does fit. -/
theorem packNumber_of_le {width small large : Nat} {bytes : Bytes}
    (packed : packNumber width large = .ok bytes) (le : small ≤ large) :
    packNumber width small = .ok (Bytes.ofNatLittle width small) :=
  packNumber_eq_ok_iff.mpr ⟨Nat.lt_of_le_of_lt le (packNumber_eq_ok_iff.mp packed).1, rfl⟩

/-! ### Lists of attempts -/

theorem mapM_cons_eq_ok {attempt : α → Except Fault β} {first : α} {rest : List α}
    {results : List β} :
    (first :: rest).mapM attempt = .ok results ↔
      ∃ value others, attempt first = .ok value ∧ rest.mapM attempt = .ok others ∧
        results = value :: others := by
  rw [List.mapM_cons, bind_eq_ok]
  constructor
  · rintro ⟨value, firstOk, success⟩
    obtain ⟨others, restOk, success⟩ := bind_eq_ok.mp success
    cases success
    exact ⟨value, others, firstOk, restOk, rfl⟩
  · rintro ⟨value, others, firstOk, restOk, rfl⟩
    exact ⟨value, firstOk, bind_eq_ok.mpr ⟨others, restOk, rfl⟩⟩

/-- Attempts on a list that all succeed give their values in order. -/
theorem mapM_eq_ok_of_forall {attempt : α → Except Fault β} {value : α → β} (list : List α)
    (each : ∀ entry ∈ list, attempt entry = .ok (value entry)) :
    list.mapM attempt = .ok (list.map value) := by
  induction list with
  | nil => rfl
  | cons first rest inductionHypothesis =>
    refine mapM_cons_eq_ok.mpr ⟨value first, rest.map value, each first List.mem_cons_self, ?_, rfl⟩
    exact inductionHypothesis fun entry member => each entry (List.mem_cons_of_mem _ member)

theorem length_of_mapM_ok {attempt : α → Except Fault β} {list : List α} {results : List β}
    (success : list.mapM attempt = .ok results) : results.length = list.length := by
  induction list generalizing results with
  | nil =>
    cases success
    rfl
  | cons first rest inductionHypothesis =>
    obtain ⟨value, others, firstOk, restOk, rfl⟩ := mapM_cons_eq_ok.mp success
    rw [List.length_cons, List.length_cons, inductionHypothesis restOk]

/-- If attempts on a list succeed, so does each of them. -/
theorem ok_of_mapM_ok {attempt : α → Except Fault β} {list : List α} {results : List β}
    (success : list.mapM attempt = .ok results) {entry : α} (member : entry ∈ list) :
    ∃ value, attempt entry = .ok value := by
  induction list generalizing results with
  | nil => cases member
  | cons first rest inductionHypothesis =>
    obtain ⟨value, others, firstOk, restOk, -⟩ := mapM_cons_eq_ok.mp success
    rcases List.mem_cons.mp member with rfl | inRest
    · exact ⟨value, firstOk⟩
    · exact inductionHypothesis restOk inRest

/-- Every result of attempts on a list is the result of one of them. -/
theorem exists_of_mapM_ok {attempt : α → Except Fault β} {list : List α} {results : List β}
    (success : list.mapM attempt = .ok results) {value : β} (member : value ∈ results) :
    ∃ entry ∈ list, attempt entry = .ok value := by
  induction list generalizing results with
  | nil =>
    cases success
    cases member
  | cons first rest inductionHypothesis =>
    obtain ⟨one, others, firstOk, restOk, rfl⟩ := mapM_cons_eq_ok.mp success
    rcases List.mem_cons.mp member with rfl | inRest
    · exact ⟨first, List.mem_cons_self, firstOk⟩
    · obtain ⟨entry, there, entryOk⟩ := inductionHypothesis restOk inRest
      exact ⟨entry, List.mem_cons_of_mem _ there, entryOk⟩

/-- What every step keeps, a whole run keeps. -/
theorem foldlM_keeps {step : σ → α → Except Fault σ} (property : σ → Prop) {list : List α}
    (keeps : ∀ state, ∀ entry ∈ list, ∀ next, property state → step state entry = .ok next →
      property next)
    {state final : σ} (initial : property state) (run : list.foldlM step state = .ok final) :
    property final := by
  induction list generalizing state with
  | nil =>
    cases run
    exact initial
  | cons entry rest inductionHypothesis =>
    rw [List.foldlM_cons] at run
    obtain ⟨next, stepOk, run⟩ := bind_eq_ok.mp run
    refine inductionHypothesis ?_ (keeps state entry List.mem_cons_self next initial stepOk) run
    exact fun state entry member => keeps state entry (List.mem_cons_of_mem _ member)

/-! ### Attempts with a state -/

section Stateful

variable {first : StateT σ (Except Fault) α} {next : α → StateT σ (Except Fault) β} {state : σ}

theorem run_bind_eq_ok {result : β × σ} :
    (first >>= next).run state = .ok result ↔
      ∃ value middle, first.run state = .ok (value, middle) ∧ (next value).run middle = .ok result := by
  rw [StateT.run_bind, bind_eq_ok]
  constructor
  · rintro ⟨⟨value, middle⟩, one, two⟩
    exact ⟨value, middle, one, two⟩
  · rintro ⟨value, middle, one, two⟩
    exact ⟨(value, middle), one, two⟩

theorem run_bind_eq_error {fault : Fault} :
    (first >>= next).run state = .error fault ↔ first.run state = .error fault ∨
      ∃ value middle, first.run state = .ok (value, middle) ∧
        (next value).run middle = .error fault := by
  rw [StateT.run_bind, bind_eq_error]
  exact or_congr_right ⟨fun ⟨⟨value, middle⟩, both⟩ => ⟨value, middle, both⟩,
    fun ⟨value, middle, both⟩ => ⟨(value, middle), both⟩⟩

theorem run_pure_eq_ok {value : α} {result : α × σ} :
    (pure value : StateT σ (Except Fault) α).run state = .ok result ↔ (value, state) = result := by
  rw [StateT.run_pure, MapScript.pure_eq_ok, Except.ok.injEq]

theorem run_throw_ne_ok (fault : Fault) (result : α × σ) :
    (throw fault : StateT σ (Except Fault) α).run state ≠ .ok result := by
  intro success
  cases success

theorem run_lift_eq_ok {attempt : Except Fault α} {result : α × σ} :
    (liftM attempt : StateT σ (Except Fault) α).run state = .ok result ↔
      ∃ value, attempt = .ok value ∧ (value, state) = result := by
  cases attempt with
  | ok value =>
    constructor
    · intro success
      exact ⟨value, rfl, Except.ok.inj success⟩
    · rintro ⟨found, same, whole⟩
      cases same
      exact congrArg Except.ok whole
  | error fault =>
    constructor
    · intro success
      cases success
    · rintro ⟨found, same, -⟩
      cases same

theorem run_lift_eq_error {attempt : Except Fault α} {fault : Fault} :
    (liftM attempt : StateT σ (Except Fault) α).run state = .error fault ↔
      attempt = .error fault := by
  cases attempt with
  | ok value => exact ⟨nofun, nofun⟩
  | error found =>
    constructor <;> intro failed <;> cases failed <;> rfl

end Stateful

/-! ### Attempts with notices -/

theorem Logged.run_bind {work : Logged α} {value : α} {before after : List Notice}
    (done : (ExceptT.run work).run before = (.ok value, after)) (next : α → Logged β) :
    (ExceptT.run (work >>= next)).run before = (ExceptT.run (next value)).run after := by
  rw [ExceptT.run_bind, StateT.run_bind, done]
  rfl

/-- Notices that are left one after the other. -/
theorem Logged.run_notes (notice : α → Notice) (list : List α) (notices : List Notice) :
    (ExceptT.run (forIn list PUnit.unit fun item _ => do
      Logged.note (notice item)
      pure (ForInStep.yield PUnit.unit) : Logged PUnit)).run notices =
      (.ok PUnit.unit, notices ++ list.map notice) := by
  induction list generalizing notices with
  | nil =>
    rw [List.map_nil, List.append_nil]
    rfl
  | cons item rest inductionHypothesis =>
    have more := inductionHypothesis (notices ++ [notice item])
    rw [List.append_assoc] at more
    rw [List.forIn_cons]
    exact more

/-- Work ends in one way, whatever notices were left before it. -/
def Logged.Gives (work : Logged α) (result : Except Fault α) : Prop :=
  ∀ notices, ((ExceptT.run work).run notices).1 = result

theorem Logged.Gives.outcome {work : Logged α} {result : Except Fault α}
    (gives : work.Gives result) : work.outcome.1 = result :=
  gives []

theorem Logged.gives_pure (value : α) : (pure value : Logged α).Gives (.ok value) :=
  fun _ => rfl

theorem Logged.gives_lift (attempt : Except Fault α) : (Logged.lift attempt).Gives attempt :=
  fun _ => rfl

theorem Logged.gives_resume (ended : Except Fault α × List Notice) :
    (Logged.resume ended).Gives ended.1 :=
  fun _ => rfl

theorem Logged.gives_notes (notice : α → Notice) (list : List α) :
    (forIn list PUnit.unit fun item _ => do
      Logged.note (notice item)
      pure (ForInStep.yield PUnit.unit) : Logged PUnit).Gives (.ok PUnit.unit) :=
  fun notices => congrArg Prod.fst (run_notes notice list notices)

theorem Logged.Gives.bind {work : Logged α} {result : Except Fault α} {next : α → Logged β}
    {later : α → Except Fault β} (gives : work.Gives result)
    (rest : ∀ value, (next value).Gives (later value)) :
    (work >>= next).Gives (result >>= later) := by
  intro notices
  have first := gives notices
  rw [ExceptT.run_bind, StateT.run_bind]
  generalize (ExceptT.run work).run notices = ended at first
  obtain ⟨attempt, left⟩ := ended
  subst first
  cases attempt with
  | error fault => rfl
  | ok value => exact rest value left

theorem Logged.Gives.mapM {work : α → Logged β} {attempt : α → Except Fault β}
    (each : ∀ entry, (work entry).Gives (attempt entry)) (list : List α) :
    (list.mapM work).Gives (list.mapM attempt) := by
  induction list with
  | nil => exact gives_pure []
  | cons first rest inductionHypothesis =>
    rw [List.mapM_cons, List.mapM_cons]
    exact (each first).bind fun _ => inductionHypothesis.bind fun _ => gives_pure _

/-! ### Causes of failure -/

/-- An attempt succeeds, or fails for a cause of this kind. -/
def FailsOnly (allowed : Cause → Prop) : Except Fault α → Prop
  | .ok _ => True
  | .error fault => allowed fault.cause

namespace FailsOnly

variable {allowed other : Cause → Prop}

theorem imp {attempt : Except Fault α} (fails : FailsOnly allowed attempt)
    (weaker : ∀ cause, allowed cause → other cause) : FailsOnly other attempt := by
  cases attempt with
  | ok value => trivial
  | error fault => exact weaker _ fails

theorem bind {attempt : Except Fault α} {next : α → Except Fault β}
    (first : FailsOnly allowed attempt) (rest : ∀ value, FailsOnly allowed (next value)) :
    FailsOnly allowed (attempt >>= next) := by
  cases attempt with
  | ok value => exact rest value
  | error fault => exact first

theorem map {attempt : Except Fault α} (first : FailsOnly allowed attempt) (function : α → β) :
    FailsOnly allowed (attempt.map function) := by
  cases attempt with
  | ok value => trivial
  | error fault => exact first

theorem mapM {attempt : α → Except Fault β} {list : List α}
    (each : ∀ entry ∈ list, FailsOnly allowed (attempt entry)) :
    FailsOnly allowed (list.mapM attempt) := by
  induction list with
  | nil => trivial
  | cons first rest inductionHypothesis =>
    obtain ⟨here, others⟩ := List.forall_mem_cons.mp each
    rw [List.mapM_cons]
    exact here.bind fun _ => (inductionHypothesis others).bind fun _ => trivial

theorem foldlM {step : β → α → Except Fault β} {list : List α}
    (each : ∀ state, ∀ entry ∈ list, FailsOnly allowed (step state entry)) (start : β) :
    FailsOnly allowed (list.foldlM step start) := by
  induction list generalizing start with
  | nil => trivial
  | cons first rest inductionHypothesis =>
    rw [List.foldlM_cons]
    refine (each start first List.mem_cons_self).bind fun next => ?_
    exact inductionHypothesis (fun state entry member =>
      each state entry (List.mem_cons_of_mem _ member)) next

end FailsOnly

/-! ### Tests of all members -/

/-- A property that each member of a list passes one by one. -/
theorem forall_mem_of_all {property : α → Prop} [DecidablePred property] {list : List α}
    (passed : (list.all fun entry => decide (property entry)) = true) :
    ∀ entry ∈ list, property entry :=
  fun entry member => of_decide_eq_true (List.all_eq_true.mp passed entry member)

/-- The same for an entry that may be missing. -/
theorem forall_mem_of_all_option {property : α → Prop} [DecidablePred property]
    {option : Option α} (passed : (option.all fun entry => decide (property entry)) = true) :
    ∀ entry ∈ option, property entry := by
  rintro entry rfl
  exact of_decide_eq_true passed

/-! ### Attempts that are carried out -/

/-- What an attempt reaches, or else what is given. -/
def reached {α : Type} (attempt : Except Fault α) (otherwise : α) : α :=
  attempt.toOption.getD otherwise

theorem eq_ok_reached {α : Type} {attempt : Except Fault α} {otherwise : α}
    (succeeds : attempt.isOk = true) : attempt = .ok (reached attempt otherwise) := by
  cases attempt with
  | ok value => rfl
  | error fault => cases succeeds

/-- An attempt whose result passes a test succeeds. -/
theorem exists_ok_of_any {α : Type} {attempt : Except Fault α} {test : α → Bool}
    (passes : attempt.toOption.any test = true) : ∃ value, attempt = .ok value ∧ test value = true := by
  cases attempt with
  | ok value => exact ⟨value, rfl, passes⟩
  | error fault => cases passes

/-- The cause for which an attempt fails, if it does. -/
def failure? {α : Type} : Except Fault α → Option Cause
  | .ok _ => none
  | .error fault => some fault.cause

theorem exists_error_of_failure? {α : Type} {attempt : Except Fault α} {cause : Cause}
    (fails : failure? attempt = some cause) :
    ∃ fault, attempt = .error fault ∧ fault.cause = cause := by
  cases attempt with
  | ok value => cases fails
  | error fault => exact ⟨fault, rfl, Option.some.inj fails⟩

end MapScript
