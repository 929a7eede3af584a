/-
This file proves that the lines of a script hold no line breaks, also when they are
cleaned. Text is cut at every line break there is, and cleaning adds nothing but spaces,
quotes, brackets and numerals.
-/

import MapScript.Proofs.Attempt
import MapScript.Proofs.Text.Numerals
import MapScript.Script.Cleaning

namespace MapScript

namespace Text

/-- A text without line breaks. -/
def Unbroken (text : List Char) : Prop :=
  ∀ c ∈ text, isLineBreak c = false

namespace Unbroken

variable {text front back : List Char} {c : Char}

theorem subset (unbroken : Unbroken text) (inside : back ⊆ text) : Unbroken back :=
  fun c member => unbroken c (inside member)

theorem append (one : Unbroken front) (two : Unbroken back) : Unbroken (front ++ back) :=
  fun c member => (List.mem_append.mp member).elim (one c) (two c)

theorem cons (here : isLineBreak c = false) (rest : Unbroken text) : Unbroken (c :: text) := by
  intro other member
  rcases List.mem_cons.mp member with rfl | inside
  · exact here
  · exact rest other inside

theorem head (unbroken : Unbroken (c :: text)) : isLineBreak c = false :=
  unbroken c List.mem_cons_self

theorem tail (unbroken : Unbroken (c :: text)) : Unbroken text :=
  unbroken.subset (List.subset_cons_self c text)

theorem nil : Unbroken [] := fun _ none => absurd none List.not_mem_nil

theorem trimStart (unbroken : Unbroken text) : Unbroken (trimStart text) :=
  unbroken.subset (List.dropWhile_suffix _).subset

theorem trimEnd (unbroken : Unbroken text) : Unbroken (trimEnd text) := by
  refine unbroken.subset fun c member => ?_
  have inside := (List.dropWhile_suffix _).subset (List.mem_reverse.mp member)
  exact List.mem_reverse.mp inside

end Unbroken

theorem unbroken_integer (value : Int) : Unbroken (integer value) :=
  fun _ member => isLineBreak_of_isBlank (isBlank_of_mem_integer member)

theorem unbroken_lineStep {c : Char} {state : Bool × List (List Char)}
    (lines : ∀ line ∈ state.2, Unbroken line) : ∀ line ∈ (lineStep c state).2, Unbroken line := by
  unfold lineStep
  split
  · exact lines
  · split
    · exact List.forall_mem_cons.mpr ⟨.nil, lines⟩
    · rename_i full
      have full : isLineBreak c = false := Bool.eq_false_iff.mpr full
      split
      · exact List.forall_mem_singleton.mpr (.cons full .nil)
      · rename_i line rest same
        rw [same] at lines
        obtain ⟨first, others⟩ := List.forall_mem_cons.mp lines
        exact List.forall_mem_cons.mpr ⟨.cons full first, others⟩

/-- The lines of a text hold no line breaks. -/
theorem unbroken_splitLines (text : List Char) : ∀ line ∈ splitLines text, Unbroken line := by
  unfold splitLines
  induction text with
  | nil => exact fun _ none => absurd none List.not_mem_nil
  | cons c rest inductionHypothesis =>
    rw [List.foldr_cons]
    exact unbroken_lineStep inductionHypothesis

theorem unbroken_splitOn {separator : Char} {text : List Char} (unbroken : Unbroken text) :
    ∀ piece ∈ splitOn separator text, Unbroken piece := by
  induction text with
  | nil => exact List.forall_mem_singleton.mpr .nil
  | cons c rest inductionHypothesis =>
    have pieces := inductionHypothesis unbroken.tail
    by_cases same : c = separator
    · rw [same, splitOn_cons_self]
      exact List.forall_mem_cons.mpr ⟨.nil, pieces⟩
    · rw [splitOn_cons_other same]
      cases split : splitOn separator rest with
      | nil => exact fun _ none => absurd none List.not_mem_nil
      | cons first others =>
        rw [split] at pieces
        obtain ⟨one, two⟩ := List.forall_mem_cons.mp pieces
        exact List.forall_mem_cons.mpr ⟨.cons unbroken.head one, two⟩

end Text

open Text

/-! ### Quoted text -/

namespace Quotation

/-- The parts of a quotation hold no line breaks. -/
structure Unbroken (quotation : Quotation) : Prop where
  lead : Text.Unbroken quotation.lead
  quotes : ∀ quote ∈ quotation.quotes, Text.Unbroken quote.1 ∧ Text.Unbroken quote.2

variable {quotation : Quotation}

theorem unbroken_ofPieces {pieces : List (List Char)}
    (each : ∀ piece ∈ pieces, Text.Unbroken piece) : (ofPieces pieces).Unbroken := by
  match pieces with
  | [] => exact ⟨.nil, fun _ none => absurd none List.not_mem_nil⟩
  | [plain] =>
    exact ⟨each plain List.mem_cons_self, fun _ none => absurd none List.not_mem_nil⟩
  | [plain, rest] =>
    obtain ⟨one, two⟩ := List.forall_mem_cons.mp each
    exact ⟨one.append (.cons (by decide) (List.forall_mem_singleton.mp two)),
      fun _ none => absurd none List.not_mem_nil⟩
  | plain :: inside :: third :: rest =>
    obtain ⟨one, others⟩ := List.forall_mem_cons.mp each
    obtain ⟨two, others⟩ := List.forall_mem_cons.mp others
    have tail := unbroken_ofPieces others
    exact ⟨one, List.forall_mem_cons.mpr ⟨⟨two, tail.lead⟩, tail.quotes⟩⟩

theorem unbroken_ofLine {line : List Char} (unbroken : Text.Unbroken line) :
    (ofLine line).Unbroken :=
  unbroken_ofPieces (unbroken_splitOn unbroken)

theorem Unbroken.join (unbroken : quotation.Unbroken) : Text.Unbroken quotation.join := by
  refine unbroken.lead.append fun c member => ?_
  obtain ⟨quote, there, inside⟩ := List.mem_flatMap.mp member
  obtain ⟨one, two⟩ := unbroken.quotes quote there
  exact Text.Unbroken.append (.cons (by decide) one) (.cons (by decide) two) c inside

theorem Unbroken.mapPlain {change : List Char → List Char}
    (keeps : ∀ {text}, Text.Unbroken text → Text.Unbroken (change text))
    (unbroken : quotation.Unbroken) : (quotation.mapPlain change).Unbroken := by
  refine ⟨keeps unbroken.lead, fun quote member => ?_⟩
  obtain ⟨⟨inside, plain⟩, there, rfl⟩ := List.mem_map.mp member
  obtain ⟨one, two⟩ := unbroken.quotes _ there
  exact ⟨one, keeps two⟩

theorem Unbroken.mapPlainM {change : List Char → Except Fault (List Char)} {changed : Quotation}
    (keeps : ∀ {text other}, Text.Unbroken text → change text = .ok other → Text.Unbroken other)
    (unbroken : quotation.Unbroken) (done : quotation.mapPlainM change = .ok changed) :
    changed.Unbroken := by
  obtain ⟨lead, leadOk, done⟩ := bind_eq_ok.mp done
  obtain ⟨quotes, quotesOk, done⟩ := bind_eq_ok.mp done
  cases done
  refine ⟨keeps unbroken.lead leadOk, fun quote member => ?_⟩
  obtain ⟨before, there, beforeOk⟩ := exists_of_mapM_ok quotesOk member
  obtain ⟨plain, plainOk, whole⟩ := bind_eq_ok.mp beforeOk
  cases whole
  obtain ⟨one, two⟩ := unbroken.quotes _ there
  exact ⟨one, keeps two plainOk⟩

end Quotation

/-! ### Cleaning -/

theorem unbroken_beforeSlashes? {text kept : List Char} (unbroken : Unbroken text)
    (found : beforeSlashes? text = some kept) : Unbroken kept := by
  fun_induction beforeSlashes? text generalizing kept with
  | case1 rest =>
    cases found
    exact .nil
  | case2 c rest notSlashes inductionHypothesis =>
    obtain ⟨others, othersFound, rfl⟩ := Option.map_eq_some_iff.mp found
    exact .cons unbroken.head (inductionHypothesis unbroken.tail othersFound)
  | case3 => cases found

theorem unbroken_beforeComment? {lead kept : List Char} {quotes : List (List Char × List Char)}
    (unbroken : (⟨lead, quotes⟩ : Quotation).Unbroken)
    (found : beforeComment? lead quotes = some kept) : Unbroken kept := by
  induction quotes generalizing lead kept with
  | nil => exact unbroken_beforeSlashes? unbroken.lead found
  | cons quote rest inductionHypothesis =>
    obtain ⟨inside, plain⟩ := quote
    obtain ⟨⟨one, two⟩, others⟩ := List.forall_mem_cons.mp unbroken.quotes
    rw [beforeComment?] at found
    split at found
    · rename_i before
      cases found
      exact unbroken_beforeSlashes? unbroken.lead before
    · obtain ⟨later, laterFound, rfl⟩ := Option.map_eq_some_iff.mp found
      have tail := inductionHypothesis ⟨two, others⟩ laterFound
      exact (unbroken.lead.append (.cons (by decide) one)).append (.cons (by decide) tail)

theorem unbroken_stripComment {line : List Char} (unbroken : Unbroken line) :
    Unbroken (stripComment line) := by
  simp only [stripComment]
  split
  · rename_i found
    exact (unbroken_beforeComment? (Quotation.unbroken_ofLine unbroken) found).trimEnd
  · exact unbroken

/-- Spacing after commas only takes characters away. -/
theorem mem_tightenFrom {flag : Bool} {text : List Char} {c : Char}
    (member : c ∈ tightenFrom flag text) : c ∈ text := by
  fun_induction tightenFrom flag text with
  | case1 => exact member
  | case2 first rest blank inductionHypothesis =>
    exact List.mem_cons_of_mem _ (inductionHypothesis member)
  | case3 first rest full inductionHypothesis | case4 first rest inductionHypothesis =>
    rcases List.mem_cons.mp member with rfl | inside
    · exact List.mem_cons_self
    · exact List.mem_cons_of_mem _ (inductionHypothesis inside)

/-- Spacing before step marks adds nothing but spaces. -/
theorem mem_spaceSteps {text : List Char} {c : Char} (member : c ∈ spaceSteps text) :
    c = ' ' ∨ c ∈ text := by
  fun_induction spaceSteps text with
  | case1 rest inductionHypothesis | case2 rest inductionHypothesis =>
    rcases List.mem_cons.mp member with space | member
    · exact .inl space
    · rcases List.mem_cons.mp member with rfl | member
      · exact .inr List.mem_cons_self
      · rcases List.mem_cons.mp member with rfl | member
        · exact .inr List.mem_cons_self
        · exact (inductionHypothesis member).imp_right fun inside =>
            List.mem_cons_of_mem _ (List.mem_cons_of_mem _ inside)
  | case3 first rest _ _ inductionHypothesis =>
    rcases List.mem_cons.mp member with rfl | member
    · exact .inr List.mem_cons_self
    · exact (inductionHypothesis member).imp_right (List.mem_cons_of_mem _)
  | case4 => exact .inr member

theorem unbroken_tightenCommas {text : List Char} (unbroken : Unbroken text) :
    Unbroken (tightenCommas text) :=
  fun c member => unbroken c (mem_tightenFrom member)

theorem unbroken_spaceSteps {text : List Char} (unbroken : Unbroken text) :
    Unbroken (spaceSteps text) := by
  intro c member
  rcases mem_spaceSteps member with rfl | inside
  · decide
  · exact unbroken c inside

theorem unbroken_nameNumber {symbols : Symbols} {name number : List Char}
    (unbroken : Unbroken name) (named : nameNumber symbols name = .ok number) :
    Unbroken number := by
  simp only [nameNumber] at named
  split at named
  · cases named
    exact (Unbroken.cons (by decide) unbroken).append (.cons (by decide) .nil)
  · split at named
    · cases named
      exact unbroken_integer _
    · split at named
      · cases named
        exact unbroken_integer (Int.ofNat _)
      · exact absurd named fail_ne_ok

theorem unbroken_bracketName? {text name : List Char} (unbroken : Unbroken text)
    (found : bracketName? text = some name) : Unbroken name := by
  simp only [bracketName?] at found
  split at found
  · split at found
    · cases found
      exact unbroken.subset (List.takeWhile_prefix _).subset
    · cases found
  · cases found

theorem unbroken_replaceNames {symbols : Symbols} {text changed : List Char} {passed : Nat}
    (unbroken : Unbroken text) (done : replaceNames symbols text passed = .ok changed) :
    Unbroken changed := by
  induction text generalizing passed changed with
  | nil =>
    cases done
    exact .nil
  | cons c rest inductionHypothesis =>
    cases passed with
    | succ passed => exact inductionHypothesis unbroken.tail done
    | zero =>
      rw [replaceNames] at done
      split at done
      · rename_i name found
        obtain ⟨number, numbered, done⟩ := bind_eq_ok.mp done
        obtain ⟨tail, tailOk, done⟩ := bind_eq_ok.mp done
        cases done
        have inside : bracketName? rest = some name := by
          split at found
          · exact found
          · cases found
        exact (unbroken_nameNumber (unbroken_bracketName? unbroken.tail inside) numbered).append
          (inductionHypothesis unbroken.tail tailOk)
      · obtain ⟨tail, tailOk, done⟩ := bind_eq_ok.mp done
        cases done
        exact .cons unbroken.head (inductionHypothesis unbroken.tail tailOk)

theorem unbroken_cleanLine {symbols : Symbols} {line text : List Char} (unbroken : Unbroken line)
    (cleaned : cleanLine symbols line = .ok text) : Unbroken text := by
  obtain ⟨named, namedOk, cleaned⟩ := bind_eq_ok.mp cleaned
  cases cleaned
  have bare := Quotation.unbroken_ofLine (unbroken_stripComment unbroken)
  have tight := Quotation.unbroken_ofLine (bare.mapPlain unbroken_tightenCommas).join
  have spaced := Quotation.unbroken_ofLine (tight.mapPlain unbroken_spaceSteps).join
  exact (spaced.mapPlainM unbroken_replaceNames namedOk).join.trimStart.trimEnd

/-- The cleaned lines of a script hold no line breaks. -/
theorem unbroken_cleanText {symbols : Symbols} {text : List Char} {lines : List ScriptLine}
    (cleaned : cleanText symbols text = .ok lines) : ∀ line ∈ lines, Unbroken line.text := by
  intro line member
  obtain ⟨⟨number, given⟩, there, clean⟩ := exists_of_mapM_ok cleaned member
  obtain ⟨place, inside, same⟩ := List.mem_mapIdx.mp there
  cases same
  unfold ScriptLine.clean at clean
  obtain ⟨written, lineOk, whole⟩ := bind_eq_ok.mp (locating_eq_ok.mp clean)
  cases whole
  exact unbroken_cleanLine (unbroken_splitLines text _ (List.getElem_mem inside)) lineOk

end MapScript
