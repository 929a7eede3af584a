/-
This file says how text is cut: at a separator, where text without the separator stays
together, and into lines, where lines that are joined by line feeds come apart again. Text
that is put behind other text joins its last line.
-/

import MapScript.Text.Lines

namespace MapScript.Text

/-! ### One separator -/

theorem splitOn_ne_nil (separator : Char) (text : List Char) : splitOn separator text ≠ [] := by
  cases text with
  | nil => exact List.cons_ne_nil _ _
  | cons c rest =>
    unfold splitOn
    rw [List.foldr_cons]
    split
    · exact List.cons_ne_nil _ _
    · split <;> exact List.cons_ne_nil _ _

theorem splitOn_cons_self (separator : Char) (rest : List Char) :
    splitOn separator (separator :: rest) = [] :: splitOn separator rest := by
  unfold splitOn
  rw [List.foldr_cons, if_pos (beq_self_eq_true separator)]

theorem splitOn_cons_other {separator c : Char} (other : c ≠ separator) (rest : List Char) :
    splitOn separator (c :: rest) = (splitOn separator rest).modifyHead (c :: ·) := by
  have filled := splitOn_ne_nil separator rest
  unfold splitOn at filled ⊢
  rw [List.foldr_cons, beq_eq_false_iff_ne.mpr other]
  generalize List.foldr _ [[]] rest = pieces at filled ⊢
  cases pieces with
  | nil => exact absurd rfl filled
  | cons piece others => rfl

theorem splitOn_append {separator : Char} {text : List Char} (absent : separator ∉ text)
    (rest : List Char) :
    splitOn separator (text ++ rest) = (splitOn separator rest).modifyHead (text ++ ·) := by
  induction text with
  | nil =>
    rw [List.nil_append]
    cases splitOn separator rest <;> rfl
  | cons c text inductionHypothesis =>
    have other := Ne.symm (List.ne_of_not_mem_cons absent)
    rw [List.cons_append, splitOn_cons_other other,
      inductionHypothesis (List.not_mem_of_not_mem_cons absent)]
    cases splitOn separator rest <;> rfl

theorem splitOn_of_not_mem {separator : Char} {text : List Char} (absent : separator ∉ text) :
    splitOn separator text = [text] := by
  have whole := splitOn_append absent []
  rw [List.append_nil] at whole
  rw [whole]
  show [text ++ []] = [text]
  rw [List.append_nil]

/-- The pieces before a separator and those behind it have nothing to do with each other. -/
theorem splitOn_append_cons_self (separator : Char) (front back : List Char) :
    splitOn separator (front ++ separator :: back) =
      splitOn separator front ++ splitOn separator back := by
  induction front with
  | nil => exact splitOn_cons_self separator back
  | cons c front inductionHypothesis =>
    rw [List.cons_append]
    by_cases same : c = separator
    · rw [same, splitOn_cons_self, splitOn_cons_self, inductionHypothesis, List.cons_append]
    · rw [splitOn_cons_other same, splitOn_cons_other same, inductionHypothesis]
      obtain ⟨piece, rest, split⟩ := List.exists_cons_of_ne_nil (splitOn_ne_nil separator front)
      rw [split]
      rfl

/-- Text without the separator joins the last piece. -/
theorem exists_splitOn_append (separator : Char) (text : List Char) :
    ∃ front last, ∀ tail, separator ∉ tail →
      splitOn separator (text ++ tail) = front ++ [last ++ tail] := by
  induction text with
  | nil => exact ⟨[], [], fun tail absent => splitOn_of_not_mem absent⟩
  | cons c text inductionHypothesis =>
    obtain ⟨front, last, joined⟩ := inductionHypothesis
    by_cases same : c = separator
    · refine ⟨[] :: front, last, fun tail absent => ?_⟩
      rw [same, List.cons_append, splitOn_cons_self, joined tail absent, List.cons_append]
    · cases front with
      | nil =>
        refine ⟨[], c :: last, fun tail absent => ?_⟩
        rw [List.cons_append, splitOn_cons_other same, joined tail absent]
        rfl
      | cons piece front =>
        refine ⟨(c :: piece) :: front, last, fun tail absent => ?_⟩
        rw [List.cons_append, splitOn_cons_other same, joined tail absent]
        rfl

/-! ### Lines -/

/-- Text without a line break joins the line that is open behind it. -/
theorem foldr_lineStep {line : List Char} (unbroken : ∀ c ∈ line, isLineBreak c = false)
    (flag : Bool) (first : List Char) (rest : List (List Char)) :
    (line.foldr lineStep (flag, first :: rest)).2 = (line ++ first) :: rest := by
  induction line with
  | nil => rfl
  | cons c line inductionHypothesis =>
    have inside := inductionHypothesis fun other member =>
      unbroken other (List.mem_cons_of_mem _ member)
    have here := unbroken c List.mem_cons_self
    have other : (c == '\r') = false := by
      refine beq_eq_false_iff_ne.mpr fun same => ?_
      rw [same] at here
      exact absurd here (by decide)
    rw [List.foldr_cons, lineStep, other, here]
    simp only [Bool.false_and, Bool.false_eq_true, if_false, inside, List.cons_append]

/-- A line feed ends a line. -/
theorem splitLines_cons {line : List Char} (unbroken : ∀ c ∈ line, isLineBreak c = false)
    (rest : List Char) : splitLines (line ++ '\n' :: rest) = line :: splitLines rest := by
  have fed : ('\n' :: rest).foldr lineStep (false, []) =
      (true, [] :: (rest.foldr lineStep (false, [])).2) := rfl
  rw [splitLines, List.foldr_append, fed, foldr_lineStep unbroken, List.append_nil]
  rfl

theorem splitLines_last {line : List Char} (unbroken : ∀ c ∈ line, isLineBreak c = false)
    (filled : line ≠ []) : splitLines line = [line] := by
  obtain ⟨front, last, rfl⟩ : ∃ front last, line = front ++ [last] :=
    ⟨line.dropLast, line.getLast filled, (List.dropLast_concat_getLast filled).symm⟩
  have here := unbroken last (List.mem_append_right _ List.mem_cons_self)
  have one : [last].foldr lineStep (false, []) = (false, [[last]]) := by
    rw [List.foldr_cons, List.foldr_nil, lineStep, here]
    simp
  rw [splitLines, List.foldr_append, one,
    foldr_lineStep fun c member => unbroken c (List.mem_append_left _ member)]

/-- Lines that are joined by line feeds come apart again, unless the last one is empty. -/
theorem splitLines_intercalate {lines : List (List Char)} {last : List Char}
    (unbroken : ∀ line ∈ lines ++ [last], ∀ c ∈ line, isLineBreak c = false)
    (filled : last ≠ []) :
    splitLines (['\n'].intercalate (lines ++ [last])) = lines ++ [last] := by
  induction lines with
  | nil =>
    rw [List.nil_append, List.intercalate_singleton]
    exact splitLines_last (unbroken last List.mem_cons_self) filled
  | cons line rest inductionHypothesis =>
    have joined : rest ++ [last] ≠ [] := List.append_ne_nil_of_right_ne_nil _ (List.cons_ne_nil _ _)
    rw [List.cons_append, List.intercalate_cons_of_ne_nil joined, List.append_assoc,
      List.singleton_append, splitLines_cons (unbroken line List.mem_cons_self), inductionHypothesis
      fun other member => unbroken other (List.mem_cons_of_mem _ member)]

/-- Numbers that are put in front of lines come off again. -/
theorem snd_numbered (lines : List (List Char)) :
    (lines.mapIdx fun place line => (place + 1, line)).map Prod.snd = lines := by
  rw [List.mapIdx_eq_zipIdx_map, List.map_map]
  exact List.zipIdx_map_fst 0 _

/-! ### Last lines -/

/-- The text behind the last line break. -/
def lastLine (text : List Char) : List Char :=
  (text.reverse.takeWhile fun c => !isLineBreak c).reverse

theorem lastLine_unbroken (text : List Char) : ∀ c ∈ lastLine text, isLineBreak c = false := by
  intro c member
  have plain := List.all_eq_true.mp List.all_takeWhile c (List.mem_reverse.mp member)
  rwa [Bool.not_eq_true'] at plain

/-- Text in front of which a character does not stand has it as often in its last line. -/
theorem count_lastLine_append {c : Char} {front : List Char} (absent : c ∉ front)
    (text : List Char) : (lastLine (front ++ text)).count c = (lastLine text).count c := by
  unfold lastLine
  rw [List.reverse_append, List.takeWhile_append]
  split
  · rename_i whole
    have same : text.reverse.takeWhile (fun c => !isLineBreak c) = text.reverse :=
      (List.takeWhile_prefix _).eq_of_length whole
    have none : c ∉ (front.reverse.takeWhile fun c => !isLineBreak c) := fun member =>
      absent (List.mem_reverse.mp ((List.takeWhile_sublist _).mem member))
    rw [same, List.count_reverse, List.count_reverse, List.count_append,
      List.count_eq_zero_of_not_mem none, Nat.add_zero]
  · rfl

/-- A text is its last line, or ends with it behind a line break. -/
theorem eq_lastLine_or (text : List Char) :
    text = lastLine text ∨ ∃ front stop, isLineBreak stop = true ∧
      text = front ++ stop :: lastLine text := by
  have split : text = (text.reverse.dropWhile fun c => !isLineBreak c).reverse ++ lastLine text := by
    unfold lastLine
    rw [← List.reverse_append, List.takeWhile_append_dropWhile, List.reverse_reverse]
  cases behind : text.reverse.dropWhile fun c => !isLineBreak c with
  | nil =>
    rw [behind] at split
    exact Or.inl split
  | cons stop front =>
    have breaks : isLineBreak stop = true := by
      have head := List.head?_dropWhile_not (fun c => !isLineBreak c) text.reverse
      rw [behind] at head
      have head : (!isLineBreak stop) = false := head
      rwa [Bool.not_eq_false'] at head
    rw [behind, List.reverse_cons, List.append_assoc] at split
    exact Or.inr ⟨front.reverse, stop, breaks, split⟩

theorem lineStep_append (c : Char) (flag : Bool) {lines : List (List Char)} (filled : lines ≠ [])
    (more : List (List Char)) :
    lineStep c (flag, lines ++ more) =
      ((lineStep c (flag, lines)).1, (lineStep c (flag, lines)).2 ++ more) ∧
      (lineStep c (flag, lines)).2 ≠ [] := by
  cases lines with
  | nil => exact absurd rfl filled
  | cons line rest =>
    unfold lineStep
    split
    · exact ⟨rfl, List.cons_ne_nil _ _⟩
    · split
      · exact ⟨rfl, List.cons_ne_nil _ _⟩
      · exact ⟨rfl, List.cons_ne_nil _ _⟩

/-- Lines behind the open one stay as they are. -/
theorem foldr_lineStep_append (text : List Char) (flag : Bool) {lines : List (List Char)}
    (filled : lines ≠ []) (more : List (List Char)) :
    text.foldr lineStep (flag, lines ++ more) =
      ((text.foldr lineStep (flag, lines)).1, (text.foldr lineStep (flag, lines)).2 ++ more) ∧
      (text.foldr lineStep (flag, lines)).2 ≠ [] := by
  induction text with
  | nil => exact ⟨rfl, filled⟩
  | cons c text inductionHypothesis =>
    rw [List.foldr_cons, List.foldr_cons, inductionHypothesis.1]
    exact lineStep_append c _ inductionHypothesis.2 more

/-- Whatever is behind a line feed starts a line of its own. -/
theorem splitLines_append_feed (front back : List Char) :
    splitLines (front ++ '\n' :: back) = splitLines (front ++ ['\n']) ++ splitLines back := by
  have fed (text : List Char) : ('\n' :: text).foldr lineStep (false, []) =
      (true, [[]] ++ (text.foldr lineStep (false, [])).2) := rfl
  unfold splitLines
  rw [List.foldr_append, List.foldr_append, fed, fed,
    (foldr_lineStep_append front true (List.cons_ne_nil _ _) _).1,
    (foldr_lineStep_append front true (List.cons_ne_nil _ _) _).1, List.foldr_nil, List.append_nil]

/-- A line feed at the end ends the last line, or else adds an empty one. -/
theorem splitLines_feed (text : List Char) :
    splitLines (text ++ ['\n']) = splitLines text ∨
      splitLines (text ++ ['\n']) = splitLines text ++ [[]] := by
  rcases List.eq_nil_or_concat text with rfl | ⟨front, last, rfl⟩
  · exact Or.inr rfl
  · -- Only the last character decides, and before it both go on alike.
    have fed : ['\n'].foldr lineStep (false, []) = (true, [[]]) := rfl
    unfold splitLines
    rw [List.concat_eq_append, List.foldr_append, List.foldr_append, List.foldr_append, fed,
      List.foldr_cons, List.foldr_nil, List.foldr_cons, List.foldr_nil]
    by_cases breaks : isLineBreak last = true
    · by_cases feeds : last = '\r'
      · rw [feeds]
        exact Or.inl rfl
      · have ended : lineStep last (true, [[]]) = (last == '\n', [[]] ++ [[]]) := by
          rw [lineStep, beq_eq_false_iff_ne.mpr feeds, Bool.false_and, if_neg (by decide),
            if_pos breaks]
          rfl
        have started : lineStep last (false, []) = (last == '\n', [[]]) := by
          rw [lineStep, Bool.and_false, if_neg (by decide), if_pos breaks]
        rw [ended, started, (foldr_lineStep_append front _ (List.cons_ne_nil _ _) _).1]
        exact Or.inr rfl
    · have other : (last == '\r') = false := by
        refine beq_eq_false_iff_ne.mpr fun same => breaks ?_
        rw [same]
        decide
      have same : lineStep last (true, [[]]) = lineStep last (false, []) := by
        rw [lineStep, lineStep, other, Bool.false_and, if_neg (by decide), if_neg breaks,
          Bool.false_and, if_neg (by decide), if_neg breaks]
      rw [same]
      exact Or.inl rfl

theorem fst_lineStep {c : Char} (plain : isLineBreak c = false) (state : Bool × List (List Char)) :
    (lineStep c state).1 = false := by
  unfold lineStep
  split
  · rfl
  · rw [if_neg (by rw [plain]; decide)]
    split
    · rfl
    · rfl

/-- A line break starts a line. -/
theorem splitLines_break {stop : Char} (breaks : isLineBreak stop = true) {line : List Char}
    (unbroken : ∀ c ∈ line, isLineBreak c = false) (filled : line ≠ []) (front : List Char) :
    splitLines (front ++ stop :: line) = splitLines (front ++ [stop]) ++ [line] := by
  have begun : line.foldr lineStep (false, []) = (false, [line]) := by
    refine Prod.ext ?_ (splitLines_last unbroken filled)
    obtain ⟨c, rest, rfl⟩ := List.exists_cons_of_ne_nil filled
    exact fst_lineStep (unbroken c List.mem_cons_self) _
  have step (lines : List (List Char)) :
      lineStep stop (false, lines) = (stop == '\n', [[]] ++ lines) := by
    rw [lineStep, Bool.and_false, if_neg (by decide), if_pos breaks]
    rfl
  unfold splitLines
  rw [List.foldr_append, List.foldr_append, List.foldr_cons, List.foldr_cons, begun, List.foldr_nil,
    step, step, (foldr_lineStep_append front _ (List.cons_ne_nil _ _) _).1, List.append_nil]

/-- Text without line breaks joins the last line, which may be yet to start. -/
theorem splitLines_append_unbroken {tail : List Char}
    (unbroken : ∀ c ∈ tail, isLineBreak c = false) (filled : tail ≠ []) (text : List Char) :
    ∃ front, splitLines (text ++ tail) = front ++ [lastLine text ++ tail] ∧
      (splitLines text = front ++ [lastLine text] ∨
        lastLine text = [] ∧ splitLines text = front) := by
  have whole : ∀ c ∈ lastLine text ++ tail, isLineBreak c = false := fun c member =>
    (List.mem_append.mp member).elim (lastLine_unbroken text c) (unbroken c)
  have joined : lastLine text ++ tail ≠ [] := List.append_ne_nil_of_right_ne_nil _ filled
  rcases eq_lastLine_or text with alone | ⟨front, stop, breaks, split⟩
  · refine ⟨[], ?_, ?_⟩
    · rw [← alone] at whole joined ⊢
      exact splitLines_last whole joined
    · by_cases none : lastLine text = []
      · rw [none] at alone
        rw [alone]
        exact Or.inr ⟨rfl, rfl⟩
      · have last := splitLines_last (lastLine_unbroken text) none
        rw [← alone] at last ⊢
        exact Or.inl last
  · refine ⟨splitLines (front ++ [stop]), ?_, ?_⟩
    · have last := splitLines_break breaks whole joined front
      rw [← List.cons_append, ← List.append_assoc, ← split] at last
      exact last
    · by_cases none : lastLine text = []
      · rw [none] at split
        exact Or.inr ⟨none, congrArg splitLines split⟩
      · have last := splitLines_break breaks (lastLine_unbroken text) none front
        rw [← split] at last
        exact Or.inl last

end MapScript.Text
