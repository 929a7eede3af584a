/-
This file proves that a comment behind a line leaves no trace in the cleaned line, whatever
the line holds. The comment may hold anything if the quotes of the line are paired; if the
line leaves a quote open, a quote in the comment would close it and the slashes would stand
in quoted text. Cutting a comment off also drops the blanks in front of it, and the other
passes of the cleaning make nothing of blanks at the end of a line.
-/

import MapScript.Proofs.Script.Cleaned
import MapScript.Proofs.Script.Unbroken

namespace MapScript

/-! ### Lines and their quotes -/

/-- A line holds at most one quote, or it is a line behind a quoted part. -/
@[elab_as_elim]
theorem quotes_induction {property : List Char → Prop} (line : List Char)
    (few : ∀ text, text.count '"' ≤ 1 → property text)
    (quoted : ∀ plain inside rest, '"' ∉ plain → '"' ∉ inside → property rest →
      property (plain ++ '"' :: inside ++ '"' :: rest)) : property line := by
  obtain ⟨size, length⟩ : ∃ size, line.length ≤ size := ⟨_, Nat.le_refl _⟩
  induction size generalizing line with
  | zero =>
    rw [List.length_eq_zero_iff.mp (Nat.le_zero.mp length)]
    exact few [] (Nat.zero_le _)
  | succ size inductionHypothesis =>
    by_cases little : line.count '"' ≤ 1
    · exact few line little
    · obtain ⟨plain, behind, rfl, noQuote⟩ :=
        List.eq_append_cons_of_mem (List.count_pos_iff.mp (by omega : 0 < line.count '"'))
      rw [List.count_append, List.count_cons_self, List.count_eq_zero_of_not_mem noQuote] at little
      obtain ⟨inside, rest, rfl, noneInside⟩ :=
        List.eq_append_cons_of_mem (List.count_pos_iff.mp (by omega : 0 < behind.count '"'))
      simp only [List.length_append, List.length_cons] at length
      have whole := quoted plain inside rest noQuote noneInside
        (inductionHypothesis rest (by omega))
      rwa [List.append_assoc, List.cons_append] at whole

namespace Quotation

theorem ofLine_few {line : List Char} (few : line.count '"' ≤ 1) : ofLine line = ⟨line, []⟩ := by
  by_cases quote : '"' ∈ line
  · obtain ⟨plain, rest, rfl, absent⟩ := List.eq_append_cons_of_mem quote
    have none : '"' ∉ rest := by
      rw [List.count_append, List.count_cons_self] at few
      exact List.count_eq_zero.mp (by omega)
    rw [ofLine, Text.splitOn_append absent, Text.splitOn_cons_self, Text.splitOn_of_not_mem none]
    simp only [List.modifyHead_cons, List.append_nil, ofPieces]
  · rw [ofLine, Text.splitOn_of_not_mem quote]
    rfl

theorem ofLine_behind {plain inside : List Char} (noQuote : '"' ∉ plain) (noneInside : '"' ∉ inside)
    (rest : List Char) :
    ofLine (plain ++ '"' :: inside ++ '"' :: rest) =
      ⟨plain, (inside, (ofLine rest).lead) :: (ofLine rest).quotes⟩ := by
  rw [List.append_assoc, ofLine_append noQuote, ofLine_quoted noneInside, List.append_nil]

/-! ### Changes of plain text -/

/-- Changes the plain text of a line. -/
def rewrite (change : List Char → Except Fault (List Char)) (line : List Char) :
    Except Fault (List Char) := do
  let changed ← (ofLine line).mapPlainM change
  pure changed.join

variable {change : List Char → Except Fault (List Char)}

theorem rewrite_few {line : List Char} (few : line.count '"' ≤ 1) :
    rewrite change line = change line := by
  rw [rewrite, ofLine_few few, mapPlainM]
  cases change line with
  | error fault => rfl
  | ok changed => exact congrArg Except.ok (List.append_nil changed)

theorem rewrite_behind {plain inside : List Char} (noQuote : '"' ∉ plain)
    (noneInside : '"' ∉ inside) (rest : List Char) :
    rewrite change (plain ++ '"' :: inside ++ '"' :: rest) = (do
      let front ← change plain
      let back ← rewrite change rest
      pure (front ++ '"' :: inside ++ '"' :: back)) := by
  rw [rewrite, ofLine_behind noQuote noneInside, rewrite, mapPlainM, mapPlainM]
  simp only [List.mapM_cons]
  cases change plain with
  | error fault => rfl
  | ok front =>
    cases change (ofLine rest).lead with
    | error fault => rfl
    | ok lead =>
      simp only [ok_bind]
      generalize List.mapM (m := Except Fault) _ (ofLine rest).quotes = changed
      cases changed with
      | error fault => rfl
      | ok quotes =>
        refine congrArg Except.ok ?_
        simp only [join, List.flatMap_cons, List.append_assoc, List.cons_append]

theorem rewrite_ok (change : List Char → List Char) (line : List Char) :
    rewrite (fun text => .ok (change text)) line = .ok ((ofLine line).mapPlain change).join := by
  have quotes : (ofLine line).quotes.mapM (fun quote => do
        let changed ← (.ok (change quote.2) : Except Fault (List Char))
        pure (quote.1, changed)) =
      .ok ((ofLine line).quotes.map fun quote => (quote.1, change quote.2)) :=
    mapM_eq_ok_of_forall _ fun _ _ => rfl
  exact congrArg (fun attempt : Except Fault (List (List Char × List Char)) => (do
    let changed ← attempt >>= fun quotes => pure (⟨change (ofLine line).lead, quotes⟩ : Quotation)
    pure changed.join)) quotes

end Quotation

/-! ### Blanks at the end -/

/-- A change of text to which a character at the end means nothing: it is kept or goes. -/
def PassesOver (c : Char) (change : List Char → Except Fault (List Char)) : Prop :=
  ∀ text, ∃ kept, (kept = [] ∨ kept = [c]) ∧ change (text ++ [c]) = (change text).map (· ++ kept)

namespace PassesOver

variable {c : Char} {change next : List Char → Except Fault (List Char)}

/-- One change after another. -/
theorem bind (first : PassesOver c change) (second : PassesOver c next) :
    PassesOver c fun text => change text >>= next := by
  intro text
  obtain ⟨kept, which, same⟩ := first text
  dsimp only
  rw [same]
  cases change text with
  | error fault => exact ⟨[], Or.inl rfl, rfl⟩
  | ok found =>
    show ∃ kept', _ ∧ next (found ++ kept) = (next found).map _
    rcases which with rfl | rfl
    · refine ⟨[], Or.inl rfl, ?_⟩
      rw [List.append_nil]
      cases next found with
      | error fault => rfl
      | ok last => exact congrArg Except.ok (List.append_nil last).symm
    · exact second found

/-- A change of the plain text of a line. -/
theorem rewrite (notQuote : c ≠ '"') (passes : PassesOver c change) :
    PassesOver c (Quotation.rewrite change) := by
  intro line
  induction line using quotes_induction with
  | few text few =>
    have still : (text ++ [c]).count '"' ≤ 1 := by
      rw [List.count_append, List.count_singleton, beq_eq_false_iff_ne.mpr notQuote]
      exact few
    rw [Quotation.rewrite_few few, Quotation.rewrite_few still]
    exact passes text
  | quoted plain inside rest noQuote noneInside inductionHypothesis =>
    obtain ⟨kept, which, same⟩ := inductionHypothesis
    refine ⟨kept, which, ?_⟩
    rw [List.append_assoc _ _ [c], List.cons_append, Quotation.rewrite_behind noQuote noneInside,
      Quotation.rewrite_behind noQuote noneInside, same]
    cases change plain with
    | error fault => rfl
    | ok front =>
      cases Quotation.rewrite change rest with
      | error fault => rfl
      | ok back =>
        refine congrArg Except.ok ?_
        simp only [List.append_assoc, List.cons_append]

theorem tightenCommas (blank : Text.isBlank c = true) :
    PassesOver c fun text => .ok (MapScript.tightenCommas text) := by
  suffices tightened : ∀ flag text, ∃ kept, (kept = [] ∨ kept = [c]) ∧
      tightenFrom flag (text ++ [c]) = tightenFrom flag text ++ kept by
    intro text
    obtain ⟨kept, which, same⟩ := tightened false text
    exact ⟨kept, which, congrArg Except.ok same⟩
  intro flag text
  induction text generalizing flag with
  | nil =>
    cases flag with
    | true => exact ⟨[], Or.inl rfl, if_pos blank⟩
    | false => exact ⟨[c], Or.inr rfl, rfl⟩
  | cons d text inductionHypothesis =>
    have keeps := inductionHypothesis (d == ',')
    obtain ⟨kept, which, same⟩ := keeps
    cases flag with
    | false => exact ⟨kept, which, congrArg (d :: ·) same⟩
    | true =>
      rw [List.cons_append, tightenFrom, tightenFrom]
      split
      · exact inductionHypothesis true
      · exact ⟨kept, which, congrArg (d :: ·) same⟩

end PassesOver

/-- A character that is no sign makes no step mark with the one before it. -/
theorem spaceSteps_append_other {c : Char} (notPlus : c ≠ '+') (notMinus : c ≠ '-')
    (text : List Char) : spaceSteps (text ++ [c]) = spaceSteps text ++ [c] := by
  fun_induction spaceSteps text with
  | case1 rest inductionHypothesis =>
    simp only [List.cons_append, spaceSteps, inductionHypothesis]
  | case2 rest inductionHypothesis =>
    simp only [List.cons_append, spaceSteps, inductionHypothesis]
  | case3 d rest noPlus noMinus inductionHypothesis =>
    have stays {sign : Char} (other : c ≠ sign)
        (alone : ∀ more, d = sign → rest = sign :: more → False) :
        ∀ more, d = sign → rest ++ [c] = sign :: more → False := by
      intro more first second
      cases rest with
      | nil => exact other (List.cons.inj second).1
      | cons e rest => exact alone rest first (congrArg (· :: rest) (List.cons.inj second).1)
    rw [List.cons_append, spaceSteps, inductionHypothesis, List.cons_append]
    · exact stays notPlus noPlus
    · exact stays notMinus noMinus
  | case4 =>
    rw [List.nil_append, spaceSteps]
    · rfl
    · exact fun _ _ second => List.cons_ne_nil _ _ second.symm
    · exact fun _ _ second => List.cons_ne_nil _ _ second.symm

theorem PassesOver.spaceSteps {c : Char} (notPlus : c ≠ '+') (notMinus : c ≠ '-') :
    PassesOver c fun text => .ok (MapScript.spaceSteps text) :=
  fun text => ⟨[c], Or.inr rfl, congrArg Except.ok (spaceSteps_append_other notPlus notMinus text)⟩

/-- Whether a character may stand in a name in brackets. -/
def isBracketless (c : Char) : Bool :=
  c != '<' && c != '>'

theorem bracketName?_of_all {text : List Char} (all : ∀ c ∈ text, isBracketless c = true) :
    bracketName? text = none := by
  have name : text.takeWhile (fun c => c != '<' && c != '>') = text := by
    have whole := @List.takeWhile_append_of_pos _ isBracketless _ [] all
    rwa [List.append_nil, List.takeWhile_nil, List.append_nil] at whole
  simp only [bracketName?, name, List.drop_length, List.head?_nil]
  split
  · rfl
  · rfl

/-- A name in brackets ends at the first bracket, whatever comes behind it. -/
theorem bracketName?_of_stop {name : List Char} (all : ∀ c ∈ name, isBracketless c = true)
    {stop : Char} (stops : isBracketless stop = false) (rest : List Char) :
    bracketName? (name ++ stop :: rest) = bracketName? (name ++ [stop]) := by
  have taken (more : List Char) :
      (name ++ stop :: more).takeWhile (fun c => c != '<' && c != '>') = name := by
    have front := @List.takeWhile_append_of_pos _ isBracketless _ (stop :: more) all
    rw [List.takeWhile_cons, stops] at front
    exact front.trans (List.append_nil name)
  simp only [bracketName?, taken, List.drop_left, List.head?_cons]

/-- Without a bracket at the end the names in brackets stay. -/
theorem bracketName?_append {c : Char} (plain : isBracketless c = true) (text : List Char) :
    bracketName? (text ++ [c]) = bracketName? text := by
  have split := @List.takeWhile_append_dropWhile _ isBracketless text
  have inside : ∀ d ∈ text.takeWhile isBracketless, isBracketless d = true :=
    List.all_eq_true.mp List.all_takeWhile
  cases behind : text.dropWhile isBracketless with
  | nil =>
    rw [behind, List.append_nil] at split
    rw [split] at inside
    rw [bracketName?_of_all inside, bracketName?_of_all]
    intro d member
    rcases List.mem_append.mp member with before | last
    · exact inside d before
    · rw [List.mem_singleton.mp last]
      exact plain
  | cons stop rest =>
    have stops : isBracketless stop = false := by
      have head := List.head?_dropWhile_not isBracketless text
      rw [behind] at head
      exact head
    rw [← split, behind, List.append_assoc, List.cons_append, bracketName?_of_stop inside stops,
      bracketName?_of_stop inside stops rest]

theorem PassesOver.replaceNames {c : Char} (plain : isBracketless c = true) (symbols : Symbols) :
    PassesOver c (MapScript.replaceNames symbols · 0) := by
  suffices replaced : ∀ text passed, ∃ kept, (kept = [] ∨ kept = [c]) ∧
      MapScript.replaceNames symbols (text ++ [c]) passed =
        (MapScript.replaceNames symbols text passed).map (· ++ kept) from
    fun text => replaced text 0
  intro text passed
  induction text generalizing passed with
  | nil =>
    cases passed with
    | zero =>
      have other : c ≠ '<' := by
        rintro rfl
        exact absurd plain (by decide)
      exact ⟨[c], Or.inr rfl, Piece.replaceNames_cons (fun same => absurd same other) symbols⟩
    | succ passed => exact ⟨[], Or.inl rfl, rfl⟩
  | cons d rest inductionHypothesis =>
    cases passed with
    | succ passed => exact inductionHypothesis passed
    | zero =>
      rw [List.cons_append, MapScript.replaceNames, MapScript.replaceNames,
        bracketName?_append plain]
      split
      · rename_i name _
        obtain ⟨kept, which, same⟩ := inductionHypothesis (name.length + 1)
        refine ⟨kept, which, ?_⟩
        rw [same]
        cases nameNumber symbols name with
        | error fault => rfl
        | ok number =>
          cases MapScript.replaceNames symbols rest (name.length + 1) with
          | error fault => rfl
          | ok tail => exact congrArg Except.ok (List.append_assoc number tail kept).symm
      · obtain ⟨kept, which, same⟩ := inductionHypothesis 0
        refine ⟨kept, which, ?_⟩
        rw [same]
        cases MapScript.replaceNames symbols rest 0 with
        | error fault => rfl
        | ok tail => rfl

/-! ### Cleaning behind comments -/

/-- The changes of the plain text of a line. -/
def rewritten (symbols : Symbols) (bare : List Char) : Except Fault (List Char) := do
  let tight ← Quotation.rewrite (fun text => .ok (tightenCommas text)) bare
  let spaced ← Quotation.rewrite (fun text => .ok (spaceSteps text)) tight
  Quotation.rewrite (replaceNames symbols · 0) spaced

/-- What is done to a line once its comment is gone. -/
def polish (symbols : Symbols) (bare : List Char) : Except Fault (List Char) :=
  (rewritten symbols bare).map Text.trim

theorem cleanLine_eq_polish (symbols : Symbols) (line : List Char) :
    cleanLine symbols line = polish symbols (stripComment line) := by
  unfold cleanLine polish rewritten
  simp only [Quotation.rewrite_ok, ok_bind]
  unfold Quotation.rewrite
  generalize Quotation.mapPlainM _ _ = named
  cases named with
  | error fault => rfl
  | ok named => rfl

theorem ne_of_isBlank {c mark : Char} (blank : Text.isBlank c = true)
    (full : Text.isBlank mark = false) : c ≠ mark := by
  rintro rfl
  rw [full] at blank
  cases blank

theorem trim_append_blank {c : Char} (blank : Text.isBlank c = true) (text : List Char) :
    Text.trim (text ++ [c]) = Text.trim text := by
  unfold Text.trim Text.trimStart
  rw [List.dropWhile_append]
  split
  · rename_i none
    rw [List.isEmpty_iff.mp none, List.dropWhile_cons, if_pos blank]
    rfl
  · exact Piece.trimEnd_append_blank blank _

/-- A blank at the end of a line goes. -/
theorem polish_append_blank {c : Char} (blank : Text.isBlank c = true) (symbols : Symbols)
    (bare : List Char) : polish symbols (bare ++ [c]) = polish symbols bare := by
  have notQuote : c ≠ '"' := ne_of_isBlank blank (by decide)
  have plain : isBracketless c = true := by
    simp [isBracketless, ne_of_isBlank blank (by decide : Text.isBlank '<' = false),
      ne_of_isBlank blank (by decide : Text.isBlank '>' = false)]
  have tightens := PassesOver.rewrite notQuote (.tightenCommas blank)
  have spaces := PassesOver.rewrite notQuote (.spaceSteps (ne_of_isBlank blank (by decide))
    (ne_of_isBlank blank (by decide)))
  have names := PassesOver.rewrite notQuote (.replaceNames plain symbols)
  have passes : PassesOver c (rewritten symbols) := tightens.bind (spaces.bind names)
  obtain ⟨kept, which, same⟩ := passes bare
  unfold polish
  rw [same]
  cases rewritten symbols bare with
  | error fault => rfl
  | ok named =>
    refine congrArg Except.ok ?_
    rcases which with rfl | rfl
    · exact congrArg Text.trim (List.append_nil named)
    · exact trim_append_blank blank named

/-- What trimming takes away at the end of a text is blanks. -/
theorem exists_blanks_behind (text : List Char) :
    ∃ blanks, (∀ c ∈ blanks, Text.isBlank c = true) ∧ Text.trimEnd text ++ blanks = text := by
  refine ⟨(text.reverse.takeWhile Text.isBlank).reverse, fun c member => ?_, ?_⟩
  · exact List.all_eq_true.mp List.all_takeWhile c (List.mem_reverse.mp member)
  · unfold Text.trimEnd
    rw [← List.reverse_append, List.takeWhile_append_dropWhile, List.reverse_reverse]

theorem polish_trimEnd (symbols : Symbols) (bare : List Char) :
    polish symbols (Text.trimEnd bare) = polish symbols bare := by
  have blanks : ∀ (blanks front : List Char), (∀ c ∈ blanks, Text.isBlank c = true) →
      polish symbols (front ++ blanks) = polish symbols front := by
    intro blanks
    induction blanks with
    | nil =>
      intro front _
      rw [List.append_nil]
    | cons c rest inductionHypothesis =>
      intro front all
      have step := inductionHypothesis (front ++ [c])
        fun other member => all other (List.mem_cons_of_mem _ member)
      rw [List.append_assoc, List.singleton_append] at step
      rw [step, polish_append_blank (all c List.mem_cons_self)]
  obtain ⟨behind, all, split⟩ := exists_blanks_behind bare
  have whole := blanks behind (Text.trimEnd bare) all
  rw [split] at whole
  exact whole.symm

/-! ### Comments -/

/-- The text of a line before its comment, if it has one. -/
def uncommented? (line : List Char) : Option (List Char) :=
  beforeComment? (Quotation.ofLine line).lead (Quotation.ofLine line).quotes

/-- Slashes behind a blank are found, unless there are others before. -/
theorem beforeSlashes?_append_slashes (text rest : List Char) :
    beforeSlashes? (text ++ ' ' :: '/' :: '/' :: rest) =
      some ((beforeSlashes? text).getD (text ++ [' '])) := by
  fun_induction beforeSlashes? text with
  | case1 more => rfl
  | case2 c more noSlashes inductionHypothesis =>
    have stays : ¬(c = '/' ∧ (more ++ ' ' :: '/' :: '/' :: rest).head? = some '/') := by
      rintro ⟨first, second⟩
      cases more with
      | nil => cases second
      | cons d more => exact noSlashes more first (congrArg (· :: more) (Option.some.inj second))
    rw [List.cons_append, Piece.beforeSlashes?_cons stays, inductionHypothesis, Option.map_some]
    cases beforeSlashes? more with
    | none => rfl
    | some kept => rfl
  | case3 => rfl

theorem beforeComment?_of_slashes {lead kept : List Char} (found : beforeSlashes? lead = some kept)
    (quotes : List (List Char × List Char)) : beforeComment? lead quotes = some kept := by
  cases quotes with
  | nil => exact found
  | cons quote others => rw [beforeComment?, found]

/-- A comment that is put behind a line is found, unless the line has one already. -/
theorem uncommented?_append {line comment : List Char}
    (paired : '"' ∉ comment ∨ line.count '"' % 2 = 0) :
    uncommented? (line ++ (" // ".toList ++ comment)) =
      some ((uncommented? line).getD (line ++ [' '])) := by
  induction line using quotes_induction with
  | few text few =>
    have alone : uncommented? text = beforeSlashes? text := by
      rw [uncommented?, Quotation.ofLine_few few]
      rfl
    -- Either no quote is open, or none follows that could close it.
    obtain ⟨more, quotes, cut⟩ : ∃ more quotes, Quotation.ofLine (text ++ (" // ".toList ++ comment)) =
        ⟨text ++ ' ' :: '/' :: '/' :: more, quotes⟩ := by
      by_cases quote : '"' ∈ text
      · have positive := List.count_pos_iff.mpr quote
        have absent : '"' ∉ comment := paired.resolve_right (by omega)
        refine ⟨' ' :: comment, [], Quotation.ofLine_few ?_⟩
        rw [List.count_append, List.count_append, List.count_eq_zero_of_not_mem absent]
        exact few
      · have absent : '"' ∉ text ++ [' ', '/', '/'] := by
          simp [quote]
        have cut := Quotation.ofLine_append absent (' ' :: comment)
        rw [List.append_assoc, List.append_assoc] at cut
        exact ⟨_, _, cut⟩
    rw [alone, uncommented?, cut, beforeComment?_of_slashes (beforeSlashes?_append_slashes _ _)]
  | quoted plain inside rest noQuote noneInside inductionHypothesis =>
    have parity : '"' ∉ comment ∨ rest.count '"' % 2 = 0 := by
      refine paired.imp_right fun even => ?_
      simp only [List.count_append, List.count_cons_self, List.count_eq_zero_of_not_mem noQuote,
        List.count_eq_zero_of_not_mem noneInside] at even
      omega
    have others := inductionHypothesis parity
    unfold uncommented? at others ⊢
    rw [List.append_assoc, List.cons_append, Quotation.ofLine_behind noQuote noneInside,
      Quotation.ofLine_behind noQuote noneInside, beforeComment?, beforeComment?, others]
    cases beforeSlashes? plain with
    | some kept => rfl
    | none =>
      cases beforeComment? (Quotation.ofLine rest).lead (Quotation.ofLine rest).quotes with
      | some kept => rfl
      | none =>
        refine congrArg some ?_
        simp only [Option.getD_none, Option.map_none, List.append_assoc, List.cons_append]

/-- A comment leaves no trace in a cleaned line. -/
theorem cleanLine_append_comment (symbols : Symbols) {line comment : List Char}
    (paired : '"' ∉ comment ∨ line.count '"' % 2 = 0) :
    cleanLine symbols (line ++ (" // ".toList ++ comment)) = cleanLine symbols line := by
  have found : beforeComment? _ _ = _ := uncommented?_append paired
  have stripped : stripComment (line ++ (" // ".toList ++ comment)) =
      Text.trimEnd ((uncommented? line).getD (line ++ [' '])) := by
    unfold stripComment
    simp only [found]
  rw [cleanLine_eq_polish, cleanLine_eq_polish, stripped, stripComment]
  unfold uncommented?
  cases beforeComment? (Quotation.ofLine line).lead (Quotation.ofLine line).quotes with
  | some kept => rfl
  | none =>
    rw [Option.getD_none, Piece.trimEnd_append_blank (by decide), polish_trimEnd]

end MapScript
