/-
This file proves that cleaning leaves quoted text alone. The quoted parts of a line are matched
from the left, and a comment opens at the first two slashes that stand in none of them. What is
in front of the comment is kept, so the quoted parts that begin there stay; and no later pass
adds a quote to plain text or takes a pair of quotes apart, so that the parts are matched alike
before and after each of them.
-/

import MapScript.Proofs.Script.Comments

namespace MapScript

/-! ### Quoted parts and comments -/

/-- The quoted parts of a line that was cut at them, each with the place of its first quote; the
line starts at a place. -/
def Quotation.partsFrom (place : Nat) (lead : List Char) :
    List (List Char × List Char) → List (Nat × List Char)
  | [] => []
  | (inside, plain) :: rest =>
    (place + lead.length, inside) :: partsFrom (place + lead.length + inside.length + 2) plain rest

/-- The quoted parts of a line, matched from the left, each with the place of its first quote. -/
def quotedParts (line : List Char) : List (Nat × List Char) :=
  Quotation.partsFrom 0 (Quotation.ofLine line).lead (Quotation.ofLine line).quotes

/-- The quoted parts of a line without their places. -/
def quotedTexts (line : List Char) : List (List Char) :=
  (quotedParts line).map Prod.snd

/-- Two slashes stand at a place of a text. -/
def SlashesAt (text : List Char) (place : Nat) : Prop :=
  text[place]? = some '/' ∧ text[place + 1]? = some '/'

instance (text : List Char) (place : Nat) : Decidable (SlashesAt text place) :=
  inferInstanceAs (Decidable (_ ∧ _))

theorem SlashesAt.lt_length {text : List Char} {place : Nat} (slashes : SlashesAt text place) :
    place + 1 < text.length :=
  (List.getElem?_eq_some_iff.mp slashes.2).1

/-- Two slashes stand at a place of a line that no quoted part takes in. -/
def OpensComment (line : List Char) (place : Nat) : Prop :=
  SlashesAt line place ∧
    ∀ part ∈ quotedParts line, place < part.1 ∨ part.1 + part.2.length + 2 ≤ place

instance (line : List Char) (place : Nat) : Decidable (OpensComment line place) :=
  inferInstanceAs (Decidable (_ ∧ _))

/-- No comment opens in front of a place. -/
def BeforeComment (line : List Char) (place : Nat) : Prop :=
  ∀ earlier < place, ¬OpensComment line earlier

instance (line : List Char) (place : Nat) : Decidable (BeforeComment line place) :=
  inferInstanceAs (Decidable (∀ _ < place, _))

/-- The quoted parts of a line that begin before its comment. -/
def keptParts (line : List Char) : List (Nat × List Char) :=
  (quotedParts line).filter fun part => BeforeComment line part.1

/-! ### Lines behind quoted parts -/

theorem Quotation.partsFrom_add (start place : Nat) (lead : List Char)
    (quotes : List (List Char × List Char)) :
    partsFrom (start + place) lead quotes =
      (partsFrom place lead quotes).map fun part => (start + part.1, part.2) := by
  induction quotes generalizing place lead with
  | nil => rfl
  | cons quote rest inductionHypothesis =>
    obtain ⟨inside, plain⟩ := quote
    rw [partsFrom, partsFrom, List.map_cons, ← inductionHypothesis]
    simp only [Nat.add_assoc]

theorem quotedParts_few {line : List Char} (few : line.count '"' ≤ 1) : quotedParts line = [] := by
  rw [quotedParts, Quotation.ofLine_few few]
  rfl

section Behind

variable {plain inside : List Char} (noQuote : '"' ∉ plain) (noneInside : '"' ∉ inside)
  (rest : List Char)

/-- In front of a quoted part slashes stand where they stand in the plain text. -/
theorem slashesAt_front {place : Nat} (before : place < plain.length) :
    SlashesAt (plain ++ '"' :: inside ++ '"' :: rest) place ↔ SlashesAt plain place := by
  have line : plain ++ '"' :: inside ++ '"' :: rest =
      plain ++ ('"' :: (inside ++ ['"']) ++ rest) := by simp
  unfold SlashesAt
  rw [line, List.getElem?_append_left before]
  refine and_congr_right fun _ => ?_
  by_cases last : place + 1 = plain.length
  · rw [last, List.getElem?_append_right (Nat.le_refl _), Nat.sub_self,
      List.getElem?_eq_none (Nat.le_refl _)]
    exact iff_of_false (fun slash => nomatch Option.some.inj slash) nofun
  · rw [List.getElem?_append_left (by omega)]

/-- Behind a quoted part slashes stand where they stand in the line there. -/
theorem slashesAt_behind (place : Nat) :
    SlashesAt (plain ++ '"' :: inside ++ '"' :: rest) (plain.length + inside.length + 2 + place) ↔
      SlashesAt rest place := by
  have line : plain ++ '"' :: inside ++ '"' :: rest = (plain ++ '"' :: (inside ++ ['"'])) ++ rest :=
    by simp
  have length : (plain ++ '"' :: (inside ++ ['"'])).length = plain.length + inside.length + 2 := by
    simp only [List.length_append, List.length_cons, List.length_nil]
    omega
  have behind (index : Nat) : (plain ++ '"' :: inside ++ '"' :: rest)[plain.length + inside.length +
      2 + index]? = rest[index]? := by
    rw [line, ← length, List.getElem?_append_right (Nat.le_add_right _ _), Nat.add_sub_cancel_left]
  rw [SlashesAt, Nat.add_assoc _ place, behind, behind, SlashesAt]

include noQuote noneInside

theorem quotedParts_behind :
    quotedParts (plain ++ '"' :: inside ++ '"' :: rest) =
      (plain.length, inside) ::
        (quotedParts rest).map fun part => (plain.length + inside.length + 2 + part.1, part.2) := by
  have shifted := Quotation.partsFrom_add (plain.length + inside.length + 2) 0
    (Quotation.ofLine rest).lead (Quotation.ofLine rest).quotes
  rw [quotedParts, Quotation.ofLine_behind noQuote noneInside, Quotation.partsFrom, Nat.zero_add]
  exact congrArg _ shifted

theorem quotedTexts_behind :
    quotedTexts (plain ++ '"' :: inside ++ '"' :: rest) = inside :: quotedTexts rest := by
  rw [quotedTexts, quotedParts_behind noQuote noneInside, List.map_cons, List.map_map]
  rfl

/-- A comment opens in the plain text in front of a quoted part, or in the line behind it. -/
theorem opensComment_behind {place : Nat} :
    OpensComment (plain ++ '"' :: inside ++ '"' :: rest) place ↔
      SlashesAt plain place ∨
        ∃ further, place = plain.length + inside.length + 2 + further ∧
          OpensComment rest further := by
  unfold OpensComment
  rw [quotedParts_behind noQuote noneInside, List.forall_mem_cons, List.forall_mem_map]
  constructor
  · rintro ⟨slashes, before | after, others⟩
    · exact .inl ((slashesAt_front rest before).mp slashes)
    · simp only at after
      obtain ⟨further, rfl⟩ := Nat.exists_eq_add_of_le after
      refine .inr ⟨further, rfl, (slashesAt_behind rest further).mp slashes, fun part member => ?_⟩
      have outside := others part member
      simp only at outside
      omega
  · rintro (slashes | ⟨further, rfl, slashes, others⟩)
    · have before : place < plain.length := Nat.lt_of_succ_lt slashes.lt_length
      refine ⟨(slashesAt_front rest before).mpr slashes, .inl before, fun part _ => .inl ?_⟩
      simp only
      omega
    · refine ⟨(slashesAt_behind rest further).mpr slashes, .inr (Nat.le_add_right _ _),
        fun part member => ?_⟩
      have outside := others part member
      simp only
      omega

/-- Up to a quoted part no comment opens if there are no slashes in front of it. -/
theorem beforeComment_behind (bare : ∀ place, ¬SlashesAt plain place) (place : Nat) :
    BeforeComment (plain ++ '"' :: inside ++ '"' :: rest)
        (plain.length + inside.length + 2 + place) ↔ BeforeComment rest place := by
  unfold BeforeComment
  constructor
  · intro none earlier before opens
    exact none _ (Nat.add_lt_add_left before _)
      ((opensComment_behind noQuote noneInside rest).mpr (.inr ⟨earlier, rfl, opens⟩))
  · intro none earlier before opens
    rcases (opensComment_behind noQuote noneInside rest).mp opens with
      slashes | ⟨further, rfl, there⟩
    · exact bare earlier slashes
    · exact none further (Nat.lt_of_add_lt_add_left before) there

/-- Slashes in front of a quoted part leave none of the parts to the line. -/
theorem keptParts_of_slashesAt {place : Nat} (slashes : SlashesAt plain place) :
    keptParts (plain ++ '"' :: inside ++ '"' :: rest) = [] := by
  have before : place < plain.length := Nat.lt_of_succ_lt slashes.lt_length
  have opens := (opensComment_behind noQuote noneInside rest).mpr (.inl slashes)
  have late : ∀ part ∈ quotedParts (plain ++ '"' :: inside ++ '"' :: rest),
      ¬BeforeComment (plain ++ '"' :: inside ++ '"' :: rest) part.1 := by
    rw [quotedParts_behind noQuote noneInside, List.forall_mem_cons, List.forall_mem_map]
    refine ⟨fun none => none _ before opens, fun part _ none => none _ ?_ opens⟩
    simp only
    omega
  exact List.filter_eq_nil_iff.mpr fun part member none => late part member (of_decide_eq_true none)

/-- If there are no slashes in front of it, a quoted part is kept, and so are those behind it that
the line there keeps. -/
theorem keptParts_behind (bare : ∀ place, ¬SlashesAt plain place) :
    keptParts (plain ++ '"' :: inside ++ '"' :: rest) = (plain.length, inside) ::
      (keptParts rest).map fun part => (plain.length + inside.length + 2 + part.1, part.2) := by
  have first : BeforeComment (plain ++ '"' :: inside ++ '"' :: rest) plain.length := by
    intro earlier before opens
    rcases (opensComment_behind noQuote noneInside rest).mp opens with slashes | ⟨_, rfl, -⟩
    · exact bare earlier slashes
    · omega
  rw [keptParts, quotedParts_behind noQuote noneInside, List.filter_cons,
    if_pos (decide_eq_true first), List.filter_map]
  refine congrArg _ (congrArg _ (List.filter_congr fun part _ => ?_))
  exact decide_eq_decide.mpr (beforeComment_behind noQuote noneInside rest bare part.1)

end Behind

theorem opensComment_few {line : List Char} (few : line.count '"' ≤ 1) {place : Nat} :
    OpensComment line place ↔ SlashesAt line place := by
  rw [OpensComment, quotedParts_few few]
  exact and_iff_left (List.forall_mem_nil _)

/-! ### What stands in front of a comment -/

/-- The text before the first slashes is a beginning of the text, and behind it slashes stand. -/
theorem slashesAt_of_beforeSlashes? {text kept : List Char}
    (found : beforeSlashes? text = some kept) : kept <+: text ∧ SlashesAt text kept.length := by
  fun_induction beforeSlashes? text generalizing kept with
  | case1 rest =>
    cases found
    exact ⟨List.nil_prefix, rfl, rfl⟩
  | case2 c rest noSlashes inductionHypothesis =>
    obtain ⟨tail, inRest, rfl⟩ := Option.map_eq_some_iff.mp found
    obtain ⟨front, slashes⟩ := inductionHypothesis inRest
    exact ⟨List.cons_prefix_cons.mpr ⟨rfl, front⟩, slashes⟩
  | case3 => cases found

theorem not_slashesAt_of_beforeSlashes? {text : List Char} (none : beforeSlashes? text = none)
    (place : Nat) : ¬SlashesAt text place := by
  fun_induction beforeSlashes? text generalizing place with
  | case1 rest => cases none
  | case2 c rest noSlashes inductionHypothesis =>
    rw [Option.map_eq_none_iff] at none
    cases place with
    | zero =>
      rintro ⟨first, second⟩
      cases first
      cases rest with
      | nil => cases second
      | cons d rest =>
        cases second
        exact noSlashes rest rfl rfl
    | succ place => exact inductionHypothesis none place
  | case3 =>
    rintro ⟨first, -⟩
    cases first

/-- A line is cut off only where a comment opens. -/
theorem uncommented?_eq_none {line : List Char} (unopened : ∀ place, ¬OpensComment line place) :
    uncommented? line = none := by
  induction line using quotes_induction with
  | few text few =>
    rw [uncommented?, Quotation.ofLine_few few]
    show beforeSlashes? text = none
    cases found : beforeSlashes? text with
    | none => rfl
    | some kept =>
      exact absurd ((opensComment_few few).mpr (slashesAt_of_beforeSlashes? found).2) (unopened _)
  | quoted plain inside rest noQuote noneInside inductionHypothesis =>
    have bare : beforeSlashes? plain = none := by
      cases found : beforeSlashes? plain with
      | none => rfl
      | some kept =>
        exact absurd ((opensComment_behind noQuote noneInside rest).mpr
          (.inl (slashesAt_of_beforeSlashes? found).2)) (unopened _)
    have others := inductionHypothesis fun place opens =>
      unopened _ ((opensComment_behind noQuote noneInside rest).mpr (.inr ⟨place, rfl, opens⟩))
    rw [uncommented?, Quotation.ofLine_behind noQuote noneInside, beforeComment?, bare]
    exact Option.map_eq_none_iff.mpr others

/-- What is kept of a line has the quoted parts that begin before the comment. -/
theorem quotedTexts_uncommented? (line : List Char) :
    quotedTexts ((uncommented? line).getD line) = (keptParts line).map Prod.snd := by
  induction line using quotes_induction with
  | few text few =>
    have kept : ((uncommented? text).getD text).count '"' ≤ 1 := by
      rw [uncommented?, Quotation.ofLine_few few]
      show ((beforeSlashes? text).getD text).count '"' ≤ 1
      cases found : beforeSlashes? text with
      | none => exact few
      | some kept =>
        exact Nat.le_trans ((slashesAt_of_beforeSlashes? found).1.sublist.count_le _) few
    rw [quotedTexts, quotedParts_few kept, keptParts, quotedParts_few few]
    rfl
  | quoted plain inside rest noQuote noneInside inductionHypothesis =>
    rw [uncommented?, Quotation.ofLine_behind noQuote noneInside, beforeComment?]
    cases found : beforeSlashes? plain with
    | some kept =>
      obtain ⟨front, slashes⟩ := slashesAt_of_beforeSlashes? found
      have few : kept.count '"' ≤ 1 := by
        rw [List.count_eq_zero_of_not_mem fun member => noQuote (front.subset member)]
        exact Nat.zero_le 1
      rw [keptParts_of_slashesAt noQuote noneInside rest slashes, Option.getD_some, quotedTexts,
        quotedParts_few few]
    | none =>
      have bare := not_slashesAt_of_beforeSlashes? found
      have whole : ((uncommented? rest).map fun kept => plain ++ '"' :: inside ++ '"' :: kept).getD
          (plain ++ '"' :: inside ++ '"' :: rest) =
          plain ++ '"' :: inside ++ '"' :: (uncommented? rest).getD rest := by
        cases uncommented? rest <;> rfl
      show quotedTexts (((uncommented? rest).map _).getD _) = _
      rw [whole, quotedTexts_behind noQuote noneInside, inductionHypothesis,
        keptParts_behind noQuote noneInside rest bare, List.map_cons, List.map_map]
      rfl

/-! ### Blanks around a line -/

theorem quotedTexts_eq (line : List Char) :
    quotedTexts line = (Quotation.ofLine line).quotes.map Prod.fst := by
  suffices parts : ∀ place lead quotes,
      (Quotation.partsFrom place lead quotes).map Prod.snd = quotes.map Prod.fst from parts _ _ _
  intro place lead quotes
  induction quotes generalizing place lead with
  | nil => rfl
  | cons quote rest inductionHypothesis => exact congrArg (quote.1 :: ·) (inductionHypothesis _ _)

/-- Plain text in front of a line. -/
theorem quotedTexts_append_left {text : List Char} (absent : '"' ∉ text) (line : List Char) :
    quotedTexts (text ++ line) = quotedTexts line := by
  rw [quotedTexts_eq, quotedTexts_eq, Quotation.ofLine_append absent]

/-- Plain text behind a line. -/
theorem quotedTexts_append_right {text : List Char} (absent : '"' ∉ text) (line : List Char) :
    quotedTexts (line ++ text) = quotedTexts line := by
  induction line using quotes_induction with
  | few line few =>
    have still : (line ++ text).count '"' ≤ 1 := by
      rw [List.count_append, List.count_eq_zero_of_not_mem absent]
      exact few
    rw [quotedTexts, quotedParts_few still, quotedTexts, quotedParts_few few]
  | quoted plain inside rest noQuote noneInside inductionHypothesis =>
    rw [List.append_assoc _ _ text, List.cons_append, quotedTexts_behind noQuote noneInside,
      quotedTexts_behind noQuote noneInside, inductionHypothesis]

theorem quote_not_mem_blanks {blanks : List Char} (all : ∀ c ∈ blanks, Text.isBlank c = true) :
    '"' ∉ blanks :=
  fun member => absurd (all _ member) (by decide)

theorem quotedTexts_trimEnd (line : List Char) :
    quotedTexts (Text.trimEnd line) = quotedTexts line := by
  obtain ⟨behind, all, split⟩ := exists_blanks_behind line
  have same := quotedTexts_append_right (quote_not_mem_blanks all) (Text.trimEnd line)
  rw [split] at same
  exact same.symm

theorem quotedTexts_trim (line : List Char) : quotedTexts (Text.trim line) = quotedTexts line := by
  have absent : '"' ∉ line.takeWhile Text.isBlank :=
    quote_not_mem_blanks (List.all_eq_true.mp List.all_takeWhile)
  have same := quotedTexts_append_left absent (Text.trimStart line)
  rw [Text.trimStart, List.takeWhile_append_dropWhile] at same
  rw [Text.trim, quotedTexts_trimEnd, same, Text.trimStart]

theorem quotedTexts_stripComment (line : List Char) :
    quotedTexts (stripComment line) = (keptParts line).map Prod.snd := by
  have whole := quotedTexts_uncommented? line
  unfold uncommented? at whole
  unfold stripComment
  dsimp only
  cases found : beforeComment? (Quotation.ofLine line).lead (Quotation.ofLine line).quotes with
  | some kept =>
    rw [found] at whole
    exact (quotedTexts_trimEnd kept).trans whole
  | none =>
    rw [found] at whole
    exact whole

/-! ### Changes of plain text -/

/-- A change of text that adds no quotes. -/
def AddsNoQuote (change : List Char → Except Fault (List Char)) : Prop :=
  ∀ text changed, change text = .ok changed → changed.count '"' ≤ text.count '"'

/-- A change of the plain text of a line leaves its quoted parts alone: plain text between them
gets no quote, and the text behind the last one, which may hold a quote without a partner, gets
no second one. -/
theorem quotedTexts_rewrite {change : List Char → Except Fault (List Char)}
    (adds : AddsNoQuote change) {line changed : List Char}
    (done : Quotation.rewrite change line = .ok changed) :
    quotedTexts changed = quotedTexts line := by
  induction line using quotes_induction generalizing changed with
  | few text few =>
    rw [Quotation.rewrite_few few] at done
    rw [quotedTexts, quotedParts_few (Nat.le_trans (adds text changed done) few), quotedTexts,
      quotedParts_few few]
  | quoted plain inside rest noQuote noneInside inductionHypothesis =>
    rw [Quotation.rewrite_behind noQuote noneInside] at done
    obtain ⟨front, frontOk, done⟩ := bind_eq_ok.mp done
    obtain ⟨back, backOk, done⟩ := bind_eq_ok.mp done
    cases done
    have still : '"' ∉ front := by
      have few := adds plain front frontOk
      rw [List.count_eq_zero_of_not_mem noQuote] at few
      exact List.count_eq_zero.mp (Nat.le_zero.mp few)
    rw [quotedTexts_behind still noneInside, quotedTexts_behind noQuote noneInside,
      inductionHypothesis backOk]

theorem addsNoQuote_tightenCommas : AddsNoQuote fun text => .ok (tightenCommas text) := by
  suffices tightened : ∀ flag text, (tightenFrom flag text).count '"' ≤ text.count '"' by
    intro text _ done
    cases done
    exact tightened false text
  intro flag text
  fun_induction tightenFrom flag text with
  | case1 => exact Nat.le_refl _
  | case2 c rest blank inductionHypothesis =>
    exact Nat.le_trans inductionHypothesis (List.sublist_cons_self c rest |>.count_le _)
  | case3 c rest full inductionHypothesis =>
    rw [List.count_cons, List.count_cons]
    exact Nat.add_le_add_right inductionHypothesis _
  | case4 c rest inductionHypothesis =>
    rw [List.count_cons, List.count_cons]
    exact Nat.add_le_add_right inductionHypothesis _

theorem addsNoQuote_spaceSteps : AddsNoQuote fun text => .ok (spaceSteps text) := by
  suffices spaced : ∀ text, (spaceSteps text).count '"' = text.count '"' by
    intro text _ done
    cases done
    exact Nat.le_of_eq (spaced text)
  intro text
  fun_induction spaceSteps text with
  | case1 rest inductionHypothesis => simpa using inductionHypothesis
  | case2 rest inductionHypothesis => simpa using inductionHypothesis
  | case3 c rest _ _ inductionHypothesis =>
    rw [List.count_cons, List.count_cons, inductionHypothesis]
  | case4 => rfl

theorem count_nameNumber {symbols : Symbols} {name number : List Char}
    (named : nameNumber symbols name = .ok number) : number.count '"' ≤ name.count '"' := by
  have digits (value : Int) : (Text.integer value).count '"' ≤ name.count '"' := by
    rw [List.count_eq_zero_of_not_mem (Text.not_mem_integer (by decide) (by decide) value)]
    exact Nat.zero_le _
  simp only [nameNumber] at named
  split at named
  · cases named
    simp
  · split at named
    · cases named
      exact digits _
    · split at named
      · cases named
        exact digits (Int.ofNat _)
      · exact absurd named fail_ne_ok

theorem bracketName?_prefix {text name : List Char} (found : bracketName? text = some name) :
    name <+: text := by
  simp only [bracketName?] at found
  split at found
  · split at found
    · cases found
      exact List.takeWhile_prefix _
    · cases found
  · cases found

/-- What names in brackets give way to holds no quotes, unless the brackets stay with all that
stands in them. -/
theorem addsNoQuote_replaceNames (symbols : Symbols) :
    AddsNoQuote (replaceNames symbols · 0) := by
  suffices replaced : ∀ text passed changed, replaceNames symbols text passed = .ok changed →
      changed.count '"' ≤ (text.drop passed).count '"' from fun text => replaced text 0
  intro text
  induction text with
  | nil =>
    intro passed changed done
    cases done
    exact Nat.zero_le _
  | cons c rest inductionHypothesis =>
    intro passed changed done
    cases passed with
    | succ passed => exact inductionHypothesis passed changed done
    | zero =>
      rw [replaceNames] at done
      split at done
      · rename_i name found
        obtain ⟨number, numbered, done⟩ := bind_eq_ok.mp done
        obtain ⟨tail, tailOk, done⟩ := bind_eq_ok.mp done
        cases done
        obtain ⟨behind, rfl⟩ : name <+: rest := by
          split at found
          · exact bracketName?_prefix found
          · cases found
        have front := count_nameNumber numbered
        have back := inductionHypothesis (name.length + 1) tail tailOk
        have fewer := (List.drop_sublist 1 behind).count_le '"'
        rw [← List.drop_drop, List.drop_left] at back
        rw [List.drop_zero, List.count_cons, List.count_append, List.count_append]
        omega
      · obtain ⟨tail, tailOk, done⟩ := bind_eq_ok.mp done
        cases done
        have back := inductionHypothesis 0 tail tailOk
        rw [List.drop_zero] at back ⊢
        rw [List.count_cons, List.count_cons]
        exact Nat.add_le_add_right back _

/-! ### Lines -/

/-- A cleaned line has the quoted parts that begin before the comment. -/
theorem quotedTexts_cleanLine {symbols : Symbols} {line cleaned : List Char}
    (done : cleanLine symbols line = .ok cleaned) :
    quotedTexts cleaned = (keptParts line).map Prod.snd := by
  rw [cleanLine_eq_polish] at done
  cases named : rewritten symbols (stripComment line) with
  | error fault =>
    rw [polish, named] at done
    cases done
  | ok text =>
    rw [polish, named] at done
    cases done
    obtain ⟨tight, tightOk, named⟩ := bind_eq_ok.mp named
    obtain ⟨spaced, spacedOk, named⟩ := bind_eq_ok.mp named
    calc quotedTexts (Text.trim text)
      _ = quotedTexts text := quotedTexts_trim text
      _ = quotedTexts spaced := quotedTexts_rewrite (addsNoQuote_replaceNames symbols) named
      _ = quotedTexts tight := quotedTexts_rewrite addsNoQuote_spaceSteps spacedOk
      _ = quotedTexts (stripComment line) := quotedTexts_rewrite addsNoQuote_tightenCommas tightOk
      _ = (keptParts line).map Prod.snd := quotedTexts_stripComment line

/-- A line without breaks is cleaned as one line, or it is empty and as none. -/
theorem cleanText_unbroken {symbols : Symbols} {line : List Char} {lines : List ScriptLine}
    (unbroken : Text.Unbroken line) (cleaned : cleanText symbols line = .ok lines) :
    (line = [] ∧ lines = []) ∨ ∃ text, cleanLine symbols line = .ok text ∧
      lines = [⟨⟨1, String.ofList line⟩, text⟩] := by
  cases line with
  | nil =>
    cases cleaned
    exact .inl ⟨rfl, rfl⟩
  | cons c rest =>
    right
    rw [cleanText, Text.splitLines_last unbroken (List.cons_ne_nil c rest), List.mapIdx_singleton,
      mapM_cons_eq_ok] at cleaned
    obtain ⟨first, others, clean, none, rfl⟩ := cleaned
    cases none
    unfold ScriptLine.clean at clean
    obtain ⟨text, textOk, whole⟩ := bind_eq_ok.mp (locating_eq_ok.mp clean)
    cases whole
    exact ⟨text, textOk, rfl⟩

/-- Cleaning a line leaves its quoted parts alone, those that begin before the comment, and where
no comment opens in a line whose quotes are paired, exactly the comment put behind it goes. -/
theorem cleaning_keepsQuotes :
    (∀ (symbols : Symbols) (line : List Char) (lines : List ScriptLine), Text.Unbroken line →
      cleanText symbols line = .ok lines →
      lines.flatMap (fun cleaned => quotedTexts cleaned.text) = (keptParts line).map Prod.snd) ∧
    (∀ line comment : List Char, line.count '"' % 2 = 0 → (∀ place, ¬OpensComment line place) →
      stripComment (line ++ (" // ".toList ++ comment)) = Text.trimEnd line) := by
  constructor
  · intro symbols line lines unbroken cleaned
    rcases cleanText_unbroken unbroken cleaned with ⟨rfl, rfl⟩ | ⟨text, textOk, rfl⟩
    · rfl
    · rw [List.flatMap_singleton]
      exact quotedTexts_cleanLine textOk
  · intro line comment paired unopened
    have found : beforeComment? (Quotation.ofLine (line ++ (" // ".toList ++ comment))).lead
        (Quotation.ofLine (line ++ (" // ".toList ++ comment))).quotes = _ :=
      uncommented?_append (.inr paired)
    rw [uncommented?_eq_none unopened, Option.getD_none] at found
    unfold stripComment
    simp only [found]
    exact Piece.trimEnd_append_blank (by decide) line

/-- Slashes in quotes open no comment, and a quote in a comment makes no quoted part. -/
theorem cleaning_keepsQuotes_toll :
    ([⟨⟨1, "pay(++, \"a // b\", \"c\") // \"d\""⟩, "pay( ++,\"a // b\",\"c\")".toList⟩] :
        List ScriptLine).flatMap (fun cleaned => quotedTexts cleaned.text) =
      ["a // b".toList, "c".toList] ∧
    stripComment ("say(\"//\") ".toList ++ (" // ".toList ++ "\" // \"".toList)) =
      "say(\"//\")".toList := by
  have slashes : ∀ place, ¬OpensComment "say(\"//\") ".toList place := by
    intro place opens
    have inside := opens.1.lt_length
    have none : ∀ place < "say(\"//\") ".toList.length,
        ¬OpensComment "say(\"//\") ".toList place := by decide
    exact none place (Nat.lt_of_succ_lt inside) opens
  have unbroken : Text.Unbroken "pay(++, \"a // b\", \"c\") // \"d\"".toList :=
    forall_mem_of_all (by decide)
  exact ⟨(cleaning_keepsQuotes.1
      ⟨[], [], [], [], [], .empty, .empty, .empty⟩ _ _ unbroken (by rfl)).trans (by decide),
    cleaning_keepsQuotes.2 _ _ (by decide) slashes⟩

end MapScript
