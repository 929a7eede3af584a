/-
This file proves that only the meaningful lines of a definition file count. The sections are
read one after the other from the same lines, each up to a mark, and no mark is an empty line or
a comment; so what is left for a section, and what is found in it, is the same with and without
the lines that mean nothing. Empty lines, comments and carriage returns at the ends of lines may
therefore be put in and taken out anywhere, and every entry keeps its number.
-/

import Mathlib.Data.List.DropRight
import Mathlib.Logic.Relation
import MapScript.Proofs.Text.Lines
import MapScript.Symbols.Definitions

namespace MapScript

/-! ### Marks -/

section Marks

variable {mark : String} {line : List Char} (lines : List (List Char))

theorem afterMark_cons_self : afterMark mark (mark.toList :: lines) = lines := by
  rw [afterMark, List.dropWhile_cons_of_neg (by simp), List.drop_one, List.tail_cons]

theorem afterMark_cons_other (other : line ≠ mark.toList) :
    afterMark mark (line :: lines) = afterMark mark lines := by
  rw [afterMark, List.dropWhile_cons_of_pos (by simpa using other), afterMark]

theorem beforeMark_cons_self : beforeMark mark (mark.toList :: lines) = [] := by
  rw [beforeMark, List.takeWhile_cons_of_neg (by simp), List.filter_nil]

theorem beforeMark_cons_other (other : line ≠ mark.toList) :
    beforeMark mark (line :: lines) = [line].filter isMeaningful ++ beforeMark mark lines := by
  rw [beforeMark, List.takeWhile_cons_of_pos (by simpa using other), beforeMark,
    ← List.filter_append, List.singleton_append]

/-- A mark that counts is found at the same place among the lines that count. -/
theorem afterMark_filter (counts : isMeaningful mark.toList = true) :
    afterMark mark (lines.filter isMeaningful) = (afterMark mark lines).filter isMeaningful := by
  induction lines with
  | nil => rfl
  | cons line rest inductionHypothesis =>
    by_cases same : line = mark.toList
    · rw [same, List.filter_cons_of_pos counts, afterMark_cons_self, afterMark_cons_self]
    · rw [afterMark_cons_other rest same, ← inductionHypothesis]
      by_cases kept : isMeaningful line = true
      · rw [List.filter_cons_of_pos kept, afterMark_cons_other _ same]
      · rw [List.filter_cons_of_neg kept]

theorem beforeMark_filter (counts : isMeaningful mark.toList = true) :
    beforeMark mark (lines.filter isMeaningful) = beforeMark mark lines := by
  induction lines with
  | nil => rfl
  | cons line rest inductionHypothesis =>
    by_cases same : line = mark.toList
    · rw [same, List.filter_cons_of_pos counts, beforeMark_cons_self, beforeMark_cons_self]
    · rw [beforeMark_cons_other rest same, ← inductionHypothesis]
      by_cases kept : isMeaningful line = true
      · rw [List.filter_cons_of_pos kept, beforeMark_cons_other _ same]
      · rw [List.filter_cons_of_neg kept, List.filter_cons_of_neg kept, List.filter_nil,
          List.nil_append]

end Marks

/-! ### Padding -/

/-- Whether a line means nothing: it is empty or a comment. -/
def IsIdle (line : List Char) : Prop :=
  '\n' ∉ line ∧ (line = [] ∨ ∃ note, line = ';' :: note)

/-- How a text is padded in one place: with a line that means nothing, in front of its first line,
between two lines or behind the last one, or with a carriage return at the end of a line. -/
inductive Padding : List Char → List Char → Prop
  | first {line : List Char} (idle : IsIdle line) (text : List Char) :
    Padding text (line ++ '\n' :: text)
  | between {line : List Char} (idle : IsIdle line) (front back : List Char) :
    Padding (front ++ '\n' :: back) (front ++ '\n' :: (line ++ '\n' :: back))
  | last {line : List Char} (idle : IsIdle line) (text : List Char) :
    Padding text (text ++ '\n' :: line)
  | returned (front back : List Char) :
    Padding (front ++ '\n' :: back) (front ++ '\r' :: '\n' :: back)
  | returnedLast (text : List Char) :
    Padding text (text ++ ['\r'])

namespace Definitions

/-! ### Lines -/

theorem lines_append_feed (front back : List Char) :
    lines (front ++ '\n' :: back) = lines front ++ lines back := by
  rw [lines, Text.splitOn_append_cons_self, List.map_append, lines, lines]

/-- A carriage return at the end of the last line is dropped. -/
theorem lines_append_return (text : List Char) : lines (text ++ ['\r']) = lines text := by
  obtain ⟨front, last, joined⟩ := Text.exists_splitOn_append '\n' text
  have returned := joined ['\r'] (by decide)
  have plain := joined [] List.not_mem_nil
  rw [List.append_nil, List.append_nil] at plain
  rw [lines, lines, returned, plain, List.map_append, List.map_append, List.map_singleton,
    List.map_singleton, ← List.rdropWhile, ← List.rdropWhile,
    List.rdropWhile_concat_pos _ _ _ (by decide)]

/-- The lines of a text that count. -/
def meaningfulLines (text : List Char) : List (List Char) :=
  (lines text).filter isMeaningful

theorem meaningfulLines_append_feed (front back : List Char) :
    meaningfulLines (front ++ '\n' :: back) = meaningfulLines front ++ meaningfulLines back := by
  rw [meaningfulLines, lines_append_feed, List.filter_append, meaningfulLines, meaningfulLines]

theorem meaningfulLines_append_return (text : List Char) :
    meaningfulLines (text ++ ['\r']) = meaningfulLines text := by
  rw [meaningfulLines, lines_append_return, meaningfulLines]

/-- Dropping carriage returns at its end does not make a comment count. -/
theorem meaningfulLines_idle {line : List Char} (idle : IsIdle line) : meaningfulLines line = [] := by
  obtain ⟨unbroken, rfl | ⟨note, rfl⟩⟩ := idle
  · rfl
  · have idle : isMeaningful ((';' :: note).rdropWhile (· == '\r')) = false := by
      have front := List.rdropWhile_prefix (· == '\r') (';' :: note)
      cases kept : (';' :: note).rdropWhile (· == '\r') with
      | nil => rfl
      | cons c rest =>
        rw [kept, List.cons_prefix_cons] at front
        rw [front.1]
        rfl
    rw [meaningfulLines, lines, Text.splitOn_of_not_mem unbroken, List.map_singleton,
      ← List.rdropWhile, List.filter_cons_of_neg (by rw [idle]; decide), List.filter_nil]

/-- Padding leaves the lines that count as they are. -/
theorem meaningfulLines_padding {text padded : List Char} (padding : Padding text padded) :
    meaningfulLines padded = meaningfulLines text := by
  cases padding with
  | first idle => rw [meaningfulLines_append_feed, meaningfulLines_idle idle, List.nil_append]
  | between idle front back =>
    rw [meaningfulLines_append_feed, meaningfulLines_append_feed, meaningfulLines_idle idle,
      List.nil_append, meaningfulLines_append_feed]
  | last idle => rw [meaningfulLines_append_feed, meaningfulLines_idle idle, List.append_nil]
  | returned front back =>
    rw [List.append_cons, meaningfulLines_append_feed, meaningfulLines_append_return,
      meaningfulLines_append_feed]
  | returnedLast => exact meaningfulLines_append_return text

/-- However often a text is padded, and whatever padding is taken out of it. So a comment may also
take the place of the empty line behind a last line feed. -/
theorem meaningfulLines_eqvGen {text other : List Char}
    (padded : Relation.EqvGen Padding text other) :
    meaningfulLines other = meaningfulLines text := by
  induction padded with
  | rel text padded padding => exact meaningfulLines_padding padding
  | refl text => rfl
  | symm text other _ inductionHypothesis => exact inductionHypothesis.symm
  | trans text middle other _ _ first second => exact second.trans first

/-! ### Sections -/

/-- The sections hold the same entries without the lines that mean nothing. -/
theorem ofLines_filter (lines : List (List Char)) :
    ofLines (lines.filter isMeaningful) = ofLines lines := by
  have functions : isMeaningful "[functions]".toList = true := by decide
  have refs : isMeaningful "[refs]".toList = true := by decide
  have equates : isMeaningful "[equates]".toList = true := by decide
  have auto : isMeaningful "auto".toList = true := by decide
  have endauto : isMeaningful "endauto".toList = true := by decide
  have flags : isMeaningful "[flags]".toList = true := by decide
  simp only [ofLines, afterMark_filter _ functions, afterMark_filter _ refs,
    afterMark_filter _ equates, afterMark_filter _ auto, afterMark_filter _ endauto,
    afterMark_filter _ flags, beforeMark_filter _ refs, beforeMark_filter _ equates,
    beforeMark_filter _ endauto, List.filter_filter, Bool.and_self]

theorem parse_eq_ofLines (text : List Char) : parse text = ofLines (meaningfulLines text) :=
  (ofLines_filter (lines text)).symm

/-- A text that is padded in any number of places, or from which padding is taken out, is read
alike: with the same entries under the same numbers and the same notices, or with the same
fault. -/
theorem parse_padded {text other : List Char} (padded : Relation.EqvGen Padding text other) :
    parse other = parse text := by
  rw [parse_eq_ofLines, parse_eq_ofLines, meaningfulLines_eqvGen padded]

/-- A definition file up to its first reference. -/
def coveFront : List Char :=
  "[functions]\ntask Wait params 1\n[refs]\nhealth".toList

/-- The file from its second reference on. -/
def coveBack : List Char :=
  "state\n[equates]\nauto\nGravity\nendauto\n[flags]\nint Rain 0;wet".toList

/-- The file with an empty line in front, a comment that looks like a mark between the references,
one that looks like a flag at the end, and two carriage returns. -/
def covePadded : List Char :=
  '\n' :: (coveFront ++ '\r' :: '\n' :: (";[equates]".toList ++ '\n' :: coveBack) ++ ['\r'] ++
    '\n' :: ";int Fog 1".toList)

/-- The padded file is read as the file without the padding. -/
theorem parse_padded_cove :
    Relation.EqvGen Padding (coveFront ++ '\n' :: coveBack) covePadded ∧
    parse covePadded = parse (coveFront ++ '\n' :: coveBack) ∧
    (parse covePadded).outcome = (.ok {
      functions := [.null, ⟨"Wait", .task, 1⟩]
      references := ["health", "state"]
      attributes := ["Gravity"]
      flags := [⟨"Rain", "int", "0", some "wet"⟩] }, []) := by
  have empty : IsIdle [] := ⟨List.not_mem_nil, Or.inl rfl⟩
  have mark : IsIdle ";[equates]".toList := ⟨by decide, Or.inr ⟨_, rfl⟩⟩
  have flag : IsIdle ";int Fog 1".toList := ⟨by decide, Or.inr ⟨_, rfl⟩⟩
  have steps : Relation.ReflTransGen Padding (coveFront ++ '\n' :: coveBack) covePadded :=
    ((((Relation.ReflTransGen.single (.between mark coveFront coveBack)).tail
      (.returned coveFront _)).tail (.returnedLast _)).tail (.last flag _)).tail (.first empty _)
  have padded := Relation.EqvGen.reflTransGen_le_eqvGen _ _ _ steps
  exact ⟨padded, parse_padded padded, by decide +kernel⟩

end Definitions

end MapScript
