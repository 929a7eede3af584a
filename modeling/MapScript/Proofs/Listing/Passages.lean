/-
This file extends reading in step from parts of a line to whole lines. A statement fills
the line that was begun for it and may add the lines of its block and labels; the
statements of a block follow each other, each in a line of its own. Where a block ends
is an address, so here the place where reading starts matters, and the depth does too.
-/

import MapScript.Proofs.Listing.Reads

namespace MapScript

/-! ### What a statement adds to a listing -/

/-- What reading adds to a listing: to the line that was begun last a part, and perhaps
the mark of an empty block; then further lines; and addresses that are referred to. -/
structure Passage where
  excerpt : Excerpt
  empty : Bool
  lines : List ListedLine
  landings : List Nat

namespace Passage

/-- A part of a line and nothing else. -/
def part (excerpt : Excerpt) : Passage := ⟨excerpt, false, [], []⟩

/-- Lines of their own, and addresses that they refer to. -/
def whole (lines : List ListedLine) (landings : List Nat) : Passage :=
  ⟨.plain "", false, lines, landings⟩

/-- Lines of their own after a passage. -/
def followedBy (passage : Passage) (lines : List ListedLine) (landings : List Nat) : Passage :=
  { passage with lines := passage.lines ++ lines, landings := passage.landings ++ landings }

end Passage

/-- The labels with further ones. -/
def insertLabels (landings labels : List Nat) : List Nat :=
  landings.foldl (fun labels landing => insertLabel landing labels) labels

theorem insertLabels_append (first second labels : List Nat) :
    insertLabels (first ++ second) labels = insertLabels second (insertLabels first labels) :=
  List.foldl_append

theorem mem_insertLabel {label other : Nat} {labels : List Nat} :
    other ∈ insertLabel label labels ↔ other = label ∨ other ∈ labels := by
  induction labels with
  | nil => simp only [insertLabel, List.mem_singleton, List.not_mem_nil, or_false]
  | cons first rest inductionHypothesis =>
    unfold insertLabel
    split
    · exact List.mem_cons
    · split
      · rename_i same
        rw [same, List.mem_cons, ← or_assoc, or_self]
      · rw [List.mem_cons, inductionHypothesis, List.mem_cons, or_left_comm]

theorem mem_insertLabels {landings labels : List Nat} {label : Nat} :
    label ∈ insertLabels landings labels ↔ label ∈ landings ∨ label ∈ labels := by
  induction landings generalizing labels with
  | nil => simp only [insertLabels, List.foldl_nil, List.not_mem_nil, false_or]
  | cons first rest inductionHypothesis =>
    show label ∈ insertLabels rest (insertLabel first labels) ↔ _
    rw [inductionHypothesis, mem_insertLabel, List.mem_cons, ← or_assoc, or_comm (b := label = first)]

/-- A line with what a passage adds to it. -/
def ListedLine.fill (line : ListedLine) (passage : Passage) : ListedLine :=
  { line.extend passage.excerpt with emptyBlock := passage.empty || line.emptyBlock }

theorem ListedLine.fill_whole (line : ListedLine) (lines : List ListedLine)
    (landings : List Nat) : line.fill (.whole lines landings) = line := by
  rw [fill, Passage.whole, extend_plain_empty]
  rfl

/-- Lines of their own leave the lines before them alone. -/
theorem ListedLine.modifyHead_fill_whole (others lines : List ListedLine) (landings : List Nat) :
    others.modifyHead (·.fill (.whole lines landings)) = others := by
  cases others with
  | nil => rfl
  | cons line others => rw [List.modifyHead_cons, fill_whole]

/-- The state after some bytes were taken and a passage was added. -/
def Scan.passed (scan : Scan) (size : Nat) (passage : Passage) : Scan :=
  { scan with
    rest := scan.rest.drop size
    position := scan.position + size
    lines := passage.lines.reverse ++ scan.lines.modifyHead (·.fill passage)
    labels := insertLabels passage.landings scan.labels }

namespace Decoder

variable {α β : Type} {offset depth : Nat} {bytes : Bytes}

/-- From this place and at this depth, reading takes exactly these bytes, gives this
value and adds this passage. -/
def Fills (decoder : Decoder α) (offset depth : Nat) (bytes : Bytes) (value : α)
    (passage : Passage) : Prop :=
  ∀ scan : Scan, scan.position = offset → scan.depth = depth → bytes <+: scan.rest →
    decoder.result scan = (.ok value, scan.passed bytes.length passage)

namespace Fills

theorem of_reads {decoder : Decoder α} {value : α} {excerpt : Excerpt}
    (reads : Reads decoder bytes value excerpt) :
    Fills decoder offset depth bytes value (.part excerpt) :=
  fun scan _ _ ready => reads scan ready

theorem pure (value : α) : Fills (Pure.pure value) offset depth [] value (.whole [] []) :=
  of_reads (Reads.pure value)

/-- What is left of the bytes after the first of them were taken. -/
theorem prefix_drop {front back rest : Bytes} (ready : front ++ back <+: rest) :
    back <+: rest.drop front.length := by
  obtain ⟨more, rfl⟩ := ready
  rw [List.append_assoc, List.drop_left]
  exact List.prefix_append back more

/-- A reading that stays in the line, before another one. -/
theorem bind {decoder : Decoder α} {continuing : α → Decoder β} {front back : Bytes} {value : α}
    {final : β} {excerpt : Excerpt} {landings : List Nat} {second passage : Passage}
    (one : Fills decoder offset depth front value ⟨excerpt, false, [], landings⟩)
    (two : Fills (continuing value) (offset + front.length) depth back final second)
    (bytesEq : front ++ back = bytes)
    (passageEq : ⟨excerpt ++ second.excerpt, second.empty, second.lines,
      landings ++ second.landings⟩ = passage) :
    Fills (decoder >>= continuing) offset depth bytes final passage := by
  subst bytesEq passageEq
  intro scan there level ready
  rw [result_bind (one scan there level ((List.prefix_append front back).trans ready)),
    two (scan.passed front.length _) (congrArg (· + front.length) there) level
      (prefix_drop ready)]
  have lines : (scan.lines.modifyHead (·.fill ⟨excerpt, false, [], landings⟩)).modifyHead
      (·.fill second) = scan.lines.modifyHead (·.fill ⟨excerpt ++ second.excerpt, second.empty,
        second.lines, landings ++ second.landings⟩) := by
    cases scan.lines with
    | nil => rfl
    | cons line others =>
      simp only [List.modifyHead_cons, ListedLine.fill, ← ListedLine.extend_extend]
      rfl
  simp only [Scan.passed, List.reverse_nil, List.nil_append, lines, List.drop_drop,
    List.length_append, Nat.add_assoc, insertLabels_append]

/-- A reading of a part of the line, before another one. -/
theorem reads_bind {decoder : Decoder α} {continuing : α → Decoder β} {front back : Bytes}
    {value : α} {final : β} {excerpt : Excerpt} {second passage : Passage}
    (one : Reads decoder front value excerpt)
    (two : Fills (continuing value) (offset + front.length) depth back final second)
    (bytesEq : front ++ back = bytes)
    (passageEq : { second with excerpt := excerpt ++ second.excerpt } = passage) :
    Fills (decoder >>= continuing) offset depth bytes final passage :=
  (of_reads one).bind two bytesEq passageEq

/-- A reading that adds nothing, before another one. -/
theorem silent_bind {decoder : Decoder α} {continuing : α → Decoder β} {front back : Bytes}
    {value : α} {final : β} {passage : Passage} (one : Reads decoder front value (.plain ""))
    (two : Fills (continuing value) (offset + front.length) depth back final passage)
    (bytesEq : front ++ back = bytes) :
    Fills (decoder >>= continuing) offset depth bytes final passage :=
  reads_bind one two bytesEq (by rw [Excerpt.plain_empty_append])

/-- A reading of lines of their own, after another one. -/
theorem bind_whole {decoder : Decoder α} {continuing : α → Decoder β} {front back : Bytes}
    {value : α} {final : β} {first : Passage} {lines : List ListedLine} {landings : List Nat}
    (one : Fills decoder offset depth front value first)
    (two : Fills (continuing value) (offset + front.length) depth back final
      (.whole lines landings))
    (bytesEq : front ++ back = bytes) :
    Fills (decoder >>= continuing) offset depth bytes final (first.followedBy lines landings) := by
  subst bytesEq
  intro scan there level ready
  rw [result_bind (one scan there level ((List.prefix_append front back).trans ready)),
    two (scan.passed front.length first) (congrArg (· + front.length) there) level
      (prefix_drop ready)]
  simp only [Scan.passed, ListedLine.modifyHead_fill_whole, List.drop_drop, List.length_append,
    Nat.add_assoc]
  simp only [Passage.whole, Passage.followedBy, List.reverse_append, List.append_assoc,
    insertLabels_append]
  rfl

/-- A reading that is given a value. -/
theorem bind_pure {decoder : Decoder Unit} {passage : Passage}
    (fills : Fills decoder offset depth bytes () passage) (final : β) :
    Fills (decoder >>= fun _ => Pure.pure final) offset depth bytes final passage :=
  fun scan there level ready => result_bind (fills scan there level ready) _

theorem discard {decoder : Decoder α} {value : α} {passage : Passage}
    (fills : Fills decoder offset depth bytes value passage) :
    Fills (Functor.discard decoder) offset depth bytes () passage :=
  fun scan there level ready => result_discard (fills scan there level ready)

/-- The place of the next byte is the one where reading starts. -/
theorem position_bind {continuing : Nat → Decoder α} {value : α} {passage : Passage}
    (fills : Fills (continuing offset) offset depth bytes value passage) :
    Fills (Decoder.position >>= continuing) offset depth bytes value passage := by
  intro scan there level ready
  rw [result_bind (result_position scan) continuing, there]
  exact fills scan there level ready

/-- A label that is referred to. -/
theorem emitLabel (address : Nat) :
    Fills (Decoder.emitLabel address) offset depth [] ()
      ⟨.plain (labelText address), false, [], [address]⟩ := by
  intro scan there level _
  have recorded : Fills (modify fun scan : Scan =>
      { scan with labels := insertLabel address scan.labels } : Decoder Unit) offset depth [] ()
      ⟨.plain "", false, [], [address]⟩ := by
    intro scan _ _ _
    have kept := congrArg Scan.lines scan.after_zero
    rw [result_modify]
    exact congrArg (fun lines => (Except.ok (), { scan with
      lines := lines, labels := insertLabel address scan.labels })) kept.symm
  exact recorded.bind (of_reads (Reads.emit (labelText address))) rfl
    (by rw [Passage.part, Excerpt.plain_empty_append]; rfl) scan there level
    (List.nil_prefix)

/-- A statement in a line of its own. -/
theorem beginLine_bind {decoder : Decoder α} {value : α} {passage : Passage}
    (fills : Fills decoder offset depth bytes value passage) :
    Fills (Decoder.beginLine >>= fun _ => decoder) offset depth bytes value
      (.whole ((ListedLine.start offset depth).fill passage :: passage.lines)
        passage.landings) := by
  intro scan there level ready
  have begun : Decoder.beginLine.result scan =
      (.ok (), { scan with lines := .start scan.position scan.depth :: scan.lines }) := rfl
  rw [result_bind begun,
    fills { scan with lines := .start scan.position scan.depth :: scan.lines } there level ready]
  simp only [Scan.passed, ListedLine.modifyHead_fill_whole, there, level, List.modifyHead_cons]
  simp only [Passage.whole, List.reverse_cons, List.append_assoc, List.singleton_append]

/-- A reading inside a block. -/
theorem deeper {decoder : Decoder Unit} {passage : Passage}
    (fills : Fills decoder offset (depth + 1) bytes () passage) :
    Fills (do
      modify fun scan : Scan => { scan with depth := scan.depth + 1 }
      decoder
      modify fun scan : Scan => { scan with depth := scan.depth - 1 } : Decoder Unit)
      offset depth bytes () passage := by
  intro scan there level ready
  rw [result_bind (result_modify _ scan),
    result_bind (fills { scan with depth := scan.depth + 1 } there
      (congrArg (· + 1) level) ready), result_modify]
  rfl

/-- The mark of an empty block. -/
theorem markEmpty :
    Fills (Decoder.changeLine fun line => { line with emptyBlock := true }) offset depth [] ()
      ⟨.plain "", true, [], []⟩ := by
  intro scan _ _ _
  obtain ⟨rest, position, level, lines, labels, notices⟩ := scan
  cases lines with
  | nil => rfl
  | cons line others =>
    show (Except.ok (), Scan.mk rest position level ({ line with emptyBlock := true } :: others)
      labels notices) = _
    simp only [Scan.passed, List.modifyHead_cons, ListedLine.fill, ListedLine.extend_plain_empty]
    rfl

end Fills

end Decoder

end MapScript
