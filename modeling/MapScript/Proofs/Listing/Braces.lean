/-
This file proves that the braces in the text of a listing match the nesting. The text knows
nothing of blocks: braces are put in where the depth of a line differs from that of the line
before it, around blocks without statements, and at the end. Here every line of the text is
kept with what it is for, and the braces are counted. Whatever the code is, as many braces are
open at a statement as it is deep, every closing brace closes the one that was opened at its
level, and the last line closes the last one. What reading adds to this is that the statements
start at depth one and go deeper by one at a time.
-/

import Mathlib.Data.List.Chain
import MapScript.Proofs.Listing.Addresses
import MapScript.Proofs.Listing.Layout

namespace MapScript

/-! ### Lines by what they are for -/

/-- A line of the text of a listing: the title, perhaps with the label where the script
starts, a brace at a level, an empty line, the definition of a label, or a statement. -/
inductive TextLine where
  | title (start : Option Nat)
  | opening (level : Nat)
  | closing (level : Nat)
  | blank
  | label (depth address : Nat)
  | statement (line : ListedLine)
  deriving DecidableEq

namespace TextLine

/-- How a line is written, in the text of a program with a name. -/
def text (name : String) : TextLine → String
  | title none => name
  | title (some start) => name ++ " (Execution starts at " ++ labelText start ++ ")"
  | opening level => Listing.openBrace level
  | closing level => Listing.closeBrace level
  | blank => ""
  | label depth address => Listing.indent depth ++ labelText address ++ ":"
  | statement line => Listing.indent line.depth ++ line.text ++ commentText line.comment

/-- The statement on a line. -/
def statement? : TextLine → Option ListedLine
  | statement line => some line
  | _ => none

/-- What a line does to the number of open braces. -/
def balance : TextLine → Int
  | opening _ => 1
  | closing _ => -1
  | _ => 0

/-- Whether a line may stand where so many braces are open: a statement or a label is as deep
as that, an opening brace opens the next level, and a closing one closes the innermost. -/
def Fits (count : Int) : TextLine → Prop
  | opening level => count = level
  | closing level => count = level + 1
  | label depth _ => count = depth
  | statement line => count = line.depth
  | title _ | blank => True

end TextLine

/-- The number of braces that lines leave open. -/
def openBraces : List TextLine → Int
  | [] => 0
  | line :: rest => line.balance + openBraces rest

@[simp] theorem openBraces_append (front back : List TextLine) :
    openBraces (front ++ back) = openBraces front + openBraces back := by
  induction front with
  | nil => exact (Int.zero_add _).symm
  | cons line rest inductionHypothesis =>
    rw [List.cons_append, openBraces, openBraces, inductionHypothesis, Int.add_assoc]

namespace Listing

/-- The braces between two depths. At most one of the two rows holds any. -/
def sheetBetween (previous next : Nat) : List TextLine :=
  (List.range' previous (next - previous)).map .opening ++
    ((List.range' next (previous - next)).reverse).map .closing

/-- The lines that define the label of an address, if it is referred to. -/
def sheetLabel (labels : List Nat) (depth address : Nat) : List TextLine :=
  if labels.contains address then [.blank, .label depth address] else []

/-- A statement with the lines that define its label. -/
def sheetStatement (labels : List Nat) (line : ListedLine) : List TextLine :=
  sheetLabel labels line.depth line.address ++ [.statement line]

/-- The lines of a statement behind one of the given depth. -/
def sheetLine (labels : List Nat) (previous : Nat) (line : ListedLine) : List TextLine :=
  sheetBetween previous line.depth ++ sheetStatement labels line ++
    if line.emptyBlock then [.opening line.depth, .closing line.depth] else []

/-- The lines of statements behind one of the given depth. -/
def sheetLines (labels : List Nat) : (previous : Nat) → List ListedLine → List TextLine
  | _, [] => []
  | previous, line :: rest => sheetLine labels previous line ++ sheetLines labels line.depth rest

/-- The depth of the last statement, or else the given one. -/
def lastDepth (previous : Nat) (lines : List ListedLine) : Nat :=
  lines.foldl (fun _ line => line.depth) previous

/-- The lines of the text behind the title, but for the last brace. -/
def sheetBody (listing : Listing) (length : Nat) : List TextLine :=
  sheetLines listing.labels 0 listing.lines ++ sheetBetween (lastDepth 0 listing.lines) 1 ++
    sheetLabel listing.labels 1 length

/-- The lines of the text of a listing. -/
def sheet (listing : Listing) (program : Program) : List TextLine :=
  .title (if program.entry = 0 then none else some program.entry) ::
    (listing.sheetBody program.code.length ++ [.closing 0])

/-! ### The lines are those of the text -/

variable (name : String)

theorem text_sheetBetween (previous next : Nat) :
    (sheetBetween previous next).map (TextLine.text name) = bracesBetween previous next := by
  unfold sheetBetween bracesBetween closing
  rw [List.map_append, List.map_map, List.map_map]
  split
  · rename_i deeper
    rw [Nat.sub_eq_zero_of_le (Nat.le_of_lt deeper)]
    exact List.append_nil _
  · rename_i notDeeper
    rw [Nat.sub_eq_zero_of_le (Nat.not_lt.mp notDeeper)]
    rfl

theorem text_sheetLabel (labels : List Nat) (depth address : Nat) :
    (sheetLabel labels depth address).map (TextLine.text name) =
      if labels.contains address then labelLine depth address else [] := by
  unfold sheetLabel
  split
  · rfl
  · rfl

theorem text_sheetLine (labels : List Nat) (previous : Nat) (line : ListedLine) :
    (sheetLine labels previous line).map (TextLine.text name) =
      renderLine labels previous line := by
  unfold sheetLine sheetStatement renderLine
  simp only [List.map_append, text_sheetBetween, text_sheetLabel, List.append_assoc]
  congr 3
  split
  · rfl
  · rfl

theorem renderLines_eq (labels : List Nat) (previous : Nat) (lines : List ListedLine) :
    renderLines labels previous lines =
      ((sheetLines labels previous lines).map (TextLine.text name), lastDepth previous lines) := by
  induction lines generalizing previous with
  | nil => rfl
  | cons line rest inductionHypothesis =>
    rw [renderLines, inductionHypothesis line.depth, sheetLines, List.map_append, text_sheetLine]
    rfl

/-- Behind the last statement, braces lead to depth one, upwards if there was none. -/
theorem text_sheetEnd (labels : List Nat) (length depth : Nat) :
    (sheetBetween depth 1 ++ sheetLabel labels 1 length ++ [TextLine.closing 0]).map
      (TextLine.text name) = renderEnd labels length depth := by
  simp only [List.map_append, text_sheetBetween, text_sheetLabel, renderEnd, List.map_singleton]
  congr 2
  cases depth with
  | zero => rfl
  | succ depth =>
    rw [bracesBetween_of_le (Nat.succ_le_succ (Nat.zero_le depth)), if_neg (Nat.succ_ne_zero _)]
    rfl

theorem render_eq_sheet (listing : Listing) (program : Program) :
    listing.render program = (listing.sheet program).map (TextLine.text program.name) := by
  unfold render sheet sheetBody
  rw [renderLines_eq program.name]
  simp only [List.append_assoc, List.map_cons, List.map_append]
  rw [← text_sheetEnd program.name]
  simp only [List.append_assoc, List.map_append, List.cons_append]
  congr 1
  unfold titleLine
  split
  · rfl
  · rfl

end Listing

/-! ### Lines that fit -/

/-- Every line fits where it stands, behind so many open braces, and leaves one open. -/
def FitFrom : (count : Int) → List TextLine → Prop
  | _, [] => True
  | count, line :: rest =>
    (line.Fits count ∧ 1 ≤ count + line.balance) ∧ FitFrom (count + line.balance) rest

theorem fitFrom_append {count : Int} {front back : List TextLine} :
    FitFrom count (front ++ back) ↔
      FitFrom count front ∧ FitFrom (count + openBraces front) back := by
  induction front generalizing count with
  | nil =>
    rw [List.nil_append, openBraces, Int.add_zero]
    exact ⟨fun fit => ⟨trivial, fit⟩, And.right⟩
  | cons line rest inductionHypothesis =>
    rw [List.cons_append, FitFrom, FitFrom, inductionHypothesis, openBraces, Int.add_assoc]
    exact and_assoc.symm

theorem FitFrom.fits {count : Int} {before after : List TextLine} {line : TextLine}
    (fit : FitFrom count (before ++ line :: after)) : line.Fits (count + openBraces before) :=
  (fitFrom_append.mp fit).2.1.1

theorem FitFrom.one_le {count : Int} {lines : List TextLine} (fit : FitFrom count lines)
    (filled : lines ≠ []) : 1 ≤ count + openBraces lines := by
  rw [← List.dropLast_append_getLast filled] at fit ⊢
  obtain ⟨-, ⟨-, leaves⟩, -⟩ := fitFrom_append.mp fit
  rw [openBraces_append, ← Int.add_assoc, openBraces, openBraces, Int.add_zero]
  exact leaves

/-- Lines that fit behind so many open braces, and lead to so many others. -/
structure Leads (first : Int) (lines : List TextLine) (last : Int) : Prop where
  fit : FitFrom first lines
  count_eq : first + openBraces lines = last

namespace Leads

theorem nil (count : Int) : Leads count [] count :=
  ⟨trivial, Int.add_zero count⟩

theorem append {first middle last : Int} {front back : List TextLine}
    (one : Leads first front middle) (two : Leads middle back last) :
    Leads first (front ++ back) last where
  fit := fitFrom_append.mpr ⟨one.fit, one.count_eq ▸ two.fit⟩
  count_eq := by rw [openBraces_append, ← Int.add_assoc, one.count_eq, two.count_eq]

theorem single {first last : Int} {line : TextLine} (fits : line.Fits first)
    (count_eq : first + line.balance = last) (leaves : 1 ≤ last) : Leads first [line] last :=
  ⟨⟨⟨fits, count_eq ▸ leaves⟩, trivial⟩, by rw [openBraces, openBraces, Int.add_zero, count_eq]⟩

end Leads

namespace Listing

theorem leads_opening (level : Nat) : Leads level [.opening level] (level + 1 : Nat) :=
  .single rfl rfl (Int.ofNat_le.mpr (Nat.succ_le_succ (Nat.zero_le level)))

theorem leads_closing {level : Nat} (deep : 1 ≤ level) :
    Leads (level + 1 : Nat) [.closing level] level :=
  .single rfl (Int.add_neg_cancel_right level 1) (Int.ofNat_le.mpr deep)

theorem leads_openings (previous count : Nat) :
    Leads previous ((List.range' previous count).map .opening) (previous + count : Nat) := by
  induction count with
  | zero => exact .nil _
  | succ count inductionHypothesis =>
    rw [List.range'_concat, Nat.one_mul, List.map_append]
    exact inductionHypothesis.append (leads_opening (previous + count))

theorem leads_closings {next : Nat} (deep : 1 ≤ next) (count : Nat) :
    Leads (next + count : Nat) (((List.range' next count).reverse).map .closing) next := by
  induction count with
  | zero => exact .nil _
  | succ count inductionHypothesis =>
    rw [List.range'_concat, Nat.one_mul, List.reverse_append, List.map_append]
    have innermost := leads_closing (Nat.le_add_right_of_le (k := count) deep)
    exact innermost.append inductionHypothesis

/-- Braces lead from one depth to another. -/
theorem leads_sheetBetween (previous : Nat) {next : Nat} (deep : 1 ≤ next) :
    Leads previous (sheetBetween previous next) next := by
  unfold sheetBetween
  rcases Nat.le_total previous next with rises | falls
  · obtain ⟨count, rfl⟩ := Nat.exists_eq_add_of_le rises
    rw [Nat.add_sub_cancel_left, Nat.sub_eq_zero_of_le rises]
    exact (leads_openings previous count).append (.nil _)
  · obtain ⟨count, rfl⟩ := Nat.exists_eq_add_of_le falls
    rw [Nat.add_sub_cancel_left, Nat.sub_eq_zero_of_le falls]
    exact leads_closings deep count

theorem leads_sheetLabel (labels : List Nat) {depth : Nat} (deep : 1 ≤ depth) (address : Nat) :
    Leads depth (sheetLabel labels depth address) depth := by
  have leaves : (1 : Int) ≤ depth := Int.ofNat_le.mpr deep
  unfold sheetLabel
  split
  · have gap : Leads depth [.blank] depth := .single trivial (Int.add_zero _) leaves
    exact gap.append (.single rfl (Int.add_zero _) leaves)
  · exact .nil _

theorem leads_sheetLine (labels : List Nat) (previous : Nat) {line : ListedLine}
    (deep : 1 ≤ line.depth) : Leads previous (sheetLine labels previous line) line.depth := by
  have written : Leads line.depth [.statement line] line.depth :=
    .single rfl (Int.add_zero _) (Int.ofNat_le.mpr deep)
  refine ((leads_sheetBetween previous deep).append
    ((leads_sheetLabel labels deep line.address).append written)).append ?_
  split
  · exact (leads_opening line.depth).append (leads_closing deep)
  · exact .nil _

theorem leads_sheetLines (labels : List Nat) (previous : Nat) {lines : List ListedLine}
    (deep : ∀ line ∈ lines, 1 ≤ line.depth) :
    Leads previous (sheetLines labels previous lines) (lastDepth previous lines) := by
  induction lines generalizing previous with
  | nil => exact .nil _
  | cons line rest inductionHypothesis =>
    obtain ⟨here, others⟩ := List.forall_mem_cons.mp deep
    exact (leads_sheetLine labels previous here).append (inductionHypothesis line.depth others)

/-- Behind the title, the braces lead to the one that the last line closes. -/
theorem leads_sheetBody {listing : Listing} (deep : ∀ line ∈ listing.lines, 1 ≤ line.depth)
    (length : Nat) : Leads 0 (listing.sheetBody length) 1 :=
  have closed := (leads_sheetLines listing.labels 0 deep).append
    (leads_sheetBetween _ (Nat.le_refl 1))
  closed.append (leads_sheetLabel listing.labels (Nat.le_refl 1) length)

end Listing

/-! ### What stands between the braces -/

/-- Whether a line is a brace. -/
def TextLine.isBrace : TextLine → Bool
  | opening _ | closing _ => true
  | _ => false

namespace Listing

variable {labels : List Nat}

theorem filter_sheetBetween (previous next : Nat) :
    (sheetBetween previous next).filter (!·.isBrace) = [] := by
  rw [sheetBetween, List.filter_append, List.filter_map, List.filter_map]
  simp only [List.append_eq_nil_iff, List.map_eq_nil_iff, List.filter_eq_nil_iff]
  exact ⟨fun _ _ => Bool.false_ne_true, fun _ _ => Bool.false_ne_true⟩

theorem filter_sheetLabel (depth address : Nat) :
    (sheetLabel labels depth address).filter (!·.isBrace) = sheetLabel labels depth address := by
  unfold sheetLabel
  split
  · rfl
  · rfl

theorem filter_sheetStatement (line : ListedLine) :
    (sheetStatement labels line).filter (!·.isBrace) = sheetStatement labels line := by
  rw [sheetStatement, List.filter_append, filter_sheetLabel]
  rfl

theorem filter_sheetLines (previous : Nat) (lines : List ListedLine) :
    (sheetLines labels previous lines).filter (!·.isBrace) =
      lines.flatMap (sheetStatement labels) := by
  induction lines generalizing previous with
  | nil => rfl
  | cons line rest inductionHypothesis =>
    have braces : (if line.emptyBlock then [TextLine.opening line.depth, .closing line.depth]
        else []).filter (!·.isBrace) = [] := by
      split
      · rfl
      · rfl
    rw [sheetLines, sheetLine, List.filter_append, List.filter_append, List.filter_append,
      filter_sheetBetween, filter_sheetStatement, braces, inductionHypothesis, List.flatMap_cons,
      List.append_nil, List.nil_append]

/-- Without its braces a text is its title, the statements in order, each with its label, and
the label at the end. -/
theorem filter_sheet (listing : Listing) (program : Program) :
    (listing.sheet program).filter (!·.isBrace) =
      .title (if program.entry = 0 then none else some program.entry) ::
        (listing.lines.flatMap (sheetStatement listing.labels) ++
          sheetLabel listing.labels 1 program.code.length) := by
  have brace : [TextLine.closing 0].filter (!·.isBrace) = [] := rfl
  rw [sheet, sheetBody, List.filter_cons_of_pos rfl, List.filter_append, List.filter_append,
    List.filter_append, filter_sheetLines, filter_sheetBetween, filter_sheetLabel, brace,
    List.append_nil, List.append_nil]

/-- What is not seen on braces is seen without them. -/
theorem filterMap_unbraced {α : Type} {view : TextLine → Option α}
    (unseen : ∀ line : TextLine, line.isBrace = true → view line = none) (lines : List TextLine) :
    lines.filterMap view = (lines.filter (!·.isBrace)).filterMap view := by
  rw [List.filterMap_filter]
  refine List.filterMap_congr fun line _ => ?_
  cases brace : line.isBrace with
  | true => exact unseen line brace
  | false => rfl

/-- The statements of a text are those of the listing, in order. -/
theorem filterMap_statement?_sheet (listing : Listing) (program : Program) :
    (listing.sheet program).filterMap TextLine.statement? = listing.lines := by
  have unseen (line : TextLine) (brace : line.isBrace = true) : line.statement? = none := by
    cases line <;> first | rfl | cases brace
  have label (depth address : Nat) :
      (sheetLabel listing.labels depth address).filterMap TextLine.statement? = [] := by
    unfold sheetLabel
    split
    · rfl
    · rfl
  rw [filterMap_unbraced unseen, filter_sheet, List.filterMap_cons_none rfl,
    List.filterMap_append, List.filterMap_flatMap, label, List.append_nil]
  simp only [sheetStatement, List.filterMap_append, label, List.nil_append]
  exact List.flatMap_singleton' _

/-- A label is defined for a statement at its address, or for the end of the script. -/
theorem mem_sheet_label {listing : Listing} {program : Program} {depth address : Nat}
    (member : .label depth address ∈ listing.sheet program) :
    (∃ line ∈ listing.lines, line.depth = depth ∧ line.address = address) ∨
      (depth = 1 ∧ address = program.code.length) := by
  have label {level place : Nat} (inside : .label depth address ∈
      sheetLabel listing.labels level place) : depth = level ∧ address = place := by
    unfold sheetLabel at inside
    split at inside
    · simpa using inside
    · cases inside
  have unbraced : .label depth address ∈ (listing.sheet program).filter (!·.isBrace) :=
    List.mem_filter.mpr ⟨member, rfl⟩
  rw [filter_sheet, List.mem_cons, List.mem_append, List.mem_flatMap] at unbraced
  rcases unbraced with never | ⟨line, inside, written⟩ | last
  · cases never
  · rcases List.mem_append.mp written with named | never
    · obtain ⟨rfl, rfl⟩ := label named
      exact Or.inl ⟨line, inside, rfl, rfl⟩
    · simp at never
  · exact Or.inr (label last)

end Listing

/-! ### Depths -/

/-- The depths of the lines begun so far, last one first. -/
def Scan.depths (scan : Scan) : List Nat := scan.lines.map ListedLine.depth

/-- Lines go deeper by one at a time, and the last one is at least so deep. -/
structure Scan.Climbs (scan : Scan) (depth : Nat) : Prop where
  chain : scan.depths.IsChain fun next previous => next ≤ previous + 1
  depth_le : depth ≤ scan.depths.headD 0

/-- A line that is begun one deeper than lines are known to be. -/
theorem Scan.Climbs.begin {scan : Scan} {depth : Nat} (climbs : scan.Climbs depth)
    (inside : scan.depth = depth + 1) :
    ({ scan with lines := .start scan.position scan.depth :: scan.lines } : Scan).Climbs
      scan.depth where
  chain := by
    refine List.isChain_cons.mpr ⟨fun previous last => ?_, climbs.chain⟩
    have le := climbs.depth_le
    have last : scan.depths.head? = some previous := last
    rw [List.headD_eq_head?_getD, last] at le
    show scan.depth ≤ previous + 1
    rw [inside]
    exact Nat.succ_le_succ le
  depth_le := Nat.le_refl _

namespace Decoder

variable {α β : Type} {reading : Reading}

/-- Reading goes on climbing, and ends in the block where it began. -/
def KeepsClimbing (decoder : Decoder α) : Prop :=
  ∀ scan value next, scan.Climbs scan.depth → decoder.result scan = (.ok value, next) →
    next.Climbs next.depth ∧ next.depth = scan.depth

theorem keepsClimbing_bind {decoder : Decoder α} {continuing : α → Decoder β}
    (first : KeepsClimbing decoder) (second : ∀ value, KeepsClimbing (continuing value)) :
    KeepsClimbing (decoder >>= continuing) := by
  intro scan value next climbs done
  obtain ⟨found, middle, firstOk, secondOk⟩ := result_bind_eq_ok.mp done
  obtain ⟨climbed, same⟩ := first scan found middle climbs firstOk
  obtain ⟨higher, still⟩ := second found middle value next climbed secondOk
  exact ⟨higher, still.trans same⟩

/-- A step that leaves the depths alone. -/
theorem keepsClimbing_quiet {decoder : Decoder α}
    (quiet : ∀ scan value next, decoder.result scan = (.ok value, next) →
      next.depths = scan.depths ∧ next.depth = scan.depth) : KeepsClimbing decoder := by
  intro scan value next climbs done
  obtain ⟨depths, depth⟩ := quiet scan value next done
  refine ⟨⟨?_, ?_⟩, depth⟩
  · rw [depths]
    exact climbs.chain
  · rw [depths, depth]
    exact climbs.depth_le

theorem keepsClimbing_pure (value : α) : KeepsClimbing (pure value) :=
  keepsClimbing_quiet fun _ _ _ done => by
    cases done
    exact ⟨rfl, rfl⟩

theorem keepsClimbing_changeLine {change : ListedLine → ListedLine}
    (keeps : ∀ line, (change line).depth = line.depth) : KeepsClimbing (changeLine change) :=
  keepsClimbing_quiet fun scan _ _ done => by
    rw [result_changeLine] at done
    cases done
    refine ⟨?_, rfl⟩
    unfold Scan.depths
    cases scan.lines with
    | nil => rfl
    | cons line others => simp only [List.modifyHead_cons, List.map_cons, keeps line]

theorem keepsClimbing_note (text : Option String) : KeepsClimbing (note text) := by
  cases text with
  | none => exact keepsClimbing_pure ()
  | some text => exact keepsClimbing_changeLine fun _ => rfl

theorem relates_keepsClimbing (reading : Reading) :
    Relates reading reading fun _ decoder _ => KeepsClimbing decoder where
  agrees := ⟨rfl, rfl⟩
  pure := keepsClimbing_pure
  bind := keepsClimbing_bind
  lift {_ attempt} _ := keepsClimbing_quiet fun _ _ _ done => by
    cases attempt <;> cases done
    exact ⟨rfl, rfl⟩
  take _ := keepsClimbing_quiet fun _ _ _ done => by
    obtain ⟨-, -, rfl⟩ := take_eq_ok done
    exact ⟨rfl, rfl⟩
  position := keepsClimbing_quiet fun _ _ _ done => by
    cases done
    exact ⟨rfl, rfl⟩
  emit _ := keepsClimbing_changeLine fun _ => rfl
  emitLabel _ := keepsClimbing_bind (keepsClimbing_quiet fun _ _ _ done => by
    cases done
    exact ⟨rfl, rfl⟩) fun _ => keepsClimbing_changeLine fun _ => rfl
  unknown kind value offset := keepsClimbing_quiet fun _ _ _ done => by
    unfold unknown at done
    split at done <;> cases done
    exact ⟨rfl, rfl⟩
  subtitle _ := keepsClimbing_note _
  flagComment _ _ := keepsClimbing_note _

/-- One round of a block begins a line at the depth of the block, which is one deeper than the
line that the block belongs to. -/
theorem climbs_blockStep {statement : Decoder Unit} (keeps : KeepsClimbing statement)
    {stop depth : Nat} {scan next : Scan} {again : Bool} (climbs : scan.Climbs depth)
    (inside : scan.depth = depth + 1)
    (done : (blockStep stop statement).result scan = (.ok again, next)) :
    next.Climbs depth ∧ next.depth = depth + 1 := by
  rcases round_cases done with ⟨-, -, statementOk⟩ | ⟨-, -, rfl⟩
  · obtain ⟨climbed, same⟩ := keeps _ () next (climbs.begin inside) statementOk
    have same : next.depth = depth + 1 := same.trans inside
    rw [same] at climbed
    exact ⟨⟨climbed.chain, Nat.le_of_succ_le climbed.depth_le⟩, same⟩
  · exact ⟨climbs, inside⟩

theorem climbs_rounds {statement : Decoder Unit} (keeps : KeepsClimbing statement)
    {bound stop depth : Nat} {scan next : Scan} (climbs : scan.Climbs depth)
    (inside : scan.depth = depth + 1)
    (done : (repeatWhile bound (blockStep stop statement)).result scan = (.ok (), next)) :
    next.Climbs depth ∧ next.depth = depth + 1 := by
  induction bound generalizing scan with
  | zero =>
    obtain ⟨again, middle, stepOk, rest⟩ := result_bind_eq_ok.mp done
    cases rest
    exact climbs_blockStep keeps climbs inside stepOk
  | succ bound inductionHypothesis =>
    obtain ⟨again, middle, stepOk, rest⟩ := result_bind_eq_ok.mp done
    obtain ⟨climbed, same⟩ := climbs_blockStep keeps climbs inside stepOk
    cases again with
    | true => exact inductionHypothesis climbed same rest
    | false =>
      cases rest
      exact ⟨climbed, same⟩

theorem keepsClimbing_block {statement : Decoder Unit} (keeps : KeepsClimbing statement)
    (bound stop : Nat) : KeepsClimbing (block bound stop statement) := by
  intro scan value next climbs done
  unfold block at done
  rw [result_bind (result_position scan)] at done
  split at done
  · rw [result_bind (result_modify _ scan)] at done
    obtain ⟨_, middle, roundsOk, done⟩ := result_bind_eq_ok.mp done
    cases done
    have deeper : ({ scan with depth := scan.depth + 1 } : Scan).Climbs scan.depth :=
      ⟨climbs.chain, climbs.depth_le⟩
    obtain ⟨climbed, same⟩ := climbs_rounds keeps deeper rfl roundsOk
    have surfaced : middle.depth - 1 = scan.depth := by
      rw [same]
      exact Nat.add_sub_cancel _ _
    refine ⟨⟨climbed.chain, ?_⟩, surfaced⟩
    show middle.depth - 1 ≤ _
    rw [surfaced]
    exact climbed.depth_le
  · refine keepsClimbing_changeLine ?_ scan value next climbs done
    exact fun _ => rfl

theorem keepsClimbing_value (reading : Reading) (bound : Nat) (place : Position)
    (slot : Option Slot) : KeepsClimbing (value reading bound place slot) := by
  have relates := relates_keepsClimbing reading
  induction bound generalizing place slot with
  | zero =>
    exact keepsClimbing_bind (keepsClimbing_bind relates.byte fun _ => keepsClimbing_pure ())
      fun _ => keepsClimbing_pure none
  | succ bound inductionHypothesis =>
    have blocks := keepsClimbing_block
      (keepsClimbing_bind (inductionHypothesis .statement none) fun _ => keepsClimbing_pure ())
      bound
    refine keepsClimbing_bind relates.position fun offset =>
      keepsClimbing_bind relates.byte fun code => ?_
    split
    · exact @Relates.operand _ _ _ relates (value reading bound) (value reading bound)
        inductionHypothesis _ blocks place slot _
    · exact keepsClimbing_bind (relates.unknown _ _ _) fun _ => keepsClimbing_pure none

theorem climbs_script {scan : Scan}
    (done : (script reading).result (.start reading.program.code) = (.ok (), scan)) :
    scan.Climbs 0 := by
  have start : (Scan.start reading.program.code).Climbs 0 := ⟨List.isChain_nil, Nat.le_refl 0⟩
  have statements := keepsClimbing_bind
    (keepsClimbing_value reading reading.program.code.length .statement none)
    fun _ => keepsClimbing_pure ()
  obtain ⟨climbs, -⟩ := keepsClimbing_block statements _ _ _ () scan start done
  exact ⟨climbs.chain, Nat.zero_le _⟩

end Decoder

/-! ### Braces match the nesting -/

/-- The addresses of the statements rise, and the end of the code is behind them. -/
theorem Scan.rising_listing {program : Program} {symbols : Symbols} {lenient : Bool} {scan : Scan}
    (done : (Decoder.script ⟨program, symbols, lenient⟩).result (.start program.code) =
      (.ok (), scan)) :
    ((scan.listing program).lines.map ListedLine.address ++ [program.code.length]).Pairwise
      (· < ·) := by
  obtain ⟨rises, -⟩ := Decoder.rises_script done
  have addresses : (scan.listing program).lines.map ListedLine.address = scan.addresses.reverse :=
    List.map_reverse
  rw [addresses]
  refine List.pairwise_append.mpr ⟨List.pairwise_reverse.mpr rises.falling,
    List.pairwise_singleton _ _, fun address member stop last => ?_⟩
  rw [List.mem_singleton.mp last, ← (Decoder.guardsClose_script done).1]
  exact rises.below address (List.mem_reverse.mp member)

/-- The text of a script is the lines of its listing. -/
theorem Program.textLines_eq_sheet {program : Program} {symbols : Symbols} {lenient : Bool}
    {scan : Scan} (done : (Decoder.script ⟨program, symbols, lenient⟩).result
      (.start program.code) = (.ok (), scan)) :
    (program.textLines symbols lenient).outcome.1 =
      .ok (((scan.listing program).sheet program).map (TextLine.text program.name)) := by
  rw [← Listing.render_eq_sheet]
  exact ((program.gives_listing symbols lenient).bind fun listing =>
    Logged.gives_pure (listing.render program)).outcome.trans (by rw [done]; rfl)

/-- The braces among these lines match the nesting of a listing of so much code. The statements
start at depth one, never rise above it, and go deeper by one at a time; the lines hold them in
order. Where a line stands, as many braces are open as it says: a statement or a label its
depth, a closing brace one more than its level, which it closes. The label at the end of the
script stands at depth one. The last line closes the last brace, and from the second line on
there is an open one until then. -/
structure Listing.Braced (listing : Listing) (length : Nat) (lines : List TextLine) : Prop where
  starts : ∀ line ∈ listing.lines.head?, line.depth = 1
  deep : ∀ line ∈ listing.lines, 1 ≤ line.depth
  climbs : (listing.lines.map ListedLine.depth).IsChain fun depth next => next ≤ depth + 1
  statements : lines.filterMap TextLine.statement? = listing.lines
  fits : ∀ before line after, lines = before ++ line :: after → line.Fits (openBraces before)
  ending : ∀ depth, .label depth length ∈ lines → depth = 1
  last : lines.getLast? = some (.closing 0)
  closed : openBraces lines = 0
  inside : ∀ before after, lines = before ++ after → 2 ≤ before.length → after ≠ [] →
    1 ≤ openBraces before

section Texts

variable {listing : Listing} (deep : ∀ line ∈ listing.lines, 1 ≤ line.depth) (program : Program)

include deep

theorem Listing.fits_sheet {before after : List TextLine} {line : TextLine}
    (split : listing.sheet program = before ++ line :: after) : line.Fits (openBraces before) := by
  obtain ⟨fit, count⟩ := leads_sheetBody deep program.code.length
  rw [Int.zero_add] at count
  have brace : (TextLine.closing 0).Fits (openBraces (listing.sheetBody program.code.length)) := by
    rw [count]
    rfl
  cases before with
  | nil =>
    cases split
    trivial
  | cons first before =>
    obtain ⟨rfl, rest⟩ := List.cons_eq_cons.mp split
    show line.Fits (0 + openBraces before)
    rcases List.append_eq_append_iff.mp rest with ⟨more, rfl, last⟩ | ⟨more, body, last⟩
    · -- Only the last line stands behind all others.
      cases more with
      | nil =>
        cases last
        rw [List.append_nil, Int.zero_add]
        exact brace
      | cons other more => simp at last
    · cases more with
      | nil =>
        cases last
        rw [List.append_nil] at body
        rw [Int.zero_add, ← body]
        exact brace
      | cons other more =>
        cases last
        rw [body] at fit
        exact fit.fits

theorem Listing.one_le_openBraces_sheet {before after : List TextLine}
    (split : listing.sheet program = before ++ after) (behind : 2 ≤ before.length)
    (more : after ≠ []) : 1 ≤ openBraces before := by
  obtain ⟨fit, -⟩ := leads_sheetBody deep program.code.length
  cases before with
  | nil => cases behind
  | cons first before =>
    obtain ⟨rfl, rest⟩ := List.cons_eq_cons.mp split
    have whole : listing.sheetBody program.code.length ++ [.closing 0] =
        before ++ after.dropLast ++ [after.getLast more] := by
      rw [List.append_assoc, List.dropLast_append_getLast more]
      exact rest
    rw [(List.append_inj' whole rfl).1] at fit
    have filled : before ≠ [] := List.ne_nil_of_length_pos (Nat.le_of_succ_le_succ behind)
    exact (fitFrom_append.mp fit).1.one_le filled

end Texts

/-- The braces in the text of a script match the nesting of its statements, whatever its code is,
if it can be read, strictly or leniently. -/
theorem Program.textLines_braced (program : Program) (symbols : Symbols) (lenient : Bool)
    (listing : Listing) (listed : (program.listing symbols lenient).outcome.1 = .ok listing) :
    (program.textLines symbols lenient).outcome.1 =
        .ok ((listing.sheet program).map (TextLine.text program.name)) ∧
      listing.Braced program.code.length (listing.sheet program) := by
  obtain ⟨scan, done, rfl⟩ := exists_scan_of_listing listed
  obtain ⟨places, grows, -⟩ := Decoder.grows_script done
  have placed : scan.places = places := grows.places_eq
  have deep : ∀ line ∈ (scan.listing program).lines, 1 ≤ line.depth := fun line member =>
    grows.stretch.level_le (line.address, line.depth)
      (placed ▸ List.mem_map.mpr ⟨line, member, rfl⟩)
  have rising := Scan.rising_listing done
  refine ⟨textLines_eq_sheet done, ?_⟩
  constructor
  case starts =>
    intro line first
    refine (grows.stretch.head_eq (line.address, line.depth) ?_).1
    rw [← placed, Scan.places, List.head?_map]
    exact Option.map_eq_some_iff.mpr ⟨line, first, rfl⟩
  case deep => exact deep
  case climbs =>
    have chain := (Decoder.climbs_script done).chain
    rw [Scan.listing, List.map_reverse, List.isChain_reverse]
    exact chain
  case statements => exact Listing.filterMap_statement?_sheet _ _
  case fits => exact fun before line after split => Listing.fits_sheet deep program split
  case ending =>
    intro depth member
    rcases Listing.mem_sheet_label member with ⟨line, inside, -, there⟩ | ⟨same, -⟩
    · refine absurd there (Nat.ne_of_lt ?_)
      exact (List.pairwise_append.mp rising).2.2 line.address (List.mem_map_of_mem inside) _
        List.mem_cons_self
    · exact same
  case last =>
    rw [Listing.sheet, ← List.cons_append]
    exact List.getLast?_concat
  case closed =>
    obtain ⟨-, count⟩ := Listing.leads_sheetBody deep program.code.length
    rw [Listing.sheet, openBraces, openBraces_append]
    rw [Int.zero_add] at count
    rw [count]
    rfl
  case inside =>
    exact fun before after split behind more =>
      Listing.one_le_openBraces_sheet deep program split behind more

/-- Code of a condition that compares two numbers, with the address behind its block. -/
def fenCondition (stop : UInt8) : Bytes :=
  [3, 7, 1, 0, 0, 0, 0, 7, 2, 0, 0, 0, 0, stop, 0, 0, 0]

/-- Code of a condition in another one, both closed at once, a condition without a block, and a
jump to the end. -/
def fenCode : Bytes :=
  fenCondition 35 ++ fenCondition 35 ++ [18] ++ fenCondition 0 ++ [4, 57, 0, 0, 0]

theorem Program.textLines_braced_fen :
    ∃ listing, ((marshProgram fenCode).listing doorSymbols false).outcome.1 = .ok listing ∧
      listing.lines.map ListedLine.depth = [1, 2, 3, 1, 1] ∧
      ((marshProgram fenCode).textLines doorSymbols false).outcome.1 =
        .ok ((listing.sheet (marshProgram fenCode)).map (TextLine.text "MARSH")) ∧
      listing.Braced 57 (listing.sheet (marshProgram fenCode)) := by
  obtain ⟨listing, listed, depths⟩ := @exists_ok_of_any _
    ((marshProgram fenCode).listing doorSymbols false).outcome.1
    (fun listing => listing.lines.map ListedLine.depth = [1, 2, 3, 1, 1]) (by decide +kernel)
  obtain ⟨written, braced⟩ :=
    textLines_braced (marshProgram fenCode) doorSymbols false listing listed
  exact ⟨listing, listed, of_decide_eq_true depths, written, braced⟩

end MapScript
