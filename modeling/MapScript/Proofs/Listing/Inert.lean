/-
This file proves that the comments of a listing are inert. Code that is listed with symbols
that differ in what becomes a comment is listed alike up to comments; and when the texts are
read again, the comments are gone. Comments are written as they are, though. One that holds
a line break goes on in a line of its own, which is read as part of the script, and one that
holds a quote may close a quote that its line leaves open.
-/

import MapScript.Proofs.Listing.Related
import MapScript.Proofs.Script.Sifted
import MapScript.Symbols.Dialogue

namespace MapScript

/-! ### Lines up to comments -/

/-- The texts that listings have as comments: those of flags, and subtitles behind their
labels. -/
def Symbols.IsComment (symbols : Symbols) (text : String) : Prop :=
  (∃ flag ∈ symbols.flags, flag.comment = some text) ∨
    ∃ label subtitle, symbols.subtitle? label = some subtitle ∧
      text = "Dlg " ++ label ++ " = " ++ subtitle

/-- A line without its comment. -/
def ListedLine.plain (line : ListedLine) : ListedLine := { line with comment := none }

/-- The comment of a line, if it has one, comes from the symbols. -/
def ListedLine.CommentedFrom (symbols : Symbols) (line : ListedLine) : Prop :=
  ∀ comment ∈ line.comment, symbols.IsComment comment

/-- Lines that are the same up to their comments, which come from two sets of symbols. -/
structure LinesAlike (one two : Symbols) (first second : List ListedLine) : Prop where
  plain_eq : first.map ListedLine.plain = second.map ListedLine.plain
  first_comments : ∀ line ∈ first, line.CommentedFrom one
  second_comments : ∀ line ∈ second, line.CommentedFrom two

namespace LinesAlike

variable {one two : Symbols} {first second : List ListedLine}

theorem nil : LinesAlike one two [] [] where
  plain_eq := rfl
  first_comments _ member := absurd member List.not_mem_nil
  second_comments _ member := absurd member List.not_mem_nil

theorem cons {line other : ListedLine} (plain : line.plain = other.plain)
    (here : line.CommentedFrom one) (there : other.CommentedFrom two)
    (rest : LinesAlike one two first second) :
    LinesAlike one two (line :: first) (other :: second) where
  plain_eq := by rw [List.map_cons, List.map_cons, plain, rest.plain_eq]
  first_comments := List.forall_mem_cons.mpr ⟨here, rest.first_comments⟩
  second_comments := List.forall_mem_cons.mpr ⟨there, rest.second_comments⟩

theorem reverse (alike : LinesAlike one two first second) :
    LinesAlike one two first.reverse second.reverse where
  plain_eq := by rw [List.map_reverse, List.map_reverse, alike.plain_eq]
  first_comments line member := alike.first_comments line (List.mem_reverse.mp member)
  second_comments line member := alike.second_comments line (List.mem_reverse.mp member)

/-- Every line of the second has its like in the first. -/
theorem exists_first (alike : LinesAlike one two first second) {line : ListedLine}
    (member : line ∈ second) : ∃ kin ∈ first, kin.plain = line.plain := by
  have plain : line.plain ∈ second.map ListedLine.plain := List.mem_map_of_mem member
  rw [← alike.plain_eq] at plain
  exact List.mem_map.mp plain

/-- Alike lines are both missing, or start alike. -/
theorem cases_head (alike : LinesAlike one two first second) :
    (first = [] ∧ second = []) ∨ ∃ line other rest remaining, first = line :: rest ∧
      second = other :: remaining ∧ line.plain = other.plain ∧ line.CommentedFrom one ∧
      other.CommentedFrom two ∧ LinesAlike one two rest remaining := by
  cases first with
  | nil =>
    cases second with
    | nil => exact Or.inl ⟨rfl, rfl⟩
    | cons other remaining => cases alike.plain_eq
  | cons line rest =>
    cases second with
    | nil => cases alike.plain_eq
    | cons other remaining =>
      obtain ⟨plain, plains⟩ := List.cons.inj alike.plain_eq
      obtain ⟨here, firsts⟩ := List.forall_mem_cons.mp alike.first_comments
      obtain ⟨there, seconds⟩ := List.forall_mem_cons.mp alike.second_comments
      exact Or.inr ⟨line, other, rest, remaining, rfl, rfl, plain, here, there,
        plains, firsts, seconds⟩

/-- A change of the last line, if it does the same up to comments. -/
theorem modifyHead {change other : ListedLine → ListedLine}
    (plain : ∀ line kin : ListedLine, line.plain = kin.plain → (change line).plain = (other kin).plain)
    (here : ∀ line : ListedLine, line.CommentedFrom one → (change line).CommentedFrom one)
    (there : ∀ line : ListedLine, line.CommentedFrom two → (other line).CommentedFrom two)
    (alike : LinesAlike one two first second) :
    LinesAlike one two (first.modifyHead change) (second.modifyHead other) := by
  rcases alike.cases_head with
    ⟨rfl, rfl⟩ | ⟨line, kin, rest, remaining, rfl, rfl, same, ours, theirs, others⟩
  · exact nil
  · exact cons (plain line kin same) (here line ours) (there kin theirs) others

end LinesAlike

/-- States of reading that are the same up to the comments of their lines. -/
structure Scan.Alike (one two : Symbols) (first second : Scan) : Prop where
  unlisted_eq : { first with lines := [] } = { second with lines := [] }
  lines : LinesAlike one two first.lines second.lines

namespace Scan.Alike

variable {one two : Symbols} {first second : Scan} (alike : first.Alike one two second)

include alike

theorem position_eq : first.position = second.position :=
  (congrArg Scan.position alike.unlisted_eq :)

theorem depth_eq : first.depth = second.depth :=
  (congrArg Scan.depth alike.unlisted_eq :)

theorem labels_eq : first.labels = second.labels :=
  (congrArg Scan.labels alike.unlisted_eq :)

end Scan.Alike

/-! ### Reading -/

namespace Decoder

variable {α β : Type} {one two : Symbols}

/-- Readings that come to the same up to comments. -/
def Alike (one two : Symbols) (first second : Decoder α) : Prop :=
  ∀ scan other, scan.Alike one two other →
    (first.result scan).1 = (second.result other).1 ∧
      (first.result scan).2.Alike one two (second.result other).2

theorem alike_bind {first second : Decoder α} {next later : α → Decoder β}
    (related : Alike one two first second)
    (following : ∀ value, Alike one two (next value) (later value)) :
    Alike one two (first >>= next) (second >>= later) := by
  intro scan other alike
  obtain ⟨same, after⟩ := related scan other alike
  cases here : first.result scan with
  | mk attempt middle =>
    cases there : second.result other with
    | mk twin between =>
      rw [here, there] at same after
      cases same
      cases attempt with
      | error fault =>
        rw [result_bind_error here, result_bind_error there]
        exact ⟨rfl, after⟩
      | ok value =>
        rw [result_bind here, result_bind there]
        exact following value middle between after

/-- A step that neither looks at the lines nor changes them. -/
theorem alike_of_blind {decoder : Decoder α} (blind : ∀ (scan : Scan) lines,
    decoder.result { scan with lines := lines } =
      ((decoder.result scan).1, { (decoder.result scan).2 with lines := lines })) :
    Alike one two decoder decoder := by
  intro scan other alike
  have twin : other = { scan with lines := other.lines } :=
    (congrArg (fun found : Scan => { found with lines := other.lines }) alike.unlisted_eq).symm
  have kept : (decoder.result scan).2.lines = scan.lines :=
    congrArg (fun result => Scan.lines result.2) (blind scan scan.lines)
  have elsewhere := blind scan other.lines
  rw [← twin] at elsewhere
  rw [elsewhere]
  refine ⟨rfl, rfl, ?_⟩
  rw [kept]
  exact alike.lines

theorem alike_pure (value : α) : Alike one two (pure value) (pure value) :=
  alike_of_blind fun _ _ => rfl

theorem alike_lift (attempt : Except Fault α) : Alike one two (lift attempt) (lift attempt) :=
  alike_of_blind fun _ _ => rfl

theorem alike_take (reading : Reading) (size : Nat) :
    Alike one two (take reading size) (take reading size) := by
  refine alike_of_blind fun scan lines => ?_
  rw [result_take, result_take]
  dsimp only
  split
  · rfl
  · rfl

theorem alike_unknown (reading : Reading) (kind : ByteKind) (value : UInt8) (offset : Nat) :
    Alike one two (unknown reading kind value offset) (unknown reading kind value offset) := by
  refine alike_of_blind fun scan lines => ?_
  unfold unknown
  split
  · rfl
  · rfl

theorem alike_changeLine {change other : ListedLine → ListedLine}
    (plain : ∀ line kin : ListedLine, line.plain = kin.plain → (change line).plain = (other kin).plain)
    (here : ∀ line : ListedLine, line.CommentedFrom one → (change line).CommentedFrom one)
    (there : ∀ line : ListedLine, line.CommentedFrom two → (other line).CommentedFrom two) :
    Alike one two (changeLine change) (changeLine other) := by
  intro scan kin alike
  rw [result_changeLine, result_changeLine]
  exact ⟨rfl, alike.unlisted_eq, alike.lines.modifyHead plain here there⟩

/-- A change of the last line that leaves its comment alone. -/
theorem alike_keepComment {change : ListedLine → ListedLine}
    (keeps : ∀ line, (change line).comment = line.comment)
    (plain : ∀ line : ListedLine, (change line).plain = (change line.plain).plain) :
    Alike one two (changeLine change) (changeLine change) := by
  refine alike_changeLine (fun line kin same => ?_) (fun line given comment member => ?_)
    fun line given comment member => ?_
  · rw [plain, same, ← plain]
  · rw [keeps] at member
    exact given comment member
  · rw [keeps] at member
    exact given comment member

theorem alike_note {first second : Option String} (here : ∀ text ∈ first, one.IsComment text)
    (there : ∀ text ∈ second, two.IsComment text) : Alike one two (note first) (note second) := by
  have keeps {symbols : Symbols} {given : Option String}
      (known : ∀ text ∈ given, symbols.IsComment text) (line : ListedLine)
      (commented : line.CommentedFrom symbols) :
      ({ line with comment := given.or line.comment } : ListedLine).CommentedFrom symbols := by
    cases given with
    | none => exact commented
    | some text => exact known
  intro scan other alike
  rw [result_note, result_note]
  exact ⟨rfl, alike.unlisted_eq,
    alike.lines.modifyHead (fun line kin same => same) (keeps here) (keeps there)⟩

theorem isComment_of_subtitleNote {program : Program} {symbols : Symbols} {lenient : Bool}
    {label text : String} (noted : text ∈ subtitleNote ⟨program, symbols, lenient⟩ label) :
    symbols.IsComment text := by
  obtain ⟨subtitle, found, same⟩ := Option.map_eq_some_iff.mp noted
  exact Or.inr ⟨label, subtitle, found, same.symm⟩

theorem isComment_of_flag {symbols : Symbols} {id : Int} {flag : GameFlag} {text : String}
    (found : symbols.flag id = .ok flag) (noted : text ∈ flag.comment) : symbols.IsComment text := by
  refine Or.inl ⟨flag, ?_, noted⟩
  unfold Symbols.flag at found
  split at found
  · rename_i entry there
    cases found
    unfold entryAt at there
    split at there
    · exact List.mem_of_getElem? there
    · cases there
  · cases found

theorem relates_alike (program : Program) (lenient : Bool) (same : one.plain = two.plain) :
    RelatesLines ⟨program, one, lenient⟩ ⟨program, two, lenient⟩ fun _ => Alike one two where
  agrees := ⟨rfl, same⟩
  pure := alike_pure
  bind := alike_bind
  lift {_ attempt} _ := alike_lift attempt
  take size := alike_take ⟨program, one, lenient⟩ size
  position := alike_of_blind fun _ _ => rfl
  emit _ := alike_keepComment (fun _ => rfl) fun _ => rfl
  emitLabel _ := alike_bind (alike_of_blind fun _ _ => rfl) fun _ =>
    alike_keepComment (fun _ => rfl) fun _ => rfl
  unknown kind value offset := alike_unknown ⟨program, one, lenient⟩ kind value offset
  subtitle _ := alike_note (fun _ => isComment_of_subtitleNote) fun _ => isComment_of_subtitleNote
  flagComment here there :=
    alike_note (fun _ => isComment_of_flag here) fun _ => isComment_of_flag there
  beginLine := by
    intro scan other alike
    have begun : ListedLine.start scan.position scan.depth =
        .start other.position other.depth := by
      rw [alike.position_eq, alike.depth_eq]
    exact ⟨rfl, alike.unlisted_eq, .cons (congrArg ListedLine.plain begun)
      (fun _ member => absurd member (Option.not_mem_none _))
      (fun _ member => absurd member (Option.not_mem_none _)) alike.lines⟩
  deepen := alike_of_blind fun _ _ => rfl
  surface := alike_of_blind fun _ _ => rfl
  markEmpty := alike_keepComment (fun _ => rfl) fun _ => rfl

end Decoder

/-! ### Texts -/

/-- A comment that leaves no trace behind the text of a line: it does not break the line, and
holds no quote that could close one of the line. -/
def ListedLine.Harmless (line : ListedLine) : Prop :=
  ∀ comment ∈ line.comment, Text.Unbroken comment.toList ∧
    ('"' ∉ comment.toList ∨ (Text.lastLine line.text.toList).count '"' % 2 = 0)

namespace Listing

variable {symbols : Symbols}

/-- The comment of a line goes when its text is sifted. -/
theorem siftText_line {line : ListedLine} (harmless : line.Harmless) :
    siftText symbols ((indent line.depth ++ line.text).toList ++ Piece.commentTail line.comment) =
      siftText symbols (indent line.depth ++ line.text).toList := by
  cases given : line.comment with
  | none => rw [Piece.commentTail, List.append_nil]
  | some comment =>
    obtain ⟨unbroken, paired⟩ := harmless comment given
    refine siftText_append_comment unbroken (paired.imp_right fun even => ?_)
    have absent : '"' ∉ (indent line.depth).toList := by
      rw [indent, String.toList_ofList]
      exact fun member => absurd (List.eq_of_mem_replicate member) (by decide)
    rwa [String.toList_append, Text.count_lastLine_append absent]

/-- Lines that are the same up to harmless comments are sifted alike. -/
theorem sift_renderLine {line other : ListedLine} (plain : line.plain = other.plain)
    (here : line.Harmless) (there : other.Harmless) (marks : List Nat) (previous : Nat) :
    (renderLine marks previous line).map (fun text => siftText symbols text.toList) =
      (renderLine marks previous other).map fun text => siftText symbols text.toList := by
  have whole (line : ListedLine) (harmless : line.Harmless) :
      (renderLine marks previous line).map (fun text => siftText symbols text.toList) =
        (renderLine marks previous line.plain).map fun text => siftText symbols text.toList := by
    have sifted := @siftText_line symbols line harmless
    unfold renderLine
    simp only [List.map_append]
    refine congrArg (· ++ _) (congrArg (_ ++ ·) (congrArg (fun text => [text]) ?_))
    refine Eq.trans (congrArg (siftText symbols) ?_) (sifted.trans (congrArg (siftText symbols) ?_))
    · rw [@String.toList_append (indent line.depth ++ line.text)]
      cases line.comment with
      | none => rfl
      | some comment => exact congrArg (_ ++ ·) String.toList_append
    · exact congrArg String.toList String.append_empty.symm
  rw [whole line here, whole other there, plain]

/-- Statements that are the same up to harmless comments are sifted alike. -/
theorem sift_renderLines {one two : Symbols} {first second : List ListedLine}
    (alike : LinesAlike one two first second) (here : ∀ line ∈ first, line.Harmless)
    (there : ∀ line ∈ second, line.Harmless) (marks : List Nat) (previous : Nat) :
    (renderLines marks previous first).1.map (fun text => siftText symbols text.toList) =
        (renderLines marks previous second).1.map (fun text => siftText symbols text.toList) ∧
      (renderLines marks previous first).2 = (renderLines marks previous second).2 := by
  induction first generalizing second previous with
  | nil =>
    rcases alike.cases_head with ⟨-, rfl⟩ | ⟨_, _, _, _, impossible, -⟩
    · exact ⟨rfl, rfl⟩
    · cases impossible
  | cons line rest inductionHypothesis =>
    rcases alike.cases_head with
      ⟨impossible, -⟩ | ⟨_, other, _, remaining, same, rfl, plain, -, -, more⟩
    · cases impossible
    · cases same
      obtain ⟨ours, firsts⟩ := List.forall_mem_cons.mp here
      obtain ⟨theirs, seconds⟩ := List.forall_mem_cons.mp there
      have depth : line.depth = other.depth := (congrArg ListedLine.depth plain :)
      obtain ⟨texts, last⟩ := inductionHypothesis more firsts seconds line.depth
      rw [depth] at texts last
      simp only [renderLines, List.map_append, depth, sift_renderLine plain ours theirs, texts, last,
        and_self]

/-- Listings that are the same up to harmless comments are sifted alike. -/
theorem sift_render {one two : Symbols} {first second : Listing} (program : Program)
    (labels : first.labels = second.labels) (alike : LinesAlike one two first.lines second.lines)
    (here : ∀ line ∈ first.lines, line.Harmless) (there : ∀ line ∈ second.lines, line.Harmless) :
    siftText symbols ("\n".intercalate (first.render program)).toList =
      siftText symbols ("\n".intercalate (second.render program)).toList := by
  obtain ⟨texts, last⟩ := @sift_renderLines symbols _ _ _ _ alike here there first.labels 0
  rw [siftText_intercalate, siftText_intercalate]
  refine gather_congr ?_
  rw [labels] at texts last
  simp only [render, labels, List.map_cons, List.map_append, texts, last]

end Listing

theorem replaceNames_plain (symbols : Symbols) (text : List Char) (passed : Nat) :
    replaceNames symbols.plain text passed = replaceNames symbols text passed := by
  induction text generalizing passed with
  | nil => rfl
  | cons c rest inductionHypothesis =>
    cases passed with
    | succ passed => exact inductionHypothesis passed
    | zero =>
      rw [replaceNames, replaceNames]
      simp only [inductionHypothesis]
      rfl

/-- What becomes a comment makes no difference to cleaning. -/
theorem cleanLine_plain_eq (symbols : Symbols) : cleanLine symbols.plain = cleanLine symbols := by
  funext line
  unfold cleanLine
  simp only [replaceNames_plain]

theorem siftText_plain_eq (symbols : Symbols) : siftText symbols.plain = siftText symbols := by
  unfold siftText siftLine
  rw [cleanLine_plain_eq]

/-! ### Reading listings again -/

/-- The text of a script is its listing, line by line. -/
theorem Program.gives_text (program : Program) (symbols : Symbols) (lenient : Bool) :
    (program.text symbols lenient).Gives
      ((program.listing symbols lenient).outcome.1.map fun listing =>
        "\n".intercalate (listing.render program)) := by
  have listed := program.gives_listing symbols lenient
  have joined := (listed.bind fun listing => Logged.gives_pure (listing.render program)).bind
    fun lines => Logged.gives_pure ("\n".intercalate lines)
  rw [← listed.outcome] at joined
  unfold text textLines
  cases ended : (program.listing symbols lenient).outcome.1 with
  | error fault => rwa [ended] at joined
  | ok listing => rwa [ended] at joined

theorem Program.fst_outcome_text (program : Program) (symbols : Symbols) (lenient : Bool) :
    (program.text symbols lenient).outcome.1 =
      (program.listing symbols lenient).outcome.1.map fun listing =>
        "\n".intercalate (listing.render program) :=
  (program.gives_text symbols lenient).outcome

/-- Reads the text of a listing as a script file. -/
def Program.reread (program : Program) (symbols : Symbols) (lenient : Bool) :
    Except Fault (List Script) := do
  let text ← (program.text symbols lenient).outcome.1
  Script.parse symbols text.toList

theorem Program.reread_of_error {program : Program} {symbols : Symbols} {lenient : Bool}
    {fault : Fault} (failed : (program.listing symbols lenient).outcome.1 = .error fault) :
    program.reread symbols lenient = .error fault := by
  unfold reread
  rw [fst_outcome_text, failed]
  rfl

theorem Program.reread_of_ok {program : Program} {symbols : Symbols} {lenient : Bool}
    {listing : Listing} (listed : (program.listing symbols lenient).outcome.1 = .ok listing) :
    program.reread symbols lenient =
      Script.parse symbols ("\n".intercalate (listing.render program)).toList := by
  unfold reread
  rw [fst_outcome_text, listed]
  rfl

/-- The statements that are listed have their quotes in pairs, as far as they stand in the line
of their comment. -/
def Program.PairsQuotes (program : Program) (symbols : Symbols) (lenient : Bool) : Prop :=
  ∀ listing, (program.listing symbols lenient).outcome.1 = .ok listing →
    ∀ line ∈ listing.lines, (Text.lastLine line.text.toList).count '"' % 2 = 0

section Rereading

variable {program : Program} {one two : Symbols} {lenient : Bool}

/-- Code is listed alike up to comments, or cannot be listed. -/
theorem Program.listing_alike (program : Program) (lenient : Bool) (same : one.plain = two.plain) :
    (∃ fault, (program.listing one lenient).outcome.1 = .error fault ∧
        (program.listing two lenient).outcome.1 = .error fault) ∨
      ∃ first second, (program.listing one lenient).outcome.1 = .ok first ∧
        (program.listing two lenient).outcome.1 = .ok second ∧ first.labels = second.labels ∧
        LinesAlike one two first.lines second.lines := by
  have start : (Scan.start program.code).Alike one two (.start program.code) := ⟨rfl, .nil⟩
  obtain ⟨outcomes, scans⟩ := (Decoder.relates_alike program lenient same).script _ _ start
  rw [fst_outcome_listing, fst_outcome_listing, ← outcomes]
  cases ((Decoder.script ⟨program, one, lenient⟩).result (.start program.code)).1 with
  | error fault => exact Or.inl ⟨fault, rfl, rfl⟩
  | ok value =>
    refine Or.inr ⟨_, _, rfl, rfl, ?_, scans.lines.reverse⟩
    simp only [Scan.listing, scans.labels_eq]

/-- Comments that do not break lines are harmless in both listings if they hold no quotes, or
if the quotes of the statements are paired. -/
theorem Program.harmless_of_listing {first second : Listing}
    (listed : (program.listing one lenient).outcome.1 = .ok first)
    (alike : LinesAlike one two first.lines second.lines)
    (unbroken : ∀ text, one.IsComment text ∨ two.IsComment text → Text.Unbroken text.toList)
    (quotes : (∀ text, one.IsComment text ∨ two.IsComment text → '"' ∉ text.toList) ∨
      program.PairsQuotes one lenient) :
    (∀ line ∈ first.lines, line.Harmless) ∧ ∀ line ∈ second.lines, line.Harmless := by
  refine ⟨fun line member comment given => ?_, fun line member comment given => ?_⟩
  · have known : one.IsComment comment ∨ two.IsComment comment :=
      Or.inl (alike.first_comments line member comment given)
    exact ⟨unbroken comment known,
      quotes.imp (fun absent => absent comment known) fun paired => paired first listed line member⟩
  · have known : one.IsComment comment ∨ two.IsComment comment :=
      Or.inr (alike.second_comments line member comment given)
    refine ⟨unbroken comment known, quotes.imp (fun absent => absent comment known) fun paired => ?_⟩
    obtain ⟨kin, inside, plain⟩ := alike.exists_first member
    have text : kin.text = line.text := (congrArg ListedLine.text plain :)
    rw [← text]
    exact paired first listed kin inside

/-- The comments of a listing are inert. With symbols that differ in nothing but subtitles and
the comments of flags, code is listed and the text read again to the same scripts, up to the
lines that are recorded, or it fails with both. Comments must not break lines, and where they
hold quotes, those of the statements must be paired. -/
theorem Program.reread_eq_of_plain_eq (same : one.plain = two.plain)
    (unbroken : ∀ text, one.IsComment text ∨ two.IsComment text → Text.Unbroken text.toList)
    (quotes : (∀ text, one.IsComment text ∨ two.IsComment text → '"' ∉ text.toList) ∨
      program.PairsQuotes one lenient) :
    (program.reread one lenient).toOption.map (List.map Script.forget) =
      (program.reread two lenient).toOption.map (List.map Script.forget) := by
  rcases program.listing_alike lenient same with ⟨fault, here, there⟩ |
    ⟨first, second, here, there, labels, alike⟩
  · rw [reread_of_error here, reread_of_error there]
  · have harmless := program.harmless_of_listing here alike unbroken quotes
    have sifted := @Listing.sift_render one _ _ _ _ program labels alike harmless.1 harmless.2
    have symbols : siftText one = siftText two := by
      rw [← siftText_plain_eq, same, siftText_plain_eq]
    rw [reread_of_ok here, reread_of_ok there]
    exact Script.agree_parse (sifted.trans (congrFun symbols _))

end Rereading

/-! ### Samples -/

/-- Symbols with one subtitle and one flag with a comment. -/
def haltSymbols (subtitle comment : String) : Symbols where
  functions := [.null, ⟨"RTX", .function, 1⟩]
  flags := [⟨"Safe", "int", "0", some comment⟩]
  references := []
  attributes := []
  items := []
  maps := .empty
  subtitles := .ofList [("gd01", subtitle)]
  parameterKinds := .ofList [("RTX0", .dialogue)]

/-- Code with a call that has a dialogue label and an assignment to a flag. -/
def haltProgram : Program where
  name := "GATE"
  code := [2, 1, 0, 1, 7, 103, 100, 48, 49, 6, 0, 0, 7, 1, 0, 0, 0, 0]
  entry := 0
  strings := []
  locals := []

theorem isComment_haltSymbols {subtitle comment text : String}
    (given : (haltSymbols subtitle comment).IsComment text) :
    text = comment ∨ text = "Dlg " ++ "gd01" ++ " = " ++ subtitle := by
  rcases given with ⟨flag, member, commented⟩ | ⟨label, found, there, written⟩
  · cases List.mem_singleton.mp member
    exact Or.inl (Option.some.inj commented).symm
  · have entry : (label, found) ∈ [("gd01", subtitle)] := Registry.mem_entries_of_find? there
    cases List.mem_singleton.mp entry
    exact Or.inr written

theorem Program.reread_halt :
    (haltSymbols "Halt, \"friend\"" "seen // once").plain = (haltSymbols "Stop" "").plain ∧
    (haltProgram.reread (haltSymbols "Stop" "") false).isOk = true ∧
    (haltProgram.reread (haltSymbols "Halt, \"friend\"" "seen // once") false).toOption.map
        (List.map Script.forget) =
      (haltProgram.reread (haltSymbols "Stop" "") false).toOption.map (List.map Script.forget) := by
  have paired : ((haltProgram.listing (haltSymbols "Halt, \"friend\"" "seen // once")
      false).outcome.1.toOption.all fun listing => listing.lines.all fun line =>
        decide ((Text.lastLine line.text.toList).count '"' % 2 = 0)) = true := by decide +kernel
  refine ⟨rfl, by decide +kernel, reread_eq_of_plain_eq rfl (fun text given => ?_) (Or.inr ?_)⟩
  · rcases given with first | second
    · rcases isComment_haltSymbols first with rfl | rfl
      · exact forall_mem_of_all (by decide +kernel)
      · exact forall_mem_of_all (by decide +kernel)
    · rcases isComment_haltSymbols second with rfl | rfl
      · exact forall_mem_of_all (by decide +kernel)
      · exact forall_mem_of_all (by decide +kernel)
  · intro listing listed
    rw [listed] at paired
    exact forall_mem_of_all paired

/-- A dialogue file with one subtitle of two lines. -/
def haltDialogue : Bytes :=
  [103, 100, 48, 49, 0, 0, 0, 18, 0, 0, 12, 0, 0, 0, 72, 97, 108, 116, 33, 10, 82, 101, 116, 117, 114,
    110, 69, 78, 68, 32]

/-- The second line of a subtitle is read as a statement. -/
theorem Program.reread_brokenComment :
    (haltSymbols "Halt!\nReturn" "").plain = (haltSymbols "Halt!" "").plain ∧
    (Dialogue.parse haltDialogue).toOption.bind (·.find? "gd01") = some "Halt!\nReturn" ∧
    (haltProgram.reread (haltSymbols "Halt!\nReturn" "") false).toOption.map
        (List.map fun script => script.forget.body.codeSize (haltSymbols "Halt!" "")) = some [19] ∧
    (haltProgram.reread (haltSymbols "Halt!" "") false).toOption.map
        (List.map fun script => script.forget.body.codeSize (haltSymbols "Halt!" "")) = some [18] ∧
    (haltProgram.reread (haltSymbols "Halt!\nReturn" "") false).toOption.map
        (List.map Script.forget) ≠
      (haltProgram.reread (haltSymbols "Halt!" "") false).toOption.map (List.map Script.forget) := by
  have more : (haltProgram.reread (haltSymbols "Halt!\nReturn" "") false).toOption.map
      (List.map fun script => script.forget.body.codeSize (haltSymbols "Halt!" "")) = some [19] := by
    decide +kernel
  have fewer : (haltProgram.reread (haltSymbols "Halt!" "") false).toOption.map
      (List.map fun script => script.forget.body.codeSize (haltSymbols "Halt!" "")) = some [18] := by
    decide +kernel
  refine ⟨rfl, by decide +kernel, more, fewer, fun same => ?_⟩
  have sizes := congrArg (Option.map (List.map fun script : Script =>
    script.body.codeSize (haltSymbols "Halt!" ""))) same
  simp only [Option.map_map, Function.comp_def, List.map_map] at sizes
  rw [more, fewer] at sizes
  cases sizes

end MapScript
