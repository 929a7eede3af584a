/-
This file accounts for the lines of a script file. Reading goes through the lines with one cursor
and tells nesting from braces that stand alone; here the braces are matched by counting, which
knows nothing of reading. A statement in a script has a seat: the place of its line among the
lines that are not blank, and the place of the line that its block belongs to. In the order of
the text, the seats are all lines between the braces of a script that are no braces, each once
and with the statement on it, and a block is what stands between the braces that most closely
enclose it. That no line is lost is then a matter of counting: the places of the seats follow
from the number of lines that each statement takes, and the lines are those places.
-/

import MapScript.Proofs.Script.Sequences
import Mathlib.Data.List.Forall2

namespace MapScript

/-! ### Braces -/

namespace ScriptLine

/-- Whether a line opens a block. -/
def isOpen (line : ScriptLine) : Bool := line.text == ['\x7b']

/-- Whether a line closes a block. -/
def isClose (line : ScriptLine) : Bool := line.text == ['\x7d']

/-- What a line does to the number of open braces. -/
def balance (line : ScriptLine) : Int :=
  if line.isOpen then 1 else if line.isClose then -1 else 0

theorem isBrace_iff {line : ScriptLine} :
    line.IsBrace ↔ line.isOpen = true ∨ line.isClose = true := by
  rw [IsBrace, isOpen, isClose, beq_iff_eq, beq_iff_eq]

theorem isOpen_of_text {line : ScriptLine} (opens : line.text = ['\x7b']) : line.isOpen = true :=
  beq_iff_eq.mpr opens

theorem isClose_of_text {line : ScriptLine} (closes : line.text = ['\x7d']) :
    line.isClose = true :=
  beq_iff_eq.mpr closes

theorem text_of_isOpen {line : ScriptLine} (opens : line.isOpen = true) : line.text = ['\x7b'] :=
  beq_iff_eq.mp opens

theorem text_of_isClose {line : ScriptLine} (closes : line.isClose = true) :
    line.text = ['\x7d'] :=
  beq_iff_eq.mp closes

theorem isClose_of_open {line : ScriptLine} (opens : line.text = ['\x7b']) :
    line.isClose = false := by
  rw [isClose, opens]
  decide

theorem isOpen_of_close {line : ScriptLine} (closes : line.text = ['\x7d']) :
    line.isOpen = false := by
  rw [isOpen, closes]
  decide

theorem not_open_of_plain {line : ScriptLine} (plain : ¬line.IsBrace) : line.isOpen = false :=
  Bool.eq_false_iff.mpr fun opens => plain (isBrace_iff.mpr (.inl opens))

theorem not_close_of_plain {line : ScriptLine} (plain : ¬line.IsBrace) : line.isClose = false :=
  Bool.eq_false_iff.mpr fun closes => plain (isBrace_iff.mpr (.inr closes))

theorem balance_plain {line : ScriptLine} (plain : ¬line.IsBrace) : line.balance = 0 := by
  rw [balance, not_open_of_plain plain, not_close_of_plain plain]
  rfl

theorem balance_open {line : ScriptLine} (opens : line.text = ['\x7b']) : line.balance = 1 := by
  rw [balance, isOpen_of_text opens, if_pos rfl]

theorem balance_close {line : ScriptLine} (closes : line.text = ['\x7d']) :
    line.balance = -1 := by
  rw [balance, isOpen_of_close closes, isClose_of_text closes]
  rfl

end ScriptLine

/-- The number of braces that are open in front of a line. -/
def bracesBefore : List ScriptLine → (place : Nat) → Int
  | [], _ | _, 0 => 0
  | line :: rest, place + 1 => line.balance + bracesBefore rest place

theorem bracesBefore_zero (lines : List ScriptLine) : bracesBefore lines 0 = 0 := by
  cases lines <;> rfl

theorem bracesBefore_succ {lines : List ScriptLine} {place : Nat} {line : ScriptLine}
    (here : lines[place]? = some line) :
    bracesBefore lines (place + 1) = bracesBefore lines place + line.balance := by
  induction lines generalizing place with
  | nil => cases here
  | cons first rest inductionHypothesis =>
    cases place with
    | zero =>
      cases Option.some.inj here
      rw [bracesBefore_zero, bracesBefore, bracesBefore_zero, Int.add_comm]
    | succ place =>
      rw [bracesBefore, inductionHypothesis here, bracesBefore, Int.add_assoc]

/-- A pair of braces that match: behind the closing one as many braces are open as in front of
the opening one, and everywhere between them there are more. -/
structure Paired (lines : List ScriptLine) (opening closing : Nat) : Prop where
  opens : ∃ line, lines[opening]? = some line ∧ line.text = ['\x7b']
  closes : ∃ line, lines[closing]? = some line ∧ line.text = ['\x7d']
  before : opening < closing
  deeper : ∀ place, opening < place → place ≤ closing →
    bracesBefore lines opening < bracesBefore lines place
  level : bracesBefore lines (closing + 1) = bracesBefore lines opening

/-- The pair of braces that most closely encloses a line. -/
structure Innermost (lines : List ScriptLine) (opening closing place : Nat) : Prop where
  paired : Paired lines opening closing
  behind : opening < place
  before : place < closing
  closest : ∀ first last, Paired lines first last → first < place → place < last →
    first ≤ opening ∧ closing ≤ last

namespace Paired

variable {lines : List ScriptLine} {opening closing : Nat}

/-- A brace matches one brace only. -/
theorem unique {other : Nat} (one : Paired lines opening closing)
    (two : Paired lines opening other) : closing = other := by
  refine Nat.le_antisymm (Nat.not_lt.mp fun less => ?_) (Nat.not_lt.mp fun less => ?_)
  · have inside := one.deeper (other + 1) (by have := two.before; omega) less
    have level := two.level
    omega
  · have inside := two.deeper (closing + 1) (by have := one.before; omega) less
    have level := one.level
    omega

/-- A pair most closely encloses the lines in it at which just one brace more is open than in
front of it. -/
theorem innermost {place : Nat} (paired : Paired lines opening closing) (behind : opening < place)
    (before : place < closing)
    (level : bracesBefore lines place = bracesBefore lines opening + 1) :
    Innermost lines opening closing place := by
  refine ⟨paired, behind, before, fun first last other above below => ?_⟩
  have outer : first ≤ opening := Nat.not_lt.mp fun later => by
    have one := paired.deeper first later (by omega)
    have two := other.deeper place above (by omega)
    omega
  refine ⟨outer, Nat.not_lt.mp fun earlier => ?_⟩
  have one := paired.deeper (last + 1) (by omega) earlier
  have closed := other.level
  rcases Nat.lt_or_eq_of_le outer with strictly | same
  · have two := other.deeper opening strictly (by omega)
    omega
  · rw [same] at closed
    omega

end Paired

/-! ### Seats -/

/-- A statement of a script file in its place: the place of its line, the place of the line that
its block belongs to, and the statement with the line it was read from. -/
structure Seat where
  place : Nat
  owner : Nat
  origin : Option Origin
  statement : Statement

/-- Whether a block belongs to the statement in a seat. -/
def Seat.hasBody (seat : Seat) : Bool := seat.statement.hasBody

mutual

/-- The number of lines that a statement takes: its own, and those of its block with two
braces. -/
def Statement.lineCount : Statement → Nat
  | .branch _ body => body.lineCount + 3
  | .returnGuard _ body => body.lineCount + 3
  | _ => 1

/-- The number of lines of a block. -/
def Block.lineCount : Block → Nat
  | .nil => 0
  | .cons _ first rest => first.lineCount + rest.lineCount

end

mutual

/-- The seats in the block of a statement at a place; the block starts behind the brace on the
line after it. -/
def Statement.seats (place : Nat) : Statement → List Seat
  | .branch _ body => body.seats place (place + 2)
  | .returnGuard _ body => body.seats place (place + 2)
  | _ => []

/-- The seats of a block that starts at a place and belongs to the line at another: each
statement in front of those in its block, in the order of the text. -/
def Block.seats (owner place : Nat) : Block → List Seat
  | .nil => []
  | .cons origin first rest =>
    ⟨place, owner, origin, first⟩ ::
      (first.seats place ++ rest.seats owner (place + first.lineCount))

end

/-- The seats of scripts whose titles stand at given places. -/
def fileSeats (titles : List Nat) (scripts : List Script) : List Seat :=
  (titles.zip scripts).flatMap fun pair => pair.2.body.seats pair.1 (pair.1 + 2)

theorem Statement.lineCount_withBody {statement : Statement} (hasBody : statement.hasBody = true)
    (body : Block) : (statement.withBody body).lineCount = body.lineCount + 3 := by
  cases statement with
  | branch => rfl
  | returnGuard => rfl
  | _ => cases hasBody

theorem Statement.lineCount_single {statement : Statement} (noBody : statement.hasBody = false) :
    statement.lineCount = 1 := by
  cases statement with
  | branch => cases noBody
  | returnGuard => cases noBody
  | _ => rfl

theorem Statement.seats_withBody {statement : Statement} (hasBody : statement.hasBody = true)
    (place : Nat) (body : Block) :
    (statement.withBody body).seats place = body.seats place (place + 2) := by
  cases statement with
  | branch => rfl
  | returnGuard => rfl
  | _ => cases hasBody

theorem Statement.seats_single {statement : Statement} (noBody : statement.hasBody = false)
    (place : Nat) : statement.seats place = [] := by
  cases statement with
  | branch => cases noBody
  | returnGuard => cases noBody
  | _ => rfl

theorem Statement.hasBody_withBody (statement : Statement) (body : Block) :
    (statement.withBody body).hasBody = statement.hasBody := by
  cases statement <;> rfl

theorem Statement.withBody_withBody (statement : Statement) (one other : Block) :
    (statement.withBody one).withBody other = statement.withBody other := by
  cases statement <;> rfl

/-! ### Lines in their places -/

/-- Lines stand among others from a place on. -/
def StandsAt (lines : List ScriptLine) (place : Nat) (part : List ScriptLine) : Prop :=
  part <+: lines.drop place

namespace StandsAt

variable {lines part front back : List ScriptLine} {place : Nat} {line : ScriptLine}

theorem head (stands : StandsAt lines place (line :: part)) : lines[place]? = some line := by
  obtain ⟨more, split⟩ := stands
  have first : (lines.drop place)[0]? = some line := by rw [← split]; rfl
  rwa [List.getElem?_drop] at first

theorem tail (stands : StandsAt lines place (line :: part)) : StandsAt lines (place + 1) part := by
  obtain ⟨more, split⟩ := stands
  refine ⟨more, ?_⟩
  rw [← List.drop_drop, ← split]
  rfl

theorem left (stands : StandsAt lines place (front ++ back)) : StandsAt lines place front :=
  (List.prefix_append front back).trans stands

theorem right (stands : StandsAt lines place (front ++ back)) :
    StandsAt lines (place + front.length) back := by
  obtain ⟨more, split⟩ := stands
  refine ⟨more, ?_⟩
  rw [← List.drop_drop, ← split, List.append_assoc, List.drop_left]

end StandsAt

/-! ### Blocks keep the count of braces -/

/-- Over so many lines from a place on never fewer braces are open than in front of them, and
just as many behind them. -/
structure Level (lines : List ScriptLine) (place count : Nat) : Prop where
  stays : ∀ other, place ≤ other → other ≤ place + count →
    bracesBefore lines place ≤ bracesBefore lines other
  ends : bracesBefore lines (place + count) = bracesBefore lines place

namespace Level

variable {lines : List ScriptLine} {place count more : Nat} {line opening closing : ScriptLine}

theorem nil : Level lines place 0 where
  stays := fun other behind before => by
    cases Nat.le_antisymm before behind
    exact Int.le_refl _
  ends := rfl

theorem append (first : Level lines place count) (second : Level lines (place + count) more) :
    Level lines place (count + more) where
  stays := fun other behind before => by
    by_cases inside : other ≤ place + count
    · exact first.stays other behind inside
    · exact first.ends ▸ second.stays other (by omega) (by omega)
  ends := by rw [← Nat.add_assoc, second.ends, first.ends]

theorem plain (here : lines[place]? = some line) (noBrace : ¬line.IsBrace) :
    Level lines place 1 := by
  have step := bracesBefore_succ here
  rw [ScriptLine.balance_plain noBrace, Int.add_zero] at step
  refine ⟨fun other behind before => ?_, step⟩
  rcases Nat.le_or_eq_of_le_succ before with same | rfl
  · cases Nat.le_antisymm same behind
    exact Int.le_refl _
  · exact Int.le_of_eq step.symm

/-- Braces around lines match if the lines keep the count. -/
theorem paired (opens : lines[place]? = some opening) (isOpen : opening.text = ['\x7b'])
    (inside : Level lines (place + 1) count) (closes : lines[place + 1 + count]? = some closing)
    (isClose : closing.text = ['\x7d']) : Paired lines place (place + 1 + count) := by
  have opened := bracesBefore_succ opens
  have closed := bracesBefore_succ closes
  rw [ScriptLine.balance_open isOpen] at opened
  rw [ScriptLine.balance_close isClose, inside.ends] at closed
  refine ⟨⟨opening, opens, isOpen⟩, ⟨closing, closes, isClose⟩, by omega,
    fun other behind before => ?_, by omega⟩
  have bound := inside.stays other behind before
  omega

/-- Braces that match keep the count, with the lines between them. -/
theorem braced (paired : Paired lines place (place + 1 + count)) :
    Level lines place (count + 2) := by
  have whole : place + 1 + count + 1 = place + (count + 2) := by omega
  have closed := paired.level
  rw [whole] at closed
  refine ⟨fun other behind before => ?_, closed⟩
  rcases Nat.lt_or_eq_of_le behind with later | rfl
  · rcases Nat.lt_or_eq_of_le before with earlier | rfl
    · exact Int.le_of_lt (paired.deeper other later (by omega))
    · exact Int.le_of_eq closed.symm
  · exact Int.le_refl _

end Level

section Blocks

variable {lines part : List ScriptLine} {place : Nat} {block : Block}

theorem Unfolds.length_eq (unfolds : Unfolds part block) : part.length = block.lineCount := by
  induction unfolds with
  | nil => rfl
  | single plain read noBody rest restLength =>
    rw [List.length_cons, Block.lineCount, Statement.lineCount_single noBody, restLength,
      Nat.add_comm]
  | nested plain read hasBody opens inside closes rest insideLength restLength =>
    rw [List.length_cons, List.length_cons, List.length_append, List.length_cons, insideLength,
      restLength, Block.lineCount, Statement.lineCount_withBody hasBody]
    omega

/-- The lines of a block keep the count of braces. -/
theorem Unfolds.keepsLevel (unfolds : Unfolds part block) (stands : StandsAt lines place part) :
    Level lines place part.length := by
  induction unfolds generalizing place with
  | nil => exact .nil
  | single plain read noBody rest inductionHypothesis =>
    rw [List.length_cons, Nat.add_comm]
    exact (Level.plain stands.head plain).append (inductionHypothesis stands.tail)
  | @nested line opening closing inner behind statement body others plain read hasBody opens inside
      closes rest insideLevel restLevel =>
    have inBraces := stands.tail
    have atClose := inBraces.tail.right
    have paired := Level.paired inBraces.head opens (insideLevel inBraces.tail.left) atClose.head
      closes
    have afterBraces : place + 1 + 1 + inner.length + 1 = place + 1 + (inner.length + 2) := by omega
    have behindBraces := restLevel atClose.tail
    rw [afterBraces] at behindBraces
    have whole := (Level.plain stands.head plain).append ((Level.braced paired).append behindBraces)
    have length : (line :: opening :: (inner ++ closing :: behind)).length =
        1 + (inner.length + 2 + behind.length) := by
      simp only [List.length_cons, List.length_append]
      omega
    rwa [length]

/-- The braces around lines that make up a block match. -/
theorem Unfolds.paired {opening closing : ScriptLine} {inner : List ScriptLine}
    (unfolds : Unfolds inner block) (opens : opening.text = ['\x7b'])
    (closes : closing.text = ['\x7d'])
    (stands : StandsAt lines place (opening :: (inner ++ closing :: part))) :
    Paired lines place (place + 1 + inner.length) :=
  Level.paired stands.head opens (unfolds.keepsLevel stands.tail.left) stands.tail.right.head closes

end Blocks

/-! ### Lines that are no braces -/

instance : DecidablePred ScriptLine.IsBrace :=
  fun line => inferInstanceAs (Decidable (line.text = _ ∨ line.text = _))

/-- The places of the lines that are no braces, if the first line stands at a place. -/
def plainPlaces : (place : Nat) → List ScriptLine → List Nat
  | _, [] => []
  | place, line :: rest =>
    if line.IsBrace then plainPlaces (place + 1) rest else place :: plainPlaces (place + 1) rest

theorem plainPlaces_append (place : Nat) (front back : List ScriptLine) :
    plainPlaces place (front ++ back) =
      plainPlaces place front ++ plainPlaces (place + front.length) back := by
  induction front generalizing place with
  | nil => rfl
  | cons line rest inductionHypothesis =>
    rw [List.cons_append, plainPlaces, plainPlaces, inductionHypothesis, List.length_cons,
      ← Nat.add_assoc, Nat.add_right_comm]
    split <;> rfl

theorem mem_plainPlaces {lines part : List ScriptLine} {place other : Nat}
    (stands : StandsAt lines place part) :
    other ∈ plainPlaces place part ↔ place ≤ other ∧ other < place + part.length ∧
      ∃ line, lines[other]? = some line ∧ ¬line.IsBrace := by
  induction part generalizing place with
  | nil =>
    rw [plainPlaces, List.length_nil]
    exact ⟨nofun, fun ⟨low, high, _⟩ => by omega⟩
  | cons first rest inductionHypothesis =>
    have later := inductionHypothesis stands.tail
    rw [Nat.add_right_comm] at later
    rw [plainPlaces, List.length_cons, ← Nat.add_assoc]
    have here : (∃ line, lines[place]? = some line ∧ ¬line.IsBrace) ↔ ¬first.IsBrace := by
      rw [stands.head]
      exact ⟨fun ⟨_, same, plain⟩ => Option.some.inj same ▸ plain, fun plain => ⟨_, rfl, plain⟩⟩
    split
    · rename_i brace
      rw [later]
      refine ⟨fun ⟨low, rest⟩ => ⟨by omega, rest⟩, fun ⟨low, high, plain⟩ => ⟨?_, high, plain⟩⟩
      rcases Nat.lt_or_eq_of_le low with behind | rfl
      · exact behind
      · exact absurd brace (here.mp plain)
    · rename_i plain
      rw [List.mem_cons, later]
      constructor
      · rintro (rfl | ⟨low, rest⟩)
        · exact ⟨Nat.le_refl _, by omega, here.mpr plain⟩
        · exact ⟨by omega, rest⟩
      · rintro ⟨low, rest⟩
        rcases Nat.lt_or_eq_of_le low with behind | rfl
        · exact .inr ⟨behind, rest⟩
        · exact .inl rfl

theorem le_of_mem_plainPlaces {place other : Nat} {part : List ScriptLine}
    (member : other ∈ plainPlaces place part) : place ≤ other ∧ other < place + part.length := by
  induction part generalizing place with
  | nil => cases member
  | cons first rest inductionHypothesis =>
    rw [List.length_cons]
    rw [plainPlaces] at member
    split at member
    · have := inductionHypothesis member
      omega
    · rcases List.mem_cons.mp member with rfl | member
      · omega
      · have := inductionHypothesis member
        omega

theorem pairwise_plainPlaces (place : Nat) (part : List ScriptLine) :
    (plainPlaces place part).Pairwise (· < ·) := by
  induction part generalizing place with
  | nil => exact .nil
  | cons first rest inductionHypothesis =>
    rw [plainPlaces]
    split
    · exact inductionHypothesis _
    · exact .cons (fun other member => (le_of_mem_plainPlaces member).1) (inductionHypothesis _)

/-! ### Counting braces -/

section Counting

variable {line opening closing : ScriptLine} {inner rest : List ScriptLine}

theorem countP_isOpen_plain (plain : ¬line.IsBrace) :
    (line :: rest).countP ScriptLine.isOpen = rest.countP ScriptLine.isOpen :=
  List.countP_cons_of_neg (Bool.eq_false_iff.mp (ScriptLine.not_open_of_plain plain))

theorem countP_isClose_plain (plain : ¬line.IsBrace) :
    (line :: rest).countP ScriptLine.isClose = rest.countP ScriptLine.isClose :=
  List.countP_cons_of_neg (Bool.eq_false_iff.mp (ScriptLine.not_close_of_plain plain))

theorem countP_isOpen_braced (opens : opening.text = ['\x7b']) (closes : closing.text = ['\x7d']) :
    (opening :: (inner ++ closing :: rest)).countP ScriptLine.isOpen =
      inner.countP ScriptLine.isOpen + rest.countP ScriptLine.isOpen + 1 := by
  rw [List.countP_cons_of_pos (ScriptLine.isOpen_of_text opens), List.countP_append,
    List.countP_cons_of_neg (Bool.eq_false_iff.mp (ScriptLine.isOpen_of_close closes))]

theorem countP_isClose_braced (opens : opening.text = ['\x7b'])
    (closes : closing.text = ['\x7d']) :
    (opening :: (inner ++ closing :: rest)).countP ScriptLine.isClose =
      inner.countP ScriptLine.isClose + rest.countP ScriptLine.isClose + 1 := by
  rw [List.countP_cons_of_neg (Bool.eq_false_iff.mp (ScriptLine.isClose_of_open opens)),
    List.countP_append, List.countP_cons_of_pos (ScriptLine.isClose_of_text closes), Nat.add_assoc]

end Counting

/-! ### Seats in blocks -/

/-- A seat is right about its line: the statement there is read from it, up to its block, and
the braces of the block it belongs to are the ones that most closely enclose it. -/
structure Seat.Sits (lines : List ScriptLine) (seat : Seat) : Prop where
  read : ∃ line, lines[seat.place]? = some line ∧ seat.origin = some line.origin ∧
    Statement.parse line.text = .ok (seat.statement.withBody .nil)
  inside : ∃ closing, Innermost lines (seat.owner + 1) closing seat.place

section Blocks

variable {lines part : List ScriptLine} {place owner : Nat} {block : Block}

/-- The seats of a block are the lines that are no braces. -/
theorem Unfolds.places (unfolds : Unfolds part block) :
    (block.seats owner place).map Seat.place = plainPlaces place part := by
  induction unfolds generalizing owner place with
  | nil => rfl
  | single plain read noBody rest restPlaces =>
    rw [plainPlaces, if_neg plain, Block.seats, Statement.seats_single noBody,
      Statement.lineCount_single noBody, List.nil_append, List.map_cons, restPlaces]
  | @nested line opening closing inner behind statement body others plain read hasBody opens inside
      closes rest insidePlaces restPlaces =>
    rw [Block.seats, Statement.seats_withBody hasBody, Statement.lineCount_withBody hasBody,
      List.map_cons, List.map_append, insidePlaces, restPlaces, plainPlaces, if_neg plain,
      plainPlaces, if_pos (.inl opens), plainPlaces_append, plainPlaces, if_pos (.inr closes),
      ← inside.length_eq]
    congr 3
    omega

/-- Every brace in a block belongs to a statement with a block of its own. -/
theorem Unfolds.counts (unfolds : Unfolds part block) (owner place : Nat) :
    part.countP ScriptLine.isOpen = (block.seats owner place).countP Seat.hasBody ∧
      part.countP ScriptLine.isClose = part.countP ScriptLine.isOpen := by
  induction unfolds generalizing owner place with
  | nil => exact ⟨rfl, rfl⟩
  | @single line lines statement others plain read noBody rest restCounts =>
    have alone : Seat.hasBody ⟨place, owner, some line.origin, statement⟩ = false := noBody
    rw [Block.seats, Statement.seats_single noBody, List.nil_append, countP_isOpen_plain plain,
      countP_isClose_plain plain, List.countP_cons_of_neg (Bool.eq_false_iff.mp alone)]
    exact restCounts _ _
  | @nested line opening closing inner behind statement body others plain read hasBody opens inside
      closes rest insideCounts restCounts =>
    have owned : Seat.hasBody ⟨place, owner, some line.origin, statement.withBody body⟩ = true :=
      (Statement.hasBody_withBody statement body).trans hasBody
    obtain ⟨insideOpen, insideClose⟩ := insideCounts place (place + 2)
    obtain ⟨restOpen, restClose⟩ :=
      restCounts owner (place + (statement.withBody body).lineCount)
    rw [Block.seats, Statement.seats_withBody hasBody, List.countP_cons_of_pos owned,
      List.countP_append, countP_isOpen_plain plain, countP_isClose_plain plain,
      countP_isOpen_braced opens closes, countP_isClose_braced opens closes, ← insideOpen,
      ← restOpen, insideClose, restClose]
    exact ⟨rfl, rfl⟩

/-- The seats of a block are right about their lines if the braces around it match. -/
theorem Unfolds.sits {closing : Nat} (unfolds : Unfolds part block)
    (stands : StandsAt lines place part) (paired : Paired lines (owner + 1) closing)
    (behindOwner : owner + 1 < place) (before : place + part.length ≤ closing)
    (level : bracesBefore lines place = bracesBefore lines (owner + 1) + 1) :
    ∀ seat ∈ block.seats owner place, seat.Sits lines := by
  induction unfolds generalizing owner place closing with
  | nil => exact fun _ member => absurd member List.not_mem_nil
  | single plain read noBody rest restSits =>
    rw [List.length_cons] at before
    have step := bracesBefore_succ stands.head
    rw [ScriptLine.balance_plain plain, Int.add_zero] at step
    rw [Block.seats, Statement.seats_single noBody, Statement.lineCount_single noBody,
      List.nil_append]
    refine List.forall_mem_cons.mpr ⟨⟨⟨_, stands.head, rfl, ?_⟩, ⟨closing, ?_⟩⟩, ?_⟩
    · rw [(Statement.fromLine_of_parse read).bodiless]
      exact read
    · exact paired.innermost behindOwner (show place < closing by omega) level
    · exact restSits stands.tail paired (by omega) (by omega) (step.trans level)
  | @nested line opening last inner behind statement body others plain read hasBody opens inside
      closes rest insideSits restSits =>
    rw [List.length_cons, List.length_cons, List.length_append, List.length_cons] at before
    have around := inside.paired opens closes stands.tail
    have first := bracesBefore_succ stands.head
    have opened := bracesBefore_succ stands.tail.head
    rw [ScriptLine.balance_plain plain, Int.add_zero] at first
    rw [ScriptLine.balance_open opens] at opened
    rw [Block.seats, Statement.seats_withBody hasBody, Statement.lineCount_withBody hasBody]
    refine List.forall_mem_cons.mpr ⟨⟨⟨line, stands.head, rfl, ?_⟩, ⟨closing, ?_⟩⟩,
      List.forall_mem_append.mpr ⟨?_, ?_⟩⟩
    · rw [Statement.withBody_withBody, (Statement.fromLine_of_parse read).bodiless]
      exact read
    · exact paired.innermost behindOwner (show place < closing by omega) level
    · exact insideSits stands.tail.tail.left around (by omega) (by omega) opened
    · have later : place + 1 + 1 + inner.length + 1 = place + (body.lineCount + 3) := by
        rw [← inside.length_eq]
        omega
      have standsRest := stands.tail.tail.right.tail
      have closed := around.level
      rw [later] at standsRest closed
      exact restSits standsRest paired (by omega) (by omega) (closed.trans (first.trans level))

end Blocks

/-! ### Files -/

/-- Lines that make up scripts, if the first of them stands at a place: lines between scripts,
and titles at their places, each with a block in braces behind it. -/
inductive Lays : (place : Nat) → List ScriptLine → (titles : List Nat) → List Script → Prop where
  | nil {place : Nat} : Lays place [] [] []
  | between {place : Nat} {line : ScriptLine} {lines : List ScriptLine} {titles : List Nat}
      {scripts : List Script} (between : IsBetween line.text)
      (rest : Lays (place + 1) lines titles scripts) : Lays place (line :: lines) titles scripts
  | script {place : Nat} {title opening closing : ScriptLine} {inner lines : List ScriptLine}
      {titles : List Nat} {script : Script} {scripts : List Script}
      (titled : scriptLine? title.text = some (script.name, script.startLabel))
      (origin : script.origin = title.origin) (opens : opening.text = ['\x7b'])
      (inside : Unfolds inner script.body) (closes : closing.text = ['\x7d'])
      (rest : Lays (place + 1 + 1 + inner.length + 1) lines titles scripts) :
      Lays place (title :: opening :: (inner ++ closing :: lines)) (place :: titles)
        (script :: scripts)

/-- Scripts that are read from lines are made up by them. -/
theorem exists_lays_of_readScripts {bound : Nat} {preface : Preface} {lines : List ScriptLine}
    {scripts : List Script} (enough : lines.length ≤ bound)
    (read : readScripts bound preface lines = .ok scripts) (place : Nat) :
    ∃ titles, Lays place lines titles scripts := by
  induction bound generalizing preface lines scripts place with
  | zero =>
    obtain rfl := List.eq_nil_of_length_eq_zero (Nat.le_zero.mp enough)
    rw [Preface.finish_eq_ok read]
    exact ⟨[], .nil⟩
  | succ bound inductionHypothesis =>
    cases lines with
    | nil =>
      rw [Preface.finish_eq_ok read]
      exact ⟨[], .nil⟩
    | cons line rest =>
      have enough := Nat.le_of_succ_le_succ enough
      rcases readScripts_cases read with ⟨between, later, read, -⟩ |
        ⟨-, name, startLabel, lines, body, after, others, titled, taken, bodyRead, othersRead, rfl⟩
      · obtain ⟨titles, lays⟩ := inductionHypothesis enough read (place + 1)
        exact ⟨titles, .between between lays⟩
      · obtain ⟨opening, rfl, opens⟩ := takeOpen_eq_ok taken
        obtain ⟨inner, closing, rfl, closes, inside⟩ := unfolds_of_readBlock bodyRead
        have few : after.length ≤ bound := by
          rw [List.length_cons, List.length_append, List.length_cons] at enough
          omega
        obtain ⟨titles, lays⟩ :=
          inductionHypothesis few othersRead (place + 1 + 1 + inner.length + 1)
        exact ⟨place :: titles, .script titled rfl opens inside closes lays⟩

/-- The line at a place is the title of a script: it stands outside of all blocks, and braces
that match stand behind it. -/
structure Heads (lines : List ScriptLine) (title : Nat) (script : Script) : Prop where
  read : ∃ line, lines[title]? = some line ∧ script.origin = line.origin ∧
    scriptLine? line.text = some (script.name, script.startLabel)
  outermost : bracesBefore lines title = 0
  braces : ∃ closing, Paired lines (title + 1) closing

/-- A place stands between the braces behind one of the titles. -/
def Within (lines : List ScriptLine) (titles : List Nat) (place : Nat) : Prop :=
  ∃ title ∈ titles, ∃ closing, Paired lines (title + 1) closing ∧ title + 1 < place ∧
    place < closing

namespace Lays

variable {lines part : List ScriptLine} {place : Nat} {titles : List Nat} {scripts : List Script}

theorem not_brace_of_between {line : ScriptLine} (between : IsBetween line.text) :
    ¬line.IsBrace :=
  fun brace => (brace_alone brace).1 between

theorem not_brace_of_titled {line : ScriptLine} {title : String × Option Int}
    (titled : scriptLine? line.text = some title) : ¬line.IsBrace := by
  intro brace
  rw [(brace_alone brace).2] at titled
  cases titled

theorem heads (lays : Lays place part titles scripts) (stands : StandsAt lines place part)
    (outermost : bracesBefore lines place = 0) : List.Forall₂ (Heads lines) titles scripts := by
  induction lays with
  | nil => exact .nil
  | between between rest inductionHypothesis =>
    have step := bracesBefore_succ stands.head
    rw [ScriptLine.balance_plain (not_brace_of_between between), outermost] at step
    exact inductionHypothesis stands.tail step
  | script titled origin opens inside closes rest inductionHypothesis =>
    have step := bracesBefore_succ stands.head
    rw [ScriptLine.balance_plain (not_brace_of_titled titled), outermost] at step
    have paired := inside.paired opens closes stands.tail
    exact .cons ⟨⟨_, stands.head, origin, titled⟩, outermost, _, paired⟩
      (inductionHypothesis stands.tail.tail.right.tail (paired.level.trans step))

theorem sits (lays : Lays place part titles scripts) (stands : StandsAt lines place part) :
    ∀ seat ∈ fileSeats titles scripts, seat.Sits lines := by
  induction lays with
  | nil => exact fun _ member => absurd member List.not_mem_nil
  | between between rest inductionHypothesis => exact inductionHypothesis stands.tail
  | script titled origin opens inside closes rest inductionHypothesis =>
    have paired := inside.paired opens closes stands.tail
    have opened := bracesBefore_succ stands.tail.head
    rw [ScriptLine.balance_open opens] at opened
    refine List.forall_mem_append.mpr ⟨?_, inductionHypothesis stands.tail.tail.right.tail⟩
    exact inside.sits stands.tail.tail.left paired (Nat.lt_succ_self _) (Nat.le_refl _) opened

/-- The seats of a script are the lines between its braces that are none. -/
theorem places_script {inner : List ScriptLine} {script : Script}
    (inside : Unfolds inner script.body) (title : Nat) (titles : List Nat) (scripts : List Script) :
    (fileSeats (title :: titles) (script :: scripts)).map Seat.place =
      plainPlaces (title + 2) inner ++ (fileSeats titles scripts).map Seat.place := by
  rw [← inside.places, ← List.map_append]
  rfl

/-- The seats stand in the order of the text, and none in front of the first line. -/
theorem rising (lays : Lays place part titles scripts) :
    ((fileSeats titles scripts).map Seat.place).Pairwise (· < ·) ∧
      ∀ other ∈ (fileSeats titles scripts).map Seat.place, place ≤ other := by
  induction lays with
  | nil => exact ⟨.nil, fun _ member => absurd member List.not_mem_nil⟩
  | between between rest inductionHypothesis =>
    exact ⟨inductionHypothesis.1,
      fun other member => Nat.le_of_succ_le (inductionHypothesis.2 other member)⟩
  | @script place title opening closing inner lines titles script scripts titled origin opens
      inside closes rest inductionHypothesis =>
    obtain ⟨restRising, restBehind⟩ := inductionHypothesis
    rw [places_script inside]
    refine ⟨List.pairwise_append.mpr ⟨pairwise_plainPlaces _ _, restRising, ?_⟩,
      List.forall_mem_append.mpr ⟨?_, ?_⟩⟩
    · intro one oneInside other otherBehind
      have low := (le_of_mem_plainPlaces oneInside).2
      have high := restBehind other otherBehind
      omega
    · intro one oneInside
      have low := (le_of_mem_plainPlaces oneInside).1
      omega
    · intro other otherBehind
      have high := restBehind other otherBehind
      omega

/-- The seats are the lines between the braces behind titles that are no braces. -/
theorem mem_places {other : Nat} (lays : Lays place part titles scripts)
    (stands : StandsAt lines place part) :
    other ∈ (fileSeats titles scripts).map Seat.place ↔
      (∃ line, lines[other]? = some line ∧ ¬line.IsBrace) ∧ Within lines titles other := by
  induction lays with
  | nil => exact ⟨nofun, fun ⟨_, _, member, _⟩ => absurd member List.not_mem_nil⟩
  | between between rest inductionHypothesis => exact inductionHypothesis stands.tail
  | @script place title opening closing inner behind titles script scripts titled origin opens
      inside closes rest inductionHypothesis =>
    have paired := inside.paired opens closes stands.tail
    rw [places_script inside, List.mem_append, mem_plainPlaces stands.tail.tail.left,
      inductionHypothesis stands.tail.tail.right.tail]
    constructor
    · rintro (⟨low, high, plain⟩ | ⟨plain, title, member, within⟩)
      · exact ⟨plain, place, List.mem_cons_self, _, paired, low, high⟩
      · exact ⟨plain, title, List.mem_cons_of_mem _ member, within⟩
    · rintro ⟨plain, title, member, last, other, above, below⟩
      rcases List.mem_cons.mp member with rfl | member
      · cases paired.unique other
        exact .inl ⟨above, below, plain⟩
      · exact .inr ⟨plain, title, member, last, other, above, below⟩

theorem counts (lays : Lays place part titles scripts) :
    part.countP ScriptLine.isOpen =
        scripts.length + (fileSeats titles scripts).countP Seat.hasBody ∧
      part.countP ScriptLine.isClose = part.countP ScriptLine.isOpen := by
  induction lays with
  | nil => exact ⟨rfl, rfl⟩
  | between between rest inductionHypothesis =>
    have plain := not_brace_of_between between
    rw [countP_isOpen_plain plain, countP_isClose_plain plain]
    exact inductionHypothesis
  | @script place title opening closing inner behind titles script scripts titled origin opens
      inside closes rest inductionHypothesis =>
    have plain := not_brace_of_titled titled
    obtain ⟨own, ownClosed⟩ := inside.counts place (place + 2)
    have whole : fileSeats (place :: titles) (script :: scripts) =
        script.body.seats place (place + 2) ++ fileSeats titles scripts := rfl
    rw [whole, List.countP_append, List.length_cons, countP_isOpen_plain plain,
      countP_isClose_plain plain, countP_isOpen_braced opens closes,
      countP_isClose_braced opens closes]
    omega

end Lays

/-- Scripts account for the lines they were read from: every script has its title, and its
statements in the order of the text have seats that are exactly the lines between braces, each
right about its line. -/
structure Accounts (lines : List ScriptLine) (titles : List Nat) (scripts : List Script) :
    Prop where
  heads : List.Forall₂ (Heads lines) titles scripts
  rising : ((fileSeats titles scripts).map Seat.place).Pairwise (· < ·)
  exact : ∀ place, place ∈ (fileSeats titles scripts).map Seat.place ↔
    (∃ line, lines[place]? = some line ∧ ¬line.IsBrace) ∧ Within lines titles place
  sits : ∀ seat ∈ fileSeats titles scripts, seat.Sits lines

/-- Blank lines are no braces. -/
theorem countP_filled {test : ScriptLine → Bool} {mark : Char}
    (marks : ∀ {line}, test line = true → line.text = [mark]) (lines : List ScriptLine) :
    (lines.filter fun line => !line.text.isEmpty).countP test = lines.countP test := by
  rw [List.countP_filter]
  refine List.countP_congr fun line _ => ⟨fun both => (Bool.and_eq_true_iff.mp both).1,
    fun passes => Bool.and_eq_true_iff.mpr ⟨passes, ?_⟩⟩
  rw [marks passes]
  rfl

/-- Reading loses and misplaces no line: the scripts that are read account for all lines that
are not blank, and every brace that opens or closes a block is one of a script or of a
condition. -/
theorem Script.accounts_of_ofLines {lines : List ScriptLine} {scripts : List Script}
    (read : Script.ofLines lines = .ok scripts) :
    ∃ titles, Accounts (lines.filter fun line => !line.text.isEmpty) titles scripts ∧
      lines.countP ScriptLine.isOpen =
        scripts.length + (fileSeats titles scripts).countP Seat.hasBody ∧
      lines.countP ScriptLine.isClose = lines.countP ScriptLine.isOpen := by
  obtain ⟨titles, lays⟩ := exists_lays_of_readScripts (Nat.le_refl _) read 0
  have stands : StandsAt (lines.filter fun line => !line.text.isEmpty) 0
      (lines.filter fun line => !line.text.isEmpty) := List.prefix_refl _
  obtain ⟨opened, closed⟩ := lays.counts
  rw [countP_filled ScriptLine.text_of_isOpen] at opened
  rw [countP_filled ScriptLine.text_of_isClose, countP_filled ScriptLine.text_of_isOpen] at closed
  exact ⟨titles, {
    heads := lays.heads stands (bracesBefore_zero _)
    rising := lays.rising.1
    exact := fun _ => lays.mem_places stands
    sits := lays.sits stands }, opened, closed⟩

/-- The lines of a file with one condition in another, and with blank lines. -/
def nestedLines : List ScriptLine :=
  ["ID: 9", "Guard", "\x7b", "if 1 = 2", "\x7b", "", "if 3 = 4", "\x7b", "Return", "\x7d", "\x7d",
    "Endint", "\x7d", "", "var0 = 5", "Door", "\x7b", "\x7d"].mapIdx
    fun number text => ⟨⟨number + 1, text⟩, text.toList⟩

theorem Script.accounts_of_ofLines_nested :
    ∃ scripts titles, Script.ofLines nestedLines = .ok scripts ∧ scripts.length = 2 ∧
      Accounts (nestedLines.filter fun line => !line.text.isEmpty) titles scripts := by
  have passes : (Script.ofLines nestedLines).toOption.any (·.length == 2) = true := by
    decide +kernel
  obtain ⟨scripts, read, many⟩ := exists_ok_of_any passes
  obtain ⟨titles, accounts, -, -⟩ := Script.accounts_of_ofLines read
  exact ⟨scripts, titles, read, beq_iff_eq.mp many, accounts⟩

end MapScript
