/-
This file says what it means that reading is in step with code: it takes exactly the
bytes that are meant for it and adds text, and perhaps a comment, to the line that was
begun last. Readings in step can be put one after the other, so each form of a value is
settled by itself and the bytes behind it never matter.
-/

import MapScript.Listing.Decoding
import MapScript.Proofs.Attempt
import MapScript.Proofs.Bytes

namespace MapScript

/-! ### Parts of a line -/

/-- What a value adds to the line that it stands in: text, and perhaps a comment that
takes the place of an earlier one. -/
structure Excerpt where
  text : String
  comment : Option String
  deriving DecidableEq, Repr

namespace Excerpt

/-- Text without a comment. -/
def plain (text : String) : Excerpt := ⟨text, none⟩

/-- One part of a line after another. -/
def append (first second : Excerpt) : Excerpt :=
  ⟨first.text ++ second.text, second.comment <|> first.comment⟩

instance : Append Excerpt := ⟨append⟩

theorem append_def (first second : Excerpt) :
    first ++ second = ⟨first.text ++ second.text, second.comment <|> first.comment⟩ := rfl

@[simp] theorem text_append (first second : Excerpt) :
    (first ++ second).text = first.text ++ second.text := rfl

@[simp] theorem text_plain (text : String) : (plain text).text = text := rfl

theorem append_assoc (first second third : Excerpt) :
    first ++ second ++ third = first ++ (second ++ third) := by
  simp only [append_def, String.append_assoc]
  cases third.comment <;> rfl

@[simp] theorem plain_empty_append (excerpt : Excerpt) : plain "" ++ excerpt = excerpt := by
  obtain ⟨text, comment⟩ := excerpt
  simp only [append_def, plain, String.empty_append]
  cases comment <;> rfl

@[simp] theorem append_plain_empty (excerpt : Excerpt) : excerpt ++ plain "" = excerpt := by
  obtain ⟨text, comment⟩ := excerpt
  simp only [append_def, plain, String.append_empty]
  rfl

theorem plain_append_plain (first second : String) :
    plain first ++ plain second = plain (first ++ second) := rfl

end Excerpt

/-- A line with a further part. -/
def ListedLine.extend (line : ListedLine) (excerpt : Excerpt) : ListedLine :=
  { line with
    text := line.text ++ excerpt.text
    comment := excerpt.comment <|> line.comment }

theorem ListedLine.extend_extend (line : ListedLine) (first second : Excerpt) :
    (line.extend first).extend second = line.extend (first ++ second) := by
  simp only [extend, Excerpt.append_def, String.append_assoc]
  cases second.comment <;> rfl

theorem ListedLine.extend_plain_empty (line : ListedLine) : line.extend (.plain "") = line := by
  simp only [extend, Excerpt.plain, String.append_empty]
  rfl

/-- The state after some bytes were taken and a part of a line was added. -/
def Scan.after (scan : Scan) (size : Nat) (excerpt : Excerpt) : Scan :=
  { scan with
    rest := scan.rest.drop size
    position := scan.position + size
    lines := scan.lines.modifyHead (·.extend excerpt) }

theorem Scan.after_after (scan : Scan) (size more : Nat) (first second : Excerpt) :
    (scan.after size first).after more second = scan.after (size + more) (first ++ second) := by
  have lines : (scan.lines.modifyHead (·.extend first)).modifyHead (·.extend second) =
      scan.lines.modifyHead (·.extend (first ++ second)) := by
    cases scan.lines with
    | nil => rfl
    | cons line others => simp only [List.modifyHead_cons, ListedLine.extend_extend]
  simp only [after, lines, List.drop_drop, Nat.add_assoc]

theorem Scan.after_zero (scan : Scan) : scan.after 0 (.plain "") = scan := by
  obtain ⟨rest, position, depth, lines, labels, notices⟩ := scan
  cases lines with
  | nil => rfl
  | cons line others => simp [after, ListedLine.extend_plain_empty]

/-! ### Outcomes of reading -/

namespace Decoder

variable {α β : Type}

/-- What reading comes to, and the state it ends in. -/
def result (decoder : Decoder α) (scan : Scan) : Except Fault α × Scan :=
  (ExceptT.run decoder).run scan

theorem result_bind {decoder : Decoder α} {scan next : Scan} {value : α}
    (done : decoder.result scan = (.ok value, next)) (continuing : α → Decoder β) :
    (decoder >>= continuing).result scan = (continuing value).result next := by
  unfold result at *
  rw [ExceptT.run_bind, StateT.run_bind, done]
  rfl

theorem result_bind_error {decoder : Decoder α} {scan next : Scan} {fault : Fault}
    (failed : decoder.result scan = (.error fault, next)) (continuing : α → Decoder β) :
    (decoder >>= continuing).result scan = (.error fault, next) := by
  unfold result at *
  rw [ExceptT.run_bind, StateT.run_bind, failed]
  rfl

/-- A reading after another one succeeds if both do. -/
theorem result_bind_eq_ok {decoder : Decoder α} {continuing : α → Decoder β} {scan final : Scan}
    {value : β} :
    (decoder >>= continuing).result scan = (.ok value, final) ↔
      ∃ found middle, decoder.result scan = (.ok found, middle) ∧
        (continuing found).result middle = (.ok value, final) := by
  constructor
  · intro done
    cases outcome : decoder.result scan with
    | mk attempt middle =>
      cases attempt with
      | ok found =>
        rw [result_bind outcome] at done
        exact ⟨found, middle, rfl, done⟩
      | error fault =>
        unfold result at outcome done
        rw [ExceptT.run_bind, StateT.run_bind, outcome] at done
        cases done
  · rintro ⟨found, middle, first, second⟩
    rw [result_bind first, second]

theorem result_pure (value : α) (scan : Scan) :
    (pure value : Decoder α).result scan = (.ok value, scan) := rfl

theorem result_get (scan : Scan) : (get : Decoder Scan).result scan = (.ok scan, scan) := rfl

theorem result_modify (change : Scan → Scan) (scan : Scan) :
    (modify change : Decoder Unit).result scan = (.ok (), change scan) := rfl

theorem result_changeLine (change : ListedLine → ListedLine) (scan : Scan) :
    (changeLine change).result scan =
      (.ok (), { scan with lines := scan.lines.modifyHead change }) := by
  obtain ⟨rest, position, depth, lines, labels, notices⟩ := scan
  cases lines <;> rfl

theorem result_discard {decoder : Decoder α} {scan next : Scan} {value : α}
    (done : decoder.result scan = (.ok value, next)) :
    (discard decoder).result scan = (.ok (), next) :=
  result_bind done _

theorem result_position (scan : Scan) : position.result scan = (.ok scan.position, scan) := rfl

/-- Bytes are taken if there are so many left. -/
theorem result_take (reading : Reading) (size : Nat) (scan : Scan) :
    (take reading size).result scan =
      if size ≤ scan.rest.length then
        (.ok (scan.rest.take size),
          { scan with rest := scan.rest.drop size, position := scan.position + size })
      else
        (.error (.of (.truncated (.script reading.program.name) scan.position size
          scan.rest.length)), scan) := by
  unfold take
  rw [result_bind (result_get scan)]
  by_cases enough : size ≤ scan.rest.length
  · rw [if_pos enough]
    simp only [List.length_take_of_le enough, Nat.lt_irrefl, if_false]
    rfl
  · have short : (scan.rest.take size).length < size := by
      rw [List.length_take]
      omega
    rw [if_neg enough]
    simp only [short, if_true]
    rfl

/-! ### Reading in step -/

/-- Reading takes exactly these bytes, gives this value and adds this to the line. -/
def Reads (decoder : Decoder α) (bytes : Bytes) (value : α) (excerpt : Excerpt) : Prop :=
  ∀ scan : Scan, bytes <+: scan.rest →
    decoder.result scan = (.ok value, scan.after bytes.length excerpt)

namespace Reads

theorem pure (value : α) : Reads (Pure.pure value) [] value (.plain "") := by
  intro scan _
  rw [result_pure, List.length_nil, Scan.after_zero]

/-- Readings in step stay in step one after the other. -/
theorem bind {decoder : Decoder α} {continuing : α → Decoder β} {front back bytes : Bytes}
    {value : α} {final : β} {first second excerpt : Excerpt}
    (one : Reads decoder front value first) (two : Reads (continuing value) back final second)
    (bytesEq : front ++ back = bytes) (excerptEq : first ++ second = excerpt) :
    Reads (decoder >>= continuing) bytes final excerpt := by
  subst bytesEq excerptEq
  intro scan ready
  have behind : back <+: (scan.after front.length first).rest := by
    obtain ⟨more, whole⟩ := ready
    refine ⟨more, ?_⟩
    rw [Scan.after, ← whole, List.append_assoc, List.drop_left]
  rw [result_bind (one scan ((List.prefix_append front back).trans ready)), two _ behind,
    Scan.after_after, List.length_append]

/-- A reading that adds nothing to the line, before another one. -/
theorem silent_bind {decoder : Decoder α} {continuing : α → Decoder β} {front back bytes : Bytes}
    {value : α} {final : β} {excerpt : Excerpt} (one : Reads decoder front value (.plain ""))
    (two : Reads (continuing value) back final excerpt) (bytesEq : front ++ back = bytes) :
    Reads (decoder >>= continuing) bytes final excerpt :=
  one.bind two bytesEq (Excerpt.plain_empty_append excerpt)

/-- A reading in step, with its value changed. -/
theorem map {decoder : Decoder α} {bytes : Bytes} {value : α} {excerpt : Excerpt}
    (reads : Reads decoder bytes value excerpt) (change : α → β) :
    Reads (do let found ← decoder; Pure.pure (change found)) bytes (change value) excerpt :=
  fun scan ready => result_bind (reads scan ready) _

/-- A reading in step, with its value left out of account. -/
theorem discard {decoder : Decoder α} {bytes : Bytes} {value : α} {excerpt : Excerpt}
    (reads : Reads decoder bytes value excerpt) :
    Reads (Functor.discard decoder) bytes () excerpt :=
  fun scan ready => result_discard (reads scan ready)

/-- The place of the next byte only matters for faults. -/
theorem position_bind {continuing : Nat → Decoder α} {bytes : Bytes} {value : α}
    {excerpt : Excerpt} (each : ∀ offset, Reads (continuing offset) bytes value excerpt) :
    Reads (Decoder.position >>= continuing) bytes value excerpt :=
  fun scan ready => (result_bind (result_position scan) continuing).trans (each _ scan ready)

theorem lift {attempt : Except Fault α} {value : α} (success : attempt = .ok value) :
    Reads (Decoder.lift attempt) [] value (.plain "") := by
  intro scan _
  rw [List.length_nil, Scan.after_zero, success]
  rfl

/-- The answer of a look-up, before a reading. -/
theorem lift_bind {attempt : Except Fault α} {value : α} (success : attempt = .ok value)
    {continuing : α → Decoder β} {bytes : Bytes} {final : β} {excerpt : Excerpt}
    (reads : Reads (continuing value) bytes final excerpt) :
    Reads (Decoder.lift attempt >>= continuing) bytes final excerpt :=
  (lift success).silent_bind reads rfl

theorem take (reading : Reading) (bytes : Bytes) :
    Reads (Decoder.take reading bytes.length) bytes bytes (.plain "") := by
  rintro scan ⟨more, whole⟩
  have taken : scan.rest.take bytes.length = bytes := by rw [← whole, List.take_left]
  have enough : bytes.length ≤ scan.rest.length := by
    rw [← whole, List.length_append]
    exact Nat.le_add_right _ _
  have lines : scan.lines.modifyHead (·.extend (.plain "")) = scan.lines := by
    cases scan.lines with
    | nil => rfl
    | cons line others => rw [List.modifyHead_cons, ListedLine.extend_plain_empty]
  rw [result_take, if_pos enough, taken, Scan.after, lines]

theorem byte (reading : Reading) (value : UInt8) :
    Reads (Decoder.byte reading) [value] value (.plain "") := by
  exact (take reading [value]).map _

theorem word (reading : Reading) {bytes : Bytes} (size : bytes.length = 2) :
    Reads (Decoder.word reading) bytes (Bytes.little bytes) (.plain "") := by
  have taken := take reading bytes
  rw [size] at taken
  exact taken.map _

theorem long (reading : Reading) {bytes : Bytes} (size : bytes.length = 4) :
    Reads (Decoder.long reading) bytes (Bytes.little bytes) (.plain "") := by
  have taken := take reading bytes
  rw [size] at taken
  exact taken.map _

theorem signedLong (reading : Reading) {bytes : Bytes} (size : bytes.length = 4) :
    Reads (Decoder.signedLong reading) bytes (Bytes.littleSigned bytes) (.plain "") := by
  have taken := take reading bytes
  rw [size] at taken
  exact taken.map _

/-- A change of the line that is the adding of a part. -/
theorem changeLine {change : ListedLine → ListedLine} {excerpt : Excerpt}
    (adds : ∀ line, change line = line.extend excerpt) :
    Reads (Decoder.changeLine change) [] () excerpt := by
  intro scan _
  obtain ⟨rest, position, depth, lines, labels, notices⟩ := scan
  cases lines with
  | nil => rfl
  | cons line others =>
    show (Except.ok (), Scan.mk rest position depth (change line :: others) labels notices) = _
    rw [adds line]
    rfl

theorem emit (text : String) : Reads (Decoder.emit text) [] () (.plain text) :=
  changeLine fun _ => rfl

/-- Text that is added, before a reading. -/
theorem emit_bind {text : String} {continuing : Unit → Decoder α} {bytes : Bytes} {value : α}
    {rest excerpt : Excerpt} (reads : Reads (continuing ()) bytes value rest)
    (excerptEq : .plain text ++ rest = excerpt) :
    Reads (Decoder.emit text >>= continuing) bytes value excerpt :=
  (emit text).bind reads rfl excerptEq

theorem comment (text : String) : Reads (Decoder.comment text) [] () ⟨"", some text⟩ := by
  refine changeLine fun line => ?_
  simp only [ListedLine.extend, String.append_empty]
  rfl

end Reads

end Decoder

end MapScript
