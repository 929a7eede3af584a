/-
This file follows the cursor through a dialogue file. A round of reading takes one record,
and the lengths in the record say how far it leads. They are signed, and nothing asks that
they lead forward: a record may lead back to its own start, and then reading never ends.
As long as every record leads forward there are no more rounds than bytes. In general,
reading does not end exactly if the cursor comes back to a place where it was, for there are
only so many places.
-/

import Mathlib.Data.Finset.Card
import MapScript.Proofs.Attempt
import MapScript.Symbols.Dialogue

namespace MapScript.Dialogue

/-! ### One record -/

/-- The length that the record at a cursor gives its subtitle. -/
def subtitleSize (data : Bytes) (cursor : Nat) : Int :=
  Bytes.littleSigned (Bytes.part data (cursor + 10) 4)

/-- Whether the record at a cursor says that it has a sound. -/
def HasSound (data : Bytes) (cursor : Nat) : Prop :=
  Bytes.big (Bytes.part data (cursor + 8) 2) = 1

instance (data : Bytes) (cursor : Nat) : Decidable (HasSound data cursor) :=
  inferInstanceAs (Decidable (_ = _))

/-- Where the subtitle of the record at a cursor ends. -/
def subtitleEnd (data : Bytes) (cursor : Nat) : Int :=
  cursor + 14 + subtitleSize data cursor

/-- The length that the record at a cursor gives its sound. -/
def soundSize (data : Bytes) (cursor : Nat) : Int :=
  Bytes.littleSigned (Bytes.part data (subtitleEnd data cursor + 22).toNat 4)

/-- How far the record at a cursor leads: its label and its lengths, its subtitle, and the
sound with what stands before it. -/
def stride (data : Bytes) (cursor : Nat) : Int :=
  14 + subtitleSize data cursor + if HasSound data cursor then 27 + soundSize data cursor else 0

/-- A record leads forward, and its subtitle does not lead before the start of the file. -/
def Forward (data : Bytes) (cursor : Nat) : Prop :=
  0 ≤ subtitleEnd data cursor ∧ 0 < stride data cursor

instance (data : Bytes) (cursor : Nat) : Decidable (Forward data cursor) :=
  inferInstanceAs (Decidable (_ ∧ _))

theorem need_eq_ok {data : Bytes} {cursor size : Int} {what : Extent}
    (enough : need data cursor size what = .ok ()) : cursor + size ≤ data.length := by
  unfold need at enough
  split at enough
  · assumption
  · cases enough

theorem failsOnly_need (data : Bytes) (cursor size : Int) (what : Extent) :
    FailsOnly (· ≠ .endlessDialogue) (need data cursor size what) := by
  unfold need
  split
  · trivial
  · exact Cause.noConfusion

theorem skipAudio_eq_ok {data : Bytes} {label : String} {cursor next : Int}
    (skipped : skipAudio data label cursor = .ok next) :
    next = cursor + 27 + Bytes.littleSigned (Bytes.part data (cursor + 22).toNat 4) ∧
      next ≤ data.length := by
  obtain ⟨_, -, skipped⟩ := bind_eq_ok.mp skipped
  obtain ⟨_, inside, skipped⟩ := bind_eq_ok.mp skipped
  cases skipped
  exact ⟨rfl, need_eq_ok inside⟩

/-- A record that was read leads on by its stride, and not past the end of the file. -/
theorem stepAt_eq_record {data : Bytes} {cursor : Nat} {label subtitle : String} {next : Int}
    (found : stepAt data cursor = .ok (.record label subtitle next)) :
    cursor + 14 ≤ data.length ∧ next = cursor + stride data cursor ∧ next ≤ data.length := by
  obtain ⟨_, -, found⟩ := bind_eq_ok.mp found
  simp only at found
  split at found
  · cases found
  · obtain ⟨_, headOk, found⟩ := bind_eq_ok.mp found
    obtain ⟨_, subtitleOk, found⟩ := bind_eq_ok.mp found
    have long := need_eq_ok headOk
    have inside := need_eq_ok subtitleOk
    rw [recordHeadSize] at long inside
    have size : Bytes.littleSigned (Bytes.part data (cursor + 4 + 6) 4) = subtitleSize data cursor :=
      rfl
    rw [size] at inside found
    refine ⟨by omega, ?_⟩
    unfold stride
    have place : ((cursor + 4 + recordHeadSize : Nat) : Int) + subtitleSize data cursor =
        subtitleEnd data cursor := by
      unfold subtitleEnd recordHeadSize
      omega
    rw [place] at found
    split at found
    · rename_i sound
      obtain ⟨stop, audioOk, found⟩ := bind_eq_ok.mp found
      cases found
      obtain ⟨behind, fits⟩ := skipAudio_eq_ok audioOk
      have size : Bytes.littleSigned (Bytes.part data (subtitleEnd data cursor + 22).toNat 4) =
        soundSize data cursor := rfl
      rw [size, subtitleEnd] at behind
      rw [if_pos (show HasSound data cursor from sound)]
      omega
    · rename_i silent
      cases found
      rw [if_neg (show ¬HasSound data cursor from silent), subtitleEnd]
      omega

/-- A single record is never refused for leading nowhere. -/
theorem failsOnly_stepAt (data : Bytes) (cursor : Nat) :
    FailsOnly (· ≠ .endlessDialogue) (stepAt data cursor) := by
  refine (failsOnly_need _ _ _ _).bind fun _ => ?_
  simp only
  split
  · trivial
  · refine (failsOnly_need _ _ _ _).bind fun _ => (failsOnly_need _ _ _ _).bind fun _ => ?_
    split
    · refine FailsOnly.bind ?_ fun _ => trivial
      exact (failsOnly_need _ _ _ _).bind fun _ => (failsOnly_need _ _ _ _).bind fun _ => trivial
    · trivial

/-! ### The trail of the cursor -/

/-- Where a round that starts at a cursor leaves it, unless reading comes to its end there or
fails. -/
def next? (data : Bytes) (cursor : Int) : Option Int :=
  if cursor < 0 then none
  else match stepAt data cursor.toNat with
    | .ok (.record _ _ next) => some next
    | _ => none

/-- The cursor after so many rounds from a place on, if there are so many. -/
def trailFrom (data : Bytes) : (rounds : Nat) → (cursor : Int) → Option Int
  | 0, cursor => some cursor
  | rounds + 1, cursor => (next? data cursor).bind (trailFrom data rounds)

/-- The cursor after so many rounds, if there are so many. -/
def trail (data : Bytes) (rounds : Nat) : Option Int :=
  trailFrom data rounds 0

theorem next?_eq_some {data : Bytes} {cursor next : Int} (found : next? data cursor = some next) :
    0 ≤ cursor ∧ cursor + 14 ≤ data.length ∧ next = cursor + stride data cursor.toNat ∧
      next ≤ data.length := by
  unfold next? at found
  split at found
  · cases found
  · rename_i nonnegative
    split at found
    · rename_i label subtitle stop read
      cases found
      obtain ⟨long, lands, fits⟩ := stepAt_eq_record read
      omega
    · cases found

theorem trailFrom_add (data : Bytes) (first more : Nat) (cursor : Int) :
    trailFrom data (first + more) cursor =
      (trailFrom data first cursor).bind (trailFrom data more) := by
  induction first generalizing cursor with
  | zero => rw [Nat.zero_add, trailFrom, Option.bind_some]
  | succ first inductionHypothesis =>
    rw [Nat.succ_add, trailFrom, trailFrom, Option.bind_assoc]
    exact congrArg (next? data cursor).bind (funext inductionHypothesis)

theorem trail_succ (data : Bytes) (rounds : Nat) :
    trail data (rounds + 1) = (trail data rounds).bind (next? data) := by
  have single : trailFrom data 1 = next? data := funext fun cursor => Option.bind_fun_some _
  rw [trail, trailFrom_add, single, trail]

/-- There are no rounds behind the last one. -/
theorem trail_eq_none {data : Bytes} {rounds more : Nat} (ended : trail data rounds = none)
    (later : rounds ≤ more) : trail data more = none := by
  rw [trail] at ended
  rw [trail, ← Nat.add_sub_cancel' later, trailFrom_add, ended, Option.bind_none]

/-- A trail that comes back to a place goes the same way again. -/
theorem trail_add_of_eq {data : Bytes} {first second : Nat}
    (back : trail data first = trail data second) (more : Nat) :
    trail data (first + more) = trail data (second + more) := by
  rw [trail, trail] at back
  rw [trail, trail, trailFrom_add, trailFrom_add, back]

/-- A trail that comes back to a place never ends. -/
theorem isSome_trail_of_eq {data : Bytes} {first second : Nat} (before : first < second)
    (back : trail data first = trail data second) (reached : (trail data first).isSome = true)
    (rounds : Nat) : (trail data rounds).isSome = true := by
  induction rounds using Nat.strongRecOn with
  | ind rounds inductionHypothesis =>
    by_cases behind : second ≤ rounds
    · have again := trail_add_of_eq back (rounds - second)
      rw [Nat.add_sub_cancel' behind] at again
      rw [← again]
      exact inductionHypothesis _ (by omega)
    · refine Option.isSome_iff_ne_none.mpr fun ended => ?_
      have none := trail_eq_none ended (Nat.le_of_lt (Nat.lt_of_not_le behind))
      rw [back, none] at reached
      cases reached

/-! ### Reading that does not end -/

/-- With a limit on the number of rounds, reading is refused exactly if the limit is reached or
the cursor falls before the start. -/
theorem readFrom_endless_iff {data : Bytes} {count : Nat} {cursor : Int}
    {subtitles : Registry String String} :
    failure? (readFrom data count cursor subtitles) = some .endlessDialogue ↔
      (trailFrom data count cursor).isSome = true ∨
        ∃ rounds place, rounds < count ∧ trailFrom data rounds cursor = some place ∧ place < 0 := by
  induction count generalizing cursor subtitles with
  | zero => exact ⟨fun _ => .inl rfl, fun _ => rfl⟩
  | succ count inductionHypothesis =>
    rw [readFrom]
    by_cases negative : cursor < 0
    · rw [if_pos negative]
      exact ⟨fun _ => .inr ⟨0, cursor, Nat.succ_pos count, rfl, negative⟩, fun _ => rfl⟩
    · rw [if_neg negative]
      -- What there is after this round is what there is from the place where it leads to.
      have shift : (∃ rounds place, rounds < count + 1 ∧
            trailFrom data rounds cursor = some place ∧ place < 0) ↔
          ∃ next, next? data cursor = some next ∧ ∃ rounds place, rounds < count ∧
            trailFrom data rounds next = some place ∧ place < 0 := by
        constructor
        · rintro ⟨rounds, place, few, there, below⟩
          cases rounds with
          | zero =>
            cases there
            exact absurd below negative
          | succ rounds =>
            obtain ⟨next, leads, there⟩ := Option.bind_eq_some_iff.mp there
            exact ⟨next, leads, rounds, place, Nat.lt_of_succ_lt_succ few, there, below⟩
        · rintro ⟨next, leads, rounds, place, few, there, below⟩
          exact ⟨rounds + 1, place, Nat.succ_lt_succ few,
            Option.bind_eq_some_iff.mpr ⟨next, leads, there⟩, below⟩
      have sound := failsOnly_stepAt data cursor.toNat
      rw [shift, trailFrom, next?, if_neg negative]
      cases step : stepAt data cursor.toNat with
      | error fault =>
        have other : fault.cause ≠ .endlessDialogue := by
          rw [step] at sound
          exact sound
        simp [failure?, other]
      | ok found =>
        cases found with
        | finished => simp [failure?, pure_eq_ok]
        | record label subtitle next => simpa using inductionHypothesis

/-- A trail of more rounds than there are places comes back to one of them. -/
theorem exists_trail_eq {data : Bytes} (long : (trail data (data.length + 1)).isSome = true) :
    ∃ first second, first < second ∧ trail data first = trail data second ∧
      (trail data first).isSome = true := by
  have places {rounds : Nat} (few : rounds < data.length + 1) :
      ∃ cursor, trail data rounds = some cursor ∧ 0 ≤ cursor ∧ cursor < data.length := by
    cases here : trail data rounds with
    | none =>
      rw [trail_eq_none here (Nat.le_of_lt few)] at long
      cases long
    | some cursor =>
      cases further : next? data cursor with
      | none =>
        have ended : trail data (rounds + 1) = none := by
          rw [trail_succ, here, Option.bind_some, further]
        rw [trail_eq_none ended few] at long
        cases long
      | some next =>
        obtain ⟨nonnegative, inside, -⟩ := next?_eq_some further
        exact ⟨cursor, rfl, nonnegative, by omega⟩
  -- A place is told by its number, as none of them is before the start.
  obtain ⟨first, firstFew, second, secondFew, different, same⟩ :=
    Finset.exists_ne_map_eq_of_card_lt_of_maps_to
      (s := Finset.range (data.length + 1)) (t := Finset.range data.length)
      (f := fun rounds => ((trail data rounds).getD 0).toNat) (by simp) (by
        intro rounds member
        obtain ⟨cursor, there, nonnegative, inside⟩ := places (Finset.mem_range.mp member)
        simp only [there, Option.getD_some, Finset.coe_range, Set.mem_Iio]
        omega)
  obtain ⟨place, here, placeLe, -⟩ := places (Finset.mem_range.mp firstFew)
  obtain ⟨other, there, otherLe, -⟩ := places (Finset.mem_range.mp secondFew)
  have back : trail data first = trail data second := by
    simp only [here, there, Option.getD_some] at same
    rw [here, there, Option.some.injEq]
    omega
  have reached : (trail data first).isSome = true := by rw [here, Option.isSome_some]
  rcases Nat.lt_or_gt_of_ne different with before | behind
  · exact ⟨first, second, before, back, reached⟩
  · exact ⟨second, first, behind, back.symm, back ▸ reached⟩

/-- A dialogue file is refused as endless exactly if its records lead before the start, or back
to a place where the cursor was. -/
theorem parse_endless_iff {data : Bytes} :
    failure? (parse data) = some .endlessDialogue ↔
      (∃ rounds cursor, trail data rounds = some cursor ∧ cursor < 0) ∨
        ∃ first second, first < second ∧ trail data first = trail data second ∧
          (trail data first).isSome = true := by
  rw [parse, readFrom_endless_iff]
  constructor
  · rintro (long | ⟨rounds, cursor, -, there, below⟩)
    · exact .inr (exists_trail_eq long)
    · exact .inl ⟨rounds, cursor, there, below⟩
  · rintro (⟨rounds, cursor, there, below⟩ | ⟨first, second, before, back, reached⟩)
    · by_cases few : rounds < data.length + 1
      · exact .inr ⟨rounds, cursor, few, there, below⟩
      · refine .inl (Option.isSome_iff_ne_none.mpr fun ended => ?_)
        have missing : trail data rounds = none := trail_eq_none ended (Nat.le_of_not_lt few)
        cases missing.symm.trans there
    · exact .inl (isSome_trail_of_eq before back reached _)

/-! ### Reading that goes forward -/

/-- If every record leads forward, each round leaves the cursor further, so that there are no
more rounds than bytes. -/
theorem rounds_le_of_forward {data : Bytes}
    (forward : ∀ rounds cursor next, trail data rounds = some cursor →
      trail data (rounds + 1) = some next → Forward data cursor.toNat)
    {rounds : Nat} {cursor : Int} (there : trail data rounds = some cursor) :
    (rounds : Int) ≤ cursor ∧ cursor ≤ data.length := by
  induction rounds generalizing cursor with
  | zero =>
    cases there
    exact ⟨Int.le_refl 0, Int.natCast_nonneg _⟩
  | succ rounds inductionHypothesis =>
    have step := there
    rw [trail_succ] at step
    obtain ⟨before, here, leads⟩ := Option.bind_eq_some_iff.mp step
    obtain ⟨behind, -⟩ := inductionHypothesis here
    obtain ⟨-, -, lands, fits⟩ := next?_eq_some leads
    have further := (forward rounds before cursor here there).2
    omega

/-- The bytes of a dialogue file with a subtitle of two characters and a sound of one byte. -/
def gongData : Bytes :=
  [0x67, 0x6F, 0x6E, 0x67, 0, 0, 0, 0, 0, 1, 2, 0, 0, 0, 0x48, 0x69] ++ List.replicate 22 0 ++
    [1, 0, 0, 0, 0, 9] ++ endMark

/-- The bytes of a record whose subtitle has a length of -14, so that it leads to its start. -/
def loopData : Bytes :=
  [0x6C, 0x6F, 0x6F, 0x70, 0, 0, 0, 0, 0, 0, 0xF2, 0xFF, 0xFF, 0xFF]

/-- The bytes of two records, of which the second gives its subtitle a length of -19. It leads
into the subtitle of the first, where an end mark stands. -/
def leapData : Bytes :=
  [0x61, 0x62, 0x30, 0x31, 0, 0, 0, 0, 0, 0, 8, 0, 0, 0, 0x78, 0x79, 0x7A] ++ endMark ++ [0x21] ++
    [0x62, 0x61, 0x63, 0x6B, 0, 0, 0, 0, 0, 0, 0xED, 0xFF, 0xFF, 0xFF]

end MapScript.Dialogue
