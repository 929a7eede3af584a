/-
This file proves that reading a dialogue file gives back what was written into it. A record is
found where it stands, whatever its subtitle and its sound hold, and leads to the place behind
it; so the records of a file are read one after the other up to the end mark, and each label
keeps the subtitle of its last record. A piece of a file is read like the whole, up to the first
field that it does not hold to its end; there reading is refused, and the fault says how many
bytes there are.
-/

import MapScript.Proofs.Bytes
import MapScript.Proofs.Dialogue

namespace MapScript

/-! ### Bytes and registries -/

namespace Bytes

/-- A length in the lower half of the range is read as it was written. -/
theorem littleSigned_ofNatLittle {number : Nat} (small : number < 0x80000000) :
    littleSigned (ofNatLittle 4 number) = number := by
  have fits : number < range 4 := by
    rw [range_four]
    omega
  rw [littleSigned, length_ofNatLittle, little_ofNatLittle fits, asSigned, range_four,
    if_pos (by omega)]

/-- The part that stands between two others. -/
theorem part_of_split {data middle : Bytes} (front back : Bytes)
    (split : data = front ++ middle ++ back) {start size : Nat} (here : front.length = start)
    (length : middle.length = size) : part data start size = middle := by
  rw [split, ← here, ← length, part_middle]

end Bytes

/-- Of the values that are entered under a key, the last one is found. -/
theorem Registry.find?_ofList {κ α : Type} [DecidableEq κ] (pairs : List (κ × α)) (key : κ) :
    (ofList pairs).find? key = (pairs.reverse.find? fun pair => pair.1 = key).map Prod.snd := by
  induction pairs using List.reverseRecOn with
  | nil => rfl
  | append_singleton front pair inductionHypothesis =>
    have last : ofList (front ++ [pair]) = (ofList front).put pair.1 pair.2 := by
      rw [ofList, List.foldl_append]
      rfl
    rw [last, List.reverse_append, List.reverse_singleton, List.singleton_append,
      List.find?_cons]
    by_cases same : pair.1 = key
    · rw [decide_eq_true same, ← same, find?_put_self]
      rfl
    · rw [decide_eq_false same, find?_put_other _ (Ne.symm same), inductionHypothesis]

namespace Dialogue

/-! ### Records -/

/-- The sound of a record: what stands before the field with its size, the byte behind the field,
and the sound itself. -/
structure Sound where
  front : Bytes
  pad : UInt8
  samples : Bytes
  length_front : front.length = 22
  length_samples : samples.length < 0x80000000

/-- A record. The four bytes behind its label mean nothing; its flag is one exactly if it has a
sound. -/
structure Entry where
  label : Bytes
  spare : Bytes
  flag : Bytes
  subtitle : Bytes
  sound : Option Sound
  length_label : label.length = 4
  label_ne : label ≠ endMark
  length_spare : spare.length = 4
  length_flag : flag.length = 2
  flag_iff : Bytes.big flag = 1 ↔ sound.isSome = true
  length_subtitle : subtitle.length < 0x80000000

/-- The bytes of a sound. -/
def Sound.write (sound : Sound) : Bytes :=
  sound.front ++ Bytes.ofNatLittle 4 sound.samples.length ++ [sound.pad] ++ sound.samples

namespace Entry

/-- The bytes of what stands behind a subtitle. -/
def writeSound (entry : Entry) : Bytes :=
  match entry.sound with
  | some sound => sound.write
  | none => []

/-- The bytes of a record. -/
def write (entry : Entry) : Bytes :=
  entry.label ++ entry.spare ++ entry.flag ++ Bytes.ofNatLittle 4 entry.subtitle.length ++
    entry.subtitle ++ entry.writeSound

/-- The label as text. -/
def name (entry : Entry) : String :=
  Bytes.toText entry.label

/-- The subtitle as text. -/
def words (entry : Entry) : String :=
  Bytes.toText entry.subtitle

end Entry

/-- The bytes of a dialogue file. -/
def writeAll (entries : List Entry) : Bytes :=
  entries.flatMap Entry.write ++ endMark

theorem Sound.length_write (sound : Sound) : sound.write.length = 27 + sound.samples.length := by
  have front := sound.length_front
  simp only [write, List.length_append, Bytes.length_ofNatLittle, List.length_singleton]
  omega

theorem Entry.length_write (entry : Entry) :
    entry.write.length = 14 + entry.subtitle.length + entry.writeSound.length := by
  have label := entry.length_label
  have spare := entry.length_spare
  have flag := entry.length_flag
  simp only [write, List.length_append, Bytes.length_ofNatLittle]
  omega

/-! ### Reading what was written -/

theorem need_of_le {data : Bytes} {cursor size : Int} (enough : cursor + size ≤ data.length)
    (what : Extent) : need data cursor size what = .ok () :=
  if_pos enough

/-- A sound that stands at a cursor is passed over. -/
theorem skipAudio_write {data : Bytes} (front back : Bytes) (sound : Sound)
    (split : data = front ++ sound.write ++ back) (label : String) :
    skipAudio data label front.length = .ok (front.length + sound.write.length) := by
  have length := sound.length_write
  have total : data.length = front.length + sound.write.length + back.length := by
    rw [split, List.length_append, List.length_append]
  have field : Bytes.part data (front.length + 22) 4 =
      Bytes.ofNatLittle 4 sound.samples.length := by
    refine Bytes.part_of_split (front ++ sound.front)
      ([sound.pad] ++ sound.samples ++ back) ?_ ?_ (Bytes.length_ofNatLittle _ _)
    · rw [split, Sound.write]
      simp only [List.append_assoc]
    · rw [List.length_append, sound.length_front]
  have place : ((front.length : Int) + 22).toNat = front.length + 22 := by omega
  unfold skipAudio
  rw [need_of_le (by rw [audioHeadSize]; omega), ok_bind]
  simp only [place, field, Bytes.littleSigned_ofNatLittle sound.length_samples]
  rw [need_of_le (by rw [audioHeadSize]; omega), ok_bind, length, audioHeadSize, pure_eq_ok]
  exact congrArg Except.ok (by omega)

/-- The fields of a record in front of its sound, each where it is looked for from a place on. -/
structure Entry.StandsAt (entry : Entry) (data : Bytes) (place : Nat) : Prop where
  label : Bytes.part data place 4 = entry.label
  flag : Bytes.part data (place + 4 + 4) 2 = entry.flag
  size : Bytes.part data (place + 4 + 6) 4 = Bytes.ofNatLittle 4 entry.subtitle.length
  subtitle : Bytes.part data (place + 4 + recordHeadSize) entry.subtitle.length = entry.subtitle

theorem Entry.standsAt {data front back : Bytes} (entry : Entry)
    (split : data = front ++ entry.write ++ back) : entry.StandsAt data front.length where
  label := by
    refine Bytes.part_of_split front (entry.spare ++ entry.flag ++
      Bytes.ofNatLittle 4 entry.subtitle.length ++ entry.subtitle ++ entry.writeSound ++ back)
      ?_ rfl entry.length_label
    rw [split, Entry.write]
    simp only [List.append_assoc]
  flag := by
    refine Bytes.part_of_split (front ++ entry.label ++ entry.spare)
      (Bytes.ofNatLittle 4 entry.subtitle.length ++ entry.subtitle ++ entry.writeSound ++
        back) ?_ ?_ entry.length_flag
    · rw [split, Entry.write]
      simp only [List.append_assoc]
    · rw [List.length_append, List.length_append, entry.length_label, entry.length_spare]
  size := by
    refine Bytes.part_of_split (front ++ entry.label ++ entry.spare ++ entry.flag)
      (entry.subtitle ++ entry.writeSound ++ back) ?_ ?_ (Bytes.length_ofNatLittle _ _)
    · rw [split, Entry.write]
      simp only [List.append_assoc]
    · simp only [List.length_append, entry.length_label, entry.length_spare, entry.length_flag]
  subtitle := by
    refine Bytes.part_of_split (front ++ entry.label ++ entry.spare ++ entry.flag ++
      Bytes.ofNatLittle 4 entry.subtitle.length) (entry.writeSound ++ back) ?_ ?_ rfl
    · rw [split, Entry.write]
      simp only [List.append_assoc]
    · simp only [List.length_append, entry.length_label, entry.length_spare, entry.length_flag,
        Bytes.length_ofNatLittle, recordHeadSize]

/-- A sound that the flag announces is passed over, up to the place behind the record. -/
theorem skipAudio_writeSound {data front back : Bytes} (entry : Entry)
    (split : data = front ++ entry.write ++ back) (loud : Bytes.big entry.flag = 1) :
    skipAudio data entry.name
        (((front.length + 4 + recordHeadSize : Nat) : Int) + entry.subtitle.length) =
      .ok (front.length + entry.write.length) := by
  obtain ⟨sound, same⟩ := Option.isSome_iff_exists.mp (entry.flag_iff.mp loud)
  have behind : entry.writeSound = sound.write := by rw [Entry.writeSound, same]
  have around : data = front ++ entry.label ++ entry.spare ++ entry.flag ++
      Bytes.ofNatLittle 4 entry.subtitle.length ++ entry.subtitle ++ sound.write ++ back := by
    rw [split, Entry.write, behind]
    simp only [List.append_assoc]
  have place : (((front ++ entry.label ++ entry.spare ++ entry.flag ++
      Bytes.ofNatLittle 4 entry.subtitle.length ++ entry.subtitle).length : Nat) : Int) =
      ((front.length + 4 + recordHeadSize : Nat) : Int) + entry.subtitle.length := by
    simp only [List.length_append, entry.length_label, entry.length_spare, entry.length_flag,
      Bytes.length_ofNatLittle, recordHeadSize]
    omega
  have skipped := skipAudio_write _ back sound around entry.name
  rw [place] at skipped
  rw [skipped, entry.length_write, behind]
  exact congrArg Except.ok (by rw [recordHeadSize]; omega)

/-- A record that stands at a cursor is read there, and leads to the place behind it. -/
theorem stepAt_write {data front back : Bytes} (entry : Entry)
    (split : data = front ++ entry.write ++ back) :
    stepAt data front.length =
      .ok (.record entry.name entry.words (front.length + entry.write.length)) := by
  have length := entry.length_write
  have total : data.length = front.length + entry.write.length + back.length := by
    rw [split, List.length_append, List.length_append]
  have stands := entry.standsAt split
  unfold stepAt
  rw [need_of_le (by omega), ok_bind]
  simp only [stands.label, if_neg entry.label_ne]
  rw [need_of_le (by rw [recordHeadSize]; omega), ok_bind]
  simp only [stands.flag, stands.size, Bytes.littleSigned_ofNatLittle entry.length_subtitle,
    Int.toNat_natCast, stands.subtitle]
  rw [need_of_le (by rw [recordHeadSize]; omega), ok_bind]
  by_cases loud : Bytes.big entry.flag = 1
  · rw [if_pos loud]
    show (skipAudio data entry.name _ >>= fun next =>
      pure (Step.record entry.name entry.words next)) = _
    rw [skipAudio_writeSound entry split loud, ok_bind, pure_eq_ok]
  · have silent : entry.sound = none :=
      Option.not_isSome_iff_eq_none.mp fun sounds => loud (entry.flag_iff.mpr sounds)
    have behind : entry.writeSound = [] := by rw [Entry.writeSound, silent]
    rw [if_neg loud, length, behind]
    refine congrArg (fun next => Except.ok (Step.record entry.name entry.words next)) ?_
    rw [recordHeadSize, List.length_nil]
    omega

/-- The end mark ends the file, whatever stands behind it. -/
theorem stepAt_endMark {data front : Bytes} (back : Bytes)
    (split : data = front ++ endMark ++ back) : stepAt data front.length = .ok .finished := by
  have total : data.length = front.length + 4 + back.length := by
    rw [split, List.length_append, List.length_append]
    rfl
  have mark : Bytes.part data front.length 4 = endMark :=
    Bytes.part_of_split front back split rfl rfl
  unfold stepAt
  rw [need_of_le (by omega), ok_bind]
  simp only [mark, if_true]
  rfl

/-- The subtitles of records, the later ones instead of earlier ones. -/
def subtitlesOf (entries : List Entry) (subtitles : Registry String String) :
    Registry String String :=
  entries.foldl (fun subtitles entry => subtitles.put entry.name entry.words) subtitles

/-- The records that stand from a cursor on are read to the end mark. Every record has bytes, so
that a bound of one round for each byte is enough. -/
theorem readFrom_writeAll {data trailer : Bytes} (front : Bytes) {entries : List Entry}
    {count : Nat} (split : data = front ++ (writeAll entries ++ trailer))
    (enough : data.length < front.length + count) (subtitles : Registry String String) :
    readFrom data count front.length subtitles = .ok (subtitlesOf entries subtitles) := by
  induction entries generalizing front count subtitles with
  | nil =>
    obtain ⟨count, rfl⟩ : ∃ rounds, count = rounds + 1 := by
      have total := congrArg List.length split
      rw [List.length_append] at total
      exact ⟨count - 1, by omega⟩
    have ended : stepAt data front.length = .ok .finished :=
      stepAt_endMark trailer (by rw [split, List.append_assoc]; rfl)
    rw [readFrom, if_neg (by omega), Int.toNat_natCast, ended]
    rfl
  | cons entry rest inductionHypothesis =>
    have split : data = front ++ entry.write ++ (writeAll rest ++ trailer) := by
      rw [split, writeAll, List.flatMap_cons, writeAll]
      simp only [List.append_assoc]
    have total := congrArg List.length split
    rw [List.length_append, List.length_append] at total
    have length := entry.length_write
    obtain ⟨count, rfl⟩ : ∃ rounds, count = rounds + 1 := ⟨count - 1, by omega⟩
    rw [readFrom, if_neg (by omega), Int.toNat_natCast, stepAt_write entry split, ok_bind]
    have others := @inductionHypothesis (front ++ entry.write) count split
      (by rw [List.length_append]; omega) (subtitles.put entry.name entry.words)
    rw [List.length_append] at others
    exact others

/-! ### Reading a piece -/

/-- An attempt to read is refused because the data end: from some place on, more bytes are asked
for than there are. -/
def RunsOut {α : Type} (data : Bytes) (attempt : Except Fault α) : Prop :=
  ∃ what offset needed, (data.length : Int) < offset + needed ∧
    attempt = fail (.truncated what offset needed (data.length - offset))

theorem RunsOut.bind {α β : Type} {data : Bytes} {attempt : Except Fault α}
    (out : RunsOut data attempt) (next : α → Except Fault β) :
    RunsOut data (attempt >>= next) := by
  obtain ⟨what, offset, needed, short, rfl⟩ := out
  exact ⟨what, offset, needed, short, rfl⟩

theorem need_or_runsOut (data : Bytes) (cursor size : Int) (what : Extent) :
    (cursor + size ≤ data.length ∧ need data cursor size what = .ok ()) ∨
      RunsOut data (need data cursor size what) := by
  by_cases enough : cursor + size ≤ data.length
  · exact .inl ⟨enough, need_of_le enough what⟩
  · exact .inr ⟨what, cursor, size, Int.not_le.mp enough, if_neg enough⟩

section Pieces

variable {piece rest : Bytes}

/-- What a piece holds of a file, the file holds at the same place. -/
theorem part_append {start size : Nat} (inside : start + size ≤ piece.length) :
    Bytes.part (piece ++ rest) start size = Bytes.part piece start size :=
  Bytes.part_append_left piece rest start size inside

theorem need_append {cursor size : Int} (enough : cursor + size ≤ piece.length) (what : Extent) :
    need (piece ++ rest) cursor size what = .ok () :=
  need_of_le (by rw [List.length_append]; omega) what

theorem skipAudio_append (rest : Bytes) (long : 4 ≤ piece.length) (label : String) (cursor : Int) :
    skipAudio (piece ++ rest) label cursor = skipAudio piece label cursor ∨
      RunsOut piece (skipAudio piece label cursor) := by
  unfold skipAudio
  rcases need_or_runsOut piece cursor audioHeadSize (.audioHeader label) with ⟨head, headOk⟩ | out
  · rw [headOk, need_append head, ok_bind, ok_bind]
    rw [audioHeadSize] at head
    have field : Bytes.part (piece ++ rest) (cursor + 22).toNat 4 =
        Bytes.part piece (cursor + 22).toNat 4 := part_append (by omega)
    simp only [field]
    rcases need_or_runsOut piece (cursor + audioHeadSize)
      (Bytes.littleSigned (Bytes.part piece (cursor + 22).toNat 4)) (.audio label) with
      ⟨sound, soundOk⟩ | out
    · rw [soundOk, need_append sound]
      exact .inl rfl
    · exact .inr (out.bind _)
  · exact .inr (out.bind _)

/-- A piece of a file is read like the file, or it ends too early. -/
theorem stepAt_append (piece rest : Bytes) (cursor : Nat) :
    stepAt (piece ++ rest) cursor = stepAt piece cursor ∨ RunsOut piece (stepAt piece cursor) := by
  unfold stepAt
  rcases need_or_runsOut piece cursor 4 .dialogueLabel with ⟨label, labelOk⟩ | out
  · rw [labelOk, need_append label, ok_bind, ok_bind]
    have mark : Bytes.part (piece ++ rest) cursor 4 = Bytes.part piece cursor 4 :=
      part_append (by omega)
    simp only [mark]
    split
    · exact .inl rfl
    · rcases need_or_runsOut piece (cursor + 4 : Nat) recordHeadSize
        (.dialogueRecord (Bytes.toText (Bytes.part piece cursor 4))) with ⟨head, headOk⟩ | out
      · rw [headOk, need_append head, ok_bind, ok_bind]
        rw [recordHeadSize] at head
        have flag : Bytes.part (piece ++ rest) (cursor + 4 + 4) 2 =
            Bytes.part piece (cursor + 4 + 4) 2 := part_append (by omega)
        have size : Bytes.part (piece ++ rest) (cursor + 4 + 6) 4 =
            Bytes.part piece (cursor + 4 + 6) 4 := part_append (by omega)
        simp only [flag, size]
        generalize Bytes.littleSigned (Bytes.part piece (cursor + 4 + 6) 4) = size
        generalize Bytes.toText (Bytes.part piece cursor 4) = label
        rcases need_or_runsOut piece (cursor + 4 + recordHeadSize : Nat) size
          (.dialogueSubtitle label) with ⟨subtitle, subtitleOk⟩ | out
        · rw [subtitleOk, need_append subtitle, ok_bind, ok_bind]
          have words : Bytes.part (piece ++ rest) (cursor + 4 + recordHeadSize) size.toNat =
              Bytes.part piece (cursor + 4 + recordHeadSize) size.toNat :=
            part_append (by rw [recordHeadSize] at subtitle ⊢; omega)
          rw [words]
          split
          · rcases skipAudio_append rest (by omega : 4 ≤ piece.length) label
              ((cursor + 4 + recordHeadSize : Nat) + size) with same | out
            · rw [same]
              exact .inl rfl
            · exact .inr (out.bind _)
          · exact .inl rfl
        · exact .inr (out.bind _)
      · exact .inr (out.bind _)
  · exact .inr (out.bind _)

theorem stepAt_eq_finished {data : Bytes} {cursor : Nat}
    (found : stepAt data cursor = .ok .finished) : cursor + 4 ≤ data.length := by
  obtain ⟨_, labelOk, -⟩ := bind_eq_ok.mp found
  have inside := need_eq_ok labelOk
  omega

/-- A piece of a file that ends before its end mark does is refused where it ends. The rounds
of reading are those of the file, as far as the piece holds their records. -/
theorem readFrom_piece (front : Bytes) {trailer : Bytes} {entries : List Entry} {count : Nat}
    (split : piece ++ rest = front ++ (writeAll entries ++ trailer))
    (cut : piece.length < front.length + (writeAll entries).length)
    (reached : front.length ≤ piece.length) (enough : piece.length < front.length + count)
    (subtitles : Registry String String) :
    RunsOut piece (readFrom piece count front.length subtitles) := by
  induction entries generalizing front count subtitles with
  | nil =>
    obtain ⟨count, rfl⟩ : ∃ rounds, count = rounds + 1 := ⟨count - 1, by omega⟩
    have ended : stepAt (piece ++ rest) front.length = .ok .finished :=
      stepAt_endMark trailer (by rw [split, List.append_assoc]; rfl)
    rw [readFrom, if_neg (by omega), Int.toNat_natCast]
    rcases stepAt_append piece rest front.length with same | out
    · have inside := stepAt_eq_finished (same.symm.trans ended)
      have mark : (writeAll []).length = 4 := rfl
      omega
    · exact out.bind _
  | cons entry others inductionHypothesis =>
    have split : piece ++ rest = front ++ entry.write ++ (writeAll others ++ trailer) := by
      rw [split, writeAll, List.flatMap_cons, writeAll]
      simp only [List.append_assoc]
    have length : (writeAll (entry :: others)).length =
        entry.write.length + (writeAll others).length := by
      rw [writeAll, List.flatMap_cons, List.append_assoc, List.length_append, writeAll]
    obtain ⟨count, rfl⟩ : ∃ rounds, count = rounds + 1 := ⟨count - 1, by omega⟩
    rw [readFrom, if_neg (by omega), Int.toNat_natCast]
    rcases stepAt_append piece rest front.length with same | out
    · have here := same.symm.trans (stepAt_write entry split)
      obtain ⟨long, -, fits⟩ := stepAt_eq_record here
      rw [here, ok_bind]
      have further := @inductionHypothesis (front ++ entry.write) count split
        (by rw [List.length_append]; omega) (by rw [List.length_append]; omega)
        (by rw [List.length_append, entry.length_write]; omega)
        (subtitles.put entry.name entry.words)
      rw [List.length_append] at further
      exact further
    · exact out.bind _

end Pieces

/-! ### Files -/

/-- A dialogue file is read whatever follows its end mark, and each label has the subtitle of the
last record with that label. A piece of the file that ends before the end mark does is refused
because it ends too early. -/
theorem parse_writeAll (entries : List Entry) (trailer : Bytes) :
    (∃ subtitles, parse (writeAll entries ++ trailer) = .ok subtitles ∧
      ∀ label, subtitles.find? label =
        (entries.reverse.find? fun entry => entry.name = label).map Entry.words) ∧
    ∀ count, count < (writeAll entries).length →
      RunsOut ((writeAll entries ++ trailer).take count)
        (parse ((writeAll entries ++ trailer).take count)) := by
  refine ⟨⟨subtitlesOf entries .empty, ?_, fun label => ?_⟩, fun count cut => ?_⟩
  · exact readFrom_writeAll [] (List.nil_append _).symm
      (by rw [List.length_nil]; omega) .empty
  · have listed : subtitlesOf entries .empty =
        Registry.ofList (entries.map fun entry => (entry.name, entry.words)) := by
      rw [Registry.ofList, List.foldl_map]
      rfl
    rw [listed, Registry.find?_ofList, ← List.map_reverse, List.find?_map, Option.map_map]
    rfl
  · have size : ((writeAll entries ++ trailer).take count).length = count := by
      rw [List.length_take, List.length_append]
      omega
    refine readFrom_piece [] (List.take_append_drop count (writeAll entries ++ trailer)) ?_
      (Nat.zero_le _) (by rw [List.length_nil]; omega) .empty
    rw [size, List.length_nil, Nat.zero_add]
    exact cut

/-- A record whose subtitle and whose sound hold an end mark. -/
def hornEntry : Entry where
  label := [0x68, 0x6F, 0x72, 0x6E]
  spare := [0, 0, 0, 0]
  flag := [0, 1]
  subtitle := endMark
  sound := some ⟨List.replicate 22 0, 0, endMark, rfl, by decide⟩
  length_label := rfl
  label_ne := by decide
  length_spare := rfl
  length_flag := rfl
  flag_iff := by decide
  length_subtitle := by decide

/-- A silent record with the same label. -/
def hushEntry : Entry where
  label := [0x68, 0x6F, 0x72, 0x6E]
  spare := [1, 2, 3, 4]
  flag := [1, 0]
  subtitle := [0x48, 0xE9]
  sound := none
  length_label := rfl
  label_ne := by decide
  length_spare := rfl
  length_flag := rfl
  flag_iff := by decide
  length_subtitle := by decide

/-- The second record for the label counts, and a piece that ends within the end mark in the sound
of the first record is refused. -/
theorem parse_writeAll_horn :
    (∃ subtitles, parse (writeAll [hornEntry, hushEntry] ++ [7]) = .ok subtitles ∧
      subtitles.find? "horn" = some "Hé") ∧
    48 < (writeAll [hornEntry, hushEntry]).length ∧
      RunsOut ((writeAll [hornEntry, hushEntry] ++ [7]).take 48)
        (parse ((writeAll [hornEntry, hushEntry] ++ [7]).take 48)) := by
  obtain ⟨⟨subtitles, read, found⟩, cut⟩ := parse_writeAll [hornEntry, hushEntry] [7]
  refine ⟨⟨subtitles, read, (found "horn").trans ?_⟩, by decide, cut 48 (by decide)⟩
  decide

end Dialogue

end MapScript
