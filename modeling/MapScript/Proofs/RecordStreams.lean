/-
This file proves that reading and writing record streams are inverse to each other. A
stream that can be read is what writing its records gives, byte for byte, so a map that was
taken apart is put together again as it was; and whatever is written is read back. From the
two together follows what a cut does: if a piece of a stream that ends before the end tag
could be read, the whole stream would be read to the same records with a longer trailer, and
not to its own.
-/

import MapScript.Proofs.MapFiles
import MapScript.Tool.Inspect

namespace MapScript

/-! ### Length fields -/

namespace Bytes

/-- Bytes that are read as a number and written again are the same. -/
theorem ofNatLittle_little (bytes : Bytes) : ofNatLittle bytes.length (little bytes) = bytes := by
  induction bytes with
  | nil => rfl
  | cons byte rest inductionHypothesis =>
    have small := byte.toNat_lt
    have low : UInt8.ofNat (byte.toNat + 256 * little rest) = byte := by
      rw [← UInt8.toNat_inj, UInt8.toNat_ofNat']
      omega
    have high : (byte.toNat + 256 * little rest) / 256 = little rest := by omega
    rw [List.length_cons, little, ofNatLittle, low, high, inductionHypothesis]

theorem ofNatBig_big (bytes : Bytes) : ofNatBig bytes.length (big bytes) = bytes := by
  have back := ofNatLittle_little bytes.reverse
  rw [List.length_reverse] at back
  rw [ofNatBig, big, back, List.reverse_reverse]

theorem big_lt_range (bytes : Bytes) : big bytes < range bytes.length := by
  have bound := little_lt_range bytes.reverse
  rwa [List.length_reverse] at bound

end Bytes

/-! ### What was read is written the same -/

/-- Whether a cause is that data do not have their form, or end too early. -/
def Cause.isMalformed : Cause → Bool
  | .format _ | .truncated .. => true
  | _ => false

namespace Record

/-- A record that was cut out of a stream is written as it stood there. -/
theorem write_cut {bytes : Bytes} (tagged : 4 ≤ bytes.length) (sized : 4 ≤ (bytes.drop 4).length)
    (held : Bytes.big ((bytes.drop 4).take 4) ≤ ((bytes.drop 4).drop 4).length) :
    ∃ piece, write ⟨bytes.take 4, ((bytes.drop 4).drop 4).take
        (Bytes.big ((bytes.drop 4).take 4))⟩ = .ok piece ∧
      bytes = piece ++ ((bytes.drop 4).drop 4).drop (Bytes.big ((bytes.drop 4).take 4)) := by
  have tagLength : (bytes.take 4).length = 4 := List.length_take_of_le tagged
  have fieldLength : ((bytes.drop 4).take 4).length = 4 := List.length_take_of_le sized
  have field := Bytes.ofNatBig_big ((bytes.drop 4).take 4)
  have fits := Bytes.big_lt_range ((bytes.drop 4).take 4)
  rw [fieldLength] at field fits
  generalize Bytes.big ((bytes.drop 4).take 4) = length at held field fits ⊢
  have payloadLength : (((bytes.drop 4).drop 4).take length).length = length :=
    List.length_take_of_le held
  refine ⟨bytes.take 4 ++ Bytes.ofNatBig 4 length ++ ((bytes.drop 4).drop 4).take length, ?_, ?_⟩
  · rw [write, if_pos tagLength, payloadLength, if_pos fits]
  · rw [field, List.append_assoc, List.append_assoc, List.take_append_drop, List.take_append_drop,
      List.take_append_drop]

/-- The pieces of a stream that was read, one for each record. -/
theorem exists_pieces_of_readFrom {size : Nat} {bytes : Bytes} {records : List Record}
    {trailer : Bytes} (read : readFrom size bytes = .ok (records, trailer)) :
    ∃ pieces, records.mapM write = .ok pieces ∧ bytes = pieces.flatten ++ endTag ++ trailer := by
  fun_induction readFrom size bytes generalizing records trailer with
  | case1 => cases read
  | case2 bytes long ends =>
    cases read
    refine ⟨[], rfl, ?_⟩
    rw [List.flatten_nil, List.nil_append, ← ends, List.take_append_drop]
  | case3 => cases read
  | case4 => cases read
  | case5 bytes long notEnd tag head wide length body enough =>
    rename_i inner innerTrailer found hypothesis
    cases read
    obtain ⟨pieces, written, rest⟩ := hypothesis found
    obtain ⟨piece, first, whole⟩ := write_cut (Nat.le_of_not_lt long) (Nat.le_of_not_lt wide)
      (Nat.le_of_not_lt enough)
    refine ⟨piece :: pieces, mapM_cons_eq_ok.mpr ⟨piece, pieces, first, written, rfl⟩, ?_⟩
    rw [List.flatten_cons, List.append_assoc, List.append_assoc, ← List.append_assoc pieces.flatten,
      ← rest]
    exact whole
  | case6 => cases read

/-- A stream that was read is written byte for byte. -/
theorem writeAll_of_readAll {data : Bytes} {records : List Record} {trailer : Bytes}
    (read : readAll data = .ok (records, trailer)) : writeAll records trailer = .ok data := by
  obtain ⟨pieces, written, whole⟩ := exists_pieces_of_readFrom read
  rw [writeAll, written, ok_bind, whole]
  rfl

/-! ### What is cut off cannot be read -/

/-- Bytes behind a stream that was read belong to its trailer. -/
theorem readAll_append {data : Bytes} {records : List Record} {trailer : Bytes}
    (read : readAll data = .ok (records, trailer)) (more : Bytes) :
    readAll (data ++ more) = .ok (records, trailer ++ more) := by
  obtain ⟨pieces, written, whole⟩ := exists_pieces_of_readFrom read
  have longer := @readFrom_flatten (data ++ more).length _ _ (tagged_of_readFrom read) written
    (trailer ++ more)
  rwa [← List.append_assoc, ← whole] at longer

/-- Reading fails only because data do not have their form. -/
theorem isMalformed_of_readFrom {size : Nat} {bytes : Bytes} {fault : Fault}
    (failed : readFrom size bytes = .error fault) : fault.cause.isMalformed = true := by
  fun_induction readFrom size bytes with
  | case1 => cases failed; rfl
  | case2 => cases failed
  | case3 => cases failed; rfl
  | case4 => cases failed; rfl
  | case5 => cases failed
  | case6 =>
    rename_i found hypothesis
    cases failed
    exact hypothesis found

/-- A piece of a stream that ends before its end tag does cannot be read. -/
theorem readAll_take_of_lt {data : Bytes} {records : List Record} {trailer : Bytes}
    (read : readAll data = .ok (records, trailer)) {count : Nat}
    (cut : count + trailer.length < data.length) :
    ∃ fault, readAll (data.take count) = .error fault ∧ fault.cause.isMalformed = true := by
  cases piece : readAll (data.take count) with
  | error fault => exact ⟨fault, rfl, isMalformed_of_readFrom piece⟩
  | ok found =>
    have whole := readAll_append piece (data.drop count)
    rw [List.take_append_drop, read] at whole
    have longer : trailer = found.2 ++ data.drop count := congrArg Prod.snd (Except.ok.inj whole)
    have lengths := congrArg List.length longer
    rw [List.length_append, List.length_drop] at lengths
    omega

/-! ### What is written is read back -/

/-- Records whose tags have four bytes and whose payloads fit their length fields are
written. -/
theorem exists_writeAll {records : List Record} (trailer : Bytes)
    (fit : ∀ record ∈ records, record.tag.length = 4 ∧ record.payload.length < 0x100000000) :
    ∃ bytes, writeAll records trailer = .ok bytes := by
  have each : ∀ record ∈ records, record.write =
      .ok (record.tag ++ Bytes.ofNatBig 4 record.payload.length ++ record.payload) := by
    intro record member
    obtain ⟨tagLength, short⟩ := fit record member
    rw [write, if_pos tagLength, if_pos (by rw [Bytes.range_four]; exact short)]
  rw [writeAll, mapM_eq_ok_of_forall records each, ok_bind]
  exact ⟨_, rfl⟩

end Record

/-! ### Maps are put together as they were -/

/-- Writing a map that was taken apart gives its bytes back. -/
theorem MapFile.encode_of_decode {data : Bytes} {file : MapFile}
    (decoded : decode data = .ok file) : file.encode = .ok data :=
  Record.writeAll_of_readAll (decode_eq_ok_iff.mp decoded).1

namespace Tool

/-- Comparing a map with what writing it gave says that all is well if it gave the same. -/
theorem verifyMap_of_encode {m : Type → Type} [Monad m] [LawfulMonad m] [Host m] {data : Bytes}
    {file : MapFile} (written : file.encode = .ok data) :
    (verifyMap data file : Job m Nat) = (do
      Job.print s!"  VERIFY OK: {groupedText data.length} bytes, byte-identical"
      pure 0) := by
  have same : verification data data =
      (0, s!"  VERIFY OK: {groupedText data.length} bytes, byte-identical") := if_pos rfl
  have attempted : (Job.attempt (.ok data) : Job m Bytes) = pure data := rfl
  rw [verifyMap, written, attempted, pure_bind, same]

end Tool

/-- Reading and writing record streams are exact in both directions. A stream that can be read
is what its records are written to, so a map that can be taken apart is written to the same
bytes, and comparing the two finds no difference. Records with tags that can be told from the
end tag, and with payloads that fit their length fields, are written to a stream that is read
back to them, whatever payloads and trailer hold; and no piece of the stream that ends before
the end tag does can be read. -/
theorem Record.readAll_writeAll_exact :
    (∀ data records trailer, readAll data = .ok (records, trailer) →
      writeAll records trailer = .ok data) ∧
    (∀ data file, MapFile.decode data = .ok file → file.encode = .ok data ∧
      ∀ (m : Type → Type) [Monad m] [LawfulMonad m] [Tool.Host m],
        (Tool.verifyMap data file : Tool.Job m Nat) = (do
          Tool.Job.print s!"  VERIFY OK: {Tool.groupedText data.length} bytes, byte-identical"
          pure 0)) ∧
    ∀ (records : List Record) (trailer : Bytes),
      (∀ record ∈ records, record.Tagged ∧ record.payload.length < 0x100000000) →
      ∃ bytes, writeAll records trailer = .ok bytes ∧ readAll bytes = .ok (records, trailer) ∧
        ∀ count, count + trailer.length < bytes.length →
          ∃ fault, readAll (bytes.take count) = .error fault ∧ fault.cause.isMalformed = true := by
  refine ⟨fun data records trailer => writeAll_of_readAll, fun data file decoded => ?_,
    fun records trailer fit => ?_⟩
  · have written := MapFile.encode_of_decode decoded
    exact ⟨written, fun m _ _ _ => Tool.verifyMap_of_encode written⟩
  · obtain ⟨bytes, written⟩ := exists_writeAll trailer fun record member =>
      ⟨(fit record member).1.1, (fit record member).2⟩
    have read := readAll_of_writeAll (fun record member => (fit record member).1) written
    exact ⟨bytes, written, read, fun count cut => readAll_take_of_lt read cut⟩

/-- Records that hold the end tag, and one that is empty and repeated. -/
def nestedRecords : List Record :=
  [⟨attributesTag, endTag ++ [0, 0, 0, 1]⟩, ⟨codeTag, []⟩, ⟨codeTag, []⟩]

/-- A stream whose payload and trailer hold the end tag is read back; without the last byte of its
own end tag it is not. -/
theorem Record.readAll_writeAll_nested :
    (∀ record ∈ nestedRecords, record.Tagged ∧ record.payload.length < 0x100000000) ∧
    ∃ bytes, writeAll nestedRecords endTag = .ok bytes ∧ bytes.length = 40 ∧
      readAll bytes = .ok (nestedRecords, endTag) ∧
      ∃ fault, readAll (bytes.take 35) = .error fault ∧ fault.cause.isMalformed = true := by
  have fit : ∀ record ∈ nestedRecords,
      record.Tagged ∧ record.payload.length < 0x100000000 := by
    unfold Record.Tagged
    decide
  obtain ⟨bytes, written, read, cut⟩ := readAll_writeAll_exact.2.2 nestedRecords endTag fit
  have known : writeAll nestedRecords endTag =
      .ok (reached (writeAll nestedRecords endTag) []) := eq_ok_reached (by decide)
  have length : bytes.length = 40 := by
    cases written.symm.trans known
    decide
  exact ⟨fit, bytes, written, length, read, cut 35 (by rw [length]; decide)⟩

end MapScript
