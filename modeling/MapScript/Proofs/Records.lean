/-
This file proves that a record stream that was written is read back as it was. A
record says how long it is, so its payload may hold anything, the end tag
included; all that is asked of a record is a tag of four bytes that is not the end
tag, and records that were read have one.
-/

import MapScript.Container.Record
import MapScript.Proofs.Attempt
import MapScript.Proofs.Bytes

namespace MapScript.Record

/-- Whether the tag of a record can be told from the end of the stream. -/
def Tagged (record : Record) : Prop :=
  record.tag.length = 4 ∧ record.tag ≠ endTag

/-! ### Reading gives records with tags -/

theorem tagged_of_readFrom {size : Nat} {bytes : Bytes} {records : List Record} {trailer : Bytes}
    (read : readFrom size bytes = .ok (records, trailer)) :
    ∀ record ∈ records, record.Tagged := by
  fun_induction readFrom size bytes generalizing records trailer with
  | case1 => cases read
  | case2 =>
    cases read
    intro record member
    cases member
  | case3 => cases read
  | case4 => cases read
  | case5 bytes long notEnd tag head wide length body enough =>
    rename_i inner innerTrailer found hypothesis
    cases read
    intro record member
    rcases List.mem_cons.mp member with rfl | inRest
    · refine ⟨?_, notEnd⟩
      show (bytes.take 4).length = 4
      rw [List.length_take]
      omega
    · exact hypothesis found record inRest
  | case6 => cases read

/-! ### Writing and reading back -/

/-- Reading takes one written record off the front. -/
theorem readFrom_write {size : Nat} {record : Record} {bytes : Bytes} (tagged : record.Tagged)
    (written : record.write = .ok bytes) {rest : Bytes} {records : List Record} {trailer : Bytes}
    (readRest : readFrom size rest = .ok (records, trailer)) :
    readFrom size (bytes ++ rest) = .ok (record :: records, trailer) := by
  obtain ⟨tagLength, notEnd⟩ := tagged
  unfold write at written
  rw [if_pos tagLength] at written
  split at written
  · rename_i fits
    cases written
    have tagTaken : (record.tag ++ Bytes.ofNatBig 4 record.payload.length ++ record.payload ++
        rest).take 4 = record.tag := by
      rw [List.append_assoc, List.append_assoc, ← tagLength, List.take_left']
      rfl
    have tagDropped : (record.tag ++ Bytes.ofNatBig 4 record.payload.length ++ record.payload ++
        rest).drop 4 = Bytes.ofNatBig 4 record.payload.length ++ (record.payload ++ rest) := by
      rw [List.append_assoc, List.append_assoc, ← tagLength, List.drop_left']
      rfl
    have lengthTaken : (Bytes.ofNatBig 4 record.payload.length ++ (record.payload ++ rest)).take 4 =
        Bytes.ofNatBig 4 record.payload.length :=
      List.take_left' (Bytes.length_ofNatBig 4 _)
    have lengthDropped : (Bytes.ofNatBig 4 record.payload.length ++ (record.payload ++ rest)).drop 4 =
        record.payload ++ rest :=
      List.drop_left' (Bytes.length_ofNatBig 4 _)
    rw [readFrom, if_neg (by simp only [List.length_append, Bytes.length_ofNatBig]; omega), tagTaken,
      if_neg notEnd, tagDropped]
    simp only [lengthTaken, lengthDropped, Bytes.big_ofNatBig fits]
    rw [if_neg (by simp only [List.length_append, Bytes.length_ofNatBig]; omega),
      if_neg (by rw [List.length_append]; omega), List.drop_left, List.take_left, readRest]
  · cases written

/-- Reading the pieces of written records, up to the end tag, gives the records back. -/
theorem readFrom_flatten {size : Nat} {records : List Record} {pieces : List Bytes}
    (tagged : ∀ record ∈ records, record.Tagged) (written : records.mapM write = .ok pieces)
    (trailer : Bytes) :
    readFrom size (pieces.flatten ++ endTag ++ trailer) = .ok (records, trailer) := by
  induction records generalizing pieces with
  | nil =>
    cases written
    rw [readFrom, if_neg (by simp [endTag]), if_pos (by simp [endTag])]
    rfl
  | cons record rest inductionHypothesis =>
    obtain ⟨first, others, firstOk, othersOk, rfl⟩ := mapM_cons_eq_ok.mp written
    have restRead := inductionHypothesis
      (fun other member => tagged other (List.mem_cons_of_mem _ member)) othersOk
    rw [List.flatten_cons, List.append_assoc, List.append_assoc, ← List.append_assoc others.flatten]
    exact readFrom_write (tagged record List.mem_cons_self) firstOk restRead

/-- Reading a written stream gives its records and its trailer back. -/
theorem readAll_of_writeAll {records : List Record} {trailer bytes : Bytes}
    (tagged : ∀ record ∈ records, record.Tagged)
    (written : writeAll records trailer = .ok bytes) :
    readAll bytes = .ok (records, trailer) := by
  obtain ⟨pieces, piecesOk, whole⟩ := bind_eq_ok.mp written
  cases whole
  exact readFrom_flatten tagged piecesOk trailer

theorem payload_lt_of_write {record : Record} {bytes : Bytes} (written : record.write = .ok bytes) :
    record.payload.length < Bytes.range 4 := by
  unfold write at written
  split at written
  · split at written
    · assumption
    · cases written
  · cases written

/-- Writing asks that every payload fits its length field. -/
theorem payload_lt_of_writeAll {records : List Record} {trailer bytes : Bytes}
    (written : writeAll records trailer = .ok bytes) :
    ∀ record ∈ records, record.payload.length < Bytes.range 4 := by
  obtain ⟨pieces, piecesOk, -⟩ := bind_eq_ok.mp written
  intro record member
  obtain ⟨piece, pieceOk⟩ := ok_of_mapM_ok piecesOk member
  exact payload_lt_of_write pieceOk

end MapScript.Record
