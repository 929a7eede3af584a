/-
This file says what survives a trip through bytes. A number that fits its width
comes back from its bytes, unsigned or signed, in either byte order; a text whose
characters are single bytes comes back from them; and a part of a run of bytes is
what was written there last.
-/

import MapScript.Bytes

namespace MapScript.Bytes

/-! ### Numbers -/

theorem range_pos (width : Nat) : 0 < range width := by
  induction width with
  | zero => decide
  | succ width inductionHypothesis =>
    rw [range]
    omega

/-- Bytes hold no more than their number allows. -/
theorem little_lt_range (bytes : Bytes) : little bytes < range bytes.length := by
  induction bytes with
  | nil => decide
  | cons byte rest inductionHypothesis =>
    have small := byte.toNat_lt
    rw [little, List.length_cons, range]
    omega

/-- A number that fits comes back from its bytes. -/
theorem little_ofNatLittle {width n : Nat} (fits : n < range width) :
    little (ofNatLittle width n) = n := by
  induction width generalizing n with
  | zero =>
    rw [range] at fits
    rw [ofNatLittle, little]
    omega
  | succ width inductionHypothesis =>
    rw [range] at fits
    have quotient : n / 256 < range width := by omega
    rw [ofNatLittle, little, inductionHypothesis quotient, UInt8.toNat_ofNat']
    omega

theorem little_eq_zero {bytes : Bytes} (zero : ∀ byte ∈ bytes, byte = 0) : little bytes = 0 := by
  induction bytes with
  | nil => rfl
  | cons byte rest inductionHypothesis =>
    rw [little, zero byte List.mem_cons_self,
      inductionHypothesis fun other member => zero other (List.mem_cons_of_mem _ member)]
    rfl

theorem big_ofNatBig {width n : Nat} (fits : n < range width) : big (ofNatBig width n) = n := by
  rw [big, ofNatBig, List.reverse_reverse, little_ofNatLittle fits]

theorem range_four : range 4 = 4294967296 := by decide

/-- A signed number that fits comes back from its bytes. -/
theorem littleSigned_of_signed? {width : Nat} {value : Int} {bytes : Bytes}
    (packed : signed? width value = some bytes) : littleSigned bytes = value := by
  unfold signed? at packed
  split at packed
  · rename_i fits
    have positive := range_pos width
    cases packed
    have small : (value % range width).toNat < range width := by
      have := Int.emod_lt_of_pos value (b := range width) (by omega)
      omega
    rw [littleSigned, length_wrapLittle, wrapLittle, little_ofNatLittle small, asSigned]
    -- A negative value is counted up by the range once, and down again.
    by_cases negative : value < 0
    · have wrapped : value % range width = value + range width := by
        rw [← Int.add_emod_right]
        exact Int.emod_eq_of_lt (by omega) (by omega)
      rw [wrapped, if_neg (by omega)]
      omega
    · rw [Int.emod_eq_of_lt (by omega) (by omega), if_pos (by omega)]
      omega
  · cases packed

/-- Bytes that are read as a signed number and written again are the same. -/
theorem wrapLittle_littleSigned (width : Nat) (value : Int) :
    wrapLittle width (littleSigned (wrapLittle width value)) = wrapLittle width value := by
  have positive := range_pos width
  have small : (value % range width).toNat < range width := by
    have below := Int.emod_lt_of_pos value (Int.natCast_pos.mpr positive)
    omega
  have held : littleSigned (wrapLittle width value) =
      asSigned width (value % range width).toNat := by
    rw [littleSigned, length_wrapLittle, wrapLittle, little_ofNatLittle small]
  have back : asSigned width (value % range width).toNat % range width =
      ((value % range width).toNat : Int) := by
    unfold asSigned
    split
    · exact Int.emod_eq_of_lt (Int.natCast_nonneg _) (by omega)
    · rw [Int.sub_emod_right]
      exact Int.emod_eq_of_lt (Int.natCast_nonneg _) (by omega)
  rw [held, wrapLittle, wrapLittle, back, Int.toNat_natCast]

theorem length_of_signed? {width : Nat} {value : Int} {bytes : Bytes}
    (packed : signed? width value = some bytes) : bytes.length = width := by
  unfold signed? at packed
  split at packed
  · cases packed
    exact length_wrapLittle width value
  · cases packed

/-- An unsigned field holds the number that was put into it. -/
theorem little_of_unsigned? {width : Nat} {value : Int} {bytes : Bytes}
    (packed : unsigned? width value = some bytes) : (little bytes : Int) = value := by
  unfold unsigned? at packed
  split at packed
  · rename_i fits
    cases packed
    rw [little_ofNatLittle (by omega)]
    omega
  · cases packed

/-! ### Parts -/

theorem length_part (bytes : Bytes) (start size : Nat) :
    (part bytes start size).length = min size (bytes.length - start) := by
  rw [part, List.length_take, List.length_drop]

/-- The part behind a beginning is the beginning of what follows it. -/
theorem part_append_right (front back : Bytes) (start size : Nat) (behind : front.length ≤ start) :
    part (front ++ back) start size = part back (start - front.length) size := by
  rw [part, part, List.drop_append, List.drop_eq_nil_of_le behind, List.nil_append]

/-- A part that lies in the beginning does not see what follows it. -/
theorem part_append_left (front back : Bytes) (start size : Nat)
    (inside : start + size ≤ front.length) :
    part (front ++ back) start size = part front start size := by
  rw [part, part, List.drop_append_of_le_length (by omega),
    List.take_append_of_le_length (by rw [List.length_drop]; omega)]

/-- The part between a beginning and an end. -/
theorem part_middle (front middle back : Bytes) :
    part (front ++ middle ++ back) front.length middle.length = middle := by
  rw [List.append_assoc, part_append_right _ _ _ _ (Nat.le_refl _), Nat.sub_self,
    part_append_left _ _ _ _ (by omega), part, List.drop_zero, List.take_length]

/-- What is written over a part stands there. -/
theorem part_overwrite_self {bytes new : Bytes} {start : Nat}
    (inside : start + new.length ≤ bytes.length) :
    part (overwrite bytes start new) start new.length = new := by
  have front : (bytes.take start).length = start := by
    rw [List.length_take]
    omega
  have middle := part_middle (bytes.take start) new (bytes.drop (start + new.length))
  rwa [front] at middle

/-- A part in front of what is overwritten stays. -/
theorem part_overwrite_before {bytes new : Bytes} {start size target : Nat}
    (inside : target + new.length ≤ bytes.length) (before : start + size ≤ target) :
    part (overwrite bytes target new) start size = part bytes start size := by
  have front : start + size ≤ (bytes.take target).length := by
    rw [List.length_take]
    omega
  have whole := part_append_left (bytes.take target) (bytes.drop target) start size front
  rw [List.take_append_drop] at whole
  rw [overwrite, List.append_assoc, part_append_left _ _ _ _ front, whole]

/-- A part behind what is overwritten stays. -/
theorem part_overwrite_after {bytes new : Bytes} {start size target : Nat}
    (inside : target + new.length ≤ bytes.length) (behind : target + new.length ≤ start) :
    part (overwrite bytes target new) start size = part bytes start size := by
  have front : (bytes.take target ++ new).length = target + new.length := by
    rw [List.length_append, List.length_take]
    omega
  rw [overwrite, part_append_right _ _ _ _ (by omega), front, part, part, List.drop_drop,
    Nat.add_sub_cancel' behind]

/-! ### Text -/

theorem toNat_ofNat_toNat {c : Char} (single : c.toNat < 256) :
    Char.ofNat (UInt8.ofNat c.toNat).toNat = c := by
  rw [UInt8.toNat_ofNat', Nat.mod_eq_of_lt single, Char.ofNat_toNat]

/-- Characters that are single bytes come back from their bytes. -/
theorem toChars_of_ofChars? {text : List Char} {bytes : Bytes}
    (packed : ofChars? text = some bytes) : toChars bytes = text := by
  induction text generalizing bytes with
  | nil =>
    rw [ofChars?, List.mapM_nil] at packed
    cases packed
    rfl
  | cons c rest inductionHypothesis =>
    simp only [ofChars?, List.mapM_cons, Option.bind_eq_bind, Option.pure_def,
      Option.bind_eq_some_iff, Option.some.injEq] at packed
    obtain ⟨byte, first, others, rest, rfl⟩ := packed
    split at first
    · rename_i single
      cases first
      rw [toChars, List.map_cons, toNat_ofNat_toNat single]
      exact congrArg (c :: ·) (inductionHypothesis rest)
    · cases first

theorem toText_of_ofText? {text : String} {bytes : Bytes} (packed : ofText? text = some bytes) :
    toText bytes = text := by
  rw [toText, toChars_of_ofChars? packed, String.ofList_toList]

/-- A text without the character NUL has no zero among its bytes. -/
theorem zero_notMem_of_ofChars? {text : List Char} {bytes : Bytes}
    (packed : ofChars? text = some bytes) (noNul : Char.ofNat 0 ∉ text) : 0 ∉ bytes := by
  intro member
  apply noNul
  rw [← toChars_of_ofChars? packed, toChars, List.mem_map]
  exact ⟨0, member, rfl⟩

end MapScript.Bytes
