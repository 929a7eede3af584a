/-
Runs of bytes: the numbers they hold, in either byte order, and the text they
hold. In this format every byte is one character, so any bytes can be read as
text and come back unchanged.
-/

namespace MapScript

/-- A run of bytes. -/
abbrev Bytes := List UInt8

namespace Bytes

/-! ### Numbers -/

/-- The number held by bytes whose least significant one comes first. -/
def little : Bytes → Nat
  | [] => 0
  | byte :: rest => byte.toNat + 256 * little rest

/-- The number held by bytes whose most significant one comes first. -/
def big (bytes : Bytes) : Nat :=
  little bytes.reverse

/-- A number as `width` bytes, least significant one first; what does not fit is
dropped. -/
def ofNatLittle : (width : Nat) → Nat → Bytes
  | 0, _ => []
  | width + 1, n => UInt8.ofNat n :: ofNatLittle width (n / 256)

/-- A number as `width` bytes, most significant one first. -/
def ofNatBig (width n : Nat) : Bytes :=
  (ofNatLittle width n).reverse

/-- How many numbers `width` bytes can hold. -/
def range : (width : Nat) → Nat
  | 0 => 1
  | width + 1 => 256 * range width

/-- Reads an unsigned number of `width` bytes as a signed one: the upper half of
the range stands for the negative numbers. -/
def asSigned (width n : Nat) : Int :=
  if 2 * n < range width then n else (n : Int) - range width

/-- The signed number held by bytes whose least significant one comes first. -/
def littleSigned (bytes : Bytes) : Int :=
  asSigned bytes.length (little bytes)

/-- An integer as `width` bytes, least significant one first, counted modulo the
range of the width. -/
def wrapLittle (width : Nat) (value : Int) : Bytes :=
  ofNatLittle width (value % range width).toNat

/-- An integer as an unsigned field of `width` bytes, if it fits. -/
def unsigned? (width : Nat) (value : Int) : Option Bytes :=
  if 0 ≤ value ∧ value < range width then some (ofNatLittle width value.toNat) else none

/-- An integer as a signed field of `width` bytes, if it fits. -/
def signed? (width : Nat) (value : Int) : Option Bytes :=
  if -(range width : Int) ≤ 2 * value ∧ 2 * value < range width then some (wrapLittle width value)
  else none

@[simp] theorem length_ofNatLittle (width n : Nat) : (ofNatLittle width n).length = width := by
  induction width generalizing n with
  | zero => rfl
  | succ width inductionHypothesis => simp [ofNatLittle, inductionHypothesis]

@[simp] theorem length_ofNatBig (width n : Nat) : (ofNatBig width n).length = width := by
  simp [ofNatBig]

@[simp] theorem length_wrapLittle (width : Nat) (value : Int) :
    (wrapLittle width value).length = width := by
  simp [wrapLittle]

theorem length_of_unsigned? {width : Nat} {value : Int} {bytes : Bytes}
    (packed : unsigned? width value = some bytes) : bytes.length = width := by
  unfold unsigned? at packed
  split at packed
  · cases packed; simp
  · cases packed

/-! ### Parts -/

/-- The part of at most `size` bytes that starts at `start`. -/
def part (bytes : Bytes) (start size : Nat) : Bytes :=
  (bytes.drop start).take size

/-- Writes bytes over the ones that stand at `start`. -/
def overwrite (bytes : Bytes) (start : Nat) (new : Bytes) : Bytes :=
  bytes.take start ++ new ++ bytes.drop (start + new.length)

/-- Writing inside a run of bytes keeps its length. -/
theorem length_overwrite {bytes new : Bytes} {start : Nat}
    (inside : start + new.length ≤ bytes.length) :
    (overwrite bytes start new).length = bytes.length := by
  simp [overwrite]
  omega

/-! ### Text -/

/-- The characters that bytes stand for. -/
def toChars (bytes : Bytes) : List Char :=
  bytes.map fun byte => Char.ofNat byte.toNat

/-- The text that bytes stand for. -/
def toText (bytes : Bytes) : String :=
  String.ofList (toChars bytes)

/-- The bytes of a text, if each of its characters is one byte. -/
def ofChars? (text : List Char) : Option Bytes :=
  text.mapM fun c => if c.toNat < 256 then some (UInt8.ofNat c.toNat) else none

/-- The bytes of a string, if each of its characters is one byte. -/
def ofText? (text : String) : Option Bytes :=
  ofChars? text.toList

end Bytes

end MapScript
