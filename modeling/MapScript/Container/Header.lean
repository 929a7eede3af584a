/-
This file describes the headers of a map. A header stands for one script: a block
of 165 bytes with numbers at fixed places, and the parts of the common pools that
those numbers point at. Bytes of the block that hold no number here are kept as
they are.
-/

import MapScript.Program

namespace MapScript

/-! ### Fields -/

/-- The numbers in a header block. -/
inductive HeaderField where
  | instances
  | stringCount
  | stringIndex
  | codeLength
  | codeOffset
  | entry
  | variableCount
  | variableOffset
  deriving DecidableEq, Repr

/-- The size of a header block. -/
def headerSize : Nat := 165

/-- The size of a block of attributes. -/
def attributeBlockSize : Nat := 256

namespace HeaderField

/-- Where a number starts in the block. -/
def start : HeaderField → Nat
  | instances => 13
  | stringCount => 65
  | stringIndex => 73
  | codeLength => 77
  | codeOffset => 81
  | entry => 85
  | variableCount => 117
  | variableOffset => 125

/-- How many bytes a number takes. -/
def width : HeaderField → Nat
  | instances => 2
  | _ => 4

/-- The field with a name. -/
def ofName (name : String) : Except Fault HeaderField :=
  match name with
  | "instances" => .ok instances
  | "string_count" => .ok stringCount
  | "string_index" => .ok stringIndex
  | "script_length" => .ok codeLength
  | "script_offset" => .ok codeOffset
  | "script_pc" => .ok entry
  | "variable_count" => .ok variableCount
  | "variable_offset" => .ok variableOffset
  | _ => fail (.noField name)

/-- Every field lies inside the block. -/
theorem start_add_width_le (field : HeaderField) : field.start + field.width ≤ headerSize := by
  cases field <;> decide

end HeaderField

/-! ### Headers -/

/-- A header block, and the parts of the pools that belong to it. -/
structure Header where
  raw : Bytes
  raw_length : raw.length = headerSize
  strings : List String
  locals : List Int
  attributes : Bytes
  code : Bytes
  deriving DecidableEq, Repr

namespace Header

/-- A header block by itself, without parts of the pools. -/
def ofRaw (raw : Bytes) : Except Fault Header :=
  if length : raw.length = headerSize then
    .ok ⟨raw, length, [], [], List.replicate attributeBlockSize 0, []⟩
  else fail (.format (.headerSize raw.length))

/-- The name of a header: the characters before the first NUL, without blanks
around them. -/
def name (header : Header) : String :=
  String.ofList (Text.trim
    ((Bytes.toChars (Bytes.part header.raw 4 9)).takeWhile (· != Char.ofNat 0)))

/-- The number in a field. -/
def field (header : Header) (field : HeaderField) : Nat :=
  Bytes.little (Bytes.part header.raw field.start field.width)

/-- Puts a number into a field; the number has to fit. -/
def withField (header : Header) (field : HeaderField) (value : Int) : Except Fault Header :=
  match packed : Bytes.unsigned? field.width value with
  | some bytes =>
    .ok { header with
      raw := Bytes.overwrite header.raw field.start bytes
      raw_length := by
        have size := Bytes.length_of_unsigned? packed
        have inside := field.start_add_width_le
        rw [Bytes.length_overwrite (by rw [size, header.raw_length]; exact inside)]
        exact header.raw_length }
  | none => fail (.fieldOverflow value)

/-- Puts numbers into fields, in order. -/
def withFields (header : Header) (values : List (HeaderField × Int)) : Except Fault Header :=
  values.foldlM (fun header pair => header.withField pair.1 pair.2) header

/-- The attributes that are not zero: their places, and their values as signed
bytes. -/
def attributeValues (header : Header) : List (Nat × Int) :=
  (header.attributes.mapIdx fun place byte => (place, byte)).filterMap fun (place, byte) =>
    if byte = 0 then none else some (place, Bytes.asSigned 1 byte.toNat)

/-- The script of a header. -/
def program (header : Header) : Program :=
  { name := header.name
    code := header.code
    entry := header.field .entry
    strings := header.strings
    locals := header.locals }

/-- A one-line description. -/
def describe (header : Header) : String :=
  s!"MapHeader({quote header.name}, script={header.field .codeLength}B @ {header.field .codeOffset}, " ++
    s!"pc={header.field .entry}, strings={header.field .stringCount}, " ++
    s!"vars={header.field .variableCount})"

end Header

end MapScript
