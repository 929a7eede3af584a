/-
This file reads and writes the record stream of a map file: tagged runs of bytes,
one after the other, up to an end tag that has no length. Whatever follows the
end tag is kept as the trailer. Reading loses nothing, so writing what was read
gives the same bytes back.
-/

import MapScript.Fault

namespace MapScript

/-- A tagged run of bytes. -/
structure Record where
  tag : Bytes
  payload : Bytes
  deriving DecidableEq, Repr

/-! ### Tags -/

/-- The tag that ends a record stream, `END` and a space. -/
def endTag : Bytes := [0x45, 0x4E, 0x44, 0x20]

/-- The tag `RAHD` of the header table. -/
def headersTag : Bytes := [0x52, 0x41, 0x48, 0x44]

/-- The tag `RAST` of the string pool. -/
def stringsTag : Bytes := [0x52, 0x41, 0x53, 0x54]

/-- The tag `RASB` of the offsets into the string pool. -/
def offsetsTag : Bytes := [0x52, 0x41, 0x53, 0x42]

/-- The tag `RAVA` of the variable pool. -/
def variablesTag : Bytes := [0x52, 0x41, 0x56, 0x41]

/-- The tag `RASC` of the script code. -/
def codeTag : Bytes := [0x52, 0x41, 0x53, 0x43]

/-- The tag `RAAT` of the attribute blocks. -/
def attributesTag : Bytes := [0x52, 0x41, 0x41, 0x54]

namespace Record

/-! ### Reading -/

/-- Reads records up to the end tag, and what follows it. The size is that of the
whole file; a place in the file is told from the bytes that are left. -/
def readFrom (size : Nat) (bytes : Bytes) : Except Fault (List Record × Bytes) :=
  if bytes.length < 4 then fail (.format (.noEnd size))
  else if bytes.take 4 = endTag then .ok ([], bytes.drop 4)
  else
    let tag := bytes.take 4
    let head := bytes.drop 4
    if head.length < 4 then
      fail (.truncated (.recordLength tag) (size - head.length : Int) 4 head.length)
    else
      let length := Bytes.big (head.take 4)
      let body := head.drop 4
      if body.length < length then
        fail (.truncated (.record tag) (size - body.length : Int) length body.length)
      else
        match readFrom size (body.drop length) with
        | .ok (records, trailer) => .ok (⟨tag, body.take length⟩ :: records, trailer)
        | .error fault => .error fault
termination_by bytes.length
decreasing_by simp +zetaDelta only [List.length_drop] at *; omega

/-- Reads a record stream: its records, and what follows the end tag. -/
def readAll (data : Bytes) : Except Fault (List Record × Bytes) :=
  readFrom data.length data

/-! ### Writing -/

/-- The bytes of one record. -/
def write (record : Record) : Except Fault Bytes :=
  if record.tag.length = 4 then
    if record.payload.length < Bytes.range 4 then
      .ok (record.tag ++ Bytes.ofNatBig 4 record.payload.length ++ record.payload)
    else fail (.fieldOverflow record.payload.length)
  else fail (.format (.tagSize record.tag))

/-- The bytes of a record stream: the records, the end tag and the trailer. -/
def writeAll (records : List Record) (trailer : Bytes) : Except Fault Bytes := do
  let written ← records.mapM write
  pure (written.flatten ++ endTag ++ trailer)

/-- The payload of the first record with a tag. -/
def payload? (records : List Record) (tag : Bytes) : Option Bytes :=
  (records.find? fun record => record.tag == tag).map Record.payload

end Record

end MapScript
