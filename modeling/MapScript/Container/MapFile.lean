/-
This file takes a map file apart: the header table, and for each header its parts
of the string pool, the variable pool, the script code and the attribute blocks.
The code of the headers stands in table order without gaps, starting at the first
header's offset.
-/

import MapScript.Container.Header
import MapScript.Container.Record

namespace MapScript

/-! ### Pools -/

/-- The pools that all headers of a map share. Attribute blocks may be missing
altogether. -/
structure Pools where
  texts : Bytes
  offsets : Bytes
  locals : List Int
  code : Bytes
  attributes : Option Bytes

/-- The signed numbers held by a run of bytes, four bytes each. Bytes that do not
fill a number are passed over. -/
def signedWords : Bytes → List Int
  | a :: b :: c :: d :: rest => Bytes.littleSigned [a, b, c, d] :: signedWords rest
  | _ => []

/-- The pools among the records of a map. -/
def Pools.ofRecords (records : List Record) : Pools :=
  { texts := (Record.payload? records stringsTag).getD []
    offsets := (Record.payload? records offsetsTag).getD []
    locals := signedWords ((Record.payload? records variablesTag).getD [])
    code := (Record.payload? records codeTag).getD []
    attributes := Record.payload? records attributesTag }

namespace Header

/-- The string of a header with a number: its offset stands in the offset table,
and it ends at the next NUL. -/
def stringAt (header : Header) (pools : Pools) (index : Nat) : Except Fault String :=
  let place := header.field .stringIndex + index * 4
  if pools.offsets.length < place + 4 then
    fail (.truncated (.stringOffset header.name index) place 4
      ((pools.offsets.length - place : Nat) : Int))
  else
    let start := Bytes.little (Bytes.part pools.offsets place 4)
    let tail := pools.texts.drop start
    if tail.contains 0 then .ok (Bytes.toText (tail.takeWhile (· != 0)))
    else fail (.format (.openString header.name index start))

/-- The strings of a header from a number on. -/
def stringsFrom (header : Header) (pools : Pools) : (index count : Nat) → Except Fault (List String)
  | _, 0 => .ok []
  | index, count + 1 => do
    let first ← header.stringAt pools index
    let rest ← header.stringsFrom pools (index + 1) count
    pure (first :: rest)

/-- The variables of a header. -/
def variablesIn (header : Header) (pools : Pools) : Except Fault (List Int) :=
  let count := header.field .variableCount
  if count = 0 then .ok []
  else
    let start := header.field .variableOffset / 4
    let stop := start + count
    if pools.locals.length < stop then
      fail (.format (.variablesOutside header.name start stop pools.locals.length))
    else .ok ((pools.locals.drop start).take count)

/-- The code of a header that starts at a place of the code pool. -/
def codeAt (header : Header) (pools : Pools) (cursor : Nat) : Except Fault Bytes :=
  let length := header.field .codeLength
  if pools.code.length < cursor + length then
    fail (.truncated (.script header.name) cursor length
      ((pools.code.length - cursor : Nat) : Int))
  else .ok (Bytes.part pools.code cursor length)

/-- The attributes of the header at a place of the table, which holds so many
headers. -/
def attributesAt (pools : Pools) (place count : Nat) : Except Fault Bytes :=
  match pools.attributes with
  | none => .ok (List.replicate attributeBlockSize 0)
  | some blocks =>
    let start := place * attributeBlockSize
    if blocks.length < start + attributeBlockSize then
      fail (.format (.attributesSize count blocks.length))
    else .ok (Bytes.part blocks start attributeBlockSize)

/-- Gives the headers of a table their parts of the pools, from a place of the
table and a place of the code pool on. -/
def resolveFrom (pools : Pools) (count : Nat) :
    (place cursor : Nat) → List Header → Except Fault (List Header)
  | _, _, [] => .ok []
  | place, cursor, header :: rest => do
    let strings ← header.stringsFrom pools 0 (header.field .stringCount)
    let locals ← header.variablesIn pools
    let code ← header.codeAt pools cursor
    let attributes ← attributesAt pools place count
    let others ← resolveFrom pools count (place + 1) (cursor + header.field .codeLength) rest
    pure ({ header with strings, locals, attributes, code } :: others)

end Header

/-! ### Map files -/

/-- A map file: its records, its headers and what follows the end tag. -/
structure MapFile where
  records : List Record
  headers : List Header
  trailer : Bytes
  deriving DecidableEq, Repr

/-- The size of what stands before the first block of a header table. -/
def headerTableStart : Nat := 8

namespace MapFile

/-- Where the code of the first header starts in the code pool. -/
def codeBase (headers : List Header) : Nat :=
  match headers with
  | [] => 0
  | first :: _ => first.field .codeOffset

/-- The header blocks of a header table. -/
def headerBlocks (table : Bytes) : Except Fault (List Header) :=
  if table.length < headerTableStart then fail (.format (.shortHeaderTable table.length))
  else
    let count := Bytes.little (table.take 4)
    let needed := headerTableStart + count * headerSize
    if table.length < needed then
      fail (.format (.headerTableSize table.length count needed))
    else
      (List.range count).mapM fun place =>
        Header.ofRaw (Bytes.part table (headerTableStart + place * headerSize) headerSize)

/-- Takes a map file apart. -/
def decode (data : Bytes) : Except Fault MapFile := do
  let (records, trailer) ← Record.readAll data
  match Record.payload? records headersTag with
  | none => fail (.format .noHeaderTable)
  | some table =>
    let blocks ← headerBlocks table
    let headers ←
      Header.resolveFrom (.ofRecords records) blocks.length 0 (codeBase blocks) blocks
    pure ⟨records, headers, trailer⟩

/-- The bytes of a map file. -/
def encode (file : MapFile) : Except Fault Bytes :=
  Record.writeAll file.records file.trailer

/-- The first header with a name. -/
def header (file : MapFile) (name : String) : Except Fault Header :=
  match file.headers.find? fun header => header.name == name with
  | some header => .ok header
  | none => fail (.noHeader name)

/-- A one-line description. -/
def describe (file : MapFile) : String :=
  s!"MapContainer({file.records.length} records, {file.headers.length} headers)"

end MapFile

end MapScript
