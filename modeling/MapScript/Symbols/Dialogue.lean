/-
The dialogue file: records of a four-character label, a subtitle and perhaps
sound, up to an end mark. Only the subtitles are kept. The lengths in the file
are signed, and a negative one moves the cursor back; a file in which the cursor
comes back to where it was would never be read to its end, and is refused.
-/

import MapScript.Fault
import MapScript.Registry

namespace MapScript

namespace Dialogue

/-- The four bytes that end the file. -/
def endMark : Bytes := [0x45, 0x4E, 0x44, 0x20]

/-- What stands at a place of the file. -/
inductive Step where
  | finished
  | record (label subtitle : String) (next : Int)
  deriving DecidableEq, Repr

/-- Asks that so many bytes follow the cursor. -/
def need (data : Bytes) (cursor size : Int) (what : Extent) : Except Fault Unit :=
  if cursor + size ≤ data.length then .ok ()
  else fail (.truncated what cursor size (data.length - cursor))

/-- The size of the part of a record between its label and its subtitle. -/
def recordHeadSize : Nat := 10

/-- The size of the part of a record between its subtitle and its sound. -/
def audioHeadSize : Nat := 27

/-- Reads the sound part of a record that starts at a cursor, and gives the place
behind it. -/
def skipAudio (data : Bytes) (label : String) (cursor : Int) : Except Fault Int := do
  need data cursor audioHeadSize (.audioHeader label)
  let size := Bytes.littleSigned (Bytes.part data (cursor + 22).toNat 4)
  let start := cursor + audioHeadSize
  need data start size (.audio label)
  pure (start + size)

/-- Reads what stands at a cursor. -/
def stepAt (data : Bytes) (cursor : Nat) : Except Fault Step := do
  need data cursor 4 .dialogueLabel
  let mark := Bytes.part data cursor 4
  if mark = endMark then pure .finished
  else
    let label := Bytes.toText mark
    let head := cursor + 4
    need data head recordHeadSize (.dialogueRecord label)
    let hasAudio := Bytes.big (Bytes.part data (head + 4) 2) = 1
    let size := Bytes.littleSigned (Bytes.part data (head + 6) 4)
    let start := head + recordHeadSize
    need data start size (.dialogueSubtitle label)
    let subtitle := Bytes.toText (Bytes.part data start size.toNat)
    let stop := (start : Int) + size
    if hasAudio then
      let next ← skipAudio data label stop
      pure (.record label subtitle next)
    else pure (.record label subtitle stop)

/-- Reads records from a cursor on. The count bounds the number of records: there
are at most as many as there are places, unless the cursor comes back. -/
def readFrom (data : Bytes) :
    (count : Nat) → (cursor : Int) → Registry String String →
      Except Fault (Registry String String)
  | 0, _, _ => fail .endlessDialogue
  | count + 1, cursor, subtitles =>
    if cursor < 0 then fail .endlessDialogue
    else do
      match ← stepAt data cursor.toNat with
      | .finished => pure subtitles
      | .record label subtitle next => readFrom data count next (subtitles.put label subtitle)

/-- Reads a dialogue file: the subtitle of each label. A later record for a label
replaces an earlier one. -/
def parse (data : Bytes) : Except Fault (Registry String String) :=
  readFrom data (data.length + 1) 0 .empty

end Dialogue

end MapScript
