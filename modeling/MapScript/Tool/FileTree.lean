/-
A folder held in memory, as surroundings for the tools: files by their paths, what
was printed, and the notices that were passed on. A folder is there if a file is
below it.
-/

import MapScript.Registry
import MapScript.Tool.Host

namespace MapScript.Tool

/-- What a tool works on and leaves behind. -/
structure FileTree where
  files : Registry (List String) Bytes
  output : String
  notices : List Notice

namespace FileTree

/-! ### Paths -/

/-- What stands at a path. -/
inductive Place where
  | file (bytes : Bytes)
  | folder
  | missing

/-- What stands at a path whose parts are given. -/
def placeAt (tree : FileTree) (parts : List String) : Place :=
  match tree.files.find? parts with
  | some bytes => .file bytes
  | none =>
    if parts.isEmpty || tree.files.entries.any fun entry => parts.isPrefixOf entry.1 then .folder
    else .missing

/-- The most bytes that a name in a folder can have. -/
def nameLimit : Nat := 255

/-- The most bytes that a path can have. -/
def pathLimit : Nat := 4095

/-- What is wrong with a path that leaves the working folder upwards: there are
folders there, and nothing else. -/
def outside (rest : List String) : FileTrouble :=
  if rest.all fun part => part = "" ∨ part = "." ∨ part = ".." then .isAFolder else .missing

/-- The parts of a path, from the working folder on, if every part but the last is
a folder. Empty parts and single dots stay where they are, double dots go up. -/
def walk (tree : FileTree) : (done : List String) → List String → Except FileTrouble (List String)
  | done, [] => .ok done
  | done, part :: rest =>
    match tree.placeAt done with
    | .missing => .error .missing
    | .file _ => .error .notAFolder
    | .folder =>
      if part = "" ∨ part = "." then tree.walk done rest
      else if part = ".." then
        if done.isEmpty then .error (outside rest) else tree.walk done.dropLast rest
      else if nameLimit < part.utf8ByteSize then .error .nameTooLong
      else tree.walk (done ++ [part]) rest

/-- The parts of a path that is written out. A path from the top of the disk leaves
the working folder. -/
def resolve (tree : FileTree) (path : String) : Except FileTrouble (List String) :=
  let parts := (Text.splitOn '/' path.toList).map String.ofList
  if path.isEmpty then .error .missing
  else if pathLimit < path.utf8ByteSize then .error .nameTooLong
  else if path.toList.head? == some '/' then .error (outside parts)
  else tree.walk [] parts

/-! ### Acts -/

/-- What stands at a path that is written out. -/
def placeOf (tree : FileTree) (path : String) : Except FileTrouble Place :=
  (tree.resolve path).map tree.placeAt

/-- The bytes of a file. -/
def read (tree : FileTree) (path : String) : Except FileFault Bytes :=
  match tree.placeOf path with
  | .ok (.file bytes) => .ok bytes
  | .ok .folder => .error ⟨.isAFolder, path⟩
  | .ok .missing => .error ⟨.missing, path⟩
  | .error trouble => .error ⟨trouble, path⟩

/-- Whether there is something at a path. -/
def isThere (tree : FileTree) (path : String) : Bool :=
  match tree.placeOf path with
  | .ok .missing => false
  | .ok _ => true
  | .error trouble => trouble == .isAFolder

/-- The names in a folder. -/
def entries (tree : FileTree) (path : String) : Option (List String) :=
  match tree.resolve path with
  | .error _ => none
  | .ok parts =>
    match tree.placeAt parts with
    | .folder =>
      some ((tree.files.entries.filterMap fun entry =>
        if parts.isPrefixOf entry.1 then (entry.1.drop parts.length).head? else none).eraseDups)
    | _ => none

/-- A path without the slashes at its end, unless it is made of slashes. -/
def bare (path : String) : String :=
  let kept := (path.toList.reverse.dropWhile (· == '/')).reverse
  if kept.isEmpty then path else String.ofList kept

/-- Writes a file, in a folder that has to be there. A path with a slash at its end
names a folder, which cannot be written. -/
def write (tree : FileTree) (path : String) (bytes : Bytes) : Except FileFault FileTree :=
  match tree.resolve (bare path) with
  | .error trouble => .error ⟨trouble, path⟩
  | .ok parts =>
    match tree.placeAt parts with
    | .folder => .error ⟨.isAFolder, path⟩
    | _ =>
      if bare path = path then .ok { tree with files := tree.files.put parts bytes }
      else .error ⟨.isAFolder, path⟩

end FileTree

/-- A tool at work on a folder held in memory. -/
abbrev InMemory := StateM FileTree

instance : Host InMemory where
  print line := modify fun tree => { tree with output := tree.output ++ line ++ "\n" }
  complain _ := pure ()
  note notice := modify fun tree => { tree with notices := tree.notices ++ [notice] }
  isThere path := do
    let tree ← get
    pure (tree.isThere path)
  read path := do
    let tree ← get
    pure (tree.read path)
  entries path := do
    let tree ← get
    pure (tree.entries path)
  write path bytes := do
    let tree ← get
    match tree.write path bytes with
    | .ok changed =>
      set changed
      pure (.ok ())
    | .error fault => pure (.error fault)

end MapScript.Tool
