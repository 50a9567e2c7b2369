/-
This file is a folder of files as a value, and the rules by which a path leads
to a file. A path is followed name by name. Every name on the way must be that
of a folder, two dots lead to the folder above, and one dot stays. A slash at
the end asks for a folder, so a file is neither read nor written by such a path.

Folders above the given one are there, but nothing in them is known.
-/

import ByteStack.CommandLine.File

namespace ByteStack.CommandLine

/-! ### Places -/

/-- The names that lead from the folder to a place, the last one first. Names that lead out of
the folder are two dots, or one slash for the folder that is above all others. -/
abbrev Place := List String

namespace Place

/-- The name of the folder above all others. -/
def root : String := "/"

/-- The place one folder above. -/
def above : Place → Place
  | [] => [".."]
  | name :: outer =>
    if name = root then [root]
    else if name = ".." then ".." :: name :: outer
    else outer

/-- Whether the place is the folder itself or one that contains it. -/
def isOuter (place : Place) : Bool :=
  place = [root] || place.all fun name => name = ".."

end Place

/-! ### Paths -/

/-- A path, taken apart at its slashes. -/
structure Path where
  start : Place
  /-- The names between the slashes, none of them empty. -/
  names : List String
  /-- Whether a slash stands at the end. -/
  asFolder : Bool
deriving DecidableEq

namespace Path

/-- The bytes that a path may have. -/
def longestPath : Nat := 4095

/-- The bytes that a name may have. -/
def longestName : Nat := 255

def ofText (text : String) : Path where
  start := if text.startsWith "/" then [Place.root] else []
  names := (text.splitOn "/").filter fun name => !name.isEmpty
  asFolder := text.endsWith "/"

/-- The path of a text, which is neither empty nor too long. -/
def ofText? (text : String) : Except FileError Path :=
  if text.isEmpty then .error .notFound
  else if longestPath < text.utf8ByteSize then .error .nameTooLong
  else .ok (ofText text)

end Path

/-- What the last name of a path leads to. -/
inductive Target where
  /-- A folder, because the last name is dots or there is none. -/
  | folder
  | entry (outer : Place) (name : String)
deriving DecidableEq

/-! ### Folders -/

inductive Entry where
  | file (bytes : List UInt8)
  | folder
deriving DecidableEq

/-- A folder with all that is in it. -/
structure Folder where
  entries : List (Place × Entry)
deriving DecidableEq

namespace Folder

def empty : Folder := ⟨[]⟩

/-- What stands at a place, if anything does. -/
def find? (folder : Folder) (place : Place) : Option Entry :=
  if place.isOuter then some .folder else folder.entries.lookup place

/-- What has a name in the folder at a place. -/
def lookUp (folder : Folder) (outer : Place) (name : String) : Except FileError (Option Entry) :=
  if Path.longestName < name.utf8ByteSize then .error .nameTooLong
  else .ok (folder.find? (name :: outer))

/-- Goes from one folder to the one that a name leads to. -/
def enter (folder : Folder) (outer : Place) (name : String) : Except FileError Place := do
  if name = "." then return outer
  if name = ".." then return outer.above
  match ← folder.lookUp outer name with
  | none => throw .notFound
  | some (.file _) => throw .notFolder
  | some .folder => return name :: outer

/-- Follows a path as far as its last name. -/
def follow (folder : Folder) (path : Path) : Except FileError Target :=
  match path.names.getLast? with
  | none => .ok .folder
  | some last => do
    let outer ← path.names.dropLast.foldlM folder.enter path.start
    return if last = "." ∨ last = ".." then .folder else .entry outer last

/-- The bytes of the file that a path leads to. -/
def read (folder : Folder) (text : String) : Except FileError (List UInt8) := do
  let path ← Path.ofText? text
  match ← folder.follow path with
  | .folder => throw .isFolder
  | .entry outer name =>
    match ← folder.lookUp outer name with
    | none => throw .notFound
    | some .folder => throw .isFolder
    | some (.file bytes) => if path.asFolder then throw .notFolder else return bytes

/-- Puts a file at a place, instead of the one that was there. -/
def put (folder : Folder) (place : Place) (bytes : List UInt8) : Folder :=
  ⟨(place, .file bytes) :: folder.entries.filter fun entry => entry.1 ≠ place⟩

/-- Writes the file that a path leads to. -/
def write (folder : Folder) (text : String) (bytes : List UInt8) : Except FileError Folder := do
  let path ← Path.ofText? text
  match ← folder.follow path with
  | .folder => throw .isFolder
  | .entry outer name =>
    if path.asFolder then throw .isFolder
    match ← folder.lookUp outer name with
    | some .folder => throw .isFolder
    | _ => return folder.put (name :: outer) bytes

/-- Adds the folders that a place lies in. -/
def addOuter (folder : Folder) : Place → Folder
  | [] => folder
  | name :: outer => ⟨(name :: outer, .folder) :: (folder.addOuter outer).entries⟩

/-- Adds a file and the folders on the way to it. -/
def add (folder : Folder) (text : String) (bytes : List UInt8) : Folder :=
  let place := (Path.ofText text).names.reverse
  (folder.addOuter place.tail).put place bytes

/-- The folder of files with these paths. -/
def ofFiles (files : List (String × List UInt8)) : Folder :=
  files.foldl (fun folder (text, bytes) => folder.add text bytes) empty

end Folder

end ByteStack.CommandLine
