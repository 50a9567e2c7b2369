/-
This file says how a command meets files. It reads a file by its name and gets
the bytes, or the reason why it cannot have them. Some files must moreover be
text, which is UTF-8.
-/

namespace ByteStack.CommandLine

/-- Why a file cannot be used. -/
inductive FileError where
  | notFound
  | notPermitted
  /-- A file stands where a path goes on. -/
  | notFolder
  /-- The path names a folder. -/
  | isFolder
  | nameTooLong
  /-- The bytes of the file are no text. -/
  | notText
deriving DecidableEq

def FileError.message : FileError → String
  | .notFound => "No such file or directory (os error 2)"
  | .notPermitted => "Permission denied (os error 13)"
  | .notFolder => "Not a directory (os error 20)"
  | .isFolder => "Is a directory (os error 21)"
  | .nameTooLong => "File name too long (os error 36)"
  | .notText => "stream did not contain valid UTF-8"

/-- The bytes of files by path. -/
abbrev Files := String → Except FileError (List UInt8)

/-- The text of a file. -/
def textOf (files : Files) (file : String) : Except FileError String :=
  match files file with
  | .error error => .error error
  | .ok bytes =>
    match String.fromUTF8? ⟨bytes.toArray⟩ with
    | some text => .ok text
    | none => .error .notText

end ByteStack.CommandLine
