/-
This file finishes an assembly. When everything could be emitted, each label
that was used must have been defined; then its address is written into the
holes that wait for it, the high byte first, and the code becomes an image. An
assembly that meets an error has no image.
-/

import ByteStack.Assembly.Emission
import ByteStack.Image.Basic
import ByteStack.Source.Lexer

namespace ByteStack

/-! ### Labels -/

namespace Label

/-- The error of a label that was used but never defined. -/
def unresolved? (label : Label) : Option AssemblyError :=
  match label.address? with
  | some _ => none
  | none => some ⟨.labelNeverSet label.name, label.firstUse?.getD 0⟩

/-- Writes an address into one hole of the code. -/
def fill (address : Nat) (code : Array UInt8) (hole : Nat) : Array UInt8 :=
  (code.setIfInBounds hole (highByte address)).setIfInBounds (hole + 1) (lowByte address)

/-- Writes the address of a label into all its holes. -/
def resolve (code : Array UInt8) (label : Label) : Array UInt8 :=
  label.holes.foldl (fill (label.address?.getD 0)) code

end Label

/-! ### Assemblies -/

/-- What an assembly yields: the image, and the map from its code back to the text. -/
structure Assembly where
  image : Image
  map : SourceMap

namespace Assembly

/-- Assembles tokens, which come from `source`. The tokens need not be ones that a lexer would
make of it. -/
def ofTokens (tokens : List Token) (source : String) : Except (List AssemblyError) Assembly :=
  let (errors, emission) := (Emission.start source).acceptAll (Statement.ofTokens tokens)
  if !errors.isEmpty then .error errors
  else
    let unresolved := emission.labels.filterMap Label.unresolved?
    if !unresolved.isEmpty then .error unresolved
    else
      match Image.ofCode? (emission.labels.foldl Label.resolve emission.code).toList with
      | .ok image => .ok ⟨image, emission.map⟩
      | .error _ => .error [⟨.codeOverflow, (tokens.getLast?.map Token.position).getD 0⟩]

end Assembly

/-! ### Whole programs -/

/-- Why the text of a program has no image. -/
inductive SourceError where
  | lexical (error : LexicalError)
  | assembly (errors : List AssemblyError)
deriving DecidableEq

def SourceError.message : SourceError → String
  | .lexical error => "lexer error: " ++ error.message
  | .assembly errors => AssemblyError.messages errors

/-- Assembles the text of a program. -/
def Assembly.ofSource (source : String) : Except SourceError Assembly :=
  match tokensOf source with
  | .error error => .error (.lexical error)
  | .ok tokens =>
    match Assembly.ofTokens tokens source with
    | .error errors => .error (.assembly errors)
    | .ok assembly => .ok assembly

end ByteStack
