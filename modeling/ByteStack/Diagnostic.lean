/-
This file makes errors readable: a diagnostic is a message, the place in the
text of the program that it is about, and sometimes a hint. Errors in a text
carry the position of a character. Faults of a running program carry an offset
of its code, which the map of the program leads back to the text. For code
without a text there is no place to show.
-/

import ByteStack.Assembly.Resolution
import ByteStack.Machine.Fault

namespace ByteStack

structure Diagnostic where
  message : String
  location? : Option Location
  hint? : Option String
deriving DecidableEq

namespace Diagnostic

/-- The diagnostic as it is shown. -/
def render (diagnostic : Diagnostic) : String :=
  let body := match diagnostic.location? with
    | some location => location.render diagnostic.message
    | none => "error: " ++ diagnostic.message
  match diagnostic.hint? with
  | some hint => body ++ "\nhint: " ++ hint
  | none => body

/-- The diagnostic of a text that could not be cut into tokens. -/
def ofLexicalError (source : List Char) (error : LexicalError) : Diagnostic :=
  ⟨"lexer error: " ++ error.message, some (Location.ofPosition source error.position), none⟩

/-- The diagnostic of an error in the tokens of a text, which is reported at the cursor. -/
def ofAssemblyError (cursor : Cursor) (error : AssemblyError) : Diagnostic :=
  ⟨error.message, some (Location.ofCursor cursor), error.fault.hint?⟩

/-- The diagnostics of errors in the tokens of a text. -/
def ofAssemblyErrors (source : List Char) (errors : List AssemblyError) : List Diagnostic :=
  List.zipWith ofAssemblyError
    (Cursor.ofPositions source (errors.map AssemblyError.position)) errors

/-- Each error has its own diagnostic, which does not depend on the others. -/
theorem ofAssemblyErrors_eq_map (source : List Char) (errors : List AssemblyError) :
    ofAssemblyErrors source errors = errors.map fun error =>
      ofAssemblyError (Cursor.ofPosition source error.position) error := by
  rw [ofAssemblyErrors, Cursor.ofPositions_eq_map, List.map_map]
  induction errors with
  | nil => rfl
  | cons error rest inductionHypothesis =>
    simp only [List.map_cons, List.zipWith_cons_cons, inductionHypothesis, Function.comp]

/-- One diagnostic for each error in a text. -/
def ofSourceError (source : String) (error : SourceError) : List Diagnostic :=
  let characters := source.toList
  match error with
  | .lexical error => [ofLexicalError characters error]
  | .assembly errors => ofAssemblyErrors characters errors

/-- The diagnostic of a fault, in the program that the map belongs to. -/
def ofFault (map : SourceMap) (fault : Fault) : Diagnostic :=
  ⟨fault.message, map.locationOf? fault.offset, fault.kind.hint?⟩

end Diagnostic

end ByteStack
