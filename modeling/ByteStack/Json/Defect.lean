/-
This file says in what ways a JSON text can be broken: it holds something that
cannot stand there, or it ends too early. A value whose text is only skipped is
judged less strictly than one that is read, so a break has a defect for each.
-/

namespace ByteStack.Json

inductive Defect where
  /-- Something stands where it cannot. -/
  | malformed
  /-- The text ends where more is needed. -/
  | truncated
deriving DecidableEq

/-- A place behind which a text cannot be understood. -/
structure Break where
  /-- What a reader of the value there is told. -/
  read : Defect
  /-- What is told when the value there is only skipped. -/
  skipped : Defect
deriving DecidableEq

namespace Break

def malformed : Break := ⟨.malformed, .malformed⟩

def truncated : Break := ⟨.truncated, .truncated⟩

/-- The text ends inside a number. Skipping does not look for the end of the text there. -/
def unfinishedNumber : Break := ⟨.truncated, .malformed⟩

end Break

end ByteStack.Json
