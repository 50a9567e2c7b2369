/-
This file turns statements into code, from the first to the last. The addresses
of labels are left open: an instruction that uses a label emits two zeros and
leaves a note in the table of labels. A statement that is refused emits nothing
and changes nothing. Emission goes on after an error, unless the code region is
full.
-/

import ByteStack.Assembly.Label
import ByteStack.Assembly.Statement
import ByteStack.Source.Map

namespace ByteStack

/-- The code so far, the labels met so far, and where each instruction came from. -/
structure Emission where
  code : Array UInt8
  labels : List Label
  map : SourceMap

namespace Emission

/-- Nothing is emitted yet. -/
def start (source : String) : Emission :=
  ⟨#[], [], SourceMap.ofSource source⟩

/-- Why a statement cannot be accepted, if it cannot. -/
def refusal? (emission : Emission) : Statement → Option AssemblyError
  | .define name position =>
    if Label.isDefined name emission.labels then some ⟨.labelReset name, position⟩ else none
  | .instruction mnemonic _ argument =>
    if Layout.codeSize < emission.code.size + 1 + argument.width then
      some ⟨.codeOverflow, mnemonic.position⟩
    else none

/-- The table of labels after an instruction at `offset`. -/
def noteUse (labels : List Label) (offset : Nat) (mnemonic : Token) : Argument → List Label
  | .label name => Label.use name (offset + 1) mnemonic.position labels
  | _ => labels

/-- Emits a statement. -/
def accept (emission : Emission) : Statement → Emission
  | .define name _ =>
    { emission with labels := Label.define name emission.code.size emission.labels }
  | .instruction mnemonic operation argument =>
    let offset := emission.code.size
    { code := emission.code ++ (operation.code :: argument.placeholder)
      labels := noteUse emission.labels offset mnemonic argument
      map := emission.map.add offset mnemonic }

/-- Emits all statements. Gives the errors in the order in which they were met. -/
def acceptAll (emission : Emission) :
    List (Except AssemblyError Statement) → List AssemblyError × Emission
  | [] => ([], emission)
  | .error error :: rest =>
    let (errors, last) := emission.acceptAll rest
    (error :: errors, last)
  | .ok statement :: rest =>
    match emission.refusal? statement with
    | none => (emission.accept statement).acceptAll rest
    | some error =>
      if error.fault.isStructural then ([error], emission)
      else
        let (errors, last) := emission.acceptAll rest
        (error :: errors, last)

end Emission

end ByteStack
