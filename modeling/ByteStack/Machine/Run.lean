/-
This file runs the machine for more than one step. A run need not end, so it is
given fuel, a bound on how often it may look at the machine, and has no result
when the fuel is used up. A run that ends does not depend on how much fuel was
left.
-/

import ByteStack.Machine.Step

namespace ByteStack.Machine

/-- Runs until the machine stops or pauses. Gives the fault of the run, if there is one. -/
def run : Nat → Machine → Option (Machine × Option Fault)
  | 0, _ => none
  | fuel + 1, machine =>
    if machine.status = .running then
      match machine.step with
      | (next, none) => run fuel next
      | (next, some fault) => some (next, some fault)
    else some (machine, machine.fault?)

/-- The limit of a budget that is used up. -/
def spentLimit? (machine : Machine) (budget? : Option Nat) : Option Nat :=
  budget?.filter fun limit => limit ≤ machine.cycles

/-- Runs until the machine stops, and resumes it whenever it pauses. With a budget, a machine
that has started that many instructions without stopping is stopped by a fault. -/
def runThrough (budget? : Option Nat) : Nat → Machine → Option (Machine × Option Fault)
  | 0, _ => none
  | fuel + 1, machine =>
    match machine.status with
    | .stopped => some (machine, machine.fault?)
    | .paused => runThrough budget? fuel machine.resume
    | .running =>
      match machine.spentLimit? budget? with
      | some limit =>
        some ({ machine with current := machine.pointer }.fail (.cycleBudgetExceeded limit))
      | none =>
        match machine.step with
        | (next, none) => runThrough budget? fuel next
        | (next, some fault) => some (next, some fault)

end ByteStack.Machine
