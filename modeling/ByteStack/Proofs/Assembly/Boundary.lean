/-
This file is about the places between the statements of a program. At such a
place either the code ends or an instruction starts, and where an instruction
starts its bytes can be read off the code. The addresses of labels are such
places, and so is the place behind an instruction.
-/

import ByteStack.Proofs.Assembly.Program

namespace ByteStack.Program

variable {program before after : Program} {offset : Nat}

/-! ### Places between statements -/

/-- The offset is that of a place between two statements, or at either end. -/
def Boundary (program : Program) (offset : Nat) : Prop :=
  ∃ before after, program = before ++ after ∧ offset = size before

theorem boundary_zero (program : Program) : program.Boundary 0 :=
  ⟨[], program, rfl, rfl⟩

/-- The address of a label that is defined is a boundary. -/
theorem boundary_address {name : String} (defined : name ∈ program.definedNames) :
    program.Boundary (program.address name) := by
  obtain ⟨value, found⟩ := Option.isSome_iff_exists.mp
    ((addressOf?_isSome name program).mpr defined)
  obtain ⟨before, after, whole, same⟩ := exists_of_addressOf?_eq_some name found
  refine ⟨before, after, whole, ?_⟩
  rw [address, found, ← same]
  rfl

theorem Boundary.le_size (boundary : program.Boundary offset) : offset ≤ program.size := by
  obtain ⟨before, after, rfl, rfl⟩ := boundary
  rw [size_append]
  exact Nat.le_add_right _ _

theorem boundary_behind {statement : Statement} (whole : program = before ++ statement :: after) :
    program.Boundary (before.size + statement.size) := by
  refine ⟨before ++ [statement], after, ?_, ?_⟩
  · rw [whole, List.append_assoc]
    rfl
  · rw [size_append, size_singleton]

theorem size_instruction_append {statement : Statement}
    (whole : program = before ++ statement :: after) :
    before.size + statement.size ≤ program.size := by
  rw [whole, size_append]
  exact Nat.add_le_add_left (Nat.le_add_right _ _) _

/-- At a boundary the code ends or an instruction starts: definitions take no bytes. -/
theorem Boundary.split (boundary : program.Boundary offset) :
    offset = program.size ∨ ∃ before mnemonic operation argument after,
      program = before ++ .instruction mnemonic operation argument :: after ∧
        offset = size before := by
  obtain ⟨before, after, rfl, rfl⟩ := boundary
  induction after generalizing before with
  | nil =>
    left
    rw [List.append_nil]
  | cons statement rest inductionHypothesis =>
    cases statement with
    | define name position =>
      have further := inductionHypothesis (before ++ [.define name position])
      rw [List.append_assoc, size_append] at further
      exact further
    | instruction mnemonic operation argument =>
      exact Or.inr ⟨before, mnemonic, operation, argument, rest, rfl, rfl⟩

/-- Every boundary but the end is a place where the table of starts has an entry. -/
theorem Boundary.mem_starts (boundary : program.Boundary offset) :
    offset ∈ (program.starts 0).map Prod.fst ∨ offset = program.size := by
  rcases boundary.split with last | ⟨before, mnemonic, operation, argument, after, whole, rfl⟩
  · exact Or.inr last
  · left
    rw [whole, starts_append, Nat.zero_add, starts, List.map_append, List.map_cons]
    exact List.mem_append_right _ List.mem_cons_self

/-! ### Reading the code -/

/-- The bytes of a statement stand in the code at its offset. -/
theorem getElem?_code {statement : Statement} (whole : program = before ++ statement :: after)
    {distance : Nat} (inside : distance < statement.size) :
    program.code[before.size + distance]? = (statement.encode program.address)[distance]? := by
  have split : program.code = before.flatMap (Statement.encode program.address) ++
      (statement.encode program.address ++
        after.flatMap (Statement.encode program.address)) := by
    rw [code, ← List.flatMap_cons, ← List.flatMap_append, ← whole]
  rw [split, ← length_flatMap_encode program.address before,
    List.getElem?_append_right (Nat.le_add_right _ _), Nat.add_sub_cancel_left,
    List.getElem?_append_left (by rw [Statement.length_encode]; exact inside)]

end ByteStack.Program
