/-
This file finds out which place of a program a fault is blamed on. A fault of an
instruction is blamed on the place where that instruction starts. Behind the last
instruction the program ends, and only a few faults can be found there: output
that is missing, values left on the stack, a pointer that has left the code
region, and a budget that is used up. The budget is checked between two
instructions, and is blamed on the one that would have come next.
-/

import ByteStack.Proofs.Machine.Track

namespace ByteStack

/-- The fault can be found where no instruction is left. -/
def FaultKind.isFinal : FaultKind → Bool
  | .notEnoughOutputs _ _ => true
  | .stackNotEmpty _ => true
  | .pointerOutOfBounds _ => true
  | .cycleBudgetExceeded _ => true
  | _ => false

namespace ListMachine

variable {before state other : ListMachine} {scenario : Scenario} {offset : Nat}

/-! ### Faults of an instruction -/

/-- A fault that is recorded now was recorded before or is blamed on the offset. -/
def Blames (offset : Nat) (before after : ListMachine) : Prop :=
  ∀ fault, after.fault? = some fault → before.fault? = some fault ∨ fault.offset = offset

namespace Blames

theorem refl (offset : Nat) (state : ListMachine) : Blames offset state state :=
  fun _ => Or.inl

theorem of_same (blames : Blames offset before state) (same : other.fault? = state.fault?) :
    Blames offset before other :=
  fun fault recorded => blames fault (same.symm.trans recorded)

theorem fail (before state : ListMachine) (offset : Nat) (kind : FaultKind) :
    Blames offset before (state.fail offset kind) := by
  intro fault recorded
  obtain rfl := Option.some.inj recorded
  exact Or.inr rfl

theorem halt (blames : Blames offset before state) :
    Blames offset before (state.halt scenario offset) := by
  unfold ListMachine.halt
  dsimp only
  split
  · exact fail _ _ _ _
  · split
    · exact fail _ _ _ _
    · exact blames.of_same rfl

theorem emit (blames : Blames offset before state) (value : Int8) :
    Blames offset before (state.emit scenario offset value) := by
  unfold ListMachine.emit
  dsimp only
  split
  · exact blames.of_same rfl
  · exact fail _ _ _ _

theorem jumpIf (blames : Blames offset before state) (stack : List Int8) (holds : Prop)
    [Decidable holds] :
    Blames offset before (if holds then (state.withStack stack).jump scenario offset
      else state.withStack stack) := by
  split <;> exact blames.of_same rfl

theorem execute (blames : Blames offset before state) (operation : Operation) :
    Blames offset before (state.execute scenario offset operation) := by
  cases operation with
  | inp =>
    unfold ListMachine.execute
    dsimp only
    split
    · exact blames.halt
    · exact blames.of_same rfl
  | out =>
    cases shape : state.stack with
    | nil =>
      simp only [ListMachine.execute, shape]
      exact blames
    | cons value rest =>
      simp only [ListMachine.execute, shape]
      have taken : Blames offset before (state.withStack rest) := blames.of_same rfl
      exact taken.emit value
  | hlt => exact blames.halt
  | jez | jnz | jlz | jgz =>
    cases shape : state.stack with
    | nil =>
      simp only [ListMachine.execute, shape]
      exact blames
    | cons value rest =>
      simp only [ListMachine.execute, shape]
      exact blames.jumpIf rest _
  | jsr =>
    simp only [ListMachine.execute]
    split
    · exact blames.of_same rfl
    · exact fail _ _ _ _
  | ret =>
    cases shape : state.calls with
    | nil =>
      simp only [ListMachine.execute, shape]
      exact fail _ _ _ _
    | cons back rest =>
      simp only [ListMachine.execute, shape]
      exact blames.of_same rfl
  | _ =>
    -- The other operations find no fault.
    rcases shape : state.stack with _ | ⟨upper, _ | ⟨middle, _ | ⟨lower, rest⟩⟩⟩ <;>
      simp only [ListMachine.execute, shape] <;> exact blames.of_same rfl

theorem perform (blames : Blames offset before state) (operation : Operation) :
    Blames offset before (state.perform scenario offset operation) := by
  unfold ListMachine.perform
  dsimp only
  split
  · exact fail _ _ _ _
  · split
    · exact fail _ _ _ _
    · have moved : Blames offset before
          { state with pointer := offset + operation.encodedLength } := blames.of_same rfl
      exact moved.execute operation

end Blames

end ListMachine

/-- An instruction that finds too few values on the stack is to blame. -/
theorem ListMachine.fault?_step_of_short {state : ListMachine} {scenario : Scenario}
    {operation : Operation} (active : state.status ≠ .stopped)
    (fetched : scenario.code[state.pointer]? = some operation.code)
    (short : state.stack.length < operation.pops) :
    (state.step scenario).fault? = some ⟨.stackUnderflow, state.pointer⟩ := by
  rw [step, if_neg active, dispatch_of_fetch _ fetched, perform]
  dsimp only
  rw [if_pos short]
  rfl

/-! ### Places of a program -/

namespace Program

variable {program before after : Program} {mnemonic : Token} {operation : Operation}
  {argument : Argument}

/-- An instruction stands in the table of starts behind the bytes of the earlier ones. -/
theorem mem_starts (whole : program = before ++ .instruction mnemonic operation argument :: after) :
    (before.size, mnemonic) ∈ program.starts 0 := by
  rw [whole, starts_append, Nat.zero_add, starts]
  exact List.mem_append_right _ List.mem_cons_self

/-- The fault is blamed on the start of an instruction, or it is one that can be found behind the
last instruction and is blamed on the end of the code. -/
def Blamable (program : Program) (fault : Fault) : Prop :=
  (∃ mnemonic, (fault.offset, mnemonic) ∈ program.starts 0) ∨
    fault.offset = program.size ∧ fault.kind.isFinal = true

/-- A fault that can be found anywhere may be blamed on any place between two statements. -/
theorem Boundary.blamable {offset : Nat} (boundary : program.Boundary offset) {kind : FaultKind}
    (final : kind.isFinal = true) : program.Blamable ⟨kind, offset⟩ := by
  rcases boundary.split with last | ⟨before, mnemonic, operation, argument, after, whole, rfl⟩
  · exact Or.inr ⟨last, final⟩
  · exact Or.inl ⟨mnemonic, Program.mem_starts whole⟩

end Program

namespace ListMachine

variable {program : Program} {state other : ListMachine} {scenario : Scenario} {offset : Nat}

/-- Whatever fault has been recorded, the program can be blamed for it. -/
def Blamed (program : Program) (state : ListMachine) : Prop :=
  ∀ fault, state.fault? = some fault → program.Blamable fault

namespace Blamed

theorem of_same (blamed : Blamed program state) (same : other.fault? = state.fault?) :
    Blamed program other :=
  fun fault recorded => blamed fault (same.symm.trans recorded)

theorem fail (boundary : program.Boundary offset) {kind : FaultKind}
    (final : kind.isFinal = true) : Blamed program (state.fail offset kind) := by
  intro fault recorded
  obtain rfl := Option.some.inj recorded
  exact boundary.blamable final

/-- The end of a program is judged wherever it comes. -/
theorem halt (blamed : Blamed program state) (boundary : program.Boundary offset) :
    Blamed program (state.halt scenario offset) := by
  unfold ListMachine.halt
  dsimp only
  split
  · exact fail boundary rfl
  · split
    · exact fail boundary rfl
    · exact blamed.of_same rfl

/-- Every fault of a step is blamed on the place where the step was taken. -/
theorem step (blamed : Blamed program state) (onTrack : OnTrack program state)
    (loaded : program.Loaded scenario.code
      (List.replicate (Layout.codeSize - program.size) 0)) :
    Blamed program (state.step scenario) := by
  unfold ListMachine.step
  split
  · exact blamed
  have begun : Blamed program { state with cycles := state.cycles + 1 } := blamed.of_same rfl
  rcases onTrack.pointer.split with last | inside
  · have behind : scenario.code[state.pointer]? =
        (List.replicate (Layout.codeSize - program.size) (0 : UInt8))[0]? := by
      rw [loaded.code, last, List.getElem?_append_right (Nat.le_of_eq program.length_code),
        program.length_code, Nat.sub_self]
    unfold dispatch
    rw [behind, List.getElem?_replicate]
    by_cases room : 0 < Layout.codeSize - program.size
    · rw [if_pos room]
      exact begun.halt onTrack.pointer
    · rw [if_neg room]
      exact fail onTrack.pointer rfl
  · obtain ⟨before, mnemonic, operation, argument, after, whole, place⟩ := inside
    have fetched := loaded.fetch whole
    rw [← place] at fetched
    rw [dispatch_of_fetch _ fetched]
    intro fault recorded
    rcases (Blames.refl _ _).perform operation fault recorded with earlier | here
    · exact begun fault earlier
    · left
      refine ⟨mnemonic, ?_⟩
      rw [here, place]
      exact Program.mem_starts whole

end Blamed

end ListMachine

end ByteStack
