/-
This file is about the table of starts of a program: the offset and the mnemonic
of each instruction. The offsets rise and lie inside the code, so each is the
start of one instruction only, and a program that has code has a start. The
mnemonics are tokens that the program was spelled with.
-/

import ByteStack.Proofs.Assembly.Emission

namespace ByteStack.Program

variable {program : Program} {offset : Nat}

theorem le_start {entry : Nat × Token} (member : entry ∈ program.starts offset) :
    offset ≤ entry.1 := by
  induction program generalizing offset with
  | nil => exact absurd member List.not_mem_nil
  | cons statement rest inductionHypothesis =>
    cases statement with
    | define name position => exact inductionHypothesis member
    | instruction mnemonic operation argument =>
      rcases List.mem_cons.mp member with rfl | later
      · exact Nat.le_refl _
      · exact Nat.le_trans (Nat.le_add_right _ _) (inductionHypothesis later)

/-- The starts rise. -/
theorem pairwise_starts (program : Program) (offset : Nat) :
    (program.starts offset).Pairwise fun first second => first.1 < second.1 := by
  induction program generalizing offset with
  | nil => exact .nil
  | cons statement rest inductionHypothesis =>
    cases statement with
    | define name position => exact inductionHypothesis offset
    | instruction mnemonic operation argument =>
      refine .cons (fun entry later => ?_) (inductionHypothesis _)
      have behind : offset < offset + (Statement.instruction mnemonic operation argument).size :=
        Nat.lt_add_of_pos_right (Nat.lt_add_right _ Nat.one_pos)
      exact Nat.lt_of_lt_of_le behind (le_start later)

/-- Definitions take no bytes, so where there is code there is an instruction. -/
theorem starts_ne_nil (nonempty : 0 < program.size) : program.starts offset ≠ [] := by
  induction program generalizing offset with
  | nil => exact absurd nonempty (Nat.lt_irrefl 0)
  | cons statement rest inductionHypothesis =>
    cases statement with
    | define name position =>
      rw [show size (.define name position :: rest) = size rest from Nat.zero_add _] at nonempty
      exact inductionHypothesis nonempty
    | instruction mnemonic operation argument => exact List.cons_ne_nil _ _

theorem starts_eq_nil (empty : program.size = 0) : program.starts offset = [] := by
  by_contra some
  obtain ⟨entry, rest, shape⟩ := List.exists_cons_of_ne_nil some
  have bound := start_lt (shape ▸ List.mem_cons_self)
  have low := le_start (shape ▸ List.mem_cons_self)
  omega

/-- The mnemonics of instructions are mnemonics among the tokens. -/
theorem Spelled.mem_of_mem_starts {tokens : List Token} (spelled : Spelled tokens program)
    {entry : Nat × Token} (member : entry ∈ program.starts offset) :
    entry.2 ∈ tokens ∧ entry.2.kind = .mnemonic := by
  induction spelled generalizing offset with
  | nothing => exact absurd member List.not_mem_nil
  | plain kind name alone rest inductionHypothesis =>
    rcases List.mem_cons.mp member with rfl | later
    · exact ⟨List.mem_cons_self, kind⟩
    · obtain ⟨among, same⟩ := inductionHypothesis later
      exact ⟨List.mem_cons_of_mem _ among, same⟩
  | withOperand kind name spelled rest inductionHypothesis =>
    rcases List.mem_cons.mp member with rfl | later
    · exact ⟨List.mem_cons_self, kind⟩
    · obtain ⟨among, same⟩ := inductionHypothesis later
      exact ⟨List.mem_cons_of_mem _ (List.mem_cons_of_mem _ among), same⟩
  | define kind name labelKind rest inductionHypothesis =>
    obtain ⟨among, same⟩ := inductionHypothesis member
    exact ⟨List.mem_cons_of_mem _ (List.mem_cons_of_mem _ among), same⟩

end ByteStack.Program
