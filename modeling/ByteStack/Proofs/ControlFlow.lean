/-
This file joins the assembler and the machine. An image that comes from a source
never lets control leave the instructions that the source spells out. Whatever a
run is fed and however it is driven, the instruction pointer and all return
addresses are places that the map of the assembly knows, or the end of the code.

So every opcode that is fetched is one that was emitted, and its operand was
emitted with it: no step reads behind the end of the code.
-/

import ByteStack.Proofs.Assembly.Encoding
import ByteStack.Proofs.Machine.Reached
import ByteStack.Proofs.Machine.Track

namespace ByteStack

variable {program : Program} {scenario : Scenario} {source : String} {tokens : List Token}
  {assembly : Assembly}

/-! ### Images of programs -/

/-- The address is one at which an instruction was emitted, or the end of the code. -/
def Assembly.Placed (assembly : Assembly) (address : Nat) : Prop :=
  address ∈ assembly.map.entries.map Prod.fst ∨ address = assembly.image.codeLength

namespace Program

theorem Assembled.placed (right : program.Assembled source assembly) {address : Nat}
    (boundary : program.Boundary address) : assembly.Placed address := by
  unfold Assembly.Placed
  rw [right.map, right.codeLength, List.map_reverse, List.mem_reverse]
  exact boundary.mem_starts

theorem Assembled.loaded (right : program.Assembled source assembly)
    (spelled : Spelled tokens program) (tail : List UInt8) :
    program.Loaded (assembly.image.code ++ tail) tail where
  code := by rw [right.code_eq]
  fits := right.assemblable.fits
  resolved := right.assemblable.resolved
  width_eq _ _ _ member := spelled.width_eq member

end Program

/-! ### Machines on track -/

namespace Machine

variable {machine : Machine} {state : ListMachine}

/-- A sound machine whose view is on track. -/
structure Guided (program : Program) (scenario : Scenario) (machine : Machine) : Prop where
  sound : machine.Sound scenario
  onTrack : machine.view.OnTrack program

theorem Guided.of_shows (shows : Shows scenario machine state) (onTrack : state.OnTrack program) :
    Guided program scenario machine := by
  refine ⟨shows.sound, ?_⟩
  rw [shows.view_eq]
  exact onTrack

/-- Nothing that is done to the machine from outside leads it off the track. -/
theorem kept_guided (loaded : program.Loaded scenario.code
    (List.replicate (Layout.codeSize - program.size) 0)) : Kept (Guided program scenario) := by
  have kept := @kept_view scenario (ListMachine.OnTrack program)
    (fun state onTrack => onTrack.step loaded)
    (fun state status onTrack => onTrack.of_same rfl rfl rfl)
    fun state limit onTrack => onTrack.fail state.pointer rfl
  have guided {next : Machine} (held : next.Sound scenario ∧ next.view.OnTrack program) :
      Guided program scenario next := ⟨held.1, held.2⟩
  exact {
    step := fun machine before => guided (kept.step machine ⟨before.sound, before.onTrack⟩)
    pause := fun machine before => guided (kept.pause machine ⟨before.sound, before.onTrack⟩)
    resume := fun machine before => guided (kept.resume machine ⟨before.sound, before.onTrack⟩)
    spend := fun machine limit before =>
      guided (kept.spend machine limit ⟨before.sound, before.onTrack⟩) }

theorem guided_start (program : Program) (image : Image) (feed : Feed) (seed : UInt64) :
    Guided program (Scenario.ofRun image feed seed) (start image feed seed) := by
  refine .of_shows (shows_start image feed seed) ?_
  exact ⟨program.boundary_zero, nofun, nofun⟩

/-- An opcode that is fetched on the track is that of an instruction of the program. -/
theorem Guided.fetched (guided : Guided program scenario machine)
    (loaded : program.Loaded scenario.code (List.replicate (Layout.codeSize - program.size) 0))
    (inside : machine.pointer < Layout.codeSize) {operation : Operation}
    (fetched : Operation.ofCode? (machine.memory.read machine.pointer) = some operation) :
    ∃ (before : Program) (mnemonic : Token) (argument : Argument) (after : Program),
      program = before ++ .instruction mnemonic operation argument :: after ∧
        machine.pointer = before.size := by
  have byte := guided.sound.getElem?_code inside
  rcases guided.onTrack.pointer.split with last | ⟨before, mnemonic, other, argument, after, whole,
    place⟩
  · -- The byte behind the program is zero, which is no opcode.
    have behind : scenario.code[machine.pointer]? = some 0 := by
      have room : 0 < Layout.codeSize - program.size := by
        rw [← show machine.pointer = program.size from last]
        exact Nat.sub_pos_of_lt inside
      rw [loaded.code, show machine.pointer = program.size from last,
        List.getElem?_append_right (Nat.le_of_eq program.length_code), program.length_code,
        Nat.sub_self, List.getElem?_replicate, if_pos room]
    have zero := Operation.code_of_ofCode? fetched
    rw [Option.some.inj (byte.symm.trans behind)] at zero
    exact absurd zero operation.code_ne_zero
  · have same : machine.pointer = before.size := place
    have emitted := loaded.fetch whole
    rw [← same, byte] at emitted
    rw [Option.some.inj emitted, Operation.ofCode?_code] at fetched
    obtain rfl := Option.some.inj fetched
    exact ⟨before, mnemonic, argument, after, whole, same⟩

end Machine

/-! ### Control-flow integrity -/

/-- Whatever a machine with an image that was assembled from a source is fed, and however it is
driven, control stays in the program. The pointer and the return addresses are starts of emitted
instructions or the end of the code. No byte is met that is no opcode, and the pointer can leave
the code region only at the end of a program that fills it. The operand of an instruction lies
in the code, and what a step does is the same whatever stands behind the code. -/
theorem control_stays_in_program {source : String} {assembly : Assembly}
    (made : Assembly.ofSource source = .ok assembly) (feed : Feed) (seed : UInt64)
    {machine : Machine} {reported? : Option Fault}
    (session : Session (Machine.start assembly.image feed seed) machine reported?) :
    (assembly.Placed machine.pointer ∧ ∀ address ∈ machine.calls, assembly.Placed address) ∧
    (∀ fault, machine.fault? = some fault ∨ reported? = some fault →
      (∀ byte, fault.kind ≠ .unknownOpcode byte) ∧
      ∀ pointer, fault.kind = .pointerOutOfBounds pointer →
        pointer = 7900 ∧ assembly.image.codeLength = 7900) ∧
    ∀ operation, machine.pointer < Layout.codeSize →
      Operation.ofCode? (machine.memory.read machine.pointer) = some operation →
      machine.pointer + operation.encodedLength ≤ assembly.image.codeLength ∧
      ∀ behind, machine.step.1.view = machine.view.step
        ⟨assembly.image.code ++ behind, feed.expected?, Keystream.byte seed⟩ := by
  obtain ⟨tokens, read, made⟩ := Assembly.exists_tokens made
  obtain ⟨program, spelled, right⟩ := Assembly.exists_program made
  have loaded := right.loaded spelled (List.replicate (Layout.codeSize - program.size) 0)
  rw [← right.codeRegion_eq] at loaded
  obtain ⟨guided, honest⟩ := (Machine.kept_guided loaded).session session
    (Machine.guided_start program assembly.image feed seed)
  refine ⟨⟨right.placed guided.onTrack.pointer, ?_⟩, ?_, ?_⟩
  · intro address member
    exact right.placed (guided.onTrack.calls address member)
  · intro fault known
    have recorded : machine.fault? = some fault := known.elim id (honest fault)
    have stray := guided.onTrack.fault fault recorded
    refine ⟨?_, ?_⟩
    · intro byte same
      rw [same] at stray
      exact nomatch (stray rfl).1
    · intro pointer same
      rw [same] at stray
      obtain ⟨place, full⟩ := stray rfl
      rw [right.codeLength]
      exact ⟨FaultKind.pointerOutOfBounds.inj place, full⟩
  · intro operation inside fetched
    obtain ⟨before, mnemonic, argument, after, whole, place⟩ :=
      guided.fetched loaded inside fetched
    have size := loaded.size_eq whole
    refine ⟨?_, ?_⟩
    · rw [place, right.codeLength, ← size]
      exact Program.size_instruction_append whole
    · intro behind
      have shows := Machine.Shows.step ⟨guided.sound, rfl⟩
      have other := right.loaded spelled behind
      rw [shows.view_eq]
      have fetches := loaded.fetch whole
      rw [← place] at fetches
      refine ListMachine.step_congr machine.view rfl rfl ?_ fetches
      intro distance short
      rw [← size] at short
      rw [show machine.view.pointer = before.size from place]
      exact (loaded.getElem?_code whole short).trans (other.getElem?_code whole short).symm

/-- A subroutine that is called once. -/
theorem control_stays_in_program_call :
    ∃ assembly, Assembly.ofSource "JSR #SUB LAB #SUB RET" = .ok assembly ∧
      assembly.Placed (Machine.start assembly.image ⟨[], none, []⟩ 0).step.1.pointer ∧
      ∀ address ∈ (Machine.start assembly.image ⟨[], none, []⟩ 0).step.1.calls,
        assembly.Placed address := by
  have read : tokensOf "JSR #SUB LAB #SUB RET" = .ok [⟨.mnemonic, "JSR", 0⟩, ⟨.label, "SUB", 4⟩,
      ⟨.mnemonic, "LAB", 9⟩, ⟨.label, "SUB", 13⟩, ⟨.mnemonic, "RET", 18⟩] := by
    decide +kernel
  have spelled : Program.Spelled [⟨.mnemonic, "JSR", 0⟩, ⟨.label, "SUB", 4⟩,
      ⟨.mnemonic, "LAB", 9⟩, ⟨.label, "SUB", 13⟩, ⟨.mnemonic, "RET", 18⟩]
      [.instruction ⟨.mnemonic, "JSR", 0⟩ .jsr (.label "SUB"), .define "SUB" 13,
        .instruction ⟨.mnemonic, "RET", 18⟩ .ret .nothing] :=
    .withOperand rfl rfl (.label rfl) (.define rfl rfl rfl (.plain rfl rfl rfl .nothing))
  have assembled : ∃ assembly, Assembly.ofTokens _ "JSR #SUB LAB #SUB RET" = .ok assembly :=
    Assembly.exists_assembly spelled ⟨by decide, by decide, by decide⟩
  obtain ⟨assembly, result⟩ := assembled
  have made : Assembly.ofSource "JSR #SUB LAB #SUB RET" = .ok assembly := by
    rw [Assembly.ofSource, read]
    dsimp only
    rw [result]
  have session := Session.step (@Session.start (Machine.start assembly.image ⟨[], none, []⟩ 0))
  exact ⟨assembly, made, (control_stays_in_program made _ _ session).1⟩

end ByteStack
