/-
This file follows a fault back to the text. The machine blames it on an offset of
the code, the map of the assembly leads from the offset to a mnemonic, and the
mnemonic stands somewhere on a line of the source.

A fault of an instruction is shown at the mnemonic of that instruction, and not
at one of its neighbours. A fault behind the last instruction is shown at the
last mnemonic.
-/

import ByteStack.Diagnostic
import ByteStack.Proofs.Assembly.Encoding
import ByteStack.Proofs.Assembly.Start
import ByteStack.Proofs.ControlFlow
import ByteStack.Proofs.Machine.Blame
import ByteStack.Proofs.Machine.Reached
import ByteStack.Proofs.Source.Location
import ByteStack.Proofs.Source.Map

namespace ByteStack

variable {program : Program} {source : String} {tokens : List Token} {assembly : Assembly}

namespace Program

/-! ### The map of an assembly -/

theorem Assembled.falling (right : program.Assembled source assembly) : assembly.map.Falling := by
  unfold SourceMap.Falling
  rw [right.map, List.pairwise_reverse]
  exact pairwise_starts program 0

/-- At the start of an instruction the map gives its mnemonic. -/
theorem Assembled.tokenAt?_start (right : program.Assembled source assembly) {start : Nat}
    {mnemonic : Token} (member : (start, mnemonic) ∈ program.starts 0) :
    assembly.map.tokenAt? start = some mnemonic := by
  refine right.falling.tokenAt?_of_mem ?_
  rw [right.map]
  exact List.mem_reverse.mpr member

/-- At the end of the code the map gives the last mnemonic. -/
theorem Assembled.tokenAt?_size (right : program.Assembled source assembly) :
    assembly.map.tokenAt? program.size = (program.starts 0).getLast?.map Prod.snd := by
  have above : ∀ entry ∈ assembly.map.entries, entry.1 < program.size := by
    intro entry member
    rw [right.map] at member
    have bound := start_lt (List.mem_reverse.mp member)
    rw [Nat.zero_add] at bound
    exact bound
  rw [SourceMap.tokenAt?_of_above above, right.map, List.head?_reverse]

/-- What the map answers with the mnemonic of an instruction, it shows where that stands. -/
theorem Assembled.exists_location (right : program.Assembled source assembly)
    (read : tokensOf source = .ok tokens) (spelled : Spelled tokens program) {start offset : Nat}
    {mnemonic : Token} (member : (start, mnemonic) ∈ program.starts 0)
    (answer : assembly.map.tokenAt? offset = some mnemonic) :
    ∃ location, assembly.map.locationOf? offset = some location ∧
      location.Marks source.toList mnemonic := by
  obtain ⟨among, kind⟩ := spelled.mem_of_mem_starts member
  refine ⟨Location.ofPosition source.toList mnemonic.position, ?_,
    Location.marks_ofPosition (segmented_of_tokensOf read) among kind⟩
  rw [SourceMap.locationOf?, answer, Option.map_some, SourceMap.locationAt, right.map]

/-! ### Where a fault is shown -/

/-- The location is that of the instruction which the fault is blamed on. Where no instruction
starts, the fault is one that can be found behind the last instruction, and the location is that
of the last. -/
structure Pinpoints (program : Program) (source : List Char) (fault : Fault)
    (location : Location) : Prop where
  instruction : ∀ (index : Nat) (mnemonic : Token),
    (program.starts 0)[index]? = some (fault.offset, mnemonic) → location.Marks source mnemonic
  behind : (∀ (index : Nat) (mnemonic : Token),
      (program.starts 0)[index]? ≠ some (fault.offset, mnemonic)) →
    fault.offset = program.size ∧ fault.kind.isFinal = true ∧
      ∃ start mnemonic, (program.starts 0).getLast? = some (start, mnemonic) ∧
        location.Marks source mnemonic

/-- A fault that a program can be blamed for is shown at the instruction that is to blame. -/
theorem Blamable.exists_location {fault : Fault} (blamable : program.Blamable fault)
    (right : program.Assembled source assembly) (read : tokensOf source = .ok tokens)
    (spelled : Spelled tokens program) (nonempty : 0 < program.size) :
    ∃ location, (Diagnostic.ofFault assembly.map fault).location? = some location ∧
      program.Pinpoints source.toList fault location := by
  rcases blamable with ⟨mnemonic, member⟩ | ⟨last, final⟩
  · have answer := right.tokenAt?_start member
    obtain ⟨location, found, marks⟩ := right.exists_location read spelled member answer
    refine ⟨location, found, ?_, ?_⟩
    · intro index other place
      -- One offset has one mnemonic.
      have also := right.tokenAt?_start (List.mem_of_getElem? place)
      obtain rfl := Option.some.inj (answer.symm.trans also)
      exact marks
    · intro nowhere
      obtain ⟨index, place⟩ := List.mem_iff_getElem?.mp member
      exact absurd place (nowhere index mnemonic)
  · have answer := right.tokenAt?_size
    cases highest : (program.starts 0).getLast? with
    | none => exact absurd (List.getLast?_eq_none_iff.mp highest) (starts_ne_nil nonempty)
    | some entry =>
      rw [highest, Option.map_some, ← last] at answer
      obtain ⟨location, found, marks⟩ :=
        right.exists_location read spelled (List.mem_of_getLast? highest) answer
      refine ⟨location, found, ?_, fun _ => ⟨last, final, entry.1, entry.2, highest, marks⟩⟩
      intro index other place
      have bound := start_lt (List.mem_of_getElem? place)
      rw [Nat.zero_add, last] at bound
      exact absurd bound (Nat.lt_irrefl _)

end Program

/-- Whatever a machine with an image that was assembled from a source is fed, and however it is
driven, its faults are shown at the instructions that are to blame. -/
theorem faults_shown_at_instructions {source : String} {assembly : Assembly}
    (made : Assembly.ofSource source = .ok assembly) (nonempty : 0 < assembly.image.codeLength) :
    ∃ tokens program, tokensOf source = .ok tokens ∧ Program.Spelled tokens program ∧
      assembly.image.code = program.code ∧ assembly.image.codeLength = program.size ∧
      ∀ feed seed machine reported? fault,
        Session (Machine.start assembly.image feed seed) machine reported? →
        (machine.fault? = some fault ∨ reported? = some fault) →
        ∃ location, (Diagnostic.ofFault assembly.map fault).location? = some location ∧
          program.Pinpoints source.toList fault location := by
  obtain ⟨tokens, read, made⟩ := Assembly.exists_tokens made
  obtain ⟨program, spelled, right⟩ := Assembly.exists_program made
  refine ⟨tokens, program, read, spelled, right.code_eq, right.codeLength, ?_⟩
  intro feed seed machine reported? fault session known
  have loaded := right.loaded spelled (List.replicate (Layout.codeSize - program.size) 0)
  rw [← right.codeRegion_eq] at loaded
  have kept := @Machine.kept_view (Scenario.ofRun assembly.image feed seed)
    (fun state => state.OnTrack program ∧ state.Blamed program)
    (fun state held => ⟨held.1.step loaded, held.2.step held.1 loaded⟩)
    (fun state status held => ⟨held.1.of_same rfl rfl rfl, held.2.of_same rfl⟩)
    fun state limit held => ⟨held.1.fail state.pointer rfl, .fail held.1.pointer rfl⟩
  have shows := Machine.shows_start assembly.image feed seed
  have clean : (Machine.start assembly.image feed seed).view.Blamed program := by
    rw [shows.view_eq]
    exact nofun
  have start := Machine.guided_start program assembly.image feed seed
  obtain ⟨⟨sound, onTrack, blamed⟩, honest⟩ :=
    kept.session session ⟨start.sound, start.onTrack, clean⟩
  have recorded : machine.fault? = some fault := known.elim id (honest fault)
  rw [right.codeLength] at nonempty
  exact (blamed fault recorded).exists_location right read spelled nonempty

/-- An addition without values, on the second line of a text. -/
theorem faults_shown_at_instructions_add :
    ∃ assembly, Assembly.ofSource ";sum\n ADD" = .ok assembly ∧
      (Machine.start assembly.image ⟨[], none, []⟩ 0).step.1.fault? = some ⟨.stackUnderflow, 0⟩ ∧
      ∃ location, (Diagnostic.ofFault assembly.map ⟨.stackUnderflow, 0⟩).location? =
        some location ∧ location.Marks ";sum\n ADD".toList ⟨.mnemonic, "ADD", 6⟩ := by
  have read : tokensOf ";sum\n ADD" = .ok [⟨.mnemonic, "ADD", 6⟩] := by
    decide +kernel
  have spelled : Program.Spelled [⟨.mnemonic, "ADD", 6⟩]
      [.instruction ⟨.mnemonic, "ADD", 6⟩ .add .nothing] :=
    .plain rfl rfl rfl .nothing
  obtain ⟨assembly, made⟩ := Assembly.exists_ofSource read spelled ⟨by decide, by decide, by decide⟩
  have right := Assembly.assembled_of_spelled made read spelled
  obtain ⟨tokens, program, also, same, code, length, shown⟩ :=
    faults_shown_at_instructions made (by rw [right.codeLength]; decide)
  obtain rfl := Except.ok.inj (read.symm.trans also)
  obtain rfl := spelled.unique same
  -- The opcode of the addition is the first byte of the code.
  have fetched : assembly.image.codeRegion[0]? = some Operation.add.code := by
    rw [right.codeRegion_eq, code]
    rfl
  have fault : (Machine.start assembly.image ⟨[], none, []⟩ 0).step.1.fault? =
      some ⟨.stackUnderflow, 0⟩ := by
    have shows := (Machine.shows_start assembly.image ⟨[], none, []⟩ 0).step
    rw [shows.fault?_eq]
    exact ListMachine.fault?_step_of_short nofun fetched (show 0 < 2 by decide)
  obtain ⟨location, found, pinpoints⟩ :=
    shown _ _ _ _ _ (Session.step .start) (Or.inl fault)
  exact ⟨assembly, made, fault, location, found, pinpoints.instruction 0 _ rfl⟩

end ByteStack
