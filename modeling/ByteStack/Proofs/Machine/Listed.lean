/-
This file compares what a listing shows with what the machine executes. The two
decode the same bytes apart from each other. A listing looks at the code region
alone, and takes an operand that the end of the region cuts off for zero. The
machine looks at all of memory, where the cells of the instruction pointer stand
behind the code region, and it does so after the pointer has moved on.

So a machine that stands at a listed instruction executes it with the operand
that is shown, as long as the whole instruction lies in the code region. Of an
operand that is cut off it takes the missing bytes from its own pointer.
-/

import ByteStack.Proofs.Image.Listing
import ByteStack.Proofs.Machine.Failure

namespace ByteStack

namespace Machine

variable {scenario : Scenario} {machine : Machine} {operation : Operation}

/-! ### Executing what is shown -/

/-- The register that a byte names. -/
def registerOf (index : UInt8) : Fin registerCount :=
  ⟨index.toNat % registerCount, Nat.mod_lt _ (by decide)⟩

/-- Goes on at `target` if the top of the data stack passes the test. -/
def jumpToIf (machine : Machine) (target : Nat) (test : Int8 → Bool) : Machine :=
  if test machine.top then machine.drop.setPointer target else machine.drop

/-- Stores the instruction pointer on the call stack and goes on at `target`. -/
def callTo (machine : Machine) (target : Nat) : Machine × Option Fault :=
  if Layout.callStackSize < machine.callPointer + 2 then machine.fail .callStackOverflow
  else
    (((machine.storeReturn machine.callPointer machine.pointer).setCallPointer
      (machine.callPointer + 2)).setPointer target, none)

/-- The effect of an operation with an operand that is given, instead of the one in memory. -/
def carryOut (machine : Machine) : Operation → Operand → Machine × Option Fault
  | .psh, .number value => (machine.push value.toInt8, none)
  | .jmp, .address target => (machine.setPointer target, none)
  | .jez, .address target => (machine.jumpToIf target (· = 0), none)
  | .jnz, .address target => (machine.jumpToIf target (· ≠ 0), none)
  | .jlz, .address target => (machine.jumpToIf target (· < 0), none)
  | .jgz, .address target => (machine.jumpToIf target (· > 0), none)
  | .jsr, .address target => machine.callTo target
  | .lod, .register index => (machine.push machine.registers[registerOf index], none)
  | .sav, .register index =>
    let value := machine.top
    let machine := machine.drop
    ({ machine with registers := machine.registers.set (registerOf index) value }, none)
  | operation, _ => machine.execute operation

/-- Executes an instruction that is shown, unless the data stack rules it out. -/
def obey (machine : Machine) (operation : Operation) (operand : Operand) :
    Machine × Option Fault :=
  if machine.depth < operation.pops then machine.begin.fail .stackUnderflow
  else if Layout.stackSize < machine.depth - operation.pops + operation.pushes then
    machine.begin.fail .stackOverflow
  else
    (machine.begin.setPointer (machine.pointer + operation.encodedLength)).carryOut operation
      operand

/-! ### Operands in memory -/

/-- The two bytes of memory behind an opcode are the given ones. -/
structure Finds (machine : Machine) (rest : List UInt8) : Prop where
  inside : machine.current < Layout.codeSize
  first : machine.operandByte 1 = rest.getD 0 0
  second : machine.operandByte 2 = rest.getD 1 0

variable {rest : List UInt8}

theorem Finds.of_same (finds : machine.Finds rest) {other : Machine}
    (current : other.current = machine.current)
    (same : ∀ cell, cell ≤ Layout.pointerLowCell →
      other.memory.read cell = machine.memory.read cell) : other.Finds rest := by
  have inside := finds.inside
  have byte {distance : Nat} (near : distance ≤ 2) :
      other.operandByte distance = machine.operandByte distance := by
    unfold operandByte
    rw [current]
    refine same _ ?_
    simp only [Layout.codeSize_eq, Layout.pointerLowCell_eq] at *
    omega
  exact ⟨current ▸ inside, (byte (by decide)).trans finds.first,
    (byte (Nat.le_refl 2)).trans finds.second⟩

theorem Finds.jump_eq (finds : machine.Finds rest) :
    machine.jump = machine.setPointer (addressOf (rest.getD 0 0) (rest.getD 1 0)) := by
  rw [jump, finds.first, finds.second]

theorem Finds.drop (finds : machine.Finds rest) : machine.drop.Finds rest := by
  refine finds.of_same rfl fun cell low => read_setDepth_other _ _ _ ?_
  simp only [Layout.pointerLowCell_eq, Layout.depthCell_eq] at *
  omega

theorem Finds.storeReturn (finds : machine.Finds rest) (used back next : Nat) :
    ((machine.storeReturn used back).setCallPointer next).Finds rest := by
  refine finds.of_same rfl fun cell low => ?_
  simp only [Layout.pointerLowCell_eq] at low
  rw [read_setCallPointer_other _ _ _ (by rw [Layout.callPointerCell_eq]; omega),
    read_storeReturn_other _ _ _ _ (by rw [Layout.callStackStart_eq]; omega)
      (by rw [Layout.callStackStart_eq]; omega)]

theorem Finds.jumpIf_eq (finds : machine.Finds rest) (test : Int8 → Bool) :
    machine.jumpIf test =
      machine.jumpToIf (addressOf (rest.getD 0 0) (rest.getD 1 0)) test := by
  rw [jumpIf, jumpToIf, finds.drop.jump_eq]

theorem Finds.call_eq (finds : machine.Finds rest) :
    machine.call = machine.callTo (addressOf (rest.getD 0 0) (rest.getD 1 0)) := by
  unfold call callTo
  rw [← (finds.storeReturn machine.callPointer machine.pointer (machine.callPointer + 2)).jump_eq]
  rfl

/-- An operation takes effect with the operand that its bytes in memory stand for. -/
theorem Finds.execute_eq (finds : machine.Finds rest) (operation : Operation) :
    machine.execute operation =
      machine.carryOut operation (Operand.ofBytes operation.operand rest) := by
  cases operation with
  | psh =>
    rw [execute, finds.first]
    rfl
  | jmp =>
    rw [execute, finds.jump_eq]
    rfl
  | jez | jnz | jlz | jgz =>
    rw [execute, finds.jumpIf_eq]
    rfl
  | jsr =>
    rw [execute, finds.call_eq]
    rfl
  | lod =>
    simp only [execute, operandRegister, finds.first]
    rfl
  | sav =>
    simp only [execute, operandRegister, finds.first]
    rfl
  | _ => rfl

/-! ### The machine at a listed instruction -/

/-- The bytes behind the opcode at `offset` as the machine reads them when its pointer has moved on
to `next`. -/
def bytesBehind (code : List UInt8) (offset next : Nat) : List UInt8 :=
  code.drop (offset + 1) ++ [highByte next, lowByte next]

/-- Inside the code region that is what a listing decodes. -/
theorem getD_bytesBehind {code : List UInt8} {offset next index : Nat}
    (inside : offset + 1 + index < code.length) :
    (bytesBehind code offset next).getD index 0 = (code.drop (offset + 1)).getD index 0 := by
  rw [bytesBehind, List.getD_eq_getElem?_getD, List.getD_eq_getElem?_getD,
    List.getElem?_append_left (by rw [List.length_drop]; omega)]

/-- In the middle of a step, where the pointer has moved on. -/
theorem Sound.operandByte_eq (sound : machine.Sound scenario)
    (inside : machine.pointer < Layout.codeSize) {distance : Nat} (near : distance ≤ 3)
    {index : Nat} (small : index < 2) :
    (machine.begin.setPointer (machine.pointer + distance)).operandByte (index + 1) =
      (bytesBehind scenario.code machine.pointer (machine.pointer + distance)).getD index 0 := by
  obtain ⟨state, shows, pointer, _⟩ := sound.exists_shows_moved inside near
  have length := sound.length_code
  rw [shows.operandByte inside (index + 1) (by omega) (by omega), ListMachine.operandByte, pointer]
  rw [show (machine.begin.setPointer (machine.pointer + distance)).current = machine.pointer from
    rfl]
  by_cases within : machine.pointer + (index + 1) < Layout.codeSize
  · rw [getD_bytesBehind (by omega), List.getD_eq_getElem?_getD, List.getElem?_drop,
      show machine.pointer + 1 + index = machine.pointer + (index + 1) by omega,
      List.getElem?_eq_getElem (by omega)]
    rfl
  · -- Behind the code region are the two cells of the pointer.
    rw [List.getElem?_eq_none (by omega), bytesBehind, List.getD_eq_getElem?_getD,
      List.getElem?_append_right (by rw [List.length_drop]; omega), List.length_drop, length]
    rw [Layout.codeSize_eq] at *
    dsimp only
    by_cases first : machine.pointer + (index + 1) = 7900
    · rw [if_pos first, show index - (7900 - (machine.pointer + 1)) = 0 by omega]
      rfl
    · rw [if_neg first, show index - (7900 - (machine.pointer + 1)) = 1 by omega]
      rfl

theorem Sound.finds (sound : machine.Sound scenario) (inside : machine.pointer < Layout.codeSize)
    {distance : Nat} (near : distance ≤ 3) :
    (machine.begin.setPointer (machine.pointer + distance)).Finds
      (bytesBehind scenario.code machine.pointer (machine.pointer + distance)) :=
  ⟨inside, sound.operandByte_eq inside near (by decide : 0 < 2),
    sound.operandByte_eq inside near (by decide : 1 < 2)⟩

theorem step_of_unknown (active : machine.status ≠ .stopped)
    (inside : machine.pointer < Layout.codeSize)
    (nonzero : machine.memory.read machine.pointer ≠ 0)
    (unknown : Operation.ofCode? (machine.memory.read machine.pointer) = none) :
    machine.step = machine.begin.fail (.unknownOpcode (machine.memory.read machine.pointer)) := by
  unfold step
  rw [if_neg active]
  dsimp only
  rw [if_neg (Nat.not_le.mpr inside), show machine.begin.memory = machine.memory from rfl,
    if_neg nonzero, unknown]

/-- An operation is executed with the operand that the machine finds behind it. -/
theorem Sound.step_eq_obey (sound : machine.Sound scenario) (starts : machine.Starts operation) :
    machine.step = machine.obey operation (Operand.ofBytes operation.operand
      (bytesBehind scenario.code machine.pointer (machine.pointer + operation.encodedLength))) := by
  rw [Machine.step_of_starts starts, perform, obey,
    (sound.finds starts.2.1 operation.encodedLength_le).execute_eq]
  rfl

/-- An operand does not depend on bytes behind the instruction. -/
theorem ofBytes_bytesBehind {code : List UInt8} {offset next : Nat} (operation : Operation)
    (inside : offset + operation.encodedLength ≤ code.length) :
    Operand.ofBytes operation.operand (bytesBehind code offset next) =
      Operand.ofBytes operation.operand (code.drop (offset + 1)) := by
  unfold Operation.encodedLength at inside
  unfold Operand.ofBytes
  cases kind : operation.operand with
  | none => rfl
  | number | register =>
    rw [kind, OperandKind.width] at inside
    dsimp only
    rw [getD_bytesBehind (by omega)]
  | label =>
    rw [kind, OperandKind.width] at inside
    dsimp only
    rw [getD_bytesBehind (by omega), getD_bytesBehind (by omega)]

/-- What a machine does that stands at a listed instruction. -/
structure Obeys (image : Image) (machine : Machine) (listed : ListedInstruction) : Prop where
  /-- What is listed as unknown is no opcode to the machine either. -/
  unknown : ∀ byte, listed.decoded = .unknown byte →
    machine.step = machine.begin.fail (.unknownOpcode byte)
  /-- The instruction is executed with the operand that is shown. -/
  whole : ∀ operation operand, listed.decoded = .instruction operation operand →
    listed.offset + operation.encodedLength ≤ Layout.codeSize →
    machine.step = machine.obey operation operand
  /-- When the end of the code region cuts the operand off, the missing bytes are those of the
  pointer to the next instruction. -/
  cutOff : ∀ operation operand, listed.decoded = .instruction operation operand →
    Layout.codeSize < listed.offset + operation.encodedLength →
    machine.step = machine.obey operation (Operand.ofBytes operation.operand
      (bytesBehind image.codeRegion listed.offset (listed.offset + operation.encodedLength)))

theorem Sound.obeys {image : Image} {feed : Feed} {seed : UInt64}
    (sound : machine.Sound (Scenario.ofRun image feed seed)) (active : machine.status ≠ .stopped)
    {listed : ListedInstruction} (member : listed ∈ Listing.ofImage image)
    (place : machine.pointer = listed.offset) : machine.Obeys image listed := by
  obtain ⟨code, fetched, nonzero, shown⟩ := Listing.fetched_of_mem member
  rw [← place] at fetched
  obtain ⟨inside, read⟩ := sound.read_of_fetched fetched
  unfold Decoded.ofBytes at shown
  cases found : Operation.ofCode? code with
  | none =>
    rw [found] at shown
    refine ⟨fun byte same => ?_, fun operation operand same => ?_,
      fun operation operand same => ?_⟩
    · obtain rfl := Decoded.unknown.inj (shown.symm.trans same)
      rw [step_of_unknown active inside (read ▸ nonzero) (read ▸ found), read]
    · exact nomatch shown.symm.trans same
    · exact nomatch shown.symm.trans same
  | some named =>
    rw [found] at shown
    have starts : machine.Starts named := ⟨active, inside, read ▸ found⟩
    have stepped := sound.step_eq_obey starts
    rw [place] at stepped
    refine ⟨fun byte same => ?_, fun operation operand same fits => ?_,
      fun operation operand same _ => ?_⟩
    · exact nomatch shown.symm.trans same
    · obtain ⟨rfl, rfl⟩ := Decoded.instruction.inj (shown.symm.trans same)
      rw [stepped, ofBytes_bytesBehind _ (sound.length_code ▸ fits)]
      rfl
    · obtain ⟨rfl, rfl⟩ := Decoded.instruction.inj (shown.symm.trans same)
      exact stepped

/-- The machine executes what a listing of its image shows, wherever the whole instruction lies in
the code region. -/
theorem obeys_of_listed {image : Image} {feed : Feed} (reached : Reached image feed machine)
    (active : machine.status ≠ .stopped) {listed : ListedInstruction}
    (member : listed ∈ Listing.ofImage image) (place : machine.pointer = listed.offset) :
    machine.Obeys image listed := by
  obtain ⟨seed, sound⟩ := reached.exists_sound
  exact sound.obeys active member place

end Machine

/-! ### An operand that is cut off -/

namespace Listing

/-- A jump to the last byte of the code region, where the opcode of a push stands alone. -/
def cutOffCode : List UInt8 :=
  [Operation.jmp.code, 30, 219] ++ (List.replicate 7896 Operation.hlt.code ++
    [Operation.psh.code])

theorem length_cutOffCode : cutOffCode.length = Layout.codeSize := by
  rw [cutOffCode, List.length_append, List.length_append, List.length_replicate]
  rfl

/-- Behind any number of halts the push is listed, with zero for its operand. -/
theorem mem_ofBytes_replicate (count offset : Nat) :
    ⟨offset + count, .instruction .psh (.number 0)⟩ ∈
      ofBytes offset (List.replicate count Operation.hlt.code ++ [Operation.psh.code]) := by
  induction count generalizing offset with
  | zero =>
    rw [List.replicate_zero, List.nil_append, ofBytes, if_neg (by decide)]
    exact List.mem_cons_self
  | succ count inductionHypothesis =>
    rw [List.replicate_succ, List.cons_append, ofBytes, if_neg (by decide)]
    refine List.mem_cons_of_mem _ ?_
    have later := inductionHypothesis (offset + 1)
    rw [Nat.add_right_comm] at later
    exact later

theorem ofBytes_cutOffCode :
    ofBytes 0 cutOffCode = ⟨0, .instruction .jmp (.address 7899)⟩ ::
      ofBytes 3 (List.replicate 7896 Operation.hlt.code ++ [Operation.psh.code]) := by
  rw [cutOffCode, List.cons_append, ofBytes, if_neg (by decide)]
  rfl

theorem jump_mem_cutOffCode : ⟨0, .instruction .jmp (.address 7899)⟩ ∈ ofBytes 0 cutOffCode := by
  rw [ofBytes_cutOffCode]
  exact List.mem_cons_self

theorem push_mem_cutOffCode :
    ⟨7899, .instruction .psh (.number 0)⟩ ∈ ofBytes 0 cutOffCode := by
  rw [ofBytes_cutOffCode]
  exact List.mem_cons_of_mem _ (mem_ofBytes_replicate 7896 3)

end Listing

namespace Machine

variable {machine : Machine}

/-- Behind the last opcode there is nothing but the pointer. -/
theorem bytesBehind_cutOffCode : bytesBehind Listing.cutOffCode 7899 7901 = [30, 221] := by
  have length : Listing.cutOffCode.length = 7900 := Listing.length_cutOffCode
  rw [bytesBehind, List.drop_eq_nil_of_le (Nat.le_of_eq length)]
  decide

/-- A listed jump goes where it is shown to go. -/
theorem obey_jmp (bound : machine.depth ≤ Layout.stackSize) (target : Nat) :
    machine.obey .jmp (.address target) =
      ((machine.begin.setPointer (machine.pointer + 3)).setPointer target, none) := by
  rw [obey, show Operation.jmp.pops = 0 from rfl, show Operation.jmp.pushes = 0 from rfl,
    if_neg (Nat.not_lt_zero _),
    if_neg (Nat.not_lt.mpr (show machine.depth - 0 + 0 ≤ Layout.stackSize from bound))]
  rfl

/-- An immediate is pushed as it is shown. -/
theorem stack_obey_psh (room : machine.depth < Layout.stackSize) (value : UInt8) :
    (machine.obey .psh (.number value)).1.stack = machine.stack ++ [value.toInt8] := by
  rw [obey, show Operation.psh.pops = 0 from rfl, show Operation.psh.pushes = 1 from rfl,
    if_neg (Nat.not_lt_zero _),
    if_neg (Nat.not_lt.mpr (show machine.depth - 0 + 1 ≤ Layout.stackSize from room))]
  exact (stack_push (machine.begin.setPointer _) _ room).trans
    (congrArg (· ++ [value.toInt8]) (stack_setPointer machine.begin _ (Nat.le_of_lt room)))

/-- A jump that is listed in the program above is executed as shown. -/
theorem obeys_of_listed_jump :
    ∃ image : Image, image.codeRegion = Listing.cutOffCode ∧
      (start image ⟨[], none, []⟩ 0).step =
        (start image ⟨[], none, []⟩ 0).obey .jmp (.address 7899) := by
  obtain ⟨image, region⟩ := Image.exists_codeRegion_eq Listing.length_cutOffCode
  have origin := pointer_start image ⟨[], none, []⟩ 0
  have member : ⟨0, .instruction .jmp (.address 7899)⟩ ∈ Listing.ofImage image := by
    rw [Listing.ofImage, region]
    exact Listing.jump_mem_cutOffCode
  have obeys := obeys_of_listed (.start image ⟨[], none, []⟩ 0) nofun member origin
  exact ⟨image, region, obeys.whole .jmp (.address 7899) rfl (by decide)⟩

/-- The push at the end of the program above is listed with zero for its operand, but it pushes the
high byte of the pointer to the next instruction. -/
theorem cutOff_not_obeyed :
    ∃ image machine, image.codeRegion = Listing.cutOffCode ∧
      machine = (start image ⟨[], none, []⟩ 0).step.1 ∧ machine.status ≠ .stopped ∧
      machine.pointer = 7899 ∧
      ⟨7899, .instruction .psh (.number 0)⟩ ∈ Listing.ofImage image ∧
      machine.step.1.stack = [30] ∧ (machine.obey .psh (.number 0)).1.stack = [0] := by
  obtain ⟨image, region⟩ := Image.exists_codeRegion_eq Listing.length_cutOffCode
  have begun := shows_start image ⟨[], none, []⟩ 0
  have origin := pointer_start image ⟨[], none, []⟩ 0
  have jump : ⟨0, .instruction .jmp (.address 7899)⟩ ∈ Listing.ofImage image := by
    rw [Listing.ofImage, region]
    exact Listing.jump_mem_cutOffCode
  have push : ⟨7899, .instruction .psh (.number 0)⟩ ∈ Listing.ofImage image := by
    rw [Listing.ofImage, region]
    exact Listing.push_mem_cutOffCode
  have jumped := (begun.sound.obeys nofun jump origin).whole .jmp (.address 7899) rfl (by decide)
  rw [obey_jmp begun.sound.depth_le, origin] at jumped
  have sound := begun.step.sound
  rw [jumped] at sound
  have place := pointer_setPointer ((start image ⟨[], none, []⟩ 0).begin.setPointer 3) 7899
    (by decide)
  have stepped := (sound.obeys nofun push place).cutOff .psh (.number 0) rfl (by decide)
  have empty : Machine.stack (((start image ⟨[], none, []⟩ 0).begin.setPointer 3).setPointer
      7899) = [] := List.eq_nil_of_length_eq_zero (length_stack _ sound.depth_le)
  rw [region, show 7899 + Operation.psh.encodedLength = 7901 from rfl, bytesBehind_cutOffCode]
    at stepped
  refine ⟨image, _, region, congrArg Prod.fst jumped.symm, nofun, place, push, ?_, ?_⟩
  · rw [stepped]
    refine (stack_obey_psh (Nat.zero_lt_succ 255) 30).trans ?_
    rw [empty]
    decide
  · refine (stack_obey_psh (Nat.zero_lt_succ 255) 0).trans ?_
    rw [empty]
    decide

end Machine

end ByteStack
