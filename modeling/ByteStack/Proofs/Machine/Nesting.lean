/-
This file shows that calls and returns nest. The depth of the call stack is the
number of calls that have been executed less the number of returns, and a return
goes back to where the latest call that is still open came from.

A move from outside does one of three things to the return addresses: a call puts
the place behind itself on top, a return takes the top off and goes there, and
everything else leaves them alone. So the addresses below a call stay where they
are until its own return address is taken off, which happens when the depth is for
the first time again what it was before the call.
-/

import ByteStack.Proofs.Machine.Reached

namespace ByteStack

/-! ### Moves -/

/-- What driving a machine is made of. A run takes steps and resumptions, and is at most once
stopped because its budget is used up. -/
inductive Move where
  | step
  | pause
  | resume
  | spend (limit : Nat)
deriving DecidableEq

def Move.make (machine : Machine) : Move → Machine
  | .step => machine.step.1
  | .pause => machine.pause
  | .resume => machine.resume
  | .spend limit => (machine.spend limit).1

namespace Machine

/-- The machine after some moves. -/
def after (machine : Machine) : List Move → Machine
  | [] => machine
  | move :: rest => (move.make machine).after rest

/-- The next step comes to this operation. -/
def Starts (machine : Machine) (operation : Operation) : Prop :=
  machine.status ≠ .stopped ∧ machine.pointer < Layout.codeSize ∧
    Operation.ofCode? (machine.memory.read machine.pointer) = some operation

/-- The next step executes this operation, without a fault. -/
def Performs (machine : Machine) (operation : Operation) : Prop :=
  machine.Starts operation ∧ machine.step.2 = none

instance (machine : Machine) (operation : Operation) : Decidable (machine.Performs operation) :=
  inferInstanceAs (Decidable ((_ ∧ _ ∧ _) ∧ _))

/-- How often some moves execute an operation. -/
def executions (operation : Operation) : List Move → Machine → Nat
  | [], _ => 0
  | move :: rest, machine =>
    (if move = .step ∧ machine.Performs operation then 1 else 0) +
      executions operation rest (move.make machine)

/-- How many calls have not returned. -/
def callDepth (machine : Machine) : Nat :=
  machine.callPointer / 2

/-! ### Moves one after the other -/

theorem after_append (machine : Machine) (first second : List Move) :
    machine.after (first ++ second) = (machine.after first).after second := by
  induction first generalizing machine with
  | nil => rfl
  | cons move rest inductionHypothesis => exact inductionHypothesis (move.make machine)

theorem Kept.move {property : Machine → Prop} (kept : Kept property) {machine : Machine}
    (holds : property machine) (move : Move) : property (move.make machine) := by
  cases move with
  | step => exact kept.step machine holds
  | pause => exact kept.pause machine holds
  | resume => exact kept.resume machine holds
  | spend limit => exact kept.spend machine limit holds

theorem Kept.after {property : Machine → Prop} (kept : Kept property) {machine : Machine}
    (holds : property machine) (moves : List Move) : property (machine.after moves) := by
  induction moves generalizing machine with
  | nil => exact holds
  | cons move rest inductionHypothesis => exact inductionHypothesis (kept.move holds move)

/-- Whatever is done to a machine is a sequence of moves. -/
theorem exists_moves {origin machine : Machine} {fault? : Option Fault}
    (session : Session origin machine fault?) : ∃ moves, machine = origin.after moves := by
  have further (move : Move) (machine : Machine) (made : ∃ moves, machine = origin.after moves) :
      ∃ moves, move.make machine = origin.after moves := by
    obtain ⟨moves, rfl⟩ := made
    exact ⟨moves ++ [move], (after_append origin moves [move]).symm⟩
  have kept : Kept fun machine => ∃ moves, machine = origin.after moves :=
    ⟨further .step, further .pause, further .resume,
      fun machine limit => further (.spend limit) machine⟩
  exact (kept.session session ⟨[], rfl⟩).1

end Machine

/-! ### Operations that do not call or return -/

namespace ListMachine

variable {scenario : Scenario} {offset : Nat}

theorem calls_halt (state : ListMachine) : (state.halt scenario offset).calls = state.calls := by
  unfold halt
  dsimp only
  split
  · rfl
  · split <;> rfl

theorem calls_emit (state : ListMachine) (value : Int8) :
    (state.emit scenario offset value).calls = state.calls := by
  unfold emit
  dsimp only
  split <;> rfl

theorem calls_execute (state : ListMachine) {operation : Operation} (noCall : operation ≠ .jsr)
    (noReturn : operation ≠ .ret) :
    (state.execute scenario offset operation).calls = state.calls := by
  cases operation with
  | jsr => exact absurd rfl noCall
  | ret => exact absurd rfl noReturn
  | inp =>
    unfold execute
    dsimp only
    split
    · exact calls_halt _
    · rfl
  | out =>
    cases shape : state.stack with
    | nil => simp only [execute, shape]
    | cons value rest =>
      simp only [execute, shape]
      exact calls_emit _ value
  | hlt => exact calls_halt _
  | jez | jnz | jlz | jgz =>
    cases shape : state.stack with
    | nil => simp only [execute, shape]
    | cons value rest =>
      simp only [execute, shape]
      split <;> rfl
  | _ =>
    -- The other operations look at three values at most.
    rcases shape : state.stack with _ | ⟨upper, _ | ⟨middle, _ | ⟨lower, rest⟩⟩⟩ <;>
      simp only [execute, shape] <;> rfl

theorem calls_perform (state : ListMachine) {operation : Operation} (noCall : operation ≠ .jsr)
    (noReturn : operation ≠ .ret) :
    (state.perform scenario offset operation).calls = state.calls := by
  unfold perform
  dsimp only
  split
  · rfl
  · split
    · rfl
    · exact calls_execute _ noCall noReturn

end ListMachine

namespace Machine

variable {scenario : Scenario} {machine : Machine}

/-! ### Calls and returns in a step -/

theorem step_of_starts {operation : Operation} (starts : machine.Starts operation) :
    machine.step = machine.begin.perform machine.pointer operation := by
  obtain ⟨active, inside, found⟩ := starts
  have nonzero : machine.memory.read machine.pointer ≠ 0 := by
    rw [← Operation.code_of_ofCode? found]
    exact operation.code_ne_zero
  unfold step
  rw [if_neg active]
  dsimp only
  rw [if_neg (Nat.not_le.mpr inside), show machine.begin.memory = machine.memory from rfl,
    if_neg nonzero, found]

/-- An operation that takes nothing from the data stack and puts nothing on it takes effect. -/
theorem Sound.step_of_starts (sound : machine.Sound scenario) {operation : Operation}
    (starts : machine.Starts operation) (pops : operation.pops = 0)
    (pushes : operation.pushes = 0) :
    machine.step =
      (machine.begin.setPointer (machine.pointer + operation.encodedLength)).execute
        operation := by
  have bound : machine.begin.depth - 0 + 0 ≤ Layout.stackSize := sound.depth_le
  rw [Machine.step_of_starts starts, perform, pops, pushes, if_neg (Nat.not_lt_zero _),
    if_neg (Nat.not_lt.mpr bound)]

theorem Sound.callDepth_eq (sound : machine.Sound scenario) :
    2 * machine.callDepth = machine.callPointer := by
  rw [← sound.length_calls, Machine.length_calls]
  rfl

/-- A call fails exactly when the call stack is full. -/
theorem Sound.fault_of_call (sound : machine.Sound scenario) (starts : machine.Starts .jsr) :
    machine.step.2 =
      if machine.callDepth = 16 then some ⟨.callStackOverflow, machine.pointer⟩ else none := by
  have used := sound.callDepth_eq
  have bound := sound.callPointer_le
  rw [sound.step_of_starts starts rfl rfl, execute, call, callPointer_setPointer,
    show machine.begin.callPointer = machine.callPointer from rfl]
  dsimp only
  rw [Layout.callStackSize_eq] at bound
  by_cases full : machine.callDepth = 16
  · rw [if_pos full, if_pos (by rw [Layout.callStackSize_eq]; omega)]
    rfl
  · rw [if_neg full, if_neg (by rw [Layout.callStackSize_eq]; omega)]

/-- A return fails exactly when no call is open. -/
theorem Sound.fault_of_return (sound : machine.Sound scenario) (starts : machine.Starts .ret) :
    machine.step.2 =
      if machine.callDepth = 0 then some ⟨.callStackUnderflow, machine.pointer⟩ else none := by
  have used := sound.callDepth_eq
  rw [sound.step_of_starts starts rfl rfl, execute, giveBack, callPointer_setPointer,
    show machine.begin.callPointer = machine.callPointer from rfl]
  dsimp only
  by_cases empty : machine.callDepth = 0
  · rw [if_pos empty, if_pos (by omega)]
    rfl
  · rw [if_neg empty, if_neg (by omega)]

/-- What a move does to the return addresses. -/
inductive Nests (move : Move) (machine next : Machine) : Prop where
  | call (step : move = .step) (performs : machine.Performs .jsr)
      (calls : next.calls = (machine.pointer + 3) :: machine.calls)
  | giveBack (step : move = .step) (performs : machine.Performs .ret)
      (calls : machine.calls = next.pointer :: next.calls)
  | keep (noCall : ¬(move = .step ∧ machine.Performs .jsr))
      (noReturn : ¬(move = .step ∧ machine.Performs .ret)) (calls : next.calls = machine.calls)

/-- The operation is found in the code region, which never changes. -/
theorem Shows.starts {state : ListMachine} (shows : Shows scenario machine state)
    (active : state.status ≠ .stopped) {operation : Operation}
    (fetched : scenario.code[state.pointer]? = some operation.code) :
    machine.Starts operation := by
  obtain ⟨sound, rfl⟩ := shows
  obtain ⟨inside, read⟩ := sound.read_of_fetched fetched
  have read : machine.memory.read machine.pointer = operation.code := read
  refine ⟨active, inside, ?_⟩
  rw [read, Operation.ofCode?_code]

theorem Starts.unique {first second : Operation} (one : machine.Starts first)
    (other : machine.Starts second) : first = second :=
  Option.some.inj (one.2.2.symm.trans other.2.2)

theorem Performs.not_other {first second : Operation} (performs : machine.Performs first)
    (different : first ≠ second) : ¬machine.Performs second :=
  fun other => different (performs.1.unique other.1)

/-- A step that fails executes nothing. -/
theorem Nests.of_fault {fault : Fault} {next : Machine} (failed : machine.step.2 = some fault)
    (calls : next.calls = machine.calls) : Nests .step machine next :=
  .keep (fun called => nomatch failed.symm.trans called.2.2)
    (fun returned => nomatch failed.symm.trans returned.2.2) calls

/-- The relation holds in the middle of a step, where a call or a return takes effect. -/
theorem Sound.exists_shows_moved (sound : machine.Sound scenario)
    (inside : machine.pointer < Layout.codeSize) {distance : Nat} (near : distance ≤ 3) :
    ∃ state, Shows scenario (machine.begin.setPointer (machine.pointer + distance)) state ∧
      state.pointer = machine.pointer + distance ∧ state.calls = machine.calls := by
  have small : machine.pointer + distance < 65536 := by
    rw [Layout.codeSize_eq] at inside
    omega
  have begun := Shows.begin ⟨sound, rfl⟩
  exact ⟨_, begun.setPointer _ small, rfl, rfl⟩

theorem length_calls_eq_callDepth (machine : Machine) : machine.calls.length = machine.callDepth :=
  machine.length_calls

theorem Sound.nests_call (sound : machine.Sound scenario) (starts : machine.Starts .jsr) :
    Nests .step machine machine.step.1 := by
  have fault := sound.fault_of_call starts
  have stepped : machine.step = (machine.begin.setPointer (machine.pointer + 3)).call :=
    sound.step_of_starts starts rfl rfl
  obtain ⟨state, shows, pointer, same⟩ := sound.exists_shows_moved starts.2.1 (Nat.le_refl 3)
  have after := shows.call starts.2.1
  rw [← stepped, same, length_calls_eq_callDepth, pointer] at after
  have bound := sound.callPointer_le
  rw [← sound.callDepth_eq, Layout.callStackSize_eq] at bound
  by_cases full : machine.callDepth = 16
  · rw [if_pos full] at fault
    rw [full, if_neg (by decide)] at after
    exact .of_fault fault (after.calls_eq.trans same)
  · rw [if_neg full] at fault
    have room : machine.callDepth < ListMachine.callCapacity := by
      rw [show ListMachine.callCapacity = 16 from rfl]
      omega
    rw [if_pos room] at after
    exact .call rfl ⟨starts, fault⟩ after.calls_eq

theorem Sound.nests_return (sound : machine.Sound scenario) (starts : machine.Starts .ret) :
    Nests .step machine machine.step.1 := by
  have fault := sound.fault_of_return starts
  have stepped : machine.step = (machine.begin.setPointer (machine.pointer + 1)).giveBack :=
    sound.step_of_starts starts rfl rfl
  obtain ⟨state, shows, _, same⟩ := sound.exists_shows_moved starts.2.1 (by decide : 1 ≤ 3)
  have after := shows.giveBack
  rw [← stepped, same] at after
  rw [← length_calls_eq_callDepth] at fault
  cases shape : machine.calls with
  | nil =>
    rw [shape] at after fault
    exact .of_fault fault (after.calls_eq.trans same)
  | cons back rest =>
    rw [shape] at after fault
    have pointer : machine.step.1.pointer = back := after.pointer_eq
    have calls : machine.step.1.calls = rest := after.calls_eq
    exact .giveBack rfl ⟨starts, fault⟩ (by rw [pointer, calls, shape])

theorem Sound.nests_other (sound : machine.Sound scenario) {operation : Operation}
    (starts : machine.Starts operation) (noCall : operation ≠ .jsr)
    (noReturn : operation ≠ .ret) : Nests .step machine machine.step.1 := by
  have begun := Shows.begin ⟨sound, rfl⟩
  have performed : Shows scenario (machine.begin.perform machine.pointer operation).1 _ :=
    begun.perform starts.1 starts.2.1 operation
  rw [← Machine.step_of_starts starts] at performed
  have calls := performed.calls_eq
  exact .keep (fun called => noCall (starts.unique called.2.1))
    (fun returned => noReturn (starts.unique returned.2.1))
    (calls.trans (ListMachine.calls_perform _ noCall noReturn))

/-- A step that comes to no operation ends the program or fails. -/
theorem Sound.calls_step_of_idle (sound : machine.Sound scenario)
    (idle : ∀ operation, ¬machine.Starts operation) : machine.step.1.calls = machine.calls := by
  unfold step
  split
  · rfl
  · next active =>
    dsimp only
    split
    · rfl
    · next inside =>
      split
      · have halted := (Shows.begin ⟨sound, rfl⟩).halt
        exact halted.calls_eq.trans (ListMachine.calls_halt _)
      · split
        · rfl
        · next operation found =>
          exact absurd ⟨active, Nat.lt_of_not_le inside, found⟩ (idle operation)

theorem Sound.nests_step (sound : machine.Sound scenario) :
    Nests .step machine machine.step.1 := by
  by_cases busy : ∃ operation, machine.Starts operation
  · obtain ⟨operation, starts⟩ := busy
    by_cases called : operation = .jsr
    · subst called
      exact sound.nests_call starts
    by_cases returned : operation = .ret
    · subst returned
      exact sound.nests_return starts
    exact sound.nests_other starts called returned
  · have idle := not_exists.mp busy
    exact .keep (fun called => idle _ called.2.1) (fun returned => idle _ returned.2.1)
      (sound.calls_step_of_idle idle)

theorem Sound.nests (sound : machine.Sound scenario) (move : Move) :
    Nests move machine (move.make machine) := by
  have calls_pause : machine.pause.calls = machine.calls := by
    unfold pause
    split <;> rfl
  have calls_resume : machine.resume.calls = machine.calls := by
    unfold resume
    split <;> rfl
  cases move with
  | step => exact sound.nests_step
  | pause => exact .keep (fun called => nomatch called.1) (fun back => nomatch back.1) calls_pause
  | resume => exact .keep (fun called => nomatch called.1) (fun back => nomatch back.1) calls_resume
  | spend limit => exact .keep (fun called => nomatch called.1) (fun back => nomatch back.1) rfl

/-! ### The depth of the call stack -/

variable {move : Move} {next : Machine}

theorem Nests.callDepth_eq (nests : Nests move machine next) :
    next.callDepth + (if move = .step ∧ machine.Performs .ret then 1 else 0) =
      machine.callDepth + (if move = .step ∧ machine.Performs .jsr then 1 else 0) := by
  rw [← length_calls_eq_callDepth, ← length_calls_eq_callDepth]
  cases nests with
  | call step performs calls =>
    have noReturn := performs.not_other (by decide : Operation.jsr ≠ .ret)
    rw [if_neg fun both => noReturn both.2, if_pos ⟨step, performs⟩, calls, List.length_cons]
  | giveBack step performs calls =>
    have noCall := performs.not_other (by decide : Operation.ret ≠ .jsr)
    rw [if_pos ⟨step, performs⟩, if_neg fun both => noCall both.2, calls, List.length_cons]
  | keep noCall noReturn calls => rw [if_neg noReturn, if_neg noCall, calls]

theorem Nests.calls_of_performs (nests : Nests .step machine next)
    (performs : machine.Performs .jsr) : next.calls = (machine.pointer + 3) :: machine.calls := by
  cases nests with
  | call step performs calls => exact calls
  | giveBack step returns calls => exact absurd returns (performs.not_other (by decide))
  | keep noCall noReturn calls => exact absurd ⟨rfl, performs⟩ noCall

/-- Over any moves, calls make the call stack deeper and returns make it shallower. -/
theorem Sound.callDepth_after (sound : machine.Sound scenario) (moves : List Move) :
    (machine.after moves).callDepth + executions .ret moves machine =
      machine.callDepth + executions .jsr moves machine := by
  induction moves generalizing machine with
  | nil => rfl
  | cons move rest inductionHypothesis =>
    have first := (sound.nests move).callDepth_eq
    have later := inductionHypothesis (kept_sound.move sound move)
    rw [after, executions, executions]
    omega

/-! ### Matching returns -/

/-- The addresses from an open call downward stay as they are, or that very call is the one that
returns. -/
theorem Nests.suffix (nests : Nests move machine next) {back : Nat} {below : List Nat}
    (isOpen : back :: below <:+ machine.calls) :
    back :: below <:+ next.calls ∨
      next.calls = below ∧ move = .step ∧ machine.Performs .ret ∧ next.pointer = back := by
  cases nests with
  | call step performs calls =>
    rw [calls]
    exact Or.inl (isOpen.trans (List.suffix_cons _ _))
  | giveBack step performs calls =>
    rw [calls] at isOpen
    rcases List.suffix_cons_iff.mp isOpen with whole | later
    · obtain ⟨address, rest⟩ := List.cons.inj whole
      exact Or.inr ⟨rest.symm, step, performs, address.symm⟩
    · exact Or.inl later
  | keep noCall noReturn calls =>
    rw [calls]
    exact Or.inl isOpen

/-- A call is open as long as the depth has not come back to what it was before. -/
theorem Sound.suffix_after (sound : machine.Sound scenario) {back : Nat} {below : List Nat}
    (isOpen : back :: below <:+ machine.calls) {moves : List Move}
    (deeper : ∀ part, part <+: moves → (machine.after part).callDepth ≠ below.length) :
    back :: below <:+ (machine.after moves).calls := by
  induction moves generalizing machine with
  | nil => exact isOpen
  | cons move rest inductionHypothesis =>
    rcases (sound.nests move).suffix isOpen with still | ⟨closed, _⟩
    · exact inductionHypothesis (kept_sound.move sound move) still fun part front =>
        deeper (move :: part) (List.cons_prefix_cons.mpr ⟨rfl, front⟩)
    · have depth := deeper [move] (List.cons_prefix_cons.mpr ⟨rfl, List.nil_prefix⟩)
      refine absurd ?_ depth
      rw [← length_calls_eq_callDepth, ← closed]
      rfl

/-- The first move that brings the depth back is the return from the call. -/
theorem Sound.returns_of_first (sound : machine.Sound scenario) {back : Nat} {below : List Nat}
    (isOpen : back :: below <:+ machine.calls) {between : List Move} {last : Move}
    (deeper : ∀ part, part <+: between → (machine.after part).callDepth ≠ below.length)
    (level : (last.make (machine.after between)).callDepth = below.length) :
    last = .step ∧ (machine.after between).Performs .ret ∧
      (last.make (machine.after between)).pointer = back := by
  have still := sound.suffix_after isOpen deeper
  rcases ((kept_sound.after sound between).nests last).suffix still with deep | ⟨_, returns⟩
  · have length := deep.length_le
    rw [length_calls_eq_callDepth, level, List.length_cons] at length
    exact absurd length (Nat.not_succ_le_self _)
  · exact returns

end Machine

/-! ### Runs from the start -/

/-- How calls and returns match when a machine is driven by some moves. -/
structure CallsMatch (origin : Machine) (moves : List Move) : Prop where
  /-- The depth is the number of calls less the number of returns. -/
  balance : (origin.after moves).callDepth + Machine.executions .ret moves origin =
    Machine.executions .jsr moves origin
  bound : (origin.after moves).callDepth ≤ 16
  /-- A call fails at the greatest depth, and only there. -/
  call : (origin.after moves).Starts .jsr → (origin.after moves).step.2 =
    if (origin.after moves).callDepth = 16 then
      some ⟨.callStackOverflow, (origin.after moves).pointer⟩
    else none
  /-- A return fails when no call is open, and only then. -/
  giveBack : (origin.after moves).Starts .ret → (origin.after moves).step.2 =
    if (origin.after moves).callDepth = 0 then
      some ⟨.callStackUnderflow, (origin.after moves).pointer⟩
    else none
  /-- When a call has been executed, the first later move after which the depth is again what it
  was before is a return, and goes to the place behind the call. -/
  lifo : (origin.after moves).Performs .jsr → ∀ between last,
    (∀ part, part <+: between →
      (origin.after (moves ++ .step :: part)).callDepth ≠ (origin.after moves).callDepth) →
    (origin.after (moves ++ .step :: between ++ [last])).callDepth =
      (origin.after moves).callDepth →
    last = .step ∧ (origin.after (moves ++ .step :: between)).Performs .ret ∧
      (origin.after (moves ++ .step :: between ++ [last])).pointer =
        (origin.after moves).pointer + 3

/-- Calls and returns match, the latest call first, in every run from the start: after any moves,
and everything that can be done to a machine is made of moves. -/
theorem calls_match (image : Image) (feed : Feed) (seed : UInt64) :
    (∀ moves, CallsMatch (Machine.start image feed seed) moves) ∧
      ∀ machine fault?, Session (Machine.start image feed seed) machine fault? →
        ∃ moves, machine = (Machine.start image feed seed).after moves := by
  have start := Machine.shows_start image feed seed
  refine ⟨fun moves => ?_, fun machine fault? => Machine.exists_moves⟩
  have sound := Machine.kept_sound.after start.sound moves
  have later (part : List Move) : (Machine.start image feed seed).after (moves ++ .step :: part) =
      ((Machine.start image feed seed).after moves).step.1.after part :=
    Machine.after_append _ _ _
  refine ⟨?_, ?_, sound.fault_of_call, sound.fault_of_return, ?_⟩
  · have none : (Machine.start image feed seed).callDepth = 0 := by
      rw [← Machine.length_calls_eq_callDepth]
      exact congrArg (fun state => state.calls.length) start.view_eq
    rw [start.sound.callDepth_after, none, Nat.zero_add]
  · have bound := sound.callPointer_le
    rw [← sound.callDepth_eq, Layout.callStackSize_eq] at bound
    omega
  · intro performs between last deeper level
    have calls := sound.nests_step.calls_of_performs performs
    have first := Machine.kept_sound.step _ sound
    rw [Machine.after_append _ (moves ++ .step :: between) [last], later] at level ⊢
    have isOpen : (((Machine.start image feed seed).after moves).pointer + 3) ::
        ((Machine.start image feed seed).after moves).calls <:+
          ((Machine.start image feed seed).after moves).step.1.calls :=
      ⟨[], calls.symm⟩
    refine first.returns_of_first isOpen (fun part front => ?_) ?_
    · rw [← later, Machine.length_calls_eq_callDepth]
      exact deeper part front
    · rw [Machine.length_calls_eq_callDepth]
      exact level

/-- A program that calls a subroutine, which returns at once. -/
theorem calls_match_once :
    ∃ image : Image,
      (Machine.start image ⟨[], none, []⟩ 0).Performs .jsr ∧
      ((Machine.start image ⟨[], none, []⟩ 0).after [.step]).Performs .ret ∧
      ((Machine.start image ⟨[], none, []⟩ 0).after [.step, .step]).pointer = 3 := by
  obtain ⟨image, code⟩ := Image.exists_program
    [Operation.jsr.code, 0, 4, 0, Operation.ret.code] (by decide)
  have start := Machine.shows_start_of_codeRegion code ⟨[], none, []⟩ 0
  have whole := (calls_match image ⟨[], none, []⟩ 0).1 []
  refine ⟨image, ?_⟩
  generalize Machine.start image ⟨[], none, []⟩ 0 = machine at start whole ⊢
  have inside := start.step
  change Machine.Shows _ _ { ListMachine.start ⟨[], none, []⟩ with
    pointer := addressOf 0 4, calls := [3], cycles := 1 } at inside
  rw [show addressOf 0 4 = 4 from rfl] at inside
  have outer : machine.callDepth = 0 := by
    rw [← Machine.length_calls_eq_callDepth]
    exact congrArg (fun state => state.calls.length) start.view_eq
  have inner : machine.step.1.callDepth = 1 := by
    rw [← Machine.length_calls_eq_callDepth]
    exact congrArg (fun state => state.calls.length) inside.view_eq
  have calls : machine.Performs .jsr := by
    have starts := start.starts nofun rfl
    exact ⟨starts, by rw [start.sound.fault_of_call starts, outer]; rfl⟩
  have returns : machine.step.1.Performs .ret := by
    have starts := inside.starts nofun rfl
    exact ⟨starts, by rw [inside.sound.fault_of_return starts, inner]; rfl⟩
  have level : (machine.after [.step, .step]).callDepth = machine.callDepth := by
    have closed := (inside.sound.nests .step).callDepth_eq
    have noCall := returns.not_other (by decide : Operation.ret ≠ .jsr)
    rw [inner, if_pos ⟨rfl, returns⟩, if_neg fun both => noCall both.2] at closed
    rw [outer]
    exact Nat.succ.inj closed
  have deeper (part : List Move) (front : part <+: []) :
      (machine.after (.step :: part)).callDepth ≠ machine.callDepth := by
    obtain rfl := List.prefix_nil.mp front
    rw [outer]
    exact fun same => nomatch inner.symm.trans same
  have origin : machine.pointer = 0 := start.pointer_eq
  have matching := whole.lifo calls [] .step deeper level
  exact ⟨calls, matching.2.1, matching.2.2.trans (congrArg (· + 3) origin)⟩

end ByteStack
