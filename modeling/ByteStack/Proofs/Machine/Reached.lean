/-
This file is about every machine that can come to be. A machine is loaded, then
driven from outside, and may at any moment be loaded again with another image.
Loading leaves nothing of what was before, so each such machine stands in a
session that began with the image that was loaded last.

What the lists of a machine keep through steps and pauses is therefore kept
everywhere, and with it the invariant that ties the lists to memory.
-/

import ByteStack.Proofs.Machine.Refinement
import ByteStack.Proofs.Machine.Session

namespace ByteStack

/-- Machines that were loaded once or several times and driven in between, with the image and the
feed that were loaded last. Random bytes may come from a new seed with each loading. -/
inductive Reached : Image → Feed → Machine → Prop where
  | start (image : Image) (feed : Feed) (seed : UInt64) :
      Reached image feed (Machine.start image feed seed)
  | call {image : Image} {feed : Feed} {machine next : Machine} {fault? : Option Fault}
      (call : Call) (fuel : Nat) (before : Reached image feed machine)
      (made : call.make fuel machine = some (next, fault?)) : Reached image feed next
  | load {earlier : Image} {fed : Feed} {machine : Machine} (image : Image) (feed : Feed)
      (seed : UInt64) (before : Reached earlier fed machine) :
      Reached image feed ({ machine with seed := seed }.load image feed)

variable {image : Image} {feed : Feed} {machine : Machine} {scenario : Scenario}

/-- Loading leaves nothing of the machine but its seed. -/
theorem Machine.load_eq_start (machine : Machine) (image : Image) (feed : Feed) :
    machine.load image feed = start image feed machine.seed := rfl

theorem Reached.step (reached : Reached image feed machine) :
    Reached image feed machine.step.1 :=
  .call .step 0 reached rfl

theorem Reached.steps (reached : Reached image feed machine) (count : Nat) :
    Reached image feed (machine.steps count) := by
  induction count generalizing machine with
  | zero => exact reached
  | succ count inductionHypothesis => exact inductionHypothesis reached.step

/-- Every machine stands in a session that began when its image was loaded. -/
theorem Reached.exists_session (reached : Reached image feed machine) :
    ∃ seed reported?, Session (Machine.start image feed seed) machine reported? := by
  induction reached with
  | start image feed seed => exact ⟨seed, none, .start⟩
  | call call fuel before made inductionHypothesis =>
    obtain ⟨seed, reported?, session⟩ := inductionHypothesis
    exact ⟨seed, _, .call call fuel session made⟩
  | load image feed seed before inductionHypothesis =>
    rw [Machine.load_eq_start]
    exact ⟨seed, none, .start⟩

namespace Machine

/-! ### What lists keep -/

/-- A property of the lists that neither steps nor changes of the status break is kept by
everything that is done from outside, and with it the invariant. -/
theorem kept_view {property : ListMachine → Prop}
    (step : ∀ state, property state → property (state.step scenario))
    (setStatus : ∀ state status, property state → property { state with status := status })
    (spend : ∀ state limit, property state →
      property (state.fail state.pointer (.cycleBudgetExceeded limit))) :
    Kept fun machine => machine.Sound scenario ∧ property machine.view where
  step machine held := by
    have shows : Shows scenario machine machine.view := ⟨held.1, rfl⟩
    refine ⟨shows.step.sound, ?_⟩
    rw [shows.step.view_eq]
    exact step _ held.2
  pause machine held := by
    have shows := Shows.paused ⟨held.1, rfl⟩
    refine ⟨shows.sound, ?_⟩
    rw [shows.view_eq]
    split
    · exact setStatus _ _ held.2
    · exact held.2
  resume machine held := by
    have shows := Shows.resumed ⟨held.1, rfl⟩
    refine ⟨shows.sound, ?_⟩
    rw [shows.view_eq]
    split
    · exact setStatus _ _ held.2
    · exact held.2
  spend machine limit held := by
    have shows : Shows scenario machine machine.view := ⟨held.1, rfl⟩
    have stopped := (shows.noteCurrent machine.pointer).fail (.cycleBudgetExceeded limit)
    refine ⟨stopped.sound, ?_⟩
    rw [show (machine.spend limit).1.view = _ from stopped.view_eq]
    exact spend machine.view limit held.2

/-- The invariant alone is kept. -/
theorem kept_sound : Kept (Sound scenario) := by
  have both : Kept fun machine => machine.Sound scenario ∧ True :=
    @kept_view scenario (fun _ => True) (fun _ _ => trivial) (fun _ _ _ => trivial)
      fun _ _ _ => trivial
  exact ⟨fun machine sound => (both.step machine ⟨sound, trivial⟩).1,
    fun machine sound => (both.pause machine ⟨sound, trivial⟩).1,
    fun machine sound => (both.resume machine ⟨sound, trivial⟩).1,
    fun machine limit sound => (both.spend machine limit ⟨sound, trivial⟩).1⟩

end Machine

/-- The invariant holds of every machine. -/
theorem Reached.exists_sound (reached : Reached image feed machine) :
    ∃ seed, machine.Sound (Scenario.ofRun image feed seed) := by
  obtain ⟨seed, reported?, session⟩ := reached.exists_session
  have start := (Machine.shows_start image feed seed).sound
  exact ⟨seed, (Machine.kept_sound.session session start).1⟩

end ByteStack
