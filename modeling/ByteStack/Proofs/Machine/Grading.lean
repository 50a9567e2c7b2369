/-
This file compares two runs of one image that are fed the same, except that one
of them is told which output to expect. The free run is judged at its end only,
the graded run also at every value that it puts out.

The runs go along together while the output is a prefix of the expected one, and
the first thing that parts them is a fault of the graded run: a value that does
not fit, one too many, or an early end. Once they have parted, the free run
cannot make its output right again. So the graded run ends well just when the
free run does with the expected output.
-/

import ByteStack.Proofs.Machine.Expecting

namespace ByteStack.Machine

variable {machine before : Machine} {expected : List Int8}

/-! ### Verdicts on output -/

/-- What is wrong with a value: it is not the expected one, or none is expected any more. -/
def Misfit (expected : List Int8) (index : Nat) (value : Int8) (kind : FaultKind) : Prop :=
  (∃ wanted, expected[index]? = some wanted ∧ wanted ≠ value ∧
    kind = .outputMismatch index wanted value) ∨
  index = expected.length ∧ kind = .tooManyOutputs expected.length

theorem prefix_push {output : Outbox} (fits : output.toList <+: expected) (value : Int8) :
    (output.push value).toList <+: expected ↔ expected[output.size]? = some value := by
  obtain ⟨rest, rfl⟩ := fits
  rw [Outbox.toList_push, List.prefix_append_right_inj, ← Outbox.length_toList,
    List.getElem?_append_right (Nat.le_refl _), Nat.sub_self]
  cases rest with
  | nil => simp
  | cons next others =>
    rw [List.getElem?_cons_zero, Option.some.injEq, List.cons_prefix_cons]
    exact ⟨fun same => same.1.symm, fun same => ⟨same.symm, List.nil_prefix⟩⟩

theorem outputFault?_eq_none (index : Nat) (value : Int8) :
    outputFault? expected.toArray index value = none ↔ expected[index]? = some value := by
  unfold outputFault?
  rw [List.getElem?_toArray]
  cases expected[index]? with
  | none => simp
  | some wanted =>
    by_cases same : wanted = value
    · simp [same]
    · simp [same]

/-- While the output is a prefix, a value that is refused is a misfit. -/
theorem misfit_of_outputFault? {output : Outbox} (fits : output.toList <+: expected)
    {value : Int8} {kind : FaultKind}
    (wrong : outputFault? expected.toArray output.size value = some kind) :
    Misfit expected output.size value kind := by
  have short : output.size ≤ expected.length := by
    rw [← Outbox.length_toList]
    exact fits.length_le
  unfold outputFault? at wrong
  rw [List.getElem?_toArray] at wrong
  cases there : expected[output.size]? with
  | none =>
    rw [there] at wrong
    obtain rfl := Option.some.inj wrong
    have full := List.getElem?_eq_none_iff.mp there
    exact Or.inr ⟨Nat.le_antisymm short full, rfl⟩
  | some wanted =>
    rw [there] at wrong
    dsimp only at wrong
    by_cases same : wanted = value
    · rw [if_pos same] at wrong
      exact nomatch wrong
    · rw [if_neg same] at wrong
      obtain rfl := Option.some.inj wrong
      exact Or.inl ⟨wanted, there, same, rfl⟩

/-- The end of a free run looks at the depth of the stack alone. -/
theorem halt_of_free (free : machine.expected? = none) :
    machine.halt.1 = { machine with
      status := .stopped
      fault? :=
        if 0 < machine.depth then some ⟨.stackNotEmpty machine.depth, machine.current⟩
        else machine.fault? } := by
  have missing : machine.expected?.filter (fun wanted => machine.output.size < wanted.size) =
      none := by
    rw [free]
    rfl
  unfold halt
  dsimp only
  rw [missing]
  dsimp only
  split <;> rfl

/-- The end of a graded run looks at the output first. -/
theorem halt_expecting (free : machine.expected? = none) :
    (machine.expecting expected).halt.1 =
      if machine.output.size < expected.length then
        { machine.halt.1.expecting expected with
          status := .stopped
          fault? := some ⟨.notEnoughOutputs expected.length machine.output.size,
            machine.current⟩ }
      else machine.halt.1.expecting expected := by
  have missing : (machine.expecting expected).expected?.filter
      (fun wanted => (machine.expecting expected).output.size < wanted.size) =
      if machine.output.size < expected.length then some expected.toArray else none := by
    show (if decide (machine.output.size < expected.toArray.size) = true then
      some expected.toArray else none) = _
    rw [List.size_toArray]
    simp only [decide_eq_true_eq]
  rw [halt_of_free free]
  unfold halt
  dsimp only
  rw [missing]
  by_cases short : machine.output.size < expected.length
  · rw [if_pos short, if_pos short]
    rfl
  · rw [if_neg short, if_neg short,
      show (machine.expecting expected).depth = machine.depth from rfl]
    dsimp only
    split <;> rfl

/-! ### Whole runs -/

/-- How the runs stand to each other at any time. -/
inductive Related (expected : List Int8) (free graded : Machine) : Prop where
  /-- They have not parted. If the free run ended well, its output is complete. -/
  | along (same : graded = free.expecting expected) (fits : free.output.toList <+: expected)
      (complete : free.status = .stopped → free.fault? = none → free.output.toList = expected)
  /-- The graded run has failed, and the free run cannot make its output right any more. -/
  | apart (stopped : graded.status = .stopped) (failed : graded.fault? ≠ none)
      (never : ¬free.output.toList <+: expected ∨
        free.status = .stopped ∧ free.output.toList ≠ expected)

variable {ends : Prop} {free graded : Machine}

/-- A step of the free run adds to the output and takes nothing back. -/
theorem Outcome.prefix_output (outcome : Outcome expected ends before free graded) :
    before.output.toList <+: free.output.toList := by
  have push (value : Int8) : before.output.toList <+: (before.output.push value).toList := by
    rw [Outbox.toList_push]
    exact List.prefix_append _ _
  cases outcome with
  | quiet _ _ output => exact output ▸ List.prefix_rfl
  | fits _ _ value output => rw [output]; exact push value
  | parts _ _ value output => rw [output]; exact push value
  | @halts ended _ unjudged output _ =>
    have same : ended.halt.1.output = before.output := by
      rw [halt_of_free unjudged, ← output]
    exact same ▸ List.prefix_rfl

/-- What the end of the program makes of runs that have gone along together. -/
theorem related_halt {ended : Machine} (unjudged : ended.expected? = none)
    (fits : ended.output.toList <+: expected) :
    Related expected ended.halt.1 (ended.expecting expected).halt.1 := by
  rw [halt_expecting unjudged]
  by_cases short : ended.output.size < expected.length
  · rw [if_pos short]
    refine .apart rfl nofun (Or.inr ?_)
    rw [halt_of_free unjudged]
    refine ⟨rfl, ?_⟩
    intro same
    rw [← same, Outbox.length_toList] at short
    exact Nat.lt_irrefl _ short
  · rw [if_neg short]
    have whole : ended.output.toList = expected := by
      refine fits.eq_of_length (Nat.le_antisymm fits.length_le ?_)
      rw [Outbox.length_toList]
      exact Nat.le_of_not_lt short
    refine .along rfl ?_ ?_
    · rw [halt_of_free unjudged]
      exact fits
    · rw [halt_of_free unjudged]
      exact fun _ _ => whole

/-- A step from where the runs have gone along together. -/
theorem Outcome.related (outcome : Outcome expected ends before free graded)
    (fits : before.output.toList <+: expected) : Related expected free graded := by
  cases outcome with
  | quiet _ _ output _ failed =>
    rw [← output] at fits
    refine .along rfl fits ?_
    intro stopped well
    obtain ⟨fault, recorded, _⟩ := failed stopped
    exact nomatch well.symm.trans recorded
  | fits _ _ value output fitting active =>
    refine .along rfl ?_ fun stopped _ => absurd stopped active
    rw [output, prefix_push fits]
    exact (outputFault?_eq_none _ _).mp fitting
  | parts _ _ value output _ kind wrong _ =>
    refine .apart rfl nofun (Or.inl ?_)
    rw [output, prefix_push fits, ← outputFault?_eq_none, wrong]
    exact nofun
  | halts _ unjudged output _ =>
    rw [← output] at fits
    exact related_halt unjudged fits

/-- Before anything has been put out the two runs are related. -/
theorem Related.of_silent (active : free.status ≠ .stopped) (silent : free.output.toList = []) :
    Related expected free (free.expecting expected) := by
  refine .along rfl ?_ fun stopped => absurd stopped active
  rw [silent]
  exact List.nil_prefix

/-- A graded run that has not failed has the output of the free run. -/
theorem Related.output_eq (related : Related expected free graded) (clean : graded.fault? = none) :
    graded.output = free.output := by
  cases related with
  | along same => rw [same]; rfl
  | apart _ failed => exact absurd clean failed

variable {scenario : Scenario}

/-- One step of a machine that has stayed sound, where no output is expected. -/
theorem Sound.outcome (sound : machine.Sound scenario) (none : scenario.expected? = none)
    (active : machine.status ≠ .stopped) :
    Outcome expected machine.Halts machine.begin machine.step.1
      (machine.expecting expected).step.1 := by
  have unjudged : machine.expected? = Option.none := by
    have same := sound.expected
    rw [none] at same
    exact Option.map_eq_none_iff.mp same
  have clean : machine.fault? = Option.none :=
    Decidable.byContradiction fun fault => active (sound.stopped_of_fault fault)
  exact outcome_step unjudged active clean sound.depth_le

/-- One step keeps the relation between the runs. -/
theorem Related.step (related : Related expected free graded) (sound : free.Sound scenario)
    (none : scenario.expected? = none) : Related expected free.step.1 graded.step.1 := by
  cases related with
  | along same fits complete =>
    subst same
    by_cases ended : free.status = .stopped
    · have also : (free.expecting expected).status = .stopped := ended
      rw [step_of_stopped ended, step_of_stopped also]
      exact .along rfl fits complete
    · exact (sound.outcome none ended).related fits
  | apart stopped failed never =>
    rw [step_of_stopped stopped]
    by_cases ended : free.status = .stopped
    · rw [step_of_stopped ended]
      exact .apart stopped failed never
    · have outcome : Outcome expected free.Halts free.begin _ _ := sound.outcome none ended
      refine .apart stopped failed (Or.inl ?_)
      intro fits
      rcases never with wrong | ⟨already, _⟩
      · exact wrong (outcome.prefix_output.trans fits)
      · exact ended already

/-! ### Where the runs part -/

/-- The runs part at a value that is a misfit, and both have put it out. -/
theorem Outcome.parted (outcome : Outcome expected ends before free graded)
    (fits : before.output.toList <+: expected) (broken : ¬free.output.toList <+: expected) :
    ∃ value kind, free.output = before.output.push value ∧
      Misfit expected before.output.size value kind ∧
      graded = { free.expecting expected with
        status := .stopped
        fault? := some ⟨kind, before.current⟩ } := by
  cases outcome with
  | quiet _ _ output =>
    rw [output] at broken
    exact absurd fits broken
  | fits _ _ value output fitting =>
    rw [output, prefix_push fits] at broken
    exact absurd ((outputFault?_eq_none _ _).mp fitting) broken
  | parts _ _ value output current kind wrong =>
    refine ⟨value, kind, output, misfit_of_outputFault? fits wrong, ?_⟩
    rw [← current]
    rfl
  | halts _ unjudged output =>
    rw [halt_of_free unjudged] at broken
    rw [← output] at fits
    exact absurd fits broken

/-- At the end of the program the graded run asks for the output first. -/
theorem Outcome.ended (outcome : Outcome expected ends before free graded) (ending : ends) :
    graded =
      if before.output.size < expected.length then
        { free.expecting expected with
          status := .stopped
          fault? := some ⟨.notEnoughOutputs expected.length before.output.size, before.current⟩ }
      else free.expecting expected := by
  cases outcome with
  | quiet goesOn => exact absurd ending goesOn
  | fits goesOn => exact absurd ending goesOn
  | parts goesOn => exact absurd ending goesOn
  | halts _ unjudged output current => rw [halt_expecting unjudged, output, current]

/-- The program ends where the free run stops without a fault, or with values left on its stack
as the only one. -/
theorem Outcome.ends_iff (outcome : Outcome expected ends before free graded) :
    ends ↔ free.status = .stopped ∧
      ∀ fault, free.fault? = some fault → ∃ depth, fault.kind = .stackNotEmpty depth := by
  cases outcome with
  | quiet goesOn _ _ _ failed =>
    refine ⟨fun ending => absurd ending goesOn, ?_⟩
    rintro ⟨stopped, only⟩
    obtain ⟨fault, recorded, other⟩ := failed stopped
    obtain ⟨depth, same⟩ := only fault recorded
    exact absurd same (other depth)
  | fits goesOn _ _ _ _ active =>
    exact ⟨fun ending => absurd ending goesOn, fun well => absurd well.1 active⟩
  | parts goesOn _ _ _ _ _ _ active =>
    exact ⟨fun ending => absurd ending goesOn, fun well => absurd well.1 active⟩
  | @halts ended ending unjudged _ _ clean =>
    refine ⟨fun _ => ?_, fun _ => ending⟩
    rw [halt_of_free unjudged, clean]
    refine ⟨rfl, ?_⟩
    intro fault recorded
    dsimp only at recorded
    by_cases deep : 0 < ended.depth
    · rw [if_pos deep] at recorded
      obtain rfl := Option.some.inj recorded
      exact ⟨_, rfl⟩
    · rw [if_neg deep] at recorded
      exact nomatch recorded

/-- The free run fails in no other way than the graded run. -/
theorem Outcome.failed (outcome : Outcome expected ends before free graded) (goesOn : ¬ends)
    (stopped : free.status = .stopped) : graded = free.expecting expected := by
  cases outcome with
  | quiet => rfl
  | fits => rfl
  | parts _ _ _ _ _ _ _ active => exact absurd stopped active
  | halts ending => exact absurd ending goesOn

/-! ### Grading -/

/-- How a graded run stands to the free run, where both are given by the number of steps. -/
structure Grades (expected : List Int8) (free graded : Nat → Machine) : Prop where
  /-- While the free run goes on and its output is a prefix of the expected one, the runs differ
  in nothing but the expectation. -/
  along : ∀ count, (free count).status ≠ .stopped → (free count).output.toList <+: expected →
    graded count = (free count).expecting expected
  /-- The first value that makes the output stop being a prefix stops the graded run at that
  instruction. The value has been put out by then. -/
  parts : ∀ count, (free count).output.toList <+: expected →
    ¬(free (count + 1)).output.toList <+: expected →
    ∃ value kind, (free (count + 1)).output = (free count).output.push value ∧
      Misfit expected (free count).output.size value kind ∧
      graded (count + 1) = { (free (count + 1)).expecting expected with
        status := .stopped
        fault? := some ⟨kind, (free count).pointer⟩ }
  /-- The program ends where the free run stops without a fault, or with values left on its stack
  as the only one. -/
  halts : ∀ count, (free count).status ≠ .stopped →
    ((free count).Halts ↔ (free (count + 1)).status = .stopped ∧
      ∀ fault, (free (count + 1)).fault? = some fault → ∃ depth, fault.kind = .stackNotEmpty depth)
  /-- When the program ends too early, the graded run fails for that, whatever the free run
  finds on its stack. -/
  short : ∀ count, (free count).Halts → (free count).output.toList <+: expected →
    (free count).output.toList ≠ expected →
    graded (count + 1) = { (free (count + 1)).expecting expected with
      status := .stopped
      fault? := some ⟨.notEnoughOutputs expected.length (free count).output.size,
        (free count).pointer⟩ }
  /-- When the program ends with all its output, both runs end in the same way. -/
  complete : ∀ count, (free count).Halts → (free count).output.toList = expected →
    graded (count + 1) = (free (count + 1)).expecting expected
  /-- A fault of another kind is a fault of both runs. -/
  failed : ∀ count fault, (free count).status ≠ .stopped → ¬(free count).Halts →
    (free count).output.toList <+: expected → (free (count + 1)).fault? = some fault →
    graded (count + 1) = (free (count + 1)).expecting expected
  /-- The graded run ends well just when the free run does with the expected output. -/
  verdict : ∀ count,
    (graded count).status = .stopped ∧ (graded count).fault? = none ↔
      (free count).status = .stopped ∧ (free count).fault? = none ∧
        (free count).output.toList = expected

theorem Related.verdict (related : Related expected free graded) :
    graded.status = .stopped ∧ graded.fault? = none ↔
      free.status = .stopped ∧ free.fault? = none ∧ free.output.toList = expected := by
  cases related with
  | along same fits complete =>
    subst same
    exact ⟨fun well => ⟨well.1, well.2, complete well.1 well.2⟩, fun well => ⟨well.1, well.2.1⟩⟩
  | apart stopped failed never =>
    constructor
    · exact fun well => absurd well.2 failed
    · rintro ⟨_, _, whole⟩
      rcases never with broken | ⟨_, wrong⟩
      · exact absurd (whole ▸ List.prefix_rfl) broken
      · exact absurd whole wrong

theorem Related.steps (related : Related expected free graded)
    (sound : ∀ count, (free.steps count).Sound scenario) (none : scenario.expected? = none)
    (count : Nat) : Related expected (free.steps count) (graded.steps count) := by
  induction count with
  | zero => exact related
  | succ count inductionHypothesis =>
    rw [steps_succ, steps_succ]
    exact inductionHypothesis.step (sound count) none

/-- Where the runs are together, the next step has one of the four outcomes. -/
theorem Related.outcome (related : Related expected free graded) (sound : free.Sound scenario)
    (none : scenario.expected? = none) (active : free.status ≠ .stopped)
    (fits : free.output.toList <+: expected) :
    graded = free.expecting expected ∧
      Outcome expected free.Halts free.begin free.step.1 graded.step.1 := by
  cases related with
  | along same _ _ =>
    subst same
    exact ⟨rfl, sound.outcome none active⟩
  | apart _ _ never =>
    rcases never with broken | ⟨stopped, _⟩
    · exact absurd fits broken
    · exact absurd stopped active

/-- Related machines have graded runs. -/
theorem Related.grades (related : Related expected free graded)
    (sound : ∀ count, (free.steps count).Sound scenario) (none : scenario.expected? = none) :
    Grades expected (fun count => free.steps count) (fun count => graded.steps count) := by
  have outcome (count : Nat) (active : (free.steps count).status ≠ .stopped)
      (fits : (free.steps count).output.toList <+: expected) :=
    (related.steps sound none count).outcome (sound count) none active fits
  exact {
    along := fun count active fits => (outcome count active fits).1
    parts := by
      intro count fits broken
      dsimp only at fits broken ⊢
      rw [steps_succ] at broken ⊢
      rw [steps_succ]
      have active : (free.steps count).status ≠ .stopped := by
        intro stopped
        rw [step_of_stopped stopped] at broken
        exact broken fits
      exact (outcome count active fits).2.parted fits broken
    halts := by
      intro count active
      have next : Outcome expected _ _ _ _ := (sound count).outcome none active
      rw [steps_succ]
      exact next.ends_iff
    short := by
      intro count halts fits wrong
      dsimp only at halts fits wrong ⊢
      rw [steps_succ, steps_succ, (outcome count halts.1 fits).2.ended halts]
      refine if_pos (Nat.lt_of_le_of_ne ?_ ?_)
      · rw [show (free.steps count).begin.output = (free.steps count).output from rfl,
          ← Outbox.length_toList]
        exact fits.length_le
      · intro same
        rw [show (free.steps count).begin.output = (free.steps count).output from rfl,
          ← Outbox.length_toList] at same
        exact wrong (fits.eq_of_length same)
    complete := by
      intro count halts whole
      have fits : (free.steps count).output.toList <+: expected := whole ▸ List.prefix_rfl
      rw [steps_succ, steps_succ, (outcome count halts.1 fits).2.ended halts]
      refine if_neg ?_
      rw [← whole, Outbox.length_toList]
      exact Nat.lt_irrefl _
    failed := by
      intro count fault active goesOn fits recorded
      have stopped := (sound (count + 1)).stopped_of_fault (by rw [recorded]; exact nofun)
      rw [steps_succ] at stopped
      rw [steps_succ, steps_succ]
      exact (outcome count active fits).2.failed goesOn stopped
    verdict := fun count => (related.steps sound none count).verdict }

/-- A run that is told which output to expect follows the run that is not, and is stopped at the
first value that does not fit. It ends well just when the other run does with that output. -/
theorem grades_start (image : Image) (input stack expected : List Int8) (seed : UInt64) :
    Grades expected (fun count => (start image ⟨input, none, stack⟩ seed).steps count)
      (fun count => (start image ⟨input, some expected, stack⟩ seed).steps count) := by
  have shows := shows_start image ⟨input, none, stack⟩ seed
  have output : (start image ⟨input, none, stack⟩ seed).output.toList = [] :=
    congrArg ListMachine.output shows.view_eq
  have status : (start image ⟨input, none, stack⟩ seed).status = .running :=
    shows.status_eq
  refine Related.grades ?_ (fun count => (shows.steps count).sound) rfl
  rw [start_expecting]
  refine .along rfl ?_ ?_
  · rw [output]
    exact List.nil_prefix
  · rw [status]
    exact nofun

end ByteStack.Machine
