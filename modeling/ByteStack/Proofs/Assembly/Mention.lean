/-
This file is about the order in which a program mentions its labels. The table
of an assembly lists each label where it is first mentioned, be it defined or
used there, and remembers the first instruction that used it. A label that is
left without an address was mentioned by its uses only. So the labels that are
never set are reported in the order of their first uses.
-/

import ByteStack.Proofs.Assembly.Emission
import Mathlib.Data.List.Induction

namespace ByteStack

/-! ### Each element once -/

/-- An element that is added behind is kept just when it is new. -/
theorem eraseDups_concat {names : List String} {name : String} :
    (names ++ [name]).eraseDups =
      if name ∈ names then names.eraseDups else names.eraseDups ++ [name] := by
  rw [List.eraseDups_append, List.removeAll]
  by_cases known : name ∈ names
  · simp [known]
  · simp [known, List.eraseDups_cons]

/-- It makes no difference whether a choice is made before or after repetitions are erased. -/
theorem filter_eraseDups (choice : String → Bool) (names : List String) :
    names.eraseDups.filter choice = (names.filter choice).eraseDups := by
  induction names using List.reverseRecOn with
  | nil => rfl
  | append_singleton names name inductionHypothesis =>
    rw [eraseDups_concat, List.filter_append, List.filter_singleton]
    by_cases chosen : choice name
    · have same : name ∈ names.filter choice ↔ name ∈ names := by simp [chosen]
      rw [chosen, cond_true, eraseDups_concat, ← inductionHypothesis]
      by_cases known : name ∈ names
      · rw [if_pos known, if_pos (same.mpr known)]
      · rw [if_neg known, if_neg (same.not.mpr known), List.filter_append, List.filter_singleton,
          chosen, cond_true]
    · rw [Bool.eq_false_iff.mpr chosen, cond_false, List.append_nil, ← inductionHypothesis]
      split
      · rfl
      · rw [List.filter_append, List.filter_singleton, Bool.eq_false_iff.mpr chosen, cond_false,
          List.append_nil]

/-! ### Mentions and uses -/

/-- The label that the statement defines or uses. -/
def Statement.mentionedName? : Statement → Option String
  | .define name _ => some name
  | .instruction _ _ (.label name) => some name
  | _ => none

/-- The label that the statement uses, and the position of the mnemonic. -/
def Statement.use? : Statement → Option (String × Nat)
  | .instruction mnemonic _ (.label name) => some (name, mnemonic.position)
  | _ => none

namespace Program

/-- The names that are mentioned, once for each mention. -/
def mentionedNames (program : Program) : List String :=
  program.filterMap Statement.mentionedName?

/-- The uses of labels, in order. -/
def uses (program : Program) : List (String × Nat) :=
  program.filterMap Statement.use?

/-- One error for each name that is used but never defined, in the order of the first uses, at the
mnemonic of the first instruction that uses the name. -/
def neverSet (program : Program) : List AssemblyError :=
  (program.usedNames.eraseDups.filter (· ∉ program.definedNames)).map fun name =>
    ⟨.labelNeverSet name, (program.uses.lookup name).getD 0⟩

theorem mentionedNames_append (before after : Program) :
    mentionedNames (before ++ after) = before.mentionedNames ++ after.mentionedNames :=
  List.filterMap_append

theorem uses_append (before after : Program) :
    uses (before ++ after) = before.uses ++ after.uses :=
  List.filterMap_append

/-- A name that is not defined is mentioned only where it is used. -/
theorem filter_mentionedNames (program : Program) {choice : String → Bool}
    (undefined : ∀ name ∈ program.definedNames, choice name = false) :
    program.mentionedNames.filter choice = program.usedNames.filter choice := by
  induction program with
  | nil => rfl
  | cons statement rest inductionHypothesis =>
    cases statement with
    | define name position =>
      have here : choice name = false := undefined name List.mem_cons_self
      have later := inductionHypothesis fun other member =>
        undefined other (List.mem_cons_of_mem _ member)
      rw [show mentionedNames (.define name position :: rest) =
          name :: mentionedNames rest from rfl,
        List.filter_cons_of_neg (Bool.eq_false_iff.mp here)]
      exact later
    | instruction mnemonic operation argument =>
      have later := inductionHypothesis undefined
      cases argument with
      | nothing => exact later
      | byte value => exact later
      | label name =>
        rw [show mentionedNames (.instruction mnemonic operation (.label name) :: rest) =
            name :: mentionedNames rest from rfl,
          show usedNames (.instruction mnemonic operation (.label name) :: rest) =
            name :: usedNames rest from rfl, List.filter_cons, List.filter_cons, later]

end Program

/-! ### The table of labels -/

namespace Label

variable {name other : String} {change : Label → Label} {labels : List Label}

/-- The position that the table gives for the first use of a name. -/
def firstUseIn? (name : String) (labels : List Label) : Option Nat :=
  (find? name labels).bind Label.firstUse?

/-- A change of a label adds its name to the table if it is new. -/
theorem map_name_update (keeps : ∀ label, (change label).name = label.name) :
    (update name change labels).map Label.name =
      if name ∈ labels.map Label.name then labels.map Label.name
      else labels.map Label.name ++ [name] := by
  induction labels with
  | nil => exact congrArg (fun name => [name]) (keeps _)
  | cons first rest inductionHypothesis =>
    rw [update, List.map_cons]
    by_cases here : first.name = name
    · rw [if_pos here, if_pos (here ▸ List.mem_cons_self), List.map_cons, keeps]
    · rw [if_neg here, List.map_cons, inductionHypothesis]
      by_cases known : name ∈ rest.map Label.name
      · rw [if_pos known, if_pos (List.mem_cons_of_mem _ known)]
      · have absent : name ∉ first.name :: rest.map Label.name := by
          rw [List.mem_cons]
          rintro (same | later)
          · exact here same.symm
          · exact known later
        rw [if_neg known, if_neg absent, List.cons_append]

theorem firstUseIn?_define (address : Nat) :
    firstUseIn? other (define name address labels) = firstUseIn? other labels := by
  unfold firstUseIn? define
  rw [find?_update (by exact fun _ => rfl)]
  by_cases same : other = name
  · rw [if_pos same, same]
    cases find? name labels <;> rfl
  · rw [if_neg same]

/-- Only the first use of a label is remembered. -/
theorem firstUseIn?_use (hole position : Nat) :
    firstUseIn? other (use name hole position labels) =
      (firstUseIn? other labels).or (if other = name then some position else none) := by
  unfold firstUseIn? use
  rw [find?_update (by exact fun _ => rfl)]
  by_cases same : other = name
  · rw [if_pos same, if_pos same, same]
    cases find? name labels with
    | none => rfl
    | some label =>
      show some (label.firstUse?.getD position) = label.firstUse?.or (some position)
      cases label.firstUse? <;> rfl
  · rw [if_neg same, if_neg same, Option.or_none]

end Label

/-- The table lists the labels in the order in which the program first mentions them, and knows
their first uses. -/
structure Listed (program : Program) (labels : List Label) : Prop where
  names : labels.map Label.name = program.mentionedNames.eraseDups
  firstUse : ∀ name, Label.firstUseIn? name labels = program.uses.lookup name

namespace Listed

variable {source : String} {program : Program} {labels : List Label} {emission : Emission}

theorem start : Listed [] [] :=
  ⟨rfl, fun _ => rfl⟩

/-- The table after a statement that mentions no label. -/
theorem of_silent (listed : Listed program labels) {statement : Statement}
    (silent : Program.mentionedNames [statement] = []) (unused : Program.uses [statement] = []) :
    Listed (program ++ [statement]) labels where
  names := by rw [Program.mentionedNames_append, silent, List.append_nil, listed.names]
  firstUse name := by rw [Program.uses_append, unused, List.append_nil, listed.firstUse]

/-- The names in the table after a statement that mentions a label. -/
theorem names_update (listed : Listed program labels) {statement : Statement} {name : String}
    {change : Label → Label} (mentions : Program.mentionedNames [statement] = [name])
    (keeps : ∀ label, (change label).name = label.name) :
    (Label.update name change labels).map Label.name =
      (Program.mentionedNames (program ++ [statement])).eraseDups := by
  rw [Label.map_name_update keeps, Program.mentionedNames_append, mentions, eraseDups_concat,
    listed.names]
  simp only [List.mem_eraseDups]

theorem accept (listed : Listed program emission.labels) (statement : Statement) :
    Listed (program ++ [statement]) (emission.accept statement).labels := by
  cases statement with
  | define name position =>
    refine ⟨listed.names_update rfl (by exact fun _ => rfl), fun other => ?_⟩
    rw [Program.uses_append, show Program.uses [.define name position] = [] from rfl,
      List.append_nil, ← listed.firstUse]
    exact Label.firstUseIn?_define _
  | instruction mnemonic operation argument =>
    cases argument with
    | nothing => exact listed.of_silent rfl rfl
    | byte value => exact listed.of_silent rfl rfl
    | label name =>
      refine ⟨listed.names_update rfl (by exact fun _ => rfl), fun other => ?_⟩
      rw [Program.uses_append, List.lookup_append, ← listed.firstUse]
      refine (Label.firstUseIn?_use _ _).trans (congrArg _ ?_)
      show _ = [(name, mnemonic.position)].lookup other
      by_cases same : other = name
      · rw [if_pos same, same, List.lookup_cons_self]
      · rw [if_neg same, List.lookup_cons, beq_eq_false_iff_ne.mpr same]
        rfl

/-- The labels that are left without an address, as the program has them. -/
theorem unresolved_eq (listed : Listed program emission.labels)
    (emitted : Emitted source program emission) :
    emission.labels.filterMap Label.unresolved? = program.neverSet := by
  have each : ∀ label ∈ emission.labels, label.unresolved? =
      if label.name ∉ program.definedNames then
        some ⟨.labelNeverSet label.name, (program.uses.lookup label.name).getD 0⟩
      else none := by
    intro label member
    have first : label.firstUse? = program.uses.lookup label.name := by
      rw [← listed.firstUse, Label.firstUseIn?, Label.find?_of_mem emitted.distinct member]
      rfl
    rw [Label.unresolved?, emitted.address?_eq member, first]
    cases address : program.addressOf? label.name with
    | none => rw [if_pos ((Program.addressOf?_eq_none _ _).mp address)]
    | some value =>
      have defined : label.name ∈ program.definedNames := by
        rw [← Program.addressOf?_isSome, address]
        rfl
      rw [if_neg (not_not_intro defined)]
  have undefined : ∀ name ∈ program.definedNames,
      decide (name ∉ program.definedNames) = false := by
    intro name member
    exact decide_eq_false (not_not_intro member)
  rw [Program.neverSet, filter_eraseDups, ← program.filter_mentionedNames undefined,
    ← filter_eraseDups, ← listed.names, ← List.filterMap_eq_map, List.filterMap_filter,
    List.filterMap_map]
  refine List.filterMap_congr fun label member => ?_
  rw [each label member]
  simp only [Function.comp_apply, decide_eq_true_eq]

end Listed

end ByteStack
