/-
This file follows the emission of a program. What is emitted at any time is tied
to the statements accepted so far: the code becomes their code once the holes are
filled, whichever addresses the names will turn out to have; the table of labels
gives each name the address that the program gives it; and the map lists where
the instructions start. Every statement that is accepted keeps this, so it holds
at the end, where the addresses are known.
-/

import ByteStack.Proofs.Assembly.Grammar
import ByteStack.Proofs.Assembly.Label

namespace ByteStack

/-! ### Definitions and starts of instructions -/

namespace Program

/-- One more definition leaves all definitions distinct just when its name is new. -/
theorem nodup_define (program : Program) (name : String) (position : Nat) :
    (definedNames (program ++ [.define name position])).Nodup ↔
      program.definedNames.Nodup ∧ name ∉ program.definedNames := by
  rw [definedNames_append, show definedNames [.define name position] = [name] from rfl,
    List.nodup_append]
  constructor
  · rintro ⟨distinct, _, apart⟩
    exact ⟨distinct, fun known => apart name known name (List.mem_singleton_self _) rfl⟩
  · rintro ⟨distinct, fresh⟩
    refine ⟨distinct, List.nodup_singleton _, ?_⟩
    intro one member other among
    rw [List.mem_singleton.mp among]
    rintro rfl
    exact fresh member

theorem start_lt {program : Program} {offset : Nat} {entry : Nat × Token}
    (member : entry ∈ program.starts offset) : entry.1 < offset + program.size := by
  induction program generalizing offset with
  | nil => exact nomatch member
  | cons statement rest inductionHypothesis =>
    rw [show size (statement :: rest) = statement.size + size rest from rfl]
    cases statement with
    | define name position =>
      rw [show (Statement.define name position).size = 0 from rfl, Nat.zero_add]
      exact inductionHypothesis member
    | instruction mnemonic operation argument =>
      rw [show (Statement.instruction mnemonic operation argument).size = 1 + argument.width
        from rfl]
      rcases List.mem_cons.mp member with rfl | later
      · exact Nat.lt_add_of_pos_right (by omega)
      · rw [← Nat.add_assoc]
        exact inductionHypothesis later

end Program

/-- An offset above all that are recorded comes first. -/
theorem SourceMap.insert_of_lt {offset : Nat} (token : Token) {entries : List (Nat × Token)}
    (above : ∀ entry ∈ entries, entry.1 < offset) :
    SourceMap.insert offset token entries = (offset, token) :: entries := by
  cases entries with
  | nil => rfl
  | cons entry rest => exact if_pos (above entry List.mem_cons_self)

theorem Emission.append_list (code : Array UInt8) (bytes : List UInt8) :
    code ++ bytes = code ++ bytes.toArray :=
  Array.ext' (by rw [Array.toList_appendList, Array.toList_append])

/-! ### The emission of a program -/

/-- What has been emitted when exactly the statements of a program have been accepted. -/
structure Emitted (source : String) (program : Program) (emission : Emission) : Prop where
  size : emission.code.size = program.size
  fits : program.size ≤ Layout.codeSize
  /-- Filling the holes makes the code of the program, for all addresses alike. -/
  filled : ∀ address, (Label.fillAll address emission.labels emission.code).toList =
    program.flatMap (Statement.encode address)
  inside : Label.Inside emission.labels emission.code.size
  /-- No name stands twice in the table, and it has just the names that the program has. -/
  distinct : (emission.labels.map Label.name).Nodup
  mentioned : ∀ name, name ∈ emission.labels.map Label.name ↔
    name ∈ program.definedNames ∨ name ∈ program.usedNames
  addresses : ∀ name, Label.addressIn? name emission.labels = program.addressOf? name
  defined : program.definedNames.Nodup
  map : emission.map = ⟨source.toList, (program.starts 0).reverse⟩

namespace Emitted

variable {source : String} {program : Program} {emission : Emission}

theorem start (source : String) : Emitted source [] (Emission.start source) where
  size := rfl
  fits := Nat.zero_le _
  filled _ := rfl
  inside := nofun
  distinct := List.nodup_nil
  mentioned _ := by simp [Emission.start, Program.definedNames, Program.usedNames]
  addresses _ := rfl
  defined := List.nodup_nil
  map := rfl

/-- A definition is refused just when the program already defines the name. -/
theorem refusal?_define (emitted : Emitted source program emission) (name : String)
    (position : Nat) :
    emission.refusal? (.define name position) = none ↔ name ∉ program.definedNames := by
  have same : Label.isDefined name emission.labels = true ↔ name ∈ program.definedNames := by
    rw [Label.isDefined_eq, emitted.addresses]
    exact Program.addressOf?_isSome name program
  rw [Emission.refusal?]
  by_cases known : name ∈ program.definedNames
  · rw [if_pos (same.mpr known)]
    exact ⟨nofun, fun fresh => absurd known fresh⟩
  · rw [if_neg (same.not.mpr known)]
    exact ⟨fun _ => known, fun _ => rfl⟩

/-- An instruction is refused just when it does not fit behind the program. -/
theorem refusal?_instruction (emitted : Emitted source program emission) (mnemonic : Token)
    (operation : Operation) (argument : Argument) :
    emission.refusal? (.instruction mnemonic operation argument) = none ↔
      program.size + (1 + argument.width) ≤ Layout.codeSize := by
  rw [Emission.refusal?, emitted.size, Nat.add_assoc]
  by_cases full : Layout.codeSize < program.size + (1 + argument.width)
  · rw [if_pos full]
    exact ⟨nofun, fun room => absurd full (Nat.not_lt_of_le room)⟩
  · rw [if_neg full]
    exact ⟨fun _ => Nat.le_of_not_lt full, fun _ => rfl⟩

/-- A definition that is accepted. -/
theorem define (emitted : Emitted source program emission) {name : String} (position : Nat)
    (fresh : name ∉ program.definedNames) :
    Emitted source (program ++ [.define name position])
      (emission.accept (.define name position)) := by
  have names : Program.definedNames [.define name position] = [name] := rfl
  have uses : Program.usedNames [.define name position] = [] := rfl
  have size : Program.size (program ++ [.define name position]) = program.size := by
    rw [Program.size_append, Program.size_singleton]
    rfl
  exact {
    size := by rw [size]; exact emitted.size
    fits := by rw [size]; exact emitted.fits
    filled := by
      intro address
      rw [List.flatMap_append, ← emitted.filled address]
      simp only [Emission.accept, Label.fillAll_define]
      exact (List.append_nil _).symm
    inside := emitted.inside.update fun label hole member => Or.inl member
    distinct := Label.nodup_update (by exact fun _ => rfl) emitted.distinct
    mentioned := by
      intro other
      rw [Program.definedNames_append, Program.usedNames_append, names, uses, List.append_nil,
        List.mem_append, List.mem_singleton]
      refine (Label.mem_map_name_update (by exact fun _ => rfl)).trans ?_
      rw [emitted.mentioned]
      tauto
    addresses := by
      intro other
      rw [Program.addressOf?_append, ← emitted.addresses]
      refine (Label.addressIn?_define _).trans ?_
      by_cases same : other = name
      · have unknown : Label.addressIn? name emission.labels = none := by
          rw [emitted.addresses, Program.addressOf?_eq_none]
          exact fresh
        rw [if_pos same, same, unknown, emitted.size]
        simp [Program.addressOf?, Statement.definedName?]
      · rw [if_neg same]
        simp [Program.addressOf?, Statement.definedName?, Ne.symm same]
    defined := (Program.nodup_define _ _ _).mpr ⟨emitted.defined, fresh⟩
    map := by
      rw [Program.starts_append, show Program.starts _ [.define name position] = [] from rfl,
        List.append_nil]
      exact emitted.map }

/-- The holes of an instruction at the end of the code are filled along with the others. -/
theorem filled_instruction (emitted : Emitted source program emission) (mnemonic : Token)
    (operation : Operation) (argument : Argument) (address : String → Nat) :
    Label.fillAll address
        (Emission.noteUse emission.labels emission.code.size mnemonic argument)
        (emission.code ++ (operation.code :: argument.placeholder)) =
      Label.fillAll address emission.labels emission.code ++
        (Statement.instruction mnemonic operation argument).encode address := by
  rw [Emission.append_list, Emission.append_list]
  cases argument with
  | nothing => exact Label.fillAll_append _ _ _ emitted.inside
  | byte value => exact Label.fillAll_append _ _ _ emitted.inside
  | label name => exact Label.fillAll_use _ _ _ _ emitted.inside

/-- An instruction that is accepted. -/
theorem instruction (emitted : Emitted source program emission) (mnemonic : Token)
    (operation : Operation) (argument : Argument)
    (room : program.size + (1 + argument.width) ≤ Layout.codeSize) :
    Emitted source (program ++ [.instruction mnemonic operation argument])
      (emission.accept (.instruction mnemonic operation argument)) := by
  have names : Program.definedNames [.instruction mnemonic operation argument] = [] := rfl
  have size : Program.size (program ++ [.instruction mnemonic operation argument]) =
      program.size + (1 + argument.width) := by
    rw [Program.size_append, Program.size_singleton]
    rfl
  have grown : (emission.accept (.instruction mnemonic operation argument)).code.size =
      emission.code.size + (1 + argument.width) := by
    have width : (operation.code :: argument.placeholder).length = 1 + argument.width := by
      rw [List.length_cons, Argument.length_placeholder, Nat.add_comm]
    rw [Emission.accept, Emission.append_list, Array.size_append]
    exact congrArg (emission.code.size + ·) width
  exact {
    size := by rw [grown, size, emitted.size]
    fits := by rw [size]; exact room
    filled := by
      intro address
      rw [List.flatMap_append, ← emitted.filled address]
      simp only [Emission.accept, emitted.filled_instruction]
      simp
    inside := by
      rw [grown]
      have before := emitted.inside.mono (Nat.le_add_right _ (1 + argument.width))
      cases argument with
      | nothing => exact before
      | byte value => exact before
      | label name =>
        refine before.update fun label hole member => ?_
        rcases List.mem_cons.mp member with rfl | old
        · exact Or.inr (Nat.lt_succ_self _)
        · exact Or.inl old
    distinct := by
      cases argument with
      | nothing => exact emitted.distinct
      | byte value => exact emitted.distinct
      | label name => exact Label.nodup_update (by exact fun _ => rfl) emitted.distinct
    mentioned := by
      intro other
      have unused : Program.usedNames [.instruction mnemonic operation .nothing] = [] := rfl
      have unusedToo (value : UInt8) :
          Program.usedNames [.instruction mnemonic operation (.byte value)] = [] := rfl
      rw [Program.definedNames_append, Program.usedNames_append, names, List.append_nil,
        List.mem_append]
      cases argument with
      | nothing => exact (emitted.mentioned other).trans (by simp [unused])
      | byte value => exact (emitted.mentioned other).trans (by simp [unusedToo])
      | label name =>
        refine (Label.mem_map_name_update (by exact fun _ => rfl)).trans ?_
        rw [emitted.mentioned]
        simp only [Program.usedNames, Statement.usedName?, List.filterMap_cons,
          List.filterMap_nil, List.mem_singleton]
        tauto
    addresses := by
      intro other
      rw [Program.addressOf?_append, ← emitted.addresses,
        show Program.addressOf? other [.instruction mnemonic operation argument] = none from rfl,
        Option.map_none, Option.or_none]
      cases argument with
      | nothing => rfl
      | byte value => rfl
      | label name => exact Label.addressIn?_use _ _
    defined := by
      rw [Program.definedNames_append, names, List.append_nil]
      exact emitted.defined
    map := by
      have above : ∀ entry ∈ (program.starts 0).reverse, entry.1 < emission.code.size := by
        intro entry member
        rw [emitted.size, ← Nat.zero_add program.size]
        exact Program.start_lt (List.mem_reverse.mp member)
      rw [Program.starts_append, List.reverse_append, Nat.zero_add, ← emitted.size]
      simp only [Emission.accept, SourceMap.add, emitted.map, SourceMap.insert_of_lt _ above]
      rfl }

/-! ### Whole programs -/

/-- A statement is refused just when the program would not stay one that can be emitted. -/
theorem refusal?_eq_none (emitted : Emitted source program emission) (statement : Statement) :
    emission.refusal? statement = none ↔
      (Program.definedNames (program ++ [statement])).Nodup ∧
        Program.size (program ++ [statement]) ≤ Layout.codeSize := by
  rw [Program.size_append, Program.size_singleton]
  cases statement with
  | define name position =>
    rw [emitted.refusal?_define, Program.nodup_define,
      show (Statement.define name position).size = 0 from rfl]
    exact ⟨fun fresh => ⟨⟨emitted.defined, fresh⟩, emitted.fits⟩, fun shape => shape.1.2⟩
  | instruction mnemonic operation argument =>
    rw [emitted.refusal?_instruction, Program.definedNames_append,
      show Program.definedNames [.instruction mnemonic operation argument] = [] from rfl,
      List.append_nil]
    exact ⟨fun room => ⟨emitted.defined, room⟩, fun shape => shape.2⟩

theorem accept (emitted : Emitted source program emission) {statement : Statement}
    (accepted : emission.refusal? statement = none) :
    Emitted source (program ++ [statement]) (emission.accept statement) := by
  cases statement with
  | define name position =>
    exact emitted.define position ((emitted.refusal?_define _ _).mp accepted)
  | instruction mnemonic operation argument =>
    exact emitted.instruction _ _ _ ((emitted.refusal?_instruction _ _ _).mp accepted)

/-- When no error is met, all of a program has been read and accepted. -/
theorem acceptAll (emitted : Emitted source program emission)
    {results : List (Except AssemblyError Statement)}
    (clean : (emission.acceptAll results).1 = []) :
    ∃ more : Program, results = more.map .ok ∧
      Emitted source (program ++ more) (emission.acceptAll results).2 := by
  induction results generalizing program emission with
  | nil => exact ⟨[], rfl, (List.append_nil program).symm ▸ emitted⟩
  | cons result rest inductionHypothesis =>
    cases result with
    | error error => exact nomatch clean
    | ok statement =>
      cases verdict : emission.refusal? statement with
      | none =>
        simp only [Emission.acceptAll, verdict] at clean ⊢
        obtain ⟨more, rfl, done⟩ := inductionHypothesis (emitted.accept verdict) clean
        rw [List.append_assoc] at done
        exact ⟨statement :: more, rfl, done⟩
      | some error =>
        simp only [Emission.acceptAll, verdict] at clean
        split at clean <;> exact nomatch clean

/-- No error is met in a program that has each definition once and fits. -/
theorem acceptAll_clean (emitted : Emitted source program emission) {more : Program}
    (distinct : (Program.definedNames (program ++ more)).Nodup)
    (fits : Program.size (program ++ more) ≤ Layout.codeSize) :
    (emission.acceptAll (more.map .ok)).1 = [] := by
  induction more generalizing program emission with
  | nil => rfl
  | cons statement rest inductionHypothesis =>
    rw [List.append_cons] at distinct fits
    have accepted : emission.refusal? statement = none := by
      rw [emitted.refusal?_eq_none]
      refine ⟨?_, ?_⟩
      · rw [Program.definedNames_append, List.nodup_append] at distinct
        exact distinct.1
      · rw [Program.size_append] at fits
        exact Nat.le_trans (Nat.le_add_right _ _) fits
    simp only [List.map_cons, Emission.acceptAll, accepted]
    exact inductionHypothesis (emitted.accept accepted) distinct fits

/-! ### Resolution -/

/-- The address of a label in the table. -/
theorem address?_eq (emitted : Emitted source program emission) {label : Label}
    (member : label ∈ emission.labels) : label.address? = program.addressOf? label.name := by
  rw [← emitted.addresses, Label.addressIn?, Label.find?_of_mem emitted.distinct member]
  rfl

/-- No label is left unresolved just when every name that is used is defined. -/
theorem unresolved_eq_nil (emitted : Emitted source program emission) :
    emission.labels.filterMap Label.unresolved? = [] ↔
      ∀ name ∈ program.usedNames, name ∈ program.definedNames := by
  have resolved : ∀ label ∈ emission.labels,
      label.unresolved? = none ↔ label.name ∈ program.definedNames := by
    intro label member
    rw [← Program.addressOf?_isSome, ← emitted.address?_eq member, Label.unresolved?]
    cases label.address? with
    | none => exact ⟨nofun, nofun⟩
    | some address => exact ⟨fun _ => rfl, fun _ => rfl⟩
  rw [List.filterMap_eq_nil_iff]
  constructor
  · intro none name used
    have known := (emitted.mentioned name).mpr (Or.inr used)
    obtain ⟨label, member, rfl⟩ := List.mem_map.mp known
    exact (resolved label member).mp (none label member)
  · intro each label member
    rw [resolved label member]
    rcases (emitted.mentioned _).mp (List.mem_map_of_mem member) with defined | used
    · exact defined
    · exact each _ used

/-- Once the addresses are written, the code is that of the program. -/
theorem resolve (emitted : Emitted source program emission) :
    (emission.labels.foldl Label.resolve emission.code).toList = program.code := by
  have addresses : ∀ label ∈ emission.labels,
      label.address?.getD 0 = program.address label.name := by
    intro label member
    rw [emitted.address?_eq member]
    rfl
  rw [Label.foldl_resolve _ _ addresses]
  exact emitted.filled program.address

end Emitted

end ByteStack
