/-
This file shows that it does not matter how a puzzle is spelled. Members may
come in any order, members that are no fields may be added anywhere, and an
object may be an array of its fields instead, for the puzzle as for each of its
runs. Blanks between symbols do not matter either. A field that is given a second
time is always an error, and it is the first one.
-/

import ByteStack.Proofs.Puzzle.Written
import Mathlib.Logic.Relation

namespace ByteStack

open Json

/-! ### Fields in order -/

namespace Json

variable {Value : Type} {read : Json → Read Value} {values : List Json} {json : Json}

/-- The value of a field that is set is read as what it was set to. -/
theorem read_given {value : Value} (once : ReadsOnce read values (some value))
    (given : values.head?.or none = some json) : read json = .ok value := by
  cases once with
  | set done =>
    obtain rfl := Option.some.inj given
    exact done

/-- A field with a default is read from its value or from the default. -/
theorem read_or_default {field? : Option Value} {default : Json} {value : Value}
    (once : ReadsOnce read values field?) (missing : read default = .ok value)
    (given : values.head?.or (some default) = some json) :
    read json = .ok (field?.getD value) := by
  cases once with
  | unset =>
    obtain rfl := Option.some.inj given
    exact missing
  | set done =>
    obtain rfl := Option.some.inj given
    exact done

end Json

/-! ### Runs -/

namespace PuzzleRun

variable {value other : Json} {run : PuzzleRun}

/-- The array of all fields of a run is read as the run. -/
theorem ofJson_listed {members : List Member} {values : List Json}
    (complete : form.values? members = some values)
    (done : ofJson (.object members none) = .ok run) :
    ofJson (.array values none) = .ok run := by
  obtain ⟨_, fields, set, done⟩ := ofJson_object.mp done
  obtain ⟨hasInbox, hasOutbox, hasCycles⟩ := toRun_eq_ok.mp done
  have onceInbox := set.once inboxField (mem_fields.mpr (.inl rfl))
  have onceOutbox := set.once outboxField (mem_fields.mpr (.inr (.inl rfl)))
  have onceCycles := set.once cyclesField (mem_fields.mpr (.inr (.inr rfl)))
  rw [show inboxField.get fields = some run.inbox from hasInbox] at onceInbox
  rw [show outboxField.get fields = some run.outbox from hasOutbox] at onceOutbox
  obtain _ | ⟨inbox, _ | ⟨outbox, _ | ⟨cycles, _ | _⟩⟩⟩ := Form.forall₂_of_values? complete
  refine ofJson_array.mpr ⟨rfl, _, _, read_given onceInbox inbox, read_given onceOutbox outbox,
    .inr ⟨_, rfl, ?_⟩⟩
  rw [← hasCycles]
  exact read_or_default onceCycles rfl cycles

/-- A run that is spelled differently is the same run. -/
theorem ofJson_respelled (step : form.Respelled value other) (done : ofJson value = .ok run) :
    ofJson other = .ok run :=
  step.reads (fun _ => ofJson_object.trans (and_iff_right rfl))
    (fun _ _ complete done => ofJson_listed complete done) done

theorem ofJson_object_error {members : List Member} {ending? : Option Break} {error : PuzzleError}
    (refused : readMembers form.set form.empty members = .error error) :
    ofJson (.object members ending?) = .error error :=
  bind_eq_error (.inl refused)

/-- A run that gives a field twice is refused for it. -/
theorem ofJson_doubled {name : String} (again : form.Doubled name value other)
    (done : ofJson value = .ok run) : ofJson other = .error (.data (.duplicateField name)) := by
  cases again with
  | again isField first =>
    obtain ⟨_, fields, set, _⟩ := ofJson_object.mp done
    exact ofJson_object_error (Form.readMembers_doubled isField first set)

end PuzzleRun

/-! ### Puzzles -/

namespace Puzzle

/-- The second value is the first one, with the puzzle or one of its runs spelled differently. -/
inductive Respelled : Json → Json → Prop where
  | puzzle {value other : Json} (step : form.Respelled value other) : Respelled value other
  | run {front back : List Member} {before after : List Json} {run other : Json}
      (step : PuzzleRun.form.Respelled run other) :
      Respelled
        (.object (front ++ (some "runs", .array (before ++ run :: after) none) :: back) none)
        (.object (front ++ (some "runs", .array (before ++ other :: after) none) :: back) none)
  | runInArray {name description solution sizeGoal run other : Json} {before after : List Json}
      (step : PuzzleRun.form.Respelled run other) :
      Respelled
        (.array [name, description, solution, sizeGoal, .array (before ++ run :: after) none] none)
        (.array [name, description, solution, sizeGoal, .array (before ++ other :: after) none]
          none)

/-- The second value begins as the first one, and then gives a field of the puzzle or of one of its
runs again. What stands behind that may even be broken. -/
inductive Doubled (name : String) : Json → Json → Prop where
  | puzzle {value other : Json} (again : form.Doubled name value other) : Doubled name value other
  | run {front back rest : List Member} {before after behind : List Json} {run other : Json}
      {inner? outer? : Option Break} (again : PuzzleRun.form.Doubled name run other) :
      Doubled name
        (.object (front ++ (some "runs", .array (before ++ run :: after) none) :: back) none)
        (.object (front ++ (some "runs", .array (before ++ other :: behind) inner?) :: rest) outer?)
  | runInArray {name' description solution sizeGoal run other : Json}
      {before after behind rest : List Json} {inner? outer? : Option Break}
      (again : PuzzleRun.form.Doubled name run other) :
      Doubled name
        (.array [name', description, solution, sizeGoal, .array (before ++ run :: after) none] none)
        (.array (name' :: description :: solution :: sizeGoal ::
          .array (before ++ other :: behind) inner? :: rest) outer?)

variable {value other : Json} {puzzle : Puzzle}

theorem ofJson_object_error {members : List Member} {ending? : Option Break} {error : PuzzleError}
    (refused : readMembers form.set form.empty members = .error error) :
    ofJson (.object members ending?) = .error error :=
  bind_eq_error (.inl refused)

theorem mem_runsField : runsField ∈ form.list :=
  mem_fields.mpr (.inr (.inr (.inr (.inr rfl))))

/-- The array of all fields of a puzzle is read as the puzzle. -/
theorem ofJson_listed {members : List Member} {values : List Json}
    (complete : form.values? members = some values)
    (done : ofJson (.object members none) = .ok puzzle) :
    ofJson (.array values none) = .ok puzzle := by
  obtain ⟨_, fields, set, done⟩ := ofJson_object.mp done
  obtain ⟨hasName, hasDescription, hasSolution, hasSizeGoal, hasRuns⟩ := toPuzzle_eq_ok.mp done
  have onceName := set.once nameField (mem_fields.mpr (.inl rfl))
  have onceDescription := set.once descriptionField (mem_fields.mpr (.inr (.inl rfl)))
  have onceSolution := set.once solutionField (mem_fields.mpr (.inr (.inr (.inl rfl))))
  have onceSizeGoal := set.once sizeGoalField (mem_fields.mpr (.inr (.inr (.inr (.inl rfl)))))
  have onceRuns := set.once runsField mem_runsField
  rw [show nameField.get fields = some puzzle.name from hasName] at onceName
  rw [show sizeGoalField.get fields = some puzzle.sizeGoal from hasSizeGoal] at onceSizeGoal
  rw [show runsField.get fields = some puzzle.runs from hasRuns] at onceRuns
  obtain _ | ⟨name, _ | ⟨description, _ | ⟨solution, _ | ⟨sizeGoal, _ | ⟨runs, _ | _⟩⟩⟩⟩⟩ :=
    Form.forall₂_of_values? complete
  refine ofJson_array.mpr ⟨rfl, _, _, _, _, _, rfl, read_given onceName name, ?_, ?_,
    read_given onceSizeGoal sizeGoal, read_given onceRuns runs⟩
  · rw [← hasDescription]
    exact read_or_default onceDescription rfl description
  · rw [← hasSolution]
    exact read_or_default onceSolution rfl solution

theorem readRuns_replace {before after : List Json} {run other : Json} {runs : List PuzzleRun}
    (step : PuzzleRun.form.Respelled run other)
    (done : readRuns (.array (before ++ run :: after) none) = .ok runs) :
    readRuns (.array (before ++ other :: after) none) = .ok runs := by
  obtain ⟨values, each, done⟩ := bind_eq_ok.mp done
  exact bind_eq_ok.mpr ⟨values,
    readItems_replace (fun _ => PuzzleRun.ofJson_respelled step) each, done⟩

/-- A puzzle that is spelled differently is the same puzzle. -/
theorem ofJson_respelled (step : Respelled value other) (done : ofJson value = .ok puzzle) :
    ofJson other = .ok puzzle := by
  cases step with
  | puzzle step =>
    exact step.reads (fun _ => ofJson_object.trans (and_iff_right rfl))
      (fun _ _ complete done => ofJson_listed complete done) done
  | @run _ _ before after run other step =>
    obtain ⟨_, fields, set, done⟩ := ofJson_object.mp done
    have same : ∀ runs, runsField.read (.array (before ++ run :: after) none) = .ok runs →
        runsField.read (.array (before ++ other :: after) none) = .ok runs :=
      fun runs => @readRuns_replace before after run other runs step
    exact ofJson_object.mpr ⟨rfl, fields, set.replace mem_runsField same, done⟩
  | runInArray step =>
    obtain ⟨_, _, _, _, _, _, same, hasName, hasDescription, hasSolution, hasSizeGoal, hasRuns⟩ :=
      ofJson_array.mp done
    obtain ⟨rfl, rfl, rfl, rfl, rfl⟩ : _ ∧ _ ∧ _ ∧ _ ∧ _ := by simpa using same
    exact ofJson_array.mpr ⟨rfl, _, _, _, _, _, rfl, hasName, hasDescription, hasSolution,
      hasSizeGoal, readRuns_replace step hasRuns⟩

theorem readRuns_doubled {name : String} {before after rest : List Json} {run other : Json}
    {ending? : Option Break} {runs : List PuzzleRun}
    (again : PuzzleRun.form.Doubled name run other)
    (done : readRuns (.array (before ++ run :: after) none) = .ok runs) :
    readRuns (.array (before ++ other :: rest) ending?) =
      .error (.data (.duplicateField name)) := by
  obtain ⟨values, each, _⟩ := bind_eq_ok.mp done
  rw [readRuns, readSequence, readItems_error (fun _ => PuzzleRun.ofJson_doubled again) each]
  rfl

/-- A puzzle that gives a field twice, or a run that does so, is refused for it. -/
theorem ofJson_doubled {name : String} (again : Doubled name value other)
    (done : ofJson value = .ok puzzle) : ofJson other = .error (.data (.duplicateField name)) := by
  cases again with
  | puzzle again =>
    cases again with
    | again isField first =>
      obtain ⟨_, fields, set, _⟩ := ofJson_object.mp done
      exact ofJson_object_error (Form.readMembers_doubled isField first set)
  | @run _ _ _ before after behind run other inner? _ again =>
    obtain ⟨_, fields, set, _⟩ := ofJson_object.mp done
    have refused : ∀ runs, runsField.read (.array (before ++ run :: after) none) = .ok runs →
        runsField.read (.array (before ++ other :: behind) inner?) =
          .error (.data (.duplicateField name)) :=
      fun runs => @readRuns_doubled name before after behind run other inner? runs again
    exact ofJson_object_error (Form.readMembers_error mem_runsField refused set)
  | runInArray again =>
    obtain ⟨_, _, _, _, _, _, same, hasName, hasDescription, hasSolution, hasSizeGoal, hasRuns⟩ :=
      ofJson_array.mp done
    obtain ⟨rfl, rfl, rfl, rfl, rfl⟩ : _ ∧ _ ∧ _ ∧ _ ∧ _ := by simpa using same
    refine bind_eq_error (.inr ⟨_, next_eq_ok.mpr ⟨_, _, rfl, hasName, rfl⟩, ?_⟩)
    refine bind_eq_error (.inr ⟨_, next?_eq_ok.mpr
      (.inl ⟨_, _, _, rfl, hasDescription, rfl, rfl⟩), ?_⟩)
    refine bind_eq_error (.inr ⟨_, next?_eq_ok.mpr
      (.inl ⟨_, _, _, rfl, hasSolution, rfl, rfl⟩), ?_⟩)
    refine bind_eq_error (.inr ⟨_, next_eq_ok.mpr ⟨_, _, rfl, hasSizeGoal, rfl⟩, ?_⟩)
    exact bind_eq_error (.inl (next_eq_error (readRuns_doubled again hasRuns)))

/-! ### Texts -/

/-- It does not matter how a puzzle is spelled. A text that is read as a puzzle spells some value.
Every text that spells this value, or one that is the same but for the order of members, for members
that are no fields and for objects that are arrays of their fields, is read as the same puzzle. When
a field is given a second time in such a text, this is the error that is reported, even if the text
is broken behind that. -/
theorem ofText_respelled {text : String} (loads : ofText text = .ok puzzle) :
    ∃ value : Json, value.Spells text ∧
      ∀ other, Relation.ReflTransGen Respelled value other →
        (∀ text, other.Spells text → ofText text = .ok puzzle) ∧
        ∀ name doubled, Doubled name other doubled → ∀ text,
          doubled.Spells text ∨ (Document.ofText text).root = doubled →
            ofText text = .error (.data (.duplicateField name)) := by
  obtain ⟨value, spells, done⟩ := ofText_eq_ok.mp loads
  refine ⟨value, spells, fun other steps => ?_⟩
  have same : ofJson other = .ok puzzle := by
    induction steps with
    | refl => exact done
    | tail _ step inductionHypothesis => exact ofJson_respelled step inductionHypothesis
  refine ⟨fun text spells => ofText_eq_ok.mpr ⟨other, spells, same⟩, ?_⟩
  intro name doubled again text spelled
  have root : (Document.ofText text).root = doubled := by
    rcases spelled with spells | root
    · rw [(Document.ofText_eq_iff.mpr spells).1]
    · exact root
  refine bind_eq_error (.inl ?_)
  rw [root]
  exact ofJson_doubled again same

/-- A puzzle without runs, once as an object, once as an array with blanks, and once with a second
name at which the text ends. -/
theorem ofText_respelled_list :
    ofText "\x7b\"name\":\"a\",\"size_goal\":1,\"runs\":[]\x7d" = .ok ⟨"a", "", "", 1, []⟩ ∧
      ofText " [ \"a\", \"\", \"\", 1, [] ]" = .ok ⟨"a", "", "", 1, []⟩ ∧
      ofText "\x7b\"name\":\"a\",\"name\":" = .error (.data (.duplicateField "name")) := by
  have first : Document.ofText "\x7b\"name\":\"a\",\"size_goal\":1,\"runs\":[]\x7d" =
      ⟨toJson ⟨true, true, fun _ => true⟩ ⟨"a", "", "", 1, []⟩, false⟩ := by
    have symbols : Symbol.ofText "\x7b\"name\":\"a\",\"size_goal\":1,\"runs\":[]\x7d".toList =
        [.openObject, .string (some "name"), .colon, .string (some "a"), .comma,
          .string (some "size_goal"), .colon, .number (some (.integer 1)), .comma,
          .string (some "runs"), .colon, .openArray, .closeArray, .closeObject] := by
      decide +kernel
    rw [Document.ofText, symbols]
    rfl
  have second : Document.ofText " [ \"a\", \"\", \"\", 1, [] ]" =
      ⟨.array [textValue "a", textValue "", textValue "", integerValue 1, .array [] none] none,
        false⟩ := by
    have symbols : Symbol.ofText " [ \"a\", \"\", \"\", 1, [] ]".toList =
        [.openArray, .string (some "a"), .comma, .string (some ""), .comma, .string (some ""),
          .comma, .number (some (.integer 1)), .comma, .openArray, .closeArray, .closeArray] := by
      decide +kernel
    rw [Document.ofText, symbols]
    rfl
  have third : Document.ofText "\x7b\"name\":\"a\",\"name\":" =
      ⟨.object [(some "name", textValue "a"), (some "name", .broken .truncated)]
        (some .truncated), false⟩ := by
    have symbols : Symbol.ofText "\x7b\"name\":\"a\",\"name\":".toList =
        [.openObject, .string (some "name"), .colon, .string (some "a"), .comma,
          .string (some "name"), .colon] := by
      decide +kernel
    rw [Document.ofText, symbols]
    rfl
  have spells := Document.ofText_eq_iff.mp ⟨first, (isWritable_toJson _ _).whole⟩
  have loads := ofText_eq_ok.mpr ⟨_, spells, ofJson_toJson _ _⟩
  obtain ⟨value, spelled, same⟩ := ofText_respelled loads
  -- The value is the one that the text spells.
  have value_eq : value = toJson ⟨true, true, fun _ => true⟩ ⟨"a", "", "", 1, []⟩ :=
    congrArg Document.root ((Document.ofText_eq_iff.mpr spelled).1.symm.trans first)
  subst value_eq
  refine ⟨loads, ?_, ?_⟩
  · refine (same _ (.single (.puzzle (.listed rfl)))).1 _ (Document.ofText_eq_iff.mp ⟨second, ?_⟩)
    exact ⟨⟨trivial, trivial, trivial, trivial, ⟨trivial, rfl⟩, trivial⟩, rfl⟩
  · refine (same _ .refl).2 "name" _ ?_ _ (.inr (congrArg Document.root third))
    exact .puzzle (@Form.Doubled.again _ form "name" [(some "name", textValue "a")] _ [] _ _ _
      (by decide) List.mem_cons_self)

end Puzzle

end ByteStack
