/-
This file says when values and members are read. A value that is read has no
break. A field is read from the members that have its name: it stays unset if
there is none, it is set if there is one that can be read, and everything else
is a failure. So it does not matter where the members of a field stand among the
others.
-/

import ByteStack.Proofs.Json.Document
import ByteStack.Proofs.Success
import Mathlib.Data.List.Forall2

namespace ByteStack.Json

variable {Value Fields : Type} {json : Json} {expected : Expected} {read : Json → Read Value}

/-! ### Values -/

theorem refuse_eq_ok {defect? : Option Defect} : refuse defect? = .ok () ↔ defect? = none := by
  cases defect? with
  | none => exact iff_of_true rfl rfl
  | some defect => exact iff_of_false nofun nofun

theorem checkEnding_eq_ok {ending? : Option Break} :
    checkEnding ending? = .ok () ↔ ending? = none :=
  refuse_eq_ok.trans Option.map_eq_none_iff

/-- A value of another kind is never accepted. -/
theorem mismatch_ne_ok {value : Value} : json.mismatch expected ≠ .ok value := by
  unfold mismatch
  split <;> exact nofun

theorem readText_eq_ok {text : String} : json.readText = .ok text ↔ json = .string (some text) := by
  constructor
  · intro done
    unfold readText at done
    split at done
    · rw [Except.ok.inj done]
    · exact absurd done mismatch_ne_ok
  · rintro rfl
    rfl

theorem readInteger_eq_ok {least greatest value : Int} :
    json.readInteger expected least greatest = .ok value ↔
      json = .number (some (.integer value)) ∧ least ≤ value ∧ value ≤ greatest := by
  constructor
  · intro done
    unfold readInteger at done
    split at done
    · split at done
      · next within =>
        obtain rfl := Except.ok.inj done
        exact ⟨rfl, within⟩
      · exact nomatch done
    · exact absurd done mismatch_ne_ok
  · rintro ⟨rfl, within⟩
    rw [readInteger, if_pos within]

theorem readItems_eq_ok {items : List Json} {values : List Value} :
    readItems read items = .ok values ↔
      List.Forall₂ (fun item value => read item = .ok value) items values := by
  induction items generalizing values with
  | nil =>
    constructor
    · intro done
      exact Except.ok.inj done ▸ .nil
    · rintro ⟨⟩
      rfl
  | cons item rest inductionHypothesis =>
    constructor
    · intro done
      obtain ⟨value, here, done⟩ := bind_eq_ok.mp done
      obtain ⟨others, behind, done⟩ := bind_eq_ok.mp done
      exact Except.ok.inj done ▸ .cons here (inductionHypothesis.mp behind)
    · rintro (_ | ⟨here, behind⟩)
      exact bind_eq_ok.mpr ⟨_, here, bind_eq_ok.mpr ⟨_, inductionHypothesis.mpr behind, rfl⟩⟩

/-- An item may be replaced by one that is read as the same value. -/
theorem readItems_replace {before after : List Json} {item other : Json} {values : List Value}
    (same : ∀ value, read item = .ok value → read other = .ok value)
    (done : readItems read (before ++ item :: after) = .ok values) :
    readItems read (before ++ other :: after) = .ok values := by
  induction before generalizing values with
  | nil =>
    obtain ⟨value, here, done⟩ := bind_eq_ok.mp done
    exact bind_eq_ok.mpr ⟨value, same value here, done⟩
  | cons first rest inductionHypothesis =>
    obtain ⟨value, here, done⟩ := bind_eq_ok.mp done
    obtain ⟨others, behind, done⟩ := bind_eq_ok.mp done
    exact bind_eq_ok.mpr ⟨value, here, bind_eq_ok.mpr ⟨others, inductionHypothesis behind, done⟩⟩

/-- The first item that is refused decides. It may be refused because of what stood in its place. -/
theorem readItems_error {before after rest : List Json} {item other : Json} {values : List Value}
    {error : PuzzleError} (refused : ∀ value, read item = .ok value → read other = .error error)
    (done : readItems read (before ++ item :: after) = .ok values) :
    readItems read (before ++ other :: rest) = .error error := by
  induction before generalizing values with
  | nil =>
    obtain ⟨value, here, _⟩ := bind_eq_ok.mp done
    rw [List.nil_append, readItems, refused value here]
    rfl
  | cons first others inductionHypothesis =>
    obtain ⟨value, here, done⟩ := bind_eq_ok.mp done
    obtain ⟨_, behind, _⟩ := bind_eq_ok.mp done
    rw [List.cons_append, readItems, here, inductionHypothesis behind]
    rfl

theorem readSequence_eq_ok {values : List Value} :
    json.readSequence read = .ok values ↔
      ∃ items, json = .array items none ∧
        List.Forall₂ (fun item value => read item = .ok value) items values := by
  constructor
  · intro done
    unfold readSequence at done
    split at done
    · next items ending? =>
      obtain ⟨values, each, done⟩ := bind_eq_ok.mp done
      obtain ⟨⟨⟩, ends, done⟩ := bind_eq_ok.mp done
      obtain rfl := Except.ok.inj done
      exact ⟨items, by rw [checkEnding_eq_ok.mp ends], readItems_eq_ok.mp each⟩
    · exact absurd done mismatch_ne_ok
  · rintro ⟨items, rfl, each⟩
    exact bind_eq_ok.mpr ⟨_, readItems_eq_ok.mpr each, rfl⟩

/-- What a reader accepts has no break. -/
def AcceptsWhole (read : Json → Read Value) : Prop :=
  ∀ json value, read json = .ok value → json.IsWhole

theorem acceptsWhole_text : AcceptsWhole readText := by
  intro json text done
  rw [readText_eq_ok.mp done]
  trivial

theorem acceptsWhole_integer (least greatest : Int) :
    AcceptsWhole (readInteger expected least greatest) := by
  intro json value done
  rw [(readInteger_eq_ok.mp done).1]
  trivial

theorem acceptsWhole_map {Result : Type} (accepts : AcceptsWhole read) (change : Value → Result) :
    AcceptsWhole fun json => (read json).map change := by
  intro json value done
  obtain ⟨value, done, _⟩ := map_eq_ok.mp done
  exact accepts json value done

theorem acceptsWhole_sequence (accepts : AcceptsWhole read) : AcceptsWhole (readSequence read) := by
  intro json values done
  obtain ⟨items, rfl, each⟩ := readSequence_eq_ok.mp done
  refine ⟨areWhole_iff.mpr fun item member => ?_, rfl⟩
  clear done
  induction each with
  | nil => exact nomatch member
  | cons here behind inductionHypothesis =>
    rcases List.mem_cons.mp member with rfl | later
    · exact accepts _ _ here
    · exact inductionHypothesis later

theorem acceptsWhole_cycles : AcceptsWhole readCycles? := by
  intro json value done
  unfold readCycles? at done
  split at done
  · trivial
  · exact acceptsWhole_map (acceptsWhole_integer _ _) _ _ _ done

/-! ### Members of a field -/

/-- The values of the members with a name. -/
def valuesOf (name : String) (members : List Member) : List Json :=
  members.filterMap fun member => if member.1 = some name then some member.2 else none

/-- A field is unset when there is no value for it. It is set when there is one that can be
read. -/
inductive ReadsOnce (read : Json → Read Value) : List Json → Option Value → Prop where
  | unset : ReadsOnce read [] none
  | set {json : Json} {value : Value} (done : read json = .ok value) :
      ReadsOnce read [json] (some value)

variable {name : String} {members front back : List Member}

theorem valuesOf_append (name : String) (front back : List Member) :
    valuesOf name (front ++ back) = valuesOf name front ++ valuesOf name back :=
  List.filterMap_append

theorem valuesOf_self (name : String) (value : Json) (members : List Member) :
    valuesOf name ((some name, value) :: members) = value :: valuesOf name members :=
  List.filterMap_cons_some (if_pos rfl)

theorem valuesOf_ne {member : Member} (other : member.1 ≠ some name) (members : List Member) :
    valuesOf name (member :: members) = valuesOf name members :=
  List.filterMap_cons_none (if_neg other)

theorem mem_valuesOf {value : Json} (member : (some name, value) ∈ members) :
    value ∈ valuesOf name members :=
  List.mem_filterMap.mpr ⟨_, member, if_pos rfl⟩

/-- The order of members does not matter to a field. -/
theorem ReadsOnce.perm {other : List Member} {field? : Option Value} (same : members.Perm other)
    (once : ReadsOnce read (valuesOf name members) field?) :
    ReadsOnce read (valuesOf name other) field? := by
  have values := same.filterMap fun member =>
    if member.1 = some name then some member.2 else none
  generalize before : valuesOf name members = list at once
  rw [valuesOf] at before
  rw [before] at values
  cases once with
  | unset =>
    rw [valuesOf, List.nil_perm.mp values]
    exact .unset
  | set done =>
    rw [valuesOf, ← List.singleton_perm.mp values]
    exact .set done

/-- A member behind the others sets its field, if nothing has set it. -/
theorem ReadsOnce.concat_self {value : Json} {field? : Option Value} :
    ReadsOnce read (valuesOf name (members ++ [(some name, value)])) field? ↔
      ∃ before?, ReadsOnce read (valuesOf name members) before? ∧
        setOnce name before? read value = .ok field? := by
  have last : valuesOf name [(some name, value)] = [value] := valuesOf_self name value []
  rw [valuesOf_append, last]
  generalize valuesOf name members = values
  constructor
  · intro once
    generalize whole : values ++ [value] = list at once
    cases once with
    | unset => exact nomatch List.append_eq_nil_iff.mp whole
    | set done =>
      cases values with
      | nil =>
        obtain rfl := (List.cons.inj whole).1
        exact ⟨none, .unset, map_eq_ok.mpr ⟨_, done, rfl⟩⟩
      | cons first rest => exact nomatch List.append_eq_nil_iff.mp (List.cons.inj whole).2
  · rintro ⟨_, once, done⟩
    cases once with
    | unset =>
      obtain ⟨value, accepted, rfl⟩ := map_eq_ok.mp done
      exact .set accepted
    | set => exact nomatch done

/-- A member with another name does not matter to a field. -/
theorem ReadsOnce.concat_ne {other : String} {value : Json} {field? : Option Value}
    (different : other ≠ name) :
    ReadsOnce read (valuesOf name (members ++ [(some other, value)])) field? ↔
      ReadsOnce read (valuesOf name members) field? := by
  have apart : (some other, value).1 ≠ some name := fun same => different (Option.some.inj same)
  have none : valuesOf name [(some other, value)] = [] := valuesOf_ne apart []
  rw [valuesOf_append, none, List.append_nil]

/-- A field that is set may not be set again. -/
theorem setOnce_of_ne_nil {values : List Json} {field? : Option Value} (some : values ≠ [])
    (once : ReadsOnce read values field?) (value : Json) :
    setOnce name field? read value = .error (.data (.duplicateField name)) := by
  cases once with
  | unset => exact absurd rfl some
  | set => rfl

/-! ### Members in order -/

variable {set : Fields → String → Json → Read Fields} {fields last : Fields}

theorem readMembers_append (set : Fields → String → Json → Read Fields) (fields : Fields)
    (front back : List Member) :
    readMembers set fields (front ++ back) =
      (readMembers set fields front) >>= fun fields => readMembers set fields back := by
  induction front generalizing fields with
  | nil => rfl
  | cons member rest inductionHypothesis =>
    obtain ⟨name?, value⟩ := member
    cases name? with
    | none => rfl
    | some name =>
      rw [List.cons_append, readMembers, readMembers]
      cases set fields name value with
      | error error => rfl
      | ok next => exact inductionHypothesis next

/-- The last member comes after the fields that the others have set. -/
theorem readMembers_concat {member : Member} :
    readMembers set fields (members ++ [member]) = .ok last ↔
      ∃ before name, readMembers set fields members = .ok before ∧ member.1 = some name ∧
        set before name member.2 = .ok last := by
  obtain ⟨name?, value⟩ := member
  rw [readMembers_append]
  constructor
  · intro done
    obtain ⟨before, front, done⟩ := bind_eq_ok.mp done
    cases name? with
    | none => exact nomatch done
    | some name =>
      refine ⟨before, name, front, rfl, ?_⟩
      rw [readMembers] at done
      split at done
      · next same => exact same.trans done
      · exact nomatch done
  · rintro ⟨before, name, front, rfl, done⟩
    refine bind_eq_ok.mpr ⟨before, front, ?_⟩
    rw [readMembers, done]
    rfl

end ByteStack.Json
