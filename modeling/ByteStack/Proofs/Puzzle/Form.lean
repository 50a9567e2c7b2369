/-
This file is about objects with fields. Such an object is read member by member.
A member with the name of a field sets it, and a member with another name is
skipped. What has been set in the end is told by the members of each field
alone. So the order of members does not matter, nor do members with other names,
and a field that has a second member is refused there.
-/

import ByteStack.Proofs.Puzzle.Member
import Mathlib.Data.List.Nodup

namespace ByteStack.Json

variable {Fields : Type} {members front back : List Member} {fields last : Fields}

/-! ### Fields -/

/-- A field of an object, and where its value is kept among those that have been set. -/
structure NamedField (Fields : Type) where
  name : String
  /-- What a missing value stands for. -/
  default? : Option Json
  Value : Type
  read : Json → Read Value
  get : Fields → Option Value
  put : Fields → Option Value → Fields

/-- The fields of an object in order, and how its members set them. -/
structure Form (Fields : Type) where
  list : List (NamedField Fields)
  empty : Fields
  set : Fields → String → Json → Read Fields
  nodup : (list.map NamedField.name).Nodup
  /-- A member sets the field that has its name. -/
  set_field : ∀ field ∈ list, ∀ fields value, set fields field.name value =
    (setOnce field.name (field.get fields) field.read value).map (field.put fields)
  /-- A member with another name is skipped. -/
  set_other : ∀ name ∉ list.map NamedField.name, ∀ fields value,
    set fields name value = (refuse (skip? value)).map fun _ => fields
  get_put : ∀ field ∈ list, ∀ fields value?, field.get (field.put fields value?) = value?
  get_put_ne : ∀ field ∈ list, ∀ other ∈ list, field.name ≠ other.name → ∀ fields value?,
    other.get (field.put fields value?) = other.get fields
  put_put_get : ∀ field ∈ list, ∀ fields value?,
    field.put (field.put fields value?) (field.get fields) = fields
  /-- No field of an empty object is set. -/
  eq_empty_iff : ∀ fields, fields = empty ↔ ∀ field ∈ list, field.get fields = none

namespace Form

variable {form : Form Fields} {field : NamedField Fields}

def names (form : Form Fields) : List String :=
  form.list.map NamedField.name

/-- A member with a name of its own either gives a field, or may hold anything that is not
broken. -/
def Admits (form : Form Fields) (member : Member) : Prop :=
  ∃ name, member.1 = some name ∧ (name ∈ form.names ∨ member.2.IsWhole)

/-- The members set these fields. -/
structure SetBy (form : Form Fields) (members : List Member) (fields : Fields) : Prop where
  admits : ∀ member ∈ members, form.Admits member
  once : ∀ field ∈ form.list,
    ReadsOnce field.read (valuesOf field.name members) (field.get fields)

/-- Fields are told apart by their names. -/
theorem eq_of_name_eq {other : NamedField Fields} (here : field ∈ form.list)
    (there : other ∈ form.list) (same : field.name = other.name) : field = other :=
  List.inj_on_of_nodup_map form.nodup here there same

theorem name_mem (member : field ∈ form.list) : field.name ∈ form.names :=
  List.mem_map_of_mem member

/-! ### Member by member -/

theorem setBy_nil : form.SetBy [] fields ↔ fields = form.empty := by
  rw [form.eq_empty_iff]
  constructor
  · intro set field member
    have once := set.once field member
    generalize field.get fields = field? at once
    cases once
    rfl
  · intro none
    refine ⟨List.forall_mem_nil _, fun field member => ?_⟩
    rw [none field member]
    exact .unset

/-- One more member sets its field, or is skipped. -/
theorem SetBy.concat {name : String} {value : Json} (set : form.SetBy members fields)
    (done : form.set fields name value = .ok last) :
    form.SetBy (members ++ [(some name, value)]) last := by
  have admits (known : name ∈ form.names ∨ value.IsWhole) :
      ∀ member ∈ members ++ [(some name, value)], form.Admits member :=
    List.forall_mem_append.mpr
      ⟨set.admits, List.forall_mem_singleton.mpr ⟨name, rfl, known⟩⟩
  by_cases isField : name ∈ form.names
  · obtain ⟨field, listed, rfl⟩ := List.mem_map.mp isField
    rw [form.set_field field listed] at done
    obtain ⟨field?, accepted, rfl⟩ := map_eq_ok.mp done
    refine ⟨admits (.inl isField), fun other also => ?_⟩
    by_cases same : field.name = other.name
    · obtain rfl := eq_of_name_eq listed also same
      rw [form.get_put field listed]
      exact ReadsOnce.concat_self.mpr ⟨_, set.once field listed, accepted⟩
    · rw [form.get_put_ne field listed other also same]
      exact (ReadsOnce.concat_ne same).mpr (set.once other also)
  · rw [form.set_other name isField] at done
    obtain ⟨⟨⟩, skipped, rfl⟩ := map_eq_ok.mp done
    have whole := (skip?_eq_none_iff value).mp (refuse_eq_ok.mp skipped)
    refine ⟨admits (.inr whole), fun other also => ?_⟩
    have different : name ≠ other.name := fun same => isField (same ▸ name_mem also)
    exact (ReadsOnce.concat_ne different).mpr (set.once other also)

/-- What was set before the last member. -/
theorem SetBy.exists_of_concat {member : Member} (set : form.SetBy (members ++ [member]) last) :
    ∃ before name, form.SetBy members before ∧ member.1 = some name ∧
      form.set before name member.2 = .ok last := by
  obtain ⟨front, here⟩ := List.forall_mem_append.mp set.admits
  obtain ⟨name?, value⟩ := member
  obtain ⟨name, rfl, known⟩ := here _ List.mem_cons_self
  by_cases isField : name ∈ form.names
  · obtain ⟨field, listed, rfl⟩ := List.mem_map.mp isField
    obtain ⟨before?, once, done⟩ := ReadsOnce.concat_self.mp (set.once field listed)
    refine ⟨field.put last before?, _, ⟨front, fun other also => ?_⟩, rfl, ?_⟩
    · by_cases same : field.name = other.name
      · obtain rfl := eq_of_name_eq listed also same
        rw [form.get_put field listed]
        exact once
      · rw [form.get_put_ne field listed other also same]
        exact (ReadsOnce.concat_ne same).mp (set.once other also)
    · rw [form.set_field field listed, form.get_put field listed, done]
      exact congrArg Except.ok (form.put_put_get field listed last before?)
  · refine ⟨last, name, ⟨front, fun other also => ?_⟩, rfl, ?_⟩
    · have different : name ≠ other.name := fun same => isField (same ▸ name_mem also)
      exact (ReadsOnce.concat_ne different).mp (set.once other also)
    · have whole := (skip?_eq_none_iff value).mpr (known.resolve_left isField)
      rw [form.set_other name isField, refuse_eq_ok.mpr whole]
      rfl

theorem setBy_concat {member : Member} :
    form.SetBy (members ++ [member]) last ↔
      ∃ before name, form.SetBy members before ∧ member.1 = some name ∧
        form.set before name member.2 = .ok last := by
  refine ⟨SetBy.exists_of_concat, ?_⟩
  obtain ⟨name?, value⟩ := member
  rintro ⟨before, name, set, rfl, done⟩
  exact set.concat done

/-- Members are read just when they set fields. -/
theorem readMembers_eq_ok :
    readMembers form.set form.empty members = .ok fields ↔ form.SetBy members fields := by
  induction members using List.reverseRecOn generalizing fields with
  | nil =>
    rw [setBy_nil]
    exact ⟨fun done => (Except.ok.inj done).symm, fun same => same ▸ rfl⟩
  | append_singleton front member inductionHypothesis =>
    rw [readMembers_concat, setBy_concat]
    simp only [inductionHypothesis]

/-! ### Spelling an object differently -/

theorem SetBy.perm {other : List Member} (set : form.SetBy members fields)
    (same : members.Perm other) : form.SetBy other fields :=
  ⟨fun member found => set.admits member (same.mem_iff.mpr found),
    fun field listed => (set.once field listed).perm same⟩

/-- A member that gives no field is skipped wherever it stands. -/
theorem SetBy.insert {name : String} {value : Json} (set : form.SetBy (front ++ back) fields)
    (other : name ∉ form.names) (whole : value.IsWhole) :
    form.SetBy (front ++ (some name, value) :: back) fields := by
  have skipped : form.set fields name value = .ok fields := by
    rw [form.set_other name other, refuse_eq_ok.mpr ((skip?_eq_none_iff value).mpr whole)]
    rfl
  refine (set.concat skipped).perm ?_
  rw [List.append_assoc]
  exact List.Perm.append_left front (List.perm_append_singleton _ _)

theorem membersWhole (accepts : ∀ field ∈ form.list, AcceptsWhole field.read)
    (set : form.SetBy members fields) : MembersWhole members := by
  refine membersWhole_iff.mpr fun member found => ?_
  obtain ⟨name, named, known⟩ := set.admits member found
  rcases known with isField | whole
  · obtain ⟨field, listed, rfl⟩ := List.mem_map.mp isField
    have value := mem_valuesOf (show (some field.name, member.2) ∈ members from named ▸ found)
    have once := set.once field listed
    generalize valuesOf field.name members = values at value once
    generalize field.get fields = field? at once
    cases once with
    | unset => exact nomatch value
    | set done =>
      rw [List.mem_singleton.mp value]
      exact accepts field listed _ _ done
  · exact whole

/-- The value of each field in order, with defaults for those that are missing. -/
def values? (form : Form Fields) (members : List Member) : Option (List Json) :=
  form.list.mapM fun field => (valuesOf field.name members).head?.or field.default?

theorem forall₂_of_values? {values : List Json} (complete : form.values? members = some values) :
    List.Forall₂ (fun field value =>
      (valuesOf field.name members).head?.or field.default? = some value) form.list values := by
  unfold values? at complete
  generalize form.list = list at complete
  induction list generalizing values with
  | nil =>
    obtain rfl := Option.some.inj complete
    exact .nil
  | cons field rest inductionHypothesis =>
    rw [List.mapM_cons, Option.bind_eq_bind, Option.bind_eq_some_iff] at complete
    obtain ⟨value, given, complete⟩ := complete
    obtain ⟨others, each, same⟩ := Option.bind_eq_some_iff.mp complete
    obtain rfl := Option.some.inj same
    exact .cons given (inductionHypothesis each)

/-- The second value is the first one, spelled differently: members in another order, with another
member that gives no field, or as an array of the values of all fields. -/
inductive Respelled (form : Form Fields) : Json → Json → Prop where
  | reordered {members other : List Member} (same : members.Perm other) :
      Respelled form (.object members none) (.object other none)
  | extended {front back : List Member} {name : String} {value : Json}
      (other : name ∉ form.names) (whole : value.IsWhole) :
      Respelled form (.object (front ++ back) none)
        (.object (front ++ (some name, value) :: back) none)
  | listed {members : List Member} {values : List Json}
      (complete : form.values? members = some values) :
      Respelled form (.object members none) (.array values none)

/-- What is read of the fields of an object, and of the array of these fields as well, does not
depend on the spelling. -/
theorem Respelled.reads {Value : Type} {read : Json → Read Value} {accepted : Value}
    {finish : Fields → Read Value} {value other : Json} (step : form.Respelled value other)
    (object : ∀ members, read (.object members none) = .ok accepted ↔
      ∃ fields, form.SetBy members fields ∧ finish fields = .ok accepted)
    (array : ∀ members values, form.values? members = some values →
      read (.object members none) = .ok accepted → read (.array values none) = .ok accepted)
    (done : read value = .ok accepted) : read other = .ok accepted := by
  cases step with
  | reordered same =>
    obtain ⟨fields, set, done⟩ := (object _).mp done
    exact (object _).mpr ⟨fields, set.perm same, done⟩
  | extended notField whole =>
    obtain ⟨fields, set, done⟩ := (object _).mp done
    exact (object _).mpr ⟨fields, set.insert notField whole, done⟩
  | listed complete => exact array _ _ complete done

/-! ### Giving a field twice -/

/-- The second value begins as the first one, and then gives a field again. What stands behind that
may even be broken. -/
inductive Doubled (form : Form Fields) (name : String) : Json → Json → Prop where
  | again {front back rest : List Member} {value second : Json} {ending? : Option Break}
      (isField : name ∈ form.names) (first : (some name, value) ∈ front) :
      Doubled form name (.object (front ++ back) none)
        (.object (front ++ (some name, second) :: rest) ending?)

theorem readMembers_doubled {name : String} {value second : Json} {rest : List Member}
    (isField : name ∈ form.names) (first : (some name, value) ∈ front)
    (set : form.SetBy (front ++ back) fields) :
    readMembers form.set form.empty (front ++ (some name, second) :: rest) =
      .error (.data (.duplicateField name)) := by
  have done := readMembers_eq_ok.mpr set
  rw [readMembers_append] at done
  obtain ⟨before, read, _⟩ := bind_eq_ok.mp done
  obtain ⟨field, listed, rfl⟩ := List.mem_map.mp isField
  have once := (readMembers_eq_ok.mp read).once field listed
  have given := List.ne_nil_of_mem (mem_valuesOf first)
  have refused : form.set before field.name second =
      .error (.data (.duplicateField field.name)) := by
    rw [form.set_field field listed, setOnce_of_ne_nil given once]
    rfl
  rw [readMembers_append]
  refine bind_eq_error (.inr ⟨before, read, ?_⟩)
  rw [readMembers, refused]

/-! ### Changing the value of a field -/

/-- Only the members of a field may give it, and there may be one only. -/
theorem SetBy.alone {value : Json} (listed : field ∈ form.list)
    (set : form.SetBy (front ++ (some field.name, value) :: back) fields) :
    valuesOf field.name front = [] ∧ valuesOf field.name back = [] ∧
      ∃ accepted, field.read value = .ok accepted ∧ field.get fields = some accepted := by
  have once := set.once field listed
  rw [valuesOf_append, valuesOf_self] at once
  generalize whole : valuesOf field.name front ++ value :: valuesOf field.name back = values at once
  generalize field.get fields = field? at once
  cases once with
  | unset => exact nomatch List.append_eq_nil_iff.mp whole
  | @set _ accepted done =>
    obtain ⟨none, same⟩ | ⟨_, same⟩ := List.append_eq_singleton_iff.mp whole
    · obtain ⟨rfl, rest⟩ := List.cons.inj same
      exact ⟨none, rest, accepted, done, rfl⟩
    · exact nomatch same

/-- The value of a field may be replaced by one that is read as the same. -/
theorem SetBy.replace {value other : Json} (listed : field ∈ form.list)
    (same : ∀ accepted, field.read value = .ok accepted → field.read other = .ok accepted)
    (set : form.SetBy (front ++ (some field.name, value) :: back) fields) :
    form.SetBy (front ++ (some field.name, other) :: back) fields := by
  obtain ⟨noFront, noBack, accepted, done, accepts⟩ := set.alone listed
  obtain ⟨admitsFront, admits⟩ := List.forall_mem_append.mp set.admits
  refine ⟨List.forall_mem_append.mpr ⟨admitsFront, List.forall_mem_cons.mpr
    ⟨⟨_, rfl, .inl (name_mem listed)⟩, (List.forall_mem_cons.mp admits).2⟩⟩, fun next also => ?_⟩
  by_cases here : field.name = next.name
  · obtain rfl := eq_of_name_eq listed also here
    rw [valuesOf_append, valuesOf_self, noFront, noBack, accepts]
    exact .set (same accepted done)
  · have once := set.once next also
    have apart {value : Json} : (some field.name, value).1 ≠ some next.name :=
      fun equal => here (Option.some.inj equal)
    rw [valuesOf_append, valuesOf_ne apart] at once
    rw [valuesOf_append, valuesOf_ne apart]
    exact once

/-- The first value that is refused decides. It may be refused because of what stood in its
place. -/
theorem readMembers_error {value other : Json} {rest : List Member} {error : PuzzleError}
    (listed : field ∈ form.list)
    (refused : ∀ accepted, field.read value = .ok accepted → field.read other = .error error)
    (set : form.SetBy (front ++ (some field.name, value) :: back) fields) :
    readMembers form.set form.empty (front ++ (some field.name, other) :: rest) =
      .error error := by
  obtain ⟨noFront, _, accepted, accepts, _⟩ := set.alone listed
  have done := readMembers_eq_ok.mpr set
  rw [readMembers_append] at done
  obtain ⟨before, read, _⟩ := bind_eq_ok.mp done
  have once := (readMembers_eq_ok.mp read).once field listed
  rw [noFront] at once
  have unset : field.get before = none := by
    generalize field.get before = field? at once
    cases once
    rfl
  have fails : form.set before field.name other = .error error := by
    rw [form.set_field field listed, unset, setOnce, refused accepted accepts]
    rfl
  rw [readMembers_append]
  refine bind_eq_error (.inr ⟨before, read, ?_⟩)
  rw [readMembers, fails]

end Form

end ByteStack.Json
