/-
This file is the table of labels in the form in which an assembler keeps it: an
index by name into the entries, which stand in the order in which their names
came up, with addresses and sites of sixteen bits.

As long as the index leads from each name to its entry, and nowhere else, a
change through the index is a change in the plain list of labels.
-/

import ByteStack.Assembly.Error
import ByteStack.Proofs.Assembly.Label

namespace ByteStack

/-! ### Entries -/

structure LabelEntry where
  name : String
  /-- The offset of the instruction that the label names, once it is defined. -/
  address? : Option UInt16
  /-- The character position of the first instruction that uses the label. -/
  firstUse? : Option Nat
  /-- The offsets of the pairs of bytes that wait for the address, the earliest first. -/
  sites : List UInt16

namespace LabelEntry

/-- The entry of a name of which nothing else is known. -/
def named (name : String) : LabelEntry :=
  ⟨name, none, none, []⟩

def setAddress (address : UInt16) (entry : LabelEntry) : LabelEntry :=
  { entry with address? := some address }

/-- One more site. Only the first use of a label is remembered. -/
def addSite (site : UInt16) (position : Nat) (entry : LabelEntry) : LabelEntry :=
  { entry with
    firstUse? := some (entry.firstUse?.getD position)
    sites := entry.sites ++ [site] }

/-- What the entry says, with numbers of any size. -/
def label (entry : LabelEntry) : Label :=
  ⟨entry.name, entry.address?.map UInt16.toNat, entry.firstUse?,
    (entry.sites.map UInt16.toNat).reverse⟩

end LabelEntry

/-! ### Tables -/

structure LabelTable where
  /-- Where the entry of a name stands. -/
  index : Std.HashMap String Nat
  entries : Array LabelEntry

namespace LabelTable

def empty : LabelTable :=
  ⟨∅, #[]⟩

/-- The place of the entry of a name. A name that is new gets an entry behind all others. -/
def enter (table : LabelTable) (name : String) : LabelTable × Nat :=
  match table.index[name]? with
  | some place => (table, place)
  | none =>
    (⟨table.index.insert name table.entries.size, table.entries.push (.named name)⟩,
      table.entries.size)

/-- Changes the entry of a name. -/
def edit (table : LabelTable) (name : String) (change : LabelEntry → LabelEntry) : LabelTable :=
  let (table, place) := table.enter name
  { table with entries := table.entries.modify place change }

/-- Gives a label its address, unless it has one. -/
def define (table : LabelTable) (name : String) (address : UInt16) :
    LabelTable × Option AssemblyFault :=
  let (entered, place) := table.enter name
  if (entered.entries[place]?.bind LabelEntry.address?).isSome then
    (entered, some (.labelReset name))
  else (table.edit name (.setAddress address), none)

/-- What the table says, as a list. -/
def labels (table : LabelTable) : List Label :=
  table.entries.toList.map LabelEntry.label

/-- The offsets of all pairs of bytes that wait for an address. -/
def sites (table : LabelTable) : List Nat :=
  table.entries.toList.flatMap fun entry => entry.sites.map UInt16.toNat

/-- The index leads from a name to the one entry of that name. -/
def Indexed (table : LabelTable) : Prop :=
  ∀ name place, table.index[name]? = some place ↔
    ∃ entry : LabelEntry, table.entries[place]? = some entry ∧ entry.name = name

end LabelTable

/-! ### Changing one of several labels -/

namespace Label

variable {name : String} {change : Label → Label} {label : Label} {before after : List Label}

theorem update_append (others : ∀ other ∈ before, other.name ≠ name) :
    update name change (before ++ after) = before ++ update name change after := by
  induction before with
  | nil => rfl
  | cons first rest inductionHypothesis =>
    obtain ⟨here, later⟩ := List.forall_mem_cons.mp others
    rw [List.cons_append, update, if_neg here, inductionHypothesis later, List.cons_append]

theorem find?_append (others : ∀ other ∈ before, other.name ≠ name) :
    find? name (before ++ after) = find? name after := by
  induction before with
  | nil => rfl
  | cons first rest inductionHypothesis =>
    obtain ⟨here, later⟩ := List.forall_mem_cons.mp others
    rw [List.cons_append, find?_cons, if_neg here, inductionHypothesis later]

end Label

theorem modify_middle {Element : Type} (before after : List Element) (element : Element)
    (change : Element → Element) :
    (before ++ element :: after).modify before.length change =
      before ++ change element :: after := by
  induction before with
  | nil => rfl
  | cons first rest inductionHypothesis =>
    rw [List.cons_append, List.length_cons, List.modify_succ_cons, inductionHypothesis,
      List.cons_append]

namespace LabelTable

variable {table : LabelTable} {name : String} {place : Nat}

/-! ### Looking up -/

theorem indexed_empty : empty.Indexed := by
  intro name place
  simp [empty]

/-- A name that the index does not know has no entry. -/
theorem Indexed.fresh_of_none (indexed : table.Indexed) (unknown : table.index[name]? = none) :
    ∀ entry ∈ table.entries.toList, entry.name ≠ name := by
  intro entry member same
  obtain ⟨place, there⟩ := Array.mem_iff_getElem?.mp (Array.mem_toList_iff.mp member)
  exact nomatch unknown.symm.trans ((indexed name place).mpr ⟨entry, there, same⟩)

/-- Where the index leads, the entry of the name stands behind entries of other names. -/
theorem Indexed.exists_split (indexed : table.Indexed) (known : table.index[name]? = some place) :
    ∃ before entry after, table.entries.toList = before ++ entry :: after ∧
      before.length = place ∧ entry.name = name ∧ ∀ other ∈ before, other.name ≠ name := by
  obtain ⟨entry, there, same⟩ := (indexed name place).mp known
  rw [← Array.getElem?_toList] at there
  obtain ⟨inside, here⟩ := List.getElem?_eq_some_iff.mp there
  refine ⟨table.entries.toList.take place, entry, table.entries.toList.drop (place + 1), ?_,
    List.length_take_of_le (Nat.le_of_lt inside), same, ?_⟩
  · rw [← here, ← List.drop_eq_getElem_cons inside, List.take_append_drop]
  · intro other member also
    obtain ⟨earlier, low, found⟩ := List.mem_take_iff_getElem.mp member
    have places : table.index[name]? = some earlier :=
      (indexed name earlier).mpr ⟨other, by
        rw [← Array.getElem?_toList, ← found]
        exact List.getElem?_eq_getElem _, also⟩
    have equal := Option.some.inj (known.symm.trans places)
    omega

/-- After a name has been entered it has an entry, behind entries of other names only. -/
theorem Indexed.exists_enter (indexed : table.Indexed) (name : String) :
    ∃ before entry after, (table.enter name).1.entries.toList = before ++ entry :: after ∧
      (table.enter name).2 = before.length ∧ entry.name = name ∧
      (∀ other ∈ before, other.name ≠ name) ∧
      (table.entries.toList = before ++ entry :: after ∨
        table.entries.toList = before ∧ entry = .named name ∧ after = []) := by
  unfold enter
  cases known : table.index[name]? with
  | some place =>
    obtain ⟨before, entry, after, split, rfl, same, others⟩ := indexed.exists_split known
    exact ⟨before, entry, after, split, rfl, same, others, Or.inl split⟩
  | none =>
    exact ⟨table.entries.toList, .named name, [], Array.toList_push, Array.length_toList.symm, rfl,
      indexed.fresh_of_none known, Or.inr ⟨rfl, rfl, rfl⟩⟩

theorem map_name_labels (table : LabelTable) :
    table.labels.map Label.name = table.entries.toList.map LabelEntry.name := by
  rw [labels, List.map_map]
  rfl

/-- No two entries have the same name. -/
theorem Indexed.nodup (indexed : table.Indexed) : (table.labels.map Label.name).Nodup := by
  rw [map_name_labels, List.nodup_iff_getElem?_ne_getElem?]
  intro first second ordered inside same
  rw [List.length_map] at inside
  rw [List.getElem?_map, List.getElem?_map, List.getElem?_eq_getElem inside,
    List.getElem?_eq_getElem (Nat.lt_trans ordered inside)] at same
  have leads (place : Nat) (inside : place < table.entries.toList.length) :
      table.index[table.entries.toList[place].name]? = some place :=
    (indexed _ _).mpr ⟨_, by rw [← Array.getElem?_toList, List.getElem?_eq_getElem inside], rfl⟩
  have one := leads first (Nat.lt_trans ordered inside)
  rw [show table.entries.toList[first].name = _ from Option.some.inj same,
    leads second inside] at one
  exact Nat.ne_of_gt ordered (Option.some.inj one)

/-- Every entry is found under its name. -/
theorem Indexed.find?_label (indexed : table.Indexed) {entry : LabelEntry}
    (member : entry ∈ table.entries) : Label.find? entry.name table.labels = some entry.label :=
  Label.find?_of_mem indexed.nodup (List.mem_map_of_mem (Array.mem_toList_iff.mpr member))

/-! ### Changing an entry -/

theorem Indexed.enter (indexed : table.Indexed) (name : String) : (table.enter name).1.Indexed := by
  unfold LabelTable.enter
  cases known : table.index[name]? with
  | some place => exact indexed
  | none =>
    intro other place
    show (table.index.insert name table.entries.size)[other]? = some place ↔
      ∃ entry, (table.entries.push (.named name))[place]? = some entry ∧ entry.name = other
    rw [Std.HashMap.getElem?_insert, Array.getElem?_push]
    by_cases last : place = table.entries.size
    · subst last
      rw [if_pos rfl]
      by_cases same : name = other
      · subst same
        simp [LabelEntry.named]
      · have out : table.index[other]? ≠ some table.entries.size := by
          intro there
          obtain ⟨entry, found, _⟩ := (indexed other _).mp there
          have none : table.entries[table.entries.size]? = none := Array.getElem?_size
          exact nomatch none.symm.trans found
        simp [same, out, LabelEntry.named]
    · rw [if_neg last]
      by_cases same : name = other
      · subst same
        have none : ∀ entry, table.entries[place]? = some entry → entry.name ≠ name :=
          fun entry there => indexed.fresh_of_none known entry
            (Array.mem_toList_iff.mpr (Array.mem_of_getElem? there))
        simpa [Ne.symm last] using none
      · simp only [beq_iff_eq, same, if_false]
        exact indexed other place

theorem Indexed.modify (indexed : table.Indexed) (place : Nat) {change : LabelEntry → LabelEntry}
    (keeps : ∀ entry, (change entry).name = entry.name) :
    LabelTable.Indexed { table with entries := table.entries.modify place change } := by
  intro name other
  rw [indexed name other]
  show _ ↔ ∃ entry, (table.entries.modify place change)[other]? = some entry ∧ entry.name = name
  rw [Array.getElem?_modify]
  by_cases same : place = other
  · rw [if_pos same]
    simp [keeps]
  · rw [if_neg same]

theorem Indexed.edit (indexed : table.Indexed) (name : String) {change : LabelEntry → LabelEntry}
    (keeps : ∀ entry, (change entry).name = entry.name) : (table.edit name change).Indexed :=
  (indexed.enter name).modify _ keeps

/-- A change through the index is a change in the list of labels. -/
theorem Indexed.labels_edit (indexed : table.Indexed) (name : String)
    {change : LabelEntry → LabelEntry} {changeLabel : Label → Label}
    (agrees : ∀ entry, (change entry).label = changeLabel entry.label) :
    (table.edit name change).labels = Label.update name changeLabel table.labels := by
  obtain ⟨before, entry, after, split, place, same, others, origin⟩ := indexed.exists_enter name
  have edited : (table.edit name change).labels =
      before.map LabelEntry.label ++ changeLabel entry.label :: after.map LabelEntry.label := by
    show ((table.enter name).1.entries.modify (table.enter name).2 change).toList.map _ = _
    rw [Array.toList_modify, split, place, modify_middle, List.map_append, List.map_cons, agrees]
  have others : ∀ other ∈ before.map LabelEntry.label, other.name ≠ name :=
    List.forall_mem_map.mpr others
  rw [edited, labels]
  rcases origin with whole | ⟨rfl, rfl, rfl⟩
  · rw [whole, List.map_append, List.map_cons, Label.update_append others, Label.update,
      if_pos (show entry.label.name = name from same)]
  · have last :
        Label.update name changeLabel (table.entries.toList.map LabelEntry.label ++ []) = _ :=
      Label.update_append others
    rw [List.append_nil] at last
    rw [last, Label.update]
    rfl

/-- Only a label that has an address is refused one. -/
theorem Indexed.define_eq (indexed : table.Indexed) (name : String) (address : UInt16) :
    table.define name address =
      if Label.isDefined name table.labels then (table, some (.labelReset name))
      else (table.edit name (.setAddress address), none) := by
  unfold define LabelTable.enter
  cases known : table.index[name]? with
  | some place =>
    obtain ⟨before, entry, after, split, rfl, same, others⟩ := indexed.exists_split known
    have there : table.entries[before.length]? = some entry := by
      rw [← Array.getElem?_toList, split, List.getElem?_append_right (Nat.le_refl _), Nat.sub_self]
      rfl
    have found : Label.find? name table.labels = some entry.label := by
      rw [labels, split, List.map_append, List.map_cons,
        Label.find?_append (List.forall_mem_map.mpr others), Label.find?_cons,
        if_pos (show entry.label.name = name from same)]
    dsimp only
    rw [there, Label.isDefined, found]
    cases entry.address? with
    | some address => simp [LabelEntry.label]
    | none => simp [LabelEntry.label]
  | none =>
    have others : ∀ other ∈ table.labels, other.name ≠ name :=
      List.forall_mem_map.mpr (indexed.fresh_of_none known)
    have unknown : Label.find? name table.labels = none := by
      rw [← List.append_nil table.labels, Label.find?_append others]
      rfl
    dsimp only
    rw [Array.getElem?_push_size, Label.isDefined, unknown]
    rfl

end LabelTable

end ByteStack
