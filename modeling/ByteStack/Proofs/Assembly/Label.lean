/-
This file is about the table of labels on its own: what a change of one label
does to a look-up, and what it means to write addresses into the holes of the
code. Filling can be stated for any assignment of addresses to names. That is
what makes it follow the emission of code: whatever the addresses will be, the
code that is emitted so far becomes its final form once they are written into
the holes noted so far.
-/

import ByteStack.Assembly.Resolution
import Mathlib.Data.List.Nodup

namespace ByteStack.Label

variable {name other : String} {change : Label → Label} {labels : List Label}

/-! ### Looking up -/

theorem find?_cons (label : Label) :
    find? name (label :: labels) = if label.name = name then some label else find? name labels := by
  unfold find?
  rw [List.find?_cons]
  by_cases same : label.name = name
  · rw [if_pos same, beq_iff_eq.mpr same]
  · rw [if_neg same, beq_eq_false_iff_ne.mpr same]

/-- In a table that has each name once, every label is found under its name. -/
theorem find?_of_mem {label : Label} (distinct : (labels.map Label.name).Nodup)
    (member : label ∈ labels) : find? label.name labels = some label := by
  induction labels with
  | nil => exact nomatch member
  | cons first rest inductionHypothesis =>
    rw [find?_cons]
    rw [List.map_cons, List.nodup_cons] at distinct
    rcases List.mem_cons.mp member with rfl | later
    · exact if_pos rfl
    · have different : first.name ≠ label.name := by
        intro same
        rw [same] at distinct
        exact distinct.1 (List.mem_map_of_mem later)
      rw [if_neg different]
      exact inductionHypothesis distinct.2 later

theorem isSome_find? : (find? name labels).isSome ↔ name ∈ labels.map Label.name := by
  induction labels with
  | nil => simp [find?]
  | cons first rest inductionHypothesis =>
    rw [find?_cons, List.map_cons, List.mem_cons, ← inductionHypothesis]
    by_cases same : first.name = name
    · simp [same]
    · simp [same, Ne.symm same]

/-! ### Changing one label -/

/-- A change of one label shows in the look-up of its name and in no other one. -/
theorem find?_update (keeps : ∀ label, (change label).name = label.name) :
    find? other (update name change labels) =
      if other = name then some (change ((find? name labels).getD (named name)))
      else find? other labels := by
  induction labels with
  | nil =>
    have here : (change (named name)).name = name := keeps _
    rw [update, find?_cons, here]
    by_cases same : other = name
    · rw [if_pos same.symm, if_pos same]
      rfl
    · rw [if_neg (Ne.symm same), if_neg same]
  | cons first rest inductionHypothesis =>
    rw [update, find?_cons, find?_cons]
    by_cases here : first.name = name
    · rw [if_pos here, if_pos here, find?_cons, keeps, here]
      by_cases same : other = name
      · rw [if_pos same.symm, if_pos same]
        rfl
      · rw [if_neg (Ne.symm same), if_neg same, if_neg (Ne.symm same)]
    · rw [if_neg here, if_neg here, find?_cons, inductionHypothesis]
      by_cases same : other = name
      · rw [if_pos same, if_pos same, if_neg (same ▸ here)]
      · rw [if_neg same, if_neg same]

theorem mem_map_name_update (keeps : ∀ label, (change label).name = label.name) :
    other ∈ (update name change labels).map Label.name ↔
      other = name ∨ other ∈ labels.map Label.name := by
  rw [← isSome_find?, ← isSome_find?, find?_update keeps]
  by_cases same : other = name
  · simp [same]
  · simp [same]

/-- A table that has each name once keeps that. -/
theorem nodup_update (keeps : ∀ label, (change label).name = label.name)
    (distinct : (labels.map Label.name).Nodup) :
    ((update name change labels).map Label.name).Nodup := by
  induction labels with
  | nil => exact List.nodup_singleton _
  | cons first rest inductionHypothesis =>
    rw [update]
    rw [List.map_cons, List.nodup_cons] at distinct
    by_cases here : first.name = name
    · rw [if_pos here, List.map_cons, List.nodup_cons, keeps]
      exact distinct
    · rw [if_neg here, List.map_cons, List.nodup_cons]
      refine ⟨?_, inductionHypothesis distinct.2⟩
      rw [mem_map_name_update keeps]
      rintro (same | member)
      · exact here same
      · exact distinct.1 member

theorem mem_update {label : Label} (member : label ∈ update name change labels) :
    label ∈ labels ∨ ∃ old, (old = named name ∨ old ∈ labels) ∧ label = change old := by
  induction labels with
  | nil =>
    obtain rfl := List.mem_singleton.mp member
    exact Or.inr ⟨named name, Or.inl rfl, rfl⟩
  | cons first rest inductionHypothesis =>
    rw [update] at member
    by_cases here : first.name = name
    · rw [if_pos here] at member
      rcases List.mem_cons.mp member with rfl | later
      · exact Or.inr ⟨first, Or.inr List.mem_cons_self, rfl⟩
      · exact Or.inl (List.mem_cons_of_mem _ later)
    · rw [if_neg here] at member
      rcases List.mem_cons.mp member with rfl | later
      · exact Or.inl List.mem_cons_self
      · rcases inductionHypothesis later with old | ⟨old, origin, rfl⟩
        · exact Or.inl (List.mem_cons_of_mem _ old)
        · exact Or.inr ⟨old, origin.imp_right (List.mem_cons_of_mem _), rfl⟩

/-! ### The address of a name -/

/-- The address that the table gives a name. -/
def addressIn? (name : String) (labels : List Label) : Option Nat :=
  (find? name labels).bind Label.address?

theorem isDefined_eq : isDefined name labels = (addressIn? name labels).isSome := by
  unfold isDefined addressIn?
  cases find? name labels <;> rfl

theorem addressIn?_define (address : Nat) :
    addressIn? other (define name address labels) =
      if other = name then some address else addressIn? other labels := by
  unfold addressIn? define
  rw [find?_update (by exact fun _ => rfl)]
  by_cases same : other = name
  · rw [if_pos same, if_pos same]
    rfl
  · rw [if_neg same, if_neg same]

theorem addressIn?_use (hole position : Nat) :
    addressIn? other (use name hole position labels) = addressIn? other labels := by
  unfold addressIn? use
  rw [find?_update (by exact fun _ => rfl)]
  by_cases same : other = name
  · rw [if_pos same, same]
    cases find? name labels <;> rfl
  · rw [if_neg same]

/-! ### Filling holes -/

/-- Writes the addresses of names into all holes of a table. -/
def fillAll (address : String → Nat) (labels : List Label) (code : Array UInt8) : Array UInt8 :=
  labels.foldl (fun code label => label.holes.foldl (fill (address label.name)) code) code

/-- All holes lie inside the code. -/
def Inside (labels : List Label) (size : Nat) : Prop :=
  ∀ label ∈ labels, ∀ hole ∈ label.holes, hole + 1 < size

theorem Inside.mono {size larger : Nat} (inside : Inside labels size) (more : size ≤ larger) :
    Inside labels larger :=
  fun label member hole among => Nat.lt_of_lt_of_le (inside label member hole among) more

/-- A change that adds no hole outside the code keeps all holes inside. -/
theorem Inside.update {size : Nat} (inside : Inside labels size)
    (adds : ∀ label, ∀ hole ∈ (change label).holes, hole ∈ label.holes ∨ hole + 1 < size) :
    Inside (update name change labels) size := by
  intro label member hole among
  rcases mem_update member with old | ⟨old, origin, rfl⟩
  · exact inside label old hole among
  · rcases adds old hole among with before | new
    · rcases origin with rfl | known
      · exact nomatch before
      · exact inside old known hole before
    · exact new

theorem size_fill (address : Nat) (code : Array UInt8) (hole : Nat) :
    (fill address code hole).size = code.size := by
  unfold fill
  rw [Array.size_setIfInBounds, Array.size_setIfInBounds]

theorem size_foldl_fill (address : Nat) (holes : List Nat) (code : Array UInt8) :
    (holes.foldl (fill address) code).size = code.size := by
  induction holes generalizing code with
  | nil => rfl
  | cons hole rest inductionHypothesis =>
    rw [List.foldl_cons, inductionHypothesis, size_fill]

/-- A hole in the front part is filled in the front part. -/
theorem fill_append (address : Nat) (code back : Array UInt8) {hole : Nat}
    (inside : hole + 1 < code.size) :
    fill address (code ++ back) hole = fill address code hole ++ back := by
  unfold fill
  rw [Array.setIfInBounds_append_left (Nat.lt_of_succ_lt inside),
    Array.setIfInBounds_append_left (by rw [Array.size_setIfInBounds]; exact inside)]

theorem foldl_fill_append (address : Nat) (code back : Array UInt8) {holes : List Nat}
    (inside : ∀ hole ∈ holes, hole + 1 < code.size) :
    holes.foldl (fill address) (code ++ back) = holes.foldl (fill address) code ++ back := by
  induction holes generalizing code with
  | nil => rfl
  | cons hole rest inductionHypothesis =>
    rw [List.foldl_cons, List.foldl_cons, fill_append _ _ _ (inside hole List.mem_cons_self)]
    refine inductionHypothesis _ fun other member => ?_
    rw [size_fill]
    exact inside other (List.mem_cons_of_mem _ member)

/-- Code that is emitted behind all holes is left as it is. -/
theorem fillAll_append (address : String → Nat) (code back : Array UInt8)
    (inside : Inside labels code.size) :
    fillAll address labels (code ++ back) = fillAll address labels code ++ back := by
  unfold fillAll
  induction labels generalizing code with
  | nil => rfl
  | cons label rest inductionHypothesis =>
    rw [List.foldl_cons, List.foldl_cons,
      foldl_fill_append _ _ _ (inside label List.mem_cons_self)]
    refine inductionHypothesis _ fun other member => ?_
    rw [size_foldl_fill]
    exact inside other (List.mem_cons_of_mem _ member)

/-- The hole of an instruction that stands at the end of the code. -/
theorem fill_last (address : Nat) (code : Array UInt8) (opcode first second : UInt8) :
    fill address (code ++ #[opcode, first, second]) (code.size + 1) =
      code ++ #[opcode, highByte address, lowByte address] := by
  unfold fill
  rw [Array.setIfInBounds_append_right (Nat.le_succ _),
    Array.setIfInBounds_append_right (Nat.le_add_right _ 2), Nat.add_sub_cancel_left,
    Nat.succ_sub (Nat.le_refl _), Nat.sub_self]
  rfl

/-- When an instruction that uses a label is emitted, filling turns it into its final bytes. -/
theorem fillAll_use (address : String → Nat) (code : Array UInt8) (opcode : UInt8)
    (position : Nat) (inside : Inside labels code.size) :
    fillAll address (use name (code.size + 1) position labels) (code ++ #[opcode, 0, 0]) =
      fillAll address labels code ++
        #[opcode, highByte (address name), lowByte (address name)] := by
  unfold fillAll use
  induction labels generalizing code with
  | nil => exact fill_last _ _ _ _ _
  | cons label rest inductionHypothesis =>
    have here := inside label List.mem_cons_self
    have later : Inside rest code.size := fun other member =>
      inside other (List.mem_cons_of_mem _ member)
    rw [update]
    by_cases same : label.name = name
    · rw [if_pos same, List.foldl_cons, List.foldl_cons, List.foldl_cons, same, fill_last,
        foldl_fill_append _ _ _ here]
      refine fillAll_append address _ _ ?_
      rw [size_foldl_fill]
      exact later
    · rw [if_neg same, List.foldl_cons, List.foldl_cons, foldl_fill_append _ _ _ here]
      have size := size_foldl_fill (address label.name) label.holes code
      rw [← size]
      refine inductionHypothesis _ ?_
      rw [size]
      exact later

/-- The definition of a label opens no hole. -/
theorem fillAll_define (address : String → Nat) (code : Array UInt8) (value : Nat) :
    fillAll address (define name value labels) code = fillAll address labels code := by
  unfold fillAll define
  induction labels generalizing code with
  | nil => rfl
  | cons label rest inductionHypothesis =>
    rw [update]
    by_cases same : label.name = name
    · rw [if_pos same]
      rfl
    · rw [if_neg same, List.foldl_cons, List.foldl_cons]
      exact inductionHypothesis _

/-- The resolution of all labels fills the holes with the addresses in the table. -/
theorem foldl_resolve (address : String → Nat) (code : Array UInt8)
    (addresses : ∀ label ∈ labels, label.address?.getD 0 = address label.name) :
    labels.foldl resolve code = fillAll address labels code := by
  unfold fillAll
  refine List.foldl_ext _ _ _ fun code label member => ?_
  unfold resolve
  rw [addresses label member]

end ByteStack.Label
