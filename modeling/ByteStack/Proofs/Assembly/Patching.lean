/-
This file is about writing addresses over placeholders, byte by byte, in code
that has no bytes out of bounds. When the sites of a table are apart, every byte
at them is written once, so that the order in which it is done plays no role.
-/

import ByteStack.Proofs.Assembly.LabelTable
import Mathlib.Data.List.Flatten
import Mathlib.Data.List.Perm.Basic

namespace ByteStack

/-! ### Patches -/

/-- A byte for a place in the code. -/
structure Patch where
  place : Nat
  value : UInt8

namespace Patch

/-- Writes the byte, if the code has the place. -/
def write? (code : Array UInt8) (patch : Patch) : Option (Array UInt8) :=
  if inside : patch.place < code.size then some (code.set patch.place patch.value inside) else none

/-- Writes the bytes that have a place in the code. -/
def writeAll (code : Array UInt8) (patches : List Patch) : Array UInt8 :=
  patches.foldl (fun code patch => code.setIfInBounds patch.place patch.value) code

/-- The bytes of an address, the high byte first. -/
def address (address site : Nat) : List Patch :=
  [⟨site, highByte address⟩, ⟨site + 1, lowByte address⟩]

variable {code : Array UInt8} {patches others : List Patch} {patch : Patch}

theorem size_writeAll (code : Array UInt8) (patches : List Patch) :
    (writeAll code patches).size = code.size := by
  induction patches generalizing code with
  | nil => rfl
  | cons patch rest inductionHypothesis =>
    exact (inductionHypothesis _).trans Array.size_setIfInBounds

/-- Patches inside the code can all be written. -/
theorem foldlM_write? (inside : ∀ patch ∈ patches, patch.place < code.size) :
    patches.foldlM write? code = some (writeAll code patches) := by
  induction patches generalizing code with
  | nil => rfl
  | cons patch rest inductionHypothesis =>
    obtain ⟨here, later⟩ := List.forall_mem_cons.mp inside
    rw [List.foldlM_cons, write?, dif_pos here, writeAll, List.foldl_cons, Array.setIfInBounds_def,
      dif_pos here]
    refine inductionHypothesis ?_
    rw [Array.size_set]
    exact later

/-- What has no patch is left as it is. -/
theorem getElem?_writeAll_of_notMem {place : Nat} (untouched : place ∉ patches.map Patch.place) :
    (writeAll code patches)[place]? = code[place]? := by
  induction patches generalizing code with
  | nil => rfl
  | cons patch rest inductionHypothesis =>
    obtain ⟨here, later⟩ := List.ne_and_not_mem_of_not_mem_cons untouched
    exact (inductionHypothesis later).trans (Array.getElem?_setIfInBounds_ne (Ne.symm here))

/-- Of patches to different places, each has its effect. -/
theorem getElem?_writeAll_of_mem (distinct : (patches.map Patch.place).Nodup)
    (member : patch ∈ patches) (inside : patch.place < code.size) :
    (writeAll code patches)[patch.place]? = some patch.value := by
  induction patches generalizing code with
  | nil => exact nomatch member
  | cons first rest inductionHypothesis =>
    rw [List.map_cons, List.nodup_cons] at distinct
    rcases List.mem_cons.mp member with rfl | later
    · exact (getElem?_writeAll_of_notMem distinct.1).trans
        (Array.getElem?_setIfInBounds_self.trans (if_pos inside))
    · exact inductionHypothesis distinct.2 later (by rw [Array.size_setIfInBounds]; exact inside)

/-- Patches to different places can be applied in any order. -/
theorem writeAll_perm (distinct : (patches.map Patch.place).Nodup) (perm : patches.Perm others) :
    writeAll code patches = writeAll code others := by
  refine perm.foldl_eq' (fun first member second among code => ?_) code
  by_cases same : first.place = second.place
  · rw [List.inj_on_of_nodup_map distinct member among same]
  · exact Array.setIfInBounds_comm _ _ same

end Patch

/-! ### Patches of a table -/

/-- The patches for the sites of a label, once it has an address. -/
def LabelEntry.patches (entry : LabelEntry) : List Patch :=
  match entry.address? with
  | none => []
  | some address => entry.sites.flatMap fun site => Patch.address address.toNat site.toNat

namespace LabelTable

variable {table : LabelTable} {entry : LabelEntry} {code : Array UInt8} {site : UInt16}

def patches (table : LabelTable) : List Patch :=
  table.entries.toList.flatMap LabelEntry.patches

/-- Writes the addresses of the labels into the code. Nothing comes of it when a site lies outside
the code. -/
def resolve? (table : LabelTable) (code : Array UInt8) : Option (Array UInt8) :=
  table.patches.foldlM Patch.write? code

/-- The errors of the labels that have no address. -/
def unset (table : LabelTable) : List AssemblyError :=
  table.labels.filterMap Label.unresolved?

/-- The sites of a table are those of code of this size. -/
structure Sited (table : LabelTable) (size : Nat) : Prop where
  apart : table.sites.Pairwise fun site other => site + 2 ≤ other ∨ other + 2 ≤ site
  inside : ∀ site ∈ table.sites, site + 2 ≤ size

/-- What the resolution of a table makes of code. -/
structure Resolves (table : LabelTable) (code last : Array UInt8) : Prop where
  resolved : table.resolve? code = some last
  /-- No byte is written twice. -/
  once : (table.patches.map Patch.place).Nodup
  /-- The bytes that are written are those at the sites of the labels that have an address. -/
  written : ∀ place, place ∈ table.patches.map Patch.place ↔
    ∃ entry ∈ table.entries, entry.address?.isSome ∧
      ∃ site ∈ entry.sites, place = site.toNat ∨ place = site.toNat + 1
  /-- A site holds the address of its own label, the high byte first. -/
  own : ∀ entry ∈ table.entries, ∀ address, entry.address? = some address →
    ∀ site ∈ entry.sites, last[site.toNat]? = some (highByte address.toNat) ∧
      last[site.toNat + 1]? = some (lowByte address.toNat)
  others : ∀ place, place ∉ table.patches.map Patch.place → last[place]? = code[place]?
  size : last.size = code.size

theorem mem_patches_site {address : UInt16} (member : entry ∈ table.entries)
    (defined : entry.address? = some address) (used : site ∈ entry.sites) {patch : Patch}
    (among : patch ∈ Patch.address address.toNat site.toNat) : patch ∈ table.patches := by
  refine List.mem_flatMap.mpr ⟨entry, Array.mem_toList_iff.mpr member, ?_⟩
  rw [LabelEntry.patches, defined]
  exact List.mem_flatMap.mpr ⟨site, used, among⟩

theorem mem_places {place : Nat} : place ∈ table.patches.map Patch.place ↔
    ∃ entry ∈ table.entries, entry.address?.isSome ∧
      ∃ site ∈ entry.sites, place = site.toNat ∨ place = site.toNat + 1 := by
  constructor
  · intro written
    obtain ⟨patch, among, rfl⟩ := List.mem_map.mp written
    obtain ⟨entry, member, among⟩ := List.mem_flatMap.mp among
    rw [LabelEntry.patches] at among
    cases defined : entry.address? with
    | none => rw [defined] at among; exact nomatch among
    | some address =>
      rw [defined] at among
      obtain ⟨site, used, among⟩ := List.mem_flatMap.mp among
      refine ⟨entry, Array.mem_toList_iff.mp member, Option.isSome_of_eq_some defined, site, used,
        ?_⟩
      rcases List.mem_pair.mp among with rfl | rfl
      · exact Or.inl rfl
      · exact Or.inr rfl
  · rintro ⟨entry, member, defined, site, used, here⟩
    obtain ⟨address, defined⟩ := Option.isSome_iff_exists.mp defined
    rcases here with rfl | rfl
    · exact List.mem_map.mpr ⟨_, mem_patches_site member defined used List.mem_cons_self, rfl⟩
    · exact List.mem_map.mpr ⟨_, mem_patches_site member defined used
        (List.mem_cons_of_mem _ List.mem_cons_self), rfl⟩

theorem defined_of_set (set : table.unset = []) (member : entry ∈ table.entries) :
    entry.address?.isSome := by
  have none := List.filterMap_eq_nil_iff.mp set entry.label
    (List.mem_map_of_mem (Array.mem_toList_iff.mpr member))
  rw [Label.unresolved?, LabelEntry.label] at none
  cases found : entry.address? with
  | none => rw [found] at none; cases none
  | some address => rfl

/-- When all labels have an address, the bytes at all sites are written. -/
theorem mem_places_of_set (set : table.unset = []) {place : Nat} :
    place ∈ table.patches.map Patch.place ↔
      ∃ site ∈ table.sites, place = site ∨ place = site + 1 := by
  rw [mem_places]
  constructor
  · rintro ⟨entry, member, _, site, used, here⟩
    exact ⟨_, List.mem_flatMap.mpr ⟨entry, Array.mem_toList_iff.mpr member,
      List.mem_map_of_mem used⟩, here⟩
  · rintro ⟨site, among, here⟩
    obtain ⟨entry, member, among⟩ := List.mem_flatMap.mp among
    obtain ⟨site, used, rfl⟩ := List.mem_map.mp among
    have member := Array.mem_toList_iff.mp member
    exact ⟨entry, member, defined_of_set set member, site, used, here⟩

/-- The patches go to the bytes at the sites, in order, but for those of labels without address. -/
theorem places_sublist (table : LabelTable) :
    (table.patches.map Patch.place).Sublist (table.sites.flatMap fun site => [site, site + 1]) := by
  rw [patches, sites, List.map_flatMap, List.flatMap_assoc]
  refine List.Sublist.flatMap_right _ fun entry member => ?_
  rw [LabelEntry.patches, List.flatMap_map]
  cases entry.address? with
  | none => exact List.nil_sublist _
  | some address =>
    rw [List.map_flatMap]
    exact .refl _

namespace Sited

variable {size : Nat}

theorem nodup (sited : table.Sited size) : (table.patches.map Patch.place).Nodup := by
  refine (table.places_sublist).nodup (List.nodup_flatMap.mpr ⟨fun site member => ?_, ?_⟩)
  · simp
  · refine sited.apart.imp fun {site other} apart => ?_
    simp only [Function.onFun, List.disjoint_cons_left, List.mem_cons, List.not_mem_nil, or_false,
      List.disjoint_nil_left, and_true]
    omega

theorem place_lt (sited : table.Sited size) {place : Nat}
    (written : place ∈ table.patches.map Patch.place) : place < size := by
  obtain ⟨site, member, here⟩ := List.mem_flatMap.mp (table.places_sublist.subset written)
  have inside := sited.inside site member
  rcases List.mem_pair.mp here with rfl | rfl <;> omega

theorem resolves (sited : table.Sited code.size) :
    table.Resolves code (Patch.writeAll code table.patches) := by
  have effect {patch : Patch} (member : patch ∈ table.patches) :
      (Patch.writeAll code table.patches)[patch.place]? = some patch.value :=
    Patch.getElem?_writeAll_of_mem sited.nodup member
      (sited.place_lt (List.mem_map_of_mem member))
  exact {
    resolved := Patch.foldlM_write? fun patch member => sited.place_lt (List.mem_map_of_mem member)
    once := sited.nodup
    written := fun _ => mem_places
    own := fun entry member address defined site used =>
      ⟨effect (mem_patches_site member defined used List.mem_cons_self),
        effect (mem_patches_site member defined used (List.mem_cons_of_mem _ List.mem_cons_self))⟩
    others := fun _ => Patch.getElem?_writeAll_of_notMem
    size := Patch.size_writeAll _ _ }

end Sited

end LabelTable

/-! ### The same in the plain list of labels -/

/-- The patches for the holes of a label. -/
def Label.patches (label : Label) : List Patch :=
  label.holes.flatMap (Patch.address (label.address?.getD 0))

theorem Label.foldl_resolve_eq (labels : List Label) (code : Array UInt8) :
    labels.foldl resolve code = Patch.writeAll code (labels.flatMap Label.patches) := by
  have each (code : Array UInt8) (label : Label) :
      resolve code label = Patch.writeAll code label.patches := by
    rw [Patch.writeAll, Label.patches, List.foldl_flatMap]
    rfl
  rw [Patch.writeAll, List.foldl_flatMap]
  exact List.foldl_ext _ _ _ fun code label _ => each code label

/-- The holes of a label are the sites of its entry, in the other direction. -/
theorem LabelEntry.perm_patches {entry : LabelEntry} (defined : entry.address?.isSome) :
    entry.label.patches.Perm entry.patches := by
  obtain ⟨address, defined⟩ := Option.isSome_iff_exists.mp defined
  rw [Label.patches, LabelEntry.patches, defined, LabelEntry.label, defined]
  refine ((List.reverse_perm _).flatMap_right _).trans ?_
  rw [List.flatMap_map]
  exact .refl _

/-- When all labels have an address, the list of labels resolves to the same code. -/
theorem LabelTable.Sited.foldl_resolve {table : LabelTable} {code : Array UInt8} {size : Nat}
    (sited : table.Sited size) (set : table.unset = []) :
    table.labels.foldl Label.resolve code = Patch.writeAll code table.patches := by
  rw [Label.foldl_resolve_eq, labels, List.flatMap_map]
  refine (Patch.writeAll_perm sited.nodup (List.Perm.flatMap_left _ fun entry member => ?_)).symm
  exact (LabelEntry.perm_patches (defined_of_set set (Array.mem_toList_iff.mp member))).symm

end ByteStack
