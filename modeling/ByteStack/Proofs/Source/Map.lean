/-
This file shows what the map of a program answers at two kinds of offsets, when
its entries fall from high offsets to low ones. At an offset that is recorded it
gives the token recorded there, however near its neighbours are. Above all that
are recorded it gives the token of the highest. Whatever the offset, the answer is
one of the tokens that are recorded, if there is any.
-/

import ByteStack.Source.Map

namespace ByteStack.SourceMap

variable {map : SourceMap} {offset : Nat} {token : Token}

/-- Of two entries the later one has the lower offset. -/
def Falling (map : SourceMap) : Prop :=
  map.entries.Pairwise fun first second => second.1 < first.1

theorem Falling.below?_of_mem (falling : map.Falling) (member : (offset, token) ∈ map.entries) :
    map.below? offset = some (offset, token) := by
  obtain ⟨higher, lower, split⟩ := List.append_of_mem member
  unfold Falling at falling
  rw [split, List.pairwise_append] at falling
  have none : higher.find? (fun entry => entry.1 ≤ offset) = none := by
    rw [List.find?_eq_none]
    intro entry above
    rw [decide_eq_true_eq]
    exact Nat.not_le_of_lt (falling.2.2 entry above _ List.mem_cons_self)
  rw [below?, split, List.find?_append, none, Option.none_or]
  exact List.find?_cons_of_pos (decide_eq_true (Nat.le_refl offset))

/-- A token that is recorded at an offset is the answer there. -/
theorem Falling.tokenAt?_of_mem (falling : map.Falling) (member : (offset, token) ∈ map.entries) :
    map.tokenAt? offset = some token := by
  rw [tokenAt?, falling.below?_of_mem member]
  cases map.above? offset with
  | none => rfl
  | some entry =>
    dsimp only
    rw [Nat.sub_self, if_pos (Nat.zero_le _)]

/-- Above all offsets that are recorded, the highest one is the nearest. -/
theorem tokenAt?_of_above (above : ∀ entry ∈ map.entries, entry.1 < offset) :
    map.tokenAt? offset = map.entries.head?.map Prod.snd := by
  unfold tokenAt? below? above?
  cases shape : map.entries with
  | nil => rfl
  | cons first rest =>
    have lower : first.1 < offset := above first (shape ▸ List.mem_cons_self)
    have below : decide (first.1 ≤ offset) = true := decide_eq_true (Nat.le_of_lt lower)
    have notAbove : decide (offset ≤ first.1) = false := decide_eq_false (Nat.not_le_of_lt lower)
    simp only [List.find?_cons, below, List.takeWhile_cons, notAbove]
    rfl

theorem tokenAt?_of_nil (empty : map.entries = []) (offset : Nat) : map.tokenAt? offset = none := by
  rw [tokenAt?, below?, above?, empty]
  rfl

/-- Once a token is recorded, every offset is answered with one that is. -/
theorem exists_tokenAt? (nonempty : map.entries ≠ []) (offset : Nat) :
    ∃ entry ∈ map.entries, map.tokenAt? offset = some entry.2 := by
  unfold tokenAt?
  cases low : map.below? offset with
  | some lower =>
    have member := List.mem_of_find?_eq_some low
    cases high : map.above? offset with
    | none => exact ⟨lower, member, rfl⟩
    | some upper =>
      have also := (List.takeWhile_sublist _).subset (List.mem_of_getLast? high)
      dsimp only
      split
      · exact ⟨lower, member, rfl⟩
      · exact ⟨upper, also, rfl⟩
  | none =>
    cases high : map.above? offset with
    | some upper =>
      exact ⟨upper, (List.takeWhile_sublist _).subset (List.mem_of_getLast? high), rfl⟩
    | none =>
      -- The first entry lies above the offset, since no entry lies below it.
      obtain ⟨first, rest, shape⟩ := List.exists_cons_of_ne_nil nonempty
      have above := List.find?_eq_none.mp low first (shape ▸ List.mem_cons_self)
      rw [decide_eq_true_eq] at above
      have passes : decide (offset ≤ first.1) = true := decide_eq_true (Nat.le_of_not_le above)
      rw [above?, shape, List.takeWhile_cons_of_pos
        (p := fun entry : Nat × Token => decide (offset ≤ entry.1)) passes,
        List.getLast?_eq_none_iff] at high
      exact nomatch high

end ByteStack.SourceMap
