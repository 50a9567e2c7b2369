/-
This file shows that a map answers every offset with the token that is recorded
nearest to it. A lookup compares two entries only, the next one below and the next
one above. As the entries fall from high offsets to low ones, no other entry is
nearer than both of these.

A map to which tokens were added in any order has such entries. It remembers the
last token added at each offset, and it counts each offset once.
-/

import ByteStack.Proofs.Source.Map
import Mathlib.Data.Finset.Card
import Mathlib.Data.Nat.Dist

namespace ByteStack

/-! ### Nearest offsets -/

/-- Among the offsets the one found is nearest to the one that is looked up. Of two that are
equally near it is the lower one. -/
structure Nearest (offsets : Finset Nat) (offset found : Nat) : Prop where
  mem : found ∈ offsets
  least : ∀ other ∈ offsets, Nat.dist found offset < Nat.dist other offset ∨
    Nat.dist found offset = Nat.dist other offset ∧ found ≤ other

/-- One offset is the nearest. -/
theorem Nearest.unique {offsets : Finset Nat} {offset found other : Nat}
    (nearest : Nearest offsets offset found) (also : Nearest offsets offset other) :
    found = other := by
  have first := nearest.least other also.mem
  have second := also.least found nearest.mem
  omega

namespace SourceMap

variable {map : SourceMap} {offset : Nat} {token : Token} {entries : List (Nat × Token)}

/-- The offsets that have a token. -/
def offsets (map : SourceMap) : Finset Nat :=
  (map.entries.map Prod.fst).toFinset

theorem mem_toFinset_iff (entries : List (Nat × Token)) (offset : Nat) :
    offset ∈ (entries.map Prod.fst).toFinset ↔ ∃ entry ∈ entries, entry.1 = offset := by
  rw [List.mem_toFinset, List.mem_map]

/-! ### Lookup in a falling map -/

/-- The next entry below is the highest of those that are not above. -/
theorem Falling.below?_eq_some {entry : Nat × Token} (falling : map.Falling)
    (found : map.below? offset = some entry) :
    entry ∈ map.entries ∧ entry.1 ≤ offset ∧
      ∀ other ∈ map.entries, other.1 ≤ offset → other.1 ≤ entry.1 := by
  obtain ⟨low, higher, lower, split, above⟩ := List.find?_eq_some_iff_append.mp found
  unfold Falling at falling
  rw [split, List.pairwise_append, List.pairwise_cons] at falling
  refine ⟨split ▸ List.mem_append_right _ List.mem_cons_self, of_decide_eq_true low, ?_⟩
  intro other member small
  rw [split] at member
  rcases List.mem_append.mp member with before | behind
  · have large := above other before
    rw [decide_eq_true small] at large
    exact nomatch large
  · rcases List.mem_cons.mp behind with rfl | after
    · exact Nat.le_refl _
    · exact Nat.le_of_lt (falling.2.1.1 other after)

theorem below?_eq_none (found : map.below? offset = none) {other : Nat × Token}
    (member : other ∈ map.entries) : offset < other.1 := by
  have large := List.find?_eq_none.mp found other member
  rw [decide_eq_true_eq] at large
  exact Nat.lt_of_not_le large

/-- The entries that are not below an offset stand in front. -/
theorem takeWhile_eq_filter (falling : entries.Pairwise fun first second => second.1 < first.1)
    (offset : Nat) :
    (entries.takeWhile fun entry => offset ≤ entry.1) =
      entries.filter fun entry => offset ≤ entry.1 := by
  induction falling with
  | nil => rfl
  | @cons entry rest lower falling inductionHypothesis =>
    by_cases high : offset ≤ entry.1
    · rw [List.takeWhile_cons, List.filter_cons, if_pos (decide_eq_true high),
        if_pos (decide_eq_true high), inductionHypothesis]
    · have none : ∀ other ∈ entry :: rest, ¬decide (offset ≤ other.1) = true := by
        intro other member
        rw [decide_eq_true_eq]
        rcases List.mem_cons.mp member with rfl | later
        · exact high
        · exact fun large => high (Nat.le_of_lt (Nat.lt_of_le_of_lt large (lower other later)))
      rw [List.filter_eq_nil_iff.mpr none, List.takeWhile_cons,
        if_neg (none entry List.mem_cons_self)]

/-- The next entry above is the lowest of those that are not below. -/
theorem Falling.above?_eq_some {entry : Nat × Token} (falling : map.Falling)
    (found : map.above? offset = some entry) :
    entry ∈ map.entries ∧ offset ≤ entry.1 ∧
      ∀ other ∈ map.entries, offset ≤ other.1 → entry.1 ≤ other.1 := by
  rw [above?, takeWhile_eq_filter falling] at found
  have member := List.mem_filter.mp (List.mem_of_getLast? found)
  obtain ⟨higher, split⟩ := List.getLast?_eq_some_iff.mp found
  have falls := List.Pairwise.filter (fun entry => decide (offset ≤ entry.1)) falling
  rw [split, List.pairwise_append] at falls
  refine ⟨member.1, of_decide_eq_true member.2, ?_⟩
  intro other among large
  have kept : other ∈ map.entries.filter fun entry => offset ≤ entry.1 :=
    List.mem_filter.mpr ⟨among, decide_eq_true large⟩
  rw [split] at kept
  rcases List.mem_append.mp kept with before | last
  · exact Nat.le_of_lt (falls.2.2 other before entry List.mem_cons_self)
  · rw [List.mem_singleton.mp last]

theorem Falling.above?_eq_none (falling : map.Falling) (found : map.above? offset = none)
    {other : Nat × Token} (member : other ∈ map.entries) : other.1 < offset := by
  rw [above?, takeWhile_eq_filter falling, List.getLast?_eq_none_iff] at found
  have small := List.filter_eq_nil_iff.mp found other member
  rw [decide_eq_true_eq] at small
  exact Nat.lt_of_not_le small

/-- An entry that is nearer than all others has the nearest offset. -/
theorem nearest_of_forall {entry : Nat × Token} (member : entry ∈ map.entries)
    (least : ∀ other ∈ map.entries, Nat.dist entry.1 offset < Nat.dist other.1 offset ∨
      Nat.dist entry.1 offset = Nat.dist other.1 offset ∧ entry.1 ≤ other.1) :
    Nearest map.offsets offset entry.1 := by
  refine ⟨(mem_toFinset_iff _ _).mpr ⟨entry, member, rfl⟩, fun other among => ?_⟩
  obtain ⟨entry, member, rfl⟩ := (mem_toFinset_iff _ _).mp among
  exact least entry member

/-- A map in which something is recorded answers with the token at the nearest offset. -/
theorem Falling.exists_nearest (falling : map.Falling) (nonempty : map.entries ≠ [])
    (offset : Nat) :
    ∃ entry ∈ map.entries, Nearest map.offsets offset entry.1 ∧
      map.tokenAt? offset = some entry.2 := by
  unfold tokenAt?
  cases low : map.below? offset with
  | none =>
    have aboveAll {other : Nat × Token} := @below?_eq_none map offset low other
    cases high : map.above? offset with
    | none =>
      obtain ⟨entry, member⟩ := List.exists_mem_of_ne_nil _ nonempty
      exact absurd (aboveAll member) (Nat.lt_asymm (falling.above?_eq_none high member))
    | some upper =>
      obtain ⟨member, large, lowest⟩ := falling.above?_eq_some high
      refine ⟨upper, member, nearest_of_forall member fun other among => ?_, rfl⟩
      have beyond := aboveAll among
      have next := lowest other among (Nat.le_of_lt beyond)
      simp only [Nat.dist]
      omega
  | some lower =>
    obtain ⟨memberLow, small, highest⟩ := falling.below?_eq_some low
    cases high : map.above? offset with
    | none =>
      refine ⟨lower, memberLow, nearest_of_forall memberLow fun other among => ?_, rfl⟩
      have behind := falling.above?_eq_none high among
      have next := highest other among (Nat.le_of_lt behind)
      simp only [Nat.dist]
      omega
    | some upper =>
      obtain ⟨memberHigh, large, lowest⟩ := falling.above?_eq_some high
      -- Every other entry lies beyond one of the two, on its side of the offset.
      have beyond (other : Nat × Token) (among : other ∈ map.entries) :
          other.1 ≤ lower.1 ∨ upper.1 ≤ other.1 :=
        (Nat.le_total other.1 offset).imp (highest other among) (lowest other among)
      dsimp only
      split
      next nearer =>
        refine ⟨lower, memberLow, nearest_of_forall memberLow fun other among => ?_, rfl⟩
        have side := beyond other among
        simp only [Nat.dist]
        omega
      next farther =>
        refine ⟨upper, memberHigh, nearest_of_forall memberHigh fun other among => ?_, rfl⟩
        have side := beyond other among
        simp only [Nat.dist]
        omega

/-- In a falling map the entries are what is found at their offsets. -/
theorem Falling.lookup_eq_some (falling : map.Falling) :
    map.entries.lookup offset = some token ↔ (offset, token) ∈ map.entries := by
  rw [List.lookup_eq_some_iff]
  constructor
  · rintro ⟨before, behind, split, _⟩
    rw [split]
    exact List.mem_append_right _ List.mem_cons_self
  · intro member
    obtain ⟨before, behind, split⟩ := List.append_of_mem member
    refine ⟨before, behind, split, fun entry earlier => ?_⟩
    unfold Falling at falling
    rw [split, List.pairwise_append] at falling
    have higher := falling.2.2 entry earlier _ List.mem_cons_self
    exact bne_iff_ne.mpr (Nat.ne_of_lt higher)

/-- A lookup gives the token that is recorded at the nearest offset. -/
theorem Falling.tokenAt?_eq_some_iff (falling : map.Falling) :
    map.tokenAt? offset = some token ↔
      ∃ found, Nearest map.offsets offset found ∧ map.entries.lookup found = some token := by
  constructor
  · intro answer
    have nonempty : map.entries ≠ [] := by
      intro empty
      exact nomatch (tokenAt?_of_nil empty offset).symm.trans answer
    obtain ⟨entry, member, nearest, same⟩ := falling.exists_nearest nonempty offset
    obtain rfl := Option.some.inj (same.symm.trans answer)
    exact ⟨entry.1, nearest, falling.lookup_eq_some.mpr member⟩
  · rintro ⟨found, nearest, recorded⟩
    have member := falling.lookup_eq_some.mp recorded
    obtain ⟨entry, other, also, same⟩ :=
      falling.exists_nearest (List.ne_nil_of_mem member) offset
    obtain rfl := nearest.unique also
    rw [same, ← recorded, falling.lookup_eq_some.mpr other]

/-- No offset comes twice. -/
theorem Falling.size_eq (falling : map.Falling) : map.size = map.offsets.card := by
  have distinct : (map.entries.map Prod.fst).Nodup :=
    List.pairwise_map.mpr (falling.imp fun lower => Nat.ne_of_gt lower)
  rw [offsets, List.toFinset_card_of_nodup distinct, List.length_map, size]

/-! ### Adding tokens -/

/-- The map of a text after tokens have been added, each at an offset, one after the other. -/
def ofAdded (source : String) (added : List (Nat × Token)) : SourceMap :=
  added.foldl (fun map entry => map.add entry.1 entry.2) (ofSource source)

theorem ofAdded_concat (source : String) (added : List (Nat × Token)) (entry : Nat × Token) :
    ofAdded source (added ++ [entry]) = (ofAdded source added).add entry.1 entry.2 :=
  List.foldl_concat _ _ _ _

theorem lookup_cons_eq (entry : Nat × Token) (entries : List (Nat × Token)) (offset : Nat) :
    (entry :: entries).lookup offset =
      if offset = entry.1 then some entry.2 else entries.lookup offset := by
  rw [List.lookup_cons]
  by_cases same : offset = entry.1
  · rw [if_pos same, beq_iff_eq.mpr same]
  · rw [if_neg same, beq_eq_false_iff_ne.mpr same]

/-- After a token is added at an offset it is found there, and elsewhere nothing changes. -/
theorem lookup_insert (offset other : Nat) (token : Token) (entries : List (Nat × Token)) :
    (insert offset token entries).lookup other =
      if other = offset then some token else entries.lookup other := by
  induction entries with
  | nil => exact lookup_cons_eq _ _ _
  | cons entry rest inductionHypothesis =>
    unfold insert
    split
    next below => exact lookup_cons_eq _ _ _
    next notBelow =>
      split
      next same =>
        rw [lookup_cons_eq, lookup_cons_eq, same]
        split <;> rfl
      next different =>
        rw [lookup_cons_eq, lookup_cons_eq, inductionHypothesis]
        by_cases here : other = entry.1
        · rw [if_pos here, if_pos here, if_neg (here ▸ different)]
        · rw [if_neg here, if_neg here]

theorem mem_of_mem_insert {entry : Nat × Token} (member : entry ∈ insert offset token entries) :
    entry = (offset, token) ∨ entry ∈ entries := by
  induction entries with
  | nil => exact Or.inl (List.mem_singleton.mp member)
  | cons first rest inductionHypothesis =>
    unfold insert at member
    split at member
    · exact List.mem_cons.mp member
    · split at member
      · exact (List.mem_cons.mp member).imp_right (List.mem_cons_of_mem _)
      · rcases List.mem_cons.mp member with rfl | later
        · exact Or.inr List.mem_cons_self
        · exact (inductionHypothesis later).imp_right (List.mem_cons_of_mem _)

/-- Entries that fall do so after a token is added. -/
theorem pairwise_insert (falling : entries.Pairwise fun first second => second.1 < first.1)
    (offset : Nat) (token : Token) :
    (insert offset token entries).Pairwise fun first second => second.1 < first.1 := by
  induction falling with
  | nil => exact List.pairwise_singleton _ _
  | @cons entry rest lower falling inductionHypothesis =>
    unfold insert
    split
    next below =>
      refine .cons (fun other member => ?_) (.cons lower falling)
      rcases List.mem_cons.mp member with rfl | later
      · exact below
      · exact Nat.lt_trans (lower other later) below
    next notBelow =>
      split
      next same => exact .cons (fun other member => same ▸ lower other member) falling
      next different =>
        refine .cons (fun other member => ?_) inductionHypothesis
        rcases mem_of_mem_insert member with rfl | later
        · exact Nat.lt_of_le_of_ne (Nat.le_of_not_lt notBelow) (Ne.symm different)
        · exact lower other later

theorem falling_ofAdded (source : String) (added : List (Nat × Token)) :
    (ofAdded source added).Falling := by
  induction added using List.reverseRecOn with
  | nil => exact .nil
  | append_singleton added entry inductionHypothesis =>
    rw [ofAdded_concat]
    exact pairwise_insert inductionHypothesis entry.1 entry.2

/-- At each offset the map has the token that was added there last. -/
theorem lookup_ofAdded (source : String) (added : List (Nat × Token)) (offset : Nat) :
    (ofAdded source added).entries.lookup offset = added.reverse.lookup offset := by
  induction added using List.reverseRecOn with
  | nil => rfl
  | append_singleton added entry inductionHypothesis =>
    rw [ofAdded_concat, SourceMap.add, lookup_insert, inductionHypothesis, List.reverse_concat,
      lookup_cons_eq]

/-- The offsets that have a token are those at which one was added. -/
theorem offsets_ofAdded (source : String) (added : List (Nat × Token)) :
    (ofAdded source added).offsets = (added.map Prod.fst).toFinset := by
  have known (entries : List (Nat × Token)) (offset : Nat) :
      offset ∈ (entries.map Prod.fst).toFinset ↔ (entries.lookup offset).isSome := by
    rw [mem_toFinset_iff, List.lookup_isSome_iff]
    exact exists_congr fun entry => and_congr_right fun _ => eq_comm.trans beq_iff_eq.symm
  ext offset
  rw [offsets, known, lookup_ofAdded, ← known, List.map_reverse, List.toFinset_reverse]

/-- Each offset at which a token was added is counted once. -/
theorem size_ofAdded (source : String) (added : List (Nat × Token)) :
    (ofAdded source added).size = (added.map Prod.fst).toFinset.card := by
  rw [(falling_ofAdded source added).size_eq, offsets_ofAdded]

/-- A map answers with nothing just when nothing was added. -/
theorem tokenAt?_ofAdded_eq_none (source : String) (added : List (Nat × Token)) (offset : Nat) :
    (ofAdded source added).tokenAt? offset = none ↔ added = [] := by
  constructor
  · intro answer
    by_contra some
    have nonempty : (ofAdded source added).entries ≠ [] := by
      intro empty
      have offsets := offsets_ofAdded source added
      rw [SourceMap.offsets, empty] at offsets
      exact some (List.map_eq_nil_iff.mp (List.toFinset_eq_empty_iff _ |>.mp offsets.symm))
    obtain ⟨entry, _, _, same⟩ :=
      (falling_ofAdded source added).exists_nearest nonempty offset
    exact nomatch same.symm.trans answer
  · rintro rfl
    exact tokenAt?_of_nil rfl offset

/-- A map answers with the token that was added last at the nearest offset. -/
theorem tokenAt?_ofAdded_eq_some (source : String) (added : List (Nat × Token)) (offset : Nat)
    (token : Token) :
    (ofAdded source added).tokenAt? offset = some token ↔
      ∃ found, Nearest (added.map Prod.fst).toFinset offset found ∧
        added.reverse.lookup found = some token := by
  rw [(falling_ofAdded source added).tokenAt?_eq_some_iff, offsets_ofAdded]
  exact exists_congr fun found => by rw [lookup_ofAdded]

end SourceMap

end ByteStack
