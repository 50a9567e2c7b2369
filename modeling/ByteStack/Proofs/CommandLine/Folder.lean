/-
This file shows that a file which was written is read back by the same path. A
path is followed through folders, and a file is never put where a folder stands.
So every folder on the way is found again after the file was written, and the
path leads to the same place as before.
-/

import ByteStack.CommandLine.Folder
import ByteStack.Proofs.Success

namespace ByteStack.CommandLine.Folder

variable {folder : Folder} {place outer : Place} {name text : String} {bytes : List UInt8}

theorem lookup_filter_ne (entries : List (Place × Entry)) {other : Place}
    (different : other ≠ place) :
    (entries.filter fun entry => entry.1 ≠ place).lookup other = entries.lookup other := by
  induction entries with
  | nil => rfl
  | cons entry rest inductionHypothesis =>
    by_cases here : entry.1 = place
    · have apart : (other == entry.1) = false := beq_eq_false_iff_ne.mpr (here ▸ different)
      rw [List.filter_cons_of_neg (by simpa using here), inductionHypothesis, List.lookup_cons,
        apart]
    · rw [List.filter_cons_of_pos (by simpa using here), List.lookup_cons, List.lookup_cons,
        inductionHypothesis]

/-- A file that was put at a place stands there. -/
theorem find?_put_self (inner : place.isOuter = false) :
    (folder.put place bytes).find? place = some (.file bytes) := by
  rw [find?, inner, if_neg Bool.false_ne_true, put, List.lookup_cons, beq_self_eq_true]

/-- A file that was put at a place changes no other place. -/
theorem find?_put_of_ne {other : Place} (different : other ≠ place) :
    (folder.put place bytes).find? other = folder.find? other := by
  rw [find?, find?, put, List.lookup_cons, beq_eq_false_iff_ne.mpr different]
  dsimp only
  rw [lookup_filter_ne _ different]

/-- A folder is found again, for no file was put in its place. -/
theorem find?_put_of_folder (free : folder.find? place ≠ some .folder) {other : Place}
    (found : folder.find? other = some .folder) :
    (folder.put place bytes).find? other = some .folder := by
  rw [find?_put_of_ne, found]
  rintro rfl
  exact free found

theorem lookUp_eq_ok {present? : Option Entry} :
    folder.lookUp outer name = .ok present? ↔
      name.utf8ByteSize ≤ Path.longestName ∧ folder.find? (name :: outer) = present? := by
  rw [lookUp]
  split
  · next long => exact ⟨nofun, fun short => absurd short.1 (Nat.not_le_of_lt long)⟩
  · next short =>
    exact ⟨fun same => ⟨Nat.le_of_not_lt short, Except.ok.inj same⟩, fun same => same.2 ▸ rfl⟩

/-- Going from folder to folder finds the same ones as before. -/
theorem enter_put (free : folder.find? place ≠ some .folder) {inner : Place}
    (entered : folder.enter outer name = .ok inner) :
    (folder.put place bytes).enter outer name = .ok inner := by
  unfold enter at entered ⊢
  by_cases dot : name = "."
  · rw [if_pos dot] at entered ⊢
    exact entered
  rw [if_neg dot] at entered ⊢
  by_cases dots : name = ".."
  · rw [if_pos dots] at entered ⊢
    exact entered
  rw [if_neg dots] at entered ⊢
  obtain ⟨present?, found, entered⟩ := bind_eq_ok.mp entered
  obtain ⟨short, stands⟩ := lookUp_eq_ok.mp found
  match present?, entered with
  | some .folder, entered =>
    exact bind_eq_ok.mpr ⟨_, lookUp_eq_ok.mpr ⟨short, find?_put_of_folder free stands⟩, entered⟩

theorem foldlM_enter_put (free : folder.find? place ≠ some .folder) {names : List String}
    {start last : Place} (entered : names.foldlM folder.enter start = .ok last) :
    names.foldlM (folder.put place bytes).enter start = .ok last := by
  induction names generalizing start with
  | nil => exact entered
  | cons name rest inductionHypothesis =>
    rw [List.foldlM_cons] at entered ⊢
    obtain ⟨inner, first, entered⟩ := bind_eq_ok.mp entered
    exact bind_eq_ok.mpr ⟨inner, enter_put free first, inductionHypothesis entered⟩

/-- A path leads where it led before. -/
theorem follow_put (free : folder.find? place ≠ some .folder) {path : Path} {target : Target}
    (followed : folder.follow path = .ok target) :
    (folder.put place bytes).follow path = .ok target := by
  unfold follow at followed ⊢
  cases last : path.names.getLast? with
  | none => rw [last] at followed; exact followed
  | some name =>
    rw [last] at followed
    dsimp only at followed ⊢
    obtain ⟨outer, way, followed⟩ := bind_eq_ok.mp followed
    exact bind_eq_ok.mpr ⟨outer, foldlM_enter_put free way, followed⟩

/-- What was written is read. -/
theorem read_of_write {next : Folder} (written : folder.write text bytes = .ok next) :
    next.read text = .ok bytes := by
  unfold write at written
  obtain ⟨path, named, written⟩ := bind_eq_ok.mp written
  obtain ⟨target, followed, written⟩ := bind_eq_ok.mp written
  cases target with
  | folder => exact nomatch written
  | entry outer name =>
    cases asFolder : path.asFolder with
    | true => rw [asFolder] at written; exact nomatch written
    | false =>
      rw [asFolder] at written
      obtain ⟨present?, found, written⟩ := bind_eq_ok.mp written
      obtain ⟨short, stands⟩ := lookUp_eq_ok.mp found
      have free : folder.find? (name :: outer) ≠ some .folder := by
        rw [stands]
        rintro rfl
        exact nomatch written
      have put : folder.put (name :: outer) bytes = next := by
        match present?, written with
        | none, written => exact Except.ok.inj written
        | some (.file _), written => exact Except.ok.inj written
      -- No folder stands there, so the place is not the folder itself nor one around it.
      have inner : Place.isOuter (name :: outer) = false :=
        Bool.eq_false_iff.mpr fun above => free (by rw [find?, if_pos above])
      have there : (folder.put (name :: outer) bytes).lookUp outer name =
          .ok (some (.file bytes)) := lookUp_eq_ok.mpr ⟨short, find?_put_self inner⟩
      rw [← put]
      refine bind_eq_ok.mpr ⟨path, named, bind_eq_ok.mpr ⟨_, follow_put free followed, ?_⟩⟩
      refine bind_eq_ok.mpr ⟨_, there, ?_⟩
      dsimp only
      rw [asFolder]
      rfl

end ByteStack.CommandLine.Folder
