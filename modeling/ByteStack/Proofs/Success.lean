/-
This file takes computations in several steps apart. When such a computation
succeeds, each of its steps did. It fails with the failure of a step when the
steps in front of that one succeeded.
-/

namespace ByteStack

variable {Error Value Result : Type} {first : Except Error Value} {result : Result}

theorem bind_eq_ok {next : Value → Except Error Result} :
    (first >>= next) = .ok result ↔ ∃ value, first = .ok value ∧ next value = .ok result := by
  cases first with
  | error error => exact ⟨nofun, fun ⟨_, failed, _⟩ => nomatch failed⟩
  | ok value =>
    exact ⟨fun same => ⟨value, rfl, same⟩, fun ⟨_, same, whole⟩ => Except.ok.inj same ▸ whole⟩

theorem map_eq_ok {change : Value → Result} :
    first.map change = .ok result ↔ ∃ value, first = .ok value ∧ change value = result := by
  cases first with
  | error error => exact ⟨nofun, fun ⟨_, failed, _⟩ => nomatch failed⟩
  | ok value =>
    exact ⟨fun same => ⟨value, rfl, Except.ok.inj same⟩,
      fun ⟨_, same, whole⟩ => whole ▸ Except.ok.inj same ▸ rfl⟩

theorem bind_eq_error {next : Value → Except Error Result} {error : Error}
    (failed : first = .error error ∨ ∃ value, first = .ok value ∧ next value = .error error) :
    (first >>= next) = .error error := by
  rcases failed with rfl | ⟨value, rfl, failed⟩
  · rfl
  · exact failed

end ByteStack
