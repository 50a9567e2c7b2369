/-
This file is the list of the values that a program has put out. The latest value
stands in front, so that putting one out takes no longer when there are many,
and a note of the list can be kept while the list goes on growing.
-/

namespace ByteStack

structure Outbox where
  /-- The values, the latest first. -/
  reversed : List Int8
  /-- How many values there are. -/
  size : Nat
  size_eq_length : size = reversed.length
deriving DecidableEq

namespace Outbox

def empty : Outbox :=
  ⟨[], 0, rfl⟩

/-- Puts a value out. -/
def push (outbox : Outbox) (value : Int8) : Outbox :=
  ⟨value :: outbox.reversed, outbox.size + 1, by rw [outbox.size_eq_length, List.length_cons]⟩

/-- The values, the first one first. -/
def toList (outbox : Outbox) : List Int8 :=
  outbox.reversed.reverse

@[simp] theorem toList_push (outbox : Outbox) (value : Int8) :
    (outbox.push value).toList = outbox.toList ++ [value] := by
  simp [push, toList]

@[simp] theorem length_toList (outbox : Outbox) : outbox.toList.length = outbox.size := by
  simp [toList, outbox.size_eq_length]

end Outbox

end ByteStack
