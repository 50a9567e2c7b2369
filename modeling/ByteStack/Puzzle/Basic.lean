/-
This file says what a puzzle is: a name, two texts for the reader, a size to
beat, and graded runs. Each run has the values that a program is fed and the
values that it must put out, and may bound how many cycles it takes.
-/

namespace ByteStack

structure PuzzleRun where
  inbox : List Int8
  outbox : List Int8
  /-- The cycle budget of this run. -/
  cycles? : Option UInt64
deriving DecidableEq

structure Puzzle where
  name : String
  description : String
  /-- A solution to compare with. Nothing is done with it. -/
  solution : String
  /-- The code size to beat, in bytes. -/
  sizeGoal : UInt32
  runs : List PuzzleRun
deriving DecidableEq

end ByteStack
