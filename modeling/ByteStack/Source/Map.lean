/-
This file ties the bytes of a program to its text. The map remembers, for the
offset of each instruction, the mnemonic it came from. An offset inside an
operand belongs to no instruction start, and is answered with the token that is
recorded nearest to it, the lower one where two are equally near.
-/

import ByteStack.Source.Location
import ByteStack.Source.Token

namespace ByteStack

/-- The text of a program and the tokens recorded for offsets of its code. -/
structure SourceMap where
  source : List Char
  /-- The highest offset comes first, and no offset comes twice. -/
  entries : List (Nat × Token)
deriving DecidableEq

namespace SourceMap

/-- The map of a text for which nothing has been recorded. -/
def ofSource (source : String) : SourceMap :=
  ⟨source.toList, []⟩

/-- The map of code that has no text. -/
def empty : SourceMap :=
  ofSource ""

/-- Records a token in a list that falls from high offsets to low ones. A token already
recorded at the offset is replaced. -/
def insert (offset : Nat) (token : Token) : List (Nat × Token) → List (Nat × Token)
  | [] => [(offset, token)]
  | entry :: rest =>
    if entry.1 < offset then (offset, token) :: entry :: rest
    else if entry.1 = offset then (offset, token) :: rest
    else entry :: insert offset token rest

/-- Records the token that the instruction at `offset` came from. -/
def add (map : SourceMap) (offset : Nat) (token : Token) : SourceMap :=
  { map with entries := insert offset token map.entries }

/-- How many offsets have a token. -/
def size (map : SourceMap) : Nat :=
  map.entries.length

def isEmpty (map : SourceMap) : Bool :=
  map.entries.isEmpty

/-- The entry with the highest offset that is not above `offset`. -/
def below? (map : SourceMap) (offset : Nat) : Option (Nat × Token) :=
  map.entries.find? fun entry => entry.1 ≤ offset

/-- The entry with the lowest offset that is not below `offset`. -/
def above? (map : SourceMap) (offset : Nat) : Option (Nat × Token) :=
  (map.entries.takeWhile fun entry => offset ≤ entry.1).getLast?

/-- The token recorded nearest to an offset. Of two that are equally near, the lower one. -/
def tokenAt? (map : SourceMap) (offset : Nat) : Option Token :=
  match map.below? offset, map.above? offset with
  | some (low, lowToken), some (high, highToken) =>
    if offset - low ≤ high - offset then some lowToken else some highToken
  | some (_, token), none => some token
  | none, some (_, token) => some token
  | none, none => none

/-- The place of a character position in the text. -/
def locationAt (map : SourceMap) (position : Nat) : Location :=
  Location.ofPosition map.source position

/-- The place in the text of the token nearest to an offset of the code. -/
def locationOf? (map : SourceMap) (offset : Nat) : Option Location :=
  (map.tokenAt? offset).map fun token => map.locationAt token.position

end SourceMap

end ByteStack
