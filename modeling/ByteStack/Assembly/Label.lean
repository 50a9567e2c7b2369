/-
This file is the table of labels that an assembly keeps: for each name that a
program mentions, the address it was given, the first instruction that used it,
and the places in the code that wait for its address. Labels stand in the order
in which the program first mentions them, each name once.
-/

namespace ByteStack

structure Label where
  name : String
  /-- The offset of the instruction that the label names, once it is defined. -/
  address? : Option Nat
  /-- The character position of the first instruction that uses the label. -/
  firstUse? : Option Nat
  /-- The offsets of the two-byte holes for the address, the latest first. -/
  holes : List Nat
deriving DecidableEq

namespace Label

/-- A label of which nothing is known but its name. -/
def named (name : String) : Label :=
  ⟨name, none, none, []⟩

/-- The label of this name in a table. -/
def find? (name : String) (labels : List Label) : Option Label :=
  labels.find? fun label => label.name == name

/-- Whether the name has been given an address. -/
def isDefined (name : String) (labels : List Label) : Bool :=
  match find? name labels with
  | some label => label.address?.isSome
  | none => false

/-- Changes the label of this name. A name that is new to the table is added behind the
others first. -/
def update (name : String) (change : Label → Label) : List Label → List Label
  | [] => [change (named name)]
  | label :: rest =>
    if label.name = name then change label :: rest else label :: update name change rest

/-- Gives the label an address. -/
def define (name : String) (address : Nat) (labels : List Label) : List Label :=
  update name (fun label => { label with address? := some address }) labels

/-- Notes a hole in the code for the address of the label, in an instruction whose mnemonic
stands at `position`. -/
def use (name : String) (hole position : Nat) (labels : List Label) : List Label :=
  update name (fun label =>
    { label with
      firstUse? := some (label.firstUse?.getD position)
      holes := hole :: label.holes }) labels

end Label

end ByteStack
