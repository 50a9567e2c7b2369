/-
This file builds the tree of a JSON text from its symbols, one symbol at a
time. Every text has a tree. Where the text is broken the tree shows it at that
very place: a value that cannot be read is a broken leaf, and an array or object
that is not closed ends with a break. What the tree holds in front of the break
is what a reader meets first, so that the first problem of a reader is the
first problem of the text.
-/

import ByteStack.Json.Symbol

namespace ByteStack

/-- The tree of a JSON value. A name that lacks the partner of an escape has no text. -/
inductive Json where
  | null
  | boolean (value : Bool)
  | number (value? : Option Json.Number)
  | string (text? : Option String)
  /-- The items, and the break that stands in the place of the closing bracket, if any. -/
  | array (items : List Json) (ending? : Option Json.Break)
  /-- The members in order, and the break in the place of the closing brace, if any. -/
  | object (members : List (Option String × Json)) (ending? : Option Json.Break)
  | broken (place : Json.Break)

namespace Json

/-- A name and its value. -/
abbrev Member := Option String × Json

/-- The tree of a text, and whether anything follows the value. -/
structure Document where
  root : Json
  isFollowed : Bool

/-! ### Containers under construction -/

/-- An array or an object, with what it holds so far in reverse. -/
inductive Container where
  | array (items : List Json)
  | object (members : List Member)

/-- A container that waits for the value of its next item or member. -/
inductive Frame where
  | array (items : List Json)
  | object (members : List Member) (name : Option String)

/-- Puts the value into the container that waits for it. -/
def Frame.fill : Frame → Json → Container
  | .array items, value => .array (value :: items)
  | .object members name, value => .object ((name, value) :: members)

/-- Ends a container. -/
def Container.close (ending? : Option Break) : Container → Json
  | .array items => .array items.reverse ending?
  | .object members => .object members.reverse ending?

/-! ### Reading symbols -/

/-- What has been read so far. The innermost container comes first. -/
inductive State where
  /-- A value is due. -/
  | dueValue (frames : List Frame)
  /-- The first item of an array, or its end, is due. -/
  | dueFirstItem (frames : List Frame)
  /-- A name is due. An object without members may also end. -/
  | dueName (frames : List Frame) (members : List Member)
  /-- The colon behind a name is due. -/
  | dueColon (frames : List Frame) (members : List Member) (name : Option String)
  /-- A comma, or the end of the container, is due. -/
  | dueSeparator (frames : List Frame) (container : Container)
  /-- The value is complete. -/
  | done (document : Document)

namespace State

/-- A value is complete. -/
def complete (value : Json) : List Frame → State
  | [] => .done ⟨value, false⟩
  | frame :: frames => .dueSeparator frames (frame.fill value)

/-- Ends all open containers with a break, around the value in the innermost one. -/
def wrap (place : Break) (value : Json) (frames : List Frame) : Json :=
  frames.foldl (fun inner frame => (frame.fill inner).close (some place)) value

/-- The value that is due is broken. -/
def breakValue (place : Break) (frames : List Frame) : State :=
  .done ⟨wrap place (.broken place) frames, false⟩

/-- The innermost container is broken behind what it holds. -/
def breakContainer (place : Break) (frames : List Frame) (container : Container) : State :=
  .done ⟨wrap place (container.close (some place)) frames, false⟩

/-- A value begins with this symbol. -/
def beginValue (frames : List Frame) : Symbol → State
  | .openArray => .dueFirstItem frames
  | .openObject => .dueName frames []
  | .null => complete .null frames
  | .boolean value => complete (.boolean value) frames
  | .number value? => complete (.number value?) frames
  | .string text? => complete (.string text?) frames
  | .brokenString place => breakValue place frames
  | .broken place => breakValue place frames
  | _ => breakValue .malformed frames

/-- Reads one symbol. -/
def next : State → Symbol → State
  | .dueValue frames, symbol => beginValue frames symbol
  | .dueFirstItem frames, .closeArray => complete (.array [] none) frames
  | .dueFirstItem frames, symbol => beginValue (.array [] :: frames) symbol
  | .dueName frames [], .closeObject => complete (.object [] none) frames
  | .dueName frames members, .string text? => .dueColon frames members text?
  | .dueName frames members, .brokenString place => breakContainer place frames (.object members)
  | .dueName frames members, _ => breakContainer .malformed frames (.object members)
  | .dueColon frames members name, .colon => .dueValue (.object members name :: frames)
  | .dueColon frames members name, _ => breakValue .malformed (.object members name :: frames)
  | .dueSeparator frames (.array items), .comma => .dueValue (.array items :: frames)
  | .dueSeparator frames (.array items), .closeArray =>
    complete ((Container.array items).close none) frames
  | .dueSeparator frames (.object members), .comma => .dueName frames members
  | .dueSeparator frames (.object members), .closeObject =>
    complete ((Container.object members).close none) frames
  | .dueSeparator frames container, _ => breakContainer .malformed frames container
  | .done document, _ => .done { document with isFollowed := true }

/-- The text ends here. -/
def finish : State → Document
  | .dueValue frames => ⟨wrap .truncated (.broken .truncated) frames, false⟩
  | .dueFirstItem frames => ⟨wrap .truncated (.array [] (some .truncated)) frames, false⟩
  | .dueName frames members =>
    ⟨wrap .truncated ((Container.object members).close (some .truncated)) frames, false⟩
  | .dueColon frames members name =>
    ⟨wrap .truncated (.broken .truncated) (.object members name :: frames), false⟩
  | .dueSeparator frames container =>
    ⟨wrap .truncated (container.close (some .truncated)) frames, false⟩
  | .done document => document

end State

/-! ### Documents -/

/-- The document that the symbols spell. -/
def Document.ofSymbols (symbols : List Symbol) : Document :=
  (symbols.foldl State.next (.dueValue [])).finish

/-- The document of a text. -/
def Document.ofText (text : String) : Document :=
  Document.ofSymbols (Symbol.ofText text.toList)

end Json

end ByteStack
