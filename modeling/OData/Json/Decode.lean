/-
# Reading structures from JSON

Readers of documents with a declared shape. A structure is an object whose
unknown members are passed over, or an array of its members in order. A member
with a default may be missing; a repeated one is an error. Every array and object
that is entered takes one of the levels of nesting that may be used.
-/

import OData.Json.Basic

namespace OData.Json

/-- Reads a document in which that many levels may still be entered. -/
abbrev Decoder (α : Type) := (levels : Nat) → Document → Option α

/-- What a structure holds under the name of a member. -/
inductive Slot where
  | present (document : Document)
  /-- The object does not have the member. -/
  | missing
  /-- The array of members ended before this one. -/
  | cutShort

namespace Decoder

/-- The value of a text, read from scratch. -/
def readText? {α : Type} (decoder : Decoder α) (text : String) : Option α :=
  (Document.ofText? text).bind (decoder greatestDepth)

/-- A text. -/
def text : Decoder String := fun _ document =>
  match document with
  | .text pieces => textOf? pieces
  | _ => none

/-- A truth value. -/
def boolean : Decoder Bool := fun _ document =>
  match document with
  | .boolean value => some value
  | _ => none

/-- A natural number of 32 bits, written as an integer. -/
def natural32 : Decoder Nat := fun _ document =>
  match document with
  | .number numeral =>
      match numeral.value? with
      | some (.integer value) =>
          if 0 ≤ value && value < 0x100000000 then some value.toNat else none
      | _ => none
  | _ => none

/-- Any JSON value. -/
def value : Decoder Json := ofDocument?

/-- A value, or nothing for null. -/
def nullable {α : Type} (decoder : Decoder α) : Decoder (Option α) := fun levels document =>
  match document with
  | .null => some none
  | _ => (decoder levels document).map some

/-- An array of values. -/
def list {α : Type} (decoder : Decoder α) : Decoder (List α) := fun levels document =>
  match document with
  | .array items => if levels = 0 then none else items.mapM (decoder (levels - 1))
  | _ => none

end Decoder

/-- The members of an object under their decoded names. -/
def namedMembers? (members : List (List Piece × Document)) : Option (List (String × Document)) :=
  members.mapM fun member => (textOf? member.1).map fun name => (name, member.2)

/-- The slot of a member; none when the member is repeated. -/
def slotOf? (members : List (String × Document)) (name : String) : Option Slot :=
  match members.filter fun member => member.1 == name with
  | [] => some .missing
  | [member] => some (.present member.2)
  | _ => none

/-- The slots of the named members of a structure, and the levels left inside. -/
def slots? (names : List String) (levels : Nat) (document : Document) :
    Option (Nat × List Slot) :=
  if levels = 0 then none
  else match document with
    | .object members => do
        let named ← namedMembers? members
        let slots ← names.mapM (slotOf? named)
        return (levels - 1, slots)
    | .array items =>
        if names.length < items.length then none
        else some (levels - 1,
          items.map .present ++ List.replicate (names.length - items.length) .cutShort)
    | _ => none

/-- The name and the content of a variant: a text alone, or the only member of an
object. -/
def variant? (levels : Nat) (document : Document) : Option (String × Option (Nat × Document)) :=
  match document with
  | .text pieces => (textOf? pieces).map fun name => (name, none)
  | .object [(pieces, content)] =>
      if levels = 0 then none
      else (textOf? pieces).map fun name => (name, some (levels - 1, content))
  | _ => none

/-- A variant without content may also be written with null for it. -/
def isBare : Option (Nat × Document) → Bool
  | none => true
  | some (_, .null) => true
  | _ => false

namespace Slot

/-- A member that must be there. -/
def required {α : Type} (slot : Slot) (decoder : Decoder α) (levels : Nat) : Option α :=
  match slot with
  | .present document => decoder levels document
  | _ => none

/-- A member with a default. -/
def withDefault {α : Type} (slot : Slot) (default : α) (decoder : Decoder α) (levels : Nat) :
    Option α :=
  match slot with
  | .present document => decoder levels document
  | _ => some default

/-- A member that may be null or missing. -/
def optional {α : Type} (slot : Slot) (decoder : Decoder α) (levels : Nat) : Option (Option α) :=
  slot.withDefault none decoder.nullable levels

/-- A member that may be null, or missing from an object, but that an array of
members may not leave out. -/
def nullable {α : Type} (slot : Slot) (decoder : Decoder α) (levels : Nat) : Option (Option α) :=
  match slot with
  | .present document => decoder.nullable levels document
  | .missing => some none
  | .cutShort => none

end Slot

/-- A text, or null for none. -/
def ofText (text : Option String) : Json :=
  match text with
  | some value => .string value
  | none => .null

/-- A natural number, or null for none. -/
def ofNat (number : Option Nat) : Json :=
  match number with
  | some value => .number (.integer value)
  | none => .null

end OData.Json
