/-
# JSON documents

The tree that a text spells, with numerals and texts still as written and with
every member of every object in its place. It is built by one step for each token
from the containers that are still open, so depth costs nothing here.
-/

import OData.Json.Token

namespace OData.Json

/-- A JSON text as written. -/
inductive Document where
  | null
  | boolean (value : Bool)
  | number (numeral : Numeral)
  | text (pieces : List Piece)
  | array (items : List Document)
  | object (members : List (List Piece × Document))

/-- An open container, its finished parts in reverse order. -/
inductive Frame where
  /-- An array that waits for an item. -/
  | items (done : List Document)
  /-- An object that waits for the value of a member. -/
  | members (done : List (List Piece × Document)) (name : List Piece)

/-- What has been read so far, and so what may come next. -/
inductive Progress where
  /-- A value must come. -/
  | valueDue (around : List Frame)
  /-- An array was opened: its first item or its end must come. -/
  | arrayOpened (around : List Frame)
  /-- An object was opened: its first name or its end must come. -/
  | objectOpened (around : List Frame)
  /-- A comma was read in an object: a name must come. -/
  | nameDue (around : List Frame) (done : List (List Piece × Document))
  /-- A name was read: a colon must come. -/
  | colonDue (around : List Frame) (done : List (List Piece × Document)) (name : List Piece)
  /-- A value was read. -/
  | valueRead (around : List Frame) (value : Document)

/-- A token where a value must come. -/
def beginValue (around : List Frame) : Token → Option Progress
  | .null => some (.valueRead around .null)
  | .boolean value => some (.valueRead around (.boolean value))
  | .number numeral => some (.valueRead around (.number numeral))
  | .text pieces => some (.valueRead around (.text pieces))
  | .beginArray => some (.arrayOpened around)
  | .beginObject => some (.objectOpened around)
  | _ => none

/-- A token after a value: the next part of the innermost open container, or its
end. -/
def afterValue (value : Document) : List Frame → Token → Option Progress
  | .items done :: around, .comma => some (.valueDue (.items (value :: done) :: around))
  | .items done :: around, .endArray =>
      some (.valueRead around (.array (value :: done).reverse))
  | .members done name :: around, .comma => some (.nameDue around ((name, value) :: done))
  | .members done name :: around, .endObject =>
      some (.valueRead around (.object ((name, value) :: done).reverse))
  | _, _ => none

/-- One token. -/
def Progress.step : Progress → Token → Option Progress
  | .valueDue around, token => beginValue around token
  | .arrayOpened around, .endArray => some (.valueRead around (.array []))
  | .arrayOpened around, token => beginValue (.items [] :: around) token
  | .objectOpened around, .endObject => some (.valueRead around (.object []))
  | .objectOpened around, .text name => some (.colonDue around [] name)
  | .nameDue around done, .text name => some (.colonDue around done name)
  | .colonDue around done name, .colon => some (.valueDue (.members done name :: around))
  | .valueRead around value, token => afterValue value around token
  | _, _ => none

namespace Document

/-- The document that a sequence of tokens spells. -/
def ofTokens? (tokens : List Token) : Option Document :=
  match tokens.foldlM Progress.step (.valueDue []) with
  | some (.valueRead [] value) => some value
  | _ => none

/-- The document that a text of bytes spells. -/
def read? (bytes : ByteArray) : Option Document :=
  (scan? bytes.data.toList).bind ofTokens?

/-- The document that a text spells. -/
def ofText? (text : String) : Option Document := read? text.toUTF8

end Document

end OData.Json
