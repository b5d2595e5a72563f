/-
# Keys inside addresses

Reading the key of an entity back from its address. In one convention the key
stands in parentheses, in the other it is the last segment of the path.
-/

import OData.Text.Character

namespace OData.Target

/-- The content of the parentheses that open right before `chars`: at least one
character, up to the first closing one. -/
def groupAt? (chars : List Char) : Option (List Char) :=
  let content := chars.takeWhile (· != ')')
  if content.isEmpty then none
  else if content.length < chars.length then some content
  else none

/-- The content of the last parentheses that open in the first line of `chars`. -/
def lastGroup? : List Char → Option (List Char)
  | [] => none
  | c :: rest =>
      if c = '\n' then none
      else match lastGroup? rest with
        | some content => some content
        | none => if c = '(' then groupAt? rest else none

/-- The last segment of a path, slashes at the end apart. -/
def lastSegment (chars : List Char) : List Char :=
  ((Text.dropEndWhile (· == '/') chars).reverse.takeWhile (· != '/')).reverse

/-- The key of the entity that a reference points at. -/
def referenceKey (reference : String) : String :=
  match lastGroup? reference.toList with
  | some key => String.ofList key
  | none => String.ofList (lastSegment reference.toList)

/-- The content of parentheses that open right before `chars` and close at the
very end, with no others closing between. -/
def closedGroup? (chars : List Char) : Option (List Char) :=
  let content := chars.dropLast
  if chars.getLast? = some ')' && !content.isEmpty && !content.contains ')' then some content
  else none

/-- The content of the last parentheses that open in the segment at the front,
after its first character, and close at the very end. -/
def segmentGroup? : List Char → Option (List Char)
  | [] => none
  | c :: rest =>
      if c = '/' then none
      else match segmentGroup? rest with
        | some content => some content
        | none =>
            match rest with
            | '(' :: content => closedGroup? content
            | _ => none

/-- The key at the end of a path, in the last segment of the first line that
carries one. -/
def pathKey? : List Char → Option (List Char)
  | [] => none
  | c :: rest =>
      if c = '\n' then none
      else match pathKey? rest with
        | some key => some key
        | none => if c = '/' then segmentGroup? rest else none

/-- The key of a new entity at an absolute address that ends in a key in
parentheses. Any other text is the key itself. -/
def createdKey (location : String) : String :=
  let scheme := "http".toList
  if scheme.isPrefixOf location.toList then
    match pathKey? (location.toList.drop scheme.length) with
    | some key => String.ofList key
    | none => location
  else location

end OData.Target
