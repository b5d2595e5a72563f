/-
# Path templates

A base path may hold templates such as `{ site }`, with blanks around the name.
A template whose name has a scalar value is replaced by that value's text; any
other is left as it is.
-/

import OData.Query.Options
import OData.Text.Character

namespace OData.Target

/-- A character that may stand in the name of a template. -/
def isNameChar (c : Char) : Bool := c != '\x7b' && c != '\x7d' && !Text.isBlank c

/-- The name of the template that begins with the brace before `chars`, and what
comes after the template. -/
def templateAt? (chars : List Char) : Option (List Char × List Char) :=
  let inner := chars.dropWhile Text.isBlank
  let name := inner.takeWhile isNameChar
  match (inner.dropWhile isNameChar).dropWhile Text.isBlank with
  | '\x7d' :: rest => if name.isEmpty then none else some (name, rest)
  | _ => none

/-- The names of the templates in `chars`, in order; a template is not searched
for others. Each character is looked at once, so `chars.length` looks suffice. -/
def templateNames : (looks : Nat) → List Char → List (List Char)
  | 0, _ => []
  | _, [] => []
  | looks + 1, c :: rest =>
      if c = '\x7b' then
        match templateAt? rest with
        | some (name, after) => name :: templateNames looks after
        | none => templateNames looks rest
      else templateNames looks rest

/-- Every name once, where it occurs first. -/
def distinct : List String → List String
  | [] => []
  | name :: rest => name :: (distinct rest).filter (· != name)

/-- The names of the templates of a path, each once, in order of first occurrence. -/
def parameters (path : String) : List String :=
  distinct ((templateNames path.toList.length path.toList).map String.ofList)

/-- What comes after the template of this name that begins with the brace before
`chars`. -/
def afterTemplate? (name chars : List Char) : Option (List Char) :=
  let inner := chars.dropWhile Text.isBlank
  if name.isPrefixOf inner then
    match (inner.drop name.length).dropWhile Text.isBlank with
    | '\x7d' :: rest => some rest
    | _ => none
  else none

/-- Replace every template of a name by a value. -/
def fill (name value : List Char) : (looks : Nat) → List Char → List Char
  | 0, chars => chars
  | _, [] => []
  | looks + 1, c :: rest =>
      if c = '\x7b' then
        match afterTemplate? name rest with
        | some after => value ++ fill name value looks after
        | none => c :: fill name value looks rest
      else c :: fill name value looks rest

/-- Replace every template of a name by a value, if there is one. -/
def fillWith (values : Record) (path name : String) : String :=
  match (values.value? name).bind Value.plain? with
  | some value => String.ofList (fill name.toList value.toList path.toList.length path.toList)
  | none => path

/-- Fill the templates of a path, name after name, from the `path` record of an
input. -/
def substitute (path : String) (input : Option Record) : String :=
  match (input.bind (·.value? Query.names.path)).bind Value.record? with
  | some values => (parameters path).foldl (fillWith values) path
  | none => path

end OData.Target
