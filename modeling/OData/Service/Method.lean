/-
# Verbs

The verbs of functions: five of HTTP, and three that work on the associations of
an entity and stand for whole sequences of requests.
-/

import OData.Fault
import OData.Text.Character

namespace OData

/-- What an association verb does with the ids it is given. -/
inductive AssociationMode where
  /-- Exactly the given ids are bound afterwards. -/
  | merge
  /-- The given ids are bound besides those that are. -/
  | add
  /-- The given ids are bound no longer. -/
  | remove
  deriving DecidableEq

/-- Verb of a function. -/
inductive Method where
  | get
  | post
  | put
  | patch
  | delete
  | associations (mode : AssociationMode)
  deriving DecidableEq

namespace AssociationMode

/-- Name of the mode. -/
def name : AssociationMode → String
  | .merge => "Merge"
  | .add => "Add"
  | .remove => "Remove"

end AssociationMode

namespace Method

/-- Name of a verb. -/
def name : Method → String
  | .get => "GET"
  | .post => "POST"
  | .put => "PUT"
  | .patch => "PATCH"
  | .delete => "DELETE"
  | .associations .merge => "MERGE-ASSOCIATIONS"
  | .associations .add => "ADD-ASSOCIATIONS"
  | .associations .remove => "REMOVE-ASSOCIATIONS"

/-- Every verb. -/
def all : List Method :=
  [.get, .post, .put, .patch, .delete, .associations .merge, .associations .add,
   .associations .remove]

/-- The verb of a name in capitals. -/
def ofName? (name : String) : Option Method := all.find? fun method => method.name == name

/-- The verb of a name in any case. -/
def read (text : String) : Except Fault Method :=
  let name := Text.capitalized text
  match ofName? name with
  | some method => .ok method
  | none => .error (.schema (.unknownMethod name))

/-- The mode of a verb that works on associations. -/
def mode? : Method → Option AssociationMode
  | .associations mode => some mode
  | _ => none

/-- The verb writes an entity, whose body may refer to other entities. -/
def writesEntity : Method → Bool
  | .post | .put | .patch => true
  | _ => false

/-- The verb changes an entity that has to exist, and so is conditional. -/
def isConditional : Method → Bool
  | .put | .patch | .delete => true
  | _ => false

/-- A verb is found again under its name. -/
theorem ofName?_name (method : Method) : ofName? method.name = some method := by
  cases method with
  | associations mode => cases mode <;> decide
  | _ => decide

end Method

end OData
