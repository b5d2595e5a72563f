/-
# Targets of associations

What an association verb works on: the navigation property of one entity, and the
ids of the entities that the caller names.
-/

import OData.Target.Entity

namespace OData.Target

/-- The associations of an entity through one of its properties. -/
structure AssociationTarget where
  /-- Path of the entity and the property. -/
  target : String
  /-- The entity set of the bound entities. -/
  collection : String
  /-- The property through which they are bound. -/
  navigationProperty : String
  /-- The ids that the caller names. -/
  boundIds : List String

/-- A declaration that a function can not do without. -/
def need {α : Type} (cause : SchemaFault) : Option α → Except Fault α
  | some value => .ok value
  | none => .error (.schema cause)

namespace Site

/-- The ids that an input names, as texts. -/
def boundIds (field : Field) (input : Option Record) : Except Fault (List String) :=
  match input.bind (·.value? Query.names.boundIds) with
  | none => .ok []
  | some value => value.flatten.mapM field.type.text

/-- What a function with an association verb works on. -/
def associationTarget (site : Site) (function : Function) (input : Option Record) :
    Except Fault AssociationTarget := do
  let boundIdsField ← need (.missingInput function.name Query.names.boundIds)
    (function.input.field? Query.names.boundIds)
  let entityIdField ← need (.missingInput function.name Query.names.entityId)
    (function.input.field? Query.names.entityId)
  let collection ← need .missingCollection boundIdsField.collectionName
  let navigationProperty ← need .missingNavigation boundIdsField.navigation
  let entityId ← need .missingEntityId (input.bind (·.value? Query.names.entityId))
  let key ← entityIdField.type.text entityId
  let ids ← boundIds boundIdsField input
  let context ← function.requireContext
  return {
    target := site.basePath input ++ "/" ++ context ++ site.endpoint.keySuffix key ++ "/" ++
      navigationProperty
    collection := collection
    navigationProperty := navigationProperty
    boundIds := ids }

end Site

end OData.Target
