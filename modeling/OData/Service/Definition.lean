/-
# Service definitions

What a service offers: its address, its functions, its registered types, and the
navigation properties that lead from one entity type to a set of others.
-/

import OData.Service.Endpoint
import OData.Service.Function

namespace OData

open Json (Decoder)

/-- A relationship that an entity type declares. -/
structure NavigationProperty where
  /-- The id of the type that declares it. -/
  qualifiedName : String
  name : String
  /-- The entity set that it leads to. -/
  targetEntitySet : Option String
  /-- It leads to many entities. -/
  collection : Bool

/-- Description of a service. -/
structure Definition where
  scheme : String
  host : String
  /-- Path of the service below the host, with templates in braces. -/
  basePath : String
  navigationProperties : List NavigationProperty := []
  functions : List Function := []
  /-- Types that are registered for the whole service. -/
  types : List ComplexType := []

namespace NavigationProperty

/-- Reader of a written navigation property. -/
def form : Decoder NavigationProperty := fun levels document => do
  let (left, slots) ← Json.slots?
    ["qualifiedName", "name", "targetEntitySet", "collection"] levels document
  match slots with
  | [qualifiedName, name, targetEntitySet, collection] =>
      return {
        qualifiedName := ← qualifiedName.required Decoder.text left
        name := ← name.required Decoder.text left
        targetEntitySet := ← targetEntitySet.optional Decoder.text left
        collection := ← collection.withDefault false Decoder.boolean left }
  | _ => none

/-- JSON form of a navigation property. -/
def toJson (property : NavigationProperty) : Json := .object [
  ("qualifiedName", .string property.qualifiedName),
  ("name", .string property.name),
  ("targetEntitySet", Json.ofText property.targetEntitySet),
  ("collection", .boolean property.collection)]

end NavigationProperty

/-- The first of several types that is registered under an id. -/
def registered? (types : List ComplexType) (id : String) : Option ComplexType :=
  types.find? fun type => type.id == some id

namespace Definition

/-- The service is reached over an encrypted connection. -/
def usesTls (definition : Definition) : Bool :=
  Text.sameIgnoringCase definition.scheme "https"

/-- Address under which everything of the service lies. -/
def root (definition : Definition) : String :=
  serviceRoot definition.scheme definition.host definition.basePath

/-- The navigation properties that a type declares. -/
def navigationPropertiesOf (definition : Definition) (typeId : String) :
    List NavigationProperty :=
  definition.navigationProperties.filter fun property => property.qualifiedName == typeId

/-- The first function of a name on an entity set. -/
def function? (definition : Definition) (context name : String) : Option Function :=
  definition.functions.find? fun function =>
    function.context == some context && function.name == name

/-- The type that the service registers under an id. -/
def type? (definition : Definition) (id : String) : Option ComplexType :=
  registered? definition.types id

/-- Reader of a written definition. -/
def form : Decoder Definition := fun levels document => do
  let (left, slots) ← Json.slots?
    ["scheme", "host", "basePath", "navigationProperties", "functions", "types"] levels document
  match slots with
  | [scheme, host, basePath, navigationProperties, functions, types] =>
      return {
        scheme := ← scheme.required Decoder.text left
        host := ← host.required Decoder.text left
        basePath := ← basePath.required Decoder.text left
        navigationProperties := ← navigationProperties.withDefault []
          (Decoder.list NavigationProperty.form) left
        functions := ← functions.withDefault [] (Decoder.list Function.form) left
        types := ← types.withDefault [] (Decoder.list Schema.complexType) left }
  | _ => none

/-- JSON form of a definition. -/
def toJson (definition : Definition) : Json := .object [
  ("scheme", .string definition.scheme),
  ("host", .string definition.host),
  ("basePath", .string definition.basePath),
  ("navigationProperties", .array (definition.navigationProperties.map (·.toJson))),
  ("functions", .array (definition.functions.map Function.toJson)),
  ("types", .array (definition.types.map ComplexType.toJson))]

end Definition

end OData
