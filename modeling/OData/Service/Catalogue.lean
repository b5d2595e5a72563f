/-
# The catalogue of services

The functions that a client exposes, each under an id of its own. The input of a
service is that of its function, extended by structured filters and by the values
of path templates where they apply.
-/

import OData.Service.Definition
import OData.Target.Template

namespace OData

/-- What a service depends on to be run. -/
structure Dependency where
  /-- Address of the service. -/
  endpoint : String
  /-- Id of the service. -/
  artifact : String
  method : Method
  /-- Id of the client. -/
  group : String

/-- A service in the catalogue. -/
structure ServiceDescriptor where
  id : String
  function : Function
  input : ComplexType
  dependency : Dependency

/-- JSON form of a dependency. -/
def Dependency.toJson (dependency : Dependency) : Json := .object [
  ("endpoint", .string dependency.endpoint),
  ("artifactId", .string dependency.artifact),
  ("method", .string dependency.method.name),
  ("group", .string dependency.group),
  ("type", .string "REST")]

namespace Catalogue

/-- What stands between the id of a client and the name of a function. -/
def idMark : String := ".services."

/-- The id of a function as a service of a client. -/
def serviceId (clientId : String) (function : Function) : String :=
  clientId ++ idMark ++ function.qualifiedName

/-- Shape of one structured filter clause. -/
def clauseType : ComplexType := {
  name := "filter"
  fields := [
    { name := "key", type := .string },
    { name := "operator", type := .string },
    { name := "values", type := .any, maxOccurs := some 0, minOccurs := some 0 },
    { name := "or", type := .boolean, minOccurs := some 0 },
    { name := "caseInsensitive", type := .boolean, minOccurs := some 0 }] }

/-- The field for structured filters. -/
def filtersField : Field := {
  name := Query.names.filters
  type := .complex clauseType
  maxOccurs := some 0
  minOccurs := some 0 }

/-- The field for the values of path templates. -/
def pathField (parameters : List String) : Field := {
  name := Query.names.path
  type := .complex {
    name := Query.names.path
    fields := parameters.map fun name =>
      { name := name, type := .string, minOccurs := some 0 } } }

/-- Structured filters go with a filter expression, unless they are declared. -/
def extraFilters (input : ComplexType) : List Field :=
  if (input.field? Query.names.filter).isSome && (input.field? Query.names.filters).isNone then
    [filtersField]
  else []

/-- Values of path templates go with templates, unless they are declared. -/
def extraPath (fields : List Field) (basePath : String) : List Field :=
  let parameters := Target.parameters basePath
  if !parameters.isEmpty && !fields.any (fun field => field.name == Query.names.path) then
    [pathField parameters]
  else []

/-- The input of a function as a service. -/
def inputInterface (function : Function) (basePath : String) : ComplexType :=
  let fields := function.input.fields ++ extraFilters function.input
  { function.input with name := "input", fields := fields ++ extraPath fields basePath }

/-- The entry of a function. -/
def describe (clientId : String) (definition : Definition) (function : Function) :
    ServiceDescriptor := {
  id := serviceId clientId function
  function := function
  input := inputInterface function definition.basePath
  dependency := {
    endpoint := definition.root
    artifact := serviceId clientId function
    method := function.method
    group := clientId } }

/-- The function works on one of the given entity sets. -/
def isExposed (entitySets : List String) (function : Function) : Bool :=
  function.context.any entitySets.contains

/-- The services that a client exposes. -/
def services (clientId : String) (definition : Definition) (entitySets : List String) :
    List ServiceDescriptor :=
  (definition.functions.filter (isExposed entitySets)).map (describe clientId definition)

end Catalogue

end OData
