/-
# Faults

Everything that can go wrong between an input record and an output record, by
cause. The wording of each cause is given once, by `message`.
-/

import OData.Json.Malformation

namespace OData

/-- What is missing or malformed in a schema, a definition or an input. -/
inductive SchemaFault where
  /-- A complex type has no plain text. -/
  | complexType
  /-- A null was asked for its text. -/
  | nullValue
  /-- A record or a list was asked for its text. -/
  | compositeValue
  /-- The mapping of a foreign key does not name a remote field. -/
  | foreignKeyMapping (mapping field : String)
  /-- JSON has no number for this float. -/
  | unsendable (number : Float)
  /-- A query option has to be an integer. -/
  | notInteger (option : String)
  /-- A query option has to be a truth value. -/
  | notBoolean (option : String)
  /-- A parent id has no plain text. -/
  | parentId (field : String)
  /-- A primary key has no value. -/
  | missingKey (field : String)
  /-- The function does not declare an input that its verb needs. -/
  | missingInput (function input : String)
  /-- The bound ids do not say which entity set they are from. -/
  | missingCollection
  /-- The bound ids do not say through which property they are bound. -/
  | missingNavigation
  /-- An association has no entity to start from. -/
  | missingEntityId
  /-- The function belongs to no entity set. -/
  | missingContext (function : String)
  /-- There is no such verb. -/
  | unknownMethod (name : String)
  /-- Bodies are written in UTF-8 only. -/
  | unsupportedCharset (charset : String)
  /-- The definition has no such function. -/
  | unknownFunction (context name : String)

/-- What is malformed in filter clauses. -/
inductive FilterFault where
  /-- A key is a record or a list. -/
  | keyNotScalar
  /-- A value is a record or a list. -/
  | valueNotScalar
  /-- A clause is not a record. -/
  | clauseNotRecord
  /-- A comparison has nothing to compare with. -/
  | missingValue (operator key : String)

/-- Why a request could not be authenticated. -/
inductive AuthFault where
  /-- No authenticator serves the security type. -/
  | unavailable (securityType : String)
  /-- The authenticator refused the request. -/
  | refused (securityType method target : String)
  /-- The authenticator failed in its own way. -/
  | failed (message : String)

/-- Why there is no service definition. -/
inductive MetadataFault where
  /-- The endpoint address names no scheme. -/
  | missingScheme (endpoint : String)
  /-- The endpoint address names no host. -/
  | missingHost (endpoint : String)
  /-- The definition's file can not be read. -/
  | unreadable (path reason : String)
  /-- The definition's file is not a definition. -/
  | malformed (path : String)
  /-- The source of the definition failed in its own way. -/
  | failed (message : String)

/-- What is wrong with a response body. -/
inductive DecodeFault where
  /-- The body is not JSON. -/
  | malformed (why : Json.Malformation)
  /-- An object was expected where a complex type is declared. -/
  | notObject (complexType : String)
  /-- A value does not fit the type of its field. -/
  | mismatch (json : Json) (field : String)
  /-- The listing of references can not be read. -/
  | references (why : Json.Malformation)

/-- Everything that can go wrong with an operation. -/
inductive Fault where
  | schema (cause : SchemaFault)
  | filter (cause : FilterFault)
  | auth (cause : AuthFault)
  /-- The server answered with a status other than success. -/
  | protocol (status : Nat) (body : Option String)
  | transport (message : String)
  | metadata (cause : MetadataFault)
  | decode (cause : DecodeFault)

/-- Wording of a schema fault. -/
def SchemaFault.message : SchemaFault → String
  | .complexType => "complex values can not be marshalled to a string"
  | .nullValue => "can not marshal a null value"
  | .compositeValue => "only scalar values can be marshalled to a string"
  | .foreignKeyMapping mapping field =>
      "foreign key mapping '" ++ mapping ++ "' of field '" ++ field ++
        "' is not of the form entitySet:field"
  | .unsendable number => Number.plainText number ++ " can not be sent as JSON"
  | .notInteger option => "'" ++ option ++ "' must be an integer"
  | .notBoolean option => "'" ++ option ++ "' must be a boolean"
  | .parentId field => "parent id '" ++ field ++ "' is not a scalar"
  | .missingKey field => "missing value for primary key '" ++ field ++ "'"
  | .missingInput function input => "function '" ++ function ++ "' has no " ++ input ++ " input"
  | .missingCollection => "boundIds must declare the collection name of the bound entities"
  | .missingNavigation => "boundIds must declare the navigation property as alias"
  | .missingEntityId => "missing value for entityId"
  | .missingContext function => "function '" ++ function ++ "' has no context"
  | .unknownMethod name => "unknown method '" ++ name ++ "'"
  | .unsupportedCharset charset => "unsupported charset '" ++ charset ++ "'"
  | .unknownFunction context name => "no function '" ++ name ++ "' on '" ++ context ++ "'"

/-- Wording of a filter fault. -/
def FilterFault.message : FilterFault → String
  | .keyNotScalar => "filter key must be a scalar"
  | .valueNotScalar => "filter values must be scalars"
  | .clauseNotRecord => "filters must be records"
  | .missingValue operator key =>
      "operator '" ++ operator ++ "' on '" ++ key ++ "' requires at least one value"

/-- Wording of an authentication fault. -/
def AuthFault.message : AuthFault → String
  | .unavailable securityType =>
      "no authenticator available for security type '" ++ securityType ++ "'"
  | .refused securityType method target =>
      securityType ++ " authentication refused " ++ method ++ " " ++ target
  | .failed message => message

/-- Wording of a metadata fault. -/
def MetadataFault.message : MetadataFault → String
  | .missingScheme endpoint => "endpoint '" ++ endpoint ++ "' has no scheme"
  | .missingHost endpoint => "endpoint '" ++ endpoint ++ "' has no host"
  | .unreadable path reason => "failed to read " ++ path ++ ": " ++ reason
  | .malformed path => "failed to parse " ++ path ++ ": " ++ Json.malformedText
  | .failed message => message

/-- Wording of a decoding fault. -/
def DecodeFault.message : DecodeFault → String
  | .malformed why => why.message
  | .notObject complexType => "expected a JSON object for '" ++ complexType ++ "'"
  | .mismatch json field =>
      "value " ++ json.compact ++ " does not match the type of field '" ++ field ++ "'"
  | .references why => "invalid reference list: " ++ why.message

/-- Full wording of a fault. -/
def Fault.message : Fault → String
  | .schema cause => "schema error: " ++ cause.message
  | .filter cause => "filter error: " ++ cause.message
  | .auth cause => "could not authenticate the request: " ++ cause.message
  | .protocol status _ => "unexpected HTTP status " ++ toString status
  | .transport message => "transport error: " ++ message
  | .metadata cause => "service definition unavailable: " ++ cause.message
  | .decode cause => "could not decode response: " ++ cause.message

/-- The status of a fault that the server answered with. -/
def Fault.status? : Fault → Option Nat
  | .protocol status _ => some status
  | _ => none

end OData
