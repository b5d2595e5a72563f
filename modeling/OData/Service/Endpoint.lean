/-
# Endpoints

How one service is spoken to: the settings that stay the same for the lifetime of
a client, and the two conventions for keys in addresses.
-/

import OData.Fault
import OData.Json.Decode
import OData.Text.Character

namespace OData

open Json (Decoder)

/-- Settings of a service that are the same for every call. -/
structure Endpoint where
  /-- Name of the character set of bodies. -/
  charset : String := "UTF-8"
  /-- Keys are path segments instead of standing in parentheses. -/
  keyAsSegment : Bool := false
  /-- Changes are never made conditional. -/
  ignoreEtag : Bool := false
  /-- References are created by `POST` instead of `PUT`. -/
  usePostForRelations : Bool := false
  /-- How requests are authenticated, if they are. -/
  securityType : Option String := none
  /-- Which credentials are used. -/
  securityContext : Option String := none

/-- A key after the entity set it belongs to: `/key` or `(key)`. -/
def keySuffix (keyAsSegment : Bool) (key : String) : String :=
  if keyAsSegment then "/" ++ key else "(" ++ key ++ ")"

/-- An entity of a set. -/
def entityReference (keyAsSegment : Bool) (collection key : String) : String :=
  collection ++ keySuffix keyAsSegment key

/-- Address under which everything of a service lies. -/
def serviceRoot (scheme host basePath : String) : String :=
  scheme ++ "://" ++ host ++ basePath

namespace Endpoint

/-- A key in the convention of the endpoint. -/
def keySuffix (endpoint : Endpoint) (key : String) : String :=
  OData.keySuffix endpoint.keyAsSegment key

/-- Underscores of a charset's name stand for hyphens. -/
def charsetName (charset : String) : String :=
  String.ofList (charset.toList.map fun c => if c = '_' then '-' else c)

/-- Bodies can be written in UTF-8 only. -/
def validate (endpoint : Endpoint) : Except Fault Unit :=
  let name := charsetName endpoint.charset
  if Text.sameIgnoringCase name "UTF-8" || Text.sameIgnoringCase name "UTF8" then .ok ()
  else .error (.schema (.unsupportedCharset endpoint.charset))

/-- Reader of written settings; each has a default. -/
def form : Decoder Endpoint := fun levels document => do
  let (left, slots) ← Json.slots?
    ["charset", "keyAsSegment", "ignoreEtag", "usePostForRelations", "securityType",
     "securityContext"] levels document
  match slots with
  | [charset, keyAsSegment, ignoreEtag, usePostForRelations, securityType, securityContext] =>
      return {
        charset := ← charset.withDefault "UTF-8" Decoder.text left
        keyAsSegment := ← keyAsSegment.withDefault false Decoder.boolean left
        ignoreEtag := ← ignoreEtag.withDefault false Decoder.boolean left
        usePostForRelations := ← usePostForRelations.withDefault false Decoder.boolean left
        securityType := ← securityType.optional Decoder.text left
        securityContext := ← securityContext.optional Decoder.text left }
  | _ => none

/-- JSON form of the settings. -/
def toJson (endpoint : Endpoint) : Json := .object [
  ("charset", .string endpoint.charset),
  ("keyAsSegment", .boolean endpoint.keyAsSegment),
  ("ignoreEtag", .boolean endpoint.ignoreEtag),
  ("usePostForRelations", .boolean endpoint.usePostForRelations),
  ("securityType", Json.ofText endpoint.securityType),
  ("securityContext", Json.ofText endpoint.securityContext)]

end Endpoint

end OData
