/-
# Links to existing entities

A field `owner@odata.bind` next to a complex field `owner` links to an entity that
exists already. Fields that name `owner` as the sibling they link to carry the key
of that entity. Before a record is sent, the key becomes a reference such as
`/Owners(42)` in the bind field, and the fields it was taken from become null.
-/

import OData.Service.Definition
import OData.Text.Escaped

namespace OData.Body

/-- Where the entity set of a type is looked up. -/
structure Links where
  definition : Definition
  /-- Types that are looked up before those of the definition. -/
  registry : Option (String → Option ComplexType) := none

/-- End of the name of a bind field. -/
def bindMark : String := "@odata.bind"

/-- The name of the sibling that a bind field belongs to. -/
def bindBase? (name : String) : Option String :=
  let chars := name.toList
  if bindMark.toList.isSuffixOf chars then
    some (String.ofList (chars.take (chars.length - bindMark.toList.length)))
  else none

namespace Links

/-- The type registered under an id. -/
def type? (links : Links) (id : String) : Option ComplexType :=
  (links.registry.bind (· id)).orElse fun _ => links.definition.type? id

/-- The entity set registered for the type of a sibling. -/
def registeredCollection? (links : Links) (sibling : Field) : Option String :=
  ((sibling.complex?.bind ComplexType.id).bind links.type?).bind ComplexType.collectionName

/-- The entity set that a navigation property of the sibling's name leads to. -/
def navigationCollection? (links : Links) (type : ComplexType) (sibling : Field) :
    Option String := do
  let id ← type.id
  let property ← (links.definition.navigationPropertiesOf id).find? fun property =>
    property.name == sibling.name
  property.targetEntitySet

/-- The entity set of the entities linked through a sibling: the one it declares,
that its type declares, that its type is registered with, or that it leads to. -/
def collection? (links : Links) (type : ComplexType) (sibling : Field) : Option String :=
  sibling.collectionName.orElse fun _ =>
    (sibling.complex?.bind ComplexType.collectionName).orElse fun _ =>
      (links.registeredCollection? sibling).orElse fun _ =>
        links.navigationCollection? type sibling

end Links

/-- A key as it stands in parentheses; keys of string type are quoted. -/
def keyLiteral (field : Field) (value : Value) : Except Fault String := do
  let text ← field.type.text value
  return if field.type.isQuoted then Text.quote text else text

/-- A reference to an entity of a set. -/
def reference (collection key : String) : Value :=
  .scalar (.text ("/" ++ collection ++ "(" ++ key ++ ")"))

/-- Set a link that one field carries the key of, or a list of keys. -/
def setSingleLink (bindName collection : String) (field : Field) (record : Record) :
    Except Fault Record :=
  match record.get? field.name with
  | none | some .null => .ok record
  | some (.list items) => do
      let references ← (items.filter fun item => !item.isNull).mapM fun item =>
        (keyLiteral field item).map (reference collection)
      return (record.set bindName (.list references)).set field.name .null
  | some value => do
      let key ← keyLiteral field value
      return (record.set bindName (reference collection key)).set field.name .null

/-- Take the parts of a composite key out of a record: `remote=key` for each field
that has a mapping and a value. -/
def takeKeyParts : List Field → Record → Except Fault (List String × Record)
  | [], record => .ok ([], record)
  | field :: rest, record => do
      let remote? ← field.remoteField
      match remote?, record.value? field.name with
      | some remote, some value => do
          let key ← keyLiteral field value
          let (parts, left) ← takeKeyParts rest (record.set field.name .null)
          return ((remote ++ "=" ++ key) :: parts, left)
      | _, _ => takeKeyParts rest record

/-- Set a link whose key is made of several fields. -/
def setCompositeLink (bindName collection : String) (fields : List Field) (record : Record) :
    Except Fault Record := do
  let (parts, left) ← takeKeyParts fields record
  if parts.isEmpty then return left
  else return left.set bindName (reference collection (",".intercalate parts))

/-- The fields of a type that carry the key of the entity linked through a name. -/
def linkedFields (type : ComplexType) (base : String) : List Field :=
  type.fields.filter fun field => field.foreignName == some base

/-- Set the link of one bind field. Without a complex sibling, or without an
entity set to refer to, it is left alone. -/
def setLink (links : Links) (type : ComplexType) (bindName base : String) (record : Record) :
    Except Fault Record :=
  match (type.field? base).filter Field.isComplex with
  | none => .ok record
  | some sibling =>
      match links.collection? type sibling with
      | none => .ok record
      | some collection =>
          match linkedFields type base with
          | [] => .ok record
          | [field] => setSingleLink bindName collection field record
          | fields => setCompositeLink bindName collection fields record

mutual

/-- Set the links of a record and of the records inside it. -/
def setLinks (links : Links) : ComplexType → Record → Except Fault Record
  | ⟨name, id, collectionName, fields⟩, record =>
      setFieldLinks links ⟨name, id, collectionName, fields⟩ fields record

/-- Set the links of a record of a type for some of its fields, in order. -/
def setFieldLinks (links : Links) (type : ComplexType) :
    List Field → Record → Except Fault Record
  | [], record => .ok record
  | ⟨name, fieldType, _, _, _, _, _, _, _, _⟩ :: rest, record => do
      let linked ← match bindBase? name with
        | some base => setLink links type name base record
        | none => setInnerLinks links name fieldType record
      setFieldLinks links type rest linked

/-- Set the links inside a field of a record. -/
def setInnerLinks (links : Links) (name : String) : ValueType → Record → Except Fault Record
  | .complex type, record =>
      match record.get? name with
      | some (.record inner) => do
          let linked ← setLinks links type inner
          return record.set name (.record linked)
      | some (.list items) => do
          let linked ← items.mapM fun item =>
            match item with
            | .record inner => (setLinks links type inner).map .record
            | other => .ok other
          return record.set name (.list linked)
      | _ => .ok record
  | _, record => .ok record

end

end OData.Body
