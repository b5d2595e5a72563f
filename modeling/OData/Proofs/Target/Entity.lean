/-
# Targets taken apart

A target is written in one piece, and what it consists of can not always be told from
the text: sets and keys may hold slashes and parentheses of their own. What can be
said is how it was put together. This module takes the targets of both kinds of verbs
apart into the texts they were made from, in the order in which they stand.
-/

import OData.Proofs.Outcome
import OData.Proofs.Record
import OData.Target.Association

namespace OData.Target

theorem eq_some_of_need {α : Type} {cause : SchemaFault} {given : Option α} {value : α}
    (isOk : need cause given = .ok value) : given = some value := by
  cases given with
  | none => cases isOk
  | some _ => exact congrArg some (Except.ok.inj isOk)

theorem context_eq_of_requireContext {function : Function} {context : String}
    (isOk : function.requireContext = .ok context) : function.context = some context := by
  unfold Function.requireContext at isOk
  split at isOk
  · split at isOk
    · cases isOk
    · rename_i isContext _
      rw [isContext, Except.ok.inj isOk]
  · cases isOk

/-- Only scalars of simple types have a text. -/
theorem text_scalar {type : ValueType} (isSimple : type.isComplex = false) (value : Scalar) :
    type.text (.scalar value) = .ok (type.scalarText value) := by
  simp [ValueType.text, isSimple]

theorem isSimple_of_text {type : ValueType} {value : Value} {key : String}
    (isOk : type.text value = .ok key) : type.isComplex = false := by
  unfold ValueType.text at isOk
  split at isOk
  · cases isOk
  · rename_i isSimple
    exact Bool.eq_false_iff.mpr isSimple

theorem scalarText_of_text {type : ValueType} {value : Scalar} {key : String}
    (isOk : type.text (.scalar value) = .ok key) : key = type.scalarText value :=
  Except.ok.inj (isOk.symm.trans (text_scalar (isSimple_of_text isOk) value))

/-- The options of an input are read from the values of its fields. -/
theorem ofInput_congr {first second : Record}
    (same : ∀ name, first.get? name = second.get? name) :
    Query.Options.ofInput (some first) = Query.Options.ofInput (some second) := by
  have sameValue (name : String) : first.value? name = second.value? name :=
    Record.value?_congr (same name)
  simp only [Query.Options.ofInput, Query.Options.ofRecord, Query.booleanOption,
    Query.integerOption, Query.clausesOption, Query.textOption, sameValue]

namespace Site

/-- The options that are asked for: clauses that name parents are no conditions, and
`get` also asks for what its output declares. -/
def asked (function : Function) (options : Query.Options) : Query.Options :=
  let conditions :=
    { options with filters := options.filters.filter fun clause => !isParentClause clause }
  if function.method = .get then conditions.expanding function.output else conditions

/-- A target depends on an input by the values of its fields, not by their order. -/
theorem entityTarget_congr {first second : Record}
    (same : ∀ name, first.get? name = second.get? name) (site : Site) (function : Function) :
    site.entityTarget function (some first) = site.entityTarget function (some second) := by
  have sameValue (name : String) : first.value? name = second.value? name :=
    Record.value?_congr (same name)
  simp only [entityTarget, bodyParents, keyParts, basePath, substitute, Option.bind_some,
    sameValue, ofInput_congr same]

/-- What the target of a regular verb is made of. -/
structure Parts (site : Site) (function : Function) (input : Option Record) where
  bodyParents : List String
  options : Query.Options
  filterParents : List String
  context : String
  keys : List String
  query : String
  isBodyParents : site.bodyParents function input = .ok bodyParents
  isOptions : Query.Options.ofInput input = .ok options
  isFilterParents : site.filterParents function options.filters = .ok filterParents
  isContext : function.context = some context
  isKeys : site.keyParts function input = .ok keys
  isQuery : (asked function options).queryString = .ok query

namespace Parts

variable {site : Site} {function : Function} {input : Option Record}

/-- The parents in front of the entity. -/
def parents (parts : site.Parts function input) : String :=
  String.join parts.bodyParents ++ String.join parts.filterParents

/-- The entity set, or the entity, that the verb works on. -/
def entity (parts : site.Parts function input) : String :=
  parts.context ++ String.join parts.keys

/-- The parts put together. -/
def target (parts : site.Parts function input) : String :=
  site.basePath input ++ parts.parents ++ "/" ++ parts.entity ++ parts.query

end Parts

variable {site : Site} {function : Function} {input : Option Record}

theorem exists_parts_of_entityTarget {path : String}
    (isPath : site.entityTarget function input = .ok path) :
    ∃ parts : site.Parts function input, path = parts.target := by
  unfold entityTarget at isPath
  obtain ⟨bodyParents, isBodyParents, isPath⟩ := exists_of_bind_ok isPath
  obtain ⟨options, isOptions, isPath⟩ := exists_of_bind_ok isPath
  obtain ⟨filterParents, isFilterParents, isPath⟩ := exists_of_bind_ok isPath
  obtain ⟨context, isContext, isPath⟩ := exists_of_bind_ok isPath
  obtain ⟨keys, isKeys, isPath⟩ := exists_of_bind_ok isPath
  obtain ⟨query, isQuery, isPath⟩ := exists_of_bind_ok isPath
  refine ⟨⟨bodyParents, options, filterParents, context, keys, query, isBodyParents, isOptions,
    isFilterParents, context_eq_of_requireContext isContext, isKeys, isQuery⟩, ?_⟩
  cases isPath
  simp only [Parts.target, Parts.parents, Parts.entity, String.append_assoc]

/-- The only key of a function stands in the form that its type calls for. -/
theorem keyParts_single {field : Field} {value : Scalar}
    (only : function.input.fields.filter Field.primaryKey = [field])
    (given : input.bind (·.value? field.name) = some (.scalar value)) {keys : List String}
    (isKeys : site.keyParts function input = .ok keys) :
    keys = [site.keyPart field (field.type.scalarText value)] := by
  rw [keyParts, only, List.mapM_cons, List.mapM_nil, given] at isKeys
  obtain ⟨part, isPart, isKeys⟩ := exists_of_bind_ok isKeys
  obtain ⟨key, isKey, isPart⟩ := exists_of_bind_ok isPart
  cases isPart
  cases isKeys
  rw [scalarText_of_text isKey]

/-- A type of keys that are written is no structure. -/
theorem isSimple_of_keyParts {field : Field} {value : Scalar}
    (only : function.input.fields.filter Field.primaryKey = [field])
    (given : input.bind (·.value? field.name) = some (.scalar value)) {keys : List String}
    (isKeys : site.keyParts function input = .ok keys) : field.type.isComplex = false := by
  rw [keyParts, only, List.mapM_cons, given] at isKeys
  obtain ⟨part, isPart, -⟩ := exists_of_bind_ok isKeys
  obtain ⟨key, isKey, -⟩ := exists_of_bind_ok isPart
  exact isSimple_of_text isKey

theorem keyParts_of_only {field : Field} {value : Scalar}
    (only : function.input.fields.filter Field.primaryKey = [field])
    (isSimple : field.type.isComplex = false)
    (given : input.bind (·.value? field.name) = some (.scalar value)) :
    site.keyParts function input = .ok [site.keyPart field (field.type.scalarText value)] := by
  rw [keyParts, only, List.mapM_cons, List.mapM_nil, given]
  simp only [text_scalar isSimple]
  rfl

/-- An input that differs in the keys only has the same target but for the keys. -/
theorem entityTarget_rekeyed {again : Option Record} {path : String} {keys : List String}
    (isPath : site.entityTarget function input = .ok path) (parts : site.Parts function input)
    (sameBase : site.basePath again = site.basePath input)
    (sameParents : site.bodyParents function again = site.bodyParents function input)
    (sameOptions : Query.Options.ofInput again = Query.Options.ofInput input)
    (isKeys : site.keyParts function again = .ok keys) :
    site.entityTarget function again = .ok (site.basePath input ++ parts.parents ++ "/" ++
      (parts.context ++ String.join keys) ++ parts.query) := by
  have isQuery := parts.isQuery
  rw [asked] at isQuery
  rw [entityTarget, parts.isBodyParents, parts.isOptions] at isPath
  rw [entityTarget, sameBase, sameParents, sameOptions, parts.isBodyParents, parts.isOptions]
  simp only [bind, Except.bind, parts.isFilterParents, isKeys] at isPath ⊢
  cases isContext : function.requireContext with
  | error fault =>
      rw [isContext] at isPath
      cases isPath
  | ok context =>
      obtain rfl := Option.some.inj
        ((context_eq_of_requireContext isContext).symm.trans parts.isContext)
      simp only [isQuery, Parts.parents, String.append_assoc]
      rfl

/-- What the target of an association verb is made of. -/
structure LinkParts (site : Site) (function : Function) (input : Option Record)
    (target : AssociationTarget) where
  boundIdsField : Field
  entityIdField : Field
  entityId : Value
  key : String
  context : String
  isBoundIdsField : function.input.field? Query.names.boundIds = some boundIdsField
  isEntityIdField : function.input.field? Query.names.entityId = some entityIdField
  isCollection : boundIdsField.collectionName = some target.collection
  isNavigation : boundIdsField.navigation = some target.navigationProperty
  isEntityId : input.bind (·.value? Query.names.entityId) = some entityId
  isKey : entityIdField.type.text entityId = .ok key
  areIds : boundIds boundIdsField input = .ok target.boundIds
  isContext : function.context = some context
  isTarget : target.target = site.basePath input ++ "/" ++
    (context ++ site.endpoint.keySuffix key) ++ "/" ++ target.navigationProperty

theorem nonempty_linkParts_of_associationTarget {target : AssociationTarget}
    (isTarget : site.associationTarget function input = .ok target) :
    Nonempty (site.LinkParts function input target) := by
  unfold associationTarget at isTarget
  obtain ⟨boundIdsField, isBoundIdsField, isTarget⟩ := exists_of_bind_ok isTarget
  obtain ⟨entityIdField, isEntityIdField, isTarget⟩ := exists_of_bind_ok isTarget
  obtain ⟨collection, isCollection, isTarget⟩ := exists_of_bind_ok isTarget
  obtain ⟨navigationProperty, isNavigation, isTarget⟩ := exists_of_bind_ok isTarget
  obtain ⟨entityId, isEntityId, isTarget⟩ := exists_of_bind_ok isTarget
  obtain ⟨key, isKey, isTarget⟩ := exists_of_bind_ok isTarget
  obtain ⟨ids, areIds, isTarget⟩ := exists_of_bind_ok isTarget
  obtain ⟨context, isContext, isTarget⟩ := exists_of_bind_ok isTarget
  cases isTarget
  exact ⟨boundIdsField, entityIdField, entityId, key, context, eq_some_of_need isBoundIdsField,
    eq_some_of_need isEntityIdField, eq_some_of_need isCollection, eq_some_of_need isNavigation,
    eq_some_of_need isEntityId, isKey, areIds, context_eq_of_requireContext isContext,
    by simp only [String.append_assoc]⟩

namespace LinkParts

variable {target : AssociationTarget} {value : Scalar}

/-- The entity is named by the text of its id. -/
theorem key_eq (parts : site.LinkParts function input target) {field : Field}
    (isDeclared : function.input.field? Query.names.entityId = some field)
    (isGiven : input.bind (·.value? Query.names.entityId) = some (.scalar value)) :
    parts.key = field.type.scalarText value := by
  obtain rfl := Option.some.inj (parts.isEntityIdField.symm.trans isDeclared)
  have isId := Option.some.inj (parts.isEntityId.symm.trans isGiven)
  exact scalarText_of_text (isId ▸ parts.isKey)

/-- Every id that is given is bound under its text. -/
theorem mem_boundIds (parts : site.LinkParts function input target) {field : Field}
    (isDeclared : function.input.field? Query.names.boundIds = some field) {given : Value}
    (isGiven : input.bind (·.value? Query.names.boundIds) = some given)
    (isMember : .scalar value ∈ given.flatten) :
    field.type.scalarText value ∈ target.boundIds := by
  obtain rfl := Option.some.inj (parts.isBoundIdsField.symm.trans isDeclared)
  have areIds := parts.areIds
  rw [boundIds, isGiven] at areIds
  obtain ⟨key, isKey, isText⟩ := exists_mem_of_mapM_ok areIds isMember
  exact scalarText_of_text isText ▸ isKey

end LinkParts

end Site

end OData.Target
