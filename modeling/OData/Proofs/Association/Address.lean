/-
# One address for an entity

The same entity is addressed in three places: by the verbs that work on it, by the
verbs that work on its associations, and in the body that binds it to another one.
Keys of every type but one come out alike in all three. Keys of string type do not:
verbs put them in quotes, with their quotes doubled, while associations write them
bare. Only where keys are segments is there nothing to differ in.

That a key of string type can not be read with and without quotes at once is shown
by counting the quotes at its end, so it holds for keys that are made of quotes too.
-/

import OData.Proofs.Association.Difference
import OData.Proofs.Association.Progress
import OData.Proofs.Target.Entity

namespace OData.Association

open Http (Request)
open Target (Site AssociationTarget)

/-- Behind some quotes, a key with its quotes doubled never begins the key itself:
each step of the comparison uses up one quote and brings two. -/
theorem quotes_not_prefix (count : Nat) (key after rest : List Char) :
    ¬ List.replicate (count + 1) '\'' ++ (Text.doubleQuotes key ++ after) <+:
      key ++ '(' :: rest := by
  induction key generalizing count with
  | nil =>
      intro isPrefix
      rw [List.replicate_succ, List.cons_append, List.nil_append,
        List.cons_prefix_cons] at isPrefix
      exact absurd isPrefix.1 (by decide)
  | cons c key ih =>
      intro isPrefix
      rw [List.replicate_succ, List.cons_append, List.cons_append,
        List.cons_prefix_cons] at isPrefix
      obtain ⟨rfl, isPrefix⟩ := isPrefix
      have doubled : List.replicate count '\'' ++ (Text.doubleQuotes ('\'' :: key) ++ after) =
          List.replicate (count + 1 + 1) '\'' ++ (Text.doubleQuotes key ++ after) := by
        rw [List.replicate_succ', List.replicate_succ']
        simp [Text.doubleQuotes]
      exact ih (count + 1) (doubled ▸ isPrefix)

theorem reverse_doubleQuotes (key : List Char) :
    (Text.doubleQuotes key).reverse = Text.doubleQuotes key.reverse := by
  induction key with
  | nil => rfl
  | cons c key ih =>
      have alone : (Text.doubleQuotes [c]).reverse = Text.doubleQuotes [c] := by
        by_cases isQuote : c = '\'' <;> simp [Text.doubleQuotes, isQuote]
      rw [← List.singleton_append, Text.doubleQuotes_append, List.reverse_append, ih, alone,
        List.reverse_append, Text.doubleQuotes_append]
      rfl

section

variable (site : Site) {field : Field}

theorem isQuoted_eq_false_of_ne {type : ValueType} (isOther : type ≠ .string) :
    type.isQuoted = false := by
  cases type with
  | string => exact absurd rfl isOther
  | _ => rfl

/-- Keys are written alike where they are segments, and where their type needs no
quotes. -/
theorem keyPart_eq_keySuffix
    (alike : site.endpoint.keyAsSegment = true ∨ field.type ≠ .string) (key : String) :
    site.keyPart field key = site.endpoint.keySuffix key := by
  rcases alike with isSegment | isBare
  · simp [Site.keyPart, Endpoint.keySuffix, keySuffix, isSegment]
  · simp [Site.keyPart, Endpoint.keySuffix, keySuffix, isQuoted_eq_false_of_ne isBare]

/-- What ends in a bare key does not end in that key in quotes. -/
theorem keyPart_not_suffix {key : String} (front : String)
    (noSegment : site.endpoint.keyAsSegment = false) (isString : field.type = .string) :
    ¬ (site.keyPart field key).toList <:+ (front ++ site.endpoint.keySuffix key).toList := by
  have quoted : (site.keyPart field key).toList =
      '(' :: '\'' :: (Text.doubleQuotes key.toList ++ ['\'', ')']) := by
    simp [Site.keyPart, noSegment, isString, ValueType.isQuoted, Text.quote]
  have bare : (front ++ site.endpoint.keySuffix key).toList =
      front.toList ++ '(' :: (key.toList ++ [')']) := by
    simp [Endpoint.keySuffix, keySuffix, noSegment]
  rw [quoted, bare, ← List.reverse_prefix]
  simp only [List.reverse_append, List.reverse_cons, List.reverse_nil, List.nil_append,
    List.append_assoc, List.cons_append, List.cons_prefix_cons, true_and, reverse_doubleQuotes]
  exact quotes_not_prefix 0 _ _ _

theorem keyPart_suffix_iff (front key : String) :
    (site.keyPart field key).toList <:+ (front ++ site.endpoint.keySuffix key).toList ↔
      site.endpoint.keyAsSegment = true ∨ field.type ≠ .string := by
  constructor
  · intro isSuffix
    by_contra differ
    rw [not_or, Bool.not_eq_true, not_not] at differ
    exact keyPart_not_suffix site front differ.1 differ.2 isSuffix
  · intro alike
    rw [keyPart_eq_keySuffix site alike, String.toList_append]
    exact List.suffix_append _ _

end

/-- A verb names its entity by the scalar value of its only key field. -/
structure NamesByKey (function : Function) (input : Option Record) (field : Field)
    (value : Scalar) : Prop where
  only : function.input.fields.filter Field.primaryKey = [field]
  given : input.bind (·.value? field.name) = some (.scalar value)

/-- Whatever a verb addresses by a key: a verb for associations that takes the same value
as the id of its entity, or as one of the ids to be bound, writes the same entity set
with the same key behind it exactly if keys are segments or the key is no text. -/
theorem entity_has_one_address_iff {site : Site} {linking reading : Function}
    {linked named : Option Record} {target : AssociationTarget} {path : String}
    {keyField : Field} {value : Scalar}
    (isTarget : site.associationTarget linking linked = .ok target)
    (isPath : site.entityTarget reading named = .ok path)
    (byKey : NamesByKey reading named keyField value) :
    let key := keyField.type.scalarText value
    let alike := site.endpoint.keyAsSegment = true ∨ keyField.type ≠ .string
    ∃ context parents query, reading.context = some context ∧
      path = site.basePath named ++ parents ++ "/" ++ (context ++ site.keyPart keyField key) ++
        query ∧
      (∃ options : Query.Options, options.queryString = .ok query) ∧
      -- The entity whose associations are worked on.
      (∀ idField, linking.input.field? Query.names.entityId = some idField →
        idField.type = keyField.type →
        linked.bind (·.value? Query.names.entityId) = some (.scalar value) →
        linking.context = some context →
          target.target = site.basePath linked ++ "/" ++
            (context ++ site.endpoint.keySuffix key) ++ "/" ++ target.navigationProperty ∧
          (context ++ site.endpoint.keySuffix key = context ++ site.keyPart keyField key ↔
            alike)) ∧
      -- An entity that is bound to it.
      (∀ boundField given, linking.input.field? Query.names.boundIds = some boundField →
        boundField.type = keyField.type →
        linked.bind (·.value? Query.names.boundIds) = some given →
        .scalar value ∈ given.flatten →
        target.collection = context →
          ∀ existing : State, key ∉ existing.keys →
            ∃ request ∈ plan site target existing target.boundIds, ∃ url,
              boundReference? site target request = some (key, url) ∧
                ((site.keyPart keyField key).toList <:+ url.toList ↔ alike)) := by
  intro key alike
  obtain ⟨parts, rfl⟩ := Site.exists_parts_of_entityTarget isPath
  obtain ⟨linkParts⟩ := Site.nonempty_linkParts_of_associationTarget isTarget
  have keys : parts.keys = [site.keyPart keyField key] :=
    Site.keyParts_single byKey.only byKey.given parts.isKeys
  refine ⟨parts.context, parts.parents, parts.query, parts.isContext, ?_,
    ⟨_, parts.isQuery⟩, ?_, ?_⟩
  · simp only [Site.Parts.target, Site.Parts.entity, keys, String.join_cons, String.join_nil,
      String.append_empty]
  · intro idField isDeclared sameType isGiven onContext
    have sameKey : linkParts.key = key := by
      rw [linkParts.key_eq isDeclared isGiven, sameType]
    have sameContext : linkParts.context = parts.context :=
      Option.some.inj (linkParts.isContext.symm.trans onContext)
    refine ⟨?_, fun same => ?_, fun alike => ?_⟩
    · rw [linkParts.isTarget, sameKey, sameContext]
    · refine (keyPart_suffix_iff site parts.context key).mp ?_
      rw [same, String.toList_append]
      exact List.suffix_append _ _
    · rw [keyPart_eq_keySuffix site alike]
  · intro boundField given isDeclared sameType isGiven isMember _ existing isMissing
    have isWanted : key ∈ target.boundIds := by
      have isBound := linkParts.mem_boundIds isDeclared isGiven isMember
      rwa [sameType] at isBound
    refine ⟨bindRequest site target key, ?_, entityUrl site target key,
      boundReference?_bindRequest site target key, keyPart_suffix_iff site _ key⟩
    exact (mem_plan site target).mpr (.inr ⟨key, mem_lacking.mpr ⟨isWanted, isMissing⟩, rfl⟩)

/-- Contacts of an account that is known by a name. -/
def addNamed : Function where
  name := "contacts"
  context := some "accounts"
  method := .associations .add
  input := {
    name := "input"
    fields := [
      { name := "entityId", type := .string },
      { name := "boundIds", type := .string, collectionName := some "accounts",
        navigation := some "rel", maxOccurs := some 0 }] }
  output := default

/-- An account by its name. -/
def getNamed : Function where
  name := "get"
  context := some "accounts"
  method := .get
  input := { name := "input", fields := [{ name := "id", type := .string, primaryKey := true }] }
  output := default

theorem text_key_has_two_addresses :
    let site : Site := ⟨{ scheme := "https", host := "example.com", basePath := "/odata" }, {}⟩
    ∃ target, site.associationTarget addNamed
        (some ⟨[("entityId", "a"), ("boundIds", .list ["a"])]⟩) = .ok target ∧
      target.target = "/odata/accounts(a)/rel" ∧
      site.entityTarget getNamed (some ⟨[("id", "a")]⟩) = .ok "/odata/accounts('a')" ∧
      "accounts(a)" ≠ "accounts('a')" ∧
      ∃ request ∈ plan site target .empty target.boundIds, ∃ url,
        boundReference? site target request = some ("a", url) ∧
          ¬ "('a')".toList <:+ url.toList := by
  intro site
  have isTarget : site.associationTarget addNamed
      (some ⟨[("entityId", "a"), ("boundIds", .list ["a"])]⟩) =
        .ok ⟨"/odata/accounts(a)/rel", "accounts", "rel", ["a"]⟩ := rfl
  have isPath : site.entityTarget getNamed (some ⟨[("id", "a")]⟩) = .ok "/odata/accounts('a')" :=
    rfl
  have byKey : NamesByKey getNamed (some ⟨[("id", "a")]⟩)
      { name := "id", type := .string, primaryKey := true } (.text "a") := ⟨rfl, rfl⟩
  obtain ⟨context, parents, query, isContext, -, -, entity, bound⟩ :=
    entity_has_one_address_iff isTarget isPath byKey
  obtain rfl : "accounts" = context := Option.some.inj isContext
  have noSegment : ¬(site.endpoint.keyAsSegment = true ∨ (.string : ValueType) ≠ .string) := by
    simp [site]
  obtain ⟨-, sameEntity⟩ := entity { name := "entityId", type := .string } rfl rfl rfl rfl
  have isFresh : "a" ∉ State.empty.keys := by decide
  obtain ⟨request, isPlanned, url, isReference, sameEnd⟩ :=
    bound _ (.list ["a"]) rfl rfl rfl List.mem_cons_self rfl .empty isFresh
  exact ⟨_, isTarget, rfl, isPath, fun same => noSegment (sameEntity.mp same), request, isPlanned,
    url, isReference, fun isSuffix => noSegment (sameEnd.mp isSuffix)⟩

end OData.Association
