/-
# The shape of a target

A target is cut by slashes and by its question mark. What of that is decided by the
service, the function and the number of ids, and what by the texts of the ids? The ids
of parents and the keys are written into the path as they are, without escapes, so each
slash in one of them makes a segment more, and a question mark in one of them begins the
query too early. Everything else is counted here: with plain texts the shape is that of
the frame.

Parents are named in two places, in the records of an input and in the clauses of its
filter. They are brought together first, as ids that are yet to be read, so that their
number does not depend on what they are read as.
-/

import OData.Proofs.Target.Entity
import OData.Proofs.Text.Search
import Mathlib.Algebra.BigOperators.Group.List.Basic
import Mathlib.Data.List.TakeWhile
import Mathlib.Tactic.Ring

namespace OData.Target

/-! ## Ids of parents -/

/-- A value that names a parent, under the name it was found with. -/
structure ParentId where
  /-- The type of the entity, by which the value is read. -/
  type : Option ComplexType
  name : String
  /-- The entity set of the parent. -/
  set : String
  value : Value

/-- A parent as it is written: its entity set and the text of its id. -/
structure Parent where
  set : String
  key : String

namespace ParentId

/-- The parent that the value names. -/
def read (id : ParentId) : Except Fault Parent :=
  (parentKey id.type id.name id.value).map fun key => ⟨id.set, key⟩

/-- The values under a name, if it is one for ids of parents. -/
def named (type : Option ComplexType) (name : String) (values : List Value) : List ParentId :=
  match parentSet? name with
  | none => []
  | some set => values.map fun value => ⟨type, name, set, value⟩

/-- The ids in the record of an entity. -/
def ofRecord (type : Option ComplexType) (record : Record) : List ParentId :=
  record.fields.flatMap fun field => named type field.1 field.2.flatten

/-- The ids in the entities of an input. -/
def ofInput (function : Function) (input : Option Record) : List ParentId :=
  function.input.complexFields.flatMap fun field =>
    match (input.bind (·.value? field.name)).bind Value.record? with
    | none => []
    | some record => ofRecord field.complex? record

/-- The ids in a clause. -/
def ofClause (type : Option ComplexType) (clause : Filter.Clause) : List ParentId :=
  match clause.key with
  | none => []
  | some key =>
      named type key
        ((clause.values.map Filter.Literal.toValue).filter fun value => !value.isNull)

/-- All ids of parents, in the order in which a target names them. -/
def all (function : Function) (input : Option Record) (clauses : List Filter.Clause) :
    List ParentId :=
  ofInput function input ++ clauses.flatMap (ofClause (entityType? function))

end ParentId

namespace Site

/-- The segment of a parent. -/
def parentSegment (site : Site) (parent : Parent) : String :=
  "/" ++ parent.set ++ site.endpoint.keySuffix parent.key

/-- The segment of the parent that a value names. -/
def segmentOf (site : Site) (id : ParentId) : Except Fault String :=
  id.read.map site.parentSegment

theorem parentSegments_named (site : Site) (type : Option ComplexType) (name : String)
    (values : List Value) :
    (match parentSet? name with
      | none => .ok []
      | some set => site.parentSegments type name set values) =
      (ParentId.named type name values).mapM site.segmentOf := by
  unfold ParentId.named
  cases parentSet? name with
  | none => rfl
  | some set =>
      rw [List.mapM_map]
      apply congrArg (values.mapM ·)
      funext value
      show (parentKey type name value >>= fun key => _) =
        ((parentKey type name value).map _).map site.parentSegment
      cases parentKey type name value <;> rfl

theorem recordParents_eq (site : Site) (type : Option ComplexType) (record : Record) :
    site.recordParents type record = (ParentId.ofRecord type record).mapM site.segmentOf := by
  rw [ParentId.ofRecord, mapM_flatMap, recordParents, bind_pure_eq_map]
  apply congrArg (Except.map List.flatten)
  apply congrArg (record.fields.mapM ·)
  funext field
  exact site.parentSegments_named type field.1 field.2.flatten

theorem bodyParents_eq (site : Site) (function : Function) (input : Option Record) :
    site.bodyParents function input =
      (ParentId.ofInput function input).mapM site.segmentOf := by
  rw [ParentId.ofInput, mapM_flatMap, bodyParents, bind_pure_eq_map]
  apply congrArg (Except.map List.flatten)
  apply congrArg (function.input.complexFields.mapM ·)
  funext field
  cases (input.bind (·.value? field.name)).bind Value.record? with
  | none => rfl
  | some record => exact site.recordParents_eq field.complex? record

theorem clauseParents_eq (site : Site) (type : Option ComplexType) (clause : Filter.Clause) :
    site.clauseParents type clause = (ParentId.ofClause type clause).mapM site.segmentOf := by
  unfold clauseParents ParentId.ofClause
  cases clause.key with
  | none => rfl
  | some key => exact site.parentSegments_named type key _

theorem filterParents_eq (site : Site) (function : Function) (clauses : List Filter.Clause) :
    site.filterParents function clauses =
      (clauses.flatMap (ParentId.ofClause (entityType? function))).mapM site.segmentOf := by
  rw [mapM_flatMap, filterParents, bind_pure_eq_map]
  apply congrArg (Except.map List.flatten)
  apply congrArg (clauses.mapM ·)
  funext clause
  exact site.clauseParents_eq (entityType? function) clause

/-- The keys of the entity that an input names, with their fields. -/
def keysOf (function : Function) (input : Option Record) : Except Fault (List (Field × String)) :=
  (function.input.fields.filter Field.primaryKey).mapM fun field =>
    match input.bind (·.value? field.name) with
    | none => .error (.schema (.missingKey field.name))
    | some value => (field.type.text value).map fun key => (field, key)

theorem keyParts_eq (site : Site) (function : Function) (input : Option Record) :
    site.keyParts function input =
      (keysOf function input).map (List.map fun key => site.keyPart key.1 key.2) := by
  rw [keysOf, ← mapM_map_result, keyParts]
  apply congrArg (List.mapM · _)
  funext field
  cases input.bind (·.value? field.name) with
  | none => rfl
  | some value =>
      show (field.type.text value >>= fun key => _) =
        ((field.type.text value).map fun key => (field, key)).map _
      cases field.type.text value <;> rfl

end Site

/-! ## Characters of a target -/

/-- How often a character comes up in a text. -/
def occurrences (c : Char) (text : String) : Nat := text.toList.count c

@[simp] theorem occurrences_append (c : Char) (first second : String) :
    occurrences c (first ++ second) = occurrences c first + occurrences c second := by
  rw [occurrences, String.toList_append, List.count_append]
  rfl

theorem occurrences_eq_zero_iff {c : Char} {text : String} :
    occurrences c text = 0 ↔ c ∉ text.toList :=
  List.count_eq_zero

/-- How often a character comes up in several texts. -/
def occurrencesIn (c : Char) (texts : List String) : Nat := (texts.map (occurrences c)).sum

@[simp] theorem occurrencesIn_append (c : Char) (first second : List String) :
    occurrencesIn c (first ++ second) = occurrencesIn c first + occurrencesIn c second := by
  rw [occurrencesIn, List.map_append, List.sum_append]
  rfl

@[simp] theorem occurrencesIn_cons (c : Char) (text : String) (texts : List String) :
    occurrencesIn c (text :: texts) = occurrences c text + occurrencesIn c texts := by
  rw [occurrencesIn, List.map_cons, List.sum_cons]
  rfl

theorem occurrences_join (c : Char) (texts : List String) :
    occurrences c (String.join texts) = occurrencesIn c texts := by
  induction texts with
  | nil => rfl
  | cons text rest ih => rw [String.join_cons, occurrences_append, ih, occurrencesIn_cons]

theorem occurrencesIn_eq_zero_iff {c : Char} {texts : List String} :
    occurrencesIn c texts = 0 ↔ ∀ text ∈ texts, c ∉ text.toList := by
  induction texts with
  | nil => simp [occurrencesIn]
  | cons text rest ih =>
      rw [occurrencesIn_cons, Nat.add_eq_zero_iff, ih, occurrences_eq_zero_iff,
        List.forall_mem_cons]

/-- A character that only comes with a key, and not with what the key stands in. -/
structure IsForeign (c : Char) : Prop where
  notOpening : c ≠ '('
  notClosing : c ≠ ')'
  notQuote : c ≠ '\''

section

variable {site : Site} {c : Char}

theorem occurrences_quote (isForeign : IsForeign c) (key : String) :
    occurrences c (Text.quote key) = occurrences c key :=
  Text.count_quote isForeign.notQuote key

theorem occurrences_group (isForeign : IsForeign c) (text : String) :
    occurrences c ("(" ++ text ++ ")") = occurrences c text := by
  have noOpening : occurrences c "(" = 0 :=
    occurrences_eq_zero_iff.mpr (by simpa using isForeign.notOpening)
  have noClosing : occurrences c ")" = 0 :=
    occurrences_eq_zero_iff.mpr (by simpa using isForeign.notClosing)
  rw [occurrences_append, occurrences_append, noOpening, noClosing, Nat.zero_add, Nat.add_zero]

/-- Slashes that the convention for keys writes in front of one. -/
def keySlashes (site : Site) : Nat := if site.endpoint.keyAsSegment then 1 else 0

theorem occurrences_keySuffix (isForeign : IsForeign c) (key : String) :
    occurrences c (site.endpoint.keySuffix key) =
      keySlashes site * occurrences c "/" + occurrences c key := by
  unfold Endpoint.keySuffix keySuffix keySlashes
  split
  · rw [occurrences_append, Nat.one_mul]
  · rw [occurrences_group isForeign, Nat.zero_mul, Nat.zero_add]

theorem occurrences_keyPart (isForeign : IsForeign c) (field : Field) (key : String) :
    occurrences c (site.keyPart field key) =
      keySlashes site * occurrences c "/" + occurrences c key := by
  unfold Site.keyPart keySlashes
  split
  · rw [occurrences_append, Nat.one_mul]
  · rw [Nat.zero_mul, Nat.zero_add]
    split
    · rw [occurrences_group isForeign, occurrences_quote isForeign]
    · exact occurrences_group isForeign key

/-- What parents bring into a target: their sets and the texts of their ids. -/
def Parent.texts (parent : Parent) : List String := [parent.set, parent.key]

theorem occurrencesIn_parents (isForeign : IsForeign c) (parents : List Parent) :
    occurrencesIn c (parents.map site.parentSegment) =
      parents.length * (1 + keySlashes site) * occurrences c "/" +
        occurrencesIn c (parents.flatMap Parent.texts) := by
  induction parents with
  | nil => simp [occurrencesIn]
  | cons parent rest ih =>
      rw [List.map_cons, occurrencesIn_cons, ih, Site.parentSegment, occurrences_append,
        occurrences_append, occurrences_keySuffix isForeign, List.flatMap_cons, Parent.texts,
        occurrencesIn_append, occurrencesIn_cons, occurrencesIn_cons, List.length_cons]
      simp only [occurrencesIn, List.map_nil, List.sum_nil]
      ring

theorem occurrencesIn_keys (isForeign : IsForeign c) (keys : List (Field × String)) :
    occurrencesIn c (keys.map fun key => site.keyPart key.1 key.2) =
      keys.length * keySlashes site * occurrences c "/" +
        occurrencesIn c (keys.map Prod.snd) := by
  induction keys with
  | nil => simp [occurrencesIn]
  | cons key rest ih =>
      rw [List.map_cons, occurrencesIn_cons, ih, occurrences_keyPart isForeign, List.map_cons,
        occurrencesIn_cons, List.length_cons]
      ring

end

/-! ## Path and query -/

/-- What stands in front of the first question mark of a target. -/
def pathOf (target : String) : String :=
  String.ofList (target.toList.takeWhile (· != '?'))

/-- Everything from the first question mark of a target on. -/
def queryOf (target : String) : String :=
  String.ofList (target.toList.dropWhile (· != '?'))

/-- The number of segments between slashes. -/
def segments (text : String) : Nat := (Text.splitAt '/' text).length

theorem segments_eq (text : String) : segments text = occurrences '/' text + 1 :=
  Text.length_splitAt '/' text

/-- A query string is empty or begins with a question mark. -/
theorem queryString_cases {options : Query.Options} {query : String}
    (isQuery : options.queryString = .ok query) : query = "" ∨ ∃ rest, query = "?" ++ rest := by
  obtain ⟨parameters, -, isQuery⟩ := exists_of_bind_ok isQuery
  split at isQuery
  · cases isQuery
    exact .inl rfl
  · cases isQuery
    exact .inr ⟨_, rfl⟩

section

variable {front query : String}

theorem split_of_not_mem (noMark : '?' ∉ front.toList)
    (isQuery : query = "" ∨ ∃ rest, query = "?" ++ rest) :
    pathOf (front ++ query) = front ∧ queryOf (front ++ query) = query := by
  have passes := Text.passes_of_not_mem noMark
  rw [pathOf, queryOf, String.toList_append, List.takeWhile_append_of_pos passes,
    List.dropWhile_append_of_pos passes]
  rcases isQuery with rfl | ⟨rest, rfl⟩
  · simp
  · simp

/-- The query begins at the first question mark exactly if there is none in front of it. -/
theorem queryOf_eq_iff (isQuery : query = "" ∨ ∃ rest, query = "?" ++ rest) :
    queryOf (front ++ query) = query ↔ '?' ∉ front.toList := by
  constructor
  · intro same isMember
    have isFirst : front.toList.dropWhile (· != '?') ≠ [] := by
      intro isNothing
      exact absurd (List.dropWhile_eq_nil_iff.mp isNothing '?' isMember) (by decide)
    have chars := congrArg String.toList same
    rw [queryOf, String.toList_ofList, String.toList_append, List.dropWhile_append,
      if_neg (by rwa [List.isEmpty_iff])] at chars
    exact isFirst (List.append_left_eq_self.mp chars)
  · intro noMark
    exact (split_of_not_mem noMark isQuery).2

end

namespace Site

variable {site : Site} {function : Function} {input : Option Record}

/-- The parents and keys of a target, and how often a foreign character comes up in front
of the query: as often as in the texts it is made of, but for the slashes in between. -/
theorem exists_texts_of_parts (parts : site.Parts function input) :
    ∃ front parents keys, parts.target = front ++ parts.query ∧
      (ParentId.all function input parts.options.filters).mapM ParentId.read = .ok parents ∧
      keysOf function input = .ok keys ∧
      ∀ c, IsForeign c → occurrences c front =
        occurrences c (site.basePath input) + occurrences c parts.context +
          (1 + parents.length * (1 + keySlashes site) + keys.length * keySlashes site) *
            occurrences c "/" +
          occurrencesIn c (parents.flatMap Parent.texts ++ keys.map Prod.snd) := by
  have inBodies := parts.isBodyParents
  have inFilter := parts.isFilterParents
  have areKeys := parts.isKeys
  rw [bodyParents_eq] at inBodies
  rw [filterParents_eq] at inFilter
  rw [keyParts_eq] at areKeys
  have areSegments : (ParentId.all function input parts.options.filters).mapM site.segmentOf =
      .ok (parts.bodyParents ++ parts.filterParents) := by
    rw [ParentId.all, List.mapM_append, inBodies, inFilter]
    rfl
  obtain ⟨parents, areParents, isSame⟩ :=
    exists_of_map_ok ((mapM_map_result _ _ _).symm.trans areSegments)
  obtain ⟨keys, areKeys, areParts⟩ := exists_of_map_ok areKeys
  refine ⟨site.basePath input ++ parts.parents ++ "/" ++ parts.entity, parents, keys, rfl,
    areParents, areKeys, ?_⟩
  intro c isForeign
  have inParents : occurrences c parts.parents =
      parents.length * (1 + keySlashes site) * occurrences c "/" +
        occurrencesIn c (parents.flatMap Parent.texts) := by
    rw [Parts.parents, ← String.join_append, occurrences_join, ← isSame,
      occurrencesIn_parents isForeign]
  have inKeys : occurrences c (String.join parts.keys) =
      keys.length * keySlashes site * occurrences c "/" +
        occurrencesIn c (keys.map Prod.snd) := by
    rw [← areParts, occurrences_join, occurrencesIn_keys isForeign]
  rw [occurrences_append, occurrences_append, occurrences_append, inParents, Parts.entity,
    occurrences_append, inKeys, occurrencesIn_append]
  ring

/-- The number of segments that a target has when the texts of ids bring no slashes along. -/
def frame (site : Site) (function : Function) (input : Option Record) (context : String)
    (ids : List ParentId) : Nat :=
  segments (site.basePath input) + segments context + ids.length * (1 + keySlashes site) +
    (function.input.fields.filter Field.primaryKey).length * keySlashes site

/-- What the texts of ids can do to the shape of a target. The query is the query string of
the options exactly if there is no question mark in the filled base path, the context, and
the sets and ids of parents and the keys. Then the number of segments in front of it is that
of the frame, which depends on numbers of ids only, and one more for each slash in those
sets, ids and keys. -/
theorem shape_of_entityTarget {path : String}
    (isPath : site.entityTarget function input = .ok path) :
    ∃ context options query parents keys,
      function.context = some context ∧ Query.Options.ofInput input = .ok options ∧
      (asked function options).queryString = .ok query ∧
      (ParentId.all function input options.filters).mapM ParentId.read = .ok parents ∧
      keysOf function input = .ok keys ∧
      let ids := ParentId.all function input options.filters
      let texts := parents.flatMap Parent.texts ++ keys.map Prod.snd
      (queryOf path = query ↔
        ∀ text ∈ site.basePath input :: context :: texts, '?' ∉ text.toList) ∧
      (queryOf path = query →
        segments (pathOf path) =
          site.frame function input context ids + occurrencesIn '/' texts ∧
        (segments (pathOf path) = site.frame function input context ids ↔
          ∀ text ∈ texts, '/' ∉ text.toList)) := by
  obtain ⟨parts, rfl⟩ := exists_parts_of_entityTarget isPath
  obtain ⟨front, parents, keys, isTarget, areParents, areKeys, count⟩ :=
    exists_texts_of_parts parts
  refine ⟨parts.context, parts.options, parts.query, parents, keys, parts.isContext,
    parts.isOptions, parts.isQuery, areParents, areKeys, ?_⟩
  intro ids texts
  have isQuery := queryString_cases parts.isQuery
  rw [isTarget]
  constructor
  · have noMarks := count '?' ⟨by decide, by decide, by decide⟩
    have noMark : occurrences '?' "/" = 0 := by decide
    rw [noMark, Nat.mul_zero, Nat.add_zero] at noMarks
    rw [queryOf_eq_iff isQuery, ← occurrences_eq_zero_iff, noMarks, ← occurrencesIn_eq_zero_iff,
      occurrencesIn_cons, occurrencesIn_cons, Nat.add_assoc]
  · intro isSame
    have isPath := (split_of_not_mem ((queryOf_eq_iff isQuery).mp isSame) isQuery).1
    have isCount : segments (pathOf (front ++ parts.query)) =
        site.frame function input parts.context ids + occurrencesIn '/' texts := by
      have slashes := count '/' ⟨by decide, by decide, by decide⟩
      have oneSlash : occurrences '/' "/" = 1 := by decide
      have sameParents : parents.length = ids.length := length_of_mapM_ok areParents
      have sameKeys : keys.length = (function.input.fields.filter Field.primaryKey).length :=
        length_of_mapM_ok areKeys
      rw [isPath, segments_eq, slashes, oneSlash, frame, segments_eq, segments_eq, sameParents,
        sameKeys]
      ring
    refine ⟨isCount, ?_⟩
    rw [isCount, ← occurrencesIn_eq_zero_iff]
    exact Nat.add_eq_left

/-- An account by its number, which is a text. -/
def getNumbered : Function where
  name := "get"
  context := some "accounts"
  method := .get
  input := { name := "input", fields := [{ name := "id", type := .string, primaryKey := true }] }
  output := default

/-- A key with a slash makes a segment more, and one with a question mark a query. -/
theorem keys_change_shape :
    let site : Site :=
      ⟨{ scheme := "https", host := "example.com", basePath := "/odata" },
        { keyAsSegment := true }⟩
    (site.entityTarget getNumbered (some ⟨[("id", "a/b")]⟩) = .ok "/odata/accounts/a/b" ∧
      segments (pathOf "/odata/accounts/a/b") ≠
        site.frame getNumbered (some ⟨[("id", "a/b")]⟩) "accounts" []) ∧
    (site.entityTarget getNumbered (some ⟨[("id", "b?c")]⟩) = .ok "/odata/accounts/b?c" ∧
      queryOf "/odata/accounts/b?c" ≠ "") := by
  intro site
  constructor
  · have isPath : site.entityTarget getNumbered (some ⟨[("id", "a/b")]⟩) =
        .ok "/odata/accounts/a/b" := rfl
    obtain ⟨context, options, query, parents, keys, isContext, isOptions, isQuery, areParents,
      areKeys, isSame_iff, count⟩ := shape_of_entityTarget isPath
    obtain rfl : "accounts" = context := Option.some.inj isContext
    obtain rfl : { : Query.Options } = options := Except.ok.inj isOptions
    obtain rfl : "" = query := Except.ok.inj isQuery
    obtain rfl : [] = parents := Except.ok.inj areParents
    obtain rfl : [(_, "a/b")] = keys := Except.ok.inj areKeys
    obtain ⟨-, isFrame_iff⟩ := count (isSame_iff.mpr (by decide))
    refine ⟨isPath, fun isFrame => ?_⟩
    exact absurd (isFrame_iff.mp isFrame "a/b" List.mem_cons_self) (by decide)
  · have isPath : site.entityTarget getNumbered (some ⟨[("id", "b?c")]⟩) =
        .ok "/odata/accounts/b?c" := rfl
    obtain ⟨context, options, query, parents, keys, isContext, isOptions, isQuery, areParents,
      areKeys, isSame_iff, -⟩ := shape_of_entityTarget isPath
    obtain rfl : { : Query.Options } = options := Except.ok.inj isOptions
    obtain rfl : "" = query := Except.ok.inj isQuery
    obtain rfl : [] = parents := Except.ok.inj areParents
    obtain rfl : [(_, "b?c")] = keys := Except.ok.inj areKeys
    refine ⟨isPath, fun isSame => ?_⟩
    have noMark := isSame_iff.mp isSame "b?c"
    exact absurd (noMark (by simp)) (by decide)

end Site

end OData.Target
