/-
# Parents and conditions

The filter of an input is one list for two things. Some of its entries name a parent, and
become segments of the path; the others are conditions, and are compiled into the query,
each with an eye on the one behind it. The two do not meet: a target has the parents in
their order and the expression of the conditions in theirs, however they are mixed, and
whatever joins the entries between which a parent was.

So the target is compared with those of other inputs, which differ in the filter only.
That the parents are taken out before anything is compiled is what all of it rests on.
-/

import OData.Proofs.Record
import OData.Proofs.Target.Shape

namespace OData.Target

open OData.Filter (Clause)
open OData.Query (names)

/-! ## Entries of a filter -/

/-- The clause that an entry of a filter describes. -/
def clauseOf (entry : Value) : Except Fault Clause :=
  match entry.record? with
  | some record => Clause.ofRecord record
  | none => .error (.filter .clauseNotRecord)

theorem clausesOf_list (entries : List Value) :
    Filter.clausesOf (.list entries) =
      (entries.filter fun entry => !entry.isNull).mapM clauseOf := rfl

/-- The entry has a key that names a parent. -/
def isParentEntry (entry : Value) : Bool :=
  (((entry.record?.bind (·.value? "key")).bind Value.plain?).bind parentSet?).isSome

/-- The entries of a filter that name parents. -/
def parentEntries (entries : List Value) : List Value := entries.filter isParentEntry

/-- The entries of a filter that are conditions. -/
def conditionEntries (entries : List Value) : List Value :=
  entries.filter fun entry => !isParentEntry entry

/-- The clauses that name parents. -/
def parentClauses (clauses : List Clause) : List Clause := clauses.filter Site.isParentClause

/-- The clauses that are conditions. -/
def conditionClauses (clauses : List Clause) : List Clause :=
  clauses.filter fun clause => !Site.isParentClause clause

theorem key_of_keyOf {record : Record} {key : Option String}
    (isOk : Clause.keyOf record = .ok key) : key = (record.value? "key").bind Value.plain? := by
  unfold Clause.keyOf at isOk
  cases held : record.value? "key" with
  | none =>
      rw [held] at isOk
      exact (Except.ok.inj isOk).symm
  | some value =>
      rw [held] at isOk
      rw [Option.bind_some]
      cases isPlain : value.plain? with
      | none =>
          simp only [isPlain] at isOk
          cases isOk
      | some text =>
          simp only [isPlain] at isOk
          exact (Except.ok.inj isOk).symm

theorem isParentClause_of_clauseOf {entry : Value} {clause : Clause}
    (isOk : clauseOf entry = .ok clause) : Site.isParentClause clause = isParentEntry entry := by
  unfold clauseOf at isOk
  cases isRecord : entry.record? with
  | none =>
      rw [isRecord] at isOk
      cases isOk
  | some record =>
      rw [isRecord] at isOk
      obtain ⟨key, isKey, isOk⟩ := exists_of_bind_ok isOk
      obtain ⟨values, -, isOk⟩ := exists_of_bind_ok isOk
      cases isOk
      rw [Site.isParentClause, isParentEntry, isRecord, Option.bind_some, key_of_keyOf isKey]

/-- Parents among clauses are those among the entries, and so are conditions. -/
theorem clausesOf_apart {entries : List Value} {clauses : List Clause}
    (areClauses : Filter.clausesOf (.list entries) = .ok clauses) :
    Filter.clausesOf (.list (parentEntries entries)) = .ok (parentClauses clauses) ∧
      Filter.clausesOf (.list (conditionEntries entries)) = .ok (conditionClauses clauses) := by
  have apart (keeps : Value → Bool) : Filter.clausesOf (.list (entries.filter keeps)) =
      ((entries.filter fun entry => !entry.isNull).filter keeps).mapM clauseOf := by
    rw [clausesOf_list, List.filter_comm]
  rw [clausesOf_list] at areClauses
  rw [parentEntries, conditionEntries, apart, apart]
  constructor
  · exact mapM_filter_ok (fun _ _ _ isClause => isParentClause_of_clauseOf isClause) areClauses
  · refine mapM_filter_ok (fun entry _ clause isClause => ?_) areClauses
    rw [isParentClause_of_clauseOf isClause]

/-- Whatever way the entries of a filter are mixed, they describe the same clauses. -/
theorem clausesOf_mixed {entries others : List Value} {clauses : List Clause}
    (sameParents : parentEntries others = parentEntries entries)
    (sameConditions : conditionEntries others = conditionEntries entries)
    (areClauses : Filter.clausesOf (.list entries) = .ok clauses) :
    ∃ mixed, Filter.clausesOf (.list others) = .ok mixed ∧
      parentClauses mixed = parentClauses clauses ∧
      conditionClauses mixed = conditionClauses clauses := by
  have isEntry {entry : Value} (isOther : entry ∈ others) : entry ∈ entries := by
    cases isParent : isParentEntry entry with
    | true =>
        have isMember : entry ∈ parentEntries others := List.mem_filter.mpr ⟨isOther, isParent⟩
        rw [sameParents] at isMember
        exact List.mem_of_mem_filter isMember
    | false =>
        have isMember : entry ∈ conditionEntries others :=
          List.mem_filter.mpr ⟨isOther, by rw [isParent]; rfl⟩
        rw [sameConditions] at isMember
        exact List.mem_of_mem_filter isMember
  have mixedOk : ∃ mixed, Filter.clausesOf (.list others) = .ok mixed := by
    rw [clausesOf_list] at areClauses ⊢
    apply exists_mapM_ok
    intro entry isOther
    obtain ⟨isOther, notNull⟩ := List.mem_filter.mp isOther
    obtain ⟨clause, -, isClause⟩ := exists_mem_of_mapM_ok areClauses
      (List.mem_filter.mpr ⟨isEntry isOther, notNull⟩)
    exact ⟨clause, isClause⟩
  obtain ⟨mixed, areMixed⟩ := mixedOk
  obtain ⟨parents, conditions⟩ := clausesOf_apart areClauses
  obtain ⟨mixedParents, mixedConditions⟩ := clausesOf_apart areMixed
  rw [sameParents] at mixedParents
  rw [sameConditions] at mixedConditions
  exact ⟨mixed, areMixed, Except.ok.inj (mixedParents.symm.trans parents),
    Except.ok.inj (mixedConditions.symm.trans conditions)⟩

/-! ## Inputs with another filter -/

/-- The input with other entries in its filter. -/
def refiltered (input : Record) (entries : List Value) : Record :=
  input.set names.filters (.list entries)

theorem value?_refiltered_of_ne {name : String} (different : name ≠ names.filters)
    (input : Record) (entries : List Value) :
    (refiltered input entries).value? name = input.value? name :=
  Record.value?_congr (Record.get?_set_of_ne input different _)

theorem value?_refiltered (input : Record) (entries : List Value) :
    (refiltered input entries).value? names.filters = some (.list entries) :=
  Record.value?_eq_some_iff.mpr ⟨Record.get?_set_self input _ _, rfl⟩

section

variable {site : Site} {function : Function} {input : Record} {entries : List Value}

theorem basePath_refiltered (others : List Value) :
    site.basePath (some (refiltered input others)) = site.basePath (some input) := by
  have notFilters : names.path ≠ names.filters := by decide
  rw [Site.basePath, Site.basePath, substitute, substitute]
  simp only [Option.bind_some, value?_refiltered_of_ne notFilters]

/-- A list is no record of an entity, whatever is in it. -/
theorem bodyParents_refiltered (given : input.value? names.filters = some (.list entries))
    (others : List Value) :
    site.bodyParents function (some (refiltered input others)) =
      site.bodyParents function (some input) := by
  rw [Site.bodyParents_eq, Site.bodyParents_eq, ParentId.ofInput, ParentId.ofInput]
  congr 2
  funext field
  by_cases same : field.name = names.filters
  · simp only [Option.bind_some, same, value?_refiltered, given, Value.record?]
  · simp only [Option.bind_some, value?_refiltered_of_ne same]

/-- A list is no key, whatever is in it. -/
theorem keyParts_refiltered (given : input.value? names.filters = some (.list entries))
    (others : List Value) :
    site.keyParts function (some (refiltered input others)) =
      site.keyParts function (some input) := by
  rw [Site.keyParts, Site.keyParts]
  congr 1
  funext field
  by_cases same : field.name = names.filters
  · simp only [Option.bind_some, same, value?_refiltered, given, ValueType.text]
  · simp only [Option.bind_some, value?_refiltered_of_ne same]

theorem filters_of_ofInput (given : input.value? names.filters = some (.list entries))
    {options : Query.Options} (isOk : Query.Options.ofInput (some input) = .ok options) :
    Filter.clausesOf (.list entries) = .ok options.filters := by
  obtain ⟨totalCount, -, isOk⟩ := exists_of_bind_ok isOk
  obtain ⟨limit, -, isOk⟩ := exists_of_bind_ok isOk
  obtain ⟨offset, -, isOk⟩ := exists_of_bind_ok isOk
  obtain ⟨filters, areFilters, isOk⟩ := exists_of_bind_ok isOk
  cases isOk
  rw [Query.clausesOption, given] at areFilters
  exact areFilters

theorem ofInput_refiltered {options : Query.Options}
    (isOk : Query.Options.ofInput (some input) = .ok options) {others : List Value}
    {clauses : List Clause} (areClauses : Filter.clausesOf (.list others) = .ok clauses) :
    Query.Options.ofInput (some (refiltered input others)) =
      .ok { options with filters := clauses } := by
  have same : ∀ name ∈ [names.totalCount, names.limit, names.offset, names.search,
      names.orderBy, names.filter],
      (refiltered input others).value? name = input.value? name := by
    intro name isName
    apply value?_refiltered_of_ne
    revert name
    decide
  simp only [List.forall_mem_cons] at same
  obtain ⟨sameCount, sameLimit, sameOffset, sameSearch, sameOrder, sameFilter, -⟩ := same
  have areFilters : Query.clausesOption (refiltered input others) = .ok clauses := by
    rw [Query.clausesOption, value?_refiltered]
    exact areClauses
  obtain ⟨totalCount, isCount, isOk⟩ := exists_of_bind_ok isOk
  obtain ⟨limit, isLimit, isOk⟩ := exists_of_bind_ok isOk
  obtain ⟨offset, isOffset, isOk⟩ := exists_of_bind_ok isOk
  obtain ⟨filters, -, isOk⟩ := exists_of_bind_ok isOk
  cases isOk
  rw [Query.booleanOption, ← sameCount] at isCount
  rw [Query.integerOption, ← sameLimit] at isLimit
  rw [Query.integerOption, ← sameOffset] at isOffset
  rw [Query.Options.ofInput, Query.Options.ofRecord, Query.booleanOption, isCount,
    Query.integerOption, isLimit, Query.integerOption, isOffset, areFilters, Query.textOption,
    Query.textOption, sameSearch, sameOrder, sameFilter]
  rfl

end

/-! ## Targets of inputs with another filter -/

theorem ofClause_of_condition {clause : Clause} (isCondition : Site.isParentClause clause = false)
    (type : Option ComplexType) : ParentId.ofClause type clause = [] := by
  rw [Site.isParentClause, Option.isSome_eq_false_iff, Option.isNone_iff_eq_none] at isCondition
  unfold ParentId.ofClause ParentId.named
  cases isKey : clause.key with
  | none => rfl
  | some key =>
      rw [isKey, Option.bind_some] at isCondition
      simp only [isCondition]

/-- The ids of parents in the clauses that name parents: one for each value that is not null. -/
def filterIds (function : Function) (clauses : List Clause) : List ParentId :=
  (parentClauses clauses).flatMap (ParentId.ofClause (entityType? function))

theorem filterParents_eq_filterIds (site : Site) (function : Function) (clauses : List Clause) :
    site.filterParents function clauses = (filterIds function clauses).mapM site.segmentOf := by
  rw [Site.filterParents_eq]
  apply congrArg (List.mapM site.segmentOf)
  rw [filterIds, parentClauses]
  induction clauses with
  | nil => rfl
  | cons clause rest ih =>
      rw [List.flatMap_cons, ih, List.filter_cons]
      split
      · rw [List.flatMap_cons]
      · rename_i notParent
        rw [ofClause_of_condition (Bool.eq_false_iff.mpr notParent), List.nil_append]

section

variable {site : Site} {function : Function} {input : Record} {entries : List Value}

/-- Nothing but the parents and the query changes when an input gets another filter. -/
theorem entityTarget_refiltered (given : input.value? names.filters = some (.list entries))
    {path : String} (isPath : site.entityTarget function (some input) = .ok path)
    (parts : site.Parts function (some input)) {others : List Value} {clauses : List Clause}
    (areClauses : Filter.clausesOf (.list others) = .ok clauses) {parents : List String}
    (areParents : site.filterParents function clauses = .ok parents) {query : String}
    (isQuery : (Site.asked function { parts.options with filters := clauses }).queryString =
      .ok query) :
    site.entityTarget function (some (refiltered input others)) =
      .ok (site.basePath (some input) ++ (String.join parts.bodyParents ++ String.join parents) ++
        "/" ++ parts.entity ++ query) := by
  have areBodyParents := (bodyParents_refiltered given others).trans parts.isBodyParents
  have areKeys := (keyParts_refiltered given others).trans parts.isKeys
  have areOptions := ofInput_refiltered parts.isOptions areClauses
  rw [Site.asked] at isQuery
  rw [Site.entityTarget, parts.isBodyParents, parts.isOptions] at isPath
  rw [Site.entityTarget, basePath_refiltered, areBodyParents, areOptions]
  simp only [bind, Except.bind, parts.isFilterParents, areParents, areKeys] at isPath ⊢
  cases isContext : function.requireContext with
  | error fault =>
      rw [isContext] at isPath
      cases isPath
  | ok context =>
      obtain rfl := Option.some.inj
        ((context_eq_of_requireContext isContext).symm.trans parts.isContext)
      simp only [isQuery, Site.Parts.entity, String.append_assoc]
      rfl

/-- What is asked for depends on the conditions only. -/
theorem asked_congr {options : Query.Options} {clauses : List Clause}
    (same : conditionClauses clauses = conditionClauses options.filters) :
    Site.asked function { options with filters := clauses } = Site.asked function options := by
  unfold Site.asked
  rw [conditionClauses, conditionClauses] at same
  simp only [same]

theorem conditionClauses_conditionClauses (clauses : List Clause) :
    conditionClauses (conditionClauses clauses) = conditionClauses clauses := by
  rw [conditionClauses, conditionClauses, List.filter_filter]
  simp only [Bool.and_self]

theorem parentClauses_conditionClauses (clauses : List Clause) :
    parentClauses (conditionClauses clauses) = [] := by
  rw [parentClauses, conditionClauses, List.filter_filter, List.filter_eq_nil_iff]
  simp

/-- The path of a target, without its query. -/
def Site.Parts.location (parts : site.Parts function (some input)) : String :=
  site.basePath (some input) ++ parts.parents ++ "/" ++ parts.entity

/-- Filters with the same parents give one path. -/
theorem location_of_sameParents (given : input.value? names.filters = some (.list entries))
    (parts : site.Parts function (some input)) {others : List Value}
    (sameParents : parentEntries others = parentEntries entries)
    (otherParts : site.Parts function (some (refiltered input others))) :
    otherParts.location = parts.location := by
  have areClauses := filters_of_ofInput given parts.isOptions
  have areOthers := filters_of_ofInput (value?_refiltered input others) otherParts.isOptions
  have sameIds : filterIds function otherParts.options.filters =
      filterIds function parts.options.filters := by
    have otherClauses := (clausesOf_apart areOthers).1
    rw [sameParents, (clausesOf_apart areClauses).1] at otherClauses
    rw [filterIds, filterIds, Except.ok.inj otherClauses]
  have sameFilterParents : otherParts.filterParents = parts.filterParents := by
    have areOtherParents := otherParts.isFilterParents
    rw [filterParents_eq_filterIds, sameIds, ← filterParents_eq_filterIds,
      parts.isFilterParents] at areOtherParents
    exact (Except.ok.inj areOtherParents).symm
  have sameBodyParents : otherParts.bodyParents = parts.bodyParents := by
    have areBodyParents := otherParts.isBodyParents
    rw [bodyParents_refiltered given, parts.isBodyParents] at areBodyParents
    exact (Except.ok.inj areBodyParents).symm
  have sameKeys : otherParts.keys = parts.keys := by
    have areKeys := otherParts.isKeys
    rw [keyParts_refiltered given, parts.isKeys] at areKeys
    exact (Except.ok.inj areKeys).symm
  have sameContext : otherParts.context = parts.context :=
    Option.some.inj (otherParts.isContext.symm.trans parts.isContext)
  rw [Site.Parts.location, Site.Parts.location, Site.Parts.parents, Site.Parts.parents,
    Site.Parts.entity, Site.Parts.entity, basePath_refiltered, sameBodyParents,
    sameFilterParents, sameContext, sameKeys]

/-- If an input has a target, then
- its path has one segment for each value of a parent in the filter that is not null, in their
  order, behind the parents in the body and before the context;
- every other mixture of the parents and the conditions in its filter has the same target;
- every other filter with the same parents gives the same path, whatever the conditions are;
- the filter without the parents gives the same query, behind the path without them. -/
theorem parents_apart_from_conditions
    (given : input.get? names.filters = some (.list entries)) {target : String}
    (isTarget : site.entityTarget function (some input) = .ok target) :
    ∃ (parts : site.Parts function (some input)) (clauses : List Clause),
      target = parts.location ++ parts.query ∧
      Filter.clausesOf (.list entries) = .ok clauses ∧
      List.Forall₂ (fun id segment => site.segmentOf id = .ok segment)
        (filterIds function clauses) parts.filterParents ∧
      (∀ others, parentEntries others = parentEntries entries →
        conditionEntries others = conditionEntries entries →
          site.entityTarget function (some (refiltered input others)) = .ok target) ∧
      (∀ others, parentEntries others = parentEntries entries → ∀ other,
        site.entityTarget function (some (refiltered input others)) = .ok other →
          ∃ query, other = parts.location ++ query) ∧
      site.entityTarget function (some (refiltered input (conditionEntries entries))) =
        .ok (site.basePath (some input) ++ String.join parts.bodyParents ++ "/" ++
          parts.entity ++ parts.query) := by
  have isValue : input.value? names.filters = some (.list entries) :=
    Record.value?_eq_some_iff.mpr ⟨given, rfl⟩
  obtain ⟨parts, rfl⟩ := Site.exists_parts_of_entityTarget isTarget
  have areClauses := filters_of_ofInput isValue parts.isOptions
  have areParents := parts.isFilterParents
  rw [filterParents_eq_filterIds] at areParents
  refine ⟨parts, parts.options.filters, rfl, areClauses, forall₂_of_mapM_ok areParents,
    ?_, ?_, ?_⟩
  · intro others sameParents sameConditions
    obtain ⟨mixed, areMixed, mixedParents, mixedConditions⟩ :=
      clausesOf_mixed sameParents sameConditions areClauses
    refine entityTarget_refiltered isValue isTarget parts areMixed ?_ ?_
    · rw [filterParents_eq_filterIds, filterIds, mixedParents]
      exact areParents
    · rw [asked_congr mixedConditions]
      exact parts.isQuery
  · intro others sameParents other isOther
    obtain ⟨otherParts, rfl⟩ := Site.exists_parts_of_entityTarget isOther
    exact ⟨otherParts.query, congrArg (· ++ otherParts.query)
      (location_of_sameParents isValue parts sameParents otherParts)⟩
  · have noParents : site.filterParents function (conditionClauses parts.options.filters) =
        .ok [] := by
      rw [filterParents_eq_filterIds, filterIds, parentClauses_conditionClauses]
      rfl
    have isQuery : (Site.asked function { parts.options with
        filters := conditionClauses parts.options.filters }).queryString = .ok parts.query := by
      rw [asked_congr (conditionClauses_conditionClauses _)]
      exact parts.isQuery
    rw [entityTarget_refiltered isValue isTarget parts (clausesOf_apart areClauses).2 noParents
      isQuery]
    simp only [String.join_nil, String.append_empty]

end

/-- The items of lists. -/
def findItems : Function where
  name := "find"
  context := some "items"
  method := .get
  input := { name := "input" }
  output := default

/-- An entry of a filter. -/
def filterEntry (key : String) (values : List Value) (joinsByOr : Bool) : Value := .record ⟨[
  ("key", .scalar (.text key)), ("values", .list values), ("or", .scalar (.boolean joinsByOr))]⟩

/-- A list that the items are in, with a null beside it. -/
def ofList : Value := filterEntry "lists@odata.parent.id" [.null, .scalar (.text "a")] true

/-- The items are called `x`. -/
def calledX : Value := filterEntry "title" [.scalar (.text "x")] false

/-- Or they are of the kind `y`. -/
def orKindY : Value := filterEntry "kind" [.scalar (.text "y")] true

/-- A parent between two conditions of one group leaves them in it, wherever it stands. -/
theorem parent_inside_group_apart :
    let site : Site :=
      ⟨{ scheme := "https", host := "example.com", basePath := "/odata" }, {}⟩
    let query := "?$filter=%20%28%20title%20eq%20%27x%27%20or%20kind%20eq%20%27y%27%29"
    site.entityTarget findItems (some ⟨[(names.filters, .list [calledX, ofList, orKindY])]⟩) =
        .ok ("/odata/lists(a)/items" ++ query) ∧
      site.entityTarget findItems (some ⟨[(names.filters, .list [calledX, orKindY, ofList])]⟩) =
        .ok ("/odata/lists(a)/items" ++ query) ∧
      site.entityTarget findItems (some ⟨[(names.filters, .list [calledX, orKindY])]⟩) =
        .ok ("/odata/items" ++ query) := by
  intro site query
  have isTarget : site.entityTarget findItems
      (some ⟨[(names.filters, .list [calledX, ofList, orKindY])]⟩) =
        .ok ("/odata/lists(a)/items" ++ query) := rfl
  obtain ⟨⟨bodyParents, options, filterParents, context, keys, ownQuery, areBodyParents,
    isOptions, areFilterParents, isContext, areKeys, isQuery⟩, clauses, -, -, -, mixed, -,
    isAlone⟩ :=
    parents_apart_from_conditions rfl isTarget
  obtain rfl : [] = bodyParents := Except.ok.inj areBodyParents
  obtain rfl : "items" = context := Option.some.inj isContext
  obtain rfl : [] = keys := Except.ok.inj areKeys
  obtain rfl : { filters := [_, _, _] : Query.Options } = options := Except.ok.inj isOptions
  obtain rfl : query = ownQuery := Except.ok.inj isQuery
  exact ⟨isTarget, mixed [calledX, orKindY, ofList] rfl rfl, isAlone⟩

end OData.Target
