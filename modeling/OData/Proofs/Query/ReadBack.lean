/-
# Queries read back

A query is split at `&`, each parameter is cut at its first `=`, and what is left is
decoded. Reading a query in this way gives the options it was made from: nothing that
a text holds can end its parameter, begin another one, or pass for a separator. The
items of an ordering are the one exception to the rule that values are decoded last.
They were encoded one by one, and so are split at `,` while still encoded; the names
to expand were joined before, and are given back as they were joined.

The reader below is no part of a client. It does what a server has to do, and takes
the parameters in any order. What it should find is said on the options themselves: how
each item of an ordering is spelt, and which filter applies.
-/

import OData.Proofs.Number.Numeral
import OData.Proofs.Outcome
import OData.Proofs.Text.Percent
import OData.Proofs.Text.Search
import OData.Query.Options
import Mathlib.Data.List.Forall2

namespace OData.Query

open Text (percentDecode? percentEncode)

/-! ## Reading queries -/

/-- What one parameter of a query asks for. -/
inductive Demand where
  /-- At most so many entities. -/
  | limit (count : Int64)
  /-- So many entities are left out. -/
  | offset (count : Int64)
  /-- The number of entities is wanted, or not. -/
  | totalCount (wanted : Bool)
  | search (text : String)
  | order (items : List String)
  | filter (expression : String)
  /-- Properties to expand, with commas between their names. -/
  | expand (names : String)

/-- The names of the parameters, in the order in which they stand. -/
def parameterNames : List String :=
  ["$top", "$skip", "$count", "$search", "$orderby", "$filter", "$expand"]

namespace Demand

/-- The name of the parameter. -/
def name : Demand → String
  | .limit _ => "$top"
  | .offset _ => "$skip"
  | .totalCount _ => "$count"
  | .search _ => "$search"
  | .order _ => "$orderby"
  | .filter _ => "$filter"
  | .expand _ => "$expand"

/-- The truth value of a word. -/
def boolean? : String → Option Bool
  | "true" => some true
  | "false" => some false
  | _ => none

/-- What a parameter of a name asks for with a value, which is still encoded. -/
def read? (name value : String) : Option Demand :=
  match name with
  | "$top" => ((percentDecode? value).bind Number.readInt64?).map .limit
  | "$skip" => ((percentDecode? value).bind Number.readInt64?).map .offset
  | "$count" => ((percentDecode? value).bind boolean?).map .totalCount
  | "$search" => (percentDecode? value).map .search
  | "$orderby" => ((Text.splitAt ',' value).mapM percentDecode?).map .order
  | "$filter" => (percentDecode? value).map .filter
  | "$expand" => (percentDecode? value).map .expand
  | _ => none

/-- What a parameter asks for. Its name ends at the first `=`, and is decoded too. -/
def ofParameter? (parameter : String) : Option Demand := do
  let (name, value) ← Text.cut? "=" parameter
  read? (← percentDecode? name) value

end Demand

/-- What a query asks for. It is empty, or a question mark and parameters with `&`
between them. -/
def readQuery? (query : String) : Option (List Demand) :=
  match query.toList with
  | [] => some []
  | '?' :: rest => (Text.splitAt '&' (String.ofList rest)).mapM Demand.ofParameter?
  | _ => none

/-! ## Options that apply -/

/-- How an item of an ordering is spelt. -/
inductive OrderItem.IsSpelt : OrderItem → String → Prop where
  | ascending (field : String) : IsSpelt (.ascending field) (field ++ " asc")
  | descending (field : String) : IsSpelt (.descending field) (field ++ " desc")
  | given (item : String) : IsSpelt (.given item) item

namespace Options

/-- What the options ask to filter by: the expression that was given, and without one the
text of the clauses, if there are any. -/
inductive AsksFor (options : Options) : Option String → Prop where
  | expression {text : String} (isGiven : options.filter = some text) :
      AsksFor options (some text)
  | clauses {text : String} (notGiven : options.filter = none)
      (someThere : options.filters ≠ []) (isText : Filter.compile options.filters = .ok text) :
      AsksFor options (some text)
  | nothing (notGiven : options.filter = none) (noneThere : options.filters = []) :
      AsksFor options none

/-- The filter that applies: what the options ask for, unless it is blank. -/
inductive FiltersBy (options : Options) : Option String → Prop where
  | text {text : String} (asked : AsksFor options (some text)) {c : Char}
      (isMember : c ∈ text.toList) (notBlank : Text.isBlank c = false) :
      FiltersBy options (some text)
  | blank {text : String} (asked : AsksFor options (some text))
      (areBlank : ∀ c ∈ text.toList, Text.isBlank c = true) : FiltersBy options none
  | nothing (asked : AsksFor options none) : FiltersBy options none

/-- The options that apply, in the order of their parameters, given how the items of the
ordering are spelt and which filter applies. -/
def demands (options : Options) (items : List String) (filter : Option String) :
    List Demand :=
  List.reduceOption [
    options.limit.map .limit,
    options.offset.map .offset,
    options.totalCount.map .totalCount,
    options.search.map .search,
    if options.orderBy = [] then none else some (.order items),
    filter.map .filter,
    if options.expand = [] then none else some (.expand (",".intercalate options.expand))]

theorem FiltersBy.of_asked {options : Options} {asked : Option String}
    (asks : options.AsksFor asked) :
    options.FiltersBy (asked.filter fun text => !Text.isBlankText text) := by
  cases asked with
  | none => exact .nothing asks
  | some text =>
      rw [Option.filter_some]
      cases isBlank : Text.isBlankText text with
      | true => exact .blank asks (List.all_eq_true.mp isBlank)
      | false =>
          obtain ⟨c, isMember, notBlank⟩ := List.all_eq_false.mp isBlank
          exact .text asks isMember (Bool.eq_false_iff.mpr notBlank)

/-- The filter that applies is found, unless it would be the text of clauses without one. -/
theorem filterExpression_cases (options : Options) :
    (∃ expression, options.filterExpression = .ok expression ∧ options.FiltersBy expression) ∨
      ∃ fault, options.filterExpression = .error fault ∧ options.filter = none ∧
        options.filters ≠ [] ∧ Filter.compile options.filters = .error fault := by
  unfold filterExpression
  cases isGiven : options.filter with
  | some text => exact .inl ⟨_, rfl, .of_asked (.expression isGiven)⟩
  | none =>
      by_cases noneThere : options.filters = []
      · simp only [noneThere, List.isEmpty_nil, if_true]
        exact .inl ⟨_, rfl, .of_asked (.nothing isGiven noneThere)⟩
      · simp only [List.isEmpty_eq_false_iff.mpr noneThere, Bool.false_eq_true, if_false]
        cases isText : Filter.compile options.filters with
        | ok text => exact .inl ⟨_, rfl, .of_asked (.clauses isGiven noneThere isText)⟩
        | error fault => exact .inr ⟨fault, rfl, trivial, noneThere, rfl⟩

theorem filterExpression_eq_error_iff {options : Options} {fault : Fault} :
    options.filterExpression = .error fault ↔ options.filter = none ∧ options.filters ≠ [] ∧
      Filter.compile options.filters = .error fault := by
  rcases options.filterExpression_cases with
    ⟨expression, isOk, filters⟩ | ⟨other, isFault, notGiven, someThere, noText⟩
  · rw [isOk]
    refine iff_of_false nofun ?_
    rintro ⟨notGiven, someThere, noText⟩
    have asked : ∀ asked, options.AsksFor asked → False := by
      rintro _ (isGiven | ⟨-, -, isText⟩ | ⟨-, noneThere⟩)
      · cases notGiven.symm.trans isGiven
      · cases noText.symm.trans isText
      · exact someThere noneThere
    cases filters <;> exact asked _ ‹_›
  · rw [isFault, noText]
    simp [notGiven, someThere]

end Options

theorem OrderItem.isSpelt_text (item : OrderItem) : item.IsSpelt item.text := by
  cases item with
  | ascending field => exact .ascending field
  | descending field => exact .descending field
  | given item => exact .given item

theorem isSpelt_map_text (items : OrderBy) :
    List.Forall₂ OrderItem.IsSpelt items (items.map OrderItem.text) := by
  rw [List.forall₂_map_right_iff, List.forall₂_same]
  exact fun item _ => item.isSpelt_text

/-! ## Lists -/

theorem mapM_eq_some {α β : Type} {read : α → Option β} {items : List α} {values : List β}
    (areRead : List.Forall₂ (fun item value => read item = some value) items values) :
    items.mapM read = some values := by
  induction areRead with
  | nil => rfl
  | cons isRead _ ih =>
      rw [List.mapM_cons, isRead, ih]
      rfl

/-- Keys of what is left of optional items are among the keys of all, in their order. -/
theorem map_reduceOption_sublist {α κ : Type} {key : α → κ} {items : List (Option α)}
    {keys : List κ}
    (haveKeys : List.Forall₂ (fun item k => ∀ value ∈ item, key value = k) items keys) :
    (items.reduceOption.map key).Sublist keys := by
  induction haveKeys with
  | nil => exact .slnil
  | @cons item k items keys hasKey _ ih =>
      cases item with
      | none => exact ih.cons k
      | some value =>
          obtain rfl := hasKey value rfl
          exact ih.cons_cons (key value)

theorem rel_map {α β γ : Type} {related : β → γ → Prop} {first : α → β} {second : α → γ}
    {value : Option α} (areRelated : ∀ item, related (first item) (second item)) :
    Option.Rel related (value.map first) (value.map second) := by
  cases value with
  | none => exact .none
  | some item => exact .some (areRelated item)

/-- What is left of related optional items is related. -/
theorem forall₂_reduceOption {α β : Type} {related : α → β → Prop} {items : List (Option α)}
    {values : List (Option β)} (areRelated : List.Forall₂ (Option.Rel related) items values) :
    List.Forall₂ related items.reduceOption values.reduceOption := by
  induction areRelated with
  | nil => exact .nil
  | cons isRelated _ ih =>
      cases isRelated with
      | none => exact ih
      | some isRelated => exact .cons isRelated ih

/-! ## Parameters -/

/-- A parameter is written so that it is read as a demand and can be told apart from
its neighbours. -/
structure StandsFor (parameter : Options.Parameter) (demand : Demand) : Prop where
  isKnown : parameter.name ∈ parameterNames
  isApart : '&' ∉ parameter.value.toList
  isRead : Demand.read? parameter.name parameter.value = some demand

/-- Text of a parameter. -/
def parameterText (parameter : Options.Parameter) : String :=
  parameter.name ++ "=" ++ parameter.value

/-- The names of parameters hold nothing that would have to be encoded inside a query,
but for the dollar sign that they begin with. -/
theorem name_plain {name : String} (isKnown : name ∈ parameterNames) :
    '=' ∉ name.toList ∧ '&' ∉ name.toList ∧ '%' ∉ name.toList := by
  simp only [parameterNames, List.mem_cons, List.not_mem_nil, or_false] at isKnown
  rcases isKnown with rfl | rfl | rfl | rfl | rfl | rfl | rfl <;> decide

namespace StandsFor

variable {parameter : Options.Parameter} {demand : Demand}

theorem ofParameter? (stands : StandsFor parameter demand) :
    Demand.ofParameter? (parameterText parameter) = some demand := by
  obtain ⟨noEquals, -, noPercent⟩ := name_plain stands.isKnown
  have cut : Text.cut? "=" (parameterText parameter) = some (parameter.name, parameter.value) :=
    Text.cut?_of_not_mem noEquals parameter.value
  simp only [Demand.ofParameter?, cut, Option.bind_eq_bind, Option.bind_some,
    Text.percentDecode?_of_not_mem noPercent, stands.isRead]

theorem not_mem_text (stands : StandsFor parameter demand) :
    '&' ∉ (parameterText parameter).toList := by
  obtain ⟨-, noAmpersand, -⟩ := name_plain stands.isKnown
  simp [parameterText, noAmpersand, stands.isApart]

end StandsFor

theorem percentDecode?_toString (value : Int) :
    percentDecode? (toString value) = some (toString value) :=
  Text.percentDecode?_of_not_mem (Number.not_mem_toString (by decide) (by decide) value)

/-- A parameter whose value is an encoded text. -/
theorem standsFor_encoded {name : String} {make : String → Demand}
    (isKnown : name ∈ parameterNames)
    (reads : ∀ value, Demand.read? name value = (percentDecode? value).map make) (text : String) :
    StandsFor ⟨name, percentEncode text⟩ (make text) := by
  refine ⟨isKnown, Text.not_mem_percentEncode (by decide) text, ?_⟩
  rw [reads, Text.percentDecode?_percentEncode, Option.map_some]

/-- A parameter whose value is an integer. -/
theorem standsFor_integer {name : String} {make : Int64 → Demand}
    (isKnown : name ∈ parameterNames)
    (reads : ∀ value,
      Demand.read? name value = ((percentDecode? value).bind Number.readInt64?).map make)
    (value : Int64) : StandsFor ⟨name, toString value.toInt⟩ (make value) := by
  refine ⟨isKnown, Number.not_mem_toString (by decide) (by decide) _, ?_⟩
  rw [reads, percentDecode?_toString, Option.bind_some, Number.readInt64?_toString,
    Option.map_some]

/-- A special character is in none of the encoded items of an ordering. -/
theorem not_mem_items {c : Char} (isSpecial : ¬ Text.IsEncoded c) (items : OrderBy) :
    ∀ piece ∈ items.map fun item => percentEncode item.text, c ∉ piece.toList := by
  intro piece isMember
  obtain ⟨item, -, rfl⟩ := List.mem_map.mp isMember
  exact Text.not_mem_percentEncode isSpecial item.text

/-- The items of an ordering are found again: the commas between them are the only
ones. -/
theorem splitAt_order {items : OrderBy} (someThere : items ≠ []) :
    (Text.splitAt ',' (",".intercalate (items.map fun item => percentEncode item.text))).mapM
      percentDecode? = some (items.map OrderItem.text) := by
  have areSplit :
      Text.splitAt ',' (",".intercalate (items.map fun item => percentEncode item.text)) =
        items.map fun item => percentEncode item.text :=
    Text.splitAt_intercalate (by simpa using someThere) (not_mem_items (by decide) items)
  rw [areSplit]
  refine mapM_eq_some ?_
  rw [List.forall₂_map_left_iff, List.forall₂_map_right_iff, List.forall₂_same]
  exact fun item _ => Text.percentDecode?_percentEncode item.text

theorem standsFor_boolean (wanted : Bool) :
    StandsFor ⟨"$count", Scalar.boolText wanted⟩ (.totalCount wanted) := by
  have noPercent : '%' ∉ (Scalar.boolText wanted).toList := by cases wanted <;> decide
  have isWord : Demand.boolean? (Scalar.boolText wanted) = some wanted := by
    cases wanted <;> decide
  refine ⟨by simp [parameterNames], by cases wanted <;> decide, ?_⟩
  simp only [Demand.read?, Text.percentDecode?_of_not_mem noPercent, Option.bind_some, isWord,
    Option.map_some]

theorem standsFor_order {items : OrderBy} (someThere : items ≠ []) :
    StandsFor ⟨"$orderby", ",".intercalate (items.map fun item => percentEncode item.text)⟩
      (.order (items.map OrderItem.text)) := by
  refine ⟨by simp [parameterNames], ?_, ?_⟩
  · exact Text.not_mem_intercalate (by decide) (not_mem_items (by decide) items)
  · simp only [Demand.read?, splitAt_order someThere, Option.map_some]

/-- The parameters of the options that apply stand for these options. -/
theorem parameters_standFor {options : Options} {expression : Option String}
    (applies : options.filterExpression = .ok expression) :
    ∃ parameters, options.parameters = .ok parameters ∧
      List.Forall₂ StandsFor parameters
        (options.demands (options.orderBy.map OrderItem.text) expression) := by
  rw [Options.parameters, applies]
  refine ⟨_, rfl, forall₂_reduceOption ?_⟩
  refine .cons ?_ (.cons ?_ (.cons ?_ (.cons ?_ (.cons ?_ (.cons ?_ (.cons ?_ .nil))))))
  · exact rel_map (standsFor_integer (by decide) fun _ => rfl)
  · exact rel_map (standsFor_integer (by decide) fun _ => rfl)
  · exact rel_map standsFor_boolean
  · exact rel_map (standsFor_encoded (by decide) fun _ => rfl)
  · cases items : options.orderBy with
    | nil => exact .none
    | cons item rest => exact .some (standsFor_order (List.cons_ne_nil item rest))
  · exact rel_map (standsFor_encoded (by decide) fun _ => rfl)
  · cases names : options.expand with
    | nil => exact .none
    | cons name rest => exact .some (standsFor_encoded (by decide) (fun _ => rfl) _)

theorem named_of_mem_map {α : Type} {value : Option α} {make : α → Demand} {name : String}
    (areNamed : ∀ item, (make item).name = name) :
    ∀ demand ∈ value.map make, demand.name = name := by
  intro demand isMember
  obtain ⟨item, -, rfl⟩ := Option.map_eq_some_iff.mp isMember
  exact areNamed item

theorem named_of_mem_ite {c : Prop} [Decidable c] {demanded : Demand} {name : String}
    (isNamed : demanded.name = name) :
    ∀ demand ∈ if c then none else some demanded, demand.name = name := by
  intro demand isMember
  split at isMember
  · cases isMember
  · cases isMember
    exact isNamed

/-- Options stand in their one order, each at most once. -/
theorem demands_in_order (options : Options) (items : List String)
    (expression : Option String) :
    ((options.demands items expression).map Demand.name).Sublist parameterNames := by
  refine map_reduceOption_sublist ?_
  exact .cons (named_of_mem_map fun _ => rfl) <|
    .cons (named_of_mem_map fun _ => rfl) <|
    .cons (named_of_mem_map fun _ => rfl) <|
    .cons (named_of_mem_map fun _ => rfl) <|
    .cons (named_of_mem_ite rfl) <|
    .cons (named_of_mem_map fun _ => rfl) <|
    .cons (named_of_mem_ite rfl) .nil

/-- A query made of parameters that stand for demands is read as these demands. -/
theorem readQuery?_of_standsFor {parameters : List Options.Parameter} {demands : List Demand}
    (stand : List.Forall₂ StandsFor parameters demands) (someThere : parameters ≠ []) :
    readQuery? ("?" ++ "&".intercalate (parameters.map parameterText)) = some demands := by
  have eachApart : ∀ parameter ∈ parameters, '&' ∉ (parameterText parameter).toList :=
    ((List.forall₂_and_left _ _).mp (stand.imp fun _ _ stands => ⟨stands.not_mem_text, stands⟩)).1
  have apart : ∀ piece ∈ parameters.map parameterText, '&' ∉ piece.toList := by
    simpa using eachApart
  have areSplit : Text.splitAt '&' ("&".intercalate (parameters.map parameterText)) =
      parameters.map parameterText :=
    Text.splitAt_intercalate (by simpa using someThere) apart
  have marked : ("?" ++ "&".intercalate (parameters.map parameterText)).toList =
      '?' :: ("&".intercalate (parameters.map parameterText)).toList :=
    String.toList_append
  simp only [readQuery?, marked, String.ofList_toList, areSplit]
  refine mapM_eq_some ?_
  rw [List.forall₂_map_left_iff]
  exact stand.imp fun _ _ stands => stands.ofParameter?

/-- The query of options with a filter that applies. -/
theorem exists_queryString {options : Options} {expression : Option String}
    (applies : options.filterExpression = .ok expression) :
    let demands := options.demands (options.orderBy.map OrderItem.text) expression
    ∃ query, options.queryString = .ok query ∧ (query = "" ↔ demands = []) ∧
      readQuery? query = some demands := by
  obtain ⟨parameters, areMade, stand⟩ := parameters_standFor applies
  simp only [Options.queryString, areMade]
  generalize options.demands _ expression = demands at stand ⊢
  cases stand with
  | nil => exact ⟨"", rfl, by simp, rfl⟩
  | @cons parameter demand parameters demands isFirst areRest =>
      have isRead := readQuery?_of_standsFor (.cons isFirst areRest)
        (List.cons_ne_nil parameter parameters)
      have notEmpty :
          "?" ++ "&".intercalate ((parameter :: parameters).map parameterText) ≠ "" := by
        simp
      refine ⟨_, rfl, ?_, isRead⟩
      exact iff_of_false notEmpty (List.cons_ne_nil demand demands)

theorem queryString_eq_error_iff {options : Options} {fault : Fault} :
    options.queryString = .error fault ↔ options.filterExpression = .error fault := by
  cases applies : options.filterExpression with
  | error other =>
      have isFault : options.queryString = .error other := by
        rw [Options.queryString, Options.parameters, applies]
        rfl
      rw [isFault, Except.error.injEq, Except.error.injEq]
  | ok expression =>
      obtain ⟨query, isQuery, -⟩ := exists_queryString applies
      rw [isQuery]
      exact iff_of_false nofun nofun

/-- A query can be made unless a filter has to be compiled and cannot be. It is read as the
options that apply, in their one order, and is empty if there are none.

The reader cuts at every delimiter that it meets, so no text of the options, whatever it
holds, adds a parameter, removes one, or changes what another one asks for. -/
theorem query_reads_back (options : Options) :
    (∀ query, options.queryString = .ok query → ∃ items expression,
      List.Forall₂ OrderItem.IsSpelt options.orderBy items ∧ options.FiltersBy expression ∧
        (query = "" ↔ options.demands items expression = []) ∧
        readQuery? query = some (options.demands items expression) ∧
        ((options.demands items expression).map Demand.name).Sublist parameterNames) ∧
      ∀ fault, options.queryString = .error fault ↔ options.filter = none ∧
        options.filters ≠ [] ∧ Filter.compile options.filters = .error fault := by
  refine ⟨fun query isOk => ?_, fun fault => ?_⟩
  · rcases options.filterExpression_cases with ⟨expression, applies, filters⟩ | ⟨_, isFault, -⟩
    · obtain ⟨_, isQuery, empty, isRead⟩ := exists_queryString applies
      cases isOk.symm.trans isQuery
      exact ⟨_, expression, isSpelt_map_text options.orderBy, filters, empty, isRead,
        demands_in_order options _ expression⟩
    · cases isOk.symm.trans (queryString_eq_error_iff.mpr isFault)
  · exact queryString_eq_error_iff.trans Options.filterExpression_eq_error_iff

/-- Options whose texts hold everything that delimits a query. -/
def hostileOptions : Options where
  limit := some 10
  search := some "a&b=c"
  orderBy := [.descending "name", .given "x,y"]
  filters := [.equal "city" (some (.text "Ghent & Co"))]
  expand := ["owner", "lines"]

/-- The query of these options. -/
def hostileQuery : String :=
  "?$top=10&$search=a%26b%3Dc&$orderby=name%20desc,x%2Cy" ++
    "&$filter=%20city%20eq%20%27Ghent%20%26%20Co%27&$expand=owner%2Clines"

theorem hostile_query_reads_back :
    hostileOptions.queryString = .ok hostileQuery ∧
      readQuery? hostileQuery = some [.limit 10, .search "a&b=c", .order ["name desc", "x,y"],
        .filter " city eq 'Ghent & Co'", .expand "owner,lines"] := by
  have isQuery : hostileOptions.queryString = .ok hostileQuery :=
    ok_of_toOption (by decide +kernel)
  have isText : Filter.compile hostileOptions.filters = .ok " city eq 'Ghent & Co'" := rfl
  obtain ⟨items, expression, areSpelt, filters, -, isRead, -⟩ :=
    (query_reads_back hostileOptions).1 hostileQuery isQuery
  obtain rfl : items = ["name desc", "x,y"] := by
    cases areSpelt with
    | cons isFirst areRest =>
      cases isFirst
      cases areRest with
      | cons isSecond areRest =>
        cases isSecond
        cases areRest
        rfl
  obtain rfl : expression = some " city eq 'Ghent & Co'" := by
    have isAsked {asked : Option String} (asks : hostileOptions.AsksFor asked) :
        asked = some " city eq 'Ghent & Co'" := by
      rcases asks with isGiven | ⟨-, -, isOther⟩ | ⟨-, noneThere⟩
      · cases isGiven
      · cases isText.symm.trans isOther
        rfl
      · cases noneThere
    cases filters with
    | text asks => exact isAsked asks
    | blank asks areBlank =>
        cases isAsked asks
        exact absurd (areBlank 'c' (by decide)) (by decide)
    | nothing asks => cases isAsked asks
  exact ⟨isQuery, isRead⟩

end OData.Query
