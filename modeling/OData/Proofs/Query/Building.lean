/-
# Inputs from steps

An input that is put together step by step is read back as what its steps asked for.
Each step does one kind of thing: it sets a field, or it adds a clause, an order item or
a path value, and fields of other kinds have other names, as long as the fields that are
set by name leave the well-known ones alone. So a field is decided by the steps of one
kind, the last of which counts, and steps of different kinds do not see each other.
-/

import OData.Proofs.Filter.File
import OData.Proofs.Record
import OData.Proofs.Target.Entity
import OData.Query.Input

namespace OData

namespace Query

/-! ## Kinds of steps -/

/-- What a step works on. -/
inductive StepKind where
  | field | filter | rawFilter | order | top | skip | count | search | path | transaction
  deriving DecidableEq

/-- The names of the fields that have steps of their own. -/
def reservedNames : List String :=
  [names.filters, names.filter, names.orderBy, names.limit, names.offset, names.totalCount,
    names.search, names.path, names.transaction]

/-- The names of the fields that are gathered and set when the record is built. -/
def gatheredNames : List String := [names.path, names.orderBy, names.filters]

namespace InputStep

/-- The record of an entity is a field; to ask for active entities is a clause, and to
ask for the newest ones first is an order item. -/
def kind : InputStep → StepKind
  | .field _ _ | .body _ _ => .field
  | .filter _ | .activeOnly => .filter
  | .rawFilter _ => .rawFilter
  | .orderBy _ | .newestFirst => .order
  | .top _ => .top
  | .skip _ => .skip
  | .count => .count
  | .search _ => .search
  | .path _ _ => .path
  | .transaction _ => .transaction

/-- The field that a step sets by its name. -/
def fieldName? : InputStep → Option String
  | .field name _ | .body name _ => some name
  | _ => none

/-- A field that is set by its name is none of those that have steps of their own. -/
def IsFree (step : InputStep) : Prop := ∀ name ∈ step.fieldName?, name ∉ reservedNames

instance : DecidablePred IsFree := fun step =>
  inferInstanceAs (Decidable (∀ name ∈ step.fieldName?, name ∉ reservedNames))

/-! ## What a step brings -/

/-- The field that a step sets at once. -/
def setting? : InputStep → Option (String × Value)
  | .field name value => some (name, value)
  | .body name record => some (name, .record record)
  | .rawFilter expression => some (names.filter, expression)
  | .top limit => some (names.limit, .scalar (.integer limit))
  | .skip offset => some (names.offset, .scalar (.integer offset))
  | .count => some (names.totalCount, .scalar (.boolean true))
  | .search text => some (names.search, text)
  | .transaction id => some (names.transaction, id)
  | .filter _ | .orderBy _ | .path _ _ | .activeOnly | .newestFirst => none

/-- The clause that a step adds. -/
def clause? : InputStep → Option Filter.Clause
  | .filter clause => some clause
  | .activeOnly => some (.equal "statecode" (some (.integer 0)))
  | _ => none

/-- The order item that a step adds. -/
def item? : InputStep → Option OrderItem
  | .orderBy item => some item
  | .newestFirst => some (.descending "createdon")
  | _ => none

/-- The value of a path template that a step sets. -/
def pathValue? : InputStep → Option (String × Value)
  | .path name value => some (name, value)
  | _ => none

/-- The number of entities that a step asks for. -/
def top? : InputStep → Option Int64
  | .top limit => some limit
  | _ => none

/-- The number of entities that a step leaves out. -/
def skip? : InputStep → Option Int64
  | .skip offset => some offset
  | _ => none

/-- The step asks for the number of entities. -/
def isCount : InputStep → Bool
  | .count => true
  | _ => false

/-- The truth value that a step sets when it asks for the number of entities. -/
def count? (step : InputStep) : Option Bool := if step.isCount then some true else none

/-- The text that a step searches for. -/
def search? : InputStep → Option String
  | .search text => some text
  | _ => none

/-- The filter expression that a step sets. -/
def rawFilter? : InputStep → Option String
  | .rawFilter expression => some expression
  | _ => none

end InputStep

/-! ## What is read back -/

/-- A clause is read back from the record that describes it. -/
theorem ofRecord_toRecord (clause : Filter.Clause) :
    Filter.Clause.ofRecord clause.toRecord = .ok clause := by
  apply Filter.Clause.ofRecord_given
  · cases isKey : clause.key <;> simp [Filter.Clause.toRecord, isKey, Filter.Clause.textOrNull,
      Record.value?, Record.get?, Record.lookup, Value.isNull]
  · exact .inl rfl
  · exact .inl rfl
  · exact .inl rfl
  · exact .inl rfl

theorem mapM_ofRecord_toRecord (clauses : List Filter.Clause) :
    (clauses.map Filter.Clause.toRecord).mapM Filter.Clause.ofRecord = .ok clauses := by
  induction clauses with
  | nil => rfl
  | cons clause rest ih =>
      rw [List.map_cons, List.mapM_cons, ofRecord_toRecord, ih]
      rfl

/-- Texts are order items as they are, but for empty ones. -/
theorem ofValue_texts (texts : List String) :
    OrderBy.ofValue (.list (texts.map fun text => .scalar (.text text))) =
      (texts.filter fun text => !text.isEmpty).map .given := by
  have keepsAll : (Value.list (texts.map fun text => .scalar (.text text))).flatten =
      texts.map fun text => .scalar (.text text) := by
    rw [Value.flatten, List.filter_eq_self]
    intro value isMember
    obtain ⟨text, -, rfl⟩ := List.mem_map.mp isMember
    rfl
  have plains : (texts.map fun text => Value.scalar (.text text)).filterMap Value.plain? =
      texts := by
    rw [List.filterMap_map]
    exact List.filterMap_some
  rw [OrderBy.ofValue, keepsAll, plains]

namespace InputBuilder

open InputStep

/-! ## Steps and runs -/

/-- Fields that are set one after another. -/
def setAll (fields : List (String × Value)) (record : Record) : Record :=
  fields.foldl (fun record field => record.set field.1 field.2) record

/-- A step brings what it brings, each behind what was there before. -/
theorem step_eq (builder : InputBuilder) (step : InputStep) :
    builder.step step = {
      record := setAll step.setting?.toList builder.record
      filters := builder.filters ++ step.clause?.toList.map Filter.Clause.toRecord
      orderBy := builder.orderBy ++ step.item?.toList.map OrderItem.text
      path := setAll step.pathValue?.toList builder.path } := by
  cases step <;>
    simp [InputBuilder.step, setField, addFilter, addOrder, setting?, clause?, item?, pathValue?,
      setAll]

theorem filterMap_cons_toList {α β : Type} (pick : α → Option β) (first : α) (rest : List α) :
    (first :: rest).filterMap pick = (pick first).toList ++ rest.filterMap pick := by
  cases picked : pick first <;> simp [picked]

theorem setAll_append (first second : List (String × Value)) (record : Record) :
    setAll (first ++ second) record = setAll second (setAll first record) := List.foldl_append

/-- Steps bring what each of them brings, in order. -/
theorem foldl_step (steps : List InputStep) (builder : InputBuilder) :
    steps.foldl step builder = {
      record := setAll (steps.filterMap setting?) builder.record
      filters := builder.filters ++ (steps.filterMap clause?).map Filter.Clause.toRecord
      orderBy := builder.orderBy ++ (steps.filterMap item?).map OrderItem.text
      path := setAll (steps.filterMap pathValue?) builder.path } := by
  induction steps generalizing builder with
  | nil => simp [setAll]
  | cons step rest ih =>
      rw [List.foldl_cons, ih, step_eq]
      simp only [filterMap_cons_toList, setAll_append, List.map_append, List.append_assoc]

/-! ## Fields of the record that is built -/

theorem get?_setUnless (isEmpty : Bool) (name : String) (value : Value) (record : Record)
    (other : String) :
    (setUnless isEmpty name value record).get? other =
      if !isEmpty && other == name then some value else record.get? other := by
  cases isEmpty with
  | true => rfl
  | false =>
      rw [setUnless, if_neg Bool.false_ne_true, Record.get?_set]
      simp

/-- The value that the last step to set a field at once sets it to. -/
def lastSetting? (steps : List InputStep) (name : String) : Option Value :=
  (((steps.filterMap setting?).filter fun field => field.1 == name).getLast?).map Prod.snd

/-- The fields that are set when the record is built, and those that are set at once. -/
theorem get?_ofSteps (steps : List InputStep) (name : String) :
    (ofSteps steps).get? name =
      if !(setAll (steps.filterMap pathValue?) .empty).isEmpty && name == names.path then
        some (.record (setAll (steps.filterMap pathValue?) .empty))
      else if !(steps.filterMap item?).isEmpty && name == names.orderBy then
        some (.list ((steps.filterMap item?).map fun item => .scalar (.text item.text)))
      else if !(steps.filterMap clause?).isEmpty && name == names.filters then
        some (.list ((steps.filterMap clause?).map fun clause => .record clause.toRecord))
      else lastSetting? steps name := by
  -- What is set last is looked at first.
  rw [ofSteps, foldl_step, build]
  simp only [get?_setUnless, List.nil_append, List.isEmpty_map, List.map_map, Function.comp_def]
  congr 3
  exact Record.get?_ofFields _ name

/-- What the steps bring that set a field of their own at once. Only these steps and those
that set a field by its name may set it. Which steps do is seen from the steps. -/
structure BringsField {α : Type} (name : String) (pick : InputStep → Option α)
    (value : α → Value) : Prop where
  reserved : name ∈ reservedNames := by decide
  named : ∀ step : InputStep, step.fieldName?.isSome = true → pick step = none := by
    intro step isNamed
    cases step <;> first | rfl | cases isNamed
  own : ∀ step : InputStep, step.fieldName? = none →
      step.setting?.filter (fun field => field.1 == name) =
        (pick step).map fun a => (name, value a) := by
    intro step notNamed
    cases step <;> first | rfl | cases notNamed

namespace BringsField

theorem top : BringsField names.limit top? fun limit => .scalar (.integer limit) := {}

theorem skip : BringsField names.offset skip? fun offset => .scalar (.integer offset) := {}

theorem count : BringsField names.totalCount count? fun flag => .scalar (.boolean flag) := {}

theorem search : BringsField names.search search? fun text => .scalar (.text text) := {}

theorem rawFilter : BringsField names.filter rawFilter? fun text => .scalar (.text text) := {}

/-- The fields that are set when the record is built are not set before. -/
theorem gathered {name : String} (isGathered : name ∈ gatheredNames) :
    BringsField name (fun _ => none) fun value : Value => value := by
  simp only [gatheredNames, List.mem_cons, List.not_mem_nil, or_false] at isGathered
  rcases isGathered with rfl | rfl | rfl <;> exact {}

variable {α : Type} {name : String} {pick : InputStep → Option α} {value : α → Value}

theorem setting?_eq (brings : BringsField name pick value) {step : InputStep}
    (free : step.IsFree) :
    step.setting?.filter (fun field => field.1 == name) =
      (pick step).map fun a => (name, value a) := by
  cases isField : step.fieldName? with
  | none => exact brings.own step isField
  | some field =>
      have apart : field ≠ name := by
        rintro rfl
        exact free _ isField brings.reserved
      rw [brings.named step (Option.isSome_of_eq_some isField)]
      cases step <;> simp_all [fieldName?, setting?]

variable {steps : List InputStep}

theorem lastSetting?_eq (brings : BringsField name pick value)
    (free : ∀ step ∈ steps, step.IsFree) :
    lastSetting? steps name = ((steps.filterMap pick).getLast?).map value := by
  have settings : (steps.filterMap setting?).filter (fun field => field.1 == name) =
      (steps.filterMap pick).map fun a => (name, value a) := by
    rw [List.filter_filterMap, List.map_filterMap]
    exact List.filterMap_congr fun step isMember => brings.setting?_eq (free step isMember)
  rw [lastSetting?, settings, List.getLast?_map, Option.map_map]
  rfl

/-- Such a field has the value that the last of its steps brings. -/
theorem value?_ofSteps (brings : BringsField name pick value)
    (free : ∀ step ∈ steps, step.IsFree) (atOnce : name ∉ gatheredNames)
    (noNull : ∀ a, (value a).isNull = false) :
    (ofSteps steps).value? name = ((steps.filterMap pick).getLast?).map value := by
  simp only [gatheredNames, List.mem_cons, List.not_mem_nil, or_false, not_or,
    ← beq_eq_false_iff_ne] at atOnce
  obtain ⟨notPath, notOrder, notFilters⟩ := atOnce
  rw [Record.value?, get?_ofSteps, notPath, notOrder, notFilters]
  simp only [Bool.and_false, Bool.false_eq_true, if_false, brings.lastSetting?_eq free]
  cases (steps.filterMap pick).getLast? <;> simp [Option.filter, noNull]

end BringsField

/-! ## Options of the record that is built -/

section

variable {steps : List InputStep} (free : ∀ step ∈ steps, step.IsFree) {name : String}

include free

theorem integerOption_ofSteps {pick : InputStep → Option Int64}
    (brings : BringsField name pick fun number => .scalar (.integer number))
    (atOnce : name ∉ gatheredNames) :
    integerOption (ofSteps steps) name = .ok (steps.filterMap pick).getLast? := by
  rw [integerOption, brings.value?_ofSteps free atOnce fun _ => rfl]
  cases (steps.filterMap pick).getLast? <;> rfl

theorem booleanOption_ofSteps {pick : InputStep → Option Bool}
    (brings : BringsField name pick fun flag => .scalar (.boolean flag))
    (atOnce : name ∉ gatheredNames) :
    booleanOption (ofSteps steps) name = .ok (steps.filterMap pick).getLast? := by
  rw [booleanOption, brings.value?_ofSteps free atOnce fun _ => rfl]
  cases (steps.filterMap pick).getLast? <;> rfl

theorem textOption_ofSteps {pick : InputStep → Option String}
    (brings : BringsField name pick fun text => .scalar (.text text))
    (atOnce : name ∉ gatheredNames) :
    textOption (ofSteps steps) name = (steps.filterMap pick).getLast? := by
  rw [textOption, brings.value?_ofSteps free atOnce fun _ => rfl]
  cases (steps.filterMap pick).getLast? <;> rfl

theorem lastSetting?_gathered (isGathered : name ∈ gatheredNames) :
    lastSetting? steps name = none := by
  rw [(BringsField.gathered isGathered).lastSetting?_eq free]
  simp

theorem value?_filters :
    (ofSteps steps).value? names.filters =
      if (steps.filterMap clause?).isEmpty then none
      else some (.list (((steps.filterMap clause?).map Filter.Clause.toRecord).map .record)) := by
  have notPath : (names.filters == names.path) = false := by decide
  have notOrder : (names.filters == names.orderBy) = false := by decide
  rw [Record.value?, get?_ofSteps, notPath, notOrder, lastSetting?_gathered free (by decide),
    List.map_map]
  simp only [Bool.and_false, Bool.false_eq_true, if_false, beq_self_eq_true, Bool.and_true]
  cases (steps.filterMap clause?).isEmpty <;> rfl

theorem value?_orderBy :
    (ofSteps steps).value? names.orderBy =
      if (steps.filterMap item?).isEmpty then none
      else some (.list (((steps.filterMap item?).map OrderItem.text).map
        fun text => .scalar (.text text))) := by
  have notPath : (names.orderBy == names.path) = false := by decide
  have notFilters : (names.orderBy == names.filters) = false := by decide
  rw [Record.value?, get?_ofSteps, notPath, notFilters, lastSetting?_gathered free (by decide),
    List.map_map]
  simp only [Bool.and_false, Bool.false_eq_true, if_false, beq_self_eq_true, Bool.and_true]
  cases (steps.filterMap item?).isEmpty <;> rfl

/-- The clauses are read back as they were added. -/
theorem clausesOption_ofSteps :
    clausesOption (ofSteps steps) = .ok (steps.filterMap clause?) := by
  rw [clausesOption, value?_filters free]
  cases clauses : steps.filterMap clause? with
  | nil => rfl
  | cons clause others =>
      rw [← clauses]
      simp only [clauses, List.isEmpty_cons, Bool.false_eq_true, if_false]
      rw [Filter.clausesOf_records]
      exact mapM_ofRecord_toRecord _

/-- The order items are read back as they were added, but for empty ones. -/
theorem orderBy_ofSteps :
    (((ofSteps steps).value? names.orderBy).map OrderBy.ofValue).getD [] =
      (((steps.filterMap item?).map OrderItem.text).filter fun text => !text.isEmpty).map
        .given := by
  rw [value?_orderBy free]
  cases items : steps.filterMap item? with
  | nil => rfl
  | cons item others =>
      simp only [List.isEmpty_cons, Bool.false_eq_true, if_false, Option.map_some,
        Option.getD_some]
      exact ofValue_texts _

/-- What the steps asked for. -/
theorem ofInput_ofSteps :
    Options.ofInput (some (ofSteps steps)) = .ok {
      limit := (steps.filterMap top?).getLast?
      offset := (steps.filterMap skip?).getLast?
      totalCount := (steps.filterMap count?).getLast?
      search := (steps.filterMap search?).getLast?
      orderBy := (((steps.filterMap item?).map OrderItem.text).filter
        fun text => !text.isEmpty).map .given
      filter := (steps.filterMap rawFilter?).getLast?
      filters := steps.filterMap clause? } := by
  rw [Options.ofInput, Options.ofRecord, booleanOption_ofSteps free .count (by decide),
    integerOption_ofSteps free .top (by decide), integerOption_ofSteps free .skip (by decide),
    clausesOption_ofSteps free, textOption_ofSteps free .search (by decide),
    textOption_ofSteps free .rawFilter (by decide), orderBy_ofSteps free]
  rfl

end

/-- The number of entities is asked for by any of the steps that do. -/
theorem getLast?_count (steps : List InputStep) :
    (steps.filterMap count?).getLast? = if steps.any isCount then some true else none := by
  induction steps with
  | nil => rfl
  | cons step rest ih =>
      cases counts : step.isCount with
      | false => simp [count?, counts, ih]
      | true =>
          have last : ((step :: rest).filterMap count?).getLast? =
              some ((rest.filterMap count?).getLast?.getD true) := by
            simp [count?, counts, List.getLast?_cons]
          rw [last, ih, List.any_cons, counts]
          cases rest.any isCount <;> rfl

/-! ## Reordering -/

/-- The kind of the steps that set the field of a name at once. -/
def kindOf (name : String) : StepKind :=
  if name = names.limit then .top
  else if name = names.offset then .skip
  else if name = names.totalCount then .count
  else if name = names.search then .search
  else if name = names.filter then .rawFilter
  else if name = names.transaction then .transaction
  else .field

theorem kindOf_of_free {name : String} (free : name ∉ reservedNames) : kindOf name = .field := by
  simp only [reservedNames, List.mem_cons, List.not_mem_nil, or_false, not_or] at free
  simp [kindOf, free]

theorem kind_of_setting? {step : InputStep} (free : step.IsFree) {name : String}
    (sets : (step.setting?.filter fun field => field.1 == name).isSome = true) :
    step.kind = kindOf name := by
  obtain ⟨⟨other, value⟩, isSetting⟩ := Option.isSome_iff_exists.mp sets
  obtain ⟨isSet, isName⟩ := Option.filter_eq_some_iff.mp isSetting
  obtain rfl : other = name := eq_of_beq isName
  -- A field that is set by its name is free of the names that have a kind of their own; in
  -- every other step the name is fixed.
  cases step <;> cases isSet
  case field | body => exact (kindOf_of_free (free _ rfl)).symm
  all_goals rfl

/-- The second list of steps has the steps of each kind in the order of the first one. -/
def SameByKind (steps others : List InputStep) : Prop :=
  ∀ kind, (others.filter fun step => step.kind = kind) = steps.filter fun step => step.kind = kind

/-- Steps of different kinds change places. -/
theorem sameByKind_swap {first second : InputStep} (different : first.kind ≠ second.kind)
    (before after : List InputStep) :
    SameByKind (before ++ first :: second :: after) (before ++ second :: first :: after) := by
  intro kind
  -- At most one of the two is of the kind, and it stands alone between the same others.
  by_cases isFirst : first.kind = kind
  · have notSecond : second.kind ≠ kind := fun same => different (isFirst.trans same.symm)
    simp [isFirst, notSecond]
  · by_cases isSecond : second.kind = kind <;> simp [isFirst, isSecond]

namespace SameByKind

variable {steps others : List InputStep}

theorem mem (same : SameByKind steps others) {step : InputStep} (isMember : step ∈ others) :
    step ∈ steps := by
  have inKind : step ∈ steps.filter fun other => other.kind = step.kind := by
    rw [← same step.kind]
    exact List.mem_filter.mpr ⟨isMember, by simp⟩
  exact (List.mem_filter.mp inKind).1

/-- What the steps of one kind bring stays in order. -/
theorem filterMap_eq (same : SameByKind steps others) {α : Type} {pick : InputStep → Option α}
    (kind : StepKind) (ofKind : ∀ step ∈ steps, (pick step).isSome = true → step.kind = kind) :
    others.filterMap pick = steps.filterMap pick := by
  -- Steps of other kinds bring nothing, so both lists may be cut down to the kind first.
  have ofOneKind (list : List InputStep) (within : ∀ step ∈ list, step ∈ steps) :
      list.filterMap pick = (list.filter fun step => step.kind = kind).filterMap pick := by
    rw [List.filterMap_filter]
    apply List.filterMap_congr
    intro step isMember
    cases picked : pick step with
    | none => simp
    | some a => simp [ofKind step (within step isMember) (Option.isSome_of_eq_some picked)]
  rw [ofOneKind others fun _ isMember => same.mem isMember,
    ofOneKind steps fun _ isMember => isMember, same kind]

theorem lastSetting?_eq (same : SameByKind steps others) (free : ∀ step ∈ steps, step.IsFree)
    (name : String) : lastSetting? others name = lastSetting? steps name := by
  rw [lastSetting?, lastSetting?, List.filter_filterMap, List.filter_filterMap,
    same.filterMap_eq (kindOf name) fun step isMember sets =>
      kind_of_setting? (free step isMember) sets]

/-- Every field has the same value. -/
theorem get?_ofSteps (same : SameByKind steps others) (free : ∀ step ∈ steps, step.IsFree)
    (name : String) : (ofSteps others).get? name = (ofSteps steps).get? name := by
  have clauses : others.filterMap clause? = steps.filterMap clause? :=
    same.filterMap_eq .filter fun step _ adds => by
      cases step <;> first | rfl | cases adds
  have items : others.filterMap item? = steps.filterMap item? :=
    same.filterMap_eq .order fun step _ adds => by
      cases step <;> first | rfl | cases adds
  have pathValues : others.filterMap pathValue? = steps.filterMap pathValue? :=
    same.filterMap_eq .path fun step _ sets => by
      cases step <;> first | rfl | cases sets
  rw [InputBuilder.get?_ofSteps, InputBuilder.get?_ofSteps, clauses, items, pathValues,
    same.lastSetting?_eq free]

end SameByKind

/-- An input that is put together step by step asks for what its steps asked for: the last
of the numbers to take and to leave out, the number of entities if any step asks for it,
the last text to search for and the last filter expression, the clauses as they were
added, and the order items as they were added but for empty ones. Steps of different
kinds may come in another order, and neither the options nor any target change. -/
theorem options_of_steps (steps : List InputStep) (free : ∀ step ∈ steps, step.IsFree) :
    Options.ofInput (some (ofSteps steps)) = .ok {
        limit := (steps.filterMap top?).getLast?
        offset := (steps.filterMap skip?).getLast?
        totalCount := if steps.any isCount then some true else none
        search := (steps.filterMap search?).getLast?
        orderBy := (((steps.filterMap item?).map OrderItem.text).filter
          fun text => !text.isEmpty).map .given
        filter := (steps.filterMap rawFilter?).getLast?
        filters := steps.filterMap clause? } ∧
      ∀ others, SameByKind steps others →
        Options.ofInput (some (ofSteps others)) = Options.ofInput (some (ofSteps steps)) ∧
          ∀ (site : Target.Site) (function : Function),
            site.entityTarget function (some (ofSteps others)) =
              site.entityTarget function (some (ofSteps steps)) := by
  constructor
  · rw [ofInput_ofSteps free, getLast?_count]
  · intro others same
    have sameFields := same.get?_ofSteps free
    exact ⟨Target.ofInput_congr sameFields, Target.Site.entityTarget_congr sameFields⟩

/-- A clause that is no condition on a field, with a null, a truth value and both flags. -/
def flaggedClause : Filter.Clause where
  key := none
  operator := "active"
  values := [none, some (.boolean false)]
  joinsByOr := true
  ignoresCase := true

/-- Steps behind a number to take: some are undone by others. -/
def laterSteps : List InputStep := [
  .filter (.equal "name" none), .orderBy (.given ""), .search "a", .count, .rawFilter "x eq 1",
  .activeOnly, .path "site" "root", .top 5, .newestFirst, .search "b", .filter flaggedClause]

theorem options_of_laterSteps :
    (∀ step ∈ [.field "id" (.scalar (.integer 7)), .top 10] ++ laterSteps, step.IsFree) ∧
      Options.ofInput
          (some (ofSteps ([.field "id" (.scalar (.integer 7)), .top 10] ++ laterSteps))) = .ok {
        limit := some 5
        totalCount := some true
        search := some "b"
        orderBy := [.given "createdon desc"]
        filter := some "x eq 1"
        filters := [.equal "name" none, .equal "statecode" (some (.integer 0)), flaggedClause] } ∧
      Options.ofInput
          (some (ofSteps ([.top 10, .field "id" (.scalar (.integer 7))] ++ laterSteps))) =
        Options.ofInput
          (some (ofSteps ([.field "id" (.scalar (.integer 7)), .top 10] ++ laterSteps))) := by
  have free : ∀ step ∈ [.field "id" (.scalar (.integer 7)), .top 10] ++ laterSteps,
      step.IsFree := by decide
  obtain ⟨options, reordered⟩ := options_of_steps _ free
  exact ⟨free, options, (reordered _ (sameByKind_swap (by decide) [] laterSteps)).1⟩

end InputBuilder

end Query

end OData
