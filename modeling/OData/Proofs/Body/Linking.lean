/-
# The links of a whole record

Links are set field by field, in the order of the type. A step sets the fields that
`touched` lists and no others. When no other step sets any of them, the step works on the
values that the record had at first, and what it sets stays until the end. So whatever is
known of one step is known of the whole record, in whatever order the fields come.
-/

import OData.Proofs.Body.Conformance
import OData.Proofs.Body.Link

namespace OData.Body

open OData.Record (ChangesOnly)

/-! ## Steps -/

/-- Set the link of a bind field, or the links inside any other field. -/
def setFieldLink (links : Links) (type : ComplexType) (record : Record) (field : Field) :
    Except Fault Record :=
  match bindBase? field.name with
  | some base => setLink links type field.name base record
  | none => setInnerLinks links field.name field.type record

theorem setFieldLinks_eq (links : Links) (type : ComplexType) (fields : List Field)
    (record : Record) :
    setFieldLinks links type fields record = fields.foldlM (setFieldLink links type) record := by
  induction fields generalizing record with
  | nil => rw [setFieldLinks, List.foldlM_nil]; rfl
  | cons field rest ih =>
      rw [List.foldlM_cons]
      cases field with
      | mk name =>
          rw [setFieldLinks, setFieldLink]
          simp only [ih]
          cases bindBase? name <;> rfl

theorem setLinks_eq (links : Links) (type : ComplexType) (record : Record) :
    setLinks links type record = type.fields.foldlM (setFieldLink links type) record := by
  cases type with
  | mk name id collection fields => rw [setLinks, setFieldLinks_eq]

/-- Set the links of an item, if it is a record. -/
def setItemLinks (links : Links) (type : ComplexType) : Value → Except Fault Value
  | .record inner => (setLinks links type inner).map .record
  | other => .ok other

/-- Set the links of a record, or of the records in a list. -/
def setValueLinks (links : Links) (type : ComplexType) : Value → Except Fault Value
  | .list items => (items.mapM (setItemLinks links type)).map .list
  | single => setItemLinks links type single

theorem setInnerLinks_eq (links : Links) (name : String) (type : ComplexType) (record : Record) :
    setInnerLinks links name (.complex type) record =
      match record.get? name with
      | none => .ok record
      | some value => (setValueLinks links type value).map (record.set name) := by
  rw [setInnerLinks]
  split
  · rename_i inner held
    have single : setValueLinks links type (.record inner) =
        (setLinks links type inner).map .record := rfl
    simp only [held, single]
    cases setLinks links type inner <;> rfl
  · rename_i items held
    have several : setValueLinks links type (.list items) =
        (items.mapM (setItemLinks links type)).map .list := rfl
    have byItem {step : Value → Except Fault Value}
        (same : ∀ item, step item = setItemLinks links type item) :
        items.mapM step = items.mapM (setItemLinks links type) := by
      rw [funext same]
    rw [byItem (by intro item; cases item <;> rfl)]
    simp only [held, several]
    cases items.mapM (setItemLinks links type) <;> rfl
  · rename_i noRecord noList
    cases held : record.get? name with
    | none => rfl
    | some value =>
        have untouched : setValueLinks links type value = .ok value := by
          cases value with
          | record inner => exact (noRecord inner held).elim
          | list items => exact (noList items held).elim
          | null => rfl
          | scalar value => rfl
        simp only [untouched, Except.map, Record.set_of_get? held]

theorem isComplex_of_complex {field : Field} {inner : ComplexType}
    (isType : field.type = .complex inner) : field.isComplex = true := by
  rw [Field.isComplex, isType]
  rfl

/-- The fields that a step may set: a bind field and those that carry keys for it, or a
field that holds structures. -/
def touched (type : ComplexType) (field : Field) : List String :=
  match bindBase? field.name with
  | some base => field.name :: (linkedFields type base).map Field.name
  | none => if field.isComplex then [field.name] else []

theorem setFieldLink_changes {links : Links} {type : ComplexType} {field : Field}
    {before after : Record} (isOk : setFieldLink links type before field = .ok after) :
    ChangesOnly (touched type field) before after := by
  unfold setFieldLink at isOk
  unfold touched
  cases isBind : bindBase? field.name with
  | some base =>
      rw [isBind] at isOk
      exact setLink_changes isOk
  | none =>
      rw [isBind] at isOk
      cases isType : field.type with
      | complex inner =>
          have isComplex := isComplex_of_complex isType
          simp only [isType, setInnerLinks_eq] at isOk
          simp only [isComplex, if_true]
          split at isOk
          · cases isOk
            exact ChangesOnly.refl before
          · obtain ⟨linked, -, rfl⟩ := exists_of_map_ok isOk
            exact ChangesOnly.set List.mem_cons_self before linked
      | _ =>
          simp only [isType, setInnerLinks] at isOk
          cases isOk
          exact ChangesOnly.refl before

/-! ## Steps in their place -/

theorem changes_of_steps {links : Links} {type : ComplexType} {fields : List Field}
    {before after : Record} (isOk : fields.foldlM (setFieldLink links type) before = .ok after) :
    ChangesOnly (fields.flatMap (touched type)) before after := by
  refine kept_of_foldlM_ok ?_ isOk (ChangesOnly.refl before)
  intro start field isMember stop isStep changes
  exact changes.trans ((setFieldLink_changes isStep).mono fun name isTouched =>
    List.mem_flatMap.mpr ⟨field, isMember, isTouched⟩)

/-- No other step sets a field that the step of this field sets. -/
def StandsAlone (type : ComplexType) (field : Field) : Prop :=
  ∀ other ∈ type.fields, ∀ name ∈ touched type field, name ∈ touched type other → other = field

/-- A step in its place: the steps before it, the step itself, and the steps behind it. -/
theorem exists_steps {links : Links} {type : ComplexType} {field : Field}
    (distinct : (type.fields.map Field.name).Nodup) (isMember : field ∈ type.fields)
    {before after : Record} (isOk : setLinks links type before = .ok after) :
    ∃ front back start stop, front ++ back ⊆ type.fields ∧ field ∉ front ++ back ∧
      front.foldlM (setFieldLink links type) before = .ok start ∧
      setFieldLink links type start field = .ok stop ∧
      back.foldlM (setFieldLink links type) stop = .ok after := by
  obtain ⟨front, back, split⟩ := List.append_of_mem isMember
  have once : field ∉ front ++ back := by
    have nodup := List.Nodup.of_map _ distinct
    rw [split, List.nodup_middle] at nodup
    exact (List.nodup_cons.mp nodup).1
  have areFields : front ++ back ⊆ type.fields := by
    rw [split]
    exact ((List.sublist_cons_self field back).append_left front).subset
  rw [setLinks_eq, split, List.foldlM_append] at isOk
  obtain ⟨start, isFront, isOk⟩ := exists_of_bind_ok isOk
  rw [List.foldlM_cons] at isOk
  obtain ⟨stop, isStep, isBack⟩ := exists_of_bind_ok isOk
  exact ⟨front, back, start, stop, areFields, once, isFront, isStep, isBack⟩

/-- The step of a field that stands alone works on what the record had at first, and what
it sets is what the record has in the end. -/
theorem step_of_setLinks {links : Links} {type : ComplexType} {field : Field}
    (distinct : (type.fields.map Field.name).Nodup) (alone : StandsAlone type field)
    (isMember : field ∈ type.fields) {before after : Record}
    (isOk : setLinks links type before = .ok after) :
    ∃ start stop, setFieldLink links type start field = .ok stop ∧
      ∀ name ∈ touched type field,
        start.get? name = before.get? name ∧ after.get? name = stop.get? name := by
  obtain ⟨front, back, start, stop, areFields, once, isFront, isStep, isBack⟩ :=
    exists_steps distinct isMember isOk
  have untouched {others : List Field} (subset : others ⊆ front ++ back) {name : String}
      (isTouched : name ∈ touched type field) : name ∉ others.flatMap (touched type) := by
    intro isOther
    obtain ⟨other, isIn, isOther⟩ := List.mem_flatMap.mp isOther
    have same := alone other (areFields (subset isIn)) name isTouched isOther
    exact once (same ▸ subset isIn)
  refine ⟨start, stop, isStep, fun name isTouched => ⟨?_, ?_⟩⟩
  · exact (changes_of_steps isFront).kept name
      (untouched (List.subset_append_left _ _) isTouched)
  · exact (changes_of_steps isBack).kept name
      (untouched (List.subset_append_right _ _) isTouched)

/-! ## Fields that stand alone -/

/-- The step of a field is about it: it is a bind field, or holds structures. -/
def HasStep (field : Field) : Prop :=
  bindBase? field.name ≠ none ∨ field.isComplex = true

theorem hasStep_of_bindBase? {field : Field} {base : String}
    (isBind : bindBase? field.name = some base) : HasStep field :=
  .inl (by simp [isBind])

/-- What a step may set is its own field, or carries a key for it. -/
theorem owner_of_touched {type : ComplexType} {field : Field} (isMember : field ∈ type.fields)
    {name : String} (isTouched : name ∈ touched type field) :
    ∃ owner ∈ type.fields, owner.name = name ∧
      (owner = field ∧ HasStep field ∨
        ∃ base, bindBase? field.name = some base ∧ owner.foreignName = some base) := by
  unfold touched at isTouched
  cases isBind : bindBase? field.name with
  | some base =>
      rw [isBind] at isTouched
      rcases List.mem_cons.mp isTouched with rfl | isKeyName
      · exact ⟨field, isMember, rfl, .inl ⟨rfl, hasStep_of_bindBase? isBind⟩⟩
      · obtain ⟨linked, isLinked, rfl⟩ := List.mem_map.mp isKeyName
        obtain ⟨isField, names⟩ := mem_linkedFields.mp isLinked
        exact ⟨linked, isField, rfl, .inr ⟨base, rfl, names⟩⟩
  | none =>
      rw [isBind] at isTouched
      by_cases isComplex : field.isComplex = true
      · rw [if_pos isComplex] at isTouched
        exact ⟨field, isMember, (List.mem_singleton.mp isTouched).symm,
          .inl ⟨rfl, .inr isComplex⟩⟩
      · rw [if_neg isComplex] at isTouched
        cases isTouched

/-- A field stands alone if it carries no key itself, and if the fields that carry keys for
it have no steps. -/
theorem standsAlone_of_noStep {type : ComplexType} {field : Field}
    (distinct : (type.fields.map Field.name).Nodup) (isMember : field ∈ type.fields)
    (noKey : HasStep field → field.foreignName = none)
    (keysOnly : ∀ base, bindBase? field.name = some base →
      ∀ linked ∈ type.fields, linked.foreignName = some base → ¬ HasStep linked) :
    StandsAlone type field := by
  intro other isOther name isTouched isOtherTouched
  obtain ⟨owner, isOwner, sameName, owns⟩ := owner_of_touched isMember isTouched
  obtain ⟨second, isSecond, rfl, ownsOther⟩ := owner_of_touched isOther isOtherTouched
  obtain rfl := List.inj_on_of_nodup_map distinct isOwner isSecond sameName
  rcases owns with ⟨rfl, hasStep⟩ | ⟨base, isBase, names⟩
  · rcases ownsOther with ⟨same, -⟩ | ⟨base, -, names⟩
    · exact same.symm
    · rw [noKey hasStep] at names
      cases names
  · rcases ownsOther with ⟨rfl, hasStep⟩ | ⟨otherBase, isOtherBase, otherNames⟩
    · exact absurd hasStep (keysOnly base isBase _ isOwner names)
    · -- Both are named for the base that the owner names.
      obtain rfl := Option.some.inj (names.symm.trans otherNames)
      apply List.inj_on_of_nodup_map distinct isOther isMember
      rw [bindBase?_eq_some_iff.mp isBase, bindBase?_eq_some_iff.mp isOtherBase]

/-- Fields that carry the key of a link hold no structures and are no bind fields. -/
def HasPlainKeys (type : ComplexType) : Prop :=
  ∀ field ∈ type.fields, field.foreignName.isSome = true →
    field.isComplex = false ∧ bindBase? field.name = none

instance (type : ComplexType) : Decidable (HasPlainKeys type) :=
  inferInstanceAs (Decidable (∀ field ∈ type.fields, _ → _ ∧ _))

/-- The type has plain keys at every level. -/
inductive PlainKeys : ComplexType → Prop where
  | intro {type : ComplexType} (plain : HasPlainKeys type)
      (inner : ∀ field ∈ type.fields, ∀ inner, field.type = .complex inner → PlainKeys inner) :
      PlainKeys type

theorem HasPlainKeys.noStep {type : ComplexType} (plain : HasPlainKeys type) {field : Field}
    (isMember : field ∈ type.fields) {base : String} (names : field.foreignName = some base) :
    ¬ HasStep field := by
  obtain ⟨isSimple, noBind⟩ := plain field isMember (by rw [names]; rfl)
  rintro (isBind | isComplex)
  · exact isBind noBind
  · rw [isSimple] at isComplex
    cases isComplex

theorem HasPlainKeys.standsAlone {type : ComplexType} (plain : HasPlainKeys type)
    (distinct : (type.fields.map Field.name).Nodup) {field : Field}
    (isMember : field ∈ type.fields) : StandsAlone type field := by
  apply standsAlone_of_noStep distinct isMember
  · intro hasStep
    cases names : field.foreignName with
    | none => rfl
    | some base => exact absurd hasStep (plain.noStep isMember names)
  · exact fun _ _ linked isLinked names => plain.noStep isLinked names

theorem HasPlainKeys.apart {type : ComplexType} (plain : HasPlainKeys type) {bind : Field}
    {base : String} (isBind : bindBase? bind.name = some base) :
    ∀ field ∈ linkedFields type base, field.name ≠ bind.name := by
  intro field isLinked same
  obtain ⟨isMember, names⟩ := mem_linkedFields.mp isLinked
  exact plain.noStep isMember names (hasStep_of_bindBase? (same ▸ isBind))

/-! ## What becomes of a link -/

/-- The link of a base, made of the keys in a record. -/
def BuildsLink (links : Links) (type : ComplexType) (base : String) (record : Record)
    (value : Value) (used : List Field) : Prop :=
  ∃ collection, links.linkedSet? type base = some collection ∧
    MakesLink collection record (linkedFields type base) value used

/-- A bind field and the fields that carry keys for it are all left alone, or the bind field
holds the link and the keys in it are cleared. -/
theorem link_of_setLinks {links : Links} {type : ComplexType} {bind : Field} {base : String}
    (distinct : (type.fields.map Field.name).Nodup) (alone : StandsAlone type bind)
    (isMember : bind ∈ type.fields) (isBind : bindBase? bind.name = some base)
    (apart : ∀ field ∈ linkedFields type base, field.name ≠ bind.name) {before after : Record}
    (isOk : setLinks links type before = .ok after) :
    (after.get? bind.name = before.get? bind.name ∧
        (∀ field ∈ linkedFields type base, after.get? field.name = before.get? field.name) ∧
        (links.linkedSet? type base = none ∨ MakesNothing before (linkedFields type base))) ∨
      ∃ value used, BuildsLink links type base before value used ∧
        after.get? bind.name = some value ∧
        (∀ field ∈ used, after.get? field.name = some .null) ∧
        ∀ field ∈ linkedFields type base, field ∉ used →
          after.get? field.name = before.get? field.name := by
  obtain ⟨start, stop, isStep, agree⟩ := step_of_setLinks distinct alone isMember isOk
  have nodup := nodup_linkedFields distinct base
  rw [touched, isBind] at agree
  rw [setFieldLink, isBind] at isStep
  obtain ⟨startBind, stopBind⟩ := agree bind.name List.mem_cons_self
  have keys : ∀ field ∈ linkedFields type base,
      start.get? field.name = before.get? field.name ∧
        after.get? field.name = stop.get? field.name := fun field isLinked =>
    agree _ (List.mem_cons_of_mem _ (List.mem_map_of_mem isLinked))
  have startKeys := fun field isLinked => (keys field isLinked).1
  rcases setLink_cases nodup apart isStep with
    ⟨rfl, nothing⟩ | ⟨collection, value, used, leads, makes, sets⟩
  · refine .inl ⟨stopBind.trans startBind, fun field isLinked => ?_, ?_⟩
    · exact (keys field isLinked).2.trans (keys field isLinked).1
    · exact nothing.imp_right fun nothing => nothing.congr startKeys
  · refine .inr ⟨value, used, ⟨collection, leads, makes.congr startKeys⟩, ?_, ?_, ?_⟩
    · exact stopBind.trans sets.stored
    · intro field isUsed
      exact (keys field (makes.used_subset isUsed)).2.trans (sets.cleared field isUsed)
    · intro field isLinked unused
      obtain ⟨same, kept⟩ := keys field isLinked
      have untouched := sets.kept nodup makes.used_subset isLinked unused (apart field isLinked)
      exact kept.trans (untouched.trans same)

/-! ## Setting links twice -/

/-- Setting the links of what is left once they were set changes nothing. -/
def SettlesLinks (links : Links) (type : ComplexType) : Prop :=
  ∀ before after, setLinks links type before = .ok after → setLinks links type after = .ok after

section

variable {links : Links} {type : ComplexType}

theorem SettlesLinks.item (settles : SettlesLinks links type) {before after : Value}
    (isOk : setItemLinks links type before = .ok after) :
    setItemLinks links type after = .ok after := by
  cases before with
  | record inner =>
      obtain ⟨linked, isLinked, rfl⟩ := exists_of_map_ok isOk
      rw [setItemLinks, settles inner linked isLinked]
      rfl
  | _ =>
      cases isOk
      rfl

theorem SettlesLinks.value (settles : SettlesLinks links type) {before after : Value}
    (isOk : setValueLinks links type before = .ok after) :
    setValueLinks links type after = .ok after := by
  cases before with
  | list items =>
      obtain ⟨linked, areLinked, rfl⟩ := exists_of_map_ok isOk
      have again : linked.mapM (setItemLinks links type) = .ok linked := by
        have pairs := forall₂_of_mapM_ok areLinked
        clear areLinked isOk
        induction pairs with
        | nil => rfl
        | cons isItem _ ih =>
            rw [List.mapM_cons, settles.item isItem, ih]
            rfl
      rw [setValueLinks, again]
      rfl
  | record inner =>
      obtain ⟨linked, isLinked, rfl⟩ := exists_of_map_ok isOk
      have isItem : setItemLinks links type (.record inner) = .ok (.record linked) := isOk
      have again := settles.item isItem
      exact again
  | _ =>
      cases isOk
      rfl

/-- A step that was taken finds nothing to do in a record that has what it has set. -/
theorem setFieldLink_again {field : Field} (distinct : (type.fields.map Field.name).Nodup)
    (plain : HasPlainKeys type)
    (settles : ∀ inner, field.type = .complex inner → SettlesLinks links inner)
    {start stop after : Record} (isOk : setFieldLink links type start field = .ok stop)
    (same : ∀ name ∈ touched type field, after.get? name = stop.get? name) :
    setFieldLink links type after field = .ok after := by
  unfold setFieldLink at isOk ⊢
  unfold touched at same
  cases isBind : bindBase? field.name with
  | some base =>
      rw [isBind] at isOk same
      have sameKeys : ∀ linked ∈ linkedFields type base,
          stop.get? linked.name = after.get? linked.name := fun linked isLinked =>
        (same _ (List.mem_cons_of_mem _ (List.mem_map_of_mem isLinked))).symm
      have nodup := nodup_linkedFields distinct base
      have apart := plain.apart isBind
      rcases setLink_cases nodup apart isOk with
        ⟨rfl, noSet | nothing⟩ | ⟨collection, value, used, -, makes, sets⟩
      · exact setLink_of_noSet noSet field.name after
      · exact setLink_of_makesNothing (nothing.congr sameKeys) links field.name
      · have nothing := makes.makesNothing sets nodup apart
        exact setLink_of_makesNothing (nothing.congr sameKeys) links field.name
  | none =>
      rw [isBind] at isOk same
      cases isType : field.type with
      | complex inner =>
          have isComplex := isComplex_of_complex isType
          rw [isComplex] at same
          have sameField := same field.name List.mem_cons_self
          simp only [isType, setInnerLinks_eq] at isOk ⊢
          cases held : start.get? field.name with
          | none =>
              rw [held] at isOk
              cases isOk
              rw [sameField, held]
          | some value =>
              rw [held] at isOk
              obtain ⟨linked, isLinked, rfl⟩ := exists_of_map_ok isOk
              rw [Record.get?_set_self] at sameField
              simp only [sameField, (settles inner isType).value isLinked, Except.map,
                Record.set_of_get? sameField]
      | _ => simp only [setInnerLinks]

end

/-- When fields have distinct names and carry plain keys, at every level, then setting the
links of a record a second time succeeds and changes nothing, at any depth and in whatever
order the fields come. -/
theorem links_set_once (links : Links) {type : ComplexType} (distinct : type.DistinctNames)
    (plain : PlainKeys type) {before after : Record}
    (isOk : setLinks links type before = .ok after) : setLinks links type after = .ok after := by
  induction type using ComplexType.induction generalizing before after with
  | step type ih =>
      obtain ⟨distinct, innerDistinct⟩ := distinct
      obtain ⟨plain, innerPlain⟩ := plain
      have steady : ∀ field ∈ type.fields, setFieldLink links type after field = .ok after := by
        intro field isMember
        obtain ⟨start, stop, isStep, agree⟩ :=
          step_of_setLinks distinct (plain.standsAlone distinct isMember) isMember isOk
        have settles : ∀ inner, field.type = .complex inner → SettlesLinks links inner := by
          intro inner isType first last isInner
          exact ih field isMember inner isType (innerDistinct field isMember inner isType)
            (innerPlain field isMember inner isType) isInner
        exact setFieldLink_again distinct plain settles isStep fun name isTouched =>
          (agree name isTouched).2
      rw [setLinks_eq]
      exact foldlM_of_steady steady

/-- A service that declares nothing but its address. -/
def plainService : Links where
  definition := { scheme := "https", host := "example.com", basePath := "/odata" }

/-- A line of an order, for an item whose key has two parts. -/
def orderLine : ComplexType where
  name := "line"
  fields := [
    { name := "code", type := .string, foreignName := some "item",
      foreignKey := some "Items:itemCode" },
    { name := "item@odata.bind", type := .string },
    { name := "item", type := .complex { name := "item", collectionName := some "Items" } },
    { name := "version", type := .integer, foreignName := some "item",
      foreignKey := some "Items:itemVersion" }]

/-- An order of several customers, with its lines. -/
def orderType : ComplexType where
  name := "order"
  fields := [
    { name := "customers@odata.bind", type := .string, maxOccurs := some 0 },
    { name := "customers",
      type := .complex { name := "customer", collectionName := some "Customers" } },
    { name := "customerIds", type := .guid, foreignName := some "customers",
      maxOccurs := some 0 },
    { name := "lines", type := .complex orderLine, maxOccurs := some 0 }]

/-- A line with a key. -/
def keyedLine : Record :=
  ⟨[("code", .scalar (.text "O'Hara")), ("version", .scalar (.integer 3))]⟩

/-- The line with its link. -/
def linkedLine : Record := ⟨[("code", .null), ("version", .null),
  ("item@odata.bind", .scalar (.text "/Items(itemCode='O''Hara',itemVersion=3)"))]⟩

/-- A line without a key. -/
def emptyLine : Record := ⟨[("code", .null), ("amount", .scalar (.integer 2))]⟩

/-- An order of two customers, with both lines. -/
def openOrder : Record := ⟨[
  ("lines", .list [.record keyedLine, .record emptyLine]),
  ("customerIds", .list [.scalar (.text "7"), .null, .scalar (.text "9")])]⟩

/-- The customers of the order with their links. -/
def customerLinks : List (String × Value) := [
  ("customerIds", .null),
  ("customers@odata.bind", .list [
    .scalar (.text "/Customers(7)"), .scalar (.text "/Customers(9)")])]

/-- The order with all its links. -/
def linkedOrder : Record :=
  ⟨("lines", .list [.record linkedLine, .record emptyLine]) :: customerLinks⟩

theorem setLinks_keyedLine : setLinks plainService orderLine keyedLine = .ok linkedLine := by
  rw [setLinks_eq]
  refine foldlM_cons_ok keyedLine rfl ?_
  refine foldlM_cons_ok linkedLine rfl ?_
  refine foldlM_cons_ok linkedLine rfl ?_
  exact foldlM_cons_ok linkedLine rfl rfl

theorem setLinks_emptyLine : setLinks plainService orderLine emptyLine = .ok emptyLine := by
  rw [setLinks_eq]
  apply foldlM_of_steady
  intro field isMember
  simp only [orderLine, List.mem_cons, List.not_mem_nil, or_false] at isMember
  rcases isMember with rfl | rfl | rfl | rfl <;> rfl

theorem setLinks_openOrder : setLinks plainService orderType openOrder = .ok linkedOrder := by
  have lines : setValueLinks plainService orderLine
      (.list [.record keyedLine, .record emptyLine]) =
        .ok (.list [.record linkedLine, .record emptyLine]) := by
    simp only [setValueLinks, List.mapM_cons, List.mapM_nil, setItemLinks, setLinks_keyedLine,
      setLinks_emptyLine]
    rfl
  let halfway : Record :=
    ⟨("lines", .list [.record keyedLine, .record emptyLine]) :: customerLinks⟩
  rw [setLinks_eq]
  refine foldlM_cons_ok halfway rfl ?_
  refine foldlM_cons_ok halfway rfl ?_
  refine foldlM_cons_ok halfway rfl ?_
  refine foldlM_cons_ok linkedOrder ?_ rfl
  have held : halfway.get? "lines" = some (.list [.record keyedLine, .record emptyLine]) := rfl
  have noBind : bindBase? "lines" = none := by decide
  simp only [setFieldLink, noBind, setInnerLinks_eq, held, lines]
  rfl

theorem plainKeys_orderType : orderType.DistinctNames ∧ PlainKeys orderType := by
  have level {type : ComplexType} (distinct : (type.fields.map Field.name).Nodup)
      (plain : HasPlainKeys type)
      (inner : ∀ field ∈ type.fields, ∀ inner, field.type = .complex inner →
        inner.DistinctNames ∧ PlainKeys inner) : type.DistinctNames ∧ PlainKeys type :=
    ⟨.intro distinct fun field isMember other isType => (inner field isMember other isType).1,
      .intro plain fun field isMember other isType => (inner field isMember other isType).2⟩
  apply level (by decide) (by decide)
  intro field isMember inner isType
  simp only [orderType, List.mem_cons, List.not_mem_nil, or_false] at isMember
  rcases isMember with rfl | rfl | rfl | rfl <;> cases isType
  · exact level (by decide) (by decide) nofun
  · apply level (by decide) (by decide)
    intro field isMember inner isType
    simp only [orderLine, List.mem_cons, List.not_mem_nil, or_false] at isMember
    rcases isMember with rfl | rfl | rfl | rfl <;> cases isType
    exact level (by decide) (by decide) nofun

theorem linked_order_set_once :
    setLinks plainService orderType openOrder = .ok linkedOrder ∧
      setLinks plainService orderType linkedOrder = .ok linkedOrder :=
  ⟨setLinks_openOrder, links_set_once plainService plainKeys_orderType.1 plainKeys_orderType.2
    setLinks_openOrder⟩

end OData.Body
