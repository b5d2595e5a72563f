/-
# Primary keys and links

What a link takes out of a record depends on what fields are named for. Whether a field is
part of its own entity's key is not asked. So a primary key is not safe: it keeps its value
exactly if it carries no key of a link, and if it does, the value goes into the link and the
field becomes null. The copy that a fault leaves behind may have lost such a key as well,
but it has lost no other.
-/

import OData.Proofs.Body.WorkingCopy

namespace OData.Body

open OData.InPlace

/-! ## What becomes of a key -/

/-- A field of the name carries the key for a bind field whose link leads to an entity set:
it is the only one that does, or it is mapped to a part of a composite key. -/
def CarriesKey (links : Links) (type : ComplexType) (name : String) : Prop :=
  ∃ bind ∈ type.fields, ∃ base, bindBase? bind.name = some base ∧
    (links.linkedSet? type base).isSome = true ∧
    ∃ field ∈ linkedFields type base, field.name = name ∧
      (linkedFields type base = [field] ∨ field.foreignKey.isSome = true)

/-- There is a value to hand over to a link. -/
def HandsOver (links : Links) (type : ComplexType) (record : Record) (name : String) : Prop :=
  CarriesKey links type name ∧ (record.value? name).isSome = true

/-- The name is that of no bind field, and of no field that holds structures. -/
def IsPlainName (type : ComplexType) (name : String) : Prop :=
  bindBase? name = none ∧ ∀ field ∈ type.fields, field.name = name → field.isComplex = false

/-- A value is kept unless it is handed over. What is handed over is gone when all went well,
and may be gone when there was a fault. -/
structure KeyTreated (links : Links) (type : ComplexType) (whole : Prop)
    (before after : Record) (name : String) : Prop where
  kept : ¬ HandsOver links type before name → after.get? name = before.get? name
  cleared : HandsOver links type before name →
    after.get? name = some .null ∨ ¬ whole ∧ after.get? name = before.get? name

/-- The records in a value: the value itself, or those in a list. -/
def heldRecords : Value → List Record
  | .record inner => [inner]
  | .list items => items.filterMap Value.record?
  | _ => []

/-- The records in a field of a record. -/
def recordsAt (record : Record) (name : String) : List Record :=
  ((record.get? name).map heldRecords).getD []

/-- No other field of the type has the name of this one. -/
def IsOnly (type : ComplexType) (field : Field) : Prop :=
  type.fields.filter (fun other => other.name == field.name) = [field]

mutual

/-- What becomes of the primary keys in a record and in the records inside it. -/
inductive KeysTreated (links : Links) (whole : Prop) : ComplexType → Record → Record → Prop where
  | intro {type : ComplexType} {before after : Record}
      (here : ∀ field ∈ type.fields, field.primaryKey = true → IsPlainName type field.name →
        KeyTreated links type whole before after field.name)
      (inner : ∀ field ∈ type.fields, IsOnly type field → bindBase? field.name = none →
        ∀ inner, field.type = .complex inner →
          AllTreated links whole inner (recordsAt before field.name)
            (recordsAt after field.name)) :
      KeysTreated links whole type before after

/-- What becomes of the primary keys in records of one type, one by one. -/
inductive AllTreated (links : Links) (whole : Prop) :
    ComplexType → List Record → List Record → Prop where
  | nil {type : ComplexType} : AllTreated links whole type [] []
  | cons {type : ComplexType} {before after : Record} {rest others : List Record}
      (first : KeysTreated links whole type before after)
      (behind : AllTreated links whole type rest others) :
      AllTreated links whole type (before :: rest) (after :: others)

end

/-! ## One link -/

/-- Only scalars are keys. -/
theorem scalar_of_keyLiteral {field : Field} {value : Value} {key : String}
    (isKey : keyLiteral field value = .ok key) : ∃ scalar, value = .scalar scalar := by
  obtain ⟨text, isText, -⟩ := exists_of_bind_ok isKey
  unfold ValueType.text at isText
  split at isText
  · cases isText
  · cases value with
    | scalar scalar => exact ⟨scalar, rfl⟩
    | _ => cases isText

/-- A field had a value, with no records in it, and is null now. -/
structure Taken (before after : Record) (field : Field) : Prop where
  held : (before.value? field.name).isSome = true
  noRecords : recordsAt before field.name = []
  cleared : after.get? field.name = some .null

theorem recordsAt_congr {first second : Record} {name : String}
    (same : first.get? name = second.get? name) :
    recordsAt first name = recordsAt second name := by
  rw [recordsAt, recordsAt, same]

theorem recordsAt_of_value? {record : Record} {name : String} {value : Value}
    (held : record.value? name = some value) : recordsAt record name = heldRecords value := by
  rw [recordsAt, (Record.value?_eq_some_iff.mp held).1]
  rfl

theorem Taken.of_keyLiteral {before after : Record} {field : Field} {value : Value} {key : String}
    (held : before.value? field.name = some value) (isKey : keyLiteral field value = .ok key)
    (cleared : after.get? field.name = some .null) : Taken before after field := by
  obtain ⟨scalar, rfl⟩ := scalar_of_keyLiteral isKey
  exact ⟨by rw [held]; rfl, recordsAt_of_value? held, cleared⟩

theorem workCompositeLink_takes {bindName collection : String} {fields : List Field}
    {parts : List String} {before : Record} {name : String} (apart : name ≠ bindName) :
    let after := left (workCompositeLink bindName collection fields parts before)
    after.get? name = before.get? name ∨
      ∃ field ∈ fields, field.name = name ∧ field.foreignKey.isSome = true ∧
        Taken before after field := by
  induction fields generalizing parts before with
  | nil =>
      rw [workCompositeLink]
      split
      · exact .inl rfl
      · exact .inl (Record.get?_set_of_ne before apart _)
  | cons field rest ih =>
      rcases workCompositeLink_cons bindName collection field rest parts before with
        ⟨fault, -, isWork⟩ | ⟨part, gives, isPart, -, isWork⟩ | ⟨-, isWork⟩
      · rw [isWork]
        exact .inl rfl
      · obtain ⟨remote, value, key, -, held, isKey, -⟩ := isPart
        rw [isWork]
        intro after
        rcases ih with same | ⟨other, isMember, sameName, isMapped, taken⟩
        · by_cases isField : field.name = name
          · subst isField
            rw [Record.get?_set_self] at same
            rw [givesPart, Bool.and_eq_true] at gives
            exact .inr ⟨field, List.mem_cons_self, rfl, gives.1, .of_keyLiteral held isKey same⟩
          · rw [Record.get?_set_of_ne before (Ne.symm isField)] at same
            exact .inl same
        · -- What was taken before has no value any more.
          have different : other.name ≠ field.name := by
            intro isField
            have noValue : (before.set field.name .null).value? other.name = none :=
              Record.value?_of_null (isField ▸ Record.get?_set_self _ _ _)
            have held := taken.held
            rw [noValue] at held
            cases held
          have kept := Record.get?_set_of_ne before different .null
          refine .inr ⟨other, List.mem_cons_of_mem _ isMember, sameName, isMapped, ?_, ?_, ?_⟩
          · exact Record.value?_congr kept ▸ taken.held
          · exact recordsAt_congr kept ▸ taken.noRecords
          · exact taken.cleared
      · rw [isWork]
        refine ih.imp_right ?_
        rintro ⟨other, isMember, others⟩
        exact ⟨other, List.mem_cons_of_mem _ isMember, others⟩

theorem Taken.of_makesLink {collection : String} {before after : Record} {field : Field}
    {used : List Field} {value : Value} (makes : MakesLink collection before [field] value used)
    (cleared : after.get? field.name = some .null) : Taken before after field := by
  cases makes with
  | key held single written => exact .of_keyLiteral held written cleared
  | @keys _ items texts held written =>
      have isValue : before.value? field.name = some (.list items) :=
        Record.value?_eq_some_iff.mpr ⟨held, rfl⟩
      have noRecord : ∀ item ∈ items.filter fun item => !item.isNull, item.record? = none := by
        refine ((List.forall₂_and_left _ _).mp (written.imp fun item key isKey => ⟨?_, isKey⟩)).1
        obtain ⟨scalar, rfl⟩ := scalar_of_keyLiteral isKey
        rfl
      refine ⟨by rw [isValue]; rfl, ?_, cleared⟩
      rw [recordsAt_of_value? isValue, heldRecords, List.filterMap_eq_nil_iff]
      intro item isMember
      cases item with
      | record inner => exact noRecord _ (List.mem_filter.mpr ⟨isMember, rfl⟩)
      | _ => rfl
  | parts several => simp at several

theorem setSingleLink_takes {bindName collection : String} {field : Field} {before : Record}
    {name : String} (apart : name ≠ bindName) :
    let after := left (attempt (setSingleLink bindName collection field) before)
    after.get? name = before.get? name ∨ field.name = name ∧ Taken before after field := by
  unfold attempt
  cases isOk : setSingleLink bindName collection field before with
  | error fault => exact .inl rfl
  | ok after =>
      rcases setSingleLink_cases isOk with ⟨rfl, -⟩ | ⟨value, makes, rfl⟩
      · exact .inl rfl
      · by_cases isField : field.name = name
        · exact .inr ⟨isField, .of_makesLink makes (Record.get?_set_self _ _ _)⟩
        · refine .inl ?_
          exact (Record.get?_set_of_ne _ (Ne.symm isField) .null).trans
            (Record.get?_set_of_ne before apart value)

/-- Work on a link keeps the value of any other field, or takes it for the link. -/
theorem workLink_takes {links : Links} {type : ComplexType} {bindName base : String}
    {before : Record} {name : String} (apart : name ≠ bindName) :
    let after := left (workLink links type bindName base before)
    after.get? name = before.get? name ∨
      (links.linkedSet? type base).isSome = true ∧
        ∃ field ∈ linkedFields type base, field.name = name ∧
          (linkedFields type base = [field] ∨ field.foreignKey.isSome = true) ∧
          Taken before after field := by
  unfold workLink
  cases links.linkedSet? type base with
  | none => exact .inl rfl
  | some collection =>
      match isLinked : linkedFields type base with
      | [] => exact .inl rfl
      | [field] =>
          refine (setSingleLink_takes apart).imp_right ?_
          rintro ⟨sameName, taken⟩
          exact ⟨rfl, field, List.mem_cons_self, sameName, .inl rfl, taken⟩
      | first :: second :: others =>
          refine (workCompositeLink_takes apart).imp_right ?_
          rintro ⟨field, isMember, sameName, isMapped, taken⟩
          exact ⟨rfl, field, isMember, sameName, .inr isMapped, taken⟩

theorem workInnerLinks_get? {links : Links} {field other : String} {type : ValueType}
    (different : other ≠ field) (before : Record) :
    (left (workInnerLinks links field type before)).get? other = before.get? other := by
  cases type with
  | complex inner =>
      rw [workInnerLinks, inField]
      split
      · rfl
      · rw [left_within]
        exact Record.get?_set_of_ne before different _
  | _ => simp only [workInnerLinks]; rfl

/-! ## Links that are set -/

theorem value?_of_takeKeyParts {fields : List Field} {record left : Record} {parts : List String}
    (isOk : takeKeyParts fields record = .ok (parts, left)) {name : String}
    (noValue : record.value? name = none) : left.value? name = none := by
  induction fields generalizing record parts with
  | nil =>
      cases isOk
      exact noValue
  | cons field rest ih =>
      rcases takeKeyParts_cons_ok isOk with ⟨part, others, -, -, -, isRest⟩ | ⟨-, -, isRest⟩
      · refine ih isRest ?_
        cases held : (record.set field.name .null).value? name with
        | none => rfl
        | some value => rw [Record.value?_of_set_null held] at noValue; cases noValue
      · exact ih isRest noValue

theorem value?_of_taken {fields : List Field} {record left : Record} {parts : List String}
    (isOk : takeKeyParts fields record = .ok (parts, left)) {field : Field}
    (isMember : field ∈ fields) (isMapped : field.foreignKey.isSome = true) :
    left.value? field.name = none := by
  induction fields generalizing record parts with
  | nil => cases isMember
  | cons first rest ih =>
      rcases takeKeyParts_cons_ok isOk with
        ⟨part, others, -, -, -, isRest⟩ | ⟨-, givesNone, isRest⟩
      · rcases List.mem_cons.mp isMember with rfl | isMember
        · exact value?_of_takeKeyParts isRest (Record.value?_of_null (Record.get?_set_self _ _ _))
        · exact ih isRest isMember
      · rcases List.mem_cons.mp isMember with rfl | isMember
        · rw [givesPart, isMapped, Bool.true_and, Option.isSome_eq_false_iff,
            Option.isNone_iff_eq_none] at givesNone
          exact value?_of_takeKeyParts isRest givesNone
        · exact ih isRest isMember

/-- When a link was set, the fields that carry its key have no values. -/
theorem value?_of_setLink {links : Links} {type : ComplexType} {bindName base : String}
    {before after : Record} (isOk : setLink links type bindName base before = .ok after)
    (leads : (links.linkedSet? type base).isSome = true) {field : Field}
    (isLinked : field ∈ linkedFields type base) (apart : field.name ≠ bindName)
    (carries : linkedFields type base = [field] ∨ field.foreignKey.isSome = true) :
    after.value? field.name = none := by
  obtain ⟨collection, isSet⟩ := Option.isSome_iff_exists.mp leads
  rw [setLink_of_linkedSet? isSet] at isOk
  match fields : linkedFields type base with
  | [] =>
      rw [fields] at isLinked
      cases isLinked
  | [only] =>
      rw [fields] at isOk isLinked
      cases List.mem_singleton.mp isLinked
      rcases setSingleLink_cases isOk with ⟨rfl, noValue⟩ | ⟨value, -, rfl⟩
      · exact noValue
      · exact Record.value?_of_null (Record.get?_set_self _ _ _)
  | first :: second :: others =>
      rw [fields] at isOk isLinked carries
      have isMapped := carries.resolve_left (by simp)
      obtain ⟨⟨parts, taken⟩, isTaken, isOk⟩ := exists_of_bind_ok isOk
      have noValue := value?_of_taken isTaken isLinked isMapped
      dsimp only at isOk
      split at isOk
      · cases isOk
        exact noValue
      · cases isOk
        rw [Record.value?_congr (Record.get?_set_of_ne taken apart _)]
        exact noValue

/-! ## One level -/

section

variable {links : Links} {type : ComplexType} {name : String}

/-- The value of a name is kept, or handed over. -/
def KeepsOrTakes (links : Links) (type : ComplexType) (name : String) (before after : Record) :
    Prop :=
  after.get? name = before.get? name ∨
    HandsOver links type before name ∧ after.get? name = some .null

theorem KeepsOrTakes.trans {first second third : Record}
    (begins : KeepsOrTakes links type name first second)
    (ends : KeepsOrTakes links type name second third) :
    KeepsOrTakes links type name first third := by
  rcases ends with same | ⟨⟨carries, held⟩, isNull⟩
  · exact begins.imp same.trans fun ⟨handsOver, isNull⟩ => ⟨handsOver, same.trans isNull⟩
  · rcases begins with same | ⟨handsOver, -⟩
    · exact .inr ⟨⟨carries, Record.value?_congr same ▸ held⟩, isNull⟩
    · exact .inr ⟨handsOver, isNull⟩

theorem KeepsOrTakes.value?_eq_none {before after : Record}
    (step : KeepsOrTakes links type name before after) (noValue : before.value? name = none) :
    after.value? name = none := by
  rcases step with same | ⟨-, isNull⟩
  · rw [Record.value?_congr same, noValue]
  · exact Record.value?_of_null isNull

theorem IsPlainName.ne_of_bindBase? (plain : IsPlainName type name) {other base : String}
    (isBind : bindBase? other = some base) : name ≠ other := by
  rintro rfl
  rw [plain.1] at isBind
  cases isBind

/-- Every step keeps the value of a plain name, or takes it for a link. -/
theorem keepsOrTakes_step (plain : IsPlainName type name) {field : Field}
    (isMember : field ∈ type.fields) (copy : Record) :
    KeepsOrTakes links type name copy (left (workFieldLink links type field copy)) := by
  unfold workFieldLink
  cases isBind : bindBase? field.name with
  | some base =>
      refine (workLink_takes (plain.ne_of_bindBase? isBind)).imp_right ?_
      rintro ⟨leads, linked, isLinked, rfl, carries, taken⟩
      exact ⟨⟨⟨field, isMember, base, isBind, leads, linked, isLinked, rfl, carries⟩, taken.held⟩,
        taken.cleared⟩
  | none =>
      by_cases sameName : field.name = name
      · have noComplex := plain.2 field isMember sameName
        cases isType : field.type with
        | complex inner =>
            rw [isComplex_of_complex isType] at noComplex
            cases noComplex
        | _ => simp only [workInnerLinks]; exact .inl rfl
      · exact .inl (workInnerLinks_get? (Ne.symm sameName) copy)

/-- A plain name that carries the key of a link has no value when all went well: its bind
field had its turn, and no step gives the value back. -/
theorem value?_of_succeeds (plain : IsPlainName type name) (carries : CarriesKey links type name)
    {before : Record} (isWhole : Succeeds (workLinks links type before)) :
    (left (workLinks links type before)).value? name = none := by
  obtain ⟨bind, isMember, base, isBind, leads, field, isLinked, rfl, carries⟩ := carries
  obtain ⟨front, back, split⟩ := List.append_of_mem isMember
  have areMembers : front ++ back ⊆ type.fields := by
    rw [split]
    exact ((List.sublist_cons_self bind back).append_left front).subset
  rw [workLinks_eq, split] at isWhole ⊢
  rcases turn_of_forM (KeepsOrTakes links type field.name) (fun _ => .inl rfl)
      (fun _ _ _ => KeepsOrTakes.trans) bind
      (fun other isOther => keepsOrTakes_step plain (areMembers isOther)) before with
    ⟨fails, -⟩ | ⟨start, -, ends, hasTurn⟩
  · exact absurd isWhole fails
  · obtain ⟨stop, isSet⟩ := hasTurn isWhole
    rw [left_of_outcome isSet] at ends
    rw [workFieldLink, isBind, outcome_workLink] at isSet
    have apart := plain.ne_of_bindBase? isBind
    exact ends.value?_eq_none (value?_of_setLink isSet leads isLinked apart carries)

/-- A plain name is treated as the law says. -/
theorem keyTreated (plain : IsPlainName type name) {whole : Prop} {before : Record}
    (succeeds : whole → Succeeds (workLinks links type before)) :
    KeyTreated links type whole before (left (workLinks links type before)) name := by
  have run := left_forM (KeepsOrTakes links type name) (fun _ => .inl rfl)
    (fun _ _ _ => KeepsOrTakes.trans)
    (fun field isMember => keepsOrTakes_step plain isMember) before
  rw [← workLinks_eq] at run
  refine ⟨fun stays => run.resolve_right fun taken => stays taken.1, ?_⟩
  rintro ⟨carries, held⟩
  refine run.symm.imp And.right fun same => ⟨fun isWhole => ?_, same⟩
  rw [← Record.value?_congr same, value?_of_succeeds plain carries (succeeds isWhole)] at held
  cases held

end

/-! ## Records inside a record -/

section

variable {links : Links} {whole : Prop} {type : ComplexType}

theorem allTreated_self (treated : ∀ record, KeysTreated links whole type record record)
    (records : List Record) : AllTreated links whole type records records := by
  induction records with
  | nil => exact .nil
  | cons first rest ih => exact .cons (treated first) ih

/-- After a fault, what is left as it was is treated as the law says. -/
theorem keysTreated_self (fails : ¬ whole) (record : Record) :
    KeysTreated links whole type record record := by
  induction type using ComplexType.induction generalizing record with
  | step type ih =>
      refine .intro (fun field _ _ _ => ⟨fun _ => rfl, fun _ => .inr ⟨fails, rfl⟩⟩) ?_
      intro field isMember _ _ inner isType
      exact allTreated_self (ih field isMember inner isType) _

/-- Work on records of the type treats their keys as the law says. -/
def TreatsKeys (links : Links) (whole : Prop) (type : ComplexType) : Prop :=
  ∀ before, (whole → Succeeds (workLinks links type before)) →
    KeysTreated links whole type before (left (workLinks links type before))

theorem TreatsKeys.items (treats : TreatsKeys links whole type) {items : List Value}
    (succeeds : whole → Succeeds (each (onRecord (workLinks links type)) items)) :
    AllTreated links whole type (items.filterMap Value.record?)
      ((left (each (onRecord (workLinks links type)) items)).filterMap Value.record?) := by
  induction items with
  | nil => exact .nil
  | cons item rest ih =>
      rcases each_cons (onRecord (workLinks links type)) item rest with
        ⟨isItem, isLeft, others⟩ | ⟨fault, isLeft⟩
      · have behind := ih fun isWhole => others.mp (succeeds isWhole)
        rw [isLeft]
        cases item with
        | record inner =>
            rw [onRecord, succeeds_within] at isItem
            rw [onRecord, left_within]
            exact .cons (treats inner fun _ => isItem) behind
        | _ => exact behind
      · have fails : ¬ whole := fun isWhole => fault (succeeds isWhole)
        have same (records : List Record) : AllTreated links whole type records records :=
          allTreated_self (keysTreated_self fails) records
        rw [isLeft]
        cases item with
        | record inner =>
            rw [onRecord, left_within]
            exact .cons (treats inner fun isWhole => absurd isWhole fails) (same _)
        | _ => exact same _

theorem TreatsKeys.value (treats : TreatsKeys links whole type) {value : Value}
    (succeeds : whole → Succeeds (onRecords (workLinks links type) value)) :
    AllTreated links whole type (heldRecords value)
      (heldRecords (left (onRecords (workLinks links type) value))) := by
  cases value with
  | record inner =>
      have single : onRecords (workLinks links type) (.record inner) =
          within .record (workLinks links type inner) := rfl
      rw [single, succeeds_within] at succeeds
      rw [single, left_within]
      exact .cons (treats inner succeeds) .nil
  | list items =>
      rw [onRecords, succeeds_within] at succeeds
      rw [onRecords, left_within]
      exact treats.items succeeds
  | _ => exact .nil

/-- The work of other fields leaves the records in a field as they are: what they take from
it holds no records. -/
theorem recordsAt_step {field other : Field} (different : other.name ≠ field.name)
    (copy : Record) : recordsAt (left (workFieldLink links type other copy)) field.name =
      recordsAt copy field.name := by
  unfold workFieldLink
  cases bindBase? other.name with
  | some base =>
      rcases workLink_takes different.symm with same | ⟨-, linked, -, sameName, -, taken⟩
      · exact recordsAt_congr same
      · rw [← sameName, taken.noRecords, recordsAt, taken.cleared]
        rfl
  | none => exact recordsAt_congr (workInnerLinks_get? different.symm copy)

theorem IsOnly.exists_split {field : Field} (only : IsOnly type field) :
    ∃ front back, type.fields = front ++ field :: back ∧
      ∀ other ∈ front ++ back, other.name ≠ field.name := by
  obtain ⟨front, back, split, noFront, isField, noBack⟩ := List.filter_eq_cons_iff.mp only
  refine ⟨front, back, split, List.forall_mem_append.mpr ⟨?_, ?_⟩⟩
  · intro other isMember
    simpa using noFront other isMember
  · intro other isMember
    simpa using List.filter_eq_nil_iff.mp noBack other isMember

/-- The step of a field that holds structures treats the keys in them as the law says. -/
theorem TreatsKeys.step {field : Field} (noBind : bindBase? field.name = none)
    {inner : ComplexType} (isType : field.type = .complex inner)
    (treats : TreatsKeys links whole inner) {copy : Record}
    (succeeds : whole → Succeeds (workFieldLink links type field copy)) :
    AllTreated links whole inner (recordsAt copy field.name)
      (recordsAt (left (workFieldLink links type field copy)) field.name) := by
  have isStep : workFieldLink links type field =
      inField field.name (onRecords (workLinks links inner)) := by
    simp only [workFieldLink, noBind, isType, workInnerLinks]
  rw [isStep, inField] at succeeds ⊢
  cases held : copy.get? field.name with
  | none =>
      rw [recordsAt, left_ok, recordsAt, held]
      exact .nil
  | some value =>
      simp only [held, succeeds_within, left_within] at succeeds ⊢
      rw [recordsAt, held, recordsAt, Record.get?_set_self]
      exact treats.value succeeds

theorem treatsKeys (links : Links) (whole : Prop) (type : ComplexType) :
    TreatsKeys links whole type := by
  induction type using ComplexType.induction with
  | step type ih =>
      intro before succeeds
      refine .intro (fun field _ _ plain => keyTreated plain succeeds) ?_
      intro field isMember only noBind inner isType
      obtain ⟨front, back, split, others⟩ := only.exists_split
      have steps : ∀ other ∈ front ++ back, ∀ copy,
          recordsAt (left (workFieldLink links type other copy)) field.name =
            recordsAt copy field.name :=
        fun other isOther copy => recordsAt_step (others other isOther) copy
      have turn := turn_of_forM
        (fun first second => recordsAt second field.name = recordsAt first field.name)
        (fun _ => rfl) (fun _ _ _ begins ends => ends.trans begins) field steps before
      rw [← split, ← workLinks_eq] at turn
      rcases turn with ⟨fails, same⟩ | ⟨start, begins, ends, hasTurn⟩
      · rw [same]
        exact allTreated_self (keysTreated_self fun isWhole => fails (succeeds isWhole)) _
      · rw [ends, ← begins]
        exact (ih field isMember inner isType).step noBind isType fun isWhole =>
          hasTurn (succeeds isWhole)

end

/-- Setting the links of a record, in place and at every depth, whether it ends well or in a
fault: a field that is flagged as primary key keeps its value unless it hands it over to a
link. What it hands over is gone when all went well, and may be gone after a fault. -/
theorem primary_key_kept_unless_handed_over (links : Links) (type : ComplexType)
    (record : Record) :
    outcome (workLinks links type record) = setLinks links type record ∧
      KeysTreated links (∃ after, setLinks links type record = .ok after) type record
        (left (workLinks links type record)) := by
  have isOutcome := outcome_workLinks links type record
  refine ⟨isOutcome, treatsKeys links _ type record ?_⟩
  rintro ⟨after, isOk⟩
  exact ⟨after, isOutcome.trans isOk⟩

/-- The key of an enrolment is that of its student. -/
def studentKey : Field where
  name := "studentId"
  type := .guid
  primaryKey := true
  foreignName := some "student"

/-- The enrolment of a student in a course. -/
def enrolmentType : ComplexType where
  name := "enrolment"
  fields := [
    { name := "grade", type := .string },
    { name := "student@odata.bind", type := .string },
    { name := "student",
      type := .complex { name := "student", collectionName := some "Students" } },
    studentKey]

/-- An enrolment of the student s1. -/
def enrolment : Record := ⟨[("studentId", .scalar (.text "s1")), ("grade", .scalar (.text "A"))]⟩

/-- The enrolment with its link. -/
def linkedEnrolment : Record := ⟨[("studentId", .null), ("grade", .scalar (.text "A")),
  ("student@odata.bind", .scalar (.text "/Students(s1)"))]⟩

theorem setLinks_enrolment :
    setLinks plainService enrolmentType enrolment = .ok linkedEnrolment := by
  rw [setLinks_eq]
  refine foldlM_cons_ok enrolment rfl ?_
  refine foldlM_cons_ok linkedEnrolment rfl ?_
  refine foldlM_cons_ok linkedEnrolment rfl ?_
  exact foldlM_cons_ok linkedEnrolment rfl rfl

theorem handsOver_enrolment : HandsOver plainService enrolmentType enrolment studentKey.name :=
  ⟨⟨_, .tail _ (.head _), "student", by decide, rfl, studentKey, .head _, rfl, .inl rfl⟩, rfl⟩

/-- The primary key of the enrolment goes into the link to the student. -/
theorem enrolment_loses_primary_key :
    studentKey ∈ enrolmentType.fields ∧ studentKey.primaryKey = true ∧
      enrolment.get? studentKey.name = some (.scalar (.text "s1")) ∧
      setLinks plainService enrolmentType enrolment = .ok linkedEnrolment ∧
      linkedEnrolment.get? studentKey.name = some .null := by
  have isMember : studentKey ∈ enrolmentType.fields := List.mem_of_getLast? rfl
  refine ⟨isMember, rfl, rfl, setLinks_enrolment, ?_⟩
  obtain ⟨isOutcome, treated⟩ :=
    primary_key_kept_unless_handed_over plainService enrolmentType enrolment
  cases treated with
  | intro here =>
      have plain : IsPlainName enrolmentType studentKey.name := ⟨by decide, by decide⟩
      have isLeft := left_of_outcome (isOutcome.trans setLinks_enrolment)
      have cleared := (here studentKey isMember rfl plain).cleared handsOver_enrolment
      rw [isLeft] at cleared
      exact cleared.resolve_right fun kept => kept.1 ⟨_, setLinks_enrolment⟩

/-- A shift in a plant with a key of two parts, the second one with no remote field. -/
def shiftType : ComplexType where
  name := "shift"
  fields := [
    { name := "plant@odata.bind", type := .string },
    { name := "plant", type := .complex { name := "plant", collectionName := some "Plants" } },
    { name := "site", type := .string, primaryKey := true, foreignName := some "plant",
      foreignKey := some "Plants:site" },
    { name := "number", type := .integer, foreignName := some "plant",
      foreignKey := some "Plants" }]

/-- The fault at the second part comes when the first one is gone. -/
example : workLinks plainService shiftType ⟨[("site", .scalar (.text "A"))]⟩ =
    .error (.schema (.foreignKeyMapping "Plants" "number")) ⟨[("site", .null)]⟩ := by
  rw [workLinks_eq]
  rfl

end OData.Body
