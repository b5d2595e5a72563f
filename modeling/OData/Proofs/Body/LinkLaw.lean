/-
# What setting links changes

Setting links is no plain function of single fields: a key disappears in one field and a
reference appears in another one. The law for it says, for every level of a record, which
fields may change at all, when a key may become null, and what a bind field may become.
A key is cleared only when it is in the link that its bind field holds from then on, so
no key is lost; and a bind field changes only to hold such a link, whose keys are cleared.
In the structures inside a record the same law holds with their own types.

The law follows from the alternative that `link_of_setLinks` leaves for every bind field.
It is the induction on the depth of types that makes a law of all levels of it.
-/

import OData.Proofs.Body.Linking

namespace OData.Body

open OData.Record (ChangesOnly)

/-- What may change at one level of a record. -/
structure SetsLinksHere (links : Links) (type : ComplexType) (before after : Record) : Prop where
  /-- Fields stay where they are, and new ones come behind them. -/
  inPlace : before.names <+: after.names
  /-- A field that is no bind field, carries no key and holds no structures keeps its value. -/
  others : ∀ name, (∀ field ∈ type.fields, field.name = name →
      bindBase? field.name = none ∧ field.foreignName = none ∧ field.isComplex = false) →
    after.get? name = before.get? name
  /-- A key stays, or it is cleared and in the link that is built of it. -/
  keys : ∀ field ∈ type.fields, ∀ base, field.foreignName = some base →
    after.get? field.name = before.get? field.name ∨
      after.get? field.name = some .null ∧
        ∃ bind ∈ type.fields, ∃ value used, bindBase? bind.name = some base ∧
          BuildsLink links type base before value used ∧ field ∈ used ∧
          after.get? bind.name = some value
  /-- A bind field stays, or it holds the link that is built of keys that are cleared. -/
  binds : ∀ bind ∈ type.fields, ∀ base, bindBase? bind.name = some base →
    after.get? bind.name = before.get? bind.name ∨
      ∃ value used, BuildsLink links type base before value used ∧
        after.get? bind.name = some value ∧ ∀ field ∈ used, after.get? field.name = some .null

mutual

/-- What may change in a record, at every level. -/
inductive SetsLinks (links : Links) : ComplexType → Record → Record → Prop where
  | intro {type : ComplexType} {before after : Record}
      (here : SetsLinksHere links type before after)
      (inner : ∀ field ∈ type.fields, bindBase? field.name = none →
        ∀ inner, field.type = .complex inner →
          SetsInnerLinks links inner (before.get? field.name) (after.get? field.name)) :
      SetsLinks links type before after

/-- What may change in a field that holds structures. -/
inductive SetsInnerLinks (links : Links) : ComplexType → Option Value → Option Value → Prop where
  | absent {type : ComplexType} : SetsInnerLinks links type none none
  | single {type : ComplexType} {before after : Value} (noList : before.items? = none)
      (item : SetsItemLinks links type before after) :
      SetsInnerLinks links type (some before) (some after)
  | list {type : ComplexType} {before after : List Value}
      (items : SetsItemsLinks links type before after) :
      SetsInnerLinks links type (some (.list before)) (some (.list after))

/-- What may change in a list, item by item. -/
inductive SetsItemsLinks (links : Links) : ComplexType → List Value → List Value → Prop where
  | nil {type : ComplexType} : SetsItemsLinks links type [] []
  | cons {type : ComplexType} {before after : Value} {rest others : List Value}
      (first : SetsItemLinks links type before after)
      (behind : SetsItemsLinks links type rest others) :
      SetsItemsLinks links type (before :: rest) (after :: others)

/-- What may change in a single value: a record follows the law, and nothing else changes. -/
inductive SetsItemLinks (links : Links) : ComplexType → Value → Value → Prop where
  | record {type : ComplexType} {before after : Record}
      (sets : SetsLinks links type before after) :
      SetsItemLinks links type (.record before) (.record after)
  | other {type : ComplexType} {value : Value} (noRecord : value.record? = none) :
      SetsItemLinks links type value value

end

/-! ## One level -/

section

variable {links : Links} {type : ComplexType} {before after : Record}

/-- A field without a step keeps its value, unless it carries a key for a bind field. -/
theorem kept_of_noStep (isOk : setLinks links type before = .ok after) {name : String}
    (noStep : ∀ field ∈ type.fields, field.name = name → ¬ HasStep field ∧
      ∀ bind ∈ type.fields, ∀ base, bindBase? bind.name = some base →
        field.foreignName ≠ some base) :
    after.get? name = before.get? name := by
  rw [setLinks_eq] at isOk
  apply (changes_of_steps isOk).kept
  intro isTouched
  obtain ⟨field, isMember, isTouched⟩ := List.mem_flatMap.mp isTouched
  obtain ⟨owner, isOwner, sameName, owns⟩ := owner_of_touched isMember isTouched
  obtain ⟨noOwnStep, noKey⟩ := noStep owner isOwner sameName
  rcases owns with ⟨rfl, hasStep⟩ | ⟨base, isBind, names⟩
  · exact noOwnStep hasStep
  · exact noKey field isMember base isBind names

theorem setsLinksHere (distinct : (type.fields.map Field.name).Nodup) (plain : HasPlainKeys type)
    (isOk : setLinks links type before = .ok after) : SetsLinksHere links type before after := by
  have link {bind : Field} (isMember : bind ∈ type.fields) {base : String}
      (isBind : bindBase? bind.name = some base) :=
    link_of_setLinks distinct (plain.standsAlone distinct isMember) isMember isBind
      (plain.apart isBind) isOk
  refine ⟨?_, ?_, ?_, ?_⟩
  · rw [setLinks_eq] at isOk
    exact (changes_of_steps isOk).inPlace
  · intro name isOther
    apply kept_of_noStep isOk
    intro field isMember sameName
    obtain ⟨noBind, noKey, isSimple⟩ := isOther field isMember sameName
    refine ⟨?_, fun bind isBindMember base _ names => ?_⟩
    · simp [HasStep, noBind, isSimple]
    · rw [noKey] at names
      cases names
  · intro field isMember base names
    by_cases hasBind : ∃ bind ∈ type.fields, bindBase? bind.name = some base
    · obtain ⟨bind, isBindMember, isBind⟩ := hasBind
      have isLinked : field ∈ linkedFields type base := mem_linkedFields.mpr ⟨isMember, names⟩
      rcases link isBindMember isBind with
        ⟨-, kept, -⟩ | ⟨value, used, builds, stored, cleared, kept⟩
      · exact .inl (kept field isLinked)
      · by_cases isUsed : field ∈ used
        · exact .inr ⟨cleared field isUsed, bind, isBindMember, value, used, isBind, builds,
            isUsed, stored⟩
        · exact .inl (kept field isLinked isUsed)
    · left
      apply kept_of_noStep isOk
      intro other isOther sameName
      obtain rfl := List.inj_on_of_nodup_map distinct isOther isMember sameName
      refine ⟨plain.noStep isOther names, fun bind isBindMember otherBase isBind otherNames => ?_⟩
      obtain rfl := Option.some.inj (names.symm.trans otherNames)
      exact hasBind ⟨bind, isBindMember, isBind⟩
  · intro bind isMember base isBind
    rcases link isMember isBind with ⟨kept, -⟩ | ⟨value, used, builds, stored, cleared, -⟩
    · exact .inl kept
    · exact .inr ⟨value, used, builds, stored, cleared⟩

/-! ## Values inside -/

/-- The law holds whenever the links of a record of this type are set. -/
def ObeysLaw (links : Links) (type : ComplexType) : Prop :=
  ∀ before after, setLinks links type before = .ok after → SetsLinks links type before after

theorem ObeysLaw.item (obeys : ObeysLaw links type) {before after : Value}
    (isOk : setItemLinks links type before = .ok after) :
    SetsItemLinks links type before after := by
  cases before with
  | record inner =>
      obtain ⟨linked, isLinked, rfl⟩ := exists_of_map_ok isOk
      exact .record (obeys inner linked isLinked)
  | _ =>
      cases isOk
      exact .other rfl

theorem ObeysLaw.value (obeys : ObeysLaw links type) {before after : Value}
    (isOk : setValueLinks links type before = .ok after) :
    SetsInnerLinks links type (some before) (some after) := by
  cases before with
  | list items =>
      obtain ⟨linked, areLinked, rfl⟩ := exists_of_map_ok isOk
      refine .list ?_
      have pairs := forall₂_of_mapM_ok areLinked
      clear areLinked isOk
      induction pairs with
      | nil => exact .nil
      | cons isItem _ ih => exact .cons (obeys.item isItem) ih
  | record inner =>
      have isItem : setItemLinks links type (.record inner) = .ok after := isOk
      exact .single rfl (obeys.item isItem)
  | _ =>
      cases isOk
      exact .single rfl (.other rfl)

theorem ObeysLaw.field {inner : ComplexType} (obeys : ObeysLaw links inner) {field : Field}
    (noBind : bindBase? field.name = none) (isType : field.type = .complex inner)
    {start stop : Record} (isOk : setFieldLink links type start field = .ok stop) :
    SetsInnerLinks links inner (start.get? field.name) (stop.get? field.name) := by
  simp only [setFieldLink, noBind, isType, setInnerLinks_eq] at isOk
  cases held : start.get? field.name with
  | none =>
      rw [held] at isOk
      cases isOk
      rw [held]
      exact .absent
  | some value =>
      rw [held] at isOk
      obtain ⟨linked, isLinked, rfl⟩ := exists_of_map_ok isOk
      rw [Record.get?_set_self]
      exact obeys.value isLinked

end

/-! ## All levels -/

/-- When fields have distinct names and carry plain keys, at every level, then setting the
links of a record changes it by the law and in no other way: no field is removed or moved,
a key is cleared only when it is in the link that its bind field holds, and bind fields
change only to hold such links. -/
theorem links_set_by_law (links : Links) {type : ComplexType} (distinct : type.DistinctNames)
    (plain : PlainKeys type) {before after : Record}
    (isOk : setLinks links type before = .ok after) : SetsLinks links type before after := by
  induction type using ComplexType.induction generalizing before after with
  | step type ih =>
      obtain ⟨distinct, innerDistinct⟩ := distinct
      obtain ⟨plain, innerPlain⟩ := plain
      refine .intro (setsLinksHere distinct plain isOk) ?_
      intro field isMember noBind inner isType
      have obeys : ObeysLaw links inner := by
        intro first last isInner
        exact ih field isMember inner isType (innerDistinct field isMember inner isType)
          (innerPlain field isMember inner isType) isInner
      obtain ⟨start, stop, isStep, agree⟩ :=
        step_of_setLinks distinct (plain.standsAlone distinct isMember) isMember isOk
      have isTouched : field.name ∈ touched type field := by
        simp [touched, noBind, isComplex_of_complex isType]
      obtain ⟨sameStart, sameStop⟩ := agree field.name isTouched
      rw [← sameStart, sameStop]
      exact obeys.field noBind isType isStep

/-- An order with keys at two levels, one of them a list and one of two parts. -/
theorem linked_order_by_law :
    setLinks plainService orderType openOrder = .ok linkedOrder ∧
      SetsLinks plainService orderType openOrder linkedOrder :=
  ⟨setLinks_openOrder, links_set_by_law plainService plainKeys_orderType.1 plainKeys_orderType.2
    setLinks_openOrder⟩

end OData.Body
