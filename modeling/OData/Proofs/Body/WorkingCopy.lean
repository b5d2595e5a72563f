/-
# Links set in place

Links are set on a working copy of a record, one field after another. A fault does not take
back what was done before it: the parts of a composite key are taken out of the copy one by
one, and the records in a list are worked on one by one. Only a link with a single key is set
at once or not at all. When all goes well, the copy becomes what `setLinks` gives.
-/

import OData.Proofs.Body.Linking
import OData.Proofs.InPlace

namespace OData.Body

open OData.InPlace

/-! ## Records in a copy -/

/-- Work on a value, if it is a record. -/
def onRecord (work : InPlace Record Unit) : InPlace Value Unit
  | .record inner => within .record (work inner)
  | other => .ok () other

/-- Work on a record, or on the records in a list. -/
def onRecords (work : InPlace Record Unit) : InPlace Value Unit
  | .list items => within .list (each (onRecord work) items)
  | single => onRecord work single

/-- Work on the value of a field, if the record has the field. -/
def inField (name : String) (work : InPlace Value Unit) : InPlace Record Unit := fun record =>
  match record.get? name with
  | none => .ok () record
  | some value => within (record.set name) (work value)

theorem outcome_onRecords {links : Links} {type : ComplexType} {work : InPlace Record Unit}
    (same : ∀ record, outcome (work record) = setLinks links type record) (value : Value) :
    outcome (onRecords work value) = setValueLinks links type value := by
  have item (value : Value) : outcome (onRecord work value) = setItemLinks links type value := by
    cases value with
    | record inner => rw [onRecord, outcome_within, same, setItemLinks]
    | _ => rfl
  cases value with
  | list items =>
      rw [onRecords, outcome_within, outcome_each, setValueLinks]
      simp only [item]
  | record inner => exact item (.record inner)
  | null => rfl
  | scalar value => rfl

/-! ## Setting links -/

/-- Take the parts of a composite key out of the copy, and set the link in the end. -/
def workCompositeLink (bindName collection : String) :
    List Field → (parts : List String) → InPlace Record Unit
  | [], parts =>
      if parts.isEmpty then pure ()
      else modify (·.set bindName (reference collection (",".intercalate parts)))
  | field :: rest, parts => do
      let remote? ← MonadExcept.ofExcept field.remoteField
      match remote?, (← get).value? field.name with
      | some remote, some value =>
          let key ← MonadExcept.ofExcept (keyLiteral field value)
          modify (·.set field.name .null)
          workCompositeLink bindName collection rest (parts ++ [remote ++ "=" ++ key])
      | _, _ => workCompositeLink bindName collection rest parts

/-- Set the link of one bind field. -/
def workLink (links : Links) (type : ComplexType) (bindName base : String) :
    InPlace Record Unit :=
  match links.linkedSet? type base with
  | none => pure ()
  | some collection =>
      match linkedFields type base with
      | [] => pure ()
      | [field] => attempt (setSingleLink bindName collection field)
      | fields => workCompositeLink bindName collection fields []

mutual

/-- Set the links of a record and of the records inside it. -/
def workLinks (links : Links) : ComplexType → InPlace Record Unit
  | ⟨name, id, collectionName, fields⟩ =>
      workFieldLinks links ⟨name, id, collectionName, fields⟩ fields

/-- Set the links of a record of a type for some of its fields, in order. -/
def workFieldLinks (links : Links) (type : ComplexType) : List Field → InPlace Record Unit
  | [] => pure ()
  | ⟨name, fieldType, _, _, _, _, _, _, _, _⟩ :: rest => do
      match bindBase? name with
      | some base => workLink links type name base
      | none => workInnerLinks links name fieldType
      workFieldLinks links type rest

/-- Set the links inside a field of a record. -/
def workInnerLinks (links : Links) (name : String) : ValueType → InPlace Record Unit
  | .complex type => inField name (onRecords (workLinks links type))
  | _ => pure ()

end

/-- Set the link of a bind field, or the links inside any other field. -/
def workFieldLink (links : Links) (type : ComplexType) (field : Field) : InPlace Record Unit :=
  match bindBase? field.name with
  | some base => workLink links type field.name base
  | none => workInnerLinks links field.name field.type

theorem workFieldLinks_eq (links : Links) (type : ComplexType) (fields : List Field) :
    workFieldLinks links type fields = fields.forM (workFieldLink links type) := by
  induction fields with
  | nil => rfl
  | cons field rest ih =>
      cases field with
      | mk name =>
          rw [workFieldLinks, ih, List.forM, workFieldLink]
          cases bindBase? name <;> rfl

theorem workLinks_eq (links : Links) (type : ComplexType) :
    workLinks links type = type.fields.forM (workFieldLink links type) := by
  cases type with
  | mk name id collection fields => rw [workLinks, workFieldLinks_eq]

/-- A field has a fault and leaves the copy alone, or its part is taken out of the copy, or
it gives none. -/
theorem workCompositeLink_cons (bindName collection : String) (field : Field) (rest : List Field)
    (parts : List String) (record : Record) :
    (∃ fault, takeKeyParts (field :: rest) record = .error fault ∧
        workCompositeLink bindName collection (field :: rest) parts record =
          .error fault record) ∨
      (∃ part, givesPart record field = true ∧ IsKeyPart record field part ∧
        takeKeyParts (field :: rest) record =
          (takeKeyParts rest (record.set field.name .null)).map
            (fun taken => (part :: taken.1, taken.2)) ∧
        workCompositeLink bindName collection (field :: rest) parts record =
          workCompositeLink bindName collection rest (parts ++ [part])
            (record.set field.name .null)) ∨
      (takeKeyParts (field :: rest) record = takeKeyParts rest record ∧
        workCompositeLink bindName collection (field :: rest) parts record =
          workCompositeLink bindName collection rest parts record) := by
  have isCopy : (get : InPlace Record Record) record = .ok record record := rfl
  rw [workCompositeLink, takeKeyParts]
  simp only [bind, EStateM.bind, Except.bind, MonadExcept.ofExcept]
  cases isRemote : field.remoteField with
  | error fault => exact .inl ⟨fault, rfl, rfl⟩
  | ok remote? =>
      have isMapped := isSome_of_remoteField isRemote
      simp only [pure, EStateM.pure, isCopy]
      cases remote? with
      | none => exact .inr (.inr ⟨rfl, rfl⟩)
      | some remote =>
          cases held : record.value? field.name with
          | none => exact .inr (.inr ⟨rfl, rfl⟩)
          | some value =>
              dsimp only
              cases isKey : keyLiteral field value with
              | error fault => exact .inl ⟨fault, rfl, rfl⟩
              | ok key =>
                have gives : givesPart record field = true := by
                  rw [givesPart, ← isMapped, held]
                  rfl
                refine .inr (.inl ⟨_, gives, ⟨remote, value, key, isRemote, held, isKey, rfl⟩,
                  ?_, rfl⟩)
                cases takeKeyParts rest (record.set field.name .null) <;> rfl

theorem outcome_workCompositeLink (bindName collection : String) (fields : List Field)
    (parts : List String) (record : Record) :
    outcome (workCompositeLink bindName collection fields parts record) =
      (takeKeyParts fields record).map fun taken =>
        if (parts ++ taken.1).isEmpty then taken.2
        else
          taken.2.set bindName (reference collection (",".intercalate (parts ++ taken.1))) := by
  induction fields generalizing parts record with
  | nil =>
      rw [workCompositeLink, takeKeyParts]
      simp only [Except.map, List.append_nil]
      split <;> rfl
  | cons field rest ih =>
      rcases workCompositeLink_cons bindName collection field rest parts record with
        ⟨fault, isTaken, isWork⟩ | ⟨part, -, -, isTaken, isWork⟩ | ⟨isTaken, isWork⟩
      · rw [isTaken, isWork]
        rfl
      · rw [isTaken, isWork, ih]
        cases takeKeyParts rest (record.set field.name .null) with
        | error fault => rfl
        | ok taken => simp only [Except.map, List.append_assoc, List.singleton_append]
      · rw [isTaken, isWork, ih]

theorem outcome_workCompositeLink_nil (bindName collection : String) (fields : List Field)
    (record : Record) :
    outcome (workCompositeLink bindName collection fields [] record) =
      setCompositeLink bindName collection fields record := by
  rw [outcome_workCompositeLink, setCompositeLink]
  cases takeKeyParts fields record with
  | error fault => rfl
  | ok taken => exact apply_ite Except.ok _ _ _

theorem outcome_workLink (links : Links) (type : ComplexType) (bindName base : String)
    (record : Record) :
    outcome (workLink links type bindName base record) =
      setLink links type bindName base record := by
  unfold workLink
  cases isSet : links.linkedSet? type base with
  | none => rw [setLink_of_noSet isSet]; rfl
  | some collection =>
      rw [setLink_of_linkedSet? isSet]
      match linkedFields type base with
      | [] => rfl
      | [field] => exact outcome_attempt (setSingleLink bindName collection field) record
      | first :: second :: others =>
          exact outcome_workCompositeLink_nil bindName collection (first :: second :: others)
            record

theorem outcome_workFieldLink {links : Links} {type : ComplexType} {field : Field}
    (inner : ∀ inner, field.type = .complex inner →
      ∀ record, outcome (workLinks links inner record) = setLinks links inner record)
    (record : Record) :
    outcome (workFieldLink links type field record) = setFieldLink links type record field := by
  unfold workFieldLink setFieldLink
  cases bindBase? field.name with
  | some base => exact outcome_workLink links type field.name base record
  | none =>
      cases isType : field.type with
      | complex type =>
          simp only [workInnerLinks, setInnerLinks_eq, inField]
          cases record.get? field.name with
          | none => rfl
          | some value => rw [outcome_within, outcome_onRecords (inner type isType)]
      | _ => simp only [workInnerLinks, setInnerLinks]; rfl

/-- When all goes well, the copy becomes what setting the links gives, and when it does not,
the fault is the same. -/
theorem outcome_workLinks (links : Links) (type : ComplexType) (record : Record) :
    outcome (workLinks links type record) = setLinks links type record := by
  induction type using ComplexType.induction generalizing record with
  | step type ih =>
      rw [workLinks_eq, setLinks_eq]
      have steps (fields : List Field) (subset : fields ⊆ type.fields) (record : Record) :
          outcome (fields.forM (workFieldLink links type) record) =
            fields.foldlM (setFieldLink links type) record := by
        induction fields generalizing record with
        | nil => rfl
        | cons field rest ihRest =>
            obtain ⟨isMember, subset⟩ := List.cons_subset.mp subset
            rw [List.forM, outcome_bind, List.foldlM_cons,
              outcome_workFieldLink (ih field isMember)]
            simp only [ihRest subset]
      exact steps type.fields (List.Subset.refl _) record

end OData.Body
