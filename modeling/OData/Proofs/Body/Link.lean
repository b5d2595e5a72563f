/-
# The link of one bind field

Setting a link either leaves the record as it is, because there is nothing to link, or
puts what the keys in the record make into the bind field and clears the fields these
keys came from. All that is proved about links later on goes back to this alternative,
`setLink_cases`; the keys of a composite link are taken out of the record one by one, and
`takeKeyParts_ok` says what that comes to.
-/

import OData.Body.Link
import OData.Proofs.Outcome
import OData.Proofs.Record
import Mathlib.Data.List.Forall2
import Mathlib.Data.List.Nodup

namespace OData.Body

open OData.Record (ChangesOnly)

/-! ## Bind fields -/

/-- A bind field is named for its base. -/
theorem bindBase?_eq_some_iff {name base : String} :
    bindBase? name = some base ↔ name = base ++ bindMark := by
  unfold bindBase?
  dsimp only
  split
  · rename_i isSuffix
    obtain ⟨front, split⟩ := List.isSuffixOf_iff_suffix.mp isSuffix
    rw [← split, List.length_append, Nat.add_sub_cancel, List.take_left, Option.some.injEq,
      ← String.toList_inj, ← String.toList_inj, String.toList_ofList, String.toList_append,
      ← split, List.append_left_inj]
  · rename_i noSuffix
    simp only [reduceCtorEq, false_iff]
    rintro rfl
    apply noSuffix
    rw [List.isSuffixOf_iff_suffix, String.toList_append]
    exact List.suffix_append _ _

/-- The fields that carry the key for a base are those that name it. -/
theorem mem_linkedFields {type : ComplexType} {base : String} {field : Field} :
    field ∈ linkedFields type base ↔ field ∈ type.fields ∧ field.foreignName = some base := by
  simp [linkedFields]

theorem nodup_linkedFields {type : ComplexType} (distinct : (type.fields.map Field.name).Nodup)
    (base : String) : ((linkedFields type base).map Field.name).Nodup :=
  distinct.sublist (List.filter_sublist.map Field.name)

/-! ## What keys make -/

/-- The entity set of the entities that are linked through a base: none when the base is
no complex field, or has no set to refer to. -/
def Links.linkedSet? (links : Links) (type : ComplexType) (base : String) : Option String :=
  ((type.field? base).filter Field.isComplex).bind (links.collection? type)

/-- The field is part of a composite key, and the record has a value for it. -/
def givesPart (record : Record) (field : Field) : Bool :=
  field.foreignKey.isSome && (record.value? field.name).isSome

theorem givesNone_of_filter_eq_nil {record : Record} {fields : List Field}
    (noParts : fields.filter (givesPart record) = []) {field : Field}
    (isMember : field ∈ fields) : givesPart record field = false :=
  Bool.eq_false_iff.mpr (List.filter_eq_nil_iff.mp noParts field isMember)

/-- What a field adds to a composite key: the name of the remote field and the key. -/
def IsKeyPart (record : Record) (field : Field) (part : String) : Prop :=
  ∃ remote value key, field.remoteField = .ok (some remote) ∧
    record.value? field.name = some value ∧ keyLiteral field value = .ok key ∧
    part = remote ++ "=" ++ key

/-- What the keys in a record make of a link that these fields carry the key of: the
value of the bind field, and the fields whose keys are in it. -/
inductive MakesLink (collection : String) (record : Record) :
    List Field → Value → List Field → Prop where
  /-- A single key makes a reference. -/
  | key {field : Field} {value : Value} {key : String}
      (held : record.value? field.name = some value) (single : value.items? = none)
      (written : keyLiteral field value = .ok key) :
      MakesLink collection record [field] (reference collection key) [field]
  /-- A list of keys makes a list of references, in order; its nulls make none. -/
  | keys {field : Field} {items : List Value} {keys : List String}
      (held : record.get? field.name = some (.list items))
      (written : List.Forall₂ (fun item key => keyLiteral field item = .ok key)
        (items.filter fun item => !item.isNull) keys) :
      MakesLink collection record [field] (.list (keys.map (reference collection))) [field]
  /-- The parts of a composite key make one reference, if there are any. -/
  | parts {fields : List Field} {parts : List String} (several : 2 ≤ fields.length)
      (mapped : ∀ field ∈ fields, ∃ remote, field.remoteField = .ok remote)
      (written : List.Forall₂ (IsKeyPart record) (fields.filter (givesPart record)) parts)
      (some : parts ≠ []) :
      MakesLink collection record fields (reference collection (",".intercalate parts))
        (fields.filter (givesPart record))

/-- The fields hold nothing that a link could be made of. -/
def MakesNothing (record : Record) : List Field → Prop
  | [] => True
  | [field] => record.value? field.name = none
  | fields => ∀ field ∈ fields, (∃ remote, field.remoteField = .ok remote) ∧
      givesPart record field = false

/-- The bind field holds a link, and the fields it was made of are null. -/
structure SetsLink (bindName : String) (value : Value) (used : List Field)
    (before after : Record) : Prop where
  stored : after.get? bindName = some value
  cleared : ∀ field ∈ used, after.get? field.name = some .null
  changes : ChangesOnly (bindName :: used.map Field.name) before after

theorem MakesLink.used_subset {collection : String} {record : Record} {fields used : List Field}
    {value : Value} (makes : MakesLink collection record fields value used) : used ⊆ fields := by
  cases makes with
  | key => exact List.Subset.refl _
  | keys => exact List.Subset.refl _
  | parts => exact List.filter_subset_self _

/-- Fields whose keys are not in the link keep their values. -/
theorem SetsLink.kept {bindName : String} {value : Value} {used fields : List Field}
    {before after : Record} (sets : SetsLink bindName value used before after)
    (distinct : (fields.map Field.name).Nodup) (subset : used ⊆ fields) {field : Field}
    (isMember : field ∈ fields) (unused : field ∉ used) (apart : field.name ≠ bindName) :
    after.get? field.name = before.get? field.name := by
  apply sets.changes.kept
  rw [List.mem_cons, not_or]
  refine ⟨apart, fun isUsed => ?_⟩
  obtain ⟨other, isOther, same⟩ := List.mem_map.mp isUsed
  exact unused (List.inj_on_of_nodup_map distinct (subset isOther) isMember same ▸ isOther)

/-- What keys make depends on the fields that carry keys only. -/
theorem MakesLink.congr {collection : String} {record other : Record} {fields used : List Field}
    {value : Value} (makes : MakesLink collection record fields value used)
    (same : ∀ field ∈ fields, record.get? field.name = other.get? field.name) :
    MakesLink collection other fields value used := by
  cases makes with
  | key held single written =>
      rw [Record.value?_congr (same _ List.mem_cons_self)] at held
      exact .key held single written
  | keys held written =>
      rw [same _ List.mem_cons_self] at held
      exact .keys held written
  | parts several mapped written some =>
      have gives : fields.filter (givesPart record) = fields.filter (givesPart other) := by
        apply List.filter_congr
        intro field isMember
        rw [givesPart, givesPart, Record.value?_congr (same field isMember)]
      rw [gives] at written ⊢
      refine .parts several mapped ?_ some
      have held : ∀ field ∈ fields.filter (givesPart other),
          record.get? field.name = other.get? field.name :=
        fun field isMember => same field (List.mem_of_mem_filter isMember)
      refine ((List.forall₂_and_left _ _).mpr ⟨held, written⟩).imp ?_
      rintro field part ⟨same, remote, value, key, isRemote, isValue, isKey, rfl⟩
      exact ⟨remote, value, key, isRemote, Record.value?_congr same ▸ isValue, isKey, rfl⟩

theorem MakesNothing.congr {record other : Record} {fields : List Field}
    (nothing : MakesNothing record fields)
    (same : ∀ field ∈ fields, record.get? field.name = other.get? field.name) :
    MakesNothing other fields := by
  match fields with
  | [] => trivial
  | [field] => exact (Record.value?_congr (same field List.mem_cons_self)).symm.trans nothing
  | first :: second :: others =>
      intro field isMember
      obtain ⟨mapped, givesNone⟩ := nothing field isMember
      rw [givesPart, Record.value?_congr (same field isMember)] at givesNone
      exact ⟨mapped, givesNone⟩

/-! ## Taking keys out of a record -/

theorem isSome_of_remoteField {field : Field} {remote : Option String}
    (isRemote : field.remoteField = .ok remote) : remote.isSome = field.foreignKey.isSome := by
  unfold Field.remoteField at isRemote
  split at isRemote
  · rename_i noKey
    rw [← Except.ok.inj isRemote, noKey]
  · rename_i mapping isKey
    split at isRemote
    · rw [← Except.ok.inj isRemote, isKey]
      rfl
    · cases isRemote

/-- What is left when the keys of other fields are looked at: the field is null now. -/
theorem givesPart_set_of_ne {field other : Field} (different : other.name ≠ field.name)
    (record : Record) :
    givesPart (record.set field.name .null) other = givesPart record other := by
  rw [givesPart, givesPart, Record.value?_congr (Record.get?_set_of_ne record different .null)]

/-- The first of several fields gives a part, and is null for the others, or it gives none. -/
theorem takeKeyParts_cons_ok {field : Field} {rest : List Field} {record left : Record}
    {parts : List String} (isOk : takeKeyParts (field :: rest) record = .ok (parts, left)) :
    (∃ part others, givesPart record field = true ∧ IsKeyPart record field part ∧
        parts = part :: others ∧
        takeKeyParts rest (record.set field.name .null) = .ok (others, left)) ∨
      (∃ remote, field.remoteField = .ok remote) ∧ givesPart record field = false ∧
        takeKeyParts rest record = .ok (parts, left) := by
  rw [takeKeyParts] at isOk
  obtain ⟨mapping, isRemote, isOk⟩ := exists_of_bind_ok isOk
  have isMapped := isSome_of_remoteField isRemote
  rw [givesPart, ← isMapped]
  cases mapping with
  | none => exact .inr ⟨⟨_, isRemote⟩, rfl, isOk⟩
  | some remote =>
      cases held : record.value? field.name with
      | none =>
          rw [held] at isOk
          exact .inr ⟨⟨_, isRemote⟩, rfl, isOk⟩
      | some value =>
          rw [held] at isOk
          obtain ⟨key, isKey, isOk⟩ := exists_of_bind_ok isOk
          obtain ⟨⟨others, after⟩, areOthers, isOk⟩ := exists_of_bind_ok isOk
          cases isOk
          have isPart : IsKeyPart record field (remote ++ "=" ++ key) :=
            ⟨remote, value, key, isRemote, held, isKey, rfl⟩
          exact .inl ⟨_, others, rfl, isPart, rfl, areOthers⟩

/-- The parts are those of the fields that have a mapping and a value, in order, and
nothing but these fields is touched. -/
theorem takeKeyParts_ok {fields : List Field} (distinct : (fields.map Field.name).Nodup)
    {record left : Record} {parts : List String}
    (isOk : takeKeyParts fields record = .ok (parts, left)) :
    (∀ field ∈ fields, ∃ remote, field.remoteField = .ok remote) ∧
      List.Forall₂ (IsKeyPart record) (fields.filter (givesPart record)) parts ∧
      (∀ field ∈ fields.filter (givesPart record), left.get? field.name = some .null) ∧
      ChangesOnly ((fields.filter (givesPart record)).map Field.name) record left := by
  induction fields generalizing record parts with
  | nil =>
      cases isOk
      exact ⟨nofun, .nil, nofun, ChangesOnly.refl left⟩
  | cons field rest ih =>
      obtain ⟨isOther, restDistinct⟩ := List.nodup_cons.mp distinct
      rcases takeKeyParts_cons_ok isOk with
        ⟨part, others, gives, isPart, rfl, isRest⟩ | ⟨mapped, givesNone, isRest⟩
      · have apart : ∀ other ∈ rest.filter (givesPart record), other.name ≠ field.name :=
          fun other isMember same =>
            isOther (same ▸ List.mem_map_of_mem (List.mem_of_mem_filter isMember))
        have sameRest : rest.filter (givesPart (record.set field.name .null)) =
            rest.filter (givesPart record) := by
          apply List.filter_congr
          intro other isMember
          apply givesPart_set_of_ne
          exact fun same => isOther (same ▸ List.mem_map_of_mem isMember)
        obtain ⟨restMapped, written, cleared, changes⟩ := ih restDistinct isRest
        rw [sameRest] at written cleared changes
        rw [List.filter_cons_of_pos gives]
        refine ⟨?_, ?_, ?_, ?_⟩
        · obtain ⟨remote, -, -, isRemote, -⟩ := isPart
          exact List.forall_mem_cons.mpr ⟨⟨_, isRemote⟩, restMapped⟩
        · refine .cons isPart (((List.forall₂_and_left _ _).mpr ⟨apart, written⟩).imp ?_)
          rintro other part ⟨different, remote, value, key, isRemote, isValue, isKey, rfl⟩
          rw [Record.value?_congr (Record.get?_set_of_ne record different .null)] at isValue
          exact ⟨remote, value, key, isRemote, isValue, isKey, rfl⟩
        · refine List.forall_mem_cons.mpr ⟨?_, cleared⟩
          rw [changes.kept, Record.get?_set_self]
          intro isMember
          obtain ⟨other, isMember, same⟩ := List.mem_map.mp isMember
          exact apart other isMember same
        · exact (ChangesOnly.set List.mem_cons_self record .null).trans
            (changes.mono (List.subset_cons_self _ _))
      · obtain ⟨restMapped, others⟩ := ih restDistinct isRest
        rw [List.filter_cons_of_neg (by simp [givesNone])]
        exact ⟨List.forall_mem_cons.mpr ⟨mapped, restMapped⟩, others⟩

theorem takeKeyParts_changes {fields : List Field} {record left : Record} {parts : List String}
    (isOk : takeKeyParts fields record = .ok (parts, left)) :
    ChangesOnly (fields.map Field.name) record left := by
  induction fields generalizing record parts with
  | nil =>
      cases isOk
      exact ChangesOnly.refl left
  | cons field rest ih =>
      rcases takeKeyParts_cons_ok isOk with ⟨part, others, -, -, -, isRest⟩ | ⟨-, -, isRest⟩
      · exact (ChangesOnly.set List.mem_cons_self record .null).trans
          ((ih isRest).mono (List.subset_cons_self _ _))
      · exact (ih isRest).mono (List.subset_cons_self _ _)

/-- A value is left where it was, or was a key and is taken. -/
theorem takeKeyParts_kept_or_null {fields : List Field} {record left : Record}
    {parts : List String} (isOk : takeKeyParts fields record = .ok (parts, left))
    (name : String) : left.get? name = record.get? name ∨ left.get? name = some .null := by
  induction fields generalizing record parts with
  | nil =>
      cases isOk
      exact .inl rfl
  | cons field rest ih =>
      rcases takeKeyParts_cons_ok isOk with ⟨part, others, -, -, -, isRest⟩ | ⟨-, -, isRest⟩
      · rcases ih isRest with same | isNull
        · by_cases isField : name = field.name
          · right
            rw [same, isField, Record.get?_set_self]
          · exact .inl (same.trans (Record.get?_set_of_ne record isField .null))
        · exact .inr isNull
      · exact ih isRest

theorem takeKeyParts_of_none {fields : List Field} {record : Record}
    (nothing : ∀ field ∈ fields, (∃ remote, field.remoteField = .ok remote) ∧
      givesPart record field = false) : takeKeyParts fields record = .ok ([], record) := by
  induction fields with
  | nil => rfl
  | cons field rest ih =>
      obtain ⟨⟨⟨remote?, isRemote⟩, givesNone⟩, others⟩ := List.forall_mem_cons.mp nothing
      have isMapped := isSome_of_remoteField isRemote
      rw [givesPart, ← isMapped] at givesNone
      rw [takeKeyParts, isRemote]
      cases remote? with
      | none => exact ih others
      | some remote =>
          cases held : record.value? field.name with
          | none => exact ih others
          | some value =>
              rw [held] at givesNone
              cases givesNone

/-! ## Setting a link -/

/-- One field has no key, or what it has is stored and the field is null. -/
theorem setSingleLink_cases {bindName collection : String} {field : Field}
    {record after : Record} (isOk : setSingleLink bindName collection field record = .ok after) :
    (after = record ∧ record.value? field.name = none) ∨
      ∃ value, MakesLink collection record [field] value [field] ∧
        after = (record.set bindName value).set field.name .null := by
  unfold setSingleLink at isOk
  split at isOk
  · rename_i absent
    cases isOk
    exact .inl ⟨rfl, Record.value?_eq_none_iff.mpr (.inl absent)⟩
  · rename_i isNull
    cases isOk
    exact .inl ⟨rfl, Record.value?_of_null isNull⟩
  · rename_i items held
    rw [mapM_map_result] at isOk
    obtain ⟨references, areReferences, isOk⟩ := exists_of_bind_ok isOk
    obtain ⟨keys, areKeys, rfl⟩ := exists_of_map_ok areReferences
    cases isOk
    exact .inr ⟨_, .keys held (forall₂_of_mapM_ok areKeys), rfl⟩
  · rename_i value noNull noList held
    obtain ⟨key, isKey, isOk⟩ := exists_of_bind_ok isOk
    cases isOk
    refine .inr ⟨_, .key (Record.value?_eq_some_iff.mpr ⟨held, ?_⟩) ?_ isKey, rfl⟩
    · cases value <;> first | rfl | exact (noNull rfl).elim
    · cases value <;> first | rfl | exact (noList _ rfl).elim

theorem setsLink_single {bindName : String} {field : Field} (apart : field.name ≠ bindName)
    (record : Record) (value : Value) :
    SetsLink bindName value [field] record
      ((record.set bindName value).set field.name .null) := by
  refine ⟨?_, ?_, ?_⟩
  · rw [Record.get?_set_of_ne _ apart.symm, Record.get?_set_self]
  · exact List.forall_mem_singleton.mpr (Record.get?_set_self _ _ _)
  · exact (ChangesOnly.set List.mem_cons_self record value).trans
      (ChangesOnly.set (by simp) _ .null)

/-- Several fields have no part of a key, or what they have is stored and they are null. -/
theorem setCompositeLink_cases {bindName collection : String} {fields : List Field}
    (several : 2 ≤ fields.length) (distinct : (fields.map Field.name).Nodup)
    (apart : ∀ field ∈ fields, field.name ≠ bindName) {record after : Record}
    (isOk : setCompositeLink bindName collection fields record = .ok after) :
    (after = record ∧ ∀ field ∈ fields, (∃ remote, field.remoteField = .ok remote) ∧
        givesPart record field = false) ∨
      ∃ value used, MakesLink collection record fields value used ∧
        SetsLink bindName value used record after := by
  obtain ⟨⟨parts, left⟩, taken, isOk⟩ := exists_of_bind_ok isOk
  obtain ⟨mapped, written, cleared, changes⟩ := takeKeyParts_ok distinct taken
  cases parts with
  | nil =>
      have nothing : ∀ field ∈ fields, (∃ remote, field.remoteField = .ok remote) ∧
          givesPart record field = false := by
        intro field isMember
        have noParts := List.forall₂_nil_right_iff.mp written
        exact ⟨mapped field isMember, givesNone_of_filter_eq_nil noParts isMember⟩
      rw [takeKeyParts_of_none nothing] at taken
      cases taken
      cases isOk
      exact .inl ⟨rfl, nothing⟩
  | cons part others =>
      cases isOk
      refine .inr ⟨_, _, .parts several mapped written (List.cons_ne_nil _ _), ?_, ?_, ?_⟩
      · exact Record.get?_set_self _ _ _
      · intro field isMember
        rw [Record.get?_set_of_ne _ (apart field (List.mem_of_mem_filter isMember))]
        exact cleared field isMember
      · exact (changes.mono (List.subset_cons_self _ _)).trans
          (ChangesOnly.set List.mem_cons_self left _)

theorem setLink_of_linkedSet? {links : Links} {type : ComplexType} {base collection : String}
    (leads : links.linkedSet? type base = some collection) (bindName : String) (record : Record) :
    setLink links type bindName base record =
      match linkedFields type base with
      | [] => .ok record
      | [field] => setSingleLink bindName collection field record
      | fields => setCompositeLink bindName collection fields record := by
  obtain ⟨sibling, isSibling, isSet⟩ := Option.bind_eq_some_iff.mp leads
  unfold setLink
  rw [isSibling]
  dsimp only
  generalize links.collection? type sibling = set? at isSet ⊢
  subst isSet
  rfl

theorem setLink_of_noSet {links : Links} {type : ComplexType} {base : String}
    (leads : links.linkedSet? type base = none) (bindName : String) (record : Record) :
    setLink links type bindName base record = .ok record := by
  unfold setLink
  cases isSibling : (type.field? base).filter Field.isComplex with
  | none => rfl
  | some sibling =>
      rw [Links.linkedSet?, isSibling, Option.bind_some] at leads
      simp only [leads]

theorem setLink_of_several {links : Links} {type : ComplexType} {base collection : String}
    (leads : links.linkedSet? type base = some collection)
    (several : 2 ≤ (linkedFields type base).length) (bindName : String) (record : Record) :
    setLink links type bindName base record =
      setCompositeLink bindName collection (linkedFields type base) record := by
  rw [setLink_of_linkedSet? leads]
  generalize linkedFields type base = fields at several ⊢
  match fields with
  | first :: second :: others => rfl

/-- Setting a link takes keys, and changes nothing else but the bind field. -/
theorem setLink_kept_or_null {links : Links} {type : ComplexType} {bindName base : String}
    {record after : Record} (isOk : setLink links type bindName base record = .ok after)
    {name : String} (apart : name ≠ bindName) :
    after.get? name = record.get? name ∨ after.get? name = some .null := by
  cases leads : links.linkedSet? type base with
  | none =>
      rw [setLink_of_noSet leads] at isOk
      cases isOk
      exact .inl rfl
  | some collection =>
      rw [setLink_of_linkedSet? leads] at isOk
      generalize linkedFields type base = fields at isOk
      match fields with
      | [] =>
          cases isOk
          exact .inl rfl
      | [field] =>
          rcases setSingleLink_cases isOk with ⟨rfl, -⟩ | ⟨value, -, rfl⟩
          · exact .inl rfl
          · by_cases isField : name = field.name
            · right
              rw [isField, Record.get?_set_self]
            · left
              rw [Record.get?_set_of_ne _ isField, Record.get?_set_of_ne _ apart]
      | first :: second :: others =>
          obtain ⟨⟨parts, left⟩, taken, isOk⟩ := exists_of_bind_ok isOk
          have kept := takeKeyParts_kept_or_null taken name
          dsimp only at isOk
          split at isOk
          · cases isOk
            exact kept
          · cases isOk
            rwa [Record.get?_set_of_ne _ apart]

/-- Setting a link changes the bind field and the fields that carry keys for it, whatever
these fields are. -/
theorem setLink_changes {links : Links} {type : ComplexType} {bindName base : String}
    {record after : Record} (isOk : setLink links type bindName base record = .ok after) :
    ChangesOnly (bindName :: (linkedFields type base).map Field.name) record after := by
  cases leads : links.linkedSet? type base with
  | none =>
      rw [setLink_of_noSet leads] at isOk
      cases isOk
      exact ChangesOnly.refl record
  | some collection =>
      rw [setLink_of_linkedSet? leads] at isOk
      generalize linkedFields type base = fields at isOk ⊢
      match fields with
      | [] =>
          cases isOk
          exact ChangesOnly.refl record
      | [field] =>
          rcases setSingleLink_cases isOk with ⟨rfl, -⟩ | ⟨value, -, rfl⟩
          · exact ChangesOnly.refl after
          · exact (ChangesOnly.set List.mem_cons_self record value).trans
              (ChangesOnly.set (by simp) _ .null)
      | first :: second :: others =>
          obtain ⟨⟨parts, left⟩, taken, isOk⟩ := exists_of_bind_ok isOk
          have changes := (takeKeyParts_changes taken).mono (List.subset_cons_self bindName _)
          cases parts with
          | nil =>
              cases isOk
              exact changes
          | cons part others =>
              cases isOk
              exact changes.trans (ChangesOnly.set List.mem_cons_self left _)

/-- Setting a link changes nothing, or it stores what the keys in the record make. -/
theorem setLink_cases {links : Links} {type : ComplexType} {bindName base : String}
    (distinct : ((linkedFields type base).map Field.name).Nodup)
    (apart : ∀ field ∈ linkedFields type base, field.name ≠ bindName) {record after : Record}
    (isOk : setLink links type bindName base record = .ok after) :
    (after = record ∧
        (links.linkedSet? type base = none ∨ MakesNothing record (linkedFields type base))) ∨
      ∃ collection value used, links.linkedSet? type base = some collection ∧
        MakesLink collection record (linkedFields type base) value used ∧
        SetsLink bindName value used record after := by
  cases leads : links.linkedSet? type base with
  | none =>
      rw [setLink_of_noSet leads] at isOk
      cases isOk
      exact .inl ⟨rfl, .inl rfl⟩
  | some collection =>
      rw [setLink_of_linkedSet? leads] at isOk
      generalize linkedFields type base = fields at distinct apart isOk ⊢
      match fields with
      | [] =>
          cases isOk
          exact .inl ⟨rfl, .inr trivial⟩
      | [field] =>
          rcases setSingleLink_cases isOk with ⟨same, nothing⟩ | ⟨value, makes, rfl⟩
          · exact .inl ⟨same, .inr nothing⟩
          · exact .inr ⟨collection, value, [field], rfl, makes,
              setsLink_single (apart field List.mem_cons_self) record value⟩
      | first :: second :: others =>
          have several : 2 ≤ (first :: second :: others).length := by simp
          rcases setCompositeLink_cases several distinct apart isOk with
            ⟨same, nothing⟩ | ⟨value, used, makes, sets⟩
          · exact .inl ⟨same, .inr nothing⟩
          · exact .inr ⟨collection, value, used, rfl, makes, sets⟩

/-- Where there is nothing to link, nothing is done. -/
theorem setLink_of_makesNothing {type : ComplexType} {base : String} {record : Record}
    (nothing : MakesNothing record (linkedFields type base)) (links : Links) (bindName : String) :
    setLink links type bindName base record = .ok record := by
  cases leads : links.linkedSet? type base with
  | none => exact setLink_of_noSet leads bindName record
  | some collection =>
      rw [setLink_of_linkedSet? leads]
      generalize linkedFields type base = fields at nothing ⊢
      match fields with
      | [] => rfl
      | [field] =>
          rcases Record.value?_eq_none_iff.mp nothing with absent | isNull
          · simp only [setSingleLink, absent]
          · simp only [setSingleLink, isNull]
      | first :: second :: others =>
          simp only [setCompositeLink, takeKeyParts_of_none nothing]
          rfl

/-- After a link was set there is nothing more to link. -/
theorem MakesLink.makesNothing {collection bindName : String} {record after : Record}
    {fields used : List Field} {value : Value}
    (makes : MakesLink collection record fields value used)
    (sets : SetsLink bindName value used record after)
    (distinct : (fields.map Field.name).Nodup)
    (apart : ∀ field ∈ fields, field.name ≠ bindName) : MakesNothing after fields := by
  cases makes with
  | key => exact Record.value?_of_null (sets.cleared _ List.mem_cons_self)
  | keys => exact Record.value?_of_null (sets.cleared _ List.mem_cons_self)
  | parts several mapped written some =>
      have nothing : ∀ field ∈ fields, (∃ remote, field.remoteField = .ok remote) ∧
          givesPart after field = false := by
        intro field isMember
        refine ⟨mapped field isMember, ?_⟩
        by_cases gives : givesPart record field = true
        · have isNull := sets.cleared field (List.mem_filter.mpr ⟨isMember, gives⟩)
          rw [givesPart, Record.value?_of_null isNull]
          simp
        · have unused : field ∉ fields.filter (givesPart record) :=
            fun isUsed => gives (List.mem_filter.mp isUsed).2
          have kept := sets.kept distinct (List.filter_subset_self _) isMember unused
            (apart field isMember)
          rw [givesPart, Record.value?_congr kept]
          exact Bool.eq_false_iff.mpr gives
      match fields with
      | first :: second :: others => exact nothing

end OData.Body
