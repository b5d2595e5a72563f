/-
# Composite keys read back

The key of a link that several fields carry is written as parts `remote=key` with commas
between them. A text that is a key may hold commas, quotes, parentheses and equals signs
itself, but it stands in quotes, and so nothing in it is taken for a delimiter. The reader
here knows no more than that: it cuts at the commas outside literals, and each part at its
first equals sign. It finds the pairs of remote names and keys that the link was made of.

That holds for the step of the bind field in whatever record its turn comes. In the whole
record links may be linked themselves. A bind field that is a key of another link is null
once that link was set. And a field that carries a key for this link and is the bind field
of another one may get its value on the way, so that the reference names a key that was not
in the record, and two records with different keys get the same reference. If there is no
such field, a reference is read as the keys that the record had at first.
-/

import OData.Proofs.Body.Linking
import OData.Proofs.Filter.Word
import OData.Proofs.Text.Search

namespace OData.Body

open OData.Filter (IsWord Symbol)
open OData.Filter.Symbol (Spells)

/-! ## Reading references -/

/-- What a symbol stands for: a literal for its text. -/
def symbolChars : Symbol → List Char
  | .char c => [c]
  | .literal text => text.toList

/-- The name and the key of a part, cut at the first equals sign. -/
def readPart (part : List Symbol) : String × String :=
  let name := part.takeWhile (· != .char '=')
  let key := (part.dropWhile (· != .char '=')).tail
  (String.ofList (name.flatMap symbolChars), String.ofList (key.flatMap symbolChars))

/-- The entity set of a reference, and the names and keys of the parts between its
parentheses, cut at the commas outside literals. -/
def readReference? (text : String) : Option (String × List (String × String)) := do
  let (front, back) ← Text.cut? "(" text
  let symbols ← Symbol.ofText? (String.ofList back.toList.dropLast)
  if front.toList.head? = some '/' ∧ back.toList.getLast? = some ')' then
    return (String.ofList front.toList.tail, (symbols.splitOn (.char ',')).map readPart)
  else none

/-! ## Keys -/

/-- The name of a remote field, free of what delimits parts and keys. -/
def IsRemoteName (remote : String) : Prop :=
  ∀ c ∈ ['=', ',', '\'', '(', ')'], c ∉ remote.toList

instance (remote : String) : Decidable (IsRemoteName remote) :=
  -- By the list, for there are too many characters to try them all.
  List.decidableBAll (fun c => c ∉ remote.toList) _

/-- A text in a field for texts, whatever it is, or an integer, a truth value or an
identifier in a field of that type. -/
inductive IsKey : ValueType → Value → Prop where
  | text (value : String) : IsKey .string (.scalar (.text value))
  | integer (value : Int64) : IsKey .integer (.scalar (.integer value))
  | boolean (value : Bool) : IsKey .boolean (.scalar (.boolean value))
  | uuid (value : Uuid) : IsKey .guid (.scalar (.uuid value))

/-- Those of the fields that have a value have a key. -/
def HoldsKeys (fields : List Field) (record : Record) : Prop :=
  ∀ field ∈ fields, ∀ value, record.value? field.name = some value → IsKey field.type value

theorem HoldsKeys.nil {record : Record} : HoldsKeys [] record := List.forall_mem_nil _

theorem HoldsKeys.absent {field : Field} {rest : List Field} {record : Record}
    (noValue : record.value? field.name = none) (others : HoldsKeys rest record) :
    HoldsKeys (field :: rest) record := by
  refine List.forall_mem_cons.mpr ⟨fun value held => ?_, others⟩
  cases noValue.symm.trans held

theorem HoldsKeys.present {field : Field} {rest : List Field} {record : Record} {value : Value}
    (held : record.value? field.name = some value) (isKey : IsKey field.type value)
    (others : HoldsKeys rest record) : HoldsKeys (field :: rest) record := by
  refine List.forall_mem_cons.mpr ⟨fun other isOther => ?_, others⟩
  cases held.symm.trans isOther
  exact isKey

/-- The remote name of a field and the text of its value, if it has both. -/
def keyPair? (record : Record) (field : Field) : Option (String × String) :=
  match record.value? field.name, field.remoteField with
  | some value, .ok (some remote) =>
      (field.type.text value).toOption.map fun text => (remote, text)
  | _, _ => none

/-- The pairs of the fields that have a value, in order. -/
def keyPairs (fields : List Field) (record : Record) : List (String × String) :=
  fields.filterMap (keyPair? record)

theorem spells_plain {text : String} (unquoted : '\'' ∉ text.toList) :
    Spells text.toList (Symbol.plain text) := by
  simpa using Symbol.spells_nil.plain_append unquoted

theorem flatMap_symbolChars_plain (text : String) :
    (Symbol.plain text).flatMap symbolChars = text.toList := by
  rw [Symbol.plain, List.flatMap_map]
  exact List.flatMap_singleton' text.toList

theorem not_mem_plain {c : Char} {text : String} (absent : c ∉ text.toList) :
    Symbol.char c ∉ Symbol.plain text := by
  simpa [Symbol.plain] using absent

/-- A word stands for itself and holds no commas. -/
theorem spells_word {text : String} (word : IsWord text) :
    Spells text.toList (Symbol.plain text) ∧
      (Symbol.plain text).flatMap symbolChars = text.toList ∧
      Symbol.char ',' ∉ Symbol.plain text := by
  have noComma : ',' ∉ text.toList := fun isMember => absurd (word.2 _ isMember) (by decide)
  exact ⟨spells_plain word.undelimited.1, flatMap_symbolChars_plain text, not_mem_plain noComma⟩

/-- A key is read as the text of the value, and no comma in it delimits anything. -/
theorem exists_symbols_of_isKey {field : Field} {value : Value} (isKey : IsKey field.type value) :
    ∃ text key symbols, field.type.text value = .ok text ∧ keyLiteral field value = .ok key ∧
      Spells key.toList symbols ∧ symbols.flatMap symbolChars = text.toList ∧
      Symbol.char ',' ∉ symbols := by
  unfold keyLiteral
  cases isType : field.type <;> rw [isType] at isKey <;> cases isKey
  case string.text value =>
      have spells := Symbol.spells_quote value
      refine ⟨value, Text.quote value, [.literal value], rfl, rfl, spells, ?_, ?_⟩
      · simp [symbolChars]
      · simp
  case integer.integer value =>
      exact ⟨_, _, _, rfl, rfl, spells_word (Filter.isWord_toString value.toInt)⟩
  case boolean.boolean value =>
      refine ⟨_, _, _, rfl, rfl, spells_word ?_⟩
      cases value <;> decide
  case guid.uuid value =>
      exact ⟨_, _, _, rfl, rfl, spells_word (Filter.isWord_uuid value)⟩

/-! ## Parts -/

/-- The text is read as a part of a reference that stands for a pair. -/
def ReadsAs (part : String) (pair : String × String) : Prop :=
  ∃ symbols, Spells part.toList symbols ∧ Symbol.char ',' ∉ symbols ∧ readPart symbols = pair

/-- A part that a field gives is read as the pair of the field. -/
theorem keyPair?_of_part {record : Record} {field : Field} {part remote : String}
    (isPart : IsKeyPart record field part) (isRemote : field.remoteField = .ok (some remote))
    (plain : IsRemoteName remote)
    (holds : ∀ value, record.value? field.name = some value → IsKey field.type value) :
    ∃ pair, keyPair? record field = some pair ∧ ReadsAs part pair := by
  obtain ⟨_, value, key, sameRemote, held, isKey, rfl⟩ := isPart
  cases isRemote.symm.trans sameRemote
  obtain ⟨text, literal, symbols, isText, isLiteral, spells, stands, noComma⟩ :=
    exists_symbols_of_isKey (holds value held)
  cases isKey.symm.trans isLiteral
  refine ⟨(remote, text), ?_, Symbol.plain (remote ++ "=") ++ symbols, ?_, ?_, ?_⟩
  · simp only [keyPair?, held, isRemote, isText]
    rfl
  · rw [String.toList_append]
    apply spells.plain_append
    simpa using plain '\'' (by decide)
  · rw [List.mem_append, not_or]
    refine ⟨not_mem_plain ?_, noComma⟩
    simpa using plain ',' (by decide)
  · have noEquals := not_mem_plain (plain '=' (by decide))
    have split : Symbol.plain (remote ++ "=") ++ symbols =
        Symbol.plain remote ++ .char '=' :: symbols := by
      simp [Symbol.plain]
    rw [readPart, split, Text.takeWhile_append_stop noEquals, Text.dropWhile_append_stop noEquals]
    simp [flatMap_symbolChars_plain, stands]

theorem keyPair?_of_givesNone {record : Record} {field : Field} {remote : Option String}
    (isRemote : field.remoteField = .ok remote) (givesNone : givesPart record field = false) :
    keyPair? record field = none := by
  rw [givesPart, ← isSome_of_remoteField isRemote] at givesNone
  unfold keyPair?
  rw [isRemote]
  cases held : record.value? field.name with
  | none => rfl
  | some value =>
      rw [held] at givesNone
      cases remote with
      | none => rfl
      | some remote => cases givesNone

/-- The parts of a composite key are read as the pairs of its fields, one by one. -/
theorem readAs_keyPairs {fields : List Field} {record : Record} {parts : List String}
    (mapped : ∀ field ∈ fields, ∃ remote, field.remoteField = .ok (some remote) ∧
      IsRemoteName remote)
    (holds : HoldsKeys fields record)
    (written : List.Forall₂ (IsKeyPart record) (fields.filter (givesPart record)) parts) :
    List.Forall₂ ReadsAs parts (keyPairs fields record) := by
  induction fields generalizing parts with
  | nil =>
      cases written
      exact .nil
  | cons field rest ih =>
      obtain ⟨⟨remote, isRemote, plain⟩, restMapped⟩ := List.forall_mem_cons.mp mapped
      obtain ⟨fieldHolds, restHolds⟩ := List.forall_mem_cons.mp holds
      cases gives : givesPart record field with
      | true =>
          rw [List.filter_cons_of_pos gives] at written
          cases written with
          | cons isPart others =>
              obtain ⟨pair, isPair, reads⟩ := keyPair?_of_part isPart isRemote plain fieldHolds
              rw [keyPairs, List.filterMap_cons_some isPair]
              exact .cons reads (ih restMapped restHolds others)
      | false =>
          rw [List.filter_cons_of_neg (by simp [gives])] at written
          rw [keyPairs, List.filterMap_cons_none (keyPair?_of_givesNone isRemote gives)]
          exact ih restMapped restHolds written

/-- Parts that are joined by commas are cut apart there, and nowhere else. -/
theorem exists_symbols_of_parts {parts : List String} {pairs : List (String × String)}
    (reads : List.Forall₂ ReadsAs parts pairs) :
    ∃ pieces : List (List Symbol),
      Spells (",".intercalate parts).toList ([Symbol.char ','].intercalate pieces) ∧
        (∀ piece ∈ pieces, Symbol.char ',' ∉ piece) ∧ pieces.map readPart = pairs := by
  induction reads with
  | nil => exact ⟨[], Symbol.spells_nil, nofun, rfl⟩
  | @cons part pair parts pairs isRead others ih =>
      obtain ⟨symbols, spells, noComma, rfl⟩ := isRead
      obtain ⟨pieces, spellsRest, noCommas, rfl⟩ := ih
      refine ⟨symbols :: pieces, ?_, List.forall_mem_cons.mpr ⟨noComma, noCommas⟩, rfl⟩
      cases parts with
      | nil =>
          obtain rfl := List.map_eq_nil_iff.mp (List.forall₂_nil_left_iff.mp others)
          simpa using spells
      | cons second more =>
          have someMore : pieces ≠ [] := by
            rintro rfl
            cases others
          obtain ⟨piece, rest, rfl⟩ := List.exists_cons_of_ne_nil someMore
          have behindComma := spellsRest.plain_append (by decide : '\'' ∉ ",".toList)
          rw [String.intercalate_cons_cons, List.intercalate_cons_cons, String.append_assoc,
            List.append_assoc, String.toList_append, String.toList_append]
          exact spells.append behindComma (by simp)

/-- A reference is read as its set and as what stands between its parentheses. -/
theorem readReference?_of_ofText? {collection : String} (noGroup : '(' ∉ collection.toList)
    {key : String} {symbols : List Symbol} (isKey : Symbol.ofText? key = some symbols) :
    readReference? ("/" ++ collection ++ "(" ++ key ++ ")") =
      some (collection, (symbols.splitOn (.char ',')).map readPart) := by
  have inFront : '(' ∉ ("/" ++ collection).toList := by simpa using noGroup
  have isCut : Text.cut? "(" ("/" ++ collection ++ "(" ++ key ++ ")") =
      some ("/" ++ collection, key ++ ")") := by
    have cut := Text.cut?_of_not_mem inFront (key ++ ")")
    rwa [← String.append_assoc] at cut
  have inside : String.ofList (key ++ ")").toList.dropLast = key := by simp
  have isWrapped : ("/" ++ collection).toList.head? = some '/' ∧
      (key ++ ")").toList.getLast? = some ')' := by
    simp
  have set : String.ofList ("/" ++ collection).toList.tail = collection := by simp
  rw [readReference?, isCut]
  simp only [Option.bind_eq_bind, Option.bind_some, inside, isKey, if_pos isWrapped, set]
  rfl

/-- A reference to a composite key is read as its entity set and its pairs. -/
theorem readReference?_of_reads {collection : String} (noGroup : '(' ∉ collection.toList)
    {parts : List String} {pairs : List (String × String)}
    (reads : List.Forall₂ ReadsAs parts pairs) (nonempty : parts ≠ []) :
    readReference? ("/" ++ collection ++ "(" ++ ",".intercalate parts ++ ")") =
      some (collection, pairs) := by
  obtain ⟨pieces, spells, noCommas, rfl⟩ := exists_symbols_of_parts reads
  have somePieces : pieces ≠ [] := by
    rintro rfl
    exact nonempty (List.forall₂_nil_right_iff.mp reads)
  rw [readReference?_of_ofText? noGroup spells.ofText?,
    List.splitOn_intercalate _ noCommas somePieces]

/-! ## Composite links -/

/-- A bind field whose link several fields carry the key of, each under a remote name, with
an entity set to refer to. -/
structure IsComposite (links : Links) (type : ComplexType) (bind : Field)
    (base collection : String) : Prop where
  declared : bind ∈ type.fields
  isBind : bindBase? bind.name = some base
  leads : links.linkedSet? type base = some collection
  noGroup : '(' ∉ collection.toList
  several : 2 ≤ (linkedFields type base).length
  mapped : ∀ field ∈ linkedFields type base,
    ∃ remote, field.remoteField = .ok (some remote) ∧ IsRemoteName remote

/-- A bind field keeps what it has if there are no pairs, and else it gets a reference to
the entity set that is read as the pairs. -/
def GetsPairs (collection : String) (pairs : List (String × String))
    (before after : Option Value) : Prop :=
  if pairs = [] then after = before
  else ∃ text, after = some (.scalar (.text text)) ∧
    readReference? text = some (collection, pairs)

section

variable {links : Links} {type : ComplexType} {bind : Field} {base collection : String}

theorem IsComposite.gets_of_parts (composite : IsComposite links type bind base collection)
    {record : Record} (holds : HoldsKeys (linkedFields type base) record) {parts : List String}
    (written : List.Forall₂ (IsKeyPart record)
      ((linkedFields type base).filter (givesPart record)) parts) (nonempty : parts ≠ [])
    (before : Option Value) :
    GetsPairs collection (keyPairs (linkedFields type base) record) before
      (some (reference collection (",".intercalate parts))) := by
  have reads := readAs_keyPairs composite.mapped holds written
  have somePairs : keyPairs (linkedFields type base) record ≠ [] := by
    intro noPairs
    rw [noPairs] at reads
    exact nonempty (List.forall₂_nil_right_iff.mp reads)
  rw [GetsPairs, if_neg somePairs]
  exact ⟨_, rfl, readReference?_of_reads composite.noGroup reads nonempty⟩

theorem IsComposite.keeps_of_none (composite : IsComposite links type bind base collection)
    {record : Record} (noParts : (linkedFields type base).filter (givesPart record) = [])
    (before : Option Value) :
    GetsPairs collection (keyPairs (linkedFields type base) record) before before := by
  have noPairs : keyPairs (linkedFields type base) record = [] := by
    apply List.filterMap_eq_nil_iff.mpr
    intro field isLinked
    obtain ⟨remote, isRemote, -⟩ := composite.mapped field isLinked
    exact keyPair?_of_givesNone isRemote (givesNone_of_filter_eq_nil noParts isLinked)
  rw [GetsPairs, if_pos noPairs]

/-- Keys can be taken out of every record that holds keys. -/
theorem exists_parts_of_holdsKeys {fields : List Field} {record : Record}
    (mapped : ∀ field ∈ fields, ∃ remote, field.remoteField = .ok (some remote) ∧
      IsRemoteName remote)
    (holds : HoldsKeys fields record) :
    ∃ parts left, takeKeyParts fields record = .ok (parts, left) := by
  induction fields generalizing record with
  | nil => exact ⟨[], record, rfl⟩
  | cons field rest ih =>
      obtain ⟨⟨remote, isRemote, -⟩, restMapped⟩ := List.forall_mem_cons.mp mapped
      obtain ⟨fieldHolds, restHolds⟩ := List.forall_mem_cons.mp holds
      rw [takeKeyParts, isRemote]
      cases held : record.value? field.name with
      | none => exact ih restMapped restHolds
      | some value =>
          obtain ⟨_, key, _, -, isKey, -⟩ := exists_symbols_of_isKey (fieldHolds value held)
          have othersHold : HoldsKeys rest (record.set field.name .null) :=
            fun other isMember value isValue =>
              restHolds other isMember value (Record.value?_of_set_null isValue)
          obtain ⟨parts, left, taken⟩ := ih restMapped othersHold
          refine ⟨(remote ++ "=" ++ key) :: parts, left, ?_⟩
          simp only [isKey, taken, bind, Except.bind]
          rfl

/-- The step of a composite link succeeds, and the bind field gets the pairs. -/
theorem IsComposite.step (distinct : (type.fields.map Field.name).Nodup)
    (composite : IsComposite links type bind base collection) {record : Record}
    (holds : HoldsKeys (linkedFields type base) record) :
    ∃ after, setLink links type bind.name base record = .ok after ∧
      GetsPairs collection (keyPairs (linkedFields type base) record)
        (record.get? bind.name) (after.get? bind.name) := by
  obtain ⟨parts, left, taken⟩ := exists_parts_of_holdsKeys composite.mapped holds
  obtain ⟨mapped, written, -, -⟩ := takeKeyParts_ok (nodup_linkedFields distinct base) taken
  rw [setLink_of_several composite.leads composite.several]
  unfold setCompositeLink
  cases parts with
  | nil =>
      have noParts := List.forall₂_nil_right_iff.mp written
      have nothing : takeKeyParts (linkedFields type base) record = .ok ([], record) :=
        takeKeyParts_of_none fun field isLinked =>
          ⟨mapped field isLinked, givesNone_of_filter_eq_nil noParts isLinked⟩
      rw [nothing]
      exact ⟨record, rfl, composite.keeps_of_none noParts _⟩
  | cons part others =>
      rw [taken]
      refine ⟨_, rfl, ?_⟩
      rw [Record.get?_set_self]
      exact composite.gets_of_parts holds written (List.cons_ne_nil _ _) _

/-- The step of a field that is no bind field does nothing unless structures are in it. -/
theorem setFieldLink_of_noValue {field : Field} {record : Record}
    (noBind : bindBase? field.name = none)
    (noValue : field.isComplex = true → record.value? field.name = none) :
    setFieldLink links type record field = .ok record := by
  rw [setFieldLink, noBind]
  cases isType : field.type with
  | complex inner =>
      rw [setInnerLinks_eq]
      have noValue := noValue (isComplex_of_complex isType)
      rcases Record.value?_eq_none_iff.mp noValue with absent | isNull
      · simp only [absent]
      · have untouched : setValueLinks links inner .null = .ok .null := rfl
        simp only [isNull, untouched, Except.map, Record.set_of_get? isNull]
  | _ => simp only [setInnerLinks]

/-- A field for structures has no value in a record that holds keys. -/
theorem value?_of_holdsKeys {fields : List Field} {record : Record} {field : Field}
    (holds : HoldsKeys fields record) (isMember : field ∈ fields)
    (isComplex : field.isComplex = true) : record.value? field.name = none := by
  cases held : record.value? field.name with
  | none => rfl
  | some value =>
      have isKey := holds field isMember value held
      rw [Field.isComplex] at isComplex
      generalize field.type = fieldType at isKey isComplex
      cases isKey <;> cases isComplex

/-- Two records that have the same in these fields. -/
def SameKeys (fields : List Field) (record other : Record) : Prop :=
  ∀ field ∈ fields, other.get? field.name = record.get? field.name

theorem HoldsKeys.congr {fields : List Field} {record other : Record}
    (holds : HoldsKeys fields record) (same : SameKeys fields record other) :
    HoldsKeys fields other := fun field isMember value held =>
  holds field isMember value (Record.value?_congr (same field isMember) ▸ held)

theorem keyPairs_congr {fields : List Field} {record other : Record}
    (same : SameKeys fields record other) : keyPairs fields other = keyPairs fields record := by
  apply List.filterMap_congr
  intro field isMember
  rw [keyPair?, keyPair?, Record.value?_congr (same field isMember)]

/-- There is an entity set to refer to through a base, and some field carries a key for it. -/
def IsLinked (links : Links) (type : ComplexType) (base : String) : Prop :=
  links.linkedSet? type base ≠ none ∧ linkedFields type base ≠ []

theorem setLink_of_not_isLinked {links : Links} {type : ComplexType} {base : String}
    (notLinked : ¬ IsLinked links type base) (bindName : String) (record : Record) :
    setLink links type bindName base record = .ok record := by
  by_cases noSet : links.linkedSet? type base = none
  · exact setLink_of_noSet noSet bindName record
  · have noKeys : linkedFields type base = [] := by_contra fun some => notLinked ⟨noSet, some⟩
    apply setLink_of_makesNothing
    rw [noKeys]
    trivial

/-- No field that carries a key for the base is the bind field of another link. -/
def KeysAreNoLinks (links : Links) (type : ComplexType) (base : String) : Prop :=
  ∀ field ∈ linkedFields type base, ∀ other, bindBase? field.name = some other →
    IsLinked links type other → other = base

/-- A bind field carries a key for the link of another one. -/
def IsKeyOfLink (links : Links) (type : ComplexType) (bind : Field) : Prop :=
  ∃ other ∈ type.fields, other ≠ bind ∧ ∃ next, bindBase? other.name = some next ∧
    bind.foreignName = some next ∧ IsLinked links type next

/-- A bind field has what it had, or another link took it for a key. -/
def KeptOrTaken (links : Links) (type : ComplexType) (bind : Field) (before after : Record) :
    Prop :=
  after.get? bind.name = before.get? bind.name ∨
    IsKeyOfLink links type bind ∧ after.get? bind.name = some .null

theorem KeptOrTaken.trans {first second third : Record}
    (begins : KeptOrTaken links type bind first second)
    (ends : KeptOrTaken links type bind second third) :
    KeptOrTaken links type bind first third := by
  rcases ends with same | taken
  · exact begins.imp same.trans fun ⟨isKey, isNull⟩ => ⟨isKey, same.trans isNull⟩
  · exact .inr taken

theorem IsComposite.eq_bind (distinct : (type.fields.map Field.name).Nodup)
    (composite : IsComposite links type bind base collection) {field : Field}
    (isMember : field ∈ type.fields) (isBind : bindBase? field.name = some base) :
    field = bind := by
  apply List.inj_on_of_nodup_map distinct isMember composite.declared
  rw [bindBase?_eq_some_iff.mp isBind, bindBase?_eq_some_iff.mp composite.isBind]

/-- The steps of other fields keep a bind field, or one of them takes it. -/
theorem IsComposite.bind_kept_or_taken (distinct : (type.fields.map Field.name).Nodup)
    (composite : IsComposite links type bind base collection) {others : List Field}
    (areFields : others ⊆ type.fields) (apart : bind ∉ others) {before after : Record}
    (isOk : others.foldlM (setFieldLink links type) before = .ok after) :
    KeptOrTaken links type bind before after := by
  have here : KeptOrTaken links type bind before before := .inl rfl
  refine kept_of_foldlM_ok ?_ isOk here
  intro start other isOther stop isStep begins
  refine begins.trans ?_
  have isField := areFields isOther
  have isApart : other ≠ bind := fun same => apart (same ▸ isOther)
  by_cases isTouched : bind.name ∈ touched type other
  · obtain ⟨owner, isOwner, sameName, owns⟩ := owner_of_touched isField isTouched
    obtain rfl := List.inj_on_of_nodup_map distinct isOwner composite.declared sameName
    rcases owns with ⟨rfl, -⟩ | ⟨next, isNext, names⟩
    · exact absurd isOther apart
    · rw [setFieldLink, isNext] at isStep
      by_cases isLinked : IsLinked links type next
      · have otherName : owner.name ≠ other.name := fun same =>
          isApart (List.inj_on_of_nodup_map distinct isField isOwner same.symm)
        have isKey : IsKeyOfLink links type owner :=
          ⟨other, isField, isApart, next, isNext, names, isLinked⟩
        exact (setLink_kept_or_null isStep otherName).imp_right (And.intro isKey)
      · cases (setLink_of_not_isLinked isLinked other.name start).symm.trans isStep
        exact .inl rfl
  · exact .inl ((setFieldLink_changes isStep).kept _ isTouched)

/-- The step of a field that carries a key finds nothing to do, unless it is the link's own. -/
theorem IsComposite.setFieldLink_of_linked (distinct : (type.fields.map Field.name).Nodup)
    (composite : IsComposite links type bind base collection)
    (noLinks : KeysAreNoLinks links type base) {record : Record}
    (holds : HoldsKeys (linkedFields type base) record) {field : Field}
    (isLinked : field ∈ linkedFields type base) (isOther : field ≠ bind) :
    setFieldLink links type record field = .ok record := by
  cases isBind : bindBase? field.name with
  | none => exact setFieldLink_of_noValue isBind (value?_of_holdsKeys holds isLinked)
  | some other =>
      have notLinked : ¬ IsLinked links type other := by
        intro isLinkedToo
        obtain rfl := noLinks field isLinked other isBind isLinkedToo
        exact isOther (composite.eq_bind distinct (mem_linkedFields.mp isLinked).1 isBind)
      rw [setFieldLink, isBind]
      exact setLink_of_not_isLinked notLinked field.name record

/-- The steps of other fields leave the keys of a link alone. -/
theorem IsComposite.keys_kept (distinct : (type.fields.map Field.name).Nodup)
    (composite : IsComposite links type bind base collection)
    (noLinks : KeysAreNoLinks links type base) {others : List Field}
    (areFields : others ⊆ type.fields) (apart : bind ∉ others) {before after : Record}
    (holds : HoldsKeys (linkedFields type base) before)
    (isOk : others.foldlM (setFieldLink links type) before = .ok after) :
    SameKeys (linkedFields type base) before after := by
  have here : SameKeys (linkedFields type base) before before := fun _ _ => rfl
  refine kept_of_foldlM_ok ?_ isOk here
  intro start other isOther stop isStep kept field isLinked
  rw [← kept field isLinked]
  obtain ⟨isMember, names⟩ := mem_linkedFields.mp isLinked
  have isOtherField := areFields isOther
  by_cases isTouched : field.name ∈ touched type other
  · obtain ⟨owner, isOwner, sameName, owns⟩ := owner_of_touched isOtherField isTouched
    obtain rfl := List.inj_on_of_nodup_map distinct isOwner isMember sameName
    rcases owns with ⟨rfl, -⟩ | ⟨otherBase, isOtherBind, otherNames⟩
    · have isIdle := composite.setFieldLink_of_linked distinct noLinks (holds.congr kept)
        isLinked fun same => apart (same ▸ isOther)
      cases isIdle.symm.trans isStep
      rfl
    · -- Both are named for the base that the key names.
      obtain rfl := Option.some.inj (names.symm.trans otherNames)
      exact absurd (composite.eq_bind distinct isOtherField isOtherBind ▸ isOther) apart
  · exact (setFieldLink_changes isStep).kept _ isTouched

/-- In a whole record the bind field gets the pairs, too, or another link takes it. -/
theorem IsComposite.whole (distinct : (type.fields.map Field.name).Nodup)
    (composite : IsComposite links type bind base collection)
    (noLinks : KeysAreNoLinks links type base) {before after : Record}
    (holds : HoldsKeys (linkedFields type base) before)
    (isOk : setLinks links type before = .ok after) :
    GetsPairs collection (keyPairs (linkedFields type base) before)
        (before.get? bind.name) (after.get? bind.name) ∨
      IsKeyOfLink links type bind ∧ after.get? bind.name = some .null := by
  obtain ⟨front, back, start, stop, areFields, once, isFront, isStep, isBack⟩ :=
    exists_steps distinct composite.declared isOk
  obtain ⟨frontFields, backFields⟩ := List.append_subset.mp areFields
  rw [List.mem_append, not_or] at once
  have sameKeys := composite.keys_kept distinct noLinks frontFields once.1 holds isFront
  obtain ⟨_, isLinked, gets⟩ := composite.step distinct (holds.congr sameKeys)
  rw [setFieldLink, composite.isBind] at isStep
  cases isLinked.symm.trans isStep
  rw [keyPairs_congr sameKeys] at gets
  have begins := composite.bind_kept_or_taken distinct frontFields once.1 isFront
  rcases composite.bind_kept_or_taken distinct backFields once.2 isBack with ends | taken
  · rw [ends]
    rcases begins with same | ⟨isKey, isNull⟩
    · rw [same] at gets
      exact .inl gets
    · -- What was there at first is gone, so only a new reference is left, or null.
      rw [isNull] at gets
      by_cases noPairs : keyPairs (linkedFields type base) before = []
      · rw [GetsPairs, if_pos noPairs] at gets
        exact .inr ⟨isKey, gets⟩
      · rw [GetsPairs, if_neg noPairs] at gets ⊢
        exact .inl gets
  · exact .inr taken

/-- A text that the bind field has in the end is read as the pairs, if there are any. -/
theorem IsComposite.readReference?_of_whole (distinct : (type.fields.map Field.name).Nodup)
    (composite : IsComposite links type bind base collection)
    (noLinks : KeysAreNoLinks links type base) {before after : Record}
    (holds : HoldsKeys (linkedFields type base) before)
    (isOk : setLinks links type before = .ok after)
    (somePairs : keyPairs (linkedFields type base) before ≠ []) {text : String}
    (isText : after.get? bind.name = some (.scalar (.text text))) :
    readReference? text = some (collection, keyPairs (linkedFields type base) before) := by
  have whole := composite.whole distinct noLinks holds isOk
  rw [isText] at whole
  rcases whole with gets | ⟨-, isNull⟩
  · rw [GetsPairs, if_neg somePairs] at gets
    obtain ⟨_, same, isRead⟩ := gets
    cases same
    exact isRead
  · cases isNull

/-- A link of several fields with remote names, whatever texts are in them. In every record
that its turn may come in, the step succeeds and the bind field gets a reference that is
read as the remote names and the texts of the values, in order; without values it is left
alone.

If no field that carries a key for the link is the bind field of another one, the same holds
between the first record and the last one, but that a bind field which is itself a key of
another link may be null in the end. Then records have the same reference only if they had
the same pairs. -/
theorem composite_key_reads_back (distinct : (type.fields.map Field.name).Nodup)
    (composite : IsComposite links type bind base collection) :
    (∀ record, HoldsKeys (linkedFields type base) record →
      ∃ after, setLink links type bind.name base record = .ok after ∧
        GetsPairs collection (keyPairs (linkedFields type base) record)
          (record.get? bind.name) (after.get? bind.name)) ∧
      (KeysAreNoLinks links type base →
        (∀ before after, HoldsKeys (linkedFields type base) before →
          setLinks links type before = .ok after →
          GetsPairs collection (keyPairs (linkedFields type base) before)
              (before.get? bind.name) (after.get? bind.name) ∨
            IsKeyOfLink links type bind ∧ after.get? bind.name = some .null) ∧
        ∀ first second after other text, HoldsKeys (linkedFields type base) first →
          HoldsKeys (linkedFields type base) second →
          setLinks links type first = .ok after → setLinks links type second = .ok other →
          keyPairs (linkedFields type base) first ≠ [] →
          keyPairs (linkedFields type base) second ≠ [] →
          after.get? bind.name = some (.scalar (.text text)) →
          other.get? bind.name = some (.scalar (.text text)) →
          keyPairs (linkedFields type base) first =
            keyPairs (linkedFields type base) second) := by
  refine ⟨fun record holds => composite.step distinct holds, fun noLinks => ⟨?_, ?_⟩⟩
  · intro before after holds isOk
    exact composite.whole distinct noLinks holds isOk
  · intro first second after other text firstHolds secondHolds isOk otherIsOk somePairs
      someOthers isText otherIsText
    have isRead := composite.readReference?_of_whole distinct noLinks firstHolds isOk somePairs
      isText
    rw [composite.readReference?_of_whole distinct noLinks secondHolds otherIsOk someOthers
      otherIsText] at isRead
    exact (Prod.mk.inj (Option.some.inj isRead)).2.symm

end

/-- The bind field of an order line. -/
def itemBind : Field where
  name := "item@odata.bind"
  type := .string

/-- A line whose code is written like a key of two parts. -/
def forgedLine : Record := ⟨[("code", .scalar (.text "1',itemVersion='2)"))]⟩

/-- The line with its link. -/
def linkedForgedLine : Record := ⟨[("code", .null),
  ("item@odata.bind", .scalar (.text "/Items(itemCode='1'',itemVersion=''2)')"))]⟩

theorem forged_line_reads_back :
    IsComposite plainService orderLine itemBind "item" "Items" ∧
      KeysAreNoLinks plainService orderLine "item" ∧
      HoldsKeys (linkedFields orderLine "item") forgedLine ∧
      HoldsKeys (linkedFields orderLine "item") keyedLine ∧
      setLinks plainService orderLine forgedLine = .ok linkedForgedLine ∧
      setLinks plainService orderLine keyedLine = .ok linkedLine ∧
      readReference? "/Items(itemCode='1'',itemVersion=''2)')" =
        some ("Items", [("itemCode", "1',itemVersion='2)")]) ∧
      linkedForgedLine.get? itemBind.name ≠ linkedLine.get? itemBind.name := by
  have composite : IsComposite plainService orderLine itemBind "item" "Items" := by
    refine ⟨?_, by decide, rfl, by decide, by decide, ?_⟩
    · simp [orderLine, itemBind]
    · refine List.forall_mem_cons.mpr ⟨⟨"itemCode", rfl, by decide⟩, ?_⟩
      exact List.forall_mem_cons.mpr ⟨⟨"itemVersion", rfl, by decide⟩, List.forall_mem_nil _⟩
  have noLinks : KeysAreNoLinks plainService orderLine "item" := by
    have noBinds : ∀ field ∈ linkedFields orderLine "item", bindBase? field.name = none := by
      decide
    intro field isLinked other isBind
    cases (noBinds field isLinked).symm.trans isBind
  have holds : HoldsKeys (linkedFields orderLine "item") forgedLine :=
    .present rfl (.text _) (.absent rfl .nil)
  have otherHolds : HoldsKeys (linkedFields orderLine "item") keyedLine :=
    .present rfl (.text _) (.present rfl (.integer _) .nil)
  have isOk : setLinks plainService orderLine forgedLine = .ok linkedForgedLine := by
    rw [setLinks_eq]
    refine foldlM_cons_ok forgedLine rfl ?_
    refine foldlM_cons_ok linkedForgedLine rfl ?_
    refine foldlM_cons_ok linkedForgedLine rfl ?_
    exact foldlM_cons_ok linkedForgedLine rfl rfl
  obtain ⟨-, reads⟩ := composite_key_reads_back (by decide) composite
  obtain ⟨whole, apart⟩ := reads noLinks
  refine ⟨composite, noLinks, holds, otherHolds, isOk, setLinks_keyedLine, ?_, ?_⟩
  · obtain ⟨text, isText, isRead⟩ | ⟨isKey, -⟩ :=
      whole forgedLine linkedForgedLine holds isOk
    · cases isText
      exact isRead
    · obtain ⟨_, -, -, _, -, names, -⟩ := isKey
      cases names
  · intro same
    have samePairs := apart forgedLine keyedLine linkedForgedLine linkedLine _ holds otherHolds
      isOk setLinks_keyedLine (by decide +kernel) (by decide +kernel) rfl same.symm
    exact absurd samePairs (by decide +kernel)

/-- A line that is linked to an item by a code and by the order of the item, which is a
link itself. -/
def orderedLine : ComplexType where
  name := "line"
  fields := [
    { name := "order@odata.bind", type := .string, foreignName := some "item",
      foreignKey := some "Items:order" },
    { name := "order", type := .complex { name := "order", collectionName := some "Orders" } },
    { name := "orderId", type := .integer, foreignName := some "order" },
    { name := "item@odata.bind", type := .string },
    { name := "item", type := .complex { name := "item", collectionName := some "Items" } },
    { name := "code", type := .string, foreignName := some "item",
      foreignKey := some "Items:code" }]

/-- A line whose order is known by its number. -/
def numberedLine : Record :=
  ⟨[("orderId", .scalar (.integer 7)), ("code", .scalar (.text "x"))]⟩

/-- A line that refers to the same order. -/
def referringLine : Record :=
  ⟨[("order@odata.bind", .scalar (.text "/Orders(7)")), ("code", .scalar (.text "x"))]⟩

/-- The link of both lines to their item. -/
def orderedItem : String := "/Items(order='/Orders(7)',code='x')"

/-- The line with a number once its order was linked. -/
def halfLinkedLine : Record :=
  ⟨[("orderId", .null), ("code", .scalar (.text "x")),
    ("order@odata.bind", .scalar (.text "/Orders(7)"))]⟩

/-- The line with a number in the end. -/
def linkedNumberedLine : Record :=
  ⟨[("orderId", .null), ("code", .null), ("order@odata.bind", .null),
    ("item@odata.bind", .scalar (.text orderedItem))]⟩

/-- The line that refers to the order in the end. -/
def linkedReferringLine : Record :=
  ⟨[("order@odata.bind", .null), ("code", .null),
    ("item@odata.bind", .scalar (.text orderedItem))]⟩

/-- When a key is a link itself, a reference may be read as more than the keys that were in
the record, and records with different keys may get the same one. -/
theorem linked_key_was_not_in_record :
    (orderedLine.fields.map Field.name).Nodup ∧
      IsComposite plainService orderedLine itemBind "item" "Items" ∧
      HoldsKeys (linkedFields orderedLine "item") numberedLine ∧
      HoldsKeys (linkedFields orderedLine "item") referringLine ∧
      setLinks plainService orderedLine numberedLine = .ok linkedNumberedLine ∧
      setLinks plainService orderedLine referringLine = .ok linkedReferringLine ∧
      linkedNumberedLine.get? itemBind.name = some (.scalar (.text orderedItem)) ∧
      linkedReferringLine.get? itemBind.name = some (.scalar (.text orderedItem)) ∧
      readReference? orderedItem = some ("Items", [("order", "/Orders(7)"), ("code", "x")]) ∧
      keyPairs (linkedFields orderedLine "item") numberedLine = [("code", "x")] ∧
      keyPairs (linkedFields orderedLine "item") referringLine =
        [("order", "/Orders(7)"), ("code", "x")] := by
  have composite : IsComposite plainService orderedLine itemBind "item" "Items" := by
    refine ⟨?_, by decide, rfl, by decide, by decide, ?_⟩
    · simp [orderedLine, itemBind]
    · refine List.forall_mem_cons.mpr ⟨⟨"order", rfl, by decide⟩, ?_⟩
      exact List.forall_mem_cons.mpr ⟨⟨"code", rfl, by decide⟩, List.forall_mem_nil _⟩
  have holds : HoldsKeys (linkedFields orderedLine "item") numberedLine :=
    .absent rfl (.present rfl (.text _) .nil)
  have otherHolds : HoldsKeys (linkedFields orderedLine "item") referringLine :=
    .present rfl (.text _) (.present rfl (.text _) .nil)
  refine ⟨by decide, composite, holds, otherHolds, ?_, ?_, rfl, rfl, by decide +kernel,
    by decide +kernel, by decide +kernel⟩
  · rw [setLinks_eq]
    refine foldlM_cons_ok halfLinkedLine rfl ?_
    refine foldlM_cons_ok halfLinkedLine rfl ?_
    refine foldlM_cons_ok halfLinkedLine rfl ?_
    refine foldlM_cons_ok linkedNumberedLine rfl ?_
    refine foldlM_cons_ok linkedNumberedLine rfl ?_
    exact foldlM_cons_ok linkedNumberedLine rfl rfl
  · rw [setLinks_eq]
    refine foldlM_cons_ok referringLine rfl ?_
    refine foldlM_cons_ok referringLine rfl ?_
    refine foldlM_cons_ok referringLine rfl ?_
    refine foldlM_cons_ok linkedReferringLine rfl ?_
    refine foldlM_cons_ok linkedReferringLine rfl ?_
    exact foldlM_cons_ok linkedReferringLine rfl rfl

end OData.Body
