/-
# Keys of created entities

A server that creates an entity may answer with nothing but the entity's address. The
key is then what stands in the parentheses at the end of that address, as it stands
there. So a key that was written bare, in parentheses, behind an entity set, is read
back; one that was written in quotes comes back with them, and of an address whose last
segment is the key all is taken for the key.

Something has to stand between the last slash and the parentheses, and the line breaks
of an address may only be there. Contexts that end in a slash are therefore left out by
a condition, and nothing is said about what is read for them, other than that it is not
the key.
-/

import OData.Body.Answer
import OData.Proofs.Association.Address
import OData.Proofs.Filter.Symbol
import OData.Proofs.Target.Reference
import Mathlib.Data.List.Basic

namespace OData

namespace Target

/-! ## The key at the end of an address -/

/-- What stands in front of the parentheses ends in the name of an entity set. -/
def EndsInSet (front : List Char) : Prop :=
  ∃ before set, front = before ++ '/' :: set ∧ set ≠ [] ∧ '/' ∉ set ∧ '\n' ∉ before

variable {chars key : List Char}

theorem eq_of_closedGroup? (isKey : closedGroup? chars = some key) : chars = key ++ [')'] := by
  unfold closedGroup? at isKey
  dsimp only at isKey
  split at isKey
  · rename_i isClosed
    obtain ⟨⟨isLast, -⟩, -⟩ := by simpa only [Bool.and_eq_true, decide_eq_true_eq] using isClosed
    obtain ⟨others, rfl⟩ := List.getLast?_eq_some_iff.mp isLast
    rw [List.dropLast_concat] at isKey
    rw [Option.some.inj isKey]
  · cases isKey

theorem closedGroup?_closed (plain : IsPlainKey key) :
    closedGroup? (key ++ [')']) = some key := by
  simp [closedGroup?, plain.nonempty, plain.noClosing]

/-- A group is found behind something without slashes. -/
theorem exists_of_segmentGroup? (isKey : segmentGroup? chars = some key) :
    ∃ set, chars = set ++ '(' :: (key ++ [')']) ∧ set ≠ [] ∧ '/' ∉ set := by
  induction chars with
  | nil => cases isKey
  | cons c rest ih =>
      unfold segmentGroup? at isKey
      split at isKey
      · cases isKey
      · rename_i notSlash
        split at isKey
        · rename_i found isFound
          obtain ⟨set, rfl, -, noSlash⟩ := ih (isFound.trans isKey)
          refine ⟨c :: set, rfl, List.cons_ne_nil _ _, ?_⟩
          rw [List.mem_cons, not_or]
          exact ⟨Ne.symm notSlash, noSlash⟩
        · split at isKey
          · rw [eq_of_closedGroup? isKey]
            refine ⟨[c], rfl, List.cons_ne_nil _ _, ?_⟩
            rw [List.mem_singleton]
            exact Ne.symm notSlash
          · cases isKey

/-- A key is found behind an entity set. -/
theorem endsInSet_of_pathKey? (isKey : pathKey? chars = some key) :
    ∃ front, chars = front ++ '(' :: (key ++ [')']) ∧ EndsInSet front := by
  induction chars with
  | nil => cases isKey
  | cons c rest ih =>
      rw [pathKey?] at isKey
      split at isKey
      · cases isKey
      · rename_i notBreak
        split at isKey
        · rename_i found isFound
          obtain ⟨front, rfl, before, set, rfl, isSet, noSlash, oneLine⟩ :=
            ih (isFound.trans isKey)
          refine ⟨c :: (before ++ '/' :: set), rfl, c :: before, set, rfl, isSet, noSlash, ?_⟩
          rw [List.mem_cons, not_or]
          exact ⟨Ne.symm notBreak, oneLine⟩
        · split at isKey
          · rename_i isSlash
            obtain ⟨set, rfl, isSet, noSlash⟩ := exists_of_segmentGroup? isKey
            exact ⟨c :: set, rfl, [], set, by rw [isSlash]; rfl, isSet, noSlash, List.not_mem_nil⟩
          · cases isKey

/-- A key is only found where the end closes a group. -/
theorem getLast?_of_pathKey? (isKey : pathKey? chars = some key) : chars.getLast? = some ')' := by
  obtain ⟨front, rfl, -⟩ := endsInSet_of_pathKey? isKey
  rw [List.append_cons, ← List.append_assoc, List.getLast?_concat]

/-- Without an opening parenthesis there is no group in a segment, not counting its first
character. -/
theorem segmentGroup?_eq_none {c : Char} (noOpening : '(' ∉ chars) :
    segmentGroup? (c :: chars) = none := by
  cases isGroup : segmentGroup? (c :: chars) with
  | none => rfl
  | some found =>
      obtain ⟨set, isSplit, isSet, -⟩ := exists_of_segmentGroup? isGroup
      obtain ⟨first, others, rfl⟩ := List.exists_cons_of_ne_nil isSet
      obtain ⟨-, rfl⟩ := List.cons.inj isSplit
      exact absurd (by simp) noOpening

theorem segmentGroup?_closed {set : List Char} (isSet : set ≠ []) (noSlash : '/' ∉ set)
    (plain : IsPlainKey key) : segmentGroup? (set ++ '(' :: (key ++ [')'])) = some key := by
  induction set with
  | nil => exact absurd rfl isSet
  | cons c rest ih =>
      obtain ⟨notSlash, others⟩ := List.ne_and_not_mem_of_not_mem_cons noSlash
      rw [List.cons_append]
      unfold segmentGroup?
      rw [if_neg notSlash.symm]
      by_cases isLast : rest = []
      · have noneInside : segmentGroup? ('(' :: (key ++ [')'])) = none := by
          apply segmentGroup?_eq_none
          simp [plain.noOpening]
        subst isLast
        rw [List.nil_append, noneInside]
        exact closedGroup?_closed plain
      · rw [ih isLast others]

theorem pathKey?_eq_none (noSlash : '/' ∉ chars) : pathKey? chars = none := by
  cases isKey : pathKey? chars with
  | none => rfl
  | some found =>
      obtain ⟨front, rfl, before, set, rfl, -⟩ := endsInSet_of_pathKey? isKey
      exact absurd (by simp) noSlash

theorem pathKey?_closed {front : List Char} (ends : EndsInSet front) (plain : IsPlainKey key) :
    pathKey? (front ++ '(' :: (key ++ [')'])) = some key := by
  obtain ⟨before, set, rfl, isSet, noSlash, oneLine⟩ := ends
  rw [List.append_assoc, List.cons_append]
  induction before with
  | nil =>
      have noneInside : pathKey? (set ++ '(' :: (key ++ [')'])) = none := by
        apply pathKey?_eq_none
        simp [noSlash, plain.noSlash]
      rw [List.nil_append, pathKey?, noneInside]
      exact segmentGroup?_closed isSet noSlash plain
  | cons c rest ih =>
      obtain ⟨notBreak, others⟩ := List.ne_and_not_mem_of_not_mem_cons oneLine
      rw [List.cons_append, pathKey?, if_neg notBreak.symm, ih others]

/-! ## Addresses -/

/-- Without slashes and line breaks in front of it, what ends in a set is the rest. -/
theorem endsInSet_append {before front : List Char} (noSlash : '/' ∉ before)
    (oneLine : '\n' ∉ before) : EndsInSet (before ++ front) ↔ EndsInSet front := by
  constructor
  · rintro ⟨first, set, isSplit, isSet, noSlashInSet, oneLineInFirst⟩
    rcases List.append_eq_append_iff.mp isSplit with ⟨others, rfl, rfl⟩ | ⟨others, rfl, isRest⟩
    · refine ⟨others, set, rfl, isSet, noSlashInSet, fun isMember => oneLineInFirst ?_⟩
      exact List.mem_append_right _ isMember
    · cases others with
      | nil => exact ⟨[], set, isRest.symm, isSet, noSlashInSet, List.not_mem_nil⟩
      | cons c others =>
          obtain ⟨rfl, -⟩ := List.cons.inj isRest
          exact absurd (by simp) noSlash
  · rintro ⟨first, set, rfl, isSet, noSlashInSet, oneLineInFirst⟩
    refine ⟨before ++ first, set, by rw [List.append_assoc], isSet, noSlashInSet, ?_⟩
    rw [List.mem_append, not_or]
    exact ⟨oneLine, oneLineInFirst⟩

variable {front written key : String}

/-- Behind its scheme an address is searched for a key at its end. -/
theorem createdKey_http {location : String} {rest : List Char}
    (isHttp : location.toList = "http".toList ++ rest) :
    createdKey location = (pathKey? rest).elim location String.ofList := by
  have hasScheme : "http".toList.isPrefixOf location.toList = true := by
    rw [List.isPrefixOf_iff_prefix, isHttp]
    exact List.prefix_append _ _
  rw [createdKey, if_pos hasScheme, isHttp, List.drop_left]
  cases pathKey? rest <;> rfl

/-- Texts are split at their last opening parenthesis in one way only. -/
theorem eq_of_last_opening {before after other rest : List Char} (isLast : '(' ∉ after)
    (otherIsLast : '(' ∉ rest) (same : before ++ '(' :: after = other ++ '(' :: rest) :
    before = other ∧ after = rest := by
  have backwards :
      after.reverse ++ '(' :: before.reverse = rest.reverse ++ '(' :: other.reverse := by
    simpa using congrArg List.reverse same
  rw [← List.mem_reverse] at isLast otherIsLast
  have sameAfter : after.reverse = rest.reverse := by
    rw [← Text.takeWhile_append_stop isLast before.reverse, backwards,
      Text.takeWhile_append_stop otherIsLast]
  obtain rfl := List.reverse_inj.mp sameAfter
  exact ⟨List.append_cancel_right same, rfl⟩

/-- Of an address that ends in a group, a key without parentheses is read exactly if the
group stands behind an entity set and holds that key. -/
theorem createdKey_group_iff (isHttp : "http".toList <+: front.toList)
    (plain : IsPlainKey written.toList) (bare : '(' ∉ key.toList) :
    createdKey (front ++ ("(" ++ written ++ ")")) = key ↔
      EndsInSet front.toList ∧ written = key := by
  obtain ⟨rest, isFront⟩ := isHttp
  have chars : (front ++ ("(" ++ written ++ ")")).toList =
      "http".toList ++ (rest ++ '(' :: (written.toList ++ [')'])) := by
    simp [← isFront]
  rw [createdKey_http chars, ← isFront, endsInSet_append (by decide) (by decide)]
  constructor
  · intro isRead
    cases isFound : pathKey? (rest ++ '(' :: (written.toList ++ [')'])) with
    | none =>
        rw [isFound, Option.elim_none] at isRead
        rw [← isRead] at bare
        exact absurd (by simp) bare
    | some found =>
        rw [isFound, Option.elim_some] at isRead
        obtain ⟨other, isSplit, ends⟩ := endsInSet_of_pathKey? isFound
        have isKey : found = key.toList := by rw [← isRead, String.toList_ofList]
        -- Both groups are opened by the last parenthesis that opens.
        obtain ⟨rfl, isSame⟩ := eq_of_last_opening (by simp [plain.noOpening])
          (by simp [isKey, bare]) isSplit
        refine ⟨ends, String.toList_inj.mp ?_⟩
        rw [List.append_cancel_right isSame, isKey]
  · rintro ⟨ends, rfl⟩
    rw [pathKey?_closed ends plain]
    exact String.ofList_toList

/-- An address that ends in a segment is the key itself. -/
theorem createdKey_segment (isHttp : "http".toList <+: front.toList)
    (plain : IsPlainKey key.toList) :
    createdKey (front ++ ("/" ++ key)) = front ++ ("/" ++ key) := by
  obtain ⟨rest, isFront⟩ := isHttp
  have chars : (front ++ ("/" ++ key)).toList = "http".toList ++ (rest ++ '/' :: key.toList) := by
    simp [← isFront]
  rw [createdKey_http chars]
  cases isFound : pathKey? (rest ++ '/' :: key.toList) with
  | none => rfl
  | some found =>
      have isLast := getLast?_of_pathKey? isFound
      rw [List.append_cons, List.getLast?_append_of_ne_nil _ plain.nonempty] at isLast
      exact absurd (List.mem_of_getLast? isLast) plain.noClosing

/-! ## Keys in addresses -/

theorem not_mem_quote {c : Char} (isOther : c ≠ '\'') (absent : c ∉ key.toList) :
    c ∉ (Text.quote key).toList := by
  rw [← List.count_eq_zero, Text.count_quote isOther]
  exact List.count_eq_zero.mpr absent

theorem quote_ne_self (key : String) : Text.quote key ≠ key := by
  intro same
  have chars := congrArg String.toList same
  rw [Text.quote, String.toList_ofList] at chars
  apply Association.quotes_not_prefix 0 key.toList ['\''] []
  show '\'' :: (Text.doubleQuotes key.toList ++ ['\'']) <+: _
  rw [chars]
  exact List.prefix_append _ _

theorem quote_inj {other : String} (same : Text.quote key = Text.quote other) : key = other := by
  have isLiteral := (Filter.Symbol.spells_quote key).ofText?
  rw [same, (Filter.Symbol.spells_quote other).ofText?] at isLiteral
  cases isLiteral
  rfl

/-- A key as it stands in parentheses. -/
def keyText (field : Field) (key : String) : String :=
  if field.type.isQuoted then Text.quote key else key

section

variable {site : Site} {field : Field}

theorem keyText_eq_self_iff : keyText field key = key ↔ field.type ≠ .string := by
  constructor
  · intro same isString
    rw [keyText, isString] at same
    exact quote_ne_self key same
  · intro isOther
    rw [keyText, Association.isQuoted_eq_false_of_ne isOther]
    rfl

theorem isPlainKey_keyText (plain : IsPlainKey key.toList) :
    IsPlainKey (keyText field key).toList := by
  unfold keyText
  split
  · exact {
      nonempty := by simp [Text.quote]
      noOpening := not_mem_quote (by decide) plain.noOpening
      noClosing := not_mem_quote (by decide) plain.noClosing
      noSlash := not_mem_quote (by decide) plain.noSlash }
  · exact plain

theorem keyPart_segment (isSegment : site.endpoint.keyAsSegment = true) (key : String) :
    site.keyPart field key = "/" ++ key := by
  rw [Site.keyPart, if_pos isSegment]

theorem keyPart_group (noSegment : site.endpoint.keyAsSegment = false) (key : String) :
    site.keyPart field key = "(" ++ keyText field key ++ ")" := by
  rw [Site.keyPart, if_neg (Bool.eq_false_iff.mp noSegment), keyText]
  split <;> rfl

/-- A key is read back from where it was written exactly if it was written bare, in
parentheses, behind an entity set. -/
theorem createdKey_keyPart_iff (isHttp : "http".toList <+: front.toList)
    (plain : IsPlainKey key.toList) :
    createdKey (front ++ site.keyPart field key) = key ↔
      site.endpoint.keyAsSegment = false ∧ field.type ≠ .string ∧ EndsInSet front.toList := by
  cases isSegment : site.endpoint.keyAsSegment with
  | true =>
      rw [keyPart_segment isSegment, createdKey_segment isHttp plain]
      constructor
      · intro same
        have hasSlash : '/' ∈ key.toList := by
          rw [← same]
          simp
        exact absurd hasSlash plain.noSlash
      · rintro ⟨noSegment, -⟩
        cases noSegment
  | false =>
      rw [keyPart_group isSegment, createdKey_group_iff isHttp (isPlainKey_keyText plain)
        plain.noOpening, keyText_eq_self_iff]
      simp [and_comm]

/-- Different keys are written differently. -/
theorem keyPart_inj {other : String} :
    site.keyPart field key = site.keyPart field other ↔ key = other := by
  constructor
  · intro same
    cases isSegment : site.endpoint.keyAsSegment with
    | true =>
        rw [keyPart_segment isSegment, keyPart_segment isSegment] at same
        exact (String.append_right_inj _).mp same
    | false =>
        rw [keyPart_group isSegment, keyPart_group isSegment] at same
        have sameText := (String.append_right_inj _).mp ((String.append_left_inj _).mp same)
        unfold keyText at sameText
        split at sameText
        · exact quote_inj sameText
        · exact sameText
  · rintro rfl
    rfl

end

end Target

namespace Body

open Http (Response)
open Association (NamesByKey)
open Target (Site IsPlainKey EndsInSet createdKey keyText)

/-- What is created is known by the key that is read from its address. -/
theorem answer_created {creating : Function} {idField : Field} {response : Response}
    {location : String} (isPost : creating.method = .post)
    (isField : creating.output.fields.head? = some idField)
    (isCreated : response.status = noContent) (isLocated : createdAt? response = some location) :
    answer creating response =
      .ok (some (Record.empty.set idField.name (.scalar (.text (createdKey location))))) := by
  rw [answer, if_pos ⟨isCreated, isPost⟩, createdOutput?, isLocated, isField]
  rfl

/-- A key that a verb wrote into an address is the id of the created entity at that address
exactly if it was written bare, in parentheses, behind an entity set; and with that id for
a key the same verb addresses the same entity in that case only. Of a key in quotes the
quotes remain, and of an address that ends in the key as a segment all remains. -/
theorem created_id_is_key_iff {site : Site} {reading creating : Function}
    {named : Option Record} {keyField idField : Field} {value : Scalar}
    {address query : String} {options : Query.Options} {response : Response}
    (isHttp : site.definition.scheme = "http" ∨ site.definition.scheme = "https")
    (byKey : NamesByKey reading named keyField value)
    (plain : IsPlainKey (keyField.type.scalarText value).toList)
    (isPath : site.entityTarget reading named = .ok (address ++ query))
    (isOptions : Query.Options.ofInput named = .ok options)
    (isQuery : (Site.asked reading options).queryString = .ok query)
    (isPost : creating.method = .post)
    (isField : creating.output.fields.head? = some idField)
    (isCreated : response.status = noContent)
    (isLocated : createdAt? response =
      some (serviceRoot site.definition.scheme site.definition.host address)) :
    let key := keyField.type.scalarText value
    let url := serviceRoot site.definition.scheme site.definition.host
    ∃ front id, address = front ++ site.keyPart keyField key ∧
      answer creating response =
        .ok (some (Record.empty.set idField.name (.scalar (.text id)))) ∧
      (site.endpoint.keyAsSegment = true → id = url address) ∧
      (site.endpoint.keyAsSegment = false → EndsInSet (url front).toList →
        id = keyText keyField key) ∧
      (id = key ↔ site.endpoint.keyAsSegment = false ∧ keyField.type ≠ .string ∧
        EndsInSet (url front).toList) ∧
      ∀ again, NamesByKey reading again keyField (.text id) →
        site.basePath again = site.basePath named →
        site.bodyParents reading again = site.bodyParents reading named →
        Query.Options.ofInput again = Query.Options.ofInput named →
          (site.entityTarget reading again = .ok (address ++ query) ↔ id = key) := by
  intro key url
  obtain ⟨parts, isTarget⟩ := Site.exists_parts_of_entityTarget isPath
  obtain rfl := Except.ok.inj (parts.isOptions.symm.trans isOptions)
  obtain rfl := Except.ok.inj (parts.isQuery.symm.trans isQuery)
  have keys : parts.keys = [site.keyPart keyField key] :=
    Site.keyParts_single byKey.only byKey.given parts.isKeys
  let front := site.basePath named ++ parts.parents ++ "/" ++ parts.context
  have isAddress : address = front ++ site.keyPart keyField key := by
    rw [Site.Parts.target, Site.Parts.entity, keys, String.join_cons, String.join_nil,
      String.append_empty] at isTarget
    rw [(String.append_left_inj _).mp isTarget]
    exact (String.append_assoc).symm
  have isUrl : url address = url front ++ site.keyPart keyField key := by
    simp only [url, serviceRoot, isAddress, String.append_assoc]
  have hasScheme : "http".toList <+: (url front).toList := by
    rcases isHttp with isHttp | isHttp <;> simp [url, serviceRoot, isHttp]
  refine ⟨front, createdKey (url address), isAddress,
    answer_created isPost isField isCreated isLocated, ?_, ?_, ?_, ?_⟩
  · intro isSegment
    rw [isUrl, Target.keyPart_segment isSegment]
    exact Target.createdKey_segment hasScheme plain
  · intro noSegment ends
    have isWritten : IsPlainKey (keyText keyField key).toList := Target.isPlainKey_keyText plain
    rw [isUrl, Target.keyPart_group noSegment]
    exact (Target.createdKey_group_iff hasScheme isWritten isWritten.noOpening).mpr ⟨ends, rfl⟩
  · rw [isUrl]
    exact Target.createdKey_keyPart_iff hasScheme plain
  · intro again byId sameBase sameParents sameOptions
    have isSimple := Site.isSimple_of_keyParts byKey.only byKey.given parts.isKeys
    have isKeys : site.keyParts reading again = .ok [_] :=
      Site.keyParts_of_only byId.only isSimple byId.given
    have isText : keyField.type.scalarText (.text (createdKey (url address))) =
        createdKey (url address) := by
      cases keyField.type <;> rfl
    rw [isText] at isKeys
    rw [Site.entityTarget_rekeyed isPath parts sameBase sameParents sameOptions isKeys]
    generalize createdKey (url address) = id
    rw [isAddress, Except.ok.injEq, String.append_left_inj, String.join_cons, String.join_nil,
      String.append_empty, ← String.append_assoc, String.append_right_inj, Target.keyPart_inj]

/-- Creates an account, of which only the name is answered. -/
def createNamed : Function where
  name := "create"
  context := some "accounts"
  method := .post
  input := default
  output := { name := "output", fields := [{ name := "id", type := .string }] }

/-- A created account whose name comes back in quotes is another account by that name. -/
theorem named_account_comes_back_quoted :
    let site : Site := ⟨{ scheme := "https", host := "example.com", basePath := "/odata" }, {}⟩
    let created : Response :=
      ⟨204, .ofList [("OData-EntityId", "https://example.com/odata/accounts('abc')")], none⟩
    site.entityTarget Association.getNamed (some ⟨[("id", "abc")]⟩) =
        .ok "/odata/accounts('abc')" ∧
      answer createNamed created = .ok (some ⟨[("id", "'abc'")]⟩) ∧
      site.entityTarget Association.getNamed (some ⟨[("id", "'abc'")]⟩) ≠
        .ok "/odata/accounts('abc')" := by
  intro site created
  have isPath : site.entityTarget Association.getNamed (some ⟨[("id", "abc")]⟩) =
      .ok ("/odata/accounts('abc')" ++ "") := rfl
  have byKey : NamesByKey Association.getNamed (some ⟨[("id", "abc")]⟩)
      { name := "id", type := .string, primaryKey := true } (.text "abc") := ⟨rfl, rfl⟩
  obtain ⟨front, id, isAddress, isAnswer, -, isRead, isKey_iff, isSame_iff⟩ :=
    created_id_is_key_iff (.inr rfl) byKey (by decide) isPath rfl rfl
      (rfl : createNamed.method = .post) rfl (rfl : created.status = noContent) rfl
  obtain rfl : "/odata/accounts" = front := (String.append_left_inj "('abc')").mp isAddress
  obtain rfl : id = "'abc'" := by
    apply isRead rfl
    exact ⟨"https://example.com/odata".toList, "accounts".toList, by decide, by decide, by decide,
      by decide⟩
  refine ⟨isPath, isAnswer, fun same => ?_⟩
  have isKey := (isSame_iff (some ⟨[("id", "'abc'")]⟩) ⟨rfl, rfl⟩ rfl rfl rfl).mp same
  exact absurd isKey (by decide)

end Body

end OData
