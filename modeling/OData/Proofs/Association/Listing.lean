/-
# What a client wrote is recognised

A client that binds entities names them by addresses of its own making, and a
server that lists them gives those addresses back. Keys are then read from the
addresses, and everything depends on the reading being the inverse of the writing:
a key that is not recognised would be unbound, and bound again under another name.

A listing is described as a document, not as a text, so that other members, blanks
and other spellings of the same addresses make no difference. The compact text of
the plainest listing is one of them.
-/

import OData.Proofs.Association.Difference
import OData.Proofs.Association.Progress
import OData.Proofs.Json.Spelling
import OData.Proofs.Target.Reference

namespace OData.Association

open Json (Document)
open Target (Site AssociationTarget IsPlainKey)

/-! ## Listings as documents -/

/-- An object holds a member of this name, once, whatever else it holds. -/
def Holds (name : String) (document inner : Document) : Prop :=
  ∃ members named, document = .object members ∧ Json.namedMembers? members = some named ∧
    named.filter (fun member => member.1 == name) = [(name, inner)]

/-- A document names an address. -/
def Names (address : String) (document : Document) : Prop :=
  ∃ pieces, Holds idMember document (.text pieces) ∧ Json.textOf? pieces = some address

/-- A document lists addresses, in order. -/
def Lists (addresses : List String) (document : Document) : Prop :=
  ∃ items, Holds "value" document (.array items) ∧ List.Forall₂ Names addresses items

theorem slots?_of_holds {name : String} {document inner : Document}
    (holds : Holds name document inner) (levels : Nat) :
    Json.slots? [name] (levels + 1) document = some (levels, [.present inner]) := by
  obtain ⟨members, named, rfl, decoded, once⟩ := holds
  have slot : Json.slotOf? named name = some (.present inner) := by
    rw [Json.slotOf?, once]
  rw [Json.slots?, if_neg (Nat.succ_ne_zero levels)]
  simp [decoded, slot]

theorem referenceForm_of_names {address : String} {document : Document}
    (names : Names address document) (levels : Nat) :
    referenceForm (levels + 1) document = some (some address) := by
  obtain ⟨pieces, holds, decoded⟩ := names
  rw [referenceForm, slots?_of_holds holds]
  simp [Json.Slot.nullable, Json.Decoder.nullable, Json.Decoder.text, decoded]

theorem mapM_referenceForm {addresses : List String} {items : List Document}
    (named : List.Forall₂ Names addresses items) (levels : Nat) :
    items.mapM (referenceForm (levels + 1)) = some (addresses.map some) := by
  induction named with
  | nil => rfl
  | cons names _ ih =>
      rw [List.mapM_cons, referenceForm_of_names names, ih]
      rfl

/-- A document that lists addresses is read as those addresses. -/
theorem listingForm_of_lists {addresses : List String} {document : Document}
    (lists : Lists addresses document) (levels : Nat) :
    listingForm (levels + 3) document = some addresses := by
  obtain ⟨items, holds, named⟩ := lists
  rw [listingForm, slots?_of_holds holds]
  simp [Json.Slot.withDefault, Json.Decoder.list, mapM_referenceForm named, List.filterMap_map]

/-- The plainest reference to an address. -/
def reference (address : String) : Json := .object [(idMember, .string address)]

/-- The plainest listing of addresses. -/
def listing (addresses : List String) : Json :=
  .object [("value", .array (addresses.map reference))]

theorem holds_member (name : String) (inner : Document) :
    Holds name (.object [(name.toList.flatMap Json.writtenPieces, inner)]) inner := by
  refine ⟨_, [(name, inner)], rfl, ?_, by simp⟩
  simp [Json.namedMembers?, Json.textOf?_written]

theorem exists_document_of_reference (address : String) :
    ∃ document, Json.Writes (reference address).compact document ∧ Names address document :=
  ⟨_, Json.writes_member (Json.writes_string address) idMember, _, holds_member _ _,
    Json.textOf?_written address⟩

/-- The plainest listing, printed, is a listing. -/
theorem exists_document_of_listing (addresses : List String) :
    ∃ document, Document.read? (listing addresses).compact.toUTF8 = some document ∧
      Lists addresses document := by
  obtain ⟨documents, written, named⟩ : ∃ documents,
      List.Forall₂ (fun (item : Json) document => Json.Writes item.compact document)
        (addresses.map reference) documents ∧
      List.Forall₂ Names addresses documents := by
    induction addresses with
    | nil => exact ⟨[], .nil, .nil⟩
    | cons address rest ih =>
        obtain ⟨document, writes, names⟩ := exists_document_of_reference address
        obtain ⟨documents, written, named⟩ := ih
        exact ⟨document :: documents, .cons writes written, .cons names named⟩
  exact ⟨_, (Json.writes_member (Json.writes_array written) "value").read?, documents,
    holds_member _ _, named⟩

/-! ## What is bound -/

namespace State

theorem put_of_not_mem {key : String} {entries : List (String × String)}
    (isFresh : key ∉ entries.map Prod.fst) (url : String) :
    put key url entries = entries ++ [(key, url)] := by
  induction entries with
  | nil => rfl
  | cons entry rest ih =>
      obtain ⟨different, others⟩ := List.ne_and_not_mem_of_not_mem_cons isFresh
      rw [put, if_neg different.symm, ih others, List.cons_append]

theorem of_mem_put {key url : String} {entries : List (String × String)} {entry : String × String}
    (isMember : entry ∈ put key url entries) : entry = (key, url) ∨ entry ∈ entries := by
  induction entries with
  | nil => exact .inl (List.mem_singleton.mp isMember)
  | cons first rest ih =>
      obtain ⟨name, kept⟩ := first
      by_cases same : name = key
      · rw [put, if_pos same, List.mem_cons, same] at isMember
        exact isMember.imp_right (List.mem_cons_of_mem _)
      · rw [put, if_neg same, List.mem_cons] at isMember
        rcases isMember with rfl | isMember
        · exact .inr List.mem_cons_self
        · exact (ih isMember).imp_right (List.mem_cons_of_mem _)

/-- A state holds nothing that was not put into it. -/
theorem of_mem_ofList {entries : List (String × String)} {entry : String × String}
    (isMember : entry ∈ (ofList entries).entries) : entry ∈ entries := by
  induction entries using List.reverseRecOn with
  | nil => exact isMember
  | append_singleton entries last ih =>
      rw [ofList_concat] at isMember
      rcases of_mem_put isMember with rfl | isMember
      · exact List.mem_append_right _ List.mem_cons_self
      · exact List.mem_append_left _ (ih isMember)

/-- Entries without a repeated key are the state that they fill. -/
theorem entries_ofList {entries : List (String × String)}
    (distinct : (entries.map Prod.fst).Nodup) : (ofList entries).entries = entries := by
  induction entries using List.reverseRecOn with
  | nil => rfl
  | append_singleton entries last ih =>
      rw [List.map_append, List.nodup_append] at distinct
      obtain ⟨others, -, apart⟩ := distinct
      have isFresh : last.1 ∉ entries.map Prod.fst :=
        fun isMember => apart _ isMember _ List.mem_cons_self rfl
      rw [ofList_concat]
      show put last.1 last.2 (ofList entries).entries = _
      rw [ih others, put_of_not_mem isFresh]

end State

theorem stateOf_addresses {state : State} (distinct : state.keys.Nodup)
    (recognised : ∀ entry ∈ state.entries, Target.referenceKey entry.2 = entry.1) :
    stateOf (state.entries.map Prod.snd) = state := by
  have same : (state.entries.map Prod.snd).map
      (fun reference => (Target.referenceKey reference, reference)) = state.entries := by
    rw [List.map_map]
    conv_rhs => rw [← List.map_id state.entries]
    exact List.map_congr_left fun entry isMember =>
      Prod.ext (recognised entry isMember) rfl
  rw [stateOf, same]
  exact congrArg State.mk (State.entries_ofList distinct)

section

variable {site : Site} {target : AssociationTarget}

/-- What is assumed to be bound are ids that were named, under their own addresses. -/
theorem mem_assumed {entry : String × String} (isMember : entry ∈ (assumed site target).entries) :
    entry.1 ∈ target.boundIds ∧ entry.2 = entityUrl site target entry.1 := by
  obtain ⟨key, isNamed, rfl⟩ := List.mem_map.mp (State.of_mem_ofList isMember)
  exact ⟨isNamed, rfl⟩

theorem mem_keys_assumed {key : String} :
    key ∈ (assumed site target).keys ↔ key ∈ target.boundIds := by
  rw [assumed, State.keys_ofList, List.mem_eraseDups, List.map_map]
  exact Iff.of_eq (congrArg (key ∈ ·) (List.map_id _))

/-- Nothing is left to be done when all that is wanted is bound, and nothing else. -/
theorem plan_assumed {desired : List String}
    (same : ∀ key, key ∈ desired ↔ key ∈ target.boundIds) :
    plan site target (assumed site target) desired = [] := by
  have noneUnwanted : unwanted (assumed site target) desired = [] := by
    apply List.eq_nil_iff_forall_not_mem.mpr
    intro key isUnwanted
    obtain ⟨isBound, notDesired⟩ := mem_unwanted.mp isUnwanted
    exact notDesired ((same key).mpr (mem_keys_assumed.mp isBound))
  have noneLacking : lacking (assumed site target) desired = [] := by
    apply List.eq_nil_iff_forall_not_mem.mpr
    intro key isLacking
    obtain ⟨isDesired, notBound⟩ := mem_lacking.mp isLacking
    exact notBound (mem_keys_assumed.mpr ((same key).mp isDesired))
  rw [plan, noneUnwanted, noneLacking]
  rfl

theorem referenceKey_entityUrl {key : String} (plain : IsPlainKey key.toList)
    (rootOnOneLine : '\n' ∉ site.definition.root.toList)
    (collectionOnOneLine : '\n' ∉ target.collection.toList)
    (noGroup : site.endpoint.keyAsSegment = true →
      '(' ∉ site.definition.root.toList ∧ '(' ∉ target.collection.toList) :
    Target.referenceKey (entityUrl site target key) = key := by
  have oneLine : '\n' ∉ (site.definition.root ++ "/" ++ target.collection).toList := by
    simp [rootOnOneLine, collectionOnOneLine]
  apply Target.referenceKey_keySuffix plain oneLine
  intro isSegment
  obtain ⟨inRoot, inCollection⟩ := noGroup isSegment
  simp [inRoot, inCollection]

/-- A body that spells a document is not taken for a missing one. -/
theorem existing_of_read? {response : Http.Response} {body : ByteArray} {document : Document}
    (hasBody : response.body = some body) (spells : Document.read? body = some document)
    {addresses : List String} (lists : Lists addresses document) :
    existing response = .ok (stateOf addresses) := by
  have notEmpty : (body.size != 0) = true := by
    apply bne_iff_ne.mpr
    intro isEmpty
    rw [ByteArray.size_eq_zero_iff.mp isEmpty] at spells
    cases spells
  have content : response.content? = some body := by
    rw [Http.Response.content?, hasBody, Option.filter_some, if_pos notEmpty]
  have read : listingForm Json.greatestDepth document = some addresses :=
    listingForm_of_lists lists _
  rw [existing, content]
  simp only
  rw [spells, Option.bind_some, read]

end

/-- A server that lists what a client bound, however it spells the listing, is
understood to have bound exactly that, and nothing is left to be done. Keys may not
hold what delimits them, and where they are segments, no other parentheses may be
found in an address. -/
theorem listed_references_recognised (site : Site) (target : AssociationTarget)
    (plain : ∀ key ∈ target.boundIds, IsPlainKey key.toList)
    (rootOnOneLine : '\n' ∉ site.definition.root.toList)
    (collectionOnOneLine : '\n' ∉ target.collection.toList)
    (noGroup : site.endpoint.keyAsSegment = true →
      '(' ∉ site.definition.root.toList ∧ '(' ∉ target.collection.toList) :
    let bound := assumed site target
    let addresses := bound.entries.map Prod.snd
    (∃ document, Document.read? (listing addresses).compact.toUTF8 = some document ∧
        Lists addresses document) ∧
      (∀ response body document, response.body = some body → Document.read? body = some document →
        Lists addresses document → existing response = .ok bound) ∧
      ∀ desired, (∀ key, key ∈ desired ↔ key ∈ target.boundIds) →
        plan site target bound desired = [] := by
  intro bound addresses
  refine ⟨exists_document_of_listing addresses, ?_, fun desired same => plan_assumed same⟩
  intro response body document hasBody spells lists
  have recognised : ∀ entry ∈ bound.entries, Target.referenceKey entry.2 = entry.1 := by
    intro entry isMember
    obtain ⟨isNamed, isAddress⟩ := mem_assumed isMember
    rw [isAddress]
    exact referenceKey_entityUrl (plain _ isNamed) rootOnOneLine collectionOnOneLine noGroup
  have distinct : bound.keys.Nodup := State.nodup_keys_ofList _
  rw [existing_of_read? hasBody spells lists]
  exact congrArg Except.ok (stateOf_addresses distinct recognised)

/-- Parentheses in the path of the service do not get in the way of those around keys. -/
theorem bound_contacts_recognised :
    let site : Site :=
      ⟨{ scheme := "https", host := "example.com", basePath := "/odata(v4)" }, {}⟩
    let first := "https://example.com/odata(v4)/contacts(b)"
    let second := "https://example.com/odata(v4)/contacts(c)"
    existing ⟨200, .empty, some (listing [first, second]).compact.toUTF8⟩ =
        .ok ⟨[("b", first), ("c", second)]⟩ ∧
      plan site ⟨"/odata(v4)/accounts(e1)/rel", "contacts", "rel", ["b", "c", "b"]⟩
        ⟨[("b", first), ("c", second)]⟩ ["c", "b"] = [] := by
  intro site first second
  obtain ⟨⟨document, spells, lists⟩, recognised, settled⟩ := listed_references_recognised site
    ⟨"/odata(v4)/accounts(e1)/rel", "contacts", "rel", ["b", "c", "b"]⟩
    (by decide) (by decide) (by decide) (by decide)
  have bound : assumed site ⟨"/odata(v4)/accounts(e1)/rel", "contacts", "rel", ["b", "c", "b"]⟩ =
      ⟨[("b", first), ("c", second)]⟩ := rfl
  rw [bound] at spells lists recognised settled
  exact ⟨recognised _ _ document rfl spells lists, settled _ (by simp [or_comm])⟩

end OData.Association
