/-
# What association requests do

A server knows an association request by its own text alone: by the verb, by the
path, and by the address in the body. This module reads requests that way and says
what each of them does to the entities that are bound. Two facts connect the
reading with the requests that are planned: the request that unbinds a key takes
that key out, and the request that binds a key puts that key, with its address, at
the end. Whether a server obeys is not claimed here.
-/

import OData.Association.Plan
import OData.Proofs.Json.Written
import Mathlib.Data.List.Basic

namespace OData.Association

open Http (Request)
open Target (Site AssociationTarget)

/-! ## Reading keys -/

/-- The key that stands after an entity set in the given convention. -/
def suffixKey? (keyAsSegment : Bool) (chars : List Char) : Option String :=
  match keyAsSegment, chars with
  | true, '/' :: key => some (String.ofList key)
  | false, '(' :: rest =>
      if rest.getLast? = some ')' then some (String.ofList rest.dropLast) else none
  | _, _ => none

theorem suffixKey?_keySuffix (keyAsSegment : Bool) (key : String) :
    suffixKey? keyAsSegment (keySuffix keyAsSegment key).toList = some key := by
  cases keyAsSegment with
  | true =>
      have chars : (keySuffix true key).toList = '/' :: key.toList := by simp [keySuffix]
      rw [chars, suffixKey?, String.ofList_toList]
  | false =>
      have chars : (keySuffix false key).toList = '(' :: (key.toList ++ [')']) := by
        simp [keySuffix]
      rw [chars, suffixKey?, if_pos List.getLast?_concat, List.dropLast_concat,
        String.ofList_toList]

/-- The key of the entity at an address, if it lies in the bound set. -/
def addressedKey? (site : Site) (target : AssociationTarget) (url : String) : Option String :=
  (url.toList.dropPrefix? (site.definition.root ++ "/" ++ target.collection).toList).bind
    (suffixKey? site.endpoint.keyAsSegment)

theorem addressedKey?_entityUrl (site : Site) (target : AssociationTarget) (key : String) :
    addressedKey? site target (entityUrl site target key) = some key := by
  rw [addressedKey?, entityUrl, String.toList_append,
    List.dropPrefix?_append_of_beq _ (BEq.refl _), Option.bind_some]
  exact suffixKey?_keySuffix site.endpoint.keyAsSegment key

/-! ## Reading requests -/

/-- The key whose reference a request deletes. -/
def unboundKey? (site : Site) (target : AssociationTarget) (request : Request) : Option String :=
  if request.method = Method.delete.name then
    (request.target.toList.dropPrefix? target.target.toList).bind fun rest =>
      (rest.dropSuffix? ("/" ++ referenceSegment).toList).bind
        (suffixKey? site.endpoint.keyAsSegment)
  else none

/-- The address that the body of a request names. -/
def namedAddress? (request : Request) : Option String := do
  let body ← request.body
  let json ← Json.read? body
  match json.get? idMember with
  | some (.string url) => some url
  | _ => none

/-- The key and the address that a request adds to the references of a target. -/
def boundReference? (site : Site) (target : AssociationTarget) (request : Request) :
    Option (String × String) :=
  if request.method = (bindMethod site).name ∧ request.target = referencesPath target then do
    let url ← namedAddress? request
    let key ← addressedKey? site target url
    return (key, url)
  else none

theorem unboundKey?_unbindRequest (site : Site) (target : AssociationTarget) (key : String) :
    unboundKey? site target (unbindRequest site target key) = some key := by
  have path : (unbindRequest site target key).target =
      target.target ++ (site.endpoint.keySuffix key ++ ("/" ++ referenceSegment)) := by
    show target.target ++ site.endpoint.keySuffix key ++ "/" ++ referenceSegment = _
    simp only [String.append_assoc]
  have suffix :
      ((site.endpoint.keySuffix key).toList ++ ("/" ++ referenceSegment).toList).dropSuffix?
        ("/" ++ referenceSegment).toList = some (site.endpoint.keySuffix key).toList :=
    List.dropSuffix?_eq_some_iff.mpr ⟨_, rfl, BEq.refl _⟩
  have deletes : (unbindRequest site target key).method = Method.delete.name := rfl
  rw [unboundKey?, if_pos deletes, path, String.toList_append, String.toList_append,
    List.dropPrefix?_append_of_beq _ (BEq.refl _), Option.bind_some, suffix, Option.bind_some]
  exact suffixKey?_keySuffix site.endpoint.keyAsSegment key

theorem namedAddress?_bindRequest (site : Site) (target : AssociationTarget) (key : String) :
    namedAddress? (bindRequest site target key) = some (entityUrl site target key) := by
  have body : (bindRequest site target key).body =
      some (bindBody site target key).compact.toUTF8 := rfl
  rw [namedAddress?, body, bindBody, Option.bind_eq_bind, Option.bind_some,
    Json.read?_compact_member, Option.bind_eq_bind, Option.bind_some]
  have member : Json.get? idMember (.object [(idMember, .string (entityUrl site target key))]) =
      some (.string (entityUrl site target key)) := by
    simp [Json.get?]
  rw [member]

theorem boundReference?_bindRequest (site : Site) (target : AssociationTarget) (key : String) :
    boundReference? site target (bindRequest site target key) =
      some (key, entityUrl site target key) := by
  have addressed : (bindRequest site target key).method = (bindMethod site).name ∧
      (bindRequest site target key).target = referencesPath target := ⟨rfl, rfl⟩
  rw [boundReference?, if_pos addressed, namedAddress?_bindRequest, Option.bind_eq_bind,
    Option.bind_some, addressedKey?_entityUrl]
  rfl

/-- Binding is never done by the verb that unbinds. -/
theorem bindMethod_name_ne_delete (site : Site) :
    (bindMethod site).name ≠ Method.delete.name := by
  unfold bindMethod
  split <;> decide

theorem unboundKey?_bindRequest (site : Site) (target : AssociationTarget) (key : String) :
    unboundKey? site target (bindRequest site target key) = none :=
  if_neg (bindMethod_name_ne_delete site)

/-! ## The effect on what is bound -/

namespace State

/-- The state without a key. -/
def without (state : State) (key : String) : State :=
  ⟨state.entries.filter fun entry => entry.1 != key⟩

/-- The state with a key at its end. -/
def append (state : State) (key url : String) : State := ⟨state.entries ++ [(key, url)]⟩

@[simp]
theorem keys_without (state : State) (key : String) :
    (state.without key).keys = state.keys.filter (· != key) := by
  simp only [keys, without, List.filter_map]
  rfl

@[simp]
theorem keys_append (state : State) (key url : String) :
    (state.append key url).keys = state.keys ++ [key] := by
  simp [keys, append]

/-- What is bound once a request has been carried out: a deleted reference is gone,
a written one stands at the end, and any other request changes nothing. -/
def afterRequest (site : Site) (target : AssociationTarget) (state : State)
    (request : Request) : State :=
  match unboundKey? site target request with
  | some key => state.without key
  | none =>
      match boundReference? site target request with
      | some (key, url) => state.append key url
      | none => state

/-- What is bound once several requests have been carried out in order. -/
def afterRequests (site : Site) (target : AssociationTarget) (state : State)
    (requests : List Request) : State :=
  requests.foldl (afterRequest site target) state

theorem afterRequest_unbindRequest (site : Site) (target : AssociationTarget) (state : State)
    (key : String) :
    state.afterRequest site target (unbindRequest site target key) = state.without key := by
  rw [afterRequest, unboundKey?_unbindRequest]

theorem afterRequest_bindRequest (site : Site) (target : AssociationTarget) (state : State)
    (key : String) :
    state.afterRequest site target (bindRequest site target key) =
      state.append key (entityUrl site target key) := by
  rw [afterRequest, unboundKey?_bindRequest, boundReference?_bindRequest]

theorem afterRequests_cons (site : Site) (target : AssociationTarget) (state : State)
    (request : Request) (requests : List Request) :
    state.afterRequests site target (request :: requests) =
      (state.afterRequest site target request).afterRequests site target requests := rfl

end State

end OData.Association
