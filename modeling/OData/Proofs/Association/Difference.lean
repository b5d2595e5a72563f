/-
# Plans as differences

What is bound and what is wanted are lists in which a key may come up again. Here
a plan is said by those lists alone: each key counts where it comes up first, a key
on one side only makes one request, and a key on both sides makes none. The two
sides lose their repetitions in different ways, one as a state is filled and one as
the requests are written, and both are shown to keep the first of each.

A request is described by what is sent, its verb, its path and the value that its
body is read as, and not by the function that made it.
-/

import OData.Client.Run
import OData.Proofs.Association.Effect
import OData.Proofs.Target.Template
import Mathlib.Data.List.Induction

namespace OData.Association

open Http (Request)
open Target (Site AssociationTarget)

/-! ## Keys of a state -/

namespace State

theorem keys_put (key url : String) (entries : List (String × String)) :
    (put key url entries).map Prod.fst =
      if key ∈ entries.map Prod.fst then entries.map Prod.fst
      else entries.map Prod.fst ++ [key] := by
  induction entries with
  | nil => rfl
  | cons entry rest ih =>
      obtain ⟨name, kept⟩ := entry
      by_cases same : name = key
      · simp [put, same]
      · by_cases isMember : key ∈ rest.map Prod.fst
        · rw [if_pos isMember] at ih
          rw [List.map_cons, if_pos (List.mem_cons_of_mem _ isMember), put, if_neg same,
            List.map_cons, ih]
        · have isFresh : key ∉ name :: rest.map Prod.fst :=
            fun h => (List.mem_cons.mp h).elim (fun found => same found.symm) isMember
          rw [if_neg isMember] at ih
          rw [List.map_cons, if_neg isFresh, put, if_neg same, List.map_cons, ih]
          rfl

/-- A new key comes last, and a known one stays where it is. -/
theorem keys_insert (state : State) (key url : String) :
    (state.insert key url).keys =
      if key ∈ state.keys then state.keys else state.keys ++ [key] :=
  keys_put key url state.entries

theorem ofList_concat (entries : List (String × String)) (entry : String × String) :
    ofList (entries ++ [entry]) = (ofList entries).insert entry.1 entry.2 := by
  rw [ofList, List.foldl_append]
  rfl

/-- The keys of a state are those that came up first as it was filled. -/
theorem keys_ofList (entries : List (String × String)) :
    (ofList entries).keys = (entries.map Prod.fst).eraseDups := by
  induction entries using List.reverseRecOn with
  | nil => rfl
  | append_singleton entries entry ih =>
      have isBound : entry.1 ∈ (ofList entries).keys ↔ entry.1 ∈ entries.map Prod.fst := by
        rw [ih, List.mem_eraseDups]
      rw [ofList_concat, keys_insert, List.map_append, List.map_singleton,
        List.eraseDups_append, ← ih]
      by_cases found : entry.1 ∈ entries.map Prod.fst
      · rw [if_pos (isBound.mpr found)]
        simp [List.removeAll, found]
      · rw [if_neg fun h => found (isBound.mp h)]
        simp [List.removeAll, found, List.eraseDups_cons]

end State

theorem unwanted_ofList (entries : List (String × String)) (desired : List String) :
    unwanted (.ofList entries) desired =
      (entries.map Prod.fst).eraseDups.filter (· ∉ desired) := by
  rw [unwanted, State.keys_ofList]
  exact List.filter_congr fun key _ => by simp

theorem lacking_ofList (entries : List (String × String)) (desired : List String) :
    lacking (.ofList entries) desired =
      desired.eraseDups.filter (· ∉ entries.map Prod.fst) := by
  rw [lacking, Target.distinct_eq_eraseDups]
  refine List.filter_congr fun key _ => ?_
  have isBound : (State.ofList entries).contains key = decide (key ∈ entries.map Prod.fst) := by
    rw [State.contains, State.keys_ofList, List.contains_eq_mem]
    exact decide_eq_decide.mpr List.mem_eraseDups
  simp [isBound]

/-! ## What requests say -/

/-- What a request says: its verb, its path, and the value of its body if it has one. -/
def said (request : Request) : String × String × Option (Option Json) :=
  (request.method, request.target, request.body.map Json.read?)

/-- What is said to unbind a key. -/
def unbinding (site : Site) (target : AssociationTarget) (key : String) :
    String × String × Option (Option Json) :=
  ("DELETE", target.target ++ site.endpoint.keySuffix key ++ "/$ref", none)

/-- What is said to bind a key. -/
def binding (site : Site) (target : AssociationTarget) (key : String) :
    String × String × Option (Option Json) :=
  (if site.endpoint.usePostForRelations then "POST" else "PUT", target.target ++ "/$ref",
    some (some (.object [("@odata.id", .string (entityUrl site target key))])))

section

variable (site : Site) (target : AssociationTarget)

theorem said_unbindRequest (key : String) :
    said (unbindRequest site target key) = unbinding site target key := by
  have path : (unbindRequest site target key).target =
      target.target ++ site.endpoint.keySuffix key ++ "/$ref" := by
    show target.target ++ site.endpoint.keySuffix key ++ "/" ++ referenceSegment = _
    rw [String.append_assoc]
    rfl
  rw [said, path]
  rfl

theorem said_bindRequest (key : String) :
    said (bindRequest site target key) = binding site target key := by
  have verb : (bindRequest site target key).method =
      if site.endpoint.usePostForRelations then "POST" else "PUT" := by
    show (bindMethod site).name = _
    rw [bindMethod]
    split <;> rfl
  have path : (bindRequest site target key).target = target.target ++ "/$ref" := by
    show target.target ++ "/" ++ referenceSegment = _
    rw [String.append_assoc]
    rfl
  have body : (bindRequest site target key).body.map Json.read? =
      some (some (.object [("@odata.id", .string (entityUrl site target key))])) :=
    congrArg some (Json.read?_compact_member idMember (entityUrl site target key))
  rw [said, verb, path, body, binding]

theorem map_said_plan (state : State) (desired : List String) :
    (plan site target state desired).map said =
      (unwanted state desired).map (unbinding site target) ++
        (lacking state desired).map (binding site target) := by
  rw [plan, List.map_append, List.map_map, List.map_map]
  exact congrArg₂ (· ++ ·) (List.map_congr_left fun key _ => said_unbindRequest site target key)
    (List.map_congr_left fun key _ => said_bindRequest site target key)

/-- Planned requests unbind an unwanted key, or bind a lacking one. -/
theorem mem_plan {state : State} {desired : List String} {request : Request} :
    request ∈ plan site target state desired ↔
      (∃ key ∈ unwanted state desired, unbindRequest site target key = request) ∨
        ∃ key ∈ lacking state desired, bindRequest site target key = request := by
  rw [plan, List.mem_append, List.mem_map, List.mem_map]

/-- A request that unbinds a key is for an unwanted one. -/
theorem mem_unwanted_of_unboundKey? {state : State} {desired : List String} {request : Request}
    (isPlanned : request ∈ plan site target state desired) {key : String}
    (unbinds : unboundKey? site target request = some key) : key ∈ unwanted state desired := by
  rcases (mem_plan site target).mp isPlanned with ⟨other, isUnwanted, rfl⟩ | ⟨other, -, rfl⟩
  · rw [unboundKey?_unbindRequest] at unbinds
    exact Option.some.inj unbinds ▸ isUnwanted
  · rw [unboundKey?_bindRequest] at unbinds
    cases unbinds

/-- A request that binds a key is for one that is lacking. -/
theorem mem_lacking_of_boundReference? {state : State} {desired : List String} {request : Request}
    (isPlanned : request ∈ plan site target state desired) {key url : String}
    (binds : boundReference? site target request = some (key, url)) :
    key ∈ lacking state desired := by
  rcases (mem_plan site target).mp isPlanned with ⟨other, -, rfl⟩ | ⟨other, isLacking, rfl⟩
  · have isOther : ¬ ((unbindRequest site target other).method = (bindMethod site).name ∧
        (unbindRequest site target other).target = referencesPath target) :=
      fun same => bindMethod_name_ne_delete site same.1.symm
    rw [boundReference?, if_neg isOther] at binds
    cases binds
  · rw [boundReference?_bindRequest] at binds
    exact (Prod.mk.inj (Option.some.inj binds)).1 ▸ isLacking

end

/-- A plan is the difference of what is bound and what is wanted, both ways: it first
unbinds each bound key that is not wanted, and then binds each wanted key that is not
bound, in the order in which the keys came up first. No request is for a key that is
both. `REMOVE` unbinds every key that it is given, `ADD` binds every one, and neither
does anything else. -/
theorem plan_covers_difference (site : Site) (target : AssociationTarget)
    (entries : List (String × String)) (desired : List String) :
    let bound := entries.map Prod.fst
    let requests := plan site target (.ofList entries) desired
    requests.map said =
        (bound.eraseDups.filter (· ∉ desired)).map (unbinding site target) ++
          (desired.eraseDups.filter (· ∉ bound)).map (binding site target) ∧
      (∀ key ∈ bound, key ∈ desired → ∀ request ∈ requests,
        unboundKey? site target request ≠ some key ∧
          ∀ url, boundReference? site target request ≠ some (key, url)) ∧
      (plan site target (assumed site target) (Client.boundAfter .remove target)).map said =
        target.boundIds.eraseDups.map (unbinding site target) ∧
      (plan site target .empty (Client.boundAfter .add target)).map said =
        target.boundIds.eraseDups.map (binding site target) := by
  intro bound requests
  refine ⟨?_, ?_, ?_, ?_⟩
  · rw [map_said_plan, unwanted_ofList, lacking_ofList]
  · intro key isBound isDesired request isPlanned
    constructor
    · intro unbinds
      have isUnwanted := mem_unwanted_of_unboundKey? site target isPlanned unbinds
      rw [unwanted_ofList, List.mem_filter] at isUnwanted
      exact of_decide_eq_true isUnwanted.2 isDesired
    · intro url binds
      have isLacking := mem_lacking_of_boundReference? site target isPlanned binds
      rw [lacking_ofList, List.mem_filter] at isLacking
      exact of_decide_eq_true isLacking.2 isBound
  · have keys : (target.boundIds.map fun key => (key, entityUrl site target key)).map Prod.fst =
        target.boundIds := by
      rw [List.map_map]
      exact List.map_id _
    rw [map_said_plan, assumed, unwanted_ofList, lacking_ofList, keys]
    simp [Client.boundAfter]
  · rw [map_said_plan]
    show ((unwanted (.ofList []) _).map _ ++ (lacking (.ofList []) _).map _ : List _) = _
    rw [unwanted_ofList, lacking_ofList]
    simp [Client.boundAfter]

/-- One contact of an account is to go, one is to stay, and one is to come. The one that
goes is named in the path, by either convention, and the one that stays in no request. -/
theorem contacts_planned_as_difference :
    let definition : Definition :=
      { scheme := "https", host := "example.com", basePath := "/odata" }
    let target : AssociationTarget :=
      ⟨"/odata/accounts(e1)/rel", "contacts", "rel", ["b", "c", "c"]⟩
    let bound := [("a", "https://example.com/odata/contacts(a)"),
      ("b", "https://example.com/odata/contacts(b)"), ("a", "https://example.org/contacts(a)")]
    let requests (endpoint : Endpoint) :=
      (plan ⟨definition, endpoint⟩ target (.ofList bound) target.boundIds).map said
    requests {} =
        [("DELETE", "/odata/accounts(e1)/rel(a)/$ref", none),
          ("PUT", "/odata/accounts(e1)/rel/$ref", some (some (.object
            [("@odata.id", .string "https://example.com/odata/contacts(c)")])))] ∧
      requests { keyAsSegment := true, usePostForRelations := true } =
        [("DELETE", "/odata/accounts(e1)/rel/a/$ref", none),
          ("POST", "/odata/accounts(e1)/rel/$ref", some (some (.object
            [("@odata.id", .string "https://example.com/odata/contacts/c")])))] := by
  intro definition target bound requests
  constructor
  · exact (plan_covers_difference ⟨definition, {}⟩ target bound target.boundIds).1
  · exact (plan_covers_difference _ target bound target.boundIds).1

end OData.Association
