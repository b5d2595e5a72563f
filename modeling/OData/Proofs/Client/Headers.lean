/-
# Headers of requests

A request gets its headers one after another: with its body, with what is accepted, with
the condition under which it is carried out, and with credentials. Every one is set under
its own name, so that none replaces another, whichever are set. `Headed` says what holds
of the headers together; it has one rule for each function that sets some.

Conditions belong to the verb of the function and not to the verb of the request: an
association is removed with `DELETE`, and created perhaps with `PUT`, without any.
-/

import OData.Proofs.Association.Difference
import OData.Proofs.Client.Call
import OData.Proofs.Outcome

namespace OData.Client

open Http (Headers Request)
open Target (Site AssociationTarget)

/-- What the headers of a request are, given the host, and whether it is conditional and
carries credentials. -/
structure Headed (host : String) (conditional authorized : Bool) (request : Request) : Prop where
  /-- No two headers have the same name, whatever its case. -/
  distinct : request.headers.Distinct
  /-- The length of the body in bytes. Without a body it is zero. -/
  length : request.headers.get? "Content-Length" =
    some (toString (request.body.elim 0 ByteArray.size))
  /-- There is a media type exactly if there is a body. -/
  mediaType : request.headers.get? "Content-Type" = request.body.map fun _ => Http.jsonType
  accept : request.headers.get? "Accept" = some Http.jsonType
  host : request.headers.get? "Host" = some host
  condition : request.headers.get? "If-Match" = if conditional then some "*" else none
  authorization : (request.headers.get? "Authorization").isSome = authorized

namespace Headed

variable {host : String} {conditional authorized : Bool} {request : Request}

theorem get?_empty (name : String) : Headers.empty.get? name = none := rfl

/-- Requests without a condition, with a body or without. -/
theorem ofBody (method target : String) (body : Option ByteArray) :
    Headed host false false
      ((Request.ofBody method target (body.map fun bytes => (Http.jsonType, bytes))).accepting
        host) := by
  cases body with
  | none =>
      refine ⟨?_, ?_, ?_, ?_, ?_, ?_, ?_⟩
      · exact Headers.distinct_set (Headers.distinct_set (Headers.distinct_set
          Headers.distinct_empty _ _) _ _) _ _
      all_goals
        simp +decide only [Option.map_none, Request.ofBody, Request.empty, Request.accepting,
          Request.setHeader, Headers.get?_set, get?_empty, if_true, if_false, Option.elim]
  | some bytes =>
      refine ⟨?_, ?_, ?_, ?_, ?_, ?_, ?_⟩
      · exact Headers.distinct_set (Headers.distinct_set (Headers.distinct_set
          (Headers.distinct_set Headers.distinct_empty _ _) _ _) _ _) _ _
      all_goals
        simp +decide only [Option.map_some, Request.ofBody, Request.withBody, Request.accepting,
          Request.setHeader, Headers.get?_set, get?_empty, if_true, if_false, Option.elim]

/-- Another header, under a name of its own, leaves the others as they were. -/
theorem get?_setHeader {name other : String} (value : String)
    (different : Text.sameIgnoringCase name other = false) :
    (request.setHeader name value).headers.get? other = request.headers.get? other := by
  rw [Request.setHeader, Headers.get?_set, different]
  rfl

theorem get?_setHeader_self (name value : String) :
    (request.setHeader name value).headers.get? name = some value := by
  rw [Request.setHeader, Headers.get?_set, Text.sameIgnoringCase_self, if_pos rfl]

theorem conditioned (headed : Headed host false authorized request) :
    Headed host true authorized (request.setHeader "If-Match" "*") where
  distinct := Headers.distinct_set headed.distinct _ _
  length := (get?_setHeader _ (by decide)).trans headed.length
  mediaType := (get?_setHeader _ (by decide)).trans headed.mediaType
  accept := (get?_setHeader _ (by decide)).trans headed.accept
  host := (get?_setHeader _ (by decide)).trans headed.host
  condition := get?_setHeader_self _ _
  authorization := by rw [get?_setHeader _ (by decide), headed.authorization]

theorem withCredentials (headed : Headed host conditional false request) (value : String) :
    Headed host conditional true (request.setHeader "Authorization" value) where
  distinct := Headers.distinct_set headed.distinct _ _
  length := (get?_setHeader _ (by decide)).trans headed.length
  mediaType := (get?_setHeader _ (by decide)).trans headed.mediaType
  accept := (get?_setHeader _ (by decide)).trans headed.accept
  host := (get?_setHeader _ (by decide)).trans headed.host
  condition := (get?_setHeader _ (by decide)).trans headed.condition
  authorization := by rw [get?_setHeader_self]; rfl

end Headed

/-! ## What is sent for a function -/

/-- The requests of a function are conditional: it changes entities that have to exist,
and versions are not ignored. -/
def isConditional (function : Function) (endpoint : Endpoint) : Bool :=
  [Method.put, .patch, .delete].contains function.method && !endpoint.ignoreEtag

theorem isConditional_of_mode? {function : Function} {endpoint : Endpoint}
    (isAssociation : function.method.mode?.isSome) : isConditional function endpoint = false := by
  cases method : function.method <;> simp_all [Method.mode?, isConditional]

/-- A body that a function sends is JSON. -/
theorem exists_of_bodyOf {client : Client} {definition : Definition} {function : Function}
    {input : Option Record} {body : Option (String × ByteArray)}
    (isBody : client.bodyOf definition function input = .ok body) :
    ∃ content : Option ByteArray, body = content.map fun bytes => (Http.jsonType, bytes) := by
  unfold bodyOf at isBody
  split at isBody
  · cases isBody
    exact ⟨none, rfl⟩
  · split at isBody
    all_goals
      obtain ⟨linked, -, isBody⟩ := exists_of_bind_ok isBody
      obtain ⟨bytes, -, isBody⟩ := exists_of_bind_ok isBody
      cases isBody
      exact ⟨some bytes, rfl⟩

variable {client : Client} {definition : Definition} {function : Function}
  {input : Option Record}

theorem headed_entityRequest {site : Site} (target : String) (content : Option ByteArray) :
    Headed site.definition.host (isConditional function site.endpoint) false
      (entityRequest site function.method target
        (content.map fun bytes => (Http.jsonType, bytes))) := by
  have isSame : (function.method.isConditional && !site.endpoint.ignoreEtag) =
      isConditional function site.endpoint := by
    rw [isConditional]
    cases function.method <;> rfl
  rw [entityRequest, isSame]
  have headed : Headed site.definition.host false false _ :=
    .ofBody function.method.name target content
  cases isConditional function site.endpoint with
  | true => exact headed.conditioned
  | false => exact headed

theorem headed_of_requestOf {site : Site} {request : Request}
    (isRequest : client.requestOf site function input = .ok request) :
    Headed site.definition.host (isConditional function site.endpoint) false request := by
  obtain ⟨target, -, isRequest⟩ := exists_of_bind_ok isRequest
  obtain ⟨body, isBody, isRequest⟩ := exists_of_bind_ok isRequest
  cases isRequest
  obtain ⟨content, rfl⟩ := exists_of_bodyOf isBody
  exact headed_entityRequest target content

theorem headed_of_isReferenceRequest {site : Site} {target : AssociationTarget}
    {request : Request} (isReference : IsReferenceRequest site target request) :
    Headed site.definition.host false false request := by
  rcases isReference with rfl | ⟨existing, desired, isPlanned⟩
  · exact .ofBody _ _ none
  · rcases (Association.mem_plan site target).mp isPlanned with ⟨key, -, rfl⟩ | ⟨key, -, rfl⟩
    · exact .ofBody _ _ none
    · exact .ofBody _ _ (some _)

/-! ## Credentials -/

/-- The authenticator adds bearer tokens. Tokens and time may differ from one request to
the next. -/
def IsBearer (authenticator : Authenticator) : Prop :=
  ∃ bearer : History → Bearer, ∀ history request context,
    authenticator history request context = .ok ((bearer history).authenticate request context)

/-- A request that is handed over carries credentials exactly if they are asked for. -/
theorem Sending.headed {host : String} {conditional : Bool} {request : Request}
    {result : Except Fault Http.Response} {made : List Exchange}
    (noAmendment : client.amendment = none)
    (areBearers : ∀ authenticator, client.authenticator = some authenticator →
      IsBearer authenticator)
    (headed : Headed host conditional false request)
    (sending : Sending client request result made) :
    ∀ exchange ∈ made, Headed host conditional client.endpoint.securityType.isSome
      exchange.dispatch.request := by
  cases sending with
  | refused _ => exact List.forall_mem_nil _
  | dropped _ => exact List.forall_mem_nil _
  | handed admits amends _ _ =>
      intro exchange isMember
      obtain rfl := List.mem_singleton.mp isMember
      obtain rfl := Except.ok.inj (amends.eq_of_none noAmendment)
      cases admits with
      | unasked isOpen =>
          rw [isOpen]
          exact headed
      | accepted asked =>
          obtain ⟨isSecured, isThere, -, isVerdict⟩ := asked
          obtain ⟨bearer, isBearer⟩ := areBearers _ isThere
          rw [isBearer, Bearer.authenticate] at isVerdict
          rw [isSecured]
          split at isVerdict
          · obtain ⟨-, isLeft⟩ := Verdict.mk.inj (Except.ok.inj isVerdict)
            exact isLeft ▸ headed.withCredentials _
          · cases isVerdict

/-! ## Calls -/

section

variable (noAmendment : client.amendment = none)
  (areBearers : ∀ authenticator, client.authenticator = some authenticator →
    IsBearer authenticator)

include noAmendment areBearers

/-- What an association verb sends is never conditional, whatever the verbs of its
requests. -/
theorem associate_headed (site : Site) (target : AssociationTarget) (operation : Operation)
    (mode : AssociationMode) (session : Session) :
    Ensures client (client.associate site operation mode target) session fun _ made =>
      ∀ exchange ∈ made, Headed site.definition.host false client.endpoint.securityType.isSome
        exchange.dispatch.request := by
  have sent {request : Request} {result : Except Fault Http.Response} {made : List Exchange}
      (isReference : IsReferenceRequest site target request)
      (sending : Sending client request result made) :
      ∀ exchange ∈ made, Headed site.definition.host false client.endpoint.securityType.isSome
        exchange.dispatch.request :=
    sending.headed noAmendment areBearers (headed_of_isReferenceRequest isReference)
  refine ensures_associate ⟨?_, ?_, ?_⟩ ?_ operation mode session
  · exact List.forall_mem_nil _
  · exact fun isReference sending => sent isReference sending
  · exact fun isReference sending holds =>
      List.forall_mem_append.mpr ⟨sent isReference sending, holds⟩
  · exact fun sending _ => sent (.inl rfl) sending

theorem execute_headed (operation : Operation) (session : Session) :
    Ensures client (client.execute definition function input operation) session fun _ made =>
      ∀ exchange ∈ made, Headed definition.host (isConditional function client.endpoint)
        client.endpoint.securityType.isSome exchange.dispatch.request := by
  cases verb : function.method.mode? with
  | none =>
      refine ensures_execute_regular verb operation session ?_ ?_
      · exact fun _ _ => List.forall_mem_nil _
      · exact fun request isRequest _ _ sending =>
          sending.headed noAmendment areBearers (headed_of_requestOf isRequest)
  | some mode =>
      have unconditional : isConditional function client.endpoint = false :=
        isConditional_of_mode? (by rw [verb]; rfl)
      refine ensures_execute_association verb operation session ?_ ?_
      · exact fun _ _ => List.forall_mem_nil _
      · intro target _
        rw [unconditional]
        exact associate_headed noAmendment areBearers _ target operation mode session

end

/-- Without the caller's hook, and with bearer tokens where credentials are asked for, every
request that a call hands to the transport has its headers in order. It is conditional
exactly if its function puts, patches or deletes and versions are not ignored, and so never
when it works on references. -/
theorem requests_headed {client : Client} (noAmendment : client.amendment = none)
    (areBearers : ∀ authenticator, client.authenticator = some authenticator →
      IsBearer authenticator)
    (call : Call) (input : Option Record) (transaction : Option String) (session : Session) :
    ∃ events,
      ((call.run client input transaction).course session).2.history = session.history ++ events ∧
      ∀ dispatch ∈ History.sent events, ∃ definition function,
        (client.definition.course session).1 = .ok definition ∧
        call.function? definition = some function ∧
        Headed definition.host (isConditional function client.endpoint)
          client.endpoint.securityType.isSome dispatch.request ∧
        (function.method.mode?.isSome → dispatch.request.headers.get? "If-Match" = none) := by
  have ensures : Ensures client (call.run client input transaction) session fun _ made =>
      ∀ exchange ∈ made, ∃ definition function,
        (client.definition.course session).1 = .ok definition ∧
        call.function? definition = some function ∧
        Headed definition.host (isConditional function client.endpoint)
          client.endpoint.securityType.isSome exchange.dispatch.request := by
    refine call.ensures (fun _ _ => List.forall_mem_nil _) (fun _ _ => List.forall_mem_nil _) ?_
    intro definition function operation reached known isFunction
    refine (execute_headed noAmendment areBearers operation reached).imp ?_
    exact fun _ _ areHeaded exchange isMember =>
      ⟨definition, function, known, isFunction, areHeaded exchange isMember⟩
  obtain ⟨events, added, areHeaded⟩ := ensures
  refine ⟨events, added, fun dispatch isSent => ?_⟩
  rw [← map_dispatch_exchanges client.transport session.history] at isSent
  obtain ⟨exchange, isMember, rfl⟩ := List.mem_map.mp isSent
  obtain ⟨definition, function, known, isFunction, headed⟩ := areHeaded exchange isMember
  refine ⟨definition, function, known, isFunction, headed, fun isAssociation => ?_⟩
  rw [headed.condition, isConditional_of_mode? isAssociation]
  rfl

/-- An account gets another name. -/
def renameAccount : Function where
  name := "rename"
  context := some "accounts"
  method := .patch
  input := {
    name := "input"
    fields := [
      { name := "id", type := .guid, primaryKey := true },
      { name := "account",
        type := .complex {
          name := "Account", fields := [{ name := "name", type := .string }] } }] }
  output := default

def renamed : Record := ⟨[("id", "a1"), ("account", .record ⟨[("name", "x")]⟩)]⟩

def oneToken : Bearer where
  tokens := [("crm", { value := "t" })]
  environment _ := none

/-- A client with one token, of a server that takes everything. -/
def tokenHolder : Client where
  id := "crm"
  endpoint := { securityType := some "bearer", securityContext := some "crm" }
  resolve _ := .ok { scheme := "https", host := "example.com", basePath := "/odata" }
  transport _ _ := .ok ⟨204, .empty, none⟩
  authenticator := some fun _ request context => .ok (oneToken.authenticate request context)
  amendment := none
  registry := none
  entitySets := []
  monitoring := {}

theorem renaming_headed :
    let ended := ((Call.of renameAccount).run tokenHolder (some renamed) none).course {}
    ended.2.history.sent.map (fun dispatch => dispatch.request.headers.entries) =
        [[("Content-Length", "12"), ("Content-Type", "application/json"),
          ("Accept", "application/json"), ("Host", "example.com"), ("If-Match", "*"),
          ("Authorization", "Bearer t")]] ∧
      ∀ dispatch ∈ ended.2.history.sent, Headed "example.com" true true dispatch.request := by
  have areBearers (authenticator : Authenticator)
      (isThere : tokenHolder.authenticator = some authenticator) : IsBearer authenticator := by
    cases isThere
    exact ⟨fun _ => oneToken, fun _ _ _ => rfl⟩
  obtain ⟨events, added, areHeaded⟩ :=
    requests_headed rfl areBearers (.of renameAccount) (some renamed) none {}
  refine ⟨by decide +kernel, fun dispatch isSent => ?_⟩
  rw [added] at isSent
  obtain ⟨definition, function, known, isFunction, headed, -⟩ := areHeaded dispatch isSent
  cases known
  cases isFunction
  exact headed

end OData.Client
