/-
# Credentials stay out of the log

A log is read by more people than a server's secrets are meant for. This module makes a call
twice, with different credentials, and compares the logs. `Twins` says what the two runs have
in common: the settings of the client, and a world that answers alike wherever it is asked in
these runs. A server may well turn other credentials down. Then both logs are the same but
for the numbers of the calls, so that nothing can be learned from a log about credentials,
neither from the headers it shows nor from the faults it words.
-/

import OData.Proofs.Association.Conduct
import OData.Proofs.Client.Likeness

namespace OData.Client

open Http (Request Response)
open Target (Site AssociationTarget)

/-! ## Alike worlds -/

/-- An authenticator that adds bearer tokens, of which there may be others at another time. -/
def bearing (bearer : History → Bearer) : Authenticator :=
  fun history request context => .ok ((bearer history).authenticate request context)

/-- In two runs, two authenticators decide alike. -/
inductive AlikeAuthenticators (here there : Stretch) (context : Option String) :
    Authenticator → Authenticator → Prop
  /-- Bearer tokens are added, whichever they are; either both runs have one or neither. -/
  | bearing {bearer bearerThere : History → Bearer}
      (asGood : ∀ {past pastThere request requestThere},
        Meet here there past pastThere (.authenticated request) (.authenticated requestThere) →
          (context.bind (bearer past).token?).isSome =
            (context.bind (bearerThere pastThere).token?).isSome) :
      AlikeAuthenticators here there context (bearing bearer) (bearing bearerThere)
  /-- Anything else is done, with alike verdicts. -/
  | deciding {authenticator authenticatorThere : Authenticator}
      (verdicts : ∀ {past pastThere request requestThere},
        Meet here there past pastThere (.authenticated request) (.authenticated requestThere) →
          Matching AlikeVerdicts (authenticator past request context)
            (authenticatorThere pastThere requestThere context)) :
      AlikeAuthenticators here there context authenticator authenticatorThere

/-- A client twice, without the caller's hook: the same settings, in worlds that answer alike
wherever they are asked in two runs. -/
structure Twins (here there : Stretch) (client twin : Client) : Prop where
  endpoint : client.endpoint = twin.endpoint
  registry : client.registry = twin.registry
  monitoring : client.monitoring = twin.monitoring
  noAmendment : client.amendment = none
  noAmendmentThere : twin.amendment = none
  resolve : ∀ {past pastThere}, Meet here there past pastThere .resolved .resolved →
    client.resolve past = twin.resolve pastThere
  authenticators : Option.Rel (AlikeAuthenticators here there client.endpoint.securityContext)
    client.authenticator twin.authenticator
  transport : ∀ {past pastThere dispatch dispatchThere},
    Meet here there past pastThere (.sent dispatch) (.sent dispatchThere) →
      Matching AlikeResponses (client.transport past dispatch)
        (twin.transport pastThere dispatchThere)

/-- Another value under the name of a header that holds credentials makes no difference. -/
theorem AlikeRequests.setCredentials {request other : Request}
    (alike : AlikeRequests request other) {name : String}
    (credentials : HoldsCredentials name) (value valueThere : String) :
    AlikeRequests (request.setHeader name value) (other.setHeader name valueThere) :=
  ⟨alike.method, alike.target, alike.headers.set name (.inl credentials), alike.body⟩

section

variable {here there : Stretch}

/-- Adding a token changes a request in its credentials only. -/
theorem AlikeAuthenticators.verdicts {context : Option String}
    {authenticator authenticatorThere : Authenticator}
    (alike : AlikeAuthenticators here there context authenticator authenticatorThere)
    {past pastThere : History} {request requestThere : Request}
    (meet : Meet here there past pastThere (.authenticated request)
      (.authenticated requestThere)) :
    Matching AlikeVerdicts (authenticator past request context)
      (authenticatorThere pastThere requestThere context) := by
  cases alike with
  | deciding verdicts => exact verdicts meet
  | @bearing bearer bearerThere asGood =>
      have isGood := asGood meet
      have credentials : HoldsCredentials "Authorization" := by decide
      apply Matching.ok
      cases meet.alike with | authenticated isAlike =>
      cases token : context.bind (bearer past).token? <;>
        cases tokenThere : context.bind (bearerThere pastThere).token? <;>
        simp only [token, tokenThere, Option.isSome_none, Option.isSome_some, reduceCtorEq]
          at isGood
      · simp only [Bearer.authenticate, token, tokenThere]
        exact ⟨rfl, isAlike⟩
      · simp only [Bearer.authenticate, token, tokenThere]
        exact ⟨rfl, isAlike.setCredentials credentials _ _⟩

/-- Two operations that differ in their numbers at most. -/
structure AlikeOperations (operation other : Operation) : Prop where
  name : operation.name = other.name
  method : operation.method = other.method
  transaction : operation.transaction = other.transaction

variable {operation operationThere : Operation}

theorem AlikeOperations.noted (same : AlikeOperations operation operationThere)
    (monitoring : Monitoring) (event : LogEvent) :
    AlikeHistories (operation.noted monitoring event)
      (operationThere.noted monitoring event) := by
  unfold Operation.noted
  split
  · rw [Operation.entry, Operation.entry, same.name]
    exact .cons (.logged _ _ _ _) .nil
  · exact .nil

theorem mirrored_log (same : AlikeOperations operation operationThere) (monitoring : Monitoring)
    (event : LogEvent) :
    Mirrored here there Eq (operation.log (event.isWanted monitoring) event)
      (operationThere.log (event.isWanted monitoring) event) := by
  intro session other alike _ _
  rw [log_course, log_course]
  exact ⟨.ok rfl, alike.after (same.noted monitoring event)⟩

/-! ## Sending requests -/

variable {client twin : Client} (twins : Twins here there client twin)

include twins

theorem mirrored_authenticate {request requestThere : Request}
    (alike : AlikeRequests request requestThere) :
    Mirrored here there AlikeRequests (client.authenticate request)
      (twin.authenticate requestThere) := by
  have decides := twins.authenticators
  unfold authenticate
  rw [← twins.endpoint]
  split
  · exact .pure alike
  · generalize client.authenticator = authenticator at decides
    generalize twin.authenticator = authenticatorThere at decides
    cases decides with
    | none => exact .throw _
    | some areAlike =>
        apply Mirrored.bind
        · exact .ask (.authenticated alike) areAlike.verdicts
        · intro verdict other isAlike
          rw [isAlike.accepted, isAlike.request.method, isAlike.request.target]
          split
          · exact .pure isAlike.request
          · exact .throw _

theorem mirrored_amend {request requestThere : Request}
    (alike : AlikeRequests request requestThere) :
    Mirrored here there AlikeRequests (client.amend request) (twin.amend requestThere) := by
  rw [amend, amend, twins.noAmendment, twins.noAmendmentThere]
  exact .pure alike

theorem mirrored_transmit (same : AlikeOperations operation operationThere)
    (definition : Definition) {request requestThere : Request}
    (alike : AlikeRequests request requestThere) :
    Mirrored here there AlikeResponses (client.transmit definition operation request)
      (twin.transmit definition operationThere requestThere) := by
  have dispatched : AlikeDispatches
      ⟨request, definition.host, definition.usesTls, operation.transaction⟩
      ⟨requestThere, definition.host, definition.usesTls, operationThere.transaction⟩ :=
    ⟨alike, rfl, rfl, same.transaction⟩
  unfold transmit
  rw [← twins.monitoring, alike.method, alike.target, alike.headers.shown, alike.body]
  apply Mirrored.bind (mirrored_log same client.monitoring (.requested _ _ _ _))
  rintro _ _ -
  apply Mirrored.bind (.ask (.sent dispatched) twins.transport)
  intro response responseThere isAlike
  rw [isAlike.status, isAlike.headers.shown]
  apply Mirrored.bind (mirrored_log same client.monitoring (.responded _ _))
  rintro _ _ -
  exact .pure isAlike

theorem mirrored_send (same : AlikeOperations operation operationThere)
    (definition : Definition) (request : Request) :
    Mirrored here there AlikeResponses (client.send definition operation request)
      (twin.send definition operationThere request) := by
  apply Mirrored.bind (mirrored_authenticate twins (.refl request))
  intro authenticated authenticatedThere areAuthenticated
  apply Mirrored.bind (mirrored_amend twins areAuthenticated)
  intro amended amendedThere areAmended
  apply Mirrored.bind (mirrored_transmit twins same definition areAmended)
  intro response responseThere areAlike
  rw [Response.isSuccess, Response.isSuccess, Response.contentText?, Response.contentText?,
    areAlike.status, areAlike.content?]
  split
  · exact .pure areAlike
  · exact .throw _

theorem mirrored_sendAll (same : AlikeOperations operation operationThere)
    (definition : Definition) (requests : List Request) :
    Mirrored here there Eq (client.sendAll definition operation requests)
      (twin.sendAll definition operationThere requests) := by
  induction requests with
  | nil => exact .pure rfl
  | cons request rest ih =>
      apply Mirrored.bind (mirrored_send twins same definition request)
      exact fun _ => ih

/-! ## Calls -/

theorem mirrored_boundBefore (same : AlikeOperations operation operationThere) (site : Site)
    (mode : AssociationMode) (target : AssociationTarget) :
    Mirrored here there Eq (client.boundBefore site operation mode target)
      (twin.boundBefore site operationThere mode target) := by
  cases mode with
  | add => exact .pure rfl
  | remove => exact .pure rfl
  | merge =>
      apply Mirrored.bind (mirrored_send twins same site.definition _)
      intro listing listingThere areAlike
      rw [Association.existing, Association.existing, areAlike.content?]
      exact .compute (.of_eq rfl)

theorem mirrored_associate (same : AlikeOperations operation operationThere) (site : Site)
    (mode : AssociationMode) (target : AssociationTarget) :
    Mirrored here there Eq (client.associate site operation mode target)
      (twin.associate site operationThere mode target) := by
  apply Mirrored.bind (mirrored_boundBefore twins same site mode target)
  rintro existing _ rfl
  exact mirrored_sendAll twins same site.definition _

theorem mirrored_execute (same : AlikeOperations operation operationThere)
    (definition : Definition) (function : Function) (input : Option Record) :
    Mirrored here there Eq (client.execute definition function input operation)
      (twin.execute definition function input operationThere) := by
  have prepared (site : Site) :
      client.requestOf site function input = twin.requestOf site function input := by
    rw [requestOf, requestOf, bodyOf, bodyOf, twins.registry]
  unfold execute
  rw [← twins.endpoint]
  dsimp only
  split
  · apply Mirrored.bind (.compute (.of_eq rfl))
    rintro target _ rfl
    apply Mirrored.bind (mirrored_associate twins same _ _ target)
    exact fun _ => .pure rfl
  · rw [prepared]
    apply Mirrored.bind (.compute (.of_eq rfl))
    rintro request _ rfl
    apply Mirrored.bind (mirrored_send twins same definition request)
    intro response responseThere areAlike
    rw [Body.answer, Body.answer, Body.createdOutput?, Body.createdOutput?, areAlike.status,
      areAlike.content?, areAlike.createdAt?]
    exact .compute (.of_eq rfl)

theorem mirrored_definition : Mirrored here there Eq client.definition twin.definition := by
  intro session other alike passes passesThere
  cases known : session.definition with
  | some kept =>
      have knownThere : other.definition = some kept := alike.definition ▸ known
      rw [definition_course_of_some client known, definition_course_of_some twin knownThere]
      exact ⟨.ok rfl, alike⟩
  | none =>
      have knownThere : other.definition = none := alike.definition ▸ known
      rw [definition_course_of_none client known] at passes ⊢
      rw [definition_course_of_none twin knownThere] at passesThere ⊢
      have same : client.resolve session.history = twin.resolve other.history :=
        twins.resolve ⟨passes, passesThere, alike.history, .resolved⟩
      rw [same]
      exact ⟨.of_eq rfl, List.rel_append alike.history (.cons .resolved .nil), rfl⟩

theorem mirrored_begin (function : Function) (transaction : Option String) :
    Mirrored here there AlikeOperations (client.begin function transaction)
      (twin.begin function transaction) := by
  intro session other alike _ _
  have same : AlikeOperations (session.operation function transaction)
      (other.operation function transaction) := ⟨rfl, rfl, rfl⟩
  have counted : AlikeSessions { session with nextNumber := session.nextNumber + 1 }
      { other with nextNumber := other.nextNumber + 1 } := ⟨alike.history, alike.definition⟩
  rw [begin_course, begin_course, ← twins.monitoring]
  exact ⟨.ok same, counted.after (same.noted _ _)⟩

theorem mirrored_finish {α : Type} (same : AlikeOperations operation operationThere)
    (result : Except Fault α) :
    Mirrored here there Eq (client.finish operation result)
      (twin.finish operationThere result) := by
  intro session other alike _ _
  rw [finish_course, finish_course, ← twins.monitoring, same.method]
  exact ⟨.ok rfl, alike.after (same.noted _ _)⟩

theorem mirrored_run (function : Function) (input : Option Record)
    (transaction : Option String) :
    Mirrored here there Eq (client.run function input transaction)
      (twin.run function input transaction) := by
  apply Mirrored.bind (mirrored_definition twins)
  rintro definition _ rfl
  apply Mirrored.bind (mirrored_begin twins function _)
  intro operation operationThere same
  apply Mirrored.bind (.outcome (mirrored_execute twins same definition function input))
  intro result resultThere matching
  obtain rfl := matching.eq
  apply Mirrored.bind (mirrored_finish twins same result)
  exact fun _ => .compute (.of_eq rfl)

theorem mirrored_call (call : Call) (input : Option Record) (transaction : Option String) :
    Mirrored here there Eq (call.run client input transaction)
      (call.run twin input transaction) := by
  cases call with
  | of function => exact mirrored_run twins function input transaction
  | named context name =>
      have continues (client : Client) (definition : Definition) :=
        Grows.runFound client definition context name input transaction
      apply Mirrored.bind (mirrored_definition twins)
      rintro definition _ rfl
      split
      · exact .throw _
      · exact mirrored_run twins _ input transaction

end

/-- The run of a call. -/
def Call.stretch (call : Call) (client : Client) (input : Option Record)
    (transaction : Option String) (session : Session) : Stretch :=
  ⟨session.history, ((call.run client input transaction).course session).2.history⟩

/-- The log is the same whatever the credentials. Make a call twice, from alike sessions: with
other tokens, and with other values of the headers that hold credentials, in requests as in
responses. If the world answers alike in both runs, both log the same events in the same
order, whatever the log is set to keep, and they end alike. -/
theorem log_independent_of_credentials {client twin : Client} (call : Call)
    (input : Option Record) (transaction : Option String) {session other : Session}
    (alike : AlikeSessions session other)
    (twins : Twins (call.stretch client input transaction session)
      (call.stretch twin input transaction other) client twin) :
    let ended := (call.run client input transaction).course session
    let endedThere := (call.run twin input transaction).course other
    ∃ events eventsThere, ended.2.history = session.history ++ events ∧
      endedThere.2.history = other.history ++ eventsThere ∧
      (History.log events).map LogEntry.unnumbered =
        (History.log eventsThere).map LogEntry.unnumbered ∧
      ended.1 = endedThere.1 := by
  intro ended endedThere
  obtain ⟨events, added⟩ : session.history <+: ended.2.history := Grows.isPrefix session
  obtain ⟨eventsThere, addedThere⟩ : other.history <+: endedThere.2.history :=
    Grows.isPrefix other
  obtain ⟨matching, left⟩ := mirrored_call twins call input transaction session other alike
    ⟨List.prefix_rfl, List.prefix_rfl⟩ ⟨List.prefix_rfl, List.prefix_rfl⟩
  have areAlike : AlikeHistories events eventsThere := by
    have whole : AlikeHistories (session.history ++ events) (other.history ++ eventsThere) := by
      rw [added, addedThere]
      exact left.history
    have behind := List.forall₂_drop_append _ _ _ whole
    rwa [← alike.history.length_eq, List.drop_left] at behind
  exact ⟨events, eventsThere, added.symm, addedThere.symm, areAlike.log, matching.eq⟩

/-- A client with a token, of a server that gives the token back in a cookie. -/
def echoed (token : String) : Client where
  id := "crm"
  endpoint := { securityType := some "bearer", securityContext := some "crm" }
  resolve _ := .ok crm
  transport _ dispatch :=
    .ok ⟨204, ⟨[("Set-Cookie", (dispatch.request.headers.get? "Authorization").getD "")]⟩, none⟩
  authenticator := some (bearing fun _ =>
    { tokens := [("crm", { value := token })], environment := fun _ => none })
  amendment := none
  registry := none
  entitySets := []
  monitoring := { logLevel := .trace }

theorem echoed_tokens_not_logged :
    let ended := ((Call.of mergeContacts).run (echoed "a") (some twoContacts) none).course {}
    let endedThere := ((Call.of mergeContacts).run (echoed "b") (some twoContacts) none).course {}
    let authorized (history : History) :=
      history.sent.map fun dispatch => dispatch.request.headers.get? "Authorization"
    authorized ended.2.history = [some "Bearer a", some "Bearer a", some "Bearer a"] ∧
      authorized endedThere.2.history = [some "Bearer b", some "Bearer b", some "Bearer b"] ∧
      ended.2.history.log.length = 8 ∧
      ended.2.history.log.map LogEntry.unnumbered =
        endedThere.2.history.log.map LogEntry.unnumbered := by
  have isCookie : HoldsCredentials "Set-Cookie" := by decide
  have twins (here there : Stretch) : Twins here there (echoed "a") (echoed "b") :=
    { endpoint := rfl
      registry := rfl
      monitoring := rfl
      noAmendment := rfl
      noAmendmentThere := rfl
      resolve := fun _ => rfl
      authenticators := .some (.bearing fun _ => rfl)
      transport := fun _ => .ok ⟨rfl, .cons ⟨rfl, .inl isCookie⟩ .nil, rfl⟩ }
  have alike : AlikeSessions {} {} := ⟨.nil, rfl⟩
  obtain ⟨events, eventsThere, added, addedThere, same, -⟩ :=
    log_independent_of_credentials (.of mergeContacts) (some twoContacts) none alike (twins _ _)
  refine ⟨by decide +kernel, by decide +kernel, by decide +kernel, ?_⟩
  rw [added, addedThere]
  exact same

end OData.Client
