/-
# How associations are changed

A call with an association verb is a conversation with the server: perhaps one
listing, and then one request after another. `wanted` says what the verb calls for;
for `MERGE` it depends on what the listing answered, and so on the conversation
itself. The main statement is that the requests that were handed over are always
the first of those, that one failure ends the conversation and is its result, and
that the call succeeds exactly when nothing was left out and nothing failed.

The answers of the world are arbitrary. Whether the server did what it was asked is
no part of this.
-/

import OData.Proofs.Association.Listing
import OData.Proofs.Client.Sequence
import Mathlib.Data.List.Forall2

namespace OData.Client

open Http (Request)
open Target (Site AssociationTarget)
open Association (State)

/-- What the answer to the first request lists as bound, if that turned out well. -/
def listing? : List Exchange → Option (Except Fault State)
  | [] => none
  | first :: _ => first.outcome.toOption.map Association.existing

/-- The requests that an association verb calls for, in order. `MERGE` begins with
the listing, and what follows depends on its answer. -/
def wanted (site : Site) (mode : AssociationMode) (target : AssociationTarget)
    (made : List Exchange) : List Request :=
  match mode with
  | .merge =>
      Association.listRequest site target ::
        match listing? made with
        | some (.ok bound) => Association.plan site target bound target.boundIds
        | _ => []
  | .add => Association.plan site target .empty target.boundIds
  | .remove => Association.plan site target (Association.assumed site target) []

/-- The conduct of an association call: how the exchanges that were made, among the
events that followed a past, fit what the verb calls for. -/
structure Conducted (client : Client) (site : Site) (mode : AssociationMode)
    (target : AssociationTarget) (past events : History) (made : List Exchange)
    (result : Except Fault (Option Record)) : Prop where
  /-- What was handed over are the first of the wanted requests, each in the form in
  which authentication left it. -/
  inOrder : List.Forall₂ (Admits client past events)
    ((wanted site mode target made).take made.length)
    (made.map fun exchange => exchange.dispatch.request)
  /-- Nothing was handed over behind an exchange that turned out badly. -/
  succeeded : ∀ exchange ∈ made.dropLast, exchange.Succeeded
  /-- The call succeeds, with an empty record, exactly when all wanted requests were
  handed over and turned out well, and the listing could be read. -/
  completed : ∀ output, result = .ok output ↔
    output = some .empty ∧ made.length = (wanted site mode target made).length ∧
      (∀ exchange ∈ made, exchange.Succeeded) ∧
      (mode = .merge → ∃ bound, listing? made = some (.ok bound))
  /-- A fault is that of the last exchange, or of the only one, a listing that could
  not be read; or the next wanted request was refused with it. -/
  stopped : ∀ fault, result = .error fault →
    (∃ last, made.getLast? = some last ∧ last.outcome = .error fault) ∨
      (mode = .merge ∧ made.length = 1 ∧ listing? made = some (.error fault)) ∨
      (∀ exchange ∈ made, exchange.Succeeded) ∧
        ∃ request, (wanted site mode target made)[made.length]? = some request ∧
          Refuses client past events request fault

section

variable {client : Client} {site : Site} {mode : AssociationMode} {target : AssociationTarget}
  {past before events afterwards : History} {made : List Exchange}

/-- Events before and after the conversation do not change how it was conducted. -/
theorem Conducted.framed {result : Except Fault (Option Record)}
    (conducted : Conducted client site mode target (past ++ before) events made result) :
    Conducted client site mode target past (before ++ events ++ afterwards) made result where
  inOrder := conducted.inOrder.imp fun _ _ admits =>
    admits.behind.extend (List.prefix_append _ _)
  succeeded := conducted.succeeded
  completed := conducted.completed
  stopped := by
    intro fault isFault
    rcases conducted.stopped fault isFault with
      last | unreadable | ⟨all, request, isNext, refuses⟩
    · exact .inl last
    · exact .inr (.inl unreadable)
    · exact .inr (.inr ⟨all, request, isNext, refuses.behind.extend (List.prefix_append _ _)⟩)

/-- A conversation in which the wanted requests were sent in order. -/
theorem conducted_of_carried {requests : List Request} {result : Except Fault Unit}
    (carried : Carried client past events requests made result)
    (areWanted : wanted site mode target made = requests)
    (isReadable : mode = .merge → result = .ok () → ∃ bound, listing? made = some (.ok bound)) :
    Conducted client site mode target past events made (result.map fun _ => some .empty) where
  inOrder := areWanted ▸ carried.inOrder
  succeeded := carried.succeeded
  completed := by
    intro output
    rw [areWanted]
    constructor
    · intro isOk
      cases result with
      | error fault => cases isOk
      | ok =>
          cases isOk
          obtain ⟨count, all⟩ := carried.ok_iff.mp rfl
          exact ⟨rfl, count, all, fun isMerge => isReadable isMerge rfl⟩
    · rintro ⟨rfl, count, all, -⟩
      rw [carried.ok_iff.mpr ⟨count, all⟩]
      rfl
  stopped := by
    intro fault isFault
    cases result with
    | ok => cases isFault
    | error =>
        cases isFault
        rw [areWanted]
        exact (carried.stopped rfl).imp_right .inr

/-- A listing that turned out well but can not be read ends the conversation. -/
theorem conducted_of_unreadable {exchange : Exchange} {response : Http.Response} {fault : Fault}
    (admits : Admits client past events (Association.listRequest site target)
      exchange.dispatch.request)
    (success : exchange.outcome = .ok response)
    (unreadable : Association.existing response = .error fault) :
    Conducted client site .merge target past events [exchange] (.error fault) := by
  have listed : listing? [exchange] = some (.error fault) := by
    rw [listing?, success, ← unreadable]
    rfl
  refine ⟨.cons admits .nil, fun _ isMember => absurd isMember List.not_mem_nil, ?_, ?_⟩
  · intro output
    refine ⟨nofun, fun ⟨_, _, _, isReadable⟩ => ?_⟩
    obtain ⟨bound, isBound⟩ := isReadable rfl
    rw [listed] at isBound
    cases isBound
  · intro other isFault
    cases isFault
    exact .inr (.inl ⟨rfl, rfl, listed⟩)

end

section

variable {client : Client} (noAmendment : client.amendment = none) (site : Site)
  (operation : Operation) (target : AssociationTarget) (session : Session)

include noAmendment

/-- Without a listing, what is wanted is known beforehand, and sent in order. -/
theorem associate_course_of_known {mode : AssociationMode} {requests : List Request}
    (areWanted : ∀ made, wanted site mode target made = requests) (noListing : mode ≠ .merge)
    (areSent : client.associate site operation mode target =
      client.sendAll site.definition operation requests) :
    ∃ events result,
      (client.associate site operation mode target).course session =
        (result, session.after events) ∧
      Conducted client site mode target session.history events
        (exchanges client.transport session.history events)
        (result.map fun _ => some .empty) := by
  obtain ⟨events, result, carried, sent⟩ :=
    sendAll_course noAmendment site.definition operation requests session
  refine ⟨events, result, areSent ▸ sent, conducted_of_carried carried (areWanted _) ?_⟩
  exact fun isMerge => absurd isMerge noListing

/-- With a listing, the answer to it comes first. -/
theorem associate_course_of_listing :
    ∃ events result,
      (client.associate site operation .merge target).course session =
        (result, session.after events) ∧
      Conducted client site .merge target session.history events
        (exchanges client.transport session.history events)
        (result.map fun _ => some .empty) := by
  have whole : client.associate site operation .merge target =
      client.send site.definition operation (Association.listRequest site target) >>=
        fun listing => Action.compute (Association.existing listing) >>= fun bound =>
          client.sendAll site.definition operation
            (Association.plan site target bound target.boundIds) := by
    rw [associate, boundBefore, bind_assoc]
    rfl
  rw [whole]
  obtain ⟨events, ⟨fault, refuses, none, sent⟩ | ⟨exchange, admits, isOnly, sent⟩⟩ :=
    send_course noAmendment site.definition operation (Association.listRequest site target)
      session
  · refine ⟨events, .error fault, Action.course_bind_error sent _, ?_⟩
    rw [none]
    exact conducted_of_carried (.refused refuses) rfl fun _ => nofun
  · cases outcome : exchange.outcome with
    | error fault =>
        rw [outcome] at sent
        refine ⟨events, .error fault, Action.course_bind_error sent _, ?_⟩
        rw [isOnly]
        have alone : wanted site .merge target [exchange] =
            [Association.listRequest site target] := by
          rw [wanted, listing?, outcome]
          rfl
        exact conducted_of_carried (.failed admits outcome) alone fun _ => nofun
    | ok response =>
        rw [outcome] at sent
        rw [Action.course_bind_ok sent, Action.course_bind, Action.course_compute]
        cases bound : Association.existing response with
        | error fault =>
            refine ⟨events, .error fault, rfl, ?_⟩
            rw [isOnly]
            exact conducted_of_unreadable admits outcome bound
        | ok state =>
            -- Only now is it known what is wanted besides the listing.
            obtain ⟨others, result, carried, sentAll⟩ := sendAll_course noAmendment
              site.definition operation (Association.plan site target state target.boundIds)
              (session.after events)
            have listed (rest : List Exchange) :
                listing? (exchange :: rest) = some (.ok state) := by
              rw [listing?, outcome, ← bound]
              rfl
            refine ⟨events ++ others, result, by rw [← Session.after_after]; exact sentAll, ?_⟩
            rw [exchanges_append, isOnly]
            refine conducted_of_carried
              (.answered (admits.extend (List.prefix_append _ _)) outcome carried.behind) ?_
              fun _ _ => ⟨state, listed _⟩
            rw [wanted, List.singleton_append, listed]

/-- Turning what is bound into what is wanted is a conversation. -/
theorem associate_course (mode : AssociationMode) :
    ∃ events result,
      (client.associate site operation mode target).course session =
        (result, session.after events) ∧
      Conducted client site mode target session.history events
        (exchanges client.transport session.history events)
        (result.map fun _ => some .empty) := by
  cases mode with
  | add =>
      have notMerge : AssociationMode.add ≠ .merge := nofun
      refine associate_course_of_known noAmendment site operation target session (fun _ => rfl)
        notMerge ?_
      rw [associate, boundBefore, pure_bind]
      rfl
  | remove =>
      have notMerge : AssociationMode.remove ≠ .merge := nofun
      refine associate_course_of_known noAmendment site operation target session (fun _ => rfl)
        notMerge ?_
      rw [associate, boundBefore, pure_bind]
      rfl
  | merge => exact associate_course_of_listing noAmendment site operation target session

end

/-- However the authenticator and the transport answer: what an association call
without the caller's hook hands to the transport are the first of the requests that
its verb calls for, the first failure ends it and is its result, and it succeeds,
with an empty record, exactly when nothing was left out and nothing failed. -/
theorem association_run_conducted {client : Client} (noAmendment : client.amendment = none)
    {function : Function} {mode : AssociationMode}
    (isAssociation : function.method.mode? = some mode)
    (input : Option Record) (transaction : Option String) {session : Session}
    {definition : Definition} (known : (client.definition.course session).1 = .ok definition)
    {target : AssociationTarget}
    (isTarget :
      Site.associationTarget ⟨definition, client.endpoint⟩ function input = .ok target) :
    let ended := (client.run function input transaction).course session
    ∃ events, ended.2.history = session.history ++ events ∧
      let made := exchanges client.transport session.history events
      made.map Exchange.dispatch = History.sent events ∧
        Conducted client ⟨definition, client.endpoint⟩ mode target session.history events made
          ended.1 := by
  obtain ⟨before, afterwards, operation, reached, beforeQuiet, afterwardsQuiet, began, result,
    left⟩ := run_course function input transaction known
  obtain ⟨events, changed, associated, conducted⟩ := associate_course noAmendment
    ⟨definition, client.endpoint⟩ operation target reached mode
  have executed : (client.execute definition function input operation).course reached =
      (changed.map fun _ => some .empty, reached.after events) := by
    rw [execute, isAssociation]
    simp only [isTarget, Action.course_bind, Action.course_compute, associated]
    cases changed <;> rfl
  rw [executed] at result left
  refine ⟨before ++ events ++ afterwards, ?_, map_dispatch_exchanges _ _ _, ?_⟩
  · rw [left, Session.history_after, began]
    simp only [List.append_assoc]
  · rw [exchanges_append, exchanges_append, exchanges_of_isQuiet _ _ beforeQuiet,
      exchanges_of_isQuiet _ _ afterwardsQuiet, List.nil_append, List.append_nil, result]
    rw [began] at conducted
    exact conducted.framed

/-- Contacts of an account, to be bound as the caller names them. -/
def mergeContacts : Function where
  name := "contacts"
  context := some "accounts"
  method := .associations .merge
  input := {
    name := "input"
    fields := [
      { name := "entityId", type := .guid },
      { name := "boundIds", type := .guid, collectionName := some "contacts",
        navigation := some "rel", maxOccurs := some 0 }] }
  output := default

def crm : Definition := { scheme := "https", host := "example.com", basePath := "/odata" }

/-- A client that adds a header to what it sends, to a server that lists nothing
and then is gone. -/
def onceAnswered : Client where
  id := "crm"
  endpoint := { securityType := some "bearer" }
  resolve _ := .ok crm
  transport history _ :=
    if history.sent.isEmpty then .ok ⟨200, .empty, none⟩ else .error (.transport "gone")
  authenticator := some fun _ request _ =>
    .ok ⟨true, request.setHeader "Authorization" "Bearer t"⟩
  amendment := none
  registry := none
  entitySets := []
  monitoring := {}

def twoContacts : Record := ⟨[("entityId", "e1"), ("boundIds", .list ["b", "c"])]⟩

/-- The same client, to a server that lists two contacts as bound and then is gone. -/
def onceListed : Client :=
  { onceAnswered with
    transport := fun history _ =>
      if history.sent.isEmpty then
        .ok ⟨200, .empty, some (Association.listing
          ["https://example.com/odata/contacts(a)",
            "https://example.com/odata/contacts(b)"]).compact.toUTF8⟩
      else .error (.transport "gone") }

/-- One of the listed contacts is to go and another one to come. The server is gone when the
first is taken away, and so the second is not asked for. -/
theorem merge_stops_at_the_first_failure :
    let site : Site := ⟨crm, onceListed.endpoint⟩
    let target : AssociationTarget := ⟨"/odata/accounts(e1)/rel", "contacts", "rel", ["b", "c"]⟩
    let events := ((onceListed.run mergeContacts (some twoContacts) none).course {}).2.history
    let made := exchanges onceListed.transport [] events
    Conducted onceListed site .merge target [] events made (.error (.transport "gone")) ∧
      events.sent.map (fun dispatch => (dispatch.request.method, dispatch.request.target)) =
        [("GET", "/odata/accounts(e1)/rel/$ref"),
          ("DELETE", "/odata/accounts(e1)/rel(a)/$ref")] ∧
      (wanted site .merge target made).map (fun request => (request.method, request.target)) =
        [("GET", "/odata/accounts(e1)/rel/$ref"),
          ("DELETE", "/odata/accounts(e1)/rel(a)/$ref"),
          ("PUT", "/odata/accounts(e1)/rel/$ref")] := by
  intro site target events made
  have known : (onceListed.definition.course {}).1 = .ok crm := rfl
  have isTarget : Site.associationTarget site mergeContacts (some twoContacts) = .ok target := rfl
  have isMerge : mergeContacts.method.mode? = some .merge := rfl
  have noAmendment : onceListed.amendment = none := rfl
  obtain ⟨happened, left, -, conducted⟩ :=
    association_run_conducted noAmendment isMerge (some twoContacts) none known isTarget
  have isWhole : happened = events := left.symm
  rw [isWhole] at conducted
  have isGone : (match ((onceListed.run mergeContacts (some twoContacts) none).course {}).1 with
      | .error (.transport message) => message == "gone"
      | _ => false) = true := by
    decide +kernel
  refine ⟨?_, by decide +kernel, by decide +kernel⟩
  generalize ((onceListed.run mergeContacts (some twoContacts) none).course {}).1 = result
    at isGone conducted
  split at isGone
  · cases eq_of_beq isGone
    exact conducted
  · cases isGone

end OData.Client
