/-
# What actions ensure

Some properties of a call speak of its outcome and of the exchanges that it made, and
not of when the world was asked what. For these, histories need not be followed.
`Ensures` states such a property of an action, and is put together along the steps of
the action: what the first step ensures decides what the others have to.

Of a request that is sent, little is kept: it was refused, or the caller's hook gave it
up, or what came of it was handed over once. A property that this little preserves is
preserved by everything that sends requests one after another.
-/

import OData.Proofs.Client.Course

namespace OData.Client

open Http (Request Response)
open Target (Site AssociationTarget)

variable {α β : Type} {client : Client}

/-- In a session, an action only adds to the history, and its outcome and the exchanges
that it makes have a property. -/
def Ensures (client : Client) (action : Action α) (session : Session)
    (post : Except Fault α → List Exchange → Prop) : Prop :=
  ∃ events, (action.course session).2.history = session.history ++ events ∧
    post (action.course session).1 (exchanges client.transport session.history events)

/-- What the first step of two has to ensure, so that both ensure a property. -/
def Leads (client : Client) (action : Action α) (session : Session) (next : α → Action β)
    (post : Except Fault β → List Exchange → Prop) : Except Fault α → List Exchange → Prop
  | .error fault, made => post (.error fault) made
  | .ok value, made => ∀ reached, action.course session = (.ok value, reached) →
      Ensures client (next value) reached fun result others => post result (made ++ others)

namespace Ensures

variable {session : Session} {post : Except Fault α → List Exchange → Prop}

theorem imp {weaker : Except Fault α → List Exchange → Prop} {action : Action α}
    (ensures : Ensures client action session post)
    (follows : ∀ result made, post result made → weaker result made) :
    Ensures client action session weaker := by
  obtain ⟨events, added, holds⟩ := ensures
  exact ⟨events, added, follows _ _ holds⟩

theorem compute {result : Except Fault α} (holds : post result []) :
    Ensures client (Action.compute result) session post :=
  ⟨[], (List.append_nil _).symm, holds⟩

theorem throw {fault : Fault} (holds : post (.error fault) []) :
    Ensures client (throw fault : Action α) session post :=
  ⟨[], (List.append_nil _).symm, holds⟩

theorem bind {post : Except Fault β → List Exchange → Prop} {action : Action α}
    {next : α → Action β}
    (leads : Ensures client action session (Leads client action session next post)) :
    Ensures client (action >>= next) session post := by
  obtain ⟨events, added, leads⟩ := leads
  cases ended : action.course session with | mk result reached =>
  rw [ended] at added leads
  cases result with
  | error fault =>
      rw [Ensures, Action.course_bind_error ended]
      exact ⟨events, added, leads⟩
  | ok value =>
      obtain ⟨others, addedMore, holds⟩ := leads reached ended
      rw [Ensures, Action.course_bind_ok ended]
      refine ⟨events ++ others, ?_, ?_⟩
      · rw [addedMore, added, List.append_assoc]
      · rw [exchanges_append, ← added]
        exact holds

/-- A first step that is only computed makes no exchanges. -/
theorem compute_bind {post : Except Fault β → List Exchange → Prop} {result : Except Fault α}
    {next : α → Action β} (fails : ∀ fault, result = .error fault → post (.error fault) [])
    (continues : ∀ value, result = .ok value → Ensures client (next value) session post) :
    Ensures client (Action.compute result >>= next) session post := by
  cases result with
  | error fault => exact ⟨[], (List.append_nil _).symm, fails fault rfl⟩
  | ok value => exact continues value rfl

end Ensures

/-- An action that hands nothing to the transport ensures what holds of its outcome
without exchanges. -/
theorem ensures_of_quiet {action : Action α} {session : Session} {events : History}
    {post : Except Fault α → List Exchange → Prop} (isQuiet : IsQuiet events)
    (added : (action.course session).2.history = session.history ++ events)
    (holds : post (action.course session).1 []) : Ensures client action session post :=
  ⟨events, added, by rwa [exchanges_of_isQuiet _ _ isQuiet]⟩

/-! ## Sending requests -/

/-- How it may turn out to send a request. -/
inductive Sending (client : Client) (request : Request) :
    Except Fault Response → List Exchange → Prop
  /-- The request is refused. -/
  | refused {past events : History} {fault : Fault}
      (refuses : Refuses client past events request fault) :
      Sending client request (.error fault) []
  /-- The request is admitted, and the caller's hook fails. -/
  | dropped {past events : History} {left : Request} {fault : Fault}
      (amends : Amends client past events left (.error fault)) :
      Sending client request (.error fault) []
  /-- The request is admitted and changed, and what came of it is handed over. -/
  | handed {past events earlier : History} {left : Request} {exchange : Exchange}
      {result : Except Fault Response}
      (admits : Admits client past events request left)
      (amends : Amends client past events left (.ok exchange.dispatch.request))
      (isAnswer : exchange.answer = client.transport earlier exchange.dispatch)
      (isOutcome : exchange.outcome = result) :
      Sending client request result [exchange]

theorem ensures_send (definition : Definition) (operation : Operation) (request : Request)
    (session : Session) :
    Ensures client (client.send definition operation request) session
      (Sending client request) := by
  obtain ⟨events, ⟨fault, keptBack, isNone, sent⟩ |
    ⟨left, exchange, admits, amends, isOnly, sent⟩⟩ :=
    send_course_amended client definition operation request session
  · refine ⟨events, by rw [sent]; rfl, ?_⟩
    rw [sent, isNone]
    rcases keptBack with refuses | ⟨left, -, amends⟩
    · exact .refused refuses
    · exact .dropped amends
  · have isMember : exchange ∈ exchanges client.transport session.history events := by
      rw [isOnly]
      exact List.mem_singleton_self exchange
    obtain ⟨earlier, isAnswer⟩ := answer_of_mem_exchanges _ _ isMember
    refine ⟨events, by rw [sent]; rfl, ?_⟩
    rw [sent, isOnly]
    exact .handed admits amends isAnswer rfl

/-- A property of outcomes and exchanges that holds when nothing was sent, and stays true
when requests of a kind are sent before. -/
structure KeptBySending (client : Client) (isOfKind : Request → Prop)
    (post : Except Fault Unit → List Exchange → Prop) : Prop where
  done : post (.ok ()) []
  failed {request : Request} {fault : Fault} {made : List Exchange}
    (fits : isOfKind request) (sending : Sending client request (.error fault) made) :
    post (.error fault) made
  answered {request : Request} {response : Response} {made others : List Exchange}
    {result : Except Fault Unit} (fits : isOfKind request)
    (sending : Sending client request (.ok response) made) (holds : post result others) :
    post result (made ++ others)

section

variable {isOfKind : Request → Prop} {post : Except Fault Unit → List Exchange → Prop}

theorem ensures_sendAll (kept : KeptBySending client isOfKind post) (definition : Definition)
    (operation : Operation) {requests : List Request}
    (areOfKind : ∀ request ∈ requests, isOfKind request) (session : Session) :
    Ensures client (client.sendAll definition operation requests) session post := by
  induction requests generalizing session with
  | nil => exact .compute kept.done
  | cons request rest ih =>
      obtain ⟨fits, others⟩ := List.forall_mem_cons.mp areOfKind
      refine .bind ((ensures_send definition operation request session).imp ?_)
      intro result made sending
      cases result with
      | error fault => exact kept.failed fits sending
      | ok response =>
          intro reached _
          exact (ih others reached).imp fun _ _ holds => kept.answered fits sending holds

/-- The requests that an association verb can make: the listing, and those of any plan. -/
def IsReferenceRequest (site : Site) (target : AssociationTarget) (request : Request) : Prop :=
  request = Association.listRequest site target ∨
    ∃ existing desired, request ∈ Association.plan site target existing desired

/-- An association verb keeps what its requests keep, if also a listing that can not be
read does. -/
theorem ensures_associate {site : Site} {target : AssociationTarget}
    (kept : KeptBySending client (IsReferenceRequest site target) post)
    (unreadable : ∀ {response fault made},
      Sending client (Association.listRequest site target) (.ok response) made →
      Association.existing response = .error fault → post (.error fault) made)
    (operation : Operation) (mode : AssociationMode) (session : Session) :
    Ensures client (client.associate site operation mode target) session post := by
  have planned (existing : Association.State) (session : Session) :
      Ensures client (client.sendAll site.definition operation
        (Association.plan site target existing (boundAfter mode target))) session post :=
    ensures_sendAll kept site.definition operation
      (fun _ isMember => .inr ⟨existing, _, isMember⟩) session
  rw [associate]
  cases mode with
  | add =>
      rw [boundBefore, pure_bind]
      exact planned _ session
  | remove =>
      rw [boundBefore, pure_bind]
      exact planned _ session
  | merge =>
      -- The plan is made by the answer to the listing, which is sent before.
      rw [boundBefore, bind_assoc]
      refine .bind ((ensures_send site.definition operation _ session).imp ?_)
      intro result made sending
      cases result with
      | error fault => exact kept.failed (.inl rfl) sending
      | ok response =>
          intro reached _
          refine .compute_bind (fun fault isUnreadable => ?_) fun existing _ => ?_
          · rw [List.append_nil]
            exact unreadable sending isUnreadable
          · exact (planned existing reached).imp fun _ _ holds =>
              kept.answered (.inl rfl) sending holds

end

end OData.Client
