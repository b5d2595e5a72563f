/-
# The course of a call

A client and the world take turns: the client asks, and the world answers by all
that happened before. What a call did can therefore be read off its history alone,
together with the world's answers. This module reads it. An exchange is what the
transport was handed with what it answered; authentication admits a request in some
form, or refuses it, and the caller's hook changes what was admitted. The central fact
is that sending one request makes at most one exchange, and makes it only with what
authentication admitted and the hook gave back.

Nothing is assumed about the world: authenticators, hooks and transports may answer
anything, and may answer the same request differently at another time.
-/

import OData.Client.Run

namespace OData.Client

open Http (Request Response)

namespace Session

/-- A session in which more has happened. -/
def after (session : Session) (events : History) : Session :=
  { session with history := session.history ++ events }

@[simp]
theorem history_after (session : Session) (events : History) :
    (session.after events).history = session.history ++ events := rfl

@[simp]
theorem after_nil (session : Session) : session.after [] = session := by
  simp [after]

@[simp]
theorem after_after (session : Session) (first second : History) :
    (session.after first).after second = session.after (first ++ second) := by
  simp [after]

end Session

/-! ## Actions -/

namespace Action

variable {α β : Type}

/-- How an action ends in a session, and the session that it leaves. -/
def course (action : Action α) (session : Session) : Except Fault α × Session :=
  action.run.run session

theorem course_bind (action : Action α) (next : α → Action β) (session : Session) :
    (action >>= next).course session =
      match action.course session with
      | (.ok value, reached) => (next value).course reached
      | (.error fault, reached) => (.error fault, reached) := by
  show ExceptT.bindCont next (action.course session).1 (action.course session).2 = _
  rcases action.course session with ⟨_ | _, _⟩ <;> rfl

theorem course_bind_ok {action : Action α} {session reached : Session} {value : α}
    (ended : action.course session = (.ok value, reached)) (next : α → Action β) :
    (action >>= next).course session = (next value).course reached := by
  rw [course_bind, ended]

theorem course_bind_error {action : Action α} {session reached : Session} {fault : Fault}
    (ended : action.course session = (.error fault, reached)) (next : α → Action β) :
    (action >>= next).course session = (.error fault, reached) := by
  rw [course_bind, ended]

@[simp]
theorem course_pure (value : α) (session : Session) :
    (pure value : Action α).course session = (.ok value, session) := rfl

@[simp]
theorem course_throw (fault : Fault) (session : Session) :
    (throw fault : Action α).course session = (.error fault, session) := rfl

@[simp]
theorem course_compute (result : Except Fault α) (session : Session) :
    (compute result).course session = (result, session) := rfl

@[simp]
theorem course_get (session : Session) :
    (get : Action Session).course session = (.ok session, session) := rfl

@[simp]
theorem course_modify (change : Session → Session) (session : Session) :
    (modify change : Action Unit).course session = (.ok (), change session) := rfl

@[simp]
theorem course_ask (happening : Happening) (answer : History → Except Fault α)
    (session : Session) :
    (ask happening answer).course session =
      (answer session.history, session.after [happening]) := rfl

@[simp]
theorem course_outcome (action : Action α) (session : Session) :
    action.outcome.course session = (.ok (action.course session).1, (action.course session).2) :=
  rfl

end Action

/-! ## Exchanges with the transport -/

/-- The request that a happening hands to the transport. -/
def Happening.dispatch? : Happening → Option Dispatch
  | .sent dispatch => some dispatch
  | _ => none

/-- What the transport was handed, and what it answered. -/
structure Exchange where
  dispatch : Dispatch
  answer : Except Fault Response

/-- How an exchange turned out. Only a status of success is no fault. -/
def Exchange.outcome (exchange : Exchange) : Except Fault Response :=
  match exchange.answer with
  | .error fault => .error fault
  | .ok response =>
      if response.isSuccess then .ok response
      else .error (.protocol response.status response.contentText?)

/-- The exchanges among the events that followed a past. -/
def exchanges (transport : Transport) (past : History) : History → List Exchange
  | [] => []
  | happening :: rest =>
      let others := exchanges transport (past ++ [happening]) rest
      match happening.dispatch? with
      | some dispatch => ⟨dispatch, transport past dispatch⟩ :: others
      | none => others

/-- Nothing is handed to the transport. -/
def IsQuiet (events : History) : Prop := ∀ happening ∈ events, happening.dispatch? = none

theorem isQuiet_nil : IsQuiet [] := fun _ isMember => absurd isMember List.not_mem_nil

theorem isQuiet_singleton {happening : Happening} (isQuiet : happening.dispatch? = none) :
    IsQuiet [happening] := fun _ isMember => List.mem_singleton.mp isMember ▸ isQuiet

section Exchanges

variable (transport : Transport) (past : History)

/-- The answer of an exchange is the transport's. -/
theorem answer_of_mem_exchanges {events : History} {exchange : Exchange}
    (isMember : exchange ∈ exchanges transport past events) :
    ∃ earlier, exchange.answer = transport earlier exchange.dispatch := by
  induction events generalizing past with
  | nil => exact absurd isMember List.not_mem_nil
  | cons happening rest ih =>
      rw [exchanges] at isMember
      cases isSent : happening.dispatch? with
      | none =>
          rw [isSent] at isMember
          exact ih _ isMember
      | some dispatch =>
          rw [isSent] at isMember
          rcases List.mem_cons.mp isMember with rfl | isMember
          · exact ⟨past, rfl⟩
          · exact ih _ isMember

theorem exchanges_append (first second : History) :
    exchanges transport past (first ++ second) =
      exchanges transport past first ++ exchanges transport (past ++ first) second := by
  induction first generalizing past with
  | nil => simp [exchanges]
  | cons happening rest ih =>
      rw [List.cons_append, exchanges, exchanges, ih, List.append_assoc, List.singleton_append]
      cases happening.dispatch? <;> rfl

theorem exchanges_of_isQuiet {events : History} (quiet : IsQuiet events) :
    exchanges transport past events = [] := by
  induction events generalizing past with
  | nil => rfl
  | cons happening rest ih =>
      obtain ⟨first, others⟩ := List.forall_mem_cons.mp quiet
      rw [exchanges, first]
      exact ih _ others

/-- Every request that was handed over is part of an exchange. -/
theorem map_dispatch_exchanges (events : History) :
    (exchanges transport past events).map Exchange.dispatch = History.sent events := by
  induction events generalizing past with
  | nil => rfl
  | cons happening rest ih =>
      cases happening <;> simpa [exchanges, Happening.dispatch?, History.sent] using ih _

end Exchanges

/-! ## The log -/

/-- Whether an event gets into the log: single requests and responses have a switch of their
own, and everything else is wanted by its weight. -/
def LogEvent.isWanted (monitoring : Monitoring) : LogEvent → Bool
  | .started _ _ | .completed _ => monitoring.logs .info
  | .requested _ _ _ _ | .responded _ _ => monitoring.logsRequests
  | .failed _ _ _ => monitoring.logs .error

/-- An event as it stands in the log. -/
def Operation.entry (operation : Operation) (event : LogEvent) : LogEntry :=
  ⟨operation.number, operation.name, event⟩

/-- What happens when an event comes up. -/
def Operation.noted (operation : Operation) (monitoring : Monitoring) (event : LogEvent) :
    History :=
  if event.isWanted monitoring then [.logged (operation.entry event)] else []

/-- The events that the log keeps, as they stand in it. -/
def Operation.kept (operation : Operation) (monitoring : Monitoring) (events : List LogEvent) :
    List LogEntry :=
  (events.filter (LogEvent.isWanted monitoring)).map operation.entry

/-- What the log tells of an exchange: the request that was handed over, and the response,
if the transport brought one. -/
def Exchange.told (exchange : Exchange) : List LogEvent :=
  .requested exchange.dispatch.request.method exchange.dispatch.request.target
      (shownHeaders exchange.dispatch.request.headers)
      (exchange.dispatch.request.body.map ByteArray.size) ::
    match exchange.answer with
    | .ok response => [.responded response.status (shownHeaders response.headers)]
    | .error _ => []

section Log

variable (operation : Operation) (monitoring : Monitoring) (event : LogEvent)

/-- A log entry, whether it is wanted or not, hands nothing to the transport. -/
theorem isQuiet_noted : IsQuiet (operation.noted monitoring event) := by
  unfold Operation.noted
  split
  · exact isQuiet_singleton rfl
  · exact isQuiet_nil

theorem log_noted :
    History.log (operation.noted monitoring event) = operation.kept monitoring [event] := by
  unfold Operation.noted Operation.kept
  cases wanted : event.isWanted monitoring <;> simp [History.log, wanted]

theorem log_course (session : Session) :
    (operation.log (event.isWanted monitoring) event).course session =
      (.ok (), session.after (operation.noted monitoring event)) := by
  unfold Operation.noted
  cases event.isWanted monitoring with
  | true => rfl
  | false => simp [Operation.log]

theorem log_append (first second : History) :
    History.log (first ++ second) = History.log first ++ History.log second :=
  List.filterMap_append

theorem kept_append (first second : List LogEvent) :
    operation.kept monitoring (first ++ second) =
      operation.kept monitoring first ++ operation.kept monitoring second := by
  simp [Operation.kept]

end Log

/-! ## Authentication -/

/-- Among the events that followed a past, the authenticator was asked about a
request, and this was its verdict. -/
inductive Asked (client : Client) (past events : History) (request : Request)
    (securityType : String) (verdict : Except Fault Verdict) : Prop
  | intro {authenticator : Authenticator} {earlier : History}
      (isSecured : client.endpoint.securityType = some securityType)
      (isThere : client.authenticator = some authenticator)
      (wasAsked : earlier ++ [.authenticated request] <+: events)
      (isVerdict : authenticator (past ++ earlier) request client.endpoint.securityContext =
        verdict) :
      Asked client past events request securityType verdict

/-- Among the events that followed a past, authentication let a request pass in a
form: nobody had to be asked, or the authenticator gave it back in this form. -/
inductive Admits (client : Client) (past events : History) (request : Request) : Request → Prop
  | unasked (isOpen : client.endpoint.securityType = none) :
      Admits client past events request request
  | accepted {securityType : String} {left : Request}
      (asked : Asked client past events request securityType (.ok ⟨true, left⟩)) :
      Admits client past events request left

/-- Among the events that followed a past, authentication kept a request back with a
fault: there is no authenticator, or it failed itself, or it did not accept. -/
inductive Refuses (client : Client) (past events : History) (request : Request) : Fault → Prop
  | unavailable {securityType : String}
      (isSecured : client.endpoint.securityType = some securityType)
      (isMissing : client.authenticator = none) :
      Refuses client past events request (.auth (.unavailable securityType))
  | failed {securityType : String} {fault : Fault}
      (asked : Asked client past events request securityType (.error fault)) :
      Refuses client past events request fault
  | refused {securityType : String} {left : Request}
      (asked : Asked client past events request securityType (.ok ⟨false, left⟩)) :
      Refuses client past events request (.auth (.refused securityType left.method left.target))

section Authentication

variable {client : Client} {past before events more : History} {request : Request}

/-- What the authenticator said is not undone by what happens later. -/
theorem Asked.extend {securityType : String} {verdict : Except Fault Verdict}
    (asked : Asked client past events request securityType verdict) (longer : events <+: more) :
    Asked client past more request securityType verdict := by
  obtain ⟨isSecured, isThere, wasAsked, isVerdict⟩ := asked
  exact ⟨isSecured, isThere, wasAsked.trans longer, isVerdict⟩

/-- The end of a past may be counted among the events that followed. -/
theorem Asked.behind {securityType : String} {verdict : Except Fault Verdict}
    (asked : Asked client (past ++ before) events request securityType verdict) :
    Asked client past (before ++ events) request securityType verdict := by
  obtain ⟨isSecured, isThere, wasAsked, isVerdict⟩ := asked
  refine ⟨isSecured, isThere, ?_, List.append_assoc past before _ ▸ isVerdict⟩
  rw [List.append_assoc]
  exact (List.prefix_append_right_inj before).mpr wasAsked

theorem Admits.extend {left : Request} (admits : Admits client past events request left)
    (longer : events <+: more) : Admits client past more request left := by
  cases admits with
  | unasked isOpen => exact .unasked isOpen
  | accepted asked => exact .accepted (asked.extend longer)

theorem Admits.behind {left : Request}
    (admits : Admits client (past ++ before) events request left) :
    Admits client past (before ++ events) request left := by
  cases admits with
  | unasked isOpen => exact .unasked isOpen
  | accepted asked => exact .accepted asked.behind

theorem Refuses.extend {fault : Fault} (refuses : Refuses client past events request fault)
    (longer : events <+: more) : Refuses client past more request fault := by
  cases refuses with
  | unavailable isSecured isMissing => exact .unavailable isSecured isMissing
  | failed asked => exact .failed (asked.extend longer)
  | refused asked => exact .refused (asked.extend longer)

theorem Refuses.behind {fault : Fault}
    (refuses : Refuses client (past ++ before) events request fault) :
    Refuses client past (before ++ events) request fault := by
  cases refuses with
  | unavailable isSecured isMissing => exact .unavailable isSecured isMissing
  | failed asked => exact .failed asked.behind
  | refused asked => exact .refused asked.behind

end Authentication

/-! ## The caller's hook -/

/-- Among the events that followed a past, the caller's hook made this of a request. A
client without a hook leaves requests as they are. -/
inductive Amends (client : Client) (past events : History) (request : Request) :
    Except Fault Request → Prop
  | unasked (isFree : client.amendment = none) : Amends client past events request (.ok request)
  | asked {amendment : Amendment} {earlier : History} {result : Except Fault Request}
      (isThere : client.amendment = some amendment)
      (wasOffered : earlier ++ [.offered request] <+: events)
      (isResult : amendment (past ++ earlier) client.id request = result) :
      Amends client past events request result

section Amendments

variable {client : Client} {past before events more : History} {request : Request}
  {result : Except Fault Request}

theorem Amends.extend (amends : Amends client past events request result)
    (longer : events <+: more) : Amends client past more request result := by
  cases amends with
  | unasked isFree => exact .unasked isFree
  | asked isThere wasOffered isResult => exact .asked isThere (wasOffered.trans longer) isResult

theorem Amends.behind (amends : Amends client (past ++ before) events request result) :
    Amends client past (before ++ events) request result := by
  cases amends with
  | unasked isFree => exact .unasked isFree
  | @asked amendment earlier _ isThere wasOffered isResult =>
      refine .asked isThere ?_ (List.append_assoc past before earlier ▸ isResult)
      rw [List.append_assoc]
      exact (List.prefix_append_right_inj before).mpr wasOffered

theorem Amends.eq_of_none (amends : Amends client past events request result)
    (noAmendment : client.amendment = none) : result = .ok request := by
  cases amends with
  | unasked isFree => rfl
  | asked isThere _ _ =>
      rw [noAmendment] at isThere
      cases isThere

end Amendments

/-! ## One request -/

/-- Authentication admits a request or refuses it, and hands nothing to the transport. -/
theorem authenticate_course (client : Client) (request : Request) (session : Session) :
    ∃ events, IsQuiet events ∧
      ((∃ left, Admits client session.history events request left ∧
          (client.authenticate request).course session = (.ok left, session.after events)) ∨
        ∃ fault, Refuses client session.history events request fault ∧
          (client.authenticate request).course session =
            (.error fault, session.after events)) := by
  cases isSecured : client.endpoint.securityType with
  | none =>
      refine ⟨[], isQuiet_nil, .inl ⟨request, .unasked isSecured, ?_⟩⟩
      simp [authenticate, isSecured]
  | some securityType =>
      cases isThere : client.authenticator with
      | none =>
          exact ⟨[], isQuiet_nil, .inr ⟨_, .unavailable isSecured isThere,
            by simp [authenticate, isSecured, isThere]⟩⟩
      | some authenticator =>
          have wasAsked :
              ([] : History) ++ [.authenticated request] <+: [.authenticated request] :=
            List.prefix_refl _
          have asked (verdict : Except Fault Verdict) (isVerdict : authenticator session.history
              request client.endpoint.securityContext = verdict) :
              Asked client session.history [.authenticated request] request securityType
                verdict :=
            .intro isSecured isThere wasAsked ((List.append_nil session.history).symm ▸ isVerdict)
          refine ⟨[.authenticated request], isQuiet_singleton rfl, ?_⟩
          cases verdict :
            authenticator session.history request client.endpoint.securityContext with
          | error fault =>
              exact .inr ⟨fault, .failed (asked _ verdict),
                by simp [authenticate, isSecured, isThere, Action.course_bind, verdict]⟩
          | ok decision =>
              obtain ⟨accepted, left⟩ := decision
              cases accepted with
              | true =>
                  exact .inl ⟨left, .accepted (asked _ verdict),
                    by simp [authenticate, isSecured, isThere, Action.course_bind, verdict]⟩
              | false =>
                  exact .inr ⟨_, .refused (asked _ verdict),
                    by simp [authenticate, isSecured, isThere, Action.course_bind, verdict]⟩

/-- Handing a request to the transport is one exchange, which ends with its answer, and of
which the log tells. -/
theorem transmit_course (client : Client) (definition : Definition) (operation : Operation)
    (request : Request) (session : Session) :
    ∃ events exchange, exchange.dispatch.request = request ∧
      exchanges client.transport session.history events = [exchange] ∧
      History.log events = operation.kept client.monitoring exchange.told ∧
      (client.transmit definition operation request).course session =
        (exchange.answer, session.after events) := by
  let dispatch : Dispatch :=
    ⟨request, definition.host, definition.usesTls, operation.transaction⟩
  let asking : LogEvent := .requested request.method request.target
    (shownHeaders request.headers) (request.body.map ByteArray.size)
  let announced := operation.noted client.monitoring asking
  let exchange : Exchange :=
    ⟨dispatch, client.transport (session.after announced).history dispatch⟩
  have announce : (operation.log client.monitoring.logsRequests asking).course session =
      (.ok (), session.after announced) := log_course operation client.monitoring asking session
  have sent : exchanges client.transport session.history (announced ++ [.sent dispatch]) =
      [exchange] := by
    rw [exchanges_append, exchanges_of_isQuiet _ _ (isQuiet_noted _ _ _)]
    rfl
  have asked :
      (Action.ask (.sent dispatch) fun history => client.transport history dispatch).course
        (session.after announced) =
      (exchange.answer, session.after (announced ++ [.sent dispatch])) := by
    simp [exchange]
  have announcedLog : History.log (announced ++ [.sent dispatch]) =
      operation.kept client.monitoring [asking] := by
    rw [log_append, log_noted]
    exact List.append_nil _
  unfold transmit
  rw [Action.course_bind_ok announce]
  cases answer : exchange.answer with
  | error fault =>
      rw [answer] at asked
      refine ⟨_, exchange, rfl, sent, ?_, by rw [Action.course_bind_error asked, answer]⟩
      rw [announcedLog, Exchange.told, answer]
  | ok response =>
      rw [answer] at asked
      let answering : LogEvent := .responded response.status (shownHeaders response.headers)
      let noted := operation.noted client.monitoring answering
      have note : (operation.log client.monitoring.logsRequests answering).course
          (session.after (announced ++ [.sent dispatch])) =
            (.ok (), (session.after (announced ++ [.sent dispatch])).after noted) :=
        log_course operation client.monitoring answering _
      refine ⟨announced ++ [.sent dispatch] ++ noted, exchange, rfl, ?_, ?_, ?_⟩
      · rw [exchanges_append, sent, exchanges_of_isQuiet _ _ (isQuiet_noted _ _ _),
          List.append_nil]
      · rw [log_append, announcedLog, log_noted, ← kept_append, Exchange.told, answer]
        rfl
      · rw [Action.course_bind_ok asked, Action.course_bind_ok note, Action.course_pure,
          Session.after_after, answer]

/-- The caller's hook hands nothing to the transport. -/
theorem amend_course (client : Client) (request : Request) (session : Session) :
    ∃ events result, IsQuiet events ∧ Amends client session.history events request result ∧
      (client.amend request).course session = (result, session.after events) := by
  cases isThere : client.amendment with
  | none => exact ⟨[], .ok request, isQuiet_nil, .unasked isThere, by simp [amend, isThere]⟩
  | some amendment =>
      refine ⟨[.offered request], amendment session.history client.id request,
        isQuiet_singleton rfl, ?_, by simp [amend, isThere]⟩
      have wasOffered : ([] : History) ++ [.offered request] <+: [.offered request] :=
        List.prefix_refl _
      exact .asked isThere wasOffered (by rw [List.append_nil])

/-- What the caller's hook gave back is handed over once, and decides the outcome; if it
gave nothing back, nothing is handed over. -/
theorem amend_transmit_course (client : Client) (definition : Definition) (operation : Operation)
    (request : Request) (session : Session) :
    let passed : Action Response := do
      let amended ← client.amend request
      let response ← client.transmit definition operation amended
      if response.isSuccess then return response
      else throw (.protocol response.status response.contentText?)
    ∃ events,
      (∃ fault, Amends client session.history events request (.error fault) ∧
        exchanges client.transport session.history events = [] ∧
        passed.course session = (.error fault, session.after events)) ∨
      ∃ exchange, Amends client session.history events request (.ok exchange.dispatch.request) ∧
        exchanges client.transport session.history events = [exchange] ∧
        passed.course session = (exchange.outcome, session.after events) := by
  intro passed
  obtain ⟨offered, result, offeredQuiet, amends, amended⟩ := amend_course client request session
  cases result with
  | error fault =>
      exact ⟨offered, .inl ⟨fault, amends, exchanges_of_isQuiet _ _ offeredQuiet,
        Action.course_bind_error amended _⟩⟩
  | ok left =>
      obtain ⟨handed, exchange, rfl, isOnly, -, transmitted⟩ :=
        transmit_course client definition operation left (session.after offered)
      refine ⟨offered ++ handed, .inr ⟨exchange, ?_, ?_, ?_⟩⟩
      · exact amends.extend (List.prefix_append _ _)
      · rw [exchanges_append, exchanges_of_isQuiet _ _ offeredQuiet, List.nil_append]
        exact isOnly
      · rw [Session.after_after] at transmitted
        rw [Action.course_bind_ok amended, Action.course_bind, transmitted, Exchange.outcome]
        cases exchange.answer with
        | error fault => rfl
        | ok response => cases isSuccess : response.isSuccess <;> simp [isSuccess]

/-- A request is refused, or given up by the caller's hook, and then nothing is handed to
the transport; or it is admitted and changed, and what came of it is handed over once and
decides the outcome. -/
theorem send_course_amended (client : Client) (definition : Definition) (operation : Operation)
    (request : Request) (session : Session) :
    ∃ events,
      (∃ fault, (Refuses client session.history events request fault ∨
          ∃ left, Admits client session.history events request left ∧
            Amends client session.history events left (.error fault)) ∧
        exchanges client.transport session.history events = [] ∧
        (client.send definition operation request).course session =
          (.error fault, session.after events)) ∨
      ∃ left exchange, Admits client session.history events request left ∧
        Amends client session.history events left (.ok exchange.dispatch.request) ∧
        exchanges client.transport session.history events = [exchange] ∧
        (client.send definition operation request).course session =
          (exchange.outcome, session.after events) := by
  obtain ⟨asked, askedQuiet, ⟨left, admits, authenticated⟩ | ⟨fault, refuses, authenticated⟩⟩ :=
    authenticate_course client request session
  · have quietly (events : History) :
        exchanges client.transport session.history (asked ++ events) =
          exchanges client.transport (session.after asked).history events := by
      rw [exchanges_append, exchanges_of_isQuiet _ _ askedQuiet, List.nil_append]
      rfl
    obtain ⟨events, ⟨fault, amends, isNone, passed⟩ | ⟨exchange, amends, isOnly, passed⟩⟩ :=
      amend_transmit_course client definition operation left (session.after asked)
    · refine ⟨asked ++ events, .inl ⟨fault, .inr ⟨left, ?_, amends.behind⟩, ?_, ?_⟩⟩
      · exact admits.extend (List.prefix_append _ _)
      · rw [quietly, isNone]
      · rw [send, Action.course_bind_ok authenticated, passed, Session.after_after]
    · refine ⟨asked ++ events, .inr ⟨left, exchange, ?_, amends.behind, ?_, ?_⟩⟩
      · exact admits.extend (List.prefix_append _ _)
      · rw [quietly, isOnly]
      · rw [send, Action.course_bind_ok authenticated, passed, Session.after_after]
  · exact ⟨asked, .inl ⟨fault, .inl refuses, exchanges_of_isQuiet _ _ askedQuiet,
      by rw [send, Action.course_bind_error authenticated]⟩⟩

/-- Without a hook, a request is refused, and then nothing is handed to the transport; or
it is admitted in some form, and that form is handed over once and decides the outcome. -/
theorem send_course {client : Client} (noAmendment : client.amendment = none)
    (definition : Definition) (operation : Operation) (request : Request) (session : Session) :
    ∃ events,
      (∃ fault, Refuses client session.history events request fault ∧
        exchanges client.transport session.history events = [] ∧
        (client.send definition operation request).course session =
          (.error fault, session.after events)) ∨
      ∃ exchange, Admits client session.history events request exchange.dispatch.request ∧
        exchanges client.transport session.history events = [exchange] ∧
        (client.send definition operation request).course session =
          (exchange.outcome, session.after events) := by
  obtain ⟨events, ⟨fault, keptBack, isNone, sent⟩ |
    ⟨left, exchange, admits, amends, isOnly, sent⟩⟩ :=
    send_course_amended client definition operation request session
  · rcases keptBack with refuses | ⟨left, -, amends⟩
    · exact ⟨events, .inl ⟨fault, refuses, isNone, sent⟩⟩
    · cases amends.eq_of_none noAmendment
  · cases amends.eq_of_none noAmendment
    exact ⟨events, .inr ⟨exchange, admits, isOnly, sent⟩⟩

end OData.Client
