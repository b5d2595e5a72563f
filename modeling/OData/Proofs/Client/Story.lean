/-
# What the log tells

The log is a second account of a call, beside the requests that were handed to the
transport. This module shows that the two agree. While a function is executed, the log
tells of the exchanges and of nothing else: this is `Recounts`, which holds of sending one
request and of everything that is put together from actions of which it holds. The frame
of the call adds one event before and one behind.

Which events are kept is left to the settings until the end. Whatever they are, the log is
what they keep of the whole story; at the levels `debug` and `trace` that is all of it.
-/

import OData.Proofs.Association.Conduct
import OData.Proofs.Client.Call

namespace OData.Client

open Http (Request Response)
open Target (Site AssociationTarget)

variable {α β : Type} {client : Client} {operation : Operation}

/-! ## Telling of exchanges -/

/-- Among the events that followed a past, the log tells of the exchanges with the
transport, in their order, and of nothing else. -/
def Tells (client : Client) (operation : Operation) (past events : History) : Prop :=
  History.log events =
    operation.kept client.monitoring
      ((exchanges client.transport past events).flatMap Exchange.told)

theorem tells_nil (past : History) : Tells client operation past [] := rfl

theorem tells_singleton {happening : Happening} (isQuiet : happening.dispatch? = none)
    (notLogged : History.log [happening] = []) (past : History) :
    Tells client operation past [happening] := by
  rw [Tells, notLogged, exchanges_of_isQuiet _ _ (isQuiet_singleton isQuiet)]
  rfl

theorem Tells.append {past first second : History} (left : Tells client operation past first)
    (right : Tells client operation (past ++ first) second) :
    Tells client operation past (first ++ second) := by
  rw [Tells, log_append, left, right, exchanges_append, List.flatMap_append, kept_append]

/-- In every session, the log tells of the exchanges that an action makes. -/
def Recounts (client : Client) (operation : Operation) (action : Action α) : Prop :=
  ∀ session, ∃ events, (action.course session).2.history = session.history ++ events ∧
    Tells client operation session.history events

namespace Recounts

theorem compute (result : Except Fault α) : Recounts client operation (Action.compute result) :=
  fun _ => ⟨[], (List.append_nil _).symm, tells_nil _⟩

theorem pure (value : α) : Recounts client operation (pure value : Action α) :=
  compute (.ok value)

theorem throw (fault : Fault) : Recounts client operation (throw fault : Action α) :=
  compute (.error fault)

theorem ask {happening : Happening} (isQuiet : happening.dispatch? = none)
    (notLogged : History.log [happening] = []) (answer : History → Except Fault α) :
    Recounts client operation (Action.ask happening answer) :=
  fun _ => ⟨[happening], rfl, tells_singleton isQuiet notLogged _⟩

theorem bind {action : Action α} {next : α → Action β} (first : Recounts client operation action)
    (others : ∀ value, Recounts client operation (next value)) :
    Recounts client operation (action >>= next) := by
  intro session
  obtain ⟨events, added, tells⟩ := first session
  cases ended : action.course session with | mk result reached =>
  rw [ended] at added
  cases result with
  | error fault =>
      rw [Action.course_bind_error ended]
      exact ⟨events, added, tells⟩
  | ok value =>
      obtain ⟨more, addedMore, tellsMore⟩ := others value reached
      rw [added] at tellsMore
      refine ⟨events ++ more, ?_, tells.append tellsMore⟩
      rw [Action.course_bind_ok ended, addedMore, added, List.append_assoc]

end Recounts

/-! ## Executing a function -/

section

variable (client operation)

theorem recounts_authenticate (request : Request) :
    Recounts client operation (client.authenticate request) := by
  unfold authenticate
  split
  · exact .pure request
  · split
    · exact .throw _
    · apply Recounts.bind
      · exact .ask rfl rfl _
      · intro verdict
        split
        · exact .pure verdict.request
        · exact .throw _

theorem recounts_amend (request : Request) :
    Recounts client operation (client.amend request) := by
  unfold amend
  split
  · exact .pure request
  · exact .ask rfl rfl _

theorem recounts_transmit (definition : Definition) (request : Request) :
    Recounts client operation (client.transmit definition operation request) := by
  intro session
  obtain ⟨events, exchange, -, isOnly, told, ended⟩ :=
    transmit_course client definition operation request session
  refine ⟨events, by rw [ended]; rfl, ?_⟩
  rw [Tells, isOnly, told, List.flatMap_singleton]

theorem recounts_send (definition : Definition) (request : Request) :
    Recounts client operation (client.send definition operation request) := by
  apply Recounts.bind (recounts_authenticate client operation request)
  intro authenticated
  apply Recounts.bind (recounts_amend client operation authenticated)
  intro amended
  apply Recounts.bind (recounts_transmit client operation definition amended)
  intro response
  split
  · exact .pure response
  · exact .throw _

theorem recounts_sendAll (definition : Definition) (requests : List Request) :
    Recounts client operation (client.sendAll definition operation requests) := by
  induction requests with
  | nil => exact .pure ()
  | cons request rest ih =>
      apply Recounts.bind (recounts_send client operation definition request)
      exact fun _ => ih

theorem recounts_associate (site : Site) (mode : AssociationMode) (target : AssociationTarget) :
    Recounts client operation (client.associate site operation mode target) := by
  apply Recounts.bind
  · cases mode with
    | add => exact .pure _
    | remove => exact .pure _
    | merge =>
        apply Recounts.bind (recounts_send client operation site.definition _)
        exact fun _ => .compute _
  · exact fun existing => recounts_sendAll client operation site.definition _

theorem recounts_execute (definition : Definition) (function : Function)
    (input : Option Record) :
    Recounts client operation (client.execute definition function input operation) := by
  unfold execute
  dsimp only
  split
  · apply Recounts.bind (.compute _)
    intro target
    apply Recounts.bind (recounts_associate client operation _ _ target)
    exact fun _ => .pure _
  · apply Recounts.bind (.compute _)
    intro request
    apply Recounts.bind (recounts_send client operation definition request)
    exact fun _ => .compute _

end

/-! ## Calls -/

/-- The whole story of a call: that it began, each exchange with the transport, and how it
ended. -/
def story (function : Function) (transaction : Option String) (made : List Exchange)
    (result : Except Fault α) : List LogEvent :=
  .started function.method.name transaction ::
    (made.flatMap Exchange.told ++ [ending function.method.name result])

theorem log_of_onlyResolves {events : History} (onlyResolves : OnlyResolves events) :
    History.log events = [] := by
  rcases onlyResolves with rfl | rfl <;> rfl

/-- Of the story of a call, the log keeps what is wanted. -/
theorem run_log (function : Function) (input : Option Record) (transaction : Option String)
    {session : Session} {definition : Definition}
    (known : (client.definition.course session).1 = .ok definition) :
    let ended := (client.run function input transaction).course session
    ∃ events, ended.2.history = session.history ++ events ∧
      History.log events =
        (session.operation function (transactionOf input transaction)).kept client.monitoring
          (story function (transactionOf input transaction)
            (exchanges client.transport session.history events) ended.1) := by
  intro ended
  obtain ⟨asked, reached, onlyResolves, began, whole⟩ :=
    run_frame function input transaction known
  let operation := session.operation function (transactionOf input transaction)
  obtain ⟨events, added, tells⟩ :=
    recounts_execute client operation definition function input reached
  let result := ((client.execute definition function input operation).course reached).1
  let before := asked ++ operation.noted client.monitoring
    (.started operation.method operation.transaction)
  let afterwards := operation.noted client.monitoring (ending operation.method result)
  have beforeQuiet : IsQuiet before :=
    List.forall_mem_append.mpr ⟨onlyResolves.isQuiet, isQuiet_noted _ _ _⟩
  have made : exchanges client.transport session.history (before ++ events ++ afterwards) =
      exchanges client.transport reached.history events := by
    rw [exchanges_append, exchanges_append, exchanges_of_isQuiet _ _ beforeQuiet,
      exchanges_of_isQuiet _ _ (isQuiet_noted _ _ _), List.nil_append, List.append_nil, began]
  have isEnded : ended = (result,
      ((client.execute definition function input operation).course reached).2.after afterwards) :=
    whole
  refine ⟨before ++ events ++ afterwards, ?_, ?_⟩
  · rw [isEnded, Session.history_after, added, began]
    simp only [before, operation, List.append_assoc]
  · rw [made, isEnded, story, log_append, log_append, log_append, log_noted, log_noted, tells,
      log_of_onlyResolves onlyResolves, List.nil_append, ← kept_append, ← kept_append]
    rfl

/-- A call of a known function runs that function, after the definition was asked for. -/
theorem Call.exists_run (call : Call) (input : Option Record) (transaction : Option String)
    {session : Session} {definition : Definition} {function : Function}
    (known : (client.definition.course session).1 = .ok definition)
    (isFunction : call.function? definition = some function) :
    ∃ asked reached, OnlyResolves asked ∧ reached.history = session.history ++ asked ∧
      reached.nextNumber = session.nextNumber ∧
      (client.definition.course reached).1 = .ok definition ∧
      (call.run client input transaction).course session =
        (client.run function input transaction).course reached := by
  cases call with
  | of called =>
      obtain rfl : called = function := Option.some.inj isFunction
      exact ⟨[], session, .inl rfl, (List.append_nil _).symm, rfl, known, rfl⟩
  | named context name =>
      obtain ⟨asked, onlyResolves, had, sameNumber⟩ := definition_course client session
      have resolved : client.definition.course session =
          (.ok definition, (client.definition.course session).2) := Prod.ext known rfl
      have isFound : definition.function? context name = some function := isFunction
      refine ⟨asked, _, onlyResolves, had, sameNumber, ?_, ?_⟩
      · rw [definition_kept known]
      · rw [Call.run, runNamed, Action.course_bind_ok resolved, isFound]

/-- A call by a name that nothing has ends before there is anything to log. -/
theorem Call.run_unknown (call : Call) (input : Option Record) (transaction : Option String)
    {session : Session} {definition : Definition}
    (known : (client.definition.course session).1 = .ok definition)
    (isUnknown : call.function? definition = none) :
    ((call.run client input transaction).course session).2 =
      (client.definition.course session).2 := by
  cases call with
  | of called => cases isUnknown
  | named context name =>
      have resolved : client.definition.course session =
          (.ok definition, (client.definition.course session).2) := Prod.ext known rfl
      have isMissing : definition.function? context name = none := isUnknown
      rw [Call.run, runNamed, Action.course_bind_ok resolved, isMissing]
      rfl

/-! ## Levels -/

/-- The event is about a single request or response. -/
def LogEvent.isHttp : LogEvent → Bool
  | .requested _ _ _ _ | .responded _ _ => true
  | .started _ _ | .completed _ | .failed _ _ _ => false

section

variable {monitoring : Monitoring} (events : List LogEvent)

/-- At the lightest levels nothing is left out, unless requests are switched off. -/
theorem kept_of_debug (isLight : monitoring.logLevel ∈ [.debug, .trace])
    (logsRequests : monitoring.requestLogging = true) :
    operation.kept monitoring events = events.map operation.entry := by
  have all : ∀ event ∈ events, event.isWanted monitoring = true := by
    intro event _
    simp only [List.mem_cons, List.not_mem_nil, or_false] at isLight
    rcases isLight with level | level <;>
      cases event <;>
      simp [LogEvent.isWanted, Monitoring.logsRequests, Monitoring.logs, level, logsRequests,
        LogLevel.rank]
  rw [Operation.kept, List.filter_eq_self.mpr all]

/-- At level `info` everything but single requests and responses is left. -/
theorem kept_of_info (isInfo : monitoring.logLevel = .info) :
    operation.kept monitoring events =
      (events.filter fun event => !event.isHttp).map operation.entry := by
  have same : LogEvent.isWanted monitoring = fun event => !event.isHttp := by
    ext event
    cases event <;>
      simp [LogEvent.isWanted, LogEvent.isHttp, Monitoring.logsRequests, Monitoring.logs, isInfo,
        LogLevel.rank]
  rw [Operation.kept, same]

end

/-- The status that a call ended with, if the server turned it down. -/
def protocolStatus? : Except Fault α → Option Nat
  | .error (.protocol status _) => some status
  | _ => none

/-- The last event says whether the call succeeded, and which status turned it down. -/
theorem members_ending (method : String) (result : Except Fault α) :
    ("success", .boolean result.isOk) ∈ (ending method result).members ∧
      ("status_code", Json.ofNat (protocolStatus? result)) ∈ (ending method result).members := by
  cases result with
  | ok value => exact ⟨by simp [ending, LogEvent.members, Except.isOk, Except.toBool],
      by simp [ending, LogEvent.members, protocolStatus?, Json.ofNat]⟩
  | error fault =>
      have status : protocolStatus? (.error fault : Except Fault α) = fault.status? := by
        cases fault <;> rfl
      rw [status]
      exact ⟨by simp [ending, LogEvent.members, Except.isOk, Except.toBool],
        by simp [ending, LogEvent.members]⟩

/-- However the transport, the authenticator and the caller's hook behave: once the
definition is had, the log of a call at the levels `debug` and `trace` is its whole story,
all of it under one number. It tells of each request that was handed to the transport, in
order, with the response if there was one. At level `info` it is that story without single
requests and responses. A name that no function has begins no call. -/
theorem log_tells_story (call : Call) (input : Option Record) (transaction : Option String)
    {session : Session} {definition : Definition}
    (known : (client.definition.course session).1 = .ok definition) :
    let ended := (call.run client input transaction).course session
    ∃ events, ended.2.history = session.history ++ events ∧
      let made := exchanges client.transport session.history events
      made.map Exchange.dispatch = History.sent events ∧
      (∀ function, call.function? definition = some function →
        let operation := session.operation function (transactionOf input transaction)
        let whole := story function (transactionOf input transaction) made ended.1
        let last := ending function.method.name ended.1
        (client.monitoring.logLevel ∈ [.debug, .trace] → client.monitoring.requestLogging = true →
          History.log events = whole.map operation.entry) ∧
        (client.monitoring.logLevel = .info →
          History.log events = (whole.filter fun event => !event.isHttp).map operation.entry) ∧
        ("success", .boolean ended.1.isOk) ∈ last.members ∧
        ("status_code", Json.ofNat (protocolStatus? ended.1)) ∈ last.members) ∧
      (call.function? definition = none → History.log events = []) := by
  intro ended
  cases isFunction : call.function? definition with
  | none =>
      obtain ⟨events, onlyResolves, had, -⟩ := definition_course client session
      refine ⟨events, ?_, map_dispatch_exchanges _ _ _, ?_, ?_⟩
      · rw [← had]
        exact congrArg Session.history (call.run_unknown input transaction known isFunction)
      · intro called isCalled
        cases isCalled
      · exact fun _ => log_of_onlyResolves onlyResolves
  | some function =>
      obtain ⟨asked, reached, onlyResolves, had, sameNumber, stillKnown, sameCourse⟩ :=
        call.exists_run input transaction known isFunction
      obtain ⟨events, added, logged⟩ := run_log function input transaction stillKnown
      have sameOperation : reached.operation function (transactionOf input transaction) =
          session.operation function (transactionOf input transaction) := by
        rw [Session.operation, sameNumber]
        rfl
      have made : exchanges client.transport session.history (asked ++ events) =
          exchanges client.transport reached.history events := by
        rw [exchanges_append, exchanges_of_isQuiet _ _ onlyResolves.isQuiet, List.nil_append, had]
      rw [← sameCourse] at added logged
      refine ⟨asked ++ events, ?_, map_dispatch_exchanges _ _ _, ?_, ?_⟩
      · rw [added, had, List.append_assoc]
      · rintro called isCalled operation whole last
        obtain rfl := Option.some.inj isCalled
        have log : History.log (asked ++ events) = operation.kept client.monitoring whole := by
          rw [log_append, log_of_onlyResolves onlyResolves, logged, sameOperation,
            List.nil_append]
          simp only [whole, made]
          rfl
        rw [log]
        obtain ⟨success, status⟩ := members_ending function.method.name ended.1
        refine ⟨?_, ?_, success, status⟩
        · exact fun isLight logsRequests => kept_of_debug whole isLight logsRequests
        · exact fun isInfo => kept_of_info whole isInfo
      · intro isUnknown
        cases isUnknown

/-- A client that logs everything, of a server that answers once and then is gone. -/
def talkative : Client := { onceAnswered with monitoring := { logLevel := .debug } }

/-- The request that the server is gone for is told of, but there is no response to tell
of. -/
theorem failed_merge_told :
    let ended := ((Call.of mergeContacts).run talkative (some twoContacts) none).course {}
    ended.2.history.log =
        (story mergeContacts none (exchanges talkative.transport [] ended.2.history) ended.1).map
          (Session.operation {} mergeContacts none).entry ∧
      ended.2.history.log.map (fun entry => entry.event.title) =
        ["OData Operation Started", "HTTP Request", "HTTP Response", "HTTP Request",
          "OData Operation Failed"] := by
  intro ended
  have known : (talkative.definition.course {}).1 = .ok crm := rfl
  have isLight : talkative.monitoring.logLevel ∈ [.debug, .trace] := by decide
  obtain ⟨events, added, -, told, -⟩ :=
    log_tells_story (.of mergeContacts) (some twoContacts) none known
  obtain ⟨wholly, -⟩ := told mergeContacts rfl
  have happened : ended.2.history = events := added
  refine ⟨?_, by decide +kernel⟩
  rw [happened]
  exact wholly isLight rfl

end OData.Client
