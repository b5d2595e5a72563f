/-
# Sequences of requests

Requests that are sent one after another stop at the first that is refused or that
turns out badly. `Carried` says how far they came, one case for each thing that can
happen to the next request; what was handed over, what succeeded and how it ended
are read off it by induction.

A call frames what its function does: the definition is had before, and the log is
written around it. `run_course` says that the frame hands nothing to the transport,
so that exchanges are made by the function alone.
-/

import OData.Proofs.Client.Course
import Mathlib.Data.List.Basic

namespace OData.Client

open Http (Request Response)

/-- An exchange turned out well. -/
def Exchange.Succeeded (exchange : Exchange) : Prop :=
  ∃ response, exchange.outcome = .ok response

/-- How far requests came that were sent in order, and how that ended. -/
inductive Carried (client : Client) (past events : History) :
    List Request → List Exchange → Except Fault Unit → Prop
  /-- Nothing is left to be sent. -/
  | done : Carried client past events [] [] (.ok ())
  /-- The next request is refused. -/
  | refused {request : Request} {rest : List Request} {fault : Fault}
      (refuses : Refuses client past events request fault) :
      Carried client past events (request :: rest) [] (.error fault)
  /-- The next request is handed over, and turns out badly. -/
  | failed {request : Request} {rest : List Request} {exchange : Exchange} {fault : Fault}
      (admits : Admits client past events request exchange.dispatch.request)
      (failure : exchange.outcome = .error fault) :
      Carried client past events (request :: rest) [exchange] (.error fault)
  /-- The next request is handed over and turns out well, and the others follow. -/
  | answered {request : Request} {rest : List Request} {exchange : Exchange} {response : Response}
      {others : List Exchange} {result : Except Fault Unit}
      (admits : Admits client past events request exchange.dispatch.request)
      (success : exchange.outcome = .ok response)
      (following : Carried client past events rest others result) :
      Carried client past events (request :: rest) (exchange :: others) result

namespace Carried

variable {client : Client} {past before events : History} {requests : List Request}
  {made : List Exchange} {result : Except Fault Unit}

theorem behind (carried : Carried client (past ++ before) events requests made result) :
    Carried client past (before ++ events) requests made result := by
  induction carried with
  | done => exact .done
  | refused refuses => exact .refused refuses.behind
  | failed admits failure => exact .failed admits.behind failure
  | answered admits success _ ih => exact .answered admits.behind success ih

/-- What was handed over are the first of the requests, each in the form in which it
was admitted. -/
theorem inOrder (carried : Carried client past events requests made result) :
    List.Forall₂ (Admits client past events) (requests.take made.length)
      (made.map fun exchange => exchange.dispatch.request) := by
  induction carried with
  | done => exact .nil
  | refused _ => exact .nil
  | failed admits _ => exact .cons admits .nil
  | answered admits _ _ ih => exact .cons admits ih

/-- Only the last exchange may turn out badly. -/
theorem succeeded (carried : Carried client past events requests made result) :
    ∀ exchange ∈ made.dropLast, exchange.Succeeded := by
  induction carried with
  | done => exact fun _ isMember => absurd isMember List.not_mem_nil
  | refused _ => exact fun _ isMember => absurd isMember List.not_mem_nil
  | failed _ _ => exact fun _ isMember => absurd isMember List.not_mem_nil
  | @answered _ _ exchange response others _ _ success following ih =>
      intro other isMember
      cases others with
      | nil => exact absurd isMember List.not_mem_nil
      | cons next others =>
          rcases List.mem_cons.mp isMember with rfl | isMember
          · exact ⟨response, success⟩
          · exact ih other isMember

/-- All is done exactly when every request was handed over and turned out well. -/
theorem ok_iff (carried : Carried client past events requests made result) :
    result = .ok () ↔
      made.length = requests.length ∧ ∀ exchange ∈ made, exchange.Succeeded := by
  induction carried with
  | done => simp
  | refused _ => simp
  | failed _ failure => simp [Exchange.Succeeded, failure]
  | answered _ success _ ih => simp [ih, Exchange.Succeeded, success]

/-- A fault is that of the last exchange, or the next request was refused with it. -/
theorem stopped (carried : Carried client past events requests made result) {fault : Fault}
    (isFault : result = .error fault) :
    (∃ last, made.getLast? = some last ∧ last.outcome = .error fault) ∨
      (∀ exchange ∈ made, exchange.Succeeded) ∧
        ∃ request, requests[made.length]? = some request ∧
          Refuses client past events request fault := by
  induction carried with
  | done => cases isFault
  | refused refuses =>
      cases isFault
      exact .inr ⟨fun _ isMember => absurd isMember List.not_mem_nil, _, rfl, refuses⟩
  | failed _ failure =>
      cases isFault
      exact .inl ⟨_, rfl, failure⟩
  | @answered _ _ _ response _ _ _ success _ ih =>
      rcases ih isFault with ⟨last, isLast, failure⟩ | ⟨all, next⟩
      · exact .inl ⟨last, by simp [List.getLast?_cons, isLast], failure⟩
      · exact .inr ⟨List.forall_mem_cons.mpr ⟨⟨response, success⟩, all⟩, next⟩

end Carried

/-- Requests are sent in order, up to the first that is refused or turns out badly. -/
theorem sendAll_course {client : Client} (noAmendment : client.amendment = none)
    (definition : Definition) (operation : Operation) (requests : List Request)
    (session : Session) :
    ∃ events result,
      Carried client session.history events requests
        (exchanges client.transport session.history events) result ∧
      (client.sendAll definition operation requests).course session =
        (result, session.after events) := by
  induction requests generalizing session with
  | nil => exact ⟨[], .ok (), .done, by simp [sendAll]⟩
  | cons request rest ih =>
      obtain ⟨events, ⟨fault, refuses, none, sent⟩ | ⟨exchange, admits, isOnly, sent⟩⟩ :=
        send_course noAmendment definition operation request session
      · refine ⟨events, .error fault, none ▸ .refused refuses, ?_⟩
        rw [sendAll, Action.course_bind_error sent]
      · cases outcome : exchange.outcome with
        | error fault =>
            rw [outcome] at sent
            refine ⟨events, .error fault, isOnly ▸ .failed admits outcome, ?_⟩
            rw [sendAll, Action.course_bind_error sent]
        | ok response =>
            rw [outcome] at sent
            obtain ⟨others, result, carried, sentAll⟩ := ih (session.after events)
            refine ⟨events ++ others, result, ?_, ?_⟩
            · rw [exchanges_append, isOnly]
              exact .answered (admits.extend (List.prefix_append _ _)) outcome carried.behind
            · rw [sendAll, Action.course_bind_ok sent, sentAll, Session.after_after]

/-! ## The frame of a call -/

/-- Nothing happened but that the source of the definition was asked, once at most. -/
def OnlyResolves (events : History) : Prop := events = [] ∨ events = [.resolved]

theorem OnlyResolves.isQuiet {events : History} (onlyResolves : OnlyResolves events) :
    IsQuiet events := by
  rcases onlyResolves with rfl | rfl
  · exact isQuiet_nil
  · exact isQuiet_singleton rfl

section

variable (client : Client) {session : Session}

/-- A definition that was kept is not asked for again. -/
theorem definition_course_of_some {definition : Definition}
    (isKept : session.definition = some definition) :
    client.definition.course session = (.ok definition, session) := by
  simp only [Client.definition, Action.course_bind, Action.course_get, isKept, Action.course_pure]

/-- A definition that is not yet had is asked for, and kept if it is got. -/
theorem definition_course_of_none (isNew : session.definition = none) :
    client.definition.course session =
      (client.resolve session.history,
        { session.after [.resolved] with
          definition := (client.resolve session.history).toOption }) := by
  cases found : client.resolve session.history with
  | error fault =>
      simp only [definition, Action.course_bind, Action.course_get, isNew, Action.course_ask,
        found]
      exact congrArg (Prod.mk _) (congrArg (fun kept => Session.mk _ kept _) isNew)
  | ok resolved =>
      simp only [definition, Action.course_bind, Action.course_get, isNew, Action.course_ask,
        found, Action.course_modify, Action.course_pure]
      rfl

end

/-- To have the definition, nothing is handed to the transport, and no call is counted. -/
theorem definition_course (client : Client) (session : Session) :
    ∃ events, OnlyResolves events ∧
      (client.definition.course session).2.history = session.history ++ events ∧
      (client.definition.course session).2.nextNumber = session.nextNumber := by
  cases known : session.definition with
  | some kept =>
      rw [definition_course_of_some client known]
      exact ⟨[], .inl rfl, (List.append_nil _).symm, rfl⟩
  | none =>
      rw [definition_course_of_none client known]
      exact ⟨[.resolved], .inr rfl, rfl, rfl⟩

/-- The call that a session begins with a function. -/
def Session.operation (session : Session) (function : Function) (transaction : Option String) :
    Operation :=
  ⟨session.nextNumber, function.qualifiedName, function.method.name, transaction⟩

theorem begin_course (client : Client) (function : Function) (transaction : Option String)
    (session : Session) :
    (client.begin function transaction).course session =
      (.ok (session.operation function transaction),
        { session with nextNumber := session.nextNumber + 1 }.after
          ((session.operation function transaction).noted client.monitoring
            (.started function.method.name transaction))) := by
  have logged := log_course (session.operation function transaction) client.monitoring
    (.started function.method.name transaction)
    { session with nextNumber := session.nextNumber + 1 }
  simp only [begin, Action.course_bind, Action.course_get, Action.course_modify]
  exact (Action.course_bind _ _ _).symm.trans (Action.course_bind_ok logged _)

/-- The event that ends a call. -/
def ending {α : Type} (method : String) : Except Fault α → LogEvent
  | .ok _ => .completed method
  | .error fault => .failed method fault.status? fault.message

theorem finish_course {α : Type} (client : Client) (operation : Operation)
    (result : Except Fault α) (session : Session) :
    (client.finish operation result).course session =
      (.ok (), session.after
        (operation.noted client.monitoring (ending operation.method result))) := by
  cases result with
  | ok => exact log_course operation client.monitoring (.completed operation.method) session
  | error fault =>
      exact log_course operation client.monitoring
        (.failed operation.method fault.status? fault.message) session

/-- A call has the definition, notes that it begins, does what its function asks for and
notes how that ended. -/
theorem run_frame {client : Client} (function : Function) (input : Option Record)
    (transaction : Option String) {session : Session} {definition : Definition}
    (known : (client.definition.course session).1 = .ok definition) :
    let operation := session.operation function (transactionOf input transaction)
    ∃ asked reached, OnlyResolves asked ∧
      reached.history = session.history ++ (asked ++ operation.noted client.monitoring
        (.started operation.method operation.transaction)) ∧
      let executed := (client.execute definition function input operation).course reached
      (client.run function input transaction).course session =
        (executed.1, executed.2.after
          (operation.noted client.monitoring (ending operation.method executed.1))) := by
  intro operation
  obtain ⟨asked, onlyResolves, had, sameNumber⟩ := definition_course client session
  have resolved : client.definition.course session =
      (.ok definition, (client.definition.course session).2) := Prod.ext known rfl
  have began := begin_course client function (transactionOf input transaction)
    (client.definition.course session).2
  have same : (client.definition.course session).2.operation function
      (transactionOf input transaction) = operation := by
    rw [Session.operation, sameNumber]
    rfl
  rw [same] at began
  let numbered : Session :=
    { (client.definition.course session).2 with
      nextNumber := (client.definition.course session).2.nextNumber + 1 }
  refine ⟨asked, numbered.after (operation.noted client.monitoring
    (.started operation.method operation.transaction)), onlyResolves, ?_, ?_⟩
  · rw [Session.history_after, ← List.append_assoc, ← had]
  · rw [run, Action.course_bind_ok resolved, Action.course_bind_ok began, Action.course_bind,
      Action.course_outcome]
    simp only
    rw [Action.course_bind_ok (finish_course client operation _ _), Action.course_compute]
    rfl

/-- A call ends as what its function does, and everything else that happens in it
hands nothing to the transport. -/
theorem run_course {client : Client} (function : Function) (input : Option Record)
    (transaction : Option String) {session : Session} {definition : Definition}
    (known : (client.definition.course session).1 = .ok definition) :
    ∃ before afterwards operation reached, IsQuiet before ∧ IsQuiet afterwards ∧
      reached.history = session.history ++ before ∧
      let executed := (client.execute definition function input operation).course reached
      ((client.run function input transaction).course session).1 = executed.1 ∧
        ((client.run function input transaction).course session).2.history =
          executed.2.history ++ afterwards := by
  obtain ⟨asked, reached, onlyResolves, began, whole⟩ :=
    run_frame function input transaction known
  let operation := session.operation function (transactionOf input transaction)
  let result := ((client.execute definition function input operation).course reached).1
  have beforeQuiet : IsQuiet (asked ++ operation.noted client.monitoring
      (.started operation.method operation.transaction)) :=
    List.forall_mem_append.mpr ⟨onlyResolves.isQuiet, isQuiet_noted _ _ _⟩
  have afterwardsQuiet : IsQuiet (operation.noted client.monitoring
      (ending operation.method result)) := isQuiet_noted _ _ _
  refine ⟨_, _, operation, reached, beforeQuiet, afterwardsQuiet, began, ?_⟩
  rw [whole]
  exact ⟨rfl, rfl⟩

end OData.Client
