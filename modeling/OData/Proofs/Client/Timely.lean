/-
# When faults come up

A caller who is told that an input is wrong may correct it and call again, as long as
nothing was sent before. A caller who is told that an answer is wrong has to know that
there was one. The phase of a fault settles both, provided that what carries requests fails
in ways of its own only: a fault of preparation means that nothing was handed to the
transport, and a fault of an answer means that something was.

Once the first request is on its way, no fault of preparation can come up any more.
`Underway` says so, and is kept by everything that sends.
-/

import OData.Proofs.Client.Call
import OData.Proofs.Client.Preparation

namespace OData.Client

open Target (Site AssociationTarget)

variable {α β : Type} {client : Client}

/-- What gets requests through fails on the way only: the transport, the authenticator and
the caller's hook, if they are there, have no faults of preparation or of answers. -/
structure KeepsToPassage (client : Client) : Prop where
  transport : ∀ history dispatch, FailsIn .passage (client.transport history dispatch)
  authenticator : ∀ authenticator, client.authenticator = some authenticator →
    ∀ history request context, FailsIn .passage (authenticator history request context)
  amendment : ∀ amendment, client.amendment = some amendment →
    ∀ history id request, FailsIn .passage (amendment history id request)

/-- A fault of preparation comes up before the first exchange, and one of an answer not. -/
structure Timely (result : Except Fault α) (made : List Exchange) : Prop where
  early : ∀ fault, result = .error fault → fault.phase = .preparation → made = []
  late : ∀ fault, result = .error fault → fault.phase = .answer → made ≠ []

/-- Preparation is over, and a fault of an answer comes up behind an exchange only. -/
structure Underway (result : Except Fault α) (made : List Exchange) : Prop where
  prepared : ∀ fault, result = .error fault → fault.phase ≠ .preparation
  late : ∀ fault, result = .error fault → fault.phase = .answer → made ≠ []

/-- There is one exchange, or none if there is a fault. -/
structure Single (result : Except Fault α) (made : List Exchange) : Prop where
  atMost : made.length ≤ 1
  exactly : ∀ value, result = .ok value → made.length = 1

theorem Timely.ofPreparation {result : Except Fault α} (fails : FailsIn .preparation result) :
    Timely result [] := by
  refine ⟨fun _ _ _ => rfl, fun fault isFault isAnswer => ?_⟩
  rw [fails fault isFault] at isAnswer
  cases isAnswer

namespace Underway

variable {result : Except Fault α} {made : List Exchange}

theorem timely (underway : Underway result made) : Timely result made where
  early fault isFault isPreparation := absurd isPreparation (underway.prepared fault isFault)
  late := underway.late

theorem ofOk (value : α) : Underway (.ok value) made := ⟨nofun, nofun⟩

theorem ofPassage {fault : Fault} (isPassage : fault.phase = .passage) :
    Underway (.error fault : Except Fault α) made := by
  refine ⟨fun other isFault => ?_, fun other isFault isAnswer => ?_⟩
  · cases isFault
    rw [isPassage]
    nofun
  · cases isFault
    rw [isPassage] at isAnswer
    cases isAnswer

/-- What is read from an answer, behind an exchange. -/
theorem ofAnswer (fails : FailsIn .answer result) (someMade : made ≠ []) :
    Underway result made := by
  refine ⟨fun fault isFault => ?_, fun _ _ _ => someMade⟩
  rw [fails fault isFault]
  nofun

/-- Earlier exchanges do no harm. -/
theorem behind (underway : Underway result made) (before : List Exchange) :
    Underway result (before ++ made) where
  prepared := underway.prepared
  late fault isFault isAnswer :=
    List.append_ne_nil_of_right_ne_nil before (underway.late fault isFault isAnswer)

theorem map (change : α → β) (underway : Underway result made) :
    Underway (result.map change) made := by
  cases result with
  | error fault =>
      exact ⟨fun other isFault => underway.prepared other (by cases isFault; rfl),
        fun other isFault => underway.late other (by cases isFault; rfl)⟩
  | ok value => exact ofOk _

end Underway

/-! ## One request -/

section

variable (keeps : KeepsToPassage client) {past events : History} {request : Http.Request}
  {fault : Fault}

include keeps

theorem Refuses.isPassage (refuses : Refuses client past events request fault) :
    fault.phase = .passage := by
  cases refuses with
  | unavailable _ _ => rfl
  | refused _ => rfl
  | failed asked =>
      obtain ⟨-, isThere, -, isVerdict⟩ := asked
      exact keeps.authenticator _ isThere _ _ _ _ isVerdict

theorem Amends.isPassage (amends : Amends client past events request (.error fault)) :
    fault.phase = .passage := by
  cases amends with
  | asked isThere _ isResult => exact keeps.amendment _ isThere _ _ _ _ isResult

theorem Sending.underway {result : Except Fault Http.Response} {made : List Exchange}
    (sending : Sending client request result made) : Underway result made := by
  -- Only what was handed over can be judged by its answer.
  cases sending with
  | refused refuses => exact .ofPassage (refuses.isPassage keeps)
  | dropped amends => exact .ofPassage (amends.isPassage keeps)
  | @handed _ _ earlier _ exchange _ _ _ isAnswer isOutcome =>
      rw [Exchange.outcome] at isOutcome
      cases answer : exchange.answer with
      | error fault =>
          rw [answer] at isAnswer isOutcome
          rw [← isOutcome]
          exact .ofPassage (keeps.transport _ _ _ isAnswer.symm)
      | ok response =>
          rw [answer] at isOutcome
          refine .ofAnswer ?_ (List.cons_ne_nil exchange [])
          rw [← isOutcome]
          dsimp only
          split
          · exact .ok _
          · exact .error rfl

end

theorem Sending.single {request : Http.Request} {result : Except Fault Http.Response}
    {made : List Exchange} (sending : Sending client request result made) :
    Single result made := by
  cases sending with
  | refused _ => exact ⟨Nat.zero_le 1, nofun⟩
  | dropped _ => exact ⟨Nat.zero_le 1, nofun⟩
  | handed _ _ _ _ => exact ⟨Nat.le_refl 1, fun _ _ => rfl⟩

theorem Sending.ne_nil {request : Http.Request} {response : Http.Response}
    {made : List Exchange} (sending : Sending client request (.ok response) made) : made ≠ [] :=
  List.ne_nil_of_length_pos (Nat.lt_of_lt_of_eq Nat.one_pos (sending.single.exactly _ rfl).symm)

/-! ## Functions -/

section

variable (keeps : KeepsToPassage client) {definition : Definition} {function : Function}
  {input : Option Record}

include keeps

theorem associate_underway (site : Site) (target : AssociationTarget) (operation : Operation)
    (mode : AssociationMode) (session : Session) :
    Ensures client (client.associate site operation mode target) session Underway := by
  refine ensures_associate ⟨.ofOk (), ?_, ?_⟩ ?_ operation mode session
  · exact fun _ sending => (sending.underway keeps).map fun _ => ()
  · exact fun _ _ holds => holds.behind _
  · intro response fault made sending unreadable
    exact .ofAnswer (.error (Association.failsIn_existing response fault unreadable))
      sending.ne_nil

theorem execute_timely (operation : Operation) (session : Session) :
    Ensures client (client.execute definition function input operation) session
      fun result made =>
        Timely result made ∧ (function.method.mode? = none → Single result made) := by
  cases verb : function.method.mode? with
  | none =>
      refine ensures_execute_regular verb operation session ?_ ?_
      · intro fault isFault
        have fails := client.failsIn_requestOf ⟨definition, client.endpoint⟩ function input
        exact ⟨.ofPreparation (.error (fails fault isFault)), fun _ => ⟨Nat.zero_le 1, nofun⟩⟩
      · intro request _ result made sending
        have single := sending.single
        cases result with
        | error fault =>
            have underway : Underway (.error fault : Except Fault (Option Record)) made :=
              (sending.underway keeps).map fun _ => none
            exact ⟨underway.timely, fun _ => ⟨single.atMost, nofun⟩⟩
        | ok response =>
            have underway : Underway (Body.answer function response) made :=
              .ofAnswer (Body.failsIn_answer function response) sending.ne_nil
            exact ⟨underway.timely, fun _ => ⟨single.atMost, fun _ _ => single.exactly _ rfl⟩⟩
  | some mode =>
      refine ensures_execute_association verb operation session ?_ ?_
      · intro fault isFault
        have fails := Site.failsIn_associationTarget ⟨definition, client.endpoint⟩ function input
        exact ⟨.ofPreparation (.error (fails fault isFault)), nofun⟩
      · intro target _
        refine (associate_underway keeps _ target operation mode session).imp ?_
        exact fun _ _ underway => ⟨(underway.map _).timely, nofun⟩

end

/-! ## Calls -/

/-- The definition that is not to be had is one that its source failed to give. -/
theorem resolve_of_definition {session : Session} {fault : Fault}
    (unresolved : (client.definition.course session).1 = .error fault) :
    client.resolve session.history = .error fault := by
  cases kept : session.definition with
  | some found => simp [Client.definition, Action.course_bind, kept] at unresolved
  | none =>
      cases found : client.resolve session.history <;>
        simp only [Client.definition, Action.course_bind, Action.course_get, kept,
          Action.course_ask, found, Action.course_modify, Action.course_pure] at unresolved
      · exact unresolved
      · cases unresolved

/-- The function that is called has a regular verb, if there is a function. -/
def Call.IsRegular (client : Client) (session : Session) (call : Call) : Prop :=
  ∀ definition function, (client.definition.course session).1 = .ok definition →
    call.function? definition = some function → function.method.mode? = none

/-- A call that ends in a fault of preparation handed nothing to the transport, and one
that ends in a fault of an answer did hand something over. For a function with a regular
verb, at most one request is handed over, and exactly one if the call succeeds.

Only a source of the definition that itself had faults of answers could feign such an end;
by `Definition.failsIn_ofSource`, files and known definitions have none. -/
theorem call_timely {client : Client} (keeps : KeepsToPassage client) (call : Call)
    (input : Option Record) (transaction : Option String) (session : Session) :
    let ended := (call.run client input transaction).course session
    ∃ events, ended.2.history = session.history ++ events ∧
      (∀ fault, ended.1 = .error fault →
        (fault.phase = .preparation → History.sent events = []) ∧
        ((∀ history other, client.resolve history = .error other → other.phase ≠ .answer) →
          fault.phase = .answer → History.sent events ≠ [])) ∧
      (call.IsRegular client session →
        (History.sent events).length ≤ 1 ∧
        ∀ output, ended.1 = .ok output → (History.sent events).length = 1) := by
  intro ended
  have ensures : Ensures client (call.run client input transaction) session fun result made =>
      ((∀ history other, client.resolve history = .error other → other.phase ≠ .answer) →
        Timely result made) ∧
      (∀ fault, result = .error fault → fault.phase = .preparation → made = []) ∧
      (call.IsRegular client session → Single result made) := by
    refine call.ensures ?_ ?_ ?_
    · intro fault unresolved
      refine ⟨fun hasNoAnswers => ⟨fun _ _ _ => rfl, fun other isFault isAnswer => ?_⟩,
        fun _ _ _ => rfl, fun _ => ⟨Nat.zero_le 1, nofun⟩⟩
      cases isFault
      exact absurd isAnswer (hasNoAnswers _ fault (resolve_of_definition unresolved))
    · exact fun _ _ => ⟨fun _ => .ofPreparation (.error rfl), fun _ _ _ => rfl,
        fun _ => ⟨Nat.zero_le 1, nofun⟩⟩
    · intro definition function operation reached known isFunction
      refine (execute_timely keeps operation reached).imp ?_
      exact fun _ _ ⟨timely, single⟩ => ⟨fun _ => timely, timely.early,
        fun isRegular => single (isRegular definition function known isFunction)⟩
  obtain ⟨events, added, timely, early, single⟩ := ensures
  refine ⟨events, added, ?_⟩
  rw [← map_dispatch_exchanges client.transport session.history]
  simp only [List.map_eq_nil_iff, List.length_map, ne_eq]
  refine ⟨fun fault isFault => ⟨early fault isFault, fun hasNoAnswers => ?_⟩, fun isRegular => ?_⟩
  · exact (timely hasNoAnswers).late fault isFault
  · exact ⟨(single isRegular).atMost, (single isRegular).exactly⟩

/-- All accounts. -/
def listAccounts : Function where
  name := "list"
  context := some "accounts"
  method := .get
  input := default
  output := default

/-- A client that marks its requests, to a server that answers none of them. -/
def turnedAway : Client where
  id := "crm"
  endpoint := {}
  resolve _ := Definition.ofSource (fun _ => .missing)
    (.known { scheme := "https", host := "example.com", basePath := "/odata" })
  transport _ _ := .ok ⟨503, .empty, none⟩
  authenticator := none
  amendment := some fun _ id request => .ok (request.setHeader "X-Client" id)
  registry := none
  entitySets := []
  monitoring := {}

theorem turned_away_after_one_request :
    let ended := ((Call.of listAccounts).run turnedAway none none).course {}
    ended.1 = .error (.protocol 503 none) ∧ ended.2.history.sent ≠ [] ∧
      ended.2.history.sent.length ≤ 1 := by
  have keeps : KeepsToPassage turnedAway := by
    refine ⟨fun _ _ => .ok _, nofun, fun amendment isThere => ?_⟩
    cases isThere
    exact fun _ _ _ => .ok _
  have hasNoAnswers (history : History) (fault : Fault)
      (unresolved : turnedAway.resolve history = .error fault) : fault.phase ≠ .answer := by
    have fails : FailsIn .preparation (turnedAway.resolve history) :=
      Definition.failsIn_ofSource (fun _ => .missing) (.known _)
    rw [fails fault unresolved]
    nofun
  have isRegular : Call.IsRegular turnedAway {} (.of listAccounts) := by
    intro definition function _ isFunction
    cases isFunction
    rfl
  have result : (((Call.of listAccounts).run turnedAway none none).course {}).1 =
      .error (.protocol 503 none) := rfl
  obtain ⟨events, added, faults, single⟩ := call_timely keeps (.of listAccounts) none none {}
  refine ⟨result, ?_⟩
  rw [added]
  exact ⟨(faults _ result).2 hasNoAnswers rfl, (single isRegular).1⟩

end OData.Client
