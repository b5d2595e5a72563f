/-
# Calls

A function is called as such, or by its name on an entity set. Either way the
definition is had first, and then the function is executed inside the frame of a call.
`Call.ensures` reduces what a call ensures to what the execution of its function ensures.
Two cases are left where there is none: the definition is not to be had, and it has no
function of the name.

To execute a function, what is to be sent is prepared without the world, and then sent: a
single request of a regular verb, or the conversation of an association verb.
-/

import OData.Proofs.Client.Ensures
import OData.Proofs.Client.Sequence

namespace OData.Client

open Target (Site)

/-- What a client is called for. -/
inductive Call where
  | of (function : Function)
  /-- The function of a name on an entity set. -/
  | named (context name : String)

namespace Call

/-- Make a call. -/
def run (client : Client) (input : Option Record) (transaction : Option String) :
    Call → Action (Option Record)
  | .of function => client.run function input transaction
  | .named context name => client.runNamed context name input transaction

/-- The function that is called in a service. -/
def function? (definition : Definition) : Call → Option Function
  | .of function => some function
  | .named context name => definition.function? context name

end Call

variable {client : Client} {session : Session} {definition : Definition}
  {input : Option Record} {transaction : Option String}
  {post : Except Fault (Option Record) → List Exchange → Prop}

/-! ## Execution -/

/-- A function with a regular verb sends one request, once that is prepared, and gives what
is read from the answer. -/
theorem ensures_execute_regular {function : Function} (isRegular : function.method.mode? = none)
    (operation : Operation) (session : Session)
    (unprepared : ∀ fault,
      client.requestOf ⟨definition, client.endpoint⟩ function input = .error fault →
        post (.error fault) [])
    (sends : ∀ request,
      client.requestOf ⟨definition, client.endpoint⟩ function input = .ok request →
        ∀ result made, Sending client request result made →
          post (result >>= Body.answer function) made) :
    Ensures client (client.execute definition function input operation) session post := by
  rw [execute, isRegular]
  refine .compute_bind unprepared fun request isRequest => ?_
  refine .bind ((ensures_send definition operation request session).imp ?_)
  intro result made sending
  have holds := sends request isRequest result made sending
  cases result with
  | error fault => exact holds
  | ok response => exact fun _ _ => .compute (by rwa [List.append_nil])

/-- A function with an association verb ensures what its conversation does, once it is
known what to work on. -/
theorem ensures_execute_association {function : Function} {mode : AssociationMode}
    (isAssociation : function.method.mode? = some mode) (operation : Operation)
    (session : Session)
    (unprepared : ∀ fault,
      Site.associationTarget ⟨definition, client.endpoint⟩ function input = .error fault →
        post (.error fault) [])
    (associates : ∀ target,
      Site.associationTarget ⟨definition, client.endpoint⟩ function input = .ok target →
        Ensures client (client.associate ⟨definition, client.endpoint⟩ operation mode target)
          session fun result made => post (result.map fun _ => some .empty) made) :
    Ensures client (client.execute definition function input operation) session post := by
  rw [execute, isAssociation]
  refine .compute_bind unprepared fun target isTarget => ?_
  refine .bind ((associates target isTarget).imp ?_)
  intro result made holds
  cases result with
  | error fault => exact holds
  | ok => exact fun _ _ => .compute (by rwa [List.append_nil])

/-! ## The frame of a call -/

/-- Once the definition was had, it is had again, and nothing else happens. -/
theorem definition_kept (known : (client.definition.course session).1 = .ok definition) :
    client.definition.course (client.definition.course session).2 =
      (.ok definition, (client.definition.course session).2) := by
  cases kept : session.definition with
  | some found =>
      have had := definition_course_of_some client kept
      rw [had] at known ⊢
      rw [← known]
      exact had
  | none =>
      rw [definition_course_of_none client kept] at known ⊢
      have resolved : client.resolve session.history = .ok definition := known
      rw [resolved]
      exact definition_course_of_some client rfl

/-- The frame of a call adds no exchanges, so that what the execution of its function
ensures, it ensures too. -/
theorem ensures_run {function : Function}
    (unresolved : ∀ fault, (client.definition.course session).1 = .error fault →
      post (.error fault) [])
    (executes : ∀ definition operation reached,
      (client.definition.course session).1 = .ok definition →
        Ensures client (client.execute definition function input operation) reached post) :
    Ensures client (client.run function input transaction) session post := by
  cases known : (client.definition.course session).1 with
  | error fault =>
      obtain ⟨events, onlyResolves, added, -⟩ := definition_course client session
      have ended : (client.run function input transaction).course session =
          (.error fault, (client.definition.course session).2) :=
        Action.course_bind_error (Prod.ext known rfl) _
      refine ensures_of_quiet onlyResolves.isQuiet (by rw [ended, added]) ?_
      rw [ended]
      exact unresolved fault known
  | ok definition =>
      obtain ⟨before, afterwards, operation, reached, beforeQuiet, afterwardsQuiet, began, result,
        left⟩ := run_course function input transaction known
      obtain ⟨events, added, holds⟩ := executes definition operation reached known
      refine ⟨before ++ events ++ afterwards, ?_, ?_⟩
      · rw [left, added, began]
        simp only [List.append_assoc]
      · rw [exchanges_append, exchanges_append, exchanges_of_isQuiet _ _ beforeQuiet,
          exchanges_of_isQuiet _ _ afterwardsQuiet, List.nil_append, List.append_nil, result,
          ← began]
        exact holds

/-- A call ensures what the execution of its function ensures, if the calls that never
get to a function do too. -/
theorem Call.ensures (call : Call)
    (unresolved : ∀ fault, (client.definition.course session).1 = .error fault →
      post (.error fault) [])
    (unknown : ∀ context name, post (.error (.schema (.unknownFunction context name))) [])
    (executes : ∀ definition function operation reached,
      (client.definition.course session).1 = .ok definition →
      call.function? definition = some function →
        Ensures client (client.execute definition function input operation) reached post) :
    Ensures client (call.run client input transaction) session post := by
  cases call with
  | of function =>
      exact ensures_run unresolved fun definition operation reached known =>
        executes definition function operation reached known rfl
  | named context name =>
      obtain ⟨events, onlyResolves, added, -⟩ := definition_course client session
      refine .bind (ensures_of_quiet onlyResolves.isQuiet added ?_)
      cases known : (client.definition.course session).1 with
      | error fault => exact unresolved fault known
      | ok definition =>
          intro reached ended
          simp only [List.nil_append]
          cases isThere : definition.function? context name with
          | none => exact .throw (unknown context name)
          | some function =>
              -- The call itself asks for the definition again, which by now is kept.
              have keptOn : (client.definition.course reached).1 = .ok definition := by
                have kept := definition_kept known
                rw [ended] at kept
                exact congrArg Prod.fst kept
              refine ensures_run (fun fault failed => ?_) fun again operation later known' => ?_
              · rw [keptOn] at failed
                cases failed
              · obtain rfl : definition = again := Except.ok.inj (keptOn.symm.trans known')
                exact executes definition function operation later known isThere

end OData.Client
