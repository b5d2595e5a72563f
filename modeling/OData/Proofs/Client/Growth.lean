/-
# Histories grow

Whatever a client does, what had happened before is not forgotten: every action adds to the
history. `Grows` says so, as a class, because it follows from how an action is put together
and from nothing else. It is needed where a point in the middle of a run has to be
known as a part of the whole.
-/

import OData.Proofs.Client.Call

namespace OData.Client

open Http (Request)
open Target (Site AssociationTarget)

/-- Nothing that had happened is forgotten by an action. -/
class Grows {α : Type} (action : Action α) : Prop where
  isPrefix (session : Session) : session.history <+: (action.course session).2.history

namespace Grows

variable {α β : Type}

instance compute (result : Except Fault α) : Grows (Action.compute result) :=
  ⟨fun _ => List.prefix_rfl⟩

instance pure (value : α) : Grows (pure value : Action α) := ⟨fun _ => List.prefix_rfl⟩

instance throw (fault : Fault) : Grows (throw fault : Action α) := ⟨fun _ => List.prefix_rfl⟩

instance ask (happening : Happening) (answer : History → Except Fault α) :
    Grows (Action.ask happening answer) :=
  ⟨fun _ => List.prefix_append _ _⟩

instance ite (condition : Prop) [Decidable condition] (action other : Action α) [Grows action]
    [Grows other] : Grows (if condition then action else other) := by
  split <;> infer_instance

/-- What happened in an action is not forgotten by what follows it. -/
theorem isPrefix_bind (action : Action α) (next : α → Action β) [∀ value, Grows (next value)]
    (session : Session) :
    (action.course session).2.history <+: ((action >>= next).course session).2.history := by
  cases ended : action.course session with | mk result reached =>
  cases result with
  | error fault => simp only [Action.course_bind_error ended, List.prefix_rfl]
  | ok value =>
      rw [Action.course_bind_ok ended]
      exact isPrefix reached

instance bind (action : Action α) (next : α → Action β) [Grows action]
    [∀ value, Grows (next value)] : Grows (action >>= next) :=
  ⟨fun session => (isPrefix session).trans (isPrefix_bind action next session)⟩

instance outcome (action : Action α) [grows : Grows action] : Grows action.outcome :=
  ⟨grows.isPrefix⟩

instance note (happening : Happening) : Grows (Action.note happening) :=
  ⟨fun _ => List.prefix_append _ _⟩

instance log (operation : Operation) (wanted : Bool) (event : LogEvent) :
    Grows (operation.log wanted event) := by
  unfold Operation.log
  infer_instance

section

variable (client : Client)

instance definition : Grows client.definition where
  isPrefix session := by
    obtain ⟨events, -, added, -⟩ := definition_course client session
    rw [added]
    exact List.prefix_append _ _

instance authenticate (request : Request) : Grows (client.authenticate request) := by
  unfold Client.authenticate
  split
  · infer_instance
  · split <;> infer_instance

instance amend (request : Request) : Grows (client.amend request) := by
  unfold Client.amend
  split <;> infer_instance

instance transmit (definition : Definition) (operation : Operation) (request : Request) :
    Grows (client.transmit definition operation request) := by
  unfold Client.transmit
  infer_instance

instance send (definition : Definition) (operation : Operation) (request : Request) :
    Grows (client.send definition operation request) := by
  unfold Client.send
  infer_instance

instance sendAll (definition : Definition) (operation : Operation) (requests : List Request) :
    Grows (client.sendAll definition operation requests) := by
  induction requests <;>
    · unfold Client.sendAll
      infer_instance

instance boundBefore (site : Site) (operation : Operation) (mode : AssociationMode)
    (target : AssociationTarget) : Grows (client.boundBefore site operation mode target) := by
  cases mode <;>
    · unfold Client.boundBefore
      infer_instance

instance associate (site : Site) (operation : Operation) (mode : AssociationMode)
    (target : AssociationTarget) : Grows (client.associate site operation mode target) := by
  unfold Client.associate
  infer_instance

instance execute (definition : Definition) (function : Function) (input : Option Record)
    (operation : Operation) : Grows (client.execute definition function input operation) := by
  unfold Client.execute
  dsimp only
  split <;> infer_instance

instance begin (function : Function) (transaction : Option String) :
    Grows (client.begin function transaction) where
  isPrefix session := by
    rw [begin_course]
    exact List.prefix_append _ _

instance finish (operation : Operation) (result : Except Fault α) :
    Grows (client.finish operation result) := by
  cases result <;>
    · unfold Client.finish
      infer_instance

instance run (function : Function) (input : Option Record) (transaction : Option String) :
    Grows (client.run function input transaction) := by
  unfold Client.run
  infer_instance

theorem runFound (definition : Definition) (context name : String) (input : Option Record)
    (transaction : Option String) :
    Grows (match definition.function? context name with
      | none => MonadExcept.throw (.schema (.unknownFunction context name))
      | some function => client.run function input transaction : Action (Option Record)) := by
  split <;> infer_instance

instance call (call : Call) (input : Option Record) (transaction : Option String) :
    Grows (call.run client input transaction) := by
  cases call with
  | of function => exact run client function input transaction
  | named context name =>
      have continues (definition : Definition) :=
        runFound client definition context name input transaction
      exact bind client.definition _

end

end Grows

end OData.Client
