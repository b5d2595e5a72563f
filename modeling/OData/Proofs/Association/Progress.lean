/-
# Plans that are interrupted

A plan is carried out request by request and never rolled back. What is bound in
between is neither what was bound nor what is wanted, so every later attempt starts
from a state that no plan was made for. The central fact is that planning again
from such a state gives exactly the requests that were left. One request preserves
this, and so does any number of them; the requests are read by their own text, as
`Effect` reads them.
-/

import OData.Proofs.Association.Effect
import OData.Proofs.Target.Template

namespace OData.Association

open Http (Request)
open Target (Site AssociationTarget mem_distinct nodup_distinct)

/-! ## Wanted keys, each once -/

theorem mem_unwanted {state : State} {desired : List String} {key : String} :
    key ∈ unwanted state desired ↔ key ∈ state.keys ∧ key ∉ desired := by
  simp [unwanted]

theorem mem_lacking {state : State} {desired : List String} {key : String} :
    key ∈ lacking state desired ↔ key ∈ desired ∧ key ∉ state.keys := by
  simp [lacking, mem_distinct, State.contains]

namespace State

/-- A state that was built by insertions has every key once. -/
theorem nodup_keys_ofList (entries : List (String × String)) : (ofList entries).keys.Nodup := by
  have inserted (state : State) (distinct : state.keys.Nodup) :
      (entries.foldl (fun state entry => state.insert entry.1 entry.2) state).keys.Nodup := by
    induction entries generalizing state with
    | nil => exact distinct
    | cons entry rest ih => exact ih _ (nodup_keys_insert distinct entry.1 entry.2)
  exact inserted empty List.nodup_nil

end State

/-! ## One request

A plan begins with an unbinding for as long as there are unwanted keys, and with a
binding afterwards. Either way the request takes itself off the plan and leaves the
other half of it alone. -/

theorem unwanted_without {state : State} {desired : List String} {key : String}
    {others : List String} (distinct : state.keys.Nodup)
    (first : unwanted state desired = key :: others) :
    unwanted (state.without key) desired = others := by
  have fresh : key ∉ others :=
    (List.nodup_cons.mp (first ▸ distinct.filter _ : (key :: others).Nodup)).1
  calc unwanted (state.without key) desired
      = (unwanted state desired).filter (· != key) := by
        rw [unwanted, State.keys_without, List.filter_comm]
        rfl
    _ = others := by
        rw [first, List.filter_cons_of_neg (by simp), List.filter_eq_self]
        intro other isMember
        exact bne_iff_ne.mpr fun same => fresh (same ▸ isMember)

theorem lacking_without {state : State} {desired : List String} {key : String}
    (notDesired : key ∉ desired) :
    lacking (state.without key) desired = lacking state desired := by
  apply List.filter_congr
  intro other isDistinct
  have different : other ≠ key := fun same => notDesired (same ▸ mem_distinct.mp isDistinct)
  simp [State.contains, different]

theorem unwanted_append {state : State} {desired : List String} {key : String}
    (isDesired : key ∈ desired) (url : String) :
    unwanted (state.append key url) desired = unwanted state desired := by
  rw [unwanted, State.keys_append, List.filter_append, List.filter_cons_of_neg (by simpa)]
  exact List.append_nil _

theorem lacking_append {state : State} {desired : List String} {key : String}
    {others : List String} (first : lacking state desired = key :: others) (url : String) :
    lacking (state.append key url) desired = others := by
  have fresh : key ∉ others :=
    (List.nodup_cons.mp (first ▸ (nodup_distinct desired).filter _ : (key :: others).Nodup)).1
  calc lacking (state.append key url) desired
      = (lacking state desired).filter (· != key) := by
        rw [lacking, lacking, List.filter_filter]
        apply List.filter_congr
        intro other _
        by_cases same : other = key <;> simp [State.contains, same]
    _ = others := by
        rw [first, List.filter_cons_of_neg (by simp), List.filter_eq_self]
        intro other isMember
        exact bne_iff_ne.mpr fun same => fresh (same ▸ isMember)

/-- What holds of every state on the way from what was bound to what is wanted:
keys occur once, a wanted key that was bound stays bound, and no other key than
these two kinds appears. -/
structure OnTheWay (start : State) (desired : List String) (state : State) : Prop where
  /-- No key is bound twice. -/
  distinct : state.keys.Nodup
  /-- A wanted key is never unbound. -/
  kept : ∀ key ∈ start.keys, key ∈ desired → key ∈ state.keys
  /-- A key that is bound was bound or is wanted. -/
  bounded : ∀ key ∈ state.keys, key ∈ start.keys ∨ key ∈ desired

theorem OnTheWay.refl {start : State} (distinct : start.keys.Nodup) (desired : List String) :
    OnTheWay start desired start :=
  ⟨distinct, fun _ isBound _ => isBound, fun _ isBound => .inl isBound⟩

theorem OnTheWay.without {start state : State} {desired : List String} {key : String}
    (way : OnTheWay start desired state) (notDesired : key ∉ desired) :
    OnTheWay start desired (state.without key) where
  distinct := by
    rw [State.keys_without]
    exact way.distinct.filter _
  kept := by
    intro other wasBound isDesired
    have different : other ≠ key := fun same => notDesired (same ▸ isDesired)
    rw [State.keys_without, List.mem_filter]
    exact ⟨way.kept other wasBound isDesired, bne_iff_ne.mpr different⟩
  bounded := by
    intro other isBound
    rw [State.keys_without, List.mem_filter] at isBound
    exact way.bounded other isBound.1

theorem OnTheWay.append {start state : State} {desired : List String} {key : String}
    (way : OnTheWay start desired state) (isDesired : key ∈ desired) (notBound : key ∉ state.keys)
    (url : String) : OnTheWay start desired (state.append key url) where
  distinct := by
    rw [State.keys_append, List.nodup_append]
    refine ⟨way.distinct, List.pairwise_singleton _ key, fun other isBound last isLast => ?_⟩
    obtain rfl := List.mem_singleton.mp isLast
    exact fun same => notBound (same ▸ isBound)
  kept := by
    intro other wasBound isWanted
    rw [State.keys_append]
    exact List.mem_append_left _ (way.kept other wasBound isWanted)
  bounded := by
    intro other isBound
    rw [State.keys_append, List.mem_append, List.mem_singleton] at isBound
    rcases isBound with isBound | rfl
    · exact way.bounded other isBound
    · exact .inr isDesired

/-- The first request of a plan leads to a state on the way whose plan is the rest. -/
theorem plan_afterRequest {site : Site} {target : AssociationTarget} {start state : State}
    {desired : List String} {request : Request} {rest : List Request}
    (way : OnTheWay start desired state)
    (planned : plan site target state desired = request :: rest) :
    OnTheWay start desired (state.afterRequest site target request) ∧
      plan site target (state.afterRequest site target request) desired = rest := by
  rw [plan] at planned
  -- Which half of the plan the request comes from: bindings come last.
  cases removed : unwanted state desired with
  | cons key others =>
      rw [removed, List.map_cons, List.cons_append, List.cons.injEq] at planned
      obtain ⟨rfl, rfl⟩ := planned
      have notDesired : key ∉ desired :=
        (mem_unwanted.mp (removed ▸ List.mem_cons_self)).2
      rw [State.afterRequest_unbindRequest]
      refine ⟨way.without notDesired, ?_⟩
      rw [plan, unwanted_without way.distinct removed, lacking_without notDesired]
  | nil =>
      rw [removed, List.map_nil, List.nil_append] at planned
      cases added : lacking state desired with
      | nil =>
          rw [added] at planned
          exact absurd planned (by simp)
      | cons key others =>
          rw [added, List.map_cons, List.cons.injEq] at planned
          obtain ⟨rfl, rfl⟩ := planned
          obtain ⟨isDesired, notBound⟩ :=
            mem_lacking.mp (added ▸ List.mem_cons_self : key ∈ lacking state desired)
          rw [State.afterRequest_bindRequest]
          refine ⟨way.append isDesired notBound _, ?_⟩
          rw [plan, unwanted_append isDesired, lacking_append added, removed]
          rfl

/-! ## Any number of requests -/

theorem plan_afterRequests_take (site : Site) (target : AssociationTarget) {start : State}
    {desired : List String} (n : Nat) {state : State} (way : OnTheWay start desired state) :
    OnTheWay start desired
        (state.afterRequests site target ((plan site target state desired).take n)) ∧
      plan site target
          (state.afterRequests site target ((plan site target state desired).take n)) desired =
        (plan site target state desired).drop n := by
  induction n generalizing state with
  | zero => exact ⟨way, rfl⟩
  | succ n ih =>
      cases planned : plan site target state desired with
      | nil => exact ⟨way, planned⟩
      | cons request rest =>
          obtain ⟨nextWay, nextPlan⟩ := plan_afterRequest way planned
          rw [List.take_succ_cons, List.drop_succ_cons, State.afterRequests_cons, ← nextPlan]
          exact ih nextWay

/-- Nothing is left to do exactly when the bound keys are the wanted ones. -/
theorem mem_keys_iff_of_plan_eq_nil {site : Site} {target : AssociationTarget} {state : State}
    {desired : List String} (settled : plan site target state desired = []) (key : String) :
    key ∈ state.keys ↔ key ∈ desired := by
  obtain ⟨removed, added⟩ := List.append_eq_nil_iff.mp settled
  rw [List.map_eq_nil_iff] at removed added
  refine ⟨fun isBound => ?_, fun isDesired => ?_⟩
  · by_contra notDesired
    exact List.not_mem_nil (removed ▸ mem_unwanted.mpr ⟨isBound, notDesired⟩)
  · by_contra notBound
    exact List.not_mem_nil (added ▸ mem_lacking.mpr ⟨isDesired, notBound⟩)

/-- A plan may be interrupted after any number of its requests. No wanted key that
was bound is lost and no key appears that was neither bound nor wanted. Planning
again from there gives the requests that were left, no more and no fewer, so that
carrying out the second plan ends where the first one would have ended. There the
bound keys are the wanted ones, and nothing is planned any more. -/
theorem interrupted_plan_resumes (site : Site) (target : AssociationTarget)
    (entries : List (String × String)) (desired : List String) (n : Nat) :
    let existing := State.ofList entries
    let requests := plan site target existing desired
    let reached := existing.afterRequests site target (requests.take n)
    let finished := existing.afterRequests site target requests
    (∀ key ∈ existing.keys, key ∈ desired → key ∈ reached.keys) ∧
      (∀ key ∈ reached.keys, key ∈ existing.keys ∨ key ∈ desired) ∧
      plan site target reached desired = requests.drop n ∧
      reached.afterRequests site target (plan site target reached desired) = finished ∧
      (∀ key, key ∈ finished.keys ↔ key ∈ desired) ∧
      plan site target finished desired = [] := by
  intro existing requests reached finished
  have start : OnTheWay existing desired existing :=
    .refl (State.nodup_keys_ofList entries) desired
  obtain ⟨way, left⟩ : OnTheWay existing desired reached ∧
      plan site target reached desired = requests.drop n :=
    plan_afterRequests_take site target n start
  have settled : plan site target finished desired = [] := by
    have all := (plan_afterRequests_take site target requests.length start).2
    rwa [List.take_length, List.drop_length] at all
  refine ⟨way.kept, way.bounded, left, ?_, mem_keys_iff_of_plan_eq_nil settled, settled⟩
  calc reached.afterRequests site target (plan site target reached desired)
      = existing.afterRequests site target (requests.take n ++ requests.drop n) := by
        rw [left]
        exact List.foldl_append.symm
    _ = finished := by rw [List.take_append_drop]

end OData.Association
