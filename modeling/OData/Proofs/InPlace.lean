/-
# Work in place

Work on a copy that may end in a fault. A fault does not take back what was done before it,
so a copy is left behind in either case: the one that all of the work has made, or the one
in which the work stopped. What every step does to the copy is done by the whole run, with
a fault or without one; that a certain step was taken at all is known only without one.
-/

import OData.Proofs.Outcome

namespace OData

/-- Work that changes a copy. What was changed before a fault stays changed. -/
abbrev InPlace (σ : Type) : Type → Type := EStateM Fault σ

namespace InPlace

variable {σ τ : Type}

/-- What the copy has become, if there was no fault. -/
def outcome : EStateM.Result Fault σ Unit → Except Fault σ
  | .ok _ copy => .ok copy
  | .error fault _ => .error fault

/-- There was no fault. -/
def Succeeds (result : EStateM.Result Fault σ Unit) : Prop := ∃ copy, outcome result = .ok copy

/-- The copy as it was left, with a fault or without one. -/
def left : EStateM.Result Fault σ Unit → σ
  | .ok _ copy => copy
  | .error _ copy => copy

/-- The copy is part of something larger. -/
def within (put : σ → τ) : EStateM.Result Fault σ Unit → EStateM.Result Fault τ Unit
  | .ok _ copy => .ok () (put copy)
  | .error fault copy => .error fault (put copy)

/-- Change a copy at once, or not at all. -/
def attempt (change : σ → Except Fault σ) : InPlace σ Unit := fun copy =>
  match change copy with
  | .ok changed => .ok () changed
  | .error fault => .error fault copy

/-- Work on the items of a list, up to the first fault. -/
def each (work : InPlace σ Unit) : InPlace (List σ) Unit
  | [] => .ok () []
  | item :: rest =>
      match work item with
      | .ok _ changed => within (changed :: ·) (each work rest)
      | .error fault changed => .error fault (changed :: rest)

@[simp] theorem left_ok (copy : σ) : left (.ok () copy) = copy := rfl

@[simp] theorem succeeds_ok (copy : σ) : Succeeds (.ok () copy) := ⟨copy, rfl⟩

@[simp] theorem outcome_within (put : σ → τ) (result : EStateM.Result Fault σ Unit) :
    outcome (within put result) = (outcome result).map put := by
  cases result <;> rfl

@[simp] theorem left_within (put : σ → τ) (result : EStateM.Result Fault σ Unit) :
    left (within put result) = put (left result) := by
  cases result <;> rfl

@[simp] theorem succeeds_within (put : σ → τ) (result : EStateM.Result Fault σ Unit) :
    Succeeds (within put result) ↔ Succeeds result := by
  cases result with
  | ok _ copy => exact ⟨fun _ => succeeds_ok copy, fun _ => succeeds_ok (put copy)⟩
  | error fault copy => exact ⟨nofun, nofun⟩

@[simp] theorem outcome_attempt (change : σ → Except Fault σ) (copy : σ) :
    outcome (attempt change copy) = change copy := by
  unfold attempt
  cases change copy <;> rfl

theorem eq_of_outcome_ok {result : EStateM.Result Fault σ Unit} {copy : σ}
    (isOk : outcome result = .ok copy) : result = .ok () copy := by
  cases result with
  | ok => rw [Except.ok.inj isOk]
  | error => cases isOk

theorem exists_of_outcome_error {result : EStateM.Result Fault σ Unit} {fault : Fault}
    (isFault : outcome result = .error fault) : ∃ copy, result = .error fault copy := by
  cases result with
  | ok => cases isFault
  | error _ copy =>
      exact ⟨copy, congrArg (EStateM.Result.error · copy) (Except.error.inj isFault)⟩

theorem left_of_outcome {result : EStateM.Result Fault σ Unit} {copy : σ}
    (isOk : outcome result = .ok copy) : left result = copy := by
  rw [eq_of_outcome_ok isOk, left_ok]

/-! ## One after another -/

theorem bind_apply (first next : InPlace σ Unit) (copy : σ) :
    (first >>= fun _ => next) copy =
      match first copy with
      | .ok _ changed => next changed
      | .error fault changed => .error fault changed := by
  change EStateM.bind first (fun _ => next) copy = _
  unfold EStateM.bind
  cases first copy <;> rfl

theorem outcome_bind (first next : InPlace σ Unit) (copy : σ) :
    outcome ((first >>= fun _ => next) copy) =
      outcome (first copy) >>= fun changed => outcome (next changed) := by
  rw [bind_apply]
  cases first copy <;> rfl

/-- The second work goes on where the first one ended. -/
theorem left_bind_of_ok {first : InPlace σ Unit} (next : InPlace σ Unit) {copy changed : σ}
    (isOk : outcome (first copy) = .ok changed) :
    left ((first >>= fun _ => next) copy) = left (next changed) := by
  rw [bind_apply, eq_of_outcome_ok isOk]

/-- After a fault there is no second work. -/
theorem left_bind_of_error {first : InPlace σ Unit} (next : InPlace σ Unit) {copy : σ}
    {fault : Fault} (isFault : outcome (first copy) = .error fault) :
    left ((first >>= fun _ => next) copy) = left (first copy) := by
  obtain ⟨stopped, isStopped⟩ := exists_of_outcome_error isFault
  rw [bind_apply, isStopped]

section

variable {α : Type} {step : α → InPlace σ Unit} (related : σ → σ → Prop)

/-- What every step does to the copy, with a fault or without one, the whole run does. -/
theorem left_forM (refl : ∀ copy, related copy copy)
    (trans : ∀ first second third, related first second → related second third →
      related first third)
    {items : List α} (steps : ∀ item ∈ items, ∀ copy, related copy (left (step item copy)))
    (copy : σ) : related copy (left (items.forM step copy)) := by
  induction items generalizing copy with
  | nil => exact refl copy
  | cons item rest ih =>
      obtain ⟨isStep, areSteps⟩ := List.forall_mem_cons.mp steps
      have begins := isStep copy
      rw [List.forM]
      cases isOutcome : outcome (step item copy) with
      | error fault =>
          rw [left_bind_of_error _ isOutcome]
          exact begins
      | ok changed =>
          rw [left_bind_of_ok _ isOutcome]
          rw [left_of_outcome isOutcome] at begins
          exact trans _ _ _ begins (ih areSteps changed)

/-- Either the run ends in a fault before it comes to an item, or the item has its turn
between the steps before it and some of the steps behind it. -/
theorem turn_of_forM (refl : ∀ copy, related copy copy)
    (trans : ∀ first second third, related first second → related second third →
      related first third)
    {front back : List α} (item : α)
    (others : ∀ other ∈ front ++ back, ∀ copy, related copy (left (step other copy)))
    (copy : σ) :
    ¬ Succeeds ((front ++ item :: back).forM step copy) ∧
        related copy (left ((front ++ item :: back).forM step copy)) ∨
      ∃ start, related copy start ∧
        related (left (step item start)) (left ((front ++ item :: back).forM step copy)) ∧
        (Succeeds ((front ++ item :: back).forM step copy) → Succeeds (step item start)) := by
  obtain ⟨before, behind⟩ := List.forall_mem_append.mp others
  have begins := left_forM related refl trans before copy
  have split : (front ++ item :: back).forM step =
      front.forM step >>= fun _ => step item >>= fun _ => back.forM step :=
    List.forM_append
  rw [split, Succeeds, outcome_bind]
  cases isStart : outcome (front.forM step copy) with
  | error fault =>
      rw [left_bind_of_error _ isStart]
      exact .inl ⟨nofun, begins⟩
  | ok start =>
      rw [left_of_outcome isStart] at begins
      rw [left_bind_of_ok _ isStart]
      refine .inr ⟨start, begins, ?_, ?_⟩
      · cases isStop : outcome (step item start) with
        | error fault =>
            rw [left_bind_of_error _ isStop]
            exact refl _
        | ok stop =>
            rw [left_bind_of_ok _ isStop, left_of_outcome isStop]
            exact left_forM related refl trans behind stop
      · rintro ⟨last, isLast⟩
        obtain ⟨next, isNext, isLast⟩ := exists_of_bind_ok isLast
        cases isNext
        rw [outcome_bind] at isLast
        obtain ⟨stop, isStop, -⟩ := exists_of_bind_ok isLast
        exact ⟨stop, isStop⟩

end

/-! ## Lists -/

theorem outcome_each (work : InPlace σ Unit) (items : List σ) :
    outcome (each work items) = items.mapM fun item => outcome (work item) := by
  induction items with
  | nil => rfl
  | cons item rest ih =>
      rw [List.mapM_cons, each]
      cases work item with
      | ok _ changed =>
          simp only [outcome_within, ih]
          exact (bind_pure_eq_map _ _).symm
      | error fault changed => rfl

/-- The items behind one without a fault are worked on, and those behind a fault are not. -/
theorem each_cons (work : InPlace σ Unit) (item : σ) (rest : List σ) :
    Succeeds (work item) ∧
        left (each work (item :: rest)) = left (work item) :: left (each work rest) ∧
        (Succeeds (each work (item :: rest)) ↔ Succeeds (each work rest)) ∨
      ¬ Succeeds (each work (item :: rest)) ∧
        left (each work (item :: rest)) = left (work item) :: rest := by
  rw [each]
  cases work item with
  | ok _ changed => exact .inl ⟨succeeds_ok changed, left_within _ _, succeeds_within _ _⟩
  | error fault changed => exact .inr ⟨nofun, rfl⟩

end InPlace

end OData
