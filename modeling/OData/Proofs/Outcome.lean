/-
# Outcomes

What a call computes ends well or in a fault. When it ended well, it is taken apart
step by step. When it did not, the fault tells in which phase the call was: before
anything was sent, on the way, or at the answer. A computation whose faults all come
from one phase keeps that property through every step that is put together from
others, so that it has to be shown for single checks only.

Nothing is said here about what a call has sent when a fault comes up; the phases
alone do not settle that.
-/

import OData.Fault
import Mathlib.Data.List.Forall2

namespace OData

variable {α β ε : Type}

theorem exists_of_bind_ok {first : Except ε α} {next : α → Except ε β} {result : β}
    (isOk : (first >>= next) = .ok result) :
    ∃ value, first = .ok value ∧ next value = .ok result := by
  cases first with
  | error fault => cases isOk
  | ok value => exact ⟨value, rfl, isOk⟩

theorem ok_of_toOption {result : Except ε α} {value : α} (isSome : result.toOption = some value) :
    result = .ok value := by
  cases result with
  | error fault => cases isSome
  | ok found => rw [Option.some.inj isSome]

/-- What was computed for every item, one by one. -/
theorem forall₂_of_mapM_ok {compute : α → Except ε β} {items : List α} {values : List β}
    (isOk : items.mapM compute = .ok values) :
    List.Forall₂ (fun item value => compute item = .ok value) items values := by
  induction items generalizing values with
  | nil =>
      cases isOk
      exact .nil
  | cons first rest ih =>
      rw [List.mapM_cons] at isOk
      obtain ⟨value, isValue, isOk⟩ := exists_of_bind_ok isOk
      obtain ⟨others, areOthers, isOk⟩ := exists_of_bind_ok isOk
      cases isOk
      exact .cons isValue (ih areOthers)

/-- Related lists are related at every place. -/
theorem exists_getElem?_of_forall₂ {related : α → β → Prop} {items : List α} {values : List β}
    (pairs : List.Forall₂ related items values) {place : Nat} {item : α}
    (isItem : items[place]? = some item) :
    ∃ value, values[place]? = some value ∧ related item value := by
  induction pairs generalizing place with
  | nil => cases isItem
  | cons isRelated _ ih =>
      cases place with
      | zero =>
          cases isItem
          exact ⟨_, rfl, isRelated⟩
      | succ place => exact ih isItem

/-- Related lists one after another. -/
theorem forall₂_comp {γ : Type} {first : α → β → Prop} {second : β → γ → Prop} {items : List α}
    {values : List β} {results : List γ} (pairs : List.Forall₂ first items values)
    (others : List.Forall₂ second values results) :
    List.Forall₂ (fun item result => ∃ value, first item value ∧ second value result)
      items results := by
  induction pairs generalizing results with
  | nil =>
      cases others
      exact .nil
  | cons isFirst _ ih =>
      cases others with
      | cons isSecond others => exact .cons ⟨_, isFirst, isSecond⟩ (ih others)

/-- What was computed for every item includes what is computed for one of them. -/
theorem exists_mem_of_mapM_ok {compute : α → Except Fault β} {items : List α} {values : List β}
    (isOk : items.mapM compute = .ok values) {item : α} (isMember : item ∈ items) :
    ∃ value ∈ values, compute item = .ok value := by
  induction items generalizing values with
  | nil => exact absurd isMember List.not_mem_nil
  | cons first rest ih =>
      rw [List.mapM_cons] at isOk
      obtain ⟨value, isValue, isOk⟩ := exists_of_bind_ok isOk
      obtain ⟨others, areOthers, isOk⟩ := exists_of_bind_ok isOk
      cases isOk
      rcases List.mem_cons.mp isMember with rfl | isMember
      · exact ⟨value, List.mem_cons_self, isValue⟩
      · obtain ⟨found, isFound, isResult⟩ := ih areOthers isMember
        exact ⟨found, List.mem_cons_of_mem _ isFound, isResult⟩

theorem exists_of_map_ok {result : Except ε α} {change : α → β} {changed : β}
    (isOk : result.map change = .ok changed) :
    ∃ value, result = .ok value ∧ change value = changed := by
  cases result with
  | error fault => cases isOk
  | ok value => exact ⟨value, rfl, Except.ok.inj isOk⟩

theorem length_of_mapM_ok {compute : α → Except ε β} {items : List α} {values : List β}
    (isOk : items.mapM compute = .ok values) : values.length = items.length :=
  (forall₂_of_mapM_ok isOk).length_eq.symm

/-- A result that is only changed at the end. -/
theorem bind_pure_eq_map (result : Except ε α) (change : α → β) :
    (result >>= fun value => pure (change value)) = result.map change := by
  cases result <;> rfl

theorem mapM_map_result {γ : Type} (compute : α → Except ε β) (change : β → γ) (items : List α) :
    (items.mapM fun item => (compute item).map change) =
      (items.mapM compute).map (List.map change) := by
  induction items with
  | nil => rfl
  | cons item rest ih =>
      rw [List.mapM_cons, List.mapM_cons, ih]
      cases compute item with
      | error fault => rfl
      | ok value => cases rest.mapM compute <;> rfl

theorem exists_mapM_ok {compute : α → Except ε β} {items : List α}
    (each : ∀ item ∈ items, ∃ value, compute item = .ok value) :
    ∃ values, items.mapM compute = .ok values := by
  induction items with
  | nil => exact ⟨[], rfl⟩
  | cons item rest ih =>
      obtain ⟨⟨value, isValue⟩, others⟩ := List.forall_mem_cons.mp each
      obtain ⟨values, areValues⟩ := ih others
      refine ⟨value :: values, ?_⟩
      rw [List.mapM_cons, isValue, areValues]
      rfl

/-- What is computed for some of the items are those of all values that they are told by. -/
theorem mapM_filter_ok {compute : α → Except ε β} {keeps : α → Bool} {keepsValue : β → Bool}
    {items : List α} {values : List β}
    (agree : ∀ item ∈ items, ∀ value, compute item = .ok value → keepsValue value = keeps item)
    (isOk : items.mapM compute = .ok values) :
    (items.filter keeps).mapM compute = .ok (values.filter keepsValue) := by
  induction items generalizing values with
  | nil =>
      cases isOk
      rfl
  | cons item rest ih =>
      rw [List.mapM_cons] at isOk
      obtain ⟨value, isValue, isOk⟩ := exists_of_bind_ok isOk
      obtain ⟨others, areOthers, isOk⟩ := exists_of_bind_ok isOk
      cases isOk
      obtain ⟨first, behind⟩ := List.forall_mem_cons.mp agree
      rw [List.filter_cons, List.filter_cons, first value isValue]
      split
      · rw [List.mapM_cons, isValue, ih behind areOthers]
        rfl
      · exact ih behind areOthers

/-- What is computed for items of items can be computed for all of them at once. -/
theorem mapM_flatMap {γ : Type} (expand : α → List β) (compute : β → Except ε γ)
    (items : List α) :
    (items.flatMap expand).mapM compute =
      (items.mapM fun item => (expand item).mapM compute).map List.flatten := by
  induction items with
  | nil => rfl
  | cons item rest ih =>
      rw [List.flatMap_cons, List.mapM_append, List.mapM_cons, ih]
      cases (expand item).mapM compute with
      | error fault => rfl
      | ok values => cases rest.mapM fun item => (expand item).mapM compute <;> rfl

/-- What every step keeps is kept by all of them, one after another. -/
theorem kept_of_foldlM_ok {kept : β → Prop} {step : β → α → Except ε β} {items : List α}
    (keeps : ∀ before, ∀ item ∈ items, ∀ after,
      step before item = .ok after → kept before → kept after)
    {first last : β} (isOk : items.foldlM step first = .ok last) (isKept : kept first) :
    kept last := by
  induction items generalizing first with
  | nil =>
      cases isOk
      exact isKept
  | cons item rest ih =>
      rw [List.foldlM_cons] at isOk
      obtain ⟨next, isNext, isOk⟩ := exists_of_bind_ok isOk
      have keepsRest : ∀ before, ∀ item ∈ rest, ∀ after,
          step before item = .ok after → kept before → kept after :=
        fun before other isMember => keeps before other (List.mem_cons_of_mem item isMember)
      exact ih keepsRest isOk (keeps first item List.mem_cons_self next isNext isKept)

theorem foldlM_cons_ok {step : β → α → Except ε β} {item : α} {rest : List α} {first last : β}
    (next : β) (isNext : step first item = .ok next) (isLast : rest.foldlM step next = .ok last) :
    (item :: rest).foldlM step first = .ok last := by
  rw [List.foldlM_cons, isNext]
  exact isLast

theorem foldlM_of_steady {step : β → α → Except ε β} {items : List α} {state : β}
    (steady : ∀ item ∈ items, step state item = .ok state) :
    items.foldlM step state = .ok state := by
  induction items with
  | nil => rfl
  | cons item rest ih =>
      obtain ⟨first, others⟩ := List.forall_mem_cons.mp steady
      exact foldlM_cons_ok state first (ih others)

/-- The phases of a call. -/
inductive Phase where
  /-- The definition, the function and the input are checked. -/
  | preparation
  /-- A request is authenticated, changed by the caller's hook, and carried. -/
  | passage
  /-- The server's answer is judged and read. -/
  | answer
  deriving DecidableEq

/-- The phase in which a fault comes up. -/
def Fault.phase : Fault → Phase
  | .schema _ | .filter _ | .metadata _ => .preparation
  | .auth _ | .transport _ => .passage
  | .protocol _ _ | .decode _ => .answer

/-- A computation has no faults but those of one phase. -/
def FailsIn (phase : Phase) (result : Except Fault α) : Prop :=
  ∀ fault, result = .error fault → fault.phase = phase

namespace FailsIn

variable {phase : Phase}

theorem ok (value : α) : FailsIn phase (.ok value) := fun _ isFault => by cases isFault

theorem error {fault : Fault} (isPhase : fault.phase = phase) :
    FailsIn phase (.error fault : Except Fault α) := by
  intro other isFault
  cases isFault
  exact isPhase

theorem bind {first : Except Fault α} {next : α → Except Fault β} (begins : FailsIn phase first)
    (continues : ∀ value, FailsIn phase (next value)) : FailsIn phase (first >>= next) := by
  cases first with
  | error fault => exact error (begins fault rfl)
  | ok value => exact continues value

theorem map {result : Except Fault α} (change : α → β) (fails : FailsIn phase result) :
    FailsIn phase (result.map change) := by
  cases result with
  | error fault => exact error (fails fault rfl)
  | ok value => exact ok _

theorem mapM {compute : α → Except Fault β} (items : List α)
    (fails : ∀ item ∈ items, FailsIn phase (compute item)) :
    FailsIn phase (items.mapM compute) := by
  induction items with
  | nil => exact ok _
  | cons item rest ih =>
      rw [List.mapM_cons]
      refine (fails item List.mem_cons_self).bind fun _ => ?_
      have others := ih fun other isMember => fails other (List.mem_cons_of_mem item isMember)
      exact others.bind fun _ => ok _

end FailsIn

end OData
