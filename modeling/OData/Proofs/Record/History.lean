/-
# Records and their histories

A record is put together by setting, assigning and removing fields, one after another. What
it holds in the end is told by the history alone: a field has the value that it was given
last, if it was not removed since, and the fields stand in the order in which they were
entered, each at the first time that it was set since it was removed last. An assignment
replaces the value of a field that is there and otherwise fails, so that it gives values
and enters nothing.

What happened in a history, and was not undone since, is said without looking at a record.
One step keeps a record in agreement with its history, and so does a run from the record
without fields.

Below its fields a record is read by paths: a path leads through nested records, one record
deeper with every name, and never through a null.
-/

import OData.Proofs.Record
import OData.Proofs.Text.Search
import Mathlib.Data.List.Nodup
import Mathlib.Data.List.Induction

namespace OData

/-- A change to one field of a record. -/
inductive RecordStep where
  /-- Set the field. -/
  | set (name : String) (value : Value)
  /-- Replace the value of the field, if the record has the field. -/
  | assign (name : String) (value : Value)
  /-- Remove the field. -/
  | remove (name : String)

namespace RecordStep

/-- The name of the field that is changed. -/
def name : RecordStep → String
  | .set name _ | .assign name _ | .remove name => name

/-! ## Events of a history -/

/-- What may be the case of a step in view of the steps before it. -/
abbrev Event := List RecordStep → RecordStep → Prop

/-- The event happens at a place of the history. -/
def HappensAt (event : Event) (steps : List RecordStep) (place : Nat) : Prop :=
  ∃ step, steps[place]? = some step ∧ event (steps.take place) step

/-- The event happens at the place, and is not undone behind it. -/
def StandsFrom (event undoing : Event) (steps : List RecordStep) (place : Nat) : Prop :=
  HappensAt event steps place ∧ ∀ later, place < later → ¬HappensAt undoing steps later

/-- The event has happened, and was not undone since. -/
def Stands (event undoing : Event) (steps : List RecordStep) : Prop :=
  ∃ place, StandsFrom event undoing steps place

section

variable {event undoing : Event} {steps : List RecordStep} {step : RecordStep} {place : Nat}

theorem HappensAt.lt_length (happens : HappensAt event steps place) : place < steps.length := by
  obtain ⟨_, isStep, -⟩ := happens
  exact (List.getElem?_eq_some_iff.mp isStep).1

theorem happensAt_concat :
    HappensAt event (steps ++ [step]) place ↔
      HappensAt event steps place ∨ place = steps.length ∧ event steps step := by
  rcases Nat.lt_trichotomy place steps.length with inside | rfl | behind
  · rw [HappensAt, HappensAt, List.getElem?_append_left inside,
      List.take_append_of_le_length (Nat.le_of_lt inside),
      or_iff_left fun isLast => Nat.ne_of_lt inside isLast.1]
  · rw [HappensAt, List.getElem?_concat_length, List.take_left,
      or_iff_right fun happens => Nat.lt_irrefl _ (HappensAt.lt_length happens)]
    simp
  · refine iff_of_false (fun happens => ?_) (not_or.mpr ⟨fun happens => ?_, fun isLast => ?_⟩)
    · have inside := happens.lt_length
      rw [List.length_append, List.length_singleton] at inside
      omega
    · exact Nat.lt_asymm behind happens.lt_length
    · exact Nat.ne_of_gt behind isLast.1

/-- With one step more, what stands has happened just now, or stood and is not undone. -/
theorem standsFrom_concat :
    StandsFrom event undoing (steps ++ [step]) place ↔
      place = steps.length ∧ event steps step ∨
        StandsFrom event undoing steps place ∧ ¬undoing steps step := by
  constructor
  · rintro ⟨happens, stays⟩
    rcases happensAt_concat.mp happens with earlier | now
    · refine .inr ⟨⟨earlier, fun later behind undone => ?_⟩, fun undone => ?_⟩
      · exact stays later behind (happensAt_concat.mpr (.inl undone))
      · exact stays _ earlier.lt_length (happensAt_concat.mpr (.inr ⟨rfl, undone⟩))
    · exact .inl now
  · rintro (⟨rfl, now⟩ | ⟨⟨earlier, stays⟩, isKept⟩)
    · refine ⟨happensAt_concat.mpr (.inr ⟨rfl, now⟩), fun later behind undone => ?_⟩
      have inside := undone.lt_length
      rw [List.length_append, List.length_singleton] at inside
      omega
    · refine ⟨happensAt_concat.mpr (.inl earlier), fun later behind undone => ?_⟩
      rcases happensAt_concat.mp undone with undone | ⟨-, undone⟩
      · exact stays later behind undone
      · exact isKept undone

theorem stands_concat :
    Stands event undoing (steps ++ [step]) ↔
      event steps step ∨ Stands event undoing steps ∧ ¬undoing steps step := by
  simp only [Stands, standsFrom_concat, exists_or, exists_and_right, exists_eq, true_and]

theorem not_stands_nil : ¬Stands event undoing [] := by
  rintro ⟨place, happens, -⟩
  exact Nat.not_lt_zero place happens.lt_length

end

/-! ## Events of a field -/

/-- The field is set. -/
def Sets (name : String) : Event := fun _ step => ∃ value, step = .set name value

/-- The field is removed. -/
def Removes (name : String) : Event := fun _ step => step = .remove name

/-- The field was set, and was not removed since. -/
def IsSet (steps : List RecordStep) (name : String) : Prop :=
  Stands (Sets name) (Removes name) steps

/-- The field is given the value: it is set, or it is there and is assigned to. -/
def Writes (name : String) (value : Value) : Event := fun before step =>
  step = .set name value ∨ step = .assign name value ∧ IsSet before name

/-- The value of the field is given up: the field is removed, or given a value again. -/
def Overwrites (name : String) : Event := fun before step =>
  Removes name before step ∨ ∃ value, Writes name value before step

/-- The value is the one that the field was given last, and the field was not removed since. -/
def LastWritten (steps : List RecordStep) (name : String) (value : Value) : Prop :=
  Stands (Writes name value) (Overwrites name) steps

/-- The field is set while it is not there. -/
def Enters (name : String) : Event := fun before step =>
  Sets name before step ∧ ¬IsSet before name

/-- At the place the field was set for the first time since it was removed last. -/
def EntersAt (steps : List RecordStep) (name : String) (place : Nat) : Prop :=
  StandsFrom (Enters name) (Removes name) steps place

/-- The one field was entered before the other. -/
def EntersBefore (steps : List RecordStep) (first second : String) : Prop :=
  ∃ place later, EntersAt steps first place ∧ EntersAt steps second later ∧ place < later

section

variable {steps : List RecordStep} {step : RecordStep} {field : String} {value : Value}

theorem isSet_concat :
    IsSet (steps ++ [step]) field ↔
      (∃ value, step = .set field value) ∨ IsSet steps field ∧ step ≠ .remove field :=
  stands_concat

theorem Writes.name_eq (writes : Writes field value steps step) : step.name = field := by
  rcases writes with rfl | ⟨rfl, -⟩ <;> rfl

theorem Overwrites.name_eq (overwrites : Overwrites field steps step) : step.name = field := by
  rcases overwrites with rfl | ⟨value, writes⟩
  · rfl
  · exact writes.name_eq

/-- A field that is there was entered somewhere. -/
theorem IsSet.exists_entersAt (isSet : IsSet steps field) :
    ∃ place, EntersAt steps field place := by
  induction steps using List.reverseRecOn with
  | nil => exact (not_stands_nil isSet).elim
  | append_singleton steps step ih =>
      by_cases wasSet : IsSet steps field
      -- Setting a field that is there enters nothing, so that the place is the one from before.
      · obtain ⟨place, enters⟩ := ih wasSet
        refine ⟨place, standsFrom_concat.mpr (.inr ⟨enters, ?_⟩)⟩
        rcases isSet_concat.mp isSet with ⟨value, rfl⟩ | ⟨-, isKept⟩
        · exact nofun
        · exact isKept
      · have sets := (isSet_concat.mp isSet).resolve_right fun was => wasSet was.1
        exact ⟨steps.length, standsFrom_concat.mpr (.inl ⟨rfl, sets, wasSet⟩)⟩

theorem EntersBefore.extend {first second : String} (enters : EntersBefore steps first second)
    (keepsFirst : step ≠ .remove first) (keepsSecond : step ≠ .remove second) :
    EntersBefore (steps ++ [step]) first second := by
  obtain ⟨place, later, isFirst, isSecond, inOrder⟩ := enters
  exact ⟨place, later, standsFrom_concat.mpr (.inr ⟨isFirst, keepsFirst⟩),
    standsFrom_concat.mpr (.inr ⟨isSecond, keepsSecond⟩), inOrder⟩

/-- A field that is entered now was entered behind all that are there. -/
theorem IsSet.entersBefore {other : String} (isSet : IsSet steps other)
    (enters : Enters field steps step) (isKept : step ≠ .remove other) :
    EntersBefore (steps ++ [step]) other field := by
  obtain ⟨place, isEntered⟩ := isSet.exists_entersAt
  exact ⟨place, steps.length, standsFrom_concat.mpr (.inr ⟨isEntered, isKept⟩),
    standsFrom_concat.mpr (.inl ⟨rfl, enters⟩), isEntered.1.lt_length⟩

end

end RecordStep

namespace Record

open RecordStep

/-! ## Records that are changed -/

/-- The record after one change. -/
def change (record : Record) : RecordStep → Record
  | .set name value => record.set name value
  | .assign name value => (record.assign? name value).getD record
  | .remove name => (record.remove name).2

/-- The record that a sequence of changes makes of the one without fields. -/
def ofSteps (steps : List RecordStep) : Record := steps.foldl change empty

theorem ofSteps_concat (steps : List RecordStep) (step : RecordStep) :
    ofSteps (steps ++ [step]) = (ofSteps steps).change step := List.foldl_concat ..

/-- An assignment sets the field of a name that is there, and else changes nothing. -/
theorem change_assign (record : Record) (name : String) (value : Value) :
    record.change (.assign name value) =
      if name ∈ record.names then record.set name value else record := by
  simp only [change, assign?, contains_iff_mem_names]
  split <;> rfl

/-- An assignment leaves all names in their places. -/
theorem names_change_assign (record : Record) (name : String) (value : Value) :
    (record.change (.assign name value)).names = record.names := by
  rw [change_assign]
  split
  · rename_i isThere
    rw [names_set, if_pos isThere]
  · rfl

/-- A change of one field leaves the value of every other field alone. -/
theorem get?_change_of_ne (record : Record) {step : RecordStep} {other : String}
    (different : other ≠ step.name) : (record.change step).get? other = record.get? other := by
  cases step with
  | set name value => exact get?_set_of_ne record different value
  | assign name value =>
      rw [change_assign]
      split
      · exact get?_set_of_ne record different value
      · rfl
  | remove name => exact get?_remove_of_ne record different

/-- The record holds what its history says: its names are those of the fields that are there,
each once and in the order in which the fields were entered, and every field has the value
that it was given last. -/
structure Follows (steps : List RecordStep) (record : Record) : Prop where
  /-- No name occurs twice. -/
  distinct : record.names.Nodup
  /-- The names are those of the fields that were set and not removed since. -/
  members : ∀ name, name ∈ record.names ↔ IsSet steps name
  /-- The names stand in the order in which the fields were entered. -/
  ordered : record.names.Pairwise (EntersBefore steps)
  /-- A field has the value that it was given last, nulls included, and no other. -/
  values : ∀ name value, record.get? name = some value ↔ LastWritten steps name value

namespace Follows

variable {steps : List RecordStep} {record : Record}

theorem empty : Follows [] Record.empty where
  distinct := List.nodup_nil
  members _ := iff_of_false List.not_mem_nil not_stands_nil
  ordered := List.Pairwise.nil
  values _ _ := iff_of_false nofun not_stands_nil

theorem distinct_change (follows : Follows steps record) (step : RecordStep) :
    (record.change step).names.Nodup := by
  cases step with
  | set name value =>
      rw [change, names_set]
      split
      · exact follows.distinct
      · rename_i isNew
        rw [← List.concat_eq_append]
        exact follows.distinct.concat isNew
  | assign name value =>
      rw [names_change_assign]
      exact follows.distinct
  | remove name =>
      rw [change, names_remove]
      exact follows.distinct.erase name

theorem members_change (follows : Follows steps record) (step : RecordStep) (name : String) :
    name ∈ (record.change step).names ↔ IsSet (steps ++ [step]) name := by
  rw [isSet_concat, ← follows.members]
  cases step with
  | set other value =>
      rw [change, names_set]
      split
      · rename_i isThere
        constructor
        · exact fun isMember => .inr ⟨isMember, nofun⟩
        · rintro (⟨_, ⟨⟩⟩ | ⟨isMember, -⟩)
          · exact isThere
          · exact isMember
      · simp [or_comm, eq_comm]
  | assign other value => simp [names_change_assign]
  | remove other =>
      rw [change, names_remove, follows.distinct.mem_erase_iff]
      simp [and_comm, eq_comm]

theorem ordered_change (follows : Follows steps record) (step : RecordStep) :
    (record.change step).names.Pairwise (EntersBefore (steps ++ [step])) := by
  cases step with
  | set name value =>
      have before : record.names.Pairwise (EntersBefore (steps ++ [.set name value])) :=
        follows.ordered.imp fun enters => enters.extend nofun nofun
      rw [change, names_set]
      split
      · exact before
      · rename_i isNew
        have enters : Enters name steps (.set name value) :=
          ⟨⟨value, rfl⟩, fun isSet => isNew ((follows.members name).mpr isSet)⟩
        refine List.pairwise_append.mpr ⟨before, List.pairwise_singleton _ name, ?_⟩
        intro other isMember last isLast
        obtain rfl := List.mem_singleton.mp isLast
        exact ((follows.members other).mp isMember).entersBefore enters nofun
  | assign name value =>
      rw [names_change_assign]
      exact follows.ordered.imp fun enters => enters.extend nofun nofun
  | remove name =>
      rw [change, names_remove]
      -- The names are distinct, so that the field that leaves is none of those that remain.
      have keeps {other : String} (isMember : other ∈ record.names.erase name) :
          RecordStep.remove name ≠ .remove other := by
        rintro ⟨⟩
        exact (follows.distinct.mem_erase_iff.mp isMember).1 rfl
      have others : (record.names.erase name).Pairwise (EntersBefore steps) :=
        follows.ordered.sublist List.erase_sublist
      exact others.imp_of_mem fun isFirst isSecond enters =>
        enters.extend (keeps isFirst) (keeps isSecond)

theorem values_change (follows : Follows steps record) (step : RecordStep) (name : String)
    (value : Value) :
    (record.change step).get? name = some value ↔ LastWritten (steps ++ [step]) name value := by
  rw [LastWritten, stands_concat, ← LastWritten, ← follows.values]
  by_cases isField : step.name = name
  · subst isField
    cases step with
    | set name written =>
        dsimp only [RecordStep.name]
        rw [change, get?_set_self]
        simp [Writes, Overwrites, Removes]
    | assign name written =>
        dsimp only [RecordStep.name]
        rw [change_assign]
        by_cases isThere : name ∈ record.names
        · have isSet := (follows.members name).mp isThere
          rw [if_pos isThere, get?_set_self]
          simp [Writes, Overwrites, Removes, isSet]
        · have notSet : ¬IsSet steps name := fun isSet =>
            isThere ((follows.members name).mpr isSet)
          rw [if_neg isThere]
          simp [Writes, Overwrites, Removes, notSet]
    | remove name =>
        dsimp only [RecordStep.name]
        have absent : (record.change (.remove name)).get? name = none := by
          rw [get?_eq_none_iff_not_mem, change, names_remove, follows.distinct.mem_erase_iff]
          exact fun isMember => isMember.1 rfl
        rw [absent]
        simp [Writes, Overwrites, Removes]
  · have notWritten : ¬Writes name value steps step := fun writes => isField writes.name_eq
    have notOverwritten : ¬Overwrites name steps step := fun writes => isField writes.name_eq
    rw [get?_change_of_ne record (Ne.symm isField), or_iff_right notWritten,
      and_iff_left notOverwritten]

/-- One change keeps a record in agreement with its history. -/
theorem concat (follows : Follows steps record) (step : RecordStep) :
    Follows (steps ++ [step]) (record.change step) where
  distinct := follows.distinct_change step
  members := follows.members_change step
  ordered := follows.ordered_change step
  values := follows.values_change step

end Follows

/-- Every record that was built from nothing agrees with its history. -/
theorem follows_ofSteps (steps : List RecordStep) : Follows steps (ofSteps steps) := by
  induction steps using List.reverseRecOn with
  | nil => exact .empty
  | append_singleton steps step ih =>
      rw [ofSteps_concat]
      exact ih.concat step

/-! ## Paths -/

/-- The names lead from the record to the value: through a nested record with each of them
but the last, and to no null. -/
inductive Reaches : Record → List String → Value → Prop where
  | last {record : Record} {name : String} {value : Value}
      (found : record.get? name = some value) (notNull : value.isNull = false) :
      Reaches record [name] value
  | inner {record next : Record} {name : String} {names : List String} {value : Value}
      (found : record.get? name = some (.record next)) (reaches : Reaches next names value) :
      Reaches record (name :: names) value

theorem Reaches.ne_nil {record : Record} {names : List String} {value : Value}
    (reaches : Reaches record names value) : names ≠ [] := by
  cases reaches <;> exact List.cons_ne_nil _ _

theorem exists_record_of_descend {value result : Value} {name : String} {names : List String}
    (found : descend value (name :: names) = some result) : ∃ next, value = .record next := by
  cases value with
  | record next => exact ⟨next, rfl⟩
  | null | scalar | list => cases found

theorem descend_eq_some_iff {record : Record} {names : List String} {value : Value}
    (someThere : names ≠ []) :
    descend (.record record) names = some value ↔ Reaches record names value := by
  induction names generalizing record with
  | nil => exact absurd rfl someThere
  | cons name rest ih =>
      have step : descend (.record record) (name :: rest) =
          (record.value? name).bind fun next => descend next rest := rfl
      rw [step, Option.bind_eq_some_iff]
      constructor
      · rintro ⟨next, isNext, below⟩
        obtain ⟨found, notNull⟩ := value?_eq_some_iff.mp isNext
        cases rest with
        | nil =>
            cases below
            exact .last found notNull
        | cons second others =>
            obtain ⟨inner, rfl⟩ := exists_record_of_descend below
            exact .inner found ((ih (List.cons_ne_nil _ _)).mp below)
      · rintro (⟨found, notNull⟩ | ⟨found, reaches⟩)
        · exact ⟨value, value?_eq_some_iff.mpr ⟨found, notNull⟩, rfl⟩
        · exact ⟨_, value?_eq_some_iff.mpr ⟨found, rfl⟩, (ih reaches.ne_nil).mpr reaches⟩

/-- What is found at a path is what the names in it lead to. -/
theorem path?_eq_some_iff {record : Record} {path : String} {value : Value} :
    record.path? path = some value ↔
      ∃ names, (∀ name ∈ names, '/' ∉ name.toList) ∧ "/".intercalate names = path ∧
        Reaches record names value := by
  obtain ⟨someThere, apart, joined⟩ := Text.splitAt_eq_iff.mp (Eq.refl (Text.splitAt '/' path))
  rw [path?, descend_eq_some_iff someThere]
  constructor
  · intro reaches
    exact ⟨_, apart, joined, reaches⟩
  · rintro ⟨names, others, rfl, reaches⟩
    have same : Text.splitAt '/' ("/".intercalate names) = names :=
      Text.splitAt_eq_iff.mpr ⟨reaches.ne_nil, others, rfl⟩
    rw [same]
    exact reaches

/-! ## What a record holds -/

/-- A record that was built by setting, assigning and removing fields holds what its history
says: each name once, in the order in which the fields were entered, and each field with the
value that it was given last. An assignment succeeds exactly if the field was set and not
removed since. No further step moves a field that stays, or touches the value of another
one. A path in the record leads through nested records, and to no null. -/
theorem fields_follow_history (steps : List RecordStep) :
    Follows steps (ofSteps steps) ∧
    (∀ name value, ((ofSteps steps).assign? name value).isSome = true ↔ IsSet steps name) ∧
    (∀ name value, ((ofSteps steps).change (.set name value)).names =
      if name ∈ (ofSteps steps).names then (ofSteps steps).names
      else (ofSteps steps).names ++ [name]) ∧
    (∀ name value, ((ofSteps steps).change (.assign name value)).names = (ofSteps steps).names) ∧
    (∀ name, ((ofSteps steps).change (.remove name)).names = (ofSteps steps).names.erase name) ∧
    (∀ step other, other ≠ step.name →
      ((ofSteps steps).change step).get? other = (ofSteps steps).get? other) ∧
    ∀ path value, (ofSteps steps).path? path = some value ↔
      ∃ names, (∀ name ∈ names, '/' ∉ name.toList) ∧ "/".intercalate names = path ∧
        Reaches (ofSteps steps) names value := by
  have follows := follows_ofSteps steps
  refine ⟨follows, ?_, names_set _, names_change_assign _, names_remove _, ?_, ?_⟩
  · intro name value
    rw [← follows.members, ← contains_iff_mem_names, assign?]
    split <;> simp [*]
  · intro step other different
    exact get?_change_of_ne _ different
  · intro path value
    exact path?_eq_some_iff

/-- A contact with an assignment that finds no field, a field that is replaced, and one that
is removed, set again and assigned to. -/
def contactSteps : List RecordStep :=
  [.assign "city" "Oslo", .set "city" "Rome", .set "name" "Ann", .remove "city",
    .set "name" "Bob", .set "city" "Bern", .assign "city" "Graz",
    .set "path" (.record (empty.set "site" "root"))]

/-- The field that was replaced stays in front of the one that was removed. -/
theorem contact_follows_history :
    (ofSteps contactSteps).names = ["name", "city", "path"] ∧
    EntersBefore contactSteps "name" "city" ∧
    LastWritten contactSteps "city" "Graz" ∧
    "name" ≠ RecordStep.name (.remove "city") ∧
    ((ofSteps contactSteps).change (.remove "city")).get? "name" = some "Bob" ∧
    ∃ names, "/".intercalate names = "path/site" ∧
      Reaches (ofSteps contactSteps) names "root" := by
  obtain ⟨follows, -, -, -, -, others, paths⟩ := fields_follow_history contactSteps
  have isOther : "name" ≠ RecordStep.name (.remove "city") := by decide
  have names : (ofSteps contactSteps).names = ["name", "city", "path"] := by decide
  have ordered := follows.ordered
  rw [names] at ordered
  refine ⟨names, List.rel_of_pairwise_cons ordered List.mem_cons_self,
    (follows.values "city" "Graz").mp rfl, isOther, others _ _ isOther, ?_⟩
  obtain ⟨segments, -, joined, reaches⟩ := (paths "path/site" "root").mp rfl
  exact ⟨segments, joined, reaches⟩

end Record

end OData
