/-
# Runs of clauses

Clauses that join by `or` stand together with the clause before the first of them:
a filter is a list of such runs. A run of several clauses is written in
parentheses, a single clause as it is, and runs are joined by `and`. This is what
the compiler arrives at with one clause of lookahead and one bit of state, for
clauses of which none drops out and none is refused. Only the compiler looks ahead:
a run is described by its own clauses and their texts by themselves.

Nothing is claimed here about clauses that drop out: a clause that is not written
still decides where the group before it ends.
-/

import OData.Proofs.Filter.Step
import Mathlib.Data.List.SplitBy
import Mathlib.Data.List.TakeWhile

namespace OData.Filter

/-- The longest stretches of clauses in which all but the first one join by `or`. -/
def runs (clauses : List Clause) : List (List Clause) :=
  clauses.splitBy fun _ next => next.joinsByOr

theorem runs_append {clause : Clause} {more others : List Clause}
    (joined : ∀ next ∈ more, next.joinsByOr = true) (ends : opensGroup others = false) :
    runs (clause :: more ++ others) = (clause :: more) :: runs others := by
  have chain : (clause :: more).IsChain fun _ next => next.joinsByOr = true := by
    apply List.Pairwise.isChain
    apply List.Pairwise.cons joined
    exact List.pairwise_of_forall_mem_list fun _ _ next isMember => joined next isMember
  have apart : ∀ last ∈ (clause :: more).getLast?, ∀ next ∈ others.head?,
      next.joinsByOr = false := by
    intro _ _ next isHead
    cases others with
    | nil => cases isHead
    | cons other rest =>
        cases isHead
        exact ends
  rw [runs, List.splitBy_append apart, List.splitBy_of_isChain (List.cons_ne_nil _ _) chain]
  rfl

/-- Clauses are taken up run by run. -/
theorem runs_induction {motive : List Clause → Prop} (nil : motive [])
    (run : ∀ (clause : Clause) (more others : List Clause),
      (∀ next ∈ more, next.joinsByOr = true) → opensGroup others = false →
        motive others → motive (clause :: more ++ others))
    (clauses : List Clause) : motive clauses := by
  induction length : clauses.length using Nat.strong_induction_on generalizing clauses with
  | _ n ih =>
    cases clauses with
    | nil => exact nil
    | cons clause rest =>
        have split : clause :: rest =
            clause :: rest.takeWhile Clause.joinsByOr ++ rest.dropWhile Clause.joinsByOr := by
          rw [List.cons_append, List.takeWhile_append_dropWhile]
        rw [split]
        apply run
        · intro next isMember
          exact List.mem_takeWhile_imp isMember
        · have stops := List.head?_dropWhile_not Clause.joinsByOr rest
          unfold opensGroup
          cases isHead : (rest.dropWhile Clause.joinsByOr).head? with
          | none => rfl
          | some next =>
              rw [isHead] at stops
              simpa using stops
        · apply ih _ _ _ rfl
          have shorter := (List.dropWhile_suffix Clause.joinsByOr (l := rest)).length_le
          rw [← length, List.length_cons]
          exact Nat.lt_succ_of_le shorter

/-! ## Written clauses -/

namespace Clause

/-- The clause does not drop out, and has what it compares with. -/
def IsWritten (clause : Clause) : Prop :=
  ∃ key, clause.keptKey? = some key ∧ clause.check key = .ok ()

/-- The text of a clause by itself. -/
def alone (clause : Clause) : String := (clause.keptKey?.map clause.text).getD ""

end Clause

theorem compileFrom_written {clause : Clause} (written : clause.IsWritten)
    (started grouped : Bool) (rest : List Clause) :
    compileFrom started grouped (clause :: rest) =
      (compileFrom true (entersGroup grouped rest && !leavesGroup grouped rest) rest).map
        fun tail =>
          joint started clause ++ (if entersGroup grouped rest && !grouped then " (" else "") ++
            clause.alone ++ (if leavesGroup grouped rest then ")" else "") ++ tail := by
  obtain ⟨key, kept, checked⟩ := written
  rw [compileFrom_kept kept, checked, Clause.alone, kept]
  rfl

/-- The text of a run: one clause as it is, several in parentheses. -/
def runText (run : List Clause) : String :=
  match run with
  | [clause] => clause.alone
  | clauses => " (" ++ " or".intercalate (clauses.map Clause.alone) ++ ")"

/-! ## Compiling run by run -/

theorem intercalate_eq_join (separator first : String) (others : List String) :
    separator.intercalate (first :: others) =
      first ++ String.join (others.map (separator ++ ·)) := by
  induction others generalizing first with
  | nil => simp
  | cons next others ih =>
      rw [String.intercalate_cons_cons, ih next, List.map_cons, String.join_cons,
        String.append_assoc, String.append_assoc]

theorem exceptMap_map (first second : String → String) (compiled : Except Fault String) :
    (compiled.map first).map second = compiled.map fun text => second (first text) := by
  cases compiled <;> rfl

/-- Behind its last clause a group is closed, be it by that clause, which sees the
next one, or by the end of the filter. -/
theorem compileFrom_groupEnd {others : List Clause} (ends : opensGroup others = false) :
    (compileFrom true (!closesGroup others) others).map
        ((if closesGroup others then ")" else "") ++ ·) =
      (compileFrom true false others).map (")" ++ ·) := by
  cases others with
  | nil => rfl
  | cons other rest =>
      have byAnd : other.joinsByOr = false := ends
      have closes : closesGroup (other :: rest) = true := by simp [closesGroup, byAnd]
      rw [closes]
      rfl

/-- Inside a group, the clauses up to its end are joined by `or`. -/
theorem compileFrom_group {more others : List Clause} (some : more ≠ [])
    (written : ∀ next ∈ more, next.IsWritten) (joined : ∀ next ∈ more, next.joinsByOr = true)
    (ends : opensGroup others = false) :
    compileFrom true true (more ++ others) =
      (compileFrom true false others).map
        (String.join (more.map (" or" ++ ·.alone)) ++ ")" ++ ·) := by
  induction more with
  | nil => contradiction
  | cons next more ih =>
      obtain ⟨nextWritten, moreWritten⟩ := List.forall_mem_cons.mp written
      obtain ⟨nextJoined, moreJoined⟩ := List.forall_mem_cons.mp joined
      have byOr : joint true next = " or" := by simp [joint, nextJoined]
      rw [List.cons_append, compileFrom_written nextWritten, byOr]
      simp only [leavesGroup, entersGroup, Bool.true_or, Bool.true_and, Bool.not_true]
      cases more with
      | nil =>
          -- The last clause of the group: what follows decides where the parenthesis is
          -- written, here or behind the whole filter.
          have closed := congrArg (Except.map (" or" ++ next.alone ++ ·))
            (compileFrom_groupEnd ends)
          simpa [exceptMap_map, String.append_assoc] using closed
      | cons second more =>
          have secondJoined : second.joinsByOr = true := moreJoined second List.mem_cons_self
          have stays : closesGroup (second :: more ++ others) = false := by
            simp [closesGroup, secondJoined]
          rw [stays, Bool.not_false, ih (List.cons_ne_nil _ _) moreWritten moreJoined]
          simp [exceptMap_map, String.append_assoc]

theorem runText_several (clause next : Clause) (more : List Clause) :
    runText (clause :: next :: more) =
      " (" ++ (clause.alone ++ String.join ((next :: more).map (" or" ++ ·.alone))) ++ ")" := by
  have text : runText (clause :: next :: more) =
      " (" ++ " or".intercalate ((clause :: next :: more).map Clause.alone) ++ ")" := rfl
  rw [text, List.map_cons, intercalate_eq_join, List.map_map]
  rfl

/-- A run is written behind its joint and in front of the other runs. -/
theorem compileFrom_run {clause : Clause} {more others : List Clause}
    (written : ∀ next ∈ clause :: more, next.IsWritten)
    (joined : ∀ next ∈ more, next.joinsByOr = true) (ends : opensGroup others = false)
    (started : Bool) :
    compileFrom started false (clause :: more ++ others) =
      (compileFrom true false others).map
        (joint started clause ++ runText (clause :: more) ++ ·) := by
  obtain ⟨clauseWritten, moreWritten⟩ := List.forall_mem_cons.mp written
  rw [List.cons_append, compileFrom_written clauseWritten]
  cases more with
  | nil => simp [entersGroup, leavesGroup, ends, runText]
  | cons next more =>
      have nextJoined : next.joinsByOr = true := joined next List.mem_cons_self
      have opens : opensGroup (next :: more ++ others) = true := nextJoined
      have stays : closesGroup (next :: more ++ others) = false := by
        simp [closesGroup, nextJoined]
      rw [leavesGroup, entersGroup, opens, stays, Bool.or_true, Bool.and_false, Bool.not_false,
        Bool.and_true, compileFrom_group (List.cons_ne_nil _ _) moreWritten joined ends]
      simp [runText_several, exceptMap_map, String.append_assoc]

theorem compileFrom_runs {clauses : List Clause}
    (written : ∀ clause ∈ clauses, clause.IsWritten) (ends : opensGroup clauses = false) :
    compileFrom true false clauses =
      .ok (String.join ((runs clauses).map (" and" ++ runText ·))) := by
  induction clauses using runs_induction with
  | nil => rfl
  | run clause more others joined othersEnd ih =>
      obtain ⟨runWritten, othersWritten⟩ := List.forall_mem_append.mp written
      have noOr : clause.joinsByOr = false := ends
      have byAnd : joint true clause = " and" := by simp [joint, noOr]
      rw [compileFrom_run runWritten joined othersEnd, ih othersWritten othersEnd, byAnd,
        runs_append joined othersEnd, List.map_cons, String.join_cons]
      rfl

/-- Written clauses compile to their runs, joined by `and`. -/
theorem compile_eq_runs {clauses : List Clause}
    (written : ∀ clause ∈ clauses, clause.IsWritten) :
    compile clauses = .ok (" and".intercalate ((runs clauses).map runText)) := by
  cases clauses using runs_induction with
  | nil => rfl
  | run clause more others joined ends =>
      obtain ⟨runWritten, othersWritten⟩ := List.forall_mem_append.mp written
      rw [compile, compileFrom_run runWritten joined ends, compileFrom_runs othersWritten ends,
        runs_append joined ends, List.map_cons, intercalate_eq_join, List.map_map, Except.map]
      simp [joint, Function.comp_def]

/-! ## Texts of single clauses -/

/-- The clauses, split into stretches of which a new one begins at every clause behind
the first that joins by `and`. -/
structure AreRuns (clauses : List Clause) (parts : List (List Clause)) : Prop where
  whole : parts.flatten = clauses
  nonempty : ∀ part ∈ parts, part ≠ []
  within : ∀ part ∈ parts, ∀ next ∈ part.tail, next.joinsByOr = true
  between : ∀ part ∈ parts.tail, ∀ first ∈ part.head?, first.joinsByOr = false

/-- Where the first stretch begins, there the clauses begin. -/
theorem AreRuns.opensGroup_eq {clauses : List Clause} {parts : List (List Clause)}
    (areRuns : AreRuns clauses parts) :
    opensGroup clauses = (parts.head?.bind List.head?).any Clause.joinsByOr := by
  obtain ⟨rfl, nonempty, -, -⟩ := areRuns
  cases parts with
  | nil => rfl
  | cons part others =>
      obtain ⟨first, rest, rfl⟩ := List.exists_cons_of_ne_nil (nonempty _ List.mem_cons_self)
      rfl

theorem areRuns_runs (clauses : List Clause) : AreRuns clauses (runs clauses) := by
  induction clauses using runs_induction with
  | nil => exact ⟨rfl, nofun, nofun, nofun⟩
  | run clause more others joined ends ih =>
      have begins := ih.opensGroup_eq
      obtain ⟨whole, nonempty, within, between⟩ := ih
      rw [ends] at begins
      rw [runs_append joined ends]
      refine ⟨?_, ?_, ?_, ?_⟩
      · rw [List.flatten_cons, whole]
      · exact List.forall_mem_cons.mpr ⟨List.cons_ne_nil _ _, nonempty⟩
      · exact List.forall_mem_cons.mpr ⟨joined, within⟩
      · -- The first of the other runs is no longer the first of all.
        rw [List.tail_cons]
        cases parts : runs others with
        | nil => exact nofun
        | cons part later =>
            rw [parts] at begins between
            apply List.forall_mem_cons.mpr ⟨?_, between⟩
            intro first isFirst
            have isHead : part.head? = some first := isFirst
            simpa [isHead] using begins.symm

/-- There is one way to split clauses so. -/
theorem AreRuns.eq_runs {clauses : List Clause} {parts : List (List Clause)}
    (areRuns : AreRuns clauses parts) : parts = runs clauses := by
  obtain ⟨rfl, nonempty, within, between⟩ := areRuns
  induction parts with
  | nil => rfl
  | cons part others ih =>
      obtain ⟨partSome, othersSome⟩ := List.forall_mem_cons.mp nonempty
      obtain ⟨partWithin, othersWithin⟩ := List.forall_mem_cons.mp within
      have othersRuns : AreRuns others.flatten others :=
        ⟨rfl, othersSome, othersWithin,
          fun part isMember => between part (List.mem_of_mem_tail isMember)⟩
      have ends : opensGroup others.flatten = false := by
        rw [othersRuns.opensGroup_eq]
        cases others with
        | nil => rfl
        | cons next later =>
            obtain ⟨first, rest, rfl⟩ :=
              List.exists_cons_of_ne_nil (othersSome _ List.mem_cons_self)
            exact between _ List.mem_cons_self first rfl
      obtain ⟨clause, more, rfl⟩ := List.exists_cons_of_ne_nil partSome
      have rest := ih othersSome othersWithin othersRuns.between
      rw [List.flatten_cons]
      exact (congrArg _ rest).trans (runs_append partWithin ends).symm

theorem Clause.isWritten_iff {clause : Clause} :
    clause.IsWritten ↔ clause.key.isSome = true ∧ clause.isSkipped = false ∧
      (isComparison clause.operator = true → clause.values ≠ []) := by
  unfold IsWritten keptKey? check
  cases clause.isSkipped with
  | true => simp
  | false =>
      cases isComparison clause.operator <;> cases clause.values <;> cases clause.key <;> simp

/-- By itself a written clause compiles to its text. -/
theorem compile_single {clause : Clause} (written : clause.IsWritten) :
    compile [clause] = .ok clause.alone := by
  rw [compile, compileFrom_written written]
  simp [entersGroup, leavesGroup, opensGroup, joint, compileFrom, Except.map]

/-- What the first clause would join by does not matter. -/
theorem compile_firstJoint (clause : Clause) (byOr : Bool) (rest : List Clause) :
    compile ({ clause with joinsByOr := byOr } :: rest) = compile (clause :: rest) := rfl

/-- When every clause has a field, is set and has what it compares with, each compiles by
itself, and together they compile to their runs joined by `and`: a run of one clause is
the text of that clause, and one of several is their texts, joined by `or` in
parentheses. The flag of the first clause has no effect. -/
theorem compile_run_by_run {clauses : List Clause}
    (each : ∀ clause ∈ clauses, clause.key.isSome = true ∧ clause.isSkipped = false ∧
      (isComparison clause.operator = true → clause.values ≠ [])) :
    (∀ clause ∈ clauses, compile [clause] = .ok clause.alone) ∧
      (∃ parts, AreRuns clauses parts ∧ (∀ others, AreRuns clauses others → others = parts) ∧
        compile clauses = .ok (" and".intercalate (parts.map runText))) ∧
      ∀ first rest byOr, clauses = first :: rest →
        compile ({ first with joinsByOr := byOr } :: rest) = compile clauses := by
  have written : ∀ clause ∈ clauses, clause.IsWritten := fun clause isMember =>
    Clause.isWritten_iff.mpr (each clause isMember)
  refine ⟨?_, ?_, ?_⟩
  · exact fun clause isMember => compile_single (written clause isMember)
  · exact ⟨runs clauses, areRuns_runs clauses, fun _ areRuns => areRuns.eq_runs,
      compile_eq_runs written⟩
  · rintro first rest byOr rfl
    exact compile_firstJoint first byOr rest

/-- Two cities and a flag that is turned around; the flag of the first clause is set. -/
def citiesWithParent : List Clause := [
  (Clause.equal "city" (some (.text "Ghent"))).joinedByOr,
  (Clause.equal "city" (some (.text "Bruges"))).joinedByOr,
  { key := some "parent", operator := "is null", values := [some (.boolean false)] }]

theorem cities_run_by_run :
    ∃ parts, AreRuns citiesWithParent parts ∧ parts.map List.length = [2, 1] ∧
      " and".intercalate (parts.map runText) =
        " ( city eq 'Ghent' or city eq 'Bruges') and parent ne null" ∧
      compile citiesWithParent = .ok (" and".intercalate (parts.map runText)) := by
  obtain ⟨-, ⟨parts, areRuns, unique, compiled⟩, -⟩ :=
    compile_run_by_run (by decide : ∀ clause ∈ citiesWithParent, clause.key.isSome = true ∧
      clause.isSkipped = false ∧ (isComparison clause.operator = true → clause.values ≠ []))
  have text : compile citiesWithParent =
      .ok " ( city eq 'Ghent' or city eq 'Bruges') and parent ne null" := rfl
  have split : AreRuns citiesWithParent
      [citiesWithParent.take 2, citiesWithParent.drop 2] := by
    refine ⟨rfl, by simp [citiesWithParent], ?_, ?_⟩ <;>
      simp [citiesWithParent, Clause.joinedByOr]
  refine ⟨parts, areRuns, ?_, Except.ok.inj (compiled.symm.trans text), compiled⟩
  rw [← unique _ split]
  rfl

end OData.Filter
