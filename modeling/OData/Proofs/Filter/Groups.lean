/-
# Groups of a filter

A clause that drops out is not written, yet the clause before it looks at it: it may open
a group for a clause that never comes, or hold one open for clauses that join by `and`.
With such clauses the groups of a filter are no longer its runs. What is left of the
rule is told here. A written clause is seen together with the clause right behind it,
written or not, and these pairs are put into parts, single ones and groups. A group has
a first member and ends with its part, so none is empty, none is inside another and all
are closed; which pairs begin and end one is said by `Grouped`.

The parts of a filter are found by induction on its clauses, with a group that may be
open at the start. The open group is what the rest of the clauses goes on with: its
other members, and then parts of their own.
-/

import OData.Proofs.Filter.Runs

namespace OData.Filter

namespace Clause

/-- The clause does not drop out: it has a field, and is no flag that is not set. -/
def isKept (clause : Clause) : Bool := clause.keptKey?.isSome

/-- The clause does not drop out, but has nothing that it compares with. -/
def lacksValue (clause : Clause) : Bool :=
  clause.isKept && isComparison clause.operator && clause.values.isEmpty

theorem keptKey?_of_isKept {clause : Clause} (dropped : clause.isKept = false) :
    clause.keptKey? = none := by
  simpa [isKept] using dropped

theorem isWritten_of_isKept {clause : Clause} (kept : clause.isKept = true)
    (complete : clause.lacksValue = false) : clause.IsWritten := by
  obtain ⟨key, isKey⟩ := Option.isSome_iff_exists.mp kept
  have enough : (isComparison clause.operator && clause.values.isEmpty) = false := by
    simpa [lacksValue, kept] using complete
  exact ⟨key, isKey, by rw [check, enough]; rfl⟩

end Clause

/-! ## Faults -/

/-- The first clause that lacks a value is the one that is reported, however the clauses
before it are written. -/
theorem compileFrom_lacking {clauses : List Clause} {clause : Clause}
    (isFirst : clauses.find? Clause.lacksValue = some clause) :
    ∃ key, clause.key = some key ∧ ∀ started grouped,
      compileFrom started grouped clauses =
        .error (.filter (.missingValue clause.operator key)) := by
  induction clauses with
  | nil => cases isFirst
  | cons head rest ih =>
      by_cases lacks : head.lacksValue = true
      · rw [List.find?_cons_of_pos lacks] at isFirst
        obtain rfl := Option.some.inj isFirst
        simp only [Clause.lacksValue, Bool.and_eq_true] at lacks
        obtain ⟨key, kept⟩ := Option.isSome_iff_exists.mp lacks.1.1
        refine ⟨key, Clause.key_of_keptKey? kept, fun started grouped => ?_⟩
        rw [compileFrom_kept kept, Clause.check, lacks.1.2, lacks.2]
        rfl
      · rw [List.find?_cons_of_neg lacks] at isFirst
        obtain ⟨key, isKey, others⟩ := ih isFirst
        refine ⟨key, isKey, fun started grouped => ?_⟩
        by_cases kept : head.isKept = true
        · have written := Clause.isWritten_of_isKept kept (Bool.eq_false_iff.mpr lacks)
          rw [compileFrom_written written, others]
          rfl
        · have dropped := Clause.keptKey?_of_isKept (Bool.eq_false_iff.mpr kept)
          rw [compileFrom_dropped dropped, others]

/-! ## Parts -/

/-- A clause that is written, and the one right behind it, written or not. -/
structure Placed where
  clause : Clause
  next : Option Clause

namespace Placed

/-- The clause right behind joins by `or`. -/
def seesOr (placed : Placed) : Bool := placed.next.any Clause.joinsByOr

/-- The clause right behind joins by `and`. -/
def seesAnd (placed : Placed) : Bool := placed.next.any fun next => !next.joinsByOr

/-- The text of the clause behind that of another one. -/
def joined (placed : Placed) : String := joint true placed.clause ++ placed.clause.alone

end Placed

/-- The clauses that are written, in order, with what is right behind them. -/
def placed : List Clause → List Placed
  | [] => []
  | clause :: rest =>
      if clause.isKept then ⟨clause, rest.head?⟩ :: placed rest else placed rest

/-- What stands by itself in a filter: one clause, or a group in parentheses. -/
inductive Part where
  | single (only : Placed)
  | group (first : Placed) (others : List Placed)

namespace Part

def members : Part → List Placed
  | .single only => [only]
  | .group first others => first :: others

/-- The text of a part, behind others or not. The joint of its first clause stands before
the parenthesis. -/
def text (started : Bool) : Part → String
  | .single only => joint started only.clause ++ only.clause.alone
  | .group first others =>
      joint started first.clause ++ " (" ++ first.clause.alone ++
        String.join (others.map Placed.joined) ++ ")"

end Part

/-- The text of parts one after another. -/
def partsText : (started : Bool) → List Part → String
  | _, [] => ""
  | started, part :: rest => part.text started ++ partsText true rest

/-- Where groups begin and end. One begins with a clause that sees `or`, and ends with
the first of its clauses that sees `and`, or else with the filter. -/
inductive Grouped : List Part → Prop
  | nil : Grouped []
  | single {only : Placed} {rest : List Part} (seesNoOr : only.seesOr = false)
      (others : Grouped rest) : Grouped (.single only :: rest)
  | group {first : Placed} {others : List Placed} {rest : List Part}
      (begins : first.seesOr = true)
      (within : ∀ placed ∈ (first :: others).dropLast, placed.seesAnd = false)
      (ends : ∀ last ∈ (first :: others).getLast?, last.seesAnd = true ∨ rest = [])
      (behind : Grouped rest) : Grouped (.group first others :: rest)

/-- What an open group goes on with: other members, and parts behind it. If there are no
other members, there is nothing behind it. -/
structure GoesOn (others : List Placed) (rest : List Part) : Prop where
  within : ∀ placed ∈ others.dropLast, placed.seesAnd = false
  ends : ∀ last ∈ others.getLast?, last.seesAnd = true ∨ rest = []
  nothing : others = [] → rest = []
  behind : Grouped rest

/-- A member that does not see `and` goes in front of what a group goes on with. -/
theorem GoesOn.cons {others : List Placed} {rest : List Part} (goesOn : GoesOn others rest)
    {first : Placed} (seesNoAnd : first.seesAnd = false) :
    (∀ placed ∈ (first :: others).dropLast, placed.seesAnd = false) ∧
      ∀ last ∈ (first :: others).getLast?, last.seesAnd = true ∨ rest = [] := by
  cases others with
  | nil => exact ⟨nofun, fun _ _ => .inr (goesOn.nothing rfl)⟩
  | cons next more =>
      constructor
      · exact List.forall_mem_cons.mpr ⟨seesNoAnd, goesOn.within⟩
      · rw [List.getLast?_cons_cons]
        exact goesOn.ends

theorem Placed.seesAnd_of_seesOr (placed : Placed) (seesOr : placed.seesOr = true) :
    placed.seesAnd = false := by
  unfold Placed.seesOr at seesOr
  unfold Placed.seesAnd
  cases behind : placed.next with
  | none => rfl
  | some next =>
      rw [behind] at seesOr
      have joins : next.joinsByOr = true := seesOr
      simp [joins]

theorem map_clause_placed (clauses : List Clause) :
    (placed clauses).map Placed.clause = clauses.filter Clause.isKept := by
  induction clauses with
  | nil => rfl
  | cons clause rest ih =>
      by_cases kept : clause.isKept = true <;> simp [placed, kept, ih]

/-! ## Steps -/

section Steps

variable {clause : Clause} (written : clause.IsWritten) {rest : List Clause}

include written

theorem compileFrom_single (sees : opensGroup rest = false) (started : Bool) :
    compileFrom started false (clause :: rest) =
      (compileFrom true false rest).map (joint started clause ++ clause.alone ++ ·) := by
  rw [compileFrom_written written, leavesGroup, entersGroup, sees]
  simp

theorem compileFrom_opening (sees : opensGroup rest = true) (started : Bool) :
    compileFrom started false (clause :: rest) =
      (compileFrom true true rest).map (joint started clause ++ " (" ++ clause.alone ++ ·) := by
  have stays : closesGroup rest = false :=
    Placed.seesAnd_of_seesOr ⟨clause, rest.head?⟩ sees
  rw [compileFrom_written written, leavesGroup, entersGroup, sees, stays]
  simp

theorem compileFrom_staying (sees : closesGroup rest = false) :
    compileFrom true true (clause :: rest) =
      (compileFrom true true rest).map (joint true clause ++ clause.alone ++ ·) := by
  rw [compileFrom_written written, leavesGroup, entersGroup, sees]
  simp

theorem compileFrom_closing (sees : closesGroup rest = true) :
    compileFrom true true (clause :: rest) =
      (compileFrom true false rest).map (joint true clause ++ clause.alone ++ ")" ++ ·) := by
  rw [compileFrom_written written, leavesGroup, entersGroup, sees]
  simp

end Steps

/-! ## Compiling in parts -/

/-- The texts of the other members of an open group, and of what is behind it. -/
def openText (others : List Placed) (rest : List Part) : String :=
  String.join (others.map Placed.joined) ++ ")" ++ partsText true rest

/-- The compiler writes clauses in parts, wherever it is outside groups. -/
def WrittenInParts (clauses : List Clause) : Prop :=
  ∃ parts, Grouped parts ∧ parts.flatMap Part.members = placed clauses ∧
    ∀ started, compileFrom started false clauses = .ok (partsText started parts)

/-- Inside a group, the compiler writes the rest of it, and then parts. -/
def WrittenInGroup (clauses : List Clause) : Prop :=
  ∃ others rest, GoesOn others rest ∧ others ++ rest.flatMap Part.members = placed clauses ∧
    compileFrom true true clauses = .ok (openText others rest)

section

variable {clause : Clause} {rest : List Clause}

theorem placed_kept (kept : clause.isKept = true) :
    placed (clause :: rest) = ⟨clause, rest.head?⟩ :: placed rest := if_pos kept

theorem writtenInParts_cons (kept : clause.isKept = true) (written : clause.IsWritten)
    (outside : WrittenInParts rest) (inside : WrittenInGroup rest) :
    WrittenInParts (clause :: rest) := by
  rw [WrittenInParts, placed_kept kept]
  by_cases sees : opensGroup rest = true
  · obtain ⟨others, later, goesOn, areOthers, opened⟩ := inside
    have noAnd := Placed.seesAnd_of_seesOr ⟨clause, rest.head?⟩ sees
    obtain ⟨within, ends⟩ := goesOn.cons noAnd
    refine ⟨.group ⟨clause, rest.head?⟩ others :: later,
      .group sees within ends goesOn.behind, congrArg _ areOthers, fun started => ?_⟩
    rw [compileFrom_opening written sees, opened]
    simp [Except.map, partsText, Part.text, openText, String.append_assoc]
  · obtain ⟨parts, grouped, areParts, closed⟩ := outside
    have noOr : opensGroup rest = false := Bool.eq_false_iff.mpr sees
    refine ⟨.single ⟨clause, rest.head?⟩ :: parts, .single noOr grouped,
      congrArg _ areParts, fun started => ?_⟩
    rw [compileFrom_single written noOr, closed]
    simp [Except.map, partsText, Part.text]

theorem writtenInGroup_cons (kept : clause.isKept = true) (written : clause.IsWritten)
    (outside : WrittenInParts rest) (inside : WrittenInGroup rest) :
    WrittenInGroup (clause :: rest) := by
  rw [WrittenInGroup, placed_kept kept]
  by_cases sees : closesGroup rest = true
  · obtain ⟨parts, grouped, areParts, closed⟩ := outside
    refine ⟨[⟨clause, rest.head?⟩], parts, ⟨nofun, ?_, nofun, grouped⟩,
      congrArg _ areParts, ?_⟩
    · intro last isLast
      obtain rfl := Option.some.inj isLast
      exact .inl sees
    · rw [compileFrom_closing written sees, closed]
      simp [Except.map, openText, Placed.joined, String.append_assoc]
  · obtain ⟨others, later, goesOn, areOthers, opened⟩ := inside
    have noAnd : closesGroup rest = false := Bool.eq_false_iff.mpr sees
    have seesNoAnd : (⟨clause, rest.head?⟩ : Placed).seesAnd = false := noAnd
    obtain ⟨within, ends⟩ := goesOn.cons seesNoAnd
    refine ⟨⟨clause, rest.head?⟩ :: others, later, ⟨within, ends, nofun, goesOn.behind⟩,
      congrArg _ areOthers, ?_⟩
    rw [compileFrom_staying written noAnd, opened]
    simp [Except.map, openText, Placed.joined, String.append_assoc]

/-- A clause that drops out changes nothing, outside groups and inside. -/
theorem written_dropped (dropped : clause.isKept = false) :
    (WrittenInParts (clause :: rest) ↔ WrittenInParts rest) ∧
      (WrittenInGroup (clause :: rest) ↔ WrittenInGroup rest) := by
  have noKey := Clause.keptKey?_of_isKept dropped
  have areRest : placed (clause :: rest) = placed rest := by rw [placed, dropped]; rfl
  simp only [WrittenInParts, WrittenInGroup, areRest, compileFrom_dropped noKey, and_self]

end

theorem written_of_complete {clauses : List Clause}
    (complete : ∀ clause ∈ clauses, clause.lacksValue = false) :
    WrittenInParts clauses ∧ WrittenInGroup clauses := by
  induction clauses with
  | nil =>
      constructor
      · exact ⟨[], .nil, rfl, fun _ => rfl⟩
      · exact ⟨[], [], ⟨nofun, nofun, fun _ => rfl, .nil⟩, rfl, rfl⟩
  | cons clause rest ih =>
      obtain ⟨clauseComplete, restComplete⟩ := List.forall_mem_cons.mp complete
      obtain ⟨outside, inside⟩ := ih restComplete
      by_cases kept : clause.isKept = true
      · have written := Clause.isWritten_of_isKept kept clauseComplete
        constructor
        · exact writtenInParts_cons kept written outside inside
        · exact writtenInGroup_cons kept written outside inside
      · have dropped : clause.isKept = false := Bool.eq_false_iff.mpr kept
        exact ⟨(written_dropped dropped).1.mpr outside, (written_dropped dropped).2.mpr inside⟩

/-- A filter fails exactly if a clause that does not drop out lacks a value, and then
with the operator and the field of the first such clause. Otherwise it is the text of
its parts, whose clauses are those that do not drop out, in order, and each of them is
written as it compiles by itself. -/
theorem compile_in_parts (clauses : List Clause) :
    match clauses.find? Clause.lacksValue with
    | some clause => ∃ key, clause.key = some key ∧
        compile clauses = .error (.filter (.missingValue clause.operator key))
    | none => ∃ parts, Grouped parts ∧
        parts.flatMap Part.members = placed clauses ∧
        (placed clauses).map Placed.clause = clauses.filter Clause.isKept ∧
        (∀ clause ∈ clauses, clause.isKept = true → compile [clause] = .ok clause.alone) ∧
        compile clauses = .ok (partsText false parts) := by
  cases found : clauses.find? Clause.lacksValue with
  | some clause =>
      obtain ⟨key, isKey, refused⟩ := compileFrom_lacking found
      exact ⟨key, isKey, refused false false⟩
  | none =>
      have complete : ∀ clause ∈ clauses, clause.lacksValue = false := by
        simpa using found
      obtain ⟨⟨parts, grouped, areParts, compiled⟩, -⟩ := written_of_complete complete
      refine ⟨parts, grouped, areParts, map_clause_placed clauses, ?_, compiled false⟩
      intro clause isMember kept
      exact compile_single (Clause.isWritten_of_isKept kept (complete clause isMember))

/-- A flag that is not set opens a group that the clause behind it does not end. -/
example : compile [
    Clause.equal "a" (some (.integer 1)),
    ({ key := some "active", operator := "isBoolFlag", values := [none] } : Clause).joinedByOr,
    Clause.equal "b" (some (.integer 2))] = .ok " ( a eq 1 and b eq 2)" := rfl

end OData.Filter
