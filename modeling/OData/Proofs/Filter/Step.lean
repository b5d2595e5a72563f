/-
# Steps of the compiler

One clause at a time: which operator a clause is written with, and what the
compiler does with the first of the clauses that are left. A clause is dropped, or
it is refused, or its own text goes in front of what the others compile to. The
theory of whole filters uses the facts of this module and never looks into the
compiler again.
-/

import OData.Filter.Expression

namespace OData.Filter

namespace Clause

/-! ## The written operator -/

/-- The operator is a negative form of `like`, in any case. -/
def isNotLike (operator : String) : Bool :=
  Text.loweredIs operator "not like" || Text.loweredIs operator "not ilike"

/-- The clause searches for a text in a field. -/
def isLike (clause : Clause) : Bool := clause.operator == "like" || isNotLike clause.operator

/-- The values of the clause are written out. -/
def showsValues (clause : Clause) : Bool :=
  isComparison clause.operator || clause.operator == "in" || isNotLike clause.operator

/-- A test for null, in any case, compares with nothing. -/
theorem not_comparison_of_nullTest {operator : String}
    (isTest : Text.loweredIs operator "is null" = true ∨
      Text.loweredIs operator "is not null" = true) :
    isComparison operator = false ∧ operator ≠ "in" ∧ operator ≠ "like" := by
  have comparisons : ∀ other ∈ "in" :: comparisonOperators,
      Text.loweredIs other "is null" = false ∧ Text.loweredIs other "is not null" = false := by
    decide
  have outside : operator ∉ "in" :: comparisonOperators := by
    intro isMember
    obtain ⟨notNull, notNotNull⟩ := comparisons operator isMember
    rcases isTest with isTest | isTest
    · exact Bool.noConfusion (notNull.symm.trans isTest)
    · exact Bool.noConfusion (notNotNull.symm.trans isTest)
  obtain ⟨notIn, notCompared⟩ := List.ne_and_not_mem_of_not_mem_cons outside
  refine ⟨?_, notIn, fun same => notCompared (same ▸ by decide)⟩
  rw [isComparison, List.contains_eq_mem, decide_eq_false_iff_not]
  exact notCompared

/-- Several values make equality a membership; no form of `like` and no test for
null is concerned. -/
theorem relation_eq (clause : Clause) :
    clause.relation =
      if isNotLike clause.operator then ⟨"like", true⟩
      else if clause.hasSeveral && clause.operator == "=" then ⟨"in", clause.isInverted⟩
      else if clause.hasSeveral && (clause.operator == "<>" || clause.operator == "!=") then
        ⟨"in", true⟩
      else Relation.withoutNotNull ⟨clause.operator, clause.isInverted⟩ := by
  have kept (negated : Bool) :
      (Relation.withoutNotLike ⟨"in", negated⟩).withoutNotNull = ⟨"in", negated⟩ := by
    cases negated <;> decide
  have notLike (negated : Bool) : (Relation.withoutNotLike ⟨clause.operator, negated⟩) =
      if isNotLike clause.operator then ⟨"like", true⟩ else ⟨clause.operator, negated⟩ := rfl
  have single (negated : Bool) :
      (Relation.withoutNotLike ⟨clause.operator, negated⟩).withoutNotNull =
        if isNotLike clause.operator then ⟨"like", true⟩
        else Relation.withoutNotNull ⟨clause.operator, negated⟩ := by
    rw [notLike]
    split <;> rfl
  unfold relation
  cases several : clause.hasSeveral with
  | false => simpa using single clause.isInverted
  | true =>
      by_cases equal : clause.operator = "="
      · have noLike : isNotLike "=" = false := by decide
        simpa [Relation.withSeveral, equal, noLike] using kept clause.isInverted
      · by_cases unequal : clause.operator = "<>" ∨ clause.operator = "!="
        · have noLike : isNotLike clause.operator = false := by
            rcases unequal with same | same <;> rw [same] <;> decide
          simpa [Relation.withSeveral, equal, unequal, noLike] using kept true
        · simpa [Relation.withSeveral, equal, unequal] using single clause.isInverted

/-- A clause that compares is no flag, so nothing inverts it. -/
theorem relation_of_isComparison {clause : Clause}
    (compared : isComparison clause.operator = true) :
    clause.relation =
      if isNotLike clause.operator then ⟨"like", true⟩
      else if clause.hasSeveral && clause.operator == "=" then ⟨"in", false⟩
      else if clause.hasSeveral && (clause.operator == "<>" || clause.operator == "!=") then
        ⟨"in", true⟩
      else Relation.withoutNotNull ⟨clause.operator, false⟩ := by
  have notInverted : clause.isInverted = false := by
    rw [isInverted, flag?, if_pos compared]
  rw [relation_eq, notInverted]

/-- The operators that a clause may be written with. -/
theorem relation_operator_mem (clause : Clause) :
    clause.relation.operator ∈
      [clause.operator, "in", "like", "is null", "is not null"] := by
  rw [relation_eq]
  split
  · simp
  · split
    · simp
    · split
      · simp
      · unfold Relation.withoutNotNull
        split
        · simp
        · split <;> simp

/-- Turning a test for null around yields the other one; nothing else is touched. -/
theorem withoutNotNull_cases (relation : Relation) :
    relation.withoutNotNull = relation ∨
      (Text.loweredIs relation.operator "is null" = true ∨
        Text.loweredIs relation.operator "is not null" = true) ∧
      relation.withoutNotNull.operator ∈ ["is null", "is not null"] := by
  unfold Relation.withoutNotNull
  split
  · rename_i turned
    exact .inr ⟨.inl (Bool.and_eq_true_iff.mp turned).2, by simp⟩
  · split
    · rename_i turned
      exact .inr ⟨.inr (Bool.and_eq_true_iff.mp turned).2, by simp⟩
    · exact .inl rfl

/-- A clause is written as a search exactly when it is one. -/
theorem relation_isLike (clause : Clause) :
    (clause.relation.operator == "like") = clause.isLike := by
  rw [relation_eq, isLike]
  split
  · rename_i notLike
    simp [notLike]
  · rename_i notLike
    rw [Bool.eq_false_iff.mpr notLike, Bool.or_false]
    split
    · rename_i equal
      simp only [Bool.and_eq_true, beq_iff_eq] at equal
      simp [equal.2]
    · split
      · rename_i unequal
        simp only [Bool.and_eq_true, Bool.or_eq_true, beq_iff_eq] at unequal
        rcases unequal.2 with same | same <;> simp [same]
      · rcases withoutNotNull_cases ⟨clause.operator, clause.isInverted⟩ with same | turned
        · rw [same]
        · obtain ⟨isTest, written⟩ := turned
          obtain ⟨-, -, noLike⟩ := not_comparison_of_nullTest isTest
          rw [beq_false_of_ne noLike, beq_eq_false_iff_ne]
          intro same
          rw [same] at written
          exact absurd written (by decide)

/-- The values of a clause are written exactly when they are shown. -/
theorem relation_showsValues (clause : Clause) :
    (isComparison clause.relation.operator || clause.relation.operator == "in") =
      clause.showsValues := by
  rw [relation_eq, showsValues]
  split
  · rename_i notLike
    rw [notLike, Bool.or_true]
    decide
  · rename_i notLike
    rw [Bool.eq_false_iff.mpr notLike, Bool.or_false]
    split
    · rename_i equal
      simp only [Bool.and_eq_true, beq_iff_eq] at equal
      rw [equal.2]
      simp [isComparison, comparisonOperators]
    · split
      · rename_i unequal
        simp only [Bool.and_eq_true, Bool.or_eq_true, beq_iff_eq] at unequal
        rcases unequal.2 with same | same <;> rw [same] <;>
          simp [isComparison, comparisonOperators]
      · rcases withoutNotNull_cases ⟨clause.operator, clause.isInverted⟩ with same | turned
        · rw [same]
        · obtain ⟨isTest, written⟩ := turned
          obtain ⟨notCompared, notIn, -⟩ := not_comparison_of_nullTest isTest
          rw [notCompared, beq_false_of_ne notIn]
          revert written
          generalize
            (Relation.withoutNotNull ⟨clause.operator, clause.isInverted⟩).operator = other
          intro written
          simp only [List.mem_cons, List.not_mem_nil, or_false] at written
          rcases written with rfl | rfl <;> decide

/-! ## The written operands -/

section Operands

variable {clause : Clause} {operator : String}

theorem operands_single {value : Literal} (values : clause.values = [value])
    (shows : (isComparison operator || operator == "in") = true) (noSearch : operator ≠ "like") :
    clause.operands operator = " " ++ clause.operand value := by
  rw [operands, if_pos shows, values, beq_false_of_ne noSearch]
  rfl

/-- A search looks for its only value without the wildcards. -/
theorem operands_search {value : Literal} (values : clause.values = [value]) :
    clause.operands "like" = " " ++ lowerIf clause.ignoresCase (Text.quote (pattern value)) := by
  rw [operands, values]
  rfl

theorem exists_values_of_several (several : 2 ≤ clause.values.length) :
    ∃ first second others, clause.values = first :: second :: others := by
  cases values : clause.values with
  | nil => simp [values] at several
  | cons first rest =>
      cases rest with
      | nil => simp [values] at several
      | cons second others => exact ⟨first, second, others, rfl⟩

/-- Several values are a list, whatever the operator is. -/
theorem operands_several (several : 2 ≤ clause.values.length)
    (shows : (isComparison operator || operator == "in") = true) :
    clause.operands operator =
      " (" ++ ",".intercalate (clause.values.map clause.operand) ++ ")" := by
  rw [operands, if_pos shows]
  obtain ⟨first, second, others, values⟩ := exists_values_of_several several
  rw [values]

end Operands

/-! ## The written clause -/

/-- The text, as what stands in parentheses after an opening. -/
def wrappedIf (isWrapped : Bool) (opening inner : String) : String :=
  if isWrapped then opening ++ inner ++ ")" else inner

/-- A field, its operator and what it is compared with. -/
def bareText (clause : Clause) (key : String) : String :=
  " " ++ lowerIf clause.ignoresCase key ++ " " ++ token clause.relation.operator ++
    clause.operands clause.relation.operator

/-- A search stands in `contains`, and what is turned around in `not`. -/
theorem text_eq (clause : Clause) (key : String) :
    clause.text key =
      wrappedIf clause.relation.negated " not("
        (wrappedIf clause.isLike "contains(" (clause.bareText key)) := by
  unfold text bareText
  simp only [relation_isLike, String.append_assoc]
  cases clause.relation.negated <;> cases clause.isLike <;>
    simp [wrappedIf, String.append_assoc]

/-! ## The first of several clauses -/

/-- A clause that is kept has its key. -/
theorem key_of_keptKey? {clause : Clause} {key : String} (kept : clause.keptKey? = some key) :
    clause.key = some key := by
  unfold keptKey? at kept
  split at kept
  · cases kept
  · exact kept

end Clause

/-- Inside a group after a clause that begins inside (`grouped`) or before one that
joins by `or`. -/
def entersGroup (grouped : Bool) (rest : List Clause) : Bool := grouped || opensGroup rest

/-- The group of a clause ends behind it. -/
def leavesGroup (grouped : Bool) (rest : List Clause) : Bool :=
  entersGroup grouped rest && closesGroup rest

theorem compileFrom_dropped {clause : Clause} (dropped : clause.keptKey? = none)
    (started grouped : Bool) (rest : List Clause) :
    compileFrom started grouped (clause :: rest) = compileFrom started grouped rest := by
  rw [compileFrom, dropped]

/-- A kept clause goes in front of what the others compile to, unless it compares
with nothing. -/
theorem compileFrom_kept {clause : Clause} {key : String} (kept : clause.keptKey? = some key)
    (started grouped : Bool) (rest : List Clause) :
    compileFrom started grouped (clause :: rest) =
      (clause.check key).bind fun _ =>
        (compileFrom true (entersGroup grouped rest && !leavesGroup grouped rest) rest).map
          fun tail =>
            joint started clause ++ (if entersGroup grouped rest && !grouped then " (" else "") ++
              clause.text key ++ (if leavesGroup grouped rest then ")" else "") ++ tail := by
  rw [compileFrom, kept]
  rfl

/-- What a successful step has done: it has dropped the clause, or it has put the
text of the clause, between its joint and the parentheses of its group, in front of
the rest. -/
theorem compileFrom_cons_ok {clause : Clause} {started grouped : Bool} {rest : List Clause}
    {text : String} (compiled : compileFrom started grouped (clause :: rest) = .ok text) :
    (clause.keptKey? = none ∧ compileFrom started grouped rest = .ok text) ∨
      ∃ key tail, clause.keptKey? = some key ∧ clause.check key = .ok () ∧
        compileFrom true (entersGroup grouped rest && !leavesGroup grouped rest) rest =
          .ok tail ∧
        text = joint started clause ++
          (if entersGroup grouped rest && !grouped then " (" else "") ++
          clause.text key ++ (if leavesGroup grouped rest then ")" else "") ++ tail := by
  cases kept : clause.keptKey? with
  | none =>
      rw [compileFrom_dropped kept] at compiled
      exact .inl ⟨rfl, compiled⟩
  | some key =>
      rw [compileFrom_kept kept] at compiled
      cases checked : clause.check key with
      | error fault =>
          rw [checked] at compiled
          cases compiled
      | ok _ =>
          rw [checked] at compiled
          cases compiledRest :
              compileFrom true (entersGroup grouped rest && !leavesGroup grouped rest) rest with
          | error fault =>
              rw [compiledRest] at compiled
              cases compiled
          | ok tail =>
              rw [compiledRest] at compiled
              cases compiled
              exact .inr ⟨key, tail, rfl, checked, rfl, rfl⟩

end OData.Filter
