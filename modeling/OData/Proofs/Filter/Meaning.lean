/-
# The meaning of a filter

What clauses say, with no expression in between: every clause compares its field
with its values, a clause that joins by `or` is an alternative to the clause before
it, and all runs of alternatives have to hold. This is the formula that an
expression ought to be read as, and evaluating it agrees with going through the
clauses by their flags.

Which records satisfy a single comparison is left open; nothing here depends on it.
-/

import OData.Proofs.Filter.Grammar
import OData.Proofs.Filter.Runs

namespace OData.Filter

/-! ## Clauses -/

/-- A literal as an operand. -/
def Literal.formula (value : Literal) : Formula :=
  match value.text? with
  | some text => .quoted text
  | none => .word value.expression

/-- The comparison that an operator with one value asks for. -/
def Comparator.ofOperator? (operator : String) : Option Comparator :=
  match operator with
  | "=" => some .equal
  | "<>" | "!=" => some .unequal
  | ">" => some .greater
  | ">=" => some .greaterOrEqual
  | "<" => some .less
  | "<=" => some .lessOrEqual
  | _ => none

namespace Clause

def lowered (clause : Clause) (formula : Formula) : Formula :=
  if clause.ignoresCase then .call "tolower" [formula] else formula

/-- A value as an operand; without case it is compared as a text. -/
def operandFormula (clause : Clause) (value : Literal) : Formula :=
  if clause.ignoresCase then clause.lowered (.quoted value.raw) else value.formula

/-- The clause's own comparison. Several values are all looked at: one of them is
equal, or none is. -/
def formula (clause : Clause) : Formula :=
  let field := clause.lowered (.word (clause.key.getD ""))
  match Comparator.ofOperator? clause.operator, clause.values with
  | some comparator, [value] => .comparison comparator field (clause.operandFormula value)
  | some .equal, values => .comparison .oneOf field (.list (values.map clause.operandFormula))
  | some _, values =>
      .not (.comparison .oneOf field (.list (values.map clause.operandFormula)))
  | none, values =>
      let search :=
        Formula.call "contains"
          (field :: values.map fun value => clause.lowered (.quoted (pattern value)))
      if clause.operator = "like" then search else .not search

/-- The clause has a word for its field, and as many values as its operator takes. -/
def IsCanonical (clause : Clause) : Prop :=
  (∃ key ∈ clause.key, IsWord key) ∧
    (clause.operator ∈ ["=", "<>", "!=", ">", "<", ">=", "<=", "like", "not like", "not ilike"] ∧
        clause.values.length = 1 ∨
      clause.operator ∈ ["=", "<>", "!="] ∧ 2 ≤ clause.values.length)

instance (clause : Clause) : Decidable clause.IsCanonical :=
  inferInstanceAs (Decidable (_ ∧ _))

end Clause

/-- What a run says: one of its clauses. -/
def runFormula (run : List Clause) : Formula := Formula.anyOf (run.map Clause.formula)

/-- What the clauses say: all of their runs. -/
def meaning (clauses : List Clause) : Formula := Formula.allOf ((runs clauses).map runFormula)

/-! ## Evaluation -/

namespace Formula

mutual

/-- The formula holds, given which of its comparisons and searches do. -/
def holds (atom : Formula → Bool) : Formula → Bool
  | .not formula => !formula.holds atom
  | .all formulas => allHold atom formulas
  | .any formulas => anyHolds atom formulas
  | .word text => atom (.word text)
  | .quoted text => atom (.quoted text)
  | .call name arguments => atom (.call name arguments)
  | .list items => atom (.list items)
  | .comparison comparator left right => atom (.comparison comparator left right)

def allHold (atom : Formula → Bool) : List Formula → Bool
  | [] => true
  | formula :: rest => formula.holds atom && allHold atom rest

def anyHolds (atom : Formula → Bool) : List Formula → Bool
  | [] => false
  | formula :: rest => formula.holds atom || anyHolds atom rest

end

theorem allHold_eq (atom : Formula → Bool) (formulas : List Formula) :
    allHold atom formulas = formulas.all (holds atom) := by
  induction formulas with
  | nil => rw [allHold, List.all_nil]
  | cons formula rest ih => rw [allHold, List.all_cons, ih]

theorem anyHolds_eq (atom : Formula → Bool) (formulas : List Formula) :
    anyHolds atom formulas = formulas.any (holds atom) := by
  induction formulas with
  | nil => rw [anyHolds, List.any_nil]
  | cons formula rest ih => rw [anyHolds, List.any_cons, ih]

theorem holds_allOf (atom : Formula → Bool) (formulas : List Formula) :
    (allOf formulas).holds atom = formulas.all (holds atom) := by
  unfold allOf
  split
  · simp
  · rw [holds, allHold_eq]

theorem holds_anyOf (atom : Formula → Bool) (formulas : List Formula) :
    (anyOf formulas).holds atom = formulas.any (holds atom) := by
  unfold anyOf
  split
  · simp
  · rw [holds, anyHolds_eq]

end Formula

/-- The clauses hold behind a run of which it is known whether it does: an
alternative adds to it, and any other clause begins the next run. -/
def holdFrom (holds : Clause → Bool) (current : Bool) : List Clause → Bool
  | [] => current
  | clause :: rest =>
      if clause.joinsByOr then holdFrom holds (current || holds clause) rest
      else current && holdFrom holds (holds clause) rest

/-- The clauses hold, each joined to those before it by its own flag. -/
def holdByFlags (holds : Clause → Bool) : List Clause → Bool
  | [] => true
  | clause :: rest => holdFrom holds (holds clause) rest

theorem holdFrom_run (holds : Clause → Bool) {more others : List Clause}
    (joined : ∀ next ∈ more, next.joinsByOr = true) (ends : opensGroup others = false)
    (current : Bool) :
    holdFrom holds current (more ++ others) =
      ((current || more.any holds) && holdByFlags holds others) := by
  induction more generalizing current with
  | nil =>
      rw [List.nil_append, List.any_nil, Bool.or_false]
      cases others with
      | nil => exact (Bool.and_true current).symm
      | cons other rest =>
          have byAnd : other.joinsByOr = false := ends
          rw [holdFrom, byAnd]
          rfl
  | cons next more ih =>
      obtain ⟨nextJoined, moreJoined⟩ := List.forall_mem_cons.mp joined
      rw [List.cons_append, holdFrom, nextJoined, if_pos rfl, ih moreJoined, List.any_cons,
        Bool.or_assoc]

/-- The meaning of clauses holds exactly when they hold by their flags, whichever
comparisons and searches do. -/
theorem meaning_holds (atom : Formula → Bool) (clauses : List Clause) :
    (meaning clauses).holds atom =
      holdByFlags (fun clause => clause.formula.holds atom) clauses := by
  rw [meaning, Formula.holds_allOf, List.all_map]
  induction clauses using runs_induction with
  | nil => rfl
  | run clause more others joined ends ih =>
      rw [runs_append joined ends, List.all_cons, ih, List.cons_append, holdByFlags,
        holdFrom_run _ joined ends, Function.comp_apply, runFormula, Formula.holds_anyOf,
        List.any_map]
      rfl

end OData.Filter
