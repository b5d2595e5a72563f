/-
# Filter expressions

Compiling clauses into one boolean expression of OData. A clause joins those
before it by its own flag. A run of clauses joined by `or` stands in parentheses,
which are opened when the clause after the present one, kept or not, joins by `or`
and are closed when it does not.
-/

import OData.Filter.Clause
import OData.Text.Character

namespace OData.Filter

/-- The token of an operator. Unknown operators stand for themselves; `like`
leaves only the comma between its two arguments. -/
def token (operator : String) : String :=
  match operator with
  | "=" => "eq"
  | "!=" | "<>" => "ne"
  | ">" => "gt"
  | ">=" => "ge"
  | "<" => "lt"
  | "<=" => "le"
  | "&&" => "and"
  | "||" => "or"
  | "like" => ","
  | "is null" => "eq null"
  | "is not null" => "ne null"
  | other => other

/-- An operator as it is written, and whether the clause is turned around by a
`not` of its own. -/
structure Relation where
  operator : String
  negated : Bool
  deriving DecidableEq

namespace Relation

/-- Equality with several values is membership. -/
def withSeveral (relation : Relation) : Relation :=
  if relation.operator == "=" then { relation with operator := "in" }
  else if relation.operator == "<>" || relation.operator == "!=" then ⟨"in", true⟩
  else relation

/-- The negative forms of `like` are its negation. -/
def withoutNotLike (relation : Relation) : Relation :=
  if Text.loweredIs relation.operator "not like" || Text.loweredIs relation.operator "not ilike"
  then ⟨"like", true⟩
  else relation

/-- The two tests for null are each other's negation. -/
def withoutNotNull (relation : Relation) : Relation :=
  if relation.negated && Text.loweredIs relation.operator "is null" then ⟨"is not null", false⟩
  else if relation.negated && Text.loweredIs relation.operator "is not null" then
    ⟨"is null", false⟩
  else relation

end Relation

namespace Clause

/-- The clause compares with more than one value. -/
def hasSeveral (clause : Clause) : Bool := 2 ≤ clause.values.length

/-- The operator that is written for a clause. -/
def relation (clause : Clause) : Relation :=
  let given : Relation := ⟨clause.operator, clause.isInverted⟩
  (if clause.hasSeveral then given.withSeveral else given).withoutNotLike.withoutNotNull

/-- The argument without case when case does not count. -/
def lowerIf (ignoresCase : Bool) (text : String) : String :=
  if ignoresCase then "tolower(" ++ text ++ ")" else text

/-- A literal as an operand. Without case, it is quoted whatever it is. -/
def operand (clause : Clause) (value : Literal) : String :=
  if clause.ignoresCase then lowerIf true (Text.quote value.raw) else value.expression

/-- The text that `like` looks for: the wildcards are implied. -/
def pattern (value : Literal) : String :=
  String.ofList (value.raw.toList.filter (· != '%'))

/-- The operands after the operator of a clause. -/
def operands (clause : Clause) (operator : String) : String :=
  if isComparison operator || operator == "in" then
    match clause.values with
    | [] => ""
    | [value] =>
        if operator == "like" then
          " " ++ lowerIf clause.ignoresCase (Text.quote (pattern value))
        else " " ++ clause.operand value
    | values => " (" ++ ",".intercalate (values.map clause.operand) ++ ")"
  else ""

/-- Text of a clause on a field by itself. -/
def text (clause : Clause) (key : String) : String :=
  let relation := clause.relation
  let isLike := relation.operator == "like"
  (if relation.negated then " not(" else "") ++
    (if isLike then "contains(" else "") ++
    " " ++ lowerIf clause.ignoresCase key ++
    " " ++ token relation.operator ++
    clause.operands relation.operator ++
    (if isLike then ")" else "") ++
    (if relation.negated then ")" else "")

/-- The field of a clause that is kept. -/
def keptKey? (clause : Clause) : Option String :=
  if clause.isSkipped then none else clause.key

/-- A comparison needs something to compare with. -/
def check (clause : Clause) (key : String) : Except Fault Unit :=
  if isComparison clause.operator && clause.values.isEmpty then
    .error (.filter (.missingValue clause.operator key))
  else .ok ()

end Clause

/-- Text that joins a clause to those before it. -/
def joint (started : Bool) (clause : Clause) : String :=
  if started then if clause.joinsByOr then " or" else " and" else ""

/-- The clause after the present one joins by `or`. -/
def opensGroup (rest : List Clause) : Bool := rest.head?.any Clause.joinsByOr

/-- The clause after the present one joins by `and`. -/
def closesGroup (rest : List Clause) : Bool := rest.head?.any fun next => !next.joinsByOr

/-- The expression of the clauses that are left, after a clause was written
(`started`) and inside a group (`grouped`). -/
def compileFrom : (started grouped : Bool) → List Clause → Except Fault String
  | _, grouped, [] => .ok (if grouped then ")" else "")
  | started, grouped, clause :: rest =>
      match clause.keptKey? with
      | none => compileFrom started grouped rest
      | some key => do
          clause.check key
          let inside := grouped || opensGroup rest
          let closes := inside && closesGroup rest
          let tail ← compileFrom true (inside && !closes) rest
          return joint started clause ++ (if inside && !grouped then " (" else "") ++
            clause.text key ++ (if closes then ")" else "") ++ tail

/-- Compile clauses into one expression, empty when none is kept. -/
def compile (clauses : List Clause) : Except Fault String := compileFrom false false clauses

end OData.Filter
