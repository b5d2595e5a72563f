/-
# Values stay inside their literals

Whatever the values of a filter are, the server reads the expression as it was
meant: every value that is quoted comes back as one literal, in the order of the
clauses, the text ends outside literals, and each parenthesis is closed once. A
value with quotes, parentheses or words of the language in it therefore adds no
clause and ends no group.

Keys and operators are written as they are given, so nothing of the kind holds for
them; they are taken to hold no quote and no parenthesis.
-/

import OData.Proofs.Filter.Step
import OData.Proofs.Filter.Word

namespace OData.Filter

open OData.Filter.Symbol (Reads StandsApart Undelimited)

namespace Clause

/-- The literal that an operand is written as. -/
def operandTexts (clause : Clause) (value : Literal) : List String :=
  if clause.ignoresCase then [value.raw] else value.text?.toList

/-- The literals that a clause is written with: none when it drops out or shows no
values, and the text that is searched for when a search has a single value. -/
def quotedTexts (clause : Clause) : List String :=
  if clause.keptKey?.isSome && clause.showsValues then
    match clause.values with
    | [value] => if clause.isLike then [pattern value] else clause.operandTexts value
    | values => values.flatMap clause.operandTexts
  else []

/-- Parentheses around a text open and close once, and bring no literal with them. -/
theorem reads_wrappedIf (isWrapped : Bool) (opening : String) {inner : String}
    {texts : List String} (unquoted : '\'' ∉ opening.toList)
    (leads : ∀ depth, Symbol.nestAll depth (Symbol.plain opening) = some (depth + 1))
    (reads : ∀ depth, Reads depth inner texts depth) (depth : Nat) :
    Reads depth (wrappedIf isWrapped opening inner) texts depth := by
  cases isWrapped with
  | false => exact reads depth
  | true =>
      have opened := (reads (depth + 1)).behind unquoted (leads depth)
      have closing : Reads (depth + 1) ")" [] depth := Symbol.reads_plain (by decide) rfl
      simpa [wrappedIf] using opened.append closing (by decide)

theorem reads_lowerIf (ignoresCase : Bool) {text : String} {texts : List String}
    (reads : ∀ depth, Reads depth text texts depth) (depth : Nat) :
    Reads depth (lowerIf ignoresCase text) texts depth :=
  reads_wrappedIf ignoresCase _ (by decide) (fun _ => rfl) reads depth

theorem reads_operand (clause : Clause) (value : Literal) (depth : Nat) :
    Reads depth (clause.operand value) (clause.operandTexts value) depth := by
  unfold operand operandTexts
  split
  · exact reads_lowerIf true (fun depth => Symbol.reads_quote depth value.raw) depth
  · cases isText : value.text? with
    | some text =>
        rw [Literal.expression_of_text? isText]
        exact Symbol.reads_quote depth text
    | none => exact (Literal.isWord_expression isText).undelimited.reads depth

/-- Operands that are separated by commas are read one after another. -/
theorem reads_operandList (clause : Clause) (values : List Literal) (depth : Nat) :
    Reads depth (",".intercalate (values.map clause.operand))
      (values.flatMap clause.operandTexts) depth := by
  induction values with
  | nil => exact Symbol.reads_empty depth
  | cons value others ih =>
      cases others with
      | nil =>
          rw [List.flatMap_cons, List.flatMap_nil, List.append_nil]
          exact clause.reads_operand value depth
      | cons next more =>
          rw [List.map_cons, List.map_cons, String.intercalate_cons_cons, String.append_assoc,
            List.flatMap_cons]
          apply (clause.reads_operand value depth).append
          · exact Reads.behind ih (by decide) rfl
          · exact StandsApart.append_of_ne (by decide) (by decide) _

theorem standsApart_operands (clause : Clause) (operator : String) :
    StandsApart (clause.operands operator) := by
  unfold operands
  split
  · split
    · decide
    · split <;> exact StandsApart.append_of_ne (by decide) (by decide) _
    · rw [String.append_assoc]
      exact StandsApart.append_of_ne (by decide) (by decide) _
  · decide

theorem reads_operands {clause : Clause} {key : String} (kept : clause.keptKey? = some key)
    (depth : Nat) :
    Reads depth (clause.operands clause.relation.operator) clause.quotedTexts depth := by
  rw [operands, quotedTexts, relation_showsValues, relation_isLike, kept, Option.isSome_some,
    Bool.true_and]
  cases clause.showsValues with
  | false => exact Symbol.reads_empty depth
  | true =>
      rw [if_pos rfl, if_pos rfl]
      cases clause.values with
      | nil => exact Symbol.reads_empty depth
      | cons first rest =>
          cases rest with
          | nil =>
              cases clause.isLike with
              | false => exact (clause.reads_operand first depth).behind (by decide) rfl
              | true =>
                  have quoted (depth : Nat) := Symbol.reads_quote depth (pattern first)
                  exact (reads_lowerIf clause.ignoresCase quoted depth).behind (by decide) rfl
          | cons second others =>
              exact reads_wrappedIf true " (" (by decide) (fun _ => rfl)
                (clause.reads_operandList (first :: second :: others)) depth

theorem undelimited_token {operator : String} (free : Undelimited operator) :
    Undelimited (token operator) := by
  unfold token
  split <;> first | decide | exact free

/-- The operator of a clause is written without delimiters when it was given so. -/
theorem undelimited_relation {clause : Clause} (free : Undelimited clause.operator) :
    Undelimited clause.relation.operator := by
  have written := clause.relation_operator_mem
  simp only [List.mem_cons, List.not_mem_nil, or_false] at written
  rcases written with same | same | same | same | same
  · exact same ▸ free
  all_goals rw [same]; decide

theorem reads_bareText {clause : Clause} {key : String} (kept : clause.keptKey? = some key)
    (freeKey : Undelimited key) (freeOperator : Undelimited clause.operator) (depth : Nat) :
    Reads depth (clause.bareText key) clause.quotedTexts depth := by
  have field : Reads depth (" " ++ lowerIf clause.ignoresCase key) [] depth :=
    (reads_lowerIf clause.ignoresCase freeKey.reads depth).behind (by decide) rfl
  have blank : Reads depth " " [] depth := Symbol.reads_plain (by decide) rfl
  have spaced := field.append blank (by decide)
  have written := undelimited_token (undelimited_relation freeOperator)
  have related := spaced.append (written.reads depth) written.standsApart
  exact related.append (reads_operands kept depth) (clause.standsApart_operands _)

/-- A clause is read as its literals, and all that it opens it closes. -/
theorem reads_text {clause : Clause} {key : String} (kept : clause.keptKey? = some key)
    (freeKey : Undelimited key) (freeOperator : Undelimited clause.operator) (depth : Nat) :
    Reads depth (clause.text key) clause.quotedTexts depth := by
  rw [text_eq]
  apply reads_wrappedIf _ _ (by decide) (fun _ => rfl)
  apply reads_wrappedIf _ _ (by decide) (fun _ => rfl)
  exact reads_bareText kept freeKey freeOperator

theorem standsApart_text {clause : Clause} (key : String) : StandsApart (clause.text key) := by
  have bare : StandsApart (clause.bareText key) := by
    unfold bareText
    simp only [String.append_assoc]
    exact StandsApart.append_of_ne (by decide) (by decide) _
  have wrapped {isWrapped : Bool} {opening inner : String} (isApart : StandsApart inner)
      (left : StandsApart opening) (some : opening.toList ≠ []) :
      StandsApart (wrappedIf isWrapped opening inner) := by
    cases isWrapped with
    | false => exact isApart
    | true =>
        rw [wrappedIf, if_pos rfl, String.append_assoc]
        exact left.append_of_ne some _
  rw [text_eq]
  exact wrapped (wrapped bare (by decide) (by decide)) (by decide) (by decide)

theorem quotedTexts_dropped {clause : Clause} (dropped : clause.keptKey? = none) :
    clause.quotedTexts = [] := by
  rw [quotedTexts, dropped]
  rfl

end Clause

/-- A clause whose field and operator neither quote nor open or close anything. -/
def Clause.IsUndelimited (clause : Clause) : Prop :=
  (∀ key ∈ clause.key, Undelimited key) ∧ Undelimited clause.operator

instance (clause : Clause) : Decidable clause.IsUndelimited :=
  inferInstanceAs (Decidable (_ ∧ _))

theorem standsApart_joint (started : Bool) (clause : Clause) :
    StandsApart (joint started clause) := by
  unfold joint
  split
  · split <;> decide
  · decide

theorem reads_joint (started : Bool) (clause : Clause) (depth : Nat) :
    Reads depth (joint started clause) [] depth := by
  unfold joint
  split
  · split <;> exact Symbol.reads_plain (by decide) rfl
  · exact Symbol.reads_empty depth

/-- The parenthesis in front of a clause is opened when its group begins there. -/
theorem reads_groupStart (grouped : Bool) (rest : List Clause) :
    Reads grouped.toNat (if entersGroup grouped rest && !grouped then " (" else "") []
      (entersGroup grouped rest).toNat := by
  unfold entersGroup
  cases grouped with
  | true => exact Symbol.reads_empty 1
  | false =>
      cases opensGroup rest with
      | true => exact Symbol.reads_plain (by decide) rfl
      | false => exact Symbol.reads_empty 0

/-- The parenthesis behind a clause is closed when its group ends there. -/
theorem reads_groupEnd (grouped : Bool) (rest : List Clause) :
    Reads (entersGroup grouped rest).toNat (if leavesGroup grouped rest then ")" else "") []
      (entersGroup grouped rest && !leavesGroup grouped rest).toNat := by
  unfold leavesGroup
  cases entersGroup grouped rest with
  | false => exact Symbol.reads_empty 0
  | true =>
      cases closesGroup rest with
      | true => exact Symbol.reads_plain (by decide) rfl
      | false => exact Symbol.reads_empty 1

/-- From any step on, what the compiler writes is read as the literals of the
clauses that are left, and it closes the group that is open and nothing else. -/
theorem reads_compileFrom {clauses : List Clause}
    (free : ∀ clause ∈ clauses, clause.IsUndelimited) {started grouped : Bool} {text : String}
    (compiled : compileFrom started grouped clauses = .ok text) :
    Reads grouped.toNat text (clauses.flatMap Clause.quotedTexts) 0 ∧ StandsApart text := by
  induction clauses generalizing started grouped text with
  | nil =>
      cases compiled
      cases grouped with
      | false => exact ⟨Symbol.reads_empty 0, by decide⟩
      | true => exact ⟨Symbol.reads_plain (by decide) rfl, by decide⟩
  | cons clause rest ih =>
      obtain ⟨freeClause, freeRest⟩ := List.forall_mem_cons.mp free
      rcases compileFrom_cons_ok compiled with ⟨dropped, compiledRest⟩ |
        ⟨key, tail, kept, -, compiledRest, rfl⟩
      · rw [List.flatMap_cons, Clause.quotedTexts_dropped dropped, List.nil_append]
        exact ih freeRest compiledRest
      · obtain ⟨readsTail, apart⟩ := ih freeRest compiledRest
        have freeKey := freeClause.1 key (Clause.key_of_keptKey? kept)
        have readsText := Clause.reads_text kept freeKey freeClause.2
        have opened := (reads_joint started clause _).append (reads_groupStart grouped rest)
          (by split <;> decide)
        have written := opened.append (readsText _) (Clause.standsApart_text key)
        have closed := written.append (reads_groupEnd grouped rest) (by split <;> decide)
        have whole := closed.append readsTail apart
        refine ⟨?_, ?_⟩
        · simpa using whole
        · have start : StandsApart
              (joint started clause ++
                (if entersGroup grouped rest && !grouped then " (" else "")) :=
            (standsApart_joint started clause).append (by split <;> decide)
          exact ((start.append (Clause.standsApart_text key)).append
            (by split <;> decide)).append apart

/-- However hostile the values are: the expression of a filter ends outside
literals, its literals are the texts of the values that are quoted, in order, and
its parentheses are balanced without one being closed before it was opened. -/
theorem values_stay_in_literals (clauses : List Clause)
    (free : ∀ clause ∈ clauses, clause.IsUndelimited) {text : String}
    (compiled : compile clauses = .ok text) :
    ∃ symbols, Symbol.ofText? text = some symbols ∧
      Symbol.literals symbols = clauses.flatMap Clause.quotedTexts ∧
      Symbol.nestAll 0 symbols = some 0 := by
  obtain ⟨⟨symbols, spells, literals, balanced⟩, -⟩ := reads_compileFrom free compiled
  exact ⟨symbols, spells.ofText?, literals, balanced⟩

/-- Values that try to leave their literals, in a group with a search. -/
theorem hostile_values_stay_in_literals :
    ∃ symbols, Symbol.ofText?
        " ( a eq 'x'') or (1 eq 1' or not(contains( tolower(b) , tolower('100 '')'))))" =
          some symbols ∧
      Symbol.literals symbols = ["x') or (1 eq 1", "100 ')"] ∧
      Symbol.nestAll 0 symbols = some 0 :=
  values_stay_in_literals
    [Clause.equal "a" (some (.text "x') or (1 eq 1")),
      { key := some "b", operator := "not like", values := [some (.text "100% ')")],
        joinsByOr := true, ignoresCase := true }]
    (by decide) rfl

end OData.Filter
