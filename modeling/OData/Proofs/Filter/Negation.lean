/-
# Negative operators

An operator is a negative form of another one when, on the same field with the same
values, it compiles to the text of the other one in `not`. A form of `not like` is
written as a search that is turned around, so it is the negative form of `like` and,
since no other operator is written as a search, of nothing else: `ilike` compares, but
it is left as it stands. Equality has a negative form as soon as there are several
values; a single value has a token for "unequal" of its own.
-/

import OData.Proofs.Filter.Runs

namespace OData.Filter

namespace Clause

/-- The clause, with the same field and values under another operator. -/
def withOperator (clause : Clause) (operator : String) : Clause :=
  { clause with operator := operator }

/-- Under an operator the clause is set: it compares, or its first value is not null. -/
def IsSetUnder (clause : Clause) (operator : String) : Prop :=
  isComparison operator = true ∨ clause.values.head? ≠ some none

end Clause

/-- The first filter compiles to what the second one compiles to, in `not`. -/
def Negates (negative positive : List Clause) : Prop :=
  ∃ text, compile positive = .ok text ∧ compile negative = .ok (" not(" ++ text ++ ")")

namespace Clause

variable {clause : Clause} {key operator : String}

/-! ## What a single clause compiles to -/

theorem isSkipped_withOperator (isSet : clause.IsSetUnder operator) :
    (clause.withOperator operator).isSkipped = false := by
  unfold isSkipped flag? withOperator
  rcases isSet with compares | notNull
  · rw [if_pos compares]
  · split
    · rename_i isNull
      split at isNull
      · cases isNull
      · exact absurd isNull notNull
    · rfl

/-- A clause with a field and values compiles to its text under every operator under
which it is set. -/
theorem compile_withOperator (isKey : clause.key = some key) (valued : clause.values ≠ [])
    (isSet : clause.IsSetUnder operator) :
    compile [clause.withOperator operator] = .ok ((clause.withOperator operator).text key) := by
  have isSkipped := isSkipped_withOperator isSet
  have written : (clause.withOperator operator).IsWritten :=
    isWritten_iff.mpr ⟨Option.isSome_of_eq_some isKey, isSkipped, fun _ => valued⟩
  have kept : (clause.withOperator operator).keptKey? = some key := by
    rw [keptKey?, isSkipped]
    exact isKey
  rw [compile_single written, alone, kept]
  rfl

/-- By itself a clause compiles to nothing or to its text on a field. -/
theorem compile_single_cases {text : String} (compiled : compile [clause] = .ok text) :
    text = "" ∨ ∃ key, text = clause.text key := by
  rcases compileFrom_cons_ok compiled with ⟨-, dropped⟩ | ⟨key, tail, -, -, behind, rfl⟩
  · exact .inl (Except.ok.inj dropped).symm
  · refine .inr ⟨key, ?_⟩
    have ends : tail = "" := (Except.ok.inj behind).symm
    simp [ends, entersGroup, leavesGroup, opensGroup, joint]

/-- Only `like` is written as a search with nothing in front of it. -/
theorem operator_of_text_eq {text : String} (begins : clause.text key = "contains(" ++ text) :
    clause.operator = "like" := by
  have first := congrArg (fun written => written.toList.head?) begins
  rw [text_eq] at first
  cases negated : clause.relation.negated with
  | true => simp [negated, wrappedIf] at first
  | false =>
      cases search : clause.isLike with
      | false => simp [negated, search, wrappedIf, bareText] at first
      | true =>
          rw [isLike, Bool.or_eq_true, beq_iff_eq] at search
          rcases search with isLike | notLike
          · exact isLike
          · rw [relation_eq, if_pos notLike] at negated
            cases negated

/-! ## Turned around -/

/-- When one operator is written as another one that is turned around, the clause under
it is written as the other one in `not`. -/
theorem text_turned {negative positive : String} (key : String)
    (plain : (clause.withOperator positive).relation.negated = false)
    (turned : (clause.withOperator negative).relation =
      { (clause.withOperator positive).relation with negated := true }) :
    (clause.withOperator negative).text key =
      " not(" ++ (clause.withOperator positive).text key ++ ")" := by
  have sameSearch : (clause.withOperator negative).isLike =
      (clause.withOperator positive).isLike := by
    rw [← relation_isLike, ← relation_isLike, turned]
  have sameBare : (clause.withOperator negative).bareText key =
      (clause.withOperator positive).bareText key := by
    rw [bareText, bareText, turned]
    rfl
  rw [text_eq, text_eq, plain, turned, sameSearch, sameBare]
  rfl

/-- How an operator that compares is written: whether there are several values is all
that it depends on. -/
theorem relation_withOperator (clause : Clause) (compares : isComparison operator = true) :
    (clause.withOperator operator).relation =
      if isNotLike operator then ⟨"like", true⟩
      else if clause.hasSeveral && operator == "=" then ⟨"in", false⟩
      else if clause.hasSeveral && (operator == "<>" || operator == "!=") then ⟨"in", true⟩
      else Relation.withoutNotNull ⟨operator, false⟩ :=
  @relation_of_isComparison (clause.withOperator operator) compares

theorem relation_like (clause : Clause) :
    (clause.withOperator "like").relation = ⟨"like", false⟩ := by
  rw [relation_withOperator clause (by decide)]
  cases clause.hasSeveral <;> decide

theorem text_like (clause : Clause) (key : String) :
    (clause.withOperator "like").text key =
      "contains(" ++ ((clause.withOperator "like").bareText key ++ ")") := by
  rw [text_eq, ← relation_isLike, relation_like, ← String.append_assoc]
  rfl

/-- A form of `not like` is `like`, turned around. -/
theorem text_notLike (clause : Clause) (key : String) (notLike : isNotLike operator = true) :
    (clause.withOperator operator).text key =
      " not(" ++ (clause.withOperator "like").text key ++ ")" := by
  have like := relation_like clause
  apply text_turned
  · rw [like]
  · rw [like, relation_eq, if_pos (show isNotLike (clause.withOperator operator).operator = true
      from notLike)]

/-- The operators for "unequal". -/
def unequalOperators : List String := ["<>", "!="]

/-- With several values, to be unequal is membership, turned around. -/
theorem text_unequal_several (key : String) (several : 2 ≤ clause.values.length)
    (unequal : operator ∈ unequalOperators) :
    (clause.withOperator operator).text key =
      " not(" ++ (clause.withOperator "=").text key ++ ")" := by
  have many : clause.hasSeveral = true := decide_eq_true several
  have equality : (clause.withOperator "=").relation = ⟨"in", false⟩ := by
    rw [relation_withOperator clause (by decide), many]
    decide
  have inequality : (clause.withOperator operator).relation = ⟨"in", true⟩ := by
    revert operator
    simp only [unequalOperators, List.forall_mem_cons, List.not_mem_nil, false_imp_iff,
      implies_true, and_true]
    constructor
    all_goals
      rw [relation_withOperator clause (by decide), many]
      decide
  apply text_turned
  · rw [equality]
  · rw [equality, inequality]

/-- A single value is compared by a token, which is as long for "unequal" as for
equality. -/
theorem length_text_single (key : String) {value : Literal} (single : clause.values = [value])
    (equality : operator ∈ "=" :: unequalOperators) :
    ((clause.withOperator operator).text key).length =
      (" " ++ lowerIf clause.ignoresCase key ++ " ").length + 2 +
        (" " ++ clause.operand value).length := by
  have one : clause.hasSeveral = false := by rw [hasSeveral, single]; rfl
  have facts : ∀ other ∈ "=" :: unequalOperators,
      isComparison other = true ∧ (other == "like") = false ∧ (token other).length = 2 ∧
        isNotLike other = false ∧ Relation.withoutNotNull ⟨other, false⟩ = ⟨other, false⟩ := by
    decide
  obtain ⟨compares, noSearch, tokenLength, noNotLike, noTest⟩ := facts operator equality
  have relation : (clause.withOperator operator).relation = ⟨operator, false⟩ := by
    rw [relation_withOperator clause compares, noNotLike, one, noTest]
    rfl
  have operands : (clause.withOperator operator).operands operator =
      " " ++ clause.operand value :=
    @operands_single (clause.withOperator operator) operator value single
      (by rw [compares, Bool.true_or]) (ne_of_beq_false noSearch)
  have bare : (clause.withOperator operator).text key =
      " " ++ lowerIf clause.ignoresCase key ++ " " ++ token operator ++
        (" " ++ clause.operand value) := by
    rw [text_eq, ← relation_isLike, relation, noSearch, ← operands, wrappedIf, wrappedIf,
      bareText, relation]
    rfl
  rw [bare, String.length_append, String.length_append, tokenLength]

/-! ## Negative forms -/

theorem negation_inj {first second : String} :
    " not(" ++ first ++ ")" = " not(" ++ second ++ ")" ↔ first = second := by
  rw [String.append_left_inj, String.append_right_inj]

/-- Whatever compiles to the text of `like` has the operator. -/
theorem operator_of_compile_like {other : Clause}
    (compiled : compile [other] = .ok ((clause.withOperator "like").text key)) :
    other.operator = "like" := by
  rw [text_like] at compiled
  rcases compile_single_cases compiled with isEmpty | ⟨otherKey, begins⟩
  · have lengths := congrArg String.length isEmpty
    simp at lengths
  · exact operator_of_text_eq begins.symm

/-- A form of `not like` is the negative form of `like`, and of no other operator. -/
theorem negates_notLike_iff (isKey : clause.key = some key) (valued : clause.values ≠ [])
    {negative : String} (notLike : isNotLike negative = true)
    (isSet : clause.IsSetUnder negative) (positive : String) :
    Negates [clause.withOperator negative] [clause.withOperator positive] ↔
      positive = "like" := by
  have compiled := compile_withOperator isKey valued isSet
  rw [text_notLike clause key notLike] at compiled
  constructor
  · rintro ⟨text, positiveCompiled, negativeCompiled⟩
    have search := negation_inj.mp (Except.ok.inj (compiled.symm.trans negativeCompiled))
    rw [← search] at positiveCompiled
    exact operator_of_compile_like positiveCompiled
  · rintro rfl
    have isSetLike : clause.IsSetUnder "like" := .inl (by decide)
    exact ⟨_, compile_withOperator isKey valued isSetLike, compiled⟩

/-- An operator for "unequal" is the negative form of equality when there are several
values, and only then. -/
theorem negates_unequal_iff (isKey : clause.key = some key) (valued : clause.values ≠ [])
    {negative : String} (unequal : negative ∈ unequalOperators) :
    Negates [clause.withOperator negative] [clause.withOperator "="] ↔
      2 ≤ clause.values.length := by
  have isSet : clause.IsSetUnder negative := .inl
    ((by decide : ∀ other ∈ unequalOperators, isComparison other = true) negative unequal)
  have isSetEqual : clause.IsSetUnder "=" := .inl (by decide)
  have compiled := compile_withOperator isKey valued isSet
  have equality := compile_withOperator isKey valued isSetEqual
  constructor
  · rintro ⟨text, positiveCompiled, negativeCompiled⟩
    obtain rfl := Except.ok.inj (equality.symm.trans positiveCompiled)
    by_contra single
    have length : clause.values.length = 1 := by
      have some := List.length_pos_of_ne_nil valued
      omega
    obtain ⟨value, values⟩ := List.length_eq_one_iff.mp length
    -- Both texts are as long, so one can not be the other with something around it.
    have texts := congrArg String.length
      (Except.ok.inj (compiled.symm.trans negativeCompiled))
    rw [String.length_append, String.length_append,
      length_text_single key values List.mem_cons_self,
      length_text_single key values (List.mem_cons_of_mem _ unequal)] at texts
    have around : " not(".length = 5 := by decide
    omega
  · intro several
    rw [text_unequal_several key several unequal] at compiled
    exact ⟨_, equality, compiled⟩

/-- On a field with values, a form of `not like` is the negative form of `like` and of no
other operator, and an operator for "unequal" is the negative form of equality exactly if
there are several values. -/
theorem negative_operators {clause : Clause} {key : String} (isKey : clause.key = some key)
    (valued : clause.values ≠ []) :
    (∀ negative positive, isNotLike negative = true → clause.IsSetUnder negative →
      (Negates [clause.withOperator negative] [clause.withOperator positive] ↔
        positive = "like")) ∧
    ∀ negative ∈ unequalOperators,
      (Negates [clause.withOperator negative] [clause.withOperator "="] ↔
        2 ≤ clause.values.length) :=
  ⟨fun _ positive notLike isSet => negates_notLike_iff isKey valued notLike isSet positive,
    fun _ unequal => negates_unequal_iff isKey valued unequal⟩

/-- A name that holds an x. -/
def named : Clause := like "name" "x"

/-- The negative form of `ilike` is that of `like`; `ilike` itself is left as it stands. -/
theorem not_ilike_negates_like_only :
    named.key = some "name" ∧ named.values ≠ [] ∧
      isNotLike "not ilike" = true ∧ named.IsSetUnder "not ilike" ∧
      compile [named.withOperator "like"] = .ok "contains( name , 'x')" ∧
      compile [named.withOperator "ilike"] = .ok " name ilike 'x'" ∧
      compile [named.withOperator "not ilike"] = .ok " not(contains( name , 'x'))" ∧
      Negates [named.withOperator "not ilike"] [named.withOperator "like"] ∧
      ¬ Negates [named.withOperator "not ilike"] [named.withOperator "ilike"] ∧
      ¬ Negates [named.withOperator "<>"] [named.withOperator "="] := by
  have valued : named.values ≠ [] := List.cons_ne_nil _ _
  have isNegative : isNotLike "not ilike" = true := by decide
  have isSet : named.IsSetUnder "not ilike" := .inl (by decide)
  obtain ⟨searches, unequal⟩ :=
    @negative_operators named "name" rfl valued
  refine ⟨rfl, valued, isNegative, isSet, rfl, rfl, rfl, ?_, ?_, ?_⟩
  · exact (searches _ _ isNegative isSet).mpr rfl
  · intro negates
    exact absurd ((searches _ _ isNegative isSet).mp negates) (by decide)
  · intro negates
    exact absurd ((unequal _ (by decide)).mp negates) (by decide)

end Clause

end OData.Filter
