/-
# Operands of comparisons

A comparison asks for one literal, a search for one literal inside `contains`, and a
membership for a list of literals. Which of them a clause is written with, and what
comes behind, is decided in different places of the compiler: the number of values
makes a list of them, the operator as it is given decides whether they are needed at
all, and the operator up to case decides whether the clause is a search. A filter is
refused only when a clause needs values as it is given and has none; in every filter
that is not, a clause has the operands it asks for exactly if the number of its values
suits its operator.
-/

import OData.Proofs.Filter.Groups
import OData.Proofs.Filter.Pieces

namespace OData.Filter

/-! ## What is asked for -/

/-- A literal: one word, or a text in quotes, be it in `tolower`. -/
inductive IsLiteral : String → Prop
  | word {text : String} (isWord : IsWord text) : IsLiteral text
  | quoted (text : String) : IsLiteral (Text.quote text)
  | lowered (text : String) : IsLiteral ("tolower(" ++ Text.quote text ++ ")")

/-- The words that compare a field with one literal. -/
def comparisonWords : List String := ["eq", "ne", "gt", "ge", "lt", "le"]

/-- What may come behind a field and the blank after it, outside of a search and inside
one. -/
inductive HasOperands : (inSearch : Bool) → String → Prop
  | comparison {word literal : String} (isWord : word ∈ comparisonWords)
      (isLiteral : IsLiteral literal) : HasOperands false (word ++ " " ++ literal)
  | membership {literals : List String} (some : literals ≠ [])
      (areLiterals : ∀ literal ∈ literals, IsLiteral literal) :
      HasOperands false ("in (" ++ ",".intercalate literals ++ ")")
  | search {literal : String} (isLiteral : IsLiteral literal) :
      HasOperands true (", " ++ literal)

/-- The operator is a comparison, up to case. -/
def comparesIgnoringCase (operator : String) : Bool :=
  comparisonOperators.any (Text.loweredIs operator)

/-- The operators that compare with one literal by a word. -/
def wordOperators : List String := ["=", "<>", "!=", ">", "<", ">=", "<="]

/-- The operators that several values make a membership. -/
def listOperators : List String := ["=", "<>", "!="]

namespace Clause

/-- The number of values suits the operator. -/
def IsSupplied (clause : Clause) : Prop :=
  (clause.isLike = true ∨ clause.operator ∈ wordOperators) ∧ clause.values.length = 1 ∨
    clause.operator ∈ listOperators ∧ 2 ≤ clause.values.length

instance (clause : Clause) : Decidable clause.IsSupplied :=
  inferInstanceAs (Decidable (_ ∨ _))

/-- What is written behind the field of a clause. -/
def predicate (clause : Clause) : String :=
  token clause.relation.operator ++ clause.operands clause.relation.operator

end Clause

/-! ## Reading operands -/

theorem IsLiteral.not_parenthesized (text : String) : ¬ IsLiteral ("(" ++ text) := by
  intro isLiteral
  generalize written : "(" ++ text = literal at isLiteral
  have begins : literal.toList.head? = some '(' := by rw [← written]; simp
  cases isLiteral with
  | word isWord =>
      obtain ⟨-, chars⟩ := isWord
      exact absurd (chars '(' (List.mem_of_head? begins)) (by decide)
  | quoted => simp [Text.quote] at begins
  | lowered => simp at begins

/-- Outside of a search, a word of two letters comes first. -/
theorem HasOperands.exists_word {text : String} (has : HasOperands false text) :
    ∃ word ∈ "in" :: comparisonWords, ∃ operand, text = word ++ " " ++ operand ∧
      (word ∈ comparisonWords → IsLiteral operand) := by
  cases has with
  | comparison isWord isLiteral =>
      exact ⟨_, List.mem_cons_of_mem _ isWord, _, rfl, fun _ => isLiteral⟩
  | @membership literals _ _ =>
      have list : "in (" ++ ",".intercalate literals ++ ")" =
          "in" ++ " " ++ ("(" ++ (",".intercalate literals ++ ")")) := by
        rw [← String.append_assoc, ← String.append_assoc]
        rfl
      exact ⟨"in", List.mem_cons_self, _, list, fun isWord => absurd isWord (by decide)⟩

theorem length_operandWord {word : String} (isWord : word ∈ "in" :: comparisonWords) :
    word.toList.length = 2 :=
  (by decide : ∀ word ∈ "in" :: comparisonWords, word.toList.length = 2) word isWord

/-- The blank behind the word tells that there is a word of two letters. -/
theorem HasOperands.blank {text : String} (has : HasOperands false text) :
    text.toList[2]? = some ' ' := by
  obtain ⟨word, isWord, operand, rfl, -⟩ := has.exists_word
  have length := length_operandWord isWord
  rw [String.append_assoc, String.toList_append,
    List.getElem?_append_right (by omega), length]
  simp

theorem hasOperands_comparison_iff {word operand : String} (isWord : word ∈ comparisonWords) :
    HasOperands false (word ++ operand) ↔
      ∃ literal, IsLiteral literal ∧ operand = " " ++ literal := by
  constructor
  · intro has
    obtain ⟨other, isOther, literal, written, isLiteral⟩ := has.exists_word
    have lengths : word.toList.length = other.toList.length :=
      (length_operandWord (List.mem_cons_of_mem _ isWord)).trans (length_operandWord isOther).symm
    rw [String.append_assoc, ← String.toList_inj, String.toList_append,
      @String.toList_append other] at written
    obtain ⟨sameWord, sameOperand⟩ := List.append_inj written lengths
    rw [String.toList_inj] at sameWord sameOperand
    exact ⟨literal, isLiteral (sameWord ▸ isWord), sameOperand⟩
  · rintro ⟨literal, isLiteral, rfl⟩
    rw [← String.append_assoc]
    exact .comparison isWord isLiteral

theorem hasOperands_search_iff {operand : String} :
    HasOperands true ("," ++ operand) ↔
      ∃ literal, IsLiteral literal ∧ operand = " " ++ literal := by
  have blank (literal : String) : ", " ++ literal = "," ++ (" " ++ literal) := by
    rw [← String.append_assoc]
    rfl
  constructor
  · intro has
    generalize written : "," ++ operand = text at has
    cases has with
    | search isLiteral =>
        rw [blank] at written
        exact ⟨_, isLiteral, (String.append_right_inj _).mp written⟩
  · rintro ⟨literal, isLiteral, rfl⟩
    rw [← blank]
    exact .search isLiteral

namespace Clause

variable {clause : Clause}

/-! ## Written operands -/

theorem isLiteral_lowerIf (ignoresCase : Bool) (text : String) :
    IsLiteral (lowerIf ignoresCase (Text.quote text)) := by
  cases ignoresCase with
  | false => exact .quoted text
  | true => exact .lowered text

theorem isLiteral_operand (clause : Clause) (value : Literal) :
    IsLiteral (clause.operand value) := by
  unfold operand
  split
  · exact isLiteral_lowerIf true value.raw
  · cases isText : value.text? with
    | none => exact .word (Literal.isWord_expression isText)
    | some text =>
        rw [Literal.expression_of_text? isText]
        exact .quoted text

/-- One value is one literal, and no other number of values is: none is nothing, and
several are in parentheses, which no literal begins with. -/
theorem operands_isLiteral_iff {operator : String}
    (shows : (isComparison operator || operator == "in") = true) :
    (∃ literal, IsLiteral literal ∧ clause.operands operator = " " ++ literal) ↔
      clause.values.length = 1 := by
  constructor
  · rintro ⟨literal, isLiteral, written⟩
    by_contra notOne
    rcases Nat.lt_or_ge clause.values.length 2 with few | several
    · have none : clause.values = [] := List.length_eq_zero_iff.mp (by omega)
      rw [operands, if_pos shows, none] at written
      have lengths := congrArg (·.toList.length) written
      simp at lengths
    · have list : " (" ++ ",".intercalate (clause.values.map clause.operand) ++ ")" =
          " " ++ ("(" ++ (",".intercalate (clause.values.map clause.operand) ++ ")")) := by
        rw [← String.append_assoc, ← String.append_assoc]
        rfl
      rw [operands_several several shows, list] at written
      have parenthesized := (String.append_right_inj _).mp written
      exact IsLiteral.not_parenthesized _ (parenthesized ▸ isLiteral)
  · intro length
    obtain ⟨value, values⟩ := List.length_eq_one_iff.mp length
    by_cases search : operator = "like"
    · rw [search, operands_search values]
      exact ⟨_, isLiteral_lowerIf _ _, rfl⟩
    · rw [operands_single values shows search]
      exact ⟨_, clause.isLiteral_operand value, rfl⟩

/-! ## Written operators -/

/-- An operator is lowered to one word at most. -/
theorem loweredIs_unique {operator word other : String}
    (isWord : Text.loweredIs operator word = true)
    (isOther : Text.loweredIs operator other = true) : word = other :=
  String.toList_inj.mp ((eq_of_beq isWord).symm.trans (eq_of_beq isOther))

/-- Lowering keeps blanks. -/
theorem blank_mem_of_loweredIs {operator word : String}
    (isWord : Text.loweredIs operator word = true) (blank : ' ' ∈ operator.toList) :
    ' ' ∈ word.toList := by
  rw [← eq_of_beq isWord]
  exact List.mem_map.mpr ⟨' ', blank, by decide⟩

theorem blank_mem_of_blank_mem_token {operator : String} (blank : ' ' ∈ (token operator).toList) :
    ' ' ∈ operator.toList := by
  unfold token at blank
  split at blank <;> first | exact absurd blank (by decide) | decide | exact blank

section OtherCase

variable (compares : comparesIgnoringCase clause.operator = true)
  (noSearch : clause.isLike = false)

include compares noSearch

/-- Up to case, a comparison that is no search is one word, and none of the words that the
compiler treats in a way of their own. -/
theorem exists_word_of_noSearch :
    ∃ word, Text.loweredIs clause.operator word = true ∧
      word ∉ ["in", "is null", "is not null"] ∧ ' ' ∉ word.toList := by
  obtain ⟨word, isWord, lowers⟩ := List.any_eq_true.mp compares
  have words : ∀ word ∈ comparisonOperators, word ∉ ["in", "is null", "is not null"] ∧
      (' ' ∈ word.toList → word = "not like" ∨ word = "not ilike") := by decide
  obtain ⟨isOther, blanks⟩ := words word isWord
  refine ⟨word, lowers, isOther, fun blank => ?_⟩
  -- The comparisons of two words are the forms of `not like`, which are searches.
  have noNotLike : isNotLike clause.operator = false := (Bool.or_eq_false_iff.mp noSearch).2
  rcases blanks blank with rfl | rfl
  · rw [isNotLike, lowers, Bool.true_or] at noNotLike
    cases noNotLike
  · rw [isNotLike, lowers, Bool.or_true] at noNotLike
    cases noNotLike

variable (otherCase : isComparison clause.operator = false)

include otherCase

theorem relation_operator_of_otherCase : clause.relation.operator = clause.operator := by
  obtain ⟨word, lowers, isOther, -⟩ := exists_word_of_noSearch compares noSearch
  have noNotLike : isNotLike clause.operator = false := (Bool.or_eq_false_iff.mp noSearch).2
  have noList : ∀ other ∈ listOperators, clause.operator ≠ other := by
    rintro other isList rfl
    exact absurd otherCase
      ((by decide : ∀ other ∈ listOperators, ¬ isComparison other = false) _ isList)
  have notEqual : clause.operator ≠ "=" := noList _ (by decide)
  have notUnequal : clause.operator ≠ "<>" ∧ clause.operator ≠ "!=" :=
    ⟨noList _ (by decide), noList _ (by decide)⟩
  rw [relation_eq, noNotLike]
  simp only [notEqual, notUnequal, beq_iff_eq, Bool.and_eq_true, Bool.or_eq_true, and_false,
    or_self, Bool.false_eq_true, if_false]
  rcases withoutNotNull_cases ⟨clause.operator, clause.isInverted⟩ with same | ⟨isTest, -⟩
  · rw [same]
  · rcases isTest with isNull | isNotNull
    · exact absurd (loweredIs_unique lowers isNull ▸ isOther) (by decide)
    · exact absurd (loweredIs_unique lowers isNotNull ▸ isOther) (by decide)

theorem showsValues_of_otherCase : clause.showsValues = false := by
  obtain ⟨word, lowers, isOther, -⟩ := exists_word_of_noSearch compares noSearch
  have noNotLike : isNotLike clause.operator = false := (Bool.or_eq_false_iff.mp noSearch).2
  have notIn : clause.operator ≠ "in" := by
    intro isIn
    have lowersToIn : Text.loweredIs clause.operator "in" = true := by rw [isIn]; decide
    exact absurd (loweredIs_unique lowers lowersToIn ▸ isOther) (by decide)
  rw [showsValues, otherCase, noNotLike, beq_false_of_ne notIn]
  rfl

/-- A comparison in another case is written as it is, as one word and without values,
unless it is a form of `not like`. -/
theorem predicate_of_otherCase :
    clause.predicate = token clause.operator ∧ ' ' ∉ clause.operator.toList := by
  constructor
  · rw [predicate, operands, relation_showsValues,
      showsValues_of_otherCase compares noSearch otherCase,
      relation_operator_of_otherCase compares noSearch otherCase]
    exact String.append_empty
  · obtain ⟨word, lowers, -, oneWord⟩ := exists_word_of_noSearch compares noSearch
    exact fun blank => oneWord (blank_mem_of_loweredIs lowers blank)

end OtherCase

/-- Only one comparison is no search and has no word. -/
theorem operator_cases (compares : isComparison clause.operator = true)
    (noSearch : clause.isLike = false) :
    clause.operator ∈ wordOperators ∨ clause.operator = "ilike" := by
  have cases : ∀ operator ∈ comparisonOperators,
      (operator == "like" || isNotLike operator) = true ∨ operator ∈ wordOperators ∨
        operator = "ilike" := by decide
  rcases cases _ (List.contains_iff_mem.mp compares) with search | isOther
  · exact absurd noSearch (by rw [isLike, search]; decide)
  · exact isOther

/-- Several values make a list operator a membership, and leave every other one. -/
theorem relation_operator_of_word (isWord : clause.operator ∈ wordOperators) :
    clause.relation.operator =
      if clause.hasSeveral && listOperators.contains clause.operator then "in"
      else clause.operator := by
  have written : ∀ operator ∈ wordOperators, isComparison operator = true ∧
      ∀ several : Bool,
        (if isNotLike operator then (⟨"like", true⟩ : Relation)
          else if several && operator == "=" then ⟨"in", false⟩
          else if several && (operator == "<>" || operator == "!=") then ⟨"in", true⟩
          else Relation.withoutNotNull ⟨operator, false⟩).operator =
        if several && listOperators.contains operator then "in" else operator := by decide
  obtain ⟨compares, relation⟩ := written _ isWord
  rw [relation_of_isComparison compares, relation]

/-! ## Operands of one clause -/

theorem isSupplied_search (search : clause.isLike = true) :
    clause.IsSupplied ↔ clause.values.length = 1 := by
  have noList : clause.operator ∉ listOperators := by
    intro isList
    rw [isLike] at search
    exact absurd search
      ((by decide : ∀ other ∈ listOperators, ¬ (other == "like" || isNotLike other) = true) _
        isList)
  simp [IsSupplied, search, noList]

theorem hasOperands_search (search : clause.isLike = true) :
    HasOperands true clause.predicate ↔ clause.values.length = 1 := by
  have isOperator : clause.relation.operator = "like" := by
    rw [← relation_isLike] at search
    exact eq_of_beq search
  have isToken : token "like" = "," := by decide
  rw [predicate, isOperator, isToken, hasOperands_search_iff, operands_isLiteral_iff (by decide)]

theorem operands_of_search (search : clause.isLike = true) :
    HasOperands clause.isLike clause.predicate ↔ clause.IsSupplied := by
  rw [isSupplied_search search, ← hasOperands_search search, search]

/-- A word compares with one value; several values are a membership where the operator
has one, and a list where one literal belongs everywhere else. -/
theorem operands_of_word (isWord : clause.operator ∈ wordOperators) :
    HasOperands clause.isLike clause.predicate ↔ clause.IsSupplied := by
  have words : ∀ operator ∈ wordOperators, (operator == "like" || isNotLike operator) = false ∧
      token operator ∈ comparisonWords ∧ (isComparison operator || operator == "in") = true := by
    decide
  obtain ⟨noSearch, isToken, shows⟩ := words _ isWord
  have noLike : clause.isLike = false := noSearch
  rw [noLike, predicate, relation_operator_of_word isWord]
  cases list : clause.hasSeveral && listOperators.contains clause.operator with
  | true =>
      rw [Bool.and_eq_true, List.contains_iff_mem] at list
      obtain ⟨many, isList⟩ := list
      have several : 2 ≤ clause.values.length := of_decide_eq_true many
      have membership : HasOperands false (token "in" ++ clause.operands "in") := by
        have some : clause.values.map clause.operand ≠ [] := by
          intro none
          rw [List.map_eq_nil_iff.mp none] at several
          exact absurd several (by decide)
        have areLiterals : ∀ literal ∈ clause.values.map clause.operand, IsLiteral literal := by
          intro literal isMember
          obtain ⟨value, -, rfl⟩ := List.mem_map.mp isMember
          exact clause.isLiteral_operand value
        rw [operands_several several (by decide), ← String.append_assoc, ← String.append_assoc]
        exact .membership some areLiterals
      exact iff_of_true membership (.inr ⟨isList, several⟩)
  | false =>
      have single : clause.IsSupplied ↔ clause.values.length = 1 := by
        refine ⟨?_, fun length => .inl ⟨.inr isWord, length⟩⟩
        rintro (⟨-, length⟩ | ⟨isList, several⟩)
        · exact length
        · have many : clause.hasSeveral = true := decide_eq_true several
          rw [many, List.contains_iff_mem.mpr isList] at list
          cases list
      exact (hasOperands_comparison_iff isToken).trans
        ((operands_isLiteral_iff shows).trans single.symm)

/-- No number of values suits `ilike`, which is no word that compares. -/
theorem operands_of_ilike (isOther : clause.operator = "ilike") :
    HasOperands clause.isLike clause.predicate ↔ clause.IsSupplied := by
  have noLike : clause.isLike = false := by rw [isLike, isOther]; decide
  have relation : clause.relation.operator = "ilike" := by
    rw [relation_of_isComparison (by rw [isOther]; decide), isOther]
    cases clause.hasSeveral <;> decide
  refine iff_of_false (fun has => ?_) ?_
  · rw [noLike, predicate, relation] at has
    have blank := has.blank
    rw [String.toList_append, List.getElem?_append_left (by decide)] at blank
    exact absurd blank (by decide)
  · rw [IsSupplied, noLike, isOther]
    simp [wordOperators, listOperators]

theorem operands_of_otherCase (compares : comparesIgnoringCase clause.operator = true)
    (noSearch : clause.isLike = false) (otherCase : isComparison clause.operator = false) :
    HasOperands clause.isLike clause.predicate ↔ clause.IsSupplied := by
  obtain ⟨written, noBlank⟩ := predicate_of_otherCase compares noSearch otherCase
  have noWord : clause.operator ∉ wordOperators := fun isWord => absurd otherCase
    ((by decide : ∀ other ∈ wordOperators, ¬ isComparison other = false) _ isWord)
  have noList : clause.operator ∉ listOperators := fun isList => noWord
    ((by decide : ∀ other ∈ listOperators, other ∈ wordOperators) _ isList)
  refine iff_of_false (fun has => noBlank ?_) ?_
  · rw [noSearch, written] at has
    exact blank_mem_of_blank_mem_token (List.mem_of_getElem? has.blank)
  · simp [IsSupplied, noSearch, noWord, noList]

/-- A comparison, up to case, has the operands it asks for exactly if the number of its
values suits its operator. -/
theorem operands_iff (compares : comparesIgnoringCase clause.operator = true) :
    HasOperands clause.isLike clause.predicate ↔ clause.IsSupplied := by
  -- Only searches are recognised in any case; for the others the spelling counts.
  cases search : clause.isLike with
  | true => exact search ▸ operands_of_search search
  | false =>
      rw [← search]
      cases written : isComparison clause.operator with
      | false => exact operands_of_otherCase compares search written
      | true =>
          rcases operator_cases written search with isWord | isOther
          · exact operands_of_word isWord
          · exact operands_of_ilike isOther

/-- The text of a clause on a field, taken apart. -/
theorem text_eq_predicate (clause : Clause) (key : String) :
    clause.text key = wrappedIf clause.relation.negated " not("
      (wrappedIf clause.isLike "contains("
        (" " ++ lowerIf clause.ignoresCase key ++ " " ++ clause.predicate)) := by
  rw [text_eq, bareText, predicate, String.append_assoc]

end Clause

/-! ## Operands in a filter -/

/-- Every clause that does not drop out stands with its text in the filter. -/
theorem text_of_compileFrom {clauses : List Clause} {started grouped : Bool} {text : String}
    (compiled : compileFrom started grouped clauses = .ok text) {clause : Clause}
    (isMember : clause ∈ clauses) {key : String} (kept : clause.keptKey? = some key) :
    ∃ before after, text = before ++ clause.text key ++ after := by
  -- Over the clauses that are left, in whatever state the compiler is.
  induction clauses generalizing started grouped text with
  | nil => cases isMember
  | cons first rest ih =>
      rcases compileFrom_cons_ok compiled with ⟨dropped, same⟩ | ⟨_, tail, isKept, -, behind, rfl⟩
      · rcases List.mem_cons.mp isMember with rfl | isLater
        · cases dropped.symm.trans kept
        · exact ih same isLater
      · rcases List.mem_cons.mp isMember with rfl | isLater
        · obtain rfl := Option.some.inj (isKept.symm.trans kept)
          exact ⟨_, _, String.append_assoc⟩
        · obtain ⟨before, after, rfl⟩ := ih behind isLater
          exact ⟨_, after, by rw [← String.append_assoc, ← String.append_assoc]⟩

/-- A filter is refused exactly if a clause that does not drop out compares, in the very
spelling of the operator, with nothing. In every other filter the clauses that do not
drop out and compare, up to case, stand with their fields, in `contains` when they are
searches and in `not` when they are turned around; and what comes behind the field is
what OData asks for exactly if the number of values suits the operator. -/
theorem operands_of_compile (clauses : List Clause) :
    match clauses.find? Clause.lacksValue with
    | some clause => ∃ key, clause.key = some key ∧
        compile clauses = .error (.filter (.missingValue clause.operator key))
    | none => ∃ text, compile clauses = .ok text ∧
        ∀ clause ∈ clauses, ∀ key, clause.keptKey? = some key →
          comparesIgnoringCase clause.operator = true →
            (∃ before after, text = before ++ clause.text key ++ after) ∧
            clause.text key = Clause.wrappedIf clause.relation.negated " not("
              (Clause.wrappedIf clause.isLike "contains("
                (" " ++ Clause.lowerIf clause.ignoresCase key ++ " " ++ clause.predicate)) ∧
            (HasOperands clause.isLike clause.predicate ↔ clause.IsSupplied) := by
  cases found : clauses.find? Clause.lacksValue with
  | some clause =>
      obtain ⟨key, isKey, refused⟩ := compileFrom_lacking found
      exact ⟨key, isKey, refused false false⟩
  | none =>
      have complete : ∀ clause ∈ clauses, clause.lacksValue = false := by simpa using found
      obtain ⟨⟨parts, -, -, compiled⟩, -⟩ := written_of_complete complete
      refine ⟨_, compiled false, fun clause isMember key kept compares => ⟨?_, ?_, ?_⟩⟩
      · exact text_of_compileFrom (compiled false) isMember kept
      · exact clause.text_eq_predicate key
      · exact Clause.operands_iff compares

/-- A name that is compared with nothing. -/
def compareNothing (operator : String) : Clause := { key := some "name", operator := operator }

/-- To compare with nothing is refused in the very spelling of an operator; in another
case, it is written without an operand. -/
theorem search_for_nothing_is_written :
    compile [compareNothing "not like"] = .error (.filter (.missingValue "not like" "name")) ∧
      compile [compareNothing "Not Like"] = .ok " not(contains( name ,))" ∧
      comparesIgnoringCase "Not Like" = true ∧ ¬ (compareNothing "Not Like").IsSupplied ∧
      ¬ HasOperands (compareNothing "Not Like").isLike (compareNothing "Not Like").predicate := by
  have compares : comparesIgnoringCase "Not Like" = true := by decide
  have unsupplied : ¬ (compareNothing "Not Like").IsSupplied := by decide
  obtain ⟨key, isKey, refused⟩ := operands_of_compile [compareNothing "not like"]
  obtain ⟨_, -, written⟩ := operands_of_compile [compareNothing "Not Like"]
  obtain ⟨-, -, suits⟩ := written _ List.mem_cons_self "name" rfl compares
  obtain rfl := Option.some.inj isKey
  exact ⟨refused, rfl, compares, unsupplied, fun has => unsupplied (suits.mp has)⟩

end OData.Filter
