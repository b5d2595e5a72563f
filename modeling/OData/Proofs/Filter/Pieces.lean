/-
# Reading clauses

Pieces of an expression lead the reader from one level to another, and they do so
one behind the other as long as no word runs into the next. The text of a clause by
itself is read as the clause's own comparison, whatever its values are.
-/

import OData.Proofs.Filter.Meaning

namespace OData.Filter

/-! ## Reading pieces of a text -/

/-- In front of anything that ends a word, the text leads from one level to
another, or it is refused. -/
def Leads (text : String) (before : Level) (after? : Option Level) : Prop :=
  ∀ (outer : List Level) (rest : List Char), EndsWord rest →
    read (before :: outer) (text.toList ++ rest) =
      after?.bind fun after => read (after :: outer) rest

theorem leads_word {word : String} (isWord : IsWord word) (level : Level) :
    Leads word level (level.word? word) := by
  intro outer rest ends
  rw [read_of_ofChars? (Token.ofChars?_word isWord ends), step]
  cases level.word? word <;> rfl

theorem leads_quote (text : String) {level : Level} (awaits : level.awaits = true) :
    Leads (Text.quote text) level (some (level.put (.quoted text))) := by
  intro outer rest ends
  rw [read_of_ofChars? (Token.ofChars?_quote text ends), step, if_pos awaits]
  rfl

theorem Leads.append {first second : String} {before between : Level} {after? : Option Level}
    (left : Leads first before (some between)) (right : Leads second between after?)
    (apart : EndsWord second.toList) : Leads (first ++ second) before after? := by
  intro outer rest ends
  rw [String.toList_append, List.append_assoc, left outer _ (apart.append ends)]
  exact right outer rest ends

/-- What follows on a refused text does not matter. -/
theorem Leads.append_refused {first : String} {before : Level} (refused : Leads first before none)
    {second : String} (apart : EndsWord second.toList) : Leads (first ++ second) before none := by
  intro outer rest ends
  rw [String.toList_append, List.append_assoc, refused outer _ (apart.append ends)]
  rfl

theorem Leads.blank {text : String} {before : Level} {after? : Option Level}
    (leads : Leads text before after?) : Leads (" " ++ text) before after? := by
  intro outer rest ends
  rw [String.toList_append]
  show read _ (' ' :: (text.toList ++ rest)) = _
  rw [read, Token.ofChars?_blank]
  exact leads outer rest ends

theorem Leads.comma {text : String} {before between : Level} {after? : Option Level}
    (next : before.next? = some between) (leads : Leads text between after?) :
    Leads ("," ++ text) before after? := by
  intro outer rest ends
  rw [String.toList_append]
  show read _ (',' :: (text.toList ++ rest)) = _
  rw [read_of_ofChars? (Token.ofChars?_comma _), step, next]
  exact leads outer rest ends

theorem read_closing (level below : Level) (outer : List Level) (rest : List Char) :
    read (level :: below :: outer) (')' :: rest) =
      level.closed?.bind fun formula => read (below.put formula :: outer) rest := by
  rw [read_of_ofChars? (Token.ofChars?_closing rest), step]
  cases level.closed? <;> rfl

/-- What is said on a level is put on the level below it when it is closed. -/
theorem Leads.closed {text : String} {before : Level} {after? : Option Level}
    (leads : Leads text before after?) (below : Level) (outer : List Level) (rest : List Char) :
    read (before :: below :: outer) (text.toList ++ ')' :: rest) =
      ((after?.bind Level.closed?).map below.put).bind fun after =>
        read (after :: outer) rest := by
  rw [leads _ _ (endsWord_cons (by decide) rest)]
  cases after? with
  | none => rfl
  | some after =>
      rw [Option.bind_some, read_closing, Option.bind_some, Option.bind_map]
      rfl

/-- What is said between parentheses is one operand. -/
theorem Leads.parenthesized {text : String} {level : Level} {after? : Option Level}
    (awaits : level.awaits = true) (leads : Leads text { opening := level.opens } after?) :
    Leads ("(" ++ text ++ ")") level ((after?.bind Level.closed?).map level.put) := by
  intro outer rest ends
  have chars : ("(" ++ text ++ ")").toList ++ rest = '(' :: (text.toList ++ ')' :: rest) := by
    simp
  rw [chars, read_of_ofChars? (Token.ofChars?_opening _), step, if_pos awaits, Option.bind_some,
    leads.closed]

theorem Leads.called {name text : String} (isWord : IsWord name) {level : Level}
    {after? : Option Level} (awaits : level.awaits = true)
    (leads : Leads text { opening := .call name } after?) :
    Leads (name ++ "(" ++ text ++ ")") level ((after?.bind Level.closed?).map level.put) := by
  intro outer rest ends
  have chars : (name ++ "(" ++ text ++ ")").toList ++ rest =
      name.toList ++ '(' :: (text.toList ++ ')' :: rest) := by simp
  rw [chars, read_of_ofChars? (Token.ofChars?_call isWord _), step, if_pos awaits,
    Option.bind_some, leads.closed]

/-- Behind an operand no call is read. -/
theorem leads_refusedCall {name : String} (isWord : IsWord name) {level : Level}
    (full : level.awaits = false) (text : String) : Leads (name ++ "(" ++ text) level none := by
  intro outer rest ends
  have chars :
      (name ++ "(" ++ text).toList ++ rest = name.toList ++ '(' :: (text.toList ++ rest) := by
    simp
  rw [chars, read_of_ofChars? (Token.ofChars?_call isWord _), step, if_neg (by simp [full])]
  rfl

/-! ## Operands and conditions -/

/-- Wherever an operand may come next, the text is one. -/
def IsOperand (text : String) (formula : Formula) : Prop :=
  ∀ level : Level, level.awaits = true → Leads text level (some (level.put formula))

/-- Where nothing was read yet, the text is a condition. -/
def IsCondition (text : String) (formula : Formula) : Prop :=
  ∀ level : Level, level.reading = .nothing →
    Leads text level (some { level with reading := .operand formula })

theorem awaits_of_nothing {level : Level} (fresh : level.reading = .nothing) :
    level.awaits = true := by
  rw [Level.awaits, fresh]

theorem put_of_nothing {level : Level} (fresh : level.reading = .nothing) (formula : Formula) :
    level.put formula = { level with reading := .operand formula } := by
  rw [Level.put, fresh]

theorem IsOperand.isCondition {text : String} {formula : Formula}
    (isOperand : IsOperand text formula) : IsCondition text formula := by
  intro level fresh
  rw [← put_of_nothing fresh]
  exact isOperand level (awaits_of_nothing fresh)

theorem isOperand_word {word : String} (isWord : IsWord word) :
    IsOperand word (.word word) := by
  intro level awaits
  have taken : level.word? word = some (level.put (.word word)) := by
    unfold Level.awaits at awaits
    unfold Level.word?
    split at awaits
    · cases awaits
    · rfl
  rw [← taken]
  exact leads_word isWord level

theorem isOperand_quote (text : String) : IsOperand (Text.quote text) (.quoted text) :=
  fun _ awaits => leads_quote text awaits

theorem isOperand_literal (value : Literal) : IsOperand value.expression value.formula := by
  unfold Literal.formula
  cases isText : value.text? with
  | some text =>
      rw [Literal.expression_of_text? isText]
      exact isOperand_quote text
  | none => exact isOperand_word (Literal.isWord_expression isText)

/-- A call is an operand when its arguments are read to the end. -/
theorem isOperand_call {name text : String} {after : Level} {items : List Formula}
    {item : Formula} (isWord : IsWord name)
    (leads : Leads text { opening := .call name } (some after))
    (opened : after.opening = .call name) (previous : after.items = items)
    (last : after.item? = some item) :
    IsOperand (name ++ "(" ++ text ++ ")") (Formula.called name (items ++ [item])) := by
  intro level awaits
  have closed : after.closed? = some (Formula.called name (items ++ [item])) := by
    rw [Level.closed?, last, opened, previous]
    rfl
  have called := leads.called isWord awaits
  rw [Option.bind_some, closed] at called
  exact called

namespace Clause

variable (clause : Clause)

theorem isOperand_lowered {text : String} {formula : Formula}
    (isOperand : IsOperand text formula) :
    IsOperand (lowerIf clause.ignoresCase text) (clause.lowered formula) := by
  unfold lowered lowerIf
  cases clause.ignoresCase with
  | false => exact isOperand
  | true =>
      have isFunction : "tolower" ≠ "not" := by decide
      have opening : "tolower(" = "tolower" ++ "(" := by decide
      rw [if_pos rfl, if_pos rfl, opening, ← Formula.called_of_ne isFunction]
      exact isOperand_call (by decide) (isOperand { opening := .call "tolower" } rfl) rfl rfl rfl

theorem isOperand_operand (value : Literal) :
    IsOperand (clause.operand value) (clause.operandFormula value) := by
  unfold operand operandFormula
  have quoted := clause.isOperand_lowered (isOperand_quote value.raw)
  cases ignoresCase : clause.ignoresCase with
  | false => exact isOperand_literal value
  | true =>
      rw [ignoresCase] at quoted
      exact quoted

/-- Operands between commas are read as the items of a list. -/
theorem leads_operandList (value : Literal) (others : List Literal) (items : List Formula) :
    ∃ after, Leads (",".intercalate ((value :: others).map clause.operand))
        { opening := .list, items := items } (some after) ∧
      after.closed? =
        some (.list (items ++ (value :: others).map clause.operandFormula)) := by
  induction others generalizing value items with
  | nil => exact ⟨_, clause.isOperand_operand value _ rfl, rfl⟩
  | cons next others ih =>
      obtain ⟨after, leads, closed⟩ := ih next (items ++ [clause.operandFormula value])
      refine ⟨after, ?_, ?_⟩
      · rw [List.map_cons, List.map_cons, String.intercalate_cons_cons, String.append_assoc]
        apply (clause.isOperand_operand value _ rfl).append
        · exact leads.comma rfl
        · rw [String.toList_append]
          exact endsWord_cons (by decide) _
      · rw [closed]
        simp

/-- A field, a comparison and what its other side says make a condition. -/
theorem leads_bareText {key word : String} (isKey : IsWord key) (isWord : IsWord word)
    (written : token clause.relation.operator = word) {comparator : Comparator}
    (compares : Comparator.ofWord? word = some comparator) {right : Formula}
    (reads : ∀ level : Level,
      level.reading = .comparing (clause.lowered (.word key)) comparator →
        Leads (clause.operands clause.relation.operator) level
          (some (level.put right)))
    (apart : EndsWord (clause.operands clause.relation.operator).toList) :
    IsCondition (clause.bareText key)
      (.comparison comparator (clause.lowered (.word key)) right) := by
  intro level fresh
  have field := (clause.isOperand_lowered (isOperand_word isKey)).isCondition level fresh
  have related (formula : Formula) : Leads word { level with reading := .operand formula }
      (some { level with reading := .comparing formula comparator }) := by
    have step := leads_word isWord { level with reading := .operand formula }
    rw [Level.word?_comparator rfl compares] at step
    exact step
  have operands := reads { level with reading := .comparing _ comparator } rfl
  unfold bareText
  simp only [String.append_assoc]
  rw [written]
  apply Leads.blank
  apply field.append _ (endsWord_blank _)
  apply Leads.blank
  exact (related _).append operands apart

/-- What `not` stands in front of is turned around. -/
theorem isCondition_negated {inner : String} {formula : Formula}
    (isCondition : IsCondition inner formula) (negated : Bool) :
    IsCondition (wrappedIf negated " not(" inner)
      (if negated then .not formula else formula) := by
  cases negated with
  | false => exact isCondition
  | true =>
      have opening : " not(" ++ inner ++ ")" = " " ++ ("not" ++ "(" ++ inner ++ ")") := by
        rw [← String.toList_inj]
        simp
      have called := isOperand_call (by decide) (isCondition { opening := .call "not" } rfl) rfl
        rfl rfl
      intro level fresh
      rw [wrappedIf, if_pos rfl, if_pos rfl, opening, ← Formula.called_not]
      exact (called.isCondition level fresh).blank

/-! ## Canonical clauses -/

/-- What the compiler makes of a canonical clause: a search, a comparison with its
value, or a membership in its values. -/
inductive Shape (clause : Clause) : Prop where
  | search (value : Literal) (values : clause.values = [value]) (isLike : clause.isLike = true)
      (compares : Comparator.ofOperator? clause.operator = none)
      (relation : clause.relation = ⟨"like", !(clause.operator == "like")⟩)
  | comparison (value : Literal) (comparator : Comparator) (values : clause.values = [value])
      (isLike : clause.isLike = false)
      (compares : Comparator.ofOperator? clause.operator = some comparator)
      (relation : clause.relation = ⟨clause.operator, false⟩)
  | membership (comparator : Comparator) (several : 2 ≤ clause.values.length)
      (isLike : clause.isLike = false)
      (compares : Comparator.ofOperator? clause.operator = some comparator)
      (relation : clause.relation = ⟨"in", !(comparator == .equal)⟩)

variable {clause : Clause}

theorem IsCanonical.isComparison (canonical : clause.IsCanonical) :
    isComparison clause.operator = true := by
  have all : ∀ operator ∈
      ["=", "<>", "!=", ">", "<", ">=", "<=", "like", "not like", "not ilike"],
      Filter.isComparison operator = true := by decide
  rcases canonical.2 with ⟨isMember, -⟩ | ⟨isMember, -⟩
  · exact all _ isMember
  · apply all
    simp only [List.mem_cons, List.not_mem_nil, or_false] at isMember ⊢
    tauto

/-- A canonical clause is no flag, and it has something to compare with. -/
theorem IsCanonical.exists_key (canonical : clause.IsCanonical) :
    ∃ key, clause.key = some key ∧ IsWord key ∧ clause.keptKey? = some key ∧
      clause.check key = .ok () := by
  obtain ⟨key, isKey, isWord⟩ := canonical.1
  have compared := canonical.isComparison
  have values : clause.values.isEmpty = false := by
    rw [List.isEmpty_eq_false_iff, ← List.length_pos_iff]
    rcases canonical.2 with ⟨-, single⟩ | ⟨-, several⟩ <;> omega
  refine ⟨key, isKey, isWord, ?_, ?_⟩
  · rw [keptKey?, isSkipped, flag?, if_pos compared]
    exact isKey
  · rw [check, compared, values]
    rfl

theorem IsCanonical.isWritten (canonical : clause.IsCanonical) : clause.IsWritten := by
  obtain ⟨key, -, -, kept, checked⟩ := canonical.exists_key
  exact ⟨key, kept, checked⟩

theorem shape_of_single (compared : Filter.isComparison clause.operator = true)
    (isMember : clause.operator ∈
      ["=", "<>", "!=", ">", "<", ">=", "<=", "like", "not like", "not ilike"])
    (length : clause.values.length = 1) : clause.Shape := by
  -- An operator is a search exactly when it has no comparator.
  have searches : ∀ operator ∈
      ["=", "<>", "!=", ">", "<", ">=", "<=", "like", "not like", "not ilike"],
      (operator == "like" || isNotLike operator) =
          (Comparator.ofOperator? operator).isNone ∧
        (if isNotLike operator then ⟨"like", true⟩
          else Relation.withoutNotNull ⟨operator, false⟩) =
            if (Comparator.ofOperator? operator).isNone
            then (⟨"like", !(operator == "like")⟩ : Relation)
            else ⟨operator, false⟩ := by decide
  obtain ⟨isLike, relation⟩ := searches _ isMember
  obtain ⟨value, values⟩ := List.length_eq_one_iff.mp length
  have single : clause.hasSeveral = false := by rw [hasSeveral, length]; rfl
  have written := relation_of_isComparison compared
  simp only [single, Bool.false_and, Bool.false_eq_true, if_false] at written
  rw [relation] at written
  cases compares : Comparator.ofOperator? clause.operator with
  | none =>
      rw [compares] at isLike written
      exact .search value values isLike compares written
  | some comparator =>
      rw [compares] at isLike written
      exact .comparison value comparator values isLike compares written

theorem shape_of_several (compared : Filter.isComparison clause.operator = true)
    (isMember : clause.operator ∈ ["=", "<>", "!="]) (several : 2 ≤ clause.values.length) :
    clause.Shape := by
  have memberships : ∀ operator ∈ ["=", "<>", "!="],
      (operator == "like" || isNotLike operator) = false ∧ isNotLike operator = false ∧
        (Comparator.ofOperator? operator).isSome ∧
        (if operator == "=" then ⟨"in", false⟩
          else if operator == "<>" || operator == "!=" then ⟨"in", true⟩
          else Relation.withoutNotNull ⟨operator, false⟩) =
            (⟨"in", !(Comparator.ofOperator? operator == some .equal)⟩ : Relation) := by decide
  obtain ⟨isLike, notNotLike, isSome, relation⟩ := memberships _ isMember
  have many : clause.hasSeveral = true := decide_eq_true several
  have written := relation_of_isComparison compared
  simp only [many, notNotLike, Bool.true_and, Bool.false_eq_true, if_false] at written
  rw [relation] at written
  obtain ⟨comparator, compares⟩ := Option.isSome_iff_exists.mp isSome
  rw [compares] at written
  exact .membership comparator several isLike compares written

theorem IsCanonical.shape (canonical : clause.IsCanonical) : clause.Shape := by
  rcases canonical.2 with ⟨isMember, length⟩ | ⟨isMember, several⟩
  · exact shape_of_single canonical.isComparison isMember length
  · exact shape_of_several canonical.isComparison isMember several

theorem token_of_ofOperator? {operator : String} {comparator : Comparator}
    (compares : Comparator.ofOperator? operator = some comparator) :
    Comparator.ofWord? (token operator) = some comparator ∧ IsWord (token operator) := by
  unfold Comparator.ofOperator? at compares
  split at compares <;> cases compares <;> decide

/-- A search is a call with the field and the text that is looked for. -/
theorem isOperand_search {key : String} (isKey : IsWord key) {value : Literal}
    (values : clause.values = [value]) (written : clause.relation.operator = "like") :
    IsOperand (wrappedIf true "contains(" (clause.bareText key))
      (.call "contains"
        [clause.lowered (.word key), clause.lowered (.quoted (pattern value))]) := by
  have isFunction : "contains" ≠ "not" := by decide
  have opening : "contains(" = "contains" ++ "(" := by decide
  have field := (clause.isOperand_lowered (isOperand_word isKey))
    { opening := .call "contains" } rfl
  have searched := (clause.isOperand_lowered (isOperand_quote (pattern value)))
    { opening := .call "contains", items := [clause.lowered (.word key)] } rfl
  have bare : clause.bareText key = " " ++ (lowerIf clause.ignoresCase key ++ (" " ++
      ("," ++ (" " ++ lowerIf clause.ignoresCase (Text.quote (pattern value)))))) := by
    rw [bareText, written, operands_search values, ← String.toList_inj]
    simp [token]
  have leads : Leads (clause.bareText key) { opening := .call "contains" }
      (some
        { opening := .call "contains"
          items := [clause.lowered (.word key)]
          reading := .operand (clause.lowered (.quoted (pattern value))) }) := by
    rw [bare]
    apply Leads.blank
    apply field.append _ (endsWord_blank _)
    apply Leads.blank
    exact searched.blank.comma rfl
  rw [wrappedIf, if_pos rfl, opening, ← Formula.called_of_ne isFunction]
  exact isOperand_call (by decide) leads rfl rfl rfl

theorem isCondition_comparison {key : String} (isKey : IsWord key) {value : Literal}
    (values : clause.values = [value]) {comparator : Comparator}
    (compares : Comparator.ofOperator? clause.relation.operator = some comparator)
    (noSearch : clause.relation.operator ≠ "like")
    (shows : Filter.isComparison clause.relation.operator = true) :
    IsCondition (clause.bareText key)
      (.comparison comparator (clause.lowered (.word key)) (clause.operandFormula value)) := by
  obtain ⟨reads, isWord⟩ := token_of_ofOperator? compares
  have operands : clause.operands clause.relation.operator = " " ++ clause.operand value :=
    operands_single values (by rw [shows, Bool.true_or]) noSearch
  apply clause.leads_bareText isKey isWord rfl reads
  · intro level comparing
    rw [operands]
    apply Leads.blank
    apply clause.isOperand_operand
    rw [Level.awaits, comparing]
  · rw [operands]
    exact endsWord_blank _

theorem isCondition_membership {key : String} (isKey : IsWord key)
    (several : 2 ≤ clause.values.length) (written : clause.relation.operator = "in") :
    IsCondition (clause.bareText key)
      (.comparison .oneOf (clause.lowered (.word key))
        (.list (clause.values.map clause.operandFormula))) := by
  obtain ⟨value, next, others, values⟩ := exists_values_of_several several
  have operands : clause.operands "in" =
      " " ++ ("(" ++ ",".intercalate (clause.values.map clause.operand) ++ ")") := by
    rw [operands_several several (by decide), ← String.append_assoc, ← String.append_assoc]
    rfl
  have isWord : IsWord "in" := by decide
  apply clause.leads_bareText isKey isWord (by rw [written]; rfl) rfl
  · intro level comparing
    obtain ⟨after, leads, closed⟩ := clause.leads_operandList value (next :: others) []
    have opens : level.opens = .list := by rw [Level.opens, comparing]
    rw [written, operands, values]
    apply Leads.blank
    rw [← opens] at leads
    have listed := leads.parenthesized (by rw [Level.awaits, comparing])
    rw [Option.bind_some, closed] at listed
    exact listed
  · rw [written, operands]
    exact endsWord_blank _

theorem formula_several (several : 2 ≤ clause.values.length) {comparator : Comparator}
    (compares : Comparator.ofOperator? clause.operator = some comparator) :
    clause.formula =
      let membership := Formula.comparison .oneOf (clause.lowered (.word (clause.key.getD "")))
        (.list (clause.values.map clause.operandFormula))
      if !(comparator == .equal) then .not membership else membership := by
  match values : clause.values, several with
  | value :: next :: others, _ =>
      rw [formula, compares, values]
      cases comparator <;> rfl

/-- Every canonical clause is read as its own comparison. -/
theorem IsCanonical.isCondition (canonical : clause.IsCanonical) :
    IsCondition clause.alone clause.formula := by
  obtain ⟨key, isKey, isWord, kept, -⟩ := canonical.exists_key
  have alone : clause.alone = clause.text key := by
    rw [Clause.alone, kept]
    rfl
  rw [alone, text_eq]
  cases canonical.shape with
  | search value values isLike compares relation =>
      have search := isOperand_search isWord values (by rw [relation])
      rw [isLike, relation, formula, compares, values, isKey]
      have negated := isCondition_negated search.isCondition (!(clause.operator == "like"))
      by_cases plain : clause.operator = "like"
      · simpa [plain] using negated
      · simpa [plain] using negated
  | comparison value comparator values isLike compares relation =>
      have notLike : clause.relation.operator ≠ "like" := by
        have written := clause.relation_isLike
        rw [isLike] at written
        exact ne_of_beq_false written
      rw [relation] at notLike
      rw [isLike, relation, formula, compares, values, isKey]
      apply isCondition_comparison isWord values
      · rw [relation]
        exact compares
      · rw [relation]
        exact notLike
      · rw [relation]
        exact canonical.isComparison
  | membership comparator several isLike compares relation =>
      have listed := isCondition_membership isWord several (by rw [relation])
      have negated := isCondition_negated listed (!(comparator == .equal))
      rw [isLike, relation, formula_several several compares, isKey]
      exact negated

end Clause

end OData.Filter
