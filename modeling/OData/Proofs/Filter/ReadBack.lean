/-
# Filters read back

The expression of a filter is read as what its clauses mean, with one exception. A
plain search is written without the blank that all other clauses begin with, so
behind `and` or `or` it is read as a call of another name and the expression is
refused. Only the parenthesis of a group that the search begins keeps the two
apart. The main result says for which filters the expression is read as meant and
for which it is not read at all; there is nothing between the two.
-/

import OData.Proofs.Filter.Pieces

namespace OData.Filter

/-! ## Joined clauses -/

/-- The level behind `or` or `and`. -/
def Level.behind (byOr : Bool) (level : Level) (formula : Formula) : Level :=
  if byOr then
    { level with
      alternatives := level.alternatives ++ [Formula.allOf (level.conditions ++ [formula])]
      conditions := []
      reading := .nothing }
  else { level with conditions := level.conditions ++ [formula], reading := .nothing }

/-- The level with one more condition behind `or` or `and`. -/
def Level.joined (byOr : Bool) (level : Level) (next : Formula) : Level :=
  match level.reading with
  | .operand formula => { level.behind byOr formula with reading := .operand next }
  | _ => level.put next

theorem reading_behind (byOr : Bool) (level : Level) (formula : Formula) :
    (level.behind byOr formula).reading = .nothing := by
  cases byOr <;> rfl

theorem reading_joined (byOr : Bool) (level : Level) (next : Formula)
    {formula : Formula} (complete : level.reading = .operand formula) :
    (level.joined byOr next).reading = .operand next := by
  rw [Level.joined, complete]

/-- What keeps its distance is read behind the word that joins it. -/
theorem leads_joint {text : String} (byOr : Bool) {level : Level} {formula : Formula}
    (complete : level.reading = .operand formula) {after? : Option Level}
    (leads : Leads text (level.behind byOr formula) after?) (apart : EndsWord text.toList) :
    Leads ((if byOr then " or" else " and") ++ text) level after? := by
  have spaced : (if byOr then " or" else " and") ++ text =
      " " ++ ((if byOr then "or" else "and") ++ text) := by
    rw [← String.toList_inj]
    cases byOr <;> simp
  have word : Leads (if byOr then "or" else "and") level (some (level.behind byOr formula)) := by
    cases byOr with
    | false =>
        have word := leads_word (by decide : IsWord "and") level
        rw [Level.word?_and complete] at word
        exact word
    | true =>
        have word := leads_word (by decide : IsWord "or") level
        rw [Level.word?_or complete] at word
        exact word
  rw [spaced]
  exact (word.append leads apart).blank

theorem endsWord_joint (byOr : Bool) (text : String) :
    EndsWord ((if byOr then " or" else " and") ++ text).toList := by
  rw [String.toList_append]
  cases byOr <;> exact endsWord_cons (by decide) _

namespace Clause

variable {clause : Clause}

/-- All clauses but plain searches begin with a blank. -/
theorem IsCanonical.endsWord (canonical : clause.IsCanonical)
    (noSearch : clause.operator ≠ "like") : EndsWord clause.alone.toList := by
  obtain ⟨key, -, -, kept, -⟩ := canonical.exists_key
  have spaced : clause.relation.negated = true ∨ clause.isLike = false := by
    cases canonical.shape with
    | search value values isLike compares relation =>
        rw [relation]
        exact .inl (by simpa using noSearch)
    | comparison value comparator values isLike compares relation => exact .inr isLike
    | membership comparator several isLike compares relation => exact .inr isLike
  rw [alone, kept]
  show EndsWord (clause.text key).toList
  rw [text_eq]
  cases negated : clause.relation.negated with
  | true =>
      rw [wrappedIf, if_pos rfl, String.append_assoc, String.toList_append]
      exact endsWord_cons (by decide) _
  | false =>
      have isLike := spaced.resolve_left (by simp [negated])
      rw [isLike]
      show EndsWord (clause.bareText key).toList
      unfold bareText
      simp only [String.append_assoc]
      exact endsWord_blank _

/-- Behind `and` or `or` a plain search is read as a call of another name. -/
theorem IsCanonical.leads_joinedSearch (canonical : clause.IsCanonical)
    (isSearch : clause.operator = "like") (byOr : Bool) {level : Level} {formula : Formula}
    (complete : level.reading = .operand formula) :
    Leads ((if byOr then " or" else " and") ++ clause.alone) level none := by
  obtain ⟨key, -, -, kept, -⟩ := canonical.exists_key
  have written : ∃ inner, clause.alone = "contains" ++ "(" ++ inner := by
    cases canonical.shape with
    | search value values isLike compares relation =>
        refine ⟨clause.bareText key ++ ")", ?_⟩
        rw [alone, kept]
        show clause.text key = _
        rw [text_eq, relation, isLike, isSearch, ← String.toList_inj]
        simp [wrappedIf]
    | comparison value comparator values isLike compares relation =>
        rw [isSearch] at compares
        cases compares
    | membership comparator several isLike compares relation =>
        rw [isSearch] at compares
        cases compares
  obtain ⟨inner, written⟩ := written
  have full : level.awaits = false := by rw [Level.awaits, complete]
  rw [written]
  cases byOr with
  | false =>
      have refused := leads_refusedCall (by decide : IsWord "andcontains") full inner
      have text : " and" ++ ("contains" ++ "(" ++ inner) =
          " " ++ ("andcontains" ++ "(" ++ inner) := by
        rw [← String.toList_inj]
        simp
      exact text ▸ refused.blank
  | true =>
      have refused := leads_refusedCall (by decide : IsWord "orcontains") full inner
      have text : " or" ++ ("contains" ++ "(" ++ inner) =
          " " ++ ("orcontains" ++ "(" ++ inner) := by
        rw [← String.toList_inj]
        simp
      exact text ▸ refused.blank

/-- A joined clause is read as its comparison, unless it is a plain search. -/
theorem IsCanonical.leads_joined (canonical : clause.IsCanonical) (byOr : Bool) {level : Level}
    {formula : Formula} (complete : level.reading = .operand formula) :
    Leads ((if byOr then " or" else " and") ++ clause.alone) level
      (if clause.operator ≠ "like" then some (level.joined byOr clause.formula) else none) := by
  by_cases isSearch : clause.operator = "like"
  · rw [if_neg (not_not_intro isSearch)]
    exact canonical.leads_joinedSearch isSearch byOr complete
  · rw [if_pos isSearch]
    have leads := canonical.isCondition _ (reading_behind byOr level formula)
    rw [Level.joined, complete]
    exact leads_joint byOr complete leads (canonical.endsWord isSearch)

end Clause

/-! ## Lists of joined pieces -/

section Joined

variable {α : Type} {text : α → String}

theorem endsWord_joinedAll (byOr : Bool) (text : α → String) (pieces : List α) :
    EndsWord (String.join
      (pieces.map fun piece => (if byOr then " or" else " and") ++ text piece)).toList := by
  cases pieces with
  | nil => exact (by decide : EndsWord "".toList)
  | cons piece pieces =>
      rw [List.map_cons, String.join_cons, String.toList_append]
      apply (endsWord_joint byOr (text piece)).append_of_ne
      cases byOr <;> simp

/-- Pieces that are joined by one word are read one after another, up to the first
that is not read behind that word. -/
theorem leads_joinedAll (byOr : Bool) {said : α → Formula} {apart : α → Prop}
    [DecidablePred apart] {pieces : List α}
    (each : ∀ piece ∈ pieces, ∀ (level : Level) (formula : Formula),
      level.reading = .operand formula →
        Leads ((if byOr then " or" else " and") ++ text piece) level
          (if apart piece then some (level.joined byOr (said piece)) else none))
    {level : Level} {formula : Formula} (complete : level.reading = .operand formula) :
    Leads (String.join
        (pieces.map fun piece => (if byOr then " or" else " and") ++ text piece)) level
      (if ∀ piece ∈ pieces, apart piece then
        some ((pieces.map said).foldl (Level.joined byOr) level)
      else none) := by
  -- Reading goes from left to right, so the level changes with every piece; all that
  -- the pieces need of it is that a complete operand stands there.
  induction pieces generalizing level formula with
  | nil =>
      intro outer rest ends
      simp
  | cons piece pieces ih =>
      obtain ⟨first, others⟩ := List.forall_mem_cons.mp each
      have leads := first level formula complete
      have behind := endsWord_joinedAll byOr text pieces
      rw [List.map_cons, String.join_cons, List.map_cons, List.foldl_cons]
      simp only [List.forall_mem_cons]
      by_cases isApart : apart piece
      · rw [if_pos isApart] at leads
        simp only [isApart, true_and]
        exact leads.append (ih others (reading_joined byOr level _ complete)) behind
      · rw [if_neg isApart] at leads
        simp only [isApart, false_and, if_false]
        exact leads.append_refused behind

end Joined

/-! ## Runs -/

/-- What was joined by `or` is one item of the level. -/
theorem item?_foldl_or (formulas : List Formula) {level : Level} {formula : Formula}
    (complete : level.reading = .operand formula) (single : level.conditions = []) :
    (formulas.foldl (Level.joined true) level).item? =
      some (Formula.anyOf (level.alternatives ++ formula :: formulas)) := by
  induction formulas generalizing level formula with
  | nil =>
      rw [List.foldl_nil, Level.item?, complete, single]
      rfl
  | cons next formulas ih =>
      rw [List.foldl_cons, ih (reading_joined true level next complete), Level.joined, complete]
      · simp [Level.behind, single, Formula.allOf]
      · rw [Level.joined, complete]
        rfl

/-- What was joined by `and` is one alternative of the level. -/
theorem item?_foldl_and (formulas : List Formula) {level : Level} {formula : Formula}
    (complete : level.reading = .operand formula) :
    (formulas.foldl (Level.joined false) level).item? =
      some (Formula.anyOf (level.alternatives ++
        [Formula.allOf (level.conditions ++ formula :: formulas)])) := by
  induction formulas generalizing level formula with
  | nil =>
      rw [List.foldl_nil, Level.item?, complete]
  | cons next formulas ih =>
      rw [List.foldl_cons, ih (reading_joined false level next complete), Level.joined, complete]
      simp [Level.behind]

theorem opening_foldl_joined (byOr : Bool) (formulas : List Formula) (level : Level) :
    (formulas.foldl (Level.joined byOr) level).opening = level.opening ∧
      (formulas.foldl (Level.joined byOr) level).items = level.items := by
  induction formulas generalizing level with
  | nil => exact ⟨rfl, rfl⟩
  | cons next formulas ih =>
      have kept : (level.joined byOr next).opening = level.opening ∧
          (level.joined byOr next).items = level.items := by
        unfold Level.joined Level.behind Level.put
        split
        · cases byOr <;> exact ⟨rfl, rfl⟩
        · split <;> exact ⟨rfl, rfl⟩
      obtain ⟨opening, items⟩ := ih (level.joined byOr next)
      exact ⟨opening.trans kept.1, items.trans kept.2⟩

/-- A group says what its only item says. -/
theorem closed?_group {byOr : Bool} {formulas : List Formula} {level : Level}
    (opening : level.opening = .group) (items : level.items = []) {formula : Formula}
    (item : (formulas.foldl (Level.joined byOr) level).item? = some formula) :
    (formulas.foldl (Level.joined byOr) level).closed? = some formula := by
  obtain ⟨sameOpening, sameItems⟩ := opening_foldl_joined byOr formulas level
  rw [Level.closed?, item, sameOpening, sameItems, opening, items]
  rfl

/-- A run is read as what it says, unless there is a plain search behind its first
clause. -/
theorem leads_run {clause : Clause} {more : List Clause}
    (canonical : ∀ next ∈ clause :: more, next.IsCanonical) {level : Level}
    (fresh : level.reading = .nothing) :
    Leads (runText (clause :: more)) level
      (if ∀ next ∈ more, next.operator ≠ "like" then
        some { level with reading := .operand (runFormula (clause :: more)) }
      else none) := by
  obtain ⟨clauseCanonical, moreCanonical⟩ := List.forall_mem_cons.mp canonical
  cases more with
  | nil =>
      rw [if_pos (by simp)]
      exact clauseCanonical.isCondition level fresh
  | cons next more =>
      have opens : level.opens = .group := by rw [Level.opens, fresh]
      have first := clauseCanonical.isCondition { opening := level.opens } rfl
      have alternatives (other : Clause) (isMember : other ∈ next :: more) (level : Level)
          (formula : Formula) (complete : level.reading = .operand formula) :=
        (moreCanonical other isMember).leads_joined true complete
      have inner := first.append (leads_joinedAll true alternatives rfl)
        (endsWord_joinedAll true Clause.alone (next :: more))
      have whole := (inner.parenthesized (awaits_of_nothing fresh)).blank
      have text : runText (clause :: next :: more) = " " ++ ("(" ++ (clause.alone ++
          String.join ((next :: more).map (" or" ++ ·.alone))) ++ ")") := by
        rw [runText_several, ← String.toList_inj]
        simp
      rw [text]
      by_cases spaced : ∀ other ∈ next :: more, other.operator ≠ "like"
      · rw [if_pos spaced]
        rw [if_pos spaced, Option.bind_some,
          closed?_group opens rfl (item?_foldl_or _ rfl rfl), Option.map_some,
          put_of_nothing fresh] at whole
        exact whole
      · rw [if_neg spaced]
        rw [if_neg spaced] at whole
        exact whole

/-! ## Filters -/

/-- No plain search stands right behind the `and` in front of a run or behind an
`or` in it. -/
def SearchesStandApart (run : List Clause) : Prop :=
  (∀ clause ∈ run.tail, clause.operator ≠ "like") ∧
    (run.length = 1 → ∀ clause ∈ run, clause.operator ≠ "like")

instance (run : List Clause) : Decidable (SearchesStandApart run) :=
  inferInstanceAs (Decidable (_ ∧ _))

theorem leads_joinedRun {clause : Clause} {more : List Clause}
    (canonical : ∀ next ∈ clause :: more, next.IsCanonical) {level : Level} {formula : Formula}
    (complete : level.reading = .operand formula) :
    Leads (" and" ++ runText (clause :: more)) level
      (if SearchesStandApart (clause :: more) then
        some (level.joined false (runFormula (clause :: more)))
      else none) := by
  cases more with
  | nil =>
      have same : SearchesStandApart [clause] ↔ clause.operator ≠ "like" := by
        simp [SearchesStandApart]
      simp only [same]
      exact (canonical clause List.mem_cons_self).leads_joined false complete
  | cons next more =>
      have leads := leads_run canonical (reading_behind false level formula)
      have apart : EndsWord (runText (clause :: next :: more)).toList := by
        rw [runText_several, String.append_assoc, String.toList_append]
        exact endsWord_cons (by decide) _
      have same : SearchesStandApart (clause :: next :: more) ↔
          ∀ other ∈ next :: more, other.operator ≠ "like" := by
        simp [SearchesStandApart]
      rw [Level.joined, complete]
      simp only [same]
      exact leads_joint false complete leads apart

theorem parse?_of_leads {text : String} {after? : Option Level}
    (leads : Leads text { opening := .group } after?) :
    parse? text = after?.bind Level.closed? := by
  have whole := leads [] [] (by decide)
  rw [List.append_nil] at whole
  rw [parse?, whole]
  cases after? <;> rfl

/-- No plain search stands right behind an `and` or an `or`: behind its first
clause, a filter has plain searches only where they begin a group. -/
def SearchesBeginGroups (clauses : List Clause) : Prop :=
  (∀ run ∈ runs clauses, ∀ clause ∈ run.tail, clause.operator ≠ "like") ∧
    ∀ run ∈ (runs clauses).tail, run.length = 1 → ∀ clause ∈ run, clause.operator ≠ "like"

instance (clauses : List Clause) : Decidable (SearchesBeginGroups clauses) :=
  inferInstanceAs (Decidable (_ ∧ _))

theorem searchesBeginGroups_iff {clauses : List Clause} {clause : Clause} {more : List Clause}
    {others : List (List Clause)} (split : runs clauses = (clause :: more) :: others) :
    SearchesBeginGroups clauses ↔
      (∀ next ∈ more, next.operator ≠ "like") ∧ ∀ run ∈ others, SearchesStandApart run := by
  rw [SearchesBeginGroups, split, List.forall_mem_cons, List.tail_cons, List.tail_cons]
  constructor
  · rintro ⟨⟨first, within⟩, alone⟩
    exact ⟨first, fun run isMember => ⟨within run isMember, alone run isMember⟩⟩
  · rintro ⟨first, apart⟩
    exact ⟨⟨first, fun run isMember => (apart run isMember).1⟩,
      fun run isMember => (apart run isMember).2⟩

/-- Canonical clauses compile. Their expression is read as exactly what they mean,
and so it holds when they hold by their flags, if plain searches behind the first
clause begin groups; otherwise the expression is no expression at all. -/
theorem compile_read_back (clauses : List Clause) (some : clauses ≠ [])
    (canonical : ∀ clause ∈ clauses, clause.IsCanonical) :
    ∃ text, compile clauses = .ok text ∧
      parse? text =
        (if SearchesBeginGroups clauses then Option.some (meaning clauses) else none) ∧
      ∀ atom, (meaning clauses).holds atom =
        holdByFlags (fun clause => clause.formula.holds atom) clauses := by
  refine ⟨" and".intercalate ((runs clauses).map runText), ?_, ?_,
    fun atom => meaning_holds atom _⟩
  · exact compile_eq_runs fun clause isMember => (canonical clause isMember).isWritten
  · have areRuns (run : List Clause) (isRun : run ∈ runs clauses) :
        ∃ clause more, run = clause :: more ∧ ∀ next ∈ clause :: more, next.IsCanonical := by
      obtain ⟨clause, more, rfl⟩ :=
        List.exists_cons_of_ne_nil (List.ne_nil_of_mem_splitBy isRun)
      refine ⟨clause, more, rfl, fun next isMember => canonical next ?_⟩
      rw [← List.flatten_splitBy (fun _ next => next.joinsByOr) clauses]
      exact List.mem_flatten.mpr ⟨_, isRun, isMember⟩
    cases split : runs clauses with
    | nil => exact absurd (List.splitBy_eq_nil.mp split) some
    | cons run others =>
        rw [split] at areRuns
        obtain ⟨⟨clause, more, rfl, runCanonical⟩, othersAre⟩ := List.forall_mem_cons.mp areRuns
        have fresh : ({ opening := .group } : Level).reading = .nothing := rfl
        have first := leads_run runCanonical fresh
        have behind (other : List Clause) (isMember : other ∈ others) (level : Level)
            (formula : Formula) (complete : level.reading = .operand formula) :
            Leads (" and" ++ runText other) level
              (if SearchesStandApart other then
                Option.some (level.joined false (runFormula other))
              else none) := by
          obtain ⟨_, _, rfl, otherCanonical⟩ := othersAre other isMember
          exact leads_joinedRun otherCanonical complete
        have apart := endsWord_joinedAll false runText others
        simp only [searchesBeginGroups_iff split]
        rw [List.map_cons, intercalate_eq_join, List.map_map]
        by_cases within : ∀ next ∈ more, next.operator ≠ "like"
        · rw [if_pos within] at first
          have whole := first.append (leads_joinedAll false behind rfl) apart
          refine (parse?_of_leads whole).trans ?_
          by_cases stand : ∀ run ∈ others, SearchesStandApart run
          · rw [if_pos stand, if_pos ⟨within, stand⟩, Option.bind_some,
              closed?_group rfl rfl (item?_foldl_and _ rfl), meaning, split]
            rfl
          · rw [if_neg stand, if_neg fun both => stand both.2]
            rfl
        · rw [if_neg within] at first
          refine (parse?_of_leads (first.append_refused apart)).trans ?_
          rw [if_neg fun both => within both.1]
          rfl

/-- A search behind `and` runs into it, and with it the filter is not read. -/
theorem joined_search_not_read :
    compile [Clause.equal "a" (some (.integer 1)), Clause.like "name" "x"] =
        .ok " a eq 1 andcontains( name , 'x')" ∧
      parse? " a eq 1 andcontains( name , 'x')" = none := by
  obtain ⟨text, compiled, parsed, -⟩ := compile_read_back
    [Clause.equal "a" (some (.integer 1)), Clause.like "name" "x"] (by decide) (by decide)
  have written : compile [Clause.equal "a" (some (.integer 1)), Clause.like "name" "x"] =
      .ok " a eq 1 andcontains( name , 'x')" := rfl
  have same := Except.ok.inj (compiled.symm.trans written)
  exact ⟨written, same ▸ parsed⟩

end OData.Filter
