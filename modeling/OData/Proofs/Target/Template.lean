/-
# What filling templates changes

A path whose templates are filled differs from the path itself, and the difference
begins where a template began: there the one has a brace, and the other what was put
in its place. Later fillings may go on changing the text, also in front of that
place, but never bring the brace back. So a filled path is not the beginning of
anything that begins with the path, unless nothing was filled.

This needs values that begin with something else than a brace. An empty value could
pull the next template into the place of the one that it fills.
-/

import OData.Target.Template
import Mathlib.Data.List.Basic

namespace OData.Target

/-! ## Names, each once -/

theorem mem_distinct {name : String} {names : List String} :
    name ∈ distinct names ↔ name ∈ names := by
  induction names with
  | nil => simp [distinct]
  | cons first rest ih =>
      by_cases same : name = first
      · simp [distinct, same]
      · simp [distinct, same, ih]

theorem nodup_distinct (names : List String) : (distinct names).Nodup := by
  induction names with
  | nil => exact List.nodup_nil
  | cons first rest ih =>
      rw [distinct, List.nodup_cons]
      exact ⟨fun isMember => by simpa using List.of_mem_filter isMember, ih.filter _⟩

theorem filter_distinct (keep : String → Bool) (names : List String) :
    (distinct names).filter keep = distinct (names.filter keep) := by
  induction names with
  | nil => rfl
  | cons name rest ih =>
      rw [distinct, List.filter_cons, List.filter_cons, List.filter_comm, ih]
      cases isKept : keep name with
      | true => rfl
      | false =>
          -- The other copies of a name that is left out are left out as well.
          rw [if_neg Bool.false_ne_true, if_neg Bool.false_ne_true, ← ih, List.filter_filter]
          apply List.filter_congr
          intro other _
          by_cases same : other = name <;> simp [same, isKept]

/-- Names that are kept once are those that come up first. -/
theorem distinct_eq_eraseDups (names : List String) : distinct names = names.eraseDups := by
  cases names with
  | nil => rfl
  | cons name rest =>
      rw [distinct, List.eraseDups_cons, filter_distinct]
      exact congrArg (name :: ·) (distinct_eq_eraseDups (rest.filter (· != name)))
termination_by names.length
decreasing_by exact Nat.lt_succ_of_le (List.length_filter_le _ _)

/-! ## Templates in a text -/

/-- A template of this name stands somewhere in the text. -/
def Occurs (name chars : List Char) : Prop :=
  ∃ front rest after, chars = front ++ '\x7b' :: rest ∧ afterTemplate? name rest = some after

theorem Occurs.behind {name chars : List Char} (occurs : Occurs name chars) (before : List Char) :
    Occurs name (before ++ chars) := by
  obtain ⟨front, rest, after, rfl, isTemplate⟩ := occurs
  exact ⟨before ++ front, rest, after, by rw [List.append_assoc], isTemplate⟩

/-- A template that was found: its name is the run of name characters behind the
blanks, and more blanks may come before the brace that closes it. -/
theorem templateAt?_inversion {chars name after : List Char}
    (found : templateAt? chars = some (name, after)) :
    name = (chars.dropWhile Text.isBlank).takeWhile isNameChar ∧
      ((chars.dropWhile Text.isBlank).dropWhile isNameChar).dropWhile Text.isBlank =
        '\x7d' :: after := by
  simp only [templateAt?] at found
  split at found
  · split at found
    · cases found
    · cases found
      exact ⟨rfl, by assumption⟩
  · cases found

/-- What is left after a template is a part of what it stood in front of. -/
theorem suffix_of_templateAt? {chars name after : List Char}
    (found : templateAt? chars = some (name, after)) : after <:+ chars := by
  obtain ⟨-, closes⟩ := templateAt?_inversion found
  have behindName : '\x7d' :: after <:+ (chars.dropWhile Text.isBlank).dropWhile isNameChar :=
    closes ▸ List.dropWhile_suffix _
  exact (List.suffix_cons _ _).trans
    (behindName.trans ((List.dropWhile_suffix _).trans (List.dropWhile_suffix _)))

/-- The search for templates of any name and that for a given one agree. -/
theorem afterTemplate?_of_templateAt? {chars name after : List Char}
    (found : templateAt? chars = some (name, after)) :
    afterTemplate? name chars = some after := by
  obtain ⟨isName, closes⟩ := templateAt?_inversion found
  have isFirst : name.isPrefixOf (chars.dropWhile Text.isBlank) = true :=
    List.isPrefixOf_iff_prefix.mpr (isName ▸ List.takeWhile_prefix _)
  have others : (chars.dropWhile Text.isBlank).drop name.length =
      (chars.dropWhile Text.isBlank).dropWhile isNameChar := by
    conv_lhs => rw [← List.takeWhile_append_dropWhile (p := isNameChar)
      (l := chars.dropWhile Text.isBlank), ← isName]
    exact List.drop_left
  simp only [afterTemplate?, isFirst, if_true, others, closes]

theorem occurs_of_mem_templateNames {looks : Nat} {chars name : List Char}
    (isMember : name ∈ templateNames looks chars) : Occurs name chars := by
  induction looks generalizing chars with
  | zero => cases isMember
  | succ looks ih =>
      cases chars with
      | nil => cases isMember
      | cons c rest =>
          rw [templateNames] at isMember
          split at isMember
          · rename_i opens
            split at isMember
            · rename_i first after found
              rcases List.mem_cons.mp isMember with rfl | isMember
              · exact ⟨[], rest, after, by rw [opens]; rfl, afterTemplate?_of_templateAt? found⟩
              · -- The search goes on behind the template, in a part of the same text.
                obtain ⟨between, rfl⟩ := suffix_of_templateAt? found
                exact (ih isMember).behind (c :: between)
            · exact (ih isMember).behind [c]
          · exact (ih isMember).behind [c]

theorem occurs_of_mem_parameters {path name : String} (isMember : name ∈ parameters path) :
    Occurs name.toList path.toList := by
  rw [parameters, mem_distinct] at isMember
  obtain ⟨chars, isFound, rfl⟩ := List.mem_map.mp isMember
  rw [String.toList_ofList]
  exact occurs_of_mem_templateNames isFound

/-! ## Departures -/

/-- A text departs from another at an opening brace of that: up to there they agree,
and there it has something else. -/
inductive Departs : List Char → List Char → Prop
  | here {c : Char} {rest others : List Char} (different : c ≠ '\x7b') :
      Departs ('\x7b' :: rest) (c :: others)
  | later {c : Char} {rest others : List Char} (departs : Departs rest others) :
      Departs (c :: rest) (c :: others)

theorem Departs.not_prefix {chars changed : List Char} (departs : Departs chars changed)
    (more : List Char) : ¬ changed <+: chars ++ more := by
  induction departs with
  | here different => exact fun isPrefix => different (List.cons_prefix_cons.mp isPrefix).1
  | later _ ih => exact fun isPrefix => ih (List.cons_prefix_cons.mp isPrefix).2

/-- A value that begins with something else than a brace. -/
def BeginsPlainly (value : List Char) : Prop := ∃ c others, value = c :: others ∧ c ≠ '\x7b'

theorem BeginsPlainly.departs {value : List Char} (plain : BeginsPlainly value)
    (rest more : List Char) : Departs ('\x7b' :: rest) (value ++ more) := by
  obtain ⟨c, others, rfl, different⟩ := plain
  exact .here different

section

variable {name value chars changed : List Char} (plain : BeginsPlainly value)

include plain

theorem departs_of_occurs (occurs : Occurs name chars) {looks : Nat}
    (enough : chars.length ≤ looks) : Departs chars (fill name value looks chars) := by
  obtain ⟨front, rest, after, rfl, isTemplate⟩ := occurs
  induction front generalizing looks with
  | nil =>
      cases looks with
      | zero => cases enough
      | succ looks =>
          rw [List.nil_append, fill, if_pos rfl, isTemplate]
          exact plain.departs _ _
  | cons c front ih =>
      cases looks with
      | zero => cases enough
      | succ looks =>
          have others := ih (Nat.le_of_succ_le_succ enough)
          rw [List.cons_append, fill]
          split
          · rename_i opens
            split
            · -- Another template of the name begins here, and the text departs already.
              rw [opens]
              exact plain.departs _ _
            · exact .later others
          · exact .later others

/-- What departed does not come back by filling other templates. -/
theorem Departs.refilled (departs : Departs chars changed) (looks : Nat) :
    Departs chars (fill name value looks changed) := by
  induction departs generalizing looks with
  | here different =>
      cases looks with
      | zero => exact .here different
      | succ looks =>
          rw [fill, if_neg different]
          exact .here different
  | @later c _ _ departs ih =>
      cases looks with
      | zero => exact .later departs
      | succ looks =>
          rw [fill]
          split
          · rename_i opens
            split
            · -- A template that was completed by the filling reaches in front of the place.
              rw [opens]
              exact plain.departs _ _
            · exact .later (ih looks)
          · exact .later (ih looks)

end

/-! ## Filled paths -/

/-- The value that an input has for the templates of a name. -/
def templateValue? (input : Option Record) (name : String) : Option String :=
  ((input.bind (·.value? Query.names.path)).bind Value.record?).bind fun values =>
    (values.value? name).bind Value.plain?

section

variable {values : Record} {names : List String}

theorem fillWith_of_none {path name : String}
    (missing : (values.value? name).bind Value.plain? = none) :
    fillWith values path name = path := by
  rw [fillWith, missing]

theorem toList_fillWith {path name value : String}
    (given : (values.value? name).bind Value.plain? = some value) :
    (fillWith values path name).toList =
      fill name.toList value.toList path.toList.length path.toList := by
  rw [fillWith, given]
  exact String.toList_ofList

theorem foldl_fillWith_of_none {path : String}
    (missing : ∀ name ∈ names, (values.value? name).bind Value.plain? = none) :
    names.foldl (fillWith values) path = path := by
  induction names with
  | nil => rfl
  | cons name rest ih =>
      obtain ⟨first, others⟩ := List.forall_mem_cons.mp missing
      rw [List.foldl_cons, fillWith_of_none first, ih others]

/-- A path that departed is still departed when more names have been filled. -/
theorem Departs.foldl_fillWith {chars : List Char} {changed : String}
    (departs : Departs chars changed.toList)
    (plain : ∀ name ∈ names, ∀ value, (values.value? name).bind Value.plain? = some value →
      BeginsPlainly value.toList) :
    Departs chars (names.foldl (fillWith values) changed).toList := by
  induction names generalizing changed with
  | nil => exact departs
  | cons name rest ih =>
      obtain ⟨first, others⟩ := List.forall_mem_cons.mp plain
      apply ih _ others
      cases given : (values.value? name).bind Value.plain? with
      | none => exact (fillWith_of_none given).symm ▸ departs
      | some value =>
          rw [toList_fillWith given]
          exact departs.refilled (first value given) _

/-- The first name with a value makes the path depart. -/
theorem departs_foldl_fillWith {path : String}
    (occur : ∀ name ∈ names, Occurs name.toList path.toList)
    (plain : ∀ name ∈ names, ∀ value, (values.value? name).bind Value.plain? = some value →
      BeginsPlainly value.toList)
    (isFilled : ∃ name ∈ names, (values.value? name).bind Value.plain? ≠ none) :
    Departs path.toList (names.foldl (fillWith values) path).toList := by
  induction names with
  | nil => exact absurd isFilled (by simp)
  | cons name rest ih =>
      obtain ⟨occursFirst, occurOthers⟩ := List.forall_mem_cons.mp occur
      obtain ⟨plainFirst, plainOthers⟩ := List.forall_mem_cons.mp plain
      rw [List.foldl_cons]
      cases given : (values.value? name).bind Value.plain? with
      | none =>
          rw [fillWith_of_none given]
          apply ih occurOthers plainOthers
          obtain ⟨other, isMember, hasValue⟩ := isFilled
          rcases List.mem_cons.mp isMember with rfl | isMember
          · exact absurd given hasValue
          · exact ⟨other, isMember, hasValue⟩
      | some value =>
          apply Departs.foldl_fillWith _ plainOthers
          rw [toList_fillWith given]
          exact departs_of_occurs (plainFirst value given) occursFirst (Nat.le_refl _)

end

theorem substitute_of_none {path : String} {input : Option Record}
    (missing : ∀ name ∈ parameters path, templateValue? input name = none) :
    substitute path input = path := by
  unfold templateValue? at missing
  rw [substitute]
  cases found : (input.bind (·.value? Query.names.path)).bind Value.record? with
  | none => rfl
  | some values =>
      rw [found] at missing
      exact foldl_fillWith_of_none missing

/-- A filled path is the beginning of what the path is the beginning of exactly when
no template has a value. -/
theorem substitute_prefix_iff {path : String} {input : Option Record}
    (plain : ∀ name ∈ parameters path, ∀ value, templateValue? input name = some value →
      BeginsPlainly value.toList) (more : List Char) :
    (substitute path input).toList <+: path.toList ++ more ↔
      ∀ name ∈ parameters path, templateValue? input name = none := by
  constructor
  · intro isPrefix
    unfold templateValue? at plain ⊢
    rw [substitute] at isPrefix
    cases found : (input.bind (·.value? Query.names.path)).bind Value.record? with
    | none => exact fun _ _ => rfl
    | some values =>
        rw [found] at isPrefix plain
        by_contra someFilled
        push Not at someFilled
        have departs :=
          departs_foldl_fillWith (fun _ => occurs_of_mem_parameters) plain someFilled
        exact departs.not_prefix more isPrefix
  · intro missing
    rw [substitute_of_none missing]
    exact List.prefix_append _ _

end OData.Target
