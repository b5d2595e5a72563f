/-
# Filling templates at once

The templates of a path are filled name after name, each in the text that the names
before it have left. What one expects is a single pass over the path: every template
with a value gives way to it, everything else is copied, and nothing that was put in is
looked at again. The two are compared here.

They agree, in any order of the names, as long as every brace that opens in the path
begins a template and no value but the last one brings such a brace along. Without that
they need not: a value may hold the template of a later name, and that is filled as well.
A path with one name is safe whatever its value is, and every path with more names has
values for which the two differ.
-/

import OData.Proofs.Record
import OData.Proofs.Target.Scan
import Mathlib.Data.List.Induction

namespace OData.Target

/-! ## One pass -/

/-- The value of the template that begins with the brace before `chars`, if it has one,
and what comes after the template. -/
def valueAt? (value? : List Char → Option (List Char)) (chars : List Char) :
    Option (List Char × List Char) :=
  (templateAt? chars).bind fun parts => (value? parts.1).map fun value => (value, parts.2)

/-- Replace every template that has a value in one pass; each character is looked at once. -/
def fillAll (value? : List Char → Option (List Char)) : (looks : Nat) → List Char → List Char
  | 0, chars => chars
  | _, [] => []
  | looks + 1, c :: rest =>
      if c = '\x7b' then
        match valueAt? value? rest with
        | some (value, after) => value ++ fillAll value? looks after
        | none => c :: fillAll value? looks rest
      else c :: fillAll value? looks rest

/-- The text with all templates replaced that have a value. -/
def filled (value? : List Char → Option (List Char)) (chars : List Char) : List Char :=
  fillAll value? chars.length chars

section

variable {value? : List Char → Option (List Char)}

theorem suffix_of_valueAt? {chars value after : List Char}
    (found : valueAt? value? chars = some (value, after)) : after <:+ chars := by
  obtain ⟨parts, isTemplate, hasValue⟩ := Option.bind_eq_some_iff.mp found
  obtain ⟨_, -, same⟩ := Option.map_eq_some_iff.mp hasValue
  exact (Prod.mk.inj same).2 ▸ suffix_of_templateAt? isTemplate

theorem fillAll_of_le {chars : List Char} {first second : Nat}
    (enough : chars.length ≤ first) (alsoEnough : chars.length ≤ second) :
    fillAll value? first chars = fillAll value? second chars := by
  induction first generalizing chars second with
  | zero =>
      obtain rfl := List.length_eq_zero_iff.mp (Nat.le_zero.mp enough)
      cases second <;> rfl
  | succ first ih =>
      cases chars with
      | nil => cases second <;> rfl
      | cons c rest =>
          cases second with
          | zero => cases alsoEnough
          | succ second =>
              have fits : rest.length ≤ first := Nat.le_of_succ_le_succ enough
              have alsoFits : rest.length ≤ second := Nat.le_of_succ_le_succ alsoEnough
              rw [fillAll, fillAll, ih fits alsoFits]
              split
              · split
                · rename_i found
                  have shorter := (suffix_of_valueAt? found).length_le
                  rw [ih (shorter.trans fits) (shorter.trans alsoFits)]
                · rfl
              · rfl

theorem filled_copied {c : Char} {rest : List Char}
    (isCopied : c = '\x7b' → valueAt? value? rest = none) :
    filled value? (c :: rest) = c :: filled value? rest := by
  rw [filled, List.length_cons, fillAll]
  split
  · rename_i opens
    rw [isCopied opens]
    rfl
  · rfl

theorem filled_plain {c : Char} {rest : List Char} (isPlain : IsPlain c rest) :
    filled value? (c :: rest) = c :: filled value? rest :=
  filled_copied fun opens => by rw [valueAt?, isPlain opens, Option.bind_none]

theorem filled_append {front : List Char} (noBrace : '\x7b' ∉ front) (rest : List Char) :
    filled value? (front ++ rest) = front ++ filled value? rest := by
  induction front with
  | nil => rfl
  | cons c front ih =>
      obtain ⟨isOther, others⟩ := List.ne_and_not_mem_of_not_mem_cons noBrace
      rw [List.cons_append, filled_copied fun opens => absurd opens.symm isOther, ih others,
        List.cons_append]

/-- A template gives way to its value, or is copied. -/
theorem filled_template (template : Template) (rest : List Char) :
    filled value? (template.text ++ rest) =
      (value? template.name).getD template.text ++ filled value? rest := by
  have isTemplate : templateAt? (template.inner ++ '\x7d' :: rest) = some (template.name, rest) :=
    templateAt?_eq_some_iff.mpr ⟨template, rfl, rfl⟩
  have found : valueAt? value? (template.inner ++ '\x7d' :: rest) =
      (value? template.name).map fun value => (value, rest) := by
    rw [valueAt?, isTemplate, Option.bind_some]
  rw [template.text_append]
  cases hasValue : value? template.name with
  | none =>
      rw [hasValue] at found
      have noBrace : '\x7b' ∉ template.inner ++ ['\x7d'] := by
        rw [List.mem_append, List.mem_singleton]
        rintro (inside | same)
        · exact template.not_mem_inner (.inl rfl) inside
        · exact absurd same (by decide)
      have copied : filled value? (template.inner ++ ['\x7d'] ++ rest) =
          template.inner ++ ['\x7d'] ++ filled value? rest := filled_append noBrace rest
      rw [List.append_assoc, List.singleton_append] at copied
      rw [filled_copied fun _ => found, copied]
      rfl
  | some value =>
      rw [hasValue] at found
      have fits : rest.length ≤ (template.inner ++ '\x7d' :: rest).length := by
        rw [List.length_append, List.length_cons]
        omega
      rw [filled, List.length_cons, fillAll, if_pos rfl, found]
      exact congrArg (value ++ ·) (fillAll_of_le fits (Nat.le_refl _))

theorem filled_none (chars : List Char) : filled (fun _ => none) chars = chars := by
  induction chars using scan_induction with
  | nil => rfl
  | plain c rest isPlain ih => rw [filled_plain isPlain, ih]
  | template template rest ih => rw [filled_template, ih, Option.getD_none]

/-- Only the values of names that templates have are asked for. -/
theorem filled_congr {other? : List Char → Option (List Char)} {chars : List Char}
    (same : ∀ name ∈ namesIn chars, value? name = other? name) :
    filled value? chars = filled other? chars := by
  induction chars using scan_induction with
  | nil => rfl
  | plain c rest isPlain ih =>
      rw [namesIn_plain isPlain] at same
      rw [filled_plain isPlain, filled_plain isPlain, ih same]
  | template template rest ih =>
      rw [namesIn_template, List.forall_mem_cons] at same
      rw [filled_template, filled_template, same.1, ih same.2]

end

/-! ## Two passes as one -/

/-- Every brace that opens begins a template. -/
def OpensTemplates : List Char → Prop
  | [] => True
  | c :: rest => (c = '\x7b' → (templateAt? rest).isSome) ∧ OpensTemplates rest

instance decidableOpensTemplates : DecidablePred OpensTemplates
  | [] => .isTrue trivial
  | _ :: rest =>
      have := decidableOpensTemplates rest
      inferInstanceAs (Decidable (_ ∧ _))

theorem OpensTemplates.behind {front rest : List Char} (opens : OpensTemplates (front ++ rest)) :
    OpensTemplates rest := by
  induction front with
  | nil => exact opens
  | cons c front ih => exact ih opens.2

/-- A second pass over a text in which only values without opening braces were put in finds
the templates that the first one left. -/
theorem filled_filled {first? second? : List Char → Option (List Char)} {chars : List Char}
    (opens : OpensTemplates chars)
    (noBrace : ∀ name value, first? name = some value → '\x7b' ∉ value) :
    filled second? (filled first? chars) =
      filled (fun name => (first? name).or (second? name)) chars := by
  induction chars using scan_induction with
  | nil => rfl
  | plain c rest isPlain ih =>
      have isOther : c ≠ '\x7b' := by
        rintro rfl
        have isTemplate := opens.1 rfl
        rw [isPlain rfl] at isTemplate
        cases isTemplate
      rw [filled_plain isPlain, filled_plain isPlain,
        filled_copied fun same => absurd same isOther, ih opens.2]
  | template template rest ih =>
      rw [filled_template, filled_template]
      cases hasValue : first? template.name with
      | none => rw [Option.getD_none, filled_template, ih opens.behind, Option.none_or]
      | some value =>
          rw [Option.getD_some, filled_append (noBrace _ value hasValue), ih opens.behind]
          rfl

/-! ## Name after name -/

/-- The values that a record has for the templates of some names. -/
def valuesOf (names : List String) (values : Record) (name : List Char) : Option (List Char) :=
  if String.ofList name ∈ names then
    ((values.value? (String.ofList name)).bind Value.plain?).map String.toList
  else none

theorem fill_eq_fillAll {name : List Char} (someName : name ≠ [])
    (nameChars : ∀ c ∈ name, isNameChar c = true) (value : List Char) (looks : Nat)
    (chars : List Char) :
    fill name value looks chars =
      fillAll (fun other => if other = name then some value else none) looks chars := by
  have found (rest : List Char) :
      valueAt? (fun other => if other = name then some value else none) rest =
        (afterTemplate? name rest).map fun after => (value, after) := by
    ext parts
    simp only [valueAt?, Option.bind_eq_some_iff, Option.map_eq_some_iff, Prod.exists,
      afterTemplate?_eq_some_iff someName nameChars]
    constructor
    · rintro ⟨other, after, isTemplate, same⟩
      split at same
      · rename_i isName
        simp only [Option.some.injEq, exists_eq_left'] at same
        exact ⟨after, isName ▸ isTemplate, same⟩
      · simp at same
    · rintro ⟨after, isTemplate, rfl⟩
      exact ⟨name, after, isTemplate, value, if_pos rfl, rfl⟩
  induction looks generalizing chars with
  | zero => cases chars <;> rfl
  | succ looks ih =>
      cases chars with
      | nil => rfl
      | cons c rest =>
          rw [fill, fillAll, found]
          cases afterTemplate? name rest <;> simp only [Option.map_none, Option.map_some, ih]

section

variable {values : Record} {names : List String}

/-- Filling the templates of a name is one pass in which only they have a value. -/
theorem toList_fillWith_eq_filled {name : String} (template : Template)
    (isName : template.name = name.toList) (path : String) :
    (fillWith values path name).toList = filled (valuesOf [name] values) path.toList := by
  have ofName (other : List Char) : String.ofList other ∈ [name] ↔ other = name.toList := by
    rw [List.mem_singleton, ← String.toList_inj, String.toList_ofList]
  cases given : (values.value? name).bind Value.plain? with
  | none =>
      have noValue : valuesOf [name] values = fun _ => none := by
        funext other
        simp only [valuesOf, ofName]
        split
        · rename_i same
          rw [same, String.ofList_toList, given, Option.map_none]
        · rfl
      rw [fillWith_of_none given, noValue, filled_none]
  | some value =>
      have oneValue : valuesOf [name] values =
          fun other => if other = name.toList then some value.toList else none := by
        funext other
        simp only [valuesOf, ofName]
        split
        · rename_i same
          rw [same, String.ofList_toList, given, Option.map_some]
        · rfl
      rw [toList_fillWith given, oneValue, ← isName,
        fill_eq_fillAll template.someName template.nameChars]
      rfl

theorem valuesOf_append (others : List String) (name : List Char) :
    (valuesOf names values name).or (valuesOf others values name) =
      valuesOf (names ++ others) values name := by
  unfold valuesOf
  generalize ((values.value? (String.ofList name)).bind Value.plain?).map String.toList = given
  by_cases inFirst : String.ofList name ∈ names
  · cases given <;> simp [inFirst]
  · simp [inFirst]

/-- Name after name, the templates are filled as in one pass, if the values but the last
bring no opening brace into a path in which such braces begin templates. -/
theorem toList_foldl_fillWith {path : String} (opens : OpensTemplates path.toList)
    (areNames : ∀ name ∈ names, ∃ template : Template, template.name = name.toList)
    (noBrace : ∀ name ∈ names.dropLast, ∀ value,
      (values.value? name).bind Value.plain? = some value → '\x7b' ∉ value.toList) :
    (names.foldl (fillWith values) path).toList = filled (valuesOf names values) path.toList := by
  induction names using List.reverseRecOn with
  | nil =>
      have noValue : valuesOf [] values = fun _ => none := by
        funext name
        exact if_neg List.not_mem_nil
      rw [List.foldl_nil, noValue, filled_none]
  | append_singleton names name ih =>
      rw [List.dropLast_concat] at noBrace
      obtain ⟨areOthers, isName⟩ := List.forall_mem_append.mp areNames
      obtain ⟨template, isName⟩ := isName name List.mem_cons_self
      have others := ih areOthers fun other isMember =>
        noBrace other (List.dropLast_subset _ isMember)
      have plainValues : ∀ other value, valuesOf names values other = some value →
          '\x7b' ∉ value := by
        intro other value hasValue
        rw [valuesOf] at hasValue
        split at hasValue
        · rename_i isMember
          obtain ⟨text, given, rfl⟩ := Option.map_eq_some_iff.mp hasValue
          exact noBrace _ isMember text given
        · cases hasValue
      rw [List.foldl_append, List.foldl_cons, List.foldl_nil,
        toList_fillWith_eq_filled template isName, others, filled_filled opens plainValues]
      simp only [valuesOf_append]

end

/-! ## Paths -/

/-- The path with its templates filled name after name, in this order of the names. -/
def fillInOrder (names : List String) (path : String) (input : Option Record) : String :=
  match (input.bind (·.value? Query.names.path)).bind Value.record? with
  | some values => names.foldl (fillWith values) path
  | none => path

/-- The path with its templates filled at once: every template whose name has a value in the
input gives way to it, and everything else is copied. -/
def fillOnce (path : String) (input : Option Record) : String :=
  String.ofList (filled
    (fun name => (templateValue? input (String.ofList name)).map String.toList) path.toList)

theorem substitute_eq_fillInOrder (path : String) (input : Option Record) :
    substitute path input = fillInOrder (parameters path) path input := rfl

section

variable {path : String} {input : Option Record}

theorem fillOnce_of_none (missing : (input.bind (·.value? Query.names.path)).bind Value.record? =
    none) : fillOnce path input = path := by
  have noValue : (fun name => (templateValue? input (String.ofList name)).map String.toList) =
      fun _ => none := by
    funext name
    rw [templateValue?, missing]
    rfl
  rw [fillOnce, noValue, filled_none, String.ofList_toList]

/-- One pass asks for the values of the parameters only. -/
theorem toList_fillOnce {values : Record} {names : List String}
    (given : (input.bind (·.value? Query.names.path)).bind Value.record? = some values)
    (all : ∀ name ∈ parameters path, name ∈ names) :
    (fillOnce path input).toList = filled (valuesOf names values) path.toList := by
  rw [fillOnce, String.toList_ofList]
  apply filled_congr
  intro name isFound
  have isParameter : String.ofList name ∈ parameters path := by
    rw [mem_parameters_iff, String.toList_ofList]
    exact isFound
  rw [templateValue?, given, valuesOf, if_pos (all _ isParameter)]
  rfl

theorem exists_template_of_mem_parameters {name : String} (isParameter : name ∈ parameters path) :
    ∃ template : Template, template.name = name.toList :=
  exists_template_of_mem_namesIn (mem_parameters_iff.mp isParameter)

theorem fillInOrder_eq_fillOnce (opens : OpensTemplates path.toList) {names : List String}
    (areParameters : names.Perm (parameters path))
    (noBrace : ∀ name ∈ names.dropLast, ∀ value, templateValue? input name = some value →
      '\x7b' ∉ value.toList) :
    fillInOrder names path input = fillOnce path input := by
  unfold templateValue? at noBrace
  rw [fillInOrder]
  cases given : (input.bind (·.value? Query.names.path)).bind Value.record? with
  | none => exact (fillOnce_of_none given).symm
  | some values =>
      rw [given] at noBrace
      rw [← String.toList_inj, toList_fillOnce given fun _ => areParameters.mem_iff.mpr]
      exact toList_foldl_fillWith opens
        (fun name isMember =>
          exists_template_of_mem_parameters (areParameters.mem_iff.mp isMember))
        noBrace

theorem substitute_eq_fillOnce_of_single (single : (parameters path).length ≤ 1) :
    substitute path input = fillOnce path input := by
  rw [substitute]
  cases given : (input.bind (·.value? Query.names.path)).bind Value.record? with
  | none => exact (fillOnce_of_none given).symm
  | some values =>
      rw [← String.toList_inj, toList_fillOnce given fun _ => id]
      cases areParameters : parameters path with
      | nil =>
          have noValue : valuesOf [] values = fun _ => none := by
            funext name
            exact if_neg List.not_mem_nil
          rw [noValue, filled_none]
          rfl
      | cons name others =>
          rw [areParameters, List.length_cons] at single
          obtain rfl := List.length_eq_zero_iff.mp
            (Nat.le_zero.mp (Nat.le_of_succ_le_succ single))
          obtain ⟨template, isName⟩ := exists_template_of_mem_parameters
            (areParameters ▸ List.mem_cons_self : name ∈ parameters path)
          exact toList_fillWith_eq_filled template isName path

end

/-! ## Values that hold templates -/

/-- No template begins in the text when a brace opens right behind it. -/
def IsQuiet : List Char → Prop
  | [] => True
  | c :: rest =>
      (c = '\x7b' → ∀ behind, templateAt? (rest ++ '\x7b' :: behind) = none) ∧ IsQuiet rest

/-- A template ends before the next brace that opens, and so it does not depend on what is
behind that. -/
theorem templateAt?_eq_none_congr {front rest : List Char}
    (none : templateAt? (front ++ '\x7b' :: rest) = none) (others : List Char) :
    templateAt? (front ++ '\x7b' :: others) = Option.none := by
  by_contra someFound
  obtain ⟨⟨name, after⟩, found⟩ := Option.ne_none_iff_exists'.mp someFound
  obtain ⟨template, rfl, same⟩ := templateAt?_eq_some_iff.mp found
  have noBrace : '\x7b' ∉ template.inner ++ ['\x7d'] := by
    rw [List.mem_append, List.mem_singleton]
    rintro (inside | same)
    · exact template.not_mem_inner (.inl rfl) inside
    · exact absurd same (by decide)
  rw [List.append_cons template.inner, List.append_eq_append_iff] at same
  rcases same with ⟨between, isInner, others⟩ | ⟨between, isFront, -⟩
  · cases between with
    | nil =>
        rw [List.append_nil] at isInner
        rw [← isInner, ← List.append_cons,
          templateAt?_eq_some_iff.mpr ⟨template, rfl, rfl⟩] at none
        cases none
    | cons c between =>
        obtain ⟨rfl, -⟩ := List.cons.inj others
        exact noBrace (isInner ▸ by simp)
  · rw [isFront, ← List.append_cons, List.append_assoc, List.cons_append,
      templateAt?_eq_some_iff.mpr ⟨template, rfl, rfl⟩] at none
    cases none

theorem filled_quiet {value? : List Char → Option (List Char)} {front : List Char}
    (quiet : IsQuiet front) (rest : List Char) :
    filled value? (front ++ '\x7b' :: rest) = front ++ filled value? ('\x7b' :: rest) := by
  induction front with
  | nil => rfl
  | cons c front ih =>
      have isPlain : IsPlain c (front ++ '\x7b' :: rest) := fun opens => quiet.1 opens rest
      rw [List.cons_append, filled_plain isPlain, ih quiet.2, List.cons_append]

/-- In front of its first template a path is quiet. -/
theorem exists_first_template {chars name : List Char} {others : List (List Char)}
    (areNames : namesIn chars = name :: others) :
    ∃ (front : List Char) (template : Template) (rest : List Char),
      chars = front ++ template.text ++ rest ∧ template.name = name ∧ IsQuiet front := by
  induction chars using scan_induction with
  | nil => cases areNames
  | plain c rest isPlain ih =>
      rw [namesIn_plain isPlain] at areNames
      obtain ⟨front, template, behind, rfl, isName, quiet⟩ := ih areNames
      refine ⟨c :: front, template, behind, rfl, isName, fun opens others => ?_, quiet⟩
      have none := isPlain opens
      rw [List.append_assoc, template.text_append] at none
      exact templateAt?_eq_none_congr none others
  | template template rest _ =>
      rw [namesIn_template] at areNames
      exact ⟨[], template, rest, rfl, (List.cons.inj areNames).1, trivial⟩

theorem filled_behind_quiet {value? : List Char → Option (List Char)} {front : List Char}
    (quiet : IsQuiet front) (template : Template) (rest : List Char) :
    filled value? (front ++ template.text ++ rest) =
      front ++ ((value? template.name).getD template.text ++ filled value? rest) := by
  rw [List.append_assoc, template.text_append, filled_quiet quiet, ← template.text_append,
    filled_template]

theorem exists_namesIn_of_parameters {path name : String} {others : List String}
    (areParameters : parameters path = name :: others) :
    ∃ more, namesIn path.toList = name.toList :: more := by
  rw [parameters] at areParameters
  cases areNames : namesIn path.toList with
  | nil =>
      rw [namesIn] at areNames
      rw [areNames] at areParameters
      cases areParameters
  | cons chars more =>
      rw [namesIn] at areNames
      rw [areNames, List.map_cons, distinct] at areParameters
      obtain ⟨rfl, -⟩ := List.cons.inj areParameters
      exact ⟨more, by rw [String.toList_ofList]⟩

/-- Values for two names: a template of the second one, and a text without braces. -/
def nestedValues (first second : String) : Record := ⟨[
  (first, .scalar (.text ("\x7b" ++ second ++ "\x7d"))), (second, .scalar (.text "x"))]⟩

/-- The input with values for the templates of a path. -/
def pathInput (values : Record) : Option Record := some ⟨[(Query.names.path, .record values)]⟩

/-- When the value of the first name holds a template of the second one, it does not stay. -/
theorem substitute_ne_fillOnce {path first second : String} {others : List String}
    (areParameters : parameters path = first :: second :: others) :
    substitute path (pathInput (nestedValues first second)) ≠
      fillOnce path (pathInput (nestedValues first second)) := by
  have nodup : (parameters path).Nodup := nodup_distinct _
  rw [areParameters, List.nodup_cons, List.nodup_cons, List.mem_cons, not_or] at nodup
  obtain ⟨⟨different, firstElsewhere⟩, secondElsewhere, -⟩ := nodup
  let values := nestedValues first second
  have given : ((pathInput values).bind (·.value? Query.names.path)).bind Value.record? =
      some values := rfl
  have firstHeld : values.value? first =
      some (.scalar (.text ("\x7b" ++ second ++ "\x7d"))) :=
    Record.value?_eq_some_iff.mpr ⟨if_pos rfl, rfl⟩
  have secondHeld : values.value? second = some (.scalar (.text "x")) :=
    Record.value?_eq_some_iff.mpr ⟨(if_neg different).trans (if_pos rfl), rfl⟩
  have noOthers : ∀ name ∈ others, (values.value? name).bind Value.plain? = none := by
    intro name isMember
    have notFirst : first ≠ name := fun same => firstElsewhere (same ▸ isMember)
    have notSecond : second ≠ name := fun same => secondElsewhere (same ▸ isMember)
    have notThere : values.get? name = none := (if_neg notFirst).trans (if_neg notSecond)
    rw [Record.value?, notThere]
    rfl
  obtain ⟨firstTemplate, isFirst⟩ := exists_template_of_mem_parameters
    (areParameters ▸ List.mem_cons_self : first ∈ parameters path)
  obtain ⟨secondTemplate, isSecond⟩ := exists_template_of_mem_parameters
    (areParameters ▸ List.mem_cons_of_mem _ List.mem_cons_self : second ∈ parameters path)
  -- The value of the first name, as the template that it is.
  let nested : Template := { secondTemplate with
    before := []
    behind := []
    blankBefore := fun _ isMember => absurd isMember List.not_mem_nil
    blankBehind := fun _ isMember => absurd isMember List.not_mem_nil }
  have isNested : ("\x7b" ++ second ++ "\x7d").toList = nested.text := by
    simp [nested, Template.text, Template.inner, isSecond]
  obtain ⟨more, areNames⟩ := exists_namesIn_of_parameters areParameters
  obtain ⟨front, template, rest, isPath, isName, quiet⟩ := exists_first_template areNames
  have byName (name : String) (names : List String) (isMember : name ∈ names) :
      valuesOf names values name.toList =
        ((values.value? name).bind Value.plain?).map String.toList := by
    rw [valuesOf, String.ofList_toList, if_pos isMember]
  have allNames : ∀ name ∈ parameters path, name ∈ first :: second :: others :=
    fun name isMember => areParameters ▸ isMember
  have once : (fillOnce path (pathInput values)).toList =
      front ++ (nested.text ++ filled (valuesOf (first :: second :: others) values) rest) := by
    rw [toList_fillOnce given allNames, isPath, filled_behind_quiet quiet, isName,
      byName _ _ List.mem_cons_self, firstHeld]
    exact congrArg (fun text => front ++ (text ++ _)) isNested
  -- Filled name after name, what was put in for the first name is filled for the second one.
  have firstFilled : (fillWith values path first).toList =
      front ++ nested.text ++ filled (valuesOf [first] values) rest := by
    rw [toList_fillWith_eq_filled firstTemplate isFirst, isPath, filled_behind_quiet quiet,
      isName, byName _ _ List.mem_cons_self, firstHeld, List.append_assoc]
    exact congrArg (fun text => front ++ (text ++ _)) isNested
  have inOrder : (substitute path (pathInput values)).toList =
      front ++ (['x'] ++ filled (valuesOf [second] values)
        (filled (valuesOf [first] values) rest)) := by
    have isSubstitute : substitute path (pathInput values) =
        (parameters path).foldl (fillWith values) path := rfl
    rw [isSubstitute, areParameters, List.foldl_cons, List.foldl_cons,
      foldl_fillWith_of_none noOthers, toList_fillWith_eq_filled secondTemplate isSecond,
      firstFilled, filled_behind_quiet quiet]
    have sameName : nested.name = second.toList := isSecond
    rw [sameName, byName _ _ List.mem_cons_self, secondHeld]
    rfl
  intro same
  have atFront : ['x'] ++ _ = nested.text ++ _ :=
    List.append_cancel_left (inOrder.symm.trans ((congrArg String.toList same).trans once))
  have sameChar : 'x' = '\x7b' := (List.cons.inj atFront).1
  exact absurd sameChar (by decide)

/-- The values of other names do not matter, nor how the values are kept. -/
theorem substitute_congr {path : String} {input other : Option Record}
    (same : ∀ name ∈ parameters path, templateValue? other name = templateValue? input name) :
    substitute path other = substitute path input := by
  have byValues (input : Option Record) : substitute path input =
      (parameters path).foldl (fun text name =>
        (templateValue? input name).elim text fun value =>
          String.ofList (fill name.toList value.toList text.toList.length text.toList)) path := by
    unfold templateValue?
    rw [substitute]
    cases (input.bind (·.value? Query.names.path)).bind Value.record? with
    | none =>
        show path = (parameters path).foldl (fun text _ => text) path
        rw [List.foldl_fixed]
    | some values =>
        have step : fillWith values = fun text name =>
            ((values.value? name).bind Value.plain?).elim text fun value =>
              String.ofList (fill name.toList value.toList text.toList.length text.toList) := by
          funext text name
          rw [fillWith]
          cases (values.value? name).bind Value.plain? <;> rfl
        exact congrArg (fun filling => (parameters path).foldl filling path) step
  rw [byValues, byValues]
  exact List.foldl_ext _ _ _ fun text name isMember => by rw [same name isMember]

/-- The templates of a path are filled name after name, in the order in which the names first
occur. That is one pass over the path, and would be in every other order, if every brace that
opens in the path begins a template and no value but the last one holds such a brace. Whatever
the values are, it is one pass exactly if the path has at most one name: a value can hold the
template of another name only where there is one. The input matters by its values for the names
of the path alone. -/
theorem substitute_eq_fillOnce_iff (path : String) :
    (∀ input, substitute path input = fillInOrder (parameters path) path input) ∧
    (OpensTemplates path.toList → ∀ input names, names.Perm (parameters path) →
      (∀ name ∈ names.dropLast, ∀ value, templateValue? input name = some value →
        '\x7b' ∉ value.toList) →
      fillInOrder names path input = fillOnce path input) ∧
    ((∀ input, substitute path input = fillOnce path input) ↔ (parameters path).length ≤ 1) ∧
    ∀ input other,
      (∀ name ∈ parameters path, templateValue? other name = templateValue? input name) →
        substitute path other = substitute path input := by
  refine ⟨substitute_eq_fillInOrder path, fun opens _ _ areParameters noBrace =>
    fillInOrder_eq_fillOnce opens areParameters noBrace, ⟨?_, ?_⟩, fun _ _ => substitute_congr⟩
  · intro same
    cases areParameters : parameters path with
    | nil => exact Nat.zero_le 1
    | cons first rest =>
        cases rest with
        | nil => exact Nat.le_refl 1
        | cons second others => exact absurd (same _) (substitute_ne_fillOnce areParameters)
  · exact fun single _ => substitute_eq_fillOnce_of_single single

/-- A path with two templates. -/
def pairPath : String := "/\x7ba\x7d/\x7bb\x7d"

/-- Its values, that of `a` a template of `b`. -/
def pairInput : Option Record := pathInput (nestedValues "a" "b")

/-- What was put in for `a` is filled again where `a` comes first, and stays where `b` does. -/
theorem template_in_value_filled_again :
    parameters pairPath = ["a", "b"] ∧ substitute pairPath pairInput = "/x/x" ∧
      fillOnce pairPath pairInput = "/\x7bb\x7d/x" ∧
      fillInOrder ["b", "a"] pairPath pairInput = fillOnce pairPath pairInput := by
  obtain ⟨-, inOrder, -⟩ := substitute_eq_fillOnce_iff pairPath
  refine ⟨rfl, by decide +kernel, by decide +kernel,
    inOrder (by decide) pairInput ["b", "a"] (by decide) ?_⟩
  intro name isMember value isValue
  obtain rfl := List.mem_singleton.mp isMember
  obtain rfl : "x" = value := Option.some.inj isValue
  decide

end OData.Target
