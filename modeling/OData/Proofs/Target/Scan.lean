/-
# Templates in a path

A path is read from left to right: either a template begins at the next character, or the
character stands for itself. A template is what is written as one, a name in braces with
blanks around it, and it is found wherever it is written, be it by the search for templates
of any name or by that for a given one. So a path is taken up template by template, and its
names are those of the templates that are passed on the way.
-/

import OData.Proofs.Target.Template
import OData.Proofs.Text.Search
import Mathlib.Data.List.TakeWhile

namespace OData.Target

/-! ## Templates as they are written -/

/-- A template as it is written: a name in braces, with blanks around it. -/
structure Template where
  before : List Char
  name : List Char
  behind : List Char
  blankBefore : ∀ c ∈ before, Text.isBlank c = true
  someName : name ≠ []
  nameChars : ∀ c ∈ name, isNameChar c = true
  blankBehind : ∀ c ∈ behind, Text.isBlank c = true

namespace Template

/-- What stands between the braces. -/
def inner (template : Template) : List Char :=
  template.before ++ template.name ++ template.behind

/-- The template with its braces. -/
def text (template : Template) : List Char := '\x7b' :: (template.inner ++ ['\x7d'])

theorem text_append (template : Template) (rest : List Char) :
    template.text ++ rest = '\x7b' :: (template.inner ++ '\x7d' :: rest) := by
  rw [text, List.cons_append, List.append_assoc, List.singleton_append]

end Template

theorem not_isBlank_of_isNameChar {c : Char} (isName : isNameChar c = true) :
    Text.isBlank c = false := by
  simp only [isNameChar, Bool.and_eq_true, Bool.not_eq_true'] at isName
  exact isName.2

/-- There is no brace between the braces of a template. -/
theorem Template.not_mem_inner (template : Template) {c : Char}
    (isBrace : c = '\x7b' ∨ c = '\x7d') : c ∉ template.inner := by
  have noName : isNameChar c = false := by rcases isBrace with rfl | rfl <;> decide
  have noBlank : Text.isBlank c = false := by rcases isBrace with rfl | rfl <;> decide
  rw [inner, List.mem_append, List.mem_append]
  rintro ((isMember | isMember) | isMember)
  · exact Bool.noConfusion (noBlank.symm.trans (template.blankBefore c isMember))
  · exact Bool.noConfusion (noName.symm.trans (template.nameChars c isMember))
  · exact Bool.noConfusion (noBlank.symm.trans (template.blankBehind c isMember))

/-- A template is found where one is written. -/
theorem templateAt?_eq_some_iff {chars name after : List Char} :
    templateAt? chars = some (name, after) ↔
      ∃ template : Template,
        template.name = name ∧ chars = template.inner ++ '\x7d' :: after := by
  constructor
  · intro found
    obtain ⟨rfl, closes⟩ := templateAt?_inversion found
    have someName : (chars.dropWhile Text.isBlank).takeWhile isNameChar ≠ [] := by
      intro noName
      simp [templateAt?, closes, noName] at found
    refine ⟨⟨chars.takeWhile Text.isBlank, _,
      ((chars.dropWhile Text.isBlank).dropWhile isNameChar).takeWhile Text.isBlank,
      fun c isMember => List.mem_takeWhile_imp isMember, someName,
      fun c isMember => List.mem_takeWhile_imp isMember,
      fun c isMember => List.mem_takeWhile_imp isMember⟩, rfl, ?_⟩
    rw [← closes, Template.inner, List.append_assoc, List.takeWhile_append_dropWhile,
      List.append_assoc, List.takeWhile_append_dropWhile, List.takeWhile_append_dropWhile]
  · rintro ⟨template, rfl, rfl⟩
    obtain ⟨first, others, isCons⟩ := List.exists_cons_of_ne_nil template.someName
    have blanksEnd : ∀ c ∈ (template.name ++ (template.behind ++ '\x7d' :: after)).head?,
        Text.isBlank c = false := by
      intro c isHead
      rw [isCons, List.cons_append, List.head?_cons] at isHead
      obtain rfl := Option.some.inj isHead
      exact not_isBlank_of_isNameChar (template.nameChars first (isCons ▸ List.mem_cons_self))
    have nameEnds : ∀ c ∈ (template.behind ++ '\x7d' :: after).head?, isNameChar c = false := by
      intro c isHead
      cases isBehind : template.behind with
      | nil =>
          rw [isBehind] at isHead
          obtain rfl := Option.some.inj isHead
          decide
      | cons blank more =>
          rw [isBehind] at isHead
          obtain rfl := Option.some.inj isHead
          have isBlank := template.blankBehind blank (isBehind ▸ List.mem_cons_self)
          simp [isNameChar, isBlank]
    have braceEnds : ∀ c ∈ ('\x7d' :: after).head?, Text.isBlank c = false := by
      intro c isHead
      obtain rfl := Option.some.inj isHead
      decide
    have someName : template.name.isEmpty = false := by simpa using template.someName
    rw [Template.inner, List.append_assoc, List.append_assoc, templateAt?]
    simp only [Text.takeWhile_dropWhile_append template.blankBefore blanksEnd,
      Text.takeWhile_dropWhile_append template.nameChars nameEnds,
      Text.takeWhile_dropWhile_append template.blankBehind braceEnds, someName]
    rfl

/-- For a name that templates may have, looking for its templates is looking for templates. -/
theorem afterTemplate?_eq_some_iff {name chars after : List Char} (someName : name ≠ [])
    (nameChars : ∀ c ∈ name, isNameChar c = true) :
    afterTemplate? name chars = some after ↔ templateAt? chars = some (name, after) := by
  constructor
  · intro found
    simp only [afterTemplate?] at found
    split at found
    · rename_i isPrefix
      split at found
      · rename_i rest closes
        obtain rfl := Option.some.inj found
        obtain ⟨others, isInner⟩ := List.isPrefixOf_iff_prefix.mp isPrefix
        rw [← isInner, List.drop_left] at closes
        refine templateAt?_eq_some_iff.mpr ⟨⟨chars.takeWhile Text.isBlank, name,
          others.takeWhile Text.isBlank, fun c isMember => List.mem_takeWhile_imp isMember,
          someName, nameChars, fun c isMember => List.mem_takeWhile_imp isMember⟩, rfl, ?_⟩
        rw [← closes, Template.inner, List.append_assoc, List.append_assoc,
          List.takeWhile_append_dropWhile, isInner, List.takeWhile_append_dropWhile]
      · cases found
    · cases found
  · exact afterTemplate?_of_templateAt?

/-! ## Reading a path -/

/-- No template begins with the character in front of the rest. -/
def IsPlain (c : Char) (rest : List Char) : Prop := c = '\x7b' → templateAt? rest = none

/-- A path is taken up template by template, and character by character between them. -/
theorem scan_induction {motive : List Char → Prop} (nil : motive [])
    (plain : ∀ c rest, IsPlain c rest → motive rest → motive (c :: rest))
    (template : ∀ (template : Template) (rest : List Char), motive rest →
      motive (template.text ++ rest))
    (chars : List Char) : motive chars := by
  induction length : chars.length using Nat.strong_induction_on generalizing chars with
  | _ n ih =>
    cases chars with
    | nil => exact nil
    | cons c rest =>
        rw [List.length_cons] at length
        have plainly (isPlain : IsPlain c rest) : motive (c :: rest) :=
          plain c rest isPlain (ih rest.length (by omega) rest rfl)
        by_cases opens : c = '\x7b'
        · cases found : templateAt? rest with
          | none => exact plainly fun _ => found
          | some parts =>
              obtain ⟨written, -, isRest⟩ := templateAt?_eq_some_iff.mp found
              have shorter : parts.2.length < n := by
                rw [isRest, List.length_append, List.length_cons] at length
                omega
              rw [opens, isRest, ← written.text_append]
              exact template written parts.2 (ih _ shorter parts.2 rfl)
        · exact plainly fun same => absurd same opens

/-- Looking longer than there are characters finds no more. -/
theorem templateNames_of_le {chars : List Char} {first second : Nat}
    (enough : chars.length ≤ first) (alsoEnough : chars.length ≤ second) :
    templateNames first chars = templateNames second chars := by
  induction first generalizing chars second with
  | zero =>
      obtain rfl := List.length_eq_zero_iff.mp (Nat.le_zero.mp enough)
      cases second <;> rfl
  | succ first ih =>
      cases chars with
      | nil => cases second <;> rfl
      | cons c rest =>
          cases second with
          | zero => cases alsoEnough
          | succ second =>
              have fits : rest.length ≤ first := Nat.le_of_succ_le_succ enough
              have alsoFits : rest.length ≤ second := Nat.le_of_succ_le_succ alsoEnough
              rw [templateNames, templateNames, ih fits alsoFits]
              split
              · split
                · rename_i found
                  have shorter := (suffix_of_templateAt? found).length_le
                  rw [ih (shorter.trans fits) (shorter.trans alsoFits)]
                · rfl
              · rfl

/-- The names of the templates of a text, in order. -/
def namesIn (chars : List Char) : List (List Char) := templateNames chars.length chars

theorem namesIn_plain {c : Char} {rest : List Char} (isPlain : IsPlain c rest) :
    namesIn (c :: rest) = namesIn rest := by
  rw [namesIn, List.length_cons, templateNames]
  split
  · rename_i opens
    rw [isPlain opens]
    rfl
  · rfl

theorem namesIn_template (template : Template) (rest : List Char) :
    namesIn (template.text ++ rest) = template.name :: namesIn rest := by
  have found : templateAt? (template.inner ++ '\x7d' :: rest) = some (template.name, rest) :=
    templateAt?_eq_some_iff.mpr ⟨template, rfl, rfl⟩
  have fits : rest.length ≤ (template.inner ++ '\x7d' :: rest).length := by
    rw [List.length_append, List.length_cons]
    omega
  rw [template.text_append, namesIn, List.length_cons, templateNames, if_pos rfl, found]
  exact congrArg _ (templateNames_of_le fits (Nat.le_refl _))

theorem exists_template_of_mem_namesIn {chars name : List Char}
    (isMember : name ∈ namesIn chars) :
    ∃ template : Template, template.name = name := by
  induction chars using scan_induction with
  | nil => cases isMember
  | plain c rest isPlain ih =>
      rw [namesIn_plain isPlain] at isMember
      exact ih isMember
  | template template rest ih =>
      rw [namesIn_template] at isMember
      rcases List.mem_cons.mp isMember with rfl | isMember
      · exact ⟨template, rfl⟩
      · exact ih isMember

/-- The parameters of a path are the names of its templates. -/
theorem mem_parameters_iff {path name : String} :
    name ∈ parameters path ↔ name.toList ∈ namesIn path.toList := by
  rw [parameters, mem_distinct, List.mem_map]
  constructor
  · rintro ⟨chars, isFound, rfl⟩
    rwa [String.toList_ofList]
  · intro isFound
    exact ⟨name.toList, isFound, String.ofList_toList⟩

end OData.Target
