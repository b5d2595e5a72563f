/-
# Every template is found

A path is searched from left to right, and the search goes on behind a template once it
has found one. Nothing is missed by that: there is no brace between the braces of a
template, so no template begins inside another, and where stray or nested braces stand the
search goes on with the next character. The parameters of a path are therefore the names
that are written in braces anywhere in it, each where it is written first.

A name is then looked for by itself, and is found wherever one of its templates is written,
whatever characters it is made of. A text is so cut into these templates and the
characters between them, and filling puts the value in the place of each of the former.
-/

import OData.Proofs.Target.Filling

namespace OData.Target

/-! ## Where templates begin -/

/-- A template of the name begins at the position. -/
def BeginsAt (chars name : List Char) (position : Nat) : Prop :=
  ∃ (template : Template) (front rest : List Char),
    template.name = name ∧ front.length = position ∧ chars = front ++ (template.text ++ rest)

/-- Templates that begin at the same place have the same name. -/
theorem Template.name_eq {first second : Template} {rest after : List Char}
    (same : first.text ++ rest = second.text ++ after) : first.name = second.name := by
  rw [first.text_append, second.text_append] at same
  have found : templateAt? (first.inner ++ '\x7d' :: rest) = some (first.name, rest) :=
    templateAt?_eq_some_iff.mpr ⟨first, rfl, rfl⟩
  have alsoFound : templateAt? (first.inner ++ '\x7d' :: rest) = some (second.name, after) :=
    templateAt?_eq_some_iff.mpr ⟨second, rfl, List.tail_eq_of_cons_eq same⟩
  rw [found, Option.some.injEq, Prod.mk.injEq] at alsoFound
  exact alsoFound.1

/-- No template begins inside another. -/
theorem Template.not_inside (template : Template) {c : Char} {front more : List Char}
    (whole : template.text = c :: front ++ '\x7b' :: more) : False := by
  have isTail : template.inner ++ ['\x7d'] = front ++ '\x7b' :: more :=
    List.tail_eq_of_cons_eq whole
  have inside : '\x7b' ∈ template.inner ++ ['\x7d'] := by simp [isTail]
  rcases List.mem_append.mp inside with isInner | isEnd
  · exact template.not_mem_inner (.inl rfl) isInner
  · exact absurd (List.mem_singleton.mp isEnd) (by decide)

section

variable {name : List Char} {position : Nat}

theorem not_beginsAt_nil : ¬BeginsAt [] name position := by
  rintro ⟨template, front, rest, -, -, whole⟩
  simp [Template.text] at whole

/-- In front of what a plain character precedes, no template begins. -/
theorem beginsAt_plain_iff {c : Char} {rest : List Char} (isPlain : IsPlain c rest) :
    BeginsAt (c :: rest) name position ↔
      ∃ behind, position = behind + 1 ∧ BeginsAt rest name behind := by
  constructor
  · rintro ⟨template, front, after, isName, isPosition, whole⟩
    cases front with
    | nil =>
        rw [List.nil_append, template.text_append, List.cons.injEq] at whole
        have found : templateAt? rest = some (template.name, after) :=
          templateAt?_eq_some_iff.mpr ⟨template, rfl, whole.2⟩
        rw [isPlain whole.1] at found
        cases found
    | cons first front =>
        rw [List.cons_append, List.cons.injEq] at whole
        exact ⟨front.length, isPosition.symm, template, front, after, isName, rfl, whole.2⟩
  · rintro ⟨behind, rfl, template, front, after, isName, isPosition, rfl⟩
    exact ⟨template, c :: front, after, isName, by rw [List.length_cons, isPosition], rfl⟩

/-- Where a text begins with a template, that template begins, and those behind it do. -/
theorem beginsAt_template_iff {template : Template} {rest : List Char} :
    BeginsAt (template.text ++ rest) name position ↔
      name = template.name ∧ position = 0 ∨
        ∃ behind, position = template.text.length + behind ∧ BeginsAt rest name behind := by
  constructor
  · rintro ⟨other, front, after, rfl, rfl, whole⟩
    rcases List.append_eq_append_iff.mp whole with ⟨more, rfl, isRest⟩ | ⟨more, isText, isOther⟩
    · exact .inr ⟨more.length, List.length_append, other, more, after, rfl, rfl, isRest⟩
    · rw [other.text_append] at isOther
      cases more with
      | nil =>
          rw [List.append_nil] at isText
          rw [List.nil_append, ← other.text_append] at isOther
          exact .inr ⟨0, by rw [isText]; rfl, other, [], after, rfl, rfl, isOther.symm⟩
      | cons brace more =>
          obtain rfl := (List.cons.inj isOther).1
          cases front with
          | nil => exact .inl ⟨(Template.name_eq whole).symm, rfl⟩
          | cons c front => exact (template.not_inside isText).elim
  · rintro (⟨rfl, rfl⟩ | ⟨behind, rfl, other, front, after, isName, rfl, rfl⟩)
    · exact ⟨template, [], rest, rfl, rfl, rfl⟩
    · exact ⟨other, template.text ++ front, after, isName, List.length_append,
        (List.append_assoc _ _ _).symm⟩

end

/-- The names in a text are those of the templates that begin somewhere in it. -/
theorem mem_namesIn_iff {chars name : List Char} :
    name ∈ namesIn chars ↔ ∃ position, BeginsAt chars name position := by
  induction chars using scan_induction with
  | nil =>
      refine iff_of_false List.not_mem_nil ?_
      rintro ⟨position, begins⟩
      exact not_beginsAt_nil begins
  | plain c rest isPlain ih =>
      rw [namesIn_plain isPlain, ih]
      simp only [beginsAt_plain_iff isPlain]
      exact ⟨fun ⟨behind, begins⟩ => ⟨behind + 1, behind, rfl, begins⟩,
        fun ⟨_, behind, _, begins⟩ => ⟨behind, begins⟩⟩
  | template template rest ih =>
      rw [namesIn_template, List.mem_cons, ih]
      simp only [beginsAt_template_iff]
      constructor
      · rintro (isName | ⟨behind, begins⟩)
        · exact ⟨0, .inl ⟨isName, rfl⟩⟩
        · exact ⟨_, .inr ⟨behind, rfl, begins⟩⟩
      · rintro ⟨position, ⟨isName, -⟩ | ⟨behind, -, begins⟩⟩
        · exact .inl isName
        · exact .inr ⟨behind, begins⟩

/-! ## The order of names -/

/-- A template of the first name begins before all templates of the second. -/
def BeginsBefore (chars first second : List Char) : Prop :=
  ∃ position, BeginsAt chars first position ∧
    ∀ other, BeginsAt chars second other → position < other

/-- Names come in the order in which they are written first. -/
theorem pairwise_distinct_namesIn (chars : List Char) :
    (distinct ((namesIn chars).map String.ofList)).Pairwise fun first second =>
      BeginsBefore chars first.toList second.toList := by
  induction chars using scan_induction with
  | nil => exact .nil
  | plain c rest isPlain ih =>
      rw [namesIn_plain isPlain]
      refine ih.imp fun ⟨position, begins, isFirst⟩ =>
        ⟨position + 1, (beginsAt_plain_iff isPlain).mpr ⟨position, rfl, begins⟩, ?_⟩
      intro other alsoBegins
      obtain ⟨behind, rfl, inRest⟩ := (beginsAt_plain_iff isPlain).mp alsoBegins
      have before := isFirst behind inRest
      omega
  | template template rest ih =>
      have notFirst {name : String} (different : (name != String.ofList template.name) = true) :
          name.toList ≠ template.name := by
        intro same
        rw [← same, String.ofList_toList, bne_self_eq_false] at different
        cases different
      rw [namesIn_template, List.map_cons, distinct, List.pairwise_cons]
      constructor
      · intro name isMember
        have different := notFirst (List.mem_filter.mp isMember).2
        refine ⟨0, beginsAt_template_iff.mpr (.inl ⟨String.toList_ofList, rfl⟩), ?_⟩
        intro other begins
        rcases beginsAt_template_iff.mp begins with ⟨same, -⟩ | ⟨behind, rfl, -⟩
        · exact absurd same different
        · rw [Template.text, List.length_cons]
          omega
      · refine (ih.filter _).imp_of_mem fun _ isMember ⟨position, begins, isFirst⟩ =>
          ⟨_, beginsAt_template_iff.mpr (.inr ⟨position, rfl, begins⟩), ?_⟩
        have different := notFirst (List.mem_filter.mp isMember).2
        intro other alsoBegins
        rcases beginsAt_template_iff.mp alsoBegins with ⟨same, -⟩ | ⟨behind, rfl, inRest⟩
        · exact absurd same different
        · have before := isFirst behind inRest
          omega

/-! ## The templates of one name -/

/-- A piece of a text: a character, or a template that is looked for. -/
inductive Piece where
  | copied (c : Char)
  | found (template : Template)

namespace Piece

/-- What the piece is in the text. -/
def text : Piece → List Char
  | copied c => [c]
  | found template => template.text

/-- What the piece is in the filled text. -/
def filled (value : List Char) : Piece → List Char
  | copied c => [c]
  | found _ => value

end Piece

/-- The text is cut at its templates of one name: they are pieces of their own, wherever they
begin, and so are the characters between them. -/
structure IsCutAt (name chars : List Char) (pieces : List Piece) : Prop where
  whole : chars = pieces.flatMap Piece.text
  named : ∀ template, .found template ∈ pieces → template.name = name
  everywhere : ∀ position, BeginsAt chars name position → ∃ template before after,
    pieces = before ++ .found template :: after ∧
      position = (before.flatMap Piece.text).length

section

variable {name : List Char} {position : Nat} {pieces : List Piece}

theorem IsCutAt.copied {c : Char} {rest : List Char} (isPlain : IsPlain c rest)
    (isCut : IsCutAt name rest pieces) : IsCutAt name (c :: rest) (.copied c :: pieces) where
  whole := by rw [isCut.whole]; rfl
  named template isMember := by
    rcases List.mem_cons.mp isMember with same | isMember
    · cases same
    · exact isCut.named template isMember
  everywhere position begins := by
    obtain ⟨behind, rfl, inRest⟩ := (beginsAt_plain_iff isPlain).mp begins
    obtain ⟨template, before, after, rfl, rfl⟩ := isCut.everywhere behind inRest
    exact ⟨template, .copied c :: before, after, rfl, rfl⟩

theorem IsCutAt.found {template : Template} {rest : List Char}
    (isCut : IsCutAt template.name rest pieces) :
    IsCutAt template.name (template.text ++ rest) (.found template :: pieces) where
  whole := by rw [isCut.whole]; rfl
  named other isMember := by
    rcases List.mem_cons.mp isMember with same | isMember
    · rw [Piece.found.inj same]
    · exact isCut.named other isMember
  everywhere position begins := by
    rcases beginsAt_template_iff.mp begins with ⟨-, rfl⟩ | ⟨behind, rfl, inRest⟩
    · exact ⟨template, [], pieces, rfl, rfl⟩
    · obtain ⟨other, before, after, rfl, rfl⟩ := isCut.everywhere behind inRest
      exact ⟨other, .found template :: before, after, rfl, by
        rw [List.flatMap_cons, List.length_append]; rfl⟩

theorem flatMap_copied {show? : Piece → List Char} (isCopied : ∀ c, show? (.copied c) = [c])
    (chars : List Char) : (chars.map Piece.copied).flatMap show? = chars := by
  simp only [List.flatMap_map, isCopied, List.flatMap_singleton']

/-- Templates of other names are characters like any others. -/
theorem IsCutAt.passed {template : Template} {rest : List Char} (isOther : template.name ≠ name)
    (isCut : IsCutAt name rest pieces) :
    IsCutAt name (template.text ++ rest) (template.text.map .copied ++ pieces) where
  whole := by rw [isCut.whole, List.flatMap_append, flatMap_copied fun _ => rfl]
  named other isMember := by
    rcases List.mem_append.mp isMember with isMember | isMember
    · simp at isMember
    · exact isCut.named other isMember
  everywhere position begins := by
    rcases beginsAt_template_iff.mp begins with ⟨same, -⟩ | ⟨behind, rfl, inRest⟩
    · exact absurd same.symm isOther
    · obtain ⟨other, before, after, rfl, rfl⟩ := isCut.everywhere behind inRest
      refine ⟨other, template.text.map .copied ++ before, after, by rw [List.append_assoc], ?_⟩
      rw [List.flatMap_append, List.length_append, flatMap_copied fun _ => rfl]

end

/-- A text is cut at the templates of a name, and filling puts the value in their places. -/
theorem exists_isCutAt (name chars : List Char) :
    ∃ pieces, IsCutAt name chars pieces ∧
      ∀ value, filled (fun other => if other = name then some value else none) chars =
        pieces.flatMap (Piece.filled value) := by
  induction chars using scan_induction with
  | nil =>
      have nothing : IsCutAt name [] [] :=
        ⟨rfl, by simp, fun _ begins => (not_beginsAt_nil begins).elim⟩
      exact ⟨[], nothing, fun _ => rfl⟩
  | plain c rest isPlain ih =>
      obtain ⟨pieces, isCut, areFilled⟩ := ih
      refine ⟨_, isCut.copied isPlain, fun value => ?_⟩
      rw [filled_plain isPlain, areFilled]
      rfl
  | template template rest ih =>
      obtain ⟨pieces, isCut, areFilled⟩ := ih
      by_cases isName : template.name = name
      · subst isName
        refine ⟨_, isCut.found, fun value => ?_⟩
        rw [filled_template, areFilled, if_pos rfl]
        rfl
      · refine ⟨_, isCut.passed isName, fun value => ?_⟩
        rw [filled_template, areFilled, if_neg isName, List.flatMap_append,
          flatMap_copied fun _ => rfl]
        rfl

/-- A template of a name is found by the search for that name, and nothing else is. -/
theorem afterTemplate?_iff_template {template : Template} {rest after : List Char} :
    afterTemplate? template.name rest = some after ↔
      ∃ other : Template, other.name = template.name ∧ '\x7b' :: rest = other.text ++ after := by
  rw [afterTemplate?_eq_some_iff template.someName template.nameChars, templateAt?_eq_some_iff]
  simp only [Template.text_append, List.cons.injEq, true_and]

/-- The parameters of a path are the names of the templates that begin anywhere in it, each
once, in the order in which they are written first. The search for one of these names finds
its templates and nothing else: at one place, and in a whole text, where the value is put in
the place of every template of the name and all else is copied. -/
theorem parameters_are_templates (path : String) :
    (parameters path).Nodup ∧
    (∀ name : String, name ∈ parameters path ↔
      ∃ position, BeginsAt path.toList name.toList position) ∧
    (parameters path).Pairwise (fun first second =>
      BeginsBefore path.toList first.toList second.toList) ∧
    ∀ name ∈ parameters path,
      (∀ rest after, afterTemplate? name.toList rest = some after ↔
        ∃ template : Template, template.name = name.toList ∧
          '\x7b' :: rest = template.text ++ after) ∧
      ∀ text : String, ∃ pieces, IsCutAt name.toList text.toList pieces ∧
        ∀ (values : Record) (value : String),
          (values.value? name).bind Value.plain? = some value →
          (fillWith values text name).toList = pieces.flatMap (Piece.filled value.toList) := by
  refine ⟨nodup_distinct _, ?_, pairwise_distinct_namesIn path.toList, ?_⟩
  · intro name
    rw [mem_parameters_iff, mem_namesIn_iff]
  · intro name isMember
    obtain ⟨template, isName⟩ := exists_template_of_mem_namesIn (mem_parameters_iff.mp isMember)
    rw [← isName]
    refine ⟨fun rest after => afterTemplate?_iff_template, fun text => ?_⟩
    obtain ⟨pieces, isCut, areFilled⟩ := exists_isCutAt template.name text.toList
    refine ⟨pieces, isCut, fun values value given => ?_⟩
    rw [toList_fillWith given, ← isName, fill_eq_fillAll template.someName template.nameChars]
    exact areFilled value.toList

/-- A path with a stray brace, blanks in templates, and a name of special characters. -/
def specialPath : String := "/\x7b\x7ba.b* \x7d/\x7b c\x7d/\x7ba.b*\x7d"

/-- The special characters of a name stand for themselves: another name that they might
stand for in a pattern is not found in their place. -/
theorem special_name_found_verbatim :
    parameters specialPath = ["a.b*", "c"] ∧
      afterTemplate? "a.b*".toList " a.b*\x7d/x".toList = some "/x".toList ∧
      afterTemplate? "a.b*".toList " axbb\x7d/x".toList = none := by
  have isMember : "a.b*" ∈ parameters specialPath := by decide +kernel
  have found := ((parameters_are_templates specialPath).2.2.2 "a.b*" isMember).1
  refine ⟨by decide +kernel, (found _ _).mpr ?_, by decide +kernel⟩
  let template : Template := {
    before := [' ']
    name := "a.b*".toList
    behind := []
    blankBefore := List.all_eq_true.mp rfl
    someName := by decide
    nameChars := List.all_eq_true.mp rfl
    blankBehind := List.forall_mem_nil _ }
  exact ⟨template, rfl, rfl⟩

end OData.Target
