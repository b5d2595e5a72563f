/-
# Splitting what was joined

Texts that were joined with a separator are found again by splitting at it, as long
as none of them holds the separator. Nothing else is needed: pieces may be empty, and
may hold whatever else delimits texts elsewhere.
-/

import OData.Text.Search

namespace OData.Text

theorem splitChars_eq_splitOn (separator : Char) (chars : List Char) :
    splitChars separator chars = chars.splitOn separator := by
  induction chars with
  | nil => rfl
  | cons c rest ih =>
      rw [List.splitOn, List.splitOnP_cons_eq_if_modifyHead, ← List.splitOn, ← ih, splitChars]
      cases found : splitChars separator rest with
      | nil => exact absurd found (splitChars_ne_nil separator rest)
      | cons piece pieces => by_cases isSeparator : c = separator <;> simp [isSeparator]

/-- There is one piece more than there are separators. -/
theorem length_splitAt (separator : Char) (text : String) :
    (splitAt separator text).length = text.toList.count separator + 1 := by
  rw [splitAt, List.length_map]
  induction text.toList with
  | nil => rfl
  | cons c rest ih =>
      rw [splitChars, List.count_cons]
      cases found : splitChars separator rest with
      | nil => exact absurd found (splitChars_ne_nil separator rest)
      | cons piece pieces =>
          rw [found] at ih
          by_cases isSeparator : c = separator
          · simpa [isSeparator] using ih
          · simpa [isSeparator] using ih

/-- Texts without the separator between them are found again. -/
theorem splitAt_intercalate {separator : Char} {pieces : List String} (someThere : pieces ≠ [])
    (absent : ∀ piece ∈ pieces, separator ∉ piece.toList) :
    splitAt separator ((String.singleton separator).intercalate pieces) = pieces := by
  have chars : ((String.singleton separator).intercalate pieces).toList =
      [separator].intercalate (pieces.map String.toList) := by
    rw [String.toList_intercalate, String.toList_singleton]
  have apart : ∀ piece ∈ pieces.map String.toList, separator ∉ piece := by
    intro piece isMember
    obtain ⟨text, isText, rfl⟩ := List.mem_map.mp isMember
    exact absent text isText
  rw [splitAt, chars, splitChars_eq_splitOn, List.splitOn_intercalate separator apart (by simpa)]
  simp

theorem not_mem_of_mem_splitChars {separator : Char} {chars piece : List Char}
    (isPiece : piece ∈ splitChars separator chars) : separator ∉ piece := by
  induction chars generalizing piece with
  | nil =>
      obtain rfl := List.mem_singleton.mp isPiece
      exact List.not_mem_nil
  | cons c rest ih =>
      rw [splitChars] at isPiece
      cases found : splitChars separator rest with
      | nil => exact absurd found (splitChars_ne_nil separator rest)
      | cons first others =>
          rw [found] at isPiece ih
          dsimp only at isPiece
          split at isPiece
          · rcases List.mem_cons.mp isPiece with rfl | isPiece
            · exact List.not_mem_nil
            · exact ih isPiece
          · rename_i different
            rcases List.mem_cons.mp isPiece with rfl | isPiece
            · rw [List.mem_cons, not_or]
              exact ⟨Ne.symm different, ih List.mem_cons_self⟩
            · exact ih (List.mem_cons_of_mem _ isPiece)

/-- The pieces of a text are the texts without the separator that join to it. -/
theorem splitAt_eq_iff {separator : Char} {text : String} {pieces : List String} :
    splitAt separator text = pieces ↔
      pieces ≠ [] ∧ (∀ piece ∈ pieces, separator ∉ piece.toList) ∧
        (String.singleton separator).intercalate pieces = text := by
  constructor
  · rintro rfl
    refine ⟨by simpa [splitAt] using splitChars_ne_nil separator text.toList, ?_, ?_⟩
    · intro piece isPiece
      obtain ⟨chars, isMember, rfl⟩ := List.mem_map.mp isPiece
      rw [String.toList_ofList]
      exact not_mem_of_mem_splitChars isMember
    · have backAgain : String.toList ∘ String.ofList = id :=
        funext fun chars => String.toList_ofList
      rw [← String.toList_inj, String.toList_intercalate, String.toList_singleton, splitAt,
        List.map_map, backAgain, List.map_id, splitChars_eq_splitOn, List.intercalate_splitOn]
  · rintro ⟨someThere, absent, rfl⟩
    exact splitAt_intercalate someThere absent

/-- A joined text holds no character that neither the separator nor a piece holds. -/
theorem not_mem_intercalate {c : Char} {separator : String} {pieces : List String}
    (apart : c ∉ separator.toList) (absent : ∀ piece ∈ pieces, c ∉ piece.toList) :
    c ∉ (separator.intercalate pieces).toList := by
  induction pieces with
  | nil => simp
  | cons piece pieces ih =>
      have inRest := ih fun other isMember => absent other (List.mem_cons_of_mem piece isMember)
      have inPiece := absent piece List.mem_cons_self
      cases pieces with
      | nil => simpa using inPiece
      | cons next others =>
          simp only [String.intercalate_cons_cons, String.toList_append, List.mem_append]
          rintro ((inside | inside) | inside)
          · exact inPiece inside
          · exact apart inside
          · exact inRest inside

section

variable {α : Type} [BEq α] [LawfulBEq α] {stop : α} {front : List α}

theorem passes_of_not_mem (absent : stop ∉ front) : ∀ c ∈ front, (c != stop) = true :=
  fun _ isMember => bne_iff_ne.mpr fun same => absent (same ▸ isMember)

theorem takeWhile_append_stop (absent : stop ∉ front) (rest : List α) :
    (front ++ stop :: rest).takeWhile (· != stop) = front := by
  rw [List.takeWhile_append_of_pos (passes_of_not_mem absent),
    List.takeWhile_cons_of_neg (by simp), List.append_nil]

theorem dropWhile_append_stop (absent : stop ∉ front) (rest : List α) :
    (front ++ stop :: rest).dropWhile (· != stop) = stop :: rest := by
  rw [List.dropWhile_append_of_pos (passes_of_not_mem absent),
    List.dropWhile_cons_of_neg (by simp)]

end

/-- What satisfies a property is passed up to the first character that does not. -/
theorem takeWhile_dropWhile_append {passes : Char → Bool} {front rest : List Char}
    (all : ∀ c ∈ front, passes c = true) (stops : ∀ c ∈ rest.head?, passes c = false) :
    (front ++ rest).takeWhile passes = front ∧ (front ++ rest).dropWhile passes = rest := by
  rw [List.takeWhile_append_of_pos all, List.dropWhile_append_of_pos all]
  cases rest with
  | nil => exact ⟨List.append_nil _, rfl⟩
  | cons c rest =>
      have stopped : ¬passes c = true := by simpa using stops c rfl
      rw [List.takeWhile_cons_of_neg stopped, List.dropWhile_cons_of_neg stopped]
      exact ⟨List.append_nil _, rfl⟩

theorem occursIn_iff_infix (word chars : List Char) :
    occursIn word chars = true ↔ word <:+: chars := by
  induction chars with
  | nil => simp [occursIn, cutChars?]
  | cons c rest ih =>
      rw [List.infix_cons_iff, ← ih, occursIn, occursIn, cutChars?, ← List.isPrefixOf_iff_prefix]
      cases word.isPrefixOf (c :: rest) <;> simp

theorem cutChars?_of_not_mem {mark : Char} {before : List Char} (absent : mark ∉ before)
    (after : List Char) : cutChars? [mark] (before ++ mark :: after) = some (before, after) := by
  induction before with
  | nil => simp [cutChars?]
  | cons c before ih =>
      obtain ⟨different, others⟩ := List.ne_and_not_mem_of_not_mem_cons absent
      simp [cutChars?, different, ih others]

/-- A text is cut where it was put together, if the mark does not come up before. -/
theorem cut?_of_not_mem {mark : Char} {before : String} (absent : mark ∉ before.toList)
    (after : String) :
    cut? (String.singleton mark) (before ++ String.singleton mark ++ after) =
      some (before, after) := by
  have chars : (before ++ String.singleton mark ++ after).toList =
      before.toList ++ mark :: after.toList := by
    simp
  rw [cut?, chars, String.toList_singleton, cutChars?_of_not_mem absent]
  simp

/-- A text is cut where it was put together, exactly if the mark does not come up before.
One that does would end at least one character short of the mark that was put there. -/
theorem cutChars?_append_iff {mark : List Char} (someMark : mark ≠ [])
    (before after : List Char) :
    cutChars? mark (before ++ mark ++ after) = some (before, after) ↔
      occursIn mark (before ++ mark.dropLast) = false := by
  have shorter : mark.dropLast.length + 1 = mark.length := by
    rw [List.length_dropLast, Nat.sub_add_cancel (List.length_pos_iff.mpr someMark)]
  induction before with
  | nil =>
      have isCut : cutChars? mark (mark ++ after) = some ([], after) := by
        obtain ⟨c, rest, rfl⟩ := List.exists_cons_of_ne_nil someMark
        rw [List.cons_append, cutChars?, if_pos]
        · simp
        · exact List.isPrefixOf_iff_prefix.mpr (List.prefix_append _ _)
      have absent : cutChars? mark mark.dropLast = none := by
        apply Option.eq_none_iff_forall_ne_some.mpr
        intro parts found
        have lengths := congrArg List.length (cutChars?_append found)
        simp only [List.length_append] at lengths
        omega
      simp [isCut, occursIn, absent]
  | cons c before ih =>
      -- Whether the mark begins here does not depend on what comes behind the next one.
      have sameFront : mark.isPrefixOf (c :: (before ++ mark.dropLast)) =
          mark.isPrefixOf (c :: (before ++ mark ++ after)) := by
        have split : c :: (before ++ mark ++ after) =
            c :: (before ++ mark.dropLast) ++ (mark.getLast someMark :: after) := by
          have behind : mark ++ after = mark.dropLast ++ mark.getLast someMark :: after := by
            rw [List.append_cons, List.dropLast_concat_getLast someMark]
          simp [behind]
        have enough : mark.length ≤ (c :: (before ++ mark.dropLast)).length := by
          simp only [List.length_cons, List.length_append]
          omega
        rw [Bool.eq_iff_iff, List.isPrefixOf_iff_prefix, List.isPrefixOf_iff_prefix, split]
        exact ⟨fun isFront => isFront.trans (List.prefix_append _ _),
          fun isFront => List.prefix_of_prefix_length_le isFront (List.prefix_append _ _) enough⟩
      simp only [List.cons_append, occursIn, cutChars?, sameFront]
      cases mark.isPrefixOf (c :: (before ++ mark ++ after)) with
      | true => simp
      | false => simpa [occursIn] using ih

/-- The text is cut around a mark, and the mark does not begin earlier. -/
structure CutsFirst (mark chars before after : List Char) : Prop where
  whole : chars = before ++ mark ++ after
  first : ∀ front behind, chars = front ++ mark ++ behind → before.length ≤ front.length

/-- A text is cut around the first mark in it. -/
theorem cutChars?_eq_some_iff {mark chars before after : List Char} (someMark : mark ≠ []) :
    cutChars? mark chars = some (before, after) ↔ CutsFirst mark chars before after := by
  have ends : mark = mark.dropLast ++ [mark.getLast someMark] :=
    (List.dropLast_concat_getLast someMark).symm
  have shorter : mark.dropLast.length + 1 = mark.length := by
    rw [List.length_dropLast, Nat.sub_add_cancel (List.length_pos_iff.mpr someMark)]
  constructor
  · intro isCut
    obtain rfl := cutChars?_append isCut
    rw [cutChars?_append_iff someMark] at isCut
    refine ⟨rfl, fun front behind same => Nat.le_of_not_lt fun isEarlier => ?_⟩
    -- A mark that begins earlier ends before the last character of this one.
    have isFront : front ++ mark <+: before ++ mark ++ after := ⟨behind, same.symm⟩
    have shorterFront : before ++ mark.dropLast <+: before ++ mark ++ after := by
      rw [List.append_assoc, List.prefix_append_right_inj]
      exact (List.dropLast_prefix mark).trans (List.prefix_append _ _)
    have fits : (front ++ mark).length ≤ (before ++ mark.dropLast).length := by
      simp only [List.length_append]
      omega
    obtain ⟨more, within⟩ := List.prefix_of_prefix_length_le isFront shorterFront fits
    rw [Bool.eq_false_iff, ne_eq, occursIn_iff_infix] at isCut
    exact isCut ⟨front, more, within⟩
  · rintro ⟨rfl, first⟩
    rw [cutChars?_append_iff someMark, Bool.eq_false_iff, ne_eq, occursIn_iff_infix]
    rintro ⟨front, behind, same⟩
    have lengths := congrArg List.length same
    have sooner : before ++ mark ++ after =
        front ++ mark ++ (behind ++ mark.getLast someMark :: after) := by
      rw [← List.append_assoc, same, List.append_assoc, List.append_assoc, List.append_cons,
        ← ends]
    have later := first _ _ sooner
    simp only [List.length_append] at lengths
    omega

/-- Cutting loses the mark and nothing else. -/
theorem eq_of_cut? {mark text before after : String}
    (isCut : cut? mark text = some (before, after)) : text = before ++ mark ++ after := by
  obtain ⟨parts, found, same⟩ := Option.map_eq_some_iff.mp isCut
  obtain ⟨rfl, rfl⟩ := Prod.mk.inj same
  have chars := cutChars?_append found
  rw [← String.toList_inj]
  simpa using chars

theorem cut?_append_iff {mark : String} (someMark : mark.toList ≠ []) (before after : String) :
    cut? mark (before ++ mark ++ after) = some (before, after) ↔
      occursIn mark.toList (before.toList ++ mark.toList.dropLast) = false := by
  rw [← cutChars?_append_iff someMark _ after.toList, cut?, String.toList_append,
    String.toList_append]
  constructor
  · intro isCut
    obtain ⟨parts, found, same⟩ := Option.map_eq_some_iff.mp isCut
    obtain ⟨isBefore, isAfter⟩ := Prod.mk.inj same
    rw [found, ← isBefore, ← isAfter, String.toList_ofList, String.toList_ofList]
  · intro found
    rw [found, Option.map_some, String.ofList_toList, String.ofList_toList]

end OData.Text
